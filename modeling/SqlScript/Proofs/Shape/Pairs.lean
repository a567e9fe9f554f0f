import SqlScript.Proofs.Shape.Chain

/-!
Shapes that pair delimiters: what has such a shape closes the groups that open in it. The grammars
are covered by the class, one instance for each way to put shapes together.
-/

namespace SqlScript

open SqlScript.Tree (Element Node Paired)

namespace Shape

variable {ρ : Type} {loose : Bool} {f g : Shape ρ} {es : List (Element ρ)}

/--
Elements of the shape close the groups that open among them. Separators stand inside of groups only,
unless they may stand loose.
-/
class Pairs (loose : Bool) (f : Shape ρ) : Prop where
  paired {es : List (Element ρ)} : f.Matches es → Paired loose es

theorem paired_group {opener closer : TokenKind} {xs ys : List (Element ρ)}
    (h : opener.closer? = some closer) (hxs : (kind opener : Shape ρ).Matches xs)
    (hes : Paired true es) (hys : (kind closer : Shape ρ).Matches ys) :
    Paired loose (xs ++ es ++ ys) := by
  obtain ⟨o, rfl, ho⟩ := hxs
  obtain ⟨c, rfl, hc⟩ := hys
  have hclosed : o.kind.closer? = some c.kind := by
    rw [(TokenKind.eq_of_alike h).1 ho, (TokenKind.eq_of_alike h).2 hc, h]
  have hgroup : Paired loose ([.token o] ++ es ++ [.token c]) :=
    List.append_assoc .. ▸ Paired.group hclosed hes .nil
  exact hgroup

theorem paired_anyToken (h : (anyToken : Shape ρ).Matches es)
    (hplain : ∀ t, es = [.token t] → t.kind.isPlain) : Paired loose es := by
  obtain rfl | ⟨t, rfl, -⟩ := h
  · exact .nil
  · exact .plain (hplain t rfl) .nil

namespace Pairs

instance : Pairs loose (nothing : Shape ρ) where
  paired h := h ▸ .nil

instance (p : Token → Bool) [hp : Token.Plain p] : Pairs loose (token p : Shape ρ) where
  paired := by
    rintro _ ⟨t, rfl, ht⟩
    exact .plain (hp.isPlain ht) .nil

instance : Pairs true (kind .semicolon : Shape ρ) where
  paired := by
    rintro _ ⟨t, rfl, ht⟩
    exact .separator (TokenKind.eq_semicolon_of_alike ht) .nil

instance : Pairs loose (tokens : Shape ρ) where
  paired h := by
    cases loose with
    | false => exact h.2
    | true => exact h.2.loosen

instance (rules : List ρ) (p : Node ρ → Bool) : Pairs loose (node rules p) where
  paired := by
    rintro _ ⟨n, rfl, -⟩
    exact .node .nil

instance [hf : Pairs loose f] [hg : Pairs loose g] : Pairs loose (f ++ g) where
  paired := by
    rintro _ ⟨xs, ys, rfl, hxs, hys⟩
    exact (hf.paired hxs).append (hg.paired hys)

instance [hf : Pairs loose f] [hg : Pairs loose g] : Pairs loose (f ||| g) where
  paired h := h.elim hf.paired hg.paired

instance [hf : Pairs loose f] : Pairs loose (many f) where
  paired := by
    rintro _ ⟨parts, rfl, hparts⟩
    exact .flatten fun xs hxs => hf.paired (hparts xs hxs)

instance [Pairs loose f] : Pairs loose (opt f) :=
  inferInstanceAs (Pairs loose (nothing ||| f))

instance (w : Keyword) : Pairs loose (word w : Shape ρ) :=
  inferInstanceAs (Pairs loose (token _))

instance (words : List Keyword) : Pairs loose (oneOf words : Shape ρ) :=
  inferInstanceAs (Pairs loose (token _))

instance (word : String) : Pairs loose (plainWord word : Shape ρ) :=
  inferInstanceAs (Pairs loose (token _))

instance : Pairs loose (namePart : Shape ρ) :=
  inferInstanceAs (Pairs loose (token _))

instance (k : TokenKind) [Token.Plain (·.kind.alike k)] : Pairs loose (kind k : Shape ρ) :=
  inferInstanceAs (Pairs loose (token _))

instance : Pairs loose (dotted : Shape ρ) :=
  inferInstanceAs (Pairs loose (namePart ++ many (token _)))

instance : Pairs loose (plainToken : Shape ρ) :=
  inferInstanceAs (Pairs loose (opt (token _)))

instance (rules : List ρ) : Pairs loose (oneIn rules) :=
  inferInstanceAs (Pairs loose (node _ _))

instance (rule : ρ) : Pairs loose (one rule) :=
  inferInstanceAs (Pairs loose (node _ _))

instance [Bonds ρ] (rules : List ρ) (least : Nat) : Pairs loose (strong rules least) :=
  inferInstanceAs (Pairs loose (node _ _))

instance [Pairs loose f] : Pairs loose (sequence [f]) :=
  inferInstanceAs (Pairs loose f)

instance {fs : List (Shape ρ)} [Pairs loose f] [Pairs loose (sequence (g :: fs))] :
    Pairs loose (sequence (f :: g :: fs)) :=
  inferInstanceAs (Pairs loose (f ++ sequence (g :: fs)))

instance [Pairs loose f] [Pairs loose g] : Pairs loose (commasFrom f g) :=
  inferInstanceAs (Pairs loose (f ++ many (kind .comma ++ g)))

instance [Pairs loose f] : Pairs loose (commas f) :=
  inferInstanceAs (Pairs loose (commasFrom f f))

instance [hf : Pairs true f] : Pairs loose (parens f) where
  paired := by
    rintro _ ⟨_, zs, rfl, ⟨xs, ys, rfl, hxs, hys⟩, hzs⟩
    exact paired_group rfl hxs (hf.paired hys) hzs

instance [hf : Pairs true f] : Pairs loose (brackets f) where
  paired := by
    rintro _ ⟨_, zs, rfl, ⟨xs, ys, rfl, hxs, hys⟩, hzs⟩
    exact paired_group rfl hxs (hf.paired hys) hzs

instance : Pairs loose (tokenGroup : Shape ρ) :=
  inferInstanceAs (Pairs loose (parens tokens ||| brackets tokens))

end Pairs

end Shape

namespace InfixLayer

variable {ρ : Type} [Bonds ρ] {loose : Bool}

theorem pairs_chain (layer : InfixLayer ρ) (operator : InfixOperator ρ)
    [Shape.Pairs loose (layer.sign operator)] : Shape.Pairs loose (layer.chain operator) := by
  unfold chain signed
  infer_instance

end InfixLayer

end SqlScript
