import SqlScript.Proofs.Pairing

/-!
What the productions of a grammar are made of. A shape says which tokens and nested productions
stand one behind the other; a tree is well formed if the children of each of its productions have
the shape of that production.
-/

namespace SqlScript

open SqlScript.Tree (Node Element Paired)

/--
A question that no delimiter and no separator satisfies.
-/
class Token.Plain (p : Token → Bool) : Prop where
  isPlain {t : Token} : p t → t.kind.isPlain

def Token.isDotted (t : Token) : Bool :=
  t.isNamePart || t.kind.alike .dot

namespace Token.Plain

variable {p q : Token → Bool}

theorem of_keyword? {t : Token} (h : t.keyword?.isSome) : t.kind.isPlain := by
  unfold Token.keyword? at h
  split at h
  · rename_i hk
    rw [hk]
    rfl
  · contradiction

theorem alike {kind : TokenKind}
    (hkind : ∀ mark ∈ [TokenKind.leftParen, .leftBracket, .rightParen, .rightBracket, .semicolon],
      mark.alike kind = false) : Plain (·.kind.alike kind) where
  isPlain {t} ht := by
    unfold TokenKind.isPlain
    split
    all_goals first | rfl | simp_all

instance : Plain (·.kind.alike .comma) := alike (by decide)
instance : Plain (·.kind.alike .dot) := alike (by decide)
instance : Plain (·.kind.alike .eq) := alike (by decide)
instance : Plain (·.kind.alike .star) := alike (by decide)
instance : Plain (·.kind.alike .string) := alike (by decide)
instance : Plain (·.kind.alike .integer) := alike (by decide)
instance : Plain (·.kind.alike .float) := alike (by decide)
instance : Plain (·.kind.alike .assign) := alike (by decide)
instance : Plain (·.kind.alike .atVariable) := alike (by decide)
instance : Plain (·.kind.alike .question) := alike (by decide)

instance : Plain (·.kind.isPlain) := ⟨id⟩

instance (word : Keyword) : Plain (·.isKeyword word) where
  isPlain {t} ht := of_keyword? (by simp_all [Token.isKeyword])

instance (words : List Keyword) : Plain (·.isOneOf words) where
  isPlain {t} ht := by
    apply of_keyword?
    unfold Token.isOneOf at ht
    cases hk : t.keyword? <;> simp_all

instance (word : String) : Plain (·.isWord word) where
  isPlain {t} ht := by
    unfold Token.isWord at ht
    cases hk : t.kind <;> simp_all [TokenKind.isPlain]

instance : Plain Token.isNamePart where
  isPlain {t} ht := by
    unfold Token.isNamePart at ht
    cases hk : t.kind <;> simp_all [TokenKind.isPlain]

instance [hp : Plain p] [hq : Plain q] : Plain fun t => p t || q t where
  isPlain ht := ((Bool.or_eq_true _ _).mp ht).elim hp.isPlain hq.isPlain

instance : Plain Token.isDotted :=
  inferInstanceAs (Plain fun t => t.isNamePart || t.kind.alike .dot)

instance (words : List String) : Plain fun t => words.any t.isWord where
  isPlain ht := by
    obtain ⟨word, -, hword⟩ := List.any_eq_true.1 ht
    exact isPlain (p := (·.isWord word)) hword

end Token.Plain

/--
What can stand one behind the other in a production.
-/
inductive Shape (ρ : Type) where
  | nothing
  /-- A token that satisfies the question. -/
  | token (p : Token → Bool)
  /-- Tokens that close the groups they open, with separators inside of groups only. -/
  | tokens
  /-- A production of one of these kinds that satisfies the question. -/
  | node (rules : List ρ) (p : Node ρ → Bool)
  | seq (f g : Shape ρ)
  | alt (f g : Shape ρ)
  | many (f : Shape ρ)

/--
How strongly the operator on top of a production binds, if there is one.
-/
class Bonds (ρ : Type) where
  bond? : Node ρ → Option Nat

class Grammar (ρ : Type) extends Bonds ρ where
  shape : ρ → Shape ρ

namespace Shape

variable {ρ : Type}

instance : Append (Shape ρ) := ⟨seq⟩
instance : OrOp (Shape ρ) := ⟨alt⟩

def kind (kind : TokenKind) : Shape ρ :=
  token (·.kind.alike kind)

def word (word : Keyword) : Shape ρ :=
  token (·.isKeyword word)

def oneOf (words : List Keyword) : Shape ρ :=
  token (·.isOneOf words)

def plainWord (word : String) : Shape ρ :=
  token (·.isWord word)

def namePart : Shape ρ :=
  token Token.isNamePart

def dotted : Shape ρ :=
  namePart ++ many (token Token.isDotted)

def opt (f : Shape ρ) : Shape ρ :=
  nothing ||| f

/--
At most one token, which is no delimiter and no separator.
-/
def plainToken : Shape ρ :=
  opt (token (·.kind.isPlain))

def anyToken : Shape ρ :=
  opt (token fun _ => true)

def oneIn (rules : List ρ) : Shape ρ :=
  node rules fun _ => true

def one (rule : ρ) : Shape ρ :=
  oneIn [rule]

def sequence : List (Shape ρ) → Shape ρ
  | [] => nothing
  | [f] => f
  | f :: fs => f ++ sequence fs

/--
Something and then any number of items, each with a comma in front.
-/
def commasFrom (first item : Shape ρ) : Shape ρ :=
  first ++ many (kind .comma ++ item)

def commas (item : Shape ρ) : Shape ρ :=
  commasFrom item item

def parens (f : Shape ρ) : Shape ρ :=
  kind .leftParen ++ f ++ kind .rightParen

def brackets (f : Shape ρ) : Shape ρ :=
  kind .leftBracket ++ f ++ kind .rightBracket

def tokenGroup : Shape ρ :=
  parens tokens ||| brackets tokens

def bars (p : ρ → Bool) : Shape ρ → Bool
  | nothing | token _ | tokens => true
  | node rules _ => rules.all (!p ·)
  | seq f g | alt f g => f.bars p && g.bars p
  | many f => f.bars p

/--
A production of one of these kinds. An operator on top of it binds at least so strongly.
-/
def strong [Bonds ρ] (rules : List ρ) (least : Nat) : Shape ρ :=
  node rules fun n => (Bonds.bond? n).all (least ≤ ·)

def Matches : Shape ρ → List (Element ρ) → Prop
  | nothing, es => es = []
  | token p, es => ∃ t, es = [.token t] ∧ p t
  | tokens, es => (∀ e ∈ es, e.node? = none) ∧ Paired false es
  | node rules p, es =>
    ∃ n, es = [.node n] ∧ n.rule ∈ rules ∧ p n
  | seq f g, es => ∃ xs ys, es = xs ++ ys ∧ f.Matches xs ∧ g.Matches ys
  | alt f g, es => f.Matches es ∨ g.Matches es
  | many f, es => ∃ parts : List (List (Element ρ)), es = parts.flatten ∧ ∀ xs ∈ parts, f.Matches xs

def Within (f g : Shape ρ) : Prop :=
  ∀ ⦃es⦄, f.Matches es → g.Matches es

section

variable {f g k : Shape ρ} {es xs ys : List (Element ρ)}

theorem matches_node {rules : List ρ} {p : Node ρ → Bool} : (node rules p).Matches es ↔
    ∃ n, es = [.node n] ∧ n.rule ∈ rules ∧ p n :=
  Iff.rfl

theorem matches_oneIn {rules : List ρ} :
    (oneIn rules).Matches es ↔ ∃ n, es = [.node n] ∧ n.rule ∈ rules := by
  unfold oneIn
  rw [matches_node]
  simp only [and_true]

theorem matches_one {rule : ρ} :
    (one rule).Matches es ↔ ∃ n, es = [.node n] ∧ n.rule = rule := by
  unfold one
  rw [matches_oneIn]
  simp only [List.mem_singleton]

theorem Matches.append (hf : f.Matches xs) (hg : g.Matches ys) : (f ++ g).Matches (xs ++ ys) :=
  ⟨xs, ys, rfl, hf, hg⟩

theorem Matches.many_nil (f : Shape ρ) : (many f).Matches [] :=
  ⟨[], rfl, by simp⟩

theorem Matches.many_append (h : (many f).Matches xs) (hf : f.Matches ys) :
    (many f).Matches (xs ++ ys) := by
  obtain ⟨parts, rfl, hparts⟩ := h
  refine ⟨parts ++ [ys], by simp, ?_⟩
  intro zs hzs
  rw [List.mem_append, List.mem_singleton] at hzs
  obtain hzs | rfl := hzs
  · exact hparts zs hzs
  · exact hf

theorem Matches.tokens_nil : (tokens : Shape ρ).Matches [] :=
  ⟨nofun, .nil⟩

theorem Matches.tokens_append (hxs : (tokens : Shape ρ).Matches xs)
    (hys : (tokens : Shape ρ).Matches ys) : (tokens : Shape ρ).Matches (xs ++ ys) :=
  ⟨fun e he => (List.mem_append.1 he).elim (hxs.1 e) (hys.1 e), hxs.2.append hys.2⟩

theorem Matches.tokens_singleton {t : Token} (ht : t.kind.isPlain) :
    (tokens : Shape ρ).Matches [.token t] :=
  ⟨by simp [Tree.Element.node?], .plain ht .nil⟩

theorem Within.token_tokens (p : Token → Bool) [hp : Token.Plain p] :
    (token p : Shape ρ).Within tokens := by
  rintro _ ⟨t, rfl, ht⟩
  exact .tokens_singleton (hp.isPlain ht)

theorem Within.many_tokens : (many tokens : Shape ρ).Within tokens := by
  rintro _ ⟨parts, rfl, hparts⟩
  induction parts with
  | nil => exact .tokens_nil
  | cons xs parts ih =>
    rw [List.flatten_cons]
    exact (hparts xs List.mem_cons_self).tokens_append
      (ih fun ys hys => hparts ys (List.mem_cons_of_mem _ hys))

theorem Within.many_many (f : Shape ρ) : (many (many f)).Within (many f) := by
  rintro _ ⟨parts, rfl, hparts⟩
  induction parts with
  | nil => exact .many_nil f
  | cons xs parts ih =>
    obtain ⟨items, rfl, hitems⟩ := hparts xs List.mem_cons_self
    obtain ⟨more, heq, hmore⟩ := ih fun ys hys => hparts ys (List.mem_cons_of_mem _ hys)
    refine ⟨items ++ more, by rw [List.flatten_cons, heq, List.flatten_append], ?_⟩
    exact fun ys hys => (List.mem_append.1 hys).elim (hitems ys) (hmore ys)

theorem Within.many {f g : Shape ρ} (h : f.Within g) : (Shape.many f).Within (Shape.many g) := by
  rintro _ ⟨parts, rfl, hparts⟩
  exact ⟨parts, rfl, fun xs hxs => h (hparts xs hxs)⟩

theorem Within.refl (f : Shape ρ) : f.Within f :=
  fun _ h => h

theorem Within.trans (hfg : f.Within g) (hgk : g.Within k) : f.Within k :=
  fun _ h => hgk (hfg h)

theorem Within.node {rules rules' : List ρ} {p p' : Node ρ → Bool} (hrules : rules ⊆ rules')
    (hp : ∀ n, n.rule ∈ rules → p n → p' n) : (node rules p).Within (node rules' p') := by
  rintro _ ⟨n, rfl, hn, hpn⟩
  exact ⟨n, rfl, hrules hn, hp n hn hpn⟩

theorem Within.oneIn {rules rules' : List ρ} (hrules : rules ⊆ rules') :
    (Shape.oneIn rules).Within (Shape.oneIn rules') :=
  .node hrules fun _ _ h => h

theorem Within.opt (f : Shape ρ) : f.Within f.opt :=
  fun _ => .inr

theorem Within.token_plainToken (p : Token → Bool) [hp : Token.Plain p] :
    (token p : Shape ρ).Within plainToken := by
  rintro _ ⟨t, rfl, ht⟩
  exact .inr ⟨t, rfl, hp.isPlain ht⟩

theorem Within.opt_token (p : Token → Bool) [Token.Plain p] :
    (Shape.opt (token p) : Shape ρ).Within plainToken := by
  rintro es (rfl | hes)
  · exact .inl rfl
  · exact token_plainToken p hes

theorem Within.opt_nothing (f : Shape ρ) : (nothing : Shape ρ).Within f.opt :=
  fun _ => .inl

theorem Within.append_of_nil (hg : g.Matches []) : f.Within (f ++ g) :=
  fun es hes => ⟨es, [], by simp, hes, hg⟩

theorem Within.opt_append (f : Shape ρ) : g.Within (f.opt ++ g) :=
  fun es hes => ⟨[], es, rfl, .inl rfl, hes⟩

theorem Within.append_opt (f g : Shape ρ) : f.Within (f ++ g.opt) :=
  .append_of_nil (.inl rfl)

theorem Within.assoc : (f ++ g ++ k).Within (f ++ (g ++ k)) := by
  rintro _ ⟨_, zs, rfl, ⟨xs, ys, rfl, hxs, hys⟩, hzs⟩
  exact ⟨xs, ys ++ zs, by simp, hxs, hys.append hzs⟩

theorem Within.assoc_symm : (f ++ (g ++ k)).Within (f ++ g ++ k) := by
  rintro _ ⟨xs, _, rfl, hxs, ys, zs, rfl, hys, hzs⟩
  exact ⟨xs ++ ys, zs, by simp, hxs.append hys, hzs⟩

theorem Within.append {f' g' : Shape ρ} (hf : f.Within f') (hg : g.Within g') :
    (f ++ g).Within (f' ++ g') := by
  rintro _ ⟨xs, ys, rfl, hxs, hys⟩
  exact ⟨xs, ys, rfl, hf hxs, hg hys⟩

end

section

variable [Bonds ρ] {rules rules' : List ρ} {least least' : Nat}

theorem Within.strong (hrules : rules ⊆ rules') (hle : least' ≤ least) :
    (Shape.strong rules least).Within (Shape.strong rules' least') := by
  apply Within.node hrules
  intro n _ hn
  rw [Option.all_eq_true] at hn ⊢
  intro k hk
  exact decide_eq_true (Nat.le_trans hle (of_decide_eq_true (hn k hk)))

theorem Within.free (hrules : rules ⊆ rules')
    (hfree : ∀ n : Node ρ, n.rule ∈ rules → Bonds.bond? n = none) :
    (Shape.oneIn rules).Within (Shape.strong rules' least) := by
  apply Within.node hrules
  intro n hn _
  rw [hfree n hn]
  rfl

theorem Within.strong_oneIn : (Shape.strong rules least).Within (Shape.oneIn rules) :=
  .node (fun _ h => h) fun _ _ _ => rfl

end

end Shape

namespace Tree

variable {ρ : Type} [Grammar ρ]

/--
The children of the production, and of all that is nested in it, have the shapes they should have.
-/
def Node.Formed (n : Node ρ) : Prop :=
  ∀ m, n.Contains m → (Grammar.shape m.rule).Matches m.children

def Element.Formed (e : Element ρ) : Prop :=
  ∀ n, e = .node n → n.Formed

namespace Node.Formed

variable {n m : Node ρ}

theorem matches_children (h : n.Formed) : (Grammar.shape n.rule).Matches n.children :=
  h n (.refl n)

theorem child (h : n.Formed) (hm : m ∈ n.childNodes) : m.Formed :=
  fun _ hk => h _ (.child hm hk)

theorem of_children {rule : ρ} {span : Span} {es : List (Element ρ)}
    (h : (Grammar.shape rule).Matches es) (hes : ∀ e ∈ es, e.Formed) :
    (Node.mk rule span es).Formed := by
  intro m hm
  cases hm with
  | refl => exact h
  | child hk hm => exact hes _ (mem_children_of_mem_childNodes hk) _ rfl _ hm

end Node.Formed

theorem Element.formed_token (t : Token) : (Element.token t : Element ρ).Formed :=
  nofun

def nodesOf (es : List (Element ρ)) : List (Node ρ) :=
  es.filterMap Element.node?

section

variable {es fs : List (Element ρ)}

omit [Grammar ρ]

theorem Node.childNodes_eq (n : Node ρ) : n.childNodes = nodesOf n.children :=
  rfl

theorem mem_leaves_of_mem_tokens {n : Node ρ} {t : Token} (ht : t ∈ n.tokens) :
    t ∈ leaves n.children := by
  obtain ⟨e, he, ht⟩ := List.mem_filterMap.1 ht
  obtain ⟨xs, ys, hxs⟩ := List.append_of_mem he
  cases e with
  | node m => cases ht
  | token u =>
    cases ht
    rw [hxs, leaves_append]
    exact List.mem_append_right _ List.mem_cons_self

theorem mem_leaves_of_mem_childNodes {n m : Node ρ} {t : Token} (hm : m ∈ n.childNodes)
    (ht : t ∈ m.leaves) : t ∈ n.leaves := by
  obtain ⟨xs, ys, hxs⟩ := List.append_of_mem (mem_children_of_mem_childNodes hm)
  rw [Node.leaves_eq, hxs, leaves_append]
  exact List.mem_append_right _ (List.mem_append_left _ ht)

@[simp]
theorem nodesOf_nil : nodesOf ([] : List (Element ρ)) = [] :=
  rfl

theorem nodesOf_eq_nil (h : ∀ e ∈ es, e.node? = none) : nodesOf es = [] :=
  List.filterMap_eq_nil_iff.2 h

@[simp]
theorem nodesOf_append : nodesOf (es ++ fs) = nodesOf es ++ nodesOf fs :=
  List.filterMap_append

@[simp]
theorem nodesOf_flatten (parts : List (List (Element ρ))) :
    nodesOf parts.flatten = (parts.map nodesOf).flatten := by
  induction parts with
  | nil => rfl
  | cons xs parts ih => rw [List.flatten_cons, nodesOf_append, ih, List.map_cons, List.flatten_cons]

@[simp]
theorem nodesOf_token (t : Token) : nodesOf [(.token t : Element ρ)] = [] :=
  rfl

@[simp]
theorem nodesOf_node (n : Node ρ) : nodesOf [.node n] = [n] :=
  rfl

end

end Tree

end SqlScript
