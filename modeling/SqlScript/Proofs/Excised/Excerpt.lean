import SqlScript.Proofs.Lineage.Shaped
import SqlScript.Proofs.Joined.Statements
import SqlScript.Proofs.MySql.Forms.Script
import SqlScript.Proofs.Postgres.Forms.Script

/-!
A statement says of itself that it stands where its production lies.
-/

namespace SqlScript

open SqlScript.Tree (Node Element)

variable {ρ : Type}

namespace Shape

def Lone (f : Shape ρ) : Prop :=
  ∀ ⦃es⦄, f.Matches es → ∀ m, Element.node m ∈ es → es = [.node m]

namespace Lone

theorem node (rules : List ρ) (p : Node ρ → Bool) : (Shape.node rules p).Lone := by
  rintro _ ⟨k, rfl, -⟩ m hm
  rw [List.mem_singleton.1 hm]

theorem tokens : (Shape.tokens : Shape ρ).Lone := by
  rintro es ⟨hes, -⟩ m hm
  have := hes _ hm
  contradiction

theorem or {f g : Shape ρ} (hf : f.Lone) (hg : g.Lone) : (f ||| g).Lone :=
  fun _ hes => hes.elim (hf ·) (hg ·)

end Lone

end Shape

open Shape (Lone)

theorem Tree.Node.Formed.span_child [Grammar ρ] {n m : Node ρ} {text : List Char}
    (h : n.Formed) (hlaid : n.Laid text) {rule : ρ} (hrule : n.rule = rule)
    (hshape : (Grammar.shape rule).Lone) (hm : m ∈ n.childNodes) : m.span = n.span := by
  subst hrule
  have hchildren := hshape h.matches_children m (Tree.mem_children_of_mem_childNodes hm)
  exact (hlaid.span_of_singleton hchildren).symm

namespace Reading

variable [DecidableEq ρ] [Production ρ] {r : Roles ρ} {c : Context} {nested : Reader ρ}
  {n : Node ρ}

theorem excerpt_selectStatement? {s : Select} (h : selectStatement? r c nested n = some s) :
    s.excerpt = c.excerptOf n := by
  unfold selectStatement? at h
  split at h
  · obtain ⟨q, hq, rfl⟩ := Option.map_eq_some_iff.1 h
    unfold simpleSelect? at hq
    obtain ⟨_, -, hq⟩ := Option.bind_eq_some_iff.1 hq
    cases hq
    rfl
  split at h
  · obtain ⟨q, hq, rfl⟩ := Option.map_eq_some_iff.1 h
    unfold unionSelect? at hq
    obtain ⟨_, -, hq⟩ := Option.bind_eq_some_iff.1 hq
    cases hq
    rfl
  split at h
  · obtain ⟨q, hq, rfl⟩ := Option.map_eq_some_iff.1 h
    unfold parenthesisSelect? at hq
    obtain ⟨_, -, hq⟩ := Option.bind_eq_some_iff.1 hq
    cases hq
    rfl
  · contradiction

theorem excerpt_select? {depth : Nat} {s : Select}
    (h : (Reader.ofDepth r c depth).select? n = some s) : s.excerpt = c.excerptOf n := by
  cases depth with
  | zero => contradiction
  | succ depth => exact excerpt_selectStatement? h

end Reading

theorem Statement.excerpt_getD {α : Type} {f : α → Statement} {x : Option α} {default : Statement}
    {e : Excerpt} (h : ∀ a, x = some a → (f a).excerpt = e) (hdefault : default.excerpt = e) :
    ((f <$> x).getD default).excerpt = e := by
  cases x with
  | none => exact hdefault
  | some a => exact h a rfl

namespace MySql

namespace Read

variable {c : Context} {n : Node Rule} {text : List Char} {depth : Nat}

theorem excerpt_insert? {reader : Reader Rule} {i : Insert} (h : insert? c reader n = some i) :
    i.excerpt = c.excerptOf n := by
  unfold insert? at h
  obtain ⟨_, -, h⟩ := Option.bind_eq_some_iff.1 h
  obtain ⟨_, -, h⟩ := Option.bind_eq_some_iff.1 h
  cases h
  rfl

theorem excerpt_update? {reader : Reader Rule} {u : Update} (h : update? c reader n = some u) :
    u.excerpt = c.excerptOf n := by
  unfold update? at h
  dsimp only at h
  split at h
  all_goals
    obtain ⟨_, -, h⟩ := Option.bind_eq_some_iff.1 h
    cases h
    rfl

theorem excerpt_delete? {reader : Reader Rule} {d : Delete} (h : delete? c reader n = some d) :
    d.excerpt = c.excerptOf n := by
  unfold delete? at h
  dsimp only at h
  split at h
  all_goals
    obtain ⟨_, -, h⟩ := Option.bind_eq_some_iff.1 h
    cases h
    rfl

theorem excerpt_createDatabase? {d : CreateDatabase} (h : createDatabase? c n = some d) :
    d.excerpt = c.excerptOf n := by
  unfold createDatabase? at h
  obtain ⟨_, -, h⟩ := Option.bind_eq_some_iff.1 h
  cases h
  rfl

theorem excerpt_manipulationOf (hn : n.Formed) (hlaid : n.Laid text)
    (hrule : n.rule = .dmlStatement) :
    (manipulationOf c (.ofDepth roles c depth) n).excerpt = c.excerptOf n := by
  unfold manipulationOf
  cases hm : n.firstChild? with
  | none => rfl
  | some m =>
    have hexcerpt : c.excerptOf m = c.excerptOf n :=
      congrArg c.excerpt (hn.span_child hlaid hrule (Lone.or (.node _ _) .tokens)
        (Node.mem_childNodes_of_firstChild? hm))
    dsimp only [Option.bind_eq_bind, Option.bind_some]
    split
    · exact Statement.excerpt_getD (fun s hs => (Reading.excerpt_select? hs).trans hexcerpt) rfl
    · exact Statement.excerpt_getD (fun s hs => (Reading.excerpt_select? hs).trans hexcerpt) rfl
    · exact Statement.excerpt_getD (fun s hs => (Reading.excerpt_select? hs).trans hexcerpt) rfl
    · exact Statement.excerpt_getD (fun i hi => (excerpt_insert? hi).trans hexcerpt) rfl
    · exact Statement.excerpt_getD (fun u hu => (excerpt_update? hu).trans hexcerpt) rfl
    · exact Statement.excerpt_getD (fun u hu => (excerpt_update? hu).trans hexcerpt) rfl
    · exact Statement.excerpt_getD (fun d hd => (excerpt_delete? hd).trans hexcerpt) rfl
    · exact Statement.excerpt_getD (fun d hd => (excerpt_delete? hd).trans hexcerpt) rfl
    · rfl

theorem excerpt_statementOfFamily (hn : n.Formed) (hlaid : n.Laid text) :
    (statementOfFamily c (.ofDepth roles c depth) n).excerpt = c.excerptOf n := by
  have hchild : ∀ {m rule}, n.rule = rule → (shape rule).Lone → m ∈ n.childNodes →
      c.excerptOf m = c.excerptOf n := fun hrule hlone hm =>
    congrArg c.excerpt (hn.span_child hlaid hrule hlone hm)
  unfold statementOfFamily
  split
  · exact excerpt_manipulationOf hn hlaid ‹_›
  · rename_i hrule
    split
    · rename_i hcreate
      obtain ⟨m, hm, hd⟩ := Option.bind_eq_some_iff.1 hcreate
      exact (excerpt_createDatabase? hd).trans
        (hchild hrule (Lone.or (.node _ _) .tokens) (Node.mem_childNodes_of_child? hm))
    · rfl
  · rename_i hrule
    split
    · rename_i hm
      exact hchild hrule (Lone.or (.node _ _) .tokens) (Node.mem_childNodes_of_child? hm)
    · rfl
  · rename_i hrule
    split
    · rename_i hm
      exact hchild hrule (Lone.or (.node _ _) .tokens) (Node.mem_childNodes_of_findChild? hm)
    · rfl
  · rfl

end Read

variable {c : Context} {root n : Node Rule} {text : List Char}

theorem excerpt_readStatement (hn : n.Formed) (hlaid : (Element.node n).Laid text)
    (hrule : n.rule = .emptyStatement ∨ n.rule = .sqlStatement) :
    (readStatement c root n).excerpt = c.excerptOf n := by
  unfold readStatement Read.statementOf
  obtain hrule | hrule := hrule
  · rw [hrule]
    rfl
  · rw [hrule]
    dsimp only
    split
    · rename_i m hm
      have hmem := Node.mem_childNodes_of_firstChild? hm
      refine (Read.excerpt_statementOfFamily (hn.child hmem)
        ((hlaid.child hmem).nodes rfl (.refl m))).trans ?_
      exact congrArg c.excerpt
        (hn.span_child (hlaid.nodes rfl (.refl n)) hrule (.node _ _) hmem)
    · rfl

end MySql

namespace Postgres

namespace Read

variable {c : Context} {n : Node Rule} {text : List Char} {depth : Nat}

theorem excerpt_insert? {reader : Reader Rule} {i : Insert} (h : insert? c reader n = some i) :
    i.excerpt = c.excerptOf n := by
  unfold insert? at h
  obtain ⟨_, -, h⟩ := Option.bind_eq_some_iff.1 h
  obtain ⟨_, -, h⟩ := Option.bind_eq_some_iff.1 h
  obtain ⟨_, -, h⟩ := Option.bind_eq_some_iff.1 h
  cases h
  rfl

theorem excerpt_update? {reader : Reader Rule} {u : Update} (h : update? c reader n = some u) :
    u.excerpt = c.excerptOf n := by
  unfold update? at h
  obtain ⟨_, -, h⟩ := Option.bind_eq_some_iff.1 h
  cases h
  rfl

theorem excerpt_delete? {reader : Reader Rule} {d : Delete} (h : delete? c reader n = some d) :
    d.excerpt = c.excerptOf n := by
  unfold delete? at h
  obtain ⟨_, -, h⟩ := Option.bind_eq_some_iff.1 h
  cases h
  rfl

theorem excerpt_createDatabase? {d : CreateDatabase} (h : createDatabase? c n = some d) :
    d.excerpt = c.excerptOf n := by
  unfold createDatabase? at h
  obtain ⟨_, -, h⟩ := Option.bind_eq_some_iff.1 h
  cases h
  rfl

theorem excerpt_unlooked : (unlooked c n).excerpt = c.excerptOf n := by
  unfold unlooked
  split <;> rfl

theorem excerpt_structured? (hn : n.Formed) (hlaid : n.Laid text) :
    ((structured? c (.ofDepth roles c depth) n).getD (unlooked c n)).excerpt =
      c.excerptOf n := by
  unfold structured?
  split
  · refine Statement.excerpt_getD (fun s hs => ?_) excerpt_unlooked
    obtain ⟨m, hm, hs⟩ := Option.bind_eq_some_iff.1 hs
    have hspan := hn.span_child hlaid ‹_› (.node _ _) (Node.mem_childNodes_of_firstChild? hm)
    exact (Reading.excerpt_select? hs).trans (congrArg c.excerpt hspan)
  · exact Statement.excerpt_getD (fun i hi => excerpt_insert? hi) excerpt_unlooked
  · exact Statement.excerpt_getD (fun u hu => excerpt_update? hu) excerpt_unlooked
  · exact Statement.excerpt_getD (fun d hd => excerpt_delete? hd) excerpt_unlooked
  · exact Statement.excerpt_getD (fun d hd => excerpt_createDatabase? hd) excerpt_unlooked
  · exact excerpt_unlooked

end Read

variable {c : Context} {root n : Node Rule} {text : List Char}

theorem excerpt_readStatement (hn : n.Formed) (hlaid : (Element.node n).Laid text)
    (hrule : n.rule = .emptyStmt ∨ n.rule = .stmt) :
    (readStatement c root n).excerpt = c.excerptOf n := by
  unfold readStatement Read.statementOf
  obtain hrule | hrule := hrule
  · rw [hrule]
    rfl
  · rw [hrule]
    dsimp only
    split
    · rename_i m hm
      have hmem := Node.mem_childNodes_of_firstChild? hm
      refine (Read.excerpt_structured? (hn.child hmem)
        ((hlaid.child hmem).nodes rfl (.refl m))).trans ?_
      exact congrArg c.excerpt
        (hn.span_child (hlaid.nodes rfl (.refl n)) hrule (.node _ _) hmem)
    · rfl

end Postgres

end SqlScript
