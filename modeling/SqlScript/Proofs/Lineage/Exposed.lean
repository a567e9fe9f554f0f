import Mathlib.Data.List.Pairwise
import Mathlib.Logic.Relation
import SqlScript.Proofs.Lineage.Reading

/-!
What a statement tells of the productions of its tree, one by one. A production is exposed if
nothing around it is kept as text and no step on the way to it is left out. The marks of a statement
are those of the exposed productions, each as often as the readers come to it.
-/

namespace SqlScript

open SqlScript.Tree (Node Element)

variable {ρ : Type}

def Span.Apart (a b : Span) : Prop :=
  a.stop ≤ b.start ∨ b.stop ≤ a.start

namespace Span.Apart

variable {a b s : Span}

theorem symm (h : a.Apart b) : b.Apart a :=
  Or.symm h

theorem within {a' b' : Span} (h : a.Apart b) (ha : a'.Within a) (hb : b'.Within b) : a'.Apart b' :=
  h.imp (fun h => Nat.le_trans ha.stop (Nat.le_trans h hb.start))
    fun h => Nat.le_trans hb.stop (Nat.le_trans h ha.start)

theorem not_lt (h : a.Apart b) (ha : s.Within a) (hb : s.Within b) : ¬ s.start < s.stop := by
  have := ha.start
  have := ha.stop
  have := hb.start
  have := hb.stop
  unfold Apart at h
  omega

end Span.Apart

namespace Tree.Node

variable {text : List Char} {n m k : Node ρ}

theorem Laid.childNodes_pairwise (h : n.Laid text) :
    n.childNodes.Pairwise fun a b => a.span.stop ≤ b.span.start := by
  have hrow := List.pairwise_map.1 h.row.pairwise
  apply List.Pairwise.filterMap _ _ hrow
  intro e e' hlt a ha b hb
  cases e <;> cases ha
  cases e' <;> cases hb
  exact hlt

instance : Std.Symm fun a b : Node ρ => a.span.Apart b.span :=
  ⟨fun _ _ => .symm⟩

theorem Laid.child_apart (h : n.Laid text) (hm : m ∈ n.childNodes) (hk : k ∈ n.childNodes)
    (hne : m ≠ k) : m.span.Apart k.span :=
  (h.childNodes_pairwise.imp .inl : n.childNodes.Pairwise fun a b => a.span.Apart b.span).forall
    hm hk hne

theorem Genuine.occupied [Grammar ρ] {c : Context} (h : n.Genuine c text)
    (hshape : (Grammar.shape n.rule).requiresToken) : n.span.start < n.span.stop := by
  obtain ⟨t, ht⟩ := h.formed.matches_children.exists_token hshape
  have ht : t ∈ n.tokens := List.mem_filterMap.2 ⟨_, ht, rfl⟩
  have hwithin := (h.laid.proper_token ht).2
  have hlt := (h.spelled t (by rw [leaves_eq]; exact mem_leaves_of_mem_tokens ht)).lt
  exact Nat.lt_of_le_of_lt hwithin.start (Nat.lt_of_lt_of_le hlt hwithin.stop)

theorem Genuine.occupied_of_child [Grammar ρ] {c : Context} (h : n.Genuine c text)
    (hm : m ∈ n.childNodes) (hlt : m.span.start < m.span.stop) : n.span.start < n.span.stop := by
  have hwithin := h.laid.child_within hm
  exact Nat.lt_of_le_of_lt hwithin.start (Nat.lt_of_lt_of_le hlt hwithin.stop)

end Tree.Node

def Part.asLimit : Part → Option Limit
  | limit l => some l
  | _ => none

def Part.asUnstructured : Part → Option Unstructured
  | unstructured body => some body
  | _ => none

namespace Statement

def limits (s : Statement) : List Limit :=
  s.parts.filterMap Part.asLimit

def texts (s : Statement) : List Unstructured :=
  s.parts.filterMap Part.asUnstructured

def KeepsText [Production ρ] (s : Statement) (n : Node ρ) : Prop :=
  ∃ body ∈ s.texts, body.production = Production.name n.rule ∧ body.excerpt.span = n.span

end Statement

namespace Mark

def span : Mark → Span
  | table span | text _ span | limit span => span

end Mark

/--
How the readers of a grammar get from a production to what is nested in it.
-/
structure Route (ρ : Type) where
  /-- A step from a production to one that is nested there, which no reader takes. -/
  leftOut : Node ρ → Node ρ → Prop
  /-- A step that is taken more than once. -/
  repeated : Node ρ → Node ρ → Prop
  /-- The kinds of production that readers pass through. -/
  passed : ρ → Bool
  /-- The kinds of production that are told wherever they are exposed. -/
  sought : ρ → Bool
  /-- A production of the second kind, nested in one of the first kind, refers to a table. -/
  refers : ρ → ρ → Bool

namespace Route

variable (R : Route ρ)

/--
The second production is nested in the first one, or is that one; nothing in between is kept as text
and no step is left out.
-/
inductive Exposed [Production ρ] (s : Statement) : Node ρ → Node ρ → Prop
  | refl (n : Node ρ) : Exposed s n n
  | step {n m k : Node ρ} (hm : m ∈ n.childNodes) (htext : ¬ s.KeepsText n)
      (hleft : ¬ R.leftOut n m) (hk : Exposed s m k) : Exposed s n k

/--
The second production is nested in the first one and refers to a table, and nothing around it is
kept as text.
-/
def Refers [Production ρ] (s : Statement) (n m : Node ρ) : Prop :=
  ∃ k, R.Exposed s n k ∧ ¬ s.KeepsText k ∧ m ∈ k.childNodes ∧ R.refers k.rule m.rule

/--
There is a step on the way to the second production that is taken more than once.
-/
def Shares (n m : Node ρ) : Prop :=
  ∃ a b, n.Contains a ∧ R.repeated a b ∧ b.Contains m

/--
The tables of the statement are the references to tables in the production, each told once unless a
step to it is taken more often.
-/
structure Lists [Production ρ] (n : Node ρ) (s : Statement) : Prop where
  told {m : Node ρ} : R.Refers s n m → m.span ∈ s.tables.map (·.excerpt.span)
  once {m : Node ρ} : R.Refers s n m → ¬ R.Shares n m →
    (s.tables.map (·.excerpt.span)).count m.span = 1
  only {name : TableName} : name ∈ s.tables → ∃ m, R.Refers s n m ∧ name.excerpt.span = m.span

/--
The limits of the statement and the sortings that it keeps as text are those of the production, each
told once unless a step to it is taken more often.
-/
structure Bounds [Production ρ] (limit sorting : ρ) (n : Node ρ) (s : Statement) : Prop where
  limit {m : Node ρ} : R.Exposed s n m → m.rule = limit →
    m.span ∈ s.limits.map (·.excerpt.span) ∧
      (¬ R.Shares n m → (s.limits.map (·.excerpt.span)).count m.span = 1)
  sorting {m : Node ρ} : R.Exposed s n m → m.rule = sorting →
    (Production.name sorting, m.span) ∈ s.texts.map (fun body => (body.production, body.excerpt.span)) ∧
      (¬ R.Shares n m → (s.texts.map fun body => (body.production, body.excerpt.span)).count
        (Production.name sorting, m.span) = 1)

structure Step (n m : Node ρ) : Prop where
  child : m ∈ n.childNodes
  passed : R.passed n.rule
  taken : ¬ R.leftOut n m

theorem Exposed.contains [Production ρ] {R : Route ρ} {s : Statement} {n m : Node ρ}
    (h : R.Exposed s n m) : n.Contains m := by
  induction h with
  | refl => exact .refl _
  | step hm _ _ _ ih => exact .child hm ih

end Route

namespace Lineage

inductive Reaches (L : Lineage ρ) : Node ρ → Node ρ → Prop
  | refl (n : Node ρ) : Reaches L n n
  | step {n m k : Node ρ} (hlook : L.look n = .inside) (hm : m ∈ L.shown n)
      (hk : Reaches L m k) : Reaches L n k

/--
The readers take the steps of a route and no others.
-/
structure Keeps (L : Lineage ρ) (R : Route ρ) [Production ρ] [Grammar ρ] : Prop where
  heard {rule : ρ} : R.passed rule → L.hears (Production.name rule)
  passes {n m : Node ρ} : n.Formed → L.look n = .inside → m ∈ L.shown n →
    Relation.TransGen R.Step n m
  shows {s : Statement} {n m k : Node ρ} : n.Formed → L.look n = .inside → m ∈ n.childNodes →
    ¬ R.leftOut n m → R.Exposed s m k → R.sought k.rule → ∃ m' ∈ L.shown n, R.Exposed s m' k
  ends {s : Statement} {n m k : Node ρ} : n.Formed → L.look n ≠ .inside → L.look n ≠ .text →
    m ∈ n.childNodes → ¬ R.leftOut n m → R.Exposed s m k → ¬ R.sought k.rule
  name {n m : Node ρ} : R.refers n.rule m.rule → m ∈ n.childNodes →
    R.sought n.rule ∧ L.look n = .inside ∧ m ∈ L.shown n ∧ L.look m = .name
  refers {n m : Node ρ} : n.Formed → L.look n = .inside → m ∈ L.shown n → L.look m = .name →
    m ∈ n.childNodes ∧ R.refers n.rule m.rule
  apart {n : Node ρ} {text : List Char} : n.Formed → (Element.node n).Laid text →
    L.look n = .inside → (L.shown n).Pairwise (fun a b => a.span.Apart b.span) ∨
      ∃ k, R.repeated n k ∧ ∀ m ∈ L.shown n, m = k

namespace Reaches

variable {L : Lineage ρ} {n m k : Node ρ}

theorem contains (h : L.Reaches n m) : n.Contains m := by
  induction h with
  | refl => exact .refl _
  | step _ hm _ ih =>
    obtain ⟨k, hk, hkm⟩ := L.nested hm
    exact .child hk (hkm.trans ih)

theorem trans (h : L.Reaches n m) (hm : L.Reaches m k) : L.Reaches n k := by
  induction h with
  | refl => exact hm
  | step hlook hmem _ ih => exact .step hlook hmem (ih hm)

theorem tail (h : L.Reaches n m) (hlook : L.look m = .inside) (hk : k ∈ L.shown m) :
    L.Reaches n k :=
  h.trans (.step hlook hk (.refl k))

theorem last (h : L.Reaches n m) :
    n = m ∨ ∃ k, L.Reaches n k ∧ L.look k = .inside ∧ m ∈ L.shown k := by
  induction h with
  | refl => exact .inl rfl
  | @step n k m hlook hk _ ih =>
    obtain rfl | ⟨a, ha, hinside, hm⟩ := ih
    · exact .inr ⟨n, .refl n, hlook, hk⟩
    · exact .inr ⟨a, .step hlook hk ha, hinside, hm⟩

end Reaches

section

variable [Production ρ] {L : Lineage ρ} {n m : Node ρ} {s : Statement} {x : Mark}

variable (L) in
def markOf? (n : Node ρ) : Option Mark :=
  match L.look n with
  | .name => some (.table n.span)
  | .limit => some (.limit n.span)
  | .text => some (.text (Production.name n.rule) n.span)
  | .bare | .inside => none

theorem span_of_markOf? (h : L.markOf? n = some x) : x.span = n.span := by
  unfold markOf? at h
  split at h <;> cases h <;> rfl

theorem marks_eq_markOf? (h : L.look n ≠ .inside) : L.marks n = (L.markOf? n).toList := by
  rw [marks, markOf?]
  cases hlook : L.look n
  case inside => contradiction
  all_goals rfl

theorem markOf?_inside (h : L.look n = .inside) : L.markOf? n = none := by
  simp [markOf?, h]

omit [Production ρ] in
variable (L) in
theorem induct {p : Node ρ → Prop} (h : ∀ n, (∀ m ∈ L.shown n, p m) → p n) (n : Node ρ) : p n :=
  h n fun m hm => have := L.sizeOf_lt hm; induct h m
termination_by sizeOf n

theorem mem_marks : x ∈ L.marks n ↔ ∃ m, L.Reaches n m ∧ L.markOf? m = some x := by
  induction n using L.induct with
  | h n ih =>
  by_cases hlook : L.look n = .inside
  · rw [marks_inside hlook, List.mem_flatMap]
    constructor
    · rintro ⟨m, hm, hx⟩
      obtain ⟨k, hk, hx⟩ := (ih m hm).1 hx
      exact ⟨k, .step hlook hm hk, hx⟩
    · rintro ⟨k, hk, hx⟩
      cases hk with
      | refl =>
        rw [markOf?_inside hlook] at hx
        contradiction
      | step _ hm hk => exact ⟨_, hm, (ih _ hm).2 ⟨k, hk, hx⟩⟩
  · rw [marks_eq_markOf? hlook, Option.mem_toList]
    constructor
    · exact fun hx => ⟨n, .refl n, hx⟩
    · rintro ⟨k, hk, hx⟩
      cases hk with
      | refl => exact hx
      | step hinside => contradiction

variable (L) in
def tablesOf (L : Lineage ρ) (n : Node ρ) : List Span :=
  (L.marks n).filterMap Mark.table?

theorem mem_tablesOf {span : Span} :
    span ∈ L.tablesOf n ↔ ∃ m, L.Reaches n m ∧ L.look m = .name ∧ m.span = span := by
  unfold tablesOf
  rw [List.mem_filterMap]
  constructor
  · rintro ⟨x, hx, hspan⟩
    obtain ⟨m, hm, hx⟩ := mem_marks.1 hx
    refine ⟨m, hm, ?_⟩
    unfold markOf? at hx
    split at hx <;> cases hx <;> cases hspan
    exact ⟨‹_›, rfl⟩
  · rintro ⟨m, hm, hlook, rfl⟩
    exact ⟨_, mem_marks.2 ⟨m, hm, by rw [markOf?, hlook]⟩, rfl⟩

theorem span_within {text : List Char} (hn : (Element.node n).Laid text) (hx : x ∈ L.marks n) :
    x.span.Within n.span := by
  obtain ⟨m, hm, hx⟩ := mem_marks.1 hx
  rw [span_of_markOf? hx]
  exact hn.within hm.contains

-- What the marks of a statement say of its parts

theorem mem_texts_of_mem_partMarks {production : String} {span : Span}
    (h : .text production span ∈ L.partMarks (.statement s)) :
    ∃ body ∈ s.texts, body.production = production ∧ body.excerpt.span = span := by
  obtain ⟨p, hp, hmark⟩ := List.mem_filterMap.1 h
  cases p with
  | unstructured body =>
    refine ⟨body, List.mem_filterMap.2 ⟨_, hp, rfl⟩, ?_⟩
    rw [mark?] at hmark
    split at hmark <;> cases hmark
    exact ⟨rfl, rfl⟩
  | _ => cases hmark

theorem mem_partMarks_of_keepsText (h : s.KeepsText n) (hears : L.hears (Production.name n.rule)) :
    .text (Production.name n.rule) n.span ∈ L.partMarks (.statement s) := by
  obtain ⟨body, hbody, hproduction, hspan⟩ := h
  obtain ⟨p, hp, hp'⟩ := List.mem_filterMap.1 hbody
  cases p <;> cases hp'
  refine List.mem_filterMap.2 ⟨_, hp, ?_⟩
  simp [mark?, hproduction, hears, hspan]

theorem count_tables (s : Statement) (span : Span) :
    (s.tables.map (·.excerpt.span)).count span = (L.partMarks (.statement s)).count (.table span) := by
  rw [L.tables_eq, List.count_filterMap]
  apply List.countP_congr
  intro x _
  cases x <;> simp [Mark.table?]

theorem count_limits (s : Statement) (span : Span) :
    (s.limits.map (·.excerpt.span)).count span = (L.partMarks (.statement s)).count (.limit span) := by
  unfold Statement.limits partMarks
  rw [List.map_filterMap, List.count_filterMap, List.count_filterMap]
  apply List.countP_congr
  intro p _
  cases p <;> simp [mark?, Part.asLimit]

theorem count_texts (s : Statement) {production : String} (h : L.hears production) (span : Span) :
    (s.texts.map fun body => (body.production, body.excerpt.span)).count (production, span) =
      (L.partMarks (.statement s)).count (.text production span) := by
  unfold Statement.texts partMarks
  rw [List.map_filterMap, List.count_filterMap, List.count_filterMap]
  apply List.countP_congr
  intro p _
  cases p <;> simp [mark?, Part.asUnstructured]
  rintro rfl
  simp [h]

end

section

variable [Production ρ] [Grammar ρ] {L : Lineage ρ} {R : Route ρ} {c : Context} {text : List Char}
  {n m k : Node ρ} {s : Statement} {x y : Mark}

namespace Keeps

variable (hL : L.Keeps R)

include hL

theorem shown_apart (hn : n.Genuine c text) (hlook : L.look n = .inside) (hm : m ∈ L.shown n)
    (hk : k ∈ L.shown n) : m = k ∨ m.span.Apart k.span := by
  obtain hpairs | ⟨a, -, hall⟩ := hL.apart hn.formed hn.laid hlook
  · by_cases heq : m = k
    · exact .inl heq
    · exact .inr (hpairs.forall hm hk heq)
  · exact .inl ((hall m hm).trans (hall k hk).symm)

theorem marks_apart (hn : n.Genuine c text) (hx : x ∈ L.marks n) (hy : y ∈ L.marks n) :
    x = y ∨ x.span.Apart y.span := by
  induction n using L.induct with
  | h n ih =>
  by_cases hlook : L.look n = .inside
  · rw [marks_inside hlook, List.mem_flatMap] at hx hy
    obtain ⟨m, hm, hx⟩ := hx
    obtain ⟨k, hk, hy⟩ := hy
    have hm' := hn.of_contains ((Reaches.refl n).tail hlook hm).contains
    have hk' := hn.of_contains ((Reaches.refl n).tail hlook hk).contains
    obtain rfl | hapart := hL.shown_apart hn hlook hm hk
    · exact ih m hm hm' hx hy
    · exact .inr (hapart.within (span_within hm'.laid hx) (span_within hk'.laid hy))
  · rw [marks_eq_markOf? hlook, Option.mem_toList] at hx hy
    exact .inl (Option.some.inj (hx.symm.trans hy))

/-- What is nested in a production that is reached is told once, unless a step to it is repeated. -/
theorem count_marks (hn : n.Genuine c text) (hm : L.Reaches n m) (hx : L.markOf? m = some x)
    (hspan : m.span.start < m.span.stop)
    (honce : ∀ a b, n.Contains a → R.repeated a b → ¬ b.Contains m) : (L.marks n).count x = 1 := by
  induction hm with
  | refl n =>
    have hlook : L.look n ≠ .inside := by
      intro hlook
      rw [markOf?_inside hlook] at hx
      contradiction
    rw [marks_eq_markOf? hlook, hx]
    simp
  | @step n k m hlook hk hkm ih =>
    have hgenuine : ∀ a ∈ L.shown n, a.Genuine c text := fun a ha =>
      hn.of_contains ((Reaches.refl n).tail hlook ha).contains
    have hcontains := ((Reaches.refl n).tail hlook hk).contains
    have hone := ih (hgenuine k hk) hx hspan fun a b ha => honce a b (hcontains.trans ha)
    have hpairs : (L.shown n).Pairwise fun a b => a.span.Apart b.span := by
      obtain hpairs | ⟨a, ha, hall⟩ := hL.apart hn.formed hn.laid hlook
      · exact hpairs
      · rw [← hall k hk] at ha
        exact absurd hkm.contains (honce n k (.refl n) ha)
    -- The mark lies in none of the others.
    have hwithin : x.span.Within k.span := by
      rw [span_of_markOf? hx]
      exact (hgenuine k hk).laid.within hkm.contains
    have hothers : ∀ l : List (Node ρ), (∀ a ∈ l, a ∈ L.shown n ∧ a.span.Apart k.span) →
        (l.flatMap L.marks).count x = 0 := by
      intro l hl
      rw [List.count_eq_zero, List.mem_flatMap]
      rintro ⟨a, ha, hmem⟩
      obtain ⟨ha, hapart⟩ := hl a ha
      apply hapart.not_lt (span_within (hgenuine a ha).laid hmem) hwithin
      rwa [span_of_markOf? hx]
    obtain ⟨as, bs, hshown⟩ := List.append_of_mem hk
    rw [marks_inside hlook, hshown, List.flatMap_append, List.flatMap_cons, List.count_append,
      List.count_append, hone]
    rw [hshown] at hpairs hothers
    obtain ⟨-, hbs, hcross⟩ := List.pairwise_append.1 hpairs
    rw [hothers as fun a ha => ⟨List.mem_append_left _ ha, hcross a ha k List.mem_cons_self⟩,
      hothers bs fun a ha => ⟨List.mem_append_right _ (List.mem_cons_of_mem _ ha),
        (List.rel_of_pairwise_cons hbs ha).symm⟩]

end Keeps

namespace Keeps

variable (hL : L.Keeps R) (hn : n.Genuine c text) (htells : L.partMarks (.statement s) = L.marks n)

include hL hn htells

theorem reaches (hm : R.Exposed s n m) (hsought : R.sought m.rule) :
    L.Reaches n m := by
  suffices h : ∀ k, L.Reaches n k → R.Exposed s k m → L.Reaches n m from h n (.refl n) hm
  intro k
  induction k using L.induct with
  | h k ih =>
  intro hk hm
  cases hm with
  | refl => exact hk
  | step hmem htext hleft hm =>
    have hformed := (hn.of_contains hk.contains).formed
    cases hlook : L.look k with
    | inside =>
      obtain ⟨k', hk', hm⟩ := hL.shows hformed hlook hmem hleft hm hsought
      exact ih k' hk' (hk.tail hlook hk') hm
    | text =>
      have hmark : .text (Production.name k.rule) k.span ∈ L.partMarks (.statement s) := by
        rw [htells, mem_marks]
        exact ⟨k, hk, by simp [markOf?, hlook]⟩
      obtain ⟨body, hbody, h⟩ := mem_texts_of_mem_partMarks hmark
      exact absurd ⟨body, hbody, h⟩ htext
    | _ =>
      exact absurd hsought
        (hL.ends hformed (by simp [hlook]) (by simp [hlook]) hmem hleft hm)

/-- Nothing that is passed through on the way to a mark is kept as text. -/
theorem not_keepsText {x : Mark} (hx : x ∈ L.marks n) (hspan : x.span.start < x.span.stop)
    (hwithin : x.span.Within k.span) (hpassed : R.passed k.rule)
    (hother : x ≠ .text (Production.name k.rule) k.span) : ¬ s.KeepsText k := by
  intro htext
  have hmem := mem_partMarks_of_keepsText htext (hL.heard hpassed)
  rw [htells] at hmem
  obtain heq | hapart := hL.marks_apart hn hx hmem
  · exact hother heq
  · exact hapart.not_lt (.refl _) hwithin hspan

theorem exposed (hk : L.Reaches n k) (hkm : k.Contains m) (hm : L.Reaches n m) {x : Mark}
    (hx : L.markOf? m = some x) (hspan : m.span.start < m.span.stop)
    (hother : ∀ rule span, R.passed rule → x ≠ .text (Production.name rule) span) :
    R.Exposed s n k ∧ (R.passed k.rule → ¬ s.KeepsText k) := by
  have hclear : ∀ {a}, n.Contains a → a.Contains m → R.passed a.rule → ¬ s.KeepsText a := by
    intro a ha ham hpassed
    apply hL.not_keepsText hn htells (mem_marks.2 ⟨m, hm, hx⟩) _ _ hpassed (hother _ _ hpassed)
    · rwa [span_of_markOf? hx]
    · rw [span_of_markOf? hx]
      exact (hn.of_contains ha).laid.within ham
  have hsteps : ∀ {a b}, n.Contains a → L.Reaches a b → Relation.ReflTransGen R.Step a b := by
    intro a b ha h
    induction h with
    | refl => exact .refl
    | step hlook hmem hk ih =>
      have hstep := (Reaches.refl _).tail hlook hmem
      exact (hL.passes (hn.of_contains ha).formed hlook hmem).to_reflTransGen.trans
        (ih (ha.trans hstep.contains))
  suffices h : ∀ {a}, n.Contains a → Relation.ReflTransGen R.Step a k →
      a.Contains m ∧ R.Exposed s a k from
    ⟨(h (.refl n) (hsteps (.refl n) hk)).2, hclear hk.contains hkm⟩
  intro a ha h
  induction h using Relation.ReflTransGen.head_induction_on with
  | refl => exact ⟨hkm, .refl k⟩
  | @head a b hab _ ih =>
    obtain ⟨hcontains, hexposed⟩ := ih (ha.trans (.of_mem hab.child))
    have hcontains : a.Contains m := .child hab.child hcontains
    exact ⟨hcontains, .step hab.child (hclear ha hcontains hab.passed) hab.taken hexposed⟩

theorem told {m : Node ρ} (hm : R.Exposed s n m) (hsought : R.sought m.rule) {x : Mark}
    (hx : L.markOf? m = some x) :
    x ∈ L.partMarks (.statement s) ∧ (m.span.start < m.span.stop → ¬ R.Shares n m →
      (L.partMarks (.statement s)).count x = 1) := by
  have hreach := hL.reaches hn htells hm hsought
  rw [htells]
  refine ⟨mem_marks.2 ⟨m, hreach, hx⟩, fun hspan hshares => ?_⟩
  exact hL.count_marks hn hreach hx hspan fun a b ha hrepeated hb =>
    hshares ⟨a, b, ha, hrepeated, hb⟩

theorem lists (hname : ∀ m, n.Contains m → L.look m = .name → m.span.start < m.span.stop)
    (hlook : L.look n ≠ .name) : R.Lists n s := by
  have hreach : ∀ {m}, R.Refers s n m → L.Reaches n m ∧ L.look m = .name := by
    rintro m ⟨k, hk, -, hm, hrefers⟩
    obtain ⟨hsought, hlook, hshown, hname⟩ := hL.name hrefers hm
    exact ⟨(hL.reaches hn htells hk hsought).tail hlook hshown, hname⟩
  have hmark : ∀ {m}, L.look m = .name → L.markOf? m = some (.table m.span) := fun h => by
    rw [markOf?, h]
  constructor
  · intro m hm
    obtain ⟨hm, hlook⟩ := hreach hm
    rw [← List.count_pos_iff, count_tables (L := L), htells, List.count_pos_iff, mem_marks]
    exact ⟨m, hm, hmark hlook⟩
  · intro m hm hshares
    obtain ⟨hm, hlook⟩ := hreach hm
    rw [count_tables (L := L), htells]
    exact hL.count_marks hn hm (hmark hlook) (hname m hm.contains hlook)
      fun a b ha hrepeated hb => hshares ⟨a, b, ha, hrepeated, hb⟩
  · intro name hmem
    have hspan : name.excerpt.span ∈ s.tables.map (·.excerpt.span) := List.mem_map_of_mem hmem
    rw [L.tables_eq, htells] at hspan
    obtain ⟨m, hm, hlookm, hspan⟩ := mem_tablesOf.1 hspan
    obtain rfl | ⟨k, hk, hinside, hmk⟩ := hm.last
    · contradiction
    have hkn := (hn.of_contains hk.contains).formed
    obtain ⟨hchild, hrefers⟩ := hL.refers hkn hinside hmk hlookm
    obtain ⟨a, hstep, -⟩ := Relation.TransGen.head'_iff.1 (hL.passes hkn hinside hmk)
    obtain ⟨hexposed, htext⟩ := hL.exposed hn htells hk (.of_mem hchild) hm (hmark hlookm)
      (hname m hm.contains hlookm) fun _ _ _ => nofun
    exact ⟨m, ⟨k, hexposed, htext hstep.passed, hchild, hrefers⟩, hspan.symm⟩

theorem bounds {limit sorting : ρ}
    (hlimit : ∀ m, n.Contains m → m.rule = limit →
      R.sought m.rule ∧ L.look m = .limit ∧ m.span.start < m.span.stop)
    (hsorting : ∀ m, n.Contains m → m.rule = sorting →
      R.sought m.rule ∧ L.look m = .text ∧ m.span.start < m.span.stop)
    (hhears : L.hears (Production.name sorting)) : R.Bounds limit sorting n s := by
  constructor
  · intro m hm hrule
    obtain ⟨hsought, hlook, hspan⟩ := hlimit m hm.contains hrule
    obtain ⟨hmem, hcount⟩ := hL.told hn htells hm hsought (x := .limit m.span) (by rw [markOf?, hlook])
    rw [← List.count_pos_iff, count_limits (L := L), List.count_pos_iff]
    exact ⟨hmem, hcount hspan⟩
  · intro m hm hrule
    obtain ⟨hsought, hlook, hspan⟩ := hsorting m hm.contains hrule
    obtain ⟨hmem, hcount⟩ := hL.told hn htells hm hsought
      (x := .text (Production.name sorting) m.span) (by rw [markOf?, hlook, hrule])
    rw [← List.count_pos_iff, count_texts s hhears, List.count_pos_iff]
    exact ⟨hmem, hcount hspan⟩

end Keeps

end

section

variable [Production ρ] {n m : Node ρ}

/--
What is read of a production and names tables stands in the order in which it is read.
-/
def Orderly (L : Lineage ρ) (n : Node ρ) : Prop :=
  ((L.shown n).filter (L.tablesOf · ≠ [])).Pairwise fun a b => a.span.stop ≤ b.span.start

variable {L : Lineage ρ}

theorem tablesOf_inside (h : L.look n = .inside) :
    L.tablesOf n = ((L.shown n).filter (L.tablesOf · ≠ [])).flatMap L.tablesOf := by
  have hdrop : ∀ l : List (Node ρ),
      l.flatMap L.tablesOf = (l.filter (L.tablesOf · ≠ [])).flatMap L.tablesOf := by
    intro l
    induction l with
    | nil => rfl
    | cons a l ih =>
      by_cases ha : L.tablesOf a = []
      · simp [ha, ih]
      · simp [ha, ih]
  rw [tablesOf, marks_inside h, List.filterMap_flatMap]
  exact hdrop _

section

variable [Grammar ρ] {R : Route ρ} {c : Context} {text : List Char} (hL : L.Keeps R)
  (hn : n.Genuine c text)
  (hname : ∀ m, n.Contains m → L.look m = .name → m.span.start < m.span.stop)

include hL hn hname

/-- The tables stand in the order in which they are read if all that is passed through is orderly. -/
theorem Keeps.tablesOf_pairwise_iff :
    (L.tablesOf n).Pairwise (fun a b => a.stop ≤ b.start) ↔
      ∀ m, L.Reaches n m → L.look m = .inside → L.Orderly m := by
  induction n using L.induct with
  | h n ih =>
  by_cases hlook : L.look n = .inside
  · have hbelow : ∀ {m}, m ∈ L.shown n → n.Contains m := fun hm =>
      ((Reaches.refl n).tail hlook hm).contains
    have ih' : ∀ m ∈ L.shown n, _ := fun m hm =>
      ih m hm (hn.of_contains (hbelow hm)) fun k hk => hname k ((hbelow hm).trans hk)
    have hwithin : ∀ {m span}, m ∈ L.shown n → span ∈ L.tablesOf m →
        span.Within m.span ∧ span.start < span.stop := by
      intro m span hm hspan
      obtain ⟨k, hk, hlook, rfl⟩ := mem_tablesOf.1 hspan
      exact ⟨(hn.of_contains (hbelow hm)).laid.within hk.contains,
        hname k ((hbelow hm).trans hk.contains) hlook⟩
    -- What names tables is in order just if its tables are.
    have hpairs : ((L.shown n).filter (L.tablesOf · ≠ [])).Pairwise (fun a b =>
        ∀ x ∈ L.tablesOf a, ∀ y ∈ L.tablesOf b, x.stop ≤ y.start) ↔ L.Orderly n := by
      apply List.Pairwise.iff_of_mem
      intro a b ha hb
      rw [List.mem_filter, decide_eq_true_eq] at ha hb
      constructor
      · intro h
        obtain ⟨x, hx⟩ := List.exists_mem_of_ne_nil _ ha.2
        obtain ⟨y, hy⟩ := List.exists_mem_of_ne_nil _ hb.2
        have hxy := h x hx y hy
        obtain ⟨hxa, hxlt⟩ := hwithin ha.1 hx
        obtain ⟨hyb, hylt⟩ := hwithin hb.1 hy
        obtain rfl | hapart | hapart := hL.shown_apart hn hlook ha.1 hb.1
        · have := h x hx x hx
          omega
        · exact hapart
        · have := hxa.start
          have := hyb.stop
          omega
      · intro h x hx y hy
        exact Nat.le_trans (hwithin ha.1 hx).1.stop (Nat.le_trans h (hwithin hb.1 hy).1.start)
    rw [tablesOf_inside hlook, List.pairwise_flatMap, hpairs]
    constructor
    · rintro ⟨hall, horderly⟩ k hk hinside
      cases hk with
      | refl => exact horderly
      | @step _ m _ _ hm hk =>
        have hm' : (L.tablesOf m).Pairwise fun a b => a.stop ≤ b.start := by
          by_cases hnone : L.tablesOf m = []
          · rw [hnone]
            exact .nil
          · exact hall m (List.mem_filter.2 ⟨hm, by simpa using hnone⟩)
        exact (ih' m hm).1 hm' k hk hinside
    · intro h
      refine ⟨?_, h n (.refl n) hlook⟩
      intro m hm
      have hm := (List.mem_filter.1 hm).1
      exact (ih' m hm).2 fun k hk => h k (.step hlook hm hk)
  · have hmarks := marks_eq_markOf? hlook
    constructor
    · intro _ k hk hinside
      cases hk with
      | refl => contradiction
      | step hlook' => contradiction
    · intro _
      unfold tablesOf
      rw [hmarks]
      cases L.markOf? n with
      | none => exact .nil
      | some x => cases h : x.table? <;> simp [h]

theorem Keeps.tables_increasing_iff {s : Statement}
    (htells : L.partMarks (.statement s) = L.marks n) :
    (s.tables.map (·.excerpt.span.start)).Pairwise (· < ·) ↔
      ∀ m, L.Reaches n m → L.look m = .inside → L.Orderly m := by
  have htables : s.tables.map (·.excerpt.span) = L.tablesOf n := by
    rw [L.tables_eq, htells]
    rfl
  have hstarts : s.tables.map (·.excerpt.span.start) = (L.tablesOf n).map (·.start) := by
    rw [← htables, List.map_map]
    rfl
  rw [hstarts, List.pairwise_map, ← hL.tablesOf_pairwise_iff hn hname]
  have hlt : ∀ {a}, a ∈ L.tablesOf n → a.start < a.stop := by
    intro a ha
    obtain ⟨m, hm, hlook, rfl⟩ := mem_tablesOf.1 ha
    exact hname m hm.contains hlook
  have hmark : ∀ {a}, a ∈ L.tablesOf n → .table a ∈ L.marks n := by
    intro a ha
    obtain ⟨x, hx, hspan⟩ := List.mem_filterMap.1 ha
    cases x <;> cases hspan
    exact hx
  apply List.Pairwise.iff_of_mem
  intro a b ha hb
  have ha' := hlt ha
  have hb' := hlt hb
  constructor
  · intro h
    obtain heq | hapart | hapart := hL.marks_apart hn (hmark ha) (hmark hb)
    · cases heq
      omega
    · exact hapart
    · have : b.stop ≤ a.start := hapart
      omega
  · omega

end

end

end Lineage

end SqlScript
