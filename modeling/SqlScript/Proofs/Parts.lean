import SqlScript.Proofs.Tokens
import SqlScript.Statement.Part

/-!
Parts that are nested as they lie in the script: the excerpt of a part covers those of all parts in
it.
-/

namespace SqlScript

/--
The rows that are inserted, which have an excerpt of their own.
-/
def InsertSource.groups : InsertSource → List (Excerpt × List Part)
  | values rows => [(rows.excerpt, rows.rows.flatten.map .expr)]
  | _ => []

namespace Part

/--
Pieces of a part that belong together and have an excerpt of their own, without being a part.
-/
def groups : Part → List (Excerpt × List Part)
  | unionSelect s => s.parts.map fun p => (p.excerpt, p.pieces)
  | insert i => i.source.groups
  | _ => []

inductive Nested (good : Excerpt → Prop) : Part → Prop
  | intro {p : Part} (origin : good p.origin) (nested : ∀ q ∈ p.pieces, Nested good q)
    (inside : ∀ q ∈ p.pieces, q.origin.span.Within p.origin.span)
    (grouped : ∀ g ∈ p.groups, ∀ q ∈ g.2, q.origin.span.Within g.1.span) : Nested good p

namespace Nested

variable {good : Excerpt → Prop} {p q : Part}

theorem origin (h : p.Nested good) : good p.origin := by
  cases h
  assumption

theorem nested (h : p.Nested good) (hq : q ∈ p.pieces) : q.Nested good := by
  cases h with
  | intro _ hnested _ _ => exact hnested q hq

theorem inside (h : p.Nested good) (hq : q ∈ p.pieces) : q.origin.span.Within p.origin.span := by
  cases h with
  | intro _ _ hinside _ => exact hinside q hq

theorem grouped (h : p.Nested good) {g : Excerpt × List Part} (hg : g ∈ p.groups) (hq : q ∈ g.2) :
    q.origin.span.Within g.1.span := by
  cases h with
  | intro _ _ _ hgrouped => exact hgrouped g hg q hq

theorem of_mem_walk {descend : Part → Bool} (h : p.Nested good) (hq : q ∈ p.walk descend) :
    q.Nested good := by
  induction h with
  | @intro p horigin hnested hinside hgrouped ih =>
    rw [walk_eq] at hq
    obtain rfl | hq := List.mem_cons.1 hq
    · exact .intro horigin hnested hinside hgrouped
    · split at hq
      · obtain ⟨r, hr, hq⟩ := List.mem_flatMap.1 hq
        exact ih r hr hq
      · contradiction

end Nested

theorem forall_mem_all {P : Part → Prop} {p : Part} :
    (∀ q ∈ p.all, P q) ↔ P p ∧ ∀ q ∈ p.pieces, ∀ k ∈ q.all, P k := by
  unfold all
  rw [walk_eq, if_pos rfl, List.forall_mem_cons]
  simp only [List.mem_flatMap]
  constructor
  · rintro ⟨hp, hq⟩
    exact ⟨hp, fun q hmem k hk => hq k ⟨q, hmem, hk⟩⟩
  · rintro ⟨hp, hq⟩
    exact ⟨hp, fun k ⟨q, hmem, hk⟩ => hq q hmem k hk⟩

structure From (good : Excerpt → Prop) (s : Span) (p : Part) : Prop where
  nested : p.Nested good
  inside : p.origin.span.Within s

end Part

/--
What the context cuts out of the text is where it was cut out, and good.
-/
structure Context.Cuts (c : Context) (text : List Char) (good : Excerpt → Prop) : Prop where
  span {s : Span} : s.On text → (c.excerpt s).span = s
  good {s : Span} : s.Proper text → good (c.excerpt s)

namespace Part.From

variable {c : Context} {text : List Char} {good : Excerpt → Prop} {s t : Span} {p q : Part}

theorem within (h : p.From good s) (hs : s.Within t) : p.From good t :=
  ⟨h.nested, h.inside.trans hs⟩

theorem intro (hc : c.Cuts text good) (hs : s.Proper text) (horigin : p.origin = c.excerpt s)
    (hpieces : ∀ q ∈ p.pieces, q.From good s)
    (hgroups : ∀ g ∈ p.groups, ∀ q ∈ g.2, q.origin.span.Within g.1.span) : p.From good s := by
  have hspan : p.origin.span = s := by
    rw [horigin, hc.span hs.on]
  constructor
  · constructor
    · rw [horigin]
      exact hc.good hs
    · intro q hq
      exact (hpieces q hq).nested
    · intro q hq
      rw [hspan]
      exact (hpieces q hq).inside
    · exact hgroups
  · rw [hspan]
    exact .refl s

theorem only (h : q.From good s) (horigin : p.origin = q.origin) (hpieces : p.pieces = [q])
    (hgroups : p.groups = []) : p.From good s := by
  constructor
  · constructor
    · rw [horigin]
      exact h.nested.origin
    · intro r hr
      rw [hpieces, List.mem_singleton] at hr
      rw [hr]
      exact h.nested
    · intro r hr
      rw [hpieces, List.mem_singleton] at hr
      rw [hr, horigin]
      exact .refl _
    · rw [hgroups]
      exact nofun
  · rw [horigin]
    exact h.inside

theorem excerpt (hc : c.Cuts text good) (hs : s.Proper text) :
    (Part.excerpt (c.excerpt s)).From good s := by
  apply intro hc hs rfl
  · simp [pieces]
  · simp [groups]

theorem same (h : q.From good s) (horigin : p.origin = q.origin) (hpieces : p.pieces = q.pieces)
    (hgroups : p.groups = q.groups) : p.From good s := by
  constructor
  · constructor
    · rw [horigin]
      exact h.nested.origin
    · rw [hpieces]
      exact fun _ => h.nested.nested
    · rw [hpieces, horigin]
      exact fun _ => h.nested.inside
    · rw [hgroups]
      exact fun _ hg _ => h.nested.grouped hg
  · rw [horigin]
    exact h.inside

theorem leaf (hc : c.Cuts text good) (hs : s.Proper text) (horigin : p.origin = c.excerpt s)
    (hpieces : p.pieces = [.excerpt p.origin]) (hgroups : p.groups = []) : p.From good s := by
  apply intro hc hs horigin
  · intro q hq
    rw [hpieces, horigin, List.mem_singleton] at hq
    rw [hq]
    exact excerpt hc hs
  · rw [hgroups]
    exact nofun

end Part.From

end SqlScript
