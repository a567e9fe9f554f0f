import SqlScript.Proofs.Excerpt
import SqlScript.Proofs.Lossless
import SqlScript.Proofs.MySql.Reading
import SqlScript.Proofs.Postgres.Reading
import SqlScript.Script

/-!
Statements tell the truth about the script they are read from.
-/

namespace SqlScript

variable {source : String} {baseline : Nat} {flavor : Flavor}

theorem Context.cuts_ofString (source : String) (baseline : Nat) (flavor : Flavor) :
    (ofString source baseline flavor).Cuts source.toList (Excerpt.Faithful source baseline flavor) :=
  ⟨span_excerpt, faithful_excerpt⟩

/--
The part is where it says, and what is inside it lies inside.
-/
structure Part.Located (source : String) (baseline : Nat) (flavor : Flavor) (p : Part) : Prop where
  origin : p.origin.Faithful source baseline flavor
  pieces {q : Part} : q ∈ p.pieces → q.origin.span.Within p.origin.span
  groups {g : Excerpt × List Part} {q : Part} : g ∈ p.groups → q ∈ g.2 →
    q.origin.span.Within g.1.span

theorem Part.Nested.located {p : Part} (h : p.Nested (Excerpt.Faithful source baseline flavor)) :
    p.Located source baseline flavor :=
  ⟨h.origin, h.inside, h.grouped⟩

theorem exists_of_map_eq_ok {ε α β : Type} {f : α → β} {x : Except ε α} {b : β}
    (h : f <$> x = .ok b) : ∃ a, x = .ok a ∧ f a = b := by
  cases x with
  | error e => contradiction
  | ok a =>
    cases h
    exact ⟨a, rfl, rfl⟩

theorem exists_ok_of_any {ε α : Type} {x : Except ε α} {p : α → Bool} (h : x.toOption.any p) :
    ∃ a, x = .ok a ∧ p a := by
  cases x with
  | ok a => exact ⟨a, rfl, h⟩
  | error e => contradiction

/-- All parts of the statements of a script are where they say, and the statements lie one behind
the other. -/
theorem parse_located {options : Options} {statements : List Statement}
    (h : parse flavor source options = .ok statements) :
    (∀ s ∈ statements, ∀ p ∈ s.parts, p.Located source options.baseline flavor) ∧
      statements.Pairwise fun s t => s.excerpt.span.stop ≤ t.excerpt.span.start := by
  have hcuts := Context.cuts_ofString source options.baseline flavor
  have hnested : (∀ s ∈ statements, (Part.statement s).Nested
        (Excerpt.Faithful source options.baseline flavor)) ∧
      statements.Pairwise fun s t => s.excerpt.span.stop ≤ t.excerpt.span.start := by
    cases flavor with
    | mySql =>
      obtain ⟨tree, htree, rfl⟩ := exists_of_map_eq_ok h
      obtain ⟨hlaid, -⟩ := Parser.laid_of_parseTree (MySql.script_builds options.maxDepth) htree
      exact MySql.statementsOf_nested hcuts hlaid
    | postgreSql =>
      obtain ⟨tree, htree, rfl⟩ := exists_of_map_eq_ok h
      obtain ⟨hlaid, -⟩ := Parser.laid_of_parseTree (Postgres.script_builds options.maxDepth) htree
      exact Postgres.statementsOf_nested hcuts hlaid
  constructor
  · intro s hs p hp
    exact ((hnested.1 s hs).of_mem_walk hp).located
  · exact hnested.2

theorem parse_located_update :
    ∃ statements, parse .postgreSql "UPDATE t SET (a, b) = (1, 'é')\nFROM u;;" {} = .ok statements ∧
      (∀ s ∈ statements, ∀ p ∈ s.parts,
        p.Located "UPDATE t SET (a, b) = (1, 'é')\nFROM u;;" 1 .postgreSql) ∧
      statements.Pairwise fun s t => s.excerpt.span.stop ≤ t.excerpt.span.start := by
  have hok : (parse .postgreSql "UPDATE t SET (a, b) = (1, 'é')\nFROM u;;" {}).isOk := by
    decide +kernel
  cases h : parse .postgreSql "UPDATE t SET (a, b) = (1, 'é')\nFROM u;;" {} with
  | ok statements => exact ⟨statements, rfl, parse_located h⟩
  | error e =>
    rw [h] at hok
    contradiction

end SqlScript
