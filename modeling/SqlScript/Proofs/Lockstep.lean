import SqlScript.Proofs.MySql.Script
import SqlScript.Proofs.Postgres.Script
import SqlScript.Proofs.Simulation.Script

/-!
Two runs over the same tokens, of which the first may nest statements less deeply. The runs stay in
the same state, and what every step of building keeps, the whole run keeps.
-/

namespace SqlScript

open SqlScript.Simulation

/--
What every step of building keeps.
-/
structure Invariant (ρ : Type) where
  holds : ParserState ρ → Prop
  advance {s : ParserState ρ} : holds s → s.rest ≠ [] → holds s.advance
  start {s : ParserState ρ} (rule : ρ) : holds s → holds (s.build (·.start rule))
  startAt {s : ParserState ρ} (checkpoint : Nat) (rule : ρ) :
    holds s → holds (s.build (·.startAt checkpoint rule))
  finish {s : ParserState ρ} : holds s → holds (s.build (·.finish))

def Invariant.trivial (ρ : Type) : Invariant ρ where
  holds _ := True
  advance _ _ := True.intro
  start _ _ := True.intro
  startAt _ _ _ := True.intro
  finish _ := True.intro

structure Setting.Deepens (c c' : Setting) : Prop where
  dialect : c'.dialect = c.dialect
  limit : c.limit ≤ c'.limit
  stop : c'.stop = c.stop
  eof : c.stop.kind = .eof

/--
Both runs are in the same state, which satisfies an invariant. The first is excused if statements
nest too deeply for it.
-/
def Simulation.lockstep {ρ : Type} {c c' : Setting} (h : c.Deepens c') (inv : Invariant ρ) :
    Simulation ρ where
  small := c
  large := c'
  rel s s' := s' = s ∧ inv.holds s
  mark m m' := m' = m
  excused f := c.limit < c'.limit ∧ f.complaint = .tooDeep c.limit
  matched f f' := f' = f
  sees := by
    rintro s _ ⟨rfl, -⟩
    exact ⟨h.dialect, h.limit, h.eof, h.stop ▸ h.eof, Alike.refl _, .inl rfl, fun _ => rfl⟩
  advance := by
    rintro s _ ⟨rfl, hs⟩ hrest
    exact ⟨rfl, inv.advance hs hrest⟩
  start := by
    rintro s _ rule ⟨rfl, hs⟩
    exact ⟨rfl, inv.start rule hs⟩
  startAt := by
    rintro s _ m _ rule ⟨rfl, hs⟩ rfl
    exact ⟨rfl, inv.startAt _ rule hs⟩
  finish := by
    rintro s _ ⟨rfl, hs⟩ _
    exact ⟨rfl, inv.finish hs⟩
  checkpoint := by
    rintro s _ ⟨rfl, -⟩
    rfl
  complain := by
    rintro s _ complaint - ⟨rfl, -⟩
    right
    unfold Setting.ahead Lookahead.token
    rw [h.stop]
  lenient := by
    rintro s _ ⟨rfl, -⟩
    exact .inl rfl
  tooDeep hlimit _ := ⟨hlimit, rfl⟩

variable {c c' : Setting}

theorem Simulation.lockstep_exact {ρ : Type} (h : c.Deepens c') (inv : Invariant ρ) :
    (lockstep h inv).Exact where
  length_eq := by
    rintro s _ ⟨rfl, -⟩
    rfl
  behind := rfl

def MySql.form : ScriptForm Rule where
  root := .root
  list := .sqlStatements
  empty := .emptyStatement

theorem MySql.script_eq (nested : Goal → Parser Rule Unit) :
    script nested = form.script (statement nested) :=
  rfl

def Postgres.form : ScriptForm Rule where
  root := .root
  list := .stmtmulti
  empty := .emptyStmt

theorem Postgres.script_eq (nested : Goal → Parser Rule Unit) :
    script nested = form.script (statement nested) :=
  rfl

theorem MySql.script_lockstep (h : c.Deepens c') (hdialect : c.dialect = .mySql)
    (inv : Invariant Rule) {s : ParserState Rule} (hs : inv.holds s) :
    (lockstep h inv).Outcome (fun _ t t' => (lockstep h inv).Kept 0 s t t')
      (script (parser c.limit) c s) (script (parser c'.limit) c' s) := by
  obtain ⟨extra, hextra⟩ := Nat.exists_eq_add_of_le' h.limit
  have hnests : Nests (lockstep h inv) (parser c.limit) (parser c'.limit) := by
    rw [hextra]
    apply parser.nests
    · exact hdialect
    · change c.limit < c'.limit ∨ extra = 0
      omega
    · exact Nat.le_refl _
  rw [script_eq, script_eq]
  exact (lockstep_exact h inv).script hnests.respects_statement form ⟨rfl, hs⟩

theorem Postgres.script_lockstep (h : c.Deepens c') (inv : Invariant Rule) {s : ParserState Rule}
    (hs : inv.holds s) :
    (lockstep h inv).Outcome (fun _ t t' => (lockstep h inv).Kept 0 s t t')
      (script (parser c.limit) c s) (script (parser c'.limit) c' s) := by
  obtain ⟨extra, hextra⟩ := Nat.exists_eq_add_of_le' h.limit
  have hnests : Nests (lockstep h inv) (parser c.limit) (parser c'.limit) := by
    rw [hextra]
    apply parser.nests
    · change c.limit < c'.limit ∨ extra = 0
      omega
    · exact Nat.le_refl _
  rw [script_eq, script_eq]
  exact (lockstep_exact h inv).script hnests.respects_statement form ⟨rfl, hs⟩

theorem Setting.Deepens.refl (heof : c.stop.kind = .eof) : c.Deepens c :=
  ⟨rfl, Nat.le_refl _, rfl, heof⟩

/--
Whatever every step of building keeps, the grammar keeps it too, and it closes what it opens.
-/
def Parser.Builds {ρ : Type} (dialect : Dialect) (limit : Nat) (grammar : Parser ρ Unit) : Prop :=
  ∀ (inv : Invariant ρ) (c : Setting) (s t : ParserState ρ), c.dialect = dialect →
    c.limit = limit → c.stop.kind = .eof → inv.holds s → grammar c s = .ok () t →
    inv.holds t ∧ t.builder.opened = s.builder.opened

theorem MySql.script_builds (limit : Nat) :
    Parser.Builds .mySql limit (script (parser limit)) := by
  rintro inv c s t hdialect rfl heof hs ht
  have hscript := script_lockstep (.refl heof) hdialect inv hs
  rw [ht] at hscript
  cases hscript with
  | ok h => exact ⟨h.rel.2, h.opened⟩
  | gone h => exact absurd h (Simulation.not_gone rfl)

theorem Postgres.script_builds (limit : Nat) :
    Parser.Builds .postgreSql limit (script (parser limit)) := by
  rintro inv c s t _ rfl heof hs ht
  have hscript := script_lockstep (.refl heof) inv hs
  rw [ht] at hscript
  cases hscript with
  | ok h => exact ⟨h.rel.2, h.opened⟩
  | gone h => exact absurd h (Simulation.not_gone rfl)

end SqlScript
