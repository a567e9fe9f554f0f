import Mathlib.Algebra.GroupWithZero.Nat
import Mathlib.Data.List.Forall2
import SqlScript.Proofs.Fidelity
import SqlScript.Report

/-!
The lines of a summary. Each statement has a line of its own, and one more for every newline in the
names of its tables, which are written without their quotes.
-/

namespace SqlScript

section Lines

variable {α : Type} [DecidableEq α]

theorem length_splitOn (a : α) (xs : List α) : (xs.splitOn a).length = xs.count a + 1 := by
  induction xs with
  | nil => rfl
  | cons x xs ih =>
    rw [List.splitOn_cons_eq_if_modifyHead, List.count_cons]
    split
    · rw [List.length_cons, ih]
    · rw [List.length_modifyHead, ih, Nat.add_zero]

theorem splitOn_intercalate_eq (a : α) {xss : List (List α)} (h : xss ≠ []) :
    ([a].intercalate xss).splitOn a = xss.flatMap (·.splitOn a) := by
  induction xss with
  | nil => contradiction
  | cons xs xss ih =>
    cases xss with
    | nil => rw [List.intercalate_singleton, List.flatMap_singleton]
    | cons ys xss =>
      rw [List.intercalate_cons_cons, List.append_assoc, List.singleton_append,
        List.splitOn_append_cons_self, ih (List.cons_ne_nil _ _), ← List.flatMap_cons]

theorem exists_splitOn_append (a : α) {xs : List α} (h : a ∉ xs) (ys : List α) :
    ∃ first rest, (xs ++ ys).splitOn a = first :: rest ∧ xs <+: first := by
  induction xs with
  | nil =>
    obtain ⟨first, rest, heq⟩ := List.exists_cons_of_ne_nil (List.splitOn_ne_nil a ys)
    exact ⟨first, rest, heq, List.nil_prefix⟩
  | cons x xs ih =>
    obtain ⟨hx, hxs⟩ := not_or.1 (List.mem_cons.not.1 h)
    obtain ⟨first, rest, heq, hprefix⟩ := ih hxs
    refine ⟨x :: first, rest, ?_, List.cons_prefix_cons.2 ⟨rfl, hprefix⟩⟩
    rw [List.cons_append, List.splitOn_cons_eq_if_modifyHead, heq,
      if_neg (by simpa using Ne.symm hx)]
    rfl

theorem count_intercalate {a b : α} (h : a ≠ b) (xss : List (List α)) :
    ([b].intercalate xss).count a = (xss.map (·.count a)).sum := by
  induction xss with
  | nil => rfl
  | cons xs xss ih =>
    cases xss with
    | nil => simp
    | cons ys xss =>
      rw [List.intercalate_cons_cons, List.append_assoc, List.count_append, List.singleton_append,
        List.count_cons_of_ne h.symm, ih]
      rfl

end Lines

namespace Report

def lines (text : String) : List (List Char) :=
  text.toList.splitOn '\n'

def heading (s : Statement) : String :=
  toString s.excerpt.start.line ++ ":" ++ toString s.excerpt.start.column ++ " " ++ s.kind

def newlines (s : Statement) : Nat :=
  (s.tables.map (·.qualified.toList.count '\n')).sum

theorem newlines_eq_zero {s : Statement} :
    newlines s = 0 ↔ ∀ t ∈ s.tables, '\n' ∉ t.qualified.toList := by
  unfold newlines
  rw [List.sum_eq_zero_iff_forall_eq_nat]
  simp [List.count_eq_zero]

theorem newline_notMem_toDigits (n : Nat) : '\n' ∉ Nat.toDigits 10 n := by
  intro h
  have := Nat.isDigit_of_mem_toDigits (by decide) (by decide) h
  contradiction

theorem newline_notMem_kind (s : Statement) : '\n' ∉ s.kind.toList := by
  cases s with
  | select s => cases s <;> dsimp only [Statement.kind, Statement.selectKind] <;> decide
  | _ => dsimp only [Statement.kind]; decide

theorem newline_notMem_heading (s : Statement) : '\n' ∉ (heading s).toList := by
  simp [heading, newline_notMem_toDigits, newline_notMem_kind]

def listing (s : Statement) : List Char :=
  match s.tables with
  | [] => []
  | tables => ' ' :: [','].intercalate (tables.map (·.qualified.toList))

theorem toList_summaryLine (s : Statement) :
    (summaryLine s).toList = (heading s).toList ++ listing s := by
  unfold summaryLine listing
  cases htables : s.tables with
  | nil => simp [heading]
  | cons t ts => simp [heading, String.toList_intercalate, Function.comp_def]

theorem count_listing (s : Statement) : (listing s).count '\n' = newlines s := by
  unfold listing newlines
  cases htables : s.tables with
  | nil => rfl
  | cons t ts =>
    rw [List.count_cons_of_ne (by decide), count_intercalate (by decide), List.map_map]
    rfl

theorem length_lines_summaryLine (s : Statement) :
    (lines (summaryLine s)).length = newlines s + 1 := by
  rw [lines, length_splitOn, toList_summaryLine, List.count_append,
    List.count_eq_zero.2 (newline_notMem_heading s), count_listing, Nat.zero_add]

theorem exists_lines_summaryLine (s : Statement) :
    ∃ first rest, lines (summaryLine s) = first :: rest ∧ (heading s).toList <+: first := by
  rw [lines, toList_summaryLine]
  exact exists_splitOn_append '\n' (newline_notMem_heading s) (listing s)

theorem lines_summary {statements : List Statement} (h : statements ≠ []) :
    lines (summary statements) = statements.flatMap fun s => lines (summaryLine s) := by
  have hmap : statements.map (fun s => (summaryLine s).toList) ≠ [] := by simpa using h
  rw [lines, summary, String.toList_intercalate, List.map_map]
  exact (splitOn_intercalate_eq '\n' hmap).trans (List.flatMap_map _ _ _)

theorem length_flatMap_lines (statements : List Statement) :
    (statements.flatMap fun s => lines (summaryLine s)).length =
      statements.length + (statements.map newlines).sum := by
  induction statements with
  | nil => rfl
  | cons s statements ih =>
    rw [List.flatMap_cons, List.length_append, length_lines_summaryLine, ih, List.length_cons,
      List.map_cons, List.sum_cons]
    omega

theorem forall₂_lines {statements : List Statement} (h : ∀ s ∈ statements, newlines s = 0) :
    List.Forall₂ (fun s line => (heading s).toList <+: line) statements
      (statements.flatMap fun s => lines (summaryLine s)) := by
  induction statements with
  | nil => exact .nil
  | cons s statements ih =>
    obtain ⟨hs, hrest⟩ := List.forall_mem_cons.1 h
    obtain ⟨first, rest, hlines, hprefix⟩ := exists_lines_summaryLine s
    have hlength := length_lines_summaryLine s
    rw [hlines, hs, List.length_cons, Nat.add_right_cancel_iff, List.length_eq_zero_iff] at hlength
    rw [List.flatMap_cons, hlines, hlength, List.singleton_append]
    exact .cons hprefix (ih hrest)

/--
A summary has one line for each statement, and one more for each newline in the name of a table. The
lines are those of the statements, in order and each with position and kind of its statement in
front, if and only if there is no such newline.
-/
theorem summary_lines {statements : List Statement} (h : statements ≠ []) :
    (lines (summary statements)).length = statements.length + (statements.map newlines).sum ∧
      (List.Forall₂ (fun s line => (heading s).toList <+: line) statements
          (lines (summary statements)) ↔
        ∀ s ∈ statements, ∀ t ∈ s.tables, '\n' ∉ t.qualified.toList) := by
  rw [lines_summary h]
  have hlength := length_flatMap_lines statements
  refine ⟨hlength, ?_⟩
  constructor
  · intro hlines s hs
    rw [← hlines.length_eq, Nat.left_eq_add, List.sum_eq_zero_iff_forall_eq_nat] at hlength
    exact newlines_eq_zero.1 (hlength _ (List.mem_map_of_mem hs))
  · intro hnames
    exact forall₂_lines fun s hs => newlines_eq_zero.2 (hnames s hs)

theorem summary_lines_quoted :
    ∃ statements, parse .mySql "SELECT 1 FROM \x60a\nb\x60, c;DELETE FROM d" {} = .ok statements ∧
      statements.length = 2 ∧ (lines (summary statements)).length = 3 ∧
      ¬ List.Forall₂ (fun s line => (heading s).toList <+: line) statements
        (lines (summary statements)) := by
  have hok : (parse .mySql "SELECT 1 FROM \x60a\nb\x60, c;DELETE FROM d" {}).toOption.any
      fun statements => statements.length = 2 ∧ (statements.map newlines).sum = 1 := by
    decide +kernel
  obtain ⟨statements, hparse, hnewlines⟩ := exists_ok_of_any hok
  obtain ⟨htwo, hone⟩ := of_decide_eq_true hnewlines
  have hne : statements ≠ [] := List.ne_nil_of_length_pos (by omega)
  have hlength := (summary_lines hne).1
  refine ⟨statements, hparse, htwo, by omega, fun hlines => ?_⟩
  have := hlines.length_eq
  omega

end Report

end SqlScript
