import Mathlib.Data.List.Nodup
import SqlScript.Proofs.Reading
import SqlScript.Proofs.Shape.Slots

/-!
What a statement tells of tables, and what a tree tells of them. Both are read off as marks, one
behind the other: a table that is named, a production that is kept as text although tables can be
named in it, and a limit.
-/

namespace SqlScript

open SqlScript.Tree (Node Element)

/--
What is met on the way through a statement.
-/
inductive Mark where
  | table (span : Span)
  | text (production : String) (span : Span)
  | limit (span : Span)
  deriving DecidableEq, Repr

namespace Mark

def table? : Mark → Option Span
  | table span => some span
  | _ => none

end Mark

/--
What becomes of a production when a statement is read.
-/
inductive Look where
  /-- It is the name of a table. -/
  | name
  /-- Its counts are read. -/
  | limit
  /-- No table can be named in it. -/
  | bare
  /-- What is nested in it is read. -/
  | inside
  /-- It is kept as text. -/
  | text
  deriving DecidableEq, Repr

/--
How the productions of a grammar are read for the tables that they name.
-/
structure Lineage (ρ : Type) where
  /-- The kinds of production in which a table can be named. -/
  kinds : List ρ
  look : Node ρ → Look
  /-- The nested productions that are read, as often and in the order as they are. -/
  shown : Node ρ → List (Node ρ)
  nested {n m : Node ρ} : m ∈ shown n → ∃ k ∈ n.childNodes, k.Contains m
  /-- The kinds of production of which all that is nested in them is read. -/
  whole : ρ → Bool
  /-- The kinds of production in which no table can be named. -/
  bare : ρ → Bool
  look_whole {n : Node ρ} : whole n.rule → look n = .inside
  shown_whole {n : Node ρ} : whole n.rule → shown n = n.childNodes
  look_bare {n : Node ρ} : bare n.rule → look n = .bare

theorem Tree.Node.sizeOf_le_of_contains {ρ : Type} {n m : Node ρ} (h : n.Contains m) :
    sizeOf m ≤ sizeOf n := by
  induction h with
  | refl => exact Nat.le_refl _
  | child hm _ ih => exact Nat.le_trans ih (Nat.le_of_lt (Node.sizeOf_lt_of_mem_childNodes hm))

/--
The bytes of a text as the digits of a number. Numbers are compared faster than texts.
-/
def bytesNumber (text : String) : Nat :=
  text.toByteArray.data.toList.foldl (fun n byte => 256 * n + byte.toNat) 0

theorem injective_of_bytesNumber {α : Type} {all : List α} {name : α → String}
    (hall : ∀ a, a ∈ all) (h : (all.map fun a => bytesNumber (name a)).Nodup) :
    Function.Injective name :=
  fun a b heq => List.inj_on_of_nodup_map h (hall a) (hall b) (congrArg bytesNumber heq)

namespace Lineage

variable {ρ α : Type} (L : Lineage ρ)

theorem sizeOf_lt {n m : Node ρ} (h : m ∈ L.shown n) : sizeOf m < sizeOf n := by
  obtain ⟨k, hk, hm⟩ := L.nested h
  exact Nat.lt_of_le_of_lt (Node.sizeOf_le_of_contains hm) (Node.sizeOf_lt_of_mem_childNodes hk)

variable [Production ρ]

/--
The marks of a production, in the order in which it is read.
-/
def marks (n : Node ρ) : List Mark :=
  match L.look n with
  | .name => [.table n.span]
  | .limit => [.limit n.span]
  | .bare => []
  | .inside => (L.shown n).attach.flatMap fun ⟨m, _⟩ => marks m
  | .text => [.text (Production.name n.rule) n.span]
termination_by sizeOf n
decreasing_by exact L.sizeOf_lt ‹_›

def told (n? : Option (Node ρ)) : List Mark :=
  n?.toList.flatMap L.marks

/--
Can a table be named in a production of this name?
-/
def hears (production : String) : Bool :=
  L.kinds.any (Production.name · == production)

variable {L} in
theorem hears_name [DecidableEq ρ] (h : Function.Injective (Production.name : ρ → String))
    (rule : ρ) : L.hears (Production.name rule) = L.kinds.contains rule := by
  rw [Bool.eq_iff_iff, hears, List.any_eq_true, List.contains_iff_mem]
  constructor
  · rintro ⟨kind, hmem, hname⟩
    rwa [h (eq_of_beq hname)] at hmem
  · exact fun hmem => ⟨rule, hmem, beq_self_eq_true _⟩

def mark? : Part → Option Mark
  | .tableName name => some (.table name.excerpt.span)
  | .limit l => some (.limit l.excerpt.span)
  | .unstructured body =>
    if L.hears body.production then some (.text body.production body.excerpt.span) else none
  | _ => none

def partMarks (p : Part) : List Mark :=
  p.all.filterMap L.mark?

/--
A production that says nothing of tables but what its text says.
-/
def Plain (n : Node ρ) : Prop :=
  L.marks n = if L.hears (Production.name n.rule) then [.text (Production.name n.rule) n.span] else []

variable {L} {n : Node ρ} {p : Part}

theorem marks_inside (h : L.look n = .inside) : L.marks n = (L.shown n).flatMap L.marks := by
  rw [marks, h]
  dsimp only
  exact List.flatMap_subtype (fun _ _ => rfl) |>.trans (by simp)

theorem marks_children (h : L.whole n.rule) : L.marks n = n.childNodes.flatMap L.marks := by
  rw [marks_inside (L.look_whole h), L.shown_whole h]

theorem marks_name (h : L.look n = .name) : L.marks n = [.table n.span] := by
  rw [marks, h]

theorem marks_limit (h : L.look n = .limit) : L.marks n = [.limit n.span] := by
  rw [marks, h]

theorem marks_bare (h : L.look n = .bare) : L.marks n = [] := by
  rw [marks, h]

theorem marks_eq_nil (n : Node ρ) (h : L.bare n.rule) : L.marks n = [] :=
  marks_bare (L.look_bare h)

theorem marks_text (h : L.look n = .text) :
    L.marks n = [.text (Production.name n.rule) n.span] := by
  rw [marks, h]

@[simp]
theorem told_none : L.told none = [] :=
  rfl

@[simp]
theorem told_some (n : Node ρ) : L.told (some n) = L.marks n := by
  simp [told]

variable (L)

theorem partMarks_eq (p : Part) :
    L.partMarks p = (L.mark? p).toList ++ p.pieces.flatMap L.partMarks := by
  unfold partMarks
  rw [Part.all, Part.walk_eq, if_pos rfl, List.filterMap_cons, List.filterMap_flatMap]
  cases L.mark? p <;> rfl

theorem partMarks_pieces (h : L.mark? p = none) :
    L.partMarks p = p.pieces.flatMap L.partMarks := by
  rw [partMarks_eq, h]
  rfl

@[simp]
theorem partMarks_excerpt (e : Excerpt) : L.partMarks (.excerpt e) = [] :=
  L.partMarks_pieces rfl

@[simp]
theorem partMarks_tableName (name : TableName) :
    L.partMarks (.tableName name) = [.table name.excerpt.span] := by
  rw [partMarks_eq]
  simp [mark?, Part.pieces]

@[simp]
theorem partMarks_columnName (name : ColumnName) : L.partMarks (.columnName name) = [] := by
  rw [partMarks_pieces _ rfl]
  simp [Part.pieces]

@[simp]
theorem partMarks_dottedName (name : DottedName) : L.partMarks (.dottedName name) = [] := by
  rw [partMarks_pieces _ rfl]
  simp [Part.pieces]

@[simp]
theorem partMarks_limit (l : Limit) : L.partMarks (.limit l) = [.limit l.excerpt.span] := by
  rw [partMarks_eq]
  simp [mark?, Part.pieces]

theorem partMarks_unstructured (body : Unstructured) :
    L.partMarks (.unstructured body) =
      if L.hears body.production then [.text body.production body.excerpt.span] else [] := by
  rw [partMarks_eq, mark?]
  split <;> simp [Part.pieces]

theorem partMarks_only {q : Part} (hmark : L.mark? p = none) (hpieces : p.pieces = [q]) :
    L.partMarks p = L.partMarks q := by
  rw [partMarks_pieces _ hmark, hpieces, List.flatMap_singleton]

@[simp]
theorem partMarks_star (e : StarElement) : L.partMarks (.element (.star e)) = [] := by
  rw [partMarks_pieces _ rfl]
  cases h : e.qualifier <;> simp [Part.pieces, SelectElement.pieces, Part.optional, h]

@[simp]
theorem partMarks_column (e : ColumnElement) : L.partMarks (.element (.column e)) = [] := by
  rw [partMarks_pieces _ rfl]
  simp [Part.pieces, SelectElement.pieces]

@[simp]
theorem partMarks_function (body : Unstructured) :
    L.partMarks (.element (.function body)) = L.partMarks (.unstructured body) :=
  L.partMarks_only rfl rfl

@[simp]
theorem partMarks_expression (body : Unstructured) :
    L.partMarks (.element (.expression body)) = L.partMarks (.unstructured body) :=
  L.partMarks_only rfl rfl

@[simp]
theorem partMarks_constant (e : Excerpt) (literal : Constant) :
    L.partMarks (.atom (.constant e literal)) = [] := by
  rw [partMarks_pieces _ rfl]
  simp [Part.pieces, Atom.pieces]

@[simp]
theorem partMarks_columnAtom (name : ColumnName) : L.partMarks (.atom (.column name)) = [] := by
  rw [partMarks_pieces _ rfl]
  simp [Part.pieces, Atom.pieces]

@[simp]
theorem partMarks_atom (body : Unstructured) :
    L.partMarks (.atom (.unstructured body)) = L.partMarks (.unstructured body) :=
  L.partMarks_only rfl rfl

@[simp]
theorem flatMap_optional (part : α → Part) (a? : Option α) :
    (Part.optional part a?).flatMap L.partMarks = a?.toList.flatMap fun a => L.partMarks (part a) := by
  cases a? <;> simp [Part.optional]

theorem flatMap_map_toList {f : Node ρ → α} {part : α → Part} {n? : Option (Node ρ)}
    (h : ∀ n, n? = some n → L.partMarks (part (f n)) = L.marks n) :
    ((f <$> n?).toList.flatMap fun a => L.partMarks (part a)) = L.told n? := by
  cases n? with
  | none => rfl
  | some n => simp [h n rfl]

theorem Plain.partMarks_unstructured {L : Lineage ρ} (h : L.Plain n) {c : Context}
    (hspan : (c.excerptOf n).span = n.span) :
    L.partMarks (.unstructured (c.unstructured n)) = L.marks n := by
  rw [h, L.partMarks_unstructured]
  change (if L.hears (Production.name n.rule) then _ else _) = _
  split
  · change [Mark.text (Production.name n.rule) (c.excerptOf n).span] = _
    rw [hspan]
  · rfl

section

variable [Grammar ρ] {rule : ρ}

/--
Is all read of productions of this kind, and is only one child in each slot?
-/
def singly (rule : ρ) (slots : List (ρ → Bool)) : Bool :=
  L.whole rule && (Grammar.shape rule).fits L.bare slots &&
    slots.all fun slot => (Grammar.shape rule).single slot

variable {L}

theorem marks_slots (hn : n.Formed) (hrule : n.rule = rule) (slots : List (ρ → Bool))
    (h : L.whole rule ∧ (Grammar.shape rule).fits L.bare slots) :
    L.marks n = slots.flatMap fun slot => (n.childrenThat slot).flatMap L.marks := by
  subst hrule
  rw [marks_children h.1, hn.flatMap_childNodes h.2 fun m _ => L.marks_eq_nil m]

theorem told_of_single (hn : n.Formed) (hrule : n.rule = rule) (p : ρ → Bool)
    (h : (Grammar.shape rule).single p) :
    (n.childrenThat p).flatMap L.marks = L.told (n.findChild? p) := by
  subst hrule
  rw [hn.childrenThat_eq h]
  rfl

theorem marks_singles (hn : n.Formed) (hrule : n.rule = rule) (slots : List (ρ → Bool))
    (h : L.singly rule slots) :
    L.marks n = slots.flatMap fun slot => L.told (n.findChild? slot) := by
  simp only [singly, Bool.and_eq_true] at h
  rw [marks_slots hn hrule slots h.1]
  apply List.flatMap_congr
  intro slot hslot
  exact told_of_single hn hrule slot (List.all_eq_true.1 h.2 _ hslot)

theorem marks_only (hn : n.Formed) (hrule : n.rule = rule) (p : ρ → Bool)
    (h : (Grammar.shape rule).requires p ∧ L.singly rule [p]) :
    ∃ m, n.findChild? p = some m ∧ L.marks n = L.marks m := by
  obtain ⟨m, hm⟩ := hn.exists_child hrule p h.1
  refine ⟨m, hm, ?_⟩
  rw [marks_singles hn hrule [p] h.2]
  simp [hm]

end

theorem told_eq_bind {n? : Option (Node ρ)} {f : Node ρ → Option (Node ρ)}
    (h : ∀ n, n? = some n → L.marks n = L.told (f n)) : L.told n? = L.told (n? >>= f) := by
  cases n? with
  | none => rfl
  | some n => exact (L.told_some n).trans (h n rfl)

theorem tables_eq (s : Statement) :
    s.tables.map (·.excerpt.span) = (L.partMarks (.statement s)).filterMap Mark.table? := by
  unfold Statement.tables Statement.parts partMarks
  rw [List.filterMap_filterMap, List.map_filterMap]
  apply List.filterMap_congr
  intro p _
  cases p <;> simp [mark?, Part.asTableName, Mark.table?]
  split <;> rfl

end Lineage

end SqlScript
