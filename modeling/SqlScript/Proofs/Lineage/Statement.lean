import SqlScript.Proofs.Lineage.Reading

/-!
What whole statements tell, as far as it is the same for all grammars.
-/

namespace SqlScript

open SqlScript.Tree (Node Element)

variable {ρ : Type}

namespace Lineage

variable [Production ρ] (L : Lineage ρ)

@[simp]
theorem partMarks_assignment (a : Assignment) :
    L.partMarks (.assignment a) = L.partMarks (.expr a.value) := by
  rw [L.partMarks_pieces rfl]
  simp [Part.pieces, Assignment.pieces]

theorem partMarks_insert (i : Insert) :
    L.partMarks (.insert i) =
      .table i.table.excerpt.span :: i.source.pieces.flatMap L.partMarks ++
        (i.onDuplicate.flatMap fun a => L.partMarks (.assignment a)) ++
        (Part.optional .unstructured i.onConflict).flatMap L.partMarks ++
        (Part.optional .unstructured i.returning).flatMap L.partMarks := by
  rw [L.partMarks_pieces rfl]
  simp [Part.pieces, Insert.pieces, List.flatMap_map]

theorem partMarks_update (u : Update) :
    L.partMarks (.update u) =
      L.partMarks (.tables u.tables) ++ (u.assignments.flatMap fun a => L.partMarks (.assignment a)) ++
        (Part.optional .expr u.condition).flatMap L.partMarks ++
        (Part.tail u.orderBy u.limit).flatMap L.partMarks ++
        (Part.optional .unstructured u.returning).flatMap L.partMarks := by
  rw [L.partMarks_pieces rfl]
  simp [Part.pieces, Update.pieces, List.flatMap_map]

theorem partMarks_delete (d : Delete) :
    L.partMarks (.delete d) =
      (d.targets.flatMap fun name => [.table name.excerpt.span]) ++ L.partMarks (.tables d.tables) ++
        (Part.optional .expr d.condition).flatMap L.partMarks ++
        (Part.tail d.orderBy d.limit).flatMap L.partMarks ++
        (Part.optional .unstructured d.returning).flatMap L.partMarks := by
  rw [L.partMarks_pieces rfl]
  simp [Part.pieces, Delete.pieces, List.flatMap_map]

theorem partMarks_tables (t : TableSources) :
    L.partMarks (.tables t) = t.sources.flatMap fun s => L.partMarks (.source s) := by
  rw [L.partMarks_pieces rfl]
  simp [Part.pieces, TableSources.pieces, List.flatMap_map]

theorem partMarks_namedSource (e : Excerpt) (t : NamedTable) :
    L.partMarks (.source (.base ⟨e, .named t, []⟩)) = [.table t.name.excerpt.span] := by
  have hitem : L.partMarks (.item (.named t)) = [.table t.name.excerpt.span] := by
    rw [L.partMarks_pieces rfl]
    simp [Part.pieces, TableItem.pieces]
  rw [L.partMarks_pieces rfl]
  simp [Part.pieces, TableSource.pieces, hitem]

theorem partMarks_lone (e : Excerpt) (t : NamedTable) :
    L.partMarks (.tables ⟨e, [.base ⟨e, .named t, []⟩]⟩) = [.table t.name.excerpt.span] := by
  rw [L.partMarks_tables]
  simp [L.partMarks_namedSource]

@[simp]
theorem partMarks_selectStatement (s : Select) :
    L.partMarks (.statement (.select s)) = L.partMarks (.select s) := by
  rw [L.partMarks_pieces rfl, L.partMarks_pieces rfl]
  rfl

@[simp]
theorem partMarks_insertStatement (i : Insert) :
    L.partMarks (.statement (.insert i)) = L.partMarks (.insert i) :=
  L.partMarks_only rfl rfl

@[simp]
theorem partMarks_updateStatement (u : Update) :
    L.partMarks (.statement (.update u)) = L.partMarks (.update u) :=
  L.partMarks_only rfl rfl

@[simp]
theorem partMarks_deleteStatement (d : Delete) :
    L.partMarks (.statement (.delete d)) = L.partMarks (.delete d) :=
  L.partMarks_only rfl rfl

@[simp]
theorem partMarks_createDatabase (create : CreateDatabase) :
    L.partMarks (.statement (.createDatabase create)) = [] := by
  rw [L.partMarks_only rfl rfl, L.partMarks_pieces rfl]
  simp [Part.pieces]

@[simp]
theorem partMarks_empty (e : Excerpt) : L.partMarks (.statement (.empty e)) = [] := by
  rw [L.partMarks_pieces rfl]
  simp [Part.pieces, Statement.pieces]

end Lineage

def Roles.isAssigned [DecidableEq ρ] (r : Roles ρ) (default rule : ρ) : Bool :=
  r.isExpression rule || rule == default

structure Reader.TellsValues [Production ρ] [Grammar ρ] (reader : Reader ρ) (r : Roles ρ)
    (L : Lineage ρ) (c : Context) (text : List Char) (depth : Nat) (default : ρ) : Prop
    extends reader.Tells r L c text depth where
  kept {n : Node ρ} : n.rule = default → reader.expression n = .unstructured (c.unstructured n)
  plain {n : Node ρ} : n.rule = default → L.Plain n

namespace Reader

variable [DecidableEq ρ] [Production ρ] {r : Roles ρ} {c : Context} {n : Node ρ}

theorem expression_ofDepth (depth : Nat) (hconnective : r.connective? c n = none)
    (hrule : n.rule ≠ r.predicateExpression) :
    (ofDepth r c depth).expression n = .unstructured (c.unstructured n) := by
  cases depth with
  | zero => rfl
  | succ depth =>
    change Reading.expression r c _ n = _
    unfold Reading.expression
    rw [hconnective, if_neg hrule]

end Reader

namespace Reading

variable [DecidableEq ρ] [Production ρ] [Grammar ρ] {r : Roles ρ} {L : Lineage ρ} {c : Context}
  {text : List Char} {good : Excerpt → Prop} {reader : Reader ρ} {depth : Nat} {n : Node ρ}
  {default : ρ}

theorem value_tells (hc : c.Cuts text good) (hreader : reader.TellsValues r L c text depth default)
    (hn : n.Ready c text depth) (hrule : r.isAssigned default n.rule) :
    L.partMarks (.expr (reader.expression n)) = L.marks n := by
  rw [Roles.isAssigned, Bool.or_eq_true] at hrule
  obtain h | h := hrule
  · exact hreader.expression hn h
  · rw [hreader.kept (eq_of_beq h)]
    exact (L.partMarks_only rfl rfl).trans
      (plain_tells hc hn.laid (hreader.plain (eq_of_beq h)))

theorem rows_tells (hc : c.Cuts text good) (hreader : reader.TellsValues r L c text depth default)
    (e : Excerpt) {rows : List (Node ρ)} (rule : ρ)
    (hrule : L.whole rule ∧ (Grammar.shape rule).rules.all (r.isAssigned default))
    (hrows : ∀ row ∈ rows, row.Ready c text depth ∧ row.rule = rule) :
    (InsertSource.values ⟨e, rows.map (·.childNodes.map reader.expression)⟩).pieces.flatMap
        L.partMarks = rows.flatMap L.marks := by
  have hrow : ∀ row ∈ rows, (row.childNodes.map reader.expression).flatMap
      (fun x => L.partMarks (.expr x)) = L.marks row := by
    intro row hmem
    obtain ⟨hready, rfl⟩ := hrows row hmem
    rw [Lineage.marks_children hrule.1, List.flatMap_map]
    apply List.flatMap_congr
    intro m hm
    exact value_tells hc hreader (hready.below hm)
      (List.all_eq_true.1 hrule.2 _ (hready.formed.rule_mem hm))
  simp only [InsertSource.pieces, List.flatMap_cons, L.partMarks_excerpt, List.nil_append,
    List.flatMap_map]
  rw [← List.flatMap_congr hrow, List.flatten_eq_flatMap, List.flatMap_assoc, List.flatMap_map]
  rfl

omit [DecidableEq ρ] in
theorem condition?_tells (hreader : reader.Tells r L c text depth) (hn : n.Ready c text depth) :
    ((condition? r reader n).toList.flatMap fun x => L.partMarks (.expr x)) =
      L.told (n.findChild? r.isExpression) := by
  apply L.flatMap_map_toList
  intro m hm
  exact hreader.expression (hn.below (Node.mem_childNodes_of_findChild? hm))
    (Node.rule_of_findChild? hm)

omit [DecidableEq ρ] in
theorem kept_tells (hc : c.Cuts text good) (hn : n.Genuine c text) (hplain : L.Plain n)
    (hbare : L.bare n.rule) {s : Statement} (hmark : L.mark? (.statement s) = none)
    (hpieces : s.pieces = [.unstructured (c.unstructured n)]) :
    L.partMarks (.statement s) = [] := by
  rw [L.partMarks_only hmark hpieces, plain_tells hc hn.laid hplain, L.marks_eq_nil n hbare]

end Reading

end SqlScript
