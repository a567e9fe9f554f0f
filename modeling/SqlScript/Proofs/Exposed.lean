import SqlScript.Proofs.MySql.Exposed
import SqlScript.Proofs.Postgres.Exposed

/-!
What each statement of a script tells of the part of the tree that it is read from: the tables in
it, in which order, and what sorts and limits its rows.
-/

namespace SqlScript

def Statement.Increasing (s : Statement) : Prop :=
  (s.tables.map (·.excerpt.span.start)).Pairwise (· < ·)

variable {source : String} {options : Options} {flavor : Flavor} {statements : List Statement}

/-- The tables of a statement are the exposed references to tables in its slot. -/
theorem parse_lists (h : parse flavor source options = .ok statements) :
    Matched source options statements MySql.route.Lists Postgres.route.Lists flavor :=
  matched_of_parse h (MySql.statementsOf_list (Context.cuts_ofString source options.baseline .mySql))
    (Postgres.statementsOf_list (Context.cuts_ofString source options.baseline .postgreSql))

theorem parse_lists_shared :
    ∃ statements, parse .postgreSql "UPDATE t SET (a, b) = (SELECT 1 FROM u)" {} = .ok statements ∧
      Matched "UPDATE t SET (a, b) = (SELECT 1 FROM u)" {} statements MySql.route.Lists
        Postgres.route.Lists .postgreSql := by
  obtain ⟨statements, h⟩ := exists_eq_ok (x := parse .postgreSql
    "UPDATE t SET (a, b) = (SELECT 1 FROM u)" {}) (by decide +kernel)
  exact ⟨statements, h, parse_lists h⟩

/-- The tables of a statement start one behind the other: in MySQL always, and in PostgreSQL just if
no update names tables out of the order in which its readers list them. -/
theorem parse_increasing_iff (h : parse flavor source options = .ok statements) :
    Matched source options statements (fun _ s => s.Increasing)
      (fun n s => s.Increasing ↔ Postgres.InOrder n) flavor := by
  apply matched_of_parse h
  · intro root hroot
    refine MySql.forall₂_statementsOf fun n hn => ?_
    apply MySql.statementsOf_increasing (Context.cuts_ofString source options.baseline .mySql) hroot
    rw [MySql.statementsOf_eq_slots]
    exact List.mem_map_of_mem hn
  · exact Postgres.statementsOf_increasing_iff
      (Context.cuts_ofString source options.baseline .postgreSql)

theorem parse_increasing_iff_from :
    ∃ statements, parse .postgreSql "UPDATE t SET a = 1 IN (SELECT 1 FROM u) FROM v" {} =
        .ok statements ∧
      Matched "UPDATE t SET a = 1 IN (SELECT 1 FROM u) FROM v" {} statements
        (fun _ s => s.Increasing) (fun n s => s.Increasing ↔ Postgres.InOrder n) .postgreSql := by
  obtain ⟨statements, h⟩ := exists_eq_ok (x := parse .postgreSql
    "UPDATE t SET a = 1 IN (SELECT 1 FROM u) FROM v" {}) (by decide +kernel)
  exact ⟨statements, h, parse_increasing_iff h⟩

/-- What sorts or limits rows in a statement is what does so, exposed, in its slot. -/
theorem parse_bounds (h : parse flavor source options = .ok statements) :
    Matched source options statements (MySql.route.Bounds .limitClause .orderByClause)
      (Postgres.route.Bounds .selectLimit .sortClause) flavor :=
  matched_of_parse h (MySql.statementsOf_bound (Context.cuts_ofString source options.baseline .mySql))
    (Postgres.statementsOf_bound (Context.cuts_ofString source options.baseline .postgreSql))

theorem parse_bounds_union :
    ∃ statements, parse .mySql "(SELECT 1 LIMIT 2) UNION SELECT 3 ORDER BY 1 LIMIT 4" {} =
        .ok statements ∧
      Matched "(SELECT 1 LIMIT 2) UNION SELECT 3 ORDER BY 1 LIMIT 4" {} statements
        (MySql.route.Bounds .limitClause .orderByClause)
        (Postgres.route.Bounds .selectLimit .sortClause) .mySql := by
  obtain ⟨statements, h⟩ := exists_eq_ok (x := parse .mySql
    "(SELECT 1 LIMIT 2) UNION SELECT 3 ORDER BY 1 LIMIT 4" {}) (by decide +kernel)
  exact ⟨statements, h, parse_bounds h⟩

end SqlScript
