import SqlScript.Proofs.Fidelity
import SqlScript.Proofs.MySql.Filled
import SqlScript.Proofs.MySql.Forms.Script
import SqlScript.Proofs.MySql.Mirror
import SqlScript.Proofs.Postgres.Filled
import SqlScript.Proofs.Postgres.Forms.Script
import SqlScript.Proofs.Postgres.Mirror

/-!
The statements of a script mirror its tree, each of them its own slot: no statement, list or
condition of the tree is lost, and nothing that has a form of its own is kept as text. Nothing is
missing in them either.
-/

namespace SqlScript

variable {source : String} {options : Options}

theorem MySql.genuine_of_parseTree {tree : SyntaxTree MySql.Rule}
    (h : MySql.parseTree source options = .ok tree) :
    tree.root.Genuine (.ofString source options.baseline .mySql) source.toList := by
  obtain ⟨-, hformed, -⟩ := MySql.parseTree_formed h
  obtain ⟨hlaid, htokens, hleaves⟩ :=
    Parser.laid_of_parseTree (MySql.script_builds options.maxDepth) h
  exact ⟨hformed, hlaid, Token.spelled_of_tokenize (htokens.symm.trans hleaves)⟩

theorem Postgres.genuine_of_parseTree {tree : SyntaxTree Postgres.Rule}
    (h : Postgres.parseTree source options = .ok tree) :
    tree.root.Genuine (.ofString source options.baseline .postgreSql) source.toList := by
  obtain ⟨-, hformed, -⟩ := Postgres.parseTree_formed h
  obtain ⟨hlaid, htokens, hleaves⟩ :=
    Parser.laid_of_parseTree (Postgres.script_builds options.maxDepth) h
  exact ⟨hformed, hlaid, Token.spelled_of_tokenize (htokens.symm.trans hleaves)⟩

/--
The statements are as many as the slots of the tree, and each of them is related to its own slot.
-/
def Matched (source : String) (options : Options) (statements : List Statement)
    (mySql : Tree.Node MySql.Rule → Statement → Prop)
    (postgreSql : Tree.Node Postgres.Rule → Statement → Prop) : Flavor → Prop
  | .mySql => ∃ tree, MySql.parseTree source options = .ok tree ∧
      List.Forall₂ mySql (MySql.slots tree.root) statements
  | .postgreSql => ∃ tree, Postgres.parseTree source options = .ok tree ∧
      List.Forall₂ postgreSql (Postgres.slots tree.root) statements

section

variable {flavor : Flavor} {statements : List Statement}

/-- What relates the slots of a genuine tree to the statements read from it relates those of a
script to its statements. -/
theorem matched_of_parse {mySql : Tree.Node MySql.Rule → Statement → Prop}
    {postgreSql : Tree.Node Postgres.Rule → Statement → Prop}
    (h : parse flavor source options = .ok statements)
    (hmySql : ∀ {root : Tree.Node MySql.Rule},
      root.Genuine (.ofString source options.baseline .mySql) source.toList →
        List.Forall₂ mySql (MySql.slots root)
          (MySql.statementsOf (.ofString source options.baseline .mySql) root))
    (hpostgreSql : ∀ {root : Tree.Node Postgres.Rule},
      root.Genuine (.ofString source options.baseline .postgreSql) source.toList →
        List.Forall₂ postgreSql (Postgres.slots root)
          (Postgres.statementsOf (.ofString source options.baseline .postgreSql) root)) :
    Matched source options statements mySql postgreSql flavor := by
  cases flavor with
  | mySql =>
    obtain ⟨tree, htree, rfl⟩ := exists_of_map_eq_ok h
    exact ⟨tree, htree, hmySql (MySql.genuine_of_parseTree htree)⟩
  | postgreSql =>
    obtain ⟨tree, htree, rfl⟩ := exists_of_map_eq_ok h
    exact ⟨tree, htree, hpostgreSql (Postgres.genuine_of_parseTree htree)⟩

/--
Each statement of a script mirrors its own slot of the tree.
-/
def Mirrored (source : String) (options : Options) (statements : List Statement) : Flavor → Prop :=
  Matched source options statements
    ((MySql.mirror (.ofString source options.baseline .mySql)).Agrees
      (MySql.Whole (.ofString source options.baseline .mySql)))
    ((Postgres.mirror (.ofString source options.baseline .postgreSql)).Agrees
      (Postgres.Whole (.ofString source options.baseline .postgreSql)))

theorem parse_mirrored (h : parse flavor source options = .ok statements) :
    Mirrored source options statements flavor :=
  matched_of_parse h (MySql.statementsOf_agree (Context.cuts_ofString source options.baseline .mySql))
    (Postgres.statementsOf_agree (Context.cuts_ofString source options.baseline .postgreSql))

end

theorem exists_eq_ok {ε α : Type} {x : Except ε α} (h : x.isOk) : ∃ a, x = .ok a := by
  cases x with
  | ok a => exact ⟨a, rfl⟩
  | error e => contradiction

theorem parse_mirrored_join :
    (∃ statements, parse .mySql
        "SELECT a FROM t JOIN u USING (b) WHERE a = 1 OR a IN (2, 3); DELETE FROM t;" {} =
          .ok statements ∧
      Mirrored "SELECT a FROM t JOIN u USING (b) WHERE a = 1 OR a IN (2, 3); DELETE FROM t;" {}
        statements .mySql) ∧
    ∃ statements, parse .postgreSql
        "SELECT a FROM t JOIN u USING (b) WHERE a = 1 OR a IN (2, 3); DELETE FROM t;" {} =
          .ok statements ∧
      Mirrored "SELECT a FROM t JOIN u USING (b) WHERE a = 1 OR a IN (2, 3); DELETE FROM t;" {}
        statements .postgreSql := by
  obtain ⟨first, hfirst⟩ := exists_eq_ok (x := parse .mySql
    "SELECT a FROM t JOIN u USING (b) WHERE a = 1 OR a IN (2, 3); DELETE FROM t;" {})
    (by decide +kernel)
  obtain ⟨second, hsecond⟩ := exists_eq_ok (x := parse .postgreSql
    "SELECT a FROM t JOIN u USING (b) WHERE a = 1 OR a IN (2, 3); DELETE FROM t;" {})
    (by decide +kernel)
  exact ⟨⟨first, hfirst, parse_mirrored hfirst⟩, second, hsecond, parse_mirrored hsecond⟩

/--
In the statements of a script, lists that could not be left out are not empty: the tables, what is
selected, the values of `IN`, the rows of `VALUES`, what is assigned, the columns of `USING` and the
qualifiers of stars. Tables and columns have a name, and an owner that is there has one as well.
-/
theorem parse_filled {flavor : Flavor} {statements : List Statement}
    (h : parse flavor source options = .ok statements) :
    ∀ s ∈ statements, ∀ p ∈ s.parts, p.Filled := by
  have hcuts := Context.cuts_ofString source options.baseline flavor
  cases flavor with
  | mySql =>
    obtain ⟨tree, htree, rfl⟩ := exists_of_map_eq_ok h
    exact MySql.statementsOf_filled hcuts (MySql.genuine_of_parseTree htree)
  | postgreSql =>
    obtain ⟨tree, htree, rfl⟩ := exists_of_map_eq_ok h
    exact Postgres.statementsOf_filled hcuts (Postgres.genuine_of_parseTree htree)

theorem parse_filled_update :
    (∃ statements, parse .mySql
        "SELECT t.* FROM s.t JOIN u USING (b) WHERE a IN (2); UPDATE `s`.t SET a = 1;" {} =
          .ok statements ∧ ∀ s ∈ statements, ∀ p ∈ s.parts, p.Filled) ∧
    ∃ statements, parse .postgreSql
        "SELECT t.* FROM s.t JOIN u USING (b) WHERE a IN (2); UPDATE \"s\".t SET a = 1;" {} =
          .ok statements ∧ ∀ s ∈ statements, ∀ p ∈ s.parts, p.Filled := by
  obtain ⟨first, hfirst⟩ := exists_eq_ok (x := parse .mySql
    "SELECT t.* FROM s.t JOIN u USING (b) WHERE a IN (2); UPDATE `s`.t SET a = 1;" {})
    (by decide +kernel)
  obtain ⟨second, hsecond⟩ := exists_eq_ok (x := parse .postgreSql
    "SELECT t.* FROM s.t JOIN u USING (b) WHERE a IN (2); UPDATE \"s\".t SET a = 1;" {})
    (by decide +kernel)
  exact ⟨⟨first, hfirst, parse_filled hfirst⟩, second, hsecond, parse_filled hsecond⟩

end SqlScript
