import SqlScript.Proofs.Fidelity
import SqlScript.Proofs.MySql.Balance
import SqlScript.Proofs.MySql.Forms.Script
import SqlScript.Proofs.Postgres.Balance
import SqlScript.Proofs.Postgres.Forms.Script

/-!
What holds of the tree of every text that is accepted.

Its height is bounded by how deep trees may nest, and not by the length of the text. The bound is a
square. An operand gives back the levels that its suffixes, collations and tests have taken as soon as
it is complete, so that what stands around it can take them once more.

The delimiters of the text are balanced, and its semicolons stand between statements, if no delimiter
and no semicolon stands where a grammar takes a token without looking at it.
-/

namespace SqlScript

theorem height_le_of_maxDepth (source : String) (options : Options) :
    (∀ tree, MySql.parseTree source options = .ok tree →
      tree.root.height ≤ 33 * (options.maxDepth + 1) ^ 2) ∧
    ∀ tree, Postgres.parseTree source options = .ok tree →
      tree.root.height ≤ 33 * (options.maxDepth + 1) ^ 2 := by
  have hsquare : options.maxDepth ^ 2 + 1 ≤ (options.maxDepth + 1) ^ 2 := by
    grind
  constructor
  · intro tree htree
    obtain ⟨-, -, hheight⟩ := MySql.parseTree_formed htree
    omega
  · intro tree htree
    obtain ⟨-, -, hheight⟩ := Postgres.parseTree_formed htree
    omega

theorem height_le_of_maxDepth_subscripts :
    ∃ tree, Postgres.parseTree "SELECT ((1)[][])[][]" ⟨1, 10⟩ = .ok tree ∧
      tree.root.height ≤ 33 * (10 + 1) ^ 2 := by
  have hok : (Postgres.parseTree "SELECT ((1)[][])[][]" ⟨1, 10⟩).isOk := by decide +kernel
  cases h : Postgres.parseTree "SELECT ((1)[][])[][]" ⟨1, 10⟩ with
  | ok tree => exact ⟨tree, rfl, (height_le_of_maxDepth _ ⟨1, 10⟩).2 tree h⟩
  | error e =>
    rw [h] at hok
    contradiction

theorem parseTree_encloses (source : String) (options : Options) :
    (∀ tree, MySql.parseTree source options = .ok tree →
      (∀ n, tree.root.Contains n → (MySql.unseen? n).all (·.kind.isPlain)) →
        Token.tokenize .mySql source =
            tree.root.owned.map (·.2) ++ [Token.eof source.utf8ByteSize] ∧
          tree.root.Encloses MySql.separates) ∧
    ∀ tree, Postgres.parseTree source options = .ok tree →
      (∀ n, tree.root.Contains n → (Postgres.unseen? n).all (·.kind.isPlain)) →
        Token.tokenize .postgreSql source =
            tree.root.owned.map (·.2) ++ [Token.eof source.utf8ByteSize] ∧
          tree.root.Encloses Postgres.separates := by
  constructor
  · intro tree htree hplain
    have hlossless := Parser.lossless_of_parseTree (MySql.script_builds options.maxDepth) htree
    obtain ⟨-, hformed, -⟩ := MySql.parseTree_formed htree
    rw [Tree.Node.map_owned, ← hlossless.tokens, hlossless.leaves]
    exact ⟨rfl, (MySql.tidy_of_formed hformed hplain).encloses⟩
  · intro tree htree hplain
    have hlossless := Parser.lossless_of_parseTree (Postgres.script_builds options.maxDepth) htree
    obtain ⟨-, hformed, -⟩ := Postgres.parseTree_formed htree
    rw [Tree.Node.map_owned, ← hlossless.tokens, hlossless.leaves]
    exact ⟨rfl, (Postgres.tidy_of_formed hformed hplain).encloses⟩

theorem parseTree_encloses_hint_using :
    (∃ tree, MySql.parseTree "SELECT (1) FROM t USE INDEX FOR ORDER BY (i);" {} = .ok tree ∧
      (∀ n, tree.root.Contains n → (MySql.unseen? n).all (·.kind.isPlain)) ∧
        tree.root.Encloses MySql.separates) ∧
    ∃ tree, Postgres.parseTree "SELECT (a[1]) ORDER BY 1 USING <;" {} = .ok tree ∧
      (∀ n, tree.root.Contains n → (Postgres.unseen? n).all (·.kind.isPlain)) ∧
        tree.root.Encloses Postgres.separates := by
  constructor
  · have hok : (MySql.parseTree "SELECT (1) FROM t USE INDEX FOR ORDER BY (i);" {}).toOption.any
        (·.root.all fun n => (MySql.unseen? n).all (·.kind.isPlain)) := by decide +kernel
    obtain ⟨tree, hparse, hall⟩ := exists_ok_of_any hok
    have hplain := fun n hn => Tree.Node.of_all (m := n) hall hn
    exact ⟨tree, hparse, hplain, ((parseTree_encloses _ {}).1 tree hparse hplain).2⟩
  · have hok : (Postgres.parseTree "SELECT (a[1]) ORDER BY 1 USING <;" {}).toOption.any
        (·.root.all fun n => (Postgres.unseen? n).all (·.kind.isPlain)) := by decide +kernel
    obtain ⟨tree, hparse, hall⟩ := exists_ok_of_any hok
    have hplain := fun n hn => Tree.Node.of_all (m := n) hall hn
    exact ⟨tree, hparse, hplain, ((parseTree_encloses _ {}).2 tree hparse hplain).2⟩

end SqlScript
