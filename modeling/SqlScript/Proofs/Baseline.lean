import SqlScript.Proofs.Joined.Statements

/-!
The baseline of a script moves line numbers and nothing else. The index of the lines is the only
thing that is made from it, once for the errors and once for the excerpts.
-/

namespace SqlScript

open SqlScript.Tree

def LineIndex.lower (lines : Nat) (index : LineIndex) : LineIndex :=
  { index with baseline := index.baseline + lines }

def ParseError.lower (lines : Nat) (e : ParseError) : ParseError :=
  { e with line := e.line + lines }

namespace LineIndex

variable (lines : Nat)

theorem foldl_push_lower (cs : List Char) (index : LineIndex) :
    cs.foldl push (index.lower lines) = (cs.foldl push index).lower lines := by
  induction cs generalizing index with
  | nil => rfl
  | cons c cs ih => exact ih (index.push c)

theorem ofString_succ (source : String) :
    ofString source (lines + 1) = (ofString source 1).lower lines := by
  have hempty : empty (lines + 1) = (empty 1).lower lines := by
    simp [empty, lower, Nat.add_comm]
  unfold ofString
  rw [hempty, foldl_push_lower]

theorem position_lower (index : LineIndex) (offset : Nat) :
    (index.lower lines).position offset = (index.position offset).lower lines 0 := by
  have hbytes (offset : Nat) :
      (index.lower lines).continuationBytes offset = index.continuationBytes offset := rfl
  unfold position Position.lower
  simp only [hbytes]
  simp only [lower, Position.mk.injEq]
  exact ⟨Nat.add_right_comm _ _ _, rfl, rfl⟩

end LineIndex

theorem Failure.toError_lower (f : Failure) (source : String) (index : LineIndex) (lines : Nat) :
    f.toError source (index.lower lines) = (f.toError source index).lower lines := by
  unfold toError ParseError.lower
  rw [LineIndex.position_lower]
  rfl

theorem Context.moves_baseline (source : String) (lines : Nat) (flavor : Flavor) :
    (ofString source 1 flavor).Moves source.toList id (.lower lines 0)
      (ofString source (lines + 1) flavor) where
  excerpt {s} _ := by
    unfold excerpt LineIndex.positions ofString Excerpt.lower
    dsimp only [id_eq]
    rw [LineIndex.ofString_succ, LineIndex.position_lower, LineIndex.position_lower]
  slice _ := rfl
  merge _ _ := rfl

section

variable {ρ : Type} (grammar : Parser ρ Unit) (dialect : Dialect) (source : String)
  (lines maxDepth : Nat)

theorem Parser.parseTree_baseline :
    parseTree grammar dialect source ⟨lines + 1, maxDepth⟩ =
      (parseTree grammar dialect source ⟨1, maxDepth⟩).mapError (.lower lines) := by
  have hrun (tokens : List Token) : parseTree.run grammar dialect ⟨lines + 1, maxDepth⟩ tokens =
      parseTree.run grammar dialect ⟨1, maxDepth⟩ tokens := rfl
  unfold parseTree
  dsimp only
  rw [hrun, LineIndex.ofString_succ]
  cases parseTree.run grammar dialect ⟨1, maxDepth⟩ (Token.tokenize dialect source) with
  | ok root => rfl
  | error f => exact congrArg Except.error (f.toError_lower source _ lines)

end

theorem ScriptForm.read_baseline {ρ : Type} [DecidableEq ρ] {form : ScriptForm ρ}
    {read : Context → Node ρ → Node ρ → Statement} (hread : Reading.Movable read) {source : String}
    {root : Node ρ} (hroot : (Element.node root).Laid source.toList) (lines : Nat)
    (flavor : Flavor) :
    (form.statementsIn root).map (read (.ofString source (lines + 1) flavor) root) =
      ((form.statementsIn root).map (read (.ofString source 1 flavor) root)).map
        (Statement.relocate (.lower lines 0)) := by
  have hin : ∀ n ∈ form.statementsIn root, n.relocate id ∈ form.statementsIn root := by
    intro n hn
    rwa [Node.relocate_id]
  have hmoved := read_relocate hread (Context.moves_baseline source lines flavor) hroot hin
  rwa [funext Node.relocate_id, List.map_id'] at hmoved

theorem ScriptForm.statements_baseline {ρ : Type} [DecidableEq ρ] (form : ScriptForm ρ)
    {grammar : Parser ρ Unit} {read : Context → Node ρ → Node ρ → Statement}
    (hread : Reading.Movable read) {dialect : Dialect} {maxDepth : Nat}
    (hbuilds : Parser.Builds dialect maxDepth grammar) (source : String) (lines : Nat)
    (flavor : Flavor) :
    (Parser.parseTree grammar dialect source ⟨lines + 1, maxDepth⟩).map (fun tree =>
        (form.statementsIn tree.root).map (read (.ofString source (lines + 1) flavor) tree.root)) =
      (((Parser.parseTree grammar dialect source ⟨1, maxDepth⟩).map (fun tree =>
        (form.statementsIn tree.root).map (read (.ofString source 1 flavor) tree.root))).map
          (List.map (Statement.relocate (.lower lines 0)))).mapError (.lower lines) := by
  rw [Parser.parseTree_baseline]
  cases htree : Parser.parseTree grammar dialect source ⟨1, maxDepth⟩ with
  | error e => rfl
  | ok tree =>
    obtain ⟨hlaid, -⟩ := Parser.laid_of_parseTree hbuilds htree
    exact congrArg Except.ok (read_baseline hread hlaid lines flavor)

/--
A script that starts on a later line has the same statements, or the same error, as many lines
further down. A baseline of zero is a baseline of one.
-/
theorem parse_baseline (flavor : Flavor) (source : String) (lines maxDepth : Nat) :
    parse flavor source ⟨lines + 1, maxDepth⟩ =
        ((parse flavor source ⟨1, maxDepth⟩).map
          (List.map (Statement.relocate (.lower lines 0)))).mapError (.lower lines) ∧
      parse flavor source ⟨0, maxDepth⟩ = parse flavor source ⟨1, maxDepth⟩ := by
  refine ⟨?_, by cases flavor <;> rfl⟩
  cases flavor with
  | mySql =>
    have h := MySql.form.statements_baseline MySql.movable_readStatement
      (MySql.script_builds maxDepth) source lines .mySql
    simp only [← MySql.statementsOf_eq] at h
    exact h
  | postgreSql =>
    have h := Postgres.form.statements_baseline Postgres.movable_readStatement
      (Postgres.script_builds maxDepth) source lines .postgreSql
    simp only [← Postgres.statementsOf_eq] at h
    exact h

end SqlScript
