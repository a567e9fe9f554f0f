import SqlScript.Proofs.Lossless
import SqlScript.Proofs.Shape.Loops
import SqlScript.Proofs.Simulation.Script

/-!
A script is made as its grammar says if its statements are, and so is the tree of a text if its parser
forms one production.
-/

namespace SqlScript

open SqlScript.Parser (Forms)

namespace ScriptForm

variable {ρ : Type} [Grammar ρ] {form : ScriptForm ρ} {statement : Parser ρ Unit} {rule : ρ}
  {c : Setting} {pre : Lookahead → Prop} {h : Nat}

/--
The productions of a script have the shapes of a list of statements.
-/
structure Shaped (form : ScriptForm ρ) (rule : ρ) : Prop where
  root : Grammar.shape form.root = .opt (.one form.list)
  list : Grammar.shape form.list =
    .many (.one form.empty ||| .sequence [.one rule, .opt (.kind .semicolon)])
  empty : Grammar.shape form.empty = .kind .semicolon

theorem separated_forms (hstatement : Forms c pre h (.one rule) statement) :
    Forms c pre h (.sequence [.one rule, .opt (.kind .semicolon)]) (separated statement) := by
  apply hstatement.seq
  apply (Forms.eatIf_unless (.ifSees (f := .nothing) (.expected _))).sub _ (Nat.le_refl _)
  rintro es (hes | rfl | rfl)
  · exact .inr hes
  · exact .inl rfl
  · exact .inl rfl

theorem Shaped.script_forms (hform : form.Shaped rule)
    (hstatement : ∀ pre, Forms c pre (h + 1) (.one rule) statement) :
    Forms c pre (h + 3) (.one form.root) (form.script statement) := by
  have hempty : ∀ {pre : Lookahead → Prop}, (∀ a, pre a → a.isKind 0 .semicolon = true) →
      Forms c pre h (Grammar.shape form.empty) Parser.bump :=
    fun hpre => hform.empty ▸ .bump_of (·.isKind 0 .semicolon) hpre
  have hentries : Forms c (!·.atEnd) (h + 1) (Grammar.shape form.list) (form.entries statement) := by
    rw [hform.list]
    exact .whileSees (.sees_or (.production (hempty fun _ ha => ha.2)) (separated_forms (hstatement _)))
  apply Forms.production
  rw [hform.root]
  exact .ifSees (.production hentries)

end ScriptForm

end SqlScript

namespace SqlScript.Parser

variable {ρ : Type} [Grammar ρ] {grammar : Parser ρ Unit} {dialect : Dialect} {options : Options}
  {source : String} {h : Nat} {rule : ρ}

theorem formed_of_run {root : Tree.Node ρ} {tokens : List Token}
    (heof : (tokens.getLast?.getD (.eof 0)).kind = .eof)
    (hgrammar : ∀ c, Forms c (fun _ => True) h (.one rule) grammar)
    (hroot : parseTree.run grammar dialect options tokens = .ok root) :
    root.rule = rule ∧ root.Formed ∧ root.height ≤ h := by
  rw [run_eq] at hroot
  split at hroot
  · contradiction
  generalize hc : settingOf dialect options.maxDepth tokens = c at hroot
  generalize hr : (grammar >>= fun _ => takeTree) c (initial tokens) = r at hroot
  cases r with
  | error f u => contradiction
  | ok root' u =>
    cases hroot
    obtain ⟨_, t, ht, htree⟩ := bind_eq_ok hr
    obtain ⟨es, hes, hmade⟩ := hgrammar c (hc ▸ heof) (Nat.zero_le _) trivial ht
    obtain ⟨-, hpending⟩ := pending_of_takeTree htree hes.opened
    rw [hes.pending] at hpending
    change es = [.node root] at hpending
    subst hpending
    obtain ⟨n, hn, hrule⟩ := Shape.matches_one.1 hmade.fits
    cases hn
    exact ⟨hrule, hmade.formed _ (List.mem_singleton_self _) _ rfl,
      hmade.height _ (List.mem_singleton_self _)⟩

/-- The tree of a text is well formed, and no higher than the grammar builds. -/
theorem formed_of_parseTree {tree : SyntaxTree ρ}
    (hgrammar : ∀ c, Forms c (fun _ => True) h (.one rule) grammar)
    (htree : parseTree grammar dialect source options = .ok tree) :
    tree.root.rule = rule ∧ tree.root.Formed ∧ tree.root.height ≤ h := by
  have heof : ((Token.tokenize dialect source).getLast?.getD (.eof 0)).kind = .eof := by
    unfold Token.tokenize
    rw [List.getLast?_concat]
    rfl
  unfold parseTree at htree
  dsimp only at htree
  split at htree
  · rename_i root hroot
    cases htree
    exact formed_of_run heof hgrammar hroot
  · contradiction

end SqlScript.Parser
