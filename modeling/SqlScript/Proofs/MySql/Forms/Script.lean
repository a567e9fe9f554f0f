import SqlScript.Proofs.MySql.Forms.Query
import SqlScript.Proofs.Shape.Script

/-!
MySQL scripts have their shapes. Their trees are bounded by the square of the depth to which they
may nest.
-/

namespace SqlScript.MySql

open SqlScript.Parser (Forms Reforms Ends)

variable {c : Setting} {pre : Lookahead → Prop} {h w : Nat}

theorem tokenRun_forms {rule : Rule} (hrule : Shape.tokens.Within (shape rule)) :
    Forms c pre (h + 1) (.one rule) (tokenRun rule) :=
  .production (Forms.bumpBalanced.sub hrule (Nat.le_refl h))

theorem createDatabase_forms :
    Forms c (fun a => (a.isKeyword 0 .CREATE && a.isOneOf 1 [.DATABASE, .SCHEMA]) = true) (h + 2)
      (.one .createDatabase) createDatabase := by
  have hstart : Forms c
      (fun a => (a.isKeyword 0 .CREATE && a.isOneOf 1 [.DATABASE, .SCHEMA]) = true) (h + 1)
      (.tokens : Shape Rule) (Parser.bumpN 2) := by
    apply Forms.bumpTwo
    intro a ha
    obtain ⟨hcreate, hword⟩ := (Bool.and_eq_true _ _).mp ha
    exact ⟨Lookahead.isPlain_of_isKeyword hcreate, Lookahead.isPlain_of_isOneOf hword⟩
  unfold createDatabase
  apply Forms.production
  apply hstart.seq
  apply Forms.seq (.afterKeyword ((Forms.expectKeyword _).seq (.expectKeyword _)))
  exact uid_forms.seq .bumpBalanced

theorem definition_forms : Forms c pre (h + 3) (.one .ddlStatement) definition :=
  .production (.sees_or (createDatabase_forms.weaken fun _ ha => ha.2) .bumpBalanced)

theorem description_forms : Forms c pre (h + 2) (.one .utilityStatement) description := by
  unfold description
  apply Forms.production
  apply Forms.left
  apply Forms.sees_ite
  · exact (tokenRun_forms (.refl _)).among (by decide) (Nat.le_refl (h + 1))
  · exact (tokenRun_forms (.refl _)).among (by decide) (Nat.le_refl (h + 1))

def manipulatedShape (t : Token) : Shape Rule :=
  ((manipulated? t).map .oneIn).getD .tokens

theorem manipulatedShape_within (t : Token) :
    (manipulatedShape t).Within (shape .dmlStatement) := by
  unfold manipulatedShape manipulated?
  split
  · exact fun _ hes => .inl (Shape.Within.oneIn (by decide) hes)
  · exact fun _ hes => .inl (Shape.Within.oneIn (by decide) hes)
  · exact fun _ hes => .inl (Shape.Within.oneIn (by decide) hes)
  · exact fun _ hes => .inl (Shape.Within.oneIn (by decide) hes)
  · exact fun _ hes => .inl (Shape.Within.oneIn (by decide) hes)
  · exact fun _ => .inr

theorem ofLookahead?_of_manipulated? {a : Lookahead} (h : (manipulated? (a.token 0)).isSome) :
    Family.ofLookahead? a = some .manipulation := by
  have hword : ∀ word, (a.token 0).kind = .keyword word →
      word ∈ [Keyword.SELECT, .INSERT, .UPDATE, .DELETE] →
      Family.ofLookahead? a = some .manipulation := by
    intro word hkind hmem
    simp only [List.mem_cons, List.not_mem_nil, or_false] at hmem
    obtain rfl | rfl | rfl | rfl := hmem
    all_goals
      simp [Family.ofLookahead?, Family.keywords, Lookahead.isKind, Lookahead.kind,
        Lookahead.isKeyword, Token.isKeyword, Lookahead.isOneOf, Token.isOneOf, Token.keyword?,
        TokenKind.alike, hkind]
  unfold manipulated? at h
  split at h
  · rename_i hkind
    simp [Family.ofLookahead?, Lookahead.isKind, Lookahead.kind, TokenKind.alike, hkind]
  · exact hword _ ‹_› (by decide)
  · exact hword _ ‹_› (by decide)
  · exact hword _ ‹_› (by decide)
  · exact hword _ ‹_› (by decide)
  · contradiction

theorem script_shaped :
    ScriptForm.Shaped ⟨Rule.root, .sqlStatements, .emptyStatement⟩ .sqlStatement :=
  ⟨rfl, rfl, rfl⟩

namespace NestedForms

theorem tooDeep : NestedForms c 0 0 fun _ => Parser.tooDeep where
  query := .tooDeep
  queryGroup := .tooDeep
  condition _ := .tooDeep
  condition_ends _ := .tooDeep
  predicate _ := .tooDeep
  test _ _ _ _ := .tooDeep
  operand _ := .tooDeep
  operand_ends _ := .tooDeep
  collation _ _ := .tooDeep
  source := .tooDeep

variable {nested : Goal → Parser Rule Unit} (hn : NestedForms c h w nested)

include hn

theorem attempt : NestedForms c (h + w + 33) (w + 31) (attempt nested) where
  query := hn.query_forms.up (by omega)
  queryGroup := hn.queryGroup_forms.up (by omega)
  condition k := (hn.condition_forms k).up (by omega)
  condition_ends := hn.condition_weaker
  predicate k := (hn.predicate_forms k).up (by omega)
  test {a} ha test k hk := by
    obtain ⟨b, rfl⟩ := Nat.exists_eq_add_of_le' (by omega : 1 ≤ a)
    exact (hn.testedPredicate_reforms (by omega) test hk).sub (.refl _) (by omega)
  operand k := (hn.operand_forms k).up (by omega)
  operand_ends := hn.operand_weaker
  collation {a} ha k := by
    obtain ⟨b, rfl⟩ := Nat.exists_eq_add_of_le' (by omega : 1 ≤ a)
    exact (hn.collation_reforms (by omega) k).sub (.refl _) (by omega)
  source := hn.source_forms.up (by omega)

theorem weaken {h' w' : Nat} (hh : h ≤ h') (hw : w ≤ w') : NestedForms c h' w' nested where
  query := hn.query.up hh
  queryGroup := hn.queryGroup.up hh
  condition k := (hn.condition k).up hh
  condition_ends := hn.condition_ends
  predicate k := (hn.predicate k).up hh
  test ha test _ hk :=
    (hn.test (Nat.le_trans hh ha) test hk).sub (.refl _) (Nat.add_le_add_left hw _)
  operand k := (hn.operand k).up hh
  operand_ends := hn.operand_ends
  collation ha k := (hn.collation (Nat.le_trans hh ha) k).sub (.refl _) (Nat.add_le_add_left hw _)
  source := hn.source.up hh

theorem manipulation_forms :
    Forms c pre (h + 8) (.node [.dmlStatement] isAnnounced) (manipulation nested) := by
  unfold manipulation
  apply Forms.production_front (f := fun a => manipulatedShape (a.token 0))
  · intro a _
    have hquery : Forms c (· = a) (h + 7) (.oneIn selects) (nested .query) :=
      hn.query.anywhere.up (Nat.le_add_right h 7)
    have hkind : ∀ {word}, a.keyword? 0 = some word → (a.token 0).kind = .keyword word :=
      fun hfirst => Lookahead.kind_of_isKeyword (beq_of_eq hfirst)
    have hfront : ∀ {word}, a.keyword? 0 = some word → ∀ b, b = a → b.isKeyword 0 word := by
      rintro word hfirst _ rfl
      exact beq_of_eq hfirst
    apply Forms.ahead_eq
    split
    · rename_i hfirst
      rw [manipulatedShape, manipulated?, hkind hfirst]
      exact (hn.insert_forms.weaken (hfront hfirst)).up (by omega)
    · rename_i hfirst
      rw [manipulatedShape, manipulated?, hkind hfirst]
      exact hn.update_forms.weaken (hfront hfirst)
    · rename_i hfirst
      rw [manipulatedShape, manipulated?, hkind hfirst]
      exact hn.delete_forms.weaken (hfront hfirst)
    · rename_i hfirst
      rw [manipulatedShape, manipulated?, hkind hfirst]
      exact hquery
    · rename_i hinsert hupdate hdelete hselect
      split
      · rename_i hparen
        have hopen : (a.token 0).kind = .leftParen := TokenKind.eq_leftParen_of_alike hparen
        rw [manipulatedShape, manipulated?, hopen]
        exact hquery
      · rename_i hparen
        have hother : manipulated? (a.token 0) = none := by
          unfold manipulated?
          unfold Lookahead.keyword? Token.keyword? at hinsert hupdate hdelete hselect
          unfold Lookahead.isKind Lookahead.kind at hparen
          split
          all_goals simp_all [TokenKind.alike]
        rw [manipulatedShape, hother]
        exact .bumpBalanced
  · intro a _
    exact manipulatedShape_within _
  · intro n a _ hprefix hrule hes
    unfold isAnnounced
    rw [Option.all_eq_true]
    intro rules hannounced
    obtain ⟨t, ht, hrules⟩ := Option.bind_eq_some_iff.1 hannounced
    rw [Lookahead.token_of_prefix hprefix ht, manipulatedShape, hrules] at hes
    obtain ⟨m, hchildren, hm⟩ := Shape.matches_oneIn.1 hes
    have hnodes : n.childNodes = [m] := by
      rw [Tree.Node.childNodes_eq, hchildren]
      rfl
    simp [hrule, hnodes, hm]

theorem family_forms (family : Family) :
    Forms c (Family.ofLookahead? · = some family) (h + 8) (.node families isAnnounced)
      (family.statement nested) := by
  have hother : ∀ {rule : Rule} {p : Parser Rule Unit}, family ≠ .manipulation →
      rule ∈ families → Forms c (Family.ofLookahead? · = some family) (h + 8) (.one rule) p →
      Forms c (Family.ofLookahead? · = some family) (h + 8) (.node families isAnnounced) p := by
    intro rule p hfamily hrule hp
    apply (hp.among hrule (Nat.le_refl _)).front
    intro n a ha hprefix _ _
    unfold isAnnounced
    rw [Option.all_eq_true]
    intro rules hannounced
    obtain ⟨t, ht, hrules⟩ := Option.bind_eq_some_iff.1 hannounced
    have hmanipulation : Family.ofLookahead? a = some .manipulation := by
      apply ofLookahead?_of_manipulated?
      rw [Lookahead.token_of_prefix hprefix ht, hrules]
      rfl
    rw [ha] at hmanipulation
    exact absurd (Option.some_inj.1 hmanipulation) hfamily
  cases family with
  | manipulation =>
    exact hn.manipulation_forms.sub (.node (by decide) fun _ _ h => h) (Nat.le_refl _)
  | definition => exact hother (by decide) (by decide) ((definition_forms (h := h)).up (by omega))
  | replication =>
    exact hother (by decide) (by decide) ((tokenRun_forms (h := h) (.refl _)).up (by omega))
  | display =>
    apply hother (by decide) (by decide : Rule.administrationStatement ∈ families)
    apply Forms.up (.production _) (by omega : h + 1 + 1 ≤ h + 8)
    exact (tokenRun_forms (.refl _)).left
  | administration =>
    have hrun : Shape.tokens.Within (shape .administrationStatement) := fun _ => .inr
    exact hother (by decide) (by decide) ((tokenRun_forms (h := h) hrun).up (by omega))
  | description => exact hother (by decide) (by decide) ((description_forms (h := h)).up (by omega))
  | utility =>
    have hrun : Shape.tokens.Within (shape .utilityStatement) := fun _ => .inr
    exact hother (by decide) (by decide) ((tokenRun_forms (h := h) hrun).up (by omega))
  | transaction =>
    exact hother (by decide) (by decide) ((tokenRun_forms (h := h) (.refl _)).up (by omega))
  | prepared =>
    exact hother (by decide) (by decide) ((tokenRun_forms (h := h) (.refl _)).up (by omega))

theorem statement_forms : Forms c pre (h + 9) (.one .sqlStatement) (statement nested) := by
  unfold statement
  apply Forms.production
  apply Forms.sees_cases
  intro a
  cases hfamily : Family.ofLookahead? a with
  | some family =>
    apply (hn.family_forms family).weaken
    rintro _ ⟨-, rfl⟩
    exact hfamily
  | none => exact .expected _

theorem script_forms : Forms c pre (h + 11) (.one .root) (script nested) :=
  script_shaped.script_forms fun _ => hn.statement_forms

end NestedForms

/-- Every level adds at most a level's worth to the height and to what can be wrapped around. -/
theorem parser_forms (c : Setting) (depth : Nat) :
    NestedForms c (33 * depth ^ 2) (31 * depth) (parser depth) := by
  induction depth with
  | zero => exact .tooDeep
  | succ depth ih => exact ih.attempt.weaken (by grind) (by omega)

theorem parseTree_formed {source : String} {options : Options} {tree : SyntaxTree Rule}
    (htree : parseTree source options = .ok tree) :
    tree.root.rule = .root ∧ tree.root.Formed ∧
      tree.root.height ≤ 33 * options.maxDepth ^ 2 + 11 :=
  Parser.formed_of_parseTree (fun c => (parser_forms c options.maxDepth).script_forms) htree

end SqlScript.MySql
