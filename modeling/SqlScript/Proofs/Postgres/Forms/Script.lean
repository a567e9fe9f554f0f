import SqlScript.Proofs.Postgres.Forms.Query
import SqlScript.Proofs.Shape.Script

/-!
PostgreSQL scripts have their shapes. Their trees are bounded by the square of the depth to which
they may nest.
-/

namespace SqlScript.Postgres

open SqlScript.Parser (Forms Reforms Ends)

variable {c : Setting} {pre : Lookahead → Prop} {h w : Nat}

theorem run?_kind {a : Lookahead} {rule : Rule} (hrule : run? a = some rule) :
    shape rule = .tokens ∧ rule ∈ statementKinds := by
  have hmem : rule ∈ runKeywords.map (·.1) ++ runWords.map (·.1) := by
    unfold run? at hrule
    rw [Option.orElse_eq_orElse, Option.orElse_eq_or] at hrule
    rw [List.mem_append]
    obtain h | h := Option.or_eq_some_iff.1 hrule
    · obtain ⟨_, hfind, rfl⟩ := Option.map_eq_some_iff.1 h
      exact .inl (List.mem_map_of_mem (List.mem_of_find?_eq_some hfind))
    · obtain ⟨_, hfind, rfl⟩ := Option.map_eq_some_iff.1 h.2
      exact .inr (List.mem_map_of_mem (List.mem_of_find?_eq_some hfind))
  simp only [runKeywords, runWords, List.map_cons, List.map_nil, List.cons_append, List.nil_append,
    List.mem_cons, List.not_mem_nil, or_false] at hmem
  rcases hmem with rfl | rfl | rfl | rfl | rfl | rfl | rfl | rfl | rfl | rfl | rfl | rfl | rfl | rfl
  all_goals exact ⟨rfl, by decide⟩

theorem tokenRun_forms {rule : Rule} (hrule : shape rule = .tokens) :
    Forms c pre (h + 1) (.one rule) (tokenRun rule) := by
  unfold tokenRun
  apply Forms.production
  change Forms c pre h (shape rule) _
  rw [hrule]
  exact .bumpBalanced

theorem createDatabase_forms :
    Forms c (fun a => (a.isKeyword 0 .CREATE && a.isKeyword 1 .DATABASE) = true) (h + 2)
      (.one .createdbStmt) createDatabase := by
  have hstart : Forms c (fun a => (a.isKeyword 0 .CREATE && a.isKeyword 1 .DATABASE) = true)
      (h + 1) (.tokens : Shape Rule) (Parser.bumpN 2) := by
    apply Forms.bumpTwo
    intro a ha
    obtain ⟨hcreate, hword⟩ := (Bool.and_eq_true _ _).mp ha
    exact ⟨Lookahead.isPlain_of_isKeyword hcreate, Lookahead.isPlain_of_isKeyword hword⟩
  unfold createDatabase
  apply Forms.production
  apply hstart.seq
  apply Forms.seq (.afterKeyword ((Forms.expectKeyword _).seq (.expectKeyword _)))
  exact name_forms.seq .bumpBalanced

theorem script_shaped : ScriptForm.Shaped ⟨Rule.root, .stmtmulti, .emptyStmt⟩ .stmt :=
  ⟨rfl, rfl, rfl⟩

namespace NestedForms

theorem tooDeep : NestedForms c 0 0 fun _ => Parser.tooDeep where
  query := .tooDeep
  queryGroup := .tooDeep
  condition _ := .tooDeep
  condition_ends _ := .tooDeep
  predicate _ := .tooDeep
  test _ _ _ _ := .tooDeep
  operand _ := .tooDeep
  operand_ends _ := .tooDeep
  suffix _ _ _ := .tooDeep
  source := .tooDeep

variable {nested : Goal → Parser Rule Unit} (hn : NestedForms c h w nested)

include hn

theorem attempt : NestedForms c (h + w + 32) (w + 31) (attempt nested) where
  query := hn.query_forms.up (by omega)
  queryGroup := hn.queryGroup_forms.up (by omega)
  condition k := (hn.condition_forms k).up (by omega)
  condition_ends := hn.condition_weaker
  predicate k := (hn.predicate_forms k).up (by omega)
  test {a} ha test k hk := by
    obtain ⟨b, rfl⟩ := Nat.exists_eq_add_of_le' (by omega : 1 ≤ a)
    exact (hn.testedPredicate_reforms (by omega) test hk).sub (.refl _) (by omega)
  operand k := (hn.operand_forms k).up (by omega)
  operand_ends := hn.operand_weaker
  suffix {a} ha suffix k := by
    obtain ⟨b, rfl⟩ := Nat.exists_eq_add_of_le' (by omega : 1 ≤ a)
    exact (hn.suffixedOperand_reforms (by omega) suffix k).sub (.refl _) (by omega)
  source := hn.source_forms.up (by omega)

theorem weaken {h' w' : Nat} (hh : h ≤ h') (hw : w ≤ w') : NestedForms c h' w' nested where
  query := hn.query.up hh
  queryGroup := hn.queryGroup.up hh
  condition k := (hn.condition k).up hh
  condition_ends := hn.condition_ends
  predicate k := (hn.predicate k).up hh
  test ha test _ hk :=
    (hn.test (Nat.le_trans hh ha) test hk).sub (.refl _) (Nat.add_le_add_left hw _)
  operand k := (hn.operand k).up hh
  operand_ends := hn.operand_ends
  suffix ha suffix k :=
    (hn.suffix (Nat.le_trans hh ha) suffix k).sub (.refl _) (Nat.add_le_add_left hw _)
  source := hn.source.up hh

theorem statement?_forms {a : Lookahead} {body : Parser Rule Unit}
    (hbody : statement? nested a = some body) :
    Forms c (· = a) (h + 8) (shape .stmt) body := by
  have hannounced : ∀ {rule : Rule} {p : Parser Rule Unit}, rule ∈ statementKinds →
      (∀ kind, manipulated? (a.token 0) = some kind → kind = rule) →
      Forms c (· = a) (h + 8) (.one rule) p → Forms c (· = a) (h + 8) (shape .stmt) p := by
    intro rule p hrule hkind hp
    apply (hp.front _).sub (.node (by simpa using hrule) fun _ _ h => h) (Nat.le_refl _)
    rintro n _ rfl hprefix hn _
    unfold isAnnounced
    rw [Option.all_eq_true]
    intro kind hfirst
    obtain ⟨t, ht, hkind'⟩ := Option.bind_eq_some_iff.1 hfirst
    rw [← Lookahead.token_of_prefix hprefix ht] at hkind'
    rw [hkind _ hkind', List.mem_singleton.1 hn]
    exact beq_self_eq_true _
  have hword : ∀ {rule : Rule} {word : Keyword} {p : Parser Rule Unit},
      a.keyword? 0 = some word → rule ∈ statementKinds →
      (∀ t : Token, t.kind = .keyword word → manipulated? t = some rule) →
      Forms c (·.isKeyword 0 word = true) (h + 8) (.one rule) p →
      Forms c (· = a) (h + 8) (shape .stmt) p := by
    intro rule word p hfront hrule hkind hp
    apply hannounced hrule
    · intro kind hfirst
      rw [hkind _ (Lookahead.kind_of_isKeyword (beq_of_eq hfront))] at hfirst
      exact (Option.some_inj.1 hfirst).symm
    · apply hp.weaken
      rintro _ rfl
      exact beq_of_eq hfront
  have hquery : ∀ {pre}, Forms c pre (h + 8) (.one .selectStmt)
      (Parser.production .selectStmt (nested .query)) :=
    fun {_} => (Forms.production hn.query.anywhere).up (by omega)
  unfold statement? at hbody
  split at hbody
  · rename_i hfirst
    cases hbody
    exact hword hfirst (by decide) (fun t ht => by rw [manipulated?, ht]) hquery
  · rename_i hfirst
    cases hbody
    exact hword hfirst (by decide) (fun t ht => by rw [manipulated?, ht]) (hn.insert_forms.up (by omega))
  · rename_i hfirst
    cases hbody
    exact hword hfirst (by decide) (fun t ht => by rw [manipulated?, ht]) hn.update_forms
  · rename_i hfirst
    cases hbody
    exact hword hfirst (by decide) (fun t ht => by rw [manipulated?, ht]) hn.delete_forms
  rename_i hselect hinsert hupdate hdelete
  split at hbody
  · rename_i hparen
    have hopen : (a.token 0).kind = .leftParen := TokenKind.eq_leftParen_of_alike hparen
    cases hbody
    apply hannounced (by decide) _ hquery
    intro kind hfirst
    rw [manipulated?, hopen] at hfirst
    exact (Option.some_inj.1 hfirst).symm
  rename_i hparen
  have hother : manipulated? (a.token 0) = none := by
    unfold manipulated?
    unfold Lookahead.keyword? Token.keyword? at hselect hinsert hupdate hdelete
    unfold Lookahead.isKind Lookahead.kind at hparen
    split
    all_goals simp_all [TokenKind.alike]
  have hnone : ∀ rule kind, manipulated? (a.token 0) = some kind → kind = rule := by
    intro rule kind hfirst
    rw [hother] at hfirst
    contradiction
  split at hbody
  · rename_i hcreate
    cases hbody
    apply hannounced (by decide) (hnone _) ((createDatabase_forms (h := h)).weaken _ |>.up (by omega))
    rintro _ rfl
    exact hcreate
  · obtain ⟨rule, hrule, rfl⟩ := Option.map_eq_some_iff.1 hbody
    obtain ⟨htokens, hkind⟩ := run?_kind hrule
    exact hannounced hkind (hnone _) ((tokenRun_forms (h := h) htokens).up (by omega))

theorem statement_forms : Forms c pre (h + 9) (.one .stmt) (statement nested) := by
  unfold statement
  apply Forms.production
  apply Forms.sees_cases
  intro a
  cases hbody : statement? nested a with
  | some body => exact (hn.statement?_forms hbody).weaken fun _ ha => ha.2
  | none => exact .expected _

theorem script_forms : Forms c pre (h + 11) (.one .root) (script nested) :=
  script_shaped.script_forms fun _ => hn.statement_forms

end NestedForms

/-- Every level adds at most a level's worth to the height and to what can be wrapped around. -/
theorem parser_forms (c : Setting) (depth : Nat) :
    NestedForms c (32 * depth ^ 2) (31 * depth) (parser depth) := by
  induction depth with
  | zero => exact .tooDeep
  | succ depth ih => exact ih.attempt.weaken (by grind) (by omega)

theorem parseTree_formed {source : String} {options : Options} {tree : SyntaxTree Rule}
    (htree : parseTree source options = .ok tree) :
    tree.root.rule = .root ∧ tree.root.Formed ∧
      tree.root.height ≤ 32 * options.maxDepth ^ 2 + 11 :=
  Parser.formed_of_parseTree (fun c => (parser_forms c options.maxDepth).script_forms) htree

end SqlScript.Postgres
