import SqlScript.Proofs.Lockstep

/-!
How deep statements may nest makes no difference to a script, except that one that nests too deeply
is refused.
-/

namespace SqlScript

open SqlScript.Simulation

/--
The result under a lower limit is the one under a higher limit, or the complaint that statements
nest too deeply for the lower one.
-/
def SameUnlessTooDeep {α : Type} (limit : Nat) (lower higher : Except ParseError α) : Prop :=
  lower = higher ∨ ∃ e, lower = .error e ∧
    e.message = "Statement is nested too deeply (limit " ++ toString limit ++ ")"

theorem SameUnlessTooDeep.accepted {α : Type} {limit : Nat} {lower higher : Except ParseError α}
    {a : α} (h : SameUnlessTooDeep limit lower higher) (ha : lower = .ok a) : higher = .ok a := by
  obtain rfl | ⟨e, he, _⟩ := h
  · exact ha
  · rw [he] at ha
    contradiction

namespace Parser

variable {ρ : Type}

theorem takeTree_of_deepens {c c' : Setting} (h : c.Deepens c') (s : ParserState ρ) :
    (takeTree : Parser ρ (Tree.Node ρ)) c' s = takeTree c s := by
  have htoken : ∀ n, (c'.ahead s.rest).token n = (c.ahead s.rest).token n := by
    intro n
    unfold Setting.ahead Lookahead.token
    rw [h.stop]
  have hend : (c'.ahead s.rest).atEnd = (c.ahead s.rest).atEnd := by
    unfold Lookahead.atEnd
    rw [htoken]
  rw [takeTree_eq, takeTree_eq, hend, h.stop]
  unfold expected
  rw [complain_eq, complain_eq, complain_eq, complain_eq, htoken]

theorem message_of_tooDeep {f : Failure} {limit : Nat} (h : f.complaint = .tooDeep limit)
    (source : String) (lines : LineIndex) :
    (f.toError source lines).message =
      "Statement is nested too deeply (limit " ++ toString limit ++ ")" := by
  unfold Failure.toError ParseError.message
  rw [h]
  rfl

theorem answer_of_lockstep {c c' : Setting} (h : c.Deepens c') {p p' : Parser ρ Unit}
    {s : ParserState ρ}
    (hp : (lockstep h (.trivial ρ)).Outcome (fun _ t t' => (lockstep h (.trivial ρ)).Kept 0 s t t')
      (p c s) (p' c' s)) :
    answer ((p >>= fun _ => takeTree) c s) = answer ((p' >>= fun _ => takeTree) c' s) ∨
      ∃ f, answer ((p >>= fun _ => takeTree) c s) = .error f ∧ f.complaint = .tooDeep c.limit := by
  have htree : (lockstep h (.trivial ρ)).Outcome (fun _ _ _ => True)
      ((p >>= fun _ => takeTree) c s) ((p' >>= fun _ => takeTree) c' s) := by
    apply Outcome.bind hp _ fun _ => forward_of_none rfl
    rintro _ t t' ht
    have heq : t' = t := ht.rel.1
    subst heq
    change (lockstep h (.trivial ρ)).Outcome _ (takeTree c t') (takeTree c' t')
    rw [takeTree_of_deepens h]
    cases takeTree c t' with
    | ok root u => exact .ok trivial
    | error f u => exact .error rfl
  generalize (p >>= fun _ => takeTree) c s = r at htree
  generalize (p' >>= fun _ => takeTree) c' s = r' at htree
  cases htree with
  | ok => exact .inl rfl
  | error hf =>
    left
    cases hf
    rfl
  | excused hf => exact .inr ⟨_, rfl, hf.2⟩
  | gone hgone => exact absurd hgone (not_gone rfl)

theorem run_sameUnlessTooDeep {grammar : Nat → Parser ρ Unit} {dialect : Dialect}
    (hgrammar : ∀ {c c' : Setting} (h : c.Deepens c'), c.dialect = dialect → ∀ s : ParserState ρ,
      (lockstep h (.trivial ρ)).Outcome (fun _ t t' => (lockstep h (.trivial ρ)).Kept 0 s t t')
        (grammar c.limit c s) (grammar c'.limit c' s))
    (options : Options) {d d' : Nat} (hd : d < d') {tokens : List Token}
    (heof : (tokens.getLast?.getD (.eof 0)).kind = .eof) :
    parseTree.run (grammar d) dialect (options.withMaxDepth d) tokens =
        parseTree.run (grammar d') dialect (options.withMaxDepth d') tokens ∨
      ∃ f, parseTree.run (grammar d) dialect (options.withMaxDepth d) tokens = .error f ∧
        f.complaint = .tooDeep d := by
  rw [run_eq, run_eq]
  cases tokens.findSome? begin.invalid? with
  | some failure => exact .inl rfl
  | none =>
    have hdeepens : (settingOf dialect d tokens).Deepens (settingOf dialect d' tokens) :=
      ⟨rfl, Nat.le_of_lt hd, rfl, heof⟩
    exact answer_of_lockstep hdeepens (hgrammar hdeepens rfl _)

theorem parseTree_sameUnlessTooDeep (grammar : Nat → Parser ρ Unit) {dialect : Dialect}
    (hgrammar : ∀ {c c' : Setting} (h : c.Deepens c'), c.dialect = dialect → ∀ s : ParserState ρ,
      (lockstep h (.trivial ρ)).Outcome (fun _ t t' => (lockstep h (.trivial ρ)).Kept 0 s t t')
        (grammar c.limit c s) (grammar c'.limit c' s))
    (source : String) (options : Options) {d d' : Nat} (hd : d < d') :
    SameUnlessTooDeep d (parseTree (grammar d) dialect source (options.withMaxDepth d))
      (parseTree (grammar d') dialect source (options.withMaxDepth d')) := by
  have heof : ((Token.tokenize dialect source).getLast?.getD (.eof 0)).kind = .eof := by
    unfold Token.tokenize
    rw [List.getLast?_concat]
    rfl
  unfold parseTree
  obtain heq | ⟨f, hrun, hf⟩ := run_sameUnlessTooDeep hgrammar options hd heof
  · left
    simp only [heq]
    rfl
  · right
    simp only [hrun]
    exact ⟨_, rfl, message_of_tooDeep hf _ _⟩

end Parser

/--
Both grammars give the same tree or the same error for every limit, as long as they do not complain
that statements nest too deeply. What is accepted under a limit has the same tree under any higher
one.
-/
theorem parseTree_of_lower_maxDepth (source : String) (options : Options) {d d' : Nat} (h : d < d') :
    (SameUnlessTooDeep d (MySql.parseTree source (options.withMaxDepth d))
        (MySql.parseTree source (options.withMaxDepth d')) ∧
      SameUnlessTooDeep d (Postgres.parseTree source (options.withMaxDepth d))
        (Postgres.parseTree source (options.withMaxDepth d'))) ∧
    (∀ tree, MySql.parseTree source (options.withMaxDepth d) = .ok tree →
        MySql.parseTree source (options.withMaxDepth d') = .ok tree) ∧
      ∀ tree, Postgres.parseTree source (options.withMaxDepth d) = .ok tree →
        Postgres.parseTree source (options.withMaxDepth d') = .ok tree := by
  have hmysql : SameUnlessTooDeep d (MySql.parseTree source (options.withMaxDepth d))
      (MySql.parseTree source (options.withMaxDepth d')) := by
    apply Parser.parseTree_sameUnlessTooDeep (fun limit => MySql.script (MySql.parser limit))
      _ source options h
    intro c c' hdeepens hdialect s
    exact MySql.script_lockstep hdeepens hdialect (.trivial MySql.Rule) trivial
  have hpostgres : SameUnlessTooDeep d (Postgres.parseTree source (options.withMaxDepth d))
      (Postgres.parseTree source (options.withMaxDepth d')) := by
    apply Parser.parseTree_sameUnlessTooDeep (fun limit => Postgres.script (Postgres.parser limit))
      _ source options h
    intro c c' hdeepens _ s
    exact Postgres.script_lockstep hdeepens (.trivial Postgres.Rule) trivial
  exact ⟨⟨hmysql, hpostgres⟩, fun _ => hmysql.accepted, fun _ => hpostgres.accepted⟩

theorem parseTree_of_lower_maxDepth_zero : 0 < 1 ∧
    (SameUnlessTooDeep 0 (MySql.parseTree "SELECT (1)" ⟨1, 0⟩)
        (MySql.parseTree "SELECT (1)" ⟨1, 1⟩) ∧
      SameUnlessTooDeep 0 (Postgres.parseTree "SELECT (1)" ⟨1, 0⟩)
        (Postgres.parseTree "SELECT (1)" ⟨1, 1⟩)) :=
  ⟨by decide, (parseTree_of_lower_maxDepth "SELECT (1)" {} (by decide : 0 < 1)).1⟩

end SqlScript
