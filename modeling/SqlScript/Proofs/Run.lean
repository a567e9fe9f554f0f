import SqlScript.Parsing.Parser

/-!
Runs of parsers, step by step.
-/

namespace SqlScript

def Setting.ahead (c : Setting) (rest : List Token) : Lookahead :=
  { toSetting := c, rest }

@[simp]
theorem Setting.rest_ahead (c : Setting) (rest : List Token) : (c.ahead rest).rest = rest :=
  rfl

namespace ParserState

variable {ρ : Type}

def advance (s : ParserState ρ) : ParserState ρ :=
  match s.rest with
  | [] => s
  | t :: ts => { s with rest := ts, builder := s.builder.token t }

def build (s : ParserState ρ) (step : Tree.Builder ρ → Tree.Builder ρ) : ParserState ρ :=
  { s with builder := step s.builder }

@[simp]
theorem rest_advance (s : ParserState ρ) : s.advance.rest = s.rest.tail := by
  unfold advance
  split
  · rename_i h
    rw [h, List.tail_nil]
  · rename_i h
    rw [h, List.tail_cons]

/--
The state behind the next `n` tokens, which are in the production that is open.
-/
def behind (s : ParserState ρ) (n : Nat) : ParserState ρ :=
  ⟨s.rest.drop n, (s.rest.take n).foldl Tree.Builder.token s.builder⟩

theorem behind_advance (s : ParserState ρ) (n : Nat) : s.advance.behind n = s.behind (n + 1) := by
  unfold advance behind
  split
  · rename_i h
    simp [h]
  · rename_i h
    simp [h]

@[simp]
theorem rest_build (s : ParserState ρ) (step : Tree.Builder ρ → Tree.Builder ρ) :
    (s.build step).rest = s.rest :=
  rfl

end ParserState

namespace Parser

variable {ρ α β : Type} {c : Setting} {s t : ParserState ρ}

theorem bind_ok {p : Parser ρ α} {f : α → Parser ρ β} {a : α} (h : p c s = .ok a t) :
    (p >>= f) c s = f a c t := by
  simp [bind, ReaderT.bind, EStateM.bind, h]

theorem bind_error {p : Parser ρ α} {f : α → Parser ρ β} {e : Failure} (h : p c s = .error e t) :
    (p >>= f) c s = .error e t := by
  simp [bind, ReaderT.bind, EStateM.bind, h]

theorem bump_eq : (bump : Parser ρ Unit) c s = .ok () s.advance :=
  rfl

theorem build_eq (step : Tree.Builder ρ → Tree.Builder ρ) :
    (build step : Parser ρ Unit) c s = .ok () (s.build step) :=
  rfl

theorem sees_bind (question : Lookahead → α) (f : α → Parser ρ β) :
    (sees question >>= f) c s = f (question (c.ahead s.rest)) c s :=
  rfl

theorem ahead_bind (f : Lookahead → Parser ρ β) :
    (ahead >>= f) c s = f (c.ahead s.rest) c s :=
  rfl

theorem checkpoint_bind (f : Nat → Parser ρ β) :
    (checkpoint >>= f) c s = f s.builder.checkpoint c s :=
  rfl

theorem complain_eq (complaint : Complaint) :
    (complain complaint : Parser ρ α) c s = .error ⟨complaint, (c.ahead s.rest).token 0⟩ s :=
  rfl

theorem eatIf_eq (question : Lookahead → Bool) :
    (eatIf question : Parser ρ Bool) c s =
      if question (c.ahead s.rest) then .ok true s.advance else .ok false s := by
  unfold eatIf
  rw [sees_bind]
  split <;> rfl

theorem ifSees_eq (question : Lookahead → Bool) (body : Parser ρ Unit) :
    ifSees question body c s = if question (c.ahead s.rest) then body c s else .ok () s := by
  unfold ifSees
  rw [sees_bind]
  split <;> rfl

theorem eatIf_of_not {question : Lookahead → Bool} (h : question (c.ahead s.rest) = false) :
    (eatIf question : Parser ρ Bool) c s = .ok false s := by
  rw [eatIf_eq, h]
  rfl

theorem eat_of_not {kind : TokenKind} (h : (c.ahead s.rest).isKind 0 kind = false) :
    (eat kind : Parser ρ Bool) c s = .ok false s :=
  eatIf_of_not h

theorem eatKeyword_of_not {word : Keyword} (h : (c.ahead s.rest).isKeyword 0 word = false) :
    (eatKeyword word : Parser ρ Bool) c s = .ok false s :=
  eatIf_of_not h

theorem ifSees_of_not {question : Lookahead → Bool} {body : Parser ρ Unit}
    (h : question (c.ahead s.rest) = false) : ifSees question body c s = .ok () s := by
  rw [ifSees_eq, h]
  rfl

theorem ifKeyword_of_not {word : Keyword} {body : Parser ρ Unit}
    (h : (c.ahead s.rest).isKeyword 0 word = false) : ifKeyword word body c s = .ok () s :=
  ifSees_of_not h

theorem afterKeyword_of_not {word : Keyword} {body : Parser ρ Unit}
    (h : (c.ahead s.rest).isKeyword 0 word = false) : afterKeyword word body c s = .ok () s := by
  unfold afterKeyword
  rw [bind_ok (eatKeyword_of_not h)]
  rfl

theorem afterKeyword_eq {word : Keyword} {body : Parser ρ Unit}
    (h : (c.ahead s.rest).isKeyword 0 word) : afterKeyword word body c s = body c s.advance := by
  have heat : (eatKeyword word : Parser ρ Bool) c s = .ok true s.advance := by
    rw [eatKeyword, eatIf_eq, h]
    rfl
  unfold afterKeyword
  rw [bind_ok heat]
  rfl

theorem optionalKeyword_eq (word : Keyword) :
    (optionalKeyword word : Parser ρ Unit) c s =
      if (c.ahead s.rest).isKeyword 0 word then .ok () s.advance else .ok () s := by
  change (eatIf (·.isKeyword 0 word) >>= fun _ => pure ()) c s = _
  cases h : (c.ahead s.rest).isKeyword 0 word with
  | true =>
    have heat : (eatIf (·.isKeyword 0 word) : Parser ρ Bool) c s = .ok true s.advance := by
      rw [eatIf_eq, if_pos h]
    rw [bind_ok heat]
    rfl
  | false =>
    have heat : (eatIf (·.isKeyword 0 word) : Parser ρ Bool) c s = .ok false s := by
      rw [eatIf_eq, h]
      rfl
    rw [bind_ok heat]
    rfl

theorem bumpN_eq (n : Nat) (s : ParserState ρ) :
    (bumpN n : Parser ρ Unit) c s = .ok () (s.behind n) := by
  induction n generalizing s with
  | zero => rfl
  | succ n ih =>
    rw [← s.behind_advance, ← ih]
    rfl

theorem bumpN_ok (n : Nat) (s : ParserState ρ) :
    ∃ t, (bumpN n : Parser ρ Unit) c s = .ok () t ∧ t.rest = s.rest.drop n :=
  ⟨s.behind n, bumpN_eq n s, rfl⟩

theorem tooDeep_eq : (tooDeep : Parser ρ α) c s = complain (.tooDeep c.limit) c s :=
  rfl

theorem bind_eq_ok {p : Parser ρ α} {f : α → Parser ρ β} {b : β}
    (h : (p >>= f) c s = .ok b t) : ∃ a u, p c s = .ok a u ∧ f a c u = .ok b t := by
  cases hp : p c s with
  | ok a u =>
    rw [bind_ok hp] at h
    exact ⟨a, u, rfl, h⟩
  | error e u =>
    rw [bind_error hp] at h
    contradiction

theorem expectIf_eq (question : Lookahead → Bool) (what : String) :
    (expectIf question what : Parser ρ Unit) c s =
      if question (c.ahead s.rest) then .ok () s.advance else expected what c s := by
  unfold expectIf
  cases h : question (c.ahead s.rest) with
  | true =>
    have heat : (eatIf question : Parser ρ Bool) c s = .ok true s.advance := by
      rw [eatIf_eq, if_pos h]
    rw [bind_ok heat]
    rfl
  | false =>
    have heat : (eatIf question : Parser ρ Bool) c s = .ok false s := by
      rw [eatIf_eq, h]
      rfl
    rw [bind_ok heat]
    rfl

theorem expectIf_bind {question : Lookahead → Bool} (h : question (c.ahead s.rest)) (what : String)
    (f : Unit → Parser ρ α) : (expectIf question what >>= f) c s = f () c s.advance := by
  have hexpect : (expectIf question what : Parser ρ Unit) c s = .ok () s.advance := by
    rw [expectIf_eq, if_pos h]
  exact bind_ok hexpect

theorem expectIf_bind_error {question : Lookahead → Bool} (h : question (c.ahead s.rest) = false)
    (what : String) (f : Unit → Parser ρ α) :
    (expectIf question what >>= f) c s = expected what c s := by
  have hexpect : (expectIf question what : Parser ρ Unit) c s =
      .error ⟨.expected what, (c.ahead s.rest).token 0⟩ s := by
    rw [expectIf_eq, h]
    rfl
  exact bind_error hexpect

theorem production_ok {rule : ρ} {body : Parser ρ Unit}
    (h : production rule body c s = .ok () t) :
    ∃ u, body c (s.build (·.start rule)) = .ok () u ∧ t = u.build (·.finish) := by
  change (body >>= fun _ => finish) c (s.build (·.start rule)) = _ at h
  obtain ⟨_, u, hu, h⟩ := bind_eq_ok h
  cases h
  exact ⟨u, hu, rfl⟩

theorem production_of_ok {rule : ρ} {body : Parser ρ Unit}
    (h : body c (s.build (·.start rule)) = .ok () t) :
    production rule body c s = .ok () (t.build (·.finish)) := by
  change (body >>= fun _ => finish) c (s.build (·.start rule)) = _
  exact bind_ok h

theorem production_error {rule : ρ} {body : Parser ρ Unit} {f : Failure}
    (h : body c (s.build (·.start rule)) = .error f t) : production rule body c s = .error f t := by
  change (body >>= fun _ => finish) c (s.build (·.start rule)) = _
  exact bind_error h

theorem production_congr {rule : ρ} {p p' : Parser ρ Unit}
    (h : p c (s.build (·.start rule)) = p' c (s.build (·.start rule))) :
    production rule p c s = production rule p' c s := by
  change (p >>= fun _ => finish) c (s.build (·.start rule)) =
    (p' >>= fun _ => finish) c (s.build (·.start rule))
  cases hp : p c (s.build (·.start rule)) with
  | ok a t => rw [bind_ok hp, bind_ok (h ▸ hp)]
  | error f t => rw [bind_error hp, bind_error (h ▸ hp)]

theorem parenthesized_error {body : Parser ρ Unit} {f : Failure}
    (hparen : (c.ahead s.rest).isKind 0 .leftParen) (h : body c s.advance = .error f t) :
    parenthesized body c s = .error f t := by
  unfold parenthesized expect
  rw [expectIf_bind hparen]
  exact bind_error h

theorem takeTree_eq :
    (takeTree : Parser ρ (Tree.Node ρ)) c s =
      if (c.ahead s.rest).atEnd then
        match (s.builder.setOffset c.stop.span.start).tree? with
        | some root => .ok root s
        | none => complain (.said "Empty syntax tree") c s
      else expected "end of input" c s := by
  unfold takeTree
  rw [ahead_bind]
  split
  · change (match (s.builder.setOffset c.stop.span.start).tree? with
      | some root => (pure root : Parser ρ (Tree.Node ρ))
      | none => complain (.said "Empty syntax tree")) c s = _
    cases (s.builder.setOffset c.stop.span.start).tree? with
    | some root => rfl
    | none => rfl
  · rfl

def answer (r : EStateM.Result Failure (ParserState ρ) α) : Except Failure α :=
  match r with
  | .ok a _ => .ok a
  | .error f _ => .error f

theorem exists_ok_of_answer {r : EStateM.Result Failure (ParserState ρ) α}
    (h : (answer r).toOption.isSome) : ∃ a t, r = .ok a t := by
  cases r with
  | ok a t => exact ⟨a, t, rfl⟩
  | error => contradiction

def initial (tokens : List Token) : ParserState ρ :=
  ⟨tokens.dropLast, .empty⟩

def settingOf (dialect : Dialect) (limit : Nat) (tokens : List Token) : Setting :=
  ⟨dialect, limit, tokens.getLast?.getD (.eof 0)⟩

theorem run_eq (grammar : Parser ρ Unit) (dialect : Dialect) (options : Options)
    (tokens : List Token) :
    parseTree.run grammar dialect options tokens =
      match tokens.findSome? begin.invalid? with
      | some failure => .error failure
      | none =>
        answer ((grammar >>= fun _ => takeTree) (settingOf dialect options.maxDepth tokens)
          (initial tokens)) := by
  unfold parseTree.run begin
  cases tokens.findSome? begin.invalid? with
  | some failure => rfl
  | none =>
    generalize hr : (grammar >>= fun _ => takeTree) (settingOf dialect options.maxDepth tokens)
      (initial tokens) = r
    unfold settingOf initial at hr
    simp only [bind, Except.bind] at hr ⊢
    rw [hr]
    cases r <;> rfl

def Fails (c : Setting) (sort : Failure → Prop) (p : Parser ρ α) (s : ParserState ρ) : Prop :=
  ∃ f t, p c s = .error f t ∧ sort f

namespace Fails

variable {sort : Failure → Prop}

theorem bind {p : Parser ρ α} {f : α → Parser ρ β} (h : Fails c sort p s) :
    Fails c sort (p >>= f) s := by
  obtain ⟨e, u, hp, he⟩ := h
  exact ⟨e, u, bind_error hp, he⟩

theorem after {p : Parser ρ α} {f : α → Parser ρ β} {a : α} (h : Fails c sort (f a) t)
    (hp : p c s = .ok a t) : Fails c sort (p >>= f) s := by
  obtain ⟨e, u, hf, he⟩ := h
  exact ⟨e, u, by rw [bind_ok hp, hf], he⟩

theorem sees {question : Lookahead → α} {f : α → Parser ρ β}
    (h : Fails c sort (f (question (c.ahead s.rest))) s) :
    Fails c sort (sees question >>= f) s :=
  h

theorem checkpoint {f : Nat → Parser ρ β} (h : Fails c sort (f s.builder.checkpoint) s) :
    Fails c sort (checkpoint >>= f) s :=
  h

theorem production {p : Parser ρ Unit} {rule : ρ} (h : Fails c sort p (s.build (·.start rule))) :
    Fails c sort (production rule p) s := by
  obtain ⟨e, u, hp, he⟩ := h
  exact ⟨e, u, production_error hp, he⟩

theorem parenthesized {p : Parser ρ Unit} (hparen : (c.ahead s.rest).isKind 0 .leftParen)
    (h : Fails c sort p s.advance) : Fails c sort (parenthesized p) s := by
  obtain ⟨e, u, hp, he⟩ := h
  exact ⟨e, u, parenthesized_error hparen hp, he⟩

end Fails

end Parser

end SqlScript
