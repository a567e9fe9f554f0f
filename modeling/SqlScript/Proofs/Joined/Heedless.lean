import SqlScript.Proofs.Simulation.Group

/-!
Parsers that take a token before they close a production. Where the token before that one ended,
which is where a production without children would lie, makes no difference to them.
-/

namespace SqlScript.Parser

variable {ρ α β : Type}

inductive Agree : EStateM.Result Failure (ParserState ρ) α →
    EStateM.Result Failure (ParserState ρ) α → Prop
  | ok (a : α) (t : ParserState ρ) : Agree (.ok a t) (.ok a t)
  | error (f : Failure) (t t' : ParserState ρ) : Agree (.error f t) (.error f t')

/--
In front of the token it makes no difference to the parser where the token before it ended.
-/
def Heedless (t : Token) (p : Parser ρ α) : Prop :=
  ∀ (c : Setting) (ts : List Token) (b : Tree.Builder ρ) (offset : Nat),
    Agree (p c ⟨t :: ts, b⟩) (p c ⟨t :: ts, b.setOffset offset⟩)

namespace Heedless

variable {t : Token} {p : Parser ρ α} {f : α → Parser ρ β}

theorem bind (hp : Heedless t p) : Heedless t (p >>= f) := by
  intro c ts b offset
  have h := hp c ts b offset
  generalize hr : p c ⟨t :: ts, b⟩ = r at h
  generalize hr' : p c ⟨t :: ts, b.setOffset offset⟩ = r' at h
  cases h with
  | ok a u =>
    rw [bind_ok hr, bind_ok hr']
    cases f a c u with
    | ok b v => exact .ok b v
    | error e v => exact .error e v v
  | error e u u' =>
    rw [bind_error hr, bind_error hr']
    exact .error e u u'

theorem sees_bind {question : Lookahead → α}
    (hf : ∀ a : Lookahead, a.token 0 = t → Heedless t (f (question a))) :
    Heedless t (sees question >>= f) := by
  intro c ts b offset
  rw [Parser.sees_bind, Parser.sees_bind]
  exact hf (c.ahead (t :: ts)) rfl c ts b offset

theorem ahead_bind {f : Lookahead → Parser ρ β} (hf : ∀ a : Lookahead, a.token 0 = t →
    Heedless t (f a)) : Heedless t (ahead >>= f) := by
  intro c ts b offset
  rw [Parser.ahead_bind, Parser.ahead_bind]
  exact hf (c.ahead (t :: ts)) rfl c ts b offset

theorem sees_ite {question : Lookahead → Bool} {g h : Parser ρ α} (hg : Heedless t g)
    (hh : Heedless t h) : Heedless t (sees question >>= fun b => if b = true then g else h) := by
  apply sees_bind
  intro a _
  split
  · exact hg
  · exact hh

theorem checkpoint_bind {f : Nat → Parser ρ β} (hf : ∀ m, Heedless t (f m)) :
    Heedless t (checkpoint >>= f) := by
  intro c ts b offset
  rw [Parser.checkpoint_bind, Parser.checkpoint_bind]
  exact hf _ c ts b offset

theorem complain (complaint : Complaint) : Heedless t (Parser.complain complaint : Parser ρ α) := by
  intro c ts b offset
  rw [complain_eq, complain_eq]
  exact .error _ _ _

theorem tooDeep : Heedless t (Parser.tooDeep : Parser ρ α) := by
  intro c ts b offset
  rw [tooDeep_eq, tooDeep_eq]
  exact complain _ c ts b offset

theorem bump : Heedless t (Parser.bump : Parser ρ Unit) := by
  intro c ts b offset
  exact .ok () ⟨ts, b.token t⟩

theorem bumpN {n : Nat} (hn : 0 < n) : Heedless t (Parser.bumpN n : Parser ρ Unit) := by
  cases n with
  | zero => contradiction
  | succ n => exact bump.bind

theorem expectIf (question : Lookahead → Bool) (what : String) :
    Heedless t (Parser.expectIf question what : Parser ρ Unit) := by
  intro c ts b offset
  rw [expectIf_eq, expectIf_eq]
  change Agree (if question (c.ahead (t :: ts)) then _ else _)
    (if question (c.ahead (t :: ts)) then _ else _)
  split
  · exact bump c ts b offset
  · exact complain _ c ts b offset

theorem ifSees_bind {question : Lookahead → Bool} {p : Parser ρ Unit} {f : Unit → Parser ρ β}
    (hp : Heedless t p) (hf : Heedless t (f ())) : Heedless t (Parser.ifSees question p >>= f) := by
  have heq : (Parser.ifSees question p >>= f) =
      sees question >>= fun b => if b = true then p >>= f else f () := by
    funext c s
    unfold Parser.ifSees
    rw [bind_assoc, Parser.sees_bind, Parser.sees_bind]
    split <;> rfl
  rw [heq]
  exact sees_ite hp.bind hf

theorem eatIf_bind {question : Lookahead → Bool} {f : Bool → Parser ρ β}
    (hf : Heedless t (f false)) : Heedless t (Parser.eatIf question >>= f) := by
  have heq : (Parser.eatIf question >>= f) =
      sees question >>= fun b => if b = true then Parser.bump >>= fun _ => f true else f false := by
    funext c s
    rw [Parser.sees_bind]
    unfold Parser.eatIf
    rw [bind_assoc, Parser.sees_bind]
    split <;> rfl
  rw [heq]
  exact sees_ite bump.bind hf

theorem production {p : Parser ρ Unit} (rule : ρ) (hp : Heedless t p) :
    Heedless t (Parser.production rule p) := by
  intro c ts b offset
  exact hp.bind c ts (b.start rule) offset

theorem parenthesized {p : Parser ρ Unit} : Heedless t (Parser.parenthesized p) :=
  (expectIf _ _).bind

theorem bumpBalanced (ht : t.kind.startsRun) : Heedless t (Parser.bumpBalanced : Parser ρ Unit) := by
  unfold Parser.bumpBalanced bumpBalancedUntil
  intro c ts b offset
  rw [Parser.ahead_bind, Parser.ahead_bind]
  have hpos := Lookahead.lt_balancedRun ht 0 ts
  simp only [Setting.rest_ahead]
  rcases hrun : Lookahead.balancedRun (fun _ => false) [] 0 (t :: ts) with ⟨n, missing⟩
  rw [hrun] at hpos
  exact (bumpN hpos).bind c ts b offset

end Heedless

end SqlScript.Parser
