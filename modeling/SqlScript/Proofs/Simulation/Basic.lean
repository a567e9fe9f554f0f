import SqlScript.Proofs.Forward
import SqlScript.Proofs.Simulation.Lookahead

/-!
Two runs of a grammar side by side. The first run is by a parser that may nest statements less
deeply, or on a text that ends where the other one has a separator; whatever relates the states of
the two runs, a parser that respects it for every step of building respects it altogether. A run
that fails may be excused, after which nothing is said of the other one. Where it is the second run
that is known to succeed, nothing is said of the first one either once the second fails or has left
the text of the first.
-/

namespace SqlScript

def Took (least : Nat) (before after : List Token) : Prop :=
  ∃ taken, before = taken ++ after ∧ least ≤ taken.length ∧
    ∀ t ∈ taken.getLast?, t.kind ≠ .semicolon

namespace Took

variable {k l : Nat} {a b c : List Token}

theorem refl (ts : List Token) : Took 0 ts ts :=
  ⟨[], rfl, Nat.le_refl _, by simp⟩

theorem weaken (h : Took k a b) (hk : l ≤ k) : Took l a b := by
  obtain ⟨taken, ha, hlen, hlast⟩ := h
  exact ⟨taken, ha, Nat.le_trans hk hlen, hlast⟩

theorem trans (h : Took k a b) (h' : Took l b c) : Took (k + l) a c := by
  obtain ⟨taken, rfl, hlen, hlast⟩ := h
  obtain ⟨taken', rfl, hlen', hlast'⟩ := h'
  refine ⟨taken ++ taken', by simp, by simp; omega, ?_⟩
  rw [List.getLast?_append]
  intro t ht
  cases h : taken'.getLast? with
  | none =>
    rw [h] at ht
    exact hlast t ht
  | some last =>
    rw [h] at ht
    cases ht
    exact hlast' t h

theorem length_le (h : Took k a b) : b.length + k ≤ a.length := by
  obtain ⟨taken, rfl, hlen, _⟩ := h
  simp
  omega

theorem of_suffix (taken : List Token) (ha : a = taken ++ b) (h : Took 1 b c) : Took 1 a c := by
  obtain ⟨taken', rfl, hlen, hlast⟩ := h
  refine ⟨taken ++ taken', by simp [ha], by simp; omega, ?_⟩
  rw [List.getLast?_append]
  cases h : taken'.getLast? with
  | none =>
    rw [List.getLast?_eq_none_iff] at h
    simp [h] at hlen
  | some last =>
    rw [h] at hlast
    exact hlast

end Took

/--
The complaints of a grammar: something else is needed, or what is read nests too deeply.
-/
inductive Complaint.Grammatical (limit : Nat) : Complaint → Prop
  | expected (what : String) : Grammatical limit (.expected what)
  | tooDeep : Grammatical limit (.tooDeep limit)

/--
The first run is on a text that ends where `behind` tokens of the second are left. It holds all that
is looked for from its inside: the ends of its groups and, in MySQL, of every `CASE` that is ended.
-/
structure Complete {ρ : Type} (flavor : Flavor) (behind : Option Nat) (s s' : ParserState ρ) : Prop where
  behind : ∃ n ∈ behind, s'.rest.length = s.rest.length + n
  closed : Token.Closed s.rest
  ended : flavor = .mySql → ∃ us, s'.rest = s.rest ++ us ∧ Token.casesEnd us s.rest

/--
How many tokens are behind the text of the first run. Nothing is said then of a second run that fails
or takes one of them; but no failure of the first run is excused, and checkpoints mean the same in
both runs.
-/
structure Simulation.Bound (excused : Failure → Prop) (mark : Nat → Nat → Prop) where
  behind : Nat
  strict (f : Failure) : ¬excused f
  marks (m : Nat) : mark m m

/--
How the states of two runs are related, and in which cases the first run may fail where the second
does not.
-/
structure Simulation (ρ : Type) where
  small : Setting
  large : Setting
  rel : ParserState ρ → ParserState ρ → Prop
  /-- Checkpoints that stand for the same place. -/
  mark : Nat → Nat → Prop
  /-- Failures of the first run after which nothing is said of the second. -/
  excused : Failure → Prop
  /-- Failures that stand for the same. -/
  matched : Failure → Failure → Prop
  /-- What is known where only the second run is known to succeed. -/
  bound : Option (Simulation.Bound excused mark) := none
  sees {s s' : ParserState ρ} : rel s s' → Sees (small.ahead s.rest) (large.ahead s'.rest)
  advance {s s' : ParserState ρ} : rel s s' → s.rest ≠ [] → rel s.advance s'.advance
  start {s s' : ParserState ρ} (rule : ρ) :
    rel s s' → rel (s.build (·.start rule)) (s'.build (·.start rule))
  startAt {s s' : ParserState ρ} {m m' : Nat} (rule : ρ) :
    rel s s' → mark m m' → rel (s.build (·.startAt m rule)) (s'.build (·.startAt m' rule))
  finish {s s' : ParserState ρ} :
    rel s s' → s.builder.opened ≠ [] → rel (s.build (·.finish)) (s'.build (·.finish))
  checkpoint {s s' : ParserState ρ} :
    rel s s' → mark s.builder.checkpoint s'.builder.checkpoint
  complain {s s' : ParserState ρ} {c : Complaint} : c.Grammatical small.limit → rel s s' →
    excused ⟨c, (small.ahead s.rest).token 0⟩ ∨
      matched ⟨c, (small.ahead s.rest).token 0⟩ ⟨c, (large.ahead s'.rest).token 0⟩
  /-- A run on less text is excused for any failure, unless the text holds all that is looked for. -/
  lenient {s s' : ParserState ρ} : rel s s' → s.rest.length = s'.rest.length ∨ (∀ f, excused f) ∨
    Complete small.dialect.flavor (bound.map (·.behind)) s s'
  /-- A run that may nest less deeply is excused for saying so. -/
  tooDeep : small.limit < large.limit → ∀ t, excused ⟨.tooDeep small.limit, t⟩

namespace Simulation

variable {ρ : Type} {α β : Type} (σ : Simulation ρ)

abbrev Result (ρ α : Type) :=
  EStateM.Result Failure (ParserState ρ) α

def behind : Option Nat :=
  σ.bound.map (·.behind)

/--
A second run of which nothing is said: it fails, or it has left the text of the first.
-/
def Gone (r : Result ρ α) : Prop :=
  ∃ n ∈ σ.behind, ∀ a t, r = .ok a t → t.rest.length < n

/--
How two runs may end: both with the same value, both with the same failure, or the first with a
failure that is excused; unless the second is gone.
-/
inductive Outcome (post : α → ParserState ρ → ParserState ρ → Prop) :
    Result ρ α → Result ρ α → Prop
  | ok {a : α} {t t' : ParserState ρ} (h : post a t t') : Outcome post (.ok a t) (.ok a t')
  | error {f f' : Failure} {t t' : ParserState ρ} (h : σ.matched f f') :
    Outcome post (.error f t) (.error f' t')
  | excused {f : Failure} {t : ParserState ρ} {r : Result ρ α} (h : σ.excused f) :
    Outcome post (.error f t) r
  | gone {r r' : Result ρ α} (h : σ.Gone r') : Outcome post r r'

/--
The states after two runs that started in related states: they are related, the same productions are
open as before, and tokens have been taken.
-/
structure After (take : Nat) (s t t' : ParserState ρ) : Prop where
  rel : σ.rel t t'
  opened : t.builder.opened = s.builder.opened
  took : Took take s.rest t.rest

/--
If something may be behind the text of the first run, a parser does not come back from there.
-/
def Forward (p : Parser ρ α) : Prop :=
  σ.behind.isSome → p.Forward

/--
Two parsers end alike in related states in which a statement goes on for `need` tokens, and take at
least `take` tokens if they succeed.
-/
structure Respects (need take : Nat) (p p' : Parser ρ α) : Prop where
  run ⦃s s' : ParserState ρ⦄ : σ.rel s s' → need ≤ reach s.rest →
    σ.Outcome (fun _ t t' => σ.After take s t t') (p σ.small s) (p' σ.large s')
  forward : σ.Forward p'

instance {need take : Nat} {p p' : Parser ρ α} : CoeFun (σ.Respects need take p p') fun _ =>
    ∀ ⦃s s' : ParserState ρ⦄, σ.rel s s' → need ≤ reach s.rest →
      σ.Outcome (fun _ t t' => σ.After take s t t') (p σ.small s) (p' σ.large s') where
  coe h := h.run

theorem strict (h : σ.behind.isSome) (f : Failure) : ¬σ.excused f := by
  obtain ⟨bound, -⟩ := Option.isSome_iff_exists.1 (Option.isSome_map ▸ h)
  exact bound.strict f

theorem marks (h : σ.behind.isSome) (m : Nat) : σ.mark m m := by
  obtain ⟨bound, -⟩ := Option.isSome_iff_exists.1 (Option.isSome_map ▸ h)
  exact bound.marks m

variable {σ}

theorem Gone.of_error {f : Failure} {t : ParserState ρ} (h : σ.behind.isSome) :
    σ.Gone (.error f t : Result ρ α) := by
  obtain ⟨n, hn⟩ := Option.isSome_iff_exists.1 h
  exact ⟨n, hn, fun _ _ h => by contradiction⟩

theorem Gone.bind {p' : Parser ρ α} {f' : α → Parser ρ β} {s' : ParserState ρ}
    (h : σ.Gone (p' σ.large s')) (hf : ∀ a, σ.Forward (f' a)) : σ.Gone ((p' >>= f') σ.large s') := by
  obtain ⟨n, hn, h⟩ := h
  refine ⟨n, hn, fun b t' ht' => ?_⟩
  obtain ⟨a, u', hu', ht'⟩ := Parser.bind_eq_ok ht'
  have hforward := hf a (Option.isSome_iff_exists.2 ⟨n, hn⟩)
  exact Nat.lt_of_le_of_lt (hforward ht').length_le (h a u' hu')

theorem forward_of_limit (h : σ.small.limit < σ.large.limit) {p : Parser ρ α} : σ.Forward p :=
  fun hbehind => absurd (σ.tooDeep h σ.small.stop) (σ.strict hbehind _)

theorem not_gone (h : σ.behind = none) {r : Result ρ α} : ¬σ.Gone r := by
  rintro ⟨n, hn, -⟩
  rw [h] at hn
  contradiction

theorem forward_of_none (h : σ.behind = none) {p : Parser ρ α} : σ.Forward p := by
  intro hbehind
  rw [h] at hbehind
  contradiction

theorem Outcome.mono {post post' : α → ParserState ρ → ParserState ρ → Prop} {r r' : Result ρ α}
    (h : σ.Outcome post r r') (hpost : ∀ a t t', post a t t' → post' a t t') :
    σ.Outcome post' r r' := by
  cases h with
  | ok h => exact .ok (hpost _ _ _ h)
  | error h => exact .error h
  | excused h => exact .excused h
  | gone h => exact .gone h

/-- Where only the second run is known to succeed, it is gone if the first one fails. -/
theorem Outcome.gone_of_error {post : α → ParserState ρ → ParserState ρ → Prop} {f : Failure}
    {t : ParserState ρ} {r' : Result ρ α} (h : σ.Outcome post (.error f t) r')
    (hbehind : σ.behind.isSome) : σ.Gone r' := by
  cases h with
  | error => exact .of_error hbehind
  | excused h => exact absurd h (σ.strict hbehind _)
  | gone h => exact h

theorem Outcome.of_error {post : α → ParserState ρ → ParserState ρ → Prop} {r r' : Result ρ α}
    (h : ∃ f t, r = .error f t ∧ σ.excused f) : σ.Outcome post r r' := by
  obtain ⟨f, t, rfl, hf⟩ := h
  exact .excused hf

theorem Outcome.bind {Q : α → ParserState ρ → ParserState ρ → Prop}
    {post' : β → ParserState ρ → ParserState ρ → Prop} {p p' : Parser ρ α} {f f' : α → Parser ρ β}
    {s s' : ParserState ρ} (h : σ.Outcome Q (p σ.small s) (p' σ.large s'))
    (hf : ∀ a t t', Q a t t' → σ.Outcome post' (f a σ.small t) (f' a σ.large t'))
    (hforward : ∀ a, σ.Forward (f' a)) :
    σ.Outcome post' ((p >>= f) σ.small s) ((p' >>= f') σ.large s') := by
  generalize hp : p σ.small s = r, hp' : p' σ.large s' = r' at h
  cases h with
  | ok h =>
    rw [Parser.bind_ok hp, Parser.bind_ok hp']
    exact hf _ _ _ h
  | error h =>
    rw [Parser.bind_error hp, Parser.bind_error hp']
    exact .error h
  | excused h =>
    rw [Parser.bind_error hp]
    exact .excused h
  | gone h => exact .gone (Gone.bind (hp'.symm ▸ h) hforward)

theorem Outcome.and_ok {post : α → ParserState ρ → ParserState ρ → Prop} {r r' : Result ρ α}
    (h : σ.Outcome post r r') : σ.Outcome (fun a t t' => r = .ok a t ∧ post a t t') r r' := by
  cases h with
  | ok h => exact .ok ⟨rfl, h⟩
  | error h => exact .error h
  | excused h => exact .excused h
  | gone h => exact .gone h

theorem Outcome.discard {post : ParserState ρ → ParserState ρ → Prop} {p p' : Parser ρ α}
    {s s' : ParserState ρ}
    (h : σ.Outcome (fun _ t t' => post t t') (p σ.small s) (p' σ.large s')) :
    σ.Outcome (fun _ t t' => post t t') (Functor.discard p σ.small s)
      (Functor.discard p' σ.large s') := by
  change σ.Outcome _ ((p >>= fun _ => pure ()) σ.small s) ((p' >>= fun _ => pure ()) σ.large s')
  apply h.bind
  · intro _ _ _ ht
    exact .ok ht
  · exact fun _ _ => .pure ()

theorem Outcome.complain {post : α → ParserState ρ → ParserState ρ → Prop} {c : Complaint}
    (hc : c.Grammatical σ.small.limit) {s s' : ParserState ρ} (hs : σ.rel s s') :
    σ.Outcome post (Parser.complain c σ.small s) (Parser.complain c σ.large s') := by
  rw [Parser.complain_eq, Parser.complain_eq]
  cases σ.complain hc hs with
  | inl h => exact .excused h
  | inr h => exact .error h

theorem Outcome.expected {post : α → ParserState ρ → ParserState ρ → Prop} (what : String)
    {s s' : ParserState ρ} (hs : σ.rel s s') :
    σ.Outcome post (Parser.expected what σ.small s) (Parser.expected what σ.large s') :=
  Outcome.complain (.expected what) hs

theorem After.trans {k l : Nat} {s t t' u u' : ParserState ρ} (h : σ.After k s t t')
    (h' : σ.After l t u u') : σ.After (k + l) s u u' where
  rel := h'.rel
  opened := h'.opened.trans h.opened
  took := h.took.trans h'.took

theorem After.weaken {k l : Nat} {s t t' : ParserState ρ} (h : σ.After k s t t') (hl : l ≤ k) :
    σ.After l s t t' where
  rel := h.rel
  opened := h.opened
  took := h.took.weaken hl

theorem After.refl {s s' : ParserState ρ} (h : σ.rel s s') : σ.After 0 s s s' where
  rel := h
  opened := rfl
  took := Took.refl _

namespace Outcome

variable {p p' : Parser ρ Unit} {s s' t t' : ParserState ρ}

theorem closing {take : Nat} {e : ρ × Nat} (hopened : t.builder.opened = e :: s.builder.opened)
    (hrest : t.rest = s.rest)
    (h : σ.Outcome (fun _ u u' => σ.After take t u u') (p σ.small t) (p' σ.large t')) :
    σ.Outcome (fun _ u u' => σ.After take s u u') ((p >>= fun _ => Parser.finish) σ.small t)
      ((p' >>= fun _ => Parser.finish) σ.large t') := by
  apply h.bind
  · intro _ u u' hu
    have hu' : u.builder.opened = e :: s.builder.opened := hu.opened.trans hopened
    apply Outcome.ok
    refine ⟨σ.finish hu.rel (by simp [hu']), ?_, hrest ▸ hu.took⟩
    simp [Tree.Builder.finish, hu']
  · exact fun _ _ => .build _

theorem production {take : Nat} (rule : ρ) (hs : σ.rel s s')
    (h : ∀ t t', σ.rel t t' → t.rest = s.rest →
      σ.Outcome (fun _ u u' => σ.After take t u u') (p σ.small t) (p' σ.large t')) :
    σ.Outcome (fun _ u u' => σ.After take s u u') (Parser.production rule p σ.small s)
      (Parser.production rule p' σ.large s') :=
  closing rfl rfl (h _ _ (σ.start rule hs) rfl)

theorem productionAt {take m m' : Nat} (hm : σ.mark m m') (rule : ρ) (hs : σ.rel s s')
    (h : ∀ t t', σ.rel t t' → t.rest = s.rest →
      σ.Outcome (fun _ u u' => σ.After take t u u') (p σ.small t) (p' σ.large t')) :
    σ.Outcome (fun _ u u' => σ.After take s u u') (Parser.productionAt m rule p σ.small s)
      (Parser.productionAt m' rule p' σ.large s') :=
  closing rfl rfl (h _ _ (σ.startAt rule hs hm) rfl)

end Outcome

theorem one_le_reach {s s' : ParserState ρ} (hs : σ.rel s s')
    (h : ¬((σ.small.ahead s.rest).kind 0).isEnd) : 1 ≤ reach s.rest :=
  Lookahead.lt_reach_of_kind (σ.sees hs).stop (Nat.zero_le _) h

namespace Respects

variable {need take n k : Nat} {p p' : Parser ρ α} {f f' : α → Parser ρ β}

theorem weaken (h : σ.Respects n k p p') (hn : n ≤ need) (hk : take ≤ k) :
    σ.Respects need take p p' where
  run _ _ hs hreach := (h hs (Nat.le_trans hn hreach)).mono fun _ _ _ ha => ha.weaken hk
  forward := h.forward

theorem loose (h : σ.Respects need take p p') : σ.Respects need 0 p p' :=
  h.weaken (Nat.le_refl _) (Nat.zero_le _)

theorem lift (h : σ.Respects 0 take p p') : σ.Respects need take p p' :=
  h.weaken (Nat.zero_le _) (Nat.le_refl _)

theorem onward (h : σ.Respects 0 take p p') : σ.Forward p' :=
  h.forward

theorem pure (a : α) : σ.Respects need 0 (pure a) (pure a) where
  run _ _ hs _ := .ok (After.refl hs)
  forward _ := .pure a

theorem bind (hp : σ.Respects need k p p') (hf : ∀ a, σ.Respects 0 take (f a) (f' a)) :
    σ.Respects need (k + take) (p >>= f) (p' >>= f') where
  run s s' hs hreach := by
    apply (hp hs hreach).bind
    · intro a t t' ha
      apply (hf a ha.rel (Nat.zero_le _)).mono
      intro _ _ _ hb
      exact ha.trans hb
    · exact fun a => (hf a).forward
  forward h := (hp.forward h).bind fun a => (hf a).forward h

theorem bind_left (hp : σ.Respects need take p p') (hf : ∀ a, σ.Respects 0 0 (f a) (f' a)) :
    σ.Respects need take (p >>= f) (p' >>= f') :=
  hp.bind hf

theorem bind_right (hp : σ.Respects need 0 p p') (hf : ∀ a, σ.Respects 0 take (f a) (f' a)) :
    σ.Respects need take (p >>= f) (p' >>= f') :=
  (hp.bind hf).weaken (Nat.le_refl _) (by omega)

theorem map (hp : σ.Respects need take p p') (g : α → β) :
    σ.Respects need take (g <$> p) (g <$> p') :=
  hp.bind_left fun a => pure (g a)

theorem discard {p p' : Parser ρ α} (hp : σ.Respects need take p p') :
    σ.Respects need take (Functor.discard p) (Functor.discard p') :=
  hp.map _

theorem complain {c : Complaint} (hc : c.Grammatical σ.small.limit) :
    σ.Respects need take (Parser.complain c : Parser ρ α) (Parser.complain c) where
  run _ _ hs _ := .complain hc hs
  forward _ := .complain c

theorem expected (what : String) :
    σ.Respects need take (Parser.expected what : Parser ρ α) (Parser.expected what) :=
  complain (.expected what)

theorem tooDeep : σ.Respects need take (Parser.tooDeep : Parser ρ α) Parser.tooDeep where
  run s s' hs hreach := by
    rw [Parser.tooDeep_eq, Parser.tooDeep_eq]
    obtain hlt | heq := Nat.lt_or_eq_of_le (σ.sees hs).limit
    · exact .excused (σ.tooDeep hlt _)
    · have heq : σ.large.limit = σ.small.limit := heq.symm
      rw [heq]
      exact .complain .tooDeep hs
  forward _ := .tooDeep

section

variable {p p' : Parser ρ Unit} {g g' : Parser ρ α}

theorem seq (hp : σ.Respects need take p p') (hg : σ.Respects 0 0 g g') :
    σ.Respects need take (p >>= fun _ => g) (p' >>= fun _ => g') :=
  hp.bind_left fun _ => hg

theorem seq_right (hp : σ.Respects need 0 p p') (hg : σ.Respects 0 take g g') :
    σ.Respects need take (p >>= fun _ => g) (p' >>= fun _ => g') :=
  hp.bind_right fun _ => hg

theorem production (rule : ρ) (hp : σ.Respects need take p p') :
    σ.Respects need take (Parser.production rule p) (Parser.production rule p') where
  run s s' hs hreach := by
    apply Outcome.production rule hs
    intro t t' ht hrest
    exact hp ht (hrest ▸ hreach)
  forward h := (hp.forward h).production rule

theorem productionAt {m m' : Nat} (hm : σ.mark m m') (rule : ρ) (hp : σ.Respects need take p p') :
    σ.Respects need take (Parser.productionAt m rule p) (Parser.productionAt m' rule p') where
  run s s' hs hreach := by
    apply Outcome.productionAt hm rule hs
    intro t t' ht hrest
    exact hp ht (hrest ▸ hreach)
  forward h := (hp.forward h).productionAt m' rule

theorem checkpoint_bind {f f' : Nat → Parser ρ α}
    (hf : ∀ m m', σ.mark m m' → σ.Respects need take (f m) (f' m')) :
    σ.Respects need take (Parser.checkpoint >>= f) (Parser.checkpoint >>= f') where
  run s s' hs hreach := by
    rw [Parser.checkpoint_bind, Parser.checkpoint_bind]
    exact hf _ _ (σ.checkpoint hs) hs hreach
  forward h := .checkpoint_bind fun m => (hf m m (σ.marks h m)).forward h

end

section

variable {p p' : Parser ρ Unit} {g g' : Parser ρ α}

theorem advance {s s' : ParserState ρ} (hs : σ.rel s s') (hreach : n + 1 ≤ reach s.rest) :
    σ.After 1 s s.advance s'.advance ∧ n ≤ reach s.advance.rest := by
  cases hrest : s.rest with
  | nil => simp [hrest, reach] at hreach
  | cons t ts =>
    unfold reach at hreach
    simp only [hrest] at hreach
    split at hreach
    · omega
    · rename_i hk
      have hadvance : s.advance = { s with rest := ts, builder := s.builder.token t } := by
        unfold ParserState.advance
        rw [hrest]
      refine ⟨⟨σ.advance hs (by simp [hrest]), by simp [hadvance], ?_⟩, ?_⟩
      · exact ⟨[t], by simp [hrest, hadvance], by simp, by simpa using hk⟩
      · rw [hadvance]
        exact Nat.le_of_succ_le_succ hreach

theorem bump : σ.Respects 1 1 (Parser.bump : Parser ρ Unit) Parser.bump where
  run _ _ hs hreach := .ok (advance hs hreach).1
  forward _ := .bump

theorem bumpN (n : Nat) : σ.Respects n n (Parser.bumpN n : Parser ρ Unit) (Parser.bumpN n) where
  run := by
    induction n with
    | zero =>
      intro s s' hs _
      exact .ok (After.refl hs)
    | succ n ih =>
      intro s s' hs hreach
      obtain ⟨hafter, hreach⟩ := advance hs hreach
      apply (ih hafter.rel hreach).mono
      intro _ t t' ht
      exact (hafter.trans ht).weaken (by omega)
  forward _ := .bumpN n

theorem production_bumpN (rule : ρ) {s s' : ParserState ρ} (hs : σ.rel s s')
    (hreach : n + k ≤ reach s.rest) :
    σ.Outcome (fun _ t t' => σ.After n s t t' ∧ k ≤ reach t.rest)
      (Parser.production rule (Parser.bumpN n) σ.small s)
      (Parser.production rule (Parser.bumpN n) σ.large s') := by
  apply ((bumpN n).production rule hs (by omega)).and_ok.mono
  rintro _ t t' ⟨hok, ht⟩
  refine ⟨ht, ?_⟩
  obtain ⟨u, hu, hrest⟩ := Parser.bumpN_ok (c := σ.small) n (s.build (·.start rule))
  have hproduction : Parser.production rule (Parser.bumpN n) σ.small s =
      .ok () (u.build (·.finish)) := by
    change (Parser.bumpN n >>= fun _ => Parser.finish) σ.small (s.build (·.start rule)) = _
    rw [Parser.bind_ok hu]
    rfl
  cases hproduction.symm.trans hok
  rw [ParserState.rest_build, hrest, ParserState.rest_build, reach_drop (by omega)]
  omega

/-- A parser that takes a token cannot succeed where there is none. Where the text goes on for the
second run, that run is gone. -/
theorem at_end (hg : σ.Respects 0 1 g g') {s s' : ParserState ρ} (hs : σ.rel s s')
    (hrest : s.rest = []) {post : α → ParserState ρ → ParserState ρ → Prop} (r : Result ρ α)
    (hr : s'.rest = [] → r = g' σ.large s')
    (hgone : σ.behind.isSome → ∀ n, s'.rest.length = n + 1 → ∀ a t, r = .ok a t →
      t.rest.length ≤ n) : σ.Outcome post (g σ.small s) r := by
  have h := hg hs (Nat.zero_le _)
  have hlen' : s'.rest.length = 0 → σ.Outcome post (g σ.small s) r := by
    intro hlen
    rw [hr (List.eq_nil_of_length_eq_zero hlen)]
    apply h.mono
    intro _ t _ ht
    have := ht.took.length_le
    simp [hrest] at this
  obtain hlen | hexcused | hends := σ.lenient hs
  · rw [hrest] at hlen
    exact hlen' hlen.symm
  · generalize g σ.small s = r₁, g' σ.large s' = r₂ at h
    cases h with
    | ok h =>
      have := h.took.length_le
      simp [hrest] at this
    | error => exact .excused (hexcused _)
    | excused => exact .excused (hexcused _)
    | gone h =>
      obtain ⟨n, hn, -⟩ := h
      exact absurd (hexcused ⟨.expected "", σ.small.stop⟩)
        (σ.strict (Option.isSome_iff_exists.2 ⟨n, hn⟩) _)
  · obtain ⟨n, hn, hlen⟩ := hends.behind
    have hbehind : σ.behind.isSome := Option.isSome_iff_exists.2 ⟨n, hn⟩
    rw [hrest, List.length_nil, Nat.zero_add] at hlen
    cases n with
    | zero => exact hlen' hlen
    | succ n =>
      refine .gone ⟨n + 1, hn, fun a t ht => ?_⟩
      exact Nat.lt_succ_of_le (hgone hbehind n hlen a t ht)

theorem bump_before (hg : σ.Respects 0 1 g g') :
    σ.Respects 0 1 (Parser.bump >>= fun _ => g) (Parser.bump >>= fun _ => g') where
  run s s' hs _ := by
    rw [Parser.bind_ok Parser.bump_eq, Parser.bind_ok Parser.bump_eq]
    cases hrest : s.rest with
    | nil =>
      have hadvance : s.advance = s := by
        unfold ParserState.advance
        rw [hrest]
      rw [hadvance]
      apply hg.at_end hs hrest
      · intro hrest'
        unfold ParserState.advance
        rw [hrest']
      · intro hbehind n hlen a t ht
        have hle := (hg.forward hbehind ht).length_le
        rw [ParserState.rest_advance, List.length_tail] at hle
        omega
    | cons t ts =>
      have hadvance : s.advance = { s with rest := ts, builder := s.builder.token t } := by
        unfold ParserState.advance
        rw [hrest]
      apply (hg (σ.advance hs (by simp [hrest])) (Nat.zero_le _)).mono
      intro _ u u' hu
      refine ⟨hu.rel, by rw [hu.opened, hadvance]; rfl, ?_⟩
      apply Took.of_suffix [t] (b := ts)
      · simpa using hrest
      · simpa [hadvance] using hu.took
  forward h := Parser.Forward.bump.bind fun _ => hg.forward h

theorem bumpN_before (n : Nat) (hg : σ.Respects 0 1 g g') :
    σ.Respects 0 1 (Parser.bumpN n >>= fun _ => g) (Parser.bumpN n >>= fun _ => g') := by
  induction n with
  | zero => exact hg
  | succ n ih => exact bump_before ih

end

section

variable {q : Lookahead → Bool} {g g' h h' : Parser ρ α} {b b' : Parser ρ Unit}

theorem sees_ite [hq : Steady 0 q] (hg : σ.Respects 0 take g g') (hh : σ.Respects need take h h') :
    σ.Respects need take (Parser.sees q >>= fun b => if b = true then g else h)
      (Parser.sees q >>= fun b => if b = true then g' else h') where
  run s s' hs hreach := by
    rw [Parser.sees_bind, Parser.sees_bind, hq.eq (σ.sees hs) (.inl (Nat.zero_le _))]
    split
    · exact hg hs (Nat.zero_le _)
    · exact hh hs hreach
  forward hb := .sees_ite (hg.forward hb) (hh.forward hb)

theorem sees_ite_steady [hq : Steady need q] (hg : σ.Respects need take g g')
    (hh : σ.Respects need take h h') :
    σ.Respects need take (Parser.sees q >>= fun b => if b = true then g else h)
      (Parser.sees q >>= fun b => if b = true then g' else h') where
  run s s' hs hreach := by
    rw [Parser.sees_bind, Parser.sees_bind,
      hq.eq (σ.sees hs) (.inl (Nat.le_trans hreach (reach_le_length _)))]
    split
    · exact hg hs hreach
    · exact hh hs hreach
  forward hb := .sees_ite (hg.forward hb) (hh.forward hb)

theorem sees_bind {question : Lookahead → β} [hq : Steady 0 question] {f f' : β → Parser ρ α}
    (hf : ∀ b, σ.Respects need take (f b) (f' b)) :
    σ.Respects need take (Parser.sees question >>= f) (Parser.sees question >>= f') where
  run s s' hs hreach := by
    rw [Parser.sees_bind, Parser.sees_bind, hq.eq (σ.sees hs) (.inl (Nat.zero_le _))]
    exact hf _ hs hreach
  forward hb := .sees_bind fun a => (hf a).forward hb

theorem ite {p : Prop} [Decidable p] (hg : σ.Respects need take g g')
    (hh : σ.Respects need take h h') :
    σ.Respects need take (if p then g else h) (if p then g' else h') := by
  split
  · exact hg
  · exact hh

theorem sees_some {question : Lookahead → Option β} [hq : Steady 0 question]
    [hfirm : Firm 1 fun a => (question a).isSome] {f f' : Option β → Parser ρ α}
    (hsome : ∀ b, σ.Respects 1 take (f (some b)) (f' (some b)))
    (hnone : σ.Respects need take (f none) (f' none)) :
    σ.Respects need take (Parser.sees question >>= f) (Parser.sees question >>= f') where
  run s s' hs hreach := by
    rw [Parser.sees_bind, Parser.sees_bind, hq.eq (σ.sees hs) (.inl (Nat.zero_le _))]
    cases hb : question (σ.small.ahead s.rest) with
    | none => exact hnone hs hreach
    | some b => exact hsome b hs (hfirm.le_reach (σ.sees hs).stop (Option.isSome_of_eq_some hb))
  forward hb := by
    apply Parser.Forward.sees_bind
    intro b?
    cases b? with
    | none => exact hnone.forward hb
    | some b => exact (hsome b).forward hb

theorem sees_ite_next [hq : Steady need q] [Rejects need q] (hg : σ.Respects (need + 1) take g g')
    (hh : σ.Respects need take h h') :
    σ.Respects need take (Parser.sees q >>= fun b => if b = true then g else h)
      (Parser.sees q >>= fun b => if b = true then g' else h') where
  run s s' hs hreach := by
    have hsees := σ.sees hs
    rw [Parser.sees_bind, Parser.sees_bind,
      hq.eq hsees (.inl (Nat.le_trans hreach (reach_le_length _)))]
    split
    · exact hg hs (Lookahead.lt_reach_of_kind hsees.stop hreach (Rejects.not_isEnd ‹_›))
    · exact hh hs hreach
  forward hb := .sees_ite (hg.forward hb) (hh.forward hb)

theorem sees_extent {extent : Lookahead → Nat} [hq : Steady need extent]
    (hle : ∀ a : Lookahead, need ≤ reach a.rest → extent a ≤ reach a.rest)
    {f f' : Nat → Parser ρ α} (hf : ∀ n, σ.Respects n take (f n) (f' n)) :
    σ.Respects need take (Parser.sees extent >>= f) (Parser.sees extent >>= f') where
  run s s' hs hreach := by
    rw [Parser.sees_bind, Parser.sees_bind,
      hq.eq (σ.sees hs) (.inl (Nat.le_trans hreach (reach_le_length _)))]
    exact hf _ hs (hle _ hreach)
  forward hb := .sees_bind fun n => (hf n).forward hb

/-- The branch that is taken if the answer is yes counts on the tokens that the question saw. -/
theorem sees_ite_firm [hq : Steady 0 q] [hfirm : Firm n q] (hg : σ.Respects n take g g')
    (hh : σ.Respects need take h h') :
    σ.Respects need take (Parser.sees q >>= fun b => if b = true then g else h)
      (Parser.sees q >>= fun b => if b = true then g' else h') where
  run s s' hs hreach := by
    rw [Parser.sees_bind, Parser.sees_bind, hq.eq (σ.sees hs) (.inl (Nat.zero_le _))]
    split
    · exact hg hs (hfirm.le_reach (σ.sees hs).stop ‹_›)
    · exact hh hs hreach
  forward hb := .sees_ite (hg.forward hb) (hh.forward hb)

theorem ifSees [Steady 0 q] (hb : σ.Respects 0 0 b b') :
    σ.Respects need 0 (Parser.ifSees q b) (Parser.ifSees q b') :=
  sees_ite hb (pure ())

theorem ifSees_firm [Steady 0 q] [Firm n q] (hb : σ.Respects n 0 b b') :
    σ.Respects need 0 (Parser.ifSees q b) (Parser.ifSees q b') :=
  sees_ite_firm hb (pure ())

theorem option_bind {s s' : ParserState ρ} (hg : σ.Respects 1 take g g')
    (hp : (b σ.small s = .ok () s ∧ b' σ.large s' = .ok () s') ∨
      2 ≤ reach s.rest ∧ b σ.small s = .ok () s.advance ∧ b' σ.large s' = .ok () s'.advance)
    (hs : σ.rel s s') (hreach : 1 ≤ reach s.rest) :
    σ.Outcome (fun _ t t' => σ.After take s t t') ((b >>= fun _ => g) σ.small s)
      ((b' >>= fun _ => g') σ.large s') := by
  obtain ⟨hb, hb'⟩ | ⟨hfirm, hb, hb'⟩ := hp
  · rw [Parser.bind_ok hb, Parser.bind_ok hb']
    exact hg hs hreach
  · obtain ⟨hafter, hreach⟩ := advance (n := 1) hs hfirm
    rw [Parser.bind_ok hb, Parser.bind_ok hb']
    apply (hg hafter.rel hreach).mono
    intro _ u u' hu
    exact (hafter.trans hu).weaken (by omega)

theorem ifSees_bump [hq : Steady 0 q] (hg : σ.Respects 1 take g g') {s s' : ParserState ρ}
    (hs : σ.rel s s') (hreach : 1 ≤ reach s.rest)
    (hfirm : q (σ.small.ahead s.rest) → 2 ≤ reach s.rest) :
    σ.Outcome (fun _ t t' => σ.After take s t t')
      ((Parser.ifSees q Parser.bump >>= fun _ => g) σ.small s)
      ((Parser.ifSees q Parser.bump >>= fun _ => g') σ.large s') := by
  have heq := hq.eq (σ.sees hs) (.inl (Nat.zero_le _))
  apply option_bind hg _ hs hreach
  rw [Parser.ifSees_eq, Parser.ifSees_eq, heq]
  cases h : q (σ.small.ahead s.rest) with
  | true => exact .inr ⟨hfirm h, rfl, rfl⟩
  | false => exact .inl ⟨rfl, rfl⟩

theorem eatIf_outcome [hq : Steady 0 q] [hfirm : Firm 1 q] {s s' : ParserState ρ}
    (hs : σ.rel s s') :
    σ.Outcome (fun taken t t' => if taken then σ.After 1 s t t' else t = s ∧ t' = s')
      (Parser.eatIf q σ.small s) (Parser.eatIf q σ.large s') := by
  rw [Parser.eatIf_eq, Parser.eatIf_eq, hq.eq (σ.sees hs) (.inl (Nat.zero_le _))]
  split
  · apply Outcome.ok
    exact (advance (n := 0) hs (hfirm.le_reach (σ.sees hs).stop ‹_›)).1
  · exact .ok ⟨rfl, rfl⟩

theorem eatIf_bind [Steady 0 q] [Firm 1 q] {f f' : Bool → Parser ρ α}
    (ht : σ.Respects 0 0 (f true) (f' true)) (hf : σ.Respects need take (f false) (f' false))
    (htake : take ≤ 1) :
    σ.Respects need take (Parser.eatIf q >>= f) (Parser.eatIf q >>= f') := by
  have hforward : ∀ b, σ.Forward (f' b) := Bool.forall_bool.2 ⟨hf.forward, ht.forward⟩
  constructor
  · intro s s' hs hreach
    apply (eatIf_outcome hs).bind _ hforward
    intro b t t' ht'
    cases b with
    | false =>
      obtain ⟨rfl, rfl⟩ := ht'
      exact hf hs hreach
    | true =>
      apply (ht ht'.rel (Nat.zero_le _)).mono
      intro _ _ _ hu
      exact (ht'.trans hu).weaken htake
  · exact fun h => (Parser.Forward.eatIf q).bind fun b => hforward b h

theorem eatIf_ite [Steady 0 q] [Firm 1 q] (hg : σ.Respects 0 0 g g')
    (hh : σ.Respects need take h h') (htake : take ≤ 1) :
    σ.Respects need take (Parser.eatIf q >>= fun b => if b = true then g else h)
      (Parser.eatIf q >>= fun b => if b = true then g' else h') :=
  eatIf_bind hg hh htake

theorem eatIf_join [Steady 0 q] [Firm 1 q] {j j' : Unit → Parser ρ α}
    (hj : σ.Respects 0 take (j ()) (j' ()))
    (hb : σ.Respects 0 take (j ()) (j' ()) → σ.Respects 0 0 (b >>= j) (b' >>= j'))
    (htake : take ≤ 1) :
    σ.Respects need take (Parser.eatIf q >>= fun r => if r = true then b >>= j else j ())
      (Parser.eatIf q >>= fun r => if r = true then b' >>= j' else j' ()) :=
  eatIf_ite (hb hj) hj.lift htake

theorem eatIf [Steady 0 q] [Firm 1 q] :
    σ.Respects need 0 (Parser.eatIf q : Parser ρ Bool) (Parser.eatIf q) where
  run s s' hs _ := by
    apply (eatIf_outcome hs).mono
    intro b t t' ht
    cases b with
    | false =>
      obtain ⟨rfl, rfl⟩ := ht
      exact After.refl hs
    | true => exact After.weaken ht (Nat.zero_le _)
  forward _ := .eatIf q

theorem expectIf [Steady 0 q] [Firm 1 q] (what : String) :
    σ.Respects need 1 (Parser.expectIf q what : Parser ρ Unit) (Parser.expectIf q what) :=
  eatIf_ite (pure ()) (expected what) (Nat.le_refl 1)

theorem expect (kind : TokenKind) [kind.Inner] :
    σ.Respects need 1 (Parser.expect kind : Parser ρ Unit) (Parser.expect kind) :=
  expectIf _

theorem expectKeyword (word : Keyword) :
    σ.Respects need 1 (Parser.expectKeyword word : Parser ρ Unit) (Parser.expectKeyword word) :=
  expectIf _

theorem expectName : σ.Respects need 1 (Parser.expectName : Parser ρ Unit) Parser.expectName :=
  expectIf _

theorem expectOneOf (words : List Keyword) (what : String) :
    σ.Respects need 1 (Parser.expectOneOf words what : Parser ρ Unit)
      (Parser.expectOneOf words what) :=
  expectIf _

theorem optionalKeyword (word : Keyword) :
    σ.Respects need 0 (Parser.optionalKeyword word : Parser ρ Unit)
      (Parser.optionalKeyword word) :=
  eatIf.discard

theorem optionalKeyword_bind (word : Keyword) (hg : σ.Respects 1 take g g')
    {s s' : ParserState ρ} (hs : σ.rel s s') (hreach : 1 ≤ reach s.rest)
    (hfirm : (σ.small.ahead s.rest).isKeyword 0 word → 2 ≤ reach s.rest) :
    σ.Outcome (fun _ t t' => σ.After take s t t')
      ((Parser.optionalKeyword word >>= fun _ => g) σ.small s)
      ((Parser.optionalKeyword word >>= fun _ => g') σ.large s') := by
  have heq := (σ.sees hs).ask (·.isKeyword 0 word) (.inl (Nat.zero_le _))
  apply option_bind hg _ hs hreach
  rw [Parser.optionalKeyword_eq, Parser.optionalKeyword_eq, heq]
  cases h : (σ.small.ahead s.rest).isKeyword 0 word with
  | true => exact .inr ⟨hfirm h, rfl, rfl⟩
  | false => exact .inl ⟨rfl, rfl⟩

theorem optionalOneOf (words : List Keyword) :
    σ.Respects need 0 (Parser.optionalOneOf words : Parser ρ Unit) (Parser.optionalOneOf words) :=
  eatIf.discard

theorem ifKeyword (word : Keyword) (hb : σ.Respects 1 0 b b') :
    σ.Respects need 0 (Parser.ifKeyword word b) (Parser.ifKeyword word b') :=
  ifSees_firm hb

theorem afterKeyword (word : Keyword) (hb : σ.Respects 0 0 b b') :
    σ.Respects need 0 (Parser.afterKeyword word b) (Parser.afterKeyword word b') :=
  eatIf_ite hb (pure ()) (Nat.zero_le 1)

theorem parenthesized (hb : σ.Respects 0 take b b') :
    σ.Respects need 1 (Parser.parenthesized b) (Parser.parenthesized b') := by
  apply bind_left (expect _)
  intro _
  apply seq hb.loose
  exact (expect _).loose

end

end Respects

end Simulation

end SqlScript
