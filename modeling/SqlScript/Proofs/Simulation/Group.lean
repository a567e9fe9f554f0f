import SqlScript.Proofs.Group
import SqlScript.Proofs.Simulation.Loop

/-!
Groups and balanced runs in two runs of a grammar. A balanced run passes over the separators inside
its groups, but it never ends with one.
-/

namespace SqlScript

namespace Lookahead

variable (stop : Token → Bool)

theorem balancedRun_le (closers : List TokenKind) (n : Nat) (ts : List Token) :
    (balancedRun stop closers n ts).1 ≤ n + ts.length := by
  induction ts generalizing closers n with
  | nil => exact Nat.le_refl _
  | cons t ts ih =>
    have ih := fun closers => ih closers (n + 1)
    simp only [List.length_cons]
    simp only [Nat.add_assoc, Nat.add_comm 1] at ih
    unfold balancedRun
    repeat' split
    all_goals first | apply ih | exact Nat.le_add_right ..

theorem le_balancedRun (closers : List TokenKind) (n : Nat) (ts : List Token) :
    n ≤ (balancedRun stop closers n ts).1 := by
  induction ts generalizing closers n with
  | nil => exact Nat.le_refl _
  | cons t ts ih =>
    have ih := fun closers => Nat.le_of_succ_le (ih closers (n + 1))
    unfold balancedRun
    repeat' split
    all_goals first | apply ih | exact Nat.le_refl _

theorem lt_balancedRun {t : Token} (h : t.kind.startsRun) (n : Nat) (ts : List Token) :
    n < (balancedRun (fun _ => false) [] n (t :: ts)).1 := by
  unfold TokenKind.startsRun at h
  unfold balancedRun
  split
  · exact le_balancedRun ..
  · exact le_balancedRun ..
  · simp_all
  · simp_all
  · simp_all
  · exact le_balancedRun ..

theorem balancedRun_wellNested {closers outer : List TokenKind} {ts : List Token}
    (h : Token.wellNested (closers ++ outer) ts) (n : Nat) :
    (balancedRun stop closers n ts).2 = none := by
  fun_induction balancedRun stop closers n ts with
  | case1 closers n =>
    unfold Token.wellNested at h
    rw [List.isEmpty_iff, List.append_eq_nil_iff] at h
    rw [h.1]
    rfl
  | case5 _ _ _ hk _ _ _ ih | case8 _ _ _ hk _ _ _ ih =>
    simp only [List.cons_append, Token.wellNested, hk, Bool.and_eq_true] at h
    exact ih h.2
  | _ => simp_all [Token.wellNested]

theorem balancedRun_closed {ts : List Token} (h : Token.Closed ts) (n : Nat) :
    (balancedRun stop [] n ts).2 = none := by
  obtain ⟨outer, h⟩ := h
  have h : Token.wellNested ([] ++ outer) ts := h
  exact balancedRun_wellNested stop h n

end Lookahead

namespace Simulation

variable {ρ : Type} {σ : Simulation ρ} {need : Nat}

namespace Outcome

theorem bumpN {n : Nat} {s s' : ParserState ρ} (hs : σ.rel s s') (hn : n ≤ s.rest.length) :
    σ.Outcome (fun _ t t' => σ.rel t t' ∧ t.builder.opened = s.builder.opened ∧
      t.rest = s.rest.drop n) (Parser.bumpN n σ.small s) (Parser.bumpN n σ.large s') := by
  induction n generalizing s s' with
  | zero => exact .ok ⟨hs, rfl, rfl⟩
  | succ n ih =>
    cases hrest : s.rest with
    | nil => simp [hrest] at hn
    | cons t ts =>
      have hadvance : s.advance = { s with rest := ts, builder := s.builder.token t } := by
        unfold ParserState.advance
        rw [hrest]
      have hn : n ≤ s.advance.rest.length := by
        rw [hrest] at hn
        rw [hadvance]
        exact Nat.le_of_succ_le_succ hn
      apply (ih (σ.advance hs (by simp [hrest])) hn).mono
      rintro _ u u' ⟨hrel, hopened, hu⟩
      refine ⟨hrel, ?_, ?_⟩
      · rw [hopened, hadvance]
        rfl
      · rw [hu, hadvance]
        rfl

theorem bumpBalancedUntil {stop : Token → Bool}
    (hstop : ∀ t t', t'.kind.folded = t.kind.folded → stop t' = stop t)
    {s s' : ParserState ρ} (hs : σ.rel s s') :
    σ.Outcome
      (fun _ t t' => σ.After (Lookahead.balancedRun stop [] 0 s.rest).1 s t t')
      (Parser.bumpBalancedUntil stop σ.small s) (Parser.bumpBalancedUntil stop σ.large s') := by
  unfold Parser.bumpBalancedUntil
  rw [Parser.ahead_bind, Parser.ahead_bind]
  have hle := Lookahead.balancedRun_le stop [] 0 s.rest
  obtain heq | ⟨hmissing, hlen⟩ := (σ.sees hs).rest.balancedRun hstop [] 0
  · simp only [Setting.rest_ahead] at heq ⊢
    rw [heq]
    rcases hrun : Lookahead.balancedRun stop [] 0 s.rest with ⟨n, missing⟩
    rw [hrun] at hle
    simp only [Nat.zero_add] at hle
    apply (bumpN hs hle).bind
    · rintro _ t t' ⟨hrel, hopened, hrest⟩
      cases missing with
      | some closer => exact .expected _ hrel
      | none =>
        obtain ⟨us, vs, hus, hn, hbalanced⟩ := Balanced.of_balancedRun hrun
        rw [Nat.zero_add] at hn
        apply Outcome.ok
        refine ⟨hrel, hopened, us, ?_, Nat.le_of_eq hn, hbalanced.getLast⟩
        rw [hrest, hus, hn, List.drop_left]
    · intro _ _
      cases missing with
      | some closer => exact .expected _
      | none => exact .pure ()
  · simp only [Setting.rest_ahead] at hmissing ⊢
    rcases hrun : Lookahead.balancedRun stop [] 0 s.rest with ⟨n, missing⟩
    rw [hrun] at hmissing
    obtain ⟨t, ht, -⟩ := Parser.bumpN_ok (c := σ.small) n s
    simp only at hmissing ⊢
    rw [Parser.bind_ok ht]
    cases missing with
    | some closer =>
      obtain hexcused | hends := (σ.lenient hs).resolve_left hlen
      · exact .excused (hexcused _)
      · have hnone := Lookahead.balancedRun_closed stop hends.closed 0
        rw [hrun] at hnone
        contradiction
    | none => contradiction

end Outcome

namespace Respects

theorem bumpBalancedUntil {stop : Token → Bool}
    (hstop : ∀ t t', t'.kind.folded = t.kind.folded → stop t' = stop t) :
    σ.Respects need 0 (Parser.bumpBalancedUntil stop : Parser ρ Unit)
      (Parser.bumpBalancedUntil stop) where
  run s s' hs _ := by
    apply (Outcome.bumpBalancedUntil hstop hs).mono
    intro _ t t' ht
    exact ht.weaken (Nat.zero_le _)
  forward _ := .bumpBalancedUntil stop

theorem bumpBalancedUntil_isOneOf (words : List Keyword) :
    σ.Respects need 0 (Parser.bumpBalancedUntil (·.isOneOf words) : Parser ρ Unit)
      (Parser.bumpBalancedUntil (·.isOneOf words)) := by
  apply bumpBalancedUntil
  exact fun t t' hk => Token.isOneOf_congr hk words

theorem bumpBalanced :
    σ.Respects need 0 (Parser.bumpBalanced : Parser ρ Unit) Parser.bumpBalanced :=
  bumpBalancedUntil fun _ _ _ => rfl

theorem bumpGroup_group (closer : TokenKind) [closer.Inner] :
    σ.Respects 1 1 (Parser.bumpGroup.group closer : Parser ρ Unit)
      (Parser.bumpGroup.group closer) := by
  unfold Parser.bumpGroup.group
  apply seq bump
  apply seq bumpBalanced
  exact (expect closer).loose

theorem bumpGroup : σ.Respects need 1 (Parser.bumpGroup : Parser ρ Unit) Parser.bumpGroup where
  run s s' hs hreach := by
    have hsees := σ.sees hs
    unfold Parser.bumpGroup
    rw [Parser.sees_bind, Parser.sees_bind]
    obtain heq | ⟨name, name', hname, hname', -⟩ | ⟨heof, hsemi⟩ :=
      hsees.kind (n := 0) (.inl (Nat.zero_le _))
    · rw [heq]
      generalize hkind : (σ.small.ahead s.rest).kind 0 = kind
      split
      · exact bumpGroup_group _ hs (one_le_reach hs (by simp [hkind, TokenKind.isEnd]))
      · exact bumpGroup_group _ hs (one_le_reach hs (by simp [hkind, TokenKind.isEnd]))
      · exact .expected _ hs
    · rw [hname, hname']
      exact .expected _ hs
    · rw [heof, hsemi]
      exact .expected _ hs
  forward _ := .bumpGroup

theorem bumpCase_round (depth : Nat) {s t t' : ParserState ρ} (ht : σ.After 0 s t t') :
    σ.Outcome (Round (fun _ => σ.After 0 s) (fun _ => σ.After 0 s) depth t)
      (Parser.bumpCase.round depth σ.small t) (Parser.bumpCase.round depth σ.large t') := by
  unfold Parser.bumpCase.round
  have hforward : ∀ (more : Option Nat) {p : Parser ρ (Option Nat)}, σ.Forward p →
      ∀ taken : Bool, σ.Forward (if taken = true then Pure.pure more else p) :=
    fun more _ hp _ hb => .ite (.pure more) (hp hb)
  have hend := hforward (if depth ≤ 1 then none else some (depth - 1)) fun _ => .expected "END"
  have hcase := hforward (some (depth + 1)) fun hb =>
    (Parser.Forward.eatIf (·.isKeyword 0 .END)).bind fun taken => hend taken hb
  apply (bumpBalancedUntil_isOneOf [.CASE, .END] ht.rel (Nat.zero_le _)).bind _ fun _ hb =>
    (Parser.Forward.eatIf _).bind fun taken => hcase taken hb
  intro _ u u' hu
  have hsu := ht.trans hu
  apply (eatIf_outcome hu.rel).bind _ hcase
  intro taken v v' hv
  cases taken with
  | true =>
    have := (hu.trans hv).took.length_le
    exact .ok ⟨(hsu.trans hv).weaken (Nat.zero_le _), by omega⟩
  | false =>
    obtain ⟨rfl, rfl⟩ := hv
    apply (eatIf_outcome hu.rel).bind _ hend
    intro taken w w' hw
    cases taken with
    | true =>
      have := (hu.trans hw).took.length_le
      have hsw := (hsu.trans hw).weaken (Nat.zero_le _)
      apply Outcome.ok
      split
      · exact hsw
      · exact ⟨hsw, by omega⟩
    | false =>
      obtain ⟨rfl, rfl⟩ := hw
      exact .expected _ hu.rel

theorem bumpCase : σ.Respects need 1 (Parser.bumpCase : Parser ρ Unit) Parser.bumpCase := by
  unfold Parser.bumpCase
  apply seq (expectKeyword _)
  apply discard
  constructor
  · intro s s' hs _
    apply Outcome.iterate (J := fun _ => σ.After 0 s) (Q := fun _ => σ.After 0 s)
    · intro depth t t' ht
      exact bumpCase_round depth ht
    · exact fun depth _ => .bumpCase_round depth
    · exact hs
    · exact After.refl hs
  · exact fun _ => .iterate .bumpCase_round 1

end Respects

/--
Two parsers end alike where a balanced run can start, and take a token if they succeed.
-/
structure Starts (σ : Simulation ρ) (p p' : Parser ρ Unit) : Prop where
  run ⦃s s' : ParserState ρ⦄ : σ.rel s s' → ((σ.small.ahead s.rest).kind 0).startsRun →
    σ.Outcome (fun _ t t' => σ.After 1 s t t') (p σ.small s) (p' σ.large s')
  forward : σ.Forward p'

namespace Starts

variable {n : Nat} {p p' g g' h h' : Parser ρ Unit}

theorem one_le_reach {s s' : ParserState ρ} (hs : σ.rel s s')
    (hstart : ((σ.small.ahead s.rest).kind 0).startsRun) : 1 ≤ reach s.rest := by
  apply Simulation.one_le_reach hs
  rintro (hend | hend)
  · rw [hend] at hstart
    contradiction
  · rw [hend] at hstart
    contradiction

theorem of_respects (hp : σ.Respects 1 1 p p') : σ.Starts p p' where
  run _ _ hs hstart := hp hs (one_le_reach hs hstart)
  forward := hp.forward

theorem production (rule : ρ) (hp : σ.Starts p p') :
    σ.Starts (Parser.production rule p) (Parser.production rule p') where
  run s s' hs hstart := by
    apply Outcome.production rule hs
    intro t t' ht hrest
    exact hp.run ht (hrest ▸ hstart)
  forward hb := (hp.forward hb).production rule

theorem sees_ite {q : Lookahead → Bool} [hq : Steady 1 q] (hg : σ.Starts g g')
    (hh : σ.Starts h h') :
    σ.Starts (Parser.sees q >>= fun b => if b = true then g else h)
      (Parser.sees q >>= fun b => if b = true then g' else h') where
  run s s' hs hstart := by
    have hreach := one_le_reach hs hstart
    rw [Parser.sees_bind, Parser.sees_bind,
      hq.eq (σ.sees hs) (.inl (Nat.le_trans hreach (reach_le_length _)))]
    split
    · exact hg.run hs hstart
    · exact hh.run hs hstart
  forward hb := .sees_ite (hg.forward hb) (hh.forward hb)

theorem sees_ite_firm {q : Lookahead → Bool} [hq : Steady 0 q] [hfirm : Firm n q]
    (hg : σ.Respects n 1 g g') (hh : σ.Starts h h') :
    σ.Starts (Parser.sees q >>= fun b => if b = true then g else h)
      (Parser.sees q >>= fun b => if b = true then g' else h') where
  run s s' hs hstart := by
    rw [Parser.sees_bind, Parser.sees_bind, hq.eq (σ.sees hs) (.inl (Nat.zero_le _))]
    split
    · exact hg hs (hfirm.le_reach (σ.sees hs).stop ‹_›)
    · exact hh.run hs hstart
  forward hb := .sees_ite (hg.forward hb) (hh.forward hb)

theorem bumpBalanced : σ.Starts Parser.bumpBalanced Parser.bumpBalanced where
  run s s' hs hstart := by
    obtain ⟨t, ts, hrest, hk⟩ := Lookahead.exists_cons_of_kind (σ.sees hs).stop rfl (by
      intro heof
      rw [heof] at hstart
      contradiction)
    rw [← hk] at hstart
    apply (Outcome.bumpBalancedUntil (fun _ _ _ => rfl) hs).mono
    intro _ u u' hu
    apply hu.weaken
    rw [show s.rest = t :: ts from hrest]
    exact Lookahead.lt_balancedRun hstart 0 ts
  forward _ := .bumpBalancedUntil _

end Starts

end Simulation

end SqlScript
