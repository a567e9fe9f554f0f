import Mathlib.Order.Bounds.Defs
import SqlScript.Proofs.Simulation.Group
import SqlScript.Proofs.Nesting

/-!
Where a balanced run ends. It is taken up to the first place outside of all groups where it may end,
unless a group is broken in front of that place, by a delimiter that closes another one or by the end
of the text. Where it is to stop is asked of a token with its place in the text, of which there is no
second one; so the answer may depend on all that stands around the token.
-/

namespace SqlScript

namespace Token

def opens (t : Token) : Bool :=
  t.kind == .leftParen || t.kind == .leftBracket

def closes (t : Token) : Bool :=
  t.kind == .rightParen || t.kind == .rightBracket

/--
The closing delimiters that are awaited behind a token, the innermost first, if `closers` are awaited
in front of it. There is no answer for a delimiter that closes nothing, or something else.
-/
def await (closers : List TokenKind) (t : Token) : Option (List TokenKind) :=
  if t.closes then
    if closers.head? = some t.kind then some closers.tail else none
  else
    match t.kind with
    | .leftParen => some (.rightParen :: closers)
    | .leftBracket => some (.rightBracket :: closers)
    | _ => some closers

def awaited (closers : List TokenKind) (ts : List Token) : Option (List TokenKind) :=
  ts.foldlM await closers

@[simp]
theorem awaited_nil (closers : List TokenKind) : awaited closers [] = some closers :=
  rfl

@[simp]
theorem awaited_cons (closers : List TokenKind) (t : Token) (ts : List Token) :
    awaited closers (t :: ts) = (await closers t).bind (awaited · ts) :=
  rfl

theorem await_eq_none {closers : List TokenKind} {t : Token} :
    await closers t = none ↔ t.closes ∧ closers.head? ≠ some t.kind := by
  unfold await
  split
  · split <;> simp_all
  · split <;> simp_all

theorem wellNested_of_awaited {closers : List TokenKind} {ts : List Token}
    (h : awaited closers ts = some []) : wellNested closers ts := by
  fun_induction wellNested closers ts with
  | case1 => simpa using h
  | _ => grind [await, closes, awaited_cons]

def endsRun (stop : Token → Bool) (t : Token) : Bool :=
  t.kind == .semicolon || t.closes || (!t.opens && stop t)

end Token

open Token (awaited await)

namespace Lookahead

variable {stop : Token → Bool} {closers : List TokenKind} {t : Token} {ts : List Token} {n : Nat}

/--
Behind `n` of these tokens nothing is awaited any more, and a balanced run may end.
-/
structure RunEnds (stop : Token → Bool) (closers : List TokenKind) (ts : List Token) (n : Nat) :
    Prop where
  le : n ≤ ts.length
  awaited : awaited closers (ts.take n) = some []
  ends : ∀ t ∈ ts[n]?, t.endsRun stop

/--
Behind `n` of these tokens `closer` is awaited for the innermost group, and something else is closed
or the text ends.
-/
structure RunBreaks (closers : List TokenKind) (ts : List Token) (n : Nat) (closer : TokenKind) :
    Prop where
  le : n ≤ ts.length
  awaited : ∃ outer, awaited closers (ts.take n) = some (closer :: outer)
  breaks : ∀ t ∈ ts[n]?, t.closes ∧ t.kind ≠ closer

def RunSettles (stop : Token → Bool) (closers : List TokenKind) (ts : List Token) (n : Nat) :
    Option TokenKind → Prop
  | none => RunEnds stop closers ts n
  | some closer => RunBreaks closers ts n closer

theorem runEnds_zero :
    RunEnds stop closers (t :: ts) 0 ↔ closers = [] ∧ t.endsRun stop := by
  constructor
  · intro h
    exact ⟨by simpa using h.awaited, h.ends t rfl⟩
  · rintro ⟨rfl, hends⟩
    exact ⟨Nat.zero_le _, rfl, by simpa using hends⟩

theorem runBreaks_zero {closer : TokenKind} :
    RunBreaks closers (t :: ts) 0 closer ↔
      closers.head? = some closer ∧ t.closes ∧ t.kind ≠ closer := by
  constructor
  · intro h
    obtain ⟨outer, houter⟩ := h.awaited
    cases houter
    exact ⟨rfl, h.breaks t rfl⟩
  · rintro ⟨hhead, hbreaks⟩
    obtain ⟨outer, rfl⟩ := List.head?_eq_some_iff.1 hhead
    exact ⟨Nat.zero_le _, ⟨outer, rfl⟩, by simpa using hbreaks⟩

theorem runSettles_succ {missing : Option TokenKind} :
    RunSettles stop closers (t :: ts) (n + 1) missing ↔
      ∃ next, await closers t = some next ∧ RunSettles stop next ts n missing := by
  cases missing with
  | none =>
    constructor
    · intro h
      obtain ⟨next, hnext, hawaited⟩ := Option.bind_eq_some_iff.1 h.awaited
      exact ⟨next, hnext, Nat.le_of_succ_le_succ h.le, hawaited, h.ends⟩
    · rintro ⟨next, hnext, h⟩
      exact ⟨Nat.succ_le_succ h.le, Option.bind_eq_some_iff.2 ⟨next, hnext, h.awaited⟩, h.ends⟩
  | some closer =>
    constructor
    · intro h
      obtain ⟨outer, houter⟩ := h.awaited
      obtain ⟨next, hnext, hawaited⟩ := Option.bind_eq_some_iff.1 houter
      exact ⟨next, hnext, Nat.le_of_succ_le_succ h.le, ⟨outer, hawaited⟩, h.breaks⟩
    · rintro ⟨next, hnext, h⟩
      obtain ⟨outer, houter⟩ := h.awaited
      exact ⟨Nat.succ_le_succ h.le, ⟨outer, Option.bind_eq_some_iff.2 ⟨next, hnext, houter⟩⟩,
        h.breaks⟩

/--
The run is settled behind `k` of these tokens, for want of `missing` if it breaks, and not before.
-/
def FirstSettles (stop : Token → Bool) (closers : List TokenKind) (ts : List Token) (k : Nat)
    (missing : Option TokenKind) : Prop :=
  RunSettles stop closers ts k missing ∧ ∀ m < k, ∀ missing', ¬RunSettles stop closers ts m missing'

theorem FirstSettles.succ {k : Nat} {next : List TokenKind} {missing : Option TokenKind}
    (hnext : await closers t = some next) (hends : ¬(closers = [] ∧ t.endsRun stop))
    (h : FirstSettles stop next ts k missing) : FirstSettles stop closers (t :: ts) (k + 1) missing := by
  refine ⟨runSettles_succ.2 ⟨next, hnext, h.1⟩, ?_⟩
  intro m hm missing' hsettles
  cases m with
  | zero =>
    cases missing' with
    | none => exact hends (runEnds_zero.1 hsettles)
    | some closer =>
      obtain ⟨hhead, hcloses, hne⟩ := runBreaks_zero.1 hsettles
      have hnone : await closers t = none := by
        rw [Token.await_eq_none, hhead]
        exact ⟨hcloses, fun heq => hne (Option.some_inj.1 heq).symm⟩
      rw [hnone] at hnext
      contradiction
  | succ m =>
    obtain ⟨next', hnext', hsettles⟩ := runSettles_succ.1 hsettles
    cases hnext.symm.trans hnext'
    exact h.2 m (Nat.lt_of_succ_lt_succ hm) missing' hsettles

theorem FirstSettles.ends (hclosers : closers = []) (hends : t.endsRun stop) :
    FirstSettles stop closers (t :: ts) 0 none :=
  ⟨runEnds_zero.2 ⟨hclosers, hends⟩, nofun⟩

theorem FirstSettles.breaks {closer : TokenKind} {outer : List TokenKind} (hcloses : t.closes)
    (hne : t.kind ≠ closer) : FirstSettles stop (closer :: outer) (t :: ts) 0 (some closer) :=
  ⟨runBreaks_zero.2 ⟨rfl, hcloses, hne⟩, nofun⟩

theorem FirstSettles.nil : FirstSettles stop closers [] 0 closers.head? := by
  refine ⟨?_, nofun⟩
  cases closers with
  | nil => exact ⟨Nat.le_refl _, rfl, nofun⟩
  | cons closer outer => exact ⟨Nat.le_refl _, ⟨outer, rfl⟩, nofun⟩

/-- A balanced run is taken up to the first place where it is settled. -/
theorem balancedRun_settles (stop : Token → Bool) (closers : List TokenKind) (n : Nat)
    (ts : List Token) :
    ∃ k missing, balancedRun stop closers n ts = (n + k, missing) ∧
      FirstSettles stop closers ts k missing := by
  have hgo {closers next : List TokenKind} {n : Nat} {t : Token} {ts : List Token}
      (ih : ∃ k missing, balancedRun stop next (n + 1) ts = (n + 1 + k, missing) ∧
        FirstSettles stop next ts k missing)
      (hnext : await closers t = some next) (hends : ¬(closers = [] ∧ t.endsRun stop)) :
      ∃ k missing, balancedRun stop next (n + 1) ts = (n + k, missing) ∧
        FirstSettles stop closers (t :: ts) k missing := by
    obtain ⟨k, missing, hrun, h⟩ := ih
    refine ⟨k + 1, missing, ?_, h.succ hnext hends⟩
    rw [hrun, Nat.add_assoc, Nat.add_comm 1 k]
  fun_induction balancedRun stop closers n ts with
  | case1 closers n => exact ⟨0, closers.head?, rfl, .nil⟩
  | case2 closers n t ts hk ih =>
    apply hgo ih <;> simp [await, Token.closes, Token.endsRun, Token.opens, hk]
  | case3 closers n t ts hk ih =>
    apply hgo ih <;> simp [await, Token.closes, Token.endsRun, Token.opens, hk]
  | case4 n t ts hk | case7 n t ts hk =>
    exact ⟨0, none, rfl, .ends rfl (by simp [Token.endsRun, Token.closes, hk])⟩
  | case5 n t ts hk closer outer hcloser ih | case8 n t ts hk closer outer hcloser ih =>
    rw [hk] at hcloser
    apply hgo ih <;> simp_all [await, Token.closes]
  | case6 n t ts hk closer outer hcloser | case9 n t ts hk closer outer hcloser =>
    rw [beq_iff_eq] at hcloser
    exact ⟨0, some closer, rfl, .breaks (by simp [Token.closes, hk]) hcloser⟩
  | case10 closers n t ts hk hclosers =>
    exact ⟨0, none, rfl, .ends (List.isEmpty_iff.1 hclosers) (by simp [Token.endsRun, hk])⟩
  | case11 closers n t ts hk hclosers ih =>
    rw [List.isEmpty_iff] at hclosers
    apply hgo ih <;> simp [await, Token.closes, hk, hclosers]
  | case12 closers n t ts hstop =>
    rw [Bool.and_eq_true, List.isEmpty_iff] at hstop
    refine ⟨0, none, rfl, .ends hstop.1 ?_⟩
    simp_all [Token.endsRun, Token.opens]
  | case13 closers n t ts hstop _ _ _ _ _ ih =>
    apply hgo ih <;> simp_all [await, Token.closes, Token.endsRun, Token.opens]

theorem RunEnds.not_breaks {closer : TokenKind} (h : RunEnds stop closers ts n) :
    ¬RunBreaks closers ts n closer := by
  intro hbreaks
  obtain ⟨outer, houter⟩ := hbreaks.awaited
  rw [h.awaited] at houter
  cases houter

end Lookahead

namespace Parser

open Lookahead (RunEnds RunBreaks)

variable {ρ : Type} {c : Setting} {s t : ParserState ρ} {stop : Token → Bool} {n : Nat}

theorem bumpBalancedUntil_eq (stop : Token → Bool) (s : ParserState ρ) :
    ∃ n missing, Lookahead.FirstSettles stop [] s.rest n missing ∧
      (bumpBalancedUntil stop : Parser ρ Unit) c s =
        match missing with
        | none => .ok () (s.behind n)
        | some closer =>
          .error ⟨.expected closer.describe, (c.ahead s.rest).token n⟩ (s.behind n) := by
  obtain ⟨n, missing, hrun, hsettles⟩ := Lookahead.balancedRun_settles stop [] 0 s.rest
  refine ⟨n, missing, hsettles, ?_⟩
  unfold bumpBalancedUntil
  rw [ahead_bind, Setting.rest_ahead, hrun, Nat.zero_add]
  dsimp only
  rw [bind_ok (bumpN_eq n s)]
  cases missing with
  | none => rfl
  | some closer =>
    have hfront : (c.ahead (s.behind n).rest).token 0 = (c.ahead s.rest).token n :=
      Lookahead.token_drop c s.rest n 0
    rw [← hfront]
    rfl

theorem bumpBalancedUntil_ok_ends (h : (bumpBalancedUntil stop : Parser ρ Unit) c s = .ok () t) :
    ∃ n, IsLeast {n | RunEnds stop [] s.rest n} n ∧
      (∀ m < n, ∀ closer, ¬RunBreaks [] s.rest m closer) ∧ t = s.behind n := by
  obtain ⟨n, missing, ⟨hsettles, hfirst⟩, hrun⟩ := bumpBalancedUntil_eq (c := c) stop s
  rw [hrun] at h
  cases missing with
  | none =>
    cases h
    refine ⟨n, ⟨hsettles, ?_⟩, fun m hm closer => hfirst m hm (some closer), rfl⟩
    intro m hm
    exact Nat.le_of_not_lt fun hlt => hfirst m hlt none hm
  | some closer => cases h

theorem bumpBalancedUntil_error_breaks {f : Failure}
    (h : (bumpBalancedUntil stop : Parser ρ Unit) c s = .error f t) :
    ∃ n closer, IsLeast {n | ∃ closer, RunBreaks [] s.rest n closer} n ∧
      RunBreaks [] s.rest n closer ∧ (∀ m ≤ n, ¬RunEnds stop [] s.rest m) ∧
      f = ⟨.expected closer.describe, (c.ahead s.rest).token n⟩ ∧ t = s.behind n := by
  obtain ⟨n, missing, ⟨hsettles, hfirst⟩, hrun⟩ := bumpBalancedUntil_eq (c := c) stop s
  rw [hrun] at h
  cases missing with
  | none => cases h
  | some closer =>
    cases h
    refine ⟨n, closer, ⟨⟨closer, hsettles⟩, ?_⟩, hsettles, ?_, rfl, rfl⟩
    · rintro m ⟨closer', hm⟩
      exact Nat.le_of_not_lt fun hlt => hfirst m hlt (some closer') hm
    · intro m hm hends
      obtain hlt | rfl := Nat.lt_or_eq_of_le hm
      · exact hfirst m hlt none hends
      · exact hends.not_breaks hsettles

theorem bumpBalancedUntil_ok_of_ends (hends : RunEnds stop [] s.rest n)
    (hbefore : ∀ m < n, ∀ closer, ¬RunBreaks [] s.rest m closer) :
    ∃ t, (bumpBalancedUntil stop : Parser ρ Unit) c s = .ok () t := by
  cases h : (bumpBalancedUntil stop : Parser ρ Unit) c s with
  | ok _ t => exact ⟨t, rfl⟩
  | error f t =>
    obtain ⟨m, closer, -, hbreaks, hopen, -, -⟩ := bumpBalancedUntil_error_breaks h
    obtain hlt | hle := Nat.lt_or_ge m n
    · exact absurd hbreaks (hbefore m hlt closer)
    · exact absurd hends (hopen n hle)

theorem bumpGroup_matchingParen? (hstop : c.stop.kind = .eof)
    (hparen : (c.ahead s.rest).isKind 0 .leftParen)
    (h : (bumpGroup : Parser ρ Unit) c s = .ok () t) :
    ∃ us, us ≠ [] ∧ s.rest = us ++ t.rest ∧
      (c.ahead s.rest).matchingParen? 0 = some (us.length - 1) := by
  obtain ⟨close, hclose, hrest⟩ := bumpGroup_ok hparen hstop h
  have hlt := (Lookahead.lt_length_of_matchingParen? hclose).2
  rw [Setting.rest_ahead] at hlt
  have hlength : (s.rest.take (close + 1)).length = close + 1 := by
    rw [List.length_take]
    omega
  refine ⟨s.rest.take (close + 1), ?_, ?_, ?_⟩
  · rw [← List.length_pos_iff]
    omega
  · rw [hrest, List.take_append_drop]
  · rw [hclose, hlength, Nat.add_sub_cancel]

/--
A balanced run is taken if and only if a place outside of all groups where it may end comes before
any place where a group is broken. It is taken up to the first such place; otherwise it fails where
a group is broken for the first time. A group in parentheses that is taken ends where it is seen to.
-/
theorem bumpBalancedUntil_settled (hstop : c.stop.kind = .eof) (stop : Token → Bool)
    (s : ParserState ρ) :
    ((∃ t, (bumpBalancedUntil stop : Parser ρ Unit) c s = .ok () t) ↔
      ∃ n, IsLeast {n | RunEnds stop [] s.rest n} n ∧
        ∀ m < n, ∀ closer, ¬RunBreaks [] s.rest m closer) ∧
    (∀ t, (bumpBalancedUntil stop : Parser ρ Unit) c s = .ok () t →
      ∃ n, IsLeast {n | RunEnds stop [] s.rest n} n ∧ Token.properlyNested (s.rest.take n) ∧
        t = s.behind n) ∧
    (∀ f t, (bumpBalancedUntil stop : Parser ρ Unit) c s = .error f t →
      ∃ n closer, IsLeast {n | ∃ closer, RunBreaks [] s.rest n closer} n ∧
        RunBreaks [] s.rest n closer ∧ (∀ m ≤ n, ¬RunEnds stop [] s.rest m) ∧
        f = ⟨.expected closer.describe, (c.ahead s.rest).token n⟩ ∧ t = s.behind n) ∧
    ((c.ahead s.rest).isKind 0 .leftParen → ∀ t, (bumpGroup : Parser ρ Unit) c s = .ok () t →
      ∃ us, us ≠ [] ∧ s.rest = us ++ t.rest ∧
        (c.ahead s.rest).matchingParen? 0 = some (us.length - 1)) := by
  refine ⟨⟨?_, ?_⟩, ?_, ?_, ?_⟩
  · rintro ⟨t, ht⟩
    obtain ⟨n, hleast, hbefore, -⟩ := bumpBalancedUntil_ok_ends ht
    exact ⟨n, hleast, hbefore⟩
  · rintro ⟨n, hleast, hbefore⟩
    exact bumpBalancedUntil_ok_of_ends hleast.1 hbefore
  · intro t ht
    obtain ⟨n, hleast, -, hrest⟩ := bumpBalancedUntil_ok_ends ht
    exact ⟨n, hleast, Token.wellNested_of_awaited hleast.1.awaited, hrest⟩
  · intro f t ht
    exact bumpBalancedUntil_error_breaks ht
  · intro hparen t ht
    exact bumpGroup_matchingParen? hstop hparen ht

theorem bumpBalancedUntil_settled_brackets :
    ∃ (t : ParserState Unit) (us : List Token),
      bumpGroup (settingOf .mySql 0 [])
        (initial (Token.tokenize .mySql "(a [;] (b)) c) d")) = .ok () t ∧
      (Token.tokenize .mySql "(a [;] (b)) c) d").dropLast = us ++ t.rest ∧
      ((settingOf .mySql 0 []).ahead
        (Token.tokenize .mySql "(a [;] (b)) c) d").dropLast).matchingParen? 0 =
          some (us.length - 1) := by
  obtain ⟨⟨⟩, t, ht⟩ := exists_ok_of_answer (r := (bumpGroup : Parser Unit Unit)
    (settingOf .mySql 0 []) (initial (Token.tokenize .mySql "(a [;] (b)) c) d")))
    (by decide +kernel)
  obtain ⟨us, -, hus, hclose⟩ := (bumpBalancedUntil_settled (c := settingOf .mySql 0 []) rfl
    (fun _ => false) (initial (Token.tokenize .mySql "(a [;] (b)) c) d"))).2.2.2
      (by decide +kernel) t ht
  exact ⟨t, us, ht, hus, hclose⟩

end Parser

end SqlScript
