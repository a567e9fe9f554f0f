import SqlScript.Proofs.Folding
import SqlScript.Proofs.Lookahead
import SqlScript.Proofs.Nesting

/-!
Two lookaheads that see the same as far as one of them goes, whatever the case of bare names. The
other may end where the first does, or go on behind a semicolon. Most questions of the grammars
cannot tell the two apart.
-/

namespace SqlScript

namespace TokenKind

def isEnd (k : TokenKind) : Prop :=
  k = .eof ∨ k = .semicolon

class Inner (k : TokenKind) : Prop where
  eof : TokenKind.eof.alike k = false
  semicolon : TokenKind.semicolon.alike k = false

@[simp]
theorem eof_alike (k : TokenKind) [h : k.Inner] : TokenKind.eof.alike k = false :=
  h.eof

@[simp]
theorem semicolon_alike (k : TokenKind) [h : k.Inner] : TokenKind.semicolon.alike k = false :=
  h.semicolon

instance : Inner .integer := ⟨rfl, rfl⟩
instance : Inner .float := ⟨rfl, rfl⟩
instance : Inner .string := ⟨rfl, rfl⟩
instance (name : String) : Inner (.identifier name) := ⟨rfl, rfl⟩
instance : Inner .atVariable := ⟨rfl, rfl⟩
instance : Inner .plus := ⟨rfl, rfl⟩
instance : Inner .minus := ⟨rfl, rfl⟩
instance : Inner .star := ⟨rfl, rfl⟩
instance : Inner .eq := ⟨rfl, rfl⟩
instance : Inner .assign := ⟨rfl, rfl⟩
instance : Inner .leftParen := ⟨rfl, rfl⟩
instance : Inner .rightParen := ⟨rfl, rfl⟩
instance : Inner .leftBracket := ⟨rfl, rfl⟩
instance : Inner .rightBracket := ⟨rfl, rfl⟩
instance : Inner .comma := ⟨rfl, rfl⟩
instance : Inner .dot := ⟨rfl, rfl⟩
instance : Inner .question := ⟨rfl, rfl⟩

end TokenKind

open Token (Closed)

/--
The second list goes on like the first, up to its end or to a semicolon behind it.
-/
inductive Alike : List Token → List Token → Prop
  | nil : Alike [] []
  | ends {t : Token} {ts : List Token} (h : t.kind = .semicolon) : Alike [] (t :: ts)
  | cons {t t' : Token} {ts ts' : List Token} (h : t'.kind.folded = t.kind.folded)
    (rest : Alike ts ts') : Alike (t :: ts) (t' :: ts')

namespace Alike

theorem refl (ts : List Token) : Alike ts ts := by
  induction ts with
  | nil => exact .nil
  | cons t ts ih => exact .cons rfl ih

theorem drop {ts ts' : List Token} (h : Alike ts ts') {n : Nat}
    (hn : n ≤ ts.length ∨ ts.length = ts'.length) : Alike (ts.drop n) (ts'.drop n) := by
  induction h generalizing n with
  | nil => simpa using Alike.nil
  | ends h =>
    have : n = 0 := by simpa using hn
    subst this
    exact .ends h
  | cons h rest ih =>
    cases n with
    | zero => exact .cons h rest
    | succ n => exact ih (by simpa using hn)

theorem length_le {ts ts' : List Token} (h : Alike ts ts') : ts.length ≤ ts'.length := by
  induction h with
  | nil => exact Nat.le_refl _
  | ends => exact Nat.zero_le _
  | cons _ _ ih => exact Nat.succ_le_succ ih

theorem kind_eq {ts ts' : List Token} (h : Alike ts ts') {n : Nat} (hn : n < ts.length) :
    (ts'[n]?).map (·.kind.folded) = (ts[n]?).map (·.kind.folded) := by
  induction h generalizing n with
  | nil => rfl
  | ends => simp at hn
  | cons h rest ih =>
    cases n with
    | zero => simpa using h
    | succ n => simpa using ih (Nat.lt_of_succ_lt_succ hn)

theorem kind_length {ts ts' : List Token} (h : Alike ts ts') (hlen : ts.length ≠ ts'.length) :
    (ts'[ts.length]?).map (·.kind) = some .semicolon := by
  induction h with
  | nil => contradiction
  | ends h => simpa using h
  | cons _ _ ih => simpa using ih (by simpa using hlen)

end Alike

/--
How many tokens stand in front of the first separator, or of the end.
-/
def reach : List Token → Nat
  | [] => 0
  | t :: ts => if t.kind = .semicolon then 0 else reach ts + 1

theorem reach_le_length (ts : List Token) : reach ts ≤ ts.length := by
  induction ts with
  | nil => exact Nat.le_refl _
  | cons t ts ih =>
    unfold reach
    simp only [List.length_cons]
    split <;> omega

theorem reach_drop {ts : List Token} {n : Nat} (hn : n ≤ reach ts) :
    reach (ts.drop n) = reach ts - n := by
  induction ts generalizing n with
  | nil => simp [reach]
  | cons t ts ih =>
    unfold reach at hn
    cases n with
    | zero => rfl
    | succ n =>
      split at hn
      · omega
      · rw [List.drop_succ_cons, ih (Nat.le_of_succ_le_succ hn), reach, if_neg ‹_›]
        omega

theorem lt_reach {ts : List Token} {n : Nat} (hn : n ≤ reach ts) (hlt : n < ts.length)
    (h : ts[n].kind ≠ .semicolon) : n < reach ts := by
  induction ts generalizing n with
  | nil => simp at hlt
  | cons t ts ih =>
    unfold reach at hn ⊢
    cases n with
    | zero =>
      have h : t.kind ≠ .semicolon := h
      rw [if_neg h]
      omega
    | succ n =>
      split at hn
      · omega
      · rw [if_neg ‹_›]
        have := ih (Nat.le_of_succ_le_succ hn) (Nat.lt_of_succ_lt_succ hlt) h
        omega

structure Sees (a a' : Lookahead) : Prop where
  dialect : a'.dialect = a.dialect
  limit : a.limit ≤ a'.limit
  stop : a.stop.kind = .eof
  stop' : a'.stop.kind = .eof
  rest : Alike a.rest a'.rest
  /-- Where only the second goes on, the first is the end of something properly nested. -/
  settled : a.rest.length = a'.rest.length ∨ Closed a.rest
  /-- Lookaheads that differ in how deep statements may nest end together. -/
  exact : a.limit < a'.limit → a.rest.length = a'.rest.length

namespace Lookahead

theorem lt_reach_of_kind {a : Lookahead} (hstop : a.stop.kind = .eof) {n : Nat}
    (hn : n ≤ reach a.rest) (h : ¬(a.kind n).isEnd) : n < reach a.rest := by
  have hlt : n < a.rest.length := lt_length_of_kind hstop fun h' => h (.inl h')
  apply lt_reach hn hlt
  intro hsemi
  apply h
  right
  unfold kind
  rw [token_of_lt hlt, hsemi]

theorem matchingParen?_isSome_of_closed {a : Lookahead} (h : Closed a.rest)
    (hstop : a.stop.kind = .eof) {n : Nat} (hn : a.isKind n .leftParen) :
    (a.matchingParen? n).isSome := by
  unfold matchingParen?
  rw [if_pos hn]
  have hkind : a.kind n = .leftParen := TokenKind.eq_leftParen_of_alike hn
  have hlt : n < a.rest.length := lt_length_of_kind hstop (by simp [hkind])
  unfold kind at hkind
  rw [token_of_lt hlt] at hkind
  obtain ⟨closers, hc⟩ := h.drop n
  rw [List.drop_eq_getElem_cons hlt] at hc ⊢
  unfold Token.wellNested at hc
  simp only [hkind] at hc
  unfold closingParen?
  simp only [hkind]
  apply closingParen?_isSome_of_wellNested hc
  · omega
  · simp

end Lookahead

def Covers (a a' : Lookahead) (n : Nat) : Prop :=
  n ≤ a.rest.length ∨ a.rest.length = a'.rest.length

theorem Sees.kind {a a' : Lookahead} (h : Sees a a') {n : Nat} (hn : Covers a a' n) :
    a'.kind n = a.kind n ∨ (∃ name name', a.kind n = .identifier name ∧
        a'.kind n = .identifier name' ∧ name'.toUpper = name.toUpper) ∨
      a.kind n = .eof ∧ a'.kind n = .semicolon := by
  rw [← or_assoc]
  unfold Lookahead.kind
  by_cases hlt : n < a.rest.length
  · left
    have hle := h.rest.length_le
    have heq := h.rest.kind_eq hlt
    rw [Lookahead.token_of_lt hlt, Lookahead.token_of_lt (by omega)]
    apply TokenKind.eq_or_of_folded
    simpa [hlt, show n < a'.rest.length by omega] using heq
  · rw [Lookahead.token_of_le (Nat.le_of_not_lt hlt)]
    by_cases hlen : a.rest.length = a'.rest.length
    · left
      rw [Lookahead.token_of_le (by omega), h.stop, h.stop']
      exact .inl rfl
    · right
      have hn : n = a.rest.length := by
        unfold Covers at hn
        omega
      have hle := h.rest.length_le
      have hlt' : a.rest.length < a'.rest.length := by omega
      have heq := h.rest.kind_length hlen
      refine ⟨h.stop, ?_⟩
      subst hn
      rw [Lookahead.token_of_lt hlt']
      simpa [hlt'] using heq

/--
A question that is answered alike by lookaheads that see the same, if both see what follows the
first `n` tokens.
-/
class Steady (n : Nat) (q : Lookahead → α) : Prop where
  eq {a a' : Lookahead} : Sees a a' → Covers a a' n → q a' = q a

class Rejects (n : Nat) (q : Lookahead → Bool) : Prop where
  not_isEnd {a : Lookahead} : q a → ¬(a.kind n).isEnd

/--
A question with the answer no unless a statement goes on for `n` tokens.
-/
class Firm (n : Nat) (q : Lookahead → Bool) : Prop where
  le_reach {a : Lookahead} : a.stop.kind = .eof → q a → n ≤ reach a.rest

theorem Sees.ask {a a' : Lookahead} (h : Sees a a') {n : Nat} (q : Lookahead → α) [Steady n q]
    (hn : Covers a a' n) : q a' = q a :=
  Steady.eq h hn

theorem Sees.covers_succ {a a' : Lookahead} (h : Sees a a') {n : Nat} (hn : a.kind n ≠ .eof) :
    Covers a a' (n + 1) :=
  .inl (Lookahead.lt_length_of_kind h.stop hn)

theorem Sees.next {a a' : Lookahead} (h : Sees a a') {n : Nat} {q : Lookahead → Bool} [Rejects n q]
    (hq : q a) : Covers a a' (n + 1) :=
  h.covers_succ fun heof => Rejects.not_isEnd hq (.inl heof)

theorem Rejects.eq_false {n : Nat} {q : Lookahead → Bool} [Rejects n q] {a : Lookahead}
    (h : (a.kind n).isEnd) : q a = false :=
  Bool.eq_false_iff.2 fun hq => Rejects.not_isEnd hq h

theorem steady_kind (n : Nat) (f : TokenKind → α) (h : f .eof = f .semicolon)
    (hf : ∀ name, f (.identifier name.toUpper) = f (.identifier name) := by exact fun _ => rfl) :
    Steady n fun a => f (a.kind n) := by
  constructor
  intro a a' hs hn
  obtain heq | ⟨name, name', hname, hname', hcase⟩ | ⟨heof, hsemi⟩ := hs.kind hn
  · rw [heq]
  · rw [hname, hname', ← hf name', hcase, hf name]
  · rw [heof, hsemi, h]

theorem rejects_kind (n : Nat) (f : TokenKind → Bool) (heof : f .eof = false)
    (hsemi : f .semicolon = false) : Rejects n fun a => f (a.kind n) := by
  constructor
  intro a h hend
  cases hend with
  | inl h' => simp [h', heof] at h
  | inr h' => simp [h', hsemi] at h

section

variable {q r : Lookahead → Bool} {n : Nat}

instance (word : Keyword) : Steady n (·.isKeyword n word) :=
  steady_kind n (fun kind => Token.isKeyword ⟨kind, default⟩ word) rfl

instance (words : List Keyword) : Steady n (·.isOneOf n words) :=
  steady_kind n (fun kind => Token.isOneOf ⟨kind, default⟩ words) rfl

instance (word : String) : Steady n (·.isWord n word) :=
  steady_kind n (fun kind => Token.isWord ⟨kind, default⟩ word) rfl fun name =>
    Text.sameLetters_toUpper name word

instance (words : List String) : Steady n fun a => words.any (a.isWord n) :=
  steady_kind n (fun kind => words.any (Token.isWord ⟨kind, default⟩)) rfl fun name =>
    congrArg words.any (funext fun word => Text.sameLetters_toUpper name word)

instance : Steady n (·.keyword? n) :=
  steady_kind n (fun kind => Token.keyword? ⟨kind, default⟩) rfl

instance : Steady n (·.isNamePart n) :=
  steady_kind n (fun kind => Token.isNamePart ⟨kind, default⟩) rfl

instance (word : Keyword) : Rejects n (·.isKeyword n word) :=
  rejects_kind n (fun kind => Token.isKeyword ⟨kind, default⟩ word) rfl rfl

instance (words : List Keyword) : Rejects n (·.isOneOf n words) :=
  rejects_kind n (fun kind => Token.isOneOf ⟨kind, default⟩ words) rfl rfl

instance (word : String) : Rejects n (·.isWord n word) :=
  rejects_kind n (fun kind => Token.isWord ⟨kind, default⟩ word) rfl rfl

instance (words : List String) : Rejects n fun a => words.any (a.isWord n) :=
  rejects_kind n (fun kind => words.any (Token.isWord ⟨kind, default⟩))
    (List.any_eq_false.2 fun _ _ => Bool.false_ne_true)
    (List.any_eq_false.2 fun _ _ => Bool.false_ne_true)

instance : Rejects n fun a => (a.keyword? n).isSome :=
  rejects_kind n (fun kind => (Token.keyword? ⟨kind, default⟩).isSome) rfl rfl

instance : Rejects n (·.isNamePart n) :=
  rejects_kind n (fun kind => Token.isNamePart ⟨kind, default⟩) rfl rfl

instance (kind : TokenKind) [hk : kind.Inner] : Steady n (·.isKind n kind) :=
  steady_kind n (·.alike kind) (by rw [hk.eof, hk.semicolon])

instance (kind : TokenKind) [hk : kind.Inner] : Rejects n (·.isKind n kind) :=
  rejects_kind n (·.alike kind) hk.eof hk.semicolon

instance : Steady n (·.isName n) where
  eq := by
    intro a a' hs hn
    unfold Lookahead.isName
    rw [hs.dialect]
    obtain heq | ⟨name, name', hname, hname', -⟩ | ⟨heof, hsemi⟩ := hs.kind hn
    · rw [heq]
    · rw [hname, hname']
    · rw [heof, hsemi]

instance : Rejects n (·.isName n) where
  not_isEnd := by
    intro a h hend
    unfold Lookahead.isName at h
    cases hend with
    | inl h' => simp [h'] at h
    | inr h' => simp [h'] at h

instance [Rejects 0 q] : Firm 1 q where
  le_reach hstop h := Lookahead.lt_reach_of_kind hstop (Nat.zero_le _) (Rejects.not_isEnd h)

instance [Firm n q] [Rejects n r] : Firm (n + 1) fun a => q a && r a where
  le_reach hstop h := by
    rw [Bool.and_eq_true] at h
    exact Lookahead.lt_reach_of_kind hstop (Firm.le_reach hstop h.1) (Rejects.not_isEnd h.2)

instance [Firm n q] [Firm n r] : Firm n fun a => q a || r a where
  le_reach hstop h := by
    rw [Bool.or_eq_true] at h
    cases h with
    | inl h => exact Firm.le_reach hstop h
    | inr h => exact Firm.le_reach hstop h

instance [Firm n q] : Firm n fun a => q a && r a where
  le_reach hstop h := by
    rw [Bool.and_eq_true] at h
    exact Firm.le_reach hstop h.1

instance [Rejects n q] [Rejects n r] : Rejects n fun a => q a || r a where
  not_isEnd h := by
    rw [Bool.or_eq_true] at h
    cases h with
    | inl h => exact Rejects.not_isEnd h
    | inr h => exact Rejects.not_isEnd h

instance (answer : α) : Steady n fun _ => answer where
  eq _ _ := rfl

instance [Steady n q] : Steady n fun a => !q a where
  eq hs hn := by rw [Steady.eq (q := q) hs hn]

instance [Steady n q] [Steady n r] : Steady n fun a => q a || r a where
  eq hs hn := by rw [Steady.eq (q := q) hs hn, Steady.eq (q := r) hs hn]

theorem Steady.and {m : Nat} (hq : Steady n q) (hfirm : Firm m q) (hr : Steady m r) :
    Steady n fun a => q a && r a := by
  constructor
  intro a a' hs hn
  rw [hq.eq hs hn]
  cases h : q a with
  | false => rfl
  | true =>
    have hm : Covers a a' m :=
      .inl (Nat.le_trans (hfirm.le_reach hs.stop h) (reach_le_length a.rest))
    rw [hr.eq hs hm]

instance [hq : Steady n q] [hr : Steady n r] : Steady n fun a => q a && r a where
  eq hs hn := by rw [hq.eq hs hn, hr.eq hs hn]

instance [hq : Steady n q] [Rejects n q] [hr : Steady (n + 1) r] : Steady n fun a => q a && r a where
  eq := by
    intro a a' hs hn
    rw [hq.eq hs hn]
    cases h : q a with
    | false => rfl
    | true => rw [hr.eq hs (hs.next h)]

instance [hq : Steady 0 q] [hfirm : Firm 1 q] [hr : Steady 1 r] : Steady 0 fun a => q a && r a :=
  hq.and hfirm hr

instance [hq : Steady 0 q] [hfirm : Firm 2 q] [hr : Steady 2 r] : Steady 0 fun a => q a && r a :=
  hq.and hfirm hr

end

namespace Alike

variable {ts ts' : List Token}

/-- Only a group that is still open where the first list ends can be closed elsewhere. -/
theorem closingParen? (h : Alike ts ts') (depth index : Nat) :
    Lookahead.closingParen? depth index ts' = Lookahead.closingParen? depth index ts ∨
      Lookahead.closingParen? depth index ts = none ∧ ts.length ≠ ts'.length := by
  induction h generalizing depth index with
  | nil => exact .inl rfl
  | ends => exact .inr ⟨rfl, by simp⟩
  | @cons t t' _ ts' hk _ ih =>
    have hhead : Lookahead.closingParen? depth index (t' :: ts') =
        Lookahead.closingParen? depth index (t :: ts') :=
      TokenKind.congr_folded
        (f := fun kind => Lookahead.closingParen? depth index (⟨kind, default⟩ :: ts'))
        (fun _ => rfl) hk
    rw [hhead]
    unfold Lookahead.closingParen?
    simp only [List.length_cons, ne_eq, Nat.add_right_cancel_iff]
    split
    · exact ih ..
    · split
      · exact .inl rfl
      · exact ih ..
    · exact ih ..

theorem closingEnd? (h : Alike ts ts') (depth index : Nat) :
    Lookahead.closingEnd? depth index ts' = Lookahead.closingEnd? depth index ts ∨
      Lookahead.closingEnd? depth index ts = none ∧ ts.length ≠ ts'.length := by
  induction h generalizing depth index with
  | nil => exact .inl rfl
  | ends => exact .inr ⟨rfl, by simp⟩
  | @cons t t' _ ts' hk _ ih =>
    have hhead : Lookahead.closingEnd? depth index (t' :: ts') =
        Lookahead.closingEnd? depth index (t :: ts') :=
      TokenKind.congr_folded
        (f := fun kind => Lookahead.closingEnd? depth index (⟨kind, default⟩ :: ts'))
        (fun _ => rfl) hk
    rw [hhead]
    unfold Lookahead.closingEnd?
    simp only [List.length_cons, ne_eq, Nat.add_right_cancel_iff]
    split
    · exact ih ..
    · split
      · exact .inl rfl
      · exact ih ..
    · exact ih ..

theorem balancedRun (h : Alike ts ts') {stop : Token → Bool}
    (hstop : ∀ t t', t'.kind.folded = t.kind.folded → stop t' = stop t) (closers : List TokenKind)
    (n : Nat) :
    Lookahead.balancedRun stop closers n ts' = Lookahead.balancedRun stop closers n ts ∨
      (Lookahead.balancedRun stop closers n ts).2.isSome ∧ ts.length ≠ ts'.length := by
  induction h generalizing closers n with
  | nil => exact .inl rfl
  | ends h =>
    unfold Lookahead.balancedRun
    simp only [h]
    cases closers with
    | nil => exact .inl rfl
    | cons => exact .inr ⟨rfl, by simp⟩
  | @cons t t' _ ts' hk _ ih =>
    have hhead : Lookahead.balancedRun stop closers n (t' :: ts') =
        Lookahead.balancedRun stop closers n (t :: ts') := by
      unfold Lookahead.balancedRun
      rw [hstop _ _ hk]
      obtain heq | ⟨name, name', hname, hname', -⟩ := TokenKind.eq_or_of_folded hk
      · rw [heq]
      · rw [hname, hname']
    rw [hhead]
    unfold Lookahead.balancedRun
    simp only [List.length_cons, ne_eq, Nat.add_right_cancel_iff]
    split
    · exact ih ..
    · exact ih ..
    · split
      · exact .inl rfl
      · split
        · exact ih ..
        · exact .inl rfl
    · split
      · exact .inl rfl
      · split
        · exact ih ..
        · exact .inl rfl
    · split
      · exact .inl rfl
      · exact ih ..
    · split
      · exact .inl rfl
      · exact ih ..

/-- A separator inside a group is passed over only if the group is closed behind it. -/
theorem anyAtTop (h : Alike ts ts') {p : Token → Bool}
    (hp : ∀ t t', t'.kind.folded = t.kind.folded → p t' = p t) (closers : List TokenKind) {depth : Nat}
    (hclosed : ts.length = ts'.length ∨ Token.wellNested closers ts ∧ depth ≤ closers.length) :
    Lookahead.anyAtTop p depth ts' = Lookahead.anyAtTop p depth ts := by
  induction h generalizing closers depth with
  | nil => rfl
  | ends h =>
    unfold Lookahead.anyAtTop
    simp only [h]
    have hdepth : depth = 0 := by
      obtain hlen | ⟨hn, hd⟩ := hclosed
      · contradiction
      · unfold Token.wellNested at hn
        rw [List.isEmpty_iff] at hn
        subst hn
        simpa using hd
    rw [hdepth]
    rfl
  | @cons t t' ts ts' hk _ ih =>
    have hhead : Lookahead.anyAtTop p depth (t' :: ts') = Lookahead.anyAtTop p depth (t :: ts') := by
      unfold Lookahead.anyAtTop
      rw [hp _ _ hk]
      obtain heq | ⟨name, name', hname, hname', -⟩ := TokenKind.eq_or_of_folded hk
      · rw [heq]
      · rw [hname, hname']
    rw [hhead]
    unfold Lookahead.anyAtTop
    simp only [List.length_cons, Nat.add_right_cancel_iff] at hclosed
    unfold Token.wellNested at hclosed
    split
    · rename_i hk
      simp only [hk] at hclosed
      exact ih _ (hclosed.imp_right fun h => ⟨h.1, by simpa using h.2⟩)
    · rename_i hk
      simp only [hk] at hclosed
      exact ih _ (hclosed.imp_right fun h => ⟨h.1, by simpa using h.2⟩)
    · rename_i hk
      simp only [hk] at hclosed
      cases depth with
      | zero => rfl
      | succ depth =>
        cases closers with
        | nil => simp_all
        | cons closer outer =>
          simp only [Bool.and_eq_true, List.length_cons, Nat.add_le_add_iff_right] at hclosed
          exact ih _ (hclosed.imp_right fun h => ⟨h.1.2, h.2⟩)
    · rename_i hk
      simp only [hk] at hclosed
      cases depth with
      | zero => rfl
      | succ depth =>
        cases closers with
        | nil => simp_all
        | cons closer outer =>
          simp only [Bool.and_eq_true, List.length_cons, Nat.add_le_add_iff_right] at hclosed
          exact ih _ (hclosed.imp_right fun h => ⟨h.1.2, h.2⟩)
    · rename_i hk
      simp only [hk] at hclosed
      rw [ih _ hclosed]
    · split at hclosed
      · contradiction
      · contradiction
      · contradiction
      · contradiction
      · rw [ih _ hclosed]

theorem takeWhile_length (h : Alike ts ts') {p : Token → Bool}
    (hp : ∀ t t', t'.kind.folded = t.kind.folded → p t' = p t)
    (hsemi : ∀ t, t.kind = .semicolon → p t = false) :
    (ts'.takeWhile p).length = (ts.takeWhile p).length := by
  induction h with
  | nil => rfl
  | ends h => simp [hsemi _ h]
  | @cons t t' _ _ hk _ ih =>
    rw [List.takeWhile_cons, List.takeWhile_cons, hp t t' hk]
    split
    · simp [ih]
    · rfl

end Alike

def leadingParens (ts : List Token) : Nat :=
  (ts.takeWhile fun t => t.kind.alike .leftParen).length

/--
The `CASE` behind `n` tokens is ended in the second lookahead only, which goes on where the first one
ends.
-/
structure CaseReachesOut (a a' : Lookahead) (n : Nat) : Prop where
  isCase : a.isKeyword n .CASE
  isOpen : a.caseExtent? n = none
  ends : (a'.caseExtent? n).isSome
  longer : a.rest.length ≠ a'.rest.length

theorem leadingParens_le_length (ts : List Token) : leadingParens ts ≤ ts.length :=
  (List.takeWhile_prefix _).length_le

namespace Sees

variable {a a' : Lookahead} {n : Nat}

theorem matchingParen? (h : Sees a a') (hn : Covers a a' n) :
    a'.matchingParen? n = a.matchingParen? n := by
  have hsteady := Steady.eq (q := (·.isKind n .leftParen)) h hn
  have hclosed := fun hc => a.matchingParen?_isSome_of_closed (n := n) hc h.stop
  unfold Lookahead.matchingParen? at hclosed ⊢
  rw [hsteady]
  split
  · rename_i hparen
    simp only [hparen, if_true, forall_const] at hclosed
    obtain heq | ⟨hnone, hlen⟩ := (h.rest.drop hn).closingParen? 0 n
    · exact heq
    · obtain hlen' | hc := h.settled
      · simp [hlen'] at hlen
      · simp [hnone] at hclosed
        contradiction
  · rfl

theorem caseExtent? (h : Sees a a') (hn : Covers a a' n) :
    a'.caseExtent? n = a.caseExtent? n ∨ CaseReachesOut a a' n := by
  have hsteady := Steady.eq (q := (·.isKeyword n .CASE)) h hn
  cases hcase : a.isKeyword n .CASE with
  | false =>
    left
    unfold Lookahead.caseExtent?
    rw [hsteady, hcase]
    rfl
  | true =>
    obtain heq | ⟨hnone, hlen⟩ := (h.rest.drop hn).closingEnd? 0 n
    · left
      unfold Lookahead.caseExtent?
      rw [hsteady, heq]
    · have hfirst : a.caseExtent? n = none := by
        unfold Lookahead.caseExtent?
        rw [if_pos hcase]
        exact hnone
      cases hsecond : a'.caseExtent? n with
      | none => exact .inl hfirst.symm
      | some extent =>
        refine .inr ⟨hcase, hfirst, by simp [hsecond], ?_⟩
        intro hlen'
        simp [hlen'] at hlen

theorem groupMayBeQuery (h : Sees a a') (hn : Covers a a' n) :
    a'.groupMayBeQuery n = a.groupMayBeQuery n := by
  unfold Lookahead.groupMayBeQuery
  rw [h.matchingParen? hn]
  split
  · rfl
  · rename_i close hclose
    have hlt := (Lookahead.lt_length_of_matchingParen? hclose).2
    obtain heq | ⟨name, name', hname, hname', -⟩ | ⟨heof, hsemi⟩ :=
      h.kind (n := close + 1) (.inl hlt)
    · rw [heq]
    · rw [hname, hname']
    · rw [heof, hsemi]

theorem leadingParens (h : Sees a a') (hn : Covers a a' n) :
    SqlScript.leadingParens (a'.rest.drop n) = SqlScript.leadingParens (a.rest.drop n) := by
  unfold SqlScript.leadingParens
  apply (h.rest.drop hn).takeWhile_length
  · exact fun t t' hk => TokenKind.alike_congr hk .leftParen
  · intro t hk
    rw [hk]
    rfl

/--
Only if the first lookahead lets statements nest less deeply, and more parentheses than that are
opened, do the two differ.
-/
theorem opensSubquery (h : Sees a a') (hn : Covers a a' n) (starts : List Keyword) :
    a'.opensSubquery n starts = a.opensSubquery n starts ∨
      a.limit < a'.limit ∧ a.limit < SqlScript.leadingParens (a.rest.drop n) ∧
        a.opensSubquery n starts := by
  have hle := leadingParens_le_length (a.rest.drop n)
  have hparens := h.leadingParens hn
  simp only [List.length_drop] at hle
  unfold SqlScript.leadingParens at hle hparens
  unfold Lookahead.opensSubquery SqlScript.leadingParens
  rw [hparens]
  generalize ((a.rest.drop n).takeWhile (·.kind.alike .leftParen)).length = opened at *
  have hcovers : ∀ m ≤ n + opened, Covers a a' m := by
    intro m hm
    unfold Covers at hn ⊢
    omega
  have hword : a'.isOneOf (n + opened) starts = a.isOneOf (n + opened) starts :=
    Steady.eq (n := n + opened) (q := (·.isOneOf (n + opened) starts)) h
      (hcovers _ (Nat.le_refl _))
  have hgroups : (List.range' (n + 1) (opened - 1)).all a'.groupMayBeQuery =
      (List.range' (n + 1) (opened - 1)).all a.groupMayBeQuery := by
    rw [Bool.eq_iff_iff, List.all_eq_true, List.all_eq_true]
    apply forall₂_congr
    intro m hm
    rw [List.mem_range'_1] at hm
    rw [h.groupMayBeQuery (hcovers m (by omega))]
  simp only [hword, hgroups]
  have hlimit := h.limit
  by_cases hdeep : a.limit < a'.limit ∧ a.limit < opened
  · cases decide (0 < opened) && a.isOneOf (n + opened) starts with
    | false => exact .inl rfl
    | true => simp [hdeep]
  · left
    have : decide (a'.limit < opened) = decide (a.limit < opened) := by
      rw [decide_eq_decide]
      omega
    rw [this]

theorem topLevelAny (h : Sees a a') {p : Token → Bool}
    (hp : ∀ t t', t'.kind.folded = t.kind.folded → p t' = p t) : a'.topLevelAny p = a.topLevelAny p := by
  unfold Lookahead.topLevelAny
  obtain hlen | ⟨closers, hc⟩ := h.settled
  · exact h.rest.anyAtTop hp [] (.inl hlen)
  · exact h.rest.anyAtTop hp closers (.inr ⟨hc, Nat.zero_le _⟩)

end Sees

namespace Sees

variable {a a' : Lookahead} {n : Nat} {β : Type}

theorem find?_isOneOf (h : Sees a a') (hn : Covers a a' n) (entries : List (β × List Keyword)) :
    entries.find? (a'.isOneOf n ·.2) = entries.find? (a.isOneOf n ·.2) := by
  congr
  funext entry
  exact h.ask (·.isOneOf n entry.2) hn

theorem find?_isWord (h : Sees a a') (hn : Covers a a' n) (entries : List (β × List String)) :
    entries.find? (·.2.any (a'.isWord n)) = entries.find? (·.2.any (a.isWord n)) := by
  congr
  funext entry
  exact h.ask (fun a => entry.2.any (a.isWord n)) hn

end Sees

end SqlScript
