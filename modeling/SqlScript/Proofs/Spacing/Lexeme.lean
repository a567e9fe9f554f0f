import Mathlib.Logic.Basic
import SqlScript.Proofs.Joined.Lexeme

/-!
What a text starts with when it is cut off behind that. A token is told by its own characters: it
stays what it is when nothing follows it, and when what was in front of it is gone.
-/

namespace SqlScript

namespace Token

variable {d : Dialect} {c : Char} {cs : List Char}

theorem takeWhile_take {p : Char → Bool} {n : Nat} (hn : (cs.takeWhile p).length ≤ n) :
    (cs.take n).takeWhile p = cs.takeWhile p := by
  rw [← List.take_takeWhile, List.take_of_length_le hn]

theorem head?_any_take {p : Char → Bool} (n : Nat) (h : cs.head?.any p = false) :
    (cs.take n).head?.any p = false := by
  rw [List.head?_take]
  split
  · rfl
  · exact h

theorem closingQuote?_cut {quote : Char} {escapes : Bool} {n m : Nat}
    (h : closingQuote? quote escapes n cs = some m) :
    ∃ front back, cs = front ++ back ∧ m = n + front.length ∧
      ∀ k, closingQuote? quote escapes n (front ++ back.take k) = some m := by
  fun_induction closingQuote? quote escapes n cs with
  | case1 => contradiction
  | case2 => contradiction
  | case3 n c hescape next rest ih =>
    obtain ⟨front, back, rfl, rfl, hfront⟩ := ih h
    refine ⟨c :: next :: front, back, rfl, by simp; omega, fun k => ?_⟩
    rw [List.cons_append, List.cons_append, closingQuote?, if_pos hescape]
    exact hfront k
  | case4 n c hescape hc =>
    cases h
    refine ⟨[c], [], rfl, rfl, fun k => ?_⟩
    rw [List.take_nil, List.append_nil, closingQuote?, if_neg hescape, if_pos hc]
  | case5 n c hescape hc next rest hnext ih =>
    obtain ⟨front, back, rfl, rfl, hfront⟩ := ih h
    refine ⟨c :: next :: front, back, rfl, by simp; omega, fun k => ?_⟩
    rw [List.cons_append, List.cons_append, closingQuote?, if_neg hescape, if_pos hc]
    simpa only [if_pos hnext] using hfront k
  | case6 n c hescape hc next rest hnext =>
    cases h
    refine ⟨[c], next :: rest, rfl, rfl, fun k => ?_⟩
    cases k with
    | zero => rw [List.take_zero, List.append_nil, closingQuote?, if_neg hescape, if_pos hc]
    | succ k =>
      rw [List.take_succ_cons, List.singleton_append, closingQuote?, if_neg hescape, if_pos hc]
      simp only [if_neg hnext]
  | case7 n c cs hescape hc ih =>
    obtain ⟨front, back, rfl, rfl, hfront⟩ := ih h
    refine ⟨c :: front, back, rfl, by simp; omega, fun k => ?_⟩
    rw [List.cons_append]
    unfold closingQuote?
    rw [if_neg hescape, if_neg hc]
    exact hfront k

theorem closingQuote?_take {quote : Char} {escapes : Bool} {n m k : Nat}
    (h : closingQuote? quote escapes n cs = some m) (hk : m ≤ n + k) :
    closingQuote? quote escapes n (cs.take k) = some m := by
  obtain ⟨front, back, rfl, rfl, hfront⟩ := closingQuote?_cut h
  obtain ⟨k, rfl⟩ := Nat.exists_eq_add_of_le (Nat.le_of_add_le_add_left hk)
  rw [List.take_length_add_append]
  exact hfront k

/--
What is read off the text up to the end of the lexeme, or to any place behind, is the lexeme.
-/
def Lexeme.Cut (cs : List Char) (l : Lexeme) (read : List Char → Lexeme) : Prop :=
  l.kind.isValid → ∀ n, l.more ≤ n → read (cs.take n) = l

theorem quotedLiteral_take (kind : TokenKind) (quote : Char) (escapes : Bool) (before : Nat) :
    Lexeme.Cut cs (quotedLiteral kind quote escapes before cs)
      (quotedLiteral kind quote escapes before) := by
  intro hvalid k hk
  unfold quotedLiteral at hvalid hk ⊢
  cases h : closingQuote? quote escapes before (cs.drop before) with
  | none =>
    rw [h] at hvalid
    contradiction
  | some n =>
    rw [h] at hk
    have hk : n ≤ k := hk
    rw [List.drop_take, closingQuote?_take h (by omega)]

theorem quotedName_take (quote : Char) :
    Lexeme.Cut cs (quotedName quote cs) (quotedName quote) := by
  intro hvalid k hk
  unfold quotedName at hvalid hk ⊢
  cases h : closingQuote? quote false 0 cs with
  | none =>
    rw [h] at hvalid
    contradiction
  | some n =>
    rw [h] at hvalid hk
    dsimp only at hvalid hk ⊢
    generalize hname : undouble quote (cs.take (n - 1)) = name at hvalid hk ⊢
    cases name with
    | nil => contradiction
    | cons c name =>
      have hk : n ≤ k := hk
      have htaken : (cs.take k).take (n - 1) = cs.take (n - 1) := by
        rw [List.take_take, Nat.min_eq_left (by omega)]
      rw [closingQuote?_take h (by omega)]
      dsimp only
      rw [htaken, hname]

theorem countDigits_take {n : Nat} (hn : countDigits cs ≤ n) :
    countDigits (cs.take n) = countDigits cs := by
  unfold countDigits at hn ⊢
  rw [takeWhile_take hn]

theorem fraction?_eq_none {c : Char} (hc : c ≠ '.') (cs : List Char) : fraction? (c :: cs) = none := by
  unfold fraction?
  split
  · rename_i heq
    cases heq
    contradiction
  · rfl

theorem fraction?_take {n : Nat} (hn : (fraction? cs).getD 0 ≤ n)
    (hcut : fraction? cs = none → n = 0 ∨ (cs.drop n).head?.any Text.isLetter = false) :
    fraction? (cs.take n) = fraction? cs := by
  cases cs with
  | nil => rw [List.take_nil]
  | cons c cs =>
    by_cases hc : c = '.'
    · subst hc
      cases n with
      | zero =>
        cases h : fraction? ('.' :: cs) with
        | none => rfl
        | some k =>
          rw [h] at hn
          rw [fraction?] at h
          split at h
          · contradiction
          · cases h
            contradiction
      | succ n =>
        rw [List.drop_succ_cons] at hcut
        rw [List.take_succ_cons]
        rw [fraction?] at hn hcut ⊢
        rw [fraction?]
        by_cases hletter : cs.head?.any Text.isLetter
        · -- What is cut off starts behind that letter.
          rw [if_pos hletter] at hcut ⊢
          cases n with
          | zero =>
            obtain hzero | hnot := hcut rfl
            · contradiction
            · rw [List.drop_zero, hletter] at hnot
              contradiction
          | succ n => rw [if_pos (by rw [List.head?_take, if_neg (by simp)]; exact hletter)]
        · rw [if_neg hletter] at hn ⊢
          rw [if_neg (by rw [head?_any_take _ (Bool.not_eq_true _ ▸ hletter)]; simp),
            countDigits_take (by simpa using hn)]
    · rw [fraction?_eq_none hc]
      cases n with
      | zero => rfl
      | succ n => rw [List.take_succ_cons, fraction?_eq_none hc]

theorem countDigits_pos (h : cs.head?.any Char.isDigit) : 0 < countDigits cs := by
  cases cs with
  | nil => contradiction
  | cons c cs =>
    have h : c.isDigit := h
    simp [countDigits, h]

theorem head?_any_take_of_pos {p : Char → Bool} {n : Nat} (hn : 0 < n) (h : cs.head?.any p) :
    (cs.take n).head?.any p := by
  rw [List.head?_take, if_neg (Nat.ne_of_gt hn)]
  exact h

theorem exponent?_take {k n : Nat} (h : exponent? cs = some k) (hn : k ≤ n) :
    exponent? (cs.take n) = some k := by
  match cs with
  | [] => contradiction
  | [c] =>
    rw [exponent?] at h
    split at h <;> contradiction
  | c :: sign :: rest =>
    rw [exponent?] at h
    split at h
    · rename_i hc
      split at h
      · rename_i hsign
        split at h
        · rename_i hdigit
          cases h
          obtain ⟨n, rfl⟩ := Nat.exists_eq_add_of_le' (Nat.le_of_add_left_le hn)
          have hn : countDigits rest ≤ n := by omega
          have hpos := countDigits_pos hdigit
          rw [List.take_succ_cons, List.take_succ_cons, exponent?, if_pos hc, if_pos hsign,
            if_pos (head?_any_take_of_pos (by omega) hdigit), countDigits_take hn]
        · contradiction
      · rename_i hsign
        split at h
        · rename_i hdigit
          cases h
          have hpos : 0 < countDigits (sign :: rest) := countDigits_pos hdigit
          obtain ⟨n, rfl⟩ := Nat.exists_eq_add_of_le' (show 2 ≤ n by omega)
          have hdigits : countDigits ((sign :: rest).take (n + 1)) = countDigits (sign :: rest) :=
            countDigits_take (by omega)
          rw [List.take_succ_cons] at hdigits
          rw [List.take_succ_cons, List.take_succ_cons, exponent?, if_pos hc, if_neg hsign,
            if_pos hdigit, hdigits]
        · contradiction
    · contradiction

theorem exponent?_append {front : List Char} (h : (exponent? front).isSome) (back : List Char) :
    (exponent? (front ++ back)).isSome := by
  match front with
  | [] => contradiction
  | [c] =>
    rw [exponent?] at h
    split at h <;> contradiction
  | c :: sign :: rest =>
    rw [List.cons_append, List.cons_append]
    rw [exponent?] at h ⊢
    split at h
    · rename_i hc
      rw [if_pos hc]
      split at h
      · rename_i hsign
        rw [if_pos hsign]
        split at h
        · rename_i hdigit
          rw [if_pos]
          · rfl
          · cases rest with
            | nil => contradiction
            | cons d rest => exact hdigit
        · contradiction
      · rename_i hsign
        rw [if_neg hsign]
        split at h
        · rename_i hdigit
          rw [if_pos hdigit]
          rfl
        · contradiction
    · contradiction

theorem exponent?_take_none (h : exponent? cs = none) (n : Nat) : exponent? (cs.take n) = none := by
  rw [← Option.not_isSome_iff_eq_none] at h ⊢
  intro hsome
  apply h
  rw [← List.take_append_drop n cs]
  exact exponent?_append hsome _

theorem fraction?_eq_none_of_exponent? {k : Nat} (h : exponent? cs = some k) (n : Nat) :
    fraction? (cs.take n) = none := by
  cases n with
  | zero => rfl
  | succ n =>
    cases cs with
    | nil => rfl
    | cons c cs =>
      rw [List.take_succ_cons]
      unfold fraction?
      split
      · rename_i hpoint
        cases hpoint
        unfold exponent? at h
        contradiction
      · rfl

def decimalLength (cs : List Char) : Nat :=
  let whole := countDigits cs
  let mantissa := whole + (fraction? (cs.drop whole)).getD 0
  mantissa + (exponent? (cs.drop mantissa)).getD 0

theorem more_decimal (cs : List Char) : (decimal cs).more = decimalLength cs - 1 :=
  rfl

theorem decimal_take {n : Nat} (hn : decimalLength cs ≤ n)
    (hcut : n = decimalLength cs ∨ (cs.drop n).head?.any Text.isLetter = false) :
    decimal (cs.take n) = decimal cs := by
  unfold decimalLength at hn hcut
  unfold decimal
  dsimp only at hn hcut ⊢
  generalize hwhole : countDigits cs = whole at hn hcut ⊢
  generalize hfraction : fraction? (cs.drop whole) = fraction at hn hcut ⊢
  generalize hexponent : exponent? (cs.drop (whole + fraction.getD 0)) = exponent at hn hcut ⊢
  have hwhole' : countDigits (cs.take n) = whole := by
    rw [countDigits_take (by omega), hwhole]
  have hfraction' : fraction? ((cs.take n).drop whole) = fraction := by
    rw [List.drop_take]
    cases exponent with
    | some k =>
      cases fraction with
      | some j =>
        rw [← hfraction]
        apply fraction?_take
        · rw [hfraction]
          omega
        · intro hnone
          rw [hfraction] at hnone
          contradiction
      | none =>
        rw [Option.getD_none, Nat.add_zero] at hexponent
        exact fraction?_eq_none_of_exponent? hexponent _
    | none =>
      rw [← hfraction]
      apply fraction?_take
      · rw [hfraction]
        omega
      · intro hnone
        rw [hfraction] at hnone
        subst hnone
        rw [List.drop_drop, Nat.add_sub_cancel' (by omega)]
        refine hcut.imp_left fun hexact => ?_
        simp only [Option.getD_none] at hexact
        omega
  have hexponent' : exponent? ((cs.take n).drop (whole + fraction.getD 0)) = exponent := by
    rw [List.drop_take]
    cases exponent with
    | some k =>
      simp only [Option.getD_some] at hn
      exact exponent?_take hexponent (by omega)
    | none => exact exponent?_take_none hexponent _
  rw [hwhole', hfraction', hexponent']

theorem not_isLetter_of_isDigit (h : c.isDigit) : Text.isLetter c = false := by
  simp only [Char.isDigit, Bool.and_eq_true, decide_eq_true_eq] at h
  have hle : c.toNat ≤ 57 := h.2
  unfold Text.isLetter
  rw [if_pos (Nat.lt_of_le_of_lt hle (by decide)), Bool.eq_false_iff]
  intro halpha
  obtain hupper | hlower := (Bool.or_eq_true _ _).mp halpha
  · have hge : 65 ≤ c.toNat := (of_decide_eq_true hupper).1
    omega
  · have hge : 97 ≤ c.toNat := of_decide_eq_true ((Bool.and_eq_true _ _).mp hlower).1
    omega

theorem decimalLength_pos (hc : c.isDigit ∨ c = '.' ∧ cs.head?.any Char.isDigit) :
    0 < decimalLength (c :: cs) := by
  unfold decimalLength
  dsimp only
  obtain hc | ⟨rfl, hdigit⟩ := hc
  · have hpos : 0 < countDigits (c :: cs) := countDigits_pos hc
    omega
  · have hletter : cs.head?.any Text.isLetter = false := by
      cases cs with
      | nil => rfl
      | cons c cs => exact not_isLetter_of_isDigit hdigit
    have hwhole : countDigits ('.' :: cs) = 0 := rfl
    rw [hwhole, List.drop_zero, fraction?, if_neg (by simp [hletter])]
    simp only [Option.getD_some]
    omega

theorem number_cases (c : Char) (cs : List Char) :
    number (c :: cs) = decimal (c :: cs) ∨
      ∃ base digit rest, c = '0' ∧ cs = base :: digit :: rest ∧
        ((base == 'x' || base == 'X') && Text.isHexDigit digit ∨
          ¬((base == 'x' || base == 'X') && Text.isHexDigit digit) ∧
            ((base == 'b' || base == 'B') && isBit digit)) := by
  generalize hcs : c :: cs = ds
  unfold number
  split
  · rename_i base digit rest
    cases hcs
    split
    · rename_i hhex
      exact .inr ⟨base, digit, rest, rfl, rfl, .inl hhex⟩
    · rename_i hhex
      split
      · rename_i hbit
        exact .inr ⟨base, digit, rest, rfl, rfl, .inr ⟨hhex, hbit⟩⟩
      · exact .inl rfl
  · exact .inl rfl

theorem number_hex {base digit : Char} (h : (base == 'x' || base == 'X') && Text.isHexDigit digit)
    (rest : List Char) : number ('0' :: base :: digit :: rest) =
      ⟨.hexString, (rest.takeWhile Text.isHexDigit).length + 2⟩ := by
  rw [number, if_pos h]

theorem number_bits {base digit : Char}
    (hhex : ¬((base == 'x' || base == 'X') && Text.isHexDigit digit))
    (h : (base == 'b' || base == 'B') && isBit digit) (rest : List Char) :
    number ('0' :: base :: digit :: rest) = ⟨.bitString, (rest.takeWhile isBit).length + 2⟩ := by
  rw [number, if_neg hhex, if_pos h]

theorem number_cut {cs front back : List Char} (hcs : cs = front ++ back)
    (h : number (c :: cs) = decimal (c :: cs)) : number (c :: front) = decimal (c :: front) := by
  have hkind : ∀ cs, (decimal cs).kind = .float ∨ (decimal cs).kind = .integer := by
    intro cs
    unfold decimal
    dsimp only
    split
    · exact .inl rfl
    · exact .inr rfl
  obtain hfront | ⟨base, digit, rest, rfl, rfl, hhex | ⟨hhex, hbits⟩⟩ := number_cases c front
  · exact hfront
  · subst hcs
    rw [List.cons_append, List.cons_append, number_hex hhex] at h
    have := hkind ('0' :: base :: digit :: (rest ++ back))
    rw [← h] at this
    simp at this
  · subst hcs
    rw [List.cons_append, List.cons_append, number_bits hhex hbits] at h
    have := hkind ('0' :: base :: digit :: (rest ++ back))
    rw [← h] at this
    simp at this

theorem number_take (hc : c.isDigit ∨ c = '.' ∧ cs.head?.any Char.isDigit) {n : Nat}
    (hn : (number (c :: cs)).more ≤ n)
    (hcut : n = (number (c :: cs)).more ∨ (cs.drop n).head?.any Text.isLetter = false) :
    number (c :: cs.take n) = number (c :: cs) := by
  obtain h | ⟨base, digit, rest, rfl, rfl, hhex | ⟨hhex, hbits⟩⟩ := number_cases c cs
  · have hpos := decimalLength_pos hc
    rw [h, more_decimal] at hn hcut
    rw [h, number_cut (List.take_append_drop _ cs).symm h, ← List.take_succ_cons]
    apply decimal_take
    · omega
    · rw [List.drop_succ_cons]
      exact hcut.imp_left fun hexact => by omega
  · rw [number_hex hhex] at hn ⊢
    obtain ⟨n, rfl⟩ := Nat.exists_eq_add_of_le' (Nat.le_of_add_left_le hn)
    rw [List.take_succ_cons, List.take_succ_cons, number_hex hhex,
      takeWhile_take (Nat.le_of_add_le_add_right hn)]
  · rw [number_bits hhex hbits] at hn ⊢
    obtain ⟨n, rfl⟩ := Nat.exists_eq_add_of_le' (Nat.le_of_add_left_le hn)
    rw [List.take_succ_cons, List.take_succ_cons, number_bits hhex hbits,
      takeWhile_take (Nat.le_of_add_le_add_right hn)]

theorem indexOf?_cut {pattern : List Char} {n m : Nat} (h : indexOf? pattern n cs = some m) :
    ∃ front back, cs = front ++ pattern ++ back ∧ m = n + front.length ∧
      indexOf? pattern n (front ++ pattern) = some m := by
  induction cs generalizing n with
  | nil =>
    unfold indexOf? at h
    split at h
    · rename_i hempty
      cases h
      rw [List.isEmpty_iff] at hempty
      subst hempty
      exact ⟨[], [], rfl, rfl, rfl⟩
    · contradiction
  | cons c cs ih =>
    unfold indexOf? at h
    split at h
    · rename_i hpre
      cases h
      obtain ⟨back, hback⟩ := List.isPrefixOf_iff_prefix.1 hpre
      refine ⟨[], back, hback.symm, rfl, ?_⟩
      cases pattern with
      | nil => rfl
      | cons p pattern =>
        rw [List.nil_append, indexOf?, if_pos (by simp)]
    · rename_i hpre
      obtain ⟨front, back, rfl, rfl, hfront⟩ := ih h
      refine ⟨c :: front, back, rfl, by simp; omega, ?_⟩
      rw [List.cons_append, indexOf?, if_neg]
      · exact hfront
      · intro hpre'
        apply hpre
        rw [List.isPrefixOf_iff_prefix] at hpre' ⊢
        exact hpre'.trans ⟨back, rfl⟩

theorem indexOf?_append {pattern : List Char} {n m : Nat} (h : indexOf? pattern n cs = some m)
    (ext : List Char) : indexOf? pattern n (cs ++ ext) = some m := by
  induction cs generalizing n with
  | nil =>
    unfold indexOf? at h
    split at h
    · rename_i hempty
      cases h
      rw [List.isEmpty_iff] at hempty
      subst hempty
      cases ext with
      | nil => rfl
      | cons c ext => rfl
    · contradiction
  | cons c cs ih =>
    unfold indexOf? at h
    rw [List.cons_append, indexOf?]
    split at h
    · rename_i hpre
      rw [if_pos]
      · exact h
      · rw [List.isPrefixOf_iff_prefix] at hpre ⊢
        exact hpre.trans ⟨ext, rfl⟩
    · rename_i hpre
      -- The mark fits into what is left, so it does not reach out of it.
      obtain ⟨front, back, hcs, -, -⟩ := indexOf?_cut h
      rw [if_neg]
      · exact ih h
      · intro hpre'
        rw [List.isPrefixOf_iff_prefix] at hpre hpre'
        apply hpre
        apply List.prefix_of_prefix_length_le hpre' ⟨ext, rfl⟩
        rw [hcs]
        simp
        omega

theorem dollar_string {tag body : List Char} {n : Nat}
    (hdigit : (tag ++ '$' :: body).head?.any Char.isDigit = false)
    (htag : ∀ c ∈ tag, Text.isAlphanumeric c || c == '_')
    (h : indexOf? ('$' :: (tag ++ ['$'])) 0 body = some n) :
    dollar (tag ++ '$' :: body) =
      ⟨.string, tag.length + 1 + n + ('$' :: (tag ++ ['$'])).length⟩ := by
  have htakeWhile : (tag ++ '$' :: body).takeWhile
      (fun c => Text.isAlphanumeric c || c == '_') = tag := by
    rw [List.takeWhile_append_of_pos htag, List.takeWhile_cons_of_neg (by decide),
      List.append_nil]
  unfold dollar
  rw [hdigit, htakeWhile]
  simp only [Bool.false_eq_true, if_false, List.drop_left, h]

theorem exists_marks_of_dollar (hdigit : cs.head?.any Char.isDigit = false)
    (hvalid : (dollar cs).kind.isValid) :
    ∃ tag body n, cs = tag ++ '$' :: body ∧ (∀ c ∈ tag, Text.isAlphanumeric c || c == '_') ∧
      indexOf? ('$' :: (tag ++ ['$'])) 0 body = some n := by
  have htag : ∀ c ∈ cs.takeWhile fun c => Text.isAlphanumeric c || c == '_',
      Text.isAlphanumeric c || c == '_' := fun c hc => List.all_eq_true.1 List.all_takeWhile c hc
  have hcs := List.prefix_iff_eq_append.1 (List.takeWhile_prefix
    (fun c => Text.isAlphanumeric c || c == '_') (l := cs))
  unfold dollar at hvalid
  rw [hdigit] at hvalid
  simp only [Bool.false_eq_true, if_false] at hvalid
  generalize (cs.takeWhile fun c => Text.isAlphanumeric c || c == '_') = tag at htag hcs hvalid
  split at hvalid
  · rename_i body hbody
    rw [hbody] at hcs
    cases hindex : indexOf? ('$' :: (tag ++ ['$'])) 0 body with
    | none =>
      rw [hindex] at hvalid
      contradiction
    | some n => exact ⟨tag, body, n, hcs.symm, htag, hindex⟩
  · contradiction

theorem dollar_take (cs : List Char) : Lexeme.Cut cs (dollar cs) dollar := by
  intro hvalid k hk
  by_cases hdigit : cs.head?.any Char.isDigit
  · have hdollar : ∀ cs, cs.head?.any Char.isDigit → dollar cs = ⟨.parameter, countDigits cs⟩ := by
      intro cs h
      unfold dollar
      rw [if_pos h]
    rw [hdollar cs hdigit] at hk
    have hk : countDigits cs ≤ k := hk
    have hpos := countDigits_pos hdigit
    rw [hdollar cs hdigit, hdollar, countDigits_take hk]
    exact head?_any_take_of_pos (by omega) hdigit
  · rw [Bool.not_eq_true] at hdigit
    obtain ⟨tag, body, n, rfl, htag, hindex⟩ := exists_marks_of_dollar hdigit hvalid
    rw [dollar_string hdigit htag hindex] at hk ⊢
    obtain ⟨front, back, rfl, hn, hfront⟩ := indexOf?_cut hindex
    have hlength : tag.length + 1 + n + ('$' :: (tag ++ ['$'])).length =
        tag.length + ((front ++ '$' :: (tag ++ ['$'])).length + 1) := by
      rw [List.length_append, hn]
      omega
    have hk : tag.length + 1 + n + ('$' :: (tag ++ ['$'])).length ≤ k := hk
    rw [hlength] at hk
    obtain ⟨k, rfl⟩ := Nat.exists_eq_add_of_le' hk
    have htake : (tag ++ '$' :: (front ++ '$' :: (tag ++ ['$']) ++ back)).take
        (k + (tag.length + ((front ++ '$' :: (tag ++ ['$'])).length + 1))) =
        tag ++ '$' :: (front ++ '$' :: (tag ++ ['$']) ++ back.take k) := by
      have hsum : k + (tag.length + ((front ++ '$' :: (tag ++ ['$'])).length + 1)) =
          tag.length + ((front ++ '$' :: (tag ++ ['$'])).length + k + 1) := by
        omega
      rw [hsum, List.take_length_add_append, List.take_succ_cons, List.take_length_add_append]
    have hhead : (tag ++ '$' :: (front ++ '$' :: (tag ++ ['$']) ++ back.take k)).head?.any
        Char.isDigit = false := by
      cases tag with
      | nil => rfl
      | cons c tag => exact hdigit
    rw [htake, dollar_string hhead htag (indexOf?_append hfront _)]

theorem variableName_eq {signs : List Char} (hsigns : signs = ['@'] ∨ signs = [] ∧ c ≠ '@')
    (rest : List Char) :
    variableName (signs ++ c :: rest) =
      if c == '\'' || c == '"' || c == '\x60' then
        quotedLiteral .atVariable c true (signs.length + 1) (signs ++ c :: rest)
      else if Text.isAlphanumeric c || c == '_' || c == '$' then
        ⟨.atVariable, signs.length + 1 + (rest.takeWhile fun c =>
          Text.isAlphanumeric c || c == '_' || c == '$' || c == '.').length⟩
      else
        ⟨.invalid "Expected variable name after '@'", signs.length⟩ := by
  obtain rfl | ⟨rfl, hc⟩ := hsigns
  · rfl
  · have hhead : (([] ++ c :: rest).head? == some '@') = false := by simpa using hc
    unfold variableName
    rw [hhead]
    rfl

theorem le_more_quotedLiteral {kind : TokenKind} {quote : Char} {escapes : Bool} {before : Nat}
    (h : (quotedLiteral kind quote escapes before cs).kind.isValid) :
    before ≤ (quotedLiteral kind quote escapes before cs).more := by
  unfold quotedLiteral at h ⊢
  cases hquote : closingQuote? quote escapes before (cs.drop before) with
  | none =>
    rw [hquote] at h
    contradiction
  | some n =>
    obtain ⟨front, back, -, rfl, -⟩ := closingQuote?_cut hquote
    exact Nat.le_add_right _ _

theorem variableName_take (cs : List Char) : Lexeme.Cut cs (variableName cs) variableName := by
  have hcases : (∃ signs c rest, (signs = ['@'] ∨ signs = [] ∧ c ≠ '@') ∧ cs = signs ++ c :: rest) ∨
      (variableName cs).kind.isValid = false := by
    match cs with
    | [] => exact .inr rfl
    | c :: rest =>
      by_cases hc : c = '@'
      · subst hc
        cases rest with
        | nil => exact .inr rfl
        | cons c rest => exact .inl ⟨['@'], c, rest, .inl rfl, rfl⟩
      · exact .inl ⟨[], c, rest, .inr ⟨rfl, hc⟩, rfl⟩
  intro hvalid k hk
  obtain ⟨signs, c, rest, hsigns, rfl⟩ | hinvalid := hcases
  · have htake : ∀ n, signs.length + 1 ≤ n → (signs ++ c :: rest).take n =
        signs ++ c :: rest.take (n - (signs.length + 1)) := by
      intro n hn
      obtain ⟨k, rfl⟩ := Nat.exists_eq_add_of_le hn
      rw [Nat.add_sub_cancel_left, Nat.add_assoc, List.take_length_add_append, Nat.add_comm 1,
        List.take_succ_cons]
    have heq := variableName_eq hsigns rest
    rw [heq] at hvalid hk ⊢
    split at hvalid
    · rename_i hquote
      rw [if_pos hquote] at hk ⊢
      have hmore := le_more_quotedLiteral hvalid
      have hcut := quotedLiteral_take _ _ _ _ hvalid k hk
      rw [htake _ (Nat.le_trans hmore hk)] at hcut ⊢
      rw [variableName_eq hsigns, if_pos hquote]
      exact hcut
    · rename_i hquote
      split at hvalid
      · rename_i hname
        rw [if_neg hquote, if_pos hname] at hk ⊢
        dsimp only at hk
        rw [htake _ (by omega), variableName_eq hsigns, if_neg hquote, if_pos hname,
          takeWhile_take (by omega)]
      · contradiction
  · rw [hinvalid] at hvalid
    contradiction

theorem word_take (c : Char) {n : Nat} (hn : (word c cs).more ≤ n) :
    word c (cs.take n) = word c cs := by
  have hmore : (word c cs).more =
      (cs.takeWhile fun c => Text.isAlphanumeric c || c == '_' || c == '$').length := by
    unfold word
    dsimp only
    split <;> rfl
  rw [hmore] at hn
  unfold word
  rw [takeWhile_take hn]

/-- The first operator that a text starts with is the first one that a part of it starts with. -/
theorem fixedOperator_take (c : Char) (cs : List Char) :
    Lexeme.Cut cs (fixedOperator c cs) (fixedOperator c) := by
  intro hvalid n hn
  rw [fixedOperator_eq] at hvalid hn
  split at hvalid
  · rename_i op hfind
    simp only [hfind] at hn
    obtain ⟨hpre, before, after, hlist, hbefore⟩ := List.find?_eq_some_iff_append.1 hfind
    have hnames : ∀ op ∈ fixedOperators, 0 < op.1.length := by decide
    have hpos := hnames _ (List.mem_of_find?_eq_some hfind)
    have hfront : c :: cs.take n <+: c :: cs := by
      rw [← List.take_succ_cons]
      exact List.take_prefix _ _
    have hcut : (fixedOperators.find? fun other =>
        other.1.toList.isPrefixOf (c :: cs.take n)) = some op := by
      refine List.find?_eq_some_iff_append.2 ⟨?_, before, after, hlist, ?_⟩
      · rw [List.isPrefixOf_iff_prefix] at hpre ⊢
        apply List.prefix_of_prefix_length_le hpre hfront
        have hle := hpre.length_le
        rw [String.length_toList] at hle ⊢
        simp only [List.length_cons, List.length_take] at hle ⊢
        omega
      · intro other hother
        have hne := hbefore other hother
        simp only [Bool.not_eq_true', Bool.eq_false_iff, ne_eq, List.isPrefixOf_iff_prefix]
          at hne ⊢
        exact fun h => hne (h.trans hfront)
    rw [fixedOperator_eq, fixedOperator_eq, hcut, hfind]
  · contradiction

theorem cutAt_of_isPrefix {mark run op : List Char} (hmark : mark ≠ [])
    (h : op <+: cutAt mark run) : cutAt mark op = op := by
  obtain ⟨rest, hrest⟩ := h.trans (isPrefix_cutAt mark run)
  conv => lhs; unfold cutAt
  split
  · rename_i n hn
    split
    · rename_i hpos
      obtain ⟨front, back, hop, rfl, -⟩ := indexOf?_cut hn
      have hrun := indexOf?_append hn rest
      rw [hrest] at hrun
      unfold cutAt at h
      simp only [hrun, hpos, if_true] at h
      have hle := h.length_le.trans (List.length_take_le _ _)
      have hlength := List.length_pos_iff.2 hmark
      rw [hop, List.length_append, List.length_append] at hle
      omega
    · rfl
  · rfl

theorem dropSigns_dropSigns (cs : List Char) : dropSigns (dropSigns cs) = dropSigns cs := by
  fun_induction dropSigns cs with
  | case1 c next rest h ih => exact ih
  | case2 c next rest h => rw [dropSigns, if_neg h]
  | case3 cs h =>
    unfold dropSigns
    split
    · exact absurd rfl (h _ _ _)
    · rfl

theorem trimSigns_trimSigns (run : List Char) : trimSigns (trimSigns run) = trimSigns run := by
  by_cases h : run.any allowsSignEnd
  · have hrun : trimSigns run = run := by
      unfold trimSigns
      rw [if_pos h]
    rw [hrun, hrun]
  · have hany : ¬(trimSigns run).any allowsSignEnd := by
      intro hany
      obtain ⟨c, hc, hallows⟩ := List.any_eq_true.1 hany
      exact h (List.any_eq_true.2 ⟨c, (isPrefix_trimSigns run).subset hc, hallows⟩)
    have htrim : ∀ run : List Char, ¬run.any allowsSignEnd →
        trimSigns run = (dropSigns run.reverse).reverse := by
      intro run h
      unfold trimSigns
      rw [if_neg h]
    rw [htrim _ hany, htrim _ h, List.reverse_reverse, dropSigns_dropSigns]

theorem munch_munch (run : List Char) : munch (munch run) = munch run := by
  have hcut : munch run <+: cutAt ['/', '*'] (cutAt ['-', '-'] run) := isPrefix_trimSigns _
  have hcomment : cutAt ['/', '*'] (munch run) = munch run := cutAt_of_isPrefix (by simp) hcut
  have hdashes : cutAt ['-', '-'] (munch run) = munch run :=
    cutAt_of_isPrefix (by simp) (hcut.trans (isPrefix_cutAt _ _))
  change trimSigns (cutAt ['/', '*'] (cutAt ['-', '-'] (munch run))) = _
  rw [hdashes, hcomment]
  exact trimSigns_trimSigns _

theorem dropSigns_ne_nil {cs : List Char} (h : cs ≠ []) : dropSigns cs ≠ [] := by
  fun_induction dropSigns cs with
  | case1 c next rest hsign ih => exact ih (List.cons_ne_nil _ _)
  | case2 => exact List.cons_ne_nil _ _
  | case3 => exact h

theorem munch_ne_nil {run : List Char} (h : run ≠ []) : munch run ≠ [] := by
  have hcut : ∀ (mark : List Char) {cs : List Char}, cs ≠ [] → cutAt mark cs ≠ [] := by
    intro mark cs h
    unfold cutAt
    split
    · split
      · rename_i n _ hn
        cases cs with
        | nil => contradiction
        | cons c cs =>
          obtain ⟨n, rfl⟩ := Nat.exists_eq_add_of_le' hn
          exact List.cons_ne_nil _ _
      · exact h
    · exact h
  unfold munch trimSigns
  have hcuts := hcut ['/', '*'] (hcut ['-', '-'] h)
  split
  · exact hcuts
  · rw [ne_eq, List.reverse_eq_nil_iff]
    exact dropSigns_ne_nil (by simpa using hcuts)

theorem more_customOperator (c : Char) (cs : List Char) :
    (customOperator c cs).more = (munch ((c :: cs).takeWhile isOperatorChar)).length - 1 := by
  unfold customOperator
  dsimp only
  split <;> rfl

def commentMarks : List (List Char) :=
  [['-', '-'], ['/', '*']]

theorem cutAt_take {mark run : List Char} (hmark : mark.length = 2) {k : Nat}
    (h : ¬mark <+: run.drop (k - 1)) : cutAt mark (run.take k) = (cutAt mark run).take k := by
  have hback : ∀ m, indexOf? mark 0 (run.take k) = some m →
      indexOf? mark 0 run = some m ∧ m + 2 ≤ k := by
    intro m hm
    have hrun := indexOf?_append hm (run.drop k)
    obtain ⟨front, back, hcs, rfl, -⟩ := indexOf?_cut hm
    rw [List.take_append_drop] at hrun
    have hle := congrArg List.length hcs
    simp only [List.length_take, List.length_append] at hle
    exact ⟨hrun, by omega⟩
  cases hrun : indexOf? mark 0 run with
  | none =>
    have htake : indexOf? mark 0 (run.take k) = none := by
      cases htake : indexOf? mark 0 (run.take k) with
      | none => rfl
      | some m =>
        rw [(hback m htake).1] at hrun
        contradiction
    unfold cutAt
    rw [hrun, htake]
  | some m =>
    obtain ⟨front, back, rfl, hm, hfront⟩ := indexOf?_cut hrun
    rw [Nat.zero_add] at hm
    by_cases hle : m + 2 ≤ k
    · have htake : indexOf? mark 0 ((front ++ mark ++ back).take k) = some m := by
        have hlength : (front ++ mark).length ≤ k := by
          rw [List.length_append]
          omega
        obtain ⟨j, rfl⟩ := Nat.exists_eq_add_of_le hlength
        rw [List.take_length_add_append]
        exact indexOf?_append hfront _
      unfold cutAt
      simp only [hrun, htake]
      split
      · rw [List.take_take, List.take_take, Nat.min_comm]
      · rfl
    · have htake : indexOf? mark 0 ((front ++ mark ++ back).take k) = none := by
        cases htake : indexOf? mark 0 ((front ++ mark ++ back).take k) with
        | none => rfl
        | some j =>
          obtain ⟨heq, hj⟩ := hback j htake
          rw [hrun] at heq
          cases heq
          exact absurd hj hle
      have hne : m ≠ k - 1 := by
        rintro rfl
        apply h
        rw [hm, List.append_assoc, List.drop_left]
        exact List.prefix_append _ _
      unfold cutAt
      simp only [hrun, htake]
      split
      · rw [List.take_take, Nat.min_eq_left (by omega)]
      · rfl

theorem exists_signs (cs : List Char) :
    ∃ signs, (∀ c ∈ signs, c == '+' || c == '-') ∧ cs = signs ++ dropSigns cs := by
  fun_induction dropSigns cs with
  | case1 c next rest h ih =>
    obtain ⟨signs, hsigns, heq⟩ := ih
    exact ⟨c :: signs, List.forall_mem_cons.2 ⟨h, hsigns⟩, by rw [List.cons_append, ← heq]⟩
  | case2 => exact ⟨[], List.forall_mem_nil _, rfl⟩
  | case3 => exact ⟨[], List.forall_mem_nil _, rfl⟩

theorem dropSigns_append {signs cs : List Char} (hsigns : ∀ c ∈ signs, c == '+' || c == '-')
    (hcs : cs ≠ []) : dropSigns (signs ++ cs) = dropSigns cs := by
  induction signs with
  | nil => rfl
  | cons c signs ih =>
    obtain ⟨hc, hsigns⟩ := List.forall_mem_cons.1 hsigns
    obtain ⟨next, rest, hnext⟩ := List.exists_cons_of_ne_nil
      (List.append_ne_nil_of_right_ne_nil signs hcs)
    rw [List.cons_append, hnext, dropSigns, if_pos hc, ← hnext]
    exact ih hsigns

theorem trimSigns_take {run : List Char} {k : Nat} (hk : (trimSigns run).length ≤ k) :
    trimSigns (run.take k) = trimSigns run := by
  by_cases h : run.any allowsSignEnd
  · have htrim : trimSigns run = run := if_pos h
    rw [htrim] at hk
    rw [List.take_of_length_le hk]
  · have hany : ¬(run.take k).any allowsSignEnd := by
      intro hany
      obtain ⟨c, hc, hallows⟩ := List.any_eq_true.1 hany
      exact h (List.any_eq_true.2 ⟨c, List.mem_of_mem_take hc, hallows⟩)
    have htrim : ∀ run : List Char, ¬run.any allowsSignEnd →
        trimSigns run = (dropSigns run.reverse).reverse := fun run h => if_neg h
    rw [htrim _ h] at hk
    rw [htrim _ h, htrim _ hany]
    by_cases hnil : run = []
    · rw [hnil, List.take_nil]
    · obtain ⟨signs, hsigns, heq⟩ := exists_signs run.reverse
      have hne := dropSigns_ne_nil (List.reverse_ne_nil_iff.2 hnil)
      have hrun : run = (dropSigns run.reverse).reverse ++ signs.reverse := by
        rw [← List.reverse_append, ← heq, List.reverse_reverse]
      generalize hop : dropSigns run.reverse = op at hk hrun hne
      have hdrop : dropSigns op = op := by
        rw [← hop, dropSigns_dropSigns]
      obtain ⟨j, rfl⟩ := Nat.exists_eq_add_of_le hk
      rw [hrun, List.take_length_add_append, List.reverse_append, List.reverse_reverse,
        dropSigns_append _ hne, hdrop]
      intro c hc
      exact hsigns c (List.mem_reverse.1 (List.mem_of_mem_take (List.mem_reverse.1 hc)))

/-- An operator is taken whole where the run goes on up to a place that no comment mark reaches
over. -/
theorem munch_take {run : List Char} {k : Nat} (hk : (munch run).length ≤ k)
    (hcut : k = (munch run).length ∨ ∀ mark ∈ commentMarks, ¬mark <+: run.drop (k - 1)) :
    munch (run.take k) = munch run := by
  obtain rfl | hcut := hcut
  · rw [← List.prefix_iff_eq_take.1 (isPrefix_munch run), munch_munch]
  · have hcomment : ¬['/', '*'] <+: (cutAt ['-', '-'] run).drop (k - 1) := by
      intro h
      refine hcut ['/', '*'] (by simp [commentMarks]) (h.trans ?_)
      obtain ⟨rest, hrest⟩ := isPrefix_cutAt ['-', '-'] run
      conv => rhs; rw [← hrest, List.drop_append]
      exact List.prefix_append _ _
    unfold munch at hk ⊢
    rw [cutAt_take rfl (hcut ['-', '-'] (by simp [commentMarks])), cutAt_take rfl hcomment]
    exact trimSigns_take hk

theorem customOperator_take (hc : isOperatorChar c) {n : Nat} (hn : (customOperator c cs).more ≤ n)
    (hcut : n = (customOperator c cs).more ∨
      ((c :: cs.take n).all isOperatorChar → ∀ mark ∈ commentMarks, ¬mark <+: (c :: cs).drop n)) :
    customOperator c (cs.take n) = customOperator c cs := by
  rw [more_customOperator] at hn hcut
  have hrun : (c :: cs.take n).takeWhile isOperatorChar =
      ((c :: cs).takeWhile isOperatorChar).take (n + 1) := by
    rw [List.take_takeWhile, List.take_succ_cons]
  have hne : (c :: cs).takeWhile isOperatorChar ≠ [] := by simp [hc]
  have hpos := List.length_pos_iff.2 (munch_ne_nil hne)
  have hmunch : munch ((c :: cs.take n).takeWhile isOperatorChar) =
      munch ((c :: cs).takeWhile isOperatorChar) := by
    by_cases hall : (c :: cs.take n).all isOperatorChar
    · rw [hrun]
      apply munch_take (by omega)
      refine hcut.imp (fun hexact => by omega) fun hmark mark hmem hpre => ?_
      refine hmark hall mark hmem (hpre.trans ?_)
      obtain ⟨rest, hrest⟩ := List.takeWhile_prefix (l := c :: cs) isOperatorChar
      conv => rhs; rw [← hrest, List.drop_append]
      exact List.prefix_append _ _
    · -- The run ends before the cut.
      have hshort : ((c :: cs).takeWhile isOperatorChar).length ≤ n + 1 := by
        apply Nat.le_of_not_lt
        intro hlt
        apply hall
        have hlength := congrArg List.length hrun
        rw [List.length_take_of_le (Nat.le_of_lt hlt)] at hlength
        have hwhole : (c :: cs.take n).takeWhile isOperatorChar = c :: cs.take n := by
          apply (List.takeWhile_prefix _).eq_of_length_le
          rw [hlength, List.length_cons]
          exact Nat.succ_le_succ (List.length_take_le _ _)
        rw [← hwhole]
        exact List.all_takeWhile
      rw [hrun, List.take_of_length_le hshort]
  unfold customOperator
  rw [hmunch]

theorem literalPrefix?_cut {kind : TokenKind} {between : Nat}
    (h : literalPrefix? d c cs = some (kind, between)) :
    ∃ front back, cs = front ++ back ∧ front.length = between + 1 ∧
      ∀ ext, literalPrefix? d c (front ++ ext) = some (kind, between) := by
  unfold literalPrefix? at h
  split at h
  case h_6 => contradiction
  case h_5 hc =>
    split at h
    · rename_i hdollar
      cases h
      refine ⟨['&', '\''], _, rfl, rfl, fun ext => ?_⟩
      unfold literalPrefix?
      rw [hc]
      exact if_pos hdollar
    · contradiction
  case h_4 hc =>
    split at h
    · rename_i hdollar
      cases h
      refine ⟨['\''], _, rfl, rfl, fun ext => ?_⟩
      unfold literalPrefix?
      rw [hc]
      exact if_pos hdollar
    · contradiction
  all_goals
    rename_i hc
    cases h
    refine ⟨['\''], _, rfl, rfl, fun ext => ?_⟩
    unfold literalPrefix?
    rw [hc]
    rfl

theorem literalPrefix?_take {kind : TokenKind} {between n : Nat}
    (h : literalPrefix? d c cs = some (kind, between)) (hn : between + 1 ≤ n) :
    literalPrefix? d c (cs.take n) = some (kind, between) := by
  obtain ⟨front, back, rfl, hlength, hfront⟩ := literalPrefix?_cut h
  obtain ⟨k, rfl⟩ := Nat.exists_eq_add_of_le (hlength ▸ hn)
  rw [List.take_length_add_append]
  exact hfront _

theorem literalPrefix?_take_none (h : literalPrefix? d c cs = none) (n : Nat) :
    literalPrefix? d c (cs.take n) = none := by
  cases htake : literalPrefix? d c (cs.take n) with
  | none => rfl
  | some found =>
    obtain ⟨front, back, hcs, -, hfront⟩ := literalPrefix?_cut htake
    have hpre : literalPrefix? d c cs = some found := by
      rw [← List.take_append_drop n cs, hcs, List.append_assoc]
      exact hfront _
    rw [h] at hpre
    contradiction

theorem more_number_pos (hdigit : cs.head?.any Char.isDigit) : 0 < (number ('.' :: cs)).more := by
  obtain h | ⟨_, _, _, hzero, -⟩ := number_cases '.' cs
  · have hdigits := countDigits_pos hdigit
    have hletter : cs.head?.any Text.isLetter = false := by
      cases cs with
      | nil => rfl
      | cons c cs => exact not_isLetter_of_isDigit hdigit
    have hwhole : countDigits ('.' :: cs) = 0 := rfl
    rw [h, more_decimal]
    unfold decimalLength
    dsimp only
    rw [hwhole, List.drop_zero, fraction?, if_neg (by simp [hletter]), Option.getD_some]
    omega
  · contradiction

theorem point_take {glued : Bool} {l : Lexeme}
    (h : (if cs.head?.any Char.isDigit && !glued then number ('.' :: cs) else ⟨.dot, 0⟩) = l)
    {n : Nat} (hn : l.more ≤ n)
    (hcut : n = l.more ∨ (cs.drop n).head?.any Text.isLetter = false) :
    (if (cs.take n).head?.any Char.isDigit && !glued then number ('.' :: cs.take n)
      else ⟨.dot, 0⟩) = l := by
  obtain ⟨hglued, rfl⟩ | ⟨hglued, rfl⟩ := ite_eq_iff.1 h
  · have hdigit : cs.head?.any Char.isDigit := (Bool.and_eq_true_iff.1 hglued).1
    have hpos := more_number_pos hdigit
    rw [if_pos, number_take (.inr ⟨rfl, hdigit⟩) hn hcut]
    rw [Bool.and_eq_true_iff]
    exact ⟨head?_any_take_of_pos (by omega) hdigit, (Bool.and_eq_true_iff.1 hglued).2⟩
  · rw [if_neg]
    intro htake
    apply hglued
    rw [Bool.and_eq_true_iff] at htake ⊢
    refine ⟨?_, htake.2⟩
    cases hdigit : cs.head?.any Char.isDigit with
    | true => rfl
    | false =>
      rw [head?_any_take _ hdigit] at htake
      exact htake.1

theorem colon_take {l : Lexeme}
    (h : (if cs.head? == some ':' then ⟨.doubleColon, 1⟩
      else if cs.head? == some '=' && d.atVariables then ⟨.assign, 1⟩ else ⟨.colon, 0⟩) = l)
    {n : Nat} (hn : l.more ≤ n) :
    (if (cs.take n).head? == some ':' then ⟨.doubleColon, 1⟩
      else if (cs.take n).head? == some '=' && d.atVariables then ⟨.assign, 1⟩
      else ⟨.colon, 0⟩) = l := by
  cases n with
  | zero =>
    split at h
    · subst h
      contradiction
    · split at h
      · subst h
        contradiction
      · subst h
        rfl
  | succ n =>
    rw [List.head?_take, if_neg (Nat.succ_ne_zero n)]
    exact h

/--
A text that starts with `c` and goes on into `cs` may be cut behind `n` more characters: what is cut
off starts with no letter, and where operators end at comment marks, no mark reaches over the cut.
-/
structure Cuttable (d : Dialect) (c : Char) (cs : List Char) (n : Nat) : Prop where
  letter : (cs.drop n).head?.any Text.isLetter = false
  mark : d.customOperators → (c :: cs.take n).all isOperatorChar →
    ∀ mark ∈ commentMarks, ¬mark <+: (c :: cs).drop n

/-- A token stays what it is when the text is cut behind it. -/
theorem lexeme_take {glued : Bool} {c : Char} {cs : List Char} {l : Lexeme}
    (h : lexeme d glued c cs = l) (hvalid : l.kind.isValid) {n : Nat} (hn : l.more ≤ n)
    (hcut : n = l.more ∨ Cuttable d c cs n) : lexeme d glued c (cs.take n) = l := by
  unfold lexeme at h ⊢
  cases hdelimiter : delimiter? c with
  | some kind =>
    rw [hdelimiter] at h
    exact h
  | none =>
    simp only [hdelimiter] at h ⊢
    obtain ⟨-, rfl⟩ | ⟨hcomment, h⟩ := ite_eq_iff.1 h
    · contradiction
    have hcomment : ¬(c == '/' && (cs.take n).head? == some '*') := by
      rw [List.head?_take]
      split
      · simp
      · exact hcomment
    rw [if_neg hcomment]
    obtain ⟨hpoint, h⟩ | ⟨hpoint, h⟩ := ite_eq_iff.1 h
    · rw [if_pos hpoint]
      cases eq_of_beq hpoint
      exact point_take h hn (hcut.imp_right (·.letter))
    rw [if_neg hpoint]
    obtain ⟨hcolon, h⟩ | ⟨hcolon, h⟩ := ite_eq_iff.1 h
    · rw [if_pos hcolon]
      exact colon_take h hn
    rw [if_neg hcolon]
    obtain ⟨hstring, rfl⟩ | ⟨hstring, h⟩ := ite_eq_iff.1 h
    · rw [if_pos hstring]
      exact quotedLiteral_take _ _ _ _ hvalid n hn
    rw [if_neg hstring]
    obtain ⟨hname, rfl⟩ | ⟨hname, h⟩ := ite_eq_iff.1 h
    · rw [if_pos hname]
      exact quotedName_take _ hvalid n hn
    rw [if_neg hname]
    obtain ⟨hdollar, rfl⟩ | ⟨hdollar, h⟩ := ite_eq_iff.1 h
    · rw [if_pos hdollar]
      exact dollar_take _ hvalid n hn
    rw [if_neg hdollar]
    obtain ⟨hvariable, rfl⟩ | ⟨hvariable, h⟩ := ite_eq_iff.1 h
    · rw [if_pos hvariable]
      exact variableName_take _ hvalid n hn
    rw [if_neg hvariable]
    obtain ⟨hdigit, rfl⟩ | ⟨hdigit, h⟩ := ite_eq_iff.1 h
    · rw [if_pos hdigit, number_take (.inl hdigit) hn (hcut.imp_right (·.letter))]
    rw [if_neg hdigit]
    obtain ⟨hletter, h⟩ | ⟨hletter, h⟩ := ite_eq_iff.1 h
    · rw [if_pos hletter]
      cases hpre : literalPrefix? d c cs with
      | some found =>
        simp only [hpre] at h
        subst h
        rw [literalPrefix?_take hpre (Nat.le_trans (le_more_quotedLiteral hvalid) hn)]
        exact quotedLiteral_take _ _ _ _ hvalid n hn
      | none =>
        simp only [hpre] at h
        subst h
        rw [literalPrefix?_take_none hpre]
        exact word_take c hn
    rw [if_neg hletter]
    obtain ⟨hoperator, h⟩ | ⟨hoperator, rfl⟩ := ite_eq_iff.1 h
    · rw [if_pos hoperator]
      obtain ⟨hcustom, rfl⟩ | ⟨hcustom, rfl⟩ := ite_eq_iff.1 h
      · rw [if_pos hcustom]
        exact customOperator_take hoperator hn (hcut.imp_right (·.mark hcustom))
      · rw [if_neg hcustom]
        exact fixedOperator_take c cs hvalid n hn
    · contradiction

theorem lexeme_glued (h : ¬(c = '.' ∧ cs.head?.any Char.isDigit)) (glued glued' : Bool) :
    lexeme d glued c cs = lexeme d glued' c cs := by
  by_cases hc : c = '.'
  · have hdigit : cs.head?.any Char.isDigit = false := by simpa [hc] using h
    unfold lexeme
    simp only [hdigit, Bool.false_and]
  · have hpoint : (c == '.') = false := by simpa using hc
    unfold lexeme
    simp only [hpoint, Bool.false_eq_true, if_false]

theorem lexeme_take_alone {glued : Bool} {c : Char} {cs : List Char} {l : Lexeme}
    (h : lexeme d glued c cs = l) (hvalid : l.kind.isValid) :
    lexeme d false c (cs.take l.more) = l := by
  have htake := lexeme_take h hvalid (Nat.le_refl _) (.inl rfl)
  by_cases hpoint : c = '.' ∧ (cs.take l.more).head?.any Char.isDigit
  · obtain ⟨rfl, hdigit⟩ := hpoint
    cases glued with
    | false => exact htake
    | true =>
      have hdot : lexeme d true '.' (cs.take l.more) = ⟨.dot, 0⟩ := by
        unfold lexeme
        simp [delimiter?]
      rw [hdot] at htake
      rw [← htake, List.take_zero] at hdigit
      contradiction
  · rw [lexeme_glued hpoint]
    exact htake

end Token

end SqlScript
