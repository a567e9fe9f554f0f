import Mathlib.Data.List.Find
import SqlScript.Proofs.Lexeme

/-!
What a text starts with when it goes on behind a blank. A token that the text holds stays what it is:
none reaches over the blank.
-/

namespace SqlScript

namespace TokenKind

def isValid : TokenKind → Bool
  | invalid _ => false
  | _ => true

end TokenKind

namespace Token

/--
The second lexeme is that of a text which goes on behind a blank where the text of the first one
ends.
-/
def Lexeme.Kept (cs : List Char) (l l' : Lexeme) : Prop :=
  l.kind.isValid → l' = l ∧ l.more ≤ cs.length

variable {d : Dialect} {b : Char} {cs ext : List Char}

section

variable (hb : b.isWhitespace) (cs ext : List Char)
include hb

theorem takeWhile_blank {p : Char → Bool}
    (hp : p ' ' = false ∧ p '\t' = false ∧ p '\r' = false ∧ p '\n' = false) :
    (cs ++ b :: ext).takeWhile p = cs.takeWhile p := by
  have hb : p b = false := Text.of_isWhitespace hb hp
  induction cs with
  | nil => simp [hb]
  | cons c cs ih =>
    rw [List.cons_append, List.takeWhile_cons, List.takeWhile_cons, ih]

theorem head?_any_blank {p : Char → Bool}
    (hp : p ' ' = false ∧ p '\t' = false ∧ p '\r' = false ∧ p '\n' = false) :
    (cs ++ b :: ext).head?.any p = cs.head?.any p := by
  cases cs with
  | nil => simpa using Text.of_isWhitespace hb hp
  | cons c cs => rfl

theorem head?_eq_blank {x : Char} (hx : ' ' ≠ x ∧ '\t' ≠ x ∧ '\r' ≠ x ∧ '\n' ≠ x) :
    ((cs ++ b :: ext).head? == some x) = (cs.head? == some x) := by
  cases cs with
  | nil =>
    have hne : b ≠ x := Text.of_isWhitespace hb hx
    simpa using hne
  | cons c cs => rfl

theorem quote_ne_blank {quote : Char} (hquote : quote ∈ ['\'', '"', '\x60']) : quote ≠ b := by
  have hblank : b ∉ ['\'', '"', '\x60'] := Text.of_isWhitespace hb (by decide)
  rintro rfl
  exact hblank hquote

end

theorem closingQuote?_blank {quote : Char} (hquote : quote ≠ b) {escapes : Bool} {n m : Nat}
    (h : closingQuote? quote escapes n cs = some m) (ext : List Char) :
    closingQuote? quote escapes n (cs ++ b :: ext) = some m ∧ m ≤ n + cs.length := by
  fun_induction closingQuote? quote escapes n cs with
  | case1 => contradiction
  | case2 => contradiction
  | case3 n c hescape next rest ih =>
    rw [List.cons_append, List.cons_append, closingQuote?, if_pos hescape]
    have := ih h
    simp only [List.length_cons]
    exact ⟨this.1, by omega⟩
  | case4 n c hescape hc =>
    rw [List.cons_append, List.nil_append, closingQuote?, if_neg hescape, if_pos hc]
    cases h
    simp [hquote.symm]
  | case5 n c hescape hc next rest hnext ih =>
    rw [List.cons_append, List.cons_append, closingQuote?, if_neg hescape, if_pos hc]
    have := ih h
    simp only [if_pos hnext, List.length_cons]
    exact ⟨this.1, by omega⟩
  | case6 n c hescape hc next rest hnext =>
    rw [List.cons_append, List.cons_append, closingQuote?, if_neg hescape, if_pos hc]
    simp only [if_neg hnext, List.length_cons]
    cases h
    exact ⟨rfl, by omega⟩
  | case7 n c cs hescape hc ih =>
    rw [List.cons_append]
    unfold closingQuote?
    rw [if_neg hescape, if_neg hc]
    have := ih h
    simp only [List.length_cons]
    exact ⟨this.1, by omega⟩

theorem quotedLiteral_blank {quote : Char} (hquote : quote ≠ b) (kind : TokenKind)
    (escapes : Bool) {before : Nat} (hbefore : before ≤ cs.length) (ext : List Char) :
    Lexeme.Kept cs (quotedLiteral kind quote escapes before cs)
      (quotedLiteral kind quote escapes before (cs ++ b :: ext)) := by
  intro hvalid
  unfold quotedLiteral at hvalid ⊢
  cases h : closingQuote? quote escapes before (cs.drop before) with
  | none =>
    rw [h] at hvalid
    contradiction
  | some n =>
    have hblank := closingQuote?_blank hquote h ext
    rw [List.drop_append_of_le_length hbefore, hblank.1]
    have := hblank.2
    rw [List.length_drop] at this
    exact ⟨rfl, by dsimp only; omega⟩

theorem quotedName_blank {quote : Char} (hquote : quote ≠ b) (cs ext : List Char) :
    Lexeme.Kept cs (quotedName quote cs) (quotedName quote (cs ++ b :: ext)) := by
  intro hvalid
  unfold quotedName at hvalid ⊢
  cases h : closingQuote? quote false 0 cs with
  | none =>
    rw [h] at hvalid
    contradiction
  | some n =>
    have hblank := closingQuote?_blank hquote h ext
    rw [h] at hvalid
    dsimp only at hvalid ⊢
    rw [hblank.1]
    dsimp only
    rw [List.take_append_of_le_length (by omega)]
    split
    · rename_i hname
      rw [hname] at hvalid
      contradiction
    · exact ⟨rfl, by dsimp only; omega⟩

theorem countDigits_blank (hb : b.isWhitespace) (cs ext : List Char) :
    countDigits (cs ++ b :: ext) = countDigits cs := by
  unfold countDigits
  rw [takeWhile_blank hb _ _ (by decide)]

theorem countDigits_le (cs : List Char) : countDigits cs ≤ cs.length :=
  (List.takeWhile_sublist _).length_le

theorem fraction?_blank (hb : b.isWhitespace) (cs ext : List Char) :
    fraction? (cs ++ b :: ext) = fraction? cs ∧ (fraction? cs).getD 0 ≤ cs.length := by
  cases cs with
  | nil =>
    have hnone : fraction? (b :: ext) = none := by
      have hpoint : b ≠ '.' := Text.of_isWhitespace hb (by decide)
      unfold fraction?
      split
      · simp_all
      · rfl
    exact ⟨hnone, Nat.le_refl _⟩
  | cons c cs =>
    by_cases hc : c = '.'
    · subst hc
      rw [List.cons_append, fraction?, fraction?,
        head?_any_blank hb _ _ (by decide),
        countDigits_blank hb]
      have := countDigits_le cs
      refine ⟨rfl, ?_⟩
      split
      · exact Nat.zero_le _
      · exact Nat.succ_le_succ this
    · have hnone : ∀ cs, fraction? (c :: cs) = none := by
        intro cs
        unfold fraction?
        split
        · simp_all
        · rfl
      rw [List.cons_append, hnone, hnone]
      exact ⟨rfl, Nat.zero_le _⟩

theorem exponent?_blank (hb : b.isWhitespace) (cs ext : List Char) :
    exponent? (cs ++ b :: ext) = exponent? cs ∧ (exponent? cs).getD 0 ≤ cs.length := by
  have hdigit : b.isDigit = false := Text.of_isWhitespace hb (by decide)
  match cs with
  | [] =>
    have hletter : (b == 'e' || b == 'E') = false := Text.of_isWhitespace hb (by decide)
    refine ⟨?_, Nat.le_refl _⟩
    rw [List.nil_append, exponent?.eq_def]
    dsimp only
    rw [hletter]
    rfl
  | [c] =>
    have hsign : (b == '+' || b == '-') = false := Text.of_isWhitespace hb (by decide)
    have hnone : exponent? [c] = none := by
      rw [exponent?]
      split <;> rfl
    have hblank : exponent? (c :: b :: ext) = none := by
      rw [exponent?, hsign, hdigit]
      split <;> rfl
    rw [List.singleton_append, hnone, hblank]
    exact ⟨rfl, Nat.zero_le _⟩
  | c :: sign :: rest =>
    have hrest := countDigits_le rest
    have hall := countDigits_le (sign :: rest)
    have hcount := countDigits_blank hb (sign :: rest) ext
    rw [List.cons_append] at hcount
    rw [List.cons_append, List.cons_append, exponent?, exponent?,
      head?_any_blank hb _ _ (p := Char.isDigit) (by decide), countDigits_blank hb, hcount]
    refine ⟨rfl, ?_⟩
    simp only [List.length_cons] at hall ⊢
    split
    · split
      · split <;> simp
        omega
      · split <;> simp
        omega
    · exact Nat.zero_le _

theorem decimal_blank (hb : b.isWhitespace) (cs ext : List Char) :
    decimal (cs ++ b :: ext) = decimal cs ∧ (decimal cs).more ≤ cs.length - 1 := by
  have hwhole := countDigits_le cs
  have hfraction := fraction?_blank hb (cs.drop (countDigits cs)) ext
  have hmantissa : countDigits cs + (fraction? (cs.drop (countDigits cs))).getD 0 ≤ cs.length := by
    have := hfraction.2
    rw [List.length_drop] at this
    omega
  have hexponent := exponent?_blank hb
    (cs.drop (countDigits cs + (fraction? (cs.drop (countDigits cs))).getD 0)) ext
  have hlength := hexponent.2
  rw [List.length_drop] at hlength
  unfold decimal
  dsimp only
  rw [countDigits_blank hb, List.drop_append_of_le_length hwhole, hfraction.1,
    List.drop_append_of_le_length hmantissa, hexponent.1]
  exact ⟨rfl, by omega⟩

theorem number_blank (hb : b.isWhitespace) (c : Char) (cs ext : List Char) :
    number (c :: cs ++ b :: ext) = number (c :: cs) ∧ (number (c :: cs)).more ≤ cs.length := by
  have hdecimal := decimal_blank hb (c :: cs) ext
  match cs with
  | [] =>
    have hbase : (b == 'x' || b == 'X') = false ∧ (b == 'b' || b == 'B') = false :=
      Text.of_isWhitespace hb (by decide)
    have hnumber : number [c] = decimal [c] := by
      rw [number]
      simp
    have hblank : number ([c] ++ b :: ext) = decimal ([c] ++ b :: ext) := by
      rw [List.singleton_append]
      unfold number
      split
      · rename_i heq
        cases heq
        rw [hbase.1, hbase.2]
        rfl
      · rfl
    rw [hnumber, hblank]
    exact hdecimal
  | [base] =>
    have hdigit : Text.isHexDigit b = false ∧ isBit b = false :=
      Text.of_isWhitespace hb (by decide)
    have hnumber : number [c, base] = decimal [c, base] := by
      rw [number]
      simp
    have hblank : number ([c, base] ++ b :: ext) = decimal ([c, base] ++ b :: ext) := by
      change number (c :: base :: b :: ext) = _
      unfold number
      split
      · rename_i heq
        cases heq
        rw [hdigit.1, hdigit.2, Bool.and_false, Bool.and_false]
        rfl
      · rfl
    rw [hnumber, hblank]
    exact hdecimal
  | base :: digit :: rest =>
    have hhex := (List.takeWhile_sublist Text.isHexDigit (l := rest)).length_le
    have hbits := (List.takeWhile_sublist isBit (l := rest)).length_le
    change number (c :: base :: digit :: (rest ++ b :: ext)) = _ ∧ _
    change decimal (c :: base :: digit :: (rest ++ b :: ext)) = _ ∧ _ at hdecimal
    by_cases hc : c = '0'
    · subst hc
      rw [number, number, takeWhile_blank hb _ _ (by decide), takeWhile_blank hb _ _ (by decide)]
      split
      · exact ⟨rfl, Nat.add_le_add_right hhex 2⟩
      · split
        · exact ⟨rfl, Nat.add_le_add_right hbits 2⟩
        · exact hdecimal
    · have hnumber : ∀ rest, number (c :: base :: digit :: rest) =
          decimal (c :: base :: digit :: rest) := by
        intro rest
        unfold number
        split
        · rename_i heq
          cases heq
          contradiction
        · rfl
      rw [hnumber, hnumber]
      exact hdecimal

theorem isPrefixOf_blank {pattern : List Char} (hpattern : b ∉ pattern) (cs ext : List Char) :
    pattern.isPrefixOf (cs ++ b :: ext) = pattern.isPrefixOf cs := by
  induction pattern generalizing cs with
  | nil => simp
  | cons p pattern ih =>
    rw [List.mem_cons, not_or] at hpattern
    cases cs with
    | nil => simp [List.isPrefixOf, Ne.symm hpattern.1]
    | cons c cs => simp [List.isPrefixOf, ih hpattern.2]

theorem indexOf?_blank {pattern : List Char} (hpattern : b ∉ pattern) {n m : Nat}
    (h : indexOf? pattern n cs = some m) (ext : List Char) :
    indexOf? pattern n (cs ++ b :: ext) = some m ∧ m + pattern.length ≤ n + cs.length := by
  induction cs generalizing n with
  | nil =>
    unfold indexOf? at h
    split at h
    · rename_i hempty
      cases h
      rw [List.isEmpty_iff] at hempty
      subst hempty
      exact ⟨rfl, Nat.le_refl _⟩
    · contradiction
  | cons c cs ih =>
    unfold indexOf? at h
    rw [List.cons_append, indexOf?, ← List.cons_append, isPrefixOf_blank hpattern]
    split at h
    · rename_i hpre
      cases h
      rw [if_pos hpre]
      exact ⟨rfl, Nat.add_le_add_left (List.isPrefixOf_iff_prefix.1 hpre).length_le _⟩
    · rename_i hpre
      rw [if_neg hpre]
      have := ih h
      simp only [List.length_cons]
      exact ⟨this.1, by omega⟩

theorem dollar_blank (hb : b.isWhitespace) (cs ext : List Char) :
    Lexeme.Kept cs (dollar cs) (dollar (cs ++ b :: ext)) := by
  intro hvalid
  unfold dollar at hvalid ⊢
  rw [head?_any_blank hb _ _ (by decide), countDigits_blank hb]
  by_cases hdigit : cs.head?.any Char.isDigit
  · rw [if_pos hdigit, if_pos hdigit]
    exact ⟨rfl, countDigits_le cs⟩
  · rw [if_neg hdigit] at hvalid
    rw [if_neg hdigit, if_neg hdigit]
    dsimp only at hvalid ⊢
    rw [takeWhile_blank hb _ _ (by decide)]
    have htag := (List.takeWhile_sublist (fun c => Text.isAlphanumeric c || c == '_')
      (l := cs)).length_le
    have hblank : b ∉ cs.takeWhile fun c => Text.isAlphanumeric c || c == '_' := by
      have hb : (Text.isAlphanumeric b || b == '_') = false :=
        Text.of_isWhitespace hb (by decide)
      intro hmem
      have := List.all_eq_true.1 List.all_takeWhile _ hmem
      rw [hb] at this
      contradiction
    generalize (cs.takeWhile fun c => Text.isAlphanumeric c || c == '_') = tag at *
    rw [List.drop_append_of_le_length htag]
    split at hvalid
    · rename_i body hbody
      have hlength := congrArg List.length hbody
      rw [List.length_drop, List.length_cons] at hlength
      have hmark : b ∉ '$' :: (tag ++ ['$']) := by
        have hne : b ≠ '$' := Text.of_isWhitespace hb (by decide)
        simp [hblank, hne]
      cases hindex : indexOf? ('$' :: (tag ++ ['$'])) 0 body with
      | none =>
        rw [hindex] at hvalid
        contradiction
      | some n =>
        have hnext := indexOf?_blank hmark hindex ext
        have hle := hnext.2
        simp only [hbody, List.cons_append, hnext.1]
        refine ⟨trivial, ?_⟩
        simp only [List.length_cons, List.length_append, List.length_nil] at hle ⊢
        omega
    · contradiction

theorem variableName_blank (hb : b.isWhitespace) (cs ext : List Char) :
    Lexeme.Kept cs (variableName cs) (variableName (cs ++ b :: ext)) := by
  intro hvalid
  unfold variableName at hvalid ⊢
  rw [head?_eq_blank hb _ _ (by decide)]
  dsimp only at hvalid ⊢
  have hsigns : (if cs.head? == some '@' then 1 else 0) ≤ cs.length := by
    split
    · cases cs with
      | nil => contradiction
      | cons c cs => simp
    · exact Nat.zero_le _
  generalize (if cs.head? == some '@' then 1 else 0) = signs at *
  rw [List.drop_append_of_le_length hsigns]
  split at hvalid
  · rename_i c rest hrest
    have hlength := congrArg List.length hrest
    rw [List.length_drop, List.length_cons] at hlength
    simp only [hrest, List.cons_append]
    split at hvalid
    · rename_i hquote
      rw [if_pos hquote, if_pos hquote]
      have hquote : c ∈ ['\'', '"', '\x60'] := by simpa [or_assoc] using hquote
      exact quotedLiteral_blank (quote_ne_blank hb hquote) _ _ (by omega) _ hvalid
    · rename_i hquote
      rw [if_neg hquote, if_neg hquote]
      split at hvalid
      · rename_i hname
        rw [if_pos hname, if_pos hname, takeWhile_blank hb _ _ (by decide)]
        have htail := (List.takeWhile_sublist (fun c => Text.isAlphanumeric c || c == '_' ||
          c == '$' || c == '.') (l := rest)).length_le
        exact ⟨rfl, by dsimp only; omega⟩
      · contradiction
  · contradiction

theorem word_blank (hb : b.isWhitespace) (c : Char) (cs ext : List Char) :
    word c (cs ++ b :: ext) = word c cs ∧ (word c cs).more ≤ cs.length := by
  have htail := (List.takeWhile_sublist (fun c => Text.isAlphanumeric c || c == '_' || c == '$')
    (l := cs)).length_le
  unfold word
  rw [takeWhile_blank hb _ _ (by decide)]
  refine ⟨rfl, ?_⟩
  dsimp only
  split <;> exact htail

theorem fixedOperator_blank (hb : b.isWhitespace) (c : Char) (cs ext : List Char) :
    Lexeme.Kept cs (fixedOperator c cs) (fixedOperator c (cs ++ b :: ext)) := by
  have htexts : ∀ op ∈ fixedOperators, b ∉ op.1.toList := Text.of_isWhitespace hb (by decide)
  have hfind : (fixedOperators.find? fun op => op.1.toList.isPrefixOf (c :: (cs ++ b :: ext))) =
      fixedOperators.find? fun op => op.1.toList.isPrefixOf (c :: cs) := by
    apply List.find?_congr
    intro op hop
    exact isPrefixOf_blank (htexts op hop) (c :: cs) ext
  intro hvalid
  rw [fixedOperator_eq] at hvalid
  rw [fixedOperator_eq, fixedOperator_eq, hfind]
  refine ⟨rfl, ?_⟩
  split at hvalid
  · rename_i op hop
    have hpre := List.find?_some hop
    have hle := (List.isPrefixOf_iff_prefix.1 hpre).length_le
    rw [String.length_toList, List.length_cons] at hle
    dsimp only
    omega
  · contradiction

theorem customOperator_blank (hb : b.isWhitespace) (c : Char) (cs ext : List Char) :
    customOperator c (cs ++ b :: ext) = customOperator c cs ∧
      (customOperator c cs).more ≤ cs.length := by
  have hmunch := (isPrefix_munch ((c :: cs).takeWhile isOperatorChar)).length_le
  have hrun := (List.takeWhile_sublist isOperatorChar (l := c :: cs)).length_le
  rw [List.length_cons] at hrun
  unfold customOperator
  rw [← List.cons_append, takeWhile_blank hb _ _ (by decide)]
  refine ⟨rfl, ?_⟩
  dsimp only
  split
  · dsimp only
    omega
  · dsimp only
    omega

theorem literalPrefix?_blank (hb : b.isWhitespace) (c : Char) (cs ext : List Char) :
    literalPrefix? d c (cs ++ b :: ext) = literalPrefix? d c cs := by
  have hquote : b ≠ '\'' := (quote_ne_blank hb (by decide)).symm
  have hand : b ≠ '&' := Text.of_isWhitespace hb (by decide)
  match cs with
  | [] =>
    unfold literalPrefix?
    split <;> simp_all
  | [a] =>
    change literalPrefix? d c (a :: b :: ext) = _
    unfold literalPrefix?
    split <;> simp_all
  | a :: a' :: rest =>
    change literalPrefix? d c (a :: a' :: (rest ++ b :: ext)) = _
    unfold literalPrefix?
    split
    case h_6 hu =>
      have := hu (rest ++ b :: ext)
      simp_all
    all_goals simp_all

theorem literalPrefix?_le {c : Char} {kind : TokenKind} {between : Nat}
    (h : literalPrefix? d c cs = some (kind, between)) : between + 1 ≤ cs.length := by
  unfold literalPrefix? at h
  split at h
  case h_6 => contradiction
  all_goals simp_all
  all_goals omega

namespace Lexeme.Kept

variable {l l' m m' : Lexeme}

theorem of_eq (h : l' = l) (hle : l.more ≤ cs.length) : Kept cs l l' :=
  fun _ => ⟨h, hle⟩

theorem of_invalid (h : l.kind.isValid = false) : Kept cs l l' := by
  intro hvalid
  rw [h] at hvalid
  contradiction

theorem ite {p : Prop} [Decidable p] (h : p → Kept cs l l') (h' : ¬p → Kept cs m m') :
    Kept cs (if p then l else m) (if p then l' else m') := by
  split
  · exact h ‹_›
  · exact h' ‹_›

end Lexeme.Kept

theorem colon_blank (hb : b.isWhitespace) (cs ext : List Char) :
    Lexeme.Kept cs
      (if cs.head? == some ':' then ⟨.doubleColon, 1⟩
        else if cs.head? == some '=' && d.atVariables then ⟨.assign, 1⟩
        else ⟨.colon, 0⟩)
      (if (cs ++ b :: ext).head? == some ':' then ⟨.doubleColon, 1⟩
        else if (cs ++ b :: ext).head? == some '=' && d.atVariables then ⟨.assign, 1⟩
        else ⟨.colon, 0⟩) := by
  rw [head?_eq_blank hb _ _ (by decide), head?_eq_blank hb _ _ (by decide)]
  apply Lexeme.Kept.of_eq rfl
  cases cs with
  | nil => simp
  | cons c cs =>
    split
    · simp
    · split <;> simp

theorem lexeme_blank (hb : b.isWhitespace) (glued : Bool) (c : Char) (cs ext : List Char) :
    Lexeme.Kept cs (lexeme d glued c cs) (lexeme d glued c (cs ++ b :: ext)) := by
  unfold lexeme
  cases hdelimiter : delimiter? c with
  | some kind => exact .of_eq rfl (Nat.zero_le _)
  | none =>
    dsimp only
    rw [literalPrefix?_blank hb, head?_eq_blank hb _ _ (x := '*') (by decide),
      head?_any_blank hb _ _ (by decide)]
    apply Lexeme.Kept.ite
    · exact fun _ => .of_invalid rfl
    intro _
    apply Lexeme.Kept.ite
    · intro _
      apply Lexeme.Kept.ite
      · intro _
        exact .of_eq (number_blank hb c cs ext).1 (number_blank hb c cs ext).2
      · exact fun _ => .of_eq rfl (Nat.zero_le _)
    intro _
    apply Lexeme.Kept.ite
    · exact fun _ => colon_blank hb cs ext
    intro _
    apply Lexeme.Kept.ite
    · intro hquote
      apply quotedLiteral_blank _ _ _ (Nat.zero_le _)
      simp only [Bool.or_eq_true, Bool.and_eq_true, beq_iff_eq] at hquote
      obtain rfl | ⟨rfl, -⟩ := hquote <;> exact quote_ne_blank hb (by decide)
    intro _
    apply Lexeme.Kept.ite
    · intro hquote
      apply quotedName_blank
      simp only [Bool.or_eq_true, Bool.and_eq_true, beq_iff_eq] at hquote
      obtain rfl | ⟨rfl, -⟩ := hquote <;> exact quote_ne_blank hb (by decide)
    intro _
    apply Lexeme.Kept.ite
    · exact fun _ => dollar_blank hb cs ext
    intro _
    apply Lexeme.Kept.ite
    · exact fun _ => variableName_blank hb cs ext
    intro _
    apply Lexeme.Kept.ite
    · exact fun _ => .of_eq (number_blank hb c cs ext).1 (number_blank hb c cs ext).2
    intro _
    apply Lexeme.Kept.ite
    · intro _
      cases hpre : literalPrefix? d c cs with
      | some literal =>
        exact quotedLiteral_blank (quote_ne_blank hb (by decide)) _ _ (literalPrefix?_le hpre) ext
      | none => exact .of_eq (word_blank hb c cs ext).1 (word_blank hb c cs ext).2
    intro _
    apply Lexeme.Kept.ite
    · intro _
      apply Lexeme.Kept.ite
      · exact fun _ => .of_eq (customOperator_blank hb c cs ext).1 (customOperator_blank hb c cs ext).2
      · exact fun _ => fixedOperator_blank hb c cs ext
    · exact fun _ => .of_eq rfl (Nat.zero_le _)

end Token

end SqlScript
