import Mathlib.Data.List.Find
import SqlScript.Proofs.Folding
import SqlScript.Proofs.Spacing.Lexeme

/-!
What a text starts with when the case of its letters is another one. Letters are told from what is
no letter, but not by their case; only the text of a quoted name and the marks around a text in
dollar signs are taken as they are.
-/

namespace SqlScript

namespace Text

variable {cs cs' : List Char}

theorem congr_of_map {f : List Char → α} (hf : ∀ cs, f (cs.map Char.toUpper) = f cs)
    (h : cs'.map Char.toUpper = cs.map Char.toUpper) : f cs' = f cs := by
  rw [← hf cs', h, hf cs]

theorem length_eq_of_map (h : cs'.map Char.toUpper = cs.map Char.toUpper) :
    cs'.length = cs.length :=
  congr_of_map (fun _ => List.length_map _) h

theorem takeWhile_map {p : Char → Bool} (hp : Caseless p) (cs : List Char) :
    (cs.map Char.toUpper).takeWhile p = (cs.takeWhile p).map Char.toUpper := by
  rw [List.takeWhile_map, show p ∘ Char.toUpper = p from funext hp.toUpper]

theorem length_takeWhile_map {p : Char → Bool} (hp : Caseless p) (cs : List Char) :
    ((cs.map Char.toUpper).takeWhile p).length = (cs.takeWhile p).length := by
  rw [takeWhile_map hp, List.length_map]

theorem any_map {p : Char → Bool} (hp : Caseless p) (o : Option Char) :
    (o.map Char.toUpper).any p = o.any p := by
  cases o with
  | none => rfl
  | some c => exact hp.toUpper c

theorem head?_any_map {p : Char → Bool} (hp : Caseless p) (cs : List Char) :
    (cs.map Char.toUpper).head?.any p = cs.head?.any p := by
  rw [List.head?_map, any_map hp]

/--
No letter is such a character.
-/
def Letterless (p : Char → Bool) : Prop :=
  ∀ k < 26, p (Char.ofNat (65 + k)) = false ∧ p (Char.ofNat (97 + k)) = false

instance (p : Char → Bool) : Decidable (Letterless p) :=
  inferInstanceAs (Decidable (∀ k < 26, _ ∧ _))

namespace Letterless

variable {p : Char → Bool} (hp : Letterless p)

include hp

theorem caseless : Caseless p :=
  fun k hk => (hp k hk).1.trans (hp k hk).2.symm

theorem toUpper_eq {c : Char} (h : p c) : c.toUpper = c := by
  revert h
  refine toUpper_cases (p := fun c capital => p c → capital = c) c (fun _ _ => rfl)
    fun k hk h => ?_
  rw [(hp k hk).2] at h
  contradiction

theorem eq_of_toUpper {c c' : Char} (h : p c) (hc : c'.toUpper = c.toUpper) : c' = c := by
  have h' : p c' := by
    rw [hp.caseless.congr hc]
    exact h
  rw [← hp.toUpper_eq h', hc, hp.toUpper_eq h]

theorem caseless_beq {c : Char} (h : p c) : Caseless (· == c) := by
  have hne : ∀ x, p x = false → (x == c) = false := by
    intro x hx
    rw [beq_eq_false_iff_ne]
    rintro rfl
    rw [h] at hx
    contradiction
  intro k hk
  exact (hne _ (hp k hk).1).trans (hne _ (hp k hk).2).symm

theorem takeWhile_map (cs : List Char) : (cs.map Char.toUpper).takeWhile p = cs.takeWhile p := by
  rw [Text.takeWhile_map hp.caseless]
  refine (List.map_congr_left fun c hc => ?_).trans (List.map_id _)
  exact hp.toUpper_eq (List.all_eq_true.1 List.all_takeWhile c hc)

end Letterless

theorem letterless_quote : Letterless fun c => c == '\'' || c == '"' || c == '\x60' := by
  decide

theorem letterless_isOperatorChar : Letterless Token.isOperatorChar := by
  decide

end Text

theorem TokenKind.isBareWord_of_isOrdinary {kind : TokenKind} (h : kind.isOrdinary) :
    kind.isBareWord = false := by
  cases kind <;> first | rfl | contradiction

open SqlScript.Text

namespace Token

variable {d : Dialect} {c c' : Char} {cs cs' : List Char}

theorem closingQuote?_map {quote : Char} (hquote : Caseless (· == quote)) (escapes : Bool) (n : Nat)
    (cs : List Char) :
    closingQuote? quote escapes n (cs.map Char.toUpper) = closingQuote? quote escapes n cs := by
  have hbackslash : Caseless (· == '\\') := by decide
  fun_induction closingQuote? quote escapes n cs with
  | case1 => rfl
  | case2 n c hescape =>
    rw [List.map_cons, List.map_nil, closingQuote?, hbackslash.toUpper c, if_pos hescape]
  | case3 n c hescape next rest ih =>
    rw [List.map_cons, List.map_cons, closingQuote?, hbackslash.toUpper c, if_pos hescape]
    exact ih
  | case4 n c hescape hc =>
    rw [List.map_cons, List.map_nil, closingQuote?, hbackslash.toUpper c, if_neg hescape,
      hquote.toUpper c, if_pos hc]
  | case5 n c hescape hc next rest hnext ih =>
    rw [List.map_cons, List.map_cons, closingQuote?, hbackslash.toUpper c, if_neg hescape,
      hquote.toUpper c, if_pos hc]
    rw [hquote.toUpper next, if_pos hnext]
    exact ih
  | case6 n c hescape hc next rest hnext =>
    rw [List.map_cons, List.map_cons, closingQuote?, hbackslash.toUpper c, if_neg hescape,
      hquote.toUpper c, if_pos hc]
    rw [hquote.toUpper next, if_neg hnext]
  | case7 n c cs hescape hc ih =>
    rw [List.map_cons]
    conv => lhs; unfold closingQuote?
    rw [hbackslash.toUpper c, if_neg hescape, hquote.toUpper c, if_neg hc]
    exact ih

theorem quotedLiteral_map {quote : Char} (hquote : Caseless (· == quote)) (kind : TokenKind)
    (escapes : Bool) (before : Nat) (cs : List Char) :
    quotedLiteral kind quote escapes before (cs.map Char.toUpper) =
      quotedLiteral kind quote escapes before cs := by
  unfold quotedLiteral
  rw [← List.map_drop, closingQuote?_map hquote, List.length_map]

theorem quotedName_recased {quote : Char} (hquote : Caseless (· == quote))
    (hcs : cs'.map Char.toUpper = cs.map Char.toUpper)
    (htake : cs'.take (quotedName quote cs).more = cs.take (quotedName quote cs).more) :
    quotedName quote cs' = quotedName quote cs := by
  have hclosing : closingQuote? quote false 0 cs' = closingQuote? quote false 0 cs :=
    congr_of_map (closingQuote?_map hquote false 0) hcs
  unfold quotedName at htake ⊢
  rw [hclosing, length_eq_of_map hcs]
  cases h : closingQuote? quote false 0 cs with
  | none => rfl
  | some n =>
    have hmore : cs'.take n = cs.take n := by
      rw [h] at htake
      dsimp only at htake
      split at htake <;> exact htake
    have htakes : ∀ cs : List Char, cs.take (n - 1) = (cs.take n).take (n - 1) := by
      intro cs
      rw [List.take_take, Nat.min_eq_left (Nat.sub_le n 1)]
    dsimp only
    rw [htakes cs', hmore, ← htakes cs]

theorem countDigits_map (cs : List Char) : countDigits (cs.map Char.toUpper) = countDigits cs :=
  length_takeWhile_map (by decide) cs

theorem fraction?_map (cs : List Char) : fraction? (cs.map Char.toUpper) = fraction? cs := by
  cases cs with
  | nil => rfl
  | cons c cs =>
    have hpoint : c.toUpper = '.' ↔ c = '.' := Caseless.toUpper_eq_iff (by decide) c
    rw [List.map_cons]
    by_cases hc : c = '.'
    · rw [hpoint.2 hc, hc, fraction?, fraction?, head?_any_map (by decide), countDigits_map]
    · rw [fraction?_eq_none hc, fraction?_eq_none (mt hpoint.1 hc)]

theorem exponent?_map (cs : List Char) : exponent? (cs.map Char.toUpper) = exponent? cs := by
  have hmark : Caseless fun c => c == 'e' || c == 'E' := by decide
  have hsign : Caseless fun c => c == '+' || c == '-' := by decide
  have hdigit : Caseless Char.isDigit := by decide
  match cs with
  | [] => rfl
  | [c] =>
    rw [List.map_cons, List.map_nil, exponent?, exponent?, hmark.toUpper c]
  | c :: sign :: rest =>
    rw [List.map_cons, List.map_cons, exponent?, exponent?, hmark.toUpper c]
    rw [hsign.toUpper sign, hdigit.toUpper sign, head?_any_map hdigit, countDigits_map,
      ← List.map_cons, countDigits_map]

theorem decimal_map (cs : List Char) : decimal (cs.map Char.toUpper) = decimal cs := by
  unfold decimal
  simp only [← List.map_drop, countDigits_map, fraction?_map, exponent?_map]

theorem number_of_ne_zero (hc : c ≠ '0') (cs : List Char) : number (c :: cs) = decimal (c :: cs) := by
  obtain h | ⟨_, _, _, hzero, -⟩ := number_cases c cs
  · exact h
  · exact absurd hzero hc

theorem number_map (cs : List Char) : number (cs.map Char.toUpper) = number cs := by
  have hhex : Caseless fun base => base == 'x' || base == 'X' := by decide
  have hbits : Caseless fun base => base == 'b' || base == 'B' := by decide
  have hdigit : Caseless isHexDigit := by decide
  have hbit : Caseless isBit := by decide
  cases cs with
  | nil => rfl
  | cons c cs =>
    have hzero : c.toUpper = '0' ↔ c = '0' := Caseless.toUpper_eq_iff (by decide) c
    by_cases hc : c = '0'
    · have hdecimal := decimal_map (c :: cs)
      rw [List.map_cons, hzero.2 hc, hc] at hdecimal
      rw [List.map_cons, hzero.2 hc, hc]
      match cs with
      | [] => exact hdecimal
      | [base] => exact hdecimal
      | base :: digit :: rest =>
        rw [List.map_cons, List.map_cons] at hdecimal ⊢
        rw [number, number, hhex.toUpper base, hdigit.toUpper digit, hbits.toUpper base,
          hbit.toUpper digit, length_takeWhile_map hdigit, length_takeWhile_map hbit, hdecimal]
    · rw [number_of_ne_zero hc, List.map_cons, number_of_ne_zero (mt hzero.1 hc), ← List.map_cons,
        decimal_map]

theorem dollar_of_unmarked (hdigit : cs.head?.any Char.isDigit = false)
    (h : ((cs.drop (cs.takeWhile fun c => isAlphanumeric c || c == '_').length).head? == some '$') =
      false) :
    dollar cs = ⟨.invalid "Unexpected character: $",
      (cs.takeWhile fun c => isAlphanumeric c || c == '_').length⟩ := by
  unfold dollar
  rw [hdigit]
  dsimp only
  split
  · contradiction
  · split
    · rename_i heq
      rw [heq] at h
      contradiction
    · rfl

theorem dollar_of_unterminated {tag body : List Char}
    (hdigit : (tag ++ '$' :: body).head?.any Char.isDigit = false)
    (htag : ∀ c ∈ tag, isAlphanumeric c || c == '_')
    (h : indexOf? ('$' :: (tag ++ ['$'])) 0 body = none) :
    dollar (tag ++ '$' :: body) =
      ⟨.invalid "Unterminated dollar-quoted string", (tag ++ '$' :: body).length⟩ := by
  have htakeWhile : (tag ++ '$' :: body).takeWhile (fun c => isAlphanumeric c || c == '_') = tag := by
    rw [List.takeWhile_append_of_pos htag, List.takeWhile_cons_of_neg (by decide),
      List.append_nil]
  unfold dollar
  rw [hdigit, htakeWhile]
  simp only [Bool.false_eq_true, if_false, List.drop_left, h]

theorem dollar_recased (hcs : cs'.map Char.toUpper = cs.map Char.toUpper)
    (htake : cs'.take (dollar cs).more = cs.take (dollar cs).more) : dollar cs' = dollar cs := by
  have hname : Caseless fun c => isAlphanumeric c || c == '_' := by decide
  have hhead : cs'.head?.any Char.isDigit = cs.head?.any Char.isDigit :=
    congr_of_map (f := (·.head?.any Char.isDigit)) (head?_any_map (by decide)) hcs
  cases hdigit : cs.head?.any Char.isDigit with
  | true =>
    unfold dollar
    rw [hhead, hdigit, if_pos rfl, if_pos rfl, congr_of_map countDigits_map hcs]
  | false =>
    rw [hdigit] at hhead
    have hlength : (cs'.takeWhile fun c => isAlphanumeric c || c == '_').length =
        (cs.takeWhile fun c => isAlphanumeric c || c == '_').length := by
      rw [← length_takeWhile_map hname cs', hcs, length_takeWhile_map hname]
    have hdrop : (cs'.drop (cs.takeWhile fun c => isAlphanumeric c || c == '_').length).map
        Char.toUpper = (cs.drop (cs.takeWhile fun c => isAlphanumeric c || c == '_').length).map
        Char.toUpper := by
      rw [List.map_drop, hcs, ← List.map_drop]
    cases hmark : (cs.drop (cs.takeWhile fun c => isAlphanumeric c || c == '_').length).head? ==
        some '$' with
    | false =>
      rw [dollar_of_unmarked hdigit hmark, dollar_of_unmarked hhead, hlength]
      rw [hlength, congr_of_map (f := (·.head? == some '$')) (head?_beq_map (by decide)) hdrop, hmark]
    | true =>
      have htag : ∀ c ∈ cs.takeWhile fun c => isAlphanumeric c || c == '_',
          isAlphanumeric c || c == '_' := List.all_eq_true.1 List.all_takeWhile
      have happend := List.prefix_iff_eq_append.1 (List.takeWhile_prefix
        (fun c => isAlphanumeric c || c == '_') (l := cs))
      generalize (cs.takeWhile fun c => isAlphanumeric c || c == '_') = tag at *
      obtain ⟨body, hbody⟩ := List.head?_eq_some_iff.1 (eq_of_beq hmark)
      rw [hbody] at happend
      subst happend
      cases hindex : indexOf? ('$' :: (tag ++ ['$'])) 0 body with
      | none =>
        rw [dollar_of_unterminated hdigit htag hindex] at htake
        rw [List.take_length, ← length_eq_of_map hcs, List.take_length] at htake
        rw [htake]
      | some n =>
        rw [dollar_string hdigit htag hindex] at htake ⊢
        obtain ⟨front, back, rfl, hn, hfront⟩ := indexOf?_cut hindex
        dsimp only at htake
        generalize hmore : tag.length + 1 + n + ('$' :: (tag ++ ['$'])).length = more at htake ⊢
        have hprefix : (tag ++ '$' :: (front ++ '$' :: (tag ++ ['$']) ++ back)).take more =
            tag ++ '$' :: (front ++ '$' :: (tag ++ ['$'])) := by
          rw [← List.cons_append, ← List.append_assoc, List.take_left']
          rw [List.length_append, List.length_cons, List.length_append]
          omega
        have hcs' : cs' = tag ++ '$' :: (front ++ '$' :: (tag ++ ['$']) ++ cs'.drop more) := by
          conv => lhs; rw [← List.take_append_drop more cs', htake, hprefix]
          rw [List.append_assoc, List.cons_append]
        rw [hcs'] at hhead ⊢
        rw [dollar_string hhead htag (indexOf?_append hfront _), hmore]

theorem variableName_map (cs : List Char) :
    variableName (cs.map Char.toUpper) = variableName cs := by
  have hname : Caseless fun c => isAlphanumeric c || c == '_' || c == '$' := by decide
  have hnames : Caseless fun c => isAlphanumeric c || c == '_' || c == '$' || c == '.' := by decide
  unfold variableName
  rw [head?_beq_map (by decide)]
  dsimp only
  generalize (if cs.head? == some '@' then 1 else 0) = signs
  rw [← List.map_drop]
  cases cs.drop signs with
  | nil => rfl
  | cons c rest =>
    rw [List.map_cons]
    dsimp only
    rw [letterless_quote.caseless.toUpper c, hname.toUpper c, length_takeWhile_map hnames]
    split
    · rename_i hc
      rw [letterless_quote.toUpper_eq hc, quotedLiteral_map (letterless_quote.caseless_beq hc)]
    · rfl

def Lexeme.folded (l : Lexeme) : Lexeme :=
  ⟨l.kind.folded, l.more⟩

theorem word_map (c : Char) (cs : List Char) :
    (word c.toUpper (cs.map Char.toUpper)).folded = (word c cs).folded := by
  have hname : Caseless fun c => isAlphanumeric c || c == '_' || c == '$' := by decide
  unfold word
  rw [takeWhile_map hname]
  dsimp only
  generalize (cs.takeWhile fun c => isAlphanumeric c || c == '_' || c == '$') = tail
  have hword : Keyword.ofString? (String.ofList (c :: tail)).toUpper =
      Keyword.ofString? (String.ofList (c :: tail)) := by
    unfold Keyword.ofString?
    rw [toUpper_toUpper_text]
  rw [← List.map_cons, ofList_map_toUpper, hword, List.length_map]
  cases Keyword.ofString? (String.ofList (c :: tail)) with
  | some k => rfl
  | none =>
    unfold Lexeme.folded TokenKind.folded
    dsimp only
    rw [toUpper_toUpper_text]

theorem isPrefixOf_map {op : List Char} (hop : ∀ x ∈ op, Caseless (· == x)) (cs : List Char) :
    op.isPrefixOf (cs.map Char.toUpper) = op.isPrefixOf cs := by
  induction op generalizing cs with
  | nil => rfl
  | cons x op ih =>
    obtain ⟨hx, hop⟩ := List.forall_mem_cons.1 hop
    cases cs with
    | nil => rfl
    | cons c cs =>
      rw [List.map_cons, List.isPrefixOf_cons_cons, List.isPrefixOf_cons_cons, ih hop, BEq.comm,
        hx.toUpper c, BEq.comm]

theorem fixedOperator_map (hc : c.toUpper = c) (cs : List Char) :
    fixedOperator c (cs.map Char.toUpper) = fixedOperator c cs := by
  have hops : fixedOperators.all fun op => op.1.toList.all fun x => decide (Caseless (· == x)) := by
    decide
  have hcons : c :: cs.map Char.toUpper = (c :: cs).map Char.toUpper := by rw [List.map_cons, hc]
  rw [fixedOperator_eq, fixedOperator_eq, hcons,
    List.find?_congr fun op hop =>
      isPrefixOf_map (caseless_of_all (List.all_eq_true.1 hops op hop)) (c :: cs)]

theorem customOperator_map (hc : c.toUpper = c) (cs : List Char) :
    customOperator c (cs.map Char.toUpper) = customOperator c cs := by
  have hcons : c :: cs.map Char.toUpper = (c :: cs).map Char.toUpper := by rw [List.map_cons, hc]
  unfold customOperator
  rw [hcons, letterless_isOperatorChar.takeWhile_map]

theorem literalPrefix?_map (c : Char) (cs : List Char) :
    literalPrefix? d c.toUpper (cs.map Char.toUpper) = literalPrefix? d c cs := by
  have hlower : Caseless Char.toLower := by decide
  have hquote : ∀ c : Char, c.toUpper = '\'' ↔ c = '\'' := Caseless.toUpper_eq_iff (by decide)
  have hquoted : ∀ rest, cs.map Char.toUpper = '\'' :: rest → ∃ rest, cs = '\'' :: rest := by
    intro rest h
    obtain ⟨c, cs, rfl, hc, -⟩ := List.map_eq_cons_iff.1 h
    exact ⟨cs, by rw [(hquote c).1 hc]⟩
  unfold literalPrefix?
  rw [hlower.toUpper c]
  generalize c.toLower = letter
  split
  · obtain ⟨rest, rfl⟩ := hquoted _ ‹_›
    rfl
  · obtain ⟨rest, rfl⟩ := hquoted _ ‹_›
    rfl
  · obtain ⟨rest, rfl⟩ := hquoted _ ‹_›
    rfl
  · obtain ⟨rest, rfl⟩ := hquoted _ ‹_›
    rfl
  · rename_i h
    obtain ⟨a, cs, rfl, ha, h⟩ := List.map_eq_cons_iff.1 h
    obtain ⟨b, cs, rfl, hb, -⟩ := List.map_eq_cons_iff.1 h
    have hand : a = '&' := (Caseless.toUpper_eq_iff (by decide) a).1 ha
    rw [hand, (hquote b).1 hb]
    rfl
  · rename_i h₁ h₂ h₃ h₄ h₅
    split
    · exact (h₁ _ rfl rfl).elim
    · exact (h₂ _ rfl rfl).elim
    · exact (h₃ _ rfl rfl).elim
    · exact (h₄ _ rfl rfl).elim
    · exact (h₅ _ rfl rfl).elim
    · rfl

/--
The second lexeme is that of a text which differs from the one of the first in the case of letters
only: they are the same up to the case of a bare name, if the text of the first is written the same
in both when it is no bare word.
-/
def Lexeme.Retained (c : Char) (cs : List Char) (c' : Char) (cs' : List Char) (l l' : Lexeme) :
    Prop :=
  (l.kind.isBareWord = false → c' = c ∧ cs'.take l.more = cs.take l.more) → l'.folded = l.folded

namespace Lexeme.Retained

variable {l l' m m' : Lexeme}

theorem of_eq (h : l' = l) : Retained c cs c' cs' l l' :=
  fun _ => congrArg Lexeme.folded h

/-- What is no bare word may be assumed to be written the same. -/
theorem of_written (hl : l.kind.isBareWord = false)
    (h : c' = c → cs'.take l.more = cs.take l.more → l' = l) : Retained c cs c' cs' l l' := by
  intro hwritten
  obtain ⟨hc, htake⟩ := hwritten hl
  rw [h hc htake]

theorem ite {p : Prop} [Decidable p] (h : p → Retained c cs c' cs' l l')
    (h' : ¬p → Retained c cs c' cs' m m') :
    Retained c cs c' cs' (if p then l else m) (if p then l' else m') := by
  split
  · exact h ‹_›
  · exact h' ‹_›

end Lexeme.Retained

theorem isBareWord_quotedName (quote : Char) (cs : List Char) :
    (quotedName quote cs).kind.isBareWord = false := by
  unfold quotedName
  split
  · split <;> rfl
  · rfl

section

variable (hc : c'.toUpper = c.toUpper) (hcs : cs'.map Char.toUpper = cs.map Char.toUpper)

include hc hcs

theorem quotedLiteral_retained (hquote : c == '\'' || c == '"' || c == '\x60') (escapes : Bool) :
    Lexeme.Retained c cs c' cs' (quotedLiteral .string c escapes 0 cs)
      (quotedLiteral .string c' escapes 0 cs') := by
  apply Lexeme.Retained.of_eq
  rw [letterless_quote.eq_of_toUpper hquote hc,
    congr_of_map (quotedLiteral_map (letterless_quote.caseless_beq hquote) _ _ _) hcs]

theorem quotedName_retained (hquote : c == '\'' || c == '"' || c == '\x60') :
    Lexeme.Retained c cs c' cs' (quotedName c cs) (quotedName c' cs') := by
  refine .of_written (isBareWord_quotedName c cs) fun _ htake => ?_
  rw [letterless_quote.eq_of_toUpper hquote hc,
    quotedName_recased (letterless_quote.caseless_beq hquote) hcs htake]

theorem prefixedLiteral_retained (kind : TokenKind) (escapes : Bool) (between : Nat) :
    Lexeme.Retained c cs c' cs'
      (quotedLiteral kind '\'' (escapes || c.toLower == 'e') (between + 1) cs)
      (quotedLiteral kind '\'' (escapes || c'.toLower == 'e') (between + 1) cs') := by
  have hlower : Caseless Char.toLower := by decide
  apply Lexeme.Retained.of_eq
  rw [hlower.congr hc, congr_of_map (quotedLiteral_map (by decide) _ _ _) hcs]

theorem word_retained : Lexeme.Retained c cs c' cs' (word c cs) (word c' cs') := by
  intro _
  rw [← word_map, hc, hcs, word_map]

theorem operator_retained (hop : isOperatorChar c) :
    Lexeme.Retained c cs c' cs'
      (if d.customOperators then customOperator c cs else fixedOperator c cs)
      (if d.customOperators then customOperator c' cs' else fixedOperator c' cs') := by
  have hown := letterless_isOperatorChar.toUpper_eq hop
  apply Lexeme.Retained.of_eq
  rw [letterless_isOperatorChar.eq_of_toUpper hop hc, congr_of_map (customOperator_map hown) hcs,
    congr_of_map (fixedOperator_map hown) hcs]

/-- A text in another case starts with the same token, up to the case of a bare name. -/
theorem lexeme_recased (glued : Bool) :
    Lexeme.Retained c cs c' cs' (lexeme d glued c cs) (lexeme d glued c' cs') := by
  have hdelimiter : Caseless delimiter? := by decide
  have hdigit : Caseless Char.isDigit := by decide
  have hletter : Caseless isLetter := by decide
  have hoperator : Caseless isOperatorChar := by decide
  have hfirst : ∀ x, Caseless (· == x) → (c' == x) = (c == x) := fun x hx => hx.congr hc
  have hhead : ∀ x, Caseless (· == x) → (cs'.head? == some x) = (cs.head? == some x) :=
    fun x hx => congr_of_map (f := (·.head? == some x)) (head?_beq_map hx) hcs
  have hnumber : number (c' :: cs') = number (c :: cs) := by
    apply congr_of_map number_map
    rw [List.map_cons, List.map_cons, hc, hcs]
  have hprefix : literalPrefix? d c' cs' = literalPrefix? d c cs := by
    rw [← literalPrefix?_map, hc, hcs, literalPrefix?_map]
  unfold lexeme
  rw [hdelimiter.congr hc, hdigit.congr hc, hletter.congr hc, hoperator.congr hc,
    hfirst '/' (by decide), hfirst '.' (by decide), hfirst ':' (by decide), hfirst '\'' (by decide),
    hfirst '"' (by decide), hfirst '\x60' (by decide), hfirst '$' (by decide),
    hfirst '@' (by decide), hfirst '_' (by decide), hhead '*' (by decide), hhead ':' (by decide),
    hhead '=' (by decide), congr_of_map (f := (·.head?.any Char.isDigit)) (head?_any_map hdigit) hcs,
    hnumber, hprefix, length_eq_of_map hcs]
  cases delimiter? c with
  | some kind => exact .of_eq rfl
  | none =>
    dsimp only
    refine .ite (fun _ => .of_eq rfl) fun _ => ?_
    refine .ite (fun _ => .of_eq rfl) fun _ => ?_
    refine .ite (fun _ => .of_eq rfl) fun _ => ?_
    refine .ite (fun hstring => quotedLiteral_retained hc hcs ?_ _) fun _ => ?_
    · simp only [Bool.or_eq_true, Bool.and_eq_true] at hstring ⊢
      exact .inl (hstring.imp_right (·.1))
    refine .ite (fun hname => quotedName_retained hc hcs ?_) fun _ => ?_
    · simp only [Bool.or_eq_true, Bool.and_eq_true] at hname ⊢
      exact hname.imp .inr (·.1)
    refine .ite (fun _ => ?_) fun _ => ?_
    · exact .of_written (TokenKind.isBareWord_of_isOrdinary (dollar_isOrdinary cs))
        fun _ => dollar_recased hcs
    refine .ite (fun _ => .of_eq (congr_of_map variableName_map hcs)) fun _ => ?_
    refine .ite (fun _ => .of_eq rfl) fun _ => ?_
    refine .ite (fun _ => ?_) fun _ => ?_
    · cases literalPrefix? d c cs with
      | some literal => exact prefixedLiteral_retained hc hcs _ _ _
      | none => exact word_retained hc hcs
    refine .ite (fun hop => operator_retained hc hcs hop) fun _ => ?_
    exact .of_written rfl fun hc _ => by rw [hc]

end

end Token

end SqlScript
