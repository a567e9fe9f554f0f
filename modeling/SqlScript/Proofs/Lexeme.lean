import Mathlib.Logic.Basic
import SqlScript.Token.Lexer

/-!
What kinds of token a text can start with, and how tokens of some kinds are written.
-/

namespace SqlScript

namespace TokenKind

/--
The kinds of which nothing is said below: all but the end of the text, the separator of statements,
names, keywords, the operators that can stand for one, and those that compare.
-/
def isOrdinary : TokenKind → Bool
  | eof | semicolon | identifier _ | quotedIdentifier _ | keyword _ | concat | logicalAnd
  | eq | notEq | lt | ltEq | gt | gtEq | nullSafeEq => false
  | _ => true

/--
The kinds that are neither the end of the text or of a statement nor a word nor a name.
-/
def isSign : TokenKind → Bool
  | eof | semicolon | identifier _ | quotedIdentifier _ | keyword _ => false
  | _ => true

def startsWord (c : Char) : Bool :=
  Text.isLetter c || c == '_'

def isEnclosed : List Char → Bool
  | quote :: inner =>
    (quote == '"' || quote == '\x60') && inner.getLast? == some quote && 1 < inner.length
  | [] => false

def spelledBy (text : String) : TokenKind → Bool
  | semicolon => text == ";"
  | identifier name => text == name && text.toList.head?.any startsWord
  | quotedIdentifier _ => isEnclosed text.toList
  | keyword word => Keyword.ofString? text == some word && text.toList.head?.any startsWord
  | concat => text == "||"
  | logicalAnd => text == "&&"
  | eq => text == "="
  | notEq => text == "<>" || text == "!="
  | lt => text == "<"
  | ltEq => text == "<="
  | gt => text == ">"
  | gtEq => text == ">="
  | nullSafeEq => text == "<=>"
  | _ => true

theorem spelledBy_of_isOrdinary {kind : TokenKind} (h : kind.isOrdinary) (text : String) :
    kind.spelledBy text := by
  cases kind <;> first | rfl | contradiction

end TokenKind

namespace Token

variable {d : Dialect} {c : Char} {cs : List Char}

theorem isOrdinary_of_delimiter? {k : TokenKind} (h : delimiter? c = some k) :
    k.isOrdinary ∨ c = ';' ∧ k = .semicolon := by
  unfold delimiter? at h
  split at h <;> cases h
  case h_6 => exact .inr ⟨rfl, rfl⟩
  all_goals exact .inl rfl

theorem quotedLiteral_isOrdinary {kind : TokenKind} (h : kind.isOrdinary) (quote : Char)
    (escapes : Bool) (before : Nat) (cs : List Char) :
    (quotedLiteral kind quote escapes before cs).kind.isOrdinary := by
  unfold quotedLiteral
  split
  · exact h
  · rfl

theorem number_isOrdinary (cs : List Char) : (number cs).kind.isOrdinary := by
  have hdecimal : ∀ cs, (decimal cs).kind.isOrdinary := by
    intro cs
    unfold decimal
    dsimp only
    split <;> rfl
  unfold number
  split
  · split
    · rfl
    · split
      · rfl
      · exact hdecimal _
  · exact hdecimal _

theorem dollar_isOrdinary (cs : List Char) : (dollar cs).kind.isOrdinary := by
  unfold dollar
  split
  · rfl
  · dsimp only
    split
    · split <;> rfl
    · rfl

theorem variableName_isOrdinary (cs : List Char) : (variableName cs).kind.isOrdinary := by
  unfold variableName
  dsimp only
  split
  · split
    · exact quotedLiteral_isOrdinary rfl _ _ _ _
    · split <;> rfl
  · rfl

theorem isOrdinary_of_literalPrefix? {kind : TokenKind} {between : Nat}
    (h : literalPrefix? d c cs = some (kind, between)) : kind.isOrdinary := by
  unfold literalPrefix? at h
  split at h <;> (try split at h) <;> cases h <;> rfl

theorem lexeme_cases (glued : Bool) (c : Char) (cs : List Char) :
    (lexeme d glued c cs).kind.isOrdinary ∨
      c = ';' ∧ lexeme d glued c cs = ⟨.semicolon, 0⟩ ∨
      (c = '"' ∨ c = '\x60') ∧ lexeme d glued c cs = quotedName c cs ∨
      TokenKind.startsWord c ∧ lexeme d glued c cs = word c cs ∨
      lexeme d glued c cs = customOperator c cs ∨ lexeme d glued c cs = fixedOperator c cs := by
  generalize h : lexeme d glued c cs = l
  unfold lexeme at h
  cases hdelimiter : delimiter? c with
  | some kind =>
    simp only [hdelimiter] at h
    subst h
    obtain hordinary | ⟨rfl, rfl⟩ := isOrdinary_of_delimiter? hdelimiter
    · exact .inl hordinary
    · exact .inr (.inl ⟨rfl, rfl⟩)
  | none =>
    simp only [hdelimiter] at h
    obtain ⟨-, rfl⟩ | ⟨-, h⟩ := ite_eq_iff.1 h
    · exact .inl rfl
    obtain ⟨-, h⟩ | ⟨-, h⟩ := ite_eq_iff.1 h
    · obtain ⟨-, rfl⟩ | ⟨-, rfl⟩ := ite_eq_iff.1 h
      · exact .inl (number_isOrdinary _)
      · exact .inl rfl
    obtain ⟨-, h⟩ | ⟨-, h⟩ := ite_eq_iff.1 h
    · obtain ⟨-, rfl⟩ | ⟨-, h⟩ := ite_eq_iff.1 h
      · exact .inl rfl
      · obtain ⟨-, rfl⟩ | ⟨-, rfl⟩ := ite_eq_iff.1 h <;> exact .inl rfl
    obtain ⟨-, rfl⟩ | ⟨-, h⟩ := ite_eq_iff.1 h
    · exact .inl (quotedLiteral_isOrdinary rfl _ _ _ _)
    obtain ⟨hquote, h⟩ | ⟨-, h⟩ := ite_eq_iff.1 h
    · refine .inr (.inr (.inl ⟨?_, h.symm⟩))
      simp only [Bool.or_eq_true, Bool.and_eq_true, beq_iff_eq] at hquote
      exact hquote.imp_right (·.1)
    obtain ⟨-, rfl⟩ | ⟨-, h⟩ := ite_eq_iff.1 h
    · exact .inl (dollar_isOrdinary _)
    obtain ⟨-, rfl⟩ | ⟨-, h⟩ := ite_eq_iff.1 h
    · exact .inl (variableName_isOrdinary _)
    obtain ⟨-, rfl⟩ | ⟨-, h⟩ := ite_eq_iff.1 h
    · exact .inl (number_isOrdinary _)
    obtain ⟨hletter, h⟩ | ⟨-, h⟩ := ite_eq_iff.1 h
    · cases hpre : literalPrefix? d c cs with
      | some literal =>
        simp only [hpre] at h
        subst h
        exact .inl (quotedLiteral_isOrdinary (isOrdinary_of_literalPrefix? hpre) _ _ _ _)
      | none =>
        simp only [hpre] at h
        exact .inr (.inr (.inr (.inl ⟨hletter, h.symm⟩)))
    obtain ⟨-, h⟩ | ⟨-, rfl⟩ := ite_eq_iff.1 h
    · obtain ⟨-, h⟩ | ⟨-, h⟩ := ite_eq_iff.1 h
      · exact .inr (.inr (.inr (.inr (.inl h.symm))))
      · exact .inr (.inr (.inr (.inr (.inr h.symm))))
    · exact .inl rfl

theorem quotedName_ne_eof (quote : Char) (cs : List Char) :
    (quotedName quote cs).kind ≠ .eof := by
  unfold quotedName
  split
  · split <;> simp
  · simp

theorem word_ne_eof (c : Char) (cs : List Char) : (word c cs).kind ≠ .eof := by
  unfold word
  dsimp only
  split <;> simp

theorem fixedOperator_isSign (c : Char) (cs : List Char) : (fixedOperator c cs).kind.isSign := by
  unfold fixedOperator
  split
  · rename_i text kind h
    have hkinds : ∀ op ∈ fixedOperators, op.2.isSign := by decide
    exact hkinds _ (List.mem_of_find?_eq_some h)
  · rfl

theorem customOperator_isSign (c : Char) (cs : List Char) : (customOperator c cs).kind.isSign := by
  unfold customOperator
  dsimp only
  split
  · rename_i text kind h
    have hkinds : ∀ op ∈ namedOperators, op.2.isSign := by decide
    exact hkinds _ (List.mem_of_find?_eq_some h)
  · rfl

theorem lexeme_ne_eof (glued : Bool) (c : Char) (cs : List Char) :
    (lexeme d glued c cs).kind ≠ .eof := by
  obtain h | ⟨-, h⟩ | ⟨-, h⟩ | ⟨-, h⟩ | h | h := lexeme_cases (d := d) glued c cs
  · intro heof
    rw [heof] at h
    contradiction
  · rw [h]
    exact nofun
  · rw [h]
    exact quotedName_ne_eof c cs
  · rw [h]
    exact word_ne_eof c cs
  · intro heof
    have hsign := customOperator_isSign c cs
    rw [← h, heof] at hsign
    contradiction
  · intro heof
    have hsign := fixedOperator_isSign c cs
    rw [← h, heof] at hsign
    contradiction

theorem isPrefix_of_closingQuote? {quote : Char} {escapes : Bool} {n m : Nat}
    (h : closingQuote? quote escapes n cs = some m) :
    ∃ inner, inner ++ [quote] <+: cs ∧ m = n + inner.length + 1 := by
  fun_induction closingQuote? quote escapes n cs with
  | case1 => contradiction
  | case2 => contradiction
  | case3 n c _ next rest ih =>
    obtain ⟨inner, hinner, rfl⟩ := ih h
    refine ⟨c :: next :: inner, ?_, by simp only [List.length_cons]; omega⟩
    exact (List.prefix_cons_inj _).2 ((List.prefix_cons_inj _).2 hinner)
  | case4 n c _ hc =>
    cases h
    exact ⟨[], by simp [eq_of_beq hc], rfl⟩
  | case5 n c _ _ next rest _ ih =>
    obtain ⟨inner, hinner, rfl⟩ := ih h
    refine ⟨c :: next :: inner, ?_, by simp only [List.length_cons]; omega⟩
    exact (List.prefix_cons_inj _).2 ((List.prefix_cons_inj _).2 hinner)
  | case6 n c _ hc next rest _ =>
    cases h
    exact ⟨[], by simp [eq_of_beq hc], rfl⟩
  | case7 n c cs _ _ ih =>
    obtain ⟨inner, hinner, rfl⟩ := ih h
    refine ⟨c :: inner, ?_, by simp only [List.length_cons]; omega⟩
    exact (List.prefix_cons_inj _).2 hinner

theorem quotedName_spelledBy {quote : Char} (hquote : quote = '"' ∨ quote = '\x60')
    (cs : List Char) :
    (quotedName quote cs).kind.spelledBy
      (String.ofList (quote :: cs.take (quotedName quote cs).more)) := by
  unfold quotedName
  cases h : closingQuote? quote false 0 cs with
  | none => rfl
  | some n =>
    dsimp only
    split
    · rfl
    · rename_i hname
      obtain ⟨inner, ⟨rest, rfl⟩, rfl⟩ := isPrefix_of_closingQuote? h
      have hinner : inner ≠ [] := by
        rintro rfl
        exact hname (by simp [undouble])
      have htake : (inner ++ [quote] ++ rest).take (0 + inner.length + 1) = inner ++ [quote] :=
        List.take_left' (by simp)
      rw [htake]
      have hlength := List.length_pos_iff.2 hinner
      simpa [TokenKind.spelledBy, TokenKind.isEnclosed, hlength] using hquote

theorem word_spelledBy {c : Char} (hc : TokenKind.startsWord c) (cs : List Char) :
    (word c cs).kind.spelledBy (String.ofList (c :: cs.take (word c cs).more)) := by
  have htail : cs.take (cs.takeWhile fun c => Text.isAlphanumeric c || c == '_' || c == '$').length =
      cs.takeWhile fun c => Text.isAlphanumeric c || c == '_' || c == '$' :=
    (List.prefix_iff_eq_take.1 (List.takeWhile_prefix _)).symm
  unfold word
  dsimp only
  split
  · rename_i k hk
    rw [htail]
    simp only [TokenKind.spelledBy, hk, String.toList_ofList, List.head?_cons, Option.any_some, hc,
      beq_self_eq_true, Bool.and_self]
  · rw [htail]
    simp only [TokenKind.spelledBy, String.toList_ofList, List.head?_cons, Option.any_some, hc,
      beq_self_eq_true, Bool.and_self]

theorem cons_take_eq {text : String} (hpre : text.toList <+: c :: cs) (hne : 0 < text.length) :
    String.ofList (c :: cs.take (text.length - 1)) = text := by
  have htake := List.prefix_iff_eq_take.1 hpre
  rw [String.length_toList] at htake
  obtain ⟨n, hn⟩ := Nat.exists_eq_succ_of_ne_zero (Nat.ne_of_gt hne)
  rw [hn, List.take_succ_cons] at htake
  rw [hn, Nat.succ_eq_add_one, Nat.add_sub_cancel, ← htake, String.ofList_toList]

theorem fixedOperator_spelledBy (c : Char) (cs : List Char) :
    (fixedOperator c cs).kind.spelledBy
      (String.ofList (c :: cs.take (fixedOperator c cs).more)) := by
  unfold fixedOperator
  split
  · rename_i text kind h
    have hspelled : ∀ op ∈ fixedOperators, 0 < op.1.length ∧ op.2.spelledBy op.1 := by decide
    obtain ⟨hne, hspelled⟩ := hspelled _ (List.mem_of_find?_eq_some h)
    have hpre := List.find?_some h
    rw [cons_take_eq (List.isPrefixOf_iff_prefix.1 hpre) hne]
    exact hspelled
  · rfl

theorem dropSigns_suffix (cs : List Char) : dropSigns cs <:+ cs := by
  fun_induction dropSigns cs with
  | case1 c next rest h ih => exact ih.trans (List.suffix_cons _ _)
  | case2 => exact List.suffix_refl _
  | case3 => exact List.suffix_refl _

theorem isPrefix_cutAt (mark run : List Char) : cutAt mark run <+: run := by
  unfold cutAt
  split
  · split
    · exact List.take_prefix _ _
    · exact List.prefix_refl _
  · exact List.prefix_refl _

theorem isPrefix_trimSigns (run : List Char) : trimSigns run <+: run := by
  unfold trimSigns
  split
  · exact List.prefix_refl _
  · exact List.reverse_suffix.1 (by simpa using dropSigns_suffix run.reverse)

theorem isPrefix_munch (run : List Char) : munch run <+: run :=
  (isPrefix_trimSigns _).trans ((isPrefix_cutAt _ _).trans (isPrefix_cutAt _ _))

theorem customOperator_spelledBy (c : Char) (cs : List Char) :
    (customOperator c cs).kind.spelledBy
      (String.ofList (c :: cs.take (customOperator c cs).more)) := by
  have hpre : munch ((c :: cs).takeWhile isOperatorChar) <+: c :: cs :=
    (isPrefix_munch _).trans (List.takeWhile_prefix _)
  unfold customOperator
  dsimp only
  generalize munch ((c :: cs).takeWhile isOperatorChar) = op at hpre
  split
  · rename_i text kind h
    have hspelled : ∀ op ∈ namedOperators, 0 < op.1.length ∧ op.2.spelledBy op.1 := by decide
    obtain ⟨hne, hspelled⟩ := hspelled _ (List.mem_of_find?_eq_some h)
    have htext := List.find?_some h
    have htext : text = String.ofList op := eq_of_beq htext
    subst htext
    have heq := cons_take_eq (by simpa using hpre) hne
    rw [String.length_ofList] at heq
    rw [heq]
    exact hspelled
  · rfl

theorem lexeme_spelledBy (glued : Bool) (c : Char) (cs : List Char) :
    (lexeme d glued c cs).kind.spelledBy
      (String.ofList (c :: cs.take (lexeme d glued c cs).more)) := by
  obtain h | ⟨rfl, h⟩ | ⟨hquote, h⟩ | ⟨hc, h⟩ | h | h := lexeme_cases (d := d) glued c cs
  · exact TokenKind.spelledBy_of_isOrdinary h _
  · rw [h]
    rfl
  · rw [h]
    exact quotedName_spelledBy hquote cs
  · rw [h]
    exact word_spelledBy hc cs
  · rw [h]
    exact customOperator_spelledBy c cs
  · rw [h]
    exact fixedOperator_spelledBy c cs

theorem eq_semicolon_of_lexeme {glued : Bool} (h : (lexeme d glued c cs).kind = .semicolon) :
    c = ';' := by
  have hspelled := lexeme_spelledBy (d := d) glued c cs
  rw [h] at hspelled
  have htext := congrArg String.toList (eq_of_beq hspelled)
  rw [String.toList_ofList] at htext
  exact (List.cons.inj htext).1

end Token

end SqlScript
