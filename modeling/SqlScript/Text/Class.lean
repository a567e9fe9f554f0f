import SqlScript.Text.Bisect
import SqlScript.Text.Ranges

/-!
The character classes by which SQL text is cut into tokens. Blanks, letters and numerals follow the
Unicode properties; digits are those of ASCII, and letter case is folded in ASCII only. Counts are
written in decimal digits.
-/

namespace SqlScript.Text

/--
Does a code point lie in one of the ranges? The ranges are in increasing order.
-/
def inRanges (ranges : Array (Nat × Nat)) (code : Nat) : Bool :=
  match ranges[bisect ranges (·.2 < code)]? with
  | some (low, high) => low ≤ code && code ≤ high
  | none => false

/--
Characters that separate tokens: the property `White_Space`.
-/
def isBlank (c : Char) : Bool :=
  if c.toNat < 128 then c == ' ' || ('\t' ≤ c && c ≤ '\r') else inRanges blankRanges c.toNat

/--
Characters that may start a bare name: the property `Alphabetic`.
-/
def isLetter (c : Char) : Bool :=
  if c.toNat < 128 then c.isAlpha else inRanges letterRanges c.toNat

/--
Letters and the numerals of any script.
-/
def isAlphanumeric (c : Char) : Bool :=
  if c.toNat < 128 then c.isAlphanum
  else inRanges letterRanges c.toNat || inRanges numeralRanges c.toNat

def isHexDigit (c : Char) : Bool :=
  c.isDigit || ('a' ≤ c && c ≤ 'f') || ('A' ≤ c && c ≤ 'F')

/--
Equality up to the case of ASCII letters.
-/
def sameLetters (a b : String) : Bool :=
  a.toUpper == b.toUpper

@[elab_as_elim]
theorem of_isWhitespace {p : Char → Prop} {c : Char} (h : c.isWhitespace)
    (hp : p ' ' ∧ p '\t' ∧ p '\r' ∧ p '\n') : p c := by
  simp only [Char.isWhitespace, Bool.or_eq_true, decide_eq_true_eq] at h
  obtain ⟨hspace, htab, hreturn, hnewline⟩ := hp
  obtain ((rfl | rfl) | rfl) | rfl := h
  · exact hspace
  · exact htab
  · exact hreturn
  · exact hnewline

theorem isBlank_of_isWhitespace {c : Char} (h : c.isWhitespace) : isBlank c :=
  of_isWhitespace h (by decide)

theorem sameLetters_self (a : String) : sameLetters a a := by
  simp [sameLetters]

/--
The first number that is too large to be a count, which has 64 bits.
-/
def countLimit : Nat :=
  UInt64.size

def ofDigits (digits : List Char) : Nat :=
  digits.foldl (fun n c => 10 * n + (c.toNat - '0'.toNat)) 0

/--
The count that is written as one digit or more, possibly behind a plus sign.
-/
def count? (text : String) : Option Nat :=
  let digits :=
    match text.toList with
    | '+' :: cs => cs
    | cs => cs
  if digits ≠ [] ∧ digits.all Char.isDigit ∧ ofDigits digits < countLimit then
    some (ofDigits digits)
  else
    none

theorem lt_of_count?_eq_some {text : String} {n : Nat} (h : count? text = some n) :
    n < countLimit := by
  grind [count?]

end SqlScript.Text
