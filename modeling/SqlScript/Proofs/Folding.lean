import SqlScript.Token.Basic

/-!
Letters of ASCII folded to capitals: of characters, of texts, and of the bare names that tokens
carry. What does not look at the case of a name cannot tell the folded one from it.
-/

namespace SqlScript

namespace Text

/--
The same is said of each letter and of its capital.
-/
def Caseless (f : Char → α) : Prop :=
  ∀ k < 26, f (Char.ofNat (65 + k)) = f (Char.ofNat (97 + k))

instance [DecidableEq α] (f : Char → α) : Decidable (Caseless f) :=
  inferInstanceAs (Decidable (∀ k < 26, _ = _))

theorem toUpper_cases {p : Char → Char → Prop} (c : Char) (hself : c.toUpper = c → p c c)
    (hletter : ∀ k < 26, p (Char.ofNat (97 + k)) (Char.ofNat (65 + k))) : p c c.toUpper := by
  have hcapital : ∀ k < 26, (Char.ofNat (97 + k)).toUpper = Char.ofNat (65 + k) := by decide
  by_cases h : 97 ≤ c.toNat ∧ c.toNat ≤ 122
  · have hc : c = Char.ofNat (97 + (c.toNat - 97)) := by
      rw [Nat.add_sub_cancel' h.1, Char.ofNat_toNat]
    rw [hc, hcapital _ (by omega)]
    exact hletter _ (by omega)
  · have hc : c.toUpper = c := dif_neg h
    rw [hc]
    exact hself hc

@[simp]
theorem toUpper_toUpper (c : Char) : c.toUpper.toUpper = c.toUpper :=
  toUpper_cases (p := fun _ capital => capital.toUpper = capital) c id (by decide)

@[simp]
theorem utf8Size_toUpper (c : Char) : c.toUpper.utf8Size = c.utf8Size :=
  toUpper_cases (p := fun c capital => capital.utf8Size = c.utf8Size) c (fun _ => rfl) (by decide)

namespace Caseless

variable {f : Char → α} (hf : Caseless f)

include hf

theorem toUpper (c : Char) : f c.toUpper = f c :=
  toUpper_cases (p := fun c capital => f capital = f c) c (fun _ => rfl) hf

theorem congr {c c' : Char} (h : c'.toUpper = c.toUpper) : f c' = f c := by
  rw [← hf.toUpper c', h, hf.toUpper c]

end Caseless

theorem Caseless.toUpper_eq_iff {x : Char} (h : Caseless (· == x)) (c : Char) :
    c.toUpper = x ↔ c = x := by
  rw [← beq_iff_eq, ← beq_iff_eq (a := c), h.toUpper c]

theorem caseless_of_all {cs : List Char} (h : cs.all fun x => decide (Caseless (· == x))) :
    ∀ x ∈ cs, Caseless (· == x) :=
  fun x hx => of_decide_eq_true (List.all_eq_true.1 h x hx)

@[simp]
theorem toList_toUpper (s : String) : s.toUpper.toList = s.toList.map Char.toUpper :=
  String.toList_map

theorem ofList_map_toUpper (cs : List Char) :
    String.ofList (cs.map Char.toUpper) = (String.ofList cs).toUpper := by
  rw [← String.toList_inj, toList_toUpper, String.toList_ofList, String.toList_ofList]

@[simp]
theorem toUpper_toUpper_text (s : String) : s.toUpper.toUpper = s.toUpper := by
  rw [← String.toList_inj]
  simp

theorem sameLetters_toUpper (a b : String) : sameLetters a.toUpper b = sameLetters a b := by
  unfold sameLetters
  rw [toUpper_toUpper_text]

theorem sameLetters_congr {a a' b : String} (h : a'.toUpper = a.toUpper) :
    sameLetters a' b = sameLetters a b := by
  unfold sameLetters
  rw [h]

theorem head?_beq_map {x : Char} (hx : Caseless (· == x)) (cs : List Char) :
    ((cs.map Char.toUpper).head? == some x) = (cs.head? == some x) := by
  cases cs with
  | nil => rfl
  | cons c cs => exact hx.toUpper c

end Text

namespace TokenKind

/--
The kind with a bare name in capitals.
-/
def folded : TokenKind → TokenKind
  | identifier name => identifier name.toUpper
  | kind => kind

def isBareWord : TokenKind → Bool
  | identifier _ | keyword _ => true
  | _ => false

variable {k k' : TokenKind}

theorem eq_or_of_folded (h : k'.folded = k.folded) :
    k' = k ∨ ∃ name name', k = .identifier name ∧ k' = .identifier name' ∧
      name'.toUpper = name.toUpper := by
  cases k <;> cases k' <;> first | exact .inl h | contradiction | skip
  exact .inr ⟨_, _, rfl, rfl, TokenKind.identifier.inj h⟩

theorem congr_folded {f : TokenKind → α}
    (hf : ∀ name, f (.identifier name.toUpper) = f (.identifier name))
    (h : k'.folded = k.folded) : f k' = f k := by
  obtain rfl | ⟨name, name', rfl, rfl, hname⟩ := eq_or_of_folded h
  · rfl
  · rw [← hf name', hname, hf name]

theorem alike_congr (h : k'.folded = k.folded) (kind : TokenKind) :
    k'.alike kind = k.alike kind :=
  congr_folded (f := (·.alike kind)) (fun _ => rfl) h

end TokenKind

namespace Token

variable {t t' : Token} (h : t'.kind.folded = t.kind.folded)

include h

theorem keyword?_congr : t'.keyword? = t.keyword? :=
  TokenKind.congr_folded (f := fun kind => keyword? ⟨kind, default⟩) (fun _ => rfl) h

theorem isKeyword_congr (word : Keyword) : t'.isKeyword word = t.isKeyword word := by
  unfold isKeyword
  rw [keyword?_congr h]

theorem isOneOf_congr (words : List Keyword) : t'.isOneOf words = t.isOneOf words := by
  unfold isOneOf
  rw [keyword?_congr h]

theorem isWord_congr (word : String) : t'.isWord word = t.isWord word :=
  TokenKind.congr_folded (f := fun kind => isWord ⟨kind, default⟩ word)
    (fun name => Text.sameLetters_toUpper name word) h

theorem isNamePart_congr : t'.isNamePart = t.isNamePart :=
  TokenKind.congr_folded (f := fun kind => isNamePart ⟨kind, default⟩) (fun _ => rfl) h

end Token

end SqlScript
