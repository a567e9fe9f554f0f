import SqlScript.Proofs.Group
import SqlScript.Proofs.Shape.Loops

/-!
What a `CASE` takes. It is taken up to an `END` outside of all groups, but looked for among all
tokens: `END` is no reserved word everywhere, so a group may hold one that ends nothing. Where the
words inside of groups pair up, a `CASE` is taken as far as it is seen.
-/

namespace SqlScript

namespace Token

/--
Do `CASE` and `END` pair up inside of every group? `groups` are open, and inside of the outermost of
them as many `CASE`s as `cases`.
-/
def casesPaired (groups cases : Nat) : List Token → Bool
  | [] => true
  | t :: ts =>
    match t.kind with
    | .leftParen | .leftBracket => casesPaired (groups + 1) cases ts
    | .rightParen | .rightBracket =>
      (groups != 1 || cases == 0) && casesPaired (groups - 1) cases ts
    | .keyword .CASE => casesPaired groups (if groups == 0 then cases else cases + 1) ts
    | .keyword .END =>
      (groups == 0 || cases != 0) &&
        casesPaired groups (if groups == 0 then cases else cases - 1) ts
    | _ => casesPaired groups cases ts

theorem casesPaired_left {groups cases : Nat} {us vs : List Token}
    (h : casesPaired groups cases (us ++ vs)) : casesPaired groups cases us := by
  induction us generalizing groups cases with
  | nil => rfl
  | cons t us ih =>
    rw [List.cons_append, casesPaired] at h
    rw [casesPaired]
    split at h
    · exact ih h
    · exact ih h
    · rw [Bool.and_eq_true] at h ⊢
      exact ⟨h.1, ih h.2⟩
    · rw [Bool.and_eq_true] at h ⊢
      exact ⟨h.1, ih h.2⟩
    · exact ih h
    · rw [Bool.and_eq_true] at h ⊢
      exact ⟨h.1, ih h.2⟩
    · exact ih h

end Token

open Token (casesPaired)

namespace Lookahead

theorem closingEnd?_cons {t : Token} (hcase : t.kind ≠ .keyword .CASE)
    (hend : t.kind ≠ .keyword .END) (depth index : Nat) (ts : List Token) :
    closingEnd? depth index (t :: ts) = closingEnd? depth (index + 1) ts := by
  rw [closingEnd?]
  split
  · exact absurd ‹_› hcase
  · exact absurd ‹_› hend
  · rfl

theorem closingEnd?_case {t : Token} (h : t.kind = .keyword .CASE) (depth index : Nat)
    (ts : List Token) :
    closingEnd? depth index (t :: ts) = closingEnd? (depth + 1) (index + 1) ts := by
  rw [closingEnd?, h]

theorem closingEnd?_end {t : Token} (h : t.kind = .keyword .END) {depth : Nat} (hdepth : 0 < depth)
    (index : Nat) (ts : List Token) :
    closingEnd? (depth + 1) index (t :: ts) = closingEnd? depth (index + 1) ts := by
  rw [closingEnd?, h]
  exact if_neg (by omega)

/--
Behind these tokens, which leave no group open, `after` of the `CASE`s are open where `before` of
them were in front, if the words inside of groups pair up.
-/
def CountsCases (before after : Nat) (us : List Token) : Prop :=
  ∀ vs, casesPaired 0 0 (us ++ vs) → casesPaired 0 0 vs ∧
    ∀ index ws, closingEnd? before index (us ++ ws) = closingEnd? after (index + us.length) ws

namespace CountsCases

variable {before between after : Nat} {us us' : List Token} {t : Token}

theorem append (h : CountsCases before between us) (h' : CountsCases between after us') :
    CountsCases before after (us ++ us') := by
  intro vs hpaired
  rw [List.append_assoc] at hpaired
  obtain ⟨hpaired, hcount⟩ := h _ hpaired
  obtain ⟨hpaired, hcount'⟩ := h' _ hpaired
  refine ⟨hpaired, fun index ws => ?_⟩
  rw [List.append_assoc, hcount, hcount', List.length_append, Nat.add_assoc]

theorem case (h : t.kind = .keyword .CASE) : CountsCases before (before + 1) [t] := by
  intro vs hpaired
  rw [List.cons_append, casesPaired] at hpaired
  simp only [h] at hpaired
  exact ⟨hpaired, fun index ws => closingEnd?_case h before index ws⟩

theorem end' (h : t.kind = .keyword .END) (hpos : 0 < after) :
    CountsCases (after + 1) after [t] := by
  intro vs hpaired
  rw [List.cons_append, casesPaired] at hpaired
  simp only [h] at hpaired
  exact ⟨hpaired, fun index ws => closingEnd?_end h hpos index ws⟩

theorem closingEnd?_of_balanced {closers : List TokenKind}
    (h : Balanced (·.isOneOf [.CASE, .END]) closers us) {cases : Nat}
    (hcases : closers = [] → cases = 0) {vs : List Token}
    (hpaired : casesPaired closers.length cases (us ++ vs)) :
    casesPaired 0 0 vs ∧ ∀ depth, 0 < depth → ∀ index ws,
      closingEnd? (depth + cases) index (us ++ ws) = closingEnd? depth (index + us.length) ws := by
  have hlength (t : Token) (us : List Token) (index : Nat) :
      index + (t :: us).length = index + 1 + us.length := by
    rw [List.length_cons]
    omega
  induction h generalizing cases with
  | nil =>
    rw [hcases rfl] at hpaired ⊢
    exact ⟨hpaired, fun _ _ _ _ => rfl⟩
  | paren h _ ih | bracket h _ ih =>
    rw [List.cons_append, casesPaired] at hpaired
    simp only [h] at hpaired
    obtain ⟨hpaired, hcount⟩ := ih nofun hpaired
    refine ⟨hpaired, fun depth hdepth index ws => ?_⟩
    rw [List.cons_append, closingEnd?_cons (by simp [h]) (by simp [h]), hcount depth hdepth,
      hlength]
  | @close t closers us h _ ih =>
    have hother : (closers.length + 1 != 1 || cases == 0) ∧
        casesPaired closers.length cases (us ++ vs) := by
      rw [List.cons_append, casesPaired] at hpaired
      obtain h | h := h <;>
        simpa only [h, Bool.and_eq_true, List.length_cons, Nat.add_sub_cancel] using hpaired
    obtain ⟨hpaired, hcount⟩ := ih (by rintro rfl; simpa using hother.1) hother.2
    refine ⟨hpaired, fun depth hdepth index ws => ?_⟩
    have hcase : t.kind ≠ .keyword .CASE := by obtain h | h := h <;> simp [h]
    have hend : t.kind ≠ .keyword .END := by obtain h | h := h <;> simp [h]
    rw [List.cons_append, closingEnd?_cons hcase hend, hcount depth hdepth, hlength]
  | @inner t closers us h _ hstop _ ih =>
    have hopen (hword : t.isOneOf [.CASE, .END]) : closers.length ≠ 0 := by
      simpa using hstop hword
    by_cases hcase : t.kind = .keyword .CASE
    · have hlen := hopen (by simp [Token.isOneOf, Token.keyword?, hcase])
      rw [List.cons_append, casesPaired] at hpaired
      simp only [hcase, beq_iff_eq, if_neg hlen] at hpaired
      obtain ⟨hpaired, hcount⟩ := ih (by rintro rfl; exact absurd rfl hlen) hpaired
      refine ⟨hpaired, fun depth hdepth index ws => ?_⟩
      rw [List.cons_append, closingEnd?_case hcase, Nat.add_assoc, hcount depth hdepth, hlength]
    by_cases hend : t.kind = .keyword .END
    · have hlen := hopen (by simp [Token.isOneOf, Token.keyword?, hend])
      rw [List.cons_append, casesPaired] at hpaired
      simp only [hend, beq_iff_eq, hlen, if_false, Bool.and_eq_true, Bool.or_eq_true, false_or,
        bne_iff_ne] at hpaired
      obtain ⟨hpos, hpaired⟩ := hpaired
      obtain ⟨cases, rfl⟩ := Nat.exists_eq_add_one_of_ne_zero hpos
      obtain ⟨hpaired, hcount⟩ := ih (by rintro rfl; exact absurd rfl hlen) hpaired
      refine ⟨hpaired, fun depth hdepth index ws => ?_⟩
      rw [List.cons_append, ← Nat.add_assoc, closingEnd?_end hend (by omega), hlength]
      exact hcount depth hdepth _ ws
    · have hother : casesPaired closers.length cases (us ++ vs) := by
        rw [List.cons_append, casesPaired] at hpaired
        simp only [List.mem_cons, List.not_mem_nil, or_false, not_or] at h
        split at hpaired
        all_goals simp_all
      obtain ⟨hpaired, hcount⟩ := ih hcases hother
      refine ⟨hpaired, fun depth hdepth index ws => ?_⟩
      rw [List.cons_append, closingEnd?_cons hcase hend, hcount depth hdepth, hlength]

theorem of_balanced (h : Balanced (·.isOneOf [.CASE, .END]) [] us) (hpos : 0 < before) :
    CountsCases before before us := by
  intro vs hpaired
  obtain ⟨hpaired, hcount⟩ := closingEnd?_of_balanced h (fun _ => rfl) hpaired
  exact ⟨hpaired, hcount before hpos⟩

end CountsCases

end Lookahead

namespace Parser

open Lookahead (CountsCases)

variable {ρ : Type} {c : Setting} {s t : ParserState ρ} {ts : List Token} {depth : Nat}

theorem eatKeyword_ok_true (hstop : c.stop.kind = .eof) {word : Keyword}
    (h : (eatKeyword word : Parser ρ Bool) c s = .ok true t) :
    ∃ first, first.kind = .keyword word ∧ s.rest = first :: t.rest := by
  rw [eatKeyword, eatIf_eq] at h
  split at h
  · rename_i hword
    cases h
    have hne : TokenKind.keyword word ≠ .eof := by simp
    obtain ⟨first, rest, hrest, hkind⟩ := Lookahead.exists_cons_of_kind (a := c.ahead s.rest) hstop
      (Lookahead.kind_of_isKeyword hword) hne
    rw [Setting.rest_ahead] at hrest
    refine ⟨first, hkind, ?_⟩
    rw [ParserState.rest_advance, hrest, List.tail_cons]
  · cases h

theorem eatKeyword_ok_false {word : Keyword}
    (h : (eatKeyword word : Parser ρ Bool) c s = .ok false t) : t = s := by
  rw [eatKeyword, eatIf_eq] at h
  split at h
  · cases h
  · cases h
    rfl

def InCase (ts : List Token) (depth : Nat) (s : ParserState ρ) : Prop :=
  0 < depth ∧ ∃ us, ts = us ++ s.rest ∧ CountsCases 0 depth us

def PastCase (ts : List Token) (s : ParserState ρ) : Prop :=
  ∃ us, ts = us ++ s.rest ∧
    (casesPaired 0 0 us → Lookahead.closingEnd? 0 0 ts = some us.length)

theorem round_ok (hstop : c.stop.kind = .eof) {next : Option Nat} (hs : InCase ts depth s) :
    bumpCase.round depth c s = .ok next t →
      match next with
      | some depth => InCase ts depth t ∧ t.rest.length < s.rest.length
      | none => PastCase ts t := by
  intro h
  obtain ⟨hpos, us, hus, hcount⟩ := hs
  obtain ⟨_, u, hu, h⟩ := bind_eq_ok h
  obtain ⟨us', hus', hbalanced⟩ := bumpBalancedUntil_ok hu
  have hbefore := hcount.append (.of_balanced hbalanced hpos)
  obtain ⟨isCase, v, hv, h⟩ := bind_eq_ok h
  cases isCase with
  | true =>
    obtain ⟨first, hkind, hrest⟩ := eatKeyword_ok_true hstop hv
    cases h
    refine ⟨⟨Nat.succ_pos _, _, ?_, hbefore.append (.case hkind)⟩, ?_⟩
    · rw [hus, hus', hrest]
      simp
    · rw [hus', hrest]
      simp
      omega
  | false =>
    cases eatKeyword_ok_false hv
    obtain ⟨isEnd, w, hw, h⟩ := bind_eq_ok h
    cases isEnd with
    | true =>
      obtain ⟨first, hkind, hrest⟩ := eatKeyword_ok_true hstop hw
      cases h
      have htaken : ts = us ++ us' ++ [first] ++ t.rest := by
        rw [hus, hus', hrest]
        simp
      by_cases hdepth : depth ≤ 1
      · rw [if_pos hdepth]
        refine ⟨_, htaken, fun hpaired => ?_⟩
        rw [htaken, List.append_assoc, (hbefore [first] hpaired).2, List.cons_append,
          Lookahead.closingEnd?]
        simp only [hkind, if_pos hdepth, Nat.zero_add, List.length_append, List.length_singleton]
      · rw [if_neg hdepth]
        obtain ⟨depth, rfl⟩ : ∃ k, depth = k + 1 + 1 := ⟨depth - 2, by omega⟩
        refine ⟨⟨Nat.succ_pos _, _, htaken, hbefore.append (.end' hkind (Nat.succ_pos _))⟩, ?_⟩
        rw [hus', hrest]
        simp
        omega
    | false => cases h

theorem bumpCase_ok (hstop : c.stop.kind = .eof) (h : (bumpCase : Parser ρ Unit) c s = .ok () t) :
    (c.ahead s.rest).isKeyword 0 .CASE ∧ PastCase s.rest t := by
  obtain ⟨_, u, hu, h⟩ := bind_eq_ok h
  rw [expectKeyword, expectIf_eq] at hu
  split at hu
  · rename_i hword
    cases hu
    obtain ⟨first, rest, hrest, hkind⟩ := Lookahead.exists_cons_of_kind (a := c.ahead s.rest) hstop
      (Lookahead.kind_of_isKeyword hword) nofun
    rw [Setting.rest_ahead] at hrest
    have hfront : InCase s.rest 1 s.advance := by
      refine ⟨Nat.one_pos, [first], ?_, .case hkind⟩
      rw [ParserState.rest_advance, hrest]
      rfl
    change (iterate bumpCase.round 1 >>= fun _ => pure ()) c s.advance = _ at h
    obtain ⟨_, v, hv, h⟩ := bind_eq_ok h
    cases h
    refine ⟨hword, ?_⟩
    exact iterate_ends (J := InCase s.rest) (Q := fun _ => PastCase s.rest)
      (fun _ _ next _ hs hok => by cases next <;> exact round_ok hstop hs hok) hfront hv
  · cases hu

/--
A `CASE` that is taken is taken as far as it is seen, unless a group in it holds an `END` that ends
nothing there or a `CASE` that is not ended there.
-/
theorem caseExtent?_of_bumpCase (hstop : c.stop.kind = .eof)
    (h : (bumpCase : Parser ρ Unit) c s = .ok () t) :
    ∃ us, s.rest = us ++ t.rest ∧
      (casesPaired 0 0 us → (c.ahead s.rest).caseExtent? 0 = some us.length) := by
  obtain ⟨hword, us, hus, hextent⟩ := bumpCase_ok hstop h
  refine ⟨us, hus, fun hpaired => ?_⟩
  rw [Lookahead.caseExtent?, if_pos hword, List.drop_zero, Setting.rest_ahead, hextent hpaired]

theorem caseExtent?_of_bumpCase_nested :
    ∃ (t : ParserState Unit) (us : List Token),
      bumpCase (settingOf .mySql 0 [])
        (initial (Token.tokenize .mySql "CASE WHEN (CASE a END) THEN CASE b END END x")) =
          .ok () t ∧
      (Token.tokenize .mySql "CASE WHEN (CASE a END) THEN CASE b END END x").dropLast =
        us ++ t.rest ∧
      ((settingOf .mySql 0 []).ahead
        (Token.tokenize .mySql "CASE WHEN (CASE a END) THEN CASE b END END x").dropLast).caseExtent?
          0 = some us.length := by
  obtain ⟨⟨⟩, t, ht⟩ := exists_ok_of_answer (r := (bumpCase : Parser Unit Unit)
    (settingOf .mySql 0 [])
    (initial (Token.tokenize .mySql "CASE WHEN (CASE a END) THEN CASE b END END x")))
    (by decide +kernel)
  obtain ⟨us, hus, hextent⟩ := caseExtent?_of_bumpCase rfl ht
  refine ⟨t, us, ht, hus, hextent ?_⟩
  have hpaired : ∀ n ≤ 13, casesPaired 0 0 ((initial (ρ := Unit)
      (Token.tokenize .mySql "CASE WHEN (CASE a END) THEN CASE b END END x")).rest.take n) := by
    decide +kernel
  have hlength : (initial (ρ := Unit)
      (Token.tokenize .mySql "CASE WHEN (CASE a END) THEN CASE b END END x")).rest.length = 13 := by
    decide +kernel
  rw [hus] at hpaired hlength
  have htaken := hpaired us.length (by rw [← hlength, List.length_append]; omega)
  rwa [List.take_left] at htaken

-- A name in a group is taken for the end of the `CASE` in front of the group.
example :
    casesPaired 0 0 (Token.tokenize .mySql "CASE WHEN (END) THEN 1 END") = false ∧
      ((settingOf .mySql 0 []).ahead
        (Token.tokenize .mySql "CASE WHEN (END) THEN 1 END")).caseExtent? 0 = some 4 := by
  decide +kernel

end Parser

end SqlScript
