import SqlScript.Proofs.Simulation.Lookahead
import SqlScript.Postgres.Script

/-!
The questions of the PostgreSQL grammar, each answered alike by lookaheads that see the same.
-/

namespace SqlScript.Postgres

instance : Steady 0 startsPart :=
  inferInstanceAs (Steady 0 fun a => a.isKind 0 .dot && a.isNamePart 1)

instance : Firm 2 startsPart :=
  inferInstanceAs (Firm 2 fun a => a.isKind 0 .dot && a.isNamePart 1)

instance : Steady 0 startsLongType :=
  inferInstanceAs (Steady 0 fun a => (a.isWord 0 _ && a.isWord 1 _) ||
    ((a.isWord 0 _ || a.isWord 0 _) && a.isWord 1 _))

instance : Firm 2 startsLongType :=
  inferInstanceAs (Firm 2 fun a => (a.isWord 0 _ && a.isWord 1 _) ||
    ((a.isWord 0 _ || a.isWord 0 _) && a.isWord 1 _))

instance : Steady 0 startsBareCall :=
  inferInstanceAs (Steady 0 fun a =>
    bareFunctions.any (a.isWord 0) && !a.isKind 1 .leftParen && !a.isKind 1 .dot)

instance : Firm 1 startsBareCall :=
  inferInstanceAs (Firm 1 fun a =>
    bareFunctions.any (a.isWord 0) && !a.isKind 1 .leftParen && !a.isKind 1 .dot)

instance : Steady 0 startsIntervalField :=
  inferInstanceAs (Steady 0 fun a =>
    intervalFields.any (a.isWord 0) || (a.isKeyword 0 .TO && intervalFields.any (a.isWord 1)))

instance : Firm 1 startsIntervalField :=
  inferInstanceAs (Firm 1 fun a =>
    intervalFields.any (a.isWord 0) || (a.isKeyword 0 .TO && intervalFields.any (a.isWord 1)))

instance : Steady 0 startsRowWord :=
  inferInstanceAs (Steady 0 fun a => a.isOneOf 0 _)

instance : Firm 1 startsRowWord :=
  inferInstanceAs (Firm 1 fun a => a.isOneOf 0 _)

instance : Steady 1 isQuantified :=
  inferInstanceAs (Steady 1 fun a => a.isOneOf 1 _ && a.isKind 2 .leftParen)

theorem partsExtent_le_length (ts : List Token) : partsExtent ts ≤ ts.length := by
  fun_induction partsExtent ts with
  | case1 dot part rest _ ih =>
    simp only [List.length_cons]
    omega
  | case2 => exact Nat.zero_le _
  | case3 => exact Nat.zero_le _

theorem partsExtent_of_alike {ts ts' : List Token} (h : Alike ts ts') :
    partsExtent ts' = partsExtent ts := by
  have hsemi : ∀ {t : Token}, t.kind = .semicolon → t.isNamePart = false := by
    intro t ht
    simp [Token.isNamePart, ht]
  match h with
  | .nil => rfl
  | .ends h =>
    rename_i rest
    cases rest with
    | nil => rfl
    | cons => simp [partsExtent, h]
  | .cons hk .nil => rfl
  | .cons hk (.ends h) => simp [partsExtent, hsemi h]
  | .cons hk (.cons hk' rest) =>
    rw [partsExtent, partsExtent, TokenKind.alike_congr hk, Token.isNamePart_congr hk',
      partsExtent_of_alike rest]

theorem partsExtent_le_reach (ts : List Token) : partsExtent ts ≤ reach ts := by
  fun_induction partsExtent ts with
  | case1 dot part rest h ih =>
    rw [Bool.and_eq_true] at h
    have hdot : dot.kind ≠ .semicolon := fun hk => by simp [hk] at h
    have hpart : part.kind ≠ .semicolon := fun hk => by simp [Token.isNamePart, hk] at h
    simp only [reach, if_neg hdot, if_neg hpart]
    omega
  | case2 => exact Nat.zero_le _
  | case3 => exact Nat.zero_le _

theorem partsExtent_eq_add {ts : List Token} (h : 0 < partsExtent ts) :
    partsExtent ts = partsExtent (ts.drop 2) + 2 := by
  match ts with
  | [] => contradiction
  | [_] => contradiction
  | dot :: part :: rest =>
    rw [partsExtent] at h ⊢
    split at h
    · rw [if_pos ‹_›]
      rfl
    · contradiction

def partsThenParen (a : Lookahead) : Bool :=
  a.isKind (partsExtent a.rest) .leftParen

theorem partsExtent_pos {a : Lookahead} (h : partsThenParen a) (hdot : a.isKind 0 .dot) :
    0 < partsExtent a.rest := by
  apply Nat.pos_of_ne_zero
  intro hzero
  unfold partsThenParen at h
  rw [hzero] at h
  unfold Lookahead.isKind at hdot
  rw [TokenKind.eq_leftParen_of_alike h] at hdot
  contradiction

theorem partsThenParen_drop {a : Lookahead} (h : partsThenParen a) (hdot : a.isKind 0 .dot) :
    partsThenParen ⟨a.toSetting, a.rest.drop 2⟩ := by
  have heq := partsExtent_eq_add (partsExtent_pos h hdot)
  unfold partsThenParen Lookahead.isKind Lookahead.kind at h ⊢
  rw [heq] at h
  rw [Lookahead.token_drop, Nat.add_comm]
  exact h

def isFunctionName (a : Lookahead) (n : Nat) : Bool :=
  a.isName n || a.isOneOf n [.LEFT, .RIGHT, .CAST]

def nameExtent (a : Lookahead) (n : Nat) : Nat :=
  n + 1 + partsExtent (a.rest.drop (n + 1))

instance : Steady n (isFunctionName · n) :=
  inferInstanceAs (Steady n fun a => a.isName n || a.isOneOf n [.LEFT, .RIGHT, .CAST])

instance : Rejects n (isFunctionName · n) :=
  inferInstanceAs (Rejects n fun a => a.isName n || a.isOneOf n [.LEFT, .RIGHT, .CAST])

theorem argumentsAt?_eq (a : Lookahead) (n : Nat) :
    argumentsAt? a n =
      if isFunctionName a n && a.isKind (nameExtent a n) .leftParen then some (nameExtent a n)
      else none := by
  unfold argumentsAt?
  change (if isFunctionName a n then
    if a.isKind (nameExtent a n) .leftParen then some (nameExtent a n) else none else none) = _
  cases isFunctionName a n with
  | true => rfl
  | false => rfl

theorem partsThenParen_of_argumentsAt? {a : Lookahead} (h : (argumentsAt? a 0).isSome) :
    partsThenParen ⟨a.toSetting, a.rest.drop 1⟩ := by
  rw [argumentsAt?_eq] at h
  split at h
  · rename_i hopened
    have hparen := ((Bool.and_eq_true _ _).mp hopened).2
    unfold Lookahead.isKind Lookahead.kind nameExtent at hparen
    unfold partsThenParen Lookahead.isKind Lookahead.kind
    rw [Lookahead.token_drop]
    exact hparen
  · contradiction

instance : Steady n (argumentsAt? · n) where
  eq := by
    intro a a' hs hn
    rw [argumentsAt?_eq, argumentsAt?_eq, hs.ask (isFunctionName · n) hn]
    cases hname : isFunctionName a n with
    | false => rfl
    | true =>
      have hlt : n < a.rest.length := by
        apply Lookahead.lt_length_of_kind hs.stop
        intro heof
        exact Rejects.not_isEnd (q := (isFunctionName · n)) hname (.inl heof)
      have hextent : nameExtent a' n = nameExtent a n := by
        unfold nameExtent
        rw [partsExtent_of_alike (hs.rest.drop (.inl hlt))]
      have hle : nameExtent a n ≤ a.rest.length := by
        have := partsExtent_le_length (a.rest.drop (n + 1))
        rw [List.length_drop] at this
        unfold nameExtent
        omega
      rw [hextent, hs.ask (·.isKind (nameExtent a n) .leftParen) (.inl hle)]

theorem argumentsAt?_lt_reach {a : Lookahead} (hstop : a.stop.kind = .eof) {n opened : Nat}
    (hn : n ≤ reach a.rest) (h : argumentsAt? a n = some opened) : opened < reach a.rest := by
  rw [argumentsAt?_eq] at h
  split at h
  · rename_i hopened
    rw [Bool.and_eq_true] at hopened
    cases h
    have hlt := Lookahead.lt_reach_of_kind hstop hn
      (Rejects.not_isEnd (q := (isFunctionName · n)) hopened.1)
    have hle : nameExtent a n ≤ reach a.rest := by
      have := partsExtent_le_reach (a.rest.drop (n + 1))
      rw [reach_drop hlt] at this
      unfold nameExtent
      omega
    exact Lookahead.lt_reach_of_kind hstop hle
      (Rejects.not_isEnd (q := (·.isKind (nameExtent a n) .leftParen)) hopened.2)
  · contradiction

def Suffix.extent : Suffix → Nat
  | typecast => 1
  | subscript => 1
  | field => 2
  | collation => 1
  | timeZone => 3

instance (least : Nat) : Steady 0 (suffix? least) where
  eq := by
    intro a a' hs hn
    have hcollate := hs.ask (·.isKeyword 0 .COLLATE) hn
    have hzone := hs.ask (fun a => a.isWord 0 "AT" && a.isWord 1 "TIME" && a.isWord 2 "ZONE") hn
    unfold suffix?
    rw [hcollate, hzone]
    obtain heq | ⟨name, name', hname, hname', -⟩ | ⟨heof, hsemi⟩ := hs.kind hn
    · rw [heq]
      split
      · rfl
      · rfl
      · rename_i hdot
        have h₁ : Covers a a' 1 := hs.covers_succ (n := 0) (by simp [hdot])
        rw [hs.ask (fun a => a.isNamePart 1 || a.isKind 1 .star) h₁]
      · rfl
    · rw [hname, hname']
    · rw [heof, hsemi]

theorem suffix?_le_reach {a : Lookahead} (hstop : a.stop.kind = .eof) {least : Nat} {suffix : Suffix}
    (h : suffix? least a = some suffix) : suffix.extent ≤ reach a.rest := by
  have hkind : ∀ k, a.kind 0 = k → ¬k.isEnd → 1 ≤ reach a.rest := fun k hk hend =>
    Lookahead.lt_reach_of_kind hstop (Nat.zero_le _) (hk ▸ hend)
  unfold suffix? at h
  split at h
  · cases h
    exact hkind _ ‹_› (by simp [TokenKind.isEnd])
  · cases h
    exact hkind _ ‹_› (by simp [TokenKind.isEnd])
  · split at h
    · rename_i hdot hfield
      cases h
      exact Lookahead.lt_reach_of_kind hstop (hkind _ hdot (by simp [TokenKind.isEnd]))
        (Rejects.not_isEnd (q := fun a => a.isNamePart 1 || a.isKind 1 .star) hfield)
    · contradiction
  · split at h
    · rename_i hcollate
      split at h
      · cases h
        exact Firm.le_reach (n := 1) (q := (·.isKeyword 0 .COLLATE)) hstop hcollate
      · contradiction
    · split at h
      · rename_i hzone
        split at h
        · cases h
          exact Firm.le_reach (n := 3)
            (q := fun a => a.isWord 0 "AT" && a.isWord 1 "TIME" && a.isWord 2 "ZONE") hstop hzone
        · contradiction
      · contradiction

theorem test?_of_sees {a a' : Lookahead} (hs : Sees a a') {n : Nat} (hn : Covers a a' n) :
    a'.isKeyword n .IN = a.isKeyword n .IN ∧ a'.isKeyword n .BETWEEN = a.isKeyword n .BETWEEN ∧
      (a'.isOneOf n [.LIKE, .ILIKE] || (a'.isKeyword n .SIMILAR && a'.isKeyword (n + 1) .TO)) =
        (a.isOneOf n [.LIKE, .ILIKE] || (a.isKeyword n .SIMILAR && a.isKeyword (n + 1) .TO)) :=
  ⟨hs.ask (·.isKeyword n .IN) hn, hs.ask (·.isKeyword n .BETWEEN) hn,
    hs.ask (fun a => a.isOneOf n [.LIKE, .ILIKE] ||
      (a.isKeyword n .SIMILAR && a.isKeyword (n + 1) .TO)) hn⟩

instance : Steady 0 test? where
  eq := by
    intro a a' hs hn
    have hnot := hs.ask (·.isKeyword 0 .NOT) hn
    have his := hs.ask
      (fun a => a.isKeyword 0 .IS || a.isWord 0 "ISNULL" || a.isWord 0 "NOTNULL") hn
    have hcomparison := (steady_kind 0 isComparison rfl).eq hs hn
    have hcovers : Covers a a' (if a.isKeyword 0 .NOT then 1 else 0) := by
      split
      · exact hs.next (n := 0) (q := (·.isKeyword 0 .NOT)) ‹_›
      · exact hn
    obtain ⟨hin, hbetween, hlike⟩ := test?_of_sees hs hcovers
    unfold test?
    simp only [hnot, his, hcomparison, hin, hbetween, hlike]

instance : Rejects 0 fun a => (test? a).isSome where
  not_isEnd := by
    intro a h hend
    have hkeyword : ∀ word, a.isKeyword 0 word = false := fun word =>
      Rejects.eq_false (q := (·.isKeyword 0 word)) hend
    have hone : ∀ words, a.isOneOf 0 words = false := fun words =>
      Rejects.eq_false (q := (·.isOneOf 0 words)) hend
    have hword : ∀ word, a.isWord 0 word = false := fun word =>
      Rejects.eq_false (q := (·.isWord 0 word)) hend
    have hcomparison : isComparison (a.kind 0) = false :=
      (rejects_kind 0 isComparison rfl rfl).eq_false hend
    simp [test?, hkeyword, hone, hword, hcomparison] at h

theorem startsRun_of_run? {a : Lookahead} (h : (run? a).isSome) : (a.kind 0).startsRun := by
  apply Decidable.byContradiction
  intro hstart
  have hone : ∀ words, a.isOneOf 0 words = false := fun words =>
    Lookahead.isOneOf_of_not_startsRun hstart words
  have hword : ∀ word, a.isWord 0 word = false := fun word =>
    Lookahead.isWord_of_not_startsRun hstart word
  simp [run?, hone, hword] at h

instance : Steady 0 run? where
  eq := by
    intro a a' hs hn
    unfold run?
    rw [hs.find?_isOneOf hn, hs.find?_isWord hn]

end SqlScript.Postgres
