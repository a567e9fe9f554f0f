import SqlScript.Proofs.Layout
import SqlScript.Proofs.Nesting

/-!
Delimiters in trees. If every production closes the groups that it opens among its own children, and
separators stand outside of groups in certain productions only, then so it is in the whole text: the
matching delimiters of a text belong to one production.

What closes all groups that it opens does not turn a scan for a token outside of groups away: the scan
finds what stands behind.
-/

namespace SqlScript

namespace TokenKind

def closer? : TokenKind → Option TokenKind
  | leftParen => some rightParen
  | leftBracket => some rightBracket
  | _ => none

def isPlain : TokenKind → Bool
  | leftParen | leftBracket | rightParen | rightBracket | semicolon => false
  | _ => true

theorem eq_of_closer? {opener closer : TokenKind} (h : opener.closer? = some closer) :
    closer = rightParen ∨ closer = rightBracket := by
  unfold closer? at h
  split at h <;> cases h
  · exact .inl rfl
  · exact .inr rfl

theorem eq_of_alike {k opener closer : TokenKind} (h : opener.closer? = some closer) :
    (k.alike opener → k = opener) ∧ (k.alike closer → k = closer) := by
  unfold closer? at h
  split at h <;> cases h
  all_goals
    refine ⟨fun hk => ?_, fun hk => ?_⟩
    all_goals
      cases k
      all_goals first | rfl | contradiction

theorem not_isPlain_of_closer? {opener : TokenKind} (h : opener.closer?.isSome) :
    ¬ opener.isPlain := by
  cases opener <;> first | contradiction | exact Bool.false_ne_true

theorem closer?_of_closer? {opener closer : TokenKind} (h : opener.closer? = some closer) :
    closer.closer? = none := by
  obtain rfl | rfl := eq_of_closer? h <;> rfl

end TokenKind

namespace Token

variable {t o c : Token} {k : TokenKind} {closers : List TokenKind} {ts us : List Token}

theorem wellNested_plain (ht : t.kind.isPlain) :
    wellNested closers (t :: ts) = wellNested closers ts := by
  rw [wellNested.eq_def]
  unfold TokenKind.isPlain at ht
  split at ht
  all_goals first | contradiction | simp_all

theorem wellNested_separator (ht : t.kind = .semicolon) :
    wellNested closers (t :: ts) = wellNested closers ts := by
  rw [wellNested.eq_def]
  simp only [ht]

theorem wellNested_opener (ho : o.kind.closer? = some k) :
    wellNested closers (o :: ts) = wellNested (k :: closers) ts := by
  rw [wellNested.eq_def]
  unfold TokenKind.closer? at ho
  split at ho
  all_goals first | contradiction | simp_all

theorem wellNested_closer (ho : o.kind.closer? = some c.kind) :
    wellNested (c.kind :: closers) (c :: ts) = wellNested closers ts := by
  obtain hc | hc := TokenKind.eq_of_closer? ho
  · simp [wellNested, hc]
  · simp [wellNested, hc]

/--
These tokens close all that they open, and nothing else, wherever they stand.
-/
def Neutral (ts : List Token) : Prop :=
  ∀ closers us, wellNested closers (ts ++ us) = wellNested closers us

theorem Neutral.nil : Neutral [] :=
  fun _ _ => rfl

theorem Neutral.append (hts : Neutral ts) (hus : Neutral us) : Neutral (ts ++ us) := by
  intro closers vs
  rw [List.append_assoc, hts, hus]

theorem Neutral.properlyNested (h : Neutral ts) : properlyNested ts := by
  have hts := h [] []
  rw [List.append_nil] at hts
  exact hts

theorem Neutral.plain (ht : t.kind.isPlain) : Neutral [t] :=
  fun _ _ => wellNested_plain ht

theorem Neutral.separator (ht : t.kind = .semicolon) : Neutral [t] :=
  fun _ _ => wellNested_separator ht

theorem Neutral.group (ho : o.kind.closer? = some c.kind) (h : Neutral ts) :
    Neutral (o :: (ts ++ [c])) := by
  intro closers us
  rw [List.cons_append, wellNested_opener ho, List.append_assoc, h]
  exact wellNested_closer ho

end Token

namespace Tree

variable {ρ : Type} {loose : Bool} {es fs : List (Element ρ)} {n m k : Node ρ} {t o c : Token}

/--
Groups that open among these elements are closed among them, one inside the other. Separators stand
inside of groups only, unless they may stand loose.
-/
inductive Paired : Bool → List (Element ρ) → Prop
  | nil {loose : Bool} : Paired loose []
  | plain {loose : Bool} {t : Token} {es : List (Element ρ)} (ht : t.kind.isPlain)
    (hes : Paired loose es) : Paired loose (.token t :: es)
  | separator {t : Token} {es : List (Element ρ)} (ht : t.kind = .semicolon)
    (hes : Paired true es) : Paired true (.token t :: es)
  | node {loose : Bool} {n : Node ρ} {es : List (Element ρ)} (hes : Paired loose es) :
    Paired loose (.node n :: es)
  | group {loose : Bool} {o c : Token} {inner es : List (Element ρ)}
    (ho : o.kind.closer? = some c.kind) (hinner : Paired true inner) (hes : Paired loose es) :
    Paired loose (.token o :: (inner ++ .token c :: es))

theorem in_front {α : Type} {a b : α} {xs ys us vs : List α} (hne : a ≠ b)
    (h : xs ++ a :: ys = us ++ b :: vs) :
    (∃ between, us = xs ++ a :: between ∧ ys = between ++ b :: vs) ∨
      ∃ between, xs = us ++ b :: between ∧ vs = between ++ a :: ys := by
  obtain ⟨ws, hus, hws⟩ | ⟨ws, hxs, hws⟩ := List.append_eq_append_iff.1 h
  · cases ws with
    | nil =>
      cases hws
      contradiction
    | cons w ws =>
      cases hws
      exact .inl ⟨ws, hus, rfl⟩
  · cases ws with
    | nil =>
      cases hws
      contradiction
    | cons w ws =>
      cases hws
      exact .inr ⟨ws, hxs, rfl⟩

namespace Paired

theorem append (hes : Paired loose es) (hfs : Paired loose fs) : Paired loose (es ++ fs) := by
  induction hes with
  | nil => exact hfs
  | plain ht _ ih => exact .plain ht (ih hfs)
  | separator ht _ ih => exact .separator ht (ih hfs)
  | node _ ih => exact .node (ih hfs)
  | @group _ _ _ inner es ho hinner _ _ ih =>
    rw [List.cons_append, List.append_assoc, List.cons_append]
    exact .group ho hinner (ih hfs)

theorem loosen (h : Paired loose es) : Paired true es := by
  induction h with
  | nil => exact .nil
  | plain ht _ ih => exact .plain ht ih
  | separator ht _ ih => exact .separator ht ih
  | node _ ih => exact .node ih
  | group ho hinner _ _ ih => exact .group ho hinner ih

theorem flatten {parts : List (List (Element ρ))} (h : ∀ es ∈ parts, Paired loose es) :
    Paired loose parts.flatten := by
  induction parts with
  | nil => exact .nil
  | cons es parts ih =>
    exact (h es List.mem_cons_self).append (ih fun fs hfs => h fs (List.mem_cons_of_mem _ hfs))

theorem head_ne_separator (h : Paired false (.token t :: es)) : t.kind ≠ .semicolon := by
  intro ht
  cases h with
  | plain hplain =>
    rw [ht] at hplain
    contradiction
  | group ho =>
    rw [ht] at ho
    contradiction

theorem neutral (h : Paired loose es)
    (hnodes : ∀ n, .node n ∈ es → Token.Neutral n.leaves) : Token.Neutral (leaves es) := by
  induction h with
  | nil => exact .nil
  | plain ht _ ih =>
    exact (Token.Neutral.plain ht).append (ih fun n hn => hnodes n (List.mem_cons_of_mem _ hn))
  | separator ht _ ih =>
    exact (Token.Neutral.separator ht).append
      (ih fun n hn => hnodes n (List.mem_cons_of_mem _ hn))
  | node _ ih =>
    exact (hnodes _ List.mem_cons_self).append
      (ih fun n hn => hnodes n (List.mem_cons_of_mem _ hn))
  | @group _ o c inner es ho _ _ ihinner ih =>
    have hgroup : leaves (.token o :: (inner ++ .token c :: es)) =
        o :: (leaves inner ++ [c]) ++ leaves es := by
      simp [leaves, Element.leaves]
    rw [hgroup]
    apply (Token.Neutral.group ho (ihinner _)).append (ih _)
    · intro n hn
      exact hnodes n (by simp [hn])
    · intro n hn
      exact hnodes n (by simp [hn])

theorem exists_closer {xs : List (Element ρ)} (h : Paired loose (xs ++ .token o :: es))
    (ho : o.kind.closer?.isSome) :
    ∃ inner c fs, es = inner ++ .token c :: fs ∧ o.kind.closer? = some c.kind ∧
      Paired true inner := by
  generalize hall : xs ++ .token o :: es = all at h
  induction h generalizing xs es with
  | nil => simp at hall
  | plain ht _ ih =>
    cases xs with
    | nil =>
      cases hall
      exact absurd ht (TokenKind.not_isPlain_of_closer? ho)
    | cons x xs =>
      cases hall
      exact ih rfl
  | separator ht _ ih =>
    cases xs with
    | nil =>
      cases hall
      rw [ht] at ho
      contradiction
    | cons x xs =>
      cases hall
      exact ih rfl
  | node _ ih =>
    cases xs with
    | nil => cases hall
    | cons x xs =>
      cases hall
      exact ih rfl
  | @group _ o' c inner fs ho' hinner _ ihinner ih =>
    cases xs with
    | nil =>
      cases hall
      exact ⟨inner, c, fs, rfl, ho', hinner⟩
    | cons x xs =>
      rw [List.cons_append, List.cons.injEq] at hall
      have hne : (.token o : Element ρ) ≠ .token c := by
        rintro ⟨⟩
        rw [TokenKind.closer?_of_closer? ho'] at ho
        contradiction
      obtain ⟨between, hin, rfl⟩ | ⟨between, -, hout⟩ := in_front hne hall.2
      · obtain ⟨inner', c', gs, rfl, hc', hinner'⟩ := ihinner hin.symm
        exact ⟨inner', c', gs ++ .token c :: fs, by simp, hc', hinner'⟩
      · exact ih hout.symm

theorem exists_group {xs : List (Element ρ)} (h : Paired false (xs ++ .token t :: es))
    (ht : t.kind = .semicolon) :
    ∃ front o inner inner' c back, xs = front ++ .token o :: inner ∧
      es = inner' ++ .token c :: back ∧ o.kind.closer? = some c.kind ∧
      Paired true (inner ++ .token t :: inner') := by
  generalize hall : xs ++ .token t :: es = all at h
  generalize hloose : false = loose at h
  induction h generalizing xs es with
  | nil => simp at hall
  | plain hplain _ ih =>
    cases xs with
    | nil =>
      cases hall
      rw [ht] at hplain
      contradiction
    | cons x xs =>
      cases hall
      obtain ⟨front, o, inner, inner', c, back, rfl, hes, hc, hinner⟩ := ih rfl hloose
      exact ⟨_ :: front, o, inner, inner', c, back, rfl, hes, hc, hinner⟩
  | separator => contradiction
  | node _ ih =>
    cases xs with
    | nil => cases hall
    | cons x xs =>
      cases hall
      obtain ⟨front, o, inner, inner', c, back, rfl, hes, hc, hinner⟩ := ih rfl hloose
      exact ⟨_ :: front, o, inner, inner', c, back, rfl, hes, hc, hinner⟩
  | @group _ o c inner fs ho hinner _ _ ih =>
    cases xs with
    | nil =>
      cases hall
      rw [ht] at ho
      contradiction
    | cons x xs =>
      rw [List.cons_append, List.cons.injEq] at hall
      have hne : (.token t : Element ρ) ≠ .token c := by
        rintro ⟨⟩
        rw [ht] at ho
        obtain hc | hc := TokenKind.eq_of_closer? ho <;> cases hc
      obtain ⟨between, rfl, rfl⟩ | ⟨between, rfl, hout⟩ := in_front hne hall.2
      · exact ⟨[], o, xs, between, c, fs, by rw [hall.1]; rfl, rfl, ho, hinner⟩
      · obtain ⟨front, o', inner', inner'', c', back, rfl, hes, hc, hin⟩ := ih hout.symm hloose
        refine ⟨x :: (inner ++ .token c :: front), o', inner', inner'', c', back, ?_, hes, hc, hin⟩
        simp

end Paired

mutual

/--
The tokens of a production and of all that is nested in it, in source order, each with the
production that it is a direct token of.
-/
def Node.owned : Node ρ → List (Node ρ × Token)
  | ⟨rule, span, children⟩ => ownedIn ⟨rule, span, children⟩ children

def Element.owned (owner : Node ρ) : Element ρ → List (Node ρ × Token)
  | .node n => n.owned
  | .token t => [(owner, t)]

def ownedIn (owner : Node ρ) : List (Element ρ) → List (Node ρ × Token)
  | [] => []
  | e :: es => e.owned owner ++ ownedIn owner es

end

theorem Node.owned_eq (n : Node ρ) : n.owned = ownedIn n n.children := by
  cases n with
  | mk rule span children => rw [Node.owned]

theorem ownedIn_append (n : Node ρ) (es fs : List (Element ρ)) :
    ownedIn n (es ++ fs) = ownedIn n es ++ ownedIn n fs := by
  induction es with
  | nil => rfl
  | cons e es ih => rw [List.cons_append, ownedIn, ownedIn, ih, List.append_assoc]

theorem ownedIn_token (n : Node ρ) (t : Token) (es : List (Element ρ)) :
    ownedIn n (.token t :: es) = (n, t) :: ownedIn n es :=
  rfl

mutual

theorem Node.map_owned (n : Node ρ) : n.owned.map (·.2) = n.leaves := by
  cases n with
  | mk rule span children => rw [Node.owned, Node.leaves, map_ownedIn]

theorem Element.map_owned (n : Node ρ) (e : Element ρ) : (e.owned n).map (·.2) = e.leaves := by
  cases e with
  | node k => rw [Element.owned, Element.leaves, k.map_owned]
  | token t => rfl

theorem map_ownedIn (n : Node ρ) (es : List (Element ρ)) :
    (ownedIn n es).map (·.2) = leaves es := by
  cases es with
  | nil => rfl
  | cons e es => rw [ownedIn, leaves, List.map_append, e.map_owned, map_ownedIn]

end

variable {before after : List (Node ρ × Token)}

theorem of_ownedIn (h : ownedIn n es = before ++ (m, t) :: after) :
    (m = n ∧ ∃ xs ys, es = xs ++ .token t :: ys ∧ before = ownedIn n xs ∧ after = ownedIn n ys) ∨
      ∃ k, .node k ∈ es ∧ ∃ front back before' after', k.owned = before' ++ (m, t) :: after' ∧
        before = front ++ before' ∧ after = after' ++ back := by
  induction es generalizing before with
  | nil => simp [ownedIn] at h
  | cons e es ih =>
    have hbehind : ∀ before', before = e.owned n ++ before' →
        ownedIn n es = before' ++ (m, t) :: after →
        (m = n ∧ ∃ xs ys, e :: es = xs ++ .token t :: ys ∧ before = ownedIn n xs ∧
          after = ownedIn n ys) ∨
        ∃ k, .node k ∈ e :: es ∧ ∃ front back before' after',
          k.owned = before' ++ (m, t) :: after' ∧ before = front ++ before' ∧
            after = after' ++ back := by
      rintro before' rfl hes
      obtain ⟨hm, xs, ys, rfl, rfl, hafter⟩ | ⟨k, hk, front, back, before', after', hk', rfl, rfl⟩ :=
        ih hes
      · exact .inl ⟨hm, e :: xs, ys, rfl, rfl, hafter⟩
      · refine .inr ⟨k, List.mem_cons_of_mem _ hk, e.owned n ++ front, back, before', after', hk', ?_,
          rfl⟩
        rw [List.append_assoc]
    rw [ownedIn] at h
    obtain ⟨ws, hbefore, hws⟩ | ⟨ws, he, hws⟩ := List.append_eq_append_iff.1 h
    · exact hbehind ws hbefore hws
    · cases ws with
      | nil =>
        rw [List.append_nil] at he
        exact hbehind [] (by rw [List.append_nil, he]) hws.symm
      | cons w ws =>
        cases hws
        cases e with
        | node k => exact .inr ⟨k, List.mem_cons_self, [], _, before, ws, he, rfl, rfl⟩
        | token u =>
          have hnil : before = [] ∧ (m, t) :: ws = [(n, u)] := by
            cases before with
            | nil => exact ⟨rfl, he.symm⟩
            | cons b before => simp [Element.owned] at he
          obtain ⟨rfl, hone⟩ := hnil
          cases hone
          exact .inl ⟨rfl, [], es, rfl, rfl, rfl⟩

theorem Node.of_owned {n : Node ρ} {before after : List (Node ρ × Token)}
    (h : n.owned = before ++ (m, t) :: after) :
    n.Contains m ∧ ∃ xs ys front back, m.children = xs ++ .token t :: ys ∧
      before = front ++ ownedIn m xs ∧ after = ownedIn m ys ++ back := by
  rw [Node.owned_eq] at h
  obtain ⟨rfl, xs, ys, hchildren, rfl, rfl⟩ |
    ⟨k, hk, front, back, before', after', hk', rfl, rfl⟩ := of_ownedIn h
  · exact ⟨.refl m, xs, ys, [], [], hchildren, rfl, by simp⟩
  · have hmem : k ∈ n.childNodes := List.mem_filterMap.2 ⟨_, hk, rfl⟩
    have := sizeOf_lt_of_mem_childNodes hmem
    obtain ⟨hm, xs, ys, front', back', hchildren, rfl, rfl⟩ := Node.of_owned hk'
    exact ⟨.child hmem hm, xs, ys, front ++ front', back' ++ back, hchildren, by simp, by simp⟩
termination_by sizeOf n

mutual

def Node.all (p : Node ρ → Bool) : Node ρ → Bool
  | ⟨rule, span, children⟩ => p ⟨rule, span, children⟩ && allIn p children

def allIn (p : Node ρ → Bool) : List (Element ρ) → Bool
  | [] => true
  | .node n :: es => n.all p && allIn p es
  | .token _ :: es => allIn p es

end

theorem all_of_allIn {p : Node ρ → Bool} (h : allIn p es) (hn : .node n ∈ es) : n.all p := by
  induction es with
  | nil => cases hn
  | cons e es ih =>
    cases e with
    | node m =>
      obtain ⟨hm, hes⟩ := (Bool.and_eq_true _ _).mp h
      obtain hhead | htail := List.mem_cons.1 hn
      · cases hhead
        exact hm
      · exact ih hes htail
    | token t =>
      obtain hhead | htail := List.mem_cons.1 hn
      · cases hhead
      · exact ih h htail

theorem Node.of_all {p : Node ρ → Bool} (h : n.all p) (hm : n.Contains m) : p m := by
  induction hm with
  | refl n =>
    cases n with
    | mk rule span children => exact ((Bool.and_eq_true _ _).mp h).1
  | @child n m k hmem _ ih =>
    apply ih
    cases n with
    | mk rule span children =>
      exact all_of_allIn ((Bool.and_eq_true _ _).mp h).2 (mem_children_of_mem_childNodes hmem)

theorem allIn_of_all {p : Node ρ → Bool} (h : ∀ n, .node n ∈ es → n.all p) : allIn p es := by
  induction es with
  | nil => rfl
  | cons e es ih =>
    have hrest := ih fun n hn => h n (List.mem_cons_of_mem _ hn)
    cases e with
    | node m => exact (Bool.and_eq_true _ _).mpr ⟨h m List.mem_cons_self, hrest⟩
    | token t => exact hrest

theorem Node.all_eq (p : Node ρ → Bool) (n : Node ρ) : n.all p = (p n && allIn p n.children) := by
  cases n with
  | mk rule span children => rfl

theorem Node.all_of_contains {p : Node ρ → Bool} {n : Node ρ} (h : ∀ m, n.Contains m → p m) :
    n.all p := by
  rw [Node.all_eq]
  refine (Bool.and_eq_true _ _).mpr ⟨h n (.refl n), allIn_of_all fun k hk => ?_⟩
  have hmem : k ∈ n.childNodes := List.mem_filterMap.2 ⟨_, hk, rfl⟩
  have := sizeOf_lt_of_mem_childNodes hmem
  exact Node.all_of_contains fun m hm => h m (.child hmem hm)
termination_by sizeOf n

theorem Node.exists_of_not_all {p : Node ρ → Bool} {n : Node ρ} (h : !n.all p) :
    ∃ m, n.Contains m ∧ p m = false := by
  apply Classical.byContradiction
  intro hnone
  have hall : n.all p := Node.all_of_contains fun m hm => by
    cases hp : p m with
    | true => rfl
    | false => exact absurd ⟨m, hm, hp⟩ hnone
  rw [hall] at h
  contradiction

/--
The delimiters of the tokens are properly nested. An opening delimiter and the one that closes it
are direct tokens of the same production. A separator is a direct token of a production of one of
these kinds, or it is enclosed in delimiters.
-/
structure Node.Encloses (separating : ρ → Bool) (n : Node ρ) : Prop where
  nested : Token.properlyNested n.leaves
  closes {before after : List (Node ρ × Token)} {m : Node ρ} {o : Token} :
    n.owned = before ++ (m, o) :: after → o.kind.closer?.isSome →
      ∃ inner c rest, after = inner ++ (m, c) :: rest ∧ o.kind.closer? = some c.kind ∧
        Token.properlyNested (inner.map (·.2))
  separates {before after : List (Node ρ × Token)} {m : Node ρ} {t : Token} :
    n.owned = before ++ (m, t) :: after → t.kind = .semicolon → separating m.rule ∨
      ∃ front o inner inner' c rest, before = front ++ o :: inner ∧ after = inner' ++ c :: rest ∧
        o.2.kind.closer? = some c.2.kind ∧
        Token.properlyNested ((inner ++ (m, t) :: inner').map (·.2))

/--
The production and all that is nested in it close their groups among their own children, with
separators outside of groups in productions of certain kinds only.
-/
def Node.Tidy (separating : ρ → Bool) (n : Node ρ) : Prop :=
  ∀ m, n.Contains m → Paired (separating m.rule) m.children

namespace Node.Tidy

variable {separating : ρ → Bool}

theorem child (h : n.Tidy separating) (hm : m ∈ n.childNodes) : m.Tidy separating :=
  fun _ hk => h _ (.child hm hk)

theorem of_contains (h : n.Tidy separating) (hm : n.Contains m) : m.Tidy separating := by
  induction hm with
  | refl => exact h
  | child hk _ ih => exact ih (h.child hk)

theorem neutral {n : Node ρ} (h : n.Tidy separating) : Token.Neutral n.leaves := by
  rw [Node.leaves_eq]
  apply (h n (.refl n)).neutral
  intro k hk
  have hmem : k ∈ n.childNodes := List.mem_filterMap.2 ⟨_, hk, rfl⟩
  have := sizeOf_lt_of_mem_childNodes hmem
  exact (h.child hmem).neutral
termination_by sizeOf n

theorem properlyNested (h : n.Tidy separating) (hes : Paired true es)
    (hmem : ∀ e ∈ es, e ∈ n.children) : Token.properlyNested ((ownedIn n es).map (·.2)) := by
  rw [map_ownedIn]
  apply (hes.neutral _).properlyNested
  intro k hk
  exact (h.child (List.mem_filterMap.2 ⟨_, hmem _ hk, rfl⟩)).neutral

theorem encloses (h : n.Tidy separating) : n.Encloses separating where
  nested := h.neutral.properlyNested
  closes := by
    intro before after m o howned ho
    obtain ⟨hm, xs, ys, front, back, hchildren, rfl, rfl⟩ := Node.of_owned howned
    obtain ⟨inner, c, fs, rfl, hc, hinner⟩ := (hchildren ▸ h m hm).exists_closer ho
    refine ⟨ownedIn m inner, c, ownedIn m fs ++ back, ?_, hc, ?_⟩
    · rw [ownedIn_append, ownedIn_token, List.append_assoc, List.cons_append]
    · apply (h.of_contains hm).properlyNested hinner
      intro e he
      simp [hchildren, he]
  separates := by
    intro before after m t howned ht
    obtain ⟨hm, xs, ys, front, back, hchildren, rfl, rfl⟩ := Node.of_owned howned
    cases hloose : separating m.rule with
    | true => exact .inl rfl
    | false =>
      have hpaired := h m hm
      rw [hchildren, hloose] at hpaired
      obtain ⟨front', o, inner, inner', c, back', rfl, rfl, hc, hinner⟩ := hpaired.exists_group ht
      refine .inr ⟨front ++ ownedIn m front', (m, o), ownedIn m inner, ownedIn m inner', (m, c),
        ownedIn m back' ++ back, ?_, ?_, hc, ?_⟩
      · rw [ownedIn_append, ownedIn_token, List.append_assoc]
      · rw [ownedIn_append, ownedIn_token, List.append_assoc, List.cons_append]
      · rw [← ownedIn_token, ← ownedIn_append]
        apply (h.of_contains hm).properlyNested hinner
        intro e he
        rw [hchildren]
        simp only [List.mem_append, List.mem_cons] at he ⊢
        grind

end Node.Tidy

def Closing : List TokenKind → List (Element ρ) → Prop
  | [], es => Paired false es
  | closer :: closers, es => ∃ inner c rest, es = inner ++ .token c :: rest ∧ c.kind = closer ∧
      Paired true inner ∧ Closing closers rest

namespace Closing

variable {closers : List TokenKind}

theorem plain (ht : t.kind.isPlain) (h : Closing closers es) :
    Closing closers (.token t :: es) := by
  cases closers with
  | nil => exact .plain ht h
  | cons closer closers =>
    obtain ⟨inner, c, rest, rfl, hc, hinner, hrest⟩ := h
    exact ⟨.token t :: inner, c, rest, rfl, hc, .plain ht hinner, hrest⟩

theorem separator (ht : t.kind = .semicolon) (hne : closers ≠ []) (h : Closing closers es) :
    Closing closers (.token t :: es) := by
  cases closers with
  | nil => contradiction
  | cons closer closers =>
    obtain ⟨inner, c, rest, rfl, hc, hinner, hrest⟩ := h
    exact ⟨.token t :: inner, c, rest, rfl, hc, .separator ht hinner, hrest⟩

theorem opener {closer : TokenKind} (ho : o.kind.closer? = some closer)
    (h : Closing (closer :: closers) es) : Closing closers (.token o :: es) := by
  obtain ⟨inner, c, rest, rfl, rfl, hinner, hrest⟩ := h
  cases closers with
  | nil => exact .group ho hinner hrest
  | cons closer closers =>
    obtain ⟨inner', c', rest, rfl, hc', hinner', hrest⟩ := hrest
    exact ⟨.token o :: (inner ++ .token c :: inner'), c', rest, by simp, hc',
      .group ho hinner hinner', hrest⟩

theorem closer (h : Closing closers es) : Closing (c.kind :: closers) (.token c :: es) :=
  ⟨[], c, es, rfl, rfl, .nil, h⟩

theorem of_balancedRun {stop : Token → Bool} {n r : Nat} {ts : List Token}
    (h : Lookahead.balancedRun stop closers n ts = (r, none)) :
    ∃ taken, r = n + taken ∧
      Closing closers ((ts.take taken).map fun t => (.token t : Element ρ)) := by
  induction ts generalizing closers n with
  | nil =>
    cases closers with
    | nil =>
      cases h
      exact ⟨0, rfl, .nil⟩
    | cons => cases h
  | cons t ts ih =>
    have hstop : (n, none) = (r, (none : Option TokenKind)) → closers = [] →
        ∃ taken, r = n + taken ∧
          Closing closers (((t :: ts).take taken).map fun t => (.token t : Element ρ)) := by
      rintro ⟨⟩ rfl
      exact ⟨0, rfl, .nil⟩
    have hnext : ∀ {closers'}, Lookahead.balancedRun stop closers' (n + 1) ts = (r, none) →
        (∀ es : List (Element ρ), Closing closers' es → Closing closers (.token t :: es)) →
        ∃ taken, r = n + taken ∧
          Closing closers (((t :: ts).take taken).map fun t => (.token t : Element ρ)) := by
      intro closers' h hclosing
      obtain ⟨taken, rfl, htaken⟩ := ih h
      exact ⟨taken + 1, by omega, hclosing _ htaken⟩
    unfold Lookahead.balancedRun at h
    split at h
    · rename_i hk
      exact hnext h fun _ => opener (by rw [hk]; rfl)
    · rename_i hk
      exact hnext h fun _ => opener (by rw [hk]; rfl)
    · split at h
      · exact hstop h rfl
      · split at h
        · rename_i heq
          exact hnext h fun _ hes => eq_of_beq heq ▸ closer hes
        · cases h
    · split at h
      · exact hstop h rfl
      · split at h
        · rename_i heq
          exact hnext h fun _ hes => eq_of_beq heq ▸ closer hes
        · cases h
    · rename_i hk
      split at h
      · rename_i hempty
        exact hstop h (List.isEmpty_iff.1 hempty)
      · rename_i hopen
        exact hnext h fun _ => separator hk fun hnil => hopen (List.isEmpty_iff.2 hnil)
    · have hplain : t.kind.isPlain := by
        unfold TokenKind.isPlain
        split
        all_goals first | rfl | contradiction
      split at h
      · rename_i hends
        exact hstop h (List.isEmpty_iff.1 ((Bool.and_eq_true _ _).mp hends).1)
      · exact hnext h fun _ => plain hplain

end Closing

end Tree

open Lookahead (anyAtTop)

/--
A scan that finds nothing when it starts in front of these tokens finds nothing when it starts behind
them. Where separators stand loose, some group must be open.
-/
def Token.Transparent (loose : Bool) (ts : List Token) : Prop :=
  ∀ (p : Token → Bool) (depth : Nat) (us : List Token), (loose = true → depth ≠ 0) →
    anyAtTop p depth (ts ++ us) = false → anyAtTop p depth us = false

namespace Token.Transparent

variable {loose : Bool} {t o c : Token} {ts us inner : List Token}

theorem nil : Transparent loose [] :=
  fun _ _ _ _ h => h

theorem append (hts : Transparent loose ts) (hus : Transparent loose us) :
    Transparent loose (ts ++ us) := by
  intro p depth vs hdepth h
  rw [List.append_assoc] at h
  exact hus p depth vs hdepth (hts p depth _ hdepth h)

theorem loosen (h : Transparent false ts) (loose : Bool) : Transparent loose ts :=
  fun p depth us _ hus => h p depth us nofun hus

theorem anyAtTop_plain (ht : t.kind.isPlain) (p : Token → Bool) (depth : Nat) :
    anyAtTop p depth (t :: us) = ((depth == 0 && p t) || anyAtTop p depth us) := by
  unfold TokenKind.isPlain at ht
  rw [Lookahead.anyAtTop.eq_def]
  split at ht
  all_goals first | contradiction | simp_all

theorem plain (ht : t.kind.isPlain) : Transparent loose [t] := by
  intro p depth us _ h
  rw [List.singleton_append, anyAtTop_plain ht, Bool.or_eq_false_iff] at h
  exact h.2

theorem separator (ht : t.kind = .semicolon) : Transparent true [t] := by
  intro p depth us hdepth h
  rw [List.singleton_append, Lookahead.anyAtTop.eq_def] at h
  simpa [ht, hdepth rfl] using h

theorem group (ho : o.kind.closer? = some c.kind) (h : Transparent true inner) :
    Transparent loose (o :: (inner ++ [c])) := by
  intro p depth us _ hall
  have hopened : anyAtTop p (depth + 1) (inner ++ (c :: us)) = false := by
    rw [List.cons_append, List.append_assoc, Lookahead.anyAtTop.eq_def] at hall
    unfold TokenKind.closer? at ho
    split at ho
    all_goals first | contradiction | simpa [*] using hall
  have hclosed := h p (depth + 1) (c :: us) (fun _ => Nat.succ_ne_zero depth) hopened
  rw [Lookahead.anyAtTop.eq_def] at hclosed
  obtain hc | hc := TokenKind.eq_of_closer? ho
  · simpa [hc] using hclosed
  · simpa [hc] using hclosed

theorem eq_false (h : Transparent false ts) (ht : t.kind.isPlain) {p : Token → Bool}
    (hscan : anyAtTop p 0 (ts ++ t :: us) = false) : p t = false := by
  have hbehind := h p 0 (t :: us) nofun hscan
  rw [anyAtTop_plain ht, Bool.or_eq_false_iff] at hbehind
  exact hbehind.1

end Token.Transparent

namespace Tree

open Token (Transparent)

variable {ρ : Type} {loose : Bool} {es : List (Element ρ)} {n : Node ρ}

theorem Paired.transparent (h : Paired loose es)
    (hnodes : ∀ n, .node n ∈ es → Transparent false n.leaves) :
    Transparent loose (leaves es) := by
  induction h with
  | nil => exact .nil
  | plain ht _ ih =>
    exact (Transparent.plain ht).append (ih fun n hn => hnodes n (List.mem_cons_of_mem _ hn))
  | separator ht _ ih =>
    exact (Transparent.separator ht).append (ih fun n hn => hnodes n (List.mem_cons_of_mem _ hn))
  | node _ ih =>
    exact ((hnodes _ List.mem_cons_self).loosen _).append
      (ih fun n hn => hnodes n (List.mem_cons_of_mem _ hn))
  | @group _ o c inner es ho _ _ ihinner ih =>
    have hgroup : leaves (.token o :: (inner ++ .token c :: es)) =
        o :: (leaves inner ++ [c]) ++ leaves es := by
      simp [leaves, Element.leaves]
    rw [hgroup]
    apply (Transparent.group ho (ihinner _)).append (ih _)
    · intro n hn
      exact hnodes n (by simp [hn])
    · intro n hn
      exact hnodes n (by simp [hn])

theorem Node.Tidy.transparent {separating : ρ → Bool} {n : Node ρ} (h : n.Tidy separating)
    (htight : ∀ m, n.Contains m → separating m.rule = false) : Transparent false n.leaves := by
  have hpaired := h n (.refl n)
  rw [htight n (.refl n)] at hpaired
  rw [Node.leaves_eq]
  apply hpaired.transparent
  intro k hk
  have hmem : k ∈ n.childNodes := List.mem_filterMap.2 ⟨_, hk, rfl⟩
  have := sizeOf_lt_of_mem_childNodes hmem
  exact (h.child hmem).transparent fun m hm => htight m (.child hmem hm)
termination_by sizeOf n

end Tree

end SqlScript
