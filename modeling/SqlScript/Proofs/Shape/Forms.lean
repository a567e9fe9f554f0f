import SqlScript.Proofs.Run
import SqlScript.Proofs.Shape.Basic
import SqlScript.Proofs.Simulation.Lookahead

/-!
Parsers that form shapes. What a parser adds to the tree under construction is well formed, has a
certain shape and is no higher than a bound.
-/

namespace SqlScript

open SqlScript.Tree (Element leaves)

variable {ρ α β σ : Type}

/--
The innermost open production does not reach out of what was built.
-/
def Tree.Builder.Sound (b : Tree.Builder ρ) : Prop :=
  b.floor ≤ b.pending.toList.length

theorem Tree.Builder.sound_start (b : Builder ρ) (rule : ρ) : (b.start rule).Sound := by
  unfold Sound floor
  simp [start]

structure Grows (s t : ParserState ρ) (es : List (Element ρ)) : Prop where
  rest : s.rest = leaves es ++ t.rest
  pending : t.builder.pending.toList = s.builder.pending.toList ++ es
  opened : t.builder.opened = s.builder.opened

theorem Token.isOneOf_of_isKeyword (t : Token) {word : Keyword} {words : List Keyword}
    (ht : t.isKeyword word) (hword : word ∈ words) : t.isOneOf words := by
  unfold Token.isKeyword at ht
  unfold Token.isOneOf
  rw [eq_of_beq ht]
  simpa using hword

theorem Lookahead.isNamePart_of_isName {a : Lookahead} {n : Nat} (h : a.isName n) :
    a.isNamePart n := by
  unfold isName kind at h
  unfold isNamePart Token.isNamePart
  split at h
  all_goals simp_all

/--
A yes to the question means that there is a token in front, and says something of it.
-/
class Announces (q : Lookahead → Bool) (p : outParam (Token → Bool)) : Prop where
  cons {a : Lookahead} : a.stop.kind = .eof → q a → ∃ t ts, a.rest = t :: ts ∧ p t

section

variable {q r : Lookahead → Bool} {p p' : Token → Bool}

theorem announces_kind (p : TokenKind → Bool) (h : p .eof = false) :
    Announces (fun a => p (a.kind 0)) (fun t => p t.kind) where
  cons {a} hstop hq := by
    unfold Lookahead.kind Lookahead.token at hq
    cases hrest : a.rest with
    | nil => simp [hrest, hstop, h] at hq
    | cons t ts => exact ⟨t, ts, rfl, by simpa [hrest] using hq⟩

theorem announces_token (p : Token → Bool) (h : ∀ t, t.kind = .eof → p t = false) :
    Announces (fun a => p (a.token 0)) p where
  cons {a} hstop hq := by
    unfold Lookahead.token at hq
    cases hrest : a.rest with
    | nil => simp [hrest, h a.stop hstop] at hq
    | cons t ts => exact ⟨t, ts, rfl, by simpa [hrest] using hq⟩

instance (word : Keyword) : Announces (·.isKeyword 0 word) (·.isKeyword word) :=
  announces_token (·.isKeyword word) fun t ht => by simp [Token.isKeyword, Token.keyword?, ht]

instance (words : List Keyword) : Announces (·.isOneOf 0 words) (·.isOneOf words) :=
  announces_token (·.isOneOf words) fun t ht => by simp [Token.isOneOf, Token.keyword?, ht]

instance (word : String) : Announces (·.isWord 0 word) (·.isWord word) :=
  announces_token (·.isWord word) fun t ht => by simp [Token.isWord, ht]

instance : Announces (·.isNamePart 0) Token.isNamePart :=
  announces_token Token.isNamePart fun t ht => by simp [Token.isNamePart, ht]

instance (words : List String) :
    Announces (fun a => words.any (a.isWord 0)) (fun t => words.any t.isWord) :=
  announces_token (fun t => words.any t.isWord) fun t ht => by simp [Token.isWord, ht]

instance : Announces (·.isKind 0 .semicolon) (·.kind.alike .semicolon) :=
  announces_token (·.kind.alike .semicolon) fun t ht => by
    rw [ht]
    rfl

instance (kind : TokenKind) [kind.Inner] : Announces (·.isKind 0 kind) (·.kind.alike kind) :=
  announces_token (·.kind.alike kind) fun t ht => by simp [ht]

instance : Announces (·.isName 0) Token.isNamePart where
  cons {a} hstop hq := by
    exact Announces.cons (q := (·.isNamePart 0)) hstop (Lookahead.isNamePart_of_isName hq)

instance [Announces q p] : Announces (fun a => q a && r a) p where
  cons hstop hq := by
    rw [Bool.and_eq_true] at hq
    exact Announces.cons hstop hq.1

instance [Announces q p] [Announces r p'] : Announces (fun a => q a || r a) fun t => p t || p' t where
  cons hstop hq := by
    rw [Bool.or_eq_true] at hq
    obtain hq | hq := hq
    · obtain ⟨t, ts, hrest, ht⟩ := Announces.cons hstop hq
      exact ⟨t, ts, hrest, by simp [ht]⟩
    · obtain ⟨t, ts, hrest, ht⟩ := Announces.cons hstop hq
      exact ⟨t, ts, hrest, by simp [ht]⟩

end

namespace Grows

variable {s t u : ParserState ρ} {es fs : List (Element ρ)}

theorem refl (s : ParserState ρ) : Grows s s [] :=
  ⟨rfl, by simp, rfl⟩

theorem trans (h : Grows s t es) (h' : Grows t u fs) : Grows s u (es ++ fs) where
  rest := by rw [h.rest, h'.rest, Tree.leaves_append, List.append_assoc]
  pending := by rw [h'.pending, h.pending, List.append_assoc]
  opened := h'.opened.trans h.opened

theorem sound (h : Grows s t es) (hs : s.builder.Sound) : t.builder.Sound := by
  have hfloor : t.builder.floor = s.builder.floor := by
    unfold Tree.Builder.floor
    rw [h.opened]
  unfold Tree.Builder.Sound at hs ⊢
  rw [hfloor, h.pending, List.length_append]
  exact Nat.le_add_right_of_le hs

theorem length_le (h : Grows s t es) : t.rest.length ≤ s.rest.length := by
  rw [h.rest, List.length_append]
  exact Nat.le_add_left _ _

theorem advance {x : Token} {xs : List Token} (h : s.rest = x :: xs) :
    Grows s s.advance [.token x] := by
  have hadvance : s.advance = { s with rest := xs, builder := s.builder.token x } := by
    unfold ParserState.advance
    rw [h]
  rw [hadvance]
  exact ⟨by rw [h, Tree.leaves_token]; rfl, by simp, rfl⟩

theorem bumpN {c : Setting} {n : Nat} {s t : ParserState ρ}
    (h : Parser.bumpN n c s = .ok () t) : Grows s t ((s.rest.take n).map .token) := by
  induction n generalizing s with
  | zero =>
    cases h
    exact .refl _
  | succ n ih =>
    have hnext : Grows s.advance t ((s.advance.rest.take n).map .token) := ih h
    cases hrest : s.rest with
    | nil =>
      have hadvance : s.advance = s := by
        unfold ParserState.advance
        rw [hrest]
      rw [hadvance, hrest, List.take_nil] at hnext
      rw [List.take_nil]
      exact hnext
    | cons x xs =>
      rw [ParserState.rest_advance, hrest, List.tail_cons] at hnext
      exact (advance hrest).trans hnext

end Grows

variable [Grammar ρ]

structure Made (h : Nat) (f : Shape ρ) (es : List (Element ρ)) : Prop where
  fits : f.Matches es
  formed : ∀ e ∈ es, e.Formed
  height : ∀ e ∈ es, e.height ≤ h

namespace Made

variable {h h' : Nat} {f g : Shape ρ} {es fs : List (Element ρ)}

theorem sub (hes : Made h f es) (hfg : f.Within g) (hle : h ≤ h') : Made h' g es :=
  ⟨hfg hes.fits, hes.formed, fun e he => Nat.le_trans (hes.height e he) hle⟩

theorem up (hes : Made h f es) (hle : h ≤ h') : Made h' f es :=
  hes.sub (.refl f) hle

theorem nil : Made h (.nothing : Shape ρ) [] :=
  ⟨rfl, nofun, nofun⟩

theorem token {p : Token → Bool} {t : Token} (ht : p t) :
    Made h (.token p : Shape ρ) [.token t] := by
  refine ⟨⟨t, rfl, ht⟩, ?_, ?_⟩
  · intro e he
    rw [List.mem_singleton.1 he]
    exact Tree.Element.formed_token t
  · intro e he
    rw [List.mem_singleton.1 he]
    exact Nat.zero_le _

theorem of_tokens {ts : List Token} (hts : f.Matches (ts.map .token)) : Made h f (ts.map .token) := by
  refine ⟨hts, ?_, ?_⟩
  · intro e he
    obtain ⟨t, -, rfl⟩ := List.mem_map.1 he
    exact Tree.Element.formed_token t
  · intro e he
    obtain ⟨t, -, rfl⟩ := List.mem_map.1 he
    exact Nat.zero_le _

theorem tokens {ts : List Token} (hts : Tree.Paired false (ts.map fun t => (.token t : Element ρ))) :
    Made h (.tokens : Shape ρ) (ts.map .token) := by
  refine of_tokens ⟨?_, hts⟩
  intro e he
  obtain ⟨t, -, rfl⟩ := List.mem_map.1 he
  rfl

theorem many_token {p : Token → Bool} {ts : List Token} (hts : ∀ t ∈ ts, p t) :
    Made h (.many (.token p) : Shape ρ) (ts.map .token) := by
  refine of_tokens ⟨ts.map fun t => [.token t], ?_, ?_⟩
  · rw [← List.flatMap_def]
    exact List.map_eq_flatMap
  · intro xs hxs
    obtain ⟨t, ht, rfl⟩ := List.mem_map.1 hxs
    exact ⟨t, rfl, hts t ht⟩

theorem append (hes : Made h f es) (hfs : Made h g fs) : Made h (f ++ g) (es ++ fs) := by
  refine ⟨hes.fits.append hfs.fits, ?_, ?_⟩
  · intro e he
    exact (List.mem_append.1 he).elim (hes.formed e) (hfs.formed e)
  · intro e he
    exact (List.mem_append.1 he).elim (hes.height e) (hfs.height e)

theorem many_append (hes : Made h (.many f) es) (hfs : Made h f fs) :
    Made h (.many f) (es ++ fs) where
  fits := hes.fits.many_append hfs.fits
  formed e he := (List.mem_append.1 he).elim (hes.formed e) (hfs.formed e)
  height e he := (List.mem_append.1 he).elim (hes.height e) (hfs.height e)

theorem heights_le (hes : Made h f es) : Tree.heights es ≤ h := by
  have hall := hes.height
  clear hes
  induction es with
  | nil => exact Nat.zero_le _
  | cons e es ih =>
    rw [Tree.heights]
    exact Nat.max_le.2 ⟨hall e List.mem_cons_self,
      ih fun e he => hall e (List.mem_cons_of_mem _ he)⟩

theorem node {rule : ρ} (hes : Made h (Grammar.shape rule) es) (span : Span) :
    (Element.node ⟨rule, span, es⟩).Formed ∧
      (Element.node ⟨rule, span, es⟩ : Element ρ).height ≤ h + 1 := by
  constructor
  · rintro _ ⟨⟩
    exact Tree.Node.Formed.of_children hes.fits hes.formed
  · rw [Tree.Element.height, Tree.Node.height]
    exact Nat.succ_le_succ hes.heights_le

end Made

def Lookahead.skip (a : Lookahead) (n : Nat) : Lookahead :=
  a.toSetting.ahead (a.rest.drop n)

@[simp]
theorem Lookahead.token_skip (a : Lookahead) (n k : Nat) : (a.skip n).token k = a.token (n + k) :=
  Lookahead.token_drop a.toSetting a.rest n k

@[simp]
theorem Lookahead.kind_skip (a : Lookahead) (n k : Nat) : (a.skip n).kind k = a.kind (n + k) := by
  unfold Lookahead.kind
  rw [Lookahead.token_skip]

@[simp]
theorem Lookahead.isKeyword_skip (a : Lookahead) (n k : Nat) (word : Keyword) :
    (a.skip n).isKeyword k word = a.isKeyword (n + k) word := by
  unfold Lookahead.isKeyword
  rw [Lookahead.token_skip]

def Lookahead.behind (a : Lookahead) (word : Keyword) : Lookahead :=
  a.skip (if a.isKeyword 0 word then 1 else 0)

namespace Lookahead

variable {a : Lookahead} {n : Nat}

theorem isPlain_of_isKeyword {word : Keyword} (h : a.isKeyword n word) : (a.kind n).isPlain :=
  Token.Plain.isPlain (p := (·.isKeyword word)) h

theorem isPlain_of_isOneOf {words : List Keyword} (h : a.isOneOf n words) : (a.kind n).isPlain :=
  Token.Plain.isPlain (p := (·.isOneOf words)) h

theorem isKeyword_of_isOneOf {first second : Keyword} (h : a.isOneOf n [first, second])
    (hfirst : a.isKeyword n first = false) : a.isKeyword n second := by
  unfold isOneOf Token.isOneOf at h
  unfold isKeyword Token.isKeyword at hfirst ⊢
  cases hword : (a.token n).keyword? with
  | none => simp [hword] at h
  | some word =>
    rw [hword] at h hfirst
    simpa [beq_false_of_ne, show word ≠ first by simpa using hfirst] using h

theorem isPlain_of_isWord {word : String} (h : a.isWord n word) : (a.kind n).isPlain :=
  Token.Plain.isPlain (p := (·.isWord word)) h

theorem isPlain_of_any_isWord {words : List String} (h : words.any (a.isWord n)) :
    (a.kind n).isPlain :=
  Token.Plain.isPlain (p := fun t => words.any t.isWord) h

theorem isPlain_of_isNamePart (h : a.isNamePart n) : (a.kind n).isPlain :=
  Token.Plain.isPlain (p := Token.isNamePart) h

theorem isPlain_of_isKind {kind : TokenKind} [hkind : Token.Plain (·.kind.alike kind)]
    (h : a.isKind n kind) : (a.kind n).isPlain :=
  hkind.isPlain h

theorem isPlain_of_isName (h : a.isName n) : (a.kind n).isPlain :=
  isPlain_of_isNamePart (isNamePart_of_isName h)

theorem token_of_prefix {ts : List Token} {t : Token} (h : ts <+: a.rest) (ht : ts.head? = some t) :
    a.token 0 = t := by
  obtain ⟨us, hus⟩ := h
  cases ts with
  | nil => contradiction
  | cons _ _ =>
    cases ht
    unfold token
    rw [← hus]
    rfl

end Lookahead

namespace Parser

variable {c : Setting} {pre post : Lookahead → Prop} {h h' : Nat} {f g k : Shape ρ}

/--
Where the first holds of what is seen, the second holds of what is seen behind the parser.
-/
def Leads (c : Setting) (pre post : Lookahead → Prop) (p : Parser ρ α) : Prop :=
  ∀ ⦃s t : ParserState ρ⦄ ⦃a : α⦄, pre (c.ahead s.rest) → p c s = .ok a t → post (c.ahead t.rest)

namespace Leads

omit [Grammar ρ]

theorem bumpN {n : Nat} (h : ∀ a, pre a → post (a.skip n)) :
    Leads c pre post (Parser.bumpN n : Parser ρ Unit) := by
  intro s t _ hpre hok
  obtain ⟨u, hu, hrest⟩ := bumpN_ok (c := c) n s
  rw [hu] at hok
  cases hok
  rw [hrest]
  exact h _ hpre

theorem bump (h : ∀ a, pre a → post (a.skip 1)) :
    Leads c pre post (Parser.bump : Parser ρ Unit) :=
  fun _ _ _ hpre hok => bumpN h hpre hok

theorem discard {p : Parser ρ α} (hp : Leads c pre post p) :
    Leads c pre post (Functor.discard p) := by
  intro s t b hpre hok
  change (p >>= fun a => Pure.pure _) c s = _ at hok
  obtain ⟨_, u, hu, hok⟩ := bind_eq_ok hok
  cases hok
  exact hp hpre hu

theorem eatIf {q : Lookahead → Bool} (htaken : ∀ a, pre a → q a = true → post (a.skip 1))
    (hleft : ∀ a, pre a → q a = false → post a) : Leads c pre post (Parser.eatIf q : Parser ρ Bool) := by
  intro s t _ hpre hok
  rw [eatIf_eq] at hok
  split at hok
  · rename_i hq
    have hone : s.advance.rest = s.rest.drop 1 := by simp
    cases hok
    rw [hone]
    exact htaken _ hpre hq
  · rename_i hq
    cases hok
    exact hleft _ hpre (Bool.not_eq_true _ ▸ hq)

theorem ifSees {q : Lookahead → Bool} {p : Parser ρ Unit}
    (hp : Leads c (fun a => pre a ∧ q a = true) post p)
    (hnot : ∀ a, pre a → q a = false → post a) : Leads c pre post (Parser.ifSees q p) := by
  intro s t _ hpre hok
  unfold Parser.ifSees at hok
  rw [Parser.sees_bind] at hok
  split at hok
  · rename_i hq
    exact hp ⟨hpre, hq⟩ hok
  · rename_i hq
    cases hok
    exact hnot _ hpre (Bool.not_eq_true _ ▸ hq)

theorem expectIf {q : Lookahead → Bool} {what : String}
    (h : ∀ a, pre a → q a = true → post (a.skip 1)) :
    Leads c pre post (Parser.expectIf q what : Parser ρ Unit) := by
  intro s t _ hpre hok
  rw [expectIf_eq] at hok
  split at hok
  · rename_i hq
    have hone : s.advance.rest = s.rest.drop 1 := by simp
    cases hok
    rw [hone]
    exact h _ hpre hq
  · rw [Parser.expected, complain_eq] at hok
    contradiction

theorem expectName (h : ∀ a, pre a → post (a.skip 1)) :
    Leads c pre post (Parser.expectName : Parser ρ Unit) :=
  expectIf fun a ha _ => h a ha

theorem optionalKeyword {word : Keyword} (hpre : ∀ a, pre a → post (a.behind word)) :
    Leads c pre post (Parser.optionalKeyword word : Parser ρ Unit) := by
  unfold Lookahead.behind at hpre
  apply discard
  apply eatIf
  · intro a ha htaken
    have hpost := hpre a ha
    rwa [if_pos htaken] at hpost
  · intro a ha hleft
    have hpost := hpre a ha
    rwa [if_neg (Bool.not_eq_true _ ▸ hleft)] at hpost

theorem production {rule : ρ} {p : Parser ρ Unit} (hp : Leads c pre post p) :
    Leads c pre post (Parser.production rule p) := by
  intro s t _ hpre hok
  obtain ⟨u, hu, rfl⟩ := production_ok hok
  have hpost : post (c.ahead u.rest) := hp (s := s.build (·.start rule)) hpre hu
  exact hpost

end Leads

/--
Where the precondition holds of what is seen, the parser adds well formed elements of the shape, no
higher than the bound, if it succeeds.
-/
def Forms (c : Setting) (pre : Lookahead → Prop) (h : Nat) (f : Shape ρ) (p : Parser ρ α) : Prop :=
  ∀ ⦃s t : ParserState ρ⦄ ⦃a : α⦄, c.stop.kind = .eof → s.builder.Sound → pre (c.ahead s.rest) →
    p c s = .ok a t → ∃ es, Grows s t es ∧ Made h f es

namespace Forms

theorem sub {p : Parser ρ α} (hp : Forms c pre h f p) (hfg : f.Within g) (hle : h ≤ h') :
    Forms c pre h' g p := by
  intro s t a hstop hs hpre hok
  obtain ⟨es, hgrows, hmade⟩ := hp hstop hs hpre hok
  exact ⟨es, hgrows, hmade.sub hfg hle⟩

theorem up {p : Parser ρ α} (hp : Forms c pre h f p) (hle : h ≤ h') : Forms c pre h' f p :=
  hp.sub (.refl f) hle

theorem among {rule : ρ} {rules : List ρ} {p : Parser ρ α} (hp : Forms c pre h (.one rule) p)
    (hrule : rule ∈ rules) (hle : h ≤ h') : Forms c pre h' (.oneIn rules) p := by
  apply hp.sub (.oneIn _) hle
  simpa using hrule

theorem left {p : Parser ρ α} (hp : Forms c pre h f p) : Forms c pre h (f ||| g) p :=
  hp.sub (fun _ => .inl) (Nat.le_refl h)

theorem right {p : Parser ρ α} (hp : Forms c pre h g p) : Forms c pre h (f ||| g) p :=
  hp.sub (fun _ => .inr) (Nat.le_refl h)

theorem weaken {p : Parser ρ α} {pre' : Lookahead → Prop} (hp : Forms c pre h f p)
    (hpre : ∀ a, pre' a → pre a) : Forms c pre' h f p :=
  fun _ _ _ hstop hs ha => hp hstop hs (hpre _ ha)

theorem anywhere {p : Parser ρ α} (hp : Forms c (fun _ => True) h f p) : Forms c pre h f p :=
  hp.weaken fun _ _ => trivial

theorem among_seen {rule : ρ} {rules : List ρ} {p : Parser ρ α} {pre' : Lookahead → Prop}
    {a : Lookahead} (hp : Forms c pre' h (.one rule) p) (ha : pre' a) (hrule : rule ∈ rules)
    (hle : h ≤ h') : Forms c (fun b => pre b ∧ b = a) h' (.oneIn rules) p :=
  (hp.weaken (by rintro _ ⟨-, rfl⟩; exact ha)).among hrule hle

/-- What is known of the tokens in front is known of those of the production. -/
theorem front {rules : List ρ} {q r : Tree.Node ρ → Bool} {p : Parser ρ α}
    (hp : Forms c pre h (.node rules q) p)
    (hr : ∀ n a, pre a → n.leaves <+: a.rest → n.rule ∈ rules → q n = true → r n = true) :
    Forms c pre h (.node rules r) p := by
  intro s t b hstop hs hpre hok
  obtain ⟨_, hgrows, hmade⟩ := hp hstop hs hpre hok
  obtain ⟨n, rfl, hn, hq⟩ := hmade.fits
  have hprefix : n.leaves <+: s.rest := ⟨t.rest, by rw [hgrows.rest, Tree.leaves_node, n.leaves_eq]⟩
  exact ⟨_, hgrows, ⟨n, rfl, hn, hr n _ hpre hprefix hn hq⟩, hmade.formed, hmade.height⟩

theorem seen {p : Parser ρ α} (hp : Forms c pre h f p)
    (hg : ∀ es a, pre a → leaves es <+: a.rest → Made h f es → g.Matches es) :
    Forms c pre h g p := by
  intro s t b hstop hs hpre hok
  obtain ⟨es, hgrows, hmade⟩ := hp hstop hs hpre hok
  have hprefix : leaves es <+: s.rest := ⟨t.rest, hgrows.rest.symm⟩
  exact ⟨es, hgrows, hg es _ hpre hprefix hmade, hmade.formed, hmade.height⟩

theorem ahead_eq {p : Lookahead → Parser ρ α} {a : Lookahead} (hp : Forms c (· = a) h f (p a)) :
    Forms c (· = a) h f (ahead >>= p) := by
  rintro s t b hstop hs rfl hok
  exact hp hstop hs rfl hok

theorem each {p : Parser ρ α} (hp : ∀ a, pre a → Forms c (· = a) h f p) : Forms c pre h f p :=
  fun _ _ _ hstop hs hpre => hp _ hpre hstop hs rfl

theorem pure (a : α) : Forms c pre h (.nothing : Shape ρ) (pure a) := by
  rintro s _ _ _ _ _ ⟨⟩
  exact ⟨[], .refl s, .nil⟩

theorem bind {p : Parser ρ α} {q : α → Parser ρ β} (hp : Forms c pre h f p)
    (hq : ∀ a, Forms c (fun _ => True) h g (q a)) : Forms c pre h (f ++ g) (p >>= q) := by
  intro s t b hstop hs hpre hok
  obtain ⟨a, u, hu, hok⟩ := bind_eq_ok hok
  obtain ⟨es, hes, hf⟩ := hp hstop hs hpre hu
  obtain ⟨fs, hfs, hg⟩ := hq a hstop (hes.sound hs) trivial hok
  exact ⟨es ++ fs, hes.trans hfs, hf.append hg⟩

theorem seq {p : Parser ρ α} {q : Parser ρ β} (hp : Forms c pre h f p)
    (hq : Forms c (fun _ => True) h g q) : Forms c pre h (f ++ g) (p >>= fun _ => q) :=
  hp.bind fun _ => hq

theorem seq_of {p : Parser ρ α} {q : Parser ρ β} (hp : Forms c pre h f p) (hmid : Leads c pre post p)
    (hq : Forms c post h g q) : Forms c pre h (f ++ g) (p >>= fun _ => q) := by
  intro s t b hstop hs hpre hok
  obtain ⟨a, u, hu, hok⟩ := bind_eq_ok hok
  obtain ⟨es, hes, hf⟩ := hp hstop hs hpre hu
  obtain ⟨fs, hfs, hg⟩ := hq hstop (hes.sound hs) (hmid hpre hu) hok
  exact ⟨es ++ fs, hes.trans hfs, hf.append hg⟩

theorem map {p : Parser ρ α} (hp : Forms c pre h f p) (v : α → β) :
    Forms c pre h f (v <$> p) := by
  change Forms c pre h f (p >>= fun a => Pure.pure (v a))
  apply (hp.bind fun a => pure (v a)).sub _ (Nat.le_refl h)
  rintro _ ⟨xs, _, rfl, hxs, rfl⟩
  rwa [List.append_nil]

theorem discard {p : Parser ρ α} (hp : Forms c pre h f p) : Forms c pre h f (Functor.discard p) :=
  hp.map _

theorem complain (complaint : Complaint) : Forms c pre h f (complain complaint : Parser ρ α) := by
  intro s t a _ _ _ hok
  rw [complain_eq] at hok
  contradiction

theorem expected (what : String) : Forms c pre h f (expected what : Parser ρ α) :=
  complain _

theorem seq_expected {p : Parser ρ α} (hp : Forms c pre h f p) (what : String) :
    Forms c pre h g (p >>= fun _ => Parser.expected what : Parser ρ β) := by
  have hnever : Forms c (fun _ => True) h (.token fun _ => false : Shape ρ)
      (Parser.expected what : Parser ρ β) := expected what
  apply (hp.seq hnever).sub _ (Nat.le_refl h)
  rintro _ ⟨_, _, _, _, _, _, hfalse⟩
  contradiction

theorem expected_bind (what : String) {q : α → Parser ρ β} :
    Forms c pre h g (Parser.expected what >>= q) := by
  intro s t b _ _ _ hok
  obtain ⟨_, u, hu, -⟩ := bind_eq_ok hok
  unfold Parser.expected at hu
  rw [complain_eq] at hu
  contradiction

theorem tooDeep : Forms c pre h f (tooDeep : Parser ρ α) := by
  intro s t a hstop hs hpre hok
  rw [tooDeep_eq] at hok
  exact complain _ hstop hs hpre hok

theorem sees_cases {q : Lookahead → α} {p : α → Parser ρ β}
    (hp : ∀ a, Forms c (fun b => pre b ∧ b = a) h f (p (q a))) :
    Forms c pre h f (sees q >>= p) := by
  intro s t b hstop hs hpre hok
  exact hp _ hstop hs ⟨hpre, rfl⟩ hok

theorem ahead_bind {p : Lookahead → Parser ρ α}
    (hp : ∀ a, Forms c (fun b => pre b ∧ b = a) h f (p a)) : Forms c pre h f (ahead >>= p) := by
  intro s t b hstop hs hpre hok
  exact hp _ hstop hs ⟨hpre, rfl⟩ hok

section

variable {p p' : Parser ρ α} {q : Lookahead → Bool}

theorem sees_ite (hp : Forms c (fun a => pre a ∧ q a = true) h f p)
    (hp' : Forms c (fun a => pre a ∧ q a = false) h f p') :
    Forms c pre h f (sees q >>= fun b => if b = true then p else p') := by
  intro s t a hstop hs hpre hok
  rw [Parser.sees_bind] at hok
  cases hq : q (c.ahead s.rest) with
  | true =>
    rw [hq, if_pos rfl] at hok
    exact hp hstop hs ⟨hpre, hq⟩ hok
  | false =>
    rw [hq] at hok
    exact hp' hstop hs ⟨hpre, hq⟩ hok

theorem sees_or (hp : Forms c (fun a => pre a ∧ q a = true) h f p)
    (hp' : Forms c (fun a => pre a ∧ q a = false) h g p') :
    Forms c pre h (f ||| g) (sees q >>= fun b => if b = true then p else p') :=
  sees_ite hp.left hp'.right

end

theorem sees_join {q : Lookahead → Bool} {p : Bool → Parser ρ α} {r : Shape ρ}
    (hp : Forms c (fun a => pre a ∧ q a = true) h (f ++ r) (p true))
    (hp' : Forms c (fun a => pre a ∧ q a = false) h (g ++ r) (p false)) :
    Forms c pre h ((f ||| g) ++ r) (sees q >>= p) := by
  intro s t a hstop hs hpre hok
  rw [Parser.sees_bind] at hok
  cases hq : q (c.ahead s.rest) with
  | true =>
    rw [hq] at hok
    obtain ⟨es, hes, hmade⟩ := hp hstop hs ⟨hpre, hq⟩ hok
    refine ⟨es, hes, hmade.sub ?_ (Nat.le_refl h)⟩
    exact Shape.Within.append (fun _ => .inl) (.refl r)
  | false =>
    rw [hq] at hok
    obtain ⟨es, hes, hmade⟩ := hp' hstop hs ⟨hpre, hq⟩ hok
    refine ⟨es, hes, hmade.sub ?_ (Nat.le_refl h)⟩
    exact Shape.Within.append (fun _ => .inr) (.refl r)

theorem ifSees {p : Parser ρ Unit} {q : Lookahead → Bool} (hp : Forms c (q · = true) h f p) :
    Forms c pre h f.opt (ifSees q p) := by
  unfold Parser.ifSees
  exact sees_ite (hp.weaken fun _ ha => ha.2).right (pure ()).left

theorem ifKeyword {p : Parser ρ Unit} {word : Keyword}
    (hp : Forms c (·.isKeyword 0 word = true) h f p) :
    Forms c pre h f.opt (ifKeyword word p) :=
  ifSees hp

-- Tokens

section

variable {q : Lookahead → Bool} {p : Token → Bool}

theorem bump_of (q : Lookahead → Bool) [hq : Announces q p] (hpre : ∀ a, pre a → q a = true) :
    Forms c pre h (.token p : Shape ρ) bump := by
  rintro s _ _ hstop _ ha ⟨⟩
  obtain ⟨x, xs, hrest, hx⟩ := hq.cons hstop (hpre _ ha)
  exact ⟨[.token x], .advance hrest, .token hx⟩

theorem bump_opt (hpre : ∀ a t ts, pre a → a.rest = t :: ts → p t) :
    Forms c pre h (Shape.opt (.token p) : Shape ρ) bump := by
  intro s t a _ _ ha hok
  rw [bump_eq] at hok
  cases hok
  cases hrest : s.rest with
  | nil =>
    have hadvance : s.advance = s := by
      unfold ParserState.advance
      rw [hrest]
    rw [hadvance]
    exact ⟨[], .refl s, Made.nil.sub (fun _ => .inl) (Nat.le_refl h)⟩
  | cons x xs =>
    exact ⟨[.token x], .advance hrest,
      (Made.token (hpre _ x xs ha hrest)).sub (fun _ => .inr) (Nat.le_refl h)⟩

theorem anyBump : Forms c pre h (.anyToken : Shape ρ) bump :=
  bump_opt fun _ _ _ _ _ => rfl

theorem bumpKeyword {word : Keyword} (hpre : ∀ a, pre a → a.isKeyword 0 word = true) :
    Forms c pre h (.word word : Shape ρ) Parser.bump :=
  bump_of (·.isKeyword 0 word) hpre

theorem bump (hpre : ∀ a, pre a → (a.kind 0).isPlain) :
    Forms c pre h (.plainToken : Shape ρ) bump := by
  apply bump_opt
  intro a t ts ha hrest
  have hplain := hpre a ha
  unfold Lookahead.kind Lookahead.token at hplain
  rw [hrest] at hplain
  exact hplain

theorem eatIf_cases {k : Bool → Parser ρ β} [hq : Announces q p]
    (hk : Forms c (fun _ => True) h f (k true))
    (hk' : Forms c (fun a => pre a ∧ q a = false) h g (k false)) :
    Forms c pre h (.token p ++ f ||| g) (eatIf q >>= k) := by
  intro s t b hstop hs hpre hok
  obtain ⟨taken, u, hu, hok⟩ := bind_eq_ok hok
  rw [eatIf_eq] at hu
  split at hu
  · rename_i hyes
    cases hu
    obtain ⟨x, xs, hrest, hx⟩ := hq.cons hstop hyes
    have hgrows : Grows s s.advance [.token x] := .advance hrest
    obtain ⟨es, hes, hf⟩ := hk hstop (hgrows.sound hs) trivial hok
    exact ⟨_, hgrows.trans hes, ((Made.token hx).append hf).sub (fun _ => .inl) (Nat.le_refl h)⟩
  · rename_i hno
    cases hu
    obtain ⟨es, hes, hg⟩ := hk' hstop hs ⟨hpre, by simpa using hno⟩ hok
    exact ⟨es, hes, hg.sub (fun _ => .inr) (Nat.le_refl h)⟩

theorem eatIf_bind {k : Bool → Parser ρ β} [Announces q p]
    (hk : Forms c (fun _ => True) h f (k true)) (hk' : Forms c pre h g (k false)) :
    Forms c pre h (.token p ++ f ||| g) (eatIf q >>= k) :=
  eatIf_cases hk (hk'.weaken fun _ ha => ha.1)

theorem eatIf_ite {k k' : Parser ρ β} [Announces q p]
    (hk : Forms c (fun _ => True) h f k) (hk' : Forms c pre h g k') :
    Forms c pre h (.token p ++ f ||| g)
      (eatIf q >>= fun b => if b = true then k else k') :=
  eatIf_bind hk hk'

theorem eatIf_then {k : Parser ρ Unit} [Announces q p] (hk : Forms c (fun _ => True) h f k) :
    Forms c pre h (Shape.token p ++ f).opt
      (eatIf q >>= fun b => if b = true then k else Pure.pure ()) :=
  (eatIf_ite hk (pure ())).sub (fun _ hes => hes.symm) (Nat.le_refl h)

theorem eatIf_unless {k : Parser ρ Unit} [Announces q p] (hk : Forms c pre h f k) :
    Forms c pre h (.token p ||| f)
      (eatIf q >>= fun b => if (!b) = true then k else Pure.pure ()) := by
  apply (eatIf_bind (f := .nothing) (pure ()) hk).sub _ (Nat.le_refl h)
  rintro es (⟨xs, _, rfl, hxs, rfl⟩ | hes)
  · rw [List.append_nil]
    exact .inl hxs
  · exact .inr hes

theorem eatIf_join {k : Bool → Parser ρ β} {r : Shape ρ} [Announces q p]
    (hk : Forms c (fun _ => True) h (f ++ r) (k true)) (hk' : Forms c pre h (g ++ r) (k false)) :
    Forms c pre h ((.token p ++ f ||| g) ++ r) (eatIf q >>= k) := by
  apply (eatIf_bind hk hk').sub _ (Nat.le_refl h)
  rintro es (⟨xs, _, rfl, hxs, ys, zs, rfl, hys, hzs⟩ | ⟨xs, ys, rfl, hxs, hys⟩)
  · exact ⟨xs ++ ys, zs, by simp, .inl (hxs.append hys), hzs⟩
  · exact ⟨xs, ys, rfl, .inr hxs, hys⟩

theorem eatIf_then_join {k : Bool → Parser ρ β} {r : Shape ρ} [Announces q p]
    (hk : Forms c (fun _ => True) h (f ++ r) (k true)) (hk' : Forms c pre h r (k false)) :
    Forms c pre h ((Shape.token p ++ f).opt ++ r) (eatIf q >>= k) := by
  apply (eatIf_bind hk hk').sub _ (Nat.le_refl h)
  rintro es (⟨xs, _, rfl, hxs, ys, zs, rfl, hys, hzs⟩ | hes)
  · exact ⟨xs ++ ys, zs, by simp, .inr (hxs.append hys), hzs⟩
  · exact ⟨[], es, rfl, .inl rfl, hes⟩

theorem eatIf_unless_join {k : Bool → Parser ρ β} {r : Shape ρ} [Announces q p]
    (hk : Forms c (fun _ => True) h r (k true)) (hk' : Forms c pre h (f ++ r) (k false)) :
    Forms c pre h ((.token p ||| f) ++ r) (eatIf q >>= k) := by
  apply (eatIf_bind hk hk').sub _ (Nat.le_refl h)
  rintro es (⟨xs, ys, rfl, hxs, hys⟩ | ⟨xs, ys, rfl, hxs, hys⟩)
  · exact ⟨xs, ys, rfl, .inl hxs, hys⟩
  · exact ⟨xs, ys, rfl, .inr hxs, hys⟩

theorem eatIf [hq : Announces q p] : Forms c pre h (Shape.opt (.token p) : Shape ρ) (eatIf q) := by
  intro s t b hstop hs hpre hok
  rw [eatIf_eq] at hok
  split at hok
  · rename_i hyes
    cases hok
    obtain ⟨x, xs, hrest, hx⟩ := hq.cons hstop hyes
    exact ⟨[.token x], .advance hrest, Made.sub (.token hx) (fun _ => .inr) (Nat.le_refl h)⟩
  · cases hok
    exact ⟨[], .refl s, Made.nil.sub (fun _ => .inl) (Nat.le_refl h)⟩

theorem expectIf [hq : Announces q p] (what : String) :
    Forms c pre h (.token p : Shape ρ) (expectIf q what) := by
  intro s t b hstop hs hpre hok
  rw [expectIf_eq] at hok
  split at hok
  · rename_i hyes
    cases hok
    obtain ⟨x, xs, hrest, hx⟩ := hq.cons hstop hyes
    exact ⟨[.token x], .advance hrest, .token hx⟩
  · exact expected what hstop hs hpre hok

end

theorem expectKeyword (word : Keyword) :
    Forms c pre h (.word word : Shape ρ) (expectKeyword word) :=
  expectIf _

theorem expectOneOf (words : List Keyword) (what : String) :
    Forms c pre h (.oneOf words : Shape ρ) (expectOneOf words what) :=
  expectIf _

theorem expectName : Forms c pre h (.namePart : Shape ρ) expectName :=
  expectIf _

theorem expect (kind : TokenKind) [kind.Inner] :
    Forms c pre h (.kind kind : Shape ρ) (expect kind) :=
  expectIf _

theorem optionalKeyword (word : Keyword) :
    Forms c pre h (Shape.opt (.word word) : Shape ρ) (optionalKeyword word) :=
  eatIf.discard

theorem optionalOneOf (words : List Keyword) :
    Forms c pre h (Shape.opt (.oneOf words) : Shape ρ) (optionalOneOf words) :=
  eatIf.discard

theorem afterKeyword {p : Parser ρ Unit} {word : Keyword} (hp : Forms c (fun _ => True) h f p) :
    Forms c pre h (Shape.word word ++ f).opt (afterKeyword word p) :=
  eatIf_then hp

theorem parenthesized {p : Parser ρ Unit} (hp : Forms c (fun _ => True) h f p) :
    Forms c pre h f.parens (parenthesized p) := by
  unfold Parser.parenthesized
  apply ((expect _).seq (hp.seq (expect _))).sub _ (Nat.le_refl h)
  rintro _ ⟨xs, _, rfl, hxs, ys, zs, rfl, hys, hzs⟩
  exact ⟨xs ++ ys, zs, by simp, hxs.append hys, hzs⟩

-- Runs of tokens

theorem tokens_seq_of {p : Parser ρ α} {q : Parser ρ β} (hp : Forms c pre h .tokens p)
    (hmid : Leads c pre post p) (hq : Forms c post h .tokens q) :
    Forms c pre h .tokens (p >>= fun _ => q) := by
  apply (hp.seq_of hmid hq).sub _ (Nat.le_refl h)
  rintro _ ⟨xs, ys, rfl, hxs, hys⟩
  exact hxs.tokens_append hys

theorem tokens_seq {p : Parser ρ α} {q : α → Parser ρ β} (hp : Forms c pre h .tokens p)
    (hq : ∀ a, Forms c (fun _ => True) h .tokens (q a)) : Forms c pre h .tokens (p >>= q) := by
  apply (hp.bind hq).sub _ (Nat.le_refl h)
  rintro _ ⟨xs, ys, rfl, hxs, hys⟩
  exact hxs.tokens_append hys

theorem bumpN_of (p : Token → Bool) {n : Nat} (hpre : ∀ a, pre a → ∀ k < n, p (a.token k)) :
    Forms c pre h (.many (.token p) : Shape ρ) (Parser.bumpN n) := by
  intro s t _ hstop _ ha hok
  refine ⟨_, .bumpN hok, Made.many_token ?_⟩
  intro x hx
  obtain ⟨k, hk, rfl⟩ := List.mem_iff_getElem.1 hx
  rw [List.length_take] at hk
  have := hpre _ ha k (by omega)
  rw [Lookahead.token_of_lt (by rw [Setting.rest_ahead]; omega)] at this
  simpa using this

theorem bumpN {n : Nat} (hpre : ∀ a, pre a → ∀ k < n, (a.kind k).isPlain) :
    Forms c pre h (.tokens : Shape ρ) (bumpN n) :=
  (bumpN_of (·.kind.isPlain) hpre).sub
    (.trans (.many (Shape.Within.token_tokens _)) .many_tokens) (Nat.le_refl h)

theorem bumpTwo (hpre : ∀ a, pre a → (a.kind 0).isPlain ∧ (a.kind 1).isPlain) :
    Forms c pre h (.tokens : Shape ρ) (Parser.bumpN 2) := by
  apply bumpN
  intro a ha k hk
  obtain rfl | rfl : k = 0 ∨ k = 1 := by omega
  · exact (hpre a ha).1
  · exact (hpre a ha).2

theorem bumpThree
    (hpre : ∀ a, pre a → (a.kind 0).isPlain ∧ (a.kind 1).isPlain ∧ (a.kind 2).isPlain) :
    Forms c pre h (.tokens : Shape ρ) (Parser.bumpN 3) := by
  apply bumpN
  intro a ha k hk
  obtain ⟨hfirst, hsecond, hthird⟩ := hpre a ha
  obtain rfl | rfl | rfl : k = 0 ∨ k = 1 ∨ k = 2 := by omega
  all_goals assumption

theorem bump_tokens (hpre : ∀ a, pre a → (a.kind 0).isPlain) :
    Forms c pre h (.tokens : Shape ρ) Parser.bump := by
  have hone : Forms c pre h (.tokens : Shape ρ) (Parser.bumpN 1) := by
    apply bumpN
    intro a ha k hk
    rw [Nat.lt_one_iff.1 hk]
    exact hpre a ha
  exact hone

theorem ifSees_tokens {p : Parser ρ Unit} {q : Lookahead → Bool}
    (hp : Forms c (fun a => pre a ∧ q a = true) h .tokens p) :
    Forms c pre h .tokens (Parser.ifSees q p) := by
  unfold Parser.ifSees
  apply sees_ite hp
  exact (pure ()).sub (fun _ hes => by cases hes; exact .tokens_nil) (Nat.le_refl h)

theorem eatIf_tokens {q : Lookahead → Bool} {p : Token → Bool} [Announces q p] [Token.Plain p] :
    Forms c pre h (.tokens : Shape ρ) (Parser.eatIf q) := by
  apply eatIf.sub _ (Nat.le_refl h)
  rintro es (rfl | hes)
  · exact .tokens_nil
  · exact Shape.Within.token_tokens _ hes

theorem eatIf_ite_tokens {q : Lookahead → Bool} {p : Token → Bool} {k k' : Parser ρ β}
    [Announces q p] [Token.Plain p] (hk : Forms c (fun _ => True) h .tokens k)
    (hk' : Forms c pre h .tokens k') :
    Forms c pre h .tokens (Parser.eatIf q >>= fun b => if b = true then k else k') := by
  apply (eatIf_ite hk hk').sub _ (Nat.le_refl h)
  rintro es (⟨xs, ys, rfl, hxs, hys⟩ | hes)
  · exact (Shape.Within.token_tokens p hxs).tokens_append hys
  · exact hes

theorem bumpBalancedUntil (stop : Token → Bool) :
    Forms c pre h (.tokens : Shape ρ) (bumpBalancedUntil stop) := by
  intro s t a hstop _ _ hok
  unfold Parser.bumpBalancedUntil at hok
  rw [Parser.ahead_bind] at hok
  cases hrun : Lookahead.balancedRun stop [] 0 (c.ahead s.rest).rest with
  | mk n missing =>
    rw [hrun] at hok
    dsimp only at hok
    obtain ⟨_, u, hu, hok⟩ := bind_eq_ok hok
    cases missing with
    | some closer => cases hok
    | none =>
      cases hok
      obtain ⟨taken, htaken, hclosing⟩ := Tree.Closing.of_balancedRun hrun
      rw [Nat.zero_add] at htaken
      subst htaken
      exact ⟨_, .bumpN hu, .tokens hclosing⟩

theorem bumpBalanced : Forms c pre h (.tokens : Shape ρ) bumpBalanced :=
  bumpBalancedUntil _

theorem bumpGroup_group (opener closer : TokenKind) [opener.Inner] [closer.Inner]
    (hpre : ∀ a, pre a → a.isKind 0 opener = true) :
    Forms c pre h (Shape.kind opener ++ .tokens ++ .kind closer : Shape ρ)
      (bumpGroup.group closer) := by
  unfold bumpGroup.group
  apply ((bump_of (·.isKind 0 opener) hpre).seq (bumpBalanced.seq (expect closer))).sub _
    (Nat.le_refl h)
  rintro _ ⟨xs, _, rfl, hxs, ys, zs, rfl, hys, hzs⟩
  exact ⟨xs ++ ys, zs, by simp, hxs.append hys, hzs⟩

theorem bumpGroup : Forms c pre h (.tokenGroup : Shape ρ) bumpGroup := by
  intro s t a hstop hs hpre hok
  unfold Parser.bumpGroup at hok
  rw [Parser.sees_bind] at hok
  generalize hkind : (c.ahead s.rest).kind 0 = kind at hok
  split at hok
  · have hparen : Forms c (fun a => a.kind 0 = .leftParen) h (.tokenGroup : Shape ρ)
        (bumpGroup.group .rightParen) :=
      (bumpGroup_group .leftParen .rightParen fun a ha => by
        simp [Lookahead.isKind, ha, TokenKind.alike]).left
    exact hparen hstop hs hkind hok
  · have hbracket : Forms c (fun a => a.kind 0 = .leftBracket) h (.tokenGroup : Shape ρ)
        (bumpGroup.group .rightBracket) :=
      (bumpGroup_group .leftBracket .rightBracket fun a ha => by
        simp [Lookahead.isKind, ha, TokenKind.alike]).right
    exact hbracket hstop hs hkind hok
  · exact expected _ hstop hs hpre hok

theorem bumpGroup_brackets (hpre : ∀ a, pre a → a.isKind 0 .leftBracket = true) :
    Forms c pre h (.brackets .tokens : Shape ρ) Parser.bumpGroup := by
  intro s t a hstop hs ha hok
  have hkind : (c.ahead s.rest).kind 0 = .leftBracket :=
    (TokenKind.eq_of_alike (rfl : TokenKind.leftBracket.closer? = some .rightBracket)).1 (hpre _ ha)
  unfold Parser.bumpGroup at hok
  rw [Parser.sees_bind, hkind] at hok
  exact bumpGroup_group .leftBracket .rightBracket hpre hstop hs ha hok

-- Productions

omit [Grammar ρ] in
theorem finish_eq {s t : ParserState ρ} {rule : ρ} {n : Nat} {opened : List (ρ × Nat)}
    {old es : List (Element ρ)} (hopened : s.builder.opened = (rule, n) :: opened)
    (hold : old.length = n) (hpending : s.builder.pending.toList = old ++ es)
    (ht : t = s.build (·.finish)) :
    t.rest = s.rest ∧ t.builder.opened = opened ∧ ∃ span,
      t.builder.pending.toList = old ++ [.node ⟨rule, span, es⟩] := by
  subst ht
  refine ⟨rfl, Tree.Builder.opened_finish hopened, Tree.Builder.spanOf s.builder.offset es, ?_⟩
  change s.builder.finish.pending.toList = _
  rw [Tree.Builder.pending_finish hopened, hpending, List.take_left' hold, List.drop_left' hold]

theorem production_node {rule : ρ} {q : Tree.Node ρ → Bool} {p : Parser ρ Unit}
    (hp : Forms c pre h f p) (hf : f.Within (Grammar.shape rule))
    (hq : ∀ n : Tree.Node ρ, n.rule = rule → f.Matches n.children → q n = true) :
    Forms c pre (h + 1) (.node [rule] q) (Parser.production rule p) := by
  intro s t a hstop hs hpre hok
  obtain ⟨u, hu, ht⟩ := production_ok hok
  have hsound : (s.build (·.start rule)).builder.Sound := s.builder.sound_start rule
  obtain ⟨es, hes, hmade⟩ := hp hstop hsound hpre hu
  obtain ⟨hrest, hopened, span, hpending⟩ := finish_eq hes.opened rfl hes.pending ht
  have hnode := (hmade.sub hf (Nat.le_refl h)).node span
  refine ⟨[.node ⟨rule, span, es⟩], ⟨?_, hpending, hopened⟩,
    ⟨_, rfl, List.mem_singleton_self _, hq _ rfl hmade.fits⟩, ?_, ?_⟩
  · rw [hrest, Tree.leaves_node]
    exact hes.rest
  · intro e he
    rw [List.mem_singleton.1 he]
    exact hnode.1
  · intro e he
    rw [List.mem_singleton.1 he]
    exact hnode.2

theorem production_front {rule : ρ} {q : Tree.Node ρ → Bool} {p : Parser ρ Unit}
    {f : Lookahead → Shape ρ} (hp : ∀ a, pre a → Forms c (· = a) h (f a) p)
    (hf : ∀ a, pre a → (f a).Within (Grammar.shape rule))
    (hq : ∀ (n : Tree.Node ρ) a, pre a → n.leaves <+: a.rest → n.rule = rule →
      (f a).Matches n.children → q n = true) :
    Forms c pre (h + 1) (.node [rule] q) (Parser.production rule p) := by
  classical
  apply each
  intro a ha
  have hnode : Forms c (· = a) (h + 1) (.node [rule] fun n => decide ((f a).Matches n.children))
      (Parser.production rule p) :=
    (hp a ha).production_node (hf a ha) fun _ _ hes => decide_eq_true hes
  apply hnode.front
  rintro n _ rfl hprefix hrule hes
  exact hq n _ ha hprefix (List.mem_singleton.1 hrule) (of_decide_eq_true hes)

theorem production {rule : ρ} {p : Parser ρ Unit} (hp : Forms c pre h (Grammar.shape rule) p) :
    Forms c pre (h + 1) (.one rule) (Parser.production rule p) :=
  production_node hp (.refl _) fun _ _ _ => rfl

end Forms

end Parser

omit [Grammar ρ] in
theorem Grows.close {s t : ParserState ρ} {rule : ρ} {es : List (Element ρ)}
    (h : Grows (s.build (·.start rule)) t es) :
    ∃ span, Grows s (t.build (·.finish)) [.node ⟨rule, span, es⟩] := by
  obtain ⟨hrest, hopened, span, hpending⟩ := Parser.Forms.finish_eq h.opened rfl h.pending rfl
  refine ⟨span, ⟨?_, hpending, hopened⟩⟩
  rw [hrest, Tree.leaves_node]
  exact h.rest

end SqlScript
