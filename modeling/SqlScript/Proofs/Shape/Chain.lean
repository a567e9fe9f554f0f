import Mathlib.Algebra.Group.Nat.Defs
import SqlScript.Parsing.Chain
import SqlScript.Proofs.Shape.Loops

/-!
Parsers that go back to a checkpoint form a production around what was built since. The operators of
a chain bind ever less strongly from the inside to the outside, as an operand takes all operators
that bind more strongly than the one in front of it.
-/

namespace SqlScript

open SqlScript.Tree (Element Node leaves)

variable {ρ α β : Type}

structure Turns (s t : ParserState ρ) (old xs ys : List (Element ρ)) : Prop where
  rest : leaves xs ++ s.rest = leaves ys ++ t.rest
  pending : t.builder.pending.toList = old ++ ys
  opened : t.builder.opened = s.builder.opened

/--
Behind this nothing comes that binds at least so strongly.
-/
def Weaker (operator? : TokenKind → Option (InfixOperator ρ)) (least : Nat) (a : Lookahead) : Prop :=
  ∀ operator, operator? (a.kind 0) = some operator → operator.strength < least

namespace Weaker

variable {operator? : TokenKind → Option (InfixOperator ρ)} {operator : InfixOperator ρ}
  {least : Nat} {a : Lookahead}

theorem of_none (h : operator? (a.kind 0) = none) : Weaker operator? least a := by
  intro operator hsome
  rw [h] at hsome
  contradiction

theorem of_lt (h : operator? (a.kind 0) = some operator) (hlt : operator.strength < least) :
    Weaker operator? least a := by
  intro operator' hsome
  rw [h] at hsome
  exact Option.some_inj.1 hsome ▸ hlt

end Weaker

namespace Parser

theorem sees_ite_assoc {q : Lookahead → Bool} {p p' : Parser ρ α} {k : α → Parser ρ β} :
    (sees q >>= fun yes => if yes = true then p >>= k else p' >>= k) =
      (sees q >>= fun yes => if yes = true then p else p') >>= k := by
  rw [bind_assoc]
  congr 1
  funext yes
  split <;> rfl

/--
Behind the parser this holds of what is seen.
-/
def Ends (c : Setting) (post : Lookahead → Prop) (p : Parser ρ α) : Prop :=
  ∀ ⦃s t : ParserState ρ⦄ ⦃a : α⦄, c.stop.kind = .eof → s.builder.Sound → p c s = .ok a t →
    post (c.ahead t.rest)

/--
What was built since the checkpoint, of one shape, becomes something of another shape.
-/
def Reforms [Grammar ρ] (c : Setting) (pre : Lookahead → Prop) (a : Nat) (f : Shape ρ) (b : Nat)
    (g : Shape ρ) (post : Lookahead → Prop) (p : Nat → Parser ρ α) : Prop :=
  ∀ ⦃s t : ParserState ρ⦄ ⦃x : α⦄ ⦃old xs : List (Element ρ)⦄, c.stop.kind = .eof →
    s.builder.floor ≤ old.length → s.builder.pending.toList = old ++ xs → Made a f xs →
    pre (c.ahead s.rest) → p old.length c s = .ok x t →
    ∃ ys, Turns s t old xs ys ∧ Made b g ys ∧ post (c.ahead t.rest)

variable [Grammar ρ] {c : Setting} {pre post post' : Lookahead → Prop} {a b d h : Nat}
  {f g k : Shape ρ}

omit [Grammar ρ] in
theorem Ends.tooDeep : Ends c post (tooDeep : Parser ρ α) := by
  intro s t x _ _ hok
  rw [tooDeep_eq, complain_eq] at hok
  contradiction

namespace Ends

theorem seq {p : Parser ρ α} {q : Parser ρ β} (hp : Forms c (fun _ => True) h f p)
    (hq : Ends c post q) : Ends c post (p >>= fun _ => q) := by
  intro s t x hstop hs hok
  obtain ⟨_, u, hu, hok⟩ := bind_eq_ok hok
  obtain ⟨es, hes, -⟩ := hp hstop hs trivial hu
  exact hq hstop (hes.sound hs) hok

omit [Grammar ρ] in
theorem production {rule : ρ} {p : Parser ρ Unit} (hp : Ends c post p) :
    Ends c post (Parser.production rule p) := by
  intro s t x hstop hs hok
  obtain ⟨u, hu, rfl⟩ := production_ok hok
  have hsound : (s.build (·.start rule)).builder.Sound := by
    unfold Tree.Builder.Sound Tree.Builder.floor
    simp [ParserState.build, Tree.Builder.start]
  have hpost : post (c.ahead u.rest) := hp hstop hsound hu
  exact hpost

omit [Grammar ρ] in
theorem discard {p : Parser ρ α} (hp : Ends c post p) : Ends c post (Functor.discard p) := by
  intro s t x hstop hs hok
  change (p >>= fun _ => Pure.pure _) c s = _ at hok
  obtain ⟨_, u, hu, hok⟩ := bind_eq_ok hok
  cases hok
  exact hp hstop hs hu

theorem whileSees {question : Lookahead → Bool} {p : Parser ρ Unit}
    (hp : Forms c (question · = true) h f p)
    (htakes : ∀ es : List (Element ρ), Made h f es → leaves es ≠ []) :
    Ends c (question · = false) (Parser.whileSees question p) := by
  apply discard
  intro s t x hstop hs hok
  apply iterate_ends (J := fun _ v => v.builder.Sound)
    (Q := fun _ v => question (c.ahead v.rest) = false) _ hs hok
  intro _ v next w hv hok
  obtain ⟨more, w', hw, hok⟩ := bind_eq_ok hok
  rw [sees_bind] at hw
  split at hw
  · rename_i hyes
    obtain ⟨_, _, hv', hw⟩ := bind_eq_ok hw
    cases hw
    cases hok
    obtain ⟨es, hes, hmade⟩ := hp hstop hv hyes hv'
    have hpos := List.length_pos_iff.2 (htakes es hmade)
    refine ⟨hes.sound hv, ?_⟩
    rw [hes.rest, List.length_append]
    omega
  · rename_i hno
    cases hw
    cases hok
    exact Bool.not_eq_true _ ▸ hno

end Ends

theorem Forms.seq_ends {p : Parser ρ α} {q : Parser ρ β} (hp : Forms c pre h f p)
    (hends : Ends c post p) (hq : Forms c post h g q) :
    Forms c pre h (f ++ g) (p >>= fun _ => q) := by
  intro s t b hstop hs hpre hok
  obtain ⟨a, u, hu, hok⟩ := bind_eq_ok hok
  obtain ⟨es, hes, hf⟩ := hp hstop hs hpre hu
  obtain ⟨fs, hfs, hg⟩ := hq hstop (hes.sound hs) (hends hstop hs hu) hok
  exact ⟨es ++ fs, hes.trans hfs, hf.append hg⟩

theorem Forms.whileSees_ends {question : Lookahead → Bool} {p : Parser ρ Unit}
    (hp : Forms c (fun a => pre a ∧ question a = true) h f p) (hends : Ends c pre p) :
    Forms c pre h (.many f) (Parser.whileSees question p) := by
  apply repeatWhile_of
  intro s t more hstop hs hbegin hok
  rw [Parser.sees_bind] at hok
  split at hok
  · rename_i hyes
    obtain ⟨_, u, hu, hok⟩ := bind_eq_ok hok
    cases hok
    obtain ⟨es, hes, hmade⟩ := hp hstop hs ⟨hbegin, hyes⟩ hu
    exact ⟨es, hes, hmade, fun _ => hends hstop hs hu⟩
  · cases hok
    exact ⟨[], .refl s, .nil, nofun⟩

namespace Reforms

theorem tooDeep : Reforms c pre a f b g post fun _ => (tooDeep : Parser ρ α) := by
  intro s t x old xs _ _ _ _ _ hok
  change (Parser.tooDeep : Parser ρ α) c s = _ at hok
  rw [tooDeep_eq, complain_eq] at hok
  contradiction

theorem sub {p : Nat → Parser ρ α} {b' : Nat} {g' : Shape ρ} (hp : Reforms c pre a f b g post p)
    (hg : g.Within g') (hle : b ≤ b') : Reforms c pre a f b' g' post p := by
  intro s t x old xs hstop hfloor hpending hxs hpre hok
  obtain ⟨ys, hys, hmade, hpost⟩ := hp hstop hfloor hpending hxs hpre hok
  exact ⟨ys, hys, hmade.sub hg hle, hpost⟩

theorem from_sub {p : Nat → Parser ρ α} {a' : Nat} {f' : Shape ρ}
    (hp : Reforms c pre a f b g post p) (hf : f'.Within f) (hle : a' ≤ a) :
    Reforms c pre a' f' b g post p := by
  intro s t x old xs hstop hfloor hpending hxs hpre hok
  exact hp hstop hfloor hpending (hxs.sub hf hle) hpre hok

theorem weaken {p : Nat → Parser ρ α} {pre' : Lookahead → Prop}
    (hp : Reforms c pre a f b g post p) (hpre : ∀ a, pre' a → pre a) :
    Reforms c pre' a f b g post p := by
  intro s t x old xs hstop hfloor hpending hxs ha hok
  exact hp hstop hfloor hpending hxs (hpre _ ha) hok

theorem pure (x : α) (hpost : ∀ a, pre a → post a) :
    Reforms c pre a f a f post fun _ => pure x := by
  rintro s _ _ old xs _ _ hpending hxs hpre ⟨⟩
  exact ⟨xs, ⟨rfl, hpending, rfl⟩, hxs, hpost _ hpre⟩

theorem seq {p : Nat → Parser ρ α} {q : Nat → Parser ρ β} (hp : Reforms c pre a f b g post p)
    (hq : Reforms c post b g d k post' q) :
    Reforms c pre a f d k post' fun m => p m >>= fun _ => q m := by
  intro s t x old xs hstop hfloor hpending hxs hpre hok
  obtain ⟨_, u, hu, hok⟩ := bind_eq_ok hok
  obtain ⟨ys, hys, hmade, hpost⟩ := hp hstop hfloor hpending hxs hpre hu
  have hfloor' : u.builder.floor ≤ old.length := by
    unfold Tree.Builder.floor
    rw [hys.opened]
    exact hfloor
  obtain ⟨zs, hzs, hmade', hpost'⟩ := hq hstop hfloor' hys.pending hmade hpost hok
  exact ⟨zs, ⟨hys.rest.trans hzs.rest, hzs.pending, hzs.opened.trans hys.opened⟩, hmade', hpost'⟩

theorem ahead_bind {p : Lookahead → Nat → Parser ρ α}
    (hp : ∀ x, Reforms c (fun y => pre y ∧ y = x) a f b g post (p x)) :
    Reforms c pre a f b g post fun m => ahead >>= fun x => p x m := by
  intro s t x old xs hstop hfloor hpending hxs hpre hok
  exact hp _ hstop hfloor hpending hxs ⟨hpre, rfl⟩ hok

theorem sees_cases {q : Lookahead → α} {p : α → Nat → Parser ρ β}
    (hp : ∀ x, Reforms c (fun y => pre y ∧ q y = x) a f b g post (p x)) :
    Reforms c pre a f b g post fun m => sees q >>= fun x => p x m := by
  intro s t x old xs hstop hfloor hpending hxs hpre hok
  exact hp _ hstop hfloor hpending hxs ⟨hpre, rfl⟩ hok

theorem sees_ite {p q : Nat → Parser ρ α} {question : Lookahead → Bool}
    (hp : Reforms c (fun a => pre a ∧ question a = true) a f b g post p)
    (hq : Reforms c (fun a => pre a ∧ question a = false) a f b g post q) :
    Reforms c pre a f b g post
      fun m => sees question >>= fun yes => if yes = true then p m else q m := by
  intro s t x old xs hstop hfloor hpending hxs hpre hok
  change (sees question >>= fun yes => if yes = true then p old.length else q old.length) c s = _
    at hok
  rw [Parser.sees_bind] at hok
  cases hquestion : question (c.ahead s.rest) with
  | true =>
    rw [hquestion, if_pos rfl] at hok
    exact hp hstop hfloor hpending hxs ⟨hpre, hquestion⟩ hok
  | false =>
    rw [hquestion] at hok
    exact hq hstop hfloor hpending hxs ⟨hpre, hquestion⟩ hok

omit [Grammar ρ] in
theorem opened_startAt {s : ParserState ρ} {m : Nat} (hfloor : s.builder.floor ≤ m) (rule : ρ) :
    (s.build (·.startAt m rule)).builder.opened = (rule, m) :: s.builder.opened := by
  change (rule, max m s.builder.floor) :: s.builder.opened = _
  rw [Nat.max_eq_left hfloor]

omit [Grammar ρ] in
theorem sound_opened {s : ParserState ρ} {rule : ρ} {opened : List (ρ × Nat)}
    {old xs : List (Element ρ)} (hopened : s.builder.opened = (rule, old.length) :: opened)
    (hpending : s.builder.pending.toList = old ++ xs) : s.builder.Sound := by
  unfold Tree.Builder.Sound Tree.Builder.floor
  rw [hopened, hpending, List.length_append]
  exact Nat.le_add_right _ _

theorem productionAt_node {rule : ρ} {q : Node ρ → Bool} {p : Parser ρ Unit}
    (hp : Forms c pre b g p) (hends : Ends c post p) (hshape : (f ++ g).Within (Grammar.shape rule))
    (hq : ∀ n : Node ρ, n.rule = rule → (f ++ g).Matches n.children → q n = true) (hle : a ≤ b) :
    Reforms c pre a f (b + 1) (.node [rule] q) post fun m => productionAt m rule p := by
  intro s t x old xs hstop hfloor hpending hxs hpre hok
  change (p >>= fun _ => finish) c (s.build (·.startAt old.length rule)) = _ at hok
  obtain ⟨_, u, hu, hok⟩ := bind_eq_ok hok
  have ht : t = u.build (·.finish) := by
    cases hok
    rfl
  have hopened := opened_startAt hfloor rule
  have hsound : (s.build (·.startAt old.length rule)).builder.Sound :=
    sound_opened hopened hpending
  obtain ⟨es, hes, hmade⟩ := hp hstop hsound hpre hu
  have hbehind : u.builder.pending.toList = old ++ (xs ++ es) := by
    rw [hes.pending]
    change s.builder.pending.toList ++ es = _
    rw [hpending, List.append_assoc]
  obtain ⟨hrest, hclosed, span, hnode⟩ :=
    Forms.finish_eq (hes.opened.trans hopened) rfl hbehind ht
  have hboth := (hxs.sub (.refl f) hle).append hmade
  have hformed := (hboth.sub hshape (Nat.le_refl b)).node span
  refine ⟨[.node ⟨rule, span, xs ++ es⟩], ⟨?_, hnode, hclosed⟩,
    ⟨⟨_, rfl, List.mem_singleton_self _, hq _ rfl hboth.fits⟩, ?_, ?_⟩, ?_⟩
  · rw [hrest, Tree.leaves_node, Tree.leaves_append, List.append_assoc, ← hes.rest]
    rfl
  · intro e he
    rw [List.mem_singleton.1 he]
    exact hformed.1
  · intro e he
    rw [List.mem_singleton.1 he]
    exact hformed.2
  · rw [hrest]
    exact hends hstop hsound hu

theorem productionAt {rule : ρ} {p : Parser ρ Unit} (hp : Forms c pre b g p)
    (hshape : (f ++ g).Within (Grammar.shape rule)) (hle : a ≤ b) :
    Reforms c pre a f (b + 1) (.one rule) (fun _ => True) fun m => productionAt m rule p :=
  productionAt_node hp (fun _ _ _ _ _ _ => trivial) hshape (fun _ _ _ => rfl) hle

variable {rules : List ρ} {rule : ρ} {k least w : Nat}

theorem productionAt_strong {p : Parser ρ Unit} (hp : Forms c pre a f p)
    (hshape : (Shape.oneIn rules ++ f).Within (Grammar.shape rule)) (hrule : rule ∈ rules)
    (hbond : ∀ n : Node ρ, n.rule = rule → Bonds.bond? n = some k) :
    Reforms c pre a (.oneIn rules) (a + 1) (.strong rules k) (fun _ => True)
      fun m => Parser.productionAt m rule p := by
  apply (productionAt hp hshape (Nat.le_refl a)).sub _ (Nat.le_refl _)
  apply Shape.Within.node (by simpa using hrule)
  intro n hn _
  rw [hbond n (List.mem_singleton.1 hn)]
  exact decide_eq_true (Nat.le_refl k)

theorem sees_strong {question : Lookahead → Option β} {strength : β → Nat}
    {p : β → Nat → Parser ρ Unit} {q : Option β → Nat → Parser ρ Unit}
    (hp : ∀ x, least ≤ strength x → Reforms c (question · = some x) a (.oneIn rules) (a + w)
      (.strong rules least) (fun _ => True) (p x))
    (hsome : ∀ x, q (some x) = fun m => if least ≤ strength x then p x m else Pure.pure ())
    (hnone : q none = fun _ => Pure.pure ()) :
    Reforms c pre a (.strong rules least) (a + w) (.strong rules least) (fun _ => True)
      fun m => sees question >>= fun x? => q x? m := by
  have hstay : ∀ {pre}, Reforms c pre a (.strong rules least) (a + w) (.strong rules least)
      (fun _ => True) fun _ => (Pure.pure () : Parser ρ Unit) :=
    fun {_} => (Reforms.pure () fun _ _ => trivial).sub (.refl _) (Nat.le_add_right a w)
  apply sees_cases
  intro x?
  cases x? with
  | none => exact hnone ▸ hstay
  | some x =>
    rw [hsome]
    by_cases hle : least ≤ strength x
    · simp only [if_pos hle]
      exact ((hp x hle).from_sub .strong_oneIn (Nat.le_refl a)).weaken fun _ hx => hx.2
    · simp only [if_neg hle]
      exact hstay

end Reforms

theorem Forms.checkpoint_bind {p : Parser ρ α} {q : Nat → Parser ρ β} (hp : Forms c pre a f p)
    (hq : Reforms c (fun _ => True) a f b g post q) :
    Forms c pre b g (checkpoint >>= fun m => p >>= fun _ => q m) := by
  intro s t x hstop hs hpre hok
  rw [Parser.checkpoint_bind] at hok
  obtain ⟨_, u, hu, hok⟩ := bind_eq_ok hok
  obtain ⟨es, hes, hmade⟩ := hp hstop hs hpre hu
  have hfloor : u.builder.floor ≤ s.builder.pending.toList.length := by
    unfold Tree.Builder.floor
    rw [hes.opened]
    exact hs
  obtain ⟨ys, hys, hmade', -⟩ := hq hstop hfloor hes.pending hmade trivial hok
  exact ⟨ys, ⟨hes.rest.trans hys.rest, hys.pending, hys.opened.trans hes.opened⟩, hmade'⟩

theorem Forms.checkpoint_ends {p : Parser ρ α} {q : Nat → Parser ρ β}
    (hp : Forms c (fun _ => True) a f p) (hq : Reforms c (fun _ => True) a f b g post q) :
    Ends c post (checkpoint >>= fun m => p >>= fun _ => q m) := by
  intro s t x hstop hs hok
  rw [Parser.checkpoint_bind] at hok
  obtain ⟨_, u, hu, hok⟩ := bind_eq_ok hok
  obtain ⟨es, hes, hmade⟩ := hp hstop hs trivial hu
  have hfloor : u.builder.floor ≤ s.builder.pending.toList.length := by
    unfold Tree.Builder.floor
    rw [hes.opened]
    exact hs
  obtain ⟨_, -, -, hpost⟩ := hq hstop hfloor hes.pending hmade trivial hok
  exact hpost

end Parser

/--
A layer of infix operators, with the productions that can be their operands.
-/
structure InfixLayer (ρ : Type) [Bonds ρ] where
  operator? : TokenKind → Option (InfixOperator ρ)
  /-- How an operator is written. -/
  sign : InfixOperator ρ → Shape ρ
  /-- The kinds of production of the layer. -/
  rules : List ρ
  /-- Those of them that have no operator of the layer on top. -/
  firsts : List ρ
  /-- More than any operator of the layer binds. -/
  top : Nat
  eof : operator? .eof = none
  leaves_sign {operator : InfixOperator ρ} {es : List (Element ρ)} :
    (sign operator).Matches es → leaves es ≠ []
  eq_of_strength_eq {kind kind' : TokenKind} {operator operator' : InfixOperator ρ} :
    operator? kind = some operator → operator? kind' = some operator' →
      operator.strength = operator'.strength → operator = operator'
  strength_lt {kind : TokenKind} {operator : InfixOperator ρ} :
    operator? kind = some operator → operator.strength < top
  rule_mem {kind : TokenKind} {operator : InfixOperator ρ} :
    operator? kind = some operator → operator.rule ∈ rules
  firsts_subset : firsts ⊆ rules
  bond_firsts {n : Node ρ} : n.rule ∈ firsts → Bonds.bond? n = none

namespace InfixLayer

def signed [Bonds ρ] (layer : InfixLayer ρ) (operator : InfixOperator ρ) : Shape ρ :=
  layer.sign operator ++ Shape.strong layer.rules (operator.strength + 1)

def chain [Bonds ρ] (layer : InfixLayer ρ) (operator : InfixOperator ρ) : Shape ρ :=
  Shape.strong layer.rules (operator.strength + 1) ++ layer.signed operator ++
    .many (layer.signed operator)

structure Shaped [Grammar ρ] (layer : InfixLayer ρ) : Prop where
  chain_within {kind : TokenKind} {operator : InfixOperator ρ} :
    layer.operator? kind = some operator →
      (layer.chain operator).Within (Grammar.shape operator.rule)
  bond_chain {kind : TokenKind} {operator : InfixOperator ρ} {n : Node ρ} :
    layer.operator? kind = some operator → n.rule = operator.rule →
      (layer.chain operator).Matches n.children → Bonds.bond? n = some operator.strength

/--
Parsers for the operators of the layer and for their operands: an operand takes all operators that
bind strongly enough.
-/
structure Parsed [Grammar ρ] (layer : InfixLayer ρ) (c : Setting) (h : Nat) (sign : Parser ρ Unit)
    (operand : Nat → Parser ρ Unit) : Prop where
  sign_forms (operator : InfixOperator ρ) :
    Parser.Forms c (fun a => layer.operator? (a.kind 0) = some operator) h (layer.sign operator) sign
  operand_forms (k : Nat) : Parser.Forms c (fun _ => True) h (.strong layer.rules k) (operand k)
  operand_ends (k : Nat) : Parser.Ends c (Weaker layer.operator? k) (operand k)

theorem bond_of_head [Bonds ρ] [DecidableEq ρ] {layer : InfixLayer ρ} {operator : InfixOperator ρ}
    {n : Node ρ} (hsign : layer.sign operator = .token (layer.operator? ·.kind == some operator))
    (hbond : Bonds.bond? n =
      n.tokens.head?.bind fun t => (layer.operator? t.kind).map (·.strength))
    (h : (layer.chain operator).Matches n.children) :
    Bonds.bond? n = some operator.strength := by
  unfold chain signed at h
  rw [hsign] at h
  obtain ⟨_, _, hchildren, ⟨_, _, rfl, ⟨first, rfl, -⟩, _, _, rfl, ⟨t, rfl, ht⟩, _⟩, _⟩ := h
  have hhead : n.tokens.head? = some t := by
    unfold Node.tokens
    rw [hchildren]
    rfl
  rw [hbond, hhead, Option.bind_some, eq_of_beq ht, Option.map_some]

end InfixLayer

namespace Parser

variable [Grammar ρ] {layer : InfixLayer ρ} {c : Setting} {a h least : Nat}

/--
What is known between the links of a chain. While there is a chain, the production that is open
starts at the checkpoint, and no operator follows that binds more strongly.
-/
def Linked (layer : InfixLayer ρ) (c : Setting) (a least : Nat) (s : ParserState ρ)
    (old xs : List (Element ρ)) (chain? : Option (InfixOperator ρ)) (t : ParserState ρ) : Prop :=
  ∃ ys, leaves xs ++ s.rest = leaves ys ++ t.rest ∧ t.builder.pending.toList = old ++ ys ∧
    match chain? with
    | none => t.builder.opened = s.builder.opened ∧ Made a (.oneIn layer.firsts) ys
    | some operator => (∃ kind, layer.operator? kind = some operator) ∧
      least ≤ operator.strength ∧
      t.builder.opened = (operator.rule, old.length) :: s.builder.opened ∧
      Made (a + (layer.top - (operator.strength + 1))) (layer.chain operator) ys ∧
      Weaker layer.operator? (operator.strength + 1) (c.ahead t.rest)

def Linking (layer : InfixLayer ρ) (c : Setting) (a least : Nat) (s : ParserState ρ)
    (old xs : List (Element ρ)) (chain? : Option (InfixOperator ρ)) (t u : ParserState ρ) :
    Option (Option (InfixOperator ρ)) → Prop
  | some chain? => Linked layer c a least s old xs chain? u ∧ u.rest.length < t.rest.length
  | none => Linked layer c a least s old xs chain? u ∧
      Weaker layer.operator? least (c.ahead u.rest)

namespace Linked

variable {s t u : ParserState ρ} {old xs : List (Element ρ)} {chain? : Option (InfixOperator ρ)}

theorem closeChain (hlayer : layer.Shaped) {k : Nat}
    (hlinked : Linked layer c a least s old xs chain? t)
    (hk : ∀ operator, chain? = some operator → k ≤ operator.strength)
    (hok : closeChain chain? c t = .ok () u) :
    ∃ ys, Turns s u old xs ys ∧ Made (a + (layer.top - k)) (.strong layer.rules k) ys ∧
      u.rest = t.rest := by
  obtain ⟨ys, hrest, hpending, hmade⟩ := hlinked
  cases chain? with
  | none =>
    cases hok
    obtain ⟨hopened, hmade⟩ := hmade
    refine ⟨ys, ⟨hrest, hpending, hopened⟩, ?_, rfl⟩
    exact hmade.sub (.free layer.firsts_subset fun _ => layer.bond_firsts) (Nat.le_add_right a _)
  | some operator =>
    obtain ⟨⟨kind, hkind⟩, -, hopened, hmade, -⟩ := hmade
    have hu : u = t.build (·.finish) := by
      cases hok
      rfl
    obtain ⟨hrest', hclosed, span, hnode⟩ := Forms.finish_eq hopened rfl hpending hu
    have hformed := (hmade.sub (hlayer.chain_within hkind) (Nat.le_refl _)).node span
    have hlt := layer.strength_lt hkind
    have hle := hk operator rfl
    refine ⟨[.node ⟨operator.rule, span, ys⟩], ⟨?_, hnode, hclosed⟩, ⟨?_, ?_, ?_⟩, hrest'⟩
    · rw [hrest', Tree.leaves_node]
      exact hrest
    · have hbond : Bonds.bond? (⟨operator.rule, span, ys⟩ : Node ρ) = some operator.strength :=
        hlayer.bond_chain hkind rfl hmade.fits
      refine ⟨_, rfl, layer.rule_mem hkind, ?_⟩
      simp only [hbond, Option.all_some]
      exact decide_eq_true hle
    · intro e he
      rw [List.mem_singleton.1 he]
      exact hformed.1
    · intro e he
      rw [List.mem_singleton.1 he]
      exact Nat.le_trans hformed.2 (by omega)

end Linked

namespace Linked

variable {s t u v : ParserState ρ} {old xs ys es : List (Element ρ)}
  {chain? : Option (InfixOperator ρ)} {operator : InfixOperator ρ}

theorem extend (hlinked : Linked layer c a least s old xs (some operator) t) (hes : Grows t u es)
    (hsigned : Made h (layer.signed operator) es) (ha : h ≤ a)
    (hweaker : Weaker layer.operator? (operator.strength + 1) (c.ahead u.rest)) :
    Linked layer c a least s old xs (some operator) u := by
  obtain ⟨ys, hrest, hpending, hkind, hleast, hopened, hmade, -⟩ := hlinked
  have hrest' : leaves xs ++ s.rest = leaves (ys ++ es) ++ u.rest := by
    rw [hrest, hes.rest, Tree.leaves_append, List.append_assoc]
  have hpending' : u.builder.pending.toList = old ++ (ys ++ es) := by
    rw [hes.pending, hpending, List.append_assoc]
  refine ⟨ys ++ es, hrest', hpending', hkind, hleast, hes.opened.trans hopened, ?_, hweaker⟩
  apply (hmade.append (hsigned.up (Nat.le_add_right_of_le ha))).sub _ (Nat.le_refl _)
  rintro _ ⟨_, es, rfl, ⟨ys, zs, rfl, hys, hzs⟩, hes⟩
  exact ⟨ys, zs ++ es, List.append_assoc _ _ _, hys, hzs.many_append hes⟩

theorem lt_strength {before : InfixOperator ρ}
    (hlinked : Linked layer c a least s old xs (some before) t)
    (hoperator : layer.operator? ((c.ahead t.rest).kind 0) = some operator)
    (hnew : before ≠ operator) : operator.strength < before.strength := by
  obtain ⟨_, _, _, ⟨kind, hkind⟩, -, -, -, hweaker⟩ := hlinked
  have hlt := hweaker operator hoperator
  have hne : operator.strength ≠ before.strength :=
    fun heq => hnew (layer.eq_of_strength_eq hkind hoperator heq.symm)
  omega

theorem begin (hys : Turns s v old xs ys)
    (hmade : Made (a + (layer.top - (operator.strength + 1)))
      (.strong layer.rules (operator.strength + 1)) ys)
    (hfloor : s.builder.floor ≤ old.length) {kind : TokenKind}
    (hkind : layer.operator? kind = some operator) (hleast : least ≤ operator.strength)
    (hes : Grows (v.build (·.startAt old.length operator.rule)) u es)
    (hsigned : Made h (layer.signed operator) es) (ha : h ≤ a)
    (hweaker : Weaker layer.operator? (operator.strength + 1) (c.ahead u.rest)) :
    Linked layer c a least s old xs (some operator) u := by
  have hopened : u.builder.opened = (operator.rule, old.length) :: s.builder.opened := by
    have hfloor : v.builder.floor ≤ old.length := by
      unfold Tree.Builder.floor
      rw [hys.opened]
      exact hfloor
    rw [hes.opened, Reforms.opened_startAt hfloor, hys.opened]
  have hrest : leaves xs ++ s.rest = leaves (ys ++ es) ++ u.rest := by
    rw [hys.rest, Tree.leaves_append, List.append_assoc, ← hes.rest]
    rfl
  have hpending : u.builder.pending.toList = old ++ (ys ++ es) := by
    rw [hes.pending, ← List.append_assoc, ← hys.pending]
    rfl
  refine ⟨ys ++ es, hrest, hpending, ⟨kind, hkind⟩, hleast, hopened, ?_, hweaker⟩
  apply (hmade.append (hsigned.up (Nat.le_add_right_of_le ha))).sub _ (Nat.le_refl _)
  rintro _ ⟨ys, zs, rfl, hys, hzs⟩
  exact ⟨ys ++ zs, [], (List.append_nil _).symm, ⟨ys, zs, rfl, hys, hzs⟩, .many_nil _⟩

end Linked

theorem parsed_of_bump [DecidableEq ρ] {operand : Nat → Parser ρ Unit}
    (hsign : ∀ operator, layer.sign operator = .token (layer.operator? ·.kind == some operator))
    (hoperand : ∀ k, Forms c (fun _ => True) h (.strong layer.rules k) (operand k))
    (hends : ∀ k, Ends c (Weaker layer.operator? k) (operand k)) :
    layer.Parsed c h bump operand where
  sign_forms operator := by
    have := announces_kind (layer.operator? · == some operator) (by rw [layer.eof]; rfl)
    rw [hsign]
    exact .bump_of (fun a => layer.operator? (a.kind 0) == some operator)
      fun _ ha => beq_iff_eq.2 ha
  operand_forms := hoperand
  operand_ends := hends

namespace Reforms

variable [DecidableEq ρ] {sign : Parser ρ Unit} {operand : Nat → Parser ρ Unit}
  {s t u : ParserState ρ} {old xs : List (Element ρ)} {chain? : Option (InfixOperator ρ)}
  {operator : InfixOperator ρ} (hparsed : layer.Parsed c h sign operand)

include hparsed

omit [DecidableEq ρ] in
theorem signed_operand (hstop : c.stop.kind = .eof)
    (hs : s.builder.Sound) (hoperator : layer.operator? ((c.ahead s.rest).kind 0) = some operator)
    {x y : α}
    (hok : (do sign; operand (operator.strength + 1); Pure.pure x : Parser ρ α) c s = .ok y t) :
    y = x ∧ ∃ es, Grows s t es ∧ Made h (layer.signed operator) es ∧
      t.rest.length < s.rest.length ∧
      Weaker layer.operator? (operator.strength + 1) (c.ahead t.rest) := by
  obtain ⟨_, u, hu, hok⟩ := bind_eq_ok hok
  obtain ⟨_, v, hv, hok⟩ := bind_eq_ok hok
  cases hok
  obtain ⟨es, hes, hmade⟩ := hparsed.sign_forms operator hstop hs hoperator hu
  obtain ⟨fs, hfs, hmade'⟩ := hparsed.operand_forms _ hstop (hes.sound hs) trivial hv
  refine ⟨rfl, es ++ fs, hes.trans hfs, hmade.append hmade', ?_,
    hparsed.operand_ends _ hstop (hes.sound hs) hv⟩
  have hle := hfs.length_le
  have hpos := List.length_pos_iff.2 (layer.leaves_sign hmade.fits)
  rw [hes.rest, List.length_append]
  omega

/-- One more operator and its operand: either the chain goes on, or all of it becomes the first
operand of a new one. -/
theorem infixChain_step (hlayer : layer.Shaped) (ha : h ≤ a) (hstop : c.stop.kind = .eof)
    (hfloor : s.builder.floor ≤ old.length) {next : Option (Option (InfixOperator ρ))}
    (hlinked : Linked layer c a least s old xs chain? t)
    (hoperator : layer.operator? ((c.ahead t.rest).kind 0) = some operator)
    (hleast : least ≤ operator.strength)
    (hok : (do
      if chain? ≠ some operator then
        closeChain chain?
        startAt old.length operator.rule
      sign
      operand (operator.strength + 1)
      return some (some operator) : Parser ρ (Option (Option (InfixOperator ρ)))) c t = .ok next u) :
    Linking layer c a least s old xs chain? t u next := by
  by_cases hsame : chain? = some operator
  · subst hsame
    rw [if_neg (not_not_intro rfl)] at hok
    have hsound : t.builder.Sound := by
      obtain ⟨ys, -, hpending, -, -, hopened, -⟩ := hlinked
      exact sound_opened hopened hpending
    obtain ⟨rfl, es, hes, hsigned, hlen, hweaker⟩ :=
      signed_operand hparsed hstop hsound hoperator hok
    exact ⟨hlinked.extend hes hsigned ha hweaker, hlen⟩
  · rw [if_pos hsame] at hok
    have hstronger : ∀ before, chain? = some before → operator.strength + 1 ≤ before.strength := by
      rintro before rfl
      exact hlinked.lt_strength hoperator fun heq => hsame (congrArg some heq)
    obtain ⟨_, v, hv, hok⟩ := bind_eq_ok hok
    obtain ⟨ys, hys, hmade, hrest⟩ := hlinked.closeChain hlayer hstronger hv
    have hfloor' : v.builder.floor ≤ old.length := by
      unfold Tree.Builder.floor
      rw [hys.opened]
      exact hfloor
    have hstart : startAt old.length operator.rule c v =
        .ok () (v.build (·.startAt old.length operator.rule)) := rfl
    obtain ⟨rfl, es, hes, hsigned, hlen, hweaker⟩ := signed_operand hparsed hstop
      (sound_opened (opened_startAt hfloor' operator.rule) hys.pending) (hrest ▸ hoperator)
      ((bind_ok hstart).symm.trans hok)
    exact ⟨.begin hys hmade hfloor hoperator hleast hes hsigned ha hweaker, hrest ▸ hlen⟩

theorem infixChain_link (hlayer : layer.Shaped) (ha : h ≤ a) (hstop : c.stop.kind = .eof)
    (hfloor : s.builder.floor ≤ old.length) {next : Option (Option (InfixOperator ρ))}
    (hlinked : Linked layer c a least s old xs chain? t)
    (hok : infixChain.link old.length least (fun a => layer.operator? (a.kind 0)) sign operand
      chain? c t = .ok next u) : Linking layer c a least s old xs chain? t u next := by
  unfold infixChain.link at hok
  rw [Parser.sees_bind] at hok
  cases hoperator : layer.operator? ((c.ahead t.rest).kind 0) with
  | none =>
    simp only [hoperator] at hok
    cases hok
    exact ⟨hlinked, .of_none hoperator⟩
  | some operator =>
    simp only [hoperator] at hok
    split at hok
    · cases hok
      exact ⟨hlinked, .of_lt hoperator ‹_›⟩
    · exact infixChain_step hparsed hlayer ha hstop hfloor hlinked hoperator
        (Nat.le_of_not_lt ‹_›) hok

/--
What was built since the checkpoint, and the operators that follow it with their right operands,
become one production.
-/
theorem infixChain (hlayer : layer.Shaped) (ha : h ≤ a) (least : Nat) :
    Reforms c (fun _ => True) a (.oneIn layer.firsts) (a + layer.top) (.strong layer.rules least)
      (Weaker layer.operator? least)
      fun m => infixChain m least (fun a => layer.operator? (a.kind 0)) sign operand := by
  intro s t _ old xs hstop hfloor hpending hxs _ hok
  obtain ⟨chain?, u, hu, hok⟩ := bind_eq_ok hok
  have hloop : Linked layer c a least s old xs chain? u ∧
      Weaker layer.operator? least (c.ahead u.rest) := by
    apply iterate_ends (J := Linked layer c a least s old xs)
      (Q := fun chain? u => Linked layer c a least s old xs chain? u ∧
        Weaker layer.operator? least (c.ahead u.rest)) _ _ hu
    · intro chain? v next w hlinked hw
      have hnext := infixChain_link hparsed hlayer ha hstop hfloor hlinked hw
      cases next with
      | none => exact hnext
      | some chain? => exact hnext
    · exact ⟨xs, rfl, hpending, rfl, hxs⟩
  have hleast : ∀ operator, chain? = some operator → least ≤ operator.strength := by
    rintro operator rfl
    obtain ⟨⟨_, _, _, _, hleast, _⟩, -⟩ := hloop
    exact hleast
  obtain ⟨ys, hys, hmade, hrest⟩ := hloop.1.closeChain hlayer hleast hok
  exact ⟨ys, hys, hmade.up (by omega), hrest ▸ hloop.2⟩

end Reforms

end Parser

end SqlScript
