import SqlScript.Proofs.Lossless
import SqlScript.Proofs.MySql.Issued
import SqlScript.Proofs.Postgres.Issued

/-!
Trees are built in order, whatever is opened, wrapped and closed, and in whatever turn, as long as
no production is opened at a checkpoint behind what has been built. The grammars never do that.
-/

namespace SqlScript

/--
None of these spans runs backwards, and each ends before the next one starts.
-/
structure Span.Ascending (ss : List Span) : Prop where
  forward {s : Span} : s ∈ ss → s.start ≤ s.stop
  apart : ss.Pairwise fun s t => s.stop ≤ t.start

theorem Span.Ascending.tail {s : Span} {ss : List Span} (h : Ascending (s :: ss)) :
    Ascending ss where
  forward ht := h.forward (List.mem_cons_of_mem s ht)
  apart := h.apart.of_cons

theorem Span.Ascending.exists_row {ss : List Span} (h : Ascending ss) {a : Nat}
    (ha : ∀ s ∈ ss, a ≤ s.start) : ∃ b, Row a ss b := by
  induction ss generalizing a with
  | nil => exact ⟨a, Nat.le_refl a⟩
  | cons s ss ih =>
    obtain ⟨b, hb⟩ := ih h.tail (List.pairwise_cons.1 h.apart).1
    exact ⟨b, ha s List.mem_cons_self, h.forward List.mem_cons_self, hb⟩

theorem Span.Row.ascending {a b : Nat} {ss : List Span} (h : Row a ss b) : Ascending ss where
  forward hs := (h.bounds hs).2.1
  apart := h.pairwise

theorem Token.byteLength_replicate (n : Nat) : byteLength (List.replicate n 'a') = n := by
  induction n with
  | zero => rfl
  | succ n ih =>
    rw [List.replicate_succ, byteLength_cons, ih]
    exact Nat.add_comm 1 n

theorem Text.place_replicate {n offset : Nat} (h : offset ≤ n) :
    Place (List.replicate n 'a') offset := by
  refine ⟨List.replicate offset 'a', List.replicate (n - offset) 'a', ?_,
    (Token.byteLength_replicate offset).symm⟩
  rw [List.replicate_append_replicate, Nat.add_sub_cancel' h]

namespace Tree

variable {ρ : Type}

def Event.token? : Event ρ → Option Token
  | .token t => some t
  | _ => none

namespace Builder

variable {b : Builder ρ} {e : Event ρ} {es : List (Event ρ)}

theorem leaves_apply (b : Builder ρ) (e : Event ρ) :
    leaves (b.apply e).pending.toList = leaves b.pending.toList ++ e.token?.toList := by
  cases e with
  | token t =>
    unfold apply
    rw [pending_token, Array.toList_push, leaves_append, leaves_token]
    rfl
  | finish => exact (leaves_finish b).trans (List.append_nil _).symm
  | start | startAt | checkpoint => exact (List.append_nil _).symm

theorem leaves_after (b : Builder ρ) (es : List (Event ρ)) :
    leaves (b.after es).pending.toList =
      leaves b.pending.toList ++ es.filterMap Event.token? := by
  induction es generalizing b with
  | nil => exact (List.append_nil _).symm
  | cons e es ih =>
    change leaves ((b.apply e).after es).pending.toList = _
    rw [ih, leaves_apply, List.append_assoc]
    cases h : e.token? with
    | none => rw [List.filterMap_cons_none h]; rfl
    | some t => rw [List.filterMap_cons_some h]; rfl

/--
Every open production starts where the one around it starts or behind that, and none starts behind
what is waiting.
-/
structure Ordered (b : Builder ρ) : Prop where
  nested : b.opened.Pairwise fun inner outer => outer.2 ≤ inner.2
  bounded {top : ρ × Nat} : top ∈ b.opened → top.2 ≤ b.pending.size

namespace Ordered

theorem empty : (Builder.empty : Builder ρ).Ordered :=
  ⟨.nil, nofun⟩

theorem le_floor (h : b.Ordered) {top : ρ × Nat} (htop : top ∈ b.opened) : top.2 ≤ b.floor := by
  have hnested := h.nested
  unfold floor
  cases hopened : b.opened with
  | nil =>
    rw [hopened] at htop
    contradiction
  | cons inner opened =>
    rw [hopened] at htop hnested
    obtain rfl | hmem := List.mem_cons.1 htop
    · exact Nat.le_refl _
    · exact (List.pairwise_cons.1 hnested).1 top hmem

theorem floor_le (h : b.Ordered) : b.floor ≤ b.pending.size := by
  have hbounded := @h.bounded
  unfold floor
  cases hopened : b.opened with
  | nil => exact Nat.zero_le _
  | cons inner opened =>
    rw [hopened] at hbounded
    exact hbounded List.mem_cons_self

theorem cons (h : b.Ordered) {rule : ρ} {k : Nat} (hfloor : b.floor ≤ k)
    (hk : k ≤ b.pending.size) : Ordered { b with opened := (rule, k) :: b.opened } where
  nested := List.pairwise_cons.2 ⟨fun _ htop => Nat.le_trans (h.le_floor htop) hfloor, h.nested⟩
  bounded := by
    intro top htop
    obtain rfl | hmem := List.mem_cons.1 htop
    · exact hk
    · exact h.bounded hmem

theorem finish (h : b.Ordered) : b.finish.Ordered := by
  cases hopened : b.opened with
  | nil =>
    rw [finish_of_nil hopened]
    exact h
  | cons inner opened =>
    obtain ⟨rule, k⟩ := inner
    have hnested := h.nested
    rw [hopened, List.pairwise_cons] at hnested
    have hk : k ≤ b.pending.size := h.bounded (hopened ▸ List.mem_cons_self)
    constructor
    · rw [opened_finish hopened]
      exact hnested.2
    · intro top htop
      rw [opened_finish hopened] at htop
      rw [size_finish hopened]
      have hle : top.2 ≤ k := hnested.1 top htop
      omega

theorem apply (h : b.Ordered) (he : b.Allows e) : (b.apply e).Ordered := by
  cases e with
  | start rule => exact h.cons h.floor_le (Nat.le_refl _)
  | startAt checkpoint rule =>
    exact h.cons (Nat.le_max_right _ _) (Nat.max_le.2 ⟨he, h.floor_le⟩)
  | token t =>
    refine ⟨h.nested, fun htop => Nat.le_trans (h.bounded htop) ?_⟩
    change _ ≤ (b.token t).pending.size
    simp
  | finish => exact h.finish
  | checkpoint => exact h

theorem after (h : b.Ordered) (hes : b.Permits es) : (b.after es).Ordered := by
  induction es generalizing b with
  | nil => exact h
  | cons e es ih => exact ih (h.apply hes.1) hes.2

end Ordered

theorem repeat_finish_succ (n : Nat) (b : Builder ρ) :
    (n + 1).repeat finish b = n.repeat finish b.finish := by
  induction n with
  | zero => rfl
  | succ n ih => exact congrArg finish ih

theorem Ordered.pending_closed (h : b.Ordered) {top : ρ × Nat}
    (htop : b.opened.getLast? = some top) :
    ∃ root, (b.opened.length.repeat Builder.finish b).pending.toList =
      b.pending.toList.take top.2 ++ [.node root] := by
  generalize hopened : b.opened = opened at htop
  induction opened generalizing b with
  | nil => contradiction
  | cons inner opened ih =>
    obtain ⟨rule, k⟩ := inner
    rw [List.length_cons, repeat_finish_succ]
    cases opened with
    | nil =>
      cases htop
      exact ⟨_, pending_finish hopened⟩
    | cons outer opened =>
      have htop : (outer :: opened).getLast? = some top := htop
      obtain ⟨root, hroot⟩ := ih h.finish (opened_finish hopened) htop
      have hk : top.2 ≤ k := by
        have hnested := h.nested
        rw [hopened, List.pairwise_cons] at hnested
        exact hnested.1 top (List.mem_of_getLast? htop)
      have hsize : k ≤ b.pending.toList.length := h.bounded (hopened ▸ List.mem_cons_self)
      refine ⟨root, hroot.trans ?_⟩
      rw [pending_finish hopened, List.take_append_of_le_length, List.take_take, Nat.min_eq_left hk]
      rw [List.length_take, Nat.min_eq_left hsize]
      exact hk

/--
Everything is under one root: the outermost open production takes in all that is waiting or, when
none is open, nothing is waiting but a production.
-/
def Gathered (b : Builder ρ) : Prop :=
  match b.opened.getLast? with
  | some (_, first) => first = 0
  | none => ∃ root, b.pending.toList = [.node root]

theorem tree?_eq_some {root : Node ρ} : b.tree? = some root ↔
    (b.opened.length.repeat finish b).pending.toList = [.node root] := by
  unfold tree?
  split
  · rename_i n hpending
    rw [hpending]
    simp
  · rename_i hpending
    exact ⟨nofun, fun h => absurd h (hpending root)⟩

theorem Ordered.isSome_tree? (h : b.Ordered) : b.tree?.isSome ↔ b.Gathered := by
  rw [Option.isSome_iff_exists]
  unfold Gathered
  cases htop : b.opened.getLast? with
  | none =>
    rw [List.getLast?_eq_none_iff] at htop
    simp only [tree?_eq_some, htop]
    rfl
  | some top =>
    obtain ⟨root, hclosed⟩ := h.pending_closed htop
    have hsize : top.2 ≤ b.pending.toList.length := h.bounded (List.mem_of_getLast? htop)
    simp only [tree?_eq_some, hclosed]
    constructor
    · rintro ⟨n, hn⟩
      have hlength := congrArg List.length hn
      rw [List.length_append, List.length_take, Nat.min_eq_left hsize] at hlength
      exact Nat.succ.inj hlength
    · intro hzero
      exact ⟨root, by simp [show top.2 = 0 from hzero]⟩

theorem leaves_of_tree? {root : Node ρ} (h : b.tree? = some root) :
    root.leaves = leaves b.pending.toList := by
  have hclosed (n : Nat) : leaves (n.repeat finish b).pending.toList = leaves b.pending.toList := by
    induction n with
    | zero => rfl
    | succ n ih => exact (leaves_finish _).trans ih
  rw [← hclosed b.opened.length, tree?_eq_some.1 h, leaves_node, Node.leaves_eq]

theorem Laid.after {text : List Char} (h : b.Laid text)
    (hrow : Span.Row b.offset ((es.filterMap Event.token?).map Token.span)
      (Token.byteLength text))
    (hon : ∀ t ∈ es.filterMap Event.token?, t.span.On text) : (b.after es).Laid text := by
  induction es generalizing b with
  | nil => exact h
  | cons e es ih =>
    cases e with
    | token t =>
      have htokens : (Event.token t :: es).filterMap Event.token? =
          t :: es.filterMap Event.token? := List.filterMap_cons_some rfl
      rw [htokens] at hrow hon
      obtain ⟨hle, hspan, hrow⟩ := hrow
      obtain ⟨ht, hon⟩ := List.forall_mem_cons.1 hon
      exact ih (h.token ht hle hspan) hrow hon
    | start rule => exact ih (h.start rule) hrow hon
    | startAt checkpoint rule => exact ih (h.startAt checkpoint rule) hrow hon
    | finish =>
      apply ih h.finish _ hon
      rw [offset_finish]
      exact hrow
    | checkpoint => exact ih h hrow hon

structure Orderly (b : Builder ρ) : Prop where
  ascending : Span.Ascending (b.pending.toList.map Element.span)
  nodes {n m : Node ρ} : .node n ∈ b.pending.toList → n.Contains m → m.Orderly

theorem Laid.builder_orderly {text : List Char} (h : b.Laid text) : b.Orderly where
  ascending := h.row.ascending
  nodes hn hm := ((h.elements hn).nodes rfl hm).orderly

theorem orderly_after
    (h : Span.Ascending ((es.filterMap Event.token?).map Token.span)) :
    (Builder.empty.after es : Builder ρ).Orderly := by
  obtain ⟨n, hrow⟩ := h.exists_row fun s _ => Nat.zero_le s.start
  have hon : ∀ t ∈ es.filterMap Event.token?, t.span.On (List.replicate n 'a') := by
    intro t ht
    have hbounds := hrow.bounds (List.mem_map_of_mem ht)
    exact ⟨Text.place_replicate (Nat.le_trans hbounds.2.1 hbounds.2.2),
      Text.place_replicate hbounds.2.2⟩
  rw [← Token.byteLength_replicate n] at hrow
  exact ((Laid.empty _).after hrow hon).builder_orderly

structure Valid (tokens : List Token) (b : Builder ρ) : Prop where
  ordered : b.Ordered
  leaves : leaves b.pending.toList = tokens
  orderly : Span.Ascending (tokens.map Token.span) → b.Orderly
  tree : b.tree?.isSome ↔ b.Gathered
  root {root : Node ρ} : b.tree? = some root → root.leaves = tokens

theorem valid_after (h : Builder.empty.Permits es) :
    (Builder.empty.after es).Valid (es.filterMap Event.token?) := by
  have hordered := Ordered.empty.after h
  have hleaves := leaves_after Builder.empty es
  exact ⟨hordered, hleaves, orderly_after, hordered.isSome_tree?,
    fun hroot => (leaves_of_tree? hroot).trans hleaves⟩

-- A production without children lies at the end of the last token.
example : (Builder.empty.after [.start "Root", .token ⟨.keyword .SELECT, ⟨0, 6⟩⟩, .start "Empty",
    .finish]).tree?.map (fun root => (root.span, root.childNodes.map (·.span))) =
      some (⟨0, 6⟩, [⟨6, 6⟩]) := by
  decide

end Builder

end Tree

open SqlScript.Tree (Builder Event)

/--
Run from this state, the parser issues events of which each is permitted when its turn comes, and
they are all that happens to the builder.
-/
def Parser.Permitted {ρ α : Type} (c : Setting) (p : Parser ρ α) (s : ParserState ρ) : Prop :=
  ∃ es, Issues c p s es ∧ s.builder.Permits es ∧ (endState (p c s)).builder = s.builder.after es

theorem Parser.Keeps.permitted {ρ α : Type} {c : Setting} {p : Parser ρ α} {s : ParserState ρ}
    (h : Keeps c s.builder.checkpoint p) : Permitted c p s := by
  obtain ⟨es, hes, hpermits, -⟩ := h.steers s.builder.opened s ⟨rfl, Nat.le_refl _⟩
  exact ⟨es, hes, hpermits, hes.builder_eq⟩

/--
Whatever is opened, wrapped and closed in whatever turn, trees are built in order, as long as
productions are opened at no checkpoint behind what is waiting; and neither grammar, whatever it
reads and whether it succeeds or fails, opens one there.
-/
theorem building_valid :
    (∀ {ρ : Type} (es : List (Event ρ)), Builder.empty.Permits es →
      (Builder.empty.after es).Valid (es.filterMap Event.token?)) ∧
    ∀ (c : Setting) (depth : Nat) (ts : List Token),
      Parser.Permitted c (MySql.script (MySql.parser depth)) ⟨ts, .empty⟩ ∧
      Parser.Permitted c (Postgres.script (Postgres.parser depth)) ⟨ts, .empty⟩ := by
  constructor
  · intro ρ es hes
    exact Builder.valid_after hes
  · intro c depth ts
    exact ⟨Parser.Keeps.permitted MySql.script.keeps, Parser.Keeps.permitted Postgres.script.keeps⟩

/--
The steps that build a sum, whose first operand is wrapped when the sign comes. Neither the sum nor
the root is closed.
-/
def Tree.Event.sum : List (Event String) := [
  .start "Root", .checkpoint, .start "Atom", .token ⟨.integer, ⟨0, 1⟩⟩, .finish, .startAt 0 "Sum",
  .token ⟨.plus, ⟨2, 3⟩⟩, .start "Atom", .token ⟨.integer, ⟨4, 5⟩⟩, .finish]

theorem building_valid_sum :
    Builder.empty.Permits Event.sum ∧
      (Builder.empty.after Event.sum).Valid (Event.sum.filterMap Event.token?) ∧
      Parser.Permitted ⟨.mySql, 9, .eof 6⟩ (MySql.script (MySql.parser 9))
        ⟨[⟨.keyword .SELECT, ⟨0, 6⟩⟩], .empty⟩ := by
  have hpermits : Builder.empty.Permits Event.sum := by decide
  exact ⟨hpermits, building_valid.1 Event.sum hpermits, (building_valid.2 _ 9 _).1⟩

end SqlScript
