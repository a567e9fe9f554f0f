import SqlScript.Proofs.Tokens
import SqlScript.Tree.Builder

/-!
How the productions of a tree lie in the text: each from its first child to its last one, with the
children one behind the other. The leaves of a tree are the tokens it was built from.
-/

namespace SqlScript

namespace Tree

variable {ρ : Type}

mutual

/--
All tokens of a production, whatever nested production they belong to, in source order.
-/
def Node.leaves : Node ρ → List Token
  | ⟨_, _, children⟩ => leaves children

def Element.leaves : Element ρ → List Token
  | .node n => n.leaves
  | .token t => [t]

def leaves : List (Element ρ) → List Token
  | [] => []
  | e :: es => e.leaves ++ leaves es

end

/--
The second production is the first one or is nested in it, however deeply.
-/
inductive Node.Contains : Node ρ → Node ρ → Prop
  | refl (n : Node ρ) : Contains n n
  | child {n m k : Node ρ} (h : m ∈ n.childNodes) (hk : Contains m k) : Contains n k

/--
The production lies in the text from its first child to its last one, and its children lie one
behind the other.
-/
structure Node.Laid (text : List Char) (n : Node ρ) : Prop where
  span : n.span.On text
  covers {first last : Element ρ} : n.children.head? = some first →
    n.children.getLast? = some last → n.span = ⟨first.span.start, last.span.stop⟩
  isEmpty : n.children = [] → n.span.isEmpty
  row : Span.Row n.span.start (n.children.map Element.span) n.span.stop
  children {e : Element ρ} : e ∈ n.children → e.span.On text

structure Element.Laid (text : List Char) (e : Element ρ) : Prop where
  span : e.span.On text
  nodes {n m : Node ρ} : e = .node n → n.Contains m → m.Laid text

@[simp]
theorem leaves_append (es fs : List (Element ρ)) : leaves (es ++ fs) = leaves es ++ leaves fs := by
  induction es with
  | nil => rfl
  | cons e es ih => rw [List.cons_append, leaves, leaves, ih, List.append_assoc]

theorem leaves_token (t : Token) : leaves [(.token t : Element ρ)] = [t] :=
  rfl

theorem Node.leaves_eq (n : Node ρ) : n.leaves = Tree.leaves n.children := by
  cases n with
  | mk rule span children => rw [Node.leaves]

theorem leaves_node (n : Node ρ) : leaves [.node n] = leaves n.children := by
  rw [leaves, leaves, List.append_nil, Element.leaves, Node.leaves_eq]

theorem mem_children_of_mem_childNodes {n m : Node ρ} (h : m ∈ n.childNodes) :
    .node m ∈ n.children := by
  unfold Node.childNodes at h
  rw [List.mem_filterMap] at h
  obtain ⟨e, he, hm⟩ := h
  cases e with
  | token t => contradiction
  | node k =>
    cases hm
    exact he

theorem Node.Laid.span_of_singleton {text : List Char} {n : Node ρ} {e : Element ρ}
    (h : n.Laid text) (hchildren : n.children = [e]) : n.span = e.span :=
  h.covers (by rw [hchildren]; rfl) (by rw [hchildren]; rfl)

theorem Element.Laid.token {text : List Char} {t : Token} (h : t.span.On text) :
    (Element.token t : Element ρ).Laid text :=
  ⟨h, nofun⟩

theorem Element.Laid.of_children {text : List Char} {n : Node ρ} (hn : n.Laid text)
    (hchildren : ∀ e ∈ n.children, e.Laid text) : (Element.node n).Laid text where
  span := hn.span
  nodes := by
    intro _ m heq hm
    cases heq
    cases hm with
    | refl => exact hn
    | child h hk => exact (hchildren _ (mem_children_of_mem_childNodes h)).nodes rfl hk

namespace Element.Laid

variable {text : List Char} {n m : Node ρ}

theorem proper (h : (Element.node n).Laid text) : n.span.Proper text :=
  ⟨h.span, (h.nodes rfl (.refl n)).row.le⟩

theorem child (h : (Element.node n).Laid text) (hm : m ∈ n.childNodes) :
    (Element.node m).Laid text where
  span := (h.nodes rfl (.refl n)).children (mem_children_of_mem_childNodes hm)
  nodes := by
    intro _ k heq hk
    cases heq
    exact h.nodes rfl (.child hm hk)

theorem child_within (h : (Element.node n).Laid text) (hm : m ∈ n.childNodes) :
    m.span.Within n.span := by
  have hmem : m.span ∈ n.children.map Element.span :=
    List.mem_map_of_mem (mem_children_of_mem_childNodes hm)
  have hbounds := (h.nodes rfl (.refl n)).row.bounds hmem
  exact ⟨hbounds.1, hbounds.2.2⟩

theorem of_contains (h : (Element.node n).Laid text) (hm : n.Contains m) :
    (Element.node m).Laid text := by
  induction hm with
  | refl => exact h
  | child hk _ ih => exact ih (h.child hk)

theorem within (h : (Element.node n).Laid text) (hm : n.Contains m) : m.span.Within n.span := by
  induction hm with
  | refl => exact .refl _
  | child hk _ ih => exact (ih (h.child hk)).trans (h.child_within hk)

theorem proper_token (h : (Element.node n).Laid text) {t : Token} (ht : t ∈ n.tokens) :
    t.span.Proper text ∧ t.span.Within n.span := by
  have hmem : .token t ∈ n.children := by
    unfold Node.tokens at ht
    rw [List.mem_filterMap] at ht
    obtain ⟨e, he, heq⟩ := ht
    cases e with
    | node k => contradiction
    | token u =>
      cases heq
      exact he
  have hn := h.nodes rfl (.refl n)
  have hbounds := hn.row.bounds (List.mem_map_of_mem hmem)
  exact ⟨⟨hn.children hmem, hbounds.2.1⟩, hbounds.1, hbounds.2.2⟩

end Element.Laid

namespace Builder

variable {text : List Char} {es : List (Element ρ)} {a b : Nat}

theorem exists_spanOf (b : Nat) (h : es ≠ []) :
    ∃ first last, es.head? = some first ∧ es.getLast? = some last ∧
      spanOf b es = ⟨first.span.start, last.span.stop⟩ := by
  obtain ⟨last, hlast⟩ := Option.isSome_iff_exists.1 (List.getLast?_isSome.2 h)
  cases es with
  | nil => contradiction
  | cons e es =>
    refine ⟨e, last, rfl, hlast, ?_⟩
    unfold spanOf
    rw [hlast]
    rfl

theorem row_spanOf (h : Span.Row a (es.map Element.span) b) :
    Span.Row (spanOf b es).start (es.map Element.span) (spanOf b es).stop := by
  by_cases hes : es = []
  · subst hes
    exact Nat.le_refl _
  · obtain ⟨first, last, hfirst, hlast, hspan⟩ := exists_spanOf b hes
    have hhead : (es.map Element.span).head? = some first.span := by
      rw [List.head?_map, hfirst]
      rfl
    have hend : (es.map Element.span).getLast? = some last.span := by
      rw [List.getLast?_map, hlast]
      rfl
    rw [hspan]
    change Span.Row first.span.start _ last.span.stop
    exact h.tight hhead hend

theorem spanOf_bounds (h : Span.Row a (es.map Element.span) b) :
    a ≤ (spanOf b es).start ∧ (spanOf b es).stop ≤ b := by
  by_cases hes : es = []
  · subst hes
    exact ⟨h, Nat.le_refl _⟩
  · obtain ⟨first, last, hfirst, hlast, hspan⟩ := exists_spanOf b hes
    rw [hspan]
    have hfirst := h.bounds (List.mem_map_of_mem (List.mem_of_mem_head? hfirst))
    have hlast := h.bounds (List.mem_map_of_mem (List.mem_of_getLast? hlast))
    exact ⟨hfirst.1, hlast.2.2⟩

theorem laid_spanOf (rule : ρ) (hb : Text.Place text b) (h : Span.Row a (es.map Element.span) b)
    (hon : ∀ e ∈ es, e.span.On text) : (Node.mk rule (spanOf b es) es).Laid text where
  span := by
    by_cases hes : es = []
    · subst hes
      exact ⟨hb, hb⟩
    · obtain ⟨first, last, hfirst, hlast, hspan⟩ := exists_spanOf b hes
      change (spanOf b es).On text
      rw [hspan]
      exact ⟨(hon first (List.mem_of_mem_head? hfirst)).1, (hon last (List.mem_of_getLast? hlast)).2⟩
  covers := by
    intro first last hfirst hlast
    change spanOf b es = _
    unfold spanOf
    rw [hfirst, hlast]
  isEmpty := by
    rintro rfl
    exact Span.isEmpty_empty b
  row := row_spanOf h
  children := hon _

theorem pending_finish {b : Builder ρ} {rule : ρ} {k : Nat} {opened : List (ρ × Nat)}
    (h : b.opened = (rule, k) :: opened) :
    b.finish.pending.toList = b.pending.toList.take k ++
      [.node ⟨rule, spanOf b.offset (b.pending.toList.drop k), b.pending.toList.drop k⟩] := by
  have hchildren : (b.pending.extract k b.pending.size).toList = b.pending.toList.drop k := by
    rw [Array.toList_extract, List.extract_eq_take_drop, List.take_of_length_le]
    simp
  unfold finish
  rw [h]
  simp only [hchildren, Array.toList_push, Array.toList_shrink]

theorem opened_finish {b : Builder ρ} {e : ρ × Nat} {opened : List (ρ × Nat)}
    (h : b.opened = e :: opened) : b.finish.opened = opened := by
  unfold finish
  rw [h]

theorem offset_finish (b : Builder ρ) : b.finish.offset = b.offset := by
  unfold finish
  split <;> rfl

theorem leaves_finish (b : Builder ρ) :
    leaves b.finish.pending.toList = leaves b.pending.toList := by
  cases hopened : b.opened with
  | nil =>
    unfold finish
    rw [hopened]
  | cons top opened =>
    rw [pending_finish hopened, leaves_append, leaves_node, ← leaves_append, List.take_append_drop]

/--
What waits lies one behind the other, up to the end of the last token.
-/
structure Laid (text : List Char) (b : Builder ρ) : Prop where
  place : Text.Place text b.offset
  row : Span.Row 0 (b.pending.toList.map Element.span) b.offset
  elements {e : Element ρ} : e ∈ b.pending.toList → e.Laid text

namespace Laid

variable {b : Builder ρ}

theorem empty (text : List Char) : (Builder.empty : Builder ρ).Laid text :=
  ⟨.zero, Nat.le_refl _, nofun⟩

theorem start (h : b.Laid text) (rule : ρ) : (b.start rule).Laid text :=
  ⟨h.place, h.row, h.elements⟩

theorem startAt (h : b.Laid text) (checkpoint : Nat) (rule : ρ) :
    (b.startAt checkpoint rule).Laid text :=
  ⟨h.place, h.row, h.elements⟩

theorem token (h : b.Laid text) {t : Token} (ht : t.span.On text)
    (hle : b.offset ≤ t.span.start) (hspan : t.span.start ≤ t.span.stop) :
    (b.token t).Laid text where
  place := ht.2
  row := by
    rw [pending_token, Array.toList_push, List.map_append]
    exact h.row.concat hle hspan
  elements := by
    intro e he
    rw [pending_token, Array.toList_push, List.mem_append, List.mem_singleton] at he
    obtain he | rfl := he
    · exact h.elements he
    · exact .token ht

theorem setOffset (h : b.Laid text) {offset : Nat} (hplace : Text.Place text offset)
    (hle : b.offset ≤ offset) : (b.setOffset offset).Laid text :=
  ⟨hplace, h.row.trans_le hle, h.elements⟩

theorem finish (h : b.Laid text) : b.finish.Laid text := by
  cases hopened : b.opened with
  | nil =>
    have : b.finish = b := by
      unfold Builder.finish
      rw [hopened]
    rw [this]
    exact h
  | cons top opened =>
    obtain ⟨rule, k⟩ := top
    have hlaid : ∀ e ∈ b.pending.toList.drop k, e.Laid text :=
      fun e he => h.elements (List.mem_of_mem_drop he)
    have hrow := h.row
    rw [← List.take_append_drop k b.pending.toList, List.map_append] at hrow
    obtain ⟨m, hbefore, hchildren⟩ := hrow.split
    have hbounds := spanOf_bounds hchildren
    constructor
    · rw [offset_finish]
      exact h.place
    · rw [pending_finish hopened, offset_finish, List.map_append]
      exact (hbefore.concat hbounds.1 (row_spanOf hchildren).le).trans_le hbounds.2
    · intro e he
      rw [pending_finish hopened, List.mem_append, List.mem_singleton] at he
      obtain he | rfl := he
      · exact h.elements (List.mem_of_mem_take he)
      · apply Element.Laid.of_children
        · exact laid_spanOf rule h.place hchildren fun e he => (hlaid e he).span
        · exact hlaid

end Laid

end Builder

end Tree

end SqlScript
