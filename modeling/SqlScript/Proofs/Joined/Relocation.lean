import SqlScript.Proofs.Recast.Tree

/-!
Trees with their spans replaced. What a tree is made of stays the same.
-/

namespace SqlScript

def Span.shift (size : Nat) (s : Span) : Span :=
  ⟨size + s.start, size + s.stop⟩

theorem Span.merge_shift (size : Nat) (s t : Span) :
    (s.shift size).merge (t.shift size) = (s.merge t).shift size := by
  simp [Span.merge, Span.shift, Nat.add_min_add_left, Nat.add_max_add_left]

@[simp]
theorem Span.shift_zero (s : Span) : s.shift 0 = s := by
  simp [shift]

def Token.relocate (f : Span → Span) (t : Token) : Token :=
  ⟨t.kind, f t.span⟩

@[simp]
theorem Token.kind_relocate (f : Span → Span) (t : Token) : (t.relocate f).kind = t.kind :=
  rfl

@[simp]
theorem Token.span_relocate (f : Span → Span) (t : Token) : (t.relocate f).span = f t.span :=
  rfl

namespace Tree

variable {ρ : Type} (f : Span → Span)

mutual

def Node.relocate : Node ρ → Node ρ
  | ⟨rule, span, children⟩ => ⟨rule, f span, relocateAll children⟩

def Element.relocate : Element ρ → Element ρ
  | .node n => .node n.relocate
  | .token t => .token (t.relocate f)

def relocateAll : List (Element ρ) → List (Element ρ)
  | [] => []
  | e :: es => e.relocate :: relocateAll es

end

theorem relocateAll_eq (es : List (Element ρ)) : relocateAll f es = es.map (Element.relocate f) := by
  induction es with
  | nil => rfl
  | cons e es ih => rw [relocateAll, ih, List.map_cons]

@[simp]
theorem Element.relocate_node (n : Node ρ) : (Element.node n).relocate f = .node (n.relocate f) := by
  rw [Element.relocate]

@[simp]
theorem Element.relocate_token (t : Token) :
    (Element.token t : Element ρ).relocate f = .token (t.relocate f) := by
  rw [Element.relocate]

@[simp]
theorem Element.span_relocate (e : Element ρ) : (e.relocate f).span = f e.span := by
  cases e with
  | token t => simp [Element.span]
  | node n =>
    cases n
    simp [Element.span, Node.relocate]

theorem filterMap_node?_relocate (es : List (Element ρ)) :
    (es.map (Element.relocate f)).filterMap Element.node? =
      (es.filterMap Element.node?).map (Node.relocate f) := by
  rw [List.filterMap_map, List.map_filterMap]
  congr 1
  funext e
  cases e <;> simp [Element.node?]

namespace Node

variable (n : Node ρ)

@[simp]
theorem span_relocate : (n.relocate f).span = f n.span := by
  cases n
  rw [relocate]

variable {f n}

theorem relocate_eq_self (h : ∀ m, n.Contains m → f m.span = m.span ∧
    ∀ t ∈ m.tokens, f t.span = t.span) : n.relocate f = n := by
  induction hsize : sizeOf n using Nat.strongRecOn generalizing n with
  | ind size ih =>
  have hn := h n (.refl n)
  have heach : ∀ e ∈ n.children, e.relocate f = id e := by
    intro e he
    cases e with
    | token t =>
      have ht : t ∈ n.tokens := List.mem_filterMap.2 ⟨_, he, rfl⟩
      rw [Element.relocate_token, Token.relocate, hn.2 t ht]
      rfl
    | node m =>
      have hm : m ∈ n.childNodes := List.mem_filterMap.2 ⟨_, he, rfl⟩
      rw [Element.relocate_node, ih _ (hsize ▸ sizeOf_lt_of_mem_childNodes hm) _ rfl]
      · rfl
      · intro k hk
        exact h k (.child hm hk)
  have hchildren : n.children.map (Element.relocate f) = n.children := by
    rw [List.map_congr_left heach, List.map_id]
  obtain ⟨rule, span, children⟩ := n
  rw [relocate, relocateAll_eq, hchildren, hn.1]

theorem relocate_id (n : Node ρ) : n.relocate id = n :=
  relocate_eq_self fun _ _ => ⟨rfl, fun _ _ => rfl⟩

end Node

mutual

theorem Node.relocate_eq : ∀ n : Node ρ, n.relocate f = n.recast (.relocation f)
  | ⟨_, _, children⟩ => by
    rw [Node.relocate, Node.recast, relocateAll_eq_recastAll children]
    rfl

theorem Element.relocate_eq : ∀ e : Element ρ, e.relocate f = e.recast (.relocation f)
  | .node n => by rw [Element.relocate, Element.recast, n.relocate_eq]
  | .token _ => by rw [Element.relocate, Element.recast]; rfl

theorem relocateAll_eq_recastAll :
    ∀ es : List (Element ρ), relocateAll f es = recastAll (.relocation f) es
  | [] => rfl
  | e :: es => by rw [relocateAll, recastAll, e.relocate_eq, relocateAll_eq_recastAll es]

end

@[simp]
theorem Node.height_relocate (n : Node ρ) : (n.relocate f).height = n.height := by
  rw [n.relocate_eq, height_recast]

variable {f}

theorem Element.relocate_eq_self (h : ∀ s, f s = s) (e : Element ρ) : e.relocate f = e := by
  cases e with
  | token t => rw [relocate_token, Token.relocate, h]
  | node n =>
    rw [relocate_node, Node.relocate_eq_self]
    intro m _
    exact ⟨h m.span, fun t _ => h t.span⟩

end Tree

end SqlScript
