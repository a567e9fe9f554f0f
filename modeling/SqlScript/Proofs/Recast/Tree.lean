import SqlScript.Proofs.Folding
import SqlScript.Proofs.Layout

/-!
Trees that are written otherwise: their spans are replaced, and bare names may have letters of another
case. What a tree is made of stays the same.
-/

namespace SqlScript

/--
A way to write a tree otherwise. Of kinds, only bare names may change, and those in the case of their
letters only.
-/
structure Recast where
  span : Span → Span
  kind : TokenKind → TokenKind
  folded (k : TokenKind) : (kind k).folded = k.folded

namespace Recast

def relocation (f : Span → Span) : Recast where
  span := f
  kind := id
  folded _ := rfl

def folding : Recast where
  span := id
  kind := TokenKind.folded
  folded k := by
    cases k <;> simp [TokenKind.folded]

variable (r : Recast)

theorem beq_kind {kind : TokenKind} (h : kind.isBareWord = false) (k : TokenKind) :
    (r.kind k == kind) = (k == kind) := by
  refine TokenKind.congr_folded (f := (· == kind)) (fun name => ?_) (r.folded k)
  have hne : ∀ name, (TokenKind.identifier name == kind) = false := by
    intro name
    rw [beq_eq_false_iff_ne]
    rintro rfl
    contradiction
  rw [hne, hne]

end Recast

namespace Token

variable (r : Recast)

def recast (t : Token) : Token :=
  ⟨r.kind t.kind, r.span t.span⟩

@[simp]
theorem kind_recast (t : Token) : (t.recast r).kind = r.kind t.kind :=
  rfl

@[simp]
theorem span_recast (t : Token) : (t.recast r).span = r.span t.span :=
  rfl

theorem bne_comp_recast {kind : TokenKind} (h : kind.isBareWord = false) :
    (fun t : Token => t.kind != kind) ∘ recast r = fun t => t.kind != kind :=
  funext fun t => congrArg not (r.beq_kind h t.kind)

end Token

namespace Tree

variable {ρ : Type} (r : Recast)

mutual

def Node.recast : Node ρ → Node ρ
  | ⟨rule, span, children⟩ => ⟨rule, r.span span, recastAll children⟩

def Element.recast : Element ρ → Element ρ
  | .node n => .node n.recast
  | .token t => .token (t.recast r)

def recastAll : List (Element ρ) → List (Element ρ)
  | [] => []
  | e :: es => e.recast :: recastAll es

end

theorem recastAll_eq (es : List (Element ρ)) : recastAll r es = es.map (Element.recast r) := by
  induction es with
  | nil => rfl
  | cons e es ih => rw [recastAll, ih, List.map_cons]

@[simp]
theorem Element.recast_node (n : Node ρ) : (Element.node n).recast r = .node (n.recast r) := by
  rw [Element.recast]

@[simp]
theorem Element.recast_token (t : Token) :
    (Element.token t : Element ρ).recast r = .token (t.recast r) := by
  rw [Element.recast]

@[simp]
theorem Element.span_recast (e : Element ρ) : (e.recast r).span = r.span e.span := by
  cases e with
  | token t => simp [Element.span]
  | node n =>
    cases n
    simp [Element.span, Node.recast]

theorem filterMap_node?_recast (es : List (Element ρ)) :
    (es.map (Element.recast r)).filterMap Element.node? =
      (es.filterMap Element.node?).map (Node.recast r) := by
  rw [List.filterMap_map, List.map_filterMap]
  congr 1
  funext e
  cases e <;> simp [Element.node?]

namespace Node

variable (n : Node ρ)

@[simp]
theorem rule_recast : (n.recast r).rule = n.rule := by
  cases n
  rw [recast]

@[simp]
theorem span_recast : (n.recast r).span = r.span n.span := by
  cases n
  rw [recast]

@[simp]
theorem children_recast : (n.recast r).children = n.children.map (Element.recast r) := by
  cases n
  rw [recast, recastAll_eq]

@[simp]
theorem childNodes_recast : (n.recast r).childNodes = n.childNodes.map (recast r) := by
  unfold childNodes
  rw [children_recast, filterMap_node?_recast]

@[simp]
theorem tokens_recast : (n.recast r).tokens = n.tokens.map (Token.recast r) := by
  unfold tokens
  rw [children_recast, List.filterMap_map, List.map_filterMap]
  congr 1
  funext e
  cases e <;> simp [Element.token?]

@[simp]
theorem firstChild?_recast : (n.recast r).firstChild? = n.firstChild?.map (recast r) := by
  unfold firstChild?
  rw [childNodes_recast, List.head?_map]

@[simp]
theorem findChild?_recast (p : ρ → Bool) :
    (n.recast r).findChild? p = (n.findChild? p).map (recast r) := by
  unfold findChild?
  rw [childNodes_recast, List.find?_map]
  congr 2
  funext m
  simp

@[simp]
theorem childrenThat_recast (p : ρ → Bool) :
    (n.recast r).childrenThat p = (n.childrenThat p).map (recast r) := by
  unfold childrenThat
  rw [childNodes_recast, List.filter_map]
  simp [Function.comp_def]

@[simp]
theorem child?_recast [DecidableEq ρ] (rule : ρ) :
    (n.recast r).child? rule = (n.child? rule).map (recast r) :=
  findChild?_recast r n _

@[simp]
theorem childrenOf_recast [DecidableEq ρ] (rule : ρ) :
    (n.recast r).childrenOf rule = (n.childrenOf rule).map (recast r) :=
  childrenThat_recast r n _

theorem hasToken_recast {kind : TokenKind} (h : kind.isBareWord = false) :
    (n.recast r).hasToken kind = n.hasToken kind := by
  unfold hasToken
  rw [tokens_recast, List.any_map]
  congr 1
  funext t
  exact r.beq_kind h t.kind

@[simp]
theorem hasKeyword_recast (word : Keyword) :
    (n.recast r).hasKeyword word = n.hasKeyword word := by
  unfold hasKeyword
  rw [tokens_recast, List.any_map]
  congr 1
  funext t
  exact Token.isKeyword_congr (r.folded t.kind) word

end Node

mutual

@[simp]
theorem Node.height_recast : ∀ n : Node ρ, (n.recast r).height = n.height
  | ⟨_, _, children⟩ => by
    rw [Node.recast, Node.height, Node.height, heights_recastAll children]

theorem Element.height_recast : ∀ e : Element ρ, (e.recast r).height = e.height
  | .node n => by rw [Element.recast, Element.height, Element.height, n.height_recast]
  | .token _ => by rw [Element.recast, Element.height, Element.height]

theorem heights_recastAll : ∀ es : List (Element ρ), heights (recastAll r es) = heights es
  | [] => rfl
  | e :: es => by
    rw [recastAll, heights, heights, e.height_recast, heights_recastAll es]

end

end Tree

end SqlScript
