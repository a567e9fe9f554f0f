import SqlScript.Token.Basic

/-!
Concrete syntax trees. A production keeps its tokens and its nested productions in source order, so
a tree holds every token it was built from. Trees are read through the accessors of this module;
each of them answers productions that are smaller than the one it is asked about, which is what
recursion over a tree rests on.
-/

namespace SqlScript

class Production (ρ : Type) where
  name : ρ → String

instance : Production String where
  name := id

namespace Tree

mutual

structure Node (ρ : Type) where
  rule : ρ
  span : Span
  children : List (Element ρ)

inductive Element (ρ : Type) where
  | node (node : Node ρ)
  | token (token : Token)

end

namespace Element

def span : Element ρ → Span
  | node n => n.span
  | token t => t.span

def node? : Element ρ → Option (Node ρ)
  | node n => some n
  | token _ => none

def token? : Element ρ → Option Token
  | node _ => none
  | token t => some t

end Element

namespace Node

variable {ρ : Type}

def childNodes (n : Node ρ) : List (Node ρ) :=
  n.children.filterMap Element.node?

def tokens (n : Node ρ) : List Token :=
  n.children.filterMap Element.token?

def text (n : Node ρ) (source : String) : String :=
  n.span.slice source

def firstChild? (n : Node ρ) : Option (Node ρ) :=
  n.childNodes.head?

def findChild? (n : Node ρ) (p : ρ → Bool) : Option (Node ρ) :=
  n.childNodes.find? (p ·.rule)

def childrenThat (n : Node ρ) (p : ρ → Bool) : List (Node ρ) :=
  n.childNodes.filter (p ·.rule)

def findToken? (n : Node ρ) (p : TokenKind → Bool) : Option Token :=
  n.tokens.find? (p ·.kind)

def hasToken (n : Node ρ) (kind : TokenKind) : Bool :=
  n.tokens.any (·.kind == kind)

def hasKeyword (n : Node ρ) (word : Keyword) : Bool :=
  n.tokens.any (·.isKeyword word)

variable [DecidableEq ρ]

def child? (n : Node ρ) (rule : ρ) : Option (Node ρ) :=
  n.findChild? (· == rule)

def childrenOf (n : Node ρ) (rule : ρ) : List (Node ρ) :=
  n.childrenThat (· == rule)

omit [DecidableEq ρ]

theorem sizeOf_lt_of_mem_childNodes {n m : Node ρ} (h : m ∈ n.childNodes) :
    sizeOf m < sizeOf n := by
  simp only [childNodes, List.mem_filterMap] at h
  obtain ⟨e, he, hm⟩ := h
  have := List.sizeOf_lt_of_mem he
  cases e with
  | token t => cases hm
  | node k =>
    cases hm
    cases n with
    | mk rule span children =>
      simp only [Node.mk.sizeOf_spec, Element.node.sizeOf_spec] at this ⊢
      omega

theorem mem_childNodes_of_firstChild? {n m : Node ρ} (h : n.firstChild? = some m) :
    m ∈ n.childNodes :=
  List.mem_of_mem_head? h

theorem mem_childNodes_of_findChild? {n m : Node ρ} {p : ρ → Bool} (h : n.findChild? p = some m) :
    m ∈ n.childNodes :=
  List.mem_of_find?_eq_some h

theorem mem_childNodes_of_mem_childrenThat {n m : Node ρ} {p : ρ → Bool}
    (h : m ∈ n.childrenThat p) : m ∈ n.childNodes :=
  (List.mem_filter.1 h).1

theorem mem_childNodes_of_child? [DecidableEq ρ] {n m : Node ρ} {rule : ρ}
    (h : n.child? rule = some m) : m ∈ n.childNodes :=
  mem_childNodes_of_findChild? h

theorem mem_childNodes_of_mem_childrenOf [DecidableEq ρ] {n m : Node ρ} {rule : ρ}
    (h : m ∈ n.childrenOf rule) : m ∈ n.childNodes :=
  mem_childNodes_of_mem_childrenThat h

theorem rule_of_findChild? {n m : Node ρ} {p : ρ → Bool} (h : n.findChild? p = some m) :
    p m.rule := by
  have hp := List.find?_some h
  exact hp

theorem rule_of_mem_childrenThat {n m : Node ρ} {p : ρ → Bool} (h : m ∈ n.childrenThat p) :
    p m.rule :=
  (List.mem_filter.1 h).2

theorem rule_of_child? [DecidableEq ρ] {n m : Node ρ} {rule : ρ} (h : n.child? rule = some m) :
    m.rule = rule :=
  eq_of_beq (rule_of_findChild? h)

end Node

mutual

/--
How many productions are nested in each other at most, this one included.
-/
def Node.height : Node ρ → Nat
  | ⟨_, _, children⟩ => heights children + 1

def Element.height : Element ρ → Nat
  | .node n => n.height
  | .token _ => 0

def heights : List (Element ρ) → Nat
  | [] => 0
  | e :: es => max e.height (heights es)

end

theorem height_le_heights {e : Element ρ} {es : List (Element ρ)} (h : e ∈ es) :
    e.height ≤ heights es := by
  induction es with
  | nil => cases h
  | cons a es ih =>
    rw [heights]
    cases h with
    | head => exact Nat.le_max_left ..
    | tail _ h => exact Nat.le_trans (ih h) (Nat.le_max_right ..)

theorem Node.height_lt_of_mem_childNodes {n m : Node ρ} (h : m ∈ n.childNodes) :
    m.height < n.height := by
  simp only [childNodes, List.mem_filterMap] at h
  obtain ⟨e, he, hm⟩ := h
  have := height_le_heights he
  cases e with
  | token t => cases hm
  | node k =>
    cases hm
    cases n
    rw [Element.height] at this
    rw [Node.height]
    exact Nat.lt_succ_of_le this

end Tree

/--
A parsed text: its outermost production, and its tokens with the end of the text last.
-/
structure SyntaxTree (ρ : Type) where
  root : Tree.Node ρ
  tokens : List Token

end SqlScript
