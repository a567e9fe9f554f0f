import SqlScript.Tree.Basic

/-!
Edits of a tree that keep all spans. They make trees that no grammar builds, which is how a reader
of trees is shown to cope with any shape.
-/

namespace SqlScript.Tree

variable {ρ : Type}

/--
A change to all matching parts of a tree or, given a number, to the one with that number when the
matches are counted from zero, a production before what is below it.
-/
inductive Edit (ρ : Type) where
  /-- Remove productions with everything below. -/
  | drop (rule : ρ) (nth : Option Nat)
  /-- Remove the children of productions. -/
  | empty (rule : ρ) (nth : Option Nat)
  /-- Put the children of productions in their place. -/
  | unwrap (rule : ρ) (nth : Option Nat)
  /-- Change the kind of productions. -/
  | rename (rule new : ρ) (nth : Option Nat)
  /-- Remove tokens. -/
  | dropToken (kind : TokenKind) (nth : Option Nat)

namespace Edit

def nth : Edit ρ → Option Nat
  | drop _ nth | empty _ nth | unwrap _ nth | rename _ _ nth | dropToken _ nth => nth

variable [DecidableEq ρ]

def matchesRule (edit : Edit ρ) (rule : ρ) : Bool :=
  match edit with
  | drop r _ | empty r _ | unwrap r _ | rename r _ _ => r == rule
  | dropToken _ _ => false

def matchesToken (edit : Edit ρ) (token : Token) : Bool :=
  match edit with
  | dropToken kind _ => token.kind == kind
  | _ => false

def isMeant (edit : Edit ρ) (seen : Nat) : Bool :=
  match edit.nth with
  | some n => n == seen
  | none => true

mutual

/--
Edit an element that `seen` matches stand before: how many matches stand before what follows, and
what takes its place.
-/
def element (edit : Edit ρ) (seen : Nat) : Element ρ → Nat × List (Element ρ)
  | .token t =>
    if edit.matchesToken t then
      (seen + 1, if edit.isMeant seen then [] else [.token t])
    else
      (seen, [.token t])
  | .node ⟨rule, span, children⟩ =>
    if edit.matchesRule rule then
      let (below, inner) := edit.elements (seen + 1) children
      if edit.isMeant seen then
        match edit with
        | drop _ _ => (seen + 1, [])
        | empty _ _ => (below, [.node ⟨rule, span, []⟩])
        | unwrap _ _ => (below, inner)
        | rename _ new _ => (below, [.node ⟨new, span, inner⟩])
        | dropToken _ _ => (below, [.node ⟨rule, span, inner⟩])
      else
        (below, [.node ⟨rule, span, inner⟩])
    else
      let (below, inner) := edit.elements seen children
      (below, [.node ⟨rule, span, inner⟩])

def elements (edit : Edit ρ) (seen : Nat) : List (Element ρ) → Nat × List (Element ρ)
  | [] => (seen, [])
  | e :: es =>
    let (seen, first) := edit.element seen e
    let (seen, rest) := edit.elements seen es
    (seen, first ++ rest)

end

/--
Edit a whole tree. Its root is counted like any production, but never removed.
-/
def root (edit : Edit ρ) (n : Node ρ) : Node ρ :=
  let isMatch := edit.matchesRule n.rule
  let inner := (edit.elements (if isMatch then 1 else 0) n.children).2
  if isMatch && edit.isMeant 0 then
    match edit with
    | empty _ _ => { n with children := [] }
    | rename _ new _ => { n with rule := new, children := inner }
    | _ => { n with children := inner }
  else
    { n with children := inner }

end Edit

end SqlScript.Tree
