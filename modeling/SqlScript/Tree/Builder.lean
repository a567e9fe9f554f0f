import SqlScript.Tree.Basic

/-!
Building trees from the bottom up. Tokens and closed productions wait, in source order, until the
production around them is closed; a production can also be opened after the fact, around what has
been built since a checkpoint.
-/

namespace SqlScript.Tree

structure Builder (ρ : Type) where
  /-- The open productions, innermost first, each with the number of elements waiting before it. -/
  opened : List (ρ × Nat)
  /-- What waits to be adopted, in source order. -/
  pending : Array (Element ρ)
  /-- End of the last token; productions without children lie here. -/
  offset : Nat

namespace Builder

variable {ρ : Type}

def empty : Builder ρ where
  opened := []
  pending := #[]
  offset := 0

instance : Inhabited (Builder ρ) := ⟨empty⟩

def checkpoint (b : Builder ρ) : Nat :=
  b.pending.size

def start (b : Builder ρ) (rule : ρ) : Builder ρ :=
  { b with opened := (rule, b.pending.size) :: b.opened }

/--
The least place from which a new production may adopt: it must not reach out of the innermost open
one.
-/
def floor (b : Builder ρ) : Nat :=
  match b.opened with
  | [] => 0
  | (_, first) :: _ => first

def startAt (b : Builder ρ) (checkpoint : Nat) (rule : ρ) : Builder ρ :=
  { b with opened := (rule, max checkpoint b.floor) :: b.opened }

def token (b : Builder ρ) (t : Token) : Builder ρ :=
  { b with pending := b.pending.push (.token t), offset := t.span.stop }

/--
The span of a production with these children: from the first to the last, or nothing at `offset`.
-/
def spanOf (offset : Nat) (children : List (Element ρ)) : Span :=
  match children.head?, children.getLast? with
  | some first, some last => ⟨first.span.start, last.span.stop⟩
  | _, _ => .empty offset

/--
Close the innermost open production, if there is one.
-/
def finish (b : Builder ρ) : Builder ρ :=
  match b.opened with
  | [] => b
  | (rule, first) :: opened =>
    let children := (b.pending.extract first b.pending.size).toList
    { b with
      opened
      pending := (b.pending.shrink first).push (.node ⟨rule, spanOf b.offset children, children⟩) }

def setOffset (b : Builder ρ) (offset : Nat) : Builder ρ :=
  { b with offset }

/--
Close every open production. There is a tree if everything was built under one root.
-/
def tree? (b : Builder ρ) : Option (Node ρ) :=
  match (b.opened.length.repeat finish b).pending.toList with
  | [.node root] => some root
  | _ => none

@[simp]
theorem opened_token (b : Builder ρ) (t : Token) : (b.token t).opened = b.opened :=
  rfl

@[simp]
theorem pending_token (b : Builder ρ) (t : Token) :
    (b.token t).pending = b.pending.push (.token t) :=
  rfl

@[simp]
theorem pending_start (b : Builder ρ) (rule : ρ) : (b.start rule).pending = b.pending :=
  rfl

@[simp]
theorem pending_startAt (b : Builder ρ) (checkpoint : Nat) (rule : ρ) :
    (b.startAt checkpoint rule).pending = b.pending :=
  rfl

end Builder

end SqlScript.Tree
