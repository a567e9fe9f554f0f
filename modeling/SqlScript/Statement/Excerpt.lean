import SqlScript.Dialect
import SqlScript.Source.LineIndex
import SqlScript.Tree.Basic

/-!
Where statements come from. Every part of a statement keeps the piece of the script that it was read
from; a part that is not looked into is that piece and nothing else.
-/

namespace SqlScript

/--
A piece of a script: where it starts, where it ends, and its text.
-/
structure Excerpt where
  start : Position
  /-- The place behind the last character. -/
  stop : Position
  text : String
  flavor : Flavor
  deriving DecidableEq, Repr, Inhabited

def Excerpt.span (e : Excerpt) : Span :=
  ⟨e.start.offset, e.stop.offset⟩

/--
A part that is kept as text, with the name of the production that it matched.
-/
structure Unstructured where
  excerpt : Excerpt
  production : String
  deriving DecidableEq, Repr, Inhabited

structure Context where
  source : String
  lines : LineIndex
  flavor : Flavor

namespace Context

def ofString (source : String) (baseline : Nat) (flavor : Flavor) : Context where
  source := source
  lines := .ofString source baseline
  flavor := flavor

variable {ρ : Type} (c : Context)

def excerpt (span : Span) : Excerpt :=
  let (start, stop) := c.lines.positions span
  ⟨start, stop, span.slice c.source, c.flavor⟩

def excerptOf (n : Tree.Node ρ) : Excerpt :=
  c.excerpt n.span

def unstructuredSpan (span : Span) (production : String) : Unstructured :=
  ⟨c.excerpt span, production⟩

def unstructured [Production ρ] (n : Tree.Node ρ) : Unstructured :=
  c.unstructuredSpan n.span (Production.name n.rule)

def text (n : Tree.Node ρ) : String :=
  n.text c.source

def tokenText (t : Token) : String :=
  t.text c.source

@[simp]
theorem text_excerpt (span : Span) : (c.excerpt span).text = span.slice c.source :=
  rfl

@[simp]
theorem flavor_excerpt (span : Span) : (c.excerpt span).flavor = c.flavor :=
  rfl

end Context

end SqlScript
