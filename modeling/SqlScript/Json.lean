/-!
JSON documents and their two written forms: compact, without any blank, and indented by two spaces a
level. Members of an object keep their order.
-/

namespace SqlScript

inductive Json where
  | null
  | bool (value : Bool)
  | number (value : Nat)
  | string (value : String)
  | array (items : List Json)
  | object (members : List (String × Json))
  deriving Inhabited

namespace Json

def optional (encode : α → Json) : Option α → Json
  | some a => encode a
  | none => null

def list (encode : α → Json) (items : List α) : Json :=
  array (items.map encode)

/--
A value of one of several shapes: an object whose one member names the shape.
-/
def tagged (tag : String) (content : Json) : Json :=
  object [(tag, content)]

def hexDigit (n : Nat) : Char :=
  n.digitChar

/--
A character as written inside a string. Only the quote, the backslash and control characters are
escaped.
-/
def escapeChar (c : Char) : List Char :=
  if c == '"' then ['\\', '"']
  else if c == '\\' then ['\\', '\\']
  else if c == '\x08' then ['\\', 'b']
  else if c == '\x0c' then ['\\', 'f']
  else if c == '\n' then ['\\', 'n']
  else if c == '\r' then ['\\', 'r']
  else if c == '\t' then ['\\', 't']
  else if c.toNat < 0x20 then
    ['\\', 'u', '0', '0', hexDigit (c.toNat / 16), hexDigit (c.toNat % 16)]
  else [c]

def writeString (out : String) (text : String) : String :=
  (text.toList.foldl (fun out c => (escapeChar c).foldl String.push out) (out.push '"')).push '"'

inductive Layout where
  | compact
  /-- Indented, inside `depth` brackets. -/
  | indented (depth : Nat)

namespace Layout

def deeper : Layout → Layout
  | compact => compact
  | indented depth => indented (depth + 1)

def lineBreak : Layout → String
  | compact => ""
  | indented depth => depth.repeat (· ++ "  ") "\n"

def colon : Layout → String
  | compact => ":"
  | indented _ => ": "

end Layout

mutual

def write (layout : Layout) (out : String) : Json → String
  | null => out ++ "null"
  | bool b => out ++ if b then "true" else "false"
  | number n => out ++ toString n
  | string text => writeString out text
  | array [] => out ++ "[]"
  | array (item :: items) =>
    let inner := layout.deeper
    let out := write inner (out.push '[' ++ inner.lineBreak) item
    (writeItems inner out items ++ layout.lineBreak).push ']'
  | object [] => out ++ "\x7b\x7d"
  | object ((key, value) :: members) =>
    let inner := layout.deeper
    let out := writeString (out.push '\x7b' ++ inner.lineBreak) key ++ inner.colon
    let out := write inner out value
    (writeMembers inner out members ++ layout.lineBreak).push '\x7d'

def writeItems (layout : Layout) (out : String) : List Json → String
  | [] => out
  | item :: items => writeItems layout (write layout (out.push ',' ++ layout.lineBreak) item) items

def writeMembers (layout : Layout) (out : String) : List (String × Json) → String
  | [] => out
  | (key, value) :: members =>
    let out := writeString (out.push ',' ++ layout.lineBreak) key ++ layout.colon
    writeMembers layout (write layout out value) members

end

def render (pretty : Bool) (document : Json) : String :=
  write (if pretty then .indented 0 else .compact) "" document

end Json

end SqlScript
