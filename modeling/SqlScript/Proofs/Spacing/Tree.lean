import SqlScript.Proofs.Joined.Statements
import SqlScript.Proofs.Retelling
import SqlScript.Proofs.Spacing.Tokens
import SqlScript.Tree.Listing

/-!
What is parsed does not depend on what stands between the tokens: a text has the same tree, or is
refused for the same reason, when its tokens are written with single spaces between.
-/

namespace SqlScript

open SqlScript.Tree

/--
What a tree says, whatever its place: its productions, and the tokens in them as written.
-/
inductive Tree.Wording (ρ : Type) where
  | node (rule : ρ) (parts : List (Wording ρ))
  | token (kind : TokenKind) (text : String)

namespace Tree

variable {ρ : Type} (source : String)

mutual

def Node.wording : Node ρ → Wording ρ
  | ⟨rule, _, children⟩ => .node rule (wordings children)

def Element.wording : Element ρ → Wording ρ
  | .node n => n.wording
  | .token t => .token t.kind (t.text source)

def wordings : List (Element ρ) → List (Wording ρ)
  | [] => []
  | e :: es => e.wording :: wordings es

end

theorem wordings_eq (es : List (Element ρ)) : wordings source es = es.map (Element.wording source) := by
  induction es with
  | nil => rfl
  | cons e es ih => rw [wordings, ih, List.map_cons]

@[simp]
theorem Element.wording_token (t : Token) :
    (Element.token t : Element ρ).wording source = .token t.kind (t.text source) := by
  rw [wording]

@[simp]
theorem Element.wording_node (n : Node ρ) :
    (Element.node n).wording source = n.wording source := by
  rw [wording]

theorem Node.wording_mk (rule : ρ) (span : Span) (children : List (Element ρ)) :
    (Node.mk rule span children).wording source =
      .node rule (children.map (Element.wording source)) := by
  rw [wording, wordings_eq]

mutual

def Wording.write [Production ρ] (depth : Nat) (out : String) : Wording ρ → String
  | .node rule parts =>
    writeAll (depth + 1) ((indent depth out ++ Production.name rule).push '\n') parts
  | .token _ text => (indent depth out ++ text).push '\n'

def writeAll [Production ρ] (depth : Nat) (out : String) : List (Wording ρ) → String
  | [] => out
  | w :: ws => writeAll depth (w.write depth out) ws

end

mutual

theorem Node.writeOutline_eq [Production ρ] (depth : Nat) (out : String) (n : Node ρ) :
    n.writeOutline source depth out = (n.wording source).write depth out := by
  cases n with
  | mk rule span children =>
    rw [Node.writeOutline, Node.wording, Wording.write, writeOutlines_eq]

theorem writeOutlines_eq [Production ρ] (depth : Nat) (out : String) (es : List (Element ρ)) :
    writeOutlines source depth out es = writeAll depth out (wordings source es) := by
  cases es with
  | nil => rfl
  | cons e es =>
    cases e with
    | node n => rw [writeOutlines, wordings, Element.wording, writeAll, n.writeOutline_eq,
        writeOutlines_eq]
    | token t => rw [writeOutlines, wordings, Element.wording, writeAll, Wording.write,
        writeOutlines_eq]

end

theorem Node.outline_eq [Production ρ] (n : Node ρ) :
    n.outline source = (n.wording source).write 0 "" :=
  n.writeOutline_eq source 0 ""

end Tree

def Token.told (source : String) (t : Token) : TokenKind × String :=
  (t.kind, t.text source)

theorem Token.kind_of_told {source source' : String} {t t' : Token}
    (h : t'.told source' = t.told source) : t'.kind = t.kind :=
  congrArg Prod.fst h

theorem Token.text_of_told {source source' : String} {t t' : Token}
    (h : t'.told source' = t.told source) : t'.text source' = t.text source :=
  congrArg Prod.snd h

def Retelling.wording (ρ : Type) (source source' : String) : Retelling ρ where
  token t t' := t'.told source' = t.told source
  part e e' := e'.wording source' = e.wording source
  place _ _ := True
  folded h := congrArg TokenKind.folded (Token.kind_of_told h)
  start _ := trivial
  stop _ := trivial
  origin := trivial
  leaf h := by
    rw [Element.wording_token, Element.wording_token, Token.kind_of_told h, Token.text_of_told h]
  node rule _ h := by
    rw [Element.wording_node, Element.wording_node, Node.wording_mk, Node.wording_mk,
      forall₂_iff_map_eq.1 h]
  sort {e e'} h := by
    have hne (source source' : String) (n : Node ρ) (t : Token) :
        n.wording source ≠ .token t.kind (t.text source') := by
      obtain ⟨rule, span, children⟩ := n
      simp [Node.wording_mk]
    cases e with
    | node n =>
      cases e' with
      | node => rfl
      | token t =>
        rw [Element.wording_token, Element.wording_node] at h
        exact absurd h.symm (hne _ _ n t)
    | token t =>
      cases e' with
      | token => rfl
      | node n =>
        rw [Element.wording_token, Element.wording_node] at h
        exact absurd h (hne _ _ n t)

/--
Both texts are accepted, with trees that say the same and have the same outline; or both are
refused, with the same message, expecting the same and finding the same.
-/
def SameReading [Production ρ] (source source' : String) :
    Except ParseError (SyntaxTree ρ) → Except ParseError (SyntaxTree ρ) → Prop
  | .ok tree, .ok tree' =>
    tree'.root.wording source' = tree.root.wording source ∧
      tree'.root.outline source' = tree.root.outline source
  | .error e, .error e' =>
    e'.message = e.message ∧ e'.cause.expected? = e.cause.expected? ∧
      e'.cause.found? = e.cause.found?
  | _, _ => False

section

variable {ρ : Type} {source source' : String}

namespace Parser

theorem cause_retold {f f' : Failure} (h : (Retelling.wording ρ source source').Refusal f f') :
    f'.complaint.cause f'.token source' = f.complaint.cause f.token source := by
  unfold Complaint.cause Token.isEof
  rw [h.1, Token.kind_of_told h.2, Token.text_of_told h.2]

theorem parseTree_retold [Production ρ] {form : ScriptForm ρ} {statement : Parser ρ Unit}
    {dialect : Dialect} {options : Options}
    (hstatement : Joinable dialect options.maxDepth statement)
    (htold : (Token.tokenize dialect source').map (Token.told source') =
      (Token.tokenize dialect source).map (Token.told source)) :
    SameReading source source' (parseTree (form.script statement) dialect source options)
      (parseTree (form.script statement) dialect source' options) := by
  have hanswer : (Retelling.wording ρ source source').Answer
      (parseTree.run (form.script statement) dialect options (Token.tokenize dialect source)) _ :=
    Retelling.answer_run hstatement (Retelling.forall₂_iff_map_eq.2 htold)
  unfold parseTree
  dsimp only
  generalize parseTree.run _ _ _ (Token.tokenize dialect source) = a at hanswer ⊢
  generalize parseTree.run _ _ _ (Token.tokenize dialect source') = a' at hanswer ⊢
  cases hanswer with
  | ok hroot =>
    change (Element.node _).wording source' = (Element.node _).wording source at hroot
    rw [Element.wording_node, Element.wording_node] at hroot
    refine ⟨hroot, ?_⟩
    rw [Node.outline_eq, Node.outline_eq, hroot]
  | error hf =>
    have hcause := cause_retold hf
    exact ⟨congrArg ParseError.Cause.message hcause, congrArg ParseError.Cause.expected? hcause,
      congrArg ParseError.Cause.found? hcause⟩

end Parser

end

/--
What stands between tokens makes no difference. If all tokens of a text are valid, they are the
same when they are written with single spaces between, and both grammars read the same.
-/
theorem read_respaced (d : Dialect) (source : String) (options : Options)
    (h : ∀ t ∈ Token.tokenize d source, t.kind.isValid) :
    (Token.tokenize d (Token.respaced d source)).map (Token.told (Token.respaced d source)) =
        (Token.tokenize d source).map (Token.told source) ∧
      (d = .mySql → SameReading source (Token.respaced d source) (MySql.parseTree source options)
        (MySql.parseTree (Token.respaced d source) options)) ∧
      (d = .postgreSql → SameReading source (Token.respaced d source)
        (Postgres.parseTree source options)
        (Postgres.parseTree (Token.respaced d source) options)) := by
  have htokens := Token.tokenize_respaced h
  refine ⟨htokens, ?_, ?_⟩
  · rintro rfl
    unfold MySql.parseTree
    rw [MySql.script_eq]
    exact Parser.parseTree_retold (MySql.joinable_statement options.maxDepth) htokens
  · rintro rfl
    unfold Postgres.parseTree
    rw [Postgres.script_eq]
    exact Parser.parseTree_retold (Postgres.joinable_statement options.maxDepth) htokens

theorem read_respaced_signs :
    (∀ t ∈ Token.tokenize .mySql "SELECT-1--1,t.e5/**/FROM`t`#c", t.kind.isValid) ∧
      SameReading "SELECT-1--1,t.e5/**/FROM`t`#c"
        (Token.respaced .mySql "SELECT-1--1,t.e5/**/FROM`t`#c")
        (MySql.parseTree "SELECT-1--1,t.e5/**/FROM`t`#c" {})
        (MySql.parseTree (Token.respaced .mySql "SELECT-1--1,t.e5/**/FROM`t`#c") {}) := by
  have hvalid : ∀ t ∈ Token.tokenize .mySql "SELECT-1--1,t.e5/**/FROM`t`#c", t.kind.isValid := by
    decide +kernel
  exact ⟨hvalid, (read_respaced .mySql "SELECT-1--1,t.e5/**/FROM`t`#c" {} hvalid).2.1 rfl⟩

end SqlScript
