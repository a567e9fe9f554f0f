import SqlScript.Proofs.Recased.Tokens
import SqlScript.Proofs.Refusal
import SqlScript.Proofs.Retelling

/-!
Trees of texts that differ in the case of letters: what is built of the one is built of the other, up
to the case of bare names.
-/

namespace SqlScript

open SqlScript.Tree

variable {ρ : Type}

theorem Tree.Builder.spanOf_congr {es es' : List (Element ρ)}
    (h : es'.map Element.span = es.map Element.span) (offset : Nat) :
    spanOf offset es' = spanOf offset es := by
  have hfirst : es'.head?.map Element.span = es.head?.map Element.span := by
    rw [← List.head?_map, h, List.head?_map]
  have hlast : es'.getLast?.map Element.span = es.getLast?.map Element.span := by
    rw [← List.getLast?_map, h, List.getLast?_map]
  unfold spanOf
  generalize es.head? = first, es.getLast? = last at hfirst hlast
  generalize es'.head? = first', es'.getLast? = last' at hfirst hlast
  cases first <;> cases first' <;> cases last <;> cases last' <;> simp_all

/--
Texts are held against each other by what stands where, up to the case of bare names.
-/
def Retelling.folding (ρ : Type) : Retelling ρ where
  token t t' := t'.recast .folding = t.recast .folding
  part e e' := e'.recast .folding = e.recast .folding
  place o o' := o' = o
  folded h := congrArg Token.kind h
  start h := congrArg (·.span.start) h
  stop h := congrArg (·.span.stop) h
  origin := rfl
  leaf h := by
    rw [Element.recast_token, Element.recast_token, h]
  node {o o' es es'} rule ho h := by
    have hes : es'.map (Element.recast .folding) = es.map (Element.recast .folding) :=
      forall₂_iff_map_eq.1 h
    have hspans : es'.map Element.span = es.map Element.span := by
      have hspans := congrArg (List.map Element.span) hes
      simpa [Function.comp_def, Recast.folding] using hspans
    rw [Element.recast_node, Element.recast_node, Node.recast, Node.recast, recastAll_eq,
      recastAll_eq, hes, ho, Builder.spanOf_congr hspans]
  sort {e e'} h := by
    cases e <;> cases e' <;> simp_all [Element.node?]

def SyntaxTree.folded (tree : SyntaxTree ρ) : SyntaxTree ρ where
  root := tree.root.recast .folding
  tokens := tree.tokens.map (Token.recast .folding)

def ParseError.Cause.folded : Cause → Cause
  | unexpected expected found => unexpected expected found.toUpper
  | cause => cause

def ParseError.folded (e : ParseError) : ParseError :=
  { e with cause := e.cause.folded }

theorem Span.slice_toUpper {source : String} {s : Span} (h : s.Proper source.toList) :
    s.slice source.toUpper = (s.slice source).toUpper := by
  obtain ⟨before, inside, after, htext, rfl⟩ := Context.exists_cut h
  have hcapitals : source.toUpper.toList =
      before.map Char.toUpper ++ inside.map Char.toUpper ++ after.map Char.toUpper := by
    rw [Text.toList_toUpper, htext, List.map_append, List.map_append]
  have hslice := Span.slice_eq hcapitals
  rw [← List.map_append, Token.byteLength_map, Token.byteLength_map] at hslice
  rw [hslice, Span.slice_eq htext, Text.ofList_map_toUpper]

theorem LineIndex.ofString_toUpper (source : String) (baseline : Nat) :
    ofString source.toUpper baseline = ofString source baseline := by
  have hpush (index : LineIndex) (c : Char) : index.push c.toUpper = index.push c := by
    have hnewline : c.toUpper = '\n' ↔ c = '\n' := Text.Caseless.toUpper_eq_iff (by decide) c
    unfold push
    simp only [Text.utf8Size_toUpper, hnewline]
  unfold ofString
  rw [Text.toList_toUpper, List.foldl_map]
  simp only [hpush]

theorem Failure.folded_toError {f : Failure} {source : String}
    (h : f.token.span.Proper source.toList) (lines : LineIndex) :
    (f.toError source lines).folded =
      (⟨f.complaint, f.token.recast .folding⟩ : Failure).toError source.toUpper lines := by
  have heof : (f.token.recast .folding).isEof = f.token.isEof :=
    TokenKind.alike_congr (Recast.folding.folded f.token.kind) .eof
  have htext : (f.token.recast .folding).text source.toUpper = (f.token.text source).toUpper :=
    Span.slice_toUpper h
  have hcause : (f.complaint.cause f.token source).folded =
      f.complaint.cause (f.token.recast .folding) source.toUpper := by
    unfold Complaint.cause
    rw [heof, htext]
    cases f.complaint with
    | expected what =>
      dsimp only
      split <;> rfl
    | _ => rfl
  unfold toError ParseError.folded
  dsimp only
  rw [hcause]
  rfl

namespace Parser

variable [DecidableEq ρ] {form : ScriptForm ρ} {statement : Parser ρ Unit} {dialect : Dialect}
  {options : Options} {source source' : String}

theorem folded_toError_of_run (hstatement : Joinable dialect options.maxDepth statement)
    {f : Failure}
    (h : parseTree.run (form.script statement) dialect options (Token.tokenize dialect source) =
      .error f) :
    (f.toError source (.ofString source options.baseline)).folded =
      (⟨f.complaint, f.token.recast .folding⟩ : Failure).toError source.toUpper
        (.ofString source.toUpper options.baseline) := by
  have htoken : f.token ∈ Token.tokenize dialect source := by
    obtain ⟨t, reason, ⟨valid, rest, htokens, -⟩, rfl⟩ | ⟨-, -, htoken⟩ :=
      failure_of_run hstatement h
    · simp [htokens]
    · exact htoken
  rw [LineIndex.ofString_toUpper]
  exact Failure.folded_toError (Token.proper_of_mem_tokenize htoken) _

theorem parseTree_recased (hstatement : Joinable dialect options.maxDepth statement)
    (h : Token.Recased dialect source source') :
    ((parseTree (form.script statement) dialect source' options).map
        SyntaxTree.folded).mapError ParseError.folded =
      ((parseTree (form.script statement) dialect source options).map
        SyntaxTree.folded).mapError ParseError.folded := by
  have htokens := Token.tokenize_recased h
  have hanswer : (Retelling.folding ρ).Answer
      (parseTree.run (form.script statement) dialect options (Token.tokenize dialect source))
      (parseTree.run (form.script statement) dialect options (Token.tokenize dialect source')) :=
    Retelling.answer_run hstatement (Retelling.forall₂_iff_map_eq.2 htokens)
  unfold parseTree
  dsimp only
  generalize hr : parseTree.run _ _ _ (Token.tokenize dialect source) = r at hanswer ⊢
  generalize hr' : parseTree.run _ _ _ (Token.tokenize dialect source') = r' at hanswer ⊢
  cases hanswer with
  | @ok root root' hroot =>
    change (Element.node root').recast .folding = (Element.node root).recast .folding at hroot
    rw [Element.recast_node, Element.recast_node, Element.node.injEq] at hroot
    change Except.ok (SyntaxTree.mk _ _) = Except.ok (SyntaxTree.mk _ _)
    rw [hroot, htokens]
  | @error f f' hf =>
    change Except.error _ = Except.error _
    rw [folded_toError_of_run hstatement hr, folded_toError_of_run hstatement hr', hf.1, hf.2,
      Token.toUpper_of_recased h]

end Parser

end SqlScript
