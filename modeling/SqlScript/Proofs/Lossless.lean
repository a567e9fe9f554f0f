import SqlScript.Proofs.Layout
import SqlScript.Proofs.Lockstep

/-!
Nothing is lost between a text and its tree: the leaves of the tree are the tokens of the text.
-/

namespace SqlScript

open Token

variable {ρ : Type}

/--
What was built lies in the text, with the tokens in front behind it, and its leaves and those tokens
are all there are.
-/
structure ParserState.Laid (text : List Char) (tokens : List Token) (s : ParserState ρ) : Prop where
  builder : s.builder.Laid text
  leaves : Tree.leaves s.builder.pending.toList ++ s.rest = tokens
  row : Span.Row s.builder.offset (s.rest.map Token.span) (byteLength text)
  rest {t : Token} : t ∈ s.rest → t.span.On text

def Invariant.laid (text : List Char) (tokens : List Token) : Invariant ρ where
  holds s := s.Laid text tokens
  advance := by
    intro s h hrest
    obtain ⟨t, ts, hts⟩ := List.exists_cons_of_ne_nil hrest
    have hrow := h.row
    have hleaves := h.leaves
    have hon := @h.rest
    rw [hts] at hrow hleaves hon
    unfold ParserState.advance
    rw [hts]
    constructor
    · exact h.builder.token (hon (by simp)) hrow.1 hrow.2.1
    · rw [Tree.Builder.pending_token, Array.toList_push, Tree.leaves_append, Tree.leaves_token]
      rw [List.append_assoc]
      exact hleaves
    · exact hrow.2.2
    · intro u hu
      exact hon (List.mem_cons_of_mem t hu)
  start rule h := ⟨h.builder.start rule, h.leaves, h.row, h.rest⟩
  startAt checkpoint rule h := ⟨h.builder.startAt checkpoint rule, h.leaves, h.row, h.rest⟩
  finish := by
    intro s h
    constructor
    · exact h.builder.finish
    · change Tree.leaves s.builder.finish.pending.toList ++ s.rest = tokens
      rw [Tree.Builder.leaves_finish]
      exact h.leaves
    · change Span.Row s.builder.finish.offset _ _
      rw [Tree.Builder.offset_finish]
      exact h.row
    · exact h.rest

namespace Parser

theorem pending_of_takeTree {c : Setting} {s t : ParserState ρ} {root : Tree.Node ρ}
    (h : takeTree c s = .ok root t) (hopened : s.builder.opened = []) :
    (c.ahead s.rest).atEnd ∧ s.builder.pending.toList = [.node root] := by
  rw [takeTree_eq] at h
  split at h
  · rename_i hend
    refine ⟨hend, ?_⟩
    split at h
    · rename_i root' htree
      cases h
      unfold Tree.Builder.tree? Tree.Builder.setOffset at htree
      rw [hopened] at htree
      split at htree
      · rename_i hpending
        cases htree
        exact hpending
      · contradiction
    · contradiction
  · contradiction

theorem rest_eq_nil_of_atEnd {c : Setting} {ts : List Token} (h : (c.ahead ts).atEnd)
    (hts : ∀ t ∈ ts, t.kind ≠ .eof) : ts = [] := by
  cases ts with
  | nil => rfl
  | cons t ts =>
    have ht : t.kind = .eof := TokenKind.eq_eof_of_alike h
    exact absurd ht (hts t (by simp))

variable {grammar : Parser ρ Unit} {dialect : Dialect} {options : Options} {source : String}

theorem laid_of_run {root : Tree.Node ρ} (hgrammar : Builds dialect options.maxDepth grammar)
    (h : parseTree.run grammar dialect options (tokenize dialect source) = .ok root) :
    (Tree.Element.node root).Laid source.toList ∧
      tokenize dialect source = root.leaves ++ [eof source.utf8ByteSize] := by
  obtain ⟨ts, hts, hrow, hon⟩ := exists_tokenize dialect source
  rw [run_eq, hts] at h
  split at h
  · contradiction
  · generalize hc : settingOf dialect options.maxDepth (ts ++ [eof source.utf8ByteSize]) = c at h
    have heof : c.stop.kind = .eof := by
      rw [← hc]
      unfold settingOf
      rw [List.getLast?_concat]
      rfl
    have hinitial : (initial (ρ := ρ) (ts ++ [eof source.utf8ByteSize])).Laid source.toList ts := by
      unfold initial
      rw [List.dropLast_concat]
      refine ⟨.empty _, rfl, ?_, fun ht => (hon _ ht).1⟩
      rw [byteLength_toList]
      exact hrow
    generalize hr : (grammar >>= fun _ => takeTree) c
      (initial (ts ++ [eof source.utf8ByteSize])) = r at h
    cases r with
    | error f u => contradiction
    | ok root' u =>
      cases h
      obtain ⟨_, t, ht, htree⟩ := bind_eq_ok hr
      obtain ⟨hlaid, hopened⟩ := hgrammar (.laid source.toList ts) c _ t (hc ▸ rfl) (hc ▸ rfl) heof
        hinitial ht
      obtain ⟨hend, hpending⟩ := pending_of_takeTree htree hopened
      have hrest : t.rest = [] := by
        apply rest_eq_nil_of_atEnd hend
        intro u hu
        apply (hon u _).2
        rw [← hlaid.leaves]
        exact List.mem_append_right _ hu
      have hleaves := hlaid.leaves
      rw [hrest, hpending, List.append_nil, Tree.leaves_node, ← Tree.Node.leaves_eq] at hleaves
      constructor
      · apply hlaid.builder.elements
        rw [hpending]
        exact List.mem_singleton_self _
      · rw [hts, hleaves]

theorem laid_of_parseTree {tree : SyntaxTree ρ} (hgrammar : Builds dialect options.maxDepth grammar)
    (h : parseTree grammar dialect source options = .ok tree) :
    (Tree.Element.node tree.root).Laid source.toList ∧ tree.tokens = tokenize dialect source ∧
      tree.tokens = tree.root.leaves ++ [eof source.utf8ByteSize] := by
  unfold parseTree at h
  dsimp only at h
  split at h
  · rename_i root hroot
    cases h
    obtain ⟨hlaid, hleaves⟩ := laid_of_run hgrammar hroot
    exact ⟨hlaid, rfl, hleaves⟩
  · contradiction

end Parser

/--
The production spans from its first child to its last one, or nothing if it has no children. Its
children lie inside, and each of them ends before the next one starts.
-/
structure Tree.Node.Orderly (n : Node ρ) : Prop where
  covers {first last : Element ρ} : n.children.head? = some first →
    n.children.getLast? = some last → n.span = ⟨first.span.start, last.span.stop⟩
  isEmpty : n.children = [] → n.span.isEmpty
  apart : n.children.Pairwise fun e f => e.span.stop ≤ f.span.start
  inside {e : Element ρ} : e ∈ n.children →
    n.span.start ≤ e.span.start ∧ e.span.start ≤ e.span.stop ∧ e.span.stop ≤ n.span.stop

theorem Tree.Node.Laid.orderly {text : List Char} {n : Node ρ} (h : n.Laid text) : n.Orderly where
  covers := h.covers
  isEmpty := h.isEmpty
  apart := List.pairwise_map.1 h.row.pairwise
  inside he := h.row.bounds (List.mem_map_of_mem he)

/--
The tree holds the tokens of the text, each once and in order, the end of the text left out, and all
its productions are orderly.
-/
structure SyntaxTree.Lossless (dialect : Dialect) (source : String) (tree : SyntaxTree ρ) :
    Prop where
  tokens : tree.tokens = tokenize dialect source
  leaves : tree.tokens = tree.root.leaves ++ [eof source.utf8ByteSize]
  orderly {n : Tree.Node ρ} : tree.root.Contains n → n.Orderly

theorem Parser.lossless_of_parseTree {grammar : Parser ρ Unit} {dialect : Dialect}
    {options : Options} {source : String} {tree : SyntaxTree ρ}
    (hgrammar : Builds dialect options.maxDepth grammar)
    (h : parseTree grammar dialect source options = .ok tree) : tree.Lossless dialect source := by
  obtain ⟨hlaid, htokens, hleaves⟩ := laid_of_parseTree hgrammar h
  exact ⟨htokens, hleaves, fun hn => (hlaid.nodes rfl hn).orderly⟩

theorem parseTree_lossless (source : String) (options : Options) :
    (∀ tree, MySql.parseTree source options = .ok tree → tree.Lossless .mySql source) ∧
      ∀ tree, Postgres.parseTree source options = .ok tree → tree.Lossless .postgreSql source := by
  constructor
  · intro tree h
    exact Parser.lossless_of_parseTree (MySql.script_builds options.maxDepth) h
  · intro tree h
    exact Parser.lossless_of_parseTree (Postgres.script_builds options.maxDepth) h

theorem parseTree_lossless_select :
    ∃ tree, MySql.parseTree "SELECT 'é' FROM (a);" {} = .ok tree ∧
      tree.Lossless .mySql "SELECT 'é' FROM (a);" := by
  have hok : (MySql.parseTree "SELECT 'é' FROM (a);" {}).isOk := by decide +kernel
  cases h : MySql.parseTree "SELECT 'é' FROM (a);" {} with
  | ok tree => exact ⟨tree, rfl, (parseTree_lossless _ {}).1 tree h⟩
  | error e =>
    rw [h] at hok
    contradiction

end SqlScript
