import SqlScript.Proofs.Excerpt
import SqlScript.Proofs.Joined.Statements

/-!
What is said of a script that is refused. The error is about the first invalid token, if there is
one; otherwise about some token that is not the one expected there, or is nested too deeply. It
tells where that token starts.
-/

namespace SqlScript

open Token

variable {ρ : Type}

/--
A complaint of a grammar about one of the tokens, or about the end of the text.
-/
structure Failure.Arises (c : Setting) (tokens : List Token) (f : Failure) : Prop where
  complaint : f.complaint.Grammatical c.limit
  token : f.token ∈ tokens ++ [c.stop]

theorem Lookahead.token_mem {c : Setting} {rest tokens : List Token} (h : rest <:+ tokens) :
    (c.ahead rest).token 0 ∈ tokens ++ [c.stop] := by
  cases rest with
  | nil => exact List.mem_append_right _ (List.mem_singleton_self _)
  | cons t ts => exact List.mem_append_left _ (h.mem (List.mem_cons_self ..))

/--
A run by the side of itself, which takes the tokens from the front.
-/
def Simulation.refusing (ρ : Type) {c : Setting} (heof : c.stop.kind = .eof) (tokens : List Token) :
    Simulation ρ where
  small := c
  large := c
  rel s s' := s' = s ∧ s.rest <:+ tokens
  mark m m' := m' = m
  excused _ := False
  matched f f' := f' = f ∧ f.Arises c tokens
  sees := by
    rintro s _ ⟨rfl, -⟩
    exact ⟨rfl, Nat.le_refl _, heof, heof, Alike.refl _, .inl rfl, fun _ => rfl⟩
  advance := by
    rintro s _ ⟨rfl, hs⟩ _
    refine ⟨rfl, ?_⟩
    rw [ParserState.rest_advance]
    exact (List.tail_suffix _).trans hs
  start := by
    rintro s _ rule ⟨rfl, hs⟩
    exact ⟨rfl, hs⟩
  startAt := by
    rintro s _ m _ rule ⟨rfl, hs⟩ rfl
    exact ⟨rfl, hs⟩
  finish := by
    rintro s _ ⟨rfl, hs⟩ _
    exact ⟨rfl, hs⟩
  checkpoint := by
    rintro s _ ⟨rfl, -⟩
    rfl
  complain := by
    rintro s _ complaint hcomplaint ⟨rfl, hs⟩
    exact .inr ⟨rfl, hcomplaint, Lookahead.token_mem hs⟩
  lenient := by
    rintro s _ ⟨rfl, -⟩
    exact .inl rfl
  tooDeep hlimit := absurd hlimit (Nat.lt_irrefl _)

theorem Simulation.refusing_exact {c : Setting} (heof : c.stop.kind = .eof) (tokens : List Token) :
    (refusing ρ heof tokens).Exact where
  length_eq := by
    rintro s _ ⟨rfl, -⟩
    rfl
  behind := rfl

section

variable [DecidableEq ρ] {form : ScriptForm ρ} {statement : Parser ρ Unit} {c : Setting}

namespace ScriptForm

open SqlScript.Parser

theorem exists_tree_of_script (hstatement : Joinable c.dialect c.limit statement)
    (heof : c.stop.kind = .eof) {tokens : List Token} {t : ParserState ρ}
    (h : form.script statement c ⟨tokens, .empty⟩ = .ok () t) (offset : Nat) :
    ∃ root, (t.builder.setOffset offset).tree? = some root := by
  by_cases hend : (c.ahead tokens).atEnd
  · have hbody : ifSees (!·.atEnd) (production form.list (form.entries statement)) c
        ⟨tokens, Tree.Builder.empty.start form.root⟩ =
        .ok () ⟨tokens, Tree.Builder.empty.start form.root⟩ := by
      rw [ifSees_eq, hend]
      rfl
    have hscript : form.script statement c ⟨tokens, .empty⟩ =
        .ok () ⟨tokens, (Tree.Builder.empty.start form.root).finish⟩ := bind_ok hbody
    cases hscript.symm.trans h
    exact ⟨_, rfl⟩
  · rw [script_eq form statement hend] at h
    obtain ⟨_, u, hentries, hclose⟩ := bind_eq_ok h
    cases hclose
    obtain ⟨-, -, -, -, hopened, -⟩ := exists_entries_empty hstatement heof hentries
    obtain ⟨root, hroot, -⟩ := exists_tree form hopened offset
    exact ⟨root, hroot⟩

theorem arises_of_script (hstatement : Joinable c.dialect c.limit statement)
    (heof : c.stop.kind = .eof) {tokens : List Token} {f : Failure}
    (h : answer ((form.script statement >>= fun _ => takeTree) c ⟨tokens, .empty⟩) = .error f) :
    f.Arises c tokens := by
  have hscript := (Simulation.refusing_exact heof tokens).script
    (hstatement.respects (.refusing ρ heof tokens) rfl rfl rfl) form
    (s := ⟨tokens, .empty⟩) ⟨rfl, List.suffix_refl _⟩
  change Simulation.Outcome _ _ (form.script statement c _) (form.script statement c _) at hscript
  generalize hr : form.script statement c ⟨tokens, .empty⟩ = r at hscript
  cases hscript with
  | error hf =>
    rw [bind_error hr] at h
    cases h
    exact hf.2
  | excused hf => exact hf.elim
  | gone hgone => exact absurd hgone (Simulation.not_gone rfl)
  | ok ht =>
    rename_i t _
    rw [bind_ok hr, takeTree_eq] at h
    obtain ⟨root, hroot⟩ := exists_tree_of_script hstatement heof hr c.stop.span.start
    split at h
    · rw [hroot] at h
      contradiction
    · cases h
      exact ⟨.expected _, Lookahead.token_mem ht.rel.2⟩

end ScriptForm

end

/--
What an error can say of a token: that something else is expected in its place, or that it is nested
too deeply.
-/
inductive ParseError.Blames (source : String) (limit : Nat) (t : Token) (e : ParseError) : Prop
  | unexpected (what : String) (expected : e.cause.expected? = some what)
    (found : e.cause.found? = if t.kind = .eof then none else some (t.text source))
    (message : e.message =
      if t.kind = .eof then "Unexpected end of input: expected " ++ what
      else "Unexpected token: expected " ++ what ++ ", found '" ++ t.text source ++ "'")
  | tooDeep (expected : e.cause.expected? = none) (found : e.cause.found? = none)
    (message : e.message = "Statement is nested too deeply (limit " ++ toString limit ++ ")")

def Token.IsFirstInvalid (tokens : List Token) (t : Token) (reason : String) : Prop :=
  ∃ valid rest, tokens = valid ++ t :: rest ∧ t.kind = .invalid reason ∧
    ∀ u ∈ valid, ∀ reason, u.kind ≠ .invalid reason

/--
The error tells of the first problem of a text, and where it is.
-/
structure ParseError.Tells (source : String) (tokens : List Token) (options : Options)
    (e : ParseError) : Prop where
  invalid {t : Token} {reason : String} : Token.IsFirstInvalid tokens t reason →
    e.span = t.span ∧ e.message = reason ∧ e.cause.expected? = none ∧ e.cause.found? = none
  valid : (∀ t reason, ¬Token.IsFirstInvalid tokens t reason) →
    ∃ t ∈ tokens, e.span = t.span ∧ e.Blames source options.maxDepth t
  place : ∃ before inside after, source.toList = before ++ inside ++ after ∧
    e.span = ⟨byteLength before, byteLength (before ++ inside)⟩ ∧
    e.span.slice source = String.ofList inside ∧
    e.line = (Position.behind options.baseline before).line ∧
    e.column = (Position.behind options.baseline before).column

namespace Token

variable {tokens : List Token} {f : Failure}

theorem invalid?_eq_some {t : Token} (h : Parser.begin.invalid? t = some f) :
    ∃ reason, t.kind = .invalid reason ∧ f = ⟨.said reason, t⟩ := by
  unfold Parser.begin.invalid? at h
  split at h
  · rename_i reason hkind
    cases h
    exact ⟨reason, hkind, rfl⟩
  · contradiction

theorem invalid?_eq_none {t : Token} :
    Parser.begin.invalid? t = none ↔ ∀ reason, t.kind ≠ .invalid reason := by
  unfold Parser.begin.invalid?
  split
  · simp_all
  · simp_all

theorem isFirstInvalid_of_findSome? (h : tokens.findSome? Parser.begin.invalid? = some f) :
    ∃ t reason, IsFirstInvalid tokens t reason ∧ f = ⟨.said reason, t⟩ := by
  obtain ⟨valid, t, rest, htokens, ht, hvalid⟩ := List.findSome?_eq_some_iff.1 h
  obtain ⟨reason, hkind, hf⟩ := invalid?_eq_some ht
  refine ⟨t, reason, ⟨valid, rest, htokens, hkind, ?_⟩, hf⟩
  intro u hu
  exact invalid?_eq_none.1 (hvalid u hu)

theorem findSome?_of_isFirstInvalid {t : Token} {reason : String}
    (h : IsFirstInvalid tokens t reason) :
    tokens.findSome? Parser.begin.invalid? = some ⟨.said reason, t⟩ := by
  obtain ⟨valid, rest, htokens, hkind, hvalid⟩ := h
  apply List.findSome?_eq_some_iff.2
  refine ⟨valid, t, rest, htokens, ?_, ?_⟩
  · unfold Parser.begin.invalid?
    rw [hkind]
  · intro u hu
    exact invalid?_eq_none.2 (hvalid u hu)

theorem proper_of_mem_tokenize {dialect : Dialect} {source : String} {t : Token}
    (ht : t ∈ tokenize dialect source) : t.span.Proper source.toList := by
  obtain ⟨ts, hts, hrow, hon⟩ := exists_tokenize dialect source
  rw [hts] at ht
  obtain ht | ht := List.mem_append.1 ht
  · exact ⟨(hon t ht).1, (hrow.bounds (List.mem_map_of_mem ht)).2.1⟩
  · rw [List.mem_singleton.1 ht, eof, ← byteLength_toList]
    exact ⟨⟨.size, .size⟩, Nat.le_refl _⟩

end Token

theorem Token.isEof_iff {t : Token} : t.isEof ↔ t.kind = .eof := by
  constructor
  · exact TokenKind.eq_eof_of_alike
  · intro h
    unfold isEof
    rw [h]
    rfl

theorem Failure.blames_toError {limit : Nat} {f : Failure} (h : f.complaint.Grammatical limit)
    (source : String) (lines : LineIndex) :
    (f.toError source lines).Blames source limit f.token := by
  obtain ⟨complaint, t⟩ := f
  cases h with
  | tooDeep => exact .tooDeep rfl rfl rfl
  | expected what =>
    by_cases heof : t.kind = .eof
    · have hcause : ((⟨.expected what, t⟩ : Failure).toError source lines).cause =
          .unexpectedEnd what := if_pos (Token.isEof_iff.2 heof)
      apply ParseError.Blames.unexpected what
      · rw [hcause]
        rfl
      · rw [hcause, if_pos heof]
        rfl
      · rw [ParseError.message, hcause, if_pos heof]
        rfl
    · have hcause : ((⟨.expected what, t⟩ : Failure).toError source lines).cause =
          .unexpected what (t.text source) := if_neg (mt Token.isEof_iff.1 heof)
      apply ParseError.Blames.unexpected what
      · rw [hcause]
        rfl
      · rw [hcause, if_neg heof]
        rfl
      · rw [ParseError.message, hcause, if_neg heof]
        rfl

namespace Parser

variable [DecidableEq ρ] {form : ScriptForm ρ} {statement : Parser ρ Unit} {dialect : Dialect}
  {source : String} {options : Options}

theorem failure_of_run (hstatement : Joinable dialect options.maxDepth statement) {f : Failure}
    (h : parseTree.run (form.script statement) dialect options (tokenize dialect source) =
      .error f) :
    (∃ t reason, IsFirstInvalid (tokenize dialect source) t reason ∧ f = ⟨.said reason, t⟩) ∨
      (∀ t reason, ¬IsFirstInvalid (tokenize dialect source) t reason) ∧
        f.complaint.Grammatical options.maxDepth ∧ f.token ∈ tokenize dialect source := by
  rw [run_eq] at h
  cases hinvalid : (tokenize dialect source).findSome? begin.invalid? with
  | some failure =>
    rw [hinvalid] at h
    cases h
    exact .inl (isFirstInvalid_of_findSome? hinvalid)
  | none =>
    rw [hinvalid] at h
    right
    constructor
    · intro t reason ht
      rw [findSome?_of_isFirstInvalid ht] at hinvalid
      contradiction
    · obtain ⟨ts, hts, -⟩ := exists_tokenize dialect source
      rw [hts] at h ⊢
      unfold initial settingOf at h
      rw [List.dropLast_concat, List.getLast?_concat, Option.getD_some] at h
      have hf := ScriptForm.arises_of_script hstatement rfl h
      exact ⟨hf.complaint, hf.token⟩

theorem tells_of_parseTree (hstatement : Joinable dialect options.maxDepth statement)
    {e : ParseError} (h : parseTree (form.script statement) dialect source options = .error e) :
    e.Tells source (tokenize dialect source) options := by
  unfold parseTree at h
  dsimp only at h
  split at h
  · contradiction
  rename_i f hf
  cases h
  have hfailure := failure_of_run hstatement hf
  have htoken : f.token ∈ tokenize dialect source := by
    obtain ⟨t, reason, ⟨valid, rest, htokens, -⟩, rfl⟩ | ⟨-, -, htoken⟩ := hfailure
    · simp [htokens]
    · exact htoken
  constructor
  · intro t reason ht
    obtain ⟨u, reason', hu, rfl⟩ | ⟨hvalid, -⟩ := hfailure
    · have hsame := (findSome?_of_isFirstInvalid hu).symm.trans (findSome?_of_isFirstInvalid ht)
      cases hsame
      exact ⟨rfl, rfl, rfl, rfl⟩
    · exact absurd ht (hvalid t reason)
  · intro hvalid
    obtain ⟨t, reason, ht, -⟩ | ⟨-, hcomplaint, -⟩ := hfailure
    · exact absurd ht (hvalid t reason)
    · exact ⟨f.token, htoken, rfl, Failure.blames_toError hcomplaint _ _⟩
  · obtain ⟨before, inside, after, hsource, hspan⟩ :=
      Context.exists_cut (proper_of_mem_tokenize htoken)
    have hposition := LineIndex.position_ofString
      (hsource.trans (List.append_assoc before inside after)) options.baseline
    refine ⟨before, inside, after, hsource, hspan, ?_, ?_, ?_⟩
    · change f.token.span.slice source = _
      rw [hspan, Span.slice_eq hsource]
    · change ((LineIndex.ofString source options.baseline).position f.token.span.start).line = _
      rw [hspan, hposition]
    · change ((LineIndex.ofString source options.baseline).position f.token.span.start).column = _
      rw [hspan, hposition]

end Parser

/-- In both dialects, every refusal of a script tells of its first problem, and where it is. -/
theorem parseTree_error_tells (source : String) (options : Options) :
    (∀ e, MySql.parseTree source options = .error e →
        e.Tells source (tokenize .mySql source) options) ∧
      ∀ e, Postgres.parseTree source options = .error e →
        e.Tells source (tokenize .postgreSql source) options := by
  constructor
  · intro e h
    unfold MySql.parseTree at h
    rw [MySql.script_eq] at h
    exact Parser.tells_of_parseTree (MySql.joinable_statement options.maxDepth) h
  · intro e h
    unfold Postgres.parseTree at h
    rw [Postgres.script_eq] at h
    exact Parser.tells_of_parseTree (Postgres.joinable_statement options.maxDepth) h

theorem parseTree_error_tells_unclosed :
    (∃ e, MySql.parseTree "SELECT FROM 'é" {} = .error e ∧
      e.Tells "SELECT FROM 'é" (tokenize .mySql "SELECT FROM 'é") {}) ∧
    ∃ e, Postgres.parseTree "SELECT a\nFROM (é" ⟨3, 9⟩ = .error e ∧
      e.Tells "SELECT a\nFROM (é" (tokenize .postgreSql "SELECT a\nFROM (é") ⟨3, 9⟩ := by
  have hmysql : (MySql.parseTree "SELECT FROM 'é" {}).isOk = false := by decide +kernel
  have hpostgres : (Postgres.parseTree "SELECT a\nFROM (é" ⟨3, 9⟩).isOk = false := by
    decide +kernel
  constructor
  · cases h : MySql.parseTree "SELECT FROM 'é" {} with
    | error e => exact ⟨e, rfl, (parseTree_error_tells _ _).1 e h⟩
    | ok tree =>
      rw [h] at hmysql
      contradiction
  · cases h : Postgres.parseTree "SELECT a\nFROM (é" ⟨3, 9⟩ with
    | error e => exact ⟨e, rfl, (parseTree_error_tells _ _).2 e h⟩
    | ok tree =>
      rw [h] at hpostgres
      contradiction

end SqlScript
