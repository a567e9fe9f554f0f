import SqlScript.Proofs.Excised.Statements
import SqlScript.Proofs.MySql.Element
import SqlScript.Proofs.Spacing.Tokens

/-!
Select lists of one element. What a select takes as the condition on its rows it takes as its only
element as well.
-/

namespace SqlScript

open SqlScript.Simulation
open SqlScript.Tree

namespace Token

variable {d : Dialect}

theorem casesPaired_relocate (f : Span → Span) (groups cases : Nat) (ts : List Token) :
    casesPaired groups cases (ts.map (relocate f)) = casesPaired groups cases ts := by
  induction ts generalizing groups cases with
  | nil => rfl
  | cons t ts ih =>
    rw [List.map_cons, casesPaired, casesPaired]
    simp only [ih, kind_relocate]

theorem alone_select : Alone .mySql (.keyword .SELECT) "SELECT".toList := by
  decide +kernel

theorem alone_one : Alone .mySql .integer "1".toList := by
  decide +kernel

theorem alone_where : Alone .mySql (.keyword .WHERE) "WHERE".toList := by
  decide +kernel

theorem scan_select (e : String) : scan .mySql 0 none ("SELECT " ++ e).toList =
    ⟨.keyword .SELECT, 0, 6⟩ :: (scan .mySql 0 none e.toList).map (relocate (Span.shift 7)) := by
  have hblank : (some ' ').any endsName = (none : Option Char).any endsName := rfl
  rw [← scan_shift hblank, String.toList_append]
  exact scan_spaced alone_select 0 none rfl e.toList

theorem scan_condition (e : String) : scan .mySql 0 none ("SELECT 1 WHERE " ++ e).toList =
    ⟨.keyword .SELECT, 0, 6⟩ :: ⟨.integer, 7, 8⟩ :: ⟨.keyword .WHERE, 9, 14⟩ ::
      (scan .mySql 0 none e.toList).map (relocate (Span.shift 15)) := by
  have hblank : (some ' ').any endsName = (none : Option Char).any endsName := rfl
  rw [← scan_shift hblank, String.toList_append]
  have hfirst := scan_spaced alone_select 0 none rfl ("1 WHERE ".toList ++ e.toList)
  have hsecond := scan_spaced alone_one 7 (some ' ') rfl ("WHERE ".toList ++ e.toList)
  have hthird := scan_spaced alone_where 9 (some ' ') rfl e.toList
  exact hfirst.trans (congrArg _ (hsecond.trans (congrArg _ hthird)))

end Token

namespace Parser

variable {ρ : Type} {c : Setting} {s t u : ParserState ρ}

def Idle (c : Setting) (p : Parser ρ Unit) : Prop :=
  ∀ s : ParserState ρ, s.rest = [] → p c s = .ok () s

namespace Idle

variable {p q : Parser ρ Unit}

theorem seq (hp : Idle c p) (hq : Idle c q) : Idle c (do p; q) := by
  intro s hs
  rw [bind_ok (hp s hs), hq s hs]

theorem not_of_firm (question : Lookahead → Bool) [hfirm : Firm 1 question]
    (hstop : c.stop.kind = .eof) {s : ParserState ρ} (hs : s.rest = []) :
    question (c.ahead s.rest) = false := by
  rw [Bool.eq_false_iff]
  intro hquestion
  have hreach := hfirm.le_reach hstop hquestion
  rw [Setting.rest_ahead, hs] at hreach
  contradiction

theorem ifSees (question : Lookahead → Bool) [Firm 1 question] (hstop : c.stop.kind = .eof) :
    Idle c (Parser.ifSees question p) :=
  fun _ hs => ifSees_of_not (not_of_firm question hstop hs)

theorem whileSees (question : Lookahead → Bool) [Firm 1 question] (hstop : c.stop.kind = .eof) :
    Idle c (Parser.whileSees question p) :=
  fun _ hs => whileSees_of_not (not_of_firm question hstop hs)

end Idle

def Adds (c : Setting) (p : Parser ρ Unit) : Prop :=
  ∀ ⦃s t : ParserState ρ⦄, s.builder.Sound → p c s = .ok () t → ∃ es, Grows s t es

theorem Adds.seq {p q : Parser ρ Unit} (hp : Adds c p) (hq : Adds c q) : Adds c (do p; q) := by
  intro s t hs hok
  obtain ⟨_, u, hu, hok⟩ := bind_eq_ok hok
  obtain ⟨es, hes⟩ := hp hs hu
  obtain ⟨fs, hfs⟩ := hq (hes.sound hs) hok
  exact ⟨es ++ fs, hes.trans hfs⟩

theorem Forms.adds [Grammar ρ] {h : Nat} {f : Shape ρ} {p : Parser ρ Unit}
    (hp : Forms c (fun _ => True) h f p) (hstop : c.stop.kind = .eof) : Adds c p := by
  intro s t hs hok
  obtain ⟨es, hes, -⟩ := hp hstop hs trivial hok
  exact ⟨es, hes⟩

end Parser

namespace MySql

open SqlScript.Parser

variable {c : Setting} {s t u : ParserState Rule} {nested : Goal → Parser Rule Unit}

def behindSource (nested : Goal → Parser Rule Unit) (withTail : Bool) : Parser Rule Unit := do
  ifKeyword .GROUP (groupByClause nested)
  ifKeyword .HAVING (havingClause nested)
  ifKeyword .WINDOW windowClause
  if withTail then
    orderAndLimit nested
  ifKeyword .INTO intoClause

def behindElements (nested : Goal → Parser Rule Unit) (withTail : Bool) : Parser Rule Unit := do
  ifKeyword .INTO intoClause
  ifSees (·.isOneOf 0 [.FROM, .WHERE]) (fromClause nested)
  behindSource nested withTail

theorem querySpecification_eq (nested : Goal → Parser Rule Unit) (withTail : Bool) :
    querySpecification nested withTail = production .querySpecification (do
      expectKeyword .SELECT
      whileSees startsModifier (production .selectSpec bump)
      selectElements nested
      behindElements nested withTail) := by
  cases withTail <;> rfl

section

variable (hstop : c.stop.kind = .eof)

include hstop

theorem idle_orderAndLimit : Idle c (orderAndLimit nested) :=
  (Idle.ifSees (·.isKeyword 0 .ORDER) hstop).seq
    (Idle.ifSees (·.isKeyword 0 .LIMIT) hstop)

theorem idle_selectTail : Idle c (selectTail nested) :=
  (idle_orderAndLimit hstop).seq (.ifSees _ hstop)

theorem idle_behindElements (withTail : Bool) : Idle c (behindElements nested withTail) := by
  have hkeyword : ∀ {word} {p : Parser Rule Unit}, Idle c (ifKeyword word p) :=
    fun {word} => Idle.ifSees (·.isKeyword 0 word) hstop
  have hsource : Idle c (behindSource nested withTail) := by
    apply hkeyword.seq
    apply hkeyword.seq
    apply hkeyword.seq
    cases withTail with
    | true => exact (idle_orderAndLimit hstop).seq hkeyword
    | false => exact hkeyword
  exact hkeyword.seq ((Idle.ifSees _ hstop).seq hsource)

end

theorem adds_behindSource {h w : Nat} (hn : NestedForms c h w nested) (hstop : c.stop.kind = .eof)
    (withTail : Bool) : Adds c (behindSource nested withTail) := by
  have hinto : Adds c (ifKeyword .INTO intoClause : Parser Rule Unit) :=
    Forms.adds (h := 1) (.ifKeyword intoClause_forms) hstop
  apply Adds.seq (Forms.adds (.ifKeyword hn.groupByClause_forms) hstop)
  apply Adds.seq (Forms.adds (.ifKeyword hn.havingClause_forms) hstop)
  apply Adds.seq (Forms.adds (h := 1) (.ifKeyword windowClause_forms) hstop)
  cases withTail with
  | true => exact (hn.orderAndLimit_forms.adds hstop).seq hinto
  | false => exact hinto

theorem exists_query_eq {h w : Nat} (hn : NestedForms c h w nested) (hstop : c.stop.kind = .eof)
    (hselect : (c.ahead s.rest).isKeyword 0 .SELECT) :
    ∃ (rule : Rule) (withTail : Bool) (behind : Parser Rule Unit),
      query nested c s =
        production rule (do querySpecification nested withTail; behind) c s ∧
      Adds c behind ∧ Idle c behind := by
  have hparen : (c.ahead s.rest).isKind 0 .leftParen = false := by
    rw [Lookahead.isKind, Lookahead.kind_of_isKeyword hselect]
    rfl
  unfold query
  rw [sees_bind]
  split
  · have hoperand : unionSelect nested c s = production .unionSelect (do
        querySpecification nested false
        whileSees (·.isKeyword 0 .UNION) (unionPart nested)
        selectTail nested) c s := by
      apply production_congr
      unfold unionOperand
      rw [bind_assoc, sees_bind, ParserState.rest_build, hparen]
      rfl
    have hbehind : Forms c (fun _ => True) (h + 9) _ (do
        whileSees (·.isKeyword 0 .UNION) (unionPart nested)
        selectTail nested) :=
      Forms.seq (.whileSees hn.unionPart_forms) (hn.selectTail_forms.up (by omega))
    exact ⟨_, _, _, hoperand, hbehind.adds hstop,
      (Idle.whileSees _ hstop).seq (idle_selectTail hstop)⟩
  · rw [sees_bind, hparen]
    have hbehind : Forms c (fun _ => True) 1 _ (ifSees startsLock lockClause) :=
      .ifSees lockClause_forms
    exact ⟨_, _, _, rfl, hbehind.adds hstop, .ifSees _ hstop⟩

def condition? (select : Node Rule) : Option (Node Rule) := do
  let source ← select.child? .fromClause
  source.findChild? Rule.isExpressionForm

section

variable {depth : Nat} {first second third : Token} {ts : List Token}

theorem firstElement_eq (hstar : starExtent? (c.ahead s.rest) = none) :
    (do if !(← eat .star) then selectElement nested : Parser Rule Unit) c s =
      plainElement nested c s := by
  have hnostar : (c.ahead s.rest).isKind 0 .star = false := by
    unfold starExtent? at hstar
    split at hstar
    · contradiction
    · exact Bool.eq_false_iff.2 ‹_›
  rw [bind_ok (eat_of_not hnostar)]
  change selectElement nested c s = _
  unfold selectElement
  rw [sees_bind, hstar]

theorem elementEndsAt_of_where {a : Lookahead} (h : a.kind 0 = .keyword .WHERE) :
    elementEndsAt a 0 := by
  have hend : a.isOneOf 0 elementEnds :=
    Token.isOneOf_of_isKeyword _ (Lookahead.isKeyword_of_kind h) (by decide)
  rw [elementEndsAt, h, hend]
  rfl

theorem startsUid_of_where {a : Lookahead} (hdialect : a.dialect = .mySql)
    (h : a.kind 0 = .keyword .WHERE) : startsUid a = false := by
  unfold startsUid Lookahead.isName Lookahead.isKind
  rw [h, hdialect]
  rfl

theorem plainElement_of_integer (hkind : (c.ahead s.rest).kind 0 = .integer) :
    plainElement nested c s = production .selectExpressionElement (do
      nested .expression
      optionalAlias) c s := by
  have htoken : ((c.ahead s.rest).token 0).kind = .integer := hkind
  have hname : (c.ahead s.rest).isName 0 = false := by
    rw [Lookahead.isName, hkind]
  have hcall : callExtent? (c.ahead s.rest) 0 = none := by
    rw [callExtent?_eq, hname]
    simp [Lookahead.isKeyword, Token.isKeyword, Token.keyword?, Lookahead.isWord, Token.isWord,
      Lookahead.isOneOf, Token.isOneOf, htoken]
  have hcolumn : columnExtent? (c.ahead s.rest) = none := by
    rw [columnExtent?, hname]
    rfl
  unfold plainElement
  rw [ahead_bind, hcall, hcolumn]
  rfl

theorem expression_ok_of_integer (hs : s.rest = first :: second :: ts)
    (hfirst : first.kind = .integer) (hsecond : goesOn (c.ahead (second :: ts)) = false)
    (h : parser depth .expression c s = .ok () t) : t.rest = second :: ts := by
  have hnot : (c.ahead s.rest).isKeyword 0 .NOT = false := by
    rw [hs]
    simp [Setting.ahead, Lookahead.isKeyword, Lookahead.token, Token.isKeyword, Token.keyword?, hfirst]
  obtain ⟨nested, v, u, hv, hprimary, hends⟩ := expression_ok hnot h
  have hkind : (c.ahead v.rest).kind 0 = .integer := by
    rw [hv, hs]
    exact hfirst
  have hu : u.rest = second :: ts := by
    unfold primary at hprimary
    rw [ahead_bind, hkind] at hprimary
    obtain ⟨w, hw, rfl⟩ := production_ok hprimary
    obtain ⟨x, hx, rfl⟩ := production_ok hw
    have hsign : ((c.ahead v.rest).isKind 0 .minus || (c.ahead v.rest).isKind 0 .plus ||
        (c.ahead v.rest).isKind 0 (.identifier "")) = false := by
      rw [Lookahead.isKind, Lookahead.isKind, Lookahead.isKind, hkind]
      rfl
    have hstring : (c.ahead v.rest).isKind 0 .string = false := by
      rw [Lookahead.isKind, hkind]
      rfl
    generalize hstart : (v.build (·.start .constantExpressionAtom)).build (·.start .constant) = y at hx
    have hy : y.rest = v.rest := by
      rw [← hstart]
      rfl
    rw [bind_ok (ifSees_of_not (hy ▸ hsign)), bind_ok (eat_of_not (hy ▸ hstring))] at hx
    change bump c y = _ at hx
    rw [bump_eq] at hx
    cases hx
    rw [ParserState.rest_build, ParserState.rest_build, ParserState.rest_advance, hy, hv, hs]
    rfl
  rw [hends (hu ▸ hsecond), hu]

theorem selectElements_ok_of_integer (hdialect : c.dialect = .mySql)
    (hs : s.rest = first :: second :: ts) (hfirst : first.kind = .integer)
    (hsecond : second.kind = .keyword .WHERE)
    (h : selectElements (parser depth) c s = .ok () t) : t.rest = second :: ts := by
  obtain ⟨u, hu, rfl⟩ := production_ok h
  generalize hstart : s.build (·.start .selectElements) = s' at hu
  have hs' : s'.rest = first :: second :: ts := by
    rw [← hstart, ParserState.rest_build, hs]
  have hkind : (c.ahead s'.rest).kind 0 = .integer := by
    rw [hs']
    exact hfirst
  have hstar : starExtent? (c.ahead s'.rest) = none := by
    have hpart : first.isNamePart = false := by
      rw [Token.isNamePart, hfirst]
    have hrest : (c.ahead s'.rest).rest = first :: second :: ts := hs'
    rw [starExtent?, Lookahead.isKind, hkind, hrest, qualifiedStar?, hpart]
    rfl
  obtain ⟨_, v, hv, hu⟩ := bind_eq_ok hu
  rw [firstElement_eq hstar, plainElement_of_integer hkind] at hv
  obtain ⟨w, hw, rfl⟩ := production_ok hv
  obtain ⟨_, x, hx, hw⟩ := bind_eq_ok hw
  -- Behind the number the condition starts, and nothing goes on.
  have hwhere : (c.ahead (second :: ts)).kind 0 = .keyword .WHERE := hsecond
  have hAs : (c.ahead (second :: ts)).isKeyword 0 .AS = false :=
    Lookahead.isKeyword_of_kind_ne hwhere (by decide)
  have huid : startsUid (c.ahead (second :: ts)) = false := startsUid_of_where hdialect hwhere
  have hcomma : (c.ahead (second :: ts)).isKind 0 .comma = false := by
    rw [Lookahead.isKind, hwhere]
    rfl
  have hrest : x.rest = second :: ts :=
    expression_ok_of_integer (s := s'.build (·.start .selectExpressionElement)) hs' hfirst
      (goesOn_of_elementEndsAt hdialect (elementEndsAt_of_where hwhere)) hx
  rw [optionalAlias_of_none (hrest ▸ hAs) (hrest ▸ huid)] at hw
  cases hw
  have hmore : (c.ahead (w.build (·.finish)).rest).isKind 0 .comma = false := by
    rw [ParserState.rest_build, hrest, hcomma]
  rw [repeatWhile_of_false (bind_ok (eat_of_not hmore))] at hu
  cases hu
  exact hrest

theorem exists_run_of_querySpecification (hdialect : c.dialect = .mySql)
    (hs : s.rest = first :: second :: third :: ts) (hfirst : first.kind = .keyword .SELECT)
    (hsecond : second.kind = .integer) (hthird : third.kind = .keyword .WHERE) {withTail : Bool}
    (h : querySpecification (parser depth) withTail c s = .ok () t) :
    ∃ u v w, selectElements (parser depth) c (s.build (·.start .querySpecification)).advance =
        .ok () u ∧
      u.rest = third :: ts ∧
      parser depth .expression c (u.build (·.start .fromClause)).advance = .ok () v ∧
      behindSource (parser depth) withTail c (v.build (·.finish)) = .ok () w ∧
      t = w.build (·.finish) := by
  rw [querySpecification_eq] at h
  obtain ⟨w, hw, rfl⟩ := production_ok h
  generalize hstart : s.build (·.start .querySpecification) = s' at hw ⊢
  have hs' : s'.rest = first :: second :: third :: ts := by rw [← hstart, ParserState.rest_build, hs]
  have hselect : (c.ahead s'.rest).isKeyword 0 .SELECT := by
    rw [hs']
    exact Lookahead.isKeyword_of_kind hfirst
  have hadvance : s'.advance.rest = second :: third :: ts := by
    rw [ParserState.rest_advance, hs', List.tail_cons]
  have hmodifier : startsModifier (c.ahead s'.advance.rest) = false := by
    rw [hadvance]
    simp [startsModifier, Lookahead.isOneOf, Token.isOneOf, Token.keyword?, Lookahead.isWord,
      Token.isWord, Setting.ahead, Lookahead.token, hsecond]
  rw [expectKeyword, expectIf_bind hselect, bind_ok (whileSees_of_not hmodifier)] at hw
  obtain ⟨_, u, hu, hw⟩ := bind_eq_ok hw
  have hrest := selectElements_ok_of_integer hdialect hadvance hsecond hthird hu
  have hwhere : (c.ahead u.rest).kind 0 = .keyword .WHERE := by
    rw [hrest]
    exact hthird
  have hsource : (c.ahead u.rest).isOneOf 0 [.FROM, .WHERE] :=
    Token.isOneOf_of_isKeyword _ (Lookahead.isKeyword_of_kind hwhere) (by decide)
  unfold behindElements at hw
  rw [bind_ok (ifKeyword_of_not (Lookahead.isKeyword_of_kind_ne hwhere (by decide)))] at hw
  obtain ⟨_, x, hx, hw⟩ := bind_eq_ok hw
  rw [ifSees_eq, if_pos hsource] at hx
  obtain ⟨v, hv, rfl⟩ := production_ok hx
  change (c.ahead (u.build (·.start .fromClause)).rest).kind 0 = _ at hwhere
  rw [bind_ok (afterKeyword_of_not (Lookahead.isKeyword_of_kind_ne hwhere (by decide))),
    whereCondition, afterKeyword_eq (Lookahead.isKeyword_of_kind hwhere)] at hv
  exact ⟨u, v, w, hu, hrest, hv, hw, rfl⟩

theorem exists_condition_of_querySpecification {h w : Nat} (hn : NestedForms c h w (parser depth))
    (hstop : c.stop.kind = .eof) (hdialect : c.dialect = .mySql) (hdepth : depth ≤ c.limit)
    (hs : s.rest = first :: second :: third :: ts) (hfirst : first.kind = .keyword .SELECT)
    (hsecond : second.kind = .integer) (hthird : third.kind = .keyword .WHERE) {withTail : Bool}
    (hok : querySpecification (parser depth) withTail c s = .ok () t) :
    ∃ q x us, Grows s t [.node q] ∧ q.rule = .querySpecification ∧ condition? q = some x ∧
      Makes c (parser depth .expression) s ts us x := by
  obtain ⟨u, v, w, hu, hrest, hv, hw, rfl⟩ :=
    exists_run_of_querySpecification hdialect hs hfirst hsecond hthird hok
  have hsound := s.builder.sound_start .querySpecification
  have hgrows₁ : Grows (s.build (·.start .querySpecification))
      (s.build (·.start .querySpecification)).advance [.token first] := Grows.advance hs
  have hforms : Forms c (fun _ => True) _ _ (selectElements (parser depth)) :=
    hn.selectElements_forms
  obtain ⟨_, hgrows₂, hmade⟩ := hforms hstop (hgrows₁.sound hsound) trivial hu
  obtain ⟨elements, rfl, helements⟩ := Shape.matches_one.1 hmade.fits
  have hgrows₃ : Grows (u.build (·.start .fromClause)) (u.build (·.start .fromClause)).advance
      [.token third] := Grows.advance hrest
  obtain ⟨_, hgrows, hmade⟩ :=
    hn.expression hstop (hgrows₃.sound (u.builder.sound_start .fromClause)) trivial hv
  obtain ⟨x, rfl, hx⟩ := Shape.matches_oneIn.1 (Shape.Within.strong_oneIn hmade.fits)
  obtain ⟨span, hgrows₄⟩ := (hgrows₃.trans hgrows).close
  have hgrows₅ := (hgrows₁.trans hgrows₂).trans hgrows₄
  obtain ⟨more, hmore⟩ := adds_behindSource hn hstop withTail (hgrows₅.sound hsound) hw
  obtain ⟨span', hgrows₆⟩ := (hgrows₅.trans hmore).close
  have hexpression : ∀ rule ∈ conditions, rule.isExpressionForm := by decide
  have hnests (inv : Invariant Rule) :
      Nests (lockstep (.refl hstop : c.Deepens c) inv) (parser depth) (parser depth) :=
    parser.nests_self hdialect hdepth
  have hstart : (s.build (·.start .querySpecification)).rest = first :: second :: third :: ts := hs
  have hsource : (u.build (·.start .fromClause)).rest = third :: ts := hrest
  have hbehind : (u.build (·.start .fromClause)).advance.rest = ts := by
    rw [ParserState.rest_advance, hsource, List.tail_cons]
  have hmakes : Makes c (parser depth .expression) u ts v.rest x :=
    ((Makes.here hbehind hv hgrows.pending).advance hsource).start
  refine ⟨_, x, v.rest, hgrows₆, rfl, ?_, ?_⟩
  · simp [condition?, Node.child?, Node.findChild?, Node.childNodes, Element.node?, helements,
      hexpression _ hx]
  · refine (Makes.advance hstart (hmakes.after fun inv hinv => ?_)).start
    have helements : Respects _ 0 1 _ _ := (hnests inv).respects_selectElements
    exact helements.keeps hstop (Nat.zero_le _) hinv hu

end

def select? (statement : Node Rule) : Option (Node Rule) := do
  let manipulation ← statement.child? .dmlStatement
  let query ← manipulation.firstChild?
  query.child? .querySpecification

theorem statement_eq_of_select (nested : Goal → Parser Rule Unit)
    (hselect : (c.ahead s.rest).kind 0 = .keyword .SELECT) :
    statement nested c s = production .sqlStatement (production .dmlStatement (nested .query)) c s := by
  have hfamily : Family.ofLookahead? (c.ahead s.rest) = some .manipulation := by
    apply ofLookahead?_of_manipulated?
    unfold manipulated?
    rw [show ((c.ahead s.rest).token 0).kind = _ from hselect]
    rfl
  have hkeyword : (c.ahead s.rest).keyword? 0 = some .SELECT :=
    eq_of_beq (Lookahead.isKeyword_of_kind hselect)
  apply production_congr
  rw [sees_bind, ParserState.rest_build, hfamily]
  apply production_congr
  rw [ahead_bind, ParserState.rest_build, ParserState.rest_build, hkeyword]

theorem exists_statement_eq {h w depth : Nat} (hn : NestedForms c h w (parser depth))
    (hstop : c.stop.kind = .eof) (hselect : (c.ahead s.rest).kind 0 = .keyword .SELECT) :
    ∃ (rule : Rule) (withTail : Bool) (behind : Parser Rule Unit),
      statement (parser (depth + 1)) c s =
        production .sqlStatement (production .dmlStatement (production rule
          (do querySpecification (parser depth) withTail; behind))) c s ∧
      Adds c behind ∧ Idle c behind := by
  obtain ⟨rule, withTail, behind, hquery, hadds, hidle⟩ := exists_query_eq
    (s := (s.build (·.start .sqlStatement)).build (·.start .dmlStatement)) hn hstop
    (Lookahead.isKeyword_of_kind hselect)
  rw [statement_eq_of_select _ hselect]
  exact ⟨rule, withTail, behind, production_congr (production_congr hquery), hadds, hidle⟩

theorem exists_select_of_grows {rule : Rule} {q : Node Rule} {more : List (Element Rule)}
    (hq : q.rule = .querySpecification)
    (h : Grows (((s.build (·.start .sqlStatement)).build (·.start .dmlStatement)).build
      (·.start rule)) u (.node q :: more)) :
    ∃ n, Grows s (((u.build (·.finish)).build (·.finish)).build (·.finish)) [.node n] ∧
      select? n = some q := by
  obtain ⟨_, h⟩ := h.close
  obtain ⟨_, h⟩ := h.close
  obtain ⟨_, h⟩ := h.close
  refine ⟨_, h, ?_⟩
  simp [select?, Node.child?, Node.firstChild?, Node.findChild?, Node.childNodes, Element.node?, hq]

section

variable {depth : Nat} {first second third : Token} {ts : List Token} (hstop : c.stop.kind = .eof)
  (hfirst : first.kind = .keyword .SELECT)

include hstop hfirst

theorem querySpecification_ok_of_element (hs : s.rest = first :: ts)
    (hmodifier : startsModifier (c.ahead ts) = false) (hstar : starExtent? (c.ahead ts) = none)
    (withTail : Bool)
    (h : plainElement (parser depth) c
      ((s.build (·.start .querySpecification)).advance.build (·.start .selectElements)) = .ok () t)
    (ht : t.rest = []) :
    querySpecification (parser depth) withTail c s =
      .ok () ((t.build (·.finish)).build (·.finish)) := by
  rw [querySpecification_eq]
  apply production_of_ok
  generalize hstart : s.build (·.start .querySpecification) = s' at h ⊢
  have hs' : s'.rest = first :: ts := by rw [← hstart, ParserState.rest_build, hs]
  have hadvance : s'.advance.rest = ts := by rw [ParserState.rest_advance, hs', List.tail_cons]
  have hselect : (c.ahead s'.rest).isKeyword 0 .SELECT := by
    rw [hs']
    exact Lookahead.isKeyword_of_kind hfirst
  have helement := (firstElement_eq (by rwa [ParserState.rest_build, hadvance])).trans h
  have hcomma : (c.ahead t.rest).isKind 0 .comma = false :=
    Idle.not_of_firm (·.isKind 0 .comma) hstop ht
  have hlist : selectElements (parser depth) c s'.advance = .ok () (t.build (·.finish)) :=
    production_of_ok (commaSeparatedFrom_of_not helement hcomma)
  rw [← hadvance] at hmodifier
  rw [expectKeyword, expectIf_bind hselect, bind_ok (whileSees_of_not hmodifier), bind_ok hlist]
  exact idle_behindElements hstop withTail _ ht

theorem exists_list_of_querySpecification (hs : s.rest = first :: ts)
    (hmodifier : startsModifier (c.ahead ts) = false) (hstar : starExtent? (c.ahead ts) = none)
    (withTail : Bool) (helement : ∀ u : ParserState Rule, u.rest = ts →
      ∃ v, plainElement (parser depth) c u = .ok () v ∧ v.rest = []) :
    ∃ t q list el, querySpecification (parser depth) withTail c s = .ok () t ∧ t.rest = [] ∧
      Grows s t [.node q] ∧ q.rule = .querySpecification ∧ q.child? .selectElements = some list ∧
      list.children = [.node el] ∧ Makes c (plainElement (parser depth)) s ts [] el := by
  have hrest : ((s.build (·.start .querySpecification)).advance.build (·.start .selectElements)).rest =
      ts := by
    rw [ParserState.rest_build, ParserState.rest_advance, ParserState.rest_build, hs, List.tail_cons]
  obtain ⟨v, hv, hvrest⟩ := helement _ hrest
  have hrun := querySpecification_ok_of_element hstop hfirst hs hmodifier hstar withTail hv hvrest
  have hgrows₁ : Grows (s.build (·.start .querySpecification))
      (s.build (·.start .querySpecification)).advance [.token first] := Grows.advance hs
  have hforms : Forms c (fun _ => True) _ _ (plainElement (parser depth)) :=
    (parser_forms c depth).plainElement_forms
  obtain ⟨_, hgrows, hmade⟩ := hforms hstop (Builder.sound_start _ _) trivial hv
  obtain ⟨el, rfl, -⟩ := Shape.matches_oneIn.1 hmade.fits
  obtain ⟨span, hgrows₂⟩ := hgrows.close
  obtain ⟨_, hgrows₃⟩ := (hgrows₁.trans hgrows₂).close
  have hmakes := Makes.here hrest hv hgrows.pending
  rw [hvrest] at hmakes
  have hstart : (s.build (·.start .querySpecification)).rest = first :: ts := hs
  exact ⟨_, _, ⟨.selectElements, span, [.node el]⟩, el, hrun, hvrest, hgrows₃, rfl, rfl, rfl,
    (hmakes.start.advance hstart).start⟩

theorem exists_list_of_statement (hs : s.rest = first :: ts)
    (hmodifier : startsModifier (c.ahead ts) = false) (hstar : starExtent? (c.ahead ts) = none)
    (helement : ∀ u : ParserState Rule, u.rest = ts →
      ∃ v, plainElement (parser depth) c u = .ok () v ∧ v.rest = []) :
    ∃ t n list el, statement (parser (depth + 1)) c s = .ok () t ∧ t.rest = [] ∧
      Grows s t [.node n] ∧ (select? n).bind (·.child? .selectElements) = some list ∧
      list.children = [.node el] ∧ Makes c (plainElement (parser depth)) s ts [] el := by
  obtain ⟨rule, withTail, behind, heq, -, hidle⟩ :=
    exists_statement_eq (parser_forms c depth) hstop (s := s) (by
      rw [hs]
      exact hfirst)
  have hstart : (((s.build (·.start .sqlStatement)).build (·.start .dmlStatement)).build
      (·.start rule)).rest = first :: ts := hs
  obtain ⟨t, q, list, el, hrun, hrest, hgrows, hq, hlist, hchildren, hmakes⟩ :=
    exists_list_of_querySpecification hstop hfirst hstart hmodifier hstar withTail helement
  obtain ⟨n, hn, hselect⟩ := exists_select_of_grows hq hgrows
  refine ⟨_, n, list, el, ?_, ?_, hn, ?_, hchildren, hmakes.start.start.start⟩
  · rw [heq]
    apply production_of_ok
    apply production_of_ok
    apply production_of_ok
    rw [bind_ok hrun]
    exact hidle t hrest
  · exact hrest
  · rw [hselect]
    exact hlist

theorem exists_condition_of_statement (hdialect : c.dialect = .mySql) (hdepth : depth ≤ c.limit)
    (hs : s.rest = first :: second :: third :: ts)
    (hsecond : second.kind = .integer) (hthird : third.kind = .keyword .WHERE)
    (h : statement (parser (depth + 1)) c s = .ok () t) :
    ∃ n x us, Grows s t [.node n] ∧ (select? n).bind condition? = some x ∧
      Makes c (parser depth .expression) s ts us x := by
  have hn := parser_forms c depth
  obtain ⟨rule, withTail, behind, heq, hadds, -⟩ := exists_statement_eq hn hstop (s := s) (by
    rw [hs]
    exact hfirst)
  rw [heq] at h
  obtain ⟨_, hmanipulation, rfl⟩ := production_ok h
  obtain ⟨_, hquery, rfl⟩ := production_ok hmanipulation
  obtain ⟨_, hbody, rfl⟩ := production_ok hquery
  obtain ⟨_, w, hw, hbehind⟩ := bind_eq_ok hbody
  have hstart : (((s.build (·.start .sqlStatement)).build (·.start .dmlStatement)).build
      (·.start rule)).rest = first :: second :: third :: ts := hs
  obtain ⟨q, x, us, hgrows, hq, hx, hmakes⟩ :=
    exists_condition_of_querySpecification hn hstop hdialect hdepth hstart hfirst hsecond hthird hw
  obtain ⟨more, hmore⟩ := hadds (hgrows.sound (Builder.sound_start _ _)) hbehind
  obtain ⟨n, hn, hselect⟩ := exists_select_of_grows hq (hgrows.trans hmore)
  refine ⟨n, x, us, hn, ?_, hmakes.start.start.start⟩
  rw [hselect]
  exact hx

end

section

variable {depth limit : Nat} (hdepth : depth ≤ limit)

include hdepth

theorem joinable_expression : Joinable .mySql limit (parser depth .expression) where
  respects σ hdialect hsmall _ := by
    rw [← hsmall] at hdepth
    exact (parser.nests_self hdialect hdepth).expression
  heedless t := parser.heedless_expression depth

theorem joinable_plainElement : Joinable .mySql limit (plainElement (parser depth)) where
  respects σ hdialect hsmall _ := by
    rw [← hsmall] at hdepth
    exact (parser.nests_self hdialect hdepth).respects_plainElement
  heedless t := plainElement.heedless (parser.heedless_expression depth)

end

def firstSelect? (root : Node Rule) : Option (Node Rule) :=
  (form.statementsIn root).head?.bind select?

def rowCondition? (root : Node Rule) : Option (Node Rule) :=
  (firstSelect? root).bind condition?

def selectList? (root : Node Rule) : Option (Node Rule) :=
  (firstSelect? root).bind (·.child? .selectElements)

def front (options : Options) (source : String) : Lookahead :=
  (settingFor .mySql options source).ahead (Token.tokenize .mySql source).dropLast

/--
A text that starts with its first token and ends with its last one.
-/
structure Snug (text : String) (first : Token) (ts : List Token) : Prop where
  scan : Token.scan .mySql 0 none text.toList = first :: ts
  valid : ∀ t ∈ first :: ts, t.kind.isValid
  start : first.span.start = 0
  stop : Token.stopOf 0 (first :: ts) = text.utf8ByteSize

namespace Snug

variable {text : String} {first : Token} {ts : List Token} (h : Snug text first ts)

include h

theorem front_eq (options : Options) :
    front options text = (settingFor .mySql options text).ahead (first :: ts) := by
  unfold front
  rw [Token.dropLast_tokenize, h.scan]

theorem sees (options : Options) (source : String) (size : Nat) :
    Sees (front options text) ((settingFor .mySql options source).ahead
      ((first :: ts).map (Token.relocate (Span.shift size)))) := by
  rw [h.front_eq]
  exact ⟨rfl, Nat.le_refl _, rfl, rfl, .map_relocate _ _, .inl (by simp), fun _ => by simp⟩

end Snug

theorem exists_depth_of_statement {limit : Nat} (hselect : (c.ahead s.rest).kind 0 = .keyword .SELECT)
    (h : statement (parser limit) c s = .ok () t) : ∃ depth, limit = depth + 1 := by
  rw [statement_eq_of_select _ hselect] at h
  obtain ⟨_, hmanipulation, rfl⟩ := production_ok h
  obtain ⟨_, hquery, rfl⟩ := production_ok hmanipulation
  cases limit with
  | zero => cases hquery
  | succ depth => exact ⟨depth, rfl⟩

theorem exists_expression_of_parseTree {e : String} {options : Options} {tree : SyntaxTree Rule}
    {x : Node Rule} (h : parseTree ("SELECT 1 WHERE " ++ e) options = .ok tree)
    (hx : rowCondition? tree.root = some x)
    (hspan : x.span = ⟨15, 15 + e.utf8ByteSize⟩) :
    ∃ depth u v first ts, options.maxDepth = depth + 1 ∧ Snug e first ts ∧
      u.rest = (first :: ts).map (Token.relocate (Span.shift 15)) ∧
      parser depth .expression (settingFor .mySql options ("SELECT 1 WHERE " ++ e)) u = .ok () v ∧
      v.rest = [] := by
  generalize hsource : "SELECT 1 WHERE " ++ e = source at h ⊢
  have hscan := Token.scan_condition e
  rw [hsource] at hscan
  have htree : Parser.parseTree (form.script (statement (parser options.maxDepth)))
      (.ofFlavor .mySql) source options = .ok tree := h
  have hselect : (⟨.keyword .SELECT, 0, 6⟩ : Token).kind ≠ .semicolon := by decide
  obtain ⟨hvalid, w, n, hrun, hgrows, hfirst⟩ := ScriptForm.exists_first_of_parseTree
    (excisable_statement options.maxDepth) htree hscan hselect
  obtain ⟨depth, hdepth⟩ := exists_depth_of_statement rfl hrun
  rw [hdepth] at hrun
  have hlimit : depth ≤ options.maxDepth := hdepth ▸ Nat.le_succ depth
  obtain ⟨n', x', us, hgrows', hx', hmakes⟩ :=
    exists_condition_of_statement rfl rfl rfl hlimit rfl rfl rfl hrun
  obtain rfl : n = n' := by
    have hpending := hgrows.pending.symm.trans hgrows'.pending
    simpa using hpending
  obtain rfl : x' = x := by
    rw [rowCondition?, firstSelect?, hfirst] at hx
    exact Option.some_inj.1 (hx'.symm.trans hx)
  have hlaid := form.laid_opening .mySql source.toList
  rw [hscan] at hlaid
  have hjoinable := joinable_expression hlimit
  obtain ⟨u, v, -, hu, hv, hus, -⟩ := id hmakes
  cases hT : Token.scan .mySql 0 none e.toList with
  | nil =>
    have htakes := hjoinable.takes rfl hv
    rw [hu, hT] at htakes
    contradiction
  | cons first ts =>
    rw [hT] at hmakes hlaid hvalid hscan
    obtain ⟨stop, hxspan, hsuffix, hrow, htaken⟩ := hmakes.exists_span hjoinable rfl hlaid rfl
    rw [hspan] at hxspan
    obtain ⟨hstart, rfl⟩ := Span.mk.inj hxspan
    have hsize : Token.byteLength source.toList = 15 + e.utf8ByteSize := by
      rw [Token.byteLength_toList, ← hsource, String.utf8ByteSize_append]
      rfl
    have hnil : us = [] := by
      cases us with
      | nil => rfl
      | cons a us =>
        have hbounds := hrow.bounds List.mem_cons_self
        have hlt : a.span.start < a.span.stop := by
          have hmem : a ∈ Token.scan .mySql 0 none source.toList :=
            hscan ▸ hsuffix.subset List.mem_cons_self
          exact (Token.scan_cut (List.nil_append source.toList).symm none a hmem).spelled.lt
        omega
    have hstart : 15 = 15 + first.span.start := hstart
    have hlast : 15 + e.utf8ByteSize = 15 + Token.stopOf 0 (first :: ts) := by
      rw [htaken hnil, ← Token.stopOf_relocate]
      simp only [List.map_cons, Token.stopOf_cons]
    refine ⟨depth, u, v, first, ts, hdepth, ⟨hT, ?_, by omega, by omega⟩, hT ▸ hu, hv, hus.trans hnil⟩
    intro t ht
    apply hvalid (t.relocate (Span.shift 15))
    exact List.mem_cons_of_mem _
      (List.mem_cons_of_mem _ (List.mem_cons_of_mem _ (List.mem_map_of_mem ht)))

theorem exists_selectList_of_element {e : String} {options : Options} {depth : Nat} {first : Token}
    {ts : List Token} (hdepth : options.maxDepth = depth + 1) (he : Snug e first ts)
    (hmodifier : startsModifier (front options e) = false)
    (hstar : starExtent? (front options e) = none)
    (helement : ∀ u : ParserState Rule,
      u.rest = (first :: ts).map (Token.relocate (Span.shift 7)) →
      ∃ v, plainElement (parser depth) (settingFor .mySql options ("SELECT " ++ e)) u = .ok () v ∧
        v.rest = []) :
    ∃ tree list el, parseTree ("SELECT " ++ e) options = .ok tree ∧
      selectList? tree.root = some list ∧ list.children = [.node el] ∧
      el.span = ⟨7, 7 + e.utf8ByteSize⟩ := by
  have hscan := Token.scan_select e
  rw [he.scan] at hscan
  have hsees := he.sees options ("SELECT " ++ e) 7
  obtain ⟨w, n, list, el, hrun, hrest, hgrows, hlist, hchildren, hmakes⟩ :=
    exists_list_of_statement (s := ⟨⟨.keyword .SELECT, 0, 6⟩ :: _, form.opening⟩) rfl rfl rfl
      (by rw [hsees.ask startsModifier (.inl (Nat.zero_le _)), hmodifier])
      (by rw [hsees.ask starExtent? (.inl (Nat.zero_le _)), hstar]) helement
  -- The script is this statement.
  have hselect : (⟨.keyword .SELECT, 0, 6⟩ : Token).kind ≠ .semicolon := by decide
  have hvalid : ∀ t ∈ (⟨.keyword .SELECT, 0, 6⟩ : Token) ::
      (first :: ts).map (Token.relocate (Span.shift 7)), t.kind.isValid := by
    rw [List.forall_mem_cons, List.forall_mem_map]
    exact ⟨rfl, he.valid⟩
  rw [← hdepth] at hrun
  obtain ⟨tree, htree, hin⟩ := ScriptForm.exists_parseTree_of_statement
    (excisable_statement options.maxDepth) hscan hvalid hselect hrun hrest hgrows
  refine ⟨tree, list, el, htree, ?_, hchildren, ?_⟩
  · rw [selectList?, firstSelect?, hin]
    exact hlist
  -- Where the element lies.
  · have hlaid := form.laid_opening .mySql ("SELECT " ++ e).toList
    rw [hscan] at hlaid
    have hjoinable := joinable_plainElement (hdepth ▸ Nat.le_succ depth : depth ≤ options.maxDepth)
    obtain ⟨stop, hspan, -, -, htaken⟩ := hmakes.exists_span hjoinable rfl hlaid rfl
    have hfirst : (first.relocate (Span.shift 7)).span.start = 7 := by
      change 7 + first.span.start = 7
      rw [he.start]
    have hlast : stop = 7 + e.utf8ByteSize := by
      rw [htaken rfl, ← he.stop, ← Token.stopOf_relocate]
      simp only [List.map_cons, Token.stopOf_cons]
    rw [hspan, hfirst, hlast]

/--
What is the condition of a select, with nothing behind it, is the only element of a select list as
well. It must not start like a modifier of selects or like a star element, and in a `CASE` in front no
group may hold words that do not pair up.
-/
theorem selectList_of_condition {e : String} {options : Options} {tree : SyntaxTree Rule}
    {x : Node Rule} (h : parseTree ("SELECT 1 WHERE " ++ e) options = .ok tree)
    (hx : rowCondition? tree.root = some x) (hspan : x.span = ⟨15, 15 + e.utf8ByteSize⟩)
    (hmodifier : startsModifier (front options e) = false)
    (hstar : starExtent? (front options e) = none)
    (hcases : (front options e).isKeyword 0 .CASE → Token.casesPaired 0 0 (front options e).rest) :
    ∃ tree' list el, parseTree ("SELECT " ++ e) options = .ok tree' ∧
      selectList? tree'.root = some list ∧ list.children = [.node el] ∧
      el.span = ⟨7, 7 + e.utf8ByteSize⟩ := by
  obtain ⟨depth, u, v, first, ts, hdepth, he, hu, hv, hrest⟩ :=
    exists_expression_of_parseTree h hx hspan
  apply exists_selectList_of_element hdepth he hmodifier hstar
  intro u' hu'
  have hlimit : depth ≤ options.maxDepth := hdepth ▸ Nat.le_succ depth
  have hlike : (settingFor .mySql options ("SELECT 1 WHERE " ++ e)).Like
      (settingFor .mySql options ("SELECT " ++ e)) := ⟨rfl, rfl, rfl, rfl⟩
  -- The expression stands eight bytes further to the front.
  have hmoved : u'.rest = u.rest.map (Token.relocate fun s => ⟨s.start - 8, s.stop - 8⟩) := by
    rw [hu', hu, List.map_map]
    apply List.map_congr_left
    intro t _
    have hstart : 15 + t.span.start - 8 = 7 + t.span.start := by omega
    have hstop : 15 + t.span.stop - 8 = 7 + t.span.stop := by omega
    simp [Token.relocate, Span.shift, hstart, hstop]
  have hnests : Nests (moved Rule hlike fun s => ⟨s.start - 8, s.stop - 8⟩) (parser depth)
      (parser depth) := parser.nests_self rfl hlimit
  obtain ⟨v', hv', hrest'⟩ := hnests.expression.moves hv (Nat.zero_le _) u' hmoved
  rw [hrest, List.map_nil] at hrest'
  have hsees := he.sees options ("SELECT " ++ e) 7
  have hpaired : ((settingFor .mySql options ("SELECT " ++ e)).ahead u'.rest).isKeyword 0 .CASE →
      Token.casesPaired 0 0 u'.rest := by
    rw [hu', hsees.ask (·.isKeyword 0 .CASE) (.inl (Nat.zero_le _)), Token.casesPaired_relocate]
    rw [he.front_eq] at hcases ⊢
    exact hcases
  obtain ⟨w, hw, hwrest⟩ := plainElement_of_expression rfl rfl hlimit hpaired hv'
    (Idle.not_of_firm (·.isKeyword 0 .AS) rfl hrest') (Idle.not_of_firm startsUid rfl hrest')
  exact ⟨w, hw, hwrest.trans hrest'⟩

theorem selectList_of_condition_case :
    ∃ tree x tree' list el,
      parseTree ("SELECT 1 WHERE " ++ "CASE WHEN (a) THEN b END + 1") {} = .ok tree ∧
      rowCondition? tree.root = some x ∧ x.span = ⟨15, 43⟩ ∧
      parseTree ("SELECT " ++ "CASE WHEN (a) THEN b END + 1") {} = .ok tree' ∧
      selectList? tree'.root = some list ∧ list.children = [.node el] ∧ el.span = ⟨7, 35⟩ := by
  have hok : (parseTree ("SELECT 1 WHERE " ++ "CASE WHEN (a) THEN b END + 1") {}).toOption.any
      fun tree => (rowCondition? tree.root).any fun x => x.span = ⟨15, 43⟩ := by
    decide +kernel
  obtain ⟨tree, htree, hany⟩ := exists_ok_of_any hok
  obtain ⟨x, hx, hspan⟩ := (Option.any_eq_true _ _).1 hany
  have hspan := of_decide_eq_true hspan
  obtain ⟨tree', list, el, hselect⟩ := selectList_of_condition htree hx hspan (by decide +kernel)
    (by decide +kernel) (by decide +kernel)
  exact ⟨tree, x, tree', list, el, htree, hx, hspan, hselect⟩

end MySql

end SqlScript
