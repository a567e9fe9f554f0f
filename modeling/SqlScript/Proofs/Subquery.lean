import SqlScript.Proofs.Group
import SqlScript.Proofs.MySql.Forms.Script
import SqlScript.Proofs.Postgres.Forms.Script

/-!
What opens a subquery. The parentheses in front of a query are told from those of other expressions
by what stands behind the groups that they open, and no query that can be read is told to be none.
-/

namespace SqlScript

open SqlScript.Tree (Node Element leaves leaves_append leaves_node nodesOf nodesOf_append)
open SqlScript.Parser (settingOf)

def Token.continuesQuery (t : Token) : Bool :=
  match t.kind with
  | .rightParen => true
  | .keyword word => Lookahead.continuesQuery word
  | _ => false

theorem Token.continuesQuery_of_keyword? {t : Token} {word : Keyword} (ht : t.keyword? = some word)
    (h : Lookahead.continuesQuery word) : t.continuesQuery := by
  unfold keyword? at ht
  split at ht
  · cases ht
    unfold continuesQuery
    rwa [‹t.kind = _›]
  · contradiction

/--
Tokens that start with a select, or with a group that does. Behind a group there is nothing, or what
continues a query.
-/
inductive OpensQuery : List Token → Prop
  | select {t : Token} {ts : List Token} (h : t.isKeyword .SELECT) : OpensQuery (t :: ts)
  | group {o c : Token} {inner after : List Token} (hopen : o.kind = .leftParen)
    (hinner : OpensQuery inner)
    (hclose : Lookahead.closingParen? 0 0 (o :: inner ++ [c]) = some (inner.length + 1))
    (hafter : ∀ t ∈ after.head?, t.continuesQuery) : OpensQuery (o :: (inner ++ c :: after))

theorem forall_mem_head?_append {α : Type} {p : α → Prop} {us vs : List α}
    (hus : ∀ t ∈ us.head?, p t) (hvs : ∀ t ∈ vs.head?, p t) : ∀ t ∈ (us ++ vs).head?, p t := by
  cases us with
  | nil => exact hvs
  | cons => exact hus

theorem OpensQuery.append {us vs : List Token} (h : OpensQuery us)
    (hvs : ∀ t ∈ vs.head?, t.continuesQuery) : OpensQuery (us ++ vs) := by
  cases h with
  | select h => exact .select h
  | @group o c inner after hopen hinner hclose hafter =>
    have hgroup := OpensQuery.group hopen hinner hclose (forall_mem_head?_append hafter hvs)
    rwa [List.cons_append, List.append_assoc, List.cons_append]

namespace Lookahead

theorem closingParen?_append {depth index close : Nat} {ts : List Token}
    (h : closingParen? depth index ts = some close) (us : List Token) :
    closingParen? depth index (ts ++ us) = some close := by
  induction ts generalizing depth index with
  | nil => contradiction
  | cons t ts ih =>
    rw [List.cons_append]
    unfold closingParen? at h ⊢
    split at h
    · exact ih h
    · split at h
      · rw [if_pos ‹_›]
        exact h
      · rw [if_neg ‹_›]
        exact ih h
    · exact ih h

theorem kind_of_closingParen? {depth index close : Nat} {ts : List Token}
    (h : closingParen? depth index ts = some close) :
    ∃ t, ts[close - index]? = some t ∧ t.kind = .rightParen := by
  induction ts generalizing depth index with
  | nil => contradiction
  | cons t ts ih =>
    have hnext : ∀ {depth}, closingParen? depth (index + 1) ts = some close →
        ∃ t', (t :: ts)[close - index]? = some t' ∧ t'.kind = .rightParen := by
      intro depth h
      obtain ⟨t', ht', hkind⟩ := ih h
      have := (closingParen?_bounds h).1
      refine ⟨t', ?_, hkind⟩
      rw [show close - index = close - (index + 1) + 1 from by omega, List.getElem?_cons_succ, ht']
    unfold closingParen? at h
    split at h
    · exact hnext h
    · split at h
      · cases h
        exact ⟨t, by simp, ‹_›⟩
      · exact hnext h
    · exact hnext h

variable {a : Lookahead} {n : Nat} {us vs : List Token}

theorem token_of_drop {t : Token} (h : a.rest.drop n = t :: us) : a.token n = t := by
  have hget : a.rest[n]? = some t := by
    rw [← List.head?_drop, h]
    rfl
  rw [token, hget]
  rfl

theorem matchingParen?_of_drop {o c : Token} {inner : List Token} (hopen : o.kind = .leftParen)
    (hclose : closingParen? 0 0 (o :: inner ++ [c]) = some (inner.length + 1))
    (h : a.rest.drop n = o :: (inner ++ c :: us)) :
    a.matchingParen? n = some (n + inner.length + 1) := by
  have hkind : a.isKind n .leftParen := by
    rw [isKind, kind, token_of_drop h, hopen]
    rfl
  have hgroup : o :: (inner ++ c :: us) = o :: inner ++ [c] ++ us := by simp
  rw [matchingParen?, if_pos hkind, h, hgroup]
  apply closingParen?_append
  have hadd := closingParen?_add n 0 0 (o :: inner ++ [c])
  rw [hclose, Nat.zero_add] at hadd
  rw [hadd, Option.map_some]
  congr 1
  omega

theorem groupMayBeQuery_of_close {close : Nat} (h : a.matchingParen? n = some close)
    (ht : (a.token (close + 1)).continuesQuery) : a.groupMayBeQuery n := by
  unfold groupMayBeQuery kind
  rw [h]
  exact ht

end Lookahead

theorem leadingParens_cons {o : Token} (hopen : o.kind.alike .leftParen) (ts : List Token) :
    leadingParens (o :: ts) = leadingParens ts + 1 := by
  unfold leadingParens
  rw [List.takeWhile_cons, if_pos hopen, List.length_cons]

theorem OpensQuery.seen {us : List Token} (h : OpensQuery us) {a : Lookahead} {n : Nat} {t : Token}
    {vs : List Token} (ht : t.continuesQuery) (hrest : a.rest.drop n = us ++ t :: vs) :
    a.isOneOf (n + leadingParens (a.rest.drop n)) [.SELECT] ∧
      ∀ i ∈ List.range' n (leadingParens (a.rest.drop n)), a.groupMayBeQuery i := by
  induction h generalizing n t vs with
  | @select first ts h =>
    have hparens : leadingParens (a.rest.drop n) = 0 := by
      have hkind : (first.kind.alike .leftParen) = false := by
        unfold Token.isKeyword Token.keyword? at h
        cases hk : first.kind <;> rw [hk] at h <;> first | rfl | contradiction
      rw [hrest, leadingParens, List.cons_append, List.takeWhile_cons_of_neg (by simp [hkind])]
      rfl
    rw [hparens, Nat.add_zero, Lookahead.isOneOf, Lookahead.token_of_drop hrest]
    exact ⟨Token.isOneOf_of_isKeyword _ h (by decide), fun i hi => absurd hi List.not_mem_nil⟩
  | @group o c inner after hopen hinner hclose hafter ih =>
    -- Seen from inside, the group ends where what stands behind it starts.
    have hgroup : a.rest.drop n = o :: (inner ++ c :: (after ++ t :: vs)) := by
      rw [hrest]
      simp
    have hnext : a.rest.drop (n + 1) = inner ++ c :: (after ++ t :: vs) := by
      rw [← List.drop_drop, hgroup]
      rfl
    have hcloser : c.continuesQuery := by
      obtain ⟨c', hc', hkind⟩ := Lookahead.kind_of_closingParen? hclose
      obtain rfl : c = c' := by simpa using hc'
      unfold Token.continuesQuery
      rw [hkind]
    obtain ⟨hselect, hgroups⟩ := ih hcloser hnext
    have hparens : leadingParens (a.rest.drop n) = leadingParens (a.rest.drop (n + 1)) + 1 := by
      rw [hgroup, hnext, leadingParens_cons (by rw [hopen]; rfl)]
    rw [hparens, List.range'_succ, List.forall_mem_cons]
    refine ⟨?_, ?_, hgroups⟩
    · rwa [show n + (leadingParens (a.rest.drop (n + 1)) + 1) =
        n + 1 + leadingParens (a.rest.drop (n + 1)) from by omega]
    · have hbehind : a.rest.drop (n + inner.length + 1 + 1) = after ++ t :: vs := by
        rw [show n + inner.length + 1 + 1 = n + (inner.length + 1 + 1) from by omega,
          ← List.drop_drop, hgroup, List.drop_succ_cons, ← List.drop_drop, List.drop_left]
        rfl
      apply Lookahead.groupMayBeQuery_of_close
        (Lookahead.matchingParen?_of_drop hopen hclose hgroup)
      cases after with
      | nil => rwa [Lookahead.token_of_drop hbehind]
      | cons first after =>
        rw [Lookahead.token_of_drop hbehind]
        exact hafter first rfl

theorem OpensQuery.opensSubquery {us : List Token} (h : OpensQuery us) {a : Lookahead}
    {n close : Nat} (hclose : a.matchingParen? n = some close)
    (hrest : a.rest.drop (n + 1) = us ++ a.rest.drop close) : a.opensSubquery n [.SELECT] := by
  have hopen := Lookahead.isKind_of_matchingParen? hclose
  obtain ⟨hle, hlt⟩ := Lookahead.lt_length_of_matchingParen? hclose
  have hfront : a.rest.drop n = a.token n :: a.rest.drop (n + 1) := by
    rw [Lookahead.token_of_lt (by omega), List.drop_eq_getElem_cons (by omega)]
  have hcloser : (a.token close).continuesQuery := by
    unfold Lookahead.matchingParen? at hclose
    rw [if_pos hopen] at hclose
    obtain ⟨c, hc, hkind⟩ := Lookahead.kind_of_closingParen? hclose
    rw [List.getElem?_drop, Nat.add_sub_cancel' hle] at hc
    unfold Token.continuesQuery Lookahead.token
    rw [hc, Option.getD_some, hkind]
  have hbehind : a.rest.drop close = a.token close :: a.rest.drop (close + 1) := by
    rw [Lookahead.token_of_lt hlt, List.drop_eq_getElem_cons hlt]
  rw [hbehind] at hrest
  obtain ⟨hselect, hgroups⟩ := h.seen hcloser hrest
  have hparens : leadingParens (a.rest.drop n) = leadingParens (a.rest.drop (n + 1)) + 1 := by
    rw [hfront, leadingParens_cons hopen]
  unfold Lookahead.opensSubquery
  unfold leadingParens at hparens hselect hgroups
  simp only [hparens, Nat.add_sub_cancel]
  rw [← Nat.add_assoc, Nat.add_right_comm, hselect, List.all_eq_true.2 hgroups]
  simp

namespace Tree

variable {ρ : Type}

def closesAmong (o : Token) (es : List (Element ρ)) : Bool :=
  (List.range es.length).any fun k =>
    match es[k]? with
    | some (.token c) =>
      Lookahead.closingParen? 0 0 (o :: leaves (es.take k) ++ [c]) ==
        some ((leaves (es.take k)).length + 1)
    | _ => false

def closesOwn : List (Element ρ) → Bool
  | [] => true
  | .token o :: es => (o.kind != .leftParen || closesAmong o es) && closesOwn es
  | .node _ :: es => closesOwn es

/--
In the production, and in all that is nested in it, a parenthesis and the one that closes it are
direct tokens of the same production.
-/
def Node.ClosesParens (n : Node ρ) : Prop :=
  ∀ m, n.Contains m → closesOwn m.children

theorem closesAmong_of_closesOwn {o : Token} {es : List (Element ρ)} (ho : o.kind = .leftParen)
    (h : closesOwn (.token o :: es)) : closesAmong o es := by
  unfold closesOwn at h
  rw [ho, Bool.and_eq_true] at h
  exact h.1

theorem closingParen?_of_closesAmong {o c : Token} {es : List (Element ρ)}
    (hes : ∀ e ∈ es, e.token? = none) (h : closesAmong o (es ++ [.token c])) :
    Lookahead.closingParen? 0 0 (o :: leaves es ++ [c]) = some ((leaves es).length + 1) := by
  unfold closesAmong at h
  obtain ⟨k, hk, h⟩ := List.any_eq_true.1 h
  rw [List.mem_range, List.length_append, List.length_singleton] at hk
  -- Tokens of nested productions are not looked at, so only the last one is left to close it.
  obtain hlt | rfl : k < es.length ∨ k = es.length := by omega
  · have hnone := hes es[k] (List.getElem_mem hlt)
    rw [List.getElem?_append_left hlt, List.getElem?_eq_getElem hlt] at h
    cases he : es[k] with
    | node m =>
      rw [he] at h
      contradiction
    | token t =>
      rw [he] at hnone
      contradiction
  · rw [List.getElem?_concat_length, List.take_left] at h
    exact eq_of_beq h

end Tree

namespace Shape

variable {ρ : Type}

def tokenless : Shape ρ → Bool
  | nothing | node _ _ => true
  | token _ | tokens => false
  | seq f g | alt f g => f.tokenless && g.tokenless
  | many f => f.tokenless

theorem Matches.token?_eq_none {f : Shape ρ} {es : List (Element ρ)} (h : f.Matches es)
    (hf : f.tokenless) : ∀ e ∈ es, e.token? = none := by
  induction f generalizing es with
  | nothing =>
    cases h
    nofun
  | token p => contradiction
  | tokens => contradiction
  | node rules p =>
    obtain ⟨n, rfl, -⟩ := h
    exact List.forall_mem_singleton.2 rfl
  | seq f g ihf ihg =>
    obtain ⟨hf, hg⟩ := (Bool.and_eq_true _ _).mp hf
    obtain ⟨xs, ys, rfl, hxs, hys⟩ := h
    exact fun e he => (List.mem_append.1 he).elim (ihf hxs hf e) (ihg hys hg e)
  | alt f g ihf ihg =>
    obtain ⟨hf, hg⟩ := (Bool.and_eq_true _ _).mp hf
    exact h.elim (ihf · hf) (ihg · hg)
  | many f ih =>
    obtain ⟨parts, rfl, hparts⟩ := h
    intro e he
    obtain ⟨xs, hxs, he⟩ := List.mem_flatten.1 he
    exact ih (hparts xs hxs) hf e he

variable [Grammar ρ]

def Continues (f : Shape ρ) : Prop :=
  ∀ ⦃es⦄, f.Matches es → (∀ n ∈ nodesOf es, n.Formed) → ∀ t ∈ (leaves es).head?, t.continuesQuery

/--
What stands there opens a query, if the productions of these kinds among it do.
-/
def Opens (rules : List ρ) (f : Shape ρ) : Prop :=
  ∀ ⦃es⦄, f.Matches es → (∀ n ∈ nodesOf es, n.Formed) →
    (∀ n ∈ nodesOf es, n.rule ∈ rules → OpensQuery n.leaves) → OpensQuery (leaves es)

variable {f g : Shape ρ} {rules : List ρ}

namespace Continues

theorem nothing : (nothing : Shape ρ).Continues := by
  rintro _ rfl - t ht
  cases ht

theorem token_append {p : Token → Bool} (hp : ∀ t, p t → t.continuesQuery) :
    (token p ++ g).Continues := by
  rintro _ ⟨_, ys, rfl, ⟨t, rfl, ht⟩, -⟩ - t' ht'
  cases ht'
  exact hp t ht

theorem word_append {word : Keyword} (h : Lookahead.continuesQuery word) :
    (Shape.word word ++ g).Continues :=
  token_append fun _ ht => Token.continuesQuery_of_keyword? (eq_of_beq ht) h

theorem oneOf_append {words : List Keyword} (h : ∀ word ∈ words, Lookahead.continuesQuery word) :
    (Shape.oneOf words ++ g).Continues :=
  token_append fun t ht => by
    unfold Token.isOneOf at ht
    split at ht
    · rename_i word hword
      exact Token.continuesQuery_of_keyword? hword (h word (List.contains_iff_mem.1 ht))
    · contradiction

theorem append (hf : f.Continues) (hg : g.Continues) : (f ++ g).Continues := by
  rintro _ ⟨xs, ys, rfl, hxs, hys⟩ hformed
  rw [nodesOf_append, List.forall_mem_append] at hformed
  rw [leaves_append]
  exact forall_mem_head?_append (hf hxs hformed.1) (hg hys hformed.2)

theorem or (hf : f.Continues) (hg : g.Continues) : (f ||| g).Continues :=
  fun _ hes => hes.elim (hf ·) (hg ·)

theorem opt (hf : f.Continues) : f.opt.Continues :=
  .or .nothing hf

theorem node (h : ∀ rule ∈ rules, (Grammar.shape rule).Continues) (q : Node ρ → Bool) :
    (Shape.node rules q).Continues := by
  rintro _ ⟨n, rfl, hrule, -⟩ hformed t ht
  have hn : n.Formed := hformed n List.mem_cons_self
  rw [leaves_node] at ht
  exact h n.rule hrule hn.matches_children (fun m hm => hn.child hm) t ht

theorem many (hf : f.Continues) : (Shape.many f).Continues := by
  rintro _ ⟨parts, rfl, hparts⟩ hformed
  induction parts with
  | nil => exact nothing rfl nofun
  | cons xs parts ih =>
    obtain ⟨hxs, hparts⟩ := List.forall_mem_cons.1 hparts
    rw [List.flatten_cons, nodesOf_append, List.forall_mem_append] at hformed
    rw [List.flatten_cons, leaves_append]
    exact forall_mem_head?_append (hf hxs hformed.1) (ih hparts hformed.2)

end Continues

namespace Opens

theorem select_append : (word .SELECT ++ g).Opens rules := by
  rintro _ ⟨_, ys, rfl, ⟨t, rfl, ht⟩, -⟩ - -
  exact .select ht

theorem node (heads : List ρ) (q : Node ρ → Bool) (h : heads ⊆ rules) :
    (Shape.node heads q).Opens rules := by
  rintro _ ⟨n, rfl, hrule, -⟩ - hopens
  rw [leaves_node, ← Node.leaves_eq]
  exact hopens n List.mem_cons_self (h hrule)

theorem append (hf : f.Opens rules) (hg : g.Continues) : (f ++ g).Opens rules := by
  rintro _ ⟨xs, ys, rfl, hxs, hys⟩ hformed hopens
  rw [nodesOf_append, List.forall_mem_append] at hformed hopens
  rw [leaves_append]
  exact (hf hxs hformed.1 hopens.1).append (hg hys hformed.2)

theorem or (hf : f.Opens rules) (hg : g.Opens rules) : (f ||| g).Opens rules :=
  fun _ hes => hes.elim (hf ·) (hg ·)

end Opens

end Shape

section

variable {ρ : Type} [Grammar ρ]

/--
The productions of queries, and those of queries in parentheses, in terms of each other.
-/
structure OpeningShapes (queries groups : List ρ) : Prop where
  query {rule : ρ} : rule ∈ queries → (Grammar.shape rule).Opens (queries ++ groups)
  group {rule : ρ} : rule ∈ groups → ∃ f : Shape ρ, Grammar.shape rule = .parens f ∧
    f.tokenless ∧ f.Opens (queries ++ groups)

theorem OpeningShapes.opensQuery {queries groups : List ρ} (h : OpeningShapes queries groups)
    {n : Node ρ} (hrule : n.rule ∈ queries ++ groups) (hn : n.Formed) (hparens : n.ClosesParens) :
    OpensQuery n.leaves := by
  -- A shape speaks of direct children only, so they are taken first, as smaller trees.
  have hnested : ∀ m ∈ n.childNodes, m.rule ∈ queries ++ groups → OpensQuery m.leaves := by
    intro m hm hmrule
    have := Tree.Node.sizeOf_lt_of_mem_childNodes hm
    exact h.opensQuery hmrule (hn.child hm) fun k hk => hparens k (.child hm hk)
  have hmatches := hn.matches_children
  rw [Node.leaves_eq]
  obtain hrule | hrule := List.mem_append.1 hrule
  · exact h.query hrule hmatches (fun m hm => hn.child hm) hnested
  · obtain ⟨f, hshape, htokenless, hopens⟩ := h.group hrule
    have hown := hparens n (.refl n)
    rw [hshape] at hmatches
    obtain ⟨_, _, hchildren, ⟨_, es, rfl, ⟨o, rfl, hopen⟩, hes⟩, c, rfl, -⟩ := hmatches
    have hopen := TokenKind.eq_leftParen_of_alike hopen
    have hinner : nodesOf es = n.childNodes := by
      rw [Node.childNodes_eq, hchildren, nodesOf_append, nodesOf_append, Tree.nodesOf_token,
        Tree.nodesOf_token, List.append_nil, List.nil_append]
    rw [hchildren] at hown ⊢
    have hclose := Tree.closingParen?_of_closesAmong (hes.token?_eq_none htokenless)
      (Tree.closesAmong_of_closesOwn hopen hown)
    rw [leaves_append, leaves_append, Tree.leaves_token, Tree.leaves_token]
    rw [← hinner] at hnested
    exact .group hopen (hopens hes (fun m hm => hn.child (hinner ▸ hm)) hnested) hclose nofun
termination_by sizeOf n

theorem OpeningShapes.opensSubquery {queries groups heads : List ρ} {c : Setting} {h close n : Nat}
    {p : Parser ρ Unit} {ts : List Token} {s t : ParserState ρ}
    (hshapes : OpeningShapes queries groups) (hheads : heads ⊆ queries ++ groups)
    (hp : Parser.Forms c (fun _ => True) h (.oneIn heads) p) (hstop : c.stop.kind = .eof)
    (hclose : (c.ahead ts).matchingParen? n = some close) (hs : s.builder.Sound)
    (hrest : s.rest = ts.drop (n + 1)) (hrun : p c s = .ok () t) (hend : t.rest = ts.drop close) :
    ∃ q, t.builder.pending.toList = s.builder.pending.toList ++ [.node q] ∧
      (q.ClosesParens → (c.ahead ts).opensSubquery n [.SELECT]) := by
  obtain ⟨_, hgrows, hmade⟩ := hp hstop hs trivial hrun
  obtain ⟨q, rfl, hrule⟩ := Shape.matches_oneIn.1 hmade.fits
  refine ⟨q, hgrows.pending, fun hparens => ?_⟩
  have hformed : q.Formed := hmade.formed _ List.mem_cons_self q rfl
  apply (hshapes.opensQuery (hheads hrule) hformed hparens).opensSubquery hclose
  have hleaves := hgrows.rest
  rwa [hrest, hend, leaves_node, ← Node.leaves_eq] at hleaves

end

namespace MySql

def queries : List Rule :=
  [.querySpecification, .simpleSelect, .parenthesisSelect, .unionSelect]

theorem lockClause_continues : (Shape.one Rule.lockClause).Continues :=
  .node (List.forall_mem_singleton.2 (.oneOf_append (by decide))) _

theorem tailShape_continues : tailShape.Continues := by
  have horder : (Shape.one Rule.orderByClause).Continues :=
    .node (List.forall_mem_singleton.2 (.word_append (by decide))) _
  have hlimit : (Shape.one Rule.limitClause).Continues :=
    .node (List.forall_mem_singleton.2 (.word_append (by decide))) _
  exact horder.opt.append (hlimit.opt.append lockClause_continues.opt)

theorem openingShapes : OpeningShapes queries [.queryExpression] where
  query hrule := by
    have hunion : (Shape.one Rule.unionStatement).Continues :=
      .node (List.forall_mem_singleton.2 (.word_append (by decide))) _
    unfold queries at hrule
    simp only [List.mem_cons, List.not_mem_nil, or_false] at hrule
    obtain rfl | rfl | rfl | rfl := hrule
    · exact .select_append
    · exact .append (.node [Rule.querySpecification] _ (by decide))
        lockClause_continues.opt
    · exact .append (.node [Rule.queryExpression] _ (by decide)) tailShape_continues
    · exact .append (.node unionOperands _ (by decide))
        (hunion.many.append tailShape_continues)
  group hrule := by
    obtain rfl := List.mem_singleton.1 hrule
    exact ⟨.oneIn [.unionSelect, .queryExpression, .querySpecification], rfl, rfl,
      .node _ _ (by decide)⟩

end MySql

namespace Postgres

def queries : List Rule :=
  [.simpleSelectPrimary, .plainSelect, .setOperationSelect, .parenthesizedSelect]

theorem forLockingClause_continues : (Shape.one Rule.forLockingClause).Continues :=
  .node (List.forall_mem_singleton.2 (.word_append (by decide))) _

theorem tailShape_continues : tailShape.Continues := by
  have horder : (Shape.one Rule.sortClause).Continues :=
    .node (List.forall_mem_singleton.2 (.word_append (by decide))) _
  have hlimits : (Shape.oneIn [Rule.limitClause, .offsetClause, .fetchClause]).Continues := by
    apply Shape.Continues.node
    intro rule hrule
    simp only [List.mem_cons, List.not_mem_nil, or_false] at hrule
    obtain rfl | rfl | rfl := hrule <;> exact .word_append (by decide)
  have hlimit : (Shape.one Rule.selectLimit).Continues :=
    .node (List.forall_mem_singleton.2 (hlimits.append hlimits.many)) _
  exact horder.opt.append (hlimit.opt.append forLockingClause_continues.opt)

theorem setOperationPart_continues (q : Node Rule → Bool) :
    (Shape.node [Rule.setOperationPart] q).Continues :=
  .node (List.forall_mem_singleton.2 (.oneOf_append (by decide))) q

theorem openingShapes : OpeningShapes queries [.selectWithParens] where
  query hrule := by
    have hparts (q : Node Rule → Bool) := (setOperationPart_continues q).many
    have hprimary (q : Node Rule → Bool) :
        (Shape.node setPrimaries q).Opens (queries ++ [.selectWithParens]) :=
      .node setPrimaries q (by decide)
    unfold queries at hrule
    simp only [List.mem_cons, List.not_mem_nil, or_false] at hrule
    obtain rfl | rfl | rfl | rfl := hrule
    · exact .select_append
    · exact .append (.node [Rule.simpleSelectPrimary] _ (by decide))
        forLockingClause_continues.opt
    · have hterm : setTermShape.Opens (queries ++ [.selectWithParens]) :=
        (hprimary _).or (.node [Rule.setOperationSelect] _ (by decide))
      refine .or (.or ?_ ?_) (.or ?_ ?_)
      · exact hterm.append ((hparts _).append tailShape_continues)
      · exact (hprimary _).append ((hparts _).append tailShape_continues)
      · exact (hprimary _).append ((hparts _).append tailShape_continues)
      · exact (hprimary _).append ((hparts _).append
          ((setOperationPart_continues _).append ((hparts _).append tailShape_continues)))
    · exact .append (.node [Rule.selectWithParens] _ (by decide)) tailShape_continues
  group hrule := by
    obtain rfl := List.mem_singleton.1 hrule
    refine ⟨_, rfl, rfl, .or (.or (.node _ _ ?_) (.append (.node _ _ ?_) tailShape_continues))
      (.append (.node _ _ ?_) forLockingClause_continues.opt)⟩ <;> decide

end Postgres

/--
No query is told to be none. A parser of queries that runs behind a parenthesis and takes what is up
to the one that closes it adds one production. Where every parenthesis in that is closed by a token
of the same production, the parenthesis in front is told to open a subquery.
-/
theorem opensSubquery_of_query {c : Setting} (hstop : c.stop.kind = .eof) (depth : Nat)
    {ts : List Token} {n close : Nat} (hclose : (c.ahead ts).matchingParen? n = some close) :
    (∀ s t : ParserState MySql.Rule, s.builder.Sound → s.rest = ts.drop (n + 1) →
      MySql.parser depth .query c s = .ok () t → t.rest = ts.drop close →
      ∃ q, t.builder.pending.toList = s.builder.pending.toList ++ [.node q] ∧
        (q.ClosesParens → (c.ahead ts).opensSubquery n [.SELECT])) ∧
    ∀ s t : ParserState Postgres.Rule, s.builder.Sound → s.rest = ts.drop (n + 1) →
      Postgres.parser depth .query c s = .ok () t → t.rest = ts.drop close →
      ∃ q, t.builder.pending.toList = s.builder.pending.toList ++ [.node q] ∧
        (q.ClosesParens → (c.ahead ts).opensSubquery n [.SELECT]) :=
  ⟨fun _ _ => MySql.openingShapes.opensSubquery (by decide) (MySql.parser_forms c depth).query hstop
      hclose,
    fun _ _ => Postgres.openingShapes.opensSubquery (by decide)
      (Postgres.parser_forms c depth).query hstop hclose⟩

theorem Parser.exists_ok_of_closesOwn {ρ : Type} {p : Parser ρ Unit} {c : Setting}
    {s : ParserState ρ} (ts : List Token)
    (h : (match p c s with
      | .ok _ t => decide (t.rest = ts) &&
          Tree.allIn (Tree.closesOwn ·.children) t.builder.pending.toList
      | .error _ _ => false) = true) :
    ∃ t, p c s = .ok () t ∧ t.rest = ts ∧
      ∀ q, t.builder.pending.toList = [.node q] → q.ClosesParens := by
  cases hrun : p c s with
  | error => simp [hrun] at h
  | ok a t =>
    rw [hrun] at h
    obtain ⟨hrest, hall⟩ := (Bool.and_eq_true _ _).mp h
    refine ⟨t, rfl, of_decide_eq_true hrest, fun q hq m hm => ?_⟩
    rw [hq, Tree.allIn, Bool.and_eq_true] at hall
    exact Node.of_all hall.1 hm

theorem opensSubquery_of_query_nested :
    ((settingOf .mySql 9 []).ahead
      (Token.tokenize .mySql "(((SELECT 1) UNION (SELECT (2))) LIMIT 1)")).opensSubquery 0
        [.SELECT] ∧
    ((settingOf .postgreSql 9 []).ahead
      (Token.tokenize .postgreSql "(((SELECT 1) UNION (SELECT (2))) LIMIT 1)")).opensSubquery 0
        [.SELECT] := by
  constructor
  · have hsound : (.empty : Tree.Builder MySql.Rule).Sound := Nat.le_refl 0
    obtain ⟨t, ht, hrest, hparens⟩ := Parser.exists_ok_of_closesOwn
      (p := MySql.parser 9 .query) (c := settingOf .mySql 9 [])
      (s := ⟨(Token.tokenize .mySql "(((SELECT 1) UNION (SELECT (2))) LIMIT 1)").drop 1, .empty⟩)
      ((Token.tokenize .mySql "(((SELECT 1) UNION (SELECT (2))) LIMIT 1)").drop 16)
      (by decide +kernel)
    obtain ⟨q, hq, hopens⟩ := (opensSubquery_of_query rfl 9 (by decide +kernel)).1 _ t
      hsound rfl ht hrest
    exact hopens (hparens q hq)
  · have hsound : (.empty : Tree.Builder Postgres.Rule).Sound := Nat.le_refl 0
    obtain ⟨t, ht, hrest, hparens⟩ := Parser.exists_ok_of_closesOwn
      (p := Postgres.parser 9 .query) (c := settingOf .postgreSql 9 [])
      (s := ⟨(Token.tokenize .postgreSql "(((SELECT 1) UNION (SELECT (2))) LIMIT 1)").drop 1,
        .empty⟩)
      ((Token.tokenize .postgreSql "(((SELECT 1) UNION (SELECT (2))) LIMIT 1)").drop 16)
      (by decide +kernel)
    obtain ⟨q, hq, hopens⟩ := (opensSubquery_of_query rfl 9 (by decide +kernel)).2 _ t
      hsound rfl ht hrest
    exact hopens (hparens q hq)

end SqlScript
