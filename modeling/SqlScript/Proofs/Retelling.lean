import Mathlib.Data.List.Forall2
import SqlScript.Proofs.Joined.Entries
import SqlScript.Proofs.Layout

/-!
Two texts that say the same, whatever it is that their tokens are compared by: what is built of the
one is built of the other, and where the one is refused so is the other.
-/

namespace SqlScript

open SqlScript.Simulation
open SqlScript.Tree

/--
How two texts are held against each other: which tokens and which parts of trees of the second one
stand for those of the first, and which places. Productions stand for each other if their children
do.
-/
structure Retelling (ρ : Type) where
  token : Token → Token → Prop
  part : Element ρ → Element ρ → Prop
  place : Nat → Nat → Prop
  folded {t t' : Token} : token t t' → t'.kind.folded = t.kind.folded
  start {t t' : Token} : token t t' → place t.span.start t'.span.start
  stop {t t' : Token} : token t t' → place t.span.stop t'.span.stop
  origin : place 0 0
  leaf {t t' : Token} : token t t' → part (.token t) (.token t')
  node {o o' : Nat} {es es' : List (Element ρ)} (rule : ρ) : place o o' → List.Forall₂ part es es' →
    part (.node ⟨rule, Builder.spanOf o es, es⟩) (.node ⟨rule, Builder.spanOf o' es', es'⟩)
  sort {e e' : Element ρ} : part e e' → e'.node?.isSome = e.node?.isSome

namespace Retelling

theorem forall₂_iff_map_eq {α β γ : Type} {f : α → γ} {g : β → γ} {as : List α} {bs : List β} :
    List.Forall₂ (fun a b => g b = f a) as bs ↔ bs.map g = as.map f := by
  rw [eq_comm, ← List.forall₂_eq_eq_eq, List.forall₂_map_left_iff, List.forall₂_map_right_iff]
  simp only [eq_comm]

variable {ρ : Type} (r : Retelling ρ)

/--
The second failure has the same reason as the first, at a token that stands for that of the first.
-/
def Refusal (f f' : Failure) : Prop :=
  f'.complaint = f.complaint ∧ r.token f.token f'.token

/--
Both texts have trees, one of which stands for the other, or both are refused alike.
-/
inductive Answer : Except Failure (Node ρ) → Except Failure (Node ρ) → Prop
  | ok {n n' : Node ρ} (h : r.part (.node n) (.node n')) : Answer (.ok n) (.ok n')
  | error {f f' : Failure} (h : r.Refusal f f') : Answer (.error f) (.error f')

structure Builds (b b' : Builder ρ) : Prop where
  opened : b'.opened = b.opened
  pending : List.Forall₂ r.part b.pending.toList b'.pending.toList
  offset : r.place b.offset b'.offset

namespace Builds

variable {r} {b b' : Builder ρ}

theorem empty : r.Builds .empty .empty where
  opened := rfl
  pending := .nil
  offset := r.origin

theorem size_eq (h : r.Builds b b') : b'.pending.size = b.pending.size := by
  have hlength := h.pending.length_eq
  rwa [Array.length_toList, Array.length_toList, eq_comm] at hlength

theorem start (h : r.Builds b b') (rule : ρ) : r.Builds (b.start rule) (b'.start rule) where
  opened := by simp [Builder.start, h.opened, h.size_eq]
  pending := h.pending
  offset := h.offset

theorem startAt (h : r.Builds b b') (checkpoint : Nat) (rule : ρ) :
    r.Builds (b.startAt checkpoint rule) (b'.startAt checkpoint rule) where
  opened := by
    have hfloor : b'.floor = b.floor := by
      unfold Builder.floor
      rw [h.opened]
    simp [Builder.startAt, h.opened, hfloor]
  pending := h.pending
  offset := h.offset

theorem token (h : r.Builds b b') {t t' : Token} (ht : r.token t t') :
    r.Builds (b.token t) (b'.token t') where
  opened := h.opened
  pending := by
    rw [Builder.pending_token, Builder.pending_token, Array.toList_push, Array.toList_push]
    exact List.rel_append h.pending (.cons (r.leaf ht) .nil)
  offset := r.stop ht

theorem setOffset (h : r.Builds b b') {offset offset' : Nat} (hoffset : r.place offset offset') :
    r.Builds (b.setOffset offset) (b'.setOffset offset') where
  opened := h.opened
  pending := h.pending
  offset := hoffset

theorem finish (h : r.Builds b b') : r.Builds b.finish b'.finish := by
  cases hopened : b.opened with
  | nil =>
    have hfinish : ∀ b : Builder ρ, b.opened = [] → b.finish = b := by
      intro b hb
      unfold Builder.finish
      rw [hb]
    rw [hfinish b hopened, hfinish b' (h.opened.trans hopened)]
    exact h
  | cons top opened =>
    obtain ⟨rule, first⟩ := top
    have hopened' := h.opened.trans hopened
    constructor
    · rw [Builder.opened_finish hopened, Builder.opened_finish hopened']
    · rw [Builder.pending_finish hopened, Builder.pending_finish hopened']
      exact List.rel_append (List.forall₂_take _ h.pending)
        (.cons (r.node rule h.offset (List.forall₂_drop _ h.pending)) .nil)
    · rw [Builder.offset_finish, Builder.offset_finish]
      exact h.offset

theorem tree? (h : r.Builds b b') :
    Option.Rel (fun n n' => r.part (.node n) (.node n')) b.tree? b'.tree? := by
  have hclosed : ∀ n : Nat, r.Builds (n.repeat Builder.finish b) (n.repeat Builder.finish b') := by
    intro n
    induction n with
    | zero => exact h
    | succ n ih => exact ih.finish
  have hpending := (hclosed b.opened.length).pending
  unfold Builder.tree?
  rw [h.opened]
  generalize (b.opened.length.repeat Builder.finish b).pending.toList = es at hpending
  generalize (b.opened.length.repeat Builder.finish b').pending.toList = es' at hpending
  cases hpending with
  | nil => exact .none
  | @cons e e' es es' he hes =>
    have hsort := r.sort he
    cases hes with
    | nil => cases e <;> cases e' <;> first | exact .some he | exact .none | contradiction
    | cons => cases e <;> cases e' <;> exact .none

end Builds

structure Settings (c c' : Setting) : Prop where
  dialect : c'.dialect = c.dialect
  limit : c'.limit = c.limit
  stop : r.token c.stop c'.stop
  eof : c.stop.kind = .eof

theorem alike {ts ts' : List Token} (h : List.Forall₂ r.token ts ts') : Alike ts ts' := by
  induction h with
  | nil => exact .nil
  | cons ht _ ih => exact .cons (r.folded ht) ih

variable {r} {c c' : Setting}

theorem Settings.token (h : r.Settings c c') {ts ts' : List Token}
    (hts : List.Forall₂ r.token ts ts') (n : Nat) :
    r.token ((c.ahead ts).token n) ((c'.ahead ts').token n) := by
  change r.token (ts[n]?.getD c.stop) (ts'[n]?.getD c'.stop)
  induction hts generalizing n with
  | nil => exact h.stop
  | cons ht _ ih =>
    cases n with
    | zero => exact ht
    | succ n => exact ih n

theorem Settings.kind_stop (h : r.Settings c c') : c'.stop.kind = .eof :=
  TokenKind.congr_folded (f := (· = .eof)) (by simp) (r.folded h.stop) |>.mpr h.eof

/--
Both runs have the same tokens in front, and have built the same so far.
-/
def simulation (h : r.Settings c c') : Simulation ρ where
  small := c
  large := c'
  rel s s' := List.Forall₂ r.token s.rest s'.rest ∧ r.Builds s.builder s'.builder
  mark m m' := m' = m
  excused _ := False
  matched := r.Refusal
  sees hs :=
    ⟨h.dialect, Nat.le_of_eq h.limit.symm, h.eof, h.kind_stop, r.alike hs.1, .inl hs.1.length_eq,
      fun _ => hs.1.length_eq⟩
  advance := by
    rintro ⟨ts, b⟩ ⟨ts', b'⟩ ⟨hrest, hb⟩ hne
    cases hrest with
    | nil => contradiction
    | cons ht hts => exact ⟨hts, hb.token ht⟩
  start rule hs := ⟨hs.1, hs.2.start rule⟩
  startAt := by
    rintro s s' m _ rule hs rfl
    exact ⟨hs.1, hs.2.startAt _ rule⟩
  finish hs _ := ⟨hs.1, hs.2.finish⟩
  checkpoint hs := hs.2.size_eq
  complain _ hs := .inr ⟨rfl, h.token hs.1 0⟩
  lenient hs := .inl hs.1.length_eq
  tooDeep := by
    intro hlimit
    have hlimit : c.limit < c'.limit := hlimit
    rw [h.limit] at hlimit
    exact absurd hlimit (Nat.lt_irrefl _)

theorem exact_simulation (h : r.Settings c c') : (simulation h).Exact where
  length_eq _ _ hs := hs.1.length_eq
  behind := rfl

open SqlScript.Parser

theorem answer_takeTree (h : r.Settings c c') {s s' : ParserState ρ}
    (hs : (simulation h).rel s s') :
    r.Answer (answer ((takeTree : Parser ρ (Node ρ)) c s))
      (answer ((takeTree : Parser ρ (Node ρ)) c' s')) := by
  have htoken := h.token hs.1 0
  have hend : (c'.ahead s'.rest).atEnd = (c.ahead s.rest).atEnd :=
    TokenKind.alike_congr (r.folded htoken) .eof
  have htree := (hs.2.setOffset (r.start h.stop)).tree?
  rw [takeTree_eq, takeTree_eq, hend]
  unfold expected
  split
  · generalize (s.builder.setOffset c.stop.span.start).tree? = tree at htree
    generalize (s'.builder.setOffset c'.stop.span.start).tree? = tree' at htree
    cases htree with
    | none => exact .error ⟨rfl, htoken⟩
    | some hpart => exact .ok hpart
  · exact .error ⟨rfl, htoken⟩

theorem answer_bind_takeTree (h : r.Settings c c') {p p' : Parser ρ Unit} {s s' : ParserState ρ}
    (hp : (simulation h).Outcome (fun _ t t' => (simulation h).Kept 0 s t t') (p c s) (p' c' s')) :
    r.Answer (answer ((p >>= fun _ => takeTree) c s))
      (answer ((p' >>= fun _ => takeTree) c' s')) := by
  generalize hr : p c s = a at hp
  generalize hr' : p' c' s' = a' at hp
  cases hp with
  | ok ht =>
    rw [bind_ok hr, bind_ok hr']
    exact answer_takeTree h ht.rel
  | error hf =>
    rw [bind_error hr, bind_error hr']
    exact .error hf
  | excused hexcused => exact hexcused.elim
  | gone hgone => exact absurd hgone (not_gone rfl)

theorem findSome?_invalid? {ts ts' : List Token} (h : List.Forall₂ r.token ts ts') :
    Option.Rel r.Refusal (ts.findSome? begin.invalid?) (ts'.findSome? begin.invalid?) := by
  induction h with
  | nil => exact .none
  | @cons t t' ts ts' ht _ ih =>
    have hinvalid : Option.Rel r.Refusal (begin.invalid? t) (begin.invalid? t') := by
      unfold begin.invalid?
      obtain hkind | ⟨name, name', hname, hname', -⟩ := TokenKind.eq_or_of_folded (r.folded ht)
      · rw [hkind]
        cases t.kind with
        | invalid reason => exact .some ⟨rfl, ht⟩
        | _ => exact .none
      · rw [hname, hname']
        exact .none
    rw [List.findSome?_cons, List.findSome?_cons]
    generalize begin.invalid? t = failure at hinvalid
    generalize begin.invalid? t' = failure' at hinvalid
    cases hinvalid with
    | none => exact ih
    | some hrefusal => exact .some hrefusal

theorem settings_tokenize {d : Dialect} {source source' : String}
    (h : List.Forall₂ r.token (Token.tokenize d source) (Token.tokenize d source')) (limit : Nat) :
    r.Settings (settingOf d limit (Token.tokenize d source))
      (settingOf d limit (Token.tokenize d source')) := by
  have hstop (source : String) : settingOf d limit (Token.tokenize d source) =
      ⟨d, limit, .eof source.utf8ByteSize⟩ := by
    unfold settingOf Token.tokenize
    rw [List.getLast?_concat]
    rfl
  rw [hstop, hstop]
  refine ⟨rfl, rfl, ?_, rfl⟩
  have hreverse := List.forall₂_reverse_iff.2 h
  unfold Token.tokenize at hreverse
  rw [List.reverse_concat, List.reverse_concat] at hreverse
  exact (List.forall₂_cons.1 hreverse).1

theorem answer_run {form : ScriptForm ρ} {statement : Parser ρ Unit} {dialect : Dialect}
    {options : Options} {source source' : String}
    (hstatement : Joinable dialect options.maxDepth statement)
    (h : List.Forall₂ r.token (Token.tokenize dialect source) (Token.tokenize dialect source')) :
    r.Answer (parseTree.run (form.script statement) dialect options (Token.tokenize dialect source))
      (parseTree.run (form.script statement) dialect options
        (Token.tokenize dialect source')) := by
  have hinvalid := findSome?_invalid? h
  have hsettings := settings_tokenize h options.maxDepth
  have hrel : (simulation hsettings).rel (initial (Token.tokenize dialect source))
      (initial (Token.tokenize dialect source')) := by
    refine ⟨?_, .empty⟩
    unfold initial
    rw [List.dropLast_eq_take, List.dropLast_eq_take, ← h.length_eq]
    exact List.forall₂_take _ h
  have hscript := (exact_simulation hsettings).script
    (hstatement.respects (simulation hsettings) rfl rfl rfl) form hrel
  rw [run_eq, run_eq]
  generalize (Token.tokenize dialect source).findSome? begin.invalid? = failure at hinvalid
  generalize (Token.tokenize dialect source').findSome? begin.invalid? = failure' at hinvalid
  cases hinvalid with
  | none => exact answer_bind_takeTree hsettings hscript
  | some hrefusal => exact .error hrefusal

end Retelling

end SqlScript
