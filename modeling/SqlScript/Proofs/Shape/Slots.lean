import Mathlib.Data.List.Basic
import SqlScript.Proofs.Shape.Basic

/-!
Which children a production has and how they are ordered, as far as its shape tells. All questions
here are about kinds of production only, so that they can be computed for a given grammar.
-/

namespace SqlScript

open SqlScript.Tree (Node Element nodesOf)

variable {ρ β : Type}

namespace Shape

def rules : Shape ρ → List ρ
  | nothing | token _ | tokens => []
  | node rules _ => rules
  | seq f g | alt f g => f.rules ++ g.rules
  | many f => f.rules

def ordered (ok : ρ → ρ → Bool) : Shape ρ → Bool
  | nothing | token _ | tokens | node _ _ => true
  | seq f g => f.ordered ok && g.ordered ok && f.rules.all fun a => g.rules.all (ok a)
  | alt f g => f.ordered ok && g.ordered ok
  | many f => f.ordered ok && f.rules.all fun a => f.rules.all (ok a)

def requires (p : ρ → Bool) : Shape ρ → Bool
  | nothing | token _ | tokens | many _ => false
  | node rules _ => rules.all p
  | seq f g => f.requires p || g.requires p
  | alt f g => f.requires p && g.requires p

/--
Must there be a token that belongs to no nested production?
-/
def requiresToken : Shape ρ → Bool
  | nothing | tokens | node _ _ | many _ => false
  | token _ => true
  | seq f g => f.requiresToken || g.requiresToken
  | alt f g => f.requiresToken && g.requiresToken

/--
Can there be only one production of a kind that satisfies `p`?
-/
def single (p : ρ → Bool) (f : Shape ρ) : Bool :=
  f.ordered fun a b => !(p a && p b)

/--
Does `p` hold of every production in front of one of which it holds?
-/
def leading (p : ρ → Bool) (f : Shape ρ) : Bool :=
  f.ordered fun a b => !p b || p a

def excludes (p q : ρ → Bool) (f : Shape ρ) : Bool :=
  (f.ordered fun a b => !(p a && q b) && !(q a && p b)) && f.rules.all fun a => !(p a && q a)

def inSlots : List (ρ → Bool) → ρ → ρ → Bool
  | [], _, _ => true
  | slot :: slots, a, b => (!slot b || !slots.any (· a)) && inSlots slots a b

/--
Are all productions in one of the slots, in the order of the slots, but for those that satisfy
`bare`?
-/
def fits (bare : ρ → Bool) (slots : List (ρ → Bool)) (f : Shape ρ) : Bool :=
  f.ordered (inSlots slots) &&
    f.rules.all fun rule =>
      slots.countP (· rule) ≤ 1 && (slots.any (· rule) || bare rule)

section

variable {f g : Shape ρ} {es : List (Element ρ)} {ok : ρ → ρ → Bool} {p : ρ → Bool}

theorem Matches.rule_mem (h : f.Matches es) {m : Node ρ} (hm : m ∈ nodesOf es) :
    m.rule ∈ f.rules := by
  induction f generalizing es with
  | nothing =>
    cases h
    contradiction
  | token q =>
    obtain ⟨t, rfl, -⟩ := h
    contradiction
  | tokens =>
    rw [Tree.nodesOf_eq_nil h.1] at hm
    contradiction
  | node rules q =>
    obtain ⟨k, rfl, hk, -⟩ := h
    rw [Tree.nodesOf_node, List.mem_singleton] at hm
    rwa [hm]
  | seq f g ihf ihg =>
    obtain ⟨xs, ys, rfl, hxs, hys⟩ := h
    rw [Tree.nodesOf_append, List.mem_append] at hm
    exact List.mem_append.2 (hm.imp (ihf hxs) (ihg hys))
  | alt f g ihf ihg =>
    exact List.mem_append.2 (h.imp (ihf · hm) (ihg · hm))
  | many f ih =>
    obtain ⟨parts, rfl, hparts⟩ := h
    rw [Tree.nodesOf_flatten, List.mem_flatten] at hm
    obtain ⟨_, hms, hm⟩ := hm
    obtain ⟨xs, hxs, rfl⟩ := List.mem_map.1 hms
    exact ih (hparts xs hxs) hm

theorem Matches.of_mem_many {rules : List ρ} {q : Node ρ → Bool}
    (h : (many (node rules q)).Matches es) {m : Node ρ} (hm : m ∈ nodesOf es) :
    m.rule ∈ rules ∧ q m := by
  obtain ⟨parts, rfl, hparts⟩ := h
  rw [Tree.nodesOf_flatten, List.mem_flatten] at hm
  obtain ⟨_, hms, hm⟩ := hm
  obtain ⟨xs, hxs, rfl⟩ := List.mem_map.1 hms
  obtain ⟨n, rfl, hn⟩ := hparts xs hxs
  rw [Tree.nodesOf_node, List.mem_singleton] at hm
  rwa [hm]

theorem Matches.pairwise (h : f.Matches es) (hf : f.ordered ok) :
    (nodesOf es).Pairwise fun n m => ok n.rule m.rule := by
  induction f generalizing es with
  | nothing =>
    cases h
    exact .nil
  | token q =>
    obtain ⟨t, rfl, -⟩ := h
    exact .nil
  | tokens =>
    rw [Tree.nodesOf_eq_nil h.1]
    exact .nil
  | node rules q =>
    obtain ⟨k, rfl, -⟩ := h
    exact List.pairwise_singleton _ _
  | seq f g ihf ihg =>
    obtain ⟨xs, ys, rfl, hxs, hys⟩ := h
    simp only [ordered, Bool.and_eq_true, List.all_eq_true] at hf
    rw [Tree.nodesOf_append, List.pairwise_append]
    exact ⟨ihf hxs hf.1.1, ihg hys hf.1.2,
      fun n hn m hm => hf.2 _ (hxs.rule_mem hn) _ (hys.rule_mem hm)⟩
  | alt f g ihf ihg =>
    simp only [ordered, Bool.and_eq_true] at hf
    exact h.elim (ihf · hf.1) (ihg · hf.2)
  | many f ih =>
    obtain ⟨parts, rfl, hparts⟩ := h
    simp only [ordered, Bool.and_eq_true, List.all_eq_true] at hf
    induction parts with
    | nil => exact .nil
    | cons xs parts ihparts =>
      have hparts' : ∀ ys ∈ parts, f.Matches ys :=
        fun ys hys => hparts ys (List.mem_cons_of_mem _ hys)
      have hxs := hparts xs List.mem_cons_self
      have hrest : (many f).Matches parts.flatten := ⟨parts, rfl, hparts'⟩
      rw [List.flatten_cons, Tree.nodesOf_append, List.pairwise_append]
      exact ⟨ih hxs hf.1, ihparts hparts',
        fun n hn m hm => hf.2 _ (hxs.rule_mem hn) _ (hrest.rule_mem hm)⟩

theorem Matches.exists_of_requires (h : f.Matches es) (hf : f.requires p) :
    ∃ m ∈ nodesOf es, p m.rule := by
  induction f generalizing es with
  | nothing | token | tokens | many => contradiction
  | node rules q =>
    obtain ⟨k, rfl, hk, -⟩ := h
    exact ⟨k, List.mem_singleton_self _, List.all_eq_true.1 hf _ hk⟩
  | seq f g ihf ihg =>
    obtain ⟨xs, ys, rfl, hxs, hys⟩ := h
    rw [Tree.nodesOf_append]
    rw [requires, Bool.or_eq_true] at hf
    obtain hf | hg := hf
    · obtain ⟨m, hm, hp⟩ := ihf hxs hf
      exact ⟨m, List.mem_append_left _ hm, hp⟩
    · obtain ⟨m, hm, hp⟩ := ihg hys hg
      exact ⟨m, List.mem_append_right _ hm, hp⟩
  | alt f g ihf ihg =>
    rw [requires, Bool.and_eq_true] at hf
    exact h.elim (ihf · hf.1) (ihg · hf.2)

theorem Matches.exists_token (h : f.Matches es) (hf : f.requiresToken) : ∃ t, .token t ∈ es := by
  induction f generalizing es with
  | nothing | tokens | node | many => contradiction
  | token =>
    obtain ⟨t, rfl, -⟩ := h
    exact ⟨t, List.mem_singleton_self _⟩
  | seq f g ihf ihg =>
    obtain ⟨xs, ys, rfl, hxs, hys⟩ := h
    rw [requiresToken, Bool.or_eq_true] at hf
    obtain hf | hg := hf
    · obtain ⟨t, ht⟩ := ihf hxs hf
      exact ⟨t, List.mem_append_left _ ht⟩
    · obtain ⟨t, ht⟩ := ihg hys hg
      exact ⟨t, List.mem_append_right _ ht⟩
  | alt f g ihf ihg =>
    rw [requiresToken, Bool.and_eq_true] at hf
    exact h.elim (ihf · hf.1) (ihg · hf.2)

end

section

variable {l : List (Node ρ)} {F G H : Node ρ → List β}

theorem flatMap_filter (p : Node ρ → Bool) :
    (l.filter p).flatMap F = l.flatMap fun m => if p m then F m else [] := by
  induction l with
  | nil => rfl
  | cons n l ih =>
    rw [List.filter_cons, List.flatMap_cons, ← ih]
    split <;> rfl

theorem flatMap_split (heq : ∀ m ∈ l, F m = G m ++ H m)
    (hpairs : l.Pairwise fun n m => H n = [] ∨ G m = [])
    (hone : ∀ m ∈ l, G m = [] ∨ H m = []) : l.flatMap F = l.flatMap G ++ l.flatMap H := by
  induction l with
  | nil => rfl
  | cons n l ih =>
    obtain ⟨hn, hpairs⟩ := List.pairwise_cons.1 hpairs
    have ih := ih (fun m hm => heq m (List.mem_cons_of_mem _ hm)) hpairs
      fun m hm => hone m (List.mem_cons_of_mem _ hm)
    rw [List.flatMap_cons, List.flatMap_cons, List.flatMap_cons, ih, heq n List.mem_cons_self]
    by_cases hH : H n = []
    · simp [hH]
    · have hG : l.flatMap G = [] :=
        List.flatMap_eq_nil_iff.2 fun m hm => (hn m hm).resolve_left hH
      simp [hG, (hone n List.mem_cons_self).resolve_right hH]

/-- A list whose elements are in the order of the slots, told slot by slot. -/
theorem flatMap_eq_slots {slots : List (ρ → Bool)}
    (hordered : l.Pairwise fun n m => inSlots slots n.rule m.rule)
    (honce : ∀ m ∈ l, slots.countP (· m.rule) ≤ 1)
    (hbare : ∀ m ∈ l, slots.any (· m.rule) = false → F m = []) :
    l.flatMap F = slots.flatMap fun slot => (l.filter (slot ·.rule)).flatMap F := by
  induction slots generalizing F with
  | nil => exact List.flatMap_eq_nil_iff.2 fun m hm => hbare m hm rfl
  | cons slot slots ih =>
    have hsplit : l.flatMap F = (l.flatMap fun m => if slot m.rule then F m else []) ++
        l.flatMap fun m => if slot m.rule then [] else F m := by
      apply flatMap_split
      · intro m _
        split <;> simp
      · apply hordered.imp_of_mem
        intro n m hn _ hnm
        simp only [inSlots, Bool.and_eq_true, Bool.or_eq_true, Bool.not_eq_true'] at hnm
        by_cases hm : slot m.rule
        · left
          split
          · rfl
          · rename_i hslot
            apply hbare n hn
            rw [List.any_cons, hnm.1.resolve_left (by simp [hm])]
            simpa using hslot
        · right
          simp [hm]
      · intro m _
        split
        · exact .inr rfl
        · exact .inl rfl
    have hrest := ih (F := fun m => if slot m.rule then [] else F m)
      (hordered.imp fun h => ((Bool.and_eq_true _ _).mp h).2)
      (fun m hm => Nat.le_trans (by rw [List.countP_cons]; omega) (honce m hm))
      (fun m hm hany => by
        split
        · rfl
        · rename_i hslot
          apply hbare m hm
          simpa [hslot] using hany)
    rw [hsplit, hrest, List.flatMap_cons, flatMap_filter]
    congr 1
    -- What is in a later slot is not in this one.
    apply List.flatMap_congr
    intro later hlater
    apply List.flatMap_congr
    intro m hm
    rw [List.mem_filter] at hm
    have hone := honce m hm.1
    rw [List.countP_cons] at hone
    have hpos : 0 < slots.countP (· m.rule) := List.countP_pos_iff.2 ⟨later, hlater, hm.2⟩
    split
    · rename_i hslot
      rw [if_pos hslot] at hone
      omega
    · rfl

end

end Shape

namespace Tree.Node

variable {n m : Node ρ} {p : ρ → Bool}

namespace Formed

variable [Grammar ρ]

theorem rule_mem (h : n.Formed) (hm : m ∈ n.childNodes) : m.rule ∈ (Grammar.shape n.rule).rules :=
  h.matches_children.rule_mem hm

theorem rule_mem_of_rule (h : n.Formed) {rule : ρ} (hrule : n.rule = rule)
    (hm : m ∈ n.childNodes) : m.rule ∈ (Grammar.shape rule).rules :=
  hrule ▸ h.rule_mem hm

theorem flatMap_childNodes (h : n.Formed) {bare : ρ → Bool} {slots : List (ρ → Bool)}
    (hfits : (Grammar.shape n.rule).fits bare slots) {F : Node ρ → List β}
    (hbare : ∀ m ∈ n.childNodes, bare m.rule → F m = []) :
    n.childNodes.flatMap F = slots.flatMap fun slot => (n.childrenThat slot).flatMap F := by
  rw [Shape.fits, Bool.and_eq_true, List.all_eq_true] at hfits
  have hrule : ∀ m ∈ n.childNodes, slots.countP (· m.rule) ≤ 1 ∧
      (slots.any (· m.rule) ∨ bare m.rule) := by
    intro m hm
    simpa using hfits.2 _ (h.rule_mem hm)
  apply Shape.flatMap_eq_slots
  · exact h.matches_children.pairwise hfits.1
  · exact fun m hm => (hrule m hm).1
  · intro m hm hany
    apply hbare m hm
    exact (hrule m hm).2.resolve_left (by simp [hany])

theorem childrenThat_eq (h : n.Formed) (hsingle : (Grammar.shape n.rule).single p) :
    n.childrenThat p = (n.findChild? p).toList := by
  have hpairs := (h.matches_children.pairwise hsingle).filter (p ·.rule)
  have hhead : n.findChild? p = (n.childrenThat p).head? := List.head?_filter.symm
  rw [hhead]
  change (n.childrenThat p).Pairwise _ at hpairs
  generalize hl : n.childrenThat p = l at hpairs
  match l with
  | [] => rfl
  | [m] => rfl
  | a :: b :: rest =>
    have ha : p a.rule := rule_of_mem_childrenThat (hl ▸ List.mem_cons_self)
    have hb : p b.rule := rule_of_mem_childrenThat (hl ▸ List.mem_cons_of_mem _ List.mem_cons_self)
    have := List.rel_of_pairwise_cons hpairs List.mem_cons_self
    simp [ha, hb] at this

theorem exists_child (h : n.Formed) {rule : ρ} (hrule : n.rule = rule) (p : ρ → Bool)
    (hrequires : (Grammar.shape rule).requires p) : ∃ m, n.findChild? p = some m := by
  subst hrule
  obtain ⟨m, hm, hp⟩ := h.matches_children.exists_of_requires hrequires
  exact Option.isSome_iff_exists.1 (List.find?_isSome.2 ⟨m, hm, hp⟩)

theorem findChild?_of_single (h : n.Formed) (hsingle : (Grammar.shape n.rule).single p)
    (hm : n.findChild? p = some m) {q : ρ → Bool} (hq : ∀ rule, q rule → p rule) :
    n.findChild? q = if q m.rule then some m else none := by
  have hchildren : n.childNodes.filter (p ·.rule) = [m] := by
    have hone := h.childrenThat_eq hsingle
    rw [hm] at hone
    exact hone
  have hfind : n.findChild? q = (n.childNodes.filter (p ·.rule)).find? (q ·.rule) := by
    rw [List.find?_filter]
    unfold findChild?
    congr 1
    funext k
    cases hk : q k.rule
    · simp
    · simp [hq _ hk]
  rw [hfind, hchildren]
  simp [List.find?_cons]
  split <;> simp_all

theorem childrenThat_eq_nil (h : n.Formed) {rule : ρ} (hrule : n.rule = rule) {q : ρ → Bool}
    (hexcludes : (Grammar.shape rule).excludes p q) (hm : n.findChild? p = some m) :
    n.childrenThat q = [] := by
  subst hrule
  rw [Shape.excludes, Bool.and_eq_true, List.all_eq_true] at hexcludes
  have hpairs : n.childNodes.Pairwise fun a b =>
      !(p a.rule && q b.rule) && !(q a.rule && p b.rule) := h.matches_children.pairwise hexcludes.1
  have hself : ∀ a ∈ n.childNodes, !(p a.rule && q a.rule) :=
    fun a ha => hexcludes.2 _ (h.rule_mem ha)
  have hapart : ∀ a ∈ n.childNodes, ∀ b ∈ n.childNodes,
      !(p a.rule && q b.rule) && !(q a.rule && p b.rule) := by
    apply hpairs.forall_of_forall_of_flip
    · grind
    · exact hpairs.imp fun hab => by grind [flip]
  have hp := rule_of_findChild? hm
  apply List.filter_eq_nil_iff.2
  intro k hk hq
  have := hapart m (List.mem_of_find?_eq_some hm) k hk
  simp [hp, hq] at this

theorem firstChild?_eq (h : n.Formed) {rule : ρ} (hrule : n.rule = rule) (p : ρ → Bool)
    (hp : (Grammar.shape rule).requires p ∧ (Grammar.shape rule).leading p) :
    n.firstChild? = n.findChild? p := by
  subst hrule
  obtain ⟨hrequires, hleading⟩ := hp
  obtain ⟨m, hm, hp⟩ := h.matches_children.exists_of_requires hrequires
  have hpairs := h.matches_children.pairwise hleading
  change m ∈ n.childNodes at hm
  change n.childNodes.Pairwise _ at hpairs
  unfold firstChild? findChild?
  cases hnodes : n.childNodes with
  | nil =>
    rw [hnodes] at hm
    contradiction
  | cons a rest =>
    rw [hnodes] at hm hpairs
    have ha : p a.rule := by
      obtain rfl | hm := List.mem_cons.1 hm
      · exact hp
      · simpa [hp] using List.rel_of_pairwise_cons hpairs hm
    rw [List.find?_cons_of_pos (by exact ha)]
    rfl

end Formed

end Tree.Node

end SqlScript
