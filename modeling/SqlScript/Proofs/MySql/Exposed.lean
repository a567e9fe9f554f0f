import SqlScript.Proofs.Lineage.Exposed
import SqlScript.Proofs.MySql.Mirror
import SqlScript.Proofs.MySql.Telling

/-!
What the statements of a MySQL script tell of the productions of its tree: of what is exposed all is
told, but for the conditions of a join behind the first one.
-/

namespace SqlScript.MySql

open SqlScript.Tree (Node Element)

def holders : List Rule := [
  .atomTableItem, .insertStatement, .singleUpdateStatement, .singleDeleteStatement,
  .multipleDeleteStatement]

def isSought (rule : Rule) : Bool :=
  holders.contains rule || rule == .limitClause || rule == .orderByClause

def isReference (rule rule' : Rule) : Bool :=
  holders.contains rule && rule' == .tableName

/--
The grammar takes any number of conditions behind an inner join, and the readers take the first one.
-/
def route : Route Rule where
  leftOut n m := n.rule = .innerJoin ∧ m.rule = .joinSpec ∧ n.child? .joinSpec ≠ some m
  repeated _ _ := False
  passed := opened.contains
  sought := isSought
  refers := isReference

variable {c : Context} {text : List Char} {n m k : Node Rule}

theorem look_of_ne_text (h : lineage.look n ≠ .text) : lineage.look n = look n.rule := by
  cases hparsed : isUnparsed n with
  | false => exact if_neg (by simp [hparsed])
  | true => exact absurd (if_pos hparsed) h

theorem opened_of_inside (h : lineage.look n = .inside) : n.rule ∈ opened := by
  have hkinds : ∀ r ∈ Rule.all, look r = .inside → r ∈ opened := by decide
  exact hkinds _ n.rule.mem_all ((look_of_ne_text (by simp [h])).symm.trans h)

theorem rule_of_name (h : lineage.look n = .name) : n.rule = .tableName := by
  have hnames : ∀ r ∈ Rule.all, look r = .name → r = .tableName := by decide
  exact hnames _ n.rule.mem_all ((look_of_ne_text (by simp [h])).symm.trans h)

theorem shown_eq (h : n.rule ≠ .innerJoin) : shown n = n.childNodes :=
  if_neg h

/-- Of an inner join all is read but the conditions behind the first one. -/
theorem mem_shown_iff (hn : n.Formed) :
    m ∈ shown n ↔ m ∈ n.childNodes ∧ ¬ route.leftOut n m := by
  by_cases hrule : n.rule = .innerJoin
  · obtain ⟨item, conditions, hnodes, hitem, hconditions⟩ := Read.exists_innerJoin hn hrule
    have hne : item.rule ≠ .joinSpec := by
      rintro heq
      rw [heq] at hitem
      exact absurd hitem (by decide)
    have hfirst : n.child? .joinSpec = conditions.head? := by
      unfold Node.child? Node.findChild?
      rw [hnodes, List.find?_cons_of_neg (by simpa using hne)]
      cases conditions with
      | nil => rfl
      | cons k rest => rw [List.find?_cons_of_pos (by simp [hconditions k List.mem_cons_self])]; rfl
    have hshown : shown n = item :: conditions.head?.toList := by
      unfold shown
      rw [if_pos hrule, hnodes]
      cases conditions with
      | nil => simp [hne]
      | cons k rest =>
        have hne : (item.rule == .joinSpec) = false := by simpa using hne
        simp [hne, List.findIdx_cons, hconditions k List.mem_cons_self]
    have hleft : route.leftOut n m ↔ m.rule = .joinSpec ∧ conditions.head? ≠ some m := by
      rw [← hfirst]
      exact and_iff_right hrule
    rw [hshown, hleft, hnodes, List.mem_cons, List.mem_cons, Option.mem_toList]
    constructor
    · rintro (rfl | h)
      · exact ⟨.inl rfl, fun h => hne h.1⟩
      · exact ⟨.inr (List.mem_of_mem_head? h), fun h' => h'.2 h⟩
    · rintro ⟨rfl | hmem, h⟩
      · exact .inl rfl
      · right
        by_contra hhead
        exact h ⟨hconditions m hmem, hhead⟩
  · rw [shown_eq hrule]
    exact ⟨fun h => ⟨h, fun hleft => hrule hleft.1⟩, And.left⟩

theorem bare_of_contains (hn : n.Formed) (hlook : look n.rule ≠ .inside) (htext : look n.rule ≠ .text)
    (hm : m ∈ n.childNodes) (hk : m.Contains k) : look k.rule = .bare := by
  have hrules : ∀ r ∈ Rule.all, look r ≠ .inside → look r ≠ .text →
      ∀ r' ∈ (shape r).rules, look r' = .bare := by decide
  have hbare := hrules _ n.rule.mem_all hlook htext _ (hn.rule_mem hm)
  have hformed := hn.child hm
  clear hm
  induction hk with
  | refl => exact hbare
  | child hmem _ ih =>
    exact ih (hrules _ (Rule.mem_all _) (by simp [hbare]) (by simp [hbare]) _
      (hformed.rule_mem hmem)) (hformed.child hmem)

set_option maxRecDepth 2000 in
theorem holds_tableName {rule : Rule} (h : .tableName ∈ (shape rule).rules) :
    holders.contains rule := by
  have hrules : ∀ r ∈ Rule.all, .tableName ∈ (shape r).rules → holders.contains r := by decide
  exact hrules rule rule.mem_all h

theorem lineage_keeps : lineage.Keeps route where
  heard {rule} h := by
    have hkinds : ∀ r ∈ Rule.all, opened.contains r → lineage.kinds.contains r := by decide
    rw [lineage_hears]
    exact hkinds _ rule.mem_all h
  passes {n m} hn hlook hm := by
    obtain ⟨hmem, htaken⟩ := (mem_shown_iff hn).1 hm
    exact .single ⟨hmem, List.contains_iff_mem.2 (opened_of_inside hlook), htaken⟩
  shows hn _ hm hleft hk _ := ⟨_, (mem_shown_iff hn).2 ⟨hm, hleft⟩, hk⟩
  ends {s n m k} hn hinside htext hm _ hk hsought := by
    rw [look_of_ne_text htext] at hinside htext
    have hbare := bare_of_contains hn hinside htext hm hk.contains
    have hkinds : ∀ r ∈ Rule.all, isSought r → look r ≠ .bare := by decide
    exact hkinds _ k.rule.mem_all hsought hbare
  name {n m} h hm := by
    change isReference n.rule m.rule at h
    rw [isReference, Bool.and_eq_true, beq_iff_eq, List.contains_iff_mem] at h
    have hholders : ∀ r ∈ holders, look r = .inside ∧ r ≠ .innerJoin ∧ r ≠ .dmlStatement ∧
        isSought r := by decide
    obtain ⟨hinside, hjoin, hdml, hsought⟩ := hholders _ h.1
    refine ⟨hsought, (look_eq hdml).trans hinside, ?_, ?_⟩
    · change m ∈ shown n
      rwa [shown_eq hjoin]
    · exact (look_eq (by rw [h.2]; decide)).trans ((congrArg look h.2).trans (by decide))
  refers {n m} hn _ hm hname := by
    have hmem := ((mem_shown_iff hn).1 hm).1
    have hrule := rule_of_name hname
    have hin := hn.rule_mem hmem
    rw [hrule] at hin
    refine ⟨hmem, ?_⟩
    change isReference n.rule m.rule
    rw [isReference, hrule, holds_tableName hin]
    rfl
  apart {n text} _ hlaid _ := by
    left
    have hpairs := (hlaid.nodes rfl (.refl n)).childNodes_pairwise
    exact (hpairs.sublist (shown_sublist n)).imp .inl

theorem occupied_of_name (hn : n.Genuine c text) (h : lineage.look n = .name) :
    n.span.start < n.span.stop := by
  obtain ⟨m, hm⟩ := hn.formed.exists_child (rule_of_name h) (· == .fullId) (by decide)
  have hmem := Node.mem_childNodes_of_findChild? hm
  exact hn.occupied_of_child hmem
    ((hn.child hmem).occupied (by rw [Node.rule_of_child? hm]; decide))

section

variable {good : Excerpt → Prop} {root : Node Rule} (hc : c.Cuts text good)
  (hroot : root.Genuine c text)

include hc hroot

theorem statementOf_told (hn : n ∈ slots root) :
    n.Genuine c text ∧ n.rule ≠ .tableName ∧
      lineage.partMarks (.statement (Read.statementOf c (.ofTree Read.roles c root) n)) =
        lineage.marks n := by
  obtain ⟨hready, hrule⟩ := ready_of_mem_slots hroot hn
  refine ⟨hready.toGenuine, ?_, ?_⟩
  · obtain h | h := hrule <;> rw [h] <;> decide
  · exact Read.statementOf_tells hc (Read.values_told hc root.height) hready hrule

theorem statementsOf_list : List.Forall₂ route.Lists (slots root) (statementsOf c root) := by
  refine forall₂_statementsOf fun n hn => ?_
  obtain ⟨hn, hrule, htells⟩ := statementOf_told hc hroot hn
  apply lineage_keeps.lists hn htells
  · exact fun m hm => occupied_of_name (hn.of_contains hm)
  · exact fun h => hrule (rule_of_name h)

theorem statementsOf_bound :
    List.Forall₂ (route.Bounds .limitClause .orderByClause) (slots root) (statementsOf c root) := by
  refine forall₂_statementsOf fun n hn => ?_
  obtain ⟨hn, -, htells⟩ := statementOf_told hc hroot hn
  apply lineage_keeps.bounds hn htells
  · intro m hm hrule
    exact ⟨by rw [hrule]; decide, (look_eq (by rw [hrule]; decide)).trans (by rw [hrule]; decide),
      (hn.of_contains hm).occupied (by rw [hrule]; decide)⟩
  · intro m hm hrule
    exact ⟨by rw [hrule]; decide, (look_eq (by rw [hrule]; decide)).trans (by rw [hrule]; decide),
      (hn.of_contains hm).occupied (by rw [hrule]; decide)⟩
  · rw [lineage_hears]
    decide

theorem statementsOf_increasing :
    ∀ s ∈ statementsOf c root, (s.tables.map (·.excerpt.span.start)).Pairwise (· < ·) := by
  rw [statementsOf_eq_slots, List.forall_mem_map]
  intro n hn
  obtain ⟨hn, -, htells⟩ := statementOf_told hc hroot hn
  rw [lineage_keeps.tables_increasing_iff hn
    (fun m hm => occupied_of_name (hn.of_contains hm)) htells]
  intro m hm _
  have hpairs := (hn.laid.nodes rfl hm.contains).childNodes_pairwise
  exact (hpairs.sublist (shown_sublist m)).filter _

end

end SqlScript.MySql
