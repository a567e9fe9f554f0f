import Mathlib.Data.List.Basic
import SqlScript.Tree.Listing

/-!
Listing a tree breadth first gives its levels, one after the other. Productions are told apart by
where they stand, so that equal productions at two places count as two.
-/

namespace SqlScript.Tree

variable {ρ : Type}

/--
The productions that are nested exactly so deep in a production, from left to right.
-/
def Node.level : Nat → Node ρ → List (Node ρ)
  | 0, n => [n]
  | depth + 1, n => n.childNodes.flatMap (·.level depth)

/--
The production at a place below another one. The place says of each production on the way down which
of the nested productions comes next.
-/
def Node.at? (n : Node ρ) : List Nat → Option (Node ρ)
  | [] => some n
  | i :: place => n.childNodes[i]?.bind (·.at? place)

/--
The first place comes before the second one: it is less deep, or as deep and further left.
-/
def Earlier (p q : List Nat) : Prop :=
  p.length < q.length ∨ p.length = q.length ∧ p < q

def Node.places : Nat → Node ρ → List (List Nat)
  | 0, _ => [[]]
  | depth + 1, n => n.childNodes.zipIdx.flatMap fun (m, i) => (m.places depth).map (i :: ·)

theorem listFrom_of_getElem? {out : Array (Node ρ)} {index : Nat} {n : Node ρ}
    (h : out[index]? = some n) : listFrom out index = listFrom (out ++ n.childNodes) (index + 1) := by
  obtain ⟨hindex, rfl⟩ := Array.getElem?_eq_some_iff.1 h
  rw [listFrom, dif_pos hindex]

/--
The loop deals with the first productions that are left, one after the other: it puts what is nested
in them behind all others.
-/
theorem listFrom_append (done now later : List (Node ρ)) :
    listFrom (done ++ (now ++ later)).toArray done.length =
      listFrom (done ++ now ++ (later ++ now.flatMap Node.childNodes)).toArray
        (done ++ now).length := by
  -- `done` has been dealt with; `now` is what is left of one level, `later` what is known of the
  -- next.
  induction now generalizing done later with
  | nil => simp
  | cons n now ih =>
    have hn : (done ++ (n :: now ++ later)).toArray[done.length]? = some n := by simp
    have hout : (done ++ (n :: now ++ later)).toArray ++ n.childNodes =
        (done ++ [n] ++ (now ++ (later ++ n.childNodes))).toArray := by simp
    have hindex : done.length + 1 = (done ++ [n]).length := by simp
    rw [listFrom_of_getElem? hn, hout, hindex, ih]
    simp

theorem listFrom_level (done now : List (Node ρ)) :
    listFrom (done ++ now).toArray done.length =
      listFrom (done ++ now ++ now.flatMap Node.childNodes).toArray (done ++ now).length := by
  simpa using listFrom_append done now []

theorem toList_listFrom (height : Nat) (done now : List (Node ρ))
    (h : ∀ n ∈ now, n.height ≤ height) :
    (listFrom (done ++ now).toArray done.length).toList =
      done ++ (List.range height).flatMap fun depth => now.flatMap (·.level depth) := by
  induction height generalizing done now with
  | zero =>
    obtain rfl : now = [] := by
      apply List.eq_nil_iff_forall_not_mem.2
      intro n hn
      have := h n hn
      cases n
      simp [Node.height] at this
    rw [listFrom, dif_neg (by simp)]
    simp
  | succ height ih =>
    have hchildren : ∀ m ∈ now.flatMap Node.childNodes, m.height ≤ height := by
      intro m hm
      obtain ⟨n, hn, hm⟩ := List.mem_flatMap.1 hm
      have := Node.height_lt_of_mem_childNodes hm
      have := h n hn
      omega
    rw [listFrom_level, ih _ _ hchildren, List.range_succ_eq_map, List.flatMap_cons,
      List.flatMap_map, List.append_assoc]
    simp [Node.level, List.flatMap_assoc]

namespace Node

theorem descendants_eq_levels (n : Node ρ) :
    n.descendants = (List.range n.height).flatMap (n.level ·) := by
  have := toList_listFrom n.height [] [n] (by simp)
  simpa [descendants] using this

theorem map_places (depth : Nat) (n : Node ρ) :
    (n.places depth).map n.at? = (n.level depth).map some := by
  induction depth generalizing n with
  | zero => rfl
  | succ depth ih =>
    have hbelow : ∀ x ∈ n.childNodes.zipIdx,
        ((x.1.places depth).map (x.2 :: ·)).map n.at? = (x.1.level depth).map some := by
      rintro ⟨m, i⟩ hm
      have hchild : n.childNodes[i]? = some m := List.mem_zipIdx_iff_getElem?.1 hm
      rw [← ih, List.map_map]
      apply List.map_congr_left
      intro place _
      simp [at?, hchild]
    rw [places, level, List.map_flatMap, List.flatMap_congr hbelow, List.map_flatMap,
      ← List.flatMap_map Prod.fst fun m => (level depth m).map some, List.zipIdx_map_fst]

theorem mem_places {depth : Nat} {n : Node ρ} {place : List Nat} :
    place ∈ n.places depth ↔ place.length = depth ∧ (n.at? place).isSome := by
  induction depth generalizing n place with
  | zero =>
    rw [places, List.mem_singleton, List.length_eq_zero_iff]
    constructor
    · rintro rfl
      exact ⟨rfl, rfl⟩
    · exact And.left
  | succ depth ih =>
    cases place with
    | nil => simp [places]
    | cons i place =>
      cases hchild : n.childNodes[i]? with
      | none => simp [places, at?, List.mem_zipIdx_iff_getElem?, hchild]
      | some m => simp [places, at?, List.mem_zipIdx_iff_getElem?, hchild, ih]

theorem pairwise_places (depth : Nat) (n : Node ρ) : (n.places depth).Pairwise (· < ·) := by
  induction depth generalizing n with
  | zero => exact List.pairwise_singleton _ _
  | succ depth ih =>
    rw [places, List.pairwise_flatMap]
    constructor
    · rintro ⟨m, i⟩ -
      rw [List.pairwise_map]
      exact (ih m).imp fun h => List.cons_lt_cons_iff.2 (.inr ⟨rfl, h⟩)
    · have hindices : n.childNodes.zipIdx.Pairwise fun x y => x.2 < y.2 := by
        rw [← List.pairwise_map, List.zipIdx_map_snd]
        exact List.pairwise_lt_range'
      apply hindices.imp
      intro x y hlt p hp q hq
      obtain ⟨p, -, rfl⟩ := List.mem_map.1 hp
      obtain ⟨q, -, rfl⟩ := List.mem_map.1 hq
      exact List.cons_lt_cons_iff.2 (.inl hlt)

theorem length_lt_height {n : Node ρ} {place : List Nat} (h : (n.at? place).isSome) :
    place.length < n.height := by
  induction place generalizing n with
  | nil =>
    cases n
    simp [height]
  | cons i place ih =>
    cases hchild : n.childNodes[i]? with
    | none => simp [at?, hchild] at h
    | some m =>
      have hm : (m.at? place).isSome := by simpa [at?, hchild] using h
      have := ih hm
      have := height_lt_of_mem_childNodes (List.mem_of_getElem? hchild)
      rw [List.length_cons]
      omega

/--
The productions of a tree are listed level by level. Those at earlier places come first, and no
place is listed twice or left out.
-/
theorem descendants_exact (n : Node ρ) :
    n.descendants = (List.range n.height).flatMap (n.level ·) ∧
      ∃ places : List (List Nat), (∀ place, place ∈ places ↔ (n.at? place).isSome) ∧
        places.Pairwise Earlier ∧ n.descendants.map some = places.map n.at? := by
  refine ⟨n.descendants_eq_levels, (List.range n.height).flatMap (n.places ·), ?_, ?_, ?_⟩
  · intro place
    simp only [List.mem_flatMap, List.mem_range, mem_places]
    constructor
    · rintro ⟨depth, -, -, h⟩
      exact h
    · intro h
      exact ⟨place.length, length_lt_height h, rfl, h⟩
  · rw [List.pairwise_flatMap]
    constructor
    · intro depth _
      apply (n.pairwise_places depth).imp_of_mem
      intro p q hp hq hlt
      exact .inr ⟨(mem_places.1 hp).1.trans (mem_places.1 hq).1.symm, hlt⟩
    · apply List.pairwise_lt_range.imp
      intro i j hij p hp q hq
      left
      rw [(mem_places.1 hp).1, (mem_places.1 hq).1]
      exact hij
  · rw [n.descendants_eq_levels, List.map_flatMap, List.map_flatMap]
    exact List.flatMap_congr fun depth _ => (n.map_places depth).symm

end Node

end SqlScript.Tree
