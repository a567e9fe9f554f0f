import SqlScript.Tree.Basic

/-!
Whole trees written and listed: the indented outline with one production or token a line, and the
productions from the root down, level by level.
-/

namespace SqlScript.Tree

variable {ρ : Type}

def indent (depth : Nat) (out : String) : String :=
  depth.repeat (· ++ "  ") out

mutual

def Node.writeOutline [Production ρ] (source : String) (depth : Nat) (out : String) :
    Node ρ → String
  | ⟨rule, _, children⟩ =>
    writeOutlines source (depth + 1) ((indent depth out ++ Production.name rule).push '\n') children

def writeOutlines [Production ρ] (source : String) (depth : Nat) (out : String) :
    List (Element ρ) → String
  | [] => out
  | .node n :: rest => writeOutlines source depth (n.writeOutline source depth out) rest
  | .token t :: rest =>
    writeOutlines source depth ((indent depth out ++ t.text source).push '\n') rest

end

def Node.outline [Production ρ] (source : String) (n : Node ρ) : String :=
  n.writeOutline source 0 ""

noncomputable def totalSize : List (Node ρ) → Nat
  | [] => 0
  | n :: ns => sizeOf n + totalSize ns

@[simp]
theorem totalSize_append (ms ns : List (Node ρ)) :
    totalSize (ms ++ ns) = totalSize ms + totalSize ns := by
  induction ms with
  | nil => simp [totalSize]
  | cons m ms ih => simp [totalSize, ih, Nat.add_assoc]

theorem totalSize_filterMap_node?_lt (es : List (Element ρ)) :
    totalSize (es.filterMap Element.node?) < sizeOf es := by
  induction es with
  | nil => simp [totalSize]
  | cons e es ih =>
    cases e with
    | token t => simp [List.filterMap_cons, Element.node?]; omega
    | node m => simp [Element.node?, totalSize]; omega

theorem Node.totalSize_childNodes_lt (n : Node ρ) : totalSize n.childNodes < sizeOf n := by
  cases n with
  | mk rule span children =>
    have := totalSize_filterMap_node?_lt children
    simp only [childNodes, mk.sizeOf_spec]
    omega

/-- What is left to be listed gets smaller, although the list grows. -/
theorem totalSize_append_childNodes_lt (out : Array (Node ρ)) (index : Nat) (h : index < out.size) :
    totalSize ((out ++ out[index].childNodes).toList.drop (index + 1)) <
      totalSize (out.toList.drop index) := by
  have hlt : index < out.toList.length := h
  have hle : index + 1 ≤ out.toList.length := hlt
  have := out[index].totalSize_childNodes_lt
  rw [Array.toList_appendList, List.drop_append_of_le_length hle, totalSize_append,
    List.drop_eq_getElem_cons hlt, totalSize, Array.getElem_toList]
  omega

/--
List the productions below those of `out`, of which the first `index` have been dealt with: the
productions nested in the next one are put at the end of the very list.
-/
def listFrom (out : Array (Node ρ)) (index : Nat) : Array (Node ρ) :=
  if h : index < out.size then
    listFrom (out ++ out[index].childNodes) (index + 1)
  else
    out
termination_by totalSize (out.toList.drop index)
decreasing_by exact totalSize_append_childNodes_lt out index h

/--
A production and all productions below it, breadth first.
-/
def Node.descendants (n : Node ρ) : List (Node ρ) :=
  (listFrom #[n] 0).toList

end SqlScript.Tree
