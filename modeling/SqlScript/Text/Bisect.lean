/-!
Bisection in an array whose elements split into an initial segment with a property and a rest
without it.
-/

namespace SqlScript.Text

/--
The length of the initial segment of `xs` on which `p` holds, found by bisection. It is that length
whenever no element behind a failing one satisfies `p`.
-/
def bisect (xs : Array α) (p : α → Bool) : Nat :=
  go 0 xs.size (Nat.le_refl _)
where
  go (lo hi : Nat) (hhi : hi ≤ xs.size) : Nat :=
    if hlt : lo < hi then
      have : (lo + hi) / 2 < xs.size := by omega
      if p xs[(lo + hi) / 2] then
        go ((lo + hi) / 2 + 1) hi hhi
      else
        go lo ((lo + hi) / 2) (by omega)
    else
      lo
  termination_by hi - lo

theorem bisect.go_le (xs : Array α) (p : α → Bool) (lo hi : Nat) (hhi : hi ≤ xs.size)
    (hlo : lo ≤ hi) : go xs p lo hi hhi ≤ hi := by
  fun_induction go xs p lo hi hhi with
  | case1 lo hi hhi hlt hmid hp ih => exact ih (by omega)
  | case2 lo hi hhi hlt hmid hp ih => exact Nat.le_trans (ih (by omega)) (by omega)
  | case3 lo hi hhi hlt => exact hlo

theorem bisect_le_size (xs : Array α) (p : α → Bool) : bisect xs p ≤ xs.size :=
  bisect.go_le xs p 0 xs.size (Nat.le_refl _) (Nat.zero_le _)

end SqlScript.Text
