import Mathlib.Algebra.Order.Ring.Int
import RoboticsIpc.Lib.Earlier

/-!
Serial numbers: integers that are sent modulo `2 * half`.

The receiver sees how far one number is ahead of another modulo `2 * half` (`ahead`).
Where the two are less than `half` apart, or exactly `half` in one direction, that tells
their order and their distance. A receiver that keeps the largest number so far can follow
a run each of whose numbers is in the window around it (`Windowed`).
-/

namespace SerialNumbers

open Earlier

variable {half a b : Int}

/-- How far `a` is ahead of `b`, modulo `2 * half`. -/
def ahead (half a b : Int) : Int := (a - b) % (2 * half)

/-- `a` is in the window around `b` that serial numbers can tell apart. -/
structure InWindow (half b a : Int) : Prop where
  low : b - half ≤ a
  high : a < b + half

theorem InWindow.half_pos (window : InWindow half b a) : 0 < half := by
  have low := window.low
  have high := window.high
  omega

/-- A number that is not behind is ahead by the difference. -/
theorem InWindow.ahead_of_le (window : InWindow half b a) (le : b ≤ a) : ahead half a b = a - b := by
  have high := window.high
  have := window.half_pos
  exact Int.emod_eq_of_lt (by omega) (by omega)

/-- A number behind is ahead by a whole turn less. -/
theorem InWindow.ahead_of_lt (window : InWindow half b a) (lt : a < b) :
    ahead half a b = a - b + 2 * half := by
  have low := window.low
  have := window.half_pos
  rw [ahead, ← Int.add_emod_right]
  exact Int.emod_eq_of_lt (by omega) (by omega)

theorem InWindow.ahead_lt_iff (window : InWindow half b a) : ahead half a b < half ↔ b ≤ a := by
  have low := window.low
  have high := window.high
  rcases Int.lt_or_le a b with lt | le
  · rw [window.ahead_of_lt lt]
    omega
  · rw [window.ahead_of_le le]
    omega

theorem InWindow.ahead_eq_zero_iff (window : InWindow half b a) : ahead half a b = 0 ↔ a = b := by
  have low := window.low
  rcases Int.lt_or_le a b with lt | le
  · have := window.half_pos
    rw [window.ahead_of_lt lt]
    omega
  · rw [window.ahead_of_le le]
    omega

/-! ### Runs -/

variable {ns : List Int} {n m : Int}

/-- Each number is in the window around the largest of those before it. -/
def Windowed (half : Int) (ns : List Int) : Prop :=
  ∀ p ∈ withEarlier ns, ∀ m, p.1.max? = some m → InWindow half m p.2

theorem windowed_concat :
    Windowed half (ns ++ [n]) ↔ Windowed half ns ∧ ∀ m, ns.max? = some m → InWindow half m n := by
  simp only [Windowed, withEarlier_concat, List.mem_append, List.mem_singleton, or_imp,
    forall_and, forall_eq]

/-- How many numbers stand so to the largest of those before them. -/
def countAgainst (stands : Int → Int → Bool) (ns : List Int) : Nat :=
  (withEarlier ns).countP fun (before, n) => before.max?.any (stands · n)

theorem countAgainst_concat (stands : Int → Int → Bool) (ns : List Int) (n : Int) :
    countAgainst stands (ns ++ [n]) =
      countAgainst stands ns + if ns.max?.any (stands · n) then 1 else 0 := by
  rw [countAgainst, withEarlier_concat, List.countP_append, List.countP_singleton, ← countAgainst]

/-- The largest after one more. -/
theorem max?_concat (largest : ns.max? = some m) : (ns ++ [n]).max? = some (max m n) := by
  obtain ⟨mem, bound⟩ := List.max?_eq_some_iff.mp largest
  rw [List.max?_eq_some_iff]
  constructor
  · rcases max_choice m n with first | last
    · rw [first]
      exact List.mem_append_left _ mem
    · rw [last]
      exact List.mem_append_right _ List.mem_cons_self
  · intro b inside
    rcases List.mem_append.mp inside with earlier | last
    · exact le_max_of_le_left (bound b earlier)
    · rw [List.mem_singleton.mp last]
      exact le_max_right m n

end SerialNumbers
