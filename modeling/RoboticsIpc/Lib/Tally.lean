import Mathlib.Algebra.BigOperators.Group.List.Basic
import Mathlib.Algebra.Ring.Nat
import Mathlib.Data.List.Nodup
import Mathlib.Data.List.Range

/-!
Families of counters.

A family has a counter for each key, `total` sums it over a list of keys. An event
bumps the counter of one key; where the list has every key once, the total counts
the events (`total_bump`). `byteKeys` are the keys of an array indexed by a byte.
-/

namespace Tally

variable {K : Type*}

def total (keys : List K) (counters : K → Nat) : Nat := (keys.map counters).sum

theorem total_eq_of_forall {keys : List K} {f g : K → Nat} (same : ∀ k ∈ keys, f k = g k) :
    total keys f = total keys g := by
  unfold total
  rw [List.map_congr_left same]

theorem total_zero (keys : List K) : total keys (fun _ => 0) = 0 := by
  simp [total]

variable [DecidableEq K]

/-- One more for `k`. -/
def bump (counters : K → Nat) (k : K) : K → Nat := Function.update counters k (counters k + 1)

theorem bump_self (counters : K → Nat) (k : K) : bump counters k k = counters k + 1 :=
  Function.update_self ..

theorem bump_other (counters : K → Nat) {k j : K} (other : j ≠ k) :
    bump counters k j = counters j :=
  Function.update_of_ne other ..

theorem total_bump {keys : List K} (nodup : keys.Nodup) (counters : K → Nat) {k : K}
    (mem : k ∈ keys) : total keys (bump counters k) = total keys counters + 1 := by
  induction keys with
  | nil => cases mem
  | cons j rest ih =>
      obtain ⟨fresh, nodupRest⟩ := List.nodup_cons.mp nodup
      have split : ∀ f : K → Nat, total (j :: rest) f = f j + total rest f :=
        fun f => List.sum_cons
      rw [split, split]
      rcases List.mem_cons.mp mem with rfl | later
      · have others : total rest (bump counters k) = total rest counters := by
          apply total_eq_of_forall
          intro i inside
          apply bump_other
          rintro rfl
          exact fresh inside
        rw [bump_self, others]
        omega
      · have other : j ≠ k := by
          rintro rfl
          exact fresh later
        rw [bump_other counters other, ih nodupRest later]
        omega

/-- The first `n` indices of an array indexed by a byte. -/
def byteKeys (n : Nat) : List UInt8 := (List.range n).map UInt8.ofNat

theorem mem_byteKeys {n : Nat} {k : UInt8} (below : k.toNat < n) : k ∈ byteKeys n :=
  List.mem_map.mpr ⟨k.toNat, List.mem_range.mpr below, UInt8.ofNat_toNat⟩

theorem nodup_byteKeys {n : Nat} (bytes : n ≤ 256) : (byteKeys n).Nodup := by
  apply List.Nodup.map_on _ List.nodup_range
  intro i inside j inside' same
  have values := congrArg UInt8.toNat same
  rw [UInt8.toNat_ofNat', UInt8.toNat_ofNat'] at values
  have := List.mem_range.mp inside
  have := List.mem_range.mp inside'
  omega

end Tally
