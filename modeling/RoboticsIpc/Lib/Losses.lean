import Mathlib.Data.Bool.Count
import Mathlib.Data.List.DropRight
import Mathlib.Data.Nat.Basic

/-!
Losses told apart by the successes around them.

An outcome is `true` for a success and `false` for a loss. Losses come before the
first success, between the first and the last, or after the last; with no success
at all they all come before it. The laws say how the three counts move when one
more outcome is appended, which is how a run produces them.
-/

namespace Losses

variable {outcomes : List Bool}

/-- The outcomes from the first success on. -/
def fromFirst (outcomes : List Bool) : List Bool := outcomes.dropWhile (! ·)

/-- The losses before the first success. -/
def before (outcomes : List Bool) : Nat := (outcomes.takeWhile (! ·)).length

/-- The losses after the last success. -/
def after (outcomes : List Bool) : Nat := ((fromFirst outcomes).rtakeWhile (! ·)).length

/-- The losses strictly between the first success and the last. -/
def between (outcomes : List Bool) : Nat := ((fromFirst outcomes).rdropWhile (! ·)).count false

theorem fromFirst_eq_nil_iff : fromFirst outcomes = [] ↔ true ∉ outcomes := by
  rw [fromFirst, List.dropWhile_eq_nil_iff]
  constructor
  · intro lost mem
    cases lost true mem
  · intro none b mem
    cases b with
    | true => exact absurd mem none
    | false => rfl

theorem fromFirst_concat (b : Bool) (some : true ∈ outcomes) :
    fromFirst (outcomes ++ [b]) = fromFirst outcomes ++ [b] := by
  have nonempty : (fromFirst outcomes).isEmpty = false := by
    rw [List.isEmpty_eq_false_iff]
    exact fun nil => fromFirst_eq_nil_iff.mp nil some
  rw [fromFirst, List.dropWhile_append]
  exact if_neg (by simpa [fromFirst] using nonempty)

theorem fromFirst_first (none : true ∉ outcomes) : fromFirst (outcomes ++ [true]) = [true] := by
  have nil : fromFirst outcomes = [] := fromFirst_eq_nil_iff.mpr none
  rw [fromFirst] at nil ⊢
  rw [List.dropWhile_append, nil]
  rfl

theorem after_none (none : true ∉ outcomes) : after outcomes = 0 := by
  rw [after, fromFirst_eq_nil_iff.mpr none]
  rfl

theorem between_none (none : true ∉ outcomes) : between outcomes = 0 := by
  rw [between, fromFirst_eq_nil_iff.mpr none]
  rfl

/-! ### One more outcome -/

theorem after_success (outcomes : List Bool) : after (outcomes ++ [true]) = 0 := by
  by_cases some : true ∈ outcomes
  · rw [after, fromFirst_concat true some, List.rtakeWhile_concat_neg _ _ _ (by simp)]
    rfl
  · rw [after, fromFirst_first some]
    rfl

theorem after_loss (some : true ∈ outcomes) :
    after (outcomes ++ [false]) = after outcomes + 1 := by
  rw [after, fromFirst_concat false some, List.rtakeWhile_concat_pos _ _ _ (by simp),
    List.length_append, List.length_singleton, ← after]

theorem between_loss (outcomes : List Bool) :
    between (outcomes ++ [false]) = between outcomes := by
  by_cases some : true ∈ outcomes
  · rw [between, fromFirst_concat false some, List.rdropWhile_concat_pos _ _ _ (by simp), ← between]
  · rw [between_none some, between_none (by simpa using some)]

/-- A success puts the losses since the last one between two successes. -/
theorem between_success (outcomes : List Bool) :
    between (outcomes ++ [true]) = between outcomes + after outcomes := by
  by_cases some : true ∈ outcomes
  · have parts : (fromFirst outcomes).rdropWhile (! ·) ++ (fromFirst outcomes).rtakeWhile (! ·) =
        fromFirst outcomes := by
      rw [List.rdropWhile, List.rtakeWhile, ← List.reverse_append, List.takeWhile_append_dropWhile,
        List.reverse_reverse]
    have lost : ((fromFirst outcomes).rtakeWhile (! ·)).count false = after outcomes := by
      rw [after, List.count_eq_length]
      intro b mem
      have isLost : (!b) = true := List.mem_rtakeWhile_imp mem
      simpa using isLost
    rw [between, fromFirst_concat true some, List.rdropWhile_concat_neg _ _ _ (by simp),
      List.count_append, ← lost]
    conv_lhs => rw [← parts, List.count_append]
    rfl
  · rw [between, fromFirst_first some, between_none some, after_none some]
    rfl

/-! ### All losses -/

/-- Every loss is one of the three. -/
theorem count_eq (outcomes : List Bool) :
    outcomes.count false = between outcomes + before outcomes + after outcomes := by
  have parts := congrArg (List.count false) (List.takeWhile_append_dropWhile (p := (! ·))
    (l := outcomes))
  have lost : (outcomes.takeWhile (! ·)).count false = before outcomes := by
    rw [before, List.count_eq_length]
    intro b mem
    have isLost : (!b) = true := List.mem_takeWhile_imp mem
    simpa using isLost
  have rest : (fromFirst outcomes).count false = between outcomes + after outcomes := by
    rw [← between_success]
    by_cases some : true ∈ outcomes
    · rw [between, fromFirst_concat true some, List.rdropWhile_concat_neg _ _ _ (by simp),
        List.count_append]
      rfl
    · rw [between, fromFirst_first some, fromFirst_eq_nil_iff.mpr some]
      rfl
  rw [List.count_append, lost, ← fromFirst, rest] at parts
  omega

/-- The losses after the last success are the end of the list. -/
theorem suffix_after (outcomes : List Bool) :
    List.replicate (after outcomes) false <:+ outcomes := by
  have lost : List.replicate (after outcomes) false = (fromFirst outcomes).rtakeWhile (! ·) := by
    symm
    rw [after, List.eq_replicate_iff]
    refine ⟨rfl, fun b mem => ?_⟩
    have isLost : (!b) = true := List.mem_rtakeWhile_imp mem
    simpa using isLost
  rw [lost]
  exact (List.rtakeWhile_suffix _ _).trans (List.dropWhile_suffix _)

/-! ### What survives -/

section Survivors

variable {A : Type*} {items chosen : List A}

/-- The items with a success. -/
def survivors (items : List A) (outcomes : List Bool) : List A :=
  ((items.zip outcomes).filter Prod.snd).map Prod.fst

theorem survivors_map {B : Type*} (f : A → B) (items : List A) (outcomes : List Bool) :
    survivors (items.map f) outcomes = (survivors items outcomes).map f := by
  rw [survivors, List.zip_map_left, List.filter_map, List.map_map, survivors, List.map_map]
  rfl

/-- A subsequence is what survives some outcomes. -/
theorem exists_outcomes (sub : chosen.Sublist items) :
    ∃ outcomes, outcomes.length = items.length ∧ survivors items outcomes = chosen := by
  induction sub with
  | slnil => exact ⟨[], rfl, rfl⟩
  | cons item _ ih =>
      obtain ⟨outcomes, same, survived⟩ := ih
      exact ⟨false :: outcomes, congrArg (· + 1) same, survived⟩
  | cons_cons item _ ih =>
      obtain ⟨outcomes, same, survived⟩ := ih
      exact ⟨true :: outcomes, congrArg (· + 1) same, congrArg (item :: ·) survived⟩

end Survivors

end Losses
