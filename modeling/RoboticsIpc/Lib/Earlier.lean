import Mathlib.Data.List.Induction

/-!
The elements of a list, each with those before it.

What is asked at every step of a run, about the step and the run up to it, is asked of
these pairs; they grow at the end, as runs do.
-/

namespace Earlier

variable {A : Type*}

/-- Each element with the list of those before it. -/
def withEarlier (as : List A) : List (List A × A) := as.mapIdx fun i a => (as.take i, a)

@[simp] theorem withEarlier_nil : withEarlier ([] : List A) = [] := rfl

theorem withEarlier_concat (as : List A) (a : A) :
    withEarlier (as ++ [a]) = withEarlier as ++ [(as, a)] := by
  have same : ∀ i : Nat, i < as.length → (as ++ [a]).take i = as.take i :=
    fun i inside => List.take_append_of_le_length (Nat.le_of_lt inside)
  rw [withEarlier, List.mapIdx_concat, List.take_left, withEarlier]
  congr 1
  apply List.ext_getElem?
  intro i
  rw [List.getElem?_mapIdx, List.getElem?_mapIdx]
  cases found : as[i]? with
  | none => rfl
  | some b =>
      obtain ⟨inside, -⟩ := List.getElem?_eq_some_iff.mp found
      simp only [Option.map_some, same i inside]

/-- The elements themselves. -/
theorem map_snd_withEarlier (as : List A) : (withEarlier as).map Prod.snd = as := by
  induction as using List.reverseRecOn with
  | nil => rfl
  | append_singleton as a ih => rw [withEarlier_concat, List.map_append, ih]; rfl

end Earlier
