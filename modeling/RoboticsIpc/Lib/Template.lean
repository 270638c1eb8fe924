import RoboticsIpc.Lib.Separator

/-!
Texts with holes: labels, each followed by a value and by the element that ends the value.

A value does not contain what ends it. So a text determines the values in its holes, whatever
comes after the last one (`values_eq`).
-/

namespace Template

variable {α : Type*}

structure Hole (α : Type*) where
  label : List α
  value : List α
  stop : α
  fresh : stop ∉ value

def Hole.text (h : Hole α) : List α := h.label ++ (h.value ++ [h.stop])

/-- All but the value. -/
def Hole.frame (h : Hole α) : List α × α := (h.label, h.stop)

def render (holes : List (Hole α)) : List α := holes.flatMap Hole.text

theorem length_render_le {holes : List (Hole α)} {n : ℕ} (each : ∀ h ∈ holes, h.text.length ≤ n) :
    (render holes).length ≤ n * holes.length := by
  induction holes with
  | nil => exact Nat.zero_le _
  | cons h holes ih =>
      have here := each h List.mem_cons_self
      have later := ih fun h' mem => each h' (List.mem_cons_of_mem h mem)
      rw [render, List.flatMap_cons, ← render, List.length_append, List.length_cons, Nat.mul_succ]
      omega

theorem Hole.value_eq {h h' : Hole α} {rest rest' : List α} (alike : h.frame = h'.frame)
    (same : h.text ++ rest = h'.text ++ rest') : h.value = h'.value ∧ rest = rest' := by
  obtain ⟨labels, stops⟩ := Prod.mk.inj alike
  simp only [Hole.text, List.append_assoc, List.singleton_append] at same
  rw [labels, stops] at same
  exact Separator.first_unique (stops ▸ h.fresh) h'.fresh (List.append_cancel_left same)

theorem values_eq {holes holes' : List (Hole α)} {rest rest' : List α}
    (alike : holes.map Hole.frame = holes'.map Hole.frame)
    (same : render holes ++ rest = render holes' ++ rest') :
    holes.map Hole.value = holes'.map Hole.value := by
  induction holes generalizing holes' with
  | nil =>
      cases holes' with
      | nil => rfl
      | cons h' holes' => cases alike
  | cons h holes ih =>
      cases holes' with
      | nil => cases alike
      | cons h' holes' =>
          obtain ⟨first, others⟩ := List.cons.inj alike
          simp only [render, List.flatMap_cons, List.append_assoc] at same
          obtain ⟨value, tails⟩ := Hole.value_eq first same
          rw [List.map_cons, List.map_cons, value, ih others tails]

end Template
