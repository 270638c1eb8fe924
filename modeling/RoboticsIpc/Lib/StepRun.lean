import Mathlib.Data.List.Basic

/-!
Runs of a partial labelled step function.

`run step s as` executes the actions `as` in order and is `none` as soon as one
of them is not enabled. The rules below package the induction on the schedule:
`run_inv` for an invariant, `run_inv_of_bound` for an invariant whose step is
only valid while a quantity that never decreases stays under a limit (a wrapping
counter, a budget). A safety result is then its initial case and one step lemma.
-/

namespace StepRun

variable {State Action : Type*} {step : State → Action → Option State} {s s' : State}

/-- Execute a schedule. -/
def run (step : State → Action → Option State) : State → List Action → Option State
  | s, [] => some s
  | s, a :: as => (step s a).bind fun next => run step next as

@[simp] theorem run_nil : run step s [] = some s := rfl

theorem run_cons {a : Action} {as : List Action} :
    run step s (a :: as) = (step s a).bind fun next => run step next as := rfl

theorem run_cons_eq_some {a : Action} {as : List Action} :
    run step s (a :: as) = some s' ↔ ∃ next, step s a = some next ∧ run step next as = some s' := by
  simp [run_cons, Option.bind_eq_some_iff]

theorem run_append {as bs : List Action} :
    run step s (as ++ bs) = (run step s as).bind fun next => run step next bs := by
  induction as generalizing s with
  | nil => rfl
  | cons a as ih =>
      rw [List.cons_append, run_cons, run_cons]
      cases step s a with
      | none => rfl
      | some next => exact ih

/-- What every allowed step preserves, every run of allowed steps preserves. -/
theorem run_inv_of_allowed {I : State → Prop} {Allowed : Action → Prop} {as : List Action}
    (start : I s) (allowed : ∀ a ∈ as, Allowed a)
    (preserved : ∀ s a next, I s → Allowed a → step s a = some next → I next)
    (ran : run step s as = some s') : I s' := by
  induction as generalizing s with
  | nil => cases ran; exact start
  | cons a as ih =>
      obtain ⟨next, first, rest⟩ := run_cons_eq_some.mp ran
      exact ih (preserved s a next start (allowed a (by simp)) first)
        (fun b mem => allowed b (by simp [mem])) rest

/-- What every step preserves, every run preserves. -/
theorem run_inv {I : State → Prop} {as : List Action} (start : I s)
    (preserved : ∀ s a next, I s → step s a = some next → I next)
    (ran : run step s as = some s') : I s' := by
  have all : ∀ a ∈ as, True := fun _ _ => trivial
  exact run_inv_of_allowed start all (fun s a next inv _ => preserved s a next inv) ran

/-- A run of a system is a run of a part of it, where every step is a step of the part or leaves
it alone. -/
theorem run_project {View Own : Type*} {own : View → Own → Option View} (view : State → View)
    {part : Action → Option Own}
    (each : ∀ s a s', step s a = some s' → run own (view s) (part a).toList = some (view s'))
    {as : List Action} {s s' : State} (ran : run step s as = some s') :
    run own (view s) (as.filterMap part) = some (view s') := by
  induction as generalizing s with
  | nil =>
      cases ran
      rfl
  | cons a as ih =>
      obtain ⟨next, first, rest⟩ := run_cons_eq_some.mp ran
      have here := each s a next first
      have later := ih rest
      rw [List.filterMap_cons]
      cases taken : part a with
      | none =>
          rw [taken] at here
          have same : view s = view next := Option.some.inj here
          rw [same]
          exact later
      | some b =>
          rw [taken] at here
          have stepped : run own (view s) ([b] ++ as.filterMap part) = _ := run_append
          have reached : run own (view s) [b] = some (view next) := here
          rw [reached] at stepped
          exact stepped.trans later

/-- A quantity no step decreases is not decreased by a run. -/
theorem run_mono {m : State → Nat} {as : List Action}
    (grows : ∀ s a next, step s a = some next → m s ≤ m next)
    (ran : run step s as = some s') : m s ≤ m s' := by
  refine run_inv (I := fun now => m s ≤ m now) (Nat.le_refl _) ?_ ran
  intro now a next reached stepped
  exact Nat.le_trans reached (grows now a next stepped)

/-- An invariant whose step needs a growing quantity `m` to stay below `limit`
holds after every run that ends below `limit`. -/
theorem run_inv_of_bound {I : State → Prop} {m : State → Nat} {limit : Nat}
    {as : List Action} (start : I s)
    (grows : ∀ s a next, step s a = some next → m s ≤ m next)
    (preserved : ∀ s a next, I s → step s a = some next → m next < limit → I next)
    (ran : run step s as = some s') (bound : m s' < limit) : I s' := by
  induction as generalizing s with
  | nil => cases ran; exact start
  | cons a as ih =>
      obtain ⟨next, first, rest⟩ := run_cons_eq_some.mp ran
      have below : m next < limit := Nat.lt_of_le_of_lt (run_mono grows rest) bound
      exact ih (preserved s a next start first below) rest

/-! ### Each step of a run -/

/-- In the course of the schedule, action `a` leads from state `before` to state `after`. -/
def Takes (step : State → Action → Option State) (s : State) (as : List Action)
    (before : State) (a : Action) (after : State) : Prop :=
  ∃ done rest, as = done ++ a :: rest ∧ run step s done = some before ∧ step before a = some after

theorem Takes.stepped {a : Action} {as : List Action} {before after : State}
    (takes : Takes step s as before a after) : step before a = some after := by
  obtain ⟨_, _, _, _, stepped⟩ := takes
  exact stepped

theorem Takes.later {a b : Action} {as : List Action} {before after next : State}
    (first : step s a = some next) (takes : Takes step next as before b after) :
    Takes step s (a :: as) before b after := by
  obtain ⟨done, rest, split, reached, stepped⟩ := takes
  refine ⟨a :: done, rest, ?_, ?_, stepped⟩
  · rw [split, List.cons_append]
  · exact run_cons_eq_some.mpr ⟨next, first, reached⟩

/-- A run that ends in `P` and has not begun there has a step into it. -/
theorem run_enters {P : State → Prop} {as : List Action} (outside : ¬ P s) (inside : P s')
    (ran : run step s as = some s') : ∃ done a rest before after, as = done ++ a :: rest ∧
      run step s done = some before ∧ step before a = some after ∧
      run step after rest = some s' ∧ ¬ P before ∧ P after := by
  induction as generalizing s with
  | nil =>
      cases ran
      exact absurd inside outside
  | cons a as ih =>
      obtain ⟨next, first, later⟩ := run_cons_eq_some.mp ran
      by_cases entered : P next
      · exact ⟨[], a, as, s, next, rfl, rfl, first, later, outside, entered⟩
      · obtain ⟨done, b, rest, before, after, split, reached, more⟩ := ih entered later
        refine ⟨a :: done, b, rest, before, after, ?_, ?_, more⟩
        · rw [split, List.cons_append]
        · exact run_cons_eq_some.mpr ⟨next, first, reached⟩

/-- An entry of a log that steps only append to was there before the run, or one of its steps
has appended it. -/
theorem run_log_origin {Entry : Type*} {log : State → List Entry} {as : List Action}
    (grows : ∀ s a next, step s a = some next → log s <+: log next)
    (ran : run step s as = some s') {i : Nat} {e : Entry} (entry : (log s')[i]? = some e) :
    (log s)[i]? = some e ∨ ∃ before a after, Takes step s as before a after ∧
      (log before).length ≤ i ∧ (log after)[i]? = some e := by
  induction as generalizing s with
  | nil =>
      cases ran
      exact .inl entry
  | cons a as ih =>
      obtain ⟨next, first, rest⟩ := run_cons_eq_some.mp ran
      rcases ih rest with here | ⟨before, b, after, takes, old, new⟩
      · by_cases inside : i < (log s).length
        · obtain ⟨more, grown⟩ := grows s a next first
          rw [← grown, List.getElem?_append_left inside] at here
          exact .inl here
        · exact .inr ⟨s, a, next, ⟨[], as, rfl, rfl, first⟩, Nat.not_lt.mp inside, here⟩
      · exact .inr ⟨before, b, after, takes.later first, old, new⟩


/-- Each state that the run reaches and the action taken there are in `P`. -/
def Throughout (step : State → Action → Option State) (P : State → Action → Prop) :
    State → List Action → Prop
  | _, [] => True
  | s, a :: as => P s a ∧ ∀ next, step s a = some next → Throughout step P next as

/-- What agrees wherever an invariant holds agrees throughout a run. -/
theorem throughout_congr {P Q : State → Action → Prop} {I : State → Prop} {Allowed : Action → Prop}
    {as : List Action} (start : I s) (allowed : ∀ a ∈ as, Allowed a)
    (preserved : ∀ s a next, I s → Allowed a → step s a = some next → I next)
    (agree : ∀ s a, I s → (P s a ↔ Q s a)) : Throughout step P s as ↔ Throughout step Q s as := by
  induction as generalizing s with
  | nil => exact Iff.rfl
  | cons a as ih =>
      refine and_congr (agree s a start) (forall_congr' fun next => imp_congr_right fun first => ?_)
      exact ih (preserved s a next start (allowed a List.mem_cons_self) first)
        fun b mem => allowed b (List.mem_cons_of_mem a mem)

/-! ### Components

A component of a state under a step that is always enabled. -/

/-- A component that some actions leave alone runs on the others only. -/
theorem view_foldl {View : Type*} {apply : State → Action → State} {own : View → Action → View}
    {concerns : Action → Bool} (view : State → View)
    (acts : ∀ s a, concerns a = true → view (apply s a) = own (view s) a)
    (spares : ∀ s a, concerns a = false → view (apply s a) = view s) (as : List Action) (s : State) :
    view (as.foldl apply s) = (as.filter concerns).foldl own (view s) := by
  induction as generalizing s with
  | nil => rfl
  | cons a as ih =>
      rw [List.foldl_cons, ih]
      cases concerned : concerns a with
      | true => rw [List.filter_cons_of_pos concerned, List.foldl_cons, acts s a concerned]
      | false => rw [List.filter_cons_of_neg (by simp [concerned]), spares s a concerned]

end StepRun
