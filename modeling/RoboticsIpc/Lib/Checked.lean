import Mathlib.Data.List.Basic

/-!
Validating code in `Except`: a sequence of checks of which the first to fail is
the error, and loops over a list whose body may fail.

`rejectIf` and `required` are the two kinds of check, `forIdx` the loop. Each has
one law saying when it succeeds; with `bind_eq_ok` they turn "this validator
accepted its input" into the conjunction of what it checked. `forIdx_inv` is the
loop's induction, over the elements already processed.
-/

namespace Checked

universe u v w

variable {ε : Type u} {α : Type w} {β σ : Type v}

/-- Fail with `e` when the condition holds. -/
def rejectIf (condition : Prop) [Decidable condition] (e : ε) : Except ε Unit :=
  if condition then .error e else .ok ()

/-- The value of an optional, or fail with `e`. -/
def required (value : Option α) (e : ε) : Except ε α :=
  match value with
  | some a => .ok a
  | none => .error e

/-- Process the elements in order, each with its index and the state so far. -/
def forIdx (body : Nat → σ → α → Except ε σ) : Nat → List α → σ → Except ε σ
  | _, [], s => .ok s
  | i, a :: as, s => do forIdx body (i + 1) as (← body i s a)

theorem ok_bind {α : Type v} (a : α) (f : α → Except ε β) : (Except.ok a >>= f) = f a := rfl

theorem bind_eq_ok {α : Type v} {x : Except ε α} {f : α → Except ε β} {b : β} :
    x >>= f = .ok b ↔ ∃ a, x = .ok a ∧ f a = .ok b := by
  cases x with
  | error e => simp [bind, Except.bind]
  | ok a => simp [bind, Except.bind]

theorem toOption_eq_some {x : Except ε β} {b : β} : x.toOption = some b ↔ x = .ok b := by
  cases x <;> simp [Except.toOption]

@[simp] theorem rejectIf_eq_ok {condition : Prop} [Decidable condition] {e : ε} {u : Unit} :
    rejectIf condition e = .ok u ↔ ¬ condition := by
  unfold rejectIf
  split <;> simp_all

@[simp] theorem required_eq_ok {value : Option α} {e : ε} {a : α} :
    required value e = .ok a ↔ value = some a := by
  cases value <;> simp [required]

/-- What the body preserves, element after element, holds when the loop is done.
The invariant may speak of the elements already processed. -/
theorem forIdx_inv {I : List α → σ → Prop} {body : Nat → σ → α → Except ε σ} {as : List α}
    {s s' : σ} (start : I [] s)
    (preserved : ∀ done s a s', I done s → a ∈ as → body done.length s a = .ok s' →
      I (done ++ [a]) s')
    (ran : forIdx body 0 as s = .ok s') : I as s' := by
  suffices general : ∀ todo done s, I done s → (∀ a ∈ todo, a ∈ as) →
      forIdx body done.length todo s = .ok s' → I (done ++ todo) s' from
    general as [] s start (fun _ mem => mem) ran
  intro todo
  induction todo with
  | nil =>
      intro done s inv _ ran
      cases ran
      simpa using inv
  | cons a todo ih =>
      intro done s inv sub ran
      obtain ⟨next, first, rest⟩ := bind_eq_ok.mp ran
      have inv' := preserved done s a next inv (sub a (by simp)) first
      rw [List.append_cons]
      exact ih (done ++ [a]) next inv' (fun b mem => sub b (by simp [mem])) (by simpa using rest)

/-- The loop invariant rule for an invariant that ignores the elements. -/
theorem forIdx_inv' {I : σ → Prop} {body : Nat → σ → α → Except ε σ} {as : List α} {i : Nat}
    {s s' : σ} (start : I s) (preserved : ∀ i s a s', I s → body i s a = .ok s' → I s')
    (ran : forIdx body i as s = .ok s') : I s' := by
  induction as generalizing i s with
  | nil => cases ran; exact start
  | cons a as ih =>
      obtain ⟨next, first, rest⟩ := bind_eq_ok.mp ran
      exact ih (preserved i s a next start first) rest

/-- A loop that appends one output for each element relates the elements to the outputs. -/
theorem forIdx_forall₂ {γ : Type*} {I : σ → Prop} {R : α → γ → Prop} (out : σ → List γ)
    {body : Nat → σ → α → Except ε σ} {as : List α} {i : Nat} {s s' : σ} (start : I s)
    (appends : ∀ i s a s', I s → body i s a = .ok s' →
      I s' ∧ ∃ b, out s' = out s ++ [b] ∧ R a b)
    (ran : forIdx body i as s = .ok s') :
    I s' ∧ ∃ bs, out s' = out s ++ bs ∧ List.Forall₂ R as bs := by
  induction as generalizing i s with
  | nil =>
      cases ran
      exact ⟨start, [], by simp, .nil⟩
  | cons a as ih =>
      obtain ⟨next, first, rest⟩ := bind_eq_ok.mp ran
      obtain ⟨inv, b, grown, related⟩ := appends i s a next start first
      obtain ⟨final, bs, further, others⟩ := ih inv rest
      refine ⟨final, b :: bs, ?_, .cons related others⟩
      rw [further, grown, List.append_assoc, List.singleton_append]

/-- What such a loop put out comes from one of its elements. -/
theorem exists_input {γ : Type*} {R : α → γ → Prop} {as : List α} {bs : List γ}
    (related : List.Forall₂ R as bs) {b : γ} (output : b ∈ bs) : ∃ a ∈ as, R a b := by
  induction related with
  | nil => cases output
  | cons head _ ih =>
      rcases List.mem_cons.mp output with rfl | later
      · exact ⟨_, List.mem_cons_self, head⟩
      · obtain ⟨a, input, rel⟩ := ih later
        exact ⟨a, List.mem_cons_of_mem _ input, rel⟩

theorem exists_output {γ : Type*} {R : α → γ → Prop} {as : List α} {bs : List γ}
    (related : List.Forall₂ R as bs) {a : α} (input : a ∈ as) : ∃ b ∈ bs, R a b := by
  induction related with
  | nil => cases input
  | cons head _ ih =>
      rcases List.mem_cons.mp input with rfl | later
      · exact ⟨_, List.mem_cons_self, head⟩
      · obtain ⟨b, output, rel⟩ := ih later
        exact ⟨b, List.mem_cons_of_mem _ output, rel⟩

end Checked
