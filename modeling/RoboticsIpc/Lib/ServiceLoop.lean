import Mathlib.Data.List.Basic

/-!
Service loops: `while (!stop) body`, where the body may leave the loop itself.

The inputs are what the environment gives the iterations one after another; the
stop condition holds when they are used up. `runLoop_post` is the loop rule. Its
invariant speaks of the iterations so far, its postcondition of why the loop was
left as well. `IdleFor` is the condition of a loop that leaves after a time without
work.
-/

namespace ServiceLoop

variable {Input State End : Type*}

/-- What one iteration does. -/
inductive Step (State End : Type*) where
  | next (s : State)
  | leave (e : End) (s : State)

/-- Run the body on the inputs; `stopped` is the end of a loop that is told to stop. -/
def runLoop (body : Input → State → Step State End) (stopped : End) :
    List Input → State → End × State
  | [], s => (stopped, s)
  | i :: rest, s =>
      match body i s with
      | .next s => runLoop body stopped rest s
      | .leave e s => (e, s)

variable {body : Input → State → Step State End} {stopped : End}

/-- The iterations the loop starts: their inputs, and the states they find. -/
def iterations (body : Input → State → Step State End) :
    List Input → State → List (Input × State)
  | [], _ => []
  | i :: rest, s =>
      (i, s) :: match body i s with
        | .next s => iterations body rest s
        | .leave _ _ => []

theorem iterations_initial (inputs : List Input) (s : State) :
    (iterations body inputs s).map Prod.fst <+: inputs := by
  induction inputs generalizing s with
  | nil => exact List.nil_prefix
  | cons i rest ih =>
      unfold iterations
      refine List.prefix_cons_inj i |>.mpr ?_
      cases body i s with
      | next mid => exact ih mid
      | leave e mid => exact List.nil_prefix

/-- The loop rule. -/
theorem runLoop_post (Inv : List (Input × State) → State → Prop)
    (Post : End → List (Input × State) → State → Prop) {inputs : List Input} {s : State}
    (start : Inv [] s)
    (next : ∀ served i s s', Inv served s → body i s = .next s' → Inv (served ++ [(i, s)]) s')
    (leave : ∀ served i s e s', Inv served s → body i s = .leave e s' →
      Post e (served ++ [(i, s)]) s')
    (stop : ∀ served s, served.map Prod.fst = inputs → Inv served s → Post stopped served s) :
    Post (runLoop body stopped inputs s).1 (iterations body inputs s)
      (runLoop body stopped inputs s).2 := by
  suffices general : ∀ todo served s, served.map Prod.fst ++ todo = inputs → Inv served s →
      Post (runLoop body stopped todo s).1 (served ++ iterations body todo s)
        (runLoop body stopped todo s).2 from
    general inputs [] s rfl start
  intro todo
  induction todo with
  | nil =>
      intro served s split inv
      rw [List.append_nil] at split
      rw [iterations, List.append_nil]
      exact stop served s split inv
  | cons i rest ih =>
      intro served s split inv
      have further : (served ++ [(i, s)]).map Prod.fst ++ rest = inputs := by
        simpa using split
      unfold iterations runLoop
      rw [List.append_cons]
      cases step : body i s with
      | next mid => exact ih (served ++ [(i, s)]) mid further (next served i s mid inv step)
      | leave e mid =>
          rw [List.append_nil]
          exact leave served i s e mid inv step

/-! ### Idle time -/

section Idle

variable {active : Input → Bool} {clock : Input → Int} {started : Int} {served : List Input}
  {i : Input}

/-- What the clock read at the last active iteration; `started` if there was none. -/
def lastActive (active : Input → Bool) (clock : Input → Int) (started : Int)
    (served : List Input) : Int :=
  ((served.filter active).getLast?.map clock).getD started

theorem lastActive_active (working : active i = true) :
    lastActive active clock started (served ++ [i]) = clock i := by
  simp [lastActive, List.filter_append, working]

theorem lastActive_idle (idle : active i = false) :
    lastActive active clock started (served ++ [i]) = lastActive active clock started served := by
  simp [lastActive, List.filter_append, idle]

/-- The last iteration served was idle, and by its reading of the clock more than `limit` has
passed since the last active one. -/
def IdleFor (active : Input → Bool) (clock : Input → Int) (started limit : Int)
    (served : List Input) : Prop :=
  ∃ before last, served = before ++ [last] ∧ active last = false ∧
    limit < clock last - lastActive active clock started before

end Idle

end ServiceLoop
