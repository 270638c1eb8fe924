import Mathlib.Data.Nat.ModEq
import Mathlib.Data.List.Basic
import Mathlib.Logic.Function.Basic

/-!
Bounded ring windows: a queue of values laid out in `n` reusable cells.

Position `k` of an unbounded stream lives in cell `k % n`. `Holds R n cells t q`
says that the cells from position `t` on represent the queue `q`, where
`R cell value` is whatever "this cell stores this value" means to the client.
The two facts a ring needs are that positions of one window never share a cell
(`mod_ne_of_window`) and that writing the first free cell disturbs no stored
value (`Holds.update_free`). Nothing here mentions counters, messages or
threads; the queue may be read as the ghost contents of any circular buffer.
-/

namespace RingWindow

/-- Two different positions less than `n` apart live in different cells. -/
theorem mod_ne_of_window {n a b : Nat} (lt : a < b) (window : b < a + n) : a % n ≠ b % n := by
  intro same
  have divides : n ∣ b - a := (Nat.modEq_iff_dvd' (Nat.le_of_lt lt)).mp same
  have := Nat.le_of_dvd (by omega) divides
  omega

variable {Cell Value : Type*} {R : Cell → Value → Prop} {n t : Nat} {cells : Nat → Cell}
  {q : List Value} {v : Value}

/-- The cells from position `t` on store the queue `q`, front first. -/
def Holds (R : Cell → Value → Prop) (n : Nat) (cells : Nat → Cell) (t : Nat)
    (q : List Value) : Prop :=
  ∀ i (bound : i < q.length), R (cells ((t + i) % n)) q[i]

@[simp] theorem holds_nil : Holds R n cells t [] := by
  intro i bound
  simp at bound

theorem holds_cons : Holds R n cells t (v :: q) ↔
    R (cells (t % n)) v ∧ Holds R n cells (t + 1) q := by
  constructor
  · intro held
    refine ⟨held 0 (by simp), fun i bound => ?_⟩
    have next := held (i + 1) (by simpa using bound)
    rw [show t + 1 + i = t + (i + 1) by omega]
    simpa using next
  · rintro ⟨front, rest⟩ i bound
    cases i with
    | zero => simpa using front
    | succ i =>
        have next := rest i (by simpa using bound)
        rw [show t + (i + 1) = t + 1 + i by omega]
        simpa using next

/-- A value in the first free cell extends the queue at the back. -/
theorem Holds.snoc (held : Holds R n cells t q) (last : R (cells ((t + q.length) % n)) v) :
    Holds R n cells t (q ++ [v]) := by
  intro i bound
  rcases Nat.lt_or_ge i q.length with inside | outside
  · rw [List.getElem_append_left inside]
    exact held i inside
  · have here : i = q.length := by simp at bound; omega
    subst here
    simpa using last

/-- Overwriting the first free cell keeps every stored value. -/
theorem Holds.update_free (held : Holds R n cells t q) (room : q.length < n) (cell : Cell) :
    Holds R n (Function.update cells ((t + q.length) % n) cell) t q := by
  intro i bound
  have apart : (t + i) % n ≠ (t + q.length) % n := mod_ne_of_window (by omega) (by omega)
  rw [Function.update_of_ne apart]
  exact held i bound

/-- Writing `v` into the first free cell is pushing it. -/
theorem Holds.push (held : Holds R n cells t q) (room : q.length < n) {cell : Cell}
    (stored : R cell v) :
    Holds R n (Function.update cells ((t + q.length) % n) cell) t (q ++ [v]) :=
  (held.update_free room cell).snoc (by simpa using stored)

end RingWindow
