import Mathlib.Data.List.Basic

/-!
One direction of a connection: what was sent arrives in order, in pieces of any size.

`Carries` relates a pipe to all that was sent into it. As long as the connection stands, the
sent elements are those that have arrived and those under way; once it is severed, what had
arrived by then is still the beginning of what was sent.
-/

namespace StreamPipe

variable {B : Type*}

structure Pipe (B : Type*) where
  /-- Ghost: all that has arrived. -/
  arrived : List B := []
  inFlight : List B := []
  severed : Bool := false

namespace Pipe

/-- After the connection is lost nothing is taken any more. -/
def push (p : Pipe B) (sent : List B) : Pipe B :=
  if p.severed then p else { p with inFlight := p.inFlight ++ sent }

/-- The next `n` elements arrive. -/
def deliver (p : Pipe B) (n : Nat) : Pipe B :=
  { p with arrived := p.arrived ++ p.inFlight.take n, inFlight := p.inFlight.drop n }

/-- The connection is lost, with all that is under way. -/
def sever (p : Pipe B) : Pipe B := { p with inFlight := [], severed := true }

/-- `sent` is what was sent into the pipe. -/
structure Carries (p : Pipe B) (sent : List B) : Prop where
  inOrder : p.arrived <+: sent
  whole : p.severed = false → sent = p.arrived ++ p.inFlight
  lost : p.severed = true → p.inFlight = []

variable {p : Pipe B} {sent : List B}

@[simp] theorem arrived_push (p : Pipe B) (more : List B) : (p.push more).arrived = p.arrived := by
  rw [push]
  split <;> rfl

@[simp] theorem severed_push (p : Pipe B) (more : List B) : (p.push more).severed = p.severed := by
  rw [push]
  split <;> rfl

theorem carries_new (sent : List B) : Carries ⟨[], sent, false⟩ sent :=
  ⟨List.nil_prefix, fun _ => rfl, fun gone => absurd gone Bool.noConfusion⟩

theorem Carries.push (carries : p.Carries sent) (more : List B) :
    (p.push more).Carries (sent ++ more) := by
  obtain ⟨inOrder, whole, lost⟩ := carries
  have longer := inOrder.trans (List.prefix_append sent more)
  rw [Pipe.push]
  cases severed : p.severed with
  | true =>
      rw [if_pos rfl]
      refine ⟨longer, fun stands => ?_, lost⟩
      rw [severed] at stands
      cases stands
  | false =>
      rw [if_neg Bool.false_ne_true]
      refine ⟨longer, fun _ => ?_, fun gone => absurd gone Bool.noConfusion⟩
      rw [whole severed, List.append_assoc]

theorem Carries.deliver (carries : p.Carries sent) (n : Nat) : (p.deliver n).Carries sent := by
  obtain ⟨inOrder, whole, lost⟩ := carries
  cases severed : p.severed with
  | true =>
      have empty := lost severed
      refine ⟨?_, fun stands => absurd (severed.symm.trans stands) Bool.noConfusion, fun _ => ?_⟩
      · rw [Pipe.deliver, empty, List.take_nil, List.append_nil]
        exact inOrder
      · rw [Pipe.deliver, empty, List.drop_nil]
  | false =>
      have split : sent = (p.arrived ++ p.inFlight.take n) ++ p.inFlight.drop n := by
        rw [List.append_assoc, List.take_append_drop, whole severed]
      exact ⟨⟨p.inFlight.drop n, split.symm⟩, fun _ => split,
        fun gone => absurd (severed.symm.trans gone) Bool.noConfusion⟩

theorem Carries.sever (carries : p.Carries sent) : p.sever.Carries sent :=
  ⟨carries.inOrder, fun stands => absurd stands Bool.noConfusion, fun _ => rfl⟩

/-- When nothing is under way, everything has arrived. -/
theorem Carries.arrived_eq (carries : p.Carries sent) (stands : p.severed = false)
    (empty : p.inFlight = []) : p.arrived = sent := by
  rw [carries.whole stands, empty, List.append_nil]

end Pipe

end StreamPipe
