import Mathlib.Data.UInt
import RoboticsIpc.Lib.Losses
import RoboticsIpc.Router.Frame

/-!
`SourceSeqTracker` (`router/source_seq_tracker.hpp`): a subscriber's record of how the
sequence numbers of each source progress.

A publisher numbers its frames consecutively, modulo 2^32; some of them are lost on
the way. `Attributed` says what the tracker has made of the others: the losses between
two of them are gaps, those before the first and after the last it cannot know of.
-/

namespace RoboticsIpc

open ByteBuffer

inductive Observation where
  | first
  | inOrder
  | gap
  | duplicate
  | outOfOrder
deriving DecidableEq

/-- Forward distances are those below this one. -/
def kForwardWindow : UInt32 := 0x80000000

structure SeqSlot where
  lastSeq : UInt32 := 0
  valid : Bool := false
  samples : Nat := 0
  gaps : Nat := 0
  duplicates : Nat := 0
  outOfOrder : Nat := 0
deriving DecidableEq

/-- `observe`, for the source that has this slot. -/
def SeqSlot.observe (slot : SeqSlot) (seq : UInt32) : SeqSlot × Observation :=
  let slot := { slot with samples := slot.samples + 1 }
  if slot.valid = false then
    ({ slot with valid := true, lastSeq := seq }, .first)
  else
    -- The unsigned distance, modulo 2^32.
    let delta := seq - slot.lastSeq
    if delta = 0 then
      ({ slot with duplicates := slot.duplicates + 1 }, .duplicate)
    else if delta < kForwardWindow then
      if 1 < delta then
        ({ slot with gaps := slot.gaps + (delta - 1).toNat, lastSeq := seq }, .gap)
      else
        ({ slot with lastSeq := seq }, .inOrder)
    else
      -- Stale: the highest number seen stays.
      ({ slot with outOfOrder := slot.outOfOrder + 1 }, .outOfOrder)

/-- A number `lost + 1` ahead of the last: the frames in between are missing, if any. -/
theorem SeqSlot.observe_forward {slot : SeqSlot} {seq : UInt32} {lost : Nat}
    (valid : slot.valid = true) (distance : seq - slot.lastSeq = UInt32.ofNat (lost + 1))
    (few : lost < 2 ^ 31 - 1) : (slot.observe seq).1 =
      { slot with samples := slot.samples + 1, gaps := slot.gaps + lost, lastSeq := seq } := by
  have size : (UInt32.ofNat (lost + 1)).toNat = lost + 1 :=
    UInt32.toNat_ofNat_of_lt' (by rw [UInt32.size]; omega)
  have moved : UInt32.ofNat (lost + 1) ≠ 0 := by
    intro none
    rw [none] at size
    exact absurd size.symm (Nat.succ_ne_zero lost)
  have forward : UInt32.ofNat (lost + 1) < kForwardWindow := by
    rw [UInt32.lt_iff_toNat_lt, size]
    exact Nat.lt_of_lt_of_le (Nat.succ_lt_succ few) (by decide)
  simp only [observe, valid, distance, moved, forward, Bool.true_eq_false, if_false, if_true]
  by_cases some : 1 < UInt32.ofNat (lost + 1)
  · have missing : (UInt32.ofNat (lost + 1) - 1).toNat = lost := by
      rw [UInt32.ofNat_add]
      have small : lost < UInt32.size := by rw [UInt32.size]; omega
      have cancelled : UInt32.ofNat lost + UInt32.ofNat 1 - 1 = UInt32.ofNat lost :=
        UInt32.add_sub_cancel _ _
      rw [cancelled, UInt32.toNat_ofNat_of_lt' small]
    rw [if_pos some, missing]
  · have none : lost = 0 := by
      rw [UInt32.lt_iff_toNat_lt, size] at some
      simpa using some
    subst none
    rw [if_neg some]
    rfl

/-- A tracker of the sources below `N`. -/
structure SourceSeqTracker (N : Nat) where
  slots : Fin N → SeqSlot := fun _ => {}

namespace SourceSeqTracker

variable {N : Nat}

/-- What is known of a source; nothing, from `N` on. -/
def slot (tracker : SourceSeqTracker N) (source : UInt8) : SeqSlot :=
  if inside : source.toNat < N then tracker.slots ⟨source.toNat, inside⟩ else {}

def observe (tracker : SourceSeqTracker N) (source : UInt8) (seq : UInt32) :
    SourceSeqTracker N × Observation :=
  if inside : source.toNat < N then
    let (slot, seen) := (tracker.slots ⟨source.toNat, inside⟩).observe seq
    (⟨Function.update tracker.slots ⟨source.toNat, inside⟩ slot⟩, seen)
  else
    (tracker, .first)

def has (tracker : SourceSeqTracker N) (source : UInt8) : Bool := (tracker.slot source).valid

def lastSeq (tracker : SourceSeqTracker N) (source : UInt8) : UInt32 :=
  (tracker.slot source).lastSeq

def gapCount (tracker : SourceSeqTracker N) (source : UInt8) : Nat := (tracker.slot source).gaps

def duplicateCount (tracker : SourceSeqTracker N) (source : UInt8) : Nat :=
  (tracker.slot source).duplicates

def outOfOrderCount (tracker : SourceSeqTracker N) (source : UInt8) : Nat :=
  (tracker.slot source).outOfOrder

def sampleCount (tracker : SourceSeqTracker N) (source : UInt8) : Nat :=
  (tracker.slot source).samples

def reset (tracker : SourceSeqTracker N) (source : UInt8) : SourceSeqTracker N :=
  if inside : source.toNat < N then
    ⟨Function.update tracker.slots ⟨source.toNat, inside⟩ {}⟩
  else tracker

def clear (_ : SourceSeqTracker N) : SourceSeqTracker N := {}

/-- A subscriber feeds the frames it has popped to its tracker. -/
def observeFrames (tracker : SourceSeqTracker N) (frames : List Bytes) : SourceSeqTracker N :=
  frames.foldl (fun tracker frame => (tracker.observe (frameSource frame) (frameSeq frame)).1)
    tracker

theorem slot_observe {source : UInt8} (inside : source.toNat < N)
    (tracker : SourceSeqTracker N) (seq : UInt32) :
    (tracker.observe source seq).1.slot source = ((tracker.slot source).observe seq).1 := by
  simp only [observe, slot, inside, dif_pos, Function.update_self]

/-- Frames of one source are observed in its slot. -/
theorem slot_observeFrames {source : UInt8} (inside : source.toNat < N)
    (tracker : SourceSeqTracker N) {frames : List Bytes}
    (own : ∀ frame ∈ frames, frameSource frame = source) :
    (tracker.observeFrames frames).slot source =
      (frames.map frameSeq).foldl (fun slot seq => (slot.observe seq).1) (tracker.slot source) := by
  induction frames generalizing tracker with
  | nil => rfl
  | cons frame rest ih =>
      have here := own frame List.mem_cons_self
      rw [observeFrames, List.foldl_cons, ← observeFrames, here,
        ih _ fun f mem => own f (List.mem_cons_of_mem frame mem), slot_observe inside]
      rfl

end SourceSeqTracker

/-! ### Observing what was not lost -/

/-- `n` consecutive sequence numbers. -/
def consecutive (first : UInt32) (n : Nat) : List UInt32 :=
  (List.range n).map fun i => first + UInt32.ofNat i

theorem consecutive_succ (first : UInt32) (n : Nat) :
    consecutive first (n + 1) = consecutive first n ++ [first + UInt32.ofNat n] := by
  simp [consecutive, List.range_succ]

theorem consecutive_take (first : UInt32) {n m : Nat} (le : n ≤ m) :
    (consecutive first m).take n = consecutive first n := by
  rw [consecutive, ← List.map_take, List.take_range, Nat.min_eq_left le, consecutive]

/-- What a slot makes of the survivors among consecutive frames, from `first` on. -/
structure Attributed (first : UInt32) (outcomes : List Bool) (slot : SeqSlot) : Prop where
  valid : slot.valid = true ↔ true ∈ outcomes
  last : true ∈ outcomes → first + UInt32.ofNat outcomes.length =
    slot.lastSeq + UInt32.ofNat (Losses.after outcomes + 1)
  samples : slot.samples = outcomes.count true
  gaps : slot.gaps = Losses.between outcomes
  duplicates : slot.duplicates = 0
  outOfOrder : slot.outOfOrder = 0

variable {first : UInt32} {outcomes : List Bool} {slot : SeqSlot}

theorem Attributed.lost (inv : Attributed first outcomes slot) :
    Attributed first (outcomes ++ [false]) slot := by
  obtain ⟨valid, last, samples, gaps, duplicates, outOfOrder⟩ := inv
  refine ⟨by simpa using valid, ?_, by simpa using samples, ?_, duplicates, outOfOrder⟩
  · intro mem
    have some : true ∈ outcomes := by simpa using mem
    have next := last some
    rw [Losses.after_loss some, List.length_append, List.length_singleton, UInt32.ofNat_add,
      ← UInt32.add_assoc, next, UInt32.add_assoc, ← UInt32.ofNat_add]
  · rw [Losses.between_loss]
    exact gaps

/-- The distance to the next survivor is one more than the losses before it. -/
theorem Attributed.observed (inv : Attributed first outcomes slot)
    (few : Losses.after outcomes < 2 ^ 31 - 1) :
    Attributed first (outcomes ++ [true])
      (slot.observe (first + UInt32.ofNat outcomes.length)).1 := by
  obtain ⟨valid, last, samples, gaps, duplicates, outOfOrder⟩ := inv
  have next : first + UInt32.ofNat (outcomes ++ [true]).length =
      first + UInt32.ofNat outcomes.length +
        UInt32.ofNat (Losses.after (outcomes ++ [true]) + 1) := by
    rw [Losses.after_success, List.length_append, List.length_singleton, UInt32.ofNat_add,
      UInt32.add_assoc]
  have counted : (outcomes ++ [true]).count true = slot.samples + 1 := by
    rw [samples, List.count_append]
    rfl
  have closed := Losses.between_success outcomes
  have here : true ∈ outcomes ++ [true] := by simp
  by_cases some : true ∈ outcomes
  · have distance : first + UInt32.ofNat outcomes.length - slot.lastSeq =
        UInt32.ofNat (Losses.after outcomes + 1) := by
      rw [last some, UInt32.add_comm, UInt32.add_sub_cancel]
    rw [SeqSlot.observe_forward (valid.mpr some) distance few]
    refine ⟨?_, fun _ => next, counted.symm, ?_, duplicates, outOfOrder⟩
    · exact ⟨fun _ => here, fun _ => valid.mpr some⟩
    · rw [closed, gaps]
  · have unknown : slot.valid = false := by simpa using fun known => some (valid.mp known)
    rw [SeqSlot.observe, if_pos unknown]
    refine ⟨⟨fun _ => here, fun _ => rfl⟩, fun _ => next, counted.symm, ?_, duplicates, outOfOrder⟩
    rw [closed, Losses.after_none some, Nat.add_zero]
    exact gaps

/-- The survivors among consecutive frames, never 2^31 - 1 or more of them lost in a row. -/
theorem attributed_survivors {first : UInt32} {offers : List (UInt32 × Bool)}
    (numbered : offers.map Prod.fst = consecutive first offers.length)
    (few : ∀ n, List.replicate n false <:+: offers.map Prod.snd → n < 2 ^ 31 - 1) :
    Attributed first (offers.map Prod.snd) (((offers.filter Prod.snd).map Prod.fst).foldl
      (fun slot seq => (slot.observe seq).1) {}) := by
  induction offers using List.reverseRecOn with
  | nil => exact ⟨by simp, by simp, rfl, rfl, rfl, rfl⟩
  | append_singleton offers offer ih =>
      obtain ⟨seq, survived⟩ := offer
      rw [List.map_append, List.length_append, List.length_singleton, consecutive_succ] at numbered
      obtain ⟨earlier, last⟩ := List.append_inj' numbered rfl
      obtain rfl : seq = first + UInt32.ofNat offers.length := by simpa using last
      rw [List.map_append] at few
      have inv := ih earlier fun n inside => few n (inside.trans (List.prefix_append _ _).isInfix)
      rw [List.map_append, List.filter_append, List.map_append, List.foldl_append]
      cases survived with
      | false => exact inv.lost
      | true =>
          have rare := few _ ((Losses.suffix_after _).isInfix.trans
            (List.prefix_append _ [true]).isInfix)
          have step := inv.observed rare
          rw [List.length_map] at step
          exact step

end RoboticsIpc
