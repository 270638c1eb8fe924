import RoboticsIpc.Router.TrackerRuns

/-!
A publisher that restarts at sequence number 0.

The tracker knows no restarts: a step down is a step forward modulo 2^32 when it is longer
than 2^31, and a stale frame otherwise. The first is taken for a loss of all the numbers in
between and tracking resumes (`own_restart`); after the second the last number stays where
it was. The header speaks of a loss in both cases.
-/

namespace RoboticsIpc

variable {N : Nat}

/-- The loss that a restart after the number `last` is taken for. -/
def restartLoss (last : UInt32) : Nat := 2 ^ 32 - last.toNat - 1

/-- The frames of a restarted publisher, `len` of them: a loss at the first, and then
every number the next one. -/
structure ReportedAsLoss (before after : TrackerRun N) (source : UInt8) (len : Nat) : Prop where
  answers : (after.seen source).map Prod.snd =
    (before.seen source).map Prod.snd ++ .gap :: List.replicate (len - 1) .inOrder
  gaps : after.tracker.gapCount source =
    (before.tracker.gapCount source + restartLoss (before.tracker.lastSeq source)) % 2 ^ 64

namespace SeqSlot

variable {slot : SeqSlot}

/-- How far 0 is ahead of the last number. -/
theorem toNat_zero_sub (last : UInt32) :
    ((0 : UInt32) - last).toNat = (2 ^ 32 - last.toNat) % 2 ^ 32 := by
  rw [UInt32.toNat_sub]
  rfl

/-- Only a step down of more than 2^31 is a gap. -/
theorem observe_restart (known : slot.valid = true) (high : slot.lastSeq.toNat < 2 ^ 32 - 1) :
    ((slot.observe 0).2 = .gap ↔ 2 ^ 31 < slot.lastSeq.toNat) ∧
      ((slot.observe 0).2 = .gap → (slot.observe 0).1.valid = true ∧
        (slot.observe 0).1.lastSeq = 0 ∧
        (slot.observe 0).1.gaps = slot.gaps + restartLoss slot.lastSeq) := by
  have distance := toNat_zero_sub slot.lastSeq
  generalize did : slot.observe 0 = outcome
  cases observed did with
  | first new => rw [new] at known; cases known
  | duplicate _ same =>
      refine ⟨⟨nofun, ?_⟩, nofun⟩
      intro far
      omega
  | inOrder _ next =>
      refine ⟨⟨nofun, ?_⟩, nofun⟩
      intro far
      omega
  | gap _ beyond forward =>
      refine ⟨⟨fun _ => by omega, fun _ => rfl⟩, fun _ => ⟨known, rfl, ?_⟩⟩
      simp only [restartLoss]
      omega
  | outOfOrder _ behind =>
      refine ⟨⟨nofun, ?_⟩, nofun⟩
      intro far
      omega

/-- The next number. -/
theorem observe_next (known : slot.valid = true) (seq : UInt32) (next : seq = slot.lastSeq + 1) :
    slot.observe seq = ({ slot with samples := slot.samples + 1, lastSeq := seq }, .inOrder) := by
  have distance : (seq - slot.lastSeq).toNat = 1 := by
    rw [next, UInt32.add_comm, UInt32.add_sub_cancel]
    rfl
  generalize did : slot.observe seq = outcome
  cases observed did with
  | first new => rw [new] at known; cases known
  | duplicate _ same => omega
  | inOrder => rfl
  | gap _ beyond _ => omega
  | outOfOrder _ behind => omega

end SeqSlot

/-- What was answered stays answered. -/
theorem seen_observeAll (own : OwnLog) (source : UInt8) (seqs : List UInt32) :
    ∃ rest, ((observeAll source seqs).foldl OwnLog.call own).seen = own.seen ++ rest := by
  induction seqs generalizing own with
  | nil => exact ⟨[], (List.append_nil _).symm⟩
  | cons seq seqs ih =>
      obtain ⟨rest, later⟩ := ih (own.call (.observe source seq))
      exact ⟨(seq, (own.slot.observe64 seq).2) :: rest, by
        rw [observeAll, List.map_cons, List.foldl_cons, ← observeAll, later, OwnLog.call,
          List.append_assoc]
        rfl⟩

/-- A source's part of the run after a restart that was taken for a loss. -/
structure Resumed (own after : OwnLog) (n : Nat) : Prop where
  valid : after.slot.valid = true
  last : after.slot.lastSeq = UInt32.ofNat n
  gaps : after.slot.gaps = (own.slot.gaps + restartLoss own.slot.lastSeq) % 2 ^ 64
  answers : after.seen.map Prod.snd = own.seen.map Prod.snd ++ .gap :: List.replicate n .inOrder

/-- The next number after a restart. -/
theorem Resumed.next {own after : OwnLog} {n : Nat} (inv : Resumed own after n) (source : UInt8) :
    Resumed own (after.call (.observe source (UInt32.ofNat (n + 1)))) (n + 1) := by
  have step := SeqSlot.observe_next inv.valid (UInt32.ofNat (n + 1))
    (by rw [inv.last, UInt32.ofNat_add]; rfl)
  have call : after.call (.observe source (UInt32.ofNat (n + 1))) =
      ⟨(SeqSlot.wrapped { after.slot with
          samples := after.slot.samples + 1, lastSeq := UInt32.ofNat (n + 1) }),
        after.seen ++ [(UInt32.ofNat (n + 1), .inOrder)]⟩ := by
    rw [OwnLog.call, SeqSlot.observe64, step]
  rw [call]
  refine ⟨inv.valid, rfl, ?_, ?_⟩
  · simp only [SeqSlot.wrapped, inv.gaps, Nat.mod_mod]
  · rw [List.map_append, inv.answers, List.append_assoc, List.cons_append, List.replicate_succ']
    rfl

/-- After a gap at 0 the stream is in order. -/
theorem resumed_stream {own : OwnLog} (known : own.slot.valid = true)
    (high : own.slot.lastSeq.toNat < 2 ^ 32 - 1) (gap : (own.slot.observe 0).2 = .gap)
    (source : UInt8) (n : Nat) :
    Resumed own ((observeAll source (consecutive 0 (n + 1))).foldl OwnLog.call own) n := by
  induction n with
  | zero =>
      obtain ⟨valid, last, gaps⟩ := (SeqSlot.observe_restart known high).2 gap
      have answer : (own.slot.observe64 0).2 = .gap := gap
      have one : observeAll source (consecutive 0 1) = [.observe source 0] := rfl
      rw [one, List.foldl_cons, List.foldl_nil]
      refine ⟨valid, last, congrArg (· % 2 ^ 64) gaps, ?_⟩
      rw [OwnLog.call, List.map_append, List.map_singleton, answer, List.replicate_zero]
  | succ n ih =>
      have number : (0 : UInt32) + UInt32.ofNat (n + 1) = UInt32.ofNat (n + 1) := UInt32.zero_add _
      rw [consecutive_succ, number, observeAll, List.map_append, List.foldl_append]
      exact ih.next source

/-- A restart is reported as a loss exactly when the step down is longer than 2^31, whatever
other sources send in between. -/
theorem restart_reported_iff {source : UInt8} (inside : source.toNat < N)
    (calls : List TrackerCall) (known : (runCalls N calls).tracker.has source = true)
    (high : ((runCalls N calls).tracker.lastSeq source).toNat < 2 ^ 32 - 1)
    {later : List TrackerCall} {len : Nat} (some : 0 < len)
    (stream : later.filter (TrackerCall.concerns source) = observeAll source (consecutive 0 len)) :
    ReportedAsLoss (runCalls N calls) (runCalls N (calls ++ later)) source len ↔
      2 ^ 31 < ((runCalls N calls).tracker.lastSeq source).toNat := by
  obtain ⟨n, rfl⟩ : ∃ n, len = n + 1 := Nat.exists_eq_add_one.mpr some
  have after : (runCalls N (calls ++ later)).own source =
      (observeAll source (consecutive 0 (n + 1))).foldl OwnLog.call
        ((runCalls N calls).own source) := by
    rw [runCalls, List.foldl_append, own_foldl inside, stream, runCalls]
  have restart := SeqSlot.observe_restart known high
  constructor
  · intro reported
    apply restart.1.mp
    have first : observeAll source (consecutive 0 (n + 1)) =
        .observe source 0 :: observeAll source (consecutive 0 (n + 1)).tail := by
      rw [observeAll, consecutive, List.range_succ_eq_map]
      rfl
    rw [first, List.foldl_cons] at after
    obtain ⟨rest, more⟩ := seen_observeAll
      (((runCalls N calls).own source).call (.observe source 0)) source
      (consecutive 0 (n + 1)).tail
    rw [← after] at more
    have answers := congrArg (List.map Prod.snd) more
    rw [OwnLog.call, List.append_assoc, List.map_append] at answers
    have same := List.append_cancel_left (reported.answers.symm.trans answers)
    exact (List.cons.inj same).1.symm
  · intro far
    have resumed : Resumed ((runCalls N calls).own source) _ n :=
      resumed_stream known high (restart.1.mpr far) source n
    rw [← after] at resumed
    exact ⟨resumed.answers, resumed.gaps⟩

/-- One frame with this number, and then two of the restarted publisher. -/
def restartAfter (last : UInt32) : List TrackerCall × List TrackerCall :=
  ([.observe 1 last], observeAll 1 (consecutive 0 2))

theorem restart_reported_far : ReportedAsLoss (runCalls 2 (restartAfter 3000000000).1)
    (runCalls 2 ((restartAfter 3000000000).1 ++ (restartAfter 3000000000).2)) 1 2 := by
  have inside : (1 : UInt8).toNat < 2 := by decide
  exact (restart_reported_iff inside (restartAfter 3000000000).1 (by decide) (by decide)
    (by decide) rfl).mpr (by decide)

/-- The header's restart: both frames of the new stream are stale and the last number stays. -/
theorem restart_stale :
    ((runCalls 2 ((restartAfter 1000000000).1 ++ (restartAfter 1000000000).2)).seen 1).map
      Prod.snd = [.first, .outOfOrder, .outOfOrder] ∧
    (runCalls 2 ((restartAfter 1000000000).1 ++ (restartAfter 1000000000).2)).tracker.lastSeq 1 =
      1000000000 ∧
    ¬ ReportedAsLoss (runCalls 2 (restartAfter 1000000000).1)
      (runCalls 2 ((restartAfter 1000000000).1 ++ (restartAfter 1000000000).2)) 1 2 := by
  refine ⟨by decide, by decide, ?_⟩
  intro reported
  exact absurd reported.gaps (by decide)

end RoboticsIpc
