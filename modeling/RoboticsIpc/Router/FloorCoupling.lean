import RoboticsIpc.Router.PriorityFloor

/-!
A priority floor against none.

One destination is driven by a schedule of sends and pops, once with a floor and once
without. The floor holds low frames back while the destination is congested, so the
two runs part in what they queue and in the flag itself; but their rings stay
`Coupled`, and a frame that reaches the floor is only ever refused by a full ring.
-/

namespace RoboticsIpc

open ByteBuffer ShmSpsc

/-! ### Schedules -/

/-- The peer's own handle on the region behind a channel. -/
def PeerChannel.client (c : PeerChannel) : ShmRegion := { c.endpoint with isServerRole := false }

/-- What happens to one destination. -/
inductive DestAct where
  | send (frame : RouterFrame)
  | pop

def destStep (dest : UInt8) (c : PeerChannel) (s : ShmState) : DestAct → ShmState
  | .send frame => (s.sendToPeer dest frame.bytes).state
  | .pop =>
      match tryRecv c.client s.world.mem kRouterFrameSize with
      | .ok (some (_, mem)) => { s with world := { s.world with mem } }
      | _ => s

def destRun (dest : UInt8) (c : PeerChannel) (schedule : List DestAct) (s : ShmState) : ShmState :=
  schedule.foldl (destStep dest c) s

/-! ### One send -/

variable {s : ShmState} {dest : UInt8} {c : PeerChannel} {payload : Bytes}

/-- A send leaves the channel in place but for its flag, and the floor as it is. -/
theorem sendToPeer_channel (found : s.link.channelTo dest = some c) (payload : Bytes) :
    (∃ flag, (s.sendToPeer dest payload).state.link.channelTo dest =
        some { c with congested := flag }) ∧
      (s.sendToPeer dest payload).state.link.priorityDropFloor = s.link.priorityDropFloor := by
  have flagged : ∀ flag, (setCongested dest flag s.link.peerChannels).find?
      (fun c => c.peerId = dest) = some { c with congested := flag } := by
    intro flag
    rw [find?_setCongested_self]
    exact congrArg (Option.map _) found
  rcases sendToPeer_cases payload found with ⟨-, eq⟩ | ⟨-, mem, -, eq⟩ | ⟨-, mem, -, eq⟩
  · rw [eq]
    exact ⟨⟨c.congested, found⟩, rfl⟩
  · rw [eq]
    exact ⟨⟨false, flagged false⟩, rfl⟩
  · rw [eq]
    exact ⟨⟨true, flagged true⟩, rfl⟩

/-- No floor sheds a frame that reaches it. -/
theorem not_sheds_of_le {floor : UInt8} (high : floor ≤ priorityFromFrame payload) :
    ¬ Sheds floor c payload := by
  rintro ⟨-, -, low⟩
  exact absurd high (UInt8.not_le.mpr low)

theorem not_sheds_zero : ¬ Sheds 0 c payload := not_sheds_of_le (UInt8.zero_le)

/-! ### Two runs -/

theorem destStep_pop_replyRing (s : ShmState) :
    (destStep dest c s .pop).replyRing c =
      popRing c.endpoint.params (s.replyRing c) kRouterFrameSize := by
  simp only [destStep, tryRecv, PeerChannel.client, Bool.false_eq_true, if_false, popRing,
    ShmState.replyRing]
  cases shmTryPopSlot c.endpoint.params (s.world.mem c.endpoint.name).rep kRouterFrameSize with
  | error e => rfl
  | ok taken =>
      cases taken with
      | none => rfl
      | some pair => simp

theorem destStep_pop_link (s : ShmState) : (destStep dest c s .pop).link = s.link := by
  simp only [destStep]
  split <;> rfl

/-- A run with the floor, and one without, of the same schedule. -/
structure CoupledRuns (floor dest : UInt8) (c : PeerChannel) (held free : ShmState) : Prop where
  heldChannel : ∃ flag, held.link.channelTo dest = some { c with congested := flag }
  freeChannel : ∃ flag, free.link.channelTo dest = some { c with congested := flag }
  heldFloor : held.link.priorityDropFloor = floor
  freeFloor : free.link.priorityDropFloor = 0
  rings : Coupled c.endpoint.params kRouterFrameSize (held.replyRing c) (free.replyRing c)

theorem CoupledRuns.step {floor : UInt8} {held free : ShmState}
    (runs : CoupledRuns floor dest c held free) (server : c.endpoint.isServerRole = true)
    (act : DestAct) :
    CoupledRuns floor dest c (destStep dest c held act) (destStep dest c free act) := by
  obtain ⟨⟨heldFlag, heldFound⟩, ⟨freeFlag, freeFound⟩, heldFloor, freeFloor, rings⟩ := runs
  cases act with
  | send frame =>
      obtain ⟨heldChannel, heldKept⟩ := sendToPeer_channel heldFound frame.bytes
      obtain ⟨freeChannel, freeKept⟩ := sendToPeer_channel freeFound frame.bytes
      refine ⟨heldChannel, freeChannel, heldKept.trans heldFloor, freeKept.trans freeFloor, ?_⟩
      have heldRing := sendToPeer_replyRing heldFound server frame.bytes
      have freeRing := sendToPeer_replyRing freeFound server frame.bytes
      rw [freeFloor, offerRing, if_neg not_sheds_zero] at freeRing
      have offered := rings.offer
        (Sheds held.link.priorityDropFloor { c with congested := heldFlag } frame.bytes)
        frame.size.le
      exact heldRing ▸ freeRing ▸ offered
  | pop =>
      refine ⟨?_, ?_, ?_, ?_, ?_⟩
      · rw [destStep_pop_link]
        exact ⟨heldFlag, heldFound⟩
      · rw [destStep_pop_link]
        exact ⟨freeFlag, freeFound⟩
      · rw [destStep_pop_link, heldFloor]
      · rw [destStep_pop_link, freeFloor]
      · rw [destStep_pop_replyRing, destStep_pop_replyRing]
        exact rings.pop

theorem CoupledRuns.run {floor : UInt8} {held free : ShmState}
    (runs : CoupledRuns floor dest c held free) (server : c.endpoint.isServerRole = true)
    (schedule : List DestAct) :
    CoupledRuns floor dest c (destRun dest c schedule held) (destRun dest c schedule free) := by
  induction schedule generalizing held free with
  | nil => exact runs
  | cons act schedule ih => exact ih (runs.step server act)

/-- From one drained ring, and after any schedule: with a floor the ring is never the
fuller one, and a frame that reaches the floor is admitted where it is without one.
Without a floor, in any state, a frame is admitted exactly when a slot is free. -/
theorem floor_spares_high_priority (found : s.link.channelTo dest = some c)
    (server : c.endpoint.isServerRole = true) (empty : s.Drained c)
    (counter : (s.replyRing c).head < 2 ^ 64) (floor : UInt8) (schedule : List DestAct) :
    ((destRun dest c schedule (linkStep s (.setFloor floor))).replyRing c).occupancy ≤
        ((destRun dest c schedule (linkStep s (.setFloor 0))).replyRing c).occupancy ∧
      (∀ frame : RouterFrame, floor ≤ priorityFromFrame frame.bytes →
        Admits (destRun dest c schedule (linkStep s (.setFloor 0))) dest c frame.bytes →
        Admits (destRun dest c schedule (linkStep s (.setFloor floor))) dest c frame.bytes) ∧
      (∀ frame : RouterFrame,
        Admits (destRun dest c schedule (linkStep s (.setFloor 0))) dest c frame.bytes ↔
          ((destRun dest c schedule (linkStep s (.setFloor 0))).replyRing c).occupancy <
            c.endpoint.params.slotCount) ∧
      ∀ (now : ShmState) (congested : Bool), now.link.priorityDropFloor = 0 →
        now.link.channelTo dest = some { c with congested } → ∀ payload,
          Admits now dest c payload ↔
            (now.replyRing c).occupancy < c.endpoint.params.slotCount := by
  have room : ∀ (now : ShmState) (congested : Bool), now.link.priorityDropFloor = 0 →
      now.link.channelTo dest = some { c with congested } → ∀ payload,
        Admits now dest c payload ↔
          (now.replyRing c).occupancy < c.endpoint.params.slotCount := by
    intro now congested noFloor channel payload
    rw [admits_iff_room channel server, noFloor]
    exact and_iff_right not_sheds_zero
  have live : Live c.endpoint.params (s.replyRing c) [] :=
    ⟨empty, Nat.zero_le _, counter, RingWindow.holds_nil⟩
  have start : CoupledRuns floor dest c (linkStep s (.setFloor floor)) (linkStep s (.setFloor 0)) :=
    ⟨⟨c.congested, found⟩, ⟨c.congested, found⟩, rfl, rfl, .refl live⟩
  have runs := start.run server schedule
  obtain ⟨heldFlag, heldFound⟩ := runs.heldChannel
  obtain ⟨freeFlag, freeFound⟩ := runs.freeChannel
  have fewer := runs.rings.occupancy_le
  refine ⟨fewer, ?_, fun frame => room _ freeFlag runs.freeFloor freeFound frame.bytes, room⟩
  intro frame high admitted
  have slot := (room _ freeFlag runs.freeFloor freeFound frame.bytes).mp admitted
  apply (admits_iff_room heldFound server).mpr
  rw [runs.heldFloor]
  exact ⟨not_sheds_of_le high, Nat.lt_of_le_of_lt fewer slot⟩

/-- A full ring, a pop, and one more frame of priority zero. -/
def floorSchedule : List DestAct := [.send .zero, .send .zero, .pop, .send .zero]

/-- Under floor 3 the last frame is shed, without a floor it takes the freed slot. -/
theorem floor_spares_high_priority_pair : ∃ s c, runShm shmPair [] = some s ∧
    s.router.link.channelTo 2 = some c ∧
    ((destRun 2 c floorSchedule (linkStep s.router (.setFloor 3))).replyRing c).occupancy = 0 ∧
    ((destRun 2 c floorSchedule (linkStep s.router (.setFloor 0))).replyRing c).occupancy = 1 ∧
    ∀ frame : RouterFrame, 3 ≤ priorityFromFrame frame.bytes →
      Admits (destRun 2 c floorSchedule (linkStep s.router (.setFloor 0))) 2 c frame.bytes →
      Admits (destRun 2 c floorSchedule (linkStep s.router (.setFloor 3))) 2 c frame.bytes := by
  have shape : (runShm shmPair []).isSome ∧ ∀ s ∈ runShm shmPair [],
      (s.router.link.channelTo 2).isSome ∧ ∀ c ∈ s.router.link.channelTo 2,
        (c.endpoint.isServerRole = true ∧ s.router.Drained c ∧
          (s.router.replyRing c).head < 2 ^ 64) ∧
        ((destRun 2 c floorSchedule (linkStep s.router (.setFloor 3))).replyRing c).occupancy = 0 ∧
        ((destRun 2 c floorSchedule (linkStep s.router (.setFloor 0))).replyRing c).occupancy = 1 := by
    decide +kernel
  obtain ⟨s, ran⟩ := Option.isSome_iff_exists.mp shape.1
  obtain ⟨declared, bound⟩ := shape.2 s ran
  obtain ⟨c, found⟩ := Option.isSome_iff_exists.mp declared
  obtain ⟨⟨server, drained, counter⟩, held, free⟩ := bound c found
  obtain ⟨-, spared, -⟩ := floor_spares_high_priority found server drained counter 3 floorSchedule
  exact ⟨s, c, ran, found, held, free, spared⟩

end RoboticsIpc
