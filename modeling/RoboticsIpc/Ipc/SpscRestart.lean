import RoboticsIpc.Ipc.SpscSteps

/-!
A router that re-binds a region its client is still attached to.

`ShmSpsc::bind` with `create = true` opens the region that is already there,
clears it and zeroes all four counters; the region is not unlinked first. The
client keeps running, possibly in the middle of a push on the request ring or of
a pop on the reply ring, with counters it loaded before the reset.

A region is its two rings under atomic steps (`RoboticsIpc.Ipc.SpscSteps`); the
reset is one more step. It restarts the ghost logs, so that they speak of the
messages pushed and popped since the last bind.

`RebindSafe` says at which points of its call the client may be caught.
Elsewhere its last store brings a counter of the old incarnation into the new
ring (`rebindSafe_iff`).
-/

namespace RoboticsIpc.ShmSpsc

open ByteBuffer RingWindow StepRun

/-- A region in use: the client pushes on `req` and pops on `rep`. -/
structure RegionState where
  req : SpscState
  rep : SpscState

inductive RegionAct where
  | req (a : SpscAct)
  | rep (a : SpscAct)
  | rebind

def RegionState.init (p : RingParams) : RegionState := ⟨.init p, .init p⟩

/-- `ShmSpsc::bind` with `create` by a new router: it has no call under way, the
client's calls go on. -/
def RegionState.rebind (p : RingParams) (s : RegionState) : RegionState where
  req := { SpscState.init p with push := s.req.push }
  rep := { SpscState.init p with pop := s.rep.pop }

def regionStep (p : RingParams) (s : RegionState) : RegionAct → Option RegionState
  | .req a => (spscNext p s.req a).map fun req => { s with req := req }
  | .rep a => (spscNext p s.rep a).map fun rep => { s with rep := rep }
  | .rebind => some (s.rebind p)

/-- What a ring owes its users: its counters are within one ring of each other,
and what was pushed since the bind is what was popped followed by what is there
to be popped, in order. -/
def Delivers (p : RingParams) (s : SpscState) : Prop :=
  (s.ring.tail ≤ s.ring.head ∧ s.ring.head ≤ s.ring.tail + p.slotCount) ∧
    ∃ q, s.pushed.map (cut p) = s.popped ++ q ∧ Live p s.ring q

/-- Points of a push at which a reset of its ring does no harm: it has loaded no
head that could survive in the new ring, and written nothing the reset erases. -/
def PushPc.RebindSafe (p : RingParams) : PushPc → Prop
  | .idle => True
  | .loadedHead _ h => h = 0 ∨ p.slotCount ≤ h
  | .loadedTail _ h => h = 0
  | .wroteSlot payload h => h = 0 ∧ cut p payload = []

/-- Points of a pop at which a reset of its ring does no harm. -/
def PopPc.RebindSafe (p : RingParams) : PopPc → Prop
  | .idle => True
  | .loadedTail _ t => t = 0 ∨ p.slotCount ≤ t
  | .loadedHead _ _ => False
  | .readSlot _ _ => False

/-- The client may be caught here by a re-bind. -/
def RebindSafe (p : RingParams) (s : RegionState) : Prop :=
  s.req.push.RebindSafe p ∧ s.rep.pop.RebindSafe p

/-- Runs whose re-binds all find the client at a safe point, and whose counters
do not wrap. -/
inductive SafeRun (p : RingParams) : RegionState → Prop
  | init : SafeRun p (.init p)
  | step {s s' : RegionState} {a : RegionAct} : SafeRun p s → regionStep p s a = some s' →
      (a = .rebind → RebindSafe p s) →
      s'.req.pushed.length < 2 ^ 64 → s'.rep.pushed.length < 2 ^ 64 → SafeRun p s'

variable {p : RingParams} {s : SpscState}

theorem SpscInv.delivers (inv : SpscInv p s) : Delivers p s := by
  obtain ⟨q, pending⟩ := inv
  have back := pending.live.head_eq
  have room := pending.live.room
  exact ⟨⟨by omega, by omega⟩, q, pending.history, pending.live⟩

/-- A reset under a push at a safe point re-establishes the invariant. -/
theorem spscInv_reset_push (inv : SpscInv p s) (safe : s.push.RebindSafe p) :
    SpscInv p { SpscState.init p with push := s.push } := by
  obtain ⟨q, pending⟩ := inv
  have top := pending.live.head_lt
  have producer := pending.producer
  have slots := p.slotCount_pos
  refine ⟨[], live_initRing, rfl, rfl, ?_, trivial⟩
  cases pc : s.push with
  | idle => trivial
  | loadedHead payload h =>
      simp only [pc, PushPc.RebindSafe, ProducerInv] at safe producer
      rcases safe with zero | ahead
      · exact .inl zero
      · refine .inr ⟨rfl, rfl, ahead, ?_⟩
        rcases producer with current | ⟨-, -, -, small⟩
        · omega
        · exact small
  | loadedTail payload h =>
      simp only [pc, PushPc.RebindSafe] at safe
      exact ⟨safe, slots⟩
  | wroteSlot payload h =>
      simp only [pc, PushPc.RebindSafe] at safe
      obtain ⟨zero, erased⟩ := safe
      refine ⟨zero, slots, ?_⟩
      rw [erased]
      exact ⟨rfl, Nat.zero_le _, rfl⟩

/-- A reset under a pop at a safe point re-establishes the invariant. -/
theorem spscInv_reset_pop (safe : s.pop.RebindSafe p) :
    SpscInv p { SpscState.init p with pop := s.pop } := by
  refine ⟨[], live_initRing, rfl, rfl, trivial, ?_⟩
  cases pc : s.pop with
  | idle => trivial
  | loadedTail capacity t =>
      simp only [pc, PopPc.RebindSafe] at safe
      exact safe.imp id fun ahead => ⟨rfl, ahead⟩
  | loadedHead capacity t => simp [pc, PopPc.RebindSafe] at safe
  | readSlot msg t => simp [pc, PopPc.RebindSafe] at safe

theorem SafeRun.inv {s : RegionState} (run : SafeRun p s) :
    SpscInv p s.req ∧ SpscInv p s.rep := by
  induction run with
  | init => exact ⟨spscInv_init, spscInv_init⟩
  | @step s s' a _ next safe reqBound repBound ih =>
      obtain ⟨req, rep⟩ := ih
      cases a with
      | req a =>
          simp only [regionStep, Option.map_eq_some_iff] at next
          obtain ⟨req', moved, rfl⟩ := next
          exact ⟨spscStep_inv req moved reqBound, rep⟩
      | rep a =>
          simp only [regionStep, Option.map_eq_some_iff] at next
          obtain ⟨rep', moved, rfl⟩ := next
          exact ⟨req, spscStep_inv rep moved repBound⟩
      | rebind =>
          cases next
          obtain ⟨pushSafe, popSafe⟩ := safe rfl
          exact ⟨spscInv_reset_push req pushSafe, spscInv_reset_pop popSafe⟩

/-! ### The condition is exact -/

/-- However the ring is used after the reset, it delivers once the client's call
that was under way has returned. -/
def DeliversAfter (p : RingParams) (reset : SpscState) (returned : SpscState → Prop) : Prop :=
  ∀ schedule s, run (spscNext p) reset schedule = some s → s.pushed.length < 2 ^ 64 →
    returned s → Delivers p s

theorem SpscInv.deliversAfter (inv : SpscInv p s) (returned : SpscState → Prop) :
    DeliversAfter p s returned := by
  intro schedule s' ran bound _
  exact (run_inv_of_bound (m := fun s => s.pushed.length) inv
    (fun _ _ _ step => spscNext_pushed_le step)
    (fun _ _ _ inv step below => spscStep_inv inv step below) ran bound).delivers

theorem Delivers.counts (delivers : Delivers p s) :
    s.ring.head + s.popped.length = s.ring.tail + s.pushed.length := by
  obtain ⟨-, q, history, live⟩ := delivers
  have lengths := congrArg List.length history
  simp only [List.length_map, List.length_append] at lengths
  have := live.head_eq
  omega

/-- The head a push has loaded. -/
def PushPc.loaded : PushPc → Option Nat
  | .idle => none
  | .loadedHead _ h => some h
  | .loadedTail _ h => some h
  | .wroteSlot _ h => some h

theorem SpscInv.loaded_head_lt (inv : SpscInv p s) {h : Nat} (loaded : s.push.loaded = some h) :
    h < 2 ^ 64 := by
  obtain ⟨q, pending⟩ := inv
  have top := pending.live.head_lt
  have producer := pending.producer
  cases pc : s.push <;> simp only [pc, PushPc.loaded, ProducerInv] at loaded producer <;>
    cases loaded
  · rcases producer with current | ⟨-, -, -, small⟩
    · omega
    · exact small
  · omega
  · omega

/-- A push that stores a stale head makes messages appear that nobody sent, and
one whose bytes the reset erased delivers an empty message in their place. -/
theorem push_rebindSafe_of_delivers {pc : PushPc} (small : ∀ h, pc.loaded = some h → h < 2 ^ 64)
    (delivers : DeliversAfter p { SpscState.init p with push := pc } (·.push = .idle)) :
    pc.RebindSafe p := by
  have slots := p.slotCount_pos
  cases pc with
  | idle => trivial
  | loadedHead payload h =>
      by_contra unsafeHead
      simp only [PushPc.RebindSafe, not_or, Nat.not_le] at unsafeHead
      have pass : ¬ u64Sub h 0 ≥ p.slotCount := by
        rw [u64Sub_of_le (Nat.zero_le _) (small h rfl)]
        omega
      have inc : u64Inc h = h + 1 :=
        Nat.mod_eq_of_lt (by have := p.slotCount_lt; omega)
      have counts := (delivers [.push, .push, .push] _ (by
        simp [run, spscNext, spscStep, producerStep, SpscState.init, initRing, pass]
        rfl) (by simp) rfl).counts
      simp [inc] at counts
      omega
  | loadedTail payload h =>
      have counts := (delivers [.push, .push] _ rfl (by simp [SpscState.init]) rfl).counts
      have := small h rfl
      simp only [SpscState.init, initRing, u64Inc, List.length_nil, List.nil_append,
        List.length_singleton] at counts
      simp only [PushPc.RebindSafe]
      omega
  | wroteSlot payload h =>
      have done := delivers [.push] _ rfl (by simp [SpscState.init]) rfl
      have counts := done.counts
      have := small h rfl
      simp only [SpscState.init, initRing, u64Inc, List.length_nil, List.nil_append,
        List.length_singleton] at counts
      refine ⟨by omega, ?_⟩
      -- The one message pending is read out of a slot the reset has cleared.
      obtain ⟨-, q, history, live⟩ := done
      simp only [SpscState.init, List.map_nil, List.nil_append, List.map_cons] at history
      subst history
      have stored := (holds_cons.mp live.holds).1.len
      exact List.length_eq_zero_iff.mp stored.symm

/-- Empty messages pushed into a fresh ring under a pop that has not read it yet. -/
theorem push_many (pc : PopPc) (k : Nat) (room : k ≤ p.slotCount) : ∃ schedule s,
    run (spscNext p) { SpscState.init p with pop := pc } schedule = some s ∧
      s.push = .idle ∧ s.pop = pc ∧ s.pushed = List.replicate k [] ∧ s.popped = [] ∧
      s.ring.tail = 0 ∧ Live p s.ring (List.replicate k []) := by
  induction k with
  | zero => exact ⟨[], _, rfl, rfl, rfl, rfl, rfl, rfl, live_initRing⟩
  | succ k ih =>
      obtain ⟨schedule, s, ran, idle, pop, pushed, popped, tail0, live⟩ := ih (by omega)
      have space : (List.replicate k ([] : Bytes)).length < p.slotCount := by
        rw [List.length_replicate]
        omega
      have below : s.ring.head + 1 < 2 ^ 64 := by
        have head_eq := live.head_eq
        have := p.slotCount_lt
        rw [tail0, List.length_replicate] at head_eq
        omega
      have free : u64Sub s.ring.head s.ring.tail < p.slotCount := by rwa [live.pending]
      rcases push_steps_eq_call p s [] idle with ⟨rejected, -⟩ | ⟨ring', call, steps⟩
      · simp [shmTryPushSlot_room [] free] at rejected
      · rw [shmTryPushSlot_room [] free, Prod.mk.injEq] at call
        rw [← call.1] at steps
        refine ⟨schedule ++ [.callPush [], .push, .push, .push],
          { s with ring := pushedRing p s.ring [], pushed := s.pushed ++ [[]] },
          ?_, idle, pop, ?_, popped, tail0, ?_⟩
        · rw [run_append, ran]
          exact steps
        · rw [List.replicate_succ', pushed]
        · rw [List.replicate_succ']
          exact live.push_room space below

/-- A pop that carries a stale tail into the new ring skips messages or leaves
the tail ahead of the head. -/
theorem pop_rebindSafe_of_delivers {pc : PopPc} (small : ∀ t, pc.claims = some t → t + 1 < 2 ^ 64)
    (delivers : DeliversAfter p { SpscState.init p with pop := pc } (·.pop = .idle)) :
    pc.RebindSafe p := by
  cases pc with
  | idle => trivial
  | readSlot msg t =>
      have behind := (delivers [.pop] _ rfl (by simp [SpscState.init]) rfl).1.1
      have := small t rfl
      simp only [SpscState.init, initRing, u64Inc] at behind
      omega
  | loadedHead capacity t =>
      have cleared : copySize p ⟨0, List.replicate p.maxPayload 0⟩ = 0 := by simp [copySize]
      have behind := (delivers [.pop, .pop] _ (by
        simp [run, spscNext, spscStep, consumerStep, SpscState.init, initRing, cleared]
        rfl) (by simp) rfl).1.1
      have := small t rfl
      simp only [u64Inc] at behind
      omega
  | loadedTail capacity t =>
      by_contra unsafeTail
      simp only [PopPc.RebindSafe, not_or, Nat.not_le] at unsafeTail
      obtain ⟨schedule, s, ran, -, pop, pushed, popped, tail0, live⟩ :=
        push_many (p := p) (.loadedTail capacity t) (t + 1) (by omega)
      have head_eq := live.head_eq
      rw [tail0, List.length_replicate] at head_eq
      have stored := live.holds t (by simp)
      rw [tail0, Nat.zero_add, List.getElem_replicate] at stored
      have copied : copySize p (s.ring.slots (t % p.slotCount)) = 0 := stored.copySize
      have inc : u64Inc t = t + 1 := Nat.mod_eq_of_lt (by have := p.slotCount_lt; omega)
      have popped' : run (spscNext p) s [.pop, .pop, .pop] =
          some { s with ring := { s.ring with tail := u64Inc t }, pop := .idle,
                        popped := s.popped ++ [[]] } := by
        have busy : ¬ t ≥ s.ring.head := by omega
        simp [run, spscNext, spscStep, consumerStep, pop, busy, copied]
      have counts := (delivers (schedule ++ [.pop, .pop, .pop]) _
        (by rw [run_append, ran]; exact popped')
        (by simp only [pushed, List.length_replicate]; have := p.slotCount_lt; omega) rfl).counts
      simp only [head_eq, popped, pushed, inc, List.nil_append, List.length_singleton,
        List.length_replicate] at counts
      omega

theorem SpscInv.claimed_tail_lt (inv : SpscInv p s) {t : Nat} (claimed : s.pop.claims = some t) :
    t + 1 < 2 ^ 64 := by
  obtain ⟨q, pending⟩ := inv
  have back := pending.live.head_eq
  have top := pending.live.head_lt
  have consumer := pending.consumer
  have room := pending.live.room
  have slots := p.slotCount_lt
  cases pc : s.pop <;> simp only [pc, PopPc.claims, ConsumerInv] at claimed consumer <;>
    cases claimed
  · have := List.length_pos_iff.mpr consumer.2
    omega
  · obtain ⟨rest, rfl⟩ := List.head?_eq_some_iff.mp consumer.2
    simp only [List.length_cons] at back
    omega

/-- At every state of such runs, `RebindSafe` is exactly when a re-bind leaves
both rings delivering whatever happens next. -/
theorem rebindSafe_iff {s : RegionState} (run : SafeRun p s) :
    RebindSafe p s ↔ DeliversAfter p (s.rebind p).req (·.push = .idle) ∧
      DeliversAfter p (s.rebind p).rep (·.pop = .idle) := by
  obtain ⟨req, rep⟩ := run.inv
  constructor
  · rintro ⟨pushSafe, popSafe⟩
    exact ⟨(spscInv_reset_push req pushSafe).deliversAfter _,
      (spscInv_reset_pop popSafe).deliversAfter _⟩
  · rintro ⟨afterPush, afterPop⟩
    exact ⟨push_rebindSafe_of_delivers (fun _ loaded => req.loaded_head_lt loaded) afterPush,
      pop_rebindSafe_of_delivers (fun _ claimed => rep.claimed_tail_lt claimed) afterPop⟩

/-- A router restart is harmless exactly when it finds the client at a safe
point: in a run whose re-binds all do, both rings deliver everything pushed since
the last one, in order and with nothing before it; at any other point some
continuation breaks a ring for good. -/
theorem restart_delivers (p : RingParams) (s : RegionState) (run : SafeRun p s) :
    (Delivers p s.req ∧ Delivers p s.rep) ∧
      (RebindSafe p s ↔ DeliversAfter p (s.rebind p).req (·.push = .idle) ∧
        DeliversAfter p (s.rebind p).rep (·.pop = .idle)) :=
  ⟨⟨run.inv.1.delivers, run.inv.2.delivers⟩, rebindSafe_iff run⟩

/-- A re-bind that finds the client with the head of an unused ring loaded. -/
theorem restart_delivers_early_push : ∃ s, SafeRun tinyRing s ∧
    s.req.push = .loadedHead [7] 0 ∧ Delivers tinyRing s.req ∧ Delivers tinyRing s.rep := by
  have early : SafeRun tinyRing ⟨{ SpscState.init tinyRing with push := .loadedHead [7] 0 },
      .init tinyRing⟩ :=
    .step (a := .req (.callPush [7])) .init rfl (by rintro ⟨⟩) (by decide) (by decide)
  have rebound := early.step (a := .rebind) rfl (fun _ => ⟨.inl rfl, trivial⟩)
    (by decide) (by decide)
  have both := (restart_delivers tinyRing _ rebound).1
  exact ⟨_, rebound, rfl, both.1, both.2⟩

/-- The client has read the one reply of its ring when the router restarts; its
last store then leaves `tail` ahead of `head` for ever. -/
def wedgingSchedule : List RegionAct :=
  [.rep (.callPush [1]), .rep .push, .rep .push, .rep .push,
    .rep (.callPop 8), .rep .pop, .rep .pop, .rebind, .rep .pop]

/-- After a restart at an unsafe point the client is idle again, the reply ring
has `head < tail`, no push into it succeeds and no pop finds anything. -/
theorem rebind_wedges_reply_ring : ∃ s,
    run (regionStep tinyRing) (.init tinyRing) wedgingSchedule = some s ∧
      s.rep.pop = .idle ∧ s.rep.push = .idle ∧ s.rep.ring.head < s.rep.ring.tail ∧
      (∀ payload, shmTryPushSlot tinyRing s.rep.ring payload = (s.rep.ring, false)) ∧
      (∀ capacity, shmTryPopSlot tinyRing s.rep.ring capacity = .ok none) := by
  obtain ⟨s, ran⟩ : ∃ s, run (regionStep tinyRing) (.init tinyRing) wedgingSchedule = some s :=
    ⟨_, rfl⟩
  have final : s.rep.pop = .idle ∧ s.rep.push = .idle ∧ s.rep.ring.head = 0 ∧
      s.rep.ring.tail = 1 := by
    cases ran
    exact ⟨rfl, rfl, rfl, rfl⟩
  obtain ⟨pop, push, head0, tail1⟩ := final
  refine ⟨s, ran, pop, push, by omega, fun payload => ?_, fun capacity => ?_⟩
  · refine shmTryPushSlot_full payload ?_
    rw [head0, tail1]
    decide
  · unfold shmTryPopSlot
    rw [head0, tail1]
    rfl

end RoboticsIpc.ShmSpsc
