import RoboticsIpc.Ipc.ShmSpsc
import RoboticsIpc.Lib.StepRun

/-!
One ring under an arbitrary interleaving of one producer and one consumer.

`shm_try_push_slot` is cut into its four atomic steps (load head, load tail,
write slot, store head + 1) and `shm_try_pop_slot` into its own (load tail, load
head, read slot, store tail + 1); memory is sequentially consistent. Each party
keeps the counters it has loaded in its program counter, so it acts on copies
that may be out of date with respect to the other party.

`pushed` and `popped` are ghost logs: the payloads of the pushes that returned
true and the messages of the pops that did, in the order of their final stores.

`SpscInv` is the invariant of every run. It allows for two program counters that
no run of these steps produces: a stale own counter that is at least a whole
ring ahead of an empty ring, whose call is bound to fail. A ring that is reset
under a running call leaves those behind (`RoboticsIpc.Ipc.SpscRestart`);
`Fresh` excludes them.
-/

namespace RoboticsIpc.ShmSpsc

open ByteBuffer RingWindow StepRun

/-- Where a producer stands in `shm_try_push_slot`. -/
inductive PushPc where
  | idle
  | loadedHead (payload : Bytes) (h : Nat)
  | loadedTail (payload : Bytes) (h : Nat)
  | wroteSlot (payload : Bytes) (h : Nat)

/-- Where a consumer stands in `shm_try_pop_slot`; `capacity` is its buffer's. -/
inductive PopPc where
  | idle
  | loadedTail (capacity t : Nat)
  | loadedHead (capacity t : Nat)
  | readSlot (msg : Bytes) (t : Nat)

structure SpscState where
  ring : ShmRing
  push : PushPc
  pop : PopPc
  pushed : List Bytes
  popped : List Bytes

/-- What a step tells its caller. -/
inductive StepResult where
  | running
  | pushed
  | full
  | popped
  | empty
  | tooSmall
deriving DecidableEq

inductive SpscAct where
  | callPush (payload : Bytes)
  | push
  | callPop (capacity : Nat)
  | pop

def SpscState.init (p : RingParams) : SpscState where
  ring := initRing p
  push := .idle
  pop := .idle
  pushed := []
  popped := []

/-- The next atomic step of a push under way. -/
def producerStep (p : RingParams) (s : SpscState) : Option (SpscState × StepResult) :=
  match s.push with
  | .idle => none
  | .loadedHead payload h =>
      if u64Sub h s.ring.tail ≥ p.slotCount then
        some ({ s with push := .idle }, .full)
      else
        some ({ s with push := .loadedTail payload h }, .running)
  | .loadedTail payload h =>
      some ({ s with ring := { s.ring with slots := writeSlot p s.ring.slots h payload }
                     push := .wroteSlot payload h }, .running)
  | .wroteSlot payload h =>
      some ({ s with ring := { s.ring with head := u64Inc h }
                     push := .idle
                     pushed := s.pushed ++ [payload] }, .pushed)

/-- The next atomic step of a pop under way. -/
def consumerStep (p : RingParams) (s : SpscState) : Option (SpscState × StepResult) :=
  match s.pop with
  | .idle => none
  | .loadedTail capacity t =>
      if t ≥ s.ring.head then
        some ({ s with pop := .idle }, .empty)
      else
        some ({ s with pop := .loadedHead capacity t }, .running)
  | .loadedHead capacity t =>
      let slot := s.ring.slots (t % p.slotCount)
      if copySize p slot > capacity then
        some ({ s with pop := .idle }, .tooSmall)
      else
        some ({ s with pop := .readSlot (slot.data.take (copySize p slot)) t }, .running)
  | .readSlot msg t =>
      some ({ s with ring := { s.ring with tail := u64Inc t }
                     pop := .idle
                     popped := s.popped ++ [msg] }, .popped)

/-- One atomic step of one party. A call starts with its load of its own counter. -/
def spscStep (p : RingParams) (s : SpscState) : SpscAct → Option (SpscState × StepResult)
  | .callPush payload =>
      match s.push with
      | .idle => some ({ s with push := .loadedHead payload s.ring.head }, .running)
      | _ => none
  | .push => producerStep p s
  | .callPop capacity =>
      match s.pop with
      | .idle => some ({ s with pop := .loadedTail capacity s.ring.tail }, .running)
      | _ => none
  | .pop => consumerStep p s

def spscNext (p : RingParams) (s : SpscState) (a : SpscAct) : Option SpscState :=
  (spscStep p s a).map Prod.fst

/-! ### The calls are their steps -/

/-- Four uninterrupted steps of a push are `shmTryPushSlot`. -/
theorem push_steps_eq_call (p : RingParams) (s : SpscState) (payload : Bytes)
    (idle : s.push = .idle) :
    (shmTryPushSlot p s.ring payload = (s.ring, false) ∧
        run (spscNext p) s [.callPush payload, .push] = some s) ∨
      (∃ ring', shmTryPushSlot p s.ring payload = (ring', true) ∧
        run (spscNext p) s [.callPush payload, .push, .push, .push] =
          some { s with ring := ring', pushed := s.pushed ++ [payload] }) := by
  rcases Nat.lt_or_ge (u64Sub s.ring.head s.ring.tail) p.slotCount with room | full
  · refine .inr ⟨_, shmTryPushSlot_room payload room, ?_⟩
    simp [run, spscNext, spscStep, producerStep, idle, Nat.not_le.mpr room, pushedRing]
  · refine .inl ⟨shmTryPushSlot_full payload full, ?_⟩
    obtain ⟨ring, push, pop, pushed, popped⟩ := s
    simp only at idle full
    subst idle
    simp [run, spscNext, spscStep, producerStep, full]

/-- Four uninterrupted steps of a pop are `shmTryPopSlot`. -/
theorem pop_steps_eq_call (p : RingParams) (s : SpscState) (capacity : Nat)
    (idle : s.pop = .idle) :
    match shmTryPopSlot p s.ring capacity with
    | .ok none => run (spscNext p) s [.callPop capacity, .pop] = some s
    | .error _ => run (spscNext p) s [.callPop capacity, .pop, .pop] = some s
    | .ok (some (msg, ring')) => run (spscNext p) s [.callPop capacity, .pop, .pop, .pop] =
        some { s with ring := ring', popped := s.popped ++ [msg] } := by
  obtain ⟨ring, push, pop, pushed, popped⟩ := s
  simp only at idle
  subst idle
  unfold shmTryPopSlot
  by_cases empty : ring.tail ≥ ring.head
  · simp [run, spscNext, spscStep, consumerStep, empty]
  · by_cases small : copySize p (ring.slots (ring.tail % p.slotCount)) > capacity
    · simp [run, spscNext, spscStep, consumerStep, empty, small]
    · simp [run, spscNext, spscStep, consumerStep, empty, small]

/-! ### The invariant -/

/-- What the producer may rely on at each point of a push, `q` being unread. -/
def ProducerInv (p : RingParams) (ring : ShmRing) (q : List Bytes) : PushPc → Prop
  | .idle => True
  | .loadedHead _ h =>
      h = ring.head ∨ (ring.head = 0 ∧ ring.tail = 0 ∧ p.slotCount ≤ h ∧ h < 2 ^ 64)
  | .loadedTail _ h => h = ring.head ∧ q.length < p.slotCount
  | .wroteSlot payload h => h = ring.head ∧ q.length < p.slotCount ∧
      Stores p (ring.slots (h % p.slotCount)) (cut p payload)

/-- What the consumer may rely on at each point of a pop. -/
def ConsumerInv (p : RingParams) (ring : ShmRing) (q : List Bytes) : PopPc → Prop
  | .idle => True
  | .loadedTail _ t => t = ring.tail ∨ (ring.tail = 0 ∧ p.slotCount ≤ t)
  | .loadedHead _ t => t = ring.tail ∧ q ≠ []
  | .readSlot msg t => t = ring.tail ∧ q.head? = some msg

/-- The ring holds `q`, and `q` is what has been pushed and not yet popped. -/
structure Pending (p : RingParams) (s : SpscState) (q : List Bytes) : Prop where
  live : Live p s.ring q
  history : s.pushed.map (cut p) = s.popped ++ q
  tail_eq : s.ring.tail = s.popped.length
  producer : ProducerInv p s.ring q s.push
  consumer : ConsumerInv p s.ring q s.pop

def SpscInv (p : RingParams) (s : SpscState) : Prop := ∃ q, Pending p s q

/-- Both parties' copies of their own counters are current. -/
structure Fresh (s : SpscState) : Prop where
  producer : ∀ payload h, s.push = .loadedHead payload h → h = s.ring.head
  consumer : ∀ capacity t, s.pop = .loadedTail capacity t → t = s.ring.tail

variable {p : RingParams} {s s' : SpscState} {q : List Bytes} {a : SpscAct} {r : StepResult}

theorem spscNext_eq_some : spscNext p s a = some s' ↔ ∃ r, spscStep p s a = some (s', r) := by
  simp [spscNext]

theorem Pending.head_eq (pending : Pending p s q) : s.ring.head = s.pushed.length := by
  have lengths := congrArg List.length pending.history
  simp only [List.length_map, List.length_append] at lengths
  rw [pending.live.head_eq, pending.tail_eq, lengths]

theorem spscInv_init : SpscInv p (.init p) :=
  ⟨[], live_initRing, rfl, rfl, trivial, trivial⟩

theorem fresh_init : Fresh (.init p) := by
  constructor <;> · intro _ _ pc; cases pc

/-! ### One step -/

/-- A step of the producer keeps the invariant; only its last store counts a push. -/
theorem producerStep_inv (inv : SpscInv p s) (step : producerStep p s = some (s', r))
    (bound : s'.pushed.length < 2 ^ 64) : SpscInv p s' := by
  obtain ⟨q, pending⟩ := inv
  obtain ⟨live, history, tail_eq, producer, consumer⟩ := pending
  cases pc : s.push with
  | idle => simp [producerStep, pc] at step
  | loadedHead payload h =>
      simp only [producerStep, pc] at step
      simp only [pc, ProducerInv] at producer
      split at step
      · cases step
        exact ⟨q, live, history, tail_eq, trivial, consumer⟩
      · rename_i room
        cases step
        refine ⟨q, live, history, tail_eq, ?_, consumer⟩
        rcases producer with current | ⟨-, tail0, ahead, small⟩
        · subst current
          rw [live.pending] at room
          exact ⟨rfl, by omega⟩
        · rw [tail0, u64Sub_of_le (Nat.zero_le _) small] at room
          omega
  | loadedTail payload h =>
      simp only [producerStep, pc, Option.some.injEq, Prod.mk.injEq] at step
      obtain ⟨rfl, -⟩ := step
      simp only [pc, ProducerInv] at producer
      obtain ⟨rfl, room⟩ := producer
      obtain ⟨slot, written⟩ := writeSlot_eq_update p s.ring.slots s.ring.head payload
      have stored := @stores_writeSlot p s.ring.slots s.ring.head payload
      refine ⟨q, ⟨live.head_eq, live.room, live.head_lt, ?_⟩, history, tail_eq,
        ⟨rfl, room, stored⟩, consumer⟩
      simp only [written]
      rw [live.head_eq]
      exact live.holds.update_free room slot
  | wroteSlot payload h =>
      have head_eq := Pending.head_eq ⟨live, history, tail_eq, producer, consumer⟩
      simp only [producerStep, pc, Option.some.injEq, Prod.mk.injEq] at step
      obtain ⟨rfl, -⟩ := step
      simp only [pc, ProducerInv] at producer
      obtain ⟨rfl, room, stored⟩ := producer
      simp only [List.length_append, List.length_singleton] at bound
      have inc : u64Inc s.ring.head = s.ring.head + 1 := Nat.mod_eq_of_lt (by omega)
      have back := live.head_eq
      refine ⟨q ++ [cut p payload], ⟨?_, ?_, ?_, ?_⟩, ?_, tail_eq, trivial, ?_⟩
      · simp only [inc, List.length_append, List.length_singleton]
        omega
      · simp only [List.length_append, List.length_singleton]
        omega
      · simp only [inc]
        omega
      · exact live.holds.snoc (by rw [← back]; exact stored)
      · simp [history]
      · cases popPc : s.pop with
        | idle => trivial
        | loadedTail capacity t => simpa only [popPc, ConsumerInv] using consumer
        | loadedHead capacity t =>
            simp only [popPc, ConsumerInv] at consumer
            exact ⟨consumer.1, by simp⟩
        | readSlot msg t =>
            simp only [popPc, ConsumerInv] at consumer
            refine ⟨consumer.1, ?_⟩
            rw [List.head?_append, consumer.2]
            rfl

/-- The producer's knowledge survives the consumer taking the front message. -/
theorem ProducerInv.of_pop {ring : ShmRing} {msg : Bytes} {pc : PushPc}
    (producer : ProducerInv p ring (msg :: q) pc) (busy : ring.head ≠ ring.tail) :
    ProducerInv p { ring with tail := ring.tail + 1 } q pc := by
  cases pc with
  | idle => trivial
  | loadedHead payload h =>
      rcases producer with current | ⟨head0, tail0, -⟩
      · exact .inl current
      · exact absurd (head0.trans tail0.symm) busy
  | loadedTail payload h =>
      exact ⟨producer.1, by have := producer.2; simp only [List.length_cons] at this; omega⟩
  | wroteSlot payload h =>
      obtain ⟨current, room, stored⟩ := producer
      exact ⟨current, by simp only [List.length_cons] at room; omega, stored⟩

/-- A step of the consumer keeps the invariant. -/
theorem consumerStep_inv (inv : SpscInv p s) (step : consumerStep p s = some (s', r)) :
    SpscInv p s' := by
  obtain ⟨q, live, history, tail_eq, producer, consumer⟩ := inv
  have back := live.head_eq
  cases pc : s.pop with
  | idle => simp [consumerStep, pc] at step
  | loadedTail capacity t =>
      simp only [consumerStep, pc] at step
      simp only [pc, ConsumerInv] at consumer
      split at step
      · cases step
        exact ⟨q, live, history, tail_eq, producer, trivial⟩
      · rename_i busy
        cases step
        refine ⟨q, live, history, tail_eq, producer, ?_⟩
        have room := live.room
        rcases consumer with current | ⟨tail0, ahead⟩
        · refine ⟨current, ?_⟩
          rintro rfl
          simp only [List.length_nil] at back
          omega
        · omega
  | loadedHead capacity t =>
      simp only [consumerStep, pc] at step
      simp only [pc, ConsumerInv] at consumer
      obtain ⟨rfl, nonempty⟩ := consumer
      split at step
      · cases step
        exact ⟨q, live, history, tail_eq, producer, trivial⟩
      · cases step
        refine ⟨q, live, history, tail_eq, producer, rfl, ?_⟩
        obtain ⟨msg, rest, rfl⟩ := List.exists_cons_of_ne_nil nonempty
        obtain ⟨front, -⟩ := holds_cons.mp live.holds
        rw [front.copied]
        rfl
  | readSlot msg t =>
      simp only [consumerStep, pc, Option.some.injEq, Prod.mk.injEq] at step
      obtain ⟨rfl, -⟩ := step
      simp only [pc, ConsumerInv] at consumer
      obtain ⟨rfl, front⟩ := consumer
      obtain ⟨rest, rfl⟩ := List.head?_eq_some_iff.mp front
      simp only [List.length_cons] at back
      have inc : u64Inc s.ring.tail = s.ring.tail + 1 :=
        Nat.mod_eq_of_lt (by have := live.head_lt; omega)
      have room := live.room
      simp only [List.length_cons] at room
      refine ⟨rest, ⟨?_, by omega, live.head_lt, ?_⟩, by simp [history], ?_, ?_, trivial⟩
      · simp only [inc]
        omega
      · simp only [inc]
        exact (holds_cons.mp live.holds).2
      · simp only [inc, List.length_append, List.length_singleton]
        omega
      · simp only [inc]
        exact producer.of_pop (by omega)

theorem spscStep_inv (inv : SpscInv p s) (step : spscNext p s a = some s')
    (bound : s'.pushed.length < 2 ^ 64) : SpscInv p s' := by
  obtain ⟨r, step⟩ := spscNext_eq_some.mp step
  cases a with
  | push => exact producerStep_inv inv step bound
  | pop => exact consumerStep_inv inv step
  | callPush payload =>
      obtain ⟨q, live, history, tail_eq, -, consumer⟩ := inv
      simp only [spscStep] at step
      split at step
      · cases step
        exact ⟨q, live, history, tail_eq, .inl rfl, consumer⟩
      · cases step
  | callPop capacity =>
      obtain ⟨q, live, history, tail_eq, producer, -⟩ := inv
      simp only [spscStep] at step
      split at step
      · cases step
        exact ⟨q, live, history, tail_eq, producer, .inl rfl⟩
      · cases step

/-- No party's store touches the counter the other one has a copy of. -/
theorem spscStep_fresh (fresh : Fresh s) (step : spscNext p s a = some s') : Fresh s' := by
  obtain ⟨r, step⟩ := spscNext_eq_some.mp step
  obtain ⟨producer, consumer⟩ := fresh
  cases a with
  | push =>
      simp only [spscStep, producerStep] at step
      cases pc : s.push <;> simp only [pc] at step
      case idle => cases step
      case loadedHead => split at step <;> cases step <;> exact ⟨by simp, consumer⟩
      case loadedTail => cases step; exact ⟨by simp, consumer⟩
      case wroteSlot => cases step; exact ⟨by simp, consumer⟩
  | pop =>
      simp only [spscStep, consumerStep] at step
      cases pc : s.pop <;> simp only [pc] at step
      case idle => cases step
      case loadedTail => split at step <;> cases step <;> exact ⟨producer, by simp⟩
      case loadedHead => split at step <;> cases step <;> exact ⟨producer, by simp⟩
      case readSlot => cases step; exact ⟨producer, by simp⟩
  | callPush payload =>
      simp only [spscStep] at step
      split at step
      · cases step
        exact ⟨by rintro _ _ ⟨⟩; rfl, consumer⟩
      · cases step
  | callPop capacity =>
      simp only [spscStep] at step
      split at step
      · cases step
        exact ⟨producer, by rintro _ _ ⟨⟩; rfl⟩
      · cases step

theorem spscNext_pushed_le (step : spscNext p s a = some s') :
    s.pushed.length ≤ s'.pushed.length := by
  obtain ⟨r, step⟩ := spscNext_eq_some.mp step
  cases a <;> simp only [spscStep, producerStep, consumerStep] at step <;> split at step <;>
    first
    | cases step; simp
    | (split at step <;> cases step <;> simp)
    | cases step

/-! ### Every interleaving -/

/-- The position whose slot a push owns: from the check for room to the store of
`head + 1`. -/
def PushPc.claims : PushPc → Option Nat
  | .loadedTail _ h => some h
  | .wroteSlot _ h => some h
  | _ => none

/-- The position whose slot a pop owns: from the check for a message to the store
of `tail + 1`. -/
def PopPc.claims : PopPc → Option Nat
  | .loadedHead _ t => some t
  | .readSlot _ t => some t
  | _ => none

/-- The two parties never own one slot. -/
theorem Pending.claims_apart (pending : Pending p s q) {h t : Nat}
    (producer : s.push.claims = some h) (consumer : s.pop.claims = some t) :
    h % p.slotCount ≠ t % p.slotCount := by
  have back := pending.live.head_eq
  have ahead : h = s.ring.head ∧ q.length < p.slotCount := by
    have inv := pending.producer
    cases pc : s.push <;> simp only [pc, PushPc.claims, ProducerInv] at producer inv <;> cases producer
    · exact inv
    · exact ⟨inv.1, inv.2.1⟩
  have behind : t = s.ring.tail ∧ q ≠ [] := by
    have inv := pending.consumer
    cases pc : s.pop <;> simp only [pc, PopPc.claims, ConsumerInv] at consumer inv <;> cases consumer
    · exact inv
    · refine ⟨inv.1, ?_⟩
      rintro rfl
      simp at inv
  obtain ⟨rfl, room⟩ := ahead
  obtain ⟨rfl, nonempty⟩ := behind
  have := List.length_pos_iff.mpr nonempty
  exact (mod_ne_of_window (by omega) (by omega)).symm

/-- What was loaded by a call that a step ends without success, and what it leaves. -/
theorem spscStep_reports {r : StepResult} (step : spscStep p s a = some (s', r)) :
    match r with
    | .full => s'.ring = s.ring ∧
        ∃ payload h, s.push = .loadedHead payload h ∧ p.slotCount ≤ u64Sub h s.ring.tail
    | .empty => s'.ring = s.ring ∧
        ∃ capacity t, s.pop = .loadedTail capacity t ∧ s.ring.head ≤ t
    | .tooSmall => s'.ring = s.ring ∧ s'.pushed = s.pushed ∧ s'.popped = s.popped
    | _ => True := by
  cases a with
  | callPush payload =>
      simp only [spscStep] at step
      split at step <;> cases step
      trivial
  | callPop capacity =>
      simp only [spscStep] at step
      split at step <;> cases step
      trivial
  | push =>
      cases pc : s.push <;> simp only [spscStep, producerStep, pc] at step
      case loadedHead payload h =>
        split at step <;> cases step
        · exact ⟨rfl, payload, h, rfl, ‹_›⟩
        · trivial
      all_goals
        cases step
        try trivial
  | pop =>
      cases pc : s.pop <;> simp only [spscStep, consumerStep, pc] at step
      case loadedTail capacity t =>
        split at step <;> cases step
        · exact ⟨rfl, capacity, t, rfl, ‹_›⟩
        · trivial
      case loadedHead =>
        split at step <;> cases step
        · exact ⟨rfl, rfl, rfl⟩
        · trivial
      all_goals
        cases step
        try trivial

/-- A push that gives up found every slot in use when it loaded `tail`. -/
theorem Pending.full_of_rejected (pending : Pending p s q) (fresh : Fresh s)
    (step : spscStep p s a = some (s', .full)) :
    s.ring.head - s.ring.tail = p.slotCount ∧ s'.ring = s.ring := by
  have back := pending.live.head_eq
  have room := pending.live.room
  obtain ⟨same, payload, h, pc, full⟩ := spscStep_reports step
  rw [fresh.producer payload h pc, pending.live.pending] at full
  exact ⟨by omega, same⟩

/-- A pop that reports an empty ring found no message when it loaded `head`. -/
theorem Pending.empty_of_nothing (pending : Pending p s q) (fresh : Fresh s)
    (step : spscStep p s a = some (s', .empty)) :
    s.ring.head = s.ring.tail ∧ s'.ring = s.ring := by
  have back := pending.live.head_eq
  obtain ⟨same, capacity, t, pc, empty⟩ := spscStep_reports step
  rw [fresh.consumer capacity t pc] at empty
  exact ⟨by omega, same⟩

/-- A pop into a buffer that is too small throws and has changed nothing. -/
theorem unchanged_of_tooSmall (step : spscStep p s a = some (s', .tooSmall)) :
    s'.ring = s.ring ∧ s'.pushed = s.pushed ∧ s'.popped = s.popped :=
  spscStep_reports step

/-- Runs of one producer and one consumer keep the invariant. -/
theorem run_spscInv {schedule : List SpscAct}
    (ran : run (spscNext p) (.init p) schedule = some s) (bound : s.pushed.length < 2 ^ 64) :
    SpscInv p s ∧ Fresh s :=
  ⟨run_inv_of_bound (m := fun s => s.pushed.length) spscInv_init
      (fun _ _ _ step => spscNext_pushed_le step)
      (fun _ _ _ inv step below => spscStep_inv inv step below) ran bound,
    run_inv fresh_init (fun _ _ _ fresh step => spscStep_fresh fresh step) ran⟩

/-- The ring is a lossless bounded FIFO under every interleaving: the counters
stay within one ring of each other, the popped messages are a prefix of the cut
payloads of the successful pushes, the parties never own one slot, a push fails
only on a full ring, a pop reports empty only on an empty one, and a pop that
throws leaves the ring and its messages as they were. -/
theorem spsc_lossless_fifo (p : RingParams) (schedule : List SpscAct) (s : SpscState)
    (ran : run (spscNext p) (.init p) schedule = some s) (bound : s.pushed.length < 2 ^ 64) :
    (s.ring.tail ≤ s.ring.head ∧ s.ring.head ≤ s.ring.tail + p.slotCount) ∧
      s.popped <+: s.pushed.map (fun m => m.take (min m.length p.maxPayload)) ∧
      (∀ h t, s.push.claims = some h → s.pop.claims = some t →
        h % p.slotCount ≠ t % p.slotCount) ∧
      (∀ a s', spscStep p s a = some (s', .full) →
        s.ring.head - s.ring.tail = p.slotCount ∧ s'.ring = s.ring) ∧
      (∀ a s', spscStep p s a = some (s', .empty) →
        s.ring.head = s.ring.tail ∧ s'.ring = s.ring) ∧
      (∀ a s', spscStep p s a = some (s', .tooSmall) →
        s'.ring = s.ring ∧ s'.pushed = s.pushed ∧ s'.popped = s.popped) := by
  obtain ⟨⟨q, pending⟩, fresh⟩ := run_spscInv ran bound
  have back := pending.live.head_eq
  have room := pending.live.room
  refine ⟨⟨by omega, by omega⟩, ?_, fun _ _ => pending.claims_apart,
    fun _ _ => pending.full_of_rejected fresh, fun _ _ => pending.empty_of_nothing fresh,
    fun _ _ => unchanged_of_tooSmall⟩
  exact ⟨q, pending.history.symm⟩

/-- A ring of one slot of two bytes. -/
def tinyRing : RingParams := .oneSlot 2 (by decide)

/-- The slot is filled, a second push is let in by the pop that empties it. -/
def tinySchedule : List SpscAct :=
  [.callPush [1, 2, 3], .push, .push, .push, .callPop 8, .callPush [4], .pop, .pop, .pop,
    .push, .push, .push]

theorem spsc_lossless_fifo_tinyRing : ∃ s,
    run (spscNext tinyRing) (.init tinyRing) tinySchedule = some s ∧ s.popped = [[1, 2]] ∧
      s.popped <+: s.pushed.map (fun m => m.take (min m.length tinyRing.maxPayload)) := by
  obtain ⟨s, ran⟩ : ∃ s, run (spscNext tinyRing) (.init tinyRing) tinySchedule = some s :=
    ⟨_, rfl⟩
  have result : s.popped = [[1, 2]] ∧ s.pushed.length < 2 ^ 64 := by
    cases ran
    exact ⟨rfl, by decide⟩
  exact ⟨s, ran, result.1, (spsc_lossless_fifo tinyRing tinySchedule s ran result.2).2.1⟩

end RoboticsIpc.ShmSpsc
