import RoboticsIpc.Ipc.Runtime
import RoboticsIpc.Lib.RingWindow

/-!
The shared-memory transport (`ipc/shm_spsc.hpp`): one mapped region per peer,
with a request ring (client to router) and a reply ring (router to client).

A ring is two 64-bit counters and `slotCount` slots; `shmTryPushSlot` and
`shmTryPopSlot` are the two calls that touch it. `RoboticsIpc.Ipc.SpscSteps`
cuts the same calls into their atomic steps; here they run uninterrupted.

`Carries p ring q` is what the rest of the development knows about a ring: its
unread messages are `q`, oldest first. The counters are 64-bit and `tail >= head`
is tested without wrapping, so after 2^64 pushes a ring stops delivering for
ever; `Carries` admits that state too (`Jammed`), which makes the push and pop
laws below hold of every ring a run can reach, with no bound on its length.
-/

namespace RoboticsIpc.ShmSpsc

open ByteBuffer RingWindow

/-! ### Regions -/

/-- `uint64_t` subtraction. -/
def u64Sub (a b : Nat) : Nat := (a + 2 ^ 64 - b) % 2 ^ 64

/-- `uint64_t` increment. -/
def u64Inc (a : Nat) : Nat := (a + 1) % 2 ^ 64

/-- Sizing of a region's rings. -/
structure RingParams where
  slotCount : Nat
  maxPayload : Nat
  slotCount_pos : 0 < slotCount
  slotCount_lt : slotCount < 2 ^ 64
  maxPayload_lt : maxPayload < 2 ^ 32
deriving DecidableEq

/-- The defaults of `ShmSpsc::BindParams`: 256 slots of 1024 bytes. -/
def defaultRingParams : RingParams where
  slotCount := 256
  maxPayload := 1024
  slotCount_pos := by decide
  slotCount_lt := by decide
  maxPayload_lt := by decide

/-- Rings of one slot. -/
def RingParams.oneSlot (maxPayload : Nat) (fits : maxPayload < 2 ^ 32) : RingParams where
  slotCount := 1
  maxPayload := maxPayload
  slotCount_pos := by decide
  slotCount_lt := by decide
  maxPayload_lt := fits

/-- A slot: the `std::atomic<uint32_t>` length word and the bytes behind it. -/
structure Slot where
  len : Nat
  data : Bytes

/-- One direction of a region as it lies in shared memory. -/
structure ShmRing where
  head : Nat
  tail : Nat
  slots : Nat → Slot

/-- A mapped region. -/
structure MappedRegion where
  req : ShmRing
  rep : ShmRing

/-- `ShmRegion`: one process's handle on a region. The sizing is the handle's,
not the memory's. -/
structure ShmRegion where
  name : CStr
  params : RingParams
  isServerRole : Bool

/-- `/dev/shm`: the regions by name. Different names are different objects, and the two rings of
an object are given slot by slot: two handles that size one object differently overlap in its
bytes, which is not modelled here. -/
abbrev ShmMemory := CStr → MappedRegion

/-- A ring after `memset` and `shm_init_control`. -/
def initRing (p : RingParams) : ShmRing where
  head := 0
  tail := 0
  slots := fun _ => ⟨0, List.replicate p.maxPayload 0⟩

/-- The mapping and role part of `ShmSpsc::bind`; `create` resets the region.
`shm_open`, `ftruncate` and `mmap` are taken to succeed, and each name to open an object of its
own, whatever the operating system's limits on names. -/
def bind (name : CStr) (params : RingParams) (create : Bool) (mem : ShmMemory) :
    ShmMemory × ShmRegion :=
  (if create then Function.update mem name ⟨initRing params, initRing params⟩ else mem,
    ⟨name, params, create⟩)

/-! ### Push and pop -/

/-- The bytes of a payload a push stores: its first `min(size, max_payload)`. -/
def cut (p : RingParams) (payload : Bytes) : Bytes :=
  payload.take (min payload.length p.maxPayload)

/-- The `memcpy` and the length store of a push that claimed position `h`. -/
def writeSlot (p : RingParams) (slots : Nat → Slot) (h : Nat) (payload : Bytes) : Nat → Slot :=
  let n := min payload.length p.maxPayload
  let index := h % p.slotCount
  Function.update slots index
    ⟨n % 2 ^ 32, splice 0 (payload.take n) (slots index).data⟩

/-- `shm_try_push_slot`. -/
def shmTryPushSlot (p : RingParams) (ring : ShmRing) (payload : Bytes) : ShmRing × Bool :=
  let h := ring.head
  let t := ring.tail
  if u64Sub h t ≥ p.slotCount then
    (ring, false)
  else
    ({ ring with slots := writeSlot p ring.slots h payload, head := u64Inc h }, true)

/-- How many bytes a pop of this slot copies. -/
def copySize (p : RingParams) (slot : Slot) : Nat := min slot.len p.maxPayload

def recvBufferTooSmall : RuntimeError := ⟨ascii "shm recv buffer too small"⟩

/-- `shm_try_pop_slot`: nothing there, or the message and the ring with `tail`
advanced; a buffer that is too small throws and leaves the ring as it was. -/
def shmTryPopSlot (p : RingParams) (ring : ShmRing) (capacity : Nat) :
    Except RuntimeError (Option (Bytes × ShmRing)) :=
  let t := ring.tail
  let h := ring.head
  if t ≥ h then
    .ok none
  else
    let slot := ring.slots (t % p.slotCount)
    if copySize p slot > capacity then
      .error recvBufferTooSmall
    else
      .ok (some (slot.data.take (copySize p slot), { ring with tail := u64Inc t }))

/-- `ShmSpsc::try_send`: the server pushes replies, a client pushes requests. -/
def trySend (handle : ShmRegion) (mem : ShmMemory) (payload : Bytes) : ShmMemory × Bool :=
  let region := mem handle.name
  if handle.isServerRole then
    let (rep, ok) := shmTryPushSlot handle.params region.rep payload
    (Function.update mem handle.name { region with rep := rep }, ok)
  else
    let (req, ok) := shmTryPushSlot handle.params region.req payload
    (Function.update mem handle.name { region with req := req }, ok)

/-- `ShmSpsc::try_recv`: the server pops requests, a client pops replies. -/
def tryRecv (handle : ShmRegion) (mem : ShmMemory) (capacity : Nat) :
    Except RuntimeError (Option (Bytes × ShmMemory)) :=
  let region := mem handle.name
  if handle.isServerRole then
    match shmTryPopSlot handle.params region.req capacity with
    | .error e => .error e
    | .ok none => .ok none
    | .ok (some (msg, req)) =>
        .ok (some (msg, Function.update mem handle.name { region with req := req }))
  else
    match shmTryPopSlot handle.params region.rep capacity with
    | .error e => .error e
    | .ok none => .ok none
    | .ok (some (msg, rep)) =>
        .ok (some (msg, Function.update mem handle.name { region with rep := rep }))

/-- The ring after a push that found a free slot. -/
def pushedRing (p : RingParams) (ring : ShmRing) (payload : Bytes) : ShmRing :=
  { ring with slots := writeSlot p ring.slots ring.head payload, head := u64Inc ring.head }

/-- The ring after a pop. -/
def poppedRing (ring : ShmRing) : ShmRing := { ring with tail := u64Inc ring.tail }

theorem shmTryPushSlot_full {p : RingParams} {ring : ShmRing} (payload : Bytes)
    (full : p.slotCount ≤ u64Sub ring.head ring.tail) :
    shmTryPushSlot p ring payload = (ring, false) := by
  simp only [shmTryPushSlot]
  exact if_pos full

theorem shmTryPushSlot_room {p : RingParams} {ring : ShmRing} (payload : Bytes)
    (room : u64Sub ring.head ring.tail < p.slotCount) :
    shmTryPushSlot p ring payload = (pushedRing p ring payload, true) := by
  simp only [shmTryPushSlot]
  exact if_neg (by omega)

/-! ### Slots -/

/-- A slot stores a message: its length word and its first bytes are the message's. -/
structure Stores (p : RingParams) (slot : Slot) (m : Bytes) : Prop where
  len : slot.len = m.length
  fits : m.length ≤ p.maxPayload
  data : slot.data.take m.length = m

variable {p : RingParams} {ring : ShmRing} {q : List Bytes} {m payload : Bytes} {capacity : Nat}

@[simp] theorem length_cut : (cut p payload).length = min payload.length p.maxPayload := by
  simp only [cut, List.length_take]
  omega

theorem length_cut_le : (cut p payload).length ≤ p.maxPayload := by
  rw [length_cut]
  omega

theorem cut_eq_self (fits : payload.length ≤ p.maxPayload) : cut p payload = payload := by
  simp [cut, fits]

/-- A freshly written slot stores the cut payload. -/
theorem stores_writeSlot (slots : Nat → Slot) (h : Nat) (payload : Bytes) :
    Stores p (writeSlot p slots h payload (h % p.slotCount)) (cut p payload) := by
  have small := p.maxPayload_lt
  simp only [writeSlot, Function.update_self]
  refine ⟨?_, length_cut_le, ?_⟩
  · rw [length_cut]
    exact Nat.mod_eq_of_lt (by omega)
  · simp [splice, cut]

theorem writeSlot_eq_update (p : RingParams) (slots : Nat → Slot) (h : Nat) (payload : Bytes) :
    ∃ slot, writeSlot p slots h payload = Function.update slots (h % p.slotCount) slot :=
  ⟨_, rfl⟩

theorem Stores.copySize {slot : Slot} (stored : Stores p slot m) : copySize p slot = m.length := by
  have := stored.fits
  rw [ShmSpsc.copySize, stored.len]
  omega

/-- A pop copies out exactly the stored message. -/
theorem Stores.copied {slot : Slot} (stored : Stores p slot m) :
    slot.data.take (ShmSpsc.copySize p slot) = m := by
  rw [stored.copySize, stored.data]

/-! ### Rings -/

/-- The ring's unread messages are `q`, and its counters have not wrapped. -/
structure Live (p : RingParams) (ring : ShmRing) (q : List Bytes) : Prop where
  head_eq : ring.head = ring.tail + q.length
  room : q.length ≤ p.slotCount
  head_lt : ring.head < 2 ^ 64
  holds : Holds (Stores p) p.slotCount ring.slots ring.tail q

/-- `head` has wrapped past zero and `tail` has not: no pop succeeds any more. -/
structure Jammed (p : RingParams) (ring : ShmRing) : Prop where
  wrapped : ring.head < ring.tail
  tail_lt : ring.tail < 2 ^ 64
  room : 2 ^ 64 - (ring.tail - ring.head) ≤ p.slotCount

/-- What holds of a ring between two calls: its pending messages are `q`, unless
its counters have wrapped and it delivers nothing more. -/
def Carries (p : RingParams) (ring : ShmRing) (q : List Bytes) : Prop :=
  Live p ring q ∨ Jammed p ring

theorem live_initRing : Live p (initRing p) [] :=
  ⟨rfl, Nat.zero_le _, Nat.two_pow_pos 64, holds_nil⟩

theorem carries_initRing : Carries p (initRing p) [] := .inl live_initRing

theorem u64Sub_of_le {a b : Nat} (le : b ≤ a) (lt : a < 2 ^ 64) : u64Sub a b = a - b := by
  unfold u64Sub
  omega

theorem Live.pending (live : Live p ring q) : u64Sub ring.head ring.tail = q.length := by
  have := live.head_eq
  rw [u64Sub_of_le (by omega) live.head_lt]
  omega

/-- The counters agree exactly when nothing is pending. -/
theorem Live.empty_iff (live : Live p ring q) : ring.head = ring.tail ↔ q = [] := by
  rw [live.head_eq]
  constructor
  · intro same
    exact List.eq_nil_of_length_eq_zero (by omega)
  · intro none
    simp [none]

/-- On a full ring a push returns false and changes nothing. -/
theorem Live.push_full (live : Live p ring q) (full : q.length = p.slotCount) :
    shmTryPushSlot p ring payload = (ring, false) :=
  shmTryPushSlot_full payload (by rw [live.pending]; omega)

/-- With a free slot a push succeeds, and the message is the last one pending. -/
theorem Live.push_room (live : Live p ring q) (room : q.length < p.slotCount)
    (below : ring.head + 1 < 2 ^ 64) :
    Live p (pushedRing p ring payload) (q ++ [cut p payload]) := by
  have bound := live.head_eq
  have inc : u64Inc ring.head = ring.head + 1 := Nat.mod_eq_of_lt below
  refine ⟨by simp [pushedRing, inc]; omega, by simp; omega, by simpa [pushedRing, inc] using below,
    ?_⟩
  obtain ⟨slot, written⟩ := writeSlot_eq_update p ring.slots ring.head payload
  have stored := @stores_writeSlot p ring.slots ring.head payload
  simp only [pushedRing, written, Function.update_self] at stored ⊢
  rw [bound]
  exact live.holds.push room stored

/-- The push that wraps `head` leaves the ring jammed. -/
theorem Live.push_wraps (live : Live p ring q) (room : q.length < p.slotCount)
    (wraps : ¬ ring.head + 1 < 2 ^ 64) : Jammed p (pushedRing p ring payload) := by
  have bound := live.head_eq
  have top := live.head_lt
  have slots := p.slotCount_lt
  have inc : u64Inc ring.head = 0 := by unfold u64Inc; omega
  exact ⟨by simp only [pushedRing, inc]; omega, by simp only [pushedRing]; omega,
    by simp only [pushedRing, inc]; omega⟩

theorem Jammed.push (jammed : Jammed p ring) (room : u64Sub ring.head ring.tail < p.slotCount) :
    Jammed p (pushedRing p ring payload) := by
  obtain ⟨wrapped, top, -⟩ := jammed
  have slots := p.slotCount_lt
  have gap : u64Sub ring.head ring.tail = 2 ^ 64 - (ring.tail - ring.head) := by
    unfold u64Sub
    omega
  have inc : u64Inc ring.head = ring.head + 1 := Nat.mod_eq_of_lt (by omega)
  exact ⟨by simp only [pushedRing, inc]; omega, top, by simp only [pushedRing, inc]; omega⟩

/-- A push that finds a free slot appends the cut payload. -/
theorem Carries.pushed (carries : Carries p ring q)
    (room : u64Sub ring.head ring.tail < p.slotCount) :
    Carries p (pushedRing p ring payload) (q ++ [cut p payload]) := by
  rcases carries with live | jammed
  · have room' : q.length < p.slotCount := by rwa [live.pending] at room
    by_cases below : ring.head + 1 < 2 ^ 64
    · exact .inl (live.push_room room' below)
    · exact .inr (live.push_wraps room' below)
  · exact .inr (jammed.push room)

/-- Every push either appends the cut payload or finds the ring full. -/
theorem Carries.push (carries : Carries p ring q) (payload : Bytes) :
    (∃ ring', shmTryPushSlot p ring payload = (ring', true) ∧
        Carries p ring' (q ++ [cut p payload])) ∨
      (shmTryPushSlot p ring payload = (ring, false) ∧
        (Live p ring q → q.length = p.slotCount)) := by
  rcases Nat.lt_or_ge (u64Sub ring.head ring.tail) p.slotCount with room | full
  · exact .inl ⟨_, shmTryPushSlot_room payload room, carries.pushed room⟩
  · refine .inr ⟨shmTryPushSlot_full payload full, fun live => ?_⟩
    rw [live.pending] at full
    exact Nat.le_antisymm live.room full

/-- An empty ring has nothing to pop. -/
theorem Live.pop_empty (live : Live p ring []) : shmTryPopSlot p ring capacity = .ok none := by
  have := live.head_eq
  simp only [List.length_nil] at this
  unfold shmTryPopSlot
  rw [if_pos (by omega)]

/-- Taking the oldest message leaves the others. -/
theorem Live.popped (live : Live p ring (m :: q)) : Live p (poppedRing ring) q := by
  have bound := live.head_eq
  have top := live.head_lt
  have room := live.room
  simp only [List.length_cons] at bound room
  obtain ⟨-, rest⟩ := holds_cons.mp live.holds
  have inc : u64Inc ring.tail = ring.tail + 1 := Nat.mod_eq_of_lt (by omega)
  refine ⟨?_, by omega, top, by simpa only [poppedRing, inc] using rest⟩
  simp only [poppedRing, inc]
  omega

/-- A pop returns the oldest message. -/
theorem Live.pop_cons (live : Live p ring (m :: q)) (fits : m.length ≤ capacity) :
    shmTryPopSlot p ring capacity = .ok (some (m, poppedRing ring)) := by
  have bound := live.head_eq
  simp only [List.length_cons] at bound
  obtain ⟨front, -⟩ := holds_cons.mp live.holds
  unfold shmTryPopSlot
  rw [if_neg (by omega)]
  simp only [front.copied]
  rw [if_neg (by rw [front.copySize]; omega)]
  rfl

/-- A message longer than the buffer is not consumed: the pop throws. -/
theorem Live.pop_too_small (live : Live p ring (m :: q)) (long : capacity < m.length) :
    shmTryPopSlot p ring capacity = .error recvBufferTooSmall := by
  have bound := live.head_eq
  simp only [List.length_cons] at bound
  obtain ⟨front, -⟩ := holds_cons.mp live.holds
  unfold shmTryPopSlot
  rw [if_neg (by omega)]
  simp only
  rw [if_pos (by rw [front.copySize]; omega)]

theorem Jammed.pop (jammed : Jammed p ring) : shmTryPopSlot p ring capacity = .ok none := by
  have := jammed.wrapped
  unfold shmTryPopSlot
  rw [if_pos (by omega)]

/-- What a pop of a ring carrying `q` can do: find nothing, throw on an oversized
front message, or hand out the front message. -/
theorem Carries.pop (carries : Carries p ring q) (capacity : Nat) :
    (shmTryPopSlot p ring capacity = .ok none ∧ (Live p ring q → q = [])) ∨
      (∃ m rest, q = m :: rest ∧ capacity < m.length ∧
        shmTryPopSlot p ring capacity = .error recvBufferTooSmall) ∨
      (∃ m rest ring', q = m :: rest ∧ m.length ≤ capacity ∧
        shmTryPopSlot p ring capacity = .ok (some (m, ring')) ∧ Carries p ring' rest) := by
  rcases carries with live | jammed
  · cases q with
    | nil => exact .inl ⟨live.pop_empty, fun _ => rfl⟩
    | cons m rest =>
        rcases Nat.lt_or_ge capacity m.length with long | fits
        · exact .inr (.inl ⟨m, rest, rfl, long, live.pop_too_small long⟩)
        · exact .inr (.inr ⟨m, rest, _, rfl, fits, live.pop_cons fits, .inl live.popped⟩)
  · refine .inl ⟨jammed.pop, fun live => ?_⟩
    have := jammed.wrapped
    have := live.head_eq
    omega

end RoboticsIpc.ShmSpsc
