import RoboticsIpc.Ipc.ShmSpsc

/-!
Where a region's parts lie (`shm_slot_stride`, `shm_region_size` and
`shm_map_layout` of `ipc/shm_spsc.hpp`): four counters in the first 64 bytes, the
slots of the request ring, and those of the reply ring. Addresses are `Nat`s.

A slot starts with its length word. `slot_aligned_iff` says which slots start at
a multiple of the word's size.
-/

namespace RoboticsIpc.ShmSpsc

/-- `sizeof(std::atomic<uint32_t>)`, and its alignment. -/
def lengthWordSize : Nat := 4

/-- `shm_slot_stride`. -/
def shmSlotStride (maxPayload : Nat) : Nat := lengthWordSize + maxPayload

/-- `shm_region_size`. -/
def shmRegionSize (slotCount maxPayload : Nat) : Nat :=
  64 + 2 * slotCount * shmSlotStride maxPayload

/-- The pointers of a `ShmRegion`. -/
structure ShmLayout where
  reqHead : Nat
  reqTail : Nat
  repHead : Nat
  repTail : Nat
  reqSlots : Nat
  repSlots : Nat
  slotStride : Nat

/-- `shm_map_layout` of a mapping at `base`. -/
def shmMapLayout (p : RingParams) (base : Nat) : ShmLayout where
  reqHead := base
  reqTail := base + 8
  repHead := base + 16
  repTail := base + 24
  slotStride := shmSlotStride p.maxPayload
  reqSlots := base + 64
  repSlots := base + 64 + p.slotCount * shmSlotStride p.maxPayload

/-- The two rings of a region. -/
inductive RingSide where
  | request
  | reply
deriving DecidableEq

def ShmLayout.slots (l : ShmLayout) : RingSide → Nat
  | .request => l.reqSlots
  | .reply => l.repSlots

/-- `slots + index * slot_stride`, where a push and a pop find their slot. -/
def ShmLayout.slot (l : ShmLayout) (side : RingSide) (index : Nat) : Nat :=
  l.slots side + index * l.slotStride

/-- The slots of the region before this one. -/
def slotsBefore (p : RingParams) : RingSide → Nat → Nat
  | .request, index => index
  | .reply, index => p.slotCount + index

/-- The slots follow the counters one after another. -/
theorem slot_eq (p : RingParams) (base : Nat) (side : RingSide) (index : Nat) :
    (shmMapLayout p base).slot side index =
      base + 64 + slotsBefore p side index * shmSlotStride p.maxPayload := by
  cases side with
  | request => rfl
  | reply =>
      simp only [ShmLayout.slot, ShmLayout.slots, shmMapLayout, slotsBefore, Nat.add_mul,
        Nat.add_assoc]

variable {p : RingParams} {base : Nat}

/-- A slot is aligned when the payloads before it are. -/
theorem slot_aligned_iff (aligned : lengthWordSize ∣ base) (side : RingSide) (index : Nat) :
    lengthWordSize ∣ (shmMapLayout p base).slot side index ↔
      lengthWordSize ∣ slotsBefore p side index * p.maxPayload := by
  have counters : lengthWordSize ∣ base + 64 := Nat.dvd_add aligned (by decide)
  have words : lengthWordSize ∣ slotsBefore p side index * lengthWordSize := Nat.dvd_mul_left ..
  rw [slot_eq, shmSlotStride, Nat.mul_add, Nat.dvd_add_right counters, Nat.dvd_add_right words]

/-- All slots of both rings are aligned exactly when the payload size is. -/
theorem slots_aligned_iff (aligned : lengthWordSize ∣ base) :
    (∀ side index, index < p.slotCount →
        lengthWordSize ∣ (shmMapLayout p base).slot side index) ↔
      lengthWordSize ∣ p.maxPayload := by
  constructor
  · intro all
    rcases Nat.lt_or_ge 1 p.slotCount with several | one
    · have second := (slot_aligned_iff aligned .request 1).mp (all .request 1 several)
      simpa only [slotsBefore, Nat.one_mul] using second
    · have single : p.slotCount = 1 := Nat.le_antisymm one p.slotCount_pos
      have reply := (slot_aligned_iff aligned .reply 0).mp (all .reply 0 p.slotCount_pos)
      simpa only [slotsBefore, single, Nat.add_zero, Nat.one_mul] using reply
  · intro payload side index _
    exact (slot_aligned_iff aligned side index).mpr (Nat.dvd_mul_left_of_dvd payload _)

end RoboticsIpc.ShmSpsc
