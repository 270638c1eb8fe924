import RoboticsIpc.Ipc.ShmLayout
import RoboticsIpc.Lib.AddressSpace

/-!
A region as bytes of a mapping.

Here the layout functions compute with 64-bit sizes, and a push and a pop load and store
bytes at the addresses these give; whatever overflows or leaves the mapping is `none`. On a
mapping of the region's size nothing does. The parts of a region do not overlap, so a call
writes its own counter and at most one slot of its own ring (`push_writes`, `pop_writes`),
and what it does is what `shmTryPushSlot` and `shmTryPopSlot` do to the ring that the bytes
represent.
-/

namespace RoboticsIpc.ShmSpsc

open AddressSpace ByteBuffer RecordLayout

/-! ### Sizes and addresses -/

/-- `shm_slot_stride` in `size_t`. -/
def shmSlotStrideChecked (maxPayload : Nat) : Option Nat := addSize lengthWordSize maxPayload

/-- `shm_region_size` in `size_t`. -/
def shmRegionSizeChecked (slotCount maxPayload : Nat) : Option Nat := do
  let stride ← shmSlotStrideChecked maxPayload
  let slots ← mulSize 2 slotCount
  let bytes ← mulSize slots stride
  addSize 64 bytes

/-- `shm_map_layout` with addresses of 64 bits. -/
def shmMapLayoutChecked (p : RingParams) (base : Nat) : Option ShmLayout := do
  let reqTail ← addSize base 8
  let repHead ← addSize base 16
  let repTail ← addSize base 24
  let slotStride ← shmSlotStrideChecked p.maxPayload
  let reqSlots ← addSize base 64
  let ring ← mulSize p.slotCount slotStride
  let repSlots ← addSize reqSlots ring
  return {
    reqHead := base
    reqTail := reqTail
    repHead := repHead
    repTail := repTail
    slotStride := slotStride
    reqSlots := reqSlots
    repSlots := repSlots }

/-- `slots + index * slot_stride`. -/
def slotAddressChecked (slots index slotStride : Nat) : Option Nat := do
  let off ← mulSize index slotStride
  addSize slots off

/-! ### Push and pop on bytes -/

/-- A little-endian integer of `n` bytes. -/
def loadUInt (m : Mapping) (addr n : Nat) : Option Nat := (load m addr n).map leValue

/-- `shm_try_push_slot`. -/
def shmTryPushBytes (head tail slots slotCount slotStride maxPayload : Nat) (payload : Bytes)
    (m : Mapping) : Option (Mapping × Bool) := do
  let h ← loadUInt m head 8
  let t ← loadUInt m tail 8
  if u64Sub h t ≥ slotCount then
    return (m, false)
  else
    let slot ← slotAddressChecked slots (h % slotCount) slotStride
    let n := min payload.length maxPayload
    let data ← addSize slot lengthWordSize
    let m ← store m data (payload.take n)
    let m ← store m slot (leBytes lengthWordSize n)
    let m ← store m head (leBytes 8 (u64Inc h))
    return (m, true)

/-- `shm_try_pop_slot`. -/
def shmTryPopBytes (head tail slots slotCount slotStride maxPayload capacity : Nat)
    (m : Mapping) : Option (Except RuntimeError (Option (Bytes × Mapping))) := do
  let t ← loadUInt m tail 8
  let h ← loadUInt m head 8
  if t ≥ h then
    return .ok none
  else
    let slot ← slotAddressChecked slots (t % slotCount) slotStride
    let n ← loadUInt m slot lengthWordSize
    let copy := min n maxPayload
    if copy > capacity then
      return .error recvBufferTooSmall
    else
      let data ← addSize slot lengthWordSize
      let msg ← load m data copy
      let m ← store m tail (leBytes 8 (u64Inc t))
      return .ok (some (msg, m))

namespace ShmLayout

def head (l : ShmLayout) : RingSide → Nat
  | .request => l.reqHead
  | .reply => l.repHead

def tail (l : ShmLayout) : RingSide → Nat
  | .request => l.reqTail
  | .reply => l.repTail

end ShmLayout

/-- A push to one ring of a region. -/
def pushBytes (p : RingParams) (l : ShmLayout) (side : RingSide) (payload : Bytes) (m : Mapping) :
    Option (Mapping × Bool) :=
  shmTryPushBytes (l.head side) (l.tail side) (l.slots side) p.slotCount l.slotStride p.maxPayload
    payload m

/-- A pop from one ring of a region. -/
def popBytes (p : RingParams) (l : ShmLayout) (side : RingSide) (capacity : Nat) (m : Mapping) :
    Option (Except RuntimeError (Option (Bytes × Mapping))) :=
  shmTryPopBytes (l.head side) (l.tail side) (l.slots side) p.slotCount l.slotStride p.maxPayload
    capacity m

/-! ### Parts -/

/-- What a region consists of. -/
inductive RegionPart where
  | head (side : RingSide)
  | tail (side : RingSide)
  | slot (side : RingSide) (index : Nat)
deriving DecidableEq

namespace RegionPart

def Exists (p : RingParams) : RegionPart → Prop
  | .head _ | .tail _ => True
  | .slot _ index => index < p.slotCount

def side : RegionPart → RingSide
  | .head side | .tail side | .slot side _ => side

/-- Where it lies in a mapping at `base`. -/
def span (p : RingParams) (base : Nat) : RegionPart → Span
  | .head side => ⟨(shmMapLayout p base).head side, 8⟩
  | .tail side => ⟨(shmMapLayout p base).tail side, 8⟩
  | .slot side index => ⟨(shmMapLayout p base).slot side index, (shmMapLayout p base).slotStride⟩

end RegionPart

variable {p : RingParams} {base : Nat} {side : RingSide} {index : Nat} {m m' : Mapping}

/-- The number of a counter in the control block. -/
def counterIndex : RegionPart → Option Nat
  | .head .request => some 0
  | .tail .request => some 1
  | .head .reply => some 2
  | .tail .reply => some 3
  | .slot .. => none

theorem counter_span (p : RingParams) (base : Nat) {part : RegionPart} {k : Nat}
    (counter : counterIndex part = some k) :
    k < 4 ∧ part.span p base = ⟨base + 8 * k, 8⟩ := by
  cases part with
  | head side => cases side <;> cases counter <;> exact ⟨by decide, rfl⟩
  | tail side => cases side <;> cases counter <;> exact ⟨by decide, rfl⟩
  | slot => cases counter

theorem counterIndex_inj {a b : RegionPart} {k : Nat} (first : counterIndex a = some k)
    (second : counterIndex b = some k) : a = b := by
  rcases a with (_ | _) | (_ | _) | _ <;> rcases b with (_ | _) | (_ | _) | _ <;>
    cases first <;> cases second <;> rfl

theorem slot_span (p : RingParams) (base : Nat) (side : RingSide) (index : Nat) :
    (RegionPart.slot side index).span p base =
      ⟨base + 64 + slotsBefore p side index * shmSlotStride p.maxPayload,
        shmSlotStride p.maxPayload⟩ := by
  rw [RegionPart.span, slot_eq]
  rfl

/-- Slots of the region are numbered through. -/
theorem slotsBefore_lt (side : RingSide) (inside : index < p.slotCount) :
    slotsBefore p side index < 2 * p.slotCount := by
  cases side <;> simp only [slotsBefore] <;> omega

theorem slotsBefore_inj {side' : RingSide} {index' : Nat} (inside : index < p.slotCount)
    (inside' : index' < p.slotCount)
    (same : slotsBefore p side index = slotsBefore p side' index') :
    side = side' ∧ index = index' := by
  cases side <;> cases side' <;> simp only [slotsBefore] at same <;>
    first | exact ⟨rfl, by omega⟩ | omega

/-- The slots before the n-th end before it does. -/
theorem slots_end {i n : Nat} (before : i < n) (stride : Nat) :
    i * stride + stride ≤ n * stride := by
  rw [← Nat.succ_mul]
  exact Nat.mul_le_mul_right stride before

/-- Every part lies in the region, the counters in its first 64 bytes. -/
theorem part_inside (base : Nat) (part : RegionPart) (inRegion : part.Exists p) :
    base ≤ (part.span p base).off ∧
      (part.span p base).off + (part.span p base).len ≤
        base + shmRegionSize p.slotCount p.maxPayload := by
  cases counter : counterIndex part with
  | some k =>
      obtain ⟨few, span⟩ := counter_span p base counter
      rw [span, shmRegionSize]
      dsimp only
      omega
  | none =>
      cases part with
      | head side => cases side <;> cases counter
      | tail side => cases side <;> cases counter
      | slot side index =>
          have last := slots_end (slotsBefore_lt side inRegion)
            (shmSlotStride p.maxPayload)
          rw [slot_span, shmRegionSize]
          dsimp only
          omega

theorem slot_of_no_counter {part : RegionPart} (none : counterIndex part = none) :
    ∃ side index, part = .slot side index := by
  cases part with
  | head side => cases side <;> cases none
  | tail side => cases side <;> cases none
  | slot side index => exact ⟨side, index, rfl⟩

/-- The slots lie behind the counters. -/
theorem counter_before_slot {counter : RegionPart} {k : Nat} (found : counterIndex counter = some k)
    (side : RingSide) (index : Nat) :
    (counter.span p base).Apart ((RegionPart.slot side index).span p base) := by
  obtain ⟨few, span⟩ := counter_span p base found
  rw [span, slot_span]
  refine .inl ?_
  dsimp only
  omega

/-- No two parts share a byte. -/
theorem parts_apart {a b : RegionPart} (inRegion : a.Exists p) (inRegion' : b.Exists p)
    (different : a ≠ b) : (a.span p base).Apart (b.span p base) := by
  cases first : counterIndex a with
  | some k =>
      cases second : counterIndex b with
      | some k' =>
          have other : k ≠ k' := by
            rintro rfl
            exact different (counterIndex_inj first second)
          rw [(counter_span p base first).2, (counter_span p base second).2, Span.Apart]
          dsimp only
          omega
      | none =>
          obtain ⟨side, index, rfl⟩ := slot_of_no_counter second
          exact counter_before_slot first side index
  | none =>
      obtain ⟨side, index, rfl⟩ := slot_of_no_counter first
      cases second : counterIndex b with
      | some k' => exact apart_symm (counter_before_slot second side index)
      | none =>
          obtain ⟨side', index', rfl⟩ := slot_of_no_counter second
          have other : slotsBefore p side index ≠ slotsBefore p side' index' := by
            intro same
            obtain ⟨rfl, rfl⟩ := slotsBefore_inj inRegion inRegion' same
            exact different rfl
          rw [slot_span, slot_span]
          rcases Nat.lt_or_gt_of_ne other with before | behind
          · have gap := slots_end before (shmSlotStride p.maxPayload)
            refine .inl ?_
            dsimp only
            omega
          · have gap := slots_end behind (shmSlotStride p.maxPayload)
            refine .inr ?_
            dsimp only
            omega

/-! ### Nothing overflows -/

theorem shmRegionSizeChecked_eq (small : shmRegionSize p.slotCount p.maxPayload < 2 ^ 64) :
    shmSlotStrideChecked p.maxPayload = some (shmSlotStride p.maxPayload) ∧
      shmRegionSizeChecked p.slotCount p.maxPayload =
        some (shmRegionSize p.slotCount p.maxPayload) := by
  have word := p.maxPayload_lt
  have stride : shmSlotStrideChecked p.maxPayload = some (shmSlotStride p.maxPayload) :=
    addSize_eq (by rw [lengthWordSize]; omega)
  have positive : 1 ≤ shmSlotStride p.maxPayload := by
    rw [shmSlotStride, lengthWordSize]
    omega
  rw [shmRegionSize] at small
  have count : 2 * p.slotCount ≤ 2 * p.slotCount * shmSlotStride p.maxPayload :=
    Nat.le_mul_of_pos_right _ positive
  refine ⟨stride, ?_⟩
  rw [shmRegionSizeChecked, stride, mulSize_eq (by omega)]
  simp only [Option.bind_eq_bind, Option.bind_some]
  rw [mulSize_eq (by omega), Option.bind_some, addSize_eq small, shmRegionSize]

/-- The sum over both rings is twice one ring. -/
theorem ring_le_region (p : RingParams) :
    64 + p.slotCount * shmSlotStride p.maxPayload ≤ shmRegionSize p.slotCount p.maxPayload := by
  rw [shmRegionSize, Nat.mul_assoc]
  omega

theorem shmMapLayoutChecked_eq (space : base + shmRegionSize p.slotCount p.maxPayload < 2 ^ 64) :
    shmMapLayoutChecked p base = some (shmMapLayout p base) := by
  have ring := ring_le_region p
  have stride := (shmRegionSizeChecked_eq (p := p) (by omega)).1
  rw [shmMapLayoutChecked, addSize_eq (by omega), addSize_eq (by omega), addSize_eq (by omega),
    stride, addSize_eq (by omega)]
  simp only [Option.bind_eq_bind, Option.bind_some]
  rw [mulSize_eq (by omega), Option.bind_some, addSize_eq (by omega)]
  rfl

theorem slotAddressChecked_eq (space : base + shmRegionSize p.slotCount p.maxPayload < 2 ^ 64)
    (side : RingSide) (inside : index < p.slotCount) :
    slotAddressChecked ((shmMapLayout p base).slots side) index (shmMapLayout p base).slotStride =
      some ((shmMapLayout p base).slot side index) := by
  have part := part_inside base (.slot side index) inside
  have below : (shmMapLayout p base).slot side index < 2 ^ 64 := by
    simp only [RegionPart.span] at part
    omega
  rw [ShmLayout.slot] at below ⊢
  rw [slotAddressChecked, mulSize_eq (by omega)]
  exact addSize_eq below

/-! ### Rings as bytes -/

/-- A mapping of the region's size. -/
def MapsRegion (p : RingParams) (m : Mapping) : Prop :=
  m.bytes.length = shmRegionSize p.slotCount p.maxPayload

/-- The bytes of a ring. -/
structure Represents (p : RingParams) (m : Mapping) (side : RingSide) (ring : ShmRing) : Prop where
  head : load m ((shmMapLayout p m.base).head side) 8 = some (leBytes 8 ring.head)
  head_lt : ring.head < 2 ^ 64
  tail : load m ((shmMapLayout p m.base).tail side) 8 = some (leBytes 8 ring.tail)
  tail_lt : ring.tail < 2 ^ 64
  word : ∀ index < p.slotCount, load m ((shmMapLayout p m.base).slot side index) lengthWordSize =
    some (leBytes lengthWordSize (ring.slots index).len)
  word_lt : ∀ index < p.slotCount, (ring.slots index).len < 2 ^ 32
  data : ∀ index < p.slotCount,
    load m ((shmMapLayout p m.base).slot side index + lengthWordSize) p.maxPayload =
      some (ring.slots index).data

theorem MapsRegion.space (mapped : MapsRegion p m) :
    m.base + shmRegionSize p.slotCount p.maxPayload < 2 ^ 64 := mapped ▸ m.inSpace

theorem MapsRegion.inside (mapped : MapsRegion p m) (part : RegionPart)
    (inRegion : part.Exists p) :
    Inside m (part.span p m.base) := by
  rw [Inside, mapped]
  exact part_inside m.base part inRegion

/-- The length word and the payload of a slot. -/
theorem word_within (p : RingParams) (base : Nat) (side : RingSide) (index : Nat) :
    Within ⟨(shmMapLayout p base).slot side index, lengthWordSize⟩
      ((RegionPart.slot side index).span p base) :=
  ⟨Nat.le_refl _, Nat.add_le_add_left (Nat.le_add_right lengthWordSize p.maxPayload) _⟩

theorem data_within (p : RingParams) (base : Nat) (side : RingSide) (index : Nat) {n : Nat}
    (fits : n ≤ p.maxPayload) :
    Within ⟨(shmMapLayout p base).slot side index + lengthWordSize, n⟩
      ((RegionPart.slot side index).span p base) := by
  refine ⟨Nat.le_add_right _ _, ?_⟩
  simp only [RegionPart.span, shmMapLayout, shmSlotStride]
  omega

theorem loadUInt_of {n v addr : Nat} (found : load m addr n = some (leBytes n v))
    (small : v < 256 ^ n) : loadUInt m addr n = some v := by
  rw [loadUInt, found, Option.map_some, leValue_leBytes, Nat.mod_eq_of_lt small]

/-- Every mapping of the region's size represents a ring on each side. -/
theorem exists_represents (mapped : MapsRegion p m) (side : RingSide) :
    ∃ ring, Represents p m side ring := by
  have counter : ∀ {addr}, Inside m ⟨addr, 8⟩ →
      ∃ v < 2 ^ 64, load m addr 8 = some (leBytes 8 v) := by
    intro addr inside
    obtain ⟨bytes, found, length⟩ := exists_load inside
    have small := leValue_lt bytes
    rw [length] at small
    exact ⟨leValue bytes, by omega, by rw [found, ← length, leBytes_leValue]⟩
  have slot : ∀ index, ∃ slot : Slot, index < p.slotCount → slot.len < 2 ^ 32 ∧
      load m ((shmMapLayout p m.base).slot side index) lengthWordSize =
        some (leBytes lengthWordSize slot.len) ∧
      load m ((shmMapLayout p m.base).slot side index + lengthWordSize) p.maxPayload =
        some slot.data := by
    intro index
    by_cases inRegion : index < p.slotCount
    · have inside := mapped.inside (.slot side index) inRegion
      obtain ⟨word, foundWord, length⟩ :=
        exists_load ((word_within p m.base side index).inside inside)
      obtain ⟨data, foundData, -⟩ :=
        exists_load ((data_within p m.base side index (Nat.le_refl p.maxPayload)).inside inside)
      have small := leValue_lt word
      rw [length, lengthWordSize] at small
      refine ⟨⟨leValue word, data⟩, fun _ => ⟨by omega, ?_, foundData⟩⟩
      rw [foundWord, ← length, leBytes_leValue]
    · exact ⟨⟨0, []⟩, fun inside => absurd inside inRegion⟩
  obtain ⟨head, head_lt, foundHead⟩ := counter (mapped.inside (.head side) trivial)
  obtain ⟨tail, tail_lt, foundTail⟩ := counter (mapped.inside (.tail side) trivial)
  choose slots stored using slot
  exact ⟨⟨head, tail, slots⟩, foundHead, head_lt, foundTail, tail_lt,
    fun index inside => (stored index inside).2.1, fun index inside => (stored index inside).1,
    fun index inside => (stored index inside).2.2⟩

variable {ring : ShmRing}

/-- The address of a slot's payload. -/
theorem dataAddress_eq (mapped : MapsRegion p m) (side : RingSide) (inside : index < p.slotCount) :
    addSize ((shmMapLayout p m.base).slot side index) lengthWordSize =
      some ((shmMapLayout p m.base).slot side index + lengthWordSize) := by
  have last := (part_inside m.base (.slot side index) inside).2
  have space := mapped.space
  apply addSize_eq
  simp only [RegionPart.span, shmMapLayout, shmSlotStride, lengthWordSize] at last ⊢
  omega

/-- A pop up to its store. -/
theorem popBytes_eq (mapped : MapsRegion p m) (rep : Represents p m side ring) (capacity : Nat) :
    popBytes p (shmMapLayout p m.base) side capacity m =
      if ring.tail ≥ ring.head then some (.ok none)
      else if copySize p (ring.slots (ring.tail % p.slotCount)) > capacity then
        some (.error recvBufferTooSmall)
      else (store m ((shmMapLayout p m.base).tail side) (leBytes 8 (u64Inc ring.tail))).map
        fun m' => .ok (some ((ring.slots (ring.tail % p.slotCount)).data.take
          (copySize p (ring.slots (ring.tail % p.slotCount))), m')) := by
  have index : ring.tail % p.slotCount < p.slotCount := Nat.mod_lt _ p.slotCount_pos
  have wordLen := rep.word_lt _ index
  have head := loadUInt_of rep.head (by have := rep.head_lt; omega)
  have tail := loadUInt_of rep.tail (by have := rep.tail_lt; omega)
  have word := loadUInt_of (rep.word _ index) (by rw [lengthWordSize]; omega)
  have copy : min (ring.slots (ring.tail % p.slotCount)).len p.maxPayload =
      copySize p (ring.slots (ring.tail % p.slotCount)) := rfl
  have msg := load_take (rep.data _ index) (copy ▸ Nat.min_le_right ..)
  simp only [popBytes, shmTryPopBytes, head, tail, slotAddressChecked_eq mapped.space side index,
    word, dataAddress_eq mapped side index, copy, msg, Option.bind_eq_bind, Option.bind_some]
  split
  · rfl
  · split
    · rfl
    · cases store m ((shmMapLayout p m.base).tail side) (leBytes 8 (u64Inc ring.tail)) <;> rfl

/-- A pop stays inside, does what `shmTryPopSlot` does and writes the tail only. -/
theorem pop_writes (mapped : MapsRegion p m) (rep : Represents p m side ring) (capacity : Nat) :
    (popBytes p (shmMapLayout p m.base) side capacity m = some (.ok none) ∧
      shmTryPopSlot p ring capacity = .ok none) ∨
    (popBytes p (shmMapLayout p m.base) side capacity m = some (.error recvBufferTooSmall) ∧
      shmTryPopSlot p ring capacity = .error recvBufferTooSmall) ∨
    ∃ msg m' ring', popBytes p (shmMapLayout p m.base) side capacity m =
        some (.ok (some (msg, m'))) ∧
      shmTryPopSlot p ring capacity = .ok (some (msg, ring')) ∧
      Represents p m' side ring' ∧ Writes [(RegionPart.tail side).span p m.base] m m' := by
  rw [popBytes_eq mapped rep]
  simp only [shmTryPopSlot]
  by_cases empty : ring.tail ≥ ring.head
  · rw [if_pos empty, if_pos empty]
    exact .inl ⟨rfl, rfl⟩
  rw [if_neg empty, if_neg empty]
  by_cases small : copySize p (ring.slots (ring.tail % p.slotCount)) > capacity
  · rw [if_pos small, if_pos small]
    exact .inr (.inl ⟨rfl, rfl⟩)
  rw [if_neg small, if_neg small]
  right
  right
  have inside :
      Inside m ⟨(shmMapLayout p m.base).tail side, (leBytes 8 (u64Inc ring.tail)).length⟩ := by
    rw [length_leBytes]
    exact mapped.inside (.tail side) trivial
  obtain ⟨m', stored, stores⟩ := exists_store inside
  have writes : Writes [(RegionPart.tail side).span p m.base] m m' := by
    apply stores.writes
    rw [length_leBytes]
    exact .refl _
  have base := writes.range.base
  have same : ∀ (part : RegionPart) (s : Span), part.Exists p → part ≠ .tail side →
      Within s (part.span p m.base) → load m' s.off s.len = load m s.off s.len := by
    intro part s inRegion other within
    apply writes.same within
    intro t mem
    rw [List.mem_singleton.mp mem]
    exact parts_apart inRegion trivial other
  rw [stored]
  refine ⟨_, m', _, rfl, rfl, ⟨?_, rep.head_lt, ?_, Nat.mod_lt _ (by decide), ?_, rep.word_lt, ?_⟩,
    writes⟩
  · rw [base, ← rep.head]
    exact same (.head side) _ trivial nofun (.refl _)
  · have reads := stores.reads
    rwa [length_leBytes, ← base] at reads
  · intro index inRegion
    rw [base, ← rep.word index inRegion]
    exact same (.slot side index) _ inRegion nofun (word_within p m.base side index)
  · intro index inRegion
    rw [base, ← rep.data index inRegion]
    exact same (.slot side index) _ inRegion nofun (data_within p m.base side index (Nat.le_refl _))

/-- A push up to its stores. -/
theorem pushBytes_eq (mapped : MapsRegion p m) (rep : Represents p m side ring) (payload : Bytes) :
    pushBytes p (shmMapLayout p m.base) side payload m =
      if u64Sub ring.head ring.tail ≥ p.slotCount then some (m, false)
      else do
        let slot := (shmMapLayout p m.base).slot side (ring.head % p.slotCount)
        let m₁ ← store m (slot + lengthWordSize) (payload.take (min payload.length p.maxPayload))
        let m₂ ← store m₁ slot (leBytes lengthWordSize (min payload.length p.maxPayload))
        let m' ← store m₂ ((shmMapLayout p m.base).head side) (leBytes 8 (u64Inc ring.head))
        return (m', true) := by
  have index : ring.head % p.slotCount < p.slotCount := Nat.mod_lt _ p.slotCount_pos
  have head := loadUInt_of rep.head (by have := rep.head_lt; omega)
  have tail := loadUInt_of rep.tail (by have := rep.tail_lt; omega)
  simp only [pushBytes, shmTryPushBytes, head, tail,
    slotAddressChecked_eq mapped.space side index, dataAddress_eq mapped side index,
    Option.bind_eq_bind, Option.bind_some]
  split <;> rfl

/-- The three stores of a push, one after another. -/
structure PushStores (p : RingParams) (side : RingSide) (ring : ShmRing) (payload : Bytes)
    (m m₁ m₂ m' : Mapping) : Prop where
  data : StoredAt m ((shmMapLayout p m.base).slot side (ring.head % p.slotCount) + lengthWordSize)
    (payload.take (min payload.length p.maxPayload)) m₁
  word : StoredAt m₁ ((shmMapLayout p m.base).slot side (ring.head % p.slotCount))
    (leBytes lengthWordSize (min payload.length p.maxPayload)) m₂
  head : StoredAt m₂ ((shmMapLayout p m.base).head side) (leBytes 8 (u64Inc ring.head)) m'

theorem length_pushed (p : RingParams) (payload : Bytes) :
    (payload.take (min payload.length p.maxPayload)).length ≤ p.maxPayload := by
  rw [List.length_take]
  omega

theorem pushBytes_room (mapped : MapsRegion p m) (rep : Represents p m side ring) (payload : Bytes)
    (room : u64Sub ring.head ring.tail < p.slotCount) :
    ∃ m₁ m₂ m', pushBytes p (shmMapLayout p m.base) side payload m = some (m', true) ∧
      PushStores p side ring payload m m₁ m₂ m' := by
  have index : ring.head % p.slotCount < p.slotCount := Nat.mod_lt _ p.slotCount_pos
  have slot := mapped.inside (.slot side (ring.head % p.slotCount)) index
  have data :=
    (data_within p m.base side (ring.head % p.slotCount) (length_pushed p payload)).inside slot
  obtain ⟨m₁, stored₁, stores₁⟩ := exists_store data
  have word := (word_within p m.base side (ring.head % p.slotCount)).inside slot
  rw [← stores₁.range.inside, ← length_leBytes lengthWordSize (min payload.length p.maxPayload)]
    at word
  obtain ⟨m₂, stored₂, stores₂⟩ := exists_store word
  have head : Inside m ⟨(shmMapLayout p m.base).head side, 8⟩ :=
    mapped.inside (.head side) trivial
  rw [← stores₁.range.inside, ← stores₂.range.inside, ← length_leBytes 8 (u64Inc ring.head)] at head
  obtain ⟨m', stored₃, stores₃⟩ := exists_store head
  refine ⟨m₁, m₂, m', ?_, stores₁, stores₂, stores₃⟩
  rw [pushBytes_eq mapped rep, if_neg (Nat.not_le.mpr room)]
  simp only [stored₁, stored₂, stored₃, Option.bind_eq_bind, Option.bind_some]
  rfl

namespace PushStores

variable {payload : Bytes} {m₁ m₂ : Mapping}

theorem writes_slot (stores : PushStores p side ring payload m m₁ m₂ m') :
    Writes [(RegionPart.slot side (ring.head % p.slotCount)).span p m.base] m m₂ := by
  have first := stores.data.writes
    (data_within p m.base side (ring.head % p.slotCount) (length_pushed p payload))
  have second := stores.word.writes (by
    rw [length_leBytes]
    exact word_within p m.base side (ring.head % p.slotCount))
  exact (first.trans second).mono (by simp)

theorem writes_head (stores : PushStores p side ring payload m m₁ m₂ m') :
    Writes [(RegionPart.head side).span p m.base] m₂ m' := by
  apply stores.head.writes
  rw [length_leBytes]
  exact .refl _

theorem writes (stores : PushStores p side ring payload m m₁ m₂ m') :
    Writes [(RegionPart.slot side (ring.head % p.slotCount)).span p m.base,
      (RegionPart.head side).span p m.base] m m' :=
  stores.writes_slot.trans stores.writes_head

/-- The slot that was written. -/
theorem slot (stores : PushStores p side ring payload m m₁ m₂ m') (rep : Represents p m side ring) :
    load m' ((shmMapLayout p m.base).slot side (ring.head % p.slotCount)) lengthWordSize =
        some (leBytes lengthWordSize (min payload.length p.maxPayload)) ∧
      load m' ((shmMapLayout p m.base).slot side (ring.head % p.slotCount) + lengthWordSize)
          p.maxPayload =
        some (splice 0 (payload.take (min payload.length p.maxPayload))
          (ring.slots (ring.head % p.slotCount)).data) := by
  have index : ring.head % p.slotCount < p.slotCount := Nat.mod_lt _ p.slotCount_pos
  have unhead : ∀ s, Within s ((RegionPart.slot side (ring.head % p.slotCount)).span p m.base) →
      load m' s.off s.len = load m₂ s.off s.len := by
    intro s within
    apply stores.writes_head.same within
    intro t mem
    rw [List.mem_singleton.mp mem]
    exact parts_apart index trivial nofun
  constructor
  · have reads := stores.word.reads
    rw [length_leBytes] at reads
    exact (unhead _ (word_within p m.base side _)).trans reads
  · have whole := data_within p m.base side (ring.head % p.slotCount)
      (Nat.le_refl p.maxPayload)
    have word : load m₂
        ((shmMapLayout p m.base).slot side (ring.head % p.slotCount) + lengthWordSize)
        p.maxPayload = load m₁ ((shmMapLayout p m.base).slot side (ring.head % p.slotCount) +
          lengthWordSize) p.maxPayload := by
      apply stores.word.frame ⟨_, p.maxPayload⟩
      rw [length_leBytes]
      exact .inl (Nat.le_refl _)
    have data := stores.data.around ⟨_, p.maxPayload⟩ _
      ⟨Nat.le_refl _, Nat.add_le_add_left (length_pushed p payload) _⟩ (rep.data _ index)
    rw [Nat.sub_self] at data
    exact (unhead _ whole).trans (word.trans data)

theorem represents (stores : PushStores p side ring payload m m₁ m₂ m')
    (rep : Represents p m side ring) : Represents p m' side (pushedRing p ring payload) := by
  have index : ring.head % p.slotCount < p.slotCount := Nat.mod_lt _ p.slotCount_pos
  have base := stores.writes.range.base
  have same : ∀ (part : RegionPart) (s : Span), part.Exists p → part ≠ .head side →
      part ≠ .slot side (ring.head % p.slotCount) →
      Within s (part.span p m.base) → load m' s.off s.len = load m s.off s.len := by
    intro part s inRegion notHead notSlot within
    apply stores.writes.same within
    intro t mem
    rcases List.mem_cons.mp mem with rfl | last
    · exact parts_apart inRegion index notSlot
    · rw [List.mem_singleton.mp last]
      exact parts_apart inRegion trivial notHead
  obtain ⟨word, data⟩ := stores.slot rep
  have here : (pushedRing p ring payload).slots (ring.head % p.slotCount) =
      ⟨min payload.length p.maxPayload % 2 ^ 32,
        splice 0 (payload.take (min payload.length p.maxPayload))
          (ring.slots (ring.head % p.slotCount)).data⟩ := by
    simp only [pushedRing, writeSlot, Function.update_self]
  have there : ∀ i, i ≠ ring.head % p.slotCount →
      (pushedRing p ring payload).slots i = ring.slots i := by
    intro i other
    simp only [pushedRing, writeSlot, Function.update_of_ne other]
  have other : ∀ i, i ≠ ring.head % p.slotCount →
      RegionPart.slot side i ≠ .slot side (ring.head % p.slotCount) := by
    rintro i other ⟨⟩
    exact other rfl
  refine ⟨?_, Nat.mod_lt _ (by decide), ?_, rep.tail_lt, ?_, ?_, ?_⟩
  · have reads := stores.head.reads
    rwa [length_leBytes, ← base] at reads
  · rw [base]
    exact (same (.tail side) ⟨_, 8⟩ trivial (by simp) (by simp) (.refl _)).trans rep.tail
  · intro i inside
    by_cases written : i = ring.head % p.slotCount
    · rw [written, here, base, word, ← leBytes_mod lengthWordSize (min payload.length p.maxPayload)]
      rfl
    · rw [there i written, base, ← rep.word i inside]
      exact same (.slot side i) _ inside (by simp) (other i written) (word_within p m.base side i)
  · intro i inside
    by_cases written : i = ring.head % p.slotCount
    · rw [written, here]
      exact Nat.mod_lt _ (by decide)
    · rw [there i written]
      exact rep.word_lt i inside
  · intro i inside
    by_cases written : i = ring.head % p.slotCount
    · rw [written, here, base, data]
    · rw [there i written, base, ← rep.data i inside]
      exact same (.slot side i) _ inside (by simp) (other i written)
        (data_within p m.base side i (Nat.le_refl _))

end PushStores

/-- A push stays inside, does what `shmTryPushSlot` does and writes at most the head and the
slot of the ring. -/
theorem push_writes (mapped : MapsRegion p m) (rep : Represents p m side ring) (payload : Bytes) :
    ∃ m' ring' ok, pushBytes p (shmMapLayout p m.base) side payload m = some (m', ok) ∧
      shmTryPushSlot p ring payload = (ring', ok) ∧ Represents p m' side ring' ∧
      Writes [(RegionPart.slot side (ring.head % p.slotCount)).span p m.base,
        (RegionPart.head side).span p m.base] m m' := by
  rcases Nat.lt_or_ge (u64Sub ring.head ring.tail) p.slotCount with room | full
  · obtain ⟨m₁, m₂, m', pushed, stores⟩ := pushBytes_room mapped rep payload room
    exact ⟨m', _, true, pushed, shmTryPushSlot_room payload room, stores.represents rep,
      stores.writes⟩
  · refine ⟨m, ring, false, ?_, shmTryPushSlot_full payload full, rep, (Writes.refl m).mono nofun⟩
    rw [pushBytes_eq mapped rep, if_pos full]

end RoboticsIpc.ShmSpsc
