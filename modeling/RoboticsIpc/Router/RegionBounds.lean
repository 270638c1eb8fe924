import RoboticsIpc.Ipc.RegionBytes
import RoboticsIpc.Router.Accepted
import RoboticsIpc.Router.ShmRouterLink

/-!
The regions of an accepted profile stay inside their mappings.

The loader's bounds on `shm_slot_count` and `shm_max_payload` keep the size of a region far
below 2^64, so every mapping of that size has room for all of its parts and for any push or
pop (`accepted_regions`).
-/

namespace RoboticsIpc

open AddressSpace ByteBuffer Checked ShmSpsc

/-- The parts of the other ring are as they were. -/
def KeepsOther (p : RingParams) (side : RingSide) (m m' : Mapping) : Prop :=
  ∀ part : RegionPart, part.Exists p → part.side ≠ side →
    load m' (part.span p m.base).off (part.span p m.base).len =
      load m (part.span p m.base).off (part.span p m.base).len

/-- Every push and pop of a ring is carried out inside the mapping, as the calls on rings
describe it, and leaves the other ring alone. -/
structure CallsSound (p : RingParams) (m : Mapping) (side : RingSide) : Prop where
  ring : ∃ ring, Represents p m side ring
  push : ∀ ring payload, Represents p m side ring →
    ∃ m' ring' ok, pushBytes p (shmMapLayout p m.base) side payload m = some (m', ok) ∧
      shmTryPushSlot p ring payload = (ring', ok) ∧ Represents p m' side ring' ∧
      SameRange m m' ∧ KeepsOther p side m m'
  pop : ∀ ring capacity, Represents p m side ring →
    (popBytes p (shmMapLayout p m.base) side capacity m = some (.ok none) ∧
      shmTryPopSlot p ring capacity = .ok none) ∨
    (popBytes p (shmMapLayout p m.base) side capacity m = some (.error recvBufferTooSmall) ∧
      shmTryPopSlot p ring capacity = .error recvBufferTooSmall) ∨
    ∃ msg m' ring', popBytes p (shmMapLayout p m.base) side capacity m =
        some (.ok (some (msg, m'))) ∧
      shmTryPopSlot p ring capacity = .ok (some (msg, ring')) ∧ Represents p m' side ring' ∧
      SameRange m m' ∧ KeepsOther p side m m'

/-- The layout of a mapped region. -/
structure RegionSound (p : RingParams) (m : Mapping) : Prop where
  layout : shmMapLayoutChecked p m.base = some (shmMapLayout p m.base)
  slots : ∀ side index, index < p.slotCount →
    slotAddressChecked ((shmMapLayout p m.base).slots side) index
      (shmMapLayout p m.base).slotStride = some ((shmMapLayout p m.base).slot side index)
  counters : ∀ side, ∀ part ∈ [RegionPart.head side, RegionPart.tail side],
    (part.span p m.base).len = 8 ∧ m.base ≤ (part.span p m.base).off ∧
      (part.span p m.base).off + 8 ≤ m.base + 64
  inside : ∀ part : RegionPart, part.Exists p → Inside m (part.span p m.base)
  apart : ∀ a b : RegionPart, a.Exists p → b.Exists p → a ≠ b →
    (a.span p m.base).Apart (b.span p m.base)
  calls : ∀ side, CallsSound p m side

variable {p : RingParams} {m m' : Mapping} {side : RingSide}

theorem keepsOther_of_writes {spans : List RecordLayout.Span} (writes : Writes spans m m')
    (own : ∀ t ∈ spans, ∃ part : RegionPart, part.side = side ∧ part.Exists p ∧
      t = part.span p m.base) : KeepsOther p side m m' := by
  intro part inRegion other
  apply writes.frame
  intro t mem
  obtain ⟨written, here, exist, rfl⟩ := own t mem
  apply parts_apart exist inRegion
  rintro rfl
  exact other here

theorem callsSound (mapped : MapsRegion p m) (side : RingSide) : CallsSound p m side where
  ring := exists_represents mapped side
  push ring payload rep := by
    obtain ⟨m', ring', ok, bytes, pushed, rep', writes⟩ := push_writes mapped rep payload
    refine ⟨m', ring', ok, bytes, pushed, rep', writes.range, keepsOther_of_writes writes ?_⟩
    intro t mem
    rcases List.mem_cons.mp mem with rfl | last
    · exact ⟨.slot side _, rfl, Nat.mod_lt _ p.slotCount_pos, rfl⟩
    · exact ⟨.head side, rfl, trivial, List.mem_singleton.mp last⟩
  pop ring capacity rep := by
    rcases pop_writes mapped rep capacity with nothing | thrown |
      ⟨msg, m', ring', bytes, popped, rep', writes⟩
    · exact .inl nothing
    · exact .inr (.inl thrown)
    · refine .inr (.inr ⟨msg, m', ring', bytes, popped, rep', writes.range,
        keepsOther_of_writes writes ?_⟩)
      intro t mem
      exact ⟨.tail side, rfl, trivial, List.mem_singleton.mp mem⟩

theorem regionSound (mapped : MapsRegion p m) : RegionSound p m where
  layout := shmMapLayoutChecked_eq mapped.space
  slots side index inside := slotAddressChecked_eq mapped.space side inside
  counters side part mem := by
    obtain ⟨k, found⟩ : ∃ k, counterIndex part = some k := by
      simp only [List.mem_cons, List.not_mem_nil, or_false] at mem
      rcases mem with rfl | rfl <;> cases side <;> exact ⟨_, rfl⟩
    obtain ⟨few, span⟩ := counter_span p m.base found
    rw [span]
    dsimp only
    omega
  inside _ inRegion := mapped.inside _ inRegion
  apart _ _ inRegion inRegion' different := parts_apart inRegion inRegion' different
  calls := callsSound mapped

/-- The loader's bounds. -/
theorem region_small {e : PeerEntry} (wellFormed : e.WellFormed) :
    shmRegionSize (ringParams e).slotCount (ringParams e).maxPayload < 2 ^ 50 := by
  have slots : (ringParams e).slotCount ≤ 2 ^ 20 := by
    simp only [ringParams]
    split
    · exact wellFormed.slotCount_le
    · decide
  have payload : (ringParams e).maxPayload ≤ 2 ^ 28 := by
    simp only [ringParams]
    rcases wellFormed.maxPayload with default | ⟨-, high⟩
    · rw [if_neg (by simp [default])]
      decide
    · split
      · exact high
      · decide
  have bytes : 2 * (ringParams e).slotCount * (4 + (ringParams e).maxPayload) ≤
      2 * 2 ^ 20 * (4 + 2 ^ 28) :=
    Nat.mul_le_mul (Nat.mul_le_mul_left 2 slots) (Nat.add_le_add_left payload 4)
  rw [shmRegionSize, shmSlotStride, lengthWordSize]
  omega

/-- For every ring sizing of an accepted profile the size of the region is computed without
overflow, and on any mapping of that size the layout is in bounds and disjoint, and so are
all calls. -/
theorem accepted_regions {root : TomlTable} {t : LoadedTopology}
    (accepted : buildFrom root = .ok t) {e : PeerEntry} (declared : e ∈ t.peers) :
    shmSlotStrideChecked (ringParams e).maxPayload =
        some (shmSlotStride (ringParams e).maxPayload) ∧
      shmRegionSizeChecked (ringParams e).slotCount (ringParams e).maxPayload =
        some (shmRegionSize (ringParams e).slotCount (ringParams e).maxPayload) ∧
      ∀ m, MapsRegion (ringParams e) m → RegionSound (ringParams e) m := by
  have small := region_small ((buildFrom_wellFormed accepted).peers e declared)
  obtain ⟨stride, size⟩ := shmRegionSizeChecked_eq (p := ringParams e) (by omega)
  exact ⟨stride, size, fun m => regionSound⟩

/-- The largest rings the loader takes, mapped at the first page. -/
theorem accepted_regions_largest :
    ∃ t e m, buildFrom (profile "shm:/router" [peerTable 1 "a" "shm:/a"
      [(ascii "shm_slot_count", .integer 1048576),
        (ascii "shm_max_payload", .integer 268435456)]] []) = .ok t ∧ e ∈ t.peers ∧
      (ringParams e).slotCount = 2 ^ 20 ∧ (ringParams e).maxPayload = 2 ^ 28 ∧
      m.base = 4096 ∧ RegionSound (ringParams e) m := by
  have shape : ∀ t ∈ (buildFrom (profile "shm:/router" [peerTable 1 "a" "shm:/a"
      [(ascii "shm_slot_count", .integer 1048576),
        (ascii "shm_max_payload", .integer 268435456)]] [])).toOption,
      ∃ e ∈ t.peers, (ringParams e).slotCount = 2 ^ 20 ∧ (ringParams e).maxPayload = 2 ^ 28 := by
    decide +kernel
  obtain ⟨t, accepted⟩ : ∃ t, buildFrom (profile "shm:/router" [peerTable 1 "a" "shm:/a"
      [(ascii "shm_slot_count", .integer 1048576),
        (ascii "shm_max_payload", .integer 268435456)]] []) = .ok t := ⟨_, rfl⟩
  obtain ⟨e, declared, slots, payload⟩ := shape t (toOption_eq_some.mpr accepted)
  have small := region_small ((buildFrom_wellFormed accepted).peers e declared)
  have space : 4096 + (List.replicate (shmRegionSize (ringParams e).slotCount
      (ringParams e).maxPayload) (0 : UInt8)).length < 2 ^ 64 := by
    rw [List.length_replicate]
    omega
  have sound := (accepted_regions accepted declared).2.2 ⟨4096, _, space⟩ List.length_replicate
  exact ⟨t, e, _, accepted, declared, slots, payload, rfl, sound⟩

end RoboticsIpc
