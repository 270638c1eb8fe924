import RoboticsIpc.Ipc.ShmLayout
import RoboticsIpc.Router.Accepted
import RoboticsIpc.Router.ShmRouterLink

/-!
Alignment of the slots of an accepted profile's rings.

The loader bounds `shm_max_payload` but takes any number in the range, and the
slots lie `4 + max_payload` bytes apart.
-/

namespace RoboticsIpc

open ByteBuffer Checked ShmSpsc Toml

/-- The address of a mapping: a multiple of the page size. -/
def PageAligned (base : Nat) : Prop := 4096 ∣ base

/-- In the rings of a peer, whatever their sizing, a slot's length word is aligned exactly
when the payload bytes of the slots before it are a multiple of its size; all of them
are exactly when `max_payload` is. -/
theorem length_words_aligned_iff {base : Nat} (p : PeerEntry) (page : PageAligned base) :
    (∀ side index, index < (ringParams p).slotCount →
        (lengthWordSize ∣ (shmMapLayout (ringParams p) base).slot side index ↔
          lengthWordSize ∣ slotsBefore (ringParams p) side index * (ringParams p).maxPayload)) ∧
      ((∀ side index, index < (ringParams p).slotCount →
          lengthWordSize ∣ (shmMapLayout (ringParams p) base).slot side index) ↔
        lengthWordSize ∣ (ringParams p).maxPayload) := by
  have aligned : lengthWordSize ∣ base := Nat.dvd_trans (by decide) page
  constructor
  · intro side index _
    exact slot_aligned_iff aligned side index
  · exact slots_aligned_iff aligned

/-- A peer whose slots hold 65 bytes. -/
def oddSlots : TomlTable :=
  profile "shm:/router" [peerTable 1 "a" "shm:/a"
    [(ascii "shm_slot_count", .integer 2), (ascii "shm_max_payload", .integer 65)]] []

/-- The loader takes it; the second request slot and both reply slots are misaligned. -/
theorem oddSlots_misaligned : ∃ t p, buildFrom oddSlots = .ok t ∧ p ∈ t.peers ∧
    (ringParams p).slotCount = 2 ∧ PageAligned 4096 ∧
    ¬ lengthWordSize ∣ (shmMapLayout (ringParams p) 4096).slot .request 1 ∧
    ∀ index < 2, ¬ lengthWordSize ∣ (shmMapLayout (ringParams p) 4096).slot .reply index := by
  have shape : ∀ t ∈ (buildFrom oddSlots).toOption, ∃ p ∈ t.peers,
      (ringParams p).slotCount = 2 ∧
      ¬ lengthWordSize ∣ (shmMapLayout (ringParams p) 4096).slot .request 1 ∧
      ∀ index < 2, ¬ lengthWordSize ∣ (shmMapLayout (ringParams p) 4096).slot .reply index := by
    decide +kernel
  obtain ⟨t, accepted⟩ : ∃ t, buildFrom oddSlots = .ok t := ⟨_, rfl⟩
  obtain ⟨p, declared, count, request, reply⟩ := shape t (toOption_eq_some.mpr accepted)
  exact ⟨t, p, accepted, declared, count, Nat.dvd_refl _, request, reply⟩

/-- With the default sizing the second request slot and the last reply slot are aligned. -/
theorem default_slots_aligned :
    lengthWordSize ∣ (shmMapLayout defaultRingParams 4096).slot .request 1 ∧
      lengthWordSize ∣ (shmMapLayout defaultRingParams 4096).slot .reply 255 := by
  have all := (length_words_aligned_iff { id := 1, name := cStr [], localAddress := .shm (cStr []) }
    (Nat.dvd_refl 4096)).2.mpr (by decide)
  exact ⟨all .request 1 (by decide), all .reply 255 (by decide)⟩

end RoboticsIpc
