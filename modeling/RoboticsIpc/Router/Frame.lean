import RoboticsIpc.Ipc.Runtime

/-!
The 64-byte `RouterFrame` (`router/frame.hpp`), as far as a router reads or
writes it: it reads `flags` and `topic_id` and stamps `source` and
`timestamp_ns`. Subscribers read `source` and `seq`. Multi-byte fields are
little-endian.

A frame is its bytes. What a peer publishes and what sits in a ring are byte
strings of any length; `stamped`, `frameTopic` and `framePriority` speak of
those, and of a frame through `RouterFrame.bytes`.
-/

namespace RoboticsIpc

open ByteBuffer

def kRouterFrameSize : Nat := 64

def kRouterSourceOffset : Nat := 0
def kRouterFlagsOffset : Nat := 1
def kRouterTopicIdOffset : Nat := 2
def kRouterSeqOffset : Nat := 4
def kRouterTimestampOffset : Nat := 8

def kSidebandIdxNone : UInt16 := 0xFFFF

def kFlagPriorityMask : UInt8 := 0x70
def kFlagPriorityShift : UInt8 := 4

def kEndpointInvalid : UInt8 := 0
def kEndpointServer : UInt8 := 255

@[ext]
structure RouterFrame where
  bytes : Bytes
  size : bytes.length = kRouterFrameSize
deriving DecidableEq

/-! ### Fields of a byte string -/

def frameSource (bytes : Bytes) : UInt8 := bytes.getD kRouterSourceOffset 0

def frameTopic (bytes : Bytes) : UInt16 :=
  UInt16.ofNat (leValue (slice kRouterTopicIdOffset 2 bytes))

def frameSeq (bytes : Bytes) : UInt32 :=
  UInt32.ofNat (leValue (slice kRouterSeqOffset 4 bytes))

def frameFlags (bytes : Bytes) : UInt8 := bytes.getD kRouterFlagsOffset 0

/-- The 3-bit priority in the flags byte. -/
def framePriority (bytes : Bytes) : UInt8 :=
  (frameFlags bytes &&& kFlagPriorityMask) >>> kFlagPriorityShift

/-- Byte 0 replaced by the id, bytes 8 to 15 by the timestamp. -/
def stamped (id : UInt8) (ts : UInt64) (bytes : Bytes) : Bytes :=
  splice kRouterTimestampOffset (leBytes 8 ts.toNat) (splice kRouterSourceOffset [id] bytes)

/-- A frame's bytes but for `timestamp_ns`. -/
def withoutTimestamp (bytes : Bytes) : Bytes :=
  bytes.take kRouterTimestampOffset ++ bytes.drop (kRouterTimestampOffset + 8)

namespace RouterFrame

/-- `RouterFrame frame;`, all bytes zero. -/
def zero : RouterFrame := ⟨List.replicate kRouterFrameSize 0, by simp⟩

/-- `memcpy` into the frame. -/
def write (off : Nat) (src : Bytes) (fits : off + src.length ≤ kRouterFrameSize)
    (f : RouterFrame) : RouterFrame where
  bytes := splice off src f.bytes
  size := by rw [length_splice (by rw [f.size]; exact fits), f.size]

def source (f : RouterFrame) : UInt8 := f.bytes.getD kRouterSourceOffset 0

def setSource (id : UInt8) (f : RouterFrame) : RouterFrame :=
  f.write kRouterSourceOffset [id] (by simp [kRouterSourceOffset, kRouterFrameSize])

def flags (f : RouterFrame) : UInt8 := frameFlags f.bytes

def topicId (f : RouterFrame) : UInt16 := frameTopic f.bytes

def setTimestampNs (ts : UInt64) (f : RouterFrame) : RouterFrame :=
  f.write kRouterTimestampOffset (leBytes 8 ts.toNat) (by rw [length_leBytes]; decide)

/-- A receive into `writable()`: at most the frame's capacity is copied, the rest
of the frame keeps what an earlier message left there. -/
def receive (msg : Bytes) (f : RouterFrame) : RouterFrame :=
  f.write 0 (msg.take kRouterFrameSize) (by rw [List.length_take]; omega)

/-- What a link does to a frame it has received. -/
def stamp (id : UInt8) (ts : UInt64) (f : RouterFrame) : RouterFrame :=
  (f.setSource id).setTimestampNs ts

theorem stamp_bytes (id : UInt8) (ts : UInt64) (f : RouterFrame) :
    (f.stamp id ts).bytes = stamped id ts f.bytes := rfl

/-- A whole frame leaves nothing of the scratch frame's old bytes. -/
theorem receive_whole {msg : Bytes} (whole : msg.length = kRouterFrameSize) (f : RouterFrame) :
    (f.receive msg).bytes = msg := by
  have all : msg.take kRouterFrameSize = msg := List.take_of_length_le (Nat.le_of_eq whole)
  simp only [receive, write, all]
  exact splice_whole (whole.trans f.size.symm)

end RouterFrame

/-! ### What stamping keeps -/

section Stamped

variable {id : UInt8} {ts : UInt64} {bytes : Bytes}

theorem stamped_fits (id : UInt8) (ts : UInt64) (whole : bytes.length = kRouterFrameSize) :
    kRouterSourceOffset + [id].length ≤ bytes.length ∧
      kRouterTimestampOffset + (leBytes 8 ts.toNat).length ≤
        (splice kRouterSourceOffset [id] bytes).length := by
  have first : kRouterSourceOffset + [id].length ≤ bytes.length := by
    rw [whole, kRouterSourceOffset, List.length_singleton]
    decide
  refine ⟨first, ?_⟩
  rw [length_splice first, whole, length_leBytes]
  decide

/-- Stamping touches byte 0 and bytes 8 to 15 only. -/
theorem getElem?_stamped (whole : bytes.length = kRouterFrameSize) {i : Nat} (source : i ≠ 0)
    (timestamp : i < 8 ∨ 16 ≤ i) : (stamped id ts bytes)[i]? = bytes[i]? := by
  obtain ⟨first, second⟩ := stamped_fits id ts whole
  rw [stamped, getElem?_splice second, if_neg (by simp [kRouterTimestampOffset]; omega),
    getElem?_splice first, if_neg (by simp [kRouterSourceOffset]; omega)]

theorem stamped_source (whole : bytes.length = kRouterFrameSize) :
    (stamped id ts bytes)[0]? = some id := by
  obtain ⟨first, second⟩ := stamped_fits id ts whole
  rw [stamped, getElem?_splice second, if_neg (by simp [kRouterTimestampOffset]),
    getElem?_splice first, if_pos (by simp [kRouterSourceOffset])]
  rfl

theorem frameTopic_stamped (whole : bytes.length = kRouterFrameSize) :
    frameTopic (stamped id ts bytes) = frameTopic bytes := by
  obtain ⟨first, second⟩ := stamped_fits id ts whole
  unfold frameTopic stamped
  rw [slice_splice_of_disjoint second (.inl (by decide)),
    slice_splice_of_disjoint first (.inr (by simp [kRouterSourceOffset, kRouterTopicIdOffset]))]

theorem frameSeq_stamped (whole : bytes.length = kRouterFrameSize) :
    frameSeq (stamped id ts bytes) = frameSeq bytes := by
  obtain ⟨first, second⟩ := stamped_fits id ts whole
  unfold frameSeq stamped
  rw [slice_splice_of_disjoint second (.inl (by decide)),
    slice_splice_of_disjoint first (.inr (by simp [kRouterSourceOffset, kRouterSeqOffset]))]

theorem frameSource_stamped (whole : bytes.length = kRouterFrameSize) :
    frameSource (stamped id ts bytes) = id := by
  have first : (stamped id ts bytes)[kRouterSourceOffset]? = some id := stamped_source whole
  rw [frameSource, List.getD_eq_getElem?_getD, first, Option.getD_some]

/-- Two stampings by one id differ in the timestamp only. -/
theorem withoutTimestamp_stamped (whole : bytes.length = kRouterFrameSize) (ts' : UInt64) :
    withoutTimestamp (stamped id ts bytes) = withoutTimestamp (stamped id ts' bytes) := by
  have source : ∀ ts, (stamped id ts bytes)[0]? = some id := fun ts => stamped_source whole
  have other : ∀ ts i, i ≠ 0 → (i < 8 ∨ 16 ≤ i) → (stamped id ts bytes)[i]? = bytes[i]? :=
    fun ts i => getElem?_stamped whole
  unfold withoutTimestamp
  congr 1
  · apply List.ext_getElem?
    intro i
    rw [List.getElem?_take, List.getElem?_take]
    split
    · rename_i before
      by_cases first : i = 0
      · rw [first, source, source]
      · rw [other ts i first (.inl before), other ts' i first (.inl before)]
    · rfl
  · apply List.ext_getElem?
    intro i
    have after : kRouterTimestampOffset + 8 + i ≠ 0 ∧ 16 ≤ kRouterTimestampOffset + 8 + i := by
      simp [kRouterTimestampOffset]
    rw [List.getElem?_drop, List.getElem?_drop, other ts _ after.1 (.inr after.2),
      other ts' _ after.1 (.inr after.2)]

end Stamped

end RoboticsIpc
