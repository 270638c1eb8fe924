import RoboticsIpc.Lib.RecordLayout
import RoboticsIpc.Router.Frame

/-!
Every field of a `RouterFrame` (`router/frame.hpp`): its place, its setter and its
getter.

`FrameFields` are values of the nine fields within the ranges that the wire has for
them. `FrameFields.frame` is the frame that holds them, whatever wrote it, and
`RouterFrame.fields` reads them back: all of a frame survives that (`frame_fields`), and
all of the values but the zeros at the end of the payload (`fields_frame`).
-/

namespace RoboticsIpc

open ByteBuffer RecordLayout

def kRouterSidebandIdxOffset : Nat := 16
def kRouterSidebandLenOffset : Nat := 18
def kRouterSidebandLenSize : Nat := 6
def kRouterSidebandSeqOffset : Nat := 24
def kRouterPayloadOffset : Nat := 32
def kRouterPayloadSize : Nat := 32

def kRouterSidebandLenMask : UInt64 := 0x0000FFFFFFFFFFFF

/-! ### The layout -/

inductive FrameField where
  | source
  | flags
  | topicId
  | seq
  | timestampNs
  | sidebandIdx
  | sidebandLen
  | sidebandSeq
  | payload
deriving DecidableEq

/-- The offset of a field and how many bytes its accessors copy. -/
def FrameField.place : FrameField → Span
  | .source => ⟨kRouterSourceOffset, 1⟩
  | .flags => ⟨kRouterFlagsOffset, 1⟩
  | .topicId => ⟨kRouterTopicIdOffset, 2⟩
  | .seq => ⟨kRouterSeqOffset, 4⟩
  | .timestampNs => ⟨kRouterTimestampOffset, 8⟩
  | .sidebandIdx => ⟨kRouterSidebandIdxOffset, 2⟩
  | .sidebandLen => ⟨kRouterSidebandLenOffset, kRouterSidebandLenSize⟩
  | .sidebandSeq => ⟨kRouterSidebandSeqOffset, 8⟩
  | .payload => ⟨kRouterPayloadOffset, kRouterPayloadSize⟩

def frameLayout : Layout FrameField kRouterFrameSize where
  place := FrameField.place
  order := [.source, .flags, .topicId, .seq, .timestampNs, .sidebandIdx, .sidebandLen,
    .sidebandSeq, .payload]
  complete := by
    intro n
    cases n <;> decide
  distinct := by decide
  tiles := ⟨rfl, rfl, rfl, rfl, rfl, rfl, rfl, rfl, rfl, rfl⟩

namespace RouterFrame

/-- A copy that stays inside one field stays inside the frame. -/
theorem fits_field (n : FrameField) {k : Nat} (inside : k ≤ n.place.len) :
    n.place.off + k ≤ kRouterFrameSize := by
  have : n.place.off + n.place.len ≤ kRouterFrameSize := frameLayout.fits n
  omega

/-- `memcpy` into a field. -/
def writeField (n : FrameField) (src : Bytes) (inside : src.length ≤ n.place.len)
    (f : RouterFrame) : RouterFrame :=
  f.write n.place.off src (fits_field n inside)

/-- The bytes of a field. -/
def readField (n : FrameField) (f : RouterFrame) : Bytes := frameLayout.read n f.bytes

theorem length_readField (n : FrameField) (f : RouterFrame) :
    (f.readField n).length = n.place.len :=
  frameLayout.length_read f.size n

/-! ### Setters -/

def setFlags (v : UInt8) (f : RouterFrame) : RouterFrame :=
  f.writeField .flags [v] (Nat.le_refl 1)

def setTopicId (v : UInt16) (f : RouterFrame) : RouterFrame :=
  f.writeField .topicId (leBytes 2 v.toNat) (Nat.le_of_eq (length_leBytes ..))

def setSeq (v : UInt32) (f : RouterFrame) : RouterFrame :=
  f.writeField .seq (leBytes 4 v.toNat) (Nat.le_of_eq (length_leBytes ..))

def setSidebandIdx (v : UInt16) (f : RouterFrame) : RouterFrame :=
  f.writeField .sidebandIdx (leBytes 2 v.toNat) (Nat.le_of_eq (length_leBytes ..))

/-- Six of the eight bytes of the masked integer are copied. -/
def setSidebandLen (v : UInt64) (f : RouterFrame) : RouterFrame :=
  let masked := v &&& kRouterSidebandLenMask
  f.writeField .sidebandLen ((leBytes 8 masked.toNat).take kRouterSidebandLenSize)
    (List.length_take_le ..)

def setSidebandSeq (v : UInt64) (f : RouterFrame) : RouterFrame :=
  f.writeField .sidebandSeq (leBytes 8 v.toNat) (Nat.le_of_eq (length_leBytes ..))

def setPayload (data : Bytes) (f : RouterFrame) : Outcome RouterFrame Unit :=
  if fits : data.length ≤ kRouterPayloadSize then
    let cleared := f.writeField .payload (List.replicate kRouterPayloadSize 0)
      (Nat.le_of_eq List.length_replicate)
    ⟨cleared.writeField .payload data fits, .ok ()⟩
  else
    ⟨f, .error ⟨ascii "router payload too large"⟩⟩

/-- `memset`, then the sender and no sideband. -/
def init (sourceId : UInt8) (f : RouterFrame) : RouterFrame :=
  ((f.write 0 (List.replicate kRouterFrameSize 0) (by simp)).setSource sourceId).setSidebandIdx
    kSidebandIdxNone

/-! ### Getters -/

def seq (f : RouterFrame) : UInt32 := frameSeq f.bytes

def timestampNs (f : RouterFrame) : UInt64 := UInt64.ofNat (leValue (f.readField .timestampNs))

def sidebandIdx (f : RouterFrame) : UInt16 := UInt16.ofNat (leValue (f.readField .sidebandIdx))

/-- Six bytes are copied into a zero integer of eight. -/
def sidebandLen (f : RouterFrame) : UInt64 :=
  UInt64.ofNat (leValue (splice 0 (f.readField .sidebandLen) (leBytes 8 0))) &&&
    kRouterSidebandLenMask

def sidebandSeq (f : RouterFrame) : UInt64 := UInt64.ofNat (leValue (f.readField .sidebandSeq))

def payload (f : RouterFrame) : Bytes :=
  let begin := f.readField .payload
  slice 0 (trimmedEnd 0 begin kRouterPayloadSize) begin

end RouterFrame

/-! ### Runs of setters -/

inductive FrameSetter where
  | source (id : UInt8)
  | flags (v : UInt8)
  | topicId (v : UInt16)
  | seq (v : UInt32)
  | timestampNs (v : UInt64)
  | sidebandIdx (v : UInt16)
  | sidebandLen (v : UInt64)
  | sidebandSeq (v : UInt64)
  | payload (data : Bytes)
deriving DecidableEq

namespace FrameSetter

def call : FrameSetter → RouterFrame → Outcome RouterFrame Unit
  | .source id, f => ⟨f.setSource id, .ok ()⟩
  | .flags v, f => ⟨f.setFlags v, .ok ()⟩
  | .topicId v, f => ⟨f.setTopicId v, .ok ()⟩
  | .seq v, f => ⟨f.setSeq v, .ok ()⟩
  | .timestampNs v, f => ⟨f.setTimestampNs v, .ok ()⟩
  | .sidebandIdx v, f => ⟨f.setSidebandIdx v, .ok ()⟩
  | .sidebandLen v, f => ⟨f.setSidebandLen v, .ok ()⟩
  | .sidebandSeq v, f => ⟨f.setSidebandSeq v, .ok ()⟩
  | .payload data, f => f.setPayload data

/-- One call after the other, up to the first that throws. -/
def callAll : List FrameSetter → RouterFrame → Outcome RouterFrame Unit
  | [], f => ⟨f, .ok ()⟩
  | c :: rest, f =>
      match (c.call f).result with
      | .ok () => callAll rest (c.call f).state
      | .error e => ⟨(c.call f).state, .error e⟩

def field : FrameSetter → FrameField
  | .source _ => .source
  | .flags _ => .flags
  | .topicId _ => .topicId
  | .seq _ => .seq
  | .timestampNs _ => .timestampNs
  | .sidebandIdx _ => .sidebandIdx
  | .sidebandLen _ => .sidebandLen
  | .sidebandSeq _ => .sidebandSeq
  | .payload _ => .payload

/-- What the field holds after the call. -/
def written : FrameSetter → Bytes
  | .source id => [id]
  | .flags v => [v]
  | .topicId v => leBytes 2 v.toNat
  | .seq v => leBytes 4 v.toNat
  | .timestampNs v => leBytes 8 v.toNat
  | .sidebandIdx v => leBytes 2 v.toNat
  | .sidebandLen v => leBytes kRouterSidebandLenSize v.toNat
  | .sidebandSeq v => leBytes 8 v.toNat
  | .payload data => padded kRouterPayloadSize data

/-- Only a payload can be refused. -/
def Accepted : FrameSetter → Prop
  | .payload data => data.length ≤ kRouterPayloadSize
  | _ => True

/-- The low six bytes of an integer: the mask takes nothing from them. -/
theorem take_masked (v : UInt64) :
    (leBytes 8 (v &&& kRouterSidebandLenMask).toNat).take kRouterSidebandLenSize =
      leBytes kRouterSidebandLenSize v.toNat := by
  have masked : (v &&& kRouterSidebandLenMask).toNat = v.toNat % 256 ^ kRouterSidebandLenSize := by
    rw [UInt64.toNat_and]
    exact Nat.and_two_pow_sub_one_eq_mod v.toNat 48
  rw [take_leBytes (by decide), masked, leBytes_mod]

/-- A call that is not refused writes its field and no other byte. -/
theorem call_accepted {c : FrameSetter} (accepted : c.Accepted) (f : RouterFrame) :
    (c.call f).result = .ok () ∧
      (c.call f).state.bytes = splice (frameLayout.place c.field).off c.written f.bytes := by
  cases c with
  | sidebandLen v =>
      refine ⟨rfl, ?_⟩
      exact congrArg (splice kRouterSidebandLenOffset · f.bytes) (take_masked v)
  | payload data =>
      have fits : kRouterPayloadOffset + kRouterPayloadSize ≤ f.bytes.length := by
        rw [f.size]
        exact frameLayout.fits .payload
      have short : data.length ≤ kRouterPayloadSize := accepted
      rw [call, RouterFrame.setPayload, dif_pos short]
      exact ⟨rfl, splice_zeros_splice short fits⟩
  | _ => exact ⟨rfl, rfl⟩

/-- A refused call changes no byte. -/
theorem call_refused {c : FrameSetter} (refused : ¬ c.Accepted) (f : RouterFrame) :
    c.call f = ⟨f, .error ⟨ascii "router payload too large"⟩⟩ := by
  cases c with
  | payload data =>
      have long : ¬ data.length ≤ kRouterPayloadSize := refused
      rw [call, RouterFrame.setPayload, dif_neg long]
  | _ => exact absurd trivial refused

theorem callAll_singleton (c : FrameSetter) (f : RouterFrame) : callAll [c] f = c.call f := by
  unfold callAll
  cases result : (c.call f).result with
  | ok => exact Outcome.ext rfl result.symm
  | error e => exact Outcome.ext rfl result.symm

theorem callAll_accepted {calls : List FrameSetter} (accepted : ∀ c ∈ calls, c.Accepted)
    (f : RouterFrame) : (callAll calls f).result = .ok () ∧
      (callAll calls f).state.bytes =
        frameLayout.writeAll (calls.map fun c => (c.field, c.written)) f.bytes := by
  induction calls generalizing f with
  | nil => exact ⟨rfl, rfl⟩
  | cons c rest ih =>
      obtain ⟨first, later⟩ := List.forall_mem_cons.mp accepted
      obtain ⟨returned, wrote⟩ := call_accepted first f
      have := ih later (c.call f).state
      rw [wrote] at this
      rw [callAll, returned]
      exact this

end FrameSetter

/-! ### Values of the fields -/

/-- What the nine fields of a frame can hold. -/
@[ext]
structure FrameFields where
  source : UInt8
  flags : UInt8
  topicId : UInt16
  seq : UInt32
  timestampNs : UInt64
  sidebandIdx : UInt16
  sidebandLen : UInt64
  sidebandSeq : UInt64
  payload : Bytes
  lenFits : sidebandLen.toNat < 256 ^ kRouterSidebandLenSize
  payloadFits : payload.length ≤ kRouterPayloadSize
deriving DecidableEq

namespace FrameFields

def encoded (v : FrameFields) : FrameField → Bytes
  | .source => [v.source]
  | .flags => [v.flags]
  | .topicId => leBytes 2 v.topicId.toNat
  | .seq => leBytes 4 v.seq.toNat
  | .timestampNs => leBytes 8 v.timestampNs.toNat
  | .sidebandIdx => leBytes 2 v.sidebandIdx.toNat
  | .sidebandLen => leBytes kRouterSidebandLenSize v.sidebandLen.toNat
  | .sidebandSeq => leBytes 8 v.sidebandSeq.toNat
  | .payload => padded kRouterPayloadSize v.payload

theorem length_encoded (v : FrameFields) (n : FrameField) :
    (v.encoded n).length = (frameLayout.place n).len := by
  cases n with
  | source | flags => rfl
  | payload => exact length_padded v.payloadFits
  | _ => exact length_leBytes ..

/-- The frame with these values. -/
def frame (v : FrameFields) : RouterFrame :=
  ⟨frameLayout.assemble v.encoded, frameLayout.length_assemble v.length_encoded⟩

theorem readField_frame (v : FrameFields) (n : FrameField) :
    v.frame.readField n = v.encoded n :=
  frameLayout.read_assemble v.length_encoded n

/-- The values but for the zeros at the end of the payload. -/
def stripped (v : FrameFields) : FrameFields :=
  { v with
    payload := unpadded v.payload
    payloadFits := Nat.le_trans (length_unpadded_le v.payload) v.payloadFits }

/-- The nine calls that set these values. -/
def setters (v : FrameFields) : List FrameSetter :=
  [.source v.source, .flags v.flags, .topicId v.topicId, .seq v.seq,
    .timestampNs v.timestampNs, .sidebandIdx v.sidebandIdx, .sidebandLen v.sidebandLen,
    .sidebandSeq v.sidebandSeq, .payload v.payload]

theorem setters_written (v : FrameFields) :
    ∀ c ∈ v.setters, c.Accepted ∧ c.written = v.encoded c.field := by
  simp [setters, FrameSetter.Accepted, FrameSetter.written, FrameSetter.field, encoded,
    v.payloadFits]

/-- Every field has its setter. -/
theorem exists_setter (v : FrameFields) (n : FrameField) : ∃ c ∈ v.setters, c.field = n := by
  cases n <;> simp [setters, FrameSetter.field]

/-- After `init` the frame holds the sender. -/
theorem readField_init (id : UInt8) (f : RouterFrame) : (f.init id).readField .source = [id] := by
  have sized : frameLayout.Sized
      [(.source, [id]), (.sidebandIdx, leBytes 2 kSidebandIdxNone.toNat)] := by
    simp [Layout.Sized, frameLayout, FrameField.place]
  exact frameLayout.read_writeAll sized
    (f.write 0 (List.replicate kRouterFrameSize 0) (by simp)).size .source

/-- The setters, in any order and as often as one likes, make the frame; those of
fields that are right already may be left out. -/
theorem callAll_setters (v : FrameFields) {calls : List FrameSetter} {f : RouterFrame}
    (own : ∀ c ∈ calls, c ∈ v.setters)
    (all : ∀ c ∈ v.setters, f.readField c.field = v.encoded c.field ∨ c ∈ calls) :
    FrameSetter.callAll calls f = ⟨v.frame, .ok ()⟩ := by
  have accepted : ∀ c ∈ calls, c.Accepted := fun c mem => (v.setters_written c (own c mem)).1
  obtain ⟨returned, wrote⟩ := FrameSetter.callAll_accepted accepted f
  refine Outcome.ext (RouterFrame.ext (wrote.trans ?_)) returned
  apply frameLayout.writeAll_eq_assemble v.length_encoded f.size
  · intro w mem
    obtain ⟨c, inside, rfl⟩ := List.mem_map.mp mem
    exact (v.setters_written c (own c inside)).2
  · intro n
    obtain ⟨c, inside, rfl⟩ := v.exists_setter n
    rcases all c inside with held | called
    · exact .inr held
    · left
      rw [List.map_map]
      exact List.mem_map.mpr ⟨c, called, rfl⟩

/-- All nine setters, in the order of the layout. -/
theorem setPayload_setters (v : FrameFields) (f : RouterFrame) :
    ((((((((f.setSource v.source).setFlags v.flags).setTopicId v.topicId).setSeq
      v.seq).setTimestampNs v.timestampNs).setSidebandIdx v.sidebandIdx).setSidebandLen
      v.sidebandLen).setSidebandSeq v.sidebandSeq).setPayload v.payload = ⟨v.frame, .ok ()⟩ := by
  have built : FrameSetter.callAll v.setters f = ⟨v.frame, .ok ()⟩ :=
    v.callAll_setters (fun _ mem => mem) fun _ mem => .inr mem
  rw [← built]
  exact (FrameSetter.callAll_singleton (.payload v.payload) _).symm

end FrameFields

/-! ### Reading a frame -/

namespace RouterFrame

theorem leValue_readField_lt (n : FrameField) (f : RouterFrame) :
    leValue (f.readField n) < 256 ^ n.place.len := by
  have small := leValue_lt (f.readField n)
  rwa [f.length_readField n] at small

theorem leBytes_readField (n : FrameField) (f : RouterFrame) :
    leBytes n.place.len (leValue (f.readField n)) = f.readField n := by
  have whole := leBytes_leValue (f.readField n)
  rwa [f.length_readField n] at whole

theorem readField_source (f : RouterFrame) : f.readField .source = [f.source] :=
  slice_one (by rw [f.size]; decide) 0

theorem readField_flags (f : RouterFrame) : f.readField .flags = [f.flags] :=
  slice_one (by rw [f.size]; decide) 0

theorem toNat_source (f : RouterFrame) : f.source.toNat = leValue (f.readField .source) := by
  rw [readField_source, leValue_one]

theorem toNat_flags (f : RouterFrame) : f.flags.toNat = leValue (f.readField .flags) := by
  rw [readField_flags, leValue_one]

theorem toNat_topicId (f : RouterFrame) : f.topicId.toNat = leValue (f.readField .topicId) :=
  UInt16.toNat_ofNat_of_lt' (f.leValue_readField_lt .topicId)

theorem toNat_seq (f : RouterFrame) : f.seq.toNat = leValue (f.readField .seq) :=
  UInt32.toNat_ofNat_of_lt' (f.leValue_readField_lt .seq)

theorem toNat_timestampNs (f : RouterFrame) :
    f.timestampNs.toNat = leValue (f.readField .timestampNs) :=
  UInt64.toNat_ofNat_of_lt' (f.leValue_readField_lt .timestampNs)

theorem toNat_sidebandIdx (f : RouterFrame) :
    f.sidebandIdx.toNat = leValue (f.readField .sidebandIdx) :=
  UInt16.toNat_ofNat_of_lt' (f.leValue_readField_lt .sidebandIdx)

theorem toNat_sidebandSeq (f : RouterFrame) :
    f.sidebandSeq.toNat = leValue (f.readField .sidebandSeq) :=
  UInt64.toNat_ofNat_of_lt' (f.leValue_readField_lt .sidebandSeq)

/-- The two bytes that are not copied are zero and the mask has nothing to take away. -/
theorem toNat_sidebandLen (f : RouterFrame) :
    f.sidebandLen.toNat = leValue (f.readField .sidebandLen) := by
  have small := f.leValue_readField_lt .sidebandLen
  have native : splice 0 (f.readField .sidebandLen) (leBytes 8 0) =
      f.readField .sidebandLen ++ List.replicate 2 0 := by
    rw [splice, f.length_readField]
    rfl
  rw [sidebandLen, native, leValue_append_zeros, UInt64.toNat_and,
    UInt64.toNat_ofNat_of_lt' (Nat.lt_trans small (by decide))]
  exact (Nat.and_two_pow_sub_one_eq_mod _ 48).trans (Nat.mod_eq_of_lt small)

theorem payload_eq (f : RouterFrame) : f.payload = unpadded (f.readField .payload) := by
  have len : (f.readField .payload).length = kRouterPayloadSize := f.length_readField .payload
  have scanned := slice_trimmedEnd (Nat.zero_le kRouterPayloadSize) (Nat.le_of_eq len.symm)
  rw [Nat.sub_zero, Nat.sub_zero] at scanned
  rw [payload, scanned, slice, List.drop_zero, List.take_of_length_le (Nat.le_of_eq len)]

/-- All the getters. -/
def fields (f : RouterFrame) : FrameFields where
  source := f.source
  flags := f.flags
  topicId := f.topicId
  seq := f.seq
  timestampNs := f.timestampNs
  sidebandIdx := f.sidebandIdx
  sidebandLen := f.sidebandLen
  sidebandSeq := f.sidebandSeq
  payload := f.payload
  lenFits := by
    rw [toNat_sidebandLen]
    exact f.leValue_readField_lt .sidebandLen
  payloadFits := by
    rw [payload_eq]
    exact Nat.le_trans (length_unpadded_le _) (Nat.le_of_eq (f.length_readField .payload))

theorem encoded_fields (f : RouterFrame) (n : FrameField) : f.fields.encoded n = f.readField n := by
  cases n with
  | source => exact f.readField_source.symm
  | flags => exact f.readField_flags.symm
  | topicId => exact (congrArg _ f.toNat_topicId).trans (f.leBytes_readField .topicId)
  | seq => exact (congrArg _ f.toNat_seq).trans (f.leBytes_readField .seq)
  | timestampNs => exact (congrArg _ f.toNat_timestampNs).trans (f.leBytes_readField .timestampNs)
  | sidebandIdx => exact (congrArg _ f.toNat_sidebandIdx).trans (f.leBytes_readField .sidebandIdx)
  | sidebandLen => exact (congrArg _ f.toNat_sidebandLen).trans (f.leBytes_readField .sidebandLen)
  | sidebandSeq => exact (congrArg _ f.toNat_sidebandSeq).trans (f.leBytes_readField .sidebandSeq)
  | payload =>
      exact (congrArg _ f.payload_eq).trans (padded_unpadded (f.length_readField .payload))

/-- Nothing of a frame is lost when it is read. -/
theorem frame_fields (f : RouterFrame) : f.fields.frame = f := by
  apply RouterFrame.ext
  exact (frameLayout.eq_assemble f.size fun n => (f.encoded_fields n).symm).symm

end RouterFrame

namespace FrameFields

/-- The bytes of the fields determine the values, up to zeros at the end of the payload. -/
theorem stripped_eq_of_encoded {v w : FrameFields} (same : ∀ n, v.encoded n = w.encoded n) :
    v.stripped = w.stripped := by
  apply FrameFields.ext
  case source => exact (List.cons.inj (same .source)).1
  case flags => exact (List.cons.inj (same .flags)).1
  case topicId =>
      exact UInt16.toNat_inj.mp (leBytes_inj v.topicId.toNat_lt w.topicId.toNat_lt (same .topicId))
  case seq => exact UInt32.toNat_inj.mp (leBytes_inj v.seq.toNat_lt w.seq.toNat_lt (same .seq))
  case timestampNs =>
      exact UInt64.toNat_inj.mp
        (leBytes_inj v.timestampNs.toNat_lt w.timestampNs.toNat_lt (same .timestampNs))
  case sidebandIdx =>
      exact UInt16.toNat_inj.mp
        (leBytes_inj v.sidebandIdx.toNat_lt w.sidebandIdx.toNat_lt (same .sidebandIdx))
  case sidebandLen =>
      exact UInt64.toNat_inj.mp (leBytes_inj v.lenFits w.lenFits (same .sidebandLen))
  case sidebandSeq =>
      exact UInt64.toNat_inj.mp
        (leBytes_inj v.sidebandSeq.toNat_lt w.sidebandSeq.toNat_lt (same .sidebandSeq))
  case payload =>
      have payloads : padded kRouterPayloadSize v.payload = padded kRouterPayloadSize w.payload :=
        same .payload
      have := congrArg unpadded payloads
      rwa [unpadded_padded, unpadded_padded] at this

/-- What is read has no zeros left to strip. -/
theorem stripped_fields (f : RouterFrame) : f.fields.stripped = f.fields := by
  have payload : unpadded f.payload = f.payload := by
    rw [f.payload_eq, unpadded_unpadded]
  exact FrameFields.ext rfl rfl rfl rfl rfl rfl rfl rfl payload

/-- What a frame was made from is what is read from it. -/
theorem fields_frame (v : FrameFields) : v.frame.fields = v.stripped := by
  rw [← stripped_fields]
  apply stripped_eq_of_encoded
  intro n
  rw [RouterFrame.encoded_fields, readField_frame]

end FrameFields

/-! ### Values without a width

The bridges in `examples/bridges` are written in Python and JavaScript, where an integer
has no width: what they read from a frame, and what they are asked to write. -/

structure FrameView where
  source : Int
  flags : Int
  topicId : Int
  seq : Int
  timestampNs : Int
  sidebandIdx : Int
  sidebandLen : Int
  sidebandSeq : Int
  payload : Bytes
deriving DecidableEq

def FrameFields.view (v : FrameFields) : FrameView where
  source := v.source.toNat
  flags := v.flags.toNat
  topicId := v.topicId.toNat
  seq := v.seq.toNat
  timestampNs := v.timestampNs.toNat
  sidebandIdx := v.sidebandIdx.toNat
  sidebandLen := v.sidebandLen.toNat
  sidebandSeq := v.sidebandSeq.toNat
  payload := v.payload

/-- Every getter of an integer reads the little-endian integer that its bytes denote. -/
theorem RouterFrame.view_fields (f : RouterFrame) : f.fields.view =
    { source := leValue (f.readField .source)
      flags := leValue (f.readField .flags)
      topicId := leValue (f.readField .topicId)
      seq := leValue (f.readField .seq)
      timestampNs := leValue (f.readField .timestampNs)
      sidebandIdx := leValue (f.readField .sidebandIdx)
      sidebandLen := leValue (f.readField .sidebandLen)
      sidebandSeq := leValue (f.readField .sidebandSeq)
      payload := f.payload } := by
  simp only [← RouterFrame.toNat_source, ← RouterFrame.toNat_flags, ← RouterFrame.toNat_topicId,
    ← RouterFrame.toNat_seq, ← RouterFrame.toNat_timestampNs, ← RouterFrame.toNat_sidebandIdx,
    ← RouterFrame.toNat_sidebandLen, ← RouterFrame.toNat_sidebandSeq]
  rfl

inductive PayloadArg where
  | text (s : String)
  | bytes (data : Bytes)

/-- Text is sent in UTF-8. -/
def PayloadArg.encoded : PayloadArg → Bytes
  | .text s => s.toUTF8.data.toList
  | .bytes data => data

/-- The named arguments of `make` and of `makeFrame`, with the defaults of both. -/
structure FrameArgs where
  source : Int := 0
  flags : Int := 0
  topicId : Int := 0
  seq : Int := 0
  timestampNs : Int := 0
  sidebandIdx : Int := 0xFFFF
  sidebandLen : Int := 0
  sidebandSeq : Int := 0
  payload : PayloadArg := .bytes []

def FrameView.args (v : FrameView) : FrameArgs where
  source := v.source
  flags := v.flags
  topicId := v.topicId
  seq := v.seq
  timestampNs := v.timestampNs
  sidebandIdx := v.sidebandIdx
  sidebandLen := v.sidebandLen
  sidebandSeq := v.sidebandSeq
  payload := .bytes v.payload

/-- A mask takes nothing from an integer that fits. -/
theorem masked_of_lt {k n : Nat} (small : n < 2 ^ k) : (n : Int) % 2 ^ k = n := by
  apply Int.emod_eq_of_lt (Int.natCast_nonneg n)
  exact_mod_cast small

end RoboticsIpc
