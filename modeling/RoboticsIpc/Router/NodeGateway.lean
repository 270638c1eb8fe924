import RoboticsIpc.Lib.Checked
import RoboticsIpc.Router.FrameCodec

/-!
`RouterFrame` in JavaScript (`examples/bridges/node_gateway/rim_router_frame.js`).

A frame is a Node `Buffer` of 64 bytes, with a table of offsets. The `Buffer` writes
check the range of what they write. A Number or BigInt argument is the integer it
holds.
-/

namespace RoboticsIpc.NodeGateway

open ByteBuffer Checked RecordLayout

def routerFrameSize : Nat := 64
def routerPayloadSize : Nat := 32
def sidebandLenMax : Int := 0xFFFFFFFFFFFF

inductive JsError where
  | rangeError (message : Bytes)
  /-- `ERR_OUT_OF_RANGE`, from a `Buffer` write. -/
  | outOfRange (value : Int)
deriving DecidableEq

/-! ### The class -/

def fieldOffsets : FrameField → Nat
  | .source => 0
  | .flags => 1
  | .topicId => 2
  | .seq => 4
  | .timestampNs => 8
  | .sidebandIdx => 16
  | .sidebandLen => 18
  | .sidebandSeq => 24
  | .payload => 32

/-- `readUInt8`, `readUInt16LE` and so on. -/
def readUInt (off size : Nat) (frame : RouterFrame) : Int := leValue (slice off size frame.bytes)

/-- `writeUInt8`, `writeUInt16LE` and so on. -/
def writeUInt (off size : Nat) (fits : off + size ≤ kRouterFrameSize) (value : Int)
    (frame : RouterFrame) : Except JsError RouterFrame :=
  if 0 ≤ value ∧ value < 256 ^ size then
    .ok (frame.write off (leBytes size value.toNat) (by rwa [length_leBytes]))
  else
    .error (.outOfRange value)

def source (frame : RouterFrame) : Int := readUInt (fieldOffsets .source) 1 frame

def setSource (v : Int) (frame : RouterFrame) : Except JsError RouterFrame :=
  writeUInt (fieldOffsets .source) 1 (by decide) (v % 2 ^ 8) frame

def flags (frame : RouterFrame) : Int := readUInt (fieldOffsets .flags) 1 frame

def setFlags (v : Int) (frame : RouterFrame) : Except JsError RouterFrame :=
  writeUInt (fieldOffsets .flags) 1 (by decide) (v % 2 ^ 8) frame

def topicId (frame : RouterFrame) : Int := readUInt (fieldOffsets .topicId) 2 frame

def setTopicId (v : Int) (frame : RouterFrame) : Except JsError RouterFrame :=
  writeUInt (fieldOffsets .topicId) 2 (by decide) (v % 2 ^ 16) frame

def seq (frame : RouterFrame) : Int := readUInt (fieldOffsets .seq) 4 frame

/-- `v >>> 0`. -/
def setSeq (v : Int) (frame : RouterFrame) : Except JsError RouterFrame :=
  writeUInt (fieldOffsets .seq) 4 (by decide) (v % 2 ^ 32) frame

def timestampNs (frame : RouterFrame) : Int := readUInt (fieldOffsets .timestampNs) 8 frame

/-- A BigInt is not masked: the write throws where it does not fit. -/
def setTimestampNs (v : Int) (frame : RouterFrame) : Except JsError RouterFrame :=
  writeUInt (fieldOffsets .timestampNs) 8 (by decide) v frame

def sidebandIdx (frame : RouterFrame) : Int := readUInt (fieldOffsets .sidebandIdx) 2 frame

def setSidebandIdx (v : Int) (frame : RouterFrame) : Except JsError RouterFrame :=
  writeUInt (fieldOffsets .sidebandIdx) 2 (by decide) (v % 2 ^ 16) frame

def sidebandLen (frame : RouterFrame) : Int := readUInt (fieldOffsets .sidebandLen) 6 frame

def setSidebandLen (v : Int) (frame : RouterFrame) : Except JsError RouterFrame :=
  if v < 0 ∨ sidebandLenMax < v then
    .error (.rangeError (ascii "sideband_len out of range (0.." ++ toStdString sidebandLenMax ++
      ascii "): " ++ toStdString v))
  else
    writeUInt (fieldOffsets .sidebandLen) 6 (by decide) v frame

def sidebandSeq (frame : RouterFrame) : Int := readUInt (fieldOffsets .sidebandSeq) 8 frame

def setSidebandSeq (v : Int) (frame : RouterFrame) : Except JsError RouterFrame :=
  writeUInt (fieldOffsets .sidebandSeq) 8 (by decide) v frame

def setPayload (src : Bytes) (frame : RouterFrame) : Except JsError RouterFrame :=
  if fits : src.length ≤ routerPayloadSize then
    let filled := frame.write (fieldOffsets .payload) (List.replicate routerPayloadSize 0) (by decide)
    .ok (filled.write (fieldOffsets .payload) src (Nat.add_le_add_left fits _))
  else
    .error (.rangeError (ascii "setPayload: data too large (" ++ toStdString src.length ++
      ascii " > " ++ toStdString routerPayloadSize ++ ascii ")"))

def payloadBytes (frame : RouterFrame) : Bytes :=
  let start := fieldOffsets .payload
  let last := trimmedEnd start frame.bytes (start + routerPayloadSize)
  slice start (last - start) frame.bytes

def toBytes (frame : RouterFrame) : Bytes := frame.bytes

/-- More than a frame is accepted, and cut. -/
def fromBytes (data : Bytes) : Except JsError RouterFrame :=
  if enough : routerFrameSize ≤ data.length then
    .ok ⟨data.take routerFrameSize, List.length_take_of_le enough⟩
  else
    .error (.rangeError (ascii "RouterFrame.fromBytes: need " ++ toStdString routerFrameSize ++
      ascii " bytes, got " ++ toStdString data.length))

def makeFrame (args : FrameArgs) : Except JsError RouterFrame := do
  let f := RouterFrame.zero
  let f ← setSource args.source f
  let f ← setFlags args.flags f
  let f ← setTopicId args.topicId f
  let f ← setSeq args.seq f
  let f ← setTimestampNs args.timestampNs f
  let f ← setSidebandIdx args.sidebandIdx f
  let f ← setSidebandLen args.sidebandLen f
  let f ← setSidebandSeq args.sidebandSeq f
  setPayload args.payload.encoded f

/-- All the getters, the payload through `payloadBytes`. -/
def getters (frame : RouterFrame) : FrameView where
  source := source frame
  flags := flags frame
  topicId := topicId frame
  seq := seq frame
  timestampNs := timestampNs frame
  sidebandIdx := sidebandIdx frame
  sidebandLen := sidebandLen frame
  sidebandSeq := sidebandSeq frame
  payload := payloadBytes frame

/-! ### It is the C++ class -/

theorem writeUInt_ok {off size value : Nat} (fits : off + size ≤ kRouterFrameSize)
    (small : value < 256 ^ size) (frame : RouterFrame) :
    writeUInt off size fits value frame =
      .ok (frame.write off (leBytes size value) (by rwa [length_leBytes])) := by
  have inRange : 0 ≤ (value : Int) ∧ (value : Int) < 256 ^ size :=
    ⟨Int.natCast_nonneg value, by exact_mod_cast small⟩
  rw [writeUInt, if_pos inRange]
  rfl

/-- A write is the call of a setter that writes the same integer. -/
theorem writeUInt_eq {c : FrameSetter} (accepted : c.Accepted) {value : Nat}
    (same : c.written = leBytes c.field.place.len value)
    (fits : c.field.place.off + c.field.place.len ≤ kRouterFrameSize)
    (small : value < 256 ^ c.field.place.len) (frame : RouterFrame) :
    writeUInt c.field.place.off c.field.place.len fits value frame =
      .ok (c.call frame).state := by
  rw [writeUInt_ok _ small]
  refine congrArg Except.ok (RouterFrame.ext ?_)
  rw [(c.call_accepted accepted frame).2, same]
  rfl

theorem setPayload_eq {data : Bytes} (fits : data.length ≤ kRouterPayloadSize)
    (frame : RouterFrame) : setPayload data frame = .ok (frame.setPayload data).state := by
  have short : data.length ≤ routerPayloadSize := fits
  rw [setPayload, dif_pos short, RouterFrame.setPayload, dif_pos fits]
  rfl

/-- `makeFrame` makes the frame with the values it is given. -/
theorem makeFrame_fields (v : FrameFields) : makeFrame v.view.args = .ok v.frame := by
  have source : ∀ f, setSource v.source.toNat f = .ok (f.setSource v.source) := by
    intro f
    rw [setSource, masked_of_lt v.source.toNat_lt]
    exact writeUInt_eq (c := .source v.source) trivial (leBytes_one v.source).symm _
      v.source.toNat_lt f
  have flags : ∀ f, setFlags v.flags.toNat f = .ok (f.setFlags v.flags) := by
    intro f
    rw [setFlags, masked_of_lt v.flags.toNat_lt]
    exact writeUInt_eq (c := .flags v.flags) trivial (leBytes_one v.flags).symm _
      v.flags.toNat_lt f
  have topicId : ∀ f, setTopicId v.topicId.toNat f = .ok (f.setTopicId v.topicId) := by
    intro f
    rw [setTopicId, masked_of_lt v.topicId.toNat_lt]
    exact writeUInt_eq (c := .topicId v.topicId) trivial rfl _ v.topicId.toNat_lt f
  have seq : ∀ f, setSeq v.seq.toNat f = .ok (f.setSeq v.seq) := by
    intro f
    rw [setSeq, masked_of_lt v.seq.toNat_lt]
    exact writeUInt_eq (c := .seq v.seq) trivial rfl _ v.seq.toNat_lt f
  have timestampNs : ∀ f, setTimestampNs v.timestampNs.toNat f =
      .ok (f.setTimestampNs v.timestampNs) :=
    writeUInt_eq (c := .timestampNs v.timestampNs) trivial rfl _ v.timestampNs.toNat_lt
  have sidebandIdx : ∀ f, setSidebandIdx v.sidebandIdx.toNat f =
      .ok (f.setSidebandIdx v.sidebandIdx) := by
    intro f
    rw [setSidebandIdx, masked_of_lt v.sidebandIdx.toNat_lt]
    exact writeUInt_eq (c := .sidebandIdx v.sidebandIdx) trivial rfl _ v.sidebandIdx.toNat_lt f
  have sidebandLen : ∀ f, setSidebandLen v.sidebandLen.toNat f =
      .ok (f.setSidebandLen v.sidebandLen) := by
    intro f
    have small : v.sidebandLen.toNat < 256 ^ 6 := v.lenFits
    have inRange : ¬ ((v.sidebandLen.toNat : Int) < 0 ∨ sidebandLenMax < v.sidebandLen.toNat) := by
      rw [sidebandLenMax]
      omega
    rw [setSidebandLen, if_neg inRange]
    exact writeUInt_eq (c := .sidebandLen v.sidebandLen) trivial rfl _ small f
  have sidebandSeq : ∀ f, setSidebandSeq v.sidebandSeq.toNat f =
      .ok (f.setSidebandSeq v.sidebandSeq) :=
    writeUInt_eq (c := .sidebandSeq v.sidebandSeq) trivial rfl _ v.sidebandSeq.toNat_lt
  simp only [makeFrame, FrameView.args, FrameFields.view, PayloadArg.encoded]
  rw [source, ok_bind, flags, ok_bind, topicId, ok_bind, seq, ok_bind, timestampNs, ok_bind,
    sidebandIdx, ok_bind, sidebandLen, ok_bind, sidebandSeq, ok_bind,
    setPayload_eq v.payloadFits, v.setPayload_setters]

/-- The getters are those of C++. -/
theorem getters_eq (frame : RouterFrame) : getters frame = frame.fields.view := by
  have payload : payloadBytes frame = frame.payload := by
    have inside : kRouterPayloadOffset + kRouterPayloadSize ≤ frame.bytes.length := by
      rw [frame.size]
      exact frameLayout.fits .payload
    have scanned := slice_trimmedEnd (Nat.le_add_right ..) inside
    rw [Nat.add_sub_cancel_left] at scanned
    rw [frame.payload_eq]
    exact scanned
  rw [frame.view_fields, ← payload]
  rfl

end RoboticsIpc.NodeGateway
