import RoboticsIpc.Lib.Checked
import RoboticsIpc.Router.FrameCodec

/-!
`RouterFrame` in Python (`examples/bridges/python_peer/rim_router_frame.py`).

The ctypes structure is its 64 bytes. Its fields are laid out by their sizes, and the
places that result are those of the C++ structure (`place_eq`); each assignment then is
a setter of the C++ class, and each attribute a getter (`make_fields`, `fromFrame_eq`).
-/

namespace RoboticsIpc.PythonPeer

open ByteBuffer Checked RecordLayout

def routerFrameSize : Nat := 64
def routerPayloadSize : Nat := 32
def sidebandLenMax : Int := 0x0000FFFFFFFFFFFF

/-- `ValueError` and its text. -/
structure ValueError where
  message : Bytes
deriving DecidableEq

/-! ### The structure -/

/-- `_fields_`: names and sizes, in order. -/
def fields : List (FrameField × Nat) :=
  [(.source, 1), (.flags, 1), (.topicId, 2), (.seq, 4), (.timestampNs, 8), (.sidebandIdx, 2),
    (.sidebandLen, 6), (.sidebandSeq, 8), (.payload, routerPayloadSize)]

/-- With `_pack_ = 1` every field starts where the one before it ends. -/
def packed (off : Nat) : List (FrameField × Nat) → FrameField → Span
  | [], _ => ⟨off, 0⟩
  | (m, size) :: rest, n => if m = n then ⟨off, size⟩ else packed (off + size) rest n

def place : FrameField → Span := packed 0 fields

theorem place_eq (n : FrameField) : place n = n.place := by
  cases n <;> rfl

/-- The bytes of a field. -/
def load (n : FrameField) (frame : RouterFrame) : Bytes :=
  slice (place n).off (place n).len frame.bytes

/-- A copy to the start of a field. -/
def store (n : FrameField) (src : Bytes) (inside : src.length ≤ (place n).len)
    (frame : RouterFrame) : RouterFrame :=
  frame.write (place n).off src (by
    rw [place_eq] at inside ⊢
    exact RouterFrame.fits_field n inside)

/-- An attribute that is an integer. -/
def getInt (n : FrameField) (frame : RouterFrame) : Int := leValue (load n frame)

/-- An assignment to one: ctypes keeps the bits it has room for and checks nothing. -/
def setInt (n : FrameField) (value : Int) (frame : RouterFrame) : RouterFrame :=
  store n (leBytes (place n).len (value % 256 ^ (place n).len).toNat)
    (Nat.le_of_eq (length_leBytes ..)) frame

/-- The property `sideband_len`, over an array of six bytes. -/
def sidebandLen (frame : RouterFrame) : Int := leValue (load .sidebandLen frame)

def setSidebandLen (value : Int) (frame : RouterFrame) : Except ValueError RouterFrame :=
  if value < 0 ∨ sidebandLenMax < value then
    .error ⟨ascii "sideband_len out of range (0.." ++ toStdString sidebandLenMax ++ ascii "): " ++
      toStdString value⟩
  else
    .ok (store .sidebandLen (leBytes 6 value.toNat) (Nat.le_of_eq (length_leBytes ..)) frame)

def setPayload (data : Bytes) (frame : RouterFrame) : Except ValueError RouterFrame :=
  if fits : data.length ≤ routerPayloadSize then
    let cleared := store .payload (List.replicate routerPayloadSize 0)
      (Nat.le_of_eq List.length_replicate) frame
    .ok (store .payload data fits cleared)
  else
    .error ⟨ascii "payload too large (" ++ toStdString data.length ++ ascii " > " ++
      toStdString routerPayloadSize ++ ascii ")"⟩

/-- `rstrip` of the NULs. -/
def payloadBytes (frame : RouterFrame) : Bytes := unpadded (load .payload frame)

def toBytes (frame : RouterFrame) : Bytes := frame.bytes

def fromBytes (data : Bytes) : Except ValueError RouterFrame :=
  if whole : data.length = routerFrameSize then
    .ok ⟨data, whole⟩
  else
    .error ⟨ascii "RouterFrame.from_bytes: expected " ++ toStdString routerFrameSize ++
      ascii " bytes, got " ++ toStdString data.length⟩

/-- A mask keeps the low bits of an integer, also of a negative one. -/
def make (args : FrameArgs) : Except ValueError RouterFrame := do
  let frame := RouterFrame.zero
  let frame := setInt .source (args.source % 2 ^ 8) frame
  let frame := setInt .flags (args.flags % 2 ^ 8) frame
  let frame := setInt .topicId (args.topicId % 2 ^ 16) frame
  let frame := setInt .seq (args.seq % 2 ^ 32) frame
  let frame := setInt .timestampNs (args.timestampNs % 2 ^ 64) frame
  let frame := setInt .sidebandIdx (args.sidebandIdx % 2 ^ 16) frame
  let frame ← setSidebandLen args.sidebandLen frame
  let frame := setInt .sidebandSeq (args.sidebandSeq % 2 ^ 64) frame
  setPayload args.payload.encoded frame

/-- `RouterFrameView.from_frame`. -/
def fromFrame (frame : RouterFrame) : FrameView where
  source := getInt .source frame
  flags := getInt .flags frame
  topicId := getInt .topicId frame
  seq := getInt .seq frame
  timestampNs := getInt .timestampNs frame
  sidebandIdx := getInt .sidebandIdx frame
  sidebandLen := sidebandLen frame
  sidebandSeq := getInt .sidebandSeq frame
  payload := payloadBytes frame

/-! ### It is the C++ structure -/

theorem load_eq (n : FrameField) (frame : RouterFrame) : load n frame = frame.readField n := by
  rw [load, place_eq]
  rfl

theorem store_bytes (n : FrameField) (src : Bytes) (inside : src.length ≤ (place n).len)
    (frame : RouterFrame) :
    (store n src inside frame).bytes = splice n.place.off src frame.bytes := by
  rw [← place_eq]
  rfl

theorem setInt_bytes (n : FrameField) (value : Nat) (frame : RouterFrame) :
    (setInt n value frame).bytes =
      splice n.place.off (leBytes n.place.len value) frame.bytes := by
  have kept : (value : Int) % 256 ^ (place n).len = (value % 256 ^ (place n).len : Nat) := by
    push_cast
    rfl
  rw [setInt, store_bytes, kept, Int.toNat_natCast, leBytes_mod, place_eq]

/-- An assignment is the call of a setter that writes the same integer. -/
theorem setInt_eq {c : FrameSetter} (accepted : c.Accepted) {value : Nat}
    (same : c.written = leBytes c.field.place.len value) (frame : RouterFrame) :
    setInt c.field value frame = (c.call frame).state := by
  apply RouterFrame.ext
  rw [setInt_bytes, (c.call_accepted accepted frame).2, same]
  rfl

theorem setSidebandLen_eq {v : UInt64} (fits : v.toNat < 256 ^ kRouterSidebandLenSize)
    (frame : RouterFrame) : setSidebandLen v.toNat frame = .ok (frame.setSidebandLen v) := by
  have inRange : ¬ ((v.toNat : Int) < 0 ∨ sidebandLenMax < v.toNat) := by
    rw [sidebandLenMax]
    rw [kRouterSidebandLenSize] at fits
    omega
  rw [setSidebandLen, if_neg inRange]
  refine congrArg Except.ok (RouterFrame.ext ?_)
  rw [store_bytes, Int.toNat_natCast]
  exact (FrameSetter.call_accepted (c := .sidebandLen v) trivial frame).2.symm

theorem setPayload_eq {data : Bytes} (fits : data.length ≤ kRouterPayloadSize)
    (frame : RouterFrame) : setPayload data frame = .ok (frame.setPayload data).state := by
  have short : data.length ≤ routerPayloadSize := fits
  rw [setPayload, dif_pos short, RouterFrame.setPayload, dif_pos fits]
  refine congrArg Except.ok (RouterFrame.ext ((store_bytes ..).trans ?_))
  exact congrArg (splice kRouterPayloadOffset data) (store_bytes ..)

/-- `make` makes the frame with the values it is given. -/
theorem make_fields (v : FrameFields) : make v.view.args = .ok v.frame := by
  have source : ∀ frame, setInt .source v.source.toNat frame = frame.setSource v.source :=
    setInt_eq (c := .source v.source) trivial (leBytes_one v.source).symm
  have flags : ∀ frame, setInt .flags v.flags.toNat frame = frame.setFlags v.flags :=
    setInt_eq (c := .flags v.flags) trivial (leBytes_one v.flags).symm
  have topicId : ∀ frame, setInt .topicId v.topicId.toNat frame = frame.setTopicId v.topicId :=
    setInt_eq (c := .topicId v.topicId) trivial rfl
  have seq : ∀ frame, setInt .seq v.seq.toNat frame = frame.setSeq v.seq :=
    setInt_eq (c := .seq v.seq) trivial rfl
  have timestampNs : ∀ frame, setInt .timestampNs v.timestampNs.toNat frame =
      frame.setTimestampNs v.timestampNs :=
    setInt_eq (c := .timestampNs v.timestampNs) trivial rfl
  have sidebandIdx : ∀ frame, setInt .sidebandIdx v.sidebandIdx.toNat frame =
      frame.setSidebandIdx v.sidebandIdx :=
    setInt_eq (c := .sidebandIdx v.sidebandIdx) trivial rfl
  have sidebandSeq : ∀ frame, setInt .sidebandSeq v.sidebandSeq.toNat frame =
      frame.setSidebandSeq v.sidebandSeq :=
    setInt_eq (c := .sidebandSeq v.sidebandSeq) trivial rfl
  simp only [make, FrameView.args, FrameFields.view, PayloadArg.encoded]
  rw [masked_of_lt v.source.toNat_lt, masked_of_lt v.flags.toNat_lt,
    masked_of_lt v.topicId.toNat_lt, masked_of_lt v.seq.toNat_lt,
    masked_of_lt v.timestampNs.toNat_lt, masked_of_lt v.sidebandIdx.toNat_lt,
    masked_of_lt v.sidebandSeq.toNat_lt, source, flags, topicId, seq, timestampNs, sidebandIdx]
  rw [setSidebandLen_eq v.lenFits, ok_bind, sidebandSeq, setPayload_eq v.payloadFits, v.setPayload_setters]

/-- The view has the values of the getters. -/
theorem fromFrame_eq (frame : RouterFrame) : fromFrame frame = frame.fields.view := by
  rw [frame.view_fields, frame.payload_eq]
  simp only [fromFrame, getInt, sidebandLen, payloadBytes, load_eq]

end RoboticsIpc.PythonPeer
