import Mathlib.Data.List.GetD
import RoboticsIpc.Lib.ByteBuffer
import RoboticsIpc.Lib.StreamReader

/-!
The frames of the gateway's WebSocket server
(`examples/bridges/node_gateway/websocket_server.js`): the parser and the encoders.

The parser is incremental (`incremental_tryParseFrame`) and reads no further than a frame
goes (`exact_tryParseFrame`). It reads back what the encoders write, as long as a control
frame has at most 125 bytes to carry (`valid_text`, `valid_pong_iff`, `valid_close`). A Number
is exact below 2^53 and no buffer is longer.
-/

namespace RoboticsIpc.WebSocketServer

open ByteBuffer StreamReader

/-! ### Text -/

/-- A JavaScript string: its UTF-16 code units. -/
abbrev JsString := List UInt16

def jsString (text : String) : JsString := text.toList.map fun c => UInt16.ofNat c.toNat

/-- The code point of a unit by itself; a lone surrogate becomes U+FFFD. -/
def codePoint (u : UInt16) : Char :=
  if 0xD800 ≤ u ∧ u < 0xE000 then '\uFFFD' else Char.ofNat u.toNat

def codePoints : JsString → List Char
  | [] => []
  | [u] => [codePoint u]
  | u :: v :: rest =>
      if (0xD800 ≤ u ∧ u < 0xDC00) ∧ 0xDC00 ≤ v ∧ v < 0xE000 then
        Char.ofNat (0x10000 + (u.toNat - 0xD800) * 0x400 + (v.toNat - 0xDC00)) :: codePoints rest
      else codePoint u :: codePoints (v :: rest)

/-- `Buffer.from(text, 'utf8')`. -/
def utf8 (text : JsString) : Bytes := (codePoints text).flatMap String.utf8EncodeChar

/-! ### Frames -/

def opcodeCont : UInt8 := 0x0
def opcodeText : UInt8 := 0x1
def opcodeBinary : UInt8 := 0x2
def opcodeClose : UInt8 := 0x8
def opcodePing : UInt8 := 0x9
def opcodePong : UInt8 := 0xA

/-- `Number.MAX_SAFE_INTEGER`. -/
def maxSafeInteger : Nat := 2 ^ 53 - 1

structure Frame where
  fin : Bool
  opcode : UInt8
  masked : Bool
  payload : Bytes
deriving DecidableEq

inductive Parsed where
  | frame (f : Frame)
  | protocolError (reason : JsString)
deriving DecidableEq

def encodeTextFrame (text : JsString) : Bytes :=
  let payload := utf8 text
  let len := payload.length
  let header :=
    if len < 126 then [0x80 ||| opcodeText, UInt8.ofNat len]
    else if len < 65536 then [0x80 ||| opcodeText, 126] ++ beBytes 2 len
    else [0x80 ||| opcodeText, 127] ++ beBytes 8 len
  header ++ payload

/-- The payload of a CLOSE. -/
def closePayload (code : UInt16) (reason : JsString) : Bytes := beBytes 2 code.toNat ++ utf8 reason

/-- `header[1] = payload.length`: a byte holds it modulo 256. -/
def encodeCloseFrame (code : UInt16) (reason : JsString) : Bytes :=
  [0x80 ||| opcodeClose, UInt8.ofNat (closePayload code reason).length] ++ closePayload code reason

def encodePongFrame (payload : Bytes) : Bytes :=
  [0x80 ||| opcodePong, UInt8.ofNat payload.length] ++ payload

def unmask (maskKey payload : Bytes) : Bytes :=
  payload.mapIdx fun i b => b ^^^ maskKey.getD (i &&& 3) 0

/-- `tryParseFrame` once the length is known: the mask key, if there is one, and the payload. -/
def parseRest (buf : Bytes) (fin : Bool) (opcode : UInt8) (masked : Bool)
    (payloadLen cursor : Nat) : Option (Parsed × Nat) :=
  if masked then
    if buf.length < cursor + 4 then none
    else
      let maskKey := slice cursor 4 buf
      let cursor := cursor + 4
      if buf.length < cursor + payloadLen then none
      else some (.frame ⟨fin, opcode, masked, unmask maskKey (slice cursor payloadLen buf)⟩,
        cursor + payloadLen)
  else if buf.length < cursor + payloadLen then none
  else some (.frame ⟨fin, opcode, masked, slice cursor payloadLen buf⟩, cursor + payloadLen)

/-- A frame at the front of the buffer and the bytes it takes; `none` if it is not complete. -/
def tryParseFrame (buf : Bytes) : Option (Parsed × Nat) :=
  if buf.length < 2 then none
  else
    let b0 := buf.getD 0 0
    let b1 := buf.getD 1 0
    let fin := decide (b0 &&& 0x80 ≠ 0)
    let opcode := b0 &&& 0x0F
    let masked := decide (b1 &&& 0x80 ≠ 0)
    let payloadLen := (b1 &&& 0x7F).toNat
    if payloadLen = 126 then
      if buf.length < 2 + 2 then none
      else parseRest buf fin opcode masked (beValue (slice 2 2 buf)) (2 + 2)
    else if payloadLen = 127 then
      if buf.length < 2 + 8 then none
      else
        let big := beValue (slice 2 8 buf)
        if maxSafeInteger < big then
          -- Nothing of the buffer is kept.
          some (.protocolError (jsString "payload too large"), buf.length)
        else parseRest buf fin opcode masked big (2 + 8)
    else parseRest buf fin opcode masked payloadLen 2

/-! ### What the parser reads -/

/-- The length in the second byte; 126 and 127 stand for a longer one behind it. -/
def shortLength (buf : Bytes) : Nat := (buf.getD 1 0 &&& 0x7F).toNat

/-- `parseRest` with what the first two bytes say. -/
def parseAfter (buf : Bytes) (payloadLen cursor : Nat) : Option (Parsed × Nat) :=
  parseRest buf (decide (buf.getD 0 0 &&& 0x80 ≠ 0)) (buf.getD 0 0 &&& 0x0F)
    (decide (buf.getD 1 0 &&& 0x80 ≠ 0)) payloadLen cursor

/-- A header with a length that is not a safe integer. -/
structure DeclaresTooLong (buf : Bytes) : Prop where
  header : 10 ≤ buf.length
  long : shortLength buf = 127
  tooLong : maxSafeInteger < beValue (slice 2 8 buf)

/-- The ways to a result: a length in one of its three forms, or one that is too large. -/
inductive ParsedAs (buf : Bytes) (p : Parsed) (used : Nat) : Prop where
  | short (notMedium : shortLength buf ≠ 126) (notLong : shortLength buf ≠ 127)
      (rest : parseAfter buf (shortLength buf) 2 = some (p, used)) : ParsedAs buf p used
  | medium (len : shortLength buf = 126) (header : 4 ≤ buf.length)
      (rest : parseAfter buf (beValue (slice 2 2 buf)) 4 = some (p, used)) : ParsedAs buf p used
  | long (len : shortLength buf = 127) (header : 10 ≤ buf.length)
      (safe : beValue (slice 2 8 buf) ≤ maxSafeInteger)
      (rest : parseAfter buf (beValue (slice 2 8 buf)) 10 = some (p, used)) : ParsedAs buf p used
  | tooLong (declares : DeclaresTooLong buf)
      (error : p = .protocolError (jsString "payload too large")) (all : used = buf.length) :
      ParsedAs buf p used

section Parser

variable {buf : Bytes} {fin masked : Bool} {opcode : UInt8} {payloadLen cursor used : Nat}
  {p : Parsed}

theorem tryParseFrame_eq_some :
    tryParseFrame buf = some (p, used) ↔ 2 ≤ buf.length ∧ ParsedAs buf p used := by
  constructor
  · intro found
    unfold tryParseFrame at found
    split at found
    · cases found
    · rename_i started
      refine ⟨Nat.not_lt.mp started, ?_⟩
      dsimp only at found
      split at found
      · rename_i medium
        split at found
        · cases found
        · rename_i header
          exact .medium medium (Nat.not_lt.mp header) found
      · rename_i notMedium
        split at found
        · rename_i long
          split at found
          · cases found
          · rename_i header
            split at found
            · rename_i tooLong
              cases found
              exact .tooLong ⟨Nat.not_lt.mp header, long, tooLong⟩ rfl rfl
            · rename_i safe
              exact .long long (Nat.not_lt.mp header) (Nat.not_lt.mp safe) found
        · rename_i notLong
          exact .short notMedium notLong found
  · rintro ⟨started, parsed⟩
    rw [tryParseFrame, if_neg (Nat.not_lt.mpr started)]
    dsimp only
    rw [← shortLength]
    cases parsed with
    | short notMedium notLong rest =>
        rw [if_neg notMedium, if_neg notLong]
        exact rest
    | medium len header rest =>
        rw [if_pos len, if_neg (Nat.not_lt.mpr header)]
        exact rest
    | long len header safe rest =>
        rw [len, if_neg (by decide), if_pos rfl, if_neg (Nat.not_lt.mpr header),
          if_neg (Nat.not_lt.mpr safe)]
        exact rest
    | tooLong declares error all =>
        rw [declares.long, if_neg (by decide), if_pos rfl,
          if_neg (Nat.not_lt.mpr declares.header), if_pos declares.tooLong, error, all]

/-! ### The parser is incremental -/

/-- After an error the connection is closed. -/
def Parsed.IsError (p : Parsed) : Prop := ∃ reason, p = .protocolError reason

theorem parseRest_append (found : parseRest buf fin opcode masked payloadLen cursor = some (p, used))
    (more : Bytes) : ¬ p.IsError ∧ cursor ≤ used ∧ used ≤ buf.length ∧
      parseRest (buf ++ more) fin opcode masked payloadLen cursor = some (p, used) := by
  have notError : ∀ f, ¬ (Parsed.frame f).IsError := by
    rintro f ⟨reason, ⟨⟩⟩
  unfold parseRest at found ⊢
  rw [List.length_append]
  cases masked with
  | false =>
      simp only [Bool.false_eq_true, if_false] at found ⊢
      split at found
      · cases found
      · rename_i whole
        cases found
        refine ⟨notError _, by omega, by omega, ?_⟩
        rw [if_neg (by omega), slice_append (by omega)]
  | true =>
      simp only [if_true] at found ⊢
      split at found
      · cases found
      · rename_i key
        split at found
        · cases found
        · rename_i whole
          cases found
          refine ⟨notError _, by omega, by omega, ?_⟩
          rw [if_neg (by omega), if_neg (by omega), slice_append (by omega),
            slice_append (by omega)]

/-- The first two bytes of a buffer are those of a longer one. -/
theorem getD_started (started : 2 ≤ buf.length) (more : Bytes) {i : Nat} (inside : i < 2) :
    (buf ++ more).getD i 0 = buf.getD i 0 :=
  List.getD_append _ _ _ _ (Nat.lt_of_lt_of_le inside started)

theorem shortLength_append (started : 2 ≤ buf.length) (more : Bytes) :
    shortLength (buf ++ more) = shortLength buf := by
  rw [shortLength, getD_started started more (by decide), ← shortLength]

theorem parseAfter_append (started : 2 ≤ buf.length)
    (found : parseAfter buf payloadLen cursor = some (p, used)) (more : Bytes) :
    ¬ p.IsError ∧ cursor ≤ used ∧ used ≤ buf.length ∧
      parseAfter (buf ++ more) payloadLen cursor = some (p, used) := by
  rw [parseAfter, getD_started started more (by decide), getD_started started more (by decide)]
  exact parseRest_append found more

theorem DeclaresTooLong.append (declares : DeclaresTooLong buf) (more : Bytes) :
    DeclaresTooLong (buf ++ more) := by
  have header := declares.header
  refine ⟨?_, ?_, ?_⟩
  · rw [List.length_append]
    omega
  · rw [shortLength_append (by omega)]
    exact declares.long
  · rw [slice_append (by omega)]
    exact declares.tooLong

/-- Every result takes at least the two bytes it starts with and at most the buffer; more bytes
do not change it, but that an error takes them too. -/
theorem tryParseFrame_append (found : tryParseFrame buf = some (p, used)) (more : Bytes) :
    2 ≤ used ∧ used ≤ buf.length ∧
      (¬ p.IsError → tryParseFrame (buf ++ more) = some (p, used)) ∧
      (p.IsError → tryParseFrame (buf ++ more) = some (p, (buf ++ more).length)) := by
  obtain ⟨started, parsed⟩ := tryParseFrame_eq_some.mp found
  have grown : buf.length ≤ (buf ++ more).length := by
    rw [List.length_append]
    omega
  have started' : 2 ≤ (buf ++ more).length := Nat.le_trans started grown
  have len := shortLength_append started more
  cases parsed with
  | short notMedium notLong rest =>
      obtain ⟨good, low, high, same⟩ := parseAfter_append started rest more
      rw [← len] at notMedium notLong same
      exact ⟨low, high,
        fun _ => tryParseFrame_eq_some.mpr ⟨started', .short notMedium notLong same⟩,
        fun error => absurd error good⟩
  | medium medium header rest =>
      obtain ⟨good, low, high, same⟩ := parseAfter_append started rest more
      rw [← slice_append header more] at same
      exact ⟨by omega, high,
        fun _ => tryParseFrame_eq_some.mpr
          ⟨started', .medium (len.trans medium) (Nat.le_trans header grown) same⟩,
        fun error => absurd error good⟩
  | long long header safe rest =>
      obtain ⟨good, low, high, same⟩ := parseAfter_append started rest more
      rw [← slice_append header more] at same safe
      exact ⟨by omega, high,
        fun _ => tryParseFrame_eq_some.mpr
          ⟨started', .long (len.trans long) (Nat.le_trans header grown) safe same⟩,
        fun error => absurd error good⟩
  | tooLong declares error all =>
      refine ⟨by omega, by omega, fun good => absurd ⟨_, error⟩ good, fun _ => ?_⟩
      exact tryParseFrame_eq_some.mpr ⟨started', .tooLong (declares.append more) error rfl⟩

theorem tryParseFrame_uses (found : tryParseFrame buf = some (p, used)) :
    2 ≤ used ∧ used ≤ buf.length := by
  obtain ⟨low, high, -⟩ := tryParseFrame_append found []
  exact ⟨low, high⟩

theorem incremental_tryParseFrame : Incremental tryParseFrame Parsed.IsError where
  uses found := by
    obtain ⟨low, high⟩ := tryParseFrame_uses found
    exact ⟨by omega, high⟩
  stable more found good := (tryParseFrame_append found more).2.2.1 good
  ends more found error := ⟨_, (tryParseFrame_append found more).2.2.2 error⟩

/-- There is one error, and it takes the whole buffer. -/
theorem tryParseFrame_error {reason : JsString}
    (found : tryParseFrame buf = some (.protocolError reason, used)) :
    DeclaresTooLong buf ∧ reason = jsString "payload too large" ∧ used = buf.length := by
  obtain ⟨started, parsed⟩ := tryParseFrame_eq_some.mp found
  have good : ∀ {payloadLen cursor},
      parseAfter buf payloadLen cursor ≠ some (.protocolError reason, used) :=
    fun rest => (parseAfter_append started rest []).1 ⟨reason, rfl⟩
  cases parsed with
  | short _ _ rest => exact absurd rest good
  | medium _ _ rest => exact absurd rest good
  | long _ _ _ rest => exact absurd rest good
  | tooLong declares error all => exact ⟨declares, Parsed.protocolError.inj error, all⟩

/-! A frame is parsed from its own bytes. -/

variable {front more : Bytes}

theorem parseRest_front (found : parseRest (front ++ more) fin opcode masked payloadLen cursor =
    some (p, front.length)) :
    parseRest front fin opcode masked payloadLen cursor = some (p, front.length) := by
  unfold parseRest at found ⊢
  cases masked with
  | false =>
      simp only [Bool.false_eq_true, if_false] at found ⊢
      split at found
      · cases found
      · obtain ⟨rfl, taken⟩ := Prod.mk.inj (Option.some.inj found)
        rw [if_neg (by omega), slice_append (by omega), taken]
  | true =>
      simp only [if_true] at found ⊢
      split at found
      · cases found
      · split at found
        · cases found
        · obtain ⟨rfl, taken⟩ := Prod.mk.inj (Option.some.inj found)
          rw [if_neg (by omega), if_neg (by omega), slice_append (by omega),
            slice_append (by omega), taken]

theorem parseAfter_front (started : 2 ≤ front.length)
    (found : parseAfter (front ++ more) payloadLen cursor = some (p, front.length)) :
    cursor ≤ front.length ∧ parseAfter front payloadLen cursor = some (p, front.length) := by
  rw [parseAfter, getD_started started more (by decide), getD_started started more (by decide)]
    at found
  have rest := parseRest_front found
  exact ⟨(parseRest_append rest []).2.1, rest⟩

theorem exact_tryParseFrame : Exact tryParseFrame Parsed.IsError := by
  intro front p more found good
  have started := (tryParseFrame_uses found).1
  obtain ⟨-, parsed⟩ := tryParseFrame_eq_some.mp found
  have len := shortLength_append started more
  refine tryParseFrame_eq_some.mpr ⟨started, ?_⟩
  cases parsed with
  | short notMedium notLong rest =>
      rw [len] at notMedium notLong rest
      exact .short notMedium notLong (parseAfter_front started rest).2
  | medium medium _ rest =>
      obtain ⟨header, rest⟩ := parseAfter_front started rest
      rw [slice_append header] at rest
      exact .medium (len.symm.trans medium) header rest
  | long long _ safe rest =>
      obtain ⟨header, rest⟩ := parseAfter_front started rest
      rw [slice_append header] at rest safe
      exact .long (len.symm.trans long) header safe rest
  | tooLong _ error _ => exact absurd ⟨_, error⟩ good

end Parser

/-! ### What the encoders write -/

/-- A frame the server sends. -/
inductive Outgoing where
  | text (t : JsString)
  | pong (payload : Bytes)
  | close (code : UInt16) (reason : JsString)
deriving DecidableEq

namespace Outgoing

/-- The buffer that goes to `socket.write`. -/
def encode : Outgoing → Bytes
  | .text t => encodeTextFrame t
  | .pong payload => encodePongFrame payload
  | .close code reason => encodeCloseFrame code reason

def opcode : Outgoing → UInt8
  | .text _ => opcodeText
  | .pong _ => opcodePong
  | .close _ _ => opcodeClose

def payload : Outgoing → Bytes
  | .text t => utf8 t
  | .pong payload => payload
  | .close code reason => closePayload code reason

/-- One unmasked FIN frame with what was meant, whatever follows it. -/
structure Valid (o : Outgoing) : Prop where
  parses : ∀ suffix, tryParseFrame (o.encode ++ suffix) =
    some (.frame ⟨true, o.opcode, false, o.payload⟩, o.encode.length)
  control : o.opcode ≠ opcodeText → o.payload.length ≤ 125

end Outgoing

/-- A length byte below 128 has no mask bit. -/
theorem length_byte : ∀ n < 128,
    UInt8.ofNat n &&& 0x80 = 0 ∧ (UInt8.ofNat n &&& 0x7F).toNat = n := by
  decide

/-- An unmasked payload after a header. -/
theorem parseRest_plain (header payload suffix : Bytes) (fin : Bool) (opcode : UInt8) :
    parseRest (header ++ payload ++ suffix) fin opcode false payload.length header.length =
      some (.frame ⟨fin, opcode, false, payload⟩, (header ++ payload).length) := by
  rw [parseRest, if_neg Bool.false_ne_true, if_neg (by simp only [List.length_append]; omega)]
  rw [slice_append (by rw [List.length_append]), slice, List.drop_left, List.take_length,
    List.length_append]

/-- The first byte of a final frame. -/
structure FinalByte (b0 opcode : UInt8) : Prop where
  fin : b0 &&& 0x80 ≠ 0
  opcode : b0 &&& 0x0F = opcode

variable {b0 opcode : UInt8} {payload : Bytes}

/-- A length in the second byte. -/
theorem parse_short (first : FinalByte b0 opcode) (short : payload.length < 126) (suffix : Bytes) :
    tryParseFrame ([b0, UInt8.ofNat payload.length] ++ payload ++ suffix) =
      some (.frame ⟨true, opcode, false, payload⟩,
        ([b0, UInt8.ofNat payload.length] ++ payload).length) := by
  obtain ⟨plain, len⟩ := length_byte payload.length (by omega)
  rw [← parseRest_plain, tryParseFrame, if_neg (by simp)]
  simp only [List.cons_append, List.getD_cons_zero, List.getD_cons_succ, plain, len, first.opcode,
    first.fin, ne_eq, not_true, not_false_eq_true, decide_true, decide_false]
  rw [if_neg (by omega), if_neg (by omega)]
  rfl

/-- The bytes of a longer length. -/
theorem slice_length (b0 b1 : UInt8) (n v : Nat) (payload suffix : Bytes) :
    slice 2 n ([b0, b1] ++ beBytes n v ++ payload ++ suffix) = beBytes n v := by
  rw [List.append_assoc, List.append_assoc, slice]
  exact List.take_left' (length_beBytes n v)

/-- A length in two bytes more. -/
theorem parse_medium (first : FinalByte b0 opcode) (medium : payload.length < 65536)
    (suffix : Bytes) :
    tryParseFrame ([b0, 126] ++ beBytes 2 payload.length ++ payload ++ suffix) =
      some (.frame ⟨true, opcode, false, payload⟩,
        ([b0, 126] ++ beBytes 2 payload.length ++ payload).length) := by
  have mask : (126 : UInt8) &&& 0x80 = 0 := by decide
  have len : ((126 : UInt8) &&& 0x7F).toNat = 126 := by decide
  have read := slice_length b0 126 2 payload.length payload suffix
  have size : ([b0, 126] ++ beBytes 2 payload.length).length = 2 + 2 := by simp
  have value : beValue (beBytes 2 payload.length) = payload.length := by
    rw [beValue_beBytes, Nat.mod_eq_of_lt (by omega)]
  have enough : 2 + 2 ≤ ([b0, 126] ++ beBytes 2 payload.length ++ payload ++ suffix).length := by
    rw [List.append_assoc, List.length_append, size]
    omega
  rw [← parseRest_plain _ payload suffix, size, tryParseFrame, read, value, if_neg (by omega)]
  simp only [List.cons_append, List.getD_cons_zero, List.getD_cons_succ, mask, len, first.opcode,
    first.fin, ne_eq, not_true, not_false_eq_true, decide_true, decide_false, if_true]
  rw [if_neg]
  exact Nat.not_lt.mpr enough

/-- A length in eight bytes more. -/
theorem parse_long (first : FinalByte b0 opcode) (long : payload.length < 2 ^ 53) (suffix : Bytes) :
    tryParseFrame ([b0, 127] ++ beBytes 8 payload.length ++ payload ++ suffix) =
      some (.frame ⟨true, opcode, false, payload⟩,
        ([b0, 127] ++ beBytes 8 payload.length ++ payload).length) := by
  have mask : (127 : UInt8) &&& 0x80 = 0 := by decide
  have len : ((127 : UInt8) &&& 0x7F).toNat = 127 := by decide
  have read := slice_length b0 127 8 payload.length payload suffix
  have size : ([b0, 127] ++ beBytes 8 payload.length).length = 2 + 8 := by simp
  have value : beValue (beBytes 8 payload.length) = payload.length := by
    rw [beValue_beBytes, Nat.mod_eq_of_lt (by omega)]
  have exact : ¬ maxSafeInteger < payload.length := by
    rw [maxSafeInteger]
    omega
  have enough : 2 + 8 ≤ ([b0, 127] ++ beBytes 8 payload.length ++ payload ++ suffix).length := by
    rw [List.append_assoc, List.length_append, size]
    omega
  rw [← parseRest_plain _ payload suffix, size, tryParseFrame, read, value, if_neg (by omega)]
  simp only [List.cons_append, List.getD_cons_zero, List.getD_cons_succ, mask, len, first.opcode,
    first.fin, ne_eq, not_true, not_false_eq_true, decide_true, decide_false, if_true, exact,
    if_false]
  rw [if_neg (by decide), if_neg]
  exact Nat.not_lt.mpr enough

namespace Outgoing

theorem valid_text {t : JsString} (size : (utf8 t).length < 2 ^ 53) : (text t).Valid := by
  have first : FinalByte (0x80 ||| opcodeText) opcodeText := ⟨by decide, by decide⟩
  refine ⟨?_, fun control => absurd rfl control⟩
  intro suffix
  simp only [encode, encodeTextFrame]
  split
  · rename_i short
    exact parse_short first short suffix
  · split
    · rename_i medium
      exact parse_medium first medium suffix
    · exact parse_long first size suffix

/-- A control frame has one byte for its length. -/
theorem valid_pong_iff (payload : Bytes) : (pong payload).Valid ↔ payload.length ≤ 125 := by
  have first : FinalByte (0x80 ||| opcodePong) opcodePong := ⟨by decide, by decide⟩
  constructor
  · intro valid
    have isControl : opcodePong ≠ opcodeText := by decide
    exact valid.control isControl
  · intro small
    exact ⟨parse_short first (by omega), fun _ => small⟩

theorem valid_close {code : UInt16} {reason : JsString}
    (small : (closePayload code reason).length ≤ 125) : (close code reason).Valid := by
  have first : FinalByte (0x80 ||| opcodeClose) opcodeClose := ⟨by decide, by decide⟩
  exact ⟨parse_short first (by omega), fun _ => small⟩

end Outgoing

end RoboticsIpc.WebSocketServer
