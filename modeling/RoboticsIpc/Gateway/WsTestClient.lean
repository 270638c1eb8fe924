import RoboticsIpc.Gateway.Handshake

/-!
The WebSocket client of the gateway's smoke test
(`examples/bridges/node_gateway/ws_test_client.js`).

Its parser is the server's without the checks of a server, and reads every frame that the server's
parser reads (`tryParseFrame_of_server`). What it sends is masked, and the server's parser takes
the mask off again (`parse_maskedFrame`).
-/

namespace RoboticsIpc.WsTestClient

open ByteBuffer StreamReader Separator WebSocketServer

/-! ### Frames -/

structure ServerFrame where
  opcode : UInt8
  payload : Bytes
deriving DecidableEq

/-- `tryParseFrame` once the length is known. -/
def parseRest (buf : Bytes) (opcode : UInt8) (masked : Bool) (payloadLen cursor : Nat) :
    Option (ServerFrame × Nat) :=
  if masked then
    if buf.length < cursor + 4 then none
    else
      let maskKey := slice cursor 4 buf
      let cursor := cursor + 4
      if buf.length < cursor + payloadLen then none
      else some (⟨opcode, unmask maskKey (slice cursor payloadLen buf)⟩, cursor + payloadLen)
  else if buf.length < cursor + payloadLen then none
  else some (⟨opcode, slice cursor payloadLen buf⟩, cursor + payloadLen)

/-- A length of eight bytes is taken as it is. -/
def tryParseFrame (buf : Bytes) : Option (ServerFrame × Nat) :=
  if buf.length < 2 then none
  else
    let b0 := buf.getD 0 0
    let b1 := buf.getD 1 0
    let opcode := b0 &&& 0x0F
    let masked := decide (b1 &&& 0x80 ≠ 0)
    let payloadLen := (b1 &&& 0x7F).toNat
    if payloadLen = 126 then
      if buf.length < 2 + 2 then none
      else parseRest buf opcode masked (beValue (slice 2 2 buf)) (2 + 2)
    else if payloadLen = 127 then
      if buf.length < 2 + 8 then none
      else parseRest buf opcode masked (beValue (slice 2 8 buf)) (2 + 8)
    else parseRest buf opcode masked payloadLen 2

/-- `randomBytes(4)`. -/
abbrev Mask := { mask : Bytes // mask.length = 4 }

/-- The common part of the encoders. -/
def encodeMaskedFrame (opcode : UInt8) (mask : Mask) (payload : Bytes) : Bytes :=
  [0x80 ||| opcode, 0x80 ||| UInt8.ofNat payload.length] ++ mask.1 ++ unmask mask.1 payload

def encodeMaskedCloseFrame (mask : Mask) (code : UInt16) (reason : JsString) : Bytes :=
  encodeMaskedFrame opcodeClose mask (closePayload code reason)

def encodeMaskedPongFrame (mask : Mask) (payload : Bytes) : Bytes :=
  encodeMaskedFrame opcodePong mask payload

/-! ### The client -/

/-- What the client has done, less the bytes not used yet. -/
structure State where
  handshakeDone : Bool := false
  /-- What `exit` was called with. -/
  exiting : Option Nat := none
  received : Nat := 0
  /-- The payloads of the lines on standard output. -/
  printed : List Bytes := []
  /-- What was passed to `sock.write` after the request. -/
  written : List Bytes := []
deriving DecidableEq

section Client

-- `--count`, 0 for no limit, and the masks of the frames it writes, in order.
variable (exitAfter : Nat) (masks : Nat → Mask)

namespace State

/-- `exit`, but for the timer that ends the process. -/
def exit (s : State) (code : Nat) : State :=
  if s.exiting.isSome then s
  else { s with
    exiting := some code
    written := s.written ++ [encodeMaskedCloseFrame (masks s.written.length) 1000 []] }

/-- One round of the loop in the `data` handler. -/
def onFrame (s : State) (f : ServerFrame) : State :=
  if f.opcode = opcodeText then
    let s := { s with received := s.received + 1, printed := s.printed ++ [f.payload] }
    if exitAfter ≠ 0 ∧ exitAfter ≤ s.received then s.exit masks 0 else s
  else if f.opcode = opcodeClose then s.exit masks 0
  else if f.opcode = opcodePing then
    { s with written := s.written ++ [encodeMaskedPongFrame (masks s.written.length) f.payload] }
  -- Other opcodes are ignored.
  else s

end State

def frameHandler : Handler ServerFrame State where
  handle := State.onFrame exitAfter masks
  stopped s := s.exiting.isSome

/-- The client and `buf`. -/
abbrev Client := Reader State UInt8

def Client.new : Client := ⟨{}, []⟩

/-- The loop over the frames in `buf`. -/
def Client.readFrames (client : Client) : Client :=
  readLoop tryParseFrame (frameHandler exitAfter masks) client

/-- The `data` handler. -/
def Client.onData (expectedAccept : Bytes) (client : Client) (chunk : Bytes) : Client :=
  let buf := client.buf ++ chunk
  if client.state.handshakeDone then Client.readFrames exitAfter masks ⟨client.state, buf⟩
  else
    match indexOf crlfcrlf buf with
    | none => ⟨client.state, buf⟩
    | some idx =>
        let rest := buf.drop (idx + 4)
        match checkResponse expectedAccept (buf.take idx) with
        | some code => ⟨client.state.exit masks code, rest⟩
        | none => Client.readFrames exitAfter masks ⟨{ client.state with handshakeDone := true }, rest⟩

end Client

/-! ### The parser -/

section Parser

variable {buf : Bytes} {opcode : UInt8} {masked : Bool} {payloadLen cursor used : Nat}
  {f : ServerFrame}

/-- Both parsers read the rest of a frame alike. -/
theorem parseRest_server (buf : Bytes) (fin : Bool) (opcode : UInt8) (masked : Bool)
    (payloadLen cursor : Nat) :
    WebSocketServer.parseRest buf fin opcode masked payloadLen cursor =
      (parseRest buf opcode masked payloadLen cursor).map fun item =>
        (.frame ⟨fin, item.1.opcode, masked, item.1.payload⟩, item.2) := by
  unfold WebSocketServer.parseRest parseRest
  cases masked with
  | false =>
      simp only [Bool.false_eq_true, if_false]
      split <;> rfl
  | true =>
      simp only [if_true]
      split
      · rfl
      · split <;> rfl

theorem parseRest_append (found : parseRest buf opcode masked payloadLen cursor = some (f, used))
    (more : Bytes) : cursor ≤ used ∧ used ≤ buf.length ∧
      parseRest (buf ++ more) opcode masked payloadLen cursor = some (f, used) := by
  have server := parseRest_server buf true opcode masked payloadLen cursor
  rw [found, Option.map_some] at server
  obtain ⟨-, low, high, again⟩ := WebSocketServer.parseRest_append server more
  rw [parseRest_server, Option.map_eq_some_iff] at again
  obtain ⟨⟨g, used'⟩, found', same⟩ := again
  obtain ⟨frame, rfl⟩ := Prod.mk.inj same
  obtain ⟨-, sameOpcode, -, samePayload⟩ := Frame.mk.inj (Parsed.frame.inj frame)
  have sameFrame : g = f := by
    cases g
    cases f
    exact congrArg₂ _ sameOpcode samePayload
  rw [sameFrame] at found'
  exact ⟨low, high, found'⟩

theorem tryParseFrame_append (found : tryParseFrame buf = some (f, used)) (more : Bytes) :
    2 ≤ used ∧ used ≤ buf.length ∧ tryParseFrame (buf ++ more) = some (f, used) := by
  unfold tryParseFrame at found
  split at found
  · cases found
  · rename_i started
    have whole : 2 ≤ buf.length := Nat.not_lt.mp started
    have grown : buf.length ≤ (buf ++ more).length := by
      rw [List.length_append]
      exact Nat.le_add_right _ _
    rw [tryParseFrame, if_neg (by omega), getD_started whole more (by decide),
      getD_started whole more (by decide)]
    dsimp only at found ⊢
    split at found
    · rename_i medium
      split at found
      · cases found
      · obtain ⟨low, high, again⟩ := parseRest_append found more
        rw [if_pos medium, if_neg (by omega), slice_append (by omega)]
        exact ⟨by omega, high, again⟩
    · rename_i notMedium
      split at found
      · rename_i long
        split at found
        · cases found
        · obtain ⟨low, high, again⟩ := parseRest_append found more
          rw [if_neg notMedium, if_pos long, if_neg (by omega), slice_append (by omega)]
          exact ⟨by omega, high, again⟩
      · rename_i notLong
        obtain ⟨low, high, again⟩ := parseRest_append found more
        rw [if_neg notMedium, if_neg notLong]
        exact ⟨low, high, again⟩

/-- No frame ends the reading. -/
theorem incremental_tryParseFrame : Incremental tryParseFrame fun _ => False where
  uses found := by
    obtain ⟨low, high, -⟩ := tryParseFrame_append found []
    exact ⟨by omega, high⟩
  stable more found _ := (tryParseFrame_append found more).2.2
  ends _ _ never := never.elim

theorem parseRest_of_server {g : Frame}
    (found : parseAfter buf payloadLen cursor = some (.frame g, used)) :
    parseRest buf (buf.getD 0 0 &&& 0x0F) (decide (buf.getD 1 0 &&& 0x80 ≠ 0)) payloadLen cursor =
      some (⟨g.opcode, g.payload⟩, used) := by
  rw [parseAfter, parseRest_server, Option.map_eq_some_iff] at found
  obtain ⟨⟨h, used'⟩, rest, same⟩ := found
  obtain ⟨frame, rfl⟩ := Prod.mk.inj same
  rw [rest, ← Parsed.frame.inj frame]

/-- What the server's parser reads, the client's reads. -/
theorem tryParseFrame_of_server {g : Frame}
    (found : WebSocketServer.tryParseFrame buf = some (.frame g, used)) :
    tryParseFrame buf = some (⟨g.opcode, g.payload⟩, used) := by
  obtain ⟨started, parsed⟩ := tryParseFrame_eq_some.mp found
  rw [tryParseFrame, if_neg (Nat.not_lt.mpr started)]
  dsimp only
  rw [← shortLength]
  cases parsed with
  | short notMedium notLong rest =>
      rw [if_neg notMedium, if_neg notLong]
      exact parseRest_of_server rest
  | medium len header rest =>
      rw [if_pos len, if_neg (Nat.not_lt.mpr header)]
      exact parseRest_of_server rest
  | long len header _ rest =>
      rw [len, if_neg (by decide), if_pos rfl, if_neg (Nat.not_lt.mpr header)]
      exact parseRest_of_server rest
  | tooLong _ error _ => cases error

end Parser

/-! ### Masks -/

/-- The same mask takes itself off. -/
theorem unmask_unmask (maskKey payload : Bytes) :
    unmask maskKey (unmask maskKey payload) = payload := by
  apply List.ext_getElem?
  intro i
  rw [unmask, unmask, List.getElem?_mapIdx, List.getElem?_mapIdx]
  cases payload[i]? with
  | none => rfl
  | some b =>
      rw [Option.map_some, Option.map_some, UInt8.xor_assoc, UInt8.xor_self, UInt8.xor_zero]

/-- A length byte with the mask bit. -/
theorem masked_length_byte : ∀ n < 126,
    (0x80 ||| UInt8.ofNat n) &&& 0x80 ≠ 0 ∧ ((0x80 ||| UInt8.ofNat n) &&& 0x7F).toNat = n := by
  decide +kernel

/-- The server reads what was masked. -/
theorem parse_maskedFrame {opcode : UInt8} (first : FinalByte (0x80 ||| opcode) opcode)
    (mask : Mask) {payload : Bytes} (short : payload.length < 126) (suffix : Bytes) :
    WebSocketServer.tryParseFrame (encodeMaskedFrame opcode mask payload ++ suffix) =
      some (.frame ⟨true, opcode, true, payload⟩, (encodeMaskedFrame opcode mask payload).length) := by
  obtain ⟨maskKey, size⟩ := mask
  obtain ⟨masked, len⟩ := masked_length_byte payload.length short
  have total : (encodeMaskedFrame opcode ⟨maskKey, size⟩ payload ++ suffix).length =
      2 + 4 + payload.length + suffix.length := by
    simp only [encodeMaskedFrame, unmask, List.length_append, List.length_mapIdx, size]
    rfl
  have key : slice 2 4 (encodeMaskedFrame opcode ⟨maskKey, size⟩ payload ++ suffix) = maskKey := by
    rw [encodeMaskedFrame, List.append_assoc, List.append_assoc, slice]
    exact List.take_left' size
  have data : slice (2 + 4) payload.length
      (encodeMaskedFrame opcode ⟨maskKey, size⟩ payload ++ suffix) = unmask maskKey payload := by
    rw [encodeMaskedFrame, slice, List.append_assoc, List.drop_left' (by simp [size])]
    exact List.take_left' (by rw [unmask, List.length_mapIdx])
  have frameLength : (encodeMaskedFrame opcode ⟨maskKey, size⟩ payload).length =
      2 + 4 + payload.length := by
    rw [List.length_append] at total
    omega
  rw [WebSocketServer.tryParseFrame, if_neg (by omega), frameLength]
  have b0 : (encodeMaskedFrame opcode ⟨maskKey, size⟩ payload ++ suffix).getD 0 0 =
      0x80 ||| opcode := rfl
  have b1 : (encodeMaskedFrame opcode ⟨maskKey, size⟩ payload ++ suffix).getD 1 0 =
      0x80 ||| UInt8.ofNat payload.length := rfl
  rw [b0, b1]
  simp only [len, first.opcode, first.fin, masked, ne_eq, not_false_eq_true, decide_true]
  rw [if_neg (by omega), if_neg (by omega), WebSocketServer.parseRest, if_pos rfl,
    if_neg (by omega), if_neg (by omega), key, data, unmask_unmask]

end RoboticsIpc.WsTestClient
