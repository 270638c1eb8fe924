import RoboticsIpc.Gateway.WebSocketFrames
import RoboticsIpc.Lib.Template
import RoboticsIpc.Router.NodeGateway

/-!
What the gateway sends to its WebSocket clients for a frame: `JSON.stringify(frame.toView())`
(`examples/bridges/node_gateway/rim_router_frame.js`, `gateway.js`).

The text is one line of JSON with all fields of the frame. Its bytes determine the frame
(`frameText_injective`), and a WebSocket frame holds them (`length_frameText`).
-/

namespace RoboticsIpc.NodeGateway

open ByteBuffer Template WebSocketServer

/-! ### Strings -/

/-- ASCII text as a JavaScript string. -/
def fromAscii (text : Bytes) : JsString := text.map UInt8.toUInt16

def hexDigit (n : Nat) : UInt8 := (ascii "0123456789abcdef").getD n 0

/-- `buffer.toString('hex')`. -/
def hex (data : Bytes) : Bytes :=
  data.flatMap fun b => [hexDigit (b.toNat / 16), hexDigit (b.toNat % 16)]

/-- A UTF-8 decoder between two bytes: how many bytes of a character are missing, what the ones
before say of it, and which bytes may be the next. -/
structure Utf8Decoder where
  needed : Nat := 0
  point : Nat := 0
  lower : UInt8 := 0x80
  upper : UInt8 := 0xBF

def replacement : Char := '\uFFFD'

/-- A byte where a character begins. -/
def Utf8Decoder.start (b : UInt8) : List Char × Utf8Decoder :=
  let bits (mask : UInt8) := (b &&& mask).toNat
  if b < 0x80 then ([Char.ofNat b.toNat], {})
  else if 0xC2 ≤ b ∧ b ≤ 0xDF then ([], { needed := 1, point := bits 0x1F })
  else if b = 0xE0 then ([], { needed := 2, point := bits 0x0F, lower := 0xA0 })
  else if b = 0xED then ([], { needed := 2, point := bits 0x0F, upper := 0x9F })
  else if 0xE0 < b ∧ b ≤ 0xEF then ([], { needed := 2, point := bits 0x0F })
  else if b = 0xF0 then ([], { needed := 3, point := bits 0x07, lower := 0x90 })
  else if b = 0xF4 then ([], { needed := 3, point := bits 0x07, upper := 0x8F })
  else if 0xF0 < b ∧ b < 0xF4 then ([], { needed := 3, point := bits 0x07 })
  else ([replacement], {})

/-- The characters that the next byte completes, and the decoder after it. A byte that cannot
go on with a character begins another one. -/
def Utf8Decoder.next (d : Utf8Decoder) (b : UInt8) : List Char × Utf8Decoder :=
  if d.needed = 0 then start b
  else if d.lower ≤ b ∧ b ≤ d.upper then
    let point := d.point * 64 + (b &&& 0x3F).toNat
    if d.needed = 1 then ([Char.ofNat point], {})
    else ([], { needed := d.needed - 1, point })
  else
    let (chars, after) := start b
    (replacement :: chars, after)

def Utf8Decoder.decode (d : Utf8Decoder) : Bytes → List Char
  | [] => if d.needed = 0 then [] else [replacement]
  | b :: rest =>
      let (chars, after) := d.next b
      chars ++ after.decode rest

def codeUnits (c : Char) : JsString :=
  if c.toNat < 0x10000 then [UInt16.ofNat c.toNat]
  else [UInt16.ofNat (0xD800 + (c.toNat - 0x10000) / 0x400),
    UInt16.ofNat (0xDC00 + (c.toNat - 0x10000) % 0x400)]

/-- `buffer.toString('utf8')`. -/
def toUtf8String (data : Bytes) : JsString := (Utf8Decoder.decode {} data).flatMap codeUnits

/-! ### JSON -/

inductive JsonValue where
  | number (n : Int)
  | string (s : JsString)

def quote : UInt16 := 0x22
def backslash : UInt16 := 0x5C
def jsonComma : UInt16 := 0x2C
def jsonColon : UInt16 := 0x3A

/-- A backslash, `u` and four hexadecimal digits. -/
def unicodeEscape (u : UInt16) : JsString :=
  [backslash, 0x75] ++ fromAscii (hex [UInt8.ofNat (u.toNat / 256), UInt8.ofNat (u.toNat % 256)])

/-- A unit that is not half of a surrogate pair. -/
def quoteUnit (u : UInt16) : JsString :=
  if u = quote ∨ u = backslash then [backslash, u]
  else if u = 0x08 then [backslash, 0x62]
  else if u = 0x09 then [backslash, 0x74]
  else if u = 0x0A then [backslash, 0x6E]
  else if u = 0x0C then [backslash, 0x66]
  else if u = 0x0D then [backslash, 0x72]
  else if u < 0x20 ∨ 0xD800 ≤ u ∧ u < 0xE000 then unicodeEscape u
  else [u]

def quoteUnits : JsString → JsString
  | [] => []
  | [u] => quoteUnit u
  | u :: v :: rest =>
      if (0xD800 ≤ u ∧ u < 0xDC00) ∧ 0xDC00 ≤ v ∧ v < 0xE000 then u :: v :: quoteUnits rest
      else quoteUnit u ++ quoteUnits (v :: rest)

def quoteJson (s : JsString) : JsString := quote :: quoteUnits s ++ [quote]

def JsonValue.text : JsonValue → JsString
  | .number n => fromAscii (toStdString n)
  | .string s => quoteJson s

def member (m : String × JsonValue) : JsString := quoteJson (jsString m.1) ++ jsonColon :: m.2.text

/-- `JSON.stringify` of an object with these members. -/
def stringify (members : List (String × JsonValue)) : JsString :=
  0x7B :: [jsonComma].intercalate (members.map member) ++ [0x7D]

/-! ### The view of a frame -/

def peerNames : List (Int × String) :=
  [(1, "sensor"), (2, "controller"), (3, "recorder"), (4, "vision_capture"), (5, "ml_inference"),
    (6, "mavlink_gateway"), (7, "python_tooling"), (8, "dashboard_feed")]

def peerName (sourceId : Int) : Bytes :=
  match peerNames.lookup sourceId with
  | some name => ascii name
  | none => ascii "id=" ++ toStdString sourceId

/-- The integers of 64 bits are written as strings. -/
def toView (frame : RouterFrame) : List (String × JsonValue) :=
  let payload := payloadBytes frame
  [("source", .number (source frame)),
    ("source_name", .string (fromAscii (peerName (source frame)))),
    ("flags", .number (flags frame)),
    ("topic_id", .number (topicId frame)),
    ("seq", .number (seq frame)),
    ("timestamp_ns", .string (fromAscii (toStdString (timestampNs frame)))),
    ("sideband_idx", .number (sidebandIdx frame)),
    ("sideband_len", .number (sidebandLen frame)),
    ("sideband_seq", .string (fromAscii (toStdString (sidebandSeq frame)))),
    ("payload_hex", .string (fromAscii (hex payload))),
    ("payload_text", .string (toUtf8String payload))]

/-- What `gateway.js` broadcasts for a frame. -/
def frameText (frame : RouterFrame) : JsString := stringify (toView frame)

/-! ### Plain text -/

/-- A byte of a name or a number: it needs no escape, and no comma is one. -/
def WordByte (b : UInt8) : Prop := 0x2D ≤ b ∧ b ≤ 0x7A ∧ b ≠ 0x5C

instance (b : UInt8) : Decidable (WordByte b) := inferInstanceAs (Decidable (_ ∧ _))

/-- A text of such bytes. -/
def Word (text : Bytes) : Prop := ∀ b ∈ text, WordByte b

instance (text : Bytes) : Decidable (Word text) := inferInstanceAs (Decidable (∀ b ∈ text, _))

theorem Word.append {text more : Bytes} (first : Word text) (second : Word more) :
    Word (text ++ more) :=
  fun b mem => (List.mem_append.mp mem).elim (first b) (second b)

theorem Word.no_comma {text : Bytes} (word : Word text) : (0x2C : UInt8) ∉ text :=
  fun mem => absurd (word _ mem) (by decide)

theorem Word.no_quote {text : Bytes} (word : Word text) : (0x22 : UInt8) ∉ text :=
  fun mem => absurd (word _ mem) (by decide)

/-- Every byte is below 128. -/
def Ascii (text : Bytes) : Prop := ∀ b ∈ text, b < 0x80

theorem Word.ascii {text : Bytes} (word : Word text) : Ascii text := by
  intro b mem
  have below : b ≤ 0x7A := (word b mem).2.1
  exact UInt8.lt_of_le_of_lt below (by decide)

theorem forall_byte {p : UInt8 → Prop} (all : ∀ n < 256, p (UInt8.ofNat n)) (b : UInt8) : p b := by
  have here := all b.toNat b.toNat_lt
  rwa [UInt8.ofNat_toNat] at here

theorem quoteUnit_word : ∀ b, WordByte b → quoteUnit b.toUInt16 = [b.toUInt16] :=
  forall_byte (by decide +kernel)

/-- An ASCII unit is no surrogate. -/
theorem toUInt16_lt (b : UInt8) : b.toUInt16 < 0xD800 :=
  forall_byte (p := fun b => b.toUInt16 < 0xD800) (by decide +kernel) b

theorem quoteUnits_word {text : Bytes} (word : Word text) :
    quoteUnits (fromAscii text) = fromAscii text := by
  induction text with
  | nil => rfl
  | cons b text ih =>
      have here := quoteUnit_word b (word b List.mem_cons_self)
      have later := ih fun c mem => word c (List.mem_cons_of_mem b mem)
      cases text with
      | nil => exact here
      | cons c text =>
          have single : ¬ ((0xD800 ≤ b.toUInt16 ∧ b.toUInt16 < 0xDC00) ∧
              0xDC00 ≤ c.toUInt16 ∧ c.toUInt16 < 0xE000) :=
            fun pair => absurd pair.1.1 (UInt16.not_le.mpr (toUInt16_lt b))
          have rest : quoteUnits (c.toUInt16 :: fromAscii text) =
              c.toUInt16 :: fromAscii text := later
          change quoteUnits (b.toUInt16 :: c.toUInt16 :: fromAscii text) = _
          rw [quoteUnits, if_neg single, here, rest]
          rfl

theorem fromAscii_append (text more : Bytes) :
    fromAscii (text ++ more) = fromAscii text ++ fromAscii more := List.map_append

theorem quoteJson_word {text : Bytes} (word : Word text) :
    quoteJson (fromAscii text) = fromAscii (0x22 :: text ++ [0x22]) := by
  rw [quoteJson, quoteUnits_word word, fromAscii_append]
  rfl

theorem codePoints_cons {u : UInt16} (single : u < 0xD800) (rest : JsString) :
    codePoints (u :: rest) = codePoint u :: codePoints rest := by
  cases rest with
  | nil => rfl
  | cons v rest =>
      have alone : ¬ ((0xD800 ≤ u ∧ u < 0xDC00) ∧ 0xDC00 ≤ v ∧ v < 0xE000) :=
        fun pair => absurd pair.1.1 (UInt16.not_le.mpr single)
      rw [codePoints, if_neg alone]

theorem utf8EncodeChar_ascii : ∀ b : UInt8, b < 0x80 →
    String.utf8EncodeChar (codePoint b.toUInt16) = [b] :=
  forall_byte (by decide +kernel)

/-- ASCII text is its own encoding, whatever follows. -/
theorem utf8_fromAscii {text : Bytes} (ascii : Ascii text) (rest : JsString) :
    utf8 (fromAscii text ++ rest) = text ++ utf8 rest := by
  induction text with
  | nil => rfl
  | cons b text ih =>
      have later := ih fun c mem => ascii c (List.mem_cons_of_mem b mem)
      have here := utf8EncodeChar_ascii b (ascii b List.mem_cons_self)
      have split : codePoints (b.toUInt16 :: (fromAscii text ++ rest)) = _ :=
        codePoints_cons (toUInt16_lt b) _
      rw [utf8] at later
      rw [fromAscii, List.map_cons, List.cons_append, utf8, ← fromAscii, split, List.flatMap_cons,
        here, later]
      rfl

/-! ### Numbers and bytes -/

theorem toStdString_natCast (n : Nat) :
    toStdString n = (Nat.toDigits 10 n).map fun c => UInt8.ofNat c.toNat := by
  have text : toString (n : Int) = n.repr := rfl
  rw [toStdString, text, ascii, Nat.toList_repr]

theorem toNat_digit {c : Char} (digit : c.isDigit) : 0x30 ≤ c.toNat ∧ c.toNat ≤ 0x39 := by
  simp only [Char.isDigit, Bool.and_eq_true, decide_eq_true_eq] at digit
  exact ⟨digit.1, digit.2⟩

theorem word_toStdString (n : Nat) : Word (toStdString n) := by
  intro b mem
  rw [toStdString_natCast] at mem
  obtain ⟨c, digit, rfl⟩ := List.mem_map.mp mem
  obtain ⟨low, high⟩ := toNat_digit (Nat.isDigit_of_mem_toDigits (by decide) (by decide) digit)
  have all : ∀ n < 0x3A, 0x30 ≤ n → WordByte (UInt8.ofNat n) := by decide +kernel
  exact all c.toNat (by omega) low

/-- The number is read back. -/
theorem toStdString_injective {m n : Nat} (same : toStdString m = toStdString n) : m = n := by
  have back (k : Nat) :
      (toStdString k).map (fun b => Char.ofNat b.toNat) = Nat.toDigits 10 k := by
    rw [toStdString_natCast, List.map_map]
    refine (List.map_congr_left fun c digit => ?_).trans (List.map_id _)
    obtain ⟨-, high⟩ := toNat_digit (Nat.isDigit_of_mem_toDigits (by decide) (by decide) digit)
    have byte : (UInt8.ofNat c.toNat).toNat = c.toNat := 
      UInt8.toNat_ofNat_of_lt' (Nat.lt_of_le_of_lt high (by decide))
    rw [Function.comp_apply, byte, Char.ofNat_toNat, id]
  have digits := back m
  rw [same, back n] at digits
  rw [← Nat.ofDigitChars_ten_toDigits (n := m), ← digits, Nat.ofDigitChars_ten_toDigits]

theorem length_toStdString {n : Nat} (small : n < 2 ^ 64) : (toStdString n).length ≤ 20 := by
  rw [toStdString_natCast, List.length_map]
  exact (Nat.length_toDigits_le_iff (by decide) (by decide)).mpr (by omega)

theorem word_hex (data : Bytes) : Word (hex data) := by
  have digit : ∀ n < 16, WordByte (hexDigit n) := by decide +kernel
  intro b mem
  obtain ⟨c, -, here⟩ := List.mem_flatMap.mp mem
  have below := c.toNat_lt
  rcases List.mem_pair.mp here with rfl | rfl
  · exact digit _ (by omega)
  · exact digit _ (by omega)

theorem hexDigit_injective {m n : Nat} (below : m < 16) (below' : n < 16)
    (same : hexDigit m = hexDigit n) : m = n := by
  have all : ∀ m < 16, ∀ n < 16, hexDigit m = hexDigit n → m = n := by decide +kernel
  exact all m below n below' same

/-- Two digits a byte: the bytes are read back. -/
theorem hex_injective {data data' : Bytes} (same : hex data = hex data') : data = data' := by
  induction data generalizing data' with
  | nil =>
      cases data' with
      | nil => rfl
      | cons c data' => cases same
  | cons b data ih =>
      cases data' with
      | nil => cases same
      | cons c data' =>
          simp only [hex, List.flatMap_cons, List.cons_append, List.nil_append] at same
          obtain ⟨high, same⟩ := List.cons.inj same
          obtain ⟨low, same⟩ := List.cons.inj same
          have smallB := b.toNat_lt
          have smallC := c.toNat_lt
          have quotients := hexDigit_injective (by omega) (by omega) high
          have remainders := hexDigit_injective (by omega) (by omega) low
          rw [ih same, UInt8.toNat_inj.mp (show b.toNat = c.toNat by omega)]

theorem length_hex (data : Bytes) : (hex data).length = 2 * data.length := by
  induction data with
  | nil => rfl
  | cons b data ih =>
      rw [hex, List.flatMap_cons, List.length_append, ← hex, ih]
      simp only [List.length_cons, List.length_nil]
      omega

theorem word_peerName (id : Nat) : Word (peerName id) := by
  unfold peerName
  split
  · rename_i name found
    have names : ∀ entry ∈ peerNames, Word (ascii entry.2) := by decide +kernel
    obtain ⟨before, after, split, -⟩ := List.lookup_eq_some_iff.mp found
    exact names (id, name) (split ▸ List.mem_append_right before List.mem_cons_self)
  · exact Word.append (by decide +kernel) (word_toStdString id)

/-! ### The text of a frame -/

/-- A key that needs no escape. -/
structure PlainKey (key : String) : Prop where
  ascii : jsString key = fromAscii (ascii key)
  word : Word (ByteBuffer.ascii key)

/-- A key as it stands in the text. -/
def keyText (key : String) : Bytes := 0x22 :: ascii key ++ [0x22, 0x3A]

theorem member_number {key : String} (plain : PlainKey key) (n : Int) :
    member (key, .number n) = fromAscii (keyText key ++ toStdString n) := by
  have quoted := quoteJson_word plain.word
  rw [← plain.ascii] at quoted
  rw [member, quoted, JsonValue.text, fromAscii_append, keyText]
  simp only [fromAscii, List.map_append, List.cons_append, List.append_assoc, List.map_cons]
  rfl

theorem member_string {key : String} (plain : PlainKey key) {text : Bytes} (word : Word text) :
    member (key, .string (fromAscii text)) =
      fromAscii (keyText key ++ (0x22 :: text ++ [0x22])) := by
  have quoted := quoteJson_word plain.word
  rw [← plain.ascii] at quoted
  rw [member, quoted, JsonValue.text, quoteJson_word word, fromAscii_append, keyText]
  simp only [fromAscii, List.map_append, List.cons_append, List.append_assoc, List.map_cons]
  rfl

/-- A number up to the comma after it. `before` is what comes between the hole before and the
key. -/
def numberHole (before : Bytes) (key : String) (n : Nat) : Hole UInt8 where
  label := before ++ keyText key
  value := toStdString n
  stop := 0x2C
  fresh := (word_toStdString n).no_comma

/-- A string up to its second quote. -/
def stringHole (before : Bytes) (key : String) (text : Bytes) (word : Word text) : Hole UInt8 where
  label := before ++ keyText key ++ [0x22]
  value := text
  stop := 0x22
  fresh := word.no_quote

/-- The holes of a frame's text. -/
def holes (v : FrameFields) : List (Hole UInt8) :=
  [numberHole [0x7B] "source" v.source.toNat,
    stringHole [] "source_name" (peerName v.source.toNat) (word_peerName _),
    numberHole [0x2C] "flags" v.flags.toNat,
    numberHole [] "topic_id" v.topicId.toNat,
    numberHole [] "seq" v.seq.toNat,
    stringHole [] "timestamp_ns" (toStdString v.timestampNs.toNat) (word_toStdString _),
    numberHole [0x2C] "sideband_idx" v.sidebandIdx.toNat,
    numberHole [] "sideband_len" v.sidebandLen.toNat,
    stringHole [] "sideband_seq" (toStdString v.sidebandSeq.toNat) (word_toStdString _),
    stringHole [0x2C] "payload_hex" (hex v.payload) (word_hex _)]

/-- What comes after them: the payload once more, as text. -/
def textMember (v : FrameFields) : JsString :=
  jsonComma :: member ("payload_text", .string (toUtf8String v.payload)) ++ [0x7D]

theorem toView_eq (frame : RouterFrame) : toView frame =
    [("source", .number frame.fields.source.toNat),
      ("source_name", .string (fromAscii (peerName frame.fields.source.toNat))),
      ("flags", .number frame.fields.flags.toNat),
      ("topic_id", .number frame.fields.topicId.toNat),
      ("seq", .number frame.fields.seq.toNat),
      ("timestamp_ns", .string (fromAscii (toStdString frame.fields.timestampNs.toNat))),
      ("sideband_idx", .number frame.fields.sidebandIdx.toNat),
      ("sideband_len", .number frame.fields.sidebandLen.toNat),
      ("sideband_seq", .string (fromAscii (toStdString frame.fields.sidebandSeq.toNat))),
      ("payload_hex", .string (fromAscii (hex frame.fields.payload))),
      ("payload_text", .string (toUtf8String frame.fields.payload))] := by
  have same := getters_eq frame
  simp only [getters, FrameFields.view, FrameView.mk.injEq] at same
  obtain ⟨source, flags, topicId, seq, timestampNs, sidebandIdx, sidebandLen, sidebandSeq,
    payload⟩ := same
  rw [toView, source, flags, topicId, seq, timestampNs, sidebandIdx, sidebandLen, sidebandSeq,
    payload]

/-- The keys before `payload_text`. -/
def plainKeys : List String :=
  ["source", "source_name", "flags", "topic_id", "seq", "timestamp_ns", "sideband_idx",
    "sideband_len", "sideband_seq", "payload_hex"]

theorem plainKey {key : String} (mem : key ∈ plainKeys) : PlainKey key := by
  have all : ∀ k ∈ plainKeys, jsString k = fromAscii (ascii k) ∧ Word (ascii k) := by
    decide +kernel
  exact ⟨(all key mem).1, (all key mem).2⟩

/-- The text is ASCII up to the last member. -/
theorem frameText_eq (frame : RouterFrame) :
    frameText frame = fromAscii (render (holes frame.fields)) ++ textMember frame.fields := by
  have number (key : String) (mem : key ∈ plainKeys) (n : Int) := member_number (plainKey mem) n
  have string (key : String) (mem : key ∈ plainKeys) {text : Bytes} (word : Word text) :=
    member_string (plainKey mem) word
  rw [frameText, toView_eq, stringify]
  simp only [List.map_cons, List.map_nil]
  rw [number "source" (by decide), string "source_name" (by decide) (word_peerName _),
    number "flags" (by decide), number "topic_id" (by decide), number "seq" (by decide),
    string "timestamp_ns" (by decide) (word_toStdString _), number "sideband_idx" (by decide),
    number "sideband_len" (by decide), string "sideband_seq" (by decide) (word_toStdString _),
    string "payload_hex" (by decide) (word_hex _)]
  simp only [List.intercalate, List.intersperse, List.flatten_cons, List.flatten_nil, holes, render,
    textMember, List.flatMap_cons, List.flatMap_nil, Hole.text, numberHole, stringHole, fromAscii,
    List.map_append, List.map_cons, List.map_nil, List.append_assoc, List.cons_append,
    List.nil_append, List.append_nil]
  rfl

/-- The labels are the same for all frames. -/
theorem frame_holes (v v' : FrameFields) :
    (holes v).map Hole.frame = (holes v').map Hole.frame := rfl

theorem ascii_holes (v : FrameFields) : Ascii (render (holes v)) := by
  have labels : ∀ h ∈ holes v, Ascii h.label ∧ h.stop < 0x80 := by
    have all : ∀ shape ∈ (holes v).map Hole.frame, Ascii shape.1 ∧ shape.2 < 0x80 := by
      have fixed : ∀ shape ∈ (holes RouterFrame.zero.fields).map Hole.frame,
          (∀ b ∈ shape.1, b < 0x80) ∧ shape.2 < 0x80 := by decide +kernel
      rw [frame_holes v RouterFrame.zero.fields]
      exact fixed
    exact fun h mem => all h.frame (List.mem_map_of_mem mem)
  have values : ∀ h ∈ holes v, Word h.value := by
    simp only [holes, List.forall_mem_cons, numberHole, stringHole]
    exact ⟨word_toStdString _, word_peerName _, word_toStdString _, word_toStdString _,
      word_toStdString _, word_toStdString _, word_toStdString _, word_toStdString _,
      word_toStdString _, word_hex _, fun h mem => absurd mem List.not_mem_nil⟩
  intro b mem
  obtain ⟨h, inside, here⟩ := List.mem_flatMap.mp mem
  rcases List.mem_append.mp here with label | value
  · exact (labels h inside).1 b label
  · rcases List.mem_append.mp value with value | stop
    · exact (values h inside).ascii b value
    · exact List.mem_singleton.mp stop ▸ (labels h inside).2

/-- The bytes of the text that a WebSocket client is sent. -/
theorem utf8_frameText (frame : RouterFrame) : utf8 (frameText frame) =
    render (holes frame.fields) ++ utf8 (textMember frame.fields) := by
  rw [frameText_eq, utf8_fromAscii (ascii_holes _)]

/-- The values in the holes are those of the fields. -/
theorem fields_eq {v v' : FrameFields}
    (same : (holes v).map Hole.value = (holes v').map Hole.value) : v = v' := by
  simp only [holes, List.map_cons, List.map_nil, numberHole, stringHole, List.cons.injEq] at same
  obtain ⟨source, -, flags, topicId, seq, timestampNs, sidebandIdx, sidebandLen, sidebandSeq,
    payload, -⟩ := same
  ext1
  · exact UInt8.toNat_inj.mp (toStdString_injective source)
  · exact UInt8.toNat_inj.mp (toStdString_injective flags)
  · exact UInt16.toNat_inj.mp (toStdString_injective topicId)
  · exact UInt32.toNat_inj.mp (toStdString_injective seq)
  · exact UInt64.toNat_inj.mp (toStdString_injective timestampNs)
  · exact UInt16.toNat_inj.mp (toStdString_injective sidebandIdx)
  · exact UInt64.toNat_inj.mp (toStdString_injective sidebandLen)
  · exact UInt64.toNat_inj.mp (toStdString_injective sidebandSeq)
  · exact hex_injective payload

theorem fields_of_text {frame frame' : RouterFrame}
    (same : utf8 (frameText frame) = utf8 (frameText frame')) : frame.fields = frame'.fields := by
  rw [utf8_frameText, utf8_frameText] at same
  exact fields_eq (values_eq (frame_holes _ _) same)

/-- Nothing is lost on the way to the dashboard: the bytes of a frame's text determine all 64
bytes of the frame, whatever its payload is. -/
theorem frameText_injective : Function.Injective fun frame => utf8 (frameText frame) := by
  intro frame frame' same
  have fields : frame.fields = frame'.fields := fields_of_text same
  rw [← frame.frame_fields, ← frame'.frame_fields, fields]

/-! ### Its length -/

theorem length_utf8_le (text : JsString) : (utf8 text).length ≤ 4 * text.length := by
  have chars : (codePoints text).length ≤ text.length := by
    fun_induction codePoints text with
    | case1 => exact Nat.le_refl _
    | case2 u => exact Nat.le_refl _
    | case3 u v rest pair ih =>
        simp only [List.length_cons]
        omega
    | case4 u v rest single ih =>
        simp only [List.length_cons] at ih ⊢
        omega
  have bytes : (utf8 text).length ≤ 4 * (codePoints text).length := by
    rw [utf8]
    induction codePoints text with
    | nil => exact Nat.le_refl _
    | cons c cs ih =>
        have size : (String.utf8EncodeChar c).length ≤ 4 := by
          rw [String.length_utf8EncodeChar]
          exact Char.utf8Size_le_four c
        rw [List.flatMap_cons, List.length_append, List.length_cons]
        omega
  omega

theorem length_quoteUnits_le (s : JsString) : (quoteUnits s).length ≤ 6 * s.length := by
  have unit (u : UInt16) : (quoteUnit u).length ≤ 6 := by
    unfold quoteUnit unicodeEscape
    repeat' split
    all_goals simp [fromAscii, hex]
  fun_induction quoteUnits s with
  | case1 => exact Nat.le_refl _
  | case2 u => exact unit u
  | case3 u v rest pair ih =>
      simp only [List.length_cons]
      omega
  | case4 u v rest single ih =>
      have here := unit u
      simp only [List.length_cons, List.length_append] at ih ⊢
      omega

theorem length_toUtf8String_le (data : Bytes) :
    (toUtf8String data).length ≤ 4 * data.length + 2 := by
  have start (b : UInt8) : (Utf8Decoder.start b).1.length ≤ 1 := by
    unfold Utf8Decoder.start
    repeat' split
    all_goals simp
  have next (d : Utf8Decoder) (b : UInt8) : (d.next b).1.length ≤ 2 := by
    rw [Utf8Decoder.next]
    split
    · exact Nat.le_succ_of_le (start b)
    · split
      · dsimp only
        split <;> simp
      · exact Nat.succ_le_succ (start b)
  have chars (d : Utf8Decoder) : (d.decode data).length ≤ 2 * data.length + 1 := by
    induction data generalizing d with
    | nil =>
        rw [Utf8Decoder.decode]
        split <;> simp
    | cons b rest ih =>
        have here := next d b
        have later := ih (d.next b).2
        rw [Utf8Decoder.decode, List.length_append, List.length_cons]
        omega
  have units (c : Char) : (codeUnits c).length ≤ 2 := by
    unfold codeUnits
    split <;> simp
  have all (cs : List Char) : (cs.flatMap codeUnits).length ≤ 2 * cs.length := by
    induction cs with
    | nil => exact Nat.le_refl _
    | cons c cs ih =>
        have here := units c
        rw [List.flatMap_cons, List.length_append, List.length_cons]
        omega
  have total := all (Utf8Decoder.decode {} data)
  have decoded := chars {}
  rw [toUtf8String]
  omega

theorem length_peerName_le (id : UInt8) : (peerName id.toNat).length ≤ 64 := by
  unfold peerName
  split
  · rename_i name found
    have names : ∀ entry ∈ peerNames, (ascii entry.2).length ≤ 64 := by decide +kernel
    obtain ⟨before, after, split, -⟩ := List.lookup_eq_some_iff.mp found
    exact names (id.toNat, name) (split ▸ List.mem_append_right before List.mem_cons_self)
  · have small := id.toNat_lt
    have digits := length_toStdString (n := id.toNat) (by omega)
    have lead : (ascii "id=").length = 3 := by decide +kernel
    rw [List.length_append, lead]
    omega

theorem length_holes_le (v : FrameFields) : (render (holes v)).length ≤ 1000 := by
  have labels : ∀ h ∈ holes v, h.label.length ≤ 20 := by
    have fixed : ∀ shape ∈ (holes RouterFrame.zero.fields).map Hole.frame, shape.1.length ≤ 20 := by
      decide +kernel
    rw [← frame_holes v] at fixed
    exact fun h mem => fixed h.frame (List.mem_map_of_mem mem)
  have number {n : Nat} (small : n < 2 ^ 64) : (toStdString n).length ≤ 64 :=
    Nat.le_trans (length_toStdString small) (by decide)
  have values : ∀ h ∈ holes v, h.value.length ≤ 64 := by
    have payload := v.payloadFits
    have bytes : (hex v.payload).length ≤ 64 := by
      rw [length_hex]
      exact Nat.mul_le_mul_left 2 payload
    have fits16 (x : UInt16) : x.toNat < 2 ^ 64 := Nat.lt_of_lt_of_le x.toNat_lt (by decide)
    have fits8 (x : UInt8) : x.toNat < 2 ^ 64 := Nat.lt_of_lt_of_le x.toNat_lt (by decide)
    have fits32 (x : UInt32) : x.toNat < 2 ^ 64 := Nat.lt_of_lt_of_le x.toNat_lt (by decide)
    simp only [holes, List.forall_mem_cons, numberHole, stringHole]
    exact ⟨number (fits8 _), length_peerName_le _, number (fits8 _), number (fits16 _),
      number (fits32 _), number v.timestampNs.toNat_lt, number (fits16 _),
      number v.sidebandLen.toNat_lt, number v.sidebandSeq.toNat_lt, bytes,
      fun h mem => absurd mem List.not_mem_nil⟩
  have pieces : ∀ h ∈ holes v, h.text.length ≤ 100 := by
    intro h inside
    have label := labels h inside
    have value := values h inside
    simp only [Hole.text, List.length_append, List.length_singleton]
    omega
  exact length_render_le pieces

/-- A frame's text fits many times over into a WebSocket frame. -/
theorem length_frameText (frame : RouterFrame) : (utf8 (frameText frame)).length < 2 ^ 53 := by
  have head := length_holes_le frame.fields
  have payload : frame.fields.payload.length ≤ 32 := frame.fields.payloadFits
  have text := length_toUtf8String_le frame.fields.payload
  have quoted := length_quoteUnits_le (toUtf8String frame.fields.payload)
  have key : (quoteJson (jsString "payload_text")).length ≤ 100 := by decide +kernel
  have tail : (textMember frame.fields).length ≤ 1000 := by
    simp only [textMember, member, JsonValue.text, quoteJson, List.length_cons, List.length_append,
      List.length_nil] at key ⊢
    omega
  have encoded := length_utf8_le (textMember frame.fields)
  rw [utf8_frameText, List.length_append]
  omega

end RoboticsIpc.NodeGateway
