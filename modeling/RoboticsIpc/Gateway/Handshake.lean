import Mathlib.Data.List.TakeWhile
import RoboticsIpc.Gateway.WebSocketFrames
import RoboticsIpc.Lib.Separator

/-!
The opening handshake of the gateway's WebSocket server, and what its smoke-test client makes of
the answer (`examples/bridges/node_gateway/websocket_server.js`, `ws_test_client.js`).

SHA-1 is a parameter. A header is ASCII: the client's two patterns are run on its bytes.
The answer to an upgrade ends where its blank line does (`indexOf_response`), not before
(`indexOf_short_response`), and the client finds its status and its key (`checkResponse_response`).
-/

namespace RoboticsIpc.WebSocketServer

open ByteBuffer Separator

/-! ### The key -/

def base64Alphabet : Bytes :=
  ascii "ABCDEFGHIJKLMNOPQRSTUVWXYZabcdefghijklmnopqrstuvwxyz0123456789+/"

def base64Char (n : Nat) : UInt8 := base64Alphabet.getD (n % 64) 0

/-- `toString('base64')`. -/
def base64 : Bytes → Bytes
  | [] => []
  | [a] => [base64Char (a.toNat / 4), base64Char (a.toNat % 4 * 16), 0x3D, 0x3D]
  | [a, b] =>
      [base64Char (a.toNat / 4), base64Char (a.toNat % 4 * 16 + b.toNat / 16),
        base64Char (b.toNat % 16 * 4), 0x3D]
  | a :: b :: c :: rest =>
      [base64Char (a.toNat / 4), base64Char (a.toNat % 4 * 16 + b.toNat / 16),
        base64Char (b.toNat % 16 * 4 + c.toNat / 64), base64Char c.toNat] ++ base64 rest

def wsMagic : JsString := jsString "258EAFA5-E914-47DA-95CA-C5AB0DC85B11"

section Upgrade

variable (sha1 : Bytes → Bytes)

def computeAcceptKey (secWebSocketKey : JsString) : Bytes :=
  base64 (sha1 (utf8 (secWebSocketKey ++ wsMagic)))

/-! ### The server's answer -/

/-- The headers that `_handleUpgrade` looks at. -/
structure UpgradeHeaders where
  upgrade : Option JsString
  secWebSocketKey : Option JsString
  secWebSocketVersion : Option JsString

/-- `toLowerCase` of a header; none of its other Latin-1 letters becomes an ASCII one. -/
def toLowerCase (text : JsString) : JsString :=
  text.map fun u => if 0x41 ≤ u ∧ u ≤ 0x5A then u + 0x20 else u

inductive Upgrade where
  /-- Answered with 400; the socket is destroyed. -/
  | refused (response : Bytes)
  /-- Answered with 101; the socket is a client's. -/
  | switched (response : Bytes)
deriving DecidableEq

def crlf : Bytes := [0x0D, 0x0A]

def crlfcrlf : Bytes := [0x0D, 0x0A, 0x0D, 0x0A]

/-- The lines in front of the key. -/
def responseHead : Bytes :=
  ascii "HTTP/1.1 101 Switching Protocols" ++ crlf ++ (ascii "Upgrade: websocket" ++ crlf ++
    (ascii "Connection: Upgrade" ++ crlf ++ ascii "Sec-WebSocket-Accept: "))

def response (accept : Bytes) : Bytes := responseHead ++ accept ++ crlfcrlf

/-- `_handleUpgrade`, up to the client it makes. -/
def handleUpgrade (headers : UpgradeHeaders) : Upgrade :=
  match headers.secWebSocketKey with
  | none => .refused (ascii "HTTP/1.1 400 Bad Request\r\n\r\n")
  | some key =>
      if toLowerCase (headers.upgrade.getD []) ≠ jsString "websocket" ∨ key = [] ∨
          headers.secWebSocketVersion ≠ some (jsString "13") then
        .refused (ascii "HTTP/1.1 400 Bad Request\r\n\r\n")
      else .switched (response (computeAcceptKey sha1 key))

end Upgrade

/-! ### The client's check -/

/-- `\s`. -/
def isSpace (b : UInt8) : Bool := (0x09 ≤ b && b ≤ 0x0D) || b == 0x20

/-- `\w`. -/
def isWord (b : UInt8) : Bool :=
  (0x30 ≤ b && b ≤ 0x39) || (0x41 ≤ b && b ≤ 0x5A) || b == 0x5F || (0x61 ≤ b && b ≤ 0x7A)

/-- The part before the first line break. -/
def statusLine (header : Bytes) : Bytes :=
  match indexOf crlf header with
  | some n => header.take n
  | none => header

/-- `/^HTTP\/1\.1 101\b/`. -/
def switchesProtocols (line : Bytes) : Bool :=
  (ascii "HTTP/1.1 101").isPrefixOf line &&
    !isWord (line.getD (ascii "HTTP/1.1 101").length 0x20)

def lower (b : UInt8) : UInt8 := if 0x41 ≤ b ∧ b ≤ 0x5A then b + 0x20 else b

/-- `Sec-WebSocket-Accept:\s*(\S+)` at the front, in any case of its letters. -/
def acceptAt (text : Bytes) : Option Bytes :=
  let name := ascii "sec-websocket-accept:"
  if (text.take name.length).map lower = name then
    let value := ((text.drop name.length).dropWhile isSpace).takeWhile fun b => !isSpace b
    if value = [] then none else some value
  else none

/-- `/^Sec-WebSocket-Accept:\s*(\S+)/im`: the first line with a match. -/
def acceptMatch : Bool → Bytes → Option Bytes
  | _, [] => none
  | lineStarts, b :: rest =>
      match (if lineStarts then acceptAt (b :: rest) else none) with
      | some accept => some accept
      | none => acceptMatch (b == 0x0A || b == 0x0D) rest

/-- What the client exits with if it does not like the header; `none` if it does. -/
def checkResponse (expectedAccept header : Bytes) : Option Nat :=
  if switchesProtocols (statusLine header) = false then some 3
  else if acceptMatch true header = some expectedAccept then none
  else some 4

/-! ### The key in the answer -/

theorem isSpace_base64Char (n : Nat) : isSpace (base64Char n) = false := by
  have all : ∀ i < 64, isSpace (base64Alphabet.getD i 0) = false := by decide +kernel
  exact all (n % 64) (Nat.mod_lt _ (by decide))

theorem isSpace_base64 (bs : Bytes) : ∀ c ∈ base64 bs, isSpace c = false := by
  have pad : isSpace 0x3D = false := by decide
  induction bs using base64.induct with
  | case1 => exact fun c mem => absurd mem List.not_mem_nil
  | case2 a => simp [base64, isSpace_base64Char, pad]
  | case3 a b => simp [base64, isSpace_base64Char, pad]
  | case4 a b c rest ih =>
      rw [base64, List.forall_mem_append]
      exact ⟨by simp [isSpace_base64Char], ih⟩

theorem base64_ne_nil {bs : Bytes} (some : bs ≠ []) : base64 bs ≠ [] := by
  match bs with
  | [] => exact absurd rfl some
  | [a] => simp [base64]
  | [a, b] => simp [base64]
  | a :: b :: c :: rest => simp [base64]

variable {accept : Bytes}

/-- The answer ends with its blank line. -/
theorem indexOf_response (graphic : ∀ c ∈ accept, isSpace c = false) (more : Bytes) :
    indexOf crlfcrlf (response accept ++ more) = some (responseHead ++ accept).length := by
  have front : Clear crlfcrlf responseHead := by decide +kernel
  have key : Clear crlfcrlf accept := by
    apply clear_of_not_mem
    intro mem
    exact absurd (graphic _ mem) (by decide)
  rw [response, List.append_assoc, List.append_assoc, indexOf_clear front, indexOf_clear key,
    indexOf_here, Option.map_some, Option.map_some, Nat.zero_add, List.length_append, Nat.add_comm]

/-- Less than the whole answer does not have it. -/
theorem indexOf_short_response (graphic : ∀ c ∈ accept, isSpace c = false) {arrived : Bytes}
    (part : arrived <+: response accept) (missing : arrived ≠ response accept) :
    indexOf crlfcrlf arrived = none := by
  obtain ⟨rest, whole⟩ := part
  cases found : indexOf crlfcrlf arrived with
  | none => rfl
  | some n =>
      obtain ⟨inside, again⟩ := indexOf_append found rest
      have last := indexOf_response graphic []
      rw [List.append_nil, ← whole, again] at last
      obtain rfl := Option.some.inj last
      have all : (arrived ++ rest).length ≤ arrived.length := by
        rw [whole, response, List.length_append]
        exact inside
      rw [List.length_append] at all
      have nothing : rest = [] := List.eq_nil_of_length_eq_zero (by omega)
      rw [nothing, List.append_nil] at whole
      exact absurd whole missing

theorem acceptAt_line (graphic : ∀ c ∈ accept, isSpace c = false) (some : accept ≠ []) :
    acceptAt (ascii "Sec-WebSocket-Accept: " ++ accept) = .some accept := by
  have name : ((ascii "Sec-WebSocket-Accept: " ++ accept).take
      (ascii "sec-websocket-accept:").length).map lower = ascii "sec-websocket-accept:" := by
    rfl
  have value : (ascii "Sec-WebSocket-Accept: " ++ accept).drop
      (ascii "sec-websocket-accept:").length = 0x20 :: accept := by
    rfl
  have blank : isSpace 0x20 = true := by decide
  have skipped : (0x20 :: accept).dropWhile isSpace = accept := by
    rw [List.dropWhile_cons_of_pos blank]
    obtain ⟨c, rest, rfl⟩ := List.exists_cons_of_ne_nil some
    rw [List.dropWhile_cons_of_neg]
    rw [graphic c List.mem_cons_self]
    exact Bool.false_ne_true
  have taken : (accept.takeWhile fun b => !isSpace b) = accept := by
    rw [List.takeWhile_eq_self_iff]
    intro c mem
    rw [graphic c mem]
    rfl
  rw [acceptAt]
  dsimp only
  rw [if_pos name, value, skipped, taken, if_neg some]

/-- A line that starts with another letter. -/
theorem acceptAt_other {c : UInt8} (other : lower c ≠ 0x73) (rest : Bytes) :
    acceptAt (c :: rest) = none := by
  rw [acceptAt]
  dsimp only
  rw [if_neg]
  intro same
  exact other (List.cons.inj same).1

/-- The rest of a line has no match. -/
theorem acceptMatch_rest {line : Bytes} (goesOn : ∀ b ∈ line, b ≠ 0x0A ∧ b ≠ 0x0D) (rest : Bytes) :
    acceptMatch false (line ++ crlf ++ rest) = acceptMatch true rest := by
  have breaks : acceptAt (0x0A :: rest) = none := acceptAt_other (by decide) rest
  induction line with
  | nil =>
      rw [List.nil_append, crlf, List.cons_append, acceptMatch, if_neg Bool.false_ne_true]
      dsimp only
      rw [List.cons_append, List.nil_append, acceptMatch, if_pos (by decide), breaks]
      rfl
  | cons b line ih =>
      obtain ⟨notLf, notCr⟩ := goesOn b List.mem_cons_self
      rw [List.cons_append, List.cons_append, acceptMatch, if_neg Bool.false_ne_true]
      dsimp only
      rw [beq_eq_false_iff_ne.mpr notLf, beq_eq_false_iff_ne.mpr notCr, Bool.or_false]
      exact ih fun c mem => goesOn c (List.mem_cons_of_mem b mem)

/-- A line without a match. -/
theorem acceptMatch_line {line : Bytes} (other : ∃ c ∈ line.head?, lower c ≠ 0x73)
    (goesOn : ∀ b ∈ line, b ≠ 0x0A ∧ b ≠ 0x0D) (rest : Bytes) :
    acceptMatch true (line ++ crlf ++ rest) = acceptMatch true rest := by
  obtain ⟨c, first, other⟩ := other
  obtain ⟨more, rfl⟩ := List.head?_eq_some_iff.mp first
  obtain ⟨notLf, notCr⟩ := goesOn c List.mem_cons_self
  rw [List.cons_append, List.cons_append, acceptMatch, if_pos rfl, acceptAt_other other]
  dsimp only
  rw [beq_eq_false_iff_ne.mpr notLf, beq_eq_false_iff_ne.mpr notCr, Bool.or_false]
  exact acceptMatch_rest (fun b mem => goesOn b (List.mem_cons_of_mem c mem)) rest

/-- The client accepts the answer to its own key. -/
theorem checkResponse_response (graphic : ∀ c ∈ accept, isSpace c = false) (some : accept ≠ []) :
    checkResponse accept (responseHead ++ accept) = none := by
  have status : switchesProtocols (statusLine (responseHead ++ accept)) = true := by
    rfl
  have lines : acceptMatch true (responseHead ++ accept) =
      acceptMatch true (ascii "Sec-WebSocket-Accept: " ++ accept) := by
    rw [responseHead, List.append_assoc, List.append_assoc (_ ++ crlf),
      List.append_assoc (_ ++ crlf), acceptMatch_line, acceptMatch_line, acceptMatch_line]
    all_goals decide +kernel
  have found : acceptMatch true (ascii "Sec-WebSocket-Accept: " ++ accept) = .some accept := by
    have key := acceptAt_line graphic some
    obtain ⟨c, rest, split⟩ : ∃ c rest, ascii "Sec-WebSocket-Accept: " ++ accept = c :: rest :=
      ⟨_, _, rfl⟩
    rw [split] at key ⊢
    rw [acceptMatch, if_pos rfl, key]
  rw [checkResponse, status, if_neg Bool.noConfusion, lines, found, if_pos rfl]

end RoboticsIpc.WebSocketServer
