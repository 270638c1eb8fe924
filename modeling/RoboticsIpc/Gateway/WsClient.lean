import RoboticsIpc.Gateway.WebSocketFrames

/-!
`WsClient`: one connection of the gateway's WebSocket server.

A client is a reader of the stream that its socket delivers; what `socket.write` does is
the environment's. Whatever it does, the outcome is the same however the stream is cut
(`chunking_independent`): the parser is incremental, and an error closes the connection.
-/

namespace RoboticsIpc.WebSocketServer

open ByteBuffer StreamReader

/-! ### The connection -/

/-- A client and its socket, less the bytes not parsed yet. -/
structure Connection where
  closed : Bool := false
  /-- In the server's set of clients. -/
  registered : Bool := true
  /-- `socket.destroyed`. -/
  destroyed : Bool := false
  /-- `socket.end()` was called. -/
  ended : Bool := false
  /-- What was passed to `socket.write`. -/
  written : List Outgoing := []
deriving DecidableEq

/-- What the n-th call of `socket.write` returns; `none` if it throws. -/
abbrev WriteResults := Nat → Option Bool

/-- A data frame without a mask. -/
def Frame.isBareData (f : Frame) : Bool :=
  !f.masked && (f.opcode == opcodeText || f.opcode == opcodeBinary || f.opcode == opcodeCont)

namespace Connection

/-- `_shutdown`. -/
def shutdown (c : Connection) : Connection :=
  if c.closed then c else { c with closed := true, registered := false, ended := true }

/-- `_onError`. -/
def onError (c : Connection) : Connection := c.shutdown

/-- `_onSocketClose`. -/
def onSocketClose (c : Connection) : Connection :=
  if c.closed then c else { c with closed := true, registered := false }

variable (results : WriteResults)

/-- `_safeWrite`. -/
def safeWrite (c : Connection) (o : Outgoing) : Connection × Bool :=
  if c.closed || c.destroyed then (c, false)
  else
    let sent := { c with written := c.written ++ [o] }
    match results c.written.length with
    | some more => (sent, more)
    | none => (sent.onError, false)

/-- `_sendCloseAndShutdown`. -/
def sendCloseAndShutdown (c : Connection) (code : UInt16) (reason : JsString) : Connection :=
  if c.closed then c else (c.safeWrite results (.close code reason)).1.shutdown

def sendText (c : Connection) (t : JsString) : Connection × Bool := c.safeWrite results (.text t)

/-- One round of the loop in `_onData`, after a result was parsed. -/
def onParsed (c : Connection) : Parsed → Connection
  | .protocolError reason => c.sendCloseAndShutdown results 1002 reason
  | .frame f =>
      if f.isBareData then
        c.sendCloseAndShutdown results 1002 (jsString "unmasked client data frame")
      else if f.opcode = opcodeClose then c.sendCloseAndShutdown results 1000 []
      else if f.opcode = opcodePing then (c.safeWrite results (.pong f.payload)).1
      -- A PONG, or data that is dropped.
      else c

end Connection

def handler (results : WriteResults) : Handler Parsed Connection where
  handle := Connection.onParsed results
  stopped := Connection.closed

/-- A connection and `buf`. -/
abbrev WsClient := Reader Connection UInt8

namespace WsClient

def new : WsClient := ⟨{}, []⟩

/-- `_onData`. -/
def onData (results : WriteResults) (client : WsClient) (chunk : Bytes) : WsClient :=
  feed tryParseFrame (handler results) client chunk

end WsClient

/-! ### Chunks -/

namespace Connection

variable {results : WriteResults}

theorem closed_shutdown (c : Connection) : c.shutdown.closed = true := by
  rw [shutdown]
  split
  · assumption
  · rfl

theorem closed_sendCloseAndShutdown (c : Connection) (code : UInt16) (reason : JsString) :
    (c.sendCloseAndShutdown results code reason).closed = true := by
  rw [sendCloseAndShutdown]
  split
  · assumption
  · exact closed_shutdown _

end Connection

theorem stops_handler {results : WriteResults} (c : Connection) (p : Parsed) (error : p.IsError) :
    (handler results).stopped ((handler results).handle c p) = true := by
  obtain ⟨reason, rfl⟩ := error
  exact c.closed_sendCloseAndShutdown 1002 reason

/-- What can be seen of a client. -/
structure SameOutcome (client client' : WsClient) : Prop where
  closed : client.state.closed = client'.state.closed
  buf : client.state.closed = false → client.buf = client'.buf
  written : client.state.written = client'.state.written

/-- The way the stream is cut into `data` events makes no difference, and the loop over the
frames in a buffer ends. -/
theorem chunking_independent (results : WriteResults) :
    (∀ chunks chunks' : List Bytes, chunks.flatten = chunks'.flatten →
      SameOutcome (chunks.foldl (WsClient.onData results) .new)
        (chunks'.foldl (WsClient.onData results) .new)) ∧
    (∀ buf p used, tryParseFrame buf = some (p, used) → 2 ≤ used ∧ used ≤ buf.length) ∧
    ∀ (client : WsClient) (rounds : Nat), client.buf.length < 2 * rounds →
      ∃ after, loop tryParseFrame (handler results) rounds client = some after := by
  refine ⟨?_, fun _ _ _ => tryParseFrame_uses, fun _ _ => loop_total tryParseFrame_uses⟩
  intro chunks chunks' same
  have whole := incremental_tryParseFrame.same_feedAll (h := handler results) stops_handler {}
  have start : readLoop tryParseFrame (handler results) ⟨{}, []⟩ = WsClient.new :=
    readLoop_none rfl
  have first := whole chunks
  have second := whole chunks'
  rw [start] at first second
  rw [← same] at second
  have both := first.trans second.symm
  exact ⟨congrArg Connection.closed both.state, both.buf, congrArg Connection.written both.state⟩

/-- A masked PING in one piece and in several. -/
theorem chunking_independent_ping :
    SameOutcome ([[0x89, 0x80, 1, 2, 3, 4], []].foldl (WsClient.onData fun _ => some true) .new)
      ([[0x89], [0x80, 1], [2, 3, 4]].foldl (WsClient.onData fun _ => some true) .new) :=
  (chunking_independent fun _ => some true).1 _ _ rfl

end RoboticsIpc.WebSocketServer
