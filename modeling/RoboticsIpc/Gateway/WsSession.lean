import RoboticsIpc.Gateway.WsBroadcast
import RoboticsIpc.Gateway.WsTestClient
import RoboticsIpc.Gateway.WsViolations
import RoboticsIpc.Lib.Pipe
import RoboticsIpc.Lib.StepRun

/-!
A session of the gateway's WebSocket server with its client, from the answer to the upgrade on.

The two are connected by a pipe each way; what is written arrives in pieces of any size, and the
connection may be lost. Whatever happens, the client prints the beginning of what was broadcast,
in order, and nothing else (`session_prints`). Once nothing is under way, both are open and it has
printed everything, or both are closed (`session_settles`).
-/

namespace RoboticsIpc.WsSession

open ByteBuffer StreamReader StreamPipe Separator WebSocketServer WsTestClient

/-! ### The system -/

structure Session where
  server : WsClient
  client : Client := .new
  toClient : Pipe UInt8
  toServer : Pipe UInt8 := {}
  /-- The client's `process.exit`. -/
  exited : Option Nat := none
  /-- Ghost: the texts of the broadcasts, in order. -/
  offered : List JsString := []

inductive Act where
  | broadcast (t : JsString)
  /-- `close()` of the server. -/
  | stop
  /-- The next bytes arrive at the client. -/
  | toClient (n : Nat)
  | toServer (n : Nat)
  /-- SIGINT or SIGTERM to the client. -/
  | signal
  /-- The client's timer after `exit`. -/
  | timer
  /-- The client's socket is closed. -/
  | clientClose
  /-- The connection is lost. -/
  | lose
  | clientError
  /-- What the server's socket does after that. -/
  | serverError
  | serverClose
  | serverDestroy

/-- The connection is lost in both directions. -/
def Session.lost (s : Session) : Bool := s.toClient.severed

/-- The frames after the first `n`, as bytes. -/
def encodeFrom (n : Nat) (written : List Outgoing) : Bytes := (written.drop n).flatMap Outgoing.encode

/-- The server is now `server`; what it has written goes to the client. -/
def Session.serve (s : Session) (server : WsClient) : Session :=
  { s with
    server
    toClient := s.toClient.push (encodeFrom s.server.state.written.length server.state.written) }

/-- The client is now `client`; what it has written goes to the server. -/
def Session.react (s : Session) (client : Client) : Session :=
  { s with
    client
    toServer := s.toServer.push
      (client.state.written.drop s.client.state.written.length).flatten }

section System

-- The SHA-1 of the standard library, the client's 16 random bytes and its other parameters, and
-- what `socket.write` returns.
variable (sha1 : Bytes → Bytes) (random : { b : Bytes // b.length = 16 }) (exitAfter : Nat)
  (masks : Nat → Mask) (accepts : Nat → Bool)

/-- `randomBytes(16).toString('base64')`. -/
def clientKey : JsString := (base64 random.1).map UInt8.toUInt16

/-- The headers of the client's request. -/
def request : UpgradeHeaders where
  upgrade := some (jsString "websocket")
  secWebSocketKey := some (clientKey random)
  secWebSocketVersion := some (jsString "13")

def expectedAccept : Bytes := computeAcceptKey sha1 (clientKey random)

/-- The server answers the client's request. -/
def connect : Option Session :=
  match handleUpgrade sha1 (request random) with
  | .refused _ => none
  | .switched response =>
      some { server := .new, toClient := { inFlight := response } }

def step (s : Session) : Act → Option Session
  | .broadcast t =>
      some { s.serve (s.server.step (fun n => some (accepts n)) (.broadcast t)) with
        offered := s.offered ++ [t] }
  | .stop => some (s.serve (s.server.step (fun n => some (accepts n)) .serverClose))
  | .toClient n =>
      if s.exited = none then
        some { s.react (s.client.onData exitAfter masks (expectedAccept sha1 random)
            (s.toClient.inFlight.take n)) with toClient := s.toClient.deliver n }
      else none
  | .toServer n =>
      some { s.serve (s.server.step (fun n => some (accepts n)) (.data (s.toServer.inFlight.take n)))
        with toServer := s.toServer.deliver n }
  | .signal =>
      if s.exited = none then some (s.react ⟨s.client.state.exit masks 0, s.client.buf⟩) else none
  | .timer =>
      if s.exited = none ∧ s.client.state.exiting ≠ none then
        some { s with exited := s.client.state.exiting }
      else none
  | .clientClose =>
      -- The server's end comes after all that it wrote.
      if s.exited = none ∧ (s.lost ∨ s.server.state.ended ∧ s.toClient.inFlight = []) then
        if s.client.state.exiting ≠ none then some s
        else if exitAfter ≤ s.client.state.received ∧ 0 < exitAfter then
          some { s with exited := some 0 }
        else some { s with exited := some 6 }
      else none
  | .lose => some { s with toClient := s.toClient.sever, toServer := s.toServer.sever }
  | .clientError =>
      if s.exited = none ∧ s.lost then
        if s.client.state.exiting ≠ none then some s else some { s with exited := some 5 }
      else none
  | .serverError =>
      if s.lost then some (s.serve (s.server.step (fun n => some (accepts n)) .error)) else none
  | .serverClose =>
      if s.lost then some (s.serve (s.server.step (fun n => some (accepts n)) .socketClose)) else none
  | .serverDestroy =>
      if s.lost then some (s.serve (s.server.step (fun n => some (accepts n)) .destroy)) else none

end System

/-! ### The server's side -/

variable {results : WriteResults} {offered texts : List JsString} {closing : List Outgoing}
  {lost : Bool} {seen : Bytes} {server : WsClient}

/-- The frames that end a session. -/
def endings : List Outgoing := [.close 1000 [], .close 1001 (jsString "gateway shutting down")]

/-- The server has sent `texts` of those it was offered, and then `closing`; from the client it
has `seen`. -/
structure ServerInv (offered texts : List JsString) (closing : List Outgoing) (lost : Bool)
    (seen : Bytes) (server : WsClient) : Prop where
  written : server.state.written = texts.map .text ++ closing
  inOrder : texts <+: offered
  current : server.state.closed = false → server.state.destroyed = false → texts = offered
  ending : closing = [] ∨ ∃ o ∈ endings, closing = [o]
  reads : server.state.closed = false → closing = [] ∧ server.state.registered = true ∧
    server.buf = seen ∧ WebSocketServer.tryParseFrame seen = none
  gone : server.state.closed = true → server.state.registered = false ∧
    (lost = false → closing ≠ [] ∧ server.state.ended = true)
  ends : server.state.ended = true → server.state.closed = true
  stands : lost = false → server.state.destroyed = false

namespace ServerInv

/-- Nothing changes but what else was offered. -/
theorem idle (inv : ServerInv offered texts closing lost seen server) (t : JsString)
    (deaf : server.state.closed = false → server.state.destroyed = true) :
    ServerInv (offered ++ [t]) texts closing lost seen server := by
  refine ⟨inv.written, inv.inOrder.trans (List.prefix_append _ _), ?_, inv.ending, inv.reads,
    inv.gone, inv.ends, inv.stands⟩
  intro reads alive
  rw [deaf reads] at alive
  cases alive

theorem broadcast (inv : ServerInv offered texts closing lost seen server)
    (works : ∀ n, results n ≠ none) (t : JsString) :
    ∃ texts', texts <+: texts' ∧ ServerInv (offered ++ [t]) texts' closing lost seen
      (server.step results (.broadcast t)) := by
  rw [WsClient.step, WsClient.broadcast]
  cases reads : server.state.closed with
  | true =>
      rw [(inv.gone reads).1, if_neg Bool.false_ne_true]
      refine ⟨texts, List.prefix_refl _, inv.idle t fun open' => ?_⟩
      rw [reads] at open'
      cases open'
  | false =>
      obtain ⟨nothing, registered, buf, waiting⟩ := inv.reads reads
      rw [registered, if_pos rfl, Connection.sendText]
      cases alive : server.state.destroyed with
      | true =>
          rw [Connection.safeWrite, if_pos (by rw [alive, Bool.or_true])]
          exact ⟨texts, List.prefix_refl _, inv.idle t fun _ => alive⟩
      | false =>
          rw [Connection.safeWrite_works reads alive (works _)]
          refine ⟨texts ++ [t], List.prefix_append _ _, ?_, ?_, fun _ _ => ?_, .inl nothing,
            fun _ => ?_, ?_, inv.ends, inv.stands⟩
          · dsimp only
            rw [inv.written, nothing, List.append_nil, List.append_nil, List.map_append]
            rfl
          · exact ⟨[], by rw [inv.current reads alive, List.append_nil]⟩
          · rw [inv.current reads alive]
          · exact ⟨nothing, registered, buf, waiting⟩
          · intro closed
            rw [reads] at closed
            cases closed

/-- The server closes an open session. -/
theorem close (inv : ServerInv offered texts closing lost seen server) (results : WriteResults)
    (reads : server.state.closed = false) {code : UInt16} {reason : JsString}
    (mem : .close code reason ∈ endings) (buf seen' : Bytes) :
    ∃ closing', ServerInv offered texts closing' lost seen'
      ⟨server.state.sendCloseAndShutdown results code reason, buf⟩ := by
  have nothing := (inv.reads reads).1
  cases alive : server.state.destroyed with
  | true =>
      have state : server.state.sendCloseAndShutdown results code reason =
          { server.state with closed := true, registered := false, ended := true } := by
        rw [Connection.sendCloseAndShutdown, if_neg (by simp [reads]), Connection.safeWrite,
          if_pos (by rw [alive, Bool.or_true]), Connection.shutdown, if_neg (by simp [reads])]
      rw [state]
      refine ⟨[], ⟨?_, inv.inOrder, fun open' => absurd open' Bool.noConfusion, .inl rfl,
        fun open' => absurd open' Bool.noConfusion, fun _ => ⟨rfl, fun stands => ?_⟩,
        fun _ => rfl, inv.stands⟩⟩
      · rw [← nothing]
        exact inv.written
      · rw [inv.stands stands] at alive
        cases alive
  | false =>
      rw [Connection.sendCloseAndShutdown_open reads alive]
      refine ⟨[.close code reason], ⟨?_, inv.inOrder, fun open' => absurd open' Bool.noConfusion,
        .inr ⟨_, mem, rfl⟩, fun open' => absurd open' Bool.noConfusion,
        fun _ => ⟨rfl, fun _ => ⟨List.cons_ne_nil _ _, rfl⟩⟩, fun _ => rfl, inv.stands⟩⟩
      dsimp only
      rw [inv.written, nothing, List.append_nil]

theorem serverClose (inv : ServerInv offered texts closing lost seen server)
    (results : WriteResults) :
    ∃ closing', ServerInv offered texts closing' lost seen (server.step results .serverClose) := by
  rw [WsClient.step, WsClient.serverClose]
  cases reads : server.state.closed with
  | true =>
      rw [(inv.gone reads).1, if_neg Bool.false_ne_true]
      exact ⟨closing, inv⟩
  | false =>
      have mem : .close 1001 (jsString "gateway shutting down") ∈ endings :=
        List.mem_cons_of_mem _ List.mem_cons_self
      obtain ⟨closing', after⟩ := inv.close results reads mem server.buf seen
      rw [(inv.reads reads).2.1, if_pos rfl]
      have closed : (server.state.sendCloseAndShutdown results 1001
          (jsString "gateway shutting down")).closed = true :=
        server.state.closed_sendCloseAndShutdown _ _
      exact ⟨closing', after.written, after.inOrder, after.current, after.ending,
        fun open' => absurd (closed.symm.trans open') Bool.noConfusion,
        fun closed => ⟨rfl, (after.gone closed).2⟩, fun _ => closed, after.stands⟩

/-- What happens to a socket that is lost. -/
theorem hangUp (inv : ServerInv offered texts closing true seen server) {c : Connection}
    (written : c.written = server.state.written)
    (destroyed : server.state.destroyed = true → c.destroyed = true)
    (fate : c.closed = server.state.closed ∧ c.registered = server.state.registered ∧
        c.ended = server.state.ended ∨
      c.closed = true ∧ c.registered = false) :
    ServerInv offered texts closing true seen ⟨c, server.buf⟩ := by
  refine ⟨written.trans inv.written, inv.inOrder, ?_, inv.ending, ?_, ?_, ?_,
    fun stands => absurd stands Bool.noConfusion⟩
  · intro open' alive
    rcases fate with ⟨same, -⟩ | ⟨closed, -⟩
    · apply inv.current (same.symm.trans open')
      rw [Bool.eq_false_iff]
      intro gone
      exact absurd (alive.symm.trans (destroyed gone)) Bool.noConfusion
    · exact absurd (closed.symm.trans open') Bool.noConfusion
  · intro open'
    rcases fate with ⟨same, registered, -⟩ | ⟨closed, -⟩
    · obtain ⟨nothing, there, rest⟩ := inv.reads (same.symm.trans open')
      exact ⟨nothing, registered.trans there, rest⟩
    · exact absurd (closed.symm.trans open') Bool.noConfusion
  · intro closed
    refine ⟨?_, fun stands => absurd stands Bool.noConfusion⟩
    rcases fate with ⟨same, registered, -⟩ | ⟨-, registered⟩
    · exact registered.trans (inv.gone (same.symm.trans closed)).1
    · exact registered
  · intro ended
    rcases fate with ⟨same, -, sameEnd⟩ | ⟨closed, -⟩
    · exact same.trans (inv.ends (sameEnd.symm.trans ended))
    · exact closed

end ServerInv

/-! The only frame that comes from the client. -/

def closeFrame (mask : Mask) : Bytes := encodeMaskedCloseFrame mask 1000 []

/-- What the server makes of it. -/
def closeParsed : Parsed := .frame ⟨true, opcodeClose, true, closePayload 1000 []⟩

theorem parse_closeFrame (mask : Mask) : WebSocketServer.tryParseFrame (closeFrame mask) =
    some (closeParsed, (closeFrame mask).length) := by
  have first : FinalByte (0x80 ||| opcodeClose) opcodeClose := ⟨by decide, by decide⟩
  have short : (closePayload 1000 []).length < 126 := by decide
  have item := parse_maskedFrame first mask short []
  rwa [List.append_nil] at item

/-- A part of it is not a frame yet. -/
theorem parse_part {mask : Mask} (part : seen <+: closeFrame mask)
    (missing : seen ≠ closeFrame mask) : WebSocketServer.tryParseFrame seen = none := by
  have pieces : Consists WebSocketServer.tryParseFrame (closeFrame mask) [closeParsed] := by
    rw [← List.append_nil (closeFrame mask)]
    exact .cons (parse_closeFrame mask) .nil
  have goesOn : ∀ p ∈ [closeParsed], ¬ p.IsError := by
    intro p mem
    rw [List.mem_singleton.mp mem]
    rintro ⟨reason, ⟨⟩⟩
  obtain ⟨k, below, taken⟩ :=
    WebSocketServer.incremental_tryParseFrame.items_prefix pieces goesOn part missing
  obtain rfl : k = 0 := Nat.lt_one_iff.mp below
  cases found : WebSocketServer.tryParseFrame seen with
  | none => rfl
  | some item =>
      rw [WebSocketServer.incremental_tryParseFrame.items_some found, List.take_zero] at taken
      cases taken

theorem ServerInv.onData (inv : ServerInv offered texts closing lost seen server)
    (results : WriteResults) {chunk : Bytes} {mask : Mask} (part : seen ++ chunk <+: closeFrame mask) :
    ∃ closing', ServerInv offered texts closing' lost (seen ++ chunk)
      (server.onData results chunk) := by
  cases reads : server.state.closed with
  | true =>
      rw [onData_closed reads]
      refine ⟨closing, ⟨inv.written, inv.inOrder, inv.current, inv.ending, fun open' => ?_,
        inv.gone, inv.ends, inv.stands⟩⟩
      rw [reads] at open'
      cases open'
  | false =>
      obtain ⟨nothing, registered, buf, -⟩ := inv.reads reads
      have feeds : server.onData results chunk = readLoop WebSocketServer.tryParseFrame
          (handler results) ⟨server.state, seen ++ chunk⟩ := by
        rw [WsClient.onData, feed, if_neg, buf]
        rw [Bool.not_eq_true]
        exact reads
      rw [feeds]
      by_cases all : seen ++ chunk = closeFrame mask
      · have closes : (handler results).handle server.state closeParsed =
            server.state.sendCloseAndShutdown results 1000 [] := rfl
        rw [all, WebSocketServer.incremental_tryParseFrame.readLoop_some (r := ⟨_, closeFrame mask⟩)
          reads (parse_closeFrame mask), closes,
          readLoop_stopped (Connection.closed_sendCloseAndShutdown _ _ _)]
        exact inv.close results reads List.mem_cons_self _ _
      · have waiting := parse_part part all
        rw [readLoop_none waiting]
        exact ⟨closing, ⟨inv.written, inv.inOrder, inv.current, inv.ending,
          fun _ => ⟨nothing, registered, rfl, waiting⟩, inv.gone, inv.ends, inv.stands⟩⟩

/-! ### The client's side -/

section Client

variable {exitAfter : Nat} {masks : Nat → Mask} {shown : List Bytes} {c : State}

/-- The client has printed `shown` and reads on. -/
structure Showing (exitAfter : Nat) (shown : List Bytes) (c : State) : Prop where
  opened : c.handshakeDone = true
  reads : c.exiting = none
  received : c.received = shown.length
  printed : c.printed = shown
  written : c.written = []
  below : exitAfter ≠ 0 → shown.length < exitAfter

/-- The client has printed `shown` and taken its leave. -/
structure Left (exitAfter : Nat) (masks : Nat → Mask) (shown : List Bytes) (c : State) : Prop where
  exiting : c.exiting = some 0
  received : c.received = shown.length
  printed : c.printed = shown
  written : c.written = [closeFrame (masks 0)]
  within : exitAfter ≠ 0 → shown.length ≤ exitAfter

theorem exit_reading (reads : c.exiting = none) (code : Nat) : c.exit masks code =
    { c with
      exiting := some code
      written := c.written ++ [encodeMaskedCloseFrame (masks c.written.length) 1000 []] } := by
  rw [State.exit, reads]
  rfl

theorem exit_leaving {code : Nat} (leaving : c.exiting = some code) (again : Nat) :
    c.exit masks again = c := by
  rw [State.exit, leaving]
  rfl

theorem Showing.left (showing : Showing exitAfter shown c) :
    Left exitAfter masks shown (c.exit masks 0) := by
  rw [exit_reading showing.reads, showing.written]
  exact ⟨rfl, showing.received, showing.printed, rfl, fun limit => (showing.below limit).le⟩

theorem Showing.onText (showing : Showing exitAfter shown c) (masks : Nat → Mask) (payload : Bytes) :
    Showing exitAfter (shown ++ [payload]) (c.onFrame exitAfter masks ⟨opcodeText, payload⟩) ∨
      Left exitAfter masks (shown ++ [payload]) (c.onFrame exitAfter masks ⟨opcodeText, payload⟩) := by
  obtain ⟨opened, reads, received, printed, written, below⟩ := showing
  have length : (shown ++ [payload]).length = c.received + 1 := by
    rw [List.length_append, received]
    rfl
  rw [State.onFrame, if_pos rfl]
  dsimp only
  split
  · rename_i enough
    right
    rw [exit_reading]
    · refine ⟨rfl, length.symm, congrArg (· ++ [payload]) printed, ?_, fun limit => ?_⟩
      · dsimp only
        rw [written]
        rfl
      · have := below limit
        omega
    · exact reads
  · rename_i goesOn
    left
    refine ⟨opened, reads, length.symm, congrArg (· ++ [payload]) printed, written,
      fun limit => ?_⟩
    have := below limit
    omega

theorem Showing.onClose (showing : Showing exitAfter shown c) (payload : Bytes) :
    Left exitAfter masks shown (c.onFrame exitAfter masks ⟨opcodeClose, payload⟩) := by
  have other : opcodeClose ≠ opcodeText := by decide
  rw [State.onFrame, if_neg other, if_pos rfl]
  exact showing.left

theorem Showing.stopped (showing : Showing exitAfter shown c) :
    (frameHandler exitAfter masks).stopped c = false := by
  have none : c.exiting.isSome = false := by
    rw [showing.reads]
    rfl
  exact none

/-- The frame the client reads. -/
def asRead (o : Outgoing) : ServerFrame := ⟨o.opcode, o.payload⟩

theorem Left.handleAll (left : Left exitAfter masks shown c) (fs : List ServerFrame) :
    handleAll (frameHandler exitAfter masks) c fs = c := by
  have stopped : c.exiting.isSome = true := by
    rw [left.exiting]
    rfl
  exact handleAll_stopped stopped fs

/-- The client prints text after text, and leaves at the count or at the closing frame. -/
theorem Showing.handleAll (showing : Showing exitAfter shown c) (masks : Nat → Mask)
    (texts : List JsString) {closing : List Outgoing}
    (ending : closing = [] ∨ ∃ o ∈ endings, closing = [o]) :
    (closing = [] ∧ Showing exitAfter (shown ++ texts.map utf8) (StreamReader.handleAll
        (frameHandler exitAfter masks) c ((texts.map Outgoing.text ++ closing).map asRead))) ∨
      ∃ shown', shown' <+: shown ++ texts.map utf8 ∧ Left exitAfter masks shown'
        (StreamReader.handleAll (frameHandler exitAfter masks) c
          ((texts.map Outgoing.text ++ closing).map asRead)) := by
  induction texts generalizing shown c with
  | nil =>
      rw [List.map_nil, List.map_nil, List.nil_append, List.append_nil]
      rcases ending with rfl | ⟨o, mem, rfl⟩
      · exact .inl ⟨rfl, showing⟩
      · have isClose : o.opcode = opcodeClose := by
          have all : ∀ o ∈ endings, o.opcode = opcodeClose := by decide
          exact all o mem
        refine .inr ⟨shown, List.prefix_refl _, ?_⟩
        rw [List.map_cons, handleAll_cons showing.stopped, asRead, isClose]
        exact showing.onClose o.payload
  | cons t texts ih =>
      have more : shown ++ (t :: texts).map utf8 = shown ++ [utf8 t] ++ texts.map utf8 := by
        rw [List.map_cons, List.append_assoc]
        rfl
      rw [more, List.map_cons, List.cons_append, List.map_cons, handleAll_cons showing.stopped]
      rcases showing.onText masks (utf8 t) with after | left
      · exact ih after
      · refine .inr ⟨_, List.prefix_append _ _, ?_⟩
        have stays := Left.handleAll left ((texts.map Outgoing.text ++ closing).map asRead)
        exact stays ▸ left

/-! Frames that arrive in part. -/

variable {frames : List Outgoing} {came : Bytes}

theorem consists_frames (valid : ∀ o ∈ frames, o.Valid) :
    Consists WsTestClient.tryParseFrame (frames.flatMap Outgoing.encode) (frames.map asRead) := by
  induction frames with
  | nil => exact .nil
  | cons o frames ih =>
      rw [List.flatMap_cons, List.map_cons]
      have parses := (valid o List.mem_cons_self).parses []
      rw [List.append_nil] at parses
      exact .cons (tryParseFrame_of_server parses)
        (ih fun p mem => valid p (List.mem_cons_of_mem o mem))

/-- The first frames have been read, all of them once all bytes are there. -/
theorem items_part (valid : ∀ o ∈ frames, o.Valid) (part : came <+: frames.flatMap Outgoing.encode) :
    ∃ k, items WsTestClient.tryParseFrame came = (frames.take k).map asRead ∧
      (came = frames.flatMap Outgoing.encode → k = frames.length) := by
  have pieces := consists_frames valid
  have goesOn : ∀ f ∈ frames.map asRead, ¬ False := fun _ _ => not_false
  by_cases all : came = frames.flatMap Outgoing.encode
  · refine ⟨frames.length, ?_, fun _ => rfl⟩
    have whole := WsTestClient.incremental_tryParseFrame.items_append pieces goesOn []
    have nothing : items WsTestClient.tryParseFrame [] = [] := items_none rfl
    rw [List.append_nil, nothing, List.append_nil] at whole
    rw [all, whole, List.take_length]
  · obtain ⟨k, -, taken⟩ :=
      WsTestClient.incremental_tryParseFrame.items_prefix pieces goesOn part all
    exact ⟨k, by rw [taken, List.map_take], fun whole => absurd whole all⟩

/-- What a client has done that has read `came` of the frames. -/
inductive Progress (exitAfter : Nat) (masks : Nat → Mask) (texts : List JsString)
    (closing : List Outgoing) (all : Prop) (c : State) : Prop where
  | showing {some : List JsString} (first : some <+: texts)
      (showing : Showing exitAfter (some.map utf8) c)
      (whole : all → some = texts ∧ closing = []) : Progress exitAfter masks texts closing all c
  | left {shown : List Bytes} (first : shown <+: texts.map utf8)
      (left : Left exitAfter masks shown c) : Progress exitAfter masks texts closing all c

theorem progress_read (exitAfter : Nat) (masks : Nat → Mask) {texts : List JsString}
    {closing : List Outgoing}
    (ending : closing = [] ∨ ∃ o ∈ endings, closing = [o])
    (valid : ∀ o ∈ texts.map Outgoing.text ++ closing, o.Valid)
    (part : came <+: (texts.map Outgoing.text ++ closing).flatMap Outgoing.encode) :
    Progress exitAfter masks texts closing
      (came = (texts.map Outgoing.text ++ closing).flatMap Outgoing.encode)
      (Client.readFrames exitAfter masks ⟨{ handshakeDone := true }, came⟩).state := by
  obtain ⟨k, taken, all⟩ := items_part valid part
  have start : Showing exitAfter [] { handshakeDone := true } :=
    ⟨rfl, rfl, rfl, rfl, rfl, Nat.pos_of_ne_zero⟩
  have rest : closing.take (k - texts.length) = [] ∨
      ∃ o ∈ endings, closing.take (k - texts.length) = [o] := by
    rcases ending with rfl | ⟨o, mem, rfl⟩
    · exact .inl List.take_nil
    · cases k - texts.length with
      | zero => exact .inl rfl
      | succ n => exact .inr ⟨o, mem, by rw [List.take_succ_cons, List.take_nil]⟩
  rw [List.take_append, ← List.map_take, List.length_map] at taken
  rw [Client.readFrames, WsTestClient.incremental_tryParseFrame.readLoop_state, taken]
  rcases start.handleAll masks (texts.take k) rest with ⟨open', showing⟩ | ⟨shown, first, left⟩
  · refine .showing (List.take_prefix k texts) showing fun whole => ?_
    have count := all whole
    rw [List.length_append, List.length_map] at count
    rw [count] at open' ⊢
    rw [Nat.add_sub_cancel_left, List.take_length] at open'
    exact ⟨List.take_of_length_le (Nat.le_add_right _ _), open'⟩
  · refine .left (first.trans ?_) left
    rw [List.nil_append]
    exact (List.take_prefix k texts).map utf8

/-- The client after `arrived`, when the server has sent `accept`, `texts` and `closing`. -/
inductive ClientInv (exitAfter : Nat) (masks : Nat → Mask) (accept : Bytes)
    (texts : List JsString) (arrived : Bytes) : Client → Prop where
  | opening (part : arrived <+: response accept) (missing : arrived ≠ response accept) :
      ClientInv exitAfter masks accept texts arrived ⟨{}, arrived⟩
  | reading {came : Bytes} {some : List JsString} {client : Client}
      (split : arrived = response accept ++ came)
      (state : client = Client.readFrames exitAfter masks ⟨{ handshakeDone := true }, came⟩)
      (first : some <+: texts) (showing : Showing exitAfter (some.map utf8) client.state) :
      ClientInv exitAfter masks accept texts arrived client
  | leaving {client : Client} {shown : List Bytes} (first : shown <+: texts.map utf8)
      (left : Left exitAfter masks shown client.state) :
      ClientInv exitAfter masks accept texts arrived client

variable {texts : List JsString} {closing : List Outgoing} {accept arrived chunk : Bytes}
  {client : Client}

theorem ClientInv.mono {texts' : List JsString} (more : texts <+: texts')
    (inv : ClientInv exitAfter masks accept texts arrived client) :
    ClientInv exitAfter masks accept texts' arrived client := by
  cases inv with
  | opening part missing => exact .opening part missing
  | reading split state first showing => exact .reading split state (first.trans more) showing
  | leaving first left => exact .leaving (first.trans (more.map utf8)) left

/-- Before it leaves, the client writes nothing; then one frame. -/
theorem ClientInv.written (inv : ClientInv exitAfter masks accept texts arrived client) :
    client.state.written = [] ∨
      ∃ shown, shown <+: texts.map utf8 ∧ Left exitAfter masks shown client.state := by
  cases inv with
  | opening => exact .inl rfl
  | reading _ _ _ showing => exact .inl showing.written
  | leaving first left => exact .inr ⟨_, first, left⟩

/-- The user ends the client. -/
theorem ClientInv.signal (inv : ClientInv exitAfter masks accept texts arrived client) :
    ClientInv exitAfter masks accept texts arrived ⟨client.state.exit masks 0, client.buf⟩ := by
  cases inv with
  | opening =>
      have left : Left exitAfter masks [] (State.exit masks {} 0) :=
        ⟨rfl, rfl, rfl, rfl, fun _ => Nat.zero_le _⟩
      exact .leaving List.nil_prefix left
  | reading _ _ first showing => exact .leaving (first.map utf8) showing.left
  | leaving first left =>
      rw [exit_leaving left.exiting]
      exact .leaving first left

theorem readFrames_leaving {code : Nat} {buf : Bytes} (leaving : c.exiting = some code) :
    Client.readFrames exitAfter masks ⟨c, buf⟩ = ⟨c, buf⟩ := by
  have stopped : c.exiting.isSome = true := by
    rw [leaving]
    rfl
  exact readLoop_stopped stopped

/-- A client that has left does nothing more. -/
theorem Left.onData (left : Left exitAfter masks shown client.state) (chunk : Bytes) :
    Left exitAfter masks shown (client.onData exitAfter masks accept chunk).state := by
  rw [Client.onData]
  dsimp only
  split
  · rw [readFrames_leaving left.exiting]
    exact left
  · split
    · exact left
    · split
      · rw [exit_leaving left.exiting]
        exact left
      · rw [readFrames_leaving]
        · exact ⟨left.exiting, left.received, left.printed, left.written, left.within⟩
        · exact left.exiting

/-- What the client has made of the frames. -/
theorem ClientInv.of_read {read : Client} (state : client.state = read.state)
    (buf : client.state.exiting = none → client = read)
    (read_eq : read = Client.readFrames exitAfter masks ⟨{ handshakeDone := true }, came⟩)
    (split : arrived = response accept ++ came) {all : Prop}
    (progress : Progress exitAfter masks texts closing all read.state) :
    ClientInv exitAfter masks accept texts arrived client := by
  rw [← state] at progress
  cases progress with
  | showing first showing whole =>
      exact .reading split ((buf showing.reads).trans read_eq) first showing
  | left first left => exact .leaving first left

theorem ClientInv.onData (inv : ClientInv exitAfter masks accept texts arrived client)
    (graphic : ∀ c ∈ accept, isSpace c = false) (some : accept ≠ [])
    (ending : closing = [] ∨ ∃ o ∈ endings, closing = [o])
    (valid : ∀ o ∈ texts.map Outgoing.text ++ closing, o.Valid)
    (part : arrived ++ chunk <+:
      response accept ++ (texts.map Outgoing.text ++ closing).flatMap Outgoing.encode) :
    ClientInv exitAfter masks accept texts (arrived ++ chunk)
      (client.onData exitAfter masks accept chunk) := by
  cases inv with
  | opening =>
      rw [Client.onData, if_neg Bool.false_ne_true]
      dsimp only
      by_cases whole : response accept <+: arrived ++ chunk
      · obtain ⟨came, split⟩ := whole
        rw [← split, List.prefix_append_right_inj] at part
        have header : (response accept ++ came).take (responseHead ++ accept).length =
            responseHead ++ accept := by
          rw [response, List.append_assoc, List.take_left]
        have size : (response accept).length = (responseHead ++ accept).length + 4 := by
          rw [response, List.length_append]
          rfl
        rw [← split, indexOf_response graphic]
        dsimp only
        rw [header, ← size, List.drop_left, checkResponse_response graphic some]
        exact .of_read rfl (fun _ => rfl) rfl rfl (progress_read _ _ ending valid part)
      · rcases List.prefix_or_prefix_of_prefix part (List.prefix_append _ _) with short | long
        · have missing : arrived ++ chunk ≠ response accept := by
            intro same
            exact whole (same ▸ List.prefix_refl _)
          rw [indexOf_short_response graphic short missing]
          exact .opening short missing
        · exact absurd long whole
  | @reading came some client split state first showing =>
      have after : came ++ chunk <+: (texts.map Outgoing.text ++ closing).flatMap Outgoing.encode := by
        rwa [split, List.append_assoc, List.prefix_append_right_inj] at part
      have goesOn : client.onData exitAfter masks accept chunk =
          feed WsTestClient.tryParseFrame (frameHandler exitAfter masks) client chunk := by
        have open' : ¬ (frameHandler exitAfter masks).stopped client.state = true := by
          rw [showing.stopped]
          exact Bool.false_ne_true
        rw [Client.onData, if_pos showing.opened, feed, if_neg open']
        rfl
      have same := WsTestClient.incremental_tryParseFrame.same_feed
        (h := frameHandler exitAfter masks) (fun _ _ never => never.elim) { handshakeDone := true }
        came chunk
      rw [← Client.readFrames, ← Client.readFrames, ← state, ← goesOn] at same
      refine .of_read same.state (fun open' => ?_) rfl (by rw [split, List.append_assoc])
        (progress_read _ _ ending valid after)
      have stays : (client.onData exitAfter masks accept chunk).state.exiting.isSome = false := by
        rw [open']
        rfl
      exact Reader.ext same.state (same.buf stays)
  | leaving first left => exact .leaving first (left.onData chunk)

end Client

end RoboticsIpc.WsSession
