import RoboticsIpc.Gateway.WsClient

/-!
What the gateway's WebSocket server sends to a client.

Besides its stream, a client sees the errors and the end of its socket, the broadcasts and
the end of the server. Whatever is written has a cause in the run and carries what belongs to
it (`meant_run`). Texts and closing frames are always valid. A PONG carries back what came with
the PING and is valid only up to 125 bytes, which the server does not check: all frames of a
run are valid exactly when no PING that is answered has more (`server_frames_valid`).
-/

namespace RoboticsIpc.WebSocketServer

open ByteBuffer StreamReader

inductive Event where
  | data (chunk : Bytes)
  /-- The socket's `error`. -/
  | error
  /-- The socket's `close`. -/
  | socketClose
  /-- `socket.destroyed` from here on. -/
  | destroy
  | broadcast (t : JsString)
  /-- `close()` of the server. -/
  | serverClose

namespace WsClient

variable (results : WriteResults)

/-- `broadcast` sends to the clients in the set. -/
def broadcast (client : WsClient) (t : JsString) : WsClient :=
  if client.state.registered then ⟨(client.state.sendText results t).1, client.buf⟩ else client

/-- `close` of the server, which then clears the set. -/
def serverClose (client : WsClient) : WsClient :=
  if client.state.registered then
    ⟨{ client.state.sendCloseAndShutdown results 1001 (jsString "gateway shutting down") with
      registered := false }, client.buf⟩
  else client

def step (client : WsClient) : Event → WsClient
  | .data chunk => client.onData results chunk
  | .error => ⟨client.state.onError, client.buf⟩
  | .socketClose => ⟨client.state.onSocketClose, client.buf⟩
  | .destroy => ⟨{ client.state with destroyed := true }, client.buf⟩
  | .broadcast t => client.broadcast results t
  | .serverClose => client.serverClose results

def run (events : List Event) : WsClient := events.foldl (step results) new

end WsClient

/-! ### What is written -/

variable {results : WriteResults}

/-- From `c` to `c'` nothing was written but frames that satisfy `P`. -/
structure Wrote (P : Outgoing → Prop) (c c' : Connection) : Prop where
  keeps : ∀ o ∈ c.written, o ∈ c'.written
  adds : ∀ o ∈ c'.written, o ∈ c.written ∨ P o
  destroyed : c'.destroyed = c.destroyed
  silent : c.destroyed = true → c'.written = c.written

namespace Wrote

variable {P Q : Outgoing → Prop} {c c' c'' : Connection}

theorem refl (P : Outgoing → Prop) (c : Connection) : Wrote P c c :=
  ⟨fun _ mem => mem, fun _ mem => .inl mem, rfl, fun _ => rfl⟩

theorem mono (wrote : Wrote P c c') (weaker : ∀ o, P o → Q o) : Wrote Q c c' :=
  ⟨wrote.keeps, fun o mem => (wrote.adds o mem).imp_right (weaker o), wrote.destroyed,
    wrote.silent⟩

theorem trans (first : Wrote P c c') (second : Wrote P c' c'') : Wrote P c c'' where
  keeps o mem := second.keeps o (first.keeps o mem)
  adds o mem := by
    rcases second.adds o mem with before | added
    · exact first.adds o before
    · exact .inr added
  destroyed := second.destroyed.trans first.destroyed
  silent gone := (second.silent (first.destroyed.trans gone)).trans (first.silent gone)

/-- On a socket that is gone nothing is written. -/
theorem silently (wrote : Wrote P c c') (gone : c.destroyed = true) : Wrote Q c c' where
  keeps := wrote.keeps
  adds o mem := by
    rw [wrote.silent gone] at mem
    exact .inl mem
  destroyed := wrote.destroyed
  silent := wrote.silent

end Wrote

namespace Connection

theorem wrote_shutdown (P : Outgoing → Prop) (c : Connection) : Wrote P c c.shutdown := by
  rw [shutdown]
  split
  · exact .refl P c
  · exact ⟨fun _ mem => mem, fun _ mem => .inl mem, rfl, fun _ => rfl⟩

theorem wrote_safeWrite (results : WriteResults) (c : Connection) (o : Outgoing) :
    Wrote (· = o) c (c.safeWrite results o).1 := by
  rw [safeWrite]
  split
  · exact .refl _ c
  · rename_i there
    have sent : Wrote (· = o) c { c with written := c.written ++ [o] } := by
      refine ⟨fun _ mem => List.mem_append_left _ mem, fun _ mem => by simpa using mem, rfl, ?_⟩
      intro gone
      rw [gone, Bool.or_true] at there
      exact absurd rfl there
    dsimp only
    split
    · exact sent
    · exact sent.trans (wrote_shutdown _ _)

theorem wrote_sendCloseAndShutdown (results : WriteResults) (c : Connection) (code : UInt16)
    (reason : JsString) :
    Wrote (· = .close code reason) c (c.sendCloseAndShutdown results code reason) := by
  rw [sendCloseAndShutdown]
  split
  · exact .refl _ c
  · exact (c.wrote_safeWrite results _).trans (wrote_shutdown _ _)

end Connection

/-- The results that close the connection. -/
def Parsed.closes : Parsed → Bool
  | .protocolError _ => true
  | .frame f => f.isBareData || f.opcode == opcodeClose

/-- The frame a closing result is answered with. -/
inductive ClosedBy : Parsed → Outgoing → Prop where
  | error (reason : JsString) : ClosedBy (.protocolError reason) (.close 1002 reason)
  | bareData (f : Frame) :
      ClosedBy (.frame f) (.close 1002 (jsString "unmasked client data frame"))
  | close (f : Frame) : ClosedBy (.frame f) (.close 1000 [])

/-- Among these results a PING is answered, when `n` buffers were written before: no result
in front of it closes the connection, and no answer in front of it throws. -/
inductive Answered (results : WriteResults) : Nat → List Parsed → Frame → Prop where
  | ping {n : Nat} {f : Frame} {ps : List Parsed} (isPing : f.opcode = opcodePing) :
      Answered results n (.frame f :: ps) f
  | afterPing {n : Nat} {f g : Frame} {ps : List Parsed} (isPing : g.opcode = opcodePing)
      (works : results n ≠ none) (later : Answered results (n + 1) ps f) :
      Answered results n (.frame g :: ps) f
  | afterOther {n : Nat} {f g : Frame} {ps : List Parsed}
      (stays : (Parsed.frame g).closes = false) (other : g.opcode ≠ opcodePing)
      (later : Answered results n ps f) : Answered results n (.frame g :: ps) f

/-- What is written for these results when `n` buffers were written before. -/
inductive Reply (results : WriteResults) (n : Nat) (ps : List Parsed) : Outgoing → Prop where
  | closing {p : Parsed} {o : Outgoing} (mem : p ∈ ps) (closed : ClosedBy p o) :
      Reply results n ps o
  | pong {f : Frame} (answered : Answered results n ps f) : Reply results n ps (.pong f.payload)

namespace Connection

/-! One round closes the connection, answers a PING or does nothing. -/

theorem onParsed_closes (results : WriteResults) (c : Connection) {p : Parsed}
    (closes : p.closes = true) :
    (c.onParsed results p).closed = true ∧ Wrote (ClosedBy p) c (c.onParsed results p) := by
  cases p with
  | protocolError reason =>
      refine ⟨c.closed_sendCloseAndShutdown _ _, ?_⟩
      apply (c.wrote_sendCloseAndShutdown results 1002 reason).mono
      rintro _ rfl
      exact .error reason
  | frame f =>
      rw [onParsed]
      by_cases bare : f.isBareData = true
      · rw [if_pos bare]
        refine ⟨c.closed_sendCloseAndShutdown _ _, ?_⟩
        apply (c.wrote_sendCloseAndShutdown results 1002 _).mono
        rintro _ rfl
        exact .bareData f
      · have close : f.opcode = opcodeClose := by
          simpa [Parsed.closes, bare] using closes
        rw [if_neg bare, if_pos close]
        refine ⟨c.closed_sendCloseAndShutdown _ _, ?_⟩
        apply (c.wrote_sendCloseAndShutdown results 1000 []).mono
        rintro _ rfl
        exact .close f

theorem onParsed_ping (results : WriteResults) (c : Connection) {f : Frame}
    (isPing : f.opcode = opcodePing) :
    c.onParsed results (.frame f) = (c.safeWrite results (.pong f.payload)).1 := by
  have masked : f.isBareData = false := by
    rw [Frame.isBareData, isPing]
    exact Bool.and_false _
  rw [onParsed, masked, if_neg Bool.false_ne_true, isPing, if_neg (by decide), if_pos rfl]

theorem onParsed_other (results : WriteResults) (c : Connection) {f : Frame}
    (stays : (Parsed.frame f).closes = false) (other : f.opcode ≠ opcodePing) :
    c.onParsed results (.frame f) = c := by
  obtain ⟨masked, notClose⟩ := Bool.or_eq_false_iff.mp stays
  rw [onParsed, masked, if_neg Bool.false_ne_true, if_neg (by simpa using notClose), if_neg other]

/-! Writing on an open connection. -/

section Open

variable {c : Connection} (reads : c.closed = false) (alive : c.destroyed = false)

include reads alive

theorem safeWrite_works {o : Outgoing} (works : results c.written.length ≠ none) :
    (c.safeWrite results o).1 = { c with written := c.written ++ [o] } := by
  rw [safeWrite, reads, alive]
  cases result : results c.written.length with
  | none => exact absurd result works
  | some more => simp only [Bool.or_self, Bool.false_eq_true, if_false]

/-- An answer that throws is the last. -/
theorem safeWrite_throws {o : Outgoing} (throws : results c.written.length = none) :
    (c.safeWrite results o).1.closed = true ∧ o ∈ (c.safeWrite results o).1.written := by
  have sent : o ∈ c.written ++ [o] := List.mem_append_right _ List.mem_cons_self
  rw [safeWrite, reads, alive]
  simp only [Bool.or_self, Bool.false_eq_true, if_false, throws]
  exact ⟨closed_shutdown _, (wrote_shutdown (fun _ => False) _).keeps o sent⟩

theorem mem_safeWrite (results : WriteResults) (o : Outgoing) :
    o ∈ (c.safeWrite results o).1.written := by
  by_cases throws : results c.written.length = none
  · exact (safeWrite_throws reads alive throws).2
  · rw [safeWrite_works reads alive throws]
    exact List.mem_append_right _ List.mem_cons_self

end Open

theorem handle_handler (c : Connection) (p : Parsed) :
    (handler results).handle c p = c.onParsed results p := rfl

/-- What a loop over these results writes. -/
theorem wrote_handleAll (results : WriteResults) (c : Connection) (ps : List Parsed) :
    Wrote (Reply results c.written.length ps) c (handleAll (handler results) c ps) := by
  induction ps generalizing c with
  | nil => exact .refl _ c
  | cons p ps ih =>
      cases reads : c.closed with
      | true =>
          rw [handleAll_stopped reads]
          exact .refl _ c
      | false =>
          rw [handleAll_cons reads, handle_handler]
          cases closes : p.closes with
          | true =>
              obtain ⟨stopped, wrote⟩ := c.onParsed_closes results closes
              rw [handleAll_stopped stopped]
              exact wrote.mono fun o => .closing List.mem_cons_self
          | false =>
              cases p with
              | protocolError reason => cases closes
              | frame f =>
                  by_cases isPing : f.opcode = opcodePing
                  · rw [onParsed_ping results c isPing]
                    have first := c.wrote_safeWrite results (.pong f.payload)
                    cases alive : c.destroyed with
                    | true =>
                        have gone := first.destroyed.trans alive
                        exact (first.silently alive).trans ((ih _).silently gone)
                    | false =>
                        have now : Wrote (Reply results c.written.length (.frame f :: ps)) c
                            (c.safeWrite results (.pong f.payload)).1 := by
                          apply first.mono
                          rintro _ rfl
                          exact .pong (.ping isPing)
                        by_cases throws : results c.written.length = none
                        · rw [handleAll_stopped (safeWrite_throws reads alive throws).1]
                          exact now
                        · refine now.trans ((ih _).mono ?_)
                          rw [safeWrite_works reads alive throws, List.length_append]
                          rintro _ (⟨mem, closed⟩ | answered)
                          · exact .closing (List.mem_cons_of_mem _ mem) closed
                          · exact .pong (.afterPing isPing throws answered)
                  · rw [onParsed_other results c closes isPing]
                    apply (ih c).mono
                    rintro _ (⟨mem, closed⟩ | answered)
                    · exact .closing (List.mem_cons_of_mem _ mem) closed
                    · exact .pong (.afterOther closes isPing answered)

/-- Every such PING is answered. -/
theorem pong_mem_handleAll {c : Connection} (reads : c.closed = false)
    (alive : c.destroyed = false) {ps : List Parsed} {f : Frame}
    (answered : Answered results c.written.length ps f) :
    .pong f.payload ∈ (handleAll (handler results) c ps).written := by
  generalize len : c.written.length = n at answered
  induction answered generalizing c with
  | ping isPing =>
      rw [handleAll_cons reads, handle_handler, onParsed_ping results c isPing]
      apply (wrote_handleAll results _ _).keeps
      exact mem_safeWrite reads alive results _
  | afterPing isPing works later ih =>
      rw [← len] at works
      rw [handleAll_cons reads, handle_handler, onParsed_ping results c isPing,
        safeWrite_works reads alive works]
      exact ih reads alive (by rw [List.length_append, len]; rfl)
  | afterOther stays other later ih =>
      rw [handleAll_cons reads, handle_handler, onParsed_other results c stays other]
      exact ih reads alive len

end Connection

/-! ### Runs -/

/-- The codes and reasons the server closes with. -/
def closings : List (UInt16 × JsString) :=
  [(1000, []), (1001, jsString "gateway shutting down"), (1002, jsString "payload too large"),
    (1002, jsString "unmasked client data frame")]

theorem ClosedBy.mem_closings {buf : Bytes} {p : Parsed} {o : Outgoing} (closed : ClosedBy p o)
    (parsed : p ∈ items tryParseFrame buf) :
    ∃ code reason, o = .close code reason ∧ (code, reason) ∈ closings := by
  cases closed with
  | error reason =>
      have only := incremental_tryParseFrame.forall_items
        (P := fun p => ∀ reason, p = .protocolError reason → reason = jsString "payload too large")
        (by rintro buf _ used found reason rfl; exact (tryParseFrame_error found).2.1) buf
      rw [only _ parsed reason rfl]
      exact ⟨_, _, rfl, by decide⟩
  | bareData f => exact ⟨_, _, rfl, by decide⟩
  | close f => exact ⟨_, _, rfl, by decide⟩

/-- The reasons are short. -/
theorem valid_closings {code : UInt16} {reason : JsString} (mem : (code, reason) ∈ closings) :
    (Outgoing.close code reason).Valid := by
  have short : ∀ c ∈ closings, (closePayload c.1 c.2).length ≤ 125 := by decide
  exact Outgoing.valid_close (short _ mem)

namespace WsClient

/-- A PING is answered when `chunk` arrives. -/
structure AnswersPing (results : WriteResults) (client : WsClient) (chunk : Bytes) (f : Frame) :
    Prop where
  reads : client.state.closed = false
  alive : client.state.destroyed = false
  answered : Answered results client.state.written.length
    (items tryParseFrame (client.buf ++ chunk)) f

/-- What a frame is for: a text of a broadcast, the answer to a PING or the end. -/
inductive Meant (results : WriteResults) (events : List Event) : Outgoing → Prop where
  | text {t : JsString} (sent : .broadcast t ∈ events) : Meant results events (.text t)
  | pong {earlier later : List Event} {chunk : Bytes} {f : Frame}
      (arrived : events = earlier ++ .data chunk :: later)
      (answers : AnswersPing results (run results earlier) chunk f) :
      Meant results events (.pong f.payload)
  | close {code : UInt16} {reason : JsString} (mem : (code, reason) ∈ closings) :
      Meant results events (.close code reason)

theorem Meant.mono {events : List Event} {o : Outgoing} (meant : Meant results events o)
    (e : Event) : Meant results (events ++ [e]) o := by
  cases meant with
  | text sent => exact .text (List.mem_append_left _ sent)
  | @pong earlier later chunk f arrived answers =>
      have longer : events ++ [e] = earlier ++ .data chunk :: (later ++ [e]) := by
        rw [arrived, List.append_assoc]
        rfl
      exact .pong longer answers
  | close mem => exact .close mem

/-- What is written on a chunk. -/
theorem state_onData {client : WsClient} (reads : client.state.closed = false) (chunk : Bytes) :
    (client.onData results chunk).state =
      handleAll (handler results) client.state (items tryParseFrame (client.buf ++ chunk)) := by
  have open' : ¬ (handler results).stopped client.state = true := by
    rw [Bool.not_eq_true]
    exact reads
  rw [onData, feed, if_neg open', incremental_tryParseFrame.readLoop_state]

theorem wrote_onData (results : WriteResults) (client : WsClient) (chunk : Bytes) :
    Wrote (fun o => (∃ code reason, o = .close code reason ∧ (code, reason) ∈ closings) ∨
      ∃ f, AnswersPing results client chunk f ∧ o = .pong f.payload)
      client.state (client.onData results chunk).state := by
  cases reads : client.state.closed with
  | true =>
      have stopped : (handler results).stopped client.state = true := reads
      rw [onData, feed, if_pos stopped]
      exact .refl _ _
  | false =>
      rw [state_onData reads]
      have wrote := client.state.wrote_handleAll results
        (items tryParseFrame (client.buf ++ chunk))
      cases alive : client.state.destroyed with
      | true => exact wrote.silently alive
      | false =>
          apply wrote.mono
          rintro _ (⟨parsed, closed⟩ | answered)
          · exact .inl (closed.mem_closings parsed)
          · exact .inr ⟨_, ⟨reads, alive, answered⟩, rfl⟩

/-- Events other than chunks. -/
theorem wrote_step (client : WsClient) (e : Event) (notData : ∀ chunk, e ≠ .data chunk) :
    (∀ o ∈ client.state.written, o ∈ (client.step results e).state.written) ∧
    ∀ o ∈ (client.step results e).state.written, o ∈ client.state.written ∨
      (∃ t, e = .broadcast t ∧ o = .text t) ∨
      o = .close 1001 (jsString "gateway shutting down") := by
  cases e with
  | data chunk => exact absurd rfl (notData chunk)
  | error =>
      have wrote := client.state.wrote_shutdown fun _ => False
      exact ⟨wrote.keeps, fun o mem => (wrote.adds o mem).imp_right False.elim⟩
  | socketClose =>
      simp only [step, Connection.onSocketClose]
      split <;> exact ⟨fun _ mem => mem, fun _ mem => .inl mem⟩
  | destroy => exact ⟨fun _ mem => mem, fun _ mem => .inl mem⟩
  | broadcast t =>
      simp only [step, broadcast]
      split
      · have wrote := client.state.wrote_safeWrite results (.text t)
        exact ⟨wrote.keeps, fun o mem => (wrote.adds o mem).imp_right fun same => .inl ⟨t, rfl, same⟩⟩
      · exact ⟨fun _ mem => mem, fun _ mem => .inl mem⟩
  | serverClose =>
      simp only [step, serverClose]
      split
      · have wrote := client.state.wrote_sendCloseAndShutdown results 1001
          (jsString "gateway shutting down")
        exact ⟨wrote.keeps, fun o mem => (wrote.adds o mem).imp_right .inr⟩
      · exact ⟨fun _ mem => mem, fun _ mem => .inl mem⟩

/-- What was written stays written. -/
theorem keeps_step (client : WsClient) (e : Event) :
    ∀ o ∈ client.state.written, o ∈ (client.step results e).state.written := by
  by_cases data : ∃ chunk, e = .data chunk
  · obtain ⟨chunk, rfl⟩ := data
    exact (client.wrote_onData results chunk).keeps
  · exact (client.wrote_step e fun chunk same => data ⟨chunk, same⟩).1

theorem keeps_run (results : WriteResults) (earlier later : List Event) :
    ∀ o ∈ (run results earlier).state.written, o ∈ (run results (earlier ++ later)).state.written := by
  induction later using List.reverseRecOn with
  | nil => simp
  | append_singleton later e ih =>
      intro o mem
      rw [← List.append_assoc, run, List.foldl_concat, ← run]
      exact keeps_step _ e o (ih o mem)

/-- Whatever is written has a cause in the run. -/
theorem meant_run (results : WriteResults) (events : List Event) :
    ∀ o ∈ (run results events).state.written, Meant results events o := by
  induction events using List.reverseRecOn with
  | nil => exact fun _ mem => absurd mem List.not_mem_nil
  | append_singleton events e ih =>
      intro o mem
      rw [run, List.foldl_concat, ← run] at mem
      by_cases data : ∃ chunk, e = .data chunk
      · obtain ⟨chunk, rfl⟩ := data
        rcases ((run results events).wrote_onData results chunk).adds o mem with
          before | ⟨code, reason, rfl, closing⟩ | ⟨f, answers, rfl⟩
        · exact (ih o before).mono _
        · exact .close closing
        · exact .pong rfl answers
      · rcases (wrote_step _ e fun chunk same => data ⟨chunk, same⟩).2 o mem with
          before | ⟨t, rfl, rfl⟩ | rfl
        · exact (ih o before).mono _
        · exact .text (List.mem_append_right _ List.mem_cons_self)
        · exact .close (by decide)

/-- The answer to a PING is in what was written. -/
theorem AnswersPing.written {earlier later : List Event} {chunk : Bytes} {f : Frame}
    (answers : AnswersPing results (run results earlier) chunk f) :
    .pong f.payload ∈ (run results (earlier ++ .data chunk :: later)).state.written := by
  have now : .pong f.payload ∈ (run results (earlier ++ [.data chunk])).state.written := by
    rw [run, List.foldl_concat, ← run, step, state_onData answers.reads]
    exact Connection.pong_mem_handleAll answers.reads answers.alive answers.answered
  have kept := keeps_run results (earlier ++ [.data chunk]) later _ now
  rwa [List.append_assoc] at kept

/-- Every frame that was written is valid. -/
def AllValid (c : Connection) : Prop := ∀ o ∈ c.written, o.Valid

/-- No PING of the run that is answered has more than 125 bytes. -/
def SmallPings (results : WriteResults) (events : List Event) : Prop :=
  ∀ earlier chunk later f, events = earlier ++ .data chunk :: later →
    AnswersPing results (run results earlier) chunk f → f.payload.length ≤ 125

/-- Every frame a client is sent has a cause and carries what belongs to it; all are valid
exactly when no PING that is answered has more than 125 bytes. -/
theorem server_frames_valid (results : WriteResults) {events : List Event}
    (texts : ∀ t, .broadcast t ∈ events → (utf8 t).length < 2 ^ 53) :
    (∀ o ∈ (run results events).state.written, Meant results events o) ∧
      (AllValid (run results events).state ↔ SmallPings results events) := by
  refine ⟨meant_run results events, ?_, ?_⟩
  · rintro valid earlier chunk later f rfl answers
    exact (Outgoing.valid_pong_iff _).mp (valid _ answers.written)
  · intro small o mem
    cases meant_run results events o mem with
    | text sent => exact Outgoing.valid_text (texts _ sent)
    | pong arrived answers => exact (Outgoing.valid_pong_iff _).mpr (small _ _ _ _ arrived answers)
    | close closing => exact valid_closings closing

/-- A masked PING of `n` zeros, for `n` from 126 on. -/
def longPing (n : Nat) : Bytes :=
  [0x89, 0xFE] ++ beBytes 2 n ++ [1, 2, 3, 4] ++ (List.range n).map fun i => UInt8.ofNat (i % 4 + 1)

/-- A PING with a byte, after a broadcast. -/
theorem server_frames_valid_ping :
    AllValid (run (fun _ => some true) [.broadcast (jsString "hello"),
      .data [0x89, 0x81, 1, 2, 3, 4, 0]]).state := by
  refine (server_frames_valid (fun _ => some true) ?_).2.mpr ?_
  · intro t mem
    have only : t = jsString "hello" := by simpa using mem
    rw [only]
    decide
  · intro earlier chunk later f arrived answers
    match earlier with
    | [] => cases arrived
    | [_] =>
        cases arrived
        have one : Answered (fun _ => some true) 1 [.frame ⟨true, opcodePing, true, [1]⟩] f :=
          answers.answered
        cases one with
        | ping => decide
        | afterPing _ _ later => cases later
        | afterOther _ _ later => cases later
    | _ :: _ :: _ => simp at arrived

/-- The answer to a PING of 126 bytes: its length byte announces a longer length, and what the
client reads is an empty PONG and then the rest of the payload as frames. -/
theorem long_pong_misread :
    (run (fun _ => some true) [.data (longPing 126)]).state.written =
      [.pong (List.replicate 126 0)] ∧
    tryParseFrame (Outgoing.pong (List.replicate 126 0)).encode =
      some (.frame ⟨true, opcodePong, false, []⟩, 4) ∧
    ¬ AllValid (run (fun _ => some true) [.data (longPing 126)]).state := by
  have answered : (run (fun _ => some true) [.data (longPing 126)]).state.written =
      [.pong (List.replicate 126 0)] := by
    decide +kernel
  refine ⟨answered, by decide +kernel, ?_⟩
  intro valid
  have pong := valid (.pong (List.replicate 126 0)) (by rw [answered]; exact List.mem_cons_self)
  have small := (Outgoing.valid_pong_iff _).mp pong
  rw [List.length_replicate] at small
  exact absurd small (by decide)

end WsClient

end RoboticsIpc.WebSocketServer
