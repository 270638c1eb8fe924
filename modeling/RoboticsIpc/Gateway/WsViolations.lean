import RoboticsIpc.Gateway.WsServer

/-!
Frames against the protocol.

The header of `websocket_server.js` says that unmasked and fragmented data frames end the
connection with 1002, and a comment on the parser says so of every frame without a mask. The
loop looks for a data frame without a mask only. So a stream is treated as documented exactly
when the first frame against the protocol is such a frame (`violations_close_iff`). Another
one is answered like a legal frame: a PING gets its PONG, a CLOSE gets 1000, and a fragment is
dropped. A 1002 that no such frame explains is for a length that is too large.
-/

namespace RoboticsIpc.WebSocketServer

open ByteBuffer StreamReader

/-! ### The protocol -/

def Frame.isData (f : Frame) : Bool :=
  f.opcode == opcodeText || f.opcode == opcodeBinary || f.opcode == opcodeCont

/-- Without a mask, or a piece of a fragmented message. -/
def Frame.violates (f : Frame) : Bool :=
  !f.masked || (f.isData && (!f.fin || f.opcode == opcodeCont))

/-- In the stream, `f` is the first frame against the protocol. It ends where `upTo` ends, and
no frame before it is a CLOSE. -/
structure FirstViolation (stream upTo : Bytes) (before : List Frame) (f : Frame) : Prop where
  arrives : upTo <+: stream
  frames : Consists tryParseFrame upTo ((before ++ [f]).map .frame)
  legal : ∀ g ∈ before, g.violates = false ∧ g.opcode ≠ opcodeClose
  violates : f.violates = true

/-- After frames of which none is a CLOSE there is a header with a length above 2^53 - 1. -/
def ReachesTooLong (stream : Bytes) : Prop :=
  ∃ upTo more before, stream = upTo ++ more ∧ Consists tryParseFrame upTo (List.map .frame before) ∧
    (∀ g ∈ before, g.opcode ≠ opcodeClose) ∧ DeclaresTooLong more

/-- The answers to the PINGs among these frames. -/
def pongs (fs : List Frame) : List Outgoing :=
  (fs.filter fun f => f.opcode == opcodePing).map fun f => .pong f.payload

theorem pongs_ping {f : Frame} (isPing : f.opcode = opcodePing) (fs : List Frame) :
    pongs (f :: fs) = .pong f.payload :: pongs fs := by
  rw [pongs, List.filter_cons_of_pos (by simpa using isPing), List.map_cons, ← pongs]

theorem pongs_other {f : Frame} (other : f.opcode ≠ opcodePing) (fs : List Frame) :
    pongs (f :: fs) = pongs fs := by
  rw [pongs, List.filter_cons_of_neg (by simpa using other), ← pongs]

/-- A connection that the server ended after it wrote this. -/
def closedAfter (written : List Outgoing) : Connection :=
  { closed := true, registered := false, ended := true, written := written }

/-- The first frame against the protocol closes the connection with 1002, not earlier and with
nothing written later, however the stream is cut. Without one, 1002 is for a length. -/
structure ViolationsClose (results : WriteResults) (stream : Bytes) : Prop where
  untilThen : ∀ {upTo before f}, FirstViolation stream upTo before f →
    ∀ chunks : List Bytes, chunks.flatten <+: stream → ¬ upTo <+: chunks.flatten →
      (chunks.foldl (WsClient.onData results) .new).state.closed = false
  fromThen : ∀ {upTo before f}, FirstViolation stream upTo before f →
    ∀ chunks : List Bytes, chunks.flatten <+: stream → upTo <+: chunks.flatten →
      ∃ reason, (chunks.foldl (WsClient.onData results) .new).state =
        closedAfter (pongs before ++ [.close 1002 reason])
  otherwise : (∀ upTo before f, ¬ FirstViolation stream upTo before f) →
    ∀ chunks : List Bytes, chunks.flatten = stream → ∀ reason,
      .close 1002 reason ∈ (chunks.foldl (WsClient.onData results) .new).state.written →
        ReachesTooLong stream

/-! ### The first violation -/

theorem Frame.violates_of_isBareData {f : Frame} (bare : f.isBareData = true) :
    f.violates = true := by
  rw [violates, (Bool.and_eq_true_iff.mp bare).1, Bool.true_or]

theorem goesOn_frames {fs : List Frame} : ∀ p ∈ fs.map Parsed.frame, ¬ p.IsError := by
  rintro p mem ⟨reason, rfl⟩
  obtain ⟨f, -, ⟨⟩⟩ := List.mem_map.mp mem

/-- Legal frames do not close the connection. -/
theorem FirstViolation.stay {stream upTo : Bytes} {before : List Frame} {f : Frame}
    (first : FirstViolation stream upTo before f) :
    ∀ g ∈ before, (Parsed.frame g).closes = false := by
  intro g mem
  obtain ⟨legal, notClose⟩ := first.legal g mem
  rw [Parsed.closes, Bool.or_eq_false_iff]
  refine ⟨?_, by simpa using notClose⟩
  by_contra bare
  rw [Frame.violates_of_isBareData (by simpa using bare)] at legal
  cases legal

/-- Where some frame violates the protocol, one is the first. -/
theorem exists_firstViolation {stream upTo : Bytes} {fs : List Frame} (arrives : upTo <+: stream)
    (frames : Consists tryParseFrame upTo (fs.map .frame))
    (notClose : ∀ g ∈ fs, g.opcode ≠ opcodeClose) (some : ∃ f ∈ fs, f.violates = true) :
    ∃ upTo before f, FirstViolation stream upTo before f := by
  obtain ⟨f, found⟩ : ∃ f, fs.find? Frame.violates = .some f := by
    rw [← Option.isSome_iff_exists, List.find?_isSome]
    exact some
  obtain ⟨violates, before, later, rfl, legal⟩ := List.find?_eq_some_iff_append.mp found
  have shape : (before ++ f :: later).map Parsed.frame =
      (before ++ [f]).map .frame ++ later.map .frame := by
    rw [← List.map_append, List.append_assoc]
    rfl
  rw [shape] at frames
  obtain ⟨front, rest, rfl, first, -⟩ := frames.split
  refine ⟨front, before, f, (List.prefix_append _ _).trans arrives, first, ?_, violates⟩
  intro g mem
  exact ⟨by simpa using legal g mem, notClose g (List.mem_append_left _ mem)⟩

/-! ### The loop over such frames -/

namespace Connection

variable {results : WriteResults} {c : Connection}

/-- Frames that do not close the connection are answered by PONGs. -/
theorem handleAll_stay (reads : c.closed = false) (alive : c.destroyed = false) {fs : List Frame}
    (stay : ∀ f ∈ fs, (Parsed.frame f).closes = false)
    (works : ∀ n < (pongs fs).length, results (c.written.length + n) ≠ none) :
    handleAll (handler results) c (fs.map .frame) =
      { c with written := c.written ++ pongs fs } := by
  induction fs generalizing c with
  | nil =>
      have none : pongs [] = [] := rfl
      rw [none, List.append_nil]
      rfl
  | cons f fs ih =>
      have later : ∀ g ∈ fs, (Parsed.frame g).closes = false :=
        fun g mem => stay g (List.mem_cons_of_mem _ mem)
      rw [List.map_cons, handleAll_cons reads, handle_handler]
      by_cases isPing : f.opcode = opcodePing
      · rw [pongs_ping isPing] at works ⊢
        have now : results c.written.length ≠ none := works 0 (Nat.succ_pos _)
        rw [onParsed_ping results c isPing, safeWrite_works reads alive now]
        refine (ih (c := { c with written := c.written ++ [.pong f.payload] }) reads alive later
          ?_).trans ?_
        · intro n inside
          have next := works (n + 1) (Nat.succ_lt_succ inside)
          rw [List.length_append, List.length_singleton]
          rwa [Nat.add_comm n 1, ← Nat.add_assoc] at next
        · rw [List.append_assoc]
          rfl
      · rw [pongs_other isPing] at works ⊢
        rw [onParsed_other results c (stay f List.mem_cons_self) isPing]
        exact ih reads alive later works

/-- A PONG that throws ends the connection. -/
theorem handleAll_throws (alive : c.destroyed = false) {fs : List Frame}
    (stay : ∀ f ∈ fs, (Parsed.frame f).closes = false) {n : Nat} (inside : n < (pongs fs).length)
    (throws : results (c.written.length + n) = none) :
    (handleAll (handler results) c (fs.map .frame)).closed = true := by
  induction fs generalizing c n with
  | nil => exact absurd inside (Nat.not_lt_zero _)
  | cons f fs ih =>
      have later : ∀ g ∈ fs, (Parsed.frame g).closes = false :=
        fun g mem => stay g (List.mem_cons_of_mem _ mem)
      cases reads : c.closed with
      | true =>
          rw [handleAll_stopped reads]
          exact reads
      | false =>
          rw [List.map_cons, handleAll_cons reads, handle_handler]
          by_cases isPing : f.opcode = opcodePing
          · rw [pongs_ping isPing, List.length_cons] at inside
            rw [onParsed_ping results c isPing]
            by_cases now : results c.written.length = none
            · have stopped := (safeWrite_throws reads alive (o := .pong f.payload) now).1
              rw [handleAll_stopped stopped]
              exact stopped
            · obtain ⟨m, rfl⟩ : ∃ m, n = m + 1 := by
                apply Nat.exists_eq_succ_of_ne_zero
                rintro rfl
                exact now throws
              rw [safeWrite_works reads alive now]
              apply ih (c := { c with written := c.written ++ [.pong f.payload] }) alive later
                (Nat.lt_of_succ_lt_succ inside)
              rw [List.length_append, List.length_singleton, Nat.add_assoc, Nat.add_comm 1 m]
              exact throws
          · rw [pongs_other isPing] at inside
            rw [onParsed_other results c (stay f List.mem_cons_self) isPing]
            exact ih alive later inside throws

/-- On an open connection a CLOSE is passed on, whether or not writing it succeeds. -/
theorem sendCloseAndShutdown_open (reads : c.closed = false) (alive : c.destroyed = false)
    (code : UInt16) (reason : JsString) :
    c.sendCloseAndShutdown results code reason =
      { c with
        closed := true, registered := false, ended := true,
        written := c.written ++ [.close code reason] } := by
  rw [sendCloseAndShutdown, if_neg (by simp [reads]), safeWrite, reads, alive]
  simp only [Bool.or_self, Bool.false_eq_true, if_false]
  cases results c.written.length with
  | none => simp only [onError, shutdown, Bool.false_eq_true, if_false, if_true]
  | some more => simp only [shutdown, Bool.false_eq_true, if_false]

/-- The results that are answered with 1002. -/
inductive Answers1002 : Parsed → Prop where
  | error (reason : JsString) : Answers1002 (.protocolError reason)
  | bareData {f : Frame} (bare : f.isBareData = true) : Answers1002 (.frame f)

/-- The first of these results that closes the connection is answered with 1002. -/
def Causes1002 (ps : List Parsed) : Prop :=
  ∃ before p later, ps = List.map .frame before ++ p :: later ∧
    (∀ g ∈ before, (Parsed.frame g).closes = false) ∧ Answers1002 p

theorem Answers1002.causes {p : Parsed} (answers : Answers1002 p) (ps : List Parsed) :
    Causes1002 (p :: ps) :=
  ⟨[], p, ps, rfl, nofun, answers⟩

theorem Causes1002.cons {ps : List Parsed} (causes : Causes1002 ps) {f : Frame}
    (stays : (Parsed.frame f).closes = false) : Causes1002 (.frame f :: ps) := by
  obtain ⟨before, p, later, rfl, stay, answers⟩ := causes
  exact ⟨f :: before, p, later, rfl, List.forall_mem_cons.mpr ⟨stays, stay⟩, answers⟩

theorem causes1002 {ps : List Parsed} {reason : JsString} (new : .close 1002 reason ∉ c.written)
    (sent : .close 1002 reason ∈ (handleAll (handler results) c ps).written) : Causes1002 ps := by
  induction ps generalizing c with
  | nil => exact absurd sent new
  | cons p ps ih =>
      cases reads : c.closed with
      | true =>
          rw [handleAll_stopped reads] at sent
          exact absurd sent new
      | false =>
          rw [handleAll_cons reads, handle_handler] at sent
          cases p with
          | protocolError reason => exact (Answers1002.error reason).causes ps
          | frame f =>
              by_cases bare : f.isBareData = true
              · exact (Answers1002.bareData bare).causes ps
              by_cases close : f.opcode = opcodeClose
              · rw [onParsed, if_neg bare, if_pos close,
                  handleAll_stopped (c.closed_sendCloseAndShutdown 1000 [])] at sent
                rcases (c.wrote_sendCloseAndShutdown results 1000 []).adds _ sent with
                  before | other
                · exact absurd before new
                · cases other
              have stays : (Parsed.frame f).closes = false := by
                simp [Parsed.closes, bare, close]
              by_cases isPing : f.opcode = opcodePing
              · rw [onParsed_ping results c isPing] at sent
                refine (ih ?_ sent).cons stays
                intro already
                rcases (c.wrote_safeWrite results _).adds _ already with before | other
                · exact new before
                · cases other
              · rw [onParsed_other results c stays isPing] at sent
                exact (ih new sent).cons stays

/-- Without such a result there is no 1002. -/
theorem no_close1002 (results : WriteResults) {fs : List Frame}
    (stay : ∀ f ∈ fs, (Parsed.frame f).closes = false) {reason : JsString}
    (new : .close 1002 reason ∉ c.written) :
    .close 1002 reason ∉ (handleAll (handler results) c (fs.map .frame)).written := by
  intro sent
  obtain ⟨before, p, later, split, -, answers⟩ := causes1002 new sent
  have mem : p ∈ fs.map Parsed.frame := by
    rw [split]
    exact List.mem_append_right _ List.mem_cons_self
  obtain ⟨f, inside, rfl⟩ := List.mem_map.mp mem
  have stays := (Bool.or_eq_false_iff.mp (stay f inside)).1
  cases answers with
  | bareData bare =>
      rw [bare] at stays
      cases stays

end Connection

/-! ### Streams -/

namespace WsClient

variable {results : WriteResults} {stream upTo : Bytes} {before : List Frame} {f : Frame}

/-- Chunk by chunk, the loop handles what the stream holds. -/
theorem state_chunks (results : WriteResults) (chunks : List Bytes) :
    (chunks.foldl (onData results) new).state =
      handleAll (handler results) {} (items tryParseFrame chunks.flatten) :=
  incremental_tryParseFrame.state_feedAll stops_handler rfl {} chunks

/-- Before the violation has arrived the connection is open, if every PONG could be written. -/
theorem open_before (first : FirstViolation stream upTo before f)
    (works : ∀ n < (pongs before).length, results n ≠ none) {chunks : List Bytes}
    (part : chunks.flatten <+: stream) (missing : ¬ upTo <+: chunks.flatten) :
    (chunks.foldl (onData results) new).state.closed = false := by
  have inside : chunks.flatten <+: upTo :=
    (List.prefix_or_prefix_of_prefix part first.arrives).resolve_right missing
  have other : chunks.flatten ≠ upTo := fun same => missing (same ▸ List.prefix_rfl)
  obtain ⟨k, few, arrived⟩ :=
    incremental_tryParseFrame.items_prefix first.frames goesOn_frames inside other
  have most : k ≤ before.length := by
    rw [List.length_map, List.length_append, List.length_singleton] at few
    omega
  have fewer : (pongs (before.take k)).length ≤ (pongs before).length := by
    rw [pongs, pongs, List.length_map, List.length_map]
    exact ((List.take_sublist k before).filter _).length_le
  rw [state_chunks, arrived, ← List.map_take, List.take_append_of_le_length most,
    Connection.handleAll_stay rfl rfl]
  · exact fun g mem => first.stay g (List.mem_of_mem_take mem)
  · intro n below
    have works := works n (Nat.lt_of_lt_of_le below fewer)
    rwa [← Nat.zero_add n] at works

/-- When a data frame without a mask has arrived the connection is closed. -/
theorem closed_after (first : FirstViolation stream upTo before f) (bare : f.isBareData = true)
    (works : ∀ n < (pongs before).length, results n ≠ none) {chunks : List Bytes}
    (there : upTo <+: chunks.flatten) :
    (chunks.foldl (onData results) new).state =
      closedAfter (pongs before ++ [.close 1002 (jsString "unmasked client data frame")]) := by
  obtain ⟨more, whole⟩ := there
  have works' : ∀ n < (pongs before).length, results (0 + n) ≠ none := by
    intro n below
    rw [Nat.zero_add]
    exact works n below
  rw [state_chunks, ← whole,
    incremental_tryParseFrame.items_append first.frames goesOn_frames, List.map_append,
    List.append_assoc, handleAll_append, Connection.handleAll_stay rfl rfl first.stay works',
    List.map_singleton, List.singleton_append, handleAll_cons rfl, Connection.handle_handler,
    Connection.onParsed, if_pos bare, Connection.sendCloseAndShutdown_open rfl rfl,
    handleAll_stopped rfl]
  rfl

/-- Where the violation is not such a frame, or an answer before it throws, it is not what
closes the connection with 1002. -/
theorem condition_of_closed (first : FirstViolation stream upTo before f) {reason : JsString}
    (sent : .close 1002 reason ∈ (onData results new upTo).state.written) :
    f.isBareData = true ∧ ∀ n < (pongs before).length, results n ≠ none := by
  have arrived : items tryParseFrame upTo = before.map .frame ++ [.frame f] := by
    have whole := incremental_tryParseFrame.items_append first.frames goesOn_frames []
    have nothing : items tryParseFrame [] = [] := items_none rfl
    rw [List.append_nil, nothing, List.append_nil, List.map_append] at whole
    exact whole
  have state := state_chunks results [upTo]
  rw [List.foldl_cons, List.foldl_nil, List.flatten_singleton, arrived] at state
  rw [state] at sent
  have none : .close 1002 reason ∉
      (handleAll (handler results) {} (before.map .frame)).written :=
    Connection.no_close1002 results first.stay List.not_mem_nil
  constructor
  · rw [handleAll_append] at sent
    obtain ⟨earlier, p, later, split, -, answers⟩ := Connection.causes1002 none sent
    have only : p = .frame f := by
      apply List.mem_singleton.mp
      rw [split]
      exact List.mem_append_right _ List.mem_cons_self
    rw [only] at answers
    cases answers with
    | bareData bare => exact bare
  · intro n below throws
    have stopped := Connection.handleAll_throws (c := {}) rfl first.stay below
      (by rwa [← Nat.zero_add n] at throws)
    rw [handleAll_append, handleAll_stopped stopped] at sent
    exact none sent

/-- A 1002 without a violation is for a length. -/
theorem reachesTooLong_of_close1002
    (legal : ∀ upTo before f, ¬ FirstViolation stream upTo before f) {chunks : List Bytes}
    (whole : chunks.flatten = stream) {reason : JsString}
    (sent : .close 1002 reason ∈ (chunks.foldl (onData results) new).state.written) :
    ReachesTooLong stream := by
  rw [state_chunks, whole] at sent
  obtain ⟨before, p, later, split, stay, answers⟩ :=
    Connection.causes1002 List.not_mem_nil sent
  obtain ⟨front, rest, rfl, pieces, behind⟩ :=
    incremental_tryParseFrame.consists_of_items exact_tryParseFrame split goesOn_frames
  obtain ⟨used, found, -⟩ := incremental_tryParseFrame.of_items_cons behind
  have notClose : ∀ g ∈ before, g.opcode ≠ opcodeClose := by
    intro g mem
    simpa using (Bool.or_eq_false_iff.mp (stay g mem)).2
  cases answers with
  | error reason =>
      exact ⟨front, rest, before, rfl, pieces, notClose, (tryParseFrame_error found).1⟩
  | @bareData f bare =>
      have fits := (tryParseFrame_uses found).2
      have item : Consists tryParseFrame (rest.take used) [.frame f] := by
        have length : (rest.take used).length = used := by
          rw [List.length_take, Nat.min_eq_left fits]
        rw [← List.append_nil (rest.take used)]
        refine .cons (exact_tryParseFrame (rest.drop used) ?_ ?_) .nil
        · rw [List.take_append_drop, length]
          exact found
        · rintro ⟨reason, ⟨⟩⟩
      have frames : Consists tryParseFrame (front ++ rest.take used)
          ((before ++ [f]).map .frame) := by
        rw [List.map_append]
        exact pieces.append item
      have arrives : front ++ rest.take used <+: front ++ rest :=
        (List.prefix_append_right_inj front).mpr (List.take_prefix used rest)
      have last : f.opcode ≠ opcodeClose := by
        intro close
        rw [Frame.isBareData, close] at bare
        exact absurd (Bool.and_eq_true_iff.mp bare).2 (by decide)
      obtain ⟨upTo, before', g, first⟩ := exists_firstViolation arrives frames
        (List.forall_mem_append.mpr ⟨notClose, by simpa using last⟩)
        ⟨f, List.mem_append_right _ List.mem_cons_self, Frame.violates_of_isBareData bare⟩
      exact absurd first (legal upTo before' g)

theorem condition_of_violationsClose (closes : ViolationsClose results stream)
    (first : FirstViolation stream upTo before f) :
    f.isBareData = true ∧ ∀ n < (pongs before).length, results n ≠ none := by
  have whole : [upTo].flatten = upTo := List.flatten_singleton
  have there : upTo <+: [upTo].flatten := ⟨[], by rw [List.append_nil, whole]⟩
  have part : [upTo].flatten <+: stream := by
    rw [whole]
    exact first.arrives
  obtain ⟨reason, state⟩ := closes.fromThen first [upTo] part there
  have sent : .close 1002 reason ∈ (onData results new upTo).state.written := by
    change _ ∈ ([upTo].foldl (onData results) new).state.written
    rw [state]
    exact List.mem_append_right _ List.mem_cons_self
  exact condition_of_closed first sent

/-- A stream is treated as documented exactly when its first frame against the protocol, if it
has one, is a data frame without a mask and no PONG in front of it throws. -/
theorem violations_close_iff (results : WriteResults) (stream : Bytes) :
    ViolationsClose results stream ↔
      ∀ upTo before f, FirstViolation stream upTo before f →
        f.isBareData = true ∧ ∀ n < (pongs before).length, results n ≠ none := by
  constructor
  · intro closes upTo before f first
    exact condition_of_violationsClose closes first
  · intro condition
    refine ⟨?_, ?_, ?_⟩
    · intro upTo before f first chunks part missing
      exact open_before first (condition _ _ _ first).2 part missing
    · intro upTo before f first chunks _ there
      obtain ⟨bare, works⟩ := condition _ _ _ first
      exact ⟨_, closed_after first bare works there⟩
    · intro legal chunks whole reason sent
      exact reachesTooLong_of_close1002 legal whole sent

/-- A frame by itself that violates the protocol in another way. -/
theorem violation_missed (found : tryParseFrame stream = some (.frame f, stream.length))
    (violates : f.violates = true) (other : f.isBareData = false) :
    ¬ ViolationsClose results stream := by
  intro closes
  have frames : Consists tryParseFrame stream (([] ++ [f]).map .frame) := by
    rw [← List.append_nil stream]
    exact .cons found .nil
  have first : FirstViolation stream stream [] f :=
    ⟨List.prefix_rfl, frames, fun _ mem => absurd mem List.not_mem_nil, violates⟩
  rw [(condition_of_violationsClose closes first).1] at other
  cases other

/-- A PING without a mask gets its PONG and a CLOSE without a mask 1000; the first half of a
text, with a mask, is dropped. -/
theorem violations_missed :
    (onData (fun _ => some true) new [0x89, 0x00]).state = { written := [.pong []] } ∧
    (onData (fun _ => some true) new [0x88, 0x00]).state = closedAfter [.close 1000 []] ∧
    (onData (fun _ => some true) new [0x01, 0x81, 1, 2, 3, 4, 0x69]).state = {} ∧
    ∀ stream ∈ [[0x89, 0x00], [0x88, 0x00], [0x01, 0x81, 1, 2, 3, 4, 0x69]],
      ¬ ViolationsClose (fun _ => some true) stream := by
  refine ⟨by decide, by decide, by decide, ?_⟩
  intro stream mem
  simp only [List.mem_cons, List.not_mem_nil, or_false] at mem
  rcases mem with rfl | rfl | rfl
  · exact violation_missed (f := ⟨true, opcodePing, false, []⟩) rfl rfl rfl
  · exact violation_missed (f := ⟨true, opcodeClose, false, []⟩) rfl rfl rfl
  · exact violation_missed (f := ⟨false, opcodeText, true, [0x68]⟩) rfl rfl rfl

end WsClient

end RoboticsIpc.WebSocketServer
