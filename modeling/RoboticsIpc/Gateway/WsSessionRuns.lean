import RoboticsIpc.Gateway.WsSession

/-!
Whole sessions.

`SessionInv` joins the two sides: what the server has written is what the client has received and
what is under way, and the other way round. Every step keeps it (`SessionInv.step`), and the two
results about runs are read off it.
-/

namespace RoboticsIpc.WsSession

open ByteBuffer StreamReader StreamPipe StepRun WebSocketServer WsTestClient

/-! ### The invariant -/

variable {sha1 : Bytes → Bytes} {random : { b : Bytes // b.length = 16 }} {exitAfter : Nat}
  {masks : Nat → Mask} {accepts : Nat → Bool}

/-- A session in which the server has sent `texts` and then `closing`. -/
structure Joined (accept : Bytes) (exitAfter : Nat) (masks : Nat → Mask) (texts : List JsString)
    (closing : List Outgoing) (s : Session) : Prop where
  server : ServerInv s.offered texts closing s.lost s.toServer.arrived s.server
  client : ClientInv exitAfter masks accept texts s.toClient.arrived s.client
  down : s.toClient.Carries
    (response accept ++ s.server.state.written.flatMap Outgoing.encode)
  up : s.toServer.Carries s.client.state.written.flatten
  small : ∀ t ∈ s.offered, (utf8 t).length < 2 ^ 53
  both : s.toServer.severed = s.lost
  exited : ∀ code, s.exited = some code → code = 0 ∨ s.lost = true

def SessionInv (accept : Bytes) (exitAfter : Nat) (masks : Nat → Mask) (s : Session) : Prop :=
  ∃ texts closing, Joined accept exitAfter masks texts closing s

variable {accept : Bytes} {texts : List JsString} {closing : List Outgoing} {s s' : Session}

theorem Joined.valid (inv : Joined accept exitAfter masks texts closing s) :
    ∀ o ∈ texts.map Outgoing.text ++ closing, o.Valid := by
  intro o mem
  rcases List.mem_append.mp mem with text | last
  · obtain ⟨t, sent, rfl⟩ := List.mem_map.mp text
    exact Outgoing.valid_text (inv.small t (inv.server.inOrder.subset sent))
  · have ends : o ∈ endings := by
      rcases inv.server.ending with rfl | ⟨last', mem', rfl⟩
      · cases last
      · rw [List.mem_singleton.mp last]
        exact mem'
    have closings' : ∀ o ∈ endings, o ∈ closings.map fun c => Outgoing.close c.1 c.2 := by decide
    obtain ⟨⟨code, reason⟩, known, rfl⟩ := List.mem_map.mp (closings' o ends)
    exact valid_closings known

/-- The server has done something. -/
theorem Joined.serve (inv : Joined accept exitAfter masks texts closing s) {server : WsClient}
    (grows : s.server.state.written <+: server.state.written) {offered texts' : List JsString}
    {closing' : List Outgoing} (more : texts <+: texts') {seen : Pipe UInt8}
    (after : ServerInv offered texts' closing' s.lost seen.arrived server)
    (up : seen.Carries s.client.state.written.flatten) (severed : seen.severed = s.toServer.severed)
    (small : ∀ t ∈ offered, (utf8 t).length < 2 ^ 53) :
    Joined accept exitAfter masks texts' closing'
      { s.serve server with offered, toServer := seen } := by
  obtain ⟨added, whole⟩ := grows
  have pushed : encodeFrom s.server.state.written.length server.state.written =
      added.flatMap Outgoing.encode := by
    rw [encodeFrom, ← whole, List.drop_left]
  have lost : (s.toClient.push (added.flatMap Outgoing.encode)).severed = s.toClient.severed :=
    Pipe.severed_push _ _
  refine ⟨?_, ?_, ?_, up, small, ?_, ?_⟩
  · dsimp only [Session.lost, Session.serve] at after ⊢
    rw [pushed, lost]
    exact after
  · dsimp only [Session.serve]
    rw [Pipe.arrived_push]
    exact inv.client.mono more
  · dsimp only [Session.serve]
    rw [pushed, ← whole, List.flatMap_append, ← List.append_assoc]
    exact inv.down.push _
  · dsimp only [Session.serve, Session.lost]
    rw [pushed, lost]
    exact severed.trans inv.both
  · dsimp only [Session.serve, Session.lost]
    rw [pushed, lost]
    exact inv.exited

/-- The client has done something. -/
theorem Joined.react (inv : Joined accept exitAfter masks texts closing s) {client : Client}
    {down : Pipe UInt8} (after : ClientInv exitAfter masks accept texts down.arrived client)
    (grows : s.client.state.written <+: client.state.written)
    (carries : down.Carries (response accept ++ s.server.state.written.flatMap Outgoing.encode))
    (severed : down.severed = s.toClient.severed) :
    Joined accept exitAfter masks texts closing { s.react client with toClient := down } := by
  obtain ⟨added, whole⟩ := grows
  have pushed : (client.state.written.drop s.client.state.written.length).flatten =
      added.flatten := by
    rw [← whole, List.drop_left]
  refine ⟨?_, after, carries, ?_, inv.small, ?_, ?_⟩
  · dsimp only [Session.lost, Session.react]
    rw [severed, Pipe.arrived_push]
    exact inv.server
  · dsimp only [Session.react]
    rw [pushed, ← whole, List.flatten_append]
    exact inv.up.push _
  · dsimp only [Session.lost, Session.react]
    rw [severed, Pipe.severed_push]
    exact inv.both
  · dsimp only [Session.lost, Session.react]
    rw [severed]
    exact inv.exited

/-- What the client writes on a chunk comes after what it wrote before. -/
theorem Joined.grows (inv : Joined accept exitAfter masks texts closing s) (chunk : Bytes) :
    s.client.state.written <+:
      (s.client.onData exitAfter masks accept chunk).state.written := by
  rcases inv.client.written with nothing | ⟨shown, -, left⟩
  · rw [nothing]
    exact List.nil_prefix
  · exact ⟨[], by rw [left.written, (left.onData chunk).written, List.append_nil]⟩

theorem Joined.exits (inv : Joined accept exitAfter masks texts closing s) {code : Nat}
    (fine : code = 0 ∨ s.lost = true) :
    Joined accept exitAfter masks texts closing { s with exited := some code } := by
  refine ⟨inv.server, inv.client, inv.down, inv.up, inv.small, inv.both, ?_⟩
  intro code' same
  rw [← Option.some.inj same]
  exact fine

/-- A client that has everything and still reads has printed all and has seen no closing frame. -/
theorem Joined.caught_up (inv : Joined accept exitAfter masks texts closing s)
    (stands : s.lost = false) (empty : s.toClient.inFlight = [])
    (reads : s.client.state.exiting = none) :
    closing = [] ∧ s.client.state.printed = texts.map utf8 := by
  have arrived := inv.down.arrived_eq stands empty
  rw [inv.server.written] at arrived
  have client := inv.client
  generalize s.client = client' at client reads
  generalize s.toClient.arrived = bytes at client arrived
  cases client with
  | opening part missing =>
      rw [arrived] at part missing
      have all := part.eq_of_length_le (by rw [List.length_append]; exact Nat.le_add_right _ _)
      exact absurd all missing
  | reading split state first showing =>
      rw [split, List.append_right_inj] at arrived
      have progress := progress_read exitAfter masks inv.server.ending inv.valid
        ⟨[], (List.append_nil _).trans arrived⟩
      rw [← state] at progress
      cases progress with
      | showing _ all whole =>
          obtain ⟨rfl, nothing⟩ := whole arrived
          exact ⟨nothing, all.printed⟩
      | left _ left =>
          rw [left.exiting] at reads
          cases reads
  | leaving first left =>
      rw [left.exiting] at reads
      cases reads

/-- The end of the server's stream comes after its closing frame. -/
theorem Joined.leaves (inv : Joined accept exitAfter masks texts closing s) (stands : s.lost = false)
    (ended : s.server.state.ended = true) (empty : s.toClient.inFlight = []) :
    s.client.state.exiting ≠ none := by
  intro reads
  obtain ⟨closes, -⟩ := (inv.server.gone (inv.server.ends ended)).2 stands
  exact closes (inv.caught_up stands empty reads).1

/-- The server's socket is lost. -/
theorem Joined.hangUp (inv : Joined accept exitAfter masks texts closing s) (lost : s.lost = true)
    {c : Connection} (written : c.written = s.server.state.written)
    (destroyed : s.server.state.destroyed = true → c.destroyed = true)
    (fate : c.closed = s.server.state.closed ∧ c.registered = s.server.state.registered ∧
        c.ended = s.server.state.ended ∨
      c.closed = true ∧ c.registered = false) :
    Joined accept exitAfter masks texts closing (s.serve ⟨c, s.server.buf⟩) := by
  have server := inv.server
  rw [lost] at server
  have after := server.hangUp written destroyed fate
  rw [← lost] at after
  exact inv.serve (written ▸ List.prefix_refl _) (List.prefix_refl _) after inv.up rfl inv.small

/-! One lemma for each act. -/

theorem Joined.broadcast (inv : Joined accept exitAfter masks texts closing s)
    (accepts : Nat → Bool) {t : JsString} (small : (utf8 t).length < 2 ^ 53) :
    ∃ texts', Joined accept exitAfter masks texts' closing
      { s.serve (s.server.step (fun n => some (accepts n)) (.broadcast t)) with
        offered := s.offered ++ [t] } := by
  have works : ∀ n, (fun n => some (accepts n)) n ≠ none := fun n => Option.some_ne_none _
  obtain ⟨texts', more, after⟩ := inv.server.broadcast works t
  have small' : ∀ t' ∈ s.offered ++ [t], (utf8 t').length < 2 ^ 53 := by
    intro t' mem
    rcases List.mem_append.mp mem with old | new
    · exact inv.small t' old
    · rw [List.mem_singleton.mp new]
      exact small
  exact ⟨texts', inv.serve (later_step _ _).written more after inv.up rfl small'⟩

theorem Joined.stop (inv : Joined accept exitAfter masks texts closing s) (accepts : Nat → Bool) :
    ∃ closing', Joined accept exitAfter masks texts closing'
      (s.serve (s.server.step (fun n => some (accepts n)) .serverClose)) := by
  obtain ⟨closing', after⟩ := inv.server.serverClose fun n => some (accepts n)
  exact ⟨closing', inv.serve (later_step _ _).written (List.prefix_refl _) after inv.up rfl
    inv.small⟩

/-- Bytes arrive at the client. -/
theorem Joined.toClient (inv : Joined accept exitAfter masks texts closing s)
    (graphic : ∀ c ∈ accept, isSpace c = false) (some : accept ≠ []) (n : Nat) :
    Joined accept exitAfter masks texts closing
      { s.react (s.client.onData exitAfter masks accept (s.toClient.inFlight.take n)) with
        toClient := s.toClient.deliver n } := by
  have arrived : s.toClient.arrived ++ s.toClient.inFlight.take n =
      (s.toClient.deliver n).arrived := rfl
  have down := inv.down.deliver n
  have part := down.inOrder
  rw [inv.server.written, ← arrived] at part
  have after := inv.client.onData graphic some inv.server.ending inv.valid part
  exact inv.react after (inv.grows _) down rfl

/-- What has come from the client is part of its closing frame. -/
theorem Joined.toServer (inv : Joined accept exitAfter masks texts closing s)
    (accepts : Nat → Bool) (n : Nat) : ∃ closing', Joined accept exitAfter masks texts closing'
      { s.serve (s.server.step (fun n => some (accepts n)) (.data (s.toServer.inFlight.take n)))
        with toServer := s.toServer.deliver n } := by
  have up := inv.up.deliver n
  have part : s.toServer.arrived ++ s.toServer.inFlight.take n <+: closeFrame (masks 0) := by
    rcases inv.client.written with nothing | ⟨shown, -, left⟩
    · have order := up.inOrder
      rw [nothing, List.flatten_nil] at order
      exact order.trans List.nil_prefix
    · have order := up.inOrder
      rwa [left.written, List.flatten_singleton] at order
  obtain ⟨closing', after⟩ := inv.server.onData (fun n => some (accepts n)) part
  exact ⟨closing', inv.serve (later_step _ _).written (List.prefix_refl _) after up rfl inv.small⟩

theorem Joined.signal (inv : Joined accept exitAfter masks texts closing s) :
    Joined accept exitAfter masks texts closing
      (s.react ⟨s.client.state.exit masks 0, s.client.buf⟩) := by
  have grows : s.client.state.written <+: (s.client.state.exit masks 0).written := by
    rcases inv.client.written with nothing | ⟨shown, -, left⟩
    · rw [nothing]
      exact List.nil_prefix
    · exact ⟨[], by rw [exit_leaving left.exiting, List.append_nil]⟩
  exact inv.react inv.client.signal grows inv.down rfl

/-- A client that takes its leave does so with 0. -/
theorem Joined.timer (inv : Joined accept exitAfter masks texts closing s) {code : Nat}
    (exiting : s.client.state.exiting = some code) :
    Joined accept exitAfter masks texts closing { s with exited := some code } := by
  have zero : code = 0 := by
    have client := inv.client
    generalize s.client = client' at client exiting
    cases client with
    | opening => cases exiting
    | reading _ _ _ showing =>
        rw [showing.reads] at exiting
        cases exiting
    | leaving _ left =>
        rw [left.exiting] at exiting
        exact (Option.some.inj exiting).symm
  exact inv.exits (.inl zero)

/-- Where the client still reads, its socket closes only because the connection is lost. -/
theorem Joined.clientClose (inv : Joined accept exitAfter masks texts closing s)
    (closes : s.lost = true ∨ s.server.state.ended = true ∧ s.toClient.inFlight = [])
    (reading : s.client.state.exiting = none) {code : Nat} :
    Joined accept exitAfter masks texts closing { s with exited := some code } := by
  rcases closes with lost | ⟨ended, empty⟩
  · exact inv.exits (.inr lost)
  · cases stands : s.lost with
    | true => exact inv.exits (.inr stands)
    | false => exact absurd reading (inv.leaves stands ended empty)

theorem Joined.lose (inv : Joined accept exitAfter masks texts closing s) :
    Joined accept exitAfter masks texts closing
      { s with toClient := s.toClient.sever, toServer := s.toServer.sever } := by
  have server := inv.server
  refine ⟨⟨server.written, server.inOrder, server.current, server.ending, server.reads,
    fun closed => ⟨(server.gone closed).1, fun stands => ?_⟩, server.ends, fun stands => ?_⟩,
    inv.client, inv.down.sever, inv.up.sever, inv.small, rfl, fun _ _ => .inr rfl⟩
  · exact absurd stands Bool.noConfusion
  · exact absurd stands Bool.noConfusion

theorem Joined.serverError (inv : Joined accept exitAfter masks texts closing s)
    (lost : s.lost = true) (results : WriteResults) :
    Joined accept exitAfter masks texts closing (s.serve (s.server.step results .error)) := by
  rw [WsClient.step, Connection.onError, Connection.shutdown]
  split
  · exact inv.hangUp lost rfl id (.inl ⟨rfl, rfl, rfl⟩)
  · exact inv.hangUp lost rfl id (.inr ⟨rfl, rfl⟩)

theorem Joined.serverClose (inv : Joined accept exitAfter masks texts closing s)
    (lost : s.lost = true) (results : WriteResults) :
    Joined accept exitAfter masks texts closing (s.serve (s.server.step results .socketClose)) := by
  rw [WsClient.step, Connection.onSocketClose]
  split
  · exact inv.hangUp lost rfl id (.inl ⟨rfl, rfl, rfl⟩)
  · exact inv.hangUp lost rfl id (.inr ⟨rfl, rfl⟩)

theorem Joined.serverDestroy (inv : Joined accept exitAfter masks texts closing s)
    (lost : s.lost = true) (results : WriteResults) :
    Joined accept exitAfter masks texts closing (s.serve (s.server.step results .destroy)) :=
  inv.hangUp lost rfl (fun _ => rfl) (.inl ⟨rfl, rfl, rfl⟩)

def Act.Small : Act → Prop
  | .broadcast t => (utf8 t).length < 2 ^ 53
  | _ => True

theorem SessionInv.step (graphic : ∀ c ∈ expectedAccept sha1 random, isSpace c = false)
    (some : expectedAccept sha1 random ≠ []) {a : Act} (small : a.Small)
    (inv : SessionInv (expectedAccept sha1 random) exitAfter masks s)
    (stepped : step sha1 random exitAfter masks accepts s a = .some s') :
    SessionInv (expectedAccept sha1 random) exitAfter masks s' := by
  obtain ⟨texts, closing, inv⟩ := inv
  cases a with
  | broadcast t =>
      cases stepped
      obtain ⟨texts', after⟩ := inv.broadcast accepts small
      exact ⟨texts', closing, after⟩
  | stop =>
      cases stepped
      obtain ⟨closing', after⟩ := inv.stop accepts
      exact ⟨texts, closing', after⟩
  | toServer n =>
      cases stepped
      obtain ⟨closing', after⟩ := inv.toServer accepts n
      exact ⟨texts, closing', after⟩
  | lose =>
      cases stepped
      exact ⟨texts, closing, inv.lose⟩
  | toClient n =>
      obtain ⟨-, ⟨⟩⟩ := Option.ite_none_right_eq_some.mp stepped
      exact ⟨texts, closing, inv.toClient graphic some n⟩
  | signal =>
      obtain ⟨-, ⟨⟩⟩ := Option.ite_none_right_eq_some.mp stepped
      exact ⟨texts, closing, inv.signal⟩
  | timer =>
      obtain ⟨⟨-, leaving⟩, ⟨⟩⟩ := Option.ite_none_right_eq_some.mp stepped
      obtain ⟨code, exiting⟩ := Option.ne_none_iff_exists'.mp leaving
      rw [exiting]
      exact ⟨texts, closing, inv.timer exiting⟩
  | clientClose =>
      obtain ⟨⟨-, closes⟩, stepped⟩ := Option.ite_none_right_eq_some.mp stepped
      split at stepped
      · cases stepped
        exact ⟨texts, closing, inv⟩
      · rename_i reading
        split at stepped <;> cases stepped <;>
          exact ⟨texts, closing, inv.clientClose closes (not_not.mp reading)⟩
  | clientError =>
      obtain ⟨⟨-, lost⟩, stepped⟩ := Option.ite_none_right_eq_some.mp stepped
      split at stepped <;> cases stepped
      · exact ⟨texts, closing, inv⟩
      · exact ⟨texts, closing, inv.exits (.inr lost)⟩
  | serverError =>
      obtain ⟨lost, ⟨⟩⟩ := Option.ite_none_right_eq_some.mp stepped
      exact ⟨texts, closing, inv.serverError lost _⟩
  | serverClose =>
      obtain ⟨lost, ⟨⟩⟩ := Option.ite_none_right_eq_some.mp stepped
      exact ⟨texts, closing, inv.serverClose lost _⟩
  | serverDestroy =>
      obtain ⟨lost, ⟨⟩⟩ := Option.ite_none_right_eq_some.mp stepped
      exact ⟨texts, closing, inv.serverDestroy lost _⟩

/-! ### Runs -/

theorem expectedAccept_ne_nil (digest : ∀ b, (sha1 b).length = 20) :
    expectedAccept sha1 random ≠ [] := by
  apply base64_ne_nil
  intro nothing
  have size := digest (utf8 (clientKey random ++ wsMagic))
  rw [nothing] at size
  cases size

/-- The server takes the client's request. -/
theorem connect_eq (sha1 : Bytes → Bytes) (random : { b : Bytes // b.length = 16 }) :
    connect sha1 random = some
      { server := .new, toClient := { inFlight := response (expectedAccept sha1 random) } } := by
  have key : clientKey random ≠ [] := by
    rw [clientKey, ne_eq, List.map_eq_nil_iff]
    apply base64_ne_nil
    intro nothing
    have size := random.2
    rw [nothing] at size
    cases size
  have upgrade : toLowerCase (jsString "websocket") = jsString "websocket" := by decide
  have answered : handleUpgrade sha1 (request random) =
      .switched (response (expectedAccept sha1 random)) := by
    rw [handleUpgrade]
    simp only [request, Option.getD_some, upgrade, key, ne_eq, not_true, or_self, if_false]
    rfl
  rw [connect, answered]

theorem sessionInv_connect (opened : connect sha1 random = some s) :
    SessionInv (expectedAccept sha1 random) exitAfter masks s := by
  rw [connect_eq] at opened
  cases opened
  have starts : ([] : Bytes) ≠ response (expectedAccept sha1 random) := by
    intro same
    have size := congrArg List.length same
    rw [response, List.length_append] at size
    cases size
  refine ⟨[], [], ⟨rfl, List.prefix_refl _, fun _ _ => rfl, .inl rfl, fun _ => ⟨rfl, rfl, rfl, rfl⟩,
    fun closed => absurd closed Bool.noConfusion, id, fun _ => rfl⟩, .opening List.nil_prefix starts,
    ?_, Pipe.carries_new [], fun t mem => absurd mem List.not_mem_nil, rfl, fun _ exited => ?_⟩
  · have nothing : WsClient.new.state.written.flatMap Outgoing.encode = [] := rfl
    rw [nothing, List.append_nil]
    exact Pipe.carries_new _
  · cases exited

def Act.text? : Act → Option JsString
  | .broadcast t => some t
  | _ => none

/-- The texts of the broadcasts. -/
def broadcasts (acts : List Act) : List JsString := acts.filterMap Act.text?

theorem offered_step {a : Act} (stepped : step sha1 random exitAfter masks accepts s a = some s') :
    s'.offered = s.offered ++ a.text?.toList := by
  cases a <;> rw [step] at stepped <;> (repeat' split at stepped) <;> cases stepped
  case broadcast t => rfl
  all_goals exact (List.append_nil _).symm

theorem offered_run {acts : List Act}
    (ran : run (step sha1 random exitAfter masks accepts) s acts = some s') :
    s'.offered = s.offered ++ broadcasts acts := by
  induction acts generalizing s with
  | nil =>
      cases ran
      exact (List.append_nil _).symm
  | cons a acts ih =>
      obtain ⟨next, first, rest⟩ := run_cons_eq_some.mp ran
      rw [ih rest, offered_step first, List.append_assoc, broadcasts, broadcasts, List.filterMap_cons]
      cases a.text? with
      | none => rfl
      | some t => rfl

/-- A state in which nothing but the beginning of `texts` has been printed. -/
structure Faithful (exitAfter : Nat) (texts : List JsString) (s : Session) : Prop where
  printed : s.client.state.printed <+: texts.map utf8
  counted : s.client.state.received = s.client.state.printed.length
  limit : exitAfter ≠ 0 → s.client.state.printed.length ≤ exitAfter
  /-- The server writes texts in order and then at most one closing frame. -/
  sent : ∃ sent closing, s.server.state.written = sent.map Outgoing.text ++ closing ∧
    sent <+: texts ∧ (closing = [] ∨ ∃ o ∈ endings, closing = [o])
  valid : ∀ o ∈ s.server.state.written, o.Valid
  /-- The client finds no fault with the handshake. -/
  exiting : ∀ code, s.client.state.exiting = some code → code = 0
  exited : ∀ code, s.exited = some code → code = 0 ∨ s.lost = true

theorem sessionInv_run (digest : ∀ b, (sha1 b).length = 20) {start : Session} {acts : List Act}
    (opened : connect sha1 random = some start)
    (small : ∀ t, .broadcast t ∈ acts → (utf8 t).length < 2 ^ 53)
    (ran : run (step sha1 random exitAfter masks accepts) start acts = some s) :
    SessionInv (expectedAccept sha1 random) exitAfter masks s := by
  have allowed : ∀ a ∈ acts, a.Small := by
    intro a mem
    cases a with
    | broadcast t => exact small t mem
    | _ => exact trivial
  refine run_inv_of_allowed (sessionInv_connect opened) allowed ?_ ran
  intro s a next inv small stepped
  exact inv.step (isSpace_base64 _) (expectedAccept_ne_nil digest) small stepped

/-- A session starts with nothing offered. -/
theorem offered_eq {start : Session} {acts : List Act} (opened : connect sha1 random = some start)
    (ran : run (step sha1 random exitAfter masks accepts) start acts = some s) :
    s.offered = broadcasts acts := by
  rw [connect_eq] at opened
  cases opened
  exact offered_run ran

/-- What the two sides of a session agree on. -/
theorem SessionInv.faithful {accept : Bytes} (inv : SessionInv accept exitAfter masks s) :
    Faithful exitAfter s.offered s := by
  obtain ⟨texts, closing, inv⟩ := inv
  have order := inv.server.inOrder
  have client : ∃ shown, shown <+: texts.map utf8 ∧ s.client.state.printed = shown ∧
      s.client.state.received = shown.length ∧ (exitAfter ≠ 0 → shown.length ≤ exitAfter) ∧
      ∀ code, s.client.state.exiting = some code → code = 0 := by
    have client := inv.client
    generalize s.client = client' at client
    cases client with
    | opening =>
        exact ⟨[], List.nil_prefix, rfl, rfl, fun _ => Nat.zero_le _, fun _ exits => nomatch exits⟩
    | reading _ _ first showing =>
        refine ⟨_, first.map utf8, showing.printed, showing.received,
          fun limit => (showing.below limit).le, fun code exits => ?_⟩
        rw [showing.reads] at exits
        cases exits
    | leaving first left =>
        refine ⟨_, first, left.printed, left.received, left.within, fun code exits => ?_⟩
        rw [left.exiting] at exits
        exact (Option.some.inj exits).symm
  obtain ⟨shown, first, printed, received, within, code⟩ := client
  subst printed
  exact ⟨first.trans (order.map utf8), received, within,
    ⟨texts, closing, inv.server.written, order, inv.server.ending⟩, inv.server.written ▸ inv.valid,
    code, inv.exited⟩

/-- However the bytes are cut, whatever is lost and whenever either side ends the session: the
client prints the first of the broadcast texts, in order and unchanged, at most `--count` of them,
and ends with 0 unless the connection was lost. -/
theorem session_prints (digest : ∀ b, (sha1 b).length = 20) {start : Session} {acts : List Act}
    (opened : connect sha1 random = some start)
    (small : ∀ t, .broadcast t ∈ acts → (utf8 t).length < 2 ^ 53)
    (ran : run (step sha1 random exitAfter masks accepts) start acts = some s) :
    Faithful exitAfter (broadcasts acts) s := by
  have inv := sessionInv_run digest opened small ran
  rw [← offered_eq opened ran]
  exact inv.faithful

/-- The digest for the sample key of the protocol. -/
def sampleDigest : Bytes :=
  [0xB3, 0x7A, 0x4F, 0x2C, 0xC0, 0x62, 0x4F, 0x16, 0x90, 0xF6, 0x46, 0x06, 0xCF, 0x38, 0x59, 0x45,
    0xB2, 0xBE, 0xC4, 0xEA]

def sampleRandom : { b : Bytes // b.length = 16 } := ⟨ascii "the sample nonce", rfl⟩

def sampleMask : Mask := ⟨[1, 2, 3, 4], rfl⟩

/-- A session with the sample key. -/
def sampleRun (acts : List Act) : Option Session :=
  (connect (fun _ => sampleDigest) sampleRandom).bind fun start =>
    run (step (fun _ => sampleDigest) sampleRandom 0 (fun _ => sampleMask) fun _ => true) start acts

example : response (expectedAccept (fun _ => sampleDigest) sampleRandom) =
    ascii "HTTP/1.1 101 Switching Protocols\r\nUpgrade: websocket\r\nConnection: Upgrade\r\n" ++
      ascii "Sec-WebSocket-Accept: s3pPLMBiTxaQ9kYGzzhZRbK+xOo=\r\n\r\n" := by
  decide +kernel

/-- One text and half of the next arrive before the connection is lost. -/
theorem session_prints_lost : ∃ s, sampleRun [.broadcast (jsString "hi"), .toClient 60,
      .broadcast (jsString "there"), .toClient 75, .lose] = some s ∧
    Faithful 0 [jsString "hi", jsString "there"] s ∧ s.client.state.printed = [ascii "hi"] := by
  have printed : ((sampleRun [.broadcast (jsString "hi"), .toClient 60,
      .broadcast (jsString "there"), .toClient 75, .lose]).map fun s => s.client.state.printed) =
      some [ascii "hi"] := by
    decide +kernel
  obtain ⟨s, ran, printed⟩ := Option.map_eq_some_iff.mp printed
  obtain ⟨start, opened, steps⟩ := Option.bind_eq_some_iff.mp ran
  have small : ∀ t, .broadcast t ∈ [Act.broadcast (jsString "hi"), .toClient 60,
      .broadcast (jsString "there"), .toClient 75, .lose] → (utf8 t).length < 2 ^ 53 := by
    intro t mem
    have only : t = jsString "hi" ∨ t = jsString "there" := by simpa using mem
    rcases only with rfl | rfl <;> decide
  exact ⟨s, ran, session_prints (fun _ => rfl) opened small steps, printed⟩

/-- Nothing is under way any more. -/
structure Quiet (s : Session) : Prop where
  stands : s.lost = false
  toClient : s.toClient.inFlight = []
  toServer : s.toServer.inFlight = []

/-- Both sides read on, and every text has been printed. -/
structure BothOpen (texts : List JsString) (s : Session) : Prop where
  server : s.server.state.closed = false
  client : s.client.state.exiting = none
  printed : s.client.state.printed = texts.map utf8

/-- Each side has sent one closing frame. -/
structure BothClosed (masks : Nat → Mask) (s : Session) : Prop where
  server : s.server.state.closed = true ∧ s.server.state.ended = true
  client : s.client.state.exiting = some 0
  fromServer : ∃ sent, ∃ o ∈ endings, s.server.state.written = List.map Outgoing.text sent ++ [o]
  fromClient : s.client.state.written = [closeFrame (masks 0)]

theorem SessionInv.settles {accept : Bytes} (inv : SessionInv accept exitAfter masks s)
    (quiet : Quiet s) : BothOpen s.offered s ∨ BothClosed masks s := by
  obtain ⟨texts, closing, inv⟩ := inv
  have server := inv.server
  rcases inv.client.written with nothing | ⟨shown, first, left⟩
  · left
    have reads : s.client.state.exiting = none := by
      have client := inv.client
      generalize s.client = client' at client nothing
      cases client with
      | opening => rfl
      | reading _ _ _ showing => exact showing.reads
      | leaving _ left =>
          rw [left.written] at nothing
          cases nothing
    obtain ⟨open', printed⟩ := inv.caught_up quiet.stands quiet.toClient reads
    have reading : s.server.state.closed = false := by
      cases closed : s.server.state.closed with
      | false => rfl
      | true => exact absurd open' ((server.gone closed).2 quiet.stands).1
    rw [server.current reading (server.stands quiet.stands)] at printed
    exact ⟨reading, reads, printed⟩
  · right
    have arrived := inv.up.arrived_eq (inv.both.trans quiet.stands) quiet.toServer
    rw [left.written, List.flatten_singleton] at arrived
    have closed : s.server.state.closed = true := by
      cases closed : s.server.state.closed with
      | true => rfl
      | false =>
          obtain ⟨-, -, -, waiting⟩ := server.reads closed
          rw [arrived, parse_closeFrame] at waiting
          cases waiting
    obtain ⟨some, ended⟩ := (server.gone closed).2 quiet.stands
    obtain ⟨o, mem, rfl⟩ := server.ending.resolve_left some
    exact ⟨⟨closed, ended⟩, left.exiting, ⟨texts, o, mem, server.written⟩, left.written⟩

/-- As long as the connection stands, it is all or nothing once everything has arrived. -/
theorem session_settles (digest : ∀ b, (sha1 b).length = 20) {start : Session} {acts : List Act}
    (opened : connect sha1 random = some start)
    (small : ∀ t, .broadcast t ∈ acts → (utf8 t).length < 2 ^ 53)
    (ran : run (step sha1 random exitAfter masks accepts) start acts = some s) (quiet : Quiet s) :
    BothOpen (broadcasts acts) s ∨ BothClosed masks s := by
  have inv := sessionInv_run digest opened small ran
  rw [← offered_eq opened ran]
  exact inv.settles quiet

/-- The gateway stops while the client is a text behind. -/
theorem session_settles_stopped : ∃ s, sampleRun [.toClient 129, .broadcast (jsString "hi"),
      .stop, .toClient 3, .toClient 100, .toServer 8] = some s ∧ Quiet s ∧
    (BothOpen [jsString "hi"] s ∨ BothClosed (fun _ => sampleMask) s) := by
  have quiet : ((sampleRun [.toClient 129, .broadcast (jsString "hi"), .stop, .toClient 3,
      .toClient 100, .toServer 8]).map fun s =>
        (s.lost, s.toClient.inFlight, s.toServer.inFlight)) = some (false, [], []) := by
    decide +kernel
  obtain ⟨s, ran, flight⟩ := Option.map_eq_some_iff.mp quiet
  obtain ⟨start, opened, steps⟩ := Option.bind_eq_some_iff.mp ran
  have quiet : Quiet s := by
    obtain ⟨stands, rest⟩ := Prod.mk.inj flight
    exact ⟨stands, (Prod.mk.inj rest).1, (Prod.mk.inj rest).2⟩
  have small : ∀ t, .broadcast t ∈ [Act.toClient 129, .broadcast (jsString "hi"), .stop,
      .toClient 3, .toClient 100, .toServer 8] → (utf8 t).length < 2 ^ 53 := by
    intro t mem
    have only : t = jsString "hi" := by simpa using mem
    rw [only]
    decide
  exact ⟨s, ran, quiet, session_settles (fun _ => rfl) opened small steps quiet⟩

end RoboticsIpc.WsSession
