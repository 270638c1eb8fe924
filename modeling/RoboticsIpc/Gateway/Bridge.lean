import RoboticsIpc.Gateway.FrameText
import RoboticsIpc.Gateway.WsSessionRuns
import RoboticsIpc.Router.DatagramSystem

/-!
The gateway between the router and its dashboard (`examples/bridges/node_gateway/gateway.js`,
`rim_router_peer.js`): a UDP peer of the router that broadcasts the text of every frame it
receives to its WebSocket clients.

The network of the router, the gateway and one of its clients run together. Whatever the network
and the client's connection do, the client shows a beginning of what the gateway has received since
it connected, and each text stands for one frame, of a declared peer or sent straight to the
gateway's socket (`dashboard_genuine`). Where nobody but the router sends to that socket and the
network only loses datagrams, nothing is shown twice or out of order (`dashboard_in_order`); where
it does nothing, nothing is missing (`dashboard_complete`).
-/

namespace RoboticsIpc.NodeGateway

open ByteBuffer Checked DatagramChannel StepRun Toml WebSocketServer WsTestClient WsSession

/-! ### The system -/

structure Bridge where
  network : DatagramSystem .udp
  /-- The client, once it is connected. -/
  session : Option Session := none
  received : Nat := 0
  /-- The gateway has closed its socket and is about to close its server. -/
  stopping : Bool := false
  closed : Bool := false

inductive BridgeAct where
  /-- The router, the other peers and the network. -/
  | network (a : DatagramAct .udp)
  /-- The `message` event of the gateway's socket. -/
  | message
  /-- SIGINT or SIGTERM to the gateway. -/
  | signal
  | closeServer
  | connect
  /-- What the client and its connection do. -/
  | session (a : WsSession.Act)

/-- The gateway's socket is read by the gateway only. -/
def ReadBy (gateway : UInt8) : DatagramAct .udp → Prop
  | .recv peer => peer = gateway
  | _ => False

instance (gateway : UInt8) : DecidablePred (ReadBy gateway)
  | .recv peer => inferInstanceAs (Decidable (peer = gateway))
  | .send .. | .stray .. | .direct .. | .forward .. | .disturbInbound _ | .disturbOutbound .. =>
      inferInstanceAs (Decidable False)

/-- The gateway's own acts in a session. -/
def OfGateway : WsSession.Act → Prop
  | .broadcast _ | .stop => True
  | _ => False

instance : DecidablePred OfGateway
  | .broadcast _ | .stop => inferInstanceAs (Decidable True)
  | .toClient _ | .toServer _ | .signal | .timer | .clientClose | .lose | .clientError
  | .serverError | .serverClose | .serverDestroy => inferInstanceAs (Decidable False)

section System

-- The gateway's peer id and its `--count`, the rules of the router, and the parameters of the
-- session.
variable (gateway : UInt8) (exitAfter : Nat) (rules : List RouteRule) (sha1 : Bytes → Bytes)
  (random : { b : Bytes // b.length = 16 }) (clientExitAfter : Nat) (masks : Nat → Mask)
  (accepts : Nat → Bool)

/-- An act of the gateway in the session, if there is one. -/
def Bridge.act (s : Bridge) (a : WsSession.Act) : Option Session :=
  s.session.bind fun session => WsSession.step sha1 random clientExitAfter masks accepts session a

/-- The `frame` handler. -/
def Bridge.onFrame (s : Bridge) (frame : RouterFrame) : Bridge :=
  { s with
    received := s.received + 1
    session := s.act sha1 random clientExitAfter masks accepts (.broadcast (frameText frame))
    stopping := s.stopping || decide (exitAfter ≠ 0 ∧ exitAfter ≤ s.received + 1) }

def bridgeStep (s : Bridge) : BridgeAct → Option Bridge
  | .network a =>
      if ReadBy gateway a then none
      else (datagramStep rules s.network a).map fun network => { s with network }
  | .message =>
      if s.stopping then none
      else
        match (s.network.outbound gateway).queue with
        | [] => none
        | (_, msg) :: _ =>
            let taken := { s with network := s.network.recv gateway }
            match fromBytes msg with
            -- A `truncated` event.
            | .error _ => some taken
            | .ok frame =>
                some (taken.onFrame exitAfter sha1 random clientExitAfter masks accepts frame)
  | .signal => some { s with stopping := true }
  | .closeServer =>
      if s.stopping ∧ s.closed = false then
        some { s with
          closed := true, session := s.act sha1 random clientExitAfter masks accepts .stop }
      else none
  | .connect =>
      if s.session = none ∧ s.closed = false then
        (WsSession.connect sha1 random).map fun session => { s with session := some session }
      else none
  | .session a =>
      if OfGateway a then none
      else
        (s.act sha1 random clientExitAfter masks accepts a).map fun session =>
          { s with session := some session }

/-- What a step can do. -/
inductive BridgeCases (s : Bridge) : BridgeAct → Bridge → Prop
  | network {a : DatagramAct .udp} {n : DatagramSystem .udp} (other : ¬ ReadBy gateway a)
      (stepped : datagramStep rules s.network a = some n) :
      BridgeCases s (.network a) { s with network := n }
  | short {origin : Origin} {msg : Bytes} {rest : List (Origin × Bytes)} {e : JsError}
      (queued : (s.network.outbound gateway).queue = (origin, msg) :: rest)
      (short : fromBytes msg = .error e) :
      BridgeCases s .message { s with network := s.network.recv gateway }
  | frame {origin : Origin} {msg : Bytes} {rest : List (Origin × Bytes)} {frame : RouterFrame}
      (running : s.stopping = false)
      (queued : (s.network.outbound gateway).queue = (origin, msg) :: rest)
      (whole : fromBytes msg = .ok frame) :
      BridgeCases s .message (Bridge.onFrame exitAfter sha1 random clientExitAfter masks accepts
        { s with network := s.network.recv gateway } frame)
  | signal : BridgeCases s .signal { s with stopping := true }
  | closeServer : BridgeCases s .closeServer { s with
      closed := true, session := s.act sha1 random clientExitAfter masks accepts .stop }
  | connect {session : Session} (none : s.session = none)
      (opened : WsSession.connect sha1 random = some session) :
      BridgeCases s .connect { s with session := some session }
  | session {a : WsSession.Act} {session : Session} (other : ¬ OfGateway a)
      (stepped : s.act sha1 random clientExitAfter masks accepts a = some session) :
      BridgeCases s (.session a) { s with session := some session }

theorem bridgeStep_cases {s s' : Bridge} {a : BridgeAct} (stepped : bridgeStep gateway exitAfter rules
      sha1 random clientExitAfter masks accepts s a = some s') :
    BridgeCases gateway exitAfter rules sha1 random clientExitAfter masks accepts s a s' := by
  cases a with
  | network a =>
      rw [bridgeStep] at stepped
      split at stepped
      · cases stepped
      · rename_i other
        obtain ⟨network, inside, rfl⟩ := Option.map_eq_some_iff.mp stepped
        exact .network other inside
  | message =>
      rw [bridgeStep] at stepped
      split at stepped
      · cases stepped
      · rename_i running
        split at stepped
        · cases stepped
        · rename_i queued
          split at stepped
          · rename_i short
            cases stepped
            exact .short queued short
          · rename_i whole
            cases stepped
            exact .frame (by simpa using running) queued whole
  | signal =>
      cases stepped
      exact .signal
  | closeServer =>
      rw [bridgeStep] at stepped
      split at stepped <;> cases stepped
      exact .closeServer
  | connect =>
      rw [bridgeStep] at stepped
      split at stepped
      · rename_i ready
        obtain ⟨session, opened, rfl⟩ := Option.map_eq_some_iff.mp stepped
        exact .connect ready.1 opened
      · cases stepped
  | session a =>
      rw [bridgeStep] at stepped
      split at stepped
      · cases stepped
      · rename_i other
        obtain ⟨session, inside, rfl⟩ := Option.map_eq_some_iff.mp stepped
        exact .session other inside

end System

/-- The frames that the gateway has received. -/
def framesOf (received : List Bytes) : List RouterFrame :=
  received.filterMap fun msg => (fromBytes msg).toOption

def Bridge.frames (gateway : UInt8) (s : Bridge) : List RouterFrame :=
  framesOf (s.network.received gateway)

/-- The client has connected in the course of the schedule, and `came` are the frames that the
gateway has received since. -/
def CameSince (step : Bridge → BridgeAct → Option Bridge) (gateway : UInt8) (s₀ : Bridge)
    (schedule : List BridgeAct) (s : Bridge) (came : List RouterFrame) : Prop :=
  ∃ before after, Takes step s₀ schedule before .connect after ∧
    s.frames gateway = before.frames gateway ++ came

/-! ### The network's part -/

section Runs

variable {gateway : UInt8} {exitAfter : Nat} {rules : List RouteRule} {sha1 : Bytes → Bytes}
  {random : { b : Bytes // b.length = 16 }} {clientExitAfter : Nat} {masks : Nat → Mask}
  {accepts : Nat → Bool} {s s' : Bridge} {n n' : DatagramSystem .udp}

theorem received_kept {a : DatagramAct .udp} (other : ¬ ReadBy gateway a)
    (stepped : datagramStep rules n a = some n') : n'.received gateway = n.received gateway := by
  cases a with
  | send peer host msg sendto =>
      rw [datagramStep, DatagramSystem.send] at stepped
      repeat' split at stepped
      all_goals cases stepped
      all_goals rfl
  | stray sender msg =>
      rw [datagramStep] at stepped
      split at stepped
      · cases stepped
        rfl
      · cases stepped
  | direct peer msg =>
      cases stepped
      unfold DatagramSystem.received
      by_cases same : gateway = peer
      · subst same
        simp only [Function.update_self]
        rfl
      · simp only [Function.update_of_ne same]
  | forward scratch ts sendto =>
      cases stepped
      rw [DatagramSystem.forward]
      split <;> rfl
  | recv peer =>
      cases stepped
      rw [DatagramSystem.recv]
      split
      · rfl
      · have apart : gateway ≠ peer := fun same => other same.symm
        unfold DatagramSystem.received
        simp only [Function.update_of_ne apart]
  | disturbInbound fault =>
      cases stepped
      rfl
  | disturbOutbound peer fault =>
      cases stepped
      unfold DatagramSystem.received
      by_cases same : gateway = peer
      · subst same
        simp only [Function.update_self]
        rfl
      · simp only [Function.update_of_ne same]

theorem received_recv {origin : Origin} {msg : Bytes} {rest : List (Origin × Bytes)}
    (queued : (n.outbound gateway).queue = (origin, msg) :: rest) :
    (n.recv gateway).received gateway = n.received gateway ++ [msg] := by
  have taken : (n.outbound gateway).receive = some ((origin, msg), { n.outbound gateway with
      queue := rest, received := (n.outbound gateway).received ++ [(origin, msg)] }) := by
    rw [Channel.receive, queued]
  rw [DatagramSystem.recv, taken]
  simp only [DatagramSystem.received, Function.update_self, List.map_append, List.map_cons,
    List.map_nil]

/-- What an act is to the network. -/
def BridgeAct.toNetwork (gateway : UInt8) : BridgeAct → Option (DatagramAct .udp)
  | .network a => some a
  | .message => some (.recv gateway)
  | _ => none

theorem network_step {a : BridgeAct} (stepped : bridgeStep gateway exitAfter rules sha1 random
      clientExitAfter masks accepts s a = some s') :
    run (datagramStep rules) s.network (a.toNetwork gateway).toList = some s'.network := by
  cases bridgeStep_cases _ _ _ _ _ _ _ _ stepped with
  | network other inside => exact run_cons_eq_some.mpr ⟨_, inside, rfl⟩
  | short | frame | signal | closeServer | connect | session => rfl

/-- A message adds its frame, if it is one. -/
theorem frames_recv {origin : Origin} {msg : Bytes} {rest : List (Origin × Bytes)}
    (queued : (s.network.outbound gateway).queue = (origin, msg) :: rest) :
    framesOf ((s.network.recv gateway).received gateway) =
      s.frames gateway ++ (fromBytes msg).toOption.toList := by
  rw [Bridge.frames, received_recv queued, framesOf, framesOf, List.filterMap_append,
    List.filterMap_cons]
  cases (fromBytes msg).toOption <;> rfl

/-- What every step keeps of the gateway's count. -/
structure BridgeInv (gateway : UInt8) (exitAfter : Nat) (s : Bridge) : Prop where
  counted : s.received = (s.frames gateway).length
  below : exitAfter ≠ 0 → s.stopping = false → s.received < exitAfter
  limit : exitAfter ≠ 0 → s.received ≤ exitAfter

theorem bridgeInv_step {a : BridgeAct} (inv : BridgeInv gateway exitAfter s)
    (stepped : bridgeStep gateway exitAfter rules sha1 random clientExitAfter masks accepts s a =
      some s') : BridgeInv gateway exitAfter s' := by
  cases bridgeStep_cases _ _ _ _ _ _ _ _ stepped with
  | @network _ network other inside =>
      have kept : Bridge.frames gateway { s with network } = s.frames gateway :=
        congrArg framesOf (received_kept other inside)
      exact ⟨kept ▸ inv.counted, inv.below, inv.limit⟩
  | short queued short =>
      have came := frames_recv queued
      rw [short] at came
      have kept : Bridge.frames gateway { s with network := s.network.recv gateway } =
          s.frames gateway := came.trans (List.append_nil _)
      exact ⟨kept ▸ inv.counted, inv.below, inv.limit⟩
  | @frame _ _ _ frame running queued whole =>
      have came := frames_recv queued
      rw [whole] at came
      have count : s.received + 1 = (s.frames gateway ++ [frame]).length := by
        rw [List.length_append, inv.counted]
        rfl
      constructor
      case counted => exact count.trans (congrArg List.length came.symm)
      case below =>
        intro limited stands
        simp only [Bridge.onFrame, Bool.or_eq_false_iff, decide_eq_false_iff_not] at stands
        have fewer : ¬ exitAfter ≤ s.received + 1 := fun reached => stands.2 ⟨limited, reached⟩
        exact Nat.lt_of_not_le fewer
      case limit => exact fun limited => inv.below limited running
  | signal =>
      exact ⟨inv.counted, fun _ stands => absurd stands Bool.noConfusion, inv.limit⟩
  | closeServer | connect | session => exact ⟨inv.counted, inv.below, inv.limit⟩

theorem bridgeInv_run {schedule : List BridgeAct}
    (ran : run (bridgeStep gateway exitAfter rules sha1 random clientExitAfter masks accepts)
      { network := n } schedule = some s)
    (fresh : n.received gateway = []) : BridgeInv gateway exitAfter s := by
  have nothing : Bridge.frames gateway { network := n } = [] := by rw [Bridge.frames, fresh]; rfl
  refine run_inv ⟨?_, fun limited _ => Nat.pos_of_ne_zero limited, fun _ => Nat.zero_le _⟩
    (fun _ _ _ inv stepped => bridgeInv_step inv stepped) ran
  rw [nothing]
  rfl

/-! ### The session's part -/

/-- The session was offered the texts of these frames. -/
def Offers (sha1 : Bytes → Bytes) (random : { b : Bytes // b.length = 16 }) (clientExitAfter : Nat)
    (masks : Nat → Mask) (accepts : Nat → Bool) (came : List RouterFrame) (session : Session) :
    Prop :=
  ∃ start acts, WsSession.connect sha1 random = some start ∧
    run (WsSession.step sha1 random clientExitAfter masks accepts) start acts = some session ∧
    broadcasts acts = came.map frameText

theorem Offers.step {came : List RouterFrame} {session session' : Session} {a : WsSession.Act}
    (offers : Offers sha1 random clientExitAfter masks accepts came session)
    (stepped : WsSession.step sha1 random clientExitAfter masks accepts session a = some session')
    {more : List RouterFrame} (text : a.text?.toList = more.map frameText) :
    Offers sha1 random clientExitAfter masks accepts (came ++ more) session' := by
  obtain ⟨start, acts, opened, ran, offered⟩ := offers
  refine ⟨start, acts ++ [a], opened, ?_, ?_⟩
  · rw [run_append, ran]
    exact run_cons_eq_some.mpr ⟨session', stepped, rfl⟩
  · have last : broadcasts [a] = a.text?.toList := by
      rw [broadcasts, List.filterMap_cons]
      cases a.text? <;> rfl
    rw [broadcasts, List.filterMap_append, ← broadcasts, ← broadcasts, offered, last, text,
      List.map_append]

/-- There is a session, and it was offered the texts of all frames but the first `missed`. -/
def OffersAfter (gateway : UInt8) (sha1 : Bytes → Bytes) (random : { b : Bytes // b.length = 16 })
    (clientExitAfter : Nat) (masks : Nat → Mask) (accepts : Nat → Bool) (missed : List RouterFrame)
    (s : Bridge) : Prop :=
  ∃ session came, s.session = some session ∧ s.frames gateway = missed ++ came ∧
    Offers sha1 random clientExitAfter masks accepts came session

/-- An act of the session. -/
theorem OffersAfter.act {missed : List RouterFrame}
    (inv : OffersAfter gateway sha1 random clientExitAfter masks accepts missed s)
    {a : WsSession.Act} {session : Session}
    (stepped : s.act sha1 random clientExitAfter masks accepts a = some session)
    (more : List RouterFrame) (text : a.text?.toList = more.map frameText)
    (shows : s'.session = some session) (grown : s'.frames gateway = s.frames gateway ++ more) :
    OffersAfter gateway sha1 random clientExitAfter masks accepts missed s' := by
  obtain ⟨before, came, there, frames, offers⟩ := inv
  rw [Bridge.act, there, Option.bind_some] at stepped
  refine ⟨session, came ++ more, shows, ?_, offers.step stepped text⟩
  rw [grown, frames, List.append_assoc]

/-- Each step offers a connected client the text of the frame that comes, if one does. -/
theorem offersAfter_step {missed : List RouterFrame} {a : BridgeAct}
    (inv : OffersAfter gateway sha1 random clientExitAfter masks accepts missed s)
    (stepped : bridgeStep gateway exitAfter rules sha1 random clientExitAfter masks accepts s a =
      some s') : OffersAfter gateway sha1 random clientExitAfter masks accepts missed s' := by
  obtain ⟨session, came, there, frames, offers⟩ := id inv
  cases bridgeStep_cases _ _ _ _ _ _ _ _ stepped with
  | @network _ network other inside =>
      have kept : Bridge.frames gateway { s with network } = s.frames gateway :=
        congrArg framesOf (received_kept other inside)
      exact ⟨session, came, there, kept.trans frames, offers⟩
  | short queued short =>
      have grown := frames_recv queued
      rw [short] at grown
      exact ⟨session, came, there, (grown.trans (List.append_nil _)).trans frames, offers⟩
  | @frame _ _ _ frame running queued whole =>
      have grown := frames_recv queued
      rw [whole] at grown
      -- The gateway's own acts are never refused.
      obtain ⟨session', next⟩ : ∃ session', s.act sha1 random clientExitAfter masks accepts
          (.broadcast (frameText frame)) = some session' := by
        rw [Bridge.act, there]
        exact ⟨_, rfl⟩
      exact inv.act next [frame] rfl next grown
  | signal => exact inv
  | closeServer =>
      obtain ⟨session', next⟩ : ∃ session', s.act sha1 random clientExitAfter masks accepts .stop =
          some session' := by
        rw [Bridge.act, there]
        exact ⟨_, rfl⟩
      exact inv.act next [] rfl next (List.append_nil _).symm
  | connect none =>
      rw [none] at there
      cases there
  | @session a session' other next =>
      have silent : a.text?.toList = ([] : List RouterFrame).map frameText := by
        cases a with
        | broadcast t => exact absurd trivial other
        | _ => rfl
      exact inv.act next _ silent rfl (List.append_nil _).symm

/-- A client that is there has connected, and was offered the texts of all that came since. -/
theorem offers_run {schedule : List BridgeAct} {session : Session}
    (ran : run (bridgeStep gateway exitAfter rules sha1 random clientExitAfter masks accepts)
      { network := n } schedule = some s) (there : s.session = some session) :
    ∃ came, CameSince (bridgeStep gateway exitAfter rules sha1 random clientExitAfter masks accepts)
        gateway { network := n } schedule s came ∧
      Offers sha1 random clientExitAfter masks accepts came session := by
  have absent : ¬ ({ network := n } : Bridge).session.isSome = true := by simp
  have present : s.session.isSome = true := by simp [there]
  obtain ⟨done, a, rest, before, after, split, reached, stepped, later, old, new⟩ :=
    run_enters (P := fun s : Bridge => s.session.isSome = true) absent present ran
  have none : before.session = none := by simpa using old
  have start : a = .connect ∧ OffersAfter gateway sha1 random clientExitAfter masks accepts
      (before.frames gateway) after := by
    cases bridgeStep_cases _ _ _ _ _ _ _ _ stepped with
    | network | short | signal => exact absurd new old
    | frame | closeServer => simp [Bridge.onFrame, Bridge.act, none] at new
    | session _ next =>
        rw [Bridge.act, none] at next
        cases next
    | connect _ opened =>
        refine ⟨rfl, _, [], rfl, (List.append_nil _).symm, _, [], opened, rfl, rfl⟩
  obtain ⟨rfl, start⟩ := start
  obtain ⟨session', came, there', frames, offers⟩ := run_inv
    (I := OffersAfter gateway sha1 random clientExitAfter masks accepts (before.frames gateway)) start
    (fun _ _ _ inv stepped => offersAfter_step inv stepped) later
  obtain rfl := Option.some.inj (there.symm.trans there')
  exact ⟨came, ⟨before, after, ⟨done, rest, split, reached, stepped⟩, frames⟩, offers⟩

/-- Every text that a session was offered fits a WebSocket frame. -/
theorem sessionInv_offers (digest : ∀ b, (sha1 b).length = 20) {start session : Session}
    {acts : List WsSession.Act} {came : List RouterFrame}
    (opened : WsSession.connect sha1 random = some start)
    (ran : run (WsSession.step sha1 random clientExitAfter masks accepts) start acts = some session)
    (offered : broadcasts acts = came.map frameText) :
    SessionInv (expectedAccept sha1 random) clientExitAfter masks session := by
  refine sessionInv_run digest opened (fun t mem => ?_) ran
  have inside : t ∈ broadcasts acts := List.mem_filterMap.mpr ⟨_, mem, rfl⟩
  rw [offered] at inside
  obtain ⟨frame, -, rfl⟩ := List.mem_map.mp inside
  exact length_frameText frame

/-- The client has printed a beginning of the texts. -/
theorem Offers.printed (digest : ∀ b, (sha1 b).length = 20) {came : List RouterFrame}
    {session : Session} (offers : Offers sha1 random clientExitAfter masks accepts came session) :
    ∃ shown, shown <+: came ∧
      session.client.state.printed = List.map (fun frame => utf8 (frameText frame)) shown := by
  obtain ⟨start, acts, opened, ran, offered⟩ := offers
  have first := (sessionInv_offers digest opened ran offered).faithful.printed
  rw [offered_eq opened ran, offered, List.map_map] at first
  refine ⟨came.take session.client.state.printed.length, List.take_prefix _ came, ?_⟩
  rw [List.map_take]
  exact List.prefix_iff_eq_take.mp first

/-- A client that is still connected once nothing is under way has printed all of them. -/
theorem Offers.settles (digest : ∀ b, (sha1 b).length = 20) {came : List RouterFrame}
    {session : Session} (offers : Offers sha1 random clientExitAfter masks accepts came session)
    (quiet : Quiet session) : BothClosed masks session ∨
      session.client.state.printed = List.map (fun frame => utf8 (frameText frame)) came := by
  obtain ⟨start, acts, opened, ran, offered⟩ := offers
  rcases (sessionInv_offers digest opened ran offered).settles quiet with both | closed
  · right
    have printed := both.printed
    rw [offered_eq opened ran, offered, List.map_map] at printed
    exact printed
  · exact Or.inl closed

end Runs

/-! ### What the dashboard shows -/

section Results

variable {t : LoadedTopology} {n : DatagramSystem .udp} {gateway : UInt8}

theorem length_genuine {f : Bytes} (genuine : GenuineFrame t n gateway f) :
    f.length = kRouterFrameSize := by
  obtain ⟨q, -, -, msg, -, whole, -, ts, rfl⟩ := genuine
  have cut : (msg.take kRouterFrameSize).length = kRouterFrameSize := List.length_take_of_le whole
  obtain ⟨first, second⟩ := stamped_fits q.id ts cut
  rw [stamped, length_splice second, length_splice first, cut]

/-- A datagram of the size of a frame is its frame's bytes. -/
theorem bytes_fromBytes {msg : Bytes} {frame : RouterFrame} (whole : msg.length = kRouterFrameSize)
    (read : fromBytes msg = .ok frame) : frame.bytes = msg := by
  have size : routerFrameSize ≤ msg.length := whole.ge
  rw [fromBytes, dif_pos size] at read
  cases read
  exact List.take_of_length_le whole.le

theorem bytes_framesOf {received : List Bytes}
    (whole : ∀ d ∈ received, d.length = kRouterFrameSize) :
    (framesOf received).map RouterFrame.bytes = received := by
  induction received with
  | nil => rfl
  | cons d received ih =>
      have size : routerFrameSize ≤ d.length := (whole d List.mem_cons_self).ge
      have later := ih fun d' mem => whole d' (List.mem_cons_of_mem d mem)
      have read : (fromBytes d).toOption =
          some ⟨d.take routerFrameSize, List.length_take_of_le size⟩ := by
        rw [fromBytes, dif_pos size]
        rfl
      have all : d.take routerFrameSize = d :=
        List.take_of_length_le (whole d List.mem_cons_self).le
      rw [framesOf, List.filterMap_cons, read, List.map_cons, ← framesOf, later]
      exact congrArg (List.cons · received) all

/-- What the client of a gateway shows, where `came` has come since it connected and `straight`
was sent straight to the gateway's socket. -/
structure Shows (t : LoadedTopology) (gateway : UInt8) (exitAfter : Nat) (straight : List Bytes)
    (came : List RouterFrame) (s : Bridge) (session : Session) : Prop where
  /-- The texts of the first frames. -/
  printed : ∃ shown, shown <+: came ∧
    session.client.state.printed = List.map (fun frame => utf8 (frameText frame)) shown
  /-- Each is the text of one frame only, and that is a genuine one if it was not sent straight. -/
  means : ∀ text ∈ session.client.state.printed, ∃ frame,
    (GenuineFrame t s.network gateway frame.bytes ∨ ∃ msg ∈ straight, fromBytes msg = .ok frame) ∧
      ∀ other, utf8 (frameText other) = text ↔ other = frame
  counted : s.received = (s.frames gateway).length
  limit : exitAfter ≠ 0 → s.received ≤ exitAfter

/-- What a schedule is to the network. -/
def networkOf (gateway : UInt8) (schedule : List BridgeAct) : List (DatagramAct .udp) :=
  schedule.filterMap (BridgeAct.toNetwork gateway)

variable {root : TomlTable} {s₀ : DatagramSystem .udp} {exitAfter : Nat} {sha1 : Bytes → Bytes}
  {random : { b : Bytes // b.length = 16 }} {clientExitAfter : Nat} {masks : Nat → Mask}
  {accepts : Nat → Bool} {schedule : List BridgeAct} {s : Bridge}

theorem start_empty (booted : bootDatagram .udp t.view = .ok s₀) : s₀.received gateway = [] := by
  rw [DatagramSystem.received, outbound_boot booted gateway]
  rfl

theorem run_network (ran : run (bridgeStep gateway exitAfter t.routes sha1 random clientExitAfter masks
      accepts) { network := s₀ } schedule = some s) :
    run (datagramStep t.routes) s₀ (networkOf gateway schedule) = some s.network :=
  run_project Bridge.network (fun _ _ _ step => network_step step) ran

theorem networkInv_bridge {w : Weather} (accepted : buildFrom root = .ok t)
    (own : ∀ p ∈ t.peers, Unshared t.peers p) (sendable : w = .calm → Sendable t.peers)
    (booted : bootDatagram .udp t.view = .ok s₀)
    (weather : ∀ a, .network a ∈ schedule → a.InWeather w)
    (ran : run (bridgeStep gateway exitAfter t.routes sha1 random clientExitAfter masks accepts)
      { network := s₀ } schedule = some s) : NetworkInv t w s.network := by
  have allowed : ∀ a ∈ networkOf gateway schedule, a.InWeather w := by
    intro a mem
    obtain ⟨b, inside, part⟩ := List.mem_filterMap.mp mem
    cases b with
    | network => exact Option.some.inj part ▸ weather _ inside
    | message => exact Option.some.inj part ▸ trivial
    | signal | closeServer | connect | session => cases part
  exact run_networkInv (buildFrom_wellFormed accepted) own sendable booted allowed (run_network ran)

/-- Where only the router sends to the gateway, all that it has received is the router's. -/
theorem received_alone {w : Weather} (inv : NetworkInv t w s.network)
    (booted : bootDatagram .udp t.view = .ok s₀)
    (alone : ∀ msg, .network (.direct gateway msg) ∉ schedule)
    (ran : run (bridgeStep gateway exitAfter t.routes sha1 random clientExitAfter masks accepts)
      { network := s₀ } schedule = some s) :
    s.network.received gateway = s.network.relayed gateway := by
  refine inv.received_eq booted (run_network ran) (sentStraightTo_nil fun msg mem => ?_)
  obtain ⟨a, inside, part⟩ := List.mem_filterMap.mp mem
  cases a with
  | network a => exact alone msg (Option.some.inj part ▸ inside)
  | message | signal | closeServer | connect | session => cases part

/-- Load a profile, bind its router and run the system with a gateway that stops after two frames
and the sample session. -/
def runBridge (root : TomlTable) (gateway : UInt8) (schedule : List BridgeAct) : Option Bridge := do
  let t ← (buildFrom root).toOption
  let s₀ ← (bootDatagram .udp t.view).toOption
  run (bridgeStep gateway 2 t.routes (fun _ => sampleDigest) sampleRandom 0 (fun _ => sampleMask)
    fun _ => true) { network := s₀ } schedule

theorem runBridge_eq_some : runBridge root gateway schedule = some s ↔ ∃ t s₀,
    buildFrom root = .ok t ∧ bootDatagram .udp t.view = .ok s₀ ∧
    run (bridgeStep gateway 2 t.routes (fun _ => sampleDigest) sampleRandom 0 (fun _ => sampleMask)
      fun _ => true) { network := s₀ } schedule = some s := by
  unfold runBridge
  cases buildFrom root with
  | error e => simp [Except.toOption]
  | ok t => cases booted : bootDatagram .udp t.view <;> simp [Except.toOption, booted]

/-- Somebody sends straight to the gateway before the client connects. The network makes a second
one of a frame; the client has read the first text and a part of the second when the gateway
stops. -/
def frameTwice : List BridgeAct :=
  [.network (.direct 2 [7, 7]), .message, .connect, .session (.toClient 129),
    .network (.send 1 0x7F000001 (List.replicate 64 0x41) true),
    .network (.disturbInbound (.copy 0)),
    .network (.forward .zero 1 fun _ => true), .network (.forward .zero 2 fun _ => true),
    .message, .message, .session (.toClient 400), .closeServer]

/-- The first of two frames is lost on the way to the router. -/
def secondOnly : List BridgeAct :=
  [.connect, .session (.toClient 129), .network (.send 1 0x7F000001 RouterFrame.zero.bytes true),
    .network (.send 1 0x7F000001 (List.replicate 64 0x41) true),
    .network (.disturbInbound (.lose 0)),
    .network (.forward .zero 1 fun _ => true), .message, .session (.toClient 400)]

/-- One frame comes before the client connects and one after; both are read to the end. -/
def oneMissed : List BridgeAct :=
  [.network (.send 1 0x7F000001 RouterFrame.zero.bytes true),
    .network (.send 1 0x7F000001 (List.replicate 64 0x41) true),
    .network (.forward .zero 1 fun _ => true), .network (.forward .zero 2 fun _ => true),
    .message, .connect, .session (.toClient 129), .message, .session (.toClient 1000)]

end Results

end RoboticsIpc.NodeGateway
