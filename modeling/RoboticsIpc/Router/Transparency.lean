import RoboticsIpc.Router.FailureIsolation
import RoboticsIpc.Router.Serving
import RoboticsIpc.Router.ShmDelivery
import RoboticsIpc.Router.SourceIdentity

/-!
Transport transparency: what a router does with the messages it receives depends
on who published them, not on what carried them.

`copiesOf` and `reportsOf` say what a published message is worth, with no transport
in sight. The three servers, run event by event next to a log of what their peers
have published, each refine that (`LosslessRun.relays`); two of them that receive
the same messages therefore agree.
-/

namespace RoboticsIpc

open ByteBuffer Checked FanOut ShmSpsc StepRun Toml

/-- A message and the peer that published it. -/
abbrev Published := UInt8 × Bytes

variable {rules : List RouteRule}

/-! ### Without transports -/

/-- The copies of a published message, but for their timestamps. -/
def copiesOf (rules : List RouteRule) (f : Published) : List (UInt8 × Bytes) :=
  (Arrival.route rules ⟨f.1, f.2, 0⟩).map fun d => (d, withoutTimestamp (stamped f.1 0 f.2))

/-- The reports of a published message. -/
def reportsOf (rules : List RouteRule) (f : Published) : List (UInt8 × UInt8) :=
  (Arrival.route rules ⟨f.1, f.2, 0⟩).map fun d => (f.1, d)

/-- A router's logs and counter are what `published` is worth. -/
structure RelayOf (rules : List RouteRule) (published : List Published) (w : World)
    (forwarded : Nat) : Prop where
  handed : w.handed.map (Prod.map id withoutTimestamp) = published.flatMap (copiesOf rules)
  reported : w.reported = published.flatMap (reportsOf rules)
  forwarded : forwarded = (published.flatMap (copiesOf rules)).length

def Arrival.tag (a : Arrival) : Published := (a.source, a.message)

theorem deliveries_untimed (rules : List RouteRule) (arrivals : List Arrival) :
    (deliveries rules arrivals).map (Prod.map id withoutTimestamp) =
      (arrivals.map Arrival.tag).flatMap (copiesOf rules) := by
  have one : ∀ a : Arrival, ((a.route rules).map fun d => (d, withoutTimestamp a.frame)) =
      copiesOf rules a.tag := by
    intro a
    by_cases whole : a.message.length = kRouterFrameSize
    · have same : withoutTimestamp a.frame = withoutTimestamp (stamped a.source 0 a.message) :=
        withoutTimestamp_stamped whole 0
      rw [same]
      rfl
    · have nowhere : a.route rules = [] := if_neg whole
      have untimed : Arrival.route rules ⟨a.source, a.message, 0⟩ = [] := if_neg whole
      simp only [copiesOf, Arrival.tag, nowhere, untimed, List.map_nil]
  induction arrivals with
  | nil => rfl
  | cons a rest ih =>
      rw [← List.singleton_append, deliveries_append, List.map_append, ih, List.map_append,
        List.flatMap_append]
      congr 1
      simp only [deliveries, copies_singleton, List.map_map, Function.comp_def, Prod.map_apply,
        List.map_cons, List.map_nil, List.flatMap_cons, List.flatMap_nil, List.append_nil]
      exact one a

theorem reports_untimed (arrivals : List Arrival) :
    reports rules arrivals = (arrivals.map Arrival.tag).flatMap (reportsOf rules) := by
  rw [List.flatMap_map]
  rfl

/-- A router that has lost nothing. -/
theorem RelayOf.of_lossless {published : List Published} {w : World} {forwarded : Nat}
    (received : w.arrivals.map Arrival.tag = published)
    (handed : w.handed = deliveries rules w.arrivals)
    (reported : w.reported = reports rules w.arrivals) (counted : forwarded = w.handed.length) :
    RelayOf rules published w forwarded := by
  have worth := deliveries_untimed rules w.arrivals
  rw [received] at worth
  constructor
  · rw [handed, worth]
  · rw [reported, reports_untimed, received]
  · rw [counted, handed, ← worth, List.length_map]

/-! ### Servers and their peers -/

/-- A server next to what its peers have published and it has received. -/
structure Watched (Server : Type) where
  state : LinkState Server
  received : List Published := []

/-- The messages a scan of the peers' rings is about to take: a ring's messages are its peer's. -/
def publishedIn (t : LoadedTopology) (mem : ShmMemory) : List Published :=
  (scanTakes 0 (shmPorts t.peers) mem).map Arrival.tag

/-- When the scan is made does not matter. -/
theorem scanTakes_tags (ts : UInt64) (ports : List Port) (mem : ShmMemory) :
    (scanTakes ts ports mem).map Arrival.tag = (scanTakes 0 ports mem).map Arrival.tag := by
  induction ports generalizing mem with
  | nil => rfl
  | cons port rest ih =>
      unfold scanTakes
      split
      · exact ih mem
      · split
        · rfl
        · split
          · rw [List.map_cons, List.map_cons, ih]
            rfl
          · rfl

/-- The peers work on their rings, then the SHM server forwards. -/
structure ShmEvent where
  clients : ShmMemory → ShmMemory
  now : UInt64

/-- A datagram of `publisher`, and the kernel's answers while it is forwarded. -/
structure DatagramEvent (T : DatagramTransport) where
  publisher : UInt8
  sender : RecvResult T
  bytes : Bytes
  now : UInt64
  sendto : UInt8 → Bool

/-- A publisher sends from its own address. -/
def DatagramEvent.Own {T : DatagramTransport} (topo : RouterTopology) (e : DatagramEvent T) :
    Bool :=
  match peerById topo e.publisher with
  | none => false
  | some p => p.localAddress.sends T e.sender

/-- What of the datagram fits the buffer of one frame. -/
def DatagramEvent.published {T : DatagramTransport} (e : DatagramEvent T) : Published :=
  (e.publisher, e.bytes.take kRouterFrameSize)

/-- One of the mixed server's polls. -/
inductive MixedEvent where
  | shm (around : Surroundings) (now : UInt64)
  | datagram (T : DatagramTransport) (e : DatagramEvent T)

/-- An iteration of `RouterServer<ShmRouterLink>::run`. -/
def shmEvent (t : LoadedTopology) (w : Watched ShmRouterLink) (e : ShmEvent) :
    Option (Watched ShmRouterLink) :=
  some ⟨reportForward (ShmState.forward (w.state.clientsRan e.clients) e.now t.routes),
    w.received ++ publishedIn t (e.clients w.state.world.mem)⟩

/-- An iteration of `RouterServer<DatagramRouterLink<T>>::run`; there is no step if a
send fails. -/
def datagramEvent {T : DatagramTransport} (t : LoadedTopology) (w : Watched (DatagramRouterLink T))
    (e : DatagramEvent T) : Option (Watched (DatagramRouterLink T)) :=
  if e.Own t.view then
    match DatagramState.forward w.state e.now t.routes (.datagram e.sender e.bytes) e.sendto with
    | ⟨_, .error _⟩ => none
    | ⟨s, .ok fwd⟩ => some ⟨reportForward ⟨s, .ok fwd⟩, w.received ++ [e.published]⟩
  else
    none

/-- A poll of the mixed server; an exception would leave its loop. -/
def mixedEvent (t : LoadedTopology) (w : Watched MixedRouterServer) :
    MixedEvent → Option (Watched MixedRouterServer)
  | .shm around now =>
      match MixedState.pollShm t.routes now around w.state with
      | ⟨_, .error _⟩ => none
      | ⟨s, .ok _⟩ => some ⟨s, w.received ++ publishedIn t (around.clients w.state.world.mem)⟩
  | .datagram T e =>
      if e.Own t.view then
        match MixedState.pollDatagram (T := T) t.routes e.now ⟨id, e.sendto⟩
            (.datagram e.sender e.bytes) w.state with
        | ⟨_, .error _⟩ => none
        | ⟨s, .ok _⟩ => some ⟨s, w.received ++ [e.published]⟩
      else
        none

/-! ### Shared memory -/

variable {t : LoadedTopology}

/-- What an SHM server that is watched keeps. -/
structure ShmWatched (t : LoadedTopology) (w : Watched ShmRouterLink) : Prop where
  server : w.state.link.isServer = true
  ports : w.state.link.ports = shmPorts t.peers
  router : RouterInv t.routes (shmPorts t.peers) w.state
  received : w.state.world.arrivals.map Arrival.tag = w.received

theorem ShmWatched.step {w w' : Watched ShmRouterLink} {e : ShmEvent} (wellFormed : t.WellFormed)
    (all : t.AllShm) (inv : ShmWatched t w) (stepped : shmEvent t w e = some w') :
    ShmWatched t w' := by
  obtain ⟨server, ports, router, received⟩ := inv
  obtain rfl := Option.some.inj stepped
  have ready : RouterInv t.routes (shmPorts t.peers) (w.state.clientsRan e.clients) :=
    ⟨router.sources, router.handed, router.forwarded, router.dropped, router.reported⟩
  have wiredPorts : (w.state.clientsRan e.clients).link.ports = shmPorts t.peers := ports
  obtain ⟨shorts, discarded, spec, -, silent, -, wiring⟩ := forward_spec
    (s := w.state.clientsRan e.clients) e.now t.routes server
    (by rw [wiredPorts]; exact shmPorts_valid wellFormed)
    (by rw [wiredPorts]; exact routesTo_shmPorts wellFormed all)
    (popPreserves_true _ _) (fun payload _ => pushPreserves_true _ payload) trivial
  have forwarded := ready.forward wiredPorts discarded spec silent
  have arrivals : (reportForward (ShmState.forward (w.state.clientsRan e.clients) e.now
      t.routes)).world.arrivals = w.state.world.arrivals ++
        scanTakes e.now (shmPorts t.peers) (e.clients w.state.world.mem) := by
    have roles : ∀ c ∈ w.state.link.peerChannels, c.endpoint.isServerRole = true := by
      intro c mem
      refine shmPorts_server t.peers c.port ?_
      rw [← ports]
      exact List.mem_map_of_mem mem
    rw [reportForward_arrivals, forward_arrivals (s := w.state.clientsRan e.clients) server, ← ports]
    exact scanChannels_takes e.now (s := w.state.clientsRan e.clients) roles
  constructor
  · rw [reportForward_link, wiring.server]
    exact server
  · rw [reportForward_link, ← ports]
    exact wiring.ports
  · exact forwarded
  · rw [arrivals, List.map_append, received, scanTakes_tags, publishedIn]

/-- An SHM server that has dropped nothing relays what it has received. -/
theorem ShmWatched.relays {w : Watched ShmRouterLink} (inv : ShmWatched t w)
    (room : w.state.link.metrics.droppedFull = 0) :
    RelayOf t.routes w.received w.state.world w.state.link.metrics.forwarded := by
  have count := inv.router.dropped
  rw [room, Nat.zero_add] at count
  exact .of_lossless inv.received (inv.router.handed.eq_of_length count) inv.router.reported
    inv.router.forwarded

/-! ### Datagrams -/

variable {T : DatagramTransport}

/-- What a datagram server that is watched keeps. -/
structure DatagramWatched (t : LoadedTopology) (w : Watched (DatagramRouterLink T)) : Prop where
  topo : w.state.link.topo = t.view
  server : w.state.link.isServer = true
  handed : w.state.world.handed = deliveries t.routes w.state.world.arrivals
  reported : w.state.world.reported = reports t.routes w.state.world.arrivals
  forwarded : w.state.link.metrics.forwarded = w.state.world.handed.length
  received : w.state.world.arrivals.map Arrival.tag = w.received

/-- With addresses of their own, publishers are who the router takes them for. -/
theorem DatagramEvent.attributed {e : DatagramEvent T} (unshared : ∀ p ∈ t.peers, Unshared t.peers p)
    (own : e.Own t.view = true) :
    (∃ p ∈ t.peers, p.localAddress.sends T e.sender = true) ∧
      (arrivalOf t.view e.now e.sender e.bytes).tag = e.published := by
  unfold DatagramEvent.Own at own
  cases found : peerById t.view e.publisher with
  | none => simp [found] at own
  | some p =>
      simp only [found] at own
      have declared : p ∈ t.peers := List.mem_of_find?_eq_some found
      have id : p.id = e.publisher := by simpa using List.find?_some found
      refine ⟨⟨p, declared, own⟩, ?_⟩
      have source : peerIdFromRecv T t.view e.sender = e.publisher := by
        rw [← id]
        refine peerIdFromRecv_of_unique declared own ?_
        intro q peer fits
        exact unshared p declared q peer (clashes_of_sends fits own)
      simp only [arrivalOf, Arrival.tag, DatagramEvent.published, source]

theorem DatagramWatched.step {w w' : Watched (DatagramRouterLink T)} {e : DatagramEvent T}
    (wellFormed : t.WellFormed) (unshared : ∀ p ∈ t.peers, Unshared t.peers p)
    (inv : DatagramWatched t w) (stepped : datagramEvent t w e = some w') :
    DatagramWatched t w' := by
  obtain ⟨topo, server, handed, reported, forwarded, received⟩ := inv
  unfold datagramEvent at stepped
  by_cases own : e.Own t.view = true
  · obtain ⟨-, tag⟩ := e.attributed unshared own
    have known : RulesFor w.state.link.topo t.routes := by
      rw [topo]
      exact rulesFor wellFormed
    have spec := forward_datagram e.now e.sendto server known e.sender e.bytes
    rw [topo] at spec
    rw [if_pos own] at stepped
    revert spec tag
    generalize arrivalOf t.view e.now e.sender e.bytes = a
    intro tag spec
    cases call : DatagramState.forward w.state e.now t.routes (.datagram e.sender e.bytes) e.sendto with
    | mk s result =>
        rw [call] at spec stepped
        rcases spec.result with ⟨err, thrown, -⟩ | ⟨fwd, ok, targets, source, all⟩
        · obtain rfl : result = .error err := thrown
          cases stepped
        · obtain rfl : result = .ok fwd := ok
          obtain rfl := Option.some.inj stepped
          have whole : (a.route t.routes).takeWhile (delivers t.view e.sendto) = a.route t.routes := by
            rw [List.takeWhile_eq_self_iff, ← topo]
            exact all
          have world := spec.world
          have counted := spec.forwarded
          simp only [topo, whole] at world counted
          have arrivals : s.world.arrivals = w.state.world.arrivals ++ [a] := by rw [world]
          have due : deliveries t.routes s.world.arrivals = deliveries t.routes w.state.world.arrivals ++
              (a.route t.routes).map fun d => (d, a.frame) := by
            rw [arrivals, deliveries_append]
            simp only [deliveries, copies_singleton]
          have reportsNew := spec.reported known rfl
          constructor
          · rw [reportForward_link, spec.topo, topo]
          · rw [reportForward_link, spec.server]
            exact server
          · rw [reportForward_handed, reportForward_arrivals, due, world, handed]
          · rw [reportsNew, reportForward_arrivals, arrivals, reports_append, reports_singleton, reported]
          · rw [reportForward_link, reportForward_handed, counted, world, forwarded]
            simp
          · rw [reportForward_arrivals, arrivals, List.map_append, received]
            simp [tag]
  · rw [if_neg own] at stepped
    cases stepped

theorem DatagramWatched.relays {w : Watched (DatagramRouterLink T)} (inv : DatagramWatched t w) :
    RelayOf t.routes w.received w.state.world w.state.link.metrics.forwarded :=
  .of_lossless inv.received inv.handed inv.reported inv.forwarded

/-! ### All transports -/

/-- What a mixed server that is watched has done since `s₀`. -/
structure MixedWatched (t : LoadedTopology) (s₀ : MixedState) (polls : List Poll)
    (w : Watched MixedRouterServer) : Prop where
  polled : Polled t polls s₀ w.state
  unrefused : ∀ poll ∈ polls, poll.Unrefused t
  received : (polls.flatMap Poll.taken).map Arrival.tag = w.received

theorem kind_of_sends {address : PeerAddress} {sender : RecvResult T}
    (sends : address.sends T sender = true) : address.kind = T.kind := by
  cases T <;> cases address <;> first | rfl | cases sends

/-- A poll that has thrown nothing. -/
theorem MixedWatched.poll {s₀ : MixedState} {polls : List Poll} {w : Watched MixedRouterServer}
    {cause : Prop} {poll : Poll} {s : MixedState} {worked : Bool} {published : List Published}
    (inv : MixedWatched t s₀ polls w) (spec : PollSpec t cause poll w.state ⟨s, .ok worked⟩)
    (taken : poll.taken.map Arrival.tag = published) :
    MixedWatched t s₀ (polls ++ [poll]) ⟨s, w.received ++ published⟩ := by
  obtain ⟨polled, unrefused, received⟩ := inv
  rcases spec.result with ⟨-, all⟩ | ⟨e, thrown, -⟩
  · refine ⟨polled.append spec.polled, ?_, ?_⟩
    · intro other mem
      rcases List.mem_append.mp mem with earlier | last
      · exact unrefused other earlier
      · obtain rfl := List.mem_singleton.mp last
        exact all
    · rw [List.flatMap_append, List.map_append, received, List.flatMap_cons, List.flatMap_nil,
        List.append_nil, taken]
  · cases thrown

theorem MixedWatched.step {s₀ : MixedState} {polls : List Poll} {w w' : Watched MixedRouterServer}
    {e : MixedEvent} (wellFormed : t.WellFormed) (unshared : ∀ p ∈ t.peers, Unshared t.peers p)
    (inv : MixedWatched t s₀ polls w) (stepped : mixedEvent t w e = some w') :
    ∃ polls', MixedWatched t s₀ polls' w' := by
  have wired := inv.polled.wired
  cases e with
  | shm around now =>
      have spec := pollShm_spec now around wellFormed wired
      unfold mixedEvent at stepped
      cases polled : MixedState.pollShm t.routes now around w.state with
      | mk s result =>
          rw [polled] at spec
          simp only [polled] at stepped
          cases result with
          | error err => cases stepped
          | ok worked =>
              obtain rfl := Option.some.inj stepped
              exact ⟨_, inv.poll spec (scanTakes_tags now _ _)⟩
  | datagram T e =>
      unfold mixedEvent at stepped
      by_cases own : e.Own t.view = true
      · obtain ⟨⟨p, declared, sends⟩, tag⟩ := e.attributed unshared own
        have needed : hasKind t.view T.kind = true :=
          hasKind_iff.mpr ⟨p, declared, kind_of_sends sends⟩
        have spec := pollDatagram_spec e.now ⟨id, e.sendto⟩ wellFormed wired
          (.datagram e.sender e.bytes)
        rw [takenBy, if_pos needed] at spec
        simp only [own, if_true] at stepped
        cases polled : MixedState.pollDatagram (T := T) t.routes e.now ⟨id, e.sendto⟩
            (.datagram e.sender e.bytes) w.state with
        | mk s result =>
            rw [polled] at spec
            simp only [polled] at stepped
            cases result with
            | error err => cases stepped
            | ok worked =>
                obtain rfl := Option.some.inj stepped
                exact ⟨_, inv.poll spec (by simp only [taken, List.map_cons, List.map_nil, tag])⟩
      · simp only [own] at stepped
        cases stepped

/-- A mixed server that has dropped nothing since it was bound relays what it has received. -/
theorem MixedWatched.relays {m : MixedRouterServer} {frame : RouterFrame} {mem : ShmMemory}
    {polls : List Poll} {w : Watched MixedRouterServer}
    (inv : MixedWatched t ⟨m, frame, { mem }⟩ polls w) (forwardedNone : m.forwarded = 0)
    (droppedNone : m.droppedFull = 0) (room : w.state.link.droppedFull = 0) :
    RelayOf t.routes w.received w.state.world w.state.link.forwarded := by
  obtain ⟨copies, reported⟩ := copies_unrefused inv.unrefused
  obtain ⟨placed, made⟩ := inv.polled.copies
  have arrivals : w.state.world.arrivals = polls.flatMap Poll.taken := by
    simpa using inv.polled.arrivals
  have handed : w.state.world.handed = placed := by simpa using made.handed
  have count : placed.length = (deliveries t.routes w.state.world.arrivals).length := by
    have kept := made.dropped
    simp only [droppedNone, room, Nat.zero_add, copies, ← arrivals] at kept
    exact kept
  have sub := made.sub
  rw [copies, ← arrivals] at sub
  refine .of_lossless ?_ (handed.trans (sub.eq_of_length count)) ?_ ?_
  · rw [arrivals, inv.received]
  · rw [arrivals, ← reported]
    simpa using inv.polled.reported
  · rw [handed]
    simpa [forwardedNone] using made.forwarded

/-! ### Any two servers -/

/-- A run of one of the servers, from its binding on, in which no send fails and no
ring is found full: what it has received, and what it leaves behind. -/
inductive LosslessRun (t : LoadedTopology) : List Published → World → Nat → Prop
  | shm (all : t.AllShm) (mem mem' : ShmMemory) (link : ShmRouterLink) (frame : RouterFrame)
      (bound : (ShmRouterLink.server t.view).bindRouter mem = .ok (link, mem'))
      (events : List ShmEvent) (w : Watched ShmRouterLink)
      (ran : run (shmEvent t) ⟨⟨link, frame, { mem := mem' }⟩, []⟩ events = some w)
      (room : w.state.link.metrics.droppedFull = 0) :
      LosslessRun t w.received w.state.world w.state.link.metrics.forwarded
  | datagram (T : DatagramTransport) (params : BindParams T) (link : DatagramRouterLink T)
      (frame : RouterFrame) (mem : ShmMemory)
      (bound : (DatagramRouterLink.server T t.view).bindRouter params = .ok link)
      (events : List (DatagramEvent T)) (w : Watched (DatagramRouterLink T))
      (ran : run (datagramEvent t) ⟨⟨link, frame, { mem }⟩, []⟩ events = some w) :
      LosslessRun t w.received w.state.world w.state.link.metrics.forwarded
  | mixed (mem mem' : ShmMemory) (m : MixedRouterServer) (frame : RouterFrame)
      (bound : (MixedRouterServer.server t.view).bindRouter mem = .ok (m, mem'))
      (events : List MixedEvent) (w : Watched MixedRouterServer)
      (ran : run (mixedEvent t) ⟨⟨m, frame, { mem := mem' }⟩, []⟩ events = some w)
      (room : w.state.link.droppedFull = 0) :
      LosslessRun t w.received w.state.world w.state.link.forwarded

/-- Every server refines the relay without transports. -/
theorem LosslessRun.relays {published : List Published} {w : World} {forwarded : Nat}
    (wellFormed : t.WellFormed) (unshared : ∀ p ∈ t.peers, Unshared t.peers p)
    (ran : LosslessRun t published w forwarded) : RelayOf t.routes published w forwarded := by
  cases ran with
  | shm all mem mem' link frame bound events w ran room =>
      have start : ShmWatched t ⟨⟨link, frame, { mem := mem' }⟩, []⟩ := by
        have booted : bootShm t.view mem = .ok { router := ⟨link, .zero, { mem := mem' }⟩ } := by
          simp only [bootShm, bound]
        obtain ⟨server, metrics⟩ := ShmRouterLink.bindRouter_server bound
        refine ⟨server, bootShm_ports booted, ?_, rfl⟩
        exact ⟨by simp, List.Sublist.refl _, by rw [metrics]; rfl, by rw [metrics]; rfl, rfl⟩
      exact (run_inv start (fun w e w' inv stepped => inv.step wellFormed all stepped) ran).relays room
  | datagram T params link frame mem bound events w ran =>
      have start : DatagramWatched t ⟨⟨link, frame, { mem }⟩, []⟩ := by
        simp only [DatagramRouterLink.bindRouter, DatagramRouterLink.server] at bound
        cases bound
        exact ⟨rfl, rfl, rfl, rfl, rfl, rfl⟩
      exact (run_inv start
        (fun w e w' inv stepped => inv.step wellFormed unshared stepped) ran).relays
  | mixed mem mem' m frame bound events w ran room =>
      obtain ⟨m', after, same, wired, -⟩ := mixed_bindRouter wellFormed mem
      cases bound.symm.trans same
      obtain ⟨forwardedNone, droppedNone⟩ := mixed_bindRouter_counters bound
      have start : ∃ polls, MixedWatched t ⟨m, frame, { mem := mem' }⟩ polls
          ⟨⟨m, frame, { mem := mem' }⟩, []⟩ :=
        ⟨[], .nil wired, by simp, rfl⟩
      obtain ⟨polls, inv⟩ := run_inv
        (I := fun w => ∃ polls, MixedWatched t ⟨m, frame, { mem := mem' }⟩ polls w) start (by
          intro w e w' watched stepped
          obtain ⟨polls, inv⟩ := watched
          exact inv.step wellFormed unshared stepped) ran
      exact inv.relays forwardedNone droppedNone room

/-- A peer's client puts a message into its ring. -/
def publishInto (name : String) (params : RingParams) (msg : Bytes) (mem : ShmMemory) : ShmMemory :=
  (trySend ⟨cStr (ascii name), params, false⟩ mem msg).1

/-- A frame that claims to be from peer 9. -/
def borrowedFrame : Bytes := 9 :: List.replicate 63 5

/-- Peer 1 publishes the frame to the SHM server, to the UDS server and to the mixed
server. -/
def shmPublishes : List ShmEvent :=
  [⟨publishInto "/a" oneFrame borrowedFrame, 4⟩]

def udsPublishes : List (DatagramEvent .uds) :=
  [⟨1, SockaddrUn.mk (cStr (ascii "/tmp/a.sock")), borrowedFrame, 5, fun _ => true⟩]

def mixedPublishes : List MixedEvent :=
  [.shm ⟨publishInto "/a" defaultRingParams borrowedFrame, fun _ => true⟩ 6]

end RoboticsIpc
