import RoboticsIpc.Lib.Channel
import RoboticsIpc.Lib.StepRun
import RoboticsIpc.Router.Serving
import RoboticsIpc.Router.ShmDelivery
import RoboticsIpc.Router.SourceIdentity

/-!
A datagram router with its peers and the network between them: clients send to the router's
socket, the router forwards to the peers' sockets, clients receive.

The sockets' queues are `Channel`s, and what the network does to them depends on the weather.
UDP may lose, duplicate and reorder; a UNIX socket does none of these. Strangers, whose address
no peer declares, may send to the router as well, and anybody straight to a peer's socket: a
receiver looks at no sender. Over UDP the router tells senders apart by their ports, so a sender
at a declared port is that peer to it, on whatever host it is. Three results, each about every
run: what a peer receives is another peer's message, with that peer's id on it, or was sent
straight to it (`datagram_genuine`). Of what comes from the router, nothing comes twice or out of
order where the network only loses (`datagram_in_order`), and everything comes where it does
nothing (`datagram_complete`).
-/

namespace RoboticsIpc

open ByteBuffer Checked DatagramChannel FanOut StepRun Toml

variable {T : DatagramTransport}

/-! ### The system -/

/-- Whose socket a datagram to a peer has left. -/
inductive Origin where
  | router
  | other
deriving DecidableEq

structure DatagramSystem (T : DatagramTransport) where
  router : DatagramState T
  /-- To the router's socket: each datagram with its sender's address. -/
  inbound : Channel (RecvResult T × Bytes) := {}
  /-- To each peer's socket. -/
  outbound : UInt8 → Channel (Origin × Bytes) := fun _ => {}
  /-- What each peer has sent to the router. -/
  published : UInt8 → List Bytes := fun _ => []

inductive DatagramAct (T : DatagramTransport) where
  /-- A peer sends to the router, over UDP from any host. -/
  | send (peer : UInt8) (host : UInt32) (msg : Bytes) (sendto : Bool)
  /-- A stranger sends to the router. -/
  | stray (sender : RecvResult T) (msg : Bytes)
  /-- Somebody sends to the socket of a peer. -/
  | direct (peer : UInt8) (msg : Bytes)
  | forward (scratch : RouterFrame) (ts : UInt64) (sendto : UInt8 → Bool)
  | recv (peer : UInt8)
  | disturbInbound (fault : Fault)
  | disturbOutbound (peer : UInt8) (fault : Fault)

/-- A router of transport `T` bound as `run_datagram_router` binds it. -/
def bootDatagram (T : DatagramTransport) (topo : RouterTopology) :
    Except RuntimeError (DatagramSystem T) := do
  let link ← runDatagramRouter T topo
  return { router := ⟨link, .zero, { mem := noShm }⟩ }

/-- The address a receiver sees a bound socket send from. A UDP socket is bound to a port on all
of its host's addresses. -/
def senderOf : (T : DatagramTransport) → BindParams T → UInt32 → RecvResult T
  | .uds, path, _ => sockaddrUn path
  | .udp, port, host => SockaddrIn.mk host port

/-- A datagram for this address comes to the socket bound so. -/
def reachesBound : (T : DatagramTransport) → BindParams T → SockAddr → Bool
  | .uds, path, .un dest => sockaddrUn path == dest
  | .udp, port, .inet dest => dest.sinPort == port
  | _, _, _ => false

/-- No declared peer has the sender's address; over UDP, its port. -/
def IsStranger (topo : RouterTopology) (sender : RecvResult T) : Prop :=
  ∀ e ∈ topo.peers, e.localAddress.sends T sender = false

instance (topo : RouterTopology) (sender : RecvResult T) : Decidable (IsStranger topo sender) :=
  inferInstanceAs (Decidable (∀ e ∈ topo.peers, _))

namespace DatagramSystem

/-- `send_to_router` of a peer's client. -/
def send (s : DatagramSystem T) (peer : UInt8) (host : UInt32) (msg : Bytes) (sendto : Bool) :
    Option (DatagramSystem T) :=
  match DatagramRouterLink.client T s.router.link.topo peer with
  | .error _ => none
  | .ok client =>
      match client.bound, client.sendToRouter sendto, s.router.link.bound with
      | some own, .ok dest, some listen =>
          if reachesBound T listen dest then
            some { s with
              inbound := s.inbound.send [(senderOf T own host, msg)]
              published := Function.update s.published peer (s.published peer ++ [msg]) }
          else some s
      | _, _, _ => some s

/-- One iteration of the router's loop. The copies that `sendto` took are under way. -/
def forward (rules : List RouteRule) (s : DatagramSystem T) (scratch : RouterFrame) (ts : UInt64)
    (sendto : UInt8 → Bool) : DatagramSystem T :=
  let router : DatagramState T := { s.router with frame := scratch }
  match s.inbound.receive with
  | none => { s with router := reportForward (router.forward ts rules .none sendto) }
  | some ((sender, bytes), inbound) =>
      let router := reportForward (router.forward ts rules (.datagram sender bytes) sendto)
      let fresh := router.world.handed.drop s.router.world.handed.length
      { s with
        router, inbound
        outbound := fun d => (s.outbound d).send ((share fresh d).map fun f => (.router, f)) }

/-- `recv_message` of a peer's client. -/
def recv (s : DatagramSystem T) (peer : UInt8) : DatagramSystem T :=
  match (s.outbound peer).receive with
  | none => s
  | some (_, channel) => { s with outbound := Function.update s.outbound peer channel }

end DatagramSystem

/-- What has left the router's socket, and what another's. -/
def leftBy (origin : Origin) (datagrams : List (Origin × Bytes)) : List Bytes :=
  (datagrams.filter fun d => d.1 = origin).map Prod.snd

/-- What a peer's client has read from its socket. -/
def DatagramSystem.received (s : DatagramSystem T) (p : UInt8) : List Bytes :=
  (s.outbound p).received.map Prod.snd

/-- What of it has come from the router. -/
def DatagramSystem.relayed (s : DatagramSystem T) (p : UInt8) : List Bytes :=
  leftBy .router (s.outbound p).received

def datagramStep (rules : List RouteRule) (s : DatagramSystem T) :
    DatagramAct T → Option (DatagramSystem T)
  | .send peer host msg sendto => s.send peer host msg sendto
  | .stray sender msg =>
      if IsStranger s.router.link.topo sender then
        some { s with inbound := s.inbound.send [(sender, msg)] }
      else none
  | .direct peer msg => some { s with
      outbound := Function.update s.outbound peer ((s.outbound peer).send [(.other, msg)]) }
  | .forward scratch ts sendto => some (s.forward rules scratch ts sendto)
  | .recv peer => some (s.recv peer)
  | .disturbInbound fault => some { s with inbound := s.inbound.disturb fault }
  | .disturbOutbound peer fault => some { s with
      outbound := Function.update s.outbound peer ((s.outbound peer).disturb fault) }

/-! ### Addresses -/

/-- A datagram as the router takes it: who it is from, and as much as fits a frame. -/
def attributed (topo : RouterTopology) (d : RecvResult T × Bytes) : UInt8 × Bytes :=
  (peerIdFromRecv T topo d.1, d.2.take kRouterFrameSize)

theorem sockaddrUn_sunPath {path : CStr} (fits : path.bytes.length ≤ kUdsPathMaxLen) :
    (sockaddrUn path).sunPath = path := by
  obtain ⟨bytes, noNul⟩ := path
  rw [sockaddrUn, List.take_of_length_le fits]
  simpa only [cStr, CStr.mk.injEq] using cStr_of_noNul noNul

/-- A peer's own socket sends from its declared address. -/
theorem sends_senderOf {address : PeerAddress} (wellFormed : address.WellFormed)
    {own : BindParams T} (bound : DatagramRouterLink.bindDatagramEndpoint T address = .ok own)
    (host : UInt32) : address.sends T (senderOf T own host) = true := by
  cases T with
  | uds =>
      cases address with
      | uds path =>
          cases bound
          exact beq_iff_eq.mpr (sockaddrUn_sunPath wellFormed.2).symm
      | udp endpoint => cases bound
      | shm name => cases bound
  | udp =>
      cases address with
      | uds path => cases bound
      | udp endpoint =>
          cases bound
          simp [PeerAddress.sends, senderOf]
      | shm name => cases bound

/-- A client link is bound to the address its peer declares. -/
theorem client_eq_ok {topo : RouterTopology} {peer : UInt8} {client : DatagramRouterLink T}
    (opened : DatagramRouterLink.client T topo peer = .ok client) :
    ∃ e ∈ topo.peers, e.id = peer ∧ ∃ own,
      DatagramRouterLink.bindDatagramEndpoint T e.localAddress = .ok own ∧
      client.bound = some own := by
  unfold DatagramRouterLink.client at opened
  cases found : peerById topo peer with
  | none => simp [found] at opened
  | some e =>
      have id : e.id = peer := by simpa using List.find?_some found
      simp only [found] at opened
      cases bound : DatagramRouterLink.bindDatagramEndpoint T e.localAddress with
      | error err => simp [bound] at opened
      | ok own =>
          simp only [bound, Except.ok.injEq] at opened
          exact ⟨e, List.mem_of_find?_eq_some found, id, own, bound, by rw [← opened]⟩

/-! ### Invariant -/

/-- Steps that may happen in this weather. In calm weather the network leaves the datagrams
alone and the kernel takes every one. -/
def DatagramAct.InWeather (w : Weather) : DatagramAct T → Prop
  | .forward _ _ sendto => w = .calm → ∀ d, sendto d = true
  | .disturbInbound fault | .disturbOutbound _ fault => w.Allows fault
  | .send .. | .stray .. | .direct .. | .recv _ => True

/-- What an act sends straight to the socket of `p`. -/
def DatagramAct.straightTo (p : UInt8) : DatagramAct T → Option Bytes
  | .direct peer msg => if peer = p then some msg else none
  | _ => none

/-- All that was sent straight to it. -/
def sentStraightTo (p : UInt8) (schedule : List (DatagramAct T)) : List Bytes :=
  schedule.filterMap (DatagramAct.straightTo p)

/-- A datagram can be sent to every declared peer's address. -/
def Sendable (peers : List PeerEntry) : Prop :=
  ∀ p ∈ peers, (sendDatagramToAddress true p.localAddress).isOk = true

instance (peers : List PeerEntry) : Decidable (Sendable peers) :=
  inferInstanceAs (Decidable (∀ p ∈ peers, _))

/-- Everything a run of the system keeps. -/
structure NetworkInv (t : LoadedTopology) (w : Weather) (s : DatagramSystem T) : Prop where
  topo : s.router.link.topo = t.view
  server : s.router.link.isServer = true
  taken : s.router.world.arrivals.map (fun a => (a.source, a.message)) =
    s.inbound.received.map (attributed t.view)
  published : ∀ p ∈ t.peers, (s.inbound.sent.filter fun d =>
    peerIdFromRecv T t.view d.1 = p.id).map Prod.snd = s.published p.id
  handed : w.Keeps s.router.world.handed (deliveries t.routes s.router.world.arrivals)
  shares : ∀ d, leftBy .router (s.outbound d).sent = share s.router.world.handed d
  inbound : s.inbound.Holds w
  outbound : ∀ d, (s.outbound d).Holds w

variable {t : LoadedTopology} {w : Weather} {s s' : DatagramSystem T} {rules : List RouteRule}
  {origin : Origin} {before after : List (Origin × Bytes)}

theorem leftBy_append : leftBy origin (before ++ after) = leftBy origin before ++ leftBy origin after := by
  rw [leftBy, List.filter_append, List.map_append, leftBy, leftBy]

/-- Copies leave the router's socket, and no other. -/
theorem leftBy_copies (frames : List Bytes) :
    leftBy origin (frames.map fun f => (Origin.router, f)) =
      if origin = .router then frames else [] := by
  by_cases here : origin = .router
  · subst here
    simp [leftBy, List.filter_map, Function.comp_def]
  · simp [leftBy, List.filter_map, Function.comp_def, here, Ne.symm here]

theorem mem_leftBy {msg : Bytes} : msg ∈ leftBy origin before ↔ (origin, msg) ∈ before := by
  simp [leftBy]

theorem networkInv_boot (booted : bootDatagram T t.view = .ok s) : NetworkInv t w s := by
  obtain ⟨link, bound, made⟩ := bind_eq_ok.mp booted
  obtain ⟨params, -, linked⟩ := bind_eq_ok.mp bound
  cases made
  cases linked
  exact ⟨rfl, rfl, rfl, fun _ _ => rfl, .refl w [], fun _ => rfl, Channel.holds_new w,
    fun _ => Channel.holds_new w⟩

/-- A datagram of a peer counts as its own, and as nobody else's. -/
theorem NetworkInv.sent (inv : NetworkInv t w s) {sender : RecvResult T} {msg : Bytes}
    {published : UInt8 → List Bytes}
    (grown : ∀ p ∈ t.peers, published p.id =
      s.published p.id ++ if peerIdFromRecv T t.view sender = p.id then [msg] else []) :
    NetworkInv t w { s with inbound := s.inbound.send [(sender, msg)], published } := by
  refine ⟨inv.topo, inv.server, inv.taken, ?_, inv.handed, inv.shares, inv.inbound.send _,
    inv.outbound⟩
  intro p declared
  simp only [Channel.send, List.filter_append, List.map_append, inv.published p declared,
    grown p declared]
  congr 1
  by_cases same : peerIdFromRecv T t.view sender = p.id <;> simp [same]

theorem NetworkInv.send (wellFormed : t.WellFormed) (own : ∀ p ∈ t.peers, Unshared t.peers p)
    (inv : NetworkInv t w s) {peer : UInt8} {host : UInt32} {msg : Bytes} {sendto : Bool}
    (step : s.send peer host msg sendto = some s') : NetworkInv t w s' := by
  unfold DatagramSystem.send at step
  rw [inv.topo] at step
  cases opened : DatagramRouterLink.client T t.view peer with
  | error e => simp [opened] at step
  | ok client =>
      obtain ⟨e, declared, rfl, address, bound, isBound⟩ := client_eq_ok opened
      simp only [opened, isBound] at step
      split at step
      · rename_i bind dest listen same reached bindings
        obtain rfl := Option.some.inj same
        split at step
        · cases step
          have id : peerIdFromRecv T t.view (senderOf T address host) = e.id :=
            (recognised wellFormed declared (own e declared)).datagram T _
              (sends_senderOf (wellFormed.peers e declared).address bound host)
          refine inv.sent fun p _ => ?_
          rw [id]
          by_cases here : e.id = p.id
          · simp [here]
          · simp [here, Function.update_of_ne (Ne.symm here)]
        · cases step
          exact inv
      · cases step
        exact inv

/-- A stranger is nobody. -/
theorem NetworkInv.stray (wellFormed : t.WellFormed) (inv : NetworkInv t w s)
    {sender : RecvResult T} (stranger : IsStranger t.view sender) (msg : Bytes) :
    NetworkInv t w { s with inbound := s.inbound.send [(sender, msg)] } := by
  have nobody : peerIdFromRecv T t.view sender = kEndpointInvalid := peerIdFromRecv_stranger stranger
  refine inv.sent fun p declared => ?_
  have other : kEndpointInvalid ≠ p.id := (wellFormed.peers p declared).id_ne_invalid.symm
  simp [nobody, other]

/-- The destinations a fan-out gets to. -/
theorem keeps_reached {dests : List UInt8} {sendto : UInt8 → Bool}
    (sends : w = .calm → ∀ d ∈ dests, delivers t.view sendto d = true) :
    w.Keeps (dests.takeWhile (delivers t.view sendto)) dests := by
  cases w with
  | stormy => exact fun d mem => (List.takeWhile_sublist _).subset mem
  | lossy => exact List.takeWhile_sublist _
  | calm => exact List.takeWhile_eq_self_iff.mpr (sends rfl)

theorem delivers_of_sendable (sendable : Sendable t.peers) {sendto : UInt8 → Bool} {d : UInt8}
    (taken : sendto d = true) (declared : (peerById t.view d).isSome) :
    delivers t.view sendto d = true := by
  obtain ⟨e, found⟩ := Option.isSome_iff_exists.mp declared
  simp only [delivers, found, taken]
  exact sendable e (List.mem_of_find?_eq_some found)

/-- One call of `forward` on a received datagram. -/
theorem NetworkInv.relay (wellFormed : t.WellFormed) (sendable : w = .calm → Sendable t.peers)
    (inv : NetworkInv t w s) (st : DatagramState T) (link : st.link = s.router.link)
    (world : st.world = s.router.world) (ts : UInt64) {sendto : UInt8 → Bool}
    (taken : w = .calm → ∀ d, sendto d = true) {sender : RecvResult T} {bytes : Bytes}
    {inbound : Channel (RecvResult T × Bytes)}
    (received : s.inbound.receive = some ((sender, bytes), inbound)) :
    let router := reportForward (st.forward ts t.routes (.datagram sender bytes) sendto)
    let fresh := router.world.handed.drop s.router.world.handed.length
    NetworkInv t w { s with
      router, inbound
      outbound := fun d => (s.outbound d).send ((share fresh d).map fun f => (.router, f)) } := by
  have known := rulesFor wellFormed
  have topo : st.link.topo = t.view := link ▸ inv.topo
  have spec := forward_datagram (s := st) ts sendto (link ▸ inv.server) (topo ▸ known) sender bytes
  rw [topo] at spec
  obtain ⟨sent, log, -⟩ := Channel.receive_eq_some received
  generalize made : arrivalOf t.view ts sender bytes = a at spec
  generalize st.forward ts t.routes (.datagram sender bytes) sendto = r at spec
  have after := spec.world
  rw [topo, world] at after
  intro router fresh
  have arrivals : router.world.arrivals = s.router.world.arrivals ++ [a] := by
    rw [reportForward_arrivals, after]
  have handed : router.world.handed = s.router.world.handed ++
      ((a.route t.routes).takeWhile (delivers t.view sendto)).map fun d => (d, a.frame) := by
    rw [reportForward_handed, after]
  have reached : w.Keeps ((a.route t.routes).takeWhile (delivers t.view sendto))
      (a.route t.routes) :=
    keeps_reached fun calm d listed =>
      delivers_of_sendable (sendable calm) (taken calm d) (known.route_declared a d listed)
  refine ⟨?_, ?_, ?_, ?_, ?_, ?_, inv.inbound.receive received, fun d => (inv.outbound d).send _⟩
  · rw [reportForward_link, spec.topo, topo]
  · rw [reportForward_link, spec.server, link, inv.server]
  · rw [arrivals, log, List.map_append, List.map_append, inv.taken, ← made]
    rfl
  · rw [sent]
    exact inv.published
  · rw [handed, arrivals, deliveries_append]
    refine inv.handed.append ?_
    rw [deliveries, copies_singleton]
    exact reached.map _
  · intro d
    have since : fresh = ((a.route t.routes).takeWhile (delivers t.view sendto)).map
        fun d => (d, a.frame) := by
      simp only [fresh, handed, List.drop_left]
    have copies : leftBy .router ((share fresh d).map fun f => (Origin.router, f)) = share fresh d :=
      (leftBy_copies _).trans (if_pos rfl)
    rw [handed, share_append, ← inv.shares d, ← since]
    exact leftBy_append.trans (congrArg _ copies)

theorem NetworkInv.forward (wellFormed : t.WellFormed) (sendable : w = .calm → Sendable t.peers)
    (inv : NetworkInv t w s) (scratch : RouterFrame) (ts : UInt64) {sendto : UInt8 → Bool}
    (taken : w = .calm → ∀ d, sendto d = true) :
    NetworkInv t w (s.forward t.routes scratch ts sendto) := by
  simp only [DatagramSystem.forward]
  cases received : s.inbound.receive with
  | none =>
      -- The receive times out and throws.
      have silent : ∀ st : DatagramState T, st.link.isServer = true →
          reportForward (st.forward ts t.routes .none sendto) = st := by
        intro st server
        unfold DatagramState.forward
        rw [if_neg (by simp [server])]
        rfl
      dsimp only
      rw [silent ⟨s.router.link, scratch, s.router.world⟩ inv.server]
      exact ⟨inv.topo, inv.server, inv.taken, inv.published, inv.handed, inv.shares, inv.inbound,
        inv.outbound⟩
  | some found =>
      exact inv.relay wellFormed sendable { s.router with frame := scratch } rfl rfl ts taken received

theorem NetworkInv.recv (inv : NetworkInv t w s) (peer : UInt8) :
    NetworkInv t w (s.recv peer) := by
  unfold DatagramSystem.recv
  cases received : (s.outbound peer).receive with
  | none => exact inv
  | some found =>
      obtain ⟨d, channel⟩ := found
      refine ⟨inv.topo, inv.server, inv.taken, inv.published, inv.handed, ?_, inv.inbound, ?_⟩
      · intro p
        by_cases here : p = peer
        · subst here
          simp only [Function.update_self]
          rw [(Channel.receive_eq_some received).1, inv.shares]
        · simp only [Function.update_of_ne here]
          exact inv.shares p
      · intro p
        by_cases here : p = peer
        · subst here
          simp only [Function.update_self]
          exact (inv.outbound p).receive received
        · simp only [Function.update_of_ne here]
          exact inv.outbound p

theorem NetworkInv.direct (inv : NetworkInv t w s) (peer : UInt8) (msg : Bytes) :
    NetworkInv t w { s with
      outbound := Function.update s.outbound peer ((s.outbound peer).send [(.other, msg)]) } := by
  refine ⟨inv.topo, inv.server, inv.taken, inv.published, inv.handed, ?_, inv.inbound, ?_⟩
  · intro p
    by_cases here : p = peer
    · subst here
      simp only [Function.update_self]
      rw [Channel.send, leftBy_append, inv.shares]
      exact List.append_nil _
    · simp only [Function.update_of_ne here]
      exact inv.shares p
  · intro p
    by_cases here : p = peer
    · subst here
      simp only [Function.update_self]
      exact (inv.outbound p).send _
    · simp only [Function.update_of_ne here]
      exact inv.outbound p

/-- Each step that may happen in this weather keeps the invariant. -/
theorem datagramStep_inv (wellFormed : t.WellFormed) (own : ∀ p ∈ t.peers, Unshared t.peers p)
    (sendable : w = .calm → Sendable t.peers) {a : DatagramAct T} (inv : NetworkInv t w s)
    (weather : a.InWeather w) (step : datagramStep t.routes s a = some s') : NetworkInv t w s' := by
  cases a with
  | send peer host msg sendto => exact inv.send wellFormed own step
  | stray sender msg =>
      simp only [datagramStep, inv.topo] at step
      split at step
      · rename_i stranger
        cases step
        exact inv.stray wellFormed stranger msg
      · cases step
  | direct peer msg =>
      cases step
      exact inv.direct peer msg
  | forward scratch ts sendto =>
      cases step
      exact inv.forward wellFormed sendable scratch ts weather
  | recv peer =>
      cases step
      exact inv.recv peer
  | disturbInbound fault =>
      cases step
      exact ⟨inv.topo, inv.server, inv.taken, inv.published, inv.handed, inv.shares,
        inv.inbound.disturb weather, inv.outbound⟩
  | disturbOutbound peer fault =>
      cases step
      refine ⟨inv.topo, inv.server, inv.taken, inv.published, inv.handed, ?_, inv.inbound, ?_⟩
      · intro p
        by_cases here : p = peer
        · subst here
          simp only [Function.update_self]
          exact inv.shares p
        · simp only [Function.update_of_ne here]
          exact inv.shares p
      · intro p
        by_cases here : p = peer
        · subst here
          simp only [Function.update_self]
          exact (inv.outbound p).disturb weather
        · simp only [Function.update_of_ne here]
          exact inv.outbound p

theorem run_networkInv (wellFormed : t.WellFormed) (own : ∀ p ∈ t.peers, Unshared t.peers p)
    (sendable : w = .calm → Sendable t.peers) {schedule : List (DatagramAct T)}
    (booted : bootDatagram T t.view = .ok s) (weather : ∀ a ∈ schedule, a.InWeather w)
    (ran : run (datagramStep t.routes) s schedule = some s') : NetworkInv t w s' :=
  run_inv_of_allowed (networkInv_boot booted) weather
    (fun _ _ _ inv allowed step => datagramStep_inv wellFormed own sendable inv allowed step) ran

/-! ### What comes through -/

/-- What has come from the router against what the router made for the peer, and what the router
has taken in against what was sent. -/
theorem NetworkInv.carried (wellFormed : t.WellFormed) (inv : NetworkInv t w s) (p : UInt8)
    (idle : w = .calm → s.inbound.queue = [] ∧ (s.outbound p).queue = []) :
    w.Keeps (s.relayed p) (dueTo t.routes s.router.world.arrivals p) ∧
      ∀ q ∈ t.peers, w.Keeps (arrivedFrom s.router.world.arrivals q.id)
        ((s.published q.id).map fun msg => msg.take kRouterFrameSize) := by
  constructor
  · have copies : w.Keeps (share s.router.world.handed p)
        (dueTo t.routes s.router.world.arrivals p) := by
      rw [dueTo, ← share_copies fun a _ => (route_wellFormed wellFormed a).1]
      exact (inv.handed.filter _).map _
    have came := (inv.outbound p).arrived fun calm => (idle calm).2
    rw [← inv.shares p] at copies
    exact copies.trans ((came.filter _).map _)
  · intro q declared
    have took := (inv.inbound.arrived fun calm => (idle calm).1).map (attributed t.view)
    rw [← inv.taken] at took
    have own := (took.filter fun e => e.1 = q.id).map Prod.snd
    rw [List.filter_map, List.map_map, List.filter_map, List.map_map] at own
    rw [← inv.published q declared, List.map_map]
    exact own

/-- A message of another peer, cut to the size of a frame, with that peer's id and a time on it,
that was routed to `p`. -/
def GenuineFrame (t : LoadedTopology) (s : DatagramSystem T) (p : UInt8) (f : Bytes) : Prop :=
  ∃ q ∈ t.peers, q.id ≠ p ∧ ∃ msg ∈ s.published q.id, kRouterFrameSize ≤ msg.length ∧
    p ∈ routedTo t.routes q.id (frameTopic (msg.take kRouterFrameSize)) ∧
    ∃ ts, f = stamped q.id ts (msg.take kRouterFrameSize)

theorem NetworkInv.genuine (wellFormed : t.WellFormed) (inv : NetworkInv t .stormy s) (p : UInt8) :
    ∀ f ∈ s.relayed p, GenuineFrame t s p f := by
  obtain ⟨due, took⟩ := inv.carried wellFormed p (fun calm => by cases calm)
  intro f received
  obtain ⟨a, listed, rfl⟩ := List.mem_map.mp (due f received)
  obtain ⟨arrived, routed⟩ := List.mem_filter.mp listed
  have routed : p ∈ a.route t.routes := by simpa using routed
  have whole := whole_of_routed routed
  have other := ((route_wellFormed wellFormed a).2 p routed).2
  rw [Arrival.route_of_whole whole] at routed
  obtain ⟨rule, inside, matched, -, -⟩ := mem_routedTo routed
  obtain ⟨q, declared, id⟩ := (wellFormed.routes rule inside).source
  rw [matched.1] at id
  have own : a.message ∈ arrivedFrom s.router.world.arrivals q.id :=
    List.mem_map_of_mem (List.mem_filter.mpr ⟨arrived, decide_eq_true id.symm⟩)
  obtain ⟨msg, published, cutTo⟩ := List.mem_map.mp (took q declared _ own)
  refine ⟨q, declared, id ▸ other, msg, published, ?_, ?_, a.timestamp, ?_⟩
  · rw [← cutTo, List.length_take] at whole
    omega
  · rw [cutTo, id]
    exact routed
  · rw [cutTo, id]
    rfl

/-- A step sends to a peer's socket what the router forwards, and what is sent straight to it. -/
theorem datagramStep_straight {a : DatagramAct T} (step : datagramStep rules s a = some s')
    (p : UInt8) : leftBy .other (s'.outbound p).sent =
      leftBy .other (s.outbound p).sent ++ (a.straightTo p).toList := by
  cases a with
  | send peer host msg sendto =>
      rw [datagramStep, DatagramSystem.send] at step
      repeat' split at step
      all_goals cases step
      all_goals exact (List.append_nil _).symm
  | stray sender msg =>
      rw [datagramStep] at step
      split at step <;> cases step
      exact (List.append_nil _).symm
  | direct peer msg =>
      cases step
      by_cases here : peer = p
      · subst here
        simp only [Function.update_self, Channel.send, leftBy_append, DatagramAct.straightTo, if_true]
        rfl
      · simp only [Function.update_of_ne (Ne.symm here), DatagramAct.straightTo, here, if_false]
        exact (List.append_nil _).symm
  | forward scratch ts sendto =>
      cases step
      rw [DatagramSystem.forward]
      split
      · exact (List.append_nil _).symm
      · simp only [Channel.send, leftBy_append, leftBy_copies]
        rfl
  | recv peer =>
      cases step
      rw [DatagramSystem.recv]
      split
      · exact (List.append_nil _).symm
      · rename_i d channel taken
        refine Eq.trans ?_ (List.append_nil _).symm
        by_cases here : p = peer
        · subst here
          simp only [Function.update_self, (Channel.receive_eq_some taken).1]
        · simp only [Function.update_of_ne here]
  | disturbInbound fault =>
      cases step
      exact (List.append_nil _).symm
  | disturbOutbound peer fault =>
      cases step
      refine Eq.trans ?_ (List.append_nil _).symm
      by_cases here : p = peer
      · subst here
        simp only [Function.update_self]
        rfl
      · simp only [Function.update_of_ne here]

theorem run_straight {schedule : List (DatagramAct T)}
    (ran : run (datagramStep rules) s schedule = some s') (p : UInt8) :
    leftBy .other (s'.outbound p).sent =
      leftBy .other (s.outbound p).sent ++ sentStraightTo p schedule := by
  induction schedule generalizing s with
  | nil =>
      cases ran
      exact (List.append_nil _).symm
  | cons a rest ih =>
      obtain ⟨mid, step, ran⟩ := run_cons_eq_some.mp ran
      have here := datagramStep_straight step p
      rw [ih ran, here, sentStraightTo, sentStraightTo, List.filterMap_cons, List.append_assoc]
      cases a.straightTo p <;> rfl

variable {root : TomlTable} {schedule : List (DatagramAct T)} {s₀ : DatagramSystem T}

theorem outbound_boot (booted : bootDatagram T t.view = .ok s₀) (p : UInt8) : s₀.outbound p = {} := by
  rw [bootDatagram] at booted
  obtain ⟨link, -, started⟩ := bind_eq_ok.mp booted
  cases started
  rfl

theorem sentStraightTo_nil {p : UInt8} (alone : ∀ msg, .direct p msg ∉ schedule) :
    sentStraightTo p schedule = [] := by
  rw [sentStraightTo, List.filterMap_eq_nil_iff]
  intro a mem
  cases a with
  | direct peer msg =>
      refine if_neg fun same => alone msg ?_
      rw [← same]
      exact mem
  | send | stray | forward | recv | disturbInbound | disturbOutbound => rfl

/-- What a peer has received has come from the router, or was sent straight to it. -/
theorem NetworkInv.origins (inv : NetworkInv t w s) (booted : bootDatagram T t.view = .ok s₀)
    (ran : run (datagramStep rules) s₀ schedule = some s) {p : UInt8} {origin : Origin} {msg : Bytes}
    (mem : (origin, msg) ∈ (s.outbound p).received) :
    origin = .router ∨ msg ∈ sentStraightTo p schedule := by
  cases origin with
  | router => exact .inl rfl
  | other =>
      have sent := (inv.outbound p).genuine _ (List.mem_append_left _ mem)
      have straight := mem_leftBy.mpr sent
      rw [run_straight ran p, outbound_boot booted p] at straight
      exact .inr straight

/-- Without such sends all has come from the router. -/
theorem NetworkInv.received_eq (inv : NetworkInv t w s) (booted : bootDatagram T t.view = .ok s₀)
    (ran : run (datagramStep rules) s₀ schedule = some s) {p : UInt8}
    (none : sentStraightTo p schedule = []) : s.received p = s.relayed p := by
  have all : (s.outbound p).received.filter (fun d => d.1 = .router) = (s.outbound p).received := by
    rw [List.filter_eq_self]
    rintro ⟨origin, msg⟩ mem
    rcases inv.origins booted ran mem with router | straight
    · exact decide_eq_true router
    · rw [none] at straight
      cases straight
  rw [DatagramSystem.received, DatagramSystem.relayed, leftBy, all]

/-- All weather is allowed in a storm. -/
theorem DatagramAct.inStorm (a : DatagramAct T) : a.InWeather .stormy := by
  cases a with
  | forward => exact fun calm => by cases calm
  | send | stray | direct | recv | disturbInbound | disturbOutbound => trivial

/-- Load a profile, bind its datagram router and run a schedule. -/
def runDatagram (root : TomlTable) (schedule : List (DatagramAct T)) : Option (DatagramSystem T) := do
  let t ← (buildFrom root).toOption
  let s₀ ← (bootDatagram T t.view).toOption
  run (datagramStep t.routes) s₀ schedule

theorem runDatagram_eq_some : runDatagram root schedule = some s ↔ ∃ t s₀,
    buildFrom root = .ok t ∧ bootDatagram T t.view = .ok s₀ ∧
    run (datagramStep t.routes) s₀ schedule = some s := by
  unfold runDatagram
  cases buildFrom root with
  | error e => simp [Except.toOption]
  | ok t => cases booted : bootDatagram T t.view <;> simp [Except.toOption, booted]

/-- Two UDP peers; what peer 1 publishes goes to peer 2. -/
def udpPair : TomlTable :=
  profile "udp:127.0.0.1:5000" [peerTable 1 "a" "udp:127.0.0.1:5001" [],
    peerTable 2 "b" "udp:127.0.0.1:5002" []] [routeTable 1 2]

theorem udpPair_shape (accepted : buildFrom udpPair = .ok t) :
    (∀ p ∈ t.peers, Unshared t.peers p) ∧ Sendable t.peers ∧ ∃ p ∈ t.peers, p.id = 2 := by
  have shape : ∀ t ∈ (buildFrom udpPair).toOption, (∀ p ∈ t.peers, Unshared t.peers p) ∧
      Sendable t.peers ∧ ∃ p ∈ t.peers, p.id = 2 := by decide +kernel
  exact shape t (by simp [accepted, Except.toOption])

/-- A message with a byte too many, one from a stranger to the router and one straight to peer 2.
The network makes a second one of the first, and of what the router sends on. -/
def stormySchedule : List (DatagramAct .udp) :=
  [.send 1 0x7F000001 (List.replicate 65 5) true, .disturbInbound (.copy 0),
    .stray (SockaddrIn.mk 0x7F000001 9) RouterFrame.zero.bytes, .disturbInbound (.delay 0),
    .forward .zero 1 (fun _ => true), .forward .zero 2 (fun _ => true),
    .forward .zero 3 (fun _ => true), .disturbOutbound 2 (.copy 0), .direct 2 [7, 7], .recv 2,
    .recv 2, .recv 2, .recv 2]

/-- The first of two messages is lost; a third is sent straight to peer 2. -/
def lossySchedule : List (DatagramAct .udp) :=
  [.send 1 0x7F000001 RouterFrame.zero.bytes true,
    .send 1 0x7F000001 (List.replicate 64 5) true, .disturbInbound (.lose 0),
    .direct 2 RouterFrame.zero.bytes, .forward .zero 1 (fun _ => true), .recv 2, .recv 2]

/-- A message too short for a frame, and a frame. -/
def calmSchedule : List (DatagramAct .udp) :=
  [.send 1 0x7F000001 [7, 7] true, .send 1 0x7F000001 (List.replicate 64 5) true,
    .forward .zero 1 (fun _ => true), .forward .zero 2 (fun _ => true), .recv 2]

end RoboticsIpc
