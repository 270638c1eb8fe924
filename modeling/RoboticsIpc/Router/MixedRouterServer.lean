import RoboticsIpc.Router.DatagramLink
import RoboticsIpc.Router.ShmRouterLink

/-!
The mixed-transport router (`router/mixed_router_server.hpp`): one link for each
transport the topology's peers use, polled in turn, and a table of the transport
each peer is sent to on.

`poll_link` and `send_to_peer` are templates and switches over three optional
links; here a `LinkSlot` names one of them, and `onLink` makes a call on it.
-/

namespace RoboticsIpc

open ByteBuffer FanOut ShmSpsc

/-- Some peer of the topology uses this transport. -/
def hasKind (topo : RouterTopology) (kind : PeerAddressKind) : Bool :=
  topo.peers.any fun p => p.localAddress.kind == kind

/-- `topology_is_mixed`. -/
def topologyIsMixed (topo : RouterTopology) : Bool :=
  (hasKind topo .shmRing).toNat + (hasKind topo .udsPath).toNat + (hasKind topo .udpEndpoint).toNat
    > 1

structure MixedRouterServer where
  topo : RouterTopology
  /-- `peer_known_` and `peer_transport_`. -/
  peerTransport : UInt8 → Option PeerAddressKind
  shm : Option ShmRouterLink
  uds : Option (DatagramRouterLink .uds)
  udp : Option (DatagramRouterLink .udp)

/-- The constructor's loop over the peers, for the two tables. -/
def transportTable :
    List PeerEntry → (UInt8 → Option PeerAddressKind) → UInt8 → Option PeerAddressKind
  | [], table => table
  | p :: rest, table => transportTable rest (Function.update table p.id (some p.localAddress.kind))

namespace MixedRouterServer

/-- The constructor. -/
def server (topo : RouterTopology) : MixedRouterServer where
  topo := topo
  peerTransport := transportTable topo.peers fun _ => none
  shm := if hasKind topo .shmRing then some (.server topo) else none
  uds := if hasKind topo .udsPath then some (.server .uds topo) else none
  udp := if hasKind topo .udpEndpoint then some (.server .udp topo) else none

/-- The SHM part of `bind_router`. -/
def bindShm (server : MixedRouterServer) (mem : ShmMemory) :
    Except RuntimeError (Option ShmRouterLink × ShmMemory) :=
  match server.shm with
  | none => .ok (none, mem)
  | some link => do
      let (link, mem) ← link.bindRouter mem
      return (some link, mem)

/-- The UDS part of `bind_router`. -/
def bindUds (server : MixedRouterServer) : Except RuntimeError (Option (DatagramRouterLink .uds)) :=
  match server.uds, server.topo.listenUds with
  | none, _ => .ok none
  | some _, none => .error ⟨ascii "mixed router: uds peers present but no uds router listen"⟩
  | some link, some path => some <$> link.bindRouter path

/-- The UDP part of `bind_router`. -/
def bindUdp (server : MixedRouterServer) : Except RuntimeError (Option (DatagramRouterLink .udp)) :=
  match server.udp, server.topo.listenUdp with
  | none, _ => .ok none
  | some _, none => .error ⟨ascii "mixed router: udp peers present but no udp router listen"⟩
  | some link, some endpoint => some <$> link.bindRouter endpoint.port

/-- `MixedRouterServer::bind_router`. -/
def bindRouter (server : MixedRouterServer) (mem : ShmMemory) :
    Except RuntimeError (MixedRouterServer × ShmMemory) := do
  let (shm, mem) ← server.bindShm mem
  let uds ← server.bindUds
  let udp ← server.bindUdp
  return ({ server with shm, uds, udp }, mem)

/-- `forwarded()`: the sum over the links there are. -/
def forwarded (server : MixedRouterServer) : Nat :=
  server.shm.elim 0 (·.metrics.forwarded) + server.uds.elim 0 (·.metrics.forwarded) +
    server.udp.elim 0 (·.metrics.forwarded)

/-- `dropped_full()`. -/
def droppedFull (server : MixedRouterServer) : Nat := server.shm.elim 0 (·.metrics.droppedFull)

/-- `set_priority_drop_floor`: it applies to the SHM link only. -/
def setPriorityDropFloor (server : MixedRouterServer) (floor : UInt8) : MixedRouterServer :=
  { server with shm := server.shm.map fun link => { link with priorityDropFloor := floor } }

end MixedRouterServer

/-! ### Calls on one of the links -/

abbrev MixedState := LinkState MixedRouterServer

/-- One of the three optional links. -/
structure LinkSlot (Link : Type) where
  get : MixedRouterServer → Option Link
  set : Link → MixedRouterServer → MixedRouterServer

def shmSlot : LinkSlot ShmRouterLink where
  get := MixedRouterServer.shm
  set link server := { server with shm := some link }

def datagramSlot : (T : DatagramTransport) → LinkSlot (DatagramRouterLink T)
  | .uds => { get := MixedRouterServer.uds, set := fun link server => { server with uds := some link } }
  | .udp => { get := MixedRouterServer.udp, set := fun link server => { server with udp := some link } }

namespace MixedState

/-- `if (link_) link_->call(..)`. -/
def onLink {Link Value : Type} (slot : LinkSlot Link) (absent : Value)
    (call : LinkState Link → Outcome (LinkState Link) Value) (s : MixedState) :
    Outcome MixedState Value :=
  match slot.get s.link with
  | none => ⟨s, .ok absent⟩
  | some link =>
      match call ⟨link, s.frame, s.world⟩ with
      | ⟨after, result⟩ => ⟨⟨slot.set after.link s.link, after.frame, after.world⟩, result⟩

/-- `MixedRouterServer::send_to_peer`. -/
def sendToPeer (s : MixedState) (sendto : Bool) (dest : UInt8) (payload : Bytes) :
    Outcome MixedState Unit :=
  match s.link.peerTransport dest with
  | none => ⟨s, .ok ()⟩
  | some .shmRing => s.onLink shmSlot () fun l => ShmState.sendToPeer l dest payload
  | some .udsPath =>
      s.onLink (datagramSlot .uds) () fun l => DatagramState.sendToPeer l sendto dest payload
  | some .udpEndpoint =>
      s.onLink (datagramSlot .udp) () fun l => DatagramState.sendToPeer l sendto dest payload

/-- `on_forward(source, dest, frame)`. -/
def onForward (s : MixedState) (source dest : UInt8) : MixedState :=
  { s with world := { s.world with reported := s.world.reported ++ [(source, dest)] } }

/-- One iteration of the loop of `poll_link`. -/
def sendAndReport (sendto : UInt8 → Bool) (source : UInt8) (payload : Bytes) (s : MixedState)
    (dest : UInt8) : Outcome MixedState Unit :=
  match s.sendToPeer (sendto dest) dest payload with
  | ⟨s, .error e⟩ => ⟨s, .error e⟩
  | ⟨s, .ok ()⟩ => ⟨s.onForward source dest, .ok ()⟩

/-- `MixedRouterServer::poll_link`. -/
def pollLink {Link : Type} (slot : LinkSlot Link) (rules : List RouteRule) (sendto : UInt8 → Bool)
    (receive : LinkState Link → Outcome (LinkState Link) UInt8) (s : MixedState) :
    Outcome MixedState Bool :=
  match s.onLink slot kEndpointInvalid receive with
  | ⟨s, .error e⟩ => ⟨s, .error e⟩
  | ⟨s, .ok source⟩ =>
      if source = kEndpointInvalid then
        ⟨s, .ok false⟩
      else
        let targets := routeTargetsFor rules source s.frame.topicId
        let payload := s.frame.bytes
        match forEach (sendAndReport sendto source payload) targets.list s with
        | ⟨s, .error e⟩ => ⟨s, .error e⟩
        | ⟨s, .ok ()⟩ => ⟨s, .ok true⟩

end MixedState

end RoboticsIpc
