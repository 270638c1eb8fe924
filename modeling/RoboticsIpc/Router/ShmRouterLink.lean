import RoboticsIpc.Router.PeerTable
import RoboticsIpc.Router.World

/-!
The shared-memory router link (`router/shm_router_link.hpp`): one region per
peer, scanned in declaration order on receive and looked up by id on send.

A server's channels never change but for their `congested` flags; `ports` is the
part that stays.
-/

namespace RoboticsIpc

open ByteBuffer FanOut ShmSpsc

/-- The counters are `uint64_t`; here they are naturals, which read the same below `2 ^ 64`. -/
structure ShmRouterMetrics where
  forwarded : Nat := 0
  droppedFull : Nat := 0
  recvEmpty : Nat := 0
  recvTruncated : Nat := 0
  droppedFullPerPeer : UInt8 → Nat := fun _ => 0
  droppedByPriority : UInt8 → Nat := fun _ => 0

structure PeerChannel where
  peerId : UInt8
  endpoint : ShmRegion
  congested : Bool := false

structure ShmRouterLink where
  topo : RouterTopology
  isServer : Bool
  peerId : UInt8
  priorityDropFloor : UInt8 := 0
  peerChannels : List PeerChannel := []
  metrics : ShmRouterMetrics := {}

/-! ### Binding -/

/-- The ring sizing of an entry; zero means the default. -/
def ringParams (entry : PeerEntry) : RingParams where
  slotCount := if entry.shmSlotCount ≠ 0 then entry.shmSlotCount.toNat else
    defaultRingParams.slotCount
  maxPayload := if entry.shmMaxPayload ≠ 0 then entry.shmMaxPayload.toNat else
    defaultRingParams.maxPayload
  slotCount_pos := by
    split
    · rename_i set
      exact Nat.pos_of_ne_zero fun zero => set (UInt32.toNat_inj.mp zero)
    · decide
  slotCount_lt := by
    split
    · exact Nat.lt_trans entry.shmSlotCount.toNat_lt (by decide)
    · decide
  maxPayload_lt := by
    split
    · exact entry.shmMaxPayload.toNat_lt
    · decide

/-- `bind_shm_endpoint`. -/
def bindShmEndpoint (entry : PeerEntry) (create : Bool) (mem : ShmMemory) :
    Except RuntimeError (ShmMemory × ShmRegion) :=
  match entry.localAddress with
  | .shm name => .ok (bind name (ringParams entry) create mem)
  | _ => .error ⟨ascii "shm endpoint expected shm peer address"⟩

def ShmRouterLink.server (topo : RouterTopology) : ShmRouterLink where
  topo := topo
  isServer := true
  peerId := kEndpointInvalid

/-- The loop of `bind_router`: a fresh region for each SHM peer, other peers are skipped. -/
def bindChannels : List PeerEntry → ShmMemory → ShmMemory × List PeerChannel
  | [], mem => (mem, [])
  | entry :: rest, mem =>
      match bindShmEndpoint entry true mem with
      | .error _ => bindChannels rest mem
      | .ok (mem, endpoint) =>
          let (mem, channels) := bindChannels rest mem
          (mem, { peerId := entry.id, endpoint } :: channels)

/-- `ShmRouterLink::bind_router`. -/
def ShmRouterLink.bindRouter (link : ShmRouterLink) (mem : ShmMemory) :
    Except RuntimeError (ShmRouterLink × ShmMemory) :=
  if link.isServer = false then
    .error ⟨ascii "bind_router on client link"⟩
  else
    let (mem, channels) := bindChannels link.topo.peers mem
    if channels = [] then
      .error ⟨ascii "shm router: no shm peers in topology"⟩
    else
      .ok ({ link with peerChannels := channels }, mem)

/-- A client's endpoint (`bind_peer`). -/
def clientEndpoint (topo : RouterTopology) (id : UInt8) (mem : ShmMemory) :
    Except RuntimeError (ShmMemory × ShmRegion) :=
  match peerById topo id with
  | none => .error ⟨ascii "unknown peer id"⟩
  | some entry => bindShmEndpoint entry false mem

/-! ### Receive -/

abbrev ShmState := LinkState ShmRouterLink

/-- A message has been popped off a channel's ring into the scratch frame. -/
def ShmState.took (s : ShmState) (ts : UInt64) (channel : PeerChannel) (msg : Bytes)
    (mem : ShmMemory) : ShmState :=
  { s with
    frame := s.frame.receive msg
    world := { s.world with mem, arrivals := s.world.arrivals ++ [⟨channel.peerId, msg, ts⟩] } }

def ShmState.countTruncated (s : ShmState) : ShmState :=
  { s with link := { s.link with
      metrics := { s.link.metrics with recvTruncated := s.link.metrics.recvTruncated + 1 } } }

def ShmState.countEmpty (s : ShmState) : ShmState :=
  { s with link := { s.link with
      metrics := { s.link.metrics with recvEmpty := s.link.metrics.recvEmpty + 1 } } }

/-- The loop of `try_receive`. -/
def scanChannels (ts : UInt64) : List PeerChannel → ShmState → Outcome ShmState UInt8
  | [], s => ⟨s, .ok kEndpointInvalid⟩
  | channel :: rest, s =>
      match tryRecv channel.endpoint s.world.mem kRouterFrameSize with
      | .error e => ⟨s, .error e⟩
      | .ok none => scanChannels ts rest s
      | .ok (some (msg, mem)) =>
          let s := s.took ts channel msg mem
          if msg.length < kRouterFrameSize then
            scanChannels ts rest s.countTruncated
          else
            ⟨{ s with frame := s.frame.stamp channel.peerId ts }, .ok channel.peerId⟩

/-- `ShmRouterLink::try_receive`. -/
def ShmState.tryReceive (s : ShmState) (ts : UInt64) : Outcome ShmState UInt8 :=
  scanChannels ts s.link.peerChannels s

/-! ### Send -/

/-- `priority_from_frame`. -/
def priorityFromFrame (payload : Bytes) : UInt8 :=
  if payload.length < kRouterFrameSize then 0 else framePriority payload

/-- `record_drop`. -/
def ShmRouterMetrics.recordDrop (m : ShmRouterMetrics) (dest prio : UInt8) : ShmRouterMetrics :=
  { m with
    droppedFull := m.droppedFull + 1
    droppedFullPerPeer :=
      Function.update m.droppedFullPerPeer dest (m.droppedFullPerPeer dest + 1)
    droppedByPriority := Function.update m.droppedByPriority prio (m.droppedByPriority prio + 1) }

/-- Set the flag of the first channel to `dest`. -/
def setCongested (dest : UInt8) (congested : Bool) : List PeerChannel → List PeerChannel
  | [] => []
  | channel :: rest =>
      if channel.peerId = dest then { channel with congested } :: rest
      else channel :: setCongested dest congested rest

def ShmRouterLink.channelTo (link : ShmRouterLink) (dest : UInt8) : Option PeerChannel :=
  link.peerChannels.find? fun channel => channel.peerId = dest

/-- The frame was placed in the channel's ring. -/
def ShmState.admitted (s : ShmState) (dest : UInt8) (payload : Bytes) (mem : ShmMemory) :
    ShmState :=
  { s with
    link := { s.link with
      peerChannels := setCongested dest false s.link.peerChannels
      metrics := { s.link.metrics with forwarded := s.link.metrics.forwarded + 1 } }
    world := { s.world with mem, handed := s.world.handed ++ [(dest, payload)] } }

/-- The ring had no free slot. -/
def ShmState.foundFull (s : ShmState) (dest : UInt8) (payload : Bytes) (mem : ShmMemory) :
    ShmState :=
  { s with
    link := { s.link with
      peerChannels := setCongested dest true s.link.peerChannels
      metrics := s.link.metrics.recordDrop dest (priorityFromFrame payload) }
    world := { s.world with mem } }

/-- The frame was shed before the ring was tried. -/
def ShmState.shed (s : ShmState) (dest : UInt8) (payload : Bytes) : ShmState :=
  { s with link := { s.link with
      metrics := s.link.metrics.recordDrop dest (priorityFromFrame payload) } }

/-- The admission check of the priority floor. -/
def Sheds (floor : UInt8) (channel : PeerChannel) (payload : Bytes) : Prop :=
  0 < floor ∧ channel.congested = true ∧ priorityFromFrame payload < floor

instance (floor : UInt8) (channel : PeerChannel) (payload : Bytes) :
    Decidable (Sheds floor channel payload) :=
  inferInstanceAs (Decidable (_ ∧ _ ∧ _))

def noChannel (dest : UInt8) : RuntimeError :=
  ⟨ascii "shm router: no channel for peer id " ++ toStdString dest.toNat⟩

/-- `ShmRouterLink::send_to_peer`. -/
def ShmState.sendToPeer (s : ShmState) (dest : UInt8) (payload : Bytes) : Outcome ShmState Unit :=
  match s.link.channelTo dest with
  | none => ⟨s, .error (noChannel dest)⟩
  | some channel =>
      if Sheds s.link.priorityDropFloor channel payload then
        ⟨s.shed dest payload, .ok ()⟩
      else
        match trySend channel.endpoint s.world.mem payload with
        | (mem, true) => ⟨s.admitted dest payload mem, .ok ()⟩
        | (mem, false) => ⟨s.foundFull dest payload mem, .ok ()⟩

/-- `ShmRouterLink::forward`. -/
def ShmState.forward (s : ShmState) (ts : UInt64) (rules : List RouteRule) :
    Outcome ShmState ForwardResult :=
  if s.link.isServer = false then
    ⟨s, .error ⟨ascii "forward on client link"⟩⟩
  else
    match s.tryReceive ts with
    | ⟨s, .error e⟩ => ⟨s, .error e⟩
    | ⟨s, .ok source⟩ =>
        if source = kEndpointInvalid then
          ⟨s.countEmpty, .ok {}⟩
        else
          let targets := routeTargetsFor rules source s.frame.topicId
          let payload := s.frame.bytes
          match forEach (fun s dest => s.sendToPeer dest payload) targets.list s with
          | ⟨s, .error e⟩ => ⟨s, .error e⟩
          | ⟨s, .ok ()⟩ => ⟨s, .ok { source, targets }⟩

end RoboticsIpc
