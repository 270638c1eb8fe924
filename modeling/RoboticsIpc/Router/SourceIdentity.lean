import RoboticsIpc.Router.DatagramLinkLaws
import RoboticsIpc.Router.ShmSystem

/-!
Who a message is from. A datagram link goes by the sender's socket address, the
path on UDS and the port on UDP; the SHM link by the region the message lay in.

A peer whose address no other declared peer shares is told apart from all others
(`source_identity`). The loader checks ids for duplicates, not addresses.
-/

namespace RoboticsIpc

open ByteBuffer Checked ShmSpsc Toml

/-- Addresses that a receiving link cannot tell apart. -/
def PeerAddress.Clashes : PeerAddress → PeerAddress → Prop
  | .uds path, .uds path' => path = path'
  | .udp endpoint, .udp endpoint' => endpoint.port = endpoint'.port
  | .shm name, .shm name' => name = name'
  | _, _ => False

instance (a b : PeerAddress) : Decidable (a.Clashes b) := by
  cases a <;> cases b <;> unfold PeerAddress.Clashes <;> infer_instance

/-- No other declared peer has an address like `p`'s. -/
def Unshared (peers : List PeerEntry) (p : PeerEntry) : Prop :=
  ∀ q ∈ peers, q.localAddress.Clashes p.localAddress → q.id = p.id

instance (peers : List PeerEntry) (p : PeerEntry) : Decidable (Unshared peers p) :=
  inferInstanceAs (Decidable (∀ q ∈ peers, _ → _))

/-- Peers that a sender's address fits clash. -/
theorem clashes_of_sends {T : DatagramTransport} {sender : RecvResult T} {a b : PeerAddress}
    (left : a.sends T sender) (right : b.sends T sender) : a.Clashes b := by
  cases T with
  | uds =>
      cases a <;> cases b <;> simp only [PeerAddress.sends, beq_iff_eq, Bool.false_eq_true] at left right
      exact left.trans right.symm
  | udp =>
      cases a <;> cases b <;> simp only [PeerAddress.sends, beq_iff_eq, Bool.false_eq_true] at left right
      exact left.trans right.symm

/-! ### Shared memory -/

/-- A frame in the scratch buffer: its message came off region `name` and it is
stamped `id`. -/
def FrameOff (s : ShmState) (ts : UInt64) (name : CStr) (id : UInt8) : Prop :=
  ∃ c ∈ s.link.peerChannels, c.endpoint.name = name ∧ c.peerId = id ∧
    ∃ msg mem mem', tryRecv c.endpoint mem kRouterFrameSize = .ok (some (msg, mem')) ∧
      msg.length = kRouterFrameSize ∧
      (s.tryReceive ts).state.frame.bytes = stamped id ts msg

/-- A receive that returns an id has taken a frame off that id's region. -/
theorem tryReceive_frameOff {s : ShmState} {ts : UInt64} {id : UInt8}
    (received : (s.tryReceive ts).result = .ok id) (valid : id ≠ kEndpointInvalid) :
    ∃ name, FrameOff s ts name id := by
  -- Every arrival of this scan was popped off its source's region.
  let Popped : World → Prop := fun w => ∃ fresh, w.arrivals = s.world.arrivals ++ fresh ∧
    ∀ a ∈ fresh, ∃ c ∈ s.link.peerChannels, c.peerId = a.source ∧
      ∃ mem mem', tryRecv c.endpoint mem kRouterFrameSize = .ok (some (a.message, mem'))
  have pop : PopPreserves Popped ts s.link.peerChannels := by
    rintro c mem w msg mem' ⟨fresh, arrivals, popped⟩ taken
    refine ⟨fresh ++ [⟨c.peerId, msg, ts⟩], by simp [arrivals], ?_⟩
    intro a inside
    rcases List.mem_append.mp inside with old | new
    · exact popped a old
    · obtain rfl : a = ⟨c.peerId, msg, ts⟩ := by simpa using new
      exact ⟨c, mem, rfl, w.mem, mem', taken⟩
  obtain ⟨shorts, spec⟩ := scanChannels_spec (s := s) pop ⟨[], by simp, by simp⟩
  cases spec.result with
  | empty result arrivals =>
      rw [ShmState.tryReceive, result] at received
      exact absurd (Except.ok.inj received).symm valid
  | thrown e result arrivals =>
      rw [ShmState.tryReceive, result] at received
      cases received
  | frame channel mem msg result arrivals whole stamp =>
      obtain ⟨fresh, grown, popped⟩ := spec.inv
      rw [arrivals] at grown
      obtain rfl := List.append_cancel_left grown
      rw [ShmState.tryReceive, result] at received
      obtain rfl := Except.ok.inj received
      obtain ⟨c, declared, same, before, after, taken⟩ :=
        popped ⟨channel.peerId, msg, ts⟩ (List.mem_append_right _ (List.mem_singleton_self _))
      exact ⟨c.endpoint.name, c, declared, rfl, same, msg, before, after, taken, whole, stamp⟩

/-! ### Every peer -/

/-- Peer `p` is recognised as itself on whatever transport it uses. -/
structure Recognised (t : LoadedTopology) (p : PeerEntry) : Prop where
  datagram : ∀ T (sender : RecvResult T), p.localAddress.sends T sender →
    peerIdFromRecv T t.view sender = p.id
  region : ∀ name, p.localAddress = .shm name → ∀ link mem mem',
    (ShmRouterLink.server t.view).bindRouter mem = .ok (link, mem') →
    ∀ c ∈ link.peerChannels, c.endpoint.name = name ↔ c.peerId = p.id
  frame : ∀ name, p.localAddress = .shm name → ∀ s : ShmState, s.link.ports = shmPorts t.peers →
    ∀ ts id, (s.tryReceive ts).result = .ok id → id ≠ kEndpointInvalid →
      ∃ off, FrameOff s ts off id ∧ (off = name ↔ id = p.id)

/-- A whole datagram from `sender` is dropped and counted, received either way. -/
structure Dropped {T : DatagramTransport} (t : LoadedTopology) (sender : RecvResult T) : Prop where
  unknown : peerIdFromRecv T t.view sender = kEndpointInvalid
  tryReceive : ∀ (s : DatagramState T) ts bytes, s.link.topo = t.view →
    kRouterFrameSize ≤ bytes.length →
    (s.tryReceive ts (.datagram sender bytes)).result = .ok kEndpointInvalid ∧
      (s.tryReceive ts (.datagram sender bytes)).state.link.metrics.recvUnknownSource =
        s.link.metrics.recvUnknownSource + 1
  forward : ∀ (s : DatagramState T) ts bytes sendto, s.link.topo = t.view →
    s.link.isServer = true → kRouterFrameSize ≤ bytes.length →
    (s.forward ts t.routes (.datagram sender bytes) sendto).result = .ok {} ∧
      (s.forward ts t.routes (.datagram sender bytes) sendto).state.link.metrics.recvUnknownSource =
        s.link.metrics.recvUnknownSource + 1

variable {t : LoadedTopology} {p : PeerEntry}

/-- Two declared peers of one id are one peer. -/
theorem LoadedTopology.WellFormed.eq_of_id (wellFormed : t.WellFormed) {q : PeerEntry}
    (hp : p ∈ t.peers) (hq : q ∈ t.peers) (same : q.id = p.id) : q = p :=
  List.inj_on_of_nodup_map wellFormed.ids hq hp same

/-- A port of the topology is peer `p`'s exactly when it has `p`'s region. -/
theorem port_name_iff (wellFormed : t.WellFormed) (declared : p ∈ t.peers)
    (unshared : Unshared t.peers p) {name : CStr} (address : p.localAddress = .shm name)
    {port : Port} (mem : port ∈ shmPorts t.peers) : port.2.name = name ↔ port.1 = p.id := by
  obtain ⟨q, peer, other, addressed, rfl⟩ := mem_shmPorts.mp mem
  constructor
  · intro same
    refine unshared q peer ?_
    rw [addressed, address]
    exact same
  · intro same
    obtain rfl := wellFormed.eq_of_id declared peer same
    rw [address] at addressed
    cases addressed
    rfl

theorem recognised (wellFormed : t.WellFormed) (declared : p ∈ t.peers)
    (unshared : Unshared t.peers p) : Recognised t p := by
  refine ⟨?_, ?_, ?_⟩
  · intro T sender own
    refine peerIdFromRecv_of_unique declared own ?_
    intro q peer fits
    exact unshared q peer (clashes_of_sends fits own)
  · intro name address link mem mem' bound c inside
    have booted : bootShm t.view mem = .ok { router := ⟨link, .zero, { mem := mem' }⟩ } := by
      simp only [bootShm, bound]
    have ports : link.ports = shmPorts t.peers := bootShm_ports booted
    have port : (c.peerId, c.endpoint) ∈ shmPorts t.peers := by
      rw [← ports]
      exact List.mem_map.mpr ⟨c, inside, rfl⟩
    exact port_name_iff wellFormed declared unshared address port
  · intro name address s ports ts id received valid
    obtain ⟨off, frame⟩ := tryReceive_frameOff received valid
    refine ⟨off, frame, ?_⟩
    obtain ⟨c, inside, rfl, rfl, -⟩ := frame
    have port : (c.peerId, c.endpoint) ∈ shmPorts t.peers := by
      rw [← ports]
      exact List.mem_map.mpr ⟨c, inside, rfl⟩
    exact port_name_iff wellFormed declared unshared address port

theorem dropped {T : DatagramTransport} {sender : RecvResult T}
    (stranger : ∀ p ∈ t.peers, p.localAddress.sends T sender = false) : Dropped t sender := by
  have unknown : peerIdFromRecv T t.view sender = kEndpointInvalid := peerIdFromRecv_stranger stranger
  -- Either receive resolves the datagram, finds nobody and counts it.
  have resolved : ∀ (s : DatagramState T) ts bytes, s.link.topo = t.view →
      kRouterFrameSize ≤ bytes.length →
      (s.resolve ts sender bytes).2 = kEndpointInvalid ∧
        (s.resolve ts sender bytes).1.link.metrics.recvUnknownSource =
          s.link.metrics.recvUnknownSource + 1 := by
    intro s ts bytes topo whole
    have spec := resolve_spec s ts sender bytes
    have size : kRouterFrameSize ≤ (arrivalOf s.link.topo ts sender bytes).message.length := by
      simp [arrivalOf, whole]
    have nobody : (arrivalOf s.link.topo ts sender bytes).source = kEndpointInvalid := by
      rw [topo]
      exact unknown
    have count := spec.unknown
    have source := spec.source
    rw [if_pos ⟨size, nobody⟩] at count
    rw [if_neg (Nat.not_lt.mpr size), nobody] at source
    exact ⟨source, count⟩
  refine ⟨unknown, ?_, ?_⟩
  · intro s ts bytes topo whole
    obtain ⟨source, count⟩ := resolved s ts bytes topo whole
    exact ⟨congrArg Except.ok source, count⟩
  · intro s ts bytes sendto topo server whole
    obtain ⟨source, count⟩ := resolved s ts bytes topo whole
    unfold DatagramState.forward
    rw [if_neg (by simp [server])]
    simp only [source, if_true, true_and]
    exact count

/-- Two UDP peers on one port of different hosts. -/
def onePortTwoHosts : TomlTable :=
  profile "udp:10.0.0.9:5000" [peerTable 1 "a" "udp:10.0.0.1:5001" [],
    peerTable 2 "b" "udp:10.0.0.2:5001" [], peerTable 3 "c" "udp:10.0.0.2:5002" []]
    [routeTable 1 2]

end RoboticsIpc
