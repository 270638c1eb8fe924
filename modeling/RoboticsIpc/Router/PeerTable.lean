import RoboticsIpc.Router.Routing

/-!
Peers and topologies (`router/peer_table.hpp`, `router/topic_table.hpp`). The
tagged union `PeerAddress` is an inductive type, and a `has_listen_*` flag with
its address an `Option` of that transport's address.
-/

namespace RoboticsIpc

open ByteBuffer

inductive PeerAddressKind where
  | udsPath
  | udpEndpoint
  | shmRing
deriving DecidableEq

structure UdpEndpoint where
  host : CStr
  port : UInt16
deriving DecidableEq

inductive PeerAddress where
  | uds (path : CStr)
  | udp (endpoint : UdpEndpoint)
  | shm (name : CStr)
deriving DecidableEq

def PeerAddress.kind : PeerAddress → PeerAddressKind
  | .uds _ => .udsPath
  | .udp _ => .udpEndpoint
  | .shm _ => .shmRing

structure PeerEntry where
  id : UInt8
  name : CStr
  localAddress : PeerAddress
  shmSlotCount : UInt32 := 0
  shmMaxPayload : UInt32 := 0

structure TopicEntry where
  id : UInt16 := 0
  sidebandIdx : UInt16 := kSidebandIdxNone
  name : CStr
  payloadClass : Option CStr := none

structure RouterTopology where
  peers : List PeerEntry
  routerListen : PeerAddress
  topics : List TopicEntry
  listenUds : Option CStr
  listenUdp : Option UdpEndpoint

def peerFind (topo : RouterTopology) (pred : PeerEntry → Bool) : Option PeerEntry :=
  topo.peers.find? pred

def peerById (topo : RouterTopology) (id : UInt8) : Option PeerEntry :=
  peerFind topo fun e => e.id == id

/-! ### Lookup -/

variable {α β : Type*}

/-- Where keys are distinct, looking a member's key up finds the member. -/
theorem find?_eq_some_of_key [DecidableEq β] {xs : List α} {x : α} (key : α → β)
    (distinct : (xs.map key).Nodup) (mem : x ∈ xs) :
    xs.find? (fun y => key y == key x) = some x := by
  induction xs with
  | nil => simp at mem
  | cons y ys ih =>
      rw [List.map_cons] at distinct
      obtain ⟨fresh, rest⟩ := List.nodup_cons.mp distinct
      rcases List.mem_cons.mp mem with here | there
      · subst here
        simp
      · have other : key y ≠ key x := by
          intro same
          exact fresh (same ▸ List.mem_map_of_mem there)
        rw [List.find?_cons_of_neg (by simpa using other)]
        exact ih rest there

theorem peerById_of_mem (topo : RouterTopology) (distinct : (topo.peers.map (·.id)).Nodup)
    {e : PeerEntry} (mem : e ∈ topo.peers) : peerById topo e.id = some e :=
  find?_eq_some_of_key PeerEntry.id distinct mem

end RoboticsIpc
