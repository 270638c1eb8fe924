import RoboticsIpc.Router.Stored

/-!
The contract of an accepted profile, as the router relies on it.

`AcceptedProfile` collects what the loader's checks leave of the four sections.
The route lookup rests on it: `routeTargetsForChecked` is `route_targets_for` with
each array access checked, and on an accepted table no access is out of bounds and
every target resolves to its peer.
-/

namespace RoboticsIpc

open ByteBuffer Checked Toml

/-! ### The contract -/

/-- A peer's id is a usable one, and its ring sizing is in range and only given for a ring. -/
structure PeerEntry.Sized (p : PeerEntry) : Prop where
  id : 1 ≤ p.id.toNat ∧ p.id.toNat ≤ 254
  slotCount : p.shmSlotCount = 0 ∨
    (1 ≤ p.shmSlotCount.toNat ∧ p.shmSlotCount.toNat ≤ 2 ^ 20)
  maxPayload : p.shmMaxPayload = 0 ∨
    (64 ≤ p.shmMaxPayload.toNat ∧ p.shmMaxPayload.toNat ≤ 2 ^ 28)
  ring : p.shmSlotCount ≠ 0 ∨ p.shmMaxPayload ≠ 0 → p.localAddress.kind = .shmRing

/-- A rule names declared peers and topics, each destination once and never its source. -/
structure RouteRule.Declared (t : LoadedTopology) (rule : RouteRule) : Prop where
  count : 1 ≤ rule.destCount.toNat ∧ rule.destCount.toNat ≤ 8
  source : peerExists t.peers rule.source
  dests : ∀ d ∈ rule.dests, peerExists t.peers d
  distinct : rule.dests.Nodup
  no_self : rule.source ∉ rule.dests
  unused : ∀ k (slot : k < kMaxRouteDests), rule.destCount.toNat ≤ k → rule.dest[k] = 0
  topic : rule.topicId = kRouteTopicAny ∨
    (rule.topicId.toNat < 0xFFFF ∧ ∃ topic ∈ t.topics, topic.id = rule.topicId)

structure AcceptedProfile (t : LoadedTopology) : Prop where
  ids : (t.peers.map (·.id)).Nodup
  peers : ∀ p ∈ t.peers, p.Sized
  udsListen : ∀ p ∈ t.peers, p.localAddress.kind = .udsPath → t.listenUds ≠ none
  udpListen : ∀ p ∈ t.peers, p.localAddress.kind = .udpEndpoint → t.listenUdp ≠ none
  rules : ∀ rule ∈ t.routes, rule.Declared t
  topicIds : (t.topics.map (·.id)).Nodup
  topicNames : (t.topics.map (·.name)).Nodup
  cpuRegions : ∀ r ∈ t.sidebands, r.memoryClass = .shm → r.cudaDevice = kSidebandCudaDeviceUnset

/-! ### The route lookup, with its array accesses checked -/

/-- The first rounds of the copy loop of `route_targets_for`: `none` once a round
accesses a slot that `dest` and `ids` do not have. -/
def RouteRule.copyDests (rule : RouteRule) : Nat → Option (Vector UInt8 kMaxRouteDests)
  | 0 => some (Vector.replicate _ 0)
  | k + 1 => (rule.copyDests k).bind fun ids =>
      if slot : k < kMaxRouteDests then some (ids.set k rule.dest[k]) else none

def routeTargetsForChecked : List RouteRule → UInt8 → UInt16 → Option RouteTargets
  | [], _, _ => some {}
  | rule :: rules, source, topicId =>
      if rule.source ≠ source then
        routeTargetsForChecked rules source topicId
      else if rule.topicId ≠ kRouteTopicAny ∧ rule.topicId ≠ topicId then
        routeTargetsForChecked rules source topicId
      else
        (rule.copyDests rule.destCount.toNat).map fun ids => { ids, count := rule.destCount.toNat }

/-- As long as it stays within the array, the loop copies a prefix. -/
theorem copyDests_eq (rule : RouteRule) {n : Nat} (inside : n ≤ kMaxRouteDests) :
    rule.copyDests n = some (Vector.ofFn fun k => if k.val < n then rule.dest[k] else 0) := by
  induction n with
  | zero =>
      simp only [RouteRule.copyDests, Option.some.injEq]
      ext k slot
      simp
  | succ n ih =>
      have slot : n < kMaxRouteDests := inside
      rw [RouteRule.copyDests, ih (Nat.le_of_lt slot), Option.bind_some, dif_pos slot,
        Option.some.injEq]
      ext k bound
      rw [Vector.getElem_set, Vector.getElem_ofFn, Vector.getElem_ofFn]
      by_cases last : n = k
      · subst last
        simp
      · have same : k < n ↔ k < n + 1 := by omega
        simp [last, same]

theorem routeTargetsForChecked_eq {rules : List RouteRule}
    (bounded : ∀ rule ∈ rules, rule.destCount.toNat ≤ kMaxRouteDests) (source : UInt8)
    (topicId : UInt16) :
    routeTargetsForChecked rules source topicId = some (routeTargetsFor rules source topicId) := by
  induction rules with
  | nil => rfl
  | cons rule rules ih =>
      have rest := ih fun other mem => bounded other (List.mem_cons_of_mem rule mem)
      unfold routeTargetsForChecked routeTargetsFor
      split
      · exact rest
      · split
        · exact rest
        · rw [copyDests_eq rule (bounded rule List.mem_cons_self)]
          rfl

/-- Where destinations are declared, every target of a lookup is a peer. -/
theorem targets_resolve {t : LoadedTopology} (ids : (t.peers.map (·.id)).Nodup)
    (declared : ∀ rule ∈ t.routes, ∀ d ∈ rule.dests, peerExists t.peers d) {source : UInt8}
    {topicId : UInt16} {id : UInt8} (target : id ∈ (routeTargetsFor t.routes source topicId).list) :
    ∃ p ∈ t.peers, p.id = id ∧ peerById t.view id = some p := by
  rw [routeTargetsFor_list, routedTo] at target
  cases found : firstMatch t.routes source topicId with
  | none => simp [found] at target
  | some rule =>
      rw [found] at target
      obtain ⟨p, mem, rfl⟩ := declared rule (mem_of_firstMatch found).1 id target
      exact ⟨p, mem, rfl, peerById_of_mem t.view ids mem⟩

/-! ### Every accepted profile keeps it -/

theorem PeerStored.peer_sized {tbl : TomlTable} {p : PeerEntry} (stored : PeerStored tbl p) :
    p.Sized := by
  refine ⟨stored.id_range, ?_, stored.maxPayload_range, stored.sized⟩
  by_cases zero : p.shmSlotCount = 0
  · exact .inl zero
  · right
    refine ⟨?_, stored.slotCount_le⟩
    apply Nat.pos_of_ne_zero
    intro none
    exact zero (UInt32.toNat_inj.mp none)

theorem SidebandStored.cpu_unset {tbl : TomlTable} {r : SidebandRegion}
    (stored : SidebandStored tbl r) (cpu : r.memoryClass = .shm) :
    r.cudaDevice = kSidebandCudaDeviceUnset := by
  rw [stored.cudaDevice]
  cases written : valueInt64 (get tbl "cuda_device") with
  | none => rfl
  | some dev =>
      have present : (valueInt64 (get tbl "cuda_device")).isSome := by rw [written]; rfl
      exact absurd cpu (stored.cudaDevice_range present).1

theorem RouteStored.declared {tbl : TomlTable} {t : LoadedTopology} {rule : RouteRule}
    (stored : RouteStored t.peers tbl rule)
    (selector : rule.topicId = kRouteTopicAny ∨ ∃ topic ∈ t.topics, topic.id = rule.topicId) :
    rule.Declared t := by
  obtain ⟨count_pos, count_le, source, declared, nodup, no_self⟩ := stored.wellFormed
  refine ⟨⟨count_pos, count_le⟩, source, declared, nodup, no_self, stored.unused, ?_⟩
  by_cases any : rule.topicId = kRouteTopicAny
  · exact .inl any
  · right
    refine ⟨?_, selector.resolve_left any⟩
    have bound : rule.topicId.toNat < 2 ^ 16 := rule.topicId.toNat_lt
    have different : rule.topicId.toNat ≠ 0xFFFF := by
      intro top
      exact any (UInt16.toNat_inj.mp top)
    omega

/-- Every accepted profile is well formed; on its table the lookup stays within its
arrays, and each target it returns resolves. -/
theorem accepted_profile {root : TomlTable} {t : LoadedTopology}
    (accepted : buildFrom root = .ok t) :
    AcceptedProfile t ∧ ∀ source topicId,
      routeTargetsForChecked t.routes source topicId =
        some (routeTargetsFor t.routes source topicId) ∧
      (routeTargetsFor t.routes source topicId).count ≤ kMaxRouteDests ∧
      ∀ id ∈ (routeTargetsFor t.routes source topicId).list,
        ∃ p ∈ t.peers, p.id = id ∧ peerById t.view id = some p := by
  have wellFormed := buildFrom_wellFormed accepted
  have stored := buildFrom_stored accepted
  have rules : ∀ rule ∈ t.routes, rule.Declared t := by
    intro rule mem
    obtain ⟨tbl, -, routeStored⟩ := exists_input stored.routes mem
    exact routeStored.declared (stored.selectors rule mem)
  refine ⟨⟨wellFormed.ids, ?_, wellFormed.udsListen, wellFormed.udpListen, rules, stored.topicIds,
    stored.topicNames, ?_⟩, ?_⟩
  · intro p mem
    obtain ⟨tbl, -, peerStored⟩ := exists_input stored.peer_entries mem
    exact peerStored.peer_sized
  · intro r mem
    obtain ⟨tbl, -, regionStored⟩ := exists_input stored.sideband_entries mem
    exact regionStored.cpu_unset
  · intro source topicId
    refine ⟨routeTargetsForChecked_eq (fun rule mem => (rules rule mem).count.2) source topicId,
      ?_, fun id target => targets_resolve wellFormed.ids (fun rule mem => (rules rule mem).dests)
        target⟩
    rw [routeTargetsFor_eq]
    cases found : firstMatch t.routes source topicId with
    | none => exact Nat.zero_le _
    | some rule => exact (rules rule (mem_of_firstMatch found).1).count.2

/-- A camera and a lidar that publish to a logger, one of them only the topic `pose`. -/
def sensorProfile : TomlTable :=
  profile "uds:/tmp/router.sock"
    [peerTable 1 "camera" "shm:/camera" [(ascii "shm_slot_count", .integer 8),
      (ascii "sideband", .array [.table [(ascii "name", .string (ascii "/frames")),
        (ascii "max_payload_bytes", .integer 4096)]])],
      peerTable 2 "lidar" "uds:/tmp/lidar.sock" [], peerTable 3 "logger" "shm:/logger" []]
    [routeTable 1 3, .table [(ascii "source", .integer 2), (ascii "dest", .array [.integer 3]),
      (ascii "topic", .integer 100)]] ++
    [(ascii "topics", .array [.table [(ascii "id", .integer 100),
      (ascii "name", .string (ascii "pose"))]])]

theorem accepted_profile_sensors : ∃ t, buildFrom sensorProfile = .ok t ∧ AcceptedProfile t ∧
    (routeTargetsFor t.routes 2 100).list = [3] ∧ ∃ p, peerById t.view 3 = some p := by
  have shape : ∀ t ∈ (buildFrom sensorProfile).toOption,
      (routeTargetsFor t.routes 2 100).list = [3] := by decide +kernel
  obtain ⟨t, accepted⟩ : ∃ t, buildFrom sensorProfile = .ok t := ⟨_, rfl⟩
  have targets := shape t (toOption_eq_some.mpr accepted)
  obtain ⟨contract, lookups⟩ := accepted_profile accepted
  obtain ⟨-, -, resolves⟩ := lookups 2 100
  obtain ⟨p, -, -, found⟩ := resolves 3 (by rw [targets]; exact List.mem_singleton_self 3)
  exact ⟨t, accepted, contract, targets, p, found⟩

end RoboticsIpc
