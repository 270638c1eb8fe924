import RoboticsIpc.Router.TopologyLoader

/-!
What the loader guarantees of a profile it accepts, as the invariants of its
loops: ids are distinct and never the reserved ones, addresses fit their socket
structures, ring sizes are in range, every datagram peer has its listen address,
and every rule's destinations are declared, distinct and not its source.
-/

namespace RoboticsIpc

open ByteBuffer Checked Toml

/-- What `parse_address_` checks of each kind of address. -/
def PeerAddress.WellFormed : PeerAddress → Prop
  | .uds path => path.bytes.head? = some slash ∧ path.bytes.length ≤ kUdsPathMaxLen
  | .udp endpoint => endpoint.port ≠ 0
  | .shm name => name.bytes.head? = some slash ∧ name.bytes.length ≤ kShmNameMaxLen

structure PeerEntry.WellFormed (p : PeerEntry) : Prop where
  id_ne_invalid : p.id ≠ kEndpointInvalid
  id_ne_server : p.id ≠ kEndpointServer
  address : p.localAddress.WellFormed
  slotCount_le : p.shmSlotCount.toNat ≤ 2 ^ 20
  maxPayload : p.shmMaxPayload = 0 ∨
    (kRouterFrameSize ≤ p.shmMaxPayload.toNat ∧ p.shmMaxPayload.toNat ≤ 2 ^ 28)

structure RouteRule.WellFormed (peers : List PeerEntry) (rule : RouteRule) : Prop where
  count_pos : 0 < rule.destCount.toNat
  count_le : rule.destCount.toNat ≤ kMaxRouteDests
  source : peerExists peers rule.source
  declared : ∀ d ∈ rule.dests, peerExists peers d
  nodup : rule.dests.Nodup
  no_self : rule.source ∉ rule.dests

/-- What the loader has checked of the listen addresses. -/
structure LoadedTopology.Listening (t : LoadedTopology) : Prop where
  listen : t.routerListen.WellFormed
  uds : ∀ path, t.listenUds = some path → (PeerAddress.uds path).WellFormed
  udp : ∀ endpoint, t.listenUdp = some endpoint → (PeerAddress.udp endpoint).WellFormed

structure LoadedTopology.WellFormed (t : LoadedTopology) : Prop where
  nonempty : t.peers ≠ []
  listening : t.Listening
  ids : (t.peers.map (·.id)).Nodup
  peers : ∀ p ∈ t.peers, p.WellFormed
  udsListen : ∀ p ∈ t.peers, p.localAddress.kind = .udsPath → t.listenUds ≠ none
  udpListen : ∀ p ∈ t.peers, p.localAddress.kind = .udpEndpoint → t.listenUdp ≠ none
  routes : ∀ rule ∈ t.routes, rule.WellFormed t.peers

/-! ### Addresses -/

/-- A C string keeps the first byte of a text that starts with a slash, and is no longer. -/
theorem cStr_slash {text : Bytes} (absolute : text.head? = some slash) :
    (cStr text).bytes.head? = some slash := by
  cases text with
  | nil => cases absolute
  | cons c rest =>
      obtain rfl : c = slash := by simpa using absolute
      rfl

theorem length_cStr_le (text : Bytes) : (cStr text).bytes.length ≤ text.length :=
  (List.takeWhile_sublist _).length_le

theorem parseAddress_wellFormed {spec : Bytes} {address : PeerAddress}
    (ok : parseAddress spec = .ok address) : address.WellFormed := by
  obtain ⟨⟨scheme, rest⟩, -, ok⟩ := bind_eq_ok.mp ok
  simp only at ok
  split at ok
  · simp only [parseUds, bind_eq_ok, rejectIf_eq_ok, not_not, not_lt] at ok
    obtain ⟨_, absolute, _, short, result⟩ := ok
    cases result
    exact ⟨cStr_slash absolute, (length_cStr_le rest).trans short⟩
  · split at ok
    · simp only [parseUdp, bind_eq_ok, required_eq_ok, rejectIf_eq_ok, not_or, not_lt] at ok
      obtain ⟨_, -, _, -, _, -, port, -, _, ⟨nonzero, small⟩, result⟩ := ok
      cases result
      intro zero
      have value := congrArg UInt16.toNat zero
      simp only [UInt16.toNat_ofNat', UInt16.toNat_zero] at value
      omega
    · split at ok
      · simp only [parseShm, bind_eq_ok, rejectIf_eq_ok, not_not, not_lt] at ok
        obtain ⟨_, absolute, _, short, result⟩ := ok
        cases result
        exact ⟨cStr_slash absolute, (length_cStr_le rest).trans short⟩
      · cases ok

/-! ### Peers -/

theorem toNat_uint8_ofInt {v : Int} (low : 0 ≤ v) (high : v < 2 ^ 8) :
    (UInt8.ofInt v).toNat = v.toNat := by
  simp only [UInt8.ofInt, UInt8.toNat_ofNat']
  omega

theorem toNat_uint16_ofInt {v : Int} (low : 0 ≤ v) (high : v < 2 ^ 16) :
    (UInt16.ofInt v).toNat = v.toNat := by
  simp only [UInt16.ofInt, UInt16.toNat_ofNat']
  omega

theorem toNat_uint32_ofInt {v : Int} (low : 0 ≤ v) (high : v < 2 ^ 32) :
    (UInt32.ofInt v).toNat = v.toNat := by
  simp only [UInt32.ofInt, UInt32.toNat_ofNat']
  omega

theorem toNat_uint64_ofInt {v : Int} (low : 0 ≤ v) (high : v < 2 ^ 64) :
    (UInt64.ofInt v).toNat = v.toNat := by
  simp only [UInt64.ofInt, UInt64.toNat_ofNat']
  omega

/-- An accepted slot count is the one written, zero if none is. -/
theorem loadSlotCount_ok {name : Bytes} {value : Option Int} {v : UInt32}
    (ok : loadSlotCount name value = .ok v) :
    (v.toNat : Int) = value.getD 0 ∧ v.toNat ≤ 2 ^ 20 := by
  cases value with
  | none =>
      cases ok
      exact ⟨rfl, Nat.zero_le _⟩
  | some n =>
      simp only [loadSlotCount, bind_eq_ok, rejectIf_eq_ok] at ok
      obtain ⟨_, range, result⟩ := ok
      cases result
      simp only [kShmSlotCountMin, kShmSlotCountMax] at range
      rw [toNat_uint32_ofInt (by omega) (by omega), Option.getD_some]
      omega

/-- An accepted payload size is the one written, and zero or between its bounds. -/
theorem loadMaxPayload_ok {name : Bytes} {value : Option Int} {v : UInt32}
    (ok : loadMaxPayload name value = .ok v) :
    (v.toNat : Int) = value.getD 0 ∧
      (v = 0 ∨ (kRouterFrameSize ≤ v.toNat ∧ v.toNat ≤ 2 ^ 28)) := by
  cases value with
  | none =>
      cases ok
      exact ⟨rfl, .inl rfl⟩
  | some n =>
      simp only [loadMaxPayload, bind_eq_ok, rejectIf_eq_ok] at ok
      obtain ⟨_, low, _, high, result⟩ := ok
      cases result
      simp only [kRouterFrameSize, kShmMaxPayloadMax] at low high
      have value : (UInt32.ofInt n).toNat = n.toNat := toNat_uint32_ofInt (by omega) (by omega)
      rw [value, Option.getD_some]
      refine ⟨by omega, ?_⟩
      by_cases zero : n = 0
      · subst zero
        exact .inl rfl
      · right
        rw [kRouterFrameSize]
        omega

/-- A peer's entry is well formed and its id is new. -/
theorem loadPeerEntry_ok {i : Nat} {peers : List PeerEntry} {tbl : TomlTable} {p : PeerEntry}
    {name : Bytes} (ok : loadPeerEntry i peers tbl = .ok (p, name)) :
    p.WellFormed ∧ ∀ e ∈ peers, e.id ≠ p.id := by
  simp only [loadPeerEntry, bind_eq_ok, required_eq_ok, rejectIf_eq_ok] at ok
  obtain ⟨id, -, -, range, _, -, -, -, -, -, _, -, -, fresh, address, parsed, -, -, slotCount,
    slots, maxPayload, payload, result⟩ := ok
  cases result
  have value : (UInt8.ofInt id).toNat = id.toNat := toNat_uint8_ofInt (by omega) (by omega)
  refine ⟨⟨?_, ?_, parseAddress_wellFormed parsed, (loadSlotCount_ok slots).2,
    (loadMaxPayload_ok payload).2⟩, ?_⟩
  · intro invalid
    have zero : (UInt8.ofInt id).toNat = 0 := congrArg UInt8.toNat invalid
    omega
  · intro server
    have top : (UInt8.ofInt id).toNat = 255 := congrArg UInt8.toNat server
    omega
  · intro e mem same
    exact fresh ⟨e, mem, same⟩

/-- The invariant of the loop over `[[peers]]`. -/
structure PeersInv (listening out : LoadedTopology) : Prop where
  ids : (out.peers.map (·.id)).Nodup
  peers : ∀ p ∈ out.peers, p.WellFormed
  routes : out.routes = listening.routes
  topics : out.topics = listening.topics
  routerListen : out.routerListen = listening.routerListen
  listenUds : out.listenUds = listening.listenUds
  listenUdp : out.listenUdp = listening.listenUdp

theorem loadPeer_spec {i : Nat} {out out' : LoadedTopology} {entry : Toml}
    (ok : loadPeer i out entry = .ok out') :
    ∃ p sidebands ranges, p.WellFormed ∧ (∀ e ∈ out.peers, e.id ≠ p.id) ∧
      out' = { out with peers := out.peers ++ [p], sidebands := sidebands,
                        peerSidebandRanges := ranges } := by
  simp only [loadPeer, bind_eq_ok, required_eq_ok] at ok
  obtain ⟨tbl, -, ⟨p, name⟩, loaded, sidebands, -, result⟩ := ok
  cases result
  obtain ⟨wellFormed, fresh⟩ := loadPeerEntry_ok loaded
  exact ⟨p, sidebands, _, wellFormed, fresh, rfl⟩

theorem loadPeer_inv {i : Nat} {listening out out' : LoadedTopology} {entry : Toml}
    (inv : PeersInv listening out) (ok : loadPeer i out entry = .ok out') :
    PeersInv listening out' := by
  obtain ⟨p, sidebands, ranges, wellFormed, fresh, rfl⟩ := loadPeer_spec ok
  obtain ⟨ids, peers, routes, topics, routerListen, listenUds, listenUdp⟩ := inv
  refine ⟨?_, ?_, routes, topics, routerListen, listenUds, listenUdp⟩
  · rw [List.map_append, List.nodup_append]
    refine ⟨ids, by simp, ?_⟩
    intro id mem other new
    obtain ⟨e, declared, rfl⟩ := List.mem_map.mp mem
    obtain rfl : other = p.id := by simpa using new
    exact fresh e declared
  · intro e mem
    rcases List.mem_append.mp mem with old | new
    · exact peers e old
    · obtain rfl : e = p := by simpa using new
      exact wellFormed

theorem loadPeer_nonempty {listening out : LoadedTopology} {entries : List Toml}
    (some_entry : entries ≠ []) (ok : forIdx loadPeer 0 entries listening = .ok out) :
    out.peers ≠ [] := by
  have counted : entries.length ≤ out.peers.length :=
    forIdx_inv (I := fun done out => done.length ≤ out.peers.length) (Nat.zero_le _)
      (by
        intro done out entry out' bound _ step
        obtain ⟨p, _, _, -, -, rfl⟩ := loadPeer_spec step
        simpa using bound) ok
  intro none
  rw [none] at counted
  exact some_entry (List.eq_nil_of_length_eq_zero (by simpa using counted))

/-! ### Listens -/

theorem checkListens_ok {out out' : LoadedTopology} {peers : List PeerEntry}
    (ok : forIdx checkListens 0 peers out = .ok out') :
    (∀ p ∈ peers, p.localAddress.kind = .udsPath → out.listenUds ≠ none) ∧
      (∀ p ∈ peers, p.localAddress.kind = .udpEndpoint → out.listenUdp ≠ none) := by
  have checked := forIdx_inv
    (I := fun done now => now = out ∧ ∀ p ∈ done,
      (p.localAddress.kind = .udsPath → out.listenUds ≠ none) ∧
        (p.localAddress.kind = .udpEndpoint → out.listenUdp ≠ none))
    (⟨rfl, by simp⟩)
    (by
      rintro done now p now' ⟨rfl, sofar⟩ _ step
      simp only [checkListens, bind_eq_ok, rejectIf_eq_ok, not_and] at step
      obtain ⟨_, uds, _, udp, same⟩ := step
      cases same
      refine ⟨rfl, ?_⟩
      intro q mem
      rcases List.mem_append.mp mem with old | new
      · exact sofar q old
      · obtain rfl : q = p := by simpa using new
        exact ⟨uds, udp⟩) ok
  exact ⟨fun p mem => (checked.2 p mem).1, fun p mem => (checked.2 p mem).2⟩

/-! ### Routes -/

theorem extractIds_length {i : Nat} {dests : List Toml} {ids : List UInt8}
    (ok : forIdx (extractId i) 0 dests [] = .ok ids) : ids.length = dests.length := by
  refine forIdx_inv (I := fun done ids => ids.length = done.length) rfl ?_ ok
  intro done ids entry ids' length _ step
  simp only [extractId, bind_eq_ok, required_eq_ok, rejectIf_eq_ok] at step
  obtain ⟨v, -, _, -, result⟩ := step
  cases result
  simp [length]

theorem checkDests_ok {i : Nat} {peers : List PeerEntry} {source : UInt8} {dests after : List UInt8}
    (ok : forIdx (checkDest i peers source) 0 dests [] = .ok after) :
    (∀ d ∈ dests, peerExists peers d) ∧ dests.Nodup ∧ source ∉ dests := by
  have checked := forIdx_inv
    (I := fun done before => before = done ∧ (∀ d ∈ done, peerExists peers d) ∧ done.Nodup ∧
      source ∉ done)
    ⟨rfl, by simp, List.nodup_nil, by simp⟩
    (by
      rintro done before d before' ⟨rfl, declared, nodup, noSelf⟩ _ step
      simp only [checkDest, bind_eq_ok, rejectIf_eq_ok, not_not] at step
      obtain ⟨_, exist, _, fresh, _, other, result⟩ := step
      cases result
      refine ⟨rfl, ?_, ?_, ?_⟩
      · intro e mem
        rcases List.mem_append.mp mem with old | new
        · exact declared e old
        · obtain rfl : e = d := by simpa using new
          exact exist
      · rw [List.nodup_append]
        refine ⟨nodup, by simp, ?_⟩
        intro e old e' new same
        obtain rfl : e' = d := by simpa using new
        exact fresh (same ▸ old)
      · simp only [List.mem_append, List.mem_singleton, not_or]
        exact ⟨noSelf, fun same => other same.symm⟩) ok
  exact checked.2

/-- The destination array holds the ids, padded with zeros up to its eight slots. -/
theorem dests_of_ids {ids : List UInt8} {destCount : UInt8} (source : UInt8) (topicId : UInt16)
    (count : destCount.toNat = ids.length) (small : ids.length ≤ kMaxRouteDests) :
    RouteRule.dests { source, topicId, destCount, dest := Vector.ofFn fun k => ids.getD k 0 } =
      ids := by
  apply List.ext_getElem?
  intro k
  simp only [RouteRule.dests, count, List.getElem?_take]
  split
  · rename_i inside
    have bound : k < kMaxRouteDests := Nat.lt_of_lt_of_le inside small
    simp [bound, inside]
  · rename_i beyond
    exact (List.getElem?_eq_none (by omega)).symm

theorem loadRoute_spec {i : Nat} {out out' : LoadedTopology} {entry : Toml}
    (ok : loadRoute i out entry = .ok out') :
    ∃ rule, rule.WellFormed out.peers ∧ out' = { out with routes := out.routes ++ [rule] } := by
  simp only [loadRoute, bind_eq_ok, required_eq_ok, rejectIf_eq_ok, not_or, not_not] at ok
  obtain ⟨rt, -, source, -, dests, -, _, size, ids, extracted, topic, -, _, declared, after,
    checked, result⟩ := ok
  cases result
  have length := extractIds_length extracted
  obtain ⟨known, nodup, noSelf⟩ := checkDests_ok checked
  have nonempty : 0 < dests.length := List.length_pos_iff.mpr size.1
  have small : dests.length ≤ 8 := by simpa [kMaxRouteDests] using size.2
  have count : (UInt8.ofNat dests.length).toNat = ids.length := by
    rw [UInt8.toNat_ofNat', length]
    omega
  refine ⟨_, ?_, rfl⟩
  have listed := dests_of_ids (UInt8.ofInt source) topic count (by omega)
  refine ⟨?_, ?_, declared, ?_, ?_, ?_⟩
  · simp only [count]
    omega
  · simp only [count, kMaxRouteDests]
    omega
  · rw [listed]
    exact known
  · rw [listed]
    exact nodup
  · rw [listed]
    exact noSelf

/-! ### The whole profile -/

theorem loadTopic_spec {i : Nat} {out out' : LoadedTopology} {entry : Toml}
    (ok : loadTopic i out entry = .ok out') :
    ∃ topic, out' = { out with topics := out.topics ++ [topic] } := by
  simp only [loadTopic, bind_eq_ok, required_eq_ok] at ok
  obtain ⟨_, -, _, -, _, -, _, -, _, -, _, -, _, -, _, -, _, -, _, -, result⟩ := ok
  cases result
  exact ⟨_, rfl⟩

theorem checkRouteTopic_eq {i : Nat} {out out' : LoadedTopology} {rule : RouteRule}
    (ok : checkRouteTopic i out rule = .ok out') : out' = out := by
  simp only [checkRouteTopic, bind_eq_ok] at ok
  obtain ⟨_, -, same⟩ := ok
  cases same
  rfl

/-- A profile of which only the listen addresses have been loaded. -/
structure ListensOnly (out : LoadedTopology) : Prop where
  peers : out.peers = []
  routes : out.routes = []
  listening : out.Listening

theorem primaryListen_ok {listen : PeerAddress} (wellFormed : listen.WellFormed) :
    ListensOnly (primaryListen listen) := by
  cases listen with
  | uds path =>
      refine ⟨rfl, rfl, wellFormed, ?_, by simp [primaryListen]⟩
      rintro _ ⟨⟩
      exact wellFormed
  | udp endpoint =>
      refine ⟨rfl, rfl, wellFormed, by simp [primaryListen], ?_⟩
      rintro _ ⟨⟩
      exact wellFormed
  | shm name => exact ⟨rfl, rfl, wellFormed, by simp [primaryListen], by simp [primaryListen]⟩

theorem loadListenUds_ok {out out' : LoadedTopology} {value : Option Bytes}
    (before : ListensOnly out) (ok : loadListenUds out value = .ok out') : ListensOnly out' := by
  cases value with
  | none =>
      cases ok
      exact before
  | some spec =>
      obtain ⟨address, parsed, result⟩ := bind_eq_ok.mp ok
      obtain ⟨peers, routes, listen, -, udp⟩ := before
      cases address <;> cases result
      refine ⟨peers, routes, listen, ?_, udp⟩
      rintro _ ⟨⟩
      exact parseAddress_wellFormed parsed

theorem loadListenUdp_ok {out out' : LoadedTopology} {value : Option Bytes}
    (before : ListensOnly out) (ok : loadListenUdp out value = .ok out') : ListensOnly out' := by
  cases value with
  | none =>
      cases ok
      exact before
  | some spec =>
      obtain ⟨address, parsed, result⟩ := bind_eq_ok.mp ok
      obtain ⟨peers, routes, listen, uds, -⟩ := before
      cases address <;> cases result
      refine ⟨peers, routes, listen, uds, ?_⟩
      rintro _ ⟨⟩
      exact parseAddress_wellFormed parsed

theorem loadListens_ok {router : TomlTable} {out : LoadedTopology}
    (ok : loadListens router = .ok out) : ListensOnly out := by
  simp only [loadListens, bind_eq_ok] at ok
  obtain ⟨_, -, listen, parsed, withUds, uds, udp⟩ := ok
  exact loadListenUdp_ok
    (loadListenUds_ok (primaryListen_ok (parseAddress_wellFormed parsed)) uds) udp

/-- Every accepted profile is well formed. -/
theorem buildFrom_wellFormed {root : TomlTable} {t : LoadedTopology}
    (accepted : buildFrom root = .ok t) : t.WellFormed := by
  simp only [buildFrom, bind_eq_ok, required_eq_ok, rejectIf_eq_ok] at accepted
  obtain ⟨router, -, listening, listens, entries, -, _, someEntry, peered, peersLoaded, _, checked,
    routed, routesLoaded, out, topicsLoaded, routeTopics⟩ := accepted
  obtain ⟨noPeers, noRoutes, listening_ok⟩ := loadListens_ok listens
  have peersInv : PeersInv listening peered :=
    forIdx_inv' ⟨by simp [noPeers], by simp [noPeers], rfl, rfl, rfl, rfl, rfl⟩
      (fun _ _ _ _ inv step => loadPeer_inv inv step) peersLoaded
  have nonempty := loadPeer_nonempty someEntry peersLoaded
  obtain ⟨uds, udp⟩ := checkListens_ok checked
  have routesInv : (∃ routes, routed = { peered with routes := routes }) ∧
      ∀ rule ∈ routed.routes, rule.WellFormed peered.peers := by
    refine forIdx_inv' (I := fun out => (∃ routes, out = { peered with routes := routes }) ∧
      ∀ rule ∈ out.routes, rule.WellFormed peered.peers) ?_ ?_ routesLoaded
    · exact ⟨⟨_, rfl⟩, by simp [peersInv.routes, noRoutes]⟩
    · rintro i out entry out' ⟨⟨routes, rfl⟩, inv⟩ step
      obtain ⟨rule, wellFormed, rfl⟩ := loadRoute_spec step
      refine ⟨⟨_, rfl⟩, ?_⟩
      intro r mem
      rcases List.mem_append.mp mem with old | new
      · exact inv r old
      · obtain rfl : r = rule := by simpa using new
        exact wellFormed
  obtain ⟨⟨routes, rfl⟩, routesOk⟩ := routesInv
  obtain ⟨topics, rfl⟩ : ∃ topics, out = { peered with routes := routes, topics := topics } := by
    refine forIdx_inv' (I := fun out => ∃ topics,
      out = { peered with routes := routes, topics := topics }) ⟨_, rfl⟩ ?_ topicsLoaded
    rintro i out entry out' ⟨topics, rfl⟩ step
    obtain ⟨topic, rfl⟩ := loadTopic_spec step
    exact ⟨_, rfl⟩
  obtain rfl : t = { peered with routes := routes, topics := topics } :=
    forIdx_inv' (I := fun out => out = { peered with routes := routes, topics := topics }) rfl
      (fun _ _ _ _ inv step => (checkRouteTopic_eq step).trans inv) routeTopics
  refine ⟨nonempty, ?_, peersInv.ids, peersInv.peers, uds, udp, routesOk⟩
  exact ⟨peersInv.routerListen ▸ listening_ok.listen,
    fun path found => listening_ok.uds path (peersInv.listenUds.symm.trans found),
    fun endpoint found => listening_ok.udp endpoint (peersInv.listenUdp.symm.trans found)⟩

/-! ### Small profiles -/

/-- A `[[peers]]` entry. -/
def peerTable (id : Int64) (name address : String) (more : TomlTable) : Toml :=
  .table ([(ascii "id", .integer id), (ascii "name", .string (ascii name)),
    (ascii "local", .string (ascii address))] ++ more)

/-- The keys of a ring of `slots` slots of 64 bytes. -/
def smallRing (slots : Int64) : TomlTable :=
  [(ascii "shm_slot_count", .integer slots), (ascii "shm_max_payload", .integer 64)]

/-- A `[[routes]]` entry without a topic. -/
def routeTable (source dest : Int64) : Toml :=
  .table [(ascii "source", .integer source), (ascii "dest", .array [.integer dest])]

/-- A profile with these keys in its `[router]` section. -/
def profileWith (router : TomlTable) (peers routes : List Toml) : TomlTable :=
  [(ascii "router", .table router), (ascii "peers", .array peers), (ascii "routes", .array routes)]

/-- A profile with one listen address. -/
def profile (listen : String) (peers routes : List Toml) : TomlTable :=
  profileWith [(ascii "listen", .string (ascii listen))] peers routes

end RoboticsIpc
