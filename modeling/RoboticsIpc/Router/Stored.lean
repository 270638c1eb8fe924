import Mathlib.Data.List.Forall2
import RoboticsIpc.Router.Accepted

/-!
What the loader stores of a profile it accepts.

Each entry of a section has a relation to the record made of it (`PeerStored`,
`SidebandStored`, `RouteStored`, `TopicStored`): which key every field comes from,
its default, and the range its check leaves. `Stored` relates the sections, entry
by entry, and `buildFrom_stored` says that every accepted profile is so related.

One field is not the document's: a route's source goes through a cast alone.
-/

namespace RoboticsIpc

open ByteBuffer Checked Toml

/-! ### Integers -/

/-- An `int64_t` is one. -/
theorem valueInt64_range {node : Option Toml} {v : Int} (found : valueInt64 node = some v) :
    -2 ^ 63 ≤ v ∧ v < 2 ^ 63 := by
  cases node with
  | none => cases found
  | some node =>
      cases node with
      | integer value =>
          obtain rfl := Option.some.inj found
          exact ⟨Int64.le_toInt value, Int64.toInt_lt value⟩
      | floating value =>
          cases value with
          | none => cases found
          | some value =>
              simp only [valueInt64] at found
              split at found
              · rename_i whole
                obtain rfl := Option.some.inj found
                exact whole.2
              · cases found
      | boolean value =>
          obtain rfl := Option.some.inj found
          cases value <;> decide
      | string text => cases found
      | dateTime => cases found
      | array elems => cases found
      | table entries => cases found

/-! ### Entries and their records -/

structure PeerStored (tbl : TomlTable) (p : PeerEntry) : Prop where
  id : valueInt64 (get tbl "id") = some (p.id.toNat : Int)
  id_range : 1 ≤ p.id.toNat ∧ p.id.toNat ≤ 254
  name : ∃ text, valueString (get tbl "name") = some text ∧ p.name = cStr text
  address : ∃ spec, valueString (get tbl "local") = some spec ∧ parseAddress spec = .ok p.localAddress
  slotCount : (p.shmSlotCount.toNat : Int) = (valueInt64 (get tbl "shm_slot_count")).getD 0
  slotCount_le : p.shmSlotCount.toNat ≤ 2 ^ 20
  maxPayload : (p.shmMaxPayload.toNat : Int) = (valueInt64 (get tbl "shm_max_payload")).getD 0
  maxPayload_range : p.shmMaxPayload = 0 ∨
    (kRouterFrameSize ≤ p.shmMaxPayload.toNat ∧ p.shmMaxPayload.toNat ≤ 2 ^ 28)
  sized : p.shmSlotCount ≠ 0 ∨ p.shmMaxPayload ≠ 0 → p.localAddress.kind = .shmRing

structure SidebandStored (tbl : TomlTable) (r : SidebandRegion) : Prop where
  name : ∃ text, valueString (get tbl "name") = some text ∧ r.name = cStr text
  maxPayloadBytes : valueInt64 (get tbl "max_payload_bytes") = some (r.maxPayloadBytes.toNat : Int)
  version : (r.version.toNat : Int) = (valueInt64 (get tbl "version")).getD 1
  memoryClass : ((valueString (get tbl "memory_class")).elim (some .shm)
    fun text => parseSidebandMemoryClass (cStr text)) = some r.memoryClass
  cudaDevice : r.cudaDevice = (valueInt64 (get tbl "cuda_device")).getD kSidebandCudaDeviceUnset
  cudaDevice_range : (valueInt64 (get tbl "cuda_device")).isSome →
    r.memoryClass ≠ .shm ∧ 0 ≤ r.cudaDevice ∧ r.cudaDevice ≤ 255

structure RouteStored (peers : List PeerEntry) (tbl : TomlTable) (rule : RouteRule) : Prop where
  source : ∃ v, valueInt64 (get tbl "source") = some v ∧ rule.source = UInt8.ofInt v
  dests : ∃ nodes, asArray (get tbl "dest") = some nodes ∧
    nodes.map (fun node => valueInt64 (some node)) = rule.dests.map fun d => some (d.toNat : Int)
  topic : (rule.topicId.toNat : Int) = (valueInt64 (get tbl "topic")).getD 0xFFFF
  selector : (valueInt64 (get tbl "topic")).isSome → rule.topicId ≠ kRouteTopicAny
  wellFormed : rule.WellFormed peers
  unused : ∀ k (slot : k < kMaxRouteDests), rule.destCount.toNat ≤ k → rule.dest[k] = 0

structure TopicStored (tbl : TomlTable) (topic : TopicEntry) : Prop where
  id : valueInt64 (get tbl "id") = some (topic.id.toNat : Int)
  sidebandIdx : (topic.sidebandIdx.toNat : Int) = (valueInt64 (get tbl "sideband_idx")).getD 0xFFFF
  name : ∃ text, valueString (get tbl "name") = some text ∧ topic.name = cStr text
  payloadClass : topic.payloadClass = (valueString (get tbl "payload_class")).map cStr

structure ListensStored (router : TomlTable) (t : LoadedTopology) : Prop where
  listen : ∃ spec, valueString (get router "listen") = some spec ∧
    parseAddress spec = .ok t.routerListen
  uds : match valueString (get router "listen_uds") with
    | none => t.listenUds = (primaryListen t.routerListen).listenUds
    | some spec => ∃ path, parseAddress spec = .ok (.uds path) ∧ t.listenUds = some path
  udp : match valueString (get router "listen_udp") with
    | none => t.listenUdp = (primaryListen t.routerListen).listenUdp
    | some spec => ∃ endpoint, parseAddress spec = .ok (.udp endpoint) ∧
        t.listenUdp = some endpoint

/-! ### Peers -/

variable {name : Bytes} {tbl : TomlTable}

theorem loadPeerEntry_stored {i : Nat} {peers : List PeerEntry} {p : PeerEntry}
    (ok : loadPeerEntry i peers tbl = .ok (p, name)) : PeerStored tbl p := by
  obtain ⟨⟨-, -, -, slotCount_le, maxPayload_range⟩, -⟩ := loadPeerEntry_ok ok
  simp only [loadPeerEntry, bind_eq_ok, required_eq_ok, rejectIf_eq_ok] at ok
  obtain ⟨id, found, _, range, text, named, _, -, _, -, spec, localSpec, _, -, address, parsed, _,
    sized, slotCount, slots, maxPayload, payload, result⟩ := ok
  cases result
  have value : (UInt8.ofInt id).toNat = id.toNat := toNat_uint8_ofInt (by omega) (by omega)
  have slotsStored := (loadSlotCount_ok slots).1
  have payloadStored := (loadMaxPayload_ok payload).1
  constructor
  · rw [found, value]
    congr 1
    omega
  · simp only [value]
    omega
  · exact ⟨_, named, rfl⟩
  · exact ⟨spec, localSpec, parsed⟩
  · exact slotsStored
  · exact slotCount_le
  · exact payloadStored
  · exact maxPayload_range
  · intro nonzero
    by_contra other
    -- A readable sizing key on a peer of another kind is rejected.
    have absent : ¬ ((valueInt64 (get tbl "shm_slot_count")).isSome ∨
        (valueInt64 (get tbl "shm_max_payload")).isSome) := fun some => sized ⟨some, other⟩
    simp only [not_or, Bool.not_eq_true, Option.isSome_eq_false_iff, Option.isNone_iff_eq_none]
      at absent
    rw [absent.1, Option.getD_none] at slotsStored
    rw [absent.2, Option.getD_none] at payloadStored
    rcases nonzero with slot | size
    · exact slot (UInt32.toNat_inj.mp (by exact_mod_cast slotsStored))
    · exact size (UInt32.toNat_inj.mp (by exact_mod_cast payloadStored))

/-! ### Sidebands -/

theorem loadSidebandVersion_stored {value : Option Int} {v : UInt32}
    (ok : loadSidebandVersion name value = .ok v) : (v.toNat : Int) = value.getD 1 := by
  cases value with
  | none =>
      cases ok
      rfl
  | some n =>
      simp only [loadSidebandVersion, bind_eq_ok, rejectIf_eq_ok] at ok
      obtain ⟨_, range, result⟩ := ok
      cases result
      rw [toNat_uint32_ofInt (by omega) (by omega), Option.getD_some]
      omega

theorem loadMemoryClass_stored {value : Option Bytes} {mc : SidebandMemoryClass}
    (ok : loadMemoryClass name value = .ok mc) :
    (value.elim (some .shm) fun text => parseSidebandMemoryClass (cStr text)) = some mc := by
  cases value with
  | none =>
      cases ok
      rfl
  | some text => exact required_eq_ok.mp ok

theorem loadCudaDevice_stored {mc : SidebandMemoryClass} {value : Option Int} {dev : Int}
    (ok : loadCudaDevice name mc value = .ok dev) :
    dev = value.getD kSidebandCudaDeviceUnset ∧
      (value.isSome → mc ≠ .shm ∧ 0 ≤ dev ∧ dev ≤ 255) := by
  cases value with
  | none =>
      cases ok
      exact ⟨rfl, nofun⟩
  | some n =>
      simp only [loadCudaDevice, bind_eq_ok, rejectIf_eq_ok] at ok
      obtain ⟨_, gpu, _, range, result⟩ := ok
      cases result
      refine ⟨rfl, fun _ => ⟨?_, by omega, by omega⟩⟩
      simpa [sidebandMemoryClassIsGpu] using gpu

/-- A sideband entry adds its region. -/
theorem loadSideband_stored {j : Nat} {sidebands out : List SidebandRegion} {entry : Toml}
    (ok : loadSideband name j sidebands entry = .ok out) :
    ∃ r, out = sidebands ++ [r] ∧ ∃ tbl, asTable (some entry) = some tbl ∧ SidebandStored tbl r := by
  simp only [loadSideband, bind_eq_ok, required_eq_ok, rejectIf_eq_ok,
    Option.filter_eq_some_iff] at ok
  obtain ⟨tbl, isTable, text, named, _, -, bytes, ⟨found, positive⟩, version, versioned,
    memoryClass, classed, cudaDevice, device, result⟩ := ok
  cases result
  obtain ⟨deviceStored, deviceRange⟩ := loadCudaDevice_stored device
  have range := valueInt64_range found
  have positive : 0 < bytes := by simpa using positive
  refine ⟨_, rfl, tbl, isTable, ⟨text, named, rfl⟩, ?_, loadSidebandVersion_stored versioned,
    loadMemoryClass_stored classed, deviceStored, deviceRange⟩
  rw [found, toNat_uint64_ofInt (by omega) (by omega)]
  congr 1
  omega

/-! ### Routes -/

/-- The ids of a destination array are its numbers. -/
theorem extractIds_stored {i : Nat} {nodes : List Toml} {ids : List UInt8}
    (ok : forIdx (extractId i) 0 nodes [] = .ok ids) :
    nodes.map (fun node => valueInt64 (some node)) = ids.map fun d => some (d.toNat : Int) := by
  refine forIdx_inv (I := fun done ids => done.map (fun node => valueInt64 (some node)) =
    ids.map fun d => some (d.toNat : Int)) rfl ?_ ok
  intro done ids node ids' sofar _ step
  simp only [extractId, bind_eq_ok, required_eq_ok, rejectIf_eq_ok] at step
  obtain ⟨v, found, _, range, result⟩ := step
  cases result
  have value : ((UInt8.ofInt v).toNat : Int) = v := by
    rw [toNat_uint8_ofInt (by omega) (by omega)]
    omega
  rw [List.map_append, List.map_append, sofar, List.map_singleton, List.map_singleton, found, value]

theorem loadRouteTopic_stored {i : Nat} {value : Option Int} {topic : UInt16}
    (ok : loadRouteTopic i value = .ok topic) :
    (topic.toNat : Int) = value.getD 0xFFFF ∧ (value.isSome → topic ≠ kRouteTopicAny) := by
  cases value with
  | none =>
      cases ok
      exact ⟨rfl, by simp⟩
  | some n =>
      simp only [loadRouteTopic, bind_eq_ok, rejectIf_eq_ok] at ok
      obtain ⟨_, range, result⟩ := ok
      cases result
      have value : (UInt16.ofInt n).toNat = n.toNat := toNat_uint16_ofInt (by omega) (by omega)
      refine ⟨by rw [value, Option.getD_some]; omega, ?_⟩
      intro _ any
      have top : n.toNat = 0xFFFF := value.symm.trans (congrArg UInt16.toNat any)
      omega

/-- A route entry adds its rule. -/
theorem loadRoute_stored {i : Nat} {out out' : LoadedTopology} {entry : Toml}
    (ok : loadRoute i out entry = .ok out') :
    ∃ rule, out' = { out with routes := out.routes ++ [rule] } ∧
      ∃ tbl, asTable (some entry) = some tbl ∧ RouteStored out.peers tbl rule := by
  obtain ⟨rule, wellFormed, same⟩ := loadRoute_spec ok
  simp only [loadRoute, bind_eq_ok, required_eq_ok, rejectIf_eq_ok, not_or, not_not] at ok
  obtain ⟨tbl, isTable, source, sourced, nodes, isArray, _, size, ids, extracted, topic, selected,
    _, -, -, -, result⟩ := ok
  cases result
  -- The rule of the specification is the one the loader builds.
  have built := List.append_cancel_left (congrArg LoadedTopology.routes same)
  obtain rfl := List.singleton_inj.mp built
  obtain ⟨topicStored, selector⟩ := loadRouteTopic_stored selected
  have length := extractIds_length extracted
  have small : nodes.length ≤ 8 := by simpa [kMaxRouteDests] using size.2
  have count : (UInt8.ofNat nodes.length).toNat = ids.length := by
    rw [UInt8.toNat_ofNat', length]
    omega
  refine ⟨_, rfl, tbl, isTable, ⟨source, sourced, rfl⟩, ⟨nodes, isArray, ?_⟩, topicStored, selector,
    wellFormed, ?_⟩
  · rw [extractIds_stored extracted, dests_of_ids _ _ count (by rw [length]; exact small)]
  · intro k slot beyond
    simp only [count] at beyond
    simp [List.getElem?_eq_none beyond]

/-! ### Topics -/

theorem loadPayloadClass_stored {value : Option Bytes} {pc : Option CStr}
    (ok : loadPayloadClass name value = .ok pc) : pc = value.map cStr := by
  cases value with
  | none =>
      cases ok
      rfl
  | some text =>
      simp only [loadPayloadClass, bind_eq_ok, rejectIf_eq_ok] at ok
      obtain ⟨_, -, _, -, result⟩ := ok
      cases result
      rfl

theorem loadTopicSideband_stored {value : Option Int} {idx : UInt16}
    (ok : loadTopicSideband name value = .ok idx) : (idx.toNat : Int) = value.getD 0xFFFF := by
  cases value with
  | none =>
      cases ok
      rfl
  | some n =>
      simp only [loadTopicSideband, bind_eq_ok, rejectIf_eq_ok] at ok
      obtain ⟨_, range, result⟩ := ok
      cases result
      rw [toNat_uint16_ofInt (by omega) (by omega), Option.getD_some]
      omega

/-- A topic entry adds its topic, with an id and a name no earlier topic has. -/
theorem loadTopic_stored {i : Nat} {out out' : LoadedTopology} {entry : Toml}
    (ok : loadTopic i out entry = .ok out') :
    ∃ topic, out' = { out with topics := out.topics ++ [topic] } ∧
      (∀ e ∈ out.topics, e.id ≠ topic.id) ∧ (∀ e ∈ out.topics, e.name ≠ topic.name) ∧
      ∃ tbl, asTable (some entry) = some tbl ∧ TopicStored tbl topic := by
  simp only [loadTopic, bind_eq_ok, required_eq_ok, rejectIf_eq_ok] at ok
  obtain ⟨tbl, isTable, id, found, _, range, _, freshId, text, named, _, -, _, -, _, freshName,
    payloadClass, classed, idx, sideband, result⟩ := ok
  cases result
  refine ⟨_, rfl, fun e mem same => freshId ⟨e, mem, same⟩,
    fun e mem same => freshName ⟨e, mem, same⟩, tbl, isTable, ?_, loadTopicSideband_stored sideband,
    ⟨text, named, rfl⟩, loadPayloadClass_stored classed⟩
  rw [found, toNat_uint16_ofInt (by omega) (by omega)]
  congr 1
  omega

/-! ### Listens -/

/-- A profile with its listens loaded and nothing else. -/
structure ListensLoaded (router : TomlTable) (out : LoadedTopology) : Prop where
  stored : ListensStored router out
  peers : out.peers = []
  sidebands : out.sidebands = []
  ranges : out.peerSidebandRanges = []
  routes : out.routes = []
  topics : out.topics = []

theorem loadListens_stored {router : TomlTable} {out : LoadedTopology}
    (ok : loadListens router = .ok out) : ListensLoaded router out := by
  simp only [loadListens, bind_eq_ok, required_eq_ok] at ok
  obtain ⟨spec, listen, address, parsed, withUds, uds, udp⟩ := ok
  -- The primary address: the other keys replace what it says of their own transport.
  have primary : ∀ a, (primaryListen a).routerListen = a ∧ (primaryListen a).peers = [] ∧
      (primaryListen a).sidebands = [] ∧ (primaryListen a).peerSidebandRanges = [] ∧
      (primaryListen a).routes = [] ∧ (primaryListen a).topics = [] := by
    intro a
    cases a <;> exact ⟨rfl, rfl, rfl, rfl, rfl, rfl⟩
  have first : ∃ listenUds, withUds = { primaryListen address with listenUds } ∧
      match valueString (get router "listen_uds") with
      | none => listenUds = (primaryListen address).listenUds
      | some spec => ∃ path, parseAddress spec = .ok (.uds path) ∧ listenUds = some path := by
    cases key : valueString (get router "listen_uds") with
    | none =>
        rw [key] at uds
        cases uds
        exact ⟨_, rfl, rfl⟩
    | some text =>
        rw [key] at uds
        obtain ⟨a, read, result⟩ := bind_eq_ok.mp uds
        cases a <;> cases result
        exact ⟨_, rfl, _, read, rfl⟩
  obtain ⟨listenUds, rfl, udsStored⟩ := first
  have second : ∃ listenUdp, out = { primaryListen address with listenUds, listenUdp } ∧
      match valueString (get router "listen_udp") with
      | none => listenUdp = (primaryListen address).listenUdp
      | some spec => ∃ endpoint, parseAddress spec = .ok (.udp endpoint) ∧
          listenUdp = some endpoint := by
    cases key : valueString (get router "listen_udp") with
    | none =>
        rw [key] at udp
        cases udp
        exact ⟨_, rfl, rfl⟩
    | some text =>
        rw [key] at udp
        obtain ⟨a, read, result⟩ := bind_eq_ok.mp udp
        cases a <;> cases result
        exact ⟨_, rfl, _, read, rfl⟩
  obtain ⟨listenUdp, rfl, udpStored⟩ := second
  obtain ⟨listenEq, peers, sidebands, ranges, routes, topics⟩ := primary address
  refine ⟨⟨⟨spec, listen, ?_⟩, ?_, ?_⟩, peers, sidebands, ranges, routes, topics⟩
  · simp only [listenEq, parsed]
  · simp only [listenEq]
    exact udsStored
  · simp only [listenEq]
    exact udpStored

/-! ### The whole profile -/

/-- The tables of an array of tables. -/
def entries (node : Option Toml) : List TomlTable :=
  ((asArray node).getD []).filterMap fun entry => asTable (some entry)

/-- Every element of an array of tables is one. -/
def AllTables (node : Option Toml) : Prop :=
  ∀ entry ∈ (asArray node).getD [], ∃ tbl, asTable (some entry) = some tbl

theorem length_entries {node : Option Toml} (tables : AllTables node) :
    (entries node).length = ((asArray node).getD []).length := by
  apply List.filterMap_length_eq_length.mpr
  intro entry mem
  obtain ⟨tbl, isTable⟩ := tables entry mem
  rw [isTable]
  rfl

section Sections

variable {γ : Type} {R : TomlTable → γ → Prop} {nodes : List Toml} {bs : List γ}

theorem forall₂_entries
    (related : List.Forall₂ (fun entry b => ∃ tbl, asTable (some entry) = some tbl ∧ R tbl b)
      nodes bs) :
    List.Forall₂ R (nodes.filterMap fun entry => asTable (some entry)) bs := by
  induction related with
  | nil => exact .nil
  | cons head _ ih =>
      obtain ⟨tbl, isTable, stored⟩ := head
      simp only [List.filterMap_cons, isTable]
      exact .cons stored ih

theorem forall₂_tables
    (related : List.Forall₂ (fun entry b => ∃ tbl, asTable (some entry) = some tbl ∧ R tbl b)
      nodes bs) : ∀ entry ∈ nodes, ∃ tbl, asTable (some entry) = some tbl := by
  intro entry mem
  obtain ⟨b, -, tbl, isTable, -⟩ := exists_output related mem
  exact ⟨tbl, isTable⟩

end Sections

/-- A peer's record, next to the regions declared under it. -/
abbrev LoadedPeer := PeerEntry × List SidebandRegion

/-- The half-open ranges of consecutive runs of these lengths. -/
def rangesFrom (start : Nat) : List Nat → List (Nat × Nat)
  | [] => []
  | n :: ns => (start, start + n) :: rangesFrom (start + n) ns

theorem rangesFrom_concat (start : Nat) (ns : List Nat) (n : Nat) :
    rangesFrom start (ns ++ [n]) =
      rangesFrom start ns ++ [(start + ns.sum, start + ns.sum + n)] := by
  induction ns generalizing start with
  | nil => rfl
  | cons m ns ih =>
      rw [List.cons_append, rangesFrom, ih, rangesFrom, List.sum_cons, Nat.add_assoc,
        List.cons_append]

/-- What holds of the runs' lengths holds of the ranges' widths. -/
theorem forall₂_rangesFrom {α : Type*} {R : α → Nat → Prop} {as : List α} {ns : List Nat}
    (related : List.Forall₂ R as ns) (start : Nat) :
    List.Forall₂ (fun a range => R a (range.2 - range.1)) as (rangesFrom start ns) := by
  induction related generalizing start with
  | nil => exact .nil
  | cons head _ ih =>
      refine .cons ?_ (ih _)
      rw [Nat.add_sub_cancel_left]
      exact head

structure PeerLoaded (tbl : TomlTable) (b : LoadedPeer) : Prop where
  peer : PeerStored tbl b.1
  regions : List.Forall₂ SidebandStored (entries (get tbl "sideband")) b.2
  tables : AllTables (get tbl "sideband")

structure Stored (root : TomlTable) (t : LoadedTopology) : Prop where
  router : ∃ router, asTable (get root "router") = some router ∧ ListensStored router t
  peers : ∃ loaded, List.Forall₂ PeerLoaded (entries (get root "peers")) loaded ∧
    t.peers = loaded.map Prod.fst ∧ t.sidebands = (loaded.map Prod.snd).flatten ∧
    t.peerSidebandRanges = rangesFrom 0 (loaded.map fun b => b.2.length)
  routes : List.Forall₂ (RouteStored t.peers) (entries (get root "routes")) t.routes
  topics : List.Forall₂ TopicStored (entries (get root "topics")) t.topics
  routeTables : AllTables (get root "routes")
  topicTables : AllTables (get root "topics")
  topicIds : (t.topics.map (·.id)).Nodup
  topicNames : (t.topics.map (·.name)).Nodup
  selectors : ∀ rule ∈ t.routes, rule.topicId = kRouteTopicAny ∨
    ∃ topic ∈ t.topics, topic.id = rule.topicId

theorem loadPeer_stored {i : Nat} {out out' : LoadedTopology} {entry : Toml}
    (ok : loadPeer i out entry = .ok out') :
    ∃ b : LoadedPeer,
      out' = { out with
        peers := out.peers ++ [b.1]
        sidebands := out.sidebands ++ b.2
        peerSidebandRanges := out.peerSidebandRanges ++
          [(out.sidebands.length, out.sidebands.length + b.2.length)] } ∧
      ∃ tbl, asTable (some entry) = some tbl ∧ PeerLoaded tbl b := by
  simp only [loadPeer, bind_eq_ok, required_eq_ok] at ok
  obtain ⟨tbl, isTable, ⟨p, name⟩, loaded, sidebands, regions, result⟩ := ok
  cases result
  obtain ⟨-, bs, rfl, related⟩ := forIdx_forall₂
    (I := fun _ : List SidebandRegion => True) id trivial
    (fun j sidebands entry out' _ step => by
      obtain ⟨r, grown, stored⟩ := loadSideband_stored step
      exact ⟨trivial, r, grown, stored⟩) regions
  refine ⟨(p, bs), ?_, tbl, isTable, loadPeerEntry_stored loaded, forall₂_entries related,
    forall₂_tables related⟩
  simp only [id_eq, List.length_append]

/-- The loop over `[[peers]]`. -/
theorem loadPeers_stored {listening out : LoadedTopology} {nodes : List Toml}
    (noPeers : listening.peers = []) (noSidebands : listening.sidebands = [])
    (noRanges : listening.peerSidebandRanges = [])
    (ok : forIdx loadPeer 0 nodes listening = .ok out) :
    ∃ loaded : List LoadedPeer,
      List.Forall₂ (fun entry b => ∃ tbl, asTable (some entry) = some tbl ∧ PeerLoaded tbl b)
        nodes loaded ∧
      out = { listening with
        peers := loaded.map Prod.fst
        sidebands := (loaded.map Prod.snd).flatten
        peerSidebandRanges := rangesFrom 0 (loaded.map fun b => b.2.length) } := by
  refine forIdx_inv (I := fun done out => ∃ loaded,
    List.Forall₂ (fun entry b => ∃ tbl, asTable (some entry) = some tbl ∧ PeerLoaded tbl b)
      done loaded ∧
    out = { listening with
      peers := loaded.map Prod.fst
      sidebands := (loaded.map Prod.snd).flatten
      peerSidebandRanges := rangesFrom 0 (loaded.map fun b => b.2.length) }) ?_ ?_ ok
  · refine ⟨[], .nil, ?_⟩
    cases listening
    simp_all [rangesFrom]
  · rintro done _ entry out' ⟨loaded, related, rfl⟩ - step
    obtain ⟨b, rfl, stored⟩ := loadPeer_stored step
    refine ⟨loaded ++ [b], List.rel_append related (.cons stored .nil), ?_⟩
    simp only [List.map_append, List.map_singleton, List.flatten_append, List.flatten_singleton,
      rangesFrom_concat, List.length_flatten, List.map_map, Function.comp_def, Nat.zero_add]

/-- The loop over `[[routes]]`. -/
theorem loadRoutes_stored {peered out : LoadedTopology} {nodes : List Toml}
    (noRoutes : peered.routes = []) (ok : forIdx loadRoute 0 nodes peered = .ok out) :
    ∃ routes, out = { peered with routes := routes } ∧
      List.Forall₂ (fun entry rule => ∃ tbl, asTable (some entry) = some tbl ∧
        RouteStored peered.peers tbl rule) nodes routes := by
  obtain ⟨⟨routes, rfl⟩, rules, grown, related⟩ := forIdx_forall₂
    (I := fun out => ∃ routes, out = { peered with routes := routes })
    (R := fun entry rule => ∃ tbl, asTable (some entry) = some tbl ∧
      RouteStored peered.peers tbl rule) LoadedTopology.routes ⟨_, rfl⟩
    (by
      rintro i _ entry out' ⟨routes, rfl⟩ step
      obtain ⟨rule, rfl, stored⟩ := loadRoute_stored step
      exact ⟨⟨_, rfl⟩, rule, rfl, stored⟩) ok
  simp only [noRoutes, List.nil_append] at grown
  exact ⟨routes, rfl, grown ▸ related⟩

/-- What the loop over `[[topics]]` keeps. -/
structure TopicsLoaded (routed out : LoadedTopology) : Prop where
  same : ∃ topics, out = { routed with topics := topics }
  ids : (out.topics.map (·.id)).Nodup
  names : (out.topics.map (·.name)).Nodup

theorem TopicsLoaded.step {routed out out' : LoadedTopology} {i : Nat} {entry : Toml}
    (inv : TopicsLoaded routed out) (ok : loadTopic i out entry = .ok out') :
    TopicsLoaded routed out' ∧ ∃ topic, out'.topics = out.topics ++ [topic] ∧
      ∃ tbl, asTable (some entry) = some tbl ∧ TopicStored tbl topic := by
  obtain ⟨topic, rfl, freshId, freshName, stored⟩ := loadTopic_stored ok
  obtain ⟨⟨topics, rfl⟩, ids, names⟩ := inv
  -- A key that is distinct so far and has a value no earlier topic has.
  have extended : ∀ {K : Type} (key : TopicEntry → K), (topics.map key).Nodup →
      (∀ e ∈ topics, key e ≠ key topic) → ((topics ++ [topic]).map key).Nodup := by
    intro K key distinct fresh
    rw [List.map_append, List.nodup_append]
    refine ⟨distinct, by simp, ?_⟩
    intro k mem k' new same
    obtain ⟨e, declared, rfl⟩ := List.mem_map.mp mem
    obtain rfl : k' = key topic := by simpa using new
    exact fresh e declared same
  exact ⟨⟨⟨_, rfl⟩, extended _ ids freshId, extended _ names freshName⟩, topic, rfl, stored⟩

/-- The loop over `[[topics]]`. -/
theorem loadTopics_stored {routed out : LoadedTopology} {nodes : List Toml}
    (noTopics : routed.topics = []) (ok : forIdx loadTopic 0 nodes routed = .ok out) :
    TopicsLoaded routed out ∧ List.Forall₂ (fun entry topic => ∃ tbl,
      asTable (some entry) = some tbl ∧ TopicStored tbl topic) nodes out.topics := by
  obtain ⟨inv, topics, grown, related⟩ := forIdx_forall₂ (I := TopicsLoaded routed)
    (R := fun entry topic => ∃ tbl, asTable (some entry) = some tbl ∧ TopicStored tbl topic)
    LoadedTopology.topics ⟨⟨_, rfl⟩, by simp [noTopics], by simp [noTopics]⟩
    (fun _ _ _ _ inv step => inv.step step) ok
  simp only [noTopics, List.nil_append] at grown
  exact ⟨inv, grown ▸ related⟩

theorem checkRouteTopics_ok {out out' : LoadedTopology} {rules : List RouteRule}
    (ok : forIdx checkRouteTopic 0 rules out = .ok out') :
    out' = out ∧ ∀ rule ∈ rules, rule.topicId = kRouteTopicAny ∨
      ∃ topic ∈ out.topics, topic.id = rule.topicId := by
  refine forIdx_inv (I := fun done now => now = out ∧ ∀ rule ∈ done,
    rule.topicId = kRouteTopicAny ∨ ∃ topic ∈ out.topics, topic.id = rule.topicId)
    ⟨rfl, by simp⟩ ?_ ok
  rintro done now rule now' ⟨rfl, sofar⟩ - step
  simp only [checkRouteTopic, bind_eq_ok, rejectIf_eq_ok, not_and, not_not] at step
  obtain ⟨_, declared, same⟩ := step
  cases same
  refine ⟨rfl, ?_⟩
  intro r mem
  rcases List.mem_append.mp mem with old | new
  · exact sofar r old
  · obtain rfl : r = rule := by simpa using new
    by_cases any : r.topicId = kRouteTopicAny
    · exact .inl any
    · exact .inr (declared any)

/-- Every accepted profile is stored as it is written, but for the sources of its routes. -/
theorem buildFrom_stored {root : TomlTable} {t : LoadedTopology} (accepted : buildFrom root = .ok t) :
    Stored root t := by
  simp only [buildFrom, bind_eq_ok, required_eq_ok, rejectIf_eq_ok] at accepted
  obtain ⟨router, isRouter, listening, listens, nodes, isArray, _, -, peered, peersLoaded, _, -,
    routed, routesLoaded, out, topicsLoaded, routeTopics⟩ := accepted
  obtain ⟨listensStored, noPeers, noSidebands, noRanges, noRoutes, noTopics⟩ :=
    loadListens_stored listens
  obtain ⟨loaded, related, rfl⟩ := loadPeers_stored noPeers noSidebands noRanges peersLoaded
  obtain ⟨routes, rfl, rules⟩ := loadRoutes_stored (by simpa using noRoutes) routesLoaded
  obtain ⟨⟨⟨topics, rfl⟩, ids, names⟩, topicsRelated⟩ :=
    loadTopics_stored (by simpa using noTopics) topicsLoaded
  obtain ⟨rfl, selectors⟩ := checkRouteTopics_ok routeTopics
  have array : asArray (get root "peers") = some nodes := isArray
  constructor
  · exact ⟨router, isRouter, listensStored.listen, listensStored.uds, listensStored.udp⟩
  · refine ⟨loaded, ?_, rfl, rfl, rfl⟩
    rw [entries, array]
    exact forall₂_entries related
  · exact forall₂_entries rules
  · exact forall₂_entries topicsRelated
  · exact forall₂_tables rules
  · exact forall₂_tables topicsRelated
  · exact ids
  · exact names
  · exact selectors

/-- The sideband entries of all peers, in order. -/
def sidebandEntries (root : TomlTable) : List TomlTable :=
  (entries (get root "peers")).flatMap fun tbl => entries (get tbl "sideband")

theorem Stored.peer_entries {root : TomlTable} {t : LoadedTopology} (stored : Stored root t) :
    List.Forall₂ PeerStored (entries (get root "peers")) t.peers := by
  obtain ⟨loaded, related, peers, -⟩ := stored.peers
  rw [peers, List.forall₂_map_right_iff]
  exact related.imp fun _ _ entry => entry.peer

/-- The width of a peer's range is the number of its sideband entries. -/
theorem Stored.range_entries {root : TomlTable} {t : LoadedTopology} (stored : Stored root t) :
    List.Forall₂ (fun tbl range => AllTables (get tbl "sideband") ∧
        (entries (get tbl "sideband")).length = range.2 - range.1)
      (entries (get root "peers")) t.peerSidebandRanges := by
  obtain ⟨loaded, related, -, -, ranges⟩ := stored.peers
  rw [ranges]
  refine forall₂_rangesFrom (R := fun tbl n => AllTables (get tbl "sideband") ∧
    (entries (get tbl "sideband")).length = n) ?_ 0
  rw [List.forall₂_map_right_iff]
  exact related.imp fun _ _ entry => ⟨entry.tables, entry.regions.length_eq⟩

theorem Stored.sideband_entries {root : TomlTable} {t : LoadedTopology} (stored : Stored root t) :
    List.Forall₂ SidebandStored (sidebandEntries root) t.sidebands := by
  obtain ⟨loaded, related, -, sidebands, -⟩ := stored.peers
  rw [sidebands, sidebandEntries, List.flatMap_def]
  apply List.rel_flatten
  rw [List.forall₂_map_left_iff, List.forall₂_map_right_iff]
  exact related.imp fun _ _ entry => entry.regions

end RoboticsIpc
