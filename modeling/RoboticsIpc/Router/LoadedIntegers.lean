import RoboticsIpc.Router.Stored

/-!
The integers of an accepted profile.

Each number goes from `int64_t` to the width of its field behind a range check, all
but one: a route's source is cast to eight bits as it is, and only the result has to
be a declared peer. `loaded_integers_iff` gives the profiles this changes.
-/

namespace RoboticsIpc

open ByteBuffer Checked Toml

/-- A stored number is the one under its key, where the key holds a number. -/
def KeptExactly (tbl : TomlTable) (key : String) (stored : Int) : Prop :=
  ∀ v, valueInt64 (get tbl key) = some v → stored = v

structure PeerIntegers (tbl : TomlTable) (p : PeerEntry) : Prop where
  id : KeptExactly tbl "id" p.id.toNat
  shmSlotCount : KeptExactly tbl "shm_slot_count" p.shmSlotCount.toNat
  shmMaxPayload : KeptExactly tbl "shm_max_payload" p.shmMaxPayload.toNat

structure SidebandIntegers (tbl : TomlTable) (r : SidebandRegion) : Prop where
  maxPayloadBytes : KeptExactly tbl "max_payload_bytes" r.maxPayloadBytes.toNat
  version : KeptExactly tbl "version" r.version.toNat
  cudaDevice : KeptExactly tbl "cuda_device" r.cudaDevice

structure RouteIntegers (tbl : TomlTable) (rule : RouteRule) : Prop where
  source : KeptExactly tbl "source" rule.source.toNat
  dest : ∀ nodes, asArray (get tbl "dest") = some nodes →
    nodes.map (fun node => valueInt64 (some node)) = rule.dests.map fun d => some (d.toNat : Int)
  topic : KeptExactly tbl "topic" rule.topicId.toNat

structure TopicIntegers (tbl : TomlTable) (topic : TopicEntry) : Prop where
  id : KeptExactly tbl "id" topic.id.toNat
  sidebandIdx : KeptExactly tbl "sideband_idx" topic.sidebandIdx.toNat

/-- Entry by entry, every integer of the profile is the document's. -/
structure LoadedIntegers (root : TomlTable) (t : LoadedTopology) : Prop where
  peers : List.Forall₂ PeerIntegers (entries (get root "peers")) t.peers
  sidebands : List.Forall₂ SidebandIntegers (sidebandEntries root) t.sidebands
  routes : List.Forall₂ RouteIntegers (entries (get root "routes")) t.routes
  topics : List.Forall₂ TopicIntegers (entries (get root "topics")) t.topics

/-- Every route's written source fits in its eight bits. -/
def SourcesFit (root : TomlTable) : Prop :=
  ∀ tbl ∈ entries (get root "routes"), ∀ v, valueInt64 (get tbl "source") = some v →
    0 ≤ v ∧ v ≤ 255

/-! ### What the checks keep -/

section Entries

variable {tbl : TomlTable} {key : String} {stored absent : Int}

theorem keptExactly_of_some (found : valueInt64 (get tbl key) = some stored) :
    KeptExactly tbl key stored := by
  intro v written
  exact Option.some.inj (found.symm.trans written)

theorem keptExactly_of_getD (found : stored = (valueInt64 (get tbl key)).getD absent) :
    KeptExactly tbl key stored := by
  intro v written
  rw [found, written, Option.getD_some]

theorem PeerStored.integers {p : PeerEntry} (entry : PeerStored tbl p) : PeerIntegers tbl p where
  id := keptExactly_of_some entry.id
  shmSlotCount := keptExactly_of_getD entry.slotCount
  shmMaxPayload := keptExactly_of_getD entry.maxPayload

theorem SidebandStored.integers {r : SidebandRegion} (entry : SidebandStored tbl r) :
    SidebandIntegers tbl r where
  maxPayloadBytes := keptExactly_of_some entry.maxPayloadBytes
  version := keptExactly_of_getD entry.version
  cudaDevice := keptExactly_of_getD entry.cudaDevice

theorem TopicStored.integers {topic : TopicEntry} (entry : TopicStored tbl topic) :
    TopicIntegers tbl topic where
  id := keptExactly_of_some entry.id
  sidebandIdx := keptExactly_of_getD entry.sidebandIdx

/-- The cast keeps exactly the numbers of eight bits. -/
theorem toNat_uint8_ofInt_iff {v : Int} : ((UInt8.ofInt v).toNat : Int) = v ↔ 0 ≤ v ∧ v ≤ 255 := by
  constructor
  · intro kept
    have bound := (UInt8.ofInt v).toNat_lt
    omega
  · rintro ⟨low, high⟩
    rw [toNat_uint8_ofInt low (by omega)]
    omega

theorem RouteStored.integers_iff {peers : List PeerEntry} {rule : RouteRule}
    (entry : RouteStored peers tbl rule) :
    RouteIntegers tbl rule ↔
      ∀ v, valueInt64 (get tbl "source") = some v → 0 ≤ v ∧ v ≤ 255 := by
  obtain ⟨source, written, cast⟩ := entry.source
  have kept : KeptExactly tbl "source" rule.source.toNat ↔ 0 ≤ source ∧ source ≤ 255 := by
    rw [← toNat_uint8_ofInt_iff, cast, KeptExactly, written]
    constructor
    · intro exactly
      exact exactly source rfl
    · rintro same v ⟨⟩
      exact same
  have fits : (∀ v, valueInt64 (get tbl "source") = some v → 0 ≤ v ∧ v ≤ 255) ↔
      0 ≤ source ∧ source ≤ 255 := by simp [written]
  rw [fits]
  constructor
  · intro integers
    exact kept.mp integers.source
  · intro inside
    refine ⟨kept.mpr inside, ?_, keptExactly_of_getD entry.topic⟩
    obtain ⟨nodes, isArray, numbers⟩ := entry.dests
    intro nodes' isArray'
    obtain rfl := Option.some.inj (isArray.symm.trans isArray')
    exact numbers

end Entries

/-- The integers an accepted profile holds are those of its document exactly when no
route's source was cut to eight bits. -/
theorem loaded_integers_iff {root : TomlTable} {t : LoadedTopology}
    (accepted : buildFrom root = .ok t) : LoadedIntegers root t ↔ SourcesFit root := by
  have stored := buildFrom_stored accepted
  constructor
  · intro integers tbl mem
    obtain ⟨k, bound, rfl⟩ := List.getElem_of_mem mem
    have same := stored.routes.length_eq
    have entry := stored.routes.get bound (same ▸ bound)
    exact entry.integers_iff.mp (integers.routes.get bound (same ▸ bound))
  · intro fit
    have routes : List.Forall₂ RouteIntegers (entries (get root "routes")) t.routes := by
      have both := (List.forall₂_and_left _ _).mpr ⟨fit, stored.routes⟩
      exact both.imp fun _ _ entry => entry.2.integers_iff.mpr entry.1
    exact ⟨stored.peer_entries.imp fun _ _ entry => entry.integers,
      stored.sideband_entries.imp fun _ _ entry => entry.integers, routes,
      stored.topics.imp fun _ _ entry => entry.integers⟩

/-- Two peers, and a route from the number `source`. -/
def routedFrom (source : Int64) : TomlTable :=
  profile "shm:/router" [peerTable 1 "a" "shm:/a" [], peerTable 2 "b" "shm:/b" []]
    [routeTable source 2]

/-- A route from peer 257 is taken for one from peer 1. -/
theorem cut_source : ∃ t, buildFrom (routedFrom 257) = .ok t ∧
    t.routes.map (·.source) = [1] ∧ ¬ LoadedIntegers (routedFrom 257) t := by
  have shape : ∀ t ∈ (buildFrom (routedFrom 257)).toOption, t.routes.map (·.source) = [1] := by
    decide +kernel
  obtain ⟨t, accepted⟩ : ∃ t, buildFrom (routedFrom 257) = .ok t := ⟨_, rfl⟩
  have sources := shape t (toOption_eq_some.mpr accepted)
  refine ⟨t, accepted, sources, ?_⟩
  intro integers
  obtain ⟨rule, mem, one⟩ : ∃ rule ∈ t.routes, rule.source = 1 := by
    apply List.mem_map.mp
    rw [sources]
    exact List.mem_singleton_self 1
  obtain ⟨tbl, written, route⟩ := exists_input integers.routes mem
  obtain rfl := List.mem_singleton.mp written
  have kept := route.source 257 rfl
  rw [one] at kept
  contradiction

theorem loaded_integers_routedFrom : ∃ t, buildFrom (routedFrom 1) = .ok t ∧
    LoadedIntegers (routedFrom 1) t := by
  obtain ⟨t, accepted⟩ : ∃ t, buildFrom (routedFrom 1) = .ok t := ⟨_, rfl⟩
  refine ⟨t, accepted, (loaded_integers_iff accepted).mpr ?_⟩
  intro tbl mem v written
  obtain rfl := List.mem_singleton.mp mem
  obtain rfl : (1 : Int) = v := Option.some.inj written
  decide

end RoboticsIpc
