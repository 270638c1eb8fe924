import RoboticsIpc.Router.Stored

/-!
The optional keys of a profile.

The loader reads an optional key with `value<T>()` or `as_array()`, which give no
value both for a key that is absent and for one of another type. So a present key of
the wrong type takes its default. `Honoured` says of a loaded profile that no present
key did, and `keys_honoured_iff` that this holds exactly when every present key is readable.
-/

namespace RoboticsIpc

open ByteBuffer Checked Toml

/-! ### Reading a key -/

/-- A key that is absent, or holds what its reader converts. -/
def Readable {α : Type} (read : Option Toml → Option α) (key : Option Toml) : Prop :=
  key = none ∨ (read key).isSome

/-- A key that is absent, or holds a value the profile agrees with. -/
def Honours {α : Type} (read : Option Toml → Option α) (key : Option Toml)
    (agrees : α → Prop) : Prop :=
  key = none ∨ ∃ a, read key = some a ∧ agrees a

/-- Where every value read is honoured, a key is honoured when it is readable. -/
theorem honours_iff {α : Type} {read : Option Toml → Option α} {key : Option Toml}
    {agrees : α → Prop} (honest : ∀ a, read key = some a → agrees a) :
    Honours read key agrees ↔ Readable read key := by
  constructor
  · rintro (absent | ⟨a, found, -⟩)
    · exact .inl absent
    · exact .inr (by rw [found]; rfl)
  · rintro (absent | present)
    · exact .inl absent
    · obtain ⟨a, found⟩ := Option.isSome_iff_exists.mp present
      exact .inr ⟨a, found, honest a found⟩

/-- Where the default stands only for what the key is without a value, or with one that says
so, it is honest exactly when the key is readable. -/
theorem default_iff {α : Type} {read : Option Toml → Option α} {key : Option Toml}
    {isDefault : Prop} {sayingSo : α → Prop} (unread : read key = none → isDefault)
    (honest : ∀ a, read key = some a → isDefault → sayingSo a) :
    (isDefault → key = none ∨ ∃ a, read key = some a ∧ sayingSo a) ↔ Readable read key := by
  constructor
  · intro onlyThen
    cases found : read key with
    | none =>
        rcases onlyThen (unread found) with absent | ⟨a, other, -⟩
        · exact .inl absent
        · cases found.symm.trans other
    | some a => exact .inr (by rw [found]; rfl)
  · rintro (absent | present) holds
    · exact .inl absent
    · obtain ⟨a, found⟩ := Option.isSome_iff_exists.mp present
      exact .inr ⟨a, found, honest a found holds⟩

/-! ### The keys of each section -/

structure ListensReadable (router : TomlTable) : Prop where
  listenUds : Readable valueString (get router "listen_uds")
  listenUdp : Readable valueString (get router "listen_udp")

structure SizingReadable (tbl : TomlTable) : Prop where
  shmSlotCount : Readable valueInt64 (get tbl "shm_slot_count")
  shmMaxPayload : Readable valueInt64 (get tbl "shm_max_payload")

structure SidebandReadable (tbl : TomlTable) : Prop where
  version : Readable valueInt64 (get tbl "version")
  memoryClass : Readable valueString (get tbl "memory_class")
  cudaDevice : Readable valueInt64 (get tbl "cuda_device")

structure TopicReadable (tbl : TomlTable) : Prop where
  payloadClass : Readable valueString (get tbl "payload_class")
  sidebandIdx : Readable valueInt64 (get tbl "sideband_idx")

/-- Every optional key of a document that is present has a value of its type. -/
structure KeysReadable (root : TomlTable) : Prop where
  listens : ∀ router, asTable (get root "router") = some router → ListensReadable router
  sizing : ∀ tbl ∈ entries (get root "peers"), SizingReadable tbl
  sidebandSections : ∀ tbl ∈ entries (get root "peers"), Readable asArray (get tbl "sideband")
  sidebands : ∀ tbl ∈ sidebandEntries root, SidebandReadable tbl
  routeSection : Readable asArray (get root "routes")
  routes : ∀ tbl ∈ entries (get root "routes"), Readable valueInt64 (get tbl "topic")
  topicSection : Readable asArray (get root "topics")
  topics : ∀ tbl ∈ entries (get root "topics"), TopicReadable tbl

/-! ### Honouring them -/

structure ListensHonoured (router : TomlTable) (t : LoadedTopology) : Prop where
  listenUds : Honours valueString (get router "listen_uds") fun spec =>
    ∃ path, parseAddress spec = .ok (.uds path) ∧ t.listenUds = some path
  listenUdp : Honours valueString (get router "listen_udp") fun spec =>
    ∃ endpoint, parseAddress spec = .ok (.udp endpoint) ∧ t.listenUdp = some endpoint

/-- A ring has default sizing only if its sizing keys are absent or 0. -/
structure SizingHonoured (tbl : TomlTable) (p : PeerEntry) : Prop where
  shmSlotCount : p.shmSlotCount = 0 → get tbl "shm_slot_count" = none ∨
    ∃ v, valueInt64 (get tbl "shm_slot_count") = some v ∧ v = 0
  shmMaxPayload : p.shmMaxPayload = 0 → get tbl "shm_max_payload" = none ∨
    ∃ v, valueInt64 (get tbl "shm_max_payload") = some v ∧ v = 0

/-- A region is CPU memory, or without a device, only if its keys are absent or say so. -/
structure SidebandHonoured (tbl : TomlTable) (r : SidebandRegion) : Prop where
  version : Honours valueInt64 (get tbl "version") fun v => (r.version.toNat : Int) = v
  memoryClass : r.memoryClass = .shm → get tbl "memory_class" = none ∨
    ∃ text, valueString (get tbl "memory_class") = some text ∧
      parseSidebandMemoryClass (cStr text) = some .shm
  cudaDevice : r.cudaDevice = kSidebandCudaDeviceUnset → get tbl "cuda_device" = none

/-- A peer's range covers a region for each element of its section. -/
def SectionHonoured (tbl : TomlTable) (range : Nat × Nat) : Prop :=
  Honours asArray (get tbl "sideband") fun nodes => range.2 - range.1 = nodes.length

/-- A rule matches any topic exactly when its entry has no topic key. -/
def TopicKeyHonoured (tbl : TomlTable) (rule : RouteRule) : Prop :=
  rule.topicId = kRouteTopicAny ↔ get tbl "topic" = none

structure TopicHonoured (tbl : TomlTable) (topic : TopicEntry) : Prop where
  payloadClass : Honours valueString (get tbl "payload_class") fun text =>
    topic.payloadClass = some (cStr text)
  sidebandIdx : Honours valueInt64 (get tbl "sideband_idx") fun v =>
    (topic.sidebandIdx.toNat : Int) = v

/-- No present key of the document was ignored. -/
structure Honoured (root : TomlTable) (t : LoadedTopology) : Prop where
  listens : ∀ router, asTable (get root "router") = some router → ListensHonoured router t
  sizing : List.Forall₂ SizingHonoured (entries (get root "peers")) t.peers
  sidebandSections : List.Forall₂ SectionHonoured (entries (get root "peers"))
    t.peerSidebandRanges
  sidebands : List.Forall₂ SidebandHonoured (sidebandEntries root) t.sidebands
  routeSection : Honours asArray (get root "routes") fun nodes => t.routes.length = nodes.length
  routes : List.Forall₂ TopicKeyHonoured (entries (get root "routes")) t.routes
  topicSection : Honours asArray (get root "topics") fun nodes => t.topics.length = nodes.length
  topics : List.Forall₂ TopicHonoured (entries (get root "topics")) t.topics

/-! ### Section by section -/

variable {tbl router root : TomlTable} {t : LoadedTopology}

theorem ListensStored.honoured_iff (stored : ListensStored router t) :
    ListensHonoured router t ↔ ListensReadable router := by
  have uds := stored.uds
  have udp := stored.udp
  have first : Honours valueString (get router "listen_uds") (fun spec =>
      ∃ path, parseAddress spec = .ok (.uds path) ∧ t.listenUds = some path) ↔
        Readable valueString (get router "listen_uds") := by
    apply honours_iff
    intro spec found
    rw [found] at uds
    exact uds
  have second : Honours valueString (get router "listen_udp") (fun spec =>
      ∃ endpoint, parseAddress spec = .ok (.udp endpoint) ∧ t.listenUdp = some endpoint) ↔
        Readable valueString (get router "listen_udp") := by
    apply honours_iff
    intro spec found
    rw [found] at udp
    exact udp
  exact ⟨fun honoured => ⟨first.mp honoured.1, second.mp honoured.2⟩,
    fun readable => ⟨first.mpr readable.1, second.mpr readable.2⟩⟩

/-- A stored size of 0 is the key's default, or what the key holds. -/
theorem size_iff {key : String} {size : UInt32}
    (kept : (size.toNat : Int) = (valueInt64 (get tbl key)).getD 0) :
    (size = 0 → get tbl key = none ∨ ∃ v, valueInt64 (get tbl key) = some v ∧ v = 0) ↔
      Readable valueInt64 (get tbl key) := by
  apply default_iff
  · intro unread
    rw [unread, Option.getD_none] at kept
    exact UInt32.toNat_inj.mp (by exact_mod_cast kept)
  · rintro v found rfl
    rw [found, Option.getD_some] at kept
    exact kept.symm

theorem PeerStored.honoured_iff {p : PeerEntry} (stored : PeerStored tbl p) :
    SizingHonoured tbl p ↔ SizingReadable tbl := by
  have slots := size_iff stored.slotCount
  have payload := size_iff stored.maxPayload
  exact ⟨fun honoured => ⟨slots.mp honoured.1, payload.mp honoured.2⟩,
    fun readable => ⟨slots.mpr readable.1, payload.mpr readable.2⟩⟩

theorem SidebandStored.memoryClass_iff {r : SidebandRegion} (stored : SidebandStored tbl r) :
    (r.memoryClass = .shm → get tbl "memory_class" = none ∨
        ∃ text, valueString (get tbl "memory_class") = some text ∧
          parseSidebandMemoryClass (cStr text) = some .shm) ↔
      Readable valueString (get tbl "memory_class") := by
  have classed := stored.memoryClass
  apply default_iff
  · intro unread
    rw [unread] at classed
    exact (Option.some.inj classed).symm
  · intro text found cpu
    rw [found, cpu] at classed
    exact classed

theorem SidebandStored.cudaDevice_iff {r : SidebandRegion} (stored : SidebandStored tbl r) :
    (r.cudaDevice = kSidebandCudaDeviceUnset → get tbl "cuda_device" = none) ↔
      Readable valueInt64 (get tbl "cuda_device") := by
  have device := stored.cudaDevice
  constructor
  · intro onlyThen
    cases found : valueInt64 (get tbl "cuda_device") with
    | none =>
        rw [found] at device
        exact .inl (onlyThen device)
    | some v => exact .inr (by rw [found]; rfl)
  · rintro (absent | present) unset
    · exact absent
    -- A device that is given is a number from 0, and so is not the unset one.
    · obtain ⟨-, low, -⟩ := stored.cudaDevice_range present
      rw [unset] at low
      exact absurd low (by decide)

theorem SidebandStored.honoured_iff {r : SidebandRegion} (stored : SidebandStored tbl r) :
    SidebandHonoured tbl r ↔ SidebandReadable tbl := by
  have version : Honours valueInt64 (get tbl "version") (fun v => (r.version.toNat : Int) = v) ↔
      Readable valueInt64 (get tbl "version") := by
    apply honours_iff
    intro v found
    rw [stored.version, found, Option.getD_some]
  have classes := stored.memoryClass_iff
  have devices := stored.cudaDevice_iff
  exact ⟨fun h => ⟨version.mp h.1, classes.mp h.2, devices.mp h.3⟩,
    fun h => ⟨version.mpr h.1, classes.mpr h.2, devices.mpr h.3⟩⟩

theorem RouteStored.honoured_iff {peers : List PeerEntry} {rule : RouteRule}
    (stored : RouteStored peers tbl rule) :
    TopicKeyHonoured tbl rule ↔ Readable valueInt64 (get tbl "topic") := by
  have topic := stored.topic
  constructor
  · rintro ⟨onlyThen, -⟩
    cases found : valueInt64 (get tbl "topic") with
    | none =>
        rw [found, Option.getD_none] at topic
        exact .inl (onlyThen (UInt16.toNat_inj.mp (by exact_mod_cast topic)))
    | some v => exact .inr (by rw [found]; rfl)
  · rintro (absent | present)
    · refine ⟨fun _ => absent, fun _ => ?_⟩
      rw [absent] at topic
      have top : (rule.topicId.toNat : Int) = 0xFFFF := topic
      exact UInt16.toNat_inj.mp (by exact_mod_cast top)
    · refine ⟨fun any => absurd any (stored.selector present), ?_⟩
      intro absent
      rw [absent] at present
      cases present

theorem TopicStored.honoured_iff {topic : TopicEntry} (stored : TopicStored tbl topic) :
    TopicHonoured tbl topic ↔ TopicReadable tbl := by
  have payloadClass : Honours valueString (get tbl "payload_class") (fun text =>
      topic.payloadClass = some (cStr text)) ↔ Readable valueString (get tbl "payload_class") := by
    apply honours_iff
    intro text found
    rw [stored.payloadClass, found, Option.map_some]
  have sidebandIdx : Honours valueInt64 (get tbl "sideband_idx") (fun v =>
      (topic.sidebandIdx.toNat : Int) = v) ↔ Readable valueInt64 (get tbl "sideband_idx") := by
    apply honours_iff
    intro v found
    rw [stored.sidebandIdx, found, Option.getD_some]
  exact ⟨fun h => ⟨payloadClass.mp h.1, sidebandIdx.mp h.2⟩,
    fun h => ⟨payloadClass.mpr h.1, sidebandIdx.mpr h.2⟩⟩

/-- A section of as many records as tables is honoured when it is an array. -/
theorem section_iff {key : Option Toml} {count : Nat} (tables : AllTables key)
    (stored : (entries key).length = count) :
    Honours asArray key (fun nodes => count = nodes.length) ↔ Readable asArray key := by
  apply honours_iff
  intro nodes found
  have length := length_entries tables
  rw [found, Option.getD_some] at length
  exact stored.symm.trans length

/-- Related lists are honoured entry by entry when all entries are readable. -/
theorem forall₂_honoured_iff {γ : Type} {R S : TomlTable → γ → Prop} {Q : TomlTable → Prop}
    {tables : List TomlTable} {records : List γ} (stored : List.Forall₂ R tables records)
    (each : ∀ tbl b, R tbl b → (S tbl b ↔ Q tbl)) :
    List.Forall₂ S tables records ↔ ∀ tbl ∈ tables, Q tbl := by
  induction stored with
  | nil => simp
  | cons head _ ih => simp [each _ _ head, ih]

/-- In an accepted profile no present key was ignored exactly when each optional key
that is present has a value of its type. -/
theorem keys_honoured_iff (accepted : buildFrom root = .ok t) : Honoured root t ↔ KeysReadable root := by
  have stored := buildFrom_stored accepted
  have listens : (∀ router, asTable (get root "router") = some router → ListensHonoured router t) ↔
      ∀ router, asTable (get root "router") = some router → ListensReadable router := by
    obtain ⟨router, isRouter, listening⟩ := stored.router
    simp only [isRouter, Option.some.injEq, forall_eq']
    exact listening.honoured_iff
  have sizing := forall₂_honoured_iff stored.peer_entries fun _ _ peer => peer.honoured_iff
  have sections := forall₂_honoured_iff (S := SectionHonoured)
    (Q := fun tbl => Readable asArray (get tbl "sideband")) stored.range_entries
    fun _ _ range => section_iff range.1 range.2
  have sidebands := forall₂_honoured_iff stored.sideband_entries fun _ _ r => r.honoured_iff
  have routeSection := section_iff stored.routeTables stored.routes.length_eq
  have routes := forall₂_honoured_iff stored.routes fun _ _ rule => rule.honoured_iff
  have topicSection := section_iff stored.topicTables stored.topics.length_eq
  have topics := forall₂_honoured_iff stored.topics fun _ _ topic => topic.honoured_iff
  constructor
  · intro h
    exact ⟨listens.mp h.listens, sizing.mp h.sizing, sections.mp h.sidebandSections,
      sidebands.mp h.sidebands, routeSection.mp h.routeSection, routes.mp h.routes,
      topicSection.mp h.topicSection, topics.mp h.topics⟩
  · intro h
    exact ⟨listens.mpr h.listens, sizing.mpr h.sizing, sections.mpr h.sidebandSections,
      sidebands.mpr h.sidebands, routeSection.mpr h.routeSection, routes.mpr h.routes,
      topicSection.mpr h.topicSection, topics.mpr h.topics⟩

/-! ### Ignored keys -/

/-- A route with the key `topic`, and a sideband with the key `memory_class`. -/
def keyedProfile (topic memoryClass : Toml) : TomlTable :=
  profile "shm:/router"
    [peerTable 1 "camera" "shm:/camera" [(ascii "sideband", .array [.table
      [(ascii "name", .string (ascii "/frames")), (ascii "max_payload_bytes", .integer 4096),
        (ascii "memory_class", memoryClass)]])],
      peerTable 2 "logger" "shm:/logger" []]
    [.table [(ascii "source", .integer 1), (ascii "dest", .array [.integer 2]),
      (ascii "topic", topic)]] ++
    [(ascii "topics", .array [.table [(ascii "id", .integer 100),
      (ascii "name", .string (ascii "pose"))]])]

/-- A topic in quotes widens its route to every topic, and a memory class in an array
falls back to CPU memory. -/
theorem mistyped_keys_ignored :
    ∃ t, buildFrom (keyedProfile (.string (ascii "100"))
        (.array [.string (ascii "cuda_managed")])) = .ok t ∧
      t.routes.map (·.topicId) = [kRouteTopicAny] ∧ t.sidebands.map (·.memoryClass) = [.shm] ∧
      ¬ Honoured (keyedProfile (.string (ascii "100"))
        (.array [.string (ascii "cuda_managed")])) t := by
  have shape : ∀ t ∈ (buildFrom (keyedProfile (.string (ascii "100"))
      (.array [.string (ascii "cuda_managed")]))).toOption,
      t.routes.map (·.topicId) = [kRouteTopicAny] ∧ t.sidebands.map (·.memoryClass) = [.shm] := by
    decide +kernel
  obtain ⟨t, accepted⟩ : ∃ t, buildFrom (keyedProfile (.string (ascii "100"))
    (.array [.string (ascii "cuda_managed")])) = .ok t := ⟨_, rfl⟩
  obtain ⟨widened, fallback⟩ := shape t (toOption_eq_some.mpr accepted)
  refine ⟨t, accepted, widened, fallback, ?_⟩
  intro honoured
  obtain ⟨rule, mem, any⟩ : ∃ rule ∈ t.routes, rule.topicId = kRouteTopicAny := by
    apply List.mem_map.mp
    rw [widened]
    exact List.mem_singleton_self kRouteTopicAny
  obtain ⟨tbl, written, keyed⟩ := exists_input honoured.routes mem
  obtain rfl := List.mem_singleton.mp written
  have absent := keyed.mp any
  cases absent

theorem typed_keys_honoured :
    ∃ t, buildFrom (keyedProfile (.integer 100) (.string (ascii "cuda_managed"))) = .ok t ∧
      Honoured (keyedProfile (.integer 100) (.string (ascii "cuda_managed"))) t := by
  obtain ⟨t, accepted⟩ : ∃ t, buildFrom (keyedProfile (.integer 100)
    (.string (ascii "cuda_managed"))) = .ok t := ⟨_, rfl⟩
  refine ⟨t, accepted, (keys_honoured_iff accepted).mpr ?_⟩
  have inTwo : ∀ {P : TomlTable → Prop} {a b tbl : TomlTable}, P a → P b → tbl ∈ [a, b] → P tbl := by
    intro P a b tbl first second mem
    simp only [List.mem_cons, List.not_mem_nil, or_false] at mem
    rcases mem with rfl | rfl
    · exact first
    · exact second
  constructor
  · rintro router ⟨⟩
    exact ⟨.inl rfl, .inl rfl⟩
  · exact fun tbl mem => inTwo ⟨.inl rfl, .inl rfl⟩ ⟨.inl rfl, .inl rfl⟩ mem
  · exact fun tbl mem => inTwo (P := fun tbl => Readable asArray (get tbl "sideband")) (.inr rfl)
      (.inl rfl) mem
  · intro tbl mem
    obtain rfl := List.mem_singleton.mp mem
    exact ⟨.inl rfl, .inr rfl, .inl rfl⟩
  · exact .inr rfl
  · intro tbl mem
    obtain rfl := List.mem_singleton.mp mem
    exact .inr rfl
  · exact .inr rfl
  · intro tbl mem
    obtain rfl := List.mem_singleton.mp mem
    exact ⟨.inl rfl, .inl rfl⟩

end RoboticsIpc
