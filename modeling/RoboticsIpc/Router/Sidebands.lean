import Mathlib.Data.List.Nodup
import RoboticsIpc.Router.OptionalKeys

/-!
The sideband regions of a profile, looked up by peer (`LoadedTopology::sidebands_for`).

The regions of all peers lie in one array; a third array, parallel to that of the
peers, has the range of each. `regionsFor_loaded` says that a lookup finds a peer's own
regions, and `ranges_partition` that the ranges share the array out.

What is read of an entry is not always what the entry says: a text is cut at its first NUL
byte, and a key of the wrong type counts as absent (`sidebands_declared_iff`).
-/

namespace RoboticsIpc

open ByteBuffer Checked Toml

/-! ### The lookup -/

/-- `sidebands_for`: where the regions of a peer start in the array, unless the result is
`nullptr`, and how many they are. -/
def LoadedTopology.sidebandsFor (t : LoadedTopology) (peerId : UInt8) : Option Nat × Nat :=
  match t.peers.findIdx? fun e => e.id == peerId with
  | none => (none, 0)
  | some idx =>
      match t.peerSidebandRanges[idx]? with
      | none => (none, 0)
      | some range =>
          let outCount := range.2 - range.1
          (if outCount = 0 then none else some range.1, outCount)

/-- The regions a result of `sidebands_for` points at. -/
def LoadedTopology.regionsFor (t : LoadedTopology) (peerId : UInt8) : List SidebandRegion :=
  match t.sidebandsFor peerId with
  | (none, _) => []
  | (some start, outCount) => slice start outCount t.sidebands

/-- What a frame's `sideband_idx` stands for, given its source. -/
def LoadedTopology.resolveSideband (t : LoadedTopology) (source : UInt8) (idx : UInt16) :
    Option SidebandRegion :=
  match t.sidebandsFor source with
  | (none, _) => none
  | (some start, outCount) =>
      if idx.toNat < outCount then t.sidebands[start + idx.toNat]? else none

theorem resolveSideband_eq (t : LoadedTopology) (source : UInt8) (idx : UInt16) :
    t.resolveSideband source idx = (t.regionsFor source)[idx.toNat]? := by
  rw [LoadedTopology.resolveSideband, LoadedTopology.regionsFor]
  rcases t.sidebandsFor source with ⟨pointer, outCount⟩
  cases pointer with
  | none => rfl
  | some start => exact (getElem?_slice t.sidebands idx.toNat).symm

/-! ### Ranges -/

theorem getElem?_rangesFrom (start : Nat) (ns : List Nat) (i : Nat) :
    (rangesFrom start ns)[i]? =
      ns[i]?.map fun n => (start + (ns.take i).sum, start + (ns.take i).sum + n) := by
  induction ns generalizing start i with
  | nil => rfl
  | cons n ns ih =>
      cases i with
      | zero => rfl
      | succ i =>
          simp only [rangesFrom, List.getElem?_cons_succ, ih, List.take_succ_cons, List.sum_cons,
            Nat.add_assoc]

theorem rangesFrom_inside {start : Nat} {ns : List Nat} :
    ∀ range ∈ rangesFrom start ns, range.1 ≤ range.2 ∧ range.2 ≤ start + ns.sum := by
  induction ns generalizing start with
  | nil => nofun
  | cons n ns ih =>
      intro range mem
      rw [List.sum_cons]
      rcases List.mem_cons.mp mem with rfl | later
      · simp only
        omega
      · have := ih range later
        omega

/-- A position of the array is in one range, and in one only. -/
theorem rangesFrom_partition {start : Nat} {ns : List Nat} {j : Nat} (after : start ≤ j)
    (before : j < start + ns.sum) :
    ∃! i : Nat, ∃ range : Nat × Nat,
      (rangesFrom start ns)[i]? = some range ∧ range.1 ≤ j ∧ j < range.2 := by
  induction ns generalizing start with
  | nil => exact absurd before (Nat.not_lt.mpr after)
  | cons n ns ih =>
      rw [List.sum_cons] at before
      by_cases first : j < start + n
      · refine ⟨0, ⟨_, rfl, after, first⟩, ?_⟩
        rintro i ⟨range, found, low, -⟩
        cases i with
        | zero => rfl
        | succ i =>
            simp only [rangesFrom, List.getElem?_cons_succ, getElem?_rangesFrom,
              Option.map_eq_some_iff] at found
            obtain ⟨m, -, rfl⟩ := found
            omega
      · obtain ⟨i, holds, unique⟩ := ih (Nat.not_lt.mp first) (by omega)
        refine ⟨i + 1, holds, ?_⟩
        rintro k ⟨range, found, low, high⟩
        cases k with
        | zero =>
            obtain rfl := Option.some.inj found
            exact absurd high first
        | succ k => exact congrArg Nat.succ (unique k ⟨range, found, low, high⟩)

/-- A group is found in the concatenation behind the groups before it. -/
theorem slice_flatten {α : Type*} {groups : List (List α)} {i : Nat} {group : List α}
    (found : groups[i]? = some group) :
    slice ((groups.map List.length).take i).sum group.length groups.flatten = group := by
  induction groups generalizing i with
  | nil => cases found
  | cons g groups ih =>
      cases i with
      | zero =>
          obtain rfl := Option.some.inj found
          simp [slice]
      | succ i =>
          have later := ih found
          simp only [slice] at later
          rw [slice, List.map_cons, List.take_succ_cons, List.sum_cons, List.flatten_cons,
            ← List.drop_drop, List.drop_left, later]

/-! ### The regions of a peer -/

/-- The `i`-th peer, with its regions at `start`. -/
structure LoadedAt (t : LoadedTopology) (i : Nat) (b : LoadedPeer) (start : Nat) : Prop where
  peer : t.peers[i]? = some b.1
  range : t.peerSidebandRanges[i]? = some (start, start + b.2.length)
  regions : slice start b.2.length t.sidebands = b.2

theorem loadedAt {t : LoadedTopology} {loaded : List LoadedPeer}
    (peers : t.peers = loaded.map Prod.fst)
    (sidebands : t.sidebands = (loaded.map Prod.snd).flatten)
    (ranges : t.peerSidebandRanges = rangesFrom 0 (loaded.map fun b => b.2.length))
    {i : Nat} {b : LoadedPeer} (found : loaded[i]? = some b) : ∃ start, LoadedAt t i b start := by
  have regions : (loaded.map Prod.snd)[i]? = some b.2 := by
    rw [List.getElem?_map, found, Option.map_some]
  have cut := slice_flatten regions
  rw [List.map_map, ← sidebands] at cut
  refine ⟨_, ?_, ?_, cut⟩
  · rw [peers, List.getElem?_map, found, Option.map_some]
  · rw [ranges, getElem?_rangesFrom, List.getElem?_map, found, Nat.zero_add]
    rfl

/-- Where ids are distinct, a lookup by a peer's id finds the peer's range. -/
theorem LoadedAt.found {t : LoadedTopology} {i start : Nat} {b : LoadedPeer}
    (ids : (t.peers.map (·.id)).Nodup) (placed : LoadedAt t i b start) :
    t.sidebandsFor b.1.id = (if b.2.length = 0 then none else some start, b.2.length) := by
  have index : t.peers.findIdx? (fun e => e.id == b.1.id) = some i := by
    obtain ⟨bound, here⟩ := List.getElem?_eq_some_iff.mp placed.peer
    refine List.findIdx?_eq_some_iff_getElem.mpr ⟨bound, by simp [here], ?_⟩
    intro j earlier same
    have before : j < t.peers.length := Nat.lt_trans earlier bound
    have different := List.nodup_iff_getElem?_ne_getElem?.mp ids j i earlier (by simpa using bound)
    apply different
    rw [List.getElem?_map, List.getElem?_map, placed.peer, List.getElem?_eq_getElem before,
      Option.map_some, Option.map_some, eq_of_beq same]
  rw [LoadedTopology.sidebandsFor, index]
  simp only [placed.range, Nat.add_sub_cancel_left]

theorem LoadedAt.regionsFor {t : LoadedTopology} {i start : Nat} {b : LoadedPeer}
    (ids : (t.peers.map (·.id)).Nodup) (placed : LoadedAt t i b start) :
    t.regionsFor b.1.id = b.2 := by
  rw [LoadedTopology.regionsFor, placed.found ids]
  by_cases none : b.2.length = 0
  · rw [if_pos none, List.eq_nil_of_length_eq_zero none]
  · rw [if_neg none]
    exact placed.regions

/-! ### What an entry says -/

/-- The value that a key gives: its own, or the default if it is absent. -/
def Gives {α : Type} (read : Option Toml → Option α) (key : Option Toml) (default a : α) : Prop :=
  (key = none ∧ a = default) ∨ read key = some a

/-- A region is the one its entry declares. -/
structure DeclaredRegion (tbl : TomlTable) (r : SidebandRegion) : Prop where
  name : valueString (get tbl "name") = some r.name.bytes
  maxPayloadBytes : valueInt64 (get tbl "max_payload_bytes") = some (r.maxPayloadBytes.toNat : Int)
  version : Gives valueInt64 (get tbl "version") 1 (r.version.toNat : Int)
  memoryClass : Gives valueString (get tbl "memory_class") (ascii "shm")
    (sidebandMemoryClassName r.memoryClass)
  cudaDevice : Gives valueInt64 (get tbl "cuda_device") kSidebandCudaDeviceUnset r.cudaDevice

/-- No text of the entry has a NUL byte, and its optional keys have the right types. -/
structure PlainRegion (tbl : TomlTable) : Prop where
  name : ∀ text, valueString (get tbl "name") = some text → (0 : UInt8) ∉ text
  className : ∀ text, valueString (get tbl "memory_class") = some text → (0 : UInt8) ∉ text
  readable : SidebandReadable tbl

/-- A value that is read, or else the default, is what the key gives unless the key is
present but not readable. -/
theorem gives_iff {α : Type} (read : Option Toml → Option α) {key : Option Toml} {default a : α}
    (stored : a = (read key).getD default) : Gives read key default a ↔ Readable read key := by
  cases found : read key with
  | none =>
      rw [found] at stored
      constructor
      · rintro (⟨absent, -⟩ | given)
        · exact .inl absent
        · cases found.symm.trans given
      · rintro (absent | some)
        · exact .inl ⟨absent, stored⟩
        · rw [found] at some
          cases some
  | some v =>
      rw [found] at stored
      constructor
      · intro _
        exact .inr (by rw [found]; rfl)
      · intro _
        right
        rw [found, stored]
        rfl

theorem parseSidebandMemoryClass_eq_some {s : CStr} {mc : SidebandMemoryClass}
    (parsed : parseSidebandMemoryClass s = some mc) : s.bytes = sidebandMemoryClassName mc := by
  unfold parseSidebandMemoryClass at parsed
  split at parsed
  · cases parsed
    assumption
  · split at parsed
    · cases parsed
      assumption
    · split at parsed
      · cases parsed
        assumption
      · split at parsed
        · cases parsed
          assumption
        · cases parsed

variable {tbl : TomlTable} {r : SidebandRegion}

theorem SidebandStored.name_iff (stored : SidebandStored tbl r) :
    valueString (get tbl "name") = some r.name.bytes ↔
      ∀ text, valueString (get tbl "name") = some text → (0 : UInt8) ∉ text := by
  obtain ⟨text, named, cut⟩ := stored.name
  rw [named, cut]
  constructor
  · rintro whole _ ⟨⟩
    exact (cStr_bytes_iff text).mp (Option.some.inj whole).symm
  · intro noNul
    rw [cStr_of_noNul (noNul text rfl)]

theorem SidebandStored.className_iff (stored : SidebandStored tbl r) :
    Gives valueString (get tbl "memory_class") (ascii "shm")
        (sidebandMemoryClassName r.memoryClass) ↔
      Readable valueString (get tbl "memory_class") ∧
        ∀ text, valueString (get tbl "memory_class") = some text → (0 : UInt8) ∉ text := by
  have classed := stored.memoryClass
  cases found : valueString (get tbl "memory_class") with
  | none =>
      rw [found] at classed
      have cpu : r.memoryClass = .shm := (Option.some.inj classed).symm
      have default : sidebandMemoryClassName r.memoryClass =
          (valueString (get tbl "memory_class")).getD (ascii "shm") := by
        rw [found, cpu]
        rfl
      rw [gives_iff _ default]
      constructor
      · intro readable
        exact ⟨readable, nofun⟩
      · exact And.left
  | some text =>
      rw [found] at classed
      have named : (cStr text).bytes = sidebandMemoryClassName r.memoryClass :=
        parseSidebandMemoryClass_eq_some classed
      have readable : Readable valueString (get tbl "memory_class") := .inr (by rw [found]; rfl)
      constructor
      · rintro (⟨absent, -⟩ | given)
        · rw [absent] at found
          cases found
        · refine ⟨readable, ?_⟩
          rintro _ ⟨⟩
          apply (cStr_bytes_iff text).mp
          rw [named]
          exact (Option.some.inj (found.symm.trans given)).symm
      · rintro ⟨-, noNul⟩
        right
        rw [found, ← named, cStr_of_noNul (noNul text rfl)]

theorem SidebandStored.declared_iff (stored : SidebandStored tbl r) :
    DeclaredRegion tbl r ↔ PlainRegion tbl := by
  have name := stored.name_iff
  have className := stored.className_iff
  have version := gives_iff valueInt64 stored.version
  have cudaDevice := gives_iff valueInt64 stored.cudaDevice
  constructor
  · intro declared
    obtain ⟨readable, noNul⟩ := className.mp declared.memoryClass
    exact ⟨name.mp declared.name, noNul, version.mp declared.version, readable,
      cudaDevice.mp declared.cudaDevice⟩
  · rintro ⟨named, noNul, readVersion, readClass, readDevice⟩
    exact ⟨name.mpr named, stored.maxPayloadBytes, version.mpr readVersion,
      className.mpr ⟨readClass, noNul⟩, cudaDevice.mpr readDevice⟩

/-! ### Descriptors stay with their peer -/

/-- The regions of a peer are those declared under it, in order: each element of its section,
and nothing else. -/
structure SidebandsDeclared (t : LoadedTopology) (tbl : TomlTable) (id : UInt8) : Prop where
  section_whole : Honours asArray (get tbl "sideband") fun nodes =>
    (t.sidebandsFor id).2 = nodes.length
  regions : List.Forall₂ DeclaredRegion (entries (get tbl "sideband")) (t.regionsFor id)
  resolved : ∀ idx sideband, (entries (get tbl "sideband"))[UInt16.toNat idx]? = some sideband →
    ∃ r, t.resolveSideband id idx = some r ∧ DeclaredRegion sideband r

/-- A section that is absent or an array, of entries without surprises. -/
def PlainSection (tbl : TomlTable) : Prop :=
  Readable asArray (get tbl "sideband") ∧
    ∀ sideband ∈ entries (get tbl "sideband"), PlainRegion sideband

/-- The array of regions is shared out among the peers, and each peer is found its share. -/
structure RegionsShared (t : LoadedTopology) : Prop where
  partition : ∀ j < t.sidebands.length, ∃! i : Nat, ∃ range : Nat × Nat,
    t.peerSidebandRanges[i]? = some range ∧ range.1 ≤ j ∧ j < range.2
  own : ∀ (i : Nat) (p : PeerEntry), t.peers[i]? = some p → ∃ range : Nat × Nat,
    t.peerSidebandRanges[i]? = some range ∧ range.1 ≤ range.2 ∧ range.2 ≤ t.sidebands.length ∧
    t.sidebandsFor p.id =
      (if range.2 - range.1 = 0 then none else some range.1, range.2 - range.1)
  unknown : ∀ id, ¬ peerExists t.peers id → t.sidebandsFor id = (none, 0)

theorem regions_shared {root : TomlTable} {t : LoadedTopology} (accepted : buildFrom root = .ok t) :
    RegionsShared t := by
  obtain ⟨loaded, -, peers, sidebands, ranges⟩ := (buildFrom_stored accepted).peers
  have ids := (buildFrom_wellFormed accepted).ids
  have total : t.sidebands.length = (loaded.map fun b => b.2.length).sum := by
    rw [sidebands, List.length_flatten, List.map_map]
    rfl
  constructor
  · intro j inside
    rw [ranges]
    exact rangesFrom_partition (Nat.zero_le j) (by rwa [Nat.zero_add, ← total])
  · intro i p found
    rw [peers, List.getElem?_map] at found
    obtain ⟨b, here, rfl⟩ := Option.map_eq_some_iff.mp found
    obtain ⟨start, placed⟩ := loadedAt peers sidebands ranges here
    have inside := rangesFrom_inside _ (ranges ▸ List.mem_of_getElem? placed.range)
    rw [Nat.zero_add, ← total] at inside
    refine ⟨_, placed.range, inside.1, inside.2, ?_⟩
    rw [placed.found ids, Nat.add_sub_cancel_left]
  · intro id absent
    have none : t.peers.findIdx? (fun e => e.id == id) = none := by
      rw [List.findIdx?_eq_none_iff]
      intro e mem
      have other : e.id ≠ id := fun same => absent ⟨e, mem, same⟩
      simpa using other
    rw [LoadedTopology.sidebandsFor, none]

/-- A peer's regions are the declared ones exactly when its section is plain. -/
theorem PeerLoaded.declared_iff {t : LoadedTopology} {tbl : TomlTable} {b : LoadedPeer}
    (stored : PeerLoaded tbl b) (regions : t.regionsFor b.1.id = b.2)
    (count : (t.sidebandsFor b.1.id).2 = b.2.length) :
    SidebandsDeclared t tbl b.1.id ↔ PlainSection tbl := by
  have whole := section_iff stored.tables (stored.regions.length_eq.trans count.symm)
  have each := forall₂_honoured_iff stored.regions fun _ _ region => region.declared_iff
  constructor
  · intro declared
    have same := declared.regions
    rw [regions] at same
    exact ⟨whole.mp declared.section_whole, each.mp same⟩
  · rintro ⟨readable, plain⟩
    have same := each.mpr plain
    refine ⟨whole.mpr readable, by rwa [regions], ?_⟩
    intro idx sideband found
    rw [resolveSideband_eq, regions]
    obtain ⟨bound, rfl⟩ := List.getElem?_eq_some_iff.mp found
    have bound' : idx.toNat < b.2.length := by rwa [← same.length_eq]
    refine ⟨b.2[idx.toNat], List.getElem?_eq_getElem bound', ?_⟩
    exact same.get bound bound'

theorem declared_sections_iff {root : TomlTable} {t : LoadedTopology}
    (accepted : buildFrom root = .ok t) :
    List.Forall₂ (fun tbl p => SidebandsDeclared t tbl p.id) (entries (get root "peers")) t.peers ↔
      ∀ tbl ∈ entries (get root "peers"), PlainSection tbl := by
  have ids := (buildFrom_wellFormed accepted).ids
  obtain ⟨loaded, related, peers, sidebands, ranges⟩ := (buildFrom_stored accepted).peers
  have known : List.Forall₂ (fun tbl b => b ∈ loaded ∧ PeerLoaded tbl b)
      (entries (get root "peers")) loaded := by
    apply List.Forall₂.flip
    exact (List.forall₂_and_left _ _).mpr ⟨fun _ mem => mem, related.flip⟩
  rw [peers, List.forall₂_map_right_iff]
  apply forall₂_honoured_iff known
  rintro tbl b ⟨mem, stored⟩
  obtain ⟨i, here⟩ := List.mem_iff_getElem?.mp mem
  obtain ⟨start, placed⟩ := loadedAt peers sidebands ranges here
  exact stored.declared_iff (placed.regionsFor ids) (by rw [placed.found ids])

/-- In every accepted profile descriptors stay with their peer. They are the declared ones
exactly when no text of a sideband has a NUL byte and all its keys have the right type. -/
theorem sidebands_declared_iff {root : TomlTable} {t : LoadedTopology}
    (accepted : buildFrom root = .ok t) :
    RegionsShared t ∧
      (List.Forall₂ (fun tbl p => SidebandsDeclared t tbl p.id) (entries (get root "peers"))
          t.peers ↔
        ∀ tbl ∈ entries (get root "peers"), PlainSection tbl) :=
  ⟨regions_shared accepted, declared_sections_iff accepted⟩

/-- Two peers, the first with two regions of which the second has this name. -/
def sidebandProfile (name : Bytes) : TomlTable :=
  profile "shm:/router"
    [peerTable 1 "camera" "shm:/camera" [(ascii "sideband", .array
      [.table [(ascii "name", .string (ascii "/left")), (ascii "max_payload_bytes", .integer 64)],
        .table [(ascii "name", .string name), (ascii "max_payload_bytes", .integer 4096),
          (ascii "memory_class", .string (ascii "cuda_host"))]])],
      peerTable 2 "logger" "shm:/logger" []]
    [routeTable 1 2]

theorem sidebands_declared_right : ∃ t, buildFrom (sidebandProfile (ascii "/right")) = .ok t ∧
    List.Forall₂ (fun tbl p => SidebandsDeclared t tbl p.id)
      (entries (get (sidebandProfile (ascii "/right")) "peers")) t.peers := by
  obtain ⟨t, accepted⟩ : ∃ t, buildFrom (sidebandProfile (ascii "/right")) = .ok t := ⟨_, rfl⟩
  refine ⟨t, accepted, (sidebands_declared_iff accepted).2.mpr ?_⟩
  intro tbl mem
  have peers : tbl ∈ [_, _] := mem
  simp only [List.mem_cons, List.not_mem_nil, or_false] at peers
  rcases peers with rfl | rfl
  · refine ⟨.inr rfl, ?_⟩
    intro sideband inside
    have regions : sideband ∈ [_, _] := inside
    simp only [List.mem_cons, List.not_mem_nil, or_false] at regions
    rcases regions with rfl | rfl
    · exact ⟨by rintro _ ⟨⟩; decide, nofun, .inl rfl, .inl rfl, .inl rfl⟩
    · exact ⟨by rintro _ ⟨⟩; decide, by rintro _ ⟨⟩; decide, .inl rfl, .inr rfl, .inl rfl⟩
  · exact ⟨.inl rfl, nofun⟩

/-- A name with a NUL byte is accepted, and what is looked up is the part before it. -/
theorem nul_name_cut : ∃ t, buildFrom (sidebandProfile (ascii "/a" ++ 0 :: ascii "b")) = .ok t ∧
    (t.regionsFor 1).map (·.name.bytes) = [ascii "/left", ascii "/a"] ∧
    ¬ List.Forall₂ (fun tbl p => SidebandsDeclared t tbl p.id)
      (entries (get (sidebandProfile (ascii "/a" ++ 0 :: ascii "b")) "peers")) t.peers := by
  have shape : ∀ t ∈ (buildFrom (sidebandProfile (ascii "/a" ++ 0 :: ascii "b"))).toOption,
      (t.regionsFor 1).map (·.name.bytes) = [ascii "/left", ascii "/a"] := by
    decide +kernel
  obtain ⟨t, accepted⟩ :
    ∃ t, buildFrom (sidebandProfile (ascii "/a" ++ 0 :: ascii "b")) = .ok t := ⟨_, rfl⟩
  refine ⟨t, accepted, shape t (toOption_eq_some.mpr accepted), ?_⟩
  intro kept
  obtain ⟨-, plain⟩ := (declared_sections_iff accepted).mp kept _ List.mem_cons_self
  have noNul := (plain _ (List.mem_cons_of_mem _ List.mem_cons_self)).name _ rfl
  exact noNul (by decide)

end RoboticsIpc
