import RoboticsIpc.Lib.Checked
import RoboticsIpc.Router.PeerTable
import RoboticsIpc.Router.Toml

/-!
The topology loader (`router/topology_loader.hpp`): from a parsed deployment
profile to peers, routes, topics and sidebands, or a `TopologyLoadError`.

Checks stand in the order of the source, so that a profile with several faults
is rejected with the same text.
-/

namespace RoboticsIpc

open ByteBuffer Checked Toml

structure TopologyLoadError where
  what : Bytes
deriving DecidableEq

/-! ### Limits -/

def kUdsPathMaxLen : Nat := 107
def kPeerNameMaxLen : Nat := 63
def kShmNameMaxLen : Nat := 250

def kShmSlotCountMin : Int := 1
def kShmSlotCountMax : Int := 2 ^ 20
def kShmMaxPayloadMax : Int := 256 * 1024 * 1024

def kSidebandVersion : UInt32 := 1
def kSidebandNameMaxLen : Nat := 250
def kSidebandCudaDeviceUnset : Int := -1

def kTopicNameMaxLen : Nat := 63
def kTopicPayloadClassMaxLen : Nat := 63

/-! ### Addresses -/

/-- `'text'` in an error. -/
def quoted (text : Bytes) : Bytes := ascii "'" ++ text ++ ascii "'"

def slash : UInt8 := 0x2F
def colon : UInt8 := 0x3A

/-- `isspace` in the C locale. -/
def isSpace (c : UInt8) : Bool := c == 0x20 || (0x09 ≤ c && c ≤ 0x0D)

def isDigit (c : UInt8) : Bool := 0x30 ≤ c && c ≤ 0x39

def decimalValue (digits : Bytes) : Nat :=
  digits.foldl (fun n d => 10 * n + (d.toNat - 0x30)) 0

/-- `std::stoul`: blanks, a sign, digits, and anything after them. A minus sign
negates modulo 2^64; no digits, or a magnitude of 2^64 or more, throws. -/
def stoul (text : Bytes) : Option Nat :=
  let text := text.dropWhile isSpace
  let negative := text.head? == some 0x2D
  let signed := negative || text.head? == some 0x2B
  let digits := ((if signed then text.drop 1 else text).takeWhile isDigit)
  let magnitude := decimalValue digits
  if digits = [] ∨ 2 ^ 64 ≤ magnitude then none
  else if negative then some ((2 ^ 64 - magnitude) % 2 ^ 64) else some magnitude

/-- `rfind`. -/
def rfind (c : UInt8) (text : Bytes) : Option Nat :=
  (text.reverse.idxOf? c).map (text.length - 1 - ·)

def splitScheme (spec : Bytes) : Except TopologyLoadError (Bytes × Bytes) := do
  let pos ← required (spec.idxOf? colon) ⟨ascii "address missing scheme: " ++ quoted spec
    ++ ascii " (expected uds:/path, udp:host:port, or shm:/name)"⟩
  return (spec.take pos, spec.drop (pos + 1))

/-- The `uds` branch of `parse_address_`. -/
def parseUds (spec rest : Bytes) : Except TopologyLoadError PeerAddress := do
  rejectIf (rest.head? ≠ some slash)
    ⟨ascii "uds address must be an absolute path: " ++ quoted spec⟩
  rejectIf (rest.length > kUdsPathMaxLen)
    ⟨ascii "uds path exceeds " ++ toStdString kUdsPathMaxLen ++ ascii " bytes: " ++ quoted rest⟩
  return .uds (cStr rest)

/-- The `udp` branch of `parse_address_`. -/
def parseUdp (spec rest : Bytes) : Except TopologyLoadError PeerAddress := do
  let malformed : TopologyLoadError :=
    ⟨ascii "udp address must be host:port (no IPv6 brackets): " ++ quoted spec⟩
  let pos ← required (rfind colon rest) malformed
  rejectIf (pos = 0 ∨ pos + 1 = rest.length) malformed
  let host := rest.take pos
  let portSv := rest.drop (pos + 1)
  rejectIf (colon ∈ host) ⟨ascii "udp host must not contain ':' (IPv6 not supported in "
    ++ ascii "v1 topology schema): " ++ quoted host⟩
  let port ← required (stoul portSv) ⟨ascii "udp port not an integer: " ++ quoted portSv⟩
  rejectIf (port = 0 ∨ port > 65535)
    ⟨ascii "udp port out of range 1..65535: " ++ toStdString port⟩
  return .udp ⟨cStr host, UInt16.ofNat port⟩

/-- The `shm` branch of `parse_address_`. -/
def parseShm (spec rest : Bytes) : Except TopologyLoadError PeerAddress := do
  rejectIf (rest.head? ≠ some slash)
    ⟨ascii "shm address must start with '/': " ++ quoted spec⟩
  rejectIf (rest.length > kShmNameMaxLen)
    ⟨ascii "shm name exceeds " ++ toStdString kShmNameMaxLen ++ ascii " bytes: " ++ quoted rest⟩
  return .shm (cStr rest)

/-- `LoadedTopology::parse_address_`. -/
def parseAddress (spec : Bytes) : Except TopologyLoadError PeerAddress := do
  let (scheme, rest) ← splitScheme spec
  if scheme = ascii "uds" then
    parseUds spec rest
  else if scheme = ascii "udp" then
    parseUdp spec rest
  else if scheme = ascii "shm" then
    parseShm spec rest
  else
    .error ⟨ascii "unknown address scheme " ++ quoted scheme ++ ascii " (want uds, udp, or shm): "
      ++ quoted spec⟩

/-! ### What a profile loads to -/

inductive SidebandMemoryClass where
  | shm
  | cudaManaged
  | cudaHost
  | nvBufSurface
deriving DecidableEq

/-- `sideband_memory_class_name`. -/
def sidebandMemoryClassName : SidebandMemoryClass → Bytes
  | .shm => ascii "shm"
  | .cudaManaged => ascii "cuda_managed"
  | .cudaHost => ascii "cuda_host"
  | .nvBufSurface => ascii "nvbufsurface"

/-- `parse_sideband_memory_class`. -/
def parseSidebandMemoryClass (s : CStr) : Option SidebandMemoryClass :=
  if s.bytes = ascii "shm" then some .shm
  else if s.bytes = ascii "cuda_managed" then some .cudaManaged
  else if s.bytes = ascii "cuda_host" then some .cudaHost
  else if s.bytes = ascii "nvbufsurface" then some .nvBufSurface
  else none

/-- `sideband_memory_class_is_gpu`. -/
def sidebandMemoryClassIsGpu (mc : SidebandMemoryClass) : Bool := mc ≠ .shm

structure SidebandRegion where
  name : CStr
  maxPayloadBytes : UInt64
  version : UInt32
  memoryClass : SidebandMemoryClass
  cudaDevice : Int

structure LoadedTopology where
  peers : List PeerEntry := []
  routes : List RouteRule := []
  topics : List TopicEntry := []
  sidebands : List SidebandRegion := []
  peerSidebandRanges : List (Nat × Nat) := []
  routerListen : PeerAddress
  listenUds : Option CStr := none
  listenUdp : Option UdpEndpoint := none

/-- `LoadedTopology::view`. -/
def LoadedTopology.view (t : LoadedTopology) : RouterTopology where
  peers := t.peers
  routerListen := t.routerListen
  topics := t.topics
  listenUds := t.listenUds
  listenUdp := t.listenUdp

/-! ### `[router]` -/

/-- The primary listen address also serves its own datagram transport. -/
def primaryListen (routerListen : PeerAddress) : LoadedTopology :=
  match routerListen with
  | .uds path => { routerListen, listenUds := some path }
  | .udp endpoint => { routerListen, listenUdp := some endpoint }
  | .shm _ => { routerListen }

/-- The optional `listen_uds`, which overrides a primary listen of its kind. -/
def loadListenUds (out : LoadedTopology) (value : Option Bytes) :
    Except TopologyLoadError LoadedTopology :=
  match value with
  | none => pure out
  | some spec => do
      match ← parseAddress spec with
      | .uds path => pure { out with listenUds := some path }
      | _ => .error ⟨ascii "router.listen_uds must be a uds: address"⟩

/-- The optional `listen_udp`, which overrides a primary listen of its kind. -/
def loadListenUdp (out : LoadedTopology) (value : Option Bytes) :
    Except TopologyLoadError LoadedTopology :=
  match value with
  | none => pure out
  | some spec => do
      match ← parseAddress spec with
      | .udp endpoint => pure { out with listenUdp := some endpoint }
      | _ => .error ⟨ascii "router.listen_udp must be a udp: address"⟩

def loadListens (router : TomlTable) : Except TopologyLoadError LoadedTopology := do
  let listen ← required (valueString (get router "listen")) ⟨ascii "missing router.listen string"⟩
  let routerListen ← parseAddress listen
  let withUds ← loadListenUds (primaryListen routerListen) (valueString (get router "listen_uds"))
  loadListenUdp withUds (valueString (get router "listen_udp"))

/-! ### `[[peers]]` -/

/-- `shm_slot_count`, 0 when absent. -/
def loadSlotCount (name : Bytes) (value : Option Int) : Except TopologyLoadError UInt32 :=
  match value with
  | none => pure 0
  | some v => do
      rejectIf (v ≠ 0 ∧ (v < kShmSlotCountMin ∨ v > kShmSlotCountMax))
        ⟨ascii "peer " ++ quoted name ++ ascii " shm_slot_count " ++ toStdString v
          ++ ascii " out of range " ++ toStdString kShmSlotCountMin ++ ascii ".."
          ++ toStdString kShmSlotCountMax ++ ascii " (0 means default)"⟩
      return UInt32.ofInt v

/-- `shm_max_payload`, 0 when absent. -/
def loadMaxPayload (name : Bytes) (value : Option Int) : Except TopologyLoadError UInt32 :=
  match value with
  | none => pure 0
  | some v => do
      rejectIf (v ≠ 0 ∧ v < kRouterFrameSize)
        ⟨ascii "peer " ++ quoted name ++ ascii " shm_max_payload " ++ toStdString v
          ++ ascii " < kRouterFrameSize (" ++ toStdString kRouterFrameSize
          ++ ascii "): cannot hold a RouterFrame"⟩
      rejectIf (v < 0 ∨ v > kShmMaxPayloadMax)
        ⟨ascii "peer " ++ quoted name ++ ascii " shm_max_payload " ++ toStdString v
          ++ ascii " out of range 0.." ++ toStdString kShmMaxPayloadMax
          ++ ascii " (0 means default)"⟩
      return UInt32.ofInt v

/-- One peer's own entry: id, name, address and ring sizing. -/
def loadPeerEntry (i : Nat) (peers : List PeerEntry) (tbl : TomlTable) :
    Except TopologyLoadError (PeerEntry × Bytes) := do
  let idOpt ← required (valueInt64 (get tbl "id"))
    ⟨ascii "[[peers]] entry #" ++ toStdString i ++ ascii " missing integer 'id'"⟩
  rejectIf (idOpt < 1 ∨ idOpt > 254) ⟨ascii "peer id " ++ toStdString idOpt
    ++ ascii " out of range 1..254 (0=invalid, 255=server reserved)"⟩
  let id := UInt8.ofInt idOpt
  let name ← required (valueString (get tbl "name"))
    ⟨ascii "peer id " ++ toStdString id.toNat ++ ascii " missing string 'name'"⟩
  rejectIf (name.length > kPeerNameMaxLen) ⟨ascii "peer name " ++ quoted name
    ++ ascii " exceeds " ++ toStdString kPeerNameMaxLen ++ ascii " bytes"⟩
  rejectIf (name = []) ⟨ascii "peer id " ++ toStdString id.toNat ++ ascii " has empty name"⟩
  let localSpec ← required (valueString (get tbl "local"))
    ⟨ascii "peer " ++ quoted name ++ ascii " missing string 'local'"⟩
  rejectIf (∃ existing ∈ peers, existing.id = id)
    ⟨ascii "duplicate peer id " ++ toStdString id.toNat⟩
  let localAddress ← parseAddress localSpec
  let slotCountOpt := valueInt64 (get tbl "shm_slot_count")
  let maxPayloadOpt := valueInt64 (get tbl "shm_max_payload")
  rejectIf ((slotCountOpt.isSome ∨ maxPayloadOpt.isSome) ∧ localAddress.kind ≠ .shmRing)
    ⟨ascii "peer " ++ quoted name ++ ascii " has shm_slot_count or "
      ++ ascii "shm_max_payload but local address is not shm:"⟩
  let shmSlotCount ← loadSlotCount name slotCountOpt
  let shmMaxPayload ← loadMaxPayload name maxPayloadOpt
  return ({ id, name := cStr name, localAddress, shmSlotCount, shmMaxPayload }, name)

/-- The optional `memory_class` of a sideband. -/
def loadMemoryClass (sbName : Bytes) (value : Option Bytes) :
    Except TopologyLoadError SidebandMemoryClass :=
  match value with
  | none => pure .shm
  | some mc => required (parseSidebandMemoryClass (cStr mc))
      ⟨ascii "sideband " ++ quoted sbName ++ ascii " has unknown memory_class " ++ quoted mc
        ++ ascii " (expected one of: shm, cuda_managed, " ++ ascii "cuda_host, nvbufsurface)"⟩

/-- The optional `cuda_device` of a sideband, for GPU memory only. -/
def loadCudaDevice (sbName : Bytes) (mc : SidebandMemoryClass) (value : Option Int) :
    Except TopologyLoadError Int :=
  match value with
  | none => pure kSidebandCudaDeviceUnset
  | some dev => do
      rejectIf (sidebandMemoryClassIsGpu mc = false)
        ⟨ascii "sideband " ++ quoted sbName ++ ascii " sets cuda_device but memory_class is "
          ++ quoted (sidebandMemoryClassName mc)
          ++ ascii " (cuda_device is only valid for GPU-backed "
          ++ ascii "classes: cuda_managed, cuda_host, nvbufsurface)"⟩
      rejectIf (dev < 0 ∨ dev > 255)
        ⟨ascii "sideband " ++ quoted sbName ++ ascii " cuda_device " ++ toStdString dev
          ++ ascii " out of range 0..255"⟩
      return dev

/-- The optional `version` of a sideband. -/
def loadSidebandVersion (sbName : Bytes) (value : Option Int) : Except TopologyLoadError UInt32 :=
  match value with
  | none => pure kSidebandVersion
  | some v => do
      rejectIf (v < 0 ∨ v > 0xffffffff)
        ⟨ascii "sideband " ++ quoted sbName ++ ascii " version out of range"⟩
      return UInt32.ofInt v

/-- One `[[peers.sideband]]` entry. -/
def loadSideband (peerName : Bytes) (j : Nat) (sidebands : List SidebandRegion) (entry : Toml) :
    Except TopologyLoadError (List SidebandRegion) := do
  let tbl ← required (asTable (some entry)) ⟨ascii "peer " ++ quoted peerName
    ++ ascii " sideband entry #" ++ toStdString j ++ ascii " is not a table"⟩
  let sbBytes := valueInt64 (get tbl "max_payload_bytes")
  let sbName ← required (valueString (get tbl "name"))
    ⟨ascii "peer " ++ quoted peerName ++ ascii " sideband missing string 'name'"⟩
  rejectIf (sbName.length > kSidebandNameMaxLen) ⟨ascii "sideband name " ++ quoted sbName
    ++ ascii " exceeds " ++ toStdString kSidebandNameMaxLen ++ ascii " bytes"⟩
  let maxPayloadBytes ← required (sbBytes.filter (0 < ·)) ⟨ascii "peer " ++ quoted peerName
    ++ ascii " sideband " ++ quoted sbName ++ ascii " needs positive max_payload_bytes"⟩
  let version ← loadSidebandVersion sbName (valueInt64 (get tbl "version"))
  let memoryClass ← loadMemoryClass sbName (valueString (get tbl "memory_class"))
  let cudaDevice ← loadCudaDevice sbName memoryClass (valueInt64 (get tbl "cuda_device"))
  return sidebands ++ [{ name := cStr sbName, maxPayloadBytes := UInt64.ofInt maxPayloadBytes,
                         version, memoryClass, cudaDevice }]

/-- One `[[peers]]` entry with its sidebands. -/
def loadPeer (i : Nat) (out : LoadedTopology) (entry : Toml) :
    Except TopologyLoadError LoadedTopology := do
  let tbl ← required (asTable (some entry))
    ⟨ascii "[[peers]] entry #" ++ toStdString i ++ ascii " is not a table"⟩
  let (peer, name) ← loadPeerEntry i out.peers tbl
  let sidebands ← forIdx (loadSideband name) 0 ((asArray (get tbl "sideband")).getD [])
    out.sidebands
  return { out with
    peers := out.peers ++ [peer]
    sidebands
    peerSidebandRanges := out.peerSidebandRanges ++ [(out.sidebands.length, sidebands.length)] }

/-- A datagram peer needs the router to listen on its transport. -/
def checkListens (_ : Nat) (out : LoadedTopology) (peer : PeerEntry) :
    Except TopologyLoadError LoadedTopology := do
  rejectIf (peer.localAddress.kind = .udsPath ∧ out.listenUds = none)
    ⟨ascii "peer " ++ quoted peer.name.bytes
      ++ ascii " is a uds peer but [router] has no uds listen "
      ++ ascii "(set listen or listen_uds to a uds: address)"⟩
  rejectIf (peer.localAddress.kind = .udpEndpoint ∧ out.listenUdp = none)
    ⟨ascii "peer " ++ quoted peer.name.bytes
      ++ ascii " is a udp peer but [router] has no udp listen "
      ++ ascii "(set listen or listen_udp to a udp: address)"⟩
  return out

/-! ### `[[routes]]` and `[[topics]]` -/

/-- `extract_id`. -/
def extractId (i : Nat) (_ : Nat) (ids : List UInt8) (entry : Toml) :
    Except TopologyLoadError (List UInt8) := do
  let v ← required (valueInt64 (some entry))
    ⟨ascii "[[routes]] entry #" ++ toStdString i ++ ascii " dest must be integers"⟩
  rejectIf (v < 1 ∨ v > 254) ⟨ascii "[[routes]] entry #" ++ toStdString i ++ ascii " dest id "
    ++ toStdString v ++ ascii " out of range 1..254"⟩
  return ids ++ [UInt8.ofInt v]

/-- The optional `topic` selector of a route. -/
def loadRouteTopic (i : Nat) (value : Option Int) : Except TopologyLoadError UInt16 :=
  match value with
  | none => pure kRouteTopicAny
  | some topic => do
      rejectIf (topic < 0 ∨ topic > 0xFFFE)
        ⟨ascii "[[routes]] entry #" ++ toStdString i ++ ascii " topic id " ++ toStdString topic
          ++ ascii " out of range 0..65534 " ++ ascii "(0xFFFF reserved as match-any)"⟩
      return UInt16.ofInt topic

def peerExists (peers : List PeerEntry) (pid : UInt8) : Prop := ∃ p ∈ peers, p.id = pid

instance (peers : List PeerEntry) (pid : UInt8) : Decidable (peerExists peers pid) :=
  inferInstanceAs (Decidable (∃ p ∈ peers, p.id = pid))

/-- One destination of a rule, with those before it. -/
def checkDest (i : Nat) (peers : List PeerEntry) (source : UInt8) (_ : Nat) (before : List UInt8)
    (dest : UInt8) : Except TopologyLoadError (List UInt8) := do
  rejectIf (¬ peerExists peers dest) ⟨ascii "route dest id " ++ toStdString dest.toNat
    ++ ascii " does not match any peer"⟩
  rejectIf (dest ∈ before) ⟨ascii "[[routes]] entry #" ++ toStdString i
    ++ ascii " duplicate dest id " ++ toStdString dest.toNat ++ ascii " in fan-out list"⟩
  rejectIf (dest = source) ⟨ascii "route source id " ++ toStdString source.toNat
    ++ ascii " cannot be a destination of itself " ++ ascii "(self-routing rejected)"⟩
  return before ++ [dest]

/-- One `[[routes]]` entry. The source is cast to its eight bits unchecked. -/
def loadRoute (i : Nat) (out : LoadedTopology) (entry : Toml) :
    Except TopologyLoadError LoadedTopology := do
  let rt ← required (asTable (some entry))
    ⟨ascii "[[routes]] entry #" ++ toStdString i ++ ascii " is not a table"⟩
  let sourceOpt ← required (valueInt64 (get rt "source"))
    ⟨ascii "[[routes]] entry #" ++ toStdString i ++ ascii " missing integer 'source'"⟩
  let badDest : TopologyLoadError := ⟨ascii "[[routes]] entry #" ++ toStdString i
    ++ ascii " 'dest' must be an array of 1.." ++ toStdString kMaxRouteDests ++ ascii " peer ids"⟩
  let destArr ← required (asArray (get rt "dest")) badDest
  rejectIf (destArr = [] ∨ destArr.length > kMaxRouteDests) badDest
  let source := UInt8.ofInt sourceOpt
  let ids ← forIdx (extractId i) 0 destArr []
  let topicId ← loadRouteTopic i (valueInt64 (get rt "topic"))
  rejectIf (¬ peerExists out.peers source)
    ⟨ascii "route source id " ++ toStdString source.toNat ++ ascii " does not match any peer"⟩
  let _ ← forIdx (checkDest i out.peers source) 0 ids []
  let rule : RouteRule :=
    { source, topicId, destCount := UInt8.ofNat destArr.length,
      dest := Vector.ofFn fun k => ids.getD k 0 }
  return { out with routes := out.routes ++ [rule] }

/-- The optional `payload_class` of a topic. -/
def loadPayloadClass (name : Bytes) (value : Option Bytes) :
    Except TopologyLoadError (Option CStr) :=
  match value with
  | none => pure none
  | some pc => do
      rejectIf (pc = []) ⟨ascii "topic " ++ quoted name ++ ascii " has empty payload_class"⟩
      rejectIf (pc.length > kTopicPayloadClassMaxLen)
        ⟨ascii "topic " ++ quoted name ++ ascii " payload_class exceeds "
          ++ toStdString kTopicPayloadClassMaxLen ++ ascii " bytes"⟩
      return some (cStr pc)

/-- The optional `sideband_idx` of a topic. -/
def loadTopicSideband (name : Bytes) (value : Option Int) : Except TopologyLoadError UInt16 :=
  match value with
  | none => pure kSidebandIdxNone
  | some sb => do
      rejectIf (sb < 0 ∨ sb > 0xFFFF)
        ⟨ascii "topic " ++ quoted name ++ ascii " sideband_idx " ++ toStdString sb
          ++ ascii " out of range 0..65535"⟩
      return UInt16.ofInt sb

/-- One `[[topics]]` entry. -/
def loadTopic (i : Nat) (out : LoadedTopology) (entry : Toml) :
    Except TopologyLoadError LoadedTopology := do
  let tt ← required (asTable (some entry))
    ⟨ascii "[[topics]] entry #" ++ toStdString i ++ ascii " is not a table"⟩
  let idOpt ← required (valueInt64 (get tt "id"))
    ⟨ascii "[[topics]] entry #" ++ toStdString i ++ ascii " missing integer 'id'"⟩
  rejectIf (idOpt < 0 ∨ idOpt > 0xFFFF) ⟨ascii "[[topics]] entry #" ++ toStdString i
    ++ ascii " id " ++ toStdString idOpt ++ ascii " out of range 0..65535 (u16 wire field)"⟩
  let id := UInt16.ofInt idOpt
  rejectIf (∃ existing ∈ out.topics, existing.id = id)
    ⟨ascii "duplicate topic id " ++ toStdString id.toNat⟩
  let name ← required (valueString (get tt "name"))
    ⟨ascii "topic id " ++ toStdString id.toNat ++ ascii " missing string 'name'"⟩
  rejectIf (name = []) ⟨ascii "topic id " ++ toStdString id.toNat ++ ascii " has empty name"⟩
  rejectIf (name.length > kTopicNameMaxLen) ⟨ascii "topic name " ++ quoted name
    ++ ascii " exceeds " ++ toStdString kTopicNameMaxLen ++ ascii " bytes"⟩
  rejectIf (∃ existing ∈ out.topics, existing.name = cStr name)
    ⟨ascii "duplicate topic name " ++ quoted name⟩
  let payloadClass ← loadPayloadClass name (valueString (get tt "payload_class"))
  let sidebandIdx ← loadTopicSideband name (valueInt64 (get tt "sideband_idx"))
  return { out with topics := out.topics ++ [{ id, sidebandIdx, name := cStr name, payloadClass }] }

/-- The second pass over the routes: a selector names a declared topic. -/
def checkRouteTopic (_ : Nat) (out : LoadedTopology) (rule : RouteRule) :
    Except TopologyLoadError LoadedTopology := do
  rejectIf (rule.topicId ≠ kRouteTopicAny ∧ ¬ ∃ t ∈ out.topics, t.id = rule.topicId)
    ⟨ascii "route topic id " ++ toStdString rule.topicId.toNat
      ++ ascii " does not match any [[topics]] entry"⟩
  return out

/-- `LoadedTopology::build_from_`. -/
def buildFrom (root : TomlTable) : Except TopologyLoadError LoadedTopology := do
  let router ← required (asTable (get root "router")) ⟨ascii "missing [router] section"⟩
  let listening ← loadListens router
  let noPeers : TopologyLoadError :=
    ⟨ascii "missing or empty [[peers]] array (need at least one peer)"⟩
  let peersArray ← required (asArray (get root "peers")) noPeers
  rejectIf (peersArray = []) noPeers
  let peered ← forIdx loadPeer 0 peersArray listening
  let _ ← forIdx checkListens 0 peered.peers peered
  let routed ← forIdx loadRoute 0 ((asArray (get root "routes")).getD []) peered
  let out ← forIdx loadTopic 0 ((asArray (get root "topics")).getD []) routed
  forIdx checkRouteTopic 0 out.routes out

end RoboticsIpc
