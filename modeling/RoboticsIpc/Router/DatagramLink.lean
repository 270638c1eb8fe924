import RoboticsIpc.Router.TopologyLoader
import RoboticsIpc.Router.World

/-!
The datagram router link (`router/link.hpp` over `ipc/datagram.hpp`,
`router/peer_address_io.hpp` and `router/datagram_peer_resolver.hpp`), for the
two transports that have sockets.

The kernel is the environment: what `recvfrom` finds and whether a `sendto`
succeeds are arguments of the calls that make them.
-/

namespace RoboticsIpc

open ByteBuffer FanOut

inductive DatagramTransport where
  | uds
  | udp
deriving DecidableEq

def DatagramTransport.kind : DatagramTransport → PeerAddressKind
  | .uds => .udsPath
  | .udp => .udpEndpoint

/-! ### Socket addresses -/

/-- `sockaddr_un`: its path as a C string. -/
structure SockaddrUn where
  sunPath : CStr
deriving DecidableEq

/-- `sockaddr_in`, in host byte order. -/
structure SockaddrIn where
  sinAddr : UInt32
  sinPort : UInt16
deriving DecidableEq

/-- `strncpy` into a zeroed `sun_path`, short of its last byte. -/
def sockaddrUn (path : CStr) : SockaddrUn := ⟨cStr (path.bytes.take kUdsPathMaxLen)⟩

def dot : UInt8 := 0x2E

/-- One octet of a dotted quad: decimal digits without a leading zero, at most 255. -/
def inetPtonOctet (digits : Bytes) : Option Nat :=
  if digits = [] ∨ ¬ digits.all isDigit ∨ (digits.head? = some 0x30 ∧ 1 < digits.length) ∨
      255 < decimalValue digits then
    none
  else
    some (decimalValue digits)

/-- `inet_pton(AF_INET, ..)`: four octets between dots. -/
def inetPton (host : CStr) : Option UInt32 :=
  match (host.bytes.splitOn dot).map inetPtonOctet with
  | [some a, some b, some c, some d] =>
      some (UInt32.ofNat (((a * 256 + b) * 256 + c) * 256 + d))
  | _ => none

/-- The address a `sendto` is given. -/
inductive SockAddr where
  | un (dest : SockaddrUn)
  | inet (dest : SockaddrIn)
deriving DecidableEq

def sendtoFailed : DatagramTransport → RuntimeError
  | .uds => ⟨ascii "uds sendto failed"⟩
  | .udp => ⟨ascii "udp sendto failed"⟩

def recvfromFailed : DatagramTransport → RuntimeError
  | .uds => ⟨ascii "uds recvfrom failed"⟩
  | .udp => ⟨ascii "udp recvfrom failed"⟩

/-- `send_datagram_to_address`, where the kernel answers `sendto`. -/
def sendDatagramToAddress (sendto : Bool) : PeerAddress → Except RuntimeError SockAddr
  | .uds path => if sendto then .ok (.un (sockaddrUn path)) else .error (sendtoFailed .uds)
  | .udp endpoint =>
      match inetPton endpoint.host with
      | none => .error ⟨ascii "invalid host"⟩
      | some host =>
          if sendto then .ok (.inet ⟨host, endpoint.port⟩) else .error (sendtoFailed .udp)
  | .shm _ => .error ⟨ascii "unsupported peer address kind for datagram send"⟩

/-! ### The link -/

/-- `Transport::BindParams`. -/
def BindParams : DatagramTransport → Type
  | .uds => CStr
  | .udp => UInt16

/-- `Transport::RecvResult`: the sender's address. -/
def RecvResult : DatagramTransport → Type
  | .uds => SockaddrUn
  | .udp => SockaddrIn

/-- What a `recvfrom` finds: no datagram (before a timeout, or at all), an error,
or a sender and the bytes it sent. -/
inductive Recvfrom (T : DatagramTransport) where
  | none
  | failed
  | datagram (sender : RecvResult T) (bytes : Bytes)

instance {T : DatagramTransport} (recv : Recvfrom T) : Decidable (recv = .failed) :=
  match recv with
  | .failed => isTrue rfl
  | .none => isFalse (by intro same; cases same)
  | .datagram _ _ => isFalse (by intro same; cases same)

/-- The counters are `uint64_t`; here they are naturals, which read the same below `2 ^ 64`. -/
structure DatagramRouterMetrics where
  forwarded : Nat := 0
  recvTruncated : Nat := 0
  recvUnknownSource : Nat := 0

structure DatagramRouterLink (T : DatagramTransport) where
  topo : RouterTopology
  isServer : Bool
  peerId : UInt8
  /-- What the endpoint's socket is bound to. -/
  bound : Option (BindParams T) := none
  metrics : DatagramRouterMetrics := {}

abbrev DatagramState (T : DatagramTransport) := LinkState (DatagramRouterLink T)

variable {T : DatagramTransport}

namespace DatagramRouterLink

def server (T : DatagramTransport) (topo : RouterTopology) : DatagramRouterLink T where
  topo := topo
  isServer := true
  peerId := kEndpointInvalid

/-- `bind_router`; the socket's own failures belong to the operating system. -/
def bindRouter (link : DatagramRouterLink T) (params : BindParams T) :
    Except RuntimeError (DatagramRouterLink T) :=
  if link.isServer = false then
    .error ⟨ascii "bind_router on client link"⟩
  else
    .ok { link with bound := some params }

/-- `bind_datagram_endpoint`. -/
def bindDatagramEndpoint : (T : DatagramTransport) → PeerAddress → Except RuntimeError (BindParams T)
  | .uds, .uds path => .ok path
  | .uds, _ => .error ⟨ascii "uds endpoint expected uds peer address"⟩
  | .udp, .udp endpoint => .ok endpoint.port
  | .udp, _ => .error ⟨ascii "udp endpoint expected udp peer address"⟩

/-- A client link, bound to its peer's own address. -/
def client (T : DatagramTransport) (topo : RouterTopology) (peerId : UInt8) :
    Except RuntimeError (DatagramRouterLink T) :=
  match peerById topo peerId with
  | none => .error ⟨ascii "unknown peer id"⟩
  | some entry =>
      match bindDatagramEndpoint T entry.localAddress with
      | .error e => .error e
      | .ok params => .ok { topo, isServer := false, peerId, bound := some params }

/-- Where a client sends its frames. -/
def routerAddress (link : DatagramRouterLink T) : PeerAddress := link.topo.routerListen

/-- `send_to_router`. -/
def sendToRouter (link : DatagramRouterLink T) (sendto : Bool) : Except RuntimeError SockAddr :=
  if link.isServer then
    .error ⟨ascii "send_to_router on server link"⟩
  else
    sendDatagramToAddress sendto link.routerAddress

end DatagramRouterLink

/-- The test of `peer_id_from_recv`: the sender's path, or its port alone. -/
def PeerAddress.sends : (T : DatagramTransport) → RecvResult T → PeerAddress → Bool
  | .uds, sender, .uds path => path == SockaddrUn.sunPath sender
  | .udp, sender, .udp endpoint => endpoint.port == SockaddrIn.sinPort sender
  | _, _, _ => false

/-- `peer_id_from_recv`. -/
def peerIdFromRecv (T : DatagramTransport) (topo : RouterTopology) (sender : RecvResult T) : UInt8 :=
  match peerFind topo fun e => e.localAddress.sends T sender with
  | some entry => entry.id
  | none => kEndpointInvalid

/-! ### Receive -/

namespace DatagramState

/-- `recvfrom` has copied a datagram into the scratch frame. -/
def took (s : DatagramState T) (ts : UInt64) (sender : RecvResult T) (bytes : Bytes) :
    DatagramState T :=
  let source := peerIdFromRecv T s.link.topo sender
  { s with
    frame := s.frame.receive bytes
    world := { s.world with
      arrivals := s.world.arrivals ++ [⟨source, bytes.take kRouterFrameSize, ts⟩] } }

def countTruncated (s : DatagramState T) : DatagramState T :=
  { s with link := { s.link with
      metrics := { s.link.metrics with recvTruncated := s.link.metrics.recvTruncated + 1 } } }

def countUnknownSource (s : DatagramState T) : DatagramState T :=
  { s with link := { s.link with
      metrics := { s.link.metrics with
        recvUnknownSource := s.link.metrics.recvUnknownSource + 1 } } }

/-- What `forward` and `try_receive` do with a datagram: drop it short, drop it
unattributed, or stamp it. -/
def resolve (s : DatagramState T) (ts : UInt64) (sender : RecvResult T) (bytes : Bytes) :
    DatagramState T × UInt8 :=
  let s := s.took ts sender bytes
  if (bytes.take kRouterFrameSize).length < kRouterFrameSize then
    (s.countTruncated, kEndpointInvalid)
  else
    let source := peerIdFromRecv T s.link.topo sender
    if source = kEndpointInvalid then
      (s.countUnknownSource, kEndpointInvalid)
    else
      ({ s with frame := s.frame.stamp source ts }, source)

/-- `DatagramRouterLink::try_receive`. -/
def tryReceive (s : DatagramState T) (ts : UInt64) :
    Recvfrom T → Outcome (DatagramState T) UInt8
  | .none => ⟨s, .ok kEndpointInvalid⟩
  | .failed => ⟨s, .error (recvfromFailed T)⟩
  | .datagram sender bytes =>
      let (s, source) := s.resolve ts sender bytes
      ⟨s, .ok source⟩

/-! ### Send -/

/-- The kernel has taken the datagram. -/
def sent (s : DatagramState T) (dest : UInt8) (payload : Bytes) : DatagramState T :=
  { s with
    link := { s.link with
      metrics := { s.link.metrics with forwarded := s.link.metrics.forwarded + 1 } }
    world := { s.world with handed := s.world.handed ++ [(dest, payload)] } }

/-- `DatagramRouterLink::send_to_peer`. -/
def sendToPeer (s : DatagramState T) (sendto : Bool) (dest : UInt8) (payload : Bytes) :
    Outcome (DatagramState T) Unit :=
  match peerById s.link.topo dest with
  | none => ⟨s, .ok ()⟩
  | some entry =>
      match sendDatagramToAddress sendto entry.localAddress with
      | .error e => ⟨s, .error e⟩
      | .ok _ => ⟨s.sent dest payload, .ok ()⟩

/-- `DatagramRouterLink::forward`. -/
def forward (s : DatagramState T) (ts : UInt64) (rules : List RouteRule) (recv : Recvfrom T)
    (sendto : UInt8 → Bool) : Outcome (DatagramState T) ForwardResult :=
  if s.link.isServer = false then
    ⟨s, .error ⟨ascii "forward on client link"⟩⟩
  else
    match recv with
    | .none | .failed => ⟨s, .error (recvfromFailed T)⟩
    | .datagram sender bytes =>
        let (s, source) := s.resolve ts sender bytes
        if source = kEndpointInvalid then
          ⟨s, .ok {}⟩
        else
          let targets := routeTargetsFor rules source s.frame.topicId
          let payload := s.frame.bytes
          match forEach (fun s dest => s.sendToPeer (sendto dest) dest payload) targets.list s with
          | ⟨s, .error e⟩ => ⟨s, .error e⟩
          | ⟨s, .ok ()⟩ => ⟨s, .ok { source, targets }⟩

end DatagramState

end RoboticsIpc
