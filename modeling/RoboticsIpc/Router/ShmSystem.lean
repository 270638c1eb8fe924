import RoboticsIpc.Lib.StepRun
import RoboticsIpc.Router.Accepted
import RoboticsIpc.Router.ShmLinkLaws

/-!
An SHM router with its peers: clients publish on their request rings, the router
forwards, clients pop their reply rings.

`ShmInv` is what every run keeps. On each ring, what was put in is what was taken
out followed by what is still there; and the router's log of frame copies is a
sublist of the copies a router that never drops would have made.
-/

namespace RoboticsIpc

open ByteBuffer FanOut ShmSpsc StepRun

/-! ### The system -/

structure ShmSystem where
  router : ShmState
  published : UInt8 → List Bytes := fun _ => []
  popped : UInt8 → List Bytes := fun _ => []

inductive ShmAct where
  | publish (peer : UInt8) (msg : Bytes)
  | forward (scratch : RouterFrame) (ts : UInt64)
  | pop (peer : UInt8)
  | setFloor (floor : UInt8)

/-- A server link bound from a topology, over whatever `/dev/shm` held before. -/
def bootShm (topo : RouterTopology) (mem : ShmMemory) : Except RuntimeError ShmSystem :=
  match (ShmRouterLink.server topo).bindRouter mem with
  | .error e => .error e
  | .ok (link, mem) => .ok { router := ⟨link, .zero, { mem }⟩ }

/-- A `/dev/shm` with nothing in it. -/
def noShm : ShmMemory := fun _ => ⟨initRing defaultRingParams, initRing defaultRingParams⟩

def ShmSystem.setMem (s : ShmSystem) (mem : ShmMemory) : ShmSystem :=
  { s with router := { s.router with world := { s.router.world with mem } } }

/-- One step. A peer that is not an SHM peer of the topology has no endpoint. -/
def shmStep (rules : List RouteRule) (s : ShmSystem) : ShmAct → Option ShmSystem
  | .publish peer msg =>
      match clientEndpoint s.router.link.topo peer s.router.world.mem with
      | .error _ => none
      | .ok (mem, endpoint) =>
          match trySend endpoint mem msg with
          | (mem, true) => some { s.setMem mem with
              published := Function.update s.published peer (s.published peer ++ [msg]) }
          | (mem, false) => some (s.setMem mem)
  | .forward scratch ts =>
      let router : ShmState := { s.router with frame := scratch }
      some { s with router := reportForward (router.forward ts rules) }
  | .pop peer =>
      match clientEndpoint s.router.link.topo peer s.router.world.mem with
      | .error _ => none
      | .ok (mem, endpoint) =>
          match tryRecv endpoint mem kRouterFrameSize with
          | .ok (some (msg, mem)) => some { s.setMem mem with
              popped := Function.update s.popped peer (s.popped peer ++ [msg]) }
          | _ => some (s.setMem mem)
  | .setFloor floor =>
      some { s with router := { s.router with
        link := { s.router.link with priorityDropFloor := floor } } }

/-! ### Ports -/

/-- The channels a topology's SHM peers get. -/
def shmPorts (peers : List PeerEntry) : List Port :=
  peers.filterMap fun e =>
    match e.localAddress with
    | .shm name => some (e.id, ⟨name, ringParams e, true⟩)
    | _ => none

/-- Ports that share neither ids nor regions and can carry a frame. -/
structure Wired (ports : List Port) : Prop where
  server : ∀ port ∈ ports, port.2.isServerRole = true
  ids : (ports.map Prod.fst).Nodup
  names : (ports.map fun port => port.2.name).Nodup
  noInvalid : kEndpointInvalid ∉ ports.map Prod.fst
  fits : ∀ port ∈ ports, kRouterFrameSize ≤ port.2.params.maxPayload

theorem mem_shmPorts {peers : List PeerEntry} {port : Port} :
    port ∈ shmPorts peers ↔ ∃ e ∈ peers, ∃ name, e.localAddress = .shm name ∧
      port = (e.id, ⟨name, ringParams e, true⟩) := by
  simp only [shmPorts, List.mem_filterMap]
  constructor
  · rintro ⟨e, mem, found⟩
    cases address : e.localAddress with
    | uds path => simp [address] at found
    | udp endpoint => simp [address] at found
    | shm name =>
        simp only [address, Option.some.injEq] at found
        exact ⟨e, mem, name, address, found.symm⟩
  · rintro ⟨e, mem, name, address, rfl⟩
    exact ⟨e, mem, by rw [address]⟩

theorem shmPorts_ids_sublist (peers : List PeerEntry) :
    ((shmPorts peers).map Prod.fst).Sublist (peers.map (·.id)) := by
  induction peers with
  | nil => exact List.nil_sublist _
  | cons e rest ih =>
      cases address : e.localAddress with
      | uds path => simpa [shmPorts, address] using ih.cons e.id
      | udp endpoint => simpa [shmPorts, address] using ih.cons e.id
      | shm name => simpa [shmPorts, address] using ih.cons_cons e.id

theorem shmPorts_server (peers : List PeerEntry) :
    ∀ port ∈ shmPorts peers, port.2.isServerRole = true := by
  intro port mem
  obtain ⟨e, -, name, -, rfl⟩ := mem_shmPorts.mp mem
  rfl

/-- The SHM peers of an accepted profile have different ids. -/
theorem shmPorts_ids {t : LoadedTopology} (wellFormed : t.WellFormed) :
    ((shmPorts t.peers).map Prod.fst).Nodup :=
  (shmPorts_ids_sublist t.peers).nodup wellFormed.ids

theorem le_maxPayload {e : PeerEntry} (wellFormed : e.WellFormed) :
    kRouterFrameSize ≤ (ringParams e).maxPayload := by
  simp only [ringParams]
  rcases wellFormed.maxPayload with default | ⟨low, -⟩
  · rw [if_neg (by simp [default])]
    decide
  · split
    · exact low
    · decide

/-- No declared peer has the invalid id. -/
theorem shmPorts_valid {t : LoadedTopology} (wellFormed : t.WellFormed) :
    kEndpointInvalid ∉ (shmPorts t.peers).map Prod.fst := by
  intro mem
  obtain ⟨port, inside, invalid⟩ := List.mem_map.mp mem
  obtain ⟨e, declared, name, -, rfl⟩ := mem_shmPorts.mp inside
  exact (wellFormed.peers e declared).id_ne_invalid invalid

/-- Every ring of an accepted profile can carry a frame. -/
theorem shmPorts_fits {t : LoadedTopology} (wellFormed : t.WellFormed) :
    ∀ port ∈ shmPorts t.peers, kRouterFrameSize ≤ port.2.params.maxPayload := by
  intro port mem
  obtain ⟨e, declared, name, -, rfl⟩ := mem_shmPorts.mp mem
  exact le_maxPayload (wellFormed.peers e declared)

/-- The SHM peers of an accepted profile, when their names are distinct. -/
theorem wired_shmPorts {t : LoadedTopology} (wellFormed : t.WellFormed)
    (names : ((shmPorts t.peers).map fun port => port.2.name).Nodup) :
    Wired (shmPorts t.peers) where
  server := shmPorts_server t.peers
  ids := shmPorts_ids wellFormed
  names := names
  noInvalid := shmPorts_valid wellFormed
  fits := shmPorts_fits wellFormed

theorem bindChannels_cons (e : PeerEntry) (rest : List PeerEntry) (mem : ShmMemory) :
    bindChannels (e :: rest) mem =
      match e.localAddress with
      | .shm name =>
          let fresh := Function.update mem name ⟨initRing (ringParams e), initRing (ringParams e)⟩
          ((bindChannels rest fresh).1,
            ⟨e.id, ⟨name, ringParams e, true⟩, false⟩ :: (bindChannels rest fresh).2)
      | _ => bindChannels rest mem := by
  cases address : e.localAddress <;>
    simp [bindChannels, bindShmEndpoint, address, ShmSpsc.bind]

theorem bindChannels_ports (peers : List PeerEntry) (mem : ShmMemory) :
    (bindChannels peers mem).2 = (shmPorts peers).map fun port => ⟨port.1, port.2, false⟩ := by
  induction peers generalizing mem with
  | nil => rfl
  | cons e rest ih =>
      rw [bindChannels_cons]
      cases address : e.localAddress <;> simp [shmPorts, address, ih]

theorem bindChannels_elsewhere {peers : List PeerEntry} (mem : ShmMemory) {n : CStr}
    (other : n ∉ (shmPorts peers).map fun port => port.2.name) :
    (bindChannels peers mem).1 n = mem n := by
  induction peers generalizing mem with
  | nil => rfl
  | cons e rest ih =>
      rw [bindChannels_cons]
      cases address : e.localAddress with
      | uds path =>
          simp only [shmPorts, List.filterMap_cons, address] at other
          exact ih mem other
      | udp endpoint =>
          simp only [shmPorts, List.filterMap_cons, address] at other
          exact ih mem other
      | shm name =>
          simp only [shmPorts, List.filterMap_cons, address, List.map_cons, List.mem_cons,
            not_or] at other
          simp only
          rw [ih _ other.2, Function.update_of_ne other.1]

/-- After `bind_router` a region that one port has to itself is empty. -/
theorem bindChannels_fresh {peers : List PeerEntry} {mem : ShmMemory} {port : Port}
    (inside : port ∈ shmPorts peers)
    (own : ∀ other ∈ shmPorts peers, other.2.name = port.2.name → other = port) :
    RegionCarries port.2.name port.2.params (bindChannels peers mem).1 [] [] := by
  induction peers generalizing mem with
  | nil => simp [shmPorts] at inside
  | cons e rest ih =>
      rw [bindChannels_cons]
      cases address : e.localAddress with
      | uds path =>
          simp only [shmPorts, List.filterMap_cons, address] at own inside
          exact ih inside own
      | udp endpoint =>
          simp only [shmPorts, List.filterMap_cons, address] at own inside
          exact ih inside own
      | shm name =>
          simp only [shmPorts, List.filterMap_cons, address] at own inside
          by_cases again : port.2.name ∈ (shmPorts rest).map fun port => port.2.name
          · obtain ⟨other, later, same⟩ := List.mem_map.mp again
            obtain rfl := own other (List.mem_cons_of_mem _ later) same
            exact ih later fun other mem => own other (List.mem_cons_of_mem _ mem)
          · rcases List.mem_cons.mp inside with rfl | later
            · have region := bindChannels_elsewhere (Function.update mem name
                ⟨initRing (ringParams e), initRing (ringParams e)⟩) again
              refine ⟨?_, ?_⟩ <;> simp only [region, Function.update_self] <;>
                exact carries_initRing
            · exact absurd (List.mem_map.mpr ⟨port, later, rfl⟩) again

/-- What a successful boot has made. -/
theorem bootShm_eq {topo : RouterTopology} {mem : ShmMemory} {s : ShmSystem}
    (booted : bootShm topo mem = .ok s) :
    s.router.link = { ShmRouterLink.server topo with
        peerChannels := (bindChannels topo.peers mem).2 } ∧
      s.router.world = { mem := (bindChannels topo.peers mem).1 } ∧
      s.published = (fun _ => []) ∧ s.popped = fun _ => [] := by
  simp only [bootShm, ShmRouterLink.bindRouter, ShmRouterLink.server, Bool.true_eq_false,
    if_false] at booted
  by_cases none : (bindChannels topo.peers mem).2 = []
  · simp [none] at booted
  · simp only [none, if_false, Except.ok.injEq] at booted
    subst booted
    exact ⟨rfl, rfl, rfl, rfl⟩

theorem bootShm_ports {topo : RouterTopology} {mem : ShmMemory} {s : ShmSystem}
    (booted : bootShm topo mem = .ok s) : s.router.link.ports = shmPorts topo.peers := by
  rw [(bootShm_eq booted).1]
  simp only [ShmRouterLink.ports, bindChannels_ports, List.map_map]
  exact List.map_id'' (fun _ => rfl) _

/-- A client's endpoint is the client side of its port. -/
theorem clientEndpoint_port {topo : RouterTopology} {peer : UInt8} {mem mem' : ShmMemory}
    {endpoint : ShmRegion} (opened : clientEndpoint topo peer mem = .ok (mem', endpoint)) :
    mem' = mem ∧ ∃ name p, endpoint = ⟨name, p, false⟩ ∧
      (peer, ⟨name, p, true⟩) ∈ shmPorts topo.peers := by
  unfold clientEndpoint at opened
  cases found : peerById topo peer with
  | none => simp [found] at opened
  | some e =>
      have id : e.id = peer := by simpa using List.find?_some found
      simp only [found, bindShmEndpoint] at opened
      cases address : e.localAddress with
      | uds path => simp [address] at opened
      | udp endpoint => simp [address] at opened
      | shm name =>
          simp only [address, ShmSpsc.bind, Bool.false_eq_true, if_false, Except.ok.injEq,
            Prod.mk.injEq] at opened
          obtain ⟨rfl, rfl⟩ := opened
          refine ⟨rfl, name, ringParams e, rfl, mem_shmPorts.mpr ⟨e, ?_, name, address, ?_⟩⟩
          · exact List.mem_of_find?_eq_some found
          · rw [id]

/-! ### Steps -/

/-- The ways a step can go. A client holds the client side of a port. -/
inductive ShmStepCases (rules : List RouteRule) (s : ShmSystem) : ShmAct → ShmSystem → Prop
  | published {peer : UInt8} {msg : Bytes} {name : CStr} {p : RingParams} {mem : ShmMemory}
      (inside : (peer, ⟨name, p, true⟩) ∈ shmPorts s.router.link.topo.peers)
      (sent : trySend ⟨name, p, false⟩ s.router.world.mem msg = (mem, true)) :
      ShmStepCases rules s (.publish peer msg) { s.setMem mem with
        published := Function.update s.published peer (s.published peer ++ [msg]) }
  | rejected {peer : UInt8} {msg : Bytes} {name : CStr} {p : RingParams} {mem : ShmMemory}
      (inside : (peer, ⟨name, p, true⟩) ∈ shmPorts s.router.link.topo.peers)
      (sent : trySend ⟨name, p, false⟩ s.router.world.mem msg = (mem, false)) :
      ShmStepCases rules s (.publish peer msg) (s.setMem mem)
  | forwarded (scratch : RouterFrame) (ts : UInt64) :
      ShmStepCases rules s (.forward scratch ts) { s with
        router := reportForward (ShmState.forward { s.router with frame := scratch } ts rules) }
  | popped {peer : UInt8} {msg : Bytes} {name : CStr} {p : RingParams} {mem : ShmMemory}
      (inside : (peer, ⟨name, p, true⟩) ∈ shmPorts s.router.link.topo.peers)
      (received : tryRecv ⟨name, p, false⟩ s.router.world.mem kRouterFrameSize =
        .ok (some (msg, mem))) :
      ShmStepCases rules s (.pop peer) { s.setMem mem with
        popped := Function.update s.popped peer (s.popped peer ++ [msg]) }
  | nothing {peer : UInt8} : ShmStepCases rules s (.pop peer) s
  | floorSet (floor : UInt8) : ShmStepCases rules s (.setFloor floor) { s with
      router := { s.router with link := { s.router.link with priorityDropFloor := floor } } }

theorem shmStep_cases {rules : List RouteRule} {s s' : ShmSystem} {act : ShmAct}
    (stepped : shmStep rules s act = some s') : ShmStepCases rules s act s' := by
  cases act with
  | publish peer msg =>
      simp only [shmStep] at stepped
      cases opened : clientEndpoint s.router.link.topo peer s.router.world.mem with
      | error e => simp [opened] at stepped
      | ok found =>
          obtain ⟨mem, endpoint⟩ := found
          obtain ⟨rfl, name, p, rfl, inside⟩ := clientEndpoint_port opened
          simp only [opened] at stepped
          cases sent : trySend ⟨name, p, false⟩ s.router.world.mem msg with
          | mk mem' queued =>
              rw [sent] at stepped
              cases queued <;> cases stepped
              · exact .rejected inside sent
              · exact .published inside sent
  | forward scratch ts =>
      cases stepped
      exact .forwarded scratch ts
  | pop peer =>
      simp only [shmStep] at stepped
      cases opened : clientEndpoint s.router.link.topo peer s.router.world.mem with
      | error e => simp [opened] at stepped
      | ok found =>
          obtain ⟨mem, endpoint⟩ := found
          obtain ⟨rfl, name, p, rfl, inside⟩ := clientEndpoint_port opened
          simp only [opened] at stepped
          cases received : tryRecv ⟨name, p, false⟩ s.router.world.mem kRouterFrameSize with
          | error e =>
              rw [received] at stepped
              cases stepped
              exact .nothing
          | ok taken =>
              rw [received] at stepped
              cases taken with
              | none =>
                  cases stepped
                  exact .nothing
              | some pair =>
                  cases stepped
                  exact .popped inside received
  | setFloor floor =>
      cases stepped
      exact .floorSet floor

/-- The steps of a client move memory and its own log, nothing of the router. -/
theorem shmStep_router {rules : List RouteRule} {s s' : ShmSystem} {act : ShmAct}
    (stepped : shmStep rules s act = some s') :
    match act with
    | .forward scratch ts =>
        s'.router = reportForward (ShmState.forward { s.router with frame := scratch } ts rules)
    | .setFloor floor => s'.router =
        { s.router with link := { s.router.link with priorityDropFloor := floor } }
    | _ => ∃ mem, s'.router = { s.router with world := { s.router.world with mem } } := by
  cases shmStep_cases stepped with
  | published | rejected | popped => exact ⟨_, rfl⟩
  | forwarded | floorSet => rfl
  | nothing => exact ⟨s.router.world.mem, rfl⟩

/-- What a call takes bears the timestamp it was called with. -/
theorem tryReceive_arrivals (s : ShmState) (ts : UInt64) : ∃ fresh,
    (s.tryReceive ts).state.world.arrivals = s.world.arrivals ++ fresh ∧
      ∀ a ∈ fresh, a.timestamp = ts := by
  obtain ⟨shorts, spec⟩ := tryReceive_spec s ts
  have clocked : ∀ a ∈ shorts, a.timestamp = ts := fun a mem => (spec.discarded a mem).2.1
  cases spec.result with
  | empty _ arrivals | thrown _ _ arrivals => exact ⟨shorts, arrivals, clocked⟩
  | frame channel _ msg _ arrivals =>
      refine ⟨_, arrivals, fun a mem => ?_⟩
      rcases List.mem_append.mp mem with short | frame
      · exact clocked a short
      · rw [List.mem_singleton.mp frame]

/-- Only calls of `forward` take messages. -/
theorem shmStep_arrivals {rules : List RouteRule} {s s' : ShmSystem} {act : ShmAct}
    (stepped : shmStep rules s act = some s') : ∃ fresh,
    s'.router.world.arrivals = s.router.world.arrivals ++ fresh ∧
      ∀ a ∈ fresh, ∃ scratch, act = .forward scratch a.timestamp := by
  cases shmStep_cases stepped with
  | published | rejected | popped | nothing | floorSet =>
      exact ⟨[], (List.append_nil _).symm, by simp⟩
  | forwarded scratch ts =>
      cases server : s.router.link.isServer with
      | false =>
          have thrown : ShmState.forward { s.router with frame := scratch } ts rules =
              ⟨{ s.router with frame := scratch }, .error ⟨ascii "forward on client link"⟩⟩ := by
            simp [ShmState.forward, server]
          exact ⟨[], by rw [thrown]; simp [reportForward], by simp⟩
      | true =>
          obtain ⟨fresh, taken, clocked⟩ :=
            tryReceive_arrivals { s.router with frame := scratch } ts
          refine ⟨fresh, ?_, fun a mem => ⟨scratch, by rw [clocked a mem]⟩⟩
          rw [reportForward_arrivals]
          exact (forward_arrivals (s := { s.router with frame := scratch }) server).trans taken

end RoboticsIpc
