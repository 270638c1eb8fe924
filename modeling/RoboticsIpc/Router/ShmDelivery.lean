import RoboticsIpc.Router.ShmSystem

/-!
Delivery over shared memory, from any peer's publish to any peer's pop.

The invariant of a run has a part for each ring (`PortInv`) and a part for the
router (`RouterInv`): the log of copies is a sublist of what a router without
drops would have made. Joined, they say what a peer pops.
-/

namespace RoboticsIpc

open ByteBuffer Checked FanOut ShmSpsc StepRun Toml

/-! ### Rings -/

/-- Both rings of a port: what was put in is what was taken out and what is left. -/
def PortInv (published popped : UInt8 → List Bytes) (w : World) (port : Port) : Prop :=
  ∃ req rep, RegionCarries port.2.name port.2.params w.mem req rep ∧
    (published port.1).map (cut port.2.params) = arrivedFrom w.arrivals port.1 ++ req ∧
    share w.handed port.1 = popped port.1 ++ rep

def RingsInv (ports : List Port) (published popped : UInt8 → List Bytes) (w : World) : Prop :=
  ∀ port ∈ ports, PortInv published popped w port

variable {ports : List Port} {published popped : UInt8 → List Bytes} {w : World}

/-- A port that shares neither its id nor its region. -/
structure Alone (ports : List Port) (port : Port) : Prop where
  inside : port ∈ ports
  server : port.2.isServerRole = true
  fits : kRouterFrameSize ≤ port.2.params.maxPayload
  id : ∀ other ∈ ports, other.1 = port.1 → other = port
  name : ∀ other ∈ ports, other.2.name = port.2.name → other = port

/-- In a wired list every port is alone. -/
theorem Wired.alone (wired : Wired ports) {port : Port} (inside : port ∈ ports) :
    Alone ports port where
  inside := inside
  server := wired.server port inside
  fits := wired.fits port inside
  id _ mem same := List.inj_on_of_nodup_map wired.ids mem inside same
  name _ mem same := List.inj_on_of_nodup_map wired.names mem inside same

variable {port : Port}

theorem Alone.endpoint (alone : Alone ports port) :
    port.2 = ⟨port.2.name, port.2.params, true⟩ :=
  ShmRegion.eq_server alone.server

/-- A step on another region and another peer's logs. -/
theorem PortInv.of_same {published' popped' : UInt8 → List Bytes} {w' : World}
    (inv : PortInv published popped w port) (region : w'.mem port.2.name = w.mem port.2.name)
    (publishedSame : published' port.1 = published port.1)
    (poppedSame : popped' port.1 = popped port.1)
    (arrivalsSame : arrivedFrom w'.arrivals port.1 = arrivedFrom w.arrivals port.1)
    (handedSame : share w'.handed port.1 = share w.handed port.1) :
    PortInv published' popped' w' port := by
  obtain ⟨req, rep, carries, requests, replies⟩ := inv
  refine ⟨req, rep, carries.of_eq region, ?_, ?_⟩
  · rw [publishedSame, arrivalsSame]
    exact requests
  · rw [handedSame, poppedSame]
    exact replies

/-- The router's pop of a request, from this port or from another. -/
theorem PortInv.pop {ts : UInt64} {channels : List PeerChannel} (alone : Alone ports port)
    (sub : ∀ c ∈ channels, (c.peerId, c.endpoint) ∈ ports) :
    PopPreserves (fun w => PortInv published popped w port) ts channels := by
  intro c mem w msg mem' inv received
  by_cases here : (c.peerId, c.endpoint) = port
  · subst here
    obtain ⟨req, rep, carries, requests, replies⟩ := inv
    have role : c.endpoint = ⟨c.endpoint.name, c.endpoint.params, true⟩ := alone.endpoint
    rw [role] at received
    rcases carries.server_recv kRouterFrameSize with nothing | thrown |
      ⟨m, rest, mem'', queue, -, taken, left, -⟩
    · rw [nothing] at received
      cases received
    · rw [thrown] at received
      cases received
    · rw [taken] at received
      cases received
      refine ⟨rest, rep, left, ?_, replies⟩
      rw [requests, queue, arrivedFrom_append, arrivedFrom_singleton]
      simp
  · have inside := sub c mem
    have region : c.endpoint.name ≠ port.2.name := fun same => here (alone.name _ inside same)
    have id : c.peerId ≠ port.1 := fun same => here (alone.id _ inside same)
    refine inv.of_same (tryRecv_elsewhere received _ fun same => region same.symm) rfl rfl ?_ rfl
    rw [arrivedFrom_append, arrivedFrom_singleton, if_neg id, List.append_nil]

/-- The router's push of a whole frame, into this port or another. -/
theorem PortInv.push (alone : Alone ports port) {payload : Bytes}
    (whole : payload.length = kRouterFrameSize) :
    PushPreserves (fun w => PortInv published popped w port) ports payload := by
  intro other inside w mem' inv
  by_cases here : other = port
  · subst here
    obtain ⟨req, rep, carries, requests, replies⟩ := inv
    rw [alone.endpoint]
    have uncut : cut other.2.params payload = payload :=
      cut_eq_self (by rw [whole]; exact alone.fits)
    rcases carries.server_send payload with ⟨mem'', sent, queued, -⟩ | ⟨full, -⟩
    · refine ⟨fun eq => ?_, fun eq => ?_⟩
      · rw [sent] at eq
        cases eq
        refine ⟨req, rep ++ [payload], ?_, requests, ?_⟩
        · rwa [uncut] at queued
        · rw [share_append, replies, List.append_assoc]
          congr 1
          simp [share]
      · rw [sent] at eq
        cases eq
    · refine ⟨fun eq => ?_, fun eq => ?_⟩
      · rw [full] at eq
        cases eq
      · rw [full] at eq
        cases eq
        exact ⟨req, rep, carries, requests, replies⟩
  · have region : other.2.name ≠ port.2.name := fun same => here (alone.name _ inside same)
    have id : other.1 ≠ port.1 := fun same => here (alone.id _ inside same)
    refine ⟨fun sent => ?_, fun sent => ?_⟩
    · refine inv.of_same (trySend_elsewhere sent _ fun same => region same.symm) rfl rfl rfl ?_
      rw [share_append]
      simp [share, id]
    · exact inv.of_same (trySend_elsewhere sent _ fun same => region same.symm) rfl rfl rfl rfl

/-! ### The router -/

/-- The router's logs and counters against a router that never drops. -/
structure RouterInv (rules : List RouteRule) (ports : List Port) (s : ShmState) : Prop where
  sources : ∀ a ∈ s.world.arrivals, a.source ∈ ports.map Prod.fst
  handed : s.world.handed.Sublist (deliveries rules s.world.arrivals)
  forwarded : s.link.metrics.forwarded = s.world.handed.length
  dropped : s.link.metrics.droppedFull + s.world.handed.length =
    (deliveries rules s.world.arrivals).length
  reported : s.world.reported = reports rules s.world.arrivals

/-- Everything a run of the system keeps. -/
structure ShmInv (rules : List RouteRule) (topo : RouterTopology) (s : ShmSystem) : Prop where
  sameTopo : s.router.link.topo = topo
  server : s.router.link.isServer = true
  ports : s.router.link.ports = shmPorts topo.peers
  rings : RingsInv (shmPorts topo.peers) s.published s.popped s.router.world
  router : RouterInv rules (shmPorts topo.peers) s.router

variable {rules : List RouteRule} {topo : RouterTopology} {s s' : ShmSystem}

theorem Discarded.reports_nil {ts : UInt64} {channels : List PeerChannel} {shorts : List Arrival}
    (discarded : Discarded ts channels shorts) : reports rules shorts = [] :=
  reports_eq_nil discarded.route_nil

theorem Discarded.sources {ts : UInt64} {link : ShmRouterLink} {shorts : List Arrival}
    (discarded : Discarded ts link.peerChannels shorts) :
    ∀ a ∈ shorts, a.source ∈ link.ports.map Prod.fst := by
  intro a mem
  obtain ⟨-, -, c, inside, source⟩ := discarded a mem
  simp only [ShmRouterLink.ports, List.map_map, List.mem_map]
  exact ⟨c, inside, source⟩

/-- What is reported of a call. -/
theorem reportForward_reports {st : ShmState} {r : Outcome ShmState ForwardResult} {ts : UInt64}
    {shorts : List Arrival} {J : World → Prop} (discarded : Discarded ts st.link.peerChannels shorts)
    (spec : ForwardSpec J ts rules st r shorts)
    (silent : r.state.world.reported = st.world.reported)
    (before : st.world.reported = reports rules st.world.arrivals) :
    (reportForward r).world.reported = reports rules r.state.world.arrivals := by
  have none : reports rules shorts = [] := discarded.reports_nil
  cases spec with
  | idle _ arrivals _ _ result =>
      have same : reports rules r.state.world.arrivals = reports rules st.world.arrivals := by
        rw [arrivals, reports_append, none, List.append_nil]
      rw [same, ← before, ← silent]
      rcases result with empty | ⟨e, error⟩
      · simp only [reportForward, empty, if_true]
      · simp only [reportForward, error]
  | routed source msg kept _ valid whole arrivals _ _ _ _ result =>
      have one : reports rules [⟨source, msg, ts⟩] =
          (routedTo rules source (frameTopic msg)).map fun d => (source, d) := by
        rw [reports_singleton, Arrival.route_of_whole whole]
      rw [arrivals, reports_append, reports_append, none, one, List.nil_append]
      simp only [reportForward, result, valid, if_false, LinkState.report, routeTargetsFor_list,
        silent, before]

/-- One `forward`, with its report, keeps the router's part of the invariant. -/
theorem RouterInv.forward {st : ShmState} {r : Outcome ShmState ForwardResult} {ts : UInt64}
    {shorts : List Arrival} {J : World → Prop} (inv : RouterInv rules ports st)
    (wiring : st.link.ports = ports) (discarded : Discarded ts st.link.peerChannels shorts)
    (spec : ForwardSpec J ts rules st r shorts)
    (silent : r.state.world.reported = st.world.reported) :
    RouterInv rules ports (reportForward r) := by
  subst wiring
  obtain ⟨sources, handed, forwarded, dropped, reported⟩ := inv
  have newReports := reportForward_reports discarded spec silent
  have shortSources := discarded.sources
  cases spec with
  | idle handedSame arrivals forwardedSame droppedSame result =>
      have due : deliveries rules r.state.world.arrivals = deliveries rules st.world.arrivals := by
        rw [arrivals]
        simp only [deliveries, copies_append, copies_eq_nil discarded.route_nil, List.append_nil]
      refine ⟨?_, ?_, ?_, ?_, by rw [reportForward_arrivals]; exact newReports reported⟩
      · rw [reportForward_arrivals, arrivals]
        intro a mem
        rcases List.mem_append.mp mem with old | new
        · exact sources a old
        · exact shortSources a new
      · rw [reportForward_arrivals, reportForward_handed, handedSame, due]
        exact handed
      · rw [reportForward_link, reportForward_handed, forwardedSame, handedSame, forwarded]
      · rw [reportForward_link, reportForward_arrivals, reportForward_handed, droppedSame,
          handedSame, due, dropped]
  | routed source msg kept declared _ whole arrivals kept_sub handedNew forwardedNew droppedNew
      result =>
      have route : Arrival.route rules ⟨source, msg, ts⟩ = routedTo rules source (frameTopic msg) :=
        Arrival.route_of_whole whole
      have due : deliveries rules r.state.world.arrivals = deliveries rules st.world.arrivals ++
          (routedTo rules source (frameTopic msg)).map fun d => (d, stamped source ts msg) := by
        rw [arrivals]
        simp only [deliveries, copies_append, copies_eq_nil discarded.route_nil, List.nil_append,
          copies_singleton, route]
        rfl
      refine ⟨?_, ?_, ?_, ?_, by rw [reportForward_arrivals]; exact newReports reported⟩
      · rw [reportForward_arrivals, arrivals]
        intro a mem
        rcases List.mem_append.mp mem with old | new
        · exact sources a old
        · rcases List.mem_append.mp new with short | frame
          · exact shortSources a short
          · obtain rfl : a = ⟨source, msg, ts⟩ := by simpa using frame
            exact declared
      · rw [reportForward_arrivals, reportForward_handed, handedNew, due]
        exact handed.append (kept_sub.map _)
      · rw [reportForward_link, reportForward_handed, forwardedNew, forwarded, handedNew]
        simp
      · rw [reportForward_link, reportForward_arrivals, reportForward_handed, due, handedNew]
        simp only [List.length_append, List.length_map]
        omega

/-! ### Runs -/

/-- A port that has its region to itself starts with empty rings. -/
theorem portInv_boot {mem : ShmMemory} (booted : bootShm topo mem = .ok s)
    (inside : port ∈ shmPorts topo.peers)
    (own : ∀ other ∈ shmPorts topo.peers, other.2.name = port.2.name → other = port) :
    PortInv s.published s.popped s.router.world port := by
  obtain ⟨-, world, published, popped⟩ := bootShm_eq booted
  refine ⟨[], [], ?_, ?_, ?_⟩
  · rw [world]
    exact bindChannels_fresh inside own
  · rw [published, world]
    rfl
  · rw [popped, world]
    rfl

theorem shmInv_boot {t : LoadedTopology} {mem : ShmMemory} (names :
      ((shmPorts t.peers).map fun port => port.2.name).Nodup)
    (booted : bootShm t.view mem = .ok s) : ShmInv rules t.view s := by
  obtain ⟨link, world, -, -⟩ := bootShm_eq booted
  refine ⟨by rw [link]; rfl, by rw [link]; rfl, bootShm_ports booted, ?_, ?_⟩
  · intro port inside
    exact portInv_boot booted inside fun other mem same =>
      List.inj_on_of_nodup_map names mem inside same
  · refine ⟨?_, ?_, ?_, ?_, ?_⟩
    · simp [world]
    · rw [world]
      exact List.Sublist.refl _
    · rw [link, world]
      rfl
    · rw [link, world]
      rfl
    · rw [world]
      rfl

/-- Each step keeps the rings of a port that is alone in step with its peer's logs. -/
theorem PortInv.step (alone : Alone (shmPorts topo.peers) port)
    (noInvalid : kEndpointInvalid ∉ (shmPorts topo.peers).map Prod.fst)
    (routes : RoutesTo rules ((shmPorts topo.peers).map Prod.fst)) {a : ShmAct}
    (topoEq : s.router.link.topo = topo) (server : s.router.link.isServer = true)
    (ports : s.router.link.ports = shmPorts topo.peers)
    (inv : PortInv s.published s.popped s.router.world port)
    (step : shmStep rules s a = some s') : PortInv s'.published s'.popped s'.router.world port := by
  have apart : ∀ {peer : UInt8} {name : CStr} {p : RingParams},
      (peer, (⟨name, p, true⟩ : ShmRegion)) ∈ shmPorts s.router.link.topo.peers →
      (peer, ⟨name, p, true⟩) ≠ port → port.2.name ≠ name ∧ port.1 ≠ peer := by
    intro peer name p inside other
    rw [topoEq] at inside
    exact ⟨fun same => other (alone.name _ inside same.symm),
      fun same => other (alone.id _ inside same.symm)⟩
  cases shmStep_cases step with
  | @published peer msg name p mem inside sent =>
      by_cases here : (peer, (⟨name, p, true⟩ : ShmRegion)) = port
      · subst here
        obtain ⟨req, rep, carries, requests, replies⟩ := inv
        rcases carries.client_send msg with ⟨mem', queued, carries', -⟩ | full
        · obtain ⟨rfl, -⟩ := Prod.mk.inj (queued.symm.trans sent)
          refine ⟨req ++ [cut p msg], rep, carries', ?_, replies⟩
          simp [requests, ShmSystem.setMem]
        · cases full.symm.trans sent
      · obtain ⟨region, id⟩ := apart inside here
        exact inv.of_same (trySend_elsewhere sent _ region) (Function.update_of_ne id _ _) rfl rfl
          rfl
  | @rejected peer msg name p mem inside sent =>
      by_cases here : (peer, (⟨name, p, true⟩ : ShmRegion)) = port
      · subst here
        obtain ⟨req, rep, carries, requests, replies⟩ := inv
        rcases carries.client_send msg with ⟨mem', queued, -⟩ | full
        · cases queued.symm.trans sent
        · obtain ⟨rfl, -⟩ := Prod.mk.inj (full.symm.trans sent)
          exact ⟨req, rep, carries, requests, replies⟩
      · exact inv.of_same (trySend_elsewhere sent _ (apart inside here).1) rfl rfl rfl rfl
  | forwarded scratch ts =>
      have sub : ∀ c ∈ s.router.link.peerChannels, (c.peerId, c.endpoint) ∈ shmPorts topo.peers := by
        intro c mem
        rw [← ports]
        exact List.mem_map.mpr ⟨c, mem, rfl⟩
      obtain ⟨-, -, -, kept, -⟩ := forward_spec
        (J := fun w => PortInv s.published s.popped w port)
        (s := { s.router with frame := scratch }) ts rules server
        (by simp only [ports]; exact noInvalid) (by simp only [ports]; exact routes)
        (PortInv.pop alone sub)
        (fun payload whole => by simp only [ports]; exact PortInv.push alone whole) inv
      refine kept.of_same ?_ rfl rfl ?_ ?_
      · rw [reportForward_mem]
      · rw [reportForward_arrivals]
      · rw [reportForward_handed]
  | @popped peer msg name p mem inside received =>
      by_cases here : (peer, (⟨name, p, true⟩ : ShmRegion)) = port
      · subst here
        obtain ⟨req, rep, carries, requests, replies⟩ := inv
        rcases carries.client_recv kRouterFrameSize with nothing | thrown |
          ⟨m, rest, mem', queue, -, taken, left, -⟩
        · cases nothing.symm.trans received
        · cases thrown.symm.trans received
        · cases taken.symm.trans received
          refine ⟨req, rest, left, requests, ?_⟩
          simp [replies, queue, ShmSystem.setMem]
      · obtain ⟨region, id⟩ := apart inside here
        exact inv.of_same (tryRecv_elsewhere received _ region) rfl (Function.update_of_ne id _ _)
          rfl rfl
  | nothing => exact inv
  | floorSet floor => exact inv

/-- The steps of a client leave the router's part alone. -/
theorem RouterInv.of_mem {st : ShmState} (inv : RouterInv rules ports st) (mem : ShmMemory) :
    RouterInv rules ports { st with world := { st.world with mem } } :=
  ⟨inv.sources, inv.handed, inv.forwarded, inv.dropped, inv.reported⟩

/-- Each step keeps the invariant. -/
theorem shmStep_inv (wired : Wired (shmPorts topo.peers))
    (routes : RoutesTo rules ((shmPorts topo.peers).map Prod.fst)) {a : ShmAct}
    (inv : ShmInv rules topo s) (step : shmStep rules s a = some s') : ShmInv rules topo s' := by
  obtain ⟨topoEq, server, ports, rings, router⟩ := inv
  have rings' : RingsInv (shmPorts topo.peers) s'.published s'.popped s'.router.world :=
    fun port inside => (rings port inside).step (wired.alone inside) wired.noInvalid routes topoEq
      server ports step
  have moved := shmStep_router step
  cases a with
  | publish peer msg =>
      obtain ⟨mem, same⟩ := moved
      refine ⟨?_, ?_, ?_, rings', ?_⟩ <;> rw [same]
      · exact topoEq
      · exact server
      · exact ports
      · exact router.of_mem mem
  | pop peer =>
      obtain ⟨mem, same⟩ := moved
      refine ⟨?_, ?_, ?_, rings', ?_⟩ <;> rw [same]
      · exact topoEq
      · exact server
      · exact ports
      · exact router.of_mem mem
  | setFloor floor =>
      refine ⟨?_, ?_, ?_, rings', ?_⟩ <;> simp only [moved]
      · exact topoEq
      · exact server
      · exact ports
      · exact ⟨router.1, router.2, router.3, router.4, router.5⟩
  | forward scratch ts =>
      obtain ⟨shorts, discarded, spec, -, silent, -, wiring⟩ := forward_spec
        (s := { s.router with frame := scratch }) ts rules server
        (by simp only [ports]; exact wired.noInvalid) (by simp only [ports]; exact routes)
        (popPreserves_true ts _) (fun payload _ => pushPreserves_true _ payload) trivial
      have start : RouterInv rules (shmPorts topo.peers) { s.router with frame := scratch } :=
        ⟨router.1, router.2, router.3, router.4, router.5⟩
      refine ⟨?_, ?_, ?_, rings', ?_⟩ <;> simp only [moved]
      · rw [reportForward_link, wiring.topo, topoEq]
      · rw [reportForward_link, wiring.server, server]
      · rw [ShmRouterLink.ports, reportForward_link, wiring.ports]
        exact ports
      · exact start.forward ports discarded spec silent

theorem run_shmInv (wired : Wired (shmPorts topo.peers))
    (routes : RoutesTo rules ((shmPorts topo.peers).map Prod.fst)) {schedule : List ShmAct}
    (start : ShmInv rules topo s) (ran : run (shmStep rules) s schedule = some s') :
    ShmInv rules topo s' :=
  run_inv start (fun _ _ _ inv step => shmStep_inv wired routes inv step) ran

/-- A publish of at most `n` bytes, or another step. -/
def ShmAct.PublishesAtMost (n : Nat) : ShmAct → Prop
  | .publish _ msg => msg.length ≤ n
  | _ => True

instance (n : Nat) (a : ShmAct) : Decidable (a.PublishesAtMost n) := by
  cases a <;> unfold ShmAct.PublishesAtMost <;> infer_instance

/-- What was published is no longer than what the schedule publishes. -/
theorem published_length_le {n : Nat} {schedule : List ShmAct}
    (start : ∀ p, ∀ m ∈ s.published p, m.length ≤ n)
    (short : ∀ a ∈ schedule, a.PublishesAtMost n)
    (ran : run (shmStep rules) s schedule = some s') :
    ∀ p, ∀ m ∈ s'.published p, m.length ≤ n := by
  refine run_inv_of_allowed (I := fun s => ∀ p, ∀ m ∈ s.published p, m.length ≤ n) start short
    ?_ ran
  intro s a s' inv fits step
  cases shmStep_cases step with
  | @published peer msg _ _ _ _ _ =>
      intro p m mem
      by_cases here : p = peer
      · subst here
        simp only [Function.update_self] at mem
        rcases List.mem_append.mp mem with old | new
        · exact inv p m old
        · obtain rfl : m = msg := by simpa using new
          exact fits
      · simp only [Function.update_of_ne here] at mem
        exact inv p m mem
  | rejected | forwarded | popped | nothing | floorSet => exact inv

/-! ### End to end -/

/-- The rules of an accepted profile send to its peers, to each once and never
back to the source. -/
theorem route_wellFormed {t : LoadedTopology} (wellFormed : t.WellFormed) (a : Arrival) :
    (a.route t.routes).Nodup ∧ ∀ d ∈ a.route t.routes, peerExists t.peers d ∧ a.source ≠ d := by
  unfold Arrival.route
  split
  · refine ⟨?_, ?_⟩
    · cases found : firstMatch t.routes a.source (frameTopic a.message) with
      | none => simp [routedTo, found]
      | some rule =>
          simp only [routedTo, found, Option.elim]
          exact (wellFormed.routes rule (mem_of_firstMatch found).1).nodup
    · intro d mem
      obtain ⟨rule, inside, matched, listed, -⟩ := mem_routedTo mem
      have rules := wellFormed.routes rule inside
      refine ⟨rules.declared d listed, ?_⟩
      intro same
      rw [← matched.1] at same
      exact rules.no_self (same ▸ listed)
  · exact ⟨List.nodup_nil, by simp⟩

/-- All of a profile's peers are SHM peers. -/
def LoadedTopology.AllShm (t : LoadedTopology) : Prop :=
  ∀ p ∈ t.peers, p.localAddress.kind = .shmRing

/-- The SHM names of a profile are pairwise distinct. -/
def LoadedTopology.DistinctShmNames (t : LoadedTopology) : Prop :=
  ((shmPorts t.peers).map fun port => port.2.name).Nodup

instance (t : LoadedTopology) : Decidable t.AllShm :=
  inferInstanceAs (Decidable (∀ p ∈ t.peers, p.localAddress.kind = .shmRing))

instance (t : LoadedTopology) : Decidable t.DistinctShmNames :=
  inferInstanceAs (Decidable ((shmPorts t.peers).map fun port => port.2.name).Nodup)

theorem exists_port {t : LoadedTopology} (all : t.AllShm) {e : PeerEntry} (mem : e ∈ t.peers) :
    ∃ port ∈ shmPorts t.peers, port.1 = e.id ∧ port.2.params = ringParams e := by
  have kind := all e mem
  cases address : e.localAddress with
  | uds path => simp [address, PeerAddress.kind] at kind
  | udp endpoint => simp [address, PeerAddress.kind] at kind
  | shm name => exact ⟨_, mem_shmPorts.mpr ⟨e, mem, name, address, rfl⟩, rfl, rfl⟩

theorem routesTo_shmPorts {t : LoadedTopology} (wellFormed : t.WellFormed) (all : t.AllShm) :
    RoutesTo t.routes ((shmPorts t.peers).map Prod.fst) := by
  intro rule inside d listed
  obtain ⟨e, mem, rfl⟩ := (wellFormed.routes rule inside).declared d listed
  obtain ⟨port, declared, id, -⟩ := exists_port all mem
  exact List.mem_map.mpr ⟨port, declared, id⟩

/-- Every arrival was taken by a call of `forward` in the schedule, and bears the timestamp
that this call was made with. -/
theorem arrivals_clocked {schedule : List ShmAct} {s₀ : ShmSystem}
    (fresh : s₀.router.world.arrivals = [])
    (ran : run (shmStep rules) s₀ schedule = some s) {i : Nat} {a : Arrival}
    (arrived : s.router.world.arrivals[i]? = some a) : ∃ before scratch after,
      Takes (shmStep rules) s₀ schedule before (.forward scratch a.timestamp) after ∧
        before.router.world.arrivals.length ≤ i ∧ after.router.world.arrivals[i]? = some a := by
  have grows : ∀ s a next, shmStep rules s a = some next →
      s.router.world.arrivals <+: next.router.world.arrivals := by
    intro s a next stepped
    obtain ⟨taken, grown, -⟩ := shmStep_arrivals stepped
    exact ⟨taken, grown.symm⟩
  rcases run_log_origin grows ran arrived with old | ⟨before, act, after, takes, new, logged⟩
  · simp [fresh] at old
  · obtain ⟨taken, grown, clocked⟩ := shmStep_arrivals takes.stepped
    have mem : a ∈ taken := by
      rw [grown, List.getElem?_append_right new] at logged
      exact List.mem_of_getElem? logged
    obtain ⟨scratch, rfl⟩ := clocked a mem
    exact ⟨before, scratch, after, takes, new, logged⟩

/-- What end-to-end delivery means for peer `p` in a run of the schedule: the frames it
pops are, in order, among those the router received whose first matching rule lists `p`;
the messages received from `p` are a prefix of what it published; every message received
was taken by the call of `forward` whose timestamp it bears; and every popped frame is
another peer's published message with that peer's id and that timestamp. -/
structure DeliveredTo (rules : List RouteRule) (s₀ : ShmSystem) (schedule : List ShmAct)
    (s : ShmSystem) (p : UInt8) : Prop where
  popped : (s.popped p).Sublist (dueTo rules s.router.world.arrivals p)
  received : arrivedFrom s.router.world.arrivals p <+: s.published p
  clocked : ∀ i a, s.router.world.arrivals[i]? = some a → ∃ before scratch after,
    Takes (shmStep rules) s₀ schedule before (.forward scratch a.timestamp) after ∧
      before.router.world.arrivals.length ≤ i ∧ after.router.world.arrivals[i]? = some a
  origin : ∀ f ∈ s.popped p, ∃ a ∈ s.router.world.arrivals, a.source ≠ p ∧
    a.message ∈ s.published a.source ∧ a.message.length = kRouterFrameSize ∧
    f = stamped a.source a.timestamp a.message

/-- In every run of an accepted all-SHM profile with distinct names, delivery is
end to end. -/
theorem shm_end_to_end {root : TomlTable} {t : LoadedTopology} {mem : ShmMemory}
    {schedule : List ShmAct} {s₀ s : ShmSystem} (accepted : buildFrom root = .ok t)
    (all : t.AllShm) (names : t.DistinctShmNames) (booted : bootShm t.view mem = .ok s₀)
    (short : ∀ a ∈ schedule, a.PublishesAtMost kRouterFrameSize)
    (ran : run (shmStep t.routes) s₀ schedule = some s) :
    ∀ p ∈ t.peers, DeliveredTo t.routes s₀ schedule s p.id := by
  have wellFormed := buildFrom_wellFormed accepted
  have inv := run_shmInv (wired_shmPorts wellFormed names) (routesTo_shmPorts wellFormed all)
    (shmInv_boot names booted) ran
  have fits := published_length_le (n := kRouterFrameSize) (s := s₀)
    (by simp [(bootShm_eq booted).2.2.1]) short ran
  -- No published message was cut, so what arrived is a prefix of what was published.
  have received : ∀ p ∈ t.peers,
      arrivedFrom s.router.world.arrivals p.id <+: s.published p.id := by
    intro p mem
    obtain ⟨port, inside, id, params⟩ := exists_port all mem
    obtain ⟨req, -, -, requests, -⟩ := inv.rings port inside
    have capacity : kRouterFrameSize ≤ port.2.params.maxPayload := by
      rw [params]
      exact le_maxPayload (wellFormed.peers p mem)
    have uncut : ∀ m ∈ s.published p.id, cut port.2.params m = m := fun m published =>
      cut_eq_self (Nat.le_trans (fits p.id m published) capacity)
    rw [id, List.map_congr_left uncut, List.map_id'] at requests
    exact requests ▸ List.prefix_append _ _
  intro p mem
  obtain ⟨port, inside, id, -⟩ := exists_port all mem
  obtain ⟨-, rep, -, -, replies⟩ := inv.rings port inside
  have due : (s.popped p.id).Sublist (dueTo t.routes s.router.world.arrivals p.id) := by
    have shared := share_sublist inv.router.handed p.id
    rw [deliveries, share_copies (fun a _ => (route_wellFormed wellFormed a).1), ← id,
      replies] at shared
    rw [← id]
    exact (List.sublist_append_left _ _).trans shared
  have unused : s₀.router.world.arrivals = [] := by rw [(bootShm_eq booted).2.1]
  refine ⟨due, received p mem, fun i a arrived => arrivals_clocked unused ran arrived, ?_⟩
  intro f popped
  obtain ⟨a, listed, rfl⟩ := List.mem_map.mp (due.subset popped)
  simp only [List.mem_filter, decide_eq_true_eq] at listed
  obtain ⟨arrived, routed⟩ := listed
  have whole := whole_of_routed routed
  obtain ⟨source, declared, sourceId⟩ := List.mem_map.mp (inv.router.sources a arrived)
  obtain ⟨e, peer, name, -, rfl⟩ := mem_shmPorts.mp declared
  refine ⟨a, arrived, ((route_wellFormed wellFormed a).2 p.id routed).2, ?_, whole, rfl⟩
  rw [← sourceId]
  refine (received e peer).subset (List.mem_map.mpr ⟨a, ?_, rfl⟩)
  simp [arrived, ← sourceId]

/-- Load a profile, bind its SHM router and run a schedule. -/
def runShm (root : TomlTable) (schedule : List ShmAct) : Option ShmSystem := do
  let t ← (buildFrom root).toOption
  let s₀ ← (bootShm t.view noShm).toOption
  run (shmStep t.routes) s₀ schedule

theorem runShm_eq_some {root : TomlTable} {schedule : List ShmAct} :
    runShm root schedule = some s ↔ ∃ t s₀, buildFrom root = .ok t ∧ bootShm t.view noShm = .ok s₀ ∧
      run (shmStep t.routes) s₀ schedule = some s := by
  unfold runShm
  cases buildFrom root with
  | error e => simp [Except.toOption]
  | ok t => cases booted : bootShm t.view noShm <;> simp [Except.toOption, booted]

/-- Two SHM peers with one-slot rings; what peer 1 publishes goes to peer 2. -/
def shmPair : TomlTable :=
  profile "shm:/router" [peerTable 1 "a" "shm:/a" (smallRing 1),
    peerTable 2 "b" "shm:/b" (smallRing 1)] [routeTable 1 2]

/-- The sizing of its rings. -/
def oneFrame : RingParams := .oneSlot 64 (by decide)

/-- A short message and a frame that claims to be from peer 9. -/
def shmPairSchedule : List ShmAct :=
  [.publish 1 [7, 7], .forward .zero 4, .publish 1 (9 :: List.replicate 63 5), .forward .zero 8,
    .pop 2]

theorem shm_end_to_end_pair : ∃ t s₀ s, buildFrom shmPair = .ok t ∧
    bootShm t.view noShm = .ok s₀ ∧ run (shmStep t.routes) s₀ shmPairSchedule = some s ∧
    s.popped 2 = [stamped 1 8 (9 :: List.replicate 63 5)] ∧
    ∀ p ∈ t.peers, DeliveredTo t.routes s₀ shmPairSchedule s p.id := by
  have shape : ∀ t ∈ (buildFrom shmPair).toOption, t.AllShm ∧ t.DistinctShmNames := by
    decide +kernel
  have outcome : ((runShm shmPair shmPairSchedule).map fun s => s.popped 2) =
      some [stamped 1 8 (9 :: List.replicate 63 5)] := by decide +kernel
  obtain ⟨s, ran, popped⟩ := Option.map_eq_some_iff.mp outcome
  obtain ⟨t, s₀, accepted, booted, ran⟩ := runShm_eq_some.mp ran
  obtain ⟨all, names⟩ := shape t (by simp [accepted, Except.toOption])
  exact ⟨t, s₀, s, accepted, booted, ran, popped,
    shm_end_to_end accepted all names booted (by decide) ran⟩

end RoboticsIpc
