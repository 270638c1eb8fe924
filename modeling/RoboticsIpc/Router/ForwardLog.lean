import RoboticsIpc.Lib.Tally
import RoboticsIpc.Router.ShmDelivery

/-!
The calls of `forward` in a run, one record each.

A record holds what the call returned, the frame it left in the scratch buffer and the
peers that got a copy. `LogInv` relates the records to the router's counters and logs:
what was offered to a peer is what was due to it, and each offer was either handed over
or counted as dropped, in the aggregate and in both breakdowns.
-/

namespace RoboticsIpc

open ByteBuffer Checked FanOut ShmSpsc StepRun Tally

/-! ### Records -/

structure ForwardRecord where
  result : ForwardResult
  frame : Bytes
  admitted : List UInt8

/-- The record of a call that returned, from the states before and after it. -/
def recordOf (before : ShmState) (r : Outcome ShmState ForwardResult) : List ForwardRecord :=
  match r.result with
  | .error _ => []
  | .ok fwd => [{ result := fwd, frame := r.state.frame.bytes,
                  admitted := (r.state.world.handed.drop before.world.handed.length).map Prod.fst }]

structure LoggedSystem where
  system : ShmSystem
  log : List ForwardRecord := []

/-- What a step adds to the log. -/
def callLog (rules : List RouteRule) (s : ShmSystem) : ShmAct → List ForwardRecord
  | .forward scratch ts =>
      let router : ShmState := { s.router with frame := scratch }
      recordOf router (router.forward ts rules)
  | _ => []

def loggedStep (rules : List RouteRule) (s : LoggedSystem) (act : ShmAct) : Option LoggedSystem :=
  (shmStep rules s.system act).map fun next =>
    { system := next, log := s.log ++ callLog rules s.system act }

/-! ### Offers -/

/-- What a call offered to `d`: the frame, and whether it was admitted. -/
def ForwardRecord.offer (d : UInt8) (r : ForwardRecord) : Option (Bytes × Bool) :=
  if d ∈ r.result.targets.list then some (r.frame, decide (d ∈ r.admitted)) else none

/-- Everything offered to `d`, in order. -/
def offersTo (d : UInt8) (log : List ForwardRecord) : List (Bytes × Bool) :=
  log.filterMap (ForwardRecord.offer d)

/-- How often `d` was a target. -/
def timesTarget (d : UInt8) (log : List ForwardRecord) : Nat :=
  (log.flatMap fun r => r.result.targets.list).count d

theorem offersTo_append {d : UInt8} {before after : List ForwardRecord} :
    offersTo d (before ++ after) = offersTo d before ++ offersTo d after :=
  List.filterMap_append

theorem timesTarget_append {d : UInt8} {before after : List ForwardRecord} :
    timesTarget d (before ++ after) = timesTarget d before + timesTarget d after := by
  simp [timesTarget, List.flatMap_append, List.count_append]

/-! ### Counters of one send -/

/-- The aggregate of the drops is the sum of each of its breakdowns. -/
structure ShmRouterMetrics.Balanced (m : ShmRouterMetrics) : Prop where
  perPeer : m.droppedFull = total (byteKeys 256) m.droppedFullPerPeer
  byPriority : m.droppedFull = total (byteKeys 8) m.droppedByPriority

/-- A frame's priority has three bits. -/
theorem priorityFromFrame_lt (payload : Bytes) : (priorityFromFrame payload).toNat < 8 := by
  unfold priorityFromFrame
  split
  · decide
  · rw [framePriority, UInt8.toNat_shiftRight, UInt8.toNat_and, Nat.shiftRight_eq_div_pow]
    have masked : (frameFlags payload).toNat &&& kFlagPriorityMask.toNat ≤ kFlagPriorityMask.toNat :=
      Nat.and_le_right
    have mask : kFlagPriorityMask.toNat < 8 * 2 ^ (kFlagPriorityShift.toNat % 8) := by decide
    exact Nat.div_lt_of_lt_mul (by omega)

theorem ShmRouterMetrics.Balanced.recordDrop {m : ShmRouterMetrics} (balanced : m.Balanced)
    (dest : UInt8) (payload : Bytes) :
    (m.recordDrop dest (priorityFromFrame payload)).Balanced := by
  constructor
  · have one := total_bump (nodup_byteKeys (Nat.le_refl 256)) m.droppedFullPerPeer
      (mem_byteKeys dest.toNat_lt)
    exact (congrArg (· + 1) balanced.perPeer).trans one.symm
  · have one := total_bump (nodup_byteKeys (by decide)) m.droppedByPriority
      (mem_byteKeys (priorityFromFrame_lt payload))
    exact (congrArg (· + 1) balanced.byPriority).trans one.symm

theorem sendToPeer_balanced {s : ShmState} {dest : UInt8} {c : PeerChannel}
    (found : s.link.channelTo dest = some c) (payload : Bytes) (balanced : s.link.metrics.Balanced) :
    (s.sendToPeer dest payload).state.link.metrics.Balanced := by
  rcases sendToPeer_cases payload found with ⟨-, eq⟩ | ⟨-, mem, -, eq⟩ | ⟨-, mem, -, eq⟩
  · rw [eq]
    exact balanced.recordDrop dest payload
  · rw [eq]
    exact ⟨balanced.perPeer, balanced.byPriority⟩
  · rw [eq]
    exact balanced.recordDrop dest payload

theorem sendAll_balanced {s s' : ShmState} {dests : List UInt8} {payload : Bytes}
    (declared : ∀ d ∈ dests, d ∈ s.link.ports.map Prod.fst) (balanced : s.link.metrics.Balanced)
    (sent : forEach (fun s dest => s.sendToPeer dest payload) dests s = ⟨s', .ok ()⟩) :
    s'.link.metrics.Balanced := by
  induction dests generalizing s with
  | nil =>
      cases sent
      exact balanced
  | cons d rest ih =>
      obtain ⟨c, found⟩ := channelTo_of_mem_ports (declared d List.mem_cons_self)
      obtain ⟨mid, kept, first, spec⟩ := sendToPeer_spec (declared d List.mem_cons_self)
        (pushPreserves_true s.link.ports payload) trivial
      have one := sendToPeer_balanced found payload balanced
      rw [first] at one
      simp only [forEach, first] at sent
      have ports : mid.link.ports = s.link.ports := spec.wiring.ports
      exact ih (fun e mem => by rw [ports]; exact declared e (List.mem_cons_of_mem d mem)) one sent

/-! ### The log against the router -/

/-- The records against the router's counters and its logs of what arrived and was handed. -/
structure LogInv (rules : List RouteRule) (s : ShmState) (log : List ForwardRecord) : Prop where
  counted : s.link.metrics.forwarded + s.link.metrics.droppedFull =
    (log.map fun r => r.result.targets.count).sum
  balanced : s.link.metrics.Balanced
  offered : ∀ d, (offersTo d log).map Prod.fst = dueTo rules s.world.arrivals d
  admitted : ∀ d, ((offersTo d log).filter Prod.snd).map Prod.fst = share s.world.handed d
  accounted : ∀ d, s.link.metrics.droppedFullPerPeer d + (share s.world.handed d).length =
    timesTarget d log
  once : ∀ d, timesTarget d log = (offersTo d log).length

variable {rules : List RouteRule} {ts : UInt64}

/-- The records are about the counters, what arrived and what was handed over. -/
theorem LogInv.of_same {s s' : ShmState} {log : List ForwardRecord} (inv : LogInv rules s log)
    (metrics : s'.link.metrics = s.link.metrics) (arrivals : s'.world.arrivals = s.world.arrivals)
    (handed : s'.world.handed = s.world.handed) : LogInv rules s' log := by
  obtain ⟨counted, balanced, offered, admitted, accounted, once⟩ := inv
  rw [← metrics] at counted balanced accounted
  rw [← arrivals] at offered
  rw [← handed] at admitted accounted
  exact ⟨counted, balanced, offered, admitted, accounted, once⟩

/-- Rules that list each destination once, and no more than fit. -/
def FanOutRules (rules : List RouteRule) : Prop :=
  ∀ rule ∈ rules, rule.dests.Nodup ∧ rule.destCount.toNat ≤ kMaxRouteDests

/-- The rules of an accepted profile are such. -/
theorem fanOutRules_of_wellFormed {t : LoadedTopology} (wellFormed : t.WellFormed) :
    FanOutRules t.routes := fun rule mem =>
  ⟨(wellFormed.routes rule mem).nodup, (wellFormed.routes rule mem).count_le⟩

theorem FanOutRules.routed_nodup (fanOut : FanOutRules rules) (source : UInt8) (topicId : UInt16) :
    (routedTo rules source topicId).Nodup := by
  rw [routedTo]
  cases found : firstMatch rules source topicId with
  | none => exact List.nodup_nil
  | some rule => exact (fanOut rule (mem_of_firstMatch found).1).1

theorem FanOutRules.count_eq (fanOut : FanOutRules rules) (source : UInt8) (topicId : UInt16) :
    (routeTargetsFor rules source topicId).count = (routedTo rules source topicId).length := by
  rw [← routeTargetsFor_list, RouteTargets.list, List.length_take, Vector.length_toList,
    routeTargetsFor_eq]
  cases found : firstMatch rules source topicId with
  | none => rfl
  | some rule => exact (Nat.min_eq_left (fanOut rule (mem_of_firstMatch found).1).2).symm

theorem dueTo_append {before after : List Arrival} (d : UInt8) :
    dueTo rules (before ++ after) d = dueTo rules before d ++ dueTo rules after d := by
  simp [dueTo, delivered, List.filter_append]

theorem dueTo_eq_nil {arrivals : List Arrival} (silent : ∀ a ∈ arrivals, a.route rules = [])
    (d : UInt8) : dueTo rules arrivals d = [] := by
  rw [dueTo, delivered, List.map_eq_nil_iff, List.filter_eq_nil_iff]
  intro a mem
  simp [silent a mem]

/-- A call that hands nothing on: its records are for no one. -/
theorem LogInv.idle {s s' : ShmState} {log record : List ForwardRecord} {shorts : List Arrival}
    (inv : LogInv rules s log) (silent : ∀ a ∈ shorts, a.route rules = [])
    (arrivals : s'.world.arrivals = s.world.arrivals ++ shorts)
    (handed : s'.world.handed = s.world.handed)
    (forwarded : s'.link.metrics.forwarded = s.link.metrics.forwarded)
    (dropped : s'.link.metrics.droppedFull = s.link.metrics.droppedFull)
    (perPeer : s'.link.metrics.droppedFullPerPeer = s.link.metrics.droppedFullPerPeer)
    (byPriority : s'.link.metrics.droppedByPriority = s.link.metrics.droppedByPriority)
    (empty : ∀ r ∈ record, r.result.targets = {}) : LogInv rules s' (log ++ record) := by
  have none : ∀ d, offersTo d record = [] := by
    intro d
    apply List.filterMap_eq_nil_iff.mpr
    intro r mem
    simp [ForwardRecord.offer, empty r mem, RouteTargets.list]
  have zero : (record.map fun r => r.result.targets.count).sum = 0 := by
    apply List.sum_eq_zero
    intro n mem
    obtain ⟨r, inside, rfl⟩ := List.mem_map.mp mem
    rw [empty r inside]
  have never : ∀ d, timesTarget d record = 0 := by
    intro d
    apply List.count_eq_zero.mpr
    simp only [List.mem_flatMap, not_exists, not_and]
    intro r mem
    simp [empty r mem, RouteTargets.list]
  obtain ⟨counted, balanced, offered, admitted, accounted, once⟩ := inv
  refine ⟨?_, ?_, ?_, ?_, ?_, ?_⟩
  · rw [forwarded, dropped, counted, List.map_append, List.sum_append, zero, Nat.add_zero]
  · exact ⟨by rw [dropped, perPeer]; exact balanced.perPeer,
      by rw [dropped, byPriority]; exact balanced.byPriority⟩
  · intro d
    rw [offersTo_append, none, List.append_nil, arrivals, dueTo_append, dueTo_eq_nil silent,
      List.append_nil]
    exact offered d
  · intro d
    rw [offersTo_append, none, List.append_nil, handed]
    exact admitted d
  · intro d
    rw [timesTarget_append, never, perPeer, handed]
    exact accounted d
  · intro d
    rw [timesTarget_append, never, offersTo_append, none, List.append_nil]
    exact once d

/-- The offers of a call that sent `frame` to `dests`, of which `kept` took it. -/
theorem offersTo_singleton {record : ForwardRecord} {dests : List UInt8}
    (targets : record.result.targets.list = dests) (d : UInt8) :
    offersTo d [record] =
      if d ∈ dests then [(record.frame, decide (d ∈ record.admitted))] else [] := by
  rw [offersTo, List.filterMap_cons, List.filterMap_nil, ForwardRecord.offer, targets]
  split <;> simp_all

/-- A call that sends a whole frame on. -/
theorem LogInv.routed {s mid final : ShmState} {log : List ForwardRecord} {shorts : List Arrival}
    {source : UInt8} {msg : Bytes} {kept : List UInt8} {record : ForwardRecord}
    (fanOut : FanOutRules rules) (inv : LogInv rules s log)
    (silent : ∀ a ∈ shorts, a.route rules = []) (whole : msg.length = kRouterFrameSize)
    (arrivals : final.world.arrivals = s.world.arrivals ++ (shorts ++ [⟨source, msg, ts⟩]))
    (handedMid : mid.world.handed = s.world.handed)
    (metricsMid : mid.link.metrics = (s.link.withTruncated shorts.length).metrics)
    (spec : SendSpec (fun _ => True) (stamped source ts msg)
      (routedTo rules source (frameTopic msg)) kept mid final)
    (stays : mid.link.metrics.Balanced → final.link.metrics.Balanced)
    (result : record.result.targets = routeTargetsFor rules source (frameTopic msg))
    (frame : record.frame = stamped source ts msg) (admittedBy : record.admitted = kept) :
    LogInv rules final (log ++ [record]) := by
  obtain ⟨counted, balanced, offered, admitted, accounted, once⟩ := inv
  have distinct := fanOut.routed_nodup source (frameTopic msg)
  have list : record.result.targets.list = routedTo rules source (frameTopic msg) := by
    rw [result, routeTargetsFor_list]
  have offers := offersTo_singleton list
  rw [frame, admittedBy] at offers
  have route : Arrival.route rules ⟨source, msg, ts⟩ = routedTo rules source (frameTopic msg) :=
    Arrival.route_of_whole whole
  have times : ∀ d, timesTarget d [record] =
      (routedTo rules source (frameTopic msg)).count d := by
    intro d
    simp [timesTarget, list]
  refine ⟨?_, ?_, ?_, ?_, ?_, ?_⟩
  · have forwarded := spec.forwarded
    have dropped := spec.dropped
    rw [metricsMid] at forwarded dropped
    simp only [ShmRouterLink.withTruncated] at forwarded dropped
    rw [List.map_append, List.sum_append, ← counted, List.map_singleton, List.sum_singleton, result,
      fanOut.count_eq]
    omega
  · apply stays
    rw [metricsMid]
    exact ⟨balanced.perPeer, balanced.byPriority⟩
  · intro d
    rw [offersTo_append, List.map_append, offered, arrivals, dueTo_append, dueTo_append,
      dueTo_eq_nil silent, List.nil_append, offers]
    congr 1
    simp only [dueTo, delivered, List.filter_cons, List.filter_nil, route, decide_eq_true_eq]
    split
    · rfl
    · rfl
  · intro d
    rw [offersTo_append, List.filter_append, List.map_append, admitted, spec.handed, handedMid,
      share_append, share_map (spec.kept_sub.nodup distinct), offers]
    congr 1
    by_cases taken : d ∈ kept
    · rw [if_pos (spec.kept_sub.subset taken), if_pos taken]
      simp [taken]
    · rw [if_neg taken]
      split
      · simp [taken]
      · rfl
  · intro d
    have one := spec.perPeer d
    have before := accounted d
    rw [metricsMid] at one
    simp only [ShmRouterLink.withTruncated] at one
    rw [timesTarget_append, times, spec.handed, handedMid, share_append, List.length_append,
      length_share_map]
    omega
  · intro d
    rw [timesTarget_append, times, once, offersTo_append, List.length_append, offers,
      distinct.count]
    split <;> rfl

/-- A receive that ends without a frame has discarded what it took. -/
theorem ScanSpec.arrivals_idle {J : World → Prop} {channels : List PeerChannel}
    {s mid : ShmState} {result : Except RuntimeError UInt8} {shorts : List Arrival}
    (scan : ScanSpec J ts channels s ⟨mid, result⟩ shorts)
    (noFrame : ∀ c ∈ channels, result ≠ .ok c.peerId) :
    mid.world.arrivals = s.world.arrivals ++ shorts := by
  cases scan.result with
  | empty _ arrivals => exact arrivals
  | thrown _ _ arrivals => exact arrivals
  | frame channel inside _ isSource _ _ _ => exact absurd isSource (noFrame channel inside)

/-- A receive that names a source has stamped that source's frame. -/
theorem ScanSpec.arrived {J : World → Prop} {channels : List PeerChannel} {s mid : ShmState}
    {source : UInt8} {shorts : List Arrival}
    (scan : ScanSpec J ts channels s ⟨mid, .ok source⟩ shorts) (valid : source ≠ kEndpointInvalid) :
    ∃ msg, msg.length = kRouterFrameSize ∧ mid.frame.bytes = stamped source ts msg ∧
      mid.world.arrivals = s.world.arrivals ++ (shorts ++ [⟨source, msg, ts⟩]) := by
  cases scan.result with
  | empty isInvalid _ => exact absurd (Except.ok.inj isInvalid) valid
  | thrown _ isError _ => cases isError
  | frame channel _ msg isSource arrivals whole stamp =>
      obtain rfl := Except.ok.inj isSource
      exact ⟨msg, whole, stamp, arrivals⟩

/-- Every call of `forward` keeps its records in step with the router. -/
theorem LogInv.forward {s : ShmState} {log : List ForwardRecord} (inv : LogInv rules s log)
    (ts : UInt64) (fanOut : FanOutRules rules) (server : s.link.isServer = true)
    (ids : kEndpointInvalid ∉ s.link.ports.map Prod.fst)
    (routes : RoutesTo rules (s.link.ports.map Prod.fst)) :
    LogInv rules (s.forward ts rules).state (log ++ recordOf s (s.forward ts rules)) := by
  obtain ⟨shorts, scan⟩ := tryReceive_spec s ts
  have silent : ∀ a ∈ shorts, a.route rules = [] := scan.discarded.route_nil
  have known : ∀ c ∈ s.link.peerChannels, c.peerId ≠ kEndpointInvalid := by
    intro c inside invalid
    apply ids
    rw [← invalid, ShmRouterLink.ports, List.map_map]
    exact List.mem_map.mpr ⟨c, inside, rfl⟩
  have cases := forward_cases ts rules server
  generalize s.forward ts rules = r at cases ⊢
  cases cases with
  | @thrown mid e received =>
      rw [received] at scan
      have link : mid.link = s.link.withTruncated shorts.length := scan.link
      have arrivals := scan.arrivals_idle (by intro c _ same; cases same)
      refine inv.idle silent arrivals scan.handed ?_ ?_ ?_ ?_ (by intro record mem; cases mem) <;>
        simp only [link, ShmRouterLink.withTruncated]
  | @nothing mid received =>
      rw [received] at scan
      have link : mid.link = s.link.withTruncated shorts.length := scan.link
      have arrivals := scan.arrivals_idle fun c inside same =>
        known c inside (Except.ok.inj same).symm
      refine inv.idle silent arrivals scan.handed ?_ ?_ ?_ ?_ ?_
      · simp only [ShmState.countEmpty, link, ShmRouterLink.withTruncated]
      · simp only [ShmState.countEmpty, link, ShmRouterLink.withTruncated]
      · simp only [ShmState.countEmpty, link, ShmRouterLink.withTruncated]
      · simp only [ShmState.countEmpty, link, ShmRouterLink.withTruncated]
      · intro record mem
        obtain rfl := List.mem_singleton.mp mem
        rfl
  | @sent mid final source received valid sends =>
      rw [received] at scan
      obtain ⟨msg, whole, stamp, arrivals⟩ := scan.arrived valid
      have link : mid.link = s.link.withTruncated shorts.length := scan.link
      have ports : mid.link.ports = s.link.ports := by rw [link]; rfl
      have topic : mid.frame.topicId = frameTopic msg := by
        rw [RouterFrame.topicId, stamp, frameTopic_stamped whole]
      rw [topic, routeTargetsFor_list, stamp] at sends
      have declared : ∀ d ∈ routedTo rules source (frameTopic msg),
          d ∈ mid.link.ports.map Prod.fst := by
        rw [ports]
        exact routes.routedTo source (frameTopic msg)
      obtain ⟨final', kept, sent, spec⟩ := sendAll_spec declared
        (pushPreserves_true mid.link.ports (stamped source ts msg)) trivial
      obtain ⟨rfl, -⟩ := Outcome.mk.inj (sends.symm.trans sent)
      refine inv.routed fanOut silent whole ?_ scan.handed (by rw [link]) spec
        (fun balanced => sendAll_balanced declared balanced sends) ?_ ?_ ?_
      · rw [spec.arrivals, arrivals]
      · simp only [topic]
      · rw [spec.frame, stamp]
      · rw [spec.handed, show mid.world.handed = s.world.handed from scan.handed, List.drop_left,
          List.map_map]
        exact List.map_id'' (fun _ => rfl) kept
  | @failed mid final source e received valid sends =>
      rw [received] at scan
      have link : mid.link = s.link.withTruncated shorts.length := scan.link
      have ports : mid.link.ports = s.link.ports := by rw [link]; rfl
      obtain ⟨final', kept, sent, -⟩ := sendTargets_spec source (by rwa [ports])
        (pushPreserves_true mid.link.ports mid.frame.bytes) trivial
      cases (Outcome.mk.inj (sends.symm.trans sent)).2

/-! ### Runs -/

/-- What a logged run keeps. -/
structure LoggedInv (rules : List RouteRule) (topo : RouterTopology) (s : LoggedSystem) : Prop where
  sameTopo : s.system.router.link.topo = topo
  server : s.system.router.link.isServer = true
  ports : s.system.router.link.ports = shmPorts topo.peers
  log : LogInv rules s.system.router s.log

variable {topo : RouterTopology}

theorem loggedInv_boot {mem : ShmMemory} {s : ShmSystem} (booted : bootShm topo mem = .ok s) :
    LoggedInv rules topo { system := s } := by
  obtain ⟨link, world, -, -⟩ := bootShm_eq booted
  refine ⟨by rw [link]; rfl, by rw [link]; rfl, bootShm_ports booted, ?_, ?_, ?_, ?_, ?_, ?_⟩
  · rw [link]
    rfl
  · rw [link]
    exact ⟨(total_zero _).symm, (total_zero _).symm⟩
  · intro d
    rw [world]
    rfl
  · intro d
    rw [world]
    rfl
  · intro d
    rw [link, world]
    rfl
  · intro d
    rfl

theorem LoggedInv.step {s s' : LoggedSystem} {act : ShmAct} (fanOut : FanOutRules rules)
    (noInvalid : kEndpointInvalid ∉ (shmPorts topo.peers).map Prod.fst)
    (routes : RoutesTo rules ((shmPorts topo.peers).map Prod.fst))
    (inv : LoggedInv rules topo s) (stepped : loggedStep rules s act = some s') :
    LoggedInv rules topo s' := by
  obtain ⟨sameTopo, server, ports, log⟩ := inv
  obtain ⟨next, step, rfl⟩ := Option.map_eq_some_iff.mp stepped
  have router := shmStep_router step
  have elsewhere : ∀ {mem : ShmMemory}, next.router =
      { s.system.router with world := { s.system.router.world with mem } } →
      LoggedInv rules topo { system := next, log := s.log ++ [] } := by
    intro mem same
    rw [List.append_nil]
    refine ⟨?_, ?_, ?_, ?_⟩ <;> simp only [same]
    · exact sameTopo
    · exact server
    · exact ports
    · exact log.of_same rfl rfl rfl
  cases act with
  | publish peer msg =>
      obtain ⟨mem, same⟩ := router
      exact elsewhere same
  | pop peer =>
      obtain ⟨mem, same⟩ := router
      exact elsewhere same
  | setFloor floor =>
      have none : callLog rules s.system (.setFloor floor) = [] := rfl
      rw [none, List.append_nil]
      refine ⟨?_, ?_, ?_, ?_⟩ <;> simp only [router]
      · exact sameTopo
      · exact server
      · exact ports
      · exact log.of_same rfl rfl rfl
  | forward scratch ts =>
      have start : LogInv rules { s.system.router with frame := scratch } s.log :=
        log.of_same rfl rfl rfl
      have after := start.forward ts fanOut server (by rw [ShmRouterLink.ports] at *; rwa [ports])
        (by rw [ShmRouterLink.ports] at *; rwa [ports])
      obtain ⟨-, -, -, -, -, -, wiring⟩ := forward_spec (J := fun _ => True)
        (s := { s.system.router with frame := scratch }) ts rules server
        (by simp only [ports]; exact noInvalid) (by simp only [ports]; exact routes)
        (popPreserves_true _ _) (fun payload _ => pushPreserves_true _ payload) trivial
      refine ⟨?_, ?_, ?_, ?_⟩ <;> simp only [router]
      · rw [reportForward_link, wiring.topo]
        exact sameTopo
      · rw [reportForward_link, wiring.server]
        exact server
      · rw [ShmRouterLink.ports, reportForward_link, wiring.ports]
        exact ports
      · exact after.of_same (by rw [reportForward_link]) (by rw [reportForward_arrivals])
          (by rw [reportForward_handed])

end RoboticsIpc
