import Mathlib.Algebra.BigOperators.Group.Finset.Piecewise
import Mathlib.Algebra.Order.BigOperators.Group.Finset
import RoboticsIpc.Router.ShmDelivery

/-!
Progress of an SHM router over rings that hold arbitrary messages.

Peers have queued messages of any length and publish nothing more. As long as no
queued message is longer than a frame, every `forward` takes at least one, and
after as many calls as there were messages all request rings are empty. A longer
message is never consumed: the pop throws on it, and the next scan starts at the
first channel again (`drains_iff`).
-/

namespace RoboticsIpc

open ByteBuffer Checked FanOut ShmSpsc StepRun Toml

/-! ### What was taken from a region -/

/-- The region of a peer's channel. -/
def regionOf (ports : List Port) (id : UInt8) : Option CStr :=
  (ports.find? fun port => port.1 = id).map fun port => port.2.name

/-- The messages that came off region `name`, in order. -/
def takenFrom (ports : List Port) (arrivals : List Arrival) (name : CStr) : List Bytes :=
  (arrivals.filter fun a => regionOf ports a.source = some name).map (·.message)

variable {ports : List Port} {arrivals : List Arrival} {name : CStr}

theorem takenFrom_append {before after : List Arrival} :
    takenFrom ports (before ++ after) name =
      takenFrom ports before name ++ takenFrom ports after name := by
  simp [takenFrom, List.filter_append]

theorem takenFrom_singleton {a : Arrival} :
    takenFrom ports [a] name =
      if regionOf ports a.source = some name then [a.message] else [] := by
  unfold takenFrom
  by_cases here : regionOf ports a.source = some name <;> simp [here]

theorem regionOf_of_mem (ids : (ports.map Prod.fst).Nodup) {port : Port} (mem : port ∈ ports) :
    regionOf ports port.1 = some port.2.name := by
  have found := find?_eq_some_of_key Prod.fst ids mem
  have same : ports.find? (fun p => p.1 = port.1) = some port := by
    rw [← found]
    congr 1
  rw [regionOf, same]
  rfl

/-- The regions of a list of ports. -/
def regions (ports : List Port) : Finset CStr := (ports.map fun port => port.2.name).toFinset

/-- Every arrival came off exactly one region. -/
theorem sum_takenFrom (known : ∀ a ∈ arrivals, ∃ n ∈ regions ports,
      regionOf ports a.source = some n) :
    ∑ n ∈ regions ports, (takenFrom ports arrivals n).length = arrivals.length := by
  induction arrivals with
  | nil => simp [takenFrom]
  | cons a rest ih =>
      obtain ⟨n, inside, region⟩ := known a (List.mem_cons_self ..)
      have tail := ih fun b mem => known b (List.mem_cons_of_mem a mem)
      have split : ∀ n', (takenFrom ports (a :: rest) n').length =
          (if n = n' then 1 else 0) + (takenFrom ports rest n').length := by
        intro n'
        rw [← List.singleton_append, takenFrom_append, takenFrom_singleton, region]
        by_cases same : n = n' <;> simp [same]
        omega
      rw [Finset.sum_congr rfl fun n' _ => split n', Finset.sum_add_distrib, Finset.sum_ite_eq,
        if_pos inside, tail, List.length_cons]
      omega

/-! ### Queued messages -/

/-- What the queues `q` of the regions look like after some messages have been taken. -/
structure QueuedInv (ports : List Port) (q : CStr → List Bytes) (w : World) : Prop where
  queues : ∀ port ∈ ports, ∃ left, Live port.2.params (w.mem port.2.name).req left ∧
    takenFrom ports w.arrivals port.2.name ++ left = q port.2.name
  sources : ∀ a ∈ w.arrivals, ∃ n ∈ regions ports, regionOf ports a.source = some n
  lengths : ∀ a ∈ w.arrivals, a.message.length ≤ kRouterFrameSize

/-- Nothing is left to receive. -/
def AllEmpty (ports : List Port) (w : World) : Prop :=
  ∀ port ∈ ports, (w.mem port.2.name).req.head = (w.mem port.2.name).req.tail

variable {q : CStr → List Bytes}

theorem QueuedInv.pop {ts : UInt64} {channels : List PeerChannel}
    (server : ∀ port ∈ ports, port.2.isServerRole = true) (ids : (ports.map Prod.fst).Nodup)
    (sub : ∀ c ∈ channels, (c.peerId, c.endpoint) ∈ ports) :
    PopPreserves (QueuedInv ports q) ts channels := by
  intro c mem w msg mem' inv received
  have inside := sub c mem
  have region : regionOf ports c.peerId = some c.endpoint.name := regionOf_of_mem ids inside
  have bound := length_of_tryRecv received
  obtain ⟨left, live, taken⟩ := inv.queues _ inside
  obtain ⟨id, ⟨name, p, role⟩, flag⟩ := c
  obtain rfl : role = true := server _ inside
  simp only at live region taken received
  cases left with
  | nil =>
      rw [live.recv_empty] at received
      cases received
  | cons m rest =>
      have fits : m.length ≤ kRouterFrameSize := by
        by_contra long
        rw [live.recv_too_small (Nat.not_le.mp long)] at received
        cases received
      rw [live.recv_cons fits] at received
      cases received
      refine ⟨?_, ?_, ?_⟩
      · intro port declared
        obtain ⟨left', live', taken'⟩ := inv.queues port declared
        simp only [takenFrom_append, takenFrom_singleton, region]
        by_cases here : port.2.name = name
        · -- Every handle on this region sees its oldest message gone.
          rw [here] at live' taken' ⊢
          have same : left' = msg :: rest := List.append_cancel_left (taken'.trans taken.symm)
          subst same
          refine ⟨rest, ?_, ?_⟩
          · simpa [takeRequest] using live'.popped
          · rw [← taken]
            simp
        · refine ⟨left', ?_, ?_⟩
          · simpa [takeRequest, Function.update_of_ne here] using live'
          · rw [if_neg (fun same => here (Option.some.inj same).symm), List.append_nil]
            exact taken'
      · intro a arrived
        rcases List.mem_append.mp arrived with old | new
        · exact inv.sources a old
        · obtain rfl : a = ⟨id, msg, ts⟩ := by simpa using new
          exact ⟨name, List.mem_toFinset.mpr (List.mem_map.mpr ⟨_, inside, rfl⟩), region⟩
      · intro a arrived
        rcases List.mem_append.mp arrived with old | new
        · exact inv.lengths a old
        · obtain rfl : a = ⟨id, msg, ts⟩ := by simpa using new
          exact bound

theorem QueuedInv.push (server : ∀ port ∈ ports, port.2.isServerRole = true) (payload : Bytes) :
    PushPreserves (QueuedInv ports q) ports payload := by
  intro port inside w mem' inv
  have keep : ∀ ok, trySend port.2 w.mem payload = (mem', ok) → ∀ handed,
      QueuedInv ports q { w with mem := mem', handed := handed } := by
    intro ok sent handed
    obtain ⟨id, name, p, role⟩ := port
    obtain rfl : role = true := server _ inside
    refine ⟨?_, inv.sources, inv.lengths⟩
    intro other declared
    obtain ⟨left, live, taken⟩ := inv.queues other declared
    exact ⟨left, by simpa only [server_send_req sent] using live, taken⟩
  exact ⟨fun sent => keep true sent _, fun sent => keep false sent _⟩

/-- A scan over rings without oversized messages takes one if there is one. -/
theorem scan_takes (ts : UInt64) {channels : List PeerChannel} {s : ShmState}
    (server : ∀ c ∈ channels, c.endpoint.isServerRole = true)
    (queued : ∀ c ∈ channels, ∃ left,
      Live c.endpoint.params (s.world.mem c.endpoint.name).req left ∧
        ∀ m ∈ left, m.length ≤ kRouterFrameSize)
    (busy : ∃ c ∈ channels, (s.world.mem c.endpoint.name).req.head ≠
      (s.world.mem c.endpoint.name).req.tail) :
    s.world.arrivals.length <
      (scanChannels ts channels s).state.world.arrivals.length := by
  induction channels with
  | nil => simp at busy
  | cons c rest ih =>
      obtain ⟨left, live, fits⟩ := queued c (List.mem_cons_self ..)
      have handle := ShmRegion.eq_server (server c (List.mem_cons_self ..))
      unfold scanChannels
      rw [handle]
      cases left with
      | nil =>
          have empty := live.empty_iff.mpr rfl
          rw [live.recv_empty]
          refine ih (fun c' mem => server c' (List.mem_cons_of_mem c mem))
            (fun c' mem => queued c' (List.mem_cons_of_mem c mem)) ?_
          obtain ⟨c', mem, pending⟩ := busy
          rcases List.mem_cons.mp mem with rfl | later
          · exact absurd empty pending
          · exact ⟨c', later, pending⟩
      | cons m more =>
          rw [live.recv_cons (fits m (List.mem_cons_self ..))]
          simp only
          split
          · obtain ⟨shorts, spec⟩ := scanChannels_spec
              (s := (s.took ts c m (takeRequest c.endpoint.name s.world.mem)).countTruncated)
              (popPreserves_true ts rest) trivial
            cases spec.result with
            | empty _ arrivals | thrown _ _ arrivals | frame _ _ _ _ arrivals =>
                rw [arrivals]
                simp [ShmState.countTruncated, ShmState.took]
          · simp [ShmState.took]

/-! ### What becomes of the copies -/

/-- The copies for the peers on region `name`, in order. -/
def copiesInto (ports : List Port) (log : List (UInt8 × Bytes)) (name : CStr) : List Bytes :=
  (log.filter fun entry => regionOf ports entry.1 = some name).map Prod.snd

theorem copiesInto_concat (log : List (UInt8 × Bytes)) (entry : UInt8 × Bytes) :
    copiesInto ports (log ++ [entry]) name =
      copiesInto ports log name ++
        if regionOf ports entry.1 = some name then [entry.2] else [] := by
  rw [copiesInto, copiesInto, List.filter_append, List.map_append]
  by_cases here : regionOf ports entry.1 = some name <;> simp [here]

/-- All handles on the region of `port` have its sizing. -/
def OneSizing (ports : List Port) (port : Port) : Prop :=
  ∀ other ∈ ports, other.2.name = port.2.name → other.2.params = port.2.params

/-- The reply rings hold what they held before, followed by the copies placed since. -/
def Queues (ports : List Port) (before after : ShmMemory) (placed : List (UInt8 × Bytes)) : Prop :=
  ∀ port ∈ ports, OneSizing ports port → ∀ replies,
    Carries port.2.params (before port.2.name).rep replies →
      Carries port.2.params (after port.2.name).rep
        (replies ++ copiesInto ports placed port.2.name)

/-- All that has been handed over since `w₀` is in the reply rings. -/
def RepliesInv (ports : List Port) (w₀ w : World) : Prop :=
  ∃ placed, w.handed = w₀.handed ++ placed ∧ Queues ports w₀.mem w.mem placed

theorem RepliesInv.pop {w₀ : World} {ts : UInt64} {channels : List PeerChannel}
    (server : ∀ port ∈ ports, port.2.isServerRole = true)
    (sub : ∀ c ∈ channels, (c.peerId, c.endpoint) ∈ ports) :
    PopPreserves (RepliesInv ports w₀) ts channels := by
  intro c mem w msg mem' inv received
  obtain ⟨placed, handed, queues⟩ := inv
  have role : c.endpoint = ⟨c.endpoint.name, c.endpoint.params, true⟩ :=
    ShmRegion.eq_server (server _ (sub c mem))
  rw [role] at received
  refine ⟨placed, handed, fun port inside one replies carries => ?_⟩
  simp only [server_recv_rep received]
  exact queues port inside one replies carries

/-- A copy is placed behind what its reply ring holds, or the ring is full. -/
theorem Queues.sent {before mem mem' : ShmMemory} {placed : List (UInt8 × Bytes)} {target : Port}
    {payload : Bytes} {ok : Bool} (queues : Queues ports before mem placed)
    (inside : target ∈ ports) (server : target.2.isServerRole = true)
    (region : regionOf ports target.1 = some target.2.name)
    (uncut : cut target.2.params payload = payload)
    (sent : trySend target.2 mem payload = (mem', ok)) :
    Queues ports before mem' (if ok then placed ++ [(target.1, payload)] else placed) := by
  rw [ShmRegion.eq_server server] at sent
  intro port declared one replies carries
  have held := queues port declared one replies carries
  by_cases here : port.2.name = target.2.name
  · have sizing : target.2.params = port.2.params := one target inside here.symm
    rw [here] at held ⊢
    rw [sizing] at sent uncut
    have now := held.server_send sent
    rw [uncut] at now
    cases ok with
    | false => exact now
    | true =>
        simp only [if_true, copiesInto_concat, region] at now ⊢
        rwa [← List.append_assoc]
  · rw [trySend_elsewhere sent _ here]
    cases ok with
    | false => exact held
    | true =>
        have other : ¬ some target.2.name = some port.2.name :=
          fun same => here (Option.some.inj same).symm
        simpa only [if_true, copiesInto_concat, region, if_neg other, List.append_nil] using held

theorem RepliesInv.push {w₀ : World} (server : ∀ port ∈ ports, port.2.isServerRole = true)
    (ids : (ports.map Prod.fst).Nodup)
    (fits : ∀ port ∈ ports, kRouterFrameSize ≤ port.2.params.maxPayload) {payload : Bytes}
    (whole : payload.length = kRouterFrameSize) :
    PushPreserves (RepliesInv ports w₀) ports payload := by
  intro target inside w mem' inv
  obtain ⟨placed, handed, queues⟩ := inv
  have region := regionOf_of_mem ids inside
  have uncut : cut target.2.params payload = payload :=
    cut_eq_self (by rw [whole]; exact fits target inside)
  refine ⟨fun sent => ⟨_, ?_, queues.sent inside (server target inside) region uncut sent⟩,
    fun sent => ⟨_, ?_, queues.sent inside (server target inside) region uncut sent⟩⟩
  · simp [handed]
  · exact handed

/-- What has become of the copies of the frames in `fresh`: those `placed` are in the reply
rings, behind what these held, and each other one is counted as dropped for its peer. -/
structure Routed (rules : List RouteRule) (ports : List Port) (fresh : List Arrival)
    (s s' : ShmState) (placed : List (UInt8 × Bytes)) : Prop where
  copies : placed.Sublist (deliveries rules fresh)
  queued : Queues ports s.world.mem s'.world.mem placed
  forwarded : s'.link.metrics.forwarded = s.link.metrics.forwarded + placed.length
  dropped : ∀ d, s'.link.metrics.droppedFullPerPeer d + (share placed d).length =
    s.link.metrics.droppedFullPerPeer d + (share (deliveries rules fresh) d).length

theorem Routed.refl {rules : List RouteRule} (s : ShmState) : Routed rules ports [] s s [] := by
  refine ⟨List.Sublist.refl _, fun port _ _ replies carries => ?_, rfl, fun _ => rfl⟩
  simpa [copiesInto] using carries

/-- A call of `forward` takes some arrivals and deals with their copies. -/
theorem Routed.forward {rules : List RouteRule} {s₀ s : ShmState} {fresh shorts : List Arrival}
    {placed placed' : List (UInt8 × Bytes)} {ts : UInt64} {J : World → Prop}
    {r : Outcome ShmState ForwardResult} (routed : Routed rules ports fresh s₀ s placed)
    (discarded : Discarded ts s.link.peerChannels shorts) (spec : ForwardSpec J ts rules s r shorts)
    (before : s.world.handed = s₀.world.handed ++ placed)
    (after : r.state.world.handed = s₀.world.handed ++ placed')
    (queued : Queues ports s₀.world.mem r.state.world.mem placed') :
    ∃ more, r.state.world.arrivals = s.world.arrivals ++ more ∧
      Routed rules ports (fresh ++ more) s₀ r.state placed' := by
  obtain ⟨copies, -, forwarded, dropped⟩ := routed
  have silent : deliveries rules shorts = [] := copies_eq_nil discarded.route_nil
  cases spec with
  | idle handed arrivals forwardedSame _ _ perPeer =>
      have same : placed' = placed := by
        rw [handed, before] at after
        exact (List.append_cancel_left after).symm
      subst same
      refine ⟨shorts, arrivals, ?_, queued, forwardedSame.trans forwarded, fun d => ?_⟩
      · rwa [deliveries_append, silent, List.append_nil]
      · rw [deliveries_append, silent, List.append_nil, perPeer]
        exact dropped d
  | routed source msg kept _ _ whole arrivals kept_sub handed forwardedNow _ _ perPeer =>
      have grown : placed' = placed ++ kept.map fun d => (d, stamped source ts msg) := by
        rw [handed, before, List.append_assoc] at after
        exact (List.append_cancel_left after).symm
      have due : deliveries rules (fresh ++ (shorts ++ [⟨source, msg, ts⟩])) =
          deliveries rules fresh ++
            (routedTo rules source (frameTopic msg)).map fun d => (d, stamped source ts msg) := by
        have route : Arrival.route rules ⟨source, msg, ts⟩ = routedTo rules source (frameTopic msg) :=
          Arrival.route_of_whole whole
        rw [deliveries_append, deliveries_append, silent, List.nil_append]
        simp only [deliveries, copies_singleton, route]
        rfl
      subst grown
      refine ⟨_, arrivals, ?_, queued, ?_, fun d => ?_⟩
      · rw [due]
        exact copies.append (kept_sub.map _)
      · rw [forwardedNow, forwarded, List.length_append, List.length_map, Nat.add_assoc]
      · have one := perPeer d
        have earlier := dropped d
        rw [due, share_append, share_append, List.length_append, List.length_append,
          length_share_map, length_share_map]
        omega

/-! ### Draining -/

/-- `n` calls of `forward`, as `RouterServer::run` makes them: the scratch frame
is reused and exceptions are swallowed. -/
def forwardMany (rules : List RouteRule) (ts : Nat → UInt64) : Nat → ShmState → ShmState
  | 0, s => s
  | n + 1, s =>
      let s := forwardMany rules ts n s
      reportForward (s.forward (ts n) rules)

/-- A server link bound from a topology, whatever has happened to it since. -/
structure BoundTo (t : LoadedTopology) (link : ShmRouterLink) : Prop where
  server : link.isServer = true
  ports : link.ports = shmPorts t.peers

/-- How many messages the request rings hold. -/
def queuedCount (ports : List Port) (q : CStr → List Bytes) : Nat :=
  ∑ n ∈ regions ports, (q n).length

/-- The SHM router has dealt with everything that was queued: the rings are empty,
every message has been consumed in order, and every whole frame among them has been
routed, which means that each copy is in a reply ring or counted as dropped, and
reported. -/
structure Drained (t : LoadedTopology) (q : CStr → List Bytes) (s s' : ShmState) : Prop where
  empty : AllEmpty (shmPorts t.peers) s'.world
  consumed : ∀ port ∈ shmPorts t.peers,
    takenFrom (shmPorts t.peers) s'.world.arrivals port.2.name = q port.2.name
  routed : ∃ placed, Routed t.routes (shmPorts t.peers) s'.world.arrivals s s' placed
  reported : s'.world.reported = reports t.routes s'.world.arrivals

variable {t : LoadedTopology} {s₀ s : ShmState} {ts : Nat → UInt64}

/-- What holds after every call, since `s₀`. -/
structure DrainInv (t : LoadedTopology) (q : CStr → List Bytes) (s₀ s : ShmState) : Prop where
  bound : BoundTo t s.link
  queued : QueuedInv (shmPorts t.peers) q s.world
  routed : ∃ placed, s.world.handed = s₀.world.handed ++ placed ∧
    Routed t.routes (shmPorts t.peers) s.world.arrivals s₀ s placed
  reported : s.world.reported = reports t.routes s.world.arrivals

theorem DrainInv.forward (wellFormed : t.WellFormed) (all : t.AllShm) (inv : DrainInv t q s₀ s)
    (now : UInt64) : DrainInv t q s₀ (reportForward (s.forward now t.routes)) ∧
      s.world.arrivals <+: (reportForward (s.forward now t.routes)).world.arrivals ∧
      (reportForward (s.forward now t.routes)).world.arrivals =
        (s.tryReceive now).state.world.arrivals := by
  obtain ⟨⟨server, ports⟩, queued, ⟨placed, handed, routed⟩, reported⟩ := inv
  have ids := shmPorts_ids wellFormed
  have roles := shmPorts_server t.peers
  have sub : ∀ c ∈ s.link.peerChannels, (c.peerId, c.endpoint) ∈ shmPorts t.peers := by
    intro c mem
    rw [← ports]
    exact List.mem_map.mpr ⟨c, mem, rfl⟩
  have valid := shmPorts_valid wellFormed
  obtain ⟨shorts, discarded, spec, ⟨kept, placed', handed', queues⟩, silent, -, wiring⟩ :=
    forward_spec
      (J := fun w => QueuedInv (shmPorts t.peers) q w ∧ RepliesInv (shmPorts t.peers) s₀.world w)
      (s := s) now t.routes server
      (by rw [ports]; exact valid) (by rw [ports]; exact routesTo_shmPorts wellFormed all)
      (PopPreserves.and (QueuedInv.pop roles ids sub) (RepliesInv.pop roles sub))
      (fun payload whole => by
        rw [ports]
        exact PushPreserves.and (QueuedInv.push roles payload)
          (RepliesInv.push roles ids (shmPorts_fits wellFormed) whole))
      ⟨queued, placed, handed, routed.queued⟩
  have newReports := reportForward_reports discarded spec silent
  obtain ⟨more, grown, routed'⟩ := routed.forward discarded spec handed handed' queues
  refine ⟨⟨⟨?_, ?_⟩, ⟨?_, ?_, ?_⟩, ⟨placed', ?_, ?_⟩, ?_⟩, ?_, ?_⟩
  · rw [reportForward_link, wiring.server, server]
  · simp only [ShmRouterLink.ports, reportForward_link, wiring.ports]
    exact ports
  · rw [reportForward_arrivals, reportForward_mem]
    exact kept.queues
  · rw [reportForward_arrivals]
    exact kept.sources
  · rw [reportForward_arrivals]
    exact kept.lengths
  · rw [reportForward_handed]
    exact handed'
  · rw [reportForward_arrivals, grown]
    obtain ⟨copies, queued, forwarded, dropped⟩ := routed'
    exact ⟨copies, by rwa [reportForward_mem], by rwa [reportForward_link],
      by rwa [reportForward_link]⟩
  · rw [reportForward_arrivals]
    exact newReports reported
  · rw [reportForward_arrivals, grown]
    exact List.prefix_append _ _
  · rw [reportForward_arrivals, forward_arrivals server]

theorem forwardMany_inv (wellFormed : t.WellFormed) (all : t.AllShm) (inv : DrainInv t q s₀ s)
    (ts : Nat → UInt64) (n : Nat) : DrainInv t q s₀ (forwardMany t.routes ts n s) := by
  induction n with
  | zero => exact inv
  | succ n ih => exact (ih.forward wellFormed all (ts n)).1

/-- Once everything is consumed, it stays so. -/
theorem QueuedInv.allEmpty_of_prefix {w w' : World} (inv : QueuedInv ports q w)
    (inv' : QueuedInv ports q w') (grown : w.arrivals <+: w'.arrivals) (empty : AllEmpty ports w) :
    AllEmpty ports w' := by
  intro port mem
  obtain ⟨left, live, taken⟩ := inv.queues port mem
  obtain ⟨left', live', taken'⟩ := inv'.queues port mem
  obtain ⟨more, grown⟩ := grown
  rw [live'.empty_iff]
  have none := live.empty_iff.mp (empty port mem)
  rw [none, List.append_nil] at taken
  rw [← grown, takenFrom_append, taken, List.append_assoc] at taken'
  exact (List.append_eq_nil_iff.mp (List.append_right_eq_self.mp taken')).2

/-- Without oversized messages every call makes progress until all is consumed. -/
theorem forwardMany_progress (wellFormed : t.WellFormed) (all : t.AllShm) (inv : DrainInv t q s₀ s)
    (short : ∀ port ∈ shmPorts t.peers, ∀ m ∈ q port.2.name, m.length ≤ kRouterFrameSize)
    (ts : Nat → UInt64) (n : Nat) : AllEmpty (shmPorts t.peers) (forwardMany t.routes ts n s).world ∨
      n ≤ (forwardMany t.routes ts n s).world.arrivals.length := by
  induction n with
  | zero => exact .inr (Nat.zero_le _)
  | succ n ih =>
      have now := forwardMany_inv wellFormed all inv ts n
      obtain ⟨next, grown, same⟩ := now.forward wellFormed all (ts n)
      by_cases empty : AllEmpty (shmPorts t.peers) (forwardMany t.routes ts n s).world
      · exact .inl (now.queued.allEmpty_of_prefix next.queued grown empty)
      · right
        have before := ih.resolve_left empty
        obtain ⟨port, mem, busy⟩ : ∃ port ∈ shmPorts t.peers,
            ((forwardMany t.routes ts n s).world.mem port.2.name).req.head ≠
              ((forwardMany t.routes ts n s).world.mem port.2.name).req.tail := by
          simpa [AllEmpty] using empty
        have inside : ∀ c ∈ (forwardMany t.routes ts n s).link.peerChannels,
            (c.peerId, c.endpoint) ∈ shmPorts t.peers := by
          intro c inside
          rw [← now.bound.ports]
          exact List.mem_map.mpr ⟨c, inside, rfl⟩
        have takes := scan_takes (ts n) (s := forwardMany t.routes ts n s)
          (fun c declared => shmPorts_server t.peers _ (inside c declared))
          (by
            intro c declared
            obtain ⟨left, live, taken⟩ := now.queued.queues _ (inside c declared)
            refine ⟨left, live, fun m pending => short _ (inside c declared) m ?_⟩
            rw [← taken]
            exact List.mem_append_right _ pending)
          (by
            rw [← now.bound.ports] at mem
            obtain ⟨c, declared, rfl⟩ := List.mem_map.mp mem
            exact ⟨c, declared, busy⟩)
        have counted : (forwardMany t.routes ts (n + 1) s).world.arrivals =
            (scanChannels (ts n) (forwardMany t.routes ts n s).link.peerChannels
              (forwardMany t.routes ts n s)).state.world.arrivals := same
        rw [counted]
        omega

/-- An oversized message is never consumed. -/
theorem QueuedInv.not_empty_of_oversized {w : World} (inv : QueuedInv ports q w) {port : Port}
    (mem : port ∈ ports) {m : Bytes} (queued : m ∈ q port.2.name)
    (long : kRouterFrameSize < m.length) : ¬ AllEmpty ports w := by
  intro empty
  obtain ⟨left, live, taken⟩ := inv.queues port mem
  have none := live.empty_iff.mp (empty port mem)
  rw [← taken, none, List.append_nil] at queued
  obtain ⟨a, arrived, rfl⟩ := List.mem_map.mp queued
  have bound := inv.lengths a (List.mem_filter.mp arrived).1
  omega

theorem QueuedInv.consumed {w : World} (inv : QueuedInv ports q w) (empty : AllEmpty ports w) :
    ∀ port ∈ ports, takenFrom ports w.arrivals port.2.name = q port.2.name := by
  intro port mem
  obtain ⟨left, live, taken⟩ := inv.queues port mem
  rw [live.empty_iff.mp (empty port mem), List.append_nil] at taken
  exact taken

/-- When as many messages have arrived as were queued, nothing is left. -/
theorem QueuedInv.allEmpty_of_count {w : World} (inv : QueuedInv ports q w)
    (all : queuedCount ports q ≤ w.arrivals.length) : AllEmpty ports w := by
  have taken_le : ∀ n ∈ regions ports, (takenFrom ports w.arrivals n).length ≤ (q n).length := by
    intro n mem
    obtain ⟨port, inside, rfl⟩ := List.mem_map.mp (List.mem_toFinset.mp mem)
    obtain ⟨left, -, taken⟩ := inv.queues port inside
    rw [← taken, List.length_append]
    exact Nat.le_add_right _ _
  have total : ∑ n ∈ regions ports, (takenFrom ports w.arrivals n).length =
      ∑ n ∈ regions ports, (q n).length := by
    refine Nat.le_antisymm (Finset.sum_le_sum taken_le) ?_
    rw [sum_takenFrom inv.sources]
    exact all
  have equal := (Finset.sum_eq_sum_iff_of_le taken_le).mp total
  intro port mem
  obtain ⟨left, live, taken⟩ := inv.queues port mem
  have lengths := equal port.2.name
    (List.mem_toFinset.mpr (List.mem_map.mpr ⟨port, mem, rfl⟩))
  rw [← taken, List.length_append] at lengths
  exact live.empty_iff.mpr (List.eq_nil_of_length_eq_zero (by omega))

/-- Whatever messages an accepted all-SHM profile's peers have queued, as many
`forward` calls as there are messages deal with all of them exactly when none is
longer than a frame. -/
theorem drains_iff {root : TomlTable} (accepted : buildFrom root = .ok t) (all : t.AllShm)
    (bound : BoundTo t s.link) (unused : s.world.arrivals = [] ∧ s.world.reported = [])
    (queued : ∀ port ∈ shmPorts t.peers,
      Live port.2.params (s.world.mem port.2.name).req (q port.2.name)) :
    Drained t q s (forwardMany t.routes ts (queuedCount (shmPorts t.peers) q) s) ↔
      ∀ port ∈ shmPorts t.peers, ∀ m ∈ q port.2.name, m.length ≤ kRouterFrameSize := by
  have wellFormed := buildFrom_wellFormed accepted
  have start : DrainInv t q s s := by
    obtain ⟨arrivals, reported⟩ := unused
    refine ⟨bound, ⟨?_, by simp [arrivals], by simp [arrivals]⟩,
      ⟨[], (List.append_nil _).symm, by rw [arrivals]; exact .refl s⟩,
      by simp [arrivals, reported, reports]⟩
    intro port mem
    exact ⟨q port.2.name, queued port mem, by simp [arrivals, takenFrom]⟩
  have inv := forwardMany_inv wellFormed all start ts (queuedCount (shmPorts t.peers) q)
  constructor
  · intro drained port mem m pending
    by_contra long
    exact inv.queued.not_empty_of_oversized mem pending (Nat.not_le.mp long) drained.empty
  · intro short
    have empty : AllEmpty (shmPorts t.peers)
        (forwardMany t.routes ts (queuedCount (shmPorts t.peers) q) s).world := by
      rcases forwardMany_progress wellFormed all start short ts
        (queuedCount (shmPorts t.peers) q) with empty | counted
      · exact empty
      · exact inv.queued.allEmpty_of_count counted
    obtain ⟨placed, -, routed⟩ := inv.routed
    exact ⟨empty, inv.queued.consumed empty, ⟨placed, routed⟩, inv.reported⟩

/-- A region with one frame on its request ring. -/
def frameQueued : MappedRegion :=
  ⟨pushedRing oneFrame (initRing oneFrame) (List.replicate 64 5), initRing oneFrame⟩

/-- Each peer of the pair has queued a frame; two calls consume both and route the first. -/
theorem drains_iff_pair : ∃ t s, buildFrom shmPair = .ok t ∧ bootShm t.view noShm = .ok s ∧
    queuedCount (shmPorts t.peers) (fun _ => [List.replicate 64 5]) = 2 ∧
    (forwardMany t.routes (fun _ => 0) 2
      { s.router with world := { mem := fun _ => frameQueued } }).link.metrics.forwarded = 1 ∧
    Drained t (fun _ => [List.replicate 64 5])
      { s.router with world := { mem := fun _ => frameQueued } }
      (forwardMany t.routes (fun _ => 0) 2
        { s.router with world := { mem := fun _ => frameQueued } }) := by
  have shape : ∀ t ∈ (buildFrom shmPair).toOption, t.AllShm ∧
      (∀ port ∈ shmPorts t.peers, port.2.params = oneFrame) ∧
      queuedCount (shmPorts t.peers) (fun _ => [List.replicate 64 5]) = 2 ∧
      ((bootShm t.view noShm).toOption.map fun s => (forwardMany t.routes (fun _ => 0) 2
        { s.router with world := { mem := fun _ => frameQueued } }).link.metrics.forwarded) =
          some 1 := by
    decide +kernel
  obtain ⟨t, accepted⟩ : ∃ t, buildFrom shmPair = .ok t := ⟨_, rfl⟩
  obtain ⟨all, params, count, outcome⟩ := shape t (by simp [accepted, Except.toOption])
  cases booted : bootShm t.view noShm with
  | error e => simp [booted, Except.toOption] at outcome
  | ok s =>
      have forwarded := Option.some.inj (by simpa [booted, Except.toOption] using outcome)
      have stored : Live oneFrame frameQueued.req [List.replicate 64 5] :=
        live_initRing.push_room (by decide) (by decide)
      have drained : Drained t (fun _ => [List.replicate 64 5])
          { s.router with world := { mem := fun _ => frameQueued } }
          (forwardMany t.routes (fun _ => 0)
            (queuedCount (shmPorts t.peers) fun _ => [List.replicate 64 5])
            { s.router with world := { mem := fun _ => frameQueued } }) ↔ _ := drains_iff
        accepted all ⟨by rw [(bootShm_eq booted).1]; rfl, bootShm_ports booted⟩ ⟨rfl, rfl⟩
        (fun port mem => by rw [params port mem]; exact stored)
      rw [count] at drained
      exact ⟨t, s, accepted, booted, count, forwarded, drained.mpr (by simp [kRouterFrameSize])⟩

/-- Two peers whose rings hold messages of up to 1024 bytes. -/
def shmDefaultPair : TomlTable :=
  profile "shm:/router" [peerTable 1 "a" "shm:/a" [], peerTable 2 "b" "shm:/b" []]
    [routeTable 2 1]

/-- The counters of a region's request ring. -/
def requestCounters (name : String) (s : ShmSystem) : Nat × Nat :=
  let ring := (s.router.world.mem (cStr (ascii name))).req
  (ring.tail, ring.head)

/-- Peer 1 queues one message of 65 bytes and peer 2 one frame. After two calls of
`forward` both are still there. -/
theorem oversized_message_wedges_router :
    ((runShm shmDefaultPair [.publish 1 (List.replicate 65 1), .publish 2 (List.replicate 64 2),
        .forward .zero 0, .forward .zero 0]).map fun s =>
      (requestCounters "/a" s, requestCounters "/b" s)) = some ((0, 1), (0, 1)) := by
  decide +kernel

end RoboticsIpc
