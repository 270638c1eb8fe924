import RoboticsIpc.Lib.PriorityScan
import RoboticsIpc.Router.IngressAccounting

/-!
Whom an SHM router serves, and when.

`try_receive` visits the request rings in declaration order and returns at the first whole
frame. So the intake of a router is a strict-priority scheduler over bounded queues
(`intake_refines`): what it takes in, and in which order, follows from the publishes and the
calls of `forward` alone. Floors, replies, routes and times play no part in it.

From the scheduler's laws come the two sides of strict priority. A message waits for no more
calls than there are messages before it (`shm_bounded_wait`). A peer is served at exactly those
calls at which no peer declared before it has a frame, or an oversized message, in front
(`shm_served_in_turn`), so the first peer can keep all others waiting for ever.
-/

namespace RoboticsIpc

open ByteBuffer Checked PriorityScan ShmSpsc StepRun Toml

/-! ### The scheduler of a list of ports -/

/-- What a scan makes of a message at the front of a ring. A short one is discarded on the way,
a whole frame ends the scan, a longer one throws. -/
def scanVerdict (m : Bytes) : Verdict :=
  if kRouterFrameSize < m.length then .block
  else if m.length < kRouterFrameSize then .pass
  else .take

theorem scanVerdict_ne_block {m : Bytes} : scanVerdict m ≠ .block ↔ m.length ≤ kRouterFrameSize := by
  unfold scanVerdict
  split
  · rename_i long
    simpa using long
  · rename_i fits
    split <;> simpa using fits

theorem scanVerdict_eq_pass {m : Bytes} : scanVerdict m = .pass ↔ m.length < kRouterFrameSize := by
  unfold scanVerdict
  split
  · rename_i long
    simp only [reduceCtorEq, false_iff]
    omega
  · split <;> simp_all

/-- The sizing of a peer's rings. -/
def paramsOf (ports : List Port) (id : UInt8) : Option RingParams :=
  (ports.find? fun port => port.1 = id).map fun port => port.2.params

/-- The order of declaration is the order of service. -/
def intakeRules (ports : List Port) (ids : (ports.map Prod.fst).Nodup) : Rules UInt8 Bytes where
  keys := ports.map Prod.fst
  nodup := ids
  room id := (paramsOf ports id).elim 0 fun p => p.slotCount
  verdict := scanVerdict

/-- A step as the request rings see it. -/
def intakeAct (ports : List Port) : ShmAct → Option (Act UInt8 Bytes)
  | .publish peer msg => (paramsOf ports peer).map fun p => .offer peer (cut p msg)
  | .forward _ _ => some .scan
  | .pop _ | .setFloor _ => none

/-- What the scheduler makes of a step. -/
def intakeStep (r : Rules UInt8 Bytes) (ports : List Port) (a : Sched UInt8 Bytes) (act : ShmAct) :
    Sched UInt8 Bytes :=
  (intakeAct ports act).elim a (a.step r)

variable {ports : List Port} {port : Port} {published : UInt8 → List Bytes} {w : World}
  {left : List Bytes}

theorem paramsOf_of_mem (ids : (ports.map Prod.fst).Nodup) (mem : port ∈ ports) :
    paramsOf ports port.1 = some port.2.params := by
  have found := find?_eq_some_of_key Prod.fst ids mem
  have same : ports.find? (fun p => p.1 = port.1) = some port := by
    rw [← found]
    congr 1
  rw [paramsOf, same]
  rfl

/-! ### The request ring of a port -/

/-- The ring holds `left`; what it had before is in the log, and the counters say so. -/
structure RingHolds (published : UInt8 → List Bytes) (w : World) (port : Port)
    (left : List Bytes) : Prop where
  live : Live port.2.params (w.mem port.2.name).req left
  all : (published port.1).map (cut port.2.params) = arrivedFrom w.arrivals port.1 ++ left
  tail : (w.mem port.2.name).req.tail = (arrivedFrom w.arrivals port.1).length

/-- Every port's ring holds what has not arrived yet. -/
def RingsHold (ports : List Port) (published : UInt8 → List Bytes) (w : World) : Prop :=
  ∀ port ∈ ports, ∃ left, RingHolds published w port left

/-- `head` counts what was ever pushed. -/
theorem RingHolds.head (holds : RingHolds published w port left) :
    (w.mem port.2.name).req.head = (published port.1).length := by
  have lengths := congrArg List.length holds.all
  rw [List.length_map, List.length_append, ← holds.tail] at lengths
  rw [holds.live.head_eq, lengths]

theorem RingHolds.of_same {published' : UInt8 → List Bytes} {w' : World}
    (holds : RingHolds published w port left)
    (ring : (w'.mem port.2.name).req = (w.mem port.2.name).req)
    (publishedSame : published' port.1 = published port.1)
    (arrivalsSame : arrivedFrom w'.arrivals port.1 = arrivedFrom w.arrivals port.1) :
    RingHolds published' w' port left := by
  obtain ⟨live, all, tail⟩ := holds
  exact ⟨by rwa [ring], by rwa [publishedSame, arrivalsSame], by rwa [ring, arrivalsSame]⟩

/-- The router's pop, from this ring or from another. -/
theorem RingsHold.pop {ts : UInt64} {channels : List PeerChannel} (wired : Wired ports)
    (sub : ∀ c ∈ channels, c.port ∈ ports) :
    PopPreserves (RingsHold ports published) ts channels := by
  intro c mem w msg mem' inv received port inside
  obtain ⟨left, holds⟩ := inv port inside
  have alone := wired.alone inside
  have handle : c.endpoint = ⟨c.port.2.name, c.port.2.params, true⟩ :=
    ShmRegion.eq_server (wired.server c.port (sub c mem))
  rw [handle] at received
  by_cases here : c.port = port
  · subst here
    cases left with
    | nil =>
        rw [holds.live.recv_empty] at received
        cases received
    | cons m rest =>
        rcases Nat.lt_or_ge kRouterFrameSize m.length with long | fits
        · rw [holds.live.recv_too_small long] at received
          cases received
        · rw [holds.live.recv_cons fits] at received
          cases received
          have tail : u64Inc (w.mem c.port.2.name).req.tail =
              (arrivedFrom w.arrivals c.port.1).length + 1 := by
            have head := holds.live.head_eq
            have top := holds.live.head_lt
            simp only [List.length_cons] at head
            rw [← holds.tail]
            exact Nat.mod_eq_of_lt (by omega)
          refine ⟨rest, ?_, ?_, ?_⟩
          · simpa [takeRequest] using holds.live.popped
          · rw [arrivedFrom_append, arrivedFrom_singleton]
            simpa [PeerChannel.port] using holds.all
          · rw [arrivedFrom_append, arrivedFrom_singleton]
            simpa [takeRequest, poppedRing, PeerChannel.port] using tail
  · have region : c.port.2.name ≠ port.2.name := fun same => here (alone.name _ (sub c mem) same)
    have id : c.port.1 ≠ port.1 := fun same => here (alone.id _ (sub c mem) same)
    refine ⟨left, holds.of_same ?_ rfl ?_⟩
    · obtain rfl := mem_of_server_recv received
      dsimp only
      rw [takeRequest_req, if_neg fun same => region same.symm]
    · rw [arrivedFrom_append, arrivedFrom_singleton]
      exact (congrArg _ (if_neg id)).trans (List.append_nil _)

theorem RingsHold.push (server : ∀ port ∈ ports, port.2.isServerRole = true) (payload : Bytes) :
    PushPreserves (RingsHold ports published) ports payload := by
  intro other inside w mem' inv
  have same := pushPreserves_requests server w.mem payload other inside w mem' fun _ => rfl
  refine ⟨fun sent port declared => ?_, fun sent port declared => ?_⟩
  · obtain ⟨left, holds⟩ := inv port declared
    exact ⟨left, holds.of_same (same.1 sent port.2.name) rfl rfl⟩
  · obtain ⟨left, holds⟩ := inv port declared
    exact ⟨left, holds.of_same (same.2 sent port.2.name) rfl rfl⟩

/-! ### One scan -/

/-- A scan takes what the scheduler picks. -/
theorem scan_picks (ts : UInt64) {channels : List PeerChannel} {s : ShmState}
    (queues : UInt8 → List Bytes) (server : ∀ c ∈ channels, c.endpoint.isServerRole = true)
    (names : (channels.map fun c => c.endpoint.name).Nodup)
    (live : ∀ c ∈ channels,
      Live c.endpoint.params (s.world.mem c.endpoint.name).req (queues c.peerId)) :
    (scanChannels ts channels s).state.world.arrivals = s.world.arrivals ++
      (scan scanVerdict (channels.map fun c => (c.peerId, queues c.peerId))).map
        fun pick => ⟨pick.1, pick.2, ts⟩ := by
  induction channels generalizing s with
  | nil => simp [scanChannels, scan]
  | cons c rest ih =>
      have handle := ShmRegion.eq_server (server c List.mem_cons_self)
      have ring := live c List.mem_cons_self
      obtain ⟨fresh, later⟩ := List.nodup_cons.mp names
      have roles : ∀ c ∈ rest, c.endpoint.isServerRole = true :=
        fun c mem => server c (List.mem_cons_of_mem _ mem)
      unfold scanChannels
      rw [handle, List.map_cons]
      cases queue : queues c.peerId with
      | nil =>
          rw [queue] at ring
          rw [ring.recv_empty]
          exact ih roles later fun c mem => live c (List.mem_cons_of_mem _ mem)
      | cons m more =>
          rw [queue] at ring
          rcases Nat.lt_or_ge kRouterFrameSize m.length with long | fits
          · have blocks : scanVerdict m = .block := if_pos long
            rw [ring.recv_too_small long]
            simp [scan, blocks]
          · rw [ring.recv_cons fits]
            by_cases short : m.length < kRouterFrameSize
            · -- The others' rings are as they were.
              have goes : scanVerdict m = .pass := scanVerdict_eq_pass.mpr short
              have others := ih (s := (s.took ts c m
                (takeRequest c.endpoint.name s.world.mem)).countTruncated) roles later
                (by
                  intro other mem
                  have apart : other.endpoint.name ≠ c.endpoint.name := fun same =>
                    fresh (List.mem_map.mpr ⟨other, mem, same⟩)
                  simp only [ShmState.countTruncated, ShmState.took, takeRequest_req, if_neg apart]
                  exact live other (List.mem_cons_of_mem _ mem))
              simp only [short, if_true, scan, goes, List.map_cons]
              rw [others]
              simp [ShmState.countTruncated, ShmState.took]
            · have takes : scanVerdict m = .take := by
                rw [scanVerdict, if_neg (Nat.not_lt.mpr fits), if_neg short]
              simp [short, scan, takes, ShmState.took]

/-! ### Simulation -/

/-- The world and a state of the scheduler: the same messages taken, in the same order, and the
same messages waiting. -/
structure Schedules (ports : List Port) (published : UInt8 → List Bytes) (w : World)
    (a : Sched UInt8 Bytes) : Prop where
  served : w.arrivals.map (fun m => (m.source, m.message)) = a.served
  rings : ∀ port ∈ ports, RingHolds published w port (a.pending port.1)

variable {a : Sched UInt8 Bytes}

theorem Schedules.taken (same : Schedules ports published w a) (id : UInt8) :
    a.taken id = arrivedFrom w.arrivals id := by
  rw [Sched.taken, ← same.served, arrivedFrom, List.filter_map, List.map_map]
  rfl

/-- What the scheduler had room for is what was published. -/
theorem Schedules.accepted (same : Schedules ports published w a) (mem : port ∈ ports) :
    a.accepted port.1 = (published port.1).map (cut port.2.params) := by
  rw [Sched.accepted, same.taken, (same.rings port mem).all]

/-- A client's push succeeds exactly when the scheduler has room. -/
theorem RingHolds.publish_room {msg : Bytes} {mem : ShmMemory} {ok : Bool}
    (holds : RingHolds published w port left)
    (sent : trySend ⟨port.2.name, port.2.params, false⟩ w.mem msg = (mem, ok)) :
    ok = true ↔ left.length < port.2.params.slotCount := by
  simp only [trySend, Bool.false_eq_true, if_false, Prod.mk.injEq] at sent
  rw [← sent.2, ← holds.live.pending]
  constructor
  · intro pushed
    by_contra full
    rw [shmTryPushSlot_full msg (Nat.not_lt.mp full)] at pushed
    cases pushed
  · intro room
    rw [shmTryPushSlot_room msg room]

/-- The pushed message is the last one waiting. -/
theorem RingHolds.publish {msg : Bytes} {mem : ShmMemory} (holds : RingHolds published w port left)
    (sent : trySend ⟨port.2.name, port.2.params, false⟩ w.mem msg = (mem, true))
    (below : (published port.1).length + 1 < 2 ^ 64) :
    RingHolds (Function.update published port.1 (published port.1 ++ [msg])) { w with mem } port
      (left ++ [cut port.2.params msg]) := by
  have room := (holds.publish_room sent).mp rfl
  have free : u64Sub (w.mem port.2.name).req.head (w.mem port.2.name).req.tail <
      port.2.params.slotCount := by
    rw [holds.live.pending]
    exact room
  simp only [trySend, Bool.false_eq_true, if_false, shmTryPushSlot_room msg free,
    Prod.mk.injEq, and_true] at sent
  subst sent
  refine ⟨?_, ?_, ?_⟩
  · simp only [Function.update_self]
    exact holds.live.push_room room (by rw [holds.head]; exact below)
  · rw [Function.update_self, List.map_append, holds.all, List.append_assoc]
    rfl
  · simp only [Function.update_self]
    exact holds.tail

variable {rules : List RouteRule} {topo : RouterTopology} {act : ShmAct} {s s' : ShmSystem}

/-- One call of `forward` is one scan of the scheduler. -/
theorem Schedules.forward (st : ShmState) (wired : Wired ports)
    (routes : RoutesTo rules (ports.map Prod.fst)) (server : st.link.isServer = true)
    (isPorts : st.link.ports = ports) (same : Schedules ports published st.world a) (ts : UInt64) :
    Schedules ports published (reportForward (st.forward ts rules)).world
      (a.step (intakeRules ports wired.ids) .scan) := by
  have channels : st.link.peerChannels.map PeerChannel.port = ports := isPorts
  have sub : ∀ c ∈ st.link.peerChannels, c.port ∈ ports := fun c mem =>
    channels ▸ List.mem_map_of_mem mem
  obtain ⟨-, -, -, kept, -⟩ := forward_spec (J := RingsHold ports published) (s := st) ts rules
    server (by rw [isPorts]; exact wired.noInvalid) (by rw [isPorts]; exact routes)
    (RingsHold.pop wired sub)
    (fun payload _ => by rw [isPorts]; exact RingsHold.push wired.server payload)
    (fun port inside => ⟨_, same.rings port inside⟩)
  have scanned := scan_picks ts (s := st) a.pending
    (fun c mem => wired.server _ (sub c mem))
    (by
      have names := wired.names
      rwa [← channels, List.map_map] at names)
    (fun c mem => (same.rings _ (sub c mem)).live)
  have queues : (st.link.peerChannels.map fun c => (c.peerId, a.pending c.peerId)) =
      a.queues (ports.map Prod.fst) := by
    rw [← channels, Sched.queues, List.map_map, List.map_map]
    rfl
  rw [queues] at scanned
  have arrivals : (reportForward (st.forward ts rules)).world.arrivals =
      (st.tryReceive ts).state.world.arrivals :=
    (reportForward_arrivals _).trans (forward_arrivals server)
  have served : (reportForward (st.forward ts rules)).world.arrivals.map
      (fun m => (m.source, m.message)) = (a.step (intakeRules ports wired.ids) .scan).served := by
    rw [arrivals, ShmState.tryReceive, scanned, List.map_append, same.served, List.map_map]
    exact congrArg _ (List.map_id'' (fun _ => rfl) _)
  refine ⟨served, fun port inside => ?_⟩
  obtain ⟨left, holds⟩ := kept port inside
  have holds : RingHolds published (reportForward (st.forward ts rules)).world port left :=
    holds.of_same (by rw [reportForward_mem]) rfl (by rw [reportForward_arrivals])
  -- Both sides have accepted the same messages and taken the same ones.
  have taken : (a.step (intakeRules ports wired.ids) .scan).taken port.1 =
      arrivedFrom (reportForward (st.forward ts rules)).world.arrivals port.1 := by
    rw [Sched.taken, ← served, arrivedFrom, List.filter_map, List.map_map]
    rfl
  have accepted : (a.step (intakeRules ports wired.ids) .scan).accepted port.1 =
      (published port.1).map (cut port.2.params) :=
    Sched.accepted_scan.trans (same.accepted inside)
  rw [Sched.accepted, taken, holds.all] at accepted
  rwa [List.append_cancel_left accepted]

theorem Schedules.step (wired : Wired (shmPorts topo.peers))
    (routes : RoutesTo rules ((shmPorts topo.peers).map Prod.fst)) (inv : ShmInv rules topo s)
    (same : Schedules (shmPorts topo.peers) s.published s.router.world a)
    (step : shmStep rules s act = some s')
    (fewer : ∀ port ∈ shmPorts topo.peers, (s'.published port.1).length < 2 ^ 64) :
    Schedules (shmPorts topo.peers) s'.published s'.router.world
      (intakeStep (intakeRules (shmPorts topo.peers) wired.ids) (shmPorts topo.peers) a act) := by
  cases shmStep_cases step with
  | @published peer msg name p mem inside sent =>
      rw [inv.sameTopo] at inside
      have params := paramsOf_of_mem wired.ids inside
      have holds := same.rings _ inside
      have room := (holds.publish_room sent).mp rfl
      have below := fewer _ inside
      simp only [Function.update_self, List.length_append, List.length_singleton] at below
      simp only at params room
      have stepped : intakeStep (intakeRules (shmPorts topo.peers) wired.ids) (shmPorts topo.peers)
          a (.publish peer msg) = { a with
            pending := Function.update a.pending peer (a.pending peer ++ [cut p msg]) } := by
        simp [intakeStep, intakeAct, params, Sched.step, intakeRules, room]
      rw [stepped]
      refine ⟨same.served, fun port declared => ?_⟩
      by_cases here : port = (peer, ⟨name, p, true⟩)
      · subst here
        have pushed := holds.publish sent below
        simpa [ShmSystem.setMem] using pushed
      · have region : port.2.name ≠ name := fun eq => here ((wired.alone inside).name _ declared eq)
        have id : port.1 ≠ peer := fun eq => here ((wired.alone inside).id _ declared eq)
        have others : RingHolds (Function.update s.published peer (s.published peer ++ [msg]))
            (s.setMem mem).router.world port (a.pending port.1) :=
          (same.rings port declared).of_same
            (congrArg (·.req) (trySend_elsewhere sent _ region)) (Function.update_of_ne id _ _) rfl
        simpa [Function.update_of_ne id] using others
  | @rejected peer msg name p mem inside sent =>
      rw [inv.sameTopo] at inside
      have params := paramsOf_of_mem wired.ids inside
      have holds := same.rings _ inside
      have full : ¬ (a.pending peer).length < p.slotCount := fun room =>
        absurd ((holds.publish_room sent).mpr room) Bool.noConfusion
      simp only at params
      have stepped : intakeStep (intakeRules (shmPorts topo.peers) wired.ids) (shmPorts topo.peers)
          a (.publish peer msg) = a := by
        simp [intakeStep, intakeAct, params, Sched.step, intakeRules, full]
      rw [stepped]
      refine ⟨same.served, fun port declared => ?_⟩
      by_cases here : port = (peer, ⟨name, p, true⟩)
      · subst here
        refine holds.of_same ?_ rfl rfl
        rcases Nat.lt_or_ge (u64Sub (s.router.world.mem name).req.head
          (s.router.world.mem name).req.tail) p.slotCount with room | none
        · rw [holds.live.pending] at room
          exact absurd room full
        · simp only [trySend, Bool.false_eq_true, if_false, shmTryPushSlot_full msg none,
            Prod.mk.injEq, and_true] at sent
          simp [ShmSystem.setMem, ← sent]
      · have region : port.2.name ≠ name := fun eq => here ((wired.alone inside).name _ declared eq)
        exact (same.rings port declared).of_same
          (congrArg (·.req) (trySend_elsewhere sent _ region)) rfl rfl
  | forwarded scratch ts =>
      exact Schedules.forward { s.router with frame := scratch } wired routes inv.server inv.ports
        same ts
  | @popped peer msg name p mem inside received =>
      exact ⟨same.served, fun port declared =>
        (same.rings port declared).of_same (client_recv_req received _) rfl rfl⟩
  | nothing => exact same
  | floorSet floor => exact same

/-! ### Runs -/

/-- The scheduler of an accepted profile. -/
def LoadedTopology.intake {t : LoadedTopology} (wellFormed : t.WellFormed) : Rules UInt8 Bytes :=
  intakeRules (shmPorts t.peers) (shmPorts_ids wellFormed)

theorem published_grows (step : shmStep rules s act = some s') (p : UInt8) :
    s.published p <+: s'.published p := by
  cases shmStep_cases step with
  | @published peer msg _ _ _ _ _ =>
      by_cases here : p = peer
      · subst here
        simp
      · simp [Function.update_of_ne here]
  | rejected | forwarded | popped | nothing | floorSet => exact List.prefix_rfl

theorem run_published_grows {schedule : List ShmAct}
    (ran : run (shmStep rules) s schedule = some s') (p : UInt8) :
    s.published p <+: s'.published p :=
  run_inv (I := fun now => s.published p <+: now.published p) List.prefix_rfl
    (fun _ _ _ reached step => reached.trans (published_grows step p)) ran

theorem schedules_boot {mem : ShmMemory} (booted : bootShm topo mem = .ok s) :
    Schedules (shmPorts topo.peers) s.published s.router.world {} := by
  obtain ⟨-, world, published, -⟩ := bootShm_eq booted
  rw [world, published]
  refine ⟨rfl, fun port inside => ?_⟩
  obtain ⟨p, region⟩ := bindChannels_region mem inside
  refine ⟨?_, rfl, ?_⟩ <;> dsimp only <;> rw [region]
  · exact ⟨rfl, Nat.zero_le _, Nat.two_pow_pos 64, RingWindow.holds_nil⟩
  · rfl

/-- A run of the system is a run of the scheduler. -/
theorem run_schedules {schedule : List ShmAct} (wired : Wired (shmPorts topo.peers))
    (routes : RoutesTo rules ((shmPorts topo.peers).map Prod.fst)) (inv : ShmInv rules topo s)
    (same : Schedules (shmPorts topo.peers) s.published s.router.world a)
    (ran : run (shmStep rules) s schedule = some s')
    (fewer : ∀ port ∈ shmPorts topo.peers, (s'.published port.1).length < 2 ^ 64) :
    Schedules (shmPorts topo.peers) s'.published s'.router.world
      (a.run (intakeRules (shmPorts topo.peers) wired.ids)
        (schedule.filterMap (intakeAct (shmPorts topo.peers)))) := by
  induction schedule generalizing s a with
  | nil =>
      cases ran
      exact same
  | cons act schedule ih =>
      obtain ⟨next, first, rest⟩ := run_cons_eq_some.mp ran
      have below : ∀ port ∈ shmPorts topo.peers, (next.published port.1).length < 2 ^ 64 :=
        fun port inside => Nat.lt_of_le_of_lt (run_published_grows rest port.1).length_le
          (fewer port inside)
      have later := ih (shmStep_inv wired routes inv first) (same.step wired routes inv first below)
        rest
      rw [List.filterMap_cons]
      unfold intakeStep at later
      cases seen : intakeAct (shmPorts topo.peers) act <;> rw [seen] at later <;> exact later

variable {root : TomlTable} {t : LoadedTopology} {mem : ShmMemory} {schedule : List ShmAct}
  {s₀ : ShmSystem}

/-- What the router of an accepted all-SHM profile takes in, and what waits in its request
rings, is what the scheduler of the profile makes of the publishes and the calls of `forward`. -/
theorem intake_refines (accepted : buildFrom root = .ok t) (all : t.AllShm)
    (names : t.DistinctShmNames) (booted : bootShm t.view mem = .ok s₀)
    (ran : run (shmStep t.routes) s₀ schedule = some s)
    (fewer : ∀ port ∈ shmPorts t.peers, (s.published port.1).length < 2 ^ 64) :
    Schedules (shmPorts t.peers) s.published s.router.world
      (Sched.run (LoadedTopology.intake (buildFrom_wellFormed accepted)) {}
        (schedule.filterMap (intakeAct (shmPorts t.peers)))) := by
  have wellFormed := buildFrom_wellFormed accepted
  exact run_schedules (wired_shmPorts wellFormed names) (routesTo_shmPorts wellFormed all)
    (shmInv_boot names booted) (schedules_boot booted) ran fewer

theorem shmPair_shape (accepted : buildFrom shmPair = .ok t) : t.AllShm ∧ t.DistinctShmNames ∧
    ∃ first second, shmPorts t.peers = [first, second] ∧ first.1 = 1 ∧ second.1 = 2 := by
  have shape : ∀ t ∈ (buildFrom shmPair).toOption, t.AllShm ∧ t.DistinctShmNames ∧
      (shmPorts t.peers).map Prod.fst = [1, 2] := by decide +kernel
  obtain ⟨all, names, ids⟩ := shape t (toOption_eq_some.mpr accepted)
  obtain ⟨first, rest, ports, one, later⟩ := List.map_eq_cons_iff.mp ids
  obtain ⟨second, none, rfl, two, last⟩ := List.map_eq_cons_iff.mp later
  obtain rfl := List.map_eq_nil_iff.mp last
  exact ⟨all, names, first, second, ports, one, two⟩

/-- The schedule of a short message and a frame as its scheduler sees it. -/
theorem intake_refines_pair : ∃ t s₀ s, ∃ accepted : buildFrom shmPair = .ok t,
    bootShm t.view noShm = .ok s₀ ∧ run (shmStep t.routes) s₀ shmPairSchedule = some s ∧
    s.router.world.arrivals.length = 2 ∧
    Schedules (shmPorts t.peers) s.published s.router.world
      (Sched.run (LoadedTopology.intake (buildFrom_wellFormed accepted)) {}
        (shmPairSchedule.filterMap (intakeAct (shmPorts t.peers)))) := by
  have outcome : ((runShm shmPair shmPairSchedule).map fun s =>
      ((s.published 1).length, (s.published 2).length, s.router.world.arrivals.length)) =
      some (2, 0, 2) := by decide +kernel
  obtain ⟨s, ran, counts⟩ := Option.map_eq_some_iff.mp outcome
  obtain ⟨t, s₀, accepted, booted, ran⟩ := runShm_eq_some.mp ran
  obtain ⟨all, names, first, second, ports, one, two⟩ := shmPair_shape accepted
  simp only [Prod.mk.injEq] at counts
  refine ⟨t, s₀, s, accepted, booted, ran, counts.2.2, intake_refines accepted all names booted ran ?_⟩
  rw [ports]
  simp [one, two, counts]

/-! ### Bounded waiting -/

/-- The calls of `forward` in a schedule. -/
def forwards (schedule : List ShmAct) : Nat := schedule.countP fun
  | .forward _ _ => true
  | _ => false

theorem scans_intake (ports : List Port) (schedule : List ShmAct) :
    Sched.scans (schedule.filterMap (intakeAct ports)) = forwards schedule := by
  induction schedule with
  | nil => rfl
  | cons act schedule ih =>
      unfold Sched.scans forwards at ih ⊢
      rw [List.filterMap_cons]
      cases act with
      | publish peer msg =>
          cases params : paramsOf ports peer with
          | none => simpa [intakeAct, params] using ih
          | some p => simpa [intakeAct, params] using ih
      | forward scratch ts => simpa [intakeAct] using ih
      | pop peer => simpa [intakeAct] using ih
      | setFloor floor => simpa [intakeAct] using ih

/-- How many of a peer's messages have been taken in. -/
def ShmSystem.takenIn (s : ShmSystem) (port : Port) : Nat :=
  (arrivedFrom s.router.world.arrivals port.1).length

/-- Bounded waiting. A state is reached in which a peer has published `n + 1` messages. If no
message of its own or of the peers declared before it is longer than a frame, all `n + 1` have
been taken in after more calls of `forward` than there were or came messages before them: those
of the earlier peers, and its own first `n`. -/
theorem shm_bounded_wait (accepted : buildFrom root = .ok t) (all : t.AllShm)
    (names : t.DistinctShmNames) (booted : bootShm t.view mem = .ok s₀)
    (reached : run (shmStep t.routes) s₀ schedule = some s) {more : List ShmAct}
    (ran : run (shmStep t.routes) s more = some s')
    (fewer : ∀ port ∈ shmPorts t.peers, (s'.published port.1).length < 2 ^ 64)
    {before after : List Port} (order : shmPorts t.peers = before ++ port :: after)
    (short : ∀ q ∈ before ++ [port], ∀ m ∈ s'.published q.1, m.length ≤ kRouterFrameSize) {n : Nat}
    (published : n < (s.published port.1).length)
    (enough : (before.map fun q => (s'.published q.1).length - s.takenIn q).sum +
      (n - s.takenIn port) < forwards more) :
    (s.published port.1).take (n + 1) <+: arrivedFrom s'.router.world.arrivals port.1 := by
  have wellFormed := buildFrom_wellFormed accepted
  have wired := wired_shmPorts wellFormed names
  have routes := routesTo_shmPorts wellFormed all
  have grown := run_published_grows ran
  have start : Schedules (shmPorts t.peers) s.published s.router.world
      (Sched.run (intakeRules (shmPorts t.peers) wired.ids) {}
        (schedule.filterMap (intakeAct (shmPorts t.peers)))) :=
    run_schedules wired routes (shmInv_boot names booted) (schedules_boot booted) reached
      fun port inside => Nat.lt_of_le_of_lt (grown port.1).length_le (fewer port inside)
  generalize Sched.run (intakeRules (shmPorts t.peers) wired.ids) {}
    (schedule.filterMap (intakeAct (shmPorts t.peers))) = a at start
  have final : Schedules (shmPorts t.peers) s'.published s'.router.world
      (a.run (intakeRules (shmPorts t.peers) wired.ids)
        (more.filterMap (intakeAct (shmPorts t.peers)))) :=
    run_schedules wired routes (run_shmInv wired routes (shmInv_boot names booted) reached) start
      ran fewer
  have inside : port ∈ shmPorts t.peers := by
    rw [order]
    exact List.mem_append_right _ List.mem_cons_self
  have declared : ∀ q ∈ before ++ [port], q ∈ shmPorts t.peers := by
    intro q mem
    rw [order, List.append_cons]
    exact List.mem_append_left _ mem
  -- No message was cut, so the scheduler has accepted what was published.
  have uncut : ∀ q ∈ before ++ [port], (s'.published q.1).map (cut q.2.params) = s'.published q.1 := by
    intro q mem
    have room := wired.fits q (declared q mem)
    exact (List.map_congr_left fun m published => cut_eq_self
      (Nat.le_trans (short q mem m published) room)).trans (List.map_id' _)
  have taken : n < (Sched.taken (a.run (intakeRules (shmPorts t.peers) wired.ids)
      (more.filterMap (intakeAct (shmPorts t.peers)))) port.1).length := by
    have keys : (intakeRules (shmPorts t.peers) wired.ids).keys =
        before.map Prod.fst ++ port.1 :: after.map Prod.fst := by simp [intakeRules, order]
    refine Sched.bounded_wait keys _ a ?_ ?_ ?_
    · intro id mem m waiting
      obtain ⟨q, front, rfl⟩ : ∃ q ∈ before ++ [port], q.1 = id := by
        rw [← List.map_singleton, ← List.map_append] at mem
        exact List.mem_map.mp mem
      rw [final.accepted (declared q front), uncut q front] at waiting
      exact scanVerdict_ne_block.mpr (short q front m waiting)
    · rw [start.accepted inside, List.length_map]
      exact published
    · rw [scans_intake, start.taken, List.map_map]
      refine (congrArg (· + _ < _) (congrArg List.sum (List.map_congr_left ?_))).mpr enough
      intro q mem
      have front : q ∈ before ++ [port] := List.mem_append_left _ mem
      simp only [Function.comp]
      rw [final.accepted (declared q front), start.taken, List.length_map]
      rfl
  rw [final.taken] at taken
  have received : arrivedFrom s'.router.world.arrivals port.1 <+: s'.published port.1 := by
    have holds := (final.rings port inside).all
    rw [uncut port (by simp)] at holds
    exact holds ▸ List.prefix_append _ _
  have first : (s.published port.1).take (n + 1) <+: s.published port.1 := List.take_prefix _ _
  exact List.prefix_of_prefix_length_le (first.trans (grown port.1)) received
    (by rw [List.length_take]; omega)

/-- Both peers publish a frame. -/
def bothPublish : List ShmAct :=
  [.publish 1 RouterFrame.zero.bytes, .publish 2 RouterFrame.zero.bytes]

/-- The second of two calls takes the second peer's frame. -/
theorem shm_bounded_wait_pair : ∃ t s₀ s s' port, buildFrom shmPair = .ok t ∧
    bootShm t.view noShm = .ok s₀ ∧ run (shmStep t.routes) s₀ bothPublish = some s ∧
    run (shmStep t.routes) s [.forward .zero 0, .forward .zero 1] = some s' ∧
    port ∈ shmPorts t.peers ∧ port.1 = 2 ∧ s.published 2 = [RouterFrame.zero.bytes] ∧
    (s.published port.1).take 1 <+: arrivedFrom s'.router.world.arrivals port.1 := by
  have outcome : ((runShm shmPair bothPublish).map fun s =>
      (s.published 2, (arrivedFrom s.router.world.arrivals 1).length)) =
      some ([RouterFrame.zero.bytes], 0) := by decide +kernel
  have outcome' : ((runShm shmPair (bothPublish ++ [.forward .zero 0, .forward .zero 1])).map
      fun s => (s.published 1, s.published 2)) =
      some ([RouterFrame.zero.bytes], [RouterFrame.zero.bytes]) := by decide +kernel
  obtain ⟨s', both, published'⟩ := Option.map_eq_some_iff.mp outcome'
  obtain ⟨t, s₀, accepted, booted, ran'⟩ := runShm_eq_some.mp both
  rw [run_append, Option.bind_eq_some_iff] at ran'
  obtain ⟨s, reached, ran⟩ := ran'
  have counts : (s.published 2, (arrivedFrom s.router.world.arrivals 1).length) =
      ([RouterFrame.zero.bytes], 0) := by
    rw [runShm_eq_some.mpr ⟨t, s₀, accepted, booted, reached⟩] at outcome
    exact Option.some.inj outcome
  obtain ⟨all, names, first, second, ports, one, two⟩ := shmPair_shape accepted
  simp only [Prod.mk.injEq] at counts published'
  have size : RouterFrame.zero.bytes.length = kRouterFrameSize := RouterFrame.zero.size
  refine ⟨t, s₀, s, s', second, accepted, booted, reached, ran, by simp [ports], two, counts.1, ?_⟩
  have order : shmPorts t.peers = [first] ++ second :: [] := ports
  refine shm_bounded_wait accepted all names booted reached ran ?_ order ?_ (n := 0) ?_ ?_
  · rw [ports]
    simp [one, two, published']
  · simp [one, two, published', size]
  · simp [two, counts]
  · simp [ShmSystem.takenIn, one, published', counts, forwards]

/-! ### Turns -/

/-- The messages of a peer that wait in its request ring. -/
def ShmSystem.waiting (s : ShmSystem) (port : Port) : List Bytes :=
  ((s.published port.1).map (cut port.2.params)).drop (s.takenIn port)

/-- It is the peer's turn: it has a message that fits a frame in front, and those declared
`before` it have a short message in front, or none. -/
def ShmSystem.Turn (s : ShmSystem) (before : List Port) (port : Port) : Prop :=
  (∀ q ∈ before, ∀ m ∈ (s.waiting q).head?, m.length < kRouterFrameSize) ∧
    ∃ m ∈ (s.waiting port).head?, m.length ≤ kRouterFrameSize

instance (s : ShmSystem) (before : List Port) (port : Port) : Decidable (s.Turn before port) :=
  inferInstanceAs (Decidable (_ ∧ _))

/-- The calls of `forward` of a run that are made at the peer's turn. -/
def turns (rules : List RouteRule) (before : List Port) (port : Port) :
    ShmSystem → List ShmAct → Nat
  | _, [] => 0
  | s, act :: schedule =>
      let later := (shmStep rules s act).elim 0 fun s => turns rules before port s schedule
      match act with
      | .forward _ _ => later + if s.Turn before port then 1 else 0
      | _ => later

theorem Schedules.waiting (same : Schedules ports s.published s.router.world a)
    (mem : port ∈ ports) : s.waiting port = a.pending port.1 := by
  rw [ShmSystem.waiting, (same.rings port mem).all, ShmSystem.takenIn, List.drop_left]

theorem Schedules.turn_iff {before : List Port} {r : Rules UInt8 Bytes}
    (same : Schedules ports s.published s.router.world a) (mem : port ∈ ports)
    (sub : ∀ q ∈ before, q ∈ ports) (verdict : r.verdict = scanVerdict) :
    s.Turn before port ↔ a.Turn r (before.map Prod.fst) port.1 := by
  unfold ShmSystem.Turn Sched.Turn Open Free
  rw [verdict, same.waiting mem]
  simp only [List.forall_mem_map, scanVerdict_eq_pass, scanVerdict_ne_block]
  refine and_congr_left fun _ => forall₂_congr fun q inside => ?_
  rw [same.waiting (sub q inside)]

/-- The turns of a run are the scheduler's. -/
theorem turns_eq {before : List Port} (wired : Wired (shmPorts topo.peers))
    (routes : RoutesTo rules ((shmPorts topo.peers).map Prod.fst)) (inv : ShmInv rules topo s)
    (same : Schedules (shmPorts topo.peers) s.published s.router.world a)
    (ran : run (shmStep rules) s schedule = some s')
    (fewer : ∀ port ∈ shmPorts topo.peers, (s'.published port.1).length < 2 ^ 64)
    (inside : port ∈ shmPorts topo.peers) (sub : ∀ q ∈ before, q ∈ shmPorts topo.peers) :
    turns rules before port s schedule =
      Sched.turns (intakeRules (shmPorts topo.peers) wired.ids) (before.map Prod.fst) port.1 a
        (schedule.filterMap (intakeAct (shmPorts topo.peers))) := by
  induction schedule generalizing s a with
  | nil => rfl
  | cons act schedule ih =>
      obtain ⟨next, first, rest⟩ := run_cons_eq_some.mp ran
      have below : ∀ port ∈ shmPorts topo.peers, (next.published port.1).length < 2 ^ 64 :=
        fun port inside => Nat.lt_of_le_of_lt (run_published_grows rest port.1).length_le
          (fewer port inside)
      have later := ih (shmStep_inv wired routes inv first) (same.step wired routes inv first below)
        rest
      have here := same.turn_iff (r := intakeRules (shmPorts topo.peers) wired.ids) inside sub rfl
      unfold intakeStep at later
      rw [List.filterMap_cons]
      cases act with
      | publish peer msg =>
          simp only [turns, first, Option.elim_some]
          cases params : paramsOf (shmPorts topo.peers) peer <;>
            simpa [intakeAct, params, Sched.turns] using later
      | forward scratch ts =>
          simp only [turns, first, Option.elim_some, later, intakeAct, Sched.turns]
          simp only [here]
      | pop peer | setFloor floor =>
          simp only [turns, first, Option.elim_some]
          exact later

/-- A peer is served at its turns and at no other call: over any run, the number of its
messages taken in is the number of calls of `forward` made while it has a message that fits a
frame in front and no peer declared before it has a frame or a longer message there. -/
theorem shm_served_in_turn (accepted : buildFrom root = .ok t) (all : t.AllShm)
    (names : t.DistinctShmNames) (booted : bootShm t.view mem = .ok s₀)
    (ran : run (shmStep t.routes) s₀ schedule = some s)
    (fewer : ∀ port ∈ shmPorts t.peers, (s.published port.1).length < 2 ^ 64)
    {before after : List Port} (order : shmPorts t.peers = before ++ port :: after) :
    s.takenIn port = turns t.routes before port s₀ schedule := by
  have wellFormed := buildFrom_wellFormed accepted
  have wired := wired_shmPorts wellFormed names
  have inside : port ∈ shmPorts t.peers := by
    rw [order]
    exact List.mem_append_right _ List.mem_cons_self
  have sub : ∀ q ∈ before, q ∈ shmPorts t.peers := fun q mem =>
    order ▸ List.mem_append_left _ mem
  have routes := routesTo_shmPorts wellFormed all
  have boot : ShmInv t.routes t.view s₀ := shmInv_boot names booted
  have same := run_schedules wired routes boot (schedules_boot booted) ran fewer
  have counted := turns_eq wired routes boot (schedules_boot booted) ran fewer inside sub
  have keys : (intakeRules (shmPorts t.peers) wired.ids).keys =
      before.map Prod.fst ++ port.1 :: after.map Prod.fst := by simp [intakeRules, order]
  have served := Sched.taken_eq_turns keys (schedule.filterMap (intakeAct (shmPorts t.peers))) {}
  rw [ShmSystem.takenIn, ← same.taken, counted]
  exact served.trans (Nat.zero_add _)

/-- Both peers publish, and the first once more between two calls. -/
def firstInsists : List ShmAct :=
  bothPublish ++ [.forward .zero 0, .publish 1 RouterFrame.zero.bytes, .forward .zero 1]

/-- Then the second peer's frame has not had its turn. -/
theorem shm_served_in_turn_starved : ∃ t s₀ s first port, buildFrom shmPair = .ok t ∧
    bootShm t.view noShm = .ok s₀ ∧ run (shmStep t.routes) s₀ firstInsists = some s ∧
    shmPorts t.peers = [first, port] ∧ s.published port.1 = [RouterFrame.zero.bytes] ∧
    s.takenIn port = 0 ∧ s.takenIn port = turns t.routes [first] port s₀ firstInsists := by
  have outcome : ((runShm shmPair firstInsists).map fun s =>
      (s.published 1, s.published 2, (arrivedFrom s.router.world.arrivals 2).length)) =
      some ([RouterFrame.zero.bytes, RouterFrame.zero.bytes], [RouterFrame.zero.bytes], 0) := by
    decide +kernel
  obtain ⟨s, ran, counts⟩ := Option.map_eq_some_iff.mp outcome
  obtain ⟨t, s₀, accepted, booted, ran⟩ := runShm_eq_some.mp ran
  obtain ⟨all, names, first, second, ports, one, two⟩ := shmPair_shape accepted
  simp only [Prod.mk.injEq] at counts
  refine ⟨t, s₀, s, first, second, accepted, booted, ran, ports, by rw [two]; exact counts.2.1,
    by rw [ShmSystem.takenIn, two]; exact counts.2.2, ?_⟩
  have order : shmPorts t.peers = [first] ++ second :: [] := ports
  refine shm_served_in_turn accepted all names booted ran ?_ order
  rw [ports]
  simp [one, two, counts]

end RoboticsIpc
