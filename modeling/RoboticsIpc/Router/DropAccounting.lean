import RoboticsIpc.Router.ForwardLog
import RoboticsIpc.Router.PriorityFloor
import RoboticsIpc.Router.ShmProgress

/-!
Accounting of the copies an SHM router makes.

Every copy is forwarded or dropped, and the drops add up by peer and by priority
(`DropsConserved`). The `head` of a reply ring counts the copies admitted to it, so for
a destination that has its ring to itself, admissions and drops add up to how often it
was a target. Two destinations on one region share the count.
-/

namespace RoboticsIpc

open ByteBuffer Checked FanOut ShmSpsc StepRun Tally Toml

/-! ### Heads -/

/-- The copies placed in the reply ring of a region. -/
def placedIn (ports : List Port) (handed : List (UInt8 × Bytes)) (name : CStr) : Nat :=
  (handed.filter fun entry => regionOf ports entry.1 = some name).length

/-- The head of each reply ring counts what was placed in it. -/
def HeadsInv (ports : List Port) (w : World) : Prop :=
  ∀ port ∈ ports, (w.mem port.2.name).rep.head = placedIn ports w.handed port.2.name % 2 ^ 64

theorem placedIn_concat (ports : List Port) (handed : List (UInt8 × Bytes))
    (entry : UInt8 × Bytes) (name : CStr) :
    placedIn ports (handed ++ [entry]) name =
      placedIn ports handed name + if regionOf ports entry.1 = some name then 1 else 0 := by
  rw [placedIn, placedIn, List.filter_append, List.length_append]
  by_cases here : regionOf ports entry.1 = some name <;> simp [here]

/-- A receive moves no reply ring's head. -/
theorem tryRecv_rep_head {handle : ShmRegion} {mem mem' : ShmMemory} {capacity : Nat} {msg : Bytes}
    (received : tryRecv handle mem capacity = .ok (some (msg, mem'))) (name : CStr) :
    (mem' name).rep.head = (mem name).rep.head := by
  have popped : ∀ {p : RingParams} {ring ring' : ShmRing},
      shmTryPopSlot p ring capacity = .ok (some (msg, ring')) → ring'.head = ring.head := by
    intro p ring ring' pop
    simp only [shmTryPopSlot] at pop
    split at pop
    · cases pop
    · split at pop <;> cases pop
      rfl
  have elsewhere : ∀ region : MappedRegion, region.rep.head = (mem handle.name).rep.head →
      ((Function.update mem handle.name region) name).rep.head = (mem name).rep.head := by
    intro region same
    by_cases here : name = handle.name
    · subst here
      rw [Function.update_self]
      exact same
    · rw [Function.update_of_ne here]
  simp only [tryRecv] at received
  split at received
  · split at received <;> cases received
    exact elsewhere _ rfl
  · split at received <;> cases received
    exact elsewhere _ (popped ‹_›)

/-- A client's push moves no reply ring. -/
theorem client_send_rep {name : CStr} {p : RingParams} {mem mem' : ShmMemory} {payload : Bytes}
    {ok : Bool} (sent : trySend ⟨name, p, false⟩ mem payload = (mem', ok)) (n : CStr) :
    (mem' n).rep = (mem n).rep := by
  simp only [trySend, Bool.false_eq_true, if_false, Prod.mk.injEq] at sent
  rw [← sent.1]
  by_cases here : n = name
  · subst here
    rw [Function.update_self]
  · rw [Function.update_of_ne here]

variable {ports : List Port}

theorem HeadsInv.pop {ts : UInt64} {channels : List PeerChannel} :
    PopPreserves (HeadsInv ports) ts channels := by
  intro c _ w msg mem inv received port inside
  rw [tryRecv_rep_head received]
  exact inv port inside

/-- The router's push moves the head of the ring it places the copy in. -/
theorem HeadsInv.push (server : ∀ port ∈ ports, port.2.isServerRole = true)
    (ids : (ports.map Prod.fst).Nodup) (payload : Bytes) :
    PushPreserves (HeadsInv ports) ports payload := by
  intro port inside w mem inv
  have region := regionOf_of_mem ids inside
  rcases Nat.lt_or_ge (u64Sub (w.mem port.2.name).rep.head (w.mem port.2.name).rep.tail)
    port.2.params.slotCount with room | full
  · have pushed := shmTryPushSlot_room payload room
    refine ⟨fun sent => ?_, fun sent => ?_⟩
    · simp only [trySend, server port inside, if_true, pushed, Prod.mk.injEq] at sent
      intro other declared
      have count := inv other declared
      rw [placedIn_concat, region, ← sent.1]
      dsimp only
      by_cases here : other.2.name = port.2.name
      · rw [here] at count ⊢
        rw [Function.update_self, if_pos rfl]
        simp only [pushedRing, u64Inc, count]
        omega
      · rw [Function.update_of_ne here, if_neg (fun same => here (Option.some.inj same).symm), count,
          Nat.add_zero]
    · simp only [trySend, server port inside, if_true, pushed, Prod.mk.injEq] at sent
      cases sent.2
  · have rejected := shmTryPushSlot_full payload full
    refine ⟨fun sent => ?_, fun sent => ?_⟩
    · simp only [trySend, server port inside, if_true, rejected, Prod.mk.injEq] at sent
      cases sent.2
    · simp only [trySend, server port inside, if_true, rejected, Prod.mk.injEq] at sent
      intro other declared
      rw [← sent.1]
      dsimp only
      by_cases here : other.2.name = port.2.name
      · rw [here, Function.update_self, ← here]
        exact inv other declared
      · rw [Function.update_of_ne here]
        exact inv other declared

/-- Binding leaves every region it makes with unused rings, whichever peer made it last. -/
theorem bindChannels_region {peers : List PeerEntry} (mem : ShmMemory) {port : Port}
    (inside : port ∈ shmPorts peers) :
    ∃ p, (bindChannels peers mem).1 port.2.name = ⟨initRing p, initRing p⟩ := by
  induction peers generalizing mem port with
  | nil => simp [shmPorts] at inside
  | cons e rest ih =>
      rw [bindChannels_cons]
      cases address : e.localAddress with
      | uds path =>
          simp only [shmPorts, List.filterMap_cons, address] at inside
          exact ih mem inside
      | udp endpoint =>
          simp only [shmPorts, List.filterMap_cons, address] at inside
          exact ih mem inside
      | shm name =>
          simp only [shmPorts, List.filterMap_cons, address] at inside
          dsimp only
          by_cases again : port.2.name ∈ (shmPorts rest).map fun port => port.2.name
          · obtain ⟨other, later, same⟩ := List.mem_map.mp again
            rw [← same]
            exact ih _ later
          · rcases List.mem_cons.mp inside with rfl | later
            · rw [bindChannels_elsewhere _ again, Function.update_self]
              exact ⟨ringParams e, rfl⟩
            · exact absurd (List.mem_map.mpr ⟨port, later, rfl⟩) again

variable {topo : RouterTopology} {rules : List RouteRule}

theorem headsInv_boot {mem : ShmMemory} {s : ShmSystem} (booted : bootShm topo mem = .ok s) :
    HeadsInv (shmPorts topo.peers) s.router.world := by
  obtain ⟨-, world, -, -⟩ := bootShm_eq booted
  intro port inside
  obtain ⟨p, region⟩ := bindChannels_region mem inside
  rw [world]
  dsimp only
  rw [region]
  rfl

theorem HeadsInv.step {s s' : LoggedSystem} {act : ShmAct} (logged : LoggedInv rules topo s)
    (ids : ((shmPorts topo.peers).map Prod.fst).Nodup)
    (noInvalid : kEndpointInvalid ∉ (shmPorts topo.peers).map Prod.fst)
    (routes : RoutesTo rules ((shmPorts topo.peers).map Prod.fst))
    (inv : HeadsInv (shmPorts topo.peers) s.system.router.world)
    (stepped : loggedStep rules s act = some s') :
    HeadsInv (shmPorts topo.peers) s'.system.router.world := by
  obtain ⟨next, step, rfl⟩ := Option.map_eq_some_iff.mp stepped
  have server := shmPorts_server topo.peers
  cases shmStep_cases step with
  | published _ sent | rejected _ sent =>
      intro port inside
      exact (congrArg ShmRing.head (client_send_rep sent port.2.name)).trans (inv port inside)
  | forwarded scratch ts =>
      obtain ⟨-, -, -, kept, -⟩ := forward_spec (J := HeadsInv (shmPorts topo.peers))
        (s := { s.system.router with frame := scratch }) ts rules logged.server
        (by simp only [logged.ports]; exact noInvalid)
        (by simp only [logged.ports]; exact routes) HeadsInv.pop
        (fun payload _ => by simp only [logged.ports]; exact HeadsInv.push server ids payload) inv
      intro port inside
      rw [reportForward_mem, reportForward_handed]
      exact kept port inside
  | popped _ received =>
      intro port inside
      exact (tryRecv_rep_head received port.2.name).trans (inv port inside)
  | nothing => exact inv
  | floorSet floor => exact inv

/-! ### Conservation -/

/-- No other destination of the rules has the region of `d`. -/
def OwnReplyRing (t : LoadedTopology) (d : UInt8) (name : CStr) : Prop :=
  (∃ port ∈ shmPorts t.peers, port.1 = d ∧ port.2.name = name) ∧
    ∀ port ∈ shmPorts t.peers, port.2.name = name →
      (∃ rule ∈ t.routes, port.1 ∈ rule.dests) → port.1 = d

instance (t : LoadedTopology) (d : UInt8) (name : CStr) : Decidable (OwnReplyRing t d name) :=
  inferInstanceAs (Decidable (_ ∧ _))

/-- The equations between the counters of a server link and what its calls returned. -/
structure DropsConserved (t : LoadedTopology) (s : LoggedSystem) : Prop where
  copies : s.system.router.link.metrics.forwarded + s.system.router.link.metrics.droppedFull =
    (s.log.map fun r => r.result.targets.count).sum
  perPeer : s.system.router.link.metrics.droppedFull =
    total (byteKeys 256) s.system.router.link.metrics.droppedFullPerPeer
  byPriority : s.system.router.link.metrics.droppedFull =
    total (byteKeys 8) s.system.router.link.metrics.droppedByPriority
  reserved : s.system.router.link.metrics.droppedFullPerPeer kEndpointInvalid = 0 ∧
    s.system.router.link.metrics.droppedFullPerPeer kEndpointServer = 0
  unrouted : ∀ id, (∀ rule ∈ t.routes, id ∉ rule.dests) →
    s.system.router.link.metrics.droppedFullPerPeer id = 0

/-- No copy is made for a peer that no rule lists. -/
theorem LogInv.unrouted {s : ShmState} {log : List ForwardRecord} (inv : LogInv rules s log)
    {id : UInt8} (never : ∀ rule ∈ rules, id ∉ rule.dests) :
    s.link.metrics.droppedFullPerPeer id = 0 ∧ share s.world.handed id = [] := by
  have none : dueTo rules s.world.arrivals id = [] := by
    rw [dueTo, delivered, List.map_eq_nil_iff, List.filter_eq_nil_iff]
    intro a _ listed
    have routed : id ∈ a.route rules := of_decide_eq_true listed
    rw [Arrival.route] at routed
    split at routed
    · obtain ⟨rule, inside, -, lists, -⟩ := mem_routedTo routed
      exact never rule inside lists
    · cases routed
  have offers : offersTo id log = [] := by
    have same := inv.offered id
    rw [none] at same
    exact List.map_eq_nil_iff.mp same
  have accounted := inv.accounted id
  rw [inv.once, offers, List.length_nil] at accounted
  exact ⟨by omega, List.eq_nil_of_length_eq_zero (by omega)⟩

/-- On a ring of its own a peer's share of the copies is all that was placed. -/
theorem placedIn_eq_share {handed : List (UInt8 × Bytes)} {d : UInt8} {name : CStr}
    (own : ∀ entry ∈ handed, regionOf ports entry.1 = some name ↔ entry.1 = d) :
    placedIn ports handed name = (share handed d).length := by
  rw [placedIn, share, List.length_map]
  congr 1
  apply List.filter_congr
  intro entry mem
  simp [own entry mem]

theorem regionOf_eq_some {id : UInt8} {name : CStr} (found : regionOf ports id = some name) :
    ∃ port ∈ ports, port.1 = id ∧ port.2.name = name := by
  obtain ⟨port, isPort, same⟩ := Option.map_eq_some_iff.mp found
  exact ⟨port, List.mem_of_find?_eq_some isPort, by simpa using List.find?_some isPort, same⟩

/-- In every run of a server over an accepted all-SHM profile, copies are forwarded or
dropped and drops add up by peer and by priority; and a destination that has its reply
ring to itself was admitted to it, or dropped, as often as it was a target. -/
theorem drops_conserved {root : TomlTable} {t : LoadedTopology} {mem : ShmMemory}
    {schedule : List ShmAct} {s₀ : ShmSystem} {s : LoggedSystem} (accepted : buildFrom root = .ok t)
    (all : t.AllShm) (booted : bootShm t.view mem = .ok s₀)
    (ran : run (loggedStep t.routes) { system := s₀ } schedule = some s) :
    DropsConserved t s ∧ ∀ d name, OwnReplyRing t d name → timesTarget d s.log < 2 ^ 64 →
      (s.system.router.world.mem name).rep.head +
        s.system.router.link.metrics.droppedFullPerPeer d = timesTarget d s.log := by
  have wellFormed := buildFrom_wellFormed accepted
  have routes := routesTo_shmPorts wellFormed all
  have ids := shmPorts_ids wellFormed
  have declared : ∀ port ∈ shmPorts t.peers, port.1 ≠ kEndpointInvalid ∧
      port.1 ≠ kEndpointServer := by
    intro port inside
    obtain ⟨e, isPeer, name, -, rfl⟩ := mem_shmPorts.mp inside
    exact ⟨(wellFormed.peers e isPeer).id_ne_invalid, (wellFormed.peers e isPeer).id_ne_server⟩
  have noInvalid := shmPorts_valid wellFormed
  have fanOut := fanOutRules_of_wellFormed wellFormed
  obtain ⟨logged, heads⟩ := run_inv (I := fun s => LoggedInv t.routes t.view s ∧
      HeadsInv (shmPorts t.peers) s.system.router.world)
    ⟨loggedInv_boot booted, headsInv_boot booted⟩
    (fun _ _ _ inv stepped => ⟨inv.1.step fanOut noInvalid routes stepped,
      inv.2.step inv.1 ids noInvalid routes stepped⟩) ran
  have log := logged.log
  have unlisted : ∀ id, (id = kEndpointInvalid ∨ id = kEndpointServer) →
      ∀ rule ∈ t.routes, id ∉ rule.dests := by
    intro id reserved rule mem listed
    obtain ⟨port, inside, rfl⟩ := List.mem_map.mp (routes rule mem id listed)
    have usable := declared port inside
    rcases reserved with invalid | server
    · exact usable.1 invalid
    · exact usable.2 server
  refine ⟨⟨log.counted, log.balanced.perPeer, log.balanced.byPriority,
    ⟨(log.unrouted (unlisted _ (.inl rfl))).1, (log.unrouted (unlisted _ (.inr rfl))).1⟩,
    fun id never => (log.unrouted never).1⟩, ?_⟩
  rintro d _ ⟨⟨port, inside, rfl, rfl⟩, own⟩ below
  have placed : placedIn (shmPorts t.peers) s.system.router.world.handed port.2.name =
      (share s.system.router.world.handed port.1).length := by
    apply placedIn_eq_share
    intro entry handed
    constructor
    · intro region
      obtain ⟨other, declared, same, name⟩ := regionOf_eq_some region
      rw [← same]
      apply own other declared name
      by_contra none
      have never : ∀ rule ∈ t.routes, entry.1 ∉ rule.dests :=
        fun rule mem listed => none ⟨rule, mem, same ▸ listed⟩
      have empty := (log.unrouted never).2
      rw [share, List.map_eq_nil_iff, List.filter_eq_nil_iff] at empty
      exact empty entry handed (by simp)
    · intro same
      rw [same]
      exact regionOf_of_mem ids inside
  have head := heads port inside
  have accounted := log.accounted port.1
  rw [placed] at head
  omega

/-- Load a profile, bind its SHM router and run a schedule, with a log. -/
def runLogged (root : TomlTable) (schedule : List ShmAct) : Option LoggedSystem := do
  let t ← (buildFrom root).toOption
  let s₀ ← (bootShm t.view noShm).toOption
  run (loggedStep t.routes) { system := s₀ } schedule

theorem runLogged_eq_some {root : TomlTable} {schedule : List ShmAct} {s : LoggedSystem} :
    runLogged root schedule = some s ↔ ∃ t s₀, buildFrom root = .ok t ∧
      bootShm t.view noShm = .ok s₀ ∧
      run (loggedStep t.routes) { system := s₀ } schedule = some s := by
  unfold runLogged
  cases buildFrom root with
  | error e => simp [Except.toOption]
  | ok t => cases booted : bootShm t.view noShm <;> simp [Except.toOption, booted]

/-- Of two frames for a one-slot ring one is admitted and one dropped. -/
theorem drops_conserved_pair : ∃ s, runLogged shmPair shmPairBurst = some s ∧
    timesTarget 2 s.log = 2 ∧ (s.system.router.world.mem (cStr (ascii "/b"))).rep.head +
      s.system.router.link.metrics.droppedFullPerPeer 2 = 2 := by
  have shape : ∀ t ∈ (buildFrom shmPair).toOption,
      t.AllShm ∧ OwnReplyRing t 2 (cStr (ascii "/b")) := by decide +kernel
  have outcome : (runLogged shmPair shmPairBurst).map (fun s => timesTarget 2 s.log) = some 2 := by
    decide +kernel
  obtain ⟨s, ran, times⟩ := Option.map_eq_some_iff.mp outcome
  obtain ⟨t, s₀, accepted, booted, steps⟩ := runLogged_eq_some.mp ran
  obtain ⟨all, own⟩ := shape t (toOption_eq_some.mpr accepted)
  have counts := (drops_conserved accepted all booted steps).2 2 _ own (by rw [times]; decide)
  exact ⟨s, ran, times, counts.trans times⟩

/-- Peers 2 and 3 on one region, and a route to both. -/
def sharedReply : TomlTable :=
  profile "shm:/router" [peerTable 1 "a" "shm:/a" (smallRing 2),
      peerTable 2 "b" "shm:/b" (smallRing 2), peerTable 3 "c" "shm:/b" (smallRing 2)]
    [.table [(ascii "source", .integer 1), (ascii "dest", .array [.integer 2, .integer 3])]]

/-- One frame was for peer 2, and its ring has admitted two. -/
theorem shared_reply_ring_miscounts : ∃ t s₀ s, buildFrom sharedReply = .ok t ∧ t.AllShm ∧
    bootShm t.view noShm = .ok s₀ ∧
    run (loggedStep t.routes) { system := s₀ }
      [.publish 1 RouterFrame.zero.bytes, .forward .zero 0] = some s ∧
    timesTarget 2 s.log = 1 ∧ s.system.router.link.metrics.droppedFullPerPeer 2 = 0 ∧
    (s.system.router.world.mem (cStr (ascii "/b"))).rep.head = 2 := by
  have shape : ∀ t ∈ (buildFrom sharedReply).toOption, t.AllShm := by decide +kernel
  have outcome : (runLogged sharedReply [.publish 1 RouterFrame.zero.bytes, .forward .zero 0]).map
      (fun s => (timesTarget 2 s.log, s.system.router.link.metrics.droppedFullPerPeer 2,
        (s.system.router.world.mem (cStr (ascii "/b"))).rep.head)) = some (1, 0, 2) := by
    decide +kernel
  obtain ⟨s, ran, counts⟩ := Option.map_eq_some_iff.mp outcome
  obtain ⟨t, s₀, accepted, booted, steps⟩ := runLogged_eq_some.mp ran
  obtain ⟨times, rest⟩ := Prod.mk.inj counts
  obtain ⟨dropped, head⟩ := Prod.mk.inj rest
  exact ⟨t, s₀, s, accepted, shape t (toOption_eq_some.mpr accepted), booted, steps, times, dropped,
    head⟩

end RoboticsIpc
