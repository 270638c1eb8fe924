import RoboticsIpc.Ipc.RingCoupling
import RoboticsIpc.Router.ShmDelivery

/-!
The priority floor of the SHM link (`set_priority_drop_floor`).

A destination's `congested` flag is set by a push that finds its ring full and
cleared by a push that succeeds. A frame below the floor is shed before the ring
is tried, so while the flag is set such a frame can do neither: over a drained
ring the floor still bites, until some frame at or above it comes
(`floor_admits_iff`).

`LinkAct` are the calls a server link is driven by, in whatever order:
`forward` and the poll loop of a mixed router are both made of them
(`forward_linkRun`).
-/

namespace RoboticsIpc

open ByteBuffer FanOut ShmSpsc StepRun

/-! ### Reachable states -/

/-- One call on a server link. `clients` is what its peers and the owner of the
scratch frame do in between, `report` the server's `on_forward` calls. -/
inductive LinkAct where
  | clients (frame : RouterFrame) (mem : ShmMemory)
  | receive (ts : UInt64)
  | countEmpty
  | send (dest : UInt8) (payload : Bytes)
  | report (pairs : List (UInt8 × UInt8))
  | setFloor (floor : UInt8)

def linkStep (s : ShmState) : LinkAct → ShmState
  | .clients frame mem => { s with frame, world := { s.world with mem } }
  | .receive ts => (s.tryReceive ts).state
  | .countEmpty => s.countEmpty
  | .send dest payload => (s.sendToPeer dest payload).state
  | .report pairs => { s with world := { s.world with reported := s.world.reported ++ pairs } }
  | .setFloor floor => { s with link := { s.link with priorityDropFloor := floor } }

/-- A run of calls. An exception leaves its effects and the next call follows. -/
def linkRun (acts : List LinkAct) (s : ShmState) : ShmState := acts.foldl linkStep s

/-- The states of a server link bound from `topo`. -/
inductive Reachable (topo : RouterTopology) : ShmState → Prop
  | bound {link : ShmRouterLink} {mem mem' : ShmMemory} {frame : RouterFrame}
      (bound : (ShmRouterLink.server topo).bindRouter mem = .ok (link, mem')) :
      Reachable topo ⟨link, frame, { mem := mem' }⟩
  | step {s : ShmState} (act : LinkAct) (before : Reachable topo s) :
      Reachable topo (linkStep s act)

theorem Reachable.run {topo : RouterTopology} {s : ShmState} (reached : Reachable topo s)
    (acts : List LinkAct) : Reachable topo (linkRun acts s) := by
  induction acts generalizing s with
  | nil => exact reached
  | cons act acts ih => exact ih (reached.step act)

/-- A loop of sends is a run of sends, up to the first that throws. -/
theorem sendAll_linkRun (dests : List UInt8) (payload : Bytes) (s : ShmState) :
    ∃ acts, (forEach (fun s dest => s.sendToPeer dest payload) dests s).state = linkRun acts s := by
  refine forEach_rel (R := fun s s' => ∃ acts, s' = linkRun acts s) (fun s => ⟨[], rfl⟩) ?_ ?_ dests s
  · rintro s s' s'' ⟨first, rfl⟩ ⟨second, rfl⟩
    exact ⟨first ++ second, by simp [linkRun]⟩
  · intro s dest
    exact ⟨[.send dest payload], rfl⟩

/-- `forward` is made of the calls above. -/
theorem forward_linkRun (ts : UInt64) (rules : List RouteRule) (s : ShmState) :
    ∃ acts, (s.forward ts rules).state = linkRun acts s := by
  cases role : s.link.isServer with
  | false => exact ⟨[], by rw [ShmState.forward, if_pos role]; rfl⟩
  | true =>
      have received : ∀ {mid : ShmState} {result : Except RuntimeError UInt8},
          s.tryReceive ts = ⟨mid, result⟩ → linkStep s (.receive ts) = mid := by
        intro mid result eq
        simp only [linkStep, eq]
      have sends : ∀ {mid final : ShmState} {source : UInt8} {result : Except RuntimeError Unit},
          s.tryReceive ts = ⟨mid, .ok source⟩ →
          forEach (fun s dest => s.sendToPeer dest mid.frame.bytes)
            (routeTargetsFor rules source mid.frame.topicId).list mid = ⟨final, result⟩ →
          ∃ acts, final = linkRun acts s := by
        intro mid final source result eq sent
        obtain ⟨acts, ran⟩ := sendAll_linkRun
          (routeTargetsFor rules source mid.frame.topicId).list mid.frame.bytes mid
        rw [sent] at ran
        exact ⟨.receive ts :: acts, by rw [linkRun, List.foldl_cons, received eq]; exact ran⟩
      have cases := forward_cases ts rules role
      generalize s.forward ts rules = r at cases ⊢
      cases cases with
      | thrown eq => exact ⟨[.receive ts], (received eq).symm⟩
      | @nothing mid eq =>
          refine ⟨[.receive ts, .countEmpty], ?_⟩
          rw [linkRun, List.foldl_cons, received eq]
          rfl
      | sent eq _ sent => exact sends eq sent
      | failed eq _ sent => exact sends eq sent

theorem Reachable.forward {topo : RouterTopology} {s : ShmState} (reached : Reachable topo s)
    (ts : UInt64) (rules : List RouteRule) :
    Reachable topo (reportForward (s.forward ts rules)) := by
  obtain ⟨acts, ran⟩ := forward_linkRun ts rules s
  have after : Reachable topo (s.forward ts rules).state := ran ▸ reached.run acts
  obtain ⟨pairs, eq⟩ := reportForward_spec (s.forward ts rules)
  rw [eq]
  exact after.step (.report pairs)

/-- Every run of the whole system keeps its router in a reachable state. -/
theorem reachable_of_run {topo : RouterTopology} {mem : ShmMemory} {rules : List RouteRule}
    {schedule : List ShmAct} {s₀ s : ShmSystem} (booted : bootShm topo mem = .ok s₀)
    (ran : run (shmStep rules) s₀ schedule = some s) : Reachable topo s.router := by
  have start : Reachable topo s₀.router := by
    unfold bootShm at booted
    cases bound : (ShmRouterLink.server topo).bindRouter mem with
    | error e => simp [bound] at booted
    | ok pair =>
        simp only [bound, Except.ok.injEq] at booted
        rw [← booted]
        exact .bound bound
  refine run_inv (I := fun s => Reachable topo s.router) start ?_ ran
  intro s act next reached stepped
  have withMem : ∀ mem, Reachable topo (s.setMem mem).router := fun mem =>
    reached.step (.clients s.router.frame mem)
  cases shmStep_cases stepped with
  | published | rejected | popped => exact withMem _
  | forwarded scratch ts =>
      exact (reached.step (.clients scratch s.router.world.mem)).forward ts rules
  | nothing => exact reached
  | floorSet floor => exact reached.step (.setFloor floor)

/-! ### Channels -/

theorem find?_setCongested_self (dest : UInt8) (flag : Bool) (channels : List PeerChannel) :
    (setCongested dest flag channels).find? (fun c => c.peerId = dest) =
      (channels.find? fun c => c.peerId = dest).map fun c => { c with congested := flag } := by
  induction channels with
  | nil => rfl
  | cons c rest ih =>
      by_cases here : c.peerId = dest
      · simp [setCongested, here]
      · simp [setCongested, here, ih]

theorem find?_setCongested_ne {dest other : UInt8} (ne : other ≠ dest) (flag : Bool)
    (channels : List PeerChannel) :
    (setCongested other flag channels).find? (fun c => c.peerId = dest) =
      channels.find? fun c => c.peerId = dest := by
  induction channels with
  | nil => rfl
  | cons c rest ih =>
      by_cases here : c.peerId = other
      · simp [setCongested, here, ne]
      · by_cases target : c.peerId = dest
        · subst target
          simp [setCongested, here]
        · simp [setCongested, here, target, ih]

/-- A receive leaves channels, floor and the log of handed frames alone. -/
theorem tryReceive_keeps (s : ShmState) (ts : UInt64) :
    (s.tryReceive ts).state.link.peerChannels = s.link.peerChannels ∧
      (s.tryReceive ts).state.link.priorityDropFloor = s.link.priorityDropFloor ∧
      (s.tryReceive ts).state.world.handed = s.world.handed := by
  obtain ⟨shorts, spec⟩ := tryReceive_spec s ts
  rw [spec.link]
  exact ⟨rfl, rfl, spec.handed⟩

/-- A reachable link is a server's, with a channel for each SHM peer. -/
theorem Reachable.wired {topo : RouterTopology} {s : ShmState} (reached : Reachable topo s) :
    s.link.isServer = true ∧ s.link.ports = shmPorts topo.peers := by
  induction reached with
  | @bound link mem mem' frame bound =>
      have booted : bootShm topo mem = .ok { router := ⟨link, .zero, { mem := mem' }⟩ } := by
        simp only [bootShm, bound]
      have isBound : link = _ := (bootShm_eq booted).1
      have ports : link.ports = shmPorts topo.peers := bootShm_ports booted
      exact ⟨by rw [isBound]; rfl, ports⟩
  | @step s act before ih =>
      cases act with
      | clients frame mem => exact ih
      | receive ts =>
          obtain ⟨shorts, spec⟩ := tryReceive_spec s ts
          exact ⟨spec.wiring.server.trans ih.1, spec.wiring.ports.trans ih.2⟩
      | countEmpty => exact ih
      | send dest payload =>
          have wiring := sendToPeer_wiring s dest payload
          exact ⟨wiring.server.trans ih.1, wiring.ports.trans ih.2⟩
      | report pairs => exact ih
      | setFloor floor => exact ih

/-- A server's channels are the server's handles. -/
theorem Reachable.server {topo : RouterTopology} {s : ShmState} (reached : Reachable topo s) :
    ∀ c ∈ s.link.peerChannels, c.endpoint.isServerRole = true := by
  intro c mem
  have inside : (c.peerId, c.endpoint) ∈ s.link.ports := List.mem_map.mpr ⟨c, mem, rfl⟩
  rw [reached.wired.2] at inside
  obtain ⟨e, -, name, -, eq⟩ := mem_shmPorts.mp inside
  rw [(Prod.mk.inj eq).2]

/-! ### One send -/

/-- The reply ring behind a channel. -/
def ShmState.replyRing (s : ShmState) (c : PeerChannel) : ShmRing := (s.world.mem c.endpoint.name).rep

/-- The consumer has taken everything: head and tail agree. -/
def ShmState.Drained (s : ShmState) (c : PeerChannel) : Prop :=
  (s.replyRing c).head = (s.replyRing c).tail

instance (s : ShmState) (c : PeerChannel) : Decidable (s.Drained c) :=
  inferInstanceAs (Decidable (_ = _))

/-- The send places `payload` in the ring behind `c`. -/
structure Admits (s : ShmState) (dest : UInt8) (c : PeerChannel) (payload : Bytes) : Prop where
  returns : (s.sendToPeer dest payload).result = .ok ()
  queued : (s.sendToPeer dest payload).state.replyRing c =
    pushedRing c.endpoint.params (s.replyRing c) payload
  handed : (s.sendToPeer dest payload).state.world.handed = s.world.handed ++ [(dest, payload)]

variable {s : ShmState} {dest : UInt8} {c : PeerChannel} {payload : Bytes}

/-- A server's push on a channel is a push on its reply ring. -/
theorem trySend_replyRing (s : ShmState) (server : c.endpoint.isServerRole = true)
    (payload : Bytes) :
    trySend c.endpoint s.world.mem payload =
      (Function.update s.world.mem c.endpoint.name { s.world.mem c.endpoint.name with
          rep := (shmTryPushSlot c.endpoint.params (s.replyRing c) payload).1 },
        (shmTryPushSlot c.endpoint.params (s.replyRing c) payload).2) := by
  simp only [trySend, server, if_true]
  rfl

/-- A send is a turn of a producer that holds back what the floor sheds. -/
theorem sendToPeer_replyRing (found : s.link.channelTo dest = some c)
    (server : c.endpoint.isServerRole = true) (payload : Bytes) :
    (s.sendToPeer dest payload).state.replyRing c =
      offerRing c.endpoint.params (s.replyRing c) (Sheds s.link.priorityDropFloor c payload)
        payload := by
  unfold offerRing
  rcases sendToPeer_cases payload found with ⟨sheds, eq⟩ | ⟨kept, mem, sent, eq⟩ |
    ⟨kept, mem, sent, eq⟩
  · rw [if_pos sheds, eq]
    rfl
  all_goals
    rw [if_neg kept, eq]
    rw [trySend_replyRing s server payload] at sent
    obtain ⟨rfl, -⟩ := Prod.mk.inj sent
    simp [ShmState.replyRing, ShmState.admitted, ShmState.foundFull]

/-- What gets past the floor is admitted exactly when a slot is free. -/
theorem admits_iff_room {flag : Bool}
    (found : s.link.channelTo dest = some { c with congested := flag })
    (server : c.endpoint.isServerRole = true) :
    Admits s dest c payload ↔
      ¬ Sheds s.link.priorityDropFloor { c with congested := flag } payload ∧
        (s.replyRing c).occupancy < c.endpoint.params.slotCount := by
  have ring := sendToPeer_replyRing found server payload
  have push := trySend_replyRing s server payload
  have grows : s.world.handed ≠ s.world.handed ++ [(dest, payload)] := by simp
  constructor
  · rintro ⟨-, -, handed⟩
    rcases sendToPeer_cases payload found with ⟨-, eq⟩ | ⟨kept, mem, sent, -⟩ | ⟨-, mem, -, eq⟩
    · rw [eq] at handed
      exact absurd handed grows
    · refine ⟨kept, ?_⟩
      rw [push] at sent
      by_contra full
      rw [shmTryPushSlot_full payload (Nat.not_lt.mp full)] at sent
      cases (Prod.mk.inj sent).2
    · rw [eq] at handed
      exact absurd handed grows
  · rintro ⟨kept, room⟩
    have pushed := shmTryPushSlot_room payload room
    rcases sendToPeer_cases payload found with ⟨sheds, -⟩ | ⟨-, mem, sent, eq⟩ | ⟨-, mem, sent, -⟩
    · exact absurd sheds kept
    · refine ⟨by rw [eq], ?_, by rw [eq]; rfl⟩
      rw [offerRing, if_neg kept] at ring
      exact ring.trans (congrArg Prod.fst pushed)
    · rw [push, pushed] at sent
      cases (Prod.mk.inj sent).2

/-- A drained ring has room, however far its counters have come. -/
theorem ShmState.Drained.room (drained : s.Drained c) :
    (s.replyRing c).occupancy < c.endpoint.params.slotCount := by
  have none : (s.replyRing c).occupancy = 0 := by
    rw [ShmRing.occupancy, drained, u64Sub]
    omega
  rw [none]
  exact c.endpoint.params.slotCount_pos

/-- Over a drained ring a send sheds or admits. -/
theorem send_drained (found : s.link.channelTo dest = some c)
    (server : c.endpoint.isServerRole = true) (drained : s.Drained c) (payload : Bytes) :
    (Sheds s.link.priorityDropFloor c payload ∧
        s.sendToPeer dest payload = ⟨s.shed dest payload, .ok ()⟩) ∨
      (¬ Sheds s.link.priorityDropFloor c payload ∧
        ∃ mem, s.sendToPeer dest payload = ⟨s.admitted dest payload mem, .ok ()⟩) := by
  rcases sendToPeer_cases payload found with ⟨sheds, eq⟩ | ⟨passes, mem, -, eq⟩ |
    ⟨-, mem, sent, -⟩
  · exact .inl ⟨sheds, eq⟩
  · exact .inr ⟨passes, mem, eq⟩
  · rw [trySend_replyRing s server, shmTryPushSlot_room payload drained.room] at sent
    cases (Prod.mk.inj sent).2

/-- The floor lets everything through. -/
def FloorOpen (floor : UInt8) (c : PeerChannel) : Prop := floor = 0 ∨ c.congested = false

instance (floor : UInt8) (c : PeerChannel) : Decidable (FloorOpen floor c) :=
  inferInstanceAs (Decidable (_ ∨ _))

theorem sheds_iff {floor : UInt8} : Sheds floor c payload ↔
    ¬ FloorOpen floor c ∧ priorityFromFrame payload < floor := by
  unfold Sheds FloorOpen
  have positive : 0 < floor ↔ floor ≠ 0 := UInt8.pos_iff_ne_zero
  rw [positive]
  cases c.congested <;> simp

theorem priorityFromFrame_zero : priorityFromFrame RouterFrame.zero.bytes = 0 := by decide

/-- A floor that is not open sheds the zero frame. -/
theorem sheds_zero {floor : UInt8} (closed : ¬ FloorOpen floor c) :
    Sheds floor c RouterFrame.zero.bytes := by
  refine sheds_iff.mpr ⟨closed, ?_⟩
  rw [priorityFromFrame_zero, UInt8.pos_iff_ne_zero]
  exact fun zero => closed (.inl zero)

theorem admits_iff (found : s.link.channelTo dest = some c)
    (server : c.endpoint.isServerRole = true) (drained : s.Drained c) :
    (∀ frame : RouterFrame, Admits s dest c frame.bytes) ↔
      FloorOpen s.link.priorityDropFloor c := by
  have passes : ∀ payload, Admits s dest c payload ↔ ¬ Sheds s.link.priorityDropFloor c payload :=
    fun payload => (admits_iff_room found server).trans (and_iff_left drained.room)
  constructor
  · intro admits
    by_contra closed
    exact (passes _).mp (admits .zero) (sheds_zero closed)
  · intro isOpen frame
    exact (passes _).mpr fun sheds => (sheds_iff.mp sheds).1 isOpen

/-! ### Runs over a consumer that keeps draining -/

/-- The frames a run offers to `dest`. -/
def offered (dest : UInt8) (acts : List LinkAct) : List Bytes :=
  acts.filterMap fun
    | .send e payload => if e = dest then some payload else none
    | _ => none

/-- Every frame offered to `dest` finds its ring drained; the floor stays. -/
def KeepsDraining (dest : UInt8) : ShmState → List LinkAct → Prop
  | _, [] => True
  | s, act :: acts =>
      (match act with
        | .send e _ => e = dest → ∀ c, s.link.channelTo dest = some c → s.Drained c
        | .setFloor _ => False
        | _ => True) ∧ KeepsDraining dest (linkStep s act) acts

/-- What gets past the floor: everything, or what comes from the first frame on
that reaches the floor. -/
def passed (floor : UInt8) (c : PeerChannel) (frames : List Bytes) : List Bytes :=
  if FloorOpen floor c then frames
  else frames.dropWhile fun payload => priorityFromFrame payload < floor

/-- What an act that offers nothing to `dest` leaves as it is. -/
structure Untouched (dest : UInt8) (s s' : ShmState) : Prop where
  channel : s'.link.channelTo dest = s.link.channelTo dest
  floor : s'.link.priorityDropFloor = s.link.priorityDropFloor
  share : share s'.world.handed dest = share s.world.handed dest

theorem send_untouched {other : UInt8} (ne : other ≠ dest) (s : ShmState) (payload : Bytes) :
    Untouched dest s (linkStep s (.send other payload)) := by
  simp only [linkStep]
  cases found : s.link.channelTo other with
  | none => simp [ShmState.sendToPeer, found, Untouched.mk]
  | some c =>
      rcases sendToPeer_cases payload found with ⟨-, eq⟩ | ⟨-, mem, -, eq⟩ | ⟨-, mem, -, eq⟩
      · rw [eq]
        exact ⟨rfl, rfl, rfl⟩
      · rw [eq]
        refine ⟨find?_setCongested_ne ne .., rfl, ?_⟩
        simp only [ShmState.admitted, share_append]
        simp [FanOut.share, ne]
      · rw [eq]
        exact ⟨find?_setCongested_ne ne .., rfl, rfl⟩

theorem receive_untouched (s : ShmState) (ts : UInt64) :
    Untouched dest s (linkStep s (.receive ts)) := by
  obtain ⟨channels, floor, handed⟩ := tryReceive_keeps s ts
  refine ⟨?_, floor, ?_⟩
  · simp only [ShmRouterLink.channelTo, linkStep, channels]
  · simp only [linkStep, handed]

/-- A run of frames offered over a drained ring: what passes the floor is handed
over, in order. -/
theorem linkRun_share {acts : List LinkAct} (found : s.link.channelTo dest = some c)
    (server : c.endpoint.isServerRole = true) (draining : KeepsDraining dest s acts) :
    share (linkRun acts s).world.handed dest =
      share s.world.handed dest ++ passed s.link.priorityDropFloor c (offered dest acts) := by
  induction acts generalizing s c with
  | nil => simp [linkRun, offered, passed]
  | cons act acts ih =>
      obtain ⟨now, later⟩ := draining
      -- An act that offers nothing to `dest` leaves the rest of the run to the hypothesis.
      have skip : Untouched dest s (linkStep s act) → offered dest (act :: acts) = offered dest acts →
          share (linkRun (act :: acts) s).world.handed dest = share s.world.handed dest ++
            passed s.link.priorityDropFloor c (offered dest (act :: acts)) := by
        intro same none
        have rest := ih (same.channel.trans found) server later
        rw [same.share, same.floor] at rest
        rw [none, ← rest]
        rfl
      cases act with
      | clients frame mem => exact skip ⟨rfl, rfl, rfl⟩ rfl
      | receive ts => exact skip (receive_untouched s ts) rfl
      | countEmpty => exact skip ⟨rfl, rfl, rfl⟩ rfl
      | report pairs => exact skip ⟨rfl, rfl, rfl⟩ rfl
      | setFloor floor => exact now.elim
      | send other payload =>
          by_cases here : other = dest
          · subst here
            have frames : offered other (.send other payload :: acts) =
                payload :: offered other acts := by simp [offered]
            rw [frames]
            have head : linkRun (.send other payload :: acts) s =
                linkRun acts (s.sendToPeer other payload).state := rfl
            rw [head]
            simp only [linkStep] at later
            rcases send_drained found server (now rfl c found) payload with ⟨sheds, eq⟩ |
              ⟨passes, mem, eq⟩
            · obtain ⟨closed, low⟩ := sheds_iff.mp sheds
              rw [eq] at later ⊢
              have rest := ih (s := s.shed other payload) found server later
              rw [rest]
              simp only [passed, ShmState.shed, closed, if_false]
              rw [List.dropWhile_cons_of_pos (by simpa using low)]
              rfl
            · rw [eq] at later ⊢
              have cleared : (s.admitted other payload mem).link.channelTo other =
                  some { c with congested := false } := by
                have flag := find?_setCongested_self other false s.link.peerChannels
                rw [ShmRouterLink.channelTo] at found
                rw [found] at flag
                exact flag
              have rest := ih cleared server later
              rw [rest]
              have all : passed s.link.priorityDropFloor c (payload :: offered other acts) =
                  payload :: offered other acts := by
                unfold passed
                by_cases isOpen : FloorOpen s.link.priorityDropFloor c
                · rw [if_pos isOpen]
                · rw [if_neg isOpen, List.dropWhile_cons_of_neg]
                  simpa using fun low => passes (sheds_iff.mpr ⟨isOpen, low⟩)
              rw [all]
              simp [ShmState.admitted, FanOut.share, passed, FloorOpen]
          · exact skip (send_untouched here s payload) (by simp [offered, here])

/-- In every reachable state, and from it in every run over a consumer that keeps
draining, the floor leaves the frames for `dest` alone exactly when it is zero or
the channel's last push succeeded. -/
theorem floor_admits_iff {topo : RouterTopology} (reached : Reachable topo s)
    (found : s.link.channelTo dest = some c) :
    (s.Drained c → ((∀ frame : RouterFrame, Admits s dest c frame.bytes) ↔
        FloorOpen s.link.priorityDropFloor c)) ∧
      ∀ acts, KeepsDraining dest s acts →
        share (linkRun acts s).world.handed dest =
          share s.world.handed dest ++ passed s.link.priorityDropFloor c (offered dest acts) := by
  have server := reached.server c (List.mem_of_find?_eq_some found)
  constructor
  · intro drained
    exact admits_iff found server drained
  · intro acts draining
    exact linkRun_share found server draining

/-- Two frames for a one-slot ring under floor 1, then the consumer drains it. -/
def shmPairBurst : List ShmAct :=
  [.setFloor 1, .publish 1 RouterFrame.zero.bytes, .forward .zero 0,
    .publish 1 RouterFrame.zero.bytes, .forward .zero 0, .pop 2]

/-- After the burst peer 2's ring is drained and its flag still set. -/
theorem shmPairBurst_leaves : ∃ t s c, buildFrom shmPair = .ok t ∧
    runShm shmPair shmPairBurst = some s ∧ Reachable t.view s.router ∧
    s.router.link.channelTo 2 = some c ∧ s.router.Drained c ∧
    ¬ FloorOpen s.router.link.priorityDropFloor c := by
  have shape : (runShm shmPair shmPairBurst).isSome ∧ ∀ s ∈ runShm shmPair shmPairBurst,
      (s.router.link.channelTo 2).isSome ∧ ∀ c ∈ s.router.link.channelTo 2,
        s.router.Drained c ∧ ¬ FloorOpen s.router.link.priorityDropFloor c := by
    decide +kernel
  obtain ⟨s, ran⟩ := Option.isSome_iff_exists.mp shape.1
  obtain ⟨some, congested⟩ := shape.2 s ran
  obtain ⟨c, found⟩ := Option.isSome_iff_exists.mp some
  obtain ⟨drained, closed⟩ := congested c found
  obtain ⟨t, s₀, accepted, booted, steps⟩ := runShm_eq_some.mp ran
  exact ⟨t, s, c, accepted, ran, reachable_of_run booted steps, found, drained, closed⟩

theorem floor_admits_iff_burst : ∃ s c, runShm shmPair shmPairBurst = some s ∧
    s.router.link.channelTo 2 = some c ∧ s.router.Drained c ∧
    ¬ ∀ frame : RouterFrame, Admits s.router 2 c frame.bytes := by
  obtain ⟨t, s, c, -, ran, reached, found, drained, closed⟩ := shmPairBurst_leaves
  exact ⟨s, c, ran, found, drained,
    fun admits => closed (((floor_admits_iff reached found).1 drained).mp admits)⟩

/-- Offering a frame that is shed, however often, moves nothing. -/
theorem linkRun_sheds (found : s.link.channelTo dest = some c)
    (sheds : Sheds s.link.priorityDropFloor c payload) (n : Nat) :
    (linkRun (List.replicate n (.send dest payload)) s).world = s.world := by
  induction n generalizing s with
  | zero => rfl
  | succ n ih =>
      have eq : linkStep s (.send dest payload) = s.shed dest payload := by
        simp only [linkStep, ShmState.sendToPeer, found, sheds, if_true]
      have rest := ih (s := s.shed dest payload) found sheds
      rw [List.replicate_succ, linkRun, List.foldl_cons, eq]
      exact rest

/-- Any number of further frames of priority zero leaves the drained ring empty. -/
theorem drained_ring_sheds : ∃ t s c, buildFrom shmPair = .ok t ∧
    runShm shmPair shmPairBurst = some s ∧ Reachable t.view s.router ∧
    s.router.link.channelTo 2 = some c ∧ s.router.Drained c ∧
    ¬ Admits s.router 2 c RouterFrame.zero.bytes ∧
    ∀ n, (linkRun (List.replicate n (.send 2 RouterFrame.zero.bytes)) s.router).world =
      s.router.world := by
  obtain ⟨t, s, c, accepted, ran, reached, found, drained, closed⟩ := shmPairBurst_leaves
  have sheds : Sheds s.router.link.priorityDropFloor c RouterFrame.zero.bytes := sheds_zero closed
  have server := reached.server c (List.mem_of_find?_eq_some found)
  exact ⟨t, s, c, accepted, ran, reached, found, drained,
    fun admits => ((admits_iff_room found server).mp admits).1 sheds, linkRun_sheds found sheds⟩

end RoboticsIpc
