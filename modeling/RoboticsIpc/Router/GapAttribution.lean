import Mathlib.Data.Bool.Count
import RoboticsIpc.Router.DropAccounting
import RoboticsIpc.Router.SourceSeqTracker

/-!
Router drops and subscriber gaps.

A source numbers its frames; the router offers them to a destination and some find
its ring full; the destination pops the others and feeds them to its tracker. What
the tracker calls gaps are the drops between the first admitted frame and the last
(`gaps_are_drops`). The frames take the way of the offers (`LogInv`) through the two
rings (`PortInv`), neither of which a third peer may touch.
-/

namespace RoboticsIpc

open ByteBuffer Checked FanOut ShmSpsc StepRun

variable {t : LoadedTopology}

/-- No other SHM peer has the region of `peer`. -/
def OwnRegion (t : LoadedTopology) (peer : UInt8) (name : CStr) : Prop :=
  (∃ port ∈ shmPorts t.peers, port.1 = peer ∧ port.2.name = name) ∧
    ∀ port ∈ shmPorts t.peers, port.2.name = name → port.1 = peer

instance (t : LoadedTopology) (peer : UInt8) (name : CStr) : Decidable (OwnRegion t peer name) :=
  inferInstanceAs (Decidable (_ ∧ _))

theorem OwnRegion.alone {peer : UInt8} {name : CStr} (wellFormed : t.WellFormed)
    (own : OwnRegion t peer name) :
    ∃ port, Alone (shmPorts t.peers) port ∧ port.1 = peer ∧ port.2.name = name := by
  obtain ⟨⟨port, inside, rfl, rfl⟩, only⟩ := own
  have ids := shmPorts_ids wellFormed
  have sameId : ∀ other ∈ shmPorts t.peers, other.1 = port.1 → other = port :=
    fun other mem same => List.inj_on_of_nodup_map ids mem inside same
  refine ⟨port, ⟨inside, shmPorts_server t.peers port inside, ?_, sameId,
    fun other mem same => sameId other mem (only other mem same)⟩, rfl, rfl⟩
  obtain ⟨e, declared, name, -, rfl⟩ := mem_shmPorts.mp inside
  exact le_maxPayload (wellFormed.peers e declared)

/-- `d` hears of `source` only: whole frames, numbered from `first` on, all routed to `d`. -/
structure OneStream (t : LoadedTopology) (s : ShmSystem) (source d : UInt8) (first : UInt32) :
    Prop where
  only : ∀ a ∈ s.router.world.arrivals, d ∈ a.route t.routes → a.source = source
  whole : ∀ m ∈ s.published source, m.length = kRouterFrameSize
  routed : ∀ m ∈ s.published source, d ∈ routedTo t.routes source (frameTopic m)
  numbered : (s.published source).map frameSeq = consecutive first (s.published source).length

instance (t : LoadedTopology) (s : ShmSystem) (source d : UInt8) (first : UInt32) :
    Decidable (OneStream t s source d first) :=
  decidable_of_iff
    ((∀ a ∈ s.router.world.arrivals, d ∈ a.route t.routes → a.source = source) ∧
      (∀ m ∈ s.published source, m.length = kRouterFrameSize) ∧
      (∀ m ∈ s.published source, d ∈ routedTo t.routes source (frameTopic m)) ∧
      (s.published source).map frameSeq = consecutive first (s.published source).length)
    ⟨fun ⟨only, whole, routed, numbered⟩ => ⟨only, whole, routed, numbered⟩,
      fun ⟨only, whole, routed, numbered⟩ => ⟨only, whole, routed, numbered⟩⟩

/-- Which of the frames offered to `d` were admitted to its ring. -/
def outcomesTo (d : UInt8) (log : List ForwardRecord) : List Bool := (offersTo d log).map Prod.snd

/-- The counters of `d`'s tracker against the router's drops to `d`. -/
structure GapsAreDrops {N : Nat} (tracker : SourceSeqTracker N) (source d : UInt8)
    (s : LoggedSystem) : Prop where
  duplicates : tracker.duplicateCount source = 0
  outOfOrder : tracker.outOfOrderCount source = 0
  samples : tracker.sampleCount source = (outcomesTo d s.log).count true
  gaps : tracker.gapCount source = Losses.between (outcomesTo d s.log)
  drops : s.system.router.link.metrics.droppedFullPerPeer d = tracker.gapCount source +
    Losses.before (outcomesTo d s.log) + Losses.after (outcomesTo d s.log)

/-- What was not admitted is counted as dropped. -/
theorem LogInv.dropped_eq {rules : List RouteRule} {s : ShmState} {log : List ForwardRecord}
    (inv : LogInv rules s log) (d : UInt8) :
    s.link.metrics.droppedFullPerPeer d = (outcomesTo d log).count false := by
  have accounted := inv.accounted d
  have admitted := congrArg List.length (inv.admitted d)
  have either := List.count_true_add_count_false (outcomesTo d log)
  have kept : (outcomesTo d log).count true = ((offersTo d log).filter Prod.snd).length := by
    rw [outcomesTo, List.count, List.countP_map, List.countP_eq_length_filter]
    congr 1
    apply List.filter_congr
    intro offer _
    simp
  rw [List.length_map] at admitted
  have offers : (outcomesTo d log).length = (offersTo d log).length := List.length_map _
  have once := inv.once d
  omega

/-! ### The stream -/

section Stream

variable {s : ShmSystem} {source d : UInt8} {first : UInt32}

/-- What has arrived from the source is the start of what it published. -/
theorem OneStream.received {port : Port} (stream : OneStream t s source d first)
    (fits : kRouterFrameSize ≤ port.2.params.maxPayload) (id : port.1 = source)
    (inv : PortInv s.published s.popped s.router.world port) :
    arrivedFrom s.router.world.arrivals source <+: s.published source := by
  obtain ⟨req, rep, -, requests, -⟩ := inv
  rw [id] at requests
  have uncut : ∀ m ∈ s.published source, cut port.2.params m = m := fun m mem =>
    cut_eq_self (Nat.le_trans (Nat.le_of_eq (stream.whole m mem)) fits)
  rw [List.map_congr_left uncut, List.map_id'] at requests
  exact requests ▸ List.prefix_append _ _

/-- The frames due to `d` are those that arrived from the source. -/
theorem OneStream.due (stream : OneStream t s source d first)
    (received : arrivedFrom s.router.world.arrivals source <+: s.published source) :
    dueTo t.routes s.router.world.arrivals d =
      (s.router.world.arrivals.filter fun a => a.source = source).map Arrival.frame := by
  rw [dueTo, delivered]
  congr 1
  apply List.filter_congr
  intro a arrived
  apply decide_eq_decide.mpr
  constructor
  · exact stream.only a arrived
  · intro same
    have listed : a.message ∈ arrivedFrom s.router.world.arrivals source :=
      List.mem_map_of_mem (List.mem_filter.mpr ⟨arrived, decide_eq_true same⟩)
    have published := received.subset listed
    rw [Arrival.route_of_whole (stream.whole _ published), same]
    exact stream.routed _ published

/-- They carry the source's id and consecutive numbers. -/
theorem OneStream.frames (stream : OneStream t s source d first)
    (received : arrivedFrom s.router.world.arrivals source <+: s.published source) :
    (∀ f ∈ dueTo t.routes s.router.world.arrivals d, frameSource f = source) ∧
      (dueTo t.routes s.router.world.arrivals d).map frameSeq =
        consecutive first (dueTo t.routes s.router.world.arrivals d).length := by
  have whole : ∀ a ∈ s.router.world.arrivals.filter fun a => a.source = source,
      a.message.length = kRouterFrameSize := by
    intro a mem
    exact stream.whole _ (received.subset (List.mem_map_of_mem mem))
  rw [stream.due received]
  constructor
  · intro f mem
    obtain ⟨a, listed, rfl⟩ := List.mem_map.mp mem
    rw [Arrival.frame, frameSource_stamped (whole a listed)]
    exact of_decide_eq_true (List.mem_filter.mp listed).2
  · have seqs : ((s.router.world.arrivals.filter fun a => a.source = source).map Arrival.frame).map
        frameSeq = (arrivedFrom s.router.world.arrivals source).map frameSeq := by
      rw [arrivedFrom, List.map_map, List.map_map]
      apply List.map_congr_left
      intro a mem
      exact frameSeq_stamped (whole a mem)
    have start : arrivedFrom s.router.world.arrivals source =
        (s.published source).take (arrivedFrom s.router.world.arrivals source).length :=
      List.prefix_iff_eq_take.mp received
    have count : ((s.router.world.arrivals.filter fun a => a.source = source).map
        Arrival.frame).length = (arrivedFrom s.router.world.arrivals source).length := by
      rw [arrivedFrom, List.length_map, List.length_map]
    rw [seqs, count]
    conv_lhs => rw [start, List.map_take, stream.numbered]
    exact consecutive_take first received.length_le

/-- A drained ring has nothing left for its peer. -/
theorem PortInv.drained {published popped : UInt8 → List Bytes} {w : World} {port : Port}
    (inv : PortInv published popped w port)
    (drained : (w.mem port.2.name).rep.head = (w.mem port.2.name).rep.tail) :
    popped port.1 = share w.handed port.1 := by
  obtain ⟨req, rep, carries, -, replies⟩ := inv
  rcases carries.rep with live | jammed
  · rw [replies, live.empty_iff.mp drained, List.append_nil]
  · exact absurd drained (Nat.ne_of_lt jammed.wrapped)

end Stream

/-! ### Runs -/

/-- Router drops and subscriber gaps agree, once `d` has drained its ring. -/
theorem gaps_are_drops {root : TomlTable} {mem : ShmMemory} {schedule : List ShmAct}
    {s₀ : ShmSystem} {s : LoggedSystem} {source d : UInt8} {sourceName name : CStr}
    {first : UInt32} {N : Nat} (accepted : buildFrom root = .ok t) (all : t.AllShm)
    (booted : bootShm t.view mem = .ok s₀)
    (ran : run (loggedStep t.routes) { system := s₀ } schedule = some s)
    (sourceRing : OwnRegion t source sourceName) (replyRing : OwnRegion t d name)
    (stream : OneStream t s.system source d first)
    (few : ∀ n, List.replicate n false <:+: outcomesTo d s.log → n < 2 ^ 31 - 1)
    (drained : (s.system.router.world.mem name).rep.head =
      (s.system.router.world.mem name).rep.tail)
    (tracked : source.toNat < N) :
    GapsAreDrops (({} : SourceSeqTracker N).observeFrames (s.system.popped d)) source d s := by
  have wellFormed := buildFrom_wellFormed accepted
  have routes := routesTo_shmPorts wellFormed all
  have noInvalid := shmPorts_valid wellFormed
  have fanOut := fanOutRules_of_wellFormed wellFormed
  obtain ⟨request, requestAlone, requestId, -⟩ := sourceRing.alone wellFormed
  obtain ⟨reply, replyAlone, rfl, rfl⟩ := replyRing.alone wellFormed
  -- Both ports stay in step with the logs of their peers, and the router with its records.
  obtain ⟨logged, requests, replies⟩ := run_inv (I := fun s => LoggedInv t.routes t.view s ∧
      PortInv s.system.published s.system.popped s.system.router.world request ∧
      PortInv s.system.published s.system.popped s.system.router.world reply)
    ⟨loggedInv_boot booted, portInv_boot booted requestAlone.inside requestAlone.name,
      portInv_boot booted replyAlone.inside replyAlone.name⟩
    (by
      rintro s act next ⟨logged, requests, replies⟩ stepped
      obtain ⟨system, step, rfl⟩ := Option.map_eq_some_iff.mp stepped
      refine ⟨logged.step fanOut noInvalid routes stepped, ?_, ?_⟩
      · exact requests.step requestAlone noInvalid routes logged.sameTopo logged.server logged.ports
          step
      · exact replies.step replyAlone noInvalid routes logged.sameTopo logged.server logged.ports
          step) ran
  have log := logged.log
  have received := stream.received requestAlone.fits requestId requests
  obtain ⟨sources, numbered⟩ := stream.frames received
  rw [← log.offered] at sources numbered
  have popped : s.system.popped reply.1 =
      ((offersTo reply.1 s.log).filter Prod.snd).map Prod.fst := by
    rw [log.admitted]
    exact replies.drained drained
  -- The offers by number, as the tracker sees them.
  have attributed : Attributed first (outcomesTo reply.1 s.log)
      ((({} : SourceSeqTracker N).observeFrames (s.system.popped reply.1)).slot source) := by
    have own : ∀ f ∈ s.system.popped reply.1, frameSource f = source := by
      intro f mem
      rw [popped] at mem
      obtain ⟨offer, kept, rfl⟩ := List.mem_map.mp mem
      exact sources _ (List.mem_map_of_mem (List.mem_of_mem_filter kept))
    have fresh : ({} : SourceSeqTracker N).slot source = {} := by
      rw [SourceSeqTracker.slot, dif_pos tracked]
    have byNumber : (s.system.popped reply.1).map frameSeq =
        ((((offersTo reply.1 s.log).map (Prod.map frameSeq id)).filter Prod.snd).map Prod.fst) := by
      rw [popped, List.map_map, List.filter_map, List.map_map]
      rfl
    have outcomes : ((offersTo reply.1 s.log).map (Prod.map frameSeq id)).map Prod.snd =
        outcomesTo reply.1 s.log := by
      rw [outcomesTo, List.map_map]
      rfl
    rw [SourceSeqTracker.slot_observeFrames tracked _ own, fresh, byNumber, ← outcomes]
    apply attributed_survivors
    · rw [List.map_map] at numbered ⊢
      rw [List.length_map] at numbered ⊢
      exact numbered
    · rw [outcomes]
      exact few
  refine ⟨attributed.duplicates, attributed.outOfOrder, attributed.samples, attributed.gaps, ?_⟩
  rw [log.dropped_eq reply.1, SourceSeqTracker.gapCount, attributed.gaps, Losses.count_eq]

/-- A frame with nothing but a sequence number. -/
def numberedFrame (seq : UInt32) : Bytes :=
  splice kRouterSeqOffset (leBytes 4 seq.toNat) RouterFrame.zero.bytes

/-- Three frames across the wrap-around; the second finds the one-slot ring full. -/
def wrappingBurst : List ShmAct :=
  [.publish 1 (numberedFrame 0xFFFFFFFF), .forward .zero 0, .publish 1 (numberedFrame 0),
    .forward .zero 0, .pop 2, .publish 1 (numberedFrame 1), .forward .zero 0, .pop 2]

theorem gaps_are_drops_wrapping : ∃ t s, buildFrom shmPair = .ok t ∧
    runLogged shmPair wrappingBurst = some s ∧ outcomesTo 2 s.log = [true, false, true] ∧
    GapsAreDrops (({} : SourceSeqTracker 256).observeFrames (s.system.popped 2)) 1 2 s := by
  have shape : ∀ t ∈ (buildFrom shmPair).toOption, t.AllShm ∧
      OwnRegion t 1 (cStr (ascii "/a")) ∧ OwnRegion t 2 (cStr (ascii "/b")) ∧
      ∀ s ∈ runLogged shmPair wrappingBurst, OneStream t s.system 1 2 0xFFFFFFFF ∧
        outcomesTo 2 s.log = [true, false, true] ∧
        (s.system.router.world.mem (cStr (ascii "/b"))).rep.head =
          (s.system.router.world.mem (cStr (ascii "/b"))).rep.tail := by decide +kernel
  have runs : (runLogged shmPair wrappingBurst).isSome := by decide +kernel
  obtain ⟨s, ran⟩ := Option.isSome_iff_exists.mp runs
  obtain ⟨t, s₀, accepted, booted, steps⟩ := runLogged_eq_some.mp ran
  obtain ⟨all, sourceRing, replyRing, outcome⟩ := shape t (toOption_eq_some.mpr accepted)
  obtain ⟨stream, outcomes, drained⟩ := outcome s ran
  refine ⟨t, s, accepted, ran, outcomes, ?_⟩
  refine gaps_are_drops accepted all booted steps sourceRing replyRing stream ?_ drained (by decide)
  intro n inside
  have short := inside.length_le
  rw [List.length_replicate, outcomes] at short
  exact Nat.lt_of_le_of_lt short (by decide)

/-- With peer 3 on the region of peer 2 the one frame is admitted to it twice, and peer 2
pops a duplicate. -/
theorem shared_reply_ring_duplicates : ∃ t s₀ s, buildFrom sharedReply = .ok t ∧ t.AllShm ∧
    bootShm t.view noShm = .ok s₀ ∧
    run (loggedStep t.routes) { system := s₀ }
      [.publish 1 (numberedFrame 0), .forward .zero 0, .pop 2, .pop 2] = some s ∧
    OneStream t s.system 1 2 0 ∧ outcomesTo 2 s.log = [true] ∧
    (s.system.router.world.mem (cStr (ascii "/b"))).rep.head =
      (s.system.router.world.mem (cStr (ascii "/b"))).rep.tail ∧
    (({} : SourceSeqTracker 256).observeFrames (s.system.popped 2)).duplicateCount 1 = 1 := by
  have shape : ∀ t ∈ (buildFrom sharedReply).toOption, t.AllShm ∧ ∀ s ∈ runLogged sharedReply
        [.publish 1 (numberedFrame 0), .forward .zero 0, .pop 2, .pop 2],
      OneStream t s.system 1 2 0 ∧ outcomesTo 2 s.log = [true] ∧
      (s.system.router.world.mem (cStr (ascii "/b"))).rep.head =
        (s.system.router.world.mem (cStr (ascii "/b"))).rep.tail ∧
      (({} : SourceSeqTracker 256).observeFrames (s.system.popped 2)).duplicateCount 1 = 1 := by
    decide +kernel
  have runs : (runLogged sharedReply
      [.publish 1 (numberedFrame 0), .forward .zero 0, .pop 2, .pop 2]).isSome := by decide +kernel
  obtain ⟨s, ran⟩ := Option.isSome_iff_exists.mp runs
  obtain ⟨t, s₀, accepted, booted, steps⟩ := runLogged_eq_some.mp ran
  obtain ⟨all, outcome⟩ := shape t (toOption_eq_some.mpr accepted)
  exact ⟨t, s₀, s, accepted, all, booted, steps, outcome s ran⟩

end RoboticsIpc
