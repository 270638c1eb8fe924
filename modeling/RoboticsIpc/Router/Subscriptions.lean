import RoboticsIpc.Router.DatagramSystem
import RoboticsIpc.Router.GapAttribution
import RoboticsIpc.Router.LastValueCache

/-!
A subscriber at the end of a router.

Whatever carries the frames, a subscriber receives from each peer whole messages of that
peer, in order and each at most once (`Subscribed.relayed`). So its cache and tracker account
for everything the peer has published (`Subscribed.accounts`), and what the cache shows never
goes back (`Subscribed.advances`).
-/

namespace RoboticsIpc

open ByteBuffer Checked DatagramChannel FanOut LatestValue ShmSpsc StepRun

variable {N : Nat} {t : LoadedTopology} {arrivals : List Arrival} {messages received : List Bytes}
  {p q : UInt8} {first : UInt32}

/-! ### What is received -/

/-- A frame that carries a whole message of `q`. -/
def Relays (q : UInt8) (frame msg : Bytes) : Prop :=
  msg.length = kRouterFrameSize ∧ ∃ ts, frame = stamped q ts msg

/-- The frames of `q` among those received. -/
def readsOf (q : UInt8) (received : List Bytes) : List Bytes :=
  received.filter fun frame => frameSource frame = q

/-- What `p` has received of what the router took in, and what this has of the messages of `q`. -/
structure Subscribed (t : LoadedTopology) (arrivals : List Arrival) (received : List Bytes)
    (p q : UInt8) (messages : List Bytes) : Prop where
  due : received.Sublist (dueTo t.routes arrivals p)
  taken : (arrivedFrom arrivals q).Sublist messages

/-- The frames received from a peer are relays of a subsequence of its messages. -/
theorem Subscribed.relayed (subscribed : Subscribed t arrivals received p q messages) :
    List.SublistForall₂ (Relays q) (readsOf q received) messages := by
  have due := subscribed.due.filter fun frame => frameSource frame = q
  rw [dueTo, delivered, List.filter_map, List.filter_filter] at due
  obtain ⟨as, inside, frames⟩ := List.sublist_map_iff.mp due
  have own : ∀ a ∈ as, a.source = q ∧ a.message.length = kRouterFrameSize := by
    intro a mem
    have kept := (List.mem_filter.mp (inside.subset mem)).2
    simp only [Function.comp, Bool.and_eq_true, decide_eq_true_eq] at kept
    obtain ⟨source, routed⟩ := kept
    have whole := whole_of_routed routed
    rw [Arrival.frame, frameSource_stamped whole] at source
    exact ⟨source, whole⟩
  have taken : (as.map (·.message)).Sublist messages := by
    refine List.Sublist.trans ?_ subscribed.taken
    refine List.Sublist.map _ ?_
    have all : as.filter (fun a => a.source = q) = as :=
      List.filter_eq_self.mpr fun a mem => decide_eq_true (own a mem).1
    rw [← all]
    exact (inside.trans List.filter_sublist).filter _
  refine List.sublistForall₂_iff.mpr ⟨as.map (·.message), ?_, taken⟩
  rw [readsOf, frames, List.forall₂_map_left_iff, List.forall₂_map_right_iff, List.forall₂_same]
  intro a mem
  obtain ⟨source, whole⟩ := own a mem
  exact ⟨whole, a.timestamp, by rw [Arrival.frame, source]⟩

/-! ### What is read -/

/-- The frames for which `recv_message` returns true, all of them received into one. -/
def receiveAll : RouterFrame → List Bytes → List RouterFrame
  | _, [] => []
  | frame, msg :: rest =>
      let frame := frame.receive msg
      if kRouterFrameSize ≤ msg.length then frame :: receiveAll frame rest
      else receiveAll frame rest

theorem receiveAll_whole {msgs : List Bytes} (whole : ∀ msg ∈ msgs, msg.length = kRouterFrameSize)
    (frame : RouterFrame) : (receiveAll frame msgs).map (·.bytes) = msgs := by
  induction msgs generalizing frame with
  | nil => rfl
  | cons msg rest ih =>
      have here := whole msg List.mem_cons_self
      rw [receiveAll, if_pos (Nat.le_of_eq here.symm), List.map_cons,
        ih fun m mem => whole m (List.mem_cons_of_mem msg mem), RouterFrame.receive_whole here]

/-- A subscriber that has read these. -/
def subscriberOf (N : Nat) (received : List Bytes) : Subscriber N :=
  runSubscriber N ((receiveAll .zero received).map SubscriberCall.read)

/-- The frames of one source. -/
def fromSource (q : UInt8) (frames : List RouterFrame) : List RouterFrame :=
  frames.filter fun frame => frame.source = q

theorem seqs_reads (frames : List RouterFrame) :
    (runSubscriber N (frames.map SubscriberCall.read)).tracks.seqs q =
      (fromSource q frames).map RouterFrame.seq := by
  induction frames using List.reverseRecOn with
  | nil => rfl
  | append_singleton frames frame ih =>
      rw [List.map_append, List.map_singleton, runSubscriber_concat, fromSource, List.filter_append,
        List.map_append, ← fromSource, ← ih]
      simp only [Subscriber.call, TrackerRun.call, TrackerRun.seqs]
      by_cases mine : frame.source = q
      · subst mine
        simp
      · simp [Function.update_of_ne (Ne.symm mine), mine]

theorem latest_reads (inside : q.toNat < N) (frames : List RouterFrame) (out : RouterFrame) :
    (runSubscriber N (frames.map SubscriberCall.read)).cache.latest q out =
      match (fromSource q frames).getLast? with
      | some frame => (true, frame)
      | none => (false, out) := by
  induction frames using List.reverseRecOn with
  | nil => simp [runSubscriber, LastValueCache.latest, fromSource]
  | append_singleton frames read ih =>
      rw [List.map_append, List.map_singleton, runSubscriber_concat, fromSource, List.filter_append,
        ← fromSource]
      by_cases mine : read.source = q
      · have one : [read].filter (fun frame => frame.source = q) = [read] := by simp [mine]
        rw [one, List.getLast?_concat]
        subst mine
        exact LastValueCache.latest_update_self inside _ read out
      · have none : [read].filter (fun frame => frame.source = q) = [] := by simp [mine]
        rw [none, List.append_nil, ← ih]
        exact LastValueCache.latest_update_other mine _ read out

/-! ### What is made of it -/

/-- Never so many losses in a row that a number looks stale. -/
def FewLosses (outcomes : List Bool) : Prop :=
  ∀ n, List.replicate n false <:+: outcomes → n < 2 ^ 31 - 1

/-- The tracker's counters for `q`, of whose messages these were read and lost. -/
structure Counts (sub : Subscriber N) (q : UInt8) (outcomes : List Bool) : Prop where
  samples : sub.tracks.tracker.sampleCount q = outcomes.count true
  gaps : sub.tracks.tracker.gapCount q = Losses.between outcomes
  duplicates : sub.tracks.tracker.duplicateCount q = 0
  outOfOrder : sub.tracks.tracker.outOfOrderCount q = 0
  total : outcomes.length = sub.tracks.tracker.sampleCount q + sub.tracks.tracker.gapCount q +
    Losses.before outcomes + Losses.after outcomes

/-- The cache shows the last frame that was received of `q`, or nothing where there is none. -/
def ShowsLast (N : Nat) (received : List Bytes) (q : UInt8) : Prop :=
  ∀ out, match (readsOf q received).getLast? with
    | none => (subscriberOf N received).cache.latest q out = (false, out)
    | some bytes => ∃ frame : RouterFrame, frame.bytes = bytes ∧
        (subscriberOf N received).cache.latest q out = (true, frame)

/-- A subscriber accounts for the messages of `q`: some it has read, in their order, the cache
shows the last frame read, and the tracker's counters are about the same reads. -/
structure Accounts (N : Nat) (received : List Bytes) (q : UInt8) (messages : List Bytes)
    (outcomes : List Bool) : Prop where
  each : outcomes.length = messages.length
  read : List.Forall₂ (Relays q) (readsOf q received) (Losses.survivors messages outcomes)
  shown : ShowsLast N received q
  counts : FewLosses outcomes → Counts (subscriberOf N received) q outcomes

theorem Subscribed.whole (subscribed : Subscribed t arrivals received p q messages) :
    ∀ frame ∈ received, frame.length = kRouterFrameSize :=
  fun _ mem => whole_of_due (subscribed.due.subset mem)

/-- What is read of a source is what was received of it. -/
theorem fromSource_bytes (whole : ∀ frame ∈ received, frame.length = kRouterFrameSize) (q : UInt8) :
    (fromSource q (receiveAll .zero received)).map (·.bytes) = readsOf q received := by
  conv_rhs => rw [readsOf, ← receiveAll_whole whole .zero, List.filter_map]
  rfl

/-- A cache that has a slot for `q`, of whole frames. -/
theorem showsLast_reads (whole : ∀ frame ∈ received, frame.length = kRouterFrameSize)
    (tracked : q.toNat < N) : ShowsLast N received q := by
  intro out
  rw [← fromSource_bytes whole q, List.getLast?_map, subscriberOf, latest_reads tracked]
  cases (fromSource q (receiveAll .zero received)).getLast? with
  | none => rfl
  | some frame => exact ⟨frame, rfl, rfl⟩

theorem Subscribed.accounts (subscribed : Subscribed t arrivals received p q messages)
    (tracked : q.toNat < N) (numbered : messages.map frameSeq = consecutive first messages.length)
    (fewer : messages.length < 2 ^ 64) : ∃ outcomes, Accounts N received q messages outcomes := by
  obtain ⟨chosen, related, sub⟩ := List.sublistForall₂_iff.mp subscribed.relayed
  obtain ⟨outcomes, each, rfl⟩ := Losses.exists_outcomes sub
  have own := fromSource_bytes subscribed.whole q
  refine ⟨outcomes, each, related, showsLast_reads subscribed.whole tracked, ?_⟩
  intro few
  have seqs : (subscriberOf N received).tracks.seqs q =
      Losses.survivors (messages.map frameSeq) outcomes := by
    have same : List.Forall₂ (· = ·)
        ((readsOf q received).map frameSeq)
        ((Losses.survivors messages outcomes).map frameSeq) := by
      rw [List.forall₂_map_left_iff, List.forall₂_map_right_iff]
      refine related.imp ?_
      rintro frame msg ⟨whole, ts, rfl⟩
      exact frameSeq_stamped whole
    rw [List.forall₂_eq_eq_eq] at same
    rw [subscriberOf, seqs_reads, Losses.survivors_map, ← same, ← own, List.map_map]
    rfl
  have slot : (subscriberOf N received).tracks.tracker.slot q =
      (counted (Losses.survivors (messages.map frameSeq) outcomes)).wrapped := by
    rw [← seqs, subscriberOf, tracks_runSubscriber]
    exact slot_runCalls tracked _
  have offers : ((messages.map frameSeq).zip outcomes).map Prod.snd = outcomes :=
    List.map_snd_zip (by rw [List.length_map, each])
  have attributed : Attributed first outcomes
      (counted (Losses.survivors (messages.map frameSeq) outcomes)) := by
    have offered : ((messages.map frameSeq).zip outcomes).map Prod.fst =
        consecutive first ((messages.map frameSeq).zip outcomes).length := by
      rw [List.map_fst_zip (by rw [List.length_map, each]), List.length_zip, List.length_map,
        each, Nat.min_self, numbered]
    have attributed := attributed_survivors offered (by rw [offers]; exact few)
    rw [offers] at attributed
    exact attributed
  have both := List.count_true_add_count_false outcomes
  have losses := Losses.count_eq outcomes
  have samples : (subscriberOf N received).tracks.tracker.sampleCount q =
      outcomes.count true := by
    rw [SourceSeqTracker.sampleCount, slot, ← attributed.samples]
    exact Nat.mod_eq_of_lt (by rw [attributed.samples]; omega)
  have gaps : (subscriberOf N received).tracks.tracker.gapCount q =
      Losses.between outcomes := by
    rw [SourceSeqTracker.gapCount, slot, ← attributed.gaps]
    exact Nat.mod_eq_of_lt (by rw [attributed.gaps]; omega)
  refine ⟨samples, gaps, ?_, ?_, ?_⟩
  · rw [SourceSeqTracker.duplicateCount, slot, SeqSlot.wrapped, attributed.duplicates]
    rfl
  · rw [SourceSeqTracker.outOfOrderCount, slot, SeqSlot.wrapped, attributed.outOfOrder]
    rfl
  · rw [samples, gaps]
    omega

/-- The message at this place of `messages` is the frame's. -/
def RelaysAt (q : UInt8) (messages : List Bytes) (frame : Bytes) (place : Nat) : Prop :=
  ∃ msg, messages[place]? = some msg ∧ Relays q frame msg

/-- The cache showed `frame` of `q` when `earlier` had been received, and shows `next` now. All
that was read of `q` are the messages at the increasing `places`, and `next` is at the same place
as `frame` or at a later one. -/
structure Advances (N : Nat) (earlier received : List Bytes) (q : UInt8) (messages : List Bytes)
    (frame next : RouterFrame) (places : List Nat) : Prop where
  grown : readsOf q earlier <+: readsOf q received
  increasing : places.Pairwise (· < ·)
  read : List.Forall₂ (RelaysAt q messages) (readsOf q received) places
  was : (readsOf q earlier).getLast? = some frame.bytes
  is : (readsOf q received).getLast? = some next.bytes
  shown : ∀ out, (subscriberOf N received).cache.latest q out = (true, next)
  forward : ∃ i j, places[(readsOf q earlier).length - 1]? = some i ∧ places.getLast? = some j ∧ i ≤ j

theorem Subscribed.advances {earlier : List Bytes}
    (subscribed : Subscribed t arrivals received p q messages) (grown : earlier <+: received)
    (tracked : q.toNat < N) {frame out : RouterFrame}
    (shown : (subscriberOf N earlier).cache.latest q out = (true, frame)) :
    ∃ next places, Advances N earlier received q messages frame next places := by
  have whole := subscribed.whole
  have longer : readsOf q earlier <+: readsOf q received := grown.filter _
  -- What the cache shows is the last read, then and now.
  have before := showsLast_reads (fun f mem => whole f (grown.subset mem)) tracked out
  cases was : (readsOf q earlier).getLast? with
  | none =>
      simp only [was] at before
      cases shown.symm.trans before
  | some bytes =>
      simp only [was] at before
      obtain ⟨old, rfl, same⟩ := before
      obtain rfl : frame = old := (Prod.mk.inj (shown.symm.trans same)).2
      obtain ⟨nonempty, -⟩ := List.getElem?_eq_some_iff.mp (List.getLast?_eq_getElem?.symm.trans was)
      have last : (readsOf q received).getLast?.isSome := List.getLast?_isSome.mpr
        (List.ne_nil_of_length_pos (Nat.lt_of_lt_of_le (Nat.zero_lt_of_lt nonempty) longer.length_le))
      obtain ⟨now, is⟩ := Option.isSome_iff_exists.mp last
      have after := showsLast_reads whole tracked
      simp only [ShowsLast, is] at after
      obtain ⟨next, rfl, -⟩ := after out
      obtain ⟨places, increasing, read⟩ := exists_places subscribed.relayed
      refine ⟨next, places, longer, increasing, read, was, is, fun out => ?_, ?_⟩
      · obtain ⟨shownNext, bytes, shows⟩ := after out
        rw [shows, RouterFrame.ext bytes]
      · exact looked_forward increasing (Nat.zero_lt_of_lt nonempty)
          (read.length_eq ▸ longer.length_le)

/-! ### Over shared memory -/

section Shm

variable {root : TomlTable} {mem : ShmMemory} {schedule more : List ShmAct} {s₀ s s' : ShmSystem}

/-- What the messages of a peer are in its ring: no longer than a slot. -/
def inRing (e : PeerEntry) (messages : List Bytes) : List Bytes := messages.map (cut (ringParams e))

/-- A slot has room for a frame. -/
theorem inRing_short {e : PeerEntry} (wellFormed : e.WellFormed)
    (short : ∀ m ∈ messages, m.length ≤ kRouterFrameSize) : inRing e messages = messages := by
  have same : ∀ m ∈ messages, cut (ringParams e) m = id m := fun m mem =>
    cut_eq_self (Nat.le_trans (short m mem) (le_maxPayload wellFormed))
  rw [inRing, List.map_congr_left same, List.map_id]

theorem shm_subscribed (accepted : buildFrom root = .ok t) (all : t.AllShm)
    (names : t.DistinctShmNames) (booted : bootShm t.view mem = .ok s₀)
    (ran : run (shmStep t.routes) s₀ schedule = some s) {e q : PeerEntry} (declared : e ∈ t.peers)
    (peer : q ∈ t.peers) : Subscribed t s.router.world.arrivals (s.popped e.id) e.id q.id
      (inRing q (s.published q.id)) := by
  have wellFormed := buildFrom_wellFormed accepted
  have inv := run_shmInv (wired_shmPorts wellFormed names) (routesTo_shmPorts wellFormed all)
    (shmInv_boot names booted) ran
  constructor
  case due =>
    obtain ⟨port, inside, id, -⟩ := exists_port all declared
    obtain ⟨-, rep, -, -, replies⟩ := inv.rings port inside
    have shared := share_sublist inv.router.handed e.id
    rw [deliveries, share_copies (fun a _ => (route_wellFormed wellFormed a).1), ← id,
      replies] at shared
    rw [← id]
    exact (List.sublist_append_left _ _).trans shared
  case taken =>
    obtain ⟨port, inside, id, params⟩ := exists_port all peer
    obtain ⟨req, -, -, requests, -⟩ := inv.rings port inside
    rw [id, params] at requests
    rw [inRing, requests]
    exact List.sublist_append_left _ _

/-- In every run of an accepted all-SHM profile with distinct names, a subscriber accounts for
every message of a peer that numbers them: read, lost between two that it read, or lost before
the first or after the last of these; and its cache shows the last frame it read. -/
theorem shm_subscriber_accounts (accepted : buildFrom root = .ok t) (all : t.AllShm)
    (names : t.DistinctShmNames) (booted : bootShm t.view mem = .ok s₀)
    (ran : run (shmStep t.routes) s₀ schedule = some s) {subscriber publisher : PeerEntry}
    (here : subscriber ∈ t.peers) (there : publisher ∈ t.peers) (tracked : publisher.id.toNat < N)
    (numbered : (inRing publisher (s.published publisher.id)).map frameSeq =
      consecutive first (s.published publisher.id).length)
    (fewer : (s.published publisher.id).length < 2 ^ 64) :
    ∃ outcomes, Accounts N (s.popped subscriber.id) publisher.id
      (inRing publisher (s.published publisher.id)) outcomes := by
  have length : (inRing publisher (s.published publisher.id)).length =
      (s.published publisher.id).length := List.length_map ..
  rw [← length] at numbered fewer
  exact (shm_subscribed accepted all names booted ran here there).accounts tracked numbered fewer

/-- Three frames across the wrap-around, of which the second finds the ring full. -/
theorem shm_subscriber_accounts_wrapping : ∃ t s₀ s, buildFrom shmPair = .ok t ∧
    bootShm t.view noShm = .ok s₀ ∧ run (shmStep t.routes) s₀ wrappingBurst = some s ∧
    (s.popped 2).length = 2 ∧ ∃ outcomes, Accounts 2 (s.popped 2) 1 (s.published 1) outcomes := by
  have shape : ∀ t ∈ (buildFrom shmPair).toOption, t.AllShm ∧ t.DistinctShmNames ∧
      (∃ p ∈ t.peers, p.id = 2) ∧ ∃ p ∈ t.peers, p.id = 1 := by decide +kernel
  have outcome : ((runShm shmPair wrappingBurst).map fun s =>
      ((s.popped 2).length, (s.published 1).map List.length, (s.published 1).map frameSeq)) =
      some (2, [64, 64, 64], consecutive 0xFFFFFFFF 3) := by decide +kernel
  obtain ⟨s, ran, counts⟩ := Option.map_eq_some_iff.mp outcome
  obtain ⟨t, s₀, accepted, booted, ran⟩ := runShm_eq_some.mp ran
  obtain ⟨all, names, ⟨p, here, two⟩, q, there, one⟩ := shape t (toOption_eq_some.mpr accepted)
  simp only [Prod.mk.injEq] at counts
  obtain ⟨popped, lengths, numbered⟩ := counts
  have three : (s.published 1).length = 3 := by simpa using congrArg List.length lengths
  have short : ∀ m ∈ s.published 1, m.length ≤ kRouterFrameSize := by
    intro m mem
    have whole : m.length ∈ [64, 64, 64] := lengths ▸ List.mem_map_of_mem mem
    have sixtyFour : m.length = 64 := by simpa using whole
    exact Nat.le_of_eq sixtyFour
  have uncut := inRing_short ((buildFrom_wellFormed accepted).peers q there) short
  refine ⟨t, s₀, s, accepted, booted, ran, popped, ?_⟩
  rw [← uncut, ← two, ← one]
  exact shm_subscriber_accounts accepted all names booted ran here there
    (by rw [one]; decide) (by rw [one, uncut, numbered, three]) (by rw [one, three]; decide)

theorem popped_grows {rules : List RouteRule} {act : ShmAct}
    (step : shmStep rules s act = some s') (p : UInt8) : s.popped p <+: s'.popped p := by
  cases shmStep_cases step with
  | @popped peer msg _ _ _ _ _ =>
      by_cases here : p = peer
      · subst here
        simp
      · simp [Function.update_of_ne here]
  | published | rejected | forwarded | nothing | floorSet => exact List.prefix_rfl

/-- The cache of a subscriber never goes back: whatever happens after it showed a frame of a peer,
it shows one of that peer again, and that is the same message or one published later. -/
theorem shm_cache_advances (accepted : buildFrom root = .ok t) (all : t.AllShm)
    (names : t.DistinctShmNames) (booted : bootShm t.view mem = .ok s₀)
    (reached : run (shmStep t.routes) s₀ schedule = some s)
    (ran : run (shmStep t.routes) s more = some s') {subscriber publisher : PeerEntry}
    (here : subscriber ∈ t.peers) (there : publisher ∈ t.peers) (tracked : publisher.id.toNat < N)
    {frame out : RouterFrame} (shown : (subscriberOf N (s.popped subscriber.id)).cache.latest
      publisher.id out = (true, frame)) :
    ∃ next places, Advances N (s.popped subscriber.id) (s'.popped subscriber.id) publisher.id
      (inRing publisher (s'.published publisher.id)) frame next places := by
  have whole : run (shmStep t.routes) s₀ (schedule ++ more) = some s' := by
    rw [run_append, reached]
    exact ran
  have grown : s.popped subscriber.id <+: s'.popped subscriber.id :=
    run_inv (I := fun now => s.popped subscriber.id <+: now.popped subscriber.id) List.prefix_rfl
      (fun _ _ _ before step => before.trans (popped_grows step _)) ran
  exact (shm_subscribed accepted all names booted whole here there).advances grown tracked shown

/-- After the first of the three frames, and after all. -/
theorem shm_cache_advances_wrapping : ∃ t s s', buildFrom shmPair = .ok t ∧
    runShm shmPair (wrappingBurst.take 5) = some s ∧
    run (shmStep t.routes) s (wrappingBurst.drop 5) = some s' ∧
    (s.popped 2).length = 1 ∧ (s'.popped 2).length = 2 ∧
    ∃ publisher ∈ t.peers, ∃ frame next places,
      (subscriberOf 2 (s.popped 2)).cache.latest 1 .zero = (true, frame) ∧
      Advances 2 (s.popped 2) (s'.popped 2) 1 (inRing publisher (s'.published 1)) frame next
        places := by
  have shape : ∀ t ∈ (buildFrom shmPair).toOption, t.AllShm ∧ t.DistinctShmNames ∧
      (∃ p ∈ t.peers, p.id = 2) ∧ ∃ p ∈ t.peers, p.id = 1 := by decide +kernel
  have first : ((runShm shmPair (wrappingBurst.take 5)).map fun s => ((s.popped 2).length,
      ((subscriberOf 2 (s.popped 2)).cache.latest 1 .zero).1)) = some (1, true) := by decide +kernel
  have runs : ((runShm shmPair (wrappingBurst.take 5 ++ wrappingBurst.drop 5)).map fun s =>
      (s.popped 2).length) = some 2 := by decide +kernel
  obtain ⟨s, early, counts⟩ := Option.map_eq_some_iff.mp first
  obtain ⟨popped, known⟩ := Prod.mk.inj counts
  obtain ⟨s', later, popped'⟩ := Option.map_eq_some_iff.mp runs
  obtain ⟨t, s₀, accepted, booted, ran⟩ := runShm_eq_some.mp early
  obtain ⟨t', s₀', accepted', booted', ran'⟩ := runShm_eq_some.mp later
  obtain rfl : t = t' := Except.ok.inj (accepted.symm.trans accepted')
  obtain rfl : s₀ = s₀' := Except.ok.inj (booted.symm.trans booted')
  rw [run_append, ran, Option.bind_some] at ran'
  obtain ⟨all, names, ⟨p, here, two⟩, q, there, one⟩ := shape t (toOption_eq_some.mpr accepted)
  have shown : (subscriberOf 2 (s.popped p.id)).cache.latest q.id .zero = (true, _) :=
    Prod.ext (by rw [two, one]; exact known) rfl
  obtain ⟨next, places, advances⟩ :=
    shm_cache_advances accepted all names booted ran ran' here there (by rw [one]; decide) shown
  rw [two, one] at advances
  exact ⟨t, s, s', accepted, early, ran', popped, popped', q, there, _, next, places,
    Prod.ext known rfl, advances⟩

end Shm

/-! ### Over datagrams -/

section Datagrams

variable {T : DatagramTransport} {root : TomlTable} {schedule : List (DatagramAct T)}
  {s₀ s : DatagramSystem T}

/-- Three frames across the wrap-around, of which the second is lost. -/
def lostOnTheWay : List (DatagramAct .udp) :=
  [.send 1 0x7F000001 (numberedFrame 0xFFFFFFFF) true, .send 1 0x7F000001 (numberedFrame 0) true,
    .disturbInbound (.lose 1), .send 1 0x7F000001 (numberedFrame 1) true,
    .forward .zero 1 (fun _ => true), .forward .zero 2 (fun _ => true), .recv 2, .recv 2]

end Datagrams

end RoboticsIpc
