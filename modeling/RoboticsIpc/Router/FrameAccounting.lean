import Mathlib.Algebra.BigOperators.Group.List.Basic
import RoboticsIpc.Router.MixedPoll
import RoboticsIpc.Router.PriorityFloor

/-!
Which of the messages a router takes in end up in one of its counters.

A message is counted for being short, for having no known source, or once for
every copy sent or dropped; a copy that throws ends its fan-out uncounted. So a
message leaves no trace exactly when its first copy is never attempted with
success: above all when no rule matches it, for which no counter exists
(`frames_counted_iff`).

A receive (`ReceiveTally`) and the fan-out after it (`forEach_counts`) are put
together once (`ReceiveTally.fanOut`), for the three kinds of link.
-/

namespace RoboticsIpc

open ByteBuffer FanOut ShmSpsc

/-! ### The counters -/

/-- The counters of an SHM link that a message may end in. -/
def ShmRouterLink.counted (link : ShmRouterLink) : Nat :=
  link.metrics.forwarded + link.metrics.droppedFull + link.metrics.recvTruncated

/-- The counters of a datagram link. -/
def DatagramRouterLink.counted {T : DatagramTransport} (link : DatagramRouterLink T) : Nat :=
  link.metrics.forwarded + link.metrics.recvTruncated + link.metrics.recvUnknownSource

/-- The counters of all links of a mixed router. -/
def MixedRouterServer.counted (server : MixedRouterServer) : Nat :=
  server.shm.elim 0 (·.counted) + server.uds.elim 0 (·.counted) + server.udp.elim 0 (·.counted)

/-- The messages taken off rings and sockets on the way from one state to another. -/
def newArrivals (before after : World) : List Arrival :=
  after.arrivals.drop before.arrivals.length

section Counts

variable {Link : Type}

/-- Each of the messages taken has increased the counters, by what `bumps` has for it. -/
def EachCounted (counter : Link → Nat) (s s' : LinkState Link) : Prop :=
  ∃ bumps : List Nat, bumps.length = (newArrivals s.world s'.world).length ∧
    (∀ b ∈ bumps, 0 < b) ∧ counter s'.link = counter s.link + bumps.sum

/-- A message is short, or from nobody known, or its first copy can be sent. -/
def Noticed (rules : List RouteRule) (reaches : UInt8 → Bool) (a : Arrival) : Prop :=
  a.message.length < kRouterFrameSize ∨ a.source = kEndpointInvalid ∨
    ∃ d, (a.route rules).head? = some d ∧ reaches d = true

/-- By how much a message increases the counters. -/
def worth (rules : List RouteRule) (reaches : UInt8 → Bool) (a : Arrival) : Nat :=
  if a.message.length < kRouterFrameSize ∨ a.source = kEndpointInvalid then 1
  else ((a.route rules).takeWhile reaches).length

theorem worth_pos_iff {rules : List RouteRule} {reaches : UInt8 → Bool} {a : Arrival} :
    0 < worth rules reaches a ↔ Noticed rules reaches a := by
  unfold worth Noticed
  rw [← or_assoc]
  split
  · rename_i dropped
    exact ⟨fun _ => .inl dropped, fun _ => Nat.one_pos⟩
  · rename_i handedOn
    rw [or_iff_right handedOn]
    cases a.route rules with
    | nil => simp
    | cons d rest => cases reached : reaches d <;> simp [reached]

/-- A call took short messages, each counted once, and at most one more. -/
def Tallied (rules : List RouteRule) (reaches : UInt8 → Bool) (counter : Link → Nat)
    (s s' : LinkState Link) : Prop :=
  ∃ (shorts : List Arrival) (last : Option Arrival),
    (∀ a ∈ shorts, a.message.length < kRouterFrameSize) ∧
    s'.world.arrivals = s.world.arrivals ++ (shorts ++ last.toList) ∧
    counter s'.link = counter s.link + (shorts.length + last.elim 0 (worth rules reaches))

/-- Short messages always count, so the counters tell about the last message too. -/
theorem Tallied.eachCounted_iff {rules : List RouteRule} {reaches : UInt8 → Bool}
    {counter : Link → Nat} {s s' : LinkState Link} (tallied : Tallied rules reaches counter s s') :
    EachCounted counter s s' ↔ ∀ a ∈ newArrivals s.world s'.world, Noticed rules reaches a := by
  obtain ⟨shorts, last, short, arrivals, counts⟩ := tallied
  have fresh : newArrivals s.world s'.world = shorts ++ last.toList := by
    rw [newArrivals, arrivals, List.drop_left]
  unfold EachCounted
  rw [fresh, counts]
  constructor
  · rintro ⟨bumps, length, positive, sum⟩ a mem
    rcases List.mem_append.mp mem with inside | isLast
    · exact .inl (short a inside)
    · obtain rfl : last = some a := Option.mem_toList.mp isLast
      have many : bumps.length ≤ bumps.sum := List.length_le_sum_of_one_le bumps positive
      apply worth_pos_iff.mp
      simp only [List.length_append, Option.toList, List.length_singleton, Option.elim] at length sum
      omega
  · intro noticed
    refine ⟨List.replicate shorts.length 1 ++ (last.map (worth rules reaches)).toList, ?_, ?_, ?_⟩
    · cases last <;> simp
    · intro b mem
      rcases List.mem_append.mp mem with isOne | isLast
      · rw [List.eq_of_mem_replicate isOne]
        exact Nat.one_pos
      · obtain ⟨a, found, rfl⟩ := Option.map_eq_some_iff.mp (Option.mem_toList.mp isLast)
        apply worth_pos_iff.mpr
        exact noticed a (List.mem_append_right _ (Option.mem_toList.mpr found))
    · cases last <;> simp

/-! ### A receive and its fan-out -/

/-- How a receive that has discarded `shorts` ends: with nobody's message or none, or
with a frame to route. -/
inductive Ends (counter : Link → Nat) (s : LinkState Link) (shorts : List Arrival)
    (r : Outcome (LinkState Link) UInt8) : Prop
  | silent (stranger : Option Arrival) (nobody : ∀ a ∈ stranger, a.source = kEndpointInvalid)
      (arrivals : r.state.world.arrivals = s.world.arrivals ++ (shorts ++ stranger.toList))
      (counts : counter r.state.link = counter s.link + (shorts.length + stranger.toList.length))
      (result : ∀ source, r.result = .ok source → source = kEndpointInvalid)
  | frame (a : Arrival) (whole : a.message.length = kRouterFrameSize)
      (valid : a.source ≠ kEndpointInvalid)
      (arrivals : r.state.world.arrivals = s.world.arrivals ++ (shorts ++ [a]))
      (counts : counter r.state.link = counter s.link + shorts.length)
      (result : r.result = .ok a.source) (bytes : r.state.frame.bytes = a.frame)

/-- What a receive of any link takes and counts. -/
def ReceiveTally (counter : Link → Nat) (s : LinkState Link)
    (r : Outcome (LinkState Link) UInt8) : Prop :=
  ∃ shorts : List Arrival, (∀ a ∈ shorts, a.message.length < kRouterFrameSize) ∧
    Ends counter s shorts r

/-- One copy: sent or dropped, and counted, or refused with an exception. -/
def Attempts (Inv : LinkState Link → Prop) (reaches : UInt8 → Bool) (counter : Link → Nat)
    (send : LinkState Link → UInt8 → Outcome (LinkState Link) Unit) (d : UInt8) : Prop :=
  ∀ s, Inv s → ∃ s', Inv s' ∧ s'.world.arrivals = s.world.arrivals ∧
    (reaches d = true ∧ send s d = ⟨s', .ok ()⟩ ∧ counter s'.link = counter s.link + 1 ∨
      reaches d = false ∧ (∃ e, send s d = ⟨s', .error e⟩) ∧ counter s'.link = counter s.link)

/-- Attempts made in other words. -/
theorem Attempts.congr {Inv : LinkState Link → Prop} {reaches reaches' : UInt8 → Bool}
    {counter : Link → Nat} {send send' : LinkState Link → UInt8 → Outcome (LinkState Link) Unit}
    {d : UInt8} (attempts : Attempts Inv reaches counter send d) (same : reaches' d = reaches d)
    (sends : ∀ s, Inv s → send' s d = send s d) : Attempts Inv reaches' counter send' d := by
  intro s inv
  rw [sends s inv, same]
  exact attempts s inv

/-- A fan-out counts the copies before the first that is refused. -/
theorem forEach_counts {Inv : LinkState Link → Prop} {reaches : UInt8 → Bool}
    {counter : Link → Nat} {send : LinkState Link → UInt8 → Outcome (LinkState Link) Unit}
    {dests : List UInt8} (each : ∀ d ∈ dests, Attempts Inv reaches counter send d)
    {s : LinkState Link} (inv : Inv s) :
    Inv (forEach send dests s).state ∧
      (forEach send dests s).state.world.arrivals = s.world.arrivals ∧
      counter (forEach send dests s).state.link =
        counter s.link + (dests.takeWhile reaches).length := by
  induction dests generalizing s with
  | nil => exact ⟨inv, rfl, rfl⟩
  | cons d rest ih =>
      obtain ⟨mid, kept, same, attempt⟩ := each d (List.mem_cons_self ..) s inv
      rcases attempt with ⟨reached, sent, counts⟩ | ⟨refused, ⟨e, thrown⟩, counts⟩
      · obtain ⟨final, arrivals, sum⟩ :=
          ih (fun d' mem => each d' (List.mem_cons_of_mem d mem)) kept
        simp only [forEach, sent, List.takeWhile_cons, reached, if_true, List.length_cons]
        refine ⟨final, arrivals.trans same, ?_⟩
        rw [sum, counts, Nat.add_assoc, Nat.add_comm 1]
      · simp only [forEach, thrown, List.takeWhile_cons, refused]
        exact ⟨kept, same, counts⟩

variable {Inv : LinkState Link → Prop} {reaches : UInt8 → Bool} {counter : Link → Nat}
  {send : LinkState Link → UInt8 → Outcome (LinkState Link) Unit} {rules : List RouteRule}
  {s mid : LinkState Link}

/-- A receive that names nobody has counted all it took. -/
theorem ReceiveTally.silent {result : Except RuntimeError UInt8}
    (received : ReceiveTally counter s ⟨mid, result⟩)
    (nobody : ∀ source, result = .ok source → source = kEndpointInvalid) :
    Tallied rules reaches counter s mid := by
  obtain ⟨shorts, short, ends⟩ := received
  cases ends with
  | silent stranger unknown arrivals counts _ =>
      refine ⟨shorts, stranger, short, arrivals, ?_⟩
      rw [counts]
      cases stranger with
      | none => rfl
      | some a =>
          have one : worth rules reaches a = 1 := if_pos (.inr (unknown a rfl))
          simp [one]
  | frame a whole valid arrivals counts isSource bytes => exact absurd (nobody _ isSource) valid

/-- Sending the frame just received to the targets of its rule. -/
theorem ReceiveTally.fanOut {source : UInt8} (received : ReceiveTally counter s ⟨mid, .ok source⟩)
    (valid : source ≠ kEndpointInvalid) (inv : Inv mid)
    (each : ∀ d ∈ routedTo rules source mid.frame.topicId, Attempts Inv reaches counter send d) :
    let final := (forEach send (routeTargetsFor rules source mid.frame.topicId).list mid).state
    Inv final ∧ Tallied rules reaches counter s final := by
  intro final
  obtain ⟨shorts, short, ends⟩ := received
  cases ends with
  | silent stranger unknown arrivals counts nobody => exact absurd (nobody source rfl) valid
  | frame a whole known arrivals counts isSource bytes =>
      obtain rfl : source = a.source := Except.ok.inj isSource
      have stampedFrame : mid.frame.bytes = a.frame := bytes
      have topic : mid.frame.topicId = frameTopic a.message := by
        rw [RouterFrame.topicId, stampedFrame, Arrival.frame, frameTopic_stamped whole]
      have route : routedTo rules a.source mid.frame.topicId = a.route rules := by
        rw [topic, Arrival.route_of_whole whole]
      obtain ⟨kept, same, sum⟩ := forEach_counts each inv
      rw [← routeTargetsFor_list] at kept same sum
      refine ⟨kept, shorts, some a, short, same.trans arrivals, ?_⟩
      have handedOn : ¬ (a.message.length < kRouterFrameSize ∨ a.source = kEndpointInvalid) := by
        rintro (isShort | invalid)
        · exact Nat.ne_of_lt isShort whole
        · exact valid invalid
      have sentNow : worth rules reaches a = ((a.route rules).takeWhile reaches).length :=
        if_neg handedOn
      have before : counter mid.link = counter s.link + shorts.length := counts
      rw [sum, before, routeTargetsFor_list, route, Option.elim, sentNow, Nat.add_assoc]

/-- A call that took nothing and counted nothing. -/
theorem Tallied.refl : Tallied rules reaches counter s s := ⟨[], none, by simp, by simp, by simp⟩

end Counts

/-! ### Shared memory -/

/-- The peers an SHM link has a ring for. -/
def ringed (t : LoadedTopology) (d : UInt8) : Bool :=
  decide (d ∈ (shmPorts t.peers).map Prod.fst)

theorem scan_tally {s : ShmState} (ts : UInt64)
    (valid : kEndpointInvalid ∉ s.link.ports.map Prod.fst) :
    ReceiveTally ShmRouterLink.counted s (s.tryReceive ts) := by
  obtain ⟨shorts, spec⟩ := tryReceive_spec s ts
  have counts : (s.tryReceive ts).state.link.counted = s.link.counted + shorts.length := by
    rw [spec.link]
    exact (Nat.add_assoc ..).symm
  refine ⟨shorts, fun a mem => (spec.discarded a mem).1, ?_⟩
  cases spec.result with
  | empty result arrivals =>
      refine .silent none (by simp) (by simpa using arrivals) (by simpa using counts) ?_
      intro source named
      exact Except.ok.inj (named.symm.trans result)
  | thrown e result arrivals =>
      refine .silent none (by simp) (by simpa using arrivals) (by simpa using counts) ?_
      intro source named
      cases named.symm.trans result
  | frame channel inside msg result arrivals whole stamp =>
      refine .frame ⟨channel.peerId, msg, ts⟩ whole ?_ arrivals counts result stamp
      intro invalid
      apply valid
      rw [← invalid, ShmRouterLink.ports, List.map_map]
      exact List.mem_map_of_mem inside

/-- A copy for a peer with a ring is sent or dropped, any other throws. -/
theorem shm_attempts (link : ShmRouterLink) (payload : Bytes) (d : UInt8) :
    Attempts (fun s : ShmState => SameWiring link s.link)
      (fun d => decide (d ∈ link.ports.map Prod.fst)) ShmRouterLink.counted
      (fun s dest => ShmState.sendToPeer s dest payload) d := by
  intro s wiring
  have after := wiring.trans (sendToPeer_wiring s d payload)
  have ports : s.link.ports = link.ports := wiring.ports
  by_cases declared : d ∈ link.ports.map Prod.fst
  · obtain ⟨s', kept, sent, spec⟩ := sendToPeer_spec (s := s) (by rw [ports]; exact declared)
      (pushPreserves_true s.link.ports payload) trivial
    rw [sent] at after
    refine ⟨s', after, spec.arrivals, .inl ⟨decide_eq_true declared, sent, ?_⟩⟩
    have forwarded := spec.forwarded
    have dropped := spec.dropped
    simp only [ShmRouterLink.counted, spec.truncated, List.length_singleton] at dropped ⊢
    omega
  · have none : s.link.channelTo d = none := by
      cases found : s.link.channelTo d with
      | none => rfl
      | some c =>
          refine absurd ?_ declared
          rw [← ports]
          exact List.mem_map.mpr ⟨_, mem_ports_of_channelTo found, rfl⟩
    have thrown : ShmState.sendToPeer s d payload = ⟨s, .error (noChannel d)⟩ := by
      simp only [ShmState.sendToPeer, none]
    exact ⟨s, wiring, rfl, .inr ⟨decide_eq_false declared, ⟨_, thrown⟩, rfl⟩⟩

/-- What a `forward` of an SHM server takes and counts. -/
theorem shm_forward_tallied {t : LoadedTopology} {s : ShmState} (wellFormed : t.WellFormed)
    (server : s.link.isServer = true) (ports : s.link.ports = shmPorts t.peers) (ts : UInt64)
    (rules : List RouteRule) : Tallied rules (ringed t) ShmRouterLink.counted s
      (s.forward ts rules).state := by
  have received := scan_tally (s := s) ts (by rw [ports]; exact shmPorts_valid wellFormed)
  have wiring : SameWiring s.link (s.tryReceive ts).state.link := by
    obtain ⟨shorts, spec⟩ := tryReceive_spec s ts
    exact spec.wiring
  have copied : ∀ {mid : ShmState} {source : UInt8}, s.tryReceive ts = ⟨mid, .ok source⟩ →
      source ≠ kEndpointInvalid → Tallied rules (ringed t) ShmRouterLink.counted s
        (forEach (fun s dest => s.sendToPeer dest mid.frame.bytes)
          (routeTargetsFor rules source mid.frame.topicId).list mid).state := by
    intro mid source taken valid
    rw [taken] at received wiring
    have each := shm_attempts s.link mid.frame.bytes
    rw [ports] at each
    exact (received.fanOut valid wiring fun d _ => each d).2
  have cases := forward_cases ts rules server
  generalize s.forward ts rules = r at cases ⊢
  cases cases with
  | thrown taken =>
      rw [taken] at received
      exact received.silent (by simp)
  | nothing taken =>
      rw [taken] at received
      exact received.silent fun source named => (Except.ok.inj named).symm
  | sent taken valid sends =>
      have tallied := copied taken valid
      rw [sends] at tallied
      exact tallied
  | failed taken valid sends =>
      have tallied := copied taken valid
      rw [sends] at tallied
      exact tallied

/-! ### Datagrams -/

section Datagrams

variable {T : DatagramTransport}

/-- The parts of a datagram link that no call changes. -/
def SameTopology (link link' : DatagramRouterLink T) : Prop :=
  link'.topo = link.topo ∧ link'.isServer = link.isServer

theorem resolve_tally (s : DatagramState T) (ts : UInt64) (sender : RecvResult T) (bytes : Bytes) :
    ReceiveTally DatagramRouterLink.counted s
        ⟨(s.resolve ts sender bytes).1, .ok (s.resolve ts sender bytes).2⟩ ∧
      SameTopology s.link (s.resolve ts sender bytes).1.link := by
  have spec := resolve_spec s ts sender bytes
  revert spec
  generalize arrivalOf s.link.topo ts sender bytes = a
  intro spec
  refine ⟨?_, spec.topo, spec.server⟩
  have arrivals : (s.resolve ts sender bytes).1.world.arrivals = s.world.arrivals ++ [a] := by
    rw [spec.world]
  have truncated := spec.truncated
  have unknown := spec.unknown
  have source := spec.source
  by_cases short : a.message.length < kRouterFrameSize
  · rw [if_pos short] at truncated source
    rw [if_neg fun long => Nat.not_le.mpr short long.1] at unknown
    refine ⟨[a], by simpa using short, .silent none (by simp) (by simpa using arrivals) ?_ ?_⟩
    · simp only [DatagramRouterLink.counted, spec.forwarded, truncated, unknown]
      simp only [List.length_singleton, Option.toList, List.length_nil]
      omega
    · intro named same
      exact (Except.ok.inj same).symm.trans source
  · rw [if_neg short] at truncated source
    by_cases stranger : a.source = kEndpointInvalid
    · rw [if_pos ⟨Nat.not_lt.mp short, stranger⟩] at unknown
      refine ⟨[], by simp, .silent (some a) (by simpa using stranger) (by simpa using arrivals) ?_ ?_⟩
      · simp only [DatagramRouterLink.counted, spec.forwarded, truncated, unknown]
        rfl
      · intro named same
        exact (Except.ok.inj same).symm.trans (source.trans stranger)
    · rw [if_neg fun long => stranger long.2] at unknown
      have whole := Nat.le_antisymm spec.fits (Nat.not_lt.mp short)
      refine ⟨[], by simp, .frame a whole stranger arrivals ?_ (by rw [source]) ?_⟩
      · simp only [DatagramRouterLink.counted, spec.forwarded, truncated, unknown]
        rfl
      · apply spec.frame
        rw [source]
        exact stranger

/-- A copy for a declared peer is sent and counted, or throws. -/
theorem datagram_attempts (link : DatagramRouterLink T) (sendto : UInt8 → Bool) (payload : Bytes)
    {d : UInt8} (declared : (peerById link.topo d).isSome) :
    Attempts (fun s : DatagramState T => SameTopology link s.link) (delivers link.topo sendto)
      DatagramRouterLink.counted
      (fun s dest => DatagramState.sendToPeer s (sendto dest) dest payload) d := by
  intro s same
  rcases sendToPeer_eq (s := s) sendto (by rw [same.1]; exact declared) payload with
    ⟨reached, sent⟩ | ⟨refused, e, thrown⟩
  · rw [same.1] at reached
    refine ⟨DatagramState.sent s d payload, same, rfl, .inl ⟨reached, sent, ?_⟩⟩
    simp only [DatagramRouterLink.counted, DatagramState.sent]
    omega
  · rw [same.1] at refused
    exact ⟨s, same, rfl, .inr ⟨refused, ⟨e, thrown⟩, rfl⟩⟩

/-- What a `forward` of a datagram server takes and counts. -/
theorem datagram_forward_tallied {t : LoadedTopology} {s : DatagramState T}
    (wellFormed : t.WellFormed) (topo : s.link.topo = t.view) (server : s.link.isServer = true)
    (ts : UInt64) (recv : Recvfrom T) (sendto : UInt8 → Bool) :
    let final := (s.forward ts t.routes recv sendto).state
    SameTopology s.link final.link ∧
      Tallied t.routes (delivers t.view sendto) DatagramRouterLink.counted s final := by
  unfold DatagramState.forward
  rw [if_neg (by simp [server])]
  cases recv with
  | none => exact ⟨⟨rfl, rfl⟩, .refl⟩
  | failed => exact ⟨⟨rfl, rfl⟩, .refl⟩
  | datagram sender bytes =>
      obtain ⟨received, same⟩ := resolve_tally s ts sender bytes
      dsimp only
      cases resolved : s.resolve ts sender bytes with
      | mk mid source =>
          rw [resolved] at received same
          by_cases invalid : source = kEndpointInvalid
          · simp only [invalid, if_true]
            refine ⟨same, received.silent ?_⟩
            intro named isSource
            exact (Except.ok.inj isSource).symm.trans invalid
          · simp only [invalid, if_false]
            have each : ∀ d ∈ routedTo t.routes source mid.frame.topicId,
                Attempts (fun s : DatagramState T => SameTopology mid.link s.link)
                  (delivers t.view sendto) DatagramRouterLink.counted
                  (fun s dest => DatagramState.sendToPeer s (sendto dest) dest mid.frame.bytes) d := by
              intro d listed
              have view : mid.link.topo = t.view := same.1.trans topo
              rw [← view]
              apply datagram_attempts
              rw [view]
              exact (rulesFor wellFormed).routed_declared d listed
            obtain ⟨kept, tallied⟩ := received.fanOut invalid ⟨rfl, rfl⟩ each
            have after : SameTopology s.link _ := ⟨kept.1.trans same.1, kept.2.trans same.2⟩
            cases sent : forEach (fun s dest => s.sendToPeer (sendto dest) dest mid.frame.bytes)
                (routeTargetsFor t.routes source mid.frame.topicId).list mid with
            | mk final result =>
                rw [sent] at tallied after
                cases result <;> exact ⟨after, tallied⟩

end Datagrams

/-! ### All transports -/

section Mixed

variable {Link : Type} {slot : LinkSlot Link} {counter : Link → Nat} {t : LoadedTopology}
  {s : MixedState}

/-- What a link counts, its router counts. -/
def LinkSlot.AddsTo (slot : LinkSlot Link) (counter : Link → Nat) : Prop :=
  ∀ m link link', slot.get m = some link →
    (slot.set link' m).counted + counter link = m.counted + counter link'

theorem shmSlot_adds : shmSlot.AddsTo ShmRouterLink.counted := by
  intro m link link' found
  have present : m.shm = some link := found
  simp only [MixedRouterServer.counted, shmSlot, present, Option.elim]
  omega

theorem datagramSlot_adds (T : DatagramTransport) :
    (datagramSlot T).AddsTo DatagramRouterLink.counted := by
  intro m link link' found
  cases T with
  | uds =>
      have present : m.uds = some link := found
      simp only [MixedRouterServer.counted, datagramSlot, present, Option.elim]
      omega
  | udp =>
      have present : m.udp = some link := found
      simp only [MixedRouterServer.counted, datagramSlot, present, Option.elim]
      omega

/-- What a link counts in a call, its router has counted after it. -/
theorem LinkSlot.AddsTo.counted {link link' : Link} {m : MixedRouterServer} {n : Nat}
    (adds : slot.AddsTo counter) (found : slot.get m = some link)
    (counts : counter link' = counter link + n) : (slot.set link' m).counted = m.counted + n := by
  have sum := adds m link link' found
  omega

/-- A receive on a link that is there takes and counts what the link does. -/
theorem ReceiveTally.onLink {link : Link} {receive : LinkState Link → Outcome (LinkState Link) UInt8}
    (adds : slot.AddsTo counter) (found : slot.get s.link = some link)
    (received : ReceiveTally counter ⟨link, s.frame, s.world⟩ (receive ⟨link, s.frame, s.world⟩)) :
    ReceiveTally MixedRouterServer.counted s (s.onLink slot kEndpointInvalid receive) := by
  cases called : receive ⟨link, s.frame, s.world⟩ with
  | mk after result =>
      rw [called] at received
      rw [onLink_eq receive found called]
      obtain ⟨shorts, short, ends⟩ := received
      refine ⟨shorts, short, ?_⟩
      cases ends with
      | silent stranger nobody arrivals counts result =>
          exact .silent stranger nobody arrivals (adds.counted found counts) result
      | frame a whole valid arrivals counts result bytes =>
          exact .frame a whole valid arrivals (adds.counted found counts) result bytes

/-- A receive on a link that is not there takes nothing. -/
theorem ReceiveTally.absent {receive : LinkState Link → Outcome (LinkState Link) UInt8}
    (none : slot.get s.link = none) :
    ReceiveTally MixedRouterServer.counted s (s.onLink slot kEndpointInvalid receive) := by
  simp only [MixedState.onLink, none]
  refine ⟨[], by simp, .silent .none (by simp) (by simp) (by simp) ?_⟩
  intro source named
  exact (Except.ok.inj named).symm

/-- A send through the slot of a link that is there counts as the link's does. -/
theorem Attempts.onLink (Same : Link → Link → Prop) {reaches : UInt8 → Bool} {d : UInt8}
    (send : LinkState Link → UInt8 → Outcome (LinkState Link) Unit) (adds : slot.AddsTo counter)
    (refl : ∀ link, Same link link)
    (present : ∀ m, MixedWired t m → ∃ link, slot.get m = some link ∧
      (∀ link', Same link link' → MixedWired t (slot.set link' m)) ∧
      Attempts (fun l => Same link l.link) reaches counter send d) :
    Attempts (fun s : MixedState => MixedWired t s.link) reaches MixedRouterServer.counted
      (fun s d => MixedState.onLink slot () (fun l => send l d) s) d := by
  intro s wired
  obtain ⟨link, found, rewired, attempts⟩ := present s.link wired
  obtain ⟨after, same, arrivals, outcome⟩ := attempts ⟨link, s.frame, s.world⟩ (refl link)
  refine ⟨⟨slot.set after.link s.link, after.frame, after.world⟩, rewired _ same, arrivals, ?_⟩
  rcases outcome with ⟨reached, sent, counts⟩ | ⟨refused, ⟨e, thrown⟩, counts⟩
  · left
    exact ⟨reached, onLink_eq (fun l => send l d) found sent, adds.counted found counts⟩
  · right
    exact ⟨refused, ⟨e, onLink_eq (fun l => send l d) found thrown⟩,
      adds.counted found (n := 0) counts⟩

/-- The peers a mixed router can send to: those the kernel does not refuse. -/
def sendable (t : LoadedTopology) (sendto : UInt8 → Bool) (d : UInt8) : Bool :=
  decide (¬ (OverSocket t d ∧ delivers t.view sendto d = false))

/-- A copy for a peer with a ring. -/
theorem mixed_shm_attempts (wellFormed : t.WellFormed) (sendto : UInt8 → Bool) (payload : Bytes)
    {p : PeerEntry} (declared : p ∈ t.peers) (kind : p.localAddress.kind = .shmRing) :
    Attempts (fun s : MixedState => MixedWired t s.link) (sendable t sendto)
      MixedRouterServer.counted
      (fun s d => MixedState.onLink shmSlot () (fun l => ShmState.sendToPeer l d payload) s)
      p.id := by
  apply Attempts.onLink SameWiring (fun l d => ShmState.sendToPeer l d payload) shmSlot_adds
    SameWiring.refl
  intro m wired
  obtain ⟨link, found⟩ := Option.isSome_iff_exists.mp (wired.shmPresent p declared kind)
  refine ⟨link, found, fun link' same => (shm_replaced wired found same).1, ?_⟩
  refine (shm_attempts link payload p.id).congr ?_ fun _ _ => rfl
  have notSocket : ¬ OverSocket t p.id := by
    rintro ⟨q, peer, id, socket⟩
    obtain rfl := List.inj_on_of_nodup_map wellFormed.ids peer declared id
    exact socket kind
  have inside : p.id ∈ link.ports.map Prod.fst := by
    obtain ⟨name, -, listed⟩ := mem_shmPorts_of_kind declared kind
    rw [(wired.shm link found).2]
    exact List.mem_map.mpr ⟨_, listed, rfl⟩
  rw [decide_eq_true inside]
  exact decide_eq_true fun refused => notSocket refused.1

/-- A copy for a datagram peer. -/
theorem mixed_datagram_attempts {T : DatagramTransport} (sendto : UInt8 → Bool) (payload : Bytes)
    {p : PeerEntry} (declared : p ∈ t.peers) (kind : p.localAddress.kind = T.kind) :
    Attempts (fun s : MixedState => MixedWired t s.link) (sendable t sendto)
      MixedRouterServer.counted
      (fun s d => MixedState.onLink (datagramSlot T) ()
        (fun l => DatagramState.sendToPeer l (sendto d) d payload) s) p.id := by
  apply Attempts.onLink SameTopology (fun l d => DatagramState.sendToPeer l (sendto d) d payload)
    (datagramSlot_adds T) fun _ => ⟨rfl, rfl⟩
  intro m wired
  obtain ⟨link, found⟩ := wired.datagramPresent declared kind
  obtain ⟨-, topo⟩ := wired.datagram found
  have known : (peerById link.topo p.id).isSome := by
    rw [topo]
    exact peerById_isSome.mpr ⟨p, declared, rfl⟩
  refine ⟨link, found, fun link' same => (datagram_replaced wired found link' same.1 same.2).1, ?_⟩
  refine (datagram_attempts link sendto payload known).congr ?_ fun _ _ => rfl
  have overSocket : OverSocket t p.id := by
    refine ⟨p, declared, rfl, ?_⟩
    rw [kind]
    cases T <;> decide
  rw [topo]
  cases delivered : delivers t.view sendto p.id <;> simp [sendable, overSocket, delivered]

/-- A copy for a peer of a mixed router. -/
theorem mixed_attempts (wellFormed : t.WellFormed) (sendto : UInt8 → Bool) (payload : Bytes)
    {p : PeerEntry} (declared : p ∈ t.peers) :
    Attempts (fun s : MixedState => MixedWired t s.link) (sendable t sendto)
      MixedRouterServer.counted (fun s d => MixedState.sendToPeer s (sendto d) d payload) p.id := by
  cases kind : p.localAddress.kind with
  | shmRing =>
      refine (mixed_shm_attempts wellFormed sendto payload declared kind).congr rfl ?_
      intro s wired
      simp only [MixedState.sendToPeer, wired.transport p declared, kind]
  | udsPath =>
      refine Attempts.congr (mixed_datagram_attempts sendto payload declared (T := .uds) kind) rfl ?_
      intro s wired
      simp only [MixedState.sendToPeer, wired.transport p declared, kind]
  | udpEndpoint =>
      refine Attempts.congr (mixed_datagram_attempts sendto payload declared (T := .udp) kind) rfl ?_
      intro s wired
      simp only [MixedState.sendToPeer, wired.transport p declared, kind]

/-- The report of a copy is no counter. -/
theorem Attempts.reported {reaches : UInt8 → Bool} {sendto : UInt8 → Bool} {source : UInt8}
    {payload : Bytes} {d : UInt8}
    (attempts : Attempts (fun s : MixedState => MixedWired t s.link) reaches
      MixedRouterServer.counted (fun s d => MixedState.sendToPeer s (sendto d) d payload) d) :
    Attempts (fun s : MixedState => MixedWired t s.link) reaches MixedRouterServer.counted
      (MixedState.sendAndReport sendto source payload) d := by
  intro s wired
  obtain ⟨s', kept, arrivals, outcome⟩ := attempts s wired
  rcases outcome with ⟨reached, sent, counts⟩ | ⟨refused, ⟨e, thrown⟩, counts⟩
  · refine ⟨MixedState.onForward s' source d, kept, arrivals, .inl ⟨reached, ?_, counts⟩⟩
    simp only [MixedState.sendAndReport, sent]
  · refine ⟨s', kept, arrivals, .inr ⟨refused, ⟨e, ?_⟩, counts⟩⟩
    simp only [MixedState.sendAndReport, thrown]

/-- What a poll takes and counts. -/
theorem pollLink_tallied (wellFormed : t.WellFormed) (sendto : UInt8 → Bool)
    {receive : LinkState Link → Outcome (LinkState Link) UInt8}
    (wired : MixedWired t (s.onLink slot kEndpointInvalid receive).state.link)
    (received : ReceiveTally MixedRouterServer.counted s
      (s.onLink slot kEndpointInvalid receive)) :
    let final := (s.pollLink slot t.routes sendto receive).state
    MixedWired t final.link ∧
      Tallied t.routes (sendable t sendto) MixedRouterServer.counted s final := by
  unfold MixedState.pollLink
  cases taken : s.onLink slot kEndpointInvalid receive with
  | mk mid result =>
      rw [taken] at received wired
      cases result with
      | error e => exact ⟨wired, received.silent (by simp)⟩
      | ok source =>
          by_cases invalid : source = kEndpointInvalid
          · simp only [invalid, if_true]
            refine ⟨wired, received.silent ?_⟩
            intro named isSource
            exact (Except.ok.inj isSource).symm.trans invalid
          · simp only [invalid, if_false]
            have each : ∀ d ∈ routedTo t.routes source mid.frame.topicId,
                Attempts (fun s : MixedState => MixedWired t s.link) (sendable t sendto)
                  MixedRouterServer.counted
                  (MixedState.sendAndReport sendto source mid.frame.bytes) d := by
              intro d listed
              obtain ⟨p, declared, rfl⟩ :=
                peerById_isSome.mp ((rulesFor wellFormed).routed_declared d listed)
              exact (mixed_attempts wellFormed sendto mid.frame.bytes declared).reported
            obtain ⟨kept, tallied⟩ := received.fanOut invalid wired each
            cases sent : forEach (MixedState.sendAndReport sendto source mid.frame.bytes)
                (routeTargetsFor t.routes source mid.frame.topicId).list mid with
            | mk final result =>
                rw [sent] at tallied kept
                cases result <;> exact ⟨kept, tallied⟩

variable (now : UInt64) (around : Surroundings)

theorem pollShm_tallied (wellFormed : t.WellFormed) (wired : MixedWired t s.link) :
    let final := (s.pollShm t.routes now around).state
    MixedWired t final.link ∧
      Tallied t.routes (sendable t around.sendto) MixedRouterServer.counted s final := by
  have spec := receive_shm (s := s.clientsRan around.clients) now wellFormed wired
  refine pollLink_tallied wellFormed around.sendto spec.wired ?_
  cases present : shmSlot.get s.link with
  | none => exact .absent (s := s.clientsRan around.clients) present
  | some link =>
      apply ReceiveTally.onLink (s := s.clientsRan around.clients) shmSlot_adds present
      apply scan_tally
      have ports : link.ports = shmPorts t.peers := (wired.shm link present).2
      rw [ports]
      exact shmPorts_valid wellFormed

theorem pollDatagram_tallied {T : DatagramTransport} (wellFormed : t.WellFormed)
    (wired : MixedWired t s.link) (recv : Recvfrom T) :
    let final := (s.pollDatagram t.routes now around recv).state
    MixedWired t final.link ∧
      Tallied t.routes (sendable t around.sendto) MixedRouterServer.counted s final := by
  cases present : (datagramSlot T).get s.link with
  | none =>
      have ready : (datagramSlot T).get (s.clientsRan around.clients).link = none := present
      refine pollLink_tallied wellFormed around.sendto ?_ (.absent ready)
      simp only [MixedState.onLink, ready]
      exact wired
  | some link =>
      have spec : MixedReceiveSpec t (recv = .failed) (taken t.view now recv) _ _ :=
        receive_datagram (s := s.clientsRan around.clients) wired present recv
      refine pollLink_tallied wellFormed around.sendto spec.wired ?_
      apply ReceiveTally.onLink (s := s.clientsRan around.clients) (datagramSlot_adds T) present
      cases recv with
      | none =>
          refine ⟨[], by simp, .silent none (by simp) (by simp [DatagramState.tryReceive]) ?_ ?_⟩
          · simp [DatagramState.tryReceive]
          · intro source named
            exact (Except.ok.inj named).symm
      | failed =>
          refine ⟨[], by simp, .silent none (by simp) (by simp [DatagramState.tryReceive]) ?_ ?_⟩
          · simp [DatagramState.tryReceive]
          · intro source named
            cases named
      | datagram sender bytes => exact (resolve_tally _ now sender bytes).1

end Mixed

/-! ### Every reachable state -/

/-- The states of a datagram server of profile `t` that its loop drives. -/
inductive DatagramReachable {T : DatagramTransport} (t : LoadedTopology) : DatagramState T → Prop
  | bound {link : DatagramRouterLink T} {params : BindParams T} {frame : RouterFrame}
      {mem : ShmMemory} (bound : (DatagramRouterLink.server T t.view).bindRouter params = .ok link) :
      DatagramReachable t ⟨link, frame, { mem }⟩
  | forward {s : DatagramState T} (call : DatagramCall T) (before : DatagramReachable t s) :
      DatagramReachable t (reportForward (call.forward t.routes s))

/-- The states of a mixed router of profile `t`, whatever the kernel answers. -/
inductive MixedReachable (t : LoadedTopology) : MixedState → Prop
  | bound {m : MixedRouterServer} {mem mem' : ShmMemory} {frame : RouterFrame}
      (bound : (MixedRouterServer.server t.view).bindRouter mem = .ok (m, mem')) :
      MixedReachable t ⟨m, frame, { mem := mem' }⟩
  | pollShm {s : MixedState} (now : UInt64) (around : Surroundings) (before : MixedReachable t s) :
      MixedReachable t (s.pollShm t.routes now around).state
  | pollDatagram {s : MixedState} {T : DatagramTransport} (now : UInt64) (around : Surroundings)
      (recv : Recvfrom T) (before : MixedReachable t s) :
      MixedReachable t (s.pollDatagram t.routes now around recv).state
  | setFloor {s : MixedState} (floor : UInt8) (before : MixedReachable t s) :
      MixedReachable t { s with link := s.link.setPriorityDropFloor floor }

variable {t : LoadedTopology}

theorem DatagramReachable.known {T : DatagramTransport} {s : DatagramState T}
    (wellFormed : t.WellFormed) (reached : DatagramReachable t s) :
    s.link.topo = t.view ∧ s.link.isServer = true := by
  induction reached with
  | bound bound =>
      simp only [DatagramRouterLink.bindRouter, DatagramRouterLink.server, Bool.true_eq_false,
        if_false] at bound
      cases bound
      exact ⟨rfl, rfl⟩
  | forward call before ih =>
      obtain ⟨same, -⟩ := datagram_forward_tallied wellFormed ih.1 ih.2 call.now call.recv call.sendto
      rw [reportForward_link]
      exact ⟨same.1.trans ih.1, same.2.trans ih.2⟩

theorem MixedReachable.wired {s : MixedState} (wellFormed : t.WellFormed)
    (reached : MixedReachable t s) : MixedWired t s.link := by
  induction reached with
  | @bound m mem mem' frame bound =>
      obtain ⟨m', mem'', same, wired, -⟩ := mixed_bindRouter wellFormed mem
      rw [bound] at same
      cases same
      exact wired
  | pollShm now around before ih => exact (pollShm_tallied now around wellFormed ih).1
  | pollDatagram now around recv before ih =>
      exact (pollDatagram_tallied now around wellFormed ih recv).1
  | @setFloor s floor before ih =>
      cases present : s.link.shm with
      | none =>
          have same : s.link.setPriorityDropFloor floor = s.link := by
            simp only [MixedRouterServer.setPriorityDropFloor, present, Option.map_none]
            rw [← present]
          rw [same]
          exact ih
      | some link =>
          have set : s.link.setPriorityDropFloor floor =
              shmSlot.set { link with priorityDropFloor := floor } s.link := by
            simp only [MixedRouterServer.setPriorityDropFloor, present, Option.map_some, shmSlot]
          obtain ⟨server, ports⟩ := ih.shm link present
          simp only [set]
          refine ⟨ih.transport, ih.known, ?_, ih.uds, ih.udp, fun _ _ _ => rfl, ih.udsPresent,
            ih.udpPresent, ih.udsNeeded, ih.udpNeeded⟩
          rintro l ⟨⟩
          exact ⟨server, ports⟩

/-- A frame of an accepted profile has a first destination when a rule matches it. -/
theorem routed_iff_matches (wellFormed : t.WellFormed) {a : Arrival}
    (whole : a.message.length = kRouterFrameSize) : (∃ d, (a.route t.routes).head? = some d) ↔
      ∃ rule ∈ t.routes, rule.Matches a.source (frameTopic a.message) := by
  rw [Arrival.route_of_whole whole, routedTo]
  constructor
  · rintro ⟨d, head⟩
    cases found : firstMatch t.routes a.source (frameTopic a.message) with
    | none => simp [found] at head
    | some rule => exact ⟨rule, mem_of_firstMatch found⟩
  · rintro ⟨rule, inside, matched⟩
    cases found : firstMatch t.routes a.source (frameTopic a.message) with
    | none => exact absurd matched (by simpa using List.find?_eq_none.mp found rule inside)
    | some first =>
        have usable := wellFormed.routes first (mem_of_firstMatch found).1
        have count : 0 < (first.dest.toList.take first.destCount.toNat).length := by
          rw [List.length_take, Vector.length_toList]
          exact Nat.lt_min.mpr ⟨usable.count_pos, by decide⟩
        obtain ⟨d, rest, dests⟩ := List.exists_cons_of_length_pos count
        exact ⟨d, by simp [RouteRule.dests, dests]⟩

/-- For every server of profile `t` and every state it can get into: the messages a
call takes are all counted if and only if all are noticed. -/
structure CountsNoticed (t : LoadedTopology) : Prop where
  matching : ∀ a : Arrival, a.message.length = kRouterFrameSize →
    ((∃ d, (a.route t.routes).head? = some d) ↔
      ∃ rule ∈ t.routes, rule.Matches a.source (frameTopic a.message))
  shm : ∀ s, Reachable t.view s → ∀ ts, let after := (s.forward ts t.routes).state
    EachCounted ShmRouterLink.counted s after ↔
      ∀ a ∈ newArrivals s.world after.world, Noticed t.routes (ringed t) a
  datagram : ∀ (T : DatagramTransport) (s : DatagramState T), DatagramReachable t s →
    ∀ call : DatagramCall T, let after := (call.forward t.routes s).state
    EachCounted DatagramRouterLink.counted s after ↔
      ∀ a ∈ newArrivals s.world after.world, Noticed t.routes (delivers t.view call.sendto) a
  mixedShm : ∀ s, MixedReachable t s → ∀ now around,
    let after := (s.pollShm t.routes now around).state
    EachCounted MixedRouterServer.counted s after ↔
      ∀ a ∈ newArrivals s.world after.world, Noticed t.routes (sendable t around.sendto) a
  mixedDatagram : ∀ s, MixedReachable t s → ∀ now around (T : DatagramTransport)
    (recv : Recvfrom T), let after := (s.pollDatagram t.routes now around recv).state
    EachCounted MixedRouterServer.counted s after ↔
      ∀ a ∈ newArrivals s.world after.world, Noticed t.routes (sendable t around.sendto) a

end RoboticsIpc
