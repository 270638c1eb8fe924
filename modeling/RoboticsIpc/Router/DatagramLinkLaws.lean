import RoboticsIpc.Router.Accepted
import RoboticsIpc.Router.DatagramLink

/-!
What the calls of the datagram link do, each said once.

A receive takes one datagram in and says who sent it (`resolve_spec`). A fan-out
reaches the destinations before the first whose send fails (`sendAll_eq`), and
`forward_spec` puts the two together. Everything is stated through `delivers`,
the kernel's answer to one destination's `sendto`.
-/

namespace RoboticsIpc

open ByteBuffer FanOut

variable {T : DatagramTransport}

/-! ### Addresses -/

/-- A sender with no declared address is nobody. -/
theorem peerIdFromRecv_stranger {topo : RouterTopology} {sender : RecvResult T}
    (stranger : ∀ e ∈ topo.peers, e.localAddress.sends T sender = false) :
    peerIdFromRecv T topo sender = kEndpointInvalid := by
  have none : (peerFind topo fun e => e.localAddress.sends T sender) = none := by
    rw [peerFind, List.find?_eq_none]
    intro e mem
    simp [stranger e mem]
  rw [peerIdFromRecv, none]

/-- The only peer with the sender's address is the one found. -/
theorem peerIdFromRecv_of_unique {topo : RouterTopology} {sender : RecvResult T} {p : PeerEntry}
    (declared : p ∈ topo.peers) (own : p.localAddress.sends T sender)
    (unique : ∀ e ∈ topo.peers, e.localAddress.sends T sender → e.id = p.id) :
    peerIdFromRecv T topo sender = p.id := by
  cases found : peerFind topo fun e => e.localAddress.sends T sender with
  | none =>
      rw [peerFind, List.find?_eq_none] at found
      exact absurd own (found p declared)
  | some e =>
      have matched : e.localAddress.sends T sender = true := by
        simpa using List.find?_some found
      rw [peerIdFromRecv, found]
      exact unique e (List.mem_of_find?_eq_some found) matched

/-! ### Receive -/

/-- The arrival a datagram makes. -/
def arrivalOf (topo : RouterTopology) (ts : UInt64) (sender : RecvResult T) (bytes : Bytes) :
    Arrival :=
  ⟨peerIdFromRecv T topo sender, bytes.take kRouterFrameSize, ts⟩

/-- What taking a datagram in leaves behind, and whom it names. -/
structure ResolveSpec (a : Arrival) (s : DatagramState T) (r : DatagramState T × UInt8) : Prop where
  fits : a.message.length ≤ kRouterFrameSize
  world : r.1.world = { s.world with arrivals := s.world.arrivals ++ [a] }
  topo : r.1.link.topo = s.link.topo
  server : r.1.link.isServer = s.link.isServer
  bound : r.1.link.bound = s.link.bound
  forwarded : r.1.link.metrics.forwarded = s.link.metrics.forwarded
  truncated : r.1.link.metrics.recvTruncated = s.link.metrics.recvTruncated +
    if a.message.length < kRouterFrameSize then 1 else 0
  unknown : r.1.link.metrics.recvUnknownSource = s.link.metrics.recvUnknownSource +
    if kRouterFrameSize ≤ a.message.length ∧ a.source = kEndpointInvalid then 1 else 0
  source : r.2 = if a.message.length < kRouterFrameSize then kEndpointInvalid else a.source
  frame : r.2 ≠ kEndpointInvalid → r.1.frame.bytes = a.frame

theorem resolve_spec (s : DatagramState T) (ts : UInt64) (sender : RecvResult T) (bytes : Bytes) :
    ResolveSpec (arrivalOf s.link.topo ts sender bytes) s (s.resolve ts sender bytes) := by
  have received : s.frame.receive bytes = s.frame.receive (bytes.take kRouterFrameSize) := by
    simp [RouterFrame.receive, List.take_take]
  have fits : (bytes.take kRouterFrameSize).length ≤ kRouterFrameSize := List.length_take_le ..
  unfold DatagramState.resolve arrivalOf
  simp only [DatagramState.took, received]
  generalize bytes.take kRouterFrameSize = msg at fits ⊢
  by_cases short : msg.length < kRouterFrameSize
  · rw [if_pos short]
    exact ⟨fits, rfl, rfl, rfl, rfl, rfl, by simp [short, DatagramState.countTruncated],
      by simp [Nat.not_le.mpr short, DatagramState.countTruncated], by simp [short], by simp⟩
  · rw [if_neg short]
    by_cases invalid : peerIdFromRecv T s.link.topo sender = kEndpointInvalid
    · rw [if_pos invalid]
      exact ⟨fits, rfl, rfl, rfl, rfl, rfl, by simp [short, DatagramState.countUnknownSource],
        by simp [Nat.not_lt.mp short, invalid, DatagramState.countUnknownSource],
        by simp [short, invalid], by simp⟩
    · rw [if_neg invalid]
      refine ⟨fits, rfl, rfl, rfl, rfl, rfl, by simp [short], by simp [invalid], by simp [short],
        ?_⟩
      intro _
      have size := Nat.le_antisymm fits (Nat.not_lt.mp short)
      rw [RouterFrame.stamp_bytes, RouterFrame.receive_whole size]
      rfl

/-! ### Send -/

/-- Whether a send to `d` reaches the kernel and succeeds there. -/
def delivers (topo : RouterTopology) (sendto : UInt8 → Bool) (d : UInt8) : Bool :=
  match peerById topo d with
  | none => false
  | some entry => (sendDatagramToAddress (sendto d) entry.localAddress).isOk

/-- The copies for `kept` have been sent. -/
def DatagramState.sentAll (s : DatagramState T) (kept : List UInt8) (payload : Bytes) :
    DatagramState T :=
  { s with
    link := { s.link with
      metrics := { s.link.metrics with forwarded := s.link.metrics.forwarded + kept.length } }
    world := { s.world with handed := s.world.handed ++ kept.map fun d => (d, payload) } }

/-- A send to a declared peer succeeds or throws without an effect. -/
theorem sendToPeer_eq {s : DatagramState T} (sendto : UInt8 → Bool) {d : UInt8}
    (declared : (peerById s.link.topo d).isSome) (payload : Bytes) :
    (delivers s.link.topo sendto d = true ∧
        s.sendToPeer (sendto d) d payload = ⟨s.sent d payload, .ok ()⟩) ∨
      (delivers s.link.topo sendto d = false ∧
        ∃ e, s.sendToPeer (sendto d) d payload = ⟨s, .error e⟩) := by
  obtain ⟨entry, found⟩ := Option.isSome_iff_exists.mp declared
  simp only [delivers, DatagramState.sendToPeer, found]
  cases send : sendDatagramToAddress (sendto d) entry.localAddress with
  | error e => exact .inr ⟨rfl, e, rfl⟩
  | ok address => exact .inl ⟨rfl, rfl⟩

/-- A fan-out reaches the destinations before the first failing one, and throws
there. -/
theorem sendAll_eq {s : DatagramState T} (sendto : UInt8 → Bool) {dests : List UInt8}
    (declared : ∀ d ∈ dests, (peerById s.link.topo d).isSome) (payload : Bytes) :
    ∃ result, forEach (fun s dest => s.sendToPeer (sendto dest) dest payload) dests s =
        ⟨s.sentAll (dests.takeWhile (delivers s.link.topo sendto)) payload, result⟩ ∧
      (result = .ok () ↔ ∀ d ∈ dests, delivers s.link.topo sendto d) := by
  induction dests generalizing s with
  | nil => exact ⟨.ok (), by simp [forEach, DatagramState.sentAll], by simp⟩
  | cons d rest ih =>
      rcases sendToPeer_eq sendto (declared d (List.mem_cons_self ..)) payload with
        ⟨reached, sent⟩ | ⟨failed, e, thrown⟩
      · obtain ⟨result, looped, all⟩ := ih (s := s.sent d payload)
          fun d' mem => declared d' (List.mem_cons_of_mem d mem)
        have topo : (s.sent d payload).link.topo = s.link.topo := rfl
        rw [topo] at looped all
        refine ⟨result, ?_, by simp [all, reached]⟩
        simp only [forEach, sent, looped, List.takeWhile_cons, reached, if_true]
        simp [DatagramState.sentAll, DatagramState.sent, Nat.add_assoc, Nat.add_comm]
      · refine ⟨.error e, ?_, by simp [failed]⟩
        simp only [forEach, thrown, List.takeWhile_cons, failed]
        simp [DatagramState.sentAll]

/-! ### Forward -/

/-- The rules are those of a loaded profile: known destinations, no reserved source. -/
structure RulesFor (topo : RouterTopology) (rules : List RouteRule) : Prop where
  declared : ∀ rule ∈ rules, ∀ d ∈ rule.dests, (peerById topo d).isSome
  valid : ∀ rule ∈ rules, rule.source ≠ kEndpointInvalid

theorem peerById_isSome {topo : RouterTopology} {d : UInt8} :
    (peerById topo d).isSome ↔ peerExists topo.peers d := by
  simp [peerById, peerFind, peerExists, List.find?_isSome]

theorem rulesFor {t : LoadedTopology} (wellFormed : t.WellFormed) : RulesFor t.view t.routes := by
  constructor
  · intro rule inRules d listed
    exact peerById_isSome.mpr ((wellFormed.routes rule inRules).declared d listed)
  · intro rule inRules invalid
    obtain ⟨e, declared, same⟩ := (wellFormed.routes rule inRules).source
    exact (wellFormed.peers e declared).id_ne_invalid (same.trans invalid)

variable {rules : List RouteRule} {topo : RouterTopology}

theorem RulesFor.routed_declared (known : RulesFor topo rules) {source : UInt8} {topic : UInt16} :
    ∀ d ∈ routedTo rules source topic, (peerById topo d).isSome := by
  intro d mem
  unfold routedTo at mem
  cases found : firstMatch rules source topic with
  | none => simp [found] at mem
  | some rule =>
      rw [found] at mem
      exact known.declared rule (mem_of_firstMatch found).1 d mem

/-- Nothing is routed for the invalid id. -/
theorem RulesFor.routed_invalid (known : RulesFor topo rules) (topic : UInt16) :
    routedTo rules kEndpointInvalid topic = [] := by
  unfold routedTo
  cases found : firstMatch rules kEndpointInvalid topic with
  | none => rfl
  | some rule =>
      obtain ⟨inside, same, -⟩ := mem_of_firstMatch found
      exact absurd same (known.valid rule inside)

theorem RulesFor.route_declared (known : RulesFor topo rules) (a : Arrival) :
    ∀ d ∈ a.route rules, (peerById topo d).isSome := by
  intro d mem
  unfold Arrival.route at mem
  split at mem
  · exact known.routed_declared d mem
  · simp at mem

/-- A message that names nobody, for being short or unattributed, goes nowhere. -/
theorem RulesFor.route_silent (known : RulesFor topo rules) {a : Arrival}
    (nobody : (if a.message.length < kRouterFrameSize then kEndpointInvalid else a.source) =
      kEndpointInvalid) : a.route rules = [] := by
  by_cases short : a.message.length < kRouterFrameSize
  · exact Arrival.route_of_short short
  · rw [if_neg short] at nobody
    unfold Arrival.route
    rw [nobody, known.routed_invalid, ite_self]

theorem RulesFor.source_valid (known : RulesFor topo rules) {a : Arrival}
    (routed : a.route rules ≠ []) : a.source ≠ kEndpointInvalid := by
  intro nobody
  apply routed
  unfold Arrival.route
  rw [nobody, known.routed_invalid, ite_self]

/-- What one `forward` of a received datagram leaves behind: the arrival `a`, its
copies for `kept`, and a result that is whole exactly when nothing failed. -/
structure DatagramForwardSpec (rules : List RouteRule) (sendto : UInt8 → Bool) (a : Arrival)
    (s : DatagramState T) (r : Outcome (DatagramState T) ForwardResult) : Prop where
  world : r.state.world = { s.world with
    arrivals := s.world.arrivals ++ [a]
    handed := s.world.handed ++ ((a.route rules).takeWhile (delivers s.link.topo sendto)).map
      fun d => (d, a.frame) }
  topo : r.state.link.topo = s.link.topo
  server : r.state.link.isServer = s.link.isServer
  forwarded : r.state.link.metrics.forwarded = s.link.metrics.forwarded +
    ((a.route rules).takeWhile (delivers s.link.topo sendto)).length
  result : (∃ e, r.result = .error e ∧ ¬ ∀ d ∈ a.route rules, delivers s.link.topo sendto d) ∨
    ∃ fwd, r.result = .ok fwd ∧ fwd.targets.list = a.route rules ∧
      fwd.source = (if a.message.length < kRouterFrameSize then kEndpointInvalid else a.source) ∧
      ∀ d ∈ a.route rules, delivers s.link.topo sendto d

theorem forward_datagram {s : DatagramState T} (ts : UInt64) (sendto : UInt8 → Bool)
    (server : s.link.isServer = true) (known : RulesFor s.link.topo rules)
    (sender : RecvResult T) (bytes : Bytes) :
    DatagramForwardSpec rules sendto (arrivalOf s.link.topo ts sender bytes) s
      (s.forward ts rules (.datagram sender bytes) sendto) := by
  have spec := resolve_spec s ts sender bytes
  revert spec
  generalize arrivalOf s.link.topo ts sender bytes = a
  intro spec
  unfold DatagramState.forward
  rw [if_neg (by simp [server])]
  dsimp only
  cases taken : s.resolve ts sender bytes with
  | mk mid source =>
      rw [taken] at spec
      have world : mid.world = { s.world with arrivals := s.world.arrivals ++ [a] } := spec.world
      have topo : mid.link.topo = s.link.topo := spec.topo
      by_cases invalid : source = kEndpointInvalid
      · -- A short datagram or an unknown sender: no destinations.
        have silent : a.route rules = [] := known.route_silent (spec.source.symm.trans invalid)
        simp only [invalid, if_true]
        refine ⟨?_, topo, spec.server, ?_, .inr ⟨{}, rfl, ?_, ?_, ?_⟩⟩
        · simp [world, silent]
        · simpa [silent] using spec.forwarded
        · simp [silent, RouteTargets.list]
        · exact invalid.symm.trans spec.source
        · simp [silent]
      · have stampedFrame : mid.frame.bytes = a.frame := spec.frame invalid
        have whole : a.message.length = kRouterFrameSize ∧ source = a.source := by
          have named := spec.source
          simp only at named
          split at named
          · exact absurd named invalid
          · rename_i long
            exact ⟨Nat.le_antisymm spec.fits (Nat.not_lt.mp long), named⟩
        obtain ⟨size, rfl⟩ := whole
        have topic : mid.frame.topicId = frameTopic a.message := by
          rw [RouterFrame.topicId, stampedFrame, Arrival.frame, frameTopic_stamped size]
        have route : (routeTargetsFor rules a.source mid.frame.topicId).list = a.route rules := by
          rw [routeTargetsFor_list, topic, Arrival.route_of_whole size]
        have declared : ∀ d ∈ a.route rules, (peerById mid.link.topo d).isSome := by
          rw [topo]
          exact known.route_declared a
        obtain ⟨result, sent, all⟩ := sendAll_eq sendto declared a.frame
        rw [topo] at sent all
        simp only [invalid, if_false, route, stampedFrame, sent]
        have final : (mid.sentAll ((a.route rules).takeWhile (delivers s.link.topo sendto))
              a.frame).world = { s.world with
            arrivals := s.world.arrivals ++ [a]
            handed := s.world.handed ++ ((a.route rules).takeWhile
              (delivers s.link.topo sendto)).map fun d => (d, a.frame) } := by
          simp [DatagramState.sentAll, world]
        have forwarded : mid.link.metrics.forwarded = s.link.metrics.forwarded := spec.forwarded
        cases result with
        | error e =>
            exact ⟨final, topo, spec.server, congrArg (· + _) forwarded,
              .inl ⟨e, rfl, fun every => by cases all.mpr every⟩⟩
        | ok u =>
            exact ⟨final, topo, spec.server, congrArg (· + _) forwarded,
              .inr ⟨_, rfl, route, spec.source, all.mp rfl⟩⟩

/-- A fan-out that has not failed is reported whole. -/
theorem DatagramForwardSpec.reported {sendto : UInt8 → Bool} {a : Arrival} {s : DatagramState T}
    {r : Outcome (DatagramState T) ForwardResult} {fwd : ForwardResult}
    (known : RulesFor topo rules) (spec : DatagramForwardSpec rules sendto a s r)
    (ok : r.result = .ok fwd) : (reportForward r).world.reported =
      s.world.reported ++ (a.route rules).map fun d => (a.source, d) := by
  have before : r.state.world.reported = s.world.reported := by rw [spec.world]
  rcases spec.result with ⟨e, thrown, -⟩ | ⟨fwd', same, targets, source, -⟩
  · rw [thrown] at ok
    cases ok
  · rw [same] at ok
    obtain rfl := Except.ok.inj ok
    by_cases nowhere : a.route rules = []
    · have none : fwd'.targets.list = [] := targets.trans nowhere
      by_cases invalid : fwd'.source = kEndpointInvalid <;>
        simp [reportForward, same, LinkState.report, invalid, none, nowhere, before]
    · have valid := known.source_valid nowhere
      have whole : ¬ a.message.length < kRouterFrameSize :=
        fun short => nowhere (Arrival.route_of_short short)
      rw [if_neg whole] at source
      simp only [reportForward, same, source, valid, if_false, LinkState.report, before, targets]

end RoboticsIpc
