import RoboticsIpc.Router.MixedLaws
import RoboticsIpc.Router.Node
import RoboticsIpc.Router.RequestScan

/-!
What one `poll_link` of a bound mixed router does.

A send reaches its link or throws because the kernel refused a datagram
(`sendAndReport_spec`), and a receive names the arrivals it took
(`MixedReceiveSpec`). A poll takes its messages and attempts, for each frame among
them, the targets before the first refused one (`PollSpec`); `Polled` says what
polls that follow one another have done.
-/

namespace RoboticsIpc

open ByteBuffer FanOut ShmSpsc

variable {t : LoadedTopology} {rules : List RouteRule} {sendto : UInt8 → Bool} {p : PeerEntry}
  {payload : Bytes} {s s' s'' : MixedState}

/-! ### Send -/

/-- A declared peer that has no ring. -/
def OverSocket (t : LoadedTopology) (d : UInt8) : Prop :=
  ∃ p ∈ t.peers, p.id = d ∧ p.localAddress.kind ≠ .shmRing

instance (t : LoadedTopology) (d : UInt8) : Decidable (OverSocket t d) :=
  inferInstanceAs (Decidable (∃ p ∈ t.peers, p.id = d ∧ p.localAddress.kind ≠ .shmRing))

/-- The kernel refuses the datagram for `d`. -/
def Refused (t : LoadedTopology) (sendto : UInt8 → Bool) (d : UInt8) : Prop :=
  OverSocket t d ∧ delivers t.view sendto d = false

instance (t : LoadedTopology) (sendto : UInt8 → Bool) (d : UInt8) : Decidable (Refused t sendto d) :=
  inferInstanceAs (Decidable (_ ∧ _))

/-- The targets before the first one whose datagram the kernel refuses. -/
def attempted (t : LoadedTopology) (sendto : UInt8 → Bool) (targets : List UInt8) : List UInt8 :=
  targets.takeWhile fun d => ¬ Refused t sendto d

theorem attempted_all {targets : List UInt8} (none : ∀ d ∈ targets, ¬ Refused t sendto d) :
    attempted t sendto targets = targets := by
  rw [attempted, List.takeWhile_eq_self_iff]
  intro d mem
  exact decide_eq_true (none d mem)

/-- What sending `payload` to `dests` leaves behind: `kept` got it, and of the
destinations only those with a ring may be missing from `kept`. -/
structure MixedSendSpec (t : LoadedTopology) (payload : Bytes) (dests kept : List UInt8)
    (reported : List (UInt8 × UInt8)) (s s' : MixedState) : Prop where
  wired : MixedWired t s'.link
  kept_sub : kept.Sublist dests
  sockets : kept.filter (OverSocket t ·) = dests.filter (OverSocket t ·)
  frame : s'.frame = s.frame
  arrivals : s'.world.arrivals = s.world.arrivals
  reported : s'.world.reported = s.world.reported ++ reported
  handed : s'.world.handed = s.world.handed ++ kept.map fun d => (d, payload)
  forwarded : s'.link.forwarded = s.link.forwarded + kept.length
  dropped : s'.link.droppedFull + kept.length = s.link.droppedFull + dests.length

/-- Nothing sent, nothing changed. -/
theorem MixedSendSpec.nil (wired : MixedWired t s.link) : MixedSendSpec t payload [] [] [] s s :=
  ⟨wired, List.Sublist.refl _, rfl, rfl, rfl, by simp, by simp, rfl, rfl⟩

theorem MixedSendSpec.append {dests kept dests' kept' : List UInt8}
    {reported reported' : List (UInt8 × UInt8)}
    (first : MixedSendSpec t payload dests kept reported s s')
    (second : MixedSendSpec t payload dests' kept' reported' s' s'') :
    MixedSendSpec t payload (dests ++ dests') (kept ++ kept') (reported ++ reported') s s'' := by
  constructor
  · exact second.wired
  · exact first.kept_sub.append second.kept_sub
  · rw [List.filter_append, List.filter_append, first.sockets, second.sockets]
  · exact second.frame.trans first.frame
  · exact second.arrivals.trans first.arrivals
  · rw [second.reported, first.reported, List.append_assoc]
  · rw [second.handed, first.handed, List.map_append, List.append_assoc]
  · rw [second.forwarded, first.forwarded, List.length_append, Nat.add_assoc]
  · have one := first.dropped
    have two := second.dropped
    rw [List.length_append, List.length_append]
    omega

theorem onLink_eq {Link Value : Type} {slot : LinkSlot Link} {absent : Value} {link : Link}
    {after : LinkState Link} {result : Except RuntimeError Value}
    (call : LinkState Link → Outcome (LinkState Link) Value) (found : slot.get s.link = some link)
    (called : call ⟨link, s.frame, s.world⟩ = ⟨after, result⟩) :
    s.onLink slot absent call =
      ⟨⟨slot.set after.link s.link, after.frame, after.world⟩, result⟩ := by
  simp only [MixedState.onLink, found, called]

/-- A send to a peer with a ring returns, whatever the ring is like. -/
theorem sendToPeer_shm (wellFormed : t.WellFormed) (wired : MixedWired t s.link)
    (declared : p ∈ t.peers) (kind : p.localAddress.kind = .shmRing) :
    ¬ Refused t sendto p.id ∧ ∃ s' kept, s.sendToPeer (sendto p.id) p.id payload = ⟨s', .ok ()⟩ ∧
      MixedSendSpec t payload [p.id] kept [] s s' := by
  obtain ⟨link, found⟩ := Option.isSome_iff_exists.mp (wired.shmPresent p declared kind)
  have slot : shmSlot.get s.link = some link := found
  obtain ⟨name, -, inside⟩ := mem_shmPorts_of_kind declared kind
  have ports := (wired.shm link found).2
  have channel : p.id ∈ link.ports.map Prod.fst := by
    rw [ports]
    exact List.mem_map.mpr ⟨_, inside, rfl⟩
  obtain ⟨l', kept, sent, spec⟩ := sendToPeer_spec (s := ⟨link, s.frame, s.world⟩) channel
    (pushPreserves_true link.ports payload) trivial
  obtain ⟨rewired, forwarded, dropped⟩ := shm_replaced wired slot spec.wiring
  have ringed : ¬ OverSocket t p.id := by
    rintro ⟨q, peer, id, socket⟩
    obtain rfl := List.inj_on_of_nodup_map wellFormed.ids peer declared id
    exact socket kind
  have noSocket : ∀ d ∈ [p.id], ¬ OverSocket t d := by simpa using ringed
  have call : s.sendToPeer (sendto p.id) p.id payload =
      s.onLink shmSlot () fun l => ShmState.sendToPeer l p.id payload := by
    simp only [MixedState.sendToPeer, wired.transport p declared, kind]
  refine ⟨fun refused => ringed refused.1, _, kept, call.trans (onLink_eq _ slot sent), ?_⟩
  constructor
  · exact rewired
  · exact spec.kept_sub
  · have none : ∀ ds : List UInt8, ds ⊆ [p.id] → ds.filter (OverSocket t ·) = [] := by
      intro ds sub
      rw [List.filter_eq_nil_iff]
      intro d mem
      simpa using noSocket d (sub mem)
    rw [none kept spec.kept_sub.subset, none [p.id] (List.Subset.refl _)]
  · exact spec.frame
  · exact spec.arrivals
  · simpa using spec.reported
  · exact spec.handed
  · have sum := spec.forwarded
    simp only at sum ⊢
    omega
  · have sum := spec.dropped
    simp only at sum ⊢
    omega

/-- A send to a datagram peer is taken by the kernel, or throws with no effect. -/
theorem sendToPeer_datagram {T : DatagramTransport} (wired : MixedWired t s.link)
    (declared : p ∈ t.peers) (kind : p.localAddress.kind = T.kind) :
    (¬ Refused t sendto p.id ∧
        ∃ s' kept, s.sendToPeer (sendto p.id) p.id payload = ⟨s', .ok ()⟩ ∧
          MixedSendSpec t payload [p.id] kept [] s s') ∨
      (Refused t sendto p.id ∧ ∃ s' e, s.sendToPeer (sendto p.id) p.id payload = ⟨s', .error e⟩ ∧
        MixedSendSpec t payload [] [] [] s s') := by
  obtain ⟨link, slot⟩ := wired.datagramPresent declared kind
  obtain ⟨-, topo⟩ := wired.datagram slot
  have known : (peerById link.topo p.id).isSome := by
    rw [topo]
    exact peerById_isSome.mpr ⟨p, declared, rfl⟩
  have call : s.sendToPeer (sendto p.id) p.id payload =
      s.onLink (datagramSlot T) () fun l => DatagramState.sendToPeer l (sendto p.id) p.id payload := by
    cases T with
    | uds =>
        have address : p.localAddress.kind = .udsPath := kind
        simp only [MixedState.sendToPeer, wired.transport p declared, address]
    | udp =>
        have address : p.localAddress.kind = .udpEndpoint := kind
        simp only [MixedState.sendToPeer, wired.transport p declared, address]
  rcases sendToPeer_eq (s := ⟨link, s.frame, s.world⟩) sendto known payload with
    ⟨taken, sent⟩ | ⟨refused, e, thrown⟩
  · left
    rw [topo] at taken
    obtain ⟨rewired, forwarded, dropped⟩ := datagram_replaced wired slot
      (DatagramState.sent ⟨link, s.frame, s.world⟩ p.id payload).link rfl rfl
    have counted : (DatagramState.sent ⟨link, s.frame, s.world⟩ p.id payload).link.metrics.forwarded =
        link.metrics.forwarded + 1 := rfl
    refine ⟨fun refused => ?_, _, [p.id], call.trans (onLink_eq _ slot sent), ?_⟩
    · cases taken.symm.trans refused.2
    refine ⟨rewired, List.Sublist.refl _, rfl, rfl, rfl, by simp [DatagramState.sent], rfl, ?_, ?_⟩
    · simp only [List.length_singleton]
      omega
    · simp only [dropped]
  · right
    obtain ⟨rewired, forwarded, dropped⟩ := datagram_replaced wired slot link rfl rfl
    have overSocket : OverSocket t p.id := by
      refine ⟨p, declared, rfl, ?_⟩
      rw [kind]
      cases T <;> decide
    rw [topo] at refused
    refine ⟨⟨overSocket, refused⟩, _, e, call.trans (onLink_eq _ slot thrown), ?_⟩
    refine ⟨rewired, List.Sublist.refl _, rfl, rfl, rfl, by simp, by simp, ?_, ?_⟩
    · simpa using forwarded
    · simp only [dropped]

/-- What sending to one declared peer and reporting it does. -/
theorem sendAndReport_spec (sendto : UInt8 → Bool) (source : UInt8) (payload : Bytes)
    (wellFormed : t.WellFormed) (wired : MixedWired t s.link) (declared : p ∈ t.peers) :
    (¬ Refused t sendto p.id ∧
        ∃ s' kept, MixedState.sendAndReport sendto source payload s p.id = ⟨s', .ok ()⟩ ∧
          MixedSendSpec t payload [p.id] kept [(source, p.id)] s s') ∨
      (Refused t sendto p.id ∧
        ∃ s' e, MixedState.sendAndReport sendto source payload s p.id = ⟨s', .error e⟩ ∧
          MixedSendSpec t payload [] [] [] s s') := by
  have one : (¬ Refused t sendto p.id ∧
        ∃ mid kept, s.sendToPeer (sendto p.id) p.id payload = ⟨mid, .ok ()⟩ ∧
          MixedSendSpec t payload [p.id] kept [] s mid) ∨
      (Refused t sendto p.id ∧ ∃ mid e, s.sendToPeer (sendto p.id) p.id payload = ⟨mid, .error e⟩ ∧
        MixedSendSpec t payload [] [] [] s mid) := by
    cases kind : p.localAddress.kind with
    | shmRing => exact .inl (sendToPeer_shm wellFormed wired declared kind)
    | udsPath => exact sendToPeer_datagram (T := .uds) wired declared kind
    | udpEndpoint => exact sendToPeer_datagram (T := .udp) wired declared kind
  rcases one with ⟨taken, mid, kept, sent, spec⟩ | ⟨refused, mid, e, thrown, spec⟩
  · left
    refine ⟨taken, mid.onForward source p.id, kept,
      by simp only [MixedState.sendAndReport, sent], ?_⟩
    refine ⟨spec.wired, spec.kept_sub, spec.sockets, spec.frame, spec.arrivals, ?_, spec.handed,
      spec.forwarded, spec.dropped⟩
    simp [MixedState.onForward, spec.reported]
  · right
    exact ⟨refused, mid, e, by simp only [MixedState.sendAndReport, thrown], spec⟩

/-- A fan-out attempts the destinations before the first refused one, and throws there. -/
theorem fanOut_spec {dests : List UInt8} (sendto : UInt8 → Bool) (source : UInt8)
    (payload : Bytes) (wellFormed : t.WellFormed) (wired : MixedWired t s.link)
    (declared : ∀ d ∈ dests, ∃ p ∈ t.peers, p.id = d) :
    ∃ s' kept result,
      forEach (MixedState.sendAndReport sendto source payload) dests s = ⟨s', result⟩ ∧
        MixedSendSpec t payload (attempted t sendto dests) kept
          ((attempted t sendto dests).map fun d => (source, d)) s s' ∧
        (result = .ok () ↔ ∀ d ∈ dests, ¬ Refused t sendto d) := by
  induction dests generalizing s with
  | nil => exact ⟨s, [], .ok (), rfl, .nil wired, by simp⟩
  | cons d rest ih =>
      obtain ⟨p, peer, rfl⟩ := declared d (List.mem_cons_self ..)
      rcases sendAndReport_spec sendto source payload wellFormed wired peer with
        ⟨taken, mid, kept, sent, first⟩ | ⟨refused, mid, e, thrown, same⟩
      · have others : ∀ d ∈ rest, ∃ q ∈ t.peers, q.id = d :=
          fun d mem => declared d (List.mem_cons_of_mem p.id mem)
        obtain ⟨s', kept', result, looped, later, all⟩ := ih first.wired others
        have further : attempted t sendto (p.id :: rest) = [p.id] ++ attempted t sendto rest := by
          simp [attempted, taken]
        refine ⟨s', kept ++ kept', result, by simp only [forEach, sent, looped], ?_, ?_⟩
        · rw [further, List.map_append]
          exact first.append later
        · simp [all, taken]
      · have none : attempted t sendto (p.id :: rest) = [] := by simp [attempted, refused]
        refine ⟨mid, [], .error e, by simp only [forEach, thrown], ?_, by simp [refused]⟩
        rw [none]
        exact same

/-! ### Receive -/

/-- A whole frame of somebody. -/
def Arrival.IsFrame (a : Arrival) : Prop :=
  a.message.length = kRouterFrameSize ∧ a.source ≠ kEndpointInvalid

instance (a : Arrival) : Decidable a.IsFrame := inferInstanceAs (Decidable (_ ∧ _))

theorem RulesFor.route_of_no_frame {topo : RouterTopology} (known : RulesFor topo rules)
    {a : Arrival} (no : ¬ a.IsFrame) : a.route rules = [] := by
  by_cases whole : a.message.length = kRouterFrameSize
  · have nobody : a.source = kEndpointInvalid := by
      by_contra valid
      exact no ⟨whole, valid⟩
    rw [Arrival.route_of_whole whole, nobody, known.routed_invalid]
  · exact if_neg whole

/-- How a receive ends that has taken `fresh`: with nothing to route, an exception that has
a `cause`, or a frame. -/
inductive Received (cause : Prop) (fresh : List Arrival)
    (r : Outcome MixedState UInt8) : Prop
  | silent (result : r.result = .ok kEndpointInvalid) (none : ∀ a ∈ fresh, ¬ a.IsFrame)
  | thrown (e : RuntimeError) (result : r.result = .error e) (none : ∀ a ∈ fresh, ¬ a.IsFrame)
      (why : cause)
  | frame (shorts : List Arrival) (a : Arrival) (fresh_eq : fresh = shorts ++ [a])
      (none : ∀ b ∈ shorts, ¬ b.IsFrame) (whole : a.IsFrame) (result : r.result = .ok a.source)
      (bytes : r.state.frame.bytes = a.frame)

/-- What a receive on one of the links leaves behind. -/
structure MixedReceiveSpec (t : LoadedTopology) (cause : Prop)
    (fresh : List Arrival) (s : MixedState) (r : Outcome MixedState UInt8) : Prop where
  wired : MixedWired t r.state.link
  arrivals : r.state.world.arrivals = s.world.arrivals ++ fresh
  handed : r.state.world.handed = s.world.handed
  reported : r.state.world.reported = s.world.reported
  forwarded : r.state.link.forwarded = s.link.forwarded
  dropped : r.state.link.droppedFull = s.link.droppedFull
  result : Received cause fresh r

/-- A link that is not there receives nothing. -/
theorem receive_absent {Link : Type} {slot : LinkSlot Link} {cause : Prop}
    {receive : LinkState Link → Outcome (LinkState Link) UInt8} (wired : MixedWired t s.link)
    (absent : slot.get s.link = none) :
    MixedReceiveSpec t cause [] s (s.onLink slot kEndpointInvalid receive) := by
  have nothing : s.onLink slot kEndpointInvalid receive = ⟨s, .ok kEndpointInvalid⟩ := by
    simp only [MixedState.onLink, absent]
  rw [nothing]
  exact ⟨wired, by simp, rfl, rfl, rfl, rfl, .silent rfl (by simp)⟩

/-- Without a ring there are no channels to scan. -/
theorem shmPorts_of_absent (wired : MixedWired t s.link) (absent : shmSlot.get s.link = none) :
    shmPorts t.peers = [] := by
  rw [List.eq_nil_iff_forall_not_mem]
  intro port inside
  obtain ⟨p, declared, name, address, -⟩ := mem_shmPorts.mp inside
  have present := wired.shmPresent p declared (by rw [address]; rfl)
  obtain ⟨link, found⟩ := Option.isSome_iff_exists.mp present
  cases absent.symm.trans found

/-- A scan of the SHM channels. -/
theorem receive_shm (ts : UInt64) (wellFormed : t.WellFormed) (wired : MixedWired t s.link) :
    MixedReceiveSpec t (¬ SmallRequests (shmPorts t.peers) s.world.mem)
      (scanTakes ts (shmPorts t.peers) s.world.mem) s
      (s.onLink shmSlot kEndpointInvalid fun l => ShmState.tryReceive l ts) := by
  cases slot : shmSlot.get s.link with
  | none =>
      rw [shmPorts_of_absent wired slot]
      exact receive_absent wired slot
  | some link =>
      have present : s.link.shm = some link := slot
      obtain ⟨-, ports⟩ := wired.shm link present
      have inside : ∀ c ∈ link.peerChannels, (c.peerId, c.endpoint) ∈ shmPorts t.peers := by
        intro c mem
        rw [← ports]
        exact List.mem_map_of_mem mem
      have roles : ∀ c ∈ link.peerChannels, c.endpoint.isServerRole = true :=
        fun c mem => shmPorts_server t.peers _ (inside c mem)
      have smallPops : PopPreserves (fun w => SmallRequests (shmPorts t.peers) s.world.mem →
          SmallRequests (shmPorts t.peers) w.mem) ts link.peerChannels :=
        fun c mem w msg mem' small taken before =>
          SmallRequests.pop roles c mem w msg mem' (small before) taken
      obtain ⟨shorts, spec⟩ :=
        scanChannels_spec (s := ⟨link, s.frame, s.world⟩) smallPops id
      have takes := scanChannels_takes ts (s := ⟨link, s.frame, s.world⟩) roles
      have cause : ∀ e, (scanChannels ts link.peerChannels ⟨link, s.frame, s.world⟩).result =
          .error e → ¬ SmallRequests (shmPorts t.peers) s.world.mem := by
        intro e thrown before
        obtain ⟨c, mem, oversized⟩ := scanChannels_error roles thrown
        exact (spec.inv before).not_oversized (inside c mem) oversized
      cases scanned : scanChannels ts link.peerChannels ⟨link, s.frame, s.world⟩ with
      | mk after result =>
          rw [scanned] at spec cause takes
          have taken : ∀ fresh, after.world.arrivals = s.world.arrivals ++ fresh →
              fresh = scanTakes ts (shmPorts t.peers) s.world.mem := by
            intro fresh arrivals
            rw [← ports]
            exact List.append_cancel_left (arrivals.symm.trans takes)
          have wiring : SameWiring link after.link := spec.wiring
          have forwardedSame : after.link.metrics.forwarded = link.metrics.forwarded := by
            rw [spec.link]
            rfl
          have droppedSame : after.link.metrics.droppedFull = link.metrics.droppedFull := by
            rw [spec.link]
            rfl
          obtain ⟨rewired, forwarded, dropped⟩ := shm_replaced wired slot wiring
          rw [onLink_eq (fun l => ShmState.tryReceive l ts) slot scanned]
          have short : ∀ a ∈ shorts, ¬ a.IsFrame := fun a mem frame =>
            Nat.ne_of_lt (spec.discarded a mem).1 frame.1
          have sumForwarded : (shmSlot.set after.link s.link).forwarded = s.link.forwarded := by omega
          have sumDropped : (shmSlot.set after.link s.link).droppedFull = s.link.droppedFull := by omega
          cases spec.result with
          | empty result arrivals =>
              rw [← taken shorts arrivals]
              exact ⟨rewired, arrivals, spec.handed, spec.reported, sumForwarded, sumDropped,
                .silent result short⟩
          | thrown e result arrivals =>
              rw [← taken shorts arrivals]
              exact ⟨rewired, arrivals, spec.handed, spec.reported, sumForwarded, sumDropped,
                .thrown e result short (cause e result)⟩
          | frame channel listed msg result arrivals whole stamp =>
              have valid : channel.peerId ≠ kEndpointInvalid := fun invalid =>
                shmPorts_valid wellFormed (List.mem_map.mpr ⟨_, inside channel listed, invalid⟩)
              rw [← taken _ arrivals]
              exact ⟨rewired, arrivals, spec.handed, spec.reported, sumForwarded, sumDropped,
                .frame shorts ⟨channel.peerId, msg, ts⟩ rfl short ⟨whole, valid⟩ result stamp⟩

/-- What a `recvfrom` adds to the arrivals. -/
def taken {T : DatagramTransport} (topo : RouterTopology) (ts : UInt64) : Recvfrom T → List Arrival
  | .none | .failed => []
  | .datagram sender bytes => [arrivalOf topo ts sender bytes]

/-- A non-blocking `recvfrom` on a datagram link that is there. -/
theorem receive_datagram {T : DatagramTransport} {ts : UInt64} {link : DatagramRouterLink T}
    (wired : MixedWired t s.link) (slot : (datagramSlot T).get s.link = some link)
    (recv : Recvfrom T) :
    MixedReceiveSpec t (recv = .failed) (taken t.view ts recv) s
      (s.onLink (datagramSlot T) kEndpointInvalid fun l => DatagramState.tryReceive l ts recv) := by
  obtain ⟨-, topo⟩ := wired.datagram slot
  cases recv with
  | none =>
      rw [onLink_eq (fun l => DatagramState.tryReceive l ts .none) slot rfl]
      obtain ⟨rewired, forwarded, dropped⟩ := datagram_replaced wired slot link rfl rfl
      exact ⟨rewired, by simp [taken], rfl, rfl, by simpa using forwarded, dropped,
        .silent rfl (by simp [taken])⟩
  | failed =>
      rw [onLink_eq (fun l => DatagramState.tryReceive l ts .failed) slot rfl]
      obtain ⟨rewired, forwarded, dropped⟩ := datagram_replaced wired slot link rfl rfl
      exact ⟨rewired, by simp [taken], rfl, rfl, by simpa using forwarded, dropped,
        .thrown (recvfromFailed T) rfl (by simp [taken]) rfl⟩
  | datagram sender bytes =>
      have spec := resolve_spec (⟨link, s.frame, s.world⟩ : DatagramState T) ts sender bytes
      simp only [topo] at spec
      revert spec
      simp only [taken]
      generalize arrivalOf t.view ts sender bytes = a
      intro spec
      cases resolved : DatagramState.resolve ⟨link, s.frame, s.world⟩ ts sender bytes with
      | mk after source =>
          rw [resolved] at spec
          have called : (fun l => DatagramState.tryReceive l ts (.datagram sender bytes))
              (⟨link, s.frame, s.world⟩ : DatagramState T) = ⟨after, .ok source⟩ := by
            simp only [DatagramState.tryReceive, resolved]
          rw [onLink_eq _ slot called]
          obtain ⟨rewired, forwarded, dropped⟩ := datagram_replaced wired slot after.link
            spec.topo spec.server
          have same : after.link.metrics.forwarded = link.metrics.forwarded := spec.forwarded
          have world : after.world = { s.world with arrivals := s.world.arrivals ++ [a] } :=
            spec.world
          refine ⟨rewired, by simp [world], by simp [world], by simp [world], ?_, dropped, ?_⟩
          · simp only
            omega
          · have named : source = if a.message.length < kRouterFrameSize then kEndpointInvalid
                else a.source := spec.source
            by_cases invalid : source = kEndpointInvalid
            · refine .silent (by simp only [invalid]) ?_
              rintro b mem ⟨whole, valid⟩
              obtain rfl := List.mem_singleton.mp mem
              rw [if_neg (by omega)] at named
              exact valid (named.symm.trans invalid)
            · have whole : ¬ a.message.length < kRouterFrameSize := by
                intro short
                rw [if_pos short] at named
                exact invalid named
              rw [if_neg whole] at named
              refine .frame [] a rfl (by simp)
                ⟨Nat.le_antisymm spec.fits (Nat.not_lt.mp whole), named ▸ invalid⟩
                (by simp only [named]) (spec.frame invalid)

/-! ### Poll -/

/-- One poll: the messages it took, and the kernel's answers to its sends. -/
structure Poll where
  sendto : UInt8 → Bool
  taken : List Arrival

/-- The copies for the targets a poll attempted. -/
def Poll.copies (t : LoadedTopology) (poll : Poll) : List (UInt8 × Bytes) :=
  FanOut.copies (fun a => attempted t poll.sendto (a.route t.routes)) Arrival.frame poll.taken

/-- The reports of these attempts. -/
def Poll.reports (t : LoadedTopology) (poll : Poll) : List (UInt8 × UInt8) :=
  poll.taken.flatMap fun a =>
    (attempted t poll.sendto (a.route t.routes)).map fun d => (a.source, d)

/-- It took a frame. -/
def Poll.Works (poll : Poll) : Prop := ∃ a ∈ poll.taken, a.IsFrame

instance (poll : Poll) : Decidable poll.Works :=
  inferInstanceAs (Decidable (∃ a ∈ poll.taken, a.IsFrame))

/-- The kernel took every copy it was given. -/
def Poll.Unrefused (t : LoadedTopology) (poll : Poll) : Prop :=
  ∀ a ∈ poll.taken, ∀ d ∈ a.route t.routes, ¬ Refused t poll.sendto d

instance (t : LoadedTopology) (poll : Poll) : Decidable (poll.Unrefused t) :=
  inferInstanceAs (Decidable (∀ a ∈ poll.taken, ∀ d ∈ a.route t.routes, ¬ Refused t poll.sendto d))

/-- The log entries that are datagrams. -/
def datagrams (t : LoadedTopology) (log : List (UInt8 × Bytes)) : List (UInt8 × Bytes) :=
  log.filter fun entry => OverSocket t entry.1

theorem datagrams_append {before after : List (UInt8 × Bytes)} :
    datagrams t (before ++ after) = datagrams t before ++ datagrams t after :=
  List.filter_append ..

theorem datagrams_map {kept dests : List UInt8}
    (sockets : kept.filter (OverSocket t ·) = dests.filter (OverSocket t ·)) :
    datagrams t (kept.map fun d => (d, payload)) = datagrams t (dests.map fun d => (d, payload)) := by
  simp only [datagrams, List.filter_map, Function.comp_def, sockets]

/-- The copies `due` have been made: all datagrams among them were handed over, and each copy
for a ring is in the ring or counted as dropped. -/
structure Placed (t : LoadedTopology) (due placed : List (UInt8 × Bytes)) (s s' : MixedState) :
    Prop where
  sub : placed.Sublist due
  sockets : datagrams t placed = datagrams t due
  handed : s'.world.handed = s.world.handed ++ placed
  forwarded : s'.link.forwarded = s.link.forwarded + placed.length
  dropped : s'.link.droppedFull + placed.length = s.link.droppedFull + due.length

/-- What some polls have done: they took their messages, and attempted and reported the
targets of every frame before the first refused one. -/
structure Polled (t : LoadedTopology) (polls : List Poll) (s s' : MixedState) : Prop where
  wired : MixedWired t s'.link
  arrivals : s'.world.arrivals = s.world.arrivals ++ polls.flatMap Poll.taken
  reported : s'.world.reported = s.world.reported ++ polls.flatMap (Poll.reports t)
  copies : ∃ placed, Placed t (polls.flatMap (Poll.copies t)) placed s s'

theorem Polled.nil (wired : MixedWired t s.link) : Polled t [] s s :=
  ⟨wired, by simp, by simp, [], List.Sublist.refl _, rfl, by simp, rfl, rfl⟩

theorem Polled.append {polls polls' : List Poll} (first : Polled t polls s s')
    (later : Polled t polls' s' s'') : Polled t (polls ++ polls') s s'' := by
  obtain ⟨placed, one⟩ := first.copies
  obtain ⟨placed', two⟩ := later.copies
  refine ⟨later.wired, ?_, ?_, placed ++ placed', ?_, ?_, ?_, ?_, ?_⟩
  · rw [later.arrivals, first.arrivals, List.flatMap_append, List.append_assoc]
  · rw [later.reported, first.reported, List.flatMap_append, List.append_assoc]
  · rw [List.flatMap_append]
    exact one.sub.append two.sub
  · rw [List.flatMap_append, datagrams_append, datagrams_append, one.sockets, two.sockets]
  · rw [two.handed, one.handed, List.append_assoc]
  · rw [two.forwarded, one.forwarded, List.length_append, Nat.add_assoc]
  · have before := one.dropped
    have after := two.dropped
    rw [List.flatMap_append, List.length_append, List.length_append]
    omega

/-- Work of the clients on the shared memory changes nothing a poll starts from. -/
theorem Polled.of_clientsRan {polls : List Poll} {clients : ShmMemory → ShmMemory}
    (polled : Polled t polls (s.clientsRan clients) s') : Polled t polls s s' := by
  obtain ⟨wired, arrivals, reported, placed, sub, sockets, handed, forwarded, dropped⟩ := polled
  exact ⟨wired, arrivals, reported, placed, sub, sockets, handed, forwarded, dropped⟩

/-- Without refusals every target of every frame was attempted. -/
theorem copies_unrefused {polls : List Poll} (none : ∀ poll ∈ polls, poll.Unrefused t) :
    polls.flatMap (Poll.copies t) = deliveries t.routes (polls.flatMap Poll.taken) ∧
      polls.flatMap (Poll.reports t) = reports t.routes (polls.flatMap Poll.taken) := by
  induction polls with
  | nil => exact ⟨rfl, rfl⟩
  | cons poll rest ih =>
      obtain ⟨copies, reported⟩ := ih fun other mem => none other (List.mem_cons_of_mem poll mem)
      have whole : ∀ a ∈ poll.taken,
          attempted t poll.sendto (a.route t.routes) = a.route t.routes := fun a mem =>
        attempted_all (none poll List.mem_cons_self a mem)
      simp only [List.flatMap_cons, deliveries_append, reports_append, copies, reported]
      constructor
      · congr 1
        exact List.flatMap_congr fun a mem => congrArg (List.map _) (whole a mem)
      · congr 1
        exact List.flatMap_congr fun a mem => congrArg (List.map _) (whole a mem)

/-- How a poll ends that does what `poll` says: it returns whether it took a frame, or throws
for a `cause` of its receive or because the kernel refused a copy. -/
structure PollSpec (t : LoadedTopology) (cause : Prop) (poll : Poll)
    (s : MixedState) (r : Outcome MixedState Bool) : Prop where
  polled : Polled t [poll] s r.state
  result : (r.result = .ok (decide poll.Works) ∧ poll.Unrefused t) ∨
    ∃ e, r.result = .error e ∧ (cause ∨ ¬ poll.Unrefused t)

/-- A receive without a frame is the whole poll. -/
theorem MixedReceiveSpec.polled {fresh : List Arrival} {cause : Prop}
    {r : Outcome MixedState UInt8} (wellFormed : t.WellFormed) (sendto : UInt8 → Bool)
    (received : MixedReceiveSpec t cause fresh s r) (none : ∀ a ∈ fresh, ¬ a.IsFrame) :
    Polled t [⟨sendto, fresh⟩] s r.state := by
  have silent : ∀ a ∈ fresh, attempted t sendto (a.route t.routes) = [] := by
    intro a mem
    rw [(rulesFor wellFormed).route_of_no_frame (none a mem)]
    rfl
  have due : Poll.copies t ⟨sendto, fresh⟩ = [] := copies_eq_nil silent
  have unreported : Poll.reports t ⟨sendto, fresh⟩ = [] := by
    rw [Poll.reports, List.flatMap_eq_nil_iff]
    intro a mem
    rw [silent a mem, List.map_nil]
  refine ⟨received.wired, by simp [received.arrivals], by simp [received.reported, unreported],
    [], ?_, ?_, by simp [received.handed], by simp [received.forwarded], ?_⟩
  · simp [due]
  · simp [due]
  · simp [received.dropped, due]

/-- The frame a receive took last has been fanned out. -/
theorem MixedReceiveSpec.fannedOut {shorts : List Arrival} {a : Arrival} {kept : List UInt8}
    {cause : Prop} {r : Outcome MixedState UInt8} (wellFormed : t.WellFormed)
    (received : MixedReceiveSpec t cause (shorts ++ [a]) s r) (none : ∀ b ∈ shorts, ¬ b.IsFrame)
    (sends : MixedSendSpec t a.frame (attempted t sendto (a.route t.routes)) kept
      ((attempted t sendto (a.route t.routes)).map fun d => (a.source, d)) r.state s') :
    Polled t [⟨sendto, shorts ++ [a]⟩] s s' := by
  have silent : ∀ b ∈ shorts, attempted t sendto (b.route t.routes) = [] := by
    intro b mem
    rw [(rulesFor wellFormed).route_of_no_frame (none b mem)]
    rfl
  have due : Poll.copies t ⟨sendto, shorts ++ [a]⟩ =
      (attempted t sendto (a.route t.routes)).map fun d => (d, a.frame) := by
    simp only [Poll.copies, copies_append, copies_eq_nil silent, copies_singleton, List.nil_append]
  have pairs : Poll.reports t ⟨sendto, shorts ++ [a]⟩ =
      (attempted t sendto (a.route t.routes)).map fun d => (a.source, d) := by
    have early : shorts.flatMap (fun b =>
        (attempted t sendto (b.route t.routes)).map fun d => (b.source, d)) = [] := by
      rw [List.flatMap_eq_nil_iff]
      intro b mem
      rw [silent b mem, List.map_nil]
    simp only [Poll.reports, List.flatMap_append, early, List.flatMap_cons, List.flatMap_nil,
      List.append_nil, List.nil_append]
  refine ⟨sends.wired, ?_, ?_, kept.map fun d => (d, a.frame), ?_, ?_, ?_, ?_, ?_⟩
  · simp [sends.arrivals, received.arrivals]
  · simp [sends.reported, received.reported, pairs]
  · simpa [due] using sends.kept_sub.map _
  · simpa [due] using datagrams_map sends.sockets
  · rw [sends.handed, received.handed]
  · rw [sends.forwarded, received.forwarded, List.length_map]
  · simpa [due, received.dropped] using sends.dropped

theorem pollLink_spec {Link : Type} {slot : LinkSlot Link} {cause : Prop}
    {fresh : List Arrival} {receive : LinkState Link → Outcome (LinkState Link) UInt8}
    (wellFormed : t.WellFormed)
    (received : MixedReceiveSpec t cause fresh s (s.onLink slot kEndpointInvalid receive)) :
    PollSpec t cause ⟨sendto, fresh⟩ s (s.pollLink slot t.routes sendto receive) := by
  have known := rulesFor wellFormed
  unfold MixedState.pollLink
  cases taking : s.onLink slot kEndpointInvalid receive with
  | mk mid result =>
      rw [taking] at received
      cases received.result with
      | silent ended none =>
          obtain rfl : result = .ok kEndpointInvalid := ended
          have idle : ¬ Poll.Works ⟨sendto, fresh⟩ := fun ⟨a, mem, frame⟩ => none a mem frame
          simp only [if_true]
          refine ⟨received.polled wellFormed sendto none, .inl ⟨by simp [idle], ?_⟩⟩
          intro a mem d listed
          rw [known.route_of_no_frame (none a mem)] at listed
          cases listed
      | thrown e ended none why =>
          obtain rfl : result = .error e := ended
          exact ⟨received.polled wellFormed sendto none, .inr ⟨e, rfl, .inl why⟩⟩
      | frame shorts a fresh_eq none frame ended bytes =>
          obtain rfl : result = .ok a.source := ended
          subst fresh_eq
          obtain ⟨whole, valid⟩ := frame
          have stampedFrame : mid.frame.bytes = a.frame := bytes
          have topic : mid.frame.topicId = frameTopic a.message := by
            rw [RouterFrame.topicId, stampedFrame, Arrival.frame, frameTopic_stamped whole]
          have route : (routeTargetsFor t.routes a.source mid.frame.topicId).list =
              a.route t.routes := by
            rw [routeTargetsFor_list, topic, Arrival.route_of_whole whole]
          have declared : ∀ d ∈ a.route t.routes, ∃ p ∈ t.peers, p.id = d := by
            intro d mem
            exact peerById_isSome.mp (known.route_declared a d mem)
          have wired : MixedWired t mid.link := received.wired
          simp only [valid, if_false, route, stampedFrame]
          obtain ⟨after, kept, result, sent, sends, all⟩ :=
            fanOut_spec sendto a.source a.frame wellFormed wired declared
          have polled := received.fannedOut wellFormed none sends
          have works : Poll.Works ⟨sendto, shorts ++ [a]⟩ := ⟨a, by simp, whole, valid⟩
          rw [sent]
          cases result with
          | ok u =>
              refine ⟨polled, .inl ⟨by simp [works], fun b mem d listed => ?_⟩⟩
              rcases List.mem_append.mp mem with short | last
              · rw [known.route_of_no_frame (none b short)] at listed
                cases listed
              · obtain rfl := List.mem_singleton.mp last
                exact all.mp rfl d listed
          | error e =>
              refine ⟨polled, .inr ⟨e, rfl, .inr fun taken => ?_⟩⟩
              cases all.mpr fun d listed => taken a (by simp) d listed

/-- A poll after the clients have worked on the shared memory. -/
theorem PollSpec.of_clientsRan {cause : Prop} {poll : Poll}
    {clients : ShmMemory → ShmMemory} {r : Outcome MixedState Bool}
    (spec : PollSpec t cause poll (s.clientsRan clients) r) : PollSpec t cause poll s r :=
  ⟨spec.polled.of_clientsRan, spec.result⟩

variable (now : UInt64) (around : Surroundings)

theorem pollShm_spec (wellFormed : t.WellFormed) (wired : MixedWired t s.link) :
    PollSpec t (¬ SmallRequests (shmPorts t.peers) (around.clients s.world.mem))
      ⟨around.sendto, scanTakes now (shmPorts t.peers) (around.clients s.world.mem)⟩ s
      (s.pollShm t.routes now around) :=
  (pollLink_spec wellFormed
    (receive_shm (s := s.clientsRan around.clients) now wellFormed wired)).of_clientsRan

/-- What a poll of a datagram link takes: nothing without the link. -/
def takenBy {T : DatagramTransport} (t : LoadedTopology) (now : UInt64) (recv : Recvfrom T) :
    List Arrival :=
  if hasKind t.view T.kind then taken t.view now recv else []

theorem pollDatagram_spec {T : DatagramTransport} (wellFormed : t.WellFormed)
    (wired : MixedWired t s.link) (recv : Recvfrom T) :
    PollSpec t (recv = .failed) ⟨around.sendto, takenBy t now recv⟩ s
      (s.pollDatagram t.routes now around recv) := by
  have ready : MixedWired t (s.clientsRan around.clients).link := wired
  refine (pollLink_spec wellFormed ?_).of_clientsRan
  cases slot : (datagramSlot T).get s.link with
  | none =>
      have unneeded : hasKind t.view T.kind = false := by
        by_contra needed
        obtain ⟨p, declared, kind⟩ := hasKind_iff.mp (eq_true_of_ne_false needed)
        obtain ⟨link, found⟩ := wired.datagramPresent declared kind
        cases slot.symm.trans found
      rw [takenBy, unneeded, if_neg (by simp)]
      exact receive_absent ready slot
  | some link =>
      rw [takenBy, if_pos (wired.datagramNeeded slot)]
      exact receive_datagram ready slot recv

end RoboticsIpc
