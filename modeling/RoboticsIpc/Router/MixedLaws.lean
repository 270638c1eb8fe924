import RoboticsIpc.Router.DatagramLinkLaws
import RoboticsIpc.Router.MixedRouterServer
import RoboticsIpc.Router.ShmSystem

/-!
How a mixed router is wired when it has been bound, and that no call rewires it.

`MixedWired` says which links there are and what they know: the topology they
resolve and send with, the channels of the SHM link, and the transport every
declared peer is sent to on.
-/

namespace RoboticsIpc

open ByteBuffer Checked FanOut ShmSpsc

theorem hasKind_iff {topo : RouterTopology} {kind : PeerAddressKind} :
    hasKind topo kind = true ↔ ∃ p ∈ topo.peers, p.localAddress.kind = kind := by
  simp [hasKind]

/-! ### The transport table -/

theorem transportTable_known {peers : List PeerEntry} {table : UInt8 → Option PeerAddressKind}
    {d : UInt8} {kind : PeerAddressKind} (found : transportTable peers table d = some kind) :
    table d = some kind ∨ ∃ p ∈ peers, p.id = d ∧ p.localAddress.kind = kind := by
  induction peers generalizing table with
  | nil => exact .inl found
  | cons p rest ih =>
      rcases ih found with before | ⟨q, mem, id, same⟩
      · by_cases here : d = p.id
        · subst here
          rw [Function.update_self] at before
          exact .inr ⟨p, List.mem_cons_self .., rfl, Option.some.inj before⟩
        · rw [Function.update_of_ne here] at before
          exact .inl before
      · exact .inr ⟨q, List.mem_cons_of_mem p mem, id, same⟩

theorem transportTable_isSome {peers : List PeerEntry} {table : UInt8 → Option PeerAddressKind}
    {d : UInt8} (filled : (table d).isSome ∨ ∃ p ∈ peers, p.id = d) :
    (transportTable peers table d).isSome := by
  induction peers generalizing table with
  | nil =>
      rcases filled with before | ⟨p, mem, -⟩
      · exact before
      · cases mem
  | cons p rest ih =>
      refine ih ?_
      by_cases here : d = p.id
      · left
        rw [here, Function.update_self]
        rfl
      · rcases filled with before | ⟨q, mem, id⟩
        · left
          rw [Function.update_of_ne here]
          exact before
        · rcases List.mem_cons.mp mem with rfl | later
          · exact absurd id.symm here
          · exact .inr ⟨q, later, id⟩

/-! ### Wiring -/

/-- A bound mixed router of profile `t`. -/
structure MixedWired (t : LoadedTopology) (m : MixedRouterServer) : Prop where
  transport : ∀ p ∈ t.peers, m.peerTransport p.id = some p.localAddress.kind
  known : ∀ d kind, m.peerTransport d = some kind → ∃ p ∈ t.peers, p.id = d ∧
    p.localAddress.kind = kind
  shm : ∀ link, m.shm = some link → link.isServer = true ∧ link.ports = shmPorts t.peers
  uds : ∀ link, m.uds = some link → link.isServer = true ∧ link.topo = t.view
  udp : ∀ link, m.udp = some link → link.isServer = true ∧ link.topo = t.view
  shmPresent : ∀ p ∈ t.peers, p.localAddress.kind = .shmRing → m.shm.isSome
  udsPresent : ∀ p ∈ t.peers, p.localAddress.kind = .udsPath → m.uds.isSome
  udpPresent : ∀ p ∈ t.peers, p.localAddress.kind = .udpEndpoint → m.udp.isSome
  udsNeeded : m.uds.isSome → hasKind t.view .udsPath = true
  udpNeeded : m.udp.isSome → hasKind t.view .udpEndpoint = true

/-- Where a bound mixed router's datagram links listen. -/
structure MixedListens (t : LoadedTopology) (m : MixedRouterServer) : Prop where
  uds : ∀ link, m.uds = some link → ∃ path, t.listenUds = some path ∧ link.bound = some path
  udp : ∀ link, m.udp = some link →
    ∃ endpoint, t.listenUdp = some endpoint ∧ link.bound = some endpoint.port

variable {t : LoadedTopology} {mem : ShmMemory}

theorem mem_shmPorts_of_kind {peers : List PeerEntry} {p : PeerEntry} (declared : p ∈ peers)
    (kind : p.localAddress.kind = .shmRing) : ∃ name, p.localAddress = .shm name ∧
      (p.id, ⟨name, ringParams p, true⟩) ∈ shmPorts peers := by
  cases address : p.localAddress with
  | uds path => simp [address, PeerAddress.kind] at kind
  | udp endpoint => simp [address, PeerAddress.kind] at kind
  | shm name => exact ⟨name, rfl, mem_shmPorts.mpr ⟨p, declared, name, address, rfl⟩⟩

/-- Binding takes a server link, and counts nothing. -/
theorem ShmRouterLink.bindRouter_server {link link' : ShmRouterLink} {mem' : ShmMemory}
    (bound : link.bindRouter mem = .ok (link', mem')) :
    link'.isServer = true ∧ link'.metrics = link.metrics := by
  simp only [ShmRouterLink.bindRouter] at bound
  split at bound
  · cases bound
  · rename_i server
    split at bound <;> cases bound
    exact ⟨by simpa using server, rfl⟩

/-- With an SHM peer there is a channel, and binding succeeds. -/
theorem bindRouter_shm {topo : RouterTopology} (some : hasKind topo .shmRing = true)
    (mem : ShmMemory) : ∃ link mem', (ShmRouterLink.server topo).bindRouter mem = .ok (link, mem') ∧
      link.isServer = true ∧ link.ports = shmPorts topo.peers := by
  obtain ⟨p, declared, kind⟩ := hasKind_iff.mp some
  obtain ⟨name, -, inside⟩ := mem_shmPorts_of_kind declared kind
  have channels := bindChannels_ports topo.peers mem
  have nonempty : (bindChannels topo.peers mem).2 ≠ [] := by
    rw [channels]
    exact List.ne_nil_of_mem (List.mem_map_of_mem inside)
  refine ⟨{ ShmRouterLink.server topo with peerChannels := (bindChannels topo.peers mem).2 },
    (bindChannels topo.peers mem).1, ?_, rfl, ?_⟩
  · simp [ShmRouterLink.bindRouter, ShmRouterLink.server, nonempty]
  · simp only [ShmRouterLink.ports, channels, List.map_map]
    exact List.map_id'' (fun _ => rfl) _

/-- Binding the SHM part succeeds, and there is a link when a peer needs one. -/
theorem mixed_bindShm (t : LoadedTopology) (mem : ShmMemory) :
    ∃ link mem', (MixedRouterServer.server t.view).bindShm mem = .ok (link, mem') ∧
      (∀ l, link = some l → l.isServer = true ∧ l.ports = shmPorts t.peers) ∧
      (hasKind t.view .shmRing = true → link.isSome) := by
  by_cases present : hasKind t.view .shmRing = true
  · obtain ⟨link, mem', bound, server, ports⟩ := bindRouter_shm present mem
    refine ⟨some link, mem', ?_, ?_, fun _ => rfl⟩
    · simp only [MixedRouterServer.bindShm, MixedRouterServer.server, present, if_true, bound]
      rfl
    · rintro l ⟨⟩
      exact ⟨server, ports⟩
  · refine ⟨none, mem, ?_, by simp, fun yes => absurd yes present⟩
    simp only [MixedRouterServer.bindShm, MixedRouterServer.server, present, Bool.false_eq_true,
      if_false]

/-- The UDS part is bound to the declared path. -/
theorem mixed_bindUds (wellFormed : t.WellFormed) :
    ∃ link, (MixedRouterServer.server t.view).bindUds = .ok link ∧
      (∀ l, link = some l → (l.isServer = true ∧ l.topo = t.view) ∧
        ∃ path, t.listenUds = some path ∧ l.bound = some path) ∧
      (hasKind t.view .udsPath = true ↔ link.isSome) := by
  by_cases present : hasKind t.view .udsPath = true
  · obtain ⟨p, declared, kind⟩ := hasKind_iff.mp present
    obtain ⟨path, listen⟩ := Option.ne_none_iff_exists'.mp (wellFormed.udsListen p declared kind)
    refine ⟨some { DatagramRouterLink.server .uds t.view with bound := some path }, ?_, ?_,
      ⟨fun _ => rfl, fun _ => present⟩⟩
    · have listen' : t.view.listenUds = some path := listen
      simp only [MixedRouterServer.bindUds, MixedRouterServer.server, present, if_true, listen']
      rfl
    · rintro l ⟨⟩
      exact ⟨⟨rfl, rfl⟩, path, listen, rfl⟩
  · refine ⟨none, ?_, by simp, by simp [present]⟩
    simp only [MixedRouterServer.bindUds, MixedRouterServer.server, present, Bool.false_eq_true,
      if_false]

/-- The UDP part is bound to the declared port. -/
theorem mixed_bindUdp (wellFormed : t.WellFormed) :
    ∃ link, (MixedRouterServer.server t.view).bindUdp = .ok link ∧
      (∀ l, link = some l → (l.isServer = true ∧ l.topo = t.view) ∧
        ∃ endpoint, t.listenUdp = some endpoint ∧ l.bound = some endpoint.port) ∧
      (hasKind t.view .udpEndpoint = true ↔ link.isSome) := by
  by_cases present : hasKind t.view .udpEndpoint = true
  · obtain ⟨p, declared, kind⟩ := hasKind_iff.mp present
    obtain ⟨endpoint, listen⟩ :=
      Option.ne_none_iff_exists'.mp (wellFormed.udpListen p declared kind)
    refine ⟨some { DatagramRouterLink.server .udp t.view with bound := some endpoint.port }, ?_, ?_,
      ⟨fun _ => rfl, fun _ => present⟩⟩
    · have listen' : t.view.listenUdp = some endpoint := listen
      simp only [MixedRouterServer.bindUdp, MixedRouterServer.server, present, if_true, listen']
      rfl
    · rintro l ⟨⟩
      exact ⟨⟨rfl, rfl⟩, endpoint, listen, rfl⟩
  · refine ⟨none, ?_, by simp, by simp [present]⟩
    simp only [MixedRouterServer.bindUdp, MixedRouterServer.server, present, Bool.false_eq_true,
      if_false]

/-- Every well-formed profile's mixed router binds. -/
theorem mixed_bindRouter (wellFormed : t.WellFormed) (mem : ShmMemory) :
    ∃ m mem', (MixedRouterServer.server t.view).bindRouter mem = .ok (m, mem') ∧
      MixedWired t m ∧ MixedListens t m := by
  obtain ⟨shmLink, mem', shmBound, shmOk, shmPresent⟩ := mixed_bindShm t mem
  obtain ⟨udsLink, udsBound, udsOk, udsPresent⟩ := mixed_bindUds wellFormed
  obtain ⟨udpLink, udpBound, udpOk, udpPresent⟩ := mixed_bindUdp wellFormed
  refine ⟨{ MixedRouterServer.server t.view with shm := shmLink, uds := udsLink, udp := udpLink },
    mem', ?_, ?_, ?_⟩
  · simp only [MixedRouterServer.bindRouter, shmBound, udsBound, udpBound]
    rfl
  · have known : ∀ d kind, (MixedRouterServer.server t.view).peerTransport d = some kind →
        ∃ p ∈ t.peers, p.id = d ∧ p.localAddress.kind = kind := by
      intro d kind found
      exact (transportTable_known found).resolve_left (by simp)
    refine ⟨?_, known, shmOk, fun l found => (udsOk l found).1, fun l found => (udpOk l found).1,
      ?_, ?_, ?_, udsPresent.mpr, udpPresent.mpr⟩
    · intro p declared
      have filled : ((MixedRouterServer.server t.view).peerTransport p.id).isSome :=
        transportTable_isSome (.inr ⟨p, declared, rfl⟩)
      obtain ⟨kind, found⟩ := Option.isSome_iff_exists.mp filled
      obtain ⟨q, peer, id, same⟩ := known p.id kind found
      obtain rfl : q = p := List.inj_on_of_nodup_map wellFormed.ids peer declared id
      rw [same]
      exact found
    · exact fun p declared kind => shmPresent (hasKind_iff.mpr ⟨p, declared, kind⟩)
    · exact fun p declared kind => udsPresent.mp (hasKind_iff.mpr ⟨p, declared, kind⟩)
    · exact fun p declared kind => udpPresent.mp (hasKind_iff.mpr ⟨p, declared, kind⟩)
  · exact ⟨fun l found => (udsOk l found).2, fun l found => (udpOk l found).2⟩

/-- A router that has just been bound has counted nothing. -/
theorem mixed_bindRouter_counters {topo : RouterTopology} {m : MixedRouterServer}
    {mem' : ShmMemory} (bound : (MixedRouterServer.server topo).bindRouter mem = .ok (m, mem')) :
    m.forwarded = 0 ∧ m.droppedFull = 0 := by
  simp only [MixedRouterServer.bindRouter] at bound
  obtain ⟨⟨shm, after⟩, shmBound, bound⟩ := bind_eq_ok.mp bound
  obtain ⟨uds, udsBound, bound⟩ := bind_eq_ok.mp bound
  obtain ⟨udp, udpBound, bound⟩ := bind_eq_ok.mp bound
  cases bound
  have shmFresh : shm.elim 0 (·.metrics.forwarded) = 0 ∧ shm.elim 0 (·.metrics.droppedFull) = 0 := by
    simp only [MixedRouterServer.bindShm, MixedRouterServer.server] at shmBound
    by_cases present : hasKind topo .shmRing = true
    · simp only [present, if_true] at shmBound
      obtain ⟨⟨link, after'⟩, linked, shmBound⟩ := bind_eq_ok.mp shmBound
      cases shmBound
      have fresh : link.metrics = {} := (ShmRouterLink.bindRouter_server linked).2
      simp [fresh]
    · simp only [present, Bool.false_eq_true, if_false] at shmBound
      cases shmBound
      exact ⟨rfl, rfl⟩
  have udsFresh : uds.elim 0 (·.metrics.forwarded) = 0 := by
    simp only [MixedRouterServer.bindUds, MixedRouterServer.server] at udsBound
    by_cases present : hasKind topo .udsPath = true
    · simp only [present, if_true] at udsBound
      cases listen : topo.listenUds with
      | none =>
          simp only [listen] at udsBound
          cases udsBound
      | some path =>
          simp only [listen] at udsBound
          cases udsBound
          rfl
    · simp only [present, Bool.false_eq_true, if_false] at udsBound
      cases udsBound
      rfl
  have udpFresh : udp.elim 0 (·.metrics.forwarded) = 0 := by
    simp only [MixedRouterServer.bindUdp, MixedRouterServer.server] at udpBound
    by_cases present : hasKind topo .udpEndpoint = true
    · simp only [present, if_true] at udpBound
      cases listen : topo.listenUdp with
      | none =>
          simp only [listen] at udpBound
          cases udpBound
      | some endpoint =>
          simp only [listen] at udpBound
          cases udpBound
          rfl
    · simp only [present, Bool.false_eq_true, if_false] at udpBound
      cases udpBound
      rfl
  simp only [MixedRouterServer.forwarded, MixedRouterServer.droppedFull, shmFresh, udsFresh, udpFresh,
    and_self]

/-! ### Replacing a link -/

section Replaced

variable {m : MixedRouterServer}

/-- A call on the SHM link puts back a link of the same wiring. -/
theorem shm_replaced {link link' : ShmRouterLink} (wired : MixedWired t m)
    (found : shmSlot.get m = some link) (same : SameWiring link link') :
    MixedWired t (shmSlot.set link' m) ∧
      (shmSlot.set link' m).forwarded + link.metrics.forwarded =
        m.forwarded + link'.metrics.forwarded ∧
      (shmSlot.set link' m).droppedFull + link.metrics.droppedFull =
        m.droppedFull + link'.metrics.droppedFull := by
  have present : m.shm = some link := found
  obtain ⟨transport, known, shm, uds, udp, -, udsPresent, udpPresent, udsNeeded, udpNeeded⟩ := wired
  obtain ⟨server, ports⟩ := shm link present
  refine ⟨⟨transport, known, ?_, uds, udp, fun _ _ _ => rfl, udsPresent, udpPresent, udsNeeded,
    udpNeeded⟩, ?_, ?_⟩
  · rintro l ⟨⟩
    exact ⟨same.server.trans server, same.ports.trans ports⟩
  · simp only [MixedRouterServer.forwarded, shmSlot, present, Option.elim]
    omega
  · simp only [MixedRouterServer.droppedFull, shmSlot, present, Option.elim]
    omega

/-- A call on a datagram link puts back a link that knows the same topology. -/
theorem datagram_replaced {T : DatagramTransport} {link : DatagramRouterLink T}
    (wired : MixedWired t m) (found : (datagramSlot T).get m = some link)
    (link' : DatagramRouterLink T)
    (topo : link'.topo = link.topo) (server : link'.isServer = link.isServer) :
    MixedWired t ((datagramSlot T).set link' m) ∧
      ((datagramSlot T).set link' m).forwarded + link.metrics.forwarded =
        m.forwarded + link'.metrics.forwarded ∧
      ((datagramSlot T).set link' m).droppedFull = m.droppedFull := by
  obtain ⟨transport, known, shm, uds, udp, shmPresent, udsPresent, udpPresent, udsNeeded,
    udpNeeded⟩ := wired
  cases T with
  | uds =>
      have present : m.uds = some link := found
      obtain ⟨wasServer, wasTopo⟩ := uds link present
      refine ⟨⟨transport, known, shm, ?_, udp, shmPresent, fun _ _ _ => rfl, udpPresent,
        fun _ => udsNeeded (by rw [present]; rfl), udpNeeded⟩, ?_, rfl⟩
      · rintro l ⟨⟩
        exact ⟨server.trans wasServer, topo.trans wasTopo⟩
      · simp only [MixedRouterServer.forwarded, datagramSlot, present, Option.elim]
        omega
  | udp =>
      have present : m.udp = some link := found
      obtain ⟨wasServer, wasTopo⟩ := udp link present
      refine ⟨⟨transport, known, shm, uds, ?_, shmPresent, udsPresent, fun _ _ _ => rfl, udsNeeded,
        fun _ => udpNeeded (by rw [present]; rfl)⟩, ?_, rfl⟩
      · rintro l ⟨⟩
        exact ⟨server.trans wasServer, topo.trans wasTopo⟩
      · simp only [MixedRouterServer.forwarded, datagramSlot, present, Option.elim]
        omega

theorem MixedWired.datagram {T : DatagramTransport} {link : DatagramRouterLink T}
    (wired : MixedWired t m) (found : (datagramSlot T).get m = some link) :
    link.isServer = true ∧ link.topo = t.view := by
  cases T with
  | uds => exact wired.uds link found
  | udp => exact wired.udp link found

/-- With a peer of its kind a datagram link is there. -/
theorem MixedWired.datagramPresent {T : DatagramTransport} {p : PeerEntry}
    (wired : MixedWired t m) (declared : p ∈ t.peers) (kind : p.localAddress.kind = T.kind) :
    ∃ link, (datagramSlot T).get m = some link := by
  cases T with
  | uds => exact Option.isSome_iff_exists.mp (wired.udsPresent p declared kind)
  | udp => exact Option.isSome_iff_exists.mp (wired.udpPresent p declared kind)

/-- Without a peer of its kind there is none. -/
theorem MixedWired.datagramNeeded {T : DatagramTransport} {link : DatagramRouterLink T}
    (wired : MixedWired t m) (found : (datagramSlot T).get m = some link) :
    hasKind t.view T.kind = true := by
  cases T with
  | uds => exact wired.udsNeeded (Option.isSome_iff_exists.mpr ⟨link, found⟩)
  | udp => exact wired.udpNeeded (Option.isSome_iff_exists.mpr ⟨link, found⟩)

end Replaced

end RoboticsIpc
