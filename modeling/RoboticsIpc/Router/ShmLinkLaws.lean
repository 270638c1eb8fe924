import RoboticsIpc.Ipc.ShmRegion
import RoboticsIpc.Router.ShmRouterLink

/-!
What the calls of the SHM link can do, each said once.

A scan takes some short messages and then nothing, one whole frame, or an
exception (`scanChannels_spec`). A send places the frame in the ring, finds the
ring full or sheds the frame (`sendToPeer_cases`). `forward_spec` puts the two
together. A caller's invariant `J` of the world is carried through: it has to
survive one pop and one push.
-/

namespace RoboticsIpc

open ByteBuffer FanOut ShmSpsc

/-- The part of a link that no call changes. -/
structure SameWiring (l l' : ShmRouterLink) : Prop where
  ports : l'.peerChannels.map (fun c => (c.peerId, c.endpoint)) =
    l.peerChannels.map (fun c => (c.peerId, c.endpoint))
  floor : l'.priorityDropFloor = l.priorityDropFloor
  server : l'.isServer = l.isServer
  topo : l'.topo = l.topo

theorem SameWiring.refl (l : ShmRouterLink) : SameWiring l l := ⟨rfl, rfl, rfl, rfl⟩

theorem SameWiring.trans {l l' l'' : ShmRouterLink} (first : SameWiring l l')
    (second : SameWiring l' l'') : SameWiring l l'' :=
  ⟨second.ports.trans first.ports, second.floor.trans first.floor,
    second.server.trans first.server, second.topo.trans first.topo⟩

/-- A peer id and the region its channel uses. -/
abbrev Port := UInt8 × ShmRegion

def ShmRouterLink.ports (link : ShmRouterLink) : List Port :=
  link.peerChannels.map fun c => (c.peerId, c.endpoint)

/-! ### Receive -/

theorem length_of_tryRecv {h : ShmRegion} {mem mem' : ShmMemory} {capacity : Nat} {msg : Bytes}
    (received : tryRecv h mem capacity = .ok (some (msg, mem'))) : msg.length ≤ capacity := by
  have popped : ∀ {p : RingParams} {ring ring' : ShmRing},
      shmTryPopSlot p ring capacity = .ok (some (msg, ring')) → msg.length ≤ capacity := by
    intro p ring ring' pop
    simp only [shmTryPopSlot] at pop
    split at pop
    · cases pop
    · split at pop
      · cases pop
      · rename_i fits
        cases pop
        exact Nat.le_trans (List.length_take_le ..) (Nat.not_lt.mp fits)
  simp only [tryRecv] at received
  split at received <;> split at received <;> cases received <;> exact popped ‹_›

/-- The messages a scan discards: shorter than a frame, off the scanned rings. -/
def Discarded (ts : UInt64) (channels : List PeerChannel) (shorts : List Arrival) : Prop :=
  ∀ a ∈ shorts, a.message.length < kRouterFrameSize ∧ a.timestamp = ts ∧
    ∃ c ∈ channels, c.peerId = a.source

/-- Short messages are nobody's frame. -/
theorem Discarded.route_nil {rules : List RouteRule} {ts : UInt64} {channels : List PeerChannel}
    {shorts : List Arrival} (discarded : Discarded ts channels shorts) :
    ∀ a ∈ shorts, a.route rules = [] :=
  fun a mem => Arrival.route_of_short (discarded a mem).1

/-- What a scan leaves behind. -/
inductive ScanResult (ts : UInt64) (channels : List PeerChannel) (before : World)
    (shorts : List Arrival) (r : Outcome ShmState UInt8) : Prop
  | empty (result : r.result = .ok kEndpointInvalid)
      (arrivals : r.state.world.arrivals = before.arrivals ++ shorts)
  | thrown (e : RuntimeError) (result : r.result = .error e)
      (arrivals : r.state.world.arrivals = before.arrivals ++ shorts)
  | frame (channel : PeerChannel) (mem : channel ∈ channels) (msg : Bytes)
      (result : r.result = .ok channel.peerId)
      (arrivals : r.state.world.arrivals =
        before.arrivals ++ (shorts ++ [⟨channel.peerId, msg, ts⟩]))
      (whole : msg.length = kRouterFrameSize)
      (stamp : r.state.frame.bytes = stamped channel.peerId ts msg)

def ShmRouterLink.withTruncated (link : ShmRouterLink) (n : Nat) : ShmRouterLink :=
  { link with metrics := { link.metrics with recvTruncated := link.metrics.recvTruncated + n } }

structure ScanSpec (J : World → Prop) (ts : UInt64) (channels : List PeerChannel) (s : ShmState)
    (r : Outcome ShmState UInt8) (shorts : List Arrival) : Prop where
  discarded : Discarded ts channels shorts
  link : r.state.link = s.link.withTruncated shorts.length
  handed : r.state.world.handed = s.world.handed
  reported : r.state.world.reported = s.world.reported
  inv : J r.state.world
  result : ScanResult ts channels s.world shorts r

theorem ScanSpec.wiring {J : World → Prop} {ts : UInt64} {channels : List PeerChannel}
    {s : ShmState} {r : Outcome ShmState UInt8} {shorts : List Arrival}
    (spec : ScanSpec J ts channels s r shorts) : SameWiring s.link r.state.link := by
  rw [spec.link]
  exact ⟨rfl, rfl, rfl, rfl⟩

/-- A popped message becomes an arrival; `J` survives that. -/
def PopPreserves (J : World → Prop) (ts : UInt64) (channels : List PeerChannel) : Prop :=
  ∀ c ∈ channels, ∀ w msg mem, J w →
    tryRecv c.endpoint w.mem kRouterFrameSize = .ok (some (msg, mem)) →
    J { w with mem := mem, arrivals := w.arrivals ++ [⟨c.peerId, msg, ts⟩] }

theorem popPreserves_true (ts : UInt64) (channels : List PeerChannel) :
    PopPreserves (fun _ => True) ts channels :=
  fun _ _ _ _ _ _ _ => trivial

theorem PopPreserves.and {J J' : World → Prop} {ts : UInt64} {channels : List PeerChannel}
    (first : PopPreserves J ts channels) (second : PopPreserves J' ts channels) :
    PopPreserves (fun w => J w ∧ J' w) ts channels :=
  fun c inside w msg mem inv received =>
    ⟨first c inside w msg mem inv.1 received, second c inside w msg mem inv.2 received⟩

/-- The channels of a scan may be taken for granted one after another. -/
theorem ScanResult.weaken {ts : UInt64} {c : PeerChannel} {channels : List PeerChannel}
    {before : World} {shorts : List Arrival} {r : Outcome ShmState UInt8}
    (result : ScanResult ts channels before shorts r) :
    ScanResult ts (c :: channels) before shorts r := by
  cases result with
  | empty result arrivals => exact .empty result arrivals
  | thrown e result arrivals => exact .thrown e result arrivals
  | frame channel mem msg result arrivals whole stamp =>
      exact .frame channel (List.mem_cons_of_mem c mem) msg result arrivals whole stamp

theorem Discarded.weaken {ts : UInt64} {c : PeerChannel} {channels : List PeerChannel}
    {shorts : List Arrival} (discarded : Discarded ts channels shorts) :
    Discarded ts (c :: channels) shorts := by
  intro a mem
  obtain ⟨short, time, channel, inside, source⟩ := discarded a mem
  exact ⟨short, time, channel, List.mem_cons_of_mem c inside, source⟩

theorem scanChannels_spec {J : World → Prop} {ts : UInt64} {channels : List PeerChannel}
    {s : ShmState} (preserved : PopPreserves J ts channels) (start : J s.world) :
    ∃ shorts, ScanSpec J ts channels s (scanChannels ts channels s) shorts := by
  induction channels generalizing s with
  | nil =>
      exact ⟨[], by intro a mem; simp at mem, rfl, rfl, rfl, start, .empty rfl (by simp [scanChannels])⟩
  | cons c rest ih =>
      have later : PopPreserves J ts rest := fun c' mem => preserved c' (List.mem_cons_of_mem c mem)
      unfold scanChannels
      cases pop : tryRecv c.endpoint s.world.mem kRouterFrameSize with
      | error e =>
          exact ⟨[], by intro a mem; simp at mem, rfl, rfl, rfl, start, .thrown e rfl (by simp)⟩
      | ok found =>
          cases found with
          | none =>
              obtain ⟨shorts, spec⟩ := ih later start
              exact ⟨shorts, spec.discarded.weaken, spec.link, spec.handed, spec.reported, spec.inv,
                spec.result.weaken⟩
          | some taken =>
              obtain ⟨msg, mem⟩ := taken
              have bound := length_of_tryRecv pop
              have kept := preserved c (List.mem_cons_self ..) _ _ _ start pop
              by_cases short : msg.length < kRouterFrameSize
              · -- A short message is counted and the scan goes on.
                simp only [short, if_true]
                obtain ⟨shorts, spec⟩ :=
                  ih (s := (s.took ts c msg mem).countTruncated) later kept
                refine ⟨⟨c.peerId, msg, ts⟩ :: shorts, ?_, ?_, spec.handed, spec.reported, spec.inv,
                  ?_⟩
                · intro a mem
                  rcases List.mem_cons.mp mem with rfl | tail
                  · exact ⟨short, rfl, c, List.mem_cons_self .., rfl⟩
                  · exact spec.discarded.weaken a tail
                · rw [spec.link]
                  simp only [ShmState.countTruncated, ShmState.took, ShmRouterLink.withTruncated,
                    List.length_cons]
                  congr 2
                  omega
                · cases spec.result with
                  | empty result arrivals =>
                      exact .empty result
                        (by simpa [ShmState.countTruncated, ShmState.took] using arrivals)
                  | thrown e result arrivals =>
                      exact .thrown e result
                        (by simpa [ShmState.countTruncated, ShmState.took] using arrivals)
                  | frame channel inside m result arrivals whole stamp =>
                      exact .frame channel (List.mem_cons_of_mem c inside) m result
                        (by simpa [ShmState.countTruncated, ShmState.took] using arrivals) whole stamp
              · have whole : msg.length = kRouterFrameSize := by omega
                simp only [short, if_false]
                refine ⟨[], by intro a mem; simp at mem, rfl, rfl, rfl, kept, ?_⟩
                refine .frame c (List.mem_cons_self ..) msg rfl (by simp [ShmState.took]) whole ?_
                rw [RouterFrame.stamp_bytes]
                simp only [ShmState.took]
                rw [RouterFrame.receive_whole whole]

/-- A receive scans the link's channels. -/
theorem tryReceive_spec (s : ShmState) (ts : UInt64) :
    ∃ shorts, ScanSpec (fun _ => True) ts s.link.peerChannels s (s.tryReceive ts) shorts :=
  scanChannels_spec (popPreserves_true ts s.link.peerChannels) trivial

/-- The oldest unread request of a port is longer than a frame. -/
def Oversized (mem : ShmMemory) (port : Port) : Prop :=
  (mem port.2.name).req.tail < (mem port.2.name).req.head ∧
    kRouterFrameSize < copySize port.2.params
      ((mem port.2.name).req.slots ((mem port.2.name).req.tail % port.2.params.slotCount))

/-- The server's `try_recv` throws on such a request only. -/
theorem oversized_of_error {port : Port} {mem : ShmMemory} {e : RuntimeError}
    (server : port.2.isServerRole = true)
    (thrown : tryRecv port.2 mem kRouterFrameSize = .error e) : Oversized mem port := by
  rw [ShmRegion.eq_server server] at thrown
  simp only [tryRecv, if_true, shmTryPopSlot] at thrown
  by_cases nothing : (mem port.2.name).req.tail ≥ (mem port.2.name).req.head
  · rw [if_pos nothing] at thrown
    cases thrown
  · rw [if_neg nothing] at thrown
    by_cases long : copySize port.2.params ((mem port.2.name).req.slots
        ((mem port.2.name).req.tail % port.2.params.slotCount)) > kRouterFrameSize
    · exact ⟨Nat.not_le.mp nothing, long⟩
    · rw [if_neg long] at thrown
      cases thrown

/-- A scan that throws has come to an oversized request, and leaves it where it is. -/
theorem scanChannels_error {ts : UInt64} {channels : List PeerChannel} {s : ShmState}
    {e : RuntimeError} (server : ∀ c ∈ channels, c.endpoint.isServerRole = true)
    (thrown : (scanChannels ts channels s).result = .error e) :
    ∃ c ∈ channels, Oversized (scanChannels ts channels s).state.world.mem (c.peerId, c.endpoint) := by
  induction channels generalizing s with
  | nil => cases thrown
  | cons c rest ih =>
      have later := fun {s : ShmState} => ih (s := s) fun c' mem =>
        server c' (List.mem_cons_of_mem c mem)
      unfold scanChannels at thrown ⊢
      cases pop : tryRecv c.endpoint s.world.mem kRouterFrameSize with
      | error e' =>
          exact ⟨c, List.mem_cons_self,
            oversized_of_error (server c List.mem_cons_self) pop⟩
      | ok found =>
          simp only [pop] at thrown
          cases found with
          | none =>
              obtain ⟨c', mem, oversized⟩ := later thrown
              exact ⟨c', List.mem_cons_of_mem c mem, oversized⟩
          | some taken =>
              obtain ⟨msg, mem'⟩ := taken
              by_cases short : msg.length < kRouterFrameSize
              · simp only [short, if_true] at thrown ⊢
                obtain ⟨c', mem, oversized⟩ := later thrown
                exact ⟨c', List.mem_cons_of_mem c mem, oversized⟩
              · simp only [short, if_false] at thrown
                cases thrown

/-- No slot of a request ring holds a message longer than a frame. -/
def SmallRequests (ports : List Port) (mem : ShmMemory) : Prop :=
  ∀ port ∈ ports, ∀ index, ((mem port.2.name).req.slots index).len ≤ kRouterFrameSize

theorem SmallRequests.not_oversized {ports : List Port} {mem : ShmMemory}
    (small : SmallRequests ports mem) {port : Port} (inside : port ∈ ports) :
    ¬ Oversized mem port := by
  rintro ⟨-, long⟩
  exact absurd (Nat.le_trans (Nat.min_le_left _ _) (small port inside _)) (Nat.not_le.mpr long)

theorem SmallRequests.pop {ports : List Port} {ts : UInt64} {channels : List PeerChannel}
    (server : ∀ c ∈ channels, c.endpoint.isServerRole = true) :
    PopPreserves (fun w => SmallRequests ports w.mem) ts channels := by
  intro c mem w msg mem' small received port inside index
  rw [ShmRegion.eq_server (server c mem)] at received
  rw [server_recv_slots received]
  exact small port inside index

/-! ### Send -/

theorem setCongested_ports (dest : UInt8) (congested : Bool) (channels : List PeerChannel) :
    (setCongested dest congested channels).map (fun c => (c.peerId, c.endpoint)) =
      channels.map fun c => (c.peerId, c.endpoint) := by
  induction channels with
  | nil => rfl
  | cons c rest ih =>
      unfold setCongested
      split
      · rfl
      · rw [List.map_cons, ih, List.map_cons]

theorem mem_ports_of_channelTo {link : ShmRouterLink} {dest : UInt8} {c : PeerChannel}
    (found : link.channelTo dest = some c) : (dest, c.endpoint) ∈ link.ports := by
  have mem := List.mem_of_find?_eq_some found
  have same : c.peerId = dest := by simpa using List.find?_some found
  exact List.mem_map.mpr ⟨c, mem, by rw [same]⟩

theorem channelTo_of_mem_ports {link : ShmRouterLink} {dest : UInt8}
    (mem : dest ∈ link.ports.map Prod.fst) : ∃ c, link.channelTo dest = some c := by
  simp only [ShmRouterLink.ports, List.map_map, List.mem_map, Function.comp] at mem
  obtain ⟨c, inside, same⟩ := mem
  cases found : link.channelTo dest with
  | some c' => exact ⟨c', rfl⟩
  | none => exact absurd same (by simpa using List.find?_eq_none.mp found c inside)

/-- The three things a send to a peer with a channel can do. -/
theorem sendToPeer_cases {s : ShmState} {dest : UInt8} {c : PeerChannel} (payload : Bytes)
    (found : s.link.channelTo dest = some c) :
    (Sheds s.link.priorityDropFloor c payload ∧
        s.sendToPeer dest payload = ⟨s.shed dest payload, .ok ()⟩) ∨
      (¬ Sheds s.link.priorityDropFloor c payload ∧
        ∃ mem, trySend c.endpoint s.world.mem payload = (mem, true) ∧
          s.sendToPeer dest payload = ⟨s.admitted dest payload mem, .ok ()⟩) ∨
      (¬ Sheds s.link.priorityDropFloor c payload ∧
        ∃ mem, trySend c.endpoint s.world.mem payload = (mem, false) ∧
          s.sendToPeer dest payload = ⟨s.foundFull dest payload mem, .ok ()⟩) := by
  unfold ShmState.sendToPeer
  simp only [found]
  by_cases sheds : Sheds s.link.priorityDropFloor c payload
  · exact .inl ⟨sheds, by simp [sheds]⟩
  · obtain ⟨mem, sent⟩ : ∃ mem, trySend c.endpoint s.world.mem payload =
        (mem, (trySend c.endpoint s.world.mem payload).2) := ⟨_, rfl⟩
    cases ok : (trySend c.endpoint s.world.mem payload).2 with
    | true =>
        rw [ok] at sent
        exact .inr (.inl ⟨sheds, mem, sent, by simp [sheds, sent]⟩)
    | false =>
        rw [ok] at sent
        exact .inr (.inr ⟨sheds, mem, sent, by simp [sheds, sent]⟩)

/-- A push of `payload` into a port, successful or not; `J` survives both. -/
def PushPreserves (J : World → Prop) (ports : List Port) (payload : Bytes) : Prop :=
  ∀ port ∈ ports, ∀ w mem, J w →
    (trySend port.2 w.mem payload = (mem, true) →
      J { w with mem := mem, handed := w.handed ++ [(port.1, payload)] }) ∧
    (trySend port.2 w.mem payload = (mem, false) → J { w with mem := mem })

theorem pushPreserves_true (ports : List Port) (payload : Bytes) :
    PushPreserves (fun _ => True) ports payload :=
  fun _ _ _ _ _ => ⟨fun _ => trivial, fun _ => trivial⟩

theorem PushPreserves.and {J J' : World → Prop} {ports : List Port} {payload : Bytes}
    (first : PushPreserves J ports payload) (second : PushPreserves J' ports payload) :
    PushPreserves (fun w => J w ∧ J' w) ports payload := by
  intro port inside w mem inv
  exact ⟨fun sent => ⟨(first port inside w mem inv.1).1 sent, (second port inside w mem inv.2).1 sent⟩,
    fun sent => ⟨(first port inside w mem inv.1).2 sent, (second port inside w mem inv.2).2 sent⟩⟩

/-- What sending `payload` to `dests` leaves behind: `kept` got it, the others'
copies were dropped. -/
structure SendSpec (J : World → Prop) (payload : Bytes) (dests kept : List UInt8)
    (s s' : ShmState) : Prop where
  kept_sub : kept.Sublist dests
  wiring : SameWiring s.link s'.link
  frame : s'.frame = s.frame
  arrivals : s'.world.arrivals = s.world.arrivals
  reported : s'.world.reported = s.world.reported
  handed : s'.world.handed = s.world.handed ++ kept.map fun d => (d, payload)
  forwarded : s'.link.metrics.forwarded = s.link.metrics.forwarded + kept.length
  dropped : s'.link.metrics.droppedFull + kept.length =
    s.link.metrics.droppedFull + dests.length
  perPeer : ∀ d, s'.link.metrics.droppedFullPerPeer d + kept.count d =
    s.link.metrics.droppedFullPerPeer d + dests.count d
  truncated : s'.link.metrics.recvTruncated = s.link.metrics.recvTruncated
  inv : J s'.world

/-- A drop is counted under the destination's id. -/
theorem recordDrop_perPeer (m : ShmRouterMetrics) (dest prio d : UInt8) :
    (m.recordDrop dest prio).droppedFullPerPeer d = m.droppedFullPerPeer d + [dest].count d := by
  simp only [ShmRouterMetrics.recordDrop, List.count_singleton]
  by_cases here : d = dest
  · subst here
    simp
  · simp [Function.update_of_ne here, Ne.symm here]

theorem sendToPeer_spec {J : World → Prop} {s : ShmState} {dest : UInt8} {payload : Bytes}
    (declared : dest ∈ s.link.ports.map Prod.fst)
    (preserved : PushPreserves J s.link.ports payload) (start : J s.world) :
    ∃ s' kept, s.sendToPeer dest payload = ⟨s', .ok ()⟩ ∧
      SendSpec J payload [dest] kept s s' := by
  obtain ⟨c, found⟩ := channelTo_of_mem_ports declared
  have push := preserved _ (mem_ports_of_channelTo found)
  have counted := recordDrop_perPeer s.link.metrics dest (priorityFromFrame payload)
  rcases sendToPeer_cases payload found with ⟨-, eq⟩ | ⟨-, mem, sent, eq⟩ | ⟨-, mem, sent, eq⟩
  · exact ⟨_, [], eq, by simp, ⟨rfl, rfl, rfl, rfl⟩, rfl, rfl, rfl, by simp [ShmState.shed],
      rfl, by simp [ShmState.shed, ShmRouterMetrics.recordDrop], counted, rfl, start⟩
  · exact ⟨_, [dest], eq, by simp, ⟨setCongested_ports .., rfl, rfl, rfl⟩, rfl, rfl, rfl, rfl, rfl,
      rfl, fun _ => rfl, rfl, (push _ mem start).1 sent⟩
  · exact ⟨_, [], eq, by simp, ⟨setCongested_ports .., rfl, rfl, rfl⟩, rfl, rfl, rfl,
      by simp [ShmState.foundFull], rfl,
      by simp [ShmState.foundFull, ShmRouterMetrics.recordDrop], counted, rfl,
      (push _ mem start).2 sent⟩

/-- No send rewires the link, not even one that throws. -/
theorem sendToPeer_wiring (s : ShmState) (dest : UInt8) (payload : Bytes) :
    SameWiring s.link (s.sendToPeer dest payload).state.link := by
  cases found : s.link.channelTo dest with
  | none =>
      simp only [ShmState.sendToPeer, found]
      exact .refl s.link
  | some c =>
      rcases sendToPeer_cases payload found with ⟨-, eq⟩ | ⟨-, mem, -, eq⟩ | ⟨-, mem, -, eq⟩
      · rw [eq]
        exact ⟨rfl, rfl, rfl, rfl⟩
      · rw [eq]
        exact ⟨setCongested_ports .., rfl, rfl, rfl⟩
      · rw [eq]
        exact ⟨setCongested_ports .., rfl, rfl, rfl⟩

/-- Sending never touches the log of arrivals. -/
theorem sendToPeer_arrivals (s : ShmState) (dest : UInt8) (payload : Bytes) :
    (s.sendToPeer dest payload).state.world.arrivals = s.world.arrivals := by
  cases found : s.link.channelTo dest with
  | none => simp [ShmState.sendToPeer, found]
  | some c =>
      rcases sendToPeer_cases payload found with ⟨-, eq⟩ | ⟨-, mem, -, eq⟩ | ⟨-, mem, -, eq⟩ <;>
        rw [eq] <;> rfl

theorem sendAll_arrivals (dests : List UInt8) (payload : Bytes) (s : ShmState) :
    (forEach (fun s dest => s.sendToPeer dest payload) dests s).state.world.arrivals =
      s.world.arrivals := by
  refine forEach_rel (R := fun s s' => s'.world.arrivals = s.world.arrivals) (fun _ => rfl) ?_
    (fun s dest => sendToPeer_arrivals s dest payload) dests s
  intro s s' s'' first second
  exact second.trans first

/-- Sending one frame to a list of declared destinations never throws. -/
theorem sendAll_spec {J : World → Prop} {s : ShmState} {dests : List UInt8} {payload : Bytes}
    (declared : ∀ d ∈ dests, d ∈ s.link.ports.map Prod.fst)
    (preserved : PushPreserves J s.link.ports payload) (start : J s.world) :
    ∃ s' kept, forEach (fun s dest => s.sendToPeer dest payload) dests s = ⟨s', .ok ()⟩ ∧
      SendSpec J payload dests kept s s' := by
  induction dests generalizing s with
  | nil =>
      exact ⟨s, [], rfl, List.nil_sublist _, .refl _, rfl, rfl, rfl, by simp, rfl, rfl,
        fun _ => rfl, rfl, start⟩
  | cons d rest ih =>
      obtain ⟨mid, kept₁, sent, first⟩ := sendToPeer_spec (declared d (by simp)) preserved start
      have ports : mid.link.ports = s.link.ports := first.wiring.ports
      obtain ⟨s', kept₂, looped, later⟩ := ih (s := mid)
        (fun e mem => by rw [ports]; exact declared e (by simp [mem])) (by rwa [ports]) first.inv
      refine ⟨s', kept₁ ++ kept₂, ?_, ?_⟩
      · simp only [forEach, sent, looped]
      · refine ⟨?_, first.wiring.trans later.wiring, later.frame.trans first.frame,
          later.arrivals.trans first.arrivals, later.reported.trans first.reported, ?_, ?_, ?_, ?_,
          later.truncated.trans first.truncated, later.inv⟩
        · rw [← List.singleton_append]
          exact first.kept_sub.append later.kept_sub
        · rw [later.handed, first.handed, List.map_append, List.append_assoc]
        · rw [later.forwarded, first.forwarded, List.length_append]
          omega
        · have one := first.dropped
          have others := later.dropped
          simp only [List.length_append, List.length_cons, List.length_nil] at one ⊢
          omega
        · intro e
          have one := first.perPeer e
          have others := later.perPeer e
          rw [← List.singleton_append, List.count_append, List.count_append]
          omega

/-! ### Forward -/

/-- The ways a call of a server's `forward` can go. -/
inductive ForwardCases (ts : UInt64) (rules : List RouteRule) (s : ShmState) :
    Outcome ShmState ForwardResult → Prop
  | thrown {mid : ShmState} {e : RuntimeError} (received : s.tryReceive ts = ⟨mid, .error e⟩) :
      ForwardCases ts rules s ⟨mid, .error e⟩
  | nothing {mid : ShmState} (received : s.tryReceive ts = ⟨mid, .ok kEndpointInvalid⟩) :
      ForwardCases ts rules s ⟨mid.countEmpty, .ok {}⟩
  | sent {mid final : ShmState} {source : UInt8} (received : s.tryReceive ts = ⟨mid, .ok source⟩)
      (valid : source ≠ kEndpointInvalid)
      (sends : forEach (fun s dest => s.sendToPeer dest mid.frame.bytes)
        (routeTargetsFor rules source mid.frame.topicId).list mid = ⟨final, .ok ()⟩) :
      ForwardCases ts rules s
        ⟨final, .ok { source, targets := routeTargetsFor rules source mid.frame.topicId }⟩
  | failed {mid final : ShmState} {source : UInt8} {e : RuntimeError}
      (received : s.tryReceive ts = ⟨mid, .ok source⟩) (valid : source ≠ kEndpointInvalid)
      (sends : forEach (fun s dest => s.sendToPeer dest mid.frame.bytes)
        (routeTargetsFor rules source mid.frame.topicId).list mid = ⟨final, .error e⟩) :
      ForwardCases ts rules s ⟨final, .error e⟩

theorem forward_cases {s : ShmState} (ts : UInt64) (rules : List RouteRule)
    (server : s.link.isServer = true) : ForwardCases ts rules s (s.forward ts rules) := by
  unfold ShmState.forward
  rw [if_neg (by simp [server])]
  cases received : s.tryReceive ts with
  | mk mid result =>
      cases result with
      | error e => exact .thrown received
      | ok source =>
          by_cases invalid : source = kEndpointInvalid
          · subst invalid
            exact .nothing received
          · simp only [invalid, if_false]
            cases sends : forEach (fun s dest => s.sendToPeer dest mid.frame.bytes)
                (routeTargetsFor rules source mid.frame.topicId).list mid with
            | mk final outcome =>
                cases outcome with
                | error e => exact .failed received invalid sends
                | ok u => exact .sent received invalid sends

/-- What a forward takes is what its receive takes. -/
theorem forward_arrivals {ts : UInt64} {rules : List RouteRule} {s : ShmState}
    (server : s.link.isServer = true) :
    (s.forward ts rules).state.world.arrivals = (s.tryReceive ts).state.world.arrivals := by
  have cases := forward_cases ts rules server
  generalize s.forward ts rules = r at cases ⊢
  cases cases with
  | thrown received => rw [received]
  | nothing received =>
      rw [received]
      rfl
  | @sent mid _ source received _ sends =>
      have kept := sendAll_arrivals (routeTargetsFor rules source mid.frame.topicId).list
        mid.frame.bytes mid
      rw [sends] at kept
      rw [received]
      exact kept
  | @failed mid _ source _ received _ sends =>
      have kept := sendAll_arrivals (routeTargetsFor rules source mid.frame.topicId).list
        mid.frame.bytes mid
      rw [sends] at kept
      rw [received]
      exact kept

/-- What one `forward` leaves behind. `fresh` are the arrivals it took. -/
inductive ForwardSpec (J : World → Prop) (ts : UInt64) (rules : List RouteRule) (s : ShmState)
    (r : Outcome ShmState ForwardResult) (shorts : List Arrival) : Prop
  | idle (state : r.state.world.handed = s.world.handed)
      (arrivals : r.state.world.arrivals = s.world.arrivals ++ shorts)
      (forwarded : r.state.link.metrics.forwarded = s.link.metrics.forwarded)
      (dropped : r.state.link.metrics.droppedFull = s.link.metrics.droppedFull)
      (result : r.result = .ok {} ∨ ∃ e, r.result = .error e)
      (perPeer : r.state.link.metrics.droppedFullPerPeer = s.link.metrics.droppedFullPerPeer)
  | routed (source : UInt8) (msg : Bytes) (kept : List UInt8)
      (declared : source ∈ s.link.ports.map Prod.fst) (valid : source ≠ kEndpointInvalid)
      (whole : msg.length = kRouterFrameSize)
      (arrivals : r.state.world.arrivals = s.world.arrivals ++ (shorts ++ [⟨source, msg, ts⟩]))
      (kept_sub : kept.Sublist (routedTo rules source (frameTopic msg)))
      (handed : r.state.world.handed =
        s.world.handed ++ kept.map fun d => (d, stamped source ts msg))
      (forwarded : r.state.link.metrics.forwarded = s.link.metrics.forwarded + kept.length)
      (dropped : r.state.link.metrics.droppedFull + kept.length =
        s.link.metrics.droppedFull + (routedTo rules source (frameTopic msg)).length)
      (result : r.result =
        .ok ⟨source, routeTargetsFor rules source (frameTopic msg)⟩)
      (perPeer : ∀ d, r.state.link.metrics.droppedFullPerPeer d + kept.count d =
        s.link.metrics.droppedFullPerPeer d + (routedTo rules source (frameTopic msg)).count d)

/-- The rules send to peers with a channel only. -/
def RoutesTo (rules : List RouteRule) (ids : List UInt8) : Prop :=
  ∀ rule ∈ rules, ∀ d ∈ rule.dests, d ∈ ids

theorem mem_routedTo {rules : List RouteRule} {source : UInt8} {topicId : UInt16} {d : UInt8}
    (mem : d ∈ routedTo rules source topicId) :
    ∃ rule ∈ rules, rule.Matches source topicId ∧ d ∈ rule.dests ∧
      routedTo rules source topicId = rule.dests := by
  unfold routedTo at mem ⊢
  cases found : firstMatch rules source topicId with
  | none => simp [found] at mem
  | some rule =>
      obtain ⟨inside, matched⟩ := mem_of_firstMatch found
      exact ⟨rule, inside, matched, by simpa [found] using mem, rfl⟩

theorem RoutesTo.routedTo {rules : List RouteRule} {ids : List UInt8} (routes : RoutesTo rules ids)
    (source : UInt8) (topicId : UInt16) : ∀ d ∈ routedTo rules source topicId, d ∈ ids := by
  intro d mem
  obtain ⟨rule, inside, -, listed, -⟩ := mem_routedTo mem
  exact routes rule inside d listed

/-- The sends of a frame from `source` reach declared peers only, so none throws. -/
theorem sendTargets_spec {J : World → Prop} {s : ShmState} {rules : List RouteRule} (source : UInt8)
    (routes : RoutesTo rules (s.link.ports.map Prod.fst))
    (preserved : PushPreserves J s.link.ports s.frame.bytes) (start : J s.world) :
    ∃ s' kept, forEach (fun s' dest => s'.sendToPeer dest s.frame.bytes)
        (routeTargetsFor rules source s.frame.topicId).list s = ⟨s', .ok ()⟩ ∧
      SendSpec J s.frame.bytes (routedTo rules source s.frame.topicId) kept s s' := by
  rw [routeTargetsFor_list]
  exact sendAll_spec (routes.routedTo source s.frame.topicId) preserved start

theorem forward_spec {J : World → Prop} {s : ShmState} (ts : UInt64) (rules : List RouteRule)
    (server : s.link.isServer = true) (ids : kEndpointInvalid ∉ s.link.ports.map Prod.fst)
    (routes : RoutesTo rules (s.link.ports.map Prod.fst))
    (pop : PopPreserves J ts s.link.peerChannels)
    (push : ∀ payload, payload.length = kRouterFrameSize → PushPreserves J s.link.ports payload)
    (start : J s.world) :
    ∃ shorts, Discarded ts s.link.peerChannels shorts ∧
      ForwardSpec J ts rules s (s.forward ts rules) shorts ∧
      J (s.forward ts rules).state.world ∧
      (s.forward ts rules).state.world.reported = s.world.reported ∧
      (s.forward ts rules).state.link.metrics.recvTruncated =
        s.link.metrics.recvTruncated + shorts.length ∧
      SameWiring s.link (s.forward ts rules).state.link := by
  obtain ⟨shorts, spec⟩ := scanChannels_spec pop start
  refine ⟨shorts, spec.discarded, ?_⟩
  unfold ShmState.forward
  rw [if_neg (by simp [server])]
  simp only [ShmState.tryReceive]
  cases scanned : scanChannels ts s.link.peerChannels s with
  | mk r result =>
      rw [scanned] at spec
      have link : r.link = s.link.withTruncated shorts.length := spec.link
      have wiring : SameWiring s.link r.link := spec.wiring
      have forwarded : r.link.metrics.forwarded = s.link.metrics.forwarded := by rw [link]; rfl
      have dropped : r.link.metrics.droppedFull = s.link.metrics.droppedFull := by rw [link]; rfl
      have perPeer : r.link.metrics.droppedFullPerPeer = s.link.metrics.droppedFullPerPeer := by
        rw [link]; rfl
      have truncated : r.link.metrics.recvTruncated =
          s.link.metrics.recvTruncated + shorts.length := by rw [link]; rfl
      cases spec.result with
      | empty isInvalid arrivals =>
          simp only at isInvalid
          subst isInvalid
          simp only [if_true]
          exact ⟨.idle spec.handed arrivals forwarded dropped (.inl rfl) perPeer, spec.inv,
            spec.reported, truncated, wiring.trans ⟨rfl, rfl, rfl, rfl⟩⟩
      | thrown e isError arrivals =>
          simp only at isError
          subst isError
          exact ⟨.idle spec.handed arrivals forwarded dropped (.inr ⟨e, rfl⟩) perPeer, spec.inv,
            spec.reported, truncated, wiring⟩
      | frame channel inside msg isSource arrivals whole stamp =>
          simp only at isSource
          subst isSource
          have declared : channel.peerId ∈ s.link.ports.map Prod.fst := by
            simp only [ShmRouterLink.ports, List.map_map, List.mem_map]
            exact ⟨channel, inside, rfl⟩
          have valid : channel.peerId ≠ kEndpointInvalid := fun same => ids (same ▸ declared)
          have ports : r.link.ports = s.link.ports := wiring.ports
          have topic : r.frame.topicId = frameTopic msg := by
            rw [RouterFrame.topicId, stamp, frameTopic_stamped whole]
          have pushes : PushPreserves J r.link.ports r.frame.bytes := by
            rw [ports]
            exact push _ r.frame.size
          obtain ⟨s', kept, sent, sends⟩ :=
            sendTargets_spec channel.peerId (by rwa [ports]) pushes spec.inv
          simp only [valid, if_false, sent]
          rw [topic] at sends ⊢
          refine ⟨.routed channel.peerId msg kept declared valid whole ?_ sends.kept_sub ?_ ?_ ?_ rfl
            ?_, sends.inv, sends.reported.trans spec.reported, ?_, wiring.trans sends.wiring⟩
          · rw [sends.arrivals, arrivals]
          · rw [sends.handed, spec.handed, stamp]
          · rw [sends.forwarded, forwarded]
          · rw [sends.dropped, dropped]
          · intro d
            rw [sends.perPeer d, perPeer]
          · rw [sends.truncated, truncated]

end RoboticsIpc
