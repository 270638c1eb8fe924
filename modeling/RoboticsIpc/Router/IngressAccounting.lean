import RoboticsIpc.Router.DropAccounting
import RoboticsIpc.Router.RequestScan

/-!
Accounting of the messages an SHM router takes in.

The `tail` of a request ring counts what was popped from it. Over any run, the messages
popped are the short ones, all counted in `recv_truncated`, and the frames, one for each call
that returned a source (`IngressLedger`).

`recv_empty` is meant to count the calls at which no peer had a frame. A call counts itself
when its scan ends without one, and that can be because a frame is queued behind a short
message. `CallExact` is what a call owes; it holds exactly when no frame is hidden and no
shared ring is read twice (`call_exact_iff`).
-/

namespace RoboticsIpc

open ByteBuffer Checked FanOut FirstMatch ShmSpsc StepRun Toml

/-! ### From a scan to the call -/

theorem sendToPeer_recvEmpty (s : ShmState) (dest : UInt8) (payload : Bytes) :
    (s.sendToPeer dest payload).state.link.metrics.recvEmpty = s.link.metrics.recvEmpty := by
  cases found : s.link.channelTo dest with
  | none => simp [ShmState.sendToPeer, found]
  | some c =>
      rcases sendToPeer_cases payload found with ⟨-, eq⟩ | ⟨-, mem, -, eq⟩ | ⟨-, mem, -, eq⟩ <;>
        rw [eq] <;> rfl

theorem sendAll_recvEmpty (dests : List UInt8) (payload : Bytes) (s : ShmState) :
    (forEach (fun s dest => s.sendToPeer dest payload) dests s).state.link.metrics.recvEmpty =
      s.link.metrics.recvEmpty := by
  refine forEach_rel (R := fun s s' => s'.link.metrics.recvEmpty = s.link.metrics.recvEmpty)
    (fun _ => rfl) ?_ (fun s dest => sendToPeer_recvEmpty s dest payload) dests s
  intro s s' s'' first second
  exact second.trans first

/-- The request rings of two memories are the same. -/
def SameRequests (mem mem' : ShmMemory) : Prop := ∀ name, (mem' name).req = (mem name).req

theorem pushPreserves_requests {ports : List Port}
    (server : ∀ port ∈ ports, port.2.isServerRole = true) (mem : ShmMemory) (payload : Bytes) :
    PushPreserves (fun w => SameRequests mem w.mem) ports payload := by
  intro port inside w mem' same
  rw [ShmRegion.eq_server (server port inside)]
  exact ⟨fun sent name => (server_send_req sent name).trans (same name),
    fun sent name => (server_send_req sent name).trans (same name)⟩

/-- What a call makes of its scan: it counts itself as empty, or sends a frame on. -/
inductive CallOfScan (s : ShmState) (scan : Outcome ShmState UInt8) :
    Outcome ShmState ForwardResult → Prop
  | empty {final : ShmState} (received : scan.result = .ok kEndpointInvalid)
      (counted : final.link.metrics.recvEmpty = s.link.metrics.recvEmpty + 1)
      (requests : SameRequests scan.state.world.mem final.world.mem) :
      CallOfScan s scan ⟨final, .ok {}⟩
  | sent {final : ShmState} {source : UInt8} {targets : RouteTargets}
      (received : scan.result = .ok source) (valid : source ≠ kEndpointInvalid)
      (counted : final.link.metrics.recvEmpty = s.link.metrics.recvEmpty)
      (requests : SameRequests scan.state.world.mem final.world.mem) :
      CallOfScan s scan ⟨final, .ok ⟨source, targets⟩⟩
  | thrown {final : ShmState} {e : RuntimeError} (received : scan.result = .error e) :
      CallOfScan s scan ⟨final, .error e⟩

theorem call_of_scan {s : ShmState} {rules : List RouteRule} (ts : UInt64)
    (server : s.link.isServer = true) (roles : ∀ port ∈ s.link.ports, port.2.isServerRole = true)
    (routes : RoutesTo rules (s.link.ports.map Prod.fst)) :
    CallOfScan s (s.tryReceive ts) (s.forward ts rules) := by
  obtain ⟨shorts, scan⟩ := tryReceive_spec s ts
  have cases := forward_cases ts rules server
  generalize s.forward ts rules = r at cases ⊢
  -- Once a source is known the sends go through and leave the request rings alone.
  have sends : ∀ {mid : ShmState} {source : UInt8}, s.tryReceive ts = ⟨mid, .ok source⟩ →
      mid.link.metrics.recvEmpty = s.link.metrics.recvEmpty ∧ ∃ final,
        forEach (fun s dest => s.sendToPeer dest mid.frame.bytes)
          (routeTargetsFor rules source mid.frame.topicId).list mid = ⟨final, .ok ()⟩ ∧
        final.link.metrics.recvEmpty = s.link.metrics.recvEmpty ∧
        SameRequests mid.world.mem final.world.mem := by
    intro mid source received
    rw [received] at scan
    have link : mid.link = s.link.withTruncated shorts.length := scan.link
    have unchanged : mid.link.metrics.recvEmpty = s.link.metrics.recvEmpty := by
      rw [link]
      rfl
    have ports : mid.link.ports = s.link.ports := by
      rw [link]
      rfl
    obtain ⟨final, kept, sent, spec⟩ := sendTargets_spec source (by rwa [ports])
      (pushPreserves_requests (by rwa [ports]) mid.world.mem mid.frame.bytes) (fun _ => rfl)
    have counted := sendAll_recvEmpty (routeTargetsFor rules source mid.frame.topicId).list
      mid.frame.bytes mid
    rw [sent] at counted
    exact ⟨unchanged, final, sent, counted.trans unchanged, spec.inv⟩
  cases cases with
  | thrown received =>
      rw [received]
      exact .thrown rfl
  | nothing received =>
      have unchanged := (sends received).1
      rw [received]
      exact .empty rfl (congrArg (· + 1) unchanged) fun _ => rfl
  | sent received valid sent =>
      obtain ⟨-, final, sent', counted, requests⟩ := sends received
      obtain ⟨rfl, -⟩ := Outcome.mk.inj (sent.symm.trans sent')
      rw [received]
      exact .sent rfl valid counted requests
  | failed received valid failed =>
      obtain ⟨-, final, sent, -, -⟩ := sends received
      cases (Outcome.mk.inj (failed.symm.trans sent)).2

/-! ### Calls -/

/-- How a call can end: it found nothing to send, or the last message it took was the frame
of `port`, and it left the rings behind that one alone. -/
inductive CallResult (ports : List Port) (ts : UInt64) (s : ShmState) (popped : List Arrival)
    (r : Outcome ShmState ForwardResult) : Prop
  | nothing (result : r.result = .ok {}) (short : OnlyShort popped)
  | supplied {before after : List Port} {port : Port} {shorts : List Arrival} {frame : Bytes}
      {targets : RouteTargets} (split : ports = before ++ port :: after)
      (result : r.result = .ok ⟨port.1, targets⟩)
      (last : popped = shorts ++ [⟨port.1, frame, ts⟩]) (short : OnlyShort shorts)
      (whole : frame.length = kRouterFrameSize)
      (untouched : ∀ other ∈ after, other.ring ∉ (before ++ [port]).map Port.ring →
        (r.state.world.mem other.ring).req = (s.world.mem other.ring).req)

/-- What a call of `forward` owes its rings and `recv_empty`. -/
structure CallExact (ports : List Port) (ts : UInt64) (s : ShmState)
    (r : Outcome ShmState ForwardResult) : Prop where
  once : ∀ name, (takenFrom ports (arrivedSince s.world r.state.world) name).length ≤ 1
  order : ((arrivedSince s.world r.state.world).map (·.source)).Sublist (ports.map Prod.fst)
  oldest : ∀ a ∈ arrivedSince s.world r.state.world, ∃ port ∈ ports, port.1 = a.source ∧
    nextRequest s.world.mem port = some a.message
  rings : ∀ port ∈ ports, (r.state.world.mem port.ring).req =
    if takenFrom ports (arrivedSince s.world r.state.world) port.ring = [] then
      (s.world.mem port.ring).req
    else
      poppedRing (s.world.mem port.ring).req
  result : CallResult ports ts s (arrivedSince s.world r.state.world) r
  empty : r.state.link.metrics.recvEmpty = s.link.metrics.recvEmpty ∨
    (r.state.link.metrics.recvEmpty = s.link.metrics.recvEmpty + 1 ∧
      ∀ port ∈ ports, ∀ m ∈ queued port.2.params (s.world.mem port.ring).req,
        m.length ≠ kRouterFrameSize)

/-- Distinct keys that are all equal are one key. -/
theorem length_le_one {Elem Key : Type} {key : Elem → Key} {xs : List Elem}
    (distinct : (xs.map key).Nodup) (same : ∀ x ∈ xs, ∀ y ∈ xs, key x = key y) :
    xs.length ≤ 1 := by
  match xs, distinct, same with
  | [], _, _ => exact Nat.zero_le 1
  | [_], _, _ => exact Nat.le_refl 1
  | x :: y :: rest, distinct, same =>
      have equal := same x List.mem_cons_self y (List.mem_cons_of_mem x List.mem_cons_self)
      simp [equal] at distinct

section Read

variable {w₀ w : World} {ports scanned : List Port} {taken : List Arrival}

/-- A message that came off a ring is among those taken from it. -/
theorem takenFrom_ne_nil {port : Port} (ids : (ports.map Prod.fst).Nodup) (mem : port ∈ ports)
    (logged : port.1 ∈ taken.map (·.source)) : takenFrom ports taken port.ring ≠ [] := by
  obtain ⟨a, inside, source⟩ := List.mem_map.mp logged
  have own := regionOf_of_mem ids mem
  rw [← source] at own
  intro none
  rw [takenFrom, List.map_eq_nil_iff, List.filter_eq_nil_iff] at none
  exact none a inside (decide_eq_true own)

/-- The leader of a ring that lost a message. -/
theorem ReadOnce.leader_of_taken (read : ReadOnce w₀ scanned w taken)
    (ids : (ports.map Prod.fst).Nodup) (initial : scanned <+: ports) {a : Arrival} {name : CStr}
    (mem : a ∈ taken) (region : regionOf ports a.source = some name) :
    ∃ leader, LeadsRing scanned leader ∧ leader.1 = a.source ∧ leader.ring = name ∧
      nextRequest w₀.mem leader = some a.message := by
  obtain ⟨leader, leads, source, next⟩ := read.oldest a mem
  have own := regionOf_of_mem ids (initial.subset leads.mem)
  rw [source] at own
  exact ⟨leader, leads, source, Option.some.inj (own.symm.trans region), next⟩

/-- No ring loses two messages. -/
theorem ReadOnce.takenFrom_le_one (read : ReadOnce w₀ scanned w taken)
    (ids : (ports.map Prod.fst).Nodup) (initial : scanned <+: ports) (name : CStr) :
    (takenFrom ports taken name).length ≤ 1 := by
  have sources := read.order.nodup ((initial.sublist.map Prod.fst).nodup ids)
  have distinct : ((taken.filter fun a => regionOf ports a.source = some name).map
      (·.source)).Nodup := (List.filter_sublist.map _).nodup sources
  have same : ∀ a ∈ taken.filter (fun a => regionOf ports a.source = some name),
      ∀ b ∈ taken.filter (fun a => regionOf ports a.source = some name), a.source = b.source := by
    intro a inA b inB
    obtain ⟨memA, regionA⟩ := List.mem_filter.mp inA
    obtain ⟨memB, regionB⟩ := List.mem_filter.mp inB
    obtain ⟨i, leadsA, sourceA, ringA, -⟩ :=
      read.leader_of_taken ids initial memA (of_decide_eq_true regionA)
    obtain ⟨j, leadsB, sourceB, ringB, -⟩ :=
      read.leader_of_taken ids initial memB (of_decide_eq_true regionB)
    obtain rfl := leadsA.unique leadsB (ringA.trans ringB.symm)
    exact sourceA.symm.trans sourceB
  rw [takenFrom, List.length_map]
  exact length_le_one distinct same

/-- A ring of any peer has lost its oldest message or nothing. -/
theorem ReadOnce.ring_eq (read : ReadOnce w₀ scanned w taken) (ids : (ports.map Prod.fst).Nodup)
    (initial : scanned <+: ports) (name : CStr) :
    (w.mem name).req = if takenFrom ports taken name = [] then (w₀.mem name).req
      else poppedRing (w₀.mem name).req := by
  by_cases inside : name ∈ scanned.map Port.ring
  · obtain ⟨port, mem, rfl⟩ := List.mem_map.mp inside
    obtain ⟨leader, leads, same⟩ := exists_leads Port.ring mem
    rw [← same]
    cases read.rings leader leads with
    | idle nothing unread =>
        have none : takenFrom ports taken leader.ring = [] := by
          rw [takenFrom, List.map_eq_nil_iff, List.filter_eq_nil_iff]
          intro a mem region
          obtain ⟨other, leads', -, ring, next⟩ :=
            read.leader_of_taken ids initial mem (of_decide_eq_true region)
          obtain rfl := leads.unique leads' ring.symm
          rw [nothing] at next
          cases next
        rw [if_pos none, unread]
    | took a logged source next popped =>
        have some : takenFrom ports taken leader.ring ≠ [] := takenFrom_ne_nil ids
          (initial.subset leads.mem) (List.mem_map.mpr ⟨a, logged, source⟩)
        rw [if_neg some, popped]
  · have none : takenFrom ports taken name = [] := by
      rw [takenFrom, List.map_eq_nil_iff, List.filter_eq_nil_iff]
      intro a mem region
      obtain ⟨leader, leads, -, ring, -⟩ :=
        read.leader_of_taken ids initial mem (of_decide_eq_true region)
      exact inside (ring ▸ List.mem_map_of_mem leads.mem)
    rw [if_pos none, read.elsewhere name inside]

end Read

/-- What holds of the request rings between two calls: `tail` counts what was taken, and no
slot holds more than a frame. -/
structure RequestsInv (ports : List Port) (w : World) : Prop where
  tails : ∀ port ∈ ports,
    (w.mem port.ring).req.tail = (takenFrom ports w.arrivals port.ring).length % 2 ^ 64
  heads : ∀ port ∈ ports, (w.mem port.ring).req.head < 2 ^ 64
  slots : ∀ port ∈ ports, ∀ index, ((w.mem port.ring).req.slots index).len ≤ kRouterFrameSize

section Call

variable {rules : List RouteRule} {s : ShmState} {ts : UInt64} {ports : List Port}

/-- A call whose scan read no ring twice. -/
theorem CallExact.of_read {r : Outcome ShmState ForwardResult} {scanned : List Port} {w : World}
    {taken : List Arrival} (ids : (ports.map Prod.fst).Nodup) (initial : scanned <+: ports)
    (read : ReadOnce s.world scanned w taken) (arrivals : r.state.world.arrivals = w.arrivals)
    (requests : SameRequests w.mem r.state.world.mem) (result : CallResult ports ts s taken r)
    (empty : r.state.link.metrics.recvEmpty = s.link.metrics.recvEmpty ∨
      (r.state.link.metrics.recvEmpty = s.link.metrics.recvEmpty + 1 ∧
        ∀ port ∈ ports, ∀ m ∈ queued port.2.params (s.world.mem port.ring).req,
          m.length ≠ kRouterFrameSize)) : CallExact ports ts s r := by
  have popped := arrivedSince_eq (arrivals.trans read.arrivals)
  refine ⟨?_, ?_, ?_, ?_, ?_, empty⟩ <;> rw [popped]
  · exact read.takenFrom_le_one ids initial
  · exact read.order.trans (initial.sublist.map Prod.fst)
  · intro a mem
    obtain ⟨port, leads, source, next⟩ := read.oldest a mem
    exact ⟨port, initial.subset leads.mem, source, next⟩
  · intro port _
    exact (requests port.ring).trans (read.ring_eq ids initial port.ring)
  · exact result

/-- A call is exact if and only if it reads no ring twice and no frame is hidden from it. -/
theorem call_exact_iff (isPorts : s.link.ports = ports) (server : s.link.isServer = true)
    (roles : ∀ port ∈ ports, port.2.isServerRole = true) (ids : (ports.map Prod.fst).Nodup)
    (noInvalid : kEndpointInvalid ∉ ports.map Prod.fst)
    (routes : RoutesTo rules (ports.map Prod.fst)) (requests : RequestsInv ports s.world) :
    CallExact ports ts s (s.forward ts rules) ↔
      NoSecondRead s.world.mem ports ∧ NothingHidden s.world.mem ports := by
  subst isPorts
  have inside : ∀ c ∈ s.link.peerChannels, c.port ∈ s.link.ports :=
    fun c mem => List.mem_map_of_mem mem
  have trace : ScanTrace s.world ts s.link.ports (s.tryReceive ts) :=
    scan_trace ts (readOnce_nil s.world) nofun (fun c mem => roles _ (inside c mem))
      (fun c mem => requests.heads _ (inside c mem)) (fun c mem => requests.slots _ (inside c mem))
  have call := call_of_scan ts server roles routes
  have arrivals : (s.forward ts rules).state.world.arrivals =
      (s.tryReceive ts).state.world.arrivals := forward_arrivals server
  generalize s.forward ts rules = r at call arrivals ⊢
  generalize s.tryReceive ts = scan at trace call arrivals
  cases trace with
  | @empty taken read short result =>
      cases call with
      | sent received valid => exact absurd (Except.ok.inj (received.symm.trans result)) valid
      | thrown received => cases received.symm.trans result
      | empty _ counted same =>
          constructor
          · intro exact
            refine ⟨read.noSecondRead, .inr ?_⟩
            rcases exact.empty with unchanged | ⟨-, none⟩
            · rw [counted] at unchanged
              omega
            · exact none
          · rintro ⟨-, ⟨port, -, leads, frame⟩ | none⟩
            · exact absurd frame (read.no_frame short leads)
            · exact .of_read ids (List.prefix_refl _) read arrivals same (.nothing rfl short)
                (.inr ⟨counted, none⟩)
  | @found before port taken frame initial read short leads next whole result =>
      have isPort : port ∈ s.link.ports := initial.subset leads.mem
      have frameFirst : FrameFirst s.world.mem port := ⟨frame, next, whole⟩
      have readOnce := read.noSecondRead_of_frame initial leads frameFirst
      obtain ⟨after, split⟩ := initial
      have leads' : LeadsRing s.link.ports port := split ▸ leads.append after
      have shape : s.link.ports = before ++ port :: after := by
        rw [← split, List.append_assoc]
        rfl
      cases call with
      | empty received =>
          have invalid := Except.ok.inj (result.symm.trans received)
          exact absurd (invalid ▸ List.mem_map_of_mem isPort) noInvalid
      | thrown received => cases received.symm.trans result
      | sent received valid counted same =>
          obtain rfl := Except.ok.inj (received.symm.trans result)
          refine ⟨fun _ => ⟨readOnce, .inl ⟨port, isPort, leads', frameFirst⟩⟩, fun _ => ?_⟩
          refine .of_read ids ⟨after, split⟩ read arrivals same ?_ (.inl counted)
          refine .supplied shape rfl rfl short whole fun other _ outside => ?_
          exact (same other.ring).trans (read.elsewhere other.ring outside)
  | @again before port leader w taken more initial read short leads same piled logged grown
      second =>
      have declared : leader ∈ s.link.ports :=
        initial.subset (List.mem_append_left _ leads.mem)
      have isPort : port ∈ s.link.ports :=
        initial.subset (List.mem_append_right _ (List.mem_singleton_self port))
      constructor
      · intro exact
        have twice := exact.once leader.ring
        have first := List.length_pos_iff.mpr (takenFrom_ne_nil ids declared logged)
        have again := List.length_pos_iff.mpr (takenFrom_ne_nil ids isPort second)
        rw [arrivedSince_eq (arrivals.trans grown), takenFrom_append, List.length_append] at twice
        rw [← same] at again
        omega
      · rintro ⟨readOnce, -⟩
        obtain ⟨ready, leadsReady, frame⟩ := readOnce before port initial leader leads same piled
        exact absurd frame (read.no_frame short leadsReady)

end Call

/-! ### Rings over a run -/

section Rings

variable {ports : List Port} {w : World}

/-- Only the request rings matter, and what was taken from them. -/
theorem RequestsInv.of_same {w' : World} (inv : RequestsInv ports w)
    (same : SameRequests w.mem w'.mem) (arrivals : w'.arrivals = w.arrivals) :
    RequestsInv ports w' := by
  refine ⟨?_, ?_, ?_⟩ <;> intro port inside <;> rw [same]
  · rw [arrivals]
    exact inv.tails port inside
  · exact inv.heads port inside
  · exact inv.slots port inside

theorem RequestsInv.pop {ts : UInt64} {channels : List PeerChannel}
    (server : ∀ port ∈ ports, port.2.isServerRole = true) (ids : (ports.map Prod.fst).Nodup)
    (sub : ∀ c ∈ channels, c.port ∈ ports) : PopPreserves (RequestsInv ports) ts channels := by
  intro c mem w msg mem' inv received
  have inside := sub c mem
  have region : regionOf ports c.peerId = some c.port.ring := regionOf_of_mem ids inside
  have handle : c.endpoint = ⟨c.port.ring, c.port.2.params, true⟩ :=
    ShmRegion.eq_server (server c.port inside)
  rw [handle] at received
  obtain rfl := mem_of_server_recv received
  refine ⟨?_, ?_, ?_⟩ <;> intro port declared <;> dsimp only <;> rw [takeRequest_req]
  · have tail := inv.tails port declared
    rw [takenFrom_append, takenFrom_singleton, region]
    by_cases here : port.ring = c.port.ring
    · rw [if_pos here, if_pos (congrArg some here.symm), List.length_append]
      simp only [poppedRing, u64Inc, List.length_singleton, tail]
      omega
    · rw [if_neg here, if_neg fun same => here (Option.some.inj same).symm, List.append_nil]
      exact tail
  · split <;> exact inv.heads port declared
  · split <;> exact inv.slots port declared

theorem RequestsInv.push (server : ∀ port ∈ ports, port.2.isServerRole = true) (payload : Bytes) :
    PushPreserves (RequestsInv ports) ports payload := by
  intro port inside w mem' inv
  have same := pushPreserves_requests server w.mem payload port inside w mem' fun _ => rfl
  exact ⟨fun sent => inv.of_same (same.1 sent) rfl, fun sent => inv.of_same (same.2 sent) rfl⟩

/-- A push leaves the tail, wraps the head and writes one slot. -/
theorem shmTryPushSlot_keeps {p : RingParams} {ring ring' : ShmRing} {payload : Bytes} {ok : Bool}
    {limit : Nat} (pushed : shmTryPushSlot p ring payload = (ring', ok))
    (short : payload.length ≤ limit) (head : ring.head < 2 ^ 64)
    (slots : ∀ index, (ring.slots index).len ≤ limit) :
    ring'.tail = ring.tail ∧ ring'.head < 2 ^ 64 ∧ ∀ index, (ring'.slots index).len ≤ limit := by
  rcases Nat.lt_or_ge (u64Sub ring.head ring.tail) p.slotCount with room | full
  · rw [shmTryPushSlot_room payload room] at pushed
    obtain ⟨rfl, -⟩ := Prod.mk.inj pushed
    refine ⟨rfl, Nat.mod_lt _ (Nat.two_pow_pos 64), fun index => ?_⟩
    simp only [pushedRing, writeSlot]
    by_cases written : index = ring.head % p.slotCount
    · subst written
      rw [Function.update_self]
      exact Nat.le_trans (Nat.mod_le _ _) (Nat.le_trans (Nat.min_le_left _ _) short)
    · rw [Function.update_of_ne written]
      exact slots index
  · rw [shmTryPushSlot_full payload full] at pushed
    obtain ⟨rfl, -⟩ := Prod.mk.inj pushed
    exact ⟨rfl, head, slots⟩

/-- A client's push of at most a frame. -/
theorem RequestsInv.publish {name : CStr} {p : RingParams} {mem : ShmMemory} {msg : Bytes}
    {ok : Bool} (inv : RequestsInv ports w) (short : msg.length ≤ kRouterFrameSize)
    (sent : trySend ⟨name, p, false⟩ w.mem msg = (mem, ok)) : RequestsInv ports { w with mem } := by
  simp only [trySend, Bool.false_eq_true, if_false, Prod.mk.injEq] at sent
  obtain ⟨rfl, -⟩ := sent
  have kept : ∀ port ∈ ports,
      let region := Function.update w.mem name
        { w.mem name with req := (shmTryPushSlot p (w.mem name).req msg).1 } port.ring
      region.req.tail = (w.mem port.ring).req.tail ∧ region.req.head < 2 ^ 64 ∧
        ∀ index, (region.req.slots index).len ≤ kRouterFrameSize := by
    intro port declared
    have head := inv.heads port declared
    have slots := inv.slots port declared
    by_cases here : port.ring = name
    · rw [here] at head slots ⊢
      rw [Function.update_self]
      exact shmTryPushSlot_keeps rfl short head slots
    · rw [Function.update_of_ne here]
      exact ⟨rfl, head, slots⟩
  exact ⟨fun port declared => (kept port declared).1.trans (inv.tails port declared),
    fun port declared => (kept port declared).2.1, fun port declared => (kept port declared).2.2⟩

theorem requestsInv_boot {topo : RouterTopology} {mem : ShmMemory} {s : ShmSystem}
    (booted : bootShm topo mem = .ok s) : RequestsInv (shmPorts topo.peers) s.router.world := by
  obtain ⟨-, world, -, -⟩ := bootShm_eq booted
  rw [world]
  refine ⟨?_, ?_, ?_⟩ <;> intro port inside <;>
    obtain ⟨p, region⟩ := bindChannels_region mem inside <;> dsimp only <;> rw [region]
  · rfl
  · exact Nat.two_pow_pos 64
  · exact fun _ => Nat.zero_le _

end Rings

/-! ### The ledger -/

/-- The sources that the calls of a log returned. -/
def returned (log : List ForwardRecord) : List UInt8 :=
  (log.map fun record => record.result.source).filter fun source => source ≠ kEndpointInvalid

def shortOnes (arrivals : List Arrival) : List Arrival :=
  arrivals.filter fun a => a.message.length < kRouterFrameSize

def wholeOnes (arrivals : List Arrival) : List Arrival :=
  arrivals.filter fun a => a.message.length = kRouterFrameSize

@[simp] theorem returned_append (before after : List ForwardRecord) :
    returned (before ++ after) = returned before ++ returned after := by
  simp [returned]

@[simp] theorem shortOnes_append (before after : List Arrival) :
    shortOnes (before ++ after) = shortOnes before ++ shortOnes after :=
  List.filter_append ..

@[simp] theorem wholeOnes_append (before after : List Arrival) :
    wholeOnes (before ++ after) = wholeOnes before ++ wholeOnes after :=
  List.filter_append ..

/-- The counters and the calls of a run against everything popped. -/
structure LedgerInv (ports : List Port) (s : ShmState) (log : List ForwardRecord) : Prop where
  known : ∀ a ∈ s.world.arrivals, a.source ∈ ports.map Prod.fst
  fits : ∀ a ∈ s.world.arrivals, a.message.length ≤ kRouterFrameSize
  truncated : s.link.metrics.recvTruncated = (shortOnes s.world.arrivals).length
  sources : returned log = (wholeOnes s.world.arrivals).map (·.source)

section Ledger

variable {ports : List Port} {rules : List RouteRule} {s : ShmState} {log : List ForwardRecord}

theorem LedgerInv.of_same {s' : ShmState} (inv : LedgerInv ports s log)
    (truncated : s'.link.metrics.recvTruncated = s.link.metrics.recvTruncated)
    (arrivals : s'.world.arrivals = s.world.arrivals) : LedgerInv ports s' log := by
  obtain ⟨known, fits, counted, sources⟩ := inv
  rw [← arrivals] at known fits counted sources
  exact ⟨known, fits, truncated.trans counted, sources⟩

/-- A message that is not a frame is a short one. -/
theorem length_short_add_whole {arrivals : List Arrival}
    (fits : ∀ a ∈ arrivals, a.message.length ≤ kRouterFrameSize) :
    (shortOnes arrivals).length + (wholeOnes arrivals).length = arrivals.length := by
  have rest : wholeOnes arrivals =
      arrivals.filter fun a => !decide (a.message.length < kRouterFrameSize) := by
    apply List.filter_congr
    intro a mem
    have bound := fits a mem
    by_cases short : a.message.length < kRouterFrameSize
    · simp [short, Nat.ne_of_lt short]
    · simp [Nat.le_antisymm bound (Nat.not_lt.mp short)]
  rw [rest, shortOnes]
  exact (List.length_eq_length_filter_add _).symm

/-- Every call keeps the ledger. -/
theorem LedgerInv.forward {J : World → Prop} {ts : UInt64} {shorts : List Arrival}
    {r : Outcome ShmState ForwardResult} (inv : LedgerInv ports s log)
    (isPorts : s.link.ports = ports) (discarded : Discarded ts s.link.peerChannels shorts)
    (spec : ForwardSpec J ts rules s r shorts)
    (counted : r.state.link.metrics.recvTruncated = s.link.metrics.recvTruncated + shorts.length) :
    LedgerInv ports r.state (log ++ recordOf s r) := by
  subst isPorts
  have short : ∀ a ∈ shorts, a.message.length < kRouterFrameSize := fun a mem => (discarded a mem).1
  have allShort : shortOnes shorts = shorts :=
    List.filter_eq_self.mpr fun a mem => decide_eq_true (short a mem)
  have noneWhole : wholeOnes shorts = [] :=
    List.filter_eq_nil_iff.mpr fun a mem => by simp [Nat.ne_of_lt (short a mem)]
  cases spec with
  | idle _ arrivals _ _ result =>
      have silent : returned (recordOf s r) = [] := by
        rcases result with nothing | ⟨e, thrown⟩
        · simp [returned, recordOf, nothing]
        · simp [returned, recordOf, thrown]
      refine ⟨?_, ?_, ?_, ?_⟩ <;> rw [arrivals]
      · exact List.forall_mem_append.mpr ⟨inv.known, discarded.sources⟩
      · exact List.forall_mem_append.mpr ⟨inv.fits, fun a mem => Nat.le_of_lt (short a mem)⟩
      · rw [counted, inv.truncated, shortOnes_append, allShort, List.length_append]
      · rw [returned_append, silent, inv.sources, wholeOnes_append, noneWhole]
        simp
  | routed source msg kept declared valid whole arrivals _ _ _ _ result =>
      have named : returned (recordOf s r) = [source] := by
        simp [returned, recordOf, result, valid]
      have notShort : shortOnes [⟨source, msg, ts⟩] = [] := by simp [shortOnes, whole]
      have isWhole : wholeOnes [⟨source, msg, ts⟩] = [⟨source, msg, ts⟩] := by
        simp [wholeOnes, whole]
      refine ⟨?_, ?_, ?_, ?_⟩ <;> rw [arrivals]
      · exact List.forall_mem_append.mpr ⟨inv.known, List.forall_mem_append.mpr
          ⟨discarded.sources, by simpa using declared⟩⟩
      · exact List.forall_mem_append.mpr ⟨inv.fits, List.forall_mem_append.mpr
          ⟨fun a mem => Nat.le_of_lt (short a mem), by simp [whole]⟩⟩
      · rw [counted, inv.truncated, shortOnes_append, shortOnes_append, allShort, notShort,
          List.append_nil, List.length_append]
      · rw [returned_append, named, inv.sources, wholeOnes_append, wholeOnes_append, noneWhole,
          isWhole]
        simp

end Ledger

/-! ### Runs -/

/-- What a run with publishes of at most a frame keeps. -/
structure IngressInv (rules : List RouteRule) (topo : RouterTopology) (s : LoggedSystem) :
    Prop where
  logged : LoggedInv rules topo s
  requests : RequestsInv (shmPorts topo.peers) s.system.router.world
  ledger : LedgerInv (shmPorts topo.peers) s.system.router s.log

section Runs

variable {rules : List RouteRule} {topo : RouterTopology} {s s' : LoggedSystem}

theorem ingressInv_boot {mem : ShmMemory} {s : ShmSystem} (booted : bootShm topo mem = .ok s) :
    IngressInv rules topo { system := s } := by
  obtain ⟨link, world, -, -⟩ := bootShm_eq booted
  refine ⟨loggedInv_boot booted, requestsInv_boot booted, ?_, ?_, ?_, ?_⟩ <;> rw [world]
  · nofun
  · nofun
  · rw [link]
    rfl
  · rfl

theorem IngressInv.step {act : ShmAct} (fanOut : FanOutRules rules)
    (ids : ((shmPorts topo.peers).map Prod.fst).Nodup)
    (noInvalid : kEndpointInvalid ∉ (shmPorts topo.peers).map Prod.fst)
    (routes : RoutesTo rules ((shmPorts topo.peers).map Prod.fst)) (inv : IngressInv rules topo s)
    (short : act.PublishesAtMost kRouterFrameSize) (stepped : loggedStep rules s act = some s') :
    IngressInv rules topo s' := by
  obtain ⟨logged, requests, ledger⟩ := inv
  have logged' := logged.step fanOut noInvalid routes stepped
  have server := shmPorts_server topo.peers
  obtain ⟨next, step, rfl⟩ := Option.map_eq_some_iff.mp stepped
  cases shmStep_cases step with
  | published _ sent | rejected _ sent =>
      refine ⟨logged', requests.publish short sent, ?_⟩
      simp only [callLog, List.append_nil]
      exact ledger.of_same rfl rfl
  | forwarded scratch ts =>
      have start :
          LedgerInv (shmPorts topo.peers) { s.system.router with frame := scratch } s.log :=
        ledger.of_same rfl rfl
      have ports : ShmRouterLink.ports s.system.router.link = shmPorts topo.peers := logged.ports
      obtain ⟨shorts, discarded, spec, kept, -, counted, -⟩ := forward_spec
        (J := RequestsInv (shmPorts topo.peers))
        (s := { s.system.router with frame := scratch }) ts rules logged.server
        (by simp only [ports]; exact noInvalid) (by simp only [ports]; exact routes)
        (RequestsInv.pop server ids fun c mem => ports ▸ List.mem_map_of_mem mem)
        (fun payload _ => by simp only [ports]; exact RequestsInv.push server payload) requests
      refine ⟨logged', kept.of_same (fun name => ?_) ?_,
        (start.forward ports discarded spec counted).of_same ?_ ?_⟩
      · rw [reportForward_mem]
      · rw [reportForward_arrivals]
      · rw [reportForward_link]
      · rw [reportForward_arrivals]
  | popped _ received =>
      refine ⟨logged', requests.of_same (client_recv_req received) rfl, ?_⟩
      simp only [callLog, List.append_nil]
      exact ledger.of_same rfl rfl
  | nothing =>
      refine ⟨logged', requests, ?_⟩
      simp only [callLog, List.append_nil]
      exact ledger
  | floorSet floor =>
      refine ⟨logged', requests, ?_⟩
      simp only [callLog, List.append_nil]
      exact ledger.of_same rfl rfl

end Runs

/-- The messages popped in a run: counted by the tails of the rings, the short ones by
`recv_truncated`, and the frames, in order, the ones whose sources the calls returned. -/
structure IngressLedger (ports : List Port) (s : LoggedSystem) : Prop where
  tails : ∀ port ∈ ports, (s.system.router.world.mem port.ring).req.tail =
    (takenFrom ports s.system.router.world.arrivals port.ring).length % 2 ^ 64
  known : ∀ a ∈ s.system.router.world.arrivals, a.source ∈ ports.map Prod.fst
  popped : s.system.router.world.arrivals.length =
    s.system.router.link.metrics.recvTruncated + (returned s.log).length
  truncated : s.system.router.link.metrics.recvTruncated =
    (shortOnes s.system.router.world.arrivals).length
  sources : returned s.log = (wholeOnes s.system.router.world.arrivals).map (·.source)

theorem IngressInv.ingressLedger {rules : List RouteRule} {topo : RouterTopology}
    {s : LoggedSystem} (inv : IngressInv rules topo s) : IngressLedger (shmPorts topo.peers) s where
  tails := inv.requests.tails
  known := inv.ledger.known
  popped := by
    rw [inv.ledger.truncated, inv.ledger.sources, List.length_map,
      length_short_add_whole inv.ledger.fits]
  truncated := inv.ledger.truncated
  sources := inv.ledger.sources

/-- If the action is a call of `forward`, it is exact. -/
def ForwardExact (t : LoadedTopology) (s : LoggedSystem) : ShmAct → Prop
  | .forward scratch ts =>
      let router : ShmState := { s.system.router with frame := scratch }
      CallExact (shmPorts t.peers) ts router (router.forward ts t.routes)
  | _ => True

/-- If the action is a call of `forward`, no ring is read twice and no frame is hidden. -/
def ForwardInOrder (t : LoadedTopology) (s : LoggedSystem) : ShmAct → Prop
  | .forward _ _ =>
      NoSecondRead s.system.router.world.mem (shmPorts t.peers) ∧
        NothingHidden s.system.router.world.mem (shmPorts t.peers)
  | _ => True

/-- In every run of a server over an accepted all-SHM profile whose clients publish at most a
frame, the ledger of popped messages is exact. The calls of the run are exact if and only if
at each of them no ring is read twice and no frame is hidden. -/
theorem ingress_exact_iff {root : TomlTable} {t : LoadedTopology} {mem : ShmMemory}
    {schedule : List ShmAct} {s₀ : ShmSystem} {s : LoggedSystem} (accepted : buildFrom root = .ok t)
    (all : t.AllShm) (booted : bootShm t.view mem = .ok s₀)
    (short : ∀ act ∈ schedule, act.PublishesAtMost kRouterFrameSize)
    (ran : run (loggedStep t.routes) { system := s₀ } schedule = some s) :
    IngressLedger (shmPorts t.peers) s ∧
      (Throughout (loggedStep t.routes) (ForwardExact t) { system := s₀ } schedule ↔
        Throughout (loggedStep t.routes) (ForwardInOrder t) { system := s₀ } schedule) := by
  have wellFormed := buildFrom_wellFormed accepted
  have routes := routesTo_shmPorts wellFormed all
  have ids := shmPorts_ids wellFormed
  have noInvalid := shmPorts_valid wellFormed
  have fanOut := fanOutRules_of_wellFormed wellFormed
  have start : IngressInv t.routes t.view { system := s₀ } := ingressInv_boot booted
  have kept : ∀ (now : LoggedSystem) act next, IngressInv t.routes t.view now →
      act.PublishesAtMost kRouterFrameSize → loggedStep t.routes now act = some next →
      IngressInv t.routes t.view next :=
    fun _ _ _ inv publishes stepped => inv.step fanOut ids noInvalid routes publishes stepped
  refine ⟨(run_inv_of_allowed start short kept ran).ingressLedger,
    throughout_congr start short kept fun now act inv => ?_⟩
  cases act with
  | publish | pop | setFloor => exact Iff.rfl
  | forward scratch ts =>
      exact call_exact_iff (s := { now.system.router with frame := scratch }) inv.logged.ports
        inv.logged.server (shmPorts_server t.peers) ids noInvalid routes inv.requests

/-- A peer with rings of two slots and a route from it. -/
def twoSlots : TomlTable :=
  profile "shm:/router" [peerTable 1 "a" "shm:/a" (smallRing 2),
    peerTable 2 "b" "shm:/b" (smallRing 2)] [routeTable 1 2]

/-- The calls of a run that publishes a frame and forwards it are exact. -/
theorem ingress_exact_frame : ∃ t s₀ s, buildFrom twoSlots = .ok t ∧
    bootShm t.view noShm = .ok s₀ ∧
    run (loggedStep t.routes) { system := s₀ }
      [.publish 1 RouterFrame.zero.bytes, .forward .zero 0] = some s ∧
    IngressLedger (shmPorts t.peers) s ∧
    Throughout (loggedStep t.routes) (ForwardExact t) { system := s₀ }
      [.publish 1 RouterFrame.zero.bytes, .forward .zero 0] := by
  have shape : ∀ t ∈ (buildFrom twoSlots).toOption, t.AllShm ∧ t.DistinctShmNames ∧
      ∀ s₀ ∈ (bootShm t.view noShm).toOption, ∀ next ∈ loggedStep t.routes { system := s₀ }
        (.publish 1 RouterFrame.zero.bytes),
        NothingHidden next.system.router.world.mem (shmPorts t.peers) := by decide +kernel
  have runs : (runLogged twoSlots
      [.publish 1 RouterFrame.zero.bytes, .forward .zero 0]).isSome := by decide +kernel
  obtain ⟨s, ran⟩ := Option.isSome_iff_exists.mp runs
  obtain ⟨t, s₀, accepted, booted, ran⟩ := runLogged_eq_some.mp ran
  obtain ⟨all, names, visible⟩ := shape t (toOption_eq_some.mpr accepted)
  obtain ⟨ledger, exact⟩ := ingress_exact_iff accepted all booted (by decide) ran
  refine ⟨t, s₀, s, accepted, booted, ran, ledger, exact.mpr ⟨trivial, fun next first => ?_⟩⟩
  exact ⟨⟨noSecondRead_of_nodup _ names, visible s₀ (toOption_eq_some.mpr booted) next first⟩,
    fun _ _ => trivial⟩

/-- With a frame queued behind a short message a call takes the short one, returns no source
and counts itself as empty. -/
theorem empty_poll_hides_frame : ∃ t s₀ s, buildFrom twoSlots = .ok t ∧ t.AllShm ∧
    t.DistinctShmNames ∧ bootShm t.view noShm = .ok s₀ ∧
    run (loggedStep t.routes) { system := s₀ }
      [.publish 1 [7, 7], .publish 1 RouterFrame.zero.bytes] = some s ∧
    (∃ port ∈ shmPorts t.peers, RouterFrame.zero.bytes ∈
      queued port.2.params (s.system.router.world.mem port.ring).req) ∧
    ¬ ForwardExact t s (.forward .zero 0) := by
  have shape : ∀ t ∈ (buildFrom twoSlots).toOption, t.AllShm ∧ t.DistinctShmNames ∧
      ∀ s₀ ∈ (bootShm t.view noShm).toOption, ∀ s ∈ run (loggedStep t.routes) { system := s₀ }
          [.publish 1 [7, 7], .publish 1 RouterFrame.zero.bytes],
        let router : ShmState := { s.system.router with frame := .zero }
        (∃ port ∈ shmPorts t.peers, RouterFrame.zero.bytes ∈
          queued port.2.params (s.system.router.world.mem port.ring).req) ∧
        (router.forward 0 t.routes).state.link.metrics.recvEmpty = 1 ∧
        router.link.metrics.recvEmpty = 0 := by decide +kernel
  have runs : (runLogged twoSlots
      [.publish 1 [7, 7], .publish 1 RouterFrame.zero.bytes]).isSome := by decide +kernel
  obtain ⟨s, ran⟩ := Option.isSome_iff_exists.mp runs
  obtain ⟨t, s₀, accepted, booted, ran⟩ := runLogged_eq_some.mp ran
  obtain ⟨all, names, outcome⟩ := shape t (toOption_eq_some.mpr accepted)
  obtain ⟨waiting, counted, before⟩ := outcome s₀ (toOption_eq_some.mpr booted) s ran
  refine ⟨t, s₀, s, accepted, all, names, booted, ran, waiting, fun exact => ?_⟩
  rcases exact.empty with unchanged | ⟨-, none⟩
  · exact absurd (counted.symm.trans (unchanged.trans before)) (by decide)
  · obtain ⟨port, inside, frame⟩ := waiting
    exact none port inside _ frame RouterFrame.zero.size

/-- Peers 2 and 3 have one ring, and one call takes two messages of it. -/
theorem shared_ring_read_twice : ∃ t s₀ s, buildFrom sharedReply = .ok t ∧
    bootShm t.view noShm = .ok s₀ ∧
    run (loggedStep t.routes) { system := s₀ } [.publish 2 [7], .publish 3 [8]] = some s ∧
    ¬ ForwardExact t s (.forward .zero 0) := by
  have shape : ∀ t ∈ (buildFrom sharedReply).toOption,
      ∀ s₀ ∈ (bootShm t.view noShm).toOption, ∀ s ∈ run (loggedStep t.routes) { system := s₀ }
          [.publish 2 [7], .publish 3 [8]],
        let router : ShmState := { s.system.router with frame := .zero }
        (takenFrom (shmPorts t.peers) (arrivedSince router.world
          (router.forward 0 t.routes).state.world) (cStr (ascii "/b"))).length = 2 := by
    decide +kernel
  have runs : (runLogged sharedReply [.publish 2 [7], .publish 3 [8]]).isSome := by decide +kernel
  obtain ⟨s, ran⟩ := Option.isSome_iff_exists.mp runs
  obtain ⟨t, s₀, accepted, booted, ran⟩ := runLogged_eq_some.mp ran
  have twice := shape t (toOption_eq_some.mpr accepted) s₀ (toOption_eq_some.mpr booted) s ran
  refine ⟨t, s₀, s, accepted, booted, ran, fun exact => ?_⟩
  have once := exact.once (cStr (ascii "/b"))
  exact absurd once (by rw [twice]; decide)

end RoboticsIpc
