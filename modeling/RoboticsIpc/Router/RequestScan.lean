import RoboticsIpc.Lib.FirstMatch
import RoboticsIpc.Router.ShmProgress

/-!
One scan of the request rings, said of the rings as they were when it began.

A reader of a ring finds the messages between its counters (`queued`) and pops the oldest
(`front`), or nothing once `head` has wrapped. Two peers may name one region, and a scan
then comes to its ring twice: the first of them leads the ring. `ScanTrace` has the three
ways a scan can go. It goes past every peer, or stops at the first leader with a frame in
front, and in both cases has taken at most one message of each ring (`ReadOnce`); or it comes
to a ring again from which it has taken a short message, and takes another. `scanTakes` is
what any scan takes, whatever is in the rings.
-/

namespace RoboticsIpc

open ByteBuffer FirstMatch RingWindow ShmSpsc

/-! ### A ring as its reader sees it -/

namespace ShmSpsc

/-- The message at a value of the counters. -/
def messageAt (p : RingParams) (ring : ShmRing) (k : Nat) : Bytes :=
  let slot := ring.slots (k % p.slotCount)
  slot.data.take (copySize p slot)

/-- The messages between the counters, oldest first. -/
def queued (p : RingParams) (ring : ShmRing) : List Bytes :=
  (List.range (u64Sub ring.head ring.tail)).map fun i =>
    messageAt p ring ((ring.tail + i) % 2 ^ 64)

/-- The message a pop is about to take. -/
def front (p : RingParams) (ring : ShmRing) : Option Bytes :=
  if ring.tail ≥ ring.head then none else some (messageAt p ring ring.tail)

variable {p : RingParams} {ring : ShmRing} {m : Bytes} {name : CStr}
  {mem mem' : ShmMemory} {capacity : Nat}

theorem front_eq_none : front p ring = none ↔ ring.head ≤ ring.tail := by
  unfold front
  split <;> simp_all

theorem front_eq_some : front p ring = some m ↔
    ring.tail < ring.head ∧ messageAt p ring ring.tail = m := by
  unfold front
  split
  · simp
    omega
  · simp
    omega

theorem recv_of_front_none (nothing : front p (mem name).req = none) :
    tryRecv ⟨name, p, true⟩ mem capacity = .ok none := by
  simp only [tryRecv, if_true, shmTryPopSlot]
  rw [if_pos (front_eq_none.mp nothing)]

/-- A message that fits the buffer is taken. -/
theorem recv_of_front_some (next : front p (mem name).req = some m)
    (fits : copySize p ((mem name).req.slots ((mem name).req.tail % p.slotCount)) ≤ capacity) :
    tryRecv ⟨name, p, true⟩ mem capacity = .ok (some (m, takeRequest name mem)) := by
  obtain ⟨pending, rfl⟩ := front_eq_some.mp next
  simp only [tryRecv, if_true, shmTryPopSlot]
  rw [if_neg (Nat.not_le.mpr pending), if_neg (Nat.not_lt.mpr fits)]
  rfl

/-- One that does not is left. -/
theorem recv_of_front_long (next : front p (mem name).req = some m)
    (long : capacity < copySize p ((mem name).req.slots ((mem name).req.tail % p.slotCount))) :
    tryRecv ⟨name, p, true⟩ mem capacity = .error recvBufferTooSmall := by
  obtain ⟨pending, -⟩ := front_eq_some.mp next
  simp only [tryRecv, if_true, shmTryPopSlot]
  rw [if_neg (Nat.not_le.mpr pending), if_pos long]

/-- The memory after any pop of a request. -/
theorem mem_of_server_recv
    (received : tryRecv ⟨name, p, true⟩ mem capacity = .ok (some (m, mem'))) :
    mem' = takeRequest name mem := by
  simp only [tryRecv, if_true, shmTryPopSlot] at received
  by_cases nothing : (mem name).req.tail ≥ (mem name).req.head
  · rw [if_pos nothing] at received
    cases received
  · rw [if_neg nothing] at received
    by_cases long :
        copySize p ((mem name).req.slots ((mem name).req.tail % p.slotCount)) > capacity
    · rw [if_pos long] at received
      cases received
    · rw [if_neg long] at received
      cases received
      rfl

/-- A client's pop leaves every request ring as it was. -/
theorem client_recv_req (received : tryRecv ⟨name, p, false⟩ mem capacity = .ok (some (m, mem')))
    (n : CStr) : (mem' n).req = (mem n).req := by
  simp only [tryRecv, Bool.false_eq_true, if_false] at received
  split at received <;> cases received
  by_cases here : n = name
  · subst here
    rw [Function.update_self]
  · rw [Function.update_of_ne here]

theorem takeRequest_req (name : CStr) (mem : ShmMemory) (n : CStr) :
    (takeRequest name mem n).req = if n = name then poppedRing (mem n).req else (mem n).req := by
  unfold takeRequest
  by_cases here : n = name
  · subst here
    simp
  · simp [here]

end ShmSpsc

/-! ### What lies in front -/

/-- The region of a port. -/
abbrev Port.ring (port : Port) : CStr := port.2.name

/-- The port of a channel. -/
def PeerChannel.port (c : PeerChannel) : Port := (c.peerId, c.endpoint)

/-- The first of the peers that have this ring. -/
abbrev LeadsRing (ports : List Port) (port : Port) : Prop := Leads Port.ring ports port

/-- What a pop through this port would take. -/
def nextRequest (mem : ShmMemory) (port : Port) : Option Bytes :=
  front port.2.params (mem port.ring).req

/-- A frame is in front. -/
def FrameFirst (mem : ShmMemory) (port : Port) : Prop :=
  ∃ m ∈ nextRequest mem port, m.length = kRouterFrameSize

/-- A short message is in front, and another message behind it. -/
def Piled (mem : ShmMemory) (port : Port) : Prop :=
  (∃ m ∈ nextRequest mem port, m.length < kRouterFrameSize) ∧
    (mem port.ring).req.tail + 1 < (mem port.ring).req.head

instance (mem : ShmMemory) (port : Port) : Decidable (FrameFirst mem port) :=
  inferInstanceAs (Decidable (∃ m ∈ nextRequest mem port, m.length = kRouterFrameSize))

/-! ### Peers that were read -/

/-- What reading its leader has done to a ring: nothing, or it has lost its oldest message. -/
inductive RingRead (w₀ w : World) (taken : List Arrival) (port : Port) : Prop
  | idle (nothing : nextRequest w₀.mem port = none)
      (same : (w.mem port.ring).req = (w₀.mem port.ring).req)
  | took (a : Arrival) (logged : a ∈ taken) (source : a.source = port.1)
      (next : nextRequest w₀.mem port = some a.message)
      (popped : (w.mem port.ring).req = poppedRing (w₀.mem port.ring).req)

/-- The scan has read the rings of `ports`, in order and none twice. -/
structure ReadOnce (w₀ : World) (ports : List Port) (w : World) (taken : List Arrival) : Prop where
  arrivals : w.arrivals = w₀.arrivals ++ taken
  order : (taken.map (·.source)).Sublist (ports.map Prod.fst)
  oldest : ∀ a ∈ taken, ∃ port, LeadsRing ports port ∧ port.1 = a.source ∧
    nextRequest w₀.mem port = some a.message
  elsewhere : ∀ name, name ∉ ports.map Port.ring → (w.mem name).req = (w₀.mem name).req
  rings : ∀ port, LeadsRing ports port → RingRead w₀ w taken port
  once : ∀ before port, before ++ [port] <+: ports → ∀ leader, LeadsRing before leader →
    leader.ring = port.ring → ¬ Piled w₀.mem leader

/-- Nothing taken was a frame. -/
def OnlyShort (taken : List Arrival) : Prop := ∀ a ∈ taken, a.message.length < kRouterFrameSize

variable {w₀ w : World} {ports : List Port} {taken : List Arrival} {port : Port} {m : Bytes}

theorem readOnce_nil (w₀ : World) : ReadOnce w₀ [] w₀ [] where
  arrivals := (List.append_nil _).symm
  order := List.nil_sublist _
  oldest := nofun
  elsewhere _ _ := rfl
  rings _ leads := absurd leads.mem List.not_mem_nil
  once before port initial := by simp at initial

/-- No leader that the scan went past had a frame in front. -/
theorem ReadOnce.no_frame (read : ReadOnce w₀ ports w taken) (short : OnlyShort taken)
    (leads : LeadsRing ports port) : ¬ FrameFirst w₀.mem port := by
  rintro ⟨frame, next, whole⟩
  cases read.rings port leads with
  | idle nothing => simp [nothing] at next
  | took a logged _ next' =>
      have below := short a logged
      obtain rfl := Option.some.inj (next'.symm.trans next)
      omega

/-- A pop leaves the slots as they were. -/
theorem ReadOnce.slots (read : ReadOnce w₀ ports w taken) (name : CStr) :
    (w.mem name).req.slots = (w₀.mem name).req.slots := by
  by_cases inside : name ∈ ports.map Port.ring
  · obtain ⟨port, mem, rfl⟩ := List.mem_map.mp inside
    obtain ⟨leader, leads, same⟩ := exists_leads Port.ring mem
    rw [← same]
    cases read.rings leader leads with
    | idle _ same => rw [same]
    | took _ _ _ _ popped =>
        rw [popped]
        rfl
  · rw [read.elsewhere name inside]

theorem popped_tail {ring : ShmRing} (pending : ring.tail < ring.head)
    (below : ring.head < 2 ^ 64) :
    (poppedRing ring).tail = ring.tail + 1 :=
  Nat.mod_eq_of_lt (Nat.lt_of_le_of_lt pending below)

/-- A ring that has another message for a later peer was piled. -/
theorem RingRead.piled {leader : Port} (read : RingRead w₀ w taken leader) (short : OnlyShort taken)
    (same : leader.ring = port.ring) (below : (w₀.mem port.ring).req.head < 2 ^ 64)
    (next : nextRequest w.mem port = some m) :
    Piled w₀.mem leader ∧ leader.1 ∈ taken.map (·.source) := by
  have pending := (front_eq_some.mp next).1
  rw [← same] at pending below
  cases read with
  | idle nothing unread =>
      have empty := front_eq_none.mp nothing
      rw [unread] at pending
      omega
  | took a logged source next' popped =>
      have before := (front_eq_some.mp next').1
      rw [popped, popped_tail before below] at pending
      exact ⟨⟨⟨a.message, next', short a logged⟩, pending⟩, List.mem_map.mpr ⟨a, logged, source⟩⟩

/-- A ring that a later peer finds empty was empty, or held one message. -/
theorem RingRead.not_piled {leader : Port} (read : RingRead w₀ w taken leader)
    (same : leader.ring = port.ring) (below : (w₀.mem port.ring).req.head < 2 ^ 64)
    (nothing : nextRequest w.mem port = none) : ¬ Piled w₀.mem leader := by
  rintro ⟨⟨first, next, -⟩, behind⟩
  have empty := front_eq_none.mp nothing
  rw [← same] at empty below
  cases read with
  | idle nothing' => simp [nothing'] at next
  | took _ _ _ next' popped =>
      have before := (front_eq_some.mp next').1
      rw [popped, popped_tail before below] at empty
      simp only [poppedRing] at empty
      omega

/-- Reading a ring with nothing in it. -/
theorem ReadOnce.skip (read : ReadOnce w₀ ports w taken)
    (below : (w₀.mem port.ring).req.head < 2 ^ 64) (nothing : nextRequest w.mem port = none) :
    ReadOnce w₀ (ports ++ [port]) w taken where
  arrivals := read.arrivals
  order := by
    rw [List.map_append]
    exact read.order.trans (List.sublist_append_left _ _)
  oldest a mem := by
    obtain ⟨leader, leads, source, next⟩ := read.oldest a mem
    exact ⟨leader, leads.append [port], source, next⟩
  elsewhere name outside := by
    rw [List.map_append, List.mem_append, not_or] at outside
    exact read.elsewhere name outside.1
  rings other leads := by
    rcases leads.of_concat with earlier | ⟨rfl, new⟩
    · exact read.rings other earlier
    · have same := read.elsewhere other.ring new
      refine .idle ?_ same
      rwa [nextRequest, same] at nothing
  once before last initial leader leads same := by
    rcases List.prefix_concat_iff.mp initial with whole | earlier
    · obtain ⟨rfl, rfl⟩ := List.append_inj' whole rfl |>.imp id List.singleton_inj.mp
      exact (read.rings leader leads).not_piled same below nothing
    · exact read.once before last earlier leader leads same

/-- Taking the oldest message of a ring not read before. -/
theorem ReadOnce.take (read : ReadOnce w₀ ports w taken) (ts : UInt64)
    (new : port.ring ∉ ports.map Port.ring) (next : nextRequest w.mem port = some m) :
    ReadOnce w₀ (ports ++ [port])
      { w with mem := takeRequest port.ring w.mem, arrivals := w.arrivals ++ [⟨port.1, m, ts⟩] }
      (taken ++ [⟨port.1, m, ts⟩]) := by
  have same := read.elsewhere port.ring new
  have next₀ : nextRequest w₀.mem port = some m := by rwa [nextRequest, same] at next
  refine ⟨?_, ?_, ?_, ?_, ?_, ?_⟩
  · rw [read.arrivals, List.append_assoc]
  · rw [List.map_append, List.map_append]
    exact read.order.append (List.Sublist.refl _)
  · intro a mem
    rcases List.mem_append.mp mem with earlier | last
    · obtain ⟨leader, leads, source, oldest⟩ := read.oldest a earlier
      exact ⟨leader, leads.append [port], source, oldest⟩
    · obtain rfl := List.mem_singleton.mp last
      exact ⟨port, leads_of_new new [], rfl, next₀⟩
  · intro name outside
    rw [List.map_append, List.mem_append, not_or] at outside
    have apart : name ≠ port.ring := fun here => outside.2 (by simp [here])
    rw [takeRequest_req, if_neg apart]
    exact read.elsewhere name outside.1
  · intro other leads
    rcases leads.of_concat with earlier | ⟨rfl, -⟩
    · have apart : other.ring ≠ port.ring :=
        fun here => new (here ▸ List.mem_map_of_mem earlier.mem)
      cases read.rings other earlier with
      | idle nothing unread =>
          exact .idle nothing (by rw [takeRequest_req, if_neg apart, unread])
      | took a logged source next popped =>
          exact .took a (List.mem_append_left _ logged) source next
            (by rw [takeRequest_req, if_neg apart, popped])
    · refine .took ⟨other.1, m, ts⟩ (by simp) rfl next₀ ?_
      rw [takeRequest_req, if_pos rfl, same]
  · intro before last initial leader leads sameRing
    rcases List.prefix_concat_iff.mp initial with whole | earlier
    · obtain ⟨rfl, rfl⟩ := List.append_inj' whole rfl |>.imp id List.singleton_inj.mp
      exact absurd (sameRing ▸ List.mem_map_of_mem leads.mem) new
    · exact read.once before last earlier leader leads sameRing

/-! ### The scan -/

/-- How a scan of `ports` from the world `w₀` can go. -/
inductive ScanTrace (w₀ : World) (ts : UInt64) (ports : List Port) (r : Outcome ShmState UInt8) :
    Prop
  | empty {taken : List Arrival} (read : ReadOnce w₀ ports r.state.world taken)
      (short : OnlyShort taken) (result : r.result = .ok kEndpointInvalid)
  | found {before : List Port} {port : Port} {taken : List Arrival} {frame : Bytes}
      (initial : before ++ [port] <+: ports)
      (read : ReadOnce w₀ (before ++ [port]) r.state.world (taken ++ [⟨port.1, frame, ts⟩]))
      (short : OnlyShort taken) (leads : LeadsRing (before ++ [port]) port)
      (next : nextRequest w₀.mem port = some frame) (whole : frame.length = kRouterFrameSize)
      (result : r.result = .ok port.1)
  | again {before : List Port} {port leader : Port} {w : World} {taken more : List Arrival}
      (initial : before ++ [port] <+: ports) (read : ReadOnce w₀ before w taken)
      (short : OnlyShort taken) (leads : LeadsRing before leader) (same : leader.ring = port.ring)
      (piled : Piled w₀.mem leader) (logged : leader.1 ∈ taken.map (·.source))
      (arrivals : r.state.world.arrivals = w₀.arrivals ++ (taken ++ more))
      (second : port.1 ∈ more.map (·.source))

theorem scan_grows (ts : UInt64) (channels : List PeerChannel) (s : ShmState) :
    ∃ more, (scanChannels ts channels s).state.world.arrivals = s.world.arrivals ++ more := by
  obtain ⟨shorts, spec⟩ := scanChannels_spec (s := s) (popPreserves_true ts channels) trivial
  cases spec.result with
  | empty _ arrivals | thrown _ _ arrivals | frame _ _ _ _ arrivals => exact ⟨_, arrivals⟩

/-- A peer that gets something of a ring read before gets its second message. -/
theorem ReadOnce.again {all before : List Port} {r : Outcome ShmState UInt8} {ts : UInt64}
    {more : List Arrival} (read : ReadOnce w₀ before w taken) (short : OnlyShort taken)
    (initial : before ++ [port] <+: all) (old : port.ring ∈ before.map Port.ring)
    (below : (w₀.mem port.ring).req.head < 2 ^ 64) (next : nextRequest w.mem port = some m)
    (grown : r.state.world.arrivals = w.arrivals ++ ⟨port.1, m, ts⟩ :: more) :
    ScanTrace w₀ ts all r := by
  obtain ⟨earlier, mem, sameRing⟩ := List.mem_map.mp old
  obtain ⟨leader, leads, same⟩ := exists_leads Port.ring mem
  have same := same.trans sameRing
  obtain ⟨piled, logged⟩ := (read.rings leader leads).piled short same below next
  have second : port.1 ∈ (⟨port.1, m, ts⟩ :: more : List Arrival).map (·.source) :=
    List.mem_cons_self
  refine .again initial read short leads same piled logged ?_ second
  rw [grown, read.arrivals, List.append_assoc]

/-- Once `before` has been read, the rest of the scan goes one of the three ways. -/
theorem scan_trace {before : List Port} {channels : List PeerChannel} {s : ShmState} (ts : UInt64)
    (read : ReadOnce w₀ before s.world taken) (short : OnlyShort taken)
    (server : ∀ c ∈ channels, c.endpoint.isServerRole = true)
    (below : ∀ c ∈ channels, (w₀.mem c.port.ring).req.head < 2 ^ 64)
    (fits : ∀ c ∈ channels, ∀ index,
      ((w₀.mem c.port.ring).req.slots index).len ≤ kRouterFrameSize) :
    ScanTrace w₀ ts (before ++ channels.map PeerChannel.port) (scanChannels ts channels s) := by
  induction channels generalizing before s taken with
  | nil =>
      rw [List.map_nil, List.append_nil]
      exact .empty read short rfl
  | cons c rest ih =>
      have handle : c.endpoint = ⟨c.port.ring, c.port.2.params, true⟩ :=
        ShmRegion.eq_server (server c List.mem_cons_self)
      have initial : before ++ [c.port] <+: before ++ (c :: rest).map PeerChannel.port :=
        ⟨rest.map PeerChannel.port, by simp⟩
      have later : before ++ (c :: rest).map PeerChannel.port =
          before ++ [c.port] ++ rest.map PeerChannel.port := by simp
      have step := fun {s : ShmState} {taken : List Arrival}
          (read : ReadOnce w₀ (before ++ [c.port]) s.world taken) (short : OnlyShort taken) =>
        ih read short (fun c' mem => server c' (List.mem_cons_of_mem c mem))
          (fun c' mem => below c' (List.mem_cons_of_mem c mem))
          (fun c' mem => fits c' (List.mem_cons_of_mem c mem))
      have below := below c List.mem_cons_self
      unfold scanChannels
      rw [handle]
      cases next : nextRequest s.world.mem c.port with
      | none =>
          rw [recv_of_front_none next, later]
          exact step (read.skip below next) short
      | some m =>
          have small : ∀ index,
              ((s.world.mem c.port.ring).req.slots index).len ≤ kRouterFrameSize := by
            intro index
            rw [read.slots]
            exact fits c List.mem_cons_self index
          have received := recv_of_front_some next (Nat.le_trans (Nat.min_le_left _ _) (small _))
          have bound := length_of_tryRecv received
          rw [received]
          dsimp only
          by_cases old : c.port.ring ∈ before.map Port.ring
          · -- The ring was led by a peer before, and this is the second pop of it.
            split
            · obtain ⟨more, grown⟩ := scan_grows ts rest
                (s.took ts c m (takeRequest c.port.ring s.world.mem)).countTruncated
              exact read.again short initial old below next
                (grown.trans (List.append_assoc _ [⟨c.peerId, m, ts⟩] more))
            · exact read.again short initial old below next rfl
          · have took := read.take ts old next
            by_cases isShort : m.length < kRouterFrameSize
            · rw [if_pos isShort, later]
              refine step took ?_
              intro a mem
              rcases List.mem_append.mp mem with earlier | last
              · exact short a earlier
              · obtain rfl := List.mem_singleton.mp last
                exact isShort
            · rw [if_neg isShort]
              have whole : m.length = kRouterFrameSize := by omega
              rw [nextRequest, read.elsewhere _ old] at next
              exact .found initial took short (leads_of_new old []) next whole rfl

/-! ### What a scan takes -/

instance (mem : ShmMemory) (port : Port) : Decidable (Oversized mem port) :=
  inferInstanceAs (Decidable (_ ∧ _))

/-- What a scan takes off the rings as it finds them: one message of each peer's in turn, until
it has a frame or comes to a message that is longer. -/
def scanTakes (ts : UInt64) : List Port → ShmMemory → List Arrival
  | [], _ => []
  | port :: rest, mem =>
      match nextRequest mem port with
      | none => scanTakes ts rest mem
      | some m =>
          if Oversized mem port then []
          else if m.length < kRouterFrameSize then
            ⟨port.1, m, ts⟩ :: scanTakes ts rest (takeRequest port.ring mem)
          else [⟨port.1, m, ts⟩]

/-- The arrivals of a scan are what lay in the rings, under the name of the ring's peer. -/
theorem scanChannels_takes (ts : UInt64) {channels : List PeerChannel} {s : ShmState}
    (server : ∀ c ∈ channels, c.endpoint.isServerRole = true) :
    (scanChannels ts channels s).state.world.arrivals =
      s.world.arrivals ++ scanTakes ts (channels.map PeerChannel.port) s.world.mem := by
  induction channels generalizing s with
  | nil => simp [scanChannels, scanTakes]
  | cons c rest ih =>
      have handle : c.endpoint = ⟨c.port.ring, c.port.2.params, true⟩ :=
        ShmRegion.eq_server (server c List.mem_cons_self)
      have later := fun {s : ShmState} =>
        ih (s := s) fun c' mem => server c' (List.mem_cons_of_mem c mem)
      rw [List.map_cons]
      unfold scanChannels scanTakes
      rw [handle]
      cases next : nextRequest s.world.mem c.port with
      | none =>
          rw [recv_of_front_none next]
          exact later
      | some m =>
          by_cases oversized : Oversized s.world.mem c.port
          · rw [recv_of_front_long next oversized.2]
            simp [oversized]
          · have pending := (front_eq_some.mp next).1
            have fits : copySize c.port.2.params ((s.world.mem c.port.ring).req.slots
                ((s.world.mem c.port.ring).req.tail % c.port.2.params.slotCount)) ≤
                  kRouterFrameSize :=
              Nat.not_lt.mp fun long => oversized ⟨pending, long⟩
            rw [recv_of_front_some next fits]
            simp only [oversized, if_false]
            by_cases short : m.length < kRouterFrameSize
            · simp only [short, if_true]
              rw [later, List.append_cons]
              rfl
            · simp only [short, if_false]
              rfl

/-! ### When a scan is exact -/

/-- No scan takes two messages of one ring: where a second peer comes to a ring with more
behind a short message, the scan has ended before. -/
def NoSecondRead (mem : ShmMemory) (ports : List Port) : Prop :=
  ∀ before port, before ++ [port] <+: ports → ∀ leader, LeadsRing before leader →
    leader.ring = port.ring → Piled mem leader →
      ∃ ready, LeadsRing before ready ∧ FrameFirst mem ready

/-- No frame is hidden behind a short message: a ring has one in front, or no ring holds one. -/
def NothingHidden (mem : ShmMemory) (ports : List Port) : Prop :=
  (∃ port ∈ ports, LeadsRing ports port ∧ FrameFirst mem port) ∨
    ∀ port ∈ ports, ∀ m ∈ queued port.2.params (mem port.ring).req, m.length ≠ kRouterFrameSize

deriving instance DecidableEq for ShmRegion

instance (ports : List Port) (port : Port) : Decidable (LeadsRing ports port) :=
  inferInstanceAs (Decidable (_ = _))

instance (mem : ShmMemory) (ports : List Port) : Decidable (NothingHidden mem ports) :=
  inferInstanceAs (Decidable (_ ∨ _))

/-- A scan that went past every peer read no ring twice. -/
theorem ReadOnce.noSecondRead (read : ReadOnce w₀ ports w taken) : NoSecondRead w₀.mem ports :=
  fun before port initial leader leads same piled =>
    absurd piled (read.once before port initial leader leads same)

/-- Nor did one that ended at a frame. -/
theorem ReadOnce.noSecondRead_of_frame {all : List Port} (read : ReadOnce w₀ ports w taken)
    (initial : ports <+: all) (leads : LeadsRing ports port) (frame : FrameFirst w₀.mem port) :
    NoSecondRead w₀.mem all := by
  intro before other initial' leader leadsOther same piled
  rcases List.prefix_or_prefix_of_prefix initial' initial with early | late
  · exact absurd piled (read.once before other early leader leadsOther same)
  · rcases List.prefix_concat_iff.mp late with whole | ⟨between, earlier⟩
    · have here : before ++ [other] <+: ports := whole ▸ List.prefix_refl _
      exact absurd piled (read.once before other here leader leadsOther same)
    · exact ⟨port, earlier ▸ leads.append between, frame⟩

/-- Rings of their own are read once. -/
theorem noSecondRead_of_nodup (mem : ShmMemory) (names : (ports.map Port.ring).Nodup) :
    NoSecondRead mem ports := by
  intro before port initial leader leads same
  have distinct := (initial.sublist.map Port.ring).nodup names
  rw [List.map_append] at distinct
  have apart := (List.nodup_append.mp distinct).2.2 _ (List.mem_map_of_mem leads.mem) port.ring
    (List.mem_singleton_self _)
  exact absurd same apart

end RoboticsIpc
