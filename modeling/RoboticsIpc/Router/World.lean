import RoboticsIpc.Ipc.ShmSpsc
import RoboticsIpc.Lib.FanOut
import RoboticsIpc.Router.Routing

/-!
What a router's links act on, and the logs kept of it.

`World` is the shared memory together with three ghost logs: every message taken
off a ring or a socket, every frame copy placed in a ring or accepted by
`sendto`, and every `on_forward` call. No step reads a log; statements about
whole runs do.

`deliveries` is the router's purpose as a fan-out: a message that is a whole frame
goes to the destinations of the first rule matching its source and topic,
stamped with that source and the time of its receipt.
-/

namespace RoboticsIpc

open ByteBuffer FanOut

/-- A message as a link took it in: the peer it is attributed to, its bytes and
the timestamp of the call. -/
structure Arrival where
  source : UInt8
  message : Bytes
  timestamp : UInt64

structure World where
  mem : ShmSpsc.ShmMemory
  arrivals : List Arrival := []
  handed : List (UInt8 × Bytes) := []
  reported : List (UInt8 × UInt8) := []

/-- A link in use: the caller's scratch frame and the world around. -/
structure LinkState (Link : Type) where
  link : Link
  frame : RouterFrame
  world : World

/-- `for (dest : fwd.targets) on_forward(fwd.source, dest, frame);`. -/
def LinkState.report {Link : Type} (s : LinkState Link) (fwd : ForwardResult) : LinkState Link :=
  { s with world := { s.world with
      reported := s.world.reported ++ fwd.targets.list.map fun d => (fwd.source, d) } }

/-- What `RouterServer::run` does with the outcome of `forward`: it reports each
target of a result that has a source, and swallows exceptions. -/
def reportForward {Link : Type} (r : Outcome (LinkState Link) ForwardResult) : LinkState Link :=
  match r.result with
  | .error _ => r.state
  | .ok fwd => if fwd.source = kEndpointInvalid then r.state else r.state.report fwd

/-! ### What a router is for -/

/-- The destinations of an arrival; a message of another length is no frame. -/
def Arrival.route (rules : List RouteRule) (a : Arrival) : List UInt8 :=
  if a.message.length = kRouterFrameSize then
    routedTo rules a.source (frameTopic a.message)
  else
    []

/-- The frame a destination is handed. -/
def Arrival.frame (a : Arrival) : Bytes := stamped a.source a.timestamp a.message

/-- All the frame copies a lossless router makes. -/
def deliveries (rules : List RouteRule) (arrivals : List Arrival) : List (UInt8 × Bytes) :=
  copies (Arrival.route rules) Arrival.frame arrivals

/-- The frames due to peer `d`. -/
def dueTo (rules : List RouteRule) (arrivals : List Arrival) (d : UInt8) : List Bytes :=
  delivered (Arrival.route rules) Arrival.frame arrivals d

/-- The reports a router owes for what has arrived. -/
def reports (rules : List RouteRule) (arrivals : List Arrival) : List (UInt8 × UInt8) :=
  arrivals.flatMap fun a => (a.route rules).map fun d => (a.source, d)

/-- The messages of one source, in order of arrival. -/
def arrivedFrom (arrivals : List Arrival) (source : UInt8) : List Bytes :=
  (arrivals.filter fun a => a.source = source).map (·.message)

/-- What arrived between two worlds. -/
def arrivedSince (w₀ w : World) : List Arrival := w.arrivals.drop w₀.arrivals.length

theorem arrivedSince_eq {w₀ w : World} {popped : List Arrival}
    (grown : w.arrivals = w₀.arrivals ++ popped) : arrivedSince w₀ w = popped := by
  rw [arrivedSince, grown, List.drop_left]

theorem arrivedFrom_append {before after : List Arrival} {source : UInt8} :
    arrivedFrom (before ++ after) source = arrivedFrom before source ++ arrivedFrom after source := by
  simp [arrivedFrom, List.filter_append]

theorem arrivedFrom_singleton {a : Arrival} {source : UInt8} :
    arrivedFrom [a] source = if a.source = source then [a.message] else [] := by
  unfold arrivedFrom
  by_cases same : a.source = source <;> simp [same]

theorem deliveries_append {rules : List RouteRule} {before after : List Arrival} :
    deliveries rules (before ++ after) = deliveries rules before ++ deliveries rules after :=
  copies_append

theorem reports_append {rules : List RouteRule} {before after : List Arrival} :
    reports rules (before ++ after) = reports rules before ++ reports rules after :=
  List.flatMap_append

theorem reports_eq_nil {rules : List RouteRule} {arrivals : List Arrival}
    (silent : ∀ a ∈ arrivals, a.route rules = []) : reports rules arrivals = [] := by
  rw [reports, List.flatMap_eq_nil_iff]
  intro a mem
  rw [silent a mem, List.map_nil]

theorem reports_singleton {rules : List RouteRule} {a : Arrival} :
    reports rules [a] = (a.route rules).map fun d => (a.source, d) := by
  simp [reports]

theorem Arrival.route_of_short {rules : List RouteRule} {a : Arrival}
    (short : a.message.length < kRouterFrameSize) : a.route rules = [] :=
  if_neg (Nat.ne_of_lt short)

theorem Arrival.route_of_whole {rules : List RouteRule} {a : Arrival}
    (whole : a.message.length = kRouterFrameSize) :
    a.route rules = routedTo rules a.source (frameTopic a.message) :=
  if_pos whole

theorem whole_of_routed {rules : List RouteRule} {a : Arrival} {p : UInt8}
    (routed : p ∈ a.route rules) : a.message.length = kRouterFrameSize := by
  by_contra none
  simp [Arrival.route, none] at routed

/-- A frame that is due is a whole one. -/
theorem whole_of_due {rules : List RouteRule} {arrivals : List Arrival} {p : UInt8} {frame : Bytes}
    (due : frame ∈ dueTo rules arrivals p) : frame.length = kRouterFrameSize := by
  obtain ⟨a, listed, rfl⟩ := List.mem_map.mp due
  simp only [List.mem_filter, decide_eq_true_eq] at listed
  exact (RouterFrame.stamp a.source a.timestamp ⟨a.message, whole_of_routed listed.2⟩).size

section Reports

variable {Link : Type} (r : Outcome (LinkState Link) ForwardResult)

/-- Reporting adds to the log of reports, and touches nothing else. -/
theorem reportForward_spec : ∃ pairs, reportForward r = { r.state with
    world := { r.state.world with reported := r.state.world.reported ++ pairs } } := by
  unfold reportForward
  cases r.result with
  | error e => exact ⟨[], by simp⟩
  | ok fwd =>
      by_cases none : fwd.source = kEndpointInvalid
      · exact ⟨[], by simp [none]⟩
      · exact ⟨_, if_neg none⟩

@[simp] theorem reportForward_link : (reportForward r).link = r.state.link := by
  obtain ⟨pairs, eq⟩ := reportForward_spec r
  rw [eq]

@[simp] theorem reportForward_mem : (reportForward r).world.mem = r.state.world.mem := by
  obtain ⟨pairs, eq⟩ := reportForward_spec r
  rw [eq]

@[simp] theorem reportForward_arrivals :
    (reportForward r).world.arrivals = r.state.world.arrivals := by
  obtain ⟨pairs, eq⟩ := reportForward_spec r
  rw [eq]

@[simp] theorem reportForward_handed : (reportForward r).world.handed = r.state.world.handed := by
  obtain ⟨pairs, eq⟩ := reportForward_spec r
  rw [eq]

end Reports

/-! ### Loops that may throw -/

/-- `for (x : xs) step(x);`: an exception leaves the loop with what was done. -/
def forEach {State Elem : Type} (step : State → Elem → Outcome State Unit) :
    List Elem → State → Outcome State Unit
  | [], s => ⟨s, .ok ()⟩
  | x :: xs, s =>
      match step s x with
      | ⟨s, .error e⟩ => ⟨s, .error e⟩
      | ⟨s, .ok ()⟩ => forEach step xs s

/-- What every iteration relates, the loop relates, however it ends. -/
theorem forEach_rel {State Elem : Type} {step : State → Elem → Outcome State Unit}
    {R : State → State → Prop} (refl : ∀ s, R s s)
    (trans : ∀ {s s' s''}, R s s' → R s' s'' → R s s'')
    (each : ∀ s x, R s (step s x).state) (xs : List Elem) (s : State) :
    R s (forEach step xs s).state := by
  induction xs generalizing s with
  | nil => exact refl s
  | cons x xs ih =>
      have one := each s x
      unfold forEach
      cases stepped : step s x with
      | mk mid result =>
          rw [stepped] at one
          cases result with
          | error e => exact one
          | ok u => exact trans one (ih mid)

end RoboticsIpc
