import RoboticsIpc.Lib.ServiceLoop
import RoboticsIpc.Router.MixedRouterServer

/-!
The service loops: `RouterServer::run` (`router/node.hpp`) over any link, and
`MixedRouterServer::run`.

An iteration is given what the environment does in it: the readings of the two
clocks, what `recvfrom` finds, which `sendto` succeed and what the clients have
done to the shared memory. The stop flag is set when the iterations are used up.
-/

namespace RoboticsIpc

open ServiceLoop ShmSpsc

/-- The options a loop reads to decide whether to go on. -/
structure RouterRunOptions where
  /-- In milliseconds; no limit unless positive. -/
  idleExitMs : Int := 0

/-- Why a loop was left. -/
inductive RunEnd where
  | stopFlag
  | idleExpired
  | thrown (e : RuntimeError)
deriving DecidableEq

/-- `router_idle_expired`, where `now` is what `steady_clock::now` reads, in nanoseconds. -/
def routerIdleExpired (last limitMs now : Int) : Bool := now - last > limitMs * 1000000

/-- The condition of the idle `return`. -/
def RouterRunOptions.idleExit (opts : RouterRunOptions) (last now : Int) : Bool :=
  opts.idleExitMs > 0 && routerIdleExpired last opts.idleExitMs now

/-- A server inside its loop: `last_activity` is a local variable. -/
structure Running (Server : Type) where
  server : LinkState Server
  lastActivity : Int

/-! ### One transport -/

/-- One iteration's surroundings: what its `forward` is called with, and the reading
of `steady_clock`. -/
structure Tick (Input : Type) where
  input : Input
  clock : Int

section RouterServer

variable {Link Input : Type}

/-- The body of the loop of `RouterServer::run`. -/
def RouterServer.iterate (opts : RouterRunOptions)
    (forward : Input → LinkState Link → Outcome (LinkState Link) ForwardResult)
    (tick : Tick Input) (s : Running Link) : Step (Running Link) RunEnd :=
  match forward tick.input s.server with
  | ⟨server, .ok fwd⟩ =>
      if fwd.source ≠ kEndpointInvalid then
        .next ⟨server.report fwd, tick.clock⟩
      else if opts.idleExit s.lastActivity tick.clock then
        .leave .idleExpired { s with server }
      else
        .next { s with server }
  | ⟨server, .error _⟩ =>
      -- `catch (const std::runtime_error&)`
      if opts.idleExit s.lastActivity tick.clock then
        .leave .idleExpired { s with server }
      else
        .next { s with server }

/-- `RouterServer::run`. -/
def RouterServer.run (opts : RouterRunOptions)
    (forward : Input → LinkState Link → Outcome (LinkState Link) ForwardResult)
    (ticks : List (Tick Input)) (s : Running Link) : RunEnd × Running Link :=
  runLoop (RouterServer.iterate opts forward) .stopFlag ticks s

end RouterServer

/-- What one `DatagramRouterLink::forward` finds. -/
structure DatagramCall (T : DatagramTransport) where
  now : UInt64
  recv : Recvfrom T
  sendto : UInt8 → Bool

def DatagramCall.forward {T : DatagramTransport} (rules : List RouteRule) (call : DatagramCall T)
    (server : DatagramState T) : Outcome (DatagramState T) ForwardResult :=
  DatagramState.forward server call.now rules call.recv call.sendto

/-- `RouterServer<DatagramRouterLink<T>>::run`. -/
def DatagramRouterServer.run {T : DatagramTransport} (opts : RouterRunOptions)
    (rules : List RouteRule) (ticks : List (Tick (DatagramCall T)))
    (s : Running (DatagramRouterLink T)) : RunEnd × Running (DatagramRouterLink T) :=
  RouterServer.run opts (DatagramCall.forward rules) ticks s

/-- The iterations a run starts. -/
def DatagramRouterServer.iterations {T : DatagramTransport} (opts : RouterRunOptions)
    (rules : List RouteRule) (ticks : List (Tick (DatagramCall T)))
    (s : Running (DatagramRouterLink T)) :
    List (Tick (DatagramCall T) × Running (DatagramRouterLink T)) :=
  ServiceLoop.iterations (RouterServer.iterate opts (DatagramCall.forward rules)) ticks s

/-! ### All transports -/

/-- What happens around one poll: the clients' work on the shared memory before it
and the kernel's answers to its `sendto`. -/
structure Surroundings where
  clients : ShmMemory → ShmMemory
  sendto : UInt8 → Bool

/-- One pass of the mixed loop. -/
structure Pass where
  now : UInt64
  shm : Surroundings
  uds : Surroundings
  udsRecv : Recvfrom .uds
  udp : Surroundings
  udpRecv : Recvfrom .udp
  clock : Int

def LinkState.clientsRan {Link : Type} (s : LinkState Link) (clients : ShmMemory → ShmMemory) :
    LinkState Link :=
  { s with world := { s.world with mem := clients s.world.mem } }

namespace MixedState

/-- `if (shm_) poll_link(*shm_, ..)`. -/
def pollShm (rules : List RouteRule) (now : UInt64) (around : Surroundings) (s : MixedState) :
    Outcome MixedState Bool :=
  pollLink shmSlot rules around.sendto (fun l => ShmState.tryReceive l now)
    (s.clientsRan around.clients)

/-- `if (uds_) poll_link(*uds_, ..)`, and the same for `udp_`. -/
def pollDatagram {T : DatagramTransport} (rules : List RouteRule) (now : UInt64)
    (around : Surroundings) (recv : Recvfrom T) (s : MixedState) : Outcome MixedState Bool :=
  pollLink (datagramSlot T) rules around.sendto (fun l => DatagramState.tryReceive l now recv)
    (s.clientsRan around.clients)

/-- The three polls of a pass, and whether one of them did work. -/
def pollAll (rules : List RouteRule) (pass : Pass) (s : MixedState) : Outcome MixedState Bool :=
  match s.pollShm rules pass.now pass.shm with
  | ⟨s, .error e⟩ => ⟨s, .error e⟩
  | ⟨s, .ok shmWork⟩ =>
      match s.pollDatagram rules pass.now pass.uds pass.udsRecv with
      | ⟨s, .error e⟩ => ⟨s, .error e⟩
      | ⟨s, .ok udsWork⟩ =>
          match s.pollDatagram rules pass.now pass.udp pass.udpRecv with
          | ⟨s, .error e⟩ => ⟨s, .error e⟩
          | ⟨s, .ok udpWork⟩ => ⟨s, .ok (shmWork || udsWork || udpWork)⟩

end MixedState

/-- The body of the loop of `MixedRouterServer::run`: nothing catches an exception. -/
def MixedRouterServer.iterate (opts : RouterRunOptions) (rules : List RouteRule) (pass : Pass)
    (s : Running MixedRouterServer) : Step (Running MixedRouterServer) RunEnd :=
  match MixedState.pollAll rules pass s.server with
  | ⟨server, .error e⟩ => .leave (.thrown e) { s with server }
  | ⟨server, .ok didWork⟩ =>
      if didWork then
        .next ⟨server, pass.clock⟩
      else if opts.idleExit s.lastActivity pass.clock then
        .leave .idleExpired { s with server }
      else
        .next { s with server }

/-- `MixedRouterServer::run`. -/
def MixedRouterServer.run (opts : RouterRunOptions) (rules : List RouteRule) (passes : List Pass)
    (s : Running MixedRouterServer) : RunEnd × Running MixedRouterServer :=
  runLoop (MixedRouterServer.iterate opts rules) .stopFlag passes s

/-- The passes a run starts. -/
def MixedRouterServer.iterations (opts : RouterRunOptions) (rules : List RouteRule)
    (passes : List Pass) (s : Running MixedRouterServer) : List (Pass × Running MixedRouterServer) :=
  ServiceLoop.iterations (MixedRouterServer.iterate opts rules) passes s

/-! ### One iteration, said once -/

section Iterations

variable {Link Input : Type}

/-- The call has forwarded a frame, or taken one that matches no rule. -/
def Forwarded (r : Outcome (LinkState Link) ForwardResult) : Prop :=
  ∃ fwd, r.result = .ok fwd ∧ fwd.source ≠ kEndpointInvalid

/-- The ways an iteration of a single-transport server can go: it always reports, it leaves
only when there was nothing to forward and the idle limit has expired. -/
inductive IterateCases (opts : RouterRunOptions) (clock : Int) (s : Running Link)
    (r : Outcome (LinkState Link) ForwardResult) : Step (Running Link) RunEnd → Prop
  | active (forwarded : Forwarded r) : IterateCases opts clock s r (.next ⟨reportForward r, clock⟩)
  | idle (quiet : ¬ Forwarded r) :
      IterateCases opts clock s r (.next ⟨reportForward r, s.lastActivity⟩)
  | expired (quiet : ¬ Forwarded r) (limited : 0 < opts.idleExitMs)
      (late : opts.idleExitMs * 1000000 < clock - s.lastActivity) :
      IterateCases opts clock s r (.leave .idleExpired ⟨reportForward r, s.lastActivity⟩)

theorem RouterRunOptions.idleExit_iff {opts : RouterRunOptions} {last now : Int} :
    opts.idleExit last now = true ↔
      0 < opts.idleExitMs ∧ opts.idleExitMs * 1000000 < now - last := by
  simp [RouterRunOptions.idleExit, routerIdleExpired]

theorem RouterServer.iterate_cases (opts : RouterRunOptions)
    (forward : Input → LinkState Link → Outcome (LinkState Link) ForwardResult)
    (tick : Tick Input) (s : Running Link) :
    IterateCases opts tick.clock s (forward tick.input s.server)
      (RouterServer.iterate opts forward tick s) := by
  unfold RouterServer.iterate
  generalize forward tick.input s.server = r
  obtain ⟨server, result⟩ := r
  -- Nothing was forwarded: the loop looks at its clock.
  have wait : ¬ Forwarded (⟨server, result⟩ : Outcome (LinkState Link) ForwardResult) →
      reportForward ⟨server, result⟩ = server →
      IterateCases opts tick.clock s ⟨server, result⟩
        (if opts.idleExit s.lastActivity tick.clock then .leave .idleExpired { s with server }
        else .next { s with server }) := by
    intro quiet unreported
    by_cases expired : opts.idleExit s.lastActivity tick.clock = true
    · obtain ⟨limited, late⟩ := RouterRunOptions.idleExit_iff.mp expired
      rw [if_pos expired]
      have leaves : IterateCases opts tick.clock s ⟨server, result⟩ _ :=
        .expired quiet limited late
      rwa [unreported] at leaves
    · rw [if_neg expired]
      have waits : IterateCases opts tick.clock s ⟨server, result⟩ _ := .idle quiet
      rwa [unreported] at waits
  cases result with
  | ok fwd =>
      by_cases invalid : fwd.source = kEndpointInvalid
      · simp only [invalid, ne_eq, not_true, if_false]
        refine wait ?_ (by simp [reportForward, invalid])
        rintro ⟨fwd', same, valid⟩
        cases same
        exact valid invalid
      · simp only [invalid, ne_eq, not_false_eq_true, if_true]
        have goes : IterateCases opts tick.clock s ⟨server, .ok fwd⟩ _ :=
          .active ⟨fwd, rfl, invalid⟩
        have reported : reportForward ⟨server, .ok fwd⟩ = server.report fwd := by
          simp [reportForward, invalid]
        rwa [reported] at goes
  | error e =>
      refine wait ?_ rfl
      rintro ⟨fwd, same, -⟩
      cases same

end Iterations

end RoboticsIpc
