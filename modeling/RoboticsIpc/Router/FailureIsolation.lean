import RoboticsIpc.Router.MixedPoll

/-!
What a failing send costs, over whole runs of the datagram and mixed servers.

`RouterServer::run` catches what `forward` throws: over datagrams its loop ends by
the stop flag or the idle limit only, but a refused copy costs the targets listed
after it their copies. So it does in a poll of `MixedRouterServer::run`, which goes
on like the other loop as long as nothing is refused (`Calm`).
-/

namespace RoboticsIpc

open ByteBuffer FanOut ServiceLoop ShmSpsc

variable {T : DatagramTransport} {opts : RouterRunOptions} {t : LoadedTopology} {started : Int}

/-! ### Datagrams -/

/-- The copies one iteration makes: those for the targets before the first one the
kernel refuses. -/
def reached (rules : List RouteRule) (topo : RouterTopology) (call : DatagramCall T) :
    List (UInt8 × Bytes) :=
  match call.recv with
  | .none | .failed => []
  | .datagram sender bytes =>
      let a := arrivalOf topo call.now sender bytes
      ((a.route rules).takeWhile (delivers topo call.sendto)).map fun d => (d, a.frame)

/-- It takes a frame, and the kernel takes all its copies. -/
def DatagramCall.forwards (t : LoadedTopology) (call : DatagramCall T) : Bool :=
  match call.recv with
  | .none | .failed => false
  | .datagram sender bytes =>
      let a := arrivalOf t.view call.now sender bytes
      decide a.IsFrame && (a.route t.routes).all (delivers t.view call.sendto)

/-- The idle limit has expired for a datagram server that has served `served`. -/
def DatagramIdle (opts : RouterRunOptions) (t : LoadedTopology) (started : Int)
    (served : List (Tick (DatagramCall T))) : Prop :=
  0 < opts.idleExitMs ∧ IdleFor (fun tick => tick.input.forwards t) Tick.clock started
    (opts.idleExitMs * 1000000) served

/-- A run of `RouterServer` over datagrams that has served `served`: whom it reached, and
why it ended. -/
structure DatagramServed (opts : RouterRunOptions) (t : LoadedTopology) (started : Int)
    (ticks served : List (Tick (DatagramCall T)))
    (r : RunEnd × Running (DatagramRouterLink T)) : Prop where
  initial : served <+: ticks
  handed : r.2.server.world.handed = served.flatMap fun tick => reached t.routes t.view tick.input
  ended : (r.1 = .stopFlag ∧ served = ticks) ∨
    (r.1 = .idleExpired ∧ DatagramIdle opts t started served)

/-- A server link of the profile, whose copies are those of the iterations served. -/
structure DatagramInv (t : LoadedTopology) (started : Int)
    (served : List (Tick (DatagramCall T))) (s : Running (DatagramRouterLink T)) : Prop where
  topo : s.server.link.topo = t.view
  server : s.server.link.isServer = true
  handed : s.server.world.handed = served.flatMap fun tick => reached t.routes t.view tick.input
  last : s.lastActivity = lastActive (fun tick => tick.input.forwards t) Tick.clock started served

/-- What one `forward` with its report leaves behind. -/
structure DatagramForwarded (t : LoadedTopology) (call : DatagramCall T)
    (s : DatagramState T) : Prop where
  topo : (reportForward (call.forward t.routes s)).link.topo = t.view
  server : (reportForward (call.forward t.routes s)).link.isServer = true
  handed : (reportForward (call.forward t.routes s)).world.handed =
    s.world.handed ++ reached t.routes t.view call
  active : Forwarded (call.forward t.routes s) ↔ call.forwards t = true

/-- One `forward`, whatever `recvfrom` finds. -/
theorem datagramCall_forwarded {s : DatagramState T} (wellFormed : t.WellFormed)
    (topo : s.link.topo = t.view) (server : s.link.isServer = true) (call : DatagramCall T) :
    DatagramForwarded t call s := by
  obtain ⟨now, recv, sendto⟩ := call
  have nothing : ∀ recv : Recvfrom T, reached t.routes t.view ⟨now, recv, sendto⟩ = [] →
      DatagramCall.forwards t ⟨now, recv, sendto⟩ = false →
      DatagramState.forward s now t.routes recv sendto = ⟨s, .error (recvfromFailed T)⟩ →
      DatagramForwarded t ⟨now, recv, sendto⟩ s := by
    intro recv silent idle thrown
    constructor <;> rw [DatagramCall.forward, thrown]
    · exact topo
    · exact server
    · simp [reportForward, silent]
    · simp [Forwarded, idle]
  cases recv with
  | none => exact nothing .none rfl rfl (by simp [DatagramState.forward, server])
  | failed => exact nothing .failed rfl rfl (by simp [DatagramState.forward, server])
  | datagram sender bytes =>
      have known : RulesFor s.link.topo t.routes := by
        rw [topo]
        exact rulesFor wellFormed
      have spec := forward_datagram now sendto server known sender bytes
      have fits : (arrivalOf t.view now sender bytes).message.length ≤ kRouterFrameSize :=
        List.length_take_le ..
      rw [topo] at spec
      constructor <;> rw [DatagramCall.forward]
      · rw [reportForward_link, spec.topo, topo]
      · rw [reportForward_link, spec.server, server]
      · rw [reportForward_handed, spec.world, topo]
        rfl
      · simp only [DatagramCall.forwards, Bool.and_eq_true, decide_eq_true_eq, List.all_eq_true]
        revert spec fits
        generalize arrivalOf t.view now sender bytes = a
        intro spec fits
        rcases spec.result with ⟨e, thrown, refused⟩ | ⟨fwd, ok, -, source, all⟩
        · rw [topo] at refused
          simp [Forwarded, thrown, refused]
        · rw [topo] at all
          simp only [Forwarded, ok, Except.ok.injEq, exists_eq_left', source, Arrival.IsFrame]
          by_cases short : a.message.length < kRouterFrameSize
          · simp [short, Nat.ne_of_lt short]
          · have whole : a.message.length = kRouterFrameSize :=
              Nat.le_antisymm fits (Nat.not_lt.mp short)
            simp only [whole, Nat.lt_irrefl, if_false, true_and]
            exact ⟨fun valid => ⟨valid, all⟩, And.left⟩

/-- One iteration, with what `last_activity` has become. -/
theorem DatagramInv.forward {served : List (Tick (DatagramCall T))}
    {s : Running (DatagramRouterLink T)} (wellFormed : t.WellFormed)
    (inv : DatagramInv t started served s) {tick : Tick (DatagramCall T)} {last : Int}
    (kept : last = lastActive (fun tick => tick.input.forwards t) Tick.clock started
      (served ++ [tick])) :
    DatagramInv t started (served ++ [tick])
      ⟨reportForward (tick.input.forward t.routes s.server), last⟩ := by
  have spec := datagramCall_forwarded wellFormed inv.topo inv.server tick.input
  refine ⟨spec.topo, spec.server, ?_, kept⟩
  rw [spec.handed, inv.handed, List.flatMap_append, List.flatMap_cons, List.flatMap_nil,
    List.append_nil]

/-- What has become of a run that was left after `served`. -/
structure DatagramEnd (opts : RouterRunOptions) (t : LoadedTopology) (started : Int)
    (ticks : List (Tick (DatagramCall T))) (ended : RunEnd)
    (served : List (Tick (DatagramCall T))) (s : Running (DatagramRouterLink T)) : Prop where
  inv : DatagramInv t started served s
  why : (ended = .stopFlag ∧ served = ticks) ∨
    (ended = .idleExpired ∧ DatagramIdle opts t started served)

section Step

variable {served : List (Tick (DatagramCall T) × Running (DatagramRouterLink T))}
  {tick : Tick (DatagramCall T)} {s s' : Running (DatagramRouterLink T)}

theorem DatagramInv.quiet {served : List (Tick (DatagramCall T))} (wellFormed : t.WellFormed)
    (inv : DatagramInv t started served s)
    (quiet : ¬ Forwarded (tick.input.forward t.routes s.server)) :
    tick.input.forwards t = false := by
  have spec := datagramCall_forwarded wellFormed inv.topo inv.server tick.input
  exact Bool.eq_false_iff.mpr fun active => quiet (spec.active.mpr active)

/-- An iteration without a frame. -/
theorem DatagramInv.idle {served : List (Tick (DatagramCall T))} (wellFormed : t.WellFormed)
    (inv : DatagramInv t started served s)
    (quiet : ¬ Forwarded (tick.input.forward t.routes s.server)) :
    DatagramInv t started (served ++ [tick])
      ⟨reportForward (tick.input.forward t.routes s.server), s.lastActivity⟩ := by
  refine inv.forward wellFormed (inv.last.trans ?_)
  rw [lastActive_idle]
  exact inv.quiet wellFormed quiet

theorem DatagramInv.next (wellFormed : t.WellFormed)
    (inv : DatagramInv t started (served.map Prod.fst) s)
    (step : RouterServer.iterate opts (DatagramCall.forward t.routes) tick s = .next s') :
    DatagramInv t started ((served ++ [(tick, s)]).map Prod.fst) s' := by
  have cases := RouterServer.iterate_cases opts (DatagramCall.forward t.routes) tick s
  rw [step] at cases
  rw [List.map_append, List.map_singleton]
  cases cases with
  | active forwarded =>
      have spec := datagramCall_forwarded wellFormed inv.topo inv.server tick.input
      refine inv.forward wellFormed ?_
      rw [lastActive_active]
      exact spec.active.mp forwarded
  | idle quiet => exact inv.idle wellFormed quiet

theorem DatagramInv.leave {e : RunEnd} (wellFormed : t.WellFormed)
    (inv : DatagramInv t started (served.map Prod.fst) s) (ticks : List (Tick (DatagramCall T)))
    (step : RouterServer.iterate opts (DatagramCall.forward t.routes) tick s = .leave e s') :
    DatagramEnd opts t started ticks e ((served ++ [(tick, s)]).map Prod.fst) s' := by
  have cases := RouterServer.iterate_cases opts (DatagramCall.forward t.routes) tick s
  rw [step] at cases
  rw [List.map_append, List.map_singleton]
  cases cases with
  | expired quiet limited late =>
      rw [inv.last] at late
      exact ⟨inv.idle wellFormed quiet,
        .inr ⟨rfl, limited, _, tick, rfl, inv.quiet wellFormed quiet, late⟩⟩

end Step

/-- A run over datagrams, from a link that has just been bound. -/
theorem datagramServer_run {s : Running (DatagramRouterLink T)} (wellFormed : t.WellFormed)
    (start : DatagramInv t started [] s) (ticks : List (Tick (DatagramCall T))) :
    DatagramServed opts t started ticks
      ((DatagramRouterServer.iterations opts t.routes ticks s).map Prod.fst)
      (DatagramRouterServer.run opts t.routes ticks s) := by
  have post : DatagramEnd opts t started ticks (DatagramRouterServer.run opts t.routes ticks s).1
      ((DatagramRouterServer.iterations opts t.routes ticks s).map Prod.fst)
      (DatagramRouterServer.run opts t.routes ticks s).2 :=
    runLoop_post (fun served s => DatagramInv t started (served.map Prod.fst) s)
      (fun e served s => DatagramEnd opts t started ticks e (served.map Prod.fst) s) start
      (fun _ _ _ _ inv step => inv.next wellFormed step)
      (fun _ _ _ _ _ inv step => inv.leave wellFormed ticks step)
      (fun _ _ all inv => ⟨inv, .inl ⟨rfl, all⟩⟩)
  exact ⟨iterations_initial ticks s, post.inv.handed, post.why⟩

/-! ### All transports -/

/-- What the polls of a pass take, by what its clients have left in the rings, and how the
kernel answers them. -/
def Pass.polls (t : LoadedTopology) (pass : Pass) (mem : ShmMemory) : List Poll :=
  [⟨pass.shm.sendto, scanTakes pass.now (shmPorts t.peers) (pass.shm.clients mem)⟩,
    ⟨pass.uds.sendto, takenBy t pass.now pass.udsRecv⟩,
    ⟨pass.udp.sendto, takenBy t pass.now pass.udpRecv⟩]

/-- One of the polls takes a frame. -/
def Pass.works (t : LoadedTopology) (pass : Pass) (mem : ShmMemory) : Bool :=
  (pass.polls t mem).any fun poll => decide poll.Works

/-- The kernel fails nothing in the pass, and no request is longer than a frame. -/
structure Calm (t : LoadedTopology) (pass : Pass) (mem : ShmMemory) : Prop where
  small : SmallRequests (shmPorts t.peers) (pass.shm.clients mem)
  uds : pass.udsRecv ≠ .failed
  udp : pass.udpRecv ≠ .failed
  unrefused : ∀ poll ∈ pass.polls t mem, poll.Unrefused t

/-- A pass and what it found. -/
abbrev PassAt := Pass × Running MixedRouterServer

/-- The shared memory a pass found. -/
def PassAt.mem (x : PassAt) : ShmMemory := x.2.server.world.mem

/-- All the polls of some passes. -/
def pollsOf (t : LoadedTopology) (served : List PassAt) : List Poll :=
  served.flatMap fun x => x.1.polls t (PassAt.mem x)

/-- The idle limit has expired for a mixed server that has served `served`. -/
def MixedIdle (opts : RouterRunOptions) (t : LoadedTopology) (started : Int)
    (served : List PassAt) : Prop :=
  0 < opts.idleExitMs ∧ IdleFor (fun x : PassAt => x.1.works t x.mem) (fun x => x.1.clock) started
    (opts.idleExitMs * 1000000) served

/-- A run of `MixedRouterServer` that has started the passes `served`: of each frame it has
received it has attempted all targets before the first refused one, and passes that are calm
are left by the stop flag or the idle limit only. -/
structure MixedServed (opts : RouterRunOptions) (t : LoadedTopology) (passes : List Pass)
    (s : Running MixedRouterServer) (served : List PassAt)
    (r : RunEnd × Running MixedRouterServer) : Prop where
  initial : served.map Prod.fst <+: passes
  attempted : ∃ polls, pollsOf t served.dropLast <+: polls ∧ polls <+: pollsOf t served ∧
    Polled t polls s.server r.2.server
  calm : (∀ x ∈ served, Calm t x.1 (PassAt.mem x)) →
    Polled t (pollsOf t served) s.server r.2.server ∧
      ((r.1 = .stopFlag ∧ served.map Prod.fst = passes) ∨
        (r.1 = .idleExpired ∧ MixedIdle opts t s.lastActivity served))

/-- How a pass ends. -/
inductive PassEnd (t : LoadedTopology) (pass : Pass) (s : MixedState) (r : Outcome MixedState Bool) :
    Prop
  | whole (polled : Polled t (pass.polls t s.world.mem) s r.state)
      (result : r.result = .ok (pass.works t s.world.mem))
  | thrown (polls : List Poll) (some : polls <+: pass.polls t s.world.mem)
      (polled : Polled t polls s r.state) (e : RuntimeError) (result : r.result = .error e)
      (disturbed : ¬ Calm t pass s.world.mem)

/-- One pass over the links. -/
theorem pollAll_spec {s : MixedState} (wellFormed : t.WellFormed) (wired : MixedWired t s.link)
    (pass : Pass) : PassEnd t pass s (s.pollAll t.routes pass) := by
  unfold MixedState.pollAll
  have first := pollShm_spec pass.now pass.shm wellFormed wired
  cases polledShm : s.pollShm t.routes pass.now pass.shm with
  | mk mid result =>
      rw [polledShm] at first
      rcases first.result with ⟨ended, -⟩ | ⟨e, ended, why⟩
      · obtain rfl := ended
        have second := pollDatagram_spec pass.now pass.uds wellFormed first.polled.wired pass.udsRecv
        simp only
        cases polledUds : mid.pollDatagram t.routes pass.now pass.uds pass.udsRecv with
        | mk mid' result =>
            rw [polledUds] at second
            rcases second.result with ⟨ended, -⟩ | ⟨e, ended, why⟩
            · obtain rfl := ended
              have third := pollDatagram_spec pass.now pass.udp wellFormed second.polled.wired
                pass.udpRecv
              simp only
              cases polledUdp : mid'.pollDatagram t.routes pass.now pass.udp pass.udpRecv with
              | mk last result =>
                  rw [polledUdp] at third
                  have polled := (first.polled.append second.polled).append third.polled
                  rcases third.result with ⟨ended, -⟩ | ⟨e, ended, why⟩
                  · obtain rfl := ended
                    refine .whole polled ?_
                    simp [Pass.works, Pass.polls, Bool.or_assoc]
                  · obtain rfl := ended
                    refine .thrown _ (List.prefix_refl _) polled e rfl fun calm => ?_
                    rcases why with failed | refused
                    · exact calm.udp failed
                    · exact refused (calm.unrefused _ (by simp [Pass.polls]))
            · obtain rfl := ended
              have polled := first.polled.append second.polled
              refine .thrown _ ⟨_, rfl⟩ polled e rfl fun calm => ?_
              rcases why with failed | refused
              · exact calm.uds failed
              · exact refused (calm.unrefused _ (by simp [Pass.polls]))
      · obtain rfl := ended
        refine .thrown _ ⟨_, rfl⟩ first.polled e rfl fun calm => ?_
        rcases why with long | refused
        · exact long calm.small
        · exact refused (calm.unrefused _ (by simp [Pass.polls]))

/-- The ways an iteration of the mixed server can go. -/
inductive PassCases (opts : RouterRunOptions) (t : LoadedTopology) (pass : Pass)
    (s : Running MixedRouterServer) (after : MixedState) :
    Step (Running MixedRouterServer) RunEnd → Prop
  | active (polled : Polled t (pass.polls t s.server.world.mem) s.server after)
      (works : pass.works t s.server.world.mem = true) :
      PassCases opts t pass s after (.next ⟨after, pass.clock⟩)
  | idle (polled : Polled t (pass.polls t s.server.world.mem) s.server after)
      (quiet : pass.works t s.server.world.mem = false) :
      PassCases opts t pass s after (.next ⟨after, s.lastActivity⟩)
  | expired (polled : Polled t (pass.polls t s.server.world.mem) s.server after)
      (quiet : pass.works t s.server.world.mem = false) (limited : 0 < opts.idleExitMs)
      (late : opts.idleExitMs * 1000000 < pass.clock - s.lastActivity) :
      PassCases opts t pass s after (.leave .idleExpired ⟨after, s.lastActivity⟩)
  | thrown (polls : List Poll) (some : polls <+: pass.polls t s.server.world.mem)
      (polled : Polled t polls s.server after) (e : RuntimeError)
      (disturbed : ¬ Calm t pass s.server.world.mem) :
      PassCases opts t pass s after (.leave (.thrown e) ⟨after, s.lastActivity⟩)

theorem mixedIterate_cases (opts : RouterRunOptions) {s : Running MixedRouterServer}
    (wellFormed : t.WellFormed) (wired : MixedWired t s.server.link) (pass : Pass) :
    PassCases opts t pass s (MixedState.pollAll t.routes pass s.server).state
      (MixedRouterServer.iterate opts t.routes pass s) := by
  have spec := pollAll_spec wellFormed wired pass
  unfold MixedRouterServer.iterate
  cases ran : MixedState.pollAll t.routes pass s.server with
  | mk after result =>
      rw [ran] at spec
      cases spec with
      | thrown polls some polled e ended disturbed =>
          obtain rfl : result = .error e := ended
          exact .thrown polls some polled e disturbed
      | whole polled ended =>
          obtain rfl : result = .ok (pass.works t s.server.world.mem) := ended
          cases works : pass.works t s.server.world.mem with
          | true => exact .active polled works
          | false =>
              simp only [Bool.false_eq_true, if_false]
              split
              · rename_i expired
                obtain ⟨limited, late⟩ := RouterRunOptions.idleExit_iff.mp expired
                exact .expired polled works limited late
              · exact .idle polled works

/-- What holds between two passes of a run that has served `served`. -/
structure MixedInv (t : LoadedTopology) (s₀ : Running MixedRouterServer) (served : List PassAt)
    (s : Running MixedRouterServer) : Prop where
  polled : Polled t (pollsOf t served) s₀.server s.server
  last : s.lastActivity = lastActive (fun x : PassAt => x.1.works t x.mem) (fun x => x.1.clock)
    s₀.lastActivity served

/-- What a run has become that was left after `served`. -/
inductive MixedEnd (opts : RouterRunOptions) (t : LoadedTopology) (passes : List Pass)
    (s₀ : Running MixedRouterServer) (ended : RunEnd) (served : List PassAt)
    (s : Running MixedRouterServer) : Prop
  | stopped (polled : Polled t (pollsOf t served) s₀.server s.server) (why : ended = .stopFlag)
      (all : served.map Prod.fst = passes)
  | expired (polled : Polled t (pollsOf t served) s₀.server s.server) (why : ended = .idleExpired)
      (idle : MixedIdle opts t s₀.lastActivity served)
  | thrown (polls : List Poll) (whole : pollsOf t served.dropLast <+: polls)
      (some : polls <+: pollsOf t served) (polled : Polled t polls s₀.server s.server)
      (disturbed : ∃ x ∈ served, ¬ Calm t x.1 (PassAt.mem x))

theorem pollsOf_concat (served : List PassAt) (pass : Pass) (s : Running MixedRouterServer) :
    pollsOf t (served ++ [(pass, s)]) = pollsOf t served ++ pass.polls t s.server.world.mem := by
  simp [pollsOf, PassAt.mem]

theorem pollsOf_dropLast (served : List PassAt) : pollsOf t served.dropLast <+: pollsOf t served := by
  obtain ⟨rest, split⟩ := List.dropLast_prefix served
  refine ⟨pollsOf t rest, ?_⟩
  rw [pollsOf, pollsOf, ← List.flatMap_append, split, pollsOf]

/-- A whole pass more. -/
theorem MixedInv.whole {s₀ s : Running MixedRouterServer} {served : List PassAt}
    (inv : MixedInv t s₀ served s) {pass : Pass} {after : MixedState}
    (polled : Polled t (pass.polls t s.server.world.mem) s.server after) :
    Polled t (pollsOf t (served ++ [(pass, s)])) s₀.server after := by
  rw [pollsOf_concat]
  exact inv.polled.append polled

theorem MixedInv.next {s₀ s s' : Running MixedRouterServer} {served : List PassAt}
    (wellFormed : t.WellFormed) (inv : MixedInv t s₀ served s) {pass : Pass}
    (step : MixedRouterServer.iterate opts t.routes pass s = .next s') :
    MixedInv t s₀ (served ++ [(pass, s)]) s' := by
  have cases := mixedIterate_cases opts wellFormed inv.polled.wired pass
  rw [step] at cases
  cases cases with
  | active polled works =>
      refine ⟨inv.whole polled, ?_⟩
      rw [lastActive_active]
      exact works
  | idle polled quiet =>
      refine ⟨inv.whole polled, inv.last.trans ?_⟩
      rw [lastActive_idle]
      exact quiet

theorem MixedInv.leave {s₀ s s' : Running MixedRouterServer} {served : List PassAt} {e : RunEnd}
    (wellFormed : t.WellFormed) (inv : MixedInv t s₀ served s) {pass : Pass} (passes : List Pass)
    (step : MixedRouterServer.iterate opts t.routes pass s = .leave e s') :
    MixedEnd opts t passes s₀ e (served ++ [(pass, s)]) s' := by
  have cases := mixedIterate_cases opts wellFormed inv.polled.wired pass
  rw [step] at cases
  cases cases with
  | expired polled quiet limited late =>
      rw [inv.last] at late
      exact .expired (inv.whole polled) rfl ⟨limited, served, (pass, s), rfl, quiet, late⟩
  | thrown some initial polled e disturbed =>
      refine .thrown (pollsOf t served ++ some) ?_ ?_ (inv.polled.append polled)
        ⟨(pass, s), by simp, disturbed⟩
      · rw [List.dropLast_concat]
        exact List.prefix_append ..
      · rw [pollsOf_concat]
        exact (List.prefix_append_right_inj _).mpr initial

/-- A run of the mixed server. -/
theorem mixedServer_run {s₀ : Running MixedRouterServer} (wellFormed : t.WellFormed)
    (wired : MixedWired t s₀.server.link) (passes : List Pass) :
    MixedServed opts t passes s₀ (MixedRouterServer.iterations opts t.routes passes s₀)
      (MixedRouterServer.run opts t.routes passes s₀) := by
  have post : MixedEnd opts t passes s₀ (MixedRouterServer.run opts t.routes passes s₀).1
      (MixedRouterServer.iterations opts t.routes passes s₀)
      (MixedRouterServer.run opts t.routes passes s₀).2 :=
    runLoop_post (MixedInv t s₀) (MixedEnd opts t passes s₀) ⟨.nil wired, rfl⟩
      (fun _ _ _ _ inv step => inv.next wellFormed step)
      (fun _ _ _ _ _ inv step => inv.leave wellFormed passes step)
      (fun _ _ all inv => .stopped inv.polled rfl all)
  refine ⟨iterations_initial passes s₀, ?_, ?_⟩
  · cases post with
    | stopped polled | expired polled =>
        exact ⟨_, pollsOf_dropLast _, List.prefix_refl _, polled⟩
    | thrown polls whole some polled => exact ⟨polls, whole, some, polled⟩
  · intro calm
    cases post with
    | stopped polled why all => exact ⟨polled, .inl ⟨why, all⟩⟩
    | expired polled why idle => exact ⟨polled, .inr ⟨why, idle⟩⟩
    | thrown _ _ _ _ disturbed =>
        obtain ⟨x, mem, not⟩ := disturbed
        exact absurd (calm x mem) not

/-! ### Every accepted profile -/

/-- A server link that has just been bound has reached nobody. -/
theorem DatagramInv.bound {params : BindParams T} {link : DatagramRouterLink T}
    (bound : (DatagramRouterLink.server T t.view).bindRouter params = .ok link)
    (frame : RouterFrame) (mem : ShmMemory) (started : Int) :
    DatagramInv t started [] ⟨⟨link, frame, { mem }⟩, started⟩ := by
  simp only [DatagramRouterLink.bindRouter, DatagramRouterLink.server] at bound
  cases bound
  exact ⟨rfl, rfl, rfl, rfl⟩

/-- Three UDS peers; what peer 1 publishes goes to peers 2 and 3. -/
def udsTriple : TomlTable :=
  profile "uds:/tmp/router.sock" [peerTable 1 "a" "uds:/tmp/a.sock" [],
    peerTable 2 "b" "uds:/tmp/b.sock" [], peerTable 3 "c" "uds:/tmp/c.sock" []]
    [.table [(ascii "source", .integer 1), (ascii "dest", .array [.integer 2, .integer 3])]]

/-- Peer 1 publishes a frame while peer 2 is not listening. -/
def absentSubscriber : DatagramCall .uds where
  now := 7
  recv := .datagram (SockaddrUn.mk (cStr (ascii "/tmp/a.sock"))) (1 :: List.replicate 63 5)
  sendto := (· ≠ 2)

/-- A pass of the mixed loop with a call in it. -/
def DatagramCall.pass (call : DatagramCall .uds) (clock : Int) : Pass where
  now := call.now
  shm := ⟨id, call.sendto⟩
  uds := ⟨id, call.sendto⟩
  udsRecv := call.recv
  udp := ⟨id, call.sendto⟩
  udpRecv := .none
  clock := clock

/-- All are listening. -/
def presentSubscribers : DatagramCall .uds := { absentSubscriber with sendto := fun _ => true }

/-- Nobody publishes. -/
def quietCall : DatagramCall .uds := { presentSubscribers with recv := .none }

/-- One frame, and more than five milliseconds of silence after it. -/
def frameThenSilence : List (Tick (DatagramCall .uds)) :=
  [⟨presentSubscribers, 1000⟩, ⟨quietCall, 5001000⟩, ⟨quietCall, 5001001⟩, ⟨quietCall, 5001002⟩]

def fiveMs : RouterRunOptions where
  idleExitMs := 5

def frameThenSilencePasses : List Pass :=
  frameThenSilence.map fun tick => tick.input.pass tick.clock

end RoboticsIpc
