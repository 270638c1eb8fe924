import RoboticsIpc.Lib.Seek
import RoboticsIpc.Router.Subscriptions

/-!
`recv_message_until` (`router/shm_router_link.hpp`): a client that waits for a frame of one
source throws away what comes from the others.

A client makes such calls one after the other while the router and the other peers go on.
What its calls return is the greedy match of the sources it wants in what comes to it
(`recv_until_seeks`).
-/

namespace RoboticsIpc

open ByteBuffer Checked FanOut LatestValue Seek ShmSpsc StepRun Toml

/-- A client inside the first of the calls it has left to make. -/
structure ReceivingClient where
  wanted : List UInt8
  frame : RouterFrame := .zero
  returned : List RouterFrame := []
  thrown : Option RuntimeError := none

/-- A pass of the loop in which `recv_message` received something: the frame is the result if it
is a whole one and from the wanted source. -/
def ReceivingClient.received (c : ReceivingClient) (want : UInt8) (rest : List UInt8)
    (msg : Bytes) : ReceivingClient :=
  let frame := c.frame.receive msg
  if kRouterFrameSize ≤ msg.length ∧ frame.source = want then
    { c with frame, wanted := rest, returned := c.returned ++ [frame] }
  else { c with frame }

structure ReceivingSystem where
  system : ShmSystem
  client : ReceivingClient

inductive ReceivingAct where
  /-- A pass of the loop of the client's call. -/
  | pass
  | other (act : ShmAct)

/-- One step. Nobody else reads the client's ring. -/
def receivingStep (rules : List RouteRule) (reader : UInt8) (s : ReceivingSystem) :
    ReceivingAct → Option ReceivingSystem
  | .other (.pop peer) =>
      if peer = reader then none
      else (shmStep rules s.system (.pop peer)).map fun system => { s with system }
  | .other act => (shmStep rules s.system act).map fun system => { s with system }
  | .pass =>
      match s.client.wanted, s.client.thrown with
      | want :: rest, none =>
          match clientEndpoint s.system.router.link.topo reader s.system.router.world.mem with
          | .error _ => none
          | .ok (mem, endpoint) =>
              match tryRecv endpoint mem kRouterFrameSize with
              | .error e => some ⟨s.system.setMem mem, { s.client with thrown := some e }⟩
              | .ok none => some ⟨s.system.setMem mem, s.client⟩
              | .ok (some (msg, mem)) => some ⟨{ s.system.setMem mem with
                  popped := Function.update s.system.popped reader (s.system.popped reader ++ [msg]) },
                  s.client.received want rest msg⟩
      | _, _ => none

/-- To the system a pass is a pop. -/
def ReceivingAct.toShm (reader : UInt8) : ReceivingAct → ShmAct
  | .pass => .pop reader
  | .other act => act

variable {rules : List RouteRule} {reader : UInt8} {s s' : ReceivingSystem} {t : LoadedTopology}

/-- The ways a step can go. -/
inductive ReceivingCases (rules : List RouteRule) (reader : UInt8) (s : ReceivingSystem) :
    ReceivingAct → ReceivingSystem → Prop
  | other {act : ShmAct} {system : ShmSystem} (notSelf : act ≠ .pop reader)
      (stepped : shmStep rules s.system act = some system) :
      ReceivingCases rules reader s (.other act) { s with system }
  | nothing {want : UInt8} {rest : List UInt8} (wants : s.client.wanted = want :: rest)
      (going : s.client.thrown = none) : ReceivingCases rules reader s .pass s
  | taken {want : UInt8} {rest : List UInt8} {name : CStr} {p : RingParams} {msg : Bytes}
      {mem : ShmMemory} (wants : s.client.wanted = want :: rest) (going : s.client.thrown = none)
      (inside : (reader, ⟨name, p, true⟩) ∈ shmPorts s.system.router.link.topo.peers)
      (received : tryRecv ⟨name, p, false⟩ s.system.router.world.mem kRouterFrameSize =
        .ok (some (msg, mem))) :
      ReceivingCases rules reader s .pass ⟨{ s.system.setMem mem with
        popped := Function.update s.system.popped reader (s.system.popped reader ++ [msg]) },
        s.client.received want rest msg⟩
  | threw {want : UInt8} {rest : List UInt8} {name : CStr} {p : RingParams} {e : RuntimeError}
      (wants : s.client.wanted = want :: rest) (going : s.client.thrown = none)
      (inside : (reader, ⟨name, p, true⟩) ∈ shmPorts s.system.router.link.topo.peers)
      (failed : tryRecv ⟨name, p, false⟩ s.system.router.world.mem kRouterFrameSize = .error e) :
      ReceivingCases rules reader s .pass { s with client := { s.client with thrown := some e } }

theorem receivingStep_cases {act : ReceivingAct}
    (stepped : receivingStep rules reader s act = some s') : ReceivingCases rules reader s act s' := by
  cases act with
  | other act =>
      have moved : act ≠ .pop reader ∧ (shmStep rules s.system act).map (fun system =>
          ({ s with system } : ReceivingSystem)) = some s' := by
        cases act with
        | pop peer =>
            simp only [receivingStep] at stepped
            split at stepped
            · cases stepped
            · rename_i other
              exact ⟨fun same => other (ShmAct.pop.inj same), stepped⟩
        | publish | forward | setFloor => exact ⟨nofun, stepped⟩
      obtain ⟨system, step, rfl⟩ := Option.map_eq_some_iff.mp moved.2
      exact .other moved.1 step
  | pass =>
      simp only [receivingStep] at stepped
      split at stepped
      · rename_i want rest wants going
        cases opened : clientEndpoint s.system.router.link.topo reader
            s.system.router.world.mem with
        | error e => simp [opened] at stepped
        | ok found =>
            obtain ⟨mem, endpoint⟩ := found
            obtain ⟨rfl, name, p, rfl, inside⟩ := clientEndpoint_port opened
            simp only [opened] at stepped
            cases received : tryRecv ⟨name, p, false⟩ s.system.router.world.mem
                kRouterFrameSize with
            | error e =>
                rw [received] at stepped
                cases stepped
                exact .threw wants going inside received
            | ok taken =>
                rw [received] at stepped
                cases taken with
                | none =>
                    cases stepped
                    exact .nothing wants going
                | some pair =>
                    cases stepped
                    exact .taken wants going inside received
      · cases stepped

/-- What has come to the client changes with its own passes only. -/
theorem popped_other {act : ShmAct} {system system' : ShmSystem} (notSelf : act ≠ .pop reader)
    (stepped : shmStep rules system act = some system') :
    system'.popped reader = system.popped reader := by
  cases shmStep_cases stepped with
  | @popped peer msg _ _ _ _ _ =>
      have other : reader ≠ peer := fun same => notSelf (by rw [same])
      exact Function.update_of_ne other _ _
  | published | rejected | forwarded | nothing | floorSet => rfl

theorem shmStep_of_receiving {act : ReceivingAct}
    (stepped : receivingStep rules reader s act = some s') :
    shmStep rules s.system (act.toShm reader) = some s'.system := by
  cases act with
  | other act =>
      cases receivingStep_cases stepped with
      | other _ step => exact step
  | pass =>
      simp only [receivingStep] at stepped
      split at stepped
      · simp only [ReceivingAct.toShm, shmStep]
        split at stepped
        · cases stepped
        · split at stepped <;> cases stepped <;> simp_all
      · cases stepped

theorem run_of_receiving {schedule : List ReceivingAct}
    (ran : run (receivingStep rules reader) s schedule = some s') :
    run (shmStep rules) s.system (schedule.map (ReceivingAct.toShm reader)) = some s'.system := by
  induction schedule generalizing s with
  | nil =>
      cases ran
      rfl
  | cons act schedule ih =>
      obtain ⟨next, first, rest⟩ := run_cons_eq_some.mp ran
      exact run_cons_eq_some.mpr ⟨next.system, shmStep_of_receiving first, ih rest⟩

/-! ### What the calls return -/

/-- What has been handed over to a port, popped or not, are whole frames. -/
theorem ShmInv.whole {system : ShmSystem} {port : Port} (wellFormed : t.WellFormed)
    (inv : ShmInv t.routes t.view system) (inside : port ∈ shmPorts t.peers) :
    ∃ req rep, RegionCarries port.2.name port.2.params system.router.world.mem req rep ∧
      ∀ frame ∈ system.popped port.1 ++ rep, frame.length = kRouterFrameSize := by
  obtain ⟨req, rep, region, -, replies⟩ := inv.rings port inside
  refine ⟨req, rep, region, fun frame mem => ?_⟩
  have due := share_sublist inv.router.handed port.1
  rw [deliveries, share_copies fun a _ => (route_wellFormed wellFormed a).1, replies] at due
  exact whole_of_due (due.subset mem)

/-- The client is the reader who wants these sources, of all that has come. -/
structure ReceivingInv (t : LoadedTopology) (reader : UInt8) (wanted : List UInt8)
    (s : ReceivingSystem) : Prop where
  shm : ShmInv t.routes t.view s.system
  going : s.client.thrown = none
  found : s.client.returned.map (·.bytes) =
    (seek frameSource wanted (s.system.popped reader)).found
  waits : s.client.wanted = (seek frameSource wanted (s.system.popped reader)).wanted

theorem ReceivingInv.step {wanted : List UInt8} {act : ReceivingAct} (wellFormed : t.WellFormed)
    (wired : Wired (shmPorts t.peers))
    (routes : RoutesTo t.routes ((shmPorts t.peers).map Prod.fst))
    (inv : ReceivingInv t reader wanted s)
    (stepped : receivingStep t.routes reader s act = some s') :
    ReceivingInv t reader wanted s' := by
  have shm := shmStep_inv wired routes inv.shm (shmStep_of_receiving stepped)
  obtain ⟨before, going, found, waits⟩ := inv
  have peers : s.system.router.link.topo.peers = t.peers := congrArg (·.peers) before.sameTopo
  cases receivingStep_cases stepped with
  | other notSelf step =>
      have same := popped_other notSelf step
      exact ⟨shm, going, by rw [same]; exact found, by rw [same]; exact waits⟩
  | nothing => exact ⟨shm, going, found, waits⟩
  | @taken want rest name p msg mem wants _ inside received =>
      rw [peers] at inside
      obtain ⟨-, rep, -, frames⟩ := shm.whole wellFormed inside
      have whole : msg.length = kRouterFrameSize := frames msg (by simp)
      have bytes := RouterFrame.receive_whole whole s.client.frame
      have source : (s.client.frame.receive msg).source = frameSource msg := congrArg frameSource bytes
      rw [wants] at waits
      simp only [ReceivingClient.received, whole, Nat.le_refl, true_and, source]
      rcases (seek frameSource wanted (s.system.popped reader)).show_cases frameSource msg with
        ⟨later, next, shown⟩ | ⟨other, shown⟩
      · obtain ⟨here, rfl⟩ := List.cons.inj (waits.trans next)
        rw [if_pos here.symm]
        refine ⟨shm, going, ?_, ?_⟩
        · simp only [Function.update_self]
          rw [seek_concat, shown, List.map_append, found, List.map_singleton, bytes]
        · simp only [Function.update_self]
          rw [seek_concat, shown]
      · rw [if_neg fun here => other rest (by rw [← waits, here])]
        refine ⟨shm, going, ?_, ?_⟩
        · simp only [Function.update_self]
          rw [seek_concat, shown, found]
        · simp only [Function.update_self]
          rw [seek_concat, shown, wants, waits]
  | @threw want rest name p e wants _ inside failed =>
      rw [peers] at inside
      obtain ⟨req, rep, region, frames⟩ := before.whole wellFormed inside
      rcases region.rep.pop kRouterFrameSize with ⟨nothing, -⟩ | ⟨m, left, rfl, long, -⟩ |
        ⟨m, left, ring, -, -, popped, -⟩
      · simp [tryRecv, nothing] at failed
      · have whole : m.length = kRouterFrameSize := frames m (by simp)
        exact absurd whole (Nat.ne_of_gt long)
      · simp [tryRecv, popped] at failed

/-- A client that is to make these calls, on a system just booted. -/
def ReceivingSystem.start (system : ShmSystem) (wanted : List UInt8) : ReceivingSystem :=
  ⟨system, { wanted }⟩

theorem receivingInv_start {system : ShmSystem} {mem : ShmMemory} {wanted : List UInt8}
    (names : t.DistinctShmNames) (booted : bootShm t.view mem = .ok system) :
    ReceivingInv t reader wanted (.start system wanted) := by
  have popped : system.popped reader = [] := congrFun (bootShm_eq booted).2.2.2 reader
  refine ⟨shmInv_boot names booted, rfl, ?_, ?_⟩ <;> simp only [ReceivingSystem.start, popped] <;> rfl

/-- What the calls of a client come to. -/
structure Receives (t : LoadedTopology) (reader : UInt8) (wanted : List UInt8)
    (s : ReceivingSystem) : Prop where
  going : s.client.thrown = none
  /-- What they have returned is the greedy match of the sources wanted in all that has come. -/
  found : s.client.returned.map (·.bytes) =
    (seek frameSource wanted (s.system.popped reader)).found
  /-- The first calls have returned, each with a frame of its source. -/
  sources : s.client.returned.map RouterFrame.source ++ s.client.wanted = wanted
  /-- All have exactly if the sources wanted are a subsequence of those of the frames that came. -/
  done : s.client.wanted = [] ↔ wanted.Sublist ((s.system.popped reader).map frameSource)
  /-- A client that wants one source only misses no frame of it. -/
  only : ∀ q n, wanted = List.replicate n q → s.client.returned.map (·.bytes) =
    ((s.system.popped reader).filter fun frame => frameSource frame = q).take n
  relayed : ∀ e ∈ t.peers, List.SublistForall₂ (Relays e.id)
    (readsOf e.id (s.client.returned.map (·.bytes))) (inRing e (s.system.published e.id))

/-- In every run of an accepted all-SHM profile with distinct names, whatever the others do
between two passes, the calls of `recv_message_until` that a client makes one after the other
return the greedy match of the sources it wants in the frames that come to it: each frame whole,
from the source wanted and a relay of what that peer published, in order and none twice. -/
theorem recv_until_seeks {root : TomlTable} {mem : ShmMemory} {schedule : List ReceivingAct}
    {s₀ : ShmSystem} {wanted : List UInt8} (accepted : buildFrom root = .ok t) (all : t.AllShm)
    (names : t.DistinctShmNames) (booted : bootShm t.view mem = .ok s₀)
    {e : PeerEntry} (declared : e ∈ t.peers)
    (ran : run (receivingStep t.routes e.id) (.start s₀ wanted) schedule = some s) :
    Receives t e.id wanted s := by
  have wellFormed := buildFrom_wellFormed accepted
  have inv : ReceivingInv t e.id wanted s := run_inv (receivingInv_start names booted)
    (fun _ _ _ inv step => inv.step wellFormed (wired_shmPorts wellFormed names)
      (routesTo_shmPorts wellFormed all) step) ran
  have keys := found_keys frameSource wanted (s.system.popped e.id)
  refine ⟨inv.going, inv.found, ?_, ?_, ?_, ?_⟩
  · rw [← inv.found, ← inv.waits, List.map_map] at keys
    exact keys
  · rw [inv.waits]
    exact wanted_eq_nil_iff
  · rintro q n rfl
    rw [inv.found]
    exact found_replicate q n
  · intro peer there
    have subscribed :=
      shm_subscribed accepted all names booted (run_of_receiving ran) declared there
    rw [inv.found]
    exact related_of_sublist ((found_sublist frameSource wanted (s.system.popped e.id)).filter _)
      subscribed.relayed

/-- Two frames of peer 1, of which the client wants one; and then one of peer 3, which has sent
nothing. -/
def wantsTwo : List ReceivingAct :=
  [.other (.publish 1 (numberedFrame 0)), .pass, .other (.forward .zero 4), .pass,
    .other (.publish 1 (numberedFrame 1)), .other (.forward .zero 8), .pass]

def runReceiving (root : TomlTable) (reader : UInt8) (wanted : List UInt8)
    (schedule : List ReceivingAct) : Option ReceivingSystem := do
  let t ← (buildFrom root).toOption
  let s₀ ← (bootShm t.view noShm).toOption
  run (receivingStep t.routes reader) (.start s₀ wanted) schedule

theorem runReceiving_eq_some {root : TomlTable} {wanted : List UInt8}
    {schedule : List ReceivingAct} : runReceiving root reader wanted schedule = some s ↔
      ∃ t s₀, buildFrom root = .ok t ∧ bootShm t.view noShm = .ok s₀ ∧
        run (receivingStep t.routes reader) (.start s₀ wanted) schedule = some s := by
  unfold runReceiving
  cases buildFrom root with
  | error e => simp [Except.toOption]
  | ok t => cases booted : bootShm t.view noShm <;> simp [Except.toOption, booted]

theorem recv_until_seeks_pair : ∃ t s, buildFrom shmPair = .ok t ∧
    runReceiving shmPair 2 [1, 3] wantsTwo = some s ∧
    s.client.returned.map (·.bytes) = [stamped 1 4 (numberedFrame 0)] ∧ s.client.wanted = [3] ∧
    (s.system.popped 2).length = 2 ∧ Receives t 2 [1, 3] s := by
  have shape : ∀ t ∈ (buildFrom shmPair).toOption, t.AllShm ∧ t.DistinctShmNames ∧
      ∃ p ∈ t.peers, p.id = 2 := by decide +kernel
  have outcome : ((runReceiving shmPair 2 [1, 3] wantsTwo).map fun s =>
      (s.client.returned.map (·.bytes), s.client.wanted, (s.system.popped 2).length)) =
      some ([stamped 1 4 (numberedFrame 0)], [3], 2) := by decide +kernel
  obtain ⟨s, ran, came⟩ := Option.map_eq_some_iff.mp outcome
  obtain ⟨t, s₀, accepted, booted, steps⟩ := runReceiving_eq_some.mp ran
  obtain ⟨all, names, p, declared, two⟩ := shape t (toOption_eq_some.mpr accepted)
  simp only [Prod.mk.injEq] at came
  obtain ⟨returned, waits, popped⟩ := came
  refine ⟨t, s, accepted, ran, returned, waits, popped, ?_⟩
  rw [← two] at steps ⊢
  exact recv_until_seeks accepted all names booted declared steps

end RoboticsIpc
