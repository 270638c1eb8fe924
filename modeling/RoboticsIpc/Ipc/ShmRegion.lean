import RoboticsIpc.Ipc.ShmSpsc

/-!
`try_send` and `try_recv` on named regions: each moves one message of one ring of
one region and leaves every other region alone.

`RegionCarries h mem req rep` is the state of a region between two calls, with
the unread requests `req` and the unread replies `rep`. The server pops requests
and pushes replies, the client the other way round.
-/

namespace RoboticsIpc.ShmSpsc

open ByteBuffer

/-- The unread messages of a region, as a handle of this sizing sees them. -/
structure RegionCarries (name : CStr) (p : RingParams) (mem : ShmMemory)
    (req rep : List Bytes) : Prop where
  req : Carries p (mem name).req req
  rep : Carries p (mem name).rep rep

/-- A server's handle is its name and its sizing. -/
theorem ShmRegion.eq_server {handle : ShmRegion} (server : handle.isServerRole = true) :
    handle = ⟨handle.name, handle.params, true⟩ := by
  obtain ⟨name, params, role⟩ := handle
  exact congrArg (ShmRegion.mk name params) server

/-- Only the region `name` may differ. -/
def SameElsewhere (name : CStr) (mem mem' : ShmMemory) : Prop := ∀ n, n ≠ name → mem' n = mem n

variable {name : CStr} {p : RingParams} {mem mem' : ShmMemory} {req rep : List Bytes}

theorem RegionCarries.of_eq (carries : RegionCarries name p mem req rep)
    (same : mem' name = mem name) : RegionCarries name p mem' req rep := by
  obtain ⟨reqs, reps⟩ := carries
  exact ⟨by rwa [same], by rwa [same]⟩

theorem sameElsewhere_update (region : MappedRegion) :
    SameElsewhere name mem (Function.update mem name region) :=
  fun _ other => Function.update_of_ne other _ _

/-- A send touches its own region only. -/
theorem trySend_elsewhere {handle : ShmRegion} {payload : Bytes} {ok : Bool}
    (sent : trySend handle mem payload = (mem', ok)) : SameElsewhere handle.name mem mem' := by
  unfold trySend at sent
  split at sent
  · rw [← (Prod.mk.inj sent).1]
    exact sameElsewhere_update _
  · rw [← (Prod.mk.inj sent).1]
    exact sameElsewhere_update _

/-- So does a receive that takes something. -/
theorem tryRecv_elsewhere {handle : ShmRegion} {capacity : Nat} {msg : Bytes}
    (received : tryRecv handle mem capacity = .ok (some (msg, mem'))) :
    SameElsewhere handle.name mem mem' := by
  simp only [tryRecv] at received
  split at received
  · split at received <;> cases received
    exact sameElsewhere_update _
  · split at received <;> cases received
    exact sameElsewhere_update _

/-- The server's `try_send`: the reply is queued, or the ring is full and nothing changes. -/
theorem RegionCarries.server_send (carries : RegionCarries name p mem req rep) (payload : Bytes) :
    (∃ mem', trySend ⟨name, p, true⟩ mem payload = (mem', true) ∧
        RegionCarries name p mem' req (rep ++ [cut p payload]) ∧ SameElsewhere name mem mem') ∨
      (trySend ⟨name, p, true⟩ mem payload = (mem, false) ∧
        (Live p (mem name).rep rep → rep.length = p.slotCount)) := by
  rcases carries.rep.push payload with ⟨ring', pushed, queued⟩ | ⟨rejected, full⟩
  · refine .inl ⟨Function.update mem name { mem name with rep := ring' }, ?_, ⟨?_, ?_⟩,
      sameElsewhere_update _⟩
    · simp [trySend, pushed]
    · simpa using carries.req
    · simpa using queued
  · refine .inr ⟨?_, full⟩
    simp [trySend, rejected]

/-- The client's `try_send`: the request is queued, or the ring is full. -/
theorem RegionCarries.client_send (carries : RegionCarries name p mem req rep) (payload : Bytes) :
    (∃ mem', trySend ⟨name, p, false⟩ mem payload = (mem', true) ∧
        RegionCarries name p mem' (req ++ [cut p payload]) rep ∧ SameElsewhere name mem mem') ∨
      trySend ⟨name, p, false⟩ mem payload = (mem, false) := by
  rcases carries.req.push payload with ⟨ring', pushed, queued⟩ | ⟨rejected, full⟩
  · refine .inl ⟨Function.update mem name { mem name with req := ring' }, ?_, ⟨?_, ?_⟩,
      sameElsewhere_update _⟩
    · simp [trySend, pushed]
    · simpa using queued
    · simpa using carries.rep
  · refine .inr ?_
    simp [trySend, rejected]

/-- The server's `try_recv`: nothing, an exception over an oversized request, or
the oldest request. -/
theorem RegionCarries.server_recv (carries : RegionCarries name p mem req rep) (capacity : Nat) :
    tryRecv ⟨name, p, true⟩ mem capacity = .ok none ∨
      tryRecv ⟨name, p, true⟩ mem capacity = .error recvBufferTooSmall ∨
      (∃ m rest mem', req = m :: rest ∧ m.length ≤ capacity ∧
        tryRecv ⟨name, p, true⟩ mem capacity = .ok (some (m, mem')) ∧
        RegionCarries name p mem' rest rep ∧ SameElsewhere name mem mem') := by
  rcases carries.req.pop capacity with ⟨nothing, -⟩ | ⟨m, rest, -, -, thrown⟩ |
    ⟨m, rest, ring', queue, fits, popped, left⟩
  · exact .inl (by simp [tryRecv, nothing])
  · exact .inr (.inl (by simp [tryRecv, thrown]))
  · refine .inr (.inr ⟨m, rest, Function.update mem name { mem name with req := ring' }, queue, fits,
      ?_, ⟨?_, ?_⟩, sameElsewhere_update _⟩)
    · simp [tryRecv, popped]
    · simpa using left
    · simpa using carries.rep

/-- The client's `try_recv`: nothing, an exception, or the oldest reply. -/
theorem RegionCarries.client_recv (carries : RegionCarries name p mem req rep) (capacity : Nat) :
    tryRecv ⟨name, p, false⟩ mem capacity = .ok none ∨
      tryRecv ⟨name, p, false⟩ mem capacity = .error recvBufferTooSmall ∨
      (∃ m rest mem', rep = m :: rest ∧ m.length ≤ capacity ∧
        tryRecv ⟨name, p, false⟩ mem capacity = .ok (some (m, mem')) ∧
        RegionCarries name p mem' req rest ∧ SameElsewhere name mem mem') := by
  rcases carries.rep.pop capacity with ⟨nothing, -⟩ | ⟨m, rest, -, -, thrown⟩ |
    ⟨m, rest, ring', queue, fits, popped, left⟩
  · exact .inl (by simp [tryRecv, nothing])
  · exact .inr (.inl (by simp [tryRecv, thrown]))
  · refine .inr (.inr ⟨m, rest, Function.update mem name { mem name with rep := ring' }, queue, fits,
      ?_, ⟨?_, ?_⟩, sameElsewhere_update _⟩)
    · simp [tryRecv, popped]
    · simpa using carries.req
    · simpa using left

/-- What the server's `try_send` makes of a reply ring. -/
theorem Carries.server_send {payload : Bytes} {ok : Bool} (carries : Carries p (mem name).rep rep)
    (sent : trySend ⟨name, p, true⟩ mem payload = (mem', ok)) :
    Carries p (mem' name).rep (if ok then rep ++ [cut p payload] else rep) := by
  rcases carries.push payload with ⟨ring', pushed, queued⟩ | ⟨rejected, -⟩
  · simp only [trySend, if_true, pushed, Prod.mk.injEq] at sent
    obtain ⟨rfl, rfl⟩ := sent
    simpa using queued
  · simp only [trySend, if_true, rejected, Prod.mk.injEq] at sent
    obtain ⟨rfl, rfl⟩ := sent
    simpa using carries

/-- The server's `try_recv` leaves every reply ring as it was. -/
theorem server_recv_rep {capacity : Nat} {msg : Bytes}
    (received : tryRecv ⟨name, p, true⟩ mem capacity = .ok (some (msg, mem'))) (n : CStr) :
    (mem' n).rep = (mem n).rep := by
  simp only [tryRecv, if_true] at received
  split at received <;> cases received
  by_cases here : n = name
  · subst here
    simp
  · rw [Function.update_of_ne here]

/-- It takes no message out of its slot. -/
theorem server_recv_slots {capacity : Nat} {msg : Bytes}
    (received : tryRecv ⟨name, p, true⟩ mem capacity = .ok (some (msg, mem'))) (n : CStr) :
    (mem' n).req.slots = (mem n).req.slots := by
  have popped : ∀ {ring ring' : ShmRing},
      shmTryPopSlot p ring capacity = .ok (some (msg, ring')) → ring'.slots = ring.slots := by
    intro ring ring' pop
    simp only [shmTryPopSlot] at pop
    split at pop
    · cases pop
    · split at pop <;> cases pop
      rfl
  simp only [tryRecv, if_true] at received
  split at received <;> cases received
  by_cases here : n = name
  · subst here
    rw [Function.update_self]
    exact popped ‹_›
  · rw [Function.update_of_ne here]

/-! ### Without wrapped counters -/

/-- The region after the server's pop of a request. -/
def takeRequest (name : CStr) (mem : ShmMemory) : ShmMemory :=
  Function.update mem name { mem name with req := poppedRing (mem name).req }

variable {q : List Bytes} {m : Bytes} {capacity : Nat}

theorem Live.recv_empty (live : Live p (mem name).req []) :
    tryRecv ⟨name, p, true⟩ mem capacity = .ok none := by
  simp [tryRecv, live.pop_empty]

theorem Live.recv_cons (live : Live p (mem name).req (m :: q)) (fits : m.length ≤ capacity) :
    tryRecv ⟨name, p, true⟩ mem capacity = .ok (some (m, takeRequest name mem)) := by
  simp [tryRecv, live.pop_cons fits, takeRequest]

theorem Live.recv_too_small (live : Live p (mem name).req (m :: q)) (long : capacity < m.length) :
    tryRecv ⟨name, p, true⟩ mem capacity = .error recvBufferTooSmall := by
  simp [tryRecv, live.pop_too_small long]

/-- The server's `try_send` leaves every request ring as it was. -/
theorem server_send_req {payload : Bytes} {ok : Bool}
    (sent : trySend ⟨name, p, true⟩ mem payload = (mem', ok)) (n : CStr) :
    (mem' n).req = (mem n).req := by
  simp only [trySend, if_true, Prod.mk.injEq] at sent
  rw [← sent.1]
  by_cases here : n = name
  · subst here
    simp
  · rw [Function.update_of_ne here]

end RoboticsIpc.ShmSpsc
