import RoboticsIpc.Ipc.ShmSpsc

/-!
One ring in two runs.

Two producers offer the same payloads to rings that start out empty and are popped
together, but one of them holds some payloads back. `Coupled` says that its ring is
never the fuller one, nor ahead in its counters: so it is not the first to reach the
wrap of `head` that ends a ring's deliveries. Every joint offer and every joint pop
keeps it (`Coupled.offer`, `Coupled.pop`).
-/

namespace RoboticsIpc.ShmSpsc

open ByteBuffer RingWindow

/-- How many slots the counters say are taken. -/
def ShmRing.occupancy (ring : ShmRing) : Nat := u64Sub ring.head ring.tail

/-- The ring after a producer's turn: one that holds the payload back leaves it alone. -/
def offerRing (p : RingParams) (ring : ShmRing) (holdsBack : Prop) [Decidable holdsBack]
    (payload : Bytes) : ShmRing :=
  if holdsBack then ring else (shmTryPushSlot p ring payload).1

/-- The ring after an attempt to pop into a buffer of this size. -/
def popRing (p : RingParams) (ring : ShmRing) (capacity : Nat) : ShmRing :=
  match shmTryPopSlot p ring capacity with
  | .ok (some (_, ring')) => ring'
  | _ => ring

variable {p : RingParams} {capacity : Nat} {ring a b : ShmRing} {q : List Bytes} {payload : Bytes}

/-! ### Occupancy -/

theorem Live.occupancy (live : Live p ring q) : ring.occupancy = q.length := live.pending

theorem Carries.occupancy_le (carries : Carries p ring q) : ring.occupancy ≤ p.slotCount := by
  rcases carries with live | jammed
  · rw [live.occupancy]
    exact live.room
  · obtain ⟨wrapped, tail, room⟩ := jammed
    simp only [ShmRing.occupancy, u64Sub]
    omega

theorem Carries.occupancy_pushed (carries : Carries p ring q)
    (room : ring.occupancy < p.slotCount) (payload : Bytes) :
    (pushedRing p ring payload).occupancy = ring.occupancy + 1 := by
  have counters : ring.head < 2 ^ 64 ∧ ring.tail < 2 ^ 64 := by
    rcases carries with live | ⟨wrapped, tail, -⟩
    · have := live.head_eq
      have := live.head_lt
      omega
    · omega
  have slots := p.slotCount_lt
  simp only [ShmRing.occupancy, pushedRing, u64Sub, u64Inc] at room ⊢
  omega

/-! ### One producer's turn -/

/-- Every pending message fits the consumer's buffer. -/
def Short (capacity : Nat) (q : List Bytes) : Prop := ∀ m ∈ q, m.length ≤ capacity

theorem Short.push (short : Short capacity q) (fits : payload.length ≤ capacity) :
    Short capacity (q ++ [cut p payload]) := by
  intro m mem
  rcases List.mem_append.mp mem with old | new
  · exact short m old
  · rw [List.mem_singleton.mp new, length_cut]
    omega

/-- A turn adds at most one message, within the ring's slots. -/
theorem Carries.offer (carries : Carries p ring q) (short : Short capacity q)
    (holdsBack : Prop) [Decidable holdsBack] (fits : payload.length ≤ capacity) :
    ∃ q', Carries p (offerRing p ring holdsBack payload) q' ∧ Short capacity q' ∧
      (offerRing p ring holdsBack payload).occupancy ≤ ring.occupancy + 1 := by
  unfold offerRing
  split
  · exact ⟨q, carries, short, Nat.le_succ _⟩
  · rcases Nat.lt_or_ge ring.occupancy p.slotCount with room | full
    · rw [shmTryPushSlot_room payload room]
      exact ⟨_, carries.pushed room, short.push fits, (carries.occupancy_pushed room payload).le⟩
    · rw [shmTryPushSlot_full payload full]
      exact ⟨q, carries, short, Nat.le_succ _⟩

/-- Below the wrap a turn keeps the ring live and its tail in place. -/
theorem Live.offer (live : Live p ring q) (short : Short capacity q) (holdsBack : Prop)
    [Decidable holdsBack] (fits : payload.length ≤ capacity) (below : ring.head + 1 < 2 ^ 64) :
    ∃ q', Live p (offerRing p ring holdsBack payload) q' ∧ Short capacity q' ∧
      q'.length ≤ q.length + 1 ∧ (offerRing p ring holdsBack payload).tail = ring.tail := by
  unfold offerRing
  split
  · exact ⟨q, live, short, Nat.le_succ _, rfl⟩
  · rcases Nat.lt_or_ge q.length p.slotCount with room | full
    · rw [shmTryPushSlot_room payload (by rw [live.pending]; exact room)]
      exact ⟨_, live.push_room room below, short.push fits, by simp, rfl⟩
    · rw [live.push_full (Nat.le_antisymm live.room full)]
      exact ⟨q, live, short, Nat.le_succ _, rfl⟩

theorem Jammed.offer (jammed : Jammed p ring) (payload : Bytes) :
    Jammed p (shmTryPushSlot p ring payload).1 := by
  rcases Nat.lt_or_ge (u64Sub ring.head ring.tail) p.slotCount with room | full
  · rw [shmTryPushSlot_room payload room]
    exact jammed.push room
  · rw [shmTryPushSlot_full payload full]
    exact jammed

/-! ### Coupling -/

/-- `a` is the ring of the producer that holds payloads back, `b` that of the other. -/
inductive Coupled (p : RingParams) (capacity : Nat) (a b : ShmRing) : Prop
  | live {qa qb : List Bytes} (left : Live p a qa) (right : Live p b qb)
      (leftShort : Short capacity qa) (rightShort : Short capacity qb)
      (fewer : qa.length ≤ qb.length) (behind : a.tail ≤ b.tail)
  | jammed {qa : List Bytes} (left : Carries p a qa) (right : Jammed p b)
      (leftShort : Short capacity qa) (fewer : a.occupancy ≤ b.occupancy)

theorem Coupled.occupancy_le (coupled : Coupled p capacity a b) : a.occupancy ≤ b.occupancy := by
  cases coupled with
  | live left right _ _ fewer _ =>
      rw [left.occupancy, right.occupancy]
      exact fewer
  | jammed _ _ _ fewer => exact fewer

/-- Two empty rings with the same counters. -/
theorem Coupled.refl (live : Live p a []) : Coupled p capacity a a :=
  have none : Short capacity [] := nofun
  .live live live none none (Nat.le_refl _) (Nat.le_refl _)

/-- Both producers take a turn with a payload, which the first may hold back. -/
theorem Coupled.offer (coupled : Coupled p capacity a b) (holdsBack : Prop) [Decidable holdsBack]
    (fits : payload.length ≤ capacity) :
    Coupled p capacity (offerRing p a holdsBack payload) (shmTryPushSlot p b payload).1 := by
  cases coupled with
  | @live qa qb left right leftShort rightShort fewer behind =>
      have leftHead := left.head_eq
      have rightHead := right.head_eq
      have top := right.head_lt
      rcases Nat.lt_or_ge qb.length p.slotCount with room | full
      · have free : u64Sub b.head b.tail < p.slotCount := by rw [right.pending]; exact room
        rw [shmTryPushSlot_room payload free]
        by_cases below : b.head + 1 < 2 ^ 64
        · obtain ⟨qa', left', short', most, tail⟩ :=
            left.offer leftShort holdsBack fits (by omega)
          refine .live left' (right.push_room room below) short' (rightShort.push fits) ?_ ?_
          · simp only [List.length_append, List.length_singleton]
            omega
          · rw [tail]
            exact behind
        · obtain ⟨qa', left', short', most⟩ :=
            Carries.offer (.inl left) leftShort holdsBack fits
          refine .jammed left' (right.push_wraps room below) short' ?_
          have one := Carries.occupancy_pushed (.inl right) free payload
          rw [left.occupancy] at most
          rw [right.occupancy] at one
          change _ ≤ (pushedRing p b payload).occupancy
          omega
      · -- `a` may be the only one with a free slot. It is behind `b`, so it does not wrap.
        have count := Nat.le_antisymm right.room full
        rw [right.push_full count]
        by_cases space : qa.length < p.slotCount
        · obtain ⟨qa', left', short', -, tail⟩ :=
            left.offer leftShort holdsBack fits (by omega)
          exact .live left' right short' rightShort (left'.room.trans full) (by rw [tail]; exact behind)
        · have leftFull : qa.length = p.slotCount := by have := left.room; omega
          have same : offerRing p a holdsBack payload = a := by
            unfold offerRing
            rw [left.push_full leftFull, ite_self]
          rw [same]
          exact .live left right leftShort rightShort fewer behind
  | @jammed qa left right leftShort fewer =>
      obtain ⟨qa', left', short', most⟩ := left.offer leftShort holdsBack fits
      refine .jammed left' (right.offer payload) short' ?_
      rcases Nat.lt_or_ge b.occupancy p.slotCount with room | full
      · have one := Carries.occupancy_pushed (q := []) (.inr right) room payload
        rw [shmTryPushSlot_room payload room]
        change _ ≤ (pushedRing p b payload).occupancy
        omega
      · rw [shmTryPushSlot_full payload full]
        exact left'.occupancy_le.trans full

theorem Live.popRing_cons {m : Bytes} (live : Live p ring (m :: q))
    (short : Short capacity (m :: q)) : popRing p ring capacity = poppedRing ring := by
  rw [popRing, live.pop_cons (short m List.mem_cons_self)]

theorem Live.popRing_nil (live : Live p ring []) : popRing p ring capacity = ring := by
  rw [popRing, live.pop_empty]

theorem Jammed.popRing (jammed : Jammed p ring) : popRing p ring capacity = ring := by
  rw [ShmSpsc.popRing, jammed.pop]

theorem Live.tail_popped {m : Bytes} (live : Live p ring (m :: q)) :
    (poppedRing ring).tail = ring.tail + 1 := by
  have head := live.head_eq
  have top := live.head_lt
  rw [List.length_cons] at head
  exact Nat.mod_eq_of_lt (by omega)

/-- Both consumers try to pop. -/
theorem Coupled.pop (coupled : Coupled p capacity a b) :
    Coupled p capacity (popRing p a capacity) (popRing p b capacity) := by
  have rest : ∀ {m : Bytes} {q : List Bytes}, Short capacity (m :: q) → Short capacity q :=
    fun short m mem => short m (List.mem_cons_of_mem _ mem)
  cases coupled with
  | @live qa qb left right leftShort rightShort fewer behind =>
      cases qb with
      | nil =>
          obtain rfl : qa = [] := List.eq_nil_of_length_eq_zero (Nat.le_zero.mp fewer)
          rw [left.popRing_nil, right.popRing_nil]
          exact .live left right leftShort rightShort fewer behind
      | cons mb rb =>
          have rightTail := right.tail_popped
          rw [right.popRing_cons rightShort]
          cases qa with
          | nil =>
              rw [left.popRing_nil]
              exact .live left right.popped leftShort (rest rightShort) (Nat.zero_le _) (by omega)
          | cons ma ra =>
              have leftTail := left.tail_popped
              rw [left.popRing_cons leftShort]
              exact .live left.popped right.popped (rest leftShort) (rest rightShort)
                (Nat.le_of_succ_le_succ fewer) (by omega)
  | @jammed qa left right leftShort fewer =>
      rw [right.popRing]
      rcases left with live | jammed
      · cases qa with
        | nil =>
            rw [live.popRing_nil]
            exact .jammed (.inl live) right leftShort fewer
        | cons m q =>
            rw [live.popRing_cons leftShort]
            refine .jammed (.inl live.popped) right (rest leftShort) ?_
            rw [live.occupancy] at fewer
            rw [live.popped.occupancy]
            exact (Nat.le_succ _).trans fewer
      · rw [jammed.popRing]
        exact .jammed (.inr jammed) right leftShort fewer

end RoboticsIpc.ShmSpsc
