import RoboticsIpc.Lib.SerialNumbers
import RoboticsIpc.Router.TrackerRuns

/-!
The tracker's answers against the true order of the numbers.

A publisher counts with integers and sends them modulo 2^32. As long as each is in the
window around the largest so far, the distances modulo 2^32 that a slot looks at tell the
true ones (`ahead_wire`), so its answers are those of an observer of the integers and its
counters are theirs, modulo 2^64 (`Follows.observe`).
-/

namespace RoboticsIpc

open Earlier SerialNumbers

variable {N : Nat} {ns : List Int} {n m : Int} {slot : SeqSlot}

/-- A number as it is sent. -/
def wire (n : Int) : UInt32 := UInt32.ofInt n

theorem toNat_wire (n : Int) : ((wire n).toNat : Int) = n % 2 ^ 32 := by
  have positive : 0 ≤ n % 2 ^ 32 := Int.emod_nonneg n (by decide)
  have small : n % 2 ^ 32 < 2 ^ 32 := Int.emod_lt_of_pos n (by decide)
  rw [wire, UInt32.ofInt, UInt32.toNat_ofNat_of_lt' (by rw [UInt32.size]; omega)]
  exact Int.toNat_of_nonneg positive

theorem wire_sub (n m : Int) : wire n - wire m = wire (n - m) := by
  rw [wire, wire, wire, Int.sub_eq_add_neg, UInt32.ofInt_add, UInt32.ofInt_neg,
    UInt32.sub_eq_add_neg]

/-- The distance a slot sees. -/
theorem ahead_wire (n m : Int) : ((wire n - wire m).toNat : Int) = ahead (2 ^ 31) n m := by
  rw [wire_sub, toNat_wire, ahead]
  rfl

/-- Where a number stands to those before it. -/
def orderOf (before : List Int) (n : Int) : Observation :=
  match before.max? with
  | none => .first
  | some m =>
      if n = m then .duplicate
      else if n = m + 1 then .inOrder
      else if m + 1 < n then .gap
      else .outOfOrder

/-- The numbers that raised the largest. -/
def raises : List Int → Nat := countAgainst fun m n => m < n

def repeats : List Int → Nat := countAgainst fun m n => m = n

def stales : List Int → Nat := countAgainst fun m n => n < m

/-- A slot that has followed these numbers. -/
structure Follows (ns : List Int) (slot : SeqSlot) : Prop where
  new : ns = [] → slot = {}
  valid : ns ≠ [] → slot.valid = true
  last : ∀ m, ns.max? = some m → slot.lastSeq = wire m
  gaps : ∀ start m, ns.head? = some start → ns.max? = some m →
    (slot.gaps : Int) = m - start - raises ns
  samples : slot.samples = ns.length
  duplicates : slot.duplicates = repeats ns
  outOfOrder : slot.outOfOrder = stales ns

/-- A number after the first is followed by what adds its part to the counters. -/
theorem Follows.continued {next : SeqSlot} (inv : Follows ns slot) (largest : ns.max? = some m)
    (valid : next.valid = true) (last : next.lastSeq = wire (max m n))
    (gaps : (next.gaps : Int) = slot.gaps + (max m n - m) - if m < n then 1 else 0)
    (samples : next.samples = slot.samples + 1)
    (duplicates : next.duplicates = slot.duplicates + if m = n then 1 else 0)
    (outOfOrder : next.outOfOrder = slot.outOfOrder + if n < m then 1 else 0) :
    Follows (ns ++ [n]) next := by
  have some : ns ≠ [] := by
    rintro rfl
    cases largest
  have grown := max?_concat (n := n) largest
  refine ⟨by simp, fun _ => valid, ?_, ?_, ?_, ?_, ?_⟩
  · intro top found
    cases grown.symm.trans found
    exact last
  · intro start top head found
    cases grown.symm.trans found
    rw [List.head?_append_of_ne_nil _ some] at head
    rw [gaps, inv.gaps start m head largest, raises, countAgainst_concat, largest, ← raises]
    simp only [Option.any_some, decide_eq_true_eq]
    split <;> omega
  · rw [samples, inv.samples, List.length_append, List.length_singleton]
  · rw [duplicates, inv.duplicates, repeats, countAgainst_concat, largest]
    simp only [Option.any_some, decide_eq_true_eq]
  · rw [outOfOrder, inv.outOfOrder, stales, countAgainst_concat, largest]
    simp only [Option.any_some, decide_eq_true_eq]

theorem Follows.observe (inv : Follows ns slot)
    (window : ∀ m, ns.max? = some m → InWindow (2 ^ 31) m n) :
    Follows (ns ++ [n]) (slot.observe (wire n)).1 ∧ (slot.observe (wire n)).2 = orderOf ns n := by
  cases largest : ns.max? with
  | none =>
      obtain rfl := List.max?_eq_none_iff.mp largest
      obtain rfl := inv.new rfl
      refine ⟨⟨by simp, fun _ => rfl, ?_, ?_, rfl, rfl, rfl⟩, rfl⟩
      · rintro m ⟨⟩
        rfl
      · rintro start m ⟨⟩ ⟨⟩
        change ((0 : Nat) : Int) = n - n - ((0 : Nat) : Int)
        rw [sub_self]
        rfl
  | some m =>
      have around := window m largest
      have known : slot.valid = true := inv.valid (by rintro rfl; cases largest)
      have last := inv.last m largest
      have distance : ((wire n - slot.lastSeq).toNat : Int) = ahead (2 ^ 31) n m := by
        rw [last]
        exact ahead_wire n m
      have order : orderOf ns n = if n = m then .duplicate else if n = m + 1 then .inOrder
          else if m + 1 < n then .gap else .outOfOrder := by
        rw [orderOf, largest]
      rw [order]
      generalize did : slot.observe (wire n) = outcome
      cases SeqSlot.observed did with
      | first new => rw [new] at known; cases known
      | duplicate _ same =>
          have equal : n = m := around.ahead_eq_zero_iff.mp (by omega)
          subst equal
          refine ⟨inv.continued largest known ?_ ?_ rfl ?_ ?_, (if_pos rfl).symm⟩ <;> simp [last]
      | inOrder _ next =>
          have forward : m ≤ n := around.ahead_lt_iff.mp (by omega)
          have step := around.ahead_of_le forward
          have one : n = m + 1 := by omega
          refine ⟨inv.continued largest known ?_ ?_ rfl ?_ ?_, ?_⟩ <;> simp [one]
      | gap _ beyond near =>
          have forward : m ≤ n := around.ahead_lt_iff.mp (by omega)
          have step := around.ahead_of_le forward
          refine ⟨inv.continued largest known ?_ ?_ rfl ?_ ?_, ?_⟩
          · rw [max_eq_right forward]
          · rw [max_eq_right forward, if_pos (by omega)]
            dsimp only
            omega
          · simp only [if_neg (show m ≠ n by omega), Nat.add_zero]
          · simp only [if_neg (show ¬ n < m by omega), Nat.add_zero]
          · rw [if_neg (by omega), if_neg (by omega), if_pos (by omega)]
      | outOfOrder _ behind =>
          have backward : n < m := by
            by_contra reached
            have near := around.ahead_lt_iff.mpr (Int.not_lt.mp reached)
            omega
          refine ⟨inv.continued largest known ?_ ?_ rfl ?_ ?_, ?_⟩
          · rw [max_eq_left backward.le, ← last]
          · rw [max_eq_left backward.le, if_neg (by omega)]
            dsimp only
            omega
          · simp only [if_neg (show m ≠ n by omega), Nat.add_zero]
          · simp only [if_pos backward]
          · rw [if_neg (by omega), if_neg (by omega), if_neg (by omega)]

/-- Every run in the window is followed. -/
theorem follows_counted (windowed : Windowed (2 ^ 31) ns) :
    Follows ns (counted (ns.map wire)) ∧
      (answered (ns.map wire)).map Prod.snd =
        (withEarlier ns).map fun (before, n) => orderOf before n := by
  induction ns using List.reverseRecOn with
  | nil => exact ⟨⟨fun _ => rfl, fun some => absurd rfl some, nofun, nofun, rfl, rfl, rfl⟩, rfl⟩
  | append_singleton ns n ih =>
      obtain ⟨earlier, around⟩ := windowed_concat.mp windowed
      obtain ⟨inv, answers⟩ := ih earlier
      obtain ⟨next, answer⟩ := inv.observe around
      rw [List.map_append, List.map_singleton, counted_concat, answered_concat, withEarlier_concat,
        List.map_append, List.map_append, answers]
      refine ⟨next, ?_⟩
      rw [List.map_singleton, List.map_singleton, answer]

/-- A source's accessors and answers after these numbers. -/
structure KeepsOrder (ns : List Int) (s : TrackerRun N) (source : UInt8) : Prop where
  has : s.tracker.has source = true ↔ ns ≠ []
  last : ∀ m, ns.max? = some m → s.tracker.lastSeq source = wire m
  answers : (s.seen source).map Prod.snd =
    (withEarlier ns).map fun (before, n) => orderOf before n
  gaps : ∀ start m, ns.head? = some start → ns.max? = some m →
    (s.tracker.gapCount source : Int) = (m - start - raises ns) % 2 ^ 64
  samples : s.tracker.sampleCount source = ns.length % 2 ^ 64
  duplicates : s.tracker.duplicateCount source = repeats ns % 2 ^ 64
  outOfOrder : s.tracker.outOfOrderCount source = stales ns % 2 ^ 64

/-- What 64 bits keep of the skipped numbers. -/
theorem gapCount_runCalls {source : UInt8} (inside : source.toNat < N) {calls : List TrackerCall}
    (sent : (runCalls N calls).seqs source = ns.map wire) (windowed : Windowed (2 ^ 31) ns)
    {start : Int} (head : ns.head? = some start) (largest : ns.max? = some m) :
    ((runCalls N calls).tracker.gapCount source : Int) = (m - start - raises ns) % 2 ^ 64 := by
  have inv := (follows_counted windowed).1
  rw [SourceSeqTracker.gapCount, slot_runCalls inside, sent, ← inv.gaps start m head largest]
  exact Int.natCast_emod _ _

/-- As long as the numbers stay in the window around the largest so far, the answers are those
of their true order, over any number of wraps, and the counters count them modulo 2^64. -/
theorem tracker_order {source : UInt8} (inside : source.toNat < N) (calls : List TrackerCall)
    (sent : (runCalls N calls).seqs source = ns.map wire) (windowed : Windowed (2 ^ 31) ns) :
    KeepsOrder ns (runCalls N calls) source := by
  obtain ⟨inv, answers⟩ := follows_counted windowed
  have slot := slot_runCalls inside calls
  rw [sent] at slot
  constructor
  case gaps => exact fun start m head largest =>
    gapCount_runCalls inside sent windowed head largest
  case answers => rw [seen_runCalls inside, sent, answers]
  case last =>
    intro m largest
    rw [SourceSeqTracker.lastSeq, slot]
    exact inv.last m largest
  case has =>
    rw [SourceSeqTracker.has, slot]
    constructor
    · rintro known rfl
      cases known
    · exact inv.valid
  case samples => rw [SourceSeqTracker.sampleCount, slot, ← inv.samples]; rfl
  case duplicates => rw [SourceSeqTracker.duplicateCount, slot, ← inv.duplicates]; rfl
  case outOfOrder => rw [SourceSeqTracker.outOfOrderCount, slot, ← inv.outOfOrder]; rfl

/-- Numbers around a wrap, one late and one twice. -/
def aroundWrap : List Int := [-2, 3, 1, 3, 4]

theorem tracker_order_aroundWrap :
    KeepsOrder aroundWrap (runCalls 2 (observeAll 1 (aroundWrap.map wire))) 1 := by
  have inside : (1 : UInt8).toNat < 2 := by decide
  have windowed : Windowed (2 ^ 31) aroundWrap := by
    intro p mem m largest
    have pairs : p ∈ [([], (-2 : Int)), ([-2], 3), ([-2, 3], 1), ([-2, 3, 1], 3),
      ([-2, 3, 1, 3], 4)] := mem
    simp only [List.mem_cons, List.not_mem_nil, or_false] at pairs
    rcases pairs with rfl | rfl | rfl | rfl | rfl <;> cases largest <;> constructor <;> decide
  exact tracker_order inside _ (seqs_observeAll 2 1 _) windowed

/-! ### Where 64 bits are too few -/

/-- Steps of 2^31 - 1. -/
def farJumps (n : Nat) : List Int := (List.range n).map fun i : Nat => (i : Int) * (2 ^ 31 - 1)

theorem farJumps_succ (n : Nat) : farJumps (n + 1) = farJumps n ++ [(n : Int) * (2 ^ 31 - 1)] := by
  rw [farJumps, List.range_succ, List.map_append, ← farJumps]
  rfl

theorem max?_farJumps (n : Nat) : (farJumps (n + 1)).max? = some ((n : Int) * (2 ^ 31 - 1)) := by
  induction n with
  | zero => rfl
  | succ n ih =>
      rw [farJumps_succ, max?_concat ih]
      congr 1
      omega

theorem head?_farJumps (n : Nat) : (farJumps (n + 1)).head? = some 0 := by
  rw [farJumps, List.range_succ_eq_map]
  rfl

theorem windowed_farJumps (n : Nat) : Windowed (2 ^ 31) (farJumps n) := by
  induction n with
  | zero => exact fun p mem => absurd mem List.not_mem_nil
  | succ n ih =>
      rw [farJumps_succ, windowed_concat]
      refine ⟨ih, ?_⟩
      intro m largest
      cases n with
      | zero => cases largest
      | succ n =>
          cases (max?_farJumps n).symm.trans largest
          constructor <;> omega

theorem raises_farJumps (n : Nat) : raises (farJumps (n + 1)) = n := by
  induction n with
  | zero => rfl
  | succ n ih =>
      rw [farJumps_succ, raises, countAgainst_concat, max?_farJumps, ← raises, ih, Option.any_some,
        if_pos (by rw [decide_eq_true_eq]; omega)]

/-- After 2^33 + 10 such steps the count of the skipped numbers has passed 2^64. -/
theorem gap_count_wraps :
    (runCalls 1 (observeAll 0 ((farJumps (2 ^ 33 + 9 + 1)).map wire))).seqs 0 =
      (farJumps (2 ^ 33 + 9 + 1)).map wire ∧
    Windowed (2 ^ 31) (farJumps (2 ^ 33 + 9 + 1)) ∧
    ∃ start m, (farJumps (2 ^ 33 + 9 + 1)).head? = some start ∧
      (farJumps (2 ^ 33 + 9 + 1)).max? = some m ∧
      ((runCalls 1 (observeAll 0 ((farJumps (2 ^ 33 + 9 + 1)).map wire))).tracker.gapCount 0 : Int) ≠
        m - start - raises (farJumps (2 ^ 33 + 9 + 1)) := by
  have inside : (0 : UInt8).toNat < 1 := by decide
  have sent := seqs_observeAll 1 0 ((farJumps (2 ^ 33 + 9 + 1)).map wire)
  have windowed := windowed_farJumps (2 ^ 33 + 9 + 1)
  have head := head?_farJumps (2 ^ 33 + 9)
  have largest := max?_farJumps (2 ^ 33 + 9)
  refine ⟨sent, windowed, 0, _, head, largest, ?_⟩
  rw [gapCount_runCalls inside sent windowed head largest, raises_farJumps]
  decide

end RoboticsIpc
