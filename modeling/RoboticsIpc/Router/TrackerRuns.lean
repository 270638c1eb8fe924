import RoboticsIpc.Lib.Earlier
import RoboticsIpc.Lib.StepRun
import RoboticsIpc.Router.SourceSeqTracker

/-!
Runs of a `SourceSeqTracker`.

The counters of a slot are `uint64_t`: what the machine keeps is the slot of
`SeqSlot.observe` with its counters modulo 2^64 (`OwnLog.counted`). A source's slot is a
run of that source's calls alone (`own_runCalls`), so what is true of a slot and its
answers (`Ledger`) is true in any tracker, among any other sources.
-/

namespace RoboticsIpc

open Earlier StepRun

/-! ### Calls -/

/-- The counters as 64 bits hold them. -/
def SeqSlot.wrapped (slot : SeqSlot) : SeqSlot := { slot with
  samples := slot.samples % 2 ^ 64
  gaps := slot.gaps % 2 ^ 64
  duplicates := slot.duplicates % 2 ^ 64
  outOfOrder := slot.outOfOrder % 2 ^ 64 }

/-- `observe` on `uint64_t` counters. -/
def SeqSlot.observe64 (slot : SeqSlot) (seq : UInt32) : SeqSlot × Observation :=
  ((slot.observe seq).1.wrapped, (slot.observe seq).2)

def SourceSeqTracker.observe64 {N : Nat} (tracker : SourceSeqTracker N) (source : UInt8)
    (seq : UInt32) : SourceSeqTracker N × Observation :=
  if inside : source.toNat < N then
    let (slot, seen) := (tracker.slots ⟨source.toNat, inside⟩).observe64 seq
    (⟨Function.update tracker.slots ⟨source.toNat, inside⟩ slot⟩, seen)
  else
    (tracker, .first)

inductive TrackerCall where
  | observe (source : UInt8) (seq : UInt32)
  | reset (source : UInt8)
  | clear

namespace TrackerCall

/-- The calls that are about a source. -/
def concerns (source : UInt8) : TrackerCall → Bool
  | .observe id _ | .reset id => id == source
  | .clear => true

/-- The calls that make the tracker forget a source. -/
def forgets (source : UInt8) : TrackerCall → Bool
  | .observe _ _ => false
  | .reset id => id == source
  | .clear => true

end TrackerCall

/-- A tracker, with what it has answered for each source since that was forgotten. -/
structure TrackerRun (N : Nat) where
  tracker : SourceSeqTracker N := {}
  seen : UInt8 → List (UInt32 × Observation) := fun _ => []

variable {N : Nat}

def TrackerRun.call (s : TrackerRun N) : TrackerCall → TrackerRun N
  | .observe source seq =>
      let (tracker, answer) := s.tracker.observe64 source seq
      ⟨tracker, Function.update s.seen source (s.seen source ++ [(seq, answer)])⟩
  | .reset source => ⟨s.tracker.reset source, Function.update s.seen source []⟩
  | .clear => ⟨s.tracker.clear, fun _ => []⟩

def runCalls (N : Nat) (calls : List TrackerCall) : TrackerRun N := calls.foldl TrackerRun.call {}

/-! ### One source -/

/-- A slot and what it has answered. -/
structure OwnLog where
  slot : SeqSlot := {}
  seen : List (UInt32 × Observation) := []

def OwnLog.call (own : OwnLog) : TrackerCall → OwnLog
  | .observe _ seq =>
      ⟨(own.slot.observe64 seq).1, own.seen ++ [(seq, (own.slot.observe64 seq).2)]⟩
  | .reset _ | .clear => {}

/-- A source's part of a run. -/
def TrackerRun.own (s : TrackerRun N) (source : UInt8) : OwnLog :=
  ⟨s.tracker.slot source, s.seen source⟩

theorem own_call_concerned {source : UInt8} (inside : source.toNat < N) (s : TrackerRun N)
    (c : TrackerCall) (concerned : c.concerns source = true) :
    (s.call c).own source = (s.own source).call c := by
  cases c with
  | observe id seq =>
      obtain rfl : id = source := by simpa [TrackerCall.concerns] using concerned
      simp only [TrackerRun.call, TrackerRun.own, OwnLog.call, SourceSeqTracker.observe64,
        SourceSeqTracker.slot, inside, dif_pos, Function.update_self]
  | reset id =>
      obtain rfl : id = source := by simpa [TrackerCall.concerns] using concerned
      simp only [TrackerRun.call, TrackerRun.own, OwnLog.call, SourceSeqTracker.reset,
        SourceSeqTracker.slot, inside, dif_pos, Function.update_self]
  | clear =>
      simp only [TrackerRun.call, TrackerRun.own, OwnLog.call, SourceSeqTracker.clear,
        SourceSeqTracker.slot, inside, dif_pos]

/-- A write to the slot of another source. -/
theorem slot_update {source id : UInt8} (other : id ≠ source) (tracker : SourceSeqTracker N)
    (inside : id.toNat < N) (slot : SeqSlot) :
    SourceSeqTracker.slot ⟨Function.update tracker.slots ⟨id.toNat, inside⟩ slot⟩ source =
      tracker.slot source := by
  have apart : source.toNat ≠ id.toNat := fun same => other (UInt8.toNat_inj.mp same).symm
  simp only [SourceSeqTracker.slot]
  split
  · rw [Function.update_of_ne]
    intro same
    exact apart (Fin.mk.inj_iff.mp same)
  · rfl

theorem own_call_spared {source : UInt8} (s : TrackerRun N) (c : TrackerCall)
    (spared : c.concerns source = false) : (s.call c).own source = s.own source := by
  cases c with
  | observe id seq =>
      have other : id ≠ source := by simpa [TrackerCall.concerns] using spared
      simp only [TrackerRun.call, TrackerRun.own, Function.update_of_ne (Ne.symm other)]
      congr 1
      rw [SourceSeqTracker.observe64]
      split
      · exact slot_update other ..
      · rfl
  | reset id =>
      have other : id ≠ source := by simpa [TrackerCall.concerns] using spared
      simp only [TrackerRun.call, TrackerRun.own, Function.update_of_ne (Ne.symm other)]
      congr 1
      rw [SourceSeqTracker.reset]
      split
      · exact slot_update other ..
      · rfl
  | clear => cases spared

/-- Calls act on a source through those that concern it. -/
theorem own_foldl {source : UInt8} (inside : source.toNat < N) (calls : List TrackerCall)
    (s : TrackerRun N) : (calls.foldl TrackerRun.call s).own source =
      (calls.filter (TrackerCall.concerns source)).foldl OwnLog.call (s.own source) :=
  view_foldl (fun s => s.own source) (own_call_concerned inside) own_call_spared calls s

theorem own_new (source : UInt8) : ({} : TrackerRun N).own source = {} := by
  simp only [TrackerRun.own, SourceSeqTracker.slot, dite_eq_ite, ite_self]

theorem own_runCalls {source : UInt8} (inside : source.toNat < N) (calls : List TrackerCall) :
    (runCalls N calls).own source =
      (calls.filter (TrackerCall.concerns source)).foldl OwnLog.call {} := by
  rw [runCalls, own_foldl inside, own_new]

/-! ### The counters behind 64 bits -/

/-- The slot that has counted these calls, its counters unbounded. -/
def counted (seqs : List UInt32) : SeqSlot :=
  seqs.foldl (fun slot seq => (slot.observe seq).1) {}

theorem counted_concat (seqs : List UInt32) (seq : UInt32) :
    counted (seqs ++ [seq]) = ((counted seqs).observe seq).1 := by
  rw [counted, List.foldl_concat, ← counted]

/-- These calls with their answers. -/
def answered (seqs : List UInt32) : List (UInt32 × Observation) :=
  (withEarlier seqs).map fun (before, seq) => (seq, ((counted before).observe seq).2)

theorem answered_concat (seqs : List UInt32) (seq : UInt32) :
    answered (seqs ++ [seq]) = answered seqs ++ [(seq, ((counted seqs).observe seq).2)] := by
  rw [answered, withEarlier_concat, List.map_append]
  rfl

theorem map_fst_answered (seqs : List UInt32) : (answered seqs).map Prod.fst = seqs := by
  rw [answered, List.map_map]
  exact map_snd_withEarlier seqs

namespace SeqSlot

/-- What a call does to a slot, by how far `seq` is ahead of the last. -/
inductive Observed (slot : SeqSlot) (seq : UInt32) : SeqSlot × Observation → Prop where
  | first (new : slot.valid = false) : Observed slot seq
      ({ slot with samples := slot.samples + 1, valid := true, lastSeq := seq }, .first)
  | duplicate (known : slot.valid = true) (same : (seq - slot.lastSeq).toNat = 0) :
      Observed slot seq
        ({ slot with samples := slot.samples + 1, duplicates := slot.duplicates + 1 }, .duplicate)
  | inOrder (known : slot.valid = true) (next : (seq - slot.lastSeq).toNat = 1) :
      Observed slot seq ({ slot with samples := slot.samples + 1, lastSeq := seq }, .inOrder)
  | gap (known : slot.valid = true) (beyond : 1 < (seq - slot.lastSeq).toNat)
      (forward : (seq - slot.lastSeq).toNat < 2 ^ 31) : Observed slot seq
      ({ slot with
        samples := slot.samples + 1
        gaps := slot.gaps + ((seq - slot.lastSeq).toNat - 1)
        lastSeq := seq }, .gap)
  | outOfOrder (known : slot.valid = true) (behind : 2 ^ 31 ≤ (seq - slot.lastSeq).toNat) :
      Observed slot seq
        ({ slot with samples := slot.samples + 1, outOfOrder := slot.outOfOrder + 1 }, .outOfOrder)

theorem observed {slot : SeqSlot} {seq : UInt32} {outcome : SeqSlot × Observation}
    (did : slot.observe seq = outcome) : Observed slot seq outcome := by
  have window : kForwardWindow.toNat = 2 ^ 31 := rfl
  subst did
  by_cases new : slot.valid = false
  · simp only [observe, if_pos new]
    exact .first new
  · have known : slot.valid = true := Bool.eq_true_of_not_eq_false new
    by_cases same : seq - slot.lastSeq = 0
    · simp only [observe, if_neg new, if_pos same]
      exact .duplicate known (congrArg UInt32.toNat same)
    · have moved : (seq - slot.lastSeq).toNat ≠ 0 := fun none => same (UInt32.toNat_inj.mp none)
      by_cases forward : seq - slot.lastSeq < kForwardWindow
      · have near := UInt32.lt_iff_toNat_lt.mp forward
        by_cases far : 1 < seq - slot.lastSeq
        · have missing : (seq - slot.lastSeq - 1).toNat = (seq - slot.lastSeq).toNat - 1 :=
            UInt32.toNat_sub_of_le _ _ (UInt32.le_of_lt far)
          simp only [observe, if_neg new, if_neg same, if_pos forward, if_pos far, missing]
          exact .gap known (UInt32.lt_iff_toNat_lt.mp far) (window ▸ near)
        · simp only [observe, if_neg new, if_neg same, if_pos forward, if_neg far]
          refine .inOrder known ?_
          rw [UInt32.lt_iff_toNat_lt, UInt32.toNat_one] at far
          omega
      · simp only [observe, if_neg new, if_neg same, if_neg forward]
        exact .outOfOrder known (window ▸ Nat.not_lt.mp (mt UInt32.lt_iff_toNat_lt.mpr forward))

/-- A call does the same modulo 2^64: the answer does not depend on the counters. -/
theorem observe64_wrapped (slot : SeqSlot) (seq : UInt32) :
    slot.wrapped.observe64 seq = ((slot.observe seq).1.wrapped, (slot.observe seq).2) := by
  have valid : slot.wrapped.valid = slot.valid := rfl
  have last : slot.wrapped.lastSeq = slot.lastSeq := rfl
  simp only [observe64, observe, valid, last]
  split
  · simp [wrapped, Nat.add_mod]
  · split
    · simp [wrapped, Nat.add_mod]
    · split
      · split <;> simp [wrapped, Nat.add_mod]
      · simp [wrapped, Nat.add_mod]

end SeqSlot

/-- The calls for a source, since it was last forgotten, determine its slot and answers. -/
theorem own_counted {source : UInt8} (inside : source.toNat < N) (calls : List TrackerCall) :
    ∃ seqs, (runCalls N calls).own source = ⟨(counted seqs).wrapped, answered seqs⟩ := by
  rw [own_runCalls inside]
  generalize calls.filter (TrackerCall.concerns source) = own
  induction own using List.reverseRecOn with
  | nil => exact ⟨[], rfl⟩
  | append_singleton own c ih =>
      obtain ⟨seqs, here⟩ := ih
      rw [List.foldl_concat, here]
      cases c with
      | observe id seq =>
          refine ⟨seqs ++ [seq], ?_⟩
          rw [OwnLog.call, SeqSlot.observe64_wrapped, counted_concat, answered_concat]
      | reset id => exact ⟨[], rfl⟩
      | clear => exact ⟨[], rfl⟩

/-- The sequence numbers of the calls for a source since it was last forgotten. -/
def TrackerRun.seqs (s : TrackerRun N) (source : UInt8) : List UInt32 :=
  (s.seen source).map Prod.fst

theorem slot_runCalls {source : UInt8} (inside : source.toNat < N) (calls : List TrackerCall) :
    (runCalls N calls).tracker.slot source = (counted ((runCalls N calls).seqs source)).wrapped := by
  obtain ⟨seqs, own⟩ := own_counted inside calls
  have seen : (runCalls N calls).seen source = answered seqs := congrArg OwnLog.seen own
  rw [TrackerRun.seqs, seen, map_fst_answered]
  exact congrArg OwnLog.slot own

theorem seen_runCalls {source : UInt8} (inside : source.toNat < N) (calls : List TrackerCall) :
    (runCalls N calls).seen source = answered ((runCalls N calls).seqs source) := by
  obtain ⟨seqs, own⟩ := own_counted inside calls
  have seen : (runCalls N calls).seen source = answered seqs := congrArg OwnLog.seen own
  rw [TrackerRun.seqs, seen, map_fst_answered]

/-! ### The books -/

def countAnswers (o : Observation) (seen : List (UInt32 × Observation)) : Nat :=
  (seen.map Prod.snd).count o

theorem countAnswers_concat (o : Observation) (seen : List (UInt32 × Observation)) (seq : UInt32)
    (answer : Observation) : countAnswers o (seen ++ [(seq, answer)]) =
      countAnswers o seen + if answer = o then 1 else 0 := by
  simp [countAnswers, List.count_append, List.count_singleton]

/-- The counters of a slot against its answers. -/
structure Ledger (seen : List (UInt32 × Observation)) (slot : SeqSlot) : Prop where
  new : seen = [] → slot = {}
  valid : seen ≠ [] → slot.valid = true
  first : countAnswers .first seen = if slot.valid then 1 else 0
  samples : slot.samples = countAnswers .first seen + countAnswers .inOrder seen +
    countAnswers .gap seen + slot.duplicates + slot.outOfOrder
  last : ∀ entry, seen.head? = some entry → slot.lastSeq - entry.1 =
    UInt32.ofNat (slot.gaps + countAnswers .inOrder seen + countAnswers .gap seen)

/-- The answers that move the last sequence number. -/
def Observation.forwards : Observation → Nat
  | .inOrder | .gap => 1
  | .first | .duplicate | .outOfOrder => 0

/-- A call after the first keeps the books when it adds one to what it should. -/
theorem Ledger.continued {seen : List (UInt32 × Observation)} {slot next : SeqSlot} {seq : UInt32}
    {answer : Observation} {missing : Nat} (books : Ledger seen slot) (known : slot.valid = true)
    (later : answer ≠ .first) (still : next.valid = true) (samples : next.samples = slot.samples + 1)
    (sorted : next.duplicates + next.outOfOrder + answer.forwards =
      slot.duplicates + slot.outOfOrder + 1)
    (gaps : next.gaps = slot.gaps + missing)
    (moved : next.lastSeq - slot.lastSeq = UInt32.ofNat (missing + answer.forwards)) :
    Ledger (seen ++ [(seq, answer)]) next := by
  have started : seen ≠ [] := by
    intro none
    rw [books.new none] at known
    cases known
  have first := books.first
  have forward : (if answer = .inOrder then 1 else 0) + (if answer = .gap then 1 else 0) =
      answer.forwards := by
    cases answer <;> rfl
  refine ⟨by simp, fun _ => still, ?_, ?_, ?_⟩
  · rw [countAnswers_concat, if_neg later, Nat.add_zero, first, known, still]
  · have balance := books.samples
    simp only [countAnswers_concat, if_neg later]
    omega
  · intro entry head
    rw [List.head?_append_of_ne_nil _ started] at head
    have split : next.lastSeq - entry.1 = next.lastSeq - slot.lastSeq + (slot.lastSeq - entry.1) :=
      (sub_add_sub_cancel ..).symm
    rw [split, moved, books.last entry head, ← UInt32.ofNat_add]
    simp only [countAnswers_concat]
    congr 1
    omega

theorem Ledger.observe {seen : List (UInt32 × Observation)} {slot : SeqSlot}
    (books : Ledger seen slot) (seq : UInt32) :
    Ledger (seen ++ [(seq, (slot.observe seq).2)]) (slot.observe seq).1 := by
  have distance : ∀ {ahead : Nat}, (seq - slot.lastSeq).toNat = ahead →
      seq - slot.lastSeq = UInt32.ofNat ahead := by
    rintro _ rfl
    exact UInt32.ofNat_toNat.symm
  generalize did : slot.observe seq = outcome
  cases SeqSlot.observed did with
  | first new =>
      have none : seen = [] := by
        by_contra some
        rw [books.valid some] at new
        cases new
      obtain rfl := books.new none
      subst none
      refine ⟨by simp, fun _ => rfl, rfl, rfl, ?_⟩
      rintro entry ⟨⟩
      exact sub_self seq
  | duplicate known same =>
      refine books.continued known nofun known rfl ?_ (Nat.add_zero _).symm (sub_self _)
      simp only [Observation.forwards]
      omega
  | inOrder known next => exact books.continued known nofun known rfl rfl rfl (distance next)
  | gap known beyond forward =>
      refine books.continued known nofun known rfl rfl rfl (distance ?_)
      simp only [Observation.forwards]
      omega
  | outOfOrder known behind =>
      refine books.continued known nofun known rfl ?_ (Nat.add_zero _).symm (sub_self _)
      simp only [Observation.forwards]
      omega

theorem ledger_counted (seqs : List UInt32) : Ledger (answered seqs) (counted seqs) := by
  induction seqs using List.reverseRecOn with
  | nil => exact ⟨fun _ => rfl, fun some => absurd rfl some, rfl, rfl, nofun⟩
  | append_singleton seqs seq ih =>
      rw [answered_concat, counted_concat]
      exact ih.observe seq

/-- The counters of a slot are at most those of another. -/
structure SeqSlot.NoMore (slot later : SeqSlot) : Prop where
  samples : slot.samples ≤ later.samples
  gaps : slot.gaps ≤ later.gaps
  duplicates : slot.duplicates ≤ later.duplicates
  outOfOrder : slot.outOfOrder ≤ later.outOfOrder

theorem noMore_observe (slot : SeqSlot) (seq : UInt32) : slot.NoMore (slot.observe seq).1 := by
  generalize did : slot.observe seq = outcome
  cases SeqSlot.observed did <;> constructor <;> simp

theorem noMore_counted (seqs more : List UInt32) :
    (counted seqs).NoMore (counted (seqs ++ more)) := by
  induction more using List.reverseRecOn with
  | nil =>
      rw [List.append_nil]
      exact ⟨Nat.le_refl _, Nat.le_refl _, Nat.le_refl _, Nat.le_refl _⟩
  | append_singleton more seq ih =>
      have step := noMore_observe (counted (seqs ++ more)) seq
      rw [← List.append_assoc, counted_concat]
      exact ⟨ih.samples.trans step.samples, ih.gaps.trans step.gaps,
        ih.duplicates.trans step.duplicates, ih.outOfOrder.trans step.outOfOrder⟩

/-- Counters that 64 bits can hold. -/
structure SeqSlot.Fits (slot : SeqSlot) : Prop where
  samples : slot.samples < 2 ^ 64
  gaps : slot.gaps < 2 ^ 64
  duplicates : slot.duplicates < 2 ^ 64
  outOfOrder : slot.outOfOrder < 2 ^ 64

theorem SeqSlot.Fits.wrapped_eq {slot : SeqSlot} (fits : slot.Fits) : slot.wrapped = slot := by
  rw [wrapped, Nat.mod_eq_of_lt fits.samples, Nat.mod_eq_of_lt fits.gaps,
    Nat.mod_eq_of_lt fits.duplicates, Nat.mod_eq_of_lt fits.outOfOrder]

theorem SeqSlot.NoMore.fits {slot later : SeqSlot} (less : slot.NoMore later) (fits : later.Fits) :
    slot.Fits :=
  ⟨less.samples.trans_lt fits.samples, less.gaps.trans_lt fits.gaps,
    less.duplicates.trans_lt fits.duplicates, less.outOfOrder.trans_lt fits.outOfOrder⟩

/-- How often the calls for a source since it was last forgotten had this answer. -/
def TrackerRun.countAnswers (s : TrackerRun N) (source : UInt8) (o : Observation) : Nat :=
  RoboticsIpc.countAnswers o (s.seen source)

/-- The books of a source: what the accessors say, against what the calls answered. -/
structure Books (s : TrackerRun N) (source : UInt8) : Prop where
  samples : s.tracker.sampleCount source = s.countAnswers source .first +
    s.countAnswers source .inOrder + s.countAnswers source .gap +
    s.tracker.duplicateCount source + s.tracker.outOfOrderCount source
  firstOnce : s.countAnswers source .first ≤ 1
  first_iff : s.countAnswers source .first = 1 ↔ s.tracker.has source = true
  last : ∀ entry, (s.seen source).head? = some entry →
    s.tracker.lastSeq source - entry.1 = UInt32.ofNat (s.tracker.gapCount source +
      s.countAnswers source .inOrder + s.countAnswers source .gap)

/-- Nothing but the calls that concern a source matters for it. -/
structure TracksAlone (N : Nat) (calls : List TrackerCall) (source : UInt8) : Prop where
  own : (runCalls N calls).own source =
    (runCalls N (calls.filter (TrackerCall.concerns source))).own source
  others : ∀ c : TrackerCall, c.concerns source = false →
    ((runCalls N calls).call c).own source = (runCalls N calls).own source
  foreign : ∀ id : UInt8, N ≤ id.toNat →
    (∀ seq, (runCalls N calls).tracker.observe64 id seq = ((runCalls N calls).tracker, .first)) ∧
    (runCalls N calls).tracker.reset id = (runCalls N calls).tracker

theorem tracksAlone_runCalls {source : UInt8} (inside : source.toNat < N)
    (calls : List TrackerCall) : TracksAlone N calls source where
  own := by rw [own_runCalls inside, own_runCalls inside, List.filter_filter]; simp
  others c spared := own_call_spared _ c spared
  foreign id beyond :=
    ⟨fun _ => dif_neg (Nat.not_lt.mpr beyond), dif_neg (Nat.not_lt.mpr beyond)⟩

/-- A call that does not forget a source adds to its calls. -/
theorem seqs_call {source : UInt8} (s : TrackerRun N) {c : TrackerCall}
    (kept : c.forgets source = false) : ∃ more, (s.call c).seqs source = s.seqs source ++ more := by
  cases c with
  | observe id seq =>
      by_cases own : id = source
      · subst own
        refine ⟨[seq], ?_⟩
        simp only [TrackerRun.call, TrackerRun.seqs, Function.update_self, List.map_append]
        rfl
      · refine ⟨[], ?_⟩
        simp only [TrackerRun.call, TrackerRun.seqs, Function.update_of_ne (Ne.symm own),
          List.append_nil]
  | reset id =>
      have other : id ≠ source := by simpa [TrackerCall.forgets] using kept
      refine ⟨[], ?_⟩
      simp only [TrackerRun.call, TrackerRun.seqs, Function.update_of_ne (Ne.symm other),
        List.append_nil]
  | clear => cases kept

theorem seqs_later {source : UInt8} (earlier : List TrackerCall) {later : List TrackerCall}
    (kept : ∀ c ∈ later, c.forgets source = false) :
    ∃ more, (runCalls N (earlier ++ later)).seqs source =
      (runCalls N earlier).seqs source ++ more := by
  induction later using List.reverseRecOn with
  | nil => exact ⟨[], by rw [List.append_nil, List.append_nil]⟩
  | append_singleton later c ih =>
      obtain ⟨more, before⟩ := ih fun c mem => kept c (List.mem_append_left _ mem)
      obtain ⟨last, step⟩ := seqs_call (runCalls N (earlier ++ later)) (kept c (by simp))
      refine ⟨more ++ last, ?_⟩
      rw [← List.append_assoc, runCalls, List.foldl_concat, ← runCalls, step, before,
        List.append_assoc]

/-- The calls for one source in a row. -/
def observeAll (source : UInt8) (seqs : List UInt32) : List TrackerCall :=
  seqs.map (TrackerCall.observe source)

theorem seqs_observeAll (N : Nat) (source : UInt8) (seqs : List UInt32) :
    (runCalls N (observeAll source seqs)).seqs source = seqs := by
  induction seqs using List.reverseRecOn with
  | nil => rfl
  | append_singleton seqs seq ih =>
      rw [observeAll, List.map_append, ← observeAll, List.map_singleton, runCalls,
        List.foldl_concat, ← runCalls]
      simp only [TrackerRun.seqs, TrackerRun.call, Function.update_self, List.map_append] at ih ⊢
      rw [ih]
      rfl

/-- Where 64 bits hold the counters of the last calls, they held the earlier ones. -/
theorem noMore_runCalls {source : UInt8} (inside : source.toNat < N)
    {earlier later : List TrackerCall} (kept : ∀ c ∈ later, c.forgets source = false)
    (fits : (counted ((runCalls N (earlier ++ later)).seqs source)).Fits) :
    ((runCalls N earlier).tracker.slot source).NoMore
      ((runCalls N (earlier ++ later)).tracker.slot source) := by
  obtain ⟨more, grown⟩ := seqs_later (N := N) earlier kept
  have less := noMore_counted ((runCalls N earlier).seqs source) more
  rw [slot_runCalls inside, slot_runCalls inside, fits.wrapped_eq]
  rw [grown] at fits ⊢
  rwa [(less.fits fits).wrapped_eq]

theorem books_runCalls {source : UInt8} (inside : source.toNat < N) (calls : List TrackerCall)
    (fits : (counted ((runCalls N calls).seqs source)).Fits) :
    Books (runCalls N calls) source := by
  have slot := slot_runCalls inside calls
  have books := ledger_counted ((runCalls N calls).seqs source)
  rw [fits.wrapped_eq] at slot
  rw [← slot, ← seen_runCalls inside] at books
  have first := books.first
  refine ⟨books.samples, ?_, ?_, books.last⟩
  · rw [TrackerRun.countAnswers, first]
    split <;> decide
  · rw [TrackerRun.countAnswers, first, SourceSeqTracker.has]
    cases ((runCalls N calls).tracker.slot source).valid <;> decide

/-- The books of every source balance after any calls, whatever other sources do, as long as
64 bits hold its counters; and these only grow until the source is forgotten. -/
theorem tracker_books {source : UInt8} (inside : source.toNat < N) (calls : List TrackerCall) :
    TracksAlone N calls source ∧
      ((counted ((runCalls N calls).seqs source)).Fits →
        Books (runCalls N calls) source ∧
        ∀ earlier later, calls = earlier ++ later → (∀ c ∈ later, c.forgets source = false) →
          ((runCalls N earlier).tracker.slot source).NoMore
            ((runCalls N calls).tracker.slot source)) := by
  refine ⟨tracksAlone_runCalls inside calls, ?_⟩
  intro fits
  refine ⟨books_runCalls inside calls fits, ?_⟩
  rintro earlier later rfl kept
  exact noMore_runCalls inside kept fits

/-- Two sources, a wrap, a stale frame and a reset. -/
def twoSources : List TrackerCall :=
  [.observe 1 7, .reset 1, .observe 1 0xfffffffe, .observe 0 5, .observe 1 3, .observe 1 1,
    .observe 9 9, .observe 1 4, .reset 0]

theorem tracker_books_twoSources : Books (runCalls 2 twoSources) 1 := by
  have inside : (1 : UInt8).toNat < 2 := by decide
  have fits : (counted ((runCalls 2 twoSources).seqs 1)).Fits :=
    ⟨by decide, by decide, by decide, by decide⟩
  exact ((tracker_books inside twoSources).2 fits).1

end RoboticsIpc
