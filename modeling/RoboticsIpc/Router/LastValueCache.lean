import Mathlib.Data.Fintype.Basic
import Mathlib.Data.List.FinRange
import RoboticsIpc.Lib.LatestValue
import RoboticsIpc.Router.FrameCodec
import RoboticsIpc.Router.TrackerOrder

/-!
`LastValueCache` (`router/last_value_cache.hpp`) and the read path of a subscriber, which
feeds each frame to its cache and to its `SourceSeqTracker`.

The cache keeps the latest frame of each source below `N` (`cache_refines`). What the
tracker answered to the last frame of a source says whether the cached one is the newest
received (`cache_in_step`).
-/

namespace RoboticsIpc

open Earlier LatestValue SerialNumbers

structure CacheSlot where
  frame : RouterFrame := .zero
  valid : Bool := false

/-- A cache of the sources below `N`. -/
structure LastValueCache (N : Nat) where
  slots : Fin N → CacheSlot := fun _ => {}

namespace LastValueCache

variable {N : Nat}

def update (cache : LastValueCache N) (source : UInt8) (frame : RouterFrame) : LastValueCache N :=
  if inside : source.toNat < N then
    ⟨Function.update cache.slots ⟨source.toNat, inside⟩ { frame, valid := true }⟩
  else cache

def has (cache : LastValueCache N) (source : UInt8) : Bool :=
  if inside : source.toNat < N then (cache.slots ⟨source.toNat, inside⟩).valid else false

/-- `latest`: the result, and `out` after the call. -/
def latest (cache : LastValueCache N) (source : UInt8) (out : RouterFrame) : Bool × RouterFrame :=
  if inside : source.toNat < N then
    let slot := cache.slots ⟨source.toNat, inside⟩
    if slot.valid then (true, slot.frame) else (false, out)
  else (false, out)

def size (cache : LastValueCache N) : Nat :=
  (List.finRange N).foldl (fun count i => if (cache.slots i).valid then count + 1 else count) 0

/-- The frames stay behind the cleared flags. -/
def clear (cache : LastValueCache N) : LastValueCache N :=
  ⟨fun i => { cache.slots i with valid := false }⟩

end LastValueCache

inductive CacheCall where
  | update (source : UInt8) (frame : RouterFrame)
  | clear

variable {N : Nat}

def LastValueCache.call (cache : LastValueCache N) : CacheCall → LastValueCache N
  | .update source frame => cache.update source frame
  | .clear => cache.clear

/-- A new cache after these calls. -/
def runCache (N : Nat) (calls : List CacheCall) : LastValueCache N :=
  calls.foldl LastValueCache.call {}

/-! ### The map behind the slots -/

/-- The slot of a source, if there is one. -/
def slotOf (N : Nat) (source : UInt8) : Option (Fin N) :=
  if inside : source.toNat < N then some ⟨source.toNat, inside⟩ else none

/-- What a call is to the map: an update from `N` on is nothing. -/
def CacheCall.event (N : Nat) : CacheCall → Option (Event (Fin N) RouterFrame)
  | .update source frame => (slotOf N source).map fun i => .put i frame
  | .clear => some .forget

def LastValueCache.view (cache : LastValueCache N) (i : Fin N) : Option RouterFrame :=
  if (cache.slots i).valid then some (cache.slots i).frame else none

theorem keeps_view :
    Keeps (LastValueCache.view (N := N)) LastValueCache.call (CacheCall.event N) where
  put cache call i frame event := by
    cases call with
    | clear => cases event
    | update source stored =>
        by_cases inside : source.toNat < N
        · simp only [CacheCall.event, slotOf, inside, dif_pos, Option.map_some, Option.some.injEq,
            Event.put.injEq] at event
          obtain ⟨rfl, rfl⟩ := event
          funext j
          simp only [LastValueCache.view, LastValueCache.call, LastValueCache.update, inside,
            dif_pos, Function.update_apply]
          split <;> rfl
        · simp [CacheCall.event, slotOf, inside] at event
  forget cache call event := by
    cases call with
    | clear => rfl
    | update source stored =>
        cases slot : slotOf N source <;> simp [CacheCall.event, slot] at event
  other cache call event := by
    cases call with
    | clear => cases event
    | update source stored =>
        by_cases inside : source.toNat < N
        · simp [CacheCall.event, slotOf, inside] at event
        · simp only [LastValueCache.call, LastValueCache.update, inside, dif_neg,
            not_false_eq_true]

theorem view_runCache (calls : List CacheCall) :
    (runCache N calls).view = LatestValue.latest (calls.filterMap (CacheCall.event N)) :=
  view_run keeps_view rfl calls

/-- `size` counts the slots that show a frame. -/
theorem size_eq_card (cache : LastValueCache N) :
    cache.size = (Finset.univ.filter fun i => (cache.view i).isSome = true).card := by
  have counts : ∀ (slots : List (Fin N)) (count : Nat),
      slots.foldl (fun count i => if (cache.slots i).valid then count + 1 else count) count =
        count + slots.countP fun i => (cache.view i).isSome := by
    intro slots
    induction slots with
    | nil => exact fun _ => rfl
    | cons i rest ih =>
        intro count
        rw [List.foldl_cons, ih, List.countP_cons, LastValueCache.view]
        cases (cache.slots i).valid with
        | false => simp
        | true => simp [Nat.add_assoc, Nat.add_comm 1]
  have listed : ((List.finRange N).filter fun i => (cache.view i).isSome).toFinset =
      Finset.univ.filter fun i => (cache.view i).isSome = true := by
    ext i
    simp
  rw [LastValueCache.size, counts, Nat.zero_add, List.countP_eq_length_filter, ← listed,
    List.toFinset_card_of_nodup ((List.nodup_finRange N).filter _)]

/-- A cache that is the map of the latest frames. -/
structure HoldsLatest (cache : LastValueCache N) (events : List (Event (Fin N) RouterFrame)) :
    Prop where
  latest : ∀ source out, cache.latest source out =
    match (slotOf N source).bind (LatestValue.latest events) with
    | some frame => (true, frame)
    | none => (false, out)
  has : ∀ source, cache.has source = ((slotOf N source).bind (LatestValue.latest events)).isSome
  size : cache.size = (LatestValue.keys events).card

/-- After any calls the cache holds, for each source it has a slot for, the frame of the last
update since the last `clear`; `size` is the number of such sources; and where there is no frame
`latest` leaves `out` alone. -/
theorem cache_refines (calls : List CacheCall) :
    HoldsLatest (runCache N calls) (calls.filterMap (CacheCall.event N)) := by
  have view := view_runCache (N := N) calls
  rw [funext_iff] at view
  constructor
  case size =>
    rw [size_eq_card]
    congr 1
    ext i
    rw [Finset.mem_filter, mem_keys, view]
    simp
  case latest =>
    intro source out
    by_cases inside : source.toNat < N
    · simp only [slotOf, inside, dif_pos, Option.bind_some, ← view, LastValueCache.latest,
        LastValueCache.view]
      split <;> rfl
    · simp only [slotOf, inside, dif_neg, not_false_eq_true, Option.bind_none,
        LastValueCache.latest]
  case has =>
    intro source
    by_cases inside : source.toNat < N
    · simp only [slotOf, inside, dif_pos, Option.bind_some, ← view, LastValueCache.has,
        LastValueCache.view]
      split <;> simp_all
    · simp only [slotOf, inside, dif_neg, not_false_eq_true, Option.bind_none, LastValueCache.has]
      rfl

/-! ### The read path -/

inductive SubscriberCall where
  | read (frame : RouterFrame)
  /-- The publisher is known to have restarted. -/
  | reset (source : UInt8)
  | clear

structure Subscriber (N : Nat) where
  cache : LastValueCache N := {}
  tracks : TrackerRun N := {}

/-- A read is `cache.update(source, frame)` and `tracker.observe(source, frame.seq())`. -/
def Subscriber.call (sub : Subscriber N) : SubscriberCall → Subscriber N
  | .read frame =>
      ⟨sub.cache.update frame.source frame, sub.tracks.call (.observe frame.source frame.seq)⟩
  | .reset source => { sub with tracks := sub.tracks.call (.reset source) }
  | .clear => ⟨sub.cache.clear, sub.tracks.call .clear⟩

def runSubscriber (N : Nat) (calls : List SubscriberCall) : Subscriber N :=
  calls.foldl Subscriber.call {}

/-- What a call is to the tracker. -/
def SubscriberCall.toTracker : SubscriberCall → TrackerCall
  | .read frame => .observe frame.source frame.seq
  | .reset source => .reset source
  | .clear => .clear

/-- What a call is to the cache. -/
def SubscriberCall.toCache : SubscriberCall → Option CacheCall
  | .read frame => some (.update frame.source frame)
  | .reset _ => none
  | .clear => some .clear

theorem runSubscriber_concat (calls : List SubscriberCall) (c : SubscriberCall) :
    runSubscriber N (calls ++ [c]) = (runSubscriber N calls).call c := by
  rw [runSubscriber, List.foldl_concat, ← runSubscriber]

theorem runSubscriber_eq (calls : List SubscriberCall) : runSubscriber N calls =
    ⟨runCache N (calls.filterMap SubscriberCall.toCache),
      runCalls N (calls.map SubscriberCall.toTracker)⟩ := by
  induction calls using List.reverseRecOn with
  | nil => rfl
  | append_singleton calls c ih =>
      have cache (more : List CacheCall) :
          runCache N (calls.filterMap SubscriberCall.toCache ++ more) =
            more.foldl LastValueCache.call (runCache N (calls.filterMap SubscriberCall.toCache)) :=
        List.foldl_append
      have tracks (more : List TrackerCall) :
          runCalls N (calls.map SubscriberCall.toTracker ++ more) =
            more.foldl TrackerRun.call (runCalls N (calls.map SubscriberCall.toTracker)) :=
        List.foldl_append
      rw [runSubscriber_concat, ih, List.filterMap_append, List.map_append, cache, tracks]
      cases c <;> rfl

theorem tracks_runSubscriber (calls : List SubscriberCall) :
    (runSubscriber N calls).tracks = runCalls N (calls.map SubscriberCall.toTracker) := by
  rw [runSubscriber_eq]

/-- After a call the number is the last one kept, unless it was stale. -/
theorem SeqSlot.observe64_last (slot : SeqSlot) (seq : UInt32) :
    (slot.observe64 seq).1.valid = true ∧
      (seq = (slot.observe64 seq).1.lastSeq ↔ (slot.observe64 seq).2 ≠ .outOfOrder) := by
  have did : Observed slot seq (slot.observe seq) := observed rfl
  rw [observe64]
  generalize slot.observe seq = outcome at did
  cases did with
  | first new => exact ⟨rfl, fun _ => Observation.noConfusion, fun _ => rfl⟩
  | duplicate known same =>
      have here : seq = slot.lastSeq := by
        have zero : seq - slot.lastSeq = 0 := UInt32.toNat_inj.mp same
        exact sub_eq_zero.mp zero
      exact ⟨known, fun _ => Observation.noConfusion, fun _ => here⟩
  | inOrder known next => exact ⟨known, fun _ => Observation.noConfusion, fun _ => rfl⟩
  | gap known beyond forward => exact ⟨known, fun _ => Observation.noConfusion, fun _ => rfl⟩
  | outOfOrder known behind =>
      refine ⟨known, fun same => ?_, fun stale => absurd rfl stale⟩
      have here : seq = slot.lastSeq := same
      rw [here, UInt32.sub_self] at behind
      exact absurd behind (by decide)

/-- A number is stale where one before it is larger. -/
theorem orderOf_stale {before : List Int} {n : Int} :
    orderOf before n ≠ .outOfOrder ↔ ∀ m ∈ before, m ≤ n := by
  unfold orderOf
  cases largest : before.max? with
  | none =>
      rw [List.max?_eq_none_iff] at largest
      subst largest
      exact ⟨fun _ m mem => absurd mem List.not_mem_nil, fun _ => nofun⟩
  | some m =>
      obtain ⟨listed, upper⟩ := List.max?_eq_some_iff.mp largest
      have bound : (∀ k ∈ before, k ≤ n) ↔ m ≤ n :=
        ⟨fun all => all m listed, fun le k mem => Int.le_trans (upper k mem) le⟩
      rw [bound]
      dsimp only
      split
      · exact ⟨fun _ => by omega, fun _ => nofun⟩
      · split
        · exact ⟨fun _ => by omega, fun _ => nofun⟩
        · split
          · exact ⟨fun _ => by omega, fun _ => nofun⟩
          · exact ⟨fun stale => absurd rfl stale, by omega⟩

namespace LastValueCache

theorem has_eq (cache : LastValueCache N) (source : UInt8) :
    cache.has source = (cache.latest source .zero).1 := by
  by_cases inside : source.toNat < N
  · simp only [has, latest, inside, dif_pos]
    cases (cache.slots ⟨source.toNat, inside⟩).valid <;> rfl
  · simp only [has, latest, inside, dif_neg, not_false_eq_true]

theorem latest_update_self {source : UInt8} (inside : source.toNat < N) (cache : LastValueCache N)
    (frame out : RouterFrame) : (cache.update source frame).latest source out = (true, frame) := by
  simp only [update, latest, inside, dif_pos, Function.update_self, if_true]

theorem latest_update_other {source id : UInt8} (other : id ≠ source) (cache : LastValueCache N)
    (frame out : RouterFrame) :
    (cache.update id frame).latest source out = cache.latest source out := by
  by_cases room : id.toNat < N
  · by_cases inside : source.toNat < N
    · have apart : (⟨source.toNat, inside⟩ : Fin N) ≠ ⟨id.toNat, room⟩ :=
        fun same => other (UInt8.toNat_inj.mp (Fin.mk.inj_iff.mp same)).symm
      simp only [update, latest, room, inside, dif_pos, Function.update_of_ne apart]
    · simp only [update, latest, room, inside, dif_pos, dif_neg, not_false_eq_true]
  · simp only [update, room, dif_neg, not_false_eq_true]

end LastValueCache

/-- The frame of a source that a call reads. -/
def SubscriberCall.frameOf (source : UInt8) : SubscriberCall → Option RouterFrame
  | .read frame => if frame.source = source then some frame else none
  | .reset _ | .clear => none

/-- The last frame of a source that was read. -/
def lastFrame (source : UInt8) (calls : List SubscriberCall) : Option RouterFrame :=
  (calls.filterMap (SubscriberCall.frameOf source)).getLast?

theorem lastFrame_read {source : UInt8} {frame : RouterFrame} (mine : frame.source = source)
    (calls : List SubscriberCall) : lastFrame source (calls ++ [.read frame]) = some frame := by
  simp [lastFrame, SubscriberCall.frameOf, mine]

theorem lastFrame_other {source : UInt8} {c : SubscriberCall} (other : c.frameOf source = none)
    (calls : List SubscriberCall) : lastFrame source (calls ++ [c]) = lastFrame source calls := by
  simp [lastFrame, other]

/-- The tracker's last answer for a source is about the last frame read of it, and that is in the
cache. -/
structure LastRead (sub : Subscriber N) (source : UInt8) (last : Option RouterFrame) : Prop where
  known : sub.tracks.tracker.has source = true ↔ sub.tracks.seen source ≠ []
  shown : ∀ seq answer, (sub.tracks.seen source).getLast? = some (seq, answer) →
    ∃ frame, last = some frame ∧ (∀ out, sub.cache.latest source out = (true, frame)) ∧
      frame.source = source ∧ frame.seq = seq ∧
      (seq = sub.tracks.tracker.lastSeq source ↔ answer ≠ .outOfOrder)

section LastRead

variable {sub : Subscriber N} {source : UInt8} {last : Option RouterFrame}

/-- It is about the tracker's part for the source and the frame in its slot only. -/
theorem LastRead.of_same {sub' : Subscriber N} (inv : LastRead sub source last)
    (own : sub'.tracks.own source = sub.tracks.own source)
    (cache : ∀ out, sub'.cache.latest source out = sub.cache.latest source out) :
    LastRead sub' source last := by
  have slot : sub'.tracks.tracker.slot source = sub.tracks.tracker.slot source :=
    congrArg OwnLog.slot own
  have seen : sub'.tracks.seen source = sub.tracks.seen source := congrArg OwnLog.seen own
  constructor
  case known =>
    rw [SourceSeqTracker.has, slot, seen]
    exact inv.known
  case shown =>
    rw [SourceSeqTracker.lastSeq, slot, seen]
    simp only [cache]
    exact inv.shown

/-- A source the tracker has forgotten. -/
theorem lastRead_forgotten (own : sub.tracks.own source = {}) : LastRead sub source last := by
  have slot : sub.tracks.tracker.slot source = {} := congrArg OwnLog.slot own
  have seen : sub.tracks.seen source = [] := congrArg OwnLog.seen own
  constructor
  case known =>
    rw [SourceSeqTracker.has, slot, seen]
    exact ⟨fun has => absurd has Bool.false_ne_true, fun some => absurd rfl some⟩
  case shown =>
    intro seq answer entry
    rw [seen] at entry
    cases entry

theorem LastRead.call (inside : source.toNat < N) {calls : List SubscriberCall}
    (inv : LastRead sub source (lastFrame source calls)) (c : SubscriberCall) :
    LastRead (sub.call c) source (lastFrame source (calls ++ [c])) := by
  cases c with
  | read frame =>
      by_cases mine : frame.source = source
      · have own := own_call_concerned inside sub.tracks (.observe frame.source frame.seq)
          (by simp [TrackerCall.concerns, mine])
        obtain ⟨known, newest⟩ := (sub.tracks.own source).slot.observe64_last frame.seq
        have slot : (sub.call (.read frame)).tracks.tracker.slot source =
            ((sub.tracks.own source).slot.observe64 frame.seq).1 := congrArg OwnLog.slot own
        have seen : (sub.call (.read frame)).tracks.seen source = sub.tracks.seen source ++
            [(frame.seq, ((sub.tracks.own source).slot.observe64 frame.seq).2)] :=
          congrArg OwnLog.seen own
        constructor
        case known =>
          rw [SourceSeqTracker.has, slot, seen]
          exact ⟨fun _ => by simp, fun _ => known⟩
        case shown =>
          intro seq answer entry
          rw [seen, List.getLast?_concat, Option.some.injEq, Prod.mk.injEq] at entry
          obtain ⟨rfl, rfl⟩ := entry
          refine ⟨frame, lastFrame_read mine calls, fun out => ?_, mine, rfl, ?_⟩
          · subst mine
            exact LastValueCache.latest_update_self inside sub.cache frame out
          · rw [SourceSeqTracker.lastSeq, slot]
            exact newest
      · have spared : (TrackerCall.observe frame.source frame.seq).concerns source = false := by
          simp [TrackerCall.concerns, mine]
        rw [lastFrame_other (c := .read frame) (if_neg mine)]
        exact inv.of_same (own_call_spared sub.tracks _ spared)
          (LastValueCache.latest_update_other mine sub.cache frame)
  | reset id =>
      by_cases mine : id = source
      · exact lastRead_forgotten (own_call_concerned inside sub.tracks (.reset id)
          (by simp [TrackerCall.concerns, mine]))
      · have spared : (TrackerCall.reset id).concerns source = false := by
          simp [TrackerCall.concerns, mine]
        rw [lastFrame_other rfl]
        exact inv.of_same (own_call_spared sub.tracks _ spared) fun _ => rfl
  | clear => exact lastRead_forgotten (own_call_concerned inside sub.tracks .clear rfl)

end LastRead

theorem lastRead_runSubscriber {source : UInt8} (inside : source.toNat < N)
    (calls : List SubscriberCall) :
    LastRead (runSubscriber N calls) source (lastFrame source calls) := by
  induction calls using List.reverseRecOn with
  | nil => exact lastRead_forgotten (own_new source)
  | append_singleton calls c ih =>
      rw [runSubscriber_concat]
      exact ih.call inside c

/-- Without a reset, cache and tracker know the same sources. -/
theorem has_runSubscriber {source : UInt8} (inside : source.toNat < N)
    {calls : List SubscriberCall} (kept : .reset source ∉ calls) :
    (runSubscriber N calls).cache.has source =
      (runSubscriber N calls).tracks.tracker.has source := by
  have tracked (sub : Subscriber N) : sub.tracks.tracker.has source =
      (sub.tracks.own source).slot.valid := rfl
  induction calls using List.reverseRecOn with
  | nil =>
      rw [tracked, runSubscriber, List.foldl_nil, own_new, LastValueCache.has, dif_pos inside]
  | append_singleton calls c ih =>
      have before := ih fun mem => kept (List.mem_append_left _ mem)
      rw [tracked] at before ⊢
      rw [runSubscriber_concat]
      cases c with
      | read frame =>
          by_cases mine : frame.source = source
          · subst mine
            have own := own_call_concerned inside (runSubscriber N calls).tracks
              (.observe frame.source frame.seq) (by simp [TrackerCall.concerns])
            simp only [Subscriber.call, own, OwnLog.call, SeqSlot.observe64_last,
              LastValueCache.has_eq, LastValueCache.latest_update_self inside]
          · have spared : (TrackerCall.observe frame.source frame.seq).concerns source = false := by
              simp [TrackerCall.concerns, mine]
            rw [LastValueCache.has_eq] at before ⊢
            simp only [Subscriber.call, own_call_spared _ _ spared,
              LastValueCache.latest_update_other mine]
            exact before
      | reset id =>
          have spared : (TrackerCall.reset id).concerns source = false := by
            have other : id ≠ source := fun same => kept (by simp [same])
            simp [TrackerCall.concerns, other]
          simp only [Subscriber.call, own_call_spared _ _ spared]
          exact before
      | clear =>
          have own := own_call_concerned inside (runSubscriber N calls).tracks .clear rfl
          simp only [Subscriber.call, own, OwnLog.call, LastValueCache.has, inside, dif_pos,
            LastValueCache.clear]

/-- What cache and tracker say of a source after its last frame. -/
structure InStep (sub : Subscriber N) (source : UInt8) (last : Option RouterFrame) : Prop extends
    LastRead sub source last where
  newest : ∀ before number, sub.tracks.seqs source = (before ++ [number]).map wire →
    Windowed (2 ^ 31) (before ++ [number]) →
    ∀ seq answer, (sub.tracks.seen source).getLast? = some (seq, answer) →
      ((∀ n ∈ before, n ≤ number) ↔ answer ≠ .outOfOrder)

/-- After any reads, resets and clears: where the tracker has answered for a source since it last
forgot it, the cache shows the last frame read of it, which is that of the last answer and the
newest received exactly if the answer was not `OutOfOrder`. Without a reset cache and tracker
know the same sources. -/
theorem cache_in_step {source : UInt8} (inside : source.toNat < N) (calls : List SubscriberCall) :
    InStep (runSubscriber N calls) source (lastFrame source calls) ∧
      (.reset source ∉ calls → (runSubscriber N calls).cache.has source =
        (runSubscriber N calls).tracks.tracker.has source) := by
  have lastRead := lastRead_runSubscriber inside calls
  refine ⟨⟨lastRead, ?_⟩, ?_⟩
  · intro before number sent windowed seq answer entry
    have answers := (follows_counted windowed).2
    rw [← sent, tracks_runSubscriber, ← seen_runCalls inside, ← tracks_runSubscriber,
      withEarlier_concat, List.map_append, List.map_singleton] at answers
    have answered := congrArg List.getLast? answers
    rw [List.getLast?_map, entry, List.getLast?_concat, Option.map_some, Option.some.injEq]
      at answered
    obtain rfl : answer = orderOf before number := answered
    exact orderOf_stale.symm
  · exact has_runSubscriber inside

/-- A wrap, and a frame that comes late; then one of a source that has no slot. -/
def lateRead : List SubscriberCall :=
  let frame (source : UInt8) (n : Int) := (RouterFrame.zero.setSource source).setSeq (wire n)
  [.read (frame 1 (-2)), .read (frame 1 3), .read (frame 1 1), .read (frame 2 7)]

theorem cache_in_step_late : (InStep (runSubscriber 2 lateRead) 1 (lastFrame 1 lateRead) ∧
    (runSubscriber 2 lateRead).cache.has 1 = (runSubscriber 2 lateRead).tracks.tracker.has 1) ∧
    (runSubscriber 2 lateRead).tracks.seqs 1 = ([-2, 3] ++ [1]).map wire ∧
    (runSubscriber 2 lateRead).tracks.seen 1 =
      [(0xFFFFFFFE, .first), (3, .gap), (1, .outOfOrder)] ∧
    (lastFrame 1 lateRead).map RouterFrame.seq = some 1 := by
  have tracked : (1 : UInt8).toNat < 2 := by decide
  obtain ⟨inStep, same⟩ := cache_in_step tracked lateRead
  refine ⟨⟨inStep, same ?_⟩, by decide, by decide, by decide⟩
  simp [lateRead]

end RoboticsIpc
