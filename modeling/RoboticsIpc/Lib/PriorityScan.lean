import Mathlib.Algebra.Order.BigOperators.Group.List
import Mathlib.Algebra.Order.Ring.Nat
import Mathlib.Data.List.Nodup
import Mathlib.Logic.Function.Basic

/-!
Bounded queues under a scan of strict priority.

A scan visits the queues in a fixed order and looks at the front of each. It takes a `pass`
message and goes on, takes a `take` message and stops, and stops without a `block` message.
Producers add to the queues in between, as far as there is room.

Two results about runs: a message waits for no more scans than there are messages before it,
in its own queue and in the queues visited earlier (`bounded_wait`); and a queue is served
exactly as often as a scan gets to it and does not block there (`taken_eq_turns`).
-/

namespace PriorityScan

/-- What a scan does with the message at the front of a queue. -/
inductive Verdict where
  | pass
  | take
  | block
  deriving DecidableEq

variable {K M : Type*}

/-! ### One scan -/

/-- The messages a scan takes, each with the key of its queue. -/
def scan (verdict : M → Verdict) : List (K × List M) → List (K × M)
  | [] => []
  | (_, []) :: rest => scan verdict rest
  | (key, m :: _) :: rest =>
      match verdict m with
      | .pass => (key, m) :: scan verdict rest
      | .take => [(key, m)]
      | .block => []

/-- A scan goes past this queue. -/
def Open (verdict : M → Verdict) (queue : List M) : Prop := ∀ m ∈ queue.head?, verdict m = .pass

instance (verdict : M → Verdict) (queue : List M) : Decidable (Open verdict queue) :=
  inferInstanceAs (Decidable (∀ m ∈ queue.head?, verdict m = .pass))

/-- Its front is taken when a scan gets there. -/
def Free (verdict : M → Verdict) (queue : List M) : Prop :=
  ∃ m ∈ queue.head?, verdict m ≠ .block

instance (verdict : M → Verdict) (queue : List M) : Decidable (Free verdict queue) :=
  inferInstanceAs (Decidable (∃ m ∈ queue.head?, verdict m ≠ .block))

variable {verdict : M → Verdict}

theorem open_cons {m : M} {rest : List M} : Open verdict (m :: rest) ↔ verdict m = .pass := by
  simp [Open]

/-- Open queues hide nothing of what comes after them. -/
theorem scan_append_open {before after : List (K × List M)}
    (past : ∀ e ∈ before, Open verdict e.2) :
    scan verdict (before ++ after) = scan verdict before ++ scan verdict after := by
  induction before with
  | nil => rfl
  | cons e rest ih =>
      obtain ⟨key, queue⟩ := e
      have later := ih fun e mem => past e (List.mem_cons_of_mem _ mem)
      cases queue with
      | nil => exact later
      | cons m more =>
          have goes := open_cons.mp (past _ List.mem_cons_self)
          simp only [List.cons_append, scan, goes, later]

/-- A queue that is not open hides all that comes after it. -/
theorem scan_append_shut {before after : List (K × List M)}
    (stops : ∃ e ∈ before, ¬ Open verdict e.2) :
    scan verdict (before ++ after) = scan verdict before := by
  induction before with
  | nil => simp at stops
  | cons e rest ih =>
      obtain ⟨key, queue⟩ := e
      cases queue with
      | nil =>
          refine ih ?_
          obtain ⟨e, mem, shut⟩ := stops
          rcases List.mem_cons.mp mem with rfl | later
          · exact absurd (by simp [Open]) shut
          · exact ⟨e, later, shut⟩
      | cons m more =>
          cases goes : verdict m with
          | pass =>
              have later : ∃ e ∈ rest, ¬ Open verdict e.2 := by
                obtain ⟨e, mem, shut⟩ := stops
                rcases List.mem_cons.mp mem with rfl | later
                · exact absurd (open_cons.mpr goes) shut
                · exact ⟨e, later, shut⟩
              simp only [List.cons_append, scan, goes, ih later]
          | take | block => simp only [List.cons_append, scan, goes]

theorem scan_append_grows (before after : List (K × List M)) :
    scan verdict before <+: scan verdict (before ++ after) := by
  by_cases past : ∀ e ∈ before, Open verdict e.2
  · rw [scan_append_open past]
    exact List.prefix_append _ _
  · push Not at past
    exact ⟨[], by rw [scan_append_shut past, List.append_nil]⟩

/-- Only the front of a queue is taken. -/
theorem mem_scan {queues : List (K × List M)} {pick : K × M} (mem : pick ∈ scan verdict queues) :
    ∃ more, (pick.1, pick.2 :: more) ∈ queues := by
  induction queues with
  | nil => simp [scan] at mem
  | cons e rest ih =>
      have later : pick ∈ scan verdict rest → ∃ more, (pick.1, pick.2 :: more) ∈ e :: rest := by
        intro inside
        obtain ⟨more, found⟩ := ih inside
        exact ⟨more, List.mem_cons_of_mem e found⟩
      obtain ⟨key, queue⟩ := e
      cases queue with
      | nil => exact later mem
      | cons m more =>
          cases goes : verdict m <;> simp only [scan, goes] at mem
          · rcases List.mem_cons.mp mem with rfl | inside
            · exact ⟨more, List.mem_cons_self⟩
            · exact later inside
          · obtain rfl := List.mem_singleton.mp mem
            exact ⟨more, List.mem_cons_self⟩
          · simp at mem

/-- At most one message of each queue is taken, in the order of the queues. -/
theorem scan_keys_sublist (queues : List (K × List M)) :
    ((scan verdict queues).map Prod.fst).Sublist (queues.map Prod.fst) := by
  induction queues with
  | nil => exact .slnil
  | cons e rest ih =>
      obtain ⟨key, queue⟩ := e
      cases queue with
      | nil => exact ih.cons key
      | cons m more =>
          cases goes : verdict m <;> simp only [scan, goes]
          · exact ih.cons_cons key
          · exact List.Sublist.cons_cons key (List.nil_sublist _)
          · exact List.nil_sublist _

/-- Without a blocking front, a scan of queues that are not all empty takes something. -/
theorem scan_ne_nil {queues : List (K × List M)}
    (free : ∀ e ∈ queues, ∀ m ∈ e.2.head?, verdict m ≠ .block)
    (busy : ∃ e ∈ queues, e.2 ≠ []) : scan verdict queues ≠ [] := by
  induction queues with
  | nil => simp at busy
  | cons e rest ih =>
      obtain ⟨key, queue⟩ := e
      cases queue with
      | nil =>
          refine ih (fun e mem => free e (List.mem_cons_of_mem _ mem)) ?_
          obtain ⟨e, mem, some⟩ := busy
          rcases List.mem_cons.mp mem with rfl | later
          · exact absurd rfl some
          · exact ⟨e, later, some⟩
      | cons m more =>
          have unblocked := free (key, m :: more) List.mem_cons_self m rfl
          cases goes : verdict m with
          | pass => simp [scan, goes]
          | take => simp [scan, goes]
          | block => exact absurd goes unblocked

/-- The queue `queue`, visited after `before`, is served: no earlier queue stops the scan and
its own front does not block. -/
theorem scan_visits {before after : List (K × List M)} {key : K} {queue : List M}
    (nodup : (before ++ (key, queue) :: after).map Prod.fst |>.Nodup) :
    key ∈ (scan verdict (before ++ (key, queue) :: after)).map Prod.fst ↔
      (∀ e ∈ before, Open verdict e.2) ∧ Free verdict queue := by
  rw [List.map_append, List.map_cons, List.nodup_append, List.nodup_cons] at nodup
  obtain ⟨-, ⟨fresh, -⟩, apart⟩ := nodup
  have notBefore : key ∉ (scan verdict before).map Prod.fst := fun mem =>
    apart key ((scan_keys_sublist before).subset mem) key List.mem_cons_self rfl
  have notAfter : key ∉ (scan verdict after).map Prod.fst := fun mem =>
    fresh ((scan_keys_sublist after).subset mem)
  by_cases past : ∀ e ∈ before, Open verdict e.2
  · rw [scan_append_open past, List.map_append, List.mem_append, or_iff_right notBefore,
      and_iff_right past]
    cases queue with
    | nil => simp [scan, notAfter, Free]
    | cons m more => cases goes : verdict m <;> simp [scan, goes, Free]
  · have stops := past
    push Not at stops
    rw [scan_append_shut stops]
    exact ⟨fun mem => absurd mem notBefore, fun both => absurd both.1 past⟩

/-! ### A scheduler -/

/-- What stays fixed: the order of the queues, their room, and how messages are judged. -/
structure Rules (K M : Type*) where
  keys : List K
  nodup : keys.Nodup
  room : K → Nat
  verdict : M → Verdict

/-- The waiting messages, and those taken so far in the order they were taken. -/
structure Sched (K M : Type*) where
  pending : K → List M := fun _ => []
  served : List (K × M) := []

inductive Act (K M : Type*) where
  | offer (key : K) (msg : M)
  | scan

namespace Sched

/-- The queues in the order a scan visits them. -/
def queues (s : Sched K M) (keys : List K) : List (K × List M) :=
  keys.map fun key => (key, s.pending key)

/-- What a scan takes now. -/
def picks (r : Rules K M) (s : Sched K M) : List (K × M) :=
  PriorityScan.scan r.verdict (s.queues r.keys)

variable {r : Rules K M} {s : Sched K M} {key : K}

theorem fst_queues (s : Sched K M) (keys : List K) : (s.queues keys).map Prod.fst = keys := by
  simp [queues, Function.comp_def]

theorem picks_nodup (r : Rules K M) (s : Sched K M) : ((s.picks r).map Prod.fst).Nodup := by
  refine (scan_keys_sublist _).nodup ?_
  rw [fst_queues]
  exact r.nodup

theorem front_of_pick {pick : K × M} (mem : pick ∈ s.picks r) :
    (s.pending pick.1).head? = some pick.2 := by
  obtain ⟨more, found⟩ := mem_scan mem
  obtain ⟨key, -, same⟩ := List.mem_map.mp found
  obtain ⟨rfl, queue⟩ := Prod.mk.inj same
  rw [queue]
  rfl

variable [DecidableEq K]

/-- The messages taken from one queue. -/
def taken (s : Sched K M) (key : K) : List M :=
  (s.served.filter fun pick => pick.1 = key).map Prod.snd

/-- All that one queue has ever had room for. -/
def accepted (s : Sched K M) (key : K) : List M := s.taken key ++ s.pending key

/-- One step. A message for which there is no room is lost. -/
def step (r : Rules K M) (s : Sched K M) : Act K M → Sched K M
  | .offer key msg =>
      if (s.pending key).length < r.room key then
        { s with pending := Function.update s.pending key (s.pending key ++ [msg]) }
      else s
  | .scan =>
      { pending := fun key =>
          if key ∈ (s.picks r).map Prod.fst then (s.pending key).tail else s.pending key
        served := s.served ++ s.picks r }

def run (r : Rules K M) (s : Sched K M) (acts : List (Act K M)) : Sched K M := acts.foldl (step r) s

/-- The part of a log of distinct keys that is about one key. -/
theorem filter_key_of_nodup {log : List (K × M)} (nodup : (log.map Prod.fst).Nodup)
    {pick : K × M} (mem : pick ∈ log) : (log.filter fun e => e.1 = pick.1) = [pick] := by
  induction log with
  | nil => simp at mem
  | cons e rest ih =>
      rw [List.map_cons, List.nodup_cons] at nodup
      obtain ⟨fresh, later⟩ := nodup
      rcases List.mem_cons.mp mem with rfl | inside
      · have none : (rest.filter fun e => e.1 = pick.1) = [] := by
          refine List.filter_eq_nil_iff.mpr fun e inside => ?_
          simp only [decide_eq_true_eq]
          exact fun same => fresh (List.mem_map.mpr ⟨e, inside, same⟩)
        rw [List.filter_cons_of_pos (by simp), none]
      · have other : e.1 ≠ pick.1 := fun same => fresh (List.mem_map.mpr ⟨pick, inside, same.symm⟩)
        rw [List.filter_cons_of_neg (by simpa using other), ih later inside]

/-- What one step takes from a queue. -/
theorem taken_scan : (s.step r .scan).taken key = s.taken key ++
    if key ∈ (s.picks r).map Prod.fst then (s.pending key).head?.toList else [] := by
  simp only [taken, step, List.filter_append, List.map_append]
  congr 1
  split
  · rename_i visited
    obtain ⟨pick, mem, rfl⟩ := List.mem_map.mp visited
    rw [filter_key_of_nodup (picks_nodup r s) mem, front_of_pick mem]
    rfl
  · rename_i skipped
    rw [List.map_eq_nil_iff]
    refine List.filter_eq_nil_iff.mpr fun pick mem => ?_
    simp only [decide_eq_true_eq]
    exact fun same => skipped (List.mem_map.mpr ⟨pick, mem, same⟩)

/-- A scan moves messages from the waiting ones to those taken. -/
theorem accepted_scan : (s.step r .scan).accepted key = s.accepted key := by
  rw [accepted, accepted, taken_scan, List.append_assoc]
  congr 1
  simp only [step]
  split
  · rename_i visited
    obtain ⟨pick, mem, rfl⟩ := List.mem_map.mp visited
    have front := front_of_pick mem
    cases queue : s.pending pick.1 with
    | nil => simp [queue] at front
    | cons m more => rfl
  · rfl

theorem taken_offer (other : K) (msg : M) :
    (s.step r (.offer other msg)).taken key = s.taken key := by
  simp only [step]
  split <;> rfl

theorem accepted_offer (other : K) (msg : M) :
    (s.step r (.offer other msg)).accepted key = s.accepted key ++
      if key = other ∧ (s.pending other).length < r.room other then [msg] else [] := by
  rw [accepted, accepted, taken_offer, List.append_assoc]
  congr 1
  by_cases room : (s.pending other).length < r.room other
  · by_cases same : key = other
    · subst same
      simp [step, room]
    · simp [step, room, same]
  · simp [step, room]

theorem taken_grows (a : Act K M) : s.taken key <+: (s.step r a).taken key := by
  cases a with
  | offer other msg => exact ⟨[], by rw [taken_offer, List.append_nil]⟩
  | scan =>
      rw [taken_scan]
      exact List.prefix_append _ _

theorem accepted_grows (a : Act K M) : s.accepted key <+: (s.step r a).accepted key := by
  cases a with
  | offer other msg =>
      rw [accepted_offer]
      exact List.prefix_append _ _
  | scan => exact ⟨[], by rw [accepted_scan, List.append_nil]⟩

theorem taken_run_grows (acts : List (Act K M)) (s : Sched K M) :
    s.taken key <+: (s.run r acts).taken key := by
  induction acts generalizing s with
  | nil => exact List.prefix_rfl
  | cons a acts ih => exact (taken_grows a).trans (ih (s.step r a))

theorem accepted_run_grows (acts : List (Act K M)) (s : Sched K M) :
    s.accepted key <+: (s.run r acts).accepted key := by
  induction acts generalizing s with
  | nil => exact List.prefix_rfl
  | cons a acts ih => exact (accepted_grows a).trans (ih (s.step r a))

/-! ### Turns -/

/-- A scan now would serve `key`, whose queue is visited after those of `before`. -/
def Turn (r : Rules K M) (s : Sched K M) (before : List K) (key : K) : Prop :=
  (∀ q ∈ before, Open r.verdict (s.pending q)) ∧ Free r.verdict (s.pending key)

instance (r : Rules K M) (s : Sched K M) (before : List K) (key : K) :
    Decidable (s.Turn r before key) := inferInstanceAs (Decidable (_ ∧ _))

variable {before after : List K}

omit [DecidableEq K] in
theorem mem_picks_iff (order : r.keys = before ++ key :: after) :
    key ∈ (s.picks r).map Prod.fst ↔ s.Turn r before key := by
  have split : s.queues r.keys =
      s.queues before ++ (key, s.pending key) :: s.queues after := by
    rw [order]
    simp [queues]
  rw [picks, split, scan_visits]
  · simp [Turn, queues]
  · rw [← split, fst_queues]
    exact r.nodup

/-- A scan takes one message of a queue when it is that queue's turn. -/
theorem length_taken_scan (order : r.keys = before ++ key :: after) :
    ((s.step r .scan).taken key).length = (s.taken key).length +
      if s.Turn r before key then 1 else 0 := by
  rw [taken_scan, List.length_append]
  congr 1
  by_cases turn : s.Turn r before key
  · rw [if_pos ((mem_picks_iff order).mpr turn), if_pos turn]
    obtain ⟨-, m, front, -⟩ := turn
    rw [Option.mem_def.mp front]
    rfl
  · rw [if_neg (fun mem => turn ((mem_picks_iff order).mp mem)), if_neg turn]
    rfl

/-- How many scans of a run find it `key`'s turn. -/
def turns (r : Rules K M) (before : List K) (key : K) : Sched K M → List (Act K M) → Nat
  | _, [] => 0
  | s, .offer other msg :: acts => turns r before key (s.step r (.offer other msg)) acts
  | s, .scan :: acts =>
      turns r before key (s.step r .scan) acts + if s.Turn r before key then 1 else 0

/-- A queue is served as often as it has its turn. -/
theorem taken_eq_turns (order : r.keys = before ++ key :: after) (acts : List (Act K M))
    (s : Sched K M) : ((s.run r acts).taken key).length =
      (s.taken key).length + turns r before key s acts := by
  induction acts generalizing s with
  | nil => rfl
  | cons a acts ih =>
      have later := ih (s.step r a)
      have ends : s.run r (a :: acts) = (s.step r a).run r acts := rfl
      rw [ends, later]
      cases a with
      | offer other msg => rw [taken_offer, turns]
      | scan =>
          rw [length_taken_scan order, turns]
          omega

/-! ### Bounded waiting -/

/-- How many messages have been taken from some queues. -/
def takenOf (s : Sched K M) (keys : List K) : Nat := (keys.map fun q => (s.taken q).length).sum

theorem takenOf_mono (keys : List K) (a : Act K M) : s.takenOf keys ≤ (s.step r a).takenOf keys :=
  List.sum_le_sum fun _ _ => (taken_grows a).length_le

/-- A scan that finds a message in the first queues, and no blocking front there, takes one of
them. -/
theorem takenOf_scan {front : List K} (order : r.keys = front ++ after)
    (free : ∀ q ∈ front, ∀ m ∈ (s.pending q).head?, r.verdict m ≠ .block)
    (busy : ∃ q ∈ front, s.pending q ≠ []) :
    s.takenOf front + 1 ≤ (s.step r .scan).takenOf front := by
  have split : s.queues r.keys = s.queues front ++ s.queues after := by
    rw [order]
    simp [queues]
  have some : PriorityScan.scan r.verdict (s.queues front) ≠ [] := by
    refine scan_ne_nil ?_ ?_
    · intro e mem
      obtain ⟨q, inside, rfl⟩ := List.mem_map.mp mem
      exact free q inside
    · obtain ⟨q, inside, pending⟩ := busy
      exact ⟨(q, s.pending q), List.mem_map.mpr ⟨q, inside, rfl⟩, pending⟩
  obtain ⟨pick, mem⟩ := List.exists_mem_of_ne_nil _ some
  have picked : pick ∈ s.picks r := by
    rw [picks, split]
    exact (scan_append_grows _ _).subset mem
  have inside : pick.1 ∈ front := by
    have key := (scan_keys_sublist _).subset (List.mem_map_of_mem (f := Prod.fst) mem)
    rwa [fst_queues] at key
  refine List.sum_lt_sum _ _ (fun q _ => (taken_grows .scan).length_le) ⟨pick.1, inside, ?_⟩
  rw [taken_scan, if_pos (List.mem_map_of_mem (f := Prod.fst) picked), front_of_pick picked]
  simp

/-- The number of scans among some actions. -/
def scans (acts : List (Act K M)) : Nat := acts.countP fun
  | .scan => true
  | _ => false

/-- While the queue of `key` is not empty, every scan takes a message from it or from an
earlier queue. -/
theorem scans_le_taken (order : r.keys = before ++ key :: after) {n : Nat} (acts : List (Act K M))
    (s : Sched K M) (clear : ∀ q ∈ before ++ [key], ∀ m ∈ (s.run r acts).accepted q,
      r.verdict m ≠ .block)
    (offered : n < (s.accepted key).length) (waits : ((s.run r acts).taken key).length ≤ n) :
    scans acts + s.takenOf (before ++ [key]) ≤ (s.run r acts).takenOf (before ++ [key]) := by
  induction acts generalizing s with
  | nil => exact Nat.le_of_eq (Nat.zero_add _)
  | cons a acts ih =>
      have later := ih (s.step r a) clear
        (Nat.lt_of_lt_of_le offered (accepted_grows a).length_le) waits
      have ends : (s.run r (a :: acts)) = (s.step r a).run r acts := rfl
      rw [ends] at clear waits ⊢
      cases a with
      | offer other msg =>
          have same : scans (.offer other msg :: acts) = scans acts := rfl
          rw [same]
          exact Nat.le_trans (Nat.add_le_add_left (takenOf_mono _ _) _) later
      | scan =>
          have one : scans (.scan :: acts : List (Act K M)) = scans acts + 1 := List.countP_cons_of_pos rfl
          have held : s.pending key ≠ [] := by
            intro none
            have all : (s.accepted key).length = (s.taken key).length := by simp [accepted, none]
            have reached : (s.taken key).length ≤
                (((s.step r .scan).run r acts).taken key).length :=
              ((taken_grows .scan).trans (taken_run_grows acts _)).length_le
            omega
          have parts : r.keys = (before ++ [key]) ++ after := by
            rw [order]
            simp
          have took := takenOf_scan (s := s) parts (by
              intro q inside m front
              refine clear q inside m (((accepted_grows .scan).trans
                (accepted_run_grows acts _)).subset ?_)
              exact List.mem_append_right _ (List.mem_of_mem_head? front))
            ⟨key, by simp, held⟩
          omega

/-- The `n`-th message of a queue waits for no more scans than there are messages before it,
those offered later to the earlier queues included. -/
theorem bounded_wait (order : r.keys = before ++ key :: after) {n : Nat} (acts : List (Act K M))
    (s : Sched K M) (clear : ∀ q ∈ before ++ [key], ∀ m ∈ (s.run r acts).accepted q,
      r.verdict m ≠ .block)
    (offered : n < (s.accepted key).length)
    (enough : (before.map fun q => ((s.run r acts).accepted q).length - (s.taken q).length).sum +
      (n - (s.taken key).length) < scans acts) : n < ((s.run r acts).taken key).length := by
  by_contra waits
  have progress := scans_le_taken order acts s clear offered (Nat.not_lt.mp waits)
  have earlier : ((s.run r acts).takenOf before) ≤
      (before.map fun q => ((s.run r acts).accepted q).length - (s.taken q).length).sum +
        s.takenOf before := by
    simp only [takenOf]
    rw [← List.sum_map_add]
    refine List.sum_le_sum fun q _ => ?_
    have all : ((s.run r acts).taken q).length ≤ ((s.run r acts).accepted q).length := by
      simp [accepted]
    omega
  have own : (s.taken key).length ≤ ((s.run r acts).taken key).length :=
    (taken_run_grows acts s).length_le
  simp only [takenOf, List.map_append, List.map_cons, List.map_nil, List.sum_append,
    List.sum_singleton] at progress earlier
  omega

end Sched

end PriorityScan
