import Mathlib.Data.List.DropRight
import RoboticsIpc.Lib.ByteBuffer

/-!
Records: a string of fixed size whose fields follow one another without a gap.

A `Layout` gives every field its place and carries the proof that the places tile
the record. A record is then determined by its fields (`Layout.ext`), it is the
concatenation of them (`Layout.eq_assemble`), and after any writes a field holds what
was written to it last (`Layout.read_writeAll`).

The last section is about a field that holds a shorter string: it is padded with
zeros when it is written, and they are stripped when it is read.
-/

namespace RecordLayout

open ByteBuffer

structure Span where
  off : Nat
  len : Nat
deriving DecidableEq

/-- No position is in both. -/
def Span.Apart (s t : Span) : Prop := s.off + s.len ≤ t.off ∨ t.off + t.len ≤ s.off

variable {ι α : Type*} {place : ι → Span} {size : Nat}

/-! ### Tilings -/

/-- The places of `names` follow one another from `off` to the end of the record. -/
def Tiles (place : ι → Span) (size : Nat) : Nat → List ι → Prop
  | off, [] => off = size
  | off, n :: rest => (place n).off = off ∧ Tiles place size (off + (place n).len) rest

theorem Tiles.le_size {off : Nat} {names : List ι} (tiles : Tiles place size off names) :
    off ≤ size := by
  induction names generalizing off with
  | nil => exact Nat.le_of_eq tiles
  | cons n rest ih =>
      have := ih tiles.2
      omega

theorem Tiles.inside {off : Nat} {names : List ι} (tiles : Tiles place size off names) :
    ∀ n ∈ names, off ≤ (place n).off ∧ (place n).off + (place n).len ≤ size := by
  induction names generalizing off with
  | nil => nofun
  | cons m rest ih =>
      obtain ⟨here, after⟩ := tiles
      intro n mem
      rcases List.mem_cons.mp mem with rfl | later
      · have := after.le_size
        omega
      · have := ih after n later
        omega

/-- Of two fields one lies behind the other. -/
theorem Tiles.apart {off : Nat} {names : List ι} (tiles : Tiles place size off names)
    (distinct : names.Nodup) :
    ∀ n ∈ names, ∀ m ∈ names, n ≠ m → (place n).Apart (place m) := by
  induction names generalizing off with
  | nil => nofun
  | cons k rest ih =>
      obtain ⟨here, after⟩ := tiles
      obtain ⟨-, distinctRest⟩ := List.nodup_cons.mp distinct
      have behind : ∀ n ∈ rest, (place k).off + (place k).len ≤ (place n).off := by
        intro n mem
        have := after.inside n mem
        omega
      intro n memN m memM different
      rcases List.mem_cons.mp memN with rfl | laterN <;>
        rcases List.mem_cons.mp memM with rfl | laterM
      · exact absurd rfl different
      · exact .inl (behind m laterM)
      · exact .inr (behind n laterN)
      · exact ih after distinctRest n laterN m laterM different

/-- From `off` on a record is its fields, in order. -/
theorem Tiles.drop_eq {off : Nat} {names : List ι} (tiles : Tiles place size off names)
    {record : List α} (whole : record.length = size) :
    record.drop off = names.flatMap fun n => slice (place n).off (place n).len record := by
  induction names generalizing off with
  | nil =>
      have atEnd : off = size := tiles
      exact List.drop_eq_nil_of_le (by omega)
  | cons n rest ih =>
      obtain ⟨here, after⟩ := tiles
      rw [List.flatMap_cons, ← ih after, here, slice, ← List.drop_drop, List.take_append_drop]

/-- And these can be read back. -/
theorem Tiles.slice_flatMap {off : Nat} {names : List ι} (tiles : Tiles place size off names)
    {fields : ι → List α} (sized : ∀ n, (fields n).length = (place n).len) {before : List α}
    (len : before.length = off) :
    ∀ n ∈ names, slice (place n).off (place n).len (before ++ names.flatMap fields) = fields n := by
  induction names generalizing off before with
  | nil => nofun
  | cons m rest ih =>
      obtain ⟨here, after⟩ := tiles
      intro n mem
      rw [List.flatMap_cons]
      rcases List.mem_cons.mp mem with rfl | later
      · rw [slice, here, ← len, List.drop_left, ← sized n, List.take_left]
      · rw [← List.append_assoc]
        refine ih after ?_ n later
        rw [List.length_append, len, sized m]

theorem Tiles.length_flatMap {off : Nat} {names : List ι} (tiles : Tiles place size off names)
    {fields : ι → List α} (sized : ∀ n, (fields n).length = (place n).len) :
    off + (names.flatMap fields).length = size := by
  induction names generalizing off with
  | nil => exact tiles
  | cons n rest ih =>
      have := ih tiles.2
      rw [List.flatMap_cons, List.length_append, sized n]
      omega

/-! ### Layouts -/

/-- The fields of a record of `size` elements: where each is, and the order in which
they follow one another. -/
structure Layout (ι : Type*) (size : Nat) where
  place : ι → Span
  order : List ι
  complete : ∀ n, n ∈ order
  distinct : order.Nodup
  tiles : Tiles place size 0 order

namespace Layout

variable (L : Layout ι size)

/-- The contents of a field. -/
def read (n : ι) (record : List α) : List α := slice (L.place n).off (L.place n).len record

/-- The record with these fields. -/
def assemble (fields : ι → List α) : List α := L.order.flatMap fields

/-- The writes of `ws`, one after the other. -/
def writeAll (ws : List (ι × List α)) (record : List α) : List α :=
  ws.foldl (fun b w => splice (L.place w.1).off w.2 b) record

/-- Every write is as long as its field. -/
def Sized (ws : List (ι × List α)) : Prop := ∀ w ∈ ws, w.2.length = (L.place w.1).len

theorem fits (n : ι) : (L.place n).off + (L.place n).len ≤ size :=
  (L.tiles.inside n (L.complete n)).2

theorem apart {n m : ι} (different : n ≠ m) : (L.place n).Apart (L.place m) :=
  L.tiles.apart L.distinct n (L.complete n) m (L.complete m) different

theorem length_read {record : List α} (whole : record.length = size) (n : ι) :
    (L.read n record).length = (L.place n).len := by
  have := L.fits n
  rw [read, slice, List.length_take, List.length_drop]
  exact Nat.min_eq_left (by omega)

/-- A record is determined by its fields. -/
theorem eq_assemble {record : List α} (whole : record.length = size) {fields : ι → List α}
    (holds : ∀ n, L.read n record = fields n) : record = L.assemble fields := by
  have split := L.tiles.drop_eq whole
  rw [List.drop_zero] at split
  rw [split, assemble]
  exact congrArg (L.order.flatMap ·) (funext holds)

theorem ext {a b : List α} (wholeA : a.length = size) (wholeB : b.length = size)
    (same : ∀ n, L.read n a = L.read n b) : a = b :=
  (L.eq_assemble wholeA same).trans (L.eq_assemble wholeB fun _ => rfl).symm

theorem length_assemble {fields : ι → List α}
    (sized : ∀ n, (fields n).length = (L.place n).len) : (L.assemble fields).length = size := by
  have := L.tiles.length_flatMap sized
  rwa [Nat.zero_add] at this

theorem read_assemble {fields : ι → List α} (sized : ∀ n, (fields n).length = (L.place n).len)
    (n : ι) : L.read n (L.assemble fields) = fields n := by
  have read := L.tiles.slice_flatMap sized List.length_nil n (L.complete n)
  rwa [List.nil_append] at read

section Writes

variable {record : List α}

theorem length_writeAll {ws : List (ι × List α)} (sized : L.Sized ws)
    (whole : record.length = size) : (L.writeAll ws record).length = size := by
  induction ws generalizing record with
  | nil => exact whole
  | cons w ws ih =>
      obtain ⟨len, rest⟩ := List.forall_mem_cons.mp sized
      have fits := L.fits w.1
      exact ih rest (by rw [length_splice (by omega), whole])

variable [DecidableEq ι]

/-- What the last write to `n` wrote. -/
def lastWritten (n : ι) : List (ι × List α) → Option (List α)
  | [] => none
  | w :: ws => (lastWritten n ws).or (if w.1 = n then some w.2 else none)

/-- One write: its field has it, the others are as before. -/
theorem read_splice (n : ι) {m : ι} {src : List α} (len : src.length = (L.place m).len)
    (whole : record.length = size) :
    L.read n (splice (L.place m).off src record) = if m = n then src else L.read n record := by
  have fits : (L.place m).off + src.length ≤ record.length := by
    rw [len, whole]
    exact L.fits m
  split
  · rename_i same
    subst same
    rw [read, ← len]
    exact slice_splice_same fits
  · rename_i different
    apply slice_splice_of_disjoint fits
    rw [len]
    exact L.apart (Ne.symm different)

theorem read_writeAll {ws : List (ι × List α)} (sized : L.Sized ws)
    (whole : record.length = size) (n : ι) :
    L.read n (L.writeAll ws record) = (lastWritten n ws).getD (L.read n record) := by
  induction ws generalizing record with
  | nil => rfl
  | cons w ws ih =>
      obtain ⟨len, rest⟩ := List.forall_mem_cons.mp sized
      have fits := L.fits w.1
      have whole' : (splice (L.place w.1).off w.2 record).length = size := by
        rw [length_splice (by omega), whole]
      have step : L.writeAll (w :: ws) record =
          L.writeAll ws (splice (L.place w.1).off w.2 record) := rfl
      rw [step, ih rest whole', L.read_splice n len whole, lastWritten]
      cases lastWritten n ws with
      | some last => rfl
      | none => split <;> rfl

theorem lastWritten_eq_none {ws : List (ι × List α)} {n : ι} :
    lastWritten n ws = none ↔ n ∉ ws.map Prod.fst := by
  induction ws with
  | nil => simp [lastWritten]
  | cons w ws ih =>
      rw [lastWritten, Option.or_eq_none_iff, ih, List.map_cons, List.mem_cons, not_or, and_comm,
        ite_eq_right_iff]
      simp [eq_comm]

theorem mem_of_lastWritten {ws : List (ι × List α)} {n : ι} {last : List α}
    (found : lastWritten n ws = some last) : (n, last) ∈ ws := by
  induction ws with
  | nil => cases found
  | cons w ws ih =>
      rw [lastWritten, Option.or_eq_some_iff] at found
      rcases found with later | ⟨-, here⟩
      · exact List.mem_cons_of_mem _ (ih later)
      · obtain ⟨rfl, rfl⟩ : w.1 = n ∧ w.2 = last := by simpa using here
        exact List.mem_cons_self

/-- Writes that agree on what each field is to hold, and leave no field out that does
not hold it already, make one record: neither their order nor their number matters. -/
theorem writeAll_eq_assemble {ws : List (ι × List α)} {fields : ι → List α}
    (sized : ∀ n, (fields n).length = (L.place n).len) (whole : record.length = size)
    (agree : ∀ w ∈ ws, w.2 = fields w.1)
    (all : ∀ n, n ∈ ws.map Prod.fst ∨ L.read n record = fields n) :
    L.writeAll ws record = L.assemble fields := by
  have sizedAll : L.Sized ws := fun w mem => by rw [agree w mem, sized]
  apply L.eq_assemble (L.length_writeAll sizedAll whole)
  intro n
  rw [L.read_writeAll sizedAll whole]
  cases last : lastWritten n ws with
  | some field => exact agree _ (mem_of_lastWritten last)
  | none => exact (all n).resolve_left (lastWritten_eq_none.mp last)

end Writes

end Layout

/-! ### Components

A component of a state, seen through the updates that write it. -/

/-- Where each update writes the component or leaves it alone, a run of updates leaves
what the last write wrote, or else what was there. -/
theorem get_foldl {S A V : Type*} {update : S → A → S} (get : S → V) {write : A → Option V}
    (each : ∀ s a, get (update s a) = (write a).getD (get s)) (updates : List A) (s : S) :
    get (updates.foldl update s) = ((updates.filterMap write).getLast?).getD (get s) := by
  induction updates using List.reverseRecOn with
  | nil => rfl
  | append_singleton updates a ih =>
      rw [List.foldl_concat, each, ih, List.filterMap_append, List.getLast?_append]
      cases wrote : write a with
      | none => simp [wrote]
      | some v => simp [wrote]

/-! ### Zero padding -/

section Padding

/-- A string filled up with zeros to `n` bytes. -/
def padded (n : Nat) (data : Bytes) : Bytes := data ++ List.replicate (n - data.length) 0

/-- A string without its trailing zeros. -/
def unpadded (data : Bytes) : Bytes := data.rdropWhile (· == 0)

variable {n : Nat} {data : Bytes}

theorem length_padded (short : data.length ≤ n) : (padded n data).length = n := by
  rw [padded, List.length_append, List.length_replicate]
  omega

theorem length_unpadded_le (data : Bytes) : (unpadded data).length ≤ data.length :=
  (List.rdropWhile_prefix _ _).length_le

theorem unpadded_zeros (data : Bytes) (k : Nat) :
    unpadded (data ++ List.replicate k 0) = unpadded data := by
  induction k with
  | zero => rw [List.replicate_zero, List.append_nil]
  | succ k ih =>
      rw [List.replicate_succ', ← List.append_assoc, unpadded, List.rdropWhile_concat_pos _ _ _ rfl]
      exact ih

theorem unpadded_padded (n : Nat) (data : Bytes) : unpadded (padded n data) = unpadded data :=
  unpadded_zeros data _

theorem unpadded_unpadded (data : Bytes) : unpadded (unpadded data) = unpadded data :=
  List.rdropWhile_idempotent ..

theorem unpadded_append_zeros (data : Bytes) :
    data = unpadded data ++ List.replicate (data.length - (unpadded data).length) 0 := by
  have split : unpadded data ++ data.rtakeWhile (· == 0) = data :=
    List.rdropWhile_append_rtakeWhile
  have zeros : data.rtakeWhile (· == 0) =
      List.replicate (data.length - (unpadded data).length) 0 := by
    refine List.eq_replicate_iff.mpr ⟨?_, fun b mem => ?_⟩
    · have := congrArg List.length split
      rw [List.length_append] at this
      omega
    · have zero : (b == 0) = true := List.mem_rtakeWhile_imp (p := (· == 0)) mem
      exact eq_of_beq zero
  rw [← zeros, split]

/-- The padding that stripping took away is put back. -/
theorem padded_unpadded (whole : data.length = n) : padded n (unpadded data) = data := by
  rw [padded, ← whole]
  exact (unpadded_append_zeros data).symm

/-- Clearing the field and copying into it writes the padded string. -/
theorem splice_zeros_splice {off : Nat} {dst : Bytes} (short : data.length ≤ n)
    (fits : off + n ≤ dst.length) :
    splice off data (splice off (List.replicate n 0) dst) = splice off (padded n data) dst := by
  have fitsZeros : off + (List.replicate n (0 : UInt8)).length ≤ dst.length := by
    rwa [List.length_replicate]
  have fitsPadded : off + (padded n data).length ≤ dst.length := by rwa [length_padded short]
  have fitsData : off + data.length ≤ (splice off (List.replicate n 0) dst).length := by
    rw [length_splice fitsZeros]
    omega
  apply List.ext_getElem?
  intro i
  rw [getElem?_splice fitsData, getElem?_splice fitsZeros, getElem?_splice fitsPadded,
    length_padded short, List.length_replicate]
  by_cases inData : off ≤ i ∧ i < off + data.length
  · rw [if_pos inData, if_pos (by omega), padded, List.getElem?_append_left (by omega)]
  · rw [if_neg inData]
    by_cases inField : off ≤ i ∧ i < off + n
    · rw [if_pos inField, if_pos inField, padded, List.getElem?_append_right (by omega),
        List.getElem?_replicate, List.getElem?_replicate, if_pos (by omega), if_pos (by omega)]
    · rw [if_neg inField, if_neg inField]

/-- `last`, moved back over the zeros before it but not beyond `start`. -/
def trimmedEnd (start : Nat) (data : Bytes) : Nat → Nat
  | 0 => 0
  | last + 1 =>
      if start ≤ last ∧ data.getD last 0 = 0 then trimmedEnd start data last else last + 1

/-- Scanning back over the zeros of a field finds the stripped string. -/
theorem slice_trimmedEnd {start last : Nat} (after : start ≤ last) (inside : last ≤ data.length) :
    slice start (trimmedEnd start data last - start) data =
      unpadded (slice start (last - start) data) := by
  induction last, after using Nat.le_induction with
  | base =>
      have stays : trimmedEnd start data start = start := by
        cases start with
        | zero => rfl
        | succ start => rw [trimmedEnd, if_neg (by omega)]
      rw [stays, Nat.sub_self, slice, List.take_zero]
      rfl
  | succ last after ih =>
      have here : data.getD last 0 = data[last] := by
        rw [List.getD_eq_getElem?_getD, List.getElem?_eq_getElem inside, Option.getD_some]
      have grown : slice start (last + 1 - start) data =
          slice start (last - start) data ++ [data.getD last 0] := by
        have bound : last - start < (data.drop start).length := by
          rw [List.length_drop]
          omega
        have found : (data.drop start)[last - start] = data[last] := by
          rw [List.getElem_drop]
          congr 1
          omega
        rw [slice, slice, here, ← found, Nat.succ_sub after]
        exact List.take_succ_eq_append_getElem bound
      rw [trimmedEnd, grown]
      by_cases zero : data.getD last 0 = 0
      · rw [if_pos ⟨after, zero⟩, ih (by omega), unpadded, unpadded, zero,
          List.rdropWhile_concat_pos _ _ _ rfl]
      · rw [if_neg (fun both => zero both.2), unpadded,
          List.rdropWhile_concat_neg _ _ _ (by simpa using zero), ← grown]

end Padding

end RecordLayout
