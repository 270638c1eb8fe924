import Mathlib.Data.List.Basic
import Mathlib.Data.List.Induction

/-!
Readers of a stream that arrives in chunks.

A reader keeps the bytes it has not used yet. When a chunk arrives it takes one item after
another from what it has, and handles each, until no item is complete or the handling has
stopped it. `Incremental` says what the parser of one item must do for the way the stream
is cut not to matter (`same_feedAll`): more bytes at the end leave an item as it was, unless
the reader stops there. A loop with fuel ends before the fuel does if every item uses up
something (`loop_total`). Where an item needs no more bytes than it takes, the items of a
stream are pieces of it (`consists_of_items`).
-/

namespace StreamReader

variable {B F S : Type*}

@[ext]
structure Reader (S B : Type*) where
  state : S
  buf : List B

/-- What a reader does with its items, and when it takes no more. -/
structure Handler (F S : Type*) where
  handle : S → F → S
  stopped : S → Bool

variable (next : List B → Option (F × Nat)) (h : Handler F S)

/-- Take items while there are any and the reader has not stopped; `none` if `fuel` rounds
do not end the loop. -/
def loop : Nat → Reader S B → Option (Reader S B)
  | 0, _ => none
  | fuel + 1, r =>
      if h.stopped r.state then some r
      else
        match next r.buf with
        | none => some r
        | some (f, used) => loop fuel ⟨h.handle r.state f, r.buf.drop used⟩

def readLoop (r : Reader S B) : Reader S B := (loop next h (r.buf.length + 1) r).getD r

/-- A chunk arrives. -/
def feed (r : Reader S B) (chunk : List B) : Reader S B :=
  if h.stopped r.state then r else readLoop next h ⟨r.state, r.buf ++ chunk⟩

/-- Equal as long as the reader reads. -/
structure Same (r r' : Reader S B) : Prop where
  state : r.state = r'.state
  buf : h.stopped r.state = false → r.buf = r'.buf

/-- A parser of items that uses up part of the buffer, and to which more bytes make no
difference except in an item that is the last. -/
structure Incremental (final : F → Prop) : Prop where
  uses : ∀ {buf f used}, next buf = some (f, used) → 0 < used ∧ used ≤ buf.length
  stable : ∀ {buf f used} more, next buf = some (f, used) → ¬ final f →
    next (buf ++ more) = some (f, used)
  ends : ∀ {buf f used} more, next buf = some (f, used) → final f →
    ∃ used', next (buf ++ more) = some (f, used')

variable {next h} {final : F → Prop} {r r' : Reader S B}

/-! ### The loop -/

theorem loop_stopped {fuel : Nat} (stopped : h.stopped r.state = true) :
    loop next h (fuel + 1) r = some r := by
  rw [loop, if_pos stopped]

theorem loop_none {fuel : Nat} (none : next r.buf = none) : loop next h (fuel + 1) r = some r := by
  rw [loop, none]
  split <;> rfl

theorem loop_some {fuel used : Nat} {f : F} (reads : h.stopped r.state = false)
    (found : next r.buf = some (f, used)) :
    loop next h (fuel + 1) r = loop next h fuel ⟨h.handle r.state f, r.buf.drop used⟩ := by
  rw [loop, found, if_neg (by simp [reads])]

/-- Where every item uses at least `least` bytes, one round for each such part of the buffer
and one more end the loop. -/
theorem loop_total {least : Nat}
    (uses : ∀ {buf f used}, next buf = some (f, used) → least ≤ used ∧ used ≤ buf.length)
    {fuel : Nat} (enough : r.buf.length < least * fuel) : ∃ out, loop next h fuel r = some out := by
  induction fuel generalizing r with
  | zero => exact absurd enough (Nat.not_lt_zero _)
  | succ fuel ih =>
      by_cases stopped : h.stopped r.state = true
      · exact ⟨r, loop_stopped stopped⟩
      · cases found : next r.buf with
        | none => exact ⟨r, loop_none found⟩
        | some item =>
            obtain ⟨f, used⟩ := item
            obtain ⟨low, high⟩ := uses found
            rw [loop_some (by simpa using stopped) found]
            apply ih
            rw [List.length_drop]
            rw [Nat.mul_succ] at enough
            omega

/-- More fuel changes nothing. -/
theorem loop_mono {fuel fuel' : Nat} (more : fuel ≤ fuel') {out : Reader S B}
    (done : loop next h fuel r = some out) : loop next h fuel' r = some out := by
  induction fuel generalizing r fuel' with
  | zero => cases done
  | succ fuel ih =>
      obtain ⟨fuel', rfl⟩ : ∃ n, fuel' = n + 1 := ⟨fuel' - 1, by omega⟩
      by_cases stopped : h.stopped r.state = true
      · rw [loop_stopped stopped] at done ⊢
        exact done
      · cases found : next r.buf with
        | none =>
            rw [loop_none found] at done ⊢
            exact done
        | some item =>
            rw [loop_some (by simpa using stopped) found] at done ⊢
            exact ih (by omega) done

theorem readLoop_stopped (stopped : h.stopped r.state = true) : readLoop next h r = r := by
  rw [readLoop, loop_stopped stopped, Option.getD_some]

theorem readLoop_none (none : next r.buf = none) : readLoop next h r = r := by
  rw [readLoop, loop_none none, Option.getD_some]

/-- The loop goes on with the rest. -/
theorem Incremental.readLoop_some (inc : Incremental next final) {f : F} {used : Nat}
    (reads : h.stopped r.state = false) (found : next r.buf = some (f, used)) :
    readLoop next h r = readLoop next h ⟨h.handle r.state f, r.buf.drop used⟩ := by
  obtain ⟨positive, inside⟩ := inc.uses found
  have shorter : (r.buf.drop used).length < r.buf.length := by
    rw [List.length_drop]
    omega
  obtain ⟨out, done⟩ : ∃ out, loop next h ((r.buf.drop used).length + 1)
      ⟨h.handle r.state f, r.buf.drop used⟩ = some out :=
    loop_total inc.uses (by dsimp only; omega)
  rw [readLoop, loop_some reads found, loop_mono (by omega) done, readLoop, done,
    Option.getD_some, Option.getD_some]

/-! ### Items -/

/-- The reader that collects its items and never stops. -/
def collector (F : Type*) : Handler F (List F) where
  handle fs f := fs ++ [f]
  stopped _ := false

/-- The complete items at the front of a stream. -/
def items (next : List B → Option (F × Nat)) (buf : List B) : List F :=
  (readLoop next (collector F) ⟨[], buf⟩).state

/-- Handle items until one stops the reader. -/
def handleAll (h : Handler F S) (s : S) (fs : List F) : S :=
  fs.foldl (fun s f => if h.stopped s then s else h.handle s f) s

theorem handleAll_stopped {s : S} (stopped : h.stopped s = true) (fs : List F) :
    handleAll h s fs = s := by
  induction fs with
  | nil => rfl
  | cons f fs ih => rw [handleAll, List.foldl_cons, if_pos stopped, ← handleAll, ih]

theorem handleAll_cons {s : S} (reads : h.stopped s = false) (f : F) (fs : List F) :
    handleAll h s (f :: fs) = handleAll h (h.handle s f) fs := by
  rw [handleAll, List.foldl_cons, if_neg (by simp [reads]), ← handleAll]

theorem handleAll_append (s : S) (fs gs : List F) :
    handleAll h s (fs ++ gs) = handleAll h (handleAll h s fs) gs :=
  List.foldl_append

theorem items_none {buf : List B} (none : next buf = none) : items next buf = [] := by
  rw [items, readLoop_none none]

theorem Incremental.collect (inc : Incremental next final) (fs : List F) (buf : List B) :
    (readLoop next (collector F) ⟨fs, buf⟩).state = fs ++ items next buf := by
  induction len : buf.length using Nat.strongRecOn generalizing fs buf with
  | _ n ih =>
    cases found : next buf with
    | none => rw [readLoop_none found, items_none found, List.append_nil]
    | some item =>
        obtain ⟨f, used⟩ := item
        obtain ⟨positive, inside⟩ := inc.uses found
        have shorter : (buf.drop used).length < n := by
          rw [List.length_drop]
          omega
        have first := fun fs => inc.readLoop_some (h := collector F) (r := ⟨fs, buf⟩) rfl found
        have rest := fun fs => ih _ shorter fs (buf.drop used) rfl
        rw [items, first fs, first [], rest, rest]
        exact List.append_assoc fs [f] _

theorem Incremental.items_some (inc : Incremental next final) {buf : List B} {f : F} {used : Nat}
    (found : next buf = some (f, used)) : items next buf = f :: items next (buf.drop used) := by
  rw [items, inc.readLoop_some rfl found]
  exact inc.collect [f] _

theorem Incremental.forall_items (inc : Incremental next final) {P : F → Prop}
    (each : ∀ {buf f used}, next buf = some (f, used) → P f) (buf : List B) :
    ∀ f ∈ items next buf, P f := by
  induction len : buf.length using Nat.strongRecOn generalizing buf with
  | _ n ih =>
    cases found : next buf with
    | none => simp [items_none found]
    | some item =>
        obtain ⟨f, used⟩ := item
        obtain ⟨positive, inside⟩ := inc.uses found
        rw [inc.items_some found, List.forall_mem_cons]
        exact ⟨each found, ih (n - used) (by omega) _ (by rw [List.length_drop, len])⟩

theorem Incremental.of_items_cons (inc : Incremental next final) {buf : List B} {f : F}
    {fs : List F} (taken : items next buf = f :: fs) :
    ∃ used, next buf = some (f, used) ∧ items next (buf.drop used) = fs := by
  cases found : next buf with
  | none =>
      rw [items_none found] at taken
      cases taken
  | some item =>
      obtain ⟨g, used⟩ := item
      rw [inc.items_some found] at taken
      obtain ⟨rfl, rest⟩ := List.cons.inj taken
      exact ⟨used, rfl, rest⟩

/-- The loop handles the items of the buffer. -/
theorem Incremental.readLoop_state (inc : Incremental next final) (s : S) (buf : List B) :
    (readLoop next h ⟨s, buf⟩).state = handleAll h s (items next buf) := by
  induction len : buf.length using Nat.strongRecOn generalizing s buf with
  | _ n ih =>
    by_cases stopped : h.stopped s = true
    · rw [readLoop_stopped stopped, handleAll_stopped stopped]
    · have reads : h.stopped s = false := by simpa using stopped
      cases found : next buf with
      | none =>
          rw [readLoop_none found, items_none found]
          rfl
      | some item =>
          obtain ⟨f, used⟩ := item
          obtain ⟨positive, inside⟩ := inc.uses found
          rw [inc.readLoop_some reads found, inc.items_some found, handleAll_cons reads]
          exact ih (n - used) (by omega) _ _ (by rw [List.length_drop, len])

/-! ### Pieces of a stream -/

/-- These bytes are these items, one after another. -/
inductive Consists (next : List B → Option (F × Nat)) : List B → List F → Prop where
  | nil : Consists next [] []
  | cons {piece rest : List B} {f : F} {fs : List F} (item : next piece = some (f, piece.length))
      (later : Consists next rest fs) : Consists next (piece ++ rest) (f :: fs)

theorem Consists.append {front rest : List B} {fs gs : List F} (first : Consists next front fs)
    (second : Consists next rest gs) : Consists next (front ++ rest) (fs ++ gs) := by
  induction first with
  | nil => exact second
  | cons item _ ih =>
      rw [List.append_assoc]
      exact .cons item ih

theorem Consists.split {buf : List B} {fs gs : List F} (whole : Consists next buf (fs ++ gs)) :
    ∃ front rest, buf = front ++ rest ∧ Consists next front fs ∧ Consists next rest gs := by
  induction fs generalizing buf with
  | nil => exact ⟨[], buf, rfl, .nil, whole⟩
  | cons f fs ih =>
      cases whole with
      | cons item later =>
          obtain ⟨front, rest, rfl, first, second⟩ := ih later
          exact ⟨_ ++ front, rest, (List.append_assoc _ _ _).symm, .cons item first, second⟩

/-- A parser that needs no more of the buffer than an item takes, unless it is the last. -/
def Exact (next : List B → Option (F × Nat)) (final : F → Prop) : Prop :=
  ∀ {front f} more, next (front ++ more) = some (f, front.length) → ¬ final f →
    next front = some (f, front.length)

/-- Bytes that are items are taken as these items, whatever follows. -/
theorem Incremental.items_append (inc : Incremental next final) {front : List B} {fs : List F}
    (pieces : Consists next front fs) (goesOn : ∀ f ∈ fs, ¬ final f) (more : List B) :
    items next (front ++ more) = fs ++ items next more := by
  induction pieces with
  | nil => rfl
  | @cons piece rest f fs item _ ih =>
      have found := inc.stable (rest ++ more) item (goesOn f List.mem_cons_self)
      rw [List.append_assoc, inc.items_some found, List.drop_left,
        ih fun g mem => goesOn g (List.mem_cons_of_mem _ mem), List.cons_append]

/-- Of bytes that are items only the first ones may have arrived. -/
theorem Incremental.items_prefix (inc : Incremental next final) {bytes arrived : List B}
    {fs : List F} (pieces : Consists next bytes fs) (goesOn : ∀ f ∈ fs, ¬ final f)
    (part : arrived <+: bytes) (missing : arrived ≠ bytes) :
    ∃ k < fs.length, items next arrived = fs.take k := by
  induction pieces generalizing arrived with
  | nil => exact absurd (List.prefix_nil.mp part) missing
  | @cons piece rest f fs item _ ih =>
      cases found : next arrived with
      | none => exact ⟨0, Nat.succ_pos _, items_none found⟩
      | some taken =>
          obtain ⟨g, used⟩ := taken
          obtain ⟨more, whole⟩ := part
          have first := inc.stable rest item (goesOn f List.mem_cons_self)
          have same : g = f ∧ used = piece.length := by
            by_cases last : final g
            · obtain ⟨used', again⟩ := inc.ends more found last
              rw [whole, first] at again
              cases again
              exact absurd last (goesOn f List.mem_cons_self)
            · have again := inc.stable more found last
              rw [whole, first] at again
              cases again
              exact ⟨rfl, rfl⟩
          obtain ⟨rfl, rfl⟩ := same
          obtain ⟨later, rfl⟩ : piece <+: arrived :=
            List.prefix_of_prefix_length_le (List.prefix_append piece rest) ⟨more, whole⟩
              (inc.uses found).2
          rw [List.append_assoc] at whole
          have behind : later <+: rest := ⟨more, List.append_cancel_left whole⟩
          have other : later ≠ rest := fun same => missing (congrArg _ same)
          obtain ⟨k, inside, items⟩ :=
            ih (fun h mem => goesOn h (List.mem_cons_of_mem _ mem)) behind other
          refine ⟨k + 1, Nat.succ_lt_succ inside, ?_⟩
          rw [inc.items_some found, List.drop_left, items, List.take_succ_cons]

/-- Items that were taken are bytes of the stream. -/
theorem Incremental.consists_of_items (inc : Incremental next final) (tight : Exact next final)
    {buf : List B} {fs later : List F} (taken : items next buf = fs ++ later)
    (goesOn : ∀ f ∈ fs, ¬ final f) :
    ∃ front rest, buf = front ++ rest ∧ Consists next front fs ∧ items next rest = later := by
  induction fs generalizing buf with
  | nil => exact ⟨[], buf, rfl, .nil, taken⟩
  | cons f fs ih =>
      obtain ⟨used, found, rest⟩ := inc.of_items_cons taken
      obtain ⟨front, behind, split, pieces, after⟩ :=
        ih rest fun g mem => goesOn g (List.mem_cons_of_mem _ mem)
      have inside : (buf.take used).length = used := by
        rw [List.length_take, Nat.min_eq_left (inc.uses found).2]
      have item : next (buf.take used) = some (f, (buf.take used).length) := by
        apply tight (buf.drop used) _ (goesOn f List.mem_cons_self)
        rw [List.take_append_drop, inside]
        exact found
      refine ⟨buf.take used ++ front, behind, ?_, .cons item pieces, after⟩
      rw [List.append_assoc, ← split, List.take_append_drop]

/-! ### Chunks -/

/-- A stream in two pieces. -/
theorem Incremental.same_feed (inc : Incremental next final)
    (stops : ∀ s f, final f → h.stopped (h.handle s f) = true) (s : S) (buf chunk : List B) :
    Same h (feed next h (readLoop next h ⟨s, buf⟩) chunk) (readLoop next h ⟨s, buf ++ chunk⟩) := by
  induction len : buf.length using Nat.strongRecOn generalizing s buf with
  | _ n ih =>
    by_cases stopped : h.stopped s = true
    · rw [readLoop_stopped stopped, readLoop_stopped stopped, feed, if_pos stopped]
      exact ⟨rfl, fun reads => by rw [stopped] at reads; cases reads⟩
    · have reads : h.stopped s = false := by simpa using stopped
      cases found : next buf with
      | none =>
          rw [readLoop_none found, feed, if_neg stopped]
          exact ⟨rfl, fun _ => rfl⟩
      | some item =>
          obtain ⟨f, used⟩ := item
          obtain ⟨positive, inside⟩ := inc.uses found
          rw [inc.readLoop_some reads found]
          by_cases last : final f
          · obtain ⟨used', again⟩ := inc.ends chunk found last
            have stop := stops s f last
            rw [inc.readLoop_some (r := ⟨s, buf ++ chunk⟩) reads again, readLoop_stopped stop,
              readLoop_stopped stop, feed, if_pos stop]
            exact ⟨rfl, fun reads => by rw [stop] at reads; cases reads⟩
          · rw [inc.readLoop_some (r := ⟨s, buf ++ chunk⟩) reads (inc.stable chunk found last)]
            dsimp only
            rw [List.drop_append_of_le_length inside]
            exact ih (n - used) (by omega) _ _ (by rw [List.length_drop, len])

theorem Same.refl (r : Reader S B) : Same h r r := ⟨rfl, fun _ => rfl⟩

theorem Same.symm (same : Same h r r') : Same h r' r :=
  ⟨same.state.symm, fun reads => (same.buf (by rwa [same.state])).symm⟩

theorem Same.trans {r'' : Reader S B} (same : Same h r r') (same' : Same h r' r'') :
    Same h r r'' :=
  ⟨same.state.trans same'.state,
    fun reads => (same.buf reads).trans (same'.buf (by rwa [← same.state]))⟩

theorem Same.feed (same : Same h r r') (chunk : List B) :
    Same h (feed next h r chunk) (StreamReader.feed next h r' chunk) := by
  by_cases stopped : h.stopped r.state = true
  · have stopped' : h.stopped r'.state = true := by rwa [← same.state]
    rw [StreamReader.feed, StreamReader.feed, if_pos stopped, if_pos stopped']
    exact same
  · have equal : r = r' := Reader.ext same.state (same.buf (by simpa using stopped))
    rw [equal]
    exact .refl _

/-- However a stream is cut, the reader ends as if it had come in one piece. -/
theorem Incremental.same_feedAll (inc : Incremental next final)
    (stops : ∀ s f, final f → h.stopped (h.handle s f) = true) (s : S) (chunks : List (List B)) :
    Same h (chunks.foldl (feed next h) (readLoop next h ⟨s, []⟩))
      (readLoop next h ⟨s, chunks.flatten⟩) := by
  induction chunks using List.reverseRecOn with
  | nil => exact .refl _
  | append_singleton chunks chunk ih =>
      rw [List.foldl_concat, List.flatten_append, List.flatten_singleton]
      exact (ih.feed chunk).trans (inc.same_feed stops s chunks.flatten chunk)

/-- A reader that starts with nothing has handled the items of all that came. -/
theorem Incremental.state_feedAll (inc : Incremental next final)
    (stops : ∀ s f, final f → h.stopped (h.handle s f) = true) (empty : next [] = none) (s : S)
    (chunks : List (List B)) :
    (chunks.foldl (feed next h) ⟨s, []⟩).state = handleAll h s (items next chunks.flatten) := by
  have same := inc.same_feedAll stops s chunks
  rw [readLoop_none (r := ⟨s, []⟩) empty] at same
  rw [same.state, inc.readLoop_state]

end StreamReader
