import Mathlib.Data.Finset.Card
import Mathlib.Data.Finset.Dedup
import Mathlib.Data.List.NodupEquivFin

/-!
The latest value of each key, in a history of puts that is forgotten now and then.

`latest` reads the history back from its end. A state that keeps one value a key, and treats
a put as a map does, holds the latest values after any run (`view_run`). Where the puts of a
key are a subsequence of some stream (`exists_places`), what a later look finds is never further
back in the stream than what an earlier look found (`looked_forward`).
-/

namespace LatestValue

inductive Event (Key Value : Type*) where
  | put (key : Key) (value : Value)
  | forget

variable {Key Value State Act : Type*}

/-- What has been put since everything was last forgotten. -/
def since (events : List (Event Key Value)) : List (Key × Value) :=
  events.foldl (fun puts event =>
    match event with
    | .put key value => puts ++ [(key, value)]
    | .forget => []) []

@[simp] theorem since_nil : since ([] : List (Event Key Value)) = [] := rfl

@[simp] theorem since_put (events : List (Event Key Value)) (key : Key) (value : Value) :
    since (events ++ [.put key value]) = since events ++ [(key, value)] := by
  rw [since, List.foldl_concat, ← since]

@[simp] theorem since_forget (events : List (Event Key Value)) :
    since (events ++ [.forget]) = [] := by
  rw [since, List.foldl_concat]

section Latest

variable [DecidableEq Key]

/-- The last value put under a key. -/
def latest (events : List (Event Key Value)) (key : Key) : Option Value :=
  (((since events).filter fun put => put.1 = key).map Prod.snd).getLast?

/-- The keys under which there is a value. -/
def keys (events : List (Event Key Value)) : Finset Key :=
  ((since events).map Prod.fst).toFinset

theorem latest_put (events : List (Event Key Value)) (key : Key) (value : Value) :
    latest (events ++ [.put key value]) = Function.update (latest events) key (some value) := by
  funext other
  by_cases same : key = other
  · subst same
    simp [latest]
  · rw [Function.update_of_ne (Ne.symm same)]
    simp [latest, same]

theorem latest_forget (events : List (Event Key Value)) :
    latest (events ++ [.forget]) = fun _ => none := by
  funext key
  simp [latest]

theorem mem_keys {events : List (Event Key Value)} {key : Key} :
    key ∈ keys events ↔ (latest events key).isSome = true := by
  rw [keys, List.mem_toFinset, latest, List.getLast?_isSome]
  constructor
  · intro listed none
    obtain ⟨put, mem, rfl⟩ := List.mem_map.mp listed
    have kept : put.2 ∈ ((since events).filter fun other => other.1 = put.1).map Prod.snd :=
      List.mem_map_of_mem (List.mem_filter.mpr ⟨mem, decide_eq_true rfl⟩)
    rw [none] at kept
    exact List.not_mem_nil kept
  · intro nonempty
    obtain ⟨value, mem⟩ := List.exists_mem_of_ne_nil _ nonempty
    obtain ⟨put, kept, -⟩ := List.mem_map.mp mem
    obtain ⟨inside, here⟩ := List.mem_filter.mp kept
    exact List.mem_map.mpr ⟨put, inside, of_decide_eq_true here⟩

/-- How a state that holds one value a key treats the acts it hears of. -/
structure Keeps (view : State → Key → Option Value) (step : State → Act → State)
    (heard : Act → Option (Event Key Value)) : Prop where
  put : ∀ s act key value, heard act = some (.put key value) →
    view (step s act) = Function.update (view s) key (some value)
  forget : ∀ s act, heard act = some .forget → view (step s act) = fun _ => none
  other : ∀ s act, heard act = none → view (step s act) = view s

/-- Such a state holds the latest values. -/
theorem view_run {view : State → Key → Option Value} {step : State → Act → State}
    {heard : Act → Option (Event Key Value)} (keeps : Keeps view step heard) {start : State}
    (empty : view start = fun _ => none) (acts : List Act) :
    view (acts.foldl step start) = latest (acts.filterMap heard) := by
  induction acts using List.reverseRecOn with
  | nil => exact empty
  | append_singleton acts act ih =>
      rw [List.foldl_concat, List.filterMap_append]
      cases event : heard act with
      | none => rw [keeps.other _ _ event, ih]; simp [event]
      | some e =>
          have heardLast : List.filterMap heard [act] = [e] := by simp [event]
          rw [heardLast]
          cases e with
          | put key value => rw [keeps.put _ _ key value event, latest_put, ih]
          | forget => rw [keeps.forget _ _ event, latest_forget]

end Latest

/-! ### What successive looks find -/

variable {A B : Type*} {R : A → B → Prop}

/-- Fewer items relate to a subsequence of the same stream. -/
theorem related_of_sublist {fewer items : List A} {stream : List B} (sub : fewer.Sublist items)
    (related : List.SublistForall₂ R items stream) : List.SublistForall₂ R fewer stream := by
  induction related generalizing fewer with
  | nil =>
      rw [List.sublist_nil.mp sub]
      exact .nil
  | cons here _ ih =>
      cases sub with
      | cons _ rest => exact .cons_right (ih rest)
      | cons_cons _ rest => exact .cons here (ih rest)
  | cons_right _ ih => exact .cons_right (ih sub)

/-- Items that relate to a subsequence of a stream have increasing places in it. -/
theorem exists_places {items : List A} {stream : List B}
    (related : List.SublistForall₂ R items stream) : ∃ places : List Nat,
      places.Pairwise (· < ·) ∧
      List.Forall₂ (fun a place => ∃ b, stream[place]? = some b ∧ R a b) items places := by
  obtain ⟨chosen, each, inside⟩ := List.sublistForall₂_iff.mp related
  obtain ⟨places, rfl, increasing⟩ := List.sublist_eq_map_getElem inside
  refine ⟨places.map Fin.val, List.pairwise_map.mpr increasing, ?_⟩
  rw [List.forall₂_map_right_iff] at each ⊢
  exact each.imp fun _ place here =>
    ⟨stream[place], List.getElem?_eq_getElem place.isLt, here⟩

/-- Whoever looked at the end of the list when it had `n` items saw the same place as who looks
at it now, or an earlier one. -/
theorem looked_forward {places : List Nat} (increasing : places.Pairwise (· < ·)) {n : Nat}
    (nonempty : 0 < n) (grown : n ≤ places.length) :
    ∃ i j, places[n - 1]? = some i ∧ places.getLast? = some j ∧ i ≤ j := by
  have before : n - 1 < places.length := by omega
  have now : places.length - 1 < places.length := by omega
  refine ⟨places[n - 1], places[places.length - 1], List.getElem?_eq_getElem before, ?_, ?_⟩
  · rw [List.getLast?_eq_getElem?, List.getElem?_eq_getElem now]
  · rcases Nat.eq_or_lt_of_le (Nat.sub_le_sub_right grown 1) with same | later
    · simp only [same, Nat.le_refl]
    · exact Nat.le_of_lt (List.pairwise_iff_getElem.mp increasing _ _ before now later)

end LatestValue
