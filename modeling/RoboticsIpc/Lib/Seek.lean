import Mathlib.Data.List.Basic
import Mathlib.Data.List.Induction

/-!
A reader of a stream that wants one item of each of a list of keys, in turn.

While it waits for an item it throws away what has another key. What it finds is the
greedy match of its list in the stream: it gets all it wants exactly if the list is a
subsequence of the keys that come (`wanted_eq_nil_iff`), and a reader that wants one key
only misses nothing of that key (`found_replicate`).
-/

namespace Seek

variable {Key Item : Type*} [DecidableEq Key] {key : Item → Key} {wanted : List Key}
  {items : List Item}

/-- What a reader has found, and what it still wants. -/
structure Reader (Key Item : Type*) where
  wanted : List Key
  found : List Item := []

/-- The reader is shown the next item. -/
def Reader.show (key : Item → Key) (r : Reader Key Item) (item : Item) : Reader Key Item :=
  match r.wanted with
  | [] => r
  | want :: rest => if key item = want then ⟨rest, r.found ++ [item]⟩ else r

/-- The item is what the reader waits for, or it is thrown away. -/
theorem Reader.show_cases (key : Item → Key) (r : Reader Key Item) (item : Item) :
    (∃ rest, r.wanted = key item :: rest ∧ r.show key item = ⟨rest, r.found ++ [item]⟩) ∨
      (∀ rest, r.wanted ≠ key item :: rest) ∧ r.show key item = r := by
  rw [Reader.show]
  split
  · rename_i done
    exact .inr ⟨fun rest waits => by simp [done] at waits, rfl⟩
  · rename_i want rest waits
    split
    · rename_i here
      exact .inl ⟨rest, here ▸ waits, rfl⟩
    · rename_i other
      exact .inr ⟨fun later same => other (List.cons.inj (same.symm.trans waits)).1, rfl⟩

/-- A reader that has been shown these items. -/
def seek (key : Item → Key) (wanted : List Key) (items : List Item) : Reader Key Item :=
  items.foldl (Reader.show key) { wanted }

@[simp] theorem seek_nil : seek key wanted [] = { wanted } := rfl

theorem seek_concat (item : Item) :
    seek key wanted (items ++ [item]) = (seek key wanted items).show key item := by
  rw [seek, List.foldl_append, ← seek]
  rfl

/-- The reader finds items, in their order. -/
theorem found_sublist (key : Item → Key) (wanted : List Key) (items : List Item) :
    (seek key wanted items).found.Sublist items := by
  induction items using List.reverseRecOn with
  | nil => exact List.Sublist.refl []
  | append_singleton items item ih =>
      rw [seek_concat]
      rcases (seek key wanted items).show_cases key item with ⟨rest, -, shown⟩ | ⟨-, shown⟩
      · rw [shown]
        exact ih.append_right [item]
      · rw [shown]
        exact ih.trans (List.sublist_append_left _ _)

/-- What it has found is what it wanted, up to what it still wants. -/
theorem found_keys (key : Item → Key) (wanted : List Key) (items : List Item) :
    (seek key wanted items).found.map key ++ (seek key wanted items).wanted = wanted := by
  induction items using List.reverseRecOn with
  | nil => rfl
  | append_singleton items item ih =>
      rw [seek_concat]
      rcases (seek key wanted items).show_cases key item with ⟨rest, waits, shown⟩ | ⟨-, shown⟩
      · rw [shown, List.map_append, List.append_assoc, List.map_singleton, List.singleton_append,
          ← waits]
        exact ih
      · rw [shown]
        exact ih

/-- No reader gets further: whatever start of its list is a subsequence of the keys that came,
it has found. -/
theorem found_longest {matched : List Key} (start : matched <+: wanted)
    (sub : matched.Sublist (items.map key)) :
    matched <+: (seek key wanted items).found.map key := by
  induction items using List.reverseRecOn generalizing matched with
  | nil =>
      rw [List.map_nil, List.sublist_nil] at sub
      subst sub
      exact List.nil_prefix
  | append_singleton items item ih =>
      have keys := found_keys key wanted items
      rw [List.map_append, List.map_singleton] at sub
      rw [seek_concat]
      obtain ⟨earlier, last, rfl, subEarlier, subLast⟩ := List.sublist_append_iff.mp sub
      have before := ih ((List.prefix_append earlier last).trans start) subEarlier
      have grown : (seek key wanted items).found.map key <+:
          ((seek key wanted items).show key item).found.map key := by
        rcases (seek key wanted items).show_cases key item with ⟨rest, -, shown⟩ | ⟨-, shown⟩
        · rw [shown]
          exact (List.prefix_append _ _).map key
        · exact ⟨[], by rw [shown, List.append_nil]⟩
      cases subLast with
      | cons _ none =>
          rw [List.sublist_nil.mp none, List.append_nil]
          exact before.trans grown
      | cons_cons _ none =>
          rw [List.sublist_nil.mp none] at start ⊢
          -- Either the reader is past that key already, or it is the one it waits for.
          by_cases past : (earlier ++ [key item]).length ≤
              ((seek key wanted items).found.map key).length
          · exact (List.prefix_of_prefix_length_le start ⟨_, keys⟩ past).trans grown
          · have even : earlier = (seek key wanted items).found.map key := by
              refine before.eq_of_length_le ?_
              rw [List.length_append, List.length_singleton] at past
              omega
            obtain ⟨rest, wants⟩ := start
            rw [List.append_assoc, even, List.singleton_append] at wants
            have waits := List.append_cancel_left (keys.trans wants.symm)
            rcases (seek key wanted items).show_cases key item with ⟨_, -, shown⟩ | ⟨other, -⟩
            · refine ⟨[], ?_⟩
              rw [shown, List.map_append, ← even, List.map_singleton, List.append_nil]
            · exact absurd waits (other rest)

/-- The reader has found all it wanted exactly if its list is a subsequence of the keys. -/
theorem wanted_eq_nil_iff :
    (seek key wanted items).wanted = [] ↔ wanted.Sublist (items.map key) := by
  have keys := found_keys key wanted items
  constructor
  · intro done
    rw [done, List.append_nil] at keys
    rw [← keys]
    exact (found_sublist key wanted items).map key
  · intro sub
    have all := (found_longest List.prefix_rfl sub).length_le
    have lengths := congrArg List.length keys
    rw [List.length_append] at lengths
    exact List.length_eq_zero_iff.mp (by omega)

/-- A reader that wants one key only finds the first items of that key. -/
theorem found_replicate (k : Key) (n : Nat) : (seek key (List.replicate n k) items).found =
    (items.filter fun item => key item = k).take n := by
  induction items using List.reverseRecOn with
  | nil => simp
  | append_singleton items item ih =>
      have keys := found_keys key (List.replicate n k) items
      have count := congrArg List.length keys
      rw [List.length_append, List.length_map, List.length_replicate, ih, List.length_take] at count
      rw [seek_concat, List.filter_append, List.take_append]
      rcases (seek key (List.replicate n k) items).show_cases key item with
        ⟨rest, waits, shown⟩ | ⟨other, shown⟩
      · have mine : key item = k := by
          rw [waits] at keys
          exact List.eq_of_mem_replicate (keys ▸ by simp : key item ∈ List.replicate n k)
        rw [waits, List.length_cons] at count
        have one : [item].filter (fun item => key item = k) = [item] := by simp [mine]
        have room : [item].length ≤ n - (items.filter fun item => key item = k).length := by
          rw [List.length_singleton]
          omega
        rw [shown, ih, one, List.take_of_length_le room]
      · have nothing : ([item].filter fun item => key item = k).take
            (n - (items.filter fun item => key item = k).length) = [] := by
          by_cases mine : key item = k
          · cases left : (seek key (List.replicate n k) items).wanted with
            | nil =>
                rw [left, List.length_nil] at count
                have full : n - (items.filter fun item => key item = k).length = 0 := by omega
                rw [full, List.take_zero]
            | cons want rest =>
                rw [left] at keys
                have same : want = k :=
                  List.eq_of_mem_replicate (keys ▸ by simp : want ∈ List.replicate n k)
                exact absurd (left.trans (by rw [same, mine])) (other rest)
          · simp [mine]
        rw [shown, nothing, List.append_nil]
        exact ih

end Seek
