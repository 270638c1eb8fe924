import Mathlib.Data.List.Basic

/-!
Cutting a text at a separator: at its first occurrence, where the part before it
has none, or at its last, where the part after it has none. Either cut is
unique, and `idxOf?` of the text or of its reverse finds it.

`indexOf` looks for a separator of several elements: past a text that neither holds it nor begins
it (`indexOf_clear`), and with what was found unchanged by more text (`indexOf_append`).
-/

namespace Separator

variable {α : Type*} {sep : α} {text before after before' after' : List α}

/-- The cut at the first separator is unique. -/
theorem first_unique (fresh : sep ∉ before) (fresh' : sep ∉ before')
    (same : before ++ sep :: after = before' ++ sep :: after') :
    before = before' ∧ after = after' := by
  induction before generalizing before' with
  | nil =>
      cases before' with
      | nil => exact ⟨rfl, (List.cons.inj same).2⟩
      | cons b rest =>
          have head : sep = b := (List.cons.inj same).1
          exact absurd (head ▸ List.mem_cons_self ..) fresh'
  | cons b rest ih =>
      cases before' with
      | nil =>
          have head : b = sep := (List.cons.inj same).1
          exact absurd (head ▸ List.mem_cons_self ..) fresh
      | cons b' rest' =>
          obtain ⟨rfl, tails⟩ := List.cons.inj same
          obtain ⟨rfl, rfl⟩ := ih (fun mem => fresh (List.mem_cons_of_mem b mem))
            (fun mem => fresh' (List.mem_cons_of_mem b mem)) tails
          exact ⟨rfl, rfl⟩

variable [BEq α] [LawfulBEq α]

/-- `idxOf?` finds the first cut. -/
theorem idxOf?_eq_some {i : Nat} : text.idxOf? sep = some i ↔
    ∃ before after, text = before ++ sep :: after ∧ sep ∉ before ∧ before.length = i := by
  constructor
  · intro found
    obtain ⟨inside, here, earlier⟩ := List.idxOf?_eq_some_iff.mp found
    refine ⟨text.take i, text.drop (i + 1), ?_, ?_, ?_⟩
    · rw [← here, List.getElem_cons_drop, List.take_append_drop]
    · intro mem
      obtain ⟨j, bound, same⟩ := List.mem_iff_getElem.mp mem
      rw [List.length_take] at bound
      rw [List.getElem_take] at same
      exact earlier j (by omega) same
    · rw [List.length_take]
      omega
  · rintro ⟨before, after, rfl, fresh, rfl⟩
    rw [List.idxOf?_eq_some_iff]
    refine ⟨by simp, by simp, ?_⟩
    intro j earlier same
    rw [List.getElem_append_left earlier] at same
    exact fresh (same ▸ List.getElem_mem earlier)

/-- `idxOf?` of the reverse finds the last cut. -/
theorem idxOf?_reverse_eq_some {i : Nat} : text.reverse.idxOf? sep = some i ↔
    ∃ before after, text = before ++ sep :: after ∧ sep ∉ after ∧ after.length = i := by
  rw [idxOf?_eq_some]
  constructor
  · rintro ⟨before, after, split, fresh, length⟩
    refine ⟨after.reverse, before.reverse, ?_, by simpa using fresh, by simpa using length⟩
    rw [← text.reverse_reverse, split]
    simp
  · rintro ⟨before, after, rfl, fresh, length⟩
    exact ⟨after.reverse, before.reverse, by simp, by simpa using fresh, by simpa using length⟩

/-! ### Separators of several elements -/

/-- Where `sep` first occurs. -/
def indexOf (sep : List α) : List α → Option Nat
  | [] => if sep.isPrefixOf [] then some 0 else none
  | a :: rest => if sep.isPrefixOf (a :: rest) then some 0 else (indexOf sep rest).map (· + 1)

/-- The separator neither occurs in `text` nor is begun at its end. -/
def Clear (sep text : List α) : Prop :=
  ∀ i < text.length, sep.isPrefixOf (text.drop i) = false ∧ (text.drop i).isPrefixOf sep = false

instance (sep text : List α) : Decidable (Clear sep text) :=
  inferInstanceAs (Decidable (∀ i < _, _ ∧ _))

section Search

variable {sep text : List α}

/-- A text without the first element of the separator. -/
theorem clear_of_not_mem {a : α} (fresh : a ∉ text) (sep : List α) : Clear (a :: sep) text := by
  intro i inside
  have left : text.drop i ≠ [] := by
    rw [ne_eq, List.drop_eq_nil_iff]
    omega
  obtain ⟨c, rest, split⟩ := List.exists_cons_of_ne_nil left
  have other : a ≠ c := by
    rintro rfl
    exact fresh (List.mem_of_mem_drop (split ▸ List.mem_cons_self))
  rw [split, Bool.eq_false_iff, Bool.eq_false_iff, ne_eq, ne_eq, List.isPrefixOf_iff_prefix,
    List.isPrefixOf_iff_prefix]
  exact ⟨fun begins => other (List.cons_prefix_cons.mp begins).1,
    fun begins => other (List.cons_prefix_cons.mp begins).1.symm⟩

/-- Two texts of which neither begins the other stay different. -/
theorem isPrefixOf_append_eq_false {more : List α} (other : sep.isPrefixOf text = false)
    (other' : text.isPrefixOf sep = false) : sep.isPrefixOf (text ++ more) = false := by
  rw [Bool.eq_false_iff, ne_eq, List.isPrefixOf_iff_prefix] at other other' ⊢
  intro begins
  rcases List.prefix_or_prefix_of_prefix begins (List.prefix_append text more) with first | second
  · exact other first
  · exact other' second

theorem indexOf_clear (clear : Clear sep text) (more : List α) :
    indexOf sep (text ++ more) = (indexOf sep more).map (· + text.length) := by
  induction text with
  | nil =>
      rw [List.nil_append]
      cases indexOf sep more <;> rfl
  | cons a rest ih =>
      have later : Clear sep rest := by
        intro i inside
        exact clear (i + 1) (Nat.succ_lt_succ inside)
      obtain ⟨other, other'⟩ := clear 0 (Nat.succ_pos _)
      have here : sep.isPrefixOf (((a :: rest).drop 0) ++ more) = false :=
        isPrefixOf_append_eq_false other other'
      rw [List.drop_zero, List.cons_append] at here
      rw [List.cons_append, indexOf, here, if_neg Bool.false_ne_true, ih later, Option.map_map]
      congr 1

theorem indexOf_here (sep more : List α) : indexOf sep (sep ++ more) = some 0 := by
  have begins : sep.isPrefixOf (sep ++ more) = true :=
    List.isPrefixOf_iff_prefix.mpr (List.prefix_append sep more)
  cases whole : sep ++ more with
  | nil => rw [indexOf, ← whole, begins, if_pos rfl]
  | cons a rest => rw [indexOf, ← whole, begins, if_pos rfl]

/-- Where the separator was found, it is found in a longer text. -/
theorem indexOf_append {n : Nat} (found : indexOf sep text = some n) (more : List α) :
    n + sep.length ≤ text.length ∧ indexOf sep (text ++ more) = some n := by
  have longer : ∀ {t : List α}, sep.isPrefixOf t = true →
      sep.length ≤ t.length ∧ sep.isPrefixOf (t ++ more) = true := by
    intro t begins
    rw [List.isPrefixOf_iff_prefix] at begins ⊢
    exact ⟨begins.length_le, begins.trans (List.prefix_append t more)⟩
  induction text generalizing n with
  | nil =>
      rw [indexOf] at found
      split at found
      · rename_i begins
        cases found
        obtain ⟨short, -⟩ := longer begins
        have empty : sep = [] := List.eq_nil_of_length_eq_zero (Nat.le_zero.mp short)
        rw [empty, List.nil_append]
        exact ⟨Nat.le_refl _, indexOf_here [] more⟩
      · cases found
  | cons a rest ih =>
      rw [indexOf] at found
      split at found
      · rename_i begins
        cases found
        obtain ⟨short, again⟩ := longer begins
        rw [List.cons_append] at again
        refine ⟨by rw [Nat.zero_add]; exact short, ?_⟩
        rw [List.cons_append, indexOf, again, if_pos rfl]
      · rename_i other
        obtain ⟨m, later, rfl⟩ := Option.map_eq_some_iff.mp found
        obtain ⟨inside, again⟩ := ih later
        have other' : sep.isPrefixOf (a :: rest ++ more) = false := by
          rw [Bool.eq_false_iff, ne_eq, List.isPrefixOf_iff_prefix]
          intro begins
          have enough : sep.length ≤ (a :: rest).length := by
            rw [List.length_cons]
            omega
          exact other (List.isPrefixOf_iff_prefix.mpr
            (List.prefix_of_prefix_length_le begins (List.prefix_append _ more) enough))
        refine ⟨by rw [List.length_cons]; omega, ?_⟩
        rw [List.cons_append] at other' ⊢
        rw [indexOf, other', if_neg Bool.false_ne_true, again, Option.map_some]

end Search

end Separator
