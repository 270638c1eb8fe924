import Mathlib.Data.List.Basic

/-!
Tables of rules of which the first that matches is taken.

The outcome of a query depends on the order of two rules only when both match it
(`find?_swap`), and never on a rule that an earlier one covers (`find?_delete`).
Among entries that share a key the first one leads (`Leads`).
-/

namespace FirstMatch

variable {Rule : Type*} {query : Rule → Bool} {before after : List Rule}

/-- Two adjacent rules may change places unless both match. -/
theorem find?_swap {a b : Rule} (apart : query a = true → query b = false) :
    (before ++ b :: a :: after).find? query = (before ++ a :: b :: after).find? query := by
  rw [List.find?_append, List.find?_append]
  congr 1
  cases first : query a with
  | true => simp only [List.find?_cons, first, apart first]
  | false => simp only [List.find?_cons, first]

/-- A rule is never reached if an earlier one matches whatever it matches. -/
theorem find?_delete {rule earlier : Rule} (mem : earlier ∈ before)
    (covers : query rule = true → query earlier = true) :
    (before ++ after).find? query = (before ++ rule :: after).find? query := by
  rw [List.find?_append, List.find?_append]
  cases found : before.find? query with
  | some _ => rfl
  | none =>
      have unmatched : ¬ query earlier = true := List.find?_eq_none.mp found earlier mem
      rw [List.find?_cons_of_neg fun matched => unmatched (covers matched)]

/-! ### Leaders

Of the entries that share a key the first leads. -/

section Leaders

variable {Entry Key : Type*} [DecidableEq Key] {key : Entry → Key} {entries : List Entry}
  {entry other : Entry}

/-- The first entry with its key. -/
def Leads (key : Entry → Key) (entries : List Entry) (entry : Entry) : Prop :=
  entries.find? (fun other => key other = key entry) = some entry

theorem Leads.mem (leads : Leads key entries entry) : entry ∈ entries :=
  List.mem_of_find?_eq_some leads

theorem Leads.unique (leads : Leads key entries entry) (leads' : Leads key entries other)
    (same : key entry = key other) : entry = other := by
  rw [Leads, same] at leads
  exact Option.some.inj (leads.symm.trans leads')

/-- What comes later changes no leader. -/
theorem Leads.append (leads : Leads key entries entry) (later : List Entry) :
    Leads key (entries ++ later) entry := by
  rw [Leads, List.find?_append, leads, Option.some_or]

theorem exists_leads (key : Entry → Key) (mem : entry ∈ entries) :
    ∃ leader, Leads key entries leader ∧ key leader = key entry := by
  cases found : entries.find? (fun other => key other = key entry) with
  | none => exact absurd (decide_eq_true rfl) (List.find?_eq_none.mp found entry mem)
  | some leader =>
      have same : key leader = key entry := by simpa using List.find?_some found
      exact ⟨leader, by rwa [Leads, same], same⟩

/-- An entry with a new key leads. -/
theorem leads_of_new (new : key entry ∉ entries.map key) (later : List Entry) :
    Leads key (entries ++ entry :: later) entry := by
  have none : entries.find? (fun other => key other = key entry) = none := by
    rw [List.find?_eq_none]
    intro other mem same
    exact new (List.mem_map.mpr ⟨other, mem, of_decide_eq_true same⟩)
  rw [Leads, List.find?_append, none, Option.none_or, List.find?_cons_of_pos (by simp)]

/-- A leader of a list with one entry more led before, or is the new entry. -/
theorem Leads.of_concat (leads : Leads key (entries ++ [entry]) other) :
    Leads key entries other ∨ (other = entry ∧ key entry ∉ entries.map key) := by
  by_cases old : key other ∈ entries.map key
  · obtain ⟨earlier, mem, same⟩ := List.mem_map.mp old
    obtain ⟨leader, first, key_eq⟩ := exists_leads key mem
    obtain rfl := (first.append [entry]).unique leads (key_eq.trans same)
    exact .inl first
  · have inside := leads.mem
    rcases List.mem_append.mp inside with earlier | last
    · exact absurd (List.mem_map_of_mem earlier) old
    · obtain rfl := List.mem_singleton.mp last
      exact .inr ⟨rfl, old⟩

end Leaders

end FirstMatch
