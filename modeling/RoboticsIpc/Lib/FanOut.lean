import Mathlib.Data.List.Basic
import Mathlib.Data.List.Nodup

/-!
Fan-out: messages arrive one after another and each is copied to the
destinations a routing function lists for it.

`copies` is the log of a fan-out that loses nothing, `share log d` what one
destination gets out of a log, and `delivered` the same without a log: the
messages that list `d`, in order of arrival (`share_copies`). An implementation
that may drop copies keeps a log that is a sublist of `copies`; each
destination's share is then a subsequence of `delivered` (`share_sublist`).
-/

namespace FanOut

variable {Msg Dest Out Out' : Type*}

/-- Every copy made of the messages received, in order. -/
def copies (route : Msg → List Dest) (copy : Msg → Out) (received : List Msg) :
    List (Dest × Out) :=
  received.flatMap fun m => (route m).map fun d => (d, copy m)

theorem copies_append {route : Msg → List Dest} {copy : Msg → Out} {before after : List Msg} :
    copies route copy (before ++ after) = copies route copy before ++ copies route copy after :=
  List.flatMap_append

theorem copies_eq_nil {route : Msg → List Dest} {copy : Msg → Out} {received : List Msg}
    (silent : ∀ m ∈ received, route m = []) : copies route copy received = [] := by
  rw [copies, List.flatMap_eq_nil_iff]
  intro m mem
  rw [silent m mem, List.map_nil]

theorem copies_singleton {route : Msg → List Dest} {copy : Msg → Out} {m : Msg} :
    copies route copy [m] = (route m).map fun d => (d, copy m) := by
  simp [copies]

section Shares

variable [DecidableEq Dest]

/-- What destination `d` gets out of a log. -/
def share (log : List (Dest × Out)) (d : Dest) : List Out :=
  (log.filter fun entry => entry.1 = d).map Prod.snd

/-- What destination `d` is owed: the messages that list it. -/
def delivered (route : Msg → List Dest) (copy : Msg → Out) (received : List Msg) (d : Dest) :
    List Out :=
  (received.filter fun m => d ∈ route m).map copy

theorem share_append {before after : List (Dest × Out)} {d : Dest} :
    share (before ++ after) d = share before d ++ share after d := by
  simp [share, List.filter_append]

/-- Changing the copies of a log changes those of each share. -/
theorem share_map_id {log : List (Dest × Out)} {f : Out → Out'} (d : Dest) :
    share (log.map (Prod.map id f)) d = (share log d).map f := by
  simp only [share, List.filter_map, List.map_map]
  rfl

theorem share_sublist {log log' : List (Dest × Out)} (sub : log.Sublist log') (d : Dest) :
    (share log d).Sublist (share log' d) :=
  (sub.filter _).map _

/-- One message's copies reach a destination once, if it is listed. -/
theorem share_map {dests : List Dest} (nodup : dests.Nodup) (out : Out) (d : Dest) :
    share (dests.map fun e => (e, out)) d = if d ∈ dests then [out] else [] := by
  induction dests with
  | nil => rfl
  | cons e dests ih =>
      obtain ⟨fresh, rest⟩ := List.nodup_cons.mp nodup
      have tail := ih rest
      rw [List.map_cons, ← List.singleton_append, share_append, tail]
      by_cases here : e = d
      · subst here
        simp [share, fresh]
      · have other : d ≠ e := fun same => here same.symm
        simp [share, here, other]

theorem length_share_map (dests : List Dest) (out : Out) (d : Dest) :
    (share (dests.map fun e => (e, out)) d).length = dests.count d := by
  induction dests with
  | nil => rfl
  | cons e dests ih =>
      rw [List.map_cons, ← List.singleton_append, share_append, List.length_append, ih,
        List.count_cons]
      by_cases here : e = d <;> simp [share, here, Nat.add_comm]

/-- Each destination's share of a lossless fan-out is what it is owed. -/
theorem share_copies {route : Msg → List Dest} {copy : Msg → Out} {received : List Msg}
    (nodup : ∀ m ∈ received, (route m).Nodup) (d : Dest) :
    share (copies route copy received) d = delivered route copy received d := by
  induction received with
  | nil => rfl
  | cons m rest ih =>
      have tail := ih fun m' mem => nodup m' (List.mem_cons_of_mem m mem)
      rw [← List.singleton_append, copies_append, share_append, tail, copies_singleton,
        share_map (nodup m (List.mem_cons_self ..))]
      by_cases listed : d ∈ route m <;> simp [delivered, listed]

end Shares

end FanOut
