import Mathlib.Algebra.Ring.Nat
import Mathlib.Data.List.Basic
import Mathlib.Data.Nat.Basic

/-!
Fixed-size byte buffers: copying into a buffer, reading a field of it, and the
little-endian encoding of unsigned integers.

`splice off src dst` is `memcpy(dst + off, src, src.length)` for a copy that
stays inside the buffer, `slice off n buf` the `n` bytes from `off`. A field is
read back after a write by `slice_splice_same`, and a write elsewhere leaves it
alone by `slice_splice_of_disjoint`; both are instances of the pointwise law
`getElem?_splice`.
-/

namespace ByteBuffer

abbrev Bytes := List UInt8

section Splice

variable {α : Type*} {off n : Nat} {src dst : List α}

/-- Overwrite `dst` from `off` on with `src`. -/
def splice (off : Nat) (src dst : List α) : List α :=
  dst.take off ++ src ++ dst.drop (off + src.length)

/-- The `n` elements of `buf` from `off` on. -/
def slice (off n : Nat) (buf : List α) : List α := (buf.drop off).take n

@[simp] theorem length_splice (fits : off + src.length ≤ dst.length) :
    (splice off src dst).length = dst.length := by
  simp only [splice, List.length_append, List.length_take, List.length_drop]
  omega

/-- A copy replaces the positions it covers and no other. -/
theorem getElem?_splice (fits : off + src.length ≤ dst.length) (i : Nat) :
    (splice off src dst)[i]? =
      if off ≤ i ∧ i < off + src.length then src[i - off]? else dst[i]? := by
  have takeLen : (dst.take off).length = off := by simp; omega
  unfold splice
  rcases Nat.lt_or_ge i off with before | after
  · rw [if_neg (by omega), List.append_assoc, List.getElem?_append_left (by omega),
      List.getElem?_take_of_lt before]
  · rcases Nat.lt_or_ge i (off + src.length) with inside | beyond
    · rw [if_pos ⟨after, inside⟩, List.append_assoc, List.getElem?_append_right (by omega),
        List.getElem?_append_left (by omega), takeLen]
    · rw [if_neg (by omega), List.getElem?_append_right (by simp; omega), List.getElem?_drop]
      congr 1
      simp only [List.length_append, takeLen]
      omega

theorem getElem?_slice (buf : List α) (i : Nat) :
    (slice off n buf)[i]? = if i < n then buf[off + i]? else none := by
  unfold slice
  split
  · rename_i inside
    rw [List.getElem?_take_of_lt inside, List.getElem?_drop]
  · rename_i outside
    exact List.getElem?_eq_none (by simp; omega)

theorem slice_one {buf : List α} (inside : off < buf.length) (d : α) :
    slice off 1 buf = [buf.getD off d] := by
  rw [slice, List.drop_eq_getElem_cons inside, List.take_succ_cons, List.take_zero,
    List.getD_eq_getElem?_getD, List.getElem?_eq_getElem inside, Option.getD_some]

/-- The field just written reads back. -/
theorem slice_splice_same (fits : off + src.length ≤ dst.length) :
    slice off src.length (splice off src dst) = src := by
  apply List.ext_getElem?
  intro i
  rw [getElem?_slice]
  split
  · rename_i inside
    rw [getElem?_splice fits, if_pos (by omega), Nat.add_sub_cancel_left]
  · rename_i outside
    exact (List.getElem?_eq_none (by omega)).symm

/-- A field disjoint from the write reads as before. -/
theorem slice_splice_of_disjoint {off' : Nat} (fits : off + src.length ≤ dst.length)
    (apart : off' + n ≤ off ∨ off + src.length ≤ off') :
    slice off' n (splice off src dst) = slice off' n dst := by
  apply List.ext_getElem?
  intro i
  rw [getElem?_slice, getElem?_slice]
  split
  · rename_i inside
    rw [getElem?_splice fits, if_neg (by omega)]
  · rfl

/-- Writing the whole buffer leaves nothing of its old contents. -/
theorem splice_whole (whole : src.length = dst.length) : splice 0 src dst = src := by
  simp [splice, whole]

end Splice

/-! ### Little-endian integers -/

/-- The low `n` bytes of `v`, least significant first. -/
def leBytes : Nat → Nat → Bytes
  | 0, _ => []
  | n + 1, v => UInt8.ofNat (v % 256) :: leBytes n (v / 256)

/-- The integer a little-endian byte string denotes. -/
def leValue : Bytes → Nat
  | [] => 0
  | b :: bs => b.toNat + 256 * leValue bs

@[simp] theorem length_leBytes (n v : Nat) : (leBytes n v).length = n := by
  induction n generalizing v with
  | zero => rfl
  | succ n ih => simp [leBytes, ih]

theorem leBytes_one (b : UInt8) : leBytes 1 b.toNat = [b] := by
  have small := b.toNat_lt
  rw [leBytes, leBytes, Nat.mod_eq_of_lt small, UInt8.ofNat_toNat]

theorem leValue_one (b : UInt8) : leValue [b] = b.toNat := by
  rw [leValue, leValue, Nat.mul_zero, Nat.add_zero]

theorem leValue_leBytes (n v : Nat) : leValue (leBytes n v) = v % 256 ^ n := by
  induction n generalizing v with
  | zero => simp [leBytes, leValue, Nat.mod_one]
  | succ n ih =>
      have byte : (UInt8.ofNat (v % 256)).toNat = v % 256 := by
        rw [UInt8.toNat_ofNat']
        exact Nat.mod_eq_of_lt (by omega)
      rw [leBytes, leValue, ih, byte, Nat.pow_succ', Nat.mod_mul]

theorem leValue_lt (bs : Bytes) : leValue bs < 256 ^ bs.length := by
  induction bs with
  | nil => simp [leValue]
  | cons b bs ih =>
      have := b.toNat_lt
      rw [leValue, List.length_cons, Nat.pow_succ']
      omega

theorem leBytes_leValue (bs : Bytes) : leBytes bs.length (leValue bs) = bs := by
  induction bs with
  | nil => rfl
  | cons b bs ih =>
      have small := b.toNat_lt
      have low : (leValue (b :: bs)) % 256 = b.toNat := by rw [leValue]; omega
      have high : (leValue (b :: bs)) / 256 = leValue bs := by rw [leValue]; omega
      rw [List.length_cons, leBytes, low, high, ih, UInt8.ofNat_toNat]

/-- An encoding forgets the part of the integer it has no room for. -/
theorem leBytes_mod (n v : Nat) : leBytes n (v % 256 ^ n) = leBytes n v := by
  have again := leBytes_leValue (leBytes n v)
  rwa [length_leBytes, leValue_leBytes] at again

theorem leBytes_inj {n a b : Nat} (smallA : a < 256 ^ n) (smallB : b < 256 ^ n)
    (same : leBytes n a = leBytes n b) : a = b := by
  have values := congrArg leValue same
  rwa [leValue_leBytes, leValue_leBytes, Nat.mod_eq_of_lt smallA, Nat.mod_eq_of_lt smallB]
    at values

/-- The first bytes of an encoding are the encoding in fewer bytes. -/
theorem take_leBytes {k n : Nat} (fewer : k ≤ n) (v : Nat) :
    (leBytes n v).take k = leBytes k v := by
  induction k generalizing n v with
  | zero => rw [List.take_zero, leBytes]
  | succ k ih =>
      obtain ⟨n, rfl⟩ : ∃ m, n = m + 1 := ⟨n - 1, by omega⟩
      rw [leBytes, List.take_succ_cons, ih (by omega), leBytes]

theorem leValue_zeros (k : Nat) : leValue (List.replicate k 0) = 0 := by
  induction k with
  | zero => rfl
  | succ k ih => simp [List.replicate_succ, leValue, ih]

/-- Zeros at the end of an encoding add nothing. -/
theorem leValue_append_zeros (bs : Bytes) (k : Nat) :
    leValue (bs ++ List.replicate k 0) = leValue bs := by
  induction bs with
  | nil => simp [leValue, leValue_zeros]
  | cons b bs ih => rw [List.cons_append, leValue, leValue, ih]

/-! ### Big-endian integers -/

/-- The low `n` bytes of `v`, most significant first. -/
def beBytes (n v : Nat) : Bytes := (leBytes n v).reverse

def beValue (bs : Bytes) : Nat := leValue bs.reverse

@[simp] theorem length_beBytes (n v : Nat) : (beBytes n v).length = n := by
  rw [beBytes, List.length_reverse, length_leBytes]

theorem beValue_beBytes (n v : Nat) : beValue (beBytes n v) = v % 256 ^ n := by
  rw [beValue, beBytes, List.reverse_reverse, leValue_leBytes]

/-! ### Growing buffers -/

/-- What is read inside a buffer does not depend on what comes after it. -/
theorem slice_append {α : Type*} {off n : Nat} {buf : List α} (inside : off + n ≤ buf.length)
    (more : List α) : slice off n (buf ++ more) = slice off n buf := by
  rw [slice, slice, List.drop_append_of_le_length (by omega), List.take_append_of_le_length]
  rw [List.length_drop]
  omega

/-- ASCII text as bytes. -/
def ascii (text : String) : Bytes := text.toList.map fun c => UInt8.ofNat c.toNat

end ByteBuffer
