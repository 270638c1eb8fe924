import RoboticsIpc.Lib.RecordLayout

/-!
A mapped range of addresses, and arithmetic on 64-bit sizes that must not overflow.

An access is checked: `load` and `store` are `none` when a byte of it lies outside of the
mapping, `addSize` and `mulSize` when the result has no 64 bits. A program that gets through
has stayed inside. `StoredAt` says what a store does to the spans around it and to those apart,
`Writes` where a run of stores may have changed anything.
-/

namespace AddressSpace

open ByteBuffer RecordLayout

/-! ### Sizes -/

def addSize (a b : Nat) : Option Nat := if a + b < 2 ^ 64 then some (a + b) else none

def mulSize (a b : Nat) : Option Nat := if a * b < 2 ^ 64 then some (a * b) else none

theorem addSize_eq {a b : Nat} (fits : a + b < 2 ^ 64) : addSize a b = some (a + b) := if_pos fits

theorem mulSize_eq {a b : Nat} (fits : a * b < 2 ^ 64) : mulSize a b = some (a * b) := if_pos fits

/-! ### Accesses -/

/-- Mapped bytes; the address behind them is one too. -/
structure Mapping where
  base : Nat
  bytes : Bytes
  inSpace : base + bytes.length < 2 ^ 64

/-- The span of addresses lies in the mapping. -/
def Inside (m : Mapping) (s : Span) : Prop :=
  m.base ≤ s.off ∧ s.off + s.len ≤ m.base + m.bytes.length

instance (m : Mapping) (s : Span) : Decidable (Inside m s) := inferInstanceAs (Decidable (_ ∧ _))

def load (m : Mapping) (addr n : Nat) : Option Bytes :=
  if Inside m ⟨addr, n⟩ then some (slice (addr - m.base) n m.bytes) else none

def store (m : Mapping) (addr : Nat) (src : Bytes) : Option Mapping :=
  if inside : Inside m ⟨addr, src.length⟩ then
    some { m with
      bytes := splice (addr - m.base) src m.bytes
      inSpace := by
        obtain ⟨low, high⟩ := inside
        rw [length_splice (by dsimp only at low high; omega)]
        exact m.inSpace }
  else none

/-- The same range of addresses. -/
structure SameRange (m m' : Mapping) : Prop where
  base : m'.base = m.base
  length : m'.bytes.length = m.bytes.length

/-- `s` is a part of `t`. -/
def Within (s t : Span) : Prop := t.off ≤ s.off ∧ s.off + s.len ≤ t.off + t.len

/-- What a store leaves behind. -/
structure StoredAt (m : Mapping) (addr : Nat) (src : Bytes) (m' : Mapping) : Prop where
  range : SameRange m m'
  reads : load m' addr src.length = some src
  around : ∀ (s : Span) old, Within ⟨addr, src.length⟩ s → load m s.off s.len = some old →
    load m' s.off s.len = some (splice (addr - s.off) src old)
  frame : ∀ s : Span, (Span.mk addr src.length).Apart s → load m' s.off s.len = load m s.off s.len

/-- Only these spans may differ. -/
structure Writes (spans : List Span) (m m' : Mapping) : Prop where
  range : SameRange m m'
  frame : ∀ s : Span, (∀ t ∈ spans, t.Apart s) → load m' s.off s.len = load m s.off s.len

variable {m m' m'' : Mapping} {addr n : Nat} {src : Bytes} {s t : Span}

theorem SameRange.inside (same : SameRange m m') : Inside m' s ↔ Inside m s := by
  rw [Inside, Inside, same.base, same.length]

theorem SameRange.refl (m : Mapping) : SameRange m m := ⟨rfl, rfl⟩

theorem SameRange.trans (first : SameRange m m') (second : SameRange m' m'') : SameRange m m'' :=
  ⟨second.base.trans first.base, second.length.trans first.length⟩

/-- A copy inside of the part that is read. -/
theorem slice_splice_around {α : Type*} {off off' n : Nat} {src dst : List α}
    (fits : off' + n ≤ dst.length) (low : off' ≤ off) (high : off + src.length ≤ off' + n) :
    slice off' n (splice off src dst) = splice (off - off') src (slice off' n dst) := by
  have size : (slice off' n dst).length = n := by
    rw [slice, List.length_take, List.length_drop]
    omega
  have outer : off + src.length ≤ dst.length := by omega
  have inner : off - off' + src.length ≤ (slice off' n dst).length := by omega
  apply List.ext_getElem?
  intro i
  rw [getElem?_slice, getElem?_splice outer, getElem?_splice inner, getElem?_slice]
  split
  · by_cases inside : off ≤ off' + i ∧ off' + i < off + src.length
    · rw [if_pos inside, if_pos (by omega)]
      congr 1
      omega
    · rw [if_neg inside, if_neg (by omega)]
  · rw [if_neg (by omega)]

theorem exists_load (inside : Inside m ⟨addr, n⟩) :
    ∃ bytes, load m addr n = some bytes ∧ bytes.length = n := by
  refine ⟨_, if_pos inside, ?_⟩
  obtain ⟨low, high⟩ := inside
  rw [slice, List.length_take, List.length_drop]
  dsimp only at low high
  omega

/-- The first bytes of what is loaded. -/
theorem load_take {bytes : Bytes} (found : load m addr n = some bytes) {k : Nat} (fewer : k ≤ n) :
    load m addr k = some (bytes.take k) := by
  by_cases inside : Inside m ⟨addr, n⟩
  · rw [load, if_pos inside] at found
    cases found
    obtain ⟨low, high⟩ := inside
    dsimp only at low high
    rw [load, if_pos ⟨low, by dsimp only; omega⟩, slice, slice, List.take_take,
      Nat.min_eq_left fewer]
  · rw [load, if_neg inside] at found
    cases found

theorem exists_store (inside : Inside m ⟨addr, src.length⟩) :
    ∃ m', store m addr src = some m' ∧ StoredAt m addr src m' := by
  have fits : addr - m.base + src.length ≤ m.bytes.length := by
    obtain ⟨low, high⟩ := inside
    dsimp only at low high
    omega
  obtain ⟨m', stored, base, bytes⟩ : ∃ m', store m addr src = some m' ∧ m'.base = m.base ∧
      m'.bytes = splice (addr - m.base) src m.bytes := ⟨_, dif_pos inside, rfl, rfl⟩
  have range : SameRange m m' := ⟨base, by rw [bytes, length_splice fits]⟩
  refine ⟨m', stored, range, ?_, ?_, ?_⟩
  · rw [load, if_pos (range.inside.mpr inside), base, bytes, slice_splice_same fits]
  · intro s old within found
    by_cases there : Inside m ⟨s.off, s.len⟩
    · rw [load, if_pos there] at found
      cases found
      obtain ⟨low, high⟩ := within
      obtain ⟨lowS, highS⟩ := there
      dsimp only at low high lowS highS
      rw [load, if_pos (range.inside.mpr ⟨lowS, highS⟩), base, bytes,
        slice_splice_around (by omega) (by omega) (by omega)]
      congr 2
      omega
    · rw [load, if_neg there] at found
      cases found
  · intro s apart
    by_cases there : Inside m ⟨s.off, s.len⟩
    · rw [load, load, if_pos (range.inside.mpr there), if_pos there, base, bytes,
        slice_splice_of_disjoint fits]
      obtain ⟨low, high⟩ := inside
      obtain ⟨lowS, highS⟩ := there
      simp only [Span.Apart] at apart low lowS
      omega
    · rw [load, load, if_neg fun inside => there (range.inside.mp inside), if_neg there]

/-! ### Spans -/

theorem Within.refl (s : Span) : Within s s := ⟨Nat.le_refl _, Nat.le_refl _⟩

theorem Within.inside (within : Within s t) (inside : Inside m t) : Inside m s := by
  obtain ⟨low, high⟩ := within
  obtain ⟨lowT, highT⟩ := inside
  exact ⟨by omega, by omega⟩

/-- What is apart from a span is apart from its parts. -/
theorem Within.apart {u : Span} (within : Within s t) (apart : t.Apart u) : s.Apart u := by
  obtain ⟨low, high⟩ := within
  simp only [Span.Apart] at apart ⊢
  omega

theorem apart_symm (apart : s.Apart t) : t.Apart s := Or.symm apart

theorem Writes.refl (m : Mapping) : Writes [] m m := ⟨.refl m, fun _ _ => rfl⟩

theorem StoredAt.writes (stored : StoredAt m addr src m') (within : Within ⟨addr, src.length⟩ t) :
    Writes [t] m m' :=
  ⟨stored.range, fun s apart => stored.frame s (within.apart (apart t List.mem_cons_self))⟩

theorem Writes.mono {spans spans' : List Span} (writes : Writes spans m m')
    (more : ∀ s ∈ spans, s ∈ spans') : Writes spans' m m' :=
  ⟨writes.range, fun s apart => writes.frame s fun t mem => apart t (more t mem)⟩

theorem Writes.trans {spans spans' : List Span} (first : Writes spans m m')
    (second : Writes spans' m' m'') : Writes (spans ++ spans') m m'' where
  range := first.range.trans second.range
  frame s apart := by
    rw [second.frame s fun t mem => apart t (List.mem_append_right _ mem),
      first.frame s fun t mem => apart t (List.mem_append_left _ mem)]

/-- A part of a span that was not written. -/
theorem Writes.same {spans : List Span} (writes : Writes spans m m') (within : Within s t)
    (apart : ∀ u ∈ spans, t.Apart u) : load m' s.off s.len = load m s.off s.len :=
  writes.frame s fun u mem => apart_symm (within.apart (apart u mem))

end AddressSpace
