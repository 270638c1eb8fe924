import RoboticsIpc.Router.FrameCodec

/-!
The setters of a `RouterFrame` as independent lenses.

Run in any order and as often as one likes, the setters leave in each field what was
written to it last (`FrameLenses`). A call touches no byte outside its field, a refused
one none at all, and the nine fields are all there is to a frame.
-/

namespace RoboticsIpc

open ByteBuffer RecordLayout

namespace FrameSetter

/-! ### What each call writes -/

def source? : FrameSetter → Option UInt8
  | .source id => some id
  | _ => none

def flags? : FrameSetter → Option UInt8
  | .flags v => some v
  | _ => none

def topicId? : FrameSetter → Option UInt16
  | .topicId v => some v
  | _ => none

def seq? : FrameSetter → Option UInt32
  | .seq v => some v
  | _ => none

def timestampNs? : FrameSetter → Option UInt64
  | .timestampNs v => some v
  | _ => none

def sidebandIdx? : FrameSetter → Option UInt16
  | .sidebandIdx v => some v
  | _ => none

/-- The length, modulo 2^48. -/
def sidebandLen? : FrameSetter → Option Nat
  | .sidebandLen v => some (v.toNat % 2 ^ 48)
  | _ => none

def sidebandSeq? : FrameSetter → Option UInt64
  | .sidebandSeq v => some v
  | _ => none

/-- The payload without the zeros at its end, if there is room for it. -/
def payload? : FrameSetter → Option Bytes
  | .payload data => if data.length ≤ kRouterPayloadSize then some (unpadded data) else none
  | _ => none

/-! ### Runs -/

/-- The calls one after the other; the caller catches what a call throws and goes on. -/
def callEach (calls : List FrameSetter) (f : RouterFrame) : RouterFrame :=
  calls.foldl (fun f c => (c.call f).state) f

/-- What a call makes of the values of the fields. -/
def put (c : FrameSetter) (v : FrameFields) : FrameFields :=
  match c with
  | .source id => { v with source := id }
  | .flags w => { v with flags := w }
  | .topicId w => { v with topicId := w }
  | .seq w => { v with seq := w }
  | .timestampNs w => { v with timestampNs := w }
  | .sidebandIdx w => { v with sidebandIdx := w }
  | .sidebandLen w => { v with
      sidebandLen := UInt64.ofNat (w.toNat % 2 ^ 48)
      lenFits := by
        have small : w.toNat % 2 ^ 48 < 2 ^ 48 := Nat.mod_lt _ (by decide)
        rw [UInt64.toNat_ofNat_of_lt' (Nat.lt_trans small (by decide))]
        exact small }
  | .sidebandSeq w => { v with sidebandSeq := w }
  | .payload data => { v with
      payload := if data.length ≤ kRouterPayloadSize then unpadded data else v.payload
      payloadFits := by
        split
        · rename_i short
          exact Nat.le_trans (length_unpadded_le data) short
        · exact v.payloadFits }

theorem length_written {c : FrameSetter} (accepted : c.Accepted) :
    c.written.length = (frameLayout.place c.field).len := by
  cases c with
  | source | flags => rfl
  | payload => exact length_padded accepted
  | _ => exact length_leBytes ..

/-- The bytes of a field after a call. -/
theorem readField_call {c : FrameSetter} (accepted : c.Accepted) (f : RouterFrame)
    (n : FrameField) : (c.call f).state.readField n =
      if c.field = n then c.written else f.readField n := by
  rw [RouterFrame.readField, (call_accepted accepted f).2]
  exact frameLayout.read_splice n (length_written accepted) f.size

/-- The bytes that the values `put` makes have in a field. -/
theorem encoded_put {c : FrameSetter} (accepted : c.Accepted) (v : FrameFields) (n : FrameField) :
    (c.put v).encoded n = if c.field = n then c.written else v.encoded n := by
  cases c with
  | sidebandLen w =>
      by_cases here : n = .sidebandLen
      · subst here
        have small : w.toNat % 2 ^ 48 < 2 ^ 48 := Nat.mod_lt _ (by decide)
        have value : ((FrameSetter.sidebandLen w).put v).sidebandLen.toNat =
            w.toNat % 256 ^ kRouterSidebandLenSize :=
          UInt64.toNat_ofNat_of_lt' (Nat.lt_trans small (by decide))
        rw [FrameFields.encoded, value, leBytes_mod]
        rfl
      · cases n <;> first | exact absurd rfl here | rfl
  | payload data =>
      have short : data.length ≤ kRouterPayloadSize := accepted
      by_cases here : n = .payload
      · subst here
        have whole := padded_unpadded (length_padded short)
        rw [unpadded_padded] at whole
        simp only [put, FrameFields.encoded, if_pos short]
        exact whole
      · cases n <;> first | exact absurd rfl here | rfl
  | _ => cases n <;> rfl

/-- The getters after a call. -/
theorem fields_call (c : FrameSetter) (f : RouterFrame) :
    (c.call f).state.fields = c.put f.fields := by
  by_cases accepted : c.Accepted
  · have same : (c.call f).state.fields.stripped = (c.put f.fields).stripped := by
      apply FrameFields.stripped_eq_of_encoded
      intro n
      rw [RouterFrame.encoded_fields, readField_call accepted, encoded_put accepted,
        RouterFrame.encoded_fields]
    have clean : (c.put f.fields).stripped = c.put f.fields := by
      have payload : unpadded (c.put f.fields).payload = (c.put f.fields).payload := by
        have before : unpadded f.fields.payload = f.fields.payload :=
          congrArg FrameFields.payload (FrameFields.stripped_fields f)
        cases c with
        | payload data =>
            have short : data.length ≤ kRouterPayloadSize := accepted
            simp only [put, if_pos short]
            exact unpadded_unpadded data
        | _ => exact before
      exact FrameFields.ext rfl rfl rfl rfl rfl rfl rfl rfl payload
    rw [← clean, ← same, FrameFields.stripped_fields]
  · rw [call_refused accepted]
    cases c with
    | payload data =>
        have long : ¬ data.length ≤ kRouterPayloadSize := accepted
        have kept : (FrameSetter.payload data).put f.fields = f.fields :=
          FrameFields.ext rfl rfl rfl rfl rfl rfl rfl rfl (if_neg long)
        rw [kept]
    | _ => exact absurd trivial accepted

end FrameSetter

/-! ### Lenses -/

/-- What the getters return after a run of setters: for each field the last value
written to it, or what the initial bytes say. -/
structure HoldsLast (calls : List FrameSetter) (f g : RouterFrame) : Prop where
  source : g.source = ((calls.filterMap FrameSetter.source?).getLast?).getD f.source
  flags : g.flags = ((calls.filterMap FrameSetter.flags?).getLast?).getD f.flags
  topicId : g.topicId = ((calls.filterMap FrameSetter.topicId?).getLast?).getD f.topicId
  seq : g.seq = ((calls.filterMap FrameSetter.seq?).getLast?).getD f.seq
  timestampNs : g.timestampNs =
    ((calls.filterMap FrameSetter.timestampNs?).getLast?).getD f.timestampNs
  sidebandIdx : g.sidebandIdx =
    ((calls.filterMap FrameSetter.sidebandIdx?).getLast?).getD f.sidebandIdx
  sidebandLen : g.sidebandLen.toNat =
    ((calls.filterMap FrameSetter.sidebandLen?).getLast?).getD f.sidebandLen.toNat
  sidebandSeq : g.sidebandSeq =
    ((calls.filterMap FrameSetter.sidebandSeq?).getLast?).getD f.sidebandSeq
  payload : g.payload = ((calls.filterMap FrameSetter.payload?).getLast?).getD f.payload

/-- A component of the fields after a run. -/
theorem get_callEach {V : Type} (get : FrameFields → V) {write : FrameSetter → Option V}
    (each : ∀ (c : FrameSetter) v, get (c.put v) = (write c).getD (get v))
    (calls : List FrameSetter) (f : RouterFrame) :
    get (FrameSetter.callEach calls f).fields =
      ((calls.filterMap write).getLast?).getD (get f.fields) := by
  refine get_foldl (fun f : RouterFrame => get f.fields) ?_ calls f
  intro f c
  rw [FrameSetter.fields_call, each]

theorem holdsLast_callEach (calls : List FrameSetter) (f : RouterFrame) :
    HoldsLast calls f (FrameSetter.callEach calls f) where
  source := get_callEach FrameFields.source (by intro c v; cases c <;> rfl) calls f
  flags := get_callEach FrameFields.flags (by intro c v; cases c <;> rfl) calls f
  topicId := get_callEach FrameFields.topicId (by intro c v; cases c <;> rfl) calls f
  seq := get_callEach FrameFields.seq (by intro c v; cases c <;> rfl) calls f
  timestampNs := get_callEach FrameFields.timestampNs (by intro c v; cases c <;> rfl) calls f
  sidebandIdx := get_callEach FrameFields.sidebandIdx (by intro c v; cases c <;> rfl) calls f
  sidebandLen := by
    refine get_callEach (fun v => v.sidebandLen.toNat) ?_ calls f
    intro c v
    cases c with
    | sidebandLen w =>
        have small : w.toNat % 2 ^ 48 < 2 ^ 48 := Nat.mod_lt _ (by decide)
        exact UInt64.toNat_ofNat_of_lt' (Nat.lt_trans small (by decide))
    | _ => rfl
  sidebandSeq := get_callEach FrameFields.sidebandSeq (by intro c v; cases c <;> rfl) calls f
  payload := by
    refine get_callEach FrameFields.payload ?_ calls f
    intro c v
    cases c with
    | payload data =>
        simp only [FrameSetter.put, FrameSetter.payload?]
        split <;> rfl
    | _ => rfl

/-- All there is to the setters and getters of a frame. -/
structure FrameLenses : Prop where
  /-- Getters after any run. -/
  last : ∀ calls f, HoldsLast calls f (FrameSetter.callEach calls f)
  /-- The one exception: a payload that is too long, and then nothing is written. -/
  refused : ∀ (c : FrameSetter) f, (c.call f).result ≠ .ok () →
    (c.call f).state = f ∧ ∃ data, c = .payload data ∧ kRouterPayloadSize < data.length
  tooLong : ∀ data f, kRouterPayloadSize < data.length →
    (FrameSetter.payload data).call f = ⟨f, .error ⟨ascii "router payload too large"⟩⟩
  /-- Bytes outside the field of a call. -/
  frame : ∀ (c : FrameSetter) (f : RouterFrame) i,
    (i < c.field.place.off ∨ c.field.place.off + c.field.place.len ≤ i) →
    (c.call f).state.bytes[i]? = f.bytes[i]?
  /-- Every byte is in exactly one field. -/
  tiled : ∀ i < kRouterFrameSize, ∃ n : FrameField, n.place.off ≤ i ∧ i < n.place.off + n.place.len ∧
    ∀ m : FrameField, m.place.off ≤ i ∧ i < m.place.off + m.place.len → m = n
  raw : ∀ f g : RouterFrame, (∀ n, f.readField n = g.readField n) → f = g

theorem FrameSetter.getElem?_call (c : FrameSetter) (f : RouterFrame) {i : Nat}
    (outside : i < c.field.place.off ∨ c.field.place.off + c.field.place.len ≤ i) :
    (c.call f).state.bytes[i]? = f.bytes[i]? := by
  by_cases accepted : c.Accepted
  · have len : c.written.length = c.field.place.len := length_written accepted
    have fits : c.field.place.off + c.written.length ≤ f.bytes.length := by
      rw [f.size, len]
      exact frameLayout.fits c.field
    have wrote : (c.call f).state.bytes = splice c.field.place.off c.written f.bytes :=
      (call_accepted accepted f).2
    rw [wrote, getElem?_splice fits, len, if_neg (by omega)]
  · rw [call_refused accepted]

/-- The fields tile the frame. -/
theorem field_of_byte {i : Nat} (inside : i < kRouterFrameSize) :
    ∃ n : FrameField, n.place.off ≤ i ∧ i < n.place.off + n.place.len ∧
      ∀ m : FrameField, m.place.off ≤ i ∧ i < m.place.off + m.place.len → m = n := by
  obtain ⟨n, start, stop⟩ : ∃ n : FrameField, n.place.off ≤ i ∧ i < n.place.off + n.place.len := by
    have found : ∀ i : Fin kRouterFrameSize, ∃ n ∈ frameLayout.order,
        n.place.off ≤ i.val ∧ i.val < n.place.off + n.place.len := by decide
    obtain ⟨n, -, covers⟩ := found ⟨i, inside⟩
    exact ⟨n, covers⟩
  refine ⟨n, start, stop, ?_⟩
  rintro m ⟨startM, stopM⟩
  by_contra other
  have apart : m.place.Apart n.place := frameLayout.apart other
  rcases apart with before | behind <;> omega

theorem frame_lenses : FrameLenses where
  last := holdsLast_callEach
  refused := by
    intro c f thrown
    by_cases accepted : c.Accepted
    · exact absurd (FrameSetter.call_accepted accepted f).1 thrown
    · refine ⟨by rw [FrameSetter.call_refused accepted], ?_⟩
      cases c with
      | payload data => exact ⟨data, rfl, Nat.not_le.mp accepted⟩
      | _ => exact absurd trivial accepted
  tooLong data f long :=
    FrameSetter.call_refused (c := .payload data) (Nat.not_le.mpr long) f
  frame c f i outside := c.getElem?_call f outside
  tiled i inside := field_of_byte inside
  raw f g same := RouterFrame.ext (frameLayout.ext f.size g.size same)

end RoboticsIpc
