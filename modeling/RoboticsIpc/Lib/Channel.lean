import Mathlib.Data.List.Basic

/-!
A datagram channel that may be unreliable.

The network may lose a datagram under way, make a second one of it, or hold it back behind the
others. `Weather` says which of these may happen, and `Keeps` how what comes through in that
weather compares with what was sent. `Keeps` composes, so it carries from channel to channel
through whatever maps and filters the datagrams in between.
-/

namespace DatagramChannel

variable {D : Type*}

structure Channel (D : Type*) where
  /-- Ghost: all that was sent. -/
  sent : List D := []
  queue : List D := []
  /-- Ghost: all that was received. -/
  received : List D := []

/-- What may happen to the datagram at place `i` of a queue. -/
inductive Fault where
  | lose (i : Nat)
  | copy (i : Nat)
  | delay (i : Nat)

/-- How reliable a network is. -/
inductive Weather where
  | stormy
  | lossy
  | calm

def Weather.Allows : Weather → Fault → Prop
  | .stormy, _ => True
  | .lossy, .lose _ => True
  | _, _ => False

instance (w : Weather) (f : Fault) : Decidable (w.Allows f) := by
  cases w <;> cases f <;> unfold Weather.Allows <;> infer_instance

def Fault.apply : Fault → List D → List D
  | .lose i, queue => queue.eraseIdx i
  | .copy i, queue => queue ++ queue[i]?.toList
  | .delay i, queue => queue.eraseIdx i ++ queue[i]?.toList

/-- How what came through compares with what was sent: nothing is made up; the order is kept
and nothing comes twice; nothing is missing. -/
def Weather.Keeps : Weather → List D → List D → Prop
  | .stormy, out, sent => ∀ d ∈ out, d ∈ sent
  | .lossy, out, sent => out.Sublist sent
  | .calm, out, sent => out = sent

namespace Weather.Keeps

variable {E : Type*} {w : Weather} {out mid sent : List D}

theorem refl (w : Weather) (sent : List D) : w.Keeps sent sent := by
  cases w with
  | stormy => exact fun _ mem => mem
  | lossy => exact List.Sublist.refl sent
  | calm => rfl

theorem trans (first : w.Keeps mid sent) (second : w.Keeps out mid) : w.Keeps out sent := by
  cases w with
  | stormy => exact fun d mem => first d (second d mem)
  | lossy => exact second.trans first
  | calm => exact Eq.trans second first

theorem append {out' sent' : List D} (keeps : w.Keeps out sent) (more : w.Keeps out' sent') :
    w.Keeps (out ++ out') (sent ++ sent') := by
  cases w with
  | stormy =>
      intro d mem
      rcases List.mem_append.mp mem with old | new
      · exact List.mem_append_left _ (keeps d old)
      · exact List.mem_append_right _ (more d new)
  | lossy => exact List.Sublist.append keeps more
  | calm =>
      obtain rfl : out = sent := keeps
      obtain rfl : out' = sent' := more
      rfl

theorem map (keeps : w.Keeps out sent) (f : D → E) : w.Keeps (out.map f) (sent.map f) := by
  cases w with
  | stormy =>
      intro e mem
      obtain ⟨d, inside, rfl⟩ := List.mem_map.mp mem
      exact List.mem_map_of_mem (keeps d inside)
  | lossy => exact List.Sublist.map f keeps
  | calm => exact congrArg (List.map f) keeps

theorem filter (keeps : w.Keeps out sent) (keep : D → Bool) :
    w.Keeps (out.filter keep) (sent.filter keep) := by
  cases w with
  | stormy =>
      intro d mem
      obtain ⟨inside, kept⟩ := List.mem_filter.mp mem
      exact List.mem_filter.mpr ⟨keeps d inside, kept⟩
  | lossy => exact List.Sublist.filter keep keeps
  | calm => exact congrArg (List.filter keep) keeps

/-- Whatever the weather, what came through was sent. -/
theorem genuine (keeps : w.Keeps out sent) : ∀ d ∈ out, d ∈ sent := by
  cases w with
  | stormy => exact keeps
  | lossy => exact fun d mem => List.Sublist.subset keeps mem
  | calm =>
      obtain rfl : out = sent := keeps
      exact fun d mem => mem

end Weather.Keeps

/-- No fault makes a datagram of nothing. -/
theorem Fault.mem_of_apply {f : Fault} {queue : List D} {d : D} (mem : d ∈ f.apply queue) :
    d ∈ queue := by
  have picked : ∀ i : Nat, d ∈ queue[i]?.toList → d ∈ queue := by
    intro i inside
    rw [Option.mem_toList] at inside
    exact List.mem_of_getElem? inside
  cases f with
  | lose i => exact List.mem_of_mem_eraseIdx mem
  | copy i => exact (List.mem_append.mp mem).elim id (picked i)
  | delay i => exact (List.mem_append.mp mem).elim List.mem_of_mem_eraseIdx (picked i)

namespace Channel

def send (c : Channel D) (more : List D) : Channel D :=
  { c with sent := c.sent ++ more, queue := c.queue ++ more }

def disturb (c : Channel D) (f : Fault) : Channel D := { c with queue := f.apply c.queue }

def receive (c : Channel D) : Option (D × Channel D) :=
  match c.queue with
  | [] => none
  | d :: rest => some (d, { c with queue := rest, received := c.received ++ [d] })

/-- What remains true of a channel. -/
def Holds (c : Channel D) (w : Weather) : Prop := w.Keeps (c.received ++ c.queue) c.sent

variable {c c' : Channel D} {w : Weather} {d : D}

theorem holds_new (w : Weather) : ({} : Channel D).Holds w := Weather.Keeps.refl w []

theorem Holds.send (holds : c.Holds w) (more : List D) : (c.send more).Holds w := by
  unfold Holds Channel.send
  rw [← List.append_assoc]
  exact Weather.Keeps.append holds (.refl w more)

theorem Holds.disturb {f : Fault} (holds : c.Holds w) (allowed : w.Allows f) :
    (c.disturb f).Holds w := by
  refine Weather.Keeps.trans holds (.append (.refl w c.received) ?_)
  cases w with
  | stormy => exact fun d mem => Fault.mem_of_apply mem
  | lossy =>
      cases f with
      | lose i => exact List.eraseIdx_sublist c.queue i
      | copy i => exact allowed.elim
      | delay i => exact allowed.elim
  | calm => exact allowed.elim

/-- Receiving moves the first datagram of the queue. -/
theorem receive_eq_some (taken : c.receive = some (d, c')) : c'.sent = c.sent ∧
    c'.received = c.received ++ [d] ∧ c'.received ++ c'.queue = c.received ++ c.queue := by
  unfold receive at taken
  split at taken
  · cases taken
  · rename_i first rest queue
    cases taken
    exact ⟨rfl, rfl, by simp [queue]⟩

theorem Holds.receive (holds : c.Holds w) (taken : c.receive = some (d, c')) : c'.Holds w := by
  obtain ⟨sent, -, same⟩ := receive_eq_some taken
  unfold Holds
  rw [sent, same]
  exact holds

/-- What has been received, when datagrams can be lost anyway or none is under way. -/
theorem Holds.arrived (holds : c.Holds w) (idle : w = .calm → c.queue = []) :
    w.Keeps c.received c.sent := by
  cases w with
  | stormy => exact fun d mem => holds d (List.mem_append_left _ mem)
  | lossy => exact (List.sublist_append_left _ _).trans holds
  | calm =>
      have whole : c.received ++ c.queue = c.sent := holds
      rwa [idle rfl, List.append_nil] at whole

end Channel

end DatagramChannel
