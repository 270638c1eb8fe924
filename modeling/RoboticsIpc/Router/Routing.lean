import RoboticsIpc.Router.Frame

/-!
The route table (`router/routing.hpp`): which peers get a copy of a frame.

`routeTargetsFor` walks the rules and copies the destinations of the first match;
`routeTargetsFor_list` says so in one line, through `firstMatch`.
-/

namespace RoboticsIpc

open ByteBuffer

def kMaxRouteDests : Nat := 8

/-- The topic selector of a rule that matches every topic. -/
def kRouteTopicAny : UInt16 := 0xFFFF

structure RouteTargets where
  ids : Vector UInt8 kMaxRouteDests := Vector.replicate _ 0
  count : Nat := 0

/-- `begin()` to `end()`. -/
def RouteTargets.list (t : RouteTargets) : List UInt8 := t.ids.toList.take t.count

structure RouteRule where
  source : UInt8 := kEndpointInvalid
  destCount : UInt8 := 0
  topicId : UInt16 := kRouteTopicAny
  dest : Vector UInt8 kMaxRouteDests := Vector.replicate _ 0
deriving DecidableEq

/-- The copy made of a matching rule: its first `dest_count` destinations. -/
def RouteRule.targets (rule : RouteRule) : RouteTargets where
  ids := Vector.ofFn fun k => if k.val < rule.destCount.toNat then rule.dest[k] else 0
  count := rule.destCount.toNat

/-- `route_targets_for`. -/
def routeTargetsFor : List RouteRule → UInt8 → UInt16 → RouteTargets
  | [], _, _ => {}
  | rule :: rules, source, topicId =>
      if rule.source ≠ source then
        routeTargetsFor rules source topicId
      else if rule.topicId ≠ kRouteTopicAny ∧ rule.topicId ≠ topicId then
        routeTargetsFor rules source topicId
      else
        rule.targets

structure ForwardResult where
  source : UInt8 := kEndpointInvalid
  targets : RouteTargets := {}

/-! ### First match -/

/-- A rule matches a frame when their sources agree and its selector is the
frame's topic or matches any. -/
def RouteRule.Matches (source : UInt8) (topicId : UInt16) (rule : RouteRule) : Prop :=
  rule.source = source ∧ (rule.topicId = kRouteTopicAny ∨ rule.topicId = topicId)

instance (source : UInt8) (topicId : UInt16) (rule : RouteRule) :
    Decidable (rule.Matches source topicId) :=
  inferInstanceAs (Decidable (_ ∧ _))

def firstMatch (rules : List RouteRule) (source : UInt8) (topicId : UInt16) : Option RouteRule :=
  rules.find? fun rule => rule.Matches source topicId

/-- The destinations of a rule. -/
def RouteRule.dests (rule : RouteRule) : List UInt8 := rule.dest.toList.take rule.destCount.toNat

/-- The destinations the first matching rule lists; none when no rule matches. -/
def routedTo (rules : List RouteRule) (source : UInt8) (topicId : UInt16) : List UInt8 :=
  (firstMatch rules source topicId).elim [] RouteRule.dests

theorem RouteRule.targets_list (rule : RouteRule) : rule.targets.list = rule.dests := by
  apply List.ext_getElem?
  intro i
  simp only [targets, RouteTargets.list, dests, List.getElem?_take]
  split
  · rename_i inside
    rcases Nat.lt_or_ge i kMaxRouteDests with bound | beyond
    · simp [bound, inside]
    · rw [List.getElem?_eq_none (by simpa using beyond),
        List.getElem?_eq_none (by simpa using beyond)]
  · rfl

theorem routeTargetsFor_eq (rules : List RouteRule) (source : UInt8) (topicId : UInt16) :
    routeTargetsFor rules source topicId =
      (firstMatch rules source topicId).elim {} RouteRule.targets := by
  induction rules with
  | nil => rfl
  | cons rule rules ih =>
      unfold routeTargetsFor firstMatch
      by_cases same : rule.source = source
      · by_cases topic : rule.topicId = kRouteTopicAny ∨ rule.topicId = topicId
        · rw [if_neg (by simpa using same), if_neg (by simpa [← not_or] using topic),
            List.find?_cons_of_pos (by simpa using ⟨same, topic⟩)]
          rfl
        · rw [if_neg (by simpa using same), if_pos (by simpa [not_or] using topic), ih,
            List.find?_cons_of_neg (by simp [RouteRule.Matches, topic])]
          rfl
      · rw [if_pos same, ih, List.find?_cons_of_neg (by simp [RouteRule.Matches, same])]
        rfl

/-- The lookup returns the destinations of the first rule that matches. -/
theorem routeTargetsFor_list (rules : List RouteRule) (source : UInt8) (topicId : UInt16) :
    (routeTargetsFor rules source topicId).list = routedTo rules source topicId := by
  rw [routeTargetsFor_eq, routedTo]
  cases firstMatch rules source topicId with
  | none => simp [RouteTargets.list]
  | some rule => exact rule.targets_list

theorem mem_of_firstMatch {rules : List RouteRule} {source : UInt8} {topicId : UInt16}
    {rule : RouteRule} (found : firstMatch rules source topicId = some rule) :
    rule ∈ rules ∧ rule.Matches source topicId := by
  refine ⟨List.mem_of_find?_eq_some found, ?_⟩
  simpa using List.find?_some found

end RoboticsIpc
