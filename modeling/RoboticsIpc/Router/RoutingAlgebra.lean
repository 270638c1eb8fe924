import RoboticsIpc.Lib.FirstMatch
import RoboticsIpc.Router.AcceptedProfile

/-!
The algebra of a route table: which rules may change places, which may go, and what
a lookup without a topic sees.

A lookup depends on its table through the first match alone (`lookup_eq`), so the laws
are those of first matches.
-/

namespace RoboticsIpc

open FirstMatch

/-- `route_targets_for` with its default topic. -/
def routeTargetsForAny (rules : List RouteRule) (source : UInt8) : Option RouteTargets :=
  routeTargetsForChecked rules source kRouteTopicAny

/-- No frame matches both: another source, or two different concrete topics. -/
def RouteRule.Apart (a b : RouteRule) : Prop :=
  a.source ≠ b.source ∨
    (a.topicId ≠ kRouteTopicAny ∧ b.topicId ≠ kRouteTopicAny ∧ a.topicId ≠ b.topicId)

/-- The same source, and any topic or the same. -/
def RouteRule.Covers (earlier rule : RouteRule) : Prop :=
  earlier.source = rule.source ∧
    (earlier.topicId = kRouteTopicAny ∨ earlier.topicId = rule.topicId)

/-- The rules without a topic selector. -/
def anyTopicRules (rules : List RouteRule) : List RouteRule :=
  rules.filter fun rule => rule.topicId = kRouteTopicAny

variable {rules : List RouteRule} {source : UInt8} {topicId : UInt16}

theorem RouteRule.Apart.not_matches {a b : RouteRule} (apart : a.Apart b)
    (first : a.Matches source topicId) : ¬ b.Matches source topicId := by
  obtain ⟨sourceA, topicA⟩ := first
  rintro ⟨sourceB, topicB⟩
  rcases apart with sources | ⟨concreteA, concreteB, topics⟩
  · exact sources (sourceA.trans sourceB.symm)
  · have here := topicA.resolve_left concreteA
    have there := topicB.resolve_left concreteB
    exact topics (here.trans there.symm)

theorem RouteRule.Covers.matches {earlier rule : RouteRule} (covers : earlier.Covers rule)
    (matched : rule.Matches source topicId) : earlier.Matches source topicId := by
  obtain ⟨sources, topics⟩ := covers
  obtain ⟨sourceR, topicR⟩ := matched
  refine ⟨sources.trans sourceR, ?_⟩
  rcases topics with any | same
  · exact .inl any
  · rw [same]
    exact topicR

/-- The lookup copies the destinations of the first match. -/
theorem lookup_eq (rules : List RouteRule) (source : UInt8) (topicId : UInt16) :
    routeTargetsForChecked rules source topicId =
      (firstMatch rules source topicId).elim (some {}) fun rule =>
        (rule.copyDests rule.destCount.toNat).map fun ids => { ids, count := rule.destCount.toNat } := by
  induction rules with
  | nil => rfl
  | cons rule rules ih =>
      unfold routeTargetsForChecked
      by_cases same : rule.source = source
      · by_cases topic : rule.topicId = kRouteTopicAny ∨ rule.topicId = topicId
        · have found : firstMatch (rule :: rules) source topicId = some rule :=
            List.find?_cons_of_pos (by simpa using ⟨same, topic⟩)
          rw [if_neg (by simpa using same), if_neg (by simpa [← not_or] using topic), found]
          rfl
        · have passed : firstMatch (rule :: rules) source topicId = firstMatch rules source topicId :=
            List.find?_cons_of_neg (by simp [RouteRule.Matches, topic])
          rw [if_neg (by simpa using same), if_pos (by simpa [not_or] using topic), ih, passed]
      · have passed : firstMatch (rule :: rules) source topicId = firstMatch rules source topicId :=
          List.find?_cons_of_neg (by simp [RouteRule.Matches, same])
        rw [if_pos same, ih, passed]

theorem lookup_congr {rules' : List RouteRule} {topicId' : UInt16}
    (same : firstMatch rules source topicId = firstMatch rules' source topicId') :
    routeTargetsForChecked rules source topicId = routeTargetsForChecked rules' source topicId' := by
  rw [lookup_eq, lookup_eq, same]

/-- Without a topic the selector-free rules decide, whatever topic they are asked for. -/
theorem firstMatch_any (rules : List RouteRule) (source : UInt8) (topicId : UInt16) :
    firstMatch rules source kRouteTopicAny = firstMatch (anyTopicRules rules) source topicId := by
  rw [firstMatch, firstMatch, anyTopicRules, List.find?_filter]
  congr 1
  funext rule
  by_cases any : rule.topicId = kRouteTopicAny <;> simp [RouteRule.Matches, any]

/-- A lookup's result: the first `dest_count` destinations of the rule found, and zeros. -/
structure RouteTargets.CopyOf (targets : RouteTargets) (rule : RouteRule) : Prop where
  count : targets.count = rule.destCount.toNat
  list : targets.list = rule.dests
  dests : ∀ k (slot : k < kMaxRouteDests), k < targets.count → targets.ids[k] = rule.dest[k]
  zeros : ∀ k (slot : k < kMaxRouteDests), targets.count ≤ k → targets.ids[k] = 0

theorem RouteRule.targets_copyOf (rule : RouteRule) : rule.targets.CopyOf rule := by
  refine ⟨rfl, rule.targets_list, ?_, ?_⟩
  · intro k slot inside
    have copied : k < rule.destCount.toNat := inside
    simp [targets, copied]
  · intro k slot beyond
    have left : ¬ k < rule.destCount.toNat := Nat.not_lt.mpr beyond
    simp [targets, left]

/-- What a lookup returns, by the first match. -/
def LookupResult (rules : List RouteRule) (source : UInt8) (topicId : UInt16)
    (targets : RouteTargets) : Prop :=
  match firstMatch rules source topicId with
  | none => targets = {}
  | some rule => targets.CopyOf rule

/-- The laws of a table. -/
structure RoutingLaws (rules : List RouteRule) : Prop where
  swap : ∀ before a b after, rules = before ++ a :: b :: after → a.Apart b →
    ∀ source topicId, routeTargetsForChecked (before ++ b :: a :: after) source topicId =
      routeTargetsForChecked rules source topicId
  delete : ∀ before rule after, rules = before ++ rule :: after →
    (∃ earlier ∈ before, earlier.Covers rule) →
    ∀ source topicId, routeTargetsForChecked (before ++ after) source topicId =
      routeTargetsForChecked rules source topicId
  any : ∀ source topicId, routeTargetsForAny rules source =
    routeTargetsForChecked (anyTopicRules rules) source topicId
  topicless : (∀ rule ∈ rules, rule.topicId = kRouteTopicAny) →
    ∀ source topicId, routeTargetsForChecked rules source topicId = routeTargetsForAny rules source
  result : ∀ source topicId, ∃ targets,
    routeTargetsForChecked rules source topicId = some targets ∧
      LookupResult rules source topicId targets

/-- Every table whose rules have at most eight destinations keeps the laws. -/
theorem routing_laws {rules : List RouteRule}
    (bounded : ∀ rule ∈ rules, rule.destCount.toNat ≤ kMaxRouteDests) : RoutingLaws rules where
  swap := by
    rintro before a b after rfl apart source topicId
    apply lookup_congr
    apply find?_swap
    intro first
    simpa using apart.not_matches (by simpa using first)
  delete := by
    rintro before rule after rfl ⟨earlier, mem, covers⟩ source topicId
    apply lookup_congr
    apply find?_delete mem
    intro matched
    simpa using covers.matches (by simpa using matched)
  any source topicId := lookup_congr (firstMatch_any rules source topicId)
  topicless := by
    intro free source topicId
    have all : anyTopicRules rules = rules :=
      List.filter_eq_self.mpr fun rule mem => by simpa using free rule mem
    have same := firstMatch_any rules source topicId
    rw [all] at same
    exact lookup_congr same.symm
  result := by
    intro source topicId
    refine ⟨routeTargetsFor rules source topicId,
      routeTargetsForChecked_eq bounded source topicId, ?_⟩
    rw [LookupResult, routeTargetsFor_eq]
    cases firstMatch rules source topicId with
    | none => rfl
    | some rule => exact rule.targets_copyOf

/-- The destination array of a rule to one peer. -/
def oneDest (d : UInt8) : Vector UInt8 kMaxRouteDests :=
  Vector.ofFn fun k => if k.val = 0 then d else 0

/-- Two topics of one source, its other topics, and a rule behind that. -/
def overlappingRules : List RouteRule :=
  [{ source := 1, destCount := 1, topicId := 7, dest := oneDest 2 },
    { source := 1, destCount := 1, topicId := 8, dest := oneDest 3 },
    { source := 1, destCount := 1, dest := oneDest 4 },
    { source := 1, destCount := 1, topicId := 9, dest := oneDest 5 }]

theorem routing_laws_overlapping :
    (∀ rule ∈ overlappingRules, rule.destCount.toNat ≤ kMaxRouteDests) ∧
      RoutingLaws overlappingRules :=
  ⟨by decide, routing_laws (by decide)⟩

end RoboticsIpc
