import AgenticOS.Data.StableSort
import AgenticOS.OmniRoute.RoutingPolicies
import Mathlib.Data.String.Basic

/-!
# Which policy a request gets

The documentation of `resolve_policy` goes through the scopes: a policy for the user, else one
for the agent, else one for the workspace, else the default. The code sorts all policies that
match by their priority and takes the first, and it takes the default only where none matches.
So the order of the scopes is respected exactly where a policy of the right kind happens to come
before all matching ones of another kind.
-/

namespace AgenticOS.OmniRoute.RoutingPolicyEngineImpl

open StableSort List RoutingPolicy

variable (engine : RoutingPolicyEngineImpl) (draws : Draws) (request : RoutingRequest)

instance : Std.Total Precedes :=
  inferInstanceAs (Std.Total (ByKeys RoutingPolicy.priority RoutingPolicy.name))

instance : IsTrans RoutingPolicy Precedes :=
  inferInstanceAs (IsTrans RoutingPolicy (ByKeys RoutingPolicy.priority RoutingPolicy.name))

/-- The enabled policies whose scopes and filters admit the request, in the order in which they
are stored. -/
def matchingPolicies : List RoutingPolicy :=
  engine.policies.values.filter fun policy => policy.enabled && engine.Admits policy request

theorem applicablePolicies_eq : engine.applicablePolicies request =
      (engine.matchingPolicies request).insertionSort Precedes := by
  unfold applicablePolicies listPolicies sortByPriority matchingPolicies
  rw [if_pos rfl, filter_insertionSort, insertionSort_insertionSort, filter_filter]
  simp only [Bool.and_comm]

def defaultOrNew : RoutingPolicy :=
  engine.defaultPolicy.getD
    { id := draws.policyId
      name := "Fallback Balanced"
      strategy := "balanced"
      priority := -1 }

def HasScope (scope : RoutingPolicy → String) : Prop :=
  ∃ policy ∈ engine.matchingPolicies request, scope policy ≠ ""
deriving Decidable

/-- The policy is of the kind that comes first among those at hand: with a scope for the user,
else for the agent, else for the workspace, else the default. -/
def OfFirstKind (policy : RoutingPolicy) : Prop :=
  if engine.HasScope request userScope then policy.userScope ≠ ""
  else if engine.HasScope request RoutingPolicy.agentScope then policy.agentScope ≠ ""
  else if engine.HasScope request workspaceScope then policy.workspaceScope ≠ ""
  else policy = engine.defaultOrNew draws

/-- The policy is what the documentation promises: enabled, of the first kind, and matching if it
is to have a scope. Priority and name decide only between policies of that kind. -/
structure Promised (policy : RoutingPolicy) : Prop where
  enabled : policy.enabled = true
  kind : engine.OfFirstKind draws request policy
  best : ∀ other ∈ engine.matchingPolicies request, engine.OfFirstKind draws request other →
    Precedes policy other
  matching : engine.HasScope request userScope ∨
    engine.HasScope request RoutingPolicy.agentScope ∨
      engine.HasScope request workspaceScope →
    policy ∈ engine.matchingPolicies request

/-- Some matching policy of the first kind comes before all matching ones of another kind, by
priority, name and the order of storing; and without a matching policy the default is enabled. -/
def FirstKindLeads : Prop :=
  (engine.matchingPolicies request = [] → (engine.defaultOrNew draws).enabled = true) ∧
  (engine.matchingPolicies request ≠ [] → ∃ before policy after,
    engine.matchingPolicies request = before ++ policy :: after ∧
      engine.OfFirstKind draws request policy ∧
      (∀ other ∈ before, ¬ engine.OfFirstKind draws request other → ¬ Precedes other policy) ∧
      ∀ other ∈ after, ¬ engine.OfFirstKind draws request other → Precedes policy other)

section

variable {engine draws request} {policy : RoutingPolicy}

theorem resolvePolicy_of_none (none : engine.matchingPolicies request = []) :
    engine.resolvePolicy draws request = engine.defaultOrNew draws := by
  unfold resolvePolicy defaultOrNew
  rw [applicablePolicies_eq, none, insertionSort_nil]
  cases engine.defaultPolicy <;> rfl

theorem resolvePolicy_of_some (some : engine.matchingPolicies request ≠ []) :
    ((engine.matchingPolicies request).insertionSort Precedes).head? =
      .some (engine.resolvePolicy draws request) := by
  unfold resolvePolicy
  rw [applicablePolicies_eq]
  cases sorted : (engine.matchingPolicies request).insertionSort Precedes with
  | nil =>
    have length := length_insertionSort Precedes (engine.matchingPolicies request)
    rw [sorted] at length
    exact absurd (length_eq_zero_iff.mp length.symm) some
  | cons policy rest => rfl

theorem promised_iff_of_head
    (head : ((engine.matchingPolicies request).insertionSort Precedes).head? = some policy) :
    engine.Promised draws request policy ↔ engine.OfFirstKind draws request policy := by
  have member : policy ∈ engine.matchingPolicies request :=
    (mem_insertionSort Precedes).mp (mem_of_mem_head? head)
  have enabled : policy.enabled = true := by
    have both := (mem_filter.mp member).2
    rw [Bool.and_eq_true] at both
    exact both.1
  have best : ∀ other ∈ engine.matchingPolicies request, Precedes policy other := by
    obtain ⟨before, after, split, smaller, larger⟩ := head?_insertionSort_iff.mp head
    intro other inMatching
    rw [split, mem_append, mem_cons] at inMatching
    rcases inMatching with inBefore | rfl | inAfter
    · exact (total_of Precedes policy other).resolve_right (smaller other inBefore)
    · exact refl_of Precedes other
    · exact larger other inAfter
  exact ⟨fun promised => promised.kind,
    fun kind => ⟨enabled, kind, fun other inMatching _ => best other inMatching, fun _ => member⟩⟩

theorem not_hasScope_of_none (none : engine.matchingPolicies request = [])
    (scope : RoutingPolicy → String) : ¬ engine.HasScope request scope := by
  rintro ⟨policy, member, -⟩
  rw [none] at member
  cases member

theorem promised_iff_of_none (none : engine.matchingPolicies request = []) :
    engine.Promised draws request (engine.defaultOrNew draws) ↔
      (engine.defaultOrNew draws).enabled = true := by
  have unscoped := not_hasScope_of_none none
  constructor
  · exact fun promised => promised.enabled
  · refine fun enabled => ⟨enabled, ?_, ?_, ?_⟩
    · unfold OfFirstKind
      rw [if_neg (unscoped _), if_neg (unscoped _), if_neg (unscoped _)]
    · intro other inMatching
      rw [none] at inMatching
      cases inMatching
    · rintro (user | agent | workspace)
      · exact absurd user (unscoped _)
      · exact absurd agent (unscoped _)
      · exact absurd workspace (unscoped _)

end

/-- The resolution keeps its promise exactly where the first kind leads. -/
theorem resolvePolicy_promised_iff :
    engine.Promised draws request (engine.resolvePolicy draws request) ↔
      engine.FirstKindLeads draws request := by
  by_cases none : engine.matchingPolicies request = []
  · rw [resolvePolicy_of_none none, promised_iff_of_none none]
    exact ⟨fun enabled => ⟨fun _ => enabled, fun some => absurd none some⟩,
      fun leads => leads.1 none⟩
  · have head : ((engine.matchingPolicies request).insertionSort Precedes).head? =
        some (engine.resolvePolicy draws request) := resolvePolicy_of_some none
    rw [promised_iff_of_head head]
    have leads := head?_insertionSort_good_iff Precedes (engine.OfFirstKind draws request)
      (engine.matchingPolicies request)
    rw [head] at leads
    simp only [Option.some.injEq, exists_eq_left'] at leads
    rw [leads]
    exact ⟨fun found => ⟨fun some => absurd some none, fun _ => found⟩, fun both => both.2 none⟩

def scopedEngine : RoutingPolicyEngineImpl where
  policies := Dict.ofList
    [("p-1", { id := "p-1", name := "Company", priority := 10 }),
      ("p-2", { id := "p-2", name := "Coder", priority := 1, agentScope := "coder" })]
  log1p := id
  lower := id

/-- The request of the agent gets the policy for everybody. -/
theorem scopedEngine_not_promised :
    ¬ scopedEngine.Promised ⟨"p-3", fun _ => 0⟩ { requestId := "r-1", agent := "coder" }
      (scopedEngine.resolvePolicy ⟨"p-3", fun _ => 0⟩ { requestId := "r-1", agent := "coder" })
      := by
  intro promised
  have kind := promised.kind
  exact kind (by decide +kernel)

end AgenticOS.OmniRoute.RoutingPolicyEngineImpl
