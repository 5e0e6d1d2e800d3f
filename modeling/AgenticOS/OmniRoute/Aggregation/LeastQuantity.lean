import AgenticOS.OmniRoute.Aggregation.ContentAgreement
import Mathlib.Data.Prod.Lex

/-!
# The fastest and the cheapest response

Two strategies name a quantity of the responses. The selection looks for the least value of an
entry of the metadata instead, which nothing fills in: without the entry a response counts as
zero. So the ranking decides among all responses without an entry.
-/

namespace AgenticOS.OmniRoute.Aggregation

open List OrderDual

/-- The quantities that strategies name. -/
inductive Quantity where
  | latency | cost
deriving DecidableEq

namespace Quantity

def strategy : Quantity → AggregationStrategy
  | latency => .fastest
  | cost => .lowestCost

def ofResult : Quantity → ProviderResult → ℚ
  | latency, result => result.latencyMs
  | cost, result => result.cost

def entry : Quantity → Metadata → ℚ
  | latency, metadata => metadata.latencyMs.getD 0
  | cost, metadata => metadata.cost.getD 0

variable (quantity : Quantity)

/-- The content of a result whose quantity none undercuts. -/
def IsLeastContent (results : List ProviderResult) (content : String) : Prop :=
  ∃ result ∈ results, (∀ other ∈ results, quantity.ofResult result ≤ quantity.ofResult other) ∧
    (normalize result).content = content

/-- Every answer has the content of a least result. -/
def SelectsLeast (tools : TextTools) (policy : AggregationPolicy)
    (request : AggregationRequest) : Prop :=
  ∀ answer, aggregateImpl tools policy request = .ok answer →
    quantity.IsLeastContent request.results answer.content

/-- Of the responses with the least entry the first of those with the highest score. -/
def leastEntry (responses : List NormalizedResponse) : Option NormalizedResponse :=
  responses.argmin fun response =>
    toLex (quantity.entry response.metadata, toDual (finalScore responses response))

/-- The first of the highest scores among the least entries is one of a least quantity. -/
def LeastEntryIsLeast (request : AggregationRequest) : Prop :=
  ∀ response, quantity.leastEntry (scoredResponses request) = some response →
    quantity.IsLeastContent request.results response.content

end Quantity

section

variable {α : Type} {key score : α → ℚ}

/-- Another item is chosen: its key is less, or it is the same and the score is higher. -/
theorem lex_lt_iff {first second : α} : toLex (key first, toDual (score first)) <
        toLex (key second, toDual (score second)) ↔
      key first < key second ∨ key first = key second ∧ score second < score first := by
  rw [Prod.Lex.toLex_lt_toLex, toDual_lt_toDual]

theorem argmin_orderedInsert (item : α) {items : List α}
    (ranked : items.Pairwise fun first second => score second ≤ score first) :
    (items.orderedInsert (fun first second => score second ≤ score first) item).argmin key =
      Option.casesOn (items.argmin key) (some item) fun least =>
        if key least < key item ∨ key least = key item ∧ score item < score least then some least
        else some item := by
  induction items with
  | nil => rfl
  | cons first items ih =>
    rw [pairwise_cons] at ranked
    rw [orderedInsert_cons]
    by_cases behind : score first ≤ score item
    · rw [if_pos behind, argmin_cons]
      cases least : (first :: items).argmin key with
      | none => rfl
      | some other =>
        have below : score other ≤ score item := by
          rcases mem_cons.mp (argmin_mem least) with rfl | later
          · exact behind
          · exact (ranked.1 other later).trans behind
        simp [below.not_gt]
    · have ahead := not_le.mp behind
      rw [if_neg behind, argmin_cons, ih ranked.2, argmin_cons]
      cases items.argmin key with
      | none => grind
      | some other =>
        by_cases less : key other < key first
        · by_cases wins : key other < key item ∨ key other = key item ∧ score item < score other
          · simp [less, wins]
          · simp only [less, wins, if_true, if_false]
            grind
        · by_cases wins : key other < key item ∨ key other = key item ∧ score item < score other
          · simp only [less, wins, if_true, if_false]
            grind
          · simp only [less, wins, if_false]
            grind

theorem argmin_ranked (items : List α) :
    (items.insertionSort fun first second => score second ≤ score first).argmin key =
      items.argmin fun item => toLex (key item, toDual (score item)) := by
  induction items with
  | nil => rfl
  | cons item items ih =>
    rw [insertionSort_cons, argmin_orderedInsert item (pairwise_insertionSort _ items),
      argmin_cons, ih]
    simp only [lex_lt_iff]

end

namespace Quantity

variable {quantity : Quantity} {tools : TextTools} {policy : AggregationPolicy}
  {request : AggregationRequest}

theorem argmin_computeCandidates (responses : List NormalizedResponse) :
    (computeCandidates responses).argmin (fun candidate => quantity.entry candidate.metadata) =
      (quantity.leastEntry responses).map (candidate responses) := by
  unfold computeCandidates leastEntry
  rw [argmin_ranked]
  exact argmax_map (γ := (ℚ ×ₗ ℚᵒᵈ)ᵒᵈ) _ (candidate responses) responses

theorem selectContent_strategy {responses : List NormalizedResponse} (some : responses ≠ []) :
    selectContent tools quantity.strategy (computeCandidates responses) responses request =
      ((quantity.leastEntry responses).map NormalizedResponse.content).getD "" := by
  have ranked : computeCandidates responses ≠ [] := by
    rw [Ne, ← length_eq_zero_iff, length_computeCandidates, length_eq_zero_iff]
    exact some
  have content : (((computeCandidates responses).argmin fun candidate =>
      quantity.entry candidate.metadata).map AggregationCandidate.content).getD "" =
      ((quantity.leastEntry responses).map NormalizedResponse.content).getD "" := by
    rw [argmin_computeCandidates, Option.map_map]
    rfl
  rw [← content]
  unfold selectContent
  rw [if_neg ranked]
  cases quantity <;> rfl

/-- The answer is one of the least quantity if and only if the first of the highest scores
among the least entries is. -/
theorem selectsLeast_iff (quantity : Quantity) (tools : TextTools) (policy : AggregationPolicy)
    (request : AggregationRequest) (nonempty : request.results ≠ [])
    (named : followed request = quantity.strategy) :
    quantity.SelectsLeast tools policy request ↔ quantity.LeastEntryIsLeast request := by
  have scored := scoredResponses_ne_nil nonempty
  obtain ⟨response, least⟩ : ∃ response,
      quantity.leastEntry (scoredResponses request) = some response := by
    apply Option.ne_none_iff_exists'.mp
    rw [leastEntry, Ne, argmin_eq_none]
    exact scored
  have answered : ∀ answer, aggregateImpl tools policy request = .ok answer →
      answer.content = response.content := by
    intro answer ran
    rw [(answers_of_aggregateImpl nonempty ran).content, named, selectContent_strategy scored,
      least]
    rfl
  constructor
  · intro selects chosen isLeast
    rw [least] at isLeast
    obtain rfl := Option.some.inj isLeast
    obtain ⟨answer, ran⟩ : ∃ answer, aggregateImpl tools policy request = .ok answer := by
      unfold aggregateImpl
      rw [if_neg nonempty]
      dsimp only
      rw [show resolveStrategy _ _ = quantity.strategy from named]
      cases quantity <;> exact ⟨_, rfl⟩
    rw [← answered answer ran]
    exact selects answer ran
  · intro isLeast answer ran
    rw [answered answer ran]
    exact isLeast response least

def confidentLatecomer (metadata : Metadata) : AggregationRequest where
  strategy := .fastest
  results := [
    { provider := "one", state := .completed, content := "slow", latencyMs := 100,
      metadata := { metadata with confidence := some 1 } },
    { provider := "two", state := .completed, content := "fast", latencyMs := 90 }]

/-- With its latency in the metadata the slower result is not selected. -/
theorem confidentLatecomer_selectsLeast :
    latency.SelectsLeast ⟨id, id⟩ {} (confidentLatecomer { latencyMs := some 100 }) := by
  refine (selectsLeast_iff latency ⟨id, id⟩ {} _ (by simp [confidentLatecomer]) rfl).mpr ?_
  intro response least
  have content : (latency.leastEntry (scoredResponses
      (confidentLatecomer { latencyMs := some 100 }))).map NormalizedResponse.content =
      some "fast" := by decide +kernel
  rw [least] at content
  rw [Option.some.inj content]
  exact ⟨_, mem_cons_of_mem _ mem_cons_self, by decide +kernel, rfl⟩

theorem confidentLatecomer_not_selectsLeast :
    ¬ latency.SelectsLeast ⟨id, id⟩ {} (confidentLatecomer {}) := by
  intro selects
  have outcome : (aggregateImpl ⟨id, id⟩ {} (confidentLatecomer {})).toOption.map
      AggregationResult.content = some "slow" := by decide +kernel
  cases ran : aggregateImpl ⟨id, id⟩ {} (confidentLatecomer {}) with
  | error raised =>
    rw [ran] at outcome
    cases outcome
  | ok answer =>
    rw [ran] at outcome
    obtain ⟨result, member, least, content⟩ := selects answer ran
    rw [Option.some.inj outcome] at content
    revert content least
    revert result
    decide +kernel

end Quantity

end AgenticOS.OmniRoute.Aggregation
