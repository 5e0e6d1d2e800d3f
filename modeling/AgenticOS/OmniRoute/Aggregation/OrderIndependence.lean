import AgenticOS.OmniRoute.Aggregation.Consensus
import Mathlib.Tactic.FieldSimp

/-!
# The order of the votes

A consensus that is reached should not depend on the order in which the providers answer.
The rules elect the first value among those with the highest score, so it depends on the
order where two values share the highest score and this score is enough. With a share of
more than half this cannot be, unless some scores are negative; in the quorum mode half of
the votes is enough.
-/

namespace AgenticOS.OmniRoute.Aggregation

open ConsensusEngine Tally

/-- A consensus does not depend on the order of the votes. -/
def OrderIndependent (mode : ConsensusMode) (votes : List WeightedVote) : Prop :=
  ∀ result, runConsensus votes mode = .ok result → result.reached = true →
    ∀ others, others.Perm votes → ∃ other, runConsensus others mode = .ok other ∧
      other.reached = true ∧ other.value = result.value

/-- Two values divide the votes evenly among them. -/
def EvenSplit (votes : List WeightedVote) : Prop :=
  ∃ first second, first ≠ second ∧
    2 * votes.countP (fun vote => vote.value = first) = votes.length ∧
    2 * votes.countP (fun vote => vote.value = second) = votes.length

/-- Two values share the highest score, and this is more than half of the sum. -/
def Deadlock (score : WeightedVote → ℚ) (votes : List WeightedVote) : Prop :=
  ∃ first second, first ≠ second ∧ Leads WeightedVote.value score votes first ∧
    Leads WeightedVote.value score votes second ∧
    1 / 2 < total WeightedVote.value score votes first / (votes.map score).sum

/-- The order of the votes decides which of two values is elected. -/
def Undecided : ConsensusMode → List WeightedVote → Prop
  | .quorum, votes => 3 ≤ votes.length ∧ EvenSplit votes
  | .weightedVoting, votes =>
    0 < (votes.map WeightedVote.weight).sum ∧ Deadlock WeightedVote.weight votes
  | .confidenceWeighted, votes => Deadlock (fun vote => vote.weight * vote.confidence) votes
  | .qualityWeighted, votes => Deadlock (fun vote => vote.weight * vote.quality) votes
  | .bayesian, votes =>
    let score := fun vote => vote.weight * posterior (1 / 2) vote
    (∀ vote ∈ votes, evidence (1 / 2) vote ≠ 0) ∧ 0 < (votes.map score).sum ∧ Deadlock score votes
  | _, _ => False

section

variable {M : Type} [AddCommMonoid M] [LinearOrder M]

structure Poll (mode : ConsensusMode) (score : WeightedVote → M) (met : M → Prop)
    (votes : List WeightedVote) (result : ConsensusResult) : Prop where
  ran : runConsensus votes mode = .ok result
  reached : result.reached = true ↔
    ∃ winner, frontRunner (tally WeightedVote.value score votes) = some winner ∧
      met (total WeightedVote.value score votes winner)
  value : ∀ winner, frontRunner (tally WeightedVote.value score votes) = some winner →
    result.reached = true → result.value = winner

variable {mode : ConsensusMode} {score : WeightedVote → M} {met : M → Prop}
  {votes : List WeightedVote}

section

variable (poll : ∀ others, others.Perm votes → ∃ result, Poll mode score met others result)
include poll

/-- A mode that is a poll in every order elects in every order the same value, unless two
values share a score that is enough. -/
theorem orderIndependent_iff_of_poll : OrderIndependent mode votes ↔
      ¬ ∃ first second, first ≠ second ∧ Leads WeightedVote.value score votes first ∧
        Leads WeightedVote.value score votes second ∧
        met (total WeightedVote.value score votes first) := by
  rw [← elected_in_every_order_iff]
  obtain ⟨result, here⟩ := poll votes (.refl votes)
  constructor
  · intro independent winner isFirst isMet others perm
    have reached := here.reached.mpr ⟨winner, isFirst, isMet⟩
    obtain ⟨other, ran, otherReached, same⟩ := independent result here.ran reached others perm
    obtain ⟨otherResult, there⟩ := poll others perm
    rw [there.ran, Except.ok.injEq] at ran
    subst ran
    obtain ⟨otherWinner, otherFirst, -⟩ := there.reached.mp otherReached
    rw [otherFirst, ← there.value otherWinner otherFirst otherReached, same,
      here.value winner isFirst reached]
  · intro everywhere found ran reached others perm
    rw [here.ran, Except.ok.injEq] at ran
    subst ran
    obtain ⟨winner, isFirst, isMet⟩ := here.reached.mp reached
    have otherFirst := everywhere winner isFirst isMet others perm
    obtain ⟨otherResult, there⟩ := poll others perm
    have otherMet : met (total WeightedVote.value score others winner) := by
      rw [total_perm perm]
      exact isMet
    have otherReached := there.reached.mpr ⟨winner, otherFirst, otherMet⟩
    refine ⟨otherResult, there.ran, otherReached, ?_⟩
    rw [there.value winner otherFirst otherReached, here.value winner isFirst reached]

theorem orderIndependent_of_poll (single : ∀ first second, first ≠ second →
      met (total WeightedVote.value score votes first) →
      ¬ met (total WeightedVote.value score votes second)) : OrderIndependent mode votes := by
  rw [orderIndependent_iff_of_poll poll]
  rintro ⟨first, second, distinct, firstLeads, secondLeads, isMet⟩
  exact single first second distinct isMet (firstLeads.total_eq secondLeads ▸ isMet)

end

end

section

variable {votes : List WeightedVote}

theorem lt_two_mul_of_half_lt {part whole : Nat} (half : (1 : ℚ) / 2 < part / whole) :
    whole < 2 * part := by
  have positive : (0 : ℚ) < whole := by
    rcases Nat.eq_zero_or_pos whole with rfl | positive
    · norm_num at half
    · exact_mod_cast positive
  rw [lt_div_iff₀ positive] at half
  have more : (whole : ℚ) < 2 * part := by linarith
  exact_mod_cast more

variable {mode : ConsensusMode}

theorem poll_counting {rule : CountingRule}
    (ran : ∀ others, runConsensus others mode = .ok (counting rule others))
    (others : List WeightedVote) (perm : others.Perm votes) :
    ∃ result, Poll mode (fun _ => (1 : Nat))
      (fun count => rule.met count votes.length = true) others result := by
  refine ⟨counting rule others, ran others, ?_, ?_⟩
  · rw [counting_reached_iff, perm.length_eq]
    rfl
  · intro winner isFirst _
    exact counting_value rule isFirst

theorem orderIndependent_counting {rule : CountingRule}
    (ran : ∀ others, runConsensus others mode = .ok (counting rule others))
    (majority : ∀ count, rule.met count votes.length = true → votes.length < 2 * count) :
    OrderIndependent mode votes := by
  apply orderIndependent_of_poll (poll_counting ran)
  intro first second distinct firstMet secondMet
  rw [total_one] at firstMet secondMet
  have most := countP_add_countP_le WeightedVote.value votes distinct
  have firstMost := majority _ firstMet
  have secondMost := majority _ secondMet
  omega

theorem simpleMajority_orderIndependent (votes : List WeightedVote) :
    OrderIndependent .simpleMajority votes := by
  apply orderIndependent_counting fun _ => rfl
  intro count met
  have half : (1 : ℚ) / 2 < share count votes.length := of_decide_eq_true met
  rw [share_natCast] at half
  exact lt_two_mul_of_half_lt half

theorem absoluteMajority_orderIndependent (votes : List WeightedVote) :
    OrderIndependent .absoluteMajority votes := by
  apply orderIndependent_counting fun _ => rfl
  intro count met
  have enough : (if 1 < votes.length then (votes.length : ℚ) / 2 + 1 else 1) ≤ count :=
    of_decide_eq_true met
  split at enough
  · have more : (votes.length : ℚ) < 2 * count := by linarith
    exact_mod_cast more
  · have one : 1 ≤ count := by exact_mod_cast enough
    omega

theorem lt_two_mul_of_threshold {threshold : ℚ} (high : 1 / 2 < threshold) {count size : Nat}
    (met : decide (threshold ≤ share count size) = true) : size < 2 * count := by
  have reached : threshold ≤ share count size := of_decide_eq_true met
  rw [share_natCast] at reached
  exact lt_two_mul_of_half_lt (high.trans_le reached)

section

variable (votes : List WeightedVote)

theorem superMajority_orderIndependent : OrderIndependent .superMajority votes :=
  orderIndependent_counting (fun _ => rfl) fun _ met =>
    lt_two_mul_of_threshold (by norm_num) met

theorem consensusThreshold_orderIndependent : OrderIndependent .consensusThreshold votes :=
  orderIndependent_counting (fun _ => rfl) fun _ met =>
    lt_two_mul_of_threshold (by norm_num) met

theorem unanimous_orderIndependent : OrderIndependent .unanimous votes := by
  intro result ran reached others perm
  obtain rfl : unanimous votes = result := Except.ok.inj ran
  rw [unanimous_reached_iff] at reached
  obtain ⟨some, same⟩ := keys_tally_eq_singleton_iff.mp reached
  have single : (counter others).keys = [(unanimous votes).value] := by
    apply keys_tally_eq_singleton_iff.mpr
    constructor
    · rintro rfl
      exact some perm.symm.eq_nil
    · intro vote member
      exact same vote (perm.mem_iff.mp member)
  exact ⟨unanimous others, rfl, unanimous_of_keys single⟩

end

theorem poll_quorum (others : List WeightedVote) (perm : others.Perm votes) :
    ∃ result, Poll .quorum (fun _ => (1 : Nat))
      (fun count => 3 ≤ votes.length ∧ votes.length ≤ 2 * count) others result := by
  refine ⟨quorum 3 (1 / 2) others, rfl, ?_, ?_⟩
  · unfold quorum
    rw [perm.length_eq]
    split
    case isTrue few =>
      simp only [Bool.false_eq_true, false_iff, not_exists, not_and]
      intro winner _ enough
      omega
    case isFalse enough =>
      rw [counting_reached_iff, perm.length_eq]
      have positive : 0 < votes.length := by omega
      simp only [decide_eq_true_eq, half_le_share_iff positive]
      constructor
      · rintro ⟨winner, isFirst, half⟩
        exact ⟨winner, isFirst, by omega, half⟩
      · rintro ⟨winner, isFirst, -, half⟩
        exact ⟨winner, isFirst, half⟩
  · intro winner isFirst reached
    unfold quorum at reached ⊢
    split
    case isTrue few =>
      rw [if_pos few] at reached
      cases reached
    case isFalse => exact counting_value _ isFirst

theorem leads_of_half {candidate : String} (some : 0 < votes.length)
    (half : 2 * votes.countP (fun vote => vote.value = candidate) = votes.length) :
    Leads WeightedVote.value (fun _ => (1 : Nat)) votes candidate := by
  constructor
  · have positive : 0 < votes.countP fun vote => vote.value = candidate := by omega
    obtain ⟨vote, member, named⟩ := List.countP_pos_iff.mp positive
    exact List.mem_map.mpr ⟨vote, member, of_decide_eq_true named⟩
  · intro other _
    rw [total_one, total_one]
    by_cases same : other = candidate
    · rw [same]
    · have most := countP_add_countP_le WeightedVote.value votes same
      omega

theorem quorum_orderIndependent_iff (votes : List WeightedVote) :
    OrderIndependent .quorum votes ↔ ¬ (3 ≤ votes.length ∧ EvenSplit votes) := by
  rw [orderIndependent_iff_of_poll poll_quorum]
  apply not_congr
  constructor
  · rintro ⟨first, second, distinct, firstLeads, secondLeads, enough, half⟩
    have same := firstLeads.total_eq secondLeads
    have most := countP_add_countP_le WeightedVote.value votes distinct
    rw [total_one] at half same
    rw [total_one] at same
    exact ⟨enough, first, second, distinct, by omega, by omega⟩
  · rintro ⟨enough, first, second, distinct, firstHalf, secondHalf⟩
    refine ⟨first, second, distinct, leads_of_half (by omega) firstHalf,
      leads_of_half (by omega) secondHalf, enough, ?_⟩
    rw [total_one]
    omega

end

/-! ## Rules that weigh -/

section

variable {votes : List WeightedVote} {mode : ConsensusMode} {score : WeightedVote → ℚ}

theorem sum_score_perm {others : List WeightedVote} (perm : others.Perm votes) :
    (others.map score).sum = (votes.map score).sum :=
  (perm.map score).sum_eq

theorem poll_weighing (pct : ℚ → ℚ → ℚ) {others : List WeightedVote} (perm : others.Perm votes)
    (ran : runConsensus others mode = .ok (weighing mode score pct others)) :
    ∃ result, Poll mode score (fun top => 1 / 2 < pct top (votes.map score).sum) others result := by
  refine ⟨weighing mode score pct others, ran, ?_, fun winner isFirst _ => ?_⟩
  · rw [weighing_reached_iff, sum_score_perm perm]
  · exact weighing_value mode pct isFirst

theorem share_gt_half_iff {top sum : ℚ} : 1 / 2 < share top sum ↔ 0 < sum ∧ 1 / 2 < top / sum := by
  unfold share
  by_cases positive : 0 < sum
  · rw [if_pos positive]
    exact (and_iff_right positive).symm
  · simp only [positive, false_and, iff_false]
    norm_num

theorem orderIndependent_weighing_iff (ran : ∀ others, others.Perm votes →
      runConsensus others mode = .ok (weighing mode score share others)) :
    OrderIndependent mode votes ↔ ¬ (0 < (votes.map score).sum ∧ Deadlock score votes) := by
  rw [orderIndependent_iff_of_poll fun others perm =>
    poll_weighing share perm (ran others perm)]
  apply not_congr
  simp only [share_gt_half_iff]
  constructor
  · rintro ⟨first, second, distinct, firstLeads, secondLeads, positive, more⟩
    exact ⟨positive, first, second, distinct, firstLeads, secondLeads, more⟩
  · rintro ⟨positive, first, second, distinct, firstLeads, secondLeads, more⟩
    exact ⟨first, second, distinct, firstLeads, secondLeads, positive, more⟩

theorem poll_scaled (ran : ∀ others, runConsensus others mode = .ok (scaled mode score others))
    (others : List WeightedVote) (perm : others.Perm votes) :
    ∃ result, Poll mode score (fun top => 1 / 2 < top / (votes.map score).sum) others result := by
  refine ⟨scaled mode score others, ran others, ?_, ?_⟩
  · unfold scaled
    rw [sum_score_perm perm]
    dsimp only
    split
    case isTrue none =>
      rw [none]
      norm_num
    case isFalse => exact weighing_reached_iff mode score _ others
  · intro winner isFirst reached
    unfold scaled at reached ⊢
    dsimp only at reached ⊢
    split
    case isTrue none =>
      rw [if_pos none] at reached
      cases reached
    case isFalse => exact weighing_value mode _ isFirst

theorem orderIndependent_scaled_iff
    (ran : ∀ others, runConsensus others mode = .ok (scaled mode score others)) :
    OrderIndependent mode votes ↔ ¬ Deadlock score votes :=
  orderIndependent_iff_of_poll (poll_scaled ran)

theorem bayesian_orderIndependent_iff (votes : List WeightedVote) :
    OrderIndependent .bayesian votes ↔ ¬ Undecided .bayesian votes := by
  by_cases defined : ∀ vote ∈ votes, evidence (1 / 2) vote ≠ 0
  · have ran : ∀ others, others.Perm votes → runConsensus others .bayesian =
        .ok (weighing .bayesian (fun vote => vote.weight * posterior (1 / 2) vote) share
          others) := by
      intro others perm
      apply if_neg
      rintro ⟨vote, member, zero⟩
      exact defined vote (perm.mem_iff.mp member) zero
    rw [orderIndependent_weighing_iff ran]
    exact not_congr (and_iff_right defined).symm
  · have raises : runConsensus votes .bayesian = .error .zeroDivision := by
      apply if_pos
      push Not at defined
      exact defined
    apply iff_of_true
    · intro result ran
      rw [raises] at ran
      cases ran
    · rintro ⟨all, -⟩
      exact defined all

end

/-- A consensus that is reached does not depend on the order of the votes if and only if the
votes do not leave two values undecided. -/
theorem consensus_orderIndependent_iff (mode : ConsensusMode) (votes : List WeightedVote) :
    OrderIndependent mode votes ↔ ¬ Undecided mode votes := by
  cases mode with
  | simpleMajority => exact iff_of_true (simpleMajority_orderIndependent votes) id
  | absoluteMajority => exact iff_of_true (absoluteMajority_orderIndependent votes) id
  | superMajority => exact iff_of_true (superMajority_orderIndependent votes) id
  | unanimous => exact iff_of_true (unanimous_orderIndependent votes) id
  | consensusThreshold => exact iff_of_true (consensusThreshold_orderIndependent votes) id
  | quorum => exact quorum_orderIndependent_iff votes
  | weightedVoting => exact orderIndependent_weighing_iff fun _ _ => rfl
  | confidenceWeighted | qualityWeighted => exact orderIndependent_scaled_iff fun _ => rfl
  | bayesian => exact bayesian_orderIndependent_iff votes

/-- Two votes for each of two values reach the quorum for the value that comes first. -/
theorem evenQuorum_depends_on_order : ¬ OrderIndependent .quorum
      [{ value := "yes" }, { value := "yes" }, { value := "no" }, { value := "no" }] := by
  rw [quorum_orderIndependent_iff, not_not]
  exact ⟨by decide, "yes", "no", by decide, by decide, by decide⟩

end AgenticOS.OmniRoute.Aggregation
