import AgenticOS.OmniRoute.Budgets.SpendCap
import Mathlib.Data.Fintype.Basic

/-!
# Daily and monthly budgets

A policy may limit what is spent on a calendar day or in a calendar month. The tracker keeps a
counter for each, and only `record_spend` resets them: it compares the UTC day of the last update
with the local date of today. An evaluation reads the counters as the last commit has left them, so
on a new day it still counts what was spent before.
-/

namespace AgenticOS.OmniRoute

open List

inductive Window
  | daily
  | monthly
deriving DecidableEq

instance : Fintype Window :=
  ⟨{.daily, .monthly}, fun window => by cases window <;> decide⟩

namespace Window

def spent : Window → BudgetUsage → ℚ
  | daily, usage => usage.dailySpent
  | monthly, usage => usage.monthlySpent

/-- The day or the month of a moment, UTC. -/
def period : Window → Timestamp → ℤ × ℤ
  | daily, time => (time.date, 0)
  | monthly, time => time.date.yearMonth

/-- A commit on this local date resets the counter. -/
def Resets : Window → Timestamp → Day → Prop
  | daily, lastUpdated, today => lastUpdated.date < today
  | monthly, lastUpdated, today => lastUpdated.date.yearMonth ≠ today.yearMonth

instance : (window : Window) → (lastUpdated : Timestamp) → (today : Day) →
    Decidable (window.Resets lastUpdated today)
  | daily, _, _ => inferInstanceAs (Decidable (_ < _))
  | monthly, _, _ => inferInstanceAs (Decidable (_ ≠ _))

theorem period_of_between (window : Window) {earlier time later : Timestamp}
    (after : earlier ≤ time) (before : time ≤ later)
    (same : window.period earlier = window.period later) :
    window.period time = window.period later := by
  have date_mono : ∀ {first second : Timestamp}, first ≤ second → first.date ≤ second.date :=
    fun le => Int.floor_le_floor (div_le_div_of_nonneg_right le (by norm_num))
  cases window with
  | daily =>
    have days : earlier.date = later.date := congrArg Prod.fst same
    exact Prod.ext (le_antisymm (date_mono before) (days.ge.trans (date_mono after))) rfl
  | monthly => exact Day.yearMonth_of_between (date_mono after) (date_mono before) same

end Window

namespace UsageTracker

variable (tracker : UsageTracker)

/-- What was recorded against a policy in the day or the month of a moment. -/
def spentIn (window : Window) (policyId : String) (time : Timestamp) : ℚ :=
  (tracker.spendLog.map fun entry =>
    if entry.1 = policyId ∧ window.period entry.2.2 = window.period time then entry.2.1
    else 0).sum

/-- The time is not before any recorded spend. -/
def Past (now : Timestamp) : Prop :=
  ∀ entry ∈ tracker.spendLog, entry.2.2 ≤ now
deriving Decidable

/-- Each counter says what was spent in the day or the month of the last update. -/
def Current : Prop :=
  ∀ (window : Window) policyId now, tracker.Past now → tracker.spentIn window policyId now =
    (tracker.usage.get? policyId).elim 0 fun usage =>
      if window.period usage.lastUpdated = window.period now then window.spent usage else 0

/-- The usage of a policy, what is held for it left out. -/
def reading (now : Timestamp) (policyId : String) : BudgetUsage :=
  { tracker.getUsage now policyId with activeReservations := 0 }

/-- At most the amount held for a policy changes. -/
def Moves (now : Timestamp) (after : UsageTracker) : Prop :=
  after = tracker ∨ ∃ policyId held, after =
    { tracker with
      usage := tracker.usage.set policyId
        { tracker.getUsage now policyId with activeReservations := held } }

variable {tracker} {now : Timestamp} {after : UsageTracker} (moves : tracker.Moves now after)
include moves

theorem Moves.reading_eq (other : String) :
    after.reading now other = tracker.reading now other := by
  rcases moves with rfl | ⟨policyId, held, rfl⟩
  · rfl
  · unfold reading getUsage
    by_cases same : other = policyId
    · subst same
      simp
    · simp [Dict.get?_set_ne _ same]

theorem Moves.current (current : tracker.Current) : after.Current := by
  rcases moves with rfl | ⟨policyId, held, rfl⟩
  · exact current
  · intro window other time past
    refine (current window other time past).trans ?_
    rw [Dict.get?_set]
    split
    next same =>
      subst same
      unfold getUsage
      cases tracker.usage.get? other with
      | none => cases window <;> simp [Window.spent]
      | some usage => cases window <;> rfl
    next => rfl

omit moves

theorem Current.recordSpend (current : tracker.Current) {clock : Clock} {policyId : String}
    (past : tracker.Past clock.now)
    (rolls : ∀ usage ∈ tracker.usage.get? policyId, ∀ window : Window, window.spent usage ≠ 0 →
      (window.Resets usage.lastUpdated clock.today ↔
        window.period usage.lastUpdated ≠ window.period clock.now))
    (amount : ℚ) (provider model : String) :
    (tracker.recordSpend clock policyId amount provider model).Current := by
  intro window other time later
  have added :
      (tracker.recordSpend clock policyId amount provider model).spentIn window other time =
        tracker.spentIn window other time +
          if policyId = other ∧ window.period clock.now = window.period time then amount
          else 0 := by
    simp [spentIn]
  have before : tracker.Past time := fun entry member => later entry (mem_append_left _ member)
  rw [added]
  unfold UsageTracker.recordSpend
  rw [Dict.get?_set]
  by_cases same : other = policyId
  · subst same
    by_cases joined : window.period clock.now = window.period time
    · -- What was counted before is of this day or month, or it is reset.
      have earlier := current window other clock.now past
      unfold spentIn at earlier ⊢
      rw [joined] at earlier
      rw [earlier]
      cases old : tracker.usage.get? other with
      | none => cases window <;> simp [Window.spent, joined]
      | some usage =>
        have rolls := rolls usage old window
        rw [joined] at rolls
        by_cases zero : window.spent usage = 0
        · cases window <;> simp_all [Window.spent]
        · cases window <;> simp_all [Window.spent, Window.Resets]
    · -- Whatever was spent before lies before this day or month.
      have none : tracker.spentIn window other time = 0 := by
        apply List.sum_eq_zero
        intro entry member
        obtain ⟨entry, isEntry, rfl⟩ := mem_map.mp member
        refine if_neg fun both => joined ?_
        exact window.period_of_between (past entry isEntry)
          (later _ (mem_append_right _ mem_cons_self)) both.2
      rw [none]
      cases tracker.usage.get? other <;> simp [joined]
  · simp [same, Ne.symm same, current window other time before]

end UsageTracker

namespace BudgetEngineImpl

open AgenticOS.Transition

/-! ## What an evaluation checks -/

/-- The amount is within the limit, if there is one. -/
def Holds (limit amount : ℚ) : Prop :=
  0 < limit → amount ≤ limit
deriving Decidable

def windowLimit (override : Option BudgetOverride) (policy : BudgetPolicy) : Window → ℚ
  | .daily => overridden override "max_spend_daily" policy.maxSpendDaily
  | .monthly => policy.maxSpendMonthly

/-- A cost is within all limits of a policy, where this was spent in all and in the day and the
month. -/
def Within (override : Option BudgetOverride) (policy : BudgetPolicy) (total : ℚ)
    (spent : Window → ℚ) (cost : ℚ) : Prop :=
  Holds (overridden override "hard_limit" policy.hardLimit) cost ∧
    Holds policy.maxSpendPerRequest cost ∧
    Holds (overridden override "max_spend_total" policy.maxSpendTotal) (total + cost) ∧
    ∀ window, Holds (windowLimit override policy window) (spent window + cost)
deriving Decidable

section

variable (engine : BudgetEngineImpl) (clock : Clock)

/-- The cost is within the limits by the counters of the policy. -/
def Passes (policy : BudgetPolicy) : ℚ → Prop :=
  let usage := engine.usageTracker.reading clock.now policy.id
  Within (engine.findActiveOverride clock.now policy.id) policy usage.totalSpent
    fun window => window.spent usage

/-- The checks of an evaluation are the same. -/
structure Alike (after : BudgetEngineImpl) : Prop where
  overrides : after.overrides = engine.overrides
  readings : ∀ policyId, after.usageTracker.reading clock.now policyId =
    engine.usageTracker.reading clock.now policyId

variable (reservation : BudgetReservation)

theorem moves_hold :
    engine.usageTracker.Moves clock.now (engine.hold clock reservation).usageTracker := by
  unfold hold
  dsimp only
  split
  · exact .inl rfl
  · exact .inr ⟨_, _, rfl⟩

theorem moves_untrack : engine.usageTracker.Moves clock.now (engine.untrack clock reservation) := by
  unfold untrack UsageTracker.removeReservation
  dsimp only
  split
  · exact .inl rfl
  · split
    · exact .inr ⟨_, _, rfl⟩
    · exact .inl rfl

theorem alike_cleanup : engine.Alike clock (engine.cleanupExpiredReservations clock) :=
  cleanup_preserves (fun current _ reservation alike _ _ => ⟨alike.overrides, fun policyId =>
    ((moves_untrack current clock reservation).reading_eq policyId).trans
      (alike.readings policyId)⟩)
    ⟨rfl, fun _ => rfl⟩

end

variable {engine current : BudgetEngineImpl} {clock : Clock} {cost : ℚ} {policy : BudgetPolicy}

theorem Within.congr {override : Option BudgetOverride} {total : ℚ} {spent other : Window → ℚ}
    (within : Within override policy total spent cost)
    (same : ∀ window, 0 < windowLimit override policy window → spent window = other window) :
    Within override policy total other cost :=
  ⟨within.1, within.2.1, within.2.2.1,
    fun window limited => same window limited ▸ within.2.2.2 window limited⟩

theorem Alike.passes_eq (alike : engine.Alike clock current) :
    current.Passes clock policy = engine.Passes clock policy := by
  unfold Passes findActiveOverride
  rw [alike.overrides, alike.readings]

theorem ok_ite_iff {ε α : Type} {refused : Prop} [Decidable refused] {error : ε}
    {next : Except ε α} : (∃ value, (if refused then .error error else next) = .ok value) ↔
      ¬ refused ∧ ∃ value, next = .ok value := by
  split
  next refuses => simp [refuses]
  next passes => simp [passes]

theorem checkPolicy_ok_iff (loop : PolicyLoop) :
    (∃ next, engine.checkPolicy clock cost loop policy = .ok next) ↔
      engine.Passes clock policy cost := by
  unfold checkPolicy
  simp only [ok_ite_iff, not_and, not_lt]
  constructor
  · rintro ⟨hard, perRequest, total, daily, monthly, -⟩
    refine ⟨hard, perRequest, total, fun window => ?_⟩
    cases window with
    | daily => exact daily
    | monthly => exact monthly
  · rintro ⟨hard, perRequest, total, windows⟩
    exact ⟨hard, perRequest, total, windows .daily, windows .monthly, _, rfl⟩

variable {request : RoutingRequest} {policies : List BudgetPolicy}

theorem admission_ok_iff : (∃ loop, engine.admission clock request policies cost = .ok loop) ↔
    Holds request.budgetLimit cost ∧ ∀ policy ∈ policies, engine.Passes clock policy cost := by
  have all (loop : PolicyLoop) :
      (∃ last, policies.foldlM (engine.checkPolicy clock cost) loop = .ok last) ↔
        ∀ policy ∈ policies, engine.Passes clock policy cost := by
    induction policies generalizing loop with
    | nil => simp [pure, Except.pure]
    | cons policy policies ih =>
      rw [forall_mem_cons, ← checkPolicy_ok_iff loop, foldlM_cons]
      cases engine.checkPolicy clock cost loop policy with
      | error rejection => simp [bind, Except.bind]
      | ok next => simpa [bind, Except.bind] using ih next
  rw [admission, ok_ite_iff, all, not_and, not_lt]
  rfl

theorem approved_evaluateCandidates (alike : engine.Alike clock current)
    (candidates : List BudgetCandidate) :
    ∀ result ∈ (current.evaluateCandidates clock request policies candidates).1,
      (result.approved = true ↔ Holds request.budgetLimit result.estimatedCost ∧
        ∀ policy ∈ policies, engine.Passes clock policy result.estimatedCost) := by
  induction candidates generalizing current with
  | nil => nofun
  | cons candidate rest ih =>
    intro result member
    rcases mem_cons.mp member with rfl | later
    · simp only [← alike.passes_eq]
      rw [← admission_ok_iff]
      split
      next rejected => simp [rejected]
      next admitted => simp [admitted]
    · refine ih ?_ result later
      exact candidateStep_preserves (fun _ _ alike => ⟨alike.overrides, alike.readings⟩)
        (fun before reservation alike _ _ => ⟨alike.overrides, fun policyId =>
          ((moves_hold before clock reservation).reading_eq policyId).trans
            (alike.readings policyId)⟩) alike

/-! ## Runs -/

/-- What the counters must be like before a call. A commit resets a counter exactly if the last
update was in another day or month than the commit, both UTC. An evaluation finds no spend of
another day or month in a counter with a limit. Neither comes before a recorded spend. -/
def Timely (engine : BudgetEngineImpl) : Operation → Prop
  | .evaluate clock _ _ request =>
    engine.usageTracker.Past clock.now ∧ ∀ policy ∈ engine.resolveApplicablePolicies request,
      ∀ usage ∈ engine.usageTracker.usage.get? policy.id, ∀ window,
        0 < windowLimit (engine.findActiveOverride clock.now policy.id) policy window →
          window.spent usage ≠ 0 → window.period usage.lastUpdated = window.period clock.now
  | .commit clock rid =>
    engine.usageTracker.Past clock.now ∧ ∀ reservation ∈ engine.reservations.get? rid,
      ∀ usage ∈ (engine.untrack clock reservation).usage.get? reservation.policyId,
        ∀ window : Window, window.spent usage ≠ 0 →
          (window.Resets usage.lastUpdated clock.today ↔
            window.period usage.lastUpdated ≠ window.period clock.now)
  | _ => True

instance (engine : BudgetEngineImpl) : (operation : Operation) → Decidable (engine.Timely operation)
  | .evaluate .. => inferInstanceAs (Decidable (_ ∧ ∀ policy ∈ _, ∀ usage ∈ _, ∀ _, _ → _ → _))
  | .commit .. => inferInstanceAs (Decidable (_ ∧ ∀ reservation ∈ _, ∀ usage ∈ _, ∀ _window, _ → _))
  | .reserve .. | .rollback .. | .release .. | .cleanup .. => inferInstanceAs (Decidable True)

/-- An evaluation approves a candidate exactly if its estimate is within the limit of the request
and within all limits of the policies that apply, those for a day or a month with what was spent in
the day or the month of the evaluation. -/
def ComparesWithWindow (engine : BudgetEngineImpl) : Operation → Prop
  | .evaluate clock evaluationTimeMs candidates request =>
    ∀ result ∈ (engine.evaluate clock evaluationTimeMs candidates request).1.results,
      (result.approved = true ↔ Holds request.budgetLimit result.estimatedCost ∧
        ∀ policy ∈ engine.resolveApplicablePolicies request,
          Within (engine.findActiveOverride clock.now policy.id) policy
            (engine.usageTracker.totalSpent policy.id)
            (fun window => engine.usageTracker.spentIn window policy.id clock.now)
            result.estimatedCost)
  | _ => True

instance (engine : BudgetEngineImpl) :
    (operation : Operation) → Decidable (engine.ComparesWithWindow operation)
  | .evaluate .. => inferInstanceAs (Decidable (∀ result ∈ _, _ ↔ _ ∧ ∀ policy ∈ _, Within ..))
  | .reserve .. | .commit .. | .rollback .. | .release .. | .cleanup .. =>
    inferInstanceAs (Decidable True)

section

variable (sound : engine.usageTracker.Current) {operation : Operation}
  (timely : engine.Timely operation)
include sound timely

theorem current_step : (engine.step operation).usageTracker.Current := by
  apply step_preserves (J := fun engine => engine.usageTracker.Current) (fun _ _ sound => sound)
    (fun _ _ _ sound _ _ => (moves_hold ..).current sound) _ _
    (fun _ _ _ _ _ _ _ => (moves_untrack ..).current sound)
    (fun _ _ _ _ _ _ => (moves_untrack ..).current sound) sound
  · intro current clock rid reservation outcome sound present isOpen legal
    have untracked := (moves_untrack current clock reservation).current sound
    cases outcome with
    | rolledBack => exact untracked
    | released => exact untracked
    | committed =>
      obtain ⟨rfl, rfl⟩ := legal rfl
      unfold settle
      dsimp only
      split
      · exact sound
      · have kept : (current.untrack clock reservation).spendLog =
            current.usageTracker.spendLog := by
          rcases moves_untrack current clock reservation with same | ⟨_, _, same⟩ <;> rw [same]
        exact untracked.recordSpend (fun entry member => timely.1 entry (kept ▸ member))
          (timely.2 reservation present) _ _ _
  · intro clock evaluationTimeMs candidates request _ cleaned
    exact evaluate_preserves_of_hold (J := fun engine => engine.usageTracker.Current)
      evaluationTimeMs (fun _ _ sound => sound)
      (fun _ _ sound _ _ => (moves_hold ..).current sound) cleaned

theorem comparesWithWindow : engine.ComparesWithWindow operation := by
  cases operation with
  | evaluate clock evaluationTimeMs candidates request =>
    intro result member
    unfold evaluate at member
    dsimp only at member
    split at member
    · cases member
    · rw [(sameRules_cleanup engine clock).resolveApplicablePolicies_eq] at member
      rw [approved_evaluateCandidates (alike_cleanup engine clock) candidates result member]
      refine and_congr_right fun _ => forall₂_congr fun policy applies => ?_
      have same : ∀ window,
          0 < windowLimit (engine.findActiveOverride clock.now policy.id) policy window →
          window.spent (engine.usageTracker.reading clock.now policy.id) =
            engine.usageTracker.spentIn window policy.id clock.now := by
        intro window limited
        rw [sound window policy.id clock.now timely.1, UsageTracker.reading, UsageTracker.getUsage]
        cases found : engine.usageTracker.usage.get? policy.id with
        | none => cases window <;> rfl
        | some usage =>
          have fresh := timely.2 policy applies usage found window limited
          simp only [Option.elim_some]
          split
          next => cases window <;> rfl
          next stale =>
            have zero := not_not.mp fun nonzero => stale (fresh nonzero)
            cases window <;> exact zero
      rw [← UsageTracker.getUsage_totalSpent _ clock.now]
      exact ⟨fun passes => passes.congr same,
        fun within => within.congr fun window limited => (same window limited).symm⟩
  | reserve | commit | rollback | release | cleanup => trivial

end

def dailyPolicy : BudgetPolicy :=
  { id := "team", maxSpendDaily := 10 }

def committedEight : List Operation :=
  [sampleEvaluate 8, .commit sampleClock 0]

/-- The request of the day before is made again. -/
def nextDay : Operation :=
  .evaluate ⟨86400, 1⟩ 1 [(sampleProvider, sampleModel 8)] sampleRequest

end BudgetEngineImpl

end AgenticOS.OmniRoute
