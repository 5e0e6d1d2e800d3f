import AgenticOS.Data.Clock
import AgenticOS.Transition.Run
import Mathlib.Data.List.Nodup

/-!
# The cost ledger

Costs are recorded and compared with a budget. A threshold is crossed when a recorded cost
brings the ratio of what is spent to it, and raises one alert; to set a budget resets the
thresholds, and nothing is compared until the next cost is recorded.

Costs are rational numbers. The files of the ledger hold what is in memory and are left out, as
is what is published of an alert, which is the alert.
-/

namespace AgenticOS.Costs

open Decimal

/-- A recorded cost; the day that is kept with it is that of its time stamp. -/
structure Entry where
  ts : Timestamp
  costUsd : ℚ
  agentId : String := ""
  planId : String := ""
  taskId : String := ""
  model : String := ""
  source : String := "operator"

structure Alert where
  ts : Timestamp
  threshold : ℚ
  spentUsd : ℚ
  budgetUsd : ℚ
  usedRatio : ℚ

structure CostLedger where
  entries : List Entry := []
  alerts : List Alert := []
  totalUsd : Option ℚ := none
  crossed : List ℚ := []

/-- `DEFAULT_ALERT_THRESHOLDS`. -/
def alertThresholds : List ℚ :=
  [1 / 2, 4 / 5, 1]

/-- What `budget_status` shows. -/
structure BudgetStatus where
  budgetUsd : Option ℚ
  spentUsd : ℚ
  remainingUsd : Option ℚ
  usedRatio : Option ℚ
  crossedThresholds : List ℚ

namespace CostLedger

variable (ledger : CostLedger)

def spent : ℚ :=
  (ledger.entries.map Entry.costUsd).sum

/-- The body of the loop of `_check_alerts`. -/
def alertAt (now : Timestamp) (spent budget : ℚ) (ledger : CostLedger) (threshold : ℚ) :
    CostLedger :=
  if threshold ≤ spent / budget ∧ threshold ∉ ledger.crossed then
    { ledger with
      crossed := ledger.crossed ++ [threshold]
      alerts := ledger.alerts ++ [{
        ts := now
        threshold := threshold
        spentUsd := roundTo 6 spent
        budgetUsd := budget
        usedRatio := roundTo 4 (spent / budget) }] }
  else ledger

def checkAlerts (now : Timestamp) : CostLedger :=
  match ledger.totalUsd with
  | none => ledger
  | some budget =>
    if budget ≤ 0 then ledger
    else alertThresholds.foldl (alertAt now ledger.spent budget) ledger

def record (now : Timestamp) (entry : Entry) : Except String Entry × CostLedger :=
  if entry.costUsd < 0 then (.error "cost must be >= 0", ledger)
  else (.ok entry, checkAlerts { ledger with entries := ledger.entries ++ [entry] } now)

def setBudget (totalUsd : Option ℚ) : Except String (Option ℚ) × CostLedger :=
  if ∃ total ∈ totalUsd, total < 0 then (.error "budget must be >= 0", ledger)
  else (.ok totalUsd, { ledger with totalUsd := totalUsd, crossed := [] })

def budgetStatus : BudgetStatus :=
  match ledger.totalUsd with
  | none =>
    { budgetUsd := none
      spentUsd := roundTo 6 ledger.spent
      remainingUsd := none
      usedRatio := none
      crossedThresholds := [] }
  | some budget =>
    { budgetUsd := some budget
      spentUsd := roundTo 6 ledger.spent
      remainingUsd := some (roundTo 6 (budget - ledger.spent))
      usedRatio := if 0 < budget then some (roundTo 4 (ledger.spent / budget)) else none
      crossedThresholds := ledger.crossed }

inductive Call
  | record (now : Timestamp) (entry : Entry)
  | setBudget (totalUsd : Option ℚ)

def step (ledger : CostLedger) : Call → CostLedger
  | .record now entry => (ledger.record now entry).2
  | .setBudget totalUsd => (ledger.setBudget totalUsd).2

end CostLedger

end AgenticOS.Costs

/-!
## Which thresholds are crossed

Costs are not negative, so that a threshold that was reached stays reached while the budget
stays. From the first cost that is recorded after a budget was set, the crossed thresholds are
the ones that are reached, and each has raised one alert; up to then none is crossed.
-/

namespace AgenticOS.Costs.CostLedger

open Transition

/-- Every threshold that is crossed in between raises one alert, and nothing else changes. -/
structure Raises (before after : CostLedger) : Prop where
  totalUsd : after.totalUsd = before.totalUsd
  entries : after.entries = before.entries
  alerts : ∃ raised : List Alert, after.alerts = before.alerts ++ raised ∧
    after.crossed = before.crossed ++ raised.map Alert.threshold

open List

section

variable {ledger} {now : Timestamp}

theorem Raises.refl (ledger : CostLedger) : Raises ledger ledger :=
  ⟨rfl, rfl, [], by simp, by simp⟩

theorem Raises.trans {first second third : CostLedger} (before : Raises first second)
    (after : Raises second third) : Raises first third := by
  obtain ⟨total, entries, raised, alerts, crossed⟩ := before
  obtain ⟨totalAfter, entriesAfter, raisedAfter, alertsAfter, crossedAfter⟩ := after
  refine ⟨totalAfter.trans total, entriesAfter.trans entries, raised ++ raisedAfter, ?_, ?_⟩
  · rw [alertsAfter, alerts, append_assoc]
  · rw [crossedAfter, crossed, map_append, append_assoc]

variable (spent budget : ℚ)

theorem raises_alertAt (threshold : ℚ) :
    Raises ledger (alertAt now spent budget ledger threshold) := by
  unfold alertAt
  split
  · exact ⟨rfl, rfl, [_], rfl, rfl⟩
  · exact .refl ledger

theorem mem_crossed_alertAt {threshold other : ℚ} :
    other ∈ (alertAt now spent budget ledger threshold).crossed ↔
      other ∈ ledger.crossed ∨ other = threshold ∧ threshold ≤ spent / budget := by
  unfold alertAt
  split
  next reached => simp [reached.1]
  next unreached =>
    constructor
    · exact .inl
    · rintro (before | ⟨rfl, enough⟩)
      · exact before
      · by_contra absent
        exact unreached ⟨enough, absent⟩

theorem nodup_crossed_alertAt (nodup : ledger.crossed.Nodup) (threshold : ℚ) :
    (alertAt now spent budget ledger threshold).crossed.Nodup := by
  unfold alertAt
  split
  next reached => exact nodup_append_comm.mp (nodup_cons.mpr ⟨reached.2, nodup⟩)
  next => exact nodup

theorem foldl_alertAt (thresholds : List ℚ) :
    Raises ledger (thresholds.foldl (alertAt now spent budget) ledger) ∧
    (∀ other, other ∈ (thresholds.foldl (alertAt now spent budget) ledger).crossed ↔
      other ∈ ledger.crossed ∨ other ∈ thresholds ∧ other ≤ spent / budget) ∧
    (ledger.crossed.Nodup →
      (thresholds.foldl (alertAt now spent budget) ledger).crossed.Nodup) := by
  induction thresholds generalizing ledger with
  | nil => exact ⟨.refl ledger, by simp, id⟩
  | cons threshold rest hypothesis =>
    obtain ⟨raises, crossed, nodup⟩ :=
      @hypothesis (alertAt now spent budget ledger threshold)
    refine ⟨(raises_alertAt spent budget threshold).trans raises, ?_, ?_⟩
    · intro other
      rw [foldl_cons, crossed, mem_crossed_alertAt, mem_cons]
      constructor
      · rintro ((before | ⟨rfl, enough⟩) | ⟨later, enough⟩)
        · exact .inl before
        · exact .inr ⟨.inl rfl, enough⟩
        · exact .inr ⟨.inr later, enough⟩
      · rintro (before | ⟨rfl | later, enough⟩)
        · exact .inl (.inl before)
        · exact .inl (.inr ⟨rfl, enough⟩)
        · exact .inr ⟨later, enough⟩
    · exact fun before => nodup (nodup_crossed_alertAt spent budget before threshold)

end

/-! ## Runs -/

def Call.SetsBudget : Call → Prop
  | .record .. => False
  | .setBudget totalUsd => ∀ total ∈ totalUsd, 0 ≤ total

def Call.Records : Call → Prop
  | .record _ entry => 0 ≤ entry.costUsd
  | .setBudget _ => False

/-- The crossed thresholds after the calls since a budget was set are the reached ones, if a
cost was recorded; each has raised one alert since, and no other threshold has. -/
structure Tracks (budget : ℚ) (start final : CostLedger) (calls : List Call) : Prop where
  crossed : ∀ threshold, threshold ∈ final.budgetStatus.crossedThresholds ↔
    threshold ∈ alertThresholds ∧ (∃ call ∈ calls, call.Records) ∧ threshold * budget ≤ final.spent
  alerts : ∃ raised : List Alert, final.alerts = start.alerts ++ raised ∧
    raised.map Alert.threshold = final.budgetStatus.crossedThresholds
  nodup : final.budgetStatus.crossedThresholds.Nodup

variable {ledger start : CostLedger} {budget : ℚ}

theorem crossedThresholds_eq (total : ledger.totalUsd = some budget) :
    ledger.budgetStatus.crossedThresholds = ledger.crossed := by
  unfold budgetStatus
  rw [total]

theorem step_record {entry : Entry} (accepted : 0 ≤ entry.costUsd) (now : Timestamp) :
    ledger.step (.record now entry) =
      checkAlerts { ledger with entries := ledger.entries ++ [entry] } now := by
  unfold step record
  dsimp only
  rw [if_neg (not_lt.mpr accepted)]

theorem step_setBudget {totalUsd : Option ℚ} (accepted : ∀ total ∈ totalUsd, 0 ≤ total) :
    ledger.step (.setBudget totalUsd) = { ledger with totalUsd := totalUsd, crossed := [] } := by
  unfold step setBudget
  dsimp only
  rw [if_neg]
  rintro ⟨total, given, negative⟩
  exact absurd (accepted total given) (not_le_of_gt negative)

theorem step_of_refused {call : Call} (noBudget : ¬ call.SetsBudget) (noCost : ¬ call.Records) :
    ledger.step call = ledger := by
  cases call with
  | record now entry =>
    unfold step record
    dsimp only
    rw [if_pos (lt_of_not_ge noCost)]
  | setBudget totalUsd =>
    unfold step setBudget
    dsimp only
    rw [if_pos]
    by_contra accepted
    push Not at accepted
    exact noBudget accepted

theorem raises_checkAlerts (now : Timestamp) : Raises ledger (ledger.checkAlerts now) := by
  unfold checkAlerts
  split
  · exact .refl ledger
  · split
    · exact .refl ledger
    · exact (foldl_alertAt _ _ _).1

theorem checkAlerts_spec (now : Timestamp) (total : ledger.totalUsd = some budget)
    (positive : 0 < budget) : Raises ledger (ledger.checkAlerts now) ∧
    (∀ threshold, threshold ∈ (ledger.checkAlerts now).crossed ↔
      threshold ∈ ledger.crossed ∨
        threshold ∈ alertThresholds ∧ threshold * budget ≤ ledger.spent) ∧
    (ledger.crossed.Nodup → (ledger.checkAlerts now).crossed.Nodup) := by
  have shape : ledger.checkAlerts now =
      alertThresholds.foldl (alertAt now ledger.spent budget) ledger := by
    unfold checkAlerts
    rw [total]
    exact if_neg (not_le_of_gt positive)
  rw [shape]
  obtain ⟨raises, crossed, nodup⟩ := foldl_alertAt ledger.spent budget alertThresholds
  refine ⟨raises, ?_, nodup⟩
  intro threshold
  rw [crossed, le_div_iff₀ positive]

theorem spent_append (entry : Entry) :
    CostLedger.spent { ledger with entries := ledger.entries ++ [entry] } =
      ledger.spent + entry.costUsd := by
  simp [spent]

/-- The thresholds after a cost is recorded: the ones that are reached, as none that was
crossed is left behind. -/
theorem record_spec {entry : Entry} (now : Timestamp) (accepted : 0 ≤ entry.costUsd)
    (total : ledger.totalUsd = some budget) (positive : 0 < budget)
    (reached : ∀ threshold ∈ ledger.crossed,
      threshold ∈ alertThresholds ∧ threshold * budget ≤ ledger.spent) (threshold : ℚ) :
    threshold ∈ (ledger.step (.record now entry)).crossed ↔
      threshold ∈ alertThresholds ∧
        threshold * budget ≤ (ledger.step (.record now entry)).spent := by
  have total' : CostLedger.totalUsd { ledger with entries := ledger.entries ++ [entry] } =
      some budget := total
  obtain ⟨raises, crossed, -⟩ := checkAlerts_spec now total' positive
  have same : (ledger.step (.record now entry)).spent = ledger.spent + entry.costUsd := by
    rw [step_record accepted, ← spent_append]
    unfold spent
    rw [raises.entries]
  rw [same, step_record accepted, crossed, spent_append]
  refine or_iff_right_of_imp fun before => ?_
  obtain ⟨among, enough⟩ := reached threshold before
  exact ⟨among, le_add_of_le_of_nonneg enough accepted⟩

theorem tracks_run (fresh : start.crossed = []) (total : start.totalUsd = some budget)
    (positive : 0 < budget) {calls : List Call} (quiet : ∀ call ∈ calls, ¬ call.SetsBudget) :
    (run step start calls).totalUsd = some budget ∧
    (∀ threshold, threshold ∈ (run step start calls).crossed ↔
      threshold ∈ alertThresholds ∧ (∃ call ∈ calls, call.Records) ∧
        threshold * budget ≤ (run step start calls).spent) ∧
    (∃ raised : List Alert, (run step start calls).alerts = start.alerts ++ raised ∧
      raised.map Alert.threshold = (run step start calls).crossed) ∧
    (run step start calls).crossed.Nodup := by
  induction calls using List.reverseRecOn with
  | nil =>
    refine ⟨total, ?_, ⟨[], by simp, fresh.symm⟩, ?_⟩
    · simp [fresh]
    · rw [run_nil, fresh]
      exact nodup_nil
  | append_singleton calls last hypothesis =>
    obtain ⟨stays, crossed, ⟨raised, alerts, thresholds⟩, nodup⟩ :=
      hypothesis fun call member => quiet call (mem_append_left _ member)
    have noBudget := quiet last (mem_append_right _ mem_cons_self)
    rw [run_append, run_cons, run_nil]
    generalize run step start calls = ledger at *
    by_cases records : last.Records
    · cases last with
      | setBudget totalUsd => exact records.elim
      | record now entry =>
        have reached := record_spec now records stays positive fun threshold before =>
          ⟨((crossed threshold).mp before).1, ((crossed threshold).mp before).2.2⟩
        have staysThere : CostLedger.totalUsd { ledger with
            entries := ledger.entries ++ [entry] } = some budget := stays
        obtain ⟨⟨kept, -, more, alertsNow, thresholdsNow⟩, -, nodupNow⟩ :=
          checkAlerts_spec now staysThere positive
        have recorded : ∃ call ∈ calls ++ [.record now entry], call.Records :=
          ⟨_, mem_append_right _ mem_cons_self, records⟩
        rw [step_record records] at reached ⊢
        refine ⟨kept.trans stays, ?_, ⟨raised ++ more, ?_, ?_⟩, nodupNow nodup⟩
        · intro threshold
          rw [reached, and_iff_right recorded]
        · rw [alertsNow, alerts, append_assoc]
        · rw [thresholdsNow, map_append, thresholds]
    · rw [step_of_refused noBudget records]
      refine ⟨stays, ?_, ⟨raised, alerts, thresholds⟩, nodup⟩
      intro threshold
      rw [crossed]
      simp [records]

theorem exists_setBudget {calls : List Call} (total : (run step {} calls).totalUsd = some budget) :
    ∃ before after, calls = before ++ .setBudget (some budget) :: after ∧
      (Call.setBudget (some budget)).SetsBudget ∧ ∀ call ∈ after, ¬ call.SetsBudget := by
  induction calls using List.reverseRecOn with
  | nil => cases total
  | append_singleton calls last hypothesis =>
    rw [run_append, run_cons, run_nil] at total
    have later (unchanged : (step (run step {} calls) last).totalUsd =
        (run step {} calls).totalUsd) (noBudget : ¬ last.SetsBudget) :
        ∃ before after, calls ++ [last] = before ++ .setBudget (some budget) :: after ∧
          (Call.setBudget (some budget)).SetsBudget ∧ ∀ call ∈ after, ¬ call.SetsBudget := by
      obtain ⟨before, after, shape, accepted, quiet⟩ := hypothesis (unchanged ▸ total)
      refine ⟨before, after ++ [last], by simp [shape], accepted, fun call member => ?_⟩
      rcases mem_append.mp member with earlier | final
      · exact quiet call earlier
      · rw [mem_singleton.mp final]
        exact noBudget
    cases last with
    | record now entry =>
      by_cases accepted : 0 ≤ entry.costUsd
      · refine later ?_ id
        rw [step_record accepted]
        exact (raises_checkAlerts now).totalUsd
      · exact later (congrArg CostLedger.totalUsd (step_of_refused id accepted)) id
    | setBudget totalUsd =>
      by_cases accepted : ∀ total ∈ totalUsd, 0 ≤ total
      · rw [step_setBudget accepted] at total
        cases total
        exact ⟨calls, [], rfl, accepted, fun _ member => absurd member not_mem_nil⟩
      · have refused : ¬ (Call.setBudget totalUsd).SetsBudget := accepted
        exact later (congrArg CostLedger.totalUsd (step_of_refused refused id)) refused

/-- In every run that ends with a positive budget: if a cost was recorded since this budget was
set, the crossed thresholds are the ones that are reached, and otherwise there are none. Each
has raised one alert since then. -/
theorem thresholds_run (calls : List Call) (budget : ℚ)
    (total : (run step {} calls).totalUsd = some budget) (positive : 0 < budget) :
    ∃ before after, calls = before ++ .setBudget (some budget) :: after ∧
      (∀ call ∈ after, ¬ call.SetsBudget) ∧
      Tracks budget (run step {} (before ++ [.setBudget (some budget)])) (run step {} calls)
        after := by
  obtain ⟨before, after, shape, accepted, quiet⟩ := exists_setBudget total
  refine ⟨before, after, shape, quiet, ?_⟩
  have start : run step {} (before ++ [.setBudget (some budget)]) =
      { run step {} before with totalUsd := some budget, crossed := [] } := by
    rw [run_append, run_cons, run_nil, step_setBudget accepted]
  have final : run step {} calls =
      run step { run step {} before with totalUsd := some budget, crossed := [] } after := by
    rw [shape, run_append, run_cons, step_setBudget accepted]
  rw [start, final]
  obtain ⟨stays, crossed, alerts, nodup⟩ :=
    @tracks_run { run step {} before with totalUsd := some budget, crossed := [] } budget rfl rfl
      positive after quiet
  rw [← crossedThresholds_eq stays] at nodup
  simp only [← crossedThresholds_eq stays] at crossed alerts
  exact ⟨crossed, alerts, nodup⟩

/-- A cost, a budget, and another cost. -/
theorem thresholds_run_two :
    ∃ before after,
      [Call.record 0 { ts := 0, costUsd := 3 }, .setBudget (some 10),
        .record 1 { ts := 1, costUsd := 6 }] = before ++ .setBudget (some 10) :: after ∧
      (∀ call ∈ after, ¬ call.SetsBudget) ∧
      Tracks 10 (run step {} (before ++ [.setBudget (some 10)]))
        (run step {} [.record 0 { ts := 0, costUsd := 3 }, .setBudget (some 10),
          .record 1 { ts := 1, costUsd := 6 }]) after :=
  thresholds_run _ 10 (by decide +kernel) (by decide)

/-- A budget that is set below what is spent: two thresholds are reached, none is crossed. -/
theorem late_budget_not_crossed :
    (run step {} [.record 0 { ts := 0, costUsd := 9 }, .setBudget (some 10)]).totalUsd =
        some 10 ∧
      ¬ ∀ threshold, threshold ∈ (run step {} [.record 0 { ts := 0, costUsd := 9 },
          .setBudget (some 10)]).budgetStatus.crossedThresholds ↔
        threshold ∈ alertThresholds ∧ threshold * 10 ≤
          (run step {} [.record 0 { ts := 0, costUsd := 9 }, .setBudget (some 10)]).spent := by
  refine ⟨by decide +kernel, fun mirrors => ?_⟩
  have crossed := (mirrors (1 / 2)).mpr (by decide +kernel)
  revert crossed
  decide +kernel

end AgenticOS.Costs.CostLedger
