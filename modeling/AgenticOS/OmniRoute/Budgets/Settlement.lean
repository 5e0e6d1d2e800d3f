import AgenticOS.OmniRoute.Budgets.Accounting

/-!
# Settling reservations

Four operations settle a reservation and each of them tests different flags.
`commit` and the expiry loop settle open reservations only. `rollback` does not look
at the released flag and `release` looks at no other, so these two can settle a
reservation a second time: the amount is given back twice, and the terminal outcome
changes. The two equivalences of this module say that nothing else goes wrong.
-/

namespace AgenticOS.OmniRoute.BudgetEngineImpl

open AgenticOS.Transition

/-- For every policy the amount held is the estimated cost of its open reservations.
The empty policy id stands for the absence of a policy. -/
def Conserved (engine : BudgetEngineImpl) : Prop :=
  ∀ policyId, policyId ≠ "" →
    engine.held policyId = engine.openCost policyId ∧ 0 ≤ engine.held policyId

/-- Giving this reservation's amount back a second time would change nothing: it has
no policy, it costs nothing, or nothing at all is held for its policy. -/
def RefundsNothing (engine : BudgetEngineImpl) (reservation : BudgetReservation) : Prop :=
  reservation.policyId = "" ∨ reservation.estimatedCost = 0 ∨ engine.held reservation.policyId ≤ 0

/-- The call does not give back the amount of a reservation that was settled before:
no release of one committed or rolled back, no rollback of one released. -/
def NoSecondRefund (engine : BudgetEngineImpl) : Operation → Prop
  | .release _ rid => ∀ reservation, engine.reservations.get? rid = some reservation →
      reservation.released = false → reservation.outcome ≠ none →
      engine.RefundsNothing reservation
  | .rollback _ rid => ∀ reservation, engine.reservations.get? rid = some reservation →
      reservation.outcome = some .released → engine.RefundsNothing reservation
  | _ => True

/-- The equation in `Conserved`; the bound follows from it. -/
def Balanced (engine : BudgetEngineImpl) : Prop :=
  ∀ policyId, policyId ≠ "" → engine.held policyId = engine.openCost policyId

variable {engine : BudgetEngineImpl}

theorem WellFormed.conserved_iff_balanced (wellFormed : WellFormed engine) :
    engine.Conserved ↔ engine.Balanced := by
  constructor
  · intro conserved policyId policy
    exact (conserved policyId policy).1
  · intro balanced policyId policy
    have equal := balanced policyId policy
    exact ⟨equal, equal ▸ wellFormed.openCost_nonneg policy⟩

variable {reservation : BudgetReservation}

theorem Balanced.hold (wellFormed : WellFormed engine) (balanced : engine.Balanced)
    (clock : Clock) (isOpen : reservation.outcome = none) :
    (engine.hold clock reservation).Balanced := by
  intro policyId policy
  rw [held_hold engine clock reservation policy, openCost_hold wellFormed, balanced policyId policy]
  by_cases charged : policyId = reservation.policyId
  · simp [openShare, isOpen, charged]
  · have other : reservation.policyId ≠ policyId := fun same => charged same.symm
    simp [openShare, charged, other]

variable {rid : ReservationId}

/-- Settling an open reservation gives its amount back once: something is held, since
the reservation itself is part of what is held. -/
theorem Balanced.settle (wellFormed : WellFormed engine) (balanced : engine.Balanced)
    (clock : Clock) (outcome : Outcome) (present : engine.reservations.get? rid = some reservation)
    (isOpen : reservation.outcome = none) :
    (engine.settle clock rid reservation outcome).Balanced := by
  intro policyId policy
  rw [held_settle engine clock rid reservation outcome policy,
    openCost_settle clock outcome present, balanced policyId policy]
  by_cases charged : policyId = reservation.policyId
  · subst charged
    have share := wellFormed.estimatedCost_le_openCost present isOpen policy
    have nonneg := wellFormed.nonneg rid reservation present policy
    by_cases something : 0 < engine.held reservation.policyId
    · simp [openShare, isOpen, something]
    · have free : reservation.estimatedCost = 0 := by
        rw [balanced _ policy] at something
        linarith
      simp [openShare, isOpen, free]
  · have other : reservation.policyId ≠ policyId := fun same => charged same.symm
    simp [openShare, charged, other]

/-- Settling a settled reservation is harmless exactly if nothing is refunded. -/
theorem Balanced.settle_again_iff (balanced : engine.Balanced) (clock : Clock) (outcome : Outcome)
    (present : engine.reservations.get? rid = some reservation)
    (settledAlready : reservation.outcome ≠ none) :
    (engine.settle clock rid reservation outcome).Balanced ↔
      engine.RefundsNothing reservation := by
  have change : ∀ policyId, policyId ≠ "" →
      ((engine.settle clock rid reservation outcome).held policyId =
          (engine.settle clock rid reservation outcome).openCost policyId ↔
        (policyId = reservation.policyId ∧ 0 < engine.held reservation.policyId →
          reservation.estimatedCost = 0)) := by
    intro policyId policy
    rw [held_settle engine clock rid reservation outcome policy,
      openCost_settle clock outcome present, balanced policyId policy]
    have noShare : openShare policyId reservation = 0 := by simp [openShare, settledAlready]
    rw [noShare]
    split
    · rename_i refunded
      simp [refunded]
    · rename_i kept
      simp [kept]
  constructor
  · intro after
    by_cases policy : reservation.policyId = ""
    · exact .inl policy
    · by_cases something : 0 < engine.held reservation.policyId
      · exact .inr (.inl ((change _ policy).mp (after _ policy) ⟨rfl, something⟩))
      · exact .inr (.inr (not_lt.mp something))
  · intro nothing policyId policy
    refine (change policyId policy).mpr ?_
    rintro ⟨rfl, something⟩
    rcases nothing with noPolicy | free | nothingHeld
    · exact absurd noPolicy policy
    · exact free
    · exact absurd something (not_lt.mpr nothingHeld)

/-- One call keeps the balance exactly if it refunds no reservation twice. -/
theorem balanced_step_iff (wellFormed : WellFormed engine) (balanced : engine.Balanced)
    (operation : Operation) :
    (engine.step operation).Balanced ↔ engine.NoSecondRefund operation := by
  constructor
  · intro after
    cases operation with
    | release clock rid =>
      intro reservation present notReleased settledAlready
      rcases release_cases engine clock rid with
        ⟨stored, storedPresent, _, result⟩ | ⟨refused, _⟩
      · cases Option.some.inj (present.symm.trans storedPresent)
        simp only [step, result] at after
        exact (balanced.settle_again_iff clock .released present settledAlready).mp after
      · exact absurd (refused reservation present) (by simp [notReleased])
    | rollback clock rid =>
      intro reservation present wasReleased
      rcases rollback_cases engine clock rid with
        ⟨stored, stats, storedPresent, _, result, _⟩ | ⟨refused, _⟩
      · cases Option.some.inj (present.symm.trans storedPresent)
        simp only [step, result] at after
        exact (balanced.settle_again_iff clock .rolledBack present (by simp [wasReleased])).mp
          after
      · exact absurd (refused reservation present) (by simp [wasReleased])
    | _ => trivial
  · intro allowed
    have restat : ∀ (engine : BudgetEngineImpl) stats,
        WellFormed engine ∧ engine.Balanced →
          WellFormed { engine with stats } ∧ Balanced { engine with stats } :=
      fun _ stats holds => ⟨holds.1.restat stats, holds.2⟩
    have both : WellFormed (engine.step operation) ∧ (engine.step operation).Balanced := by
      apply step_preserves (J := fun engine => WellFormed engine ∧ engine.Balanced) restat
        _ _ _ _ _ ⟨wellFormed, balanced⟩
      · intro engine clock reservation holds noPolicy isOpen
        exact ⟨holds.1.hold clock isOpen fun policy => absurd noPolicy policy,
          holds.2.hold holds.1 clock isOpen⟩
      · intro engine clock rid reservation outcome holds present isOpen _
        exact ⟨holds.1.settle clock outcome present,
          holds.2.settle holds.1 clock outcome present isOpen⟩
      · intro clock evaluationTimeMs candidates request _ cleaned
        exact evaluate_preserves_of_hold
          (J := fun engine => WellFormed engine ∧ engine.Balanced) evaluationTimeMs restat
          (fun _ _ holds isOpen nonneg =>
            ⟨holds.1.hold clock isOpen nonneg, holds.2.hold holds.1 clock isOpen⟩) cleaned
      · rintro clock rid reservation rfl present settledAlready notReleased
        exact ⟨wellFormed.settle clock .released present,
          (balanced.settle_again_iff clock .released present settledAlready).mpr
            (allowed reservation present notReleased settledAlready)⟩
      · rintro clock rid reservation rfl present wasReleased
        exact ⟨wellFormed.settle clock .rolledBack present,
          (balanced.settle_again_iff clock .rolledBack present (by simp [wasReleased])).mpr
            (allowed reservation present wasReleased)⟩
    exact both.2

/-- From a configured engine, the amounts held agree with the open reservations in
every state of a run exactly if no call of the run refunds a reservation twice. -/
theorem always_conserved_iff_along_noSecondRefund {engine : BudgetEngineImpl}
    (configured : Configured engine) (operations : List Operation) :
    Always step Conserved engine operations ↔ Along step NoSecondRefund engine operations := by
  apply always_iff_along WellFormed
  · exact fun _ operation wellFormed _ _ => wellFormed.step operation
  · intro current operation wellFormed conserved
    rw [(wellFormed.step operation).conserved_iff_balanced]
    exact balanced_step_iff wellFormed (wellFormed.conserved_iff_balanced.mp conserved) operation
  · exact configured.wellFormed
  · exact configured.wellFormed.conserved_iff_balanced.mpr fun policyId _ =>
      (configured.held policyId).trans (configured.openCost policyId).symm

theorem conserved_of_two_reservations_and_commit :
    Always step Conserved (init.createPolicy samplePolicy)
      [sampleEvaluate 3, sampleEvaluate 1, .commit sampleClock 0] :=
  (always_conserved_iff_along_noSecondRefund (configured_init.createPolicy samplePolicy) _).mpr
    ⟨trivial, trivial, trivial, trivial⟩

/-- Two reservations of cost three and one; the first is committed and then released. The
release is granted and leaves a negative amount held. -/
theorem release_after_commit_not_conserved :
    ¬ ∀ engine operations, Configured engine → Always step Conserved engine operations := by
  intro always
  have conserved := (always (init.createPolicy samplePolicy)
    [sampleEvaluate 3, sampleEvaluate 1, .commit sampleClock 0, .release sampleClock 0]
    (configured_init.createPolicy samplePolicy)).last
  have nonneg := (conserved "team" (by decide)).2
  have negative : (run step (init.createPolicy samplePolicy)
      [sampleEvaluate 3, sampleEvaluate 1, .commit sampleClock 0,
        .release sampleClock 0]).held "team" = -2 := by
    decide +kernel
  rw [negative] at nonneg
  exact absurd nonneg (by norm_num)

/-! ## One settlement for each reservation -/

/-- The reservation a call settles and the outcome it stands for. -/
def Operation.settlement? : Operation → Option (ReservationId × Outcome)
  | .commit _ rid => some (rid, .committed)
  | .rollback _ rid => some (rid, .rolledBack)
  | .release _ rid => some (rid, .released)
  | _ => none

/-- The Boolean a settlement call returns. -/
def answer (engine : BudgetEngineImpl) : Operation → Bool
  | .commit clock rid => (engine.commit clock rid).1
  | .rollback clock rid => (engine.rollback clock rid).1
  | .release clock rid => (engine.release clock rid).1
  | _ => false

def outcomeOf (engine : BudgetEngineImpl) (rid : ReservationId) : Option Outcome :=
  (engine.reservations.get? rid).bind BudgetReservation.outcome

/-- During the run, a call for this reservation and outcome returned `True`. -/
def Succeeded (engine : BudgetEngineImpl) (operations : List Operation) (rid : ReservationId)
    (outcome : Outcome) : Prop :=
  Occurs step (fun current operation =>
    operation.settlement? = some (rid, outcome) ∧ current.answer operation = true)
    engine operations

/-- During the run, a call for this reservation was counted as a commit. -/
def SpendRecorded (engine : BudgetEngineImpl) (operations : List Operation)
    (rid : ReservationId) : Prop :=
  Occurs step (fun current operation =>
    (∃ outcome, operation.settlement? = some (rid, outcome)) ∧
      current.stats.commits < (current.step operation).stats.commits)
    engine operations

/-- The first successful call on a reservation fixes its outcome, every later call on it
is refused and changes nothing, and spend is recorded for the committed reservations:
their commits are counted, and logged where a policy is charged. -/
structure SettlesOnce (engine : BudgetEngineImpl) (operations : List Operation) : Prop where
  terminal : ∀ done rest rid outcome, operations = done ++ rest →
    Succeeded engine done rid outcome → (run step engine done).outcomeOf rid = some outcome
  refused : ∀ done operation rest rid outcome next, operations = done ++ operation :: rest →
    Succeeded engine done rid outcome → operation.settlement? = some (rid, next) →
    (run step engine done).answer operation = false ∧
      (run step engine done).step operation = run step engine done
  recorded : ∀ done rest rid, operations = done ++ rest →
    (SpendRecorded engine done rid ↔ (run step engine done).outcomeOf rid = some .committed)
  logged : ∀ done operation rest rid next reservation, operations = done ++ operation :: rest →
    operation.settlement? = some (rid, next) →
    (run step engine done).reservations.get? rid = some reservation →
    reservation.policyId ≠ "" →
    ∃ time, ((run step engine done).step operation).usageTracker.spendLog =
      (run step engine done).usageTracker.spendLog ++
        if next = .committed ∧ (run step engine done).answer operation = true then
          [(reservation.policyId, reservation.estimatedCost, time)]
        else []

/-- No call of the run releases a reservation that an earlier call committed or rolled
back, and none rolls back a reservation that an earlier call released. -/
def NoSecondSettlement (engine : BudgetEngineImpl) (operations : List Operation) : Prop :=
  ∀ done operation rest rid next outcome, operations = done ++ operation :: rest →
    operation.settlement? = some (rid, next) → Succeeded engine done rid outcome →
    (next = .released → outcome = .released) ∧ (next = .rolledBack → outcome ≠ .released)

def Accepts : Outcome → Option Outcome → Prop
  | .committed, present => present = none
  | .rolledBack, present => present = none ∨ present = some .released
  | .released, present => present ≠ some .released

theorem settlement_cases (wellFormed : WellFormed engine) {operation : Operation} {next : Outcome}
    (settlement : operation.settlement? = some (rid, next)) :
    (∃ clock reservation stats, engine.reservations.get? rid = some reservation ∧
        Accepts next reservation.outcome ∧ engine.answer operation = true ∧
        engine.step operation = { engine.settle clock rid reservation next with stats } ∧
        (engine.stats.commits < stats.commits ↔ next = .committed)) ∨
      ((∀ reservation, engine.reservations.get? rid = some reservation →
          ¬ Accepts next reservation.outcome) ∧
        engine.answer operation = false ∧ engine.step operation = engine) := by
  cases operation with
  | commit clock rid =>
    cases settlement
    rcases commit_cases engine clock rid with
      ⟨reservation, stats, present, isOpen, result, counted⟩ | ⟨refused, result⟩
    · refine .inl ⟨clock, reservation, stats, present, isOpen, ?_, ?_, ?_⟩
      · simp [answer, result]
      · simp [step, result]
      · simp [counted]
    · exact .inr ⟨refused, by simp [answer, result], by simp [step, result]⟩
  | rollback clock rid =>
    cases settlement
    rcases rollback_cases engine clock rid with
      ⟨reservation, stats, present, accepted, result, counted⟩ | ⟨refused, result⟩
    · refine .inl ⟨clock, reservation, stats, present, accepted, ?_, ?_, ?_⟩
      · simp [answer, result]
      · simp [step, result]
      · simp [counted]
    · refine .inr ⟨?_, by simp [answer, result], by simp [step, result]⟩
      intro reservation present accepted
      rcases refused reservation present with outcome | outcome
      · simp [Accepts, outcome] at accepted
      · simp [Accepts, outcome] at accepted
  | release clock rid =>
    cases settlement
    rcases release_cases engine clock rid with
      ⟨reservation, present, notReleased, result⟩ | ⟨refused, result⟩
    · have accepted : reservation.outcome ≠ some .released := by
        intro outcome
        have released := (wellFormed.exclusive rid reservation present).released_iff.mpr outcome
        simp [notReleased] at released
      refine .inl ⟨clock, reservation, engine.stats, present, accepted, ?_, ?_, ?_⟩
      · simp [answer, result]
      · simp only [step, result]
        rfl
      · simp
    · refine .inr ⟨?_, by simp [answer, result], by simp [step, result]⟩
      intro reservation present accepted
      exact accepted ((wellFormed.exclusive rid reservation present).released_iff.mp
        (refused reservation present))
  | _ => cases settlement

section

variable (engine : BudgetEngineImpl) (clock : Clock) (rid : ReservationId)
  (reservation : BudgetReservation) (outcome : Outcome)

theorem spendLog_settle :
    (engine.settle clock rid reservation outcome).usageTracker.spendLog =
      engine.usageTracker.spendLog ++
        if outcome = .committed ∧ reservation.policyId ≠ "" then
          [(reservation.policyId, reservation.estimatedCost, clock.now)]
        else [] := by
  have untracked : (engine.untrack clock reservation).spendLog =
      engine.usageTracker.spendLog := by
    unfold untrack
    split
    · rfl
    · exact UsageTracker.spendLog_removeReservation _ _ _ _
  cases outcome with
  | committed =>
    unfold settle
    dsimp only
    split
    · rename_i noPolicy
      simp [noPolicy]
    · rename_i policy
      simp [policy, untracked]
  | rolledBack | released => simpa [settle] using untracked

theorem outcomeOf_settle (other : ReservationId) :
    (engine.settle clock rid reservation outcome).outcomeOf other =
      if other = rid then some outcome else engine.outcomeOf other := by
  unfold outcomeOf settle
  rw [Dict.get?_set]
  split
  · simp
  · rfl

end

theorem outcomeOf_hold (wellFormed : WellFormed engine) (clock : Clock)
    (isOpen : reservation.outcome = none) (rid : ReservationId) :
    (engine.hold clock reservation).outcomeOf rid = engine.outcomeOf rid := by
  unfold outcomeOf hold
  rw [Dict.get?_set]
  split
  · rename_i same
    simp [same, wellFormed.lookup_next, isOpen]
  · rfl

/-- A later state of the engine in which reservations were at most expired. -/
structure OnlyExpired (before after : BudgetEngineImpl) : Prop where
  wellFormed : WellFormed after
  kept : ∀ rid outcome, before.outcomeOf rid = some outcome → after.outcomeOf rid = some outcome
  fresh : ∀ rid outcome, after.outcomeOf rid = some outcome →
    before.outcomeOf rid = some outcome ∨ outcome = .released

theorem OnlyExpired.refl (wellFormed : WellFormed engine) : OnlyExpired engine engine :=
  ⟨wellFormed, fun _ _ outcome => outcome, fun _ _ outcome => .inl outcome⟩

theorem OnlyExpired.hold {before after : BudgetEngineImpl} (later : OnlyExpired before after)
    (clock : Clock) (isOpen : reservation.outcome = none)
    (nonneg : reservation.policyId ≠ "" → 0 ≤ reservation.estimatedCost) :
    OnlyExpired before (after.hold clock reservation) := by
  constructor
  · exact later.wellFormed.hold clock isOpen nonneg
  · intro rid outcome stored
    rw [outcomeOf_hold later.wellFormed clock isOpen]
    exact later.kept rid outcome stored
  · intro rid outcome stored
    rw [outcomeOf_hold later.wellFormed clock isOpen] at stored
    exact later.fresh rid outcome stored

theorem OnlyExpired.cleanup (wellFormed : WellFormed engine) (clock : Clock) :
    OnlyExpired engine (engine.cleanupExpiredReservations clock) := by
  apply cleanup_preserves _ (.refl wellFormed)
  intro current rid reservation later present isOpen
  have openBefore : current.outcomeOf rid = none := by simp [outcomeOf, present, isOpen]
  constructor
  · exact later.wellFormed.settle clock .released present
  · intro other outcome stored
    have now := later.kept other outcome stored
    rw [outcomeOf_settle]
    split
    · rename_i same
      rw [same, openBefore] at now
      cases now
    · exact now
  · intro other outcome stored
    rw [outcomeOf_settle] at stored
    split at stored
    · exact .inr (Option.some.inj stored).symm
    · exact later.fresh other outcome stored

theorem OnlyExpired.step (wellFormed : WellFormed engine) {operation : Operation}
    (noSettlement : operation.settlement? = none) : OnlyExpired engine (engine.step operation) := by
  cases operation with
  | evaluate clock evaluationTimeMs candidates request =>
    exact evaluate_preserves_of_hold evaluationTimeMs
      (fun _ stats later => ⟨later.wellFormed.restat stats, later.kept, later.fresh⟩)
      (fun _ _ later isOpen nonneg => later.hold clock isOpen nonneg)
      (.cleanup wellFormed clock)
  | reserve clock provider model estimatedCost maxCost scope scopeId =>
    exact (OnlyExpired.cleanup wellFormed clock).hold clock rfl fun policy => absurd rfl policy
  | cleanup clock => exact .cleanup wellFormed clock
  | _ => cases noSettlement

theorem NoSecondSettlement.of_append {done rest : List Operation}
    (allowed : NoSecondSettlement engine (done ++ rest)) : NoSecondSettlement engine done := by
  intro earlier operation later rid next outcome split
  apply allowed earlier operation (later ++ rest)
  rw [split, List.append_assoc, List.cons_append]

theorem NoSecondSettlement.not_accepts {next outcome : Outcome}
    (released : next = .released → outcome = .released)
    (rolledBack : next = .rolledBack → outcome ≠ .released) : ¬ Accepts next (some outcome) := by
  cases next with
  | committed => simp [Accepts]
  | rolledBack => simpa [Accepts] using rolledBack
  | released => simpa [Accepts] using released

theorem wellFormed_run (configured : Configured engine) (operations : List Operation) :
    WellFormed (run step engine operations) :=
  run_invariant WellFormed (fun _ operation wellFormed => wellFormed.step operation)
    configured.wellFormed operations

theorem NoSecondSettlement.history (configured : Configured engine) {operations : List Operation}
    (allowed : NoSecondSettlement engine operations) :
    (∀ rid outcome, Succeeded engine operations rid outcome →
        (run step engine operations).outcomeOf rid = some outcome) ∧
      (∀ rid, (run step engine operations).outcomeOf rid = some .committed →
        Succeeded engine operations rid .committed) := by
  induction operations using List.reverseRecOn with
  | nil =>
    constructor
    · exact fun _ _ never => never.elim
    · intro rid stored
      simp [outcomeOf, configured.noReservations] at stored
  | append_singleton done operation ih =>
    rcases ih allowed.of_append with ⟨stored, committed⟩
    have wellFormed := wellFormed_run configured done
    simp only [Succeeded, occurs_concat, run_append, run_cons, run_nil] at stored committed ⊢
    cases settlement : operation.settlement? with
    | none =>
      have later := OnlyExpired.step wellFormed settlement
      constructor
      · rintro rid outcome (earlier | ⟨now, _⟩)
        · exact later.kept rid outcome (stored rid outcome earlier)
        · cases now
      · intro rid outcome
        rcases later.fresh rid .committed outcome with before | impossible
        · exact .inl (committed rid before)
        · cases impossible
    | some settles =>
      rcases settles with ⟨rid, next⟩
      rcases settlement_cases wellFormed settlement with
        ⟨clock, reservation, stats, present, accepted, granted, result, _⟩ |
        ⟨_, refused, result⟩
      · have after : ∀ other, ((run step engine done).step operation).outcomeOf other =
            if other = rid then some next else (run step engine done).outcomeOf other := by
          intro other
          rw [result]
          exact outcomeOf_settle _ clock rid reservation next other
        constructor
        · rintro other outcome (earlier | ⟨now, _⟩)
          · rw [after]
            split
            · rename_i same
              subst same
              have before := stored other outcome earlier
              have guarded := allowed done operation [] other next outcome rfl settlement earlier
              simp only [outcomeOf, present, Option.bind_some] at before
              rw [before] at accepted
              exact absurd accepted (not_accepts guarded.1 guarded.2)
            · exact stored other outcome earlier
          · cases now
            rw [after, if_pos rfl]
        · intro other outcome
          rw [after] at outcome
          split at outcome
          · rename_i same
            subst same
            cases outcome
            exact .inr ⟨rfl, granted⟩
          · exact .inl (committed other outcome)
      · rw [result]
        constructor
        · rintro other outcome (earlier | ⟨_, now⟩)
          · exact stored other outcome earlier
          · rw [refused] at now
            cases now
        · exact fun other outcome => .inl (committed other outcome)

theorem spendRecorded_iff_succeeded (configured : Configured engine) (operations : List Operation)
    (rid : ReservationId) :
    SpendRecorded engine operations rid ↔ Succeeded engine operations rid .committed := by
  apply occurs_iff_of_invariant WellFormed
    (fun _ operation wellFormed => wellFormed.step operation) _ configured.wellFormed
  intro current operation wellFormed
  constructor
  · rintro ⟨⟨outcome, settlement⟩, counted⟩
    rcases settlement_cases wellFormed settlement with
      ⟨clock, reservation, stats, _, _, granted, result, commits⟩ | ⟨_, _, result⟩
    · rw [result] at counted
      exact ⟨commits.mp counted ▸ settlement, granted⟩
    · rw [result] at counted
      exact absurd counted (Nat.lt_irrefl _)
  · rintro ⟨settlement, granted⟩
    refine ⟨⟨.committed, settlement⟩, ?_⟩
    rcases settlement_cases wellFormed settlement with
      ⟨clock, reservation, stats, _, _, _, result, commits⟩ | ⟨_, refused, _⟩
    · rw [result]
      exact commits.mpr rfl
    · rw [granted] at refused
      cases refused

/-- From a configured engine, every reservation settles at most once during a run exactly
if no call of the run settles a reservation against an earlier outcome. -/
theorem settlesOnce_iff_noSecondSettlement {engine : BudgetEngineImpl}
    (configured : Configured engine) (operations : List Operation) :
    SettlesOnce engine operations ↔ NoSecondSettlement engine operations := by
  constructor
  · intro once done operation rest rid next outcome split settlement succeeded
    have refused := (once.refused done operation rest rid outcome next split succeeded settlement).1
    have stored := once.terminal done (operation :: rest) rid outcome split succeeded
    rcases settlement_cases (wellFormed_run configured done) settlement with
      ⟨_, _, _, _, _, granted, _⟩ | ⟨rejects, _⟩
    · rw [granted] at refused
      cases refused
    · obtain ⟨reservation, present, recorded⟩ := Option.bind_eq_some_iff.mp stored
      have notAccepted := rejects reservation present
      rw [recorded] at notAccepted
      constructor
      · rintro rfl
        simpa [Accepts] using notAccepted
      · rintro rfl
        simpa [Accepts] using notAccepted
  · intro allowed
    constructor
    · rintro done rest rid outcome rfl succeeded
      exact (NoSecondSettlement.history configured allowed.of_append).1 rid outcome succeeded
    · rintro done operation rest rid outcome next rfl succeeded settlement
      have stored :=
        (NoSecondSettlement.history configured allowed.of_append).1 rid outcome succeeded
      have guarded := allowed done operation rest rid next outcome rfl settlement succeeded
      rcases settlement_cases (wellFormed_run configured done) settlement with
        ⟨_, reservation, _, present, accepted, _⟩ | ⟨_, refused, result⟩
      · simp only [outcomeOf, present, Option.bind_some] at stored
        rw [stored] at accepted
        exact absurd accepted (NoSecondSettlement.not_accepts guarded.1 guarded.2)
      · exact ⟨refused, result⟩
    · rintro done rest rid rfl
      rw [spendRecorded_iff_succeeded configured]
      have history := NoSecondSettlement.history configured allowed.of_append
      exact ⟨history.1 rid .committed, history.2 rid⟩
    · rintro done operation rest rid next reservation rfl settlement present policy
      rcases settlement_cases (wellFormed_run configured done) settlement with
        ⟨clock, stored, _, storedPresent, _, granted, result, _⟩ | ⟨_, refused, result⟩
      · cases Option.some.inj (present.symm.trans storedPresent)
        refine ⟨clock.now, ?_⟩
        rw [result]
        simpa [granted, policy] using
          spendLog_settle (run step engine done) clock rid reservation next
      · exact ⟨0, by simp [result, refused]⟩

theorem settlesOnce_of_commit :
    SettlesOnce (init.createPolicy samplePolicy) [sampleEvaluate 1, .commit sampleClock 0] := by
  apply (settlesOnce_iff_noSecondSettlement (configured_init.createPolicy samplePolicy) _).mpr
  intro done operation rest rid next outcome split settlement _
  have operationMem : operation ∈ [sampleEvaluate 1, .commit sampleClock 0] := by
    rw [split]
    simp
  rcases List.mem_pair.mp operationMem with rfl | rfl
  · cases settlement
  · cases settlement
    simp

/-- A committed reservation is released: the call returns `True`. -/
theorem release_after_commit_settles_twice :
    ¬ ∀ engine operations, Configured engine → SettlesOnce engine operations := by
  intro always
  have once := always (init.createPolicy samplePolicy)
    [sampleEvaluate 1, .commit sampleClock 0, .release sampleClock 0]
    (configured_init.createPolicy samplePolicy)
  have committed : Succeeded (init.createPolicy samplePolicy)
      [sampleEvaluate 1, .commit sampleClock 0] 0 .committed :=
    .inr (.inl ⟨rfl, by decide +kernel⟩)
  have refused := (once.refused [sampleEvaluate 1, .commit sampleClock 0]
    (.release sampleClock 0) [] 0 .committed .released rfl committed rfl).1
  have granted : (run step (init.createPolicy samplePolicy)
      [sampleEvaluate 1, .commit sampleClock 0]).answer (.release sampleClock 0) = true := by
    decide +kernel
  rw [granted] at refused
  cases refused

end AgenticOS.OmniRoute.BudgetEngineImpl
