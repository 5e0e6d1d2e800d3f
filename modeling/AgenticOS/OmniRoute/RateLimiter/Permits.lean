import AgenticOS.OmniRoute.RateLimiter
import AgenticOS.Transition.Run

/-!
# Permits

The permit manager of the rate limiter keeps one record for each reservation. A record is
never deleted: it is replaced by one with another status, and every change is audited. What an
operation does to the records is said once, by `Changes`; the life cycle and the counts of the
snapshot follow from it.

An operation reads the clock once. Reservation ids are drawn from a counter; the metadata of a
record, which no operation reads, is left out.
-/

namespace AgenticOS.OmniRoute

open AgenticOS.Transition

inductive PermitStatus
  | reserved | granted | committed | released | rolledBack | expired
  deriving DecidableEq

structure PermitReservation where
  id : ReservationId
  policyId : String := ""
  scope : QuotaScope := .global
  scopeId : String := ""
  provider : String := ""
  model : String := ""
  count : ℤ := 1
  status : PermitStatus := .reserved
  ttlSeconds : ℚ := 30
  createdAt : Timestamp
  expiresAt : Timestamp
  committedAt : Option Timestamp := none
  releasedAt : Option Timestamp := none

structure PermitGrant where
  reservationId : ReservationId
  policyId : String := ""
  scope : QuotaScope := .global
  scopeId : String := ""
  provider : String := ""
  model : String := ""
  count : ℤ := 1
  granted : Bool := false

structure PermitRelease where
  reservationId : ReservationId
  policyId : String := ""
  count : ℤ := 1
  released : Bool := false

/-- An entry of the audit log; its action is named like the status that it leads to. -/
structure PermitAuditRecord where
  action : PermitStatus
  policyId : String := ""
  scope : QuotaScope := .global
  scopeId : String := ""
  provider : String := ""
  model : String := ""
  count : ℤ := 0
  reason : String := ""

/-- The numbers of permits in each status. -/
structure PermitSnapshot where
  totalReservations : Nat := 0
  activeReservations : Nat := 0
  grantedCount : Nat := 0
  releasedCount : Nat := 0
  rolledBackCount : Nat := 0
  expiredCount : Nat := 0
  pendingCount : Nat := 0

structure PermitManager where
  reservations : Dict ReservationId PermitReservation := Dict.empty
  auditLog : List PermitAuditRecord := []
  nextReservation : ReservationId := 0

namespace PermitManager

/-- The length of the audit log: from here on the oldest entry is dropped. -/
def maxRecords : Nat := 10000

variable (manager : PermitManager)

def audit (record : PermitAuditRecord) : PermitManager :=
  let log := manager.auditLog ++ [record]
  { manager with auditLog := log.drop (log.length - maxRecords) }

def replace (rid : ReservationId) (reservation : PermitReservation)
    (count : ℤ) (reason : String) : PermitManager :=
  { manager with reservations := manager.reservations.set rid reservation }.audit
    { action := reservation.status
      policyId := reservation.policyId
      scope := reservation.scope
      scopeId := reservation.scopeId
      provider := reservation.provider
      model := reservation.model
      count
      reason }

def reserve (now : Timestamp) (policyId : String) (scope : QuotaScope)
    (scopeId provider model : String) (count : ℤ) (ttlSeconds : ℚ) :
    PermitReservation × PermitManager :=
  let reservation : PermitReservation :=
    { id := manager.nextReservation
      policyId, scope, scopeId, provider, model, count
      status := .reserved
      ttlSeconds
      createdAt := now
      expiresAt := now + ttlSeconds }
  (reservation,
    { manager with nextReservation := manager.nextReservation + 1 }.replace reservation.id
      reservation count "reservation created")

def expire (rid : ReservationId) : PermitManager :=
  match manager.reservations.get? rid with
  | none => manager
  | some reservation =>
    manager.replace rid { reservation with status := .expired } reservation.count "ttl expired"

def grant (now : Timestamp) (rid : ReservationId) : Option PermitGrant × PermitManager :=
  match manager.reservations.get? rid with
  | none => (none, manager)
  | some reservation =>
    if reservation.status ≠ .reserved then (none, manager)
    else if reservation.expiresAt < now then (none, manager.expire rid)
    else
      (some
        { reservationId := rid
          policyId := reservation.policyId
          scope := reservation.scope
          scopeId := reservation.scopeId
          provider := reservation.provider
          model := reservation.model
          count := reservation.count
          granted := true },
        manager.replace rid { reservation with status := .granted, committedAt := some now }
          reservation.count "permit granted")

def release (now : Timestamp) (rid : ReservationId) (count : ℤ) :
    Option PermitRelease × PermitManager :=
  match manager.reservations.get? rid with
  | none => (none, manager)
  | some reservation =>
    if reservation.status ≠ .granted ∧ reservation.status ≠ .committed then (none, manager)
    else
      (some { reservationId := rid, policyId := reservation.policyId, count, released := true },
        manager.replace rid { reservation with status := .released, releasedAt := some now }
          count "permit released")

def rollback (rid : ReservationId) : Bool × PermitManager :=
  match manager.reservations.get? rid with
  | none => (false, manager)
  | some reservation =>
    if reservation.status ≠ .reserved ∧ reservation.status ≠ .granted then (false, manager)
    else
      (true,
        manager.replace rid { reservation with status := .rolledBack } reservation.count
          "permit rolled back")

/-- One turn of the loop of `expire_stale`: the record is the one from before the loop. -/
def expireTurn (now : Timestamp) (state : Nat × PermitManager)
    (entry : ReservationId × PermitReservation) : Nat × PermitManager :=
  if entry.2.status = .reserved ∧ entry.2.expiresAt < now then
    (state.1 + 1, state.2.expire entry.1)
  else state

def expireStale (now : Timestamp) : Nat × PermitManager :=
  manager.reservations.entries.foldl (expireTurn now) (0, manager)

def countStatus (asked : PermitStatus → Bool) : Nat :=
  manager.reservations.values.countP fun reservation => asked reservation.status

def snapshot : PermitSnapshot where
  totalReservations := manager.reservations.size
  activeReservations := manager.countStatus (· = .reserved)
  grantedCount := manager.countStatus (· = .granted)
  releasedCount := manager.countStatus (· = .released)
  rolledBackCount := manager.countStatus (· = .rolledBack)
  expiredCount := manager.countStatus (· = .expired)
  pendingCount := manager.countStatus fun status => status = .reserved ∨ status = .granted

inductive Operation
  | reserve (policyId : String) (scope : QuotaScope) (scopeId provider model : String)
      (count : ℤ) (ttlSeconds : ℚ)
  | grant (rid : ReservationId)
  | release (rid : ReservationId) (count : ℤ)
  | rollback (rid : ReservationId)
  | expireStale

/-- Perform one operation at a time. -/
def step : Timestamp × Operation → PermitManager
  | (now, .reserve policyId scope scopeId provider model count ttlSeconds) =>
    (manager.reserve now policyId scope scopeId provider model count ttlSeconds).2
  | (now, .grant rid) => (manager.grant now rid).2
  | (now, .release rid count) => (manager.release now rid count).2
  | (_, .rollback rid) => (manager.rollback rid).2
  | (now, .expireStale) => (manager.expireStale now).2

/-! ## What an operation does to the records -/

inductive Moves : PermitStatus → PermitStatus → Prop
  | grant : Moves .reserved .granted
  | release : Moves .granted .released
  | rollbackReserved : Moves .reserved .rolledBack
  | rollbackGranted : Moves .granted .rolledBack
  | expire : Moves .reserved .expired

theorem Moves.ne_committed {before after : PermitStatus} (moves : Moves before after) :
    after ≠ .committed := by
  cases moves <;> nofun

/-- A record may become another one at a time: it stays, or its status moves, and it becomes
granted only in time. -/
structure Becomes (now : Timestamp) (before after : PermitReservation) : Prop where
  moves : before.status = after.status ∨ Moves before.status after.status
  expiresAt : after.expiresAt = before.expiresAt
  inTime : before.status ≠ .granted → after.status = .granted → now ≤ before.expiresAt

/-- What an operation may do to the records: none is lost, and a new one is reserved under a
new id. -/
structure Changes (now : Timestamp) (before after : PermitManager) : Prop where
  kept : ∀ rid reservation, before.reservations.get? rid = some reservation →
    ∃ changed, after.reservations.get? rid = some changed ∧ Becomes now reservation changed
  fresh : ∀ rid reservation, before.reservations.get? rid = none →
    after.reservations.get? rid = some reservation →
    reservation.status = .reserved ∧ rid < after.nextReservation
  next : before.nextReservation ≤ after.nextReservation

section

variable {manager : PermitManager} {now : Timestamp} {rid : ReservationId}
  {reservation changed : PermitReservation}

theorem Becomes.refl (now : Timestamp) (reservation : PermitReservation) :
    Becomes now reservation reservation :=
  ⟨.inl rfl, rfl, fun notGranted granted => absurd granted notGranted⟩

theorem Changes.refl (now : Timestamp) (manager : PermitManager) : Changes now manager manager where
  kept _ reservation found := ⟨reservation, found, .refl now reservation⟩
  fresh _ _ absent found := by cases absent.symm.trans found
  next := Nat.le_refl _

section

variable (manager : PermitManager) (rid : ReservationId)

@[simp]
theorem get?_replace (other : ReservationId) (reservation : PermitReservation) (count : ℤ)
    (reason : String) : (manager.replace rid reservation count reason).reservations.get? other =
      if other = rid then some reservation else manager.reservations.get? other :=
  Dict.get?_set manager.reservations rid other reservation

@[simp]
theorem nextReservation_replace (reservation : PermitReservation) (count : ℤ) (reason : String) :
    (manager.replace rid reservation count reason).nextReservation = manager.nextReservation :=
  rfl

end

theorem Changes.replace (found : manager.reservations.get? rid = some reservation)
    (becomes : Becomes now reservation changed) (count : ℤ) (reason : String) :
    Changes now manager (manager.replace rid changed count reason) where
  kept other before present := by
    rw [get?_replace]
    split
    next same =>
      subst same
      cases found.symm.trans present
      exact ⟨changed, rfl, becomes⟩
    next => exact ⟨before, present, .refl now before⟩
  fresh other after absent present := by
    rw [get?_replace] at present
    split at present
    next same =>
      subst same
      cases absent.symm.trans found
    next => cases absent.symm.trans present
  next := Nat.le_refl _

theorem changes_reserve (free : manager.reservations.get? manager.nextReservation = none)
    (now : Timestamp) (policyId : String) (scope : QuotaScope) (scopeId provider model : String)
    (count : ℤ) (ttlSeconds : ℚ) : Changes now manager
      (manager.reserve now policyId scope scopeId provider model count ttlSeconds).2 where
  kept other before present := by
    unfold reserve
    rw [get?_replace]
    split
    next same =>
      subst same
      cases free.symm.trans present
    next => exact ⟨before, present, .refl now before⟩
  fresh other after absent present := by
    unfold reserve at present
    rw [get?_replace] at present
    split at present
    next same =>
      cases present
      exact ⟨rfl, same ▸ Nat.lt_succ_self _⟩
    next => cases absent.symm.trans present
  next := Nat.le_succ _

theorem becomes_expired (reserved : reservation.status = .reserved) :
    Becomes now reservation { reservation with status := .expired } :=
  ⟨.inr (reserved ▸ .expire), rfl, fun _ granted => nomatch granted⟩

theorem expire_of_found (found : manager.reservations.get? rid = some reservation) :
    manager.expire rid = manager.replace rid { reservation with status := .expired }
      reservation.count "ttl expired" := by
  unfold expire
  rw [found]

section

variable (manager : PermitManager) (now : Timestamp) (rid : ReservationId)

theorem changes_grant : Changes now manager (manager.grant now rid).2 := by
  unfold grant
  cases found : manager.reservations.get? rid with
  | none => exact .refl now manager
  | some reservation =>
    dsimp only
    split
    · exact .refl now manager
    next reserved =>
      rw [not_not] at reserved
      split
      next =>
        rw [expire_of_found found]
        exact .replace found (becomes_expired reserved) _ _
      next early =>
        apply Changes.replace found
        exact ⟨.inr (reserved ▸ .grant), rfl, fun _ _ => le_of_not_gt early⟩

theorem changes_release (count : ℤ)
    (uncommitted : ∀ reservation, manager.reservations.get? rid = some reservation →
      reservation.status ≠ .committed) : Changes now manager (manager.release now rid count).2 := by
  unfold release
  cases found : manager.reservations.get? rid with
  | none => exact .refl now manager
  | some reservation =>
    dsimp only
    split
    · exact .refl now manager
    next outstanding =>
      have granted : reservation.status = .granted := by
        by_contra notGranted
        exact outstanding ⟨notGranted, uncommitted reservation found⟩
      apply Changes.replace found
      exact ⟨.inr (granted ▸ .release), rfl, fun _ again => nomatch again⟩

theorem changes_rollback : Changes now manager (manager.rollback rid).2 := by
  unfold rollback
  cases found : manager.reservations.get? rid with
  | none => exact .refl now manager
  | some reservation =>
    dsimp only
    split
    · exact .refl now manager
    next outstanding =>
      have moves : Moves reservation.status .rolledBack := by
        by_cases reserved : reservation.status = .reserved
        · exact reserved ▸ .rollbackReserved
        · have granted : reservation.status = .granted := by
            by_contra notGranted
            exact outstanding ⟨reserved, notGranted⟩
          exact granted ▸ .rollbackGranted
      apply Changes.replace found
      exact ⟨.inr moves, rfl, fun _ again => nomatch again⟩

end

/-- What the loop over stale records has made of the manager. -/
structure ExpiredFrom (before after : PermitManager) : Prop where
  records : ∀ rid, after.reservations.get? rid = before.reservations.get? rid ∨
    ∃ reservation, before.reservations.get? rid = some reservation ∧
      reservation.status = .reserved ∧
      after.reservations.get? rid = some { reservation with status := .expired }
  next : after.nextReservation = before.nextReservation

section

variable {before after : PermitManager} (expired : ExpiredFrom before after)
include expired

theorem ExpiredFrom.changes (now : Timestamp) : Changes now before after where
  kept rid reservation found := by
    rcases expired.records rid with same | ⟨other, present, reserved, changed⟩
    · exact ⟨reservation, same.trans found, .refl now reservation⟩
    · cases found.symm.trans present
      exact ⟨_, changed, becomes_expired reserved⟩
  fresh rid reservation absent found := by
    rcases expired.records rid with same | ⟨other, present, -, -⟩
    · cases (same.symm.trans found).symm.trans absent
    · cases absent.symm.trans present
  next := Nat.le_of_eq expired.next.symm

theorem ExpiredFrom.expire (present : before.reservations.get? rid = some reservation)
    (reserved : reservation.status = .reserved) : ExpiredFrom before (after.expire rid) := by
  have replaced : after.expire rid =
      after.replace rid { reservation with status := .expired } reservation.count
        "ttl expired" := by
    rcases expired.records rid with same | ⟨other, found, -, changed⟩
    · exact expire_of_found (same.trans present)
    · cases present.symm.trans found
      rw [expire_of_found changed]
  rw [replaced]
  refine ⟨fun other => ?_, expired.next⟩
  rw [get?_replace]
  split
  next here =>
    subst here
    exact .inr ⟨reservation, present, reserved, rfl⟩
  next => exact expired.records other

end

theorem expiredFrom_expireStale (manager : PermitManager) (now : Timestamp) :
    ExpiredFrom manager (manager.expireStale now).2 := by
  have folded : ∀ (entries : List (ReservationId × PermitReservation))
      (state : Nat × PermitManager),
      (∀ entry ∈ entries, manager.reservations.get? entry.1 = some entry.2) →
      ExpiredFrom manager state.2 →
      ExpiredFrom manager (entries.foldl (expireTurn now) state).2 := by
    intro entries
    induction entries with
    | nil => exact fun _ _ expired => expired
    | cons entry entries ih =>
      intro state present expired
      rw [List.forall_mem_cons] at present
      refine ih _ present.2 ?_
      unfold expireTurn
      split
      next stale => exact expired.expire present.1 stale.1
      next => exact expired
  exact folded _ _ (fun _ member => Dict.get?_eq_some_iff.mpr member) ⟨fun _ => .inl rfl, rfl⟩

end

/-! ## Runs -/

/-- Ids are not used ahead, and no permit is committed: no operation does so. -/
structure Sound (manager : PermitManager) : Prop where
  fresh : ∀ rid reservation, manager.reservations.get? rid = some reservation →
    rid < manager.nextReservation
  uncommitted : ∀ rid reservation, manager.reservations.get? rid = some reservation →
    reservation.status ≠ .committed

theorem sound_new : Sound {} where
  fresh _ _ found := nomatch found
  uncommitted _ _ found := nomatch found

section

variable {manager after : PermitManager} {now : Timestamp}

theorem Sound.free (sound : manager.Sound) :
    manager.reservations.get? manager.nextReservation = none := by
  cases found : manager.reservations.get? manager.nextReservation with
  | none => rfl
  | some reservation => exact absurd (sound.fresh _ _ found) (Nat.lt_irrefl _)

theorem Sound.step_changes (sound : manager.Sound) (now : Timestamp) (operation : Operation) :
    Changes now manager (manager.step (now, operation)) := by
  cases operation with
  | reserve policyId scope scopeId provider model count ttlSeconds =>
    exact changes_reserve sound.free now policyId scope scopeId provider model count ttlSeconds
  | grant rid => exact changes_grant manager now rid
  | release rid count => exact changes_release manager now rid count (sound.uncommitted rid)
  | rollback rid => exact changes_rollback manager now rid
  | expireStale => exact (expiredFrom_expireStale manager now).changes now

theorem Sound.of_changes (sound : manager.Sound) (changes : Changes now manager after) :
    after.Sound := by
  constructor
  · intro rid reservation found
    cases before : manager.reservations.get? rid with
    | none => exact (changes.fresh rid reservation before found).2
    | some old => exact (sound.fresh rid old before).trans_le changes.next
  · intro rid reservation found
    cases before : manager.reservations.get? rid with
    | none =>
      rw [(changes.fresh rid reservation before found).1]
      nofun
    | some old =>
      obtain ⟨changed, present, becomes⟩ := changes.kept rid old before
      cases found.symm.trans present
      have uncommitted := sound.uncommitted rid old before
      rcases becomes.moves with same | moves
      · exact same ▸ uncommitted
      · exact moves.ne_committed

theorem sound_run (operations : List (Timestamp × Operation)) :
    (run step ({} : PermitManager) operations).Sound :=
  run_invariant Sound (fun _ operation sound =>
    sound.of_changes (sound.step_changes operation.1 operation.2)) sound_new operations

theorem inTime_of_grant {rid : ReservationId} {answer : PermitGrant}
    (granted : (manager.grant now rid).1 = some answer) :
    ∃ reservation, manager.reservations.get? rid = some reservation ∧
      reservation.status = .reserved ∧ now ≤ reservation.expiresAt := by
  unfold grant at granted
  cases found : manager.reservations.get? rid with
  | none =>
    rw [found] at granted
    cases granted
  | some reservation =>
    rw [found] at granted
    dsimp only at granted
    split at granted
    · cases granted
    next reserved =>
      split at granted
      · cases granted
      next early => exact ⟨reservation, rfl, not_not.mp reserved, le_of_not_gt early⟩

theorem Sound.snapshot_total (sound : manager.Sound) :
    manager.snapshot.activeReservations + manager.snapshot.grantedCount +
      manager.snapshot.releasedCount + manager.snapshot.rolledBackCount +
      manager.snapshot.expiredCount = manager.snapshot.totalReservations := by
  have counted : ∀ reservations : List PermitReservation,
      (∀ reservation ∈ reservations, reservation.status ≠ .committed) →
      (reservations.countP fun reservation => reservation.status = .reserved) +
        (reservations.countP fun reservation => reservation.status = .granted) +
        (reservations.countP fun reservation => reservation.status = .released) +
        (reservations.countP fun reservation => reservation.status = .rolledBack) +
        (reservations.countP fun reservation => reservation.status = .expired) =
        reservations.length := by
    intro reservations
    induction reservations with
    | nil => exact fun _ => rfl
    | cons reservation reservations ih =>
      intro uncommitted
      rw [List.forall_mem_cons] at uncommitted
      have rest := ih uncommitted.2
      simp only [List.countP_cons, List.length_cons]
      cases status : reservation.status with
      | committed => exact absurd status uncommitted.1
      | _ =>
        simp
        omega
  refine (counted manager.reservations.values fun reservation member => ?_).trans
    (List.length_map ..)
  obtain ⟨rid, found⟩ := Dict.mem_values_iff.mp member
  exact sound.uncommitted rid reservation found

/-- The life cycle of permits: in every run of operations on a new manager, whatever the clock
readings, each operation moves permits along their life cycle and grants none that has expired,
and the counts of the snapshot add up. -/
theorem permits_run (operations : List (Timestamp × Operation)) :
    (∀ done now operation, done ++ [(now, operation)] <+: operations →
      Changes now (run step ({} : PermitManager) done)
        (run step ({} : PermitManager) (done ++ [(now, operation)]))) ∧
    (∀ done now rid answer, done <+: operations →
      ((run step ({} : PermitManager) done).grant now rid).1 = some answer →
      ∃ reservation, (run step ({} : PermitManager) done).reservations.get? rid =
        some reservation ∧ reservation.status = .reserved ∧ now ≤ reservation.expiresAt) ∧
    Always step (fun manager =>
      manager.snapshot.activeReservations + manager.snapshot.grantedCount +
        manager.snapshot.releasedCount + manager.snapshot.rolledBackCount +
        manager.snapshot.expiredCount = manager.snapshot.totalReservations)
      ({} : PermitManager) operations := by
  refine ⟨fun done now operation _ => ?_, fun done now rid answer _ granted => ?_, fun done _ => ?_⟩
  · rw [run_append]
    exact (sound_run done).step_changes now operation
  · exact inTime_of_grant granted
  · exact (sound_run done).snapshot_total

end

end PermitManager

end AgenticOS.OmniRoute
