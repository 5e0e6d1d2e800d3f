import AgenticOS.Data.SlidingLog
import AgenticOS.OmniRoute.RateLimiter.Policies

/-!
# The limit of a window

A policy keeps one sliding window for each of the known durations, and asks the window of one
minute whatever duration it is configured with. So the limit holds for the durations up to a
minute, as long as the clock is not set back. A fixed window lets through twice as much at most.
-/

namespace AgenticOS.OmniRoute

open SlidingLog List PolicyRuntimeState

variable {policy : RateLimitPolicy} {times : List Timestamp}

theorem RateSlidingWindow.ask_eq (window : RateSlidingWindow) (now : Timestamp) : window.ask now =
      ((offer window.maxDuration window.maxRequests window.entries now).1, { window with
          entries :=
            (offer window.maxDuration window.maxRequests window.entries now).2 }) := by
  by_cases full : window.maxRequests ≤ (window.expire now).entries.length
  · have exceeded : (window.expire now).isExceeded = true := decide_eq_true full
    rw [offer_of_full full]
    exact if_pos exceeded
  · have fits : ¬ (window.expire now).isExceeded = true := fun exceeded =>
      full (of_decide_eq_true exceeded)
    rw [offer_of_room (not_le.mp full)]
    exact if_neg fits

namespace RateLimiterEngineImpl

def approvedTimestamps : PolicyEvaluation → List (Instant × PermitRequest) → List Timestamp
  | _, [] => []
  | evaluation, (instant, request) :: later =>
    (if approves (evaluatePolicy evaluation instant request).1 then [instant.now] else []) ++
      approvedTimestamps (evaluatePolicy evaluation instant request).2 later

theorem approvedTimestamps_eq {evaluation : PolicyEvaluation} {window : RateSlidingWindow}
    (requests : List (Instant × PermitRequest))
    (algorithm : evaluation.state.policy.algorithm = .slidingWindow)
    (found : evaluation.state.slidingWindows.get? "1m" = some window) :
    approvedTimestamps evaluation requests =
      SlidingLog.granted window.maxDuration window.maxRequests window.entries
        (requests.map fun asked => asked.1.now) := by
  induction requests generalizing evaluation window with
  | nil => rfl
  | cons asked later ih =>
    rcases asked with ⟨instant, request⟩
    rcases evaluatePolicy_spec evaluation instant request with ⟨approved, after⟩
    have asks : evaluation.state.ask instant =
        ((window.ask instant.now).1,
          { evaluation.state with
            slidingWindows :=
              evaluation.state.slidingWindows.set "1m" (window.ask instant.now).2 }) := by
      simp [ask, algorithm, found]
    rw [asks] at approved after
    have stored : (evaluatePolicy evaluation instant request).2.state.slidingWindows.get? "1m" =
        some (window.ask instant.now).2 := by
      rw [after]
      exact Dict.get?_set_self ..
    have rest := ih (by rw [after]; exact algorithm) stored
    rw [approvedTimestamps, approved, rest, window.ask_eq]
    rfl

theorem approvedTimestamps_create (algorithm : policy.algorithm = .slidingWindow) (created : ℚ)
    (queues : QueueManager) (requests : List (Instant × PermitRequest)) :
    approvedTimestamps { state := .create policy created, queues } requests =
      SlidingLog.granted 60 policy.slidingWindow.maxRequests []
        (requests.map fun asked => asked.1.now) := by
  have found : ({ state := .create policy created, queues } :
      PolicyEvaluation).state.slidingWindows.get? "1m" =
        some { maxDuration := 60, maxRequests := policy.slidingWindow.maxRequests } := rfl
  exact approvedTimestamps_eq requests algorithm found

/-- The requests come in the order of the times of day. -/
def Chronological (requests : List (Instant × PermitRequest)) : Prop :=
  (requests.map fun asked => asked.1.now).Pairwise (· ≤ ·)

/-- From its creation on, the policy approves in no half-open interval of the duration of its
window more requests than it allows. -/
def KeepsWindowLimit (policy : RateLimitPolicy) (requests : List (Instant × PermitRequest)) :
    Prop :=
  ∀ (created : ℚ) (queues : QueueManager) (start : Timestamp),
    ((approvedTimestamps { state := .create policy created, queues } requests).countP
      fun time => start ≤ time ∧ time < start + policy.slidingWindow.windowDurationS) ≤
        policy.slidingWindow.maxRequests

def askedAt (times : List Timestamp) : List (Instant × PermitRequest) :=
  times.map fun time => (⟨time, time⟩, { provider := "p", model := "m" })

theorem now_askedAt (times : List Timestamp) :
    ((askedAt times).map fun asked => asked.1.now) = times := by
  simp [askedAt, Function.comp_def]

section

variable (algorithm : policy.algorithm = .slidingWindow)
include algorithm

theorem keepsWindowLimit_iff (requests : List (Instant × PermitRequest)) :
    KeepsWindowLimit policy requests ↔ ∀ start : Timestamp,
      ((SlidingLog.granted 60 policy.slidingWindow.maxRequests []
        (requests.map fun asked => asked.1.now)).countP fun time =>
          start ≤ time ∧ time < start + policy.slidingWindow.windowDurationS) ≤
            policy.slidingWindow.maxRequests := by
  simp only [KeepsWindowLimit, approvedTimestamps_create algorithm]
  exact ⟨fun keeps => keeps 0 {}, fun keeps _ _ => keeps⟩

theorem keepsWindowLimit_of_chronological (nonneg : 0 ≤ policy.slidingWindow.maxRequests)
    (short : policy.slidingWindow.maxRequests = 0 ∨ policy.slidingWindow.windowDurationS ≤ 60)
    {requests : List (Instant × PermitRequest)} (ordered : Chronological requests) :
    KeepsWindowLimit policy requests := by
  rw [keepsWindowLimit_iff algorithm]
  intro start
  rcases short with closed | short
  · simp [granted_eq_nil closed.le, nonneg]
  · refine le_trans ?_ (countP_granted_nil_le 60 ordered nonneg start)
    rw [Nat.cast_le]
    apply countP_mono_left
    intro time _ within
    have isWithin : start ≤ time ∧ time < start + policy.slidingWindow.windowDurationS := by
      simpa using within
    have before : time ≤ start + 60 := by linarith
    simp [SlidingLog.inside, isWithin.1, before]

theorem keepsWindowLimit_of_one (one : policy.slidingWindow.maxRequests = 1)
    (short : policy.slidingWindow.windowDurationS ≤ 60)
    (requests : List (Instant × PermitRequest)) : KeepsWindowLimit policy requests := by
  rw [keepsWindowLimit_iff algorithm, one]
  intro start
  have apart := pairwise_granted_one (by norm_num : (0 : ℚ) ≤ 60) []
    (requests.map fun asked => asked.1.now) (by simp)
  exact_mod_cast countP_le_one short apart

theorem keepsWindowLimit_of_empty (nonneg : 0 ≤ policy.slidingWindow.maxRequests)
    (empty : policy.slidingWindow.windowDurationS ≤ 0) (requests : List (Instant × PermitRequest)) :
    KeepsWindowLimit policy requests := by
  rw [keepsWindowLimit_iff algorithm]
  intro start
  rw [countP_eq_zero.mpr]
  · exact_mod_cast nonneg
  · intro time _ within
    have isWithin : start ≤ time ∧ time < start + policy.slidingWindow.windowDurationS := by
      simpa using within
    linarith

end

/-- As many requests as allowed at the time zero, and others later. -/
def burstThen (policy : RateLimitPolicy) (later : List Timestamp) :
    List (Instant × PermitRequest) :=
  askedAt (replicate policy.slidingWindow.maxRequests.toNat 0 ++ later)

theorem granted_burstThen (positive : 0 < policy.slidingWindow.maxRequests) {next : Timestamp}
    (late : 60 < next) (later : List Timestamp) :
    SlidingLog.granted 60 policy.slidingWindow.maxRequests []
        ((burstThen policy (next :: later)).map fun asked => asked.1.now) =
      replicate policy.slidingWindow.maxRequests.toNat 0 ++
        next :: SlidingLog.granted 60 policy.slidingWindow.maxRequests [next] later := by
  have room : (([] : List ℚ).length : ℤ) + policy.slidingWindow.maxRequests.toNat ≤
      policy.slidingWindow.maxRequests := by
    simp [Int.toNat_of_nonneg positive.le]
  have burst := granted_replicate (by norm_num : (0 : ℚ) ≤ 60) [] room
    (by simp : ∀ entry ∈ ([] : List ℚ), entry = 0) (next :: later)
  have gone : expire 60 next
      (replicate policy.slidingWindow.maxRequests.toNat 0) = [] := by
    rw [expire_eq_nil_iff]
    intro entry member
    rw [eq_of_mem_replicate member]
    linarith
  rw [burstThen, now_askedAt, burst, nil_append, SlidingLog.granted,
    offer_of_room (by simpa [gone] using positive), gone]
  rfl

/-- After more than a minute the burst is forgotten, though it is in the same interval. -/
theorem not_keepsWindowLimit_of_wide (algorithm : policy.algorithm = .slidingWindow)
    (positive : 0 < policy.slidingWindow.maxRequests) {next : Timestamp} (late : 60 < next)
    (within : next < policy.slidingWindow.windowDurationS) :
    ¬ KeepsWindowLimit policy (burstThen policy [next]) := by
  rw [keepsWindowLimit_iff algorithm, granted_burstThen positive late]
  intro keeps
  have counted := keeps 0
  have wide : 0 < policy.slidingWindow.windowDurationS := by linarith
  have nonneg : 0 ≤ next := by linarith
  simp only [zero_add, countP_append, SlidingLog.granted, countP_singleton,
    countP_replicate, le_refl, wide, nonneg, within, and_self, decide_true, if_true] at counted
  omega

theorem not_keepsWindowLimit_of_back (algorithm : policy.algorithm = .slidingWindow)
    (several : 1 < policy.slidingWindow.maxRequests)
    (wide : 0 < policy.slidingWindow.windowDurationS) :
    ¬ KeepsWindowLimit policy (burstThen policy [61, 0]) := by
  have positive : 0 < policy.slidingWindow.maxRequests := by omega
  have recent : expire 60 0 [(61 : ℚ)] = [61] := expire_of_recent (by norm_num)
  have granted : SlidingLog.granted 60 policy.slidingWindow.maxRequests [(61 : ℚ)] [0] = [0] := by
    rw [SlidingLog.granted, offer_of_room (by simpa [recent] using several)]
    rfl
  rw [keepsWindowLimit_iff algorithm, granted_burstThen positive (by norm_num), granted]
  intro keeps
  have counted := keeps 0
  simp only [zero_add, countP_append, countP_cons, countP_nil,
    countP_replicate, le_refl, wide, and_self, decide_true, if_true] at counted
  omega

/-- The policies that keep their limit are those that allow nothing or count over a minute at
most; where the clock may be set back, they allow one request at most. -/
theorem keepsWindowLimit_forall_iff (policy : RateLimitPolicy)
    (algorithm : policy.algorithm = .slidingWindow) :
    ((∀ requests, Chronological requests → KeepsWindowLimit policy requests) ↔
      0 ≤ policy.slidingWindow.maxRequests ∧
        (policy.slidingWindow.maxRequests = 0 ∨ policy.slidingWindow.windowDurationS ≤ 60)) ∧
    ((∀ requests, KeepsWindowLimit policy requests) ↔
      0 ≤ policy.slidingWindow.maxRequests ∧
        (policy.slidingWindow.maxRequests = 0 ∨ policy.slidingWindow.windowDurationS ≤ 0 ∨
          (policy.slidingWindow.maxRequests = 1 ∧ policy.slidingWindow.windowDurationS ≤ 60))) := by
  have necessary : (∀ requests, Chronological requests → KeepsWindowLimit policy requests) →
      0 ≤ policy.slidingWindow.maxRequests ∧
        (policy.slidingWindow.maxRequests = 0 ∨ policy.slidingWindow.windowDurationS ≤ 60) := by
    intro keeps
    have nonneg : 0 ≤ policy.slidingWindow.maxRequests := by
      have kept := (keepsWindowLimit_iff algorithm []).mp (keeps [] .nil) 0
      simpa [SlidingLog.granted] using kept
    refine ⟨nonneg, or_iff_not_imp_left.mpr fun allows => ?_⟩
    have positive : 0 < policy.slidingWindow.maxRequests := lt_of_le_of_ne nonneg (.symm allows)
    by_contra long
    have wide := not_le.mp long
    obtain ⟨next, late, within⟩ := exists_between wide
    apply not_keepsWindowLimit_of_wide algorithm positive late within
    apply keeps
    have forward : 0 ≤ next := by linarith
    rw [Chronological, burstThen, now_askedAt, pairwise_append]
    simp [forward, pairwise_replicate]
  constructor
  · constructor
    · exact necessary
    · rintro ⟨nonneg, short⟩ requests ordered
      exact keepsWindowLimit_of_chronological algorithm nonneg short ordered
  · constructor
    · intro keeps
      rcases necessary fun requests _ => keeps requests with ⟨nonneg, short⟩
      refine ⟨nonneg, or_iff_not_imp_left.mpr fun allows => or_iff_not_imp_left.mpr fun wide => ?_⟩
      have few : ¬ 1 < policy.slidingWindow.maxRequests := fun several =>
        not_keepsWindowLimit_of_back algorithm several (not_le.mp wide) (keeps _)
      exact ⟨by omega, short.resolve_left allows⟩
    · rintro ⟨nonneg, closed | empty | ⟨one, short⟩⟩ requests
      · rw [keepsWindowLimit_iff algorithm]
        simp [granted_eq_nil closed.le, nonneg]
      · exact keepsWindowLimit_of_empty algorithm nonneg empty requests
      · exact keepsWindowLimit_of_one algorithm one short requests

def minutePolicy : RateLimitPolicy where
  id := "minute"
  algorithm := .slidingWindow
  slidingWindow := { windowDurationS := 60, maxRequests := 2 }

def fiveMinutesPolicy : RateLimitPolicy where
  id := "five minutes"
  algorithm := .slidingWindow
  slidingWindow := { windowDurationS := 300, maxRequests := 1 }

theorem minutePolicy_keeps : KeepsWindowLimit minutePolicy (askedAt [0, 30, 59, 60]) :=
  (keepsWindowLimit_forall_iff minutePolicy rfl).1.mpr (by norm_num [minutePolicy])
    (askedAt [0, 30, 59, 60]) (by norm_num [Chronological, now_askedAt])

/-- A second request is approved after two minutes. -/
theorem fiveMinutesPolicy_exceeds :
    Chronological (askedAt [0, 120]) ∧
      approvedTimestamps { state := .create fiveMinutesPolicy 0, queues := {} }
        (askedAt [0, 120]) = [0, 120] ∧
      ¬ KeepsWindowLimit fiveMinutesPolicy (askedAt [0, 120]) := by
  have late : (60 : ℚ) < 120 := by norm_num
  have positive : 0 < fiveMinutesPolicy.slidingWindow.maxRequests := one_pos
  have within : 120 < fiveMinutesPolicy.slidingWindow.windowDurationS := by
    norm_num [fiveMinutesPolicy]
  refine ⟨by norm_num [Chronological, now_askedAt], ?_, ?_⟩
  · rw [approvedTimestamps_create rfl]
    exact granted_burstThen positive late []
  · exact not_keepsWindowLimit_of_wide rfl positive late within

/-! ## Fixed windows -/

/-- How many requests can still be approved in an interval as long as the window. -/
def allowance (window : FixedWindowCounter) (start : ℚ) : ℤ :=
  let left := max 0 (window.maxPerWindow - window.count)
  if start ≤ window.windowStart then left
  else if start < window.windowStart + window.windowSeconds then left + max 0 window.maxPerWindow
  else 2 * max 0 window.maxPerWindow

theorem allowance_tryConsume {window : FixedWindowCounter} {mono : ℚ} (nonneg : 0 ≤ window.count)
    (onward : window.windowStart ≤ mono) :
    0 ≤ (window.tryConsume mono).2.count ∧ (window.tryConsume mono).2.windowStart ≤ mono ∧
      (window.tryConsume mono).2.windowSeconds = window.windowSeconds ∧
      ∀ start, mono < window.windowStart + window.windowSeconds ∨ window.windowStart < start →
        allowance (window.tryConsume mono).2 start +
          (if (window.tryConsume mono).1 ∧ start ≤ mono ∧ mono < start + window.windowSeconds then 1
          else 0) ≤ allowance window start := by
  unfold FixedWindowCounter.tryConsume FixedWindowCounter.checkReset allowance
  grind

/-- The requests at the given times that are approved within an interval. -/
def approvedWithin (start duration : ℚ) (instants : List Instant) (answers : List Bool) : ℕ :=
  (instants.zip answers).countP fun asked =>
    asked.2 ∧ start ≤ asked.1.mono ∧ asked.1.mono < start + duration

/-- The induction is on the requests. What comes after the end of a window that began in the
interval is not in it. -/
theorem approvedWithin_le {state : PolicyRuntimeState}
    (algorithm : state.policy.algorithm = .fixedWindow) (nonneg : 0 ≤ state.fixedWindow.count)
    {instants : List Instant}
    (ordered : (state.fixedWindow.windowStart :: instants.map Instant.mono).Pairwise (· ≤ ·))
    (start : ℚ) : (approvedWithin start state.fixedWindow.windowSeconds instants
      (state.answers instants) : ℤ) ≤ allowance state.fixedWindow start := by
  induction instants generalizing state with
  | nil => grind [approvedWithin, allowance]
  | cons instant later ih =>
    obtain ⟨early, sorted⟩ := pairwise_cons.mp ordered
    obtain ⟨counts, begins, same, step⟩ := allowance_tryConsume nonneg
      (early instant.mono mem_cons_self)
    have asks : state.ask instant = ((state.fixedWindow.tryConsume instant.mono).1,
        { state with fixedWindow := (state.fixedWindow.tryConsume instant.mono).2 }) := by
      simp [ask, algorithm]
    by_cases reached : instant.mono < state.fixedWindow.windowStart +
        state.fixedWindow.windowSeconds ∨ state.fixedWindow.windowStart < start
    · have rest := @ih (state.ask instant).2 (by rwa [asks]) (by rwa [asks]) (by
        rw [asks]
        exact pairwise_cons.mpr ⟨fun time member =>
          begins.trans (rel_of_pairwise_cons sorted member), sorted.of_cons⟩)
      rw [asks, same] at rest
      refine le_trans ?_ ((Int.add_le_add_right rest _).trans (step start reached))
      rw [approvedWithin, PolicyRuntimeState.answers, asks, zip_cons_cons, countP_cons,
        approvedWithin]
      simp
    · have none : approvedWithin start state.fixedWindow.windowSeconds (instant :: later)
          (state.answers (instant :: later)) = 0 := by
        refine countP_eq_zero.mpr fun asked member inside => ?_
        have after : instant.mono ≤ asked.1.mono := by
          rcases mem_cons.mp (of_mem_zip member).1 with same | next
          · rw [same]
          · exact rel_of_pairwise_cons sorted (mem_map_of_mem next)
        have within := (of_decide_eq_true inside).2.2
        rw [not_or, not_lt, not_lt] at reached
        linarith [reached.1, reached.2]
      grind

/-- No half-open interval as long as a fixed window has more than twice the limit of requests
approved. -/
theorem fixedWindow_twice {policy : RateLimitPolicy} (algorithm : policy.algorithm = .fixedWindow)
    {created : ℚ} {requests : List (Instant × PermitRequest)}
    (ordered : (created :: requests.map fun asked => asked.1.mono).Pairwise (· ≤ ·))
    (queues : QueueManager) (start : ℚ) :
    (approvedWithin start policy.slidingWindow.windowDurationS (requests.map Prod.fst)
      (admissions { state := .create policy created, queues } requests) : ℤ) ≤
        2 * max 0 policy.slidingWindow.maxRequests := by
  rw [admissions_eq]
  have limited := @approvedWithin_le (.create policy created) algorithm le_rfl
    (requests.map Prod.fst) (by rw [map_map]; exact ordered) start
  refine limited.trans ?_
  unfold allowance create
  grind

/-- Requests around the end of a window. -/
theorem fixedWindow_twice_minute :
    let policy := { minutePolicy with algorithm := .fixedWindow }
    (approvedWithin 59 policy.slidingWindow.windowDurationS ((askedAt [59, 60]).map Prod.fst)
      (admissions { state := .create policy 0, queues := {} } (askedAt [59, 60])) : ℤ) ≤
        2 * max 0 policy.slidingWindow.maxRequests :=
  fixedWindow_twice rfl (by norm_num [askedAt]) {} 59

end RateLimiterEngineImpl

end AgenticOS.OmniRoute
