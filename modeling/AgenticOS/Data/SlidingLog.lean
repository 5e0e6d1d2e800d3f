import Mathlib.Algebra.Order.Group.Basic
import Mathlib.Data.List.TakeWhile

/-!
# Logs of grants

A log keeps the times of the last grants. Before a request is answered the entries that are older
than the span leave the log, at its front only, until one is found that is not. The request is
granted if fewer entries than the limit are left.

As long as the times do not go back, what has left the log is too old to count, and no interval
of the length of the span holds more grants than the limit. Where the clock is set back, an entry
may have left too early; then the limit is kept for one request at a time only.
-/

namespace AgenticOS.SlidingLog

open List

universe u

variable {T : Type u} [AddCommGroup T] [LinearOrder T] [IsOrderedAddMonoid T]
variable {span now : T} {limit : ℤ} {log gone times : List T}

/-- The log without the entries at its front that are older than the span. -/
def expire (span now : T) (log : List T) : List T :=
  log.dropWhile fun entry => entry < now - span

/-- The answer to a request, and the log after it. -/
def offer (span : T) (limit : ℤ) (log : List T) (now : T) : Bool × List T :=
  if limit ≤ (expire span now log).length then (false, expire span now log)
  else (true, expire span now log ++ [now])

/-- The times at which a request is granted, out of those at which there is one. -/
def granted (span : T) (limit : ℤ) : List T → List T → List T
  | _, [] => []
  | log, now :: later =>
    (if (offer span limit log now).1 then [now] else []) ++
      granted span limit (offer span limit log now).2 later

/-- The time is in the closed interval of the length of the span. -/
def inside (span start time : T) : Bool :=
  start ≤ time ∧ time ≤ start + span

omit [IsOrderedAddMonoid T] in
theorem offer_of_full (full : limit ≤ (expire span now log).length) :
    offer span limit log now = (false, expire span now log) :=
  if_pos full

omit [IsOrderedAddMonoid T] in
theorem offer_of_room (room : (expire span now log).length < limit) :
    offer span limit log now = (true, expire span now log ++ [now]) :=
  if_neg (not_le.mpr room)

omit [IsOrderedAddMonoid T] in
theorem exists_expired (span now : T) (log : List T) :
    ∃ expired, log = expired ++ expire span now log ∧ ∀ entry ∈ expired, entry < now - span := by
  refine ⟨log.takeWhile fun entry => entry < now - span, ?_, ?_⟩
  · exact takeWhile_append_dropWhile.symm
  · intro entry member
    simpa using mem_takeWhile_imp member

theorem not_inside_of_lt {start time entry : T} (holds : inside span start time = true)
    (older : entry < time - span) : inside span start entry = false := by
  have isInside : start ≤ time ∧ time ≤ start + span := by simpa [inside] using holds
  have before : entry < start := older.trans_le (sub_le_iff_le_add.mpr isInside.2)
  simp [inside, not_le.mpr before]

theorem countP_grant_le (room : (expire span now log).length < limit)
    (old : ∀ entry ∈ gone, entry < now - span)
    (few : ∀ start, ((gone ++ log).countP (inside span start) : ℤ) ≤ limit) (start : T) :
    ((gone ++ log ++ [now]).countP (inside span start) : ℤ) ≤ limit := by
  by_cases holds : inside span start now = true
  · rcases exists_expired span now log with ⟨expired, split, left⟩
    have none : ∀ entries : List T, (∀ entry ∈ entries, entry < now - span) →
        entries.countP (inside span start) = 0 := by
      intro entries older
      rw [countP_eq_zero]
      intro entry member
      simp [not_inside_of_lt holds (older entry member)]
    have kept := countP_le_length (p := inside span start) (l := expire span now log)
    rw [split]
    simp only [countP_append, none gone old, none expired left, countP_singleton, holds]
    simp only [if_true]
    omega
  · rw [countP_append, countP_singleton, if_neg holds]
    exact few start

theorem countP_granted_le (ordered : times.Pairwise (· ≤ ·))
    (old : ∀ entry ∈ gone, ∀ time ∈ times, entry < time - span)
    (few : ∀ start, ((gone ++ log).countP (inside span start) : ℤ) ≤ limit) (start : T) :
    ((gone ++ log ++ granted span limit log times).countP (inside span start) : ℤ) ≤ limit := by
  induction times generalizing gone log with
  | nil => simpa [granted] using few start
  | cons now later ih =>
    rw [pairwise_cons] at ordered
    rcases exists_expired span now log with ⟨expired, split, left⟩
    have older : ∀ entry ∈ gone ++ expired, ∀ time ∈ later, entry < time - span := by
      intro entry member time isLater
      rcases mem_append.mp member with before | leaves
      · exact old entry before time (mem_cons_of_mem now isLater)
      · exact (left entry leaves).trans_le (sub_le_sub_right (ordered.1 time isLater) span)
    have same : gone ++ log = gone ++ expired ++ expire span now log := by
      rw [append_assoc, ← split]
    by_cases full : limit ≤ (expire span now log).length
    · have next := ih ordered.2 older (by rw [← same]; exact few)
      rw [← same] at next
      simpa [granted, offer_of_full full] using next
    · have room := not_le.mp full
      have grants := countP_grant_le room
        (fun entry member => old entry member now mem_cons_self) few
      have after : gone ++ expired ++ (expire span now log ++ [now]) = gone ++ log ++ [now] := by
        simp [same]
      have next := ih ordered.2 older (by rw [after]; exact grants)
      rw [after] at next
      simpa [granted, offer_of_room room] using next

theorem countP_granted_nil_le (span : T) (ordered : times.Pairwise (· ≤ ·)) (nonneg : 0 ≤ limit)
    (start : T) : ((granted span limit [] times).countP (inside span start) : ℤ) ≤ limit := by
  have old : ∀ entry ∈ ([] : List T), ∀ time ∈ times, entry < time - span := by simp
  have few : ∀ start, ((([] : List T) ++ []).countP (inside span start) : ℤ) ≤ limit := by
    simpa using nonneg
  simpa using countP_granted_le ordered old few start

omit [IsOrderedAddMonoid T] in
theorem granted_eq_nil (closed : limit ≤ 0) (log times : List T) :
    granted span limit log times = [] := by
  induction times generalizing log with
  | nil => rfl
  | cons now later ih =>
    have full : limit ≤ (expire span now log).length := by omega
    simp [granted, offer_of_full full, ih]

omit [IsOrderedAddMonoid T] in
theorem expire_eq_nil_iff : expire span now log = [] ↔ ∀ entry ∈ log, entry < now - span := by
  simp [expire, dropWhile_eq_nil_iff]

/-- With a limit of one, each grant is later than the one before by more than the span, whatever
the clock does. -/
theorem pairwise_granted_one (nonneg : 0 ≤ span) (log times : List T) (short : log.length ≤ 1) :
    (log ++ granted span 1 log times).Pairwise fun before after => before + span < after := by
  induction times generalizing log with
  | nil =>
    cases log with
    | nil => simp [granted]
    | cons last rest =>
      have alone : rest = [] := by simpa using short
      simp [granted, alone]
  | cons now later ih =>
    by_cases empty : expire span now log = []
    · have room : ((expire span now log).length : ℤ) < 1 := by simp [empty]
      have next := ih [now] (by simp)
      rw [singleton_append, pairwise_cons] at next
      rw [expire_eq_nil_iff] at empty
      rw [granted, offer_of_room room]
      simp only [if_true, expire_eq_nil_iff.mpr empty, nil_append, singleton_append]
      cases log with
      | nil => exact pairwise_cons.mpr next
      | cons last rest =>
        have alone : rest = [] := by simpa using short
        have gap : last + span < now := lt_sub_iff_add_lt.mp (empty last mem_cons_self)
        subst alone
        rw [singleton_append, pairwise_cons, forall_mem_cons]
        refine ⟨⟨gap, ?_⟩, pairwise_cons.mpr next⟩
        intro grant member
        exact gap.trans ((le_add_of_nonneg_right nonneg).trans_lt (next.1 grant member))
    · have full : (1 : ℤ) ≤ (expire span now log).length := by
        have positive := length_pos_iff.mpr empty
        omega
      have same : expire span now log = log := by
        have suffix : expire span now log <:+ log := dropWhile_suffix _
        exact suffix.eq_of_length_le (by omega)
      have next := ih log short
      simpa [granted, offer_of_full full, same] using next

/-- A half-open interval that is not longer than the span holds one grant at most, if they are
further apart than the span. -/
theorem countP_le_one {grants : List T} {start width : T} (narrow : width ≤ span)
    (apart : grants.Pairwise fun before after => before + span < after) :
    grants.countP (fun time => start ≤ time ∧ time < start + width) ≤ 1 := by
  rw [countP_eq_length_filter]
  have kept := apart.filter fun time => decide (start ≤ time ∧ time < start + width)
  have within : ∀ time ∈ grants.filter fun time => decide (start ≤ time ∧ time < start + width),
      start ≤ time ∧ time < start + width := by
    intro time member
    simpa using (mem_filter.mp member).2
  generalize grants.filter (fun time => decide (start ≤ time ∧ time < start + width)) = counted
    at kept within
  match counted with
  | [] => simp
  | [_] => simp
  | first :: second :: rest =>
    have gap : first + span < second := rel_of_pairwise_cons kept mem_cons_self
    have first_le := (within first mem_cons_self).1
    have lt_second := (within second (by simp)).2
    have close : start + width ≤ first + span := add_le_add first_le narrow
    exact absurd (gap.trans lt_second) (not_lt.mpr close)

omit [IsOrderedAddMonoid T] in
theorem expire_of_recent (recent : ∀ entry ∈ log, now - span ≤ entry) :
    expire span now log = log := by
  cases log with
  | nil => rfl
  | cons first rest =>
    have stays := recent first mem_cons_self
    simp [expire, stays]

theorem granted_replicate (nonneg : 0 ≤ span) (log : List T) {count : ℕ}
    (room : (log.length : ℤ) + count ≤ limit) (same : ∀ entry ∈ log, entry = now) (later : List T) :
    granted span limit log (List.replicate count now ++ later) =
      List.replicate count now ++
        granted span limit (log ++ List.replicate count now) later := by
  induction count generalizing log with
  | zero => simp
  | succ count ih =>
    have kept : expire span now log = log := by
      apply expire_of_recent
      intro entry member
      simp [same entry member, nonneg]
    have fits : ((expire span now log).length : ℤ) < limit := by
      rw [kept]
      omega
    have rest := ih (log ++ [now])
      (by simp only [length_append, length_singleton]; push_cast at room ⊢; omega)
      (by simpa [or_imp, forall_and] using same)
    rw [replicate_succ, cons_append, granted, offer_of_room fits, kept, rest]
    simp

end AgenticOS.SlidingLog
