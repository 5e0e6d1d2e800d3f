import AgenticOS.Data.ExponentialAverage
import AgenticOS.OmniRoute.Learning
import AgenticOS.Transition.Run

/-!
# The sign of a trend

A detector compares a fast with a slow exponential average. It takes a fast average that is far
below the slow one for a change for the worse, as it does one that is far above. So of latencies
that fall it reports a degradation, unless the fall is gentle up to the ninth of them; from the
tenth on every change of the direction is an oscillation, and remains one.
-/

namespace AgenticOS.OmniRoute

open AgenticOS.Transition ExponentialAverage List

def Ewma.of (alpha : ℚ) (values : List ℚ) : Ewma where
  alpha := alpha
  value? := if values = [] then none else some (average alpha values)
  count := values.length

theorem Ewma.update_of (alpha value : ℚ) (values : List ℚ) : (Ewma.of alpha values).update value =
      (average alpha (values ++ [value]), .of alpha (values ++ [value])) := by
  by_cases empty : values = []
  · simp [Ewma.of, Ewma.update, empty, average]
  · simp [Ewma.of, Ewma.update, empty, average_concat alpha value empty, ExponentialAverage.next]

namespace TrendDetector

def direction (detector : TrendDetector) (value : ℚ) : TrendDirection :=
  (detector.update value).1

def after (detector : TrendDetector) (value : ℚ) : TrendDetector :=
  (detector.update value).2

def Worse (direction : TrendDirection) : Prop :=
  direction = .degrading ∨ direction = .rapidDegradation

def Better (direction : TrendDirection) : Prop :=
  direction = .improving ∨ direction = .recovery

/-- A new detector reports no change for the worse of latencies that never rise, and none for
the better of latencies that never fall. -/
def RightSign (latencies : List ℚ) : Prop :=
  (latencies.Pairwise (· ≥ ·) →
    Along after (fun detector latency => ¬ Worse (detector.direction latency)) {} latencies) ∧
  (latencies.Pairwise (· ≤ ·) →
    Along after (fun detector latency => ¬ Better (detector.direction latency)) {} latencies)

/-- From the third to the ninth value the fast average is not far below the slow one. -/
def Gentle (latencies : List ℚ) : Prop :=
  ∀ done, done <+: latencies → 3 ≤ done.length → done.length ≤ 9 →
    85 / 100 * average (1 / 10) done ≤ average (1 / 2) done

variable {short long : ℚ} {done : List ℚ} {last : TrendDirection}

theorem worse_classify (positive : 0 < long) (far : short < 85 / 100 * long) :
    Worse (classify short long) := by
  have below : ¬ 0 < short - long := by linarith
  have ratio : short / long < 85 / 100 := (div_lt_iff₀ positive).mpr far
  unfold classify
  rw [if_pos positive, if_neg below, if_pos ratio]
  split
  · exact .inr rfl
  · exact .inl rfl

theorem classify_of_near (positive : 0 < long) (below : short ≤ long)
    (near : 85 / 100 * long ≤ short) : classify short long = .stable := by
  have ratio : 85 / 100 ≤ short / long := (le_div_iff₀ positive).mpr near
  unfold classify
  rw [if_pos positive, if_neg (not_lt.mpr (sub_nonpos.mpr below)), if_neg (by linarith),
    if_neg (not_lt.mpr ratio)]

theorem not_better_classify (short long : ℚ) : ¬ Better (classify short long) := by
  unfold classify
  dsimp only
  split_ifs <;> simp [Better]

/-- What a detector knows after some values, with the last direction that it has reported. -/
def of (done : List ℚ) (last : TrendDirection) : TrendDetector where
  short := .of (1 / 2) done
  long := .of (1 / 10) done
  lastDirection := last

/-- The direction that two averages show behind the last one that was reported. -/
def seen (last : TrendDirection) (short long : ℚ) : TrendDirection :=
  if (last = .degrading ∨ last = .rapidDegradation) ∧ classify short long = .stable ∧
      short - long < 0 then .recovery
  else classify short long

def reported (last : TrendDirection) (count : ℕ) (short long : ℚ) : TrendDirection :=
  if 10 ≤ count ∧ last ≠ seen last short long ∧ last ≠ .unknown then .oscillation
  else seen last short long

theorem update_of (done : List ℚ) (value : ℚ) (last : TrendDirection) :
    (of done last).update value =
      let known := done ++ [value]
      let report := reported last known.length (average (1 / 2) known) (average (1 / 10) known)
      if known.length < 3 then (.unknown, of known last) else (report, of known report) := by
  unfold update of
  simp only [Ewma.update_of]
  rfl

theorem exists_run_eq_of (done : List ℚ) : ∃ last, run after {} done = of done last := by
  induction done using reverseRecOn with
  | nil => exact ⟨.unknown, rfl⟩
  | append_singleton done value ih =>
    rcases ih with ⟨last, before⟩
    rw [run_append, before, run_cons, run_nil, after, update_of]
    dsimp only
    split
    · exact ⟨last, rfl⟩
    · exact ⟨_, rfl⟩

theorem direction_of {value : ℚ} (enough : 3 ≤ (done ++ [value]).length) :
    (of done last).direction value =
      reported last (done ++ [value]).length (average (1 / 2) (done ++ [value]))
        (average (1 / 10) (done ++ [value])) := by
  rw [direction, update_of]
  rw [if_neg (not_lt.mpr enough)]

theorem worse_reported {count : ℕ} (early : count ≤ 9) (positive : 0 < long)
    (far : short < 85 / 100 * long) : Worse (reported last count short long) := by
  have worse := worse_classify positive far
  have unstable : classify short long ≠ .stable := by
    intro stable
    rw [stable] at worse
    simp [Worse] at worse
  have shown : seen last short long = classify short long := by
    unfold seen
    rw [if_neg fun recovered => unstable recovered.2.1]
  unfold reported
  rw [if_neg (by omega), shown]
  exact worse

theorem not_better_reported {count : ℕ} (above : long ≤ short) :
    ¬ Better (reported last count short long) := by
  have shown : seen last short long = classify short long := by
    unfold seen
    rw [if_neg]
    rintro ⟨-, -, fallen⟩
    linarith
  unfold reported
  rw [shown]
  split
  · simp [Better]
  · exact not_better_classify short long

theorem along_not_better {latencies : List ℚ} (rising : latencies.Pairwise (· ≤ ·)) :
    Along after (fun detector latency => ¬ Better (detector.direction latency)) {} latencies := by
  rw [along_iff_forall_at]
  intro done value among
  rcases exists_run_eq_of done with ⟨last, known⟩
  rw [known]
  by_cases enough : 3 ≤ (done ++ [value]).length
  · rw [direction_of enough]
    apply not_better_reported
    apply average_le_of_rising (by norm_num) (by norm_num)
    exact rising.sublist among.sublist
  · rw [direction, update_of]
    rw [if_pos (not_le.mp enough)]
    simp [Better]

/-- What was reported last of a gentle fall: nothing, that it is stable, or, from the tenth value
on, that it oscillates. -/
def Quiet (done : List ℚ) (last : TrendDirection) : Prop :=
  if done.length < 3 then last = .unknown
  else last = .stable ∨ 10 ≤ done.length ∧ last = .oscillation

theorem Quiet.reported (quiet : Quiet done last) (enough : 2 ≤ done.length) (positive : 0 < long)
    (below : short ≤ long) (gentle : done.length < 9 → 85 / 100 * long ≤ short) :
    reported last (done.length + 1) short long = .stable ∨
      9 ≤ done.length ∧ reported last (done.length + 1) short long = .oscillation := by
  have before : last = .unknown ∧ done.length = 2 ∨ last = .stable ∨
      10 ≤ done.length ∧ last = .oscillation := by
    unfold Quiet at quiet
    split at quiet
    · exact .inl ⟨quiet, by omega⟩
    · exact .inr quiet
  have shown : seen last short long = classify short long := by
    unfold seen
    rw [if_neg]
    rintro ⟨worse, -⟩
    rcases before with ⟨rfl, -⟩ | rfl | ⟨-, rfl⟩ <;> simp at worse
  unfold TrendDetector.reported
  rw [shown]
  by_cases near : 85 / 100 * long ≤ short
  · rw [classify_of_near positive below near]
    split
    next oscillates => exact .inr ⟨by omega, rfl⟩
    next => exact .inl rfl
  · have late : 9 ≤ done.length := not_lt.mp fun early => near (gentle early)
    have worse := worse_classify positive (not_le.mp near)
    refine .inr ⟨late, if_pos ⟨by omega, ?_, ?_⟩⟩
    · intro same
      rw [← same] at worse
      rcases before with ⟨rfl, -⟩ | rfl | ⟨-, rfl⟩ <;> simp [Worse] at worse
    · rcases before with ⟨-, few⟩ | rfl | ⟨-, rfl⟩
      · omega
      · nofun
      · nofun

theorem Quiet.next {value : ℚ} (quiet : Quiet done last)
    (positive : 0 < average (1 / 10) (done ++ [value]))
    (below : average (1 / 2) (done ++ [value]) ≤ average (1 / 10) (done ++ [value]))
    (gentle : 3 ≤ (done ++ [value]).length → (done ++ [value]).length ≤ 9 →
      85 / 100 * average (1 / 10) (done ++ [value]) ≤ average (1 / 2) (done ++ [value])) :
    ¬ Worse ((of done last).direction value) ∧
      ∃ now, (of done last).after value = of (done ++ [value]) now ∧
        Quiet (done ++ [value]) now := by
  rw [length_append, length_singleton] at gentle
  rw [direction, after, update_of]
  dsimp only
  unfold Quiet
  rw [length_append, length_singleton]
  by_cases few : done.length + 1 < 3
  · simp only [if_pos few]
    refine ⟨by simp [Worse], last, rfl, ?_⟩
    unfold Quiet at quiet
    rwa [if_pos (by omega)] at quiet
  · simp only [if_neg few]
    have settles := quiet.reported (by omega) positive below fun early =>
      gentle (by omega) (by omega)
    refine ⟨?_, _, rfl, settles.imp_right fun ⟨late, oscillates⟩ => ⟨by omega, oscillates⟩⟩
    rcases settles with stable | ⟨-, oscillates⟩
    · rw [stable]
      simp [Worse]
    · rw [oscillates]
      simp [Worse]

theorem exists_quiet {latencies : List ℚ} (positive : ∀ latency ∈ latencies, 0 < latency)
    (falling : latencies.Pairwise (· ≥ ·)) (gentle : Gentle latencies) :
    (∃ last, run after {} latencies = of latencies last ∧ Quiet latencies last) ∧
      Along after (fun detector latency => ¬ Worse (detector.direction latency)) {} latencies := by
  induction latencies using reverseRecOn with
  | nil => exact ⟨⟨.unknown, rfl, rfl⟩, trivial⟩
  | append_singleton done value ih =>
    have part : done <+: done ++ [value] := prefix_append done [value]
    rcases ih (fun latency member => positive latency (part.subset member))
      (falling.sublist part.sublist) (fun few among => gentle few (among.trans part)) with
      ⟨⟨last, known, quiet⟩, along⟩
    rcases quiet.next (average_pos (by norm_num) (by norm_num) (by simp) positive)
      (average_le_of_falling (by norm_num) (by norm_num) falling)
      (gentle _ prefix_rfl) with ⟨fine, now, next, quietNow⟩
    rw [run_append, run_cons, run_nil, along_append, along_cons, known]
    exact ⟨⟨now, next, quietNow⟩, along, fine, trivial⟩

/-- A new detector has the sign of a trend right for all sequences of latencies but those that
fall, and not gently. -/
theorem rightSign_iff (latencies : List ℚ) (positive : ∀ latency ∈ latencies, 0 < latency) :
    RightSign latencies ↔ (latencies.Pairwise (· ≥ ·) → Gentle latencies) := by
  unfold RightSign
  rw [and_iff_left along_not_better]
  apply forall_congr'
  intro falling
  refine ⟨fun along done among enough early => ?_,
    fun gentle => (exists_quiet positive falling gentle).2⟩
  by_contra far
  have nonempty : done ≠ [] := by
    rintro rfl
    simp at enough
  have split := (dropLast_concat_getLast nonempty).symm
  generalize done.dropLast = before, done.getLast nonempty = value at split
  subst split
  have fine := (along_iff_forall_at _ _).mp along before value among
  rcases exists_run_eq_of before with ⟨last, known⟩
  rw [known, direction_of enough] at fine
  apply fine
  apply worse_reported early _ (not_le.mp far)
  exact average_pos (by norm_num) (by norm_num) nonempty fun latency member =>
    positive latency (among.subset member)

/-- Latencies that hardly fall. -/
def steadyLatencies : List ℚ :=
  [100, 100, 99, 98]

theorem steadyLatencies_rightSign : RightSign steadyLatencies := by
  rw [rightSign_iff steadyLatencies (by norm_num [steadyLatencies])]
  have gentle : ∀ done ∈ steadyLatencies.inits, 3 ≤ done.length →
      85 / 100 * average (1 / 10) done ≤ average (1 / 2) done := by
    decide +kernel
  exact fun _ done among enough _ => gentle done ((mem_inits _ _).mpr among) enough

/-- A provider becomes ten times as fast, which is reported as a rapid degradation. -/
theorem not_rightSign_faster : ([1000, 100, 100] : List ℚ).Pairwise (· ≥ ·) ∧
      direction (run after {} [1000, 100]) 100 = .rapidDegradation ∧
      ¬ RightSign [1000, 100, 100] := by
  have reported : direction (run after {} [1000, 100]) 100 = .rapidDegradation := by decide +kernel
  have falling : ([1000, 100, 100] : List ℚ).Pairwise (· ≥ ·) := by norm_num
  refine ⟨falling, reported, fun right => ?_⟩
  exact (right.1 falling).2.2.1 (.inr reported)

end TrendDetector

end AgenticOS.OmniRoute
