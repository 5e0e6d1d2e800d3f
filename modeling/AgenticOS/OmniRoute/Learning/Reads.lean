import AgenticOS.OmniRoute.Learning
import AgenticOS.Transition.Run

/-!
# What reading the learning engine teaches it

A prediction and a forecast leave the engine as it is. To build the trend of a provider its
detectors are updated, as they are by an observation, so that whoever asks for scores or
reputations is part of what the engine learns from.
-/

namespace AgenticOS.OmniRoute.AdaptiveLearningEngineImpl

open AgenticOS.Transition

inductive Call
  | start
  | stop
  | dispose
  | observe (record : LearningRecord)
  | enrich (candidates : List (String × String))
  | snapshot
  | providerReputation (provider : String)
  | predict (provider model : String)
  | forecast
  | modelReputation (provider model : String)

inductive Answer
  | done
  | decision (decision : LearningDecision)
  | snapshot (snapshot : LearningSnapshot)
  | provider (reputation : Option ProviderReputation)
  | prediction (prediction : PredictionResult)
  | forecast (forecast : LearningForecast)
  | model (reputation : Option ModelReputation)
  deriving DecidableEq

variable (engine : AdaptiveLearningEngineImpl)

def perform : Call → Answer × AdaptiveLearningEngineImpl
  | .start => (.done, engine.start)
  | .stop => (.done, engine.stop)
  | .dispose => (.done, engine.dispose)
  | .observe record => (.done, engine.observe record)
  | .enrich candidates => (engine.enrich candidates).map .decision id
  | .snapshot => engine.snapshot.map .snapshot id
  | .providerReputation provider => (engine.providerReputation provider).map .provider id
  | .predict provider _ => (.prediction (engine.predict provider), engine)
  | .forecast => (.forecast engine.forecast, engine)
  | .modelReputation provider model => (.model (engine.modelReputation provider model), engine)

inductive Read
  | enrich | snapshot | providerReputation | predict | forecast
  deriving DecidableEq

def Call.read? : Call → Option Read
  | .enrich _ => some .enrich
  | .snapshot => some .snapshot
  | .providerReputation _ => some .providerReputation
  | .predict _ _ => some .predict
  | .forecast => some .forecast
  | .start | .stop | .dispose | .observe _ | .modelReputation _ _ => none

/-- A call that is part of a run, or is inserted into it. -/
structure Request where
  call : Call
  inserted : Bool := false

def step (request : Request) : AdaptiveLearningEngineImpl :=
  (engine.perform request.call).2

def answer (request : Request) : Answer :=
  (engine.perform request.call).1

def own (request : Request) : Bool :=
  !request.inserted

/-- The calls of the run are answered as they are without the inserted ones. -/
def Unnoticed (requests : List Request) : Prop :=
  answers step answer own engine requests = answers step answer own engine (requests.filter own)
deriving Decidable

def BuildsTrend : Call → Prop
  | .enrich candidates => engine.started ∧
    ∃ candidate ∈ candidates, (engine.providers.get? candidate.1).isSome
  | .snapshot => engine.providers.entries ≠ []
  | .providerReputation provider => (engine.providers.get? provider).isSome
  | .start | .stop | .dispose | .observe _ | .predict _ _ | .forecast | .modelReputation _ _ =>
    False

instance : (call : Call) → Decidable (engine.BuildsTrend call)
  | .enrich _ => inferInstanceAs (Decidable (_ ∧ _))
  | .snapshot => inferInstanceAs (Decidable (_ ≠ _))
  | .providerReputation _ => inferInstanceAs (Decidable (_ = _))
  | .start | .stop | .dispose | .observe _ | .predict _ _ | .forecast | .modelReputation _ _ =>
    inferInstanceAs (Decidable False)

def OnlyReads (request : Request) : Prop :=
  request.inserted = true → request.call.read?.isSome ∧ ¬ engine.BuildsTrend request.call
deriving Decidable

variable {engine : AdaptiveLearningEngineImpl} {call : Call} {requests : List Request}

theorem enrichCandidates_of_unknown {candidates : List (String × String)}
    (unknown : ∀ candidate ∈ candidates, engine.providers.get? candidate.1 = none) :
    engine.enrichCandidates candidates = ([], engine) := by
  induction candidates with
  | nil => rfl
  | cons candidate candidates ih =>
    have later := ih fun other member =>
      unknown other (List.mem_cons_of_mem candidate member)
    simp only [enrichCandidates, unknown candidate List.mem_cons_self, later]

theorem perform_of_not_buildsTrend (read : call.read?.isSome)
    (quiet : ¬ engine.BuildsTrend call) : (engine.perform call).2 = engine := by
  cases call with
  | enrich candidates =>
    change (engine.enrich candidates).2 = engine
    rw [enrich]
    split
    · rfl
    next asked =>
      have isStarted : engine.started := not_not.mp fun stopped => asked (.inl stopped)
      have unknown : ∀ candidate ∈ candidates,
          engine.providers.get? candidate.1 = none := by
        intro candidate member
        rw [← Option.not_isSome_iff_eq_none]
        exact fun known => quiet ⟨isStarted, candidate, member, known⟩
      rw [enrichCandidates_of_unknown unknown]
  | snapshot =>
    have none : engine.providers.entries = [] := not_not.mp quiet
    change engine.snapshot.2 = engine
    rw [snapshot, Dict.mapValues_of_entries_nil none]
  | providerReputation provider =>
    have unknown : engine.providers.get? provider = none := Option.not_isSome_iff_eq_none.mp quiet
    change (engine.providerReputation provider).2 = engine
    rw [providerReputation, unknown]
  | predict | forecast => rfl
  | start | stop | dispose | observe | modelReputation => cases read

theorem unnoticed_of_onlyReads (along : Along step OnlyReads engine requests) :
    Unnoticed engine requests := by
  have quiet : ∀ {left right : AdaptiveLearningEngineImpl} {request : Request}, left = right →
      OnlyReads left request → own request = false → step left request = right := by
    intro left right request same only inserted
    have isInserted : request.inserted = true := by simpa [own] using inserted
    rcases only isInserted with ⟨read, builds⟩
    exact (perform_of_not_buildsTrend read builds).trans same
  have loud : ∀ {left right : AdaptiveLearningEngineImpl} {request : Request}, left = right →
      OnlyReads left request → own request = true →
        answer left request = answer right request ∧ step left request = step right request := by
    rintro left right request rfl - -
    exact ⟨rfl, rfl⟩
  exact answers_filter quiet loud rfl along

theorem onlyReads_of_read {request : Request} (read : request.inserted = true →
      request.call.read? = some .predict ∨ request.call.read? = some .forecast)
    (engine : AdaptiveLearningEngineImpl) : OnlyReads engine request := by
  intro inserted
  cases isCall : request.call with
  | predict | forecast => exact ⟨rfl, id⟩
  | start | stop | dispose | observe | enrich | snapshot | providerReputation
  | modelReputation =>
    have isRead := read inserted
    simp [isCall, Call.read?] at isRead

/-- Square roots by Newton's method and the exponential series, to more than sixteen digits for
the arguments of a few observations. -/
def closeMath : MathFunctions where
  sqrt value := (List.range 7).foldl (fun guess _ => (guess + value / guess) / 2) ((value + 1) / 2)
  exp value := ((List.range 20).map fun power => value ^ power / power.factorial).sum

def newEngine : AdaptiveLearningEngineImpl where
  math := closeMath

def oneSuccess (read : Call) : List Request :=
  [⟨.start, false⟩,
    ⟨.observe { provider := "p", model := "m", success := true, latencyMs := 100 }, false⟩,
    ⟨read, true⟩, ⟨.providerReputation "p", false⟩]

theorem not_unnoticed_oneSuccess : ¬ Unnoticed newEngine (oneSuccess (.enrich [("p", "m")])) ∧
      ¬ Unnoticed newEngine (oneSuccess .snapshot) ∧
      ¬ Unnoticed newEngine (oneSuccess (.providerReputation "p")) := by
  decide +kernel

/-- Whatever is read between the calls of a run is not noticed by them, if no read builds the
trend of a provider. Whatever the reads of one kind find, they are never noticed exactly if they
are predictions or forecasts. -/
theorem unnoticed_of_reads (read : Read) :
    (∀ engine requests, Along step OnlyReads engine requests → Unnoticed engine requests) ∧
      ((∀ engine requests,
        (∀ request ∈ requests, request.inserted = true → request.call.read? = some read) →
          Unnoticed engine requests) ↔ read = .predict ∨ read = .forecast) := by
  refine ⟨fun engine requests along => unnoticed_of_onlyReads along, ?_, ?_⟩
  · intro always
    rcases not_unnoticed_oneSuccess with ⟨enriched, snapshots, reputations⟩
    cases read with
    | predict => exact .inl rfl
    | forecast => exact .inr rfl
    | enrich => exact absurd (always _ _ (by simp [oneSuccess, Call.read?])) enriched
    | snapshot => exact absurd (always _ _ (by simp [oneSuccess, Call.read?])) snapshots
    | providerReputation => exact absurd (always _ _ (by simp [oneSuccess, Call.read?])) reputations
  · intro silent engine requests inserted
    refine unnoticed_of_onlyReads (Along.of_forall_mem (fun request member state => ?_) engine)
    refine onlyReads_of_read (fun isInserted => ?_) state
    rw [inserted request member isInserted]
    simpa using silent

theorem unnoticed_prediction : Unnoticed newEngine (oneSuccess (.predict "p" "m")) :=
  (unnoticed_of_reads .predict).1 newEngine (oneSuccess (.predict "p" "m")) (by decide +kernel)

def failing (reads : List Call) : List Request :=
  [⟨.start, false⟩, ⟨.observe { provider := "p", success := true }, false⟩,
    ⟨.observe { provider := "p", failure := true }, false⟩,
    ⟨.observe { provider := "p", failure := true }, false⟩] ++
    reads.map (fun read => ⟨read, true⟩) ++ [⟨.providerReputation "p", false⟩]

/-- With a snapshot before, the trend of its successes is stable, and without it a recovery. -/
theorem noticed_snapshot : ¬ Unnoticed newEngine (failing [.snapshot]) := by
  decide +kernel

end AgenticOS.OmniRoute.AdaptiveLearningEngineImpl
