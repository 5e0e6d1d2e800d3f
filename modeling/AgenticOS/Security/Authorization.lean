import AgenticOS.Security.Framework

/-!
# What the framework authorizes

The framework allows what the tool policy permits without an approval. What needs one is
pending until somebody decides on its id, and the decision is not looked at when the request
is made again: whoever waits for it asks for it. A decision changes only by a decision on the
same id.
-/

namespace AgenticOS.Security

open Transition List

def AccessControl.Permits (access : AccessControl) (principal : Principal)
    (request : ToolRequest) : Prop :=
  ∃ permission, capToPerm.get? request.capability = some permission ∧
    access.isAllowed principal permission = true

section

variable (repr : String → String) (access : AccessControl) (principal : Principal)
  (request : ToolRequest)

theorem unknown_ne_pendingApproval (shown : String) :
    "unknown capability " ++ shown ≠ pendingApproval := by
  intro same
  have characters := congrArg String.toList same
  exact absurd (congrArg List.head? characters) (by simp [pendingApproval])

theorem lacks_ne_pendingApproval (permission : String) :
    "principal lacks permission " ++ permission ≠ pendingApproval := by
  intro same
  have characters := congrArg String.toList same
  exact absurd (congrArg (List.take 2) characters) (by simp [pendingApproval])

/-- The tool policy decides by itself on what needs no approval. -/
theorem allowed_decisionFor_iff : (decisionFor repr access principal request).allowed = true ↔
      access.Permits principal request ∧ request.requiresApproval = false := by
  unfold decisionFor AccessControl.Permits
  cases capToPerm.get? request.capability with
  | none => simp
  | some permission =>
    cases isAllowed : access.isAllowed principal permission with
    | false => simp [isAllowed]
    | true => cases request.requiresApproval <;> simp [isAllowed]

theorem reason_decisionFor_iff :
    (decisionFor repr access principal request).reason = pendingApproval ↔
      access.Permits principal request ∧ request.requiresApproval = true := by
  unfold decisionFor AccessControl.Permits
  cases capToPerm.get? request.capability with
  | none => simp [unknown_ne_pendingApproval]
  | some permission =>
    cases isAllowed : access.isAllowed principal permission with
    | false => simp [isAllowed, lacks_ne_pendingApproval]
    | true =>
      cases request.requiresApproval with
      | false => simp [isAllowed, pendingApproval]
      | true => simp [isAllowed]

end

namespace SecurityFramework

section

variable (repr : String → String) (framework : SecurityFramework) (principal : Principal)
  (request : ToolRequest)

/-- The tables after a request: a request that is left to a human is pending. -/
theorem authorize_tables :
    (framework.authorize repr principal request).2.access = framework.access ∧
    (framework.authorize repr principal request).2.decisions = framework.decisions ∧
    (framework.authorize repr principal request).2.pending =
      if (decisionFor repr framework.access principal request).reason = pendingApproval then
        framework.pending.set request.id request
      else framework.pending := by
  unfold authorize
  by_cases human : (decisionFor repr framework.access principal request).reason = pendingApproval
  · simp only [if_pos human]
    split
    all_goals exact ⟨rfl, rfl, rfl⟩
  · simp only [if_neg human]
    repeat' split
    all_goals exact ⟨rfl, rfl, rfl⟩

theorem authorize_decision :
    (framework.authorize repr principal request).1 =
      if (decisionFor repr framework.access principal request).reason = pendingApproval then
        { allowed := false, reason := pendingApproval }
      else decisionFor repr framework.access principal request := by
  unfold authorize
  by_cases human : (decisionFor repr framework.access principal request).reason = pendingApproval
  · simp only [if_pos human]
    split
    all_goals rfl
  · simp only [if_neg human]
    repeat' split
    all_goals rfl

theorem allowed_authorize_iff : (framework.authorize repr principal request).1.allowed = true ↔
      framework.access.Permits principal request ∧ request.requiresApproval = false := by
  rw [authorize_decision, ← allowed_decisionFor_iff repr]
  split
  next human =>
    refine iff_of_false Bool.false_ne_true ?_
    rw [allowed_decisionFor_iff]
    rw [reason_decisionFor_iff] at human
    rintro ⟨-, none⟩
    exact absurd human.2 (by rw [none]; exact Bool.false_ne_true)
  next => exact .rfl

theorem reason_authorize_iff :
    (framework.authorize repr principal request).1.reason = pendingApproval ↔
      framework.access.Permits principal request ∧ request.requiresApproval = true := by
  rw [authorize_decision, ← reason_decisionFor_iff repr]
  split
  next human => exact iff_of_true rfl human
  next => exact .rfl

end

def Call.DecidesOn (requestId : String) (call : Call) : Prop :=
  ∃ approved decidedBy, call = .decide requestId approved decidedBy

def AsksFor (requestId : String) (framework : SecurityFramework) (call : Call) : Prop :=
  ∃ principal request, call = .authorize principal request ∧ request.id = requestId ∧
    framework.access.Permits principal request ∧ request.requiresApproval = true

variable (repr : String → String) (framework : SecurityFramework)

theorem status_step (call : Call) (requestId : String) :
    (step repr framework call).status requestId = framework.status requestId ∨
    ∃ approved decidedBy, call = .decide requestId approved decidedBy ∧
      (step repr framework call).status requestId =
        some { allowed := approved, reason := "human decision", approvedBy := decidedBy } := by
  cases call with
  | authorize principal request =>
    left
    unfold status step
    rw [(authorize_tables repr framework principal request).2.1]
  | decide decided approved decidedBy =>
    by_cases here : requestId = decided
    · right
      subst here
      exact ⟨approved, decidedBy, rfl, Dict.get?_set_self _ _ _⟩
    · left
      exact Dict.get?_set_ne _ here _
  | assign | grant => exact .inl rfl

variable {calls : List Call} {requestId : String}

theorem status_run (none : ∀ call ∈ calls, ¬ call.DecidesOn requestId) :
    (run (step repr) framework calls).status requestId = framework.status requestId := by
  induction calls generalizing framework with
  | nil => rfl
  | cons call calls hypothesis =>
    rw [forall_mem_cons] at none
    rw [run_cons, hypothesis _ none.2]
    rcases status_step repr framework call requestId with same | ⟨approved, decidedBy, now, -⟩
    · exact same
    · exact absurd ⟨approved, decidedBy, now⟩ none.1

theorem decided_of_status {decision : Decision}
    (found : (run (step repr) framework calls).status requestId = some decision) :
    framework.status requestId = some decision ∨
    ∃ approved decidedBy, .decide requestId approved decidedBy ∈ calls ∧
      decision = { allowed := approved, reason := "human decision", approvedBy := decidedBy } := by
  induction calls generalizing framework with
  | nil => exact .inl found
  | cons call calls hypothesis =>
    rcases hypothesis _ found with before | ⟨approved, decidedBy, later, made⟩
    · rcases status_step repr framework call requestId with same | ⟨approved, decidedBy, now, set⟩
      · exact .inl (same.symm.trans before)
      · rw [set] at before
        rw [now]
        exact .inr ⟨approved, decidedBy, mem_cons_self, (Option.some.inj before).symm⟩
    · exact .inr ⟨approved, decidedBy, mem_cons_of_mem _ later, made⟩

theorem status_of_decided (decided : ∃ call ∈ calls, call.DecidesOn requestId) :
    (run (step repr) framework calls).status requestId ≠ none := by
  induction calls using List.reverseRecOn with
  | nil =>
    obtain ⟨call, member, -⟩ := decided
    cases member
  | append_singleton calls last hypothesis =>
    rw [run_append, run_cons, run_nil]
    rcases status_step repr (run (step repr) framework calls) last requestId with
      same | ⟨approved, decidedBy, -, set⟩
    · rw [same]
      obtain ⟨call, member, decides⟩ := decided
      rcases mem_append.mp member with earlier | now
      · exact hypothesis ⟨call, earlier, decides⟩
      · rw [mem_singleton] at now
        obtain ⟨approved, decidedBy, rfl⟩ := decides
        rw [← same, ← now]
        unfold status step SecurityFramework.decide publish record
        simp
    · rw [set]
      exact Option.some_ne_none _

theorem pending_step (call : Call) (requestId : String) :
    (step repr framework call).pending.get? requestId ≠ none ↔
      ¬ call.DecidesOn requestId ∧
      (framework.pending.get? requestId ≠ none ∨ framework.AsksFor requestId call) := by
  cases call with
  | authorize principal request =>
    have noDecision : ¬ (Call.authorize principal request).DecidesOn requestId := by
      rintro ⟨approved, decidedBy, same⟩
      cases same
    have asks : framework.AsksFor requestId (.authorize principal request) ↔
        request.id = requestId ∧ framework.access.Permits principal request ∧
          request.requiresApproval = true := by
      constructor
      · rintro ⟨_, _, same, rest⟩
        cases same
        exact rest
      · intro rest
        exact ⟨principal, request, rfl, rest⟩
    rw [and_iff_right noDecision, asks, ← reason_decisionFor_iff repr]
    unfold step
    rw [(authorize_tables repr framework principal request).2.2]
    by_cases human : (decisionFor repr framework.access principal request).reason = pendingApproval
    · rw [if_pos human, Dict.get?_set]
      by_cases here : requestId = request.id
      · rw [if_pos here]
        exact iff_of_true (Option.some_ne_none _) (.inr ⟨here.symm, human⟩)
      · rw [if_neg here]
        exact (or_iff_left fun both => here both.1.symm).symm
    · rw [if_neg human]
      exact (or_iff_left fun both => human both.2).symm
  | decide decided approved decidedBy =>
    have noAsking : ¬ framework.AsksFor requestId (.decide decided approved decidedBy) := by
      rintro ⟨_, _, same, -⟩
      cases same
    have decides : (Call.decide decided approved decidedBy).DecidesOn requestId ↔
        requestId = decided := by
      constructor
      · rintro ⟨_, _, same⟩
        cases same
        rfl
      · rintro rfl
        exact ⟨approved, decidedBy, rfl⟩
    rw [or_iff_left noAsking, decides]
    change (framework.pending.erase decided).get? requestId ≠ none ↔ _
    rw [Dict.get?_erase]
    by_cases here : requestId = decided
    · simp [here]
    · simp [here]
  | assign principal role =>
    have neither : ¬ (Call.assign principal role).DecidesOn requestId ∧
        ¬ framework.AsksFor requestId (.assign principal role) :=
      ⟨(fun ⟨_, _, same⟩ => nomatch same), fun ⟨_, _, same, _⟩ => nomatch same⟩
    rw [and_iff_right neither.1, or_iff_left neither.2]
    rfl
  | grant role permission =>
    have neither : ¬ (Call.grant role permission).DecidesOn requestId ∧
        ¬ framework.AsksFor requestId (.grant role permission) :=
      ⟨(fun ⟨_, _, same⟩ => nomatch same), fun ⟨_, _, same, _⟩ => nomatch same⟩
    rw [and_iff_right neither.1, or_iff_left neither.2]
    rfl

/-- An approval was asked for, and nobody has decided since. -/
def Awaits (requestId : String) (calls : List Call) : Prop :=
  ∃ before call after, calls = before ++ call :: after ∧
    (run (step repr) framework before).AsksFor requestId call ∧
    ∀ later ∈ after, ¬ later.DecidesOn requestId

theorem awaits_concat_iff (requestId : String) (calls : List Call) (last : Call) :
    framework.Awaits repr requestId (calls ++ [last]) ↔
      (framework.Awaits repr requestId calls ∧ ¬ last.DecidesOn requestId) ∨
        (run (step repr) framework calls).AsksFor requestId last := by
  constructor
  · rintro ⟨before, call, after, shape, asks, undecided⟩
    rcases eq_nil_or_concat after with rfl | ⟨front, final, rfl⟩
    · obtain ⟨rfl, same⟩ := append_inj' shape rfl
      cases same
      exact .inr asks
    · rw [concat_eq_append, ← cons_append, ← append_assoc] at shape
      rw [concat_eq_append] at undecided
      obtain ⟨rfl, same⟩ := append_inj' shape rfl
      cases same
      left
      refine ⟨⟨before, call, front, rfl, asks, fun later among => ?_⟩, ?_⟩
      · exact undecided later (mem_append_left _ among)
      · exact undecided _ (mem_append_right _ mem_cons_self)
  · rintro (⟨⟨before, call, after, rfl, asks, undecided⟩, final⟩ | asks)
    · refine ⟨before, call, after ++ [last], by simp, asks, fun later among => ?_⟩
      rcases mem_append.mp among with earlier | now
      · exact undecided later earlier
      · rw [mem_singleton] at now
        rw [now]
        exact final
    · exact ⟨calls, last, [], rfl, asks, fun _ among => absurd among not_mem_nil⟩

/-- Pending is what was asked for and not decided since. -/
theorem pending_run_iff (empty : framework.pending = .empty) (calls : List Call)
    (requestId : String) : (run (step repr) framework calls).pending.get? requestId ≠ none ↔
      framework.Awaits repr requestId calls := by
  induction calls using List.reverseRecOn with
  | nil =>
    rw [run_nil, empty]
    refine iff_of_false (fun some => some rfl) ?_
    rintro ⟨before, call, after, shape, -⟩
    cases before <;> cases shape
  | append_singleton calls last hypothesis =>
    rw [run_append, run_cons, run_nil, pending_step, hypothesis, awaits_concat_iff]
    constructor
    · rintro ⟨undecided, before | asks⟩
      · exact .inl ⟨before, undecided⟩
      · exact .inr asks
    · rintro (⟨before, undecided⟩ | asks)
      · exact ⟨undecided, .inl before⟩
      · refine ⟨?_, .inr asks⟩
        obtain ⟨_, _, rfl, -⟩ := asks
        rintro ⟨_, _, same⟩
        cases same

def after (access : AccessControl) (calls : List Call) : SecurityFramework :=
  run (step repr) { access := access } calls

/-- In every run, the framework allows what is permitted without an approval, and leaves what
is permitted with one to a human; pending is what was left and not decided since. A decision
is what somebody has decided; no other call changes it, and a decision on what is not pending
leaves the pending requests as they are. -/
theorem authorization_run (access : AccessControl) (calls : List Call) :
    (∀ principal request,
      ((after repr access calls).authorize repr principal request).1.allowed = true ↔
        (after repr access calls).access.Permits principal request ∧
          request.requiresApproval = false) ∧
    (∀ principal request,
      ((after repr access calls).authorize repr principal request).1.reason = pendingApproval ↔
        (after repr access calls).access.Permits principal request ∧
          request.requiresApproval = true) ∧
    (∀ requestId, (after repr access calls).pending.get? requestId ≠ none ↔
      Awaits repr { access := access } requestId calls) ∧
    (∀ requestId, (after repr access calls).status requestId ≠ none ↔
      ∃ call ∈ calls, call.DecidesOn requestId) ∧
    (∀ requestId decision, (after repr access calls).status requestId = some decision →
      ∃ approved decidedBy, .decide requestId approved decidedBy ∈ calls ∧
        decision =
          { allowed := approved, reason := "human decision", approvedBy := decidedBy }) ∧
    (∀ requestId later, (∀ call ∈ later, ¬ call.DecidesOn requestId) →
      (after repr access (calls ++ later)).status requestId =
        (after repr access calls).status requestId) ∧
    ∀ requestId approved decidedBy, (after repr access calls).pending.get? requestId = none →
      ∀ other,
        ((after repr access calls).decide requestId approved decidedBy).pending.get? other =
          (after repr access calls).pending.get? other := by
  unfold after
  refine ⟨?_, ?_, ?_, ?_, ?_, ?_, ?_⟩
  · intro principal request
    exact allowed_authorize_iff repr _ principal request
  · intro principal request
    exact reason_authorize_iff repr _ principal request
  · intro requestId
    exact pending_run_iff repr { access := access } rfl calls requestId
  · intro requestId
    constructor
    · intro some
      obtain ⟨decision, found⟩ := Option.ne_none_iff_exists'.mp some
      rcases decided_of_status repr _ found with before | ⟨approved, decidedBy, member, -⟩
      · cases before
      · exact ⟨_, member, approved, decidedBy, rfl⟩
    · exact status_of_decided repr _
  · intro requestId decision found
    rcases decided_of_status repr _ found with before | made
    · cases before
    · exact made
  · intro requestId later undecided
    rw [run_append]
    exact status_run repr _ undecided
  · intro requestId approved decidedBy absent other
    refine (Dict.get?_erase _ requestId other).trans ?_
    split
    next here => rw [here, absent]
    next => rfl

def terminalRequest : ToolRequest where
  id := "request-1"
  principal := { id := "operator-1", roles := [.operator] }
  capability := "terminal"
  requiresApproval := true

/-- A granted request is pending again when it is made again, an id that was never requested is
decided, and a decision is replaced by the next one. -/
theorem terminalRequest_not_final :
    ((after id {} [.authorize terminalRequest.principal terminalRequest,
        .decide "request-1" true "human"]).authorize id terminalRequest.principal
          terminalRequest).1.allowed = false ∧
    (after id {} [.decide "request-2" true "human"]).status "request-2" ≠ none ∧
    (after id {} [.authorize terminalRequest.principal terminalRequest,
        .decide "request-1" true "human", .decide "request-1" false "human"]).status "request-1" ≠
      (after id {} [.authorize terminalRequest.principal terminalRequest,
        .decide "request-1" true "human"]).status "request-1" := by
  decide +kernel

end SecurityFramework

end AgenticOS.Security
