import AgenticOS.Security.MobileApproval

/-!
# Approvals are single-use

As long as no id is taken again that has left the pending state, or that somebody waits on,
what has left this state stays as it is, is approved only in time and by the token or the
console, and wakes its waiters. A request for an id that was decided puts the id back, and the
waiters on the old event are never woken.
-/

namespace AgenticOS.Security.MobileApprovalBridge

open Transition List Dict Option
open AgenticOS.Orchestrator (strip)

/-- Both tables hold the same addresses, of objects for the ids that they are kept under; an
event is set exactly if the request is not pending any more, and the waiting calls wait for
the events of the table. -/
structure Consistent (bridge : MobileApprovalBridge) : Prop where
  events : bridge.events = bridge.requests
  stored : ∀ id address, bridge.requests.get? id = some address →
    address < bridge.made ∧
      ∃ request, bridge.objects.get? address = some request ∧ request.requestId = id
  wakened : ∀ id address request, bridge.requests.get? id = some address →
    bridge.objects.get? address = some request →
    (address ∈ bridge.wakened ↔ request.state ≠ .pending)
  below : ∀ event ∈ bridge.wakened, event < bridge.made
  waiters : ∀ number waiter, bridge.waiters.get? number = some waiter →
    bridge.requests.get? waiter.requestId = some waiter.event

variable {bridge : MobileApprovalBridge}

theorem Consistent.address_inj (consistent : bridge.Consistent) {first second : String}
    {address : Nat} (atFirst : bridge.requests.get? first = some address)
    (atSecond : bridge.requests.get? second = some address) : first = second := by
  obtain ⟨-, request, here, rfl⟩ := consistent.stored first address atFirst
  obtain ⟨-, other, there, rfl⟩ := consistent.stored second address atSecond
  cases here.symm.trans there
  rfl

theorem find_eq_some_iff {id : String} {request : ApprovalRequest} : bridge.find id = some request ↔
      ∃ address, bridge.requests.get? id = some address ∧
        bridge.objects.get? address = some request :=
  bind_eq_some_iff

section

variable (now : Timestamp) (action : String) {id : String} {address : Nat}
  {closed : ApprovalRequest}

section

variable (consistent : bridge.Consistent) (entry : bridge.requests.get? id = some address)
  (named : closed.requestId = id)
include consistent entry named

theorem Consistent.conclude_fields :
    (bridge.conclude now action address closed).requests = bridge.requests ∧
    (bridge.conclude now action address closed).events = bridge.events ∧
    (bridge.conclude now action address closed).made = bridge.made ∧
    (bridge.conclude now action address closed).waiters = bridge.waiters ∧
    (bridge.conclude now action address closed).objects = bridge.objects.set address closed ∧
    (bridge.conclude now action address closed).wakened = insert address bridge.wakened := by
  have event : bridge.events.get? closed.requestId = some address := by
    rw [consistent.events, named]
    exact entry
  unfold conclude wake record
  simp only [event]
  exact ⟨trivial, trivial, trivial, trivial, trivial, trivial⟩

theorem Consistent.conclude (left : closed.state ≠ .pending) :
    (bridge.conclude now action address closed).Consistent := by
  obtain ⟨requests, events, made, waiters, objects, wakened⟩ :=
    consistent.conclude_fields now action entry named
  refine ⟨?_, ?_, ?_, ?_, ?_⟩
  · rw [events, requests]
    exact consistent.events
  · intro other place found
    rw [requests] at found
    obtain ⟨bound, request, here, same⟩ := consistent.stored other place found
    rw [made, objects, get?_set]
    refine ⟨bound, ?_⟩
    by_cases equal : place = address
    · rw [if_pos equal]
      rw [equal] at found
      exact ⟨closed, rfl, named.trans (consistent.address_inj entry found)⟩
    · rw [if_neg equal]
      exact ⟨request, here, same⟩
  · intro other place request found stored
    rw [requests] at found
    rw [objects, get?_set] at stored
    rw [wakened, Finset.mem_insert]
    by_cases equal : place = address
    · rw [if_pos equal] at stored
      rw [← Option.some.inj stored]
      exact iff_of_true (.inl equal) left
    · rw [if_neg equal] at stored
      rw [or_iff_right equal]
      exact consistent.wakened other place request found stored
  · intro event member
    rw [wakened, Finset.mem_insert] at member
    rw [made]
    rcases member with rfl | old
    · exact (consistent.stored id event entry).1
    · exact consistent.below event old
  · intro number waiter found
    rw [waiters] at found
    rw [requests]
    exact consistent.waiters number waiter found

theorem Consistent.find_conclude (other : String) :
    (bridge.conclude now action address closed).find other =
      if other = id then some closed else bridge.find other := by
  obtain ⟨requests, -, -, -, objects, -⟩ := consistent.conclude_fields now action entry named
  unfold find
  rw [requests, objects]
  split
  next here =>
    rw [here, entry]
    exact get?_set_self _ _ _
  next there =>
    cases found : bridge.requests.get? other with
    | none => rfl
    | some place =>
      have elsewhere : place ≠ address := by
        rintro rfl
        exact there (consistent.address_inj found entry)
      exact get?_set_ne _ elsewhere _

end

end

/-- Only pending requests whose time is over have changed, and these have expired. -/
structure Evolves (now : Timestamp) (before after : MobileApprovalBridge) : Prop where
  requests : after.requests = before.requests
  waiters : after.waiters = before.waiters
  objects : ∀ address, after.objects.get? address = before.objects.get? address ∨
    ∃ request, before.objects.get? address = some request ∧ request.state = .pending ∧
      request.expiresAt ≤ now ∧
      after.objects.get? address = some { request with state := .expired }

def UpToDate (now : Timestamp) (bridge : MobileApprovalBridge) (address : Nat) : Prop :=
  ∀ request, bridge.objects.get? address = some request → request.state = .pending →
    now < request.expiresAt

section

variable {now : Timestamp}

theorem Evolves.refl (bridge : MobileApprovalBridge) : Evolves now bridge bridge :=
  ⟨rfl, rfl, fun _ => .inl rfl⟩

theorem Evolves.trans {first second third : MobileApprovalBridge}
    (before : Evolves now first second) (after : Evolves now second third) :
    Evolves now first third := by
  refine ⟨after.requests.trans before.requests, after.waiters.trans before.waiters, ?_⟩
  intro address
  rcases after.objects address with same | ⟨request, here, pending, late, expired⟩
  · rw [same]
    exact before.objects address
  · rcases before.objects address with same | ⟨earlier, there, wasPending, wasLate, wasExpired⟩
    · exact .inr ⟨request, same.symm.trans here, pending, late, expired⟩
    · rw [wasExpired] at here
      rw [← Option.some.inj here] at pending
      cases pending

theorem UpToDate.evolves {before after : MobileApprovalBridge} {address : Nat}
    (upToDate : UpToDate now before address) (evolves : Evolves now before after) :
    UpToDate now after address := by
  intro request here pending
  rcases evolves.objects address with same | ⟨earlier, -, -, -, expired⟩
  · exact upToDate request (same.symm.trans here) pending
  · rw [expired] at here
    rw [← Option.some.inj here] at pending
    cases pending

section

variable (consistent : bridge.Consistent) (now : Timestamp)
include consistent

theorem Consistent.sweepOne {id : String} {address : Nat}
    (entry : bridge.requests.get? id = some address) : (sweepOne now bridge address).Consistent ∧
      Evolves now bridge (MobileApprovalBridge.sweepOne now bridge address) ∧
      UpToDate now (MobileApprovalBridge.sweepOne now bridge address) address := by
  obtain ⟨-, request, here, named⟩ := consistent.stored id address entry
  unfold MobileApprovalBridge.sweepOne
  rw [here]
  dsimp only
  by_cases late : request.state = .pending ∧ request.expiresAt ≤ now
  · rw [if_pos late]
    have sameId : { request with state := .expired }.requestId = id := named
    obtain ⟨requests, -, -, waiters, objects, -⟩ :=
      consistent.conclude_fields now "expired" entry sameId
    have expired : (bridge.conclude now "expired" address
        { request with state := .expired }).objects.get? address =
          some { request with state := .expired } := by
      rw [objects]
      exact get?_set_self _ _ _
    refine ⟨consistent.conclude now "expired" entry sameId (by simp), ⟨requests, waiters, ?_⟩, ?_⟩
    · intro place
      by_cases equal : place = address
      · subst equal
        exact .inr ⟨request, here, late.1, late.2, expired⟩
      · left
        rw [objects]
        exact get?_set_ne _ equal _
    · intro other there pending
      rw [expired] at there
      rw [← Option.some.inj there] at pending
      cases pending
  · rw [if_neg late]
    refine ⟨consistent, .refl bridge, ?_⟩
    intro other there pending
    rw [here] at there
    cases there
    exact lt_of_not_ge fun passed => late ⟨pending, passed⟩

theorem Consistent.sweep_foldl {addresses : List Nat}
    (entries : ∀ address ∈ addresses, ∃ id, bridge.requests.get? id = some address) :
    (addresses.foldl (MobileApprovalBridge.sweepOne now) bridge).Consistent ∧
      Evolves now bridge (addresses.foldl (MobileApprovalBridge.sweepOne now) bridge) ∧
      ∀ address ∈ addresses,
        UpToDate now (addresses.foldl (MobileApprovalBridge.sweepOne now) bridge) address := by
  induction addresses generalizing bridge with
  | nil => exact ⟨consistent, .refl bridge, fun _ member => absurd member not_mem_nil⟩
  | cons address rest hypothesis =>
    rw [forall_mem_cons] at entries
    obtain ⟨⟨id, entry⟩, later⟩ := entries
    obtain ⟨kept, evolves, upToDate⟩ := consistent.sweepOne now entry
    have entriesAfter : ∀ place ∈ rest, ∃ id,
        (MobileApprovalBridge.sweepOne now bridge address).requests.get? id = some place := by
      rw [evolves.requests]
      exact later
    obtain ⟨keptAll, evolvesAll, restUpToDate⟩ := hypothesis kept entriesAfter
    refine ⟨keptAll, evolves.trans evolvesAll, ?_⟩
    rw [forall_mem_cons]
    exact ⟨upToDate.evolves evolvesAll, restUpToDate⟩

theorem Consistent.sweepExpired :
    (bridge.sweepExpired now).Consistent ∧ Evolves now bridge (bridge.sweepExpired now) ∧
      ∀ id address, (bridge.sweepExpired now).requests.get? id = some address →
        UpToDate now (bridge.sweepExpired now) address := by
  obtain ⟨kept, evolves, upToDate⟩ := consistent.sweep_foldl now
    fun address member => mem_values_iff.mp member
  refine ⟨kept, evolves, ?_⟩
  intro id address entry
  refine upToDate address (mem_values_iff.mpr ⟨id, ?_⟩)
  rw [← evolves.requests]
  exact entry

end

end

/-! ## One call -/

def Approves (request : ApprovalRequest) (call : Call) : Prop :=
  (∃ decidedBy, call = .decideByToken request.token true decidedBy) ∨
    ∃ decidedBy, call = .decide request.requestId true decidedBy

/-- What a call may make of the request that is kept for an id. -/
inductive Passes (now : Timestamp) (call : Call) :
    Option ApprovalRequest → Option ApprovalRequest → Prop
  | unchanged (request : Option ApprovalRequest) : Passes now call request request
  | expired (request : ApprovalRequest) (pending : request.state = .pending)
      (late : request.expiresAt ≤ now) :
      Passes now call (some request) (some { request with state := .expired })
  | decided (request closed : ApprovalRequest) (pending : request.state = .pending)
      (inTime : now < request.expiresAt)
      (approved : closed.state = .approved → Approves request call) :
      Passes now call (some request) (some closed)
  | created (before : Option ApprovalRequest) (request : ApprovalRequest)
      (unused : ∀ earlier, before = some earlier → earlier.state = .pending)
      (pending : request.state = .pending) : Passes now call before (some request)

/-- A call may lead to this bridge: it is consistent, and each request is what the call may make
of the one before. -/
def Leads (now : Timestamp) (call : Call) (before after : MobileApprovalBridge) : Prop :=
  after.Consistent ∧ ∀ id, Passes now call (before.find id) (after.find id)

/-- Nobody has used the id that a request is created with, or the request with the id is still
pending and nobody waits for it. -/
def Unused (bridge : MobileApprovalBridge) : Timestamp × Call → Prop
  | (_, .create proposal freshId _) =>
    strip proposal.operation ≠ "" →
      (∀ request, bridge.find (Proposal.rid proposal freshId) = some request →
        request.state = .pending) ∧
      ∀ number waiter, bridge.waiters.get? number = some waiter →
        waiter.requestId ≠ Proposal.rid proposal freshId
  | _ => True

section

variable {now : Timestamp} {call : Call}

theorem Passes.of_evolves {after : MobileApprovalBridge} (evolves : Evolves now bridge after)
    (id : String) : Passes now call (bridge.find id) (after.find id) := by
  unfold find
  rw [evolves.requests]
  cases bridge.requests.get? id with
  | none => exact .unchanged none
  | some address =>
    rcases evolves.objects address with same | ⟨request, here, pending, late, expired⟩
    · simp only [bind_some, same]
      exact .unchanged _
    · simp only [bind_some, here, expired]
      exact .expired request pending late

variable {request : ApprovalRequest}

section

variable (consistent : bridge.Consistent)
include consistent

theorem Consistent.leads_settle {id : String} {address : Nat}
    (entry : (bridge.sweepExpired now).requests.get? id = some address)
    (here : (bridge.sweepExpired now).objects.get? address = some request)
    (pending : request.state = .pending) (approved : Bool) (decidedBy via : String)
    (approves : approved = true → Approves request call) : Leads now call bridge
      ((bridge.sweepExpired now).settle now address request approved decidedBy via).2 := by
  obtain ⟨kept, evolves, upToDate⟩ := consistent.sweepExpired now
  obtain ⟨-, _, same, named⟩ := kept.stored id address entry
  cases here.symm.trans same
  have sameId : (decided request now approved decidedBy via).requestId = id := named
  have left : (decided request now approved decidedBy via).state ≠ .pending := by
    cases approved
    all_goals simp [decided]
  refine ⟨kept.conclude now "decided" entry sameId left, ?_⟩
  intro other
  unfold MobileApprovalBridge.settle
  rw [kept.find_conclude now "decided" entry sameId other]
  split
  next own =>
    have inTime := upToDate id address entry request here pending
    have before : bridge.find other = some request := by
      rw [evolves.requests, ← own] at entry
      rcases evolves.objects address with unchanged | ⟨_, -, -, -, expired⟩
      · exact find_eq_some_iff.mpr ⟨address, entry, unchanged.symm.trans here⟩
      · cases here.symm.trans expired
        cases pending
    rw [before]
    refine .decided request _ pending inTime fun approvedNow => approves ?_
    cases approved
    · cases approvedNow
    · rfl
  next => exact .of_evolves evolves other

theorem Consistent.enter (pending : request.state = .pending)
    (unawaited : ∀ number waiter, bridge.waiters.get? number = some waiter →
      waiter.requestId ≠ request.requestId) : (bridge.enter request).Consistent := by
  refine ⟨?_, ?_, ?_, ?_, ?_⟩
  · unfold MobileApprovalBridge.enter
    rw [consistent.events]
  · intro id address found
    change (bridge.requests.set request.requestId bridge.made).get? id = some address at found
    change address < bridge.made + 1 ∧
      ∃ kept, (bridge.objects.set bridge.made request).get? address = some kept ∧
        kept.requestId = id
    rw [get?_set] at found
    by_cases own : id = request.requestId
    · rw [if_pos own] at found
      cases found
      exact ⟨Nat.lt_succ_self _, request, get?_set_self _ _ _, own.symm⟩
    · rw [if_neg own] at found
      obtain ⟨bound, other, here, named⟩ := consistent.stored id address found
      rw [get?_set_ne _ bound.ne]
      exact ⟨Nat.lt_succ_of_lt bound, other, here, named⟩
  · intro id address kept found here
    change (bridge.requests.set request.requestId bridge.made).get? id = some address at found
    change (bridge.objects.set bridge.made request).get? address = some kept at here
    rw [get?_set] at found
    by_cases own : id = request.requestId
    · rw [if_pos own] at found
      cases found
      rw [get?_set_self] at here
      cases here
      exact iff_of_false (fun member => (consistent.below _ member).false) fun left => left pending
    · rw [if_neg own] at found
      obtain ⟨bound, -⟩ := consistent.stored id address found
      rw [get?_set_ne _ bound.ne] at here
      exact consistent.wakened id address kept found here
  · intro event member
    exact Nat.lt_succ_of_lt (consistent.below event member)
  · intro number waiter found
    exact (get?_set_ne _ (unawaited number waiter found) _).trans
      (consistent.waiters number waiter found)

theorem Consistent.find_enter (request : ApprovalRequest) (id : String) :
    (bridge.enter request).find id =
      if id = request.requestId then some request else bridge.find id := by
  unfold find MobileApprovalBridge.enter
  rw [get?_set]
  split
  next => exact get?_set_self _ _ _
  next =>
    cases found : bridge.requests.get? id with
    | none => rfl
    | some address =>
      obtain ⟨bound, -⟩ := consistent.stored id address found
      exact get?_set_ne _ bound.ne _

theorem Consistent.enter_passes (pending : request.state = .pending)
    (unused : ∀ earlier, bridge.find request.requestId = some earlier →
      earlier.state = .pending) (id : String) :
    Passes now call (bridge.find id) ((bridge.enter request).find id) := by
  rw [consistent.find_enter]
  split
  next own =>
    rw [own]
    exact .created _ request unused pending
  next => exact .unchanged _

theorem Consistent.record (now : Timestamp) (action : String) (request : ApprovalRequest) :
    (bridge.record now action request).Consistent :=
  ⟨consistent.events, consistent.stored, consistent.wakened, consistent.below, consistent.waiters⟩

/-- Another call waits for the event of an id. -/
theorem Consistent.await {waiter : ApprovalWaiter}
    (entry : bridge.requests.get? waiter.requestId = some waiter.event) (number waited : Nat) :
    Consistent { bridge with
      waiters := bridge.waiters.set number waiter
      waited := waited } := by
  refine ⟨consistent.events, consistent.stored, consistent.wakened, consistent.below, ?_⟩
  intro other kept found
  rw [get?_set] at found
  split at found
  · cases found
    exact entry
  · exact consistent.waiters other kept found

theorem Consistent.leave (number : Nat) :
    Consistent { bridge with waiters := bridge.waiters.erase number } :=
  ⟨consistent.events, consistent.stored, consistent.wakened, consistent.below,
    fun other waiter found => consistent.waiters other waiter (get?_of_get?_erase found)⟩

theorem Consistent.leads_self : Leads now call bridge bridge :=
  ⟨consistent, fun _ => .unchanged _⟩

theorem Consistent.leads_sweepExpired : Leads now call bridge (bridge.sweepExpired now) := by
  obtain ⟨kept, evolves, -⟩ := consistent.sweepExpired now
  exact ⟨kept, fun id => .of_evolves evolves id⟩

theorem Consistent.leads_create {proposal : Proposal} {freshId token : String}
    (unused : bridge.Unused (now, .create proposal freshId token)) :
    Leads now call bridge (bridge.create now proposal freshId token).2 := by
  unfold create
  split
  · exact consistent.leads_self
  next given =>
    obtain ⟨unusedId, unawaited⟩ := unused given
    exact ⟨(consistent.enter rfl unawaited).record _ _ _,
      fun id => consistent.enter_passes rfl unusedId id⟩

theorem Consistent.leads_decideByToken (token : String) (approved : Bool) (decidedBy : String) :
    Leads now (.decideByToken token approved decidedBy) bridge
      (bridge.decideByToken now token approved decidedBy).2 := by
  unfold decideByToken
  dsimp only
  split
  · exact consistent.leads_sweepExpired
  · split
    · exact consistent.leads_sweepExpired
    · cases held : (bridge.sweepExpired now).holder token with
      | none => exact consistent.leads_sweepExpired
      | some address =>
        obtain ⟨id, entry⟩ := mem_values_iff.mp (mem_of_find?_eq_some held)
        have carries := find?_some held
        dsimp only
        cases here : (bridge.sweepExpired now).objects.get? address with
        | none => exact consistent.leads_sweepExpired
        | some request =>
          rw [here, any_some, decide_eq_true_eq] at carries
          dsimp only
          split
          next pending =>
            refine consistent.leads_settle entry here pending approved decidedBy "token" ?_
            rintro rfl
            rw [← carries]
            exact .inl ⟨decidedBy, rfl⟩
          next => exact consistent.leads_sweepExpired

theorem Consistent.leads_decide (repr : String → String) (requestId : String) (approved : Bool)
    (decidedBy : String) : Leads now (.decide requestId approved decidedBy) bridge
      (bridge.decide repr now requestId approved decidedBy).2 := by
  unfold MobileApprovalBridge.decide
  dsimp only
  cases entry : (bridge.sweepExpired now).requests.get? requestId with
  | none => exact consistent.leads_sweepExpired
  | some address =>
    dsimp only
    cases here : (bridge.sweepExpired now).objects.get? address with
    | none => exact consistent.leads_sweepExpired
    | some request =>
      dsimp only
      split
      next pending =>
        obtain ⟨kept, -⟩ := consistent.sweepExpired now
        obtain ⟨-, _, same, named⟩ := kept.stored requestId address entry
        cases here.symm.trans same
        refine consistent.leads_settle entry here pending approved decidedBy "console" ?_
        rintro rfl
        rw [← named]
        exact .inr ⟨decidedBy, rfl⟩
      next => exact consistent.leads_sweepExpired

theorem Consistent.leads_waitForDecision (repr : String → String) (requestId : String)
    (timeout : Option ℚ) :
    Leads now call bridge (bridge.waitForDecision repr now requestId timeout).2 := by
  unfold waitForDecision
  dsimp only
  cases entry : (bridge.sweepExpired now).requests.get? requestId with
  | none => exact consistent.leads_sweepExpired
  | some address =>
    dsimp only
    cases here : (bridge.sweepExpired now).objects.get? address with
    | none => exact consistent.leads_sweepExpired
    | some request =>
      cases event : (bridge.sweepExpired now).events.get? requestId with
      | none => exact consistent.leads_sweepExpired
      | some wakes =>
        dsimp only
        split
        · exact consistent.leads_sweepExpired
        · have ⟨kept, passes⟩ : Leads now call bridge (bridge.sweepExpired now) :=
            consistent.leads_sweepExpired
          refine ⟨?_, passes⟩
          rw [kept.events, entry] at event
          cases event
          exact kept.await entry _ _

theorem Consistent.leads_resume (number : Nat) :
    Leads now call bridge (bridge.resume now number).2 := by
  unfold resume
  cases bridge.waiters.get? number with
  | none => exact consistent.leads_self
  | some waiter =>
    dsimp only
    split
    next =>
      have left := consistent.leave number
      obtain ⟨first, evolved, -⟩ := left.sweepExpired now
      split
      next => exact ⟨first, fun id => .of_evolves evolved id⟩
      next =>
        obtain ⟨final, evolvedAgain, -⟩ := first.sweepExpired now
        exact ⟨final, fun id => .of_evolves (evolved.trans evolvedAgain) id⟩
    next => exact consistent.leads_self

theorem Consistent.step (repr : String → String) (unused : bridge.Unused (now, call)) :
    Leads now call bridge (MobileApprovalBridge.step repr bridge (now, call)) := by
  cases call with
  | create proposal freshId token => exact consistent.leads_create unused
  | decideByToken token approved decidedBy =>
    exact consistent.leads_decideByToken token approved decidedBy
  | decide requestId approved decidedBy =>
    exact consistent.leads_decide repr requestId approved decidedBy
  | pending | history => exact consistent.leads_sweepExpired
  | waitForDecision requestId timeout =>
    exact consistent.leads_waitForDecision repr requestId timeout
  | resume number => exact consistent.leads_resume number

end

end

/-! ## Runs -/

theorem consistent_new (ttl : ℚ) : Consistent { ttl := ttl } :=
  ⟨rfl, (fun _ _ found => nomatch found), (fun _ _ _ found => nomatch found),
    fun _ member => absurd member (Finset.notMem_empty _), fun _ _ found => nomatch found⟩

def Settled (before after : MobileApprovalBridge) : Prop :=
  ∀ id request, before.find id = some request → request.state ≠ .pending →
    after.find id = some request

/-- In every run: a request that has left the pending state stays as it is, one becomes
approved only while it is pending and in time and by its token or the console, and who waits on
an id is woken when its request is not pending any more. -/
structure SingleUse (repr : String → String) (start : MobileApprovalBridge)
    (calls : List (Timestamp × Call)) : Prop where
  settled : ∀ earlier later, earlier <+: later → later <+: calls →
    Settled (run (step repr) start earlier) (run (step repr) start later)
  approved : ∀ done now call, done ++ [(now, call)] <+: calls → ∀ id request,
    (run (step repr) start (done ++ [(now, call)])).find id = some request →
    request.state = .approved →
    (run (step repr) start done).find id = some request ∨
    ∃ before, (run (step repr) start done).find id = some before ∧ before.state = .pending ∧
      now < before.expiresAt ∧ Approves before call
  woken : ∀ done, done <+: calls → ∀ number waiter,
    (run (step repr) start done).waiters.get? number = some waiter →
    ∀ request, (run (step repr) start done).find waiter.requestId = some request →
    request.state ≠ .pending → waiter.event ∈ (run (step repr) start done).wakened

theorem Passes.settled {now : Timestamp} {call : Call} {before : ApprovalRequest}
    {after : Option ApprovalRequest} (passes : Passes now call (some before) after)
    (left : before.state ≠ .pending) : after = some before := by
  cases passes with
  | unchanged => rfl
  | expired _ pending => exact absurd pending left
  | decided _ _ pending => exact absurd pending left
  | created _ _ unused => exact absurd (unused before rfl) left

theorem Passes.approved {now : Timestamp} {call : Call} {before : Option ApprovalRequest}
    {after : ApprovalRequest} (passes : Passes now call before (some after))
    (approved : after.state = .approved) :
    before = some after ∨ ∃ request, before = some request ∧ request.state = .pending ∧
      now < request.expiresAt ∧ Approves request call := by
  cases passes with
  | unchanged => exact .inl rfl
  | expired => cases approved
  | decided request _ pending inTime approves =>
    exact .inr ⟨request, rfl, pending, inTime, approves approved⟩
  | created _ _ _ pending =>
    rw [pending] at approved
    cases approved

/-- Approvals are single-use in every run that creates requests under unused ids. -/
theorem singleUse_of_unused (repr : String → String) (ttl : ℚ)
    (calls : List (Timestamp × Call))
    (unused : Along (step repr) Unused { ttl := ttl } calls) :
    SingleUse repr { ttl := ttl } calls := by
  have preserved : ∀ bridge action, Consistent bridge → bridge.Unused action →
      (step repr bridge action).Consistent :=
    fun bridge action consistent allowed => (consistent.step repr allowed).1
  refine ⟨?_, ?_, ?_⟩
  · intro earlier later first second
    refine unused.related ?_ ?_ ?_ preserved (consistent_new ttl) first second
    · exact fun _ _ _ found _ => found
    · exact fun _ _ _ before after id request found left =>
        after id request (before id request found left) left
    · intro bridge action consistent allowed id request found left
      have passes := (consistent.step repr allowed).2 id
      rw [found] at passes
      exact passes.settled left
  · intro done now call earlier id request found approved
    have guarded := unused.of_prefix earlier
    have consistent : (run (step repr) { ttl := ttl } done).Consistent :=
      ((along_append _ _ _).mp guarded).1.invariant preserved (consistent_new ttl)
    rw [run_append, run_cons, run_nil] at found
    have passes := (consistent.step repr guarded.at).2 id
    rw [found] at passes
    exact passes.approved approved
  · intro done earlier number waiter found request kept left
    have consistent := (unused.of_prefix earlier).invariant preserved (consistent_new ttl)
    obtain ⟨address, entry, here⟩ := find_eq_some_iff.mp kept
    have event := consistent.waiters number waiter found
    cases entry.symm.trans event
    exact (consistent.wakened _ _ _ entry here).mpr left

def deployProposal : Proposal where
  operation := "deploy"
  requestId := "apr-1"

/-- A request that is waited for and approved with its token. -/
theorem singleUse_deploy : SingleUse id { ttl := 300 }
    [(0, .create deployProposal "" "token-1"), (1, .waitForDecision "apr-1" none),
      (2, .decideByToken "token-1" true "alice")] :=
  singleUse_of_unused id 300 _
    ⟨fun _ => ⟨(fun _ found => nomatch found), fun _ _ found => nomatch found⟩, trivial,
      trivial, trivial⟩

/-- The id is approved, and requested again. -/
def reopened : List (Timestamp × Call) :=
  [(0, .create deployProposal "" "token-1"), (1, .decide "apr-1" true "operator"),
    (2, .create deployProposal "" "token-2")]

/-- The id is requested again while somebody waits, and then approved. -/
def superseded : List (Timestamp × Call) :=
  [(0, .create deployProposal "" "token-1"), (1, .waitForDecision "apr-1" none),
    (2, .create deployProposal "" "token-2"), (3, .decide "apr-1" true "operator")]

/-- The approved id is pending again, and the waiter is not woken. -/
theorem reopened_not_singleUse : ¬ SingleUse id {} reopened ∧ ¬ SingleUse id {} superseded := by
  constructor
  · intro single
    have settled := single.settled (reopened.take 2) reopened ( take_prefix _ _)
      prefix_rfl "apr-1"
    have approved : ((run (step id) {} (reopened.take 2)).find "apr-1").map (·.state) =
        some .approved := by
      decide +kernel
    have pending : ((run (step id) {} reopened).find "apr-1").map (·.state) = some .pending := by
      decide +kernel
    obtain ⟨request, found, state⟩ := map_eq_some_iff.mp approved
    rw [settled request found (by rw [state]; decide), map_some, state] at pending
    cases pending
  · intro single
    have waits : ((run (step id) {} superseded).waiters.get? 0).map
        (fun waiter => (waiter.requestId, waiter.event)) = some ("apr-1", 0) := by
      decide +kernel
    have approved : ((run (step id) {} superseded).find "apr-1").map (·.state) =
        some .approved := by
      decide +kernel
    have asleep : 0 ∉ (run (step id) {} superseded).wakened := by decide +kernel
    obtain ⟨waiter, found, shape⟩ := map_eq_some_iff.mp waits
    obtain ⟨request, kept, state⟩ := map_eq_some_iff.mp approved
    have woken := single.woken superseded prefix_rfl 0 waiter found request
    rw [Prod.mk.injEq] at shape
    rw [shape.1, shape.2] at woken
    exact asleep (woken kept (by rw [state]; decide))

end AgenticOS.Security.MobileApprovalBridge
