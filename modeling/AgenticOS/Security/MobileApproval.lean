import AgenticOS.Data.Clock
import AgenticOS.Data.Dict
import AgenticOS.Orchestrator.Guards
import AgenticOS.Transition.Run
import Mathlib.Data.Finset.Insert

/-!
# Mobile approvals

An approval is requested, and a token is made for it; whoever holds the token may decide, once,
and so may the console, until the request expires. Requests and events are objects: the tables
hold the latest ones for each id, and a waiter keeps the ones that it found when it began to
wait. A request and its event are made together and have the same address here.

Every call reads the clock once. What is published on the bus is what is written to the audit
log, and left out.
-/

namespace AgenticOS.Security

open AgenticOS.Orchestrator (strip)

inductive ApprovalState
  | pending | approved | rejected | expired
  deriving DecidableEq

def ApprovalState.value : ApprovalState → String
  | pending => "pending"
  | approved => "approved"
  | rejected => "rejected"
  | expired => "expired"

/-- The object that is kept for a request. -/
structure ApprovalRequest where
  requestId : String
  operation : String
  detail : String
  principal : String
  risk : String
  state : ApprovalState := .pending
  token : String
  createdAt : Timestamp
  expiresAt : Timestamp
  decidedAt : Option Timestamp := none
  decidedBy : String := ""
  decisionVia : String := ""

structure ApprovalView where
  requestId : String
  operation : String
  detail : String
  principal : String
  risk : String
  state : ApprovalState
  createdAt : Timestamp
  expiresAt : Timestamp
  decidedBy : String
  decisionVia : String
  token : Option String

/-- `_public`. -/
def ApprovalRequest.view (request : ApprovalRequest) (includeToken : Bool) : ApprovalView where
  requestId := request.requestId
  operation := request.operation
  detail := request.detail
  principal := request.principal
  risk := request.risk
  state := request.state
  createdAt := request.createdAt
  expiresAt := request.expiresAt
  decidedBy := request.decidedBy
  decisionVia := request.decisionVia
  token := if includeToken then some request.token else none

/-- A line of the audit log. -/
structure ApprovalAudit where
  ts : Timestamp
  action : String
  requestId : String
  operation : String
  state : ApprovalState
  decidedBy : String
  via : String

/-- A call that waits: the objects that it has found, and when it gives up. -/
structure ApprovalWaiter where
  requestId : String
  request : Nat
  event : Nat
  deadline : Timestamp

/-- The arguments of `create`. -/
structure Proposal where
  operation : String
  detail : String := ""
  principal : String := ""
  risk : String := ""
  ttl : Option ℚ := none
  requestId : String := ""

structure MobileApprovalBridge where
  ttl : ℚ := 300
  /-- The objects by their addresses, and the number of them. -/
  objects : Dict Nat ApprovalRequest := .empty
  made : Nat := 0
  requests : Dict String Nat := .empty
  events : Dict String Nat := .empty
  /-- The events that are set. -/
  wakened : Finset Nat := ∅
  /-- The waiting calls, and the number of them so far. -/
  waiters : Dict Nat ApprovalWaiter := .empty
  waited : Nat := 0
  audit : List ApprovalAudit := []

namespace MobileApprovalBridge

variable (bridge : MobileApprovalBridge)

variable (now : Timestamp)

/-- `_audit`. -/
def record (action : String) (request : ApprovalRequest) : MobileApprovalBridge :=
  { bridge with
    audit := bridge.audit ++ [{
      ts := now
      action := action
      requestId := request.requestId
      operation := request.operation
      state := request.state
      decidedBy := request.decidedBy
      via := request.decisionVia }] }

def Proposal.rid (proposal : Proposal) (freshId : String) : String :=
  if proposal.requestId = "" then freshId else proposal.requestId

/-- A new request and a new event are put into the tables. -/
def enter (request : ApprovalRequest) : MobileApprovalBridge :=
  { bridge with
    objects := bridge.objects.set bridge.made request
    made := bridge.made + 1
    requests := bridge.requests.set request.requestId bridge.made
    events := bridge.events.set request.requestId bridge.made }

def create (proposal : Proposal)
    (freshId token : String) : Except String ApprovalView × MobileApprovalBridge :=
  if strip proposal.operation = "" then (.error "operation is required", bridge)
  else
    let rid := Proposal.rid proposal freshId
    let request : ApprovalRequest := {
      requestId := rid
      operation := proposal.operation
      detail := proposal.detail
      principal := proposal.principal
      risk := proposal.risk
      token := token
      createdAt := now
      expiresAt := now + proposal.ttl.getD bridge.ttl }
    (.ok (request.view true), (bridge.enter request).record now "requested" request)

def wake (requestId : String) : MobileApprovalBridge :=
  match bridge.events.get? requestId with
  | none => bridge
  | some event => { bridge with wakened := insert event bridge.wakened }

def conclude (action : String) (address : Nat) (request : ApprovalRequest) : MobileApprovalBridge :=
  let changed := { bridge with objects := bridge.objects.set address request }
  (changed.record now action request).wake request.requestId

/-- The body of the loop of `_sweep_expired`. -/
def sweepOne (bridge : MobileApprovalBridge) (address : Nat) : MobileApprovalBridge :=
  match bridge.objects.get? address with
  | none => bridge
  | some request =>
    if request.state = .pending ∧ request.expiresAt ≤ now then
      bridge.conclude now "expired" address { request with state := .expired }
    else bridge

def sweepExpired : MobileApprovalBridge :=
  bridge.requests.values.foldl (sweepOne now) bridge

def find (requestId : String) : Option ApprovalRequest :=
  (bridge.requests.get? requestId).bind bridge.objects.get?

def rows (shown : ApprovalRequest → Bool) : List ApprovalView :=
  let kept := (bridge.requests.values.filterMap bridge.objects.get?).filter shown
  (kept.map (·.view false)).mergeSort fun first second => second.createdAt ≤ first.createdAt

def pending : List ApprovalView × MobileApprovalBridge :=
  let swept := bridge.sweepExpired now
  (swept.rows fun request => request.state = .pending, swept)

def history (limit : Nat) : List ApprovalView × MobileApprovalBridge :=
  let swept := bridge.sweepExpired now
  ((swept.rows fun _ => true).take limit, swept)

def decided (request : ApprovalRequest) (now : Timestamp) (approved : Bool)
    (decidedBy via : String) : ApprovalRequest :=
  { request with
    state := if approved then .approved else .rejected
    decidedAt := some now
    decidedBy := decidedBy
    decisionVia := via }

/-- `_decide`. -/
def settle (address : Nat) (request : ApprovalRequest) (approved : Bool) (decidedBy via : String) :
    ApprovalView × MobileApprovalBridge :=
  let closed := decided request now approved decidedBy via
  (closed.view false, bridge.conclude now "decided" address closed)

def holder (token : String) : Option Nat :=
  bridge.requests.values.find? fun address =>
    (bridge.objects.get? address).any fun request => request.token = token

def decideByToken (token : String)
    (approved : Bool) (decidedBy : String) : Except String ApprovalView × MobileApprovalBridge :=
  let swept := bridge.sweepExpired now
  if strip token = "" then (.error "token is required", swept)
  else if swept.requests.size ≠ 0 ∧ ¬ token.toList.all (fun char => char.val < 128) then
    (.error "comparing strings with non-ASCII characters is not supported", swept)
  else
    match swept.holder token with
    | none => (.error "unknown or expired token; nothing was decided", swept)
    | some address =>
      match swept.objects.get? address with
      | none => (.error "unknown or expired token; nothing was decided", swept)
      | some request =>
        if request.state = .pending then
          let (view, settled) := swept.settle now address request approved decidedBy "token"
          (.ok view, settled)
        else
          (.error ("request " ++ request.requestId ++ " is already " ++ request.state.value ++
            " (the token is single-use)"), swept)

section

variable (repr : String → String) (bridge : MobileApprovalBridge) (now : Timestamp)
  (requestId : String)

def decide (approved : Bool) (decidedBy : String) :
    Except String ApprovalView × MobileApprovalBridge :=
  let swept := bridge.sweepExpired now
  match swept.requests.get? requestId with
  | none => (.error ("no approval request " ++ repr requestId), swept)
  | some address =>
    match swept.objects.get? address with
    | none => (.error ("no approval request " ++ repr requestId), swept)
    | some request =>
      if request.state = .pending then
        let (view, settled) := swept.settle now address request approved decidedBy "console"
        (.ok view, settled)
      else (.error ("request is already " ++ request.state.value), swept)

/-- `wait_for_decision` up to where it waits, which is nowhere if the event is set. -/
def waitForDecision (timeout : Option ℚ) :
    Except String (Option ApprovalView) × MobileApprovalBridge :=
  let swept := bridge.sweepExpired now
  match swept.requests.get? requestId with
  | none => (.error ("no approval request " ++ repr requestId), swept)
  | some address =>
    match swept.objects.get? address, swept.events.get? requestId with
    | none, _ => (.error ("no approval request " ++ repr requestId), swept)
    | some _, none => (.error ("no waiter for " ++ repr requestId), swept)
    | some request, some event =>
      if event ∈ swept.wakened then (.ok (some (request.view false)), swept)
      else
        let remaining := max 0 (request.expiresAt - now)
        (.ok none, { swept with
          waiters := swept.waiters.set swept.waited {
            requestId := requestId
            request := address
            event := event
            deadline := now + min (timeout.getD swept.ttl) remaining }
          waited := swept.waited + 1 })

end

/-- `wait_for_decision` from where it has waited: it is woken, or its time is over. -/
def resume (bridge : MobileApprovalBridge) (now : Timestamp) (number : Nat) :
    Option ApprovalView × MobileApprovalBridge :=
  match bridge.waiters.get? number with
  | none => (none, bridge)
  | some waiter =>
    if waiter.event ∈ bridge.wakened ∨ waiter.deadline ≤ now then
      let left := { bridge with waiters := bridge.waiters.erase number }
      let swept := if waiter.event ∈ bridge.wakened then left else left.sweepExpired now
      let final := swept.sweepExpired now
      ((final.objects.get? waiter.request).map (·.view false), final)
    else (none, bridge)

inductive Call
  | create (proposal : Proposal) (freshId token : String)
  | decideByToken (token : String) (approved : Bool) (decidedBy : String)
  | decide (requestId : String) (approved : Bool) (decidedBy : String)
  | pending
  | history (limit : Nat)
  | waitForDecision (requestId : String) (timeout : Option ℚ)
  | resume (number : Nat)

/-- What a call leaves, made at some time. -/
def step (repr : String → String) (bridge : MobileApprovalBridge) :
    Timestamp × Call → MobileApprovalBridge
  | (now, .create proposal freshId token) => (bridge.create now proposal freshId token).2
  | (now, .decideByToken token approved decidedBy) =>
    (bridge.decideByToken now token approved decidedBy).2
  | (now, .decide requestId approved decidedBy) =>
    (bridge.decide repr now requestId approved decidedBy).2
  | (now, .pending) => (bridge.pending now).2
  | (now, .history limit) => (bridge.history now limit).2
  | (now, .waitForDecision requestId timeout) =>
    (bridge.waitForDecision repr now requestId timeout).2
  | (now, .resume number) => (bridge.resume now number).2

end MobileApprovalBridge

end AgenticOS.Security
