import AgenticOS.Data.Dict
import AgenticOS.Transition.Run
import Mathlib.Data.Finset.Image

/-!
# The security framework

A request of a tool is checked against the roles of its principal. A request that needs an
approval as well is put to the approval gate, which keeps it until a human decides; the
decision is kept under the id of the request, for the caller to ask for. Every step is
written to the audit log.

A principal is the key of its roles with all of its fields, as equality compares all of them.
-/

namespace AgenticOS.Security

inductive Role
  | admin | operator | agent | auditor | guest
  deriving DecidableEq

structure Principal where
  id : String
  roles : List Role := [.agent]
  deriving DecidableEq

structure ToolRequest where
  id : String
  principal : Principal
  capability : String
  workspace : String := ""
  detail : String := ""
  requiresApproval : Bool := false
  createdAt : Nat := 0

structure Decision where
  allowed : Bool
  reason : String := ""
  approvedBy : String := ""
  deriving DecidableEq

structure AuditEntry where
  principal : String
  action : String
  target : String := ""
  outcome : String := ""
  details : String × String

/-- What is published on the bus. -/
inductive SecurityEvent
  | toolDenied (capability principal : String)
  | approvalRequested (request : ToolRequest)
  | approvalDecided (requestId : String) (approved : Bool) (decidedBy : String)

/-- `PERMISSIONS`. -/
def permissions : Finset String :=
  {"tool.terminal", "tool.git", "tool.docker", "tool.filesystem", "tool.browser",
    "memory.read", "memory.write", "provider.manage", "agent.compose", "security.audit",
    "mcp.server.create", "mcp.server.read", "mcp.server.update", "mcp.server.delete",
    "mcp.server.start", "mcp.server.stop", "mcp.server.restart", "mcp.server.reload",
    "mcp.tool.invoke", "mcp.tool.discover", "mcp.tool.read", "mcp.resource.read",
    "mcp.resource.subscribe", "mcp.prompt.get", "mcp.prompt.list", "mcp.session.manage",
    "mcp.session.read", "mcp.permissions.manage", "mcp.permissions.read", "mcp.health.read",
    "mcp.config.read", "mcp.config.update", "mcp.telemetry.read", "mcp.audit.read"}

/-- `_DEFAULT_GRANTS`. -/
def defaultGrants : Dict Role (Finset String) :=
  .ofList [
    (.admin, permissions),
    (.operator, {"provider.manage", "agent.compose", "memory.read", "memory.write",
      "tool.browser", "tool.terminal", "tool.docker", "security.audit"}),
    (.agent, {"memory.read", "memory.write", "tool.browser", "agent.compose"}),
    (.auditor, {"security.audit"}),
    (.guest, ∅)]

structure AccessControl where
  roles : Dict Principal (Finset Role) := .empty
  grants : Dict Role (Finset String) := defaultGrants

namespace AccessControl

def assign (access : AccessControl) (principal : Principal) (role : Role) : AccessControl :=
  { access with
    roles := access.roles.set principal (insert role ((access.roles.get? principal).getD ∅)) }

def grant (access : AccessControl) (role : Role) (permission : String) : AccessControl :=
  { access with
    grants := access.grants.set role (insert permission ((access.grants.get? role).getD ∅)) }

/-- The roles that count for a principal: the assigned ones, or its own if there are none. -/
def rolesOf (access : AccessControl) (principal : Principal) : Finset Role :=
  (access.roles.get? principal).getD principal.roles.toFinset

def isAllowed (access : AccessControl) (principal : Principal) (permission : String) : Bool :=
  decide (∃ role ∈ access.rolesOf principal, permission ∈ (access.grants.get? role).getD ∅)

end AccessControl

/-- `_CAP_TO_PERM`. -/
def capToPerm : Dict String String :=
  .ofList [
    ("terminal", "tool.terminal"),
    ("git", "tool.git"),
    ("docker", "tool.docker"),
    ("filesystem", "tool.filesystem"),
    ("browser", "tool.browser"),
    ("memory", "memory.write"),
    ("reasoning", "agent.compose"),
    ("planning", "agent.compose"),
    ("coding", "agent.compose"),
    ("research", "agent.compose"),
    ("vision", "agent.compose")]

/-- The reason of a decision that is left to a human. -/
def pendingApproval : String :=
  "pending human approval"

/-- `decision_for`; `repr` is how the reason shows an unknown capability. -/
def decisionFor (repr : String → String) (access : AccessControl) (principal : Principal)
    (request : ToolRequest) : Decision :=
  match capToPerm.get? request.capability with
  | none => { allowed := false, reason := "unknown capability " ++ repr request.capability }
  | some permission =>
    if access.isAllowed principal permission then
      if request.requiresApproval then { allowed := false, reason := pendingApproval }
      else { allowed := true, reason := "rbac allow" }
    else { allowed := false, reason := "principal lacks permission " ++ permission }

/-- The access control, the tables of the approval gate, the audit log and the bus. -/
structure SecurityFramework where
  access : AccessControl := {}
  pending : Dict String ToolRequest := .empty
  decisions : Dict String Decision := .empty
  audit : List AuditEntry := []
  published : List SecurityEvent := []

namespace SecurityFramework

variable (framework : SecurityFramework)

def record (entry : AuditEntry) : SecurityFramework :=
  { framework with audit := framework.audit ++ [entry] }

def publish (event : SecurityEvent) : SecurityFramework :=
  { framework with published := framework.published ++ [event] }

def request (request : ToolRequest) : Decision × SecurityFramework :=
  let kept := { framework with pending := framework.pending.set request.id request }
  let recorded := kept.record {
    principal := request.principal.id
    action := "approval.requested"
    target := request.capability
    outcome := "pending"
    details := ("detail", request.detail) }
  ({ allowed := false, reason := pendingApproval }, recorded.publish (.approvalRequested request))

/-- `ApprovalGateImpl.decide`. An id that is not pending is decided as well. -/
def decide (requestId : String) (approved : Bool) (decidedBy : String) : SecurityFramework :=
  let request := framework.pending.get? requestId
  let decided := { framework with
    pending := framework.pending.erase requestId
    decisions := framework.decisions.set requestId
      { allowed := approved, reason := "human decision", approvedBy := decidedBy } }
  let recorded := decided.record {
    principal := (request.map fun request => request.principal.id).getD requestId
    action := if approved then "approval.granted" else "approval.rejected"
    target := (request.map ToolRequest.capability).getD ""
    outcome := if approved then "approved" else "rejected"
    details := ("by", decidedBy) }
  recorded.publish (.approvalDecided requestId approved decidedBy)

def status (requestId : String) : Option Decision :=
  framework.decisions.get? requestId

def authorize (repr : String → String) (framework : SecurityFramework) (principal : Principal)
    (request : ToolRequest) : Decision × SecurityFramework :=
  let decision := decisionFor repr framework.access principal request
  let (decision, asked) :=
    if decision.reason = pendingApproval then framework.request request
    else (decision, framework)
  let outcome :=
    if decision.allowed then "allow"
    else if decision.reason = pendingApproval then "pending"
    else "deny"
  let recorded := asked.record {
    principal := principal.id
    action := if decision.allowed then "tool.authorized" else "tool.denied"
    target := request.capability
    outcome := outcome
    details := ("reason", decision.reason) }
  if !decision.allowed && outcome = "deny" then
    (decision, recorded.publish (.toolDenied request.capability principal.id))
  else (decision, recorded)

/-- A call of the framework, of its gate or of its access control. -/
inductive Call
  | authorize (principal : Principal) (request : ToolRequest)
  | decide (requestId : String) (approved : Bool) (decidedBy : String)
  | assign (principal : Principal) (role : Role)
  | grant (role : Role) (permission : String)

def step (repr : String → String) (framework : SecurityFramework) : Call → SecurityFramework
  | .authorize principal request => (framework.authorize repr principal request).2
  | .decide requestId approved decidedBy => framework.decide requestId approved decidedBy
  | .assign principal role => { framework with access := framework.access.assign principal role }
  | .grant role permission => { framework with access := framework.access.grant role permission }

end SecurityFramework

end AgenticOS.Security
