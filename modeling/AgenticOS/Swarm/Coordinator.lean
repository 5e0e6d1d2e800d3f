import AgenticOS.Data.Decimal
import AgenticOS.Data.Dict
import AgenticOS.Transition.Pool
import AgenticOS.Transition.Run
import Mathlib.Data.List.Sort

/-!
# The swarm coordinator

A swarm has a list of members and a table of their roles. A team is formed at once; the
removal of a brain is handled by a process that looks at the lists which were there when it
began, and which is suspended whenever it publishes. Other processes and new teams come in
between.

A list of members is an object: who has captured it sees what is appended to it later. So
the lists are held in a heap, and the table of the swarms names them by their addresses.
-/

namespace AgenticOS.Swarm

open Transition

inductive SwarmRole where
  | leader
  | planner
  | researcher
  | coder
  | reviewer
  | validator
  | executor
  | observer
deriving DecidableEq

/-- What the coordinator reads of a brain in the registry. -/
structure BrainRecord where
  id : String
  displayName : String
  health : ℚ := 100
  capabilities : List String := []
  latency : ℚ := 0

structure Member where
  id : String
  name : String
  capabilities : List String
  health : ℚ
  latency : ℚ
  confidence : Option ℚ := none

def ids (members : List Member) : List String :=
  members.map Member.id

/-- `_CAPABILITY_TO_ROLE`. -/
def capabilityToRole (capability : String) : Option SwarmRole :=
  match capability with
  | "coding" => some .coder
  | "code_generation" => some .coder
  | "reasoning" => some .planner
  | "testing" => some .validator
  | "validation" => some .validator
  | "research" => some .researcher
  | "documentation" => some .researcher
  | "review" => some .reviewer
  | "security" => some .reviewer
  | "terminal" => some .executor
  | "file_operations" => some .executor
  | "chat" => some .executor
  | _ => none

/-- The first role for one of the capabilities that is still free. -/
def bestRole (lower : String → String) (usedRoles : List SwarmRole)
    (capabilities : List String) : SwarmRole :=
  ((capabilities.filterMap fun capability => capabilityToRole (lower capability)).find?
    fun role => role ∉ usedRoles).getD .executor

/-- The roles so far, and which have been used. -/
structure Assignment where
  assignments : Dict String SwarmRole := .empty
  usedRoles : List SwarmRole := []

/-- Give a role to one member; the first without a leader becomes the leader. -/
def assignRole (lower : String → String) (assignment : Assignment) (member : Member) : Assignment :=
  if member.id = "" ∨ member.id ∈ assignment.assignments.keys then assignment
  else
    let role := if SwarmRole.leader ∉ assignment.usedRoles then .leader
      else bestRole lower assignment.usedRoles member.capabilities
    { assignments := assignment.assignments.set member.id role
      usedRoles := role :: assignment.usedRoles }

def assignRoles (lower : String → String) (members : List Member)
    (existingLeader : Option String) : Dict String SwarmRole :=
  let initially : Assignment :=
    match existingLeader with
    | none => {}
    | some leader =>
      if leader = "" then {}
      else { assignments := .ofList [(leader, .leader)], usedRoles := [.leader] }
  (members.foldl (assignRole lower) initially).assignments

/-- How well a brain fits, and how well it is. -/
def confidence (requiredCapabilities : List String) (brain : BrainRecord) : ℚ :=
  let matching : Nat := requiredCapabilities.countP fun capability =>
    capability ∈ brain.capabilities
  let healthScore := brain.health / 100
  let latencyScore := if 0 < brain.latency then max 0 (1 - brain.latency / 5000) else 1 / 2
  let capMatch : ℚ := matching / (max requiredCapabilities.length 1 : Nat)
  let availability : ℚ := if 50 ≤ brain.health then 1 else 0
  healthScore * (35 / 100) + latencyScore * (25 / 100) + capMatch * (25 / 100) +
    availability * (15 / 100)

/-- The slice `[:stop]` of a list. -/
def sliceTo {α : Type} (items : List α) (stop : Int) : List α :=
  items.take (if 0 ≤ stop then stop.toNat else items.length - (-stop).toNat)

structure TeamRequest where
  requiredCapabilities : List String := []
  maxMembers : Int := 5

def teamOf (request : TeamRequest) (brains : List BrainRecord) : List Member :=
  let required :=
    if request.requiredCapabilities = [] then ["chat"] else request.requiredCapabilities
  let scored := brains.map fun brain => (brain, confidence required brain)
  let sorted := scored.insertionSort fun first second => second.2 ≤ first.2
  (sliceTo sorted request.maxMembers).map fun entry =>
    { id := entry.1.id
      name := entry.1.displayName
      capabilities := entry.1.capabilities
      health := entry.1.health
      latency := entry.1.latency
      confidence := some (Decimal.roundTo 3 entry.2) }

structure Store where
  registry : Dict String BrainRecord := .empty
  lists : List (List Member) := []
  swarmMembers : Dict String Nat := .empty
  swarmRoles : Dict String (Dict String SwarmRole) := .empty

namespace Store

def membersAt (store : Store) (address : Nat) : List Member :=
  store.lists.getD address []

def setMembers (store : Store) (swarmId : String) (members : List Member) : Store :=
  { store with
    lists := store.lists ++ [members]
    swarmMembers := store.swarmMembers.set swarmId store.lists.length }

def append (store : Store) (address : Nat) (member : Member) : Store :=
  { store with lists := store.lists.set address (store.membersAt address ++ [member]) }

end Store

/-- `create_team`, up to its first suspension, behind which it changes no table. -/
def createTeam (lower : String → String) (swarmId : String) (request : TeamRequest)
    (store : Store) : Store :=
  let members := teamOf request store.registry.values
  let store := store.setMembers swarmId members
  { store with swarmRoles := store.swarmRoles.set swarmId (assignRoles lower members none) }

/-- How far the handling of a removal has come: its event is published; it is suspended
behind `swarm.member.left` or `swarm.member.joined`, with the swarms that remain; or it is
over. -/
inductive Stage where
  | published
  | left (swarmId : String) (remaining : List (String × Nat))
  | joined (remaining : List (String × Nat))
  | over
deriving DecidableEq

structure Removal where
  brainId : String
  stage : Stage := .published
deriving DecidableEq

/-- Go through the captured lists up to the first that has the brain. -/
def visit (store : Store) (brainId : String) : List (String × Nat) → Store × Stage
  | [] => (store, .over)
  | (swarmId, address) :: remaining =>
    let members := store.membersAt address
    if brainId ∈ ids members then
      (store.setMembers swarmId (members.filter fun member => member.id ≠ brainId),
        .left swarmId remaining)
    else visit store brainId remaining

/-- The first healthy brain that is no member yet. -/
def replacement (brains : List BrainRecord) (existingIds : List String) : Option Member :=
  (brains.find? fun brain => brain.id ∉ existingIds ∧ 50 ≤ brain.health).map fun brain =>
    { id := brain.id
      name := brain.displayName
      capabilities := brain.capabilities
      health := brain.health
      latency := brain.latency }

/-- `_on_brain_removed`, from one suspension to the next. -/
def onBrainRemoved (store : Store) (removal : Removal) : Store × Removal :=
  let goOn (store : Store) (remaining : List (String × Nat)) : Store × Removal :=
    let (store, stage) := visit store removal.brainId remaining
    (store, { removal with stage })
  match removal.stage with
  | .published => goOn store store.swarmMembers.entries
  | .left swarmId remaining =>
    match store.swarmMembers.get? swarmId with
    | none => goOn store remaining
    | some address =>
      match replacement store.registry.values (ids (store.membersAt address)) with
      | none => goOn store remaining
      | some member => (store.append address member, { removal with stage := .joined remaining })
  | .joined remaining => goOn store remaining
  | .over => (store, removal)

/-- The swarms with the removals that are being handled or have been. -/
abbrev System := Pool Store Removal

/-- A brain is registered, or its record is replaced; one is unregistered, which publishes
its removal; a team is formed; or the handling of a removal goes on. -/
inductive Action where
  | register (brain : BrainRecord)
  | unregister (brainId : String)
  | createTeam (swarmId : String) (request : TeamRequest)
  | resume (index : Nat)

/-- One step, without a suspension. -/
def step (lower : String → String) (system : System) : Action → System
  | .register brain =>
    { system with
      store := { system.store with
        registry := system.store.registry.set brain.id brain } }
  | .unregister brainId =>
    match system.store.registry.get? brainId with
    | none => system
    | some _ =>
      system.spawn
        { system.store with registry := system.store.registry.erase brainId } { brainId }
  | .createTeam swarmId request =>
    { system with store := createTeam lower swarmId request system.store }
  | .resume index => system.resume onBrainRemoved index

/-- Neither brains nor swarms yet. -/
def begin : System where
  store := {}
  processes := []

end AgenticOS.Swarm
