import AgenticOS.Data.Dict
import AgenticOS.Data.SetOrder
import AgenticOS.Transition.Run

/-!
# The container

Services are registered in containers, which form a tree of scopes, and are resolved with
their dependencies in the container that has their registration. The dictionaries of all
containers are kept together, under a container and a key; the parent of a container never
changes, so that a container comes with the line of its parents.

An instance is the number of the factory call that has made it. A factory is known by what it
raises, if it does, in each call; it does not use the container.
-/

namespace AgenticOS.Container

inductive Lifetime
  | singleton | transient | scoped
  deriving DecidableEq

inductive RegistrationStatus
  | registered | resolving | resolved | failed
  deriving DecidableEq

/-- A parameter of a factory: its name, whether it has a default value, and the type that it
is annotated with. -/
structure Slot where
  name : String
  hasDefault : Bool := false
  hint : Option String := none

structure Registration where
  interface : String
  lifetime : Lifetime := .singleton
  name : String := ""
  dependsOn : List String := []
  slots : List Slot := []
  factory : Nat → Option String := fun _ => none
  status : RegistrationStatus := .registered
  resolvingIn : Finset Nat := ∅
  singletonInstance : Option Nat := none

def keyOf (interface name : String) : String :=
  if name = "" then interface else interface ++ ":" ++ name

/-- The services that are resolved for a factory, and whether one may be missing: the declared
dependencies, and the annotated parameters that are neither one of them nor have a default. -/
def Registration.demands (registration : Registration) : List (String × Bool) :=
  registration.dependsOn.map (·, false) ++
    registration.slots.filterMap fun slot =>
      if slot.name ∈ registration.dependsOn ∨ slot.hasDefault then none
      else slot.hint.map (·, true)

inductive ContainerError
  | cyclicDependency (message : String)
  | missingDependency (message : String)
  | duplicateRegistration (message : String)
  | resolution (message : String)

def ContainerError.message : ContainerError → String
  | cyclicDependency message => message
  | missingDependency message => message
  | duplicateRegistration message => message
  | resolution message => message

abbrev Place := Nat × String

structure Tree where
  /-- Each container with its parents, itself first. -/
  lineage : Dict Nat (List Nat) := .ofList [(0, [0])]
  registrations : Dict Place Registration := .empty
  singletons : Dict Place Nat := .empty
  scopedInstances : Dict Place Nat := .empty
  aliases : Dict Place String := .empty
  counters : Dict Nat Nat := .empty
  /-- How often a factory was called, and where each instance was made. -/
  calls : Nat := 0
  built : List Place := []

namespace Tree

variable (tree : Tree)

variable (container : Nat)

def line : List Nat :=
  (tree.lineage.get? container).getD []

/-- The container itself or its nearest parent that has a registration for the key. -/
def owner (key : String) : Option Nat :=
  (tree.line container).find? fun place => (tree.registrations.get? (place, key)).isSome

def modify (place : Place) (change : Registration → Registration) : Tree :=
  match tree.registrations.get? place with
  | none => tree
  | some registration =>
    { tree with registrations := tree.registrations.set place (change registration) }

def register (given : Registration) : Except ContainerError Registration × Tree :=
  let registration :=
    { given with status := .registered, resolvingIn := ∅, singletonInstance := none }
  let key := keyOf registration.interface registration.name
  let kept := { tree with
    registrations := tree.registrations.set (container, key) registration }
  match tree.registrations.get? (container, key) with
  | none => (.ok registration, kept)
  | some existing =>
    if registration.name ≠ "" ∧ existing.name = registration.name then (.ok registration, kept)
    else
      (.error (.duplicateRegistration ("Duplicate registration for " ++ key ++
        ". Use name= to register multiple implementations.")), tree)

/-- `alias`. -/
def addAlias (aliasKey target : String) : Except ContainerError Unit × Tree :=
  match tree.registrations.get? (container, target) with
  | none =>
    (.error (.missingDependency ("Cannot alias '" ++ aliasKey ++ "' -> '" ++ target ++
      "': target not registered")), tree)
  | some _ => (.ok (), { tree with aliases := tree.aliases.set (container, aliasKey) target })

def createScope (parent : Nat) : Nat × Tree :=
  let child := tree.lineage.size
  (child, { tree with lineage := tree.lineage.set child (child :: tree.line parent) })

/-- `_resolve_key`, along the line of the parents. -/
def keyAlong (key : String) : List Nat → String
  | [] => key
  | container :: parents =>
    if (tree.registrations.get? (container, key)).isSome then key
    else
      match tree.aliases.get? (container, key) with
      | some target => target
      | none => keyAlong key parents

def resolveKey (interface name : String) : String :=
  tree.keyAlong (keyOf interface name) (tree.line container)

/-- The instance that is there already. For a singleton the parent is asked as well. -/
def cached (key : String) (lifetime : Lifetime) : Option Nat :=
  match lifetime with
  | .singleton =>
    match tree.singletons.get? (container, key) with
    | some found => some found
    | none => (tree.line container).tail.head?.bind fun parent => tree.singletons.get? (parent, key)
  | .scoped => tree.scopedInstances.get? (container, key)
  | .transient => none

/-- A new instance, kept as its lifetime says. -/
def store (place : Place) (lifetime : Lifetime) (made : Nat) : Tree :=
  match lifetime with
  | .singleton =>
    modify { tree with singletons := tree.singletons.set place made } place
      fun registration =>
        { registration with singletonInstance := some made, status := .resolved }
  | .scoped => { tree with scopedInstances := tree.scopedInstances.set place made }
  | .transient => tree

end Tree

/-- The containers in the middle of resolving, with the keys that are being resolved. -/
structure Resolving where
  tree : Tree
  visited : Finset String := ∅

namespace Resolving

variable (state : Resolving)

def mark (place : Place) (resolveId : Nat) : Resolving where
  tree := state.tree.modify place fun registration =>
    { registration with resolvingIn := insert resolveId registration.resolvingIn }
  visited := insert place.2 state.visited

/-- The `finally` block. -/
def unmark (place : Place) (resolveId : Nat) : Resolving where
  tree := state.tree.modify place fun registration =>
    { registration with resolvingIn := registration.resolvingIn.erase resolveId }
  visited := state.visited.erase place.2

/-- The handler of all exceptions but circles. -/
def failed (place : Place) : Resolving :=
  { state with tree := state.tree.modify place fun registration =>
    { registration with status := .failed } }

end Resolving

/-- What becomes of one resolution: the instance or what is raised, and the state. There is
none if the fuel is spent. -/
abbrev Outcome := Option (Except ContainerError Nat × Resolving)

/-- The loops over the dependencies and the parameters. They end with the first exception,
missing parameters apart. -/
def resolveAll (resolve : String → Resolving → Outcome) :
    List (String × Bool) → Resolving → Option (Option ContainerError × Resolving)
  | [], state => some (none, state)
  | (key, optional) :: rest, state =>
    match resolve key state with
    | none => none
    | some (.ok _, after) => resolveAll resolve rest after
    | some (.error (.missingDependency message), after) =>
      if optional then resolveAll resolve rest after
      else some (some (.missingDependency message), after)
    | some (.error error, after) => some (some error, after)

/-- The call of the factory, after which the marks are taken off and the instance is kept. -/
def construct (state : Resolving) (place : Place) (registration : Registration)
    (resolveId : Nat) : Except ContainerError Nat × Resolving :=
  let called := { state with tree := { state.tree with calls := state.tree.calls + 1 } }
  match registration.factory state.tree.calls with
  | some text =>
    (.error (.resolution ("Failed to resolve '" ++ place.2 ++ "': " ++ text)),
      (called.failed place).unmark place resolveId)
  | none =>
    let done := called.unmark place resolveId
    let made := done.tree.built.length
    (.ok made, { done with
      tree := Tree.store { done.tree with built := done.tree.built ++ [place] } place
        registration.lifetime made })

/-- `_resolve`, in the container or the parent that has the registration. -/
def resolveIn (order : SetOrder String) (resolveId : Nat) :
    Nat → Nat → String → Resolving → Outcome
  | 0, _, _, _ => none
  | fuel + 1, container, key, state =>
    match state.tree.owner container key with
    | none =>
      some (.error (.missingDependency ("No registration found for '" ++ key ++ "'")), state)
    | some owner =>
      match state.tree.registrations.get? (owner, key) with
      | none =>
        some (.error (.missingDependency ("No registration found for '" ++ key ++ "'")), state)
      | some registration =>
        if key ∈ state.visited then
          some (.error (.cyclicDependency ("Cyclic dependency detected: " ++
            " -> ".intercalate (order.list state.visited ++ [key]))), state)
        else if resolveId ∈ registration.resolvingIn then
          let parts := (state.tree.registrations.entries.filter fun entry =>
            entry.1.1 = owner ∧ resolveId ∈ entry.2.resolvingIn).map (·.1.2)
          some (.error (.cyclicDependency ("Cyclic dependency detected resolving '" ++ key ++
            "' (resolve chain " ++ toString resolveId ++ "): " ++
            " -> ".intercalate (parts ++ [key]))), state)
        else
          match state.tree.cached owner key registration.lifetime with
          | some found => some (.ok found, state)
          | none =>
            match resolveAll (resolveIn order resolveId fuel owner) registration.demands
                (state.mark (owner, key) resolveId) with
            | none => none
            | some (none, after) => some (construct after (owner, key) registration resolveId)
            | some (some (.cyclicDependency message), after) =>
              some (.error (.cyclicDependency message), after.unmark (owner, key) resolveId)
            | some (some error, after) =>
              let failed := (after.failed (owner, key)).unmark (owner, key) resolveId
              some (.error (.resolution ("Failed to resolve '" ++ key ++ "': " ++
                error.message)), failed)

namespace Tree

variable (tree : Tree)

/-- The next number of a resolution in a container. -/
def count (container : Nat) : Nat × Tree :=
  let resolveId := (tree.counters.get? container).getD 0 + 1
  (resolveId, { tree with counters := tree.counters.set container resolveId })

/-- `resolve`. The fuel suffices, as every turn marks another key. -/
def resolve (order : SetOrder String) (container : Nat) (interface name : String) :
    Option (Except ContainerError Nat × Tree) :=
  let key := tree.resolveKey container interface name
  let (resolveId, counted) := tree.count container
  (resolveIn order resolveId (tree.registrations.size + 1) container key { tree := counted }).map
    fun result => (result.1, result.2.tree)

inductive Call
  | register (container : Nat) (registration : Registration)
  | addAlias (container : Nat) (aliasKey target : String)
  | createScope (parent : Nat)
  | resolve (container : Nat) (interface name : String)

def step (order : SetOrder String) (tree : Tree) : Call → Tree
  | .register container registration => (tree.register container registration).2
  | .addAlias container aliasKey target => (tree.addAlias container aliasKey target).2
  | .createScope parent => (tree.createScope parent).2
  | .resolve container interface name =>
    match tree.resolve order container interface name with
    | none => tree
    | some (_, after) => after

end Tree

end AgenticOS.Container
