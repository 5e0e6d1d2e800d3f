import AgenticOS.Container.Scopes
import AgenticOS.Data.Dependencies

/-!
# Circular dependencies

In a container without scopes whose dependencies are all registered, a resolution meets a circle
exactly if one is reached through services that have no instance yet; otherwise all that it
needs is resolvable. What has an instance stays out of later resolutions, so that the factory
of a singleton succeeds at most once.
-/

namespace AgenticOS.Container

open Relation Transition List Option Dict
open Dependencies (DependsOn Resolvable)

namespace Tree

variable (tree : Tree)

/-- The instance of a service of the root that is there already. -/
def present (key : String) : Option Nat :=
  ((tree.registrations.get? (0, key)).map Registration.lifetime).bind (tree.cached 0 key)

def services : List String :=
  (tree.registrations.keys.filter fun place => place.1 = 0).map Prod.snd

/-- What a service of the root is resolved from: nothing if there is an instance. -/
def needs (key : String) : List String :=
  match tree.registrations.get? (0, key), tree.present key with
  | some registration, none => registration.demands.map Prod.fst
  | _, _ => []

/-- A circle is reached from a service of the root through services without instance. -/
def CircleFrom (key : String) : Prop :=
  ∃ other, ReflTransGen (DependsOn tree.needs) key other ∧
    TransGen (DependsOn tree.needs) other other

/-- Every dependency is registered, and no factory raises. -/
structure Complete : Prop where
  registered : ∀ key registration, tree.registrations.get? (0, key) = some registration →
    ∀ demand ∈ registration.demands, demand.1 ∈ tree.services
  calm : ∀ key registration, tree.registrations.get? (0, key) = some registration →
    ∀ call, registration.factory call = none

end Tree

section

variable {tree : Tree} {key : String}

theorem mem_services_iff :
    key ∈ tree.services ↔ ∃ registration, tree.registrations.get? (0, key) = some registration := by
  simp [Tree.services, Dict.mem_keys_iff]

theorem needs_of_registered {registration : Registration}
    (registered : tree.registrations.get? (0, key) = some registration)
    (absent : tree.present key = none) : tree.needs key = registration.demands.map Prod.fst := by
  unfold Tree.needs
  rw [registered, absent]

theorem resolvable_of_present (present : (tree.present key).isSome) :
    Resolvable tree.services tree.needs key := by
  obtain ⟨made, present⟩ := isSome_iff_exists.mp present
  constructor
  · obtain ⟨lifetime, found, -⟩ := bind_eq_some_iff.mp present
    obtain ⟨registration, registered, -⟩ := map_eq_some_iff.mp found
    exact mem_services_iff.mpr ⟨registration, registered⟩
  · intro dep edge
    unfold Tree.needs at edge
    rw [present] at edge
    split at edge
    next same => cases same
    next => cases edge

theorem circleFrom_head {dep : String} (edge : DependsOn tree.needs key dep)
    (circle : tree.CircleFrom dep) : tree.CircleFrom key := by
  obtain ⟨other, reached, around⟩ := circle
  exact ⟨other, reached.head edge, around⟩

theorem mem_services_of_circleFrom (circle : tree.CircleFrom key) : key ∈ tree.services := by
  obtain ⟨other, reached, around⟩ := circle
  obtain ⟨dep, edge, -⟩ := TransGen.head'_iff.mp (around.trans_right reached)
  unfold Dependencies.DependsOn Tree.needs at edge
  split at edge
  next registration registered _ => exact mem_services_iff.mpr ⟨registration, registered⟩
  next => cases edge

theorem not_circleFrom (resolvable : Resolvable tree.services tree.needs key) :
    ¬ tree.CircleFrom key := by
  rintro ⟨other, reached, around⟩
  exact (resolvable.of_reachable reached).acyclic around

theorem cached_root (root : tree.line 0 = [0]) (lifetime : Lifetime) :
    tree.cached 0 key lifetime =
      match lifetime with
      | .singleton => tree.singletons.get? (0, key)
      | .scoped => tree.scopedInstances.get? (0, key)
      | .transient => none := by
  match lifetime with
  | .singleton =>
    unfold Tree.cached
    rw [root]
    cases tree.singletons.get? (0, key) <;> rfl
  | .scoped => rfl
  | .transient => rfl

theorem owner_root (root : tree.line 0 = [0]) {owner : Nat}
    (owned : tree.owner 0 key = some owner) : owner = 0 := by
  unfold Tree.owner at owned
  rw [root] at owned
  exact mem_singleton.mp (mem_of_find?_eq_some owned)

end

def Registration.bare (registration : Registration) : Registration :=
  { registration with status := .registered, resolvingIn := ∅, singletonInstance := none }

/-- What holds in the middle of a resolution that began in `start`: the services are the same,
those that have an instance by now were resolvable then, and the marks are on services that are
being resolved. -/
structure Explored (start : Tree) (resolveId : Nat) (state : Resolving) : Prop where
  root : state.tree.line 0 = [0]
  same : ∀ key, (state.tree.registrations.get? (0, key)).map Registration.bare =
    (start.registrations.get? (0, key)).map Registration.bare
  kept : ∀ key, (start.present key).isSome → (state.tree.present key).isSome
  resolved : ∀ key, (state.tree.present key).isSome → Resolvable start.services start.needs key
  marks : ∀ key registration, state.tree.registrations.get? (0, key) = some registration →
    resolveId ∈ registration.resolvingIn → key ∈ state.visited

section

variable {start : Tree} {resolveId : Nat} {state after : Resolving} {key : String}
  {registration : Registration}

variable {change : Registration → Registration} (tree : Tree) (place : Place)

section

variable (bare : ∀ registration, (change registration).bare = registration.bare)
include bare

theorem bare_modify (other : Place) :
    ((tree.modify place change).registrations.get? other).map Registration.bare =
      (tree.registrations.get? other).map Registration.bare := by
  rw [get?_modify]
  split
  next => simp [Function.comp_def, bare]
  next => rfl

theorem present_modify (key : String) :
    (tree.modify place change).present key = tree.present key := by
  have lifetimes := congrArg (Option.map Registration.lifetime)
    (bare_modify tree place bare (0, key))
  rw [Option.map_map, Option.map_map] at lifetimes
  refine congrArg₂ Option.bind lifetimes (funext fun lifetime => ?_)
  unfold Tree.cached Tree.line
  rw [modify_lineage, modify_singletons, modify_scopedInstances]

end

section

variable (explored : Explored start resolveId state)
include explored

theorem Explored.modify (place : Place) (visited : Finset String)
    (bare : ∀ registration, (change registration).bare = registration.bare)
    (marks : ∀ key registration,
      (state.tree.modify place change).registrations.get? (0, key) = some registration →
        resolveId ∈ registration.resolvingIn → key ∈ visited) :
    Explored start resolveId ⟨state.tree.modify place change, visited⟩ where
  root := (congrArg (fun lineage => (lineage.get? 0).getD [])
    (modify_lineage state.tree place change)).trans explored.root
  same key := (bare_modify state.tree place bare (0, key)).trans (explored.same key)
  kept key present := by
    rw [present_modify state.tree place bare key]
    exact explored.kept key present
  resolved key present := by
    rw [present_modify state.tree place bare key] at present
    exact explored.resolved key present
  marks := marks

theorem Explored.mark (key : String) :
    Explored start resolveId (state.mark (0, key) resolveId) := by
  refine explored.modify (0, key) _ (fun _ => rfl) ?_
  intro other registration found marked
  rw [get?_modify] at found
  split at found
  next same =>
    cases same
    exact Finset.mem_insert_self key state.visited
  next => exact Finset.mem_insert_of_mem (explored.marks other registration found marked)

theorem Explored.unmark (key : String) :
    Explored start resolveId (state.unmark (0, key) resolveId) := by
  refine explored.modify (0, key) _ (fun _ => rfl) ?_
  intro other registration found marked
  rw [get?_modify] at found
  split at found
  next same =>
    obtain ⟨before, -, rfl⟩ := map_eq_some_iff.mp found
    exact absurd marked (Finset.notMem_erase resolveId before.resolvingIn)
  next distinct =>
    refine Finset.mem_erase.mpr ⟨fun same => distinct (same ▸ rfl), ?_⟩
    exact explored.marks other registration found marked

theorem Explored.registered (found : state.tree.registrations.get? (0, key) = some registration) :
    ∃ first, start.registrations.get? (0, key) = some first ∧ first.bare = registration.bare := by
  have same := explored.same key
  rw [found] at same
  exact map_eq_some_iff.mp same.symm

theorem Explored.needs (found : state.tree.registrations.get? (0, key) = some registration)
    (absent : state.tree.cached 0 key registration.lifetime = none) :
    key ∈ start.services ∧ start.needs key = registration.demands.map Prod.fst := by
  obtain ⟨first, registered, bare⟩ := explored.registered found
  refine ⟨mem_services_iff.mpr ⟨first, registered⟩, ?_⟩
  have before : start.present key = none := by
    refine not_isSome_iff_eq_none.mp fun present => ?_
    have now := explored.kept key present
    unfold Tree.present at now
    rw [found] at now
    exact absurd now (by simp [absent])
  rw [needs_of_registered registered before]
  exact congrArg (fun registration => registration.demands.map Prod.fst) bare

theorem Explored.missing (absent : state.tree.owner 0 key = none) : key ∉ start.services := by
  intro known
  obtain ⟨first, registered⟩ := mem_services_iff.mp known
  have same := explored.same key
  rw [registered] at same
  obtain ⟨registration, found, -⟩ := map_eq_some_iff.mp same
  unfold Tree.owner at absent
  rw [explored.root] at absent
  have none := find?_eq_none.mp absent 0 mem_cons_self
  rw [found] at none
  exact none rfl

end

section

variable (explored : Explored start resolveId state)
  (opens : Opens state resolveId 0 key 0 registration)
include explored opens

theorem Opens.mem_needs (dep : String) :
    dep ∈ start.needs key ↔ ∃ demand ∈ registration.demands, demand.1 = dep := by
  rw [(explored.needs opens.registered opens.uncached).2]
  exact mem_map

theorem Opens.edge {demand : String × Bool} (member : demand ∈ registration.demands) :
    DependsOn start.needs key demand.1 :=
  (opens.mem_needs explored demand.1).mpr ⟨demand, member, rfl⟩

theorem Opens.resolvable
    (all : ∀ demand ∈ registration.demands, Resolvable start.services start.needs demand.1) :
    Resolvable start.services start.needs key := by
  refine .intro (explored.needs opens.registered opens.uncached).1 fun dep edge => ?_
  obtain ⟨demand, member, rfl⟩ := (opens.mem_needs explored dep).mp edge
  exact all demand member

theorem Opens.known (complete : start.Complete) {demand : String × Bool}
    (member : demand ∈ registration.demands) : demand.1 ∈ start.services := by
  obtain ⟨first, before, bare⟩ := explored.registered opens.registered
  refine complete.registered key first before demand ?_
  exact (congrArg Registration.demands bare) ▸ member

end

variable {lifetime : Lifetime}

theorem present_of_filled {before filled : Tree} {made : Nat}
    (registrations : filled.registrations = before.registrations)
    (lifetimes : (before.registrations.get? (0, key)).map Registration.lifetime = some lifetime)
    (here : filled.cached 0 key lifetime = some made)
    (others : ∀ other, other ≠ key → filled.cached 0 other = before.cached 0 other)
    (other : String) :
    filled.present other = if other = key then some made else before.present other := by
  unfold Tree.present
  rw [registrations]
  split
  next same =>
    rw [same, lifetimes]
    exact here
  next distinct => rw [others other distinct]

theorem present_store {tree : Tree} (root : tree.line 0 = [0]) (key other : String) (made : Nat)
    (built : List Place)
    (lifetimes : (tree.registrations.get? (0, key)).map Registration.lifetime = some lifetime) :
    ((tree.present other).isSome →
      ((Tree.store { tree with built := built } (0, key) lifetime made).present other).isSome) ∧
    (((Tree.store { tree with built := built } (0, key) lifetime made).present other).isSome →
      other = key ∨ (tree.present other).isSome) := by
  have apart : ∀ other : String, other ≠ key → ((0, other) : Place) ≠ (0, key) :=
    fun other distinct same => distinct (Prod.mk.inj same).2
  have filled : ∀ {filled : Tree}, filled.present other =
      (if other = key then some made else tree.present other) →
        ((tree.present other).isSome → (filled.present other).isSome) ∧
        ((filled.present other).isSome → other = key ∨ (tree.present other).isSome) := by
    intro filled present
    rw [present]
    split
    next same => exact ⟨fun _ => rfl, fun _ => .inl same⟩
    next => exact ⟨id, .inr⟩
  match lifetime with
  | .transient => exact ⟨id, .inr⟩
  | .scoped =>
    refine filled ?_
    refine present_of_filled ?_ lifetimes ?_ ?_ other
    · rfl
    · exact get?_set_self _ _ _
    · intro other distinct
      funext lifetime
      match lifetime with
      | .singleton => rfl
      | .scoped => exact get?_set_ne _ (apart other distinct) made
      | .transient => rfl
  | .singleton =>
    refine filled ?_
    refine (present_modify _ (0, key) (fun registration => ?_) other).trans
      (present_of_filled ?_ lifetimes ?_ ?_ other)
    · rfl
    · rfl
    · refine (cached_root ?_ .singleton).trans ?_
      · exact root
      · exact get?_set_self _ _ _
    · intro other distinct
      funext lifetime
      refine (cached_root ?_ lifetime).trans (.trans ?_ (cached_root root lifetime).symm)
      · exact root
      match lifetime with
      | .singleton => exact get?_set_ne _ (apart other distinct) made
      | .scoped => rfl
      | .transient => rfl

theorem get?_store (lifetime : Lifetime) (made : Nat) (other : Place) :
    ∃ change : Registration → Registration,
      (∀ registration, (change registration).bare = registration.bare ∧
        (change registration).resolvingIn = registration.resolvingIn) ∧
      (tree.store place lifetime made).registrations.get? other =
        (tree.registrations.get? other).map change := by
  match lifetime with
  | .transient => exact ⟨id, fun _ => ⟨rfl, rfl⟩, map_id_apply.symm⟩
  | .scoped => exact ⟨id, fun _ => ⟨rfl, rfl⟩, map_id_apply.symm⟩
  | .singleton =>
    unfold Tree.store
    rw [get?_modify]
    split
    next =>
      refine ⟨_, ?_, rfl⟩
      exact fun _ => ⟨rfl, rfl⟩
    next => exact ⟨id, fun _ => ⟨rfl, rfl⟩, map_id_apply.symm⟩

theorem line_store (lifetime : Lifetime) (made container : Nat) :
    (tree.store place lifetime made).line container = tree.line container := by
  match lifetime with
  | .transient => rfl
  | .scoped => rfl
  | .singleton =>
    exact congrArg (fun lineage : Dict Nat (List Nat) => (lineage.get? container).getD [])
      (modify_lineage _ place _)

theorem Explored.store (explored : Explored start resolveId state)
    (lifetimes : (state.tree.registrations.get? (0, key)).map Registration.lifetime =
      some lifetime) (resolvable : Resolvable start.services start.needs key) (made : Nat)
    (built : List Place) : Explored start resolveId { state with
      tree := Tree.store { state.tree with built := built } (0, key) lifetime made } where
  root := (line_store _ _ lifetime made 0).trans explored.root
  same other := by
    obtain ⟨change, kept, found⟩ :=
      get?_store { state.tree with built := built } (0, key) lifetime made (0, other)
    rw [← explored.same other, found, Option.map_map]
    exact congrArg (Option.map · _) (funext fun registration => (kept registration).1)
  kept other present :=
    (present_store explored.root key other made built lifetimes).1 (explored.kept other present)
  resolved other present := by
    rcases (present_store explored.root key other made built lifetimes).2 present with same | before
    · exact same ▸ resolvable
    · exact explored.resolved other before
  marks other registration found marked := by
    obtain ⟨change, kept, same⟩ :=
      get?_store { state.tree with built := built } (0, key) lifetime made (0, other)
    obtain ⟨before, registered, rfl⟩ := map_eq_some_iff.mp (same.symm.trans found)
    rw [(kept before).2] at marked
    exact explored.marks other before registered marked

theorem Explored.construct (complete : start.Complete)
    (explored : Explored start resolveId after) {first : Registration}
    (registered : start.registrations.get? (0, key) = some first)
    (bare : first.bare = registration.bare)
    (resolvable : Resolvable start.services start.needs key) :
    Explored start resolveId (construct after (0, key) registration resolveId).2 ∧
      ∃ made, (construct after (0, key) registration resolveId).1 = .ok made := by
  have calm : registration.factory after.tree.calls = none :=
    (congrArg (fun registration => registration.factory after.tree.calls) bare).symm.trans
      (complete.calm key first registered after.tree.calls)
  have called : Explored start resolveId
      { after with tree := { after.tree with calls := after.tree.calls + 1 } } :=
    ⟨explored.root, explored.same, explored.kept, explored.resolved, explored.marks⟩
  have done := called.unmark key
  unfold AgenticOS.Container.construct
  simp only [calm]
  refine ⟨?_, _, rfl⟩
  have lifetimes := congrArg (Option.map Registration.lifetime) (done.same key)
  rw [Option.map_map, Option.map_map, registered] at lifetimes
  have sameLifetime := congrArg Registration.lifetime bare
  refine done.store (lifetimes.trans (congrArg some sameLifetime)) resolvable _ _

end

/-- What the result of a resolution says about the graph in which it began. -/
def Verdict (start : Tree) (key : String) : Except ContainerError Nat → Prop
  | .ok _ => Resolvable start.services start.needs key
  | .error (.cyclicDependency _) => start.CircleFrom key
  | .error _ => key ∉ start.services

/-- What the end of a loop over dependencies says about them. -/
def LoopVerdict (start : Tree) (demands : List (String × Bool)) : Option ContainerError → Prop
  | none => ∀ demand ∈ demands, Resolvable start.services start.needs demand.1
  | some (.cyclicDependency _) => ∃ demand ∈ demands, start.CircleFrom demand.1
  | some _ => False

section

variable {start : Tree} {order : SetOrder String} {resolveId fuel : Nat}
  {state after : Resolving} {key : String}

theorem loopVerdict_cons {demand : String × Bool} {rest : List (String × Bool)}
    {outcome : Option ContainerError} (resolvable : Resolvable start.services start.needs demand.1)
    (verdict : LoopVerdict start rest outcome) : LoopVerdict start (demand :: rest) outcome := by
  cases outcome with
  | none => exact forall_mem_cons.mpr ⟨resolvable, verdict⟩
  | some error =>
    cases error with
    | cyclicDependency message =>
      obtain ⟨other, member, circle⟩ := verdict
      exact ⟨other, mem_cons_of_mem _ member, circle⟩
    | _ => cases verdict

theorem resolveAll_verdict {resolve : String → Resolving → Outcome} {visited : Finset String}
    {demands : List (String × Bool)} {outcome : Option ContainerError}
    (each : ∀ demand ∈ demands, ∀ state result after, Explored start resolveId state →
      state.visited = visited → resolve demand.1 state = some (result, after) →
        Explored start resolveId after ∧ after.visited = visited ∧
          Verdict start demand.1 result) (known : ∀ demand ∈ demands, demand.1 ∈ start.services)
    (explored : Explored start resolveId state) (visiting : state.visited = visited)
    (resolves : resolveAll resolve demands state = some (outcome, after)) :
    Explored start resolveId after ∧ LoopVerdict start demands outcome := by
  induction demands generalizing state with
  | nil =>
    cases resolves
    exact ⟨explored, fun _ member => nomatch member⟩
  | cons demand rest hypothesis =>
    obtain ⟨key, optional⟩ := demand
    unfold resolveAll at resolves
    cases first : resolve key state with
    | none =>
      rw [first] at resolves
      cases resolves
    | some pair =>
      obtain ⟨result, next⟩ := pair
      obtain ⟨exploredNext, visitingNext, verdict⟩ :=
        each (key, optional) mem_cons_self state result next explored visiting first
      rw [first] at resolves
      have later := hypothesis
        (fun demand member => each demand (mem_cons_of_mem _ member))
        (fun demand member => known demand (mem_cons_of_mem _ member))
        exploredNext visitingNext
      have isKnown := known (key, optional) mem_cons_self
      cases result with
      | ok made =>
        obtain ⟨exploredLast, verdictLast⟩ := later resolves
        exact ⟨exploredLast, loopVerdict_cons verdict verdictLast⟩
      | error error =>
        cases error with
        | cyclicDependency message =>
          cases resolves
          exact ⟨exploredNext, (key, optional), mem_cons_self, verdict⟩
        | _ => exact absurd isKnown verdict

theorem resolveIn_verdict (complete : start.Complete) (explored : Explored start resolveId state)
    (path : ∀ visited ∈ state.visited, TransGen (DependsOn start.needs) visited key)
    {result : Except ContainerError Nat}
    (resolves : resolveIn order resolveId fuel 0 key state = some (result, after)) :
    Explored start resolveId after ∧ Verdict start key result := by
  induction fuel generalizing key state result after with
  | zero => cases resolves
  | succ fuel hypothesis =>
    have inside : ∀ {registration : Registration} {outcome last},
        Opens state resolveId 0 key 0 registration →
        resolveAll (resolveIn order resolveId fuel 0) registration.demands
          (state.mark (0, key) resolveId) = some (outcome, last) →
        Explored start resolveId last ∧
          LoopVerdict start registration.demands outcome := by
      intro registration outcome last opens looped
      refine resolveAll_verdict ?_ (fun _ => opens.known explored complete)
        (explored.mark key) rfl looped
      intro demand member current result next exploredCurrent visiting resolved
      have edge := opens.edge explored member
      have frame := resolveIn_frame resolved
      have longer : ∀ visited ∈ current.visited,
          TransGen (DependsOn start.needs) visited demand.1 := by
        intro visited isVisited
        rw [visiting] at isVisited
        rcases Finset.mem_insert.mp isVisited with same | earlier
        · exact same ▸ .single edge
        · exact (path visited earlier).tail edge
      obtain ⟨exploredNext, verdict⟩ := hypothesis exploredCurrent longer resolved
      exact ⟨exploredNext, frame.visited.trans visiting, verdict⟩
    cases resolveIn_turn resolves with
    | missing message absent => exact ⟨explored, explored.missing absent⟩
    | circle message owner registration owned registered marked =>
      obtain rfl := owner_root explored.root owned
      have visiting : key ∈ state.visited :=
        marked.elim id (explored.marks key registration registered)
      exact ⟨explored, key, .refl, path key visiting⟩
    | found owner made registration owned registered cached =>
      obtain rfl := owner_root explored.root owned
      refine ⟨explored, explored.resolved key ?_⟩
      unfold Tree.present
      rw [registered]
      exact isSome_iff_exists.mpr ⟨made, cached⟩
    | passed message owner registration last opens stopped =>
      obtain rfl := owner_root explored.root opens.owned
      obtain ⟨exploredLast, demand, member, circle⟩ := inside opens stopped
      exact ⟨exploredLast.unmark key, circleFrom_head (opens.edge explored member) circle⟩
    | wrapped message error owner registration last opens stopped other =>
      obtain rfl := owner_root explored.root opens.owned
      have verdict := (inside opens stopped).2
      match error, other, verdict with
      | .cyclicDependency text, other, _ => exact absurd rfl (other text)
    | constructed owner registration last opens resolved =>
      obtain rfl := owner_root explored.root opens.owned
      obtain ⟨exploredLast, all⟩ := inside opens resolved
      obtain ⟨first, registered, bare⟩ := explored.registered opens.registered
      have resolvable := opens.resolvable explored all
      obtain ⟨exploredNext, made, returned⟩ :=
        exploredLast.construct complete registered bare resolvable
      rw [returned]
      exact ⟨exploredNext, resolvable⟩

end

/-! ## One instance of a singleton -/

/-- A singleton was made once at most, and if it was, it is cached. -/
def Once (tree : Tree) : Prop :=
  ∀ place, (tree.registrations.get? place).map Registration.lifetime = some .singleton →
    tree.built.count place ≤ 1 ∧ (place ∈ tree.built → (tree.singletons.get? place).isSome)

theorem singletons_store (tree : Tree) (place : Place) (lifetime : Lifetime) (made : Nat) :
    (tree.store place lifetime made).singletons =
        (if lifetime = .singleton then tree.singletons.set place made else tree.singletons) ∧
      (tree.store place lifetime made).built = tree.built := by
  match lifetime with
  | .transient => exact ⟨rfl, rfl⟩
  | .scoped => exact ⟨rfl, rfl⟩
  | .singleton => simp only [Tree.store, modify_singletons, modify_built, if_true, and_self]

theorem Once.store {tree : Tree} (once : Once tree) {place : Place} {lifetime : Lifetime}
    (lifetimes : (tree.registrations.get? place).map Registration.lifetime = some lifetime)
    (unmade : lifetime = .singleton → tree.singletons.get? place = none) :
    Once (Tree.store { tree with built := tree.built ++ [place] } place lifetime
      tree.built.length) := by
  intro other isSingleton
  obtain ⟨singletons, built⟩ := singletons_store
    { tree with built := tree.built ++ [place] } place lifetime tree.built.length
  obtain ⟨change, kept, registered⟩ := get?_store
    { tree with built := tree.built ++ [place] } place lifetime tree.built.length other
  have before : (tree.registrations.get? other).map Registration.lifetime = some .singleton := by
    rw [registered, Option.map_map] at isSingleton
    rw [← isSingleton]
    exact congrArg (Option.map · _)
      (funext fun registration => (congrArg Registration.lifetime (kept registration).1).symm)
  obtain ⟨atMostOnce, cached⟩ := once other before
  rw [singletons, built, count_append]
  by_cases same : other = place
  · subst same
    cases lifetimes.symm.trans before
    have unbuilt : other ∉ tree.built := by
      intro member
      have present := cached member
      rw [unmade rfl] at present
      cases present
    rw [count_eq_zero_of_not_mem unbuilt, if_pos rfl]
    exact ⟨by simp, fun _ => isSome_iff_exists.mpr ⟨_, get?_set_self _ _ _⟩⟩
  · constructor
    · rw [count_singleton]
      simpa [same, Ne.symm same] using atMostOnce
    · intro member
      have earlier : other ∈ tree.built := by
        rcases mem_append.mp member with earlier | last
        · exact earlier
        · exact absurd (mem_singleton.mp last) same
      split
      next => rw [get?_set_ne _ same]; exact cached earlier
      next => exact cached earlier

theorem kept_once : Kept Once where
  modify := by
    intro tree place change lifetimes once other isSingleton
    rw [modify_singletons, modify_built]
    refine once other ?_
    rw [get?_modify] at isSingleton
    split at isSingleton
    next =>
      rw [Option.map_map] at isSingleton
      rw [← isSingleton]
      exact congrArg (Option.map · _) (funext fun registration => (lifetimes registration).symm)
    next => exact isSingleton
  called := fun _ once => once
  store := by
    intro tree place lifetime once lifetimes unmade _
    refine once.store ?_ unmade
    rw [← lifetimes]
    unfold Tree.coreAt
    rw [Option.map_map]
    rfl

/-- A registration or an alias in the root. -/
def Tree.Call.Declares : Tree.Call → Prop
  | .register container _ => container = 0
  | .addAlias container _ _ => container = 0
  | .createScope _ => False
  | .resolve .. => False

/-- Between two calls, the root has no parent and nothing is marked. -/
structure Quiet (tree : Tree) : Prop where
  root : tree.line 0 = [0]
  unmarked : ∀ place registration, tree.registrations.get? place = some registration →
    registration.resolvingIn = ∅

variable {tree : Tree} {order : SetOrder String}

theorem Quiet.declare (quiet : Quiet tree) {call : Tree.Call} (declares : call.Declares) :
    Quiet (tree.step order call) := by
  cases call with
  | createScope | resolve => cases declares
  | addAlias container aliasKey target =>
    simp only [Tree.step, Tree.addAlias]
    split
    next => exact quiet
    next => exact ⟨quiet.root, quiet.unmarked⟩
  | register container given =>
    have kept : ∀ key, Quiet { tree with
        registrations := tree.registrations.set (container, key) { given with
          status := .registered
          resolvingIn := ∅
          singletonInstance := none } } := by
      intro key
      refine ⟨quiet.root, ?_⟩
      intro place registration found
      rw [get?_set] at found
      split at found
      next =>
        cases found
        rfl
      next => exact quiet.unmarked place registration found
    simp only [Tree.step, Tree.register]
    split
    next => exact kept _
    next =>
      split
      next => exact kept _
      next => exact quiet

theorem built_declare {call : Tree.Call} (declares : call.Declares) :
    (tree.step order call).built = tree.built := by
  rcases @step_cases order tree call with ⟨-, -, built⟩ | ⟨_, _, _, _, rfl, -⟩
  · exact built
  · cases declares

section

variable {container : Nat} {interface name : String} {result : Except ContainerError Nat}
  {after : Tree} (resolves : tree.resolve order container interface name = some (result, after))

include resolves

theorem coreAt_resolve (place : Place) : after.coreAt place = tree.coreAt place := by
  obtain ⟨last, rfl, inner⟩ := resolve_inner resolves
  exact (resolveIn_frame inner).cores place

theorem registered_resolve {place : Place} {registration : Registration}
    (found : after.registrations.get? place = some registration) :
    ∃ before, tree.registrations.get? place = some before ∧ before.core = registration.core := by
  have cores := coreAt_resolve resolves place
  unfold Tree.coreAt at cores
  rw [found] at cores
  exact map_eq_some_iff.mp cores.symm

theorem services_resolve (key : String) : key ∈ after.services ↔ key ∈ tree.services := by
  have cores := congrArg Option.isSome (coreAt_resolve resolves (0, key))
  unfold Tree.coreAt at cores
  rw [isSome_map, isSome_map] at cores
  simp only [mem_services_iff, ← isSome_iff_exists, cores]

theorem Quiet.resolve (quiet : Quiet tree) : Quiet after := by
  constructor
  · obtain ⟨last, rfl, inner⟩ := resolve_inner resolves
    unfold Tree.line
    rw [(resolveIn_frame inner).lineage]
    exact quiet.root
  · intro place registration found
    obtain ⟨before, registered, cores⟩ := registered_resolve resolves found
    exact (congrArg Registration.resolvingIn cores).symm.trans
      (quiet.unmarked place before registered)

theorem Tree.Complete.resolve (complete : tree.Complete) : after.Complete := by
  constructor
  · intro key registration found demand member
    obtain ⟨before, registered, cores⟩ := registered_resolve resolves found
    refine (services_resolve resolves demand.1).mpr ?_
    exact complete.registered key before registered demand
      ((congrArg Registration.demands cores) ▸ member)
  · intro key registration found call
    obtain ⟨before, registered, cores⟩ := registered_resolve resolves found
    exact (congrArg (fun core : Registration => core.factory call) cores).symm.trans
      (complete.calm key before registered call)

theorem Once.resolve (once : Once tree) : Once after := by
  obtain ⟨last, rfl, inner⟩ := resolve_inner resolves
  exact resolveIn_invariant kept_once once inner

end

/-- A resolution in the root raises a circle exactly if there is one ahead. -/
theorem cyclic_iff (quiet : Quiet tree) (complete : tree.Complete) {interface name : String}
    {result : Except ContainerError Nat} {after : Tree}
    (resolves : tree.resolve order 0 interface name = some (result, after)) :
    (∃ message, result = .error (.cyclicDependency message)) ↔
      tree.CircleFrom (tree.resolveKey 0 interface name) := by
  obtain ⟨last, rfl, inner⟩ := resolve_inner resolves
  have explored : Explored tree (tree.count 0).1 { tree := (tree.count 0).2 } := by
    refine ⟨quiet.root, fun _ => rfl, fun _ => id, fun _ => resolvable_of_present, ?_⟩
    intro key registration found marked
    rw [quiet.unmarked (0, key) registration found] at marked
    cases marked
  have verdict := (resolveIn_verdict complete explored (fun _ visited => nomatch visited) inner).2
  have other : ∀ error : ContainerError, (∀ message, error ≠ .cyclicDependency message) →
      tree.resolveKey 0 interface name ∉ tree.services →
        ((∃ message, (.error error : Except ContainerError Nat) =
            .error (.cyclicDependency message)) ↔
          tree.CircleFrom (tree.resolveKey 0 interface name)) := by
    intro error notCyclic unknown
    refine iff_of_false ?_ fun circle => unknown (mem_services_of_circleFrom circle)
    rintro ⟨message, same⟩
    exact notCyclic message (Except.error.inj same)
  match result, verdict with
  | .ok made, resolvable =>
    refine iff_of_false ?_ (not_circleFrom resolvable)
    rintro ⟨message, ⟨⟩⟩
  | .error (.cyclicDependency message), circle => exact iff_of_true ⟨message, rfl⟩ circle
  | .error (.missingDependency text), unknown => exact other _ (fun _ => nofun) unknown
  | .error (.duplicateRegistration text), unknown => exact other _ (fun _ => nofun) unknown
  | .error (.resolution text), unknown => exact other _ (fun _ => nofun) unknown

theorem Frame.marks {state after : Resolving} (frame : Frame state after) (place : Place) :
    (after.tree.registrations.get? place).map Registration.resolvingIn =
      (state.tree.registrations.get? place).map Registration.resolvingIn := by
  have marks := congrArg (Option.map Registration.resolvingIn) (frame.cores place)
  unfold Tree.coreAt at marks
  rw [Option.map_map, Option.map_map] at marks
  exact marks

/-- What holds in a run of resolutions after the registrations. -/
structure Settled (tree : Tree) : Prop where
  quiet : Quiet tree
  complete : tree.Complete
  once : Once tree

theorem settled_setup {setup : List Tree.Call} (declares : ∀ call ∈ setup, call.Declares)
    (complete : (run (Tree.step order) {} setup).Complete) :
    Settled (run (Tree.step order) {} setup) := by
  have guarded : Along (Tree.step order) (fun _ call => call.Declares) {} setup :=
    .of_forall_mem (fun call member _ => declares call member) _
  have quiet : Quiet (run (Tree.step order) {} setup) := by
    refine guarded.invariant (fun _ _ quiet declared => quiet.declare declared) ⟨rfl, ?_⟩
    intro place registration found
    cases found
  have unbuilt : (run (Tree.step order) {} setup).built = [] :=
    @Along.invariant _ _ _ _ (fun tree : Tree => tree.built = [])
      (fun _ _ unbuilt declared => (built_declare declared).trans unbuilt) _ _ guarded rfl
  refine ⟨quiet, complete, fun place _ => ?_⟩
  rw [unbuilt]
  exact ⟨Nat.zero_le 1, fun member => nomatch member⟩

theorem Settled.resolve (settled : Settled tree) (container : Nat) (interface name : String) :
    Settled (tree.step order (.resolve container interface name)) := by
  obtain ⟨⟨result, after⟩, resolves⟩ := isSome_iff_exists.mp
    (@isSome_resolve order container tree interface name)
  simp only [Tree.step, resolves]
  exact ⟨settled.quiet.resolve resolves, settled.complete.resolve resolves,
    settled.once.resolve resolves⟩

/-- Whatever was resolved before, a resolution in a container without scopes returns; it raises
a circle exactly if one is reached through services without instance, and the marks are as
before. A singleton is made once at most. -/
theorem resolve_cycles (order : SetOrder String) (setup : List Tree.Call)
    (requests : List (String × String)) (declares : ∀ call ∈ setup, call.Declares)
    (complete : (run (Tree.step order) {} setup).Complete) :
    let tree := run (Tree.step order) {}
      (setup ++ requests.map fun request => .resolve 0 request.1 request.2)
    (∀ interface name, ∃ result after,
      tree.resolve order 0 interface name = some (result, after) ∧
        ((∃ message, result = .error (.cyclicDependency message)) ↔
          tree.CircleFrom (tree.resolveKey 0 interface name)) ∧
        ∀ place, (after.registrations.get? place).map Registration.resolvingIn =
          (tree.registrations.get? place).map Registration.resolvingIn) ∧
    (∀ fuel container key state resolveId result after,
      resolveIn order resolveId fuel container key state = some (result, after) →
        after.visited = state.visited ∧
        ∀ place, (after.tree.registrations.get? place).map Registration.resolvingIn =
          (state.tree.registrations.get? place).map Registration.resolvingIn) ∧
    ∀ key registration, tree.registrations.get? (0, key) = some registration →
      registration.lifetime = .singleton → tree.built.count (0, key) ≤ 1 := by
  intro tree
  have settled : Settled tree := by
    unfold tree
    rw [run_append]
    have guarded : Along (Tree.step order)
        (fun _ call => ∃ interface name, call = .resolve 0 interface name)
        (run (Tree.step order) {} setup)
        (requests.map fun request => .resolve 0 request.1 request.2) := by
      refine .of_forall_mem ?_ _
      intro call member _
      obtain ⟨request, -, rfl⟩ := mem_map.mp member
      exact ⟨request.1, request.2, rfl⟩
    refine guarded.invariant ?_ (settled_setup declares complete)
    rintro current _ settled ⟨interface, name, rfl⟩
    exact settled.resolve 0 interface name
  refine ⟨?_, ?_, ?_⟩
  · intro interface name
    obtain ⟨⟨result, after⟩, resolves⟩ := isSome_iff_exists.mp
      (@isSome_resolve order 0 tree interface name)
    obtain ⟨last, rfl, inner⟩ := resolve_inner resolves
    exact ⟨result, last.tree, resolves, cyclic_iff settled.quiet settled.complete resolves,
      (resolveIn_frame inner).marks⟩
  · intro fuel container key state resolveId result after resolves
    have frame := resolveIn_frame resolves
    exact ⟨frame.visited, frame.marks⟩
  · intro key registration registered isSingleton
    refine (settled.once (0, key) ?_).1
    rw [registered]
    exact congrArg some isSingleton

/-- Two services that depend on each other, and one that does not. -/
def circular : List Tree.Call :=
  [.register 0 { interface := "A", dependsOn := ["B"] },
    .register 0 { interface := "B", dependsOn := ["A"] }, .register 0 { interface := "C" }]

theorem resolve_cycles_circular :
    let tree := run (Tree.step (.first "")) {} (circular ++
      [.resolve 0 "A" "", .resolve 0 "C" "", .resolve 0 "C" ""])
    (∃ message after, tree.resolve (.first "") 0 "A" "" =
      some (.error (.cyclicDependency message), after)) ∧
    tree.built.count (0, "C") ≤ 1 := by
  have declares : ∀ call ∈ circular, call.Declares := by simp [circular, Tree.Call.Declares]
  have complete : (run (Tree.step (.first "")) {} circular).Complete := by
    have services : ∀ key registration,
        (run (Tree.step (.first "")) {} circular).registrations.get? (0, key) = some registration →
        (registration.demands = [("B", false)] ∨ registration.demands = [("A", false)] ∨
          registration.demands = []) ∧ ∀ call, registration.factory call = none := by
      intro key registration found
      have member := get?_eq_some_iff.mp found
      rcases mem_cons.mp member with same | member
      · cases same
        exact ⟨.inl rfl, fun _ => rfl⟩
      · rcases mem_cons.mp member with same | member
        · cases same
          exact ⟨.inr (.inl rfl), fun _ => rfl⟩
        · cases mem_singleton.mp member
          exact ⟨.inr (.inr rfl), fun _ => rfl⟩
    refine ⟨?_, fun key registration found => (services key registration found).2⟩
    intro key registration found demand member
    rcases (services key registration found).1 with same | same | same
    · rw [same] at member
      cases mem_singleton.mp member
      exact mem_services_iff.mpr ⟨_, rfl⟩
    · rw [same] at member
      cases mem_singleton.mp member
      exact mem_services_iff.mpr ⟨_, rfl⟩
    · rw [same] at member
      cases member
  obtain ⟨returns, -, once⟩ := resolve_cycles (.first "") circular
    [("A", ""), ("C", ""), ("C", "")] declares complete
  obtain ⟨_, after, resolves, raises, -⟩ := returns "A" ""
  obtain ⟨message, rfl⟩ := raises.mpr
    ⟨"A", .refl, .tail (.single (mem_singleton_self "B")) (mem_singleton_self "A")⟩
  exact ⟨⟨message, after, resolves⟩, once "C" _ rfl rfl⟩

/-! ## Singletons and scopes -/

/-- What is registered again keeps its lifetime, unless no instance was made of it. -/
def Steady (tree : Tree) : Tree.Call → Prop
  | .register container given =>
    let place := (container, keyOf given.interface given.name)
    place ∈ tree.built →
      (tree.registrations.get? place).map Registration.lifetime = some given.lifetime
  | .addAlias .. | .createScope _ | .resolve .. => True

theorem Once.step (once : Once tree) {call : Tree.Call} (steady : Steady tree call) :
    Once (tree.step order call) := by
  cases call with
  | createScope parent => exact once
  | addAlias container aliasKey target =>
    simp only [Tree.step, Tree.addAlias]
    split
    · exact once
    · exact once
  | resolve container interface name =>
    obtain ⟨⟨result, after⟩, resolves⟩ := isSome_iff_exists.mp
      (@isSome_resolve order container tree interface name)
    simp only [Tree.step, resolves]
    exact once.resolve resolves
  | register container given =>
    have kept : Once { tree with
        registrations := tree.registrations.set (container, keyOf given.interface given.name)
          { given with status := .registered, resolvingIn := ∅, singletonInstance := none } } := by
      intro place isSingleton
      by_cases member : place ∈ tree.built
      · refine once place ?_
        rw [get?_set] at isSingleton
        split at isSingleton
        next here => rw [here, ← isSingleton, steady (here ▸ member)]; rfl
        next => exact isSingleton
      · exact ⟨by simp [count_eq_zero_of_not_mem member], fun built => absurd built member⟩
    simp only [Tree.step, Tree.register]
    split
    · exact kept
    · split
      · exact kept
      · exact once

/-- In a tree of scopes, whatever is resolved in them and in which order, a singleton is made once
at most where it is registered, and its instance is kept. -/
theorem singletons_once (order : SetOrder String) {calls : List Tree.Call}
    (steady : Along (Tree.step order) Steady {} calls) (place : Place) :
    let tree := run (Tree.step order) {} calls
    (tree.registrations.get? place).map Registration.lifetime = some .singleton →
      tree.built.count place ≤ 1 ∧ (place ∈ tree.built → (tree.singletons.get? place).isSome) :=
  steady.invariant (fun _ _ once steady => Once.step once steady)
    (fun _ isSingleton => by cases isSingleton) place

theorem singletons_once_scope :
    let tree := run (Tree.step (.first "")) {} [.register 0 { interface := "Clock" },
      .createScope 0, .resolve 1 "Clock" "", .resolve 0 "Clock" ""]
    tree.built.count (0, "Clock") ≤ 1 ∧
      ((0, "Clock") ∈ tree.built → (tree.singletons.get? (0, "Clock")).isSome) :=
  singletons_once (.first "") (by exact ⟨nofun, trivial, trivial, trivial, trivial⟩) (0, "Clock")
    (by decide)

end AgenticOS.Container
