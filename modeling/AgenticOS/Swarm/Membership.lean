import AgenticOS.Swarm.Coordinator

/-!
# The members of a swarm and their roles

Members and roles are two tables. A new team fills both; the removal of a member changes
only the first one, and it writes a list that it captured before its suspensions. So the
tables agree exactly as long as no brain is removed that is a member of a swarm.
-/

namespace AgenticOS.Swarm

open Transition List Dict

section

variable (lower : String → String)

theorem capabilityToRole_ne_leader {capability : String} {role : SwarmRole}
    (known : capabilityToRole capability = some role) : role ≠ .leader := by
  unfold capabilityToRole at known
  split at known
  all_goals
    cases known
    try exact nofun

theorem bestRole_ne_leader (usedRoles : List SwarmRole) (capabilities : List String) :
    bestRole lower usedRoles capabilities ≠ .leader := by
  unfold bestRole
  cases found : (capabilities.filterMap fun capability => capabilityToRole (lower capability)).find?
      fun role => role ∉ usedRoles with
  | none => exact nofun
  | some role =>
    have listed := mem_of_find?_eq_some found
    rcases mem_filterMap.mp listed with ⟨capability, -, known⟩
    exact capabilityToRole_ne_leader known

/-- Roles have been given to these members: to each its own, and to the first that of the
leader. -/
structure Assigned (members : List String) (assignment : Assignment) : Prop where
  keys : ∀ id, id ∈ assignment.assignments.keys ↔ id ∈ members ∧ id ≠ ""
  begun : SwarmRole.leader ∈ assignment.usedRoles ↔ ∃ id, id ∈ members ∧ id ≠ ""
  leader : (∃ id, id ∈ members ∧ id ≠ "") → ∃! id, assignment.assignments.get? id = some .leader

theorem assigned_nil : Assigned [] {} where
  keys := by simp [Dict.keys, Dict.empty]
  begun := by simp
  leader := by simp

variable {members : List String} {assignment : Assignment}

section

variable (assigned : Assigned members assignment)
include assigned

theorem Assigned.skip {id : String} (skipped : id = "" ∨ id ∈ assignment.assignments.keys) :
    Assigned (members ++ [id]) assignment := by
  rcases assigned with ⟨keys, begun, leader⟩
  have same (other : String) :
      (other ∈ members ++ [id] ∧ other ≠ "") ↔ (other ∈ members ∧ other ≠ "") := by
    rw [keys] at skipped
    constructor
    · rintro ⟨listed, named⟩
      rcases mem_append.mp listed with old | new
      · exact ⟨old, named⟩
      · obtain rfl := mem_singleton.mp new
        exact skipped.resolve_left named
    · rintro ⟨listed, named⟩
      exact ⟨mem_append_left _ listed, named⟩
  constructor
  · intro other
    rw [keys, same]
  · simp only [same]
    exact begun
  · simp only [same]
    exact leader

/-- Another member is given a role: that of the leader exactly when nobody has it. -/
theorem Assigned.give {id : String} {role : SwarmRole} (named : id ≠ "")
    (new : id ∉ assignment.assignments.keys)
    (leads : role = .leader ↔ SwarmRole.leader ∉ assignment.usedRoles) :
    Assigned (members ++ [id])
      { assignments := assignment.assignments.set id role
        usedRoles := role :: assignment.usedRoles } := by
  rcases assigned with ⟨keys, begun, leader⟩
  constructor
  · intro other
    rw [mem_keys_set, keys, mem_append, mem_singleton]
    constructor
    · rintro (rfl | ⟨listed, otherNamed⟩)
      · exact ⟨.inr rfl, named⟩
      · exact ⟨.inl listed, otherNamed⟩
    · rintro ⟨old | same, otherNamed⟩
      · exact .inr ⟨old, otherNamed⟩
      · exact .inl same
  · apply iff_of_true _ ⟨id, mem_append_right _ mem_cons_self, named⟩
    by_cases led : .leader ∈ assignment.usedRoles
    · exact mem_cons_of_mem _ led
    · rw [leads.mpr led]
      exact mem_cons_self
  · intro _
    by_cases led : .leader ∈ assignment.usedRoles
    · rcases leader (begun.mp led) with ⟨first, isLeader, unique⟩
      refine ⟨first, ?_, ?_⟩
      · dsimp only
        rw [get?_set, if_neg, isLeader]
        rintro rfl
        exact new (mem_keys_iff.mpr ⟨_, isLeader⟩)
      · intro other isLeaderToo
        rw [get?_set] at isLeaderToo
        split at isLeaderToo
        · exact absurd led (leads.mp (Option.some.inj isLeaderToo))
        · exact unique other isLeaderToo
    · refine ⟨id, ?_, ?_⟩
      · dsimp only
        rw [get?_set_self, leads.mpr led]
      · intro other isLeaderToo
        rw [get?_set] at isLeaderToo
        split at isLeaderToo
        · assumption
        · have listed := (keys other).mp (mem_keys_iff.mpr ⟨_, isLeaderToo⟩)
          exact absurd (begun.mpr ⟨other, listed⟩) led

theorem Assigned.assignRole (member : Member) :
    Assigned (members ++ [member.id]) (assignRole lower assignment member) := by
  unfold Swarm.assignRole
  split
  next skipped => exact assigned.skip skipped
  next fresh =>
    rw [not_or] at fresh
    apply assigned.give fresh.1 fresh.2
    split
    next unled => exact iff_of_true rfl unled
    next led => exact iff_of_false (bestRole_ne_leader lower _ _) led

end

theorem Assigned.foldl {given : List String} (assigned : Assigned given assignment)
    (members : List Member) :
    Assigned (given ++ ids members) (members.foldl (Swarm.assignRole lower) assignment) := by
  induction members generalizing given assignment with
  | nil => simpa [ids] using assigned
  | cons member members ih =>
    have next := ih (assigned.assignRole lower member)
    rw [append_assoc] at next
    exact next

theorem assigned_assignRoles (members : List Member) :
    (∀ id, id ∈ (assignRoles lower members none).keys ↔ id ∈ ids members ∧ id ≠ "") ∧
      ((∃ id, id ∈ ids members ∧ id ≠ "") →
        ∃! id, (assignRoles lower members none).get? id = some .leader) := by
  have assigned := assigned_nil.foldl lower members
  exact ⟨assigned.keys, assigned.leader⟩

end

/-- Brains are registered under their ids. -/
def Keyed (registry : Dict String BrainRecord) : Prop :=
  ∀ entry ∈ registry.entries, entry.1 = entry.2.id

section

variable {registry : Dict String BrainRecord}

theorem Keyed.set (keyed : Keyed registry) (brain : BrainRecord) :
    Keyed (registry.set brain.id brain) := by
  rintro ⟨key, other⟩ member
  rw [← get?_eq_some_iff, get?_set] at member
  split at member
  next same =>
    cases member
    exact same
  next => exact keyed (key, other) (get?_eq_some_iff.mp member)

theorem Keyed.erase (keyed : Keyed registry) (brainId : String) : Keyed (registry.erase brainId) :=
  fun entry member => keyed entry (mem_filter.mp member).1

theorem Keyed.distinct (keyed : Keyed registry) : (registry.values.map BrainRecord.id).Nodup := by
  have same : registry.values.map BrainRecord.id = registry.keys := by
    unfold Dict.values Dict.keys
    rw [map_map]
    apply map_congr_left
    intro entry member
    exact (keyed entry member).symm
  rw [same]
  exact registry.nodupKeys

end

/-- The table of the roles fits the list of the members: their ids are distinct, they are the
keys of the table, and if there are any then exactly one of them leads. -/
structure Fits (members : List Member) (roles : Dict String SwarmRole) : Prop where
  distinct : (ids members).Nodup
  keys : ∀ id, id ∈ roles.keys ↔ id ∈ ids members
  leader : members ≠ [] → ∃! id, roles.get? id = some .leader

def Store.HasMember (store : Store) (brainId : String) : Prop :=
  ∃ swarmId address, store.swarmMembers.get? swarmId = some address ∧
    brainId ∈ ids (store.membersAt address)

/-- A brain whose removal has been handled is a member of no swarm, and the two tables fit. -/
structure Consistent (system : System) : Prop where
  gone : ∀ removal ∈ system.processes, removal.stage = .over →
    ¬ system.store.HasMember removal.brainId
  fits : ∀ swarmId address, system.store.swarmMembers.get? swarmId = some address →
    ∃ roles, system.store.swarmRoles.get? swarmId = some roles ∧
      Fits (system.store.membersAt address) roles

/-- A step that keeps the tables consistent: no team takes in a brain without an id, or one
that has come back after its removal was handled, and no removal is handled of a brain that is
a member of a swarm. -/
def Allowed (system : System) : Action → Prop
  | .createTeam _ request =>
    ∀ id ∈ ids (teamOf request system.store.registry.values), id ≠ "" ∧
      ∀ removal ∈ system.processes, removal.stage = .over → removal.brainId ≠ id
  | .resume index =>
    ∀ removal, system.processes[index]? = some removal → removal.stage = .published →
      ¬ system.store.HasMember removal.brainId
  | _ => True

/-- What holds in addition as long as only such steps are taken: no removal has been
interrupted, every list is in the heap, and brains are registered under their ids. -/
structure Undivided (system : System) : Prop where
  whole : ∀ removal ∈ system.processes, removal.stage = .published ∨ removal.stage = .over
  listed : ∀ swarmId address, system.store.swarmMembers.get? swarmId = some address →
    address < system.store.lists.length
  keyed : Keyed system.store.registry

section

theorem nodup_teamOf (request : TeamRequest) {brains : List BrainRecord}
    (distinct : (brains.map BrainRecord.id).Nodup) : (ids (teamOf request brains)).Nodup := by
  unfold ids teamOf sliceTo
  rw [map_map, map_take]
  apply List.Nodup.sublist (take_sublist _ _)
  rw [((perm_insertionSort _ _).map _).nodup_iff, map_map]
  exact distinct

theorem membersAt_setMembers {store : Store} {address : Nat} (swarmId : String)
    (members : List Member) (inside : address < store.lists.length) :
    (store.setMembers swarmId members).membersAt address = store.membersAt address := by
  unfold Store.membersAt Store.setMembers
  simp [getElem?_append_left inside]

theorem membersAt_new (store : Store) (swarmId : String) (members : List Member) :
    (store.setMembers swarmId members).membersAt store.lists.length = members := by
  unfold Store.membersAt Store.setMembers
  simp

theorem visit_of_absent {store : Store} {brainId : String} {remaining : List (String × Nat)}
    (absent : ∀ entry ∈ remaining, brainId ∉ ids (store.membersAt entry.2)) :
    visit store brainId remaining = (store, .over) := by
  induction remaining with
  | nil => rfl
  | cons entry remaining ih =>
    unfold visit
    rw [if_neg (absent entry mem_cons_self)]
    exact ih fun other member => absent other (mem_cons_of_mem _ member)

theorem visit_of_present {store : Store} {brainId : String} {remaining : List (String × Nat)}
    (present : ∃ entry ∈ remaining, brainId ∈ ids (store.membersAt entry.2)) :
    ∃ entry ∈ remaining, brainId ∈ ids (store.membersAt entry.2) ∧
      (visit store brainId remaining).1 = store.setMembers entry.1
        ((store.membersAt entry.2).filter fun member => member.id ≠ brainId) := by
  induction remaining with
  | nil =>
    rcases present with ⟨entry, impossible, -⟩
    cases impossible
  | cons entry remaining ih =>
    unfold visit
    by_cases here : brainId ∈ ids (store.membersAt entry.2)
    · rw [if_pos here]
      exact ⟨entry, mem_cons_self, here, rfl⟩
    · rw [if_neg here]
      have later : ∃ other ∈ remaining, brainId ∈ ids (store.membersAt other.2) := by
        rcases present with ⟨other, listed, member⟩
        rcases mem_cons.mp listed with rfl | further
        · exact absurd member here
        · exact ⟨other, further, member⟩
      rcases ih later with ⟨other, listed, member, visited⟩
      exact ⟨other, mem_cons_of_mem _ listed, member, visited⟩

end

/-! ## One step -/

section

variable {lower : String → String} {system : System}

theorem hasMember_iff {store : Store} {brainId : String} : store.HasMember brainId ↔
      ∃ entry ∈ store.swarmMembers.entries, brainId ∈ ids (store.membersAt entry.2) := by
  unfold Store.HasMember
  simp [get?_eq_some_iff]

theorem consistent_createTeam (undivided : Undivided system) (consistent : Consistent system)
    (swarmId : String) (request : TeamRequest) :
    Consistent (step lower system (.createTeam swarmId request)) ↔
      Allowed system (.createTeam swarmId request) := by
  have assigned := assigned_assignRoles lower (teamOf request system.store.registry.values)
  have others (other : String) (distinct : other ≠ swarmId) (address : Nat)
      (known : (createTeam lower swarmId request system.store).swarmMembers.get? other =
        some address) :
      system.store.swarmMembers.get? other = some address ∧
        (createTeam lower swarmId request system.store).membersAt address =
          system.store.membersAt address := by
    have old : system.store.swarmMembers.get? other = some address := by
      rw [← known]
      exact (get?_set_ne _ distinct _).symm
    exact ⟨old, membersAt_setMembers swarmId _ (undivided.listed other address old)⟩
  have team : (createTeam lower swarmId request system.store).membersAt
      system.store.lists.length = teamOf request system.store.registry.values :=
    membersAt_new _ swarmId _
  have known : (createTeam lower swarmId request system.store).swarmMembers.get? swarmId =
      some system.store.lists.length :=
    get?_set_self _ _ _
  constructor
  · rintro ⟨gone, fits⟩ id member
    rcases fits swarmId _ known with ⟨roles, given, fit⟩
    dsimp only [step] at fit
    rw [team] at fit
    obtain rfl : assignRoles lower (teamOf request system.store.registry.values) none = roles :=
      Option.some.inj ((get?_set_self _ _ _).symm.trans given)
    refine ⟨((assigned.1 id).mp ((fit.keys id).mpr member)).2, ?_⟩
    rintro removal handled finished rfl
    exact gone removal handled finished ⟨swarmId, _, known, team ▸ member⟩
  · intro allowed
    constructor
    · rintro removal handled finished ⟨other, address, found, member⟩
      dsimp only [step] at found member
      by_cases same : other = swarmId
      · rw [same, known] at found
        cases found
        rw [team] at member
        exact (allowed _ member).2 removal handled finished rfl
      · rcases others other same address found with ⟨old, unchanged⟩
        rw [unchanged] at member
        exact consistent.gone removal handled finished ⟨other, address, old, member⟩
    · intro other address found
      dsimp only [step] at found ⊢
      by_cases same : other = swarmId
      · rw [same] at found ⊢
        rw [known] at found
        cases found
        refine ⟨_, get?_set_self _ _ _, ?_⟩
        rw [team]
        have named (id : String) :
            id ∈ ids (teamOf request system.store.registry.values) ∧ id ≠ "" ↔
              id ∈ ids (teamOf request system.store.registry.values) :=
          and_iff_left_of_imp fun member => (allowed id member).1
        constructor
        · exact nodup_teamOf request undivided.keyed.distinct
        · intro id
          rw [assigned.1, named]
        · intro some
          rcases exists_mem_of_ne_nil _ some with ⟨member, listed⟩
          exact assigned.2 ⟨member.id, (named _).mpr (mem_map_of_mem listed)⟩
      · rcases others other same address found with ⟨old, unchanged⟩
        rcases consistent.fits other address old with ⟨roles, given, fit⟩
        rw [unchanged]
        exact ⟨roles, (get?_set_ne _ same _).trans given, fit⟩

theorem consistent_published (consistent : Consistent system)
    {index : Nat} {removal : Removal} (present : system.processes[index]? = some removal)
    (published : removal.stage = .published) : Consistent (system.resume onBrainRemoved index) ↔
      ¬ system.store.HasMember removal.brainId := by
  rw [Pool.resume_of_some present]
  unfold onBrainRemoved
  rw [published]
  dsimp only
  constructor
  · rintro ⟨-, fits⟩ member
    rcases visit_of_present (hasMember_iff.mp member) with ⟨entry, listed, lost, visited⟩
    rw [visited] at fits
    rcases fits entry.1 _ (get?_set_self _ _ _) with ⟨roles, given, fit⟩
    rcases consistent.fits entry.1 entry.2 (get?_eq_some_iff.mpr listed) with
      ⟨before, givenBefore, fitBefore⟩
    obtain rfl : before = roles := Option.some.inj (givenBefore.symm.trans given)
    rw [membersAt_new] at fit
    -- the role of the lost member stays behind
    have stays := (fit.keys _).mp ((fitBefore.keys _).mpr lost)
    rcases mem_map.mp stays with ⟨other, kept, same⟩
    exact of_decide_eq_true (mem_filter.mp kept).2 same
  · intro absent
    rw [hasMember_iff] at absent
    push Not at absent
    rw [visit_of_absent absent]
    constructor
    · intro other handled finished
      rcases mem_or_eq_of_mem_set handled with old | rfl
      · exact consistent.gone other old finished
      · rw [hasMember_iff]
        push Not
        exact absent
    · exact consistent.fits

theorem resume_over {index : Nat} {removal : Removal}
    (present : system.processes[index]? = some removal) (finished : removal.stage = .over) :
    system.resume onBrainRemoved index = system := by
  have same : onBrainRemoved system.store removal = (system.store, removal) := by
    unfold onBrainRemoved
    rw [finished]
  rw [Pool.resume_of_some present, same]
  rcases List.getElem?_eq_some_iff.mp present with ⟨inside, rfl⟩
  rw [set_getElem_self]

theorem consistent_step_iff (undivided : Undivided system) (consistent : Consistent system)
    (action : Action) : Consistent (step lower system action) ↔ Allowed system action := by
  cases action with
  | createTeam swarmId request => exact consistent_createTeam undivided consistent swarmId request
  | register brain => exact iff_of_true ⟨consistent.gone, consistent.fits⟩ trivial
  | unregister brainId =>
    apply iff_of_true _ trivial
    dsimp only [step]
    cases system.store.registry.get? brainId with
    | none => exact consistent
    | some brain =>
      constructor
      · intro removal handled finished
        rcases mem_append.mp handled with old | new
        · exact consistent.gone removal old finished
        · obtain rfl := mem_singleton.mp new
          cases finished
      · exact consistent.fits
  | resume index =>
    dsimp only [step, Allowed]
    cases present : system.processes[index]? with
    | none =>
      rw [Pool.resume_of_none present]
      exact iff_of_true consistent nofun
    | some removal =>
      rcases undivided.whole removal (mem_of_getElem? present) with published | finished
      · rw [consistent_published consistent present published]
        constructor
        · rintro absent other same -
          cases same
          exact absent
        · intro absent
          exact absent removal rfl published
      · rw [resume_over present finished]
        apply iff_of_true consistent
        · intro other same published
          cases same
          rw [finished] at published
          cases published

theorem Undivided.step (undivided : Undivided system) (action : Action)
    (allowed : Allowed system action) : Undivided (step lower system action) := by
  rcases undivided with ⟨whole, listed, keyed⟩
  cases action with
  | createTeam swarmId request =>
    refine ⟨whole, ?_, keyed⟩
    intro other address found
    have inside : address < (system.store.lists ++
        [teamOf request system.store.registry.values]).length := by
      rw [length_append, length_singleton]
      change (system.store.swarmMembers.set swarmId _).get? other = some address at found
      rw [get?_set] at found
      split at found
      · cases found
        exact Nat.lt_succ_self _
      · exact Nat.lt_succ_of_lt (listed other address found)
    exact inside
  | register brain => exact ⟨whole, listed, keyed.set brain⟩
  | unregister brainId =>
    dsimp only [Swarm.step]
    cases system.store.registry.get? brainId with
    | none => exact ⟨whole, listed, keyed⟩
    | some brain => exact ⟨Pool.spawn_invariant _ whole (.inl rfl), listed, keyed.erase brainId⟩
  | resume index =>
    dsimp only [Swarm.step]
    cases present : system.processes[index]? with
    | none =>
      rw [Pool.resume_of_none present]
      exact ⟨whole, listed, keyed⟩
    | some removal =>
      rcases whole removal (mem_of_getElem? present) with published | finished
      · have absent := allowed removal present published
        rw [hasMember_iff] at absent
        push Not at absent
        rw [Pool.resume_of_some present]
        unfold onBrainRemoved
        rw [published]
        dsimp only
        rw [visit_of_absent absent]
        refine ⟨?_, listed, keyed⟩
        intro other handled
        rcases mem_or_eq_of_mem_set handled with old | rfl
        · exact whole other old
        · exact .inr rfl
      · rw [resume_over present finished]
        exact ⟨whole, listed, keyed⟩

end

/-- In a run the tables stay consistent exactly as long as every step is one of those. -/
theorem always_consistent_iff (lower : String → String) (actions : List Action) :
    Always (step lower) Consistent begin actions ↔
      Along (step lower) Allowed begin actions := by
  apply always_iff_along Undivided
  · intro system action undivided _ allowed
    exact undivided.step action allowed
  · intro system action undivided consistent
    exact consistent_step_iff undivided consistent action
  · exact ⟨nofun, nofun, nofun⟩
  · exact ⟨nofun, nofun⟩

/-- Three brains, and the teams with these ids of all of them. -/
def formTeams (swarmIds : List String) : List Action :=
  [.register { id := "a", displayName := "A" }, .register { id := "b", displayName := "B" },
    .register { id := "c", displayName := "C" }] ++
    swarmIds.map fun swarmId => .createTeam swarmId {}

/-- Two removals in turn, up to the end of the first one. -/
def removals : List Action :=
  [.unregister "a", .unregister "b", .resume 0, .resume 1, .resume 0, .resume 1, .resume 0]

/-- Once a member has been removed it keeps its role; and two removals that take turns put a
member back that has left already. -/
theorem removed_member_stays :
    ¬ Consistent (run (step id) begin (formTeams ["one"] ++ [.unregister "a", .resume 0])) ∧
      ¬ Consistent (run (step id) begin (formTeams ["one", "two"] ++ removals)) := by
  constructor
  · rintro ⟨-, fits⟩
    rcases fits "one" 1 (by decide +kernel) with ⟨roles, given, fit⟩
    have keys : (((run (step id) begin
        (formTeams ["one"] ++ [.unregister "a", .resume 0])).store.swarmRoles.get? "one").map
          Dict.keys) = some ["a", "b", "c"] := by decide +kernel
    rw [given] at keys
    have keeps : "a" ∈ roles.keys := by
      rw [Option.some.inj keys]
      decide
    exact absurd ((fit.keys "a").mp keeps) (by decide +kernel)
  · rintro ⟨gone, -⟩
    have finished : (run (step id) begin (formTeams ["one", "two"] ++ removals)).processes[0]? =
        some { brainId := "a", stage := .over } := by decide +kernel
    exact gone _ (mem_of_getElem? finished) rfl ⟨"two", 5, by decide +kernel, by decide +kernel⟩

end AgenticOS.Swarm
