import AgenticOS.Container.Resolution

/-!
# What a resolution leaves as it is

A resolution takes off the marks that it has put on, whether it succeeds or not. What is
cached stays cached, and under the keys that are being resolved nothing is made or cached.
-/

namespace AgenticOS.Container

open List Finset Option

/-- A key that is resolved by its factory: it has a registration, it is not being resolved, and
there is no instance yet. -/
structure Opens (state : Resolving) (resolveId container : Nat) (key : String) (owner : Nat)
    (registration : Registration) : Prop where
  owned : state.tree.owner container key = some owner
  registered : state.tree.registrations.get? (owner, key) = some registration
  unvisited : key ∉ state.visited
  unmarked : resolveId ∉ registration.resolvingIn
  uncached : state.tree.cached owner key registration.lifetime = none

section

variable (order : SetOrder String) (resolveId fuel container : Nat) (key : String)
  (state : Resolving)

/-- What one turn of a resolution can come to. -/
inductive Turn : Except ContainerError Nat → Resolving → Prop
  | missing (message : String) (absent : state.tree.owner container key = none) :
      Turn (.error (.missingDependency message)) state
  | circle (message : String) (owner : Nat) (registration : Registration)
      (owned : state.tree.owner container key = some owner)
      (registered : state.tree.registrations.get? (owner, key) = some registration)
      (marked : key ∈ state.visited ∨ resolveId ∈ registration.resolvingIn) :
      Turn (.error (.cyclicDependency message)) state
  | found (owner made : Nat) (registration : Registration)
      (owned : state.tree.owner container key = some owner)
      (registered : state.tree.registrations.get? (owner, key) = some registration)
      (cached : state.tree.cached owner key registration.lifetime = some made) :
      Turn (.ok made) state
  | passed (message : String) (owner : Nat) (registration : Registration) (after : Resolving)
      (opens : Opens state resolveId container key owner registration)
      (stopped : resolveAll (resolveIn order resolveId fuel owner) registration.demands
        (state.mark (owner, key) resolveId) = some (some (.cyclicDependency message), after)) :
      Turn (.error (.cyclicDependency message)) (after.unmark (owner, key) resolveId)
  | wrapped (message : String) (error : ContainerError) (owner : Nat)
      (registration : Registration) (after : Resolving)
      (opens : Opens state resolveId container key owner registration)
      (stopped : resolveAll (resolveIn order resolveId fuel owner) registration.demands
        (state.mark (owner, key) resolveId) = some (some error, after))
      (other : ∀ text, error ≠ .cyclicDependency text) :
      Turn (.error (.resolution message))
        ((after.failed (owner, key)).unmark (owner, key) resolveId)
  | constructed (owner : Nat) (registration : Registration) (after : Resolving)
      (opens : Opens state resolveId container key owner registration)
      (resolved : resolveAll (resolveIn order resolveId fuel owner) registration.demands
        (state.mark (owner, key) resolveId) = some (none, after)) :
      Turn (construct after (owner, key) registration resolveId).1
        (construct after (owner, key) registration resolveId).2

variable {order resolveId fuel container key state}

theorem registered_of_owner {owner : Nat} (owned : state.tree.owner container key = some owner) :
    ∃ registration, state.tree.registrations.get? (owner, key) = some registration := by
  have present := find?_some owned
  exact isSome_iff_exists.mp present

theorem resolveIn_turn {result : Except ContainerError Nat} {after : Resolving}
    (resolves : resolveIn order resolveId (fuel + 1) container key state = some (result, after)) :
    Turn order resolveId fuel container key state result after := by
  unfold resolveIn at resolves
  cases owned : state.tree.owner container key with
  | none =>
    simp only [owned, Option.some.injEq, Prod.mk.injEq] at resolves
    obtain ⟨rfl, rfl⟩ := resolves
    exact .missing _ owned
  | some owner =>
    obtain ⟨registration, registered⟩ := registered_of_owner owned
    simp only [owned, registered] at resolves
    split at resolves
    next visited =>
      cases resolves
      exact .circle _ owner registration owned registered (.inl visited)
    next unvisited =>
      split at resolves
      next marked =>
        cases resolves
        exact .circle _ owner registration owned registered (.inr marked)
      next unmarked =>
        cases cached : state.tree.cached owner key registration.lifetime with
        | some made =>
          simp only [cached, Option.some.injEq, Prod.mk.injEq] at resolves
          obtain ⟨rfl, rfl⟩ := resolves
          exact .found owner made registration owned registered cached
        | none =>
          simp only [cached] at resolves
          have opens : Opens state resolveId container key owner registration :=
            ⟨owned, registered, unvisited, unmarked, cached⟩
          split at resolves
          next => cases resolves
          next last resolved =>
            obtain ⟨rfl, rfl⟩ := Prod.mk.injEq .. ▸ Option.some.inj resolves
            exact .constructed owner registration last opens resolved
          next message last stopped =>
            cases resolves
            exact .passed message owner registration last opens stopped
          next error last other stopped =>
            cases resolves
            exact .wrapped _ error owner registration last opens stopped
              fun text same => other text (same ▸ rfl)

end

theorem resolveAll_invariant {resolve : String → Resolving → Outcome} (inv : Resolving → Prop)
    (kept : ∀ key state result after, inv state → resolve key state = some (result, after) →
      inv after)
    {demands : List (String × Bool)} {state after : Resolving} {outcome : Option ContainerError}
    (initially : inv state) (resolves : resolveAll resolve demands state = some (outcome, after)) :
    inv after := by
  induction demands generalizing state with
  | nil =>
    cases resolves
    exact initially
  | cons demand rest hypothesis =>
    obtain ⟨key, optional⟩ := demand
    unfold resolveAll at resolves
    cases first : resolve key state with
    | none =>
      rw [first] at resolves
      cases resolves
    | some pair =>
      obtain ⟨result, next⟩ := pair
      have keptNext := kept key state result next initially first
      rw [first] at resolves
      split at resolves
      next contradiction => cases contradiction
      next made last same =>
        cases same
        exact hypothesis keptNext resolves
      next message last same =>
        cases same
        split at resolves
        next => exact hypothesis keptNext resolves
        next =>
          cases resolves
          exact keptNext
      next error last _ same =>
        cases same
        cases resolves
        exact keptNext

/-- A registration without what a resolution may change for good. -/
def Registration.core (registration : Registration) : Registration :=
  { registration with status := .registered, singletonInstance := none }

/-- The registration at a place, without what a resolution may change for good. -/
def Tree.coreAt (tree : Tree) (place : Place) : Option Registration :=
  (tree.registrations.get? place).map Registration.core

/-- The marks are the same before and after, what was cached still is, and nothing is new under
the keys that are being resolved. -/
structure Frame (before after : Resolving) : Prop where
  lineage : after.tree.lineage = before.tree.lineage
  cores : ∀ place, after.tree.coreAt place = before.tree.coreAt place
  visited : after.visited = before.visited
  singletonsKept : ∀ place made, before.tree.singletons.get? place = some made →
    after.tree.singletons.get? place = some made
  scopedKept : ∀ place made, before.tree.scopedInstances.get? place = some made →
    after.tree.scopedInstances.get? place = some made
  closed : ∀ place : Place, place.2 ∈ before.visited →
    after.tree.singletons.get? place = before.tree.singletons.get? place ∧
      after.tree.scopedInstances.get? place = before.tree.scopedInstances.get? place
  built : ∃ more, after.tree.built = before.tree.built ++ more ∧
    ∀ place ∈ more, place.2 ∉ before.visited

theorem Frame.refl (state : Resolving) : Frame state state :=
  ⟨rfl, fun _ => rfl, rfl, fun _ _ found => found, fun _ _ found => found,
    fun _ _ => ⟨rfl, rfl⟩, [], by simp, by simp⟩

theorem Frame.trans {first second third : Resolving} (before : Frame first second)
    (after : Frame second third) : Frame first third := by
  obtain ⟨more, built, fresh⟩ := before.built
  obtain ⟨moreAfter, builtAfter, freshAfter⟩ := after.built
  refine ⟨after.lineage.trans before.lineage,
    fun place => (after.cores place).trans (before.cores place),
    after.visited.trans before.visited,
    fun place made found => after.singletonsKept place made
      (before.singletonsKept place made found),
    fun place made found => after.scopedKept place made (before.scopedKept place made found), ?_,
    more ++ moreAfter, ?_, ?_⟩
  · intro place visiting
    have openAfter : place.2 ∈ second.visited := by
      rw [before.visited]
      exact visiting
    exact ⟨(after.closed place openAfter).1.trans (before.closed place visiting).1,
      (after.closed place openAfter).2.trans (before.closed place visiting).2⟩
  · rw [builtAfter, built, append_assoc]
  · intro place member
    rcases mem_append.mp member with earlier | later
    · exact fresh place earlier
    · rw [← before.visited]
      exact freshAfter place later

section

variable {tree : Tree} {state after : Resolving} {resolveId : Nat} {place : Place}
  {registration : Registration}

theorem get?_modify (tree : Tree) (place : Place) (change : Registration → Registration)
    (other : Place) :
    (tree.modify place change).registrations.get? other =
      if other = place then (tree.registrations.get? other).map change
      else tree.registrations.get? other := by
  unfold Tree.modify
  cases found : tree.registrations.get? place with
  | none =>
    dsimp only
    split
    next same => rw [same, found]; rfl
    next => rfl
  | some kept =>
    rw [Dict.get?_set]
    split
    next same => rw [same, found]; rfl
    next => rfl

section

variable (tree : Tree) (place : Place) (change : Registration → Registration)

@[simp]
theorem modify_lineage : (tree.modify place change).lineage = tree.lineage := by
  unfold Tree.modify
  split <;> rfl

@[simp]
theorem modify_singletons : (tree.modify place change).singletons = tree.singletons := by
  unfold Tree.modify
  split <;> rfl

@[simp]
theorem modify_scopedInstances :
    (tree.modify place change).scopedInstances = tree.scopedInstances := by
  unfold Tree.modify
  split <;> rfl

@[simp]
theorem modify_built : (tree.modify place change).built = tree.built := by
  unfold Tree.modify
  split <;> rfl

end

theorem coreAt_modify {change : Registration → Registration}
    (same : ∀ registration, (change registration).core = registration.core) (other : Place) :
    (tree.modify place change).coreAt other = tree.coreAt other := by
  unfold Tree.coreAt
  rw [get?_modify]
  split
  next => simp [Function.comp_def, same]
  next => rfl

theorem frame_failed (state : Resolving) (place : Place) : Frame state (state.failed place) := by
  refine ⟨by simp [Resolving.failed], coreAt_modify fun _ => rfl, rfl, ?_, ?_, ?_, [], ?_, by simp⟩
  · intro other made found
    simpa [Resolving.failed] using found
  · intro other made found
    simpa [Resolving.failed] using found
  · intro other _
    simp [Resolving.failed]
  · simp [Resolving.failed]

theorem frame_called (state : Resolving) (calls : Nat) :
    Frame state { state with tree := { state.tree with calls := calls } } :=
  ⟨rfl, fun _ => rfl, rfl, fun _ _ found => found, fun _ _ found => found,
    fun _ _ => ⟨rfl, rfl⟩, [], by simp, by simp⟩

theorem Frame.unmark (inner : Frame (state.mark place resolveId) after)
    (registered : state.tree.registrations.get? place = some registration)
    (unvisited : place.2 ∉ state.visited) (unmarked : resolveId ∉ registration.resolvingIn) :
    Frame state (after.unmark place resolveId) := by
  obtain ⟨more, built, fresh⟩ := inner.built
  refine ⟨?_, ?_, ?_, ?_, ?_, ?_, more, ?_, ?_⟩
  · simpa [Resolving.mark, Resolving.unmark] using inner.lineage
  · intro other
    have cores := inner.cores other
    unfold Tree.coreAt Resolving.mark at cores
    unfold Tree.coreAt Resolving.unmark
    rw [get?_modify] at cores ⊢
    split
    next same =>
      rw [if_pos same, same, registered] at cores
      rw [same, registered]
      cases found : after.tree.registrations.get? place with
      | none =>
        rw [found] at cores
        cases cores
      | some marked =>
        rw [found] at cores
        have erased := congrArg (fun core : Registration =>
          { core with resolvingIn := core.resolvingIn.erase resolveId }) (Option.some.inj cores)
        refine congrArg some (erased.trans ?_)
        unfold Registration.core
        rw [erase_insert unmarked]
    next distinct =>
      rw [if_neg distinct] at cores
      exact cores
  · change after.visited.erase place.2 = state.visited
    rw [inner.visited]
    exact erase_insert unvisited
  · intro other made found
    have kept := inner.singletonsKept other made
    simp only [Resolving.mark, Resolving.unmark, modify_singletons] at kept ⊢
    exact kept found
  · intro other made found
    have kept := inner.scopedKept other made
    simp only [Resolving.mark, Resolving.unmark, modify_scopedInstances] at kept ⊢
    exact kept found
  · intro other visiting
    have closed := inner.closed other (Finset.mem_insert_of_mem visiting)
    simpa [Resolving.mark, Resolving.unmark] using closed
  · simpa [Resolving.mark, Resolving.unmark] using built
  · exact fun other member visiting => fresh other member (Finset.mem_insert_of_mem visiting)

theorem frame_store {lifetime : Lifetime} (unvisited : place.2 ∉ state.visited)
    (unmade : lifetime = .singleton → state.tree.singletons.get? place = none)
    (unscoped : lifetime = .scoped → state.tree.scopedInstances.get? place = none) (made : Nat) :
    Frame state { state with
      tree := Tree.store { state.tree with built := state.tree.built ++ [place] } place lifetime
        made } := by
  have apart : ∀ other : Place, other.2 ∈ state.visited → other ≠ place := by
    rintro other visiting rfl
    exact unvisited visiting
  have fresh : ∀ other ∈ [place], other.2 ∉ state.visited := by simpa using unvisited
  match lifetime, unmade, unscoped with
  | .transient, _, _ =>
    exact ⟨rfl, fun _ => rfl, rfl, fun _ _ found => found, fun _ _ found => found,
      fun _ _ => ⟨rfl, rfl⟩, [place], rfl, fresh⟩
  | .scoped, _, unscoped =>
    refine ⟨rfl, fun _ => rfl, rfl, fun _ _ found => found, ?_, ?_, [place], rfl, fresh⟩
    · intro other kept found
      have distinct : other ≠ place := by
        rintro rfl
        rw [unscoped rfl] at found
        cases found
      exact (Dict.get?_set_ne _ distinct made).trans found
    · exact fun other visiting => ⟨rfl, Dict.get?_set_ne _ (apart other visiting) made⟩
  | .singleton, unmade, _ =>
    refine ⟨by simp [Tree.store], ?_, rfl, ?_, ?_, ?_, [place], by simp [Tree.store], fresh⟩
    · exact coreAt_modify fun _ => rfl
    · intro other kept found
      have distinct : other ≠ place := by
        rintro rfl
        rw [unmade rfl] at found
        cases found
      simp only [Tree.store, modify_singletons]
      exact (Dict.get?_set_ne _ distinct made).trans found
    · intro other kept found
      simpa [Tree.store] using found
    · intro other visiting
      simp only [Tree.store, modify_singletons, modify_scopedInstances, and_true]
      exact Dict.get?_set_ne _ (apart other visiting) made

end

section

variable {tree : Tree} {owner : Nat} {key : String} {lifetime : Lifetime}

theorem singletons_of_uncached (uncached : tree.cached owner key lifetime = none)
    (singleton : lifetime = .singleton) : tree.singletons.get? (owner, key) = none := by
  subst singleton
  unfold Tree.cached at uncached
  cases found : tree.singletons.get? (owner, key) with
  | none => rfl
  | some made =>
    rw [found] at uncached
    cases uncached

theorem scopedInstances_of_uncached (uncached : tree.cached owner key lifetime = none)
    (kept : lifetime = .scoped) : tree.scopedInstances.get? (owner, key) = none := by
  subst kept
  exact uncached

end

/-! ## A resolution is a frame -/

variable {order : SetOrder String} {resolveId fuel container : Nat} {key : String}
  {state after : Resolving}

section

variable {owner : Nat} {registration : Registration}
  (opens : Opens state resolveId container key owner registration)
  (inner : Frame (state.mark (owner, key) resolveId) after)

include opens inner

theorem Opens.unmade (calls : Nat) :
    (registration.lifetime = .singleton → (Resolving.unmark { after with
      tree := { after.tree with calls := calls } } (owner, key) resolveId).tree.singletons.get?
        (owner, key) = none) ∧
    (registration.lifetime = .scoped → (Resolving.unmark { after with
      tree := { after.tree with calls := calls } } (owner, key)
        resolveId).tree.scopedInstances.get? (owner, key) = none) := by
  obtain ⟨closedSingletons, closedScopes⟩ :=
    inner.closed (owner, key) (Finset.mem_insert_self key state.visited)
  simp only [Resolving.mark, Resolving.unmark, modify_singletons,
    modify_scopedInstances] at closedSingletons closedScopes ⊢
  rw [closedSingletons, closedScopes]
  exact ⟨singletons_of_uncached opens.uncached, scopedInstances_of_uncached opens.uncached⟩

theorem Opens.frame_done (calls : Nat) : Frame state (Resolving.unmark { after with
      tree := { after.tree with calls := calls } } (owner, key) resolveId) :=
  (inner.trans (frame_called after calls)).unmark opens.registered opens.unvisited opens.unmarked

theorem Opens.frame_construct :
    Frame state (construct after (owner, key) registration resolveId).2 := by
  unfold construct
  split
  next text raised =>
    have called := inner.trans (frame_called after (after.tree.calls + 1))
    exact (called.trans (frame_failed _ (owner, key))).unmark opens.registered opens.unvisited
      opens.unmarked
  next =>
    have done := opens.frame_done inner (after.tree.calls + 1)
    obtain ⟨unmade, unscoped⟩ := opens.unmade inner (after.tree.calls + 1)
    refine done.trans (frame_store ?_ unmade unscoped _)
    rw [done.visited]
    exact opens.unvisited

end

variable {result : Except ContainerError Nat}

theorem resolveIn_frame
    (resolves : resolveIn order resolveId fuel container key state = some (result, after)) :
    Frame state after := by
  induction fuel generalizing container key state result after with
  | zero => cases resolves
  | succ fuel hypothesis =>
    have inside : ∀ {owner demands marked last outcome},
        resolveAll (resolveIn order resolveId fuel owner) demands marked = some (outcome, last) →
          Frame marked last := fun looped =>
      resolveAll_invariant (Frame _)
        (fun _ _ _ _ before resolved => before.trans (hypothesis resolved)) (.refl _) looped
    cases resolveIn_turn resolves with
    | passed message owner registration last opens stopped =>
      exact (inside stopped).unmark opens.registered opens.unvisited opens.unmarked
    | wrapped message error owner registration last opens stopped other =>
      exact ((inside stopped).trans (frame_failed last (owner, key))).unmark opens.registered
        opens.unvisited opens.unmarked
    | constructed owner registration last opens resolved =>
      exact opens.frame_construct (inside resolved)
    | _ => exact .refl state

/-- What every change that a resolution makes leaves true. -/
structure Kept (inv : Tree → Prop) : Prop where
  modify : ∀ {tree place change}, (∀ registration : Registration,
    (change registration).lifetime = registration.lifetime) → inv tree →
      inv (tree.modify place change)
  called : ∀ {tree : Tree} (calls), inv tree → inv { tree with calls := calls }
  store : ∀ {tree : Tree} {place : Place} {lifetime}, inv tree →
    (tree.coreAt place).map Registration.lifetime = some lifetime →
    (lifetime = .singleton → tree.singletons.get? place = none) →
    (lifetime = .scoped → tree.scopedInstances.get? place = none) →
      inv (Tree.store { tree with built := tree.built ++ [place] } place lifetime tree.built.length)

theorem Kept.construct {inv : Tree → Prop} (keeps : Kept inv) {owner : Nat}
    {registration : Registration} (opens : Opens state resolveId container key owner registration)
    (inner : Frame (state.mark (owner, key) resolveId) after) (initially : inv after.tree) :
    inv (construct after (owner, key) registration resolveId).2.tree := by
  have called := keeps.called (after.tree.calls + 1) initially
  unfold AgenticOS.Container.construct
  split
  next text raised =>
    exact keeps.modify (fun _ => rfl) (keeps.modify (fun _ => rfl) called)
  next =>
    have done := opens.frame_done inner (after.tree.calls + 1)
    obtain ⟨unmade, unscoped⟩ := opens.unmade inner (after.tree.calls + 1)
    refine keeps.store (keeps.modify (fun _ => rfl) called) ?_ unmade unscoped
    refine (congrArg (Option.map Registration.lifetime) (done.cores (owner, key))).trans ?_
    unfold Tree.coreAt
    rw [opens.registered]
    rfl

theorem resolveIn_invariant {inv : Tree → Prop} (keeps : Kept inv) (initially : inv state.tree)
    (resolves : resolveIn order resolveId fuel container key state = some (result, after)) :
    inv after.tree := by
  induction fuel generalizing container key state result after with
  | zero => cases resolves
  | succ fuel hypothesis =>
    have inside : ∀ {owner demands marked last outcome},
        resolveAll (resolveIn order resolveId fuel owner) demands marked = some (outcome, last) →
          inv marked.tree → inv last.tree := fun looped before =>
      resolveAll_invariant (fun current => inv current.tree)
        (fun _ _ _ _ before resolved => hypothesis before resolved) before looped
    cases resolveIn_turn resolves with
    | passed message owner registration last opens stopped =>
      exact keeps.modify (fun _ => rfl) (inside stopped (keeps.modify (fun _ => rfl) initially))
    | wrapped message error owner registration last opens stopped other =>
      exact keeps.modify (fun _ => rfl) (keeps.modify (fun _ => rfl)
        (inside stopped (keeps.modify (fun _ => rfl) initially)))
    | constructed owner registration last opens resolved =>
      refine keeps.construct opens ?_ (inside resolved (keeps.modify (fun _ => rfl) initially))
      exact resolveAll_invariant (Frame _)
        (fun _ _ _ _ before resolved => before.trans (resolveIn_frame resolved))
        (.refl _) resolved
    | _ => exact initially

structure Consistent (tree : Tree) : Prop where
  singletons : ∀ place made, tree.singletons.get? place = some made → tree.built[made]? = some place
  scopes : ∀ place made, tree.scopedInstances.get? place = some made →
    tree.built[made]? = some place

theorem Consistent.modify {tree : Tree} (consistent : Consistent tree) (place : Place)
    (change : Registration → Registration) : Consistent (tree.modify place change) := by
  constructor
  · rw [modify_singletons, modify_built]
    exact consistent.singletons
  · rw [modify_scopedInstances, modify_built]
    exact consistent.scopes

theorem kept_consistent : Kept Consistent where
  modify := fun _ consistent => consistent.modify _ _
  called := fun calls consistent => ⟨consistent.singletons, consistent.scopes⟩
  store := by
    intro tree place lifetime consistent _ _ _
    have earlier : ∀ {other : Place} {made : Nat}, tree.built[made]? = some other →
        (tree.built ++ [place])[made]? = some other := fun found =>
      (List.getElem?_append_left (List.getElem?_eq_some_iff.mp found).1).trans found
    have here : (tree.built ++ [place])[tree.built.length]? = some place := getElem?_concat_length
    have kept : ∀ dict : Dict Place Nat,
        (∀ other made, dict.get? other = some made → tree.built[made]? = some other) →
          ∀ other made, (dict.set place tree.built.length).get? other = some made →
            (tree.built ++ [place])[made]? = some other := by
      intro dict before other made found
      rw [Dict.get?_set] at found
      split at found
      next same =>
        cases found
        rw [same]
        exact here
      next => exact earlier (before other made found)
    match lifetime with
    | .transient =>
      exact ⟨fun other made found => earlier (consistent.singletons other made found),
        fun other made found => earlier (consistent.scopes other made found)⟩
    | .scoped =>
      exact ⟨fun other made found => earlier (consistent.singletons other made found),
        kept _ consistent.scopes⟩
    | .singleton =>
      refine .modify ?_ place _
      exact ⟨kept _ consistent.singletons,
        fun other made found => earlier (consistent.scopes other made found)⟩

def Tree.keys (tree : Tree) : Finset String :=
  (tree.registrations.keys.map Prod.snd).toFinset

theorem mem_keys_iff {tree : Tree} {key : String} :
    key ∈ tree.keys ↔ ∃ container, (tree.coreAt (container, key)).isSome := by
  simp [Tree.keys, Tree.coreAt, Dict.mem_keys_iff, isSome_iff_exists]

theorem card_keys_le (tree : Tree) : tree.keys.card ≤ tree.registrations.size := by
  refine (toFinset_card_le _).trans ?_
  simp [Dict.keys, Dict.size]

variable {order : SetOrder String} {resolveId fuel container : Nat} {key : String}
  {state after : Resolving}

theorem Frame.keys (frame : Frame state after) : after.tree.keys = state.tree.keys := by
  ext key
  simp only [mem_keys_iff, frame.cores]

theorem keys_mark (state : Resolving) (place : Place) (resolveId : Nat) :
    (state.mark place resolveId).tree.keys = state.tree.keys := by
  ext key
  simp only [mem_keys_iff]
  unfold Tree.coreAt Resolving.mark
  simp only [get?_modify]
  refine exists_congr fun container => ?_
  split <;> simp

/-- The keys that a resolution may still turn to. -/
def Resolving.unresolved (state : Resolving) : Finset String :=
  state.tree.keys \ state.visited

theorem isSome_resolveAll {resolve : String → Resolving → Outcome} {bound : Finset String}
    (returns : ∀ key state, state.unresolved = bound → (resolve key state).isSome)
    (kept : ∀ key state result after, resolve key state = some (result, after) →
      after.unresolved = state.unresolved)
    (demands : List (String × Bool)) {state : Resolving} (initially : state.unresolved = bound) :
    (resolveAll resolve demands state).isSome := by
  induction demands generalizing state with
  | nil => rfl
  | cons demand rest hypothesis =>
    obtain ⟨key, optional⟩ := demand
    obtain ⟨⟨result, next⟩, first⟩ :=
      isSome_iff_exists.mp (returns key state initially)
    have keptNext := hypothesis ((kept key state result next first).trans initially)
    unfold resolveAll
    rw [first]
    cases result with
    | ok made => exact keptNext
    | error error =>
      cases error with
      | missingDependency message =>
        cases optional with
        | true => exact keptNext
        | false => rfl
      | _ => rfl

theorem isSome_resolveIn (enough : state.unresolved.card < fuel) :
    (resolveIn order resolveId fuel container key state).isSome := by
  induction fuel generalizing container key state with
  | zero => cases enough
  | succ fuel hypothesis =>
    unfold resolveIn
    cases owned : state.tree.owner container key with
    | none => rfl
    | some owner =>
      obtain ⟨registration, registered⟩ := registered_of_owner owned
      simp only [registered]
      split
      next => rfl
      next unvisited =>
        split
        next => rfl
        next =>
          split
          next => rfl
          next =>
            have fewer : (state.mark (owner, key) resolveId).unresolved.card < fuel := by
              have member : key ∈ state.unresolved := by
                refine mem_sdiff.mpr ⟨mem_keys_iff.mpr ⟨owner, ?_⟩, unvisited⟩
                unfold Tree.coreAt
                rw [registered]
                rfl
              have erased : (state.mark (owner, key) resolveId).unresolved =
                  state.unresolved.erase key := by
                unfold Resolving.unresolved
                rw [keys_mark]
                exact sdiff_insert _ _ _
              rw [erased, card_erase_of_mem member]
              have := card_pos.mpr ⟨key, member⟩
              omega
            have looped := @isSome_resolveAll (resolveIn order resolveId fuel owner) _
              (fun key current same => hypothesis (same ▸ fewer))
              (fun key current result next resolved => by
                have frame := resolveIn_frame resolved
                unfold Resolving.unresolved
                rw [frame.keys, frame.visited])
              registration.demands _ rfl
            obtain ⟨⟨outcome, last⟩, looped⟩ := isSome_iff_exists.mp looped
            rw [looped]
            cases outcome with
            | none => rfl
            | some error => cases error <;> rfl

theorem isSome_resolve (tree : Tree) (interface name : String) :
    (tree.resolve order container interface name).isSome := by
  unfold Tree.resolve
  rw [isSome_map]
  refine isSome_resolveIn (Nat.lt_succ_of_le ?_)
  exact (card_le_card sdiff_subset).trans (card_keys_le tree)

end AgenticOS.Container
