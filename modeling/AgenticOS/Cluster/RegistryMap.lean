import AgenticOS.Cluster.DistributedRegistry
import AgenticOS.Data.Separator

/-!
# The registry as a map by pairs

The key of a brain tells its node and its id as long as neither of them has a colon in it.
Where this holds for all brains that are added, the registry is the map by pairs that it is
for. A single brain with a colon in one of its ids is found under two pairs.
-/

namespace AgenticOS.Cluster

open Transition Separator Dict String

namespace DistributedBrainRegistry

/-- An id without a colon. -/
def Plain (id : String) : Prop :=
  ':' ∉ id.toList
deriving Decidable

theorem toList_keyOf (nodeId brainId : String) :
    (keyOf nodeId brainId).toList = joined ':' nodeId.toList brainId.toList := by
  unfold keyOf joined
  simp

/-- A key tells its two ids exactly if both are plain. -/
theorem keyOf_unique_iff (nodeId brainId : String) :
    (∀ otherNode otherBrain, keyOf otherNode otherBrain = keyOf nodeId brainId →
        otherNode = nodeId ∧ otherBrain = brainId) ↔
      Plain nodeId ∧ Plain brainId := by
  rw [Plain, Plain, ← joined_unique_iff]
  constructor
  · intro unique first second same
    have keys : keyOf (.ofList first) (.ofList second) = keyOf nodeId brainId := by
      apply toList_inj.mp
      rw [toList_keyOf, toList_keyOf, toList_ofList, toList_ofList, same]
    obtain ⟨node, brain⟩ := unique _ _ keys
    rw [← node, ← brain, toList_ofList, toList_ofList]
    exact ⟨rfl, rfl⟩
  · intro unique otherNode otherBrain same
    have lists := congrArg String.toList same
    rw [toList_keyOf, toList_keyOf] at lists
    obtain ⟨node, brain⟩ := unique _ _ lists
    exact ⟨toList_inj.mp node, toList_inj.mp brain⟩

variable {nodeId brainId : String}

theorem keyOf_eq_iff (plainNode : Plain nodeId) (plainBrain : Plain brainId)
    {otherNode otherBrain : String} : keyOf otherNode otherBrain = keyOf nodeId brainId ↔
      otherNode = nodeId ∧ otherBrain = brainId := by
  constructor
  · exact (keyOf_unique_iff nodeId brainId).mpr ⟨plainNode, plainBrain⟩ otherNode otherBrain
  · rintro ⟨rfl, rfl⟩
    rfl

/-- Every record is held under its own key, and its ids are plain. -/
structure Sound (registry : DistributedBrainRegistry) : Prop where
  keyed : ∀ key record, registry.remote.get? key = some record →
    key = keyOf record.nodeId record.brainId
  plain : ∀ key record, registry.remote.get? key = some record →
    Plain record.nodeId ∧ Plain record.brainId

variable {registry : DistributedBrainRegistry} {brains : PairMap}

variable {record : RemoteBrainRecord}

section

variable (sound : registry.Sound)
include sound

theorem Sound.ids_of_getRemoteBrain (found : registry.getRemoteBrain brainId nodeId = some record) :
    record.nodeId = nodeId ∧ record.brainId = brainId := by
  have plain := sound.plain _ record found
  have same := (keyOf_eq_iff plain.1 plain.2).mp (sound.keyed _ record found)
  exact ⟨same.1.symm, same.2.symm⟩

theorem Sound.mem_listRemoteBrains : record ∈ registry.listRemoteBrains nodeId ↔
      ∃ brainId, registry.getRemoteBrain brainId nodeId = some record := by
  unfold listRemoteBrains Dict.values
  rw [List.mem_filter, decide_eq_true_iff, List.mem_map]
  constructor
  · rintro ⟨⟨⟨key, held⟩, entry, same⟩, rfl⟩
    obtain rfl : held = record := same
    have found := get?_eq_some_iff.mpr entry
    have named := sound.keyed key _ found
    refine ⟨held.brainId, ?_⟩
    unfold getRemoteBrain
    rw [← named]
    exact found
  · rintro ⟨brainId, found⟩
    exact ⟨⟨_, get?_eq_some_iff.mp found, rfl⟩, (sound.ids_of_getRemoteBrain found).1⟩

theorem Represents.of_lookup
    (lookup : ∀ nodeId brainId, registry.getRemoteBrain brainId nodeId = brains nodeId brainId)
    (index : ∀ nodeId key, key ∈ registry.indexed nodeId ↔
      ∃ brainId record, brains nodeId brainId = some record ∧ key = keyOf nodeId brainId) :
    registry.Represents brains where
  lookup := lookup
  index := index
  list nodeId record := by
    rw [sound.mem_listRemoteBrains]
    simp only [lookup]

theorem Sound.erase (key : String) (byNode : Dict String (Finset String)) (syncCount : Nat) :
    Sound ⟨registry.remote.erase key, byNode, syncCount⟩ where
  keyed other record found := sound.keyed other record (get?_of_get?_erase found)
  plain other record found := sound.plain other record (get?_of_get?_erase found)

theorem Sound.set {key : String} (named : key = keyOf record.nodeId record.brainId)
    (plain : Plain record.nodeId ∧ Plain record.brainId) (byNode : Dict String (Finset String))
    (syncCount : Nat) : Sound ⟨registry.remote.set key record, byNode, syncCount⟩ := by
  constructor
  · intro other found isFound
    rw [get?_set] at isFound
    split at isFound
    · rename_i same
      cases isFound
      exact same.trans named
    · exact sound.keyed other found isFound
  · intro other found isFound
    rw [get?_set] at isFound
    split at isFound
    · cases isFound
      exact plain
    · exact sound.plain other found isFound

end

theorem Sound.addRemoteBrain (sound : registry.Sound) (plainNode : Plain record.nodeId)
    (plainBrain : Plain record.brainId) : (registry.addRemoteBrain record).Sound :=
  sound.set rfl ⟨plainNode, plainBrain⟩ _ _

section

variable (record : RemoteBrainRecord) (nodeId : String)

theorem getRemoteBrain_addRemoteBrain (brainId : String) :
    (registry.addRemoteBrain record).getRemoteBrain brainId nodeId =
      if keyOf nodeId brainId = keyOf record.nodeId record.brainId then some record
      else registry.getRemoteBrain brainId nodeId := by
  exact get?_set _ _ _ _

theorem indexed_addRemoteBrain :
    (registry.addRemoteBrain record).indexed nodeId =
      if nodeId = record.nodeId then
        insert (keyOf record.nodeId record.brainId) (registry.indexed nodeId)
      else registry.indexed nodeId := by
  unfold indexed addRemoteBrain
  rw [get?_set]
  split
  · rename_i same
    rw [same]
    rfl
  · rfl

theorem pairMap_add (brainId : String) :
    brains.step (.add record) nodeId brainId =
      if nodeId = record.nodeId ∧ brainId = record.brainId then some record
      else brains nodeId brainId :=
  rfl

end

theorem Represents.addRemoteBrain (represents : registry.Represents brains)
    (sound : registry.Sound) (plainNode : Plain record.nodeId) (plainBrain : Plain record.brainId) :
    (registry.addRemoteBrain record).Represents (brains.step (.add record)) := by
  apply Represents.of_lookup (sound.addRemoteBrain plainNode plainBrain)
  · intro nodeId brainId
    rw [getRemoteBrain_addRemoteBrain, represents.lookup, pairMap_add]
    simp only [keyOf_eq_iff plainNode plainBrain]
  · intro nodeId key
    rw [indexed_addRemoteBrain]
    simp only [pairMap_add]
    by_cases same : nodeId = record.nodeId
    · subst same
      rw [if_pos rfl, Finset.mem_insert, represents.index]
      constructor
      · rintro (rfl | ⟨brainId, old, held, rfl⟩)
        · exact ⟨record.brainId, record, if_pos ⟨rfl, rfl⟩, rfl⟩
        · by_cases again : brainId = record.brainId
          · exact ⟨brainId, record, if_pos ⟨rfl, again⟩, rfl⟩
          · exact ⟨brainId, old, (if_neg fun both => again both.2).trans held, rfl⟩
      · rintro ⟨brainId, found, held, rfl⟩
        by_cases again : brainId = record.brainId
        · exact .inl (by rw [again])
        · rw [if_neg fun both => again both.2] at held
          exact .inr ⟨brainId, found, held, rfl⟩
    · rw [if_neg same, represents.index]
      simp [same]

theorem not_represents_addRemoteBrain (represents : registry.Represents brains)
    (sound : registry.Sound) (ambiguous : ¬ (Plain record.nodeId ∧ Plain record.brainId)) :
    ¬ (registry.addRemoteBrain record).Represents (brains.step (.add record)) := by
  intro still
  apply ambiguous
  rw [← keyOf_unique_iff]
  intro nodeId brainId same
  by_contra other
  have found := still.lookup nodeId brainId
  rw [getRemoteBrain_addRemoteBrain, if_pos same] at found
  have unknown : brains nodeId brainId = none := by
    rw [← represents.lookup]
    cases held : registry.getRemoteBrain brainId nodeId with
    | none => rfl
    | some earlier =>
      have plain := sound.plain _ earlier held
      have named := sound.keyed _ earlier held
      have isPair := (keyOf_eq_iff plain.1 plain.2).mp named
      have isRecord := (keyOf_eq_iff plain.1 plain.2).mp (same.symm.trans named)
      exact absurd ⟨isPair.1.trans isRecord.1.symm, isPair.2.trans isRecord.2.symm⟩ other
  rw [pairMap_add, if_neg other, unknown] at found
  cases found

/-! ## A brain is removed -/

theorem getRemoteBrain_erase (key : String) (byNode : Dict String (Finset String))
    (syncCount : Nat) (nodeId brainId : String) :
    getRemoteBrain ⟨registry.remote.erase key, byNode, syncCount⟩ brainId nodeId =
      if keyOf nodeId brainId = key then none else registry.getRemoteBrain brainId nodeId :=
  get?_erase _ _ _

theorem indexed_unindex (remote : Dict String RemoteBrainRecord) (syncCount : Nat)
    (nodeId key other : String) : indexed ⟨remote, registry.unindex nodeId key, syncCount⟩ other =
      if other = nodeId then (registry.indexed nodeId).erase key else registry.indexed other := by
  unfold indexed unindex
  cases found : registry.byNode.get? nodeId with
  | none =>
    by_cases same : other = nodeId
    · rw [if_pos same, same, found]
      rfl
    · rw [if_neg same]
  | some keys =>
    dsimp only
    by_cases last : keys.erase key = ∅
    · rw [if_pos last, get?_erase]
      by_cases same : other = nodeId
      · rw [if_pos same, if_pos same]
        exact last.symm
      · rw [if_neg same, if_neg same]
    · rw [if_neg last, get?_set]
      by_cases same : other = nodeId
      · rw [if_pos same, if_pos same]
        rfl
      · rw [if_neg same, if_neg same]

theorem pairMap_remove (brainId nodeId otherNode otherBrain : String) :
    brains.step (.remove brainId nodeId) otherNode otherBrain =
      if otherNode = nodeId ∧ otherBrain = brainId then none else brains otherNode otherBrain :=
  rfl

theorem pairMap_remove_of_none (unknown : brains nodeId brainId = none) :
    brains.step (.remove brainId nodeId) = brains := by
  funext otherNode otherBrain
  rw [pairMap_remove]
  split
  · rename_i isPair
    rw [isPair.1, isPair.2, unknown]
  · rfl

theorem Represents.removeRemoteBrain (represents : registry.Represents brains)
    (sound : registry.Sound) (brainId nodeId : String) :
    (registry.removeRemoteBrain brainId nodeId).1.Sound ∧
      (registry.removeRemoteBrain brainId nodeId).1.Represents
        (brains.step (.remove brainId nodeId)) := by
  unfold DistributedBrainRegistry.removeRemoteBrain
  dsimp only
  cases found : registry.remote.get? (keyOf nodeId brainId) with
  | none =>
    have unknown : brains nodeId brainId = none := by
      rw [← represents.lookup]
      exact found
    rw [pairMap_remove_of_none unknown]
    exact ⟨sound, represents⟩
  | some record =>
    have ids := sound.ids_of_getRemoteBrain found
    have plain := sound.plain _ record found
    rw [ids.1, ids.2] at plain
    have soundAfter := sound.erase (keyOf nodeId brainId)
      (registry.unindex nodeId (keyOf nodeId brainId)) (registry.syncCount + 1)
    refine ⟨soundAfter, .of_lookup soundAfter ?_ ?_⟩
    · intro otherNode otherBrain
      rw [getRemoteBrain_erase, represents.lookup, pairMap_remove]
      simp only [keyOf_eq_iff plain.1 plain.2]
    · intro otherNode key
      rw [indexed_unindex]
      simp only [pairMap_remove]
      by_cases same : otherNode = nodeId
      · subst same
        rw [if_pos rfl, Finset.mem_erase, represents.index]
        constructor
        · rintro ⟨distinct, otherBrain, held, isHeld, rfl⟩
          refine ⟨otherBrain, held, (if_neg fun both => distinct ?_).trans isHeld, rfl⟩
          rw [both.2]
        · rintro ⟨otherBrain, held, isHeld, rfl⟩
          by_cases removed : otherBrain = brainId
          · rw [if_pos ⟨rfl, removed⟩] at isHeld
            cases isHeld
          · rw [if_neg fun both => removed both.2] at isHeld
            refine ⟨fun sameKey => removed ?_, otherBrain, held, isHeld, rfl⟩
            exact ((keyOf_eq_iff plain.1 plain.2).mp sameKey).2
      · rw [if_neg same, represents.index]
        simp [same]

theorem get?_foldl_erase (keys : List String) (remote : Dict String RemoteBrainRecord)
    (key : String) :
    (keys.foldl Dict.erase remote).get? key = if key ∈ keys then none else remote.get? key := by
  induction keys generalizing remote with
  | nil => rfl
  | cons head keys ih =>
    rw [List.foldl_cons, ih, get?_erase]
    by_cases here : key = head
    · simp [here]
    · simp [here]

variable (both : DistributedBrainRegistry × PairMap) (order : SetOrder String)

theorem getRemoteBrain_removeAllForNode (nodeId otherNode otherBrain : String) :
    (registry.removeAllForNode order nodeId).1.getRemoteBrain otherBrain otherNode =
      if keyOf otherNode otherBrain ∈ registry.indexed nodeId then none
      else registry.getRemoteBrain otherBrain otherNode := by
  unfold getRemoteBrain removeAllForNode
  rw [get?_foldl_erase]
  simp only [order.mem]

theorem indexed_removeAllForNode (nodeId otherNode : String) :
    (registry.removeAllForNode order nodeId).1.indexed otherNode =
      if otherNode = nodeId then ∅ else registry.indexed otherNode := by
  unfold indexed removeAllForNode
  rw [get?_erase]
  split <;> rfl

theorem Sound.removeAllForNode (sound : registry.Sound) (order : SetOrder String)
    (nodeId : String) : (registry.removeAllForNode order nodeId).1.Sound := by
  have held : ∀ key record,
      (registry.removeAllForNode order nodeId).1.remote.get? key = some record →
      registry.remote.get? key = some record := by
    intro key record found
    unfold DistributedBrainRegistry.removeAllForNode at found
    rw [get?_foldl_erase] at found
    split at found
    · cases found
    · exact found
  exact ⟨fun key record found => sound.keyed key record (held key record found),
    fun key record found => sound.plain key record (held key record found)⟩

theorem pairMap_removeAll (nodeId otherNode otherBrain : String) :
    brains.step (.removeAll order nodeId) otherNode otherBrain =
      if otherNode = nodeId then none else brains otherNode otherBrain :=
  rfl

theorem Represents.mem_indexed (represents : registry.Represents brains)
    (sound : registry.Sound) (nodeId otherNode otherBrain : String) :
    keyOf otherNode otherBrain ∈ registry.indexed nodeId ↔
      otherNode = nodeId ∧ (brains nodeId otherBrain).isSome := by
  rw [represents.index]
  constructor
  · rintro ⟨brainId, record, held, sameKey⟩
    have found := held
    rw [← represents.lookup] at found
    have ids := sound.ids_of_getRemoteBrain found
    have plain := sound.plain _ record found
    rw [ids.1, ids.2] at plain
    obtain ⟨rfl, rfl⟩ := (keyOf_eq_iff plain.1 plain.2).mp sameKey
    rw [held]
    exact ⟨rfl, rfl⟩
  · rintro ⟨rfl, isHeld⟩
    obtain ⟨record, held⟩ := Option.isSome_iff_exists.mp isHeld
    exact ⟨otherBrain, record, held, rfl⟩

theorem Represents.removeAllForNode (represents : registry.Represents brains)
    (sound : registry.Sound) (order : SetOrder String) (nodeId : String) :
    (registry.removeAllForNode order nodeId).1.Represents
      (brains.step (.removeAll order nodeId)) := by
  apply Represents.of_lookup (sound.removeAllForNode order nodeId)
  · intro otherNode otherBrain
    rw [getRemoteBrain_removeAllForNode, represents.lookup, pairMap_removeAll]
    simp only [represents.mem_indexed sound]
    by_cases same : otherNode = nodeId
    · subst same
      cases brains otherNode otherBrain <;> simp
    · simp [same]
  · intro otherNode key
    rw [indexed_removeAllForNode]
    simp only [pairMap_removeAll]
    by_cases same : otherNode = nodeId
    · simp [same]
    · rw [if_neg same, represents.index]
      simp [same]

theorem pairMap_update (brainId nodeId : String) (update : BrainUpdate) (now : Timestamp)
    (otherNode otherBrain : String) :
    brains.step (.update brainId nodeId update now) otherNode otherBrain =
      if otherNode = nodeId ∧ otherBrain = brainId then
        (brains otherNode otherBrain).map (update.apply now)
      else brains otherNode otherBrain :=
  rfl

theorem pairMap_update_of_none (unknown : brains nodeId brainId = none) (update : BrainUpdate)
    (now : Timestamp) : brains.step (.update brainId nodeId update now) = brains := by
  funext otherNode otherBrain
  rw [pairMap_update]
  split
  · rename_i isPair
    rw [isPair.1, isPair.2, unknown]
    rfl
  · rfl

theorem exists_update_iff (brainId nodeId : String) (update : BrainUpdate) (now : Timestamp)
    (otherNode key : String) : (∃ otherBrain record,
        brains.step (.update brainId nodeId update now) otherNode otherBrain = some record ∧
          key = keyOf otherNode otherBrain) ↔
      ∃ otherBrain record, brains otherNode otherBrain = some record ∧
        key = keyOf otherNode otherBrain := by
  simp only [pairMap_update]
  constructor
  · rintro ⟨otherBrain, other, isHeld, rfl⟩
    by_cases isPair : otherNode = nodeId ∧ otherBrain = brainId
    · rw [if_pos isPair] at isHeld
      obtain ⟨earlier, wasHeld, -⟩ := Option.map_eq_some_iff.mp isHeld
      exact ⟨otherBrain, earlier, wasHeld, rfl⟩
    · rw [if_neg isPair] at isHeld
      exact ⟨otherBrain, other, isHeld, rfl⟩
  · rintro ⟨otherBrain, other, isHeld, rfl⟩
    by_cases isPair : otherNode = nodeId ∧ otherBrain = brainId
    · refine ⟨otherBrain, update.apply now other, ?_, rfl⟩
      rw [if_pos isPair, isHeld, Option.map_some]
    · exact ⟨otherBrain, other, (if_neg isPair).trans isHeld, rfl⟩

theorem Represents.updateRemoteBrain (represents : registry.Represents brains)
    (sound : registry.Sound) (brainId nodeId : String) (update : BrainUpdate) (now : Timestamp) :
    (registry.updateRemoteBrain brainId nodeId update now).1.Sound ∧
      (registry.updateRemoteBrain brainId nodeId update now).1.Represents
        (brains.step (.update brainId nodeId update now)) := by
  unfold DistributedBrainRegistry.updateRemoteBrain
  dsimp only
  cases found : registry.remote.get? (keyOf nodeId brainId) with
  | none =>
    have unknown : brains nodeId brainId = none := by
      rw [← represents.lookup]
      exact found
    rw [pairMap_update_of_none unknown]
    exact ⟨sound, represents⟩
  | some record =>
    have ids := sound.ids_of_getRemoteBrain found
    have plain := sound.plain _ record found
    have named := sound.keyed _ record found
    have held : brains nodeId brainId = some record := by
      rw [← represents.lookup]
      exact found
    have updatedIds : (update.apply now record).nodeId = record.nodeId ∧
        (update.apply now record).brainId = record.brainId := ⟨rfl, rfl⟩
    have soundAfter : Sound
        { registry with
          remote := registry.remote.set (keyOf nodeId brainId) (update.apply now record)
          syncCount := registry.syncCount + 1 } := by
      apply sound.set
      · exact named
      · exact plain
    rw [ids.1, ids.2] at plain
    refine ⟨soundAfter, .of_lookup soundAfter ?_ ?_⟩
    · intro otherNode otherBrain
      unfold getRemoteBrain
      rw [get?_set, pairMap_update]
      simp only [keyOf_eq_iff plain.1 plain.2]
      by_cases isPair : otherNode = nodeId ∧ otherBrain = brainId
      · rw [if_pos isPair, if_pos isPair, isPair.1, isPair.2, held, Option.map_some]
      · rw [if_neg isPair, if_neg isPair]
        exact represents.lookup otherNode otherBrain
    · intro otherNode key
      rw [exists_update_iff]
      exact represents.index otherNode key

/-! ## Runs -/

def stepBoth (both : DistributedBrainRegistry × PairMap) (action : Action) :
    DistributedBrainRegistry × PairMap :=
  (step both.1 action, both.2.step action)

def AddsPlain (_ : DistributedBrainRegistry × PairMap) : Action → Prop
  | .add record => Plain record.nodeId ∧ Plain record.brainId
  | _ => True

section

variable (action : Action) (sound : both.1.Sound) (represents : both.1.Represents both.2)
include sound represents

theorem sound_stepBoth (adds : AddsPlain both action) : (stepBoth both action).1.Sound := by
  cases action with
  | add record => exact sound.addRemoteBrain adds.1 adds.2
  | remove brainId nodeId => exact (represents.removeRemoteBrain sound brainId nodeId).1
  | removeAll order nodeId => exact sound.removeAllForNode order nodeId
  | update brainId nodeId update now =>
    exact (represents.updateRemoteBrain sound brainId nodeId update now).1

/-- One step: the registry stays the map exactly if a brain that is added has plain ids. -/
theorem represents_stepBoth_iff :
    (stepBoth both action).1.Represents (stepBoth both action).2 ↔ AddsPlain both action := by
  cases action with
  | add record =>
    constructor
    · intro still
      by_contra ambiguous
      exact not_represents_addRemoteBrain represents sound ambiguous still
    · exact fun adds => represents.addRemoteBrain sound adds.1 adds.2
  | remove brainId nodeId =>
    exact iff_of_true (represents.removeRemoteBrain sound brainId nodeId).2 trivial
  | removeAll order nodeId =>
    exact iff_of_true (represents.removeAllForNode sound order nodeId) trivial
  | update brainId nodeId update now =>
    exact iff_of_true (represents.updateRemoteBrain sound brainId nodeId update now).2 trivial

end

def empty : DistributedBrainRegistry × PairMap :=
  ({}, fun _ _ => none)

/-- In every state of a run the registry is the map by pairs, exactly if all brains that are
added have plain ids. -/
theorem registry_represents_iff (actions : List Action) :
    Always stepBoth (fun both => both.1.Represents both.2) empty actions ↔
      Along stepBoth AddsPlain empty actions := by
  have sound : empty.1.Sound :=
    ⟨fun _ _ found => (by cases found), fun _ _ found => (by cases found)⟩
  have represents : empty.1.Represents empty.2 := by
    apply Represents.of_lookup sound
    · exact fun _ _ => rfl
    · intro nodeId key
      unfold indexed empty
      simp
  apply always_iff_along fun both : DistributedBrainRegistry × PairMap => both.1.Sound
  · exact sound_stepBoth
  · exact represents_stepBoth_iff
  · exact sound
  · exact represents

/-- Two brains whose keys are one, of two nodes. -/
theorem brains_collide :
    let first : RemoteBrainRecord := ⟨"b:c", "a", "", "", "", [], 100, 0, 1, "1.0.0", 0⟩
    let second : RemoteBrainRecord := ⟨"c", "a:b", "", "", "", [], 100, 0, 1, "1.0.0", 0⟩
    let registry := run step {} [.add first, .add second]
    registry.getRemoteBrain "b:c" "a" = some second ∧ registry.listRemoteBrains "a" = [] ∧
      registry.indexed "a" = {"a:b:c"} ∧
      ¬ registry.Represents (run .step empty.2 [.add first, .add second]) := by
  intro first second registry
  have found : registry.getRemoteBrain "b:c" "a" = some second := by decide +kernel
  refine ⟨found, by decide +kernel, by decide +kernel, fun represents => ?_⟩
  have same := represents.lookup "a" "b:c"
  have other : run .step empty.2 [.add first, .add second] "a" "b:c" = some first := by
    decide +kernel
  revert same
  decide +kernel

end DistributedBrainRegistry

end AgenticOS.Cluster
