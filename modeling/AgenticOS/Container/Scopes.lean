import AgenticOS.Container.Frames
import Mathlib.Data.String.Basic

/-!
# Scoped services

An instance of a scoped service is kept where the service is registered. Two resolutions of one
scoped service return the same instance exactly if they find its registration in the same
container, whatever scopes they come from.
-/

namespace AgenticOS.Container

open Transition

variable {order : SetOrder String} {tree : Tree}

theorem resolve_inner {container : Nat} {interface name : String}
    {result : Except ContainerError Nat} {after : Tree}
    (resolves : tree.resolve order container interface name = some (result, after)) :
    ∃ last : Resolving, last.tree = after ∧
      resolveIn order (tree.count container).1 (tree.registrations.size + 1) container
        (tree.resolveKey container interface name) { tree := (tree.count container).2 } =
          some (result, last) := by
  obtain ⟨⟨outcome, last⟩, inner, same⟩ := Option.map_eq_some_iff.mp resolves
  obtain ⟨rfl, rfl⟩ := Prod.mk.inj same
  exact ⟨last, rfl, inner⟩

theorem step_cases (call : Tree.Call) : ((tree.step order call).singletons = tree.singletons ∧
      (tree.step order call).scopedInstances = tree.scopedInstances ∧
      (tree.step order call).built = tree.built) ∨
    ∃ container interface name result, call = .resolve container interface name ∧
      tree.resolve order container interface name = some (result, tree.step order call) := by
  cases call with
  | register container registration =>
    left
    simp only [Tree.step, Tree.register]
    split
    next => exact ⟨rfl, rfl, rfl⟩
    next => split <;> exact ⟨rfl, rfl, rfl⟩
  | addAlias container aliasKey target =>
    left
    simp only [Tree.step, Tree.addAlias]
    split <;> exact ⟨rfl, rfl, rfl⟩
  | createScope parent => exact .inl ⟨rfl, rfl, rfl⟩
  | resolve container interface name =>
    right
    obtain ⟨⟨result, after⟩, resolves⟩ := Option.isSome_iff_exists.mp
      (@isSome_resolve order container tree interface name)
    refine ⟨container, interface, name, result, rfl, ?_⟩
    simp only [Tree.step, resolves]

theorem Consistent.step (consistent : Consistent tree) (call : Tree.Call) :
    Consistent (tree.step order call) := by
  rcases step_cases call with ⟨singletons, scopes, built⟩ | ⟨_, _, _, _, -, resolves⟩
  · constructor
    · rw [singletons, built]
      exact consistent.singletons
    · rw [scopes, built]
      exact consistent.scopes
  · obtain ⟨last, same, inner⟩ := resolve_inner resolves
    rw [← same]
    exact resolveIn_invariant kept_consistent ⟨consistent.singletons, consistent.scopes⟩ inner

theorem scopedInstances_step (call : Tree.Call) {place : Place} {made : Nat}
    (kept : tree.scopedInstances.get? place = some made) :
    (tree.step order call).scopedInstances.get? place = some made := by
  rcases step_cases call with ⟨-, scopes, -⟩ | ⟨_, _, _, _, -, resolves⟩
  · rw [scopes]
    exact kept
  · obtain ⟨last, same, inner⟩ := resolve_inner resolves
    rw [← same]
    exact (resolveIn_frame inner).scopedKept place made kept

theorem scopedInstances_construct {state : Resolving} {place : Place}
    {registration : Registration} {resolveId made : Nat}
    (perScope : registration.lifetime = .scoped)
    (returned : (construct state place registration resolveId).1 = .ok made) :
    (construct state place registration resolveId).2.tree.scopedInstances.get? place =
      some made := by
  unfold construct at returned ⊢
  split at returned
  next text raised => cases returned
  next =>
    simp only [perScope]
    cases returned
    exact Dict.get?_set_self _ place _

theorem scopedInstances_resolve {container owner made : Nat} {interface name : String}
    {after : Tree} {registration : Registration}
    (owned : tree.owner container (tree.resolveKey container interface name) = some owner)
    (registered : tree.registrations.get?
      (owner, tree.resolveKey container interface name) = some registration)
    (perScope : registration.lifetime = .scoped)
    (resolves : tree.resolve order container interface name = some (.ok made, after)) :
    after.scopedInstances.get? (owner, tree.resolveKey container interface name) = some made := by
  obtain ⟨last, rfl, inner⟩ := resolve_inner resolves
  have unique : ∀ {other service}, (tree.count container).2.owner container
      (tree.resolveKey container interface name) = some other →
    (tree.count container).2.registrations.get?
      (other, tree.resolveKey container interface name) = some service →
      other = owner ∧ service = registration := by
    intro other service otherOwned otherRegistered
    cases owned.symm.trans otherOwned
    exact ⟨rfl, Option.some.inj (otherRegistered.symm.trans registered)⟩
  have turn := resolveIn_turn inner
  generalize returned : Except.ok made = result at turn
  cases turn with
  | found other kept service otherOwned otherRegistered cached =>
    cases returned
    obtain ⟨rfl, rfl⟩ := unique otherOwned otherRegistered
    rw [perScope] at cached
    exact cached
  | constructed other service middle opens resolved =>
    obtain ⟨rfl, rfl⟩ := unique opens.owned opens.registered
    exact scopedInstances_construct perScope returned.symm
  | _ => cases returned

/-- In the run, a resolution from a container returns an instance of a scoped service, whose
registration it finds in its owner. -/
def Obtains (order : SetOrder String) (calls : List Tree.Call) (container : Nat) (key : String)
    (owner made : Nat) : Prop :=
  ∃ done interface name registration,
    done ++ [.resolve container interface name] <+: calls ∧
    (run (Tree.step order) {} done).resolveKey container interface name = key ∧
    (run (Tree.step order) {} done).owner container key = some owner ∧
    (run (Tree.step order) {} done).registrations.get? (owner, key) = some registration ∧
    registration.lifetime = .scoped ∧
    ((run (Tree.step order) {} done).resolve order container interface name).map Prod.fst =
      some (.ok made)

/-- Within a scope, a scoped service is one instance, and in different scopes it is different
ones. -/
def ScopedLifetime (order : SetOrder String) (calls : List Tree.Call) : Prop :=
  ∀ key first firstOwner firstMade second secondOwner secondMade,
    Obtains order calls first key firstOwner firstMade →
      Obtains order calls second key secondOwner secondMade →
        (first = second ↔ firstMade = secondMade)

theorem consistent_empty : Consistent {} := by
  constructor
  · intro place made found
    cases found
  · intro place made found
    cases found

theorem consistent_run (calls : List Tree.Call) : Consistent (run (Tree.step order) {} calls) :=
  run_invariant Consistent (fun _ call consistent => consistent.step call) consistent_empty calls

theorem Obtains.kept {calls : List Tree.Call} {container owner made : Nat} {key : String}
    (obtains : Obtains order calls container key owner made) :
    (run (Tree.step order) {} calls).scopedInstances.get? (owner, key) = some made := by
  obtain ⟨done, interface, name, registration, ⟨rest, rfl⟩, rfl, owned, registered, perScope,
    returned⟩ := obtains
  obtain ⟨⟨result, after⟩, resolves, same⟩ := Option.map_eq_some_iff.mp returned
  subst same
  rw [run_append, run_append, run_cons, run_nil]
  refine run_invariant (fun tree : Tree => tree.scopedInstances.get? _ = some made)
    (fun _ call kept => scopedInstances_step call kept) ?_ rest
  simp only [Tree.step, resolves]
  exact scopedInstances_resolve owned registered perScope resolves

/-- Two instances of one scoped service are the same exactly if their owners are. -/
theorem Obtains.made_eq_iff {calls : List Tree.Call}
    {first firstOwner firstMade second secondOwner secondMade : Nat} {key : String}
    (one : Obtains order calls first key firstOwner firstMade)
    (other : Obtains order calls second key secondOwner secondMade) :
    firstMade = secondMade ↔ firstOwner = secondOwner := by
  constructor
  · rintro rfl
    have atFirst := (@consistent_run order calls).scopes _ _ one.kept
    have atSecond := (@consistent_run order calls).scopes _ _ other.kept
    exact congrArg Prod.fst (Option.some.inj (atFirst.symm.trans atSecond))
  · rintro rfl
    exact Option.some.inj (one.kept.symm.trans other.kept)

/-- Scoped services live as promised exactly in the runs in which a scoped service is found in
one container when it is resolved from one scope, and in different ones otherwise. -/
theorem scopedLifetime_iff (order : SetOrder String) (calls : List Tree.Call) :
    ScopedLifetime order calls ↔
      ∀ key first firstOwner firstMade second secondOwner secondMade,
        Obtains order calls first key firstOwner firstMade →
          Obtains order calls second key secondOwner secondMade →
            (first = second ↔ firstOwner = secondOwner) := by
  constructor
  · intro lives key first firstOwner firstMade second secondOwner secondMade one other
    exact (lives key _ _ _ _ _ _ one other).trans (one.made_eq_iff other)
  · intro apart key first firstOwner firstMade second secondOwner secondMade one other
    exact (apart key _ _ _ _ _ _ one other).trans (one.made_eq_iff other).symm

def sharedSession : List Tree.Call :=
  [.register 0 { interface := "Session", lifetime := .scoped }, .createScope 0, .createScope 0,
    .resolve 1 "Session" "", .resolve 2 "Session" ""]

theorem sharedSession_not_scoped : ¬ ScopedLifetime (.first "") sharedSession := by
  intro lives
  have obtained : Obtains (.first "") sharedSession 1 "Session" 0 0 :=
    ⟨sharedSession.take 3, "Session", "", { interface := "Session", lifetime := .scoped },
      ⟨sharedSession.drop 4, rfl⟩, by decide, by decide, rfl, rfl, rfl⟩
  have again : Obtains (.first "") sharedSession 2 "Session" 0 0 :=
    ⟨sharedSession.take 4, "Session", "", { interface := "Session", lifetime := .scoped },
      ⟨[], rfl⟩, by decide, by decide, rfl, rfl, rfl⟩
  have same : (1 : Nat) = 2 := (lives _ _ _ _ _ _ _ obtained again).mpr rfl
  cases same

end AgenticOS.Container
