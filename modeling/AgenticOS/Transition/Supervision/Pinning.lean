import AgenticOS.Transition.Supervision

/-!
# Executions that stay with their version

Definitions have version numbers and nodes; a change keeps both, or raises the number. An
execution records a version when it is created. Its workers keep to that version as long as
none is started while another one is current.
-/

namespace AgenticOS.Transition

open List

namespace Supervised

variable {σ ρ δ κ υ ν ω : Type}

structure Versioning (δ ρ ν ω : Type) where
  version : δ → ω
  nodes : δ → List ν
  executing : ρ → Option ν

/-- What the rule asks of an engine. `follows` is what a worker knows about its definition. -/
structure Pinning [Preorder ω] (engine : Engine σ ρ δ κ υ) (versioning : Versioning δ ρ ν ω)
    (follows : δ → ρ → Prop) : Prop where
  create : ∀ definition store, follows definition (engine.create store)
  proceed : ∀ definition error store worker, follows definition worker →
    follows definition (engine.proceed definition error store worker).2
  interrupt : ∀ definition store worker, follows definition worker →
    follows definition (engine.interrupt store worker).2
  executes : ∀ definition worker node, follows definition worker →
    versioning.executing worker = some node → node ∈ versioning.nodes definition
  redefine : ∀ change store before after, engine.redefine change store before = some after →
    versioning.version after = versioning.version before ∧
        versioning.nodes after = versioning.nodes before ∨
      versioning.version before < versioning.version after

/-- An execution, and all definitions that were current so far. -/
structure Chronicle (σ ρ δ : Type) where
  execution : Supervised σ ρ δ
  history : List δ

namespace Chronicle

/-- Perform an action, and note the definition that is current behind it. -/
def step (engine : Engine σ ρ δ κ υ) (chronicle : Chronicle σ ρ δ) (action : Action κ υ) :
    Chronicle σ ρ δ where
  execution := chronicle.execution.step engine action
  history := chronicle.history ++ (chronicle.execution.step engine action).definition.toList

theorem run_history {engine : Engine σ ρ δ κ υ} {chronicle : Chronicle σ ρ δ} {definition : δ}
    (noted : definition ∈ chronicle.history) (actions : List (Action κ υ)) :
    definition ∈ (run (step engine) chronicle actions).history := by
  apply run_invariant fun chronicle : Chronicle σ ρ δ => definition ∈ chronicle.history
  · exact fun _ _ earlier => mem_append_left _ earlier
  · exact noted

def RunsRecorded (versioning : Versioning δ ρ ν ω) (recorded : ω)
    (chronicle : Chronicle σ ρ δ) : Prop :=
  ∀ supervisee ∈ chronicle.execution.workers, ∀ node,
    versioning.executing supervisee.worker = some node →
      (∃ definition ∈ chronicle.history, versioning.version definition = recorded) ∧
        ∀ definition ∈ chronicle.history, versioning.version definition = recorded →
          node ∈ versioning.nodes definition

def StartsRecorded (engine : Engine σ ρ δ κ υ) (versioning : Versioning δ ρ ν ω) (recorded : ω)
    (chronicle : Chronicle σ ρ δ) : Action κ υ → Prop
  | .control operation => engine.starts operation = true →
      (engine.control operation chronicle.execution.store).isSome = true →
        ∀ definition, chronicle.execution.definition = some definition →
          versioning.version definition = recorded
  | .next _ _ | .cancel | .wake _ | .publish _ _ | .redefine _ => True

def Unambiguous (versioning : Versioning δ ρ ν ω) (history : List δ) : Prop :=
  ∀ definition ∈ history, ∀ other ∈ history,
    versioning.version definition = versioning.version other →
      versioning.nodes definition = versioning.nodes other

structure Latest [Preorder ω] (versioning : Versioning δ ρ ν ω) (history : List δ)
    (current : δ) : Prop where
  noted : current ∈ history
  last : ∀ definition ∈ history, versioning.version definition ≤ versioning.version current

variable [Preorder ω] {engine : Engine σ ρ δ κ υ} {versioning : Versioning δ ρ ν ω}
  {follows : δ → ρ → Prop}
  {chronicle : Chronicle σ ρ δ} {recorded : ω} {past : List δ} {current : δ}

theorem Latest.append (latest : Latest versioning past current)
    (unambiguous : Unambiguous versioning past) {after : δ}
    (changed : versioning.version after = versioning.version current ∧
        versioning.nodes after = versioning.nodes current ∨
      versioning.version current < versioning.version after) :
    Latest versioning (past ++ [after]) after ∧ Unambiguous versioning (past ++ [after]) := by
  have notBefore : versioning.version current ≤ versioning.version after := by
    rcases changed with ⟨same, -⟩ | raised
    · exact same.ge
    · exact raised.le
  have agrees : ∀ definition ∈ past,
      versioning.version definition = versioning.version after →
        versioning.nodes definition = versioning.nodes after := by
    intro definition member same
    rcases changed with ⟨version, nodes⟩ | raised
    · rw [nodes]
      exact unambiguous definition member current latest.noted (same.trans version)
    · exact absurd (same ▸ latest.last definition member) (not_le_of_gt raised)
  constructor
  · constructor
    · exact mem_append_right _ (mem_singleton.mpr rfl)
    · intro definition member
      rcases mem_append.mp member with earlier | isLast
      · exact (latest.last definition earlier).trans notBefore
      · rw [mem_singleton.mp isLast]
  · intro definition member other otherMember same
    rcases mem_append.mp member with earlier | isLast
    · rcases mem_append.mp otherMember with otherEarlier | otherLast
      · exact unambiguous definition earlier other otherEarlier same
      · rw [mem_singleton.mp otherLast] at same ⊢
        exact agrees definition earlier same
    · rw [mem_singleton.mp isLast] at same ⊢
      rcases mem_append.mp otherMember with otherEarlier | otherLast
      · exact (agrees other otherEarlier same.symm).symm
      · rw [mem_singleton.mp otherLast]

structure Faithful (versioning : Versioning δ ρ ν ω) (follows : δ → ρ → Prop) (recorded : ω)
    (chronicle : Chronicle σ ρ δ) : Prop where
  workers : ∀ supervisee ∈ chronicle.execution.workers,
    follows supervisee.definition supervisee.worker ∧
      supervisee.definition ∈ chronicle.history ∧
        versioning.version supervisee.definition = recorded
  unambiguous : Unambiguous versioning chronicle.history
  latest : ∀ current, chronicle.execution.definition = some current →
    Latest versioning chronicle.history current

section

variable (pinning : Pinning engine versioning follows)
  (faithful : Faithful versioning follows recorded chronicle)
include pinning faithful

theorem Faithful.runsRecorded : RunsRecorded versioning recorded chronicle := by
  intro supervisee member node executes
  rcases faithful.workers supervisee member with ⟨follows, noted, version⟩
  refine ⟨⟨supervisee.definition, noted, version⟩, ?_⟩
  intro definition definitionMember same
  rw [faithful.unambiguous definition definitionMember supervisee.definition noted
    (same.trans version.symm)]
  exact pinning.executes _ _ node follows executes

theorem Faithful.step_history (action : Action κ υ) :
    Unambiguous versioning (chronicle.step engine action).history ∧
      ∀ current, (chronicle.step engine action).execution.definition = some current →
        Latest versioning (chronicle.step engine action).history current := by
  simp only [step]
  cases present : (chronicle.execution.step engine action).definition with
  | none =>
    rw [Option.toList_none, append_nil]
    exact ⟨faithful.unambiguous, fun current impossible => by cases impossible⟩
  | some after =>
    have latest : Latest versioning (chronicle.history ++ [after]) after ∧
        Unambiguous versioning (chronicle.history ++ [after]) := by
      rcases step_definition engine chronicle.execution action with same | ⟨change, -, changed⟩
      · rw [present] at same
        exact (faithful.latest after same.symm).append faithful.unambiguous (.inl ⟨rfl, rfl⟩)
      · rw [present] at changed
        rcases Option.bind_eq_some_iff.mp changed.symm with ⟨before, current, redefined⟩
        exact (faithful.latest before current).append faithful.unambiguous
          (pinning.redefine change _ before after redefined)
    refine ⟨latest.2, ?_⟩
    rintro current ⟨⟩
    exact latest.1

theorem Faithful.step (action : Action κ υ)
    (allowed : StartsRecorded engine versioning recorded chronicle action) :
    Faithful versioning follows recorded (chronicle.step engine action) := by
  have noted := faithful.step_history pinning action
  constructor
  · have workers : ∀ supervisee ∈ (chronicle.execution.step engine action).workers,
        follows supervisee.definition supervisee.worker ∧
          supervisee.definition ∈ chronicle.history ∧
            versioning.version supervisee.definition = recorded := by
      apply workers_step fun definition worker => follows definition worker ∧
        definition ∈ chronicle.history ∧ versioning.version definition = recorded
      · rintro definition error store worker ⟨before, known⟩
        exact ⟨pinning.proceed definition error store worker before, known⟩
      · rintro definition store worker ⟨before, known⟩
        exact ⟨pinning.interrupt definition store worker before, known⟩
      · exact faithful.workers
      · rintro operation store definition rfl accepted starts current
        have isSome : (engine.control operation chronicle.execution.store).isSome = true := by
          rw [accepted, Option.isSome_some]
        exact ⟨pinning.create definition store, (faithful.latest definition current).noted,
          allowed starts isSome definition current⟩
    intro supervisee member
    rcases workers supervisee member with ⟨after, known, version⟩
    exact ⟨after, mem_append_left _ known, version⟩
  · exact noted.1
  · exact noted.2

end

/-- The definitions so far, and the one that is current. -/
structure Revisions (δ : Type) where
  history : List δ
  current : δ

namespace Revisions

def first (definition : δ) : Revisions δ where
  history := [definition]
  current := definition

def revise (update : δ → υ → δ) (revisions : Revisions δ) (change : υ) : Revisions δ where
  history := revisions.history ++ [update revisions.current change]
  current := update revisions.current change

def execute (engine : Engine σ ρ δ κ υ) (revisions : Revisions δ) (store : σ) :
    Chronicle σ ρ δ where
  execution := start engine store revisions.current
  history := revisions.history

/-- Revisions that keep the version and the nodes, or raise the version, are unambiguous, and
the current one is the latest. -/
theorem latest_run {update : δ → υ → δ} (revised : ∀ before change,
      versioning.version (update before change) = versioning.version before ∧
          versioning.nodes (update before change) = versioning.nodes before ∨
        versioning.version before < versioning.version (update before change))
    (definition : δ) (changes : List υ) :
    Latest versioning (run (revise update) (first definition) changes).history
        (run (revise update) (first definition) changes).current ∧
      Unambiguous versioning (run (revise update) (first definition) changes).history := by
  apply run_invariant fun revisions : Revisions δ =>
    Latest versioning revisions.history revisions.current ∧ Unambiguous versioning revisions.history
  · rintro revisions change ⟨latest, unambiguous⟩
    exact latest.append unambiguous (revised revisions.current change)
  · constructor
    · constructor
      · exact mem_singleton.mpr rfl
      · intro other member
        rw [mem_singleton.mp member]
        rfl
    · intro definition member other otherMember _
      rw [mem_singleton.mp member, mem_singleton.mp otherMember]

end Revisions

/-- The rule: a run that starts workers of the recorded version only executes only its nodes. -/
theorem always_runsRecorded (pinning : Pinning engine versioning follows) (store : σ)
    {revisions : Revisions δ} (latest : Latest versioning revisions.history revisions.current)
    (unambiguous : Unambiguous versioning revisions.history)
    (current : versioning.version revisions.current = recorded) {actions : List (Action κ υ)}
    (allowed : Along (step engine) (StartsRecorded engine versioning recorded)
      (revisions.execute engine store) actions) :
    Always (step engine) (RunsRecorded versioning recorded)
      (revisions.execute engine store) actions := by
  have preserved : ∀ chronicle action, Faithful versioning follows recorded chronicle →
      StartsRecorded engine versioning recorded chronicle action →
        Faithful versioning follows recorded (step engine chronicle action) :=
    fun _ action faithful here => faithful.step pinning action here
  have initially : Faithful versioning follows recorded (revisions.execute engine store) := by
    constructor
    · intro supervisee member
      rw [mem_singleton.mp member]
      exact ⟨pinning.create revisions.current store, latest.noted, current⟩
    · exact unambiguous
    · rintro definition ⟨⟩
      exact latest
  have always := allowed.always preserved initially
  intro earlier isPrefix
  exact (always earlier isPrefix).runsRecorded pinning

end Chronicle

end Supervised

end AgenticOS.Transition
