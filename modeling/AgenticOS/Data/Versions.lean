import AgenticOS.Data.Dict
import AgenticOS.Transition.Run

/-!
# Versioned definitions

A definition consists of nodes and edges, both with ids, under a version number. An update
may supply either list. If the ids of a supplied list differ from those at hand, the update
gives a new version with what was supplied, and otherwise the same version with what was
there: the lists themselves are not compared.

A shelf holds the current definition under each key, and beside it an archive of earlier
versions, which no operation adds to. The ledger records what a keeper of definitions owes:
what was supplied last, and every version that was ever current. The shelf pays this debt
exactly as long as each update supplies what it finds.
-/

namespace AgenticOS.Versions

open Transition List

structure Content (ν ε : Type) where
  nodes : List ν
  edges : List ε

/-- What an update supplies of them. -/
structure Supply (ν ε : Type) where
  nodes : Option (List ν)
  edges : Option (List ε)

variable {ν ε : Type}

/-- What the definition should consist of behind the update. -/
def Supply.onto (supply : Supply ν ε) (content : Content ν ε) : Content ν ε where
  nodes := supply.nodes.getD content.nodes
  edges := supply.edges.getD content.edges

/-- Every supplied list is the one at hand. -/
def Supply.Repeats (supply : Supply ν ε) (content : Content ν ε) : Prop :=
  (∀ nodes, supply.nodes = some nodes → nodes = content.nodes) ∧
    ∀ edges, supply.edges = some edges → edges = content.edges

theorem Supply.repeats_iff {supply : Supply ν ε} {content : Content ν ε} :
    supply.Repeats content ↔ supply.onto content = content := by
  rcases supply with ⟨nodes, edges⟩
  rcases content with ⟨presentNodes, presentEdges⟩
  cases nodes <;> cases edges <;> simp [Repeats, onto]

def differs {α : Type} (id : α → String) (supplied : Option (List α)) (present : List α) : Bool :=
  match supplied with
  | none => false
  | some items => items.map id ≠ present.map id

theorem differs_self {α : Type} {id : α → String} {supplied : Option (List α)}
    {present : List α} (same : ∀ items, supplied = some items → items = present) :
    differs id supplied present = false := by
  cases supplied with
  | none => rfl
  | some items => simp [differs, same items rfl]

structure Kind (δ υ ρ ν ε : Type) where
  content : δ → Content ν ε
  version : δ → Nat
  nodeId : ν → String
  edgeId : ε → String
  supply : υ → Supply ν ε
  update : δ → υ → δ
  recordVersion : ρ → Nat
  ofRecord : ρ → δ
  update_changed : ∀ definition data,
    (differs nodeId (supply data).nodes (content definition).nodes ||
      differs edgeId (supply data).edges (content definition).edges) = true →
    content (update definition data) = (supply data).onto (content definition) ∧
      version (update definition data) = version definition + 1
  update_unchanged : ∀ definition data,
    (differs nodeId (supply data).nodes (content definition).nodes ||
      differs edgeId (supply data).edges (content definition).edges) = false →
    content (update definition data) = content definition ∧
      version (update definition data) = version definition

/-- The current definitions and the archive of their versions. -/
structure Shelf (κ δ ρ : Type) where
  current : Dict κ δ
  archive : Dict κ (List ρ)

namespace Shelf

variable {κ δ υ ρ : Type} [DecidableEq κ]

/-- A shelf without definitions. -/
def empty : Shelf κ δ ρ where
  current := .empty
  archive := .empty

def archived (kind : Kind δ υ ρ ν ε) (shelf : Shelf κ δ ρ) (key : κ) (version : Nat) : Option δ :=
  (((shelf.archive.get? key).getD []).find? fun record =>
    kind.recordVersion record = version).map kind.ofRecord

def getVersion (kind : Kind δ υ ρ ν ε) (shelf : Shelf κ δ ρ) (key : κ) (version : Nat) : Option δ :=
  match shelf.current.get? key with
  | none => shelf.archived kind key version
  | some definition =>
    if kind.version definition = version then some definition
    else shelf.archived kind key version

inductive Action (κ δ υ : Type) where
  | create (key : κ) (definition : δ)
  | update (key : κ) (data : υ)
  | delete (key : κ)

def step (kind : Kind δ υ ρ ν ε) (shelf : Shelf κ δ ρ) : Action κ δ υ → Shelf κ δ ρ
  | .create key definition => { shelf with current := shelf.current.set key definition }
  | .update key data =>
    match shelf.current.get? key with
    | none => shelf
    | some definition =>
      { shelf with current := shelf.current.set key (kind.update definition data) }
  | .delete key =>
    match shelf.current.get? key with
    | none => shelf
    | some _ => { current := shelf.current.erase key, archive := shelf.archive.erase key }

def Unarchived (shelf : Shelf κ δ ρ) : Prop :=
  ∀ key records, shelf.archive.get? key = some records → records = []

theorem unarchived_empty : (empty : Shelf κ δ ρ).Unarchived := by
  intro key records found
  cases found

variable {kind : Kind δ υ ρ ν ε} {shelf : Shelf κ δ ρ} {key : κ}

theorem Unarchived.step (unarchived : shelf.Unarchived) (action : Action κ δ υ) :
    (shelf.step kind action).Unarchived := by
  cases action with
  | create key definition => exact unarchived
  | update key data =>
    simp only [Shelf.step]
    split
    · exact unarchived
    · exact unarchived
  | delete key =>
    simp only [Shelf.step]
    split
    · exact unarchived
    · intro other records found
      exact unarchived other records (Dict.get?_of_get?_erase found)

theorem Unarchived.archived_eq (unarchived : shelf.Unarchived) (version : Nat) :
    shelf.archived kind key version = none := by
  rw [archived]
  cases found : shelf.archive.get? key with
  | none => rfl
  | some records =>
    rw [unarchived key records found]
    rfl

theorem Unarchived.getVersion_eq (unarchived : shelf.Unarchived) {definition : δ}
    (current : shelf.current.get? key = some definition) (version : Nat) :
    shelf.getVersion kind key version =
      if kind.version definition = version then some definition else none := by
  rw [getVersion, current, unarchived.archived_eq]

end Shelf

/-- What was supplied last for a definition, and all versions that were ever current. -/
structure Ledger (ν ε : Type) where
  content : Content ν ε
  versions : List (Nat × Content ν ε)

/-- A shelf under observation. -/
structure Audit (κ δ ρ ν ε : Type) where
  shelf : Shelf κ δ ρ
  ledger : Ledger ν ε

namespace Audit

variable {κ δ υ ρ : Type} [DecidableEq κ]

def begin (kind : Kind δ υ ρ ν ε) (shelf : Shelf κ δ ρ) (definition : δ) : Audit κ δ ρ ν ε where
  shelf := shelf
  ledger :=
    { content := kind.content definition
      versions := [(kind.version definition, kind.content definition)] }

def step (kind : Kind δ υ ρ ν ε) (watched : κ) (audit : Audit κ δ ρ ν ε) (update : κ × υ) :
    Audit κ δ ρ ν ε :=
  match audit.shelf.current.get? update.1 with
  | none => audit
  | some definition =>
    { shelf := audit.shelf.step kind (.update update.1 update.2)
      ledger :=
        if update.1 = watched then
          { content := (kind.supply update.2).onto audit.ledger.content
            versions := audit.ledger.versions ++
              [(kind.version (kind.update definition update.2),
                kind.content (kind.update definition update.2))] }
        else audit.ledger }

/-- The current definition is what was supplied last, and every version that was ever current
can be had as it was. -/
def Kept (kind : Kind δ υ ρ ν ε) (watched : κ) (audit : Audit κ δ ρ ν ε) : Prop :=
  (∃ definition, audit.shelf.current.get? watched = some definition ∧
    kind.content definition = audit.ledger.content) ∧
    ∀ entry ∈ audit.ledger.versions,
      (audit.shelf.getVersion kind watched entry.1).map kind.content = some entry.2

/-- The update is of another definition, or supplies what it finds. -/
def Repeats (kind : Kind δ υ ρ ν ε) (watched : κ) (audit : Audit κ δ ρ ν ε) (update : κ × υ) :
    Prop :=
  update.1 = watched → ∀ definition, audit.shelf.current.get? watched = some definition →
    (kind.supply update.2).Repeats (kind.content definition)

structure Sound (kind : Kind δ υ ρ ν ε) (watched : κ) (audit : Audit κ δ ρ ν ε) : Prop where
  unarchived : audit.shelf.Unarchived
  noted : ∀ definition, audit.shelf.current.get? watched = some definition →
    (kind.version definition, kind.content definition) ∈ audit.ledger.versions

variable {kind : Kind δ υ ρ ν ε} {watched : κ} {audit : Audit κ δ ρ ν ε} {update : κ × υ}

theorem step_of_none (absent : audit.shelf.current.get? update.1 = none) :
    audit.step kind watched update = audit := by
  simp only [step, absent]

variable {definition : δ}

section

variable {shelf : Shelf κ δ ρ} (unarchived : shelf.Unarchived)
  (current : shelf.current.get? watched = some definition)
include unarchived current

theorem Sound.begin : Sound kind watched (begin kind shelf definition) where
  unarchived := unarchived
  noted other found := by
    change shelf.current.get? watched = some other at found
    rw [current] at found
    cases found
    exact mem_singleton.mpr rfl

theorem kept_begin : Kept kind watched (begin kind shelf definition) := by
  refine ⟨⟨definition, current, rfl⟩, ?_⟩
  intro entry member
  rw [mem_singleton.mp member, begin, unarchived.getVersion_eq current, if_pos rfl]
  rfl

end

theorem current_step (kind : Kind δ υ ρ ν ε) (watched : κ)
    (found : audit.shelf.current.get? update.1 = some definition) :
    (audit.step kind watched update).shelf.current.get? watched =
      if update.1 = watched then some (kind.update definition update.2)
      else audit.shelf.current.get? watched := by
  simp only [step, found, Shelf.step, Dict.get?_set, eq_comm]

section

variable (sound : Sound kind watched audit)
include sound

theorem Sound.step (update : κ × υ) : Sound kind watched (audit.step kind watched update) := by
  cases found : audit.shelf.current.get? update.1 with
  | none =>
    rw [step_of_none found]
    exact sound
  | some definition =>
    constructor
    · simp only [Audit.step, found]
      exact sound.unarchived.step _
    · intro other current
      rw [current_step kind watched found] at current
      simp only [Audit.step, found]
      by_cases same : update.1 = watched
      · rw [if_pos same] at current ⊢
        cases current
        exact mem_append_right _ (mem_singleton.mpr rfl)
      · rw [if_neg same] at current ⊢
        exact sound.noted other current

theorem Sound.kept_iff (current : audit.shelf.current.get? watched = some definition) :
    Kept kind watched audit ↔ kind.content definition = audit.ledger.content ∧
      ∀ entry ∈ audit.ledger.versions,
        kind.version definition = entry.1 ∧ kind.content definition = entry.2 := by
  rw [Kept, current]
  simp only [sound.unarchived.getVersion_eq current, Option.some.injEq, exists_eq_left']
  refine and_congr_right fun _ => forall₂_congr fun entry _ => ?_
  by_cases same : kind.version definition = entry.1
  · simp [same]
  · simp [same]

/-- The watched definition stays as owed exactly if it is supplied as it is. -/
theorem kept_update_iff (kept : Kept kind watched audit)
    (current : audit.shelf.current.get? watched = some definition) (same : update.1 = watched) :
    Kept kind watched (audit.step kind watched update) ↔
      (kind.supply update.2).Repeats (kind.content definition) := by
  have found : audit.shelf.current.get? update.1 = some definition := same ▸ current
  have after := current_step kind watched found
  rw [if_pos same] at after
  have owed := (sound.kept_iff current).mp kept
  rw [(sound.step update).kept_iff after, Supply.repeats_iff]
  simp only [Audit.step, found, if_pos same]
  cases changes : differs kind.nodeId (kind.supply update.2).nodes (kind.content definition).nodes
      || differs kind.edgeId (kind.supply update.2).edges (kind.content definition).edges with
  | true =>
    have changed := kind.update_changed definition update.2 changes
    constructor
    · rintro ⟨-, versions⟩
      have lost := (versions _ (mem_append_left _ (sound.noted definition current))).1
      rw [changed.2] at lost
      exact absurd lost (Nat.succ_ne_self _)
    · intro repeats
      rw [← Supply.repeats_iff] at repeats
      rw [differs_self repeats.1, differs_self repeats.2] at changes
      cases changes
  | false =>
    have unchanged := kind.update_unchanged definition update.2 changes
    rw [unchanged.1, unchanged.2, ← owed.1]
    constructor
    · rintro ⟨supplied, -⟩
      exact supplied.symm
    · intro repeats
      refine ⟨repeats.symm, ?_⟩
      intro entry member
      rcases mem_append.mp member with earlier | isLast
      · exact owed.2 entry earlier
      · rw [mem_singleton.mp isLast]
        exact ⟨rfl, rfl⟩

theorem kept_step_iff (kept : Kept kind watched audit) :
    Kept kind watched (audit.step kind watched update) ↔ Repeats kind watched audit update := by
  rcases kept.1 with ⟨definition, current, -⟩
  by_cases same : update.1 = watched
  · rw [kept_update_iff sound kept current same]
    simp [Repeats, same, current]
  · have repeats : Repeats kind watched audit update := fun impossible => absurd impossible same
    refine iff_of_true ?_ repeats
    cases found : audit.shelf.current.get? update.1 with
    | none =>
      rw [step_of_none found]
      exact kept
    | some other =>
      have after := current_step kind watched found
      rw [if_neg same, current] at after
      rw [(sound.step update).kept_iff after]
      simp only [Audit.step, found, if_neg same]
      exact (sound.kept_iff current).mp kept

end

/-- Behind any run of the shelf, and for any definition in it: it is kept as owed through all
later updates exactly if each of them supplies what it finds. -/
theorem always_kept_iff (earlier : List (Shelf.Action κ δ υ)) (updates : List (κ × υ))
    (current : (run (Shelf.step kind) (.empty : Shelf κ δ ρ) earlier).current.get? watched =
      some definition) : Always (step kind watched) (Kept kind watched)
        (begin kind (run (Shelf.step kind) .empty earlier) definition) updates ↔
      Along (step kind watched) (Repeats kind watched)
        (begin kind (run (Shelf.step kind) .empty earlier) definition) updates := by
  have unarchived : (run (.step kind) (.empty : Shelf κ δ ρ) earlier).Unarchived :=
    run_invariant Shelf.Unarchived (fun _ action holds => holds.step action)
      Shelf.unarchived_empty earlier
  apply always_iff_along (Sound kind watched)
  · intro audit update sound _ _
    exact sound.step update
  · intro audit update sound kept
    exact kept_step_iff sound kept
  · exact .begin unarchived current
  · exact kept_begin unarchived current

end Audit

end AgenticOS.Versions
