import AgenticOS.Packages.Installing

/-!
# Packages keep to themselves

An installation touches the directory of its version and the pointer of its package only,
and one that raises touches nothing, as long as the names of the installed packages have
directories of their own, versions and paths lead straight down, and the system fails, if at
all, with the first change.

None of this is checked. Two names may have one directory, since the characters that are
replaced all become the same one; versions and paths may lead elsewhere; and the tree that
was there is removed before the new one is written.
-/

namespace AgenticOS.Packages

open FileSystem Transition Ends

variable {β : Type} (env : Environment β)

inductive Operation (β : Type) where
  | pack (request : PackRequest) (files : List (SourceFile β))
  | install (archive : Option (Archive β))
  | upgrade (archive : Option (Archive β))
  | rollback (name : String)

def Operation.program : Operation β → Program β Unit
  | .pack request files => discard (Packages.pack env request files)
  | .install archive => discard (Packages.install env archive)
  | .upgrade archive => discard (Packages.upgrade env archive)
  | .rollback name => Packages.rollback env name

/-- The package in an archive that `verify` accepts. -/
def accepted (archive : Option (Archive β)) : Option (Manifest × Dict String β) :=
  match readArchive env archive with
  | .error _ => none
  | .ok (manifest, files) => if verified env manifest files then some (manifest, files) else none

def Operation.installs : Operation β → Option (Manifest × Dict String β)
  | .install archive | .upgrade archive => accepted env archive
  | .pack _ _ | .rollback _ => none

/-- An operation, and how many changes the system makes for it before one fails. -/
structure Attempt (β : Type) where
  operation : Operation β
  budget : Option Nat := none

def Attempt.outcome (attempt : Attempt β) (store : Store β) :
    EStateM.Result Raised (Store β) Unit :=
  attempt.operation.program env { store with budget := attempt.budget }

def installedNames (rows : List Row) : List String :=
  (rows.filter fun row => row.action = .install).map Row.name

/-- An installation keeps to its version: one that raises leaves the installed trees as they
are, and what changes is in the directory of the version, is the pointer, or is a new
directory on the way. The directories of the other packages stay as they are. -/
structure Isolated (store : Store β) (manifest : Manifest)
    (outcome : EStateM.Result Raised (Store β) Unit) : Prop where
  raised : ∀ raised, ending outcome = .error raised →
    ∀ location, installedDir env <+: location →
      (finalState outcome).fs.lookup location = store.fs.lookup location
  contained : ∀ location, (finalState outcome).fs.lookup location ≠ store.fs.lookup location →
    versionRoot env manifest.name manifest.version <+: location ∨
    location = currentPath env manifest.name ∨
    (location <+: versionRoot env manifest.name manifest.version ∧
      store.fs.lookup location = none ∧
      (finalState outcome).fs.lookup location = some .directory)
  others : ∀ other ∈ installedNames store.journal, other ≠ manifest.name →
    ∀ location, installedRoot env other <+: location →
      (finalState outcome).fs.lookup location = store.fs.lookup location

/-- No two packages share a directory. -/
def Separate (rows : List Row) : Prop :=
  ∀ first ∈ installedNames rows, ∀ second ∈ installedNames rows,
    installedRoot env first = installedRoot env second → first = second

/-- What an installation needs to keep to itself: the package is sound, no other package has
its directory, and no directory is in the place of its pointer. -/
structure Fitting (fs : FileSystem β) (rows : List Row) (manifest : Manifest)
    (files : Dict String β) : Prop where
  sound : Sound env manifest files
  fresh : ∀ other ∈ installedNames rows,
    safeName other = safeName manifest.name → other = manifest.name
  pointer : fs.lookup (currentPath env manifest.name) = some .directory →
    partsOf manifest.version = []

/-- An installation fits if the system makes all changes for a fitting package, or no change
at all. -/
def Fits (store : Store β) (attempt : Attempt β) : Prop :=
  ∀ manifest files, attempt.operation.installs env = some (manifest, files) →
    attempt.budget = some 0 ∨
      (attempt.budget = none ∧ Fitting env store.fs store.journal manifest files)

/-- The stores that operations lead to, if every installation fits. -/
inductive Reached (start : Store β) : Store β → Prop where
  | start : Reached start start
  | step {store : Store β} (reached : Reached start store) (attempt : Attempt β)
      (fits : Fits env store attempt) :
      Reached start (finalState (attempt.outcome env store))

section

variable (names : List String)

theorem change_keeps_journal (attempt : FileSystem β → Except OSError (FileSystem β)) :
    Keeps (fun store => installedNames store.journal = names) (change attempt) := by
  apply Keeps.of_ends
  intro store holds
  unfold change
  rw [ends_bind, ends_get, andThen_ok]
  split
  · exact holds
  · exact holds
  · exact holds
  · exact holds

theorem appendJournal_framed {store : Store β} {row : Row} (other : row.action ≠ .install) :
    Ends (fun result after => result = .ok () ∧ after.fs = store.fs ∧
        installedNames after.journal = installedNames store.journal)
      (appendJournal env row) store := by
  have same : installedNames
      (store.journal ++ [{ row with ts := env.clock store.appended }]) =
        installedNames store.journal := by
    simp [installedNames, other]
  unfold appendJournal
  rw [ends_modify]
  dsimp only
  split
  · exact ⟨rfl, rfl, same⟩
  · exact ⟨rfl, rfl, rfl⟩
  · exact ⟨rfl, rfl, same⟩

theorem appendJournal_keeps {row : Row} (other : row.action ≠ .install) :
    Keeps (fun store => installedNames store.journal = names) (appendJournal env row) := by
  apply Keeps.of_ends
  intro store holds
  apply mono (appendJournal_framed env other)
  rintro result after ⟨-, -, same⟩
  exact same.trans holds

theorem pack_keeps (request : PackRequest) (files : List (SourceFile β)) :
    Keeps (fun store => installedNames store.journal = names) (pack env request files) := by
  apply Keeps.ite
  · exact .throw _
  · apply Keeps.ite
    · exact .throw _
    · apply Keeps.bind
      · exact appendJournal_keeps env names nofun
      · exact fun _ => .pure _

theorem replayVersion_keeps (name current : String) (target : Row) :
    Keeps (fun store => installedNames store.journal = names)
      (replayVersion env name current target) := by
  have keepsChange := change_keeps_journal (β := β) names
  refine .bind .get fun store => ?_
  apply Keeps.ite
  · exact .throw _
  · split
    · split
      · exact .throw _
      · refine .bind (keeps_writeVersion env keepsChange) fun _ => ?_
        refine .bind (keeps_setCurrent env keepsChange _ _) fun _ => ?_
        exact appendJournal_keeps env names nofun
    · exact .throw _

theorem rollback_keeps (name : String) :
    Keeps (fun store => installedNames store.journal = names) (rollback env name) := by
  apply Keeps.ite
  · exact .throw _
  · refine .bind .get fun store => ?_
    refine .bind (keeps_currentVersion env name) fun current => ?_
    split
    · exact .throw _
    · split
      · exact .throw _
      · exact replayVersion_keeps env names _ _ _

end

section

variable {env} {store : Store β} {manifest : Manifest} {files : Dict String β}
  {archive : Option (Archive β)}

section

variable (isAccepted : accepted env archive = some (manifest, files))
include isAccepted

theorem readArchive_of_accepted : readArchive env archive = .ok (manifest, files) ∧
      verified env manifest files = true := by
  unfold accepted at isAccepted
  split at isAccepted
  case h_1 => cases isAccepted
  case h_2 found foundFiles read =>
    split at isAccepted
    case isTrue holds =>
      cases isAccepted
      exact ⟨read, holds⟩
    case isFalse => cases isAccepted

theorem install_of_accepted : install env archive = installFiles env manifest files := by
  obtain ⟨read, holds⟩ := readArchive_of_accepted isAccepted
  unfold install
  rw [read]
  exact if_pos holds

end

theorem install_refused (refused : accepted env archive = none) :
    Ends (fun result after => (∃ raised, result = .error raised) ∧ after = store)
      (install env archive) store := by
  unfold install
  unfold accepted at refused
  cases read : readArchive env archive with
  | error message => exact ⟨⟨_, rfl⟩, rfl⟩
  | ok found =>
    rw [read] at refused
    dsimp only at refused ⊢
    split at refused
    case isTrue => cases refused
    case isFalse fails =>
      rw [if_neg fails]
      exact ⟨⟨_, rfl⟩, rfl⟩

variable (env) in
/-- Nothing was changed, or a fitting package was installed. -/
def Settled {α : Type} (store : Store β) (manifest : Manifest) (files : Dict String β)
    (result : Except Raised α) (after : Store β) : Prop :=
  (after.fs = store.fs ∧ installedNames after.journal = installedNames store.journal) ∨
  ((∃ value, result = .ok value) ∧ Fitting env store.fs store.journal manifest files ∧
    NoFile store.fs (rootOf env manifest) ∧
    installedNames after.journal = installedNames store.journal ++ [manifest.name] ∧
    ∀ location, after.fs.lookup location = withPackage env store.fs manifest files location)

theorem installFiles_stuck (stuck : store.budget = some 0) :
    Ends (fun _ after => after.fs = store.fs ∧ after.journal = store.journal)
      (installFiles env manifest files) store := by
  have keepsChange : ∀ attempt, Keeps (fun after : Store β => after.budget = some 0 ∧
      after.fs = store.fs ∧ after.journal = store.journal) (change attempt) := by
    intro attempt
    apply Keeps.of_ends
    intro between holds
    unfold change
    rw [ends_bind, ends_get, andThen_ok, holds.1]
    cases attempt between.fs <;> exact holds
  have keepsRow : ∀ row, Keeps (fun after : Store β => after.budget = some 0 ∧
      after.fs = store.fs ∧ after.journal = store.journal) (appendJournal env row) := by
    intro row
    apply Keeps.modify
    intro between holds
    rw [holds.1]
    exact ⟨rfl, holds.2⟩
  have keeps : Keeps (fun after : Store β => after.budget = some 0 ∧
      after.fs = store.fs ∧ after.journal = store.journal)
      (installFiles env manifest files) := by
    refine .bind (keeps_currentVersion env _) fun previous => ?_
    refine .bind (keeps_writeVersion env keepsChange) fun _ => ?_
    refine .bind (keeps_setCurrent env keepsChange _ _) fun _ => ?_
    exact .bind (keepsRow _) fun _ => .pure previous
  exact (keeps.ends ⟨stuck, rfl, rfl⟩).mono fun _ _ holds => holds.2

section

variable (isAccepted : accepted env archive = some (manifest, files))
include isAccepted

theorem install_settled (fits : store.budget = some 0 ∨
      (store.budget = none ∧ Fitting env store.fs store.journal manifest files)) :
    Ends (Settled env store manifest files) (install env archive) store := by
  rw [install_of_accepted isAccepted]
  rcases fits with stuck | ⟨able, fitting⟩
  · apply mono (installFiles_stuck stuck)
    rintro result after ⟨sameFiles, sameRows⟩
    exact .inl ⟨sameFiles, congrArg installedNames sameRows⟩
  · apply mono (installFiles_ends env fitting.sound able fitting.pointer)
    rintro result after (⟨-, rfl⟩ | ⟨previous, rfl, noFile, installed⟩)
    · exact .inl ⟨rfl, rfl⟩
    · refine .inr ⟨⟨previous, rfl⟩, fitting, noFile, ?_, installed.lookup⟩
      rw [installed.rest]
      simp [installedNames, installedRow]

theorem upgrade_settled (settled : Ends (Settled env store manifest files) (install env archive)
      store) : Ends (Settled env store manifest files) (upgrade env archive) store := by
  unfold upgrade
  rw [(readArchive_of_accepted isAccepted).1, ends_bind, ends_currentVersion]
  cases currentOf env store manifest.name with
  | error raised => exact .inl ⟨rfl, rfl⟩
  | ok current =>
    cases current with
    | none => exact .inl ⟨rfl, rfl⟩
    | some current =>
      rw [andThen_ok, ends_ite]
      split
      case isTrue => exact .inl ⟨rfl, rfl⟩
      case isFalse =>
        rw [ends_bind, ends_discard]
        apply mono settled
        intro result between holds
        cases result with
        | error raised =>
          rcases holds with unchanged | ⟨⟨value, isValue⟩, -⟩
          · exact .inl unchanged
          · cases isValue
        | ok previous =>
          rw [andThen_ok, ends_pure, andThen_ok, ends_bind]
          refine .mono (appendJournal_framed env ?_) ?_
          · exact nofun
          rintro result after ⟨rfl, sameFiles, sameNames⟩
          rw [andThen_ok, ends_pure]
          rcases holds with ⟨same, names⟩ | ⟨-, fitting, noFile, names, lookup⟩
          · exact .inl ⟨sameFiles.trans same, sameNames.trans names⟩
          · refine .inr ⟨⟨current, rfl⟩, fitting, noFile, sameNames.trans names, ?_⟩
            rw [sameFiles]
            exact lookup

end

theorem upgrade_refused (refused : accepted env archive = none) :
    Ends (fun _ after => after = store) (upgrade env archive) store := by
  unfold upgrade
  cases readArchive env archive with
  | error message => rfl
  | ok package =>
    rw [ends_bind, ends_currentVersion]
    cases currentOf env store package.1.name with
    | error raised => rfl
    | ok current =>
      cases current with
      | none => rfl
      | some current =>
        rw [andThen_ok]
        dsimp only
        split
        case isTrue => rfl
        case isFalse =>
          rw [ends_bind, ends_discard]
          apply mono (install_refused refused)
          rintro result after ⟨⟨raised, rfl⟩, same⟩
          exact same

end

/-! ## What a settled installation changes -/

section

variable {env} {store : Store β} {manifest : Manifest} {files : Dict String β} {location : Location}

theorem withPackage_contained (noFile : NoFile store.fs (rootOf env manifest))
    (changed : withPackage env store.fs manifest files location ≠ store.fs.lookup location) :
    rootOf env manifest <+: location ∨
    location = currentPath env manifest.name ∨
    (location <+: rootOf env manifest ∧ store.fs.lookup location = none ∧
      withPackage env store.fs manifest files location = some .directory) := by
  by_cases here : location = currentPath env manifest.name
  · exact .inr (.inl here)
  · by_cases under : rootOf env manifest <+: location
    · exact .inl under
    · refine .inr (.inr ?_)
      unfold withPackage withTree at changed ⊢
      rw [if_neg here, graft_of_away under] at changed ⊢
      unfold withWay at changed ⊢
      split at changed
      case isFalse => exact absurd rfl changed
      case isTrue onWay =>
        refine ⟨onWay, ?_, if_pos onWay⟩
        cases there : store.fs.lookup location with
        | none => rfl
        | some node =>
          cases node with
          | directory => exact absurd there.symm changed
          | file data => exact absurd there (noFile location onWay data)

theorem above_of_contained {other : String} (inOther : installedRoot env other <+: location)
    (contained : rootOf env manifest <+: location ∨
      location = currentPath env manifest.name ∨
      location <+: rootOf env manifest) :
    installedRoot env other = installedRoot env manifest.name := by
  have sameLength : (installedRoot env other).length =
      (installedRoot env manifest.name).length := by
    simp [installedRoot]
  have onto : installedRoot env manifest.name <+: rootOf env manifest := List.prefix_append _ _
  have joined : ∀ {path : Location}, installedRoot env other <+: path →
      installedRoot env manifest.name <+: path →
      installedRoot env other = installedRoot env manifest.name :=
    fun first second =>
      (List.prefix_of_prefix_length_le first second sameLength.le).eq_of_length sameLength
  rcases contained with under | pointer | onWay
  · exact joined inOther (onto.trans under)
  · rw [pointer] at inOther
    exact joined inOther (List.prefix_append _ _)
  · exact joined (inOther.trans onWay) onto

theorem isolated_of_settled {outcome : EStateM.Result Raised (Store β) Unit}
    (settled : Settled env store manifest files (ending outcome) (finalState outcome)) :
    Isolated env store manifest outcome := by
  rcases settled with ⟨sameFiles, -⟩ | ⟨⟨value, isValue⟩, fitting, noFile, -, lookup⟩
  · constructor
    · intro raised _ location _
      rw [sameFiles]
    · intro location changed
      rw [sameFiles] at changed
      exact absurd rfl changed
    · intro other _ _ location _
      rw [sameFiles]
  · constructor
    · intro raised isRaised
      rw [isValue] at isRaised
      cases isRaised
    · intro location changed
      rw [fitting.sound.versionRoot]
      rw [lookup] at changed ⊢
      exact withPackage_contained noFile changed
    · intro other member different location inOther
      by_contra changed
      rw [lookup] at changed
      have same := above_of_contained inOther
        ((withPackage_contained noFile changed).imp_right (Or.imp_right And.left))
      apply different
      apply fitting.fresh other member
      simpa [installedRoot] using same

end

section

variable {env} {start store : Store β} {attempt : Attempt β}

theorem discarded {α : Type} {property : Store β → Prop} {program : Program β α}
    (ends : Ends (fun _ after => property after) program store) :
    property (finalState ((discard program : Program β Unit) store)) := by
  have behind : Ends (fun _ after => property after) (discard program) store := by
    rw [ends_discard]
    apply mono ends
    intro result after holds
    cases result <;> exact holds
  exact behind

theorem installedNames_of_none (nothing : attempt.operation.installs env = none) :
    installedNames (finalState (attempt.outcome env store)).journal =
      installedNames store.journal := by
  obtain ⟨operation, budget⟩ := attempt
  cases operation with
  | pack request files => exact (pack_keeps env _ request files).discard { store with budget } rfl
  | rollback name => exact rollback_keeps env _ name { store with budget } rfl
  | install archive =>
    have same : Ends (fun _ after =>
        installedNames after.journal = installedNames store.journal)
        (install env archive) { store with budget } := by
      apply mono (install_refused nothing)
      rintro result after ⟨-, rfl⟩
      rfl
    exact discarded same
  | upgrade archive =>
    have same : Ends (fun _ after =>
        installedNames after.journal = installedNames store.journal)
        (upgrade env archive) { store with budget } := by
      apply mono (upgrade_refused nothing)
      rintro result after rfl
      rfl
    exact discarded same

theorem outcome_settled {manifest : Manifest} {files : Dict String β}
    (fits : Fits env store attempt)
    (installs : attempt.operation.installs env = some (manifest, files)) :
    Settled env store manifest files (ending (attempt.outcome env store))
      (finalState (attempt.outcome env store)) := by
  have discards {α : Type} {program : Program β α} {before : Store β}
      (settled : Ends (Settled env before manifest files) program before) :
      Ends (Settled env before manifest files) (discard program) before := by
    rw [ends_discard]
    apply mono settled
    intro result after holds
    cases result with
    | ok value => exact holds.imp_right (.imp_left fun _ => ⟨(), rfl⟩)
    | error raised =>
      rcases holds with unchanged | ⟨⟨value, isValue⟩, -⟩
      · exact .inl unchanged
      · cases isValue
  obtain ⟨operation, budget⟩ := attempt
  have settled {archive : Option (Archive β)}
      (isAccepted : accepted env archive = some (manifest, files)) :
      Ends (Settled env { store with budget } manifest files)
        (install env archive) { store with budget } := by
    exact install_settled isAccepted (fits manifest files installs)
  cases operation with
  | pack | rollback => cases installs
  | install archive => exact discards (settled installs)
  | upgrade archive => exact discards (upgrade_settled installs (settled installs))

theorem outcome_separate (separate : Separate env store.journal) (fits : Fits env store attempt) :
    Separate env (finalState (attempt.outcome env store)).journal := by
  cases installs : attempt.operation.installs env with
  | none =>
    unfold Separate
    rw [installedNames_of_none installs]
    exact separate
  | some package =>
    rcases outcome_settled fits installs with ⟨-, same⟩ | ⟨-, fitting, -, names, -⟩
    · unfold Separate
      rw [same]
      exact separate
    · have own : ∀ other ∈ installedNames store.journal,
          installedRoot env other = installedRoot env package.1.name →
            other = package.1.name := by
        intro other member same
        apply fitting.fresh other member
        simpa [installedRoot] using same
      unfold Separate
      rw [names]
      intro first firstMember second secondMember same
      rw [List.mem_append, List.mem_singleton] at firstMember secondMember
      rcases firstMember with firstMember | rfl
      · rcases secondMember with secondMember | rfl
        · exact separate first firstMember second secondMember same
        · exact own first firstMember same
      · rcases secondMember with secondMember | rfl
        · exact (own second secondMember same.symm).symm
        · rfl

/-- In every run in which each installation fits, no two packages share a directory, and
every installation that fits is isolated. -/
theorem installations_isolated (noRows : start.journal = []) (reached : Reached env start store) :
    Separate env store.journal ∧
      ∀ attempt : Attempt β, Fits env store attempt →
        ∀ manifest files, attempt.operation.installs env = some (manifest, files) →
          Isolated env store manifest (attempt.outcome env store) := by
  refine ⟨?_, fun attempt fits manifest files installs =>
    isolated_of_settled (outcome_settled fits installs)⟩
  induction reached with
  | start =>
    intro first member
    simp [noRows, installedNames] at member
  | step reached attempt fits ih => exact outcome_separate ih fits

end

/-! ## Packages that do not keep to themselves -/

/-- The installation of a package with one file. -/
def plainInstall (name version : String) (budget : Option Nat) : Attempt (Manifest ⊕ String) where
  operation := .install (some (plainArchive name version))
  budget := budget

/-- The store of a new manager. -/
def plainStart : Store (Manifest ⊕ String) where
  fs := .empty

theorem lookup_plainStart {location : Location} (notRoot : location ≠ []) :
    plainStart.fs.lookup location = none :=
  lookup_of_ne_root _ notRoot

theorem noFile_plainStart (path : Location) : NoFile plainStart.fs path := by
  intro location _ data
  by_cases root : location = []
  · rw [root]
    nofun
  · rw [lookup_plainStart root]
    nofun

def plainAfter (attempt : Attempt (Manifest ⊕ String)) (store : Store (Manifest ⊕ String)) :
    Store (Manifest ⊕ String) :=
  finalState (attempt.outcome plainEnvironment store)

theorem plainInstall_fits {store : Store (Manifest ⊕ String)} {name version : String}
    (known : name = "tool" ∧ version = "1.0" ∨ name = "kit" ∧ version = "2.0")
    (fresh : ∀ other ∈ installedNames store.journal,
      safeName other = safeName name → other = name)
    (pointer : store.fs.lookup (currentPath plainEnvironment name) ≠ some .directory) :
    Fits plainEnvironment store (plainInstall name version none) := by
  intro manifest files installs
  rcases known with ⟨rfl, rfl⟩ | ⟨rfl, rfl⟩
  all_goals
    cases installs
    exact .inr ⟨rfl, ⟨by decide +kernel, by decide +kernel, by decide +kernel, by decide +kernel⟩,
      fresh, fun directory => absurd directory pointer⟩

/-- One package is installed behind another one. -/
theorem installations_isolated_plain :
    Separate plainEnvironment (plainAfter (plainInstall "kit" "2.0" none)
        (plainAfter (plainInstall "tool" "1.0" none) plainStart)).journal ∧
      Isolated plainEnvironment (plainAfter (plainInstall "tool" "1.0" none) plainStart)
        (plainManifest "kit" "2.0") ((plainInstall "kit" "2.0" none).outcome plainEnvironment
          (plainAfter (plainInstall "tool" "1.0" none) plainStart)) := by
  have tool := @plainInstall_fits plainStart "tool" "1.0" (.inl ⟨rfl, rfl⟩) nofun (by decide)
  have kit := @plainInstall_fits (plainAfter (plainInstall "tool" "1.0" none) plainStart)
    "kit" "2.0" (.inr ⟨rfl, rfl⟩) (by decide +kernel) (by decide +kernel)
  have reached := Reached.step .start _ tool
  exact ⟨(installations_isolated rfl (reached.step _ kit)).1,
    (installations_isolated rfl reached).2 _ kit _ _ rfl⟩

/-- Two packages share a directory, and an installation that fails with its second change
has removed the tree that was there. -/
theorem installations_collide :
    (¬ Separate plainEnvironment (plainAfter (plainInstall "a_b" "1.0" none)
      (plainAfter (plainInstall "a/b" "1.0" none) plainStart)).journal) ∧
    ¬ Isolated plainEnvironment (plainAfter (plainInstall "tool" "1.0" none) plainStart)
      (plainManifest "tool" "1.0") ((plainInstall "tool" "1.0" (some 1)).outcome plainEnvironment
        (plainAfter (plainInstall "tool" "1.0" none) plainStart)) := by
  constructor
  · intro separate
    have same : "a/b" = "a_b" :=
      separate _ (by decide +kernel) _ (by decide +kernel) (by decide +kernel)
    revert same
    decide
  · intro isolated
    have unchanged := isolated.raised (.os .failed) (by decide +kernel)
      ["data", "installed", "tool", "1.0", "manifest.json"] (by decide)
    revert unchanged
    decide +kernel

end AgenticOS.Packages
