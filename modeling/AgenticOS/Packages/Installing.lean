import AgenticOS.Packages.Trees

/-!
# What an installation comes to

While the system makes all changes, an installation of a sound package makes the tree of the
version and points the pointer of the package to it, unless a file is in the way of the
tree. Where the system makes no change at all, the installation leaves everything as it is.
-/

namespace AgenticOS.Packages

open FileSystem Transition List Ends

variable {β : Type} (env : Environment β)

section

variable {env} {manifest : Manifest} {files : Dict String β}

theorem listed_of_verified (isVerified : verified env manifest files = true)
    {entry : FileEntry} (member : entry ∈ manifest.files) :
    ∃ data, files.get? entry.path = some data ∧ env.sha256 data = entry.sha256 := by
  obtain ⟨-, noProblem⟩ := of_decide_eq_true isVerified
  unfold problems at noProblem
  rw [append_eq_nil_iff, append_eq_nil_iff, flatMap_eq_nil_iff] at noProblem
  have none := noProblem.1.2 entry member
  unfold entryProblems at none
  cases found : files.get? entry.path with
  | none =>
    rw [found] at none
    cases none
  | some data =>
    rw [found] at none
    rw [append_eq_nil_iff] at none
    refine ⟨data, rfl, ?_⟩
    by_contra different
    rw [if_pos different] at none
    cases none.1

theorem mem_of_verified (isVerified : verified env manifest files = true)
    {path : String} (member : path ∈ files.keys) : path ∈ manifest.files.map FileEntry.path := by
  obtain ⟨-, noProblem⟩ := of_decide_eq_true isVerified
  unfold problems at noProblem
  rw [append_eq_nil_iff, map_eq_nil_iff] at noProblem
  by_contra unlisted
  have listed : path ∈ (files.keys.filter fun path =>
      path ∉ manifest.files.map FileEntry.path).insertionSort fun first second => first ≤ second :=
    (mem_insertionSort _).mpr (mem_filter.mpr ⟨member, decide_eq_true unlisted⟩)
  rw [noProblem.2] at listed
  cases listed

end

section

variable {store : Store β}

variable (name : String)

theorem currentVersion_framed :
    Ends (fun _ after => after = store) (currentVersion env name) store := by
  unfold currentVersion
  rw [ends_bind, ends_get, andThen_ok]
  dsimp only
  split
  · split
    · split
      · rw [ends_throw]
      · simp only [ends_ite, ends_pure, ite_self]
    · rw [ends_pure]
  · rw [ends_pure]

def currentOf (store : Store β) (name : String) : Except Raised (Option String) :=
  ending (currentVersion env name store)

theorem ends_currentVersion {property : Except Raised (Option String) → Store β → Prop} :
    Ends property (currentVersion env name) store ↔
      property (currentOf env store name) store := by
  have framed : finalState (currentVersion env name store) = store := currentVersion_framed env name
  unfold Ends
  rw [framed]
  exact .rfl

theorem currentPath_straight : ".." ∉ currentPath env name := by
  unfold currentPath
  rw [mem_append, mem_singleton]
  exact fun member => member.elim (installedRoot_straight env name) nofun

theorem currentOf_readable {name : String}
    (readable : ∀ data, store.fs.lookup (currentPath env name) = some (.file data) →
      env.decode data ≠ none) : ∃ previous, currentOf env store name = .ok previous := by
  have ends : Ends (fun result _ => ∃ previous, result = .ok previous)
      (currentVersion env name) store := by
    unfold currentVersion
    rw [ends_bind, ends_get, andThen_ok]
    dsimp only
    split
    · split
      case h_1 data found =>
        rw [find_of_straight (currentPath_straight env name)] at found
        split
        case h_1 undecodable => exact absurd undecodable (readable data found)
        case h_2 text decoded =>
          exact .ite (fun _ => ⟨_, rfl⟩) fun _ => ⟨_, rfl⟩
      case h_2 => exact ⟨_, rfl⟩
    · exact ⟨_, rfl⟩
  exact ends

theorem notRoot_of_installed : installedRoot env name ≠ [] :=
  append_ne_nil_of_right_ne_nil _ (cons_ne_nil _ _)

theorem setCurrent_written {name : String} (version : String) (able : store.budget = none)
    (isDirectory : store.fs.lookup (installedRoot env name) = some .directory)
    (noDirectory : store.fs.lookup (currentPath env name) ≠ some .directory) :
    Ends (fun result after => result = .ok () ∧ Becomes store (fun location =>
      if location = currentPath env name then some (.file (env.encode version))
      else store.fs.lookup location) after)
      (setCurrent env name version) store := by
  have straight := installedRoot_straight env name
  have noFile : NoFile store.fs (installedRoot env name) := by
    intro location below data isFile
    rw [lookup_above_directory isDirectory below] at isFile
    cases isFile
  unfold setCurrent
  rw [ends_bind]
  apply mono (mkdir_made able straight noFile (.inl rfl))
  rintro result between ⟨rfl, made⟩
  have same : ∀ location, between.fs.lookup location = store.fs.lookup location := by
    intro location
    rw [made.2]
    dsimp only
    split
    case isTrue below => exact (lookup_above_directory isDirectory below).symm
    case isFalse => rfl
  rw [andThen_ok]
  have parent := (same (installedRoot env name)).trans isDirectory
  apply mono (writeBytes_written (made.budget.trans able)
    (currentPath_straight env name) parent (env.encode version)
    (by rw [same]; exact noDirectory))
  rintro result after ⟨rfl, written⟩
  refine ⟨rfl, made.trans ⟨written.1, fun location => ?_⟩⟩
  rw [written.2]
  dsimp only
  rw [same]
  rfl

end

section

variable {env} {store : Store β} {manifest : Manifest} {files : Dict String β}

variable (env) in
/-- The version and the paths of the files lead straight down, no file is a directory of
another one, and no directory takes the place of the pointer. -/
structure Sound (manifest : Manifest) (files : Dict String β) : Prop where
  version : IsPlain manifest.version
  plain : ∀ file ∈ files.entries, IsPlain file.1
  consistent : Consistent (versionLeaves env manifest files)
  pointer : ∀ leaf ∈ versionLeaves env manifest files,
    ["CURRENT"] <+: partsOf manifest.version ++ leaf.1 →
      partsOf manifest.version ++ leaf.1 = ["CURRENT"]

variable (env) in
/-- The directory of a version that leads straight down. -/
def rootOf (manifest : Manifest) : Location :=
  installedRoot env manifest.name ++ partsOf manifest.version

theorem Sound.versionRoot (sound : Sound env manifest files) :
    versionRoot env manifest.name manifest.version = rootOf env manifest :=
  joinPath_of_plain sound.version

theorem Sound.straight (sound : Sound env manifest files) : ".." ∉ rootOf env manifest := by
  unfold rootOf
  rw [mem_append]
  exact fun member => member.elim (installedRoot_straight env _) sound.version.2

variable (env manifest) in
theorem rootOf_notRoot : rootOf env manifest ≠ [] :=
  append_ne_nil_of_left_ne_nil (notRoot_of_installed env _) _

theorem Sound.writable (sound : Sound env manifest files) (able : store.budget = none)
    (noFile : NoFile store.fs (rootOf env manifest)) :
    Writable env store (rootOf env manifest) manifest files where
  able := able
  straight := sound.straight
  notRoot := rootOf_notRoot env manifest
  noFile := noFile
  plain := sound.plain
  consistent := sound.consistent

variable (env) in
def withTree (fs : FileSystem β) (manifest : Manifest) (files : Dict String β) :
    Location → Option (Node β) :=
  graft (rootOf env manifest) (versionLeaves env manifest files) (withWay fs (rootOf env manifest))

variable (env) in
def withPackage (fs : FileSystem β) (manifest : Manifest) (files : Dict String β)
    (location : Location) : Option (Node β) :=
  if location = currentPath env manifest.name then
    some (.file (env.encode manifest.version))
  else withTree env fs manifest files location

theorem manifest_mem : (([manifestName] : Location), env.dumps manifest) ∈
    versionLeaves env manifest files :=
  mem_cons_self

theorem Sound.version_away (sound : Sound env manifest files) :
    ¬ ["CURRENT"] <+: partsOf manifest.version := by
  intro below
  have same := sound.pointer _ manifest_mem (below.trans (prefix_append _ _))
  have sameLength := congrArg List.length same
  have longer := below.length_le
  simp at sameLength
  simp [sameLength] at longer

theorem Sound.noDirectory (sound : Sound env manifest files)
    (before : store.fs.lookup (currentPath env manifest.name) = some .directory →
      partsOf manifest.version = []) :
    withTree env store.fs manifest files (currentPath env manifest.name) ≠ some .directory := by
  unfold withTree currentPath rootOf
  intro isDirectory
  by_cases under : partsOf manifest.version <+: ["CURRENT"]
  · obtain ⟨rest, pointer⟩ := under
    rw [← pointer, ← append_assoc, graft_append] at isDirectory
    have onWay : OnWay (versionLeaves env manifest files) rest := by
      by_contra away
      rw [treeNode_eq_none_iff.mpr away] at isDirectory
      cases isDirectory
    rcases onWay with here | ⟨leaf, member, below⟩
    · rw [here, append_nil] at pointer
      exact sound.version_away (pointer ▸ prefix_rfl)
    · have same := sound.pointer leaf member
        (by rw [← pointer]; exact (prefix_append_right_inj _).mpr below)
      obtain rfl : leaf.1 = rest := append_cancel_left (same.trans pointer.symm)
      unfold treeNode at isDirectory
      cases found : leafAt (versionLeaves env manifest files) leaf.1 with
      | none => exact leafAt_eq_none_iff.mp found leaf member rfl
      | some other => simp [found] at isDirectory
  · rw [graft_of_away fun inside => under ((prefix_append_right_inj _).mp inside)] at isDirectory
    unfold withWay at isDirectory
    rw [if_neg fun inside =>
      sound.version_away ((prefix_append_right_inj _).mp inside)] at isDirectory
    exact under (before isDirectory ▸ nil_prefix)

theorem withPackage_root (fs : FileSystem β) {location : Location}
    (proper : partsOf manifest.version ++ location ≠ ["CURRENT"]) :
    withPackage env fs manifest files (rootOf env manifest ++ location) =
      treeNode (versionLeaves env manifest files) location := by
  unfold withPackage withTree
  rw [if_neg, graft_append]
  unfold rootOf currentPath
  rw [append_assoc, append_cancel_left_eq]
  exact proper

theorem Sound.isDirectory (sound : Sound env manifest files) (fs : FileSystem β) :
    withTree env fs manifest files (installedRoot env manifest.name) =
      some .directory := by
  unfold withTree
  by_cases here : rootOf env manifest <+: installedRoot env manifest.name
  · have shorter := here.length_le
    have same : installedRoot env manifest.name = rootOf env manifest ++ [] := by
      rw [append_nil]
      exact (prefix_append _ _).eq_of_length_le shorter
    rw [same, graft_append]
    exact treeNode_of_way sound.consistent manifest_mem nil_prefix nofun
  · rw [graft_of_away here]
    exact if_pos (prefix_append _ _)

end

/-! ## Installing a sound package -/

section

variable {store : Store β} {manifest : Manifest} {files : Dict String β}

def installedRow (store : Store β) (manifest : Manifest) (files : Dict String β)
    (previous : Option String) : Row where
  ts := env.clock store.appended
  action := .install
  name := manifest.name
  version := manifest.version
  previousVersion := previous
  files := files.size
  checkpoint := manifest.files.map fun entry => (entry.path, entry.sha256)

/-- The package is installed: its tree is there, the pointer leads to it, and the journal has
one more row. -/
structure IsInstalled (store : Store β) (manifest : Manifest) (files : Dict String β)
    (previous : Option String) (after : Store β) : Prop where
  rest : after = { store with
    fs := after.fs
    journal := store.journal ++ [installedRow env store manifest files previous]
    appended := store.appended + 1 }
  lookup : ∀ location, after.fs.lookup location = withPackage env store.fs manifest files location

theorem ends_appendJournal {property : Except Raised Unit → Store β → Prop}
    (able : store.budget = none) (row : Row) :
    Ends property (appendJournal env row) store ↔
      property (.ok ()) { store with
        journal := store.journal ++ [{ row with ts := env.clock store.appended }]
        appended := store.appended + 1 } := by
  unfold appendJournal
  rw [ends_modify, able]

section

variable (sound : Sound env manifest files)
include sound

theorem installFiles_done (able : store.budget = none)
    (noFile : NoFile store.fs (rootOf env manifest))
    (pointer : store.fs.lookup (currentPath env manifest.name) = some .directory →
      partsOf manifest.version = []) {previous : Option String}
    (current : currentOf env store manifest.name = .ok previous) :
    Ends (fun result after => result = .ok previous ∧
        IsInstalled env store manifest files previous after)
      (installFiles env manifest files) store := by
  unfold installFiles
  rw [ends_bind, ends_currentVersion, current, andThen_ok, ends_bind]
  apply mono (writeVersion_written env (sound.writable able noFile) sound.versionRoot)
  rintro result written ⟨rfl, tree⟩
  rw [andThen_ok, ends_bind]
  have isDirectory := (tree.2 (installedRoot env manifest.name)).trans (sound.isDirectory store.fs)
  have noDirectory := sound.noDirectory pointer
  unfold withTree at noDirectory
  rw [← tree.2] at noDirectory
  apply mono (setCurrent_written env manifest.version (tree.budget.trans able)
    isDirectory noDirectory)
  rintro result pointed ⟨rfl, set⟩
  rw [andThen_ok, ends_bind, ends_appendJournal env (set.budget.trans
    (tree.budget.trans able)), andThen_ok, ends_pure]
  have whole := tree.trans set
  refine ⟨rfl, ?_, fun location => ?_⟩
  · rw [whole.1]
    rfl
  · rw [set.2]
    dsimp only
    rw [tree.2]
    rfl

theorem writeVersion_blocked (obstructed : ¬ NoFile store.fs (rootOf env manifest)) :
    Ends (fun result after => (∃ raised, result = .error raised) ∧ after = store)
      (writeVersion env manifest files) store := by
  unfold NoFile at obstructed
  push Not at obstructed
  obtain ⟨obstacle, onWay, data, isFile⟩ := obstructed
  rw [writeVersion_eq env sound.versionRoot, ends_bind]
  unfold clear
  rw [ends_bind, ends_get, andThen_ok, ends_ite, find_of_straight sound.straight]
  by_cases here : obstacle = rootOf env manifest
  · rw [← here, isFile, if_pos Option.isSome_some]
    apply mono (rmtree_of_file (here ▸ sound.straight) isFile)
    rintro result after ⟨rfl, same⟩
    exact ⟨⟨_, rfl⟩, same⟩
  · have missing : store.fs.lookup (rootOf env manifest) = none := by
      by_contra present
      rw [lookup_above onWay here present] at isFile
      cases isFile
    rw [missing, if_neg nofun, ends_pure, andThen_ok, ends_bind]
    apply mono (mkdir_blocked sound.straight onWay here isFile)
    rintro result after ⟨rfl, same⟩
    exact ⟨⟨_, rfl⟩, same⟩

theorem installFiles_blocked (obstructed : ¬ NoFile store.fs (rootOf env manifest)) :
    Ends (fun result after => (∃ raised, result = .error raised) ∧ after = store)
      (installFiles env manifest files) store := by
  unfold installFiles
  rw [ends_bind, ends_currentVersion]
  cases current : currentOf env store manifest.name with
  | error raised => exact ⟨⟨raised, rfl⟩, rfl⟩
  | ok previous =>
    rw [andThen_ok, ends_bind]
    apply mono (writeVersion_blocked env sound obstructed)
    rintro result after ⟨⟨raised, rfl⟩, same⟩
    exact ⟨⟨raised, rfl⟩, same⟩

theorem installFiles_ends (able : store.budget = none)
    (pointer : store.fs.lookup (currentPath env manifest.name) = some .directory →
      partsOf manifest.version = []) :
    Ends (fun result after => ((∃ raised, result = .error raised) ∧ after = store) ∨
        ∃ previous, result = .ok previous ∧ NoFile store.fs (rootOf env manifest) ∧
          IsInstalled env store manifest files previous after)
      (installFiles env manifest files) store := by
  by_cases noFile : NoFile store.fs (rootOf env manifest)
  · cases current : currentOf env store manifest.name with
    | error raised =>
      unfold installFiles
      rw [ends_bind, ends_currentVersion, current]
      exact .inl ⟨⟨raised, rfl⟩, rfl⟩
    | ok previous =>
      apply mono (installFiles_done env sound able noFile pointer current)
      rintro result after ⟨rfl, installed⟩
      exact .inr ⟨previous, rfl, noFile, installed⟩
  · apply mono (installFiles_blocked env sound noFile)
    intro result after unchanged
    exact .inl unchanged

end

end

section

variable {inv : Store β → Prop} {manifest : Manifest} {files : Dict String β}

/-! What survives every change of the file system survives whatever is made of such changes. -/

variable (keepsChange : ∀ attempt, Keeps inv (change attempt))

include keepsChange

theorem keeps_mkdirLast (existOk : Bool) (path : List String) :
    Keeps inv (mkdirLast existOk path) := by
  apply Keeps.tryCatch (keepsChange _)
  intro raised
  refine .bind .get fun store => ?_
  exact .ite (.pure ()) (.throw raised)

theorem keeps_mkdirParents (existOk : Bool) (names : List String) :
    Keeps inv (mkdirParents existOk names) := by
  induction names generalizing existOk with
  | nil => exact keeps_mkdirLast keepsChange existOk []
  | cons name names ih =>
    apply Keeps.tryCatch (keepsChange _)
    intro raised
    apply Keeps.ite
    · apply Keeps.bind (ih true)
      intro _
      exact keeps_mkdirLast keepsChange existOk _
    · refine .bind .get fun store => ?_
      exact .ite (.pure ()) (.throw raised)

theorem keeps_mkdir (existOk : Bool) (path : List String) : Keeps inv (mkdir existOk path) :=
  keeps_mkdirParents keepsChange existOk path.reverse

omit keepsChange in
theorem keeps_forM {ι : Type} {program : ι → Program β PUnit}
    (keeps : ∀ item, Keeps inv (program item)) (items : List ι) :
    Keeps inv (items.forM program) := by
  induction items with
  | nil => exact Keeps.pure PUnit.unit
  | cons item items ih => exact .bind (keeps item) fun _ => ih

theorem keeps_rmtree (path : List String) : Keeps inv (rmtree path) := by
  refine .bind .get fun store => ?_
  dsimp only
  split
  · exact .throw _
  · apply Keeps.ite
    · apply Keeps.bind
      · exact keeps_forM (fun location => keepsChange (removeAt location)) _
      · exact fun _ => keepsChange _
    · exact .throw _

theorem keeps_writeFile (root : List String) (file : String × β) :
    Keeps inv (writeFile root file) := by
  apply Keeps.ite
  · apply Keeps.bind (keeps_mkdir keepsChange true _)
    exact fun _ => keepsChange _
  · exact .throw _

theorem keeps_clear (root : List String) : Keeps inv (clear root) := by
  refine .bind .get fun store => ?_
  exact .ite (keeps_rmtree keepsChange root) (.pure ())

theorem keeps_writeVersion : Keeps inv (writeVersion env manifest files) := by
  rw [writeVersion_eq env rfl]
  apply Keeps.bind (keeps_clear keepsChange _)
  intro _
  apply Keeps.bind (keeps_mkdir keepsChange false _)
  intro _
  apply Keeps.bind (keepsChange _)
  exact fun _ => keeps_forM (keeps_writeFile keepsChange _) _

theorem keeps_setCurrent (name version : String) : Keeps inv (setCurrent env name version) := by
  apply Keeps.bind (keeps_mkdir keepsChange true _)
  exact fun _ => keepsChange _

omit keepsChange in
theorem keeps_currentVersion (name : String) : Keeps inv (currentVersion env name) := by
  intro store holds
  have framed : finalState (currentVersion env name store) = store := currentVersion_framed env name
  rw [framed]
  exact holds

end

end AgenticOS.Packages
