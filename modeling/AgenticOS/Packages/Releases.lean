import AgenticOS.Packages.Isolation

/-!
# The releases of a package

Releases of one package are published one after another, by an installation or by an upgrade.
Their trees lie side by side, the pointer leads to the last one, and each has left a row with
its checkpoint in the journal, close to its end for the last releases.
-/

namespace AgenticOS.Packages

open FileSystem Transition List

variable {β : Type}

theorem insertionSort_of_pairwise_not {α : Type} {relation : α → α → Prop}
    [DecidableRel relation] {list : List α}
    (otherWay : list.Pairwise fun first second => ¬ relation first second) :
    list.insertionSort relation = list.reverse := by
  have atEnd : ∀ (item : α) (sorted : List α), (∀ other ∈ sorted, ¬ relation item other) →
      sorted.orderedInsert relation item = sorted ++ [item] := by
    intro item sorted larger
    induction sorted with
    | nil => rfl
    | cons other sorted ih =>
      rw [orderedInsert_of_not_le _ _ (larger other mem_cons_self),
        ih fun further member => larger further (mem_cons_of_mem _ member),
        cons_append]
  induction otherWay with
  | nil => rfl
  | cons larger _ ih =>
    rw [insertionSort_cons, ih, reverse_cons]
    exact atEnd _ _ fun other member => larger other (mem_reverse.mp member)

/-- A row has something to go back to. -/
def IsCheckpoint (name : String) (row : Row) : Prop :=
  row.action ≠ .pack ∧ row.name = name ∧ row.checkpoint ≠ []
deriving Decidable

theorem rollbackTarget_eq {rows : List Row}
    (increasing : rows.Pairwise fun first second => first.ts < second.ts) (name current : String) :
    rollbackTarget rows name current =
      ((rows.reverse.take 1000).filter fun row => IsCheckpoint name row).find?
        fun row => row.version ≠ current := by
  have latest : rows.insertionSort (fun first second => second.ts ≤ first.ts) = rows.reverse :=
    insertionSort_of_pairwise_not (increasing.imp fun before => not_le_of_gt before)
  have decreasing : rows.reverse.Pairwise fun first second => second.ts < first.ts :=
    pairwise_reverse.mpr increasing
  have history : historyOf rows name = ((rows.reverse.take 1000).filter fun row =>
      row.action ≠ .pack ∧ row.name = name).reverse := by
    unfold historyOf journalRows
    rw [latest]
    apply insertionSort_of_pairwise_not
    exact ((decreasing.sublist (take_sublist _ _)).filter _).imp fun before =>
      not_le_of_gt before
  unfold rollbackTarget
  rw [history, reverse_reverse, find?_filter, find?_filter]
  congr 1
  funext row
  rw [Bool.eq_iff_iff]
  simp only [decide_eq_true_eq]
  unfold IsCheckpoint
  tauto

variable (env : Environment β)

structure Ordered (store : Store β) : Prop where
  increasing : store.journal.Pairwise fun first second => first.ts < second.ts
  earlier : ∀ row ∈ store.journal, row.ts < env.clock store.appended

def appended (store : Store β) (row : Row) : Store β :=
  { store with
    journal := store.journal ++ [{ row with ts := env.clock store.appended }]
    appended := store.appended + 1 }

variable {store : Store β}

theorem Ordered.appended (forward : StrictMono env.clock)
    (ordered : Ordered env store) (row : Row) : Ordered env (appended env store row) := by
  constructor
  · refine pairwise_append.mpr ⟨ordered.increasing, pairwise_singleton _ _, ?_⟩
    intro before member last isLast
    rw [mem_singleton.mp isLast]
    exact ordered.earlier before member
  · intro before member
    have next : env.clock store.appended < env.clock (store.appended + 1) :=
      forward (Nat.lt_succ_self _)
    rcases mem_append.mp member with older | last
    · exact (ordered.earlier before older).trans next
    · rw [mem_singleton.mp last]
      exact next

/-- A release of a package: an archive that verifies, whose version is the plain name of a
directory that is read back as it was written, whose files all have places of their own, and
whose checkpoint has something to go back to. -/
structure Release (name : String) where
  archive : Archive β
  manifest : Manifest
  files : Dict String β
  isAccepted : accepted env (some archive) = some (manifest, files)
  named : manifest.name = name
  sound : Sound env manifest files
  single : partsOf manifest.version = [manifest.version]
  stripped : strip manifest.version = manifest.version
  lines : universalNewlines manifest.version.toList = manifest.version.toList
  recorded : manifest.files ≠ []
  places : ((versionLeaves env manifest files).map Prod.fst).Nodup

namespace Release

variable {env} {name : String} (release : Release env name)

abbrev version : String :=
  release.manifest.version

def root : Location :=
  installedRoot env name ++ [release.version]

theorem root_eq : rootOf env release.manifest = release.root := by
  unfold rootOf root
  rw [release.single, release.named]

abbrev leaves : List (Leaf β) :=
  versionLeaves env release.manifest release.files

def recordOf (release : Release env name) : String × List (String × String) :=
  (release.version, release.manifest.files.map fun entry => (entry.path, entry.sha256))

theorem version_ne_current : release.version ≠ "CURRENT" := by
  intro same
  apply release.sound.version_away
  have single := release.single
  rw [show release.manifest.version = "CURRENT" from same] at single ⊢
  exact single ▸ prefix_rfl

theorem version_ne_empty : release.version ≠ "" := by
  intro same
  have single := release.single
  rw [show release.manifest.version = "" from same] at single
  revert single
  decide

theorem straight : ".." ∉ release.root :=
  release.root_eq ▸ release.sound.straight

theorem root_away {other : Release env name} (different : release.version ≠ other.version)
    (location : Location) : ¬ release.root <+: other.root ++ location := by
  unfold root
  rw [append_assoc, prefix_append_right_inj, singleton_append, cons_prefix_cons]
  exact fun both => different both.1

theorem root_ne_pointer (location : Location) :
    release.root ++ location ≠ currentPath env name := by
  unfold root currentPath
  rw [append_assoc, Ne, append_cancel_left_eq, singleton_append]
  exact fun same => release.version_ne_current (List.cons.inj same).1

theorem withPackage_own (fs : FileSystem β) (location : Location) :
    withPackage env fs release.manifest release.files (release.root ++ location) =
      treeNode release.leaves location := by
  rw [← root_eq]
  apply withPackage_root
  rw [release.single, singleton_append]
  exact fun same => release.version_ne_current (List.cons.inj same).1

theorem withPackage_away {fs : FileSystem β} {location : Location}
    (notPointer : location ≠ currentPath env name)
    (notInside : ¬ release.root <+: location) (notOnWay : ¬ location <+: release.root) :
    withPackage env fs release.manifest release.files location = fs.lookup location := by
  unfold withPackage withTree
  rw [release.named, if_neg notPointer, root_eq, graft_of_away notInside]
  exact if_neg notOnWay

end Release

variable {env} {name : String}

def publish (release : Release env name) (upgraded : Bool) : Program β Unit :=
  if upgraded then discard (upgrade env (some release.archive))
  else discard (install env (some release.archive))

def HasTree (fs : FileSystem β) (release : Release env name) : Prop :=
  ∀ location, fs.lookup (release.root ++ location) = treeNode release.leaves location

/-- The rows behind some of the last rows have no checkpoint of the package, and these are
the checkpoints of the last releases. -/
def Records (name : String) (rows : List Row) (records : List (String × List (String × String))) :
    Prop :=
  (rows.filter fun row => IsCheckpoint name row).map (fun row => (row.version, row.checkpoint)) =
    records

/-- The state behind some releases, the last one first: their trees are there, the pointer
leads to the last one, no file is in the place of a version, and the journal has their
checkpoints. -/
structure Holding (store : Store β) (releases : List (Release env name)) : Prop where
  able : store.budget = none
  ordered : Ordered env store
  wayFree : NoFile store.fs (installedRoot env name)
  placesFree : ∀ version, version ≠ "CURRENT" →
    ∀ data, store.fs.lookup (installedRoot env name ++ [version]) ≠ some (.file data)
  noDirectory : store.fs.lookup (currentPath env name) ≠ some .directory
  points : ∀ last, releases.head? = some last →
    store.fs.lookup (currentPath env name) = some (.file (env.encode last.version))
  current : currentOf env store name = .ok (releases.head?.map Release.version)
  trees : ∀ release ∈ releases, HasTree store.fs release
  recent : ∀ count ≤ releases.length, ∃ front, front <+: store.journal.reverse ∧
    front.length ≤ 2 * count ∧ Records name front ((releases.take count).map Release.recordOf)

variable {release : Release env name}

theorem HasTree.isDirectory {fs : FileSystem β} (tree : HasTree fs release) :
    fs.lookup release.root = some .directory := by
  have atRoot := tree []
  rw [append_nil] at atRoot
  rw [atRoot]
  exact treeNode_of_way release.sound.consistent manifest_mem nil_prefix nofun

theorem currentOf_pointer (pointer : store.fs.lookup (currentPath env name) =
      some (.file (env.encode release.version))) (tree : HasTree store.fs release) :
    currentOf env store name = .ok (some release.version) := by
  have isDirectory : store.fs.find (installedRoot env name) = some .directory := by
    rw [find_of_straight (installedRoot_straight env name)]
    exact lookup_above_directory tree.isDirectory (prefix_append _ _)
  have isPointer : store.fs.find (currentPath env name) =
      some (.file (env.encode release.version)) :=
    (find_of_straight (currentPath_straight env name)).trans pointer
  have directory : joinPath (installedRoot env name) release.version = release.root := by
    rw [joinPath_of_plain release.sound.version, release.single]
    rfl
  have isVersion : store.fs.find release.root = some .directory :=
    (find_of_straight release.straight).trans tree.isDirectory
  have ends : Ends (fun result _ => result = .ok (some release.version))
      (currentVersion env name) store := by
    unfold currentVersion
    rw [ends_bind, ends_get, andThen_ok]
    dsimp only
    rw [isDirectory, isPointer]
    dsimp only
    rw [env.decode_encode]
    dsimp only
    rw [release.lines, String.ofList_toList, release.stripped, directory, isVersion]
    exact .ite (fun _ => rfl) fun fails => absurd ⟨release.version_ne_empty, rfl⟩ fails
  exact ends

theorem HasTree.published {fs after : FileSystem β} {earlier : Release env name}
    (tree : HasTree fs earlier) (different : release.version ≠ earlier.version)
    (lookup : ∀ location, after.lookup location =
      withPackage env fs release.manifest release.files location) : HasTree after earlier := by
  intro location
  rw [lookup, release.withPackage_away (earlier.root_ne_pointer location)
    (release.root_away different location), tree location]
  intro onWay
  unfold Release.root at onWay
  rw [append_assoc, prefix_append_right_inj, singleton_append, cons_prefix_cons] at onWay
  exact different onWay.1.symm

theorem recent_published {rows later : List Row} {row : Row}
    {record : String × List (String × String)} {records : List (String × List (String × String))}
    (short : later.length ≤ 1) (noCheckpoint : ∀ other ∈ later, other.checkpoint = [])
    (isCheckpoint : IsCheckpoint name row) (isRecord : (row.version, row.checkpoint) = record)
    (recent : ∀ count ≤ records.length, ∃ front, front <+: rows.reverse ∧
      front.length ≤ 2 * count ∧ Records name front (records.take count)) :
    ∀ count ≤ (record :: records).length, ∃ front, front <+: (rows ++ row :: later).reverse ∧
      front.length ≤ 2 * count ∧ Records name front ((record :: records).take count) := by
  intro count within
  cases count with
  | zero => exact ⟨[], nil_prefix, Nat.zero_le _, rfl⟩
  | succ count =>
    obtain ⟨front, isFront, length, recorded⟩ := recent count (Nat.le_of_succ_le_succ within)
    refine ⟨later.reverse ++ row :: front, ?_, ?_, ?_⟩
    · rw [reverse_append, reverse_cons, append_assoc, singleton_append]
      exact (prefix_append_right_inj _).mpr (cons_prefix_cons.mpr ⟨rfl, isFront⟩)
    · rw [length_append, length_reverse, length_cons]
      omega
    · have none : (later.reverse.filter fun other => IsCheckpoint name other) = [] := by
        rw [filter_eq_nil_iff]
        intro other member
        have empty := noCheckpoint other (mem_reverse.mp member)
        simp [IsCheckpoint, empty]
      have kept : decide (IsCheckpoint name row) = true := decide_eq_true isCheckpoint
      unfold Records at recorded ⊢
      rw [filter_append, none, nil_append, filter_cons, if_pos kept,
        map_cons, recorded, isRecord, take_succ_cons]

variable {after : Store β} {previous : Option String} {releases : List (Release env name)}

/-- What is left of an installation of a release: the file system, and the journal with the
row of the installation and perhaps another one. -/
theorem Holding.installed {later : List Row} (holding : Holding store releases)
    (fresh : ∀ earlier ∈ releases, release.version ≠ earlier.version) (able : after.budget = none)
    (ordered : Ordered env after) (lookup : ∀ location, after.fs.lookup location =
      withPackage env store.fs release.manifest release.files location)
    (journal : after.journal = store.journal ++
      installedRow env store release.manifest release.files previous :: later)
    (short : later.length ≤ 1) (noCheckpoint : ∀ row ∈ later, row.checkpoint = []) :
    Holding after (release :: releases) := by
  have ownTree : HasTree after.fs release := fun location =>
    (lookup _).trans (release.withPackage_own store.fs location)
  have pointer : after.fs.lookup (currentPath env name) =
      some (.file (env.encode release.version)) := by
    rw [lookup]
    exact if_pos (by rw [release.named])
  constructor
  · exact able
  · exact ordered
  · intro location below data isFile
    rw [lookup_above_directory ownTree.isDirectory (below.trans (prefix_append _ _))] at isFile
    cases isFile
  · intro version notCurrent data isFile
    have notPointer : installedRoot env name ++ [version] ≠
        currentPath env name := by
      unfold currentPath
      rw [Ne, append_cancel_left_eq]
      exact fun same => notCurrent (List.cons.inj same).1
    by_cases here : version = release.version
    · rw [here] at isFile
      rw [show installedRoot env name ++ [release.version] = release.root from rfl,
        ownTree.isDirectory] at isFile
      cases isFile
    · have apart : ∀ {first second : String}, first ≠ second →
          ¬ installedRoot env name ++ [first] <+:
            installedRoot env name ++ [second] := by
        intro first second different
        rw [prefix_append_right_inj, cons_prefix_cons]
        exact fun both => different both.1
      rw [lookup, release.withPackage_away notPointer (apart (.symm here)) (apart here)] at isFile
      exact holding.placesFree version notCurrent data isFile
  · rw [pointer]
    nofun
  · rintro last ⟨⟩
    exact pointer
  · exact currentOf_pointer pointer ownTree
  · intro other member
    rcases mem_cons.mp member with rfl | earlier
    · exact ownTree
    · exact (holding.trees other earlier).published (fresh other earlier) lookup
  · have checkpoint : IsCheckpoint name
        (installedRow env store release.manifest release.files previous) := by
      refine ⟨nofun, release.named, ?_⟩
      intro empty
      exact release.recorded (map_eq_nil_iff.mp empty)
    have recent : ∀ count ≤ (releases.map Release.recordOf).length,
        ∃ front, front <+: store.journal.reverse ∧ front.length ≤ 2 * count ∧
          Records name front ((releases.map Release.recordOf).take count) := by
      intro count within
      rw [length_map] at within
      rw [← map_take]
      exact holding.recent count within
    intro count within
    rw [map_take, map_cons, journal]
    exact recent_published short noCheckpoint checkpoint rfl recent count (by simpa using within)

theorem Holding.installs (holding : Holding store releases) (release : Release env name) :
    Ends (fun result after => result = .ok (releases.head?.map Release.version) ∧
        IsInstalled env store release.manifest release.files
          (releases.head?.map Release.version) after)
      (install env (some release.archive)) store := by
  rw [install_of_accepted release.isAccepted]
  apply installFiles_done env release.sound holding.able
  · rw [release.root_eq]
    intro location onWay data
    rcases prefix_concat_iff.mp onWay with here | above
    · rw [here]
      exact holding.placesFree release.version release.version_ne_current data
    · exact holding.wayFree location above data
  · rw [release.named]
    exact fun isDirectory => absurd isDirectory holding.noDirectory
  · rw [release.named]
    exact holding.current

section

variable {manifest : Manifest} {files : Dict String β}
  (installed : IsInstalled env store manifest files previous after)
include installed

theorem IsInstalled.able (able : store.budget = none) : after.budget = none := by
  rw [installed.rest]
  exact able

theorem IsInstalled.ordered (forward : StrictMono env.clock)
    (ordered : Ordered env store) : Ordered env after := by
  have appended := ordered.appended env forward (installedRow env store manifest files previous)
  rw [installed.rest]
  exact ⟨appended.increasing, appended.earlier⟩

end

theorem publish_holding (forward : StrictMono env.clock)
    (release : Release env name) {upgraded : Bool} (holding : Holding store releases)
    (fresh : ∀ earlier ∈ releases, release.version ≠ earlier.version)
    (possible : upgraded = true → releases ≠ []) :
    Ends (fun result after => result = .ok () ∧ Holding after (release :: releases))
      (publish release upgraded) store := by
  unfold publish
  cases upgraded with
  | false =>
    rw [if_neg Bool.false_ne_true, ends_discard]
    apply Ends.mono (holding.installs release)
    rintro result after ⟨rfl, installed⟩
    have journal : after.journal = store.journal ++ installedRow env store
        release.manifest release.files (releases.head?.map Release.version) :: [] := by
      rw [installed.rest]
    exact ⟨rfl, holding.installed fresh (installed.able holding.able)
      (installed.ordered forward holding.ordered) installed.lookup journal (Nat.zero_le 1)
      nofun⟩
  | true =>
    obtain ⟨last, others, rfl⟩ := exists_cons_of_ne_nil (possible rfl)
    have current : currentOf env store release.manifest.name =
        .ok (some last.version) := by
      rw [release.named]
      exact holding.current
    rw [if_pos rfl, ends_discard]
    unfold upgrade
    rw [(readArchive_of_accepted release.isAccepted).1]
    rw [ends_bind, ends_currentVersion, current, andThen_ok]
    rw [ends_ite, if_neg (fresh last mem_cons_self), ends_bind, ends_discard]
    apply Ends.mono (holding.installs release)
    rintro result between ⟨rfl, installed⟩
    have able := installed.able holding.able
    rw [andThen_ok, ends_pure, andThen_ok, ends_bind, ends_appendJournal env able,
      andThen_ok, ends_pure]
    have ordered := (installed.ordered forward holding.ordered).appended env forward
      { ts := 0
        action := .upgrade
        name := release.manifest.name
        version := release.manifest.version
        previousVersion := some last.version }
    have journal : between.journal ++ [{ ts := env.clock between.appended
                                         action := .upgrade
                                         name := release.manifest.name
                                         version := release.manifest.version
                                         previousVersion := some last.version }] =
        store.journal ++ installedRow env store release.manifest release.files
          (some last.version) :: [{ ts := env.clock between.appended
                                    action := .upgrade
                                    name := release.manifest.name
                                    version := release.manifest.version
                                    previousVersion := some last.version }] := by
      rw [installed.rest, append_assoc]
      rfl
    refine ⟨rfl, holding.installed fresh able ordered installed.lookup journal (Nat.le_refl 1) ?_⟩
    intro row member
    rw [mem_singleton.mp member]

end AgenticOS.Packages
