import AgenticOS.Packages.Isolation

/-!
# Packing and installing again

What is packed reads back as the packed manifest, verifies, and installs to exactly the
files of the directory with the manifest, if the directory has no links, no two names of one
file, and nothing under the name of the manifest.

These directories are packed all the same, but an archive stores a link, and a second name of
a file, without its data, and the reader takes the last member with the name of the manifest
for the manifest: such a package does not verify, or cannot be installed.
-/

namespace AgenticOS.Packages

open FileSystem Transition List

variable {β : Type} (env : Environment β)

/-- The files that are found under a directory: each has a path that leads straight down to
it, no two have one path, and no file lies below another one. -/
structure Directory (β : Type) where
  files : List (SourceFile β)
  posix : ∀ file ∈ files, "/".intercalate (partsOf file.path) = file.path
  plain : ∀ file ∈ files, IsPlain file.path
  named : ∀ file ∈ files, partsOf file.path ≠ []
  distinct : (files.map SourceFile.path).Nodup
  treelike : ∀ first ∈ files, ∀ second ∈ files,
    partsOf first.path <+: partsOf second.path → first = second

/-- No file is a link, no two are names of one file, and none has the name of the manifest,
nor lies in a directory of this name. -/
structure Packable (files : List (SourceFile β)) : Prop where
  noLink : ∀ file ∈ files, file.isSymlink = false
  inodes : (files.map SourceFile.inode).Nodup
  noManifest : ∀ file ∈ files, (partsOf file.path).head? ≠ some manifestName

def packedArchive (request : PackRequest) (files : List (SourceFile β)) : Archive β :=
  ⟨manifestName, .regular (env.dumps (packedManifest env request files))⟩ ::
    addFiles [] files

/-- The tree of the version has exactly the files, with their data, and the manifest. -/
structure Materialised (request : PackRequest) (files : List (SourceFile β))
    (fs : FileSystem β) : Prop where
  manifest : fs.find (versionRoot env (strip request.name) (strip request.version) ++
    [manifestName]) = some (.file (env.dumps (packedManifest env request files)))
  present : ∀ file ∈ files, fs.find (versionRoot env (strip request.name)
    (strip request.version) ++ partsOf file.path) = some (.file file.data)
  only : ∀ location data, ".." ∉ location → fs.find (versionRoot env
    (strip request.name) (strip request.version) ++ location) = some (.file data) →
      location = [manifestName] ∨ ∃ file ∈ files, location = partsOf file.path

/-- The files are packed, what was packed reads back as the packed manifest and verifies, and
its installation materialises the files. -/
def RoundTrips (request : PackRequest) (files : List (SourceFile β)) (store : Store β) : Prop :=
  Ends (fun result packed => ∃ archive, result = .ok archive ∧
      (∃ contents, readArchive env (some archive) =
          .ok (packedManifest env request files, contents) ∧
        verified env (packedManifest env request files) contents = true) ∧
      Ends (fun installed after => (∃ previous, installed = .ok previous) ∧
        Materialised env request files after.fs)
        (install env (some archive)) packed)
    (pack env request files) store

/-- The version is the path of a directory below the one of the package, and is not in the
place of the pointer. -/
def IsVersionPath (version : String) : Prop :=
  IsPlain version ∧ partsOf version ≠ [] ∧ (partsOf version).head? ≠ some "CURRENT"
deriving Decidable

/-- Nothing is in the way of a version: the system makes all changes, no file is on the way to
its directory, and the pointer is missing or a file that can be read. -/
structure Ready (store : Store β) (name version : String) : Prop where
  able : store.budget = none
  noFile : NoFile store.fs (installedRoot env name ++ partsOf version)
  noDirectory : store.fs.lookup (currentPath env name) ≠ some .directory
  readable : ∀ data, store.fs.lookup (currentPath env name) = some (.file data) →
    env.decode data ≠ none

section

variable (request : PackRequest) {files : List (SourceFile β)} {inodes : List Nat}

theorem addFiles_names : (addFiles inodes files).map Member.name = files.map SourceFile.path := by
  induction files generalizing inodes with
  | nil => rfl
  | cons file files ih =>
    unfold addFiles
    split
    · simp [ih]
    · split
      · simp [ih]
      · simp [ih]

theorem addFiles_of_packable (noLink : ∀ file ∈ files, file.isSymlink = false)
    (distinct : (inodes ++ files.map SourceFile.inode).Nodup) :
    addFiles inodes files = files.map fun file => ⟨file.path, .regular file.data⟩ := by
  induction files generalizing inodes with
  | nil => rfl
  | cons file files ih =>
    have regular : file.isSymlink = false := noLink file mem_cons_self
    have newInode : file.inode ∉ inodes := by
      intro member
      exact (nodup_append.mp distinct).2.2 file.inode member file.inode mem_cons_self rfl
    unfold addFiles
    rw [regular, if_neg Bool.false_ne_true, if_neg newInode, map_cons, ih]
    · exact fun other member => noLink other (mem_cons_of_mem file member)
    · exact (perm_middle.nodup_iff).mp distinct

theorem packable_of_stored (distinct : (files.map SourceFile.path).Nodup)
    (stored : ∀ file ∈ files, ∃ data, ⟨file.path, .regular data⟩ ∈ addFiles inodes files) :
    (∀ file ∈ files, file.isSymlink = false ∧ file.inode ∉ inodes) ∧
      (files.map SourceFile.inode).Nodup := by
  induction files generalizing inodes with
  | nil => exact ⟨nofun, nodup_nil⟩
  | cons file files ih =>
    obtain ⟨newPath, distinctRest⟩ := nodup_cons.mp distinct
    obtain ⟨data, member⟩ := stored file mem_cons_self
    have notLater : ∀ content inodes, ⟨file.path, content⟩ ∉ addFiles inodes files := by
      intro content inodes later
      apply newPath
      rw [← addFiles_names]
      exact mem_map_of_mem later
    unfold addFiles at member stored
    split at member
    case isTrue =>
      rcases mem_cons.mp member with here | later
      · cases here
      · exact absurd later (notLater _ _)
    case isFalse regular =>
      split at member
      case isTrue =>
        rcases mem_cons.mp member with here | later
        · cases here
        · exact absurd later (notLater _ _)
      case isFalse newInode =>
        rw [if_neg regular, if_neg newInode] at stored
        have rest := ih distinctRest fun other otherMember => by
          obtain ⟨otherData, otherStored⟩ := stored other (mem_cons_of_mem file otherMember)
          rcases mem_cons.mp otherStored with here | later
          · have samePath : other.path = file.path := congrArg Member.name here
            exact absurd (samePath ▸ mem_map_of_mem otherMember) newPath
          · exact ⟨otherData, later⟩
        constructor
        · intro other otherMember
          rcases mem_cons.mp otherMember with rfl | later
          · exact ⟨Bool.eq_false_iff.mpr regular, newInode⟩
          · obtain ⟨otherRegular, otherNew⟩ := rest.1 other later
            exact ⟨otherRegular, fun old => otherNew (mem_cons_of_mem _ old)⟩
        · rw [map_cons, nodup_cons]
          refine ⟨fun again => ?_, rest.2⟩
          obtain ⟨other, otherMember, sameInode⟩ := mem_map.mp again
          exact (rest.1 other otherMember).2 (sameInode ▸ mem_cons_self)

section

variable (noManifest : ∀ file ∈ files, file.path ≠ manifestName)
include noManifest

theorem regularFiles_packed
    (stored : addFiles [] files = files.map fun file => ⟨file.path, .regular file.data⟩) :
    regularFiles (packedArchive env request files) =
      files.map fun file => (file.path, file.data) := by
  unfold regularFiles packedArchive
  rw [stored]
  simp only [filterMap_cons, if_pos, filterMap_map]
  rw [← filterMap_eq_map]
  apply filterMap_congr
  intro file member
  exact if_neg (noManifest file member)

theorem extractManifest_packed : extractManifest env (packedArchive env request files) =
      some (env.dumps (packedManifest env request files)) := by
  have none : (addFiles [] files).reverse.find? (fun member => member.name = manifestName) =
      none := by
    rw [find?_eq_none]
    intro member isMember
    have isName : member.name ∈ files.map SourceFile.path := by
      rw [← addFiles_names]
      exact mem_map_of_mem (mem_reverse.mp isMember)
    obtain ⟨file, fileMember, same⟩ := mem_map.mp isName
    rw [← same]
    simpa using noManifest file fileMember
  unfold extractManifest packedArchive
  rw [reverse_cons, find?_append, none]
  simp

theorem readArchive_packed : readArchive env (some (packedArchive env request files)) =
      .ok (packedManifest env request files,
        .ofList (regularFiles (packedArchive env request files))) := by
  have isNamed : manifestName ∈
      (packedArchive env request files).map Member.name := mem_cons_self
  unfold readArchive
  dsimp only
  rw [if_neg (not_not_intro isNamed), extractManifest_packed env request noManifest]
  dsimp only
  rw [env.loads_dumps]

end

theorem verified_packed (distinct : (files.map SourceFile.path).Nodup) :
    verified env (packedManifest env request files)
      (.ofList (files.map fun file => (file.path, file.data))) = true := by
  have keys : (files.map fun file => (file.path, file.data)).map Prod.fst =
      files.map SourceFile.path := by
    rw [map_map]
    rfl
  have entries := Dict.entries_ofList (keys ▸ distinct)
  have listed : (packedManifest env request files).files.map FileEntry.path =
      files.map SourceFile.path := by
    change (files.map (fileEntry env)).map FileEntry.path = _
    rw [map_map]
    rfl
  have signed : signatureOk env (packedManifest env request files) = true := decide_eq_true rfl
  have noProblem : (packedManifest env request files).files.flatMap
      (entryProblems env (.ofList (files.map fun file => (file.path, file.data)))) =
        [] := by
    rw [flatMap_eq_nil_iff]
    intro entry member
    obtain ⟨file, fileMember, rfl⟩ := mem_map.mp member
    have found : (Dict.ofList (files.map fun file => (file.path, file.data))).get? file.path =
        some file.data := by
      rw [Dict.get?_eq_some_iff, entries]
      exact mem_map.mpr ⟨file, fileMember, rfl⟩
    unfold entryProblems
    simp [fileEntry, found]
  have noneUnlisted : ((Dict.ofList (files.map fun file => (file.path, file.data))).keys.filter
      fun path => path ∉ (packedManifest env request files).files.map FileEntry.path) =
        [] := by
    rw [listed, filter_eq_nil_iff]
    intro path member
    rw [Dict.mem_keys_ofList, keys] at member
    simpa using member
  unfold verified problems
  rw [signed, noProblem, noneUnlisted]
  rfl

end

/-! ## Packing and installing -/

section

variable (request : PackRequest) {store : Store β}

variable (store) in
theorem pack_ends {files : List (SourceFile β)} (named : strip request.name ≠ "")
    (versioned : strip request.version ≠ "") (nonempty : files ≠ []) :
    ∃ packed : Store β, packed.fs = store.fs ∧ (store.budget = none → packed.budget = none) ∧
      ∀ property, Ends property (pack env request files) store ↔
        property (.ok (packedArchive env request files)) packed := by
  have run : ∀ property, Ends property (pack env request files) store ↔
      property (.ok (packedArchive env request files))
        (finalState (appendJournal env
          { ts := 0
            action := .pack
            name := strip request.name
            version := strip request.version
            files := files.length } store)) := by
    intro property
    unfold pack
    rw [if_neg (not_or.mpr ⟨named, versioned⟩), if_neg nonempty]
    exact .rfl
  refine ⟨_, ?_, ?_, run⟩
  · refine (appendJournal_framed env ?_).2.1
    exact nofun
  · intro able
    exact ((ends_appendJournal env able _).mpr able :
      Ends (fun _ after => after.budget = none) _ store)

variable {contents : Dict String β}

theorem contents_of_readArchive {archive : Archive β} {manifest : Manifest}
    (read : readArchive env (some archive) = .ok (manifest, contents)) :
    contents = .ofList (regularFiles archive) := by
  unfold readArchive at read
  dsimp only at read
  split at read
  · cases read
  · split at read
    · cases read
    · split at read
      · cases read
      · cases read
        rfl

theorem stored_of_regular {files : List (SourceFile β)} {path : String} {data : β}
    (regular : (path, data) ∈ regularFiles (packedArchive env request files)) :
    path ≠ manifestName ∧ ⟨path, .regular data⟩ ∈ addFiles [] files := by
  obtain ⟨⟨name, content⟩, member, isFile⟩ := mem_filterMap.mp regular
  cases content with
  | link | other => cases isFile
  | regular stored =>
    dsimp only at isFile
    split at isFile
    case isTrue => cases isFile
    case isFalse notManifest =>
      cases isFile
      refine ⟨notManifest, (mem_cons.mp member).resolve_left ?_⟩
      rintro ⟨⟩
      exact notManifest rfl

variable {directory : Directory β}

theorem packable_of_roundTrips (named : strip request.name ≠ "")
    (versioned : strip request.version ≠ "") (nonempty : directory.files ≠ [])
    (roundTrips : RoundTrips env request directory.files store) : Packable directory.files := by
  obtain ⟨packed, -, -, run⟩ := pack_ends env request store named versioned nonempty
  obtain ⟨archive, isArchive, ⟨contents, read, isVerified⟩, -, materialised⟩ :=
    (run _).mp roundTrips
  cases isArchive
  have stored : ∀ file ∈ directory.files, ∃ data, file.path ≠ manifestName ∧
      ⟨file.path, .regular data⟩ ∈ addFiles [] directory.files := by
    intro file member
    obtain ⟨data, isData, -⟩ := listed_of_verified isVerified
      (mem_map_of_mem member : fileEntry env file ∈ _)
    rw [contents_of_readArchive env read] at isData
    exact ⟨data, stored_of_regular env request (Dict.mem_of_get?_ofList isData)⟩
  have separate := packable_of_stored directory.distinct fun file member =>
    (stored file member).imp fun _ => And.right
  refine ⟨fun file member => (separate.1 file member).1, separate.2, ?_⟩
  intro file member first
  obtain ⟨rest, parts⟩ := head?_eq_some_iff.mp first
  by_cases last : rest = []
  · have path := directory.posix file member
    rw [parts, last] at path
    obtain ⟨data, notManifest, -⟩ := stored file member
    exact notManifest path.symm
  · have below := materialised.present file member
    have nothing := find_behind_file materialised.manifest last
    rw [parts] at below
    rw [append_assoc, singleton_append, below] at nothing
    cases nothing

section

variable (entries : contents.entries = directory.files.map fun file => (file.path, file.data))
include entries

theorem versionLeaves_packed :
    versionLeaves env (packedManifest env request directory.files) contents =
      ([manifestName], env.dumps (packedManifest env request directory.files)) ::
        directory.files.map fun file => (partsOf file.path, file.data) := by
  unfold versionLeaves
  rw [entries, map_map]
  rfl

theorem sound_packed (packable : Packable directory.files)
    (isPath : IsVersionPath (strip request.version)) :
    Sound env (packedManifest env request directory.files) contents := by
  have leaves := versionLeaves_packed env request entries
  constructor
  · exact isPath.1
  · intro file member
    rw [entries] at member
    obtain ⟨source, sourceMember, rfl⟩ := mem_map.mp member
    exact directory.plain source sourceMember
  · rw [leaves]
    intro first firstMember second secondMember below
    rcases mem_cons.mp firstMember with rfl | firstMember
    · rcases mem_cons.mp secondMember with rfl | secondMember
      · rfl
      · obtain ⟨file, member, rfl⟩ := mem_map.mp secondMember
        obtain ⟨rest, parts⟩ := below
        dsimp only at parts
        apply absurd _ (packable.noManifest file member)
        rw [← parts]
        rfl
    · obtain ⟨file, member, rfl⟩ := mem_map.mp firstMember
      rcases mem_cons.mp secondMember with rfl | secondMember
      · obtain ⟨name, rest, parts⟩ := exists_cons_of_ne_nil (directory.named file member)
        rw [parts, cons_prefix_cons] at below
        apply absurd _ (packable.noManifest file member)
        rw [parts, below.1]
        rfl
      · obtain ⟨other, otherMember, rfl⟩ := mem_map.mp secondMember
        rw [directory.treelike file member other otherMember below]
  · intro leaf _ below
    obtain ⟨first, rest, parts⟩ := exists_cons_of_ne_nil isPath.2.1
    change ["CURRENT"] <+: partsOf (strip request.version) ++ leaf.1 at below
    rw [parts, cons_append, cons_prefix_cons] at below
    apply absurd _ isPath.2.2
    rw [parts, ← below.1]
    rfl

theorem distinct_packed (packable : Packable directory.files) :
    ((versionLeaves env (packedManifest env request directory.files)
      contents).map Prod.fst).Nodup := by
  rw [versionLeaves_packed env request entries, map_cons, map_map, nodup_cons]
  constructor
  · intro again
    obtain ⟨file, member, parts⟩ := mem_map.mp again
    change partsOf file.path = [manifestName] at parts
    apply absurd _ (packable.noManifest file member)
    rw [parts]
    rfl
  · apply List.Nodup.map_on _ (.of_map _ directory.distinct)
    intro file member other otherMember same
    change partsOf file.path = partsOf other.path at same
    exact directory.treelike file member other otherMember (same ▸ prefix_rfl)

theorem materialised_of_installed {after : Store β} (packable : Packable directory.files)
    (isPath : IsVersionPath (strip request.version))
    (lookup : ∀ location, after.fs.lookup location = withPackage env store.fs
      (packedManifest env request directory.files) contents location) :
    Materialised env request directory.files after.fs := by
  have sound := sound_packed env request entries packable isPath
  have distinct := distinct_packed env request entries packable
  have found : ∀ location, ".." ∉ location → after.fs.find (versionRoot env
      (strip request.name) (strip request.version) ++ location) =
        treeNode (versionLeaves env
          (packedManifest env request directory.files) contents) location := by
    intro location straight
    have root : versionRoot env (strip request.name) (strip request.version) =
        rootOf env (packedManifest env request directory.files) :=
      sound.versionRoot
    rw [root, find_of_straight, lookup]
    · apply withPackage_root
      intro pointer
      obtain ⟨first, rest, parts⟩ := exists_cons_of_ne_nil isPath.2.1
      change partsOf (strip request.version) ++ location = ["CURRENT"] at pointer
      rw [parts, cons_append] at pointer
      apply absurd _ isPath.2.2
      rw [parts, (List.cons.inj pointer).1]
      rfl
    · exact fun member => (mem_append.mp member).elim sound.straight straight
  have manifestMember : (([manifestName] : Location), env.dumps
      (packedManifest env request directory.files)) ∈ versionLeaves env
        (packedManifest env request directory.files) contents := mem_cons_self
  constructor
  · rw [found _ (by decide)]
    exact treeNode_of_mem distinct manifestMember
  · intro file member
    rw [found _ (directory.plain file member).2]
    have isLeaf : (partsOf file.path, file.data) ∈ versionLeaves env
        (packedManifest env request directory.files) contents := by
      rw [versionLeaves_packed env request entries]
      exact mem_cons_of_mem _ (mem_map.mpr ⟨file, member, rfl⟩)
    exact treeNode_of_mem distinct isLeaf
  · intro location data straight isFile
    rw [found location straight] at isFile
    have isLeaf := mem_of_treeNode isFile
    rw [versionLeaves_packed env request entries, mem_cons] at isLeaf
    rcases isLeaf with here | below
    · exact .inl (congrArg Prod.fst here)
    · obtain ⟨file, member, same⟩ := mem_map.mp below
      exact .inr ⟨file, member, (congrArg Prod.fst same).symm⟩

end

theorem roundTrips_of_packable (named : strip request.name ≠ "")
    (versioned : strip request.version ≠ "") (nonempty : directory.files ≠ [])
    (packable : Packable directory.files) (isPath : IsVersionPath (strip request.version))
    (ready : Ready env store (strip request.name) (strip request.version)) :
    RoundTrips env request directory.files store := by
  obtain ⟨packed, sameFiles, able, run⟩ :=
    pack_ends env request store named versioned nonempty
  have noManifest : ∀ file ∈ directory.files, file.path ≠ manifestName := by
    intro file member path
    apply packable.noManifest file member
    rw [path]
    decide
  have stored : addFiles [] directory.files =
      directory.files.map fun file => ⟨file.path, .regular file.data⟩ :=
    addFiles_of_packable packable.noLink packable.inodes
  have regular := regularFiles_packed env request noManifest stored
  have read := readArchive_packed env request noManifest
  rw [regular] at read
  have isVerified := verified_packed env request directory.distinct
  have keys : (directory.files.map fun file => (file.path, file.data)).map Prod.fst =
      directory.files.map SourceFile.path := by
    rw [map_map]
    rfl
  have entries := Dict.entries_ofList (keys ▸ directory.distinct)
  have isAccepted : accepted env
      (some (packedArchive env request directory.files)) =
        some (packedManifest env request directory.files,
          .ofList (directory.files.map fun file => (file.path, file.data))) := by
    unfold accepted
    rw [read]
    exact if_pos isVerified
  refine (run _).mpr ⟨_, rfl, ⟨_, read, isVerified⟩, ?_⟩
  rw [install_of_accepted isAccepted]
  have sound := sound_packed env request entries packable isPath
  obtain ⟨able', noFile, noDirectory, readable⟩ := ready
  rw [← sameFiles] at noFile noDirectory readable
  obtain ⟨previous, current⟩ := currentOf_readable env readable
  apply Ends.mono (installFiles_done env sound (able able') noFile
    (fun isDirectory => absurd isDirectory noDirectory) current)
  rintro result after ⟨rfl, installed⟩
  exact ⟨⟨previous, rfl⟩,
    materialised_of_installed env request entries packable isPath installed.lookup⟩

/-- Packing and installing gives the files back where nothing is in the way of the version and
the directory is packable; it never does so for a directory that is not. -/
theorem package_round_trip {directory : Directory β} (named : strip request.name ≠ "")
    (versioned : strip request.version ≠ "") (nonempty : directory.files ≠ []) :
    (RoundTrips env request directory.files store → Packable directory.files) ∧
    (IsVersionPath (strip request.version) →
      Ready env store (strip request.name) (strip request.version) →
        Packable directory.files → RoundTrips env request directory.files store) :=
  ⟨packable_of_roundTrips env request named versioned nonempty,
    fun isPath ready packable =>
      roundTrips_of_packable env request named versioned nonempty packable isPath ready⟩

end

/-! ## Small directories -/

def plainRequest : PackRequest where
  name := "tool"
  version := "1.0"

/-- A file at the root, which may be a link, and a file in a directory. -/
def runDirectory (isSymlink : Bool) : Directory (Manifest ⊕ String) where
  files := [{ path := "run", data := .inr "text", isSymlink, inode := 1 },
    { path := "docs/use", data := .inr "help", inode := 2 }]
  posix := by decide +revert
  plain := by decide +revert
  named := by decide +revert
  distinct := by decide +revert
  treelike := by
    have apart : ¬ partsOf "run" <+: partsOf "docs/use" ∧
        ¬ partsOf "docs/use" <+: partsOf "run" := by
      decide
    simp [apart]

def manifestDirectory : Directory (Manifest ⊕ String) where
  files := [{ path := "manifest.json", data := .inr "text", inode := 1 }]
  posix := by decide
  plain := by decide
  named := by decide
  distinct := nodup_singleton _
  treelike := by simp

theorem ready_plainStart : Ready plainEnvironment plainStart "tool" "1.0" where
  able := rfl
  noFile := noFile_plainStart _
  noDirectory := by
    nofun
  readable data found := by
    cases found

theorem package_round_trip_run :
    RoundTrips plainEnvironment plainRequest (runDirectory false).files plainStart := by
  refine (package_round_trip plainEnvironment plainRequest (by decide) (by decide)
    (cons_ne_nil _ _)).2 (by decide) ready_plainStart ⟨?_, ?_, ?_⟩ <;> decide

/-- Neither a link nor a file with the name of the manifest round trips. -/
theorem links_and_manifests_lost :
    (¬ RoundTrips plainEnvironment plainRequest (runDirectory true).files plainStart) ∧
    ¬ RoundTrips plainEnvironment plainRequest manifestDirectory.files plainStart := by
  constructor
  · intro roundTrips
    have packable := packable_of_roundTrips plainEnvironment plainRequest (by decide)
      (by decide) (cons_ne_nil _ _) roundTrips
    cases packable.noLink _ mem_cons_self
  · intro roundTrips
    have packable := packable_of_roundTrips plainEnvironment plainRequest (by decide)
      (by decide) (cons_ne_nil _ _) roundTrips
    apply packable.noManifest _ mem_cons_self
    decide

end AgenticOS.Packages
