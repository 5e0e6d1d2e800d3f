import AgenticOS.Data.FileSystem
import AgenticOS.Transition.Outcome
import Mathlib.Algebra.Order.Ring.Rat

/-!
# The agent package manager

A package is an archive with a signed manifest. To install it is to verify the archive, to
write its files into a tree of the version and to point the `CURRENT` file of the package to
the version; each installation leaves a checkpoint in a journal, from which a rollback picks
the version to go back to.

The trees lie in a file system; the journal lies beside them. JSON, the hashes, the
signature and the reading of archives are taken as given. Any change of the file system may
fail, after which the operation raises: a store has the number of changes that the system is
still going to make.
-/

namespace AgenticOS.Packages

open FileSystem Transition

/-- The characters that `str.strip` removes. -/
def isSpace (char : Char) : Bool :=
  let code := char.toNat
  (9 ≤ code && code ≤ 13) || (28 ≤ code && code ≤ 32) || code == 0x85 || code == 0xA0 ||
    code == 0x1680 || (0x2000 ≤ code && code ≤ 0x200A) || code == 0x2028 || code == 0x2029 ||
    code == 0x202F || code == 0x205F || code == 0x3000

/-- Remove characters from both ends. -/
def stripOf (removed : Char → Bool) (text : String) : String :=
  String.ofList (((text.toList.dropWhile removed).reverse.dropWhile removed).reverse)

def strip (text : String) : String :=
  stripOf isSpace text

/-- What is read of a text that was written: other ends of lines become newlines. -/
def universalNewlines : List Char → List Char
  | '\r' :: '\n' :: rest => '\n' :: universalNewlines rest
  | '\r' :: rest => '\n' :: universalNewlines rest
  | char :: rest => char :: universalNewlines rest
  | [] => []

/-- The parts of a path, without those that lead nowhere. -/
def partsOf (path : String) : List String :=
  ((path.toList.splitOn '/').map String.ofList).filter fun part => part ≠ "" ∧ part ≠ "."

/-- `dir / path`. -/
def joinPath (dir : List String) (path : String) : List String :=
  if path.toList.head? = some '/' then partsOf path else dir ++ partsOf path

/-- The text of an absolute path. -/
def render (location : Location) : String :=
  if location = [] then "/"
  else String.ofList (location.flatMap fun name => '/' :: name.toList)

structure FileEntry where
  path : String
  size : Nat
  sha256 : String
deriving DecidableEq

structure Manifest where
  name : String
  version : String
  entrypoint : String := ""
  description : String := ""
  capabilities : List String := []
  files : List FileEntry := []
  createdAt : ℚ := 0
  algorithm : String := "HMAC-SHA256"
  signature : Option String := none
deriving DecidableEq

def manifestName : String :=
  "manifest.json"

/-- How a member of an archive is stored. -/
inductive Content (β : Type) where
  | regular (data : β)
  | link
  | other

structure Member (β : Type) where
  name : String
  content : Content β

abbrev Archive (β : Type) := List (Member β)

/-- What the manager takes as given. -/
structure Environment (β : Type) where
  /-- The parts of the data directory. -/
  dataDir : List String
  sha256 : β → String
  size : β → Nat
  /-- The signature of a manifest without a signature, by the local key. -/
  sign : Manifest → String
  /-- `json.dumps` of a manifest, with an indent and sorted keys. -/
  dumps : Manifest → β
  loads : β → Option Manifest
  encode : String → β
  decode : β → Option String
  /-- What the archive has for a link. -/
  follow : Archive β → String → Option β
  repr : String → String
  /-- The times at which rows are appended to the journal, by their numbers. -/
  clock : Nat → ℚ
  loads_dumps : ∀ manifest, loads (dumps manifest) = some manifest
  decode_encode : ∀ text, decode (encode text) = some text
  straight : ".." ∉ dataDir

/-- What an operation may raise. -/
inductive Raised where
  | os (error : OSError)
  | package (message : String)
  | unicode
deriving DecidableEq

inductive JournalAction where
  | pack
  | install
  | upgrade
  | rollback
deriving DecidableEq

/-- A row of the journal; without a checkpoint, or with an empty one, it has nothing to go
back to. -/
structure Row where
  ts : ℚ
  action : JournalAction
  name : String
  version : String
  previousVersion : Option String := none
  files : Nat := 0
  checkpoint : List (String × String) := []

/-- The trees, the journal in the order of its lines, how many rows it was tried to append,
and how many changes the system will make before one fails, if ever. -/
structure Store (β : Type) where
  fs : FileSystem β
  journal : List Row := []
  appended : Nat := 0
  budget : Option Nat := none

abbrev Program (β : Type) := EStateM Raised (Store β)

variable {β : Type}

section

def change (attempt : FileSystem β → Except OSError (FileSystem β)) : Program β Unit := do
  let store ← get
  match attempt store.fs, store.budget with
  | .error error, _ => throw (.os error)
  | .ok _, some 0 => throw (.os .failed)
  | .ok fs, some (budget + 1) => set { store with fs, budget := some budget }
  | .ok fs, none => set { store with fs }

/-- `os.mkdir`. -/
def osMkdir (path : List String) : Program β Unit :=
  change fun fs => do
    let location ← fs.walk path []
    if placeable : fs.Placeable location .directory ∧ fs.lookup location = none then
      return fs.put location .directory placeable.1
    else .error .fileExists

def writeBytes (path : List String) (data : β) : Program β Unit :=
  change fun fs => do
    let location ← fs.walk path []
    if placeable : fs.Placeable location (.file data) then
      return fs.put location (.file data) placeable
    else .error .isADirectory

/-- Remove what is at a location, if nothing lies below it. -/
def removeAt (location : Location) (fs : FileSystem β) : Except OSError (FileSystem β) :=
  if fs.lookup location = none then .error .fileNotFound
  else if leaf : location ≠ [] ∧ fs.IsLeaf location then .ok (fs.remove location leaf.2)
  else .error .directoryNotEmpty

/-- `os.rmdir`. -/
def osRmdir (path : List String) : Program β Unit :=
  change fun fs => do removeAt (← fs.walk path []) fs

/-- `path.mkdir(exist_ok=existOk)`, behind the parents. -/
def mkdirLast (existOk : Bool) (path : List String) : Program β Unit :=
  tryCatch (osMkdir path) fun raised => do
    if existOk ∧ (← get).fs.find path = some .directory then pure () else throw raised

/-- `path.mkdir(parents=True, exist_ok=existOk)`, on the reversed parts of the path. -/
def mkdirParents (existOk : Bool) : List String → Program β Unit
  | [] => mkdirLast existOk []
  | name :: up =>
    let path := (name :: up).reverse
    tryCatch (osMkdir path) fun raised => do
      if raised = .os .fileNotFound then
        mkdirParents true up
        mkdirLast existOk path
      else if existOk ∧ (← get).fs.find path = some .directory then pure ()
      else throw raised

def mkdir (existOk : Bool) (path : List String) : Program β Unit :=
  mkdirParents existOk path.reverse

def below (fs : FileSystem β) (location : Location) : List Location :=
  (fs.nodes.keys.filter fun key => location.isPrefixOf key && key != location).insertionSort
    fun first second => second.length ≤ first.length

def rmtree (path : List String) : Program β Unit := do
  let fs := (← get).fs
  match fs.walk path [] with
  | .error error => throw (.os error)
  | .ok location =>
    if fs.lookup location = some .directory then
      (below fs location).forM fun location => change (removeAt location)
      osRmdir path
    else throw (.os .notADirectory)

end

/-! ## The journal -/

section

variable (env : Environment β)

/-- `_append_journal`: where it fails, the row is lost. -/
def appendJournal (row : Row) : Program β Unit :=
  modify fun store =>
    let row := { row with ts := env.clock store.appended }
    let store := { store with appended := store.appended + 1 }
    match store.budget with
    | none => { store with journal := store.journal ++ [row] }
    | some 0 => store
    | some (budget + 1) => { store with journal := store.journal ++ [row], budget := some budget }

/-- `journal`. -/
def journalRows (rows : List Row) (limit : Nat) : List Row :=
  (rows.insertionSort fun first second => second.ts ≤ first.ts).take limit

/-- A file under the directory that is packed: its relative path, its data, whether it is a
link to a file, and its inode. -/
structure SourceFile (β : Type) where
  path : String
  data : β
  isSymlink : Bool := false
  inode : Nat

def fileEntry (file : SourceFile β) : FileEntry where
  path := file.path
  size := env.size file.data
  sha256 := env.sha256 file.data

/-- `tar.add` of the files, with the inodes that are in the archive already: a link, and a
second name of an inode, are stored as links. -/
def addFiles (inodes : List Nat) : List (SourceFile β) → Archive β
  | [] => []
  | file :: files =>
    if file.isSymlink then ⟨file.path, .link⟩ :: addFiles inodes files
    else if file.inode ∈ inodes then ⟨file.path, .link⟩ :: addFiles inodes files
    else ⟨file.path, .regular file.data⟩ :: addFiles (file.inode :: inodes) files

/-- What is packed besides the files. -/
structure PackRequest where
  name : String
  version : String
  entrypoint : String := ""
  description : String := ""
  capabilities : List String := []
  createdAt : ℚ := 0

/-- The manifest of a package before it is signed. -/
def unsignedManifest (request : PackRequest) (files : List (SourceFile β)) : Manifest where
  name := strip request.name
  version := strip request.version
  entrypoint := strip request.entrypoint
  description := strip request.description
  capabilities := request.capabilities.dedup.insertionSort fun first second => first ≤ second
  files := files.map (fileEntry env)
  createdAt := request.createdAt

def packedManifest (request : PackRequest) (files : List (SourceFile β)) : Manifest :=
  let manifest := unsignedManifest env request files
  { manifest with signature := some (env.sign manifest) }

def pack (request : PackRequest) (files : List (SourceFile β)) : Program β (Archive β) := do
  if strip request.name = "" ∨ strip request.version = "" then
    throw (.package "package name and version are required")
  else if files = [] then
    throw (.package "source directory contains no files to package")
  else do
    let manifest := packedManifest env request files
    appendJournal env
      { ts := 0, action := .pack, name := manifest.name, version := manifest.version
        files := files.length }
    return ⟨manifestName, .regular (env.dumps manifest)⟩ :: addFiles [] files

/-- `tar.extractfile(MANIFEST_NAME)`: of several members the last one counts. -/
def extractManifest (archive : Archive β) : Option β :=
  match archive.reverse.find? fun member => member.name = manifestName with
  | none => none
  | some ⟨_, .regular data⟩ => some data
  | some ⟨_, .link⟩ => env.follow archive manifestName
  | some ⟨_, .other⟩ => none

def regularFiles (archive : Archive β) : List (String × β) :=
  archive.filterMap fun member =>
    match member.content with
    | .regular data => if member.name = manifestName then none else some (member.name, data)
    | .link | .other => none

/-- `_read_archive`, of a file that is an archive or none. -/
def readArchive (archive : Option (Archive β)) : Except String (Manifest × Dict String β) :=
  match archive with
  | none => .error "unreadable .agent archive"
  | some archive =>
    if manifestName ∉ archive.map Member.name then
      .error "not a valid .agent package: manifest.json missing"
    else
      match extractManifest env archive with
      | none => .error "manifest.json is not readable"
      | some data =>
        match env.loads data with
        | none => .error "unreadable .agent archive"
        | some manifest => .ok (manifest, .ofList (regularFiles archive))

def entryProblems (files : Dict String β) (entry : FileEntry) : List String :=
  match files.get? entry.path with
  | none => ["missing file: " ++ entry.path]
  | some data =>
    (if env.sha256 data ≠ entry.sha256 then ["checksum mismatch: " ++ entry.path]
      else []) ++
    (if env.size data ≠ entry.size then ["size mismatch: " ++ entry.path] else [])

/-- The signature of a manifest is the one that the local key gives. -/
def signatureOk (manifest : Manifest) : Bool :=
  manifest.signature.getD "" = env.sign { manifest with signature := none }

/-- The problems that `verify` reports. -/
def problems (manifest : Manifest) (files : Dict String β) : List String :=
  (if signatureOk env manifest then []
    else ["signature does not verify against the local signing key"]) ++
  manifest.files.flatMap (entryProblems env files) ++
  ((files.keys.filter fun path => path ∉ manifest.files.map FileEntry.path).insertionSort
    fun first second => first ≤ second).map fun path => "unlisted file present: " ++ path

/-- `verify`, for a manifest that could be read. -/
def verified (manifest : Manifest) (files : Dict String β) : Bool :=
  signatureOk env manifest ∧ problems env manifest files = []

/-- Characters illegal in Windows filenames. -/
def unsafeFilename (char : Char) : Bool :=
  char ∈ [':', '*', '?', '"', '<', '>', '|', '\\', '/']

/-- The name of the directory of a package. -/
def safeName (name : String) : String :=
  let replaced := String.ofList (name.toList.map fun char =>
    if unsafeFilename char || char.toNat < 32 then '_' else char)
  let safe := stripOf (fun char => char = '.' || char = ' ') replaced
  if safe = "" then "unknown" else safe

def installedDir : List String :=
  env.dataDir ++ ["installed"]

def installedRoot (name : String) : List String :=
  installedDir env ++ [safeName name]

def versionRoot (name version : String) : List String :=
  joinPath (installedRoot env name) version

def currentPath (name : String) : List String :=
  installedRoot env name ++ ["CURRENT"]

/-- Write one file into the tree of a version. -/
def writeFile (root : List String) (file : String × β) : Program β Unit := do
  let target := joinPath root file.1
  if (render (normalize root)).toList.isPrefixOf (render (normalize target)).toList then do
    mkdir true target.dropLast
    writeBytes target file.2
  else throw (.package ("unsafe path in package: " ++ file.1))

def writeVersion (manifest : Manifest) (files : Dict String β) : Program β Unit := do
  let root := versionRoot env manifest.name manifest.version
  if ((← get).fs.find root).isSome then rmtree root else pure ()
  mkdir false root
  writeBytes (root ++ [manifestName]) (env.dumps manifest)
  files.entries.forM (writeFile root)

def setCurrent (name version : String) : Program β Unit := do
  mkdir true (installedRoot env name)
  writeBytes (currentPath env name) (env.encode version)

def directories (fs : FileSystem β) (location : Location) : List String :=
  ((fs.nodes.keys.filter fun key => key.dropLast = location && key != [] &&
      fs.lookup key matches some .directory).map fun key => key.getLast?.getD "").insertionSort
    fun first second => second ≤ first

def currentVersion (name : String) : Program β (Option String) := do
  let fs := (← get).fs
  let root := installedRoot env name
  match fs.find root with
  | some .directory =>
    let latest := (directories fs root).head?
    match fs.find (currentPath env name) with
    | some (.file data) =>
      match env.decode data with
      | none => throw .unicode
      | some text =>
        let version := strip (String.ofList (universalNewlines text.toList))
        if version ≠ "" ∧ fs.find (joinPath root version) matches some .directory then
          return some version
        else return latest
    | _ => return latest
  | _ => return none

/-! ## Installing and going back -/

/-- `install`, behind the reading of the archive. -/
def installFiles (manifest : Manifest) (files : Dict String β) :
    Program β (Option String) := do
  let previous ← currentVersion env manifest.name
  writeVersion env manifest files
  setCurrent env manifest.name manifest.version
  appendJournal env
    { ts := 0, action := .install, name := manifest.name, version := manifest.version
      previousVersion := previous, files := files.size
      checkpoint := manifest.files.map fun entry => (entry.path, entry.sha256) }
  return previous

/-- `install`; the result is the previous version. -/
def install (archive : Option (Archive β)) : Program β (Option String) :=
  match readArchive env archive with
  | .error message => throw (.package message)
  | .ok (manifest, files) =>
    if verified env manifest files then installFiles env manifest files
    else throw (.package ("package failed verification and was NOT installed: " ++
      "; ".intercalate (problems env manifest files)))

def upgrade (archive : Option (Archive β)) : Program β String :=
  match readArchive env archive with
  | .error message => throw (.package message)
  | .ok (manifest, _) => do
      match ← currentVersion env manifest.name with
      | none =>
        throw (.package ("package " ++ env.repr manifest.name ++
          " is not installed; use install, not upgrade"))
      | some current =>
        if manifest.version = current then
          throw (.package ("version " ++ current ++
            " is already installed; a new version is required"))
        else do
          discard (install env archive)
          appendJournal env
            { ts := 0, action := .upgrade, name := manifest.name, version := manifest.version
              previousVersion := some current }
          return current

/-- The rows of a package that a rollback looks at, from the oldest to the latest. -/
def historyOf (rows : List Row) (name : String) : List Row :=
  ((journalRows rows 1000).filter fun row => row.action ≠ .pack ∧ row.name = name).insertionSort
    fun first second => first.ts ≤ second.ts

def rollbackTarget (rows : List Row) (name current : String) : Option Row :=
  (historyOf rows name).reverse.find? fun row =>
    row.version ≠ current ∧ row.checkpoint ≠ []

def replayProblems (fs : FileSystem β) (root : List String) (entry : String × String) :
    List String :=
  match fs.find (joinPath root entry.1) with
  | some (.file data) =>
    if env.sha256 data ≠ entry.2 then
      ["checkpoint hash mismatch during replay: " ++ entry.1]
    else []
  | _ => ["checkpoint file missing on disk: " ++ entry.1]

def replay (fs : FileSystem β) (root : List String) (checkpoint : List (String × String)) :
    Dict String β :=
  .ofList (checkpoint.filterMap fun entry =>
    match fs.find (joinPath root entry.1) with
    | some (.file data) => some (entry.1, data)
    | _ => none)

/-- `rollback`, from the row with the checkpoint on. -/
def replayVersion (name current : String) (target : Row) : Program β Unit := do
  let fs := (← get).fs
  let root := versionRoot env name target.version
  let problems := target.checkpoint.flatMap (replayProblems env fs root)
  if problems ≠ [] then
    throw (.package ("rollback replay did not verify; installed tree untouched: " ++
      "; ".intercalate problems))
  else
    match fs.find (root ++ [manifestName]) with
    | some (.file data) =>
      match env.loads data with
      | none => throw (.package "checkpoint manifest unreadable")
      | some manifest => do
          let files := replay fs root target.checkpoint
          writeVersion env manifest files
          setCurrent env name target.version
          appendJournal env
            { ts := 0, action := .rollback, name, version := target.version
              previousVersion := some current, files := files.size }
    | _ =>
      throw (.package ("checkpoint manifest missing for " ++ name ++ "@" ++ target.version ++
        "; cannot replay"))

def rollback (name : String) : Program β Unit :=
  if strip name = "" then throw (.package "package name is required")
  else do
    let rows := (← get).journal
    match ← currentVersion env name with
    | none => throw (.package ("package " ++ env.repr name ++ " is not installed"))
    | some current =>
      match rollbackTarget rows name current with
      | none =>
        throw (.package ("no earlier version checkpoint found for " ++
          env.repr name ++ "; nothing to roll back to"))
      | some target => replayVersion env name current target

end

/-- The data are manifests and texts, and a text is its own hash. -/
def plainEnvironment : Environment (Manifest ⊕ String) where
  dataDir := ["data"]
  sha256 := Sum.elim (fun manifest => manifest.version) id
  size := Sum.elim (fun _ => 0) String.length
  sign manifest := manifest.name ++ "@" ++ manifest.version
  dumps := Sum.inl
  loads := Sum.getLeft?
  encode := Sum.inr
  decode := Sum.getRight?
  follow _ _ := none
  repr := id
  clock number := number
  loads_dumps _ := rfl
  decode_encode _ := rfl
  straight := by decide

def plainManifest (name version : String) : Manifest where
  name := name
  version := version
  files := [⟨"run", version.length, version⟩]
  signature := some (name ++ "@" ++ version)

def plainArchive (name version : String) : Archive (Manifest ⊕ String) :=
  [⟨manifestName, .regular (.inl (plainManifest name version))⟩, ⟨"run", .regular (.inr version)⟩]

end AgenticOS.Packages
