import AgenticOS.Data.Dict

/-!
# Artifact verification

After a provider has answered, the orchestrator looks at the file system: a task counts as
done only if there is a file with content that is not the orchestrator's own report, or, for
the roles whose work is a report, that report.

The path functions differ between platforms and are a parameter, as is what the file system
answers at the time of the verification.
-/

namespace AgenticOS.Orchestrator

/-- The functions of `os.path` that do not look at the disk. -/
structure PathModule where
  basename : String → String
  isabs : String → Bool
  join : String → String → String
  normpath : String → String

/-- What the file system answers. The size of a file may be refused. -/
structure FileSystem where
  existing : String → Bool
  isfile : String → Bool
  getsize : String → Except String Nat

/-- The roles whose deliverable is a written report. -/
def proseRoles : List String :=
  ["research", "documentation", "planner", "reviewer"]

def isReportFile (paths : PathModule) (path : String) : Bool :=
  "task_".toList.isPrefixOf (paths.basename path).toList ∧
    ".md".toList.isSuffixOf (paths.basename path).toList

/-- The files below a directory, by relative path and with their sizes. -/
structure WorkspaceSnapshot where
  root : String
  files : Dict String Nat := .empty

/-- The relative paths that are new or of another size in the later snapshot. -/
def WorkspaceSnapshot.addedOrChanged (before after : WorkspaceSnapshot) : List String :=
  (after.files.entries.filter fun entry => before.files.get? entry.1 ≠ some entry.2).map Prod.fst

/-- What the verification has found out about one path. -/
structure Artifact where
  path : String
  existing : Bool := false
  isFile : Bool := false
  size : Nat := 0
  error : Option String := none
  verified : Bool := false

structure ArtifactVerification where
  ok : Bool
  artifacts : List Artifact := []
  reason : String := ""

def inspect (files : FileSystem) (minSize : Nat) (path : String) : Artifact :=
  let entry : Artifact := { path }
  let entry :=
    if files.existing path then
      if files.isfile path then
        match files.getsize path with
        | .ok size => { entry with existing := true, isFile := true, size }
        | .error error => { entry with existing := true, isFile := true, error := some error }
      else { entry with existing := true }
    else entry
  { entry with verified := entry.isFile ∧ max 1 minSize ≤ entry.size }

def verifyFiles (files : FileSystem) (paths : List String) (minSize : Nat) : ArtifactVerification :=
  let artifacts := paths.map (inspect files minSize)
  let ok := decide (paths ≠ []) && artifacts.all Artifact.verified
  { ok, artifacts,
    reason := if ok then "" else "one or more declared artifacts failed verification" }

/-- Keep the first of the paths with the same normal form. -/
def deduplicate (paths : PathModule) (candidates : List String) : List String :=
  (candidates.foldl (fun state candidate =>
    if paths.normpath candidate ∈ state.1 then state
    else (paths.normpath candidate :: state.1, state.2 ++ [candidate]))
    (([] : List String), ([] : List String))).2

/-- What an attempt leaves behind: the paths written by the orchestrator, the snapshots of
the directory, and the directory. -/
structure Leftovers where
  savedFiles : List String
  before : Option WorkspaceSnapshot
  after : Option WorkspaceSnapshot
  wsRoot : String

/-- The paths that may hold the deliverable. -/
def Leftovers.candidates (paths : PathModule) (leftovers : Leftovers) : List String :=
  ((leftovers.savedFiles.filter fun path => path ≠ "" ∧ isReportFile paths path = false).map
      fun path => if paths.isabs path then path else paths.join leftovers.wsRoot path) ++
    match leftovers.before, leftovers.after with
    | some before, some after =>
      ((before.addedOrChanged after).filter fun path => isReportFile paths path = false).map
        (paths.join after.root)
    | _, _ => []

def Leftovers.reportPaths (paths : PathModule) (leftovers : Leftovers) : List String :=
  (leftovers.savedFiles.filter fun path => path ≠ "" ∧ isReportFile paths path = true).map
    fun path =>
      if paths.isabs path then path
      else paths.join (if leftovers.wsRoot = "" then "." else leftovers.wsRoot) path

def verifyTaskExecution (paths : PathModule) (files : FileSystem) (role : String)
    (leftovers : Leftovers) : ArtifactVerification :=
  let artifactCheck := verifyFiles files (deduplicate paths (leftovers.candidates paths)) 1
  let reportPaths := leftovers.reportPaths paths
  let reportOk := decide (reportPaths ≠ []) && (verifyFiles files reportPaths 1).ok
  if artifactCheck.ok then artifactCheck
  else if role ∈ proseRoles then
    if reportOk then
      { ok := true, artifacts := artifactCheck.artifacts,
        reason := "prose deliverable: task report verified on disk" }
    else
      { ok := false, artifacts := artifactCheck.artifacts,
        reason := "report role produced no readable task report" }
  else
    { ok := false, artifacts := artifactCheck.artifacts,
      reason := "no real, non-empty workspace artifact was produced " ++
        "(natural-language output is not evidence of completion)" }

end AgenticOS.Orchestrator
