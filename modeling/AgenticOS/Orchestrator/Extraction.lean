import AgenticOS.Data.PathTexts
import AgenticOS.Data.Regex
import AgenticOS.Orchestrator.RunProvider

/-!
# The files of an answer

The answer of a provider becomes files in the workspace: a report, a design document where the
task asks for one, and every code block that names a file or whose language has a default one.

The names come from free text, through the header of a block or a comment in its first lines.

What the disk does is asked of the surroundings; the working directory is that of the process and
does not change. `str.lower` is a parameter.
-/

namespace AgenticOS.Orchestrator

open Regex Paths List

def extToDefaultFile : List (String × String) :=
  [("html", "index.html"), ("css", "styles.css"), ("scss", "styles.scss"),
    ("javascript", "index.js"), ("js", "index.js"), ("jsx", "App.jsx"),
    ("typescript", "index.ts"), ("ts", "index.ts"), ("tsx", "App.tsx"), ("python", "app.py"),
    ("py", "app.py"), ("json", "config.json"), ("yaml", "config.yaml"), ("yml", "config.yaml"),
    ("toml", "config.toml"), ("sql", "schema.sql"), ("sh", "script.sh"), ("bash", "script.sh"),
    ("ps1", "script.ps1"), ("rust", "main.rs"), ("rs", "main.rs"), ("go", "main.go"),
    ("c", "main.c"), ("cpp", "main.cpp"), ("java", "Main.java"), ("cs", "Program.cs"),
    ("csharp", "Program.cs"), ("dockerfile", "Dockerfile"), ("env", ".env.example")]

/-- `[a-zA-Z0-9_\-]`. -/
def isLangCharacter (char : Char) : Bool :=
  char.isAlphanum ∨ char = '_' ∨ char = '-'

/-- What stands in the header of a code block: `[^\n\r` and the backtick excluded. -/
def isHeaderCharacter (char : Char) : Bool :=
  char ≠ '\n' ∧ char ≠ '\r' ∧ char ≠ '\x60'

/-- Code blocks with a language and perhaps a file, or with a file alone. The groups `lang`,
`file1`, `file2` and `code` have the numbers 1 to 4. -/
def codeBlock : Pattern where
  body := sequence
    [literal "```".toList,
      .alt
        (.seq (.group 1 (run1 isLangCharacter))
          (optional (.seq (run1 fun char => char = ':' || isSpace char)
            (.group 2 (run1 isHeaderCharacter)))))
        (.group 3 (sequence [run1 isHeaderCharacter, literal ['.'], run1 Char.isAlphanum])),
      optional (literal ['\r']),
      literal ['\n'],
      .group 4 (.many false 0 none (.one fun _ => true)),
      literal "```".toList]

/-- `[a-zA-Z0-9_\-./\\]`. -/
def isFileCharacter (char : Char) : Bool :=
  isLangCharacter char ∨ char ∈ ['.', '/', '\\']

/-- A comment that names a file. Case does not count, and the name is group 1. -/
def fileComment : Pattern where
  body := sequence
    [choice (["filename", "filepath", "file"].map fun word => literalNoCase word.toList),
      run1 fun char => char = ':' || isSpace char || char = '=',
      run0 isSpace,
      .group 1 (sequence
        [run1 (isFileCharacter ∘ foldCase), literal ['.'], run1 (Char.isAlphanum ∘ foldCase)])]

def groupText (outcome : Outcome) (number : Nat) : String :=
  String.ofList ((outcome.groups.find number).getD [])

/-- `text.endswith(".md")`. -/
def isMarkdown (name : String) : Bool :=
  ".md".toList.isSuffixOf name.toList

section

variable (lower : String → String)

def headerName (fileMeta : String) : Option String :=
  if fileMeta = "" ∨ fileMeta.toList.any (· ∈ "\"'<>|*?[]\x7b\x7d()".toList) then none
  else
    let lastWord := (strip fileMeta).toList.rtakeWhile (!isSpace ·)
    let cleanMeta := strip (String.ofList (lastWord.dropWhile (· = ':')))
    if contains cleanMeta "." ∧ cleanMeta.length < 120 ∧ ¬ isMarkdown cleanMeta ∧
        ¬ ["deliverable", "verified", "status", "complete"].any (contains (lower cleanMeta)) then
      some cleanMeta
    else none

def lineName (line : List Char) : Option String :=
  ((fileComment.findAll (fun _ => false) line).head?.map fun found =>
    strip (groupText found 1)).filter fun found =>
      !isMarkdown found && !(["deliverable", "verified"].any (contains (lower found)))

def commentName (code : String) : Option String :=
  ((code.toList.splitOn '\n').take 3).findSome? (lineName lower)

/-- `os.path.splitext`, of a name without separators. -/
def splitext (name : String) : String × String :=
  let base := (name.toList.rdropWhile (· ≠ '.')).dropLast
  if base.all (· = '.') then (name, "")
  else (String.ofList base, String.ofList (name.toList.drop base.length))

def defaultName (role lang : String) (fileIdx : Nat) : Option String :=
  (extToDefaultFile.lookup lang).map fun name =>
    let before := if role = "" then "" else role ++ "_"
    if fileIdx = 0 then before ++ name
    else before ++ (splitext name).1 ++ "_" ++ toString fileIdx ++ (splitext name).2

/-- The file that a code block is for. -/
def targetFilename (role : String) (found : Outcome) (fileIdx : Nat) : Option String :=
  let lang := lower (strip (groupText found 1))
  let fileMeta := strip
    (if groupText found 2 = "" then groupText found 3 else groupText found 2)
  ((headerName lower fileMeta).or (commentName lower (strip (groupText found 4)))).or
    (defaultName role lang fileIdx)

end

/-- What becomes of an attempt to write a file. -/
inductive Attempt where
  | refused
  | interrupted
  | written
deriving DecidableEq

/-- What the process finds on the disk. A directory cannot be opened for writing. -/
structure Surroundings where
  cwd : String
  absolute : IsAbsolute cwd
  isDirectory : String → Bool
  isSubstantial : List (String × String) → String → Bool
  attempt : List (String × String) → String → Attempt
  refuses : ∀ directory path opened, isDirectory directory = true →
    resolve cwd path = resolve cwd directory → attempt opened path = .refused

/-- A task with the prompt that it comes from. Its id is made by the constructor, without
separators. -/
structure PromptedTask extends Task where
  userPrompt : String := ""
  unseparated : '/' ∉ id.toList

/-- The files opened for writing with the texts for them, the directories asked for, and the
paths that are returned. -/
structure Extraction where
  opened : List (String × String) := []
  made : List String := []
  extractedFiles : List String := []
  fileIdx : Nat := 0

variable (env : Surroundings)

def writeFile (path text : String) (extraction : Extraction) : Bool × Extraction :=
  let opened := extraction.opened ++ [(path, text)]
  match env.attempt extraction.opened path with
  | .refused => (false, extraction)
  | .interrupted => (false, { extraction with opened })
  | .written =>
    (true, { extraction with opened, extractedFiles := extraction.extractedFiles ++ [path] })

def reportPath (wsRoot : String) (task : PromptedTask) : String :=
  join wsRoot ("task_" ++ truncate task.id 8 ++ "_" ++ task.role ++ ".md")

def saveReport (result : String) (task : PromptedTask) (wsRoot : String)
    (extraction : Extraction) : Extraction :=
  (writeFile env (reportPath wsRoot task)
    ("# Output for Task: " ++ task.title ++ "\n\n" ++ result ++ "\n") extraction).2

def wantsArchitecture (lower : String → String) (task : PromptedTask) : Bool :=
  ["architecture", "system design", "component diagram", "data contract", "architectural"].any
    fun keyword => contains (lower task.title) keyword || contains (lower task.userPrompt) keyword

def saveArchitecture (lower : String → String) (result : String) (task : PromptedTask)
    (wsRoot : String) (extraction : Extraction) : Extraction :=
  let archPath := join wsRoot "ARCHITECTURE.md"
  if wantsArchitecture lower task && !env.isSubstantial extraction.opened archPath then
    (writeFile env archPath ("# System Architecture Design\n\n" ++ result ++ "\n") extraction).2
  else extraction

/-- The path of a code file, unless its name leads out of the workspace. -/
def codeFilePath (cwd wsRoot target : String) : Option String :=
  let relative := (target.toList.map fun char =>
    if char = '\\' then '/' else char).dropWhile (· = '/')
  let normTarget := normpath (String.ofList relative)
  let path := abspath cwd (join wsRoot normTarget)
  if "..".toList ∈ normTarget.toList.splitOn '/' then none
  else if (abspath cwd wsRoot).toList.isPrefixOf path.toList then some path
  else none

/-- One turn of the loop over the code blocks. -/
def saveBlock (lower : String → String) (task : PromptedTask) (wsRoot : String)
    (extraction : Extraction) (found : Outcome) : Extraction :=
  let code := strip (groupText found 4)
  if code = "" then extraction
  else
    match (targetFilename lower task.role found extraction.fileIdx).bind
        (codeFilePath env.cwd wsRoot) with
    | none => extraction
    | some path =>
      let (succeeded, after) := writeFile env path (code ++ "\n")
        { extraction with made := extraction.made ++ [dirname path] }
      { after with fileIdx := after.fileIdx + succeeded.toNat }

/-- `_extract_and_persist_files`, with all that it does. -/
def extractAndPersistFiles (lower : String → String) (result : String) (task : PromptedTask)
    (wsRoot : String) : Extraction :=
  if wsRoot = "" ∨ env.isDirectory wsRoot = false ∨ result = "" then {}
  else
    (codeBlock.findAll (fun _ => false) result.toList).foldl
      (saveBlock env lower task wsRoot)
      (saveArchitecture env lower result task wsRoot (saveReport env result task wsRoot {}))

/-!
## The files of an answer stay in the workspace

Whatever an answer says, each file that is opened lies strictly inside the workspace. A name from
the answer is made relative and brought into its normal form; if it still goes up the block is
skipped, so that the name leads on below the workspace. The comparison of texts that follows could
not tell a directory beside the workspace from one below it, but it is not needed.
-/

open AgenticOS.FileSystem

/-- Files are opened inside the workspace only, and what is asked for as a directory is inside, or
is the workspace or above it and so there already. -/
structure Confined (cwd wsRoot : String) (extraction : Extraction) : Prop where
  files : ∀ file ∈ extraction.opened, LiesBelow (abspath cwd wsRoot) (abspath cwd file.1)
  directories : ∀ directory ∈ extraction.made,
    names (abspath cwd wsRoot) <+: names (abspath cwd directory) ∨
      names (abspath cwd directory) <+: names (abspath cwd wsRoot)

variable {env : Surroundings} {lower : String → String} {wsRoot path : String}

def LeadsInto (cwd wsRoot path : String) : Prop :=
  resolve cwd wsRoot <+: resolve cwd path

theorem leadsInto_join (cwd wsRoot : String) (relative : ¬ IsAbsolute path)
    (straight : ".." ∉ names path) : LeadsInto cwd wsRoot (join wsRoot path) := by
  unfold LeadsInto
  rw [resolve_join_of_straight cwd wsRoot relative straight]
  exact prefix_append _ _

/-! ## The names that the program gives -/

theorem leadsInto_join_of_isName (cwd wsRoot : String) (valid : IsName path)
    (notUp : path ≠ "..") : LeadsInto cwd wsRoot (join wsRoot path) := by
  apply leadsInto_join
  · intro absolute
    exact valid.noSlash (mem_of_head? absolute)
  · rw [names_of_isName valid, mem_singleton]
    exact Ne.symm notUp

theorem leadsInto_reportPath (cwd wsRoot : String) {task : PromptedTask}
    (flat : '/' ∉ task.role.toList) : LeadsInto cwd wsRoot (reportPath wsRoot task) := by
  have starts : ∀ other : String, other.toList.head? ≠ some 't' →
      "task_" ++ truncate task.id 8 ++ "_" ++ task.role ++ ".md" ≠ other := by
    rintro _ different rfl
    simp at different
  have cut : '/' ∉ task.id.toList.take 8 := fun member =>
    task.unseparated (mem_of_mem_take member)
  apply leadsInto_join_of_isName
  · constructor
    · exact starts "" (by decide)
    · exact starts "." (by decide)
    · simp [truncate, cut, flat]
  · exact starts ".." (by decide)

theorem exists_of_codeFilePath {cwd target : String}
    (placed : codeFilePath cwd wsRoot target = some path) :
    ∃ name, path = abspath cwd (join wsRoot name) ∧ ¬ IsAbsolute name ∧ ".." ∉ names name := by
  unfold codeFilePath at placed
  dsimp only at placed
  generalize shape : dropWhile _ _ = relative at placed
  have notAbsolute : ¬ IsAbsolute (.ofList relative) := by
    intro slash
    have first := head?_dropWhile_not (· = '/') (target.toList.map fun char =>
      if char = '\\' then '/' else char)
    rw [IsAbsolute, String.toList_ofList, ← shape] at slash
    rw [slash] at first
    simp at first
  split at placed
  · cases placed
  · next straight =>
      split at placed
      · refine ⟨normpath (.ofList relative), (Option.some.inj placed).symm,
          not_isAbsolute_normpath notAbsolute, fun member => ?_⟩
        obtain ⟨part, partMem, up⟩ := mem_map.mp (mem_of_mem_filter member)
        rw [← up, String.toList_ofList] at straight
        exact straight partMem
      · cases placed

section

variable {extraction : Extraction}

section

variable (confined : Confined env.cwd wsRoot extraction)
include confined

/-- One file more: where its path leads to the workspace itself, nothing is opened. -/
theorem Confined.writeFile (there : env.isDirectory wsRoot = true)
    (inside : LeadsInto env.cwd wsRoot path) (text : String) :
    Confined env.cwd wsRoot (writeFile env path text extraction).2 := by
  have opening (accepted : env.attempt extraction.opened path ≠ .refused) :
      ∀ file ∈ extraction.opened ++ [(path, text)],
        LiesBelow (abspath env.cwd wsRoot) (abspath env.cwd file.1) := by
    intro file member
    rcases mem_append.mp member with earlier | here
    · exact confined.files file earlier
    · rw [mem_singleton.mp here, LiesBelow, names_abspath env.absolute,
        names_abspath env.absolute]
      refine ⟨inside, fun same => accepted ?_⟩
      exact env.refuses wsRoot path extraction.opened there same.symm
  unfold Orchestrator.writeFile
  split
  · exact confined
  · next interrupted =>
      exact ⟨opening (by simp [interrupted]), confined.directories⟩
  · next written =>
      exact ⟨opening (by simp [written]), confined.directories⟩

theorem Confined.saveArchitecture (there : env.isDirectory wsRoot = true)
    (result : String) (task : PromptedTask) : Confined env.cwd wsRoot
      (saveArchitecture env lower result task wsRoot extraction) := by
  unfold Orchestrator.saveArchitecture
  dsimp only
  split
  · apply confined.writeFile there
    exact leadsInto_join_of_isName _ _ ⟨by decide, by decide, by decide⟩ (by decide)
  · exact confined

theorem Confined.make (inside : LeadsInto env.cwd wsRoot path) : Confined env.cwd wsRoot
      { extraction with made := extraction.made ++ [dirname (abspath env.cwd path)] } := by
  have above := names_dirname (abspath env.cwd path)
  rw [names_abspath env.absolute] at above
  have settled : ".." ∉ names (dirname (abspath env.cwd path)) := fun up =>
    up_not_mem_normalize _ (above.subset up)
  refine ⟨confined.files, fun directory member => ?_⟩
  rcases mem_append.mp member with earlier | here
  · exact confined.directories directory earlier
  · rw [mem_singleton.mp here, names_abspath env.absolute,
      names_abspath env.absolute, resolve_of_absolute env.cwd
        (isAbsolute_dirname (isAbsolute_abspath env.absolute path)),
      normalize_of_straight settled]
    exact prefix_or_prefix_of_prefix inside above

theorem Confined.saveBlock (there : env.isDirectory wsRoot = true) (task : PromptedTask)
    (found : Regex.Outcome) : Confined env.cwd wsRoot
      (saveBlock env lower task wsRoot extraction found) := by
  unfold Orchestrator.saveBlock
  dsimp only
  split
  · exact confined
  · split
    · exact confined
    · next taken =>
        obtain ⟨target, -, placed⟩ := Option.bind_eq_some_iff.mp taken
        obtain ⟨name, rfl, relative, straight⟩ := exists_of_codeFilePath placed
        have inside := leadsInto_join env.cwd wsRoot relative straight
        have absolute : LeadsInto env.cwd wsRoot
            (abspath env.cwd (join wsRoot name)) := by
          rw [LeadsInto, resolve_abspath env.absolute]
          exact inside
        have written := (confined.make inside).writeFile there absolute
          (strip (groupText found 4) ++ "\n")
        exact ⟨written.files, written.directories⟩

theorem Confined.saveBlocks (there : env.isDirectory wsRoot = true) (task : PromptedTask)
    (blocks : List Regex.Outcome) : Confined env.cwd wsRoot
      (blocks.foldl (Orchestrator.saveBlock env lower task wsRoot) extraction) := by
  induction blocks generalizing extraction with
  | nil => exact confined
  | cons found rest ih =>
    rw [foldl_cons]
    exact ih (confined.saveBlock there task found)

end

end

/-- Every file of an answer is opened inside the workspace. -/
theorem extractAndPersistFiles_confined (env : Surroundings) (lower : String → String)
    (result : String) (task : PromptedTask) (wsRoot : String) (flat : '/' ∉ task.role.toList) :
    Confined env.cwd wsRoot (extractAndPersistFiles env lower result task wsRoot) := by
  have nothing : Confined env.cwd wsRoot {} :=
    ⟨fun _ member => (not_mem_nil member).elim, fun _ member => (not_mem_nil member).elim⟩
  unfold extractAndPersistFiles
  split
  · exact nothing
  · next started =>
      have there : env.isDirectory wsRoot = true := by
        by_contra missing
        exact started (.inr (.inl (Bool.not_eq_true _ ▸ missing)))
      have reported : Confined env.cwd wsRoot
          (saveReport env result task wsRoot {}) :=
        nothing.writeFile there (leadsInto_reportPath env.cwd wsRoot flat) _
      exact (reported.saveArchitecture there result task).saveBlocks there task _

/-- A disk on which everything can be written but the directory `/work` itself. -/
def workDisk : Surroundings where
  cwd := "/"
  absolute := by decide
  isDirectory path := resolve "/" path = ["work"]
  isSubstantial _ _ := false
  attempt _ path := if resolve "/" path = ["work"] then .refused else .written
  refuses directory path _ isDirectory same := by
    rw [same, if_pos (of_decide_eq_true isDirectory)]

theorem extractAndPersistFiles_confined_work :
    Confined "/" "/work" (extractAndPersistFiles workDisk (fun text => text)
      "```python:../../etc/app.py\nprint(1)\n```"
      { id := "5f0c", title := "Build", role := "coding", unseparated := by decide } "/work") :=
  extractAndPersistFiles_confined workDisk _ _ _ _ (by decide)

end AgenticOS.Orchestrator
