import AgenticOS.Data.Paths
import Mathlib.Data.List.Chain
import Mathlib.Data.List.DropRight

/-!
# The workspaces of the agents

Every agent has a workspace below a base directory. Its path is made from the id of the agent,
from which pairs of dots and outer slashes are taken away; it is resolved, compared with the base
directory as a text, and remembered.

The comparison never fails, since no id leads upwards. But nothing keeps the ids apart: an id may
name the base directory itself, two ids may name one directory, and an id with a slash may lead
into the workspace of another agent.

The working directory is that of the process and does not change. `repr` is a parameter.
-/

namespace AgenticOS.Security

open FileSystem Paths List

/-- `text.replace("..", "")`. -/
def removeDots : List Char → List Char
  | '.' :: '.' :: rest => removeDots rest
  | first :: rest => first :: removeDots rest
  | [] => []

def isSeparator (char : Char) : Bool :=
  char = '/' ∨ char = '\\'

/-- `text.rstrip("/\\")`. -/
def rstripSeparators (text : List Char) : List Char :=
  text.rdropWhile isSeparator

/-- `text.strip("/\\")`. -/
def stripSeparators (text : List Char) : List Char :=
  rstripSeparators (text.dropWhile isSeparator)

/-- `agent_id.replace("..", "").strip("/\\")`. -/
def safeId (agentId : String) : String :=
  String.ofList (stripSeparators (removeDots agentId.toList))

/-- `str(path.resolve())` as seen from a directory. -/
def realpath (directory path : String) : Except String String :=
  if '\x00' ∈ path.toList then .error "embedded null byte"
  else .ok (text (resolve directory path))

structure WorkspaceIsolationImpl where
  base : String
  cache : Dict String String

namespace WorkspaceIsolationImpl

/-- A new table of workspaces. -/
def init (baseDir : String) : WorkspaceIsolationImpl where
  base := String.ofList (rstripSeparators baseDir.toList)
  cache := .empty

variable (repr : String → String) (cwd : String)

def candidate (isolation : WorkspaceIsolationImpl) (agentId : String) : Except String String := do
  let base ← realpath cwd isolation.base
  let candidate ← realpath base (safeId agentId)
  if base.toList.isPrefixOf candidate.toList then .ok candidate
  else .error ("agent_id " ++ repr agentId ++ " escapes workspace root")

def workspaceFor (isolation : WorkspaceIsolationImpl) (agentId : String) :
    Except String String × WorkspaceIsolationImpl :=
  match isolation.cache.get? agentId with
  | some path => (.ok path, isolation)
  | none =>
    match isolation.candidate repr cwd agentId with
    | .error message => (.error message, isolation)
    | .ok path => (.ok path, { isolation with cache := isolation.cache.set agentId path })

def after (isolation : WorkspaceIsolationImpl) (agentIds : List String) : WorkspaceIsolationImpl :=
  agentIds.foldl (fun isolation agentId => (isolation.workspaceFor repr cwd agentId).2) isolation

end WorkspaceIsolationImpl

theorem removeDots_isChain (characters : List Char) :
    (removeDots characters).IsChain fun first second => ¬ (first = '.' ∧ second = '.') := by
  induction characters using removeDots.induct with
  | case1 rest ih => exact ih
  | case2 first rest unpaired ih =>
    rw [removeDots]
    · refine isChain_cons.mpr ⟨?_, ih⟩
      rintro second second_mem ⟨rfl, rfl⟩
      cases rest with
      | nil => simp [removeDots] at second_mem
      | cons third others =>
        have different : third ≠ '.' := by
          rintro rfl
          exact unpaired others rfl rfl
        rw [removeDots] at second_mem
        · exact different (Option.some.inj second_mem)
        · exact fun _ dot _ => different dot
    · exact unpaired
  | case3 => exact isChain_nil

theorem straight_safeId (agentId : String) : ".." ∉ names (safeId agentId) := by
  intro member
  have inside := infix_of_mem_names member
  simp only [safeId, String.toList_ofList] at inside
  have chain := removeDots_isChain agentId.toList
  have stripped : stripSeparators (removeDots agentId.toList) <:+: removeDots agentId.toList :=
    ( rdropWhile_prefix _ _).isInfix.trans (dropWhile_suffix _).isInfix
  have pair := chain.infix (inside.trans stripped)
  simp at pair

theorem relative_safeId (agentId : String) : (safeId agentId).toList.head? ≠ some '/' := by
  intro absolute
  rw [safeId, String.toList_ofList, stripSeparators, rstripSeparators] at absolute
  have kept := rdropWhile_prefix isSeparator ((removeDots agentId.toList).dropWhile isSeparator)
  have outer := head?_dropWhile_not isSeparator (removeDots agentId.toList)
  obtain ⟨rest, joined⟩ := kept
  have head : ((removeDots agentId.toList).dropWhile isSeparator).head? = some '/' := by
    rw [← joined, head?_append, absolute, Option.some_or]
  rw [head] at outer
  simp [isSeparator] at outer

/-- The names that an id adds to the base directory. -/
def idNames (agentId : String) : List String :=
  names (safeId agentId)

namespace WorkspaceIsolationImpl

variable {repr : String → String} {cwd : String} {isolation : WorkspaceIsolationImpl}

theorem realpath_eq_ok {directory path found : String}
    (resolved : realpath directory path = .ok found) : found = text (resolve directory path) := by
  unfold realpath at resolved
  split at resolved
  · cases resolved
  · exact (Except.ok.inj resolved).symm

theorem isName_of_mem_base {base name : String} (member : name ∈ resolve cwd base) :
    IsName name ∧ name ≠ ".." := by
  refine ⟨isName_of_mem_resolve member, ?_⟩
  rintro rfl
  exact up_not_mem_normalize _ member

theorem resolve_safeId (base agentId : String) :
    resolve (text (resolve cwd base)) (safeId agentId) = resolve cwd base ++ idNames agentId :=
  resolve_text_of_straight (fun _ member => (isName_of_mem_base member).1)
    (up_not_mem_normalize _) (relative_safeId agentId) (straight_safeId agentId)

/-- No id is ever refused because of the base directory. -/
theorem candidate_eq (isolation : WorkspaceIsolationImpl) (agentId : String) :
    isolation.candidate repr cwd agentId =
      (realpath cwd isolation.base).bind fun base => realpath base (safeId agentId) := by
  unfold candidate
  cases based : realpath cwd isolation.base with
  | error message => simp only [bind, Except.bind]
  | ok base =>
    cases led : realpath base (safeId agentId) with
    | error message => simp [bind, Except.bind, led]
    | ok path =>
      have starts : base.toList <+: path.toList := by
        rw [realpath_eq_ok led, realpath_eq_ok based, resolve_safeId]
        exact text_append _ _
      simp [bind, Except.bind, led, isPrefixOf_iff_prefix.mpr starts]

theorem candidate_eq_ok {agentId path : String}
    (found : isolation.candidate repr cwd agentId = .ok path) :
    path = text (resolve cwd isolation.base ++ idNames agentId) := by
  rw [candidate_eq] at found
  cases based : realpath cwd isolation.base with
  | error message => simp [based, Except.bind] at found
  | ok base =>
    rw [based, Except.bind] at found
    rw [realpath_eq_ok found, realpath_eq_ok based, resolve_safeId]

/-- What is remembered is what would be found again. -/
structure Kept (repr : String → String) (cwd baseDir : String)
    (isolation : WorkspaceIsolationImpl) : Prop where
  base : isolation.base = (init baseDir).base
  cached : ∀ agentId path, isolation.cache.get? agentId = some path →
    isolation.candidate repr cwd agentId = .ok path

theorem kept_init (baseDir : String) : Kept repr cwd baseDir (init baseDir) where
  base := rfl
  cached agentId path present := by
    simp [init, Dict.get?_empty] at present

variable {baseDir : String}

section

variable (kept : Kept repr cwd baseDir isolation)
include kept

theorem Kept.workspaceFor_fst (agentId : String) :
    (isolation.workspaceFor repr cwd agentId).1 = isolation.candidate repr cwd agentId := by
  unfold workspaceFor
  split
  · next path present => exact (kept.cached agentId path present).symm
  · split
    · next message failed => exact failed.symm
    · next path found => exact found.symm

theorem Kept.workspaceFor_snd (agentId : String) :
    Kept repr cwd baseDir (isolation.workspaceFor repr cwd agentId).2 := by
  unfold workspaceFor
  split
  · exact kept
  · split
    · exact kept
    · next path found =>
        refine ⟨kept.base, fun other remembered present => ?_⟩
        rw [Dict.get?_set] at present
        split at present
        · next same =>
            rw [same, ← Option.some.inj present]
            exact found
        · exact kept.cached other remembered present

theorem Kept.after (agentIds : List String) :
    Kept repr cwd baseDir (isolation.after repr cwd agentIds) := by
  induction agentIds generalizing isolation with
  | nil => exact kept
  | cons agentId agentIds ih => exact ih (kept.workspaceFor_snd agentId)

end

def baseOf (cwd baseDir : String) : Location :=
  resolve cwd (init baseDir).base

theorem workspaceFor_after {agentIds : List String} {agentId path : String}
    (found : (((init baseDir).after repr cwd agentIds).workspaceFor repr cwd agentId).1 =
      .ok path) : path = text (baseOf cwd baseDir ++ idNames agentId) := by
  have kept : Kept repr cwd baseDir ((init baseDir).after repr cwd agentIds) :=
    (kept_init baseDir).after agentIds
  rw [kept.workspaceFor_fst] at found
  rw [candidate_eq_ok found, kept.base]
  rfl

/-! ## Isolation -/

/-- Two workspaces lie strictly inside the base directory, and neither equals or contains the
other. -/
structure Isolated (base first second : String) : Prop where
  first_below : LiesBelow base first
  second_below : LiesBelow base second
  first_apart : ¬ names first <+: names second
  second_apart : ¬ names second <+: names first

/-- Something is left of two ids, and what is left of one does not begin what is left of the
other. -/
structure KeepsApart (first second : String) : Prop where
  first_named : idNames first ≠ []
  second_named : idNames second ≠ []
  first_apart : ¬ idNames first <+: idNames second
  second_apart : ¬ idNames second <+: idNames first

@[simp]
theorem names_base : names (text (baseOf cwd baseDir)) = baseOf cwd baseDir :=
  names_text fun _ member => (isName_of_mem_base member).1

@[simp]
theorem names_workspace (agentId : String) : names (text (baseOf cwd baseDir ++ idNames agentId)) =
      baseOf cwd baseDir ++ idNames agentId := by
  refine names_text fun name member => ?_
  rcases mem_append.mp member with above | inside
  · exact (isName_of_mem_base above).1
  · exact isName_of_mem_names inside

theorem liesBelow_workspace_iff (agentId : String) :
    LiesBelow (text (baseOf cwd baseDir)) (text (baseOf cwd baseDir ++ idNames agentId)) ↔
      idNames agentId ≠ [] := by
  simp [LiesBelow]

variable {agentIds laterIds : List String} {first second firstPath secondPath : String}

/-- Two workspaces are isolated exactly if something is left of both ids and neither begins the
other. -/
theorem workspaceFor_isolated_iff
    (firstFound : (((init baseDir).after repr cwd agentIds).workspaceFor repr cwd first).1 =
      .ok firstPath)
    (secondFound : (((init baseDir).after repr cwd laterIds).workspaceFor repr cwd second).1 =
      .ok secondPath) :
    Isolated (text (baseOf cwd baseDir)) firstPath secondPath ↔ KeepsApart first second := by
  rw [workspaceFor_after firstFound, workspaceFor_after secondFound]
  constructor
  · rintro ⟨firstBelow, secondBelow, firstApart, secondApart⟩
    rw [liesBelow_workspace_iff] at firstBelow secondBelow
    rw [names_workspace, names_workspace, prefix_append_right_inj] at firstApart secondApart
    exact ⟨firstBelow, secondBelow, firstApart, secondApart⟩
  · rintro ⟨firstNamed, secondNamed, firstApart, secondApart⟩
    refine ⟨(liesBelow_workspace_iff first).mpr firstNamed,
      (liesBelow_workspace_iff second).mpr secondNamed, ?_, ?_⟩
    · rw [names_workspace, names_workspace, prefix_append_right_inj]
      exact firstApart
    · rw [names_workspace, names_workspace, prefix_append_right_inj]
      exact secondApart

/-- Two workspaces below one directory. -/
theorem workspaceFor_isolated_builder_iff :
    Isolated (text (baseOf "/" "/srv/ws")) "/srv/ws/builder" "/srv/ws/reviewer" ↔
      KeepsApart "builder" "reviewer" := by
  have builder : (((init "/srv/ws").after id "/" []).workspaceFor id "/" "builder").1 =
      .ok "/srv/ws/builder" := by
    decide +kernel
  have reviewer : (((init "/srv/ws").after id "/" ["builder"]).workspaceFor id "/" "reviewer").1 =
      .ok "/srv/ws/reviewer" := by
    decide +kernel
  exact workspaceFor_isolated_iff builder reviewer

/-- The id of an agent may lead into the workspace of another one. -/
theorem team_contains_lead :
    ¬ ∀ (repr : String → String) (cwd baseDir : String) (agentIds laterIds : List String)
      (first second firstPath secondPath : String), first ≠ second →
      (((init baseDir).after repr cwd agentIds).workspaceFor repr cwd first).1 = .ok firstPath →
      (((init baseDir).after repr cwd laterIds).workspaceFor repr cwd second).1 = .ok secondPath →
      Isolated (text (baseOf cwd baseDir)) firstPath secondPath := by
  intro isolated
  have both := isolated id "/" "/srv/ws" [] ["team"] "team" "team/lead" "/srv/ws/team"
    "/srv/ws/team/lead" (by decide) (by decide +kernel) (by decide +kernel)
  exact both.first_apart (by decide +kernel)

end WorkspaceIsolationImpl

end AgenticOS.Security
