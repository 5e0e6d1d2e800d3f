import AgenticOS.Data.Dict
import Mathlib.Data.List.Sort

/-!
# A file system without links

A file system is a tree of directories and files, given by the nodes at its locations. The
location of a node is the list of names that lead to it from the root, which is always a
directory; that the parent of a node is a directory is part of the structure.

A path may also go up. What it leads to depends on the file system, since each part of the
way must be a directory; `walk` finds it out as the system does, whereas `normalize` only
counts the steps.
-/

namespace AgenticOS

open List

universe u

/-- What may be found at a location. -/
inductive Node (β : Type u) where
  | directory
  | file (data : β)
deriving DecidableEq

instance {β : Type u} (node : Node β) : Decidable (node = .directory) :=
  match node with
  | .directory => .isTrue rfl
  | .file _ => .isFalse nofun

instance {β : Type u} (found : Option (Node β)) : Decidable (found = some .directory) :=
  match found with
  | some .directory => .isTrue rfl
  | some (.file _) => .isFalse nofun
  | none => .isFalse nofun

/-- The names from the root to a location, or the parts of a path. -/
abbrev Location := List String

def nodeAt {β : Type u} (nodes : Dict Location (Node β)) (location : Location) : Option (Node β) :=
  if location = [] then some .directory else nodes.get? location

structure FileSystem (β : Type u) where
  nodes : Dict Location (Node β)
  closed : ∀ location name, nodeAt nodes (location ++ [name]) ≠ none →
    nodeAt nodes location = some .directory

namespace FileSystem

variable {β : Type u} {fs : FileSystem β} {location other : Location}

def lookup (fs : FileSystem β) (location : Location) : Option (Node β) :=
  nodeAt fs.nodes location

/-- A file system in which there is nothing but the root. -/
def empty : FileSystem β where
  nodes := .empty
  closed location name present := by
    simp [nodeAt, Dict.get?_empty] at present

@[simp]
theorem lookup_root (fs : FileSystem β) : fs.lookup [] = some .directory :=
  rfl

theorem lookup_of_ne_root (fs : FileSystem β) (notRoot : location ≠ []) :
    fs.lookup location = fs.nodes.get? location :=
  if_neg notRoot

theorem lookup_above (below : location <+: other) (proper : location ≠ other)
    (present : fs.lookup other ≠ none) : fs.lookup location = some .directory := by
  obtain ⟨rest, rfl⟩ := below
  induction rest using List.reverseRecOn with
  | nil => exact absurd (append_nil location).symm proper
  | append_singleton rest name ih =>
    rw [← append_assoc] at present
    have parent := fs.closed (location ++ rest) name present
    cases rest with
    | nil => simpa [lookup] using parent
    | cons first rest =>
      apply ih
      · intro same
        simpa using congrArg List.length same
      · show nodeAt fs.nodes (location ++ first :: rest) ≠ none
        simp [parent]

theorem lookup_eq_none_above (below : location <+: other)
    (missing : fs.lookup location = none) : fs.lookup other = none := by
  by_cases same : location = other
  · rw [← same]
    exact missing
  · by_contra present
    rw [lookup_above below same present] at missing
    cases missing

/-- A node may be put at a location if its parent is a directory, and if no directory is
replaced by a file. -/
def Placeable (fs : FileSystem β) (location : Location) (node : Node β) : Prop :=
  location ≠ [] ∧ fs.lookup location.dropLast = some .directory ∧
    (node = .directory ∨ fs.lookup location ≠ some .directory)
deriving Decidable

def put (fs : FileSystem β) (location : Location) (node : Node β)
    (placeable : fs.Placeable location node) : FileSystem β where
  nodes := fs.nodes.set location node
  closed := by
    obtain ⟨notRoot, parent, keeps⟩ := placeable
    have after : ∀ other, nodeAt (fs.nodes.set location node) other =
        if other = location then some node else fs.lookup other := by
      intro other
      by_cases root : other = []
      · subst root
        rw [if_neg (Ne.symm notRoot)]
        rfl
      · rw [nodeAt, if_neg root, Dict.get?_set, lookup_of_ne_root fs root]
    intro other name present
    rw [after] at present ⊢
    by_cases here : other ++ [name] = location
    · subst here
      rw [dropLast_concat] at parent
      rw [if_neg, parent]
      intro same
      simpa using congrArg List.length same
    · rw [if_neg here] at present
      have isDirectory := fs.closed other name present
      by_cases same : other = location
      · rw [if_pos same]
        subst same
        rw [keeps.resolve_right (not_not_intro isDirectory)]
      · rw [if_neg same]
        exact isDirectory

@[simp]
theorem lookup_put {node : Node β} (placeable : fs.Placeable location node) (other : Location) :
    (fs.put location node placeable).lookup other =
      if other = location then some node else fs.lookup other := by
  by_cases root : other = []
  · subst root
    rw [if_neg (Ne.symm placeable.1)]
    rfl
  · rw [lookup_of_ne_root _ root, lookup_of_ne_root _ root]
    exact Dict.get?_set fs.nodes location other node

/-- Nothing lies below a location. -/
def IsLeaf (fs : FileSystem β) (location : Location) : Prop :=
  ∀ key ∈ fs.nodes.keys, location <+: key → key = location
deriving Decidable

def remove (fs : FileSystem β) (location : Location) (leaf : fs.IsLeaf location) :
    FileSystem β where
  nodes := fs.nodes.erase location
  closed := by
    have after : ∀ other, other ≠ [] → nodeAt (fs.nodes.erase location) other =
        if other = location then none else fs.lookup other := by
      intro other notRoot
      rw [nodeAt, if_neg notRoot, Dict.get?_erase, lookup_of_ne_root fs notRoot]
    intro other name present
    rw [after _ (by simp)] at present
    split at present
    case isTrue => exact absurd rfl present
    case isFalse =>
      have isDirectory := fs.closed other name present
      by_cases root : other = []
      · subst root
        rfl
      · rw [after other root, if_neg]
        · exact isDirectory
        · rintro rfl
          have key : other ++ [name] ∈ fs.nodes.keys := by
            rw [lookup_of_ne_root fs (by simp)] at present
            exact Dict.mem_keys_iff.mpr (Option.ne_none_iff_exists'.mp present)
          have same := leaf _ key (prefix_append other [name])
          simpa using congrArg List.length same

theorem lookup_remove (leaf : fs.IsLeaf location) (notRoot : location ≠ []) (other : Location) :
    (fs.remove location leaf).lookup other =
      if other = location then none else fs.lookup other := by
  by_cases root : other = []
  · subst root
    rw [if_neg (Ne.symm notRoot)]
    rfl
  · rw [lookup_of_ne_root _ root, lookup_of_ne_root _ root]
    exact Dict.get?_erase fs.nodes location other

/-- Why a path leads nowhere, or why a call on it fails. -/
inductive OSError where
  | fileNotFound
  | notADirectory
  | isADirectory
  | fileExists
  | directoryNotEmpty
  | failed
deriving DecidableEq

/-- Follow a path from a location. What it leads to may be missing, but nothing on the way. -/
def walk (fs : FileSystem β) : List String → Location → Except OSError Location
  | [], here => .ok here
  | part :: rest, here =>
    match fs.lookup here with
    | none => .error .fileNotFound
    | some (.file _) => .error .notADirectory
    | some .directory => walk fs rest (if part = ".." then here.dropLast else here ++ [part])

/-- The location that a path would lead to if everything on the way were a directory. -/
def normalize (parts : List String) : Location :=
  parts.foldl (fun here part => if part = ".." then here.dropLast else here ++ [part]) []

/-- The node that a path leads to. -/
def find (fs : FileSystem β) (parts : List String) : Option (Node β) :=
  match fs.walk parts [] with
  | .ok location => fs.lookup location
  | .error _ => none

theorem walk_append (fs : FileSystem β) (parts rest : List String) (here : Location) :
    fs.walk (parts ++ rest) here = (fs.walk parts here).bind (fs.walk rest) := by
  induction parts generalizing here with
  | nil => rfl
  | cons part parts ih =>
    rw [cons_append]
    unfold walk
    cases fs.lookup here with
    | none => rfl
    | some node =>
      cases node with
      | file data => rfl
      | directory => exact ih _

theorem find_behind_file {path rest : List String} {data : β}
    (isFile : fs.find path = some (.file data)) (goesOn : rest ≠ []) :
    fs.find (path ++ rest) = none := by
  unfold find at isFile ⊢
  rw [walk_append]
  cases walked : fs.walk path [] with
  | error error => rfl
  | ok location =>
    rw [walked] at isFile
    dsimp only at isFile
    obtain ⟨part, others, rfl⟩ := exists_cons_of_ne_nil goesOn
    have blocked : fs.walk (part :: others) location = .error .notADirectory := by
      unfold walk
      rw [isFile]
    change (match fs.walk (part :: others) location with
      | .ok location => fs.lookup location
      | .error _ => none) = none
    rw [blocked]

theorem walk_of_straight {parts : List String} {here : Location} (straight : ".." ∉ parts)
    (passable : ∀ location, here <+: location → location <+: here ++ parts →
      location ≠ here ++ parts → fs.lookup location = some .directory) :
    fs.walk parts here = .ok (here ++ parts) := by
  induction parts generalizing here with
  | nil => simp [walk]
  | cons part rest ih =>
    have isDirectory := passable here prefix_rfl (prefix_append here _) (by simp)
    have notUp : part ≠ ".." := fun up => straight (up ▸ mem_cons_self)
    unfold walk
    rw [isDirectory]
    rw [if_neg notUp, ih]
    · simp
    · exact fun member => straight (mem_cons_of_mem part member)
    · intro location below above proper
      rw [append_assoc, singleton_append] at above proper
      exact passable location ((prefix_append here [part]).trans below) above proper

theorem eq_of_walk_of_straight {parts : List String} {here : Location}
    (straight : ".." ∉ parts) (walked : fs.walk parts here = .ok location) :
    location = here ++ parts := by
  induction parts generalizing here with
  | nil =>
    rw [append_nil]
    exact (Except.ok.inj walked).symm
  | cons part rest ih =>
    have notUp : part ≠ ".." := fun up => straight (up ▸ mem_cons_self)
    unfold walk at walked
    split at walked
    · cases walked
    · cases walked
    · rw [if_neg notUp] at walked
      rw [ih (fun member => straight (mem_cons_of_mem part member)) walked,
        append_assoc, singleton_append]

theorem find_of_straight {path : Location} (straight : ".." ∉ path) :
    fs.find path = fs.lookup path := by
  unfold find
  cases walked : fs.walk path [] with
  | ok location =>
    have same := eq_of_walk_of_straight straight walked
    rw [nil_append] at same
    rw [same]
  | error error =>
    by_contra present
    have walkedOn : fs.walk path [] = .ok ([] ++ path) :=
      walk_of_straight straight fun location _ above proper =>
        lookup_above above proper (.symm present)
    rw [walked] at walkedOn
    cases walkedOn

theorem normalize_append_of_straight (parts : List String) {rest : List String}
    (straight : ".." ∉ rest) : normalize (parts ++ rest) = normalize parts ++ rest := by
  induction rest using List.reverseRecOn with
  | nil => simp
  | append_singleton rest part ih =>
    have notUp : part ≠ ".." := by
      rintro rfl
      exact straight (by simp)
    have before := ih fun member => straight (mem_append_left _ member)
    rw [← append_assoc, normalize, foldl_append]
    simp only [foldl_cons, foldl_nil, if_neg notUp]
    rw [← normalize, before, append_assoc]

theorem normalize_of_straight {path : Location} (straight : ".." ∉ path) :
    normalize path = path := by
  have same := normalize_append_of_straight [] straight
  simpa [normalize] using same

end FileSystem

end AgenticOS
