import AgenticOS.Data.Paths
import Mathlib.Data.List.DropRight

/-!
# Putting paths together

Paths are joined, brought into their normal form, made absolute and taken apart as texts. What
these operations do to a path is told by its names, as long as it is known whether the path is
absolute.
-/

namespace AgenticOS.Paths

open FileSystem List

def IsAbsolute (path : String) : Prop :=
  path.toList.head? = some '/'
deriving Decidable

def join (directory path : String) : String :=
  if IsAbsolute path then path
  else if directory = "" ∨ directory.toList.getLast? = some '/' then directory ++ path
  else directory ++ "/" ++ path

/-- The names of a path after its steps up; a relative path may still begin with some. -/
def collapse (isAbsolute : Prop) [Decidable isAbsolute] (names : List String) : List String :=
  names.foldl (fun before name =>
    if name ≠ ".." ∨ (¬ isAbsolute ∧ before = []) ∨ before.getLast? = some ".." then
      before ++ [name]
    else before.dropLast) []

/-- The slashes with which the normal form of a path begins: two of them are kept. -/
def root (path : String) : String :=
  if IsAbsolute path then
    if path.toList[1]? = some '/' ∧ path.toList[2]? ≠ some '/' then "//" else "/"
  else ""

def normpath (path : String) : String :=
  let normal := root path ++ "/".intercalate (collapse (IsAbsolute path) (names path))
  if normal = "" then "." else normal

def abspath (cwd path : String) : String :=
  normpath (if IsAbsolute path then path else join cwd path)

def dirname (path : String) : String :=
  let head := path.toList.rdropWhile (· ≠ '/')
  String.ofList (if head.all (· = '/') then head else head.rdropWhile (· = '/'))

theorem names_append_slash (before after : List Char) :
    names (String.ofList (before ++ '/' :: after)) =
      names (String.ofList before) ++ names (String.ofList after) := by
  simp only [names, String.toList_ofList]
  rw [splitOn_append_cons_self, map_append, filter_append]

@[simp]
theorem names_empty : names "" = [] :=
  rfl

theorem names_slash (path : String) : names ("/" ++ path) = names path := by
  have split := names_append_slash [] path.toList
  rw [String.ofList_toList] at split
  rw [← String.ofList_toList (s := "/" ++ path), String.toList_append]
  exact split

variable {path : String}

theorem names_join {directory : String} (relative : ¬ IsAbsolute path) :
    names (join directory path) = names directory ++ names path := by
  have apart := names_append_slash directory.toList path.toList
  rw [String.ofList_toList, String.ofList_toList] at apart
  unfold join
  rw [if_neg relative]
  split
  · next ended =>
      rcases ended with rfl | slash
      · simp
      · obtain ⟨before, shape⟩ := getLast?_eq_some_iff.mp slash
        have first := names_append_slash before []
        have second := names_append_slash before path.toList
        rw [← shape, String.ofList_toList] at first
        rw [← String.ofList_toList (s := directory ++ path), String.toList_append, shape,
          append_assoc, singleton_append, second, first]
        simp
  · rw [← apart, ← String.ofList_toList (s := directory ++ "/" ++ path)]
    simp

theorem names_of_isName {name : String} (valid : IsName name) : names name = [name] := by
  have single : (['/'].intercalate [name.toList]).splitOn '/' = [name.toList] :=
    splitOn_intercalate '/' (by simpa using valid.noSlash) (cons_ne_nil _ _)
  rw [intercalate_singleton] at single
  rw [names, single, map_singleton, String.ofList_toList, filter_cons_of_pos, filter_nil]
  exact decide_eq_true ⟨valid.nonempty, valid.notDot⟩

variable {parts : List String}

theorem names_intercalate (valid : ∀ part ∈ parts, IsName part) :
    names ("/".intercalate parts) = parts := by
  induction parts with
  | nil => simp
  | cons part rest ih =>
    rw [forall_mem_cons] at valid
    have tail := ih valid.2
    cases rest with
    | nil => simpa using names_of_isName valid.1
    | cons second rest =>
      have shape : "/".intercalate (part :: second :: rest) =
          .ofList (part.toList ++ '/' :: ("/".intercalate (second :: rest)).toList) := by
        apply String.toList_injective
        simp
      rw [shape, names_append_slash, String.ofList_toList, String.ofList_toList, tail,
        names_of_isName valid.1, singleton_append]

theorem mem_of_mem_collapse {isAbsolute : Prop} [Decidable isAbsolute] {name : String}
    (member : name ∈ collapse isAbsolute parts) : name ∈ parts := by
  induction parts using List.reverseRecOn with
  | nil => exact member
  | append_singleton parts part ih =>
    rw [collapse, foldl_append] at member
    simp only [foldl_cons, foldl_nil] at member
    split at member
    · rcases mem_append.mp member with earlier | here
      · exact mem_append_left _ (ih earlier)
      · exact mem_append_right _ here
    · exact mem_append_left _ (ih (dropLast_subset _ member))

theorem collapse_of_absolute {isAbsolute : Prop} [Decidable isAbsolute] (absolute : isAbsolute)
    (parts : List String) : collapse isAbsolute parts = normalize parts := by
  induction parts using List.reverseRecOn with
  | nil => rfl
  | append_singleton parts part ih =>
    have settled : (normalize parts).getLast? ≠ some ".." := fun last =>
      up_not_mem_normalize parts (mem_of_getLast? last)
    rw [collapse, FileSystem.normalize, foldl_append, foldl_append]
    rw [← collapse, ← FileSystem.normalize, ih]
    by_cases up : part = ".." <;> simp [up, absolute, settled]

theorem names_root (path rest : String) : names (root path ++ rest) = names rest := by
  unfold root
  split
  · split
    · have twice : names ("/" ++ ("/" ++ rest)) = names rest := by
        rw [names_slash, names_slash]
      exact twice
    · exact names_slash rest
  · rw [String.empty_append]

theorem names_normpath (path : String) :
    names (normpath path) = collapse (IsAbsolute path) (names path) := by
  have read : names (root path ++ "/".intercalate (collapse (IsAbsolute path) (names path))) =
      collapse (IsAbsolute path) (names path) := by
    rw [names_root, names_intercalate]
    exact fun part member => isName_of_mem_names (mem_of_mem_collapse member)
  unfold normpath
  dsimp only
  split
  · next nothing =>
      rw [← read, nothing]
      rfl
  · exact read

theorem isAbsolute_append {first : String} (rest : String) (absolute : IsAbsolute first) :
    IsAbsolute (first ++ rest) := by
  obtain ⟨others, shape⟩ := head?_eq_some_iff.mp absolute
  simp [IsAbsolute, shape]

theorem not_isAbsolute_intercalate (valid : ∀ part ∈ parts, IsName part) :
    ¬ IsAbsolute ("/".intercalate parts) := by
  cases parts with
  | nil => simp [IsAbsolute]
  | cons part rest =>
    rw [forall_mem_cons] at valid
    have nonempty := mt String.toList_eq_nil_iff.mp valid.1.nonempty
    obtain ⟨first, others, shape⟩ := exists_cons_of_ne_nil nonempty
    have notSlash : first ≠ '/' := by
      rintro rfl
      exact valid.1.noSlash (shape ▸ mem_cons_self)
    cases rest with
    | nil => simp [IsAbsolute, shape, notSlash]
    | cons second rest => simp [IsAbsolute, String.intercalate_cons_of_ne_nil, shape, notSlash]

theorem isAbsolute_normpath (absolute : IsAbsolute path) : IsAbsolute (normpath path) := by
  have slashes : IsAbsolute (root path) := by
    unfold root
    rw [if_pos absolute]
    split <;> decide
  have normal := isAbsolute_append
    ("/".intercalate (collapse (IsAbsolute path) (names path))) slashes
  unfold normpath
  dsimp only
  split
  · next nothing =>
      rw [nothing] at normal
      exact absurd normal (by decide)
  · exact normal

theorem not_isAbsolute_normpath (relative : ¬ IsAbsolute path) : ¬ IsAbsolute (normpath path) := by
  unfold normpath root
  rw [if_neg relative, String.empty_append]
  dsimp only
  split
  · decide
  · apply not_isAbsolute_intercalate
    exact fun part member => isName_of_mem_names (mem_of_mem_collapse member)

variable (directory : String)

theorem isAbsolute_join_iff (relative : ¬ IsAbsolute path) :
    IsAbsolute (join directory path) ↔ IsAbsolute directory := by
  unfold join
  rw [if_neg relative]
  unfold IsAbsolute at relative ⊢
  by_cases nothing : directory = ""
  · simp [nothing, relative]
  · obtain ⟨first, others, shape⟩ :=
      exists_cons_of_ne_nil (mt String.toList_eq_nil_iff.mp nothing)
    split <;> simp [shape]

/-! ## Where a path leads -/

theorem resolve_of_absolute (absolute : IsAbsolute path) :
    resolve directory path = normalize (names path) :=
  congrArg (fun above => normalize (above ++ names path)) (if_pos absolute)

theorem resolve_of_relative (relative : ¬ IsAbsolute path) :
    resolve directory path = normalize (names directory ++ names path) :=
  congrArg (fun above => normalize (above ++ names path)) (if_neg relative)

theorem resolve_join_of_straight (cwd directory : String) (relative : ¬ IsAbsolute path)
    (straight : ".." ∉ names path) :
    resolve cwd (join directory path) = resolve cwd directory ++ names path := by
  by_cases absolute : IsAbsolute directory
  · rw [resolve_of_absolute cwd ((isAbsolute_join_iff directory relative).mpr absolute),
      resolve_of_absolute cwd absolute, names_join relative,
      normalize_append_of_straight _ straight]
  · rw [resolve_of_relative cwd (mt (isAbsolute_join_iff directory relative).mp absolute),
      resolve_of_relative cwd absolute, names_join relative, ← append_assoc,
      normalize_append_of_straight _ straight]

section

variable {cwd : String} (absolute : IsAbsolute cwd) (path : String)
include absolute

theorem isAbsolute_abspath : IsAbsolute (abspath cwd path) := by
  apply isAbsolute_normpath
  split
  · assumption
  · next relative => exact (isAbsolute_join_iff cwd relative).mpr absolute

theorem names_abspath : names (abspath cwd path) = resolve cwd path := by
  unfold abspath
  rw [names_normpath]
  by_cases here : IsAbsolute path
  · rw [collapse_of_absolute (by rwa [if_pos here]), if_pos here, resolve_of_absolute cwd here]
  · have joined := (isAbsolute_join_iff cwd here).mpr absolute
    rw [collapse_of_absolute (by rwa [if_neg here]), if_neg here, names_join here,
      resolve_of_relative cwd here]

@[simp]
theorem resolve_abspath : resolve cwd (abspath cwd path) = resolve cwd path := by
  rw [resolve_of_absolute cwd (isAbsolute_abspath absolute path), names_abspath absolute]
  exact normalize_of_straight (up_not_mem_normalize _)

end

theorem names_rdropWhile_slash (path : List Char) :
    names (String.ofList (path.rdropWhile (· = '/'))) = names (String.ofList path) := by
  induction path using List.reverseRecOn with
  | nil => rfl
  | append_singleton path last ih =>
    by_cases slash : last = '/'
    · have apart := names_append_slash path []
      rw [slash, rdropWhile_concat_pos _ _ _ (by simp), ih, apart]
      simp
    · rw [rdropWhile_concat_neg _ _ _ (by simp [slash])]

theorem names_dirname (path : String) : names (dirname path) <+: names path := by
  have same : names (dirname path) =
      names (.ofList (path.toList.rdropWhile (· ≠ '/'))) := by
    unfold dirname
    dsimp only
    split
    · rfl
    · exact names_rdropWhile_slash _
  have parted : path.toList.rdropWhile (· ≠ '/') ++ path.toList.rtakeWhile (· ≠ '/') =
      path.toList := rdropWhile_append_rtakeWhile
  have last := rdropWhile_last_not (fun char => decide (char ≠ '/')) path.toList
  rw [same]
  generalize path.toList.rdropWhile _ = head at parted last ⊢
  rcases eq_nil_or_concat' head with rfl | ⟨before, char, rfl⟩
  · exact nil_prefix
  · have slash : char = '/' := by simpa using last (by simp)
    have first := names_append_slash before []
    have apart := names_append_slash before (path.toList.rtakeWhile fun char =>
      decide (char ≠ '/'))
    rw [slash, append_assoc, singleton_append] at parted
    rw [parted, String.ofList_toList] at apart
    rw [slash, first, apart]
    simp

theorem head_of_begins {first path : List Char} (begins : first <+: path)
    (nonempty : first ≠ []) : first.head? = path.head? := by
  obtain ⟨rest, rfl⟩ := begins
  obtain ⟨char, others, rfl⟩ := exists_cons_of_ne_nil nonempty
  rfl

theorem isAbsolute_dirname (absolute : IsAbsolute path) : IsAbsolute (dirname path) := by
  have slash : '/' ∈ path.toList := mem_of_head? absolute
  have above : path.toList.rdropWhile (· ≠ '/') ≠ [] := by
    intro nothing
    simpa using rdropWhile_eq_nil_iff.mp nothing '/' slash
  have first := head_of_begins (List.rdropWhile_prefix _ _) above
  unfold IsAbsolute dirname
  rw [String.toList_ofList]
  split
  · rw [first, absolute]
  · next notAll =>
      have proper : (path.toList.rdropWhile (· ≠ '/')).rdropWhile (· = '/') ≠ [] := by
        intro nothing
        exact notAll (all_eq_true.mpr (rdropWhile_eq_nil_iff.mp nothing))
      rw [head_of_begins (List.rdropWhile_prefix _ _) proper, first, absolute]

end AgenticOS.Paths
