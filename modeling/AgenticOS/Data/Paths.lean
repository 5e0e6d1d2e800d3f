import AgenticOS.Data.FileSystem

/-!
# Texts of paths

The names of a path stand between its slashes; empty names and dots lead nowhere and are left out.
Conversely a location has a text, from which its names can be read again. With the texts, to lie
below a directory is to begin with its names, which is more than to begin with its text.
-/

namespace AgenticOS.Paths

open FileSystem List

/-- The names of a path, without those that lead nowhere. -/
def names (path : String) : List String :=
  ((path.toList.splitOn '/').map String.ofList).filter fun name => name ≠ "" ∧ name ≠ "."

/-- The text of an absolute path. -/
def text (location : Location) : String :=
  if location = [] then "/"
  else String.ofList (location.flatMap fun name => '/' :: name.toList)

def resolve (directory path : String) : Location :=
  normalize ((if path.toList.head? = some '/' then [] else names directory) ++ names path)

def LiesBelow (directory path : String) : Prop :=
  names directory <+: names path ∧ names directory ≠ names path

/-- What may be a name in a path. -/
structure IsName (name : String) : Prop where
  nonempty : name ≠ ""
  notDot : name ≠ "."
  noSlash : '/' ∉ name.toList

theorem splitOn_names (location : Location) (valid : ∀ name ∈ location, '/' ∉ name.toList) :
    (location.flatMap fun name => '/' :: name.toList).splitOn '/' =
      [] :: location.map String.toList := by
  have joined : (location.flatMap fun name => '/' :: name.toList) =
      ['/'].intercalate ([] :: location.map String.toList) := by
    induction location with
    | nil => rfl
    | cons name rest ih =>
      rw [forall_mem_cons] at valid
      have tail := ih valid.2
      cases rest with
      | nil => simp [List.intercalate]
      | cons second rest =>
        rw [flatMap_cons, tail]
        simp [List.intercalate]
  rw [joined, splitOn_intercalate]
  · simpa using valid
  · simp

theorem not_mem_of_mem_splitOn {separator : Char} {path part : List Char}
    (member : part ∈ path.splitOn separator) : separator ∉ part := by
  induction path generalizing part with
  | nil =>
    rw [splitOn_nil, mem_singleton] at member
    rw [member]
    exact not_mem_nil
  | cons first rest ih =>
    rw [splitOn_cons_eq_if_modifyHead] at member
    split at member
    · rcases mem_cons.mp member with rfl | later
      · exact not_mem_nil
      · exact ih later
    · next different =>
        obtain ⟨head, parts, parted⟩ :=
          exists_cons_of_ne_nil (splitOn_ne_nil separator rest)
        rw [parted] at member ih
        rcases mem_cons.mp member with rfl | later
        · have notFirst : separator ≠ first := by
            rintro rfl
            simp at different
          have notHead := ih (mem_cons_self)
          simp [notFirst, notHead]
        · exact ih (mem_cons_of_mem _ later)

theorem infix_intercalate {part : List Char} {parts : List (List Char)} (separator : Char)
    (member : part ∈ parts) : part <:+: [separator].intercalate parts := by
  induction parts with
  | nil => cases member
  | cons first rest ih =>
    cases rest with
    | nil =>
      rw [mem_singleton.mp member]
      simp [List.intercalate]
    | cons second rest =>
      have joined : [separator].intercalate (first :: second :: rest) =
          first ++ separator :: [separator].intercalate (second :: rest) := by
        simp [List.intercalate]
      rcases mem_cons.mp member with rfl | later
      · exact (prefix_append _ _).isInfix
      · exact (ih later).trans ((suffix_cons _ _).trans (suffix_append _ _)).isInfix

variable {path name : String}

theorem infix_of_mem_names (member : name ∈ names path) : name.toList <:+: path.toList := by
  obtain ⟨part, partMem, rfl⟩ := mem_map.mp (mem_of_mem_filter member)
  have inside := infix_intercalate '/' partMem
  rw [intercalate_splitOn] at inside
  rw [String.toList_ofList]
  exact inside

theorem isName_of_mem_names (member : name ∈ names path) : IsName name := by
  obtain ⟨inside, proper⟩ := mem_filter.mp member
  obtain ⟨part, partMem, rfl⟩ := mem_map.mp inside
  rw [decide_eq_true_iff] at proper
  refine ⟨proper.1, proper.2, ?_⟩
  rw [String.toList_ofList]
  exact not_mem_of_mem_splitOn partMem

theorem names_text {location : Location} (valid : ∀ name ∈ location, IsName name) :
    names (text location) = location := by
  have kept : ∀ name ∈ location, decide (name ≠ "" ∧ name ≠ ".") = true :=
    fun name member => decide_eq_true ⟨(valid name member).nonempty, (valid name member).notDot⟩
  unfold names text
  split
  · next root => rw [root]; rfl
  · rw [String.toList_ofList, splitOn_names location fun name member => (valid name member).noSlash]
    have same : String.ofList ∘ String.toList = id := funext fun name => String.ofList_toList
    rw [map_cons, map_map, same, map_id, filter_cons_of_neg (by decide),
      filter_eq_self]
    exact kept

theorem text_append (directory rest : Location) :
    (text directory).toList <+: (text (directory ++ rest)).toList := by
  unfold text
  by_cases root : directory = []
  · rw [if_pos root, root, nil_append]
    split
    · exact prefix_rfl
    · next notRoot =>
        obtain ⟨name, others, rfl⟩ := exists_cons_of_ne_nil notRoot
        simp
  · rw [if_neg root, if_neg (append_ne_nil_of_left_ne_nil root rest), String.toList_ofList,
      String.toList_ofList, flatMap_append]
    exact prefix_append _ _

theorem mem_of_mem_normalize {parts : List String} (member : name ∈ normalize parts) :
    name ∈ parts := by
  induction parts using List.reverseRecOn with
  | nil => exact member
  | append_singleton parts part ih =>
    rw [FileSystem.normalize, foldl_append] at member
    simp only [foldl_cons, foldl_nil] at member
    split at member
    · exact mem_append_left _ (ih (dropLast_subset _ member))
    · rcases mem_append.mp member with earlier | here
      · exact mem_append_left _ (ih earlier)
      · exact mem_append_right _ here

theorem up_not_mem_normalize (parts : List String) : ".." ∉ normalize parts := by
  induction parts using List.reverseRecOn with
  | nil => exact not_mem_nil
  | append_singleton parts part ih =>
    rw [FileSystem.normalize, foldl_append]
    simp only [foldl_cons, foldl_nil]
    rw [← FileSystem.normalize]
    split
    · exact fun member => ih (dropLast_subset _ member)
    · next notUp => simp [ih, Ne.symm notUp]

theorem isName_of_mem_resolve {directory : String} (member : name ∈ resolve directory path) :
    IsName name := by
  rcases mem_append.mp (mem_of_mem_normalize member) with above | inside
  · split at above
    · cases above
    · exact isName_of_mem_names above
  · exact isName_of_mem_names inside

theorem resolve_text_of_straight {location : Location} (valid : ∀ name ∈ location, IsName name)
    (settled : ".." ∉ location) (relative : path.toList.head? ≠ some '/')
    (straight : ".." ∉ names path) : resolve (text location) path = location ++ names path := by
  rw [resolve, if_neg relative, names_text valid, normalize_append_of_straight _ straight,
    normalize_of_straight settled]

end AgenticOS.Paths
