import AgenticOS.Packages.Writing

/-!
# The tree of a version

To write the files of a version is to graft a tree onto the file system: at the root of the
version there is the tree that the files make, and away from it nothing has changed but that
the way to the root is there.
-/

namespace AgenticOS.Packages

open FileSystem Transition List Ends

variable {β : Type}

/-- A file by its parts below the root of a tree. -/
abbrev Leaf (β : Type) := Location × β

/-- A location is the root of a tree, or on the way to one of its files. -/
def OnWay (leaves : List (Leaf β)) (location : Location) : Prop :=
  location = [] ∨ ∃ leaf ∈ leaves, location <+: leaf.1
deriving Decidable

/-- The file at a location; a later one replaces an earlier one. -/
def leafAt (leaves : List (Leaf β)) (location : Location) : Option (Leaf β) :=
  leaves.reverse.find? fun leaf => leaf.1 = location

def treeNode (leaves : List (Leaf β)) (location : Location) : Option (Node β) :=
  ((leafAt leaves location).map fun leaf => .file leaf.2).or
    (if OnWay leaves location then some .directory else none)

def graft (root : Location) (leaves : List (Leaf β)) (base : Location → Option (Node β))
    (location : Location) : Option (Node β) :=
  if root <+: location then treeNode leaves (location.drop root.length) else base location

/-- No file of a tree is a directory of another one. -/
def Consistent (leaves : List (Leaf β)) : Prop :=
  ∀ first ∈ leaves, ∀ second ∈ leaves, first.1 <+: second.1 → first.1 = second.1
deriving Decidable

section

variable {leaves : List (Leaf β)} {leaf : Leaf β} {root location : Location}
  {base : Location → Option (Node β)}

@[simp]
theorem graft_append (location : Location) :
    graft root leaves base (root ++ location) = treeNode leaves location := by
  unfold graft
  rw [if_pos (prefix_append root location), drop_left]

theorem graft_of_away (away : ¬ root <+: location) :
    graft root leaves base location = base location :=
  if_neg away

theorem leafAt_concat (location : Location) : leafAt (leaves ++ [leaf]) location =
      if location = leaf.1 then some leaf else leafAt leaves location := by
  unfold leafAt
  by_cases here : location = leaf.1
  · simp [here]
  · simp [here, Ne.symm here]

theorem leafAt_eq_none_iff :
    leafAt leaves location = none ↔ ∀ leaf ∈ leaves, leaf.1 ≠ location := by
  simp [leafAt]

theorem mem_of_leafAt (found : leafAt leaves location = some leaf) :
    leaf ∈ leaves ∧ leaf.1 = location := by
  have member := mem_of_find?_eq_some found
  have here := find?_some found
  exact ⟨mem_reverse.mp member, of_decide_eq_true here⟩

theorem onWay_concat_iff :
    OnWay (leaves ++ [leaf]) location ↔ OnWay leaves location ∨ location <+: leaf.1 := by
  simp only [OnWay, mem_append, mem_singleton, or_and_right, exists_or, exists_eq_left, or_assoc]

theorem treeNode_nil (location : Location) :
    treeNode ([] : List (Leaf β)) location = if location = [] then some .directory else none := by
  simp [treeNode, leafAt, OnWay]

theorem treeNode_of_none (nowhere : ∀ leaf ∈ leaves, leaf.1 ≠ location) :
    treeNode leaves location = if OnWay leaves location then some .directory else none := by
  unfold treeNode
  rw [leafAt_eq_none_iff.mpr nowhere]
  rfl

theorem treeNode_eq_none_iff : treeNode leaves location = none ↔ ¬ OnWay leaves location := by
  unfold treeNode
  cases found : leafAt leaves location with
  | none =>
    by_cases onWay : OnWay leaves location
    · simp [onWay]
    · simp [onWay]
  | some leaf =>
    obtain ⟨member, rfl⟩ := mem_of_leafAt found
    have onWay : OnWay leaves leaf.1 := .inr ⟨leaf, member, prefix_rfl⟩
    simp [onWay]

theorem treeNode_of_way (consistent : Consistent leaves) (member : leaf ∈ leaves)
    (below : location <+: leaf.1) (proper : location ≠ leaf.1) :
    treeNode leaves location = some .directory := by
  have onWay : OnWay leaves location := .inr ⟨leaf, member, below⟩
  rw [treeNode_of_none, if_pos onWay]
  rintro other otherMember rfl
  exact proper (consistent other otherMember leaf member below)

theorem treeNode_of_mem (distinct : (leaves.map Prod.fst).Nodup) (member : leaf ∈ leaves) :
    treeNode leaves leaf.1 = some (.file leaf.2) := by
  unfold treeNode
  cases found : leafAt leaves leaf.1 with
  | none => exact absurd rfl (leafAt_eq_none_iff.mp found leaf member)
  | some other =>
    obtain ⟨otherMember, same⟩ := mem_of_leafAt found
    have equal : other = leaf := inj_on_of_nodup_map distinct otherMember member same
    rw [equal]
    rfl

theorem mem_of_treeNode {data : β} (found : treeNode leaves location = some (.file data)) :
    (location, data) ∈ leaves := by
  unfold treeNode at found
  cases present : leafAt leaves location with
  | none =>
    rw [present] at found
    by_cases onWay : OnWay leaves location
    · simp [onWay] at found
    · simp [onWay] at found
  | some leaf =>
    obtain ⟨member, rfl⟩ := mem_of_leafAt present
    rw [present] at found
    obtain rfl : leaf.2 = data := by simpa using found
    exact member

theorem treeNode_congr {others : List (Leaf β)} (distinct : (leaves.map Prod.fst).Nodup)
    (same : ∀ leaf, leaf ∈ others ↔ leaf ∈ leaves) (location : Location) :
    treeNode others location = treeNode leaves location := by
  have sameWay : OnWay others location ↔ OnWay leaves location := by simp only [OnWay, same]
  cases found : leafAt others location with
  | none =>
    have nowhere := leafAt_eq_none_iff.mp found
    rw [treeNode_of_none nowhere, treeNode_of_none fun leaf member =>
      nowhere leaf ((same leaf).mpr member)]
    simp only [sameWay]
  | some leaf =>
    obtain ⟨member, rfl⟩ := mem_of_leafAt found
    rw [treeNode_of_mem distinct ((same leaf).mp member)]
    unfold treeNode
    rw [found]
    rfl

theorem treeNode_ne_directory (consistent : Consistent (leaves ++ [leaf]))
    (notRoot : leaf.1 ≠ []) : treeNode leaves leaf.1 ≠ some .directory := by
  intro isDirectory
  unfold treeNode at isDirectory
  cases found : leafAt leaves leaf.1 with
  | some other => simp [found] at isDirectory
  | none =>
    have onWay : OnWay leaves leaf.1 := by
      by_contra away
      simp [found, away] at isDirectory
    obtain ⟨other, member, below⟩ := onWay.resolve_left notRoot
    have same := consistent leaf (by simp) other (by simp [member]) below
    exact leafAt_eq_none_iff.mp found other member same.symm

theorem graft_concat (consistent : Consistent (leaves ++ [leaf]))
    (wayThere : ∀ location, location <+: root → location ≠ root →
      base location = some .directory) (location : Location) :
    graft root (leaves ++ [leaf]) base location =
      if location = root ++ leaf.1 then some (.file leaf.2)
      else if location <+: root ++ leaf.1 then some .directory
      else graft root leaves base location := by
  by_cases under : root <+: location
  · obtain ⟨rest, rfl⟩ := under
    rw [graft_append, graft_append]
    simp only [append_cancel_left_eq, prefix_append_right_inj]
    by_cases here : rest = leaf.1
    · rw [if_pos here]
      unfold treeNode
      rw [leafAt_concat, if_pos here]
      rfl
    · rw [if_neg here]
      by_cases below : rest <+: leaf.1
      · rw [if_pos below]
        exact treeNode_of_way consistent (by simp) below here
      · rw [if_neg below]
        unfold treeNode
        rw [leafAt_concat, if_neg here]
        simp only [onWay_concat_iff, below, or_false]
  · rw [graft_of_away under, graft_of_away under]
    have notHere : location ≠ root ++ leaf.1 := by
      rintro rfl
      exact under (prefix_append root leaf.1)
    rw [if_neg notHere]
    split
    case isTrue onWay =>
      rcases prefix_or_prefix_of_prefix onWay (prefix_append root leaf.1) with
        below | above
      · apply wayThere location below
        rintro rfl
        exact under prefix_rfl
      · exact absurd above under
    case isFalse => rfl

end

/-! ## Writing the files of a version -/

/-- The parts of a path that neither starts at the root nor goes up. -/
def IsPlain (path : String) : Prop :=
  path.toList.head? ≠ some '/' ∧ ".." ∉ partsOf path
deriving Decidable

theorem joinPath_of_plain {dir : List String} {path : String} (plain : IsPlain path) :
    joinPath dir path = dir ++ partsOf path :=
  if_neg plain.1

theorem render_starts {root : Location} (notRoot : root ≠ []) (rest : Location) :
    (render root).toList <+: (render (root ++ rest)).toList := by
  unfold render
  rw [if_neg notRoot, if_neg (by simp [notRoot]), String.toList_ofList, String.toList_ofList,
    flatMap_append]
  exact prefix_append _ _

section

variable {initial store : Store β} {root : Location} {leaves : List (Leaf β)}
  {base : Location → Option (Node β)}

/-- The state of the store while the files of a version are written. -/
structure Grafting (initial : Store β) (root : Location) (leaves : List (Leaf β))
    (base : Location → Option (Node β)) (store : Store β) : Prop where
  able : initial.budget = none
  straight : ".." ∉ root
  notRoot : root ≠ []
  consistent : Consistent leaves
  wayThere : ∀ location, location <+: root → location ≠ root → base location = some .directory
  becomes : Becomes initial (graft root leaves base) store

section

variable (grafting : Grafting initial root leaves base store)
include grafting

theorem Grafting.put {up : Location} {name : String} {data : β}
    (consistent : Consistent (leaves ++ [(up ++ [name], data)])) (straight : ".." ∉ up ++ [name])
    {between : Store β} (made : Becomes store (fun location =>
      if location <+: root ++ up then some .directory else store.fs.lookup location) between) :
    Ends (fun result after => result = .ok () ∧
        Grafting initial root (leaves ++ [(up ++ [name], data)]) base after)
      (writeBytes (root ++ (up ++ [name])) data) between := by
  have able : between.budget = none := by rw [made.budget, grafting.becomes.budget, grafting.able]
  have parent : between.fs.lookup (root ++ up) = some .directory := by
    rw [made.2]
    exact if_pos prefix_rfl
  have noDirectory : between.fs.lookup (root ++ (up ++ [name])) ≠ some .directory := by
    have notMade : ¬ root ++ (up ++ [name]) <+: root ++ up := fun below =>
      absurd below.length_le (by simp)
    rw [made.2]
    dsimp only
    rw [if_neg notMade, grafting.becomes.2, graft_append]
    exact treeNode_ne_directory consistent (by simp)
  have straightAll : ".." ∉ (root ++ up) ++ [name] := by
    rw [append_assoc]
    exact fun member => (mem_append.mp member).elim grafting.straight straight
  rw [← append_assoc] at noDirectory ⊢
  apply mono (writeBytes_written able straightAll parent data noDirectory)
  rintro result after ⟨rfl, written⟩
  refine ⟨rfl, grafting.able, grafting.straight, grafting.notRoot, consistent,
    grafting.wayThere, (grafting.becomes.trans made).trans ⟨written.1, fun location => ?_⟩⟩
  rw [written.2]
  dsimp only
  rw [graft_concat consistent grafting.wayThere, made.2]
  dsimp only
  rw [grafting.becomes.2, ← append_assoc root up [name]]
  by_cases here : location = root ++ up ++ [name]
  · rw [if_pos here, if_pos here]
  · simp only [prefix_concat_iff, here, false_or]

theorem Grafting.noFile {up : Location} {name : String} {data : β}
    (consistent : Consistent (leaves ++ [(up ++ [name], data)])) :
    NoFile store.fs (root ++ up) := by
  intro location onWay found isFile
  rw [grafting.becomes.2] at isFile
  by_cases under : root <+: location
  · obtain ⟨rest, rfl⟩ := under
    rw [graft_append] at isFile
    have below : rest <+: up := (prefix_append_right_inj root).mp onWay
    have member := mem_of_treeNode isFile
    have same := consistent (rest, found) (by simp [member]) (up ++ [name], data) (by simp)
      (below.trans (prefix_append up [name]))
    have longer := below.length_le
    dsimp only at same
    rw [same, length_append, length_singleton] at longer
    omega
  · rw [graft_of_away under] at isFile
    have above :=
      (List.prefix_or_prefix_of_prefix onWay (prefix_append root up)).resolve_right under
    rw [grafting.wayThere location above] at isFile
    · cases isFile
    · rintro rfl
      exact under prefix_rfl

theorem Grafting.writeFile {path : String} {data : β} (plain : IsPlain path)
    (consistent : Consistent (leaves ++ [(partsOf path, data)]))
    (some : ∃ leaf ∈ leaves, leaf.1 ≠ []) : Ends (fun result after => result = .ok () ∧
        Grafting initial root (leaves ++ [(partsOf path, data)]) base after)
      (writeFile root (path, data)) store := by
  have straight : ".." ∉ partsOf path := plain.2
  have target : joinPath root path = root ++ partsOf path := joinPath_of_plain plain
  have straightAll : ".." ∉ root ++ partsOf path := fun member =>
    (mem_append.mp member).elim grafting.straight straight
  have inside : (render (normalize root)).toList.isPrefixOf
      (render (normalize (joinPath root path))).toList = true := by
    rw [target, normalize_of_straight straightAll, normalize_of_straight grafting.straight]
    exact isPrefixOf_iff_prefix.mpr (render_starts grafting.notRoot _)
  obtain ⟨up, name, parts⟩ : ∃ up name, partsOf path = up ++ [name] := by
    cases parts : partsOf path using List.reverseRecOn with
    | nil =>
      obtain ⟨leaf, member, notRoot⟩ := some
      have same := consistent (partsOf path, data) (by simp) leaf (by simp [member])
        (by simp [parts])
      exact absurd (same.symm.trans parts) notRoot
    | append_singleton up name => exact ⟨up, name, rfl⟩
  unfold Packages.writeFile
  rw [if_pos inside, target, parts, ← append_assoc, dropLast_concat, ends_bind]
  rw [parts] at consistent straight straightAll
  rw [← append_assoc] at straightAll
  have noFile : NoFile store.fs (root ++ up) := grafting.noFile consistent
  have able : store.budget = none := grafting.becomes.budget.trans grafting.able
  have straightUp : ".." ∉ root ++ up := fun member =>
    straightAll (mem_append_left _ member)
  apply mono (mkdir_made able straightUp noFile (.inl rfl))
  rintro result between ⟨rfl, made⟩
  rw [andThen_ok, append_assoc]
  exact grafting.put consistent straight made

theorem Grafting.writeFiles {files : List (String × β)} (plain : ∀ file ∈ files, IsPlain file.1)
    (some : ∃ leaf ∈ leaves, leaf.1 ≠ [])
    (consistent : Consistent (leaves ++ files.map fun file => (partsOf file.1, file.2))) :
    Ends (fun result after => result = .ok () ∧
        Grafting initial root (leaves ++ files.map fun file => (partsOf file.1, file.2)) base after)
      (files.forM (Packages.writeFile root)) store := by
  induction files generalizing leaves store with
  | nil =>
    rw [map_nil, append_nil]
    exact ⟨rfl, grafting⟩
  | cons file files ih =>
    rw [map_cons, append_cons] at consistent ⊢
    have earlier : Consistent (leaves ++ [(partsOf file.1, file.2)]) :=
      fun first firstMember second secondMember =>
        consistent first (mem_append_left _ firstMember) second (mem_append_left _ secondMember)
    rw [List.forM, ends_bind]
    apply mono (grafting.writeFile (plain file mem_cons_self) earlier some)
    rintro result between ⟨rfl, next⟩
    obtain ⟨leaf, member, notRoot⟩ := some
    exact ih next
      (fun other member => plain other (mem_cons_of_mem _ member))
      ⟨leaf, mem_append_left _ member, notRoot⟩ consistent

end

end

section

variable (env : Environment β) {store : Store β} {manifest : Manifest} {files : Dict String β}

def versionLeaves (manifest : Manifest) (files : Dict String β) : List (Leaf β) :=
  ([manifestName], env.dumps manifest) ::
    files.entries.map fun file => (partsOf file.1, file.2)

def withWay (fs : FileSystem β) (root location : Location) : Option (Node β) :=
  if location <+: root then some .directory else fs.lookup location

theorem head_of_dropWhile {removed : Char → Bool} {text : List Char} {char : Char}
    (first : (text.dropWhile removed).head? = some char) : removed char = false := by
  induction text with
  | nil => simp at first
  | cons head text ih =>
    rw [dropWhile_cons] at first
    split at first
    case isTrue => exact ih first
    case isFalse kept =>
      obtain rfl : head = char := by simpa using first
      exact Bool.eq_false_iff.mpr kept

theorem safeName_ne_up (name : String) : safeName name ≠ ".." := by
  unfold safeName
  dsimp only
  split
  case isTrue => decide
  case isFalse =>
    intro up
    have characters := congrArg String.toList up
    unfold stripOf at characters
    rw [String.toList_ofList] at characters
    have reversed := congrArg List.head? (reverse_eq_iff.mp characters)
    have kept : (fun char => decide (char = '.')) '.' = false := head_of_dropWhile reversed
    simp at kept

theorem installedRoot_straight (name : String) : ".." ∉ installedRoot env name := by
  intro member
  rcases mem_append.mp member with above | here
  · rcases mem_append.mp above with data | installed
    · exact env.straight data
    · simp at installed
  · exact safeName_ne_up name (mem_singleton.mp here).symm

/-- The version is written in its place: the root can be made, the paths are plain and no
file is a directory of another one. -/
structure Writable (store : Store β) (root : Location) (manifest : Manifest)
    (files : Dict String β) : Prop where
  able : store.budget = none
  straight : ".." ∉ root
  notRoot : root ≠ []
  noFile : NoFile store.fs root
  plain : ∀ file ∈ files.entries, IsPlain file.1
  consistent : Consistent (versionLeaves env manifest files)

/-- Remove what is in the place of a version. -/
def clear (root : List String) : Program β Unit := do
  if ((← get).fs.find root).isSome then rmtree root else pure ()

variable {root : Location}

theorem writeVersion_eq (isRoot : versionRoot env manifest.name manifest.version = root) :
    writeVersion env manifest files = (do
      clear root
      mkdir false root
      writeBytes (root ++ [manifestName]) (env.dumps manifest)
      files.entries.forM (writeFile root)) := by
  unfold writeVersion clear
  rw [isRoot, bind_assoc]
  apply bind_congr
  intro store
  split
  case isTrue => rfl
  case isFalse => rw [pure_bind]

section

variable (able : store.budget = none) (straight : ".." ∉ root) (notRoot : root ≠ [])
  (noFile : NoFile store.fs root)
include able straight notRoot noFile

theorem cleared :
    Ends (fun result after => result = .ok () ∧ Becomes store (fun location =>
      if root <+: location then none else store.fs.lookup location) after)
      (clear root) store := by
  unfold clear
  rw [ends_bind, ends_get, andThen_ok, ends_ite, find_of_straight straight]
  cases there : store.fs.lookup root with
  | none =>
    refine ⟨rfl, rfl, fun location => ?_⟩
    dsimp only
    split
    case isTrue under => exact lookup_eq_none_above under there
    case isFalse => rfl
  | some node =>
    cases node with
    | file data => exact absurd there (noFile root prefix_rfl data)
    | directory => exact rmtree_removed able straight notRoot there

theorem rooted {between : Store β} (becomes : Becomes store (fun location =>
      if root <+: location then none else store.fs.lookup location) between) :
    Ends (fun result after => result = .ok () ∧
        Grafting store root [] (withWay store.fs root) after) (mkdir false root) between := by
  have missing : between.fs.lookup root = none := by
    rw [becomes.2]
    exact if_pos prefix_rfl
  have noFileNow : NoFile between.fs root := by
    intro location onWay data isFile
    rw [becomes.2] at isFile
    dsimp only at isFile
    split at isFile
    · cases isFile
    · exact noFile location onWay data isFile
  apply mono (mkdir_made (becomes.budget.trans able) straight noFileNow (.inr missing))
  rintro result after ⟨rfl, made⟩
  refine ⟨rfl, able, straight, notRoot, nofun, fun location below _ => if_pos below,
    becomes.trans ⟨made.1, fun location => ?_⟩⟩
  rw [made.2]
  dsimp only
  rw [becomes.2]
  by_cases under : root <+: location
  · obtain ⟨rest, rfl⟩ := under
    rw [graft_append, treeNode_nil]
    by_cases here : rest = []
    · simp [here]
    · have notAbove : ¬ root ++ rest <+: root := by
        intro above
        have longer := above.length_le
        rw [length_append] at longer
        exact here (length_eq_zero_iff.mp (by omega))
      simp [here, notAbove]
  · rw [graft_of_away under]
    dsimp only
    rw [if_neg under]
    rfl

end

/-- `_write_version` makes the tree of the version, and nothing else but the way to it. -/
theorem writeVersion_written (writable : Writable env store root manifest files)
    (isRoot : versionRoot env manifest.name manifest.version = root) :
    Ends (fun result after => result = .ok () ∧
        Becomes store (graft root (versionLeaves env manifest files) (withWay store.fs root)) after)
      (writeVersion env manifest files) store := by
  obtain ⟨able, straight, notRoot, noFile, plain, consistent⟩ := writable
  rw [writeVersion_eq env isRoot, ends_bind]
  apply mono (cleared able straight notRoot noFile)
  rintro result between ⟨rfl, becomes⟩
  rw [andThen_ok, ends_bind]
  apply mono (rooted able straight notRoot noFile becomes)
  rintro result made ⟨rfl, grafting⟩
  have single : Consistent ([] ++ [(([] : Location) ++ [manifestName],
      env.dumps manifest)]) := by
    simp [Consistent]
  have unchanged : Becomes made (fun location =>
      if location <+: root ++ [] then some .directory else made.fs.lookup location) made := by
    refine ⟨rfl, fun location => ?_⟩
    dsimp only
    rw [append_nil]
    split
    case isTrue below =>
      apply lookup_above_directory _ below
      rw [grafting.becomes.2]
      exact (congrArg _ (append_nil root).symm).trans (graft_append [])
    case isFalse => rfl
  rw [andThen_ok, ends_bind]
  apply mono (grafting.put single (by decide) unchanged)
  rintro result manifestThere ⟨rfl, grafting⟩
  rw [andThen_ok]
  apply mono (grafting.writeFiles plain ⟨_, mem_cons_self, by simp⟩ consistent)
  rintro result after ⟨rfl, grafting⟩
  exact ⟨rfl, grafting.becomes⟩

end

end AgenticOS.Packages
