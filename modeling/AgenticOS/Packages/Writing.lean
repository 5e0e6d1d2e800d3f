import AgenticOS.Packages.Manager

/-!
# What the changes of the file system come to

While the system makes all changes, a path without steps up is made by making what is
missing on its way, a tree is removed by removing everything below it, and the tree of a
version is made of exactly the files that are written into it. While the system makes no
change, nothing changes.
-/

namespace AgenticOS.Packages

open FileSystem Transition List Ends

variable {β : Type}

section

variable {property : Except Raised Unit → Store β → Prop} {store : Store β}
  {attempt : FileSystem β → Except OSError (FileSystem β)}

theorem ends_change_of_ok {fs : FileSystem β} (able : store.budget = none)
    (made : attempt store.fs = .ok fs) :
    Ends property (change attempt) store ↔ property (.ok ()) { store with fs } := by
  unfold change
  rw [ends_bind, ends_get, andThen_ok, made, able]
  exact .rfl

theorem ends_change_of_error {error : OSError} (raised : attempt store.fs = .error error) :
    Ends property (change attempt) store ↔ property (.error (.os error)) store := by
  unfold change
  rw [ends_bind, ends_get, andThen_ok, raised]
  exact .rfl

end

/-- The store has changed in its file system only, which has become this one. -/
def Becomes (store : Store β) (node : Location → Option (Node β)) (after : Store β) : Prop :=
  after = { store with fs := after.fs } ∧ ∀ location, after.fs.lookup location = node location

variable {node : Location → Option (Node β)}

theorem Becomes.trans {store between after : Store β} {later : Location → Option (Node β)}
    (first : Becomes store node between) (second : Becomes between later after) :
    Becomes store later after := by
  constructor
  · rw [second.1, first.1]
  · exact second.2

theorem Becomes.budget {store after : Store β} (becomes : Becomes store node after) :
    after.budget = store.budget := by
  rw [becomes.1]

section

variable {fs : FileSystem β} {up path : Location} {name : String}

/-- No file is in the way of a path, nor at its end. -/
def NoFile (fs : FileSystem β) (path : Location) : Prop :=
  ∀ location, location <+: path → ∀ data, fs.lookup location ≠ some (.file data)

theorem NoFile.of_prefix {location : Location} (noFile : NoFile fs path)
    (below : location <+: path) : NoFile fs location :=
  fun other onWay => noFile other (onWay.trans below)

theorem walk_of_present (straight : ".." ∉ path) (present : fs.lookup path ≠ none) :
    fs.walk path [] = .ok path :=
  fs.walk_of_straight straight fun _ _ above proper => lookup_above above proper present

theorem walk_of_parent (straight : ".." ∉ up ++ [name]) (parent : fs.lookup up = some .directory) :
    fs.walk (up ++ [name]) [] = .ok (up ++ [name]) := by
  apply fs.walk_of_straight straight
  intro location _ above proper
  rcases prefix_concat_iff.mp above with same | before
  · exact absurd same proper
  · by_cases same : location = up
    · rw [same]
      exact parent
    · exact lookup_above before same (by simp [parent])

theorem walk_of_missing {parts : List String} {here : Location} (straight : ".." ∉ parts)
    (noFile : ∀ location, here <+: location → location <+: here ++ parts →
      ∀ data, fs.lookup location ≠ some (.file data))
    {gap : Location} (below : here <+: gap) (above : gap <+: here ++ parts)
    (proper : gap ≠ here ++ parts) (missing : fs.lookup gap = none) :
    fs.walk parts here = .error .fileNotFound := by
  induction parts generalizing here with
  | nil =>
    rw [append_nil] at above proper
    exact absurd (above.eq_of_length_le below.length_le) proper
  | cons part rest ih =>
    have notUp : part ≠ ".." := fun up => straight (up ▸ mem_cons_self)
    unfold walk
    cases found : fs.lookup here with
    | none => rfl
    | some node =>
      cases node with
      | file data => exact absurd found (noFile here prefix_rfl (prefix_append here _) data)
      | directory =>
        rw [if_neg notUp]
        rw [← singleton_append, ← append_assoc] at noFile above proper
        apply ih (fun member => straight (mem_cons_of_mem part member))
        · exact fun location onWay => noFile location ((prefix_append here [part]).trans onWay)
        · have shorter : (here ++ [part]).length ≤ gap.length := by
            rw [length_append, length_singleton]
            apply Nat.lt_of_le_of_ne below.length_le
            intro sameLength
            rw [below.eq_of_length sameLength, missing] at found
            cases found
          exact prefix_of_prefix_length_le (prefix_append _ rest) above shorter
        · exact above
        · exact proper

theorem walk_of_blocked {parts : List String} {here : Location} (straight : ".." ∉ parts)
    {obstacle : Location} (below : here <+: obstacle) (above : obstacle <+: here ++ parts)
    (proper : obstacle ≠ here ++ parts) {data : β}
    (isFile : fs.lookup obstacle = some (.file data)) :
    fs.walk parts here = .error .notADirectory := by
  induction parts generalizing here with
  | nil =>
    rw [append_nil] at above proper
    exact absurd (above.eq_of_length_le below.length_le) proper
  | cons part rest ih =>
    have notUp : part ≠ ".." := fun up => straight (up ▸ mem_cons_self)
    unfold walk
    by_cases reached : here = obstacle
    · rw [reached, isFile]
    · rw [lookup_above below reached (by simp [isFile])]
      rw [if_neg notUp]
      rw [← singleton_append, ← append_assoc] at above proper
      apply ih (fun member => straight (mem_cons_of_mem part member))
      · have shorter : (here ++ [part]).length ≤ obstacle.length := by
          rw [length_append, length_singleton]
          apply Nat.lt_of_le_of_ne below.length_le
          exact fun sameLength => reached (below.eq_of_length sameLength)
        exact prefix_of_prefix_length_le (prefix_append _ rest) above shorter
      · exact above
      · exact proper

end

section

variable {store : Store β} {up path : Location} {name : String}

theorem osMkdir_made (able : store.budget = none) (straight : ".." ∉ up ++ [name])
    (parent : store.fs.lookup up = some .directory)
    (missing : store.fs.lookup (up ++ [name]) = none) :
    Ends (fun result after => result = .ok () ∧ Becomes store (fun location =>
      if location = up ++ [name] then some .directory else store.fs.lookup location) after)
      (osMkdir (up ++ [name])) store := by
  have placeable : store.fs.Placeable (up ++ [name]) .directory :=
    ⟨by simp, by simpa using parent, .inl rfl⟩
  have made : (do
      let location ← store.fs.walk (up ++ [name]) []
      if placeable : store.fs.Placeable location .directory ∧ store.fs.lookup location = none then
        return store.fs.put location .directory placeable.1
      else .error .fileExists : Except OSError (FileSystem β)) =
      .ok (store.fs.put (up ++ [name]) .directory placeable) := by
    rw [walk_of_parent straight parent]
    exact dif_pos ⟨placeable, missing⟩
  unfold osMkdir
  rw [ends_change_of_ok able made]
  exact ⟨rfl, rfl, lookup_put placeable⟩

variable {property : Except Raised Unit → Store β → Prop}

theorem osMkdir_present (straight : ".." ∉ path) (present : store.fs.lookup path ≠ none) :
    Ends property (osMkdir path) store ↔ property (.error (.os .fileExists)) store := by
  unfold osMkdir
  rw [ends_change_of_error]
  rw [walk_of_present straight present]
  exact dif_neg fun both => present both.2

theorem osMkdir_walk {error : OSError} (nowhere : store.fs.walk path [] = .error error) :
    Ends property (osMkdir path) store ↔ property (.error (.os error)) store := by
  unfold osMkdir
  rw [ends_change_of_error]
  rw [nowhere]
  rfl

theorem mkdirLast_made {existOk : Bool} (able : store.budget = none)
    (straight : ".." ∉ up ++ [name]) (parent : store.fs.lookup up = some .directory)
    (missing : store.fs.lookup (up ++ [name]) = none) :
    Ends (fun result after => result = .ok () ∧ Becomes store (fun location =>
      if location = up ++ [name] then some .directory else store.fs.lookup location) after)
      (mkdirLast existOk (up ++ [name])) store := by
  unfold mkdirLast
  rw [ends_tryCatch]
  apply mono (osMkdir_made able straight parent missing)
  rintro result after ⟨rfl, becomes⟩
  exact ⟨rfl, becomes⟩

theorem ends_ifExists (existOk : Bool) (path : List String) (raised : Raised) :
    Ends property (do
      if existOk ∧ (← get).fs.find path = some .directory then pure () else throw raised)
      store ↔
    if existOk ∧ store.fs.find path = some .directory then property (.ok ()) store
      else property (.error raised) store := by
  rw [ends_bind, ends_get, andThen_ok, ends_ite]
  exact .rfl

theorem lookup_above_directory {fs : FileSystem β} {location : Location}
    (isDirectory : fs.lookup path = some .directory) (below : location <+: path) :
    fs.lookup location = some .directory := by
  by_cases same : location = path
  · rw [same]
    exact isDirectory
  · exact lookup_above below same (by simp [isDirectory])

theorem Becomes.of_last {after : Store β} (parent : store.fs.lookup up = some .directory)
    (becomes : Becomes store (fun location =>
      if location = up ++ [name] then some .directory else store.fs.lookup location) after) :
    Becomes store (fun location =>
      if location <+: up ++ [name] then some .directory else store.fs.lookup location) after := by
  refine ⟨becomes.1, fun location => ?_⟩
  rw [becomes.2]
  dsimp only
  by_cases same : location = up ++ [name]
  · rw [if_pos same, if_pos (same ▸ prefix_rfl)]
  · rw [if_neg same]
    split
    case isTrue below =>
      have above := (prefix_concat_iff.mp below).resolve_left same
      exact lookup_above_directory parent above
    case isFalse => rfl

theorem Becomes.of_directory (isDirectory : store.fs.lookup path = some .directory) :
    Becomes store (fun location =>
      if location <+: path then some .directory else store.fs.lookup location) store := by
  refine ⟨rfl, fun location => ?_⟩
  dsimp only
  split
  case isTrue below => exact lookup_above_directory isDirectory below
  case isFalse => rfl

theorem Becomes.append {between after : Store β} (parents : Becomes store (fun location =>
      if location <+: up then some .directory else store.fs.lookup location) between)
    (last : Becomes between (fun location =>
      if location <+: up ++ [name] then some .directory else between.fs.lookup location) after) :
    Becomes store (fun location =>
      if location <+: up ++ [name] then some .directory else store.fs.lookup location) after := by
  refine parents.trans ⟨last.1, fun location => ?_⟩
  rw [last.2]
  dsimp only
  split
  case isTrue => rfl
  case isFalse away =>
    rw [parents.2]
    exact if_neg fun below => away (below.trans (prefix_append up [name]))

theorem mkdirParents_made {existOk : Bool} {names : List String} (able : store.budget = none)
    (straight : ".." ∉ names.reverse) (noFile : NoFile store.fs names.reverse)
    (allowed : existOk = true ∨ store.fs.lookup names.reverse = none) :
    Ends (fun result after => result = .ok () ∧ Becomes store (fun location =>
      if location <+: names.reverse then some .directory else store.fs.lookup location) after)
      (mkdirParents existOk names) store := by
  induction names generalizing store existOk with
  | nil =>
    have canExist : existOk = true := allowed.resolve_right nofun
    unfold mkdirParents mkdirLast
    rw [ends_tryCatch, osMkdir_present (by simp) (by simp), orHandled_error, ends_ifExists,
      if_pos ⟨canExist, rfl⟩]
    exact ⟨rfl, .of_directory (lookup_root store.fs)⟩
  | cons name names ih =>
    rw [reverse_cons] at straight noFile allowed ⊢
    unfold mkdirParents
    rw [ends_tryCatch, reverse_cons]
    have onWay : names.reverse <+: names.reverse ++ [name] := prefix_append _ _
    have straightUp : ".." ∉ names.reverse := fun member =>
      straight (mem_append_left _ member)
    cases parent : store.fs.lookup names.reverse with
    | none =>
      -- The parents are made first, and then there is nothing in the way.
      have nowhere : store.fs.walk (names.reverse ++ [name]) [] = .error .fileNotFound :=
        walk_of_missing straight (fun location _ below => noFile location below)
          nil_prefix onWay (by simp) parent
      rw [osMkdir_walk nowhere, orHandled_error, if_pos rfl, ends_bind]
      apply mono (ih able straightUp (noFile.of_prefix onWay) (.inl rfl))
      rintro result between ⟨rfl, becomes⟩
      have parentMade : between.fs.lookup names.reverse = some .directory := by
        rw [becomes.2]
        exact if_pos prefix_rfl
      have missing : between.fs.lookup (names.reverse ++ [name]) = none := by
        rw [becomes.2]
        dsimp only
        rw [if_neg fun below => absurd below.length_le (by simp)]
        exact lookup_eq_none_above onWay parent
      rw [andThen_ok]
      apply mono (mkdirLast_made (becomes.budget.trans able) straight parentMade missing)
      rintro result after ⟨rfl, made⟩
      exact ⟨rfl, becomes.append (made.of_last parentMade)⟩
    | some node =>
      cases node with
      | file data => exact absurd parent (noFile _ onWay data)
      | directory =>
        cases present : store.fs.lookup (names.reverse ++ [name]) with
        | none =>
          apply mono (osMkdir_made able straight parent present)
          rintro result after ⟨rfl, becomes⟩
          exact ⟨rfl, becomes.of_last parent⟩
        | some node =>
          cases node with
          | file data => exact absurd present (noFile _ prefix_rfl data)
          | directory =>
            have there : store.fs.lookup (names.reverse ++ [name]) ≠ none := by simp [present]
            have canExist : existOk = true := allowed.resolve_right there
            rw [osMkdir_present straight there, orHandled_error, if_neg nofun,
              ends_ifExists, if_pos ⟨canExist, (find_of_straight straight).trans present⟩]
            exact ⟨rfl, .of_directory present⟩

/-- `path.mkdir(parents=True)` along a way without a file. -/
theorem mkdir_made {existOk : Bool} (able : store.budget = none) (straight : ".." ∉ path)
    (noFile : NoFile store.fs path) (allowed : existOk = true ∨ store.fs.lookup path = none) :
    Ends (fun result after => result = .ok () ∧ Becomes store (fun location =>
      if location <+: path then some .directory else store.fs.lookup location) after)
      (mkdir existOk path) store := by
  have reversed : path.reverse.reverse = path := reverse_reverse path
  rw [← reversed] at straight noFile allowed
  have made := mkdirParents_made able straight noFile allowed
  rwa [reversed] at made

theorem mkdir_blocked (straight : ".." ∉ path) {obstacle : Location} (onWay : obstacle <+: path)
    (proper : obstacle ≠ path) {data : β} (isFile : store.fs.lookup obstacle = some (.file data)) :
    Ends (fun result after => result = .error (.os .notADirectory) ∧ after = store)
      (mkdir false path) store := by
  obtain ⟨up, name, rfl⟩ : ∃ up name, path = up ++ [name] := by
    cases path using List.reverseRecOn with
    | nil => exact absurd (prefix_nil.mp onWay) proper
    | append_singleton up name => exact ⟨up, name, rfl⟩
  have nowhere : store.fs.walk (up ++ [name]) [] = .error .notADirectory :=
    walk_of_blocked straight nil_prefix onWay proper isFile
  unfold mkdir
  rw [reverse_concat, mkdirParents, reverse_cons, reverse_reverse, ends_tryCatch,
    osMkdir_walk nowhere, orHandled_error, if_neg nofun, ends_ifExists,
    if_neg fun both => by cases both.1]
  exact ⟨rfl, rfl⟩

end

/-! ## Writing files -/

section

variable {store : Store β} {up path : Location} {name : String}

theorem writeBytes_written (able : store.budget = none) (straight : ".." ∉ up ++ [name])
    (parent : store.fs.lookup up = some .directory) (data : β)
    (noDirectory : store.fs.lookup (up ++ [name]) ≠ some .directory) :
    Ends (fun result after => result = .ok () ∧ Becomes store (fun location =>
      if location = up ++ [name] then some (.file data) else store.fs.lookup location) after)
      (writeBytes (up ++ [name]) data) store := by
  have placeable : store.fs.Placeable (up ++ [name]) (.file data) :=
    ⟨by simp, by simpa using parent, .inr noDirectory⟩
  unfold writeBytes
  rw [ends_change_of_ok able]
  · exact ⟨rfl, rfl, lookup_put placeable⟩
  · rw [walk_of_parent straight parent]
    exact dif_pos placeable

end

section

variable {store : Store β} {location : Location}

theorem removeAt_removed (able : store.budget = none) (present : store.fs.lookup location ≠ none)
    (notRoot : location ≠ []) (leaf : store.fs.IsLeaf location) :
    Ends (fun result after => result = .ok () ∧ Becomes store (fun other =>
      if other = location then none else store.fs.lookup other) after)
      (change (removeAt location)) store := by
  have removed : removeAt location store.fs = .ok (store.fs.remove location leaf) := by
    unfold removeAt
    rw [if_neg present]
    exact dif_pos ⟨notRoot, leaf⟩
  rw [ends_change_of_ok able removed]
  exact ⟨rfl, rfl, lookup_remove leaf notRoot⟩

variable {fs : FileSystem β}

theorem lookup_of_mem_keys (key : location ∈ fs.nodes.keys) : fs.lookup location ≠ none := by
  by_cases root : location = []
  · simp [root]
  · rw [lookup_of_ne_root fs root]
    exact Option.ne_none_iff_exists'.mpr (Dict.mem_keys_iff.mp key)

theorem removeAll_removed {locations : List Location} (able : store.budget = none)
    (deepest : locations.Pairwise fun first second => second.length ≤ first.length)
    (distinct : locations.Nodup)
    (present : ∀ location ∈ locations, location ≠ [] ∧ store.fs.lookup location ≠ none)
    (downward : ∀ location ∈ locations, ∀ other, location <+: other →
      store.fs.lookup other ≠ none → other ∈ locations) :
    Ends (fun result after => result = .ok () ∧ Becomes store (fun other =>
      if other ∈ locations then none else store.fs.lookup other) after)
      (locations.forM fun location => change (removeAt location)) store := by
  induction locations generalizing store with
  | nil =>
    refine ⟨rfl, rfl, fun other => ?_⟩
    exact (if_neg not_mem_nil).symm
  | cons head rest ih =>
    obtain ⟨notRoot, there⟩ := present head mem_cons_self
    obtain ⟨headDeepest, restDeepest⟩ := pairwise_cons.mp deepest
    obtain ⟨headNew, restDistinct⟩ := nodup_cons.mp distinct
    have leaf : store.fs.IsLeaf head := by
      intro key member below
      have listed := downward head mem_cons_self key below (lookup_of_mem_keys member)
      rcases mem_cons.mp listed with same | later
      · exact same
      · exact (below.eq_of_length_le (headDeepest key later)).symm
    rw [List.forM, ends_bind]
    apply mono (removeAt_removed able there notRoot leaf)
    rintro result between ⟨rfl, becomes⟩
    have keeps : ∀ other ∈ rest, between.fs.lookup other = store.fs.lookup other := by
      intro other member
      rw [becomes.2]
      apply if_neg
      rintro rfl
      exact headNew member
    rw [andThen_ok]
    apply mono (ih (becomes.budget.trans able) restDeepest restDistinct _ _)
    · rintro result after ⟨rfl, removed⟩
      refine ⟨rfl, becomes.trans ⟨removed.1, fun other => ?_⟩⟩
      rw [removed.2]
      dsimp only
      rw [becomes.2]
      by_cases here : other = head
      · simp [here]
      · simp [here]
    · intro other member
      rw [keeps other member]
      exact present other (mem_cons_of_mem head member)
    · intro location member other below stillThere
      rw [becomes.2] at stillThere
      dsimp only at stillThere
      split at stillThere
      case isTrue => exact absurd rfl stillThere
      case isFalse notHead =>
        have listed := downward location (mem_cons_of_mem head member) other below stillThere
        exact (mem_cons.mp listed).resolve_left notHead

theorem mem_keys_of_lookup (notRoot : location ≠ []) (present : fs.lookup location ≠ none) :
    location ∈ fs.nodes.keys := by
  rw [lookup_of_ne_root fs notRoot] at present
  exact Dict.mem_keys_iff.mpr (Option.ne_none_iff_exists'.mp present)

theorem mem_below_iff {other : Location} :
    other ∈ below fs location ↔ other ∈ fs.nodes.keys ∧ location <+: other ∧ other ≠ location := by
  simp [below]

theorem below_deepest (fs : FileSystem β) (location : Location) :
    (below fs location).Pairwise fun first second => second.length ≤ first.length := by
  have : Std.Total fun first second : Location => second.length ≤ first.length :=
    ⟨fun first second => Nat.le_total second.length first.length⟩
  have : IsTrans Location fun first second => second.length ≤ first.length :=
    ⟨fun _ _ _ left right => Nat.le_trans right left⟩
  exact pairwise_insertionSort _ _

theorem below_distinct (fs : FileSystem β) (location : Location) : (below fs location).Nodup := by
  unfold below
  rw [List.Perm.nodup_iff (perm_insertionSort _ _)]
  exact fs.nodes.nodupKeys.filter _

theorem rmtree_removed (able : store.budget = none) (straight : ".." ∉ location)
    (notRoot : location ≠ []) (isDirectory : store.fs.lookup location = some .directory) :
    Ends (fun result after => result = .ok () ∧ Becomes store (fun other =>
      if location <+: other then none else store.fs.lookup other) after)
      (rmtree location) store := by
  have walked : store.fs.walk location [] = .ok location :=
    walk_of_present straight (by simp [isDirectory])
  have nonempty {other : Location} (under : location <+: other) : other ≠ [] := by
    rintro rfl
    exact notRoot (prefix_nil.mp under)
  have listed {other : Location} (under : location <+: other) (proper : other ≠ location)
      (present : store.fs.lookup other ≠ none) : other ∈ below store.fs location :=
    mem_below_iff.mpr ⟨mem_keys_of_lookup (nonempty under) present, under, proper⟩
  unfold rmtree
  rw [ends_bind, ends_get, andThen_ok]
  dsimp only
  rw [walked]
  dsimp only
  rw [if_pos isDirectory, ends_bind]
  have emptied := removeAll_removed able (below_deepest store.fs location)
    (below_distinct store.fs location)
    (fun other member => by
      obtain ⟨key, under, -⟩ := mem_below_iff.mp member
      exact ⟨nonempty under, lookup_of_mem_keys key⟩)
    (fun other member further under present => by
      obtain ⟨-, above, proper⟩ := mem_below_iff.mp member
      apply listed (above.trans under) _ present
      rintro rfl
      exact proper (above.eq_of_length_le under.length_le).symm)
  apply mono emptied
  rintro result between ⟨rfl, becomes⟩
  have stays : between.fs.lookup location = some .directory := by
    rw [becomes.2]
    dsimp only
    rw [if_neg fun member => (mem_below_iff.mp member).2.2 rfl, isDirectory]
  have leaf : between.fs.IsLeaf location := by
    intro key member under
    by_contra proper
    have present := lookup_of_mem_keys member
    rw [becomes.2] at present
    dsimp only at present
    split at present
    case isTrue => exact present rfl
    case isFalse unlisted => exact unlisted (listed under proper present)
  have removed : removeAt location between.fs = .ok (between.fs.remove location leaf) := by
    unfold removeAt
    rw [if_neg (by simp [stays])]
    exact dif_pos ⟨notRoot, leaf⟩
  rw [andThen_ok]
  unfold osRmdir
  rw [ends_change_of_ok (becomes.budget.trans able)]
  · refine ⟨rfl, becomes.trans ⟨rfl, fun other => ?_⟩⟩
    rw [lookup_remove leaf notRoot]
    by_cases here : other = location
    · simp [here]
    · rw [if_neg here, becomes.2]
      dsimp only
      by_cases under : location <+: other
      · rw [if_pos under]
        by_cases present : store.fs.lookup other = none
        · rw [present, ite_self]
        · exact if_pos (listed under here present)
      · rw [if_neg under, if_neg fun member => under (mem_below_iff.mp member).2.1]
  · rw [walk_of_present straight (by simp [stays])]
    exact removed

theorem rmtree_of_file (straight : ".." ∉ location) {data : β}
    (isFile : store.fs.lookup location = some (.file data)) :
    Ends (fun result after => result = .error (.os .notADirectory) ∧ after = store)
      (rmtree location) store := by
  unfold rmtree
  rw [ends_bind, ends_get, andThen_ok]
  dsimp only
  rw [walk_of_present straight (by simp [isFile])]
  dsimp only
  rw [isFile, if_neg nofun]
  exact ⟨rfl, rfl⟩

end

end AgenticOS.Packages
