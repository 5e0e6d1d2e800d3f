import AgenticOS.Packages.Releases
import Mathlib.Data.Nat.Cast.Order.Basic

/-!
# Rolling back

A rollback goes to the latest checkpoint of another version than the current one. Behind the
last release this is the one before it; but from there it is the last release again, since the
rows of the rollbacks have no checkpoints of their own: rollbacks go to and fro between the
last two releases.
-/

namespace AgenticOS.Packages

open FileSystem Transition List Ends Dict

variable {β : Type} {env : Environment β} {name : String}

section

variable {fs : FileSystem β} {release : Release env name}

section

variable (tree : HasTree fs release)
include tree

theorem replay_found {path : String} {data : β} (stored : release.files.get? path = some data) :
    fs.find (joinPath release.root path) = some (.file data) := by
  have member := get?_eq_some_iff.mp stored
  have plain := release.sound.plain _ member
  have isLeaf : (partsOf path, data) ∈ release.leaves :=
    mem_cons_of_mem _ (mem_map.mpr ⟨(path, data), member, rfl⟩)
  have isNode := treeNode_of_mem release.places isLeaf
  rw [joinPath_of_plain plain, find_of_straight, tree]
  · exact isNode
  · exact fun up => (mem_append.mp up).elim release.straight plain.2

theorem replayProblems_eq_nil :
    (release.recordOf.2).flatMap (replayProblems env fs release.root) = [] := by
  rw [flatMap_eq_nil_iff]
  intro entry member
  obtain ⟨listed, isListed, rfl⟩ := mem_map.mp member
  obtain ⟨data, stored, hash⟩ :=
    listed_of_verified (readArchive_of_accepted release.isAccepted).2 isListed
  unfold replayProblems
  rw [replay_found tree stored]
  exact if_neg (not_not_intro hash)

theorem get?_replay (path : String) :
    (replay fs release.root release.recordOf.2).get? path = release.files.get? path := by
  have isVerified := (readArchive_of_accepted release.isAccepted).2
  have forward : ∀ data, (replay fs release.root release.recordOf.2).get? path = some data →
      release.files.get? path = some data := by
    intro data found
    obtain ⟨entry, member, isPair⟩ := mem_filterMap.mp (mem_of_get?_ofList found)
    obtain ⟨listed, isListed, rfl⟩ := mem_map.mp member
    obtain ⟨stored, isStored, -⟩ := listed_of_verified isVerified isListed
    rw [replay_found tree isStored] at isPair
    cases isPair
    exact isStored
  cases stored : release.files.get? path with
  | none =>
    cases found : (replay fs release.root release.recordOf.2).get? path with
    | none => rfl
    | some data =>
      rw [forward data found] at stored
      cases stored
  | some data =>
    have isListed := mem_of_verified isVerified (mem_keys_iff.mpr ⟨data, stored⟩)
    obtain ⟨entry, member, rfl⟩ := mem_map.mp isListed
    have isKey : entry.path ∈ (replay fs release.root release.recordOf.2).keys := by
      unfold replay
      rw [mem_keys_ofList]
      refine mem_map.mpr ⟨(entry.path, data), mem_filterMap.mpr
        ⟨(entry.path, entry.sha256), mem_map.mpr ⟨entry, member, rfl⟩, ?_⟩, rfl⟩
      rw [replay_found tree stored]
    obtain ⟨found, isFound⟩ := mem_keys_iff.mp isKey
    rw [isFound, ← stored, forward found isFound]

theorem mem_versionLeaves_replay (leaf : Leaf β) : leaf ∈ versionLeaves env release.manifest
      (replay fs release.root release.recordOf.2) ↔ leaf ∈ release.leaves := by
  have sameEntries : ∀ file, file ∈ (replay fs release.root release.recordOf.2).entries ↔
      file ∈ release.files.entries := by
    intro file
    rw [← get?_eq_some_iff, ← get?_eq_some_iff, get?_replay tree]
  unfold Release.leaves versionLeaves
  simp only [mem_cons, mem_map, sameEntries]

end

/-- Nothing but the pointer has changed, and the journal has one more row. -/
structure RolledBack (store : Store β) (release : Release env name) (row : Row)
    (after : Store β) : Prop where
  rest : after = { appended env store row with fs := after.fs }
  lookup : ∀ location, after.fs.lookup location =
    if location = currentPath env name then
      some (.file (env.encode release.version))
    else store.fs.lookup location

theorem rewritten {store : Store β} (able : store.budget = none) (tree : HasTree store.fs release) :
    Ends (fun result after => result = .ok () ∧ Becomes store store.fs.lookup after)
      (writeVersion env release.manifest
        (replay store.fs release.root release.recordOf.2)) store := by
  have isDirectory := tree.isDirectory
  have sameLeaves := mem_versionLeaves_replay tree
  have writable : Writable env store release.root release.manifest
      (replay store.fs release.root release.recordOf.2) := by
    constructor
    · exact able
    · exact release.straight
    · exact append_ne_nil_of_right_ne_nil _ (cons_ne_nil _ _)
    · intro location below data isFile
      rw [lookup_above_directory isDirectory below] at isFile
      cases isFile
    · intro file member
      rw [← get?_eq_some_iff, get?_replay tree, get?_eq_some_iff] at member
      exact release.sound.plain file member
    · intro first firstMember second secondMember
      exact release.sound.consistent first ((sameLeaves first).mp firstMember) second
        ((sameLeaves second).mp secondMember)
  apply mono (writeVersion_written env writable
    (release.sound.versionRoot.trans release.root_eq))
  rintro result after ⟨rfl, becomes⟩
  refine ⟨rfl, becomes.1, fun location => ?_⟩
  rw [becomes.2]
  by_cases under : release.root <+: location
  · obtain ⟨rest, rfl⟩ := under
    rw [graft_append, treeNode_congr release.places sameLeaves, tree]
  · rw [graft_of_away under]
    unfold withWay
    split
    case isTrue onWay => exact (lookup_above_directory isDirectory onWay).symm
    case isFalse => rfl

theorem replayVersion_done {store : Store β} {target : Row} (current : String)
    (able : store.budget = none) (tree : HasTree store.fs release)
    (noDirectory : store.fs.lookup (currentPath env name) ≠ some .directory)
    (isRecord : (target.version, target.checkpoint) = release.recordOf) :
    Ends (fun result after => result = .ok () ∧ ∃ row : Row, row.checkpoint = [] ∧
        RolledBack store release row after) (replayVersion env name current target) store := by
  obtain ⟨version, checkpoint⟩ := Prod.mk.inj isRecord
  have root : versionRoot env name release.version = release.root := by
    unfold versionRoot
    rw [joinPath_of_plain release.sound.version, release.single]
    rfl
  have isManifest : store.fs.find (release.root ++ [manifestName]) =
      some (.file (env.dumps release.manifest)) := by
    rw [find_of_straight, tree]
    · exact treeNode_of_mem release.places manifest_mem
    · exact fun up => (mem_append.mp up).elim release.straight (by decide)
  unfold replayVersion
  rw [ends_bind, ends_get, andThen_ok, version, checkpoint]
  change Ends _ (if release.recordOf.2.flatMap (replayProblems env store.fs
    (versionRoot env name release.version)) ≠ [] then _ else _) store
  rw [root, replayProblems_eq_nil tree, if_neg (not_not_intro rfl), isManifest]
  dsimp only
  rw [env.loads_dumps, ends_bind]
  apply mono (rewritten able tree)
  rintro result written ⟨rfl, same⟩
  rw [andThen_ok, ends_bind]
  have isDirectory : written.fs.lookup (installedRoot env name) = some .directory := by
    rw [same.2]
    exact lookup_above_directory tree.isDirectory (prefix_append _ _)
  rw [← same.2] at noDirectory
  apply mono (setCurrent_written env release.version (same.budget.trans able)
    isDirectory noDirectory)
  rintro result pointed ⟨rfl, set⟩
  rw [andThen_ok, ends_appendJournal env (set.budget.trans (same.budget.trans able))]
  have whole := same.trans set
  refine ⟨rfl, { ts := 0
                 action := .rollback
                 name := name
                 version := release.version
                 previousVersion := some current
                 files := (replay store.fs release.root release.recordOf.2).size }, rfl, ?_, ?_⟩
  · rw [whole.1]
    rfl
  · intro location
    rw [set.2]
    dsimp only
    rw [same.2]

end

open Option

section

/-- The pointer leads to a release. -/
def Points (store : Store β) (release : Release env name) : Prop :=
  store.fs.lookup (currentPath env name) = some (.file (env.encode release.version))

/-- The last two releases of a package, behind some rollbacks: both trees are there, and the
rows of the rollbacks lie behind their checkpoints in the journal. -/
structure Standing (last previous : Release env name) (rolls : Nat) (store : Store β) :
    Prop where
  able : store.budget = none
  ordered : Ordered env store
  lastTree : HasTree store.fs last
  previousTree : HasTree store.fs previous
  journal : ∃ rolled front, rolled ++ front <+: store.journal.reverse ∧ rolled.length ≤ rolls ∧
    (∀ row ∈ rolled, row.checkpoint = []) ∧ front.length ≤ 4 ∧
    Records name front [last.recordOf, previous.recordOf]

variable {store : Store β} {last previous : Release env name}

theorem Standing.rolledBack {release : Release env name} {rolls : Nat} {after : Store β}
    {row : Row} (forward : StrictMono env.clock)
    (standing : Standing last previous rolls store) (noCheckpoint : row.checkpoint = [])
    (rolledBack : RolledBack store release row after) :
    Standing last previous (rolls + 1) after ∧ Points after release := by
  have stays : ∀ {held : Release env name}, HasTree store.fs held →
      HasTree after.fs held := by
    intro held tree location
    rw [rolledBack.lookup, if_neg (held.root_ne_pointer location), tree]
  have ordered := standing.ordered.appended env forward row
  obtain ⟨rolled, front, isFront, few, none, short, records⟩ := standing.journal
  refine ⟨⟨?_, ?_, stays standing.lastTree, stays standing.previousTree, ?_⟩, ?_⟩
  · rw [rolledBack.rest]
    exact standing.able
  · rw [rolledBack.rest]
    exact ⟨ordered.increasing, ordered.earlier⟩
  · refine ⟨{ row with ts := env.clock store.appended } :: rolled, front, ?_, ?_, ?_, short,
      records⟩
    · rw [rolledBack.rest]
      unfold appended
      rw [reverse_append, reverse_singleton, singleton_append, cons_append]
      exact cons_prefix_cons.mpr ⟨rfl, isFront⟩
    · exact Nat.succ_le_succ few
    · intro other member
      rcases mem_cons.mp member with rfl | older
      · exact noCheckpoint
      · exact none other older
  · exact (rolledBack.lookup _).trans (if_pos rfl)

variable {current : Release env name}

theorem Standing.target {other : Release env name} {rolls : Nat}
    (standing : Standing last previous rolls store) (different : last.version ≠ previous.version)
    (isOther : (current = last ∧ other = previous) ∨ (current = previous ∧ other = last)) :
    (rollbackTarget store.journal name current.version = none ∧ 996 < rolls) ∨
    ∃ row, rollbackTarget store.journal name current.version = some row ∧
      (row.version, row.checkpoint) = other.recordOf := by
  obtain ⟨rolled, front, isFront, few, noCheckpoint, short, records⟩ := standing.journal
  have none : (rolled.filter fun row => IsCheckpoint name row) = [] := by
    rw [filter_eq_nil_iff]
    intro row member
    simp [IsCheckpoint, noCheckpoint row member]
  obtain ⟨first, second, view⟩ : ∃ first second : Row,
      (front.filter fun row => IsCheckpoint name row) = [first, second] := by
    have length := congrArg List.length records
    rw [length_map] at length
    exact length_eq_two.mp length
  unfold Records at records
  rw [view, map_cons, map_singleton, List.cons.injEq, List.cons.injEq] at records
  obtain ⟨isFirst, isSecond, -⟩ := records
  have firstVersion : first.version = last.version := congrArg Prod.fst isFirst
  have secondVersion : second.version = previous.version := congrArg Prod.fst isSecond
  have found : ∃ row, ([first, second].find? fun row => row.version ≠ current.version) = some row ∧
      (row.version, row.checkpoint) = other.recordOf := by
    rcases isOther with ⟨rfl, rfl⟩ | ⟨rfl, rfl⟩
    · refine ⟨second, ?_, isSecond⟩
      simp [firstVersion, secondVersion, Ne.symm different]
    · refine ⟨first, ?_, isFirst⟩
      simp [firstVersion, different]
  obtain ⟨row, isRow, record⟩ := found
  have whole : ((rolled ++ front).filter fun row => IsCheckpoint name row) = [first, second] := by
    rw [filter_append, none, nil_append, view]
  rw [← whole] at isRow
  rw [rollbackTarget_eq standing.ordered.increasing]
  by_cases fits : (rolled ++ front).length ≤ 1000
  · have inLast : rolled ++ front <+: store.journal.reverse.take 1000 :=
      prefix_take_iff.mpr ⟨isFront, fits⟩
    exact .inr ⟨row, (inLast.filter _).find?_eq_some isRow, record⟩
  · have many : 996 < rolls := by
      rw [length_append] at fits
      omega
    have inFront : store.journal.reverse.take 1000 <+: rolled ++ front := by
      apply prefix_of_prefix_length_le (List.take_prefix _ _) isFront
      rw [length_take]
      omega
    cases target : (((store.journal.reverse.take 1000).filter fun row =>
        IsCheckpoint name row).find? fun row => row.version ≠ current.version) with
    | none => exact .inl ⟨rfl, many⟩
    | some found =>
      have same := (inFront.filter _).find?_eq_some target
      rw [isRow] at same
      obtain rfl := some_inj.mp same
      exact .inr ⟨row, rfl, record⟩

/-- A rollback goes to the other one of the last two releases, unless too many rollbacks lie
behind. -/
theorem Standing.rollback {other : Release env name} {rolls : Nat}
    (forward : StrictMono env.clock) (nonblank : strip name ≠ "")
    (standing : Standing last previous rolls store) (points : Points store current)
    (different : last.version ≠ previous.version)
    (isOther : (current = last ∧ other = previous) ∨ (current = previous ∧ other = last)) :
    Ends (fun _ after => Standing last previous (rolls + 1) after ∧
        (Points after other ∨ (Points after current ∧ 996 < rolls))) (rollback env name) store := by
  have trees : HasTree store.fs current ∧ HasTree store.fs other := by
    rcases isOther with ⟨rfl, rfl⟩ | ⟨rfl, rfl⟩
    · exact ⟨standing.lastTree, standing.previousTree⟩
    · exact ⟨standing.previousTree, standing.lastTree⟩
  have noDirectory : store.fs.lookup (currentPath env name) ≠ some .directory := by
    rw [show store.fs.lookup (currentPath env name) = _ from points]
    nofun
  unfold Packages.rollback
  rw [if_neg nonblank, ends_bind, ends_get, andThen_ok]
  rw [ends_bind, ends_currentVersion, currentOf_pointer points trees.1, andThen_ok]
  dsimp only
  rcases standing.target different isOther with ⟨none, many⟩ | ⟨row, found, record⟩
  · rw [none]
    obtain ⟨rolled, front, isFront, few, rest⟩ := standing.journal
    exact ⟨⟨standing.able, standing.ordered, standing.lastTree, standing.previousTree,
      ⟨rolled, front, isFront, Nat.le_succ_of_le few, rest⟩⟩, .inr ⟨points, many⟩⟩
  · rw [found]
    apply mono (replayVersion_done current.version standing.able trees.2 noDirectory record)
    rintro result after ⟨rfl, row, noCheckpoint, rolledBack⟩
    obtain ⟨next, pointsNext⟩ := standing.rolledBack forward noCheckpoint rolledBack
    exact ⟨next, .inl pointsNext⟩

end

/-! ## Runs of rollbacks -/

/-- The releases of a package are published in their order. -/
def publishAll (releases : List (Release env name × Bool)) : Program β Unit :=
  releases.forM fun release => publish release.1 release.2

variable (env name) in
/-- The store behind some rollbacks, which may raise. -/
def rollbacks : Nat → Store β → Store β
  | 0, store => store
  | rolls + 1, store => finalState (rollback env name (rollbacks rolls store))

/-- The release is the current version, and its directory has exactly its files with the
manifest. -/
def Stands (store : Store β) (release : Release env name) : Prop :=
  currentOf env store name = .ok (some release.version) ∧
  ∀ location data, store.fs.lookup (release.root ++ location) = some (.file data) ↔
    (location, data) ∈ release.leaves

/-- Behind a number of rollbacks, the release stands that was published as many releases
before the last one, and no rollback has gone to a release that was published later. -/
def WalksBack (releases : List (Release env name)) (rolls : Nat) (store : Store β) : Prop :=
  (∀ release, releases.reverse[rolls]? = some release →
    Stands (rollbacks env name rolls store) release) ∧
  ∀ earlier < rolls, ∀ (before after : Nat) (release next : Release env name),
    releases[before]? = some release → releases[after]? = some next →
    currentOf env (rollbacks env name earlier store) name = .ok (some release.version) →
    currentOf env (rollbacks env name (earlier + 1) store) name =
      .ok (some next.version) → after ≤ before

variable (env name) in
/-- A package that is not installed: nothing is in the way of its directory. -/
structure Beginning (store : Store β) : Prop where
  able : store.budget = none
  ordered : Ordered env store
  missing : store.fs.lookup (installedRoot env name) = none
  wayFree : NoFile store.fs (installedRoot env name)

section

variable {store : Store β} {releases : List (Release env name)}

theorem Beginning.holding (beginning : Beginning env name store) :
    Holding store ([] : List (Release env name)) := by
  have below : ∀ rest, store.fs.lookup (installedRoot env name ++ rest) = none :=
    fun rest => lookup_eq_none_above (prefix_append _ _) beginning.missing
  constructor
  · exact beginning.able
  · exact beginning.ordered
  · exact beginning.wayFree
  · intro version _ data
    rw [below]
    nofun
  · unfold currentPath
    rw [below]
    nofun
  · intro last isHead
    cases isHead
  · have ends : Ends (fun result _ => result = .ok none) (currentVersion env name)
        store := by
      unfold currentVersion
      rw [ends_bind, ends_get, andThen_ok]
      dsimp only
      rw [find_of_straight (installedRoot_straight env name), beginning.missing]
      rfl
    exact ends
  · exact fun _ member => absurd member not_mem_nil
  · intro count within
    obtain rfl : count = 0 := Nat.le_zero.mp within
    exact ⟨[], nil_prefix, Nat.le_refl 0, rfl⟩

theorem publishAll_holding (forward : StrictMono env.clock)
    (published : List (Release env name × Bool)) (holding : Holding store releases)
    (distinct : (((published.map Prod.fst).reverse ++ releases).map Release.version).Nodup)
    (nonempty : releases ≠ []) : Ends (fun result after => result = .ok () ∧
        Holding after ((published.map Prod.fst).reverse ++ releases))
      (publishAll published) store := by
  induction published generalizing store releases with
  | nil => exact ⟨rfl, holding⟩
  | cons release published ih =>
    rw [map_cons, reverse_cons, append_assoc, singleton_append] at distinct ⊢
    have fresh : ∀ earlier ∈ releases, release.1.version ≠ earlier.version := by
      have own := distinct.sublist ((sublist_append_right _ _).map _)
      rw [map_cons, nodup_cons] at own
      intro earlier member same
      exact own.1 (mem_map.mpr ⟨earlier, member, same.symm⟩)
    unfold publishAll
    rw [List.forM, ends_bind]
    apply mono (publish_holding forward release.1 holding fresh fun _ => nonempty)
    rintro result between ⟨rfl, next⟩
    exact ih next distinct (cons_ne_nil _ _)

variable {last previous : Release env name}

theorem Holding.standing (holding : Holding store (last :: previous :: releases)) :
    Standing last previous 0 store := by
  obtain ⟨front, isFront, short, records⟩ := holding.recent 2 (by simp)
  exact ⟨holding.able, holding.ordered, holding.trees last (by simp),
    holding.trees previous (by simp), [], front, isFront, Nat.le_refl 0, nofun, short, records⟩

theorem rollbacks_standing (forward : StrictMono env.clock) (nonblank : strip name ≠ "")
    (different : last.version ≠ previous.version) (standing : Standing last previous 0 store)
    (points : Points store last) (rolls : Nat) :
    Standing last previous rolls (rollbacks env name rolls store) ∧
      ∃ current other : Release env name,
        ((current = last ∧ other = previous) ∨ (current = previous ∧ other = last)) ∧
        Points (rollbacks env name rolls store) current ∧
        (rolls = 0 → current = last) ∧ (rolls = 1 → current = previous) := by
  induction rolls with
  | zero => exact ⟨standing, last, previous, .inl ⟨rfl, rfl⟩, points, fun _ => rfl, nofun⟩
  | succ rolls ih =>
    obtain ⟨before, current, other, isOther, pointsBefore, isLast, -⟩ := ih
    obtain ⟨next, went⟩ := before.rollback forward nonblank pointsBefore different isOther
    refine ⟨next, ?_⟩
    rcases went with pointsOther | ⟨pointsCurrent, many⟩
    · refine ⟨other, current, isOther.symm.imp .symm .symm, pointsOther, nofun, ?_⟩
      intro once
      rcases isOther with both | both
      · exact both.2
      · have zero : rolls = 0 := Nat.succ.inj once
        exact both.2.trans ((isLast zero).symm.trans both.1)
    · refine ⟨current, other, isOther, pointsCurrent, nofun, ?_⟩
      intro once
      omega

variable {release : Release env name}

theorem Points.stands (points : Points store release) (tree : HasTree store.fs release) :
    Stands store release := by
  refine ⟨currentOf_pointer points tree, fun location data => ?_⟩
  rw [tree]
  constructor
  · exact mem_of_treeNode
  · exact fun member => treeNode_of_mem release.places member

theorem index_of_version (distinct : (releases.map Release.version).Nodup) {first second : Nat}
    {other : Release env name} (isFirst : releases[first]? = some release)
    (isSecond : releases[second]? = some other) (same : release.version = other.version) :
    first = second := by
  have within : first < (releases.map Release.version).length := by
    rw [length_map]
    exact (List.getElem?_eq_some_iff.mp isFirst).1
  apply (getElem?_inj within distinct).mp
  rw [getElem?_map, getElem?_map, isFirst, isSecond, map_some, map_some, same]

theorem Holding.walksBack_zero (holding : Holding store releases.reverse) :
    WalksBack releases 0 store := by
  refine ⟨fun release isLast => ?_, fun _ earlier => absurd earlier (Nat.not_lt_zero _)⟩
  rw [← head?_eq_getElem?] at isLast
  have points : Points store release := holding.points release isLast
  exact points.stands (holding.trees release (mem_of_head? isLast))

variable {others : List (Release env name)}

section

variable (forward : StrictMono env.clock) (nonblank : strip name ≠ "")
include forward nonblank

theorem Holding.walksBack_one (distinct : (releases.map Release.version).Nodup)
    (newest : releases.reverse = last :: previous :: others)
    (holding : Holding store (last :: previous :: others)) : WalksBack releases 1 store := by
  have order : releases = (others.reverse ++ [previous]) ++ [last] := by
    rw [← reverse_reverse releases, newest, reverse_cons, reverse_cons]
  have different : last.version ≠ previous.version := by
    rw [order, map_append, nodup_append] at distinct
    exact fun same => distinct.2.2 previous.version (by simp) last.version (by simp) same.symm
  have points : Points store last := holding.points last rfl
  obtain ⟨standing, current, other, -, pointsCurrent, -, once⟩ := rollbacks_standing forward
    nonblank different holding.standing points 1
  rw [once rfl] at pointsCurrent
  constructor
  · intro release isPrevious
    rw [newest] at isPrevious
    obtain rfl : previous = release := some_inj.mp isPrevious
    exact pointsCurrent.stands standing.previousTree
  · intro earlier first before after release next isBefore isAfter isCurrent _
    obtain rfl : earlier = 0 := Nat.lt_one_iff.mp first
    have lastStands := points.stands holding.standing.lastTree
    have same : release.version = last.version := by
      rw [show rollbacks env name 0 store = store from rfl, lastStands.1] at isCurrent
      exact (some_inj.mp (Except.ok.inj isCurrent)).symm
    have isLast : releases[releases.length - 1]? = some last := by
      rw [order]
      simp
    have index : before = releases.length - 1 := index_of_version distinct isBefore isLast same
    have inside : after < releases.length := (List.getElem?_eq_some_iff.mp isAfter).1
    omega

theorem Holding.not_walksBack (distinct : (releases.reverse.map Release.version).Nodup)
    (newest : releases.reverse = last :: previous :: others)
    (holding : Holding store (last :: previous :: others)) {rolls : Nat} (two : 2 ≤ rolls)
    (within : rolls < releases.reverse.length) : ¬ WalksBack releases rolls store := by
  intro walks
  obtain ⟨release, isRelease⟩ : ∃ release, releases.reverse[rolls]? = some release :=
    ⟨_, getElem?_eq_getElem within⟩
  have stands := (walks.1 release isRelease).1
  rw [newest] at distinct isRelease
  have different : last.version ≠ previous.version := by
    rw [map_cons, map_cons, nodup_cons, mem_cons, not_or] at distinct
    exact distinct.1.1
  obtain ⟨standing, current, other, isOther, points, -, -⟩ := rollbacks_standing forward
    nonblank different holding.standing (holding.points last rfl) rolls
  have current_stands : Stands (rollbacks env name rolls store) current := by
    rcases isOther with ⟨rfl, -⟩ | ⟨rfl, -⟩
    · exact points.stands standing.lastTree
    · exact points.stands standing.previousTree
  have same : release.version = current.version := by
    rw [current_stands.1] at stands
    exact (some_inj.mp (Except.ok.inj stands)).symm
  rcases isOther with ⟨rfl, -⟩ | ⟨rfl, -⟩
  · have index : rolls = 0 := index_of_version distinct isRelease rfl same
    omega
  · have index : rolls = 1 := index_of_version distinct isRelease rfl same
    omega

theorem Holding.walksBack_iff (holding : Holding store releases.reverse)
    (distinct : (releases.map Release.version).Nodup) {rolls : Nat}
    (within : rolls < releases.length) : WalksBack releases rolls store ↔ rolls ≤ 1 := by
  rw [← length_reverse] at within
  rcases Nat.eq_zero_or_pos rolls with rfl | some
  · exact ⟨fun _ => Nat.zero_le 1, fun _ => holding.walksBack_zero⟩
  · cases newest : releases.reverse with
    | nil =>
      rw [newest] at within
      exact absurd within (Nat.not_lt_zero _)
    | cons last earlier =>
      cases earlier with
      | nil =>
        rw [newest, length_singleton] at within
        omega
      | cons previous others =>
        have held := holding
        rw [newest] at held
        constructor
        · intro walks
          by_contra more
          have distinct' : (releases.reverse.map Release.version).Nodup := by
            rw [map_reverse, nodup_reverse]
            exact distinct
          exact held.not_walksBack forward nonblank distinct' newest (Nat.lt_of_not_le more)
            within walks
        · intro few
          obtain rfl : rolls = 1 := Nat.le_antisymm few some
          exact held.walksBack_one forward nonblank distinct newest

end

theorem publishAll_published (forward : StrictMono env.clock) (beginning : Beginning env name store)
    (first : Release env name) (later : List (Release env name × Bool))
    (distinct : ((first :: later.map Prod.fst).map Release.version).Nodup) :
    Ends (fun result after => result = .ok () ∧
        Holding after (first :: later.map Prod.fst).reverse)
      (publishAll ((first, false) :: later)) store := by
  have installs : Ends (fun result after => result = .ok () ∧ Holding after [first])
      (publish first false) store :=
    publish_holding forward first beginning.holding
      (fun _ member => absurd member not_mem_nil) nofun
  have order : (later.map Prod.fst).reverse ++ [first] = (first :: later.map Prod.fst).reverse :=
    reverse_cons.symm
  have distinct' : (((later.map Prod.fst).reverse ++ [first]).map Release.version).Nodup := by
    rw [order, map_reverse, nodup_reverse]
    exact distinct
  unfold publishAll
  rw [List.forM, ends_bind]
  apply mono installs
  rintro result between ⟨rfl, held⟩
  rw [andThen_ok]
  apply mono (publishAll_holding forward later held distinct' (cons_ne_nil _ _))
  rintro result after ⟨rfl, holding⟩
  rw [order] at holding
  exact ⟨rfl, holding⟩

/-- Behind releases of distinct versions, rollbacks walk back if and only if there is at most
one. -/
theorem rollbacks_walk_back_iff (forward : StrictMono env.clock)
    (nonblank : strip name ≠ "") (beginning : Beginning env name store)
    (first : Release env name) (later : List (Release env name × Bool))
    (distinct : ((first :: later.map Prod.fst).map Release.version).Nodup) {rolls : Nat}
    (within : rolls < (first :: later.map Prod.fst).length) :
    Ends (fun result after => result = .ok () ∧
        (WalksBack (first :: later.map Prod.fst) rolls after ↔ rolls ≤ 1))
      (publishAll ((first, false) :: later)) store := by
  apply mono (publishAll_published forward beginning first later distinct)
  rintro result after ⟨rfl, holding⟩
  exact ⟨rfl, holding.walksBack_iff forward nonblank distinct within⟩

end

/-! ## Three releases -/

theorem accepted_plain (name version : String) :
    accepted plainEnvironment (some (plainArchive name version)) =
      some (plainManifest name version, .ofList [("run", .inr version)]) := by
  have isVerified : verified plainEnvironment (plainManifest name version)
      (.ofList [("run", .inr version)]) = true := by
    have signed : signatureOk plainEnvironment (plainManifest name version) = true :=
      decide_eq_true rfl
    have noProblem : problems plainEnvironment (plainManifest name version)
        (.ofList [("run", .inr version)]) = [] := by
      unfold problems
      rw [signed]
      simp [plainManifest, plainEnvironment, entryProblems, Dict.ofList, Dict.set, Dict.assign,
        Dict.keys, Dict.empty, Dict.get?, Dict.find]
    exact decide_eq_true ⟨signed, noProblem⟩
  exact if_pos isVerified

theorem versionLeaves_plain (name version : String) :
    versionLeaves plainEnvironment (plainManifest name version) (.ofList [("run", .inr version)]) =
        [(["manifest.json"], .inl (plainManifest name version)), (["run"], .inr version)] := by
  unfold versionLeaves
  rw [show (Dict.ofList [("run", (.inr version : Manifest ⊕ String))]).entries =
    [("run", .inr version)] from rfl, map_singleton,
    show partsOf "run" = ["run"] by decide]
  rfl

def plainRelease (version : String) (plain : IsPlain version)
    (single : partsOf version = [version]) (away : version ≠ "CURRENT")
    (stripped : strip version = version)
    (lines : universalNewlines version.toList = version.toList) :
    Release plainEnvironment "tool" where
  archive := plainArchive "tool" version
  manifest := plainManifest "tool" version
  files := .ofList [("run", .inr version)]
  isAccepted := accepted_plain "tool" version
  named := rfl
  sound := {
    version := plain
    plain := by
      intro file member
      rw [mem_singleton.mp member]
      show IsPlain "run"
      decide
    consistent := by
      rw [versionLeaves_plain]
      simp [Consistent]
    pointer := by
      intro leaf _ below
      change ["CURRENT"] <+: partsOf version ++ leaf.1 at below
      rw [single, singleton_append, cons_prefix_cons] at below
      exact absurd below.1.symm away }
  single := single
  stripped := stripped
  lines := lines
  recorded := cons_ne_nil _ _
  places := by
    rw [versionLeaves_plain]
    simp

def firstRelease : Release plainEnvironment "tool" :=
  plainRelease "1" (by decide) (by decide) (by decide) (by decide) (by decide)

def secondRelease : Release plainEnvironment "tool" :=
  plainRelease "2" (by decide) (by decide) (by decide) (by decide) (by decide)

def thirdRelease : Release plainEnvironment "tool" :=
  plainRelease "3" (by decide) (by decide) (by decide) (by decide) (by decide)

theorem plainClock_forward : StrictMono plainEnvironment.clock :=
  Nat.strictMono_cast

theorem beginning_plainStart : Beginning plainEnvironment "tool" plainStart where
  able := rfl
  ordered := ⟨.nil, nofun⟩
  missing := lookup_plainStart (by decide)
  wayFree := noFile_plainStart _

theorem rollbacks_walk_back_iff_plain : Ends (fun result after => result = .ok () ∧
        (WalksBack [firstRelease, secondRelease, thirdRelease] 1 after ↔ 1 ≤ 1))
      (publishAll [(firstRelease, false), (secondRelease, true), (thirdRelease, false)])
      plainStart :=
  rollbacks_walk_back_iff plainClock_forward (by decide) beginning_plainStart firstRelease
    [(secondRelease, true), (thirdRelease, false)] (by decide) (by decide)

/-- Two rollbacks do not go back from the third release to the first one. -/
theorem second_rollback_returns : Ends (fun result after => result = .ok () ∧
        ¬ WalksBack [firstRelease, secondRelease, thirdRelease] 2 after)
      (publishAll [(firstRelease, false), (secondRelease, true), (thirdRelease, false)])
      plainStart := by
  have distinct : ([firstRelease, secondRelease, thirdRelease].map Release.version).Nodup := by
    decide
  apply mono (publishAll_published plainClock_forward beginning_plainStart firstRelease
    [(secondRelease, true), (thirdRelease, false)] distinct)
  rintro result after ⟨rfl, holding⟩
  refine ⟨rfl, fun walks => ?_⟩
  have few := (holding.walksBack_iff plainClock_forward (by decide) distinct (by decide)).mp walks
  exact absurd few (by decide)

end AgenticOS.Packages
