import AgenticOS.Data.Authority
import AgenticOS.Data.Regex
import AgenticOS.Orchestrator.Guards
import Mathlib.Data.Char
import Mathlib.Data.List.Lex
import Mathlib.Data.List.Sort
import Mathlib.Data.Prod.Lex
import Mathlib.Data.Sum.Order

/-!
# Versions and updates

Versions are compared by tuples, in which every word of a prerelease is a rank. Beside them stands
the precedence of Semantic Versioning, and the update that is offered of the releases a server
lists. The decimal digits of Unicode are a parameter. What only shows, and how the server is
asked, are left out.
-/

namespace AgenticOS.Desktop

open List Regex Orchestrator

inductive UpdateChannel
  | stable | beta | nightly
  deriving DecidableEq

structure Version where
  major : Nat
  minor : Nat
  patch : Nat
  prerelease : List Char := []
  build : List Char := []
  isValid : Bool

def numeral (digit : Char → Option Nat) (text : List Char) : Nat :=
  text.foldl (fun number char => 10 * number + (digit char).getD 0) 0

def asciiDigit (char : Char) : Option Nat :=
  if char.isDigit then some (char.toNat - '0'.toNat) else none

/-- `text.isdigit()`, of a part of a prerelease. -/
def isNumeric (text : List Char) : Bool :=
  text ≠ [] && text.all Char.isDigit

namespace Version

section

variable (digit : Char → Option Nat)

def semverRegex : Regex :=
  let digits := run1 fun char => (digit char).isSome
  let identifiers := run1 fun char => char.isAlphanum || char = '.' || char = '-'
  sequence
    [optional (.one (· = 'v')), .group 1 digits, literal ['.'], .group 2 digits, literal ['.'],
      .group 3 digits, optional (.seq (literal ['-']) (.group 4 identifiers)),
      optional (.seq (literal ['+']) (.group 5 identifiers))]

/-- The constructor. Without a match the first numbers of the text count. -/
def parse (raw : String) : Version :=
  let cleaned := (strip raw).toList.dropWhile fun char => char = 'v' || char = 'V'
  match ((semverRegex digit).run [] cleaned).find? (·.rest.isEmpty) with
  | some found =>
    let group number := (found.groups.find number).getD []
    { major := numeral digit (group 1)
      minor := numeral digit (group 2)
      patch := numeral digit (group 3)
      prerelease := group 4
      build := group 5
      isValid := true }
  | none =>
    let numbers :=
      ((cleaned.splitOnP fun char => (digit char).isNone).filter (· ≠ [])).map (numeral digit)
    { major := numbers.getD 0 0
      minor := numbers.getD 1 0
      patch := numbers.getD 2 0
      prerelease := if cleaned = [] then "raw".toList else []
      isValid := false }

end

variable (version : Version)

def isPrerelease : Bool :=
  version.prerelease ≠ []

def channel : UpdateChannel :=
  let lowered := version.prerelease.map Char.toLower
  if "nightly".toList <:+: lowered ∨ "dev".toList <:+: lowered then .nightly
  else if "beta".toList <:+: lowered ∨ "alpha".toList <:+: lowered ∨ "rc".toList <:+: lowered then
    .beta
  else .stable

def rank (part : List Char) : Nat :=
  if "rc".toList <:+: part then 40
  else if "beta".toList <:+: part then 30
  else if "alpha".toList <:+: part then 20
  else 10

/-- What a part of a prerelease counts as. -/
def partKey (part : List Char) : ℕ ×ₗ ℕ :=
  if isNumeric part then toLex (1, numeral asciiDigit part) else toLex (0, rank part)

def prereleaseTuple : ℕ ×ₗ List (ℕ ×ₗ ℕ) :=
  if version.isPrerelease then
    toLex (0, ((version.prerelease.map Char.toLower).splitOnP
      fun char => char = '.' || char = '-').map partKey)
  else toLex (100, [])

def cmpTuple : ℕ ×ₗ ℕ ×ₗ ℕ ×ₗ ℕ ×ₗ List (ℕ ×ₗ ℕ) :=
  toLex (version.major, toLex (version.minor, toLex (version.patch, version.prereleaseTuple)))

variable (other : Version)

/-- `version == other` -/
def eq : Bool :=
  version.cmpTuple = other.cmpTuple

/-- `version < other` -/
def lt : Bool :=
  version.cmpTuple < other.cmpTuple

/-- `version <= other` -/
def le : Bool :=
  version.lt other || version.eq other

/-- `version > other` -/
def gt : Bool :=
  !version.le other

/-- An identifier of a prerelease: numbers come before words. -/
def identifier (text : List Char) : ℕ ⊕ₗ List Char :=
  if isNumeric text then Sum.inlₗ (numeral asciiDigit text) else Sum.inrₗ text

def identifiers : List (List Char) :=
  version.prerelease.splitOn '.'

def prereleasePrecedence : WithTop (List (ℕ ⊕ₗ List Char)) :=
  if version.isPrerelease then ↑(version.identifiers.map identifier) else ⊤

def precedence : ℕ ×ₗ ℕ ×ₗ ℕ ×ₗ WithTop (List (ℕ ⊕ₗ List Char)) :=
  toLex (version.major, toLex (version.minor, toLex (version.patch, version.prereleasePrecedence)))

/-- What the parts of some identifiers count as. -/
def parts (texts : List (List Char)) : List (ℕ ×ₗ ℕ) :=
  texts.flatMap fun text => ((text.map Char.toLower).splitOn '-').map partKey

/-- The first of the identifiers that are not the same are numbers, or the parts from there on
are ordered as they are. -/
def Even : List (List Char) → List (List Char) → Prop
  | text :: texts, next :: nexts =>
    if identifier text = identifier next then Even texts nexts
    else isNumeric text ∧ isNumeric next ∨
      if identifier text < identifier next then parts (text :: texts) < parts (next :: nexts)
      else parts (next :: nexts) < parts (text :: texts)
  | _, _ => True

def Comparable : Prop :=
  (version.major, version.minor, version.patch) ≠ (other.major, other.minor, other.patch) ∨
    version.isPrerelease = false ∨ other.isPrerelease = false ∨
      Even version.identifiers other.identifiers

end Version

section

variable {α β γ : Type} [LinearOrder α] [LinearOrder β] [LinearOrder γ]

/-- Two values are ordered as two others are. -/
def Agree (first next : α) (image other : β) : Prop :=
  (first < next ↔ image < other) ∧ (next < first ↔ other < image)

variable {first next : α} {image other : β}

theorem Agree.eq_iff (agree : Agree first next image other) : first = next ↔ image = other := by
  rw [le_antisymm_iff, le_antisymm_iff, ← not_lt, ← not_lt, ← not_lt, ← not_lt, agree.1, agree.2]

theorem agree_iff_of_lt (below : image < other) : Agree first next image other ↔ first < next :=
  ⟨fun agree => agree.1.mpr below, fun less =>
    ⟨iff_of_true less below, iff_of_false less.asymm below.asymm⟩⟩

theorem Agree.symm_iff : Agree next first other image ↔ Agree first next image other :=
  and_comm

theorem agree_toLex_iff (place spot : γ) :
    Agree (toLex (place, first)) (toLex (spot, next)) (toLex (place, image)) (toLex (spot, other)) ↔
      place ≠ spot ∨ Agree first next image other := by
  simp only [Agree, Prod.Lex.toLex_lt_toLex]
  by_cases same : place = spot
  · simp [same]
  · simp [same, Ne.symm same]

theorem cons_lt_cons (rest others : List α) :
    first :: rest < next :: others ↔ first < next ∨ first = next ∧ rest < others :=
  List.cons_lt_cons_iff

theorem append_lt_append (shared rest others : List α) :
    shared ++ rest < shared ++ others ↔ rest < others := by
  induction shared with
  | nil => rfl
  | cons head shared ih => simp [cons_append, ih]

end

namespace Version

/-! ## Parts and identifiers -/

theorem splitOnP_or {α : Type} (isDot isDash : α → Bool) (text : List α) :
    text.splitOnP (fun char => isDot char || isDash char) =
      (text.splitOnP isDot).flatMap (splitOnP isDash) := by
  induction text with
  | nil => simp
  | cons char text ih =>
    rw [splitOnP_cons_eq_if_modifyHead, splitOnP_cons_eq_if_modifyHead, ih]
    obtain ⟨head, tail, split⟩ := exists_cons_of_ne_nil (splitOnP_ne_nil isDot text)
    obtain ⟨part, parts, cut⟩ := exists_cons_of_ne_nil (splitOnP_ne_nil isDash head)
    cases dot : isDot char with
    | true => simp
    | false => cases dash : isDash char <;>
        simp [split, cut, dash, splitOnP_cons_eq_if_modifyHead]

theorem splitOnP_map {α β : Type} (change : α → β) (isEnd : β → Bool) (text : List α) :
    (text.map change).splitOnP isEnd =
      (text.splitOnP (isEnd ∘ change)).map (map change) := by
  induction text with
  | nil => simp
  | cons char text ih =>
    rw [map_cons, splitOnP_cons_eq_if_modifyHead, splitOnP_cons_eq_if_modifyHead, ih]
    obtain ⟨head, tail, split⟩ := exists_cons_of_ne_nil (splitOnP_ne_nil (isEnd ∘ change) text)
    cases found : isEnd (change char) <;> simp [split, found]

theorem toLower_eq_iff (char mark : Char) (isMark : mark = '.' ∨ mark = '-') :
    char.toLower = mark ↔ char = mark := by
  constructor
  · intro lowered
    exact Authority.toLower_inj lowered (by rcases isMark with rfl | rfl <;> rfl)
  · rintro rfl
    rcases isMark with rfl | rfl <;> rfl

theorem parts_splitOn (text : List Char) : parts (text.splitOn '.') =
      ((text.map Char.toLower).splitOnP fun char => char = '.' || char = '-').map partKey := by
  rw [splitOnP_or, splitOnP_map, parts, splitOn_eq_splitOnP, flatMap_map, map_flatMap]
  have dots : ((fun char => decide (char = '.')) ∘ .toLower) = (· == '.') := by
    funext char
    rw [Function.comp_apply, Bool.eq_iff_iff, decide_eq_true_iff, beq_iff_eq,
      toLower_eq_iff char '.' (.inl rfl)]
  rw [dots]
  refine flatMap_congr fun part _ => ?_
  congr 2

theorem isNumeric_iff (text : List Char) :
    isNumeric text ↔ text ≠ [] ∧ ∀ char ∈ text, char.isDigit := by
  simp [isNumeric]

theorem toLower_of_isDigit (char : Char) (digit : char.isDigit) : char.toLower = char := by
  unfold Char.toLower
  rw [dif_neg]
  rintro ⟨above, -⟩
  have below := (Bool.and_eq_true _ _ ▸ digit).2
  simp only [decide_eq_true_iff, ge_iff_le, UInt32.le_iff_toNat_le] at above below
  have nine : '9'.val.toNat = 57 := rfl
  have letter : 'A'.val.toNat = 65 := rfl
  omega

theorem parts_of_isNumeric {text : List Char} (numeric : isNumeric text) :
    ((text.map Char.toLower).splitOn '-').map partKey =
      [toLex (1, numeral asciiDigit text)] := by
  have digits := (isNumeric_iff text).mp numeric |>.2
  have small : text.map .toLower = text := by
    rw [map_congr_left fun char member => toLower_of_isDigit char (digits char member), map_id']
  rw [small, splitOn_eq_singleton, map_singleton, partKey, if_pos numeric]
  intro member
  exact absurd (digits _ member) (by decide)

theorem identifier_eq_iff (text next : List Char) :
    identifier text = identifier next ↔
      if isNumeric text ∧ isNumeric next then numeral asciiDigit text = numeral asciiDigit next
      else text = next := by
  rw [identifier, identifier]
  by_cases first : isNumeric text <;> by_cases second : isNumeric next <;>
    simp [first, second]
  all_goals rintro rfl
  all_goals contradiction

theorem parts_congr {text next : List Char} (same : identifier text = identifier next) :
    ((text.map Char.toLower).splitOn '-').map partKey =
      ((next.map Char.toLower).splitOn '-').map partKey := by
  rw [identifier_eq_iff] at same
  split at same
  · next numeric => rw [parts_of_isNumeric numeric.1, parts_of_isNumeric numeric.2, same]
  · rw [same]

theorem parts_lt {text next : List Char} (texts nexts : List (List Char))
    (first : isNumeric text) (second : isNumeric next) (less : identifier text < identifier next) :
    parts (text :: texts) < parts (next :: nexts) := by
  rw [identifier, identifier, if_pos first, if_pos second, Sum.Lex.inl_lt_inl_iff] at less
  rw [parts, parts, flatMap_cons, flatMap_cons, parts_of_isNumeric first,
    parts_of_isNumeric second, singleton_append, singleton_append, cons_lt_cons]
  exact .inl (Prod.Lex.toLex_lt_toLex.mpr (.inr ⟨rfl, less⟩))

theorem parts_ne_nil (text : List Char) (texts : List (List Char)) :
    parts (text :: texts) ≠ [] := by
  simp [parts, splitOn_ne_nil]

/-- The parts are ordered as the identifiers if and only if these are even. -/
theorem agree_parts_iff (texts nexts : List (List Char)) :
    Agree (parts texts) (parts nexts) (texts.map identifier) (nexts.map identifier) ↔
      Even texts nexts := by
  induction texts generalizing nexts with
  | nil =>
    cases nexts with
    | nil => simp [Agree, Even]
    | cons next nexts =>
      rw [map_cons, agree_iff_of_lt (nil_lt_cons _ _)]
      refine iff_of_true (lex_nil_or_eq_nil _ |>.resolve_right (parts_ne_nil _ _)) ?_
      simp [Even]
  | cons text texts ih =>
    cases nexts with
    | nil =>
      rw [map_cons, Agree.symm_iff, agree_iff_of_lt (nil_lt_cons _ _)]
      refine iff_of_true (lex_nil_or_eq_nil _ |>.resolve_right (parts_ne_nil _ _)) ?_
      simp [Even]
    | cons next nexts =>
      rw [Even]
      split
      · next same =>
        rw [← ih, parts, parts, flatMap_cons, flatMap_cons, parts_congr same, map_cons, map_cons,
          same]
        simp only [Agree, append_lt_append, cons_lt_cons, lt_irrefl, false_or, true_and]
        rfl
      · next differ =>
        rcases lt_or_gt_of_ne differ with less | greater
        · rw [if_pos less, map_cons, map_cons, agree_iff_of_lt ((cons_lt_cons _ _).mpr (.inl less))]
          exact ⟨.inr,
            fun even => even.elim (fun numeric => parts_lt _ _ numeric.1 numeric.2 less) id⟩
        · rw [if_neg greater.asymm, map_cons, map_cons, Agree.symm_iff,
            agree_iff_of_lt ((cons_lt_cons _ _).mpr (.inl greater))]
          exact ⟨.inr,
            fun even => even.elim (fun numeric => parts_lt _ _ numeric.2 numeric.1 greater) id⟩

theorem agree_prereleaseTuple_iff (version other : Version) :
    Agree version.prereleaseTuple other.prereleaseTuple version.prereleasePrecedence
      other.prereleasePrecedence ↔
      version.isPrerelease = false ∨ other.isPrerelease = false ∨
        Even version.identifiers other.identifiers := by
  rw [prereleaseTuple, prereleaseTuple, prereleasePrecedence, prereleasePrecedence,
    ← parts_splitOn, ← parts_splitOn]
  cases version.isPrerelease with
  | false =>
    cases other.isPrerelease with
    | false => simp [Agree]
    | true => simp [Agree, Prod.Lex.toLex_lt_toLex]
  | true =>
    cases other.isPrerelease with
    | false => simp [Agree, Prod.Lex.toLex_lt_toLex]
    | true => simp [← agree_parts_iff, Agree, Prod.Lex.toLex_lt_toLex, identifiers]

/-- Tuples are ordered as the precedence has it if and only if the versions are comparable. -/
theorem agree_cmpTuple_iff (version other : Version) :
    Agree version.cmpTuple other.cmpTuple version.precedence other.precedence ↔
      version.Comparable other := by
  rw [cmpTuple, cmpTuple, precedence, precedence, agree_toLex_iff, agree_toLex_iff,
    agree_toLex_iff, agree_prereleaseTuple_iff, Comparable]
  simp only [ne_eq, Prod.mk.injEq, not_and_or, or_assoc]

theorem lt_iff (version other : Version) : version.lt other ↔ version.cmpTuple < other.cmpTuple :=
  decide_eq_true_iff

theorem eq_iff (version other : Version) : version.eq other ↔ version.cmpTuple = other.cmpTuple :=
  decide_eq_true_iff

theorem gt_iff (version other : Version) :
    version.gt other ↔ other.cmpTuple < version.cmpTuple := by
  rw [gt, Bool.not_eq_true', ← Bool.not_eq_true, le, Bool.or_eq_true, lt_iff, eq_iff,
    ← le_iff_lt_or_eq, not_le]

end Version

/-- A release as the server lists it. -/
structure Item where
  draft : Bool := false
  tagName : String := ""
  prerelease : Bool := false
  /-- Its assets or its date cannot be read. -/
  broken : Bool := false

structure ReleaseInfo where
  version : String
  tag : String
  prerelease : Bool
  channel : UpdateChannel

/-- What `AutoUpdateManager` selects updates by. -/
structure UpdateSelection where
  currentVersion : String
  currentChannel : UpdateChannel := .stable
  skippedVersions : List String := []
  ignoredVersions : List String := []

namespace UpdateSelection

variable (digit : Char → Option Nat) (manager : UpdateSelection)

def admits (channel : UpdateChannel) (release : ReleaseInfo) : Bool :=
  match channel with
  | .stable => !release.prerelease && release.channel = .stable
  | .beta => release.channel ≠ .nightly
  | .nightly => true

/-- The release that an item is, unless it is passed over. -/
def release? (item : Item) : Option ReleaseInfo :=
  let versionStr := String.ofList (item.tagName.toList.dropWhile (· = 'v'))
  let release : ReleaseInfo :=
    { version := versionStr
      tag := item.tagName
      prerelease := item.prerelease
      channel := (Version.parse digit versionStr).channel }
  if !item.draft && item.tagName ≠ "" && (Version.parse digit versionStr).isValid &&
      versionStr ∉ manager.ignoredVersions && admits manager.currentChannel release then
    some release
  else none

/-- The releases up to the first that cannot be read, and whether there is none. -/
def gather : List Item → List ReleaseInfo × Bool
  | [] => ([], true)
  | item :: items =>
    match manager.release? digit item with
    | none => gather items
    | some release =>
      if item.broken then ([], false)
      else
        let (releases, complete) := gather items
        (release :: releases, complete)

/-- The releases on a channel, the highest first. There may be no answer of the server. -/
def checkForUpdates (channel : Option UpdateChannel) (data : Option (List Item)) :
    UpdateSelection × List ReleaseInfo :=
  let manager := { manager with currentChannel := channel.getD manager.currentChannel }
  let (releases, complete) := manager.gather digit (data.getD [])
  (manager,
    if complete then
      releases.insertionSort fun first next =>
        !(Version.parse digit first.version).lt (Version.parse digit next.version)
    else releases)

def getLatestUpdate (channel : Option UpdateChannel) (data : Option (List Item)) :
    UpdateSelection × Option ReleaseInfo :=
  let (manager, releases) := manager.checkForUpdates digit channel data
  (manager, releases.find? fun release =>
    release.version ∉ manager.skippedVersions &&
      (Version.parse digit release.version).gt (Version.parse digit manager.currentVersion))

variable {digit manager}

theorem gather_eq (items : List Item) (sound : ∀ item ∈ items, item.broken = false) :
    manager.gather digit items = (items.filterMap (manager.release? digit), true) := by
  induction items with
  | nil => rfl
  | cons item items ih =>
    rw [forall_mem_cons] at sound
    rw [gather, ih sound.2, filterMap_cons]
    cases manager.release? digit item with
    | none => rfl
    | some release => simp [sound.1]

/-- The releases that may be offered. -/
def Allowed (digit : Char → Option Nat) (manager : UpdateSelection) (items : List Item)
    (release : ReleaseInfo) : Prop :=
  (∃ item ∈ items, manager.release? digit item = some release) ∧
    release.version ∉ manager.skippedVersions

theorem isSome_getLatestUpdate (channel : UpdateChannel) (items : List Item)
    (sound : ∀ item ∈ items, item.broken = false) :
    (manager.getLatestUpdate digit channel items).2.isSome ↔
      ∃ release, Allowed digit { manager with currentChannel := channel } items release ∧
        (Version.parse digit release.version).gt
          (Version.parse digit manager.currentVersion) := by
  rw [getLatestUpdate, checkForUpdates, Option.getD_some, Option.getD_some, gather_eq items sound,
    find?_isSome]
  simp [Allowed, and_assoc]

/-- The versions are ordered by precedence if and only if they are comparable, and if what may be
offered is comparable, something is offered exactly if something newer may be. -/
theorem version_order_iff (digit : Char → Option Nat) :
    (∀ first second : String,
      let version := Version.parse digit first
      let other := Version.parse digit second
      ((version.lt other ↔ version.precedence < other.precedence) ∧
          (version.eq other ↔ version.precedence = other.precedence) ∧
          (version.gt other ↔ other.precedence < version.precedence) ↔
        version.Comparable other)) ∧
      ∀ (manager : UpdateSelection) (channel : UpdateChannel) (items : List Item),
        let current := Version.parse digit manager.currentVersion
        let allowed := Allowed digit { manager with currentChannel := channel } items
        (∀ item ∈ items, item.broken = false) →
          (∀ release, allowed release → (Version.parse digit release.version).Comparable current) →
          ((manager.getLatestUpdate digit channel items).2.isSome ↔
            ∃ release, allowed release ∧
              current.precedence < (Version.parse digit release.version).precedence) := by
  constructor
  · intro first second version other
    rw [← Version.agree_cmpTuple_iff, Version.lt_iff, Version.eq_iff, Version.gt_iff]
    exact ⟨fun agree => ⟨agree.1, agree.2.2⟩, fun agree => ⟨agree.1, agree.eq_iff, agree.2⟩⟩
  · intro manager channel items current allowed sound comparable
    rw [isSome_getLatestUpdate channel items sound]
    refine exists_congr fun release => and_congr_right fun isAllowed => ?_
    rw [Version.gt_iff]
    exact ((Version.agree_cmpTuple_iff _ _).mpr (comparable release isAllowed)).2

/-- A candidate of the next version is offered. -/
theorem version_order_candidate :
    (getLatestUpdate asciiDigit { currentVersion := "1.0.0" } (some .beta)
      (some [{ tagName := "v1.1.0-rc1", prerelease := true }])).2.isSome := by
  have newer : (release? asciiDigit { currentVersion := "1.0.0", currentChannel := .beta }
      { tagName := "v1.1.0-rc1", prerelease := true }).any (fun release =>
        (Version.parse asciiDigit "1.0.0").precedence <
          (Version.parse asciiDigit release.version).precedence) = true := by
    decide +kernel
  obtain ⟨release, released, later⟩ := (Option.any_eq_true _ _).mp newer
  apply ((version_order_iff asciiDigit).2 { currentVersion := "1.0.0" } .beta
    [{ tagName := "v1.1.0-rc1", prerelease := true }] (by decide) fun _ _ => ?_).mpr
  · exact ⟨release, ⟨⟨_, mem_singleton_self _, released⟩, nofun⟩, of_decide_eq_true later⟩
  · exact .inr (.inr (.inl (by decide +kernel)))

theorem not_ordered_candidates :
    ¬ ∀ first second : String, (Version.parse asciiDigit first).isValid →
      (Version.parse asciiDigit second).isValid →
        ((Version.parse asciiDigit first).lt (Version.parse asciiDigit second) ↔
          (Version.parse asciiDigit first).precedence <
            (Version.parse asciiDigit second).precedence) := by
  intro ordered
  exact absurd (ordered "1.0.0-rc1" "1.0.0-rc2" (by decide +kernel) (by decide +kernel))
    (by decide +kernel)

end UpdateSelection

end AgenticOS.Desktop
