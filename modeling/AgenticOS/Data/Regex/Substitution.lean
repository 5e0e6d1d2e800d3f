import AgenticOS.Data.Regex.Language
import Mathlib.Data.List.Infix

/-!
# Replacing matches by markers

The matches of a pattern are replaced from left to right. What is between them stays, and is
known to contain no place at which the pattern matches.

Where every match is replaced by a marker in delimiters that another pattern does not take, a
match of the other pattern in the result lies in what was kept. So it was there before, if the
word boundaries next to the markers are not new. Hence a text that is free of a pattern stays so,
and a pattern whose matches are replaced is gone.
-/

namespace AgenticOS.Pattern

open Regex List Option

variable (isWord : Char → Bool)

/-- A pattern matches a text between two others. -/
structure Matches (pattern : Pattern) (before inside after : List Char) : Prop where
  takes : ∃ groups, pattern.body.Takes [] inside groups
  starts : pattern.startsWord = true → edge isWord before.getLast? (inside ++ after).head? = true
  ends : pattern.endsWord = true → edge isWord (before ++ inside).getLast? after.head? = true

def Contains (pattern : Pattern) (text : List Char) : Prop :=
  ∃ before inside after, text = before ++ inside ++ after ∧
    pattern.Matches isWord before inside after

def Piece.source : Piece → List Char
  | .kept char => [char]
  | .found outcome => outcome.taken

def Piece.render (replace : List Char → List Char) : Piece → List Char
  | .kept char => [char]
  | .found outcome => replace outcome.taken

/-- The text that pieces come from. -/
def source (pieces : List Piece) : List Char :=
  pieces.flatMap Piece.source

/-- The text that pieces become. -/
def render (replace : List Char → List Char) (pieces : List Piece) : List Char :=
  pieces.flatMap (Piece.render replace)

/-- `pattern.sub`: every match is replaced. -/
def sub (pattern : Pattern) (replace : List Char → List Char) (text : List Char) : List Char :=
  render replace (pattern.pieces isWord text.length none text)

variable {isWord} {pattern : Pattern} {replace : List Char → List Char}

@[simp]
theorem source_nil : source [] = [] :=
  rfl

@[simp]
theorem source_cons (piece : Piece) (pieces : List Piece) :
    source (piece :: pieces) = piece.source ++ source pieces :=
  flatMap_cons

@[simp]
theorem source_append (first last : List Piece) :
    source (first ++ last) = source first ++ source last :=
  flatMap_append

@[simp]
theorem source_kept (text : List Char) : source (text.map .kept) = text := by
  induction text with
  | nil => rfl
  | cons char rest ih =>
    rw [map_cons, source_cons, ih]
    rfl

@[simp]
theorem render_nil : render replace [] = [] :=
  rfl

@[simp]
theorem render_cons (piece : Piece) (pieces : List Piece) :
    render replace (piece :: pieces) = piece.render replace ++ render replace pieces :=
  flatMap_cons

@[simp]
theorem render_append (first last : List Piece) :
    render replace (first ++ last) = render replace first ++ render replace last :=
  flatMap_append

variable {text : List Char} {outcome : Outcome} {before : Option Char}

theorem matchAt_eq_some (found : pattern.matchAt isWord before text = some outcome) :
    text = outcome.taken ++ outcome.rest ∧
      pattern.body.Takes [] outcome.taken outcome.groups ∧
      (pattern.startsWord = true → edge isWord before text.head? = true) ∧
      (pattern.endsWord = true →
        edge isWord (outcome.taken.getLast?.or before) outcome.rest.head? = true) := by
  unfold matchAt at found
  split at found
  · cases found
  · next starts =>
      obtain ⟨split, takes⟩ := mem_run_iff.mp (mem_of_find?_eq_some found)
      have ends := find?_some found
      refine ⟨split, takes, ?_, ?_⟩
      · intro startsWord
        simpa [startsWord] using starts
      · intro endsWord
        simpa [endsWord] using ends

theorem matchAt_ne_none {inside after : List Char} {groups : Groups}
    (takes : pattern.body.Takes [] inside groups)
    (starts : pattern.startsWord = true → edge isWord before (inside ++ after).head? = true)
    (ends : pattern.endsWord = true → edge isWord (inside.getLast?.or before) after.head? = true) :
    pattern.matchAt isWord before (inside ++ after) ≠ none := by
  unfold matchAt
  rw [if_neg]
  · have member : ⟨inside, after, groups⟩ ∈ pattern.body.run [] (inside ++ after) :=
      mem_run_iff.mpr ⟨rfl, takes⟩
    rw [ne_eq, find?_eq_none]
    intro none
    have refused := none _ member
    cases endsWord : pattern.endsWord <;> simp_all
  · cases startsWord : pattern.startsWord <;> simp_all

theorem nonempty_of_matchAt (solid : pattern.body.nullable = false)
    (found : pattern.matchAt isWord before text = some outcome) : outcome.taken ≠ [] := by
  intro nothing
  rw [nullable_of_takes (matchAt_eq_some found).2.1 nothing] at solid
  cases solid

/-- The pieces of a text behind a character: no match begins at what is kept. -/
inductive Scanned (isWord : Char → Bool) (pattern : Pattern) : Option Char → List Piece → Prop
  | nil (before : Option Char) : Scanned isWord pattern before []
  | kept {before : Option Char} {char : Char} {rest : List Piece}
      (none : pattern.matchAt isWord before (char :: source rest) = none)
      (tail : Scanned isWord pattern (some char) rest) :
      Scanned isWord pattern before (.kept char :: rest)
  | found {before : Option Char} {outcome : Outcome} {rest : List Piece}
      (some : pattern.matchAt isWord before (outcome.taken ++ source rest) = some outcome)
      (nonempty : outcome.taken ≠ [])
      (tail : Scanned isWord pattern outcome.taken.getLast? rest) :
      Scanned isWord pattern before (.found outcome :: rest)

theorem scanned_pieces (solid : pattern.body.nullable = false) {fuel : Nat}
    {before : Option Char} {text : List Char} (enough : text.length ≤ fuel) :
    source (pattern.pieces isWord fuel before text) = text ∧
      Scanned isWord pattern before (pattern.pieces isWord fuel before text) := by
  induction fuel generalizing before text with
  | zero =>
    rw [length_eq_zero_iff.mp (Nat.le_zero.mp enough)]
    exact ⟨rfl, .nil before⟩
  | succ fuel ih =>
    cases text with
    | nil => exact ⟨rfl, .nil before⟩
    | cons char rest =>
      have shorter : rest.length ≤ fuel := Nat.le_of_succ_le_succ enough
      unfold pieces
      split
      · next outcome some =>
          obtain ⟨shape, -, -, -⟩ := matchAt_eq_some some
          have nonempty := nonempty_of_matchAt solid some
          have positive := length_pos_of_ne_nil nonempty
          have lengths := congrArg List.length shape
          rw [length_append, length_cons] at lengths
          obtain ⟨sources, scanned⟩ :=
            @ih outcome.taken.getLast? outcome.rest (by omega)
          rw [if_neg nonempty]
          constructor
          · rw [source_cons, sources, Piece.source, ← shape]
          · exact .found (by rw [sources, ← shape, some]) nonempty scanned
      · next none =>
          obtain ⟨sources, scanned⟩ := @ih (.some char) rest shorter
          constructor
          · rw [source_cons, sources, Piece.source, singleton_append]
          · exact .kept (by rw [sources, none]) scanned

theorem Scanned.drop {first last : List Piece}
    (scanned : Scanned isWord pattern before (first ++ last)) :
    Scanned isWord pattern ((source first).getLast?.or before) last := by
  induction first generalizing before with
  | nil => exact scanned
  | cons piece rest ih =>
    rw [source_cons, getLast?_append, Option.or_assoc]
    cases scanned with
    | kept _ tail => exact ih tail
    | @found _ outcome _ _ nonempty tail =>
      have last : outcome.taken.getLast?.or before = outcome.taken.getLast? := by
        rw [getLast?_eq_some_getLast nonempty, some_or]
      rw [Piece.source, last]
      exact ih tail

theorem Scanned.matches {first last : List Piece}
    (scanned : Scanned isWord pattern none (first ++ .found outcome :: last)) :
    pattern.Matches isWord (source first) outcome.taken (source last) := by
  have here := scanned.drop
  rw [or_none] at here
  cases here with
  | found some nonempty tail =>
    obtain ⟨behind, takes, starts, ends⟩ := matchAt_eq_some some
    rw [← append_cancel_left behind, ← getLast?_append] at ends
    exact ⟨⟨_, takes⟩, starts, ends⟩

theorem mem_findAll_iff : outcome ∈ pattern.findAll isWord text ↔
      .found outcome ∈ pattern.pieces isWord text.length none text := by
  unfold findAll
  rw [mem_filterMap]
  constructor
  · rintro ⟨piece, member, found⟩
    cases piece with
    | kept => cases found
    | found other =>
      cases found
      exact member
  · intro member
    exact ⟨_, member, rfl⟩

theorem exists_match_of_mem_findAll (solid : pattern.body.nullable = false)
    (member : outcome ∈ pattern.findAll isWord text) :
    ∃ before after, text = before ++ outcome.taken ++ after ∧
      pattern.Matches isWord before outcome.taken after := by
  obtain ⟨sourced, scanned⟩ := @scanned_pieces isWord pattern solid text.length none text le_rfl
  obtain ⟨first, last, split⟩ := append_of_mem (mem_findAll_iff.mp member)
  rw [split] at sourced scanned
  refine ⟨source first, source last, ?_, scanned.matches⟩
  rw [← sourced, source_append, source_cons, append_assoc]
  rfl

/-- Where every match is replaced by itself the text stays. -/
theorem sub_eq_self (solid : pattern.body.nullable = false)
    (same : ∀ outcome ∈ pattern.findAll isWord text, replace outcome.taken = outcome.taken) :
    pattern.sub isWord replace text = text := by
  have sourced := (@scanned_pieces isWord pattern solid text.length none text le_rfl).1
  conv_rhs => rw [← sourced]
  apply flatMap_congr
  intro piece member
  cases piece with
  | kept => rfl
  | found outcome => exact same outcome (mem_findAll_iff.mpr member)

/-! ## Markers -/

variable {opening closing : Char} {interior : List Char}

/-- A text in delimiters, which takes the place of every match. -/
def marked (opening closing : Char) (interior : List Char) (_ : List Char) : List Char :=
  opening :: interior ++ [closing]

variable {after inside : List Char}

theorem exists_kept_prefix {pieces : List Piece} (bare : opening ∉ inside)
    (shape : render (marked opening closing interior) pieces = inside ++ after) :
    ∃ last, pieces = inside.map .kept ++ last ∧
      render (marked opening closing interior) last = after := by
  induction inside generalizing pieces with
  | nil => exact ⟨pieces, rfl, shape⟩
  | cons char rest ih =>
    rw [mem_cons, not_or] at bare
    cases pieces with
    | nil => cases shape
    | cons piece pieces =>
      cases piece with
      | kept other =>
        obtain ⟨rfl, tail⟩ := List.cons.inj shape
        obtain ⟨last, rfl, rendered⟩ := ih bare.2 tail
        exact ⟨last, rfl, rendered⟩
      | found outcome => exact absurd (List.cons.inj shape).1 bare.1

theorem prefix_of_closed {part rest : List Char} (ended : closing ∉ inside)
    (shape : part ++ closing :: rest = inside ++ after) : inside <+: part := by
  induction inside generalizing part with
  | nil => exact nil_prefix
  | cons char inside ih =>
    rw [mem_cons, not_or] at ended
    cases part with
    | nil => exact absurd (List.cons.inj shape).1 ended.1
    | cons other part =>
      obtain ⟨rfl, tail⟩ := List.cons.inj shape
      exact cons_prefix_cons.mpr ⟨rfl, ih ended.2 tail⟩

theorem exists_kept {before : List Char} {pieces : List Piece} (bare : opening ∉ inside)
    (ended : closing ∉ inside) (nonempty : inside ≠ []) (apart : ¬ inside <:+: interior)
    (shape : render (marked opening closing interior) pieces = before ++ (inside ++ after)) :
    ∃ first last, pieces = first ++ inside.map .kept ++ last ∧
      render (marked opening closing interior) first = before ∧
      render (marked opening closing interior) last = after := by
  induction pieces generalizing before with
  | nil =>
    have nothing := append_eq_nil_iff.mp (append_eq_nil_iff.mp shape.symm).2
    exact absurd nothing.1 nonempty
  | cons piece pieces ih =>
    cases before with
    | nil =>
      obtain ⟨last, same, rendered⟩ := exists_kept_prefix bare shape
      exact ⟨[], last, same, rfl, rendered⟩
    | cons char others =>
      cases piece with
      | kept other =>
        obtain ⟨rfl, tail⟩ := List.cons.inj shape
        obtain ⟨first, last, rfl, front, back⟩ := ih tail
        exact ⟨.kept other :: first, last, rfl, by rw [render_cons, front]; rfl, back⟩
      | found outcome =>
        have behind : interior ++ [closing] ++
            render (marked opening closing interior) pieces = others ++ (inside ++ after) :=
          (List.cons.inj shape).2
        rcases append_eq_append_iff.mp behind with
          ⟨part, rfl, tail⟩ | ⟨part, split, tail⟩
        · obtain ⟨first, last, rfl, front, back⟩ := ih tail
          refine ⟨.found outcome :: first, last, rfl, ?_, back⟩
          rw [render_cons, front, (List.cons.inj shape).1.symm]
          rfl
        · rcases eq_nil_or_concat' part with rfl | ⟨part, last, rfl⟩
          · obtain ⟨first, last, rfl, front, back⟩ := @ih [] tail.symm
            refine ⟨.found outcome :: first, last, rfl, ?_, back⟩
            rw [append_nil] at split
            rw [render_cons, front, ← split, ← (List.cons.inj shape).1]
            exact append_nil _
          · rw [← append_assoc] at split
            obtain ⟨rfl, closed⟩ := append_inj' split rfl
            rw [← singleton_inj.mp closed, append_assoc, singleton_append] at tail
            have within := (prefix_of_closed ended tail.symm).isInfix
            exact absurd (within.trans (suffix_append others part).isInfix) apart

variable {opening closing : Char} {interior : List Char} {earlier later : Pattern}

/-- The markers of a pattern bring no word boundary at which another match could begin or end: next
to a match there is one already. -/
structure Seals (isWord : Char → Bool) (pattern : Pattern) (opens : Char → Bool) : Prop where
  front {text : List Char} {outcome : Outcome} {char : Char}
    (found : pattern.matchAt isWord (some char) text = some outcome)
    (word : isWord char = true) : edge isWord (some char) text.head? = true
  back {before : Option Char} {text : List Char} {outcome : Outcome} {char : Char}
    (found : pattern.matchAt isWord before text = some outcome)
    (next : outcome.rest.head? = some char) (word : isWord char = true)
    (begins : opens char = true) :
    edge isWord outcome.taken.getLast? (some char) = true

theorem seals_of_bounded (starts : pattern.startsWord = true) (ends : pattern.endsWord = true)
    (solid : pattern.body.nullable = false) (opens : Char → Bool) : Seals isWord pattern opens where
  front found _ := (matchAt_eq_some found).2.2.1 starts
  back found next _ _ := by
    have bounded := (matchAt_eq_some found).2.2.2 ends
    rw [getLast?_eq_some_getLast (nonempty_of_matchAt solid found), some_or, next] at bounded
    rw [getLast?_eq_some_getLast (nonempty_of_matchAt solid found)]
    exact bounded

variable {text : List Char}

theorem head_of_matchAt (free : pattern.endsWord = false) {before : Option Char}
    {outcome : Outcome} (found : pattern.matchAt isWord before text = some outcome) :
    (pattern.body.run [] text).head? = some outcome := by
  unfold matchAt at found
  split at found
  · cases found
  · cases outcomes : pattern.body.run [] text with
    | nil =>
      rw [outcomes] at found
      cases found
    | cons first rest =>
      rw [outcomes] at found
      simpa [free] using found

/-- The matches of a pattern are apart from the markers of another. -/
structure Apart (isWord : Char → Bool) (pattern : Pattern) (opening closing : Char)
    (interior : List Char) : Prop where
  openingWord : isWord opening = false
  closingWord : isWord closing = false
  solid : pattern.body.nullable = false
  opening : pattern.body.canTake opening = false
  closing : pattern.body.canTake closing = false
  inside {text : List Char} {groups : Groups} (takes : pattern.body.Takes [] text groups) :
    ¬ text <:+: interior

theorem edge_of_nonword {other char : Option Char} (plain : other.any isWord = false) :
    edge isWord other char = char.any isWord := by
  unfold edge
  rw [plain]
  cases char.any isWord <;> rfl

theorem edge_comm (first second : Option Char) :
    edge isWord first second = edge isWord second first := by
  exact decide_eq_decide.mpr ne_comm

section

variable (apart : Apart isWord earlier opening closing interior)
  (seals : Seals isWord later earlier.body.canOpen)
include apart seals

theorem edge_front {first rest : List Piece} (scanned : Scanned isWord later none (first ++ rest))
    {groups : Groups} {inside after : List Char} (takes : earlier.body.Takes [] inside groups)
    (sourced : source rest = inside ++ after)
    (bounded : edge isWord (render (marked opening closing interior) first).getLast?
      inside.head? = true) : edge isWord (source first).getLast? inside.head? = true := by
  rcases eq_nil_or_concat' first with rfl | ⟨first, piece, rfl⟩
  · exact bounded
  · rw [render_append, render_cons, render_nil, append_nil, getLast?_append] at bounded
    rw [source_append, source_cons, source_nil, append_nil, getLast?_append]
    cases piece with
    | kept char => exact bounded
    | found outcome =>
      rw [append_assoc] at scanned
      cases scanned.drop with
      | found some nonempty tail =>
        have behind : source rest = outcome.rest := append_cancel_left (matchAt_eq_some some).1
        have closed : (Piece.render (marked opening closing interior)
            (.found outcome)).getLast? = .some closing :=
          (getLast?_concat : (opening :: interior ++ [closing]).getLast? = _)
        rw [closed, some_or, edge_of_nonword (by simp [apart.closingWord])] at bounded
        obtain ⟨char, head, word⟩ := (Option.any_eq_true _ _).mp bounded
        rw [Piece.source, getLast?_eq_some_getLast nonempty, some_or,
          ← getLast?_eq_some_getLast nonempty, head]
        apply seals.back some _ word (canOpen_of_takes takes head)
        rw [← behind, sourced, head?_append, head, some_or]

theorem edge_back {last : List Piece} {char : Char}
    (scanned : Scanned isWord later (some char) last) (bounded : edge isWord (some char)
      (render (marked opening closing interior) last).head? = true) :
    edge isWord (some char) (source last).head? = true := by
  cases scanned with
  | nil | kept => exact bounded
  | @found _ outcome rest some nonempty tail =>
    have opened : (render (marked opening closing interior) (.found outcome :: rest)).head? =
        .some opening := rfl
    rw [opened, edge_comm, edge_of_nonword (by simp [apart.openingWord])] at bounded
    exact seals.front some (by simpa using bounded)

theorem exists_match_of_contains_sub (solid : later.body.nullable = false)
    (contains : Contains isWord earlier (later.sub isWord (marked opening closing interior) text)) :
    ∃ first inside last, later.pieces isWord text.length none text =
        first ++ (inside.map .kept ++ last) ∧ inside ≠ [] ∧
      earlier.Matches isWord (source first) inside (source last) := by
  obtain ⟨before, inside, after, shape, ⟨groups, takes⟩, starts, ends⟩ := contains
  have scanned := (@scanned_pieces isWord later solid text.length none text le_rfl).2
  have nonempty : inside ≠ [] := fun nothing => by
    have nullable := nullable_of_takes takes nothing
    rw [apart.solid] at nullable
    cases nullable
  have bare : opening ∉ inside := fun member => by
    have can := canTake_of_takes takes member
    rw [apart.opening] at can
    cases can
  have ended : closing ∉ inside := fun member => by
    have can := canTake_of_takes takes member
    rw [apart.closing] at can
    cases can
  rw [append_assoc] at shape
  obtain ⟨first, last, split, rfl, rfl⟩ :=
    exists_kept bare ended nonempty (apart.inside takes) shape
  rw [append_assoc] at split
  rw [split] at scanned
  have final := getLast?_eq_some_getLast nonempty
  obtain ⟨head, tail, rfl⟩ := exists_cons_of_ne_nil nonempty
  refine ⟨first, head :: tail, last, split, nonempty, ⟨groups, takes⟩, fun word => ?_,
    fun word => ?_⟩
  · have sourced : source ((head :: tail).map .kept ++ last) = head :: tail ++ source last := by
      rw [source_append, source_kept]
    have front := edge_front apart seals scanned takes sourced
    exact front (starts word)
  · have bounded := ends word
    rw [← append_assoc] at scanned
    have behind := scanned.drop
    rw [source_append, source_kept, or_none] at behind
    rw [getLast?_append, final, some_or] at bounded behind ⊢
    exact edge_back apart seals behind bounded

theorem not_contains_sub (solid : later.body.nullable = false)
    (clean : ¬ Contains isWord earlier text) :
    ¬ Contains isWord earlier (later.sub isWord (marked opening closing interior) text) := by
  intro contains
  obtain ⟨first, inside, last, split, -, found⟩ :=
    exists_match_of_contains_sub apart seals solid contains
  have sourced := (@scanned_pieces isWord later solid text.length none text le_rfl).1
  rw [split, source_append, source_append, source_kept] at sourced
  exact clean ⟨source first, inside, source last, by rw [← sourced, append_assoc], found⟩

end

theorem not_contains_sub_self (apart : Apart isWord pattern opening closing interior)
    (seals : Seals isWord pattern pattern.body.canOpen) (text : List Char) :
    ¬ Contains isWord pattern (pattern.sub isWord (marked opening closing interior) text) := by
  intro contains
  obtain ⟨first, inside, last, split, nonempty, ⟨groups, takes⟩, starts, ends⟩ :=
    exists_match_of_contains_sub apart seals apart.solid contains
  have scanned := (@scanned_pieces isWord pattern apart.solid text.length none text le_rfl).2
  obtain ⟨head, tail, rfl⟩ := exists_cons_of_ne_nil nonempty
  rw [split] at scanned
  cases scanned.drop with
  | kept none _ =>
    have sourced : head :: source (tail.map .kept ++ last) = head :: tail ++ source last := by
      rw [source_append, source_kept, cons_append]
    have refused := none
    rw [or_none] at refused
    apply matchAt_ne_none takes starts _ (sourced ▸ refused)
    rw [← getLast?_append]
    exact ends

end AgenticOS.Pattern
