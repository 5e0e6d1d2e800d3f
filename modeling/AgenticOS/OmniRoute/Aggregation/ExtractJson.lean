import AgenticOS.Data.Json
import Mathlib.Data.List.Infix

/-!
# Taking JSON out of a text

`extract_json` counts braces and brackets without regard for strings, and looks for an object
first. So an array that contains an object is not found, nor is an object with a brace too
many in a string; the counts of the written value decide.
-/

namespace AgenticOS.OmniRoute.ContentNormalizer

open List JsonValue

/-- The depth behind a character. -/
def deepen (opener closer : Char) (depth : ℤ) (char : Char) : ℤ :=
  if char = opener then depth + 1
  else if char = closer then depth - 1
  else depth

/-- The text as far as the depth comes to zero. -/
def balanced (opener closer : Char) (depth : ℤ) : List Char → Option (List Char)
  | [] => none
  | char :: rest =>
    if deepen opener closer depth char = 0 then some [char]
    else (balanced opener closer (deepen opener closer depth char) rest).map (char :: ·)

/-- The first balanced structure with this pair of marks. -/
def extract (opener closer : Char) (text : List Char) : Option (List Char) :=
  balanced opener closer 0 (text.dropWhile (· ≠ opener))

def extractJson (text : String) : String :=
  match extract '{' '}' text.toList with
  | some found => String.ofList found
  | none =>
    match extract '[' ']' text.toList with
    | some found => String.ofList found
    | none => text

def Unmatched (opener closer : Char) (text : List Char) : Prop :=
  ∀ start ∈ text.inits.tail, start.count opener ≠ start.count closer

/-- The text has as many openers as closers, but nothing before its end has. -/
def Matched (opener closer : Char) (text : List Char) : Prop :=
  text.count opener = text.count closer ∧ Unmatched opener closer text.dropLast

/-- The braces are matched; or they never are from the first one on, and the brackets are
matched, or they never are and nothing is around the text. -/
def CountsOut (text : List Char) (before behind : String) : Prop :=
  Matched '{' '}' text ∨ Unmatched '{' '}' (text.dropWhile (· ≠ '{')) ∧
    (Matched '[' ']' text ∨ Unmatched '[' ']' (text.dropWhile (· ≠ '[')) ∧
      before = "" ∧ behind = "")

/-- No brace and no bracket. -/
def Plain (text : String) : Prop :=
  ∀ char ∈ text.toList, char ∉ ['{', '}', '[', ']']

def IsContainer : Json → Prop
  | .array _ => True
  | .object _ => True
  | _ => False

section

variable {opener closer : Char} {depth : ℤ} {text before behind : List Char}

theorem balanced_eq_none_iff : balanced opener closer depth text = none ↔
    ∀ start ∈ text.inits.tail, start.foldl (deepen opener closer) depth ≠ 0 := by
  induction text generalizing depth with
  | nil => simp [balanced]
  | cons char rest ih =>
    have starts : rest.inits = [] :: rest.inits.tail := by cases rest <;> simp
    rw [inits_cons, tail_cons, forall_mem_map, starts, forall_mem_cons, balanced]
    split
    next zero => exact iff_of_false nofun fun never => never.1 zero
    next nonzero => exact Option.map_eq_none_iff.trans (ih.trans (and_iff_right nonzero).symm)

theorem balanced_eq_self_iff : balanced opener closer depth text = some text ↔
    text ≠ [] ∧ text.foldl (deepen opener closer) depth = 0 ∧
      balanced opener closer depth text.dropLast = none := by
  induction text generalizing depth with
  | nil => simp [balanced]
  | cons char rest ih =>
    cases rest with
    | nil => simp [balanced]
    | cons next rest =>
      rw [dropLast_cons_cons, balanced.eq_2, balanced.eq_2 _ _ _ char]
      split
      next => simp
      next => simpa using ih

theorem head?_balanced {found : List Char} (some : balanced opener closer depth text = some found) :
    found.head? = text.head? := by
  cases text with
  | nil => cases some
  | cons char rest =>
    rw [balanced] at some
    split at some
    next =>
      cases some
      rfl
    next =>
      obtain ⟨part, -, rfl⟩ := Option.map_eq_some_iff.mp some
      rfl

theorem foldl_deepen (different : opener ≠ closer) :
    text.foldl (deepen opener closer) depth = depth + text.count opener - text.count closer := by
  induction text generalizing depth with
  | nil => simp
  | cons char rest ih =>
    rw [foldl_cons, ih, deepen, count_cons, count_cons]
    grind

theorem balanced_of_free (free : ∀ mark ∈ behind, mark ≠ opener ∧ mark ≠ closer)
    (inside : depth ≠ 0) : balanced opener closer depth behind = none := by
  induction behind with
  | nil => rfl
  | cons char rest ih =>
    obtain ⟨outside, free⟩ := forall_mem_cons.mp free
    have same : deepen opener closer depth char = depth := by
      rw [deepen, if_neg outside.1, if_neg outside.2]
    rw [balanced, same, if_neg inside, ih free]
    rfl

theorem balanced_append (free : ∀ mark ∈ behind, mark ≠ opener ∧ mark ≠ closer)
    (inside : depth ≠ 0 ∨ text ≠ []) :
    balanced opener closer depth (text ++ behind) = balanced opener closer depth text := by
  induction text generalizing depth with
  | nil => exact balanced_of_free free (inside.resolve_right (absurd rfl))
  | cons char rest ih =>
    rw [cons_append, balanced, balanced]
    split
    next => rfl
    next nonzero => rw [ih (.inl nonzero)]

theorem extract_around (beforeFree : ∀ mark ∈ before, mark ≠ opener)
    (free : ∀ mark ∈ behind, mark ≠ opener ∧ mark ≠ closer) :
    extract opener closer (before ++ (text ++ behind)) = extract opener closer text := by
  unfold extract
  rw [dropWhile_append_of_pos (by simpa using beforeFree), dropWhile_append]
  split
  next none =>
    have all : behind.dropWhile (· ≠ opener) = [] :=
      dropWhile_eq_nil_iff.mpr fun mark member => by simpa using (free mark member).1
    rw [all, isEmpty_iff.mp none]
  next some =>
    exact balanced_append free (.inr fun none => some (isEmpty_iff.mpr none))

variable (different : opener ≠ closer)
include different

theorem extract_eq_none_iff : extract opener closer text = none ↔
    Unmatched opener closer (text.dropWhile (· ≠ opener)) := by
  unfold extract Unmatched
  simp only [balanced_eq_none_iff, foldl_deepen different]
  refine forall₂_congr fun start _ => ?_
  omega

theorem extract_eq_self_iff {mark : Char} (outside : mark ≠ closer) (more : text ≠ []) :
    extract opener closer (mark :: text) = some (mark :: text) ↔
      Matched opener closer (mark :: text) := by
  by_cases opens : mark = opener
  · unfold extract Matched Unmatched
    rw [dropWhile_cons_of_neg (by simpa using opens), balanced_eq_self_iff]
    simp only [balanced_eq_none_iff, foldl_deepen different]
    refine (and_iff_right nofun).trans (and_congr (by omega) (forall₂_congr fun start _ => ?_))
    omega
  · refine iff_of_false (fun found => ?_) fun matched => ?_
    · have first := head?_dropWhile_not (· ≠ opener) (mark :: text)
      rw [← head?_balanced found] at first
      simp [opens] at first
    · cases text with
      | nil => exact more rfl
      | cons next rest =>
        have uneven := matched.2 [mark] (by simp)
        simp [opens, outside] at uneven

end

theorem write_of_isContainer : ∀ {value : Json}, IsContainer value →
    ∃ mark text, value.write = mark :: text ∧ text ≠ [] ∧ mark ≠ '}' ∧ mark ≠ ']'
  | .array [], _ => ⟨_, _, rfl, nofun, by decide⟩
  | .array (_ :: elements), _ =>
    ⟨_, _, rfl, by simp [Json.writeElements_eq elements, Json.separated], by decide⟩
  | .object [], _ => ⟨_, _, rfl, nofun, by decide⟩
  | .object (_ :: _), _ => ⟨_, _, rfl, by simp [Json.writeKey], by decide⟩

theorem extractJson_eq_dumps_iff {value : JsonValue} {before behind : String}
    (container : IsContainer value.json) (beforePlain : Plain before) (behindPlain : Plain behind) :
    extractJson (before ++ value.dumps ++ behind) = value.dumps ↔
      CountsOut value.json.write before behind := by
  obtain ⟨mark, text, written, more, brace, bracket⟩ := write_of_isContainer container
  have within : ∀ opener closer : Char, opener ∈ ['{', '}', '[', ']'] →
      closer ∈ ['{', '}', '[', ']'] →
      extract opener closer (before ++ value.dumps ++ behind).toList =
        extract opener closer (mark :: text) := by
    intro opener closer first second
    rw [dumps, String.toList_append, String.toList_append, String.toList_ofList, written,
      append_assoc]
    refine extract_around (fun other member same => ?_) fun other member => ⟨?_, ?_⟩
    · exact beforePlain _ member (same ▸ first)
    · exact fun same => behindPlain _ member (same ▸ first)
    · exact fun same => behindPlain _ member (same ▸ second)
  unfold extractJson CountsOut
  rw [within _ _ (by decide) (by decide), within _ _ (by decide) (by decide), written]
  have brackets : extract '[' ']' (mark :: text) = _ ↔ _ :=
    extract_eq_self_iff (by decide) bracket more
  have braces : extract '{' '}' (mark :: text) = _ ↔ _ := extract_eq_self_iff (by decide) brace more
  rw [← braces, ← brackets, ← extract_eq_none_iff (by decide), ← extract_eq_none_iff (by decide)]
  have whole (found : List Char) : .ofList found = value.dumps ↔ found = mark :: text := by
    rw [dumps, written, String.ofList_inj]
  split
  next found some => simp [some, whole]
  next none =>
    split
    next found some => simp [none, some, whole]
    next other =>
      simp only [none, other, reduceCtorEq, true_and, false_or]
      constructor
      · intro same
        have lengths := congrArg String.length same
        rw [String.length_append, String.length_append] at lengths
        exact ⟨String.length_eq_zero_iff.mp (by omega), String.length_eq_zero_iff.mp (by omega)⟩
      · rintro ⟨rfl, rfl⟩
        simp

/-- The test of the source. -/
theorem extractJson_key_value :
    let value := object ⟨[("key", string "value")], by simp⟩
    extractJson ("some text " ++ value.dumps ++ " trailing") = value.dumps := by
  refine (extractJson_eq_dumps_iff ?_ ?_ ?_).mpr (.inl ?_)
  · exact trivial
  · simp [Plain]
  · simp [Plain]
  · simp only [Matched, Unmatched]
    decide

/-- The object within an array is found instead of the array. -/
theorem extractJson_empty_object :
    let value := array [object ⟨[], by simp⟩]
    IsContainer value.json ∧ Plain "" ∧
      extractJson ("" ++ value.dumps ++ "") = "{}" ∧ "{}" ≠ value.dumps := by
  refine ⟨trivial, nofun, ?_⟩
  decide

end AgenticOS.OmniRoute.ContentNormalizer
