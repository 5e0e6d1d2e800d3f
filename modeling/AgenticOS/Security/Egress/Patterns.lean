import AgenticOS.Security.Egress.Redaction

/-!
# What the patterns leave

A marker ends in brackets, which no pattern but that of the key blocks takes, and none of the
patterns takes a part of its name. Next to a match there is a word boundary where the pattern asks
for one. Two patterns do not ask for one at their end; but what follows their matches is not a
character with which a secret begins.
-/

namespace AgenticOS.Security

open Regex Pattern Orchestrator List

variable {tables : CharacterTables} {groups : Groups} {text : List Char}

def classes : List String :=
  ["openai-key", "github-token", "github-finegrained", "aws-access-key", "slack-token",
    "private-key-block", "bearer-header", "key-assignment", "email", "ssn", "phone"]

/-- What stands in the brackets of a marker. -/
def markerName (cls : String) : List Char :=
  ("REDACTED:" ++ cls).toList

theorem not_infix_of_part {parts : List Regex} {part : Regex} {name : List Char}
    (member : part ∈ parts)
    (absent : ∀ {start inside stop}, Takes part start inside stop → ¬ inside <:+: name)
    (takes : Takes (sequence parts) [] text groups) : ¬ text <:+: name := by
  obtain ⟨inside, start, stop, within, part⟩ := exists_infix_of_takes_sequence member takes
  exact fun whole => absent part (within.trans whole)

variable {stop start : Groups}

theorem not_infix_of_literal {word : List Char} {cls : String}
    (absent : ∀ cls ∈ classes, ¬ word <:+: markerName cls) (member : cls ∈ classes)
    (takes : Takes (literal word) start text stop) : ¬ text <:+: markerName cls := by
  rw [takes_literal] at takes
  rw [takes.1]
  exact absent cls member

theorem not_infix_of_many {accepts : Char → Bool} {greedy : Bool} {least : Nat}
    {most : Option Nat} {cls : String}
    (absent : ∀ cls ∈ classes, (markerName cls).all fun char => !accepts char)
    (positive : 0 < least) (member : cls ∈ classes)
    (takes : Takes (.many greedy least most (.one accepts)) start text stop) :
    ¬ text <:+: markerName cls := by
  obtain ⟨long, -, all, -⟩ := all_of_takes_many takes
  obtain ⟨char, rest, rfl⟩ := exists_cons_of_length_pos (Nat.lt_of_lt_of_le positive long)
  intro within
  have refused := all_eq_true.mp (absent cls member) char (within.subset mem_cons_self)
  rw [all char mem_cons_self] at refused
  cases refused

theorem all_markerName : ∀ cls ∈ classes, (markerName cls).all fun char =>
    char.toNat < 128 && !char.isDigit && !isSpace char := by
  decide +kernel

theorem of_mem_markerName {cls : String} (member : cls ∈ classes) {char : Char}
    (inside : char ∈ markerName cls) :
    (char.toNat < 128 ∧ char.isDigit = false) ∧ isSpace char = false := by
  simpa using all_eq_true.mp (all_markerName cls member) char inside

theorem not_isDecimal_of_mem_markerName :
    ∀ cls ∈ classes, (markerName cls).all fun char => !tables.isDecimal char := by
  intro cls member
  rw [all_eq_true]
  intro char inside
  obtain ⟨⟨ascii, notDigit⟩, -⟩ := of_mem_markerName member inside
  rw [tables.isDecimal_ascii char ascii, notDigit]
  rfl

theorem not_isSpace_of_mem_markerName :
    ∀ cls ∈ classes, (markerName cls).all fun char => !isSpace char := by
  intro cls member
  rw [all_eq_true]
  intro char inside
  rw [(of_mem_markerName member inside).2]
  rfl

def StaysApart (tables : CharacterTables) (pattern : Pattern) : Prop :=
  ∀ cls ∈ classes, Apart tables.isWord pattern '[' ']' (markerName cls)

theorem isWord_opening : tables.isWord '[' = false :=
  tables.isWord_ascii '[' (by decide)

theorem isWord_closing : tables.isWord ']' = false :=
  tables.isWord_ascii ']' (by decide)

theorem isDecimal_opening : tables.isDecimal '[' = false :=
  tables.isDecimal_ascii '[' (by decide)

theorem isDecimal_closing : tables.isDecimal ']' = false :=
  tables.isDecimal_ascii ']' (by decide)

theorem staysApart_of_literal {pattern : Pattern} {parts : List Regex} (word : String)
    (shape : pattern.body = sequence parts) (member : literal word.toList ∈ parts)
    (absent : ∀ cls ∈ classes, ¬ word.toList <:+: markerName cls)
    (solid : pattern.body.nullable = false) (opening : pattern.body.canTake '[' = false)
    (closing : pattern.body.canTake ']' = false) : StaysApart tables pattern :=
  fun _ inClasses =>
    ⟨isWord_opening, isWord_closing, solid, opening, closing, fun takes =>
      not_infix_of_part member (not_infix_of_literal absent inClasses) (shape ▸ takes)⟩

theorem staysApart_of_many {pattern : Pattern} {parts : List Regex} (least : Nat)
    (most : Option Nat) (accepts : Char → Bool) (shape : pattern.body = sequence parts)
    (member : .many true least most (.one accepts) ∈ parts) (positive : 0 < least)
    (absent : ∀ cls ∈ classes, (markerName cls).all fun char => !accepts char)
    (solid : pattern.body.nullable = false) (opening : pattern.body.canTake '[' = false)
    (closing : pattern.body.canTake ']' = false) : StaysApart tables pattern :=
  fun _ inClasses =>
    ⟨isWord_opening, isWord_closing, solid, opening, closing, fun takes =>
      not_infix_of_part member (not_infix_of_many absent positive inClasses) (shape ▸ takes)⟩

/-- The words of the patterns, none of which is in the name of a marker. -/
def words : List String :=
  ["sk-", "_", "github_pat_", "AKIA", "xox", "@"]

theorem word_not_infix : ∀ cls ∈ classes, ∀ word ∈ words, ¬ word.toList <:+: markerName cls := by
  decide +kernel

theorem staysApart_openaiKey : StaysApart tables openaiKey :=
  staysApart_of_literal "sk-" rfl (by simp)
    (fun cls inClasses => word_not_infix cls inClasses _ (by simp [words])) rfl rfl rfl

theorem staysApart_githubToken : StaysApart tables githubToken :=
  staysApart_of_literal "_" rfl (by simp)
    (fun cls inClasses => word_not_infix cls inClasses _ (by simp [words])) rfl rfl rfl

theorem staysApart_githubFinegrained : StaysApart tables githubFinegrained :=
  staysApart_of_literal "github_pat_" rfl (by simp)
    (fun cls inClasses => word_not_infix cls inClasses _ (by simp [words])) rfl rfl rfl

theorem staysApart_awsAccessKey : StaysApart tables awsAccessKey :=
  staysApart_of_literal "AKIA" rfl (by simp)
    (fun cls inClasses => word_not_infix cls inClasses _ (by simp [words])) rfl rfl rfl

theorem staysApart_slackToken : StaysApart tables slackToken :=
  staysApart_of_literal "xox" rfl (by simp)
    (fun cls inClasses => word_not_infix cls inClasses _ (by simp [words])) rfl rfl rfl

theorem staysApart_bearerHeader : StaysApart tables bearerHeader :=
  staysApart_of_many 1 none isSpace rfl (by simp [run1]) (by decide)
    not_isSpace_of_mem_markerName rfl rfl rfl

theorem staysApart_email : StaysApart tables email :=
  staysApart_of_literal "@" rfl (by simp)
    (fun cls inClasses => word_not_infix cls inClasses _ (by simp [words])) rfl rfl rfl

theorem staysApart_ssn : StaysApart tables (ssn tables) :=
  staysApart_of_many 3 (some 3) tables.isDecimal rfl (by simp [exactly]) (by decide)
    not_isDecimal_of_mem_markerName rfl
    (by simp [ssn, bounded, Regex.sequence, canTake, exactly, literal, isDecimal_opening])
    (by simp [ssn, bounded, Regex.sequence, canTake, exactly, literal, isDecimal_closing])

theorem staysApart_phone : StaysApart tables (phone tables) :=
  staysApart_of_many 3 (some 3) tables.isDecimal rfl (by simp [exactly]) (by decide)
    not_isDecimal_of_mem_markerName rfl
    (by simp [phone, bounded, Regex.sequence, canTake, exactly, literal, Regex.optional, oneOf,
      isDecimal_opening])
    (by simp [phone, bounded, Regex.sequence, canTake, exactly, literal, Regex.optional, oneOf,
      isDecimal_closing])

def keywords : List String :=
  ["api_key", "api-key", "apikey", "secret", "token", "password", "passwd", "credential"]

theorem keyword_not_infix : ∀ cls ∈ classes, ∀ word ∈ keywords,
      ¬ word.toList ++ ['='] <:+: (markerName cls).map foldCase ∧
        ¬ word.toList ++ [':'] <:+: (markerName cls).map foldCase := by
  decide +kernel

theorem exists_keyword_of_takes (takes : Takes keyword start text stop) :
    ∃ word ∈ keywords, text.map foldCase = word.toList := by
  obtain ⟨part, member, taken⟩ := exists_of_takes_choice takes
  rcases mem_cons.mp member with rfl | single
  · obtain ⟨api, _, _, rfl, isApi, tail⟩ := takes_sequence_cons.mp taken
    obtain ⟨joint, _, _, rfl, isJoint, last⟩ := takes_sequence_cons.mp tail
    obtain ⟨-, short, joins, -⟩ := all_of_takes_many isJoint
    rw [map_append, map_append, map_of_takes_literalNoCase isApi, map_of_takes_literalNoCase last]
    have atMostOne := short 1 rfl
    cases joint with
    | nil => exact ⟨"apikey", by decide, rfl⟩
    | cons sign others =>
      have alone : others = [] := by simpa using atMostOne
      have isSign : sign = '_' ∨ sign = '-' := by simpa [oneOf] using joins sign
      subst alone
      rcases isSign with rfl | rfl
      · exact ⟨"api_key", by decide, rfl⟩
      · exact ⟨"api-key", by decide, rfl⟩
  · obtain ⟨word, inWords, rfl⟩ := mem_map.mp single
    have known : ∀ word ∈ ["apikey", "secret", "token", "password", "passwd", "credential"],
        word ∈ keywords := by decide
    exact ⟨word, known word inWords, map_of_takes_literalNoCase taken⟩

/-- An assignment does not begin in the name of a marker: what is in front of the colon there is no
keyword. -/
theorem staysApart_keyAssignment : StaysApart tables keyAssignment := by
  refine fun cls inClasses => ⟨isWord_opening, isWord_closing, rfl, rfl, rfl, fun takes => ?_⟩
  obtain ⟨named, _, _, rfl, isKeyword, tail⟩ := takes_sequence_cons.mp takes
  obtain ⟨_, behind, _, rfl, ⟨_, separator, -⟩, -⟩ := takes_sequence_cons.mp tail
  obtain ⟨blanks, _, _, rfl, blank, further⟩ := takes_sequence_cons.mp separator
  obtain ⟨_, rest, _, rfl, ⟨sign, isSign, rfl, rfl⟩, -⟩ := takes_sequence_cons.mp further
  obtain ⟨-, -, spaces, -⟩ := all_of_takes_many blank
  obtain ⟨word, isWord, folded⟩ := exists_keyword_of_takes isKeyword
  intro within
  have none : blanks = [] := eq_nil_iff_forall_not_mem.mpr fun char member => by
    have refused := all_eq_true.mp (not_isSpace_of_mem_markerName cls inClasses) char
      (within.subset (by simp [member]))
    rw [spaces char member] at refused
    cases refused
  have signs : sign = '=' ∨ sign = ':' := by simpa [oneOf] using isSign
  have first : named ++ [sign] <:+: markerName cls := by
    rw [none] at within
    exact .trans ⟨[], rest ++ behind, by simp⟩ within
  have mapped := first.map foldCase
  rw [map_append, folded] at mapped
  have absent := keyword_not_infix cls inClasses word isWord
  rcases signs with rfl | rfl
  · exact absent.1 mapped
  · exact absent.2 mapped

/-! ## Word boundaries next to matches -/

theorem seals_bounded {parts : List Regex} (solid : (sequence parts).nullable = false)
    (opens : Char → Bool) : Seals tables.isWord (bounded parts) opens :=
  seals_of_bounded rfl rfl solid opens

theorem isWord_dash : tables.isWord '-' = false :=
  tables.isWord_ascii '-' (by decide)

theorem edge_dash {char : Char} (word : tables.isWord char = true) :
    edge tables.isWord (some char) (some '-') = true := by
  simp [edge, word, isWord_dash]

theorem shape_of_takes_keyLine {word : String}
    (takes : Takes (sequence (keyLine word)) start text stop) : stop = start ∧ ∃ heading,
      text = ("-----" ++ word ++ " ").toList ++ (heading ++ "PRIVATE KEY-----".toList) := by
  obtain ⟨_, _, _, rfl, first, tail⟩ := takes_sequence_cons.mp takes
  obtain ⟨heading, _, _, rfl, middle, last⟩ := takes_sequence_cons.mp tail
  obtain ⟨-, -, -, kept⟩ := all_of_takes_many middle
  change Takes (literal _) _ _ _ at last
  rw [takes_literal] at first last
  exact ⟨last.2.trans (kept.trans first.2), heading, by rw [first.1, last.1]⟩

theorem takes_privateKeyBlock_iff : Takes privateKeyBlock.body [] text groups ↔
      ∃ first inside last, text = first ++ (inside ++ last) ∧
        Takes (sequence (keyLine "BEGIN")) [] first [] ∧
        Takes (sequence (keyLine "END")) [] last groups := by
  change Takes (sequence _) _ _ _ ↔ _
  rw [append_assoc, takes_sequence_append]
  constructor
  · rintro ⟨first, _, start, rfl, begins, tail⟩
    obtain ⟨inside, last, stop, rfl, middle, ends⟩ := takes_sequence_cons.mp tail
    obtain ⟨rfl, -⟩ := shape_of_takes_keyLine begins
    obtain ⟨-, -, -, rfl⟩ := all_of_takes_many middle
    exact ⟨first, inside, last, rfl, begins, ends⟩
  · rintro ⟨first, inside, last, rfl, begins, ends⟩
    exact ⟨first, inside ++ last, [], rfl, begins, takes_sequence_cons.mpr
      ⟨inside, last, [], rfl, takes_anything false [] inside, ends⟩⟩

/-- A key block begins and ends with a dash, so that every letter next to it has its boundary. -/
theorem seals_privateKeyBlock (opens : Char → Bool) :
    Seals tables.isWord privateKeyBlock opens where
  front := by
    intro text outcome char found word
    obtain ⟨rfl, takes, -, -⟩ := matchAt_eq_some found
    obtain ⟨first, _, _, shape, begins, -⟩ := takes_privateKeyBlock_iff.mp takes
    obtain ⟨-, heading, rfl⟩ := shape_of_takes_keyLine begins
    rw [shape]
    exact edge_dash word
  back := by
    intro before text outcome char found next word _
    obtain ⟨-, takes, -, -⟩ := matchAt_eq_some found
    obtain ⟨_, _, last, shape, -, ends⟩ := takes_privateKeyBlock_iff.mp takes
    obtain ⟨-, heading, rfl⟩ := shape_of_takes_keyLine ends
    rw [shape, ← append_assoc, ← append_assoc, ← append_assoc, getLast?_append, edge_comm]
    exact edge_dash word

def continues : Char → Bool :=
  isTokenCharacter ∘ foldCase

section

variable {opens : Char → Bool} (within : ∀ char, opens char = true → continues char = true)
include within

theorem seals_bearerHeader : Seals tables.isWord bearerHeader opens where
  front found _ := (matchAt_eq_some found).2.2.1 rfl
  back := by
    intro before text outcome char found next _ begins
    obtain ⟨_, -, later, tail, rfl⟩ := exists_of_head_run_seq (head_of_matchAt rfl found)
    obtain ⟨_, -, last, final, rfl⟩ := exists_of_head_run_seq tail
    have refused := refuses_of_head_run_many final next
    have accepted := within char begins
    rw [continues] at accepted
    rw [accepted] at refused
    cases refused

theorem seals_keyAssignment : Seals tables.isWord keyAssignment opens where
  front found _ := (matchAt_eq_some found).2.2.1 rfl
  back := by
    intro before text outcome char found next word begins
    obtain ⟨_, -, _, tail, rfl⟩ := exists_of_head_run_seq (head_of_matchAt rfl found)
    obtain ⟨_, -, _, further, rfl⟩ := exists_of_head_run_seq tail
    obtain ⟨quoted, quoteMem, last, final, rfl⟩ := exists_of_head_run_seq further
    obtain ⟨-, inner, quotes, remembered⟩ := mem_run_iff.mp quoteMem
    have found : quoted.groups.find 2 = some quoted.taken := by
      rw [remembered]
      rfl
    obtain ⟨-, short, isQuote, -⟩ := all_of_takes_many quotes
    have atMostOne := short 1 rfl
    cases shape : quoted.taken with
    | nil =>
      rw [shape] at found
      have refused := refuses_of_head_run_again found final next
      have accepted := within char begins
      rw [continues] at accepted
      rw [accepted] at refused
      cases refused
    | cons quote others =>
      rw [shape] at found isQuote atMostOne
      have alone : others = [] := by simpa using atMostOne
      have keeps : ∀ before ∈ run (atLeast 8 (isTokenCharacter ∘ foldCase)) quoted.groups
          quoted.rest, before.groups = quoted.groups := fun before member =>
        (all_of_takes_many (mem_run_iff.mp member).2).2.2.2
      obtain ⟨token, ended⟩ := suffix_of_mem_run_again keeps found (mem_of_head? final)
      have plain : tables.isWord quote = false := by
        have known : quote = '\'' ∨ quote = '"' := by simpa [oneOf] using isQuote quote
        rcases known with rfl | rfl <;> rw [tables.isWord_ascii _ (by decide)] <;> decide
      have closes : last.taken.getLast? = some quote := by rw [← ended, alone, getLast?_concat]
      have behind {later : Outcome} (front : List Char)
          (closes : later.taken.getLast? = some quote) :
          (later.after front).taken.getLast? = some quote := by
        rw [Outcome.after, getLast?_append, closes, Option.some_or]
      rw [behind _ (behind _ (behind _ closes))]
      simp [edge, plain, word]

end

end AgenticOS.Security
