import AgenticOS.Security.Egress.Patterns

/-!
# No secret is left

When the patterns have been applied one after the other, none of them matches anywhere: a pattern
leaves none of its own matches, and brings none of those that went before.

The pattern of the key blocks takes whatever stands between two lines, markers included. It is gone
because its lines are not part of a marker.
-/

namespace AgenticOS.Security

open Regex Pattern List

variable {tables : CharacterTables} {text : List Char}

/-- Replacing a class brings no match of a pattern. -/
def Keeps (tables : CharacterTables) (pattern : Pattern) (entry : String × Pattern) : Prop :=
  ∀ text, ¬ Contains tables.isWord pattern text →
    ¬ Contains tables.isWord pattern (entry.2.sub tables.isWord (replacement entry.1) text)

/-- Replacing a class leaves none of its matches. -/
def Removes (tables : CharacterTables) (entry : String × Pattern) : Prop :=
  ∀ text, ¬ Contains tables.isWord entry.2 (entry.2.sub tables.isWord (replacement entry.1) text)

theorem exists_kept_keyLine {word cls : String} (inClasses : cls ∈ classes)
    (plain : (sequence (keyLine word)).canTake '[' = false ∧
      (sequence (keyLine word)).canTake ']' = false)
    {line before after : List Char} {groups : Groups} {pieces : List Piece}
    (takes : Takes (sequence (keyLine word)) [] line groups)
    (shape : render (replacement cls) pieces = before ++ (line ++ after)) :
    ∃ first last, pieces = first ++ line.map .kept ++ last ∧
      render (replacement cls) last = after := by
  have bare (bracket : Char) (refused : (sequence (keyLine word)).canTake bracket = false) :
      bracket ∉ line := fun member => by
    rw [canTake_of_takes takes member] at refused
    cases refused
  have nonempty : line ≠ [] := by
    obtain ⟨-, heading, rfl⟩ := shape_of_takes_keyLine takes
    simp
  have closing : literal "PRIVATE KEY-----".toList ∈ keyLine word := by simp [keyLine]
  have apart : ¬ line <:+: markerName cls :=
    not_infix_of_part closing (not_infix_of_literal (by decide) inClasses) takes
  obtain ⟨first, last, split, -, behind⟩ :=
    exists_kept (bare '[' plain.1) (bare ']' plain.2) nonempty apart shape
  exact ⟨first, last, split, behind⟩

variable {entry : String × Pattern}

theorem exists_block_of_contains (inClasses : entry.1 ∈ classes)
    (contains : Contains tables.isWord privateKeyBlock
      (entry.2.sub tables.isWord (replacement entry.1) text)) :
    ∃ first line rest, entry.2.pieces tables.isWord text.length none text =
        first ++ line.map .kept ++ rest ∧ line ≠ [] ∧
      ∃ groups inside after, source rest = inside ++ after ∧
        privateKeyBlock.body.Takes [] (line ++ inside) groups := by
  obtain ⟨before, _, after, shape, ⟨groups, takes⟩, -, -⟩ := contains
  obtain ⟨line, middle, ending, rfl, begins, ends⟩ := takes_privateKeyBlock_iff.mp takes
  rw [append_assoc, append_assoc, append_assoc] at shape
  obtain ⟨first, rest, split, behind⟩ := exists_kept_keyLine inClasses ⟨rfl, rfl⟩ begins shape
  obtain ⟨between, last, rfl, -⟩ := exists_kept_keyLine inClasses ⟨rfl, rfl⟩ ends behind
  have nonempty : line ≠ [] := by
    obtain ⟨-, heading, rfl⟩ := shape_of_takes_keyLine begins
    simp
  refine ⟨first, line, _, split, nonempty, groups, source between ++ ending, source last, ?_, ?_⟩
  · rw [source_append, source_append, source_kept]
  · exact takes_privateKeyBlock_iff.mpr ⟨line, source between, ending, rfl, begins, ends⟩

theorem keeps_privateKeyBlock (inClasses : entry.1 ∈ classes)
    (solid : entry.2.body.nullable = false) : Keeps tables privateKeyBlock entry := by
  intro text clean contains
  obtain ⟨first, line, rest, split, -, groups, inside, after, behind, takes⟩ :=
    exists_block_of_contains inClasses contains
  have sourced := (@scanned_pieces tables.isWord entry.2 solid text.length none text le_rfl).1
  rw [split, source_append, source_append, source_kept, behind] at sourced
  apply clean
  exact ⟨source first, line ++ inside, after, by simpa [append_assoc] using sourced.symm,
    ⟨groups, takes⟩, nofun, nofun⟩

theorem removes_privateKeyBlock : Removes tables ("private-key-block", privateKeyBlock) := by
  intro text contains
  obtain ⟨first, line, rest, split, nonempty, groups, inside, after, behind, takes⟩ :=
    exists_block_of_contains (by decide) contains
  have scanned := (@scanned_pieces tables.isWord privateKeyBlock rfl text.length none text le_rfl).2
  obtain ⟨head, tail, rfl⟩ := exists_cons_of_ne_nil nonempty
  rw [split, append_assoc] at scanned
  cases scanned.drop with
  | kept none _ =>
    have refused := none
    rw [append_eq, source_append, source_kept, behind, ← append_assoc] at refused
    exact matchAt_ne_none takes nofun nofun refused

theorem solid_of_mem (member : entry ∈ secretPatterns ++ piiPatterns tables) :
    entry.1 ∈ classes ∧ entry.2.body.nullable = false := by
  simp only [secretPatterns, piiPatterns, mem_append, mem_cons, not_mem_nil, or_false] at member
  rcases member with
    (rfl | rfl | rfl | rfl | rfl | rfl | rfl | rfl) | rfl | rfl | rfl <;>
  exact ⟨by simp [classes], rfl⟩

/-- All patterns but that of the key blocks stay apart from the markers. -/
theorem staysApart_of_mem (member : entry ∈ secretPatterns ++ piiPatterns tables) :
    entry = ("private-key-block", privateKeyBlock) ∨ StaysApart tables entry.2 := by
  simp only [secretPatterns, piiPatterns, mem_append, mem_cons, not_mem_nil, or_false] at member
  rcases member with
    (rfl | rfl | rfl | rfl | rfl | rfl | rfl | rfl) | rfl | rfl | rfl
  · exact .inr staysApart_openaiKey
  · exact .inr staysApart_githubToken
  · exact .inr staysApart_githubFinegrained
  · exact .inr staysApart_awsAccessKey
  · exact .inr staysApart_slackToken
  · exact .inl rfl
  · exact .inr staysApart_bearerHeader
  · exact .inr staysApart_keyAssignment
  · exact .inr staysApart_email
  · exact .inr staysApart_ssn
  · exact .inr staysApart_phone

theorem continues_of_canOpen (member : entry ∈ secretPatterns) {char : Char}
    (opens : entry.2.body.canOpen char = true) : continues char = true := by
  simp only [secretPatterns, mem_cons, not_mem_nil, or_false] at member
  rcases member with rfl | rfl | rfl | rfl | rfl | rfl | rfl | rfl
  · obtain rfl : char = 's' := by
      simpa [openaiKey, bounded, Regex.sequence, canOpen, literal, nullable] using opens
    decide
  · obtain rfl : char = 'g' := by
      simpa [githubToken, bounded, Regex.sequence, choice, canOpen, literal, nullable] using opens
    decide
  · obtain rfl : char = 'g' := by
      simpa [githubFinegrained, bounded, Regex.sequence, canOpen, literal, nullable] using opens
    decide
  · obtain rfl : char = 'A' := by
      simpa [awsAccessKey, bounded, Regex.sequence, canOpen, literal, nullable] using opens
    decide
  · obtain rfl : char = 'x' := by
      simpa [slackToken, bounded, Regex.sequence, canOpen, literal, nullable] using opens
    decide
  · obtain rfl : char = '-' := by
      simpa [privateKeyBlock, keyLine, Regex.sequence, canOpen, literal, nullable] using opens
    decide
  · have folded : foldCase char = 'b' := by
      simpa [bearerHeader, Regex.sequence, canOpen, literalNoCase, nullable] using opens
    rw [continues, Function.comp_apply, folded]
    decide
  · have folded : foldCase char ∈ ['a', 's', 't', 'p', 'c'] := by
      simpa [keyAssignment, keyword, Regex.sequence, choice, canOpen, literalNoCase, nullable]
        using opens
    have token : ['a', 's', 't', 'p', 'c'].all isTokenCharacter := by decide
    exact all_eq_true.mp token _ folded

theorem seals_secret (member : entry ∈ secretPatterns) {opens : Char → Bool}
    (within : ∀ char, opens char = true → continues char = true) :
    Seals tables.isWord entry.2 opens := by
  simp only [secretPatterns, mem_cons, not_mem_nil, or_false] at member
  rcases member with rfl | rfl | rfl | rfl | rfl | rfl | rfl | rfl
  · exact seals_bounded rfl opens
  · exact seals_bounded rfl opens
  · exact seals_bounded rfl opens
  · exact seals_bounded rfl opens
  · exact seals_bounded rfl opens
  · exact seals_privateKeyBlock opens
  · exact seals_bearerHeader within
  · exact seals_keyAssignment within

theorem seals_pii (member : entry ∈ piiPatterns tables) (opens : Char → Bool) :
    Seals tables.isWord entry.2 opens := by
  simp only [piiPatterns, mem_cons, not_mem_nil, or_false] at member
  rcases member with rfl | rfl | rfl <;> exact seals_bounded rfl opens

theorem seals_of_mem {earlier later : String × Pattern}
    (ordered : earlier ∈ secretPatterns ∧ later ∈ secretPatterns ∨ later ∈ piiPatterns tables) :
    Seals tables.isWord later.2 earlier.2.body.canOpen := by
  rcases ordered with ⟨first, second⟩ | pii
  · exact seals_secret second fun _ => continues_of_canOpen first
  · exact seals_pii pii _

theorem keeps_of_mem {earlier later : String × Pattern}
    (first : earlier ∈ secretPatterns ++ piiPatterns tables)
    (second : later ∈ secretPatterns ++ piiPatterns tables)
    (ordered : earlier ∈ secretPatterns ∧ later ∈ secretPatterns ∨ later ∈ piiPatterns tables) :
    Keeps tables earlier.2 later := by
  obtain ⟨inClasses, solid⟩ := solid_of_mem second
  rcases staysApart_of_mem first with rfl | apart
  · exact keeps_privateKeyBlock inClasses solid
  · exact fun _ => not_contains_sub (apart later.1 inClasses) (seals_of_mem ordered) solid

theorem removes_of_mem (member : entry ∈ secretPatterns ++ piiPatterns tables) :
    Removes tables entry := by
  obtain ⟨inClasses, -⟩ := solid_of_mem member
  rcases staysApart_of_mem member with rfl | apart
  · exact removes_privateKeyBlock
  · apply not_contains_sub_self (apart entry.1 inClasses)
    apply seals_of_mem
    rcases mem_append.mp member with secret | pii
    · exact .inl ⟨secret, secret⟩
    · exact .inr pii

/-! ## The run over the patterns -/

variable {patterns : List (String × Pattern)}

theorem keeps_foldl {pattern : Pattern} (keeps : ∀ entry ∈ patterns, Keeps tables pattern entry)
    {redacted : List Char × Account} (clean : ¬ Contains tables.isWord pattern redacted.1) :
    ¬ Contains tables.isWord pattern (patterns.foldl (redactClass tables) redacted).1 := by
  induction patterns generalizing redacted with
  | nil => exact clean
  | cons entry rest ih =>
    rw [forall_mem_cons] at keeps
    exact ih keeps.2 (keeps.1 redacted.1 clean)

theorem removes_foldl
    (ordered : patterns.Pairwise fun earlier later => Keeps tables earlier.2 later)
    (removes : ∀ entry ∈ patterns, Removes tables entry) (redacted : List Char × Account) :
    ∀ entry ∈ patterns, ¬ Contains tables.isWord entry.2
      (patterns.foldl (redactClass tables) redacted).1 := by
  induction patterns generalizing redacted with
  | nil => exact fun _ member => absurd member not_mem_nil
  | cons entry rest ih =>
    rw [pairwise_cons] at ordered
    rw [forall_mem_cons] at removes ⊢
    exact ⟨keeps_foldl ordered.1 (removes.1 redacted.1), ih ordered.2 removes.2 _⟩

theorem pairwise_enabledPatterns (policy : EgressPolicy) :
    (enabledPatterns tables policy).Pairwise fun earlier later => Keeps tables earlier.2 later := by
  have secrets : secretPatterns.Pairwise fun earlier later => Keeps tables earlier.2 later :=
    pairwise_of_forall_mem_list fun _ first _ second =>
      keeps_of_mem (mem_append_left _ first) (mem_append_left _ second) (.inl ⟨first, second⟩)
  have pii : (piiPatterns tables).Pairwise fun earlier later => Keeps tables earlier.2 later :=
    pairwise_of_forall_mem_list fun _ first _ second =>
      keeps_of_mem (mem_append_right _ first) (mem_append_right _ second) (.inr second)
  have both : ∀ earlier ∈ secretPatterns, ∀ later ∈ piiPatterns tables,
      Keeps tables earlier.2 later := fun _ first _ second =>
    keeps_of_mem (mem_append_left _ first) (mem_append_right _ second) (.inr second)
  unfold enabledPatterns
  cases policy.redactSecrets <;> cases policy.redactPii <;>
    simp [pairwise_append, secrets, pii]
  exact fun _ _ first _ _ second => both _ first _ second

theorem not_contains_redactPatterns (policy : EgressPolicy) (text : List Char)
    (account : Account) : ∀ entry ∈ enabledPatterns tables policy,
      ¬ Contains tables.isWord entry.2 (redactPatterns tables policy text account).1 := by
  apply removes_foldl (pairwise_enabledPatterns policy)
  intro entry member
  apply removes_of_mem
  rcases mem_append.mp member with secret | pii
  · split at secret
    · exact mem_append_left _ secret
    · cases secret
  · split at pii
    · exact mem_append_right _ pii
    · cases pii

end AgenticOS.Security
