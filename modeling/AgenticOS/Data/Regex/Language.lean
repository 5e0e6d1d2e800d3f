import AgenticOS.Data.Regex

/-!
# What a regular expression takes

The matcher lists its ways to match in the order in which it tries them. Which ways there are does
not depend on the order or on the text behind: an expression takes a text or it does not.

Two things can be read from an expression: which characters it may take, and with which it may
begin.
-/

namespace AgenticOS.Regex

open List

inductive Repeats (step : Groups → List Char → Groups → Prop) :
    Nat → Option Nat → Groups → List Char → Groups → Prop
  | stop (most : Option Nat) (groups : Groups) : Repeats step 0 most groups [] groups
  | more {least : Nat} {most : Option Nat} {groups middle after : Groups} {first rest : List Char}
      (allowed : most ≠ some 0) (nonempty : first ≠ []) (head : step groups first middle)
      (tail : Repeats step (least - 1) (most.map (· - 1)) middle rest after) :
      Repeats step least most groups (first ++ rest) after

/-- An expression takes a text between two states of the groups. -/
def Takes : Regex → Groups → List Char → Groups → Prop
  | .empty, groups, text, after => text = [] ∧ after = groups
  | .one accepts, groups, text, after =>
    ∃ char, accepts char = true ∧ text = [char] ∧ after = groups
  | .seq first second, groups, text, after =>
    ∃ before rest middle, text = before ++ rest ∧ Takes first groups before middle ∧
      Takes second middle rest after
  | .alt first second, groups, text, after =>
    Takes first groups text after ∨ Takes second groups text after
  | .many _ least most body, groups, text, after =>
    Repeats (Takes body) least most groups text after
  | .group number body, groups, text, after =>
    ∃ inner, Takes body groups text inner ∧ after = (number, text) :: inner
  | .again number, groups, text, after => groups.find number = some text ∧ after = groups

variable {outcome : Outcome}

theorem mem_stop_iff {least : Nat} {groups : Groups} {text : List Char} :
    outcome ∈ (if least = 0 then [⟨[], text, groups⟩] else [] : List Outcome) ↔
      least = 0 ∧ outcome = ⟨[], text, groups⟩ := by
  split <;> simp [*]

theorem mem_repeated_iff {body : Regex} {greedy : Bool}
    (agrees : ∀ groups text outcome, outcome ∈ run body groups text ↔
      text = outcome.taken ++ outcome.rest ∧ Takes body groups outcome.taken outcome.groups)
    {fuel least : Nat} {most : Option Nat} {groups : Groups} {text : List Char}
    (enough : text.length ≤ fuel) (outcome : Outcome) :
    outcome ∈ repeated greedy (run body) fuel least most groups text ↔
      text = outcome.taken ++ outcome.rest ∧
        Repeats (Takes body) least most groups outcome.taken outcome.groups := by
  induction fuel generalizing least most groups text outcome with
  | zero =>
    rw [repeated, mem_stop_iff]
    have nothing : text = [] := length_eq_zero_iff.mp (Nat.le_zero.mp enough)
    constructor
    · rintro ⟨rfl, rfl⟩
      exact ⟨rfl, .stop most groups⟩
    · rintro ⟨shape, repeats⟩
      obtain ⟨taken, rest, after⟩ := outcome
      obtain ⟨rfl, rfl⟩ := append_eq_nil_iff.mp (shape.symm.trans nothing)
      rw [nothing]
      generalize empty : ([] : List Char) = taken at repeats
      cases repeats with
      | stop => exact ⟨rfl, rfl⟩
      | more _ nonempty _ _ => exact absurd (append_eq_nil_iff.mp empty.symm).1 nonempty
  | succ fuel ih =>
    have either : outcome ∈ repeated greedy (run body) (fuel + 1) least most groups text ↔
        (least = 0 ∧ outcome = ⟨[], text, groups⟩) ∨ most ≠ some 0 ∧
          ∃ first ∈ run body groups text, first.taken ≠ [] ∧
            ∃ later ∈ repeated greedy (run body) fuel (least - 1) (most.map (· - 1))
              first.groups first.rest, later.after first.taken = outcome := by
      simp only [repeated]
      split <;> rw [mem_append, mem_stop_iff] <;> split <;> simp [*, and_assoc, or_comm]
    rw [either]
    constructor
    · rintro (⟨rfl, rfl⟩ | ⟨allowed, first, firstMem, nonempty, later, laterMem, rfl⟩)
      · exact ⟨rfl, .stop most groups⟩
      · obtain ⟨rfl, head⟩ := (agrees _ _ _).mp firstMem
        have shorter : first.rest.length ≤ fuel := by
          have positive := length_pos_of_ne_nil nonempty
          rw [length_append] at enough
          omega
        obtain ⟨split, tail⟩ := (ih shorter later).mp laterMem
        exact ⟨by simp [Outcome.after, split], .more allowed nonempty head tail⟩
    · obtain ⟨taken, rest, after⟩ := outcome
      rintro ⟨rfl, repeats⟩
      dsimp only at repeats enough ⊢
      cases repeats with
      | stop => exact .inl ⟨rfl, rfl⟩
      | @more _ _ _ middle _ first others allowed nonempty head tail =>
        have shorter : (others ++ rest).length ≤ fuel := by
          have positive := length_pos_of_ne_nil nonempty
          simp only [length_append] at enough ⊢
          omega
        refine .inr ⟨allowed, ⟨first, others ++ rest, middle⟩, ?_, nonempty,
          ⟨others, rest, after⟩, ?_, rfl⟩
        · exact (agrees _ _ _).mpr ⟨append_assoc _ _ _, head⟩
        · exact (ih shorter _).mpr ⟨rfl, tail⟩

theorem mem_run_one_iff {accepts : Char → Bool} {groups : Groups} {text : List Char} :
    outcome ∈ run (.one accepts) groups text ↔
      text = outcome.taken ++ outcome.rest ∧
        Takes (.one accepts) groups outcome.taken outcome.groups := by
  obtain ⟨taken, rest, after⟩ := outcome
  cases text with
  | nil =>
    simp only [run, Takes, not_mem_nil, false_iff]
    rintro ⟨shape, char, -, rfl, -⟩
    cases shape
  | cons char others =>
    simp only [run, Takes]
    split
    · next accepted =>
        simp only [mem_singleton, Outcome.mk.injEq]
        constructor
        · rintro ⟨rfl, rfl, rfl⟩
          exact ⟨rfl, char, accepted, rfl, rfl⟩
        · rintro ⟨shape, other, -, rfl, rfl⟩
          cases shape
          exact ⟨rfl, rfl, rfl⟩
    · next refused =>
        simp only [not_mem_nil, false_iff]
        rintro ⟨shape, other, accepted, rfl, rfl⟩
        cases shape
        exact refused accepted

theorem mem_run_again_iff {number : Nat} {groups : Groups} {text : List Char} :
    outcome ∈ run (.again number) groups text ↔
      text = outcome.taken ++ outcome.rest ∧
        Takes (.again number) groups outcome.taken outcome.groups := by
  obtain ⟨taken, rest, after⟩ := outcome
  simp only [run, Takes]
  cases found : groups.find number with
  | none => simp
  | some remembered =>
    dsimp only
    split
    · next begins =>
        obtain ⟨behind, rfl⟩ := isPrefixOf_iff_prefix.mp begins
        simp only [mem_singleton, Outcome.mk.injEq, Option.some.injEq]
        constructor
        · rintro ⟨rfl, rfl, rfl⟩
          simp
        · rintro ⟨shape, rfl, rfl⟩
          simpa using (append_cancel_left shape).symm
    · next different =>
        simp only [not_mem_nil, Option.some.injEq, false_iff]
        rintro ⟨rfl, rfl, rfl⟩
        exact different ( isPrefixOf_iff_prefix.mpr (prefix_append _ _))

theorem mem_run_iff {expression : Regex} {groups : Groups} {text : List Char} :
    outcome ∈ run expression groups text ↔
      text = outcome.taken ++ outcome.rest ∧
        Takes expression groups outcome.taken outcome.groups := by
  induction expression generalizing groups text outcome with
  | empty =>
    obtain ⟨taken, rest, after⟩ := outcome
    simp only [run, Takes, mem_singleton, Outcome.mk.injEq]
    constructor
    · rintro ⟨rfl, rfl, rfl⟩
      simp
    · rintro ⟨rfl, rfl, rfl⟩
      simp
  | one accepts => exact mem_run_one_iff
  | seq first second firstHypothesis secondHypothesis =>
    obtain ⟨taken, rest, after⟩ := outcome
    simp only [run, Takes, mem_flatMap, mem_map, firstHypothesis, secondHypothesis]
    constructor
    · rintro ⟨⟨before, middle, inner⟩, ⟨rfl, head⟩, ⟨later, behind, last⟩, ⟨split, tail⟩, same⟩
      cases same
      dsimp only at split tail
      exact ⟨by simp [split], before, later, inner, rfl, head, tail⟩
    · rintro ⟨rfl, before, later, inner, rfl, head, tail⟩
      exact ⟨⟨before, later ++ rest, inner⟩, ⟨by simp, head⟩, ⟨later, rest, after⟩,
        ⟨rfl, tail⟩, rfl⟩
  | alt first second firstHypothesis secondHypothesis =>
    simp only [run, Takes, mem_append, firstHypothesis, secondHypothesis]
    exact and_or_left.symm
  | many greedy least most body ih =>
    exact mem_repeated_iff (fun _ _ _ => ih) (Nat.le_refl _) outcome
  | group number body ih =>
    obtain ⟨taken, rest, after⟩ := outcome
    simp only [run, Takes, mem_map, ih]
    constructor
    · rintro ⟨⟨inside, behind, inner⟩, ⟨rfl, head⟩, same⟩
      cases same
      exact ⟨rfl, inner, head, rfl⟩
    · rintro ⟨rfl, inner, head, rfl⟩
      exact ⟨⟨taken, rest, inner⟩, ⟨rfl, head⟩, rfl⟩
  | again number => exact mem_run_again_iff

/-- An expression may take a character, apart from what it takes again. -/
def canTake : Regex → Char → Bool
  | .empty, _ => false
  | .one accepts, char => accepts char
  | .seq first second, char => canTake first char || canTake second char
  | .alt first second, char => canTake first char || canTake second char
  | .many _ _ _ body, char => canTake body char
  | .group _ body, char => canTake body char
  | .again _, _ => false

/-- An expression may take nothing. -/
def nullable : Regex → Bool
  | .empty => true
  | .one _ => false
  | .seq first second => nullable first && nullable second
  | .alt first second => nullable first || nullable second
  | .many _ least _ _ => least = 0
  | .group _ body => nullable body
  | .again _ => true

/-- An expression may begin with a character; what is taken again may be anything. -/
def canOpen : Regex → Char → Bool
  | .empty, _ => false
  | .one accepts, char => accepts char
  | .seq first second, char => canOpen first char || nullable first && canOpen second char
  | .alt first second, char => canOpen first char || canOpen second char
  | .many _ _ _ body, char => canOpen body char
  | .group _ body, char => canOpen body char
  | .again _, _ => true

variable {expression : Regex} {groups after : Groups} {text : List Char}

def Groups.Within (groups : Groups) (kind : Char → Prop) : Prop :=
  ∀ group ∈ groups, ∀ char ∈ group.2, kind char

theorem Groups.Within.find {kind : Char → Prop} {number : Nat} (within : groups.Within kind)
    (found : groups.find number = some text) : ∀ char ∈ text, kind char := by
  obtain ⟨group, member, rfl⟩ := Option.map_eq_some_iff.mp found
  exact within group (mem_of_find?_eq_some member)

theorem within_of_takes {kind : Char → Prop}
    (allowed : ∀ char, canTake expression char = true → kind char)
    (within : groups.Within kind) (takes : Takes expression groups text after) :
    (∀ char ∈ text, kind char) ∧ after.Within kind := by
  induction expression generalizing groups text after with
  | empty =>
    obtain ⟨rfl, rfl⟩ := takes
    exact ⟨by simp, within⟩
  | one accepts =>
    obtain ⟨char, accepted, rfl, rfl⟩ := takes
    exact ⟨by simpa using allowed char accepted, within⟩
  | seq first second firstHypothesis secondHypothesis =>
    obtain ⟨before, rest, middle, rfl, head, tail⟩ := takes
    simp only [canTake, Bool.or_eq_true] at allowed
    obtain ⟨beforeOk, middleOk⟩ :=
      firstHypothesis (fun char can => allowed char (.inl can)) within head
    obtain ⟨restOk, afterOk⟩ :=
      secondHypothesis (fun char can => allowed char (.inr can)) middleOk tail
    exact ⟨forall_mem_append.mpr ⟨beforeOk, restOk⟩, afterOk⟩
  | alt first second firstHypothesis secondHypothesis =>
    simp only [canTake, Bool.or_eq_true] at allowed
    rcases takes with left | right
    · exact firstHypothesis (fun char can => allowed char (.inl can)) within left
    · exact secondHypothesis (fun char can => allowed char (.inr can)) within right
  | many greedy least most body ih =>
    induction takes with
    | stop => exact ⟨by simp, within⟩
    | more _ _ head _ tailHypothesis =>
      obtain ⟨firstOk, middleOk⟩ := ih allowed within head
      obtain ⟨restOk, afterOk⟩ := tailHypothesis allowed middleOk
      exact ⟨forall_mem_append.mpr ⟨firstOk, restOk⟩, afterOk⟩
  | group number body ih =>
    obtain ⟨inner, inside, rfl⟩ := takes
    obtain ⟨textOk, innerOk⟩ := ih allowed within inside
    exact ⟨textOk, forall_mem_cons.mpr ⟨textOk, innerOk⟩⟩
  | again number =>
    obtain ⟨found, rfl⟩ := takes
    exact ⟨within.find found, within⟩

theorem canTake_of_takes {char : Char} (takes : Takes expression [] text after)
    (member : char ∈ text) : canTake expression char = true :=
  (within_of_takes (fun _ can => can) (by simp [Groups.Within]) takes).1 char member

theorem nullable_of_takes (takes : Takes expression groups text after) (nothing : text = []) :
    nullable expression = true := by
  induction expression generalizing groups text after with
  | empty | again => rfl
  | one accepts =>
    obtain ⟨_, -, rfl, -⟩ := takes
    cases nothing
  | seq first second firstHypothesis secondHypothesis =>
    obtain ⟨before, rest, middle, rfl, head, tail⟩ := takes
    obtain ⟨rfl, rfl⟩ := append_eq_nil_iff.mp nothing
    simp [nullable, firstHypothesis head rfl, secondHypothesis tail rfl]
  | alt first second firstHypothesis secondHypothesis =>
    rcases takes with left | right
    · simp [nullable, firstHypothesis left nothing]
    · simp [nullable, secondHypothesis right nothing]
  | many greedy least most body ih =>
    cases takes with
    | stop => rfl
    | more _ nonempty _ _ => exact absurd (append_eq_nil_iff.mp nothing).1 nonempty
  | group number body ih =>
    obtain ⟨inner, inside, rfl⟩ := takes
    exact ih inside nothing

theorem canOpen_of_takes {char : Char} (takes : Takes expression groups text after)
    (first : text.head? = some char) : canOpen expression char = true := by
  induction expression generalizing groups text after with
  | empty =>
    obtain ⟨rfl, rfl⟩ := takes
    cases first
  | one accepts =>
    obtain ⟨other, accepted, rfl, rfl⟩ := takes
    cases first
    exact accepted
  | seq left right leftHypothesis rightHypothesis =>
    obtain ⟨before, rest, middle, rfl, head, tail⟩ := takes
    cases before with
    | nil => simp [canOpen, nullable_of_takes head rfl, rightHypothesis tail first]
    | cons other others => simp [canOpen, leftHypothesis head first]
  | alt left right leftHypothesis rightHypothesis =>
    rcases takes with inLeft | inRight
    · simp [canOpen, leftHypothesis inLeft first]
    · simp [canOpen, rightHypothesis inRight first]
  | many greedy least most body ih =>
    cases takes with
    | stop => cases first
    | @more _ _ _ _ _ step rest _ nonempty head _ =>
      obtain ⟨other, others, rfl⟩ := exists_cons_of_ne_nil nonempty
      exact ih head first
  | group number body ih =>
    obtain ⟨inner, inside, rfl⟩ := takes
    exact ih inside first
  | again number => rfl

/-! ## Sequences and words -/

variable {parts : List Regex}

theorem takes_sequence_cons {part : Regex} : Takes (sequence (part :: parts)) groups text after ↔
      ∃ before rest middle, text = before ++ rest ∧ Takes part groups before middle ∧
        Takes (sequence parts) middle rest after := by
  cases parts with
  | nil =>
    constructor
    · intro takes
      exact ⟨text, [], after, (append_nil text).symm, takes, rfl, rfl⟩
    · rintro ⟨before, rest, middle, rfl, takes, rfl, rfl⟩
      rw [append_nil]
      exact takes
  | cons second parts => rfl

theorem takes_sequence_append {others : List Regex} :
    Takes (sequence (parts ++ others)) groups text after ↔
      ∃ before rest middle, text = before ++ rest ∧ Takes (sequence parts) groups before middle ∧
        Takes (sequence others) middle rest after := by
  induction parts generalizing groups text with
  | nil =>
    constructor
    · intro takes
      exact ⟨[], text, groups, rfl, ⟨rfl, rfl⟩, takes⟩
    · rintro ⟨_, rest, _, rfl, ⟨rfl, rfl⟩, takes⟩
      exact takes
  | cons part parts ih =>
    rw [cons_append, takes_sequence_cons]
    simp only [ih, takes_sequence_cons]
    constructor
    · rintro ⟨first, _, start, rfl, head, before, rest, middle, rfl, tail, last⟩
      exact ⟨first ++ before, rest, middle, (append_assoc ..).symm,
        ⟨first, before, start, rfl, head, tail⟩, last⟩
    · rintro ⟨_, rest, middle, rfl, ⟨first, before, start, rfl, head, tail⟩, last⟩
      exact ⟨first, before ++ rest, start, append_assoc .., head, before, rest, middle, rfl,
        tail, last⟩

theorem exists_infix_of_takes_sequence {part : Regex} (member : part ∈ parts)
    (takes : Takes (sequence parts) groups text after) :
    ∃ inside start stop, inside <:+: text ∧ Takes part start inside stop := by
  obtain ⟨front, back, rfl⟩ := append_of_mem member
  obtain ⟨before, _, start, rfl, -, tail⟩ := takes_sequence_append.mp takes
  obtain ⟨inside, rest, stop, rfl, head, -⟩ := takes_sequence_cons.mp tail
  exact ⟨inside, start, stop, ⟨before, rest, append_assoc ..⟩, head⟩

theorem exists_of_takes_choice (takes : Takes (choice parts) groups text after) :
    ∃ part ∈ parts, Takes part groups text after := by
  induction parts with
  | nil =>
    obtain ⟨_, refused, -⟩ := takes
    cases refused
  | cons part parts ih =>
    cases parts with
    | nil => exact ⟨part, mem_cons_self, takes⟩
    | cons second parts =>
      rcases takes with here | later
      · exact ⟨part, mem_cons_self, here⟩
      · obtain ⟨other, member, found⟩ := ih later
        exact ⟨other, mem_cons_of_mem _ member, found⟩

@[simp]
theorem takes_literal {word : List Char} :
    Takes (literal word) groups text after ↔ text = word ∧ after = groups := by
  induction word generalizing groups text with
  | nil => rfl
  | cons char rest ih =>
    simp only [literal, Takes, ih, decide_eq_true_eq]
    constructor
    · rintro ⟨before, later, middle, rfl, ⟨other, rfl, rfl, rfl⟩, rfl, rfl⟩
      exact ⟨rfl, rfl⟩
    · rintro ⟨rfl, rfl⟩
      exact ⟨[char], rest, _, rfl, ⟨char, rfl, rfl, rfl⟩, rfl, rfl⟩

theorem map_of_takes_literalNoCase {word : List Char}
    (takes : Takes (literalNoCase word) groups text after) : text.map foldCase = word := by
  induction word generalizing groups text with
  | nil => rw [takes.1, map_nil]
  | cons char rest ih =>
    obtain ⟨_, later, _, rfl, ⟨other, same, rfl, rfl⟩, tail⟩ := takes
    rw [singleton_append, map_cons, ih tail, of_decide_eq_true same]

theorem all_of_takes_many {accepts : Char → Bool} {greedy : Bool} {least : Nat}
    {most : Option Nat} (takes : Takes (.many greedy least most (.one accepts)) groups text after) :
    least ≤ text.length ∧ (∀ limit, most = some limit → text.length ≤ limit) ∧
      (∀ char ∈ text, accepts char = true) ∧ after = groups := by
  induction takes with
  | stop => simp
  | more allowed _ head _ tailHypothesis =>
    obtain ⟨char, accepted, rfl, rfl⟩ := head
    obtain ⟨long, short, rest, rfl⟩ := tailHypothesis
    rw [singleton_append, length_cons]
    refine ⟨by omega, ?_, forall_mem_cons.mpr ⟨accepted, rest⟩, rfl⟩
    rintro limit rfl
    have positive : limit ≠ 0 := fun zero => allowed (congrArg some zero)
    have fewer := short (limit - 1) rfl
    omega

theorem takes_anything (greedy : Bool) (groups : Groups) (text : List Char) :
    Takes (.many greedy 0 none (.one fun _ => true)) groups text groups := by
  induction text with
  | nil => exact .stop none groups
  | cons char rest ih =>
    have allowed : (none : Option Nat) ≠ some 0 := nofun
    have step : Takes (.one fun _ => true) groups [char] groups := ⟨char, rfl, rfl, rfl⟩
    exact .more allowed (cons_ne_nil char []) step ih

/-!
## The first way to match

Of all ways to match the first one counts. A greedy loop over single characters first takes as many
as there are, so that what follows is not one of them.
-/

variable {expression first second : Regex} {groups : Groups} {text : List Char} {outcome : Outcome}

theorem exists_of_head_flatMap {α β : Type} {items : List α} {f : α → List β} {result : β}
    (head : (items.flatMap f).head? = some result) :
    ∃ item ∈ items, (f item).head? = some result := by
  induction items with
  | nil => cases head
  | cons item rest ih =>
    rw [flatMap_cons, head?_append] at head
    cases here : (f item).head? with
    | none =>
      rw [here, Option.none_or] at head
      obtain ⟨other, member, found⟩ := ih head
      exact ⟨other, mem_cons_of_mem _ member, found⟩
    | some value =>
      rw [here, Option.some_or] at head
      exact ⟨item, mem_cons_self, here.trans head⟩

theorem exists_of_head_run_seq (head : (run (.seq first second) groups text).head? = some outcome) :
    ∃ before ∈ run first groups text, ∃ later,
      (run second before.groups before.rest).head? = some later ∧
        outcome = later.after before.taken := by
  obtain ⟨before, member, found⟩ := exists_of_head_flatMap head
  rw [head?_map] at found
  obtain ⟨later, first, rfl⟩ := Option.map_eq_some_iff.mp found
  exact ⟨before, member, later, first, rfl⟩

theorem repeated_zero_ne_nil (step : Groups → List Char → List Outcome) (greedy : Bool) (fuel : Nat)
    (most : Option Nat) : repeated greedy step fuel 0 most groups text ≠ [] := by
  cases fuel <;> cases greedy <;> simp [repeated]

variable {char : Char} {accepts : Char → Bool}

theorem repeated_one_cons (accepted : accepts char = true) (fuel least : Nat) (rest : List Char) :
    repeated true (run (.one accepts)) (fuel + 1) least none groups (char :: rest) =
      (repeated true (run (.one accepts)) fuel (least - 1) none groups rest).map (·.after [char]) ++
        if least = 0 then [⟨[], char :: rest, groups⟩] else [] := by
  simp [repeated, run, accepted]

theorem repeated_one_of_refused (refused : ∀ char, text.head? = some char → accepts char = false)
    (fuel least : Nat) : repeated true (run (.one accepts)) (fuel + 1) least none groups text =
      if least = 0 then [⟨[], text, groups⟩] else [] := by
  cases text with
  | nil => simp [repeated, run]
  | cons char rest => simp [repeated, run, refused char rfl]

theorem refuses_of_head_repeated {fuel least : Nat} (enough : text.length ≤ fuel)
    (head : (repeated true (run (.one accepts)) fuel least none groups text).head? = some outcome)
    (next : outcome.rest.head? = some char) : accepts char = false := by
  induction fuel generalizing least text outcome with
  | zero =>
    have member := mem_of_head? head
    rw [repeated, mem_stop_iff] at member
    rw [member.2, length_eq_zero_iff.mp (Nat.le_zero.mp enough)] at next
    cases next
  | succ fuel ih =>
    by_cases refused : ∀ char, text.head? = some char → accepts char = false
    · rw [repeated_one_of_refused refused] at head
      have member := mem_of_head? head
      rw [mem_stop_iff] at member
      rw [member.2] at next
      exact refused char next
    · push Not at refused
      obtain ⟨other, first, accepted⟩ := refused
      obtain ⟨rest, rfl⟩ := head?_eq_some_iff.mp first
      rw [repeated_one_cons (by simpa using accepted), head?_append, head?_map] at head
      cases more :
          (repeated true (run (.one accepts)) fuel (least - 1) none groups rest).head? with
      | some later =>
        rw [more] at head
        cases head
        exact ih (Nat.le_of_succ_le_succ enough) more next
      | none =>
        rw [more] at head
        have stopped := mem_of_head? head
        rw [mem_stop_iff] at stopped
        rw [stopped.1, head?_eq_none_iff] at more
        exact absurd more (repeated_zero_ne_nil _ _ _ _)

theorem refuses_of_head_run_many {least : Nat}
    (head : (run (.many true least none (.one accepts)) groups text).head? = some outcome)
    (next : outcome.rest.head? = some char) : accepts char = false :=
  refuses_of_head_repeated (Nat.le_refl _) head next

/-- Where a group has taken nothing, a greedy loop over characters in front of its repetition stops
where there are no more of them. -/
theorem refuses_of_head_run_again {least number : Nat} (empty : groups.find number = some [])
    (head : (run (.seq (.many true least none (.one accepts)) (.again number)) groups text).head? =
      some outcome) (next : outcome.rest.head? = some char) : accepts char = false := by
  have same : run (.seq (.many true least none (.one accepts)) (.again number)) groups text =
      run (.many true least none (.one accepts)) groups text := by
    conv_rhs => rw [← flatMap_singleton' (run _ _ _)]
    apply flatMap_congr
    rintro ⟨taken, rest, after⟩ member
    obtain rfl : after = groups := (all_of_takes_many (mem_run_iff.mp member).2).2.2.2
    simp [run, empty, Outcome.after]
  rw [same] at head
  exact refuses_of_head_run_many head next

theorem suffix_of_mem_run_again {number : Nat} {taken : List Char}
    (keeps : ∀ before ∈ run first groups text, before.groups = groups)
    (remembered : groups.find number = some taken)
    (member : outcome ∈ run (.seq first (.again number)) groups text) :
    taken <:+ outcome.taken := by
  rw [run, mem_flatMap] at member
  obtain ⟨before, beforeMem, inside⟩ := member
  obtain ⟨later, laterMem, rfl⟩ := mem_map.mp inside
  obtain ⟨-, found, -⟩ := mem_run_iff.mp laterMem
  rw [keeps before beforeMem, remembered, Option.some.injEq] at found
  exact ⟨before.taken, by rw [found]; rfl⟩

end AgenticOS.Regex
