import AgenticOS.Transition.Logged

/-!
# What programs come to

`Ends` says of one start state how a program ends and in which state: it is the weakest
precondition of a program that may raise, whose changes up to there stay. Its equations
follow the ways in which programs are put together, so a program made of known pieces is
run through by rewriting.

`Keeps` is the judgement for invariants: whatever a program does and however it ends, the
invariant survives.
-/

namespace AgenticOS.Transition

universe u

variable {ε σ α β : Type u}

/-- From this state the program ends with a result and in a state of the given kind. -/
def Ends (property : Except ε α → σ → Prop) (program : EStateM ε σ α) (state : σ) : Prop :=
  property (ending (program state)) (finalState (program state))

/-- What is left to show behind the first of two programs. -/
def andThen (property : Except ε α → σ → Prop) (next : β → EStateM ε σ α) :
    Except ε β → σ → Prop
  | .ok value, after => Ends property (next value) after
  | .error raised, after => property (.error raised) after

/-- What is left to show behind a program with a handler. -/
def orHandled (property : Except ε α → σ → Prop) (handler : ε → EStateM ε σ α) :
    Except ε α → σ → Prop
  | .ok value, after => property (.ok value) after
  | .error raised, after => Ends property (handler raised) after

section

variable {property other : Except ε α → σ → Prop} {program : EStateM ε σ α} {state : σ}

theorem Ends.mono (ends : Ends property program state)
    (implies : ∀ result after, property result after → other result after) :
    Ends other program state :=
  implies _ _ ends

theorem Ends.and (ends : Ends property program state) (endsOther : Ends other program state) :
    Ends (fun result after => property result after ∧ other result after) program state :=
  ⟨ends, endsOther⟩

@[simp]
theorem andThen_ok (next : β → EStateM ε σ α) (value : β) (after : σ) :
    andThen property next (.ok value) after ↔ Ends property (next value) after :=
  .rfl

@[simp]
theorem andThen_error (next : β → EStateM ε σ α) (raised : ε) (after : σ) :
    andThen property next (.error raised) after ↔ property (.error raised) after :=
  .rfl

variable (handler : ε → EStateM ε σ α)

@[simp]
theorem orHandled_ok (value : α) (after : σ) :
    orHandled property handler (.ok value) after ↔ property (.ok value) after :=
  .rfl

@[simp]
theorem orHandled_error (raised : ε) (after : σ) :
    orHandled property handler (.error raised) after ↔ Ends property (handler raised) after :=
  .rfl

@[simp]
theorem ends_pure (value : α) :
    Ends property (pure value : EStateM ε σ α) state ↔ property (.ok value) state :=
  .rfl

@[simp]
theorem ends_throw (raised : ε) :
    Ends property (throw raised : EStateM ε σ α) state ↔ property (.error raised) state :=
  .rfl

@[simp]
theorem ends_get {property : Except ε σ → σ → Prop} :
    Ends property (get : EStateM ε σ σ) state ↔ property (.ok state) state :=
  .rfl

@[simp]
theorem ends_modify {property : Except ε PUnit → σ → Prop} (change : σ → σ) :
    Ends property (modify change : EStateM ε σ PUnit) state ↔
      property (.ok PUnit.unit) (change state) :=
  .rfl

@[simp]
theorem ends_modifyGet (change : σ → α × σ) :
    Ends property (modifyGet change : EStateM ε σ α) state ↔
      property (.ok (change state).1) (change state).2 :=
  .rfl

@[simp]
theorem ends_bind (first : EStateM ε σ β) (next : β → EStateM ε σ α) :
    Ends property (first >>= next) state ↔ Ends (andThen property next) first state := by
  change property (ending (EStateM.bind first next state))
    (finalState (EStateM.bind first next state)) ↔ _
  cases ran : first state with
  | ok | error => simp only [EStateM.bind, Ends, ran, ending, finalState, andThen]

@[simp]
theorem ends_map (change : β → α) (first : EStateM ε σ β) : Ends property (change <$> first) state ↔
      Ends (andThen property fun value => pure (change value)) first state := by
  exact ends_bind _ _

@[simp]
theorem ends_discard {property : Except ε PUnit → σ → Prop} (first : EStateM ε σ β) :
    Ends property (discard first) state ↔
      Ends (andThen property fun _ => pure PUnit.unit) first state :=
  ends_map (fun _ => PUnit.unit) first

@[simp]
theorem ends_tryCatch : Ends property (tryCatch program handler) state ↔
      Ends (orHandled property handler) program state := by
  change property (ending (EStateM.tryCatch program handler state))
    (finalState (EStateM.tryCatch program handler state)) ↔ _
  cases ran : program state with
  | ok value after => simp only [EStateM.tryCatch, Ends, ran, ending, finalState, orHandled]
  | error raised after =>
    simp only [EStateM.tryCatch, Ends, ran, ending, finalState, orHandled]
    exact .rfl

theorem ends_ite {condition : Prop} [Decidable condition] (positive negative : EStateM ε σ α) :
    Ends property (if condition then positive else negative) state ↔
      if condition then Ends property positive state else Ends property negative state := by
  by_cases holds : condition
  · rw [if_pos holds, if_pos holds]
  · rw [if_neg holds, if_neg holds]

theorem Ends.ite {condition : Prop} [Decidable condition] {positive negative : EStateM ε σ α}
    (ofTrue : condition → Ends property positive state)
    (ofFalse : ¬ condition → Ends property negative state) :
    Ends property (if condition then positive else negative) state := by
  by_cases holds : condition
  · rw [if_pos holds]
    exact ofTrue holds
  · rw [if_neg holds]
    exact ofFalse holds

end

/-- The invariant survives the program, however it ends. -/
def Keeps (inv : σ → Prop) (program : EStateM ε σ α) : Prop :=
  ∀ state, inv state → inv (finalState (program state))

namespace Keeps

variable {inv : σ → Prop} {program : EStateM ε σ α}

theorem ends (keeps : Keeps inv program) {state : σ} (holds : inv state) :
    Ends (fun _ after => inv after) program state :=
  keeps state holds

theorem of_ends (ends : ∀ state, inv state → Ends (fun _ after => inv after) program state) :
    Keeps inv program :=
  ends

theorem pure (value : α) : Keeps inv (Pure.pure value : EStateM ε σ α) :=
  fun _ holds => holds

theorem throw (raised : ε) : Keeps inv (throw raised : EStateM ε σ α) :=
  fun _ holds => holds

theorem get : Keeps inv (get : EStateM ε σ σ) :=
  fun _ holds => holds

theorem modify {change : σ → σ} (preserved : ∀ state, inv state → inv (change state)) :
    Keeps inv (modify change : EStateM ε σ PUnit) :=
  preserved

theorem modifyGet {change : σ → α × σ} (preserved : ∀ state, inv state → inv (change state).2) :
    Keeps inv (modifyGet change : EStateM ε σ α) :=
  preserved

theorem bind {first : EStateM ε σ β} {next : β → EStateM ε σ α} (keepsFirst : Keeps inv first)
    (keepsNext : ∀ value, Keeps inv (next value)) : Keeps inv (first >>= next) := by
  apply of_ends
  intro state holds
  rw [ends_bind]
  apply Ends.mono (keepsFirst.ends holds)
  intro result after holdsAfter
  cases result with
  | ok value => exact (keepsNext value).ends holdsAfter
  | error raised => exact holdsAfter

theorem discard {first : EStateM ε σ β} (keepsFirst : Keeps inv first) :
    Keeps inv (discard first) := by
  apply of_ends
  intro state holds
  rw [ends_discard]
  apply Ends.mono (keepsFirst.ends holds)
  intro result after holdsAfter
  cases result <;> exact holdsAfter

theorem tryCatch {handler : ε → EStateM ε σ α} (keepsProgram : Keeps inv program)
    (keepsHandler : ∀ raised, Keeps inv (handler raised)) :
    Keeps inv (tryCatch program handler) := by
  apply of_ends
  intro state holds
  rw [ends_tryCatch]
  apply Ends.mono (keepsProgram.ends holds)
  intro result after holdsAfter
  cases result with
  | ok value => exact holdsAfter
  | error raised => exact (keepsHandler raised).ends holdsAfter

theorem ite {condition : Prop} [Decidable condition] {positive negative : EStateM ε σ α}
    (ofTrue : Keeps inv positive) (ofFalse : Keeps inv negative) :
    Keeps inv (if condition then positive else negative) := by
  by_cases holds : condition
  · rw [if_pos holds]
    exact ofTrue
  · rw [if_neg holds]
    exact ofFalse

end Keeps

end AgenticOS.Transition
