import Mathlib.Data.List.Basic

/-!
# Programs that keep a log

A program over a state may raise, and what it has changed before it raises stays. Part of
the state is a log, to which the program only appends. `Logs` says how a program ends and
what it appends, from every state; the rules follow the ways in which programs are put
together.

A property of logs that the empty log has and that is kept by concatenation need only be
shown of the pieces: these are the rules under `Logs.uniform`.
-/

namespace AgenticOS.Transition

open List

universe u

variable {ε σ α β ω : Type u}

/-- The state behind a program. -/
def finalState : EStateM.Result ε σ α → σ
  | .ok _ state => state
  | .error _ state => state

def ending : EStateM.Result ε σ α → Except ε α
  | .ok value _ => .ok value
  | .error raised _ => .error raised

/-- From every state the program appends to the log, and what it appends and how it ends are
related by the given property. -/
def Logs (log : σ → List ω) (property : Except ε α → List ω → Prop)
    (program : EStateM ε σ α) : Prop :=
  ∀ state, ∃ events, log (finalState (program state)) = log state ++ events ∧
    property (ending (program state)) events

namespace Logs

variable {log : σ → List ω} {property other : Except ε α → List ω → Prop} {program : EStateM ε σ α}

theorem mono (logs : Logs log property program)
    (implies : ∀ result events, property result events → other result events) :
    Logs log other program := by
  intro state
  rcases logs state with ⟨events, appended, holds⟩
  exact ⟨events, appended, implies _ _ holds⟩

theorem pure {value : α} (holds : property (.ok value) []) :
    Logs log property (Pure.pure value) := by
  intro state
  exact ⟨[], (append_nil _).symm, holds⟩

theorem throw {raised : ε} (holds : property (.error raised) []) :
    Logs log property (throw raised) := by
  intro state
  exact ⟨[], (append_nil _).symm, holds⟩

theorem bind {first : EStateM ε σ β} {next : β → EStateM ε σ α}
    {earlier : Except ε β → List ω → Prop} {later : β → Except ε α → List ω → Prop}
    (logsFirst : Logs log earlier first) (logsNext : ∀ value, Logs log (later value) (next value))
    (raises : ∀ raised events, earlier (.error raised) events → property (.error raised) events)
    (continues : ∀ value result events rest, earlier (.ok value) events →
      later value result rest → property result (events ++ rest)) :
    Logs log property (first >>= next) := by
  intro state
  rcases logsFirst state with ⟨events, appended, holds⟩
  change ∃ events, log (finalState (EStateM.bind first next state)) = _ ∧
    property (ending (EStateM.bind first next state)) events
  cases ran : first state with
  | error raised after =>
    rw [ran] at appended holds
    simp only [EStateM.bind, ran]
    exact ⟨events, appended, raises raised events holds⟩
  | ok value after =>
    rw [ran] at appended holds
    rcases logsNext value after with ⟨rest, appendedRest, holdsRest⟩
    simp only [EStateM.bind, ran]
    refine ⟨events ++ rest, ?_, continues value _ events rest holds holdsRest⟩
    rw [appendedRest]
    change log (finalState (.ok value after : EStateM.Result ε σ β)) ++ rest = _
    rw [appended, append_assoc]

theorem tryCatch {handler : ε → EStateM ε σ α}
    {earlier : Except ε α → List ω → Prop} {later : ε → Except ε α → List ω → Prop}
    (logsProgram : Logs log earlier program)
    (logsHandler : ∀ raised, Logs log (later raised) (handler raised))
    (returns : ∀ value events, earlier (.ok value) events → property (.ok value) events)
    (handles : ∀ raised result events rest, earlier (.error raised) events →
      later raised result rest → property result (events ++ rest)) :
    Logs log property (tryCatch program handler) := by
  intro state
  rcases logsProgram state with ⟨events, appended, holds⟩
  change ∃ events, log (finalState (EStateM.tryCatch program handler state)) = _ ∧
    property (ending (EStateM.tryCatch program handler state)) events
  cases ran : program state with
  | ok value after =>
    rw [ran] at appended holds
    simp only [EStateM.tryCatch, ran]
    exact ⟨events, appended, returns value events holds⟩
  | error raised after =>
    rw [ran] at appended holds
    rcases logsHandler raised after with ⟨rest, appendedRest, holdsRest⟩
    simp only [EStateM.tryCatch, ran]
    refine ⟨events ++ rest, ?_, handles raised _ events rest holds holdsRest⟩
    change log (finalState (handler raised after)) = _
    rw [appendedRest]
    change log (finalState (.error raised after : EStateM.Result ε σ α)) ++ rest = _
    rw [appended, append_assoc]

theorem orElse {handler : ε → EStateM ε σ α} (logsProgram : Logs log property program)
    (logsHandler : ∀ raised, Logs log property (handler raised))
    (silent : ∀ raised events, property (.error raised) events → events = []) :
    Logs log property (MonadExcept.tryCatch program handler) := by
  apply tryCatch logsProgram logsHandler
  · intro value events holds
    exact holds
  · intro raised result events rest holds holdsRest
    rw [silent raised events holds]
    exact holdsRest

theorem ite {condition : Prop} [Decidable condition] {positive negative : EStateM ε σ α}
    (ofTrue : condition → Logs log property positive)
    (ofFalse : ¬ condition → Logs log property negative) :
    Logs log property (if condition then positive else negative) := by
  by_cases holds : condition
  · rw [if_pos holds]
    exact ofTrue holds
  · rw [if_neg holds]
    exact ofFalse holds

end Logs

def Quiet (log : σ → List ω) (program : EStateM ε σ α) : Prop :=
  Logs log (fun _ events => events = []) program

def Emits (log : σ → List ω) (event : ω) (program : EStateM ε σ α) : Prop :=
  Logs log (fun result events => (∃ value, result = .ok value) ∧ events = [event]) program

/-- A property of the empty log that is kept by concatenation. -/
structure Composable (property : List ω → Prop) : Prop where
  nil : property []
  append : ∀ first second, property first → property second → property (first ++ second)

def LogsOnly (log : σ → List ω) (property : List ω → Prop) (program : EStateM ε σ α) : Prop :=
  Logs log (fun _ events => property events) program

namespace Quiet

variable {log : σ → List ω} {program : EStateM ε σ α}

theorem pure (value : α) : Quiet log (Pure.pure value : EStateM ε σ α) :=
  Logs.pure rfl

theorem throw (raised : ε) : Quiet log (throw raised : EStateM ε σ α) :=
  Logs.throw rfl

theorem get : Quiet log (get : EStateM ε σ σ) := by
  intro state
  exact ⟨[], (append_nil _).symm, rfl⟩

theorem modify {change : σ → σ} (unchanged : ∀ state, log (change state) = log state) :
    Quiet log (modify change : EStateM ε σ PUnit) := by
  intro state
  exact ⟨[], (unchanged state).trans (append_nil _).symm, rfl⟩

theorem modifyGet {change : σ → α × σ} (unchanged : ∀ state, log (change state).2 = log state) :
    Quiet log (modifyGet change : EStateM ε σ α) := by
  intro state
  exact ⟨[], (unchanged state).trans (append_nil _).symm, rfl⟩

theorem bind {first : EStateM ε σ β} {next : β → EStateM ε σ α} (quietFirst : Quiet log first)
    (quietNext : ∀ value, Quiet log (next value)) : Quiet log (first >>= next) := by
  apply Logs.bind quietFirst quietNext
  · intro raised events nothing
    exact nothing
  · rintro value result events rest rfl rfl
    rfl

theorem tryCatch {handler : ε → EStateM ε σ α} (quietProgram : Quiet log program)
    (quietHandler : ∀ raised, Quiet log (handler raised)) : Quiet log (tryCatch program handler) :=
  .orElse quietProgram quietHandler fun _ _ nothing => nothing

theorem ite {condition : Prop} [Decidable condition] {positive negative : EStateM ε σ α}
    (ofTrue : Quiet log positive) (ofFalse : Quiet log negative) :
    Quiet log (if condition then positive else negative) :=
  Logs.ite (fun _ => ofTrue) fun _ => ofFalse

theorem andThen {property : Except ε α → List ω → Prop} {first : EStateM ε σ β}
    {next : β → EStateM ε σ α} (quiet : Quiet log first)
    (raises : ∀ raised, property (.error raised) [])
    (logsNext : ∀ value, Logs log property (next value)) : Logs log property (first >>= next) := by
  apply Logs.bind quiet logsNext
  · rintro raised events rfl
    exact raises raised
  · rintro value result events rest rfl holds
    exact holds

end Quiet

namespace Emits

variable {log : σ → List ω} {event : ω}

/-- What follows is logged behind the event. -/
theorem andThen {property : Except ε α → List ω → Prop} {first : EStateM ε σ β}
    {next : β → EStateM ε σ α} (emits : Emits log event first)
    (logsNext : ∀ value, Logs log (fun result events => property result (event :: events))
      (next value)) : Logs log property (first >>= next) := by
  apply Logs.bind emits logsNext
  · rintro raised events ⟨⟨value, impossible⟩, -⟩
    cases impossible
  · rintro value result events rest ⟨-, rfl⟩ holds
    exact holds

end Emits

namespace LogsOnly

variable {log : σ → List ω} {property : List ω → Prop} {program : EStateM ε σ α}

section

variable (composable : Composable property)
include composable

theorem of_quiet (quiet : Quiet log program) : LogsOnly log property program := by
  apply Logs.mono quiet
  rintro _ events rfl
  exact composable.nil

theorem pure (value : α) : LogsOnly log property (Pure.pure value : EStateM ε σ α) :=
  of_quiet composable (.pure value)

theorem behind {first : EStateM ε σ β} {next : β → EStateM ε σ α} (quiet : Quiet log first)
    (logsNext : ∀ value, LogsOnly log property (next value)) :
    LogsOnly log property (first >>= next) :=
  Quiet.andThen quiet (fun _ => composable.nil) logsNext

theorem bind {first : EStateM ε σ β} {next : β → EStateM ε σ α}
    (logsFirst : LogsOnly log property first)
    (logsNext : ∀ value, LogsOnly log property (next value)) :
    LogsOnly log property (first >>= next) := by
  apply Logs.bind logsFirst logsNext
  · intro raised events holds
    exact holds
  · intro value result events rest holds holdsRest
    exact composable.append events rest holds holdsRest

theorem tryCatch {handler : ε → EStateM ε σ α} (logsProgram : LogsOnly log property program)
    (logsHandler : ∀ raised, LogsOnly log property (handler raised)) :
    LogsOnly log property (tryCatch program handler) := by
  apply Logs.tryCatch logsProgram logsHandler
  · intro value events holds
    exact holds
  · intro raised result events rest holds holdsRest
    exact composable.append events rest holds holdsRest

end

theorem ite {condition : Prop} [Decidable condition] {positive negative : EStateM ε σ α}
    (ofTrue : LogsOnly log property positive) (ofFalse : LogsOnly log property negative) :
    LogsOnly log property (if condition then positive else negative) :=
  Logs.ite (fun _ => ofTrue) fun _ => ofFalse

end LogsOnly

end AgenticOS.Transition
