import Mathlib.Data.List.Basic

/-! Finite runs of deterministic step functions. Inputs carry everything the
environment decides, so a statement about all input lists is one about all
interleavings. `Admits` restricts the inputs by the state each one meets. -/
namespace JcaFirmware.Foundation.Run

variable {State Input Error : Type}

def run (step : State → Input → State) (initial : State) (inputs : List Input) : State :=
  inputs.foldl step initial

/-- Every input of the run meets the condition in the state it is applied to. -/
def Admits (step : State → Input → State) (allowed : State → Input → Prop) :
    State → List Input → Prop
  | _, [] => True
  | state, input :: rest => allowed state input ∧ Admits step allowed (step state input) rest

instance (step : State → Input → State) (allowed : State → Input → Prop) [∀ state input, Decidable (allowed state input)] :
    (state : State) → (inputs : List Input) → Decidable (Admits step allowed state inputs)
  | _, [] => isTrue trivial
  | state, input :: rest =>
    have : Decidable (Admits step allowed (step state input) rest) := instDecidableAdmits step allowed _ rest
    inferInstanceAs (Decidable (allowed state input ∧ _))

theorem run_cons (step : State → Input → State) (initial : State) (input : Input) (rest : List Input) :
    run step initial (input :: rest) = run step (step initial input) rest := rfl

theorem run_append (step : State → Input → State) (initial : State) (first second : List Input) :
    run step initial (first ++ second) = run step (run step initial first) second :=
  List.foldl_append

theorem admits_append (step : State → Input → State) (allowed : State → Input → Prop)
    (initial : State) (first second : List Input) :
    Admits step allowed initial (first ++ second) ↔
      Admits step allowed initial first ∧ Admits step allowed (run step initial first) second := by
  induction first generalizing initial with
  | nil => simp [Admits,run]
  | cons input rest ih => simp only [List.cons_append,Admits,run_cons,ih,and_assoc]

/-- One-step preservation under the admitted inputs carries over to whole runs. -/
theorem run_invariant (step : State → Input → State) (allowed : State → Input → Prop)
    (invariant : State → Prop)
    (preserved : ∀ state input, invariant state → allowed state input → invariant (step state input))
    (initial : State) (inputs : List Input) (start : invariant initial)
    (admitted : Admits step allowed initial inputs) : invariant (run step initial inputs) := by
  induction inputs generalizing initial with
  | nil => exact start
  | cons input rest ih => exact ih (step initial input) (preserved initial input start admitted.1) admitted.2

/-- A run admits its inputs if each one is allowed in the state behind those before it. -/
theorem admits_iff (step : State → Input → State) (allowed : State → Input → Prop) (initial : State) (inputs : List Input) :
    Admits step allowed initial inputs ↔
      ∀ before input rest, inputs = before ++ input :: rest → allowed (run step initial before) input := by
  constructor
  · rintro admitted before input rest rfl
    exact ((admits_append step allowed initial before (input :: rest)).mp admitted).2.1
  · intro each
    induction inputs generalizing initial with
    | nil => trivial
    | cons input rest ih =>
      refine ⟨each [] input rest rfl,ih (step initial input) fun before other after split => ?_⟩
      exact each (input :: before) other after (by rw [split,List.cons_append])

theorem admits_of_forall (step : State → Input → State) (allowed : State → Input → Prop)
    (initial : State) (inputs : List Input) (always : ∀ state, ∀ input ∈ inputs, allowed state input) :
    Admits step allowed initial inputs := by
  induction inputs generalizing initial with
  | nil => trivial
  | cons input rest ih =>
    exact ⟨always initial input (by simp),ih _ fun state other member => always state other (by simp [member])⟩

/-- Where every refused input breaks the property at once, it holds all along a
run exactly when the run admits all its inputs. -/
theorem always_iff_admits (step : State → Input → State) (allowed : State → Input → Prop)
    (invariant property : State → Prop) (implies : ∀ state, invariant state → property state)
    (preserved : ∀ state input, invariant state → allowed state input → invariant (step state input))
    (broken : ∀ state input, invariant state → ¬ allowed state input → ¬ property (step state input))
    (initial : State) (inputs : List Input) (start : invariant initial) :
    (∀ first rest, inputs = first ++ rest → property (run step initial first)) ↔
      Admits step allowed initial inputs := by
  constructor
  · intro always
    induction inputs generalizing initial with
    | nil => trivial
    | cons input rest ih =>
      have admitted : allowed initial input := by
        by_contra refused
        exact broken initial input start refused (always [input] rest rfl)
      refine ⟨admitted,ih (step initial input) (preserved initial input start admitted) ?_⟩
      intro first last split
      exact always (input :: first) last (by rw [split,List.cons_append])
  · intro admitted first rest split
    subst split
    apply implies
    exact run_invariant step allowed invariant preserved initial first start
      ((admits_append step allowed initial first rest).mp admitted).1

/-- A partial step that succeeds from the invariant and restores it runs through
every input list. -/
theorem foldlM_invariant (step : State → Input → Except Error State) (invariant : State → Prop)
    (allowed : Input → Prop)
    (preserved : ∀ state input, invariant state → allowed input →
      ∃ next, step state input = .ok next ∧ invariant next)
    (initial : State) (inputs : List Input) (start : invariant initial)
    (admitted : ∀ input ∈ inputs, allowed input) :
    ∃ final, inputs.foldlM step initial = .ok final ∧ invariant final := by
  induction inputs generalizing initial with
  | nil => exact ⟨initial,rfl,start⟩
  | cons input rest ih =>
    obtain ⟨next,stepped,holds⟩ := preserved initial input start (admitted input (by simp))
    obtain ⟨final,finished,last⟩ := ih next holds fun other member => admitted other (by simp [member])
    refine ⟨final,?_,last⟩
    rw [List.foldlM_cons,stepped]
    exact finished

/-- A step that succeeds wherever the invariant holds, and keeps it, never stops a run. -/
theorem run_total (step : Except Error State → Input → Except Error State) (invariant : State → Prop)
    (preserved : ∀ state input, invariant state → ∃ next, step (.ok state) input = .ok next ∧ invariant next)
    (initial : State) (inputs : List Input) (start : invariant initial) :
    ∃ final, run step (.ok initial) inputs = .ok final ∧ invariant final := by
  induction inputs generalizing initial with
  | nil => exact ⟨initial,rfl,start⟩
  | cons input rest ih =>
    obtain ⟨next,stepped,holds⟩ := preserved initial input start
    rw [run_cons,stepped]
    exact ih next holds

/-- A property of the state, unless the run has stopped with the error. -/
def Unless (stop : Error) (property : State → Prop) : Except Error State → Prop
  | .ok state => property state
  | .error fault => fault = stop

theorem Unless.mono {stop : Error} {property weaker : State → Prop} (implies : ∀ state, property state → weaker state)
    {outcome : Except Error State} (holds : Unless stop property outcome) : Unless stop weaker outcome := by
  cases outcome with
  | ok state => exact implies state holds
  | error fault => exact holds

/-- What is seen of an outcome is seen of a state. -/
theorem observed {View : Type} {outcome : Except Error State} {look : State → View} {value : View}
    (seen : outcome.map look = .ok value) : ∃ state, outcome = .ok state ∧ look state = value := by
  cases outcome with
  | ok state => exact ⟨state,rfl,Except.ok.inj seen⟩
  | error fault => exact absurd seen nofun

end JcaFirmware.Foundation.Run
