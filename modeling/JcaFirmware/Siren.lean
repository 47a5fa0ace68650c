import JcaFirmware.Alarm
import JcaFirmware.Foundation.Run

/-! The siren bit, which the alarm (`app/alarm.c`) and the beeps (`_siren_beep` in `app/app.c`) both write:
a beep raises the bit in one step of its task and lowers it in a later one. -/
namespace JcaFirmware.Siren
open Foundation Alarm

structure State where
  alarm : Alarm.Statics
  beeps : Nat
deriving DecidableEq, Repr

inductive Input | trigger | tick | stop | raise | lower
deriving DecidableEq, Repr

def step (s : State) : Input → State
  | .trigger => {s with alarm := alarmTrigger s.alarm}
  | .tick => {s with alarm := alarmTick s.alarm}
  | .stop => {s with alarm := alarmStop s.alarm}
  | .raise => ⟨{s.alarm with sirenIo := true},s.beeps + 1⟩
  | .lower => if s.beeps = 0 then s else ⟨{s.alarm with sirenIo := false},s.beeps - 1⟩

def start : State := ⟨alarmInit Alarm.cold,0⟩

/-- The bit is set while the siren is on, and clear while it is off and nothing beeps. -/
def Heard (s : State) : Prop :=
  (s.alarm.sirenState = true → s.alarm.sirenIo = true) ∧
    (s.alarm.sirenState = false → s.beeps = 0 → s.alarm.sirenIo = false)

instance (s : State) : Decidable (Heard s) := inferInstanceAs (Decidable (_ ∧ _))

/-- No beep ends while the siren is on. -/
def StepOk (s : State) : Input → Prop
  | .lower => s.beeps ≠ 0 → s.alarm.sirenState = false
  | _ => True

variable {a : Alarm.Statics} {beeps : Nat}

theorem Heard.sirenOn (heard : Heard ⟨a,beeps⟩) : Heard ⟨sirenOn a,beeps⟩ := by
  unfold Alarm.sirenOn
  split
  · exact heard
  · exact ⟨fun _ => rfl,fun silent => Bool.noConfusion silent⟩

theorem Heard.sirenOff (heard : Heard ⟨a,beeps⟩) : Heard ⟨sirenOff a,beeps⟩ := by
  unfold Alarm.sirenOff
  split
  · exact heard
  · exact ⟨fun on => absurd on Bool.false_ne_true,fun _ _ => rfl⟩

theorem Heard.sirenTick (heard : Heard ⟨a,beeps⟩) : Heard ⟨sirenTick a,beeps⟩ := by
  unfold Alarm.sirenTick
  dsimp only
  split_ifs
  · exact Heard.sirenOff heard
  · exact heard
  · exact heard

theorem Heard.tick (heard : Heard ⟨a,beeps⟩) : Heard ⟨alarmTick a,beeps⟩ := by
  have ticked := heard.sirenTick
  unfold alarmTick
  dsimp only
  split_ifs <;> exact ticked

theorem Heard.trigger (heard : Heard ⟨a,beeps⟩) : Heard ⟨alarmTrigger a,beeps⟩ := by
  unfold alarmTrigger
  dsimp only
  split_ifs
  · exact heard
  · exact heard
  · exact Heard.sirenOn heard

theorem Heard.stop (heard : Heard ⟨a,beeps⟩) : Heard ⟨alarmStop a,beeps⟩ := heard.sirenOff

theorem Heard.step {s : State} (heard : Heard s) (input : Input) (ok : StepOk s input) : Heard (step s input) := by
  cases input with
  | trigger => exact heard.trigger
  | tick => exact heard.tick
  | stop => exact heard.stop
  | raise => exact ⟨fun _ => rfl,fun _ none => absurd none (Nat.succ_ne_zero s.beeps)⟩
  | lower =>
    unfold Siren.step
    dsimp only
    split_ifs with none
    · exact heard
    · refine ⟨fun on => ?_,fun _ _ => rfl⟩
      exact absurd (ok none) (by rw [show s.alarm.sirenState = true from on]; decide)

/-- The bit follows the siren all along a run exactly when no beep ends while the siren is on. -/
theorem heard_iff (inputs : List Input) :
    (∀ first rest, inputs = first ++ rest → Heard (Run.run step start first)) ↔ Run.Admits step StepOk start inputs := by
  apply Run.always_iff_admits step StepOk Heard Heard (fun _ heard => heard) (fun _ input heard ok => heard.step input ok)
  · intro s input heard refused lowered
    cases input with
    | lower =>
      simp only [StepOk,Classical.not_imp,Bool.not_eq_false] at refused
      obtain ⟨some,on⟩ := refused
      rw [step,if_neg some] at lowered
      exact absurd (lowered.1 on) Bool.false_ne_true
    | trigger | tick | stop | raise => exact refused trivial
  · decide

/-- The beep of an unset, during which the alarm is triggered again. -/
theorem beep_silences : ¬ Heard (Run.run step start [.raise,.trigger,.lower]) := by decide

end JcaFirmware.Siren
