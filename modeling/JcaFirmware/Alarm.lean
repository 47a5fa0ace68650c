import Mathlib.Algebra.Group.Nat.Defs
import Mathlib.Logic.Basic
import Mathlib.Tactic.SplitIfs

/-! The alarm and its siren (`app/alarm.c`). Of `system_io_state` only the bit
`SYSTEM_IO_SIREN` is kept, and of its writers only this module. -/
namespace JcaFirmware.Alarm

inductive AlarmState
  | idle | active | timeout
deriving DecidableEq, Repr

inductive AlarmReaction
  | none | delay | instant | h24 | tamper
deriving DecidableEq, Repr

def sirenTime : Nat := 30 * 10
def alarmTime : Nat := 120 * 10
def alarmsMax : Nat := 3

structure Statics where
  state : AlarmState
  sirenState : Bool
  sirenTmr : Nat
  alarmTmr : Nat
  alarmCnt : Nat
  sirenIo : Bool
deriving DecidableEq, Repr

/-- The variables as the C runtime sets them. -/
def cold : Statics := ⟨.idle,false,0,0,0,false⟩

def sirenOn (a : Statics) : Statics :=
  if a.sirenState then a else {a with sirenTmr := sirenTime, sirenState := true, sirenIo := true}

def sirenOff (a : Statics) : Statics :=
  if a.sirenState = false then a else {a with sirenTmr := 0, sirenState := false, sirenIo := false}

def alarmInit (a : Statics) : Statics := sirenOff {a with state := .idle, alarmCnt := 0, alarmTmr := 0}

def sirenTick (a : Statics) : Statics :=
  if a.sirenTmr ≠ 0 then
    let a := {a with sirenTmr := a.sirenTmr - 1}
    if a.sirenTmr = 0 then sirenOff a else a
  else a

def alarmTick (a : Statics) : Statics :=
  let a := sirenTick a
  if a.alarmTmr ≠ 0 then
    let a := {a with alarmTmr := a.alarmTmr - 1}
    if a.alarmTmr = 0 then {a with state := .timeout} else a
  else a

def alarmTrigger (a : Statics) : Statics :=
  if a.state = .active then a
  else
    let a := {a with alarmCnt := (a.alarmCnt + 1) % 2 ^ 16}
    if alarmsMax < a.alarmCnt then a
    else sirenOn {a with state := .active, alarmTmr := alarmTime}

def alarmStop (a : Statics) : Statics := {sirenOff a with alarmTmr := 0, alarmCnt := 0, state := .idle}

def Off (a : Statics) : Prop := a.state = .idle ∧ a.sirenState = false ∧ a.sirenIo = false

instance (a : Statics) : Decidable (Off a) := inferInstanceAs (Decidable (_ ∧ _ ∧ _))

/-- The output follows the siren, and an idle alarm has neither time nor count left. -/
structure Consistent (a : Statics) : Prop where
  output : a.sirenIo = a.sirenState
  idle : a.state = .idle → a.alarmTmr = 0 ∧ a.alarmCnt = 0

theorem cold_consistent : Consistent cold := ⟨rfl,fun _ => ⟨rfl,rfl⟩⟩

theorem sirenOff_output {a : Statics} (output : a.sirenIo = a.sirenState) :
    (sirenOff a).sirenIo = false ∧ (sirenOff a).sirenState = false := by
  unfold sirenOff
  split
  · rename_i silent
    exact ⟨output.trans silent,silent⟩
  · exact ⟨rfl,rfl⟩

theorem sirenOff_alarm (a : Statics) : (sirenOff a).state = a.state ∧ (sirenOff a).alarmTmr = a.alarmTmr ∧
    (sirenOff a).alarmCnt = a.alarmCnt := by
  unfold sirenOff
  split <;> exact ⟨rfl,rfl,rfl⟩

theorem Consistent.sirenOff {a : Statics} (consistent : Consistent a) : Consistent (sirenOff a) := by
  obtain ⟨output,silent⟩ := sirenOff_output consistent.output
  obtain ⟨state,tmr,cnt⟩ := sirenOff_alarm a
  refine ⟨output.trans silent.symm,?_⟩
  rw [state,tmr,cnt]
  exact consistent.idle

theorem Consistent.init {a : Statics} (consistent : Consistent a) : Consistent (alarmInit a) :=
  Consistent.sirenOff ⟨consistent.output,fun _ => ⟨rfl,rfl⟩⟩

theorem sirenTick_alarm (a : Statics) : (sirenTick a).state = a.state ∧ (sirenTick a).alarmTmr = a.alarmTmr ∧
    (sirenTick a).alarmCnt = a.alarmCnt := by
  unfold sirenTick
  dsimp only
  split_ifs
  · exact sirenOff_alarm _
  · exact ⟨rfl,rfl,rfl⟩
  · exact ⟨rfl,rfl,rfl⟩

theorem sirenTick_output {a : Statics} (output : a.sirenIo = a.sirenState) :
    (sirenTick a).sirenIo = (sirenTick a).sirenState := by
  unfold sirenTick
  dsimp only
  split_ifs
  · obtain ⟨low,silent⟩ := sirenOff_output (a := {a with sirenTmr := a.sirenTmr - 1}) output
    exact low.trans silent.symm
  · exact output
  · exact output

theorem Consistent.sirenTick {a : Statics} (consistent : Consistent a) : Consistent (sirenTick a) := by
  obtain ⟨state,tmr,cnt⟩ := sirenTick_alarm a
  refine ⟨sirenTick_output consistent.output,?_⟩
  rw [state,tmr,cnt]
  exact consistent.idle

theorem Consistent.tick {a : Statics} (consistent : Consistent a) : Consistent (alarmTick a) := by
  have ticked := consistent.sirenTick
  unfold alarmTick
  dsimp only
  split_ifs with running last
  · exact ⟨ticked.output,fun idle => absurd idle (by simp)⟩
  · exact ⟨ticked.output,fun idle => absurd (ticked.idle idle).1 running⟩
  · exact ticked

theorem Consistent.trigger {a : Statics} (consistent : Consistent a) : Consistent (alarmTrigger a) := by
  unfold alarmTrigger
  dsimp only
  split_ifs with active many
  · exact consistent
  · refine ⟨consistent.output,fun idle => ?_⟩
    -- from idle the count is 1
    rw [show a.alarmCnt = 0 from (consistent.idle idle).2] at many
    exact absurd many (by decide)
  · unfold sirenOn
    split
    · exact ⟨consistent.output,fun idle => absurd idle (by simp)⟩
    · exact ⟨rfl,fun idle => absurd idle (by simp)⟩

theorem Consistent.stop {a : Statics} (consistent : Consistent a) : Consistent (alarmStop a) :=
  ⟨consistent.sirenOff.output,fun _ => ⟨rfl,rfl⟩⟩

theorem Consistent.stop_off {a : Statics} (consistent : Consistent a) : Off (alarmStop a) := by
  obtain ⟨output,silent⟩ := sirenOff_output consistent.output
  exact ⟨rfl,silent,output⟩

theorem Off.sirenTick {a : Statics} (off : Off a) : Off (sirenTick a) := by
  unfold Alarm.sirenTick
  dsimp only
  split_ifs
  · rw [sirenOff,if_pos off.2.1]
    exact off
  · exact off
  · exact off

theorem Off.tick {a : Statics} (off : Off a) (consistent : Consistent a) : Off (alarmTick a) := by
  have still : ¬ (Alarm.sirenTick a).alarmTmr ≠ 0 := by
    rw [(sirenTick_alarm a).2.1]
    exact not_not.mpr (consistent.idle off.1).1
  rw [alarmTick,if_neg still]
  exact off.sirenTick

theorem Off.trigger {a : Statics} (off : Off a) (consistent : Consistent a) : (alarmTrigger a).state = .active := by
  have cnt := (consistent.idle off.1).2
  have inactive : a.state ≠ .active := by
    rw [off.1]
    decide
  rw [alarmTrigger,if_neg inactive,cnt]
  unfold sirenOn
  simp [alarmsMax,off.2.1]

end JcaFirmware.Alarm
