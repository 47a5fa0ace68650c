import JcaFirmware.Alarm
import JcaFirmware.Event
import Mathlib.Logic.Function.Basic

/-! The section (`app/section.c`) and the state of its inputs
(`app/system_input.c`). Events are requested as a list, in the order of the
calls of `event_create`; `now` is what `os_timer_get` answers. -/
namespace JcaFirmware.Section
open Alarm

def osTimerSecond : Nat := 1000

inductive Inp
  | key | lock | unlock | door | inp1 | inp2 | inp3 | shock
deriving DecidableEq, Repr

def Inp.all : List Inp := [.key,.lock,.unlock,.door,.inp1,.inp2,.inp3,.shock]

/-- `system_input_t`; its `nr` is the index in the table. -/
structure SystemInput where
  reaction : AlarmReaction
  postpone : Nat
  tmr : Nat
  cnt : Nat
deriving DecidableEq, Repr

def tickSecond : Nat := 10
def alarmMaxCnt : Nat := 3

def systemInputReset (inputs : Inp → SystemInput) : Inp → SystemInput :=
  fun n => {inputs n with tmr := 0, cnt := 0}

def systemInputInit : Inp → SystemInput
  | .inp1 | .inp2 | .inp3 => ⟨.delay,1 * tickSecond,0,0⟩
  | _ => ⟨.instant,1 * tickSecond,0,0⟩

def systemInputSource : Inp → EventSource
  | .key => .key
  | .lock => .lock
  | .unlock => .lock
  | .door => .door
  | .inp1 => .input1
  | .inp2 => .input2
  | .inp3 => .input3
  | .shock => .shock

def systemInputAlarm (inp : SystemInput) : Bool × SystemInput :=
  if alarmMaxCnt ≤ inp.cnt then (false,inp)
  else
    let inp := {inp with cnt := inp.cnt + 1}
    if inp.postpone ≠ 0 then (false,if inp.tmr = 0 then {inp with tmr := inp.postpone} else inp)
    else (true,inp)

inductive SectionState
  | unknown | unset | setPart | set | service
  | other (value : Int)
deriving DecidableEq, Repr

def SectionState.ofInt : Int → SectionState
  | 0 => .unknown
  | 1 => .unset
  | 2 => .setPart
  | 3 => .set
  | 4 => .service
  | value => .other value

structure Flags where
  tmOut : Bool
  tmIn : Bool
  alarm : Bool
deriving DecidableEq, Repr

/-- `section_t`. -/
structure Statics where
  timer : Nat
  state : SectionState
  flags : Flags
  alarmInp : Option Inp
  tmOut : Nat
  tmIn : Nat
deriving DecidableEq, Repr

def cold : Statics := ⟨0,.unknown,⟨false,false,false⟩,none,0,0⟩

/-- A call of `event_create`. -/
abbrev Request := EventId × EventSource

def setTimer (s : Statics) (now tm : Nat) : Statics := {s with timer := (now + tm) % 2 ^ 32}

def setState (s : Statics) (st : SectionState) (source : EventSource) (now : Nat) :
    Bool × Statics × List Request :=
  if st = s.state then (false,s,[])
  else match st with
    | .unset =>
      (true,{s with flags := {s.flags with tmIn := false, alarm := false}, timer := 0, state := st},[(.unset,source)])
    | .set =>
      let s := setTimer s now s.tmOut
      (true,{s with flags := {s.flags with tmOut := true, alarm := false}, state := st},[(.set,source)])
    | _ => (false,s,[])

def instantAlarm (s : Statics) (n : Inp) : Statics × List Request :=
  ({s with flags := {s.flags with alarm := true}},[(.alarm,systemInputSource n)])

def delayAlarm (s : Statics) (n : Inp) (now : Nat) : Statics :=
  if s.timer = 0 then
    let s := setTimer {s with alarmInp := some n} now s.tmIn
    {s with flags := {s.flags with tmIn := true}}
  else s

def sectionInit (s : Statics) : Statics :=
  {s with timer := 0, flags := ⟨false,false,false⟩, alarmInp := none, state := .unknown}

def sectionAlarmEnabled (s : Statics) (signal : AlarmReaction) : Bool :=
  match s.state with
  | .unset => signal = .h24
  | .setPart | .set => signal ≠ .none
  | _ => false

def sectionSignal (s : Statics) (n : Inp) (signal : AlarmReaction) (now : Nat) : Statics × List Request :=
  match s.state with
  | .setPart | .set =>
    match signal with
    | .delay => (delayAlarm s n now,[])
    | .instant | .h24 => instantAlarm s n
    | _ => (s,[])
  | .unset =>
    match signal with
    | .h24 => instantAlarm s n
    | _ => (s,[])
  | _ => (s,[])

def sectionSet (s : Statics) (source : EventSource) (now : Nat) : Bool × Statics × List Request :=
  setState s .set source now

def sectionUnset (s : Statics) (source : EventSource) (now : Nat) : Bool × Statics × List Request :=
  setState s .unset source now

def sectionTask (s : Statics) (now : Nat) : Except String (Statics × List Request) :=
  if s.timer ≠ 0 then
    if s.timer < now then
      let s := {s with timer := 0}
      let s := if s.flags.tmOut then {s with flags := {s.flags with tmOut := false}} else s
      if s.flags.tmIn then
        match s.alarmInp with
        | none => .error "alarm_inp"
        | some n =>
          let (s,requests) := instantAlarm s n
          .ok ({s with flags := {s.flags with tmIn := false}},requests)
      else .ok (s,[])
    else .ok (s,[])
  else .ok (s,[])

def Rests (s : Statics) : Prop := s.state = .unset → s.timer = 0

theorem unset_eq (s : Statics) (source : EventSource) (now : Nat) :
    sectionUnset s source now = if s.state = .unset then (false,s,[])
      else (true,{s with flags := {s.flags with tmIn := false, alarm := false}, timer := 0, state := .unset},
        [(.unset,source)]) := by
  simp [sectionUnset,setState,eq_comm]

theorem set_eq (s : Statics) (source : EventSource) (now : Nat) :
    sectionSet s source now = if s.state = .set then (false,s,[])
      else (true,{setTimer s now s.tmOut with flags := {s.flags with tmOut := true, alarm := false}, state := .set},
        [(.set,source)]) := by
  simp [sectionSet,setState,setTimer,eq_comm]

theorem set_rests {s : Statics} (rests : Rests s) (source : EventSource) (now : Nat) :
    Rests (sectionSet s source now).2.1 := by
  unfold sectionSet setState
  split
  · exact rests
  · exact fun unset => absurd unset (by simp)

theorem unset_rests {s : Statics} (rests : Rests s) (source : EventSource) (now : Nat) :
    Rests (sectionUnset s source now).2.1 := by
  rw [unset_eq]
  split
  · exact rests
  · exact fun _ => rfl

/-- Only a 24-hour signal passes an unset section. -/
theorem signal_ignored {s : Statics} (unset : s.state = .unset) {signal : AlarmReaction} (other : signal ≠ .h24)
    (n : Inp) (now : Nat) : sectionSignal s n signal now = (s,[]) := by
  unfold sectionSignal
  rw [unset]
  cases signal with
  | h24 => exact absurd rfl other
  | none | delay | instant | tamper => rfl

theorem delayAlarm_state (s : Statics) (n : Inp) (now : Nat) : (delayAlarm s n now).state = s.state := by
  unfold delayAlarm
  split <;> rfl

theorem signal_state (s : Statics) (n : Inp) (signal : AlarmReaction) (now : Nat) :
    (sectionSignal s n signal now).1.state = s.state := by
  unfold sectionSignal
  split
  case h_1 | h_2 =>
    split
    · exact delayAlarm_state s n now
    all_goals rfl
  case h_3 => split <;> rfl
  case h_4 => rfl

theorem signal_rests {s : Statics} (rests : Rests s) (n : Inp) (signal : AlarmReaction) (now : Nat) :
    Rests (sectionSignal s n signal now).1 := by
  intro unset
  rw [signal_state] at unset
  cases signal with
  | h24 =>
    unfold sectionSignal
    rw [unset]
    exact rests unset
  | none | delay | instant | tamper =>
    rw [signal_ignored unset (by simp)]
    exact rests unset

theorem task_still {s : Statics} (still : s.timer = 0) (now : Nat) : sectionTask s now = .ok (s,[]) := by
  rw [sectionTask,if_neg (not_not.mpr still)]

theorem task_state {s s' : Statics} {requests : List Request} {now : Nat}
    (done : sectionTask s now = .ok (s',requests)) : s'.state = s.state := by
  have same {c : Statics} {rs : List Request} (ok : (.ok (c,rs) : Except String _) = .ok (s',requests))
      (kept : c.state = s.state) : s'.state = s.state := by
    cases ok
    exact kept
  unfold sectionTask at done
  dsimp only at done
  split_ifs at done
  case pos | pos =>
    cases inp : s.alarmInp with
    | none => simp [inp] at done
    | some n =>
      simp only [inp] at done
      exact same done rfl
  all_goals exact same done rfl

theorem task_rests {s s' : Statics} {requests : List Request} {now : Nat} (rests : Rests s)
    (done : sectionTask s now = .ok (s',requests)) : Rests s' := by
  intro unset
  have still := rests ((task_state done).symm.trans unset)
  rw [task_still still now] at done
  rw [← (Prod.mk.inj (Except.ok.inj done)).1]
  exact still

end JcaFirmware.Section
