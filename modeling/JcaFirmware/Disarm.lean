import JcaFirmware.System

/-! Where the alarms of the section come from: the section and its inputs as in `System`, with the steps
numbered, so that an alarm is kept with the step that activated its input and the last call of
`system_unset` before it. -/
namespace JcaFirmware.Disarm
open Foundation Section Alarm

structure Raised where
  inp : Inp
  reaction : AlarmReaction
  state : SectionState
  origin : Nat
  unsetAt : Nat
deriving DecidableEq, Repr

/-- `origin` is kept for the signals that are postponed, `delayOrigin` for the entry delay. -/
structure State where
  sect : Section.Statics
  inputs : Inp → SystemInput
  count : Nat
  unsetAt : Nat
  origin : Inp → Nat
  delayOrigin : Nat
  alarms : List Raised

inductive Input
  | activated (n : Inp) (now : Nat)
  | deactivated (n : Inp)
  | systemTick (now : Nat)
  | task (now : Nat)
  | set (source : EventSource) (now : Nat)
  | unset (source : EventSource) (now : Nat)
deriving DecidableEq, Repr

section Steps

def raise (s : State) (requests : List Request) (n : Inp) (origin : Nat) : State :=
  {s with alarms := s.alarms ++ (requests.filter fun request => request.1 = .alarm).map fun _ =>
    ⟨n,(s.inputs n).reaction,s.sect.state,origin,s.unsetAt⟩}

def startsDelay (s : Section.Statics) (signal : AlarmReaction) : Bool :=
  signal = .delay && sectionAlarmEnabled s .delay && s.timer = 0

def systemInpSignal (s : State) (n : Inp) (signal : AlarmReaction) (origin now : Nat) : State :=
  let (sect,requests) := sectionSignal s.sect n signal now
  {raise s requests n origin with
    sect := sect
    delayOrigin := if startsDelay s.sect signal then origin else s.delayOrigin}

def systemInpActivated (s : State) (n : Inp) (now : Nat) : State :=
  if sectionAlarmEnabled s.sect (s.inputs n).reaction then
    let (signals,inp) := systemInputAlarm (s.inputs n)
    let origin := if (s.inputs n).tmr = 0 then Function.update s.origin n s.count else s.origin
    let s := {s with inputs := Function.update s.inputs n inp, origin}
    if signals then systemInpSignal s n inp.reaction s.count now else s
  else s

def systemInputTickAt (now : Nat) (s : State) (n : Inp) : State :=
  let inp := s.inputs n
  if inp.tmr ≠ 0 then
    let inp := {inp with tmr := inp.tmr - 1}
    let s := {s with inputs := Function.update s.inputs n inp}
    if inp.tmr = 0 then systemInpSignal s n inp.reaction (s.origin n) now else s
  else s

def systemInputTick (s : State) (now : Nat) : State := Inp.all.foldl (systemInputTickAt now) s

def systemSet (s : State) (source : EventSource) (now : Nat) : State :=
  let (done,sect,_) := sectionSet s.sect source now
  {s with sect, inputs := if done then systemInputReset s.inputs else s.inputs}

def systemUnset (s : State) (source : EventSource) (now : Nat) : State :=
  let (done,sect,_) := sectionUnset s.sect source now
  {s with sect, inputs := if done then systemInputReset s.inputs else s.inputs, unsetAt := s.count}

def systemTask (s : State) (now : Nat) : Except String State :=
  match sectionTask s.sect now with
  | .error message => .error message
  | .ok (sect,requests) => .ok {(s.sect.alarmInp.elim s fun n => raise s requests n s.delayOrigin) with sect := sect}

def next (s : State) : State := {s with count := s.count + 1}

/-- The steps are numbered from 1 on. -/
def step (s : State) : Input → Except String State
  | .activated n now => .ok (systemInpActivated (next s) n now)
  | .deactivated _ => .ok (next s)
  | .systemTick now => .ok (systemInputTick (next s) now)
  | .task now => systemTask (next s) now
  | .set source now => .ok (systemSet (next s) source now)
  | .unset source now => .ok (systemUnset (next s) source now)

def settings (reaction : Inp → AlarmReaction) (postpone : Inp → Nat) : Inp → SystemInput :=
  fun n => ⟨reaction n,postpone n,0,0⟩

/-- After `system_init` with the state that was stored. -/
def start (cfg : Option (Option Int)) (inputs : Inp → SystemInput) : State where
  sect := (System.start (fun _ => Event.erased) 0 cfg inputs).sect
  inputs := inputs
  count := 0
  unsetAt := 0
  origin := fun _ => 0
  delayOrigin := 0
  alarms := []

end Steps

section Origins

def Armed (s : Section.Statics) : Prop := s.state = .set ∨ s.state = .setPart

/-- Raised in a section that is set or by a 24-hour input, and else activated after the last unset. -/
def Raised.Sound (alarm : Raised) : Prop :=
  (alarm.state = .set ∨ alarm.state = .setPart ∨ alarm.reaction = .h24) ∧
    (alarm.reaction ≠ .h24 → alarm.unsetAt < alarm.origin)

/-- An entry delay runs, and a signal waits, only in a section that is set, and since the last unset. -/
structure Inv (s : State) : Prop where
  sound : ∀ alarm ∈ s.alarms, alarm.Sound
  past : s.unsetAt ≤ s.count
  delay : s.sect.flags.tmIn → Armed s.sect ∧ s.sect.alarmInp ≠ none ∧ s.unsetAt < s.delayOrigin
  waits : ∀ n, (s.inputs n).tmr ≠ 0 → (s.inputs n).reaction ≠ .h24 → Armed s.sect ∧ s.unsetAt < s.origin n

theorem delays_or_not (s : Section.Statics) (n : Inp) (now : Nat) :
    (s.timer = 0 ∧ delayAlarm s n now =
        {setTimer {s with alarmInp := some n} now s.tmIn with flags := {s.flags with tmIn := true}}) ∨
      (s.timer ≠ 0 ∧ delayAlarm s n now = s) := by
  unfold delayAlarm
  split_ifs with still
  · exact Or.inl ⟨still,rfl⟩
  · exact Or.inr ⟨still,rfl⟩

theorem signal_cases (s : Section.Statics) (n : Inp) (signal : AlarmReaction) (now : Nat) :
    (startsDelay s signal = true ∧ Armed s ∧ sectionSignal s n signal now =
        ({setTimer {s with alarmInp := some n} now s.tmIn with flags := {s.flags with tmIn := true}},[])) ∨
      (startsDelay s signal = false ∧ (Armed s ∨ signal = .h24) ∧ sectionSignal s n signal now = instantAlarm s n) ∨
      (startsDelay s signal = false ∧ sectionSignal s n signal now = (s,[])) := by
  obtain ⟨timer,state,flags,alarmInp,tmOut,tmIn⟩ := s
  have other (not : signal ≠ .delay) : startsDelay ⟨timer,state,flags,alarmInp,tmOut,tmIn⟩ signal = false := by
    simp [startsDelay,not]
  cases state with
  | set =>
    cases signal with
    | delay =>
      rcases delays_or_not ⟨timer,.set,flags,alarmInp,tmOut,tmIn⟩ n now with ⟨still,delays⟩ | ⟨runs,delays⟩
      · exact Or.inl ⟨decide_eq_true still,Or.inl rfl,congrArg (·,[]) delays⟩
      · exact Or.inr (Or.inr ⟨decide_eq_false runs,congrArg (·,[]) delays⟩)
    | instant | h24 => exact Or.inr (Or.inl ⟨other (by simp),Or.inl (Or.inl rfl),rfl⟩)
    | none | tamper => exact Or.inr (Or.inr ⟨other (by simp),rfl⟩)
  | setPart =>
    cases signal with
    | delay =>
      rcases delays_or_not ⟨timer,.setPart,flags,alarmInp,tmOut,tmIn⟩ n now with ⟨still,delays⟩ | ⟨runs,delays⟩
      · exact Or.inl ⟨decide_eq_true still,Or.inr rfl,congrArg (·,[]) delays⟩
      · exact Or.inr (Or.inr ⟨decide_eq_false runs,congrArg (·,[]) delays⟩)
    | instant | h24 => exact Or.inr (Or.inl ⟨other (by simp),Or.inl (Or.inr rfl),rfl⟩)
    | none | tamper => exact Or.inr (Or.inr ⟨other (by simp),rfl⟩)
  | unset =>
    cases signal with
    | h24 => exact Or.inr (Or.inl ⟨other (by simp),Or.inr rfl,rfl⟩)
    | none | delay | instant | tamper => exact Or.inr (Or.inr ⟨rfl,rfl⟩)
  | unknown | service | other => exact Or.inr (Or.inr ⟨by simp [startsDelay,sectionAlarmEnabled],rfl⟩)

theorem Raised.mem_raise {s : State} {requests : List Request} {n : Inp} {origin : Nat} {alarm : Raised}
    (member : alarm ∈ (raise s requests n origin).alarms) :
    alarm ∈ s.alarms ∨ alarm = ⟨n,(s.inputs n).reaction,s.sect.state,origin,s.unsetAt⟩ := by
  rcases List.mem_append.mp member with old | new
  · exact Or.inl old
  · obtain ⟨_,_,same⟩ := List.mem_map.mp new
    exact Or.inr same.symm

variable {s : State}

/-- A signal keeps the invariant, unless its input was activated before the last unset. -/
theorem Inv.signal (inv : Inv s) (n : Inp) {signal : AlarmReaction} {origin : Nat} (now : Nat)
    (own : (s.inputs n).reaction = signal) (late : signal ≠ .h24 → s.unsetAt < origin) :
    Inv (systemInpSignal s n signal origin now) := by
  unfold systemInpSignal
  rcases signal_cases s.sect n signal now with ⟨starts,armed,same⟩ | ⟨starts,fires,same⟩ | ⟨starts,same⟩
  · have delayed : signal = .delay := by
      unfold startsDelay at starts
      simp only [Bool.and_eq_true,decide_eq_true_eq] at starts
      exact starts.1.1
    rw [same,starts]
    refine ⟨fun alarm member => inv.sound alarm (by simpa [raise] using member),inv.past,fun _ => ?_,inv.waits⟩
    exact ⟨armed,Option.some_ne_none n,late (by simp [delayed])⟩
  · rw [same,starts]
    refine ⟨fun alarm member => ?_,inv.past,inv.delay,inv.waits⟩
    rcases Raised.mem_raise member with old | new
    · exact inv.sound alarm old
    · rw [new]
      refine ⟨?_,fun other => late (own ▸ other)⟩
      rcases fires with (set | part) | day
      · exact Or.inl set
      · exact Or.inr (Or.inl part)
      · exact Or.inr (Or.inr (own.trans day))
  · rw [same,starts]
    exact ⟨fun alarm member => inv.sound alarm (by simpa [raise] using member),inv.past,inv.delay,inv.waits⟩

theorem systemInputAlarm_reaction (inp : SystemInput) : (systemInputAlarm inp).2.reaction = inp.reaction := by
  unfold systemInputAlarm
  dsimp only
  split_ifs <;> rfl

theorem enabled_armed {s : Section.Statics} {signal : AlarmReaction} (enabled : sectionAlarmEnabled s signal = true)
    (other : signal ≠ .h24) : Armed s := by
  unfold sectionAlarmEnabled at enabled
  split at enabled
  · exact absurd (of_decide_eq_true enabled) other
  · rename_i part
    exact Or.inr part
  · rename_i set
    exact Or.inl set
  · cases enabled

theorem Inv.activated (inv : Inv s) (recent : s.unsetAt < s.count) (n : Inp) (now : Nat) :
    Inv (systemInpActivated s n now) := by
  unfold systemInpActivated
  by_cases enabled : sectionAlarmEnabled s.sect (s.inputs n).reaction = true
  · rw [if_pos enabled]
    dsimp only
    have reaction := systemInputAlarm_reaction (s.inputs n)
    have counted : Inv {s with
        inputs := Function.update s.inputs n (systemInputAlarm (s.inputs n)).2
        origin := if (s.inputs n).tmr = 0 then Function.update s.origin n s.count else s.origin} := by
      refine ⟨inv.sound,inv.past,inv.delay,fun m waits other => ?_⟩
      by_cases this : m = n
      · subst this
        simp only [Function.update_self] at waits other
        rw [reaction] at other
        refine ⟨enabled_armed enabled other,?_⟩
        dsimp only
        split_ifs with free
        · rw [Function.update_self]
          exact recent
        · exact (inv.waits m free other).2
      · simp only [Function.update_of_ne this] at waits other
        refine ⟨(inv.waits m waits other).1,?_⟩
        dsimp only
        split_ifs
        · rw [Function.update_of_ne this]
          exact (inv.waits m waits other).2
        · exact (inv.waits m waits other).2
    split_ifs at counted ⊢
    all_goals
      first
        | exact counted
        | exact counted.signal n now (by simp) fun _ => recent
  · rw [if_neg enabled]
    exact inv

theorem Inv.tickAt (inv : Inv s) (now : Nat) (n : Inp) : Inv (systemInputTickAt now s n) := by
  unfold systemInputTickAt
  dsimp only
  by_cases waits : (s.inputs n).tmr ≠ 0
  · rw [if_pos waits]
    have counted : Inv {s with
        inputs := Function.update s.inputs n {s.inputs n with tmr := (s.inputs n).tmr - 1}} := by
      refine ⟨inv.sound,inv.past,inv.delay,fun m waits' other => ?_⟩
      by_cases this : m = n
      · subst this
        simp only [Function.update_self] at other
        exact inv.waits m waits other
      · simp only [Function.update_of_ne this] at waits' other
        exact inv.waits m waits' other
    split_ifs
    · exact counted.signal n now (by simp) fun other => (inv.waits n waits other).2
    · exact counted
  · rw [if_neg waits]
    exact inv

theorem Inv.tick (inv : Inv s) (now : Nat) (ns : List Inp) : Inv (ns.foldl (systemInputTickAt now) s) := by
  induction ns generalizing s with
  | nil => exact inv
  | cons n rest ih => exact ih (inv.tickAt now n)

theorem Inv.set (inv : Inv s) (source : EventSource) (now : Nat) : Inv (systemSet s source now) := by
  unfold systemSet
  rw [set_eq]
  by_cases state : s.sect.state = .set
  · rw [if_pos state]
    exact ⟨inv.sound,inv.past,inv.delay,inv.waits⟩
  · rw [if_neg state]
    refine ⟨inv.sound,inv.past,fun delay => ?_,fun _ waits => absurd rfl waits⟩
    exact ⟨Or.inl rfl,(inv.delay delay).2⟩

-- An unset that changes nothing finds neither a delay nor a signal that it should have ended.
theorem Inv.unset (inv : Inv s) (source : EventSource) (now : Nat) : Inv (systemUnset s source now) := by
  unfold systemUnset
  rw [unset_eq]
  by_cases state : s.sect.state = .unset
  · have idle : ¬ Armed s.sect := by simp [Armed,state]
    rw [if_pos state]
    exact ⟨inv.sound,Nat.le_refl _,fun delay => absurd (inv.delay delay).1 idle,
      fun n waits other => absurd (inv.waits n waits other).1 idle⟩
  · rw [if_neg state]
    exact ⟨inv.sound,Nat.le_refl _,fun delay => absurd delay Bool.false_ne_true,fun _ waits => absurd rfl waits⟩

theorem task_cases (s : Section.Statics) (now : Nat) :
    (∃ timer tmOut, sectionTask s now = .ok ({s with timer, flags := {s.flags with tmOut}},[])) ∨
      (s.flags.tmIn = true ∧ s.alarmInp = none ∧ sectionTask s now = .error "alarm_inp") ∨
      (s.flags.tmIn = true ∧ ∃ n tmOut, s.alarmInp = some n ∧
        sectionTask s now = .ok ({s with timer := 0, flags := ⟨tmOut,false,true⟩},[(.alarm,systemInputSource n)])) := by
  unfold sectionTask
  dsimp only
  split_ifs with runs late out delay delay
  · cases inp : s.alarmInp with
    | none => exact Or.inr (Or.inl ⟨delay,rfl,rfl⟩)
    | some n => exact Or.inr (Or.inr ⟨delay,n,false,rfl,rfl⟩)
  · exact Or.inl ⟨0,false,rfl⟩
  · cases inp : s.alarmInp with
    | none => exact Or.inr (Or.inl ⟨delay,rfl,rfl⟩)
    | some n => exact Or.inr (Or.inr ⟨delay,n,s.flags.tmOut,rfl,rfl⟩)
  · exact Or.inl ⟨0,s.flags.tmOut,rfl⟩
  · exact Or.inl ⟨s.timer,s.flags.tmOut,rfl⟩
  · exact Or.inl ⟨s.timer,s.flags.tmOut,rfl⟩

theorem Inv.task (inv : Inv s) (now : Nat) : ∃ s', systemTask s now = .ok s' ∧ Inv s' := by
  unfold systemTask
  rcases task_cases s.sect now with ⟨timer,tmOut,same⟩ | ⟨delay,missing,_⟩ | ⟨delay,n,tmOut,inp,same⟩
  · rw [same]
    refine ⟨_,rfl,?_⟩
    have silent : (s.sect.alarmInp.elim s fun n => raise s [] n s.delayOrigin) = s := by
      cases s.sect.alarmInp with
      | none => rfl
      | some n => simp [raise]
    rw [silent]
    exact ⟨inv.sound,inv.past,inv.delay,inv.waits⟩
  · exact absurd missing (inv.delay delay).2.1
  · rw [same,inp]
    obtain ⟨armed,_,late⟩ := inv.delay delay
    refine ⟨_,rfl,⟨fun alarm member => ?_,inv.past,fun delay => absurd delay Bool.false_ne_true,inv.waits⟩⟩
    rcases Raised.mem_raise member with old | new
    · exact inv.sound alarm old
    · rw [new]
      exact ⟨armed.imp_right Or.inl,fun _ => late⟩

theorem Inv.next (inv : Inv s) : Inv (next s) ∧ (next s).unsetAt < (next s).count :=
  ⟨⟨inv.sound,Nat.le_succ_of_le inv.past,inv.delay,inv.waits⟩,Nat.lt_succ_of_le inv.past⟩

theorem Inv.step (inv : Inv s) (input : Input) : ∃ s', step s input = .ok s' ∧ Inv s' := by
  obtain ⟨later,recent⟩ := inv.next
  cases input with
  | activated n now => exact ⟨_,rfl,later.activated recent n now⟩
  | deactivated n => exact ⟨_,rfl,later⟩
  | systemTick now => exact ⟨_,rfl,later.tick now Inp.all⟩
  | task now => exact later.task now
  | set source now => exact ⟨_,rfl,later.set source now⟩
  | unset source now => exact ⟨_,rfl,later.unset source now⟩

theorem start_inv (cfg : Option (Option Int)) (reaction : Inp → AlarmReaction) (postpone : Inp → Nat) :
    Inv (start cfg (settings reaction postpone)) := by
  refine ⟨fun _ member => absurd member List.not_mem_nil,Nat.le_refl 0,fun delay => ?_,fun _ waits => absurd rfl waits⟩
  cases cfg <;> exact absurd delay Bool.false_ne_true

/-- In every run the assertion holds, and every alarm is raised while the section is set or by a 24-hour input, and,
unless by such an input, for an activation after the last unset. -/
theorem alarms_sound (cfg : Option (Option Int)) (reaction : Inp → AlarmReaction) (postpone : Inp → Nat)
    (inputs : List Input) :
    ∃ final, inputs.foldlM step (start cfg (settings reaction postpone)) = .ok final ∧
      ∀ alarm ∈ final.alarms, alarm.Sound := by
  obtain ⟨final,finished,inv⟩ := Run.foldlM_invariant step Inv (fun _ => True) (fun s input inv _ => inv.step input)
    (start cfg (settings reaction postpone)) inputs (start_inv cfg reaction postpone) fun _ _ => trivial
  exact ⟨final,finished,inv.sound⟩

example : ((([.set .key 5,.activated .door 9] : List Input) ++ List.replicate 10 (Input.systemTick 9)).foldlM step
    (start (some (some 1)) systemInputInit)).toOption.map State.alarms = some [⟨.door,.instant,.set,2,0⟩] := by
  decide +kernel

end Origins

section Refinement

def Input.toSystem (rtc : Rtc) : Input → Option System.Input
  | .activated n now => some (.activated n ⟨now,rtc⟩)
  | .deactivated _ => none
  | .systemTick now => some (.systemTick ⟨now,rtc⟩)
  | .task now => some (.task ⟨now,rtc⟩)
  | .set source now => some (.set source ⟨now,rtc⟩)
  | .unset source now => some (.unset source ⟨now,rtc⟩)

def Follows (m : System.State) (s : State) : Prop := m.sect = s.sect ∧ m.inputs = s.inputs

variable {m : System.State} {s : State}

theorem Follows.signal (follows : Follows m s) (n : Inp) (signal : AlarmReaction) (origin : Nat) (clock : System.Clock) :
    Follows (System.systemInpSignal m n signal clock) (systemInpSignal s n signal origin clock.timer) :=
  ⟨congrArg (fun sect => (sectionSignal sect n signal clock.timer).1) follows.1,follows.2⟩

theorem Follows.activated (follows : Follows m s) (n : Inp) (clock : System.Clock) :
    Follows (System.systemInpActivated m n clock) (systemInpActivated s n clock.timer) := by
  obtain ⟨queue,task,sect,inputs,alarm,fault⟩ := m
  obtain ⟨rfl,rfl⟩ := follows
  unfold System.systemInpActivated systemInpActivated
  dsimp only
  by_cases enabled : sectionAlarmEnabled s.sect (s.inputs n).reaction = true
  · rw [if_pos enabled,if_pos enabled]
    cases (systemInputAlarm (s.inputs n)).1 with
    | true => exact ⟨rfl,rfl⟩
    | false => exact ⟨rfl,rfl⟩
  · rw [if_neg enabled,if_neg enabled]
    exact ⟨rfl,rfl⟩

theorem Follows.tickAt (follows : Follows m s) (clock : System.Clock) (n : Inp) :
    Follows (System.systemInputTickAt clock m n) (systemInputTickAt clock.timer s n) := by
  obtain ⟨queue,task,sect,inputs,alarm,fault⟩ := m
  obtain ⟨rfl,rfl⟩ := follows
  unfold System.systemInputTickAt systemInputTickAt
  dsimp only
  split_ifs <;> exact ⟨rfl,rfl⟩

theorem Follows.tick (follows : Follows m s) (clock : System.Clock) (ns : List Inp) :
    Follows (ns.foldl (System.systemInputTickAt clock) m) (ns.foldl (systemInputTickAt clock.timer) s) := by
  induction ns generalizing m s with
  | nil => exact follows
  | cons n rest ih => exact ih (follows.tickAt clock n)

theorem Follows.systemTick (follows : Follows m s) (clock : System.Clock) :
    Follows (System.systemInputTick m clock) (systemInputTick s clock.timer) := by
  unfold System.systemInputTick systemInputTick
  exact follows.tick clock Inp.all

theorem Follows.set (follows : Follows m s) (source : EventSource) (clock : System.Clock) :
    Follows (System.systemSet m source clock) (systemSet s source clock.timer) := by
  obtain ⟨queue,task,sect,inputs,alarm,fault⟩ := m
  obtain ⟨rfl,rfl⟩ := follows
  unfold System.systemSet systemSet
  dsimp only
  split_ifs <;> exact ⟨rfl,rfl⟩

theorem Follows.unset (follows : Follows m s) (source : EventSource) (clock : System.Clock) :
    Follows (System.systemUnset m source clock) (systemUnset s source clock.timer) := by
  obtain ⟨queue,task,sect,inputs,alarm,fault⟩ := m
  obtain ⟨rfl,rfl⟩ := follows
  unfold System.systemUnset systemUnset
  dsimp only
  split_ifs <;> exact ⟨rfl,rfl⟩

theorem raised_follows (follows : Follows m s) (requests : List Request) (found : Option Inp) :
    Follows m (found.elim s fun n => raise s requests n s.delayOrigin) := by
  cases found with
  | none => exact follows
  | some n => exact follows

theorem Follows.task (follows : Follows m s) (clock : System.Clock) {s' : State}
    (done : systemTask s clock.timer = .ok s') : Follows (System.systemTask m clock) s' := by
  unfold System.systemTask
  unfold systemTask at done
  rw [follows.1]
  cases same : sectionTask s.sect clock.timer with
  | error message =>
    rw [same] at done
    cases done
  | ok result =>
    rw [same] at done
    rw [← Except.ok.inj done]
    exact ⟨rfl,(raised_follows follows result.2 s.sect.alarmInp).2⟩

/-- The section and its inputs go the way they do in `System`. -/
theorem step_follows (follows : Follows m s) (rtc : Rtc) (input : Input) {s' : State} (done : step s input = .ok s') :
    Follows ((input.toSystem rtc).elim m (System.step m)) s' := by
  have later : Follows m (next s) := follows
  cases input with
  | activated n now =>
    rw [← Except.ok.inj done]
    exact later.activated n ⟨now,rtc⟩
  | deactivated n =>
    rw [← Except.ok.inj done]
    exact later
  | systemTick now =>
    have same : systemInputTick (next s) now = s' := Except.ok.inj done
    rw [← same,Input.toSystem,Option.elim_some,System.step]
    exact later.systemTick ⟨now,rtc⟩
  | task now => exact later.task ⟨now,rtc⟩ done
  | set source now =>
    rw [← Except.ok.inj done]
    exact later.set source ⟨now,rtc⟩
  | unset source now =>
    rw [← Except.ok.inj done]
    exact later.unset source ⟨now,rtc⟩

end Refinement

end JcaFirmware.Disarm
