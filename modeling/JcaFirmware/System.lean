import JcaFirmware.EventPending
import JcaFirmware.Section

/-! Setting and unsetting the system (`app/system.c`), with the section, its
inputs, the alarm and the event queue between them: the section only creates
`EVENT_ID_ALARM`, and `event_task` triggers the alarm when it comes to it. -/
namespace JcaFirmware.System
open Foundation Section Alarm EventQueue

def delayTmout : Nat := 20
def delayTmin : Nat := 10

/-- What `os_timer_get` and `rtc_get_time` answer. -/
structure Clock where
  timer : Nat
  rtc : Rtc

structure State where
  queue : Queue
  task : Task
  sect : Section.Statics
  inputs : Inp → SystemInput
  alarm : Alarm.Statics
  fault : Option String

def createAll (q : Queue) (requests : List Request) (now : Rtc) : Queue :=
  requests.foldl (fun q request => (eventCreateExt q request.1 request.2 none now).2) q

/-- `system_init`; `cfg` is the stored state: what `cfg_read` gives, then what `sscanf` finds. -/
def systemInit (s : State) (cfg : Option (Option Int)) : Bool × State :=
  let s := {s with inputs := systemInputInit}
  match cfg with
  | none => (false,s)
  | some state =>
    let sect := {s.sect with tmOut := delayTmout * osTimerSecond, tmIn := delayTmin * osTimerSecond}
    (true,{s with
      sect := {sectionInit sect with state := (state.elim .unset SectionState.ofInt)}
      alarm := alarmInit s.alarm})

def systemInpSignal (s : State) (n : Inp) (signal : AlarmReaction) (clock : Clock) : State :=
  let (sect,requests) := sectionSignal s.sect n signal clock.timer
  {s with sect := sect, queue := createAll s.queue requests clock.rtc}

def systemInpActivated (s : State) (n : Inp) (clock : Clock) : State :=
  if sectionAlarmEnabled s.sect (s.inputs n).reaction then
    let (signals,inp) := systemInputAlarm (s.inputs n)
    let s := {s with inputs := Function.update s.inputs n inp}
    if signals then systemInpSignal s n inp.reaction clock else s
  else s

/-- The body of the loop of `system_input_tick`. -/
def systemInputTickAt (clock : Clock) (s : State) (n : Inp) : State :=
  let inp := s.inputs n
  if inp.tmr ≠ 0 then
    let inp := {inp with tmr := inp.tmr - 1}
    let s := {s with inputs := Function.update s.inputs n inp}
    if inp.tmr = 0 then systemInpSignal s n inp.reaction clock else s
  else s

def systemInputTick (s : State) (clock : Clock) : State := Inp.all.foldl (systemInputTickAt clock) s

def systemSet (s : State) (source : EventSource) (clock : Clock) : State :=
  let (done,sect,requests) := sectionSet s.sect source clock.timer
  let s := {s with sect := sect, queue := createAll s.queue requests clock.rtc}
  if done then {s with inputs := systemInputReset s.inputs} else s

def systemUnset (s : State) (source : EventSource) (clock : Clock) : State :=
  let (done,sect,requests) := sectionUnset s.sect source clock.timer
  let s := {s with sect := sect, queue := createAll s.queue requests clock.rtc}
  if done then
    let s := if s.alarm.state = .active then
      {s with queue := createAll s.queue [(.alarmCancel,source)] clock.rtc} else s
    {s with alarm := alarmStop s.alarm, inputs := systemInputReset s.inputs}
  else s

/-- `system_event`; the other events only light a LED. -/
def systemEvent (e : UInt8) (a : Alarm.Statics) : Alarm.Statics :=
  if e = EventId.alarm.code then alarmTrigger a else a

def systemTask (s : State) (clock : Clock) : State :=
  match sectionTask s.sect clock.timer with
  | .ok (sect,requests) => {s with sect := sect, queue := createAll s.queue requests clock.rtc}
  | .error message => {s with fault := some message}

/-- One action of `event_task`. -/
def eventAction (s : State) : State :=
  let (queue,task,effect) := eventTask s.queue s.task
  let s := {s with queue := queue, task := task}
  match effect with
  | some (.react e) => {s with alarm := systemEvent e.id s.alarm}
  | _ => s

/-- An event of the modules other than the section, none of which creates an alarm. -/
abbrev OtherEvent := {id : EventId // id ≠ .alarm}

inductive Input
  | create (id : OtherEvent) (source : EventSource) (time : Option Rtc) (now : Rtc)
  | event
  | activated (n : Inp) (clock : Clock)
  | signal (n : Inp) (reaction : AlarmReaction) (clock : Clock)
  | systemTick (clock : Clock)
  | alarmTick
  | task (clock : Clock)
  | set (source : EventSource) (clock : Clock)
  | unset (source : EventSource) (clock : Clock)

def step (s : State) : Input → State
  | .create id source time now => {s with queue := (eventCreateExt s.queue id.val source time now).2}
  | .event => eventAction s
  | .activated n clock => systemInpActivated s n clock
  | .signal n reaction clock => systemInpSignal s n reaction clock
  | .systemTick clock => systemInputTick s clock
  | .alarmTick => {s with alarm := alarmTick s.alarm}
  | .task clock => systemTask s clock
  | .set source clock => systemSet s source clock
  | .unset source clock => systemUnset s source clock

/-- After `event_init`, with the variables of the other modules as the C runtime sets them. -/
def cold (buffer : Nat → Event) (cnt : Nat) : State :=
  ⟨(EventQueue.start buffer cnt).queue,.idle,Section.cold,fun _ => ⟨.none,0,0,0⟩,Alarm.cold,none⟩

/-- After `system_init`; `inputs` may set the inputs otherwise than `system_input_init` does. -/
def start (buffer : Nat → Event) (cnt : Nat) (cfg : Option (Option Int)) (inputs : Inp → SystemInput) : State :=
  {(systemInit (cold buffer cnt) cfg).2 with inputs := inputs}

/-- The input calls `section_signal` with the 24-hour reaction. -/
def Fires24 (s : State) : Input → Prop
  | .activated n _ => (s.inputs n).reaction = .h24 ∧ (systemInputAlarm (s.inputs n)).1 = true
  | .signal _ reaction _ => reaction = .h24
  | .systemTick _ => ∃ n, (s.inputs n).reaction = .h24 ∧ (s.inputs n).tmr = 1
  | _ => False

def Sets : Input → Prop
  | .set .. => True
  | _ => False

/-- No 24-hour input fires and the system is not set. -/
def Calm (s : State) (input : Input) : Prop := ¬ Fires24 s input ∧ ¬ Sets input

/-- An alarm event that `event_task` has still to react to. -/
def AlarmWaits (s : State) : Prop := ∃ e ∈ pending s.queue s.task, e.id = EventId.alarm.code

/-- The events of `system_unset` itself close the ring, and so lose those that wait. -/
def Overruns (s : State) : Prop :=
  s.sect.state ≠ .unset ∧ (Ring.next eventBufSize s.queue.wrPtr = s.task.tail s.queue ∨
    s.alarm.state = .active ∧
      Ring.next eventBufSize (Ring.next eventBufSize s.queue.wrPtr) = s.task.tail s.queue)

/-- No alarm is on in an unset section, and none waits unless it gets lost. -/
def Clear (s : State) : Prop := (s.sect.state = .unset → Off s.alarm) ∧ (AlarmWaits s → Overruns s)

structure Inv (s : State) : Prop where
  serves : Serves s.queue s.task
  rests : Rests s.sect
  alarm : Consistent s.alarm

/-- Unset, with nothing left that could raise the alarm. -/
structure Safe (s : State) : Prop extends Inv s where
  unset : s.sect.state = .unset
  off : Off s.alarm
  silent : ¬ AlarmWaits s

section CreateAll
variable {q : Queue} {t : Task} (serves : Serves q t) (requests : List Request) (now : Rtc)
include serves

theorem createAll_serves : Serves (createAll q requests now) t := by
  induction requests generalizing q with
  | nil => exact serves
  | cons request rest ih => exact ih (create_serves serves request.1 request.2 none now)

theorem createAll_silent (others : ∀ request ∈ requests, request.1 ≠ .alarm)
    (silent : ∀ e ∈ pending q t, e.id ≠ EventId.alarm.code) :
    ∀ e ∈ pending (createAll q requests now) t, e.id ≠ EventId.alarm.code := by
  induction requests generalizing q with
  | nil => exact silent
  | cons request rest ih =>
    refine ih (create_serves serves request.1 request.2 none now)
      (fun other member => others other (List.mem_cons_of_mem _ member)) ?_
    intro e member
    rcases create_pending serves request.1 request.2 none now e member with old | new
    · exact silent e old
    · rw [new]
      exact fun same => others request List.mem_cons_self (EventId.code_inj same)

end CreateAll

theorem start_inv (buffer : Nat → Event) (cnt : Nat) (cfg : Option (Option Int)) (inputs : Inp → SystemInput) :
    Inv (start buffer cnt cfg inputs) := by
  unfold start systemInit
  cases cfg with
  | none => exact ⟨start_serves buffer cnt,fun _ => rfl,cold_consistent⟩
  | some state => exact ⟨start_serves buffer cnt,fun _ => rfl,cold_consistent.init⟩

theorem Inv.inputs {s : State} (inv : Inv s) (inputs : Inp → SystemInput) : Inv {s with inputs := inputs} :=
  ⟨inv.serves,inv.rests,inv.alarm⟩

theorem systemInpSignal_inv {s : State} (inv : Inv s) (n : Inp) (signal : AlarmReaction) (clock : Clock) :
    Inv (systemInpSignal s n signal clock) :=
  ⟨createAll_serves inv.serves _ _,signal_rests inv.rests n signal clock.timer,inv.alarm⟩

theorem systemInputTickAt_inv {s : State} (inv : Inv s) (clock : Clock) (n : Inp) :
    Inv (systemInputTickAt clock s n) := by
  unfold systemInputTickAt
  dsimp only
  split_ifs
  · exact systemInpSignal_inv (inv.inputs _) n _ clock
  · exact inv.inputs _
  · exact inv

theorem ticked_inv {s : State} (inv : Inv s) (clock : Clock) (ns : List Inp) :
    Inv (ns.foldl (systemInputTickAt clock) s) := by
  induction ns generalizing s with
  | nil => exact inv
  | cons n rest ih => exact ih (systemInputTickAt_inv inv clock n)

theorem systemInpActivated_inv {s : State} (inv : Inv s) (n : Inp) (clock : Clock) :
    Inv (systemInpActivated s n clock) := by
  unfold systemInpActivated
  dsimp only
  split_ifs
  · exact systemInpSignal_inv (inv.inputs _) n _ clock
  · exact inv.inputs _
  · exact inv

theorem systemSet_inv {s : State} (inv : Inv s) (source : EventSource) (clock : Clock) :
    Inv (systemSet s source clock) := by
  have serves := createAll_serves inv.serves (sectionSet s.sect source clock.timer).2.2 clock.rtc
  have rests := set_rests inv.rests source clock.timer
  unfold systemSet
  dsimp only
  split_ifs <;> exact ⟨serves,rests,inv.alarm⟩

theorem systemTask_inv {s : State} (inv : Inv s) (clock : Clock) : Inv (systemTask s clock) := by
  unfold systemTask
  cases done : sectionTask s.sect clock.timer with
  | ok result => exact ⟨createAll_serves inv.serves _ _,task_rests inv.rests done,inv.alarm⟩
  | error message => exact ⟨inv.serves,inv.rests,inv.alarm⟩

theorem systemEvent_consistent {a : Alarm.Statics} (consistent : Consistent a) (e : UInt8) :
    Consistent (systemEvent e a) := by
  unfold systemEvent
  split
  · exact consistent.trigger
  · exact consistent

theorem eventAction_eq (s : State) : eventAction s = {s with
    queue := (eventTask s.queue s.task).1
    task := (eventTask s.queue s.task).2.1
    alarm := (Effect.reacted (eventTask s.queue s.task).2.2).foldl (fun a e => systemEvent e.id a) s.alarm} := by
  unfold eventAction
  dsimp only
  split
  · rename_i reacts
    rw [reacts]
    rfl
  · rename_i quiet
    have none : Effect.reacted (eventTask s.queue s.task).2.2 = [] := by
      unfold Effect.reacted
      split
      · rename_i e reacts
        exact absurd reacts (quiet e)
      · rfl
    rw [none]
    rfl

theorem eventAction_inv {s : State} (inv : Inv s) : Inv (eventAction s) := by
  rw [eventAction_eq]
  refine ⟨task_serves inv.serves,inv.rests,?_⟩
  dsimp only
  generalize Effect.reacted (eventTask s.queue s.task).2.2 = events
  have consistent := inv.alarm
  generalize s.alarm = a at consistent
  induction events generalizing a with
  | nil => exact consistent
  | cons e rest ih => exact ih _ (systemEvent_consistent consistent e.id)

def unsetEvents (s : State) (source : EventSource) : List Request :=
  (.unset,source) :: if s.alarm.state = .active then [(.alarmCancel,source)] else []

theorem systemUnset_eq (s : State) (source : EventSource) (clock : Clock) :
    systemUnset s source clock = if s.sect.state = .unset then s else {s with
      sect := (sectionUnset s.sect source clock.timer).2.1
      queue := createAll s.queue (unsetEvents s source) clock.rtc
      alarm := alarmStop s.alarm
      inputs := systemInputReset s.inputs} := by
  unfold systemUnset unsetEvents
  rw [unset_eq]
  by_cases unset : s.sect.state = .unset
  · rw [if_pos unset,if_pos unset]
    rfl
  · rw [if_neg unset,if_neg unset]
    by_cases active : s.alarm.state = .active
    · simp [active,createAll]
    · simp [active,createAll]

theorem systemUnset_inv {s : State} (inv : Inv s) (source : EventSource) (clock : Clock) :
    Inv (systemUnset s source clock) := by
  rw [systemUnset_eq]
  split
  · exact inv
  · exact ⟨createAll_serves inv.serves _ _,unset_rests inv.rests source clock.timer,inv.alarm.stop⟩

theorem step_inv (s : State) (input : Input) (inv : Inv s) : Inv (step s input) := by
  cases input with
  | create id source time now => exact ⟨create_serves inv.serves id.val source time now,inv.rests,inv.alarm⟩
  | event => exact eventAction_inv inv
  | activated n clock => exact systemInpActivated_inv inv n clock
  | signal n reaction clock => exact systemInpSignal_inv inv n reaction clock
  | systemTick clock => exact ticked_inv inv clock Inp.all
  | alarmTick => exact ⟨inv.serves,inv.rests,inv.alarm.tick⟩
  | task clock => exact systemTask_inv inv clock
  | set source clock => exact systemSet_inv inv source clock
  | unset source clock => exact systemUnset_inv inv source clock

theorem Safe.inputs {s : State} (safe : Safe s) (inputs : Inp → SystemInput) : Safe {s with inputs := inputs} :=
  ⟨safe.toInv.inputs inputs,safe.unset,safe.off,safe.silent⟩

theorem signal_calm {s : State} (unset : s.sect.state = .unset) {signal : AlarmReaction} (other : signal ≠ .h24)
    (n : Inp) (clock : Clock) : systemInpSignal s n signal clock = s := by
  rw [systemInpSignal,signal_ignored unset other]
  rfl

theorem activated_calm {s : State} (unset : s.sect.state = .unset) {n : Inp} {clock : Clock}
    (calm : ¬ Fires24 s (.activated n clock)) :
    ∃ inputs, systemInpActivated s n clock = {s with inputs := inputs} := by
  unfold systemInpActivated
  dsimp only
  split_ifs with enabled signals
  · have h24 : (s.inputs n).reaction = .h24 := by simpa [sectionAlarmEnabled,unset] using enabled
    exact absurd ⟨h24,signals⟩ calm
  · exact ⟨_,rfl⟩
  · exact ⟨_,rfl⟩

theorem tickAt_calm {s : State} (unset : s.sect.state = .unset) {n : Inp}
    (calm : ¬ ((s.inputs n).reaction = .h24 ∧ (s.inputs n).tmr = 1)) (clock : Clock) :
    ∃ inputs, systemInputTickAt clock s n = {s with inputs := inputs} ∧ ∀ m ≠ n, inputs m = s.inputs m := by
  unfold systemInputTickAt
  dsimp only
  split_ifs with running last
  · have other : (s.inputs n).reaction ≠ .h24 := fun h24 => calm ⟨h24,by omega⟩
    refine ⟨_,signal_calm (by exact unset) other n clock,?_⟩
    exact fun m apart => Function.update_of_ne apart _ _
  · exact ⟨_,rfl,fun m apart => Function.update_of_ne apart _ _⟩
  · exact ⟨_,rfl,fun _ _ => rfl⟩

theorem ticked_calm {s : State} (unset : s.sect.state = .unset) (clock : Clock) {ns : List Inp} (once : ns.Nodup)
    (calm : ∀ n ∈ ns, ¬ ((s.inputs n).reaction = .h24 ∧ (s.inputs n).tmr = 1)) :
    ∃ inputs, ns.foldl (systemInputTickAt clock) s = {s with inputs := inputs} := by
  induction ns generalizing s with
  | nil => exact ⟨_,rfl⟩
  | cons n rest ih =>
    obtain ⟨inputs,ticked,others⟩ := tickAt_calm unset (calm n List.mem_cons_self) clock
    rw [List.foldl_cons,ticked]
    refine ih (s := {s with inputs := inputs}) unset once.tail fun m member => ?_
    have apart : m ≠ n := fun same => (List.nodup_cons.mp once).1 (same ▸ member)
    rw [show ({s with inputs := inputs} : State).inputs m = s.inputs m from others m apart]
    exact calm m (List.mem_cons_of_mem _ member)

theorem eventAction_safe {s : State} (safe : Safe s) : Safe (eventAction s) := by
  have inv := eventAction_inv safe.toInv
  have waits := task_pending safe.serves
  rw [eventAction_eq] at inv ⊢
  have kept : (Effect.reacted (eventTask s.queue s.task).2.2).foldl (fun a e => systemEvent e.id a) s.alarm =
      s.alarm := by
    have others : ∀ e ∈ Effect.reacted (eventTask s.queue s.task).2.2, e.id ≠ EventId.alarm.code :=
      fun e member alarm => safe.silent ⟨e,by rw [waits]; exact List.mem_append_left _ member,alarm⟩
    generalize Effect.reacted (eventTask s.queue s.task).2.2 = events at others
    induction events with
    | nil => rfl
    | cons e rest ih =>
      rw [List.foldl_cons,systemEvent,if_neg (others e List.mem_cons_self)]
      exact ih fun other member => others other (List.mem_cons_of_mem _ member)
  refine ⟨inv,safe.unset,?_,?_⟩
  · rw [kept]
    exact safe.off
  · rintro ⟨e,member,alarm⟩
    exact safe.silent ⟨e,by rw [waits]; exact List.mem_append_right _ member,alarm⟩

theorem step_safe (s : State) (input : Input) (safe : Safe s) (calm : Calm s input) : Safe (step s input) := by
  have inv := step_inv s input safe.toInv
  cases input with
  | create id source time now =>
    refine ⟨inv,safe.unset,safe.off,?_⟩
    rintro ⟨e,member,alarm⟩
    rcases create_pending safe.serves id.val source time now e member with old | new
    · exact safe.silent ⟨e,old,alarm⟩
    · rw [new] at alarm
      exact id.property (EventId.code_inj alarm)
  | event => exact eventAction_safe safe
  | activated n clock =>
    obtain ⟨inputs,same⟩ := activated_calm safe.unset calm.1
    rw [step,same]
    exact safe.inputs inputs
  | signal n reaction clock =>
    rw [step,signal_calm safe.unset calm.1]
    exact safe
  | systemTick clock =>
    have nodup : Inp.all.Nodup := by decide
    obtain ⟨inputs,same⟩ := ticked_calm safe.unset clock nodup fun n _ fires => calm.1 ⟨n,fires⟩
    rw [step,systemInputTick,same]
    exact safe.inputs inputs
  | alarmTick => exact ⟨inv,safe.unset,safe.off.tick safe.alarm,safe.silent⟩
  | task clock =>
    rw [step,systemTask,task_still (safe.rests safe.unset)]
    exact safe
  | set source clock => exact absurd trivial calm.2
  | unset source clock =>
    rw [step,systemUnset_eq,if_pos safe.unset]
    exact safe

theorem unsetEvents_others (s : State) (source : EventSource) :
    ∀ request ∈ unsetEvents s source, request.1 ≠ .alarm := by
  unfold unsetEvents
  split <;> simp

theorem createAll_closed {q : Queue} {t : Task} (serves : Serves q t) (request : Request) (rest : List Request)
    (now : Rtc) (others : ∀ other ∈ request :: rest, other.1 ≠ .alarm)
    (closed : Ring.next eventBufSize q.wrPtr = t.tail q) :
    ∀ e ∈ pending (createAll q (request :: rest) now) t, e.id ≠ EventId.alarm.code := by
  refine createAll_silent (create_serves serves request.1 request.2 none now) rest now
    (fun other member => others other (List.mem_cons_of_mem _ member)) ?_
  intro e member
  rw [create_closes serves request.1 request.2 none now closed e member]
  exact fun alarm => others request List.mem_cons_self (EventId.code_inj alarm)

theorem overrun_silent {s : State} (inv : Inv s) (overruns : Overruns s) (source : EventSource) (now : Rtc) :
    ∀ e ∈ pending (createAll s.queue (unsetEvents s source) now) s.task, e.id ≠ EventId.alarm.code := by
  have others := unsetEvents_others s source
  rcases overruns.2 with first | ⟨active,second⟩
  · exact createAll_closed inv.serves _ _ now others first
  · unfold unsetEvents at others ⊢
    rw [if_pos active] at others ⊢
    refine createAll_closed (create_serves inv.serves .unset source none now) (.alarmCancel,source) [] now
      (fun other member => others other (List.mem_cons_of_mem _ member)) ?_
    rw [created_tail,eventCreateExt_accepts]
    exact second

theorem systemUnset_safe {s : State} (inv : Inv s) (clear : Clear s) (source : EventSource) (clock : Clock) :
    Safe (systemUnset s source clock) := by
  have after := systemUnset_inv inv source clock
  rw [systemUnset_eq] at after ⊢
  by_cases unset : s.sect.state = .unset
  · rw [if_pos unset] at after ⊢
    exact ⟨inv,unset,clear.1 unset,fun waits => (clear.2 waits).1 unset⟩
  · rw [if_neg unset] at after ⊢
    refine ⟨after,?_,inv.alarm.stop_off,?_⟩
    · change (sectionUnset s.sect source clock.timer).2.1.state = .unset
      rw [unset_eq,if_neg unset]
    · rintro ⟨e,member,alarm⟩
      by_cases waits : AlarmWaits s
      · exact overrun_silent inv (clear.2 waits) source clock.rtc e member alarm
      · refine createAll_silent inv.serves (unsetEvents s source) clock.rtc (unsetEvents_others s source) ?_ e
          member alarm
        exact fun e member alarm => waits ⟨e,member,alarm⟩

theorem create_keeps {q : Queue} {t : Task} (serves : Serves q t) (request : Request) (now : Rtc)
    (open_ : Ring.next eventBufSize q.wrPtr ≠ t.tail q) {e : Event} (member : e ∈ pending q t) :
    e ∈ pending (eventCreateExt q request.1 request.2 none now).2 t := by
  rw [create_appends serves request.1 request.2 none now open_]
  exact List.mem_append_left _ member

theorem systemUnset_waits {s : State} (inv : Inv s) (waits : AlarmWaits s) (room : ¬ Overruns s)
    (source : EventSource) (clock : Clock) : AlarmWaits (systemUnset s source clock) := by
  rw [systemUnset_eq]
  by_cases unset : s.sect.state = .unset
  · rw [if_pos unset]
    exact waits
  · rw [if_neg unset]
    obtain ⟨e,member,alarm⟩ := waits
    refine ⟨e,?_,alarm⟩
    have first : Ring.next eventBufSize s.queue.wrPtr ≠ s.task.tail s.queue :=
      fun closed => room ⟨unset,Or.inl closed⟩
    have kept := create_keeps inv.serves (.unset,source) clock.rtc first member
    change e ∈ pending (createAll s.queue (unsetEvents s source) clock.rtc) s.task
    unfold unsetEvents
    by_cases active : s.alarm.state = .active
    · rw [if_pos active]
      refine create_keeps (create_serves inv.serves .unset source none clock.rtc) (.alarmCancel,source) clock.rtc ?_ kept
      intro closed
      rw [created_tail,eventCreateExt_accepts] at closed
      exact room ⟨unset,Or.inr ⟨active,closed⟩⟩
    · rw [if_neg active]
      exact kept

/-- The task comes to an alarm event that waits, and the alarm is on then if not before. -/
theorem alarm_comes {s : State} (inv : Inv s) (waits : AlarmWaits s) :
    ∃ n, ¬ Off (Run.run step s (List.replicate n .event)).alarm := by
  induction work : effort s.queue s.task using Nat.strongRecOn generalizing s with
  | ind bound ih =>
    by_cases off : Off s.alarm
    case neg => exact ⟨0,off⟩
    obtain ⟨e,member,alarm⟩ := waits
    have less := task_effort inv.serves (List.ne_nil_of_mem member)
    rw [task_pending inv.serves,List.mem_append] at member
    have next := eventAction_inv inv
    have reacts := eventAction_eq s
    have goOn (later : AlarmWaits (eventAction s)) : ∃ n, ¬ Off (Run.run step s (List.replicate n .event)).alarm := by
      obtain ⟨n,on⟩ := ih _ (work ▸ less) next later (by rw [reacts])
      exact ⟨n + 1,on⟩
    have still (behind : e ∈ pending (eventTask s.queue s.task).1 (eventTask s.queue s.task).2.1) :
        AlarmWaits (eventAction s) := ⟨e,by rw [reacts]; exact behind,alarm⟩
    rcases Effect.reacted_cases (eventTask s.queue s.task).2.2 with none | ⟨first,one⟩
    · rw [none] at member
      exact goOn (still (member.resolve_left List.not_mem_nil))
    · rw [one] at member
      rcases member with now | behind
      · refine ⟨1,?_⟩
        change ¬ Off (eventAction s).alarm
        rw [reacts,one,← List.mem_singleton.mp now,List.foldl_cons,List.foldl_nil,systemEvent,if_pos alarm]
        intro silent
        exact absurd (silent.1.symm.trans (off.trigger inv.alarm)) (by decide)
      · exact goOn (still behind)

theorem run_inv (buffer : Nat → Event) (cnt : Nat) (cfg : Option (Option Int)) (settings : Inp → SystemInput)
    (inputs : List Input) : Inv (Run.run step (start buffer cnt cfg settings) inputs) :=
  Run.run_invariant step (fun _ _ => True) Inv (fun s input inv _ => step_inv s input inv) _ inputs
    (start_inv buffer cnt cfg settings) (Run.admits_of_forall step _ _ inputs fun _ _ _ => trivial)

theorem events_calm (s : State) (n : Nat) : Run.Admits step Calm s (List.replicate n .event) :=
  Run.admits_of_forall step Calm s _ fun _ input member => by
    rw [List.eq_of_mem_replicate member]
    exact ⟨fun fires => fires,fun sets => sets⟩

/-- In any run, a call of `system_unset` is followed by an idle alarm and a silent
siren, for as long as no 24-hour input fires and the system is not set again,
exactly when the state that it meets is clear. -/
theorem disarm_wins_iff (buffer : Nat → Event) (cnt : Nat) (cfg : Option (Option Int))
    (settings : Inp → SystemInput) (inputs : List Input) (source : EventSource) (clock : Clock) :
    (∀ later,
      Run.Admits step Calm (Run.run step (start buffer cnt cfg settings) (inputs ++ [.unset source clock])) later →
      Off (Run.run step (start buffer cnt cfg settings) (inputs ++ .unset source clock :: later)).alarm) ↔
      Clear (Run.run step (start buffer cnt cfg settings) inputs) := by
  have inv := run_inv buffer cnt cfg settings inputs
  simp only [Run.run_append,Run.run_cons]
  generalize Run.run step (start buffer cnt cfg settings) inputs = s at inv
  change (∀ later, Run.Admits step Calm (systemUnset s source clock) later →
    Off (Run.run step (systemUnset s source clock) later).alarm) ↔ Clear s
  constructor
  · intro wins
    refine ⟨fun unset => ?_,fun waits => ?_⟩
    · have now := wins [] trivial
      rw [systemUnset_eq,if_pos unset] at now
      exact now
    · by_contra room
      obtain ⟨n,on⟩ := alarm_comes (systemUnset_inv inv source clock) (systemUnset_waits inv waits room source clock)
      exact on (wins _ (events_calm _ n))
  · intro clear later calm
    exact (Run.run_invariant step Calm Safe step_safe _ later (systemUnset_safe inv clear source clock) calm).off

def noon : Clock := ⟨5000,⟨24,1,1,12,0,0⟩⟩

/-- The door signals in the set system, which is unset before the task has come to the event. -/
def door : List Input := [.signal .door .instant noon,.unset .user1 noon]

theorem disarmed_alarms : ∃ later,
    Run.Admits step Calm (Run.run step (start (fun _ => Event.erased) 0 (some (some 3)) systemInputInit) door) later ∧
      (Run.run step (start (fun _ => Event.erased) 0 (some (some 3)) systemInputInit) (door ++ later)).alarm.state =
        .active := by
  refine ⟨List.replicate 5 .event,events_calm _ 5,?_⟩
  decide

end JcaFirmware.System
