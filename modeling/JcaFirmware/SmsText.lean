import JcaFirmware.Sms

/-! What is in the text of an SMS. Appends to the text are made without a look at their
result, so a description may be cut off while its record is marked as sent. -/
namespace JcaFirmware.Sms
open EventBuf Foundation Numeral

section Descriptions

variable (setting : Setting)

/-- The description of the event, as of some time, is in the text. -/
def Described (text : List UInt8) (e : Event) : Prop :=
  ∃ now strs, pieces setting now e = .ok strs ∧ strs.flatten <:+: text

theorem Described.mono {text longer : List UInt8} (grows : text <+: longer) {e : Event}
    (described : Described setting text e) : Described setting longer e := by
  obtain ⟨now,strs,parts,inside⟩ := described
  exact ⟨now,strs,parts,inside.trans grows.isInfix⟩

theorem Described.source {text : List UInt8} {e : Event} (described : Described setting text e) {name : List UInt8}
    (named : sourceName setting e.source = .ok name) : ∀ c ∈ name, c ∈ text := by
  obtain ⟨now,strs,parts,inside⟩ := described
  intro c member
  apply inside.subset
  rw [pieces,named] at parts
  cases event : eventName setting e.id with
  | error fault =>
    rw [event] at parts
    cases parts
  | ok text =>
    rw [event] at parts
    cases parts
    simp [member]

def Complete (s : State) : Prop :=
  ∀ c ∈ s.completions, c.outcome = .accepted → ∀ r ∈ c.removed, Described setting c.message.text r.event

/-- The record that a get for the user takes. -/
def Oldest (s : State) (user : Nat) (r : Record) : Prop :=
  ∃ pre post, records s.smsBuf = pre ++ r :: post ∧ Wanted user r ∧ ∀ r' ∈ pre, ¬ Wanted user r'

theorem Takes.oldest {s : State} {new : List Record} {user : Nat} {r : Record} (takes : Takes (records s.smsBuf) new user r) :
    Oldest s user r := by
  obtain ⟨pre,post,split,wanted,before,_⟩ := takes
  exact ⟨pre,post,split,wanted,before⟩

/-- The call is not cut short, and the next description finds room in the text: after the
device name, or after the text so far and a separator. -/
def Fits (room : Nat) (state : Except Fault State) (input : Input) : Prop :=
  Completes state input ∧ ∀ s env, state = .ok s → input = .commTask env → ∀ r strs, pieces setting env.now r.event = .ok strs →
    (s.phase = .idle → Oldest s userNone r → (setting.deviceName ++ strs.flatten).length ≤ room) ∧
      ∀ sms event, s.phase = .collecting sms event → Oldest s sms.user r →
        (sms.text ++ (separator :: strs).flatten).length ≤ room

def Message.Whole (sms : Message) : Prop := ∀ e ∈ sms.events, Described setting sms.text e

def Phase.Whole : Phase → Prop
  | .idle => True
  | .collecting sms _ => sms.Whole setting
  | .sending sms => sms.Whole setting
  | .completing sms _ => sms.Whole setting

variable {room : Nat} (bounded : Text.Bounded room setting.appendStr)

include bounded

theorem opening_eq {strs : List (List UInt8)} (within : (setting.deviceName ++ strs.flatten).length ≤ room) :
    opening setting = setting.deviceName := by
  have first : ([] ++ setting.deviceName).length ≤ room := by
    rw [List.length_append] at within
    exact Nat.le_of_add_right_le within
  rw [opening,bounded.fits _ _ first]
  rfl

theorem move_whole {env : Env} {s : State}
    (whole : Kept (Phase.Whole setting) (fun c => c.message.Whole setting) s) (fits : Fits setting room (.ok s) (.commTask env))
    {next : Except Fault State} (move : Move setting env s next) :
    Run.Unless noUser (Kept (Phase.Whole setting) fun c => c.message.Whole setting) next := by
  have underWay := whole.underWay
  cases move with
  | empty => exact ⟨trivial,whole.past⟩
  | cut => exact ⟨trivial,whole.past⟩
  | first b r strs idle _ takes parts =>
    have within := (fits.2 s env rfl rfl r strs parts).1 idle takes.oldest
    refine ⟨fun e member => ?_,whole.past⟩
    cases List.mem_singleton.mp member
    refine ⟨env.now,strs,parts,?_⟩
    rw [opening_eq setting bounded within,bounded.fits_all _ _ within]
    exact (List.suffix_append _ _).isInfix
  | more b sms event r strs collecting _ takes parts =>
    have within := (fits.2 s env rfl rfl r strs parts).2 sms event collecting takes.oldest
    rw [collecting] at underWay
    refine ⟨fun e member => ?_,whole.past⟩
    rcases List.mem_append.mp member with before | now
    · exact (underWay e before).mono setting (bounded.starts_all _ _)
    · cases List.mem_singleton.mp now
      refine ⟨env.now,strs,parts,?_⟩
      rw [bounded.fits_all _ _ within,List.flatten_cons,← List.append_assoc]
      exact (List.suffix_append _ _).isInfix
  | last b sms event collecting =>
    rw [collecting] at underWay
    exact ⟨underWay,whole.past⟩
  | nobody => rfl
  | unread => exact ⟨trivial,whole.past⟩
  | unphoned sms sending =>
    rw [sending] at underWay
    exact ⟨underWay,whole.past⟩
  | sent sms telNum sending =>
    rw [sending] at underWay
    exact ⟨underWay,whole.past⟩
  | done b sms outcome completing =>
    rw [completing] at underWay
    refine ⟨trivial,fun c member => ?_⟩
    rcases List.mem_append.mp member with before | now
    · exact whole.past c before
    · cases List.mem_singleton.mp now
      exact underWay

/-- In a run in which every description finds room, no event is removed whose description
is not in the text that was sent. -/
theorem run_complete (items : Nat → Item) (inputs : List Input)
    (fit : Run.Admits (step setting) (Fits setting room) (.ok (booted items)) inputs)
    (first rest : List Input) (split : inputs = first ++ rest) :
    Run.Unless noUser (Complete setting) (Run.run (step setting) (.ok (booted items)) first) := by
  subst split
  have admitted := ((Run.admits_append _ _ _ first rest).mp fit).1
  have kept := run_kept setting (fun env s next _ whole fits move => move_whole setting bounded whole fits move)
    (fun _ _ fits => fits.1) items trivial first admitted
  refine kept.mono fun s both c member _ r removed => ?_
  obtain ⟨inside,sent⟩ := (Completion.Own.removed_iff (both.1.own c member) r).mp removed
  exact both.2.past c member r.event ((both.1.own c member).own r inside sent).2

end Descriptions

section Crowded

/-- Names as long as the configuration takes them, but for one source. -/
def wordy : Setting where
  textIsValidPhone := digitsOnly
  appendStr := Text.appendWithin 458
  deviceName := List.replicate 61 0x78
  name := fun id => some (if id = 409 then ascii "!" else List.replicate 61 0x78)

def inputAlarm : Input := .newEvent ⟨{doorEvent with source := EventSource.input2.code},0,by decide,by decide⟩

def crowded : List Input :=
  [doorAlarm 0,doorAlarm 0,doorAlarm 0,inputAlarm] ++ List.replicate 7 (.commTask (meeting true true))

/-- The text is full after three alarms; the fourth is removed with them. -/
theorem crowded_incomplete : ¬ ∀ (items : Nat → Item) (inputs : List Input),
    Run.Unless noUser (Complete wordy) (Run.run (step wordy) (.ok (booted items)) inputs) := by
  intro always
  have seen : (Run.run (step wordy) (.ok (booted emptySlots)) crowded).map
      (fun s => s.completions.map fun c : Completion =>
        (c.outcome,c.removed.map fun r => r.event.source,c.message.text.contains 0x21)) =
      .ok [(.accepted,[3,3,3,5],false)] := by
    decide +kernel
  obtain ⟨s,ran,shown⟩ := Run.observed seen
  -- For any inputs, so that the run is not computed a second time.
  have ends (inputs : List Input) (ran : Run.run (step wordy) (.ok (booted emptySlots)) inputs = .ok s) : Complete wordy s := by
    have complete := always emptySlots inputs
    rw [ran] at complete
    exact complete
  have complete := ends crowded ran
  obtain ⟨c,member,shown⟩ := List.mem_map.mp (shown ▸ List.mem_singleton.mpr rfl)
  obtain ⟨accepted,shown⟩ := Prod.mk.inj shown
  obtain ⟨sources,absent⟩ := Prod.mk.inj shown
  have fourth : EventSource.input2.code ∈ c.removed.map fun r => r.event.source := by
    rw [sources]
    decide
  obtain ⟨r,removed,source⟩ := List.mem_map.mp fourth
  have named : sourceName wordy r.event.source = .ok (ascii "!") := by
    rw [source]
    decide
  have inside := (complete c member accepted r removed).source wordy named 0x21 (by decide)
  rw [← List.contains_iff_mem,absent] at inside
  exact absurd inside (by decide)

def Phase.textLength : Phase → Nat
  | .collecting sms _ => sms.text.length
  | _ => 0

theorem doorAlarms_fit {state : Except Fault State} (events : List Event) (taken : Nat)
    (seen : state.map (fun s => (((records s.smsBuf).filter fun r => r.status = .pending).map Record.event,s.phase.textLength)) =
      .ok (events,taken)) (alarms : ∀ e ∈ events, e = doorEvent) (few : taken ≤ 400) :
    Fits factory 458 state (.commTask (meeting true true)) := by
  refine ⟨meeting_completes state true,fun s env same called r strs parts => ?_⟩
  cases called
  obtain ⟨s',reached,shown⟩ := Run.observed seen
  cases Except.ok.inj (same.symm.trans reached)
  obtain ⟨waiting,text⟩ := Prod.mk.inj shown
  have short (user : Nat) (oldest : Oldest s user r) : strs.flatten.length ≤ 40 := by
    obtain ⟨pre,post,split,wanted,_⟩ := oldest
    have alarm : r.event = doorEvent := by
      apply alarms
      rw [← waiting,split]
      exact List.mem_map_of_mem (List.mem_filter.mpr ⟨by simp,decide_eq_true wanted.1⟩)
    rw [alarm] at parts
    have length : (pieces factory doorEvent.time doorEvent).map (fun strs => strs.flatten.length) = .ok 20 := by decide +kernel
    change pieces factory doorEvent.time doorEvent = .ok strs at parts
    rw [parts] at length
    have length : strs.flatten.length = 20 := Except.ok.inj length
    omega
  refine ⟨fun _ oldest => ?_,fun sms event collecting oldest => ?_⟩
  · have within := short _ oldest
    have name : factory.deviceName.length = 20 := by decide
    rw [List.length_append,name]
    omega
  · have within := short _ oldest
    rw [collecting] at text
    have text : sms.text.length = taken := text
    have mark : separator.length = 3 := by decide
    rw [List.flatten_cons,List.length_append,List.length_append,text,mark]
    omega

def pair : List Input := doorAlarm 0 :: doorAlarm 0 :: List.replicate 5 (.commTask (meeting true true))

theorem pair_complete : Run.Unless noUser (Complete factory) (Run.run (step factory) (.ok (booted emptySlots)) pair) := by
  refine run_complete factory Text.appendWithin_bounded emptySlots pair ⟨?_,?_,?_,?_,?_,?_,?_,trivial⟩ _ [] rfl
  · exact ⟨doorAlarm_completes _ 0,fun _ _ _ called => nomatch called⟩
  · exact ⟨doorAlarm_completes _ 0,fun _ _ _ called => nomatch called⟩
  · exact doorAlarms_fit [doorEvent,doorEvent] 0 (by decide +kernel) (by decide) (by decide)
  · exact doorAlarms_fit [doorEvent] 40 (by decide +kernel) (by decide) (by decide)
  · exact doorAlarms_fit [] 63 (by decide +kernel) (by decide) (by decide)
  · exact doorAlarms_fit [] 0 (by decide +kernel) (by decide) (by decide)
  · exact doorAlarms_fit [] 0 (by decide +kernel) (by decide) (by decide)

end Crowded

end JcaFirmware.Sms
