import JcaFirmware.EventBufRun
import JcaFirmware.Foundation.Numeral
import JcaFirmware.Foundation.Text

/-! Notifications by SMS (`event_comm_task` and `_buf_add_event` of `app/event.c`,
`app/sms_processing.c` and the sender of `modem/modem_main.c`): the waiting events of one
user are put into one SMS. A call is taken in steps, one for each thing it does to the
buffer, so that other tasks may add events in between. Every removal of delivered records
is written down with its SMS and what became of it. -/
namespace JcaFirmware.Sms
open EventBuf Foundation Numeral

def smsBufSize : Nat := 20
def smsDayLimit : Nat := 50
def cfgIdUser1Phone : Nat := 101

/-- What the SDK and the configuration decide: `text_is_valid_phone`, `buf_append_str`
on the text of the SMS, what is appended to it of the configured device name, and the
text of an item as `_event_name` and `_source_name` read it. -/
structure Setting where
  textIsValidPhone : List UInt8 → Bool
  appendStr : List UInt8 → List UInt8 → Bool × List UInt8
  deviceName : List UInt8
  name : Nat → Option (List UInt8)

/-- `text_id` of `EVENT_SETUP`. -/
def eventTextId : List Nat := [300,301,302,303,304,305,306,307,308,310,311,312,313,314,315,316]

/-- `text_id` of `EVENT_SOURCE_SETUP`. -/
def sourceTextId : List Nat := [400,401,402,403,404,409,410,405,406,407,408,50,51,52,53,54]

structure Message where
  user : Nat
  events : List Event
  text : List UInt8
deriving DecidableEq, Repr

inductive Outcome | accepted | refused | unphoned | unread
deriving DecidableEq, Repr

structure Completion where
  message : Message
  outcome : Outcome
  before : List Record
  after : List Record

/-- Where `event_comm_task` is: in the loop that collects, with its local `event`, before
the send, or after a send that is taken for done. -/
inductive Phase
  | idle
  | collecting (sms : Message) (event : Event)
  | sending (sms : Message)
  | completing (sms : Message) (outcome : Outcome)

structure State where
  smsBuf : Buf
  phase : Phase
  smsLimiter : Nat
  completions : List Completion

/-- What a step meets: the heap, the uninitialised local, the clock, the configured
numbers and the modem. -/
structure Env where
  heap : Bool
  event : Event
  now : Rtc
  phone : Nat → Option (List UInt8)
  sent : Bool

/-- An event for a user, as `event_task` adds it: it has asserted the identifier, and the
source is of the enumeration. -/
structure Arrival where
  event : Event
  user : UInt16
  id_lt : event.id < eventIdSize
  source_lt : event.source < eventSourceSize

section Task

variable (setting : Setting)

def eventName (id : UInt8) : Except Fault (List UInt8) := do
  osAssert (id < eventIdSize) "EVENT_ID_SIZE"
  .ok ((setting.name (eventTextId.getD id.toNat 0)).getD (ascii "error"))

def sourceName (id : UInt8) : Except Fault (List UInt8) := do
  osAssert (id < eventSourceSize) "EVENT_SOURCE_SIZE"
  .ok ((setting.name (sourceTextId.getD id.toNat 0)).getD (ascii "error"))

def timeText (now t : Rtc) : List UInt8 :=
  let clock := numeral 10 t.hour.toNat ++ ascii ":" ++ padded 10 2 t.minute.toNat ++ ascii ":" ++ padded 10 2 t.second.toNat
  if now.day = t.day ∨ now.month = t.month then clock
  else padded 10 2 t.year.toNat ++ ascii "/" ++ numeral 10 t.month.toNat ++ ascii "/" ++ numeral 10 t.day.toNat ++
    ascii " " ++ clock

/-- What `_buf_add_event` appends, piece by piece. -/
def pieces (now : Rtc) (e : Event) : Except Fault (List (List UInt8)) := do
  let event ← eventName setting e.id
  let source ← sourceName setting e.source
  .ok [timeText now e.time,ascii " ",event,ascii ", ",source]

def bufAddEvent (now : Rtc) (text : List UInt8) (e : Event) : Except Fault (List UInt8) := do
  let strs ← pieces setting now e
  .ok (Text.appendAll setting.appendStr text strs)

def separator : List UInt8 := ascii ";\r\n"

def modemMainSmsSend (sent : Bool) (s : State) : Bool × State :=
  let s := {s with smsLimiter := (s.smsLimiter + 1) % 2 ^ 32}
  if smsDayLimit ≤ s.smsLimiter then (false,s) else (sent,s)

theorem modemMainSmsSend_state (sent : Bool) (s : State) :
    (modemMainSmsSend sent s).2 = {s with smsLimiter := (s.smsLimiter + 1) % 2 ^ 32} := by
  rw [modemMainSmsSend]
  dsimp only
  split_ifs <;> rfl

/-- `sms_send_to_user`; what became of the SMS stands beside the result. -/
def smsSendToUser (env : Env) (sms : Message) (s : State) : Except Fault (Bool × Outcome × State) := do
  osAssert (sms.user < 4) "user >= 4"
  match env.phone (cfgIdUser1Phone + sms.user) with
  | none => .ok (false,.unread,s)
  | some telNum =>
    if setting.textIsValidPhone telNum = false then .ok (true,.unphoned,s)
    else
      let (accepted,s) := modemMainSmsSend env.sent s
      .ok (true,if accepted then .accepted else .refused,s)

def eventCommTask (env : Env) (s : State) : Except Fault State :=
  match s.phase with
  | .idle => do
    let (found,q,b) ← getEvent s.smsBuf (some env.event) (some userNone) none
    if found = false ∨ env.heap = false then .ok {s with smsBuf := b}
    else do
      let event := q.event.getD env.event
      let text := (setting.appendStr [] setting.deviceName).2
      let text ← bufAddEvent setting env.now text event
      .ok {s with smsBuf := b, phase := .collecting ⟨q.user,[event],text⟩ event}
  | .collecting sms event => do
    let (found,q,b) ← getEvent s.smsBuf (some event) (some sms.user) none
    if found = false then .ok {s with smsBuf := b, phase := .sending sms}
    else do
      let event := q.event.getD event
      let text := (setting.appendStr sms.text separator).2
      let text ← bufAddEvent setting env.now text event
      .ok {s with smsBuf := b, phase := .collecting ⟨q.user,sms.events ++ [event],text⟩ event}
  | .sending sms => do
    let (done,outcome,s) ← smsSendToUser setting env sms s
    if done then .ok {s with phase := .completing sms outcome} else .ok {s with phase := .idle}
  | .completing sms outcome => do
    let left ← doneEvents s.smsBuf true
    .ok {s with
      smsBuf := left, phase := .idle,
      completions := s.completions ++ [⟨sms,outcome,records s.smsBuf,records left⟩]}

inductive Input
  | newEvent (arrival : Arrival)
  | commTask (env : Env)
  | smsSend (sent : Bool)
  | limitersUpdate

def step (state : Except Fault State) (input : Input) : Except Fault State := do
  let s ← state
  match input with
  | .newEvent arrival => do
    let (_,b) ← addEvent s.smsBuf (some arrival.event) prioStd arrival.user.toNat
    .ok {s with smsBuf := b}
  | .commTask env => eventCommTask setting env s
  | .smsSend sent => .ok (modemMainSmsSend sent s).2
  | .limitersUpdate => .ok {s with smsLimiter := 0}

end Task

section Moves

/-- What the buffer only ever holds: records of somebody, with events that have a text. -/
def Filed (r : Record) : Prop := r.user ≠ userNone ∧ r.event.id < eventIdSize ∧ r.event.source < eventSourceSize

/-- A get takes the oldest record it looks for. -/
def Takes (old new : List Record) (user : Nat) (r : Record) : Prop :=
  ∃ pre post, old = pre ++ r :: post ∧ Wanted user r ∧ (∀ r' ∈ pre, ¬ Wanted user r') ∧
    new = pre ++ {r with status := .processing} :: post

theorem Takes.mem {old new : List Record} {user : Nat} {r : Record} (takes : Takes old new user r) : r ∈ old := by
  obtain ⟨pre,post,rfl,_⟩ := takes
  exact List.mem_append_right pre List.mem_cons_self

theorem Takes.all {old new : List Record} {user : Nat} {r : Record} {property : Record → Prop}
    (takes : Takes old new user r) (taken : property {r with status := .processing}) (before : ∀ r' ∈ old, property r') :
    ∀ r' ∈ new, property r' := by
  obtain ⟨pre,post,rfl,_,_,rfl⟩ := takes
  intro r' member
  rcases List.mem_append.mp member with first | rest
  · exact before r' (List.mem_append_left _ first)
  · rcases List.mem_cons.mp rest with rfl | last
    · exact taken
    · exact before r' (List.mem_append_right _ (List.mem_cons_of_mem _ last))

theorem Gets.takes {old new : List Record} {event : Event} {user : Nat} {q : Request}
    (gets : Gets old new ⟨some event,user,none⟩ q true) :
    ∃ r, Takes old new user r ∧ q = ⟨some r.event,r.user,none⟩ := by
  rcases gets with ⟨_,pre,r,post,split,wanted,before,new,report⟩ | ⟨no,_⟩
  · exact ⟨r,⟨pre,post,split,wanted,before,new⟩,report⟩
  · exact absurd no (by decide)

theorem Gets.none {old new : List Record} {q q' : Request} (gets : Gets old new q q' false) :
    (∀ r ∈ old, ¬ Wanted q.user r) ∧ new = old := by
  rcases gets with ⟨yes,_⟩ | ⟨_,empty,same⟩
  · exact absurd yes (by decide)
  · exact ⟨empty,same⟩

variable (setting : Setting)

theorem pieces_ok {e : Event} (now : Rtc) (id : e.id < eventIdSize) (source : e.source < eventSourceSize) :
    ∃ strs, pieces setting now e = .ok strs := by
  rw [pieces,eventName,osAssert_true id,sourceName,osAssert_true source]
  exact ⟨_,rfl⟩

def noUser : Fault := .assertion "user >= 4"

def opening : List UInt8 := (setting.appendStr [] setting.deviceName).2

/-- Everything that a step of `event_comm_task` can do. -/
inductive Move (env : Env) (s : State) : Except Fault State → Prop
  | empty (b : Buf) (idle : s.phase = .idle) (sound : Sound b) (same : records b = records s.smsBuf)
    (none : ∀ r ∈ records s.smsBuf, ¬ Wanted userNone r) : Move env s (.ok {s with smsBuf := b, phase := .idle})
  | cut (b : Buf) (r : Record) (idle : s.phase = .idle) (sound : Sound b)
    (takes : Takes (records s.smsBuf) (records b) userNone r) (heap : env.heap = false) :
    Move env s (.ok {s with smsBuf := b, phase := .idle})
  | first (b : Buf) (r : Record) (strs : List (List UInt8)) (idle : s.phase = .idle) (sound : Sound b)
    (takes : Takes (records s.smsBuf) (records b) userNone r) (parts : pieces setting env.now r.event = .ok strs) :
    Move env s (.ok {s with
      smsBuf := b
      phase := .collecting ⟨r.user,[r.event],Text.appendAll setting.appendStr (opening setting) strs⟩ r.event})
  | more (b : Buf) (sms : Message) (event : Event) (r : Record) (strs : List (List UInt8))
    (collecting : s.phase = .collecting sms event) (sound : Sound b)
    (takes : Takes (records s.smsBuf) (records b) sms.user r) (parts : pieces setting env.now r.event = .ok strs) :
    Move env s (.ok {s with
      smsBuf := b
      phase := .collecting
        ⟨r.user,sms.events ++ [r.event],Text.appendAll setting.appendStr sms.text (separator :: strs)⟩ r.event})
  | last (b : Buf) (sms : Message) (event : Event) (collecting : s.phase = .collecting sms event) (sound : Sound b)
    (same : records b = records s.smsBuf) (none : ∀ r ∈ records s.smsBuf, ¬ Wanted sms.user r) :
    Move env s (.ok {s with smsBuf := b, phase := .sending sms})
  | nobody (sms : Message) (sending : s.phase = .sending sms) (other : 4 ≤ sms.user) : Move env s (.error noUser)
  | unread (sms : Message) (sending : s.phase = .sending sms) (number : env.phone (cfgIdUser1Phone + sms.user) = none)
    (own : sms.user < 4) : Move env s (.ok {s with phase := .idle})
  | unphoned (sms : Message) (sending : s.phase = .sending sms) (own : sms.user < 4) :
    Move env s (.ok {s with phase := .completing sms .unphoned})
  | sent (sms : Message) (telNum : List UInt8) (sending : s.phase = .sending sms)
    (number : env.phone (cfgIdUser1Phone + sms.user) = some telNum) (valid : setting.textIsValidPhone telNum = true)
    (own : sms.user < 4) :
    Move env s (.ok {s with
      smsLimiter := (s.smsLimiter + 1) % 2 ^ 32
      phase := .completing sms (if (modemMainSmsSend env.sent s).1 then .accepted else .refused)})
  | done (b : Buf) (sms : Message) (outcome : Outcome) (completing : s.phase = .completing sms outcome) (sound : Sound b)
    (left : records b = (records s.smsBuf).filter fun r => r.status ≠ .processing) :
    Move env s (.ok {s with
      smsBuf := b, phase := .idle, completions := s.completions ++ [⟨sms,outcome,records s.smsBuf,records b⟩]})

theorem doneRecord_filter (rs : List Record) :
    rs.filterMap (doneRecord true) = rs.filter fun r => r.status ≠ .processing := by
  rw [← List.filterMap_eq_filter]
  apply List.filterMap_congr
  intro r _
  by_cases sent : r.status = .processing
  · simp [doneRecord,sent,Option.guard]
  · simp [doneRecord,sent,Option.guard]

variable {setting} {s : State} (sound : Sound s.smsBuf) (filed : ∀ r ∈ records s.smsBuf, Filed r)
include sound filed

theorem start_moves (env : Env) (idle : s.phase = .idle) : Move setting env s (eventCommTask setting env s) := by
  obtain ⟨found,q,b,got,sound,gets⟩ := getEvent_spec sound (some env.event) userNone none
  rw [eventCommTask,idle]
  dsimp only
  rw [got,ok_bind]
  dsimp only
  cases found with
  | false =>
    rw [if_pos (Or.inl rfl)]
    exact .empty b idle sound (Gets.none gets).2 (Gets.none gets).1
  | true =>
    obtain ⟨r,takes,rfl⟩ := Gets.takes gets
    cases heap : env.heap with
    | false =>
      rw [if_pos (Or.inr rfl)]
      exact .cut b r idle sound takes heap
    | true =>
      obtain ⟨strs,parts⟩ := pieces_ok setting env.now (filed r takes.mem).2.1 (filed r takes.mem).2.2
      rw [if_neg (by decide),Option.getD_some,bufAddEvent,parts]
      exact .first b r strs idle sound takes parts

theorem collect_moves (env : Env) {sms : Message} {event : Event} (collecting : s.phase = .collecting sms event) :
    Move setting env s (eventCommTask setting env s) := by
  obtain ⟨found,q,b,got,sound,gets⟩ := getEvent_spec sound (some event) sms.user none
  rw [eventCommTask,collecting]
  dsimp only
  rw [got,ok_bind]
  dsimp only
  cases found with
  | false =>
    rw [if_pos rfl]
    exact .last b sms event collecting sound (Gets.none gets).2 (Gets.none gets).1
  | true =>
    obtain ⟨r,takes,rfl⟩ := Gets.takes gets
    obtain ⟨strs,parts⟩ := pieces_ok setting env.now (filed r takes.mem).2.1 (filed r takes.mem).2.2
    rw [if_neg (by decide),Option.getD_some,bufAddEvent,parts]
    exact .more b sms event r strs collecting sound takes parts

omit sound filed in
theorem send_moves (env : Env) {sms : Message} (sending : s.phase = .sending sms) :
    Move setting env s (eventCommTask setting env s) := by
  rw [eventCommTask,sending]
  dsimp only
  by_cases own : sms.user < 4
  · rw [smsSendToUser,osAssert_true own,ok_bind]
    cases number : env.phone (cfgIdUser1Phone + sms.user) with
    | none => exact .unread sms sending number own
    | some telNum =>
      dsimp only
      cases valid : setting.textIsValidPhone telNum with
      | false => exact .unphoned sms sending own
      | true =>
        rw [if_neg (by decide),modemMainSmsSend_state]
        exact .sent sms telNum sending number valid own
  · rw [smsSendToUser,osAssert,if_neg own]
    exact .nobody sms sending (Nat.le_of_not_lt own)

omit filed in
theorem complete_moves (env : Env) {sms : Message} {outcome : Outcome} (completing : s.phase = .completing sms outcome) :
    Move setting env s (eventCommTask setting env s) := by
  obtain ⟨b,done,sound,left⟩ := doneEvents_spec sound true
  rw [eventCommTask,completing]
  dsimp only
  rw [done,ok_bind]
  rw [doneRecord_filter] at left
  exact .done b sms outcome completing sound left

theorem eventCommTask_moves (env : Env) : Move setting env s (eventCommTask setting env s) := by
  cases phase : s.phase with
  | idle => exact start_moves sound filed env phase
  | collecting sms event => exact collect_moves sound filed env phase
  | sending sms => exact send_moves env phase
  | completing sms outcome => exact complete_moves sound env phase

end Moves

section Invariant

/-- During a call a record waits, or it is of the user of the SMS and in it. -/
def InCall (sms : Message) (r : Record) : Prop :=
  r.status = .pending ∨ (r.status = .processing ∧ r.user = sms.user ∧ r.event ∈ sms.events)

def Phase.Holds : Phase → Record → Prop
  | .idle, r => r.status = .pending
  | .collecting sms _, r => InCall sms r
  | .sending sms, r => InCall sms r
  | .completing sms _, r => InCall sms r

theorem Phase.holds_pending {phase : Phase} {r : Record} (pending : r.status = .pending) : phase.Holds r := by
  cases phase with
  | idle => exact pending
  | collecting sms event => exact Or.inl pending
  | sending sms => exact Or.inl pending
  | completing sms outcome => exact Or.inl pending

def Phase.Somebody : Phase → Prop
  | .collecting sms _ => sms.user ≠ userNone
  | _ => True

/-- A completion removes what is in processing, all of it of the user and in the SMS. -/
structure Completion.Own (c : Completion) : Prop where
  left : c.after = c.before.filter fun r => r.status ≠ .processing
  own : ∀ r ∈ c.before, r.status = .processing → r.user = c.message.user ∧ r.event ∈ c.message.events

structure Inv (s : State) : Prop where
  sound : Sound s.smsBuf
  filed : ∀ r ∈ records s.smsBuf, Filed r
  holds : ∀ r ∈ records s.smsBuf, s.phase.Holds r
  somebody : s.phase.Somebody
  own : ∀ c ∈ s.completions, c.Own

/-- Every call that has taken a record comes to its end: there is memory for the text,
and the number of the user can be read. -/
def Completes (state : Except Fault State) (input : Input) : Prop :=
  ∀ s env, state = .ok s → input = .commTask env →
    (s.phase = .idle → (∃ r ∈ records s.smsBuf, r.status = .pending) → env.heap = true) ∧
      ∀ sms, s.phase = .sending sms → env.phone (cfgIdUser1Phone + sms.user) ≠ none

theorem InCall.own {sms : Message} {r : Record} (held : InCall sms r) (sent : r.status = .processing) :
    r.user = sms.user ∧ r.event ∈ sms.events := by
  rcases held with pending | ⟨_,user,event⟩
  · exact absurd (pending.symm.trans sent) (by decide)
  · exact ⟨user,event⟩

theorem Takes.first {old new : List Record} {user : Nat} {r : Record} (takes : Takes old new user r) (text : List UInt8)
    (before : ∀ r' ∈ old, r'.status = .pending) : ∀ r' ∈ new, InCall ⟨r.user,[r.event],text⟩ r' :=
  takes.all (Or.inr ⟨rfl,rfl,List.mem_singleton.mpr rfl⟩) fun r' member => Or.inl (before r' member)

theorem Takes.more {old new : List Record} {sms : Message} {r : Record} (takes : Takes old new sms.user r)
    (text : List UInt8) (same : r.user = sms.user) (before : ∀ r' ∈ old, InCall sms r') :
    ∀ r' ∈ new, InCall ⟨r.user,sms.events ++ [r.event],text⟩ r' := by
  refine takes.all (Or.inr ⟨rfl,rfl,?_⟩) fun r' member => (before r' member).imp id fun ⟨sent,own,inside⟩ => ⟨sent,?_,?_⟩
  · exact List.mem_append_right _ (List.mem_singleton.mpr rfl)
  · exact own.trans same.symm
  · exact List.mem_append_left _ inside

theorem Takes.filed {old new : List Record} {user : Nat} {r : Record} (takes : Takes old new user r)
    (before : ∀ r' ∈ old, Filed r') : ∀ r' ∈ new, Filed r' :=
  takes.all (before r takes.mem) before

variable (setting : Setting)

theorem move_inv {env : Env} {s : State} (inv : Inv s) (completes : Completes (.ok s) (.commTask env))
    {next : Except Fault State} (move : Move setting env s next) : Run.Unless noUser Inv next := by
  obtain ⟨heap,number⟩ := completes s env rfl rfl
  have holds := inv.holds
  cases move with
  | empty b idle sound same =>
    rw [← same,idle] at holds
    exact ⟨sound,same ▸ inv.filed,holds,trivial,inv.own⟩
  | cut b r idle sound takes none =>
    rw [idle] at holds
    exact absurd (heap idle ⟨r,takes.mem,holds r takes.mem⟩) (by simp [none])
  | first b r strs idle sound takes parts =>
    rw [idle] at holds
    exact ⟨sound,takes.filed inv.filed,takes.first _ holds,(inv.filed r takes.mem).1,inv.own⟩
  | more b sms event r strs collecting sound takes parts =>
    have somebody := inv.somebody
    rw [collecting] at holds somebody
    have same : r.user = sms.user := by
      obtain ⟨_,_,_,⟨_,own⟩,_⟩ := takes
      exact own.resolve_left somebody
    exact ⟨sound,takes.filed inv.filed,takes.more _ same holds,(inv.filed r takes.mem).1,inv.own⟩
  | last b sms event collecting sound same =>
    rw [← same,collecting] at holds
    exact ⟨sound,same ▸ inv.filed,holds,trivial,inv.own⟩
  | nobody => rfl
  | unread sms sending none => exact absurd none (number sms sending)
  | unphoned sms sending =>
    rw [sending] at holds
    exact ⟨inv.sound,inv.filed,holds,trivial,inv.own⟩
  | sent sms telNum sending =>
    rw [sending] at holds
    exact ⟨inv.sound,inv.filed,holds,trivial,inv.own⟩
  | done b sms outcome completing sound left =>
    rw [completing] at holds
    refine ⟨sound,fun r member => ?_,fun r member => ?_,trivial,fun c member => ?_⟩
    · rw [left] at member
      exact inv.filed r (List.mem_filter.mp member).1
    · rw [left] at member
      obtain ⟨inside,past⟩ := List.mem_filter.mp member
      exact (holds r inside).resolve_right fun sent => of_decide_eq_true past sent.1
    · rcases List.mem_append.mp member with before | now
      · exact inv.own c before
      · cases List.mem_singleton.mp now
        exact ⟨left,fun r inside sent => InCall.own (holds r inside) sent⟩

theorem newEvent_inv {s : State} (inv : Inv s) (arrival : Arrival) :
    ∃ b, step setting (.ok s) (.newEvent arrival) = .ok {s with smsBuf := b} ∧ Inv {s with smsBuf := b} := by
  obtain ⟨_,b,added,sound,adds⟩ := addEvent_spec inv.sound (some arrival.event) prioStd arrival.user.toNat
  refine ⟨b,by rw [step,ok_bind]; dsimp only; rw [added,ok_bind],sound,?_,?_,inv.somebody,inv.own⟩
  · refine adds.all inv.filed fun e given somebody => ?_
    cases given
    exact ⟨somebody,arrival.id_lt,arrival.source_lt⟩
  · exact adds.all inv.holds fun e _ _ => Phase.holds_pending rfl

theorem step_inv (state : Except Fault State) (input : Input) (inv : Run.Unless noUser Inv state)
    (completes : Completes state input) : Run.Unless noUser Inv (step setting state input) := by
  cases state with
  | error fault => exact inv
  | ok s =>
    have inv : Inv s := inv
    cases input with
    | newEvent arrival =>
      obtain ⟨b,added,holds⟩ := newEvent_inv setting inv arrival
      rw [added]
      exact holds
    | commTask env => exact move_inv setting inv completes (eventCommTask_moves inv.sound inv.filed env)
    | smsSend sent =>
      rw [step,ok_bind]
      dsimp only
      rw [modemMainSmsSend_state]
      exact ⟨inv.sound,inv.filed,inv.holds,inv.somebody,inv.own⟩
    | limitersUpdate => exact ⟨inv.sound,inv.filed,inv.holds,inv.somebody,inv.own⟩

end Invariant

section Kept

variable (setting : Setting)

def booted (items : Nat → Item) : State := ⟨init items smsBufSize,.idle,0,[]⟩

theorem booted_inv (items : Nat → Item) : Inv (booted items) := by
  obtain ⟨sound,none⟩ := init_sound items smsBufSize (by decide) (by decide)
  have empty (r : Record) : r ∉ records (booted items).smsBuf := by
    rw [booted,none]
    exact List.not_mem_nil
  exact ⟨sound,fun r member => absurd member (empty r),fun r member => absurd member (empty r),trivial,
    fun c member => absurd member List.not_mem_nil⟩

/-- Something of the SMS under way, and of every SMS that is over. -/
structure Kept (underWay : Phase → Prop) (past : Completion → Prop) (s : State) : Prop where
  underWay : underWay s.phase
  past : ∀ c ∈ s.completions, past c

variable {underWay : Phase → Prop} {past : Completion → Prop} {allowed : Except Fault State → Input → Prop}
  (moves : ∀ env s next, Inv s → Kept underWay past s → allowed (.ok s) (.commTask env) → Move setting env s next →
    Run.Unless noUser (Kept underWay past) next)
  (completes : ∀ state input, allowed state input → Completes state input)

include moves completes in
/-- Only the steps of `event_comm_task` need a look: the others keep to the buffer and
the limiter. -/
theorem run_kept (items : Nat → Item) (start : underWay .idle) (inputs : List Input)
    (admitted : Run.Admits (step setting) allowed (.ok (booted items)) inputs) :
    Run.Unless noUser (fun s => Inv s ∧ Kept underWay past s) (Run.run (step setting) (.ok (booted items)) inputs) := by
  apply Run.run_invariant (step setting) allowed (Run.Unless noUser fun s => Inv s ∧ Kept underWay past s) _ _ _ _ admitted
  · intro state input held allows
    have inv := step_inv setting state input (held.mono fun _ both => both.1) (completes state input allows)
    cases state with
    | error fault => exact held
    | ok s =>
      obtain ⟨before,kept⟩ := held
      cases input with
      | newEvent arrival =>
        obtain ⟨b,added,holds⟩ := newEvent_inv setting before arrival
        rw [added]
        exact ⟨holds,kept.underWay,kept.past⟩
      | commTask env =>
        have kept := moves env s _ before kept allows (eventCommTask_moves before.sound before.filed env)
        change Run.Unless noUser _ (eventCommTask setting env s) at inv ⊢
        cases ran : eventCommTask setting env s with
        | error fault =>
          rw [ran] at inv
          exact inv
        | ok next =>
          rw [ran] at inv kept
          exact ⟨inv,kept⟩
      | smsSend sent =>
        rw [step,ok_bind] at inv ⊢
        dsimp only at inv ⊢
        rw [modemMainSmsSend_state] at inv ⊢
        exact ⟨inv,kept.underWay,kept.past⟩
      | limitersUpdate => exact ⟨inv,kept.underWay,kept.past⟩
  · exact ⟨booted_inv items,start,fun c member => absurd member List.not_mem_nil⟩

end Kept

section Runs

variable (setting : Setting)

def Completion.removed (c : Completion) : List Record := c.before.filter fun r => r ∉ c.after

theorem Completion.Own.removed_iff {c : Completion} (own : c.Own) (r : Record) :
    r ∈ c.removed ↔ r ∈ c.before ∧ r.status = .processing := by
  rw [Completion.removed,List.mem_filter,own.left,decide_eq_true_eq,List.mem_filter]
  exact and_congr_right fun inside => by simp [inside]

/-- The SMS of the completion had the event of the record in it, and it was accepted or
its user has no valid number. -/
def Completion.Delivers (c : Completion) (r : Record) : Prop :=
  r.user = c.message.user ∧ r.event ∈ c.message.events ∧ (c.outcome = .accepted ∨ c.outcome = .unphoned)

/-- No event is lost: between the calls every record waits, and what was removed was
delivered. -/
structure Unlost (s : State) : Prop where
  waiting : s.phase = .idle → ∀ r ∈ records s.smsBuf, r.status = .pending
  delivered : ∀ c ∈ s.completions, ∀ r ∈ c.removed, c.Delivers r

/-- Nothing fails in the call: it comes to its end, and where the number is valid the
modem accepts the SMS within the limit of the day. -/
def Succeeds (state : Except Fault State) (input : Input) : Prop :=
  Completes state input ∧ ∀ s env sms telNum, state = .ok s → input = .commTask env → s.phase = .sending sms →
    env.phone (cfgIdUser1Phone + sms.user) = some telNum → setting.textIsValidPhone telNum = true →
      (s.smsLimiter + 1) % 2 ^ 32 < smsDayLimit ∧ env.sent = true

def Phase.Paid : Phase → Prop
  | .completing _ outcome => outcome = .accepted ∨ outcome = .unphoned
  | _ => True

def Completion.Paid (c : Completion) : Prop := c.outcome = .accepted ∨ c.outcome = .unphoned

theorem move_paid {env : Env} {s : State} (paid : Kept Phase.Paid Completion.Paid s)
    (succeeds : Succeeds setting (.ok s) (.commTask env)) {next : Except Fault State} (move : Move setting env s next) :
    Run.Unless noUser (Kept Phase.Paid Completion.Paid) next := by
  have underWay := paid.underWay
  cases move with
  | empty => exact ⟨trivial,paid.past⟩
  | cut => exact ⟨trivial,paid.past⟩
  | first => exact ⟨trivial,paid.past⟩
  | more => exact ⟨trivial,paid.past⟩
  | last => exact ⟨trivial,paid.past⟩
  | nobody => rfl
  | unread => exact ⟨trivial,paid.past⟩
  | unphoned => exact ⟨Or.inr rfl,paid.past⟩
  | sent sms telNum sending number valid =>
    obtain ⟨within,sent⟩ := succeeds.2 s env sms telNum rfl rfl sending number valid
    have accepted : (modemMainSmsSend env.sent s).1 = true := by
      rw [modemMainSmsSend]
      dsimp only
      rw [if_neg (Nat.not_le_of_lt within),sent]
    rw [accepted]
    exact ⟨Or.inl rfl,paid.past⟩
  | done b sms outcome completing =>
    rw [completing] at underWay
    refine ⟨trivial,fun c member => ?_⟩
    rcases List.mem_append.mp member with before | now
    · exact paid.past c before
    · cases List.mem_singleton.mp now
      exact underWay

/-- In a run without a failed send no event is lost. -/
theorem run_unlost (items : Nat → Item) (inputs : List Input)
    (succeed : Run.Admits (step setting) (Succeeds setting) (.ok (booted items)) inputs)
    (first rest : List Input) (split : inputs = first ++ rest) :
    Run.Unless noUser Unlost (Run.run (step setting) (.ok (booted items)) first) := by
  subst split
  have admitted := ((Run.admits_append _ _ _ first rest).mp succeed).1
  have kept : Run.Unless noUser (fun s => Inv s ∧ Kept Phase.Paid Completion.Paid s)
      (Run.run (step setting) (.ok (booted items)) first) :=
    run_kept setting (fun env s next _ paid succeeds move => move_paid setting paid succeeds move)
      (fun _ _ succeeds => succeeds.1) items trivial first admitted
  refine kept.mono fun s both => ⟨fun idle r member => ?_,fun c member r removed => ?_⟩
  · have holds := both.1.holds r member
    rw [idle] at holds
    exact holds
  · obtain ⟨inside,sent⟩ := (Completion.Own.removed_iff (both.1.own c member) r).mp removed
    obtain ⟨user,event⟩ := (both.1.own c member).own r inside sent
    exact ⟨user,event,both.2.past c member⟩

def others (user : Nat) (s : State) : List Record := (records s.smsBuf).filter fun r => r.user ≠ user

/-- The SMS to the user comes to its end, with whatever result. -/
def Phase.Ends (sms : Message) : Phase → Prop
  | .sending sms' => sms' = sms
  | .completing sms' _ => sms' = sms
  | _ => False

theorem move_others {env : Env} {s next : State} (inv : Inv s) {sms : Message} (ends : s.phase.Ends sms)
    (move : Move setting env s (.ok next)) : others sms.user next = others sms.user s := by
  have holds := inv.holds
  cases move with
  | empty b idle =>
    rw [idle] at ends
    exact False.elim ends
  | cut b r idle =>
    rw [idle] at ends
    exact False.elim ends
  | first b r strs idle =>
    rw [idle] at ends
    exact False.elim ends
  | more b sms' event r strs collecting =>
    rw [collecting] at ends
    exact False.elim ends
  | last b sms' event collecting =>
    rw [collecting] at ends
    exact False.elim ends
  | unread => rfl
  | unphoned => rfl
  | sent => rfl
  | done b sms' outcome completing _ left =>
    rw [completing] at ends holds
    obtain rfl : sms' = sms := ends
    rw [others,others,left,List.filter_filter]
    apply List.filter_congr
    intro r member
    have untouched : r.user ≠ sms'.user → r.status ≠ .processing :=
      fun other sent => other (InCall.own (holds r member) sent).1
    simpa using untouched

/-- In a run in which no call is cut short, the end of an SMS to one user leaves the
records of the others as they are. -/
theorem run_independent (items : Nat → Item) (inputs : List Input)
    (complete : Run.Admits (step setting) Completes (.ok (booted items)) inputs)
    (first : List Input) (env : Env) (rest : List Input) (split : inputs = first ++ .commTask env :: rest) (s next : State)
    (reached : Run.run (step setting) (.ok (booted items)) first = .ok s)
    (stepped : step setting (.ok s) (.commTask env) = .ok next) (sms : Message) (ends : s.phase.Ends sms) :
    others sms.user next = others sms.user s := by
  subst split
  have inv : Run.Unless noUser Inv (Run.run (step setting) (.ok (booted items)) first) :=
    Run.run_invariant (step setting) Completes (Run.Unless noUser Inv) (step_inv setting) _ first (booted_inv items)
      ((Run.admits_append _ _ _ first _).mp complete).1
  rw [reached] at inv
  have inv : Inv s := inv
  have move : Move setting env s (step setting (.ok s) (.commTask env)) := eventCommTask_moves inv.sound inv.filed env
  rw [stepped] at move
  exact move_others setting inv ends move

end Runs

section Loss

/-- `text_is_valid_phone` on texts without a sign. -/
def digitsOnly (telNum : List UInt8) : Bool :=
  3 ≤ telNum.length && telNum.length ≤ 20 && telNum.all fun c => 0x30 ≤ c && c ≤ 0x39

/-- `MAX_SMS_LEN` characters, and the default texts of an alarm at the door. -/
def factory : Setting where
  textIsValidPhone := digitsOnly
  appendStr := Text.appendWithin 458
  deviceName := ascii "Your alarm reports: "
  name := fun id => if id = 308 then some (ascii "Alarm") else if id = 403 then some (ascii "Door") else none

def doorEvent : Event := ⟨1,⟨24,1,1,12,0,0⟩,EventId.alarm.code,EventSource.door.code⟩

def doorAlarm (user : UInt16) : Input := .newEvent ⟨doorEvent,user,by decide,by decide⟩

def meeting (heap sent : Bool) : Env := ⟨heap,Event.erased,doorEvent.time,fun _ => some (ascii "112"),sent⟩

/-- A call with nothing else in between: the first record, no other, the send and its end. -/
def call (sent : Bool) : List Input := List.replicate 4 (.commTask (meeting true sent))

/-- The alarm of a user whose SMS the modem refuses is removed as delivered. -/
theorem refused_removed : ¬ ∀ (items : Nat → Item) (inputs : List Input),
    Run.Unless noUser Unlost (Run.run (step factory) (.ok (booted items)) inputs) := by
  intro always
  have unlost := always emptySlots (doorAlarm 0 :: call false)
  have seen : (Run.run (step factory) (.ok (booted emptySlots)) (doorAlarm 0 :: call false)).map
      (fun s => s.completions.map fun c : Completion => (c.removed.length,c.outcome)) = .ok [(1,Outcome.refused)] := by
    decide +kernel
  obtain ⟨s,ran,shown⟩ := Run.observed seen
  rw [ran] at unlost
  obtain ⟨c,member,shown⟩ := List.mem_map.mp (shown ▸ List.mem_singleton.mpr rfl)
  obtain ⟨removed,refused⟩ := Prod.mk.inj shown
  obtain ⟨r,only⟩ := List.length_eq_one_iff.mp removed
  have outcome := (Unlost.delivered unlost c member r (only ▸ List.mem_singleton.mpr rfl)).2.2
  rw [refused] at outcome
  exact absurd outcome (by decide)

theorem meeting_completes (state : Except Fault State) (sent : Bool) :
    Completes state (.commTask (meeting true sent)) := by
  intro s env _ called
  cases called
  exact ⟨fun _ _ => rfl,fun _ _ => nofun⟩

theorem doorAlarm_completes (state : Except Fault State) (user : UInt16) : Completes state (doorAlarm user) :=
  fun _ _ _ called => nomatch called

theorem meeting_succeeds {state : Except Fault State} (limiter : Nat) (seen : state.map State.smsLimiter = .ok limiter)
    (few : limiter < 49) : Succeeds factory state (.commTask (meeting true true)) := by
  refine ⟨meeting_completes state true,fun s env sms telNum same called _ _ _ => ?_⟩
  cases called
  obtain ⟨s',reached,shown⟩ := Run.observed seen
  cases Except.ok.inj (same.symm.trans reached)
  rw [shown,smsDayLimit]
  exact ⟨by omega,rfl⟩

theorem accepted_unlost : Run.Unless noUser Unlost
    (Run.run (step factory) (.ok (booted emptySlots)) (doorAlarm 0 :: call true)) := by
  refine run_unlost factory emptySlots (doorAlarm 0 :: call true) ⟨?_,?_,?_,?_,?_,trivial⟩ _ [] rfl
  · exact ⟨doorAlarm_completes _ 0,fun _ _ _ _ _ called => nomatch called⟩
  · exact meeting_succeeds 0 (by decide +kernel) (by decide)
  · exact meeting_succeeds 0 (by decide +kernel) (by decide)
  · exact meeting_succeeds 0 (by decide +kernel) (by decide)
  · exact meeting_succeeds 1 (by decide +kernel) (by decide)

/-- There is no memory for the SMS of the first user: the record stays in processing. The
SMS to the second user is sent. -/
def starved : List Input :=
  [doorAlarm 0,.commTask (meeting false true),doorAlarm 1] ++ List.replicate 3 (.commTask (meeting true true))

def Phase.user : Phase → Option Nat
  | .completing sms _ => some sms.user
  | _ => none

theorem Phase.user_ends {phase : Phase} {user : Nat} (own : phase.user = some user) :
    ∃ sms, phase.Ends sms ∧ sms.user = user := by
  cases phase with
  | completing sms outcome => exact ⟨sms,rfl,Option.some.inj own⟩
  | idle => exact nomatch own
  | collecting => exact nomatch own
  | sending => exact nomatch own

theorem starved_removed : ¬ ∀ (items : Nat → Item) (first : List Input) (env : Env) (s next : State),
    Run.run (step factory) (.ok (booted items)) first = .ok s → step factory (.ok s) (.commTask env) = .ok next →
      ∀ sms, s.phase.Ends sms → others sms.user next = others sms.user s := by
  intro always
  have before : (Run.run (step factory) (.ok (booted emptySlots)) starved).map
      (fun s => (s.phase.user,(others 1 s).length)) = .ok (some 1,1) := by decide +kernel
  have after : (Run.run (step factory) (.ok (booted emptySlots)) (starved ++ [.commTask (meeting true true)])).map
      (fun s => (others 1 s).length) = .ok 0 := by decide +kernel
  obtain ⟨s,ran,shown⟩ := Run.observed before
  obtain ⟨next,stepped,none⟩ := Run.observed after
  obtain ⟨own,one⟩ := Prod.mk.inj shown
  obtain ⟨sms,ends,user⟩ := Phase.user_ends own
  rw [Run.run_append,ran] at stepped
  have same := always emptySlots starved (meeting true true) s next ran stepped sms ends
  rw [user] at same
  rw [same,one] at none
  exact absurd none (by decide)

/-- The second user's alarm waits through a failed send to the first. -/
def served : List Input := [doorAlarm 0,doorAlarm 1] ++ List.replicate 3 (.commTask (meeting true false))

theorem served_independent : ∃ s next, Run.run (step factory) (.ok (booted emptySlots)) served = .ok s ∧
    step factory (.ok s) (.commTask (meeting true false)) = .ok next ∧ (others 0 s).length = 1 ∧ others 0 next = others 0 s := by
  have before : (Run.run (step factory) (.ok (booted emptySlots)) served).map
      (fun s => (s.phase.user,(others 0 s).length)) = .ok (some 0,1) := by decide +kernel
  have after : (Run.run (step factory) (.ok (booted emptySlots)) (served ++ [.commTask (meeting true false)])).map
      (fun _ => ()) = .ok () := by decide +kernel
  obtain ⟨s,ran,shown⟩ := Run.observed before
  obtain ⟨next,stepped,_⟩ := Run.observed after
  obtain ⟨own,one⟩ := Prod.mk.inj shown
  obtain ⟨sms,ends,user⟩ := Phase.user_ends own
  rw [Run.run_append,ran] at stepped
  have complete : Run.Admits (step factory) Completes (.ok (booted emptySlots)) (served ++ [.commTask (meeting true false)]) := by
    refine Run.admits_of_forall _ _ _ _ fun state input member => ?_
    have kinds : input = doorAlarm 0 ∨ input = doorAlarm 1 ∨ input = .commTask (meeting true false) := by
      simpa [served] using member
    rcases kinds with rfl | rfl | rfl
    · exact doorAlarm_completes state 0
    · exact doorAlarm_completes state 1
    · exact meeting_completes state false
  have same := run_independent factory emptySlots _ complete served (meeting true false) [] rfl s next ran stepped sms ends
  rw [user] at same
  exact ⟨s,next,ran,stepped,one,same⟩

end Loss

end JcaFirmware.Sms
