import JcaFirmware.Sms

/-! From the event setup to the SMS buffer: `event_task` reads the string of the group of
an event sign by sign and adds the event for every user that it finds there. The number
is not checked before `sms_send_to_user` asserts it. `parse_number` is a parameter. -/
namespace JcaFirmware.Sms
open EventBuf Foundation Numeral

def setupLimit : Nat := 30
def cfgIdEventSetup : Nat := 200

/-- `group` of `EVENT_SETUP`. -/
def eventGroup : List Nat := [3,3,1,1,1,1,2,2,0,0,0,1,1,3,3,3]

inductive Dispatch
  | sms (user : UInt16)
  | voice
  | cms
deriving DecidableEq, Repr

/-- What `event_task` adds while it is at an event, and the rest of the unit. -/
structure Dispatcher where
  todo : List Arrival
  sms : State

inductive Stimulus
  | process (event : Event) (id_lt : event.id < eventIdSize) (source_lt : event.source < eventSourceSize)
  | add
  | commTask (env : Env)
  | smsSend (sent : Bool)
  | limitersUpdate

section Loop

variable (setting : Setting) (parseNumber : List UInt8 → Option (Int × List UInt8)) (cfg : Nat → Option (List UInt8))

-- A text ends at its NUL, so the end of the list is one.
def dispatches : Nat → List UInt8 → List Dispatch
  | 0, _ => []
  | _ + 1, [] => []
  | limit + 1, c :: p =>
    if c = 0x53 then
      match parseNumber p with
      | some (user,p) => .sms (UInt16.ofInt user) :: dispatches limit p
      | none => dispatches limit p
    else if c = 0x56 then
      match parseNumber p with
      | some (_,p) => .voice :: dispatches limit p
      | none => dispatches limit p
    else if c = 0x43 then .cms :: dispatches limit p
    else if c = 0x2C then dispatches limit p
    else []

def setupText (event : Event) : Option (List UInt8) := cfg (cfgIdEventSetup + eventGroup.getD event.id.toNat 0)

def arrivals (event : Event) (id_lt : event.id < eventIdSize) (source_lt : event.source < eventSourceSize)
    (text : List UInt8) : List Arrival :=
  (dispatches parseNumber setupLimit text).filterMap fun
    | .sms user => some ⟨event,user,id_lt,source_lt⟩
    | _ => none

def dispatchStep (state : Except Fault Dispatcher) (stimulus : Stimulus) : Except Fault Dispatcher := do
  let d ← state
  match stimulus with
  | .process event id_lt source_lt =>
    match d.todo,setupText cfg event with
    | [],some text => .ok {d with todo := arrivals parseNumber event id_lt source_lt text}
    | _,_ => .ok d
  | .add =>
    match d.todo with
    | [] => .ok d
    | arrival :: todo => do
      let sms ← step setting (.ok d.sms) (.newEvent arrival)
      .ok ⟨todo,sms⟩
  | .commTask env => do
    let sms ← step setting (.ok d.sms) (.commTask env)
    .ok {d with sms := sms}
  | .smsSend sent => do
    let sms ← step setting (.ok d.sms) (.smsSend sent)
    .ok {d with sms := sms}
  | .limitersUpdate => do
    let sms ← step setting (.ok d.sms) .limitersUpdate
    .ok {d with sms := sms}

/-- A number that does no harm: one of a user, or the one that `event_buf_add_event`
refuses. -/
def Harmless (user : UInt16) : Prop := user.toNat < 4 ∨ user.toNat = userNone

/-- Every string of the setup yields harmless numbers only, modulo 2^16. -/
def Admissible : Prop :=
  ∀ group < 4, ∀ text, cfg (cfgIdEventSetup + group) = some text →
    ∀ user, .sms user ∈ dispatches parseNumber setupLimit text → Harmless user

end Loop

section Safety

def Phase.OfUser : Phase → Prop
  | .idle => True
  | .collecting sms _ => sms.user < 4
  | .sending sms => sms.user < 4
  | .completing _ _ => True

/-- Nobody but the users has a record, or gets an SMS. -/
structure Safe (s : State) : Prop where
  sound : Sound s.smsBuf
  filed : ∀ r ∈ records s.smsBuf, Filed r
  users : ∀ r ∈ records s.smsBuf, r.user < 4
  phase : s.phase.OfUser

variable (setting : Setting)

theorem Takes.users {old new : List Record} {user : Nat} {r : Record} (takes : Takes old new user r)
    (before : ∀ r' ∈ old, r'.user < 4) : ∀ r' ∈ new, r'.user < 4 :=
  takes.all (before r takes.mem) before

theorem move_safe {env : Env} {s : State} (safe : Safe s) {next : Except Fault State} (move : Move setting env s next) :
    ∃ s', next = .ok s' ∧ Safe s' := by
  have phase := safe.phase
  cases move with
  | empty b idle sound same => exact ⟨_,rfl,sound,same ▸ safe.filed,same ▸ safe.users,trivial⟩
  | cut b r idle sound takes => exact ⟨_,rfl,sound,takes.filed safe.filed,takes.users safe.users,trivial⟩
  | first b r strs idle sound takes =>
    exact ⟨_,rfl,sound,takes.filed safe.filed,takes.users safe.users,safe.users r takes.mem⟩
  | more b sms event r strs collecting sound takes =>
    exact ⟨_,rfl,sound,takes.filed safe.filed,takes.users safe.users,safe.users r takes.mem⟩
  | last b sms event collecting sound same =>
    rw [collecting] at phase
    exact ⟨_,rfl,sound,same ▸ safe.filed,same ▸ safe.users,phase⟩
  | nobody sms sending other =>
    rw [sending] at phase
    exact absurd phase (Nat.not_lt_of_le other)
  | unread => exact ⟨_,rfl,safe.sound,safe.filed,safe.users,trivial⟩
  | unphoned => exact ⟨_,rfl,safe.sound,safe.filed,safe.users,trivial⟩
  | sent => exact ⟨_,rfl,safe.sound,safe.filed,safe.users,trivial⟩
  | done b sms outcome completing sound left =>
    refine ⟨_,rfl,sound,fun r member => ?_,fun r member => ?_,trivial⟩
    · rw [left] at member
      exact safe.filed r (List.mem_filter.mp member).1
    · rw [left] at member
      exact safe.users r (List.mem_filter.mp member).1

theorem newEvent_safe {s : State} (safe : Safe s) (arrival : Arrival) (harmless : Harmless arrival.user) :
    ∃ s', step setting (.ok s) (.newEvent arrival) = .ok s' ∧ Safe s' := by
  obtain ⟨_,b,added,sound,adds⟩ := addEvent_spec safe.sound (some arrival.event) prioStd arrival.user.toNat
  refine ⟨{s with smsBuf := b},by rw [step,ok_bind]; dsimp only; rw [added,ok_bind],sound,?_,?_,safe.phase⟩
  · refine adds.all safe.filed fun e given somebody => ?_
    cases given
    exact ⟨somebody,arrival.id_lt,arrival.source_lt⟩
  · exact adds.all safe.users fun e _ somebody => harmless.resolve_right somebody

variable (parseNumber : List UInt8 → Option (Int × List UInt8)) (cfg : Nat → Option (List UInt8))

structure DispatchSafe (d : Dispatcher) : Prop where
  sms : Safe d.sms
  todo : ∀ arrival ∈ d.todo, Harmless arrival.user

theorem eventGroup_lt (n : Nat) : eventGroup.getD n 0 < 4 := by
  by_cases inside : n < eventGroup.length
  · rw [List.getD_eq_getElem _ _ inside]
    exact (by decide : ∀ g ∈ eventGroup, g < 4) _ (List.getElem_mem inside)
  · rw [List.getD_eq_default _ _ (Nat.le_of_not_lt inside)]
    decide

theorem dispatchStep_safe (admissible : Admissible parseNumber cfg) {d : Dispatcher} (safe : DispatchSafe d) (stimulus : Stimulus) :
    ∃ d', dispatchStep setting parseNumber cfg (.ok d) stimulus = .ok d' ∧ DispatchSafe d' := by
  rw [dispatchStep,ok_bind]
  cases stimulus with
  | process event id_lt source_lt =>
    dsimp only
    split
    · rename_i text none given
      refine ⟨_,rfl,safe.sms,fun arrival member => ?_⟩
      obtain ⟨dispatch,inside,becomes⟩ := List.mem_filterMap.mp member
      cases dispatch with
      | sms user =>
        cases becomes
        exact admissible _ (eventGroup_lt event.id.toNat) text given user inside
      | voice => exact nomatch becomes
      | cms => exact nomatch becomes
    · exact ⟨d,rfl,safe⟩
  | add =>
    dsimp only
    cases todo : d.todo with
    | nil => exact ⟨d,rfl,safe⟩
    | cons arrival rest =>
      have harmless := safe.todo
      rw [todo] at harmless
      obtain ⟨s',stepped,next⟩ := newEvent_safe setting safe.sms arrival (harmless arrival List.mem_cons_self)
      dsimp only
      rw [stepped]
      exact ⟨_,rfl,next,fun arrival member => harmless arrival (List.mem_cons_of_mem _ member)⟩
  | commTask env =>
    obtain ⟨s',stepped,next⟩ := move_safe setting safe.sms (eventCommTask_moves safe.sms.sound safe.sms.filed env)
    dsimp only
    rw [step,ok_bind]
    dsimp only
    rw [stepped]
    exact ⟨_,rfl,next,safe.todo⟩
  | smsSend sent =>
    dsimp only
    rw [step,ok_bind]
    dsimp only
    rw [modemMainSmsSend_state]
    exact ⟨_,rfl,⟨safe.sms.sound,safe.sms.filed,safe.sms.users,safe.sms.phase⟩,safe.todo⟩
  | limitersUpdate => exact ⟨_,rfl,⟨safe.sms.sound,safe.sms.filed,safe.sms.users,safe.sms.phase⟩,safe.todo⟩

end Safety

section Reached

variable (setting : Setting)

theorem addEvent_empty {b : Buf} (sound : Sound b) (empty : records b = []) (e : Event) (prio : Nat) {user : Nat} (somebody : user ≠ userNone) :
    ∃ b', addEvent b (some e) prio user = .ok (true,b') ∧ Sound b' ∧ records b' = [newRecord e prio user] := by
  obtain ⟨result,b',added,sound',adds⟩ := addEvent_spec sound (some e) prio user
  have last : b.lastIndex = indexNil := by
    have chained := sound.rep.final
    rw [List.map_eq_nil_iff.mp empty] at chained
    exact chained
  cases result with
  | true =>
    refine ⟨b',added,sound',?_⟩
    rcases adds with ⟨no,_⟩ | ⟨_,_,e',given,new | ⟨full,pre,r,post,old,_⟩⟩
    · exact absurd no (by decide)
    · cases given
      rw [new,empty,List.nil_append]
    · rw [empty] at old
      exact absurd old (by simp)
  | false =>
    -- With nothing stored yet the start slot is taken, and only the last step could fail.
    rw [addEvent] at added
    dsimp only at added
    rw [if_neg somebody,writeIndex,if_pos last] at added
    by_cases start : b.startIndex ≠ indexNil
    · rw [osAssert_true start,ok_bind,ok_bind] at added
      dsimp only at added
      rw [if_neg start] at added
      cases stored : storeLast b b.startIndex ⟨e,indexNil,0,prio % 16,flagUsed ||| flagActive,user,0⟩ with
      | error fault =>
        rw [stored] at added
        cases added
      | ok b =>
        rw [stored] at added
        cases added
    · rw [osAssert,if_neg start] at added
      cases added

/-- No call is under way and nothing waits. -/
structure Quiet (s : State) : Prop where
  idle : s.phase = .idle
  sound : Sound s.smsBuf
  empty : records s.smsBuf = []

theorem Quiet.stays {s : State} {env : Env} (quiet : Quiet s) : ∃ s', eventCommTask setting env s = .ok s' ∧ Quiet s' := by
  have none (r : Record) : r ∉ records s.smsBuf := by
    rw [quiet.empty]
    exact List.not_mem_nil
  have move : Move setting env s (eventCommTask setting env s) :=
    eventCommTask_moves quiet.sound (fun r member => absurd member (none r)) env
  generalize eventCommTask setting env s = next at move ⊢
  have idle := quiet.idle
  cases move
  case empty b _ sound same _ => exact ⟨_,rfl,rfl,sound,same.trans quiet.empty⟩
  case cut b r _ _ takes _ => exact absurd takes.mem (none r)
  case first b r _ _ _ takes _ => exact absurd takes.mem (none r)
  all_goals simp_all only [reduceCtorEq]

theorem Quiet.calls {s : State} {env : Env} (quiet : Quiet s) (calls : Nat) :
    ∃ s', Run.run (step setting) (.ok s) (List.replicate calls (.commTask env)) = .ok s' ∧ Quiet s' := by
  induction calls generalizing s with
  | zero => exact ⟨s,rfl,quiet⟩
  | succ calls ih =>
    obtain ⟨s',stepped,quiet'⟩ := quiet.stays setting
    obtain ⟨last,ran,past⟩ := ih quiet'
    refine ⟨last,?_,past⟩
    rw [List.replicate_succ,Run.run_cons,← ran,← stepped]
    rfl

/-- One record, and where the call is with it. -/
structure Single (s : State) (r : Record) : Prop where
  sound : Sound s.smsBuf
  only : records s.smsBuf = [r]
  filed : Filed r

theorem Takes.single {new : List Record} {user : Nat} {r taken : Record} (takes : Takes [r] new user taken) :
    taken = r ∧ new = [{r with status := .processing}] := by
  obtain ⟨pre,post,split,_,_,rfl⟩ := takes
  cases pre with
  | nil =>
    obtain ⟨rfl,rfl⟩ := List.cons.inj split
    exact ⟨rfl,rfl⟩
  | cons other pre => exact absurd (List.cons.inj split).2 (by simp)

def obliging : Env := ⟨true,Event.erased,⟨0,0,0,0,0,0⟩,fun _ => some [],false⟩

theorem Single.records_filed {s : State} {r : Record} (single : Single s r) : ∀ r' ∈ records s.smsBuf, Filed r' := by
  intro r' member
  rw [single.only] at member
  exact List.mem_singleton.mp member ▸ single.filed

theorem Single.move {s : State} {r : Record} (single : Single s r) : Move setting obliging s (eventCommTask setting obliging s) :=
  eventCommTask_moves single.sound single.records_filed obliging

theorem Single.first {s : State} {r : Record} (single : Single s r) (waits : r.status = .pending) (idle : s.phase = .idle) :
    ∃ s' sms event, eventCommTask setting obliging s = .ok s' ∧ s'.phase = .collecting sms event ∧ sms.user = r.user ∧
      Single s' {r with status := .processing} := by
  have move := single.move setting
  generalize eventCommTask setting obliging s = next at move ⊢
  have only := single.only
  cases move
  case empty none => exact absurd ⟨waits,Or.inl rfl⟩ (none r (by rw [only]; exact List.mem_singleton.mpr rfl))
  case cut heap => exact absurd heap (by decide)
  case first b taken strs _ sound takes _ =>
    rw [only] at takes
    obtain ⟨rfl,new⟩ := takes.single
    exact ⟨_,_,_,rfl,rfl,rfl,sound,new,single.filed⟩
  all_goals simp_all only [reduceCtorEq]

theorem Single.last {s : State} {r : Record} (single : Single s r) (sent : r.status = .processing) {sms : Message} {event : Event}
    (collecting : s.phase = .collecting sms event) :
    ∃ s', eventCommTask setting obliging s = .ok s' ∧ s'.phase = .sending sms ∧ Single s' r := by
  have move := single.move setting
  generalize eventCommTask setting obliging s = next at move ⊢
  have only := single.only
  cases move
  case more b _ _ taken strs _ sound takes _ =>
    rw [only] at takes
    obtain ⟨rfl,_⟩ := takes.single
    obtain ⟨_,_,_,⟨pending,_⟩,_⟩ := takes
    exact absurd (pending.symm.trans sent) (by decide)
  case last b sms' event' phase sound same none =>
    cases collecting.symm.trans phase
    exact ⟨_,rfl,rfl,sound,same.trans only,single.filed⟩
  all_goals simp_all only [reduceCtorEq]

theorem Single.send {s : State} {r : Record} (single : Single s r) {sms : Message} (sending : s.phase = .sending sms) :
    (4 ≤ sms.user ∧ eventCommTask setting obliging s = .error noUser) ∨
      sms.user < 4 ∧ ∃ s' outcome, eventCommTask setting obliging s = .ok s' ∧ s'.phase = .completing sms outcome ∧ Single s' r := by
  have move := single.move setting
  generalize eventCommTask setting obliging s = next at move ⊢
  cases move
  case nobody sms' phase other =>
    cases sending.symm.trans phase
    exact Or.inl ⟨other,rfl⟩
  case unread sms' _ number _ => exact absurd number (by simp [obliging])
  case unphoned sms' phase own =>
    cases sending.symm.trans phase
    exact Or.inr ⟨own,_,_,rfl,rfl,single.sound,single.only,single.filed⟩
  case sent sms' _ phase _ _ own =>
    cases sending.symm.trans phase
    exact Or.inr ⟨own,_,_,rfl,rfl,single.sound,single.only,single.filed⟩
  all_goals simp_all only [reduceCtorEq]

theorem Single.done {s : State} {r : Record} (single : Single s r) (sent : r.status = .processing) {sms : Message}
    {outcome : Outcome} (completing : s.phase = .completing sms outcome) :
    ∃ s', eventCommTask setting obliging s = .ok s' ∧ Quiet s' := by
  have move := single.move setting
  generalize eventCommTask setting obliging s = next at move ⊢
  cases move
  case done b _ _ _ sound left =>
    refine ⟨_,rfl,rfl,sound,?_⟩
    rw [single.only] at left
    rw [left]
    simp [sent]
  all_goals simp_all only [reduceCtorEq]

/-- A call for a single record asserts its user at the third step, or leaves nothing. -/
theorem Single.call {s : State} {r : Record} (single : Single s r) (waits : r.status = .pending) (idle : s.phase = .idle) :
    (4 ≤ r.user ∧ Run.run (step setting) (.ok s) (List.replicate 4 (.commTask obliging)) = .error noUser) ∨
      r.user < 4 ∧ ∃ s', Run.run (step setting) (.ok s) (List.replicate 4 (.commTask obliging)) = .ok s' ∧ Quiet s' := by
  obtain ⟨s₁,sms,event,first,collecting,own,single₁⟩ := single.first setting waits idle
  obtain ⟨s₂,last,sending,single₂⟩ := single₁.last setting rfl collecting
  have run : Run.run (step setting) (.ok s) (List.replicate 4 (.commTask obliging)) =
      step setting (eventCommTask setting obliging s₂) (.commTask obliging) := by
    change List.foldl _ (eventCommTask setting obliging s) (List.replicate 3 _) = _
    rw [first]
    change List.foldl _ (eventCommTask setting obliging s₁) (List.replicate 2 _) = _
    rw [last]
    rfl
  rw [run]
  rcases single₂.send setting sending with ⟨other,asserted⟩ | ⟨known,s₃,outcome,sent,completing,single₃⟩
  · rw [asserted,← own]
    exact Or.inl ⟨other,rfl⟩
  · rw [sent,← own]
    exact Or.inr ⟨known,single₃.done setting rfl completing⟩

end Reached

section Strings

variable (setting : Setting) (parseNumber : List UInt8 → Option (Int × List UInt8)) (cfg : Nat → Option (List UInt8))

/-- The next add, and a call for it. -/
def serve : List Stimulus := .add :: List.replicate 4 (.commTask obliging)

theorem run_calls (s : State) (todo : List Arrival) (calls : Nat) :
    Run.run (dispatchStep setting parseNumber cfg) (.ok ⟨todo,s⟩) (List.replicate calls (.commTask obliging)) =
      (Run.run (step setting) (.ok s) (List.replicate calls (.commTask obliging))).map (Dispatcher.mk todo) := by
  induction calls generalizing s with
  | zero => rfl
  | succ calls ih =>
    have stops (fault : Fault) : Run.run (step setting) (.error fault) (List.replicate calls (.commTask obliging)) = .error fault ∧
        Run.run (dispatchStep setting parseNumber cfg) (.error fault) (List.replicate calls (.commTask obliging)) = .error fault := by
      clear ih
      induction calls with
      | zero => exact ⟨rfl,rfl⟩
      | succ calls ih => exact ih
    rw [List.replicate_succ,List.replicate_succ,Run.run_cons,Run.run_cons,dispatchStep,ok_bind]
    dsimp only
    cases stepped : step setting (.ok s) (.commTask obliging) with
    | ok s' =>
      rw [ok_bind]
      exact ih s'
    | error fault =>
      rw [(stops fault).1]
      exact (stops fault).2

/-- Served one by one, a number that is not harmless is asserted. -/
theorem serve_quiet {s : State} (quiet : Quiet s) (arrival : Arrival) (todo : List Arrival) :
    (Harmless arrival.user ∧ ∃ s', Quiet s' ∧
      Run.run (dispatchStep setting parseNumber cfg) (.ok ⟨arrival :: todo,s⟩) serve = .ok ⟨todo,s'⟩) ∨
        Run.run (dispatchStep setting parseNumber cfg) (.ok ⟨arrival :: todo,s⟩) serve = .error noUser := by
  have added {next : State} (stored : step setting (.ok s) (.newEvent arrival) = .ok next) :
      Run.run (dispatchStep setting parseNumber cfg) (.ok ⟨arrival :: todo,s⟩) serve =
        (Run.run (step setting) (.ok next) (List.replicate 4 (.commTask obliging))).map (Dispatcher.mk todo) := by
    rw [serve,Run.run_cons,dispatchStep,ok_bind]
    dsimp only
    rw [stored,ok_bind]
    exact run_calls setting parseNumber cfg next todo 4
  by_cases nobody : arrival.user.toNat = userNone
  · have stored : step setting (.ok s) (.newEvent arrival) = .ok s := by
      rw [step,ok_bind]
      dsimp only
      rw [addEvent]
      dsimp only
      rw [if_pos nobody]
      rfl
    obtain ⟨s',ran,quiet'⟩ := quiet.calls setting 4
    refine Or.inl ⟨Or.inr nobody,s',quiet',?_⟩
    rw [added stored,ran]
    rfl
  · obtain ⟨b,stored,sound,only⟩ := addEvent_empty quiet.sound quiet.empty arrival.event prioStd nobody
    have single : Single {s with smsBuf := b} (newRecord arrival.event prioStd arrival.user.toNat) :=
      ⟨sound,only,nobody,arrival.id_lt,arrival.source_lt⟩
    have stored : step setting (.ok s) (.newEvent arrival) = .ok {s with smsBuf := b} := by
      rw [step,ok_bind]
      dsimp only
      rw [stored,ok_bind]
    rw [added stored]
    rcases single.call setting rfl quiet.idle with ⟨_,asserted⟩ | ⟨own,s',ran,quiet'⟩
    · rw [asserted]
      exact Or.inr rfl
    · rw [ran]
      exact Or.inl ⟨Or.inl own,s',quiet',rfl⟩

theorem todo_harmless (todo : List Arrival) {s : State} (quiet : Quiet s)
    (always : ∀ stimuli, ∃ d, Run.run (dispatchStep setting parseNumber cfg) (.ok ⟨todo,s⟩) stimuli = .ok d) :
    ∀ arrival ∈ todo, Harmless arrival.user := by
  induction todo generalizing s with
  | nil => exact fun _ member => absurd member List.not_mem_nil
  | cons first todo ih =>
    rcases serve_quiet setting parseNumber cfg quiet first todo with ⟨harmless,s',quiet',served⟩ | asserted
    · intro arrival member
      rcases List.mem_cons.mp member with rfl | rest
      · exact harmless
      · refine ih quiet' (fun stimuli => ?_) arrival rest
        obtain ⟨d,ran⟩ := always (serve ++ stimuli)
        rw [Run.run_append,served] at ran
        exact ⟨d,ran⟩
    · obtain ⟨d,ran⟩ := always serve
      exact absurd (asserted.symm.trans ran) nofun

def started (items : Nat → Item) : Dispatcher := ⟨[],booted items⟩

/-- An event of each group. -/
def groupEvent (group : Nat) : EventId := [EventId.alarm,.powerFail,.set,.bootUp].getD group .alarm

theorem groupEvent_group {group : Nat} (inside : group < 4) : eventGroup.getD (groupEvent group).code.toNat 0 = group := by
  revert group
  decide

/-- No run asserts exactly when the strings of the setup hold only harmless numbers. -/
theorem dispatch_safe_iff :
    (∀ items stimuli, ∃ d, Run.run (dispatchStep setting parseNumber cfg) (.ok (started items)) stimuli = .ok d) ↔
      Admissible parseNumber cfg := by
  constructor
  · intro always group inside text given user member
    let event : Event := ⟨0,⟨0,0,0,0,0,0⟩,(groupEvent group).code,EventSource.unit.code⟩
    have id_lt : event.id < eventIdSize := EventId.code_lt _
    have source_lt : event.source < eventSourceSize := EventSource.code_lt _
    have quiet : Quiet (booted emptySlots) := by
      obtain ⟨sound,none⟩ := init_sound emptySlots smsBufSize (by decide) (by decide)
      exact ⟨rfl,sound,none⟩
    have processed : dispatchStep setting parseNumber cfg (.ok (started emptySlots)) (.process event id_lt source_lt) =
        .ok ⟨arrivals parseNumber event id_lt source_lt text,booted emptySlots⟩ := by
      have setup : setupText cfg event = some text := by
        rw [setupText,groupEvent_group inside]
        exact given
      rw [dispatchStep,ok_bind]
      dsimp only
      rw [setup]
      rfl
    have after (stimuli : List Stimulus) : ∃ d, Run.run (dispatchStep setting parseNumber cfg)
        (.ok ⟨arrivals parseNumber event id_lt source_lt text,booted emptySlots⟩) stimuli = .ok d := by
      obtain ⟨d,ran⟩ := always emptySlots (.process event id_lt source_lt :: stimuli)
      rw [Run.run_cons,processed] at ran
      exact ⟨d,ran⟩
    have listed : (⟨event,user,id_lt,source_lt⟩ : Arrival) ∈ arrivals parseNumber event id_lt source_lt text :=
      List.mem_filterMap.mpr ⟨.sms user,member,rfl⟩
    exact todo_harmless setting parseNumber cfg _ quiet after _ listed
  · intro admissible items stimuli
    have safe : DispatchSafe (started items) := by
      have inv := booted_inv items
      obtain ⟨sound,none⟩ := init_sound items smsBufSize (by decide) (by decide)
      refine ⟨⟨inv.sound,inv.filed,fun r member => ?_,trivial⟩,fun _ member => absurd member List.not_mem_nil⟩
      rw [started,booted,none] at member
      exact absurd member List.not_mem_nil
    obtain ⟨d,ran,_⟩ := Run.run_total (dispatchStep setting parseNumber cfg) DispatchSafe
      (fun d stimulus safe => dispatchStep_safe setting parseNumber cfg admissible safe stimulus) _ stimuli safe
    exact ⟨d,ran⟩

end Strings

section Numbers

/-- `parse_number` on unsigned decimal numbers. -/
def unsignedNumber (text : List UInt8) : Option (Int × List UInt8) :=
  match text with
  | [] => none
  | c :: _ => if (digitOf 10 c).isSome then some (let (n,rest) := readDigits 10 0 text; (Int.ofNat n,rest)) else none

/-- An alarm setup for a user who does not exist. -/
def userSeven (id : Nat) : Option (List UInt8) := if id = cfgIdEventSetup then some (ascii "S7") else some []

theorem userSeven_asserts :
    ¬ ∀ items stimuli, ∃ d, Run.run (dispatchStep factory unsignedNumber userSeven) (.ok (started items)) stimuli = .ok d := by
  intro always
  obtain ⟨d,ran⟩ := always emptySlots (.process doorEvent (by decide) (by decide) :: serve)
  have asserted : (Run.run (dispatchStep factory unsignedNumber userSeven) (.ok (started emptySlots))
      (.process doorEvent (by decide) (by decide) :: serve)).map (fun _ => ()) = .error noUser := by decide +kernel
  rw [ran] at asserted
  exact nomatch asserted

end Numbers

end JcaFirmware.Sms
