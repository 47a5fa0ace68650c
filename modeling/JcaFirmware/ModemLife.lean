import JcaFirmware.ModemOrders
import JcaFirmware.ModemSetup

/-! The states of the modem over whole runs: they follow the edges of the state machine or a command of the operator, a modem
that is taken for started is configured, and there is no way from an error back to the network but through a modem that was
switched off. -/
namespace JcaFirmware.ModemLife
open Foundation Numeral
open ModemAt ModemStart ModemMain ModemKeeps ModemAnswers ModemSetup
open ModemOrders (begun)

section Lives

/-- The edges of the state machine itself, with the network as it is found. -/
def edge : MainState → MainState → Bool → Bool
  | .off,.on,_ => true
  | .on,.init,_ => true
  | .on,.error,_ => true
  | .init,.netOk,netReady => netReady
  | .init,.error,_ => true
  | .netOk,.init,netReady => !netReady
  | .netOk,.error,_ => true
  | .error,.off,_ => true
  | _,_,_ => false

/-- The states a command of the operator leads to. -/
def target : Command → MainState → Bool
  | .on,.on => true
  | .off,.off => true
  | .start,.init => true
  | .start,.error => true
  | .debug,.debug => true
  | _,_ => false

/-- The command that is being executed behind the events, newest first. -/
def underway : List ModemAt.Event → Option Command
  | [] => none
  | .executing command :: _ => some command
  | .executed _ :: _ => none
  | _ :: past => underway past

def stateOf : List ModemAt.Event → MainState
  | [] => .off
  | .state _ new _ :: _ => new
  | _ :: past => stateOf past

/-- In its state the modem was told to switch off. -/
def ToldOff : List ModemAt.Event → Prop
  | [] => False
  | .state _ _ _ :: _ => False
  | .sent cmd _ :: past => cmd = atOff ∨ ToldOff past
  | _ :: past => ToldOff past

/-- A state may follow: on an edge, or as the command that is being executed wants, never off without having told so, and never
initialised, unless the network was lost, without having confirmed the configuration. -/
structure May (past : List ModemAt.Event) (new : MainState) (netReady : Bool) : Prop where
  way : edge (stateOf past) new netReady = true ∨ ∃ command, underway past = some command ∧ target command new = true
  off : new = .off → ToldOff past
  init : new = .init → stateOf past ≠ .netOk → AllConfirmed modemConfig past

/-- What a life of the modem looks like. -/
def Lifecycle : List ModemAt.Event → Prop
  | [] => True
  | .state old new netReady :: past => (old = stateOf past ∧ new ≠ old ∧ May past new netReady) ∧ Lifecycle past
  | _ :: past => Lifecycle past

/-- With the network nothing is left of the errors before. -/
structure Life (w : World) : Prop where
  cycle : Lifecycle w.trace
  state : stateOf w.trace = w.main.state
  healed : w.main.state = .netOk → w.main.errCnt = 0 ∧ w.main.errWaitTime = 0
  fresh : Fresh w

end Lives

section Frames
variable {sdk : Sdk}

theorem free_life : Free sdk Life where
  time now w life := ⟨life.cycle,life.state,life.healed,(@free_fresh sdk).time now w life.fresh⟩
  hear line w life := ⟨life.cycle,life.state,life.healed,(@free_fresh sdk).hear line w life.fresh⟩
  userStr userStr w life := ⟨life.cycle,life.state,life.healed,(@free_fresh sdk).userStr userStr w life.fresh⟩
  modem m w same life := ⟨life.cycle,life.state,life.healed,(@free_fresh sdk).modem m w same life.fresh⟩
  wake w life := ⟨life.cycle,life.state,life.healed,(@free_fresh sdk).wake w life.fresh⟩
  awake w life := ⟨life.cycle,life.state,life.healed,(@free_fresh sdk).awake w life.fresh⟩
  transmit cmd w plain woken life := ⟨life.cycle,life.state,life.healed,(@free_fresh sdk).transmit cmd w plain woken life.fresh⟩
  pwrkey w life := ⟨life.cycle,life.state,life.healed,(@free_fresh sdk).pwrkey w life.fresh⟩
  rqState state w life := ⟨life.cycle,life.state,life.healed,(@free_fresh sdk).rqState state w life.fresh⟩
  order command w life := by
    have fresh := (@free_fresh sdk).order command w life.fresh
    unfold World.modemMainCommand at fresh ⊢
    split_ifs at fresh ⊢
    all_goals exact ⟨life.cycle,life.state,life.healed,fresh⟩
  configure cfg w life := ⟨life.cycle,life.state,life.healed,(@free_fresh sdk).configure cfg w life.fresh⟩
  entry pin w awake :=
    have fresh := (@free_fresh sdk).entry pin w ⟨awake.1.fresh,awake.2⟩
    ⟨⟨awake.1.cycle,awake.1.state,awake.1.healed,fresh.1⟩,fresh.2⟩

theorem free_state (state : MainState) : Free sdk fun w => w.main.state = state :=
  @free_events sdk (fun _ now => now = state) fun _ _ _ _ _ same => same

theorem free_underway (command : Command) : Free sdk fun w => underway w.trace = some command :=
  @free_events sdk (fun past _ => underway past = some command) fun e past _ _ other same => by
    cases e with
    | executing other' => exact absurd rfl (other other').1
    | executed other' => exact absurd rfl (other other').2
    | _ => exact same

theorem free_toldOff : Free sdk fun w => ToldOff w.trace :=
  @free_events sdk (fun past _ => ToldOff past) fun e past _ same _ told => by
    cases e with
    | state old new netReady => exact absurd rfl (same old new netReady)
    | sent cmd dtrLow => exact Or.inr told
    | _ => exact told

end Frames

section Steps
variable {sdk : Sdk} {inner : World → Prop}

theorem entered_netOk (main : Main) (now : Nat) : (entered main now .netOk).errCnt = 0 ∧ (entered main now .netOk).errWaitTime = 0 := by
  unfold entered
  exact ⟨rfl,rfl⟩

theorem setState_life {new : MainState}
    (may : ∀ w, Life w → inner w → May w.trace new w.modem.flags.netReady) :
    Task.Triple Life inner (setState new) fun _ _ => True := by
  refine .modify fun w life start => ⟨?_,trivial⟩
  unfold World.setState
  split_ifs with same
  · exact life
  exact {
    cycle := ⟨⟨life.state.symm,same,may w life start⟩,life.cycle⟩
    state := rfl
    healed := fun netOk => by
      obtain rfl : new = .netOk := netOk
      exact entered_netOk w.main w.now
    fresh := life.fresh.later {entered w.main w.now new with state := new} nofun }

theorem Life.setMain {w : World} (life : Life w) (f : Main → Main) (state : (f w.main).state = w.main.state)
    (healed : w.main.state = .netOk → (f w.main).errCnt = 0 ∧ (f w.main).errWaitTime = 0) : Life (World.setMain f w) where
  cycle := life.cycle
  state := life.state.trans state.symm
  healed netOk := healed (state.symm.trans netOk)
  fresh := ⟨life.fresh.ok,life.fresh.response⟩

theorem setMain_state {w : World} {f : Main → Main} {state : MainState} (same : (f w.main).state = w.main.state)
    (before : w.main.state = state) : (World.setMain f w).main.state = state := same.trans before

/-- The modem is told to switch off before anything else is done. -/
theorem hwOff_tells {always : World → Prop} (free : Free sdk always) :
    Task.Triple always (fun _ => True) (hwOff sdk false) fun _ w => ToldOff w.trace := by
  have closed := (free.and (@free_toldOff sdk)).toClosed
  have tells : Task.Triple always (fun _ => True) (modemAtCmdNolock sdk.modem false atOff) fun _ (w : World) => ToldOff w.trace := by
    refine .bind (fun _ (w : World) => ToldOff w.trace) (.modify fun w holds _ => ?_) fun _ => (osDelay_keeps closed false).triple
    exact ⟨free.toClosed.sent_off w holds,Or.inl rfl⟩
  have asks : Task.Triple always (fun _ => True) (atCmdAndResponseOk sdk.modem false atOff none) fun _ (w : World) => ToldOff w.trace :=
    .bind (fun _ (w : World) => ToldOff w.trace) tells fun _ => (Task.Keeps.bind (modemAtResponse_keeps closed false none _) fun _ =>
      .bind (.read _) fun _ => .pure _).triple
  refine .bind _ (.bind _ asks fun _ => (Task.Keeps.pure _).triple) fun _ => .ite (fun _ => (Task.Keeps.pure ()).triple) fun _ => ?_
  exact (Task.Keeps.bind (osDelay_keeps closed false) fun _ => modemAtCmdNolock_keeps closed false closed.sent_off).triple

/-- A command leads to its targets, where they may follow. -/
theorem modemCommandExec_life (free : Free sdk inner) (command : Command)
    (may : ∀ w new, Life w → inner w → target command new = true → edge (stateOf w.trace) new w.modem.flags.netReady = true ∨
      ∃ command, underway w.trace = some command ∧ target command new = true) :
    Task.Triple Life inner (modemCommandExec sdk command) fun _ _ => True := by
  have both := free_life.and free
  cases command with
  | on =>
    refine .bind (fun _ => inner) (hwOn_keeps both.toClosed).triple fun _ => setState_life fun w life start => ?_
    exact ⟨may w .on life start rfl,nofun,nofun⟩
  | off =>
    refine .bind _ (hwOff_tells both).frame fun _ => setState_life fun w life start => ?_
    exact ⟨may w .off life start.1 rfl,fun _ => start.2,nofun⟩
  | start =>
    refine .bind _ (modemStart_confirms both fun w both => both.1.fresh).frame fun _ => .ite (fun started => ?_) fun _ => ?_
    · exact setState_life fun w life start => ⟨may w .init life start.1 rfl,nofun,fun _ _ => start.2 started⟩
    · exact setState_life fun w life start => ⟨may w .error life start.1 rfl,nofun,nofun⟩
  | reset => exact (hwOff_keeps both.toClosed false).triple.weaken (fun _ _ start => start) fun _ _ _ => trivial
  | debug => exact setState_life fun w life start => ⟨may w .debug life start rfl,nofun,nofun⟩
  | none | data | hb | other => exact .pure fun _ _ _ => trivial

theorem postedTask_life : Task.Keeps Life (postedTask sdk) := by
  refine .bind (.read _) fun command => .ite ?_ (.pure ())
  refine Task.Triple.bind (fun _ w => underway w.trace = some command) (.modify fun w life _ => ?_) fun _ => ?_
  · exact ⟨⟨life.cycle,life.state,life.healed,life.fresh.later w.main nofun⟩,rfl⟩
  refine .bind (fun _ _ => True) (modemCommandExec_life (free_underway command) command fun w new _ executing wanted => ?_) fun _ => ?_
  · exact Or.inr ⟨command,executing,wanted⟩
  · exact .modify fun w life _ => ⟨⟨life.cycle,life.state,life.healed,life.fresh.later {w.main with command := .none} nofun⟩,trivial⟩

theorem initTask_life (now : Nat) : Task.Triple Life (fun w => w.main.state = .init) (initTask sdk now) fun _ _ => True := by
  have failed : Task.Triple Life (fun w : World => w.main.state = .init) (setState .error : Task World Tick Unit) fun _ _ => True :=
    setState_life fun w life init => ⟨Or.inl (by rw [life.state,init]; rfl),nofun,nofun⟩
  refine .bind (fun ready w => w.main.state = .init ∧ w.modem.flags.netReady = ready) (.read fun w _ init => ⟨init,rfl⟩) fun ready => ?_
  refine .ite (fun some => setState_life fun w life start => ?_) fun _ => ?_
  · exact ⟨Or.inl (by rw [life.state,start.1,start.2,some]; rfl),nofun,nofun⟩
  refine .bind (fun _ w => w.main.state = .init) ?_ fun _ => .ite (fun _ => failed) fun _ => ?_
  · exact ((modemAtOkCmd_keeps (free_life.and (free_state .init)).toClosed (by decide)).triple).weaken (fun _ _ start => start.1) fun _ _ init => init
  refine .bind (fun _ w => w.main.state = .init) (.modify fun w life init => ⟨life.setMain _ rfl life.healed,setMain_state rfl init⟩) fun _ => ?_
  refine .bind (fun _ w => w.main.state = .init) (.read fun _ _ init => init) fun _ => .ite (fun _ => ?_) fun _ => .pure fun _ _ _ => trivial
  refine .bind (fun _ w => w.main.state = .init) (.modify fun w life init => ⟨life.setMain _ rfl fun netOk => ?_,setMain_state rfl init⟩) fun _ =>
    failed
  exact nomatch init.symm.trans netOk

theorem netOkTask_life (now : Nat) : Task.Triple Life (fun w => w.main.state = .netOk) (netOkTask sdk now) fun _ _ => True := by
  refine .bind (fun ready w => w.main.state = .netOk ∧ w.modem.flags.netReady = ready) (.read fun w _ netOk => ⟨netOk,rfl⟩) fun ready => ?_
  refine .ite (fun lost => setState_life fun w life start => ?_) fun _ => ?_
  · refine ⟨Or.inl (by rw [life.state,start.1,start.2,Bool.eq_false_of_not_eq_true lost]; rfl),nofun,fun _ other => ?_⟩
    exact absurd (life.state.trans start.1) other
  refine .bind (fun _ w => w.main.state = .netOk) ?_ fun _ => .ite (fun _ => setState_life fun w life netOk => ?_) fun _ => ?_
  · exact ((modemCheck_keeps (free_life.and (free_state .netOk)).toClosed).triple).weaken (fun _ _ start => start.1) fun _ _ netOk => netOk
  · exact ⟨Or.inl (by rw [life.state,netOk]; rfl),nofun,nofun⟩
  · exact .modify fun w life _ => ⟨life.setMain _ rfl life.healed,trivial⟩

/-- The state machine gives a command only where its targets are on the edges of the state. -/
theorem machine_life {command : Command} {state : MainState}
    (edges : ∀ new netReady, target command new = true → edge state new netReady = true) :
    Task.Triple Life (fun w => w.main.state = state) (modemCommandExec sdk command) fun _ _ => True :=
  modemCommandExec_life (free_state state) command fun w new life same wanted => Or.inl (by
    rw [life.state,same]
    exact edges new _ wanted)

theorem stateTask_life (main : Main) (now : Nat) :
    Task.Triple Life (fun w => w.main.state = main.state) (stateTask sdk main now) fun _ _ => True := by
  have rests : Task.Triple Life (fun w : World => w.main.state = main.state) (pure () : Task World Tick Unit) fun _ _ => True :=
    .pure fun _ _ _ => trivial
  unfold stateTask
  cases state : main.state with
  | debug =>
    rw [state] at rests
    exact rests
  | off =>
    rw [state] at rests
    refine .ite (fun _ => rests) fun _ => .ite (fun _ => rests) fun _ => .ite (fun _ => ?_) fun _ => rests
    exact machine_life fun new _ wanted => by
      cases new
      all_goals first | rfl | exact nomatch wanted
  | on =>
    rw [state] at rests
    exact .ite (fun _ => rests) fun _ => machine_life fun new _ wanted => by
      cases new
      all_goals first | rfl | exact nomatch wanted
  | error =>
    rw [state] at rests
    refine .ite (fun _ => rests) fun _ => .bind (fun _ _ => True) (machine_life fun new _ wanted => ?_) fun _ => ?_
    · cases new
      all_goals first | rfl | exact nomatch wanted
    refine Task.Keeps.bind (.read _) fun _ => .ite (.modify fun w life => ?_) (.pure ())
    exact life.setMain _ rfl life.healed
  | init => exact initTask_life now
  | netOk =>
    rw [state] at rests
    exact .ite (fun _ => rests) fun _ => netOkTask_life now

theorem stateMachineTask_life : Task.Keeps Life (stateMachineTask sdk) := by
  refine .bind (.read _) fun now => Task.Triple.bind (fun main w => w.main.state = main.state) (.read fun _ _ _ => rfl) fun main => ?_
  exact .ite (fun _ => .pure fun _ _ _ => trivial) fun _ => stateTask_life main now

theorem statusTask_life (w : World) (life : Life w) : Life (World.statusTask w) := by
  unfold World.statusTask
  split_ifs
  · exact life.setMain (fun main => {main with modemError := false, errWaitTime := 0}) rfl fun netOk => ⟨(life.healed netOk).1,rfl⟩
  · exact life
  · exact life
  · exact life
  · exact life.setMain (fun main => {main with modemError := true}) rfl life.healed

theorem sleepTask_life : Task.Keeps Life (sleepTask sdk) := by
  refine .bind (.read _) fun _ => .ite ?_ (.pure ())
  refine Task.Triple.bind _ (modemAtLock_wakes free_life.toClosed) fun _ => .modify fun w life _ => ?_
  exact ⟨⟨life.cycle,life.state,life.healed,life.fresh.ok,life.fresh.response⟩,trivial⟩

theorem rounds_life (n : Nat) : Task.Keeps Life (rounds sdk n) := by
  refine .loop (.bind ?_ fun _ => .next (free_life.toClosed.tick false)) n
  refine .bind postedTask_life fun _ => .bind stateMachineTask_life fun _ => ?_
  exact .bind (.modify statusTask_life) fun _ => sleepTask_life

/-- In every run, whatever the operator and the other tasks do, the states of the modem follow the edges of the state machine or
the command that is being executed, the modem is never taken for switched off without having been told so, nor for started
without having confirmed the configuration, and with the network nothing is left of the errors before. -/
theorem states_follow (n : Nat) (bg95 : Modem.Bg95) (cfg : Cfg) (now : Nat) (script : List Tick) :
    Life (rounds sdk n (modemMainInit bg95 cfg now) script).2.1 :=
  (rounds_life n).run (s := modemMainInit bg95 cfg now) ⟨trivial,rfl,nofun,nofun,fun some => absurd rfl some⟩ script

end Steps

section Recovery
variable {sdk : Sdk} {newer older : List ModemAt.Event} {old : MainState} {netReady : Bool}

theorem Lifecycle.before (e : ModemAt.Event) (past : List ModemAt.Event) (cycle : Lifecycle (e :: past)) : Lifecycle past := by
  cases e with
  | state => exact cycle.2
  | _ => exact cycle

theorem toldOff_since {new : MainState} (told : ToldOff (newer ++ .state old new netReady :: older)) :
    ∃ dtrLow, .sent atOff dtrLow ∈ newer := by
  induction newer with
  | nil => exact told.elim
  | cons e newer ih =>
    cases e with
    | state => exact told.elim
    | sent cmd dtrLow =>
      obtain rfl | told := told
      · exact ⟨dtrLow,List.mem_cons_self⟩
      · obtain ⟨dtrLow,member⟩ := ih told
        exact ⟨dtrLow,List.mem_cons_of_mem _ member⟩
    | _ =>
      obtain ⟨dtrLow,member⟩ := ih told
      exact ⟨dtrLow,List.mem_cons_of_mem _ member⟩

theorem underway_since (idle : underway older = none) (automatic : ∀ e ∈ newer, begun e = none) {new : MainState} :
    underway (newer ++ .state old new netReady :: older) = none := by
  induction newer with
  | nil => exact idle
  | cons e newer ih =>
    have rest := ih fun e member => automatic e (List.mem_cons_of_mem _ member)
    cases e with
    | executing command => exact nomatch automatic _ List.mem_cons_self
    | executed => rfl
    | _ => exact rest

theorem edge_error {new : MainState} (way : edge .error new netReady = true) : new = .off := by
  cases new
  all_goals first | rfl | exact nomatch way

/-- On its own the modem stays in the error until it is told to switch off. -/
theorem error_or_told (cycle : Lifecycle (newer ++ .state old .error netReady :: older)) (idle : underway older = none)
    (automatic : ∀ e ∈ newer, begun e = none) :
    stateOf (newer ++ .state old .error netReady :: older) = .error ∨ ∃ dtrLow, .sent atOff dtrLow ∈ newer := by
  induction newer with
  | nil => exact Or.inl rfl
  | cons e newer ih =>
    have quiet : ∀ e ∈ newer, begun e = none := fun e member => automatic e (List.mem_cons_of_mem _ member)
    obtain error | ⟨dtrLow,member⟩ := ih (cycle.before e _) quiet
    · cases e with
      | state before new ready =>
        rw [List.cons_append] at cycle
        obtain ⟨⟨_,_,way | ⟨command,executing,_⟩,off,_⟩,_⟩ := cycle
        · rw [error] at way
          obtain ⟨dtrLow,member⟩ := toldOff_since (off (edge_error way))
          exact Or.inr ⟨dtrLow,List.mem_cons_of_mem _ member⟩
        · exact nomatch (underway_since idle quiet).symm.trans executing
      | _ => exact Or.inl error
    · exact Or.inr ⟨dtrLow,List.mem_cons_of_mem _ member⟩

/-- In every run, from an error to the network the modem comes by itself only after it was told to switch off. -/
theorem recovery_switches_off (n : Nat) (bg95 : Modem.Bg95) (cfg : Cfg) (now : Nat) (script : List Tick)
    (split : (rounds sdk n (modemMainInit bg95 cfg now) script).2.1.trace = newer ++ .state old .error netReady :: older)
    (idle : underway older = none) (automatic : ∀ e ∈ newer, begun e = none) {before : MainState} {ready : Bool}
    (again : .state before .netOk ready ∈ newer) : ∃ dtrLow, .sent atOff dtrLow ∈ newer := by
  have life := (@rounds_life sdk n).run (s := modemMainInit bg95 cfg now) ⟨trivial,rfl,nofun,nofun,fun some => absurd rfl some⟩ script
  have cycle := life.cycle
  rw [split] at cycle
  obtain ⟨last,first,rfl⟩ := List.append_of_mem again
  have quiet : ∀ e ∈ first, begun e = none := fun e member => automatic e (List.mem_append_right _ (List.mem_cons_of_mem _ member))
  rw [List.append_assoc,List.cons_append] at cycle
  have here := holds_earlier Lifecycle.before (List.suffix_append last _) cycle
  obtain error | ⟨dtrLow,member⟩ := error_or_told here.2 idle quiet
  · obtain ⟨⟨_,_,way | ⟨command,executing,_⟩,_,_⟩,_⟩ := here
    · rw [error] at way
      exact nomatch edge_error way
    · exact nomatch (underway_since idle quiet).symm.trans executing
  · exact ⟨dtrLow,List.mem_append_right _ (List.mem_cons_of_mem _ member)⟩

def late : Tick := ⟨[],40000⟩

def good : Tick := ⟨[told "+CPIN: READY",told "+CREG: 1",told "OK"],40000⟩

/-- The modem is silent at first and fails to start, and answers from then on. -/
def lateStart : List Tick := ⟨[.rqState .netOk],10⟩ :: List.replicate 16 late ++ List.replicate 62 good

def lateRun : List ModemAt.Event := (rounds plainSdk 7 (modemMainInit ModemData.started.bg95 ⟨none,none,none⟩ 0) lateStart).2.1.trace

def sinceError : List ModemAt.Event := lateRun.takeWhile fun e => e ≠ .state .on .error false

theorem recovery_switches_off_late : .state .init .netOk true ∈ sinceError ∧ ∃ dtrLow, .sent atOff dtrLow ∈ sinceError := by
  have again : .state .init .netOk true ∈ sinceError := by decide +kernel
  refine ⟨again,@recovery_switches_off plainSdk sinceError (lateRun.drop (sinceError.length + 1)) .on false 7 ModemData.started.bg95
    ⟨none,none,none⟩ 0 lateStart ?_ ?_ ?_ .init true again⟩
  · decide +kernel
  · decide +kernel
  · decide +kernel

end Recovery

end JcaFirmware.ModemLife
