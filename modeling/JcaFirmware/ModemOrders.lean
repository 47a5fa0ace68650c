import JcaFirmware.ModemKeeps

/-! Over all runs of the modem's task: the commands of the operator are executed once each and in their order, and nothing
but the command that switches it off is sent to a modem that sleeps. -/
namespace JcaFirmware.ModemOrders
open Foundation Numeral
open ModemAt ModemStart ModemMain ModemKeeps

section Orders
variable {sdk : Sdk}

def taken : ModemAt.Event → Option Command
  | .accepted command => some command
  | _ => none

def begun : ModemAt.Event → Option Command
  | .executing command => some command
  | _ => none

def ended : ModemAt.Event → Option Command
  | .executed command => some command
  | _ => none

/-- The commands of some events, oldest first. -/
def commands (pick : ModemAt.Event → Option Command) (past : List ModemAt.Event) : List Command := (past.filterMap pick).reverse

theorem commands_cons (pick : ModemAt.Event → Option Command) (e : ModemAt.Event) (past : List ModemAt.Event) :
    commands pick (e :: past) = commands pick past ++ (pick e).toList := by
  unfold commands
  cases picked : pick e with
  | none => rw [List.filterMap_cons_none picked,Option.toList_none,List.append_nil]
  | some command => rw [List.filterMap_cons_some picked,List.reverse_cons,Option.toList_some]

/-- The command that is posted, with those that were taken, begun and ended. -/
def Books (holds : Command → List Command → List Command → List Command → Prop) (w : World) : Prop :=
  holds w.main.command (commands taken w.trace) (commands begun w.trace) (commands ended w.trace)

/-- A command is taken where none is posted, and posted then. -/
theorem steady_books {holds : Command → List Command → List Command → List Command → Prop}
    (post : ∀ {command ts bs es}, command ≠ .none → holds .none ts bs es → holds command (ts ++ [command]) bs es) :
    Steady sdk (Books holds) := by
  have closed : Closed sdk (Books holds) := {
    time := fun _ _ books => books
    hear := fun _ _ books => books
    userStr := fun _ _ books => books
    modem := fun _ _ _ books => books
    wake := fun _ books => books
    awake := fun _ books => books
    transmit := fun _ _ _ _ books => books
    pwrkey := fun _ books => books
    rqState := fun _ _ books => books
    order := fun command w books => by
      unfold World.modemMainCommand
      split_ifs with posted nothing
      · exact books
      · subst nothing
        unfold Books at books ⊢
        rw [not_not.mp posted] at books
        exact books
      · unfold Books at books ⊢
        rw [not_not.mp posted] at books
        have taking := post nothing books
        unfold World.log
        rw [commands_cons]
        exact taking
    configure := fun _ _ books => books }
  exact {closed with
    sim := initSim_free {closed with entry := fun _ _ holds => holds}
    setState := fun new w books => by
      unfold World.setState
      split_ifs
      · exact books
      · unfold Books World.log
        rw [entered_command]
        exact books
    setMain := fun f w same books => by
      unfold Books World.setMain
      rw [same]
      exact books
    sleeps := fun _ books => books}

/-- The commands were taken, begun and ended one by one; those that wait are the one that is posted. -/
def Waiting (command : Command) (ts bs es : List Command) : Prop :=
  bs = es ∧ ts = bs ++ if command = .none then [] else [command]

/-- The command that is posted is being executed. -/
def Executing (command posted : Command) (ts bs es : List Command) : Prop :=
  posted = command ∧ command ≠ .none ∧ ts = bs ∧ bs = es ++ [command]

theorem steady_waiting : Steady sdk (Books Waiting) := steady_books fun some waiting => by
  obtain ⟨rfl,rfl⟩ := waiting
  exact ⟨rfl,by rw [if_pos rfl,if_neg some,List.append_nil]⟩

theorem steady_executing (command : Command) : Steady sdk (Books (Executing command)) :=
  steady_books fun _ executing => absurd executing.1.symm executing.2.1

/-- The commands were executed but for the one that waits or is being executed. -/
def Kept (w : World) : Prop := Books Waiting w ∨ ∃ command, Books (Executing command) w

theorem executing_begins {w : World} (waiting : Books Waiting w) (some : w.main.command ≠ .none) :
    Books (Executing w.main.command) (w.log (.executing w.main.command)) := by
  obtain ⟨same,all⟩ := waiting
  rw [if_neg some] at all
  unfold Books World.log
  simp only [commands_cons,taken,begun,ended,Option.toList_none,Option.toList_some,List.append_nil]
  exact ⟨rfl,some,all,congrArg (· ++ [w.main.command]) same⟩

theorem executing_ends {w : World} {command : Command} (executing : Books (Executing command) w) :
    Books Waiting ((World.setMain (fun main => {main with command := .none}) w).log (.executed command)) := by
  obtain ⟨_,_,all,same⟩ := executing
  unfold Books World.log World.setMain
  simp only [commands_cons,taken,begun,ended,Option.toList_none,Option.toList_some,List.append_nil]
  exact ⟨same,by rw [if_pos rfl,List.append_nil]; exact all⟩

theorem postedTask_books : Task.Triple Kept (Books Waiting) (postedTask sdk) fun _ => Books Waiting := by
  refine .bind (fun command w => Books Waiting w ∧ w.main.command = command) (.read fun w _ waiting => ⟨waiting,rfl⟩) fun command => ?_
  refine .ite (fun some => ?_) fun _ => .pure fun w _ waiting => waiting.1
  refine .bind (fun _ => Books (Executing command)) (.modify fun w _ waiting => ?_) fun _ => ?_
  · obtain ⟨waiting,rfl⟩ := waiting
    exact ⟨Or.inr ⟨_,executing_begins waiting some⟩,executing_begins waiting some⟩
  refine .bind _ ((modemCommandExec_keeps (steady_executing command) command).within fun w executing => Or.inr ⟨command,executing⟩) fun _ => ?_
  exact .modify fun w _ executing => ⟨Or.inl (executing_ends executing),executing_ends executing⟩

theorem rounds_books (n : Nat) : Task.Triple Kept (Books Waiting) (rounds sdk n) fun _ => Books Waiting := by
  refine .loop (.bind (fun _ => Books Waiting) (.bind (fun _ => Books Waiting) postedTask_books fun _ => ?_) fun _ => ?_) n
  · exact (unposted_keeps steady_waiting).within fun _ => Or.inl
  · exact (Task.Keeps.next fun tick w waiting => steady_waiting.tick false tick w waiting).within fun _ => Or.inl

theorem Kept.prefixes {w : World} (kept : Kept w) :
    commands ended w.trace <+: commands begun w.trace ∧ commands begun w.trace <+: commands taken w.trace ∧
      (commands taken w.trace).length ≤ (commands ended w.trace).length + 1 := by
  obtain ⟨same,all⟩ | ⟨command,_,_,all,same⟩ := kept
  · refine ⟨same ▸ List.prefix_rfl,all ▸ List.prefix_append _ _,?_⟩
    rw [all,same,List.length_append]
    split_ifs
    · exact Nat.le_succ _
    · exact Nat.le_refl _
  · refine ⟨same ▸ List.prefix_append _ _,all ▸ List.prefix_rfl,?_⟩
    rw [all,same,List.length_append,List.length_singleton]

/-- In every run the commands that are executed are those that were taken, in their order and once each, and the next is taken
only when the one before it is done. -/
theorem commands_executed (n : Nat) (bg95 : Modem.Bg95) (cfg : Cfg) (now : Nat) (script : List Tick) :
    let past := (rounds sdk n (modemMainInit bg95 cfg now) script).2.1.trace
    commands ended past <+: commands begun past ∧ commands begun past <+: commands taken past ∧
      (commands taken past).length ≤ (commands ended past).length + 1 :=
  have start : Books Waiting (modemMainInit bg95 cfg now) := ⟨rfl,rfl⟩
  (rounds_books n (modemMainInit bg95 cfg now) script (Or.inl start) start).1.prefixes

end Orders

section Sleep
variable {sdk : Sdk}

/-- Whatever went to a modem that sleeps was to switch it off. -/
def Woken (w : World) : Prop := ∀ cmd, .sent cmd false ∈ w.trace → cmd = atOff

theorem Woken.later {w : World} (woken : Woken w) {e : ModemAt.Event} (low : ∀ cmd, e = .sent cmd false → cmd = atOff) :
    Woken (w.log e) := by
  intro cmd member
  obtain same | member := List.mem_cons.mp member
  · exact low cmd same.symm
  · exact woken cmd member

theorem closed_woken : Closed sdk Woken where
  time _ _ woken := woken
  hear _ _ woken := woken.later nofun
  userStr _ _ woken := woken
  modem _ _ _ woken := woken
  wake _ woken := woken
  awake _ woken := woken
  transmit cmd w _ low woken := woken.later fun other same => by
    injection same with same asleep
    obtain low | off := low
    · exact nomatch asleep.symm.trans low
    · exact same ▸ off
  pwrkey _ woken := woken.later nofun
  rqState _ _ woken := woken
  order command w woken := by
    unfold World.modemMainCommand
    split_ifs
    · exact woken
    · exact woken
    · exact woken.later nofun
  configure _ _ woken := woken

theorem free_woken : Free sdk Woken where
  toClosed := closed_woken
  entry pin w awake := by
    refine ⟨awake.1.later fun _ same => ?_,awake.2⟩
    injection same with _ asleep
    exact nomatch asleep.symm.trans awake.2

theorem steady_woken : Steady sdk Woken where
  toClosed := closed_woken
  sim := initSim_free free_woken
  setState new w woken := by
    unfold World.setState
    split_ifs
    · exact woken
    · exact woken.later nofun
  setMain _ _ _ woken := woken
  sleeps _ woken := woken

theorem rounds_woken (n : Nat) : Task.Keeps Woken (rounds sdk n) :=
  rounds_keeps steady_woken (postedTask_keeps steady_woken (fun _ _ woken => woken.later nofun) fun _ _ woken => woken.later nofun) n

/-- In every run, whatever the other tasks do, nothing but the command that switches it off is sent to a modem that sleeps. -/
theorem asleep_only_off (n : Nat) (bg95 : Modem.Bg95) (cfg : Cfg) (now : Nat) (script : List Tick) {cmd : List UInt8}
    (asleep : .sent cmd false ∈ (rounds sdk n (modemMainInit bg95 cfg now) script).2.1.trace) : cmd = atOff := by
  have start : Woken (modemMainInit bg95 cfg now) := fun _ member => nomatch member
  exact (rounds_woken n).run start script cmd asleep

/-- The operator switches off a modem that the task has put to sleep. -/
def switchedOff : List Tick := [silence,⟨[.order .off],10⟩]

theorem asleep_only_off_switched :
    ∃ cmd, .sent cmd false ∈ (rounds plainSdk 2 (modemMainInit ModemData.started.bg95 ⟨none,none,none⟩ 0) switchedOff).2.1.trace ∧
      cmd = atOff := by
  have asleep : ∃ cmd, .sent cmd false ∈ (rounds plainSdk 2 (modemMainInit ModemData.started.bg95 ⟨none,none,none⟩ 0) switchedOff).2.1.trace :=
    ⟨ascii "AT+QPOWD=1",by decide +kernel⟩
  obtain ⟨cmd,sent⟩ := asleep
  exact ⟨cmd,sent,asleep_only_off 2 ModemData.started.bg95 ⟨none,none,none⟩ 0 switchedOff sent⟩

end Sleep

end JcaFirmware.ModemOrders
