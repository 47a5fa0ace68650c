import JcaFirmware.ModemKeeps

/-! The answers of the modem (`modem_at_response`): what a line does to the response, over all interleavings of a command with the
other tasks. A command counts as done only if the modem said so behind it and before any other command. -/
namespace JcaFirmware.ModemAnswers
open Foundation Numeral CText
open Modem (Line)
open ModemAt ModemStart ModemKeeps

section Answers

/-- What a line does to the response: nothing, or it is `OK`, or the first that comes, or the one that was asked for. -/
inductive Reacts (line : Line) (a b : Modem.ModemAt) : Prop
  | same (ok : b.ok = a.ok ∨ Modem.stricmp line.rxBuf (ascii "OK") = true) (userStr : b.userStr = a.userStr)
    (found : b.userStrFound = a.userStrFound) (response : b.response = a.response) (responseLen : b.responseLen = a.responseLen)
  | first (ok : b.ok = a.ok) (empty : a.responseLen = 0) (asked : a.userStr = none) (userStr : b.userStr = none)
    (found : b.userStrFound = a.userStrFound) (response : b.response = line.rxBuf) (responseLen : b.responseLen = line.bufLen)
    (some : line.bufLen ≠ 0)
  | found (str : List UInt8) (ok : b.ok = a.ok) (empty : a.responseLen = 0) (asked : a.userStr = some str)
    (same : sameUpTo str.length line.rxBuf str) (userStr : b.userStr = none) (response : b.response = line.rxBuf)
    (responseLen : b.responseLen = line.bufLen) (some : line.bufLen ≠ 0)

variable (sdk : Modem.Sdk) (m : Modem.State)

/-- A report of the network or of an error leaves the response as it is. -/
theorem applyUrc_at (urc : Modem.Urc) :
    ∃ error code, (Modem.applyUrc sdk m urc).modemAt = {m.modemAt with error := error, lastErrorResult := code} := by
  cases urc
  all_goals
    simp only [Modem.applyUrc,Modem.cmeError,Modem.creg,Modem.cereg,Modem.cgreg,Modem.csq]
    try split_ifs
    all_goals exact ⟨_,_,rfl⟩

theorem udpData_at (line : Line) : (Modem.udpData m line).modemAt = m.modemAt := by
  unfold Modem.udpData
  split_ifs
  all_goals rfl

theorem applyBg95Urc_at (src : List UInt8) (urc : Modem.Bg95Urc) : (Modem.applyBg95Urc sdk m src urc).modemAt = m.modemAt := by
  cases urc with
  | recv p =>
    simp only [Modem.applyBg95Urc,Modem.recv]
    split
    · rfl
    · split_ifs
      all_goals rfl
  | qird p =>
    simp only [Modem.applyBg95Urc,Modem.qird]
    split
    · rfl
    · split_ifs
      all_goals rfl
  | dnsgip =>
    simp only [Modem.applyBg95Urc]
    split_ifs
    all_goals rfl
  | qiopen p =>
    simp only [Modem.applyBg95Urc]
    split
    all_goals rfl
  | pdpdeact | powerDown | servingCell | qjdr => rfl

theorem respond_reacts (line : Line) (long : 1 < line.bufLen) : Reacts line m.modemAt (Modem.respond m line).modemAt := by
  unfold Modem.respond
  split_ifs with filled
  · exact .same (Or.inl rfl) rfl rfl rfl rfl
  have empty : m.modemAt.responseLen = 0 := not_not.mp filled
  cases asked : m.modemAt.userStr with
  | none => exact .first rfl empty asked asked rfl rfl rfl (by omega)
  | some str =>
    dsimp only
    split_ifs with same
    · exact .found str rfl empty asked same rfl rfl rfl (by omega)
    · exact .same (Or.inl rfl) rfl rfl rfl rfl

theorem modemAtRx_reacts (line : Line) : Reacts line m.modemAt (Modem.modemAtRx sdk m line).modemAt := by
  unfold Modem.modemAtRx
  split_ifs with short ok error
  · exact .same (Or.inl rfl) rfl rfl rfl rfl
  · exact .same (Or.inr ok) rfl rfl rfl rfl
  · exact .same (Or.inl rfl) rfl rfl rfl rfl
  unfold Modem.modemParseUrc Modem.modemBg95Urc
  cases Modem.urcOf sdk line.rxBuf with
  | some urc =>
    obtain ⟨error,code,same⟩ := applyUrc_at sdk {m with modemAt := {m.modemAt with line := true}} urc
    dsimp only
    rw [same]
    exact .same (Or.inl rfl) rfl rfl rfl rfl
  | none =>
    dsimp only
    split_ifs
    · rw [udpData_at]
      exact .same (Or.inl rfl) rfl rfl rfl rfl
    cases Modem.bg95UrcOf sdk line.rxBuf with
    | some urc =>
      dsimp only
      rw [applyBg95Urc_at]
      exact .same (Or.inl rfl) rfl rfl rfl rfl
    | none =>
      cases respond_reacts {m with modemAt := {m.modemAt with line := true}} line (by omega) with
      | same ok userStr found response responseLen => exact .same ok userStr found response responseLen
      | first ok empty asked userStr found response responseLen some => exact .first ok empty asked userStr found response responseLen some
      | found str ok empty asked same userStr response responseLen some =>
        exact .found str ok empty asked same userStr response responseLen some

/-- The task has asked for a text, and only a line that begins with it is taken for the one that was found. -/
def Asked (str : List UInt8) (a : Modem.ModemAt) : Prop :=
  (a.userStrFound = false ∧ a.userStr = some str) ∨
    (a.userStr = none ∧ (a.userStrFound = true → a.responseLen ≠ 0 ∧ sameUpTo str.length a.response str = true))

/-- Nothing is asked for, and nothing is found. -/
def Quiet (a : Modem.ModemAt) : Prop := a.userStrFound = false ∧ a.userStr = none

variable {line : Line} {a b : Modem.ModemAt}

theorem Quiet.reacts (quiet : Quiet a) (reacts : Reacts line a b) : Quiet b := by
  obtain ⟨unfound,unasked⟩ := quiet
  cases reacts with
  | same _ userStr found => exact ⟨found.trans unfound,userStr.trans unasked⟩
  | first _ _ _ userStr found => exact ⟨found.trans unfound,userStr⟩
  | found str _ _ asked => exact nomatch asked.symm.trans unasked

theorem Asked.reacts {str : List UInt8} (asks : Asked str a) (reacts : Reacts line a b) : Asked str b := by
  cases reacts with
  | same _ userStr found response responseLen =>
    unfold Asked
    rw [userStr,found,response,responseLen]
    exact asks
  | first _ empty asked userStr found response responseLen some =>
    obtain ⟨_,other⟩ | ⟨_,holds⟩ := asks
    · exact nomatch other.symm.trans asked
    · exact Or.inr ⟨userStr,fun found' => absurd empty (holds (found.symm.trans found')).1⟩
  | found str' _ empty asked same userStr response responseLen some =>
    obtain ⟨_,other⟩ | ⟨other,_⟩ := asks
    · obtain rfl := Option.some.inj (asked.symm.trans other)
      exact Or.inr ⟨userStr,fun _ => by rw [response,responseLen]; exact ⟨some,same⟩⟩
    · exact nomatch asked.symm.trans other

/-- While the semaphore is taken, the other tasks change the response by lines alone. -/
theorem elapse_locked (holds : Modem.ModemAt → Prop) (line : ∀ line {a b}, Reacts line a b → holds a → holds b) (tick : Tick)
    (w : World) (start : holds w.modem.modemAt) : holds (w.elapse sdk true tick).modem.modemAt := by
  have start : holds {w with now := osTimer (w.now + tick.elapsed)}.modem.modemAt := start
  refine List.foldlRecOn (motive := fun w => holds w.modem.modemAt) tick.acts (World.act sdk true) start fun w start act _ => ?_
  cases act with
  | line l => exact line l (modemAtRx_reacts sdk w.modem l) start
  | order command =>
    simp only [World.act,World.modemMainCommand]
    split_ifs
    all_goals exact start
  | command | connection | rqState | configure => exact start

end Answers

section Exchanges

/-- The events since the last command; newest first, as all of them. -/
def since : List ModemAt.Event → List ModemAt.Event
  | [] => []
  | .sent _ _ :: _ => []
  | e :: past => e :: since past

/-- The last command that was sent in this state. -/
def lastSent : List ModemAt.Event → Option (List UInt8)
  | [] => none
  | .state _ _ _ :: _ => none
  | .sent cmd _ :: _ => some cmd
  | _ :: past => lastSent past

/-- In this state `OK` came behind the command, and no other command was sent. -/
def Done (cmd : List UInt8) (past : List ModemAt.Event) : Prop :=
  lastSent past = some cmd ∧ ∃ line, .heard line ∈ since past ∧ Modem.stricmp line (ascii "OK") = true

/-- The line came behind the command, and no other command was sent. -/
def Shown (cmd line : List UInt8) (past : List ModemAt.Event) : Prop := lastSent past = some cmd ∧ .heard line ∈ since past

/-- What the flags and the response say was heard since the last command. -/
structure Fresh (w : World) : Prop where
  ok : w.modem.modemAt.ok = true → ∃ line, .heard line ∈ since w.trace ∧ Modem.stricmp line (ascii "OK") = true
  response : w.modem.modemAt.responseLen ≠ 0 → .heard w.modem.modemAt.response ∈ since w.trace

variable {sdk : Sdk}

theorem since_later {past : List ModemAt.Event} {line : List UInt8} {e : ModemAt.Event} (heard : .heard line ∈ since past)
    (unsent : ∀ cmd dtrLow, e ≠ .sent cmd dtrLow) : .heard line ∈ since (e :: past) := by
  cases e with
  | sent cmd dtrLow => exact absurd rfl (unsent cmd dtrLow)
  | _ => exact List.mem_cons_of_mem _ heard

theorem Fresh.later {w : World} (fresh : Fresh w) (main : Main) {e : ModemAt.Event} (unsent : ∀ cmd dtrLow, e ≠ .sent cmd dtrLow) :
    Fresh ({w with main}.log e) where
  ok said :=
    have ⟨line,heard,same⟩ := fresh.ok said
    ⟨line,since_later heard unsent,same⟩
  response some := since_later (fresh.response some) unsent

theorem Fresh.hear {w : World} (fresh : Fresh w) (line : Line) : Fresh (w.hear sdk.modem line) := by
  have here : (Modem.modemAtRx sdk.modem w.modem line).modemAt.response = line.rxBuf →
      .heard (Modem.modemAtRx sdk.modem w.modem line).modemAt.response ∈ since (.heard line.rxBuf :: w.trace) := fun same => by
    rw [same]
    exact List.mem_cons_self
  have reacts := modemAtRx_reacts sdk.modem w.modem line
  have later : (Modem.modemAtRx sdk.modem w.modem line).modemAt.ok = w.modem.modemAt.ok →
      (Modem.modemAtRx sdk.modem w.modem line).modemAt.ok = true →
      ∃ heard, .heard heard ∈ since (.heard line.rxBuf :: w.trace) ∧ Modem.stricmp heard (ascii "OK") = true := fun same said =>
    have ⟨heard,member,ok⟩ := fresh.ok (same.symm.trans said)
    ⟨heard,since_later member nofun,ok⟩
  cases reacts with
  | same ok userStr found response responseLen =>
    refine ⟨fun said => ?_,fun some => ?_⟩
    · obtain same | said' := ok
      · exact later same said
      · exact ⟨line.rxBuf,List.mem_cons_self,said'⟩
    · have some : (Modem.modemAtRx sdk.modem w.modem line).modemAt.responseLen ≠ 0 := some
      rw [responseLen] at some
      have heard := since_later (fresh.response some) (e := .heard line.rxBuf) nofun
      rw [← response] at heard
      exact heard
  | first ok _ _ _ _ response => exact ⟨later ok,fun _ => here response⟩
  | found str ok _ _ _ _ response => exact ⟨later ok,fun _ => here response⟩

theorem free_fresh : Free sdk Fresh where
  time _ _ fresh := ⟨fresh.ok,fresh.response⟩
  hear line _ fresh := fresh.hear line
  userStr _ _ fresh := ⟨fresh.ok,fresh.response⟩
  modem m w same fresh := by
    obtain ⟨ok,response⟩ := fresh
    rw [← same] at ok response
    exact ⟨ok,response⟩
  wake _ fresh := ⟨fresh.ok,fresh.response⟩
  awake _ fresh := ⟨fresh.ok,fresh.response⟩
  transmit _ _ _ _ _ := ⟨nofun,fun some => absurd rfl some⟩
  pwrkey w fresh := fresh.later w.main nofun
  rqState _ _ fresh := ⟨fresh.ok,fresh.response⟩
  order command w fresh := by
    unfold World.modemMainCommand
    split_ifs
    · exact fresh
    · exact ⟨fresh.ok,fresh.response⟩
    · exact fresh.later {w.main with command} nofun
  configure _ _ fresh := ⟨fresh.ok,fresh.response⟩
  entry _ _ awake := ⟨⟨nofun,fun some => absurd rfl some⟩,awake.2⟩

/-- While the semaphore is taken, no other task sends a command. -/
theorem elapse_lastSent (tick : Tick) (w : World) : lastSent (w.elapse sdk.modem true tick).trace = lastSent w.trace := by
  refine List.foldlRecOn (motive := fun other => lastSent other.trace = lastSent w.trace) tick.acts (World.act sdk.modem true)
    (rfl : lastSent {w with now := osTimer (w.now + tick.elapsed)}.trace = lastSent w.trace) fun other same act _ => ?_
  cases act with
  | order command =>
    simp only [World.act,World.modemMainCommand]
    split_ifs
    all_goals exact same
  | line | command | connection | rqState | configure => exact same

variable {always : World → Prop} (closed : Closed sdk always) (fresh : ∀ w, always w → Fresh w)
include closed fresh

/-- The flags that come were raised by the answers to the last command. -/
theorem modemAtResponse_answers (cmd : List UInt8) (userStr : Option (List UInt8)) (timeout : Nat) :
    Task.Triple always (fun w => lastSent w.trace = some cmd ∧ Quiet w.modem.modemAt) (modemAtResponse sdk.modem true userStr timeout)
      fun flags w => (flags.1 = true → Done cmd w.trace) ∧ (flags.2 = true → ∀ str, userStr = some str →
        Shown cmd w.modem.modemAt.response w.trace ∧ sameUpTo str.length w.modem.modemAt.response str = true) := by
  let waits (w : World) : Prop := lastSent w.trace = some cmd ∧ ∀ str, userStr = some str → Asked str w.modem.modemAt
  let told (flags : Bool × Bool) (w : World) : Prop := (flags.1 = true → Done cmd w.trace) ∧ (flags.2 = true → ∀ str, userStr = some str →
    Shown cmd w.modem.modemAt.response w.trace ∧ sameUpTo str.length w.modem.modemAt.response str = true)
  refine .bind (fun _ => waits) (.modify fun w holds start => ?_) fun _ => .bind (fun _ => waits) (.read fun w _ start => start) fun limit => ?_
  · exact ⟨closed.userStr userStr w holds,start.1,fun str same => Or.inl ⟨start.2.1,same⟩⟩
  refine .bind (fun flags w => ∀ found, flags = some found → told found w) (.await ?_ ?_) fun flags => ?_
  · rintro tick w holds ⟨last,asks⟩
    refine ⟨closed.tick true tick w holds,(elapse_lastSent tick w).trans last,fun str same => ?_⟩
    exact elapse_locked sdk.modem (Asked str) (fun _ {_ _} came asks => asks.reacts came) tick w (asks str same)
  · rintro w flags holds ⟨last,asks⟩ ended ⟨ok,found⟩ rfl
    have flags : ok = w.modem.modemAt.ok ∧ found = w.modem.modemAt.userStrFound := by
      unfold responseOf at ended
      split_ifs at ended
      · injection ended with ended
        injection ended with ended
        exact ⟨(Prod.mk.inj ended).1.symm,(Prod.mk.inj ended).2.symm⟩
      · exact nomatch ended
    refine ⟨fun said => ⟨last,(fresh w holds).ok (flags.1.symm.trans said)⟩,fun came str same => ?_⟩
    obtain ⟨unfound,_⟩ | ⟨_,answered⟩ := asks str same
    · exact absurd ((flags.2.trans unfound).symm.trans came) nofun
    · obtain ⟨some,begins⟩ := answered (flags.2.symm.trans came)
      exact ⟨⟨last,(fresh w holds).response some⟩,begins⟩
  · cases flags with
    | some flags => exact .pure fun w _ holds => holds flags rfl
    | none => exact .bind (fun _ _ => True) (.modify fun w holds _ => ⟨closed.modem _ w rfl holds,trivial⟩) fun _ => .pure fun _ _ _ => ⟨nofun,nofun⟩

omit fresh in
theorem modemAtCmdNolock_sends {cmd : List UInt8} (sent : Sent always cmd) :
    Task.Triple always (fun _ => True) (modemAtCmdNolock sdk.modem true cmd) fun _ w =>
      lastSent w.trace = some cmd ∧ Quiet w.modem.modemAt := by
  let sends (w : World) : Prop := lastSent w.trace = some cmd ∧ Quiet w.modem.modemAt
  refine .bind (fun _ => sends) (.modify fun w holds _ => ⟨sent w holds,rfl,rfl,rfl⟩) fun _ => .next ?_
  rintro tick w holds ⟨last,quiet⟩
  refine ⟨closed.tick true tick w holds,(elapse_lastSent tick w).trans last,?_⟩
  exact elapse_locked sdk.modem Quiet (fun _ {_ _} came quiet => quiet.reacts came) tick w quiet

/-- A command that is done was said to be so, and what was asked for was shown, before any other command was sent. -/
theorem atCmdAndResponseOk_answers {atCmd : List UInt8} (userStr : Option (List UInt8)) (sent : Sent always (timeoutOf atCmd).2) :
    Task.Triple always (fun _ => True) (atCmdAndResponseOk sdk.modem true atCmd userStr) fun result w => result.1 = true →
      Done (timeoutOf atCmd).2 w.trace ∧ ∀ str, userStr = some str →
        Shown (timeoutOf atCmd).2 result.2 w.trace ∧ sameUpTo str.length result.2 str = true := by
  refine .bind _ (modemAtCmdNolock_sends closed sent) fun _ => .bind _ (modemAtResponse_answers closed fresh _ userStr _) fun flags => ?_
  let told (response : List UInt8) (w : World) : Prop := (flags.1 = true → Done (timeoutOf atCmd).2 w.trace) ∧
    (flags.2 = true → ∀ str, userStr = some str → Shown (timeoutOf atCmd).2 response w.trace ∧ sameUpTo str.length response str = true)
  refine .bind told (.read fun w _ holds => holds) fun response => ?_
  refine .pure fun w _ holds came => ?_
  obtain ⟨ok,found⟩ := of_decide_eq_true came
  refine ⟨holds.1 ok,fun str same => ?_⟩
  have found : flags.2 = true := found.resolve_left fun none => nomatch same.symm.trans none
  rw [if_pos (Or.inr found)]
  exact holds.2 found str same

theorem modemAtOkCmdNolock_done {atCmd : List UInt8} (sent : Sent always (timeoutOf atCmd).2) :
    Task.Triple always (fun _ => True) (modemAtOkCmdNolock sdk.modem true atCmd) fun ok w => ok = true → Done (timeoutOf atCmd).2 w.trace :=
  .bind _ (atCmdAndResponseOk_answers closed fresh none sent) fun _ => .pure fun _ _ holds ok => (holds ok).1

end Exchanges

end JcaFirmware.ModemAnswers
