import JcaFirmware.Event
import JcaFirmware.Foundation.CText
import JcaFirmware.Foundation.Numeral

/-! Text commands (`app/cmd.c`): the table, the search for a name, and the chain of
commands of one line. The handlers are parameters, with the rest of the unit as their
state; a handler of a parameter says how many characters it has read. -/
namespace JcaFirmware.Cmd
open Foundation CText Numeral

def accessNone : UInt8 := 1
def accessUser : UInt8 := 2
def accessAdmin : UInt8 := 4
def accessSystem : UInt8 := 8

/-- Of `access_t` what the commands look at. -/
structure Access where
  auth : UInt8
  source : EventSource
deriving DecidableEq, Repr

/-- `cmd_t`; of the two handlers whether they are there. -/
structure Command where
  text : List UInt8
  get : Bool
  set : Bool
  auth : UInt8
deriving DecidableEq, Repr

def cmdMaxLen : Nat := 64

/-- `_CMD_TABLE`. -/
def cmdTable : List Command := [
  ⟨ascii "AUTH",true,true,accessNone⟩,
  ⟨ascii "CFG",true,true,accessUser⟩,
  ⟨ascii "GPS",true,true,accessUser⟩,
  ⟨ascii "HELP",true,false,accessNone⟩,
  ⟨ascii "IO",true,false,accessUser⟩,
  ⟨ascii "LOCK",true,false,accessUser⟩,
  ⟨ascii "MEM",true,true,accessUser⟩,
  ⟨ascii "NET",true,false,accessUser⟩,
  ⟨ascii "REBOOT",false,true,accessAdmin⟩,
  ⟨ascii "RTC",true,false,accessUser⟩,
  ⟨ascii "SET",true,false,accessUser⟩,
  ⟨ascii "STATUS",true,false,accessUser⟩,
  ⟨ascii "UNLOCK",true,false,accessUser⟩,
  ⟨ascii "UNSET",true,false,accessUser⟩,
  ⟨ascii "UPDATE",true,false,accessAdmin⟩,
  ⟨ascii "VER",true,false,accessNone⟩,
  ⟨ascii "AT",false,true,accessSystem⟩,
  ⟨ascii "BLE",false,true,accessSystem⟩,
  ⟨ascii "DBG",false,true,accessSystem⟩,
  ⟨ascii "MODEM",false,true,accessSystem⟩,
  ⟨ascii "DL",true,true,accessSystem⟩,
  ⟨ascii "ECHO",true,true,accessSystem⟩]

section Find

variable (isChar : WordTest)

/-- The length of the name at the front, 0 for one that is too long. -/
def textLength (text : List UInt8) : Nat :=
  ((List.range cmdMaxLen).find? fun i => !isChar.test (charAt text i)).getD 0

-- `found` counts the names that the text abbreviates; the last of them is kept.
def findLoop (text : List UInt8) (auth : UInt8) : List Command → Nat → Option Command → Option (Command × List UInt8)
  | [], found, foundCmd => if found = 1 then foundCmd.map fun cmd => (cmd,text.drop (textLength isChar text)) else none
  | cmd :: table, found, foundCmd =>
    let l := cmd.text.length
    if l = 0 then if found = 1 then foundCmd.map fun cmd => (cmd,text.drop (textLength isChar text)) else none
    else if auth < cmd.auth then findLoop text auth table found foundCmd
    else
      let textL := textLength isChar text
      let shortcut := textL < l ∧ 0 < textL ∧ sameUpTo textL text cmd.text
      let found := if shortcut then found + 1 else found
      let foundCmd := if shortcut then some cmd else foundCmd
      if sameUpTo l text cmd.text ∧ isChar.test (charAt text l) = false then some (cmd,text.drop l)
      else findLoop text auth table found foundCmd

/-- `_find_cmd`, with the text behind the name. -/
def findCmd (table : List Command) (text : List UInt8) (auth : UInt8) : Option (Command × List UInt8) :=
  findLoop isChar text auth table 0 none

end Find

def skipSpaces (text : List UInt8) : List UInt8 := text.dropWhile fun c => c = 0x20

/-- What the handlers do to the unit, and `cmd_error` to the reply. -/
structure Handlers (σ : Type) where
  get : Command → Access → σ → Bool × Access × σ
  set : Command → List UInt8 → Access → σ → Bool × Nat × Access × σ
  error : List UInt8 → σ → σ

/-- A handler that was called: its command, the level of the caller then, the text its
name was found in, whether it was the one of a parameter, and its result. -/
structure Call where
  cmd : Command
  auth : UInt8
  text : List UInt8
  set : Bool
  ok : Bool
deriving DecidableEq, Repr

structure Outcome (σ : Type) where
  ok : Bool
  access : Access
  unit : σ
  calls : List Call

section Chain

variable {σ : Type} (isChar : WordTest) (handlers : Handlers σ) (table : List Command)

/-- `_process_cmd`, with the call of the handler, if there is one, and the text that is left; `name` is the text in
which the command was found. -/
def processCmd (cmd : Command) (name text : List UInt8) (access : Access) (unit : σ) :
    Bool × Option Call × List UInt8 × Access × σ :=
  let text := skipSpaces text
  if charAt text 0 = 0x3D then
    if cmd.set = false then (false,none,text,access,handlers.error (ascii "INVALID PARAMETER") unit)
    else
      let text := skipSpaces (text.drop 1)
      let (ok,count,access',unit) := handlers.set cmd text access unit
      (ok,some ⟨cmd,access.auth,name,true,ok⟩,text.drop count,access',unit)
  else if charAt text 0 ≠ 0x3F ∧ charAt text 0 ≠ 0 ∧ charAt text 0 ≠ 0x3B then
    (false,none,text,access,handlers.error (ascii "illegal parameter") unit)
  else if cmd.get = false then (false,none,text,access,handlers.error (ascii "MISSING PARAMETER") unit)
  else
    let (ok,access',unit) := handlers.get cmd access unit
    (ok,some ⟨cmd,access.auth,name,false,ok⟩,text,access',unit)

-- The rounds bound the `while` of `cmd_process_text`; without enough of them there is no outcome.
def chain : Nat → List UInt8 → Access → σ → List Call → Option (Outcome σ)
  | 0, _, _, _, _ => none
  | rounds + 1, text, access, unit, calls =>
    if charAt text 0 = 0 then some ⟨true,access,unit,calls⟩
    else
      match findCmd isChar table text access.auth with
      | none => some ⟨false,access,handlers.error (ascii "UNKNOWN COMMAND") unit,calls⟩
      | some (cmd,rest) =>
        let (ok,called,rest,access',unit) := processCmd handlers cmd text rest access unit
        let calls := calls ++ called.toList
        if ok = false then some ⟨false,access',unit,calls⟩
        else
          let rest := skipSpaces rest
          if charAt rest 0 ≠ 0x3B then some ⟨true,access',unit,calls⟩
          else chain rounds (skipSpaces (rest.drop 1)) access' unit calls

def cmdProcessText (rounds : Nat) (text : List UInt8) (access : Access) (unit : σ) : Option (Outcome σ) :=
  chain isChar handlers table rounds (skipSpaces text) access unit []

end Chain

section Resolution

/-- Names are words that differ from each other in either case. -/
structure Names (table : List Command) : Prop where
  named : ∀ cmd ∈ table, 0 < cmd.text.length ∧ cmd.text.length < cmdMaxLen
  letters : ∀ cmd ∈ table, ∀ c ∈ cmd.text, IsLetter c
  distinct : (table.map fun cmd => cmd.text.map lower).Nodup

theorem cmdTable_names : Names cmdTable where
  named := by decide +kernel
  letters := by decide +kernel
  distinct := by decide +kernel

variable (table : List Command) (auth : UInt8) (name : List UInt8)

def Visible (cmd : Command) : Prop := cmd ∈ table ∧ cmd.auth ≤ auth

def Exact (cmd : Command) : Prop := name.map lower = cmd.text.map lower

def Abbreviates (cmd : Command) : Prop :=
  name ≠ [] ∧ name.length < cmd.text.length ∧ name.map lower <+: cmd.text.map lower

/-- The command that a name stands for: its match among the visible ones, or else the
only visible one that it abbreviates. -/
def Resolves (cmd : Command) : Prop :=
  Visible table auth cmd ∧ (Exact name cmd ∨
    ((∀ other, Visible table auth other → ¬ Exact name other) ∧ Abbreviates name cmd ∧
      ∀ other, Visible table auth other → Abbreviates name other → other = cmd))

end Resolution

section Search

variable (isChar : WordTest) (text : List UInt8) (auth : UInt8)

def shortcut (cmd : Command) : Bool :=
  textLength isChar text < cmd.text.length ∧ 0 < textLength isChar text ∧ sameUpTo (textLength isChar text) text cmd.text

def complete (cmd : Command) : Bool :=
  sameUpTo cmd.text.length text cmd.text ∧ isChar.test (charAt text cmd.text.length) = false

/-- What the loop comes to: the first complete match, or else the last shortcut if it was
the only one. -/
theorem findLoop_eq (table : List Command) (named : ∀ cmd ∈ table, 0 < cmd.text.length) (found : Nat)
    (foundCmd : Option Command) :
    findLoop isChar text auth table found foundCmd =
      match table.find? fun cmd => cmd.auth ≤ auth ∧ complete isChar text cmd with
      | some cmd => some (cmd,text.drop cmd.text.length)
      | none =>
        let hits := table.filter fun cmd => cmd.auth ≤ auth ∧ shortcut isChar text cmd
        if found + hits.length = 1 then (hits.getLast?.or foundCmd).map fun cmd => (cmd,text.drop (textLength isChar text))
        else none := by
  induction table generalizing found foundCmd with
  | nil => rfl
  | cons cmd table ih =>
    have here := named cmd List.mem_cons_self
    have ih := ih fun other member => named other (List.mem_cons_of_mem _ member)
    rw [findLoop]
    dsimp only
    rw [if_neg (Nat.ne_of_gt here)]
    by_cases hidden : auth < cmd.auth
    · have other : ¬ cmd.auth ≤ auth := UInt8.not_le.mpr hidden
      rw [if_pos hidden,ih]
      simp [other]
    · have visible : cmd.auth ≤ auth := UInt8.not_lt.mp hidden
      rw [if_neg hidden]
      by_cases whole : sameUpTo cmd.text.length text cmd.text = true ∧ isChar.test (charAt text cmd.text.length) = false
      · rw [if_pos whole]
        simp [visible,complete,whole]
      · have partly : complete isChar text cmd = false := by simpa [complete] using whole
        rw [if_neg whole,ih]
        by_cases short : shortcut isChar text cmd = true
        · have taken : textLength isChar text < cmd.text.length ∧ 0 < textLength isChar text ∧
              sameUpTo (textLength isChar text) text cmd.text = true := by simpa [shortcut] using short
          rw [if_pos taken,if_pos taken]
          have last (hits : List Command) : (cmd :: hits).getLast?.or foundCmd = hits.getLast?.or (some cmd) := by
            rw [List.getLast?_cons]
            cases hits.getLast? <;> rfl
          simp [visible,partly,short,last,Nat.add_assoc,Nat.add_comm 1]
        · have passed : ¬ (textLength isChar text < cmd.text.length ∧ 0 < textLength isChar text ∧
              sameUpTo (textLength isChar text) text cmd.text = true) := by simpa [shortcut] using short
          rw [if_neg passed,if_neg passed]
          simp [partly,short]

theorem textLength_eq :
    textLength isChar text = if (word isChar text).length < cmdMaxLen then (word isChar text).length else 0 := by
  rw [textLength]
  split_ifs with short
  · have first : ((List.range cmdMaxLen).find? fun i => !isChar.test (charAt text i)) = some (word isChar text).length := by
      rw [List.find?_range_eq_some]
      refine ⟨by rw [charAt_word]; rfl,List.mem_range.mpr short,fun i before => ?_⟩
      rw [charAt_inside isChar text before]
      rfl
    rw [first]
    rfl
  · have none : ((List.range cmdMaxLen).find? fun i => !isChar.test (charAt text i)) = none := by
      rw [List.find?_eq_none]
      intro i member
      rw [charAt_inside isChar text (by have := List.mem_range.mp member; omega)]
      decide
    rw [none]
    rfl

theorem complete_iff {cmd : Command} (letters : ∀ c ∈ cmd.text, IsLetter c) :
    complete isChar text cmd = true ↔ Exact (word isChar text) cmd := by
  rw [complete,decide_eq_true_eq,sameUpTo_name]
  constructor
  · rintro ⟨same,past⟩
    have inside : ∀ c ∈ text.take cmd.text.length, isChar.test c = true := by
      intro c member
      have lowered : lower c ∈ cmd.text.map lower := same ▸ List.mem_map_of_mem member
      obtain ⟨d,letter,equal⟩ := List.mem_map.mp lowered
      exact isChar.letter c (letter_of_lower equal.symm (letters d letter))
    rw [Exact,word_of_take isChar text inside past,same]
  · intro exact
    have length : (word isChar text).length = cmd.text.length := by
      have lengths := congrArg List.length exact
      rwa [List.length_map,List.length_map] at lengths
    rw [← length,take_word]
    exact ⟨exact,charAt_word isChar text⟩

theorem shortcut_iff {cmd : Command} (short : cmd.text.length < cmdMaxLen) :
    shortcut isChar text cmd = true ↔ Abbreviates (word isChar text) cmd := by
  have compare (within : (word isChar text).length < cmd.text.length) :
      sameUpTo (word isChar text).length text cmd.text = true ↔ (word isChar text).map lower <+: cmd.text.map lower := by
    rw [sameUpTo,decide_eq_true_eq,take_word,List.prefix_iff_eq_take,List.length_map,← List.map_take]
  rw [shortcut,decide_eq_true_eq,textLength_eq,Abbreviates,← List.length_pos_iff]
  split_ifs with fits
  · constructor
    · rintro ⟨within,some,same⟩
      exact ⟨some,within,(compare within).mp same⟩
    · rintro ⟨some,within,same⟩
      exact ⟨within,some,(compare within).mpr same⟩
  · constructor
    · rintro ⟨_,some,_⟩
      exact absurd some (Nat.lt_irrefl 0)
    · rintro ⟨_,within,_⟩
      exact absurd (Nat.lt_trans within short) fits

variable {table : List Command}

theorem Names.exact_unique (names : Names table) {name : List UInt8} {cmd other : Command} (cmd_mem : cmd ∈ table)
    (other_mem : other ∈ table) (exact : Exact name cmd) (exact' : Exact name other) : cmd = other :=
  List.inj_on_of_nodup_map names.distinct cmd_mem other_mem (exact.symm.trans exact')

theorem only_of_nodup {α : Type} {l : List α} {a : α} (distinct : l.Nodup) (member : a ∈ l) (only : ∀ b ∈ l, b = a) : l = [a] := by
  have rep : l = List.replicate l.length a := List.eq_replicate_of_mem only
  have least : l.length ≤ 1 := List.nodup_replicate.mp (rep ▸ distinct)
  have pos : 0 < l.length := List.length_pos_of_mem member
  have one : l.length = 1 := Nat.le_antisymm least pos
  rw [one] at rep
  exact rep

theorem findCmd_iff (names : Names table) {cmd : Command} {rest : List UInt8} :
    findCmd isChar table text auth = some (cmd,rest) ↔
      Resolves table auth (word isChar text) cmd ∧ rest = text.drop (word isChar text).length := by
  have exactly (cmd : Command) (member : cmd ∈ table) := complete_iff isChar text (names.letters cmd member)
  have shortly (cmd : Command) (member : cmd ∈ table) := shortcut_iff isChar text (names.named cmd member).2
  rw [findCmd,findLoop_eq isChar text auth table (fun cmd member => (names.named cmd member).1)]
  cases first : table.find? fun cmd => decide (cmd.auth ≤ auth ∧ complete isChar text cmd = true) with
  | some c =>
    have member := List.mem_of_find?_eq_some first
    have passes := List.find?_some first
    obtain ⟨visible,whole⟩ := of_decide_eq_true passes
    have exact := (exactly c member).mp whole
    have length : c.text.length = (word isChar text).length := by
      have lengths := congrArg List.length exact
      rw [List.length_map,List.length_map] at lengths
      exact lengths.symm
    dsimp only
    rw [length,Option.some_inj,Prod.mk.injEq]
    constructor
    · rintro ⟨rfl,rfl⟩
      exact ⟨⟨⟨member,visible⟩,Or.inl exact⟩,rfl⟩
    · rintro ⟨⟨⟨inside,_⟩,exact' | ⟨none,_⟩⟩,rfl⟩
      · exact ⟨names.exact_unique member inside exact exact',rfl⟩
      · exact absurd exact (none c ⟨member,visible⟩)
  | none =>
    have inexact (other : Command) (visible : Visible table auth other) : ¬ Exact (word isChar text) other := by
      intro exact
      have passed := List.find?_eq_none.mp first other visible.1
      exact passed (decide_eq_true ⟨visible.2,(exactly other visible.1).mpr exact⟩)
    dsimp only
    generalize hits_eq : table.filter (fun cmd => decide (cmd.auth ≤ auth ∧ shortcut isChar text cmd = true)) = hits
    have hit (other : Command) : other ∈ hits ↔ Visible table auth other ∧ Abbreviates (word isChar text) other := by
      rw [← hits_eq,List.mem_filter,decide_eq_true_eq,Visible,and_assoc]
      exact and_congr_right fun member => and_congr_right fun _ => shortly other member
    have front (abbreviates : Abbreviates (word isChar text) cmd) (member : cmd ∈ table) :
        textLength isChar text = (word isChar text).length := by
      rw [textLength_eq,if_pos (Nat.lt_trans abbreviates.2.1 (names.named cmd member).2)]
    rw [Nat.zero_add]
    constructor
    · intro found
      split_ifs at found with one
      obtain ⟨c,rfl⟩ := List.length_eq_one_iff.mp one
      obtain ⟨rfl,rfl⟩ := Prod.mk.inj (Option.some.inj found)
      obtain ⟨visible,abbreviates⟩ := (hit c).mp (List.mem_singleton.mpr rfl)
      refine ⟨⟨visible,Or.inr ⟨inexact,abbreviates,fun other seen short => ?_⟩⟩,?_⟩
      · exact List.mem_singleton.mp ((hit other).mpr ⟨seen,short⟩)
      · rw [front abbreviates visible.1]
    · rintro ⟨⟨visible,exact | ⟨_,abbreviates,only⟩⟩,rfl⟩
      · exact absurd exact (inexact cmd visible)
      · have distinct : hits.Nodup := hits_eq ▸ (List.Nodup.of_map _ names.distinct).filter _
        have alone : hits = [cmd] := by
          apply only_of_nodup distinct ((hit cmd).mpr ⟨visible,abbreviates⟩)
          intro other member
          obtain ⟨seen,short⟩ := (hit other).mp member
          exact only other seen short
        rw [alone,List.length_singleton,if_pos rfl,front abbreviates visible.1]
        rfl

end Search

section Line

variable {σ : Type} (isChar : WordTest) (handlers : Handlers σ)

theorem skipSpaces_suffix (text : List UInt8) : skipSpaces text <:+ text := List.dropWhile_suffix _

theorem processCmd_suffix (cmd : Command) (name text : List UInt8) (access : Access) (unit : σ) :
    (processCmd handlers cmd name text access unit).2.2.1 <:+ text := by
  have spaces := skipSpaces_suffix text
  unfold processCmd
  dsimp only
  split_ifs with parameter none other missing
  · exact spaces
  · exact (List.drop_suffix _ _).trans ((skipSpaces_suffix _).trans ((List.drop_suffix _ _).trans spaces))
  · exact spaces
  · exact spaces
  · exact spaces

-- What is called is a handler of the command itself, at the level of the caller.
theorem processCmd_call {cmd : Command} {name text : List UInt8} {access : Access} {unit : σ} {call : Call}
    (called : (processCmd handlers cmd name text access unit).2.1 = some call) :
    ∃ set, call = ⟨cmd,access.auth,name,set,(processCmd handlers cmd name text access unit).1⟩ := by
  revert called
  unfold processCmd
  dsimp only
  split_ifs with parameter none other missing
  · exact nofun
  · exact fun called => ⟨true,(Option.some.inj called).symm⟩
  · exact nofun
  · exact nofun
  · exact fun called => ⟨false,(Option.some.inj called).symm⟩

/-- What every command of a line keeps, and the errors do not touch, holds at its end. -/
theorem chain_kept {table : List Command} (invariant : Access → List Call → Prop)
    (kept : ∀ cmd name rest access unit calls, invariant access calls →
      invariant (processCmd handlers cmd name rest access unit).2.2.2.1
        (calls ++ (processCmd handlers cmd name rest access unit).2.1.toList))
    (rounds : Nat) {text : List UInt8} {access : Access} {unit : σ} {calls : List Call} {outcome : Outcome σ}
    (start : invariant access calls)
    (ends : chain isChar handlers table rounds text access unit calls = some outcome) :
    invariant outcome.access outcome.calls := by
  induction rounds generalizing text access unit calls with
  | zero => exact absurd ends (by simp [chain])
  | succ rounds ih =>
    rw [chain] at ends
    by_cases past : charAt text 0 = 0
    · rw [if_pos past] at ends
      obtain rfl := Option.some.inj ends
      exact start
    · rw [if_neg past] at ends
      cases found : findCmd isChar table text access.auth with
      | none =>
        rw [found] at ends
        obtain rfl := Option.some.inj ends
        exact start
      | some pair =>
        obtain ⟨cmd,rest⟩ := pair
        rw [found] at ends
        have next := kept cmd text rest access unit calls start
        dsimp only at ends
        split_ifs at ends with failed last
        · obtain rfl := Option.some.inj ends
          exact next
        · obtain rfl := Option.some.inj ends
          exact next
        · exact ih next ends

variable {table : List Command} (names : Names table)

/-- The call was allowed at the level that the caller had then, and by the name in the text. -/
structure Call.Authorized (table : List Command) (call : Call) : Prop where
  allowed : call.cmd.auth ≤ call.auth
  resolved : Resolves table call.auth (word isChar call.text) call.cmd

include names

theorem Resolves.word_pos {auth : UInt8} {name : List UInt8} {cmd : Command} (resolves : Resolves table auth name cmd) :
    0 < name.length := by
  rcases resolves with ⟨visible,exact | ⟨_,abbreviates,_⟩⟩
  · have lengths := congrArg List.length exact
    rw [List.length_map,List.length_map] at lengths
    exact lengths ▸ (names.named cmd visible.1).1
  · exact List.length_pos_iff.mpr abbreviates.1

theorem findCmd_shorter {text rest : List UInt8} {auth : UInt8} {cmd : Command}
    (found : findCmd isChar table text auth = some (cmd,rest)) : rest.length < text.length := by
  obtain ⟨resolves,rfl⟩ := (findCmd_iff isChar text auth names).mp found
  have some := resolves.word_pos names
  have within := (word_starts isChar text).length_le
  rw [List.length_drop]
  omega

theorem findCmd_none {text : List UInt8} {auth : UInt8} (unknown : ∀ cmd, ¬ Resolves table auth (word isChar text) cmd) :
    findCmd isChar table text auth = none := by
  cases found : findCmd isChar table text auth with
  | none => rfl
  | some pair => exact absurd ((findCmd_iff isChar text auth names).mp found).1 (unknown pair.1)

/-- A line comes to an end after no more rounds than it has characters, and keeps to what
the caller may do. -/
theorem chain_authorized (text : List UInt8) (access : Access) (unit : σ) (calls : List Call)
    (before : ∀ call ∈ calls, call.Authorized isChar table) :
    ∃ outcome, (∀ rounds, text.length < rounds → chain isChar handlers table rounds text access unit calls = some outcome) ∧
      ∀ call ∈ outcome.calls, call.Authorized isChar table := by
  induction size : text.length using Nat.strong_induction_on generalizing text access unit calls with
  | _ size ih =>
    subst size
    have open_chain (rounds : Nat) (enough : text.length < rounds) : ∃ more, rounds = more + 1 ∧ text.length ≤ more :=
      ⟨rounds - 1,by omega,by omega⟩
    by_cases past : charAt text 0 = 0
    · refine ⟨⟨true,access,unit,calls⟩,fun rounds enough => ?_,before⟩
      obtain ⟨more,rfl,_⟩ := open_chain rounds enough
      rw [chain,if_pos past]
    · cases found : findCmd isChar table text access.auth with
      | none =>
        refine ⟨⟨false,access,handlers.error (ascii "UNKNOWN COMMAND") unit,calls⟩,fun rounds enough => ?_,before⟩
        obtain ⟨more,rfl,_⟩ := open_chain rounds enough
        rw [chain,if_neg past,found]
      | some pair =>
        obtain ⟨cmd,rest⟩ := pair
        have shorter := findCmd_shorter isChar names found
        obtain ⟨resolves,_⟩ := (findCmd_iff isChar text access.auth names).mp found
        have suffix := processCmd_suffix handlers cmd text rest access unit
        have own (call : Call) := @processCmd_call σ handlers cmd text rest access unit call
        generalize processed : processCmd handlers cmd text rest access unit = result at suffix own
        obtain ⟨ok,called,rest',access',unit'⟩ := result
        have calls' : ∀ call ∈ calls ++ called.toList, call.Authorized isChar table := by
          intro call member
          rcases List.mem_append.mp member with earlier | now
          · exact before call earlier
          · obtain ⟨set,rfl⟩ := own call (Option.mem_toList.mp now)
            exact ⟨resolves.1.2,resolves⟩
        have unfolded (more : Nat) : chain isChar handlers table (more + 1) text access unit calls =
            if ok = false then some ⟨false,access',unit',calls ++ called.toList⟩
            else if charAt (skipSpaces rest') 0 ≠ 0x3B then some ⟨true,access',unit',calls ++ called.toList⟩
            else chain isChar handlers table more (skipSpaces ((skipSpaces rest').drop 1)) access' unit' (calls ++ called.toList) := by
          rw [chain,if_neg past,found]
          dsimp only
          rw [processed]
        generalize calls ++ called.toList = listed at calls' unfolded
        by_cases failed : ok = false
        · refine ⟨⟨false,access',unit',listed⟩,fun rounds enough => ?_,calls'⟩
          obtain ⟨more,rfl,_⟩ := open_chain rounds enough
          rw [unfolded,if_pos failed]
        · by_cases last : charAt (skipSpaces rest') 0 ≠ 0x3B
          · refine ⟨⟨true,access',unit',listed⟩,fun rounds enough => ?_,calls'⟩
            obtain ⟨more,rfl,_⟩ := open_chain rounds enough
            rw [unfolded,if_neg failed,if_pos last]
          · have left : (skipSpaces ((skipSpaces rest').drop 1)).length < text.length := by
              have next := ((skipSpaces_suffix _).trans ((List.drop_suffix 1 _).trans
                ((skipSpaces_suffix rest').trans suffix))).length_le
              exact Nat.lt_of_le_of_lt next shorter
            obtain ⟨outcome,ends,authorized⟩ := ih _ left _ access' unit' _ calls' rfl
            refine ⟨outcome,fun rounds enough => ?_,authorized⟩
            obtain ⟨more,rfl,within⟩ := open_chain rounds enough
            rw [unfolded,if_neg failed,if_neg last]
            exact ends more (Nat.lt_of_lt_of_le left within)

/-- The two units do the same where a command of the table is called by one who may call it. -/
structure Agree (table : List Command) (handlers handlers' : Handlers σ) : Prop where
  get : ∀ cmd ∈ table, ∀ access, cmd.auth ≤ access.auth → handlers.get cmd access = handlers'.get cmd access
  set : ∀ cmd ∈ table, ∀ text access, cmd.auth ≤ access.auth → handlers.set cmd text access = handlers'.set cmd text access
  error : handlers.error = handlers'.error

omit names in
theorem processCmd_agree {handlers handlers' : Handlers σ} (agree : Agree table handlers handlers') {cmd : Command} {access : Access}
    (visible : Visible table access.auth cmd) (name text : List UInt8) (unit : σ) :
    processCmd handlers cmd name text access unit = processCmd handlers' cmd name text access unit := by
  unfold processCmd
  rw [agree.get cmd visible.1 access visible.2,agree.error]
  simp only [agree.set cmd visible.1 _ access visible.2]

-- The search comes before every call, with the level that the caller has then.
theorem chain_agree {handlers handlers' : Handlers σ} (agree : Agree table handlers handlers') (rounds : Nat) (text : List UInt8)
    (access : Access) (unit : σ) (calls : List Call) :
    chain isChar handlers table rounds text access unit calls = chain isChar handlers' table rounds text access unit calls := by
  induction rounds generalizing text access unit calls with
  | zero => rfl
  | succ rounds ih =>
    rw [chain,chain,agree.error]
    cases found : findCmd isChar table text access.auth with
    | none => rfl
    | some pair =>
      obtain ⟨cmd,rest⟩ := pair
      obtain ⟨resolves,_⟩ := (findCmd_iff isChar text access.auth names).mp found
      dsimp only
      rw [processCmd_agree agree resolves.1]
      simp only [ih]

end Line

section Commands

variable {σ : Type} (isChar : WordTest) (handlers : Handlers σ)

/-- Lines of commands stay within what the caller may do: a name stands for what it
resolves to, an unknown one ends the line with an error and without a call, every line
comes to its end with authorized calls only, and what the handlers do when others call
them makes no difference. -/
structure Authorizes (table : List Command) : Prop where
  resolution : ∀ text auth cmd rest, findCmd isChar table text auth = some (cmd,rest) ↔
    Resolves table auth (word isChar text) cmd ∧ rest = text.drop (word isChar text).length
  refusal : ∀ rounds text access unit calls, charAt text 0 ≠ 0 →
    (∀ cmd, ¬ Resolves table access.auth (word isChar text) cmd) →
      chain isChar handlers table (rounds + 1) text access unit calls =
        some ⟨false,access,handlers.error (ascii "UNKNOWN COMMAND") unit,calls⟩
  lines : ∀ text access unit, ∃ outcome,
    (∀ rounds, text.length < rounds → cmdProcessText isChar handlers table rounds text access unit = some outcome) ∧
      ∀ call ∈ outcome.calls, call.Authorized isChar table
  handled : ∀ handlers', Agree table handlers handlers' → ∀ rounds text access unit,
    cmdProcessText isChar handlers table rounds text access unit = cmdProcessText isChar handlers' table rounds text access unit

theorem cmdTable_authorizes : Authorizes isChar handlers cmdTable where
  resolution text auth _ _ := findCmd_iff isChar text auth cmdTable_names
  refusal rounds text access unit calls more unknown := by
    rw [chain,if_neg more,findCmd_none isChar cmdTable_names unknown]
  lines text access unit := by
    obtain ⟨outcome,ends,authorized⟩ := chain_authorized isChar handlers cmdTable_names (skipSpaces text) access unit []
      fun _ member => absurd member List.not_mem_nil
    refine ⟨outcome,fun rounds enough => ends rounds ?_,authorized⟩
    exact Nat.lt_of_le_of_lt (skipSpaces_suffix text).length_le enough
  handled _ agree rounds text access unit := chain_agree isChar cmdTable_names agree rounds (skipSpaces text) access unit []

/-- A test for letters and digits. -/
def alphanumeric : WordTest where
  test c := decide (IsLetter c) || (0x30 ≤ c && c ≤ 0x39)
  letter c letter := by simp [letter]
  nul := by decide

example : (findCmd alphanumeric cmdTable (ascii "st=1") accessUser).map (fun found => found.1.text) = some (ascii "STATUS") := by
  decide +kernel

end Commands

end JcaFirmware.Cmd
