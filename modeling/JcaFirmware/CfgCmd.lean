import JcaFirmware.Cfg

/-! The command CFG (`_cmd_cfg` and `_cmd_cfg_set` of `app/cmd.c`), at some level of
access: what it shows and what it changes. The parsers of texts and the buffer of the reply
are parameters. -/
namespace JcaFirmware.Cfg
open Foundation Numeral CText Cmd

/-- `parse_number` and `parse_separator`, and the text that `cmd_fetch_string` and
`buf_init_full` make of theirs. -/
structure Parser where
  number : List UInt8 → Option (BitVec 32 × List UInt8)
  separator : List UInt8 → Option (List UInt8)
  string : List UInt8 → Option (List UInt8 × List UInt8)

/-- What `buf_append_fmt` and `buf_append_str` do to the buffer of the reply. -/
structure Buffer (β : Type) where
  fmt : List UInt8 → β → β
  str : List UInt8 → β → β

def decimal (i : Int) : List UInt8 := if i < 0 then 0x2D :: numeral 10 i.natAbs else numeral 10 i.natAbs

-- A number of the command is 32 bits wide, and an item has 16.
def cfgIdOf (number : BitVec 32) : Nat := number.toNat % 2 ^ 16

inductive CfgCommand
  | cfg
  | set (text : List UInt8)
deriving DecidableEq, Repr

section Commands

variable {β : Type} (signed : Bool) (beyond nl : List UInt8) (parser : Parser) (buffer : Buffer β) (cmd : Command)
  (auth : UInt8)

/-- The line of an item, with the number as it was given. -/
def appendItem (shown : Int) (text : Option (List UInt8)) (result : β) : β :=
  let result := buffer.fmt (cmd.text ++ ascii ":" ++ decimal shown ++ ascii ",\"") result
  let result := match text with
    | none => result
    | some text => buffer.str text result
  buffer.str nl (buffer.str (ascii "\"") result)

-- The rounds are those of the `for` loop that are left.
def cmdCfgLoop (s : Storage) : Nat → Nat → β → β
  | 0, _, result => result
  | rounds + 1, i, result =>
    let cfgId := cfgTableGetId i
    if cfgId = cfgIdEnd then result
    else if cfgTableAccessRead cfgId auth = false then cmdCfgLoop s rounds (i + 1) result
    else cmdCfgLoop s rounds (i + 1) (appendItem nl buffer cmd cfgId (cfgRead signed beyond cfgId auth s).2 result)

def cmdCfg (result : β) (s : Storage) : β := cmdCfgLoop signed beyond nl buffer cmd auth s 1000 0 result

def cmdCfgSet (text : List UInt8) (result : β) (s : Storage) : Bool × List UInt8 × β × Storage :=
  match parser.number text with
  | none => (false,text,result,s)
  | some (cfgId,text) =>
    match parser.separator text with
    | none =>
      let (ret,read) := cfgRead signed beyond (cfgIdOf cfgId) auth s
      (ret,text,appendItem nl buffer cmd cfgId.toInt read result,s)
    | some text =>
      match parser.string text with
      | none => (false,text,result,s)
      | some (src,text) =>
        let (written,s) := cfgWrite signed (cfgIdOf cfgId) src auth s
        (written,text,result,s)

def execute (command : CfgCommand) (result : β) (s : Storage) : Bool × List UInt8 × β × Storage :=
  match command with
  | .cfg => (true,[],cmdCfg signed beyond nl buffer cmd auth result s,s)
  | .set text => cmdCfgSet signed beyond nl parser buffer cmd auth text result s

end Commands

section Interference

/-- The stores agree in all that may be read at the level. -/
structure Agree (auth : UInt8) (s s' : Storage) : Prop where
  ready : s.ready = s'.ready
  slots : ∀ t ∈ cfgTable, t.readAccess ≤ auth → slot t.cfgId s = slot t.cfgId s'

theorem Agree.of_differ {auth : UInt8} {s s' : Storage} (ready : s.ready = s'.ready)
    (above : ∀ a, s.flash a ≠ s'.flash a → ∃ t ∈ cfgTable, auth < t.readAccess ∧
      t.cfgId * sizeofCfg ≤ a ∧ a < t.cfgId * sizeofCfg + sizeofCfg) : Agree auth s s' := by
  refine ⟨ready,fun t member level => Bytes.read_congr fun a low high => ?_⟩
  by_contra different
  obtain ⟨other,member',secret,low',high'⟩ := above a different
  have place (id : Nat) (low : id * sizeofCfg ≤ a) (high : a < id * sizeofCfg + sizeofCfg) : a / sizeofCfg = id :=
    Nat.div_eq_of_lt_le (by omega) (by rw [Nat.succ_mul]; exact high)
  have same : t = other := List.inj_on_of_nodup_map cfgTable_nodup member member'
    ((place _ low high).symm.trans (place _ low' high'))
  exact absurd level (UInt8.not_le.mpr (same ▸ secret))

variable {β : Type} (signed : Bool) (beyond nl : List UInt8) (parser : Parser) (buffer : Buffer β) (cmd : Command)
  (auth : UInt8)

def reply (command : CfgCommand) (result : β) (s : Storage) : Bool × List UInt8 × β :=
  let done := execute signed beyond nl parser buffer cmd auth command result s
  (done.1,done.2.1,done.2.2.1)

def after (command : CfgCommand) (result : β) (s : Storage) : Storage :=
  (execute signed beyond nl parser buffer cmd auth command result s).2.2.2

/-- A command of some level shows nothing of the items that may not be read at it, and
changes none that may not be written at it. -/
structure NonInterfering (command : CfgCommand) (result : β) : Prop where
  replies : ∀ s s', Agree auth s s' →
    reply signed beyond nl parser buffer cmd auth command result s = reply signed beyond nl parser buffer cmd auth command result s'
  unchanged : ∀ s, ∀ t ∈ cfgTable, auth < t.writeAccess →
    slot t.cfgId (after signed beyond nl parser buffer cmd auth command result s) = slot t.cfgId s

theorem cfgRead_agree {s s' : Storage} (agree : Agree auth s s') (id : Nat) :
    cfgRead signed beyond id auth s = cfgRead signed beyond id auth s' := by
  by_cases listed : ∃ t ∈ cfgTable, t.cfgId = id
  · obtain ⟨t,member,rfl⟩ := listed
    rw [cfgRead_eq signed beyond member,cfgRead_eq signed beyond member,agree.ready]
    by_cases level : t.readAccess ≤ auth
    · rw [agree.slots t member level]
    · rw [if_neg fun both => level both.1,if_neg fun both => level both.1]
  · have unlisted : ∀ t ∈ cfgTable, t.cfgId ≠ id := fun t member equal => listed ⟨t,member,equal⟩
    rw [cfgRead_unlisted signed beyond unlisted,cfgRead_unlisted signed beyond unlisted]

theorem cmdCfgLoop_agree {s s' : Storage} (agree : Agree auth s s') (rounds i : Nat) (result : β) :
    cmdCfgLoop signed beyond nl buffer cmd auth s rounds i result = cmdCfgLoop signed beyond nl buffer cmd auth s' rounds i result := by
  induction rounds generalizing i result with
  | zero => rfl
  | succ rounds ih =>
    rw [cmdCfgLoop,cmdCfgLoop,cfgRead_agree signed beyond auth agree,ih,ih]

def writes : CfgCommand → Option (Nat × List UInt8)
  | .cfg => none
  | .set text => do
    let (cfgId,text) ← parser.number text
    let text ← parser.separator text
    let (src,_) ← parser.string text
    some (cfgIdOf cfgId,src)

/-- All that a command does to the store. -/
theorem after_eq (command : CfgCommand) (result : β) (s : Storage) :
    after signed beyond nl parser buffer cmd auth command result s =
      match writes parser command with
      | none => s
      | some (id,src) => (cfgWrite signed id src auth s).2 := by
  cases command with
  | cfg => rfl
  | set text =>
    rw [after,execute,cmdCfgSet,writes]
    cases parser.number text with
    | none => rfl
    | some first =>
      obtain ⟨cfgId,text⟩ := first
      dsimp only [Option.bind_eq_bind,Option.bind_some]
      cases parser.separator text with
      | none => rfl
      | some text =>
        dsimp only [Option.bind_some]
        cases parser.string text with
        | none => rfl
        | some last => rfl

theorem Accepted.congr {s s' : Storage} (ready : s.ready = s'.ready) (id : Nat) (src : List UInt8) :
    Accepted id src auth s ↔ Accepted id src auth s' := by
  rw [Accepted,Accepted,ready]

theorem cfgWrite_reply {s s' : Storage} (ready : s.ready = s'.ready) (id : Nat) (src : List UInt8) :
    (cfgWrite signed id src auth s).1 = (cfgWrite signed id src auth s').1 := by
  rw [cfgWrite_eq,cfgWrite_eq]
  by_cases accepted : Accepted id src auth s
  · rw [if_pos accepted,if_pos ((Accepted.congr auth ready id src).mp accepted)]
  · rw [if_neg accepted,if_neg (mt (Accepted.congr auth ready id src).mpr accepted)]

theorem reply_agree {s s' : Storage} (agree : Agree auth s s') (command : CfgCommand) (result : β) :
    reply signed beyond nl parser buffer cmd auth command result s =
      reply signed beyond nl parser buffer cmd auth command result s' := by
  cases command with
  | cfg =>
    rw [reply,reply,execute,execute,cmdCfg,cmdCfg,cmdCfgLoop_agree signed beyond nl buffer cmd auth agree]
  | set text =>
    rw [reply,reply,execute,execute,cmdCfgSet,cmdCfgSet]
    cases parser.number text with
    | none => rfl
    | some first =>
      obtain ⟨cfgId,text⟩ := first
      dsimp only
      cases parser.separator text with
      | none =>
        dsimp only
        rw [cfgRead_agree signed beyond auth agree]
      | some text =>
        dsimp only
        cases parser.string text with
        | none => rfl
        | some last =>
          dsimp only
          rw [cfgWrite_reply signed auth agree.ready]

theorem after_slot {command : CfgCommand} {result : β} {s : Storage} {id : Nat}
    (other : ∀ src, writes parser command = some (id,src) → ¬ Accepted id src auth s) :
    slot id (after signed beyond nl parser buffer cmd auth command result s) = slot id s := by
  rw [after_eq]
  cases written : writes parser command with
  | none => rfl
  | some item =>
    obtain ⟨id',src⟩ := item
    dsimp only
    rw [cfgWrite_eq]
    split_ifs with accepted
    · have different : id ≠ id' := fun same => other src (same ▸ written) (same ▸ accepted)
      exact slot_stored_ne signed accepted.1 different s
    · rfl

theorem cfg_noninterfering (command : CfgCommand) (result : β) :
    NonInterfering signed beyond nl parser buffer cmd auth command result where
  replies _ _ agree := reply_agree signed beyond nl parser buffer cmd auth agree command result
  unchanged s t member level := by
    apply after_slot
    rintro src _ ⟨_,access,_⟩
    obtain ⟨other,member',same,above⟩ := accessWrite_iff.mp access
    obtain rfl := List.inj_on_of_nodup_map cfgTable_nodup member' member same
    exact absurd above (UInt8.not_le.mpr level)

/-- Stores that agree before a command agree after it, -/
theorem Agree.after {s s' : Storage} (agree : Agree auth s s') (command : CfgCommand) (result : β) :
    Agree auth (after signed beyond nl parser buffer cmd auth command result s)
      (Cfg.after signed beyond nl parser buffer cmd auth command result s') := by
  rw [after_eq,after_eq]
  cases writes parser command with
  | none => exact agree
  | some item =>
    obtain ⟨id,src⟩ := item
    dsimp only
    rw [cfgWrite_eq,cfgWrite_eq]
    by_cases accepted : Accepted id src auth s
    · rw [if_pos accepted,if_pos ((Accepted.congr auth agree.ready id src).mp accepted)]
      refine ⟨agree.ready,fun t member level => ?_⟩
      by_cases same : t.cfgId = id
      · rw [same,slot_stored signed accepted.1,slot_stored signed accepted.1]
      · rw [slot_stored_ne signed accepted.1 same,slot_stored_ne signed accepted.1 same,agree.slots t member level]
    · rw [if_neg accepted,if_neg (mt (Accepted.congr auth agree.ready id src).mpr accepted)]
      exact agree

/-- What the caller sees of the commands of a session, each with a buffer of its own. -/
def session (result : β) : List CfgCommand → Storage → List (Bool × List UInt8 × β)
  | [], _ => []
  | command :: commands, s =>
    reply signed beyond nl parser buffer cmd auth command result s ::
      session result commands (after signed beyond nl parser buffer cmd auth command result s)

/-- so a whole session shows nothing of the items above its level. -/
theorem session_agree {s s' : Storage} (agree : Agree auth s s') (result : β) (commands : List CfgCommand) :
    session signed beyond nl parser buffer cmd auth result commands s =
      session signed beyond nl parser buffer cmd auth result commands s' := by
  induction commands generalizing s s' with
  | nil => rfl
  | cons command commands ih =>
    rw [session,session,reply_agree signed beyond nl parser buffer cmd auth agree,
      ih (agree.after signed beyond nl parser buffer cmd auth command result)]

end Interference

end JcaFirmware.Cfg
