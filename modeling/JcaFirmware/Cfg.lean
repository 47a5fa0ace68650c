import JcaFirmware.Cmd
import JcaFirmware.Foundation.Memory

/-! The configuration store (`app/cfg.c`, `app/cfg_table.c`, `app/storage.c`): texts in slots of 64
bytes, with a checksum each. The flash is a memory; the bytes that follow `cfg_buf` in
the memory of the processor are a parameter. -/
namespace JcaFirmware.Cfg
open Foundation Numeral CText Cmd

def cfgItemSize : Nat := 62
def sizeofCfg : Nat := 64
def storageCfgSpace : Nat := 128 * 1024
def cfgIdEnd : Nat := 0xFFFF

structure CfgItem where
  cfgId : Nat
  readAccess : UInt8
  writeAccess : UInt8
  data : List UInt8
deriving DecidableEq, Repr

/-- `CFG_TABLE`, without its end mark. -/
def cfgTable : List CfgItem := [
  ⟨0,accessSystem,accessSystem,ascii "S1"⟩,
  ⟨1,accessSystem,accessSystem,ascii "uhlokRopnude"⟩,
  ⟨2,accessSystem,accessAdmin,ascii "admin"⟩,
  ⟨3,accessUser,accessAdmin,ascii "5,0,0"⟩,
  ⟨4,accessUser,accessAdmin,ascii "0"⟩,
  ⟨5,accessUser,accessAdmin,ascii "17,18,19"⟩,
  ⟨10,accessAdmin,accessAdmin,ascii "1234"⟩,
  ⟨11,accessUser,accessAdmin,ascii "internet"⟩,
  ⟨12,accessUser,accessSystem,ascii "0xF,0x8080085,0x8080085"⟩,
  ⟨13,accessUser,accessAdmin,ascii "0"⟩,
  ⟨20,accessUser,accessAdmin,ascii "0.0.0.0:5013"⟩,
  ⟨21,accessUser,accessAdmin,ascii "000000,10,30,300,0,3,0,3"⟩,
  ⟨22,accessUser,accessAdmin,ascii "0.0.0.0:4444"⟩,
  ⟨24,accessUser,accessAdmin,ascii "0.0.0.0:3333"⟩,
  ⟨25,accessSystem,accessAdmin,ascii "80feb47cae3c19274f2408d35398514c"⟩,
  ⟨30,accessUser,accessUser,ascii "1,1"⟩,
  ⟨40,accessUser,accessAdmin,ascii "Your alarm reports: "⟩,
  ⟨50,accessUser,accessAdmin,ascii "Admin"⟩,
  ⟨51,accessUser,accessUser,ascii "User 1"⟩,
  ⟨52,accessUser,accessUser,ascii "User 2"⟩,
  ⟨53,accessUser,accessUser,ascii "User 3"⟩,
  ⟨54,accessUser,accessUser,ascii "User 4"⟩,
  ⟨101,accessUser,accessUser,ascii ""⟩,
  ⟨102,accessUser,accessUser,ascii ""⟩,
  ⟨103,accessUser,accessUser,ascii ""⟩,
  ⟨104,accessUser,accessUser,ascii ""⟩,
  ⟨151,accessAdmin,accessAdmin,ascii ""⟩,
  ⟨152,accessAdmin,accessAdmin,ascii ""⟩,
  ⟨153,accessAdmin,accessAdmin,ascii ""⟩,
  ⟨154,accessAdmin,accessAdmin,ascii ""⟩,
  ⟨200,accessUser,accessUser,ascii ""⟩,
  ⟨201,accessUser,accessUser,ascii ""⟩,
  ⟨202,accessUser,accessUser,ascii ""⟩,
  ⟨203,accessUser,accessUser,ascii ""⟩,
  ⟨204,accessUser,accessUser,ascii ""⟩,
  ⟨205,accessUser,accessUser,ascii ""⟩,
  ⟨206,accessUser,accessUser,ascii ""⟩,
  ⟨207,accessUser,accessUser,ascii ""⟩,
  ⟨300,accessUser,accessAdmin,ascii "Boot up"⟩,
  ⟨301,accessUser,accessAdmin,ascii "Shut down"⟩,
  ⟨302,accessUser,accessAdmin,ascii "Power fail"⟩,
  ⟨303,accessUser,accessAdmin,ascii "Power recovery"⟩,
  ⟨304,accessUser,accessAdmin,ascii "Battery LOW"⟩,
  ⟨305,accessUser,accessAdmin,ascii "Battery OK"⟩,
  ⟨306,accessUser,accessAdmin,ascii "Set"⟩,
  ⟨307,accessUser,accessAdmin,ascii "Unset"⟩,
  ⟨308,accessUser,accessAdmin,ascii "Alarm"⟩,
  ⟨310,accessUser,accessAdmin,ascii "Alarm cancel"⟩,
  ⟨311,accessUser,accessAdmin,ascii "Alarm timeout"⟩,
  ⟨312,accessUser,accessAdmin,ascii "Fault"⟩,
  ⟨313,accessUser,accessAdmin,ascii "Fault recovery"⟩,
  ⟨314,accessUser,accessAdmin,ascii "Jamming"⟩,
  ⟨315,accessUser,accessAdmin,ascii "No jamming"⟩,
  ⟨316,accessUser,accessAdmin,ascii "Track point"⟩,
  ⟨400,accessUser,accessAdmin,ascii "Unknown"⟩,
  ⟨401,accessUser,accessAdmin,ascii "Unit"⟩,
  ⟨402,accessUser,accessAdmin,ascii "Ignition key"⟩,
  ⟨403,accessUser,accessAdmin,ascii "Door"⟩,
  ⟨404,accessUser,accessAdmin,ascii "Input 1"⟩,
  ⟨405,accessUser,accessAdmin,ascii "Shock detector"⟩,
  ⟨406,accessUser,accessAdmin,ascii "Lock"⟩,
  ⟨407,accessUser,accessAdmin,ascii "Network"⟩,
  ⟨408,accessUser,accessAdmin,ascii "Battery"⟩,
  ⟨409,accessUser,accessAdmin,ascii "Input 2"⟩,
  ⟨410,accessUser,accessAdmin,ascii "Input 3"⟩,
  ⟨411,accessUser,accessAdmin,ascii ""⟩,
  ⟨412,accessUser,accessAdmin,ascii ""⟩,
  ⟨413,accessUser,accessAdmin,ascii ""⟩,
  ⟨414,accessUser,accessAdmin,ascii ""⟩,
  ⟨415,accessUser,accessAdmin,ascii ""⟩]

def tableGet (id : Nat) : Option CfgItem := cfgTable.find? fun t => t.cfgId = id

def cfgTableGetId (row : Nat) : Nat := ((cfgTable[row]?).map CfgItem.cfgId).getD cfgIdEnd

/-- `cfg_table_default`, with the array that it fills. -/
def cfgTableDefault (id : Nat) : Option (List UInt8) := (tableGet id).map fun t => strncpy cfgItemSize t.data

def cfgTableAccessRead (id : Nat) (auth : UInt8) : Bool := (tableGet id).any fun t => t.readAccess ≤ auth

def cfgTableAccessWrite (id : Nat) (auth : UInt8) : Bool := (tableGet id).any fun t => t.writeAccess ≤ auth

structure Storage where
  ready : Bool
  flash : Bytes

def storageWriteCfg (offset : Nat) (src : List UInt8) (s : Storage) : Bool × Storage :=
  if s.ready = false then (false,s)
  else if storageCfgSpace < offset + src.length then (false,s)
  else (true,{s with flash := s.flash.write offset src})

def storageReadCfg (offset len : Nat) (s : Storage) : Option (List UInt8) :=
  if s.ready = false then none
  else if storageCfgSpace < offset + len then none
  else some (s.flash.read offset len)

section Item

-- Whether `char` is signed is up to the compiler.
variable (signed : Bool) (beyond : List UInt8)

def charValue (c : UInt8) : Nat := if signed = true ∧ 0x80 ≤ c then c.toNat + 0xFF00 else c.toNat

def cfgChsum (data : List UInt8) : Nat := data.foldl (fun chsum c => (chsum + charValue signed c) % 2 ^ 16) 0xAABC

/-- `_cfg_valid`, for the bytes of a `cfg_t`. -/
def cfgValid (cfg : List UInt8) : Bool := cfgChsum signed (cfg.take cfgItemSize) = numberOf (cfg.drop cfgItemSize)

/-- The `cfg_t` that `cfg_write` makes of a text. -/
def cfgOf (src : List UInt8) : List UInt8 :=
  let data := src ++ List.replicate (cfgItemSize - src.length) 0
  data ++ bytesOf 2 (cfgChsum signed data)

-- The request for the module of the item is left out: no item is changed by it.
def cfgWrite (id : Nat) (src : List UInt8) (auth : UInt8) (s : Storage) : Bool × Storage :=
  if cfgItemSize < src.length then (false,s)
  else if cfgTableAccessWrite id auth = false then (false,s)
  else storageWriteCfg (id * sizeofCfg) (cfgOf signed src) s

/-- `cfg_read`, with the text that it appends to the buffer. -/
def cfgRead (id : Nat) (auth : UInt8) (s : Storage) : Bool × Option (List UInt8) :=
  if cfgTableAccessRead id auth = false then (false,none)
  else
    match storageReadCfg (id * sizeofCfg) sizeofCfg s with
    | none => (false,none)
    | some cfg =>
      if cfgValid signed cfg then (true,some (cString (cfg ++ beyond)))
      else
        match cfgTableDefault id with
        | some tmp => (true,some (cString tmp))
        | none => (false,some (ascii "<missing " ++ numeral 10 id ++ ascii ">"))

end Item

section Table

theorem cfgTable_nodup : (cfgTable.map CfgItem.cfgId).Nodup := by
  decide +kernel

theorem cfgTable_fits : ∀ t ∈ cfgTable, t.cfgId * sizeofCfg + sizeofCfg ≤ storageCfgSpace := by
  decide +kernel

theorem cfgTable_defaults : ∀ t ∈ cfgTable, t.data.length < cfgItemSize ∧ 0 ∉ t.data := by
  decide +kernel

theorem tableGet_iff {id : Nat} {t : CfgItem} : tableGet id = some t ↔ t ∈ cfgTable ∧ t.cfgId = id := by
  constructor
  · intro found
    exact ⟨List.mem_of_find?_eq_some found,by simpa using List.find?_some found⟩
  · rintro ⟨member,rfl⟩
    cases found : tableGet t.cfgId with
    | none => exact absurd (List.find?_eq_none.mp found t member) (by simp)
    | some other =>
      have same : other.cfgId = t.cfgId := by simpa using List.find?_some found
      rw [List.inj_on_of_nodup_map cfgTable_nodup (List.mem_of_find?_eq_some found) member same]

theorem accessRead_iff {id : Nat} {auth : UInt8} :
    cfgTableAccessRead id auth = true ↔ ∃ t ∈ cfgTable, t.cfgId = id ∧ t.readAccess ≤ auth := by
  rw [cfgTableAccessRead,Option.any_eq_true]
  simp only [tableGet_iff,decide_eq_true_eq,and_assoc]

theorem accessWrite_iff {id : Nat} {auth : UInt8} :
    cfgTableAccessWrite id auth = true ↔ ∃ t ∈ cfgTable, t.cfgId = id ∧ t.writeAccess ≤ auth := by
  rw [cfgTableAccessWrite,Option.any_eq_true]
  simp only [tableGet_iff,decide_eq_true_eq,and_assoc]

theorem default_text {t : CfgItem} (member : t ∈ cfgTable) : (cfgTableDefault t.cfgId).map cString = some t.data := by
  obtain ⟨short,nulFree⟩ := cfgTable_defaults t member
  rw [cfgTableDefault,tableGet_iff.mpr ⟨member,rfl⟩,Option.map_some,Option.map_some,strncpy_short short,
    cString_append nulFree,cString_nul,List.append_nil]

end Table

section Slots

variable (signed : Bool) (beyond : List UInt8) {s : Storage}

/-- What the flash holds of an item. -/
def slot (id : Nat) (s : Storage) : List UInt8 := s.flash.read (id * sizeofCfg) sizeofCfg

/-- What a read of an item comes to where it is allowed. -/
def textOf (t : CfgItem) (cfg : List UInt8) : List UInt8 := if cfgValid signed cfg then cString (cfg ++ beyond) else t.data

theorem cfgRead_eq {t : CfgItem} (member : t ∈ cfgTable) (auth : UInt8) (s : Storage) :
    cfgRead signed beyond t.cfgId auth s =
      if t.readAccess ≤ auth ∧ s.ready = true then (true,some (textOf signed beyond t (slot t.cfgId s))) else (false,none) := by
  have found := tableGet_iff.mpr ⟨member,rfl⟩
  have fits := cfgTable_fits t member
  have text := default_text member
  rw [cfgRead,cfgTableAccessRead,found,Option.any_some,storageReadCfg,if_neg (Nat.not_lt.mpr fits)]
  by_cases allowed : t.readAccess ≤ auth
  · rw [if_neg (by simp [allowed])]
    cases ready : s.ready with
    | false => simp
    | true =>
      rw [if_neg (by decide),if_pos ⟨allowed,rfl⟩,textOf,slot]
      dsimp only
      split_ifs
      · rfl
      · cases missing : cfgTableDefault t.cfgId with
        | none =>
          rw [missing] at text
          cases text
        | some tmp =>
          rw [missing] at text
          exact congrArg (Prod.mk true) text
  · rw [if_pos (by simp [allowed]),if_neg (by simp [allowed])]

theorem cfgRead_unlisted {id : Nat} (unlisted : ∀ t ∈ cfgTable, t.cfgId ≠ id) (auth : UInt8) (s : Storage) :
    cfgRead signed beyond id auth s = (false,none) := by
  have denied : cfgTableAccessRead id auth = false := by
    rw [Bool.eq_false_iff,Ne,accessRead_iff]
    rintro ⟨t,member,same,_⟩
    exact unlisted t member same
  rw [cfgRead,if_pos denied]

def Accepted (id : Nat) (src : List UInt8) (auth : UInt8) (s : Storage) : Prop :=
  src.length ≤ cfgItemSize ∧ cfgTableAccessWrite id auth = true ∧ s.ready = true

instance (id : Nat) (src : List UInt8) (auth : UInt8) (s : Storage) : Decidable (Accepted id src auth s) :=
  inferInstanceAs (Decidable (_ ∧ _))

def stored (id : Nat) (src : List UInt8) (s : Storage) : Storage :=
  {s with flash := s.flash.write (id * sizeofCfg) (cfgOf signed src)}

theorem length_cfgOf {src : List UInt8} (fits : src.length ≤ cfgItemSize) : (cfgOf signed src).length = sizeofCfg := by
  rw [cfgOf,List.length_append,List.length_append,List.length_replicate,length_bytesOf,Nat.add_sub_cancel' fits]
  rfl

theorem cfgWrite_eq (id : Nat) (src : List UInt8) (auth : UInt8) (s : Storage) :
    cfgWrite signed id src auth s = if Accepted id src auth s then (true,stored signed id src s) else (false,s) := by
  rw [cfgWrite]
  by_cases long : cfgItemSize < src.length
  · rw [if_pos long,if_neg fun accepted => absurd accepted.1 (Nat.not_le.mpr long)]
  · have fits := Nat.not_lt.mp long
    rw [if_neg long]
    cases access : cfgTableAccessWrite id auth with
    | false => rw [if_pos rfl,if_neg fun accepted => absurd accepted.2.1 (by simp [access])]
    | true =>
      obtain ⟨t,member,rfl,_⟩ := accessWrite_iff.mp access
      rw [if_neg Bool.noConfusion,storageWriteCfg,length_cfgOf signed fits,if_neg (Nat.not_lt.mpr (cfgTable_fits t member))]
      cases ready : s.ready with
      | false => rw [if_pos rfl,if_neg fun accepted => absurd accepted.2.2 (by simp [ready])]
      | true => rw [if_neg Bool.noConfusion,if_pos ⟨fits,access,ready⟩,stored,ready]

theorem slot_stored {src : List UInt8} (fits : src.length ≤ cfgItemSize) (id : Nat) (s : Storage) :
    slot id (stored signed id src s) = cfgOf signed src := by
  have filled := s.flash.read_write (id * sizeofCfg) (cfgOf signed src)
  rwa [length_cfgOf signed fits] at filled

theorem slot_stored_ne {src : List UInt8} (fits : src.length ≤ cfgItemSize) {id other : Nat} (different : other ≠ id) (s : Storage) :
    slot other (stored signed id src s) = slot other s := by
  apply Bytes.read_write_apart
  rw [length_cfgOf signed fits]
  rcases Nat.lt_or_gt_of_ne different with less | greater
  · exact Or.inr (by rw [← Nat.succ_mul]; exact Nat.mul_le_mul_right _ less)
  · exact Or.inl (by rw [← Nat.succ_mul]; exact Nat.mul_le_mul_right _ greater)

theorem cfgRead_congr {id : Nat} {s s' : Storage} (ready : s.ready = s'.ready) (same : slot id s = slot id s') (auth : UInt8) :
    cfgRead signed beyond id auth s = cfgRead signed beyond id auth s' := by
  by_cases listed : ∃ t ∈ cfgTable, t.cfgId = id
  · obtain ⟨t,member,rfl⟩ := listed
    rw [cfgRead_eq signed beyond member,cfgRead_eq signed beyond member,ready,same]
  · have unlisted : ∀ t ∈ cfgTable, t.cfgId ≠ id := fun t member equal => listed ⟨t,member,equal⟩
    rw [cfgRead_unlisted signed beyond unlisted,cfgRead_unlisted signed beyond unlisted]

end Slots

section Checksum

variable (signed : Bool)

theorem cfgChsum_lt (data : List UInt8) : cfgChsum signed data < 256 ^ 2 := by
  rw [cfgChsum]
  cases data using List.reverseRecOn with
  | nil => exact (by decide : 0xAABC < 256 ^ 2)
  | append_singleton data c =>
    rw [List.foldl_append]
    exact Nat.mod_lt _ (by decide)

/-- The low byte of the checksum is that of the plain sum, whatever `char` is. -/
theorem cfgChsum_low (data : List UInt8) : UInt8.ofNat (cfgChsum signed data) = data.foldl (· + ·) 0xBC := by
  have step (chsum : Nat) (c : UInt8) :
      UInt8.ofNat ((chsum + charValue signed c) % 2 ^ 16) = UInt8.ofNat chsum + c := by
    rw [charValue]
    apply UInt8.toNat_inj.mp
    have small := c.toNat_lt
    rw [UInt8.toNat_add,UInt8.toNat_ofNat',UInt8.toNat_ofNat']
    split_ifs <;> omega
  have general (chsum : Nat) : UInt8.ofNat (data.foldl (fun chsum c => (chsum + charValue signed c) % 2 ^ 16) chsum) =
      data.foldl (· + ·) (UInt8.ofNat chsum) := by
    induction data generalizing chsum with
    | nil => rfl
    | cons c data ih => rw [List.foldl_cons,List.foldl_cons,ih,step]
  exact general 0xAABC

theorem cfgValid_cfgOf {src : List UInt8} (fits : src.length ≤ cfgItemSize) : cfgValid signed (cfgOf signed src) = true := by
  have length : (src ++ List.replicate (cfgItemSize - src.length) 0).length = cfgItemSize := by
    rw [List.length_append,List.length_replicate,Nat.add_sub_cancel' fits]
  rw [cfgValid,cfgOf]
  generalize src ++ List.replicate (cfgItemSize - src.length) 0 = data at length ⊢
  rw [List.take_left' length,List.drop_left' length,numberOf_bytesOf (cfgChsum_lt signed data)]
  exact decide_eq_true rfl

/-- What is read of a text that was stored: the text itself where it leaves room for a NUL,
and otherwise all up to the next one. -/
theorem cString_cfgOf {src : List UInt8} (nulFree : 0 ∉ src) (beyond : List UInt8) :
    cString (cfgOf signed src ++ beyond) =
      if src.length < cfgItemSize then src else src ++ cString (bytesOf 2 (cfgChsum signed src) ++ beyond) := by
  rw [cfgOf]
  split_ifs with short
  · obtain ⟨more,count⟩ : ∃ more, cfgItemSize - src.length = more + 1 := ⟨cfgItemSize - src.length - 1,by omega⟩
    rw [count,List.replicate_succ,List.append_assoc,List.append_assoc,cString_append nulFree,List.cons_append,cString_nul,
      List.append_nil]
  · rw [Nat.sub_eq_zero_of_le (Nat.not_lt.mp short),List.replicate_zero,List.append_nil,List.append_assoc,cString_append nulFree]

end Checksum

section ReadBack

variable (signed : Bool) (beyond : List UInt8) (id : Nat) (text : List UInt8) (auth : UInt8) (s : Storage)

/-- A write that succeeds is read back exactly and leaves the other items; one that does
not changes nothing. -/
structure ReadsBack : Prop where
  exact : (cfgWrite signed id text auth s).1 = true → ∀ reader, cfgTableAccessRead id reader = true →
    cfgRead signed beyond id reader (cfgWrite signed id text auth s).2 = (true,some text)
  others : ∀ other, other ≠ id → ∀ reader,
    cfgRead signed beyond other reader (cfgWrite signed id text auth s).2 = cfgRead signed beyond other reader s
  refused : (cfgWrite signed id text auth s).1 = false → (cfgWrite signed id text auth s).2 = s

/-- Only a text as long as the item, whose checksum does not end it by chance, is not read
back as it was written. -/
theorem readsBack_iff (nulFree : 0 ∉ text) :
    ReadsBack signed beyond id text auth s ↔
      (text.length = cfgItemSize → cfgTableAccessWrite id auth = true → s.ready = true → text.foldl (· + ·) 0xBC = (0 : UInt8)) := by
  by_cases accepted : Accepted id text auth s
  · have written : cfgWrite signed id text auth s = (true,stored signed id text s) := by
      rw [cfgWrite_eq,if_pos accepted]
    obtain ⟨fits,access,ready⟩ := accepted
    obtain ⟨t,member,rfl,_⟩ := accessWrite_iff.mp access
    have reads (reader : UInt8) (readable : cfgTableAccessRead t.cfgId reader = true) :
        cfgRead signed beyond t.cfgId reader (stored signed t.cfgId text s) = (true,some (cString (cfgOf signed text ++ beyond))) := by
      obtain ⟨t',member',same,level⟩ := accessRead_iff.mp readable
      obtain rfl := List.inj_on_of_nodup_map cfgTable_nodup member' member same
      rw [cfgRead_eq signed beyond member,if_pos ⟨level,ready⟩,slot_stored signed fits,textOf,
        if_pos (cfgValid_cfgOf signed fits)]
    constructor
    · intro back whole _ _
      have level : cfgTableAccessRead t.cfgId t.readAccess = true := accessRead_iff.mpr ⟨t,member,rfl,UInt8.le_refl _⟩
      have exact := back.exact (congrArg Prod.fst written) t.readAccess level
      rw [written,reads _ level,cString_cfgOf signed nulFree,if_neg (Nat.not_lt.mpr (Nat.le_of_eq whole.symm))] at exact
      have nothing : cString (bytesOf 2 (cfgChsum signed text) ++ beyond) = [] :=
        List.append_right_eq_self.mp (Option.some.inj (congrArg Prod.snd exact))
      rw [bytesOf,List.cons_append,cString_eq_nil] at nothing
      rw [← cfgChsum_low signed,nothing]
    · intro ends
      refine ⟨fun _ reader readable => ?_,fun other different reader => ?_,fun refused => ?_⟩
      · rw [written,reads reader readable,cString_cfgOf signed nulFree]
        split_ifs with short
        · rfl
        · have nul := ends (Nat.le_antisymm fits (Nat.not_lt.mp short)) access ready
          rw [← cfgChsum_low signed] at nul
          rw [bytesOf,nul,List.cons_append,cString_nul,List.append_nil]
      · rw [written]
        have ready' : (stored signed t.cfgId text s).ready = s.ready := rfl
        exact cfgRead_congr signed beyond ready' (slot_stored_ne signed fits different s) reader
      · exact absurd (congrArg Prod.fst written) (by simp [refused])
  · have unchanged : cfgWrite signed id text auth s = (false,s) := by
      rw [cfgWrite_eq,if_neg accepted]
    constructor
    · intro _ whole access ready
      exact absurd ⟨Nat.le_of_eq whole,access,ready⟩ accepted
    · intro _
      refine ⟨fun done => ?_,fun _ _ _ => ?_,fun _ => ?_⟩
      · exact absurd (congrArg Prod.fst unchanged) (by simp [done])
      · rw [unchanged]
      · rw [unchanged]

end ReadBack

section Unit

def erasedUnit : Storage := ⟨true,fun _ => 0xFF⟩

theorem deviceName_readsBack : ReadsBack false [] 40 (ascii "Home") accessAdmin erasedUnit :=
  (readsBack_iff false [] 40 (ascii "Home") accessAdmin erasedUnit (by decide)).mpr fun whole => absurd whole (by decide)

/-- A name of 62 characters is read with a part of its checksum. -/
theorem fullName_overread :
    ¬ ∀ id text auth s, 0 ∉ text → ReadsBack false [] id text auth s := by
  intro always
  have back := always 40 (List.replicate 62 0x41) accessAdmin erasedUnit (by decide)
  have read := back.exact (by decide +kernel) accessAdmin (by decide +kernel)
  exact absurd read (by decide +kernel)

end Unit

end JcaFirmware.Cfg
