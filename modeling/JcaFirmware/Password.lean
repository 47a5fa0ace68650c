import JcaFirmware.Cmd

/-! The password check (`cmd_get_password_access` and `_cmd_auth_set` of `app/cmd.c`):
the configured passwords are compared with the text one after the other, each over its
own length. -/
namespace JcaFirmware.Cmd
open Foundation CText Numeral

def cmdMinPasswdLength : Nat := 4

structure Passwd where
  cfgId : Nat
  auth : UInt8
  source : EventSource
deriving DecidableEq, Repr

/-- `PASSWD_TABLE`, without its end mark. -/
def passwdTable : List Passwd := [
  ⟨2,accessAdmin,.admin⟩,
  ⟨1,accessSystem,.admin⟩,
  ⟨151,accessUser,.user1⟩,
  ⟨152,accessUser,.user2⟩,
  ⟨153,accessUser,.user3⟩,
  ⟨154,accessUser,.user4⟩]

def Passwd.access (pt : Passwd) : Access := ⟨pt.auth,pt.source⟩

def noAccess : Access := ⟨accessNone,.unknown⟩

def passValid (code : List UInt8) : Bool := cmdMinPasswdLength ≤ code.length

def passwordLoop (cfg : Nat → Option (List UInt8)) (text : List UInt8) : List Passwd → Nat × Access
  | [] => (0,noAccess)
  | pt :: table =>
    match cfg pt.cfgId with
    | none => (0,noAccess)
    | some code =>
      if passValid code ∧ sameUpTo code.length text code then (code.length,pt.access) else passwordLoop cfg text table

/-- `cmd_get_password_access`: the characters used, and the access that the caller has then. -/
def cmdGetPasswordAccess (cfg : Nat → Option (List UInt8)) (text : List UInt8) : Nat × Access :=
  passwordLoop cfg text passwdTable

/-- `_cmd_auth_set`; the string that `cmd_fetch_string` gets is a parameter. -/
def cmdAuthSet (cfg : Nat → Option (List UInt8)) (fetched : Option (List UInt8)) (access : Access) : Bool × Access :=
  match fetched with
  | none => (false,access)
  | some text =>
    let (used,access) := cmdGetPasswordAccess cfg text
    if used = 0 then (false,access) else (true,access)

section Exactness

variable (passwords : Nat → List UInt8) (text : List UInt8)

def Passwd.Equals (pt : Passwd) : Prop :=
  passValid (passwords pt.cfgId) = true ∧ text.map lower = (passwords pt.cfgId).map lower

/-- The text is more than the password of the entry. -/
def Passwd.Extended (pt : Passwd) : Prop :=
  passValid (passwords pt.cfgId) = true ∧ (passwords pt.cfgId).length < text.length ∧
    (passwords pt.cfgId).map lower <+: text.map lower

/-- What the caller has after the check of the text. -/
def granted : Access := (cmdGetPasswordAccess (fun id => some (passwords id)) text).2

/-- The check goes by the whole password: an entry is granted for its password only, a
password gets the level of its entry, and anything else gets nothing. -/
structure Checked : Prop where
  only : ∀ pt ∈ passwdTable, granted passwords text = pt.access → pt.Equals passwords text
  level : ∀ pt ∈ passwdTable, pt.Equals passwords text → (granted passwords text).auth = pt.auth
  none : (∀ pt ∈ passwdTable, ¬ pt.Equals passwords text) → granted passwords text = noAccess

/-- Where the text goes on after the password of an entry, it is the password of an
earlier one; and passwords that are the same in either case are of one level. -/
structure Unambiguous : Prop where
  earlier : ∀ pre pt post, passwdTable = pre ++ pt :: post → pt.Extended passwords text →
    ∃ other ∈ pre, other.Equals passwords text
  level : ∀ pt ∈ passwdTable, ∀ other ∈ passwdTable, pt.Equals passwords text → other.Equals passwords text → pt.auth = other.auth

def Passwd.matches (pt : Passwd) : Bool :=
  passValid (passwords pt.cfgId) ∧ sameUpTo (passwords pt.cfgId).length text (passwords pt.cfgId)

theorem Passwd.matches_iff (pt : Passwd) :
    pt.matches passwords text = true ↔ pt.Equals passwords text ∨ pt.Extended passwords text := by
  rw [Passwd.matches,decide_eq_true_eq,sameUpTo_name,Passwd.Equals,Passwd.Extended,← and_or_left]
  refine and_congr_right fun _ => ?_
  generalize passwords pt.cfgId = code
  constructor
  · intro same
    have within := le_length_of_same text same
    rcases Nat.eq_or_lt_of_le within with whole | more
    · left
      rw [← same,whole,List.take_length]
    · right
      refine ⟨more,?_⟩
      rw [← same,List.map_take]
      exact List.take_prefix _ _
  · rintro (whole | ⟨_,starts⟩)
    · have lengths := congrArg List.length whole
      rw [List.length_map,List.length_map] at lengths
      rw [← lengths,List.take_length,whole]
    · rw [List.map_take,List.prefix_iff_eq_take.mp starts,List.length_map]

theorem passwordLoop_eq (table : List Passwd) :
    (passwordLoop (fun id => some (passwords id)) text table).2 =
      ((table.find? fun pt => pt.matches passwords text).map Passwd.access).getD noAccess := by
  induction table with
  | nil => rfl
  | cons pt table ih =>
    rw [passwordLoop]
    dsimp only
    by_cases hit : pt.matches passwords text = true
    · rw [if_pos (of_decide_eq_true hit),List.find?_cons_of_pos hit]
      rfl
    · have miss : ¬ (passValid (passwords pt.cfgId) = true ∧
          sameUpTo (passwords pt.cfgId).length text (passwords pt.cfgId) = true) := fun both => hit (decide_eq_true both)
      rw [if_neg miss,ih,List.find?_cons_of_neg hit]

theorem granted_eq :
    granted passwords text = ((passwdTable.find? fun pt => pt.matches passwords text).map Passwd.access).getD noAccess :=
  passwordLoop_eq passwords text passwdTable

theorem access_inj : ∀ pt ∈ passwdTable, ∀ other ∈ passwdTable, pt.access = other.access → pt = other := by
  decide

theorem access_ne_none : ∀ pt ∈ passwdTable, noAccess ≠ pt.access := by
  decide

theorem Passwd.Extended.not_equals {pt : Passwd} (extended : pt.Extended passwords text) : ¬ pt.Equals passwords text := by
  intro equals
  have lengths := congrArg List.length equals.2
  rw [List.length_map,List.length_map] at lengths
  exact absurd extended.2.1 (by omega)

/-- Where some password is at the front of the text, the first such entry is granted. -/
theorem granted_first {pre post : List Passwd} {pt : Passwd} (split : passwdTable = pre ++ pt :: post)
    (hit : pt.matches passwords text = true) (before : ∀ other ∈ pre, other.matches passwords text = false) :
    granted passwords text = pt.access := by
  have first : passwdTable.find? (fun pt => pt.matches passwords text) = some pt :=
    List.find?_eq_some_iff_append.mpr ⟨hit,pre,post,split,fun other member => by rw [before other member]; rfl⟩
  rw [granted_eq,first]
  rfl

theorem granted_cases :
    (granted passwords text = noAccess ∧ ∀ pt ∈ passwdTable, pt.matches passwords text = false) ∨
      ∃ pre pt post, passwdTable = pre ++ pt :: post ∧ pt.matches passwords text = true ∧
        (∀ other ∈ pre, other.matches passwords text = false) ∧ granted passwords text = pt.access := by
  cases first : passwdTable.find? fun pt => pt.matches passwords text with
  | none =>
    left
    refine ⟨by rw [granted_eq,first]; rfl,fun pt member => ?_⟩
    simpa using List.find?_eq_none.mp first pt member
  | some pt =>
    right
    obtain ⟨hit,pre,post,split,before⟩ := List.find?_eq_some_iff_append.mp first
    have passed (other : Passwd) (member : other ∈ pre) : other.matches passwords text = false := by
      simpa using before other member
    exact ⟨pre,pt,post,split,hit,passed,granted_first passwords text split hit passed⟩

theorem place_cases {α : Type} {pre pre' post post' : List α} {a b : α} (same : pre' ++ b :: post' = pre ++ a :: post) :
    b ∈ pre ∨ b = a ∨ a ∈ pre' := by
  rcases List.append_eq_append_iff.mp same with ⟨middle,rfl,rest⟩ | ⟨middle,rfl,rest⟩
  · cases middle with
    | nil => exact Or.inr (Or.inl (List.cons.inj rest).1)
    | cons head middle =>
      obtain ⟨rfl,_⟩ := List.cons.inj rest
      exact Or.inl (List.mem_append_right pre' List.mem_cons_self)
  · cases middle with
    | nil => exact Or.inr (Or.inl (List.cons.inj rest).1.symm)
    | cons head middle =>
      obtain ⟨rfl,_⟩ := List.cons.inj rest
      exact Or.inr (Or.inr (List.mem_append_right pre List.mem_cons_self))

/-- The check is exact for a text exactly when no password of an earlier entry is a part
of it. -/
theorem checked_iff : Checked passwords text ↔ Unambiguous passwords text := by
  have member {pre post : List Passwd} {pt : Passwd} (split : passwdTable = pre ++ pt :: post) : pt ∈ passwdTable :=
    split ▸ List.mem_append_right pre List.mem_cons_self
  constructor
  · intro checked
    refine ⟨fun pre pt post split extended => ?_,fun pt inside other inside' equals equals' => ?_⟩
    · have hit := (pt.matches_iff passwords text).mpr (Or.inr extended)
      rcases granted_cases passwords text with ⟨_,none⟩ | ⟨pre',first,post',split',_,before,given⟩
      · exact absurd (none pt (member split)) (by simp [hit])
      · have equals := checked.only first (member split') given
        -- The entry that is granted stands at the extended one or before it.
        rcases place_cases (split'.symm.trans split) with earlier | rfl | later
        · exact ⟨first,earlier,equals⟩
        · exact absurd equals (Passwd.Extended.not_equals passwords text extended)
        · exact absurd hit (by simp [before pt later])
    · rw [← checked.level pt inside equals,← checked.level other inside' equals']
  · intro clear
    rcases granted_cases passwords text with ⟨given,none⟩ | ⟨pre,first,post,split,hit,before,given⟩
    · have different (pt : Passwd) (inside : pt ∈ passwdTable) : ¬ pt.Equals passwords text := fun equals =>
        absurd ((pt.matches_iff passwords text).mpr (Or.inl equals)) (by simp [none pt inside])
      refine ⟨fun pt inside same => ?_,fun pt inside equals => absurd equals (different pt inside),fun _ => given⟩
      exact absurd (given.symm.trans same) (access_ne_none pt inside)
    · have equals : first.Equals passwords text := by
        refine ((first.matches_iff passwords text).mp hit).resolve_right fun extended => ?_
        obtain ⟨other,earlier,equals⟩ := clear.earlier pre first post split extended
        exact absurd ((other.matches_iff passwords text).mpr (Or.inl equals)) (by simp [before other earlier])
      refine ⟨fun pt inside same => ?_,fun pt inside equals' => ?_,fun different => ?_⟩
      · rw [given] at same
        exact access_inj first (member split) pt inside same ▸ equals
      · rw [given]
        exact clear.level first (member split) pt inside equals equals'
      · exact absurd equals (different first (member split))

end Exactness

theorem passwordLoop_unused (cfg : Nat → Option (List UInt8)) (text : List UInt8) (table : List Passwd)
    (unused : (passwordLoop cfg text table).1 = 0) : (passwordLoop cfg text table).2 = noAccess := by
  induction table with
  | nil => rfl
  | cons pt table ih =>
    rw [passwordLoop] at unused ⊢
    cases read : cfg pt.cfgId with
    | none => rfl
    | some code =>
      rw [read] at unused
      dsimp only at unused ⊢
      split_ifs at unused ⊢ with hit
      · have length : cmdMinPasswdLength ≤ code.length := of_decide_eq_true hit.1
        have used : code.length = 0 := unused
        rw [used] at length
        exact absurd length (by decide)
      · exact ih unused

/-- An AUTH that fails leaves the caller with what it had, or with nothing. -/
theorem cmdAuthSet_denied (cfg : Nat → Option (List UInt8)) (fetched : Option (List UInt8)) (access : Access)
    (denied : (cmdAuthSet cfg fetched access).1 = false) :
    (cmdAuthSet cfg fetched access).2 = access ∨ (cmdAuthSet cfg fetched access).2 = noAccess := by
  cases fetched with
  | none => exact Or.inl rfl
  | some text =>
    right
    rw [cmdAuthSet] at denied ⊢
    dsimp only at denied ⊢
    split_ifs at denied ⊢ with unused
    exact passwordLoop_unused cfg text passwdTable unused

section Extension

/-- The default passwords, and a user who has chosen one that begins with the administrator's. -/
def chosen (id : Nat) : List UInt8 :=
  if id = 1 then ascii "uhlokRopnude" else if id = 2 then ascii "admin" else if id = 151 then ascii "admin123"
  else if id = 152 then ascii "user2" else if id = 153 then ascii "user3" else ascii "user4"

theorem chosen_unchecked : ¬ ∀ passwords : Nat → List UInt8,
    (∀ pt ∈ passwdTable, ∀ other ∈ passwdTable, (passwords pt.cfgId).map lower = (passwords other.cfgId).map lower → pt = other) →
      ∀ text, Checked passwords text := by
  intro always
  have checked := always chosen (by decide +kernel) (ascii "admin123")
  have level := checked.level ⟨151,accessUser,.user1⟩ (by decide) ⟨by decide,by decide⟩
  exact absurd level (by decide +kernel)

end Extension

end JcaFirmware.Cmd
