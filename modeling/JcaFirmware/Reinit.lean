import Mathlib.Data.BitVec
import Mathlib.Logic.Function.Basic
import JcaFirmware.Cfg
import JcaFirmware.Cms
import JcaFirmware.NetTarget
import JcaFirmware.TracerParam

/-! Changes of the configuration while the unit runs (`_reinit_task`, `app_reinit_req` and `app_main_reinit` of `app/app.c`,
`tracer_reinit`, `cms_reinit`, `net_get_target_ip`, the end of `cfg_write`): a write stores an item and then requests the
reinitialisation of its module; the communication task serves the requests, one item after the other. A read may fail, its
text may not be understood, and the lookup of a name takes its time. -/
namespace JcaFirmware.Reinit
open Foundation Numeral NetTarget
open Tracer (paramDefault)
open TracerParam (Sdk paramLoad)

inductive Module | main | tracer | modem | cms
deriving DecidableEq, Repr

/-- The bits of `_reinit_mask`. -/
def Module.bit : Module → Nat
  | .main => 0
  | .tracer => 1
  | .modem => 2
  | .cms => 3

def cfgIdMainSetup : Nat := 3
def cfgIdModemBand : Nat := 12
def cfgIdCmsAccount : Nat := 13
def cfgIdTracerAddr : Nat := 20
def cfgIdTracerParam : Nat := 21
def cfgIdCmsServerAddr : Nat := 22

def moduleOf (id : Nat) : Option Module :=
  if id = cfgIdTracerAddr ∨ id = cfgIdTracerParam then some .tracer
  else if id = cfgIdMainSetup then some .main
  else if id = cfgIdModemBand then some .modem
  else if id = cfgIdCmsServerAddr ∨ id = cfgIdCmsAccount then some .cms
  else none

/-- The items that parameters are made of. -/
inductive Item | mainSetup | tracerAddr | tracerParam | cmsServerAddr | cmsAccount
deriving DecidableEq, Repr

def Item.id : Item → Nat
  | .mainSetup => cfgIdMainSetup
  | .tracerAddr => cfgIdTracerAddr
  | .tracerParam => cfgIdTracerParam
  | .cmsServerAddr => cfgIdCmsServerAddr
  | .cmsAccount => cfgIdCmsAccount

def Item.module : Item → Module
  | .mainSetup => .main
  | .tracerAddr | .tracerParam => .tracer
  | .cmsServerAddr | .cmsAccount => .cms

/-- What `app_main_reinit`, `tracer_reinit` and `cms_reinit` read, in their order; the
modem is only told to reset. -/
def Module.reads : Module → List Item
  | .main => [.mainSetup]
  | .tracer => [.tracerAddr,.tracerParam]
  | .modem => []
  | .cms => [.cmsServerAddr,.cmsAccount]

def modules : List Module := [.main,.tracer,.modem,.cms]

def items : List Item := modules.flatMap Module.reads

section Parameters

/-- The configured fields of `cms_t`, and the account that the protocol has of it. -/
structure CmsSetup where
  serverIp : Nat
  serverPort : Nat
  account : Nat
  protoAccount : Nat

/-- `_siren_beep_time`, the server and `_p` of the tracker with the unit that its protocol has of it, and the setup of the CMS. -/
structure Params where
  sirenBeepTime : Nat
  tracer : Tracer.Server
  protoUnitId : Nat
  cms : CmsSetup

/-- The parameters before anything is read. -/
def cold : Params := ⟨0,⟨0,0,paramDefault⟩,0,⟨0,0,0,0⟩⟩

def sirenBeepTimeDef : Nat := 5
def sirenBeepTimeMax : Nat := 50
def netTargetHostMax : Nat := 64

-- In the functions below `none` stands for an item that cannot be read.

def appMainReinit (cfg : Option (List UInt8)) (p : Params) : Params :=
  match cfg with
  | none => p
  | some cfg =>
    let sirenBeepTime := match scanD cfg with
      | some (a,_) => if 0 ≤ a ∧ a ≤ sirenBeepTimeMax then a.toNat else sirenBeepTimeDef
      | none => sirenBeepTimeDef
    {p with sirenBeepTime}

/-- `net_get_target_ip`, for the port as it was; `answer` is that of the resolver, 0 where there is none. -/
def netGetTargetIp (answer : Nat) (url : List UInt8) (port : Nat) : Nat × Nat :=
  let target := netTargetParse url netTargetHostMax port
  match target.kind with
  | .ip => (target.ip.toNat,target.port.toNat)
  | .name => (answer,target.port.toNat)
  | .invalid => (0,target.port.toNat)

def tracerResolveServer (answer : Nat) (cfg : Option (List UInt8)) (p : Params) : Params :=
  match cfg with
  | none => p
  | some cfg =>
    let (ip,port) := netGetTargetIp answer cfg p.tracer.port
    {p with tracer := {p.tracer with ip, port}}

variable (sdk : Sdk)

/-- `tracer_reinit` behind the server: it starts from the defaults. -/
def tracerReinitParam (cfg : Option (List UInt8)) (p : Params) : Params :=
  let param := match cfg with
    | some value => (paramLoad sdk value).1
    | none => paramDefault
  {p with tracer := {p.tracer with p := param}, protoUnitId := param.unitId}

/-- `cms_reinit` up to the account. -/
def cmsReinitServer (answer : Nat) (cfg : Option (List UInt8)) (p : Params) : Params :=
  match cfg with
  | none => p
  | some cfg =>
    let (ip,port) := netGetTargetIp answer cfg p.cms.serverPort
    {p with cms := {p.cms with serverIp := ip, serverPort := port}}

/-- The conversion `%x`. -/
def scanX (text : List UInt8) : Option Nat := (number 16 text).map fun found => stored found.1

/-- `cms_reinit` from the account on. -/
def cmsReinitAccount (cfg : Option (List UInt8)) (p : Params) : Params :=
  let account := (cfg.bind scanX).getD p.cms.account
  {p with cms := {p.cms with account, protoAccount := account}}

/-- What comes of the read of an item. -/
def load (item : Item) (answer : Nat) (cfg : Option (List UInt8)) : Params → Params :=
  match item with
  | .mainSetup => appMainReinit cfg
  | .tracerAddr => tracerResolveServer answer cfg
  | .tracerParam => tracerReinitParam sdk cfg
  | .cmsServerAddr => cmsReinitServer answer cfg
  | .cmsAccount => cmsReinitAccount cfg

/-- The name that is looked up for an item. -/
def asked (item : Item) (cfg : List UInt8) : Option (List UInt8) :=
  match item with
  | .tracerAddr | .cmsServerAddr =>
    let target := netTargetParse cfg netTargetHostMax 0
    if target.kind = .name then some (target.host.getD []) else none
  | _ => none

end Parameters

section Code

/-- A reinitialisation under way: its `mask`, the item that has been read and is not in effect yet, and those still to be read. -/
structure Serving where
  mask : BitVec 32
  got : Option (Item × List UInt8)
  todo : List Item
deriving DecidableEq, Repr

/-- The stored texts, as they read back, the active parameters, `_reinit_mask`, what the communication task is at,
and the writes that have stored their item and not yet requested anything; and the lookups so far, with their answers. -/
structure State where
  cfg : Nat → List UInt8
  active : Params
  lookups : List (List UInt8 × Nat)
  reinitMask : BitVec 32
  serving : Option Serving
  writes : List Nat

def State.got (s : State) : Option (Item × List UInt8) := s.serving.bind Serving.got

def State.todo (s : State) : List Item := (s.serving.map Serving.todo).getD []

/-- What initialises a module again for a server that is not resolved yet. -/
inductive Retry | tracerResolveServer | tracerReinit | cmsReinit
deriving DecidableEq, Repr

def Retry.reads : Retry → List Item
  | .tracerResolveServer => [.tracerAddr]
  | .tracerReinit => Module.tracer.reads
  | .cmsReinit => Module.cms.reads

-- `cfg_write` requests also where the storage has refused the item. A step of `_reinit_task` meets the outcome of
-- a read and the answer to a lookup.
inductive Input
  | store (id : Nat) (text : List UInt8) (written : Bool)
  | reinitReq (id : Nat)
  | reinitTask (readable : Bool) (answer : Nat)
  | retry (what : Retry)

def appReinitReq (id : Nat) (mask : BitVec 32) : BitVec 32 :=
  match moduleOf id with
  | some module => mask ||| BitVec.twoPow 32 module.bit
  | none => mask

variable (sdk : Sdk)

/-- What comes of the read of an item, the lookup of a name among it. -/
def takeEffect (item : Item) (cfg : Option (List UInt8)) (answer : Nat) (mask : BitVec 32) (todo : List Item) (s : State) : State := {s with
  active := load sdk item answer cfg s.active
  lookups := ((cfg.bind (asked item)).map fun host => (host,answer)).toList ++ s.lookups
  serving := some ⟨mask,none,todo⟩}

/-- The next thing that `_reinit_task` does. Other tasks run between a read and what comes of it. -/
def reinitTask (readable : Bool) (answer : Nat) (s : State) : State :=
  match s.serving with
  | none =>
    if s.reinitMask = 0 then s
    else {s with
      serving := some ⟨s.reinitMask,none,(modules.filter fun module => s.reinitMask.getLsbD module.bit).flatMap Module.reads⟩}
  | some ⟨mask,some (item,cfg),todo⟩ => takeEffect sdk item (some cfg) answer mask todo s
  | some ⟨mask,none,item :: todo⟩ =>
    if readable then {s with serving := some ⟨mask,some (item,s.cfg item.id),todo⟩}
    else takeEffect sdk item none answer mask todo s
  | some ⟨mask,none,[]⟩ => {s with reinitMask := s.reinitMask &&& ~~~mask, serving := none}

/-- `tracer_comm_process` and `cms_main_process` run in the communication task too; no request is served by them. -/
def retry (what : Retry) (s : State) : State :=
  match s.serving with
  | none => {s with serving := some ⟨0,none,what.reads⟩}
  | some _ => s

def step (s : State) : Input → State
  | .store id text written =>
    {s with cfg := if written then Function.update s.cfg id text else s.cfg, writes := s.writes ++ [id]}
  | .reinitReq id =>
    if id ∈ s.writes then {s with reinitMask := appReinitReq id s.reinitMask, writes := s.writes.erase id} else s
  | .reinitTask readable answer => reinitTask sdk readable answer s
  | .retry what => retry what s

/-- `app_main_init` initialises the modules for the first time; nobody has requested it. -/
def boot (cfg : Nat → List UInt8) : State :=
  ⟨cfg,cold,[],0,some ⟨0,none,Module.tracer.reads ++ Module.cms.reads ++ Module.main.reads⟩,[]⟩

end Code

section Purpose

/-- The parameters of an item are the same. -/
def Agree : Item → Params → Params → Prop
  | .mainSetup, p, p' => p.sirenBeepTime = p'.sirenBeepTime
  | .tracerAddr, p, p' => p.tracer.ip = p'.tracer.ip ∧ p.tracer.port = p'.tracer.port
  | .tracerParam, p, p' => p.tracer.p = p'.tracer.p ∧ p.protoUnitId = p'.protoUnitId
  | .cmsServerAddr, p, p' => p.cms.serverIp = p'.cms.serverIp ∧ p.cms.serverPort = p'.cms.serverPort
  | .cmsAccount, p, p' => p.cms.account = p'.cms.account ∧ p.cms.protoAccount = p'.cms.protoAccount

instance (item : Item) (p p' : Params) : Decidable (Agree item p p') :=
  match item with
  | .mainSetup => inferInstanceAs (Decidable (_ = _))
  | .tracerAddr | .tracerParam | .cmsServerAddr | .cmsAccount => inferInstanceAs (Decidable (_ ∧ _))

/-- What an address can be made with: the answers to lookups of its name so far, or none. -/
def answers (lookups : List (List UInt8 × Nat)) (item : Item) (cfg : List UInt8) : List Nat :=
  0 :: (lookups.filter fun lookup => some lookup.1 = asked item cfg).map Prod.snd

variable (sdk : Sdk)

/-- The parameters of an item are those that a start with the stored text comes to, whatever was stored before. -/
def UpToDate (s : State) (item : Item) : Prop :=
  ∃ answer ∈ answers s.lookups item (s.cfg item.id), Agree item s.active (load sdk item answer (some (s.cfg item.id)) cold)

instance (s : State) (item : Item) : Decidable (UpToDate sdk s item) := inferInstanceAs (Decidable (∃ _ ∈ _, _))

/-- Where no request waits, none is served and no write is half done, every module has
the parameters that are stored. -/
def Fresh (s : State) : Prop := s.reinitMask = 0 → s.serving = none → s.writes = [] → ∀ item, UpToDate sdk s item

/-- The text says what its parameters are. -/
def Legible (item : Item) (cfg : List UInt8) : Prop :=
  match item with
  | .tracerAddr | .cmsServerAddr => (netTargetParse cfg netTargetHostMax 0).kind ≠ .invalid
  | .cmsAccount => scanX cfg ≠ none
  | .mainSetup | .tracerParam => True

instance (item : Item) (cfg : List UInt8) : Decidable (Legible item cfg) :=
  match item with
  | .tracerAddr | .cmsServerAddr => inferInstanceAs (Decidable (_ ≠ _))
  | .cmsAccount => inferInstanceAs (Decidable (_ ≠ _))
  | .mainSetup | .tracerParam => inferInstanceAs (Decidable True)

/-- The reinitialisation under way clears the bit of the item at its end. -/
def State.clears (s : State) (item : Item) : Bool := s.serving.any fun serving => serving.mask.getLsbD item.module.bit

/-- The item will be read once more: a write is half done, or a request waits that the reinitialisation under way does not clear. -/
def Awaited (s : State) (item : Item) : Prop :=
  item.id ∈ s.writes ∨ (s.reinitMask.getLsbD item.module.bit = true ∧ s.clears item = false)

/-- The reinitialisation under way has still to read the item, or holds what is stored of it, or leaves what is up to date. -/
def Current (s : State) (item : Item) : Prop :=
  item ∈ s.todo ∨ s.got = some (item,s.cfg item.id) ∨ (s.got.map Prod.fst ≠ some item ∧ UpToDate sdk s item)

/-- Without the read the parameters of the tracker are its defaults, and others are as they were. -/
def Harmless (s : State) (item : Item) : Prop :=
  if item = .tracerParam then (paramLoad sdk (s.cfg item.id)).1 = paramDefault else UpToDate sdk s item

instance (s : State) (item : Item) : Decidable (Harmless sdk s item) :=
  inferInstanceAs (Decidable (if item = .tracerParam then (paramLoad sdk (s.cfg item.id)).1 = paramDefault else UpToDate sdk s item))

/-- The next step of the reinitialisation makes something of what is stored: the text that comes into effect is legible, or nothing
was set before it; and a read that fails does no harm. Neither matters to an item that is awaited. -/
def Heeds (s : State) (readable : Bool) : Option Serving → Prop
  | some ⟨_,some (item,cfg),_⟩ => cfg = s.cfg item.id → Legible item cfg ∨ Agree item s.active cold ∨ Awaited s item
  | some ⟨_,none,item :: _⟩ => readable = true ∨ Awaited s item ∨ Harmless sdk s item
  | _ => True

/-- An item is not requested behind the back of the reinitialisation that will clear the request, and what is stored can be read. -/
def InTime (s : State) : Input → Prop
  | .reinitReq id => id ∈ s.writes → ∀ item ∈ items, item.id = id → s.clears item = true →
    id ∈ s.writes.erase id ∨ Current sdk s item
  | .reinitTask readable _ => Heeds sdk s readable s.serving
  | _ => True

instance (s : State) (item : Item) : Decidable (Awaited s item) := inferInstanceAs (Decidable (_ ∨ _ ∧ _))

instance (s : State) (item : Item) : Decidable (Current sdk s item) := inferInstanceAs (Decidable (_ ∨ _ ∨ (_ ∧ UpToDate sdk s item)))

instance (s : State) (readable : Bool) : (serving : Option Serving) → Decidable (Heeds sdk s readable serving)
  | none => isTrue trivial
  | some ⟨_,some (item,cfg),_⟩ =>
    inferInstanceAs (Decidable (cfg = s.cfg item.id → Legible item cfg ∨ Agree item s.active cold ∨ Awaited s item))
  | some ⟨_,none,item :: _⟩ => inferInstanceAs (Decidable (readable = true ∨ Awaited s item ∨ Harmless sdk s item))
  | some ⟨_,none,[]⟩ => isTrue trivial

instance (s : State) : (input : Input) → Decidable (InTime sdk s input)
  | .store _ _ _ | .retry _ => isTrue trivial
  | .reinitReq id => inferInstanceAs (Decidable (id ∈ s.writes → ∀ item ∈ items, item.id = id → s.clears item = true →
      id ∈ s.writes.erase id ∨ Current sdk s item))
  | .reinitTask readable _ => inferInstanceAs (Decidable (Heeds sdk s readable s.serving))

/-- Each item is awaited, or well served. -/
def Inv (s : State) : Prop := ∀ item, Awaited s item ∨ Current sdk s item

end Purpose

section Loads
variable {sdk : Sdk} {item other : Item} {p p' p'' : Params}

theorem Agree.refl (item : Item) (p : Params) : Agree item p p := by
  cases item
  case mainSetup => exact rfl
  all_goals exact ⟨rfl,rfl⟩

theorem Agree.trans (first : Agree item p p') (second : Agree item p' p'') : Agree item p p'' := by
  cases item
  case mainSetup => exact Eq.trans first second
  all_goals exact ⟨first.1.trans second.1,first.2.trans second.2⟩

/-- The parameters of other items are left alone. -/
theorem load_other (ne : item ≠ other) (answer : Nat) (cfg : Option (List UInt8)) (p : Params) :
    Agree item (load sdk other answer cfg p) p := by
  cases other with
  | mainSetup | tracerAddr | cmsServerAddr =>
    cases cfg with
    | none => exact .refl item p
    | some cfg =>
      cases item
      all_goals first | exact absurd rfl ne | exact rfl | exact ⟨rfl,rfl⟩
  | tracerParam | cmsAccount =>
    cases item
    all_goals first | exact absurd rfl ne | exact rfl | exact ⟨rfl,rfl⟩

theorem load_agree (same : Agree item p p') (answer : Nat) (cfg : List UInt8) :
    Agree item (load sdk item answer (some cfg) p) (load sdk item answer (some cfg) p') := by
  cases item with
  | mainSetup => exact rfl
  | tracerParam => exact ⟨rfl,rfl⟩
  | tracerAddr =>
    obtain ⟨_,port⟩ := same
    unfold load tracerResolveServer
    dsimp only
    rw [port]
    exact ⟨rfl,rfl⟩
  | cmsServerAddr =>
    obtain ⟨_,port⟩ := same
    unfold load cmsReinitServer
    dsimp only
    rw [port]
    exact ⟨rfl,rfl⟩
  | cmsAccount =>
    obtain ⟨account,_⟩ := same
    unfold load cmsReinitAccount
    dsimp only
    rw [account]
    exact ⟨rfl,rfl⟩

/-- The address, and the port where the text has one. -/
def targetOf (answer : Nat) (url : List UInt8) : Nat × Option Nat :=
  ((netGetTargetIp answer url 0).1,
    if (netTargetParse url netTargetHostMax 0).kind = .invalid then none else some (netGetTargetIp answer url 0).2)

theorem netGetTargetIp_eq (answer : Nat) (url : List UInt8) (port : Nat) :
    netGetTargetIp answer url port = ((targetOf answer url).1,(targetOf answer url).2.getD port) := by
  obtain ⟨valid,same⟩ | ⟨invalid,same⟩ := netTargetParse_port url netTargetHostMax 0 port
  · have whole : netGetTargetIp answer url port = netGetTargetIp answer url 0 := by
      rw [netGetTargetIp,same]
      rfl
    rw [targetOf,if_neg valid,whole]
    rfl
  · have zero : netGetTargetIp answer url 0 = (0,(netTargetParse url netTargetHostMax 0).port.toNat) := by
      rw [netGetTargetIp,Nat.cast_zero,invalid]
    rw [targetOf,if_pos invalid,zero,netGetTargetIp,same]
    dsimp only
    rw [invalid]
    rfl

theorem netGetTargetIp_legible {url : List UInt8} (legible : (netTargetParse url netTargetHostMax 0).kind ≠ .invalid)
    (answer port : Nat) : netGetTargetIp answer url port = netGetTargetIp answer url 0 := by
  rw [netGetTargetIp_eq answer url port,targetOf,if_neg legible]
  rfl

/-- A text that is legible leaves nothing of what was before. -/
theorem load_legible {cfg : List UInt8} (legible : Legible item cfg) (answer : Nat) (p p' : Params) :
    Agree item (load sdk item answer (some cfg) p) (load sdk item answer (some cfg) p') := by
  cases item with
  | mainSetup => exact rfl
  | tracerParam => exact ⟨rfl,rfl⟩
  | tracerAddr =>
    unfold load tracerResolveServer
    dsimp only
    rw [netGetTargetIp_legible legible answer p.tracer.port,netGetTargetIp_legible legible answer p'.tracer.port]
    exact ⟨rfl,rfl⟩
  | cmsServerAddr =>
    unfold load cmsReinitServer
    dsimp only
    rw [netGetTargetIp_legible legible answer p.cms.serverPort,netGetTargetIp_legible legible answer p'.cms.serverPort]
    exact ⟨rfl,rfl⟩
  | cmsAccount =>
    obtain ⟨account,read⟩ := Option.ne_none_iff_exists'.mp legible
    unfold load cmsReinitAccount
    dsimp only
    rw [Option.bind_some,read]
    exact ⟨rfl,rfl⟩

/-- The resolver matters to a name only. -/
theorem netGetTargetIp_plain {url : List UInt8} (plain : (netTargetParse url netTargetHostMax 0).kind ≠ .name) (answer port : Nat) :
    netGetTargetIp answer url port = netGetTargetIp 0 url port := by
  have plain : (netTargetParse url netTargetHostMax port).kind ≠ .name := by
    obtain ⟨_,same⟩ | ⟨invalid,same⟩ := netTargetParse_port url netTargetHostMax 0 port
    · rwa [same]
    · rw [same]
      exact fun name => nomatch invalid.symm.trans name
  unfold netGetTargetIp
  dsimp only
  cases kind : (netTargetParse url netTargetHostMax port).kind with
  | name => exact absurd kind plain
  | ip | invalid => rfl

theorem load_unasked {cfg : List UInt8} (unasked : asked item cfg = none) (answer : Nat) (p : Params) :
    load sdk item answer (some cfg) p = load sdk item 0 (some cfg) p := by
  cases item with
  | mainSetup | tracerParam | cmsAccount => rfl
  | tracerAddr =>
    unfold load tracerResolveServer
    dsimp only
    rw [netGetTargetIp_plain (fun name => nomatch (if_pos name).symm.trans unasked) answer]
  | cmsServerAddr =>
    unfold load cmsReinitServer
    dsimp only
    rw [netGetTargetIp_plain (fun name => nomatch (if_pos name).symm.trans unasked) answer]

/-- A read that fails spoils nothing, other than the parameters of the tracker. -/
theorem load_unread {cfg : List UInt8} {answer : Nat} (ne : item ≠ .tracerParam)
    (own : Agree item p (load sdk item answer (some cfg) p')) (answer' : Nat) :
    Agree item (load sdk item answer' none p) (load sdk item answer (some cfg) p') := by
  cases item with
  | mainSetup | tracerAddr | cmsServerAddr => exact own
  | tracerParam => exact absurd rfl ne
  | cmsAccount => exact ⟨own.1,own.1⟩

/-- Where nothing comes in between the items make the server and the parameters of the tracker that `tracer_reinit` does, -/
theorem tracerReinit_loads (answer : Nat) (addr param : Option (List UInt8)) (s : Tracer.State) (own : p.tracer = s.server) :
    (Tracer.tracerReinit ⟨addr.map (targetOf answer),param.map fun value => (paramLoad sdk value).1⟩ s).server =
      (load sdk .tracerParam answer param (load sdk .tracerAddr answer addr p)).tracer := by
  cases addr with
  | none =>
    unfold load tracerReinitParam tracerResolveServer
    dsimp only
    rw [own]
    cases param <;> rfl
  | some url =>
    unfold load tracerReinitParam tracerResolveServer
    dsimp only
    rw [netGetTargetIp_eq,own]
    cases param <;> rfl

/-- and the setup that `cms_reinit` makes, with the account of its protocol. -/
theorem cmsReinit_loads {π : Type} (proto : Cms.Proto π) (answer : Nat) (addr account : Option (List UInt8)) (c : Cms.State π)
    (ip : p.cms.serverIp = c.serverIp) (port : p.cms.serverPort = c.serverPort) (own : p.cms.account = c.account) :
    (Cms.cmsReinit proto ⟨addr.map (targetOf answer),account.bind scanX⟩ c).2 =
      let setup := (load sdk .cmsAccount answer account (load sdk .cmsServerAddr answer addr p)).cms
      {c with
        serverIp := setup.serverIp
        serverPort := setup.serverPort
        account := setup.account
        proto := proto.reinit c.proto setup.protoAccount} := by
  unfold Cms.cmsReinit load cmsReinitAccount cmsReinitServer
  cases addr with
  | none =>
    dsimp only [Option.map_none]
    rw [ip,port,own]
    cases account.bind scanX <;> rfl
  | some url =>
    dsimp only [Option.map_some]
    rw [netGetTargetIp_eq,port,own]
    cases account.bind scanX <;> rfl

end Loads

section Steps
variable {sdk : Sdk} {s : State}

theorem moduleOf_id (item : Item) : moduleOf item.id = some item.module := by
  cases item <;> rfl

theorem item_reads (item : Item) : item ∈ item.module.reads := by
  cases item <;> decide

theorem mem_items (item : Item) : item ∈ items := by
  cases item <;> decide

theorem appReinitReq_own (item : Item) (mask : BitVec 32) : (appReinitReq item.id mask).getLsbD item.module.bit = true := by
  rw [appReinitReq,moduleOf_id]
  cases item <;> simp [Item.module,Module.bit]

theorem appReinitReq_mono (id : Nat) {mask : BitVec 32} {bit : Nat} (before : mask.getLsbD bit = true) :
    (appReinitReq id mask).getLsbD bit = true := by
  rw [appReinitReq]
  cases moduleOf id with
  | none => exact before
  | some module => simp [before]

theorem current_idle {item : Item} (serving : s.serving = none) : Current sdk s item ↔ UpToDate sdk s item := by
  simp [Current,State.todo,State.got,serving]

theorem current_under {item : Item} {mask : BitVec 32} {got : Option (Item × List UInt8)} {todo : List Item}
    (serving : s.serving = some ⟨mask,got,todo⟩) : Current sdk s item ↔
      item ∈ todo ∨ got = some (item,s.cfg item.id) ∨ (got.map Prod.fst ≠ some item ∧ UpToDate sdk s item) := by
  rw [Current,State.todo,State.got,serving]
  rfl

theorem Inv.fresh (inv : Inv sdk s) : Fresh sdk s := by
  intro quiet idle settled item
  rcases inv item with (written | ⟨asked,_⟩) | current
  · rw [settled] at written
    exact absurd written List.not_mem_nil
  · rw [quiet] at asked
    exact absurd asked (by simp)
  · exact (current_idle idle).mp current

theorem answers_mono {lookups lookups' : List (List UInt8 × Nat)} (more : ∀ lookup ∈ lookups, lookup ∈ lookups') {item : Item}
    {cfg : List UInt8} {answer : Nat} (member : answer ∈ answers lookups item cfg) : answer ∈ answers lookups' item cfg := by
  refine (List.mem_cons.mp member).elim (fun none => List.mem_cons.mpr (Or.inl none)) fun given => List.mem_cons_of_mem 0 ?_
  obtain ⟨lookup,found,same⟩ := List.mem_map.mp given
  obtain ⟨found,name⟩ := List.mem_filter.mp found
  exact List.mem_map.mpr ⟨lookup,List.mem_filter.mpr ⟨more lookup found,name⟩,same⟩

theorem UpToDate.moved {s' : State} {item : Item} (up : UpToDate sdk s item) (cfg : s'.cfg item.id = s.cfg item.id)
    (lookups : ∀ lookup ∈ s.lookups, lookup ∈ s'.lookups) (active : Agree item s'.active s.active) : UpToDate sdk s' item := by
  obtain ⟨answer,given,own⟩ := up
  unfold UpToDate
  rw [cfg]
  exact ⟨answer,answers_mono lookups given,active.trans own⟩

/-- The reinitialisation under way clears the same bits until its end. -/
theorem Awaited.under {s' : State} {item : Item} (awaited : Awaited s item) {mask : BitVec 32} {got got' : Option (Item × List UInt8)}
    {todo todo' : List Item} (serving : s.serving = some ⟨mask,got,todo⟩) (serving' : s'.serving = some ⟨mask,got',todo'⟩)
    (writes : s'.writes = s.writes) (reinitMask : s'.reinitMask = s.reinitMask) : Awaited s' item := by
  have clears : s'.clears item = s.clears item := by
    rw [State.clears,State.clears,serving,serving']
    rfl
  unfold Awaited
  rw [writes,reinitMask,clears]
  exact awaited

/-- A step that leaves the reinitialisation where it is does not disturb it. -/
theorem Current.moved {s' : State} {item : Item} (current : Current sdk s item) (serving : s'.serving = s.serving)
    (cfg : s'.cfg item.id = s.cfg item.id) (lookups : s'.lookups = s.lookups) (active : s'.active = s.active) : Current sdk s' item := by
  unfold Current State.todo State.got at current ⊢
  rw [serving,cfg]
  refine current.imp_right (Or.imp_right (And.imp_right fun up => ?_))
  exact up.moved cfg (fun _ member => lookups ▸ member) (by rw [active]; exact .refl item _)

theorem store_inv (inv : Inv sdk s) (id : Nat) (text : List UInt8) (written : Bool) :
    Inv sdk (step sdk s (.store id text written)) := by
  intro item
  by_cases own : item.id = id
  · exact Or.inl (Or.inl (List.mem_append_right _ (List.mem_singleton.mpr own)))
  · have kept : (step sdk s (.store id text written)).cfg item.id = s.cfg item.id := by
      cases written with
      | false => rfl
      | true => exact Function.update_of_ne own text s.cfg
    exact (inv item).imp (Or.imp_left (List.mem_append_left _)) fun current => current.moved rfl kept rfl rfl

theorem reinitReq_inv (inv : Inv sdk s) (id : Nat) (inTime : InTime sdk s (.reinitReq id)) : Inv sdk (step sdk s (.reinitReq id)) := by
  intro item
  rw [step]
  split_ifs with half
  · by_cases own : item.id = id
    · cases clears : s.clears item with
      | true =>
        obtain again | current := inTime half item (mem_items item) own clears
        · exact Or.inl (Or.inl (own ▸ again))
        · exact Or.inr (current.moved rfl rfl rfl rfl)
      | false => exact Or.inl (Or.inr ⟨own ▸ appReinitReq_own item s.reinitMask,clears⟩)
    · refine (inv item).imp (Or.imp ?_ ?_) fun current => current.moved rfl rfl rfl rfl
      · exact fun written => (List.mem_erase_of_ne own).mpr written
      · exact fun requested => ⟨appReinitReq_mono id requested.1,requested.2⟩
  · exact inv item

theorem retry_inv (inv : Inv sdk s) (what : Retry) : Inv sdk (retry what s) := by
  intro item
  cases serving : s.serving with
  | none =>
    rw [retry,serving]
    refine (inv item).imp (Or.imp_right fun requested => ⟨requested.1,?_⟩) fun current => ?_
    · exact BitVec.getLsbD_zero
    · exact Or.inr (Or.inr ⟨nofun,(current_idle serving).mp current⟩)
  | some under =>
    rw [retry,serving]
    exact inv item

theorem takeEffect_upToDate {item : Item} (mask : BitVec 32) (todo : List Item) (answer : Nat)
    (replaced : Agree item (load sdk item answer (some (s.cfg item.id)) s.active) (load sdk item answer (some (s.cfg item.id)) cold)) :
    UpToDate sdk (takeEffect sdk item (some (s.cfg item.id)) answer mask todo s) item := by
  cases name : asked item (s.cfg item.id) with
  | none =>
    rw [load_unasked name answer cold] at replaced
    exact ⟨0,List.mem_cons_self,replaced⟩
  | some host =>
    refine ⟨answer,List.mem_cons_of_mem 0 (List.mem_map.mpr ⟨(host,answer),List.mem_filter.mpr ⟨?_,?_⟩,rfl⟩),replaced⟩
    · dsimp only [takeEffect]
      rw [Option.bind_some,name]
      exact List.mem_cons_self
    · exact decide_eq_true name.symm

section Under

variable {mask : BitVec 32} {own : Item} {todo : List Item}

/-- What is done to an item leaves the others as they are. -/
theorem takeEffect_other {got : Option (Item × List UInt8)} {ahead : List Item} {cfg : Option (List UInt8)}
    (serving : s.serving = some ⟨mask,got,ahead⟩) (answer : Nat) {item : Item} (ne : item ≠ own)
    (behind : item ∈ ahead → item ∈ todo) (held : ∀ cfg, got = some (item,cfg) → item = own)
    (inv : Awaited s item ∨ Current sdk s item) :
    Awaited (takeEffect sdk own cfg answer mask todo s) item ∨ Current sdk (takeEffect sdk own cfg answer mask todo s) item := by
  refine inv.imp (fun awaited => awaited.under serving rfl rfl rfl) fun current => ?_
  obtain waiting | hand | ⟨_,up⟩ := (current_under serving).mp current
  · exact Or.inl (behind waiting)
  · exact absurd (held _ hand) ne
  · refine Or.inr (Or.inr ⟨nofun,?_⟩)
    exact up.moved rfl (fun _ member => List.mem_append_right _ member) (load_other ne answer cfg s.active)

/-- What is in hand comes into effect. -/
theorem effect_inv (inv : Inv sdk s) {cfg : List UInt8} (serving : s.serving = some ⟨mask,some (own,cfg),todo⟩) (answer : Nat)
    (inTime : cfg = s.cfg own.id → Legible own cfg ∨ Agree own s.active cold ∨ Awaited s own) :
    Inv sdk (takeEffect sdk own (some cfg) answer mask todo s) := by
  intro item
  obtain rfl | ne := eq_or_ne item own
  swap
  · exact takeEffect_other serving answer ne id (fun _ held => (Prod.mk.inj (Option.some.inj held)).1.symm) (inv item)
  have kept (awaited : Awaited s item) : Awaited (takeEffect sdk item (some cfg) answer mask todo s) item :=
    awaited.under serving rfl rfl rfl
  obtain awaited | current := inv item
  · exact Or.inl (kept awaited)
  obtain waiting | held | ⟨other,_⟩ := (current_under serving).mp current
  · exact Or.inr (Or.inl waiting)
  · obtain ⟨_,rfl⟩ := Prod.mk.inj (Option.some.inj held)
    obtain legible | unset | awaited := inTime rfl
    · exact Or.inr (Or.inr (Or.inr ⟨nofun,takeEffect_upToDate mask todo answer (load_legible legible answer s.active cold)⟩))
    · exact Or.inr (Or.inr (Or.inr ⟨nofun,takeEffect_upToDate mask todo answer (load_agree unset answer _)⟩))
    · exact Or.inl (kept awaited)
  · exact absurd rfl other

/-- An item is read, and the text is in hand. -/
theorem read_inv (inv : Inv sdk s) (serving : s.serving = some ⟨mask,none,own :: todo⟩) :
    Inv sdk {s with serving := some ⟨mask,some (own,s.cfg own.id),todo⟩} := by
  intro item
  refine (inv item).imp (fun awaited => awaited.under serving rfl rfl rfl) fun current => ?_
  by_cases same : item = own
  · rw [same]
    exact Or.inr (Or.inl rfl)
  obtain waiting | held | ⟨_,up⟩ := (current_under serving).mp current
  · exact Or.inl ((List.mem_cons.mp waiting).resolve_left same)
  · exact nomatch held
  · exact Or.inr (Or.inr ⟨fun held => same (Option.some.inj held).symm,up⟩)

theorem unread_inv (inv : Inv sdk s) (serving : s.serving = some ⟨mask,none,own :: todo⟩) (answer : Nat)
    (inTime : Awaited s own ∨ Harmless sdk s own) :
    Inv sdk (takeEffect sdk own none answer mask todo s) := by
  intro item
  obtain rfl | ne := eq_or_ne item own
  swap
  · exact takeEffect_other serving answer ne (fun waiting => (List.mem_cons.mp waiting).resolve_left ne) nofun (inv item)
  refine inTime.imp (fun awaited => awaited.under serving rfl rfl rfl) fun harmless => Or.inr (Or.inr ⟨nofun,?_⟩)
  unfold Harmless at harmless
  split_ifs at harmless with param
  · subst param
    exact ⟨0,List.mem_cons_self,harmless.symm,congrArg Tracer.Param.unitId harmless.symm⟩
  · obtain ⟨answer',given,agrees⟩ := harmless
    exact ⟨answer',given,load_unread param agrees answer⟩

/-- With nothing left to read the bits are cleared. -/
theorem clear_inv (inv : Inv sdk s) (serving : s.serving = some ⟨mask,none,[]⟩) :
    Inv sdk {s with reinitMask := s.reinitMask &&& ~~~mask, serving := none} := by
  intro item
  refine (inv item).imp (Or.imp_right fun requested => ⟨?_,rfl⟩) fun current => ?_
  · have other : mask.getLsbD item.module.bit = false := by
      have clears := requested.2
      rwa [State.clears,serving] at clears
    have inside : item.module.bit < 32 := by cases item <;> decide
    rw [BitVec.getLsbD_and,BitVec.getLsbD_not,requested.1,other]
    simpa using inside
  · obtain waiting | held | ⟨_,up⟩ := (current_under serving).mp current
    · exact absurd waiting List.not_mem_nil
    · exact nomatch held
    · exact (current_idle rfl).mpr up

end Under

/-- The requested modules are to be read. -/
theorem begin_inv (inv : Inv sdk s) (serving : s.serving = none) : Inv sdk {s with
    serving := some ⟨s.reinitMask,none,(modules.filter fun module => s.reinitMask.getLsbD module.bit).flatMap Module.reads⟩} := by
  intro item
  obtain (written | ⟨requested,_⟩) | current := inv item
  · exact Or.inl (Or.inl written)
  · have listed : item.module ∈ modules := by cases item <;> decide
    exact Or.inr (Or.inl (List.mem_flatMap.mpr ⟨item.module,List.mem_filter.mpr ⟨listed,requested⟩,item_reads item⟩))
  · exact Or.inr (Or.inr (Or.inr ⟨nofun,(current_idle serving).mp current⟩))

theorem reinitTask_inv (inv : Inv sdk s) (readable : Bool) (answer : Nat) (inTime : InTime sdk s (.reinitTask readable answer)) :
    Inv sdk (reinitTask sdk readable answer s) := by
  rw [InTime] at inTime
  rcases serving : s.serving with _ | ⟨mask,_ | ⟨item,cfg⟩,todo⟩
  · rw [reinitTask,serving]
    dsimp only
    split_ifs
    · exact inv
    · exact begin_inv inv serving
  · rw [reinitTask,serving]
    rw [serving] at inTime
    cases todo with
    | nil => exact clear_inv inv serving
    | cons item todo =>
      cases readable with
      | true => exact read_inv inv serving
      | false => exact unread_inv inv serving answer (inTime.resolve_left nofun)
  · rw [reinitTask,serving]
    rw [serving] at inTime
    exact effect_inv inv serving answer inTime

theorem step_inv (s : State) (input : Input) (inv : Inv sdk s) (inTime : InTime sdk s input) : Inv sdk (step sdk s input) := by
  cases input with
  | store id text written => exact store_inv inv id text written
  | reinitReq id => exact reinitReq_inv inv id inTime
  | reinitTask readable answer => exact reinitTask_inv inv readable answer inTime
  | retry what => exact retry_inv inv what

theorem boot_inv (cfg : Nat → List UInt8) : Inv sdk (boot cfg) := by
  have all (item : Item) : item ∈ Module.tracer.reads ++ Module.cms.reads ++ Module.main.reads := by
    cases item <;> decide
  exact fun item => Or.inr (Or.inl (all item))

/-- In a run whose steps are in time no change of the configuration is lost. -/
theorem run_fresh (cfg : Nat → List UInt8) (inputs : List Input) (inTime : Run.Admits (step sdk) (InTime sdk) (boot cfg) inputs)
    (first rest : List Input) (split : inputs = first ++ rest) : Fresh sdk (Run.run (step sdk) (boot cfg) first) := by
  subst split
  apply Inv.fresh
  exact Run.run_invariant (step sdk) (InTime sdk) (Inv sdk) step_inv (boot cfg) first (boot_inv cfg)
    ((Run.admits_append (step sdk) (InTime sdk) (boot cfg) first rest).mp inTime).1

end Steps

section Lost

/-- The items as the unit is delivered. -/
def delivered (id : Nat) : List UInt8 := ((Cfg.tableGet id).map Cfg.CfgItem.data).getD []

/-- Steps of `_reinit_task`, with all items readable. -/
def serves (steps : Nat) : List Input := List.replicate steps (.reinitTask true 0)

/-- Another task changes an item. -/
def change (item : Item) (text : String) : List Input := [.store item.id (ascii text) true,.reinitReq item.id]

/-- The time of the siren is changed again after it was read, and before its bit is cleared. -/
def overtaken : List Input := serves 11 ++ change .mainSetup "7" ++ serves 3 ++ change .mainSetup "9" ++ serves 1

theorem overtaken_lost : ¬ ∀ cfg inputs, Fresh TracerParam.plainSdk (Run.run (step TracerParam.plainSdk) (boot cfg) inputs) := by
  intro always
  have stale := always delivered overtaken (by decide +kernel) (by decide +kernel) (by decide +kernel) .mainSetup
  exact absurd stale (by decide +kernel)

/-- An account that is not a number leaves the one before in use, and so does one that cannot be read. -/
def misspelled : List Input := serves 11 ++ change .cmsAccount "1234" ++ serves 6 ++ change .cmsAccount "xyz" ++ serves 6

def unreadable : List Input := serves 11 ++ change .cmsAccount "1234" ++ serves 3 ++ [.reinitTask false 0] ++ serves 1

example : ¬ Fresh TracerParam.plainSdk (Run.run (step TracerParam.plainSdk) (boot delivered) misspelled) := fun fresh =>
  absurd (fresh (by decide +kernel) (by decide +kernel) (by decide +kernel) .cmsAccount) (by decide +kernel)

example : ¬ Fresh TracerParam.plainSdk (Run.run (step TracerParam.plainSdk) (boot delivered) unreadable) := fun fresh =>
  absurd (fresh (by decide +kernel) (by decide +kernel) (by decide +kernel) .cmsAccount) (by decide +kernel)

/-- The account is changed again before it is read. -/
def served : List Input := serves 11 ++ change .cmsAccount "1234" ++ serves 3 ++ change .cmsAccount "4321" ++ serves 3

theorem served_fresh : Fresh TracerParam.plainSdk (Run.run (step TracerParam.plainSdk) (boot delivered) served) ∧
    (Run.run (step TracerParam.plainSdk) (boot delivered) served).active.cms.account = 0x4321 :=
  ⟨run_fresh delivered served (by decide +kernel) served [] (List.append_nil _).symm,by decide +kernel⟩

end Lost

end JcaFirmware.Reinit
