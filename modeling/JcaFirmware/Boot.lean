import JcaFirmware.BootloaderReads
import JcaFirmware.Foundation.Run

/-! The bootloader from reset to reset (`main` and `_tty_rx_parser` of `bootloader/main.c`). The power may fail or a watchdog
may bite at any moment, also between two sectors of the application that is copied, or within one. -/
namespace JcaFirmware.Boot
open Foundation Bootloader Ihex
open BootloaderReads (codeBytes image image_size image_crc image_code imageFlash image_headerSize image_payloadSize image_accepted
  image_bootable)

section Code

inductive ResetType | powerOn | userRq | wdt | bod | other
deriving DecidableEq, Repr

/-- What the register `GPREG_BOOT` asks for; any word but the two that are known is `other`. -/
inductive GpregBoot | none | stayInBoot | flashRq | other
deriving DecidableEq, Repr

/-- Where the device stands: without power or in a reset, in the loop of `main_flash_app`, in `_bl_task`, or in the application. -/
inductive Stage
  | off
  | flash (size i dest : Nat) (buf : List UInt8)
  | bl
  | app
deriving DecidableEq, Repr

/-- An application is started, lives, and is not started once more; and a power failure that clears the registers. -/
inductive Event | run | alive | bootLoop | lost
deriving DecidableEq, Repr

/-- The flashes, the static data, and the registers that a reset leaves; the events are newest first. -/
structure Device where
  boot : State
  addrHiword : Nat
  gpregBoot : GpregBoot
  bootloop : Nat
  stage : Stage
  trace : List Event

def Device.log (e : Event) (d : Device) : Device := {d with trace := e :: d.trace}

def blTask (d : Device) : Device := {d with gpregBoot := .none, stage := .bl}

/-- The end of `main`, behind the copy; `again` is the answer of the flash to its initialisation there. -/
def finish (again : Bool) (d : Device) : Device :=
  let d := {d with bootloop := (d.bootloop + 1) % 2 ^ 32}
  if 5 < d.bootloop then (blTask {d with bootloop := 0, boot := {d.boot with storageReady := again}}).log .bootLoop
  else if mainAppOk d.boot then {d with stage := .app}.log .run
  else blTask d

variable (sdk : Chsum)

/-- `main_flash_app` up to its loop. -/
def mainFlashApp (ready again : Bool) (reads : Nat → Bool) (buf : List UInt8) (d : Device) : Device :=
  let d := {d with boot := {d.boot with storageReady := ready}}
  if ready = false then finish again d
  else
    match BootloaderReads.extStorageCheckFw sdk reads d.boot with
    | none => finish again d
    | some (container,_) => {d with stage := .flash (dataSize container) 0 appInfoPageAddr buf}

/-- One round of the loop. -/
def flashSector (read again : Bool) (size i dest : Nat) (buf : List UInt8) (d : Device) : Device :=
  if size ≤ i then finish again d
  else
    let buf := (BootloaderReads.extStorageReadFw (fun _ => read) d.boot 0 sectorSize i).getD buf
    {d with
      boot := {d.boot with internal := d.boot.internal.write dest buf}
      stage := .flash size (i + sectorSize) (dest + sectorSize) buf}

/-- A reset that the firmware asked for clears what it asked for. -/
def bootRead (reset : ResetType) (gpregBoot : GpregBoot) : GpregBoot := if reset = .userRq then .none else gpregBoot

/-- `main` up to the loop of the copy, or up to its end. -/
def main (reset : ResetType) (ready again : Bool) (reads : Nat → Bool) (buf : List UInt8) (d : Device) : Device :=
  let d := {d with boot := {d.boot with storageReady := false}, addrHiword := 0}
  if reset = .userRq ∧ d.gpregBoot = .stayInBoot then blTask {d with boot := {d.boot with storageReady := ready}}
  else
    let flashRq := reset = .userRq ∧ d.gpregBoot = .flashRq
    let appOk := mainAppOk d.boot
    let d := {d with gpregBoot := bootRead reset d.gpregBoot}
    if flashRq ∨ appOk = false then mainFlashApp sdk ready again reads buf d else finish again d

/-- `_tty_rx_parser`, with what it says of a line of iHEX. -/
def ttyRxParser (data : List UInt8) (d : Device) : Option Bool × Device :=
  if CText.charAt data 0 = 0x3A then
    match ihexParse (fun addr data s => .ok (extStorageWriteData addr data s)) false data ⟨d.addrHiword,d.boot⟩ with
    | .ok (ok,p) => (some ok,{d with addrHiword := p.addrHiword, boot := p.state})
    | .error _ => (some false,d)
  else if CText.charAt data 0 = 0x42 then (none,{d with gpregBoot := .stayInBoot, stage := .off})
  else if CText.charAt data 0 = 0x46 then (none,{d with gpregBoot := .flashRq, stage := .off})
  else if CText.charAt data 0 = 0x52 ∨ CText.charAt data 0 = 0x57 then (none,{d with stage := .off})
  else (none,d)

/-- What happens next. The application writes to the external flash, and resets the unit with a request; a cut leaves the
registers or clears them, and anything in the internal flash while it is written. -/
inductive Input
  | main (reset : ResetType) (ready again : Bool) (reads : Nat → Bool) (buf : List UInt8)
  | sector (read again : Bool)
  | ttyRx (line : List UInt8)
  | timeout
  | alive
  | appWrite (external : Bytes)
  | wdogReset (request : GpregBoot)
  | cut (kept : Bool) (internal : Bytes)

def cut (kept : Bool) (internal : Bytes) (d : Device) : Device :=
  let d :=
    match d.stage with
    | .flash _ _ _ _ => {d with boot := {d.boot with internal}, stage := .off}
    | _ => {d with stage := .off}
  if kept then d else {d with gpregBoot := .none, bootloop := 0}.log .lost

def step (d : Device) : Input → Device
  | .main reset ready again reads buf => if d.stage = .off then main sdk reset ready again reads buf d else d
  | .sector read again =>
    match d.stage with
    | .flash size i dest buf => flashSector read again size i dest buf d
    | _ => d
  | .ttyRx line => if d.stage = .bl then (ttyRxParser line d).2 else d
  | .timeout => if d.stage = .bl then {d with stage := .off} else d
  | .alive => if d.stage = .app then {d with bootloop := 0}.log .alive else d
  | .appWrite external => if d.stage = .app then {d with boot := {d.boot with external}} else d
  | .wdogReset request => if d.stage = .app then {d with gpregBoot := request, stage := .off} else d
  | .cut kept internal => cut kept internal d

end Code

section Steps
variable {sdk : Chsum} {d : Device}

/-- What `main` leaves as it is up to its last decision. -/
structure Kept (d d' : Device) : Prop where
  internal : d'.boot.internal = d.boot.internal
  external : d'.boot.external = d.boot.external
  bootloop : d'.bootloop = d.bootloop
  trace : d'.trace = d.trace
  gpregBoot : d'.gpregBoot = d.gpregBoot ∨ d'.gpregBoot = .none

/-- The application is to be copied. -/
def Wanted (reset : ResetType) (d : Device) : Prop := (reset = .userRq ∧ d.gpregBoot = .flashRq) ∨ mainAppOk d.boot = false

/-- What `main` can come to. -/
inductive Mains (reset : ResetType) (d : Device) : Device → Prop
  | stays (d' : Device) (kept : Kept d d') : Mains reset d (blTask d')
  | ends (again : Bool) (d' : Device) (kept : Kept d d') : Mains reset d (finish again d')
  | copies (size : Nat) (buf : List UInt8) (d' : Device) (kept : Kept d d') (wanted : Wanted reset d) :
      Mains reset d {d' with stage := .flash size 0 appInfoPageAddr buf}

theorem main_cases (sdk : Chsum) (reset : ResetType) (ready again : Bool) (reads : Nat → Bool) (buf : List UInt8) (d : Device) :
    Mains reset d (main sdk reset ready again reads buf d) := by
  let begun (ready : Bool) : Device := {d with
    boot := {d.boot with storageReady := ready}
    addrHiword := 0
    gpregBoot := bootRead reset d.gpregBoot}
  have kept (ready : Bool) : Kept d (begun ready) := by
    refine ⟨rfl,rfl,rfl,rfl,?_⟩
    dsimp only [begun]
    unfold bootRead
    split_ifs
    · exact Or.inr rfl
    · exact Or.inl rfl
  unfold main mainFlashApp
  dsimp only
  split_ifs with stay wanted unready
  · exact .stays _ ⟨rfl,rfl,rfl,rfl,Or.inl rfl⟩
  · exact .ends again (begun ready) (kept ready)
  · cases BootloaderReads.extStorageCheckFw sdk reads {d.boot with storageReady := ready} with
    | none => exact .ends again (begun ready) (kept ready)
    | some found => exact .copies _ buf (begun ready) (kept ready) wanted
  · exact .ends again (begun false) (kept false)

/-- What the end of `main` can come to. -/
inductive Finishes (d : Device) : Device → Prop
  | loops (storageReady : Bool) :
      Finishes d (Device.log .bootLoop {d with
        bootloop := 0, boot := {d.boot with storageReady}, gpregBoot := .none, stage := .bl})
  | runs (bootloop : Nat) (counted : bootloop = (d.bootloop + 1) % 2 ^ 32) (few : bootloop ≤ 5) (ok : mainAppOk d.boot = true) :
      Finishes d (Device.log .run {d with bootloop, stage := .app})
  | waits (bootloop : Nat) (counted : bootloop = (d.bootloop + 1) % 2 ^ 32) (few : bootloop ≤ 5) (bad : mainAppOk d.boot = false) :
      Finishes d {d with bootloop, gpregBoot := .none, stage := .bl}

theorem finish_cases (again : Bool) (d : Device) : Finishes d (finish again d) := by
  unfold finish blTask
  dsimp only
  split_ifs with many ok
  · exact .loops again
  · exact .runs _ rfl (Nat.le_of_not_lt many) ok
  · exact .waits _ rfl (Nat.le_of_not_lt many) (Bool.eq_false_of_not_eq_true ok)

theorem ihexParse_bootloader (line : List UInt8) (p : Parse State) :
    ∃ ok p', ihexParse (fun addr data s => .ok (extStorageWriteData addr data s)) false line p = .ok (ok,p') ∧
      p'.state.internal = p.state.internal := by
  have kept (addr : Nat) (data : List UInt8) : (extStorageWriteData addr data p.state).2.internal = p.state.internal := by
    unfold extStorageWriteData
    split_ifs
    all_goals rfl
  unfold ihexParse
  split_ifs
  · exact ⟨false,p,rfl,rfl⟩
  cases scanLine (line.drop 1) with
  | none => exact ⟨false,p,rfl,rfl⟩
  | some scanned =>
    obtain ⟨type,addr,data⟩ := scanned
    dsimp only
    split_ifs
    · exact ⟨_,_,rfl,kept _ data⟩
    all_goals exact ⟨_,_,rfl,rfl⟩

/-- What a line to the bootloader can change. -/
structure Typed (line : List UInt8) (d d' : Device) : Prop where
  internal : d'.boot.internal = d.boot.internal
  bootloop : d'.bootloop = d.bootloop
  trace : d'.trace = d.trace
  stage : d'.stage = .off ∨ d'.stage = d.stage
  external : CText.charAt line 0 ≠ 0x3A → d'.boot.external = d.boot.external
  gpregBoot : CText.charAt line 0 ≠ 0x46 → d'.gpregBoot ≠ .flashRq ∨ d'.gpregBoot = d.gpregBoot

theorem ttyRxParser_typed (line : List UInt8) (d : Device) : Typed line d (ttyRxParser line d).2 := by
  unfold ttyRxParser
  split_ifs with record boot flash reset
  · obtain ⟨ok,p,parsed,internal⟩ := ihexParse_bootloader line ⟨d.addrHiword,d.boot⟩
    rw [parsed]
    exact ⟨internal,rfl,rfl,Or.inr rfl,absurd record,fun _ => Or.inr rfl⟩
  · exact ⟨rfl,rfl,rfl,Or.inl rfl,fun _ => rfl,fun _ => Or.inl nofun⟩
  · exact ⟨rfl,rfl,rfl,Or.inl rfl,fun _ => rfl,absurd flash⟩
  · exact ⟨rfl,rfl,rfl,Or.inl rfl,fun _ => rfl,fun _ => Or.inr rfl⟩
  · exact ⟨rfl,rfl,rfl,Or.inr rfl,fun _ => rfl,fun _ => Or.inr rfl⟩

end Steps

section Unit

/-- The image in both flashes. -/
def unit (stage : Stage) : Device where
  boot := imageFlash fun a => image (a - appInfoPageAddr)
  addrHiword := 0
  gpregBoot := .none
  bootloop := 0
  stage
  trace := []

theorem unit_ok (stage : Stage) : mainAppOk (unit stage).boot = true := by
  have size : appInfoSize (unit stage).boot = 1024 := by
    rw [appInfoSize,← Nat.add_zero appInfoPageAddr,unit,imageFlash,image.read_moved,image_size]
  have crc : appInfoCrc (unit stage).boot = (appCrc codeBytes).toNat := by
    rw [appInfoCrc,unit,imageFlash,image.read_moved,image_crc]
  have code : (unit stage).boot.internal.read appStartAddr 1024 = codeBytes := by
    have start : appStartAddr = appInfoPageAddr + 512 := rfl
    rw [unit,imageFlash,start,image.read_moved,image_code]
  rw [mainAppOk,size,crc,code,if_neg (by decide)]
  exact decide_eq_true rfl

end Unit

section Runs
variable (sdk : Chsum)

/-- The starts in a row of an application that does not live, since the registers were last lost. -/
def starts : List Event → Nat
  | .run :: past => starts past + 1
  | _ => 0

/-- No application is started once more that has not lived five times before. -/
structure Counted (d : Device) : Prop where
  counted : starts d.trace ≤ d.bootloop
  few : starts d.trace ≤ 5
  small : d.bootloop + 1 < 2 ^ 32

/-- What runs has passed the check. -/
structure Checked (d : Device) : Prop extends Counted d where
  ok : d.stage = .app → mainAppOk d.boot = true

variable {sdk} {d d' : Device}

theorem Counted.same (counted : Counted d) (bootloop : d'.bootloop = d.bootloop) (trace : d'.trace = d.trace) : Counted d' where
  counted := by rw [trace,bootloop]; exact counted.counted
  few := by rw [trace]; exact counted.few
  small := by rw [bootloop]; exact counted.small

theorem Counted.stopped (counted : Counted d) (bootloop : d'.bootloop = d.bootloop) (trace : d'.trace = d.trace)
    (stage : d'.stage ≠ .app) : Checked d' :=
  ⟨counted.same bootloop trace,fun app => absurd app stage⟩

theorem Counted.cleared (bootloop : d.bootloop = 0) (fresh : starts d.trace = 0) : Counted d where
  counted := by rw [fresh]; exact Nat.zero_le _
  few := by rw [fresh]; exact Nat.zero_le _
  small := by rw [bootloop]; decide

theorem Counted.finish (counted : Counted d) (again : Bool) : Checked (finish again d) := by
  have next : (d.bootloop + 1) % 2 ^ 32 = d.bootloop + 1 := Nat.mod_eq_of_lt counted.small
  have more := Nat.succ_le_succ counted.counted
  have cases := finish_cases again d
  generalize Boot.finish again d = d' at cases ⊢
  cases cases with
  | loops => exact ⟨.cleared rfl rfl,nofun⟩
  | runs bootloop counts few ok =>
    rw [next] at counts
    have more : starts d.trace + 1 ≤ bootloop := by omega
    exact ⟨⟨more,Nat.le_trans more few,by dsimp only [Device.log]; omega⟩,fun _ => ok⟩
  | waits bootloop counts few =>
    rw [next] at counts
    exact ⟨⟨by dsimp only; omega,counted.few,by dsimp only; omega⟩,nofun⟩

theorem step_checked (d : Device) (input : Input) (checked : Checked d) : Checked (step sdk d input) := by
  have counted := checked.toCounted
  unfold step
  cases input with
  | main reset ready again reads buf =>
    dsimp only
    split_ifs with off
    · have cases := main_cases sdk reset ready again reads buf d
      generalize main sdk reset ready again reads buf d = d' at cases ⊢
      cases cases with
      | stays d' kept => exact counted.stopped kept.bootloop kept.trace nofun
      | ends again d' kept => exact (counted.same kept.bootloop kept.trace).finish again
      | copies size buf d' kept => exact counted.stopped kept.bootloop kept.trace nofun
    · exact checked
  | sector read again =>
    cases stage : d.stage with
    | flash size i dest buf =>
      dsimp only
      unfold flashSector
      split_ifs
      · exact counted.finish again
      · exact counted.stopped rfl rfl nofun
    | off | bl | app => exact checked
  | ttyRx line =>
    dsimp only
    split_ifs with bl
    · have typed := ttyRxParser_typed line d
      refine counted.stopped typed.bootloop typed.trace fun app => ?_
      obtain off | same := typed.stage
      · exact nomatch off.symm.trans app
      · exact nomatch bl.symm.trans (same.symm.trans app)
    · exact checked
  | timeout =>
    dsimp only
    split_ifs
    · exact counted.stopped rfl rfl nofun
    · exact checked
  | alive =>
    dsimp only
    split_ifs with app
    · exact ⟨.cleared rfl rfl,fun _ => checked.ok app⟩
    · exact checked
  | appWrite external =>
    dsimp only
    split_ifs with app
    · exact ⟨counted.same rfl rfl,fun _ => checked.ok app⟩
    · exact checked
  | wdogReset request =>
    dsimp only
    split_ifs
    · exact counted.stopped rfl rfl nofun
    · exact checked
  | cut kept internal =>
    dsimp only
    unfold cut
    cases d.stage
    all_goals
      dsimp only
      split_ifs
      · exact counted.stopped rfl rfl nofun
      · exact ⟨.cleared rfl rfl,nofun⟩

/-- In every run, with resets of any type, power failures at any moment and anything in the flashes, the bootloader starts only an
application that passes the check, and after five starts in a row of one that does not live, with the registers kept all along, it
waits for a new one. -/
theorem starts_checked (inputs : List Input) (start : Counted d) (off : d.stage ≠ .app) : Checked (Run.run (step sdk) d inputs) :=
  Run.run_invariant (step sdk) (fun _ _ => True) Checked (fun d input checked _ => step_checked d input checked) d inputs
    ⟨start,fun app => absurd app off⟩ (Run.admits_of_forall _ _ _ _ fun _ _ _ => trivial)

/-- The application starts and the watchdog bites before it lives. -/
def crash : List Input := [.main .wdt true true (fun _ => true) [],.cut true fun _ => 0]

theorem starts_checked_crash :
    Checked (Run.run (step Toolchain.toolChsum) (unit .off) (crash ++ crash ++ crash ++ crash ++ crash ++ crash ++ crash)) :=
  starts_checked _ (.cleared rfl rfl) nofun

end Runs

section Requests
variable {sdk : Chsum} {d d' : Device}

/-- Nobody asks for a new application. -/
def asks : Input → Bool
  | .ttyRx line => CText.charAt line 0 = 0x46
  | .wdogReset request => request = .flashRq
  | _ => false

/-- The application is in place, and nothing asks for another one. -/
structure Intact (internal : Bytes) (d : Device) : Prop where
  same : d.boot.internal = internal
  unasked : d.gpregBoot ≠ .flashRq
  whole : ∀ size i dest buf, d.stage ≠ .flash size i dest buf

theorem mainAppOk_internal {s s' : State} (same : s'.internal = s.internal) : mainAppOk s' = mainAppOk s := by
  cases s
  cases s'
  obtain rfl := same
  rfl

theorem Kept.unasked (kept : Kept d d') (unasked : d.gpregBoot ≠ .flashRq) : d'.gpregBoot ≠ .flashRq := by
  obtain same | none := kept.gpregBoot
  · rw [same]
    exact unasked
  · rw [none]
    nofun

theorem finish_intact {internal : Bytes} (same : d.boot.internal = internal) (unasked : d.gpregBoot ≠ .flashRq) (again : Bool) :
    Intact internal (finish again d) := by
  have cases := finish_cases again d
  generalize finish again d = d' at cases ⊢
  cases cases with
  | loops => exact ⟨same,nofun,nofun⟩
  | runs => exact ⟨same,unasked,nofun⟩
  | waits => exact ⟨same,nofun,nofun⟩

theorem step_intact {internal : Bytes} (ok : mainAppOk ⟨false,fun _ => 0,internal⟩ = true) (d : Device) (input : Input)
    (intact : Intact internal d) (unasked : asks input = false) : Intact internal (step sdk d input) := by
  unfold step
  cases input with
  | main reset ready again reads buf =>
    dsimp only
    split_ifs with off
    · have cases := main_cases sdk reset ready again reads buf d
      generalize main sdk reset ready again reads buf d = d' at cases ⊢
      cases cases with
      | stays d' kept => exact ⟨kept.internal.trans intact.same,nofun,nofun⟩
      | ends again d' kept => exact finish_intact (kept.internal.trans intact.same) (kept.unasked intact.unasked) again
      | copies size buf d' kept wanted =>
        obtain asked | bad := wanted
        · exact absurd asked.2 intact.unasked
        · rw [@mainAppOk_internal ⟨false,fun _ => 0,internal⟩ d.boot intact.same] at bad
          exact nomatch bad.symm.trans ok
    · exact intact
  | sector read again =>
    cases stage : d.stage with
    | flash size i dest buf => exact absurd stage (intact.whole size i dest buf)
    | off | bl | app => exact intact
  | ttyRx line =>
    dsimp only
    split_ifs with bl
    · have typed := ttyRxParser_typed line d
      refine ⟨typed.internal.trans intact.same,?_,fun size i dest buf => ?_⟩
      · obtain unasked | same := typed.gpregBoot (of_decide_eq_false unasked)
        · exact unasked
        · rw [same]
          exact intact.unasked
      · obtain off | same := typed.stage
        · rw [off]
          nofun
        · rw [same]
          exact intact.whole size i dest buf
    · exact intact
  | timeout =>
    dsimp only
    split_ifs
    · exact ⟨intact.same,intact.unasked,nofun⟩
    · exact intact
  | alive | appWrite =>
    dsimp only
    split_ifs
    · exact ⟨intact.same,intact.unasked,intact.whole⟩
    · exact intact
  | wdogReset request =>
    dsimp only
    split_ifs
    · exact ⟨intact.same,of_decide_eq_false unasked,nofun⟩
    · exact intact
  | cut kept cutoff =>
    dsimp only
    unfold cut
    cases stage : d.stage with
    | flash size i dest buf => exact absurd stage (intact.whole size i dest buf)
    | off | bl | app =>
      dsimp only
      split_ifs
      · exact ⟨intact.same,intact.unasked,nofun⟩
      · exact ⟨intact.same,nofun,nofun⟩

/-- In every run in which nobody asks to flash, an application that passes the check stays as it is to the byte, whatever is uploaded,
whichever resets come and whenever the power fails. -/
theorem unrequested_stays (inputs : List Input) (ok : mainAppOk d.boot = true) (unasked : d.gpregBoot ≠ .flashRq) (off : d.stage = .off)
    (nobody : ∀ input ∈ inputs, asks input = false) : (Run.run (step sdk) d inputs).boot.internal = d.boot.internal := by
  have whole : mainAppOk ⟨false,fun _ => 0,d.boot.internal⟩ = true := ok
  refine (Run.run_invariant (step sdk) (fun _ input => asks input = false) (Intact d.boot.internal) (step_intact whole) d inputs ?_ ?_).same
  · exact ⟨rfl,unasked,by rw [off]; nofun⟩
  · exact Run.admits_of_forall _ _ _ _ fun _ input member => nobody input member

/-- The application starts, a half of another one is stored, the power fails, and the bootloader is asked to stay and is typed to. -/
def tampered : List Input :=
  [.main .powerOn true true (fun _ => true) [],.alive,.appWrite fun _ => 0,.wdogReset .stayInBoot,.main .userRq true true (fun _ => true) [],
    .ttyRx Ihex.endLine,.cut false fun _ => 0,.main .powerOn false true (fun _ => false) []]

theorem unrequested_stays_tampered :
    (Run.run (step Toolchain.toolChsum) (unit .off) tampered).boot.internal = (unit .off).boot.internal :=
  unrequested_stays tampered (unit_ok .off) nofun rfl (by decide)

end Requests

section Recovery
variable {sdk : Chsum} {d d' : Device}

/-- The rounds of the loop, with the outcomes of their reads from a number on. -/
def copying (reads : Nat → Bool) (again : Bool) (n : Nat) : Nat → List Input
  | 0 => []
  | rounds + 1 => .sector (reads n) again :: copying reads again (n + 1) rounds

theorem copying_stopped (stopped : ∀ size i dest buf, d.stage ≠ .flash size i dest buf) (reads : Nat → Bool) (again : Bool) (n rounds : Nat) :
    Run.run (step sdk) d (copying reads again n rounds) = d := by
  induction rounds generalizing n with
  | zero => rfl
  | succ rounds ih =>
    have same : step sdk d (.sector (reads n) again) = d := by
      unfold step
      cases stage : d.stage with
      | flash size i dest buf => exact absurd stage (stopped size i dest buf)
      | off | bl | app => rfl
    rw [copying,Run.run_cons,same,ih]

theorem finish_stopped (again : Bool) (d : Device) (size i dest : Nat) (buf : List UInt8) :
    (finish again d).stage ≠ .flash size i dest buf := by
  have cases := finish_cases again d
  generalize finish again d = d' at cases ⊢
  cases cases
  all_goals exact nofun

theorem step_sector {read again : Bool} {size i dest : Nat} {buf : List UInt8} (stage : d.stage = .flash size i dest buf) :
    step sdk d (.sector read again) = flashSector read again size i dest buf d := by
  unfold step
  rw [stage]

/-- Undisturbed, the rounds are the loop of `main_flash_app` and what is behind it. -/
theorem copying_flashes {s : State} {reads : Nat → Bool} {size rounds n i dest : Nat} (enough : size ≤ i + rounds) (again : Bool) {buf : List UInt8}
    (stage : d.stage = .flash size i dest buf) (external : d.boot.external = s.external) :
    Run.run (step sdk) d (copying reads again n (rounds + 1)) = finish again {d with
      boot := {d.boot with internal := BootloaderReads.flashLoop reads s size rounds n i dest buf d.boot.internal}} := by
  induction rounds generalizing n i dest buf d with
  | zero =>
    rw [copying,Run.run_cons,step_sector stage,flashSector,if_pos (by omega)]
    rfl
  | succ rounds ih =>
    have positive : 0 < sectorSize := by decide
    rw [copying,Run.run_cons,step_sector stage,BootloaderReads.flashLoop]
    by_cases done : size ≤ i
    · rw [flashSector,if_pos done,if_pos done,copying_stopped (finish_stopped again d)]
    · have read : BootloaderReads.extStorageReadFw (fun _ => reads n) d.boot 0 sectorSize i =
          BootloaderReads.extStorageReadFw reads s n sectorSize i := by
        simp only [BootloaderReads.extStorageReadFw,BootloaderReads.sectorRead,sectorRead,external]
      rw [flashSector,if_neg done,if_neg done,read]
      exact ih (by omega) rfl external

/-- The copy that `main` wants is that of `main_flash_app`, if nothing disturbs it, whichever of the reads fail. -/
def FlashesWhole (sdk : Chsum) (reset : ResetType) (again : Bool) (buf : List UInt8) (d : Device) : Prop :=
  Wanted reset d → ∀ ready reads, Run.run (step sdk) (main sdk reset ready again reads buf d)
      (copying reads again (1 + BootloaderReads.sectors (BootloaderReads.headerSize d.boot)) (BootloaderReads.headerSize d.boot + 1)) =
    finish again {d with
      boot := (BootloaderReads.mainFlashApp sdk reads d.boot ready buf).2
      addrHiword := 0
      gpregBoot := bootRead reset d.gpregBoot}

theorem main_flashes (runs : sdk.Runs) (reset : ResetType) (going : ¬ (reset = .userRq ∧ d.gpregBoot = .stayInBoot)) (again : Bool)
    (buf : List UInt8) : FlashesWhole sdk reset again buf d := by
  intro wanted ready reads
  have wanted : (reset = .userRq ∧ d.gpregBoot = .flashRq) ∨ mainAppOk {d.boot with storageReady := false} = false := wanted
  rw [main]
  dsimp only
  rw [if_neg going,if_pos wanted,mainFlashApp,BootloaderReads.mainFlashApp]
  dsimp only
  split_ifs with unready
  · exact copying_stopped (finish_stopped again _) _ _ _ _
  · cases found : BootloaderReads.extStorageCheckFw sdk reads {d.boot with storageReady := ready} with
    | none => exact copying_stopped (finish_stopped again _) _ _ _ _
    | some result =>
      obtain ⟨container,n⟩ := result
      obtain ⟨held,count,_⟩ := BootloaderReads.extStorageCheckFw_some runs found
      have size : dataSize container = BootloaderReads.headerSize d.boot := by rw [held]; rfl
      rw [size] at count
      subst count
      dsimp only
      rw [size]
      exact copying_flashes (Nat.le_add_left _ _) again rfl rfl

/-- The external flash holds a container that is accepted, and in it an application that passes the check. -/
structure Installable (sdk : Chsum) (s : State) : Prop where
  accepted : BootloaderReads.Accepted sdk s
  bootable : BootloaderReads.Bootable s
  inside : appInfoPageSize + BootloaderReads.payloadSize s ≤ BootloaderReads.headerSize s

theorem Installable.external {s s' : State} (installable : Installable sdk s) (same : s'.external = s.external) : Installable sdk s' := by
  cases s
  cases s'
  obtain rfl := same
  obtain ⟨⟨valid,low,high,sum⟩,⟨low',high',crc⟩,inside⟩ := installable
  exact ⟨⟨valid,low,high,sum⟩,⟨low',high',crc⟩,inside⟩

theorem mainFlashApp_copies (runs : sdk.Runs) {s : State} (installable : Installable sdk s) (buf : List UInt8) :
    (BootloaderReads.mainFlashApp sdk (fun _ => true) s true buf).2.internal = s.internal.write appInfoPageAddr
      (s.external.read BootloaderReads.payloadAddr (BootloaderReads.sectors (BootloaderReads.headerSize s) * sectorSize)) := by
  obtain ⟨accepted,_,_⟩ := installable
  have found : Bootloader.extStorageCheckFw sdk {s with storageReady := true} = some (s.external.read fwAddr sectorSize) :=
    @extStorageCheckFw_ok sdk {s with storageReady := true} runs rfl _ rfl accepted.valid accepted.low accepted.high accepted.sum
  rw [← BootloaderReads.extStorageCheckFw_reliable] at found
  obtain ⟨result,checked,_⟩ := Option.map_eq_some_iff.mp found
  have flashed : BootloaderReads.mainFlashApp sdk (fun _ => true) s true buf =
      (true,(BootloaderReads.mainFlashApp sdk (fun _ => true) s true buf).2) := by
    unfold BootloaderReads.mainFlashApp
    dsimp only
    rw [if_neg Bool.noConfusion,checked]
  obtain ⟨_,_,looped⟩ := BootloaderReads.mainFlashApp_true runs flashed
  rwa [BootloaderReads.flashLoop_write (by omega) rfl fun _ _ => rfl,Nat.sub_zero,Nat.add_zero] at looped

theorem headerSize_sectors (s : State) :
    BootloaderReads.headerSize s ≤ BootloaderReads.sectors (BootloaderReads.headerSize s) * sectorSize := by
  have sector : sectorSize = 512 := rfl
  rw [BootloaderReads.sectors,sector]
  omega

theorem mainFlashApp_installs (runs : sdk.Runs) {s : State} (installable : Installable sdk s) (buf : List UInt8) :
    mainAppOk (BootloaderReads.mainFlashApp sdk (fun _ => true) s true buf).2 = true := by
  have copied := mainFlashApp_copies runs installable buf
  obtain ⟨accepted,bootable,inside⟩ := installable
  have least : appMinSize = 1024 := rfl
  have low : appMinSize ≤ BootloaderReads.headerSize s := accepted.low
  have whole := headerSize_sectors s
  exact (BootloaderReads.mainAppOk_copied (by omega) (fun _ => Nat.le_trans inside whole) copied).mpr bootable

/-- The external flash is written to. -/
def writes : Input → Bool
  | .ttyRx line => CText.charAt line 0 = 0x3A
  | .appWrite _ => true
  | _ => false

theorem finish_external (again : Bool) (d : Device) : (finish again d).boot.external = d.boot.external := by
  have cases := finish_cases again d
  generalize finish again d = d' at cases ⊢
  cases cases
  all_goals rfl

theorem step_external (d : Device) (input : Input) (quiet : writes input = false) : (step sdk d input).boot.external = d.boot.external := by
  unfold step
  cases input with
  | main reset ready again reads buf =>
    dsimp only
    split_ifs with off
    · have cases := main_cases sdk reset ready again reads buf d
      generalize main sdk reset ready again reads buf d = d' at cases ⊢
      cases cases with
      | stays d' kept => exact kept.external
      | ends again d' kept => exact (finish_external again d').trans kept.external
      | copies size buf d' kept => exact kept.external
    · rfl
  | sector read again =>
    cases d.stage with
    | flash size i dest buf =>
      dsimp only
      unfold flashSector
      split_ifs
      · exact finish_external again d
      · rfl
    | off | bl | app => rfl
  | ttyRx line =>
    dsimp only
    split_ifs
    · exact (ttyRxParser_typed line d).external (of_decide_eq_false quiet)
    · rfl
  | appWrite => exact nomatch quiet
  | timeout | alive | wdogReset =>
    dsimp only
    split_ifs
    all_goals rfl
  | cut kept internal =>
    dsimp only
    unfold cut
    cases d.stage
    all_goals
      dsimp only
      split_ifs
      all_goals rfl

theorem finish_runs {again : Bool} (few : d.bootloop < 5) (ok : mainAppOk d.boot = true) :
    (finish again d).stage = .app ∧ (finish again d).boot = d.boot := by
  have next : (d.bootloop + 1) % 2 ^ 32 = d.bootloop + 1 := Nat.mod_eq_of_lt (by omega)
  have ok : mainAppOk {d with bootloop := d.bootloop + 1}.boot = true := ok
  unfold finish
  rw [next]
  dsimp only
  rw [if_neg (by omega),if_pos ok]
  exact ⟨rfl,rfl⟩

/-- A boot that nothing disturbs, with as many rounds as there are bytes. -/
def undisturbed (reset : ResetType) (again : Bool) (buf : List UInt8) (size : Nat) : List Input :=
  .main reset true again (fun _ => true) buf :: copying (fun _ => true) again (1 + BootloaderReads.sectors size) (size + 1)

theorem undisturbed_main (off : d.stage = .off) (reset : ResetType) (again : Bool) (buf : List UInt8) (size : Nat) :
    Run.run (step sdk) d (undisturbed reset again buf size) = Run.run (step sdk) (main sdk reset true again (fun _ => true) buf d)
      (copying (fun _ => true) again (1 + BootloaderReads.sectors size) (size + 1)) := by
  have first : step sdk d (.main reset true again (fun _ => true) buf) = main sdk reset true again (fun _ => true) buf d := by
    unfold step
    exact if_pos off
  rw [undisturbed,Run.run_cons,first]

theorem undisturbed_boots (runs : sdk.Runs) (installable : Installable sdk d.boot) (off : d.stage = .off) (reset : ResetType)
    (going : ¬ (reset = .userRq ∧ d.gpregBoot = .stayInBoot)) (few : d.bootloop < 5) (again : Bool) (buf : List UInt8) :
    (Run.run (step sdk) d (undisturbed reset again buf (BootloaderReads.headerSize d.boot))).stage = .app ∧
      mainAppOk (Run.run (step sdk) d (undisturbed reset again buf (BootloaderReads.headerSize d.boot))).boot = true := by
  rw [undisturbed_main off]
  by_cases wanted : Wanted reset d
  · have ok := mainFlashApp_installs runs installable buf
    rw [main_flashes runs reset going again buf wanted]
    generalize (BootloaderReads.mainFlashApp sdk (fun _ => true) d.boot true buf).2 = boot at ok ⊢
    obtain ⟨runs,same⟩ := @finish_runs {d with boot, addrHiword := 0, gpregBoot := bootRead reset d.gpregBoot} again few ok
    exact ⟨runs,(congrArg mainAppOk same).trans ok⟩
  · have ok : mainAppOk {d.boot with storageReady := false} = true := Bool.eq_true_of_not_eq_false fun bad => wanted (Or.inr bad)
    have unwanted : ¬ ((reset = .userRq ∧ d.gpregBoot = .flashRq) ∨ mainAppOk {d.boot with storageReady := false} = false) := wanted
    rw [main]
    dsimp only
    rw [if_neg going,if_neg unwanted,copying_stopped (finish_stopped again _)]
    obtain ⟨runs,same⟩ := @finish_runs
      {d with boot := {d.boot with storageReady := false}, addrHiword := 0, gpregBoot := bootRead reset d.gpregBoot} again few ok
    exact ⟨runs,(congrArg mainAppOk same).trans ok⟩

/-- As long as the external flash holds an application, no power failure and no reset in the middle of a copy, however often, leaves
the unit without one: the next boot that is not disturbed runs an application that passes the check. -/
theorem recovers (runs : sdk.Runs) (installable : Installable sdk d.boot) (inputs : List Input) (quiet : ∀ input ∈ inputs, writes input = false)
    (off : (Run.run (step sdk) d inputs).stage = .off) (reset : ResetType)
    (going : ¬ (reset = .userRq ∧ (Run.run (step sdk) d inputs).gpregBoot = .stayInBoot))
    (few : (Run.run (step sdk) d inputs).bootloop < 5) (again : Bool) (buf : List UInt8) :
    (Run.run (step sdk) d (inputs ++ undisturbed reset again buf (BootloaderReads.headerSize d.boot))).stage = .app ∧
      mainAppOk (Run.run (step sdk) d (inputs ++ undisturbed reset again buf (BootloaderReads.headerSize d.boot))).boot = true ∧
      FlashesWhole sdk reset again buf (Run.run (step sdk) d inputs) := by
  have external : (Run.run (step sdk) d inputs).boot.external = d.boot.external := by
    refine Run.run_invariant (step sdk) (fun _ input => writes input = false) (fun d' => d'.boot.external = d.boot.external) ?_ d inputs rfl ?_
    · exact fun d' input same quiet => (step_external d' input quiet).trans same
    · exact Run.admits_of_forall _ _ _ _ fun _ input member => quiet input member
  have size : BootloaderReads.headerSize d.boot = BootloaderReads.headerSize (Run.run (step sdk) d inputs).boot := by
    rw [BootloaderReads.headerSize,BootloaderReads.headerSize,external]
  obtain ⟨running,ok⟩ := undisturbed_boots runs (installable.external external) off reset going few again buf
  rw [Run.run_append,size]
  exact ⟨running,ok,main_flashes runs reset going again buf⟩

theorem unit_headerSize (stage : Stage) : BootloaderReads.headerSize (unit stage).boot = 1536 := image_headerSize _

theorem unit_installable (stage : Stage) : Installable Toolchain.toolChsum (unit stage).boot := by
  refine ⟨image_accepted _,image_bootable _,?_⟩
  rw [unit,image_payloadSize,image_headerSize]
  decide

theorem cut_cleared (internal : Bytes) (d : Device) :
    (cut false internal d).stage = .off ∧ (cut false internal d).gpregBoot = .none ∧ (cut false internal d).bootloop = 0 := by
  unfold cut
  cases d.stage
  all_goals exact ⟨rfl,rfl,rfl⟩

/-- The copy that is asked for has begun, -/
def begun : List Input := [.wdogReset .flashRq,.main .userRq true true (fun _ => true) [],.sector true true]

/-- and the power fails while the second sector is written. -/
def torn : Bytes := fun a => if a < appStartAddr then 0 else 0xFF

theorem recovers_torn :
    (Run.run (step Toolchain.toolChsum) (unit .app) ((begun ++ [.cut false torn]) ++
      undisturbed .powerOn true [] (BootloaderReads.headerSize (unit .app).boot))).stage = .app ∧
    FlashesWhole Toolchain.toolChsum .powerOn true [] (Run.run (step Toolchain.toolChsum) (unit .app) (begun ++ [.cut false torn])) := by
  obtain ⟨off,_,cleared⟩ := cut_cleared torn (Run.run (step Toolchain.toolChsum) (unit .app) begun)
  have cuts : Run.run (step Toolchain.toolChsum) (unit .app) (begun ++ [.cut false torn]) =
      cut false torn (Run.run (step Toolchain.toolChsum) (unit .app) begun) := Run.run_append _ _ _ _
  obtain ⟨running,_,flashes⟩ := @recovers Toolchain.toolChsum (unit .app) (Toolchain.chsum32_runs rfl) (unit_installable .app)
    (begun ++ [.cut false torn]) (by decide) (by rw [cuts,off]) .powerOn (fun stay => nomatch stay.1) (by rw [cuts,cleared]; decide) true []
  exact ⟨running,flashes⟩

end Recovery

end JcaFirmware.Boot
