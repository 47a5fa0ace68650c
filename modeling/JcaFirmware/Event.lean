import Mathlib.Algebra.Group.Nat.Defs
import Mathlib.Logic.Function.Basic

/-! Events (`app/event.h`, `event_valid` of `app/event.c`). Identifiers and
sources are kept as the bytes of `event_t`: a record read back from flash may
hold any value, which is what `valid` is there to detect. -/
namespace JcaFirmware

/-- `rtc_t`, six bytes: the fields the firmware reads. -/
structure Rtc where
  year : UInt8
  month : UInt8
  day : UInt8
  hour : UInt8
  minute : UInt8
  second : UInt8
deriving DecidableEq, Repr

inductive EventId
  | bootUp | shutDown | powerFail | powerRecovery | loBatt | loBattRecovery | set | unset | alarm
  | alarmCancel | alarmTimeout | fault | faultRecovery | jammingAct | jammingDact | tracking
deriving DecidableEq, Repr

inductive EventSource
  | unknown | unit | key | door | input1 | input2 | input3 | shock | lock | cell | battery | admin
  | user1 | user2 | user3 | user4
deriving DecidableEq, Repr

def EventId.code (id : EventId) : UInt8 := UInt8.ofNat id.ctorIdx

def EventSource.code (source : EventSource) : UInt8 := UInt8.ofNat source.ctorIdx

def eventIdSize : UInt8 := 16
def eventSourceSize : UInt8 := 16

theorem EventId.code_lt (id : EventId) : id.code < eventIdSize := by
  cases id <;> decide

theorem EventId.code_inj {id other : EventId} (same : id.code = other.code) : id = other := by
  cases id <;> cases other <;> first | rfl | exact absurd same (by decide)

theorem EventSource.code_lt (source : EventSource) : source.code < eventSourceSize := by
  cases source <;> decide

/-- `event_t`; `cnt` is a 32-bit counter. -/
structure Event where
  cnt : Nat
  time : Rtc
  id : UInt8
  source : UInt8
deriving DecidableEq, Repr

namespace Event

/-- What a read of an erased slot fills an `event_t` with. -/
def erased : Event :=
  ⟨0xFFFFFFFF,⟨0xFF,0xFF,0xFF,0xFF,0xFF,0xFF⟩,0xFF,0xFF⟩

/-- `event_valid`, with `rtc_valid` of the SDK as a parameter. -/
def valid (rtcValid : Rtc → Bool) (e : Event) : Bool :=
  if !rtcValid e.time then false
  else if eventIdSize ≤ e.id ∨ eventSourceSize ≤ e.source then false
  else true

theorem erased_invalid (rtcValid : Rtc → Bool) : erased.valid rtcValid = false := by
  have outside : eventIdSize ≤ erased.id ∨ eventSourceSize ≤ erased.source := by decide
  simp only [valid,outside,if_true,ite_self]

end Event

end JcaFirmware
