import Mathlib.Logic.Function.Basic
import JcaFirmware.Event

/-! Event buffer (`app/event_buf.c`): records in an array, linked by indices.
Array accesses and `OS_ASSERT` are explicit: an operation either returns or
names the access or the assertion it fails at. -/
namespace JcaFirmware.EventBuf

inductive Fault
  | bounds (index : Nat)
  | assertion (message : String)
deriving DecidableEq, Repr

def flagUsed : BitVec 4 := 1
def flagActive : BitVec 4 := 2
def flagProcessing : BitVec 4 := 4
def flagZombie : BitVec 4 := 8

def indexNil : Nat := 0xFF
def unlimited : Nat := 0xFF
def userNone : Nat := 0xFFFF

def prioLo : Nat := 0
def prioStd : Nat := 1
def prioHi : Nat := 2

structure Item where
  event : Event
  nextIndex : Nat
  prevIndex : Nat
  prio : Nat
  flag : BitVec 4
  user : Nat
  cnt : Nat
deriving DecidableEq, Repr

structure Buf where
  size : Nat
  startIndex : Nat
  lastIndex : Nat
  testIndex : Nat
  items : Nat → Item

def osAssert (condition : Prop) [Decidable condition] (message : String) : Except Fault Unit :=
  if condition then .ok () else .error (.assertion message)

def Buf.item (b : Buf) (i : Nat) : Except Fault Item :=
  if i < b.size then .ok (b.items i) else .error (.bounds i)

def Buf.set (b : Buf) (i : Nat) (it : Item) : Buf := {b with items := Function.update b.items i it}

def Buf.put (b : Buf) (i : Nat) (it : Item) : Except Fault Buf :=
  if i < b.size then .ok (b.set i it) else .error (.bounds i)

/-- `event_buf_init` over an array `items` of `size` slots. -/
def init (items : Nat → Item) (size : Nat) : Buf where
  size := size
  startIndex := 0
  lastIndex := indexNil
  testIndex := 0xFF
  items := fun i =>
    if i < size then {items i with flag := 0, nextIndex := indexNil, prevIndex := indexNil} else items i

-- The rounds are the iterations left of `for (i=0; i<(buf->size); i++)`.
def bufFindFree : Nat → Buf → Except Fault (Nat × Buf)
  | 0, b => .ok (indexNil,b)
  | rounds + 1, b => do
    let test := (b.testIndex + 1) % 256
    let test := if b.size ≤ test then 0 else test
    let b := {b with testIndex := test}
    let it ← b.item test
    if it.flag = 0 then .ok (test,b) else bufFindFree rounds b

def itemActive (it : Item) : Bool :=
  it.flag &&& (flagUsed ||| flagActive) == (flagUsed ||| flagActive)

def itemInCommunication (it : Item) : Bool :=
  it.flag &&& (flagProcessing ||| flagZombie) != 0

def deleteItem (b : Buf) (index : Nat) : Except Fault Buf := do
  osAssert (index < b.size) "_delete_item() index>=(buf->size)"
  let it ← b.item index
  if it.flag = 0 then .ok b
  else do
    let b ← b.put index {it with flag := 0}
    if index ≠ b.startIndex then do
      osAssert (it.prevIndex < b.size) "_delete_item() prev_index>=(buf->size)"
      let before ← b.item it.prevIndex
      let b ← b.put it.prevIndex {before with nextIndex := it.nextIndex}
      if b.lastIndex = index then do
        osAssert (it.nextIndex = indexNil) "_delete_item() next_index != EVENT_BUF_INDEX_NIL"
        .ok {b with lastIndex := it.prevIndex}
      else do
        osAssert (it.nextIndex < b.size) "_delete_item() next_index >=(buf->size)"
        let after ← b.item it.nextIndex
        b.put it.nextIndex {after with prevIndex := it.prevIndex}
    else if index ≠ b.lastIndex then do
      let b := {b with startIndex := it.nextIndex}
      let head ← b.item b.startIndex
      osAssert (head.prevIndex = index) "_delete_item() prev_index != index"
      b.put b.startIndex {head with prevIndex := indexNil}
    else .ok {b with lastIndex := indexNil}

/-- Outcome of a loop along the chain: `buf_index` at its end, the slots it
looked at, and whether it ran to the end instead of returning from within. -/
structure Walked (σ : Type) where
  buf : Buf
  acc : σ
  index : Nat
  visited : List Nat
  complete : Bool

/-- The loop all traversals share: at most `size` rounds, from `start_index`
along `next_index` until it is NIL. `advance` is what is asserted of the next
index; `body` says whether to leave the loop. -/
def traverse {σ : Type} (body : Nat → Buf → σ → Except Fault (Buf × σ × Bool))
    (advance : Buf → Nat → Except Fault Unit) :
    Nat → Nat → List Nat → Buf → σ → Except Fault (Walked σ)
  | 0, index, visited, b, s => .ok ⟨b,s,index,visited,true⟩
  | rounds + 1, index, visited, b, s => do
    let (b,s,leave) ← body index b s
    if leave then .ok ⟨b,s,index,visited ++ [index],false⟩
    else do
      let it ← b.item index
      if it.nextIndex = indexNil then .ok ⟨b,s,index,visited ++ [index],true⟩
      else do
        advance b it.nextIndex
        traverse body advance rounds it.nextIndex (visited ++ [index]) b s

def walkBuf {σ : Type} (body : Nat → Buf → σ → Except Fault (Buf × σ × Bool))
    (advance : Buf → Nat → Except Fault Unit) (b : Buf) (s : σ) : Except Fault (Walked σ) :=
  traverse body advance b.size b.startIndex [] b s

def unchecked (_ : Buf) (_ : Nat) : Except Fault Unit := .ok ()

def inRange (message : String) (b : Buf) (index : Nat) : Except Fault Unit :=
  osAssert (index < b.size) message

/-- Search result of `_buf_replace_prio`: the lowest priority met so far, and
the slot the function returns when it leaves a loop early. -/
structure Search where
  lowestPrio : Nat
  found : Option Nat
deriving DecidableEq, Repr

def lowestPrioBody (index : Nat) (b : Buf) (s : Search) : Except Fault (Buf × Search × Bool) := do
  let it ← b.item index
  if it.flag = 0 then .ok (b,{s with found := some index},true)
  else .ok (b,{s with lowestPrio := if it.prio < s.lowestPrio then it.prio else s.lowestPrio},false)

def oldestPrioBody (index : Nat) (b : Buf) (s : Search) : Except Fault (Buf × Search × Bool) := do
  let it ← b.item index
  if it.prio = s.lowestPrio then .ok (b,{s with found := some index},true) else .ok (b,s,false)

def bufReplacePrio (b : Buf) (prio : Nat) : Except Fault Nat := do
  let lowest ← walkBuf lowestPrioBody unchecked b ⟨prioHi,none⟩
  match lowest.acc.found with
  | some index => .ok index
  | none =>
    if prio < lowest.acc.lowestPrio then .ok indexNil
    else if lowest.acc.lowestPrio = prio then .ok b.startIndex
    else do
      let oldest ← walkBuf oldestPrioBody unchecked b lowest.acc
      .ok (oldest.acc.found.getD indexNil)

def emptyBody (index : Nat) (b : Buf) (s : Bool) : Except Fault (Buf × Bool × Bool) := do
  let it ← b.item index
  if itemActive it ∧ itemInCommunication it = false then .ok (b,false,true) else .ok (b,s,false)

def emptyWalk (b : Buf) : Except Fault (Walked Bool) :=
  walkBuf emptyBody (inRange "user_buf_empty() buf_index>=(buf->size)") b true

def empty (b : Buf) : Except Fault Bool := do
  let walked ← emptyWalk b
  .ok walked.acc

/-- Where `event_buf_add_event` writes: a slot, or nowhere when the buffer is
full of records of higher priority. The slot returned is free. -/
def writeIndex (b : Buf) (prio : Nat) : Except Fault (Nat × Buf) := do
  if b.lastIndex = indexNil then do
    osAssert (b.startIndex ≠ indexNil) "user_buf_add_event(), buf->start_index"
    .ok (b.startIndex,b)
  else do
    let (free,b) ← bufFindFree b.size b
    if free ≠ indexNil then .ok (free,b)
    else do
      let replaced ← bufReplacePrio b prio
      if replaced ≠ indexNil then do
        let b ← deleteItem b replaced
        .ok (replaced,b)
      else .ok (indexNil,b)

def storeLast (b : Buf) (index : Nat) (it : Item) : Except Fault Buf := do
  let b ← b.put index {it with nextIndex := indexNil, prevIndex := 0}
  let b ← if b.lastIndex ≠ indexNil then do
      let before ← b.item b.lastIndex
      b.put b.lastIndex {before with nextIndex := index}
    else .ok b
  let stored ← b.item index
  let b ← b.put index {stored with prevIndex := b.lastIndex}
  let b := {b with lastIndex := index}
  let stored ← b.item index
  osAssert (stored.prevIndex ≠ index) "user_buf prev_index == wr_index"
  osAssert (stored.nextIndex ≠ index) "user_buf next_index == wr_index"
  .ok b

/-- `event_buf_add_event`; a NULL event is `none`. -/
def addEvent (b : Buf) (event : Option Event) (prio user : Nat) : Except Fault (Bool × Buf) :=
  match event with
  | none => .ok (false,b)
  | some event =>
    if user = userNone then .ok (false,b)
    else do
      let (index,b) ← writeIndex b prio
      if index = indexNil then .ok (false,b)
      else do
        let b ← storeLast b index
          ⟨event,indexNil,0,prio % 16,flagUsed ||| flagActive,user,0⟩
        .ok (true,b)

def restoreBody (retryLimit : Nat) (index : Nat) (b : Buf) (result : Bool) :
    Except Fault (Buf × Bool × Bool) := do
  let it ← b.item index
  if itemInCommunication it then do
    let it := {it with flag := it.flag &&& ~~~(flagProcessing ||| flagZombie)}
    let b ← b.put index it
    if itemActive it ∧ retryLimit ≠ unlimited then do
      let it := {it with cnt := (it.cnt + 1) % 256}
      let b ← b.put index it
      if retryLimit ≤ it.cnt then do
        let b ← deleteItem b index
        .ok (b,false,false)
      else .ok (b,result,false)
    else .ok (b,result,false)
  else .ok (b,result,false)

def restoreWalk (b : Buf) (retryLimit : Nat) : Except Fault (Walked Bool) :=
  walkBuf (restoreBody retryLimit) unchecked b true

def restoreEvents (b : Buf) (retryLimit : Nat) : Except Fault (Bool × Buf) := do
  let walked ← restoreWalk b retryLimit
  .ok (walked.acc,walked.buf)

def doneBody (delivered : Bool) (index : Nat) (b : Buf) (s : Unit) : Except Fault (Buf × Unit × Bool) := do
  let it ← b.item index
  if it.flag &&& flagProcessing ≠ 0 then do
    let it := {it with flag := it.flag &&& ~~~flagProcessing}
    let b ← b.put index it
    if itemActive it then
      if delivered then do
        let b ← deleteItem b index
        .ok (b,s,false)
      else do
        let b ← b.put index {it with flag := it.flag ||| flagZombie}
        .ok (b,s,false)
    else .ok (b,s,false)
  else .ok (b,s,false)

def doneWalk (b : Buf) (delivered : Bool) : Except Fault (Walked Unit) :=
  walkBuf (doneBody delivered) unchecked b ()

def doneEvents (b : Buf) (delivered : Bool) : Except Fault Buf := do
  let walked ← doneWalk b delivered
  .ok walked.buf

/-- What `event_buf_get_event` reads and writes through its pointers; a NULL
`event` or `prio` is `none`. -/
structure Request where
  event : Option Event
  user : Nat
  prio : Option Nat
deriving DecidableEq, Repr

-- What is written back for an active record, whether or not its user then matches.
def Request.fill (q : Request) (event : Event) (prio user : Nat) : Request where
  event := q.event.map fun _ => event
  user := if q.user = userNone then user else q.user
  prio := q.prio.map fun _ => prio

def getBody (index : Nat) (b : Buf) (q : Request) : Except Fault (Buf × Request × Bool) := do
  let it ← b.item index
  if itemActive it ∧ itemInCommunication it = false then
    let q := q.fill it.event it.prio it.user
    if q.user = it.user then do
      let b ← b.put index {it with flag := it.flag ||| flagProcessing}
      .ok (b,q,true)
    else .ok (b,q,false)
  else .ok (b,q,false)

def getWalk (b : Buf) (q : Request) : Except Fault (Walked Request) :=
  walkBuf getBody unchecked b q

/-- `event_buf_get_event`; a NULL `user` is `none`. -/
def getEvent (b : Buf) (event : Option Event) (user : Option Nat) (prio : Option Nat) :
    Except Fault (Bool × Request × Buf) :=
  match user with
  | none => .ok (false,⟨event,userNone,prio⟩,b)
  | some user => do
    let walked ← getWalk b ⟨event,user,prio⟩
    .ok (!walked.complete,walked.acc,walked.buf)

-- The callback may answer by everything it has been called with before.
def forEachBody (pfunc : List Event → Event → Bool) (index : Nat) (b : Buf) (calls : List Event) :
    Except Fault (Buf × List Event × Bool) := do
  let it ← b.item index
  if it.flag &&& flagUsed ≠ 0 then
    if pfunc calls it.event = false then do
      let b ← deleteItem b index
      .ok (b,calls ++ [it.event],false)
    else .ok (b,calls ++ [it.event],false)
  else .ok (b,calls,false)

def forEachWalk (b : Buf) (pfunc : List Event → Event → Bool) : Except Fault (Walked (List Event)) :=
  walkBuf (forEachBody pfunc) (inRange "user_buf_for_each() buf_index>=(buf->size)") b []

def forEach (b : Buf) (pfunc : List Event → Event → Bool) : Except Fault Buf := do
  let walked ← forEachWalk b pfunc
  .ok walked.buf

def infoBody (index : Nat) (b : Buf) (s : Unit) : Except Fault (Buf × Unit × Bool) := do
  let _ ← b.item index
  .ok (b,s,false)

def infoWalk (b : Buf) : Except Fault (Walked Unit) :=
  walkBuf infoBody unchecked b ()

-- The second loop of `event_buf_info` runs over the slots and asserts the index the first one ended at.
def infoSlots (b : Buf) (index : Nat) : Nat → Except Fault Unit
  | 0 => .ok ()
  | rounds + 1 => do
    osAssert (index < b.size) "user_buf_info() buf_index>=(buf->size)"
    let _ ← b.item (b.size - (rounds + 1))
    infoSlots b index rounds

def info (b : Buf) : Except Fault Unit := do
  let walked ← infoWalk b
  infoSlots b walked.index b.size

end JcaFirmware.EventBuf
