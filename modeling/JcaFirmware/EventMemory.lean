import JcaFirmware.Event
import JcaFirmware.Foundation.Ring

/-! The event log in external flash (`app/event_memory.c` over the event part of
`app/storage.c`): 8192 slots of 64 bytes, written round and round. The flash is
a memory of events by byte offset; `rtc_valid` of the SDK is a parameter. -/
namespace JcaFirmware.EventMemory
open Foundation

def storageEventMemSpace : Nat := 512 * 1024
def eventMemSize : Nat := 64
def sizeofEvent : Nat := 12

def eventSlots : Nat := 8192

example : storageEventMemSpace = eventMemSize * eventSlots := by decide

abbrev Flash := Nat → Event

def storageReadEvent (flash : Flash) (offset : Nat) : Option Event :=
  if storageEventMemSpace < offset + sizeofEvent then none else some (flash offset)

def storageWriteEvent (flash : Flash) (offset : Nat) (e : Event) : Bool × Flash :=
  if storageEventMemSpace < offset + sizeofEvent then (false,flash)
  else (true,Function.update flash offset e)

def ptrInc (ptr : Nat) : Nat :=
  let ptr := ptr + eventMemSize
  if storageEventMemSpace - eventMemSize < ptr then 0 else ptr

def ptrDec (ptr : Nat) : Nat :=
  if eventMemSize ≤ ptr then ptr - eventMemSize else storageEventMemSpace - eventMemSize

structure Memory where
  ptr : Nat
  flash : Flash

/-- The result of `event_memory_init` with the pointer and the counter it leaves. -/
structure Recovery where
  ok : Bool
  ptr : Nat
  cnt : Nat
deriving DecidableEq, Repr

-- The rounds are the iterations left of `for (i=0; i<(SPACE - SIZE); i+=SIZE)`.
def initLoop (rtcValid : Rtc → Bool) (flash : Flash) (before : Recovery) : Nat → Nat → Nat → Nat → Recovery
  | 0, _, cntMax, ptrMax => ⟨true,ptrInc ptrMax,cntMax⟩
  | rounds + 1, i, cntMax, ptrMax =>
    match storageReadEvent flash i with
    | none => {before with ok := false}
    | some e =>
      if e.valid rtcValid = false then ⟨true,i,cntMax⟩
      else if cntMax < e.cnt then initLoop rtcValid flash before rounds (i + eventMemSize) e.cnt i
      else initLoop rtcValid flash before rounds (i + eventMemSize) cntMax ptrMax

def initRounds : Nat := (storageEventMemSpace - eventMemSize) / eventMemSize

/-- `event_memory_init` after a restart with the static pointer and counter at zero. -/
def eventMemoryInit (rtcValid : Rtc → Bool) (flash : Flash) : Recovery :=
  initLoop rtcValid flash ⟨true,0,0⟩ initRounds 0 0 0

def eventMemoryStore (m : Memory) (e : Event) : Except String (Bool × Memory) :=
  if storageEventMemSpace - eventMemSize < m.ptr then .error "ptr mismatch"
  else
    let (ok,flash) := storageWriteEvent m.flash m.ptr e
    .ok (ok,⟨ptrInc m.ptr,flash⟩)

def readLoop (rtcValid : Rtc → Bool) (flash : Flash) : Nat → Nat → Nat → Option Event
  | 0, _, _ => none
  | rounds + 1, ptr, backIndex =>
    let ptr := ptrDec ptr
    match backIndex with
    | 0 =>
      match storageReadEvent flash ptr with
      | some e => if e.valid rtcValid then some e else none
      | none => none
    | backIndex + 1 => readLoop rtcValid flash rounds ptr backIndex

/-- `event_memory_read`: the event, where the function answers true. -/
def eventMemoryRead (rtcValid : Rtc → Bool) (m : Memory) (backIndex : Nat) : Option Event :=
  readLoop rtcValid m.flash initRounds m.ptr backIndex

def erasedMemory : Memory := ⟨0,fun _ => Event.erased⟩

def storeAll (m : Memory) (events : List Event) : Except String Memory :=
  events.foldlM (fun m e => do
    let (_,m) ← eventMemoryStore m e
    .ok m) m

def slotOf (flash : Flash) (j : Nat) : Event := flash (eventMemSize * j)

section Slots

theorem ptrInc_slot {j : Nat} (inside : j < eventSlots) :
    ptrInc (eventMemSize * j) = eventMemSize * Ring.next eventSlots j := by
  unfold ptrInc Ring.next
  by_cases closed : j + 1 = eventSlots
  · have wraps : storageEventMemSpace - eventMemSize < eventMemSize * j + eventMemSize := by
      simp only [storageEventMemSpace,eventMemSize,eventSlots] at closed ⊢
      omega
    rw [if_pos wraps,if_pos closed,Nat.mul_zero]
  · have stays : ¬ storageEventMemSpace - eventMemSize < eventMemSize * j + eventMemSize := by
      simp only [storageEventMemSpace,eventMemSize,eventSlots] at inside closed ⊢
      omega
    rw [if_neg stays,if_neg closed,Nat.mul_succ]

theorem ptrDec_next (j : Nat) :
    ptrDec (eventMemSize * Ring.next eventSlots j) = eventMemSize * j := by
  unfold ptrDec Ring.next
  by_cases closed : j + 1 = eventSlots
  · have wraps : ¬ eventMemSize ≤ eventMemSize * 0 := by decide
    rw [if_pos closed,if_neg wraps]
    simp only [storageEventMemSpace,eventMemSize,eventSlots] at closed ⊢
    omega
  · have stays : eventMemSize ≤ eventMemSize * (j + 1) := Nat.le_mul_of_pos_right _ (Nat.succ_pos j)
    rw [if_neg closed,if_pos stays,Nat.mul_succ,Nat.add_sub_cancel]

theorem read_slot (flash : Flash) {j : Nat} (inside : j < eventSlots) :
    storageReadEvent flash (eventMemSize * j) = some (slotOf flash j) := by
  unfold eventSlots at inside
  have fits : ¬ storageEventMemSpace < eventMemSize * j + sizeofEvent := by
    simp only [storageEventMemSpace,eventMemSize,sizeofEvent]
    omega
  exact if_neg fits

theorem store_slot (flash : Flash) {j : Nat} (inside : j < eventSlots) (e : Event) :
    eventMemoryStore ⟨eventMemSize * j,flash⟩ e =
      .ok (true,⟨eventMemSize * Ring.next eventSlots j,Function.update flash (eventMemSize * j) e⟩) := by
  have next := ptrInc_slot inside
  unfold eventSlots at inside
  have within : ¬ storageEventMemSpace - eventMemSize < eventMemSize * j := by
    simp only [storageEventMemSpace,eventMemSize]
    omega
  have fits : ¬ storageEventMemSpace < eventMemSize * j + sizeofEvent := by
    simp only [storageEventMemSpace,eventMemSize,sizeofEvent]
    omega
  simp only [eventMemoryStore,if_neg within,storageWriteEvent,if_neg fits,next]

theorem slotOf_update (flash : Flash) (j : Nat) (e : Event) :
    slotOf (Function.update flash (eventMemSize * j) e) = Function.update (slotOf flash) j e := by
  have apart : Function.Injective (eventMemSize * ·) := fun _ _ same => Nat.eq_of_mul_eq_mul_left (by decide) same
  exact Function.update_comp_eq_of_injective flash apart j e

end Slots

/-- The log after `events` have been stored into an erased area. -/
structure Holds (m : Memory) (events : List Event) : Prop where
  ptr : m.ptr = eventMemSize * (events.length % eventSlots)
  ring : Ring.Holds eventSlots (fun _ => Event.erased) (slotOf m.flash) (events.length % eventSlots) events

theorem erased_holds : Holds erasedMemory [] := ⟨rfl,Ring.Holds.start eventSlots _⟩

theorem Holds.store {m : Memory} {events : List Event} (holds : Holds m events) (e : Event) :
    ∃ m', eventMemoryStore m e = .ok (true,m') ∧ Holds m' (events ++ [e]) := by
  have pos : 0 < eventSlots := by decide
  have inside := Nat.mod_lt events.length pos
  have moved : Ring.next eventSlots (events.length % eventSlots) = (events ++ [e]).length % eventSlots := by
    rw [Ring.next_mod _ _ pos,List.length_append,List.length_singleton]
  have ring := holds.ring.push pos e
  rw [← slotOf_update,moved] at ring
  refine ⟨⟨eventMemSize * ((events ++ [e]).length % eventSlots),
    Function.update m.flash (eventMemSize * (events.length % eventSlots)) e⟩,?_,⟨rfl,ring⟩⟩
  rw [← moved,← store_slot m.flash inside,← holds.ptr]

theorem Holds.storeAll {m : Memory} {before : List Event} (holds : Holds m before) (events : List Event) :
    ∃ m', storeAll m events = .ok m' ∧ Holds m' (before ++ events) := by
  induction events generalizing m before with
  | nil => exact ⟨m,rfl,by simpa using holds⟩
  | cons e events ih =>
    obtain ⟨m₁,stored,holds₁⟩ := holds.store e
    obtain ⟨m₂,rest,holds₂⟩ := ih holds₁
    refine ⟨m₂,?_,by simpa using holds₂⟩
    rw [EventMemory.storeAll,List.foldlM_cons,stored]
    exact rest

/-- The largest counter among the first slots, zero at least, and its slot. -/
def best (slots : Nat → Event) : Nat → Nat × Nat
  | 0 => (0,0)
  | j + 1 => if (best slots j).1 < (slots j).cnt then ((slots j).cnt,j) else best slots j

theorem best_lt {slots : Nat → Event} {c : Nat} (n : Nat) (pos : 0 < c)
    (smaller : ∀ i < n, (slots i).cnt < c) : (best slots n).1 < c := by
  induction n with
  | zero => exact pos
  | succ n ih =>
    unfold best
    split
    · exact smaller n (Nat.lt_succ_self n)
    · exact ih fun i bound => smaller i (Nat.lt_succ_of_lt bound)

theorem best_eq {slots : Nat → Event} {t : Nat} (n : Nat) (inside : t < n)
    (largest : ∀ i < n, i ≠ t → (slots i).cnt < (slots t).cnt) : best slots n = ((slots t).cnt,t) := by
  induction n with
  | zero => exact absurd inside (Nat.not_lt_zero t)
  | succ n ih =>
    rcases Nat.lt_succ_iff_lt_or_eq.mp inside with before | rfl
    · have smaller := largest n (Nat.lt_succ_self n) (Nat.ne_of_gt before)
      have known := ih before fun i bound other => largest i (Nat.lt_succ_of_lt bound) other
      rw [best,known,if_neg (Nat.lt_asymm smaller)]
    · cases t with
      | zero =>
        unfold best best
        by_cases counted : 0 < (slots 0).cnt
        · rw [if_pos counted]
        · rw [if_neg counted,Nat.eq_zero_of_not_pos counted]
      | succ t =>
        have pos := Nat.zero_lt_of_lt (largest 0 (Nat.succ_pos _) (Nat.succ_ne_zero t).symm)
        rw [best,if_pos]
        exact best_lt _ pos fun i bound => largest i (Nat.lt_succ_of_lt bound) (Nat.ne_of_lt bound)

section Init

variable (rtcValid : Rtc → Bool) {flash : Flash}

theorem initLoop_pass (before : Recovery) (rounds j : Nat) (inside : j < eventSlots)
    (valid : (slotOf flash j).valid rtcValid = true) :
    initLoop rtcValid flash before (rounds + 1) (eventMemSize * j) (best (slotOf flash) j).1
        (eventMemSize * (best (slotOf flash) j).2) =
      initLoop rtcValid flash before rounds (eventMemSize * (j + 1)) (best (slotOf flash) (j + 1)).1
        (eventMemSize * (best (slotOf flash) (j + 1)).2) := by
  rw [initLoop,read_slot flash inside,best]
  simp only [valid,Bool.true_eq_false,if_false]
  split <;> rfl

theorem init_passes (k : Nat) (enough : k ≤ initRounds)
    (valid : ∀ j < k, (slotOf flash j).valid rtcValid = true) :
    eventMemoryInit rtcValid flash = initLoop rtcValid flash ⟨true,0,0⟩ (initRounds - k) (eventMemSize * k)
      (best (slotOf flash) k).1 (eventMemSize * (best (slotOf flash) k).2) := by
  induction k with
  | zero => rfl
  | succ k ih =>
    have rounds : initRounds - k = initRounds - (k + 1) + 1 := by omega
    have inside : k < eventSlots := Nat.lt_of_lt_of_le (Nat.lt_of_succ_le enough) (by decide)
    rw [ih (Nat.le_of_succ_le enough) fun j bound => valid j (Nat.lt_succ_of_lt bound),rounds,
      initLoop_pass _ _ _ _ inside (valid k (Nat.lt_succ_self k))]

theorem init_stops {f : Nat} (inside : f < initRounds) (invalid : (slotOf flash f).valid rtcValid = false)
    (before : ∀ j < f, (slotOf flash j).valid rtcValid = true) :
    eventMemoryInit rtcValid flash = ⟨true,eventMemSize * f,(best (slotOf flash) f).1⟩ := by
  obtain ⟨rounds,left⟩ : ∃ rounds, initRounds - f = rounds + 1 := ⟨initRounds - f - 1,by omega⟩
  rw [init_passes rtcValid f (Nat.le_of_lt inside) before,left,initLoop,
    read_slot flash (Nat.lt_of_lt_of_le inside (by decide))]
  simp only [invalid,if_true]

/-- Where all slots but the last hold valid events, the write position is taken
to follow the largest counter among these. -/
theorem init_scans (valid : ∀ j < initRounds, (slotOf flash j).valid rtcValid = true) :
    eventMemoryInit rtcValid flash =
      ⟨true,ptrInc (eventMemSize * (best (slotOf flash) initRounds).2),(best (slotOf flash) initRounds).1⟩ := by
  rw [init_passes rtcValid initRounds (Nat.le_refl _) valid,Nat.sub_self,initLoop]

end Init

theorem initRounds_succ : initRounds + 1 = eventSlots := by decide

theorem whole_round {n : Nat} (full : eventSlots ≤ n) : eventSlots + n % eventSlots ≤ n := by
  have split := Nat.div_add_mod n eventSlots
  have rounds : 1 ≤ n / eventSlots := (Nat.one_le_div_iff (by decide)).mpr full
  have first : eventSlots * 1 ≤ eventSlots * (n / eventSlots) := Nat.mul_le_mul_left _ rounds
  omega

theorem newer_slot {n j : Nat} (inside : j < n % eventSlots) : (n - n % eventSlots + j) % eventSlots = j := by
  have limit := Nat.mod_lt n (show 0 < eventSlots by decide)
  have split := Nat.div_add_mod n eventSlots
  have round : n - n % eventSlots = eventSlots * (n / eventSlots) := by omega
  rw [round,Nat.mul_add_mod,Nat.mod_eq_of_lt (by omega)]

theorem older_slot {n j : Nat} (inside : j < eventSlots) :
    (n - n % eventSlots - eventSlots + j) % eventSlots = j := by
  have split := Nat.div_add_mod n eventSlots
  have round : n - n % eventSlots - eventSlots = eventSlots * (n / eventSlots - 1) := by
    rw [Nat.mul_sub]
    omega
  rw [round,Nat.mul_add_mod,Nat.mod_eq_of_lt inside]

/-- Which event a slot holds: those of the current round, then those of the one before. -/
theorem Holds.newer {m : Memory} {events : List Event} (holds : Holds m events) {j : Nat}
    (inside : j < events.length % eventSlots) :
    ∃ bound : events.length - events.length % eventSlots + j < events.length,
      slotOf m.flash j = events[events.length - events.length % eventSlots + j] := by
  have limit := Nat.mod_lt events.length (show 0 < eventSlots by decide)
  have least := Nat.mod_le events.length eventSlots
  have bound : events.length - events.length % eventSlots + j < events.length := by omega
  have live := holds.ring.live _ bound (by omega)
  rw [newer_slot inside] at live
  exact ⟨bound,live⟩

theorem Holds.older {m : Memory} {events : List Event} (holds : Holds m events) {j : Nat}
    (full : eventSlots ≤ events.length) (outside : events.length % eventSlots ≤ j) (inside : j < eventSlots) :
    ∃ bound : events.length - events.length % eventSlots - eventSlots + j < events.length,
      slotOf m.flash j = events[events.length - events.length % eventSlots - eventSlots + j] := by
  have round := whole_round full
  have bound : events.length - events.length % eventSlots - eventSlots + j < events.length := by omega
  have live := holds.ring.live _ bound (by omega)
  rw [older_slot inside] at live
  exact ⟨bound,live⟩

theorem Holds.oldest {m : Memory} {events : List Event} (holds : Holds m events)
    (full : eventSlots ≤ events.length) : ∃ bound : events.length - eventSlots < events.length,
      slotOf m.flash (events.length % eventSlots) = events[events.length - eventSlots] := by
  have round := whole_round full
  obtain ⟨bound,same⟩ := holds.older full (Nat.le_refl _) (Nat.mod_lt _ (by decide))
  have first : events.length - events.length % eventSlots - eventSlots + events.length % eventSlots =
      events.length - eventSlots := by omega
  simp only [first] at bound same
  exact ⟨bound,same⟩

theorem Holds.written {m : Memory} {events : List Event} (holds : Holds m events) {j : Nat}
    (inside : j < eventSlots) (reached : j < events.length) : slotOf m.flash j ∈ events := by
  by_cases current : j < events.length % eventSlots
  · obtain ⟨bound,same⟩ := holds.newer current
    rw [same]
    exact List.getElem_mem bound
  · have full : eventSlots ≤ events.length := by
      by_contra short
      rw [Nat.mod_eq_of_lt (by omega)] at current
      exact current reached
    obtain ⟨bound,same⟩ := holds.older full (Nat.le_of_not_lt current) inside
    rw [same]
    exact List.getElem_mem bound

section Newest

variable {m : Memory} {events : List Event}

theorem cnt_increases (increasing : events.Pairwise fun a b => a.cnt < b.cnt) {i k : Nat} (before : i < k)
    (bound : k < events.length) : events[i].cnt < events[k].cnt :=
  List.pairwise_iff_getElem.mp increasing i k (Nat.lt_trans before bound) bound before

theorem Holds.best_newest (holds : Holds m events) (increasing : events.Pairwise fun a b => a.cnt < b.cnt)
    (partly : 0 < events.length % eventSlots) (k : Nat) (covers : events.length % eventSlots ≤ k)
    (inside : k ≤ eventSlots) (reached : k ≤ events.length) :
    ∃ bound : events.length - 1 < events.length,
      best (slotOf m.flash) k = (events[events.length - 1].cnt,events.length % eventSlots - 1) := by
  have least := Nat.mod_le events.length eventSlots
  obtain ⟨bound,newest⟩ := holds.newer (Nat.sub_one_lt (Nat.ne_of_gt partly))
  have last : events.length - events.length % eventSlots + (events.length % eventSlots - 1) = events.length - 1 := by
    omega
  simp only [last] at newest
  refine ⟨by omega,?_⟩
  rw [← newest]
  apply best_eq k (by omega)
  intro i below other
  rw [newest]
  by_cases current : i < events.length % eventSlots
  · obtain ⟨_,same⟩ := holds.newer current
    rw [same]
    exact cnt_increases increasing (by omega) (by omega)
  · have full : eventSlots ≤ events.length := by
      by_contra short
      rw [Nat.mod_eq_of_lt (by omega)] at current
      omega
    obtain ⟨_,same⟩ := holds.older full (Nat.le_of_not_lt current) (by omega)
    rw [same]
    have round := whole_round full
    exact cnt_increases increasing (by omega) (by omega)

/-- Where the newest event stands in the last slot, which the scan leaves out,
the event before it is taken for the newest. -/
theorem Holds.best_missed (holds : Holds m events) (increasing : events.Pairwise fun a b => a.cnt < b.cnt)
    (full : eventSlots ≤ events.length) (closed : events.length % eventSlots = 0) :
    (best (slotOf m.flash) initRounds).2 = eventSlots - 2 := by
  have at_ {i : Nat} (inside : i < eventSlots) : ∃ bound : events.length - eventSlots + i < events.length,
      slotOf m.flash i = events[events.length - eventSlots + i] := by
    have old := holds.older full (by omega) inside
    simpa only [closed,Nat.sub_zero] using old
  have rounds : initRounds = eventSlots - 1 := by decide
  have size : eventSlots = 8192 := rfl
  obtain ⟨_,second⟩ := at_ (i := eventSlots - 2) (by omega)
  have found : best (slotOf m.flash) initRounds = ((slotOf m.flash (eventSlots - 2)).cnt,eventSlots - 2) := by
    apply best_eq initRounds (by omega)
    intro i below other
    obtain ⟨_,same⟩ := at_ (i := i) (by omega)
    rw [same,second]
    exact cnt_increases increasing (by omega) (by omega)
  rw [found]

end Newest

def newestCnt (events : List Event) : Nat := (events.getLast?.map Event.cnt).getD 0

/-- After a restart the next store goes behind the newest event, with the counter of that event. -/
def Recovers (rtcValid : Rtc → Bool) (events : List Event) : Prop :=
  ∃ m, storeAll erasedMemory events = .ok m ∧
    eventMemoryInit rtcValid m.flash = ⟨true,eventMemSize * (events.length % eventSlots),newestCnt events⟩

theorem newestCnt_eq {events : List Event} (bound : events.length - 1 < events.length) :
    newestCnt events = events[events.length - 1].cnt := by
  rw [newestCnt,List.getLast?_eq_getElem?,List.getElem?_eq_getElem bound]
  rfl

theorem Holds.blank {rtcValid : Rtc → Bool} {m : Memory} {events : List Event} (holds : Holds m events)
    (short : events.length < eventSlots) : (slotOf m.flash events.length).valid rtcValid = false := by
  rw [holds.ring.fresh events.length short (Nat.le_refl _),Event.erased_invalid]

theorem Holds.reached {rtcValid : Rtc → Bool} {m : Memory} {events : List Event} (holds : Holds m events)
    (all : ∀ j < initRounds, (slotOf m.flash j).valid rtcValid = true) : initRounds ≤ events.length := by
  have rounds := initRounds_succ
  by_contra short
  have valid := all events.length (by omega)
  rw [holds.blank (by omega)] at valid
  exact absurd valid (by decide)

/-- Recovery is right where the events of the current round are valid and the
scan either stops behind them or finds no other invalid slot. -/
theorem Holds.init_clean {rtcValid : Rtc → Bool} {m : Memory} {events : List Event} (holds : Holds m events)
    (increasing : events.Pairwise fun a b => a.cnt < b.cnt) (partly : 0 < events.length % eventSlots)
    (newer : ∀ j < events.length % eventSlots, (slotOf m.flash j).valid rtcValid = true)
    (ends : events.length % eventSlots < initRounds ∧
        (slotOf m.flash (events.length % eventSlots)).valid rtcValid = false ∨
      ∀ j < initRounds, events.length % eventSlots ≤ j → (slotOf m.flash j).valid rtcValid = true) :
    eventMemoryInit rtcValid m.flash = ⟨true,eventMemSize * (events.length % eventSlots),newestCnt events⟩ := by
  have limit := Nat.mod_lt events.length (show 0 < eventSlots by decide)
  have least := Nat.mod_le events.length eventSlots
  have rounds := initRounds_succ
  rcases ends with ⟨inside,stop⟩ | older
  · obtain ⟨bound,newest⟩ := holds.best_newest increasing partly _ (Nat.le_refl _) (Nat.le_of_lt limit) least
    rw [init_stops rtcValid inside stop newer,newest,newestCnt_eq bound]
  · have all : ∀ j < initRounds, (slotOf m.flash j).valid rtcValid = true := by
      intro j below
      by_cases current : j < events.length % eventSlots
      · exact newer j current
      · exact older j below (Nat.le_of_not_lt current)
    have reached := holds.reached all
    obtain ⟨bound,newest⟩ := holds.best_newest increasing partly initRounds (by omega) (by omega) reached
    have follows : Ring.next eventSlots (events.length % eventSlots - 1) = events.length % eventSlots := by
      unfold Ring.next
      rw [if_neg (by omega)]
      omega
    rw [init_scans rtcValid all,newest,newestCnt_eq bound]
    dsimp only
    rw [ptrInc_slot (by omega),follows]

theorem Holds.init_partly {rtcValid : Rtc → Bool} {m : Memory} {events : List Event} (holds : Holds m events)
    (valid : ∀ e ∈ events, e.valid rtcValid = true) (increasing : events.Pairwise fun a b => a.cnt < b.cnt)
    (partly : 0 < events.length % eventSlots) :
    eventMemoryInit rtcValid m.flash = ⟨true,eventMemSize * (events.length % eventSlots),newestCnt events⟩ := by
  have limit := Nat.mod_lt events.length (show 0 < eventSlots by decide)
  have least := Nat.mod_le events.length eventSlots
  have rounds := initRounds_succ
  refine holds.init_clean increasing partly (fun j below => valid _ (holds.written (by omega) (by omega))) ?_
  by_cases short : events.length < initRounds
  · rw [Nat.mod_eq_of_lt (show events.length < eventSlots by omega)]
    exact Or.inl ⟨short,holds.blank (by omega)⟩
  · exact Or.inr fun j below _ => valid _ (holds.written (by omega) (by omega))

/-- With the newest event in the last slot the write position is put on it. -/
theorem Holds.init_closed {rtcValid : Rtc → Bool} {m : Memory} {events : List Event} (holds : Holds m events)
    (valid : ∀ e ∈ events, e.valid rtcValid = true) (increasing : events.Pairwise fun a b => a.cnt < b.cnt)
    (full : eventSlots ≤ events.length) (closed : events.length % eventSlots = 0) :
    (eventMemoryInit rtcValid m.flash).ptr = eventMemSize * (eventSlots - 1) := by
  have rounds := initRounds_succ
  have scanned := init_scans rtcValid fun j below =>
    valid _ (holds.written (show j < eventSlots by omega) (by omega))
  rw [scanned,holds.best_missed increasing full closed]
  exact ptrInc_slot (j := eventSlots - 2) (by decide)

theorem closed_unrecovered {rtcValid : Rtc → Bool} {events : List Event}
    (valid : ∀ e ∈ events, e.valid rtcValid = true) (increasing : events.Pairwise fun a b => a.cnt < b.cnt)
    (full : eventSlots ≤ events.length) (closed : events.length % eventSlots = 0) :
    ¬ Recovers rtcValid events := by
  rintro ⟨m',stored',recovered⟩
  obtain ⟨m,stored,holds⟩ := erased_holds.storeAll events
  cases stored.symm.trans stored'
  have misplaced := holds.init_closed valid increasing full closed
  rw [recovered] at misplaced
  change eventMemSize * (events.length % eventSlots) = _ at misplaced
  rw [closed] at misplaced
  exact absurd misplaced (by decide)

/-- Recovery fails exactly when the ring is closed by the newest event. -/
theorem recovers_iff (rtcValid : Rtc → Bool) (events : List Event)
    (valid : ∀ e ∈ events, e.valid rtcValid = true) (increasing : events.Pairwise fun a b => a.cnt < b.cnt) :
    Recovers rtcValid events ↔ events.length = 0 ∨ events.length % eventSlots ≠ 0 := by
  constructor
  · intro recovers
    by_contra neither
    obtain ⟨some,closed⟩ := not_or.mp neither
    have closed := not_not.mp closed
    refine closed_unrecovered valid increasing ?_ closed recovers
    by_contra short
    rw [Nat.mod_eq_of_lt (Nat.lt_of_not_le short)] at closed
    exact some closed
  · obtain ⟨m,stored,holds⟩ := erased_holds.storeAll events
    rw [List.nil_append] at holds
    rintro (none | partly)
    · cases List.length_eq_zero_iff.mp none
      have blank : (slotOf m.flash 0).valid rtcValid = false := holds.blank (by decide)
      exact ⟨m,stored,init_stops rtcValid (by decide) blank fun j below => absurd below (Nat.not_lt_zero j)⟩
    · exact ⟨m,stored,holds.init_partly valid increasing (Nat.pos_of_ne_zero partly)⟩

def numbered (n : Nat) : List Event :=
  (List.range n).map fun i => ⟨i + 1,⟨24,1,1,12,0,0⟩,EventId.alarm.code,EventSource.door.code⟩

theorem numbered_valid (n : Nat) : ∀ e ∈ numbered n, e.valid (fun _ => true) = true := by
  intro e member
  obtain ⟨i,_,rfl⟩ := List.mem_map.mp member
  exact (by decide : (if eventIdSize ≤ EventId.alarm.code ∨ eventSourceSize ≤ EventSource.door.code then false
    else true) = true)

theorem numbered_increasing (n : Nat) : (numbered n).Pairwise fun a b => a.cnt < b.cnt := by
  refine List.pairwise_map.mpr (List.pairwise_lt_range.imp ?_)
  intro i j before
  exact Nat.succ_lt_succ before

theorem numbered_length (n : Nat) : (numbered n).length = n := by
  rw [numbered,List.length_map,List.length_range]

theorem recovers_three : Recovers (fun _ => true) (numbered 3) ↔
    (numbered 3).length = 0 ∨ (numbered 3).length % eventSlots ≠ 0 :=
  recovers_iff _ _ (numbered_valid 3) (numbered_increasing 3)

theorem full_ring_unrecovered : (∀ e ∈ numbered eventSlots, e.valid (fun _ => true) = true) ∧
    ((numbered eventSlots).Pairwise fun a b => a.cnt < b.cnt) ∧
    ¬ Recovers (fun _ => true) (numbered eventSlots) := by
  have valid := numbered_valid eventSlots
  have increasing := numbered_increasing eventSlots
  refine ⟨valid,increasing,closed_unrecovered valid increasing ?_ ?_⟩
  · exact Nat.le_of_eq (numbered_length eventSlots).symm
  · rw [numbered_length,Nat.mod_self]

section Read

variable {rtcValid : Rtc → Bool} {flash : Flash}

theorem readLoop_reaches (rounds : Nat) : ∀ k q, k < rounds → k < q →
    readLoop rtcValid flash rounds (eventMemSize * (q % eventSlots)) k =
      if (slotOf flash ((q - (k + 1)) % eventSlots)).valid rtcValid
      then some (slotOf flash ((q - (k + 1)) % eventSlots)) else none := by
  have pos : 0 < eventSlots := by decide
  induction rounds with
  | zero => exact fun k q below _ => absurd below (Nat.not_lt_zero k)
  | succ rounds ih =>
    intro k q below enough
    obtain ⟨q,rfl⟩ := Nat.exists_eq_succ_of_ne_zero (Nat.ne_of_gt (Nat.zero_lt_of_lt enough))
    have back : ptrDec (eventMemSize * ((q + 1) % eventSlots)) = eventMemSize * (q % eventSlots) := by
      rw [← Ring.next_mod _ _ pos,ptrDec_next]
    cases k with
    | zero => simp only [readLoop,back,read_slot flash (Nat.mod_lt q pos),Nat.succ_eq_add_one,Nat.zero_add,
        Nat.add_sub_cancel]
    | succ k =>
      rw [readLoop,Nat.succ_eq_add_one,back,ih k q (Nat.lt_of_succ_lt_succ below) (Nat.lt_of_succ_lt_succ enough),
        Nat.add_sub_add_right]

theorem readLoop_ends (rounds : Nat) : ∀ k ptr, rounds ≤ k → readLoop rtcValid flash rounds ptr k = none := by
  induction rounds with
  | zero => exact fun _ _ _ => rfl
  | succ rounds ih =>
    intro k ptr beyond
    obtain ⟨k,rfl⟩ := Nat.exists_eq_succ_of_ne_zero (Nat.ne_of_gt (Nat.zero_lt_of_lt beyond))
    exact ih k _ (Nat.le_of_succ_le_succ beyond)

end Read

/-- Reading `k` back gives what the last events say, as many as the ring has slots. -/
def History (rtcValid : Rtc → Bool) (events : List Event) (k : Nat) : Prop :=
  ∃ m, storeAll erasedMemory events = .ok m ∧
    eventMemoryRead rtcValid m k = (events.reverse.take eventSlots)[k]?

theorem Holds.read {rtcValid : Rtc → Bool} {m : Memory} {events : List Event} (holds : Holds m events)
    (valid : ∀ e ∈ events, e.valid rtcValid = true) {k : Nat} (short : k < initRounds) :
    eventMemoryRead rtcValid m k = events.reverse[k]? := by
  have rounds := initRounds_succ
  have start : m.ptr = eventMemSize * ((events.length + eventSlots) % eventSlots) := by
    rw [Nat.add_mod_right,holds.ptr]
  rw [eventMemoryRead,start,readLoop_reaches initRounds k _ short (by omega)]
  by_cases stored : k < events.length
  · have bound : events.length - 1 - k < events.length := by omega
    have slot : (events.length + eventSlots - (k + 1)) % eventSlots = (events.length - 1 - k) % eventSlots := by
      rw [← Nat.add_mod_right (events.length - 1 - k)]
      congr 1
      omega
    rw [slot,holds.ring.live _ bound (by omega),if_pos (valid _ (List.getElem_mem bound)),
      List.getElem?_reverse stored,List.getElem?_eq_getElem bound]
  · have whole : (events.length + eventSlots - (k + 1)) % eventSlots = events.length + eventSlots - (k + 1) :=
      Nat.mod_eq_of_lt (by omega)
    rw [whole,holds.ring.fresh _ (by omega) (by omega),Event.erased_invalid,List.getElem?_eq_none (by simp; omega)]
    rfl

theorem last_unread (rtcValid : Rtc → Bool) {events : List Event} (full : eventSlots ≤ events.length) :
    ¬ History rtcValid events (eventSlots - 1) := by
  rintro ⟨m,_,read⟩
  rw [eventMemoryRead,readLoop_ends initRounds _ _ (by decide)] at read
  have size : (events.reverse.take eventSlots).length = eventSlots := by simp [full]
  have outside := List.getElem?_eq_none_iff.mp read.symm
  rw [size] at outside
  exact absurd outside (by decide)

/-- History fails exactly for the oldest event of a full ring. -/
theorem history_iff (rtcValid : Rtc → Bool) (events : List Event) (k : Nat)
    (valid : ∀ e ∈ events, e.valid rtcValid = true) :
    History rtcValid events k ↔ ¬ (k = eventSlots - 1 ∧ eventSlots ≤ events.length) := by
  have rounds := initRounds_succ
  constructor
  · rintro history ⟨rfl,full⟩
    exact last_unread rtcValid full history
  · intro other
    obtain ⟨m,stored,holds⟩ := erased_holds.storeAll events
    rw [List.nil_append] at holds
    refine ⟨m,stored,?_⟩
    by_cases short : k < initRounds
    · rw [holds.read valid short,List.getElem?_take_of_lt (by omega)]
    · have beyond : (events.reverse.take eventSlots).length ≤ k := by
        rw [List.length_take,List.length_reverse]
        omega
      rw [eventMemoryRead,readLoop_ends initRounds _ _ (by omega),List.getElem?_eq_none beyond]

theorem history_three : History (fun _ => true) (numbered 3) 0 ↔
    ¬ (0 = eventSlots - 1 ∧ eventSlots ≤ (numbered 3).length) :=
  history_iff _ _ 0 (numbered_valid 3)

theorem full_ring_unread : (∀ e ∈ numbered eventSlots, e.valid (fun _ => true) = true) ∧
    ¬ History (fun _ => true) (numbered eventSlots) (eventSlots - 1) :=
  ⟨numbered_valid eventSlots,last_unread _ (Nat.le_of_eq (numbered_length eventSlots).symm)⟩

end JcaFirmware.EventMemory
