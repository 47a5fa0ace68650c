import JcaFirmware.Foundation.Run
import JcaFirmware.Section
import Mathlib.Data.List.Induction

/-! The filter of the inputs (`app/inp.c`): when a bit of the state follows the level that is polled. -/
namespace JcaFirmware.InpTask
open Foundation Section

section Code

def inpFilterLimitDefault : Nat := 100
def inpFilterLimitDefaultDact : Nat := 500
def mainLow : Nat := 7000

/-- `inp_filter_t`. -/
structure InpFilter where
  timer : Nat
  limit : Nat
  limitDact : Nat
deriving DecidableEq, Repr

/-- The bits of one input in `_inp_state`, `_inp_check_needed` and `_inp_bypass`, with its filter. -/
structure Pin where
  state : Bool
  checkNeeded : Bool
  bypass : Bool
  filter : InpFilter
deriving DecidableEq, Repr

structure Statics where
  inpEnabled : Bool
  pins : Inp → Pin

def inpInverted : Inp → Bool
  | .lock | .unlock | .door | .inp1 | .inp2 | .inp3 => true
  | .key | .shock => false

def inpPowerNeeded : Inp → Bool
  | .shock | .inp2 | .inp3 => false
  | _ => true

/-- The limit before a change to the level. -/
def InpFilter.limitTo (f : InpFilter) (active : Bool) : Nat := if active then f.limit else f.limitDact

def Pin.setTimer (p : Pin) (timer : Nat) : Pin := {p with filter := {p.filter with timer := timer % 2 ^ 32}}

/-- `_inp_active` and `_inp_inactive`, which differ in the level. -/
def Pin.polled (active : Bool) (now : Nat) (p : Pin) : Pin :=
  if p.state = active then p.setTimer (now + p.filter.limitTo (!active))
  else if now < p.filter.timer then p
  else if p.checkNeeded then p
  else {p with state := active, checkNeeded := true}.setTimer (now + p.filter.limitTo active)

def inpActive (now : Nat) (p : Pin) : Pin := p.polled true now

def inpInactive (now : Nat) (p : Pin) : Pin := p.polled false now

/-- One input in the loop of `inp_task`; `lowActive` is what `_inp_lo_level_active` answers. -/
def visit (inpEnabled : Bool) (now : Nat) (lowActive : Inp → Bool) (n : Inp) (p : Pin) : Pin :=
  if ¬ inpEnabled ∧ inpPowerNeeded n then p
  else if p.bypass then p
  else if lowActive n = inpInverted n then inpInactive now p
  else inpActive now p

def powered (s : Statics) (mainMv : Nat) : Bool := s.inpEnabled && !decide (mainMv < mainLow)

def inpTask (s : Statics) (now mainMv : Nat) (lowActive : Inp → Bool) : Statics :=
  {s with pins := Inp.all.foldl (fun pins n => Function.update pins n (visit (powered s mainMv) now lowActive n (pins n))) s.pins}

/-- After the start, where the other bits are clear. -/
def inpInit (lowActive : Inp → Bool) : Statics where
  inpEnabled := false
  pins n :=
    let limits := if n = .shock then (0,0) else (inpFilterLimitDefault,inpFilterLimitDefaultDact)
    ⟨inpInverted n != lowActive n,false,false,⟨0,limits.1,limits.2⟩⟩

def inpGet (s : Statics) : (Inp → Bool) × Statics :=
  (fun n => (s.pins n).state,{s with pins := fun n => {s.pins n with checkNeeded := false}})

def inpEnable (s : Statics) (state : Bool) : Statics := {s with inpEnabled := state}

def inpSetBypass (s : Statics) (inp : Inp) (state : Bool) : Statics :=
  {s with pins := Function.update s.pins inp {s.pins inp with bypass := state}}

/-- Other limits than those of the start. -/
def withLimits (limit limitDact : Inp → Nat) (s : Statics) : Statics :=
  {s with pins := fun n => {s.pins n with filter := {(s.pins n).filter with limit := limit n, limitDact := limitDact n}}}

end Code

section Loop

/-- A loop over different indices changes each of them once. -/
theorem foldl_update {ι α : Type} [DecidableEq ι] (change : ι → α → α) (l : List ι) (distinct : l.Nodup) (f : ι → α) (i : ι) :
    l.foldl (fun f j => Function.update f j (change j (f j))) f i = if i ∈ l then change i (f i) else f i := by
  induction l generalizing f with
  | nil => rfl
  | cons j l ih =>
    obtain ⟨other,distinct⟩ := List.nodup_cons.mp distinct
    rw [List.foldl_cons,ih distinct]
    by_cases same : i = j
    · subst same
      rw [if_neg other,if_pos List.mem_cons_self,Function.update_self]
    · have member : i ∈ j :: l ↔ i ∈ l := by rw [List.mem_cons,or_iff_right same]
      rw [Function.update_of_ne same,if_congr member rfl rfl]

theorem inp_listed (n : Inp) : n ∈ Inp.all := by
  cases n <;> decide

theorem inpTask_pins (s : Statics) (now mainMv : Nat) (lowActive : Inp → Bool) (n : Inp) :
    (inpTask s now mainMv lowActive).pins n = visit (powered s mainMv) now lowActive n (s.pins n) := by
  rw [inpTask]
  dsimp only
  rw [foldl_update _ _ (by decide),if_pos (inp_listed n)]

end Loop

section Run

inductive Action
  | task (now mainMv : Nat) (lowActive : Inp → Bool)
  | get
  | enable (state : Bool)
  | bypass (inp : Inp) (state : Bool)

def step (s : Statics) : Action → Statics
  | .task now mainMv lowActive => inpTask s now mainMv lowActive
  | .get => (inpGet s).2
  | .enable state => inpEnable s state
  | .bypass inp state => inpSetBypass s inp state

/-- The input is looked at in a call of `inp_task`. -/
def Evaluated (s : Statics) (mainMv : Nat) (n : Inp) : Prop :=
  ¬ (¬ powered s mainMv ∧ inpPowerNeeded n) ∧ ¬ (s.pins n).bypass

instance (s : Statics) (mainMv : Nat) (n : Inp) : Decidable (Evaluated s mainMv n) := inferInstanceAs (Decidable (¬ _ ∧ ¬ _))

def seen (lowActive : Inp → Bool) (n : Inp) : Bool := inpInverted n != lowActive n

/-- The state with the evaluated polls of each input, and the poll that changed it, where no poll since has seen
the level again. -/
structure Watch where
  statics : Statics
  polls : Inp → List (Nat × Bool)
  turned : Inp → Option Nat

def watch (w : Watch) (a : Action) : Watch where
  statics := step w.statics a
  polls n := match a with
    | .task now mainMv lowActive => if Evaluated w.statics mainMv n then (now,seen lowActive n) :: w.polls n else w.polls n
    | _ => w.polls n
  turned n := match a with
    | .task now mainMv lowActive =>
      if Evaluated w.statics mainMv n then
        if ((step w.statics a).pins n).state ≠ (w.statics.pins n).state then some now
        else if seen lowActive n = (w.statics.pins n).state then none
        else w.turned n
      else w.turned n
    | _ => w.turned n

/-- A bit changes in a poll only, to the level that it sees, and no poll within the limit before saw the other one. -/
def Debounced (w : Watch) (a : Action) : Prop :=
  ∀ n, ((step w.statics a).pins n).state ≠ (w.statics.pins n).state →
    ∃ now mainMv lowActive, a = .task now mainMv lowActive ∧ Evaluated w.statics mainMv n ∧
      seen lowActive n = ((step w.statics a).pins n).state ∧
      ∀ poll ∈ w.polls n, now < poll.1 + (w.statics.pins n).filter.limitTo ((step w.statics a).pins n).state →
        poll.2 = ((step w.statics a).pins n).state

/-- With the last change registered, and the level not seen again since, an evaluated poll sees the other level when the limit
of the last change is over and its own one is not. -/
def Hasty (w : Watch) : Action → Prop
  | .task now mainMv lowActive => ∃ n, Evaluated w.statics mainMv n ∧ seen lowActive n ≠ (w.statics.pins n).state ∧
      (w.statics.pins n).checkNeeded = false ∧ ∃ u ∈ w.turned n,
        u + (w.statics.pins n).filter.limitTo (w.statics.pins n).state ≤ now ∧
        now < u + (w.statics.pins n).filter.limitTo (!(w.statics.pins n).state)
  | _ => False

instance (w : Watch) : (a : Action) → Decidable (Hasty w a)
  | .task now mainMv lowActive =>
    decidable_of_iff (∃ n ∈ Inp.all, Evaluated w.statics mainMv n ∧ seen lowActive n ≠ (w.statics.pins n).state ∧
        (w.statics.pins n).checkNeeded = false ∧ ∃ u ∈ w.turned n,
          u + (w.statics.pins n).filter.limitTo (w.statics.pins n).state ≤ now ∧
          now < u + (w.statics.pins n).filter.limitTo (!(w.statics.pins n).state))
      ⟨fun ⟨n,_,hasty⟩ => ⟨n,hasty⟩,fun ⟨n,hasty⟩ => ⟨n,inp_listed n,hasty⟩⟩
  | .get | .enable _ | .bypass _ _ => isFalse id

/-- Where the deadline of an input comes from. -/
inductive Filtered (p : Pin) (polls : List (Nat × Bool)) : Option Nat → Prop
  | fresh (deadline : p.filter.timer = 0) (never : ∀ u, (u,p.state) ∉ polls) : Filtered p polls none
  | confirmed (u : Nat) (deadline : p.filter.timer = u + p.filter.limitTo (!p.state)) (last : ∀ v, (v,p.state) ∈ polls → v ≤ u) :
      Filtered p polls none
  | turned (u : Nat) (deadline : p.filter.timer = u + p.filter.limitTo p.state) (own : (u,p.state) ∈ polls)
      (last : ∀ v, (v,p.state) ∈ polls → v ≤ u) : Filtered p polls (some u)

theorem visit_evaluated {s : Statics} {mainMv : Nat} {n : Inp} (evaluated : Evaluated s mainMv n) (now : Nat) (lowActive : Inp → Bool) :
    visit (powered s mainMv) now lowActive n (s.pins n) = (s.pins n).polled (seen lowActive n) now := by
  rw [visit,if_neg evaluated.1,if_neg evaluated.2]
  by_cases low : lowActive n = inpInverted n
  · rw [if_pos low,inpInactive,seen,low,bne_self_eq_false]
  · rw [if_neg low,inpActive,seen,bne_iff_ne.mpr fun same => low same.symm]

theorem visit_skipped {s : Statics} {mainMv : Nat} {n : Inp} (skipped : ¬ Evaluated s mainMv n) (now : Nat) (lowActive : Inp → Bool) :
    visit (powered s mainMv) now lowActive n (s.pins n) = s.pins n := by
  unfold visit
  by_cases off : ¬ powered s mainMv ∧ inpPowerNeeded n
  · rw [if_pos off]
  · have bypass : (s.pins n).bypass = true := by
      by_contra other
      exact skipped ⟨off,other⟩
    rw [if_neg off,if_pos bypass]

section Polled

variable {p : Pin} {polls : List (Nat × Bool)} {turned : Option Nat} {active : Bool} {now : Nat}

theorem polled_same (same : p.state = active) (fits : now + p.filter.limitTo (!active) < 2 ^ 32) :
    p.polled active now = {p with filter := {p.filter with timer := now + p.filter.limitTo (!active)}} := by
  rw [Pin.polled,if_pos same,Pin.setTimer,Nat.mod_eq_of_lt fits]

theorem polled_held (other : p.state ≠ active) (held : now < p.filter.timer ∨ p.checkNeeded = true) : p.polled active now = p := by
  rw [Pin.polled,if_neg other]
  by_cases early : now < p.filter.timer
  · rw [if_pos early]
  · rw [if_neg early,if_pos (held.resolve_left early)]

theorem polled_changed (other : p.state ≠ active) (expired : p.filter.timer ≤ now) (registered : p.checkNeeded = false)
    (fits : now + p.filter.limitTo active < 2 ^ 32) : p.polled active now =
      {p with state := active, checkNeeded := true, filter := {p.filter with timer := now + p.filter.limitTo active}} := by
  rw [Pin.polled,if_neg other,if_neg (Nat.not_lt.mpr expired),if_neg (Bool.eq_false_iff.mp registered),Pin.setTimer]
  dsimp only
  rw [Nat.mod_eq_of_lt fits]

variable (active)

/-- What a poll does to an input, by the three cases of the code. -/
theorem polled_cases (fits : ∀ b, now + p.filter.limitTo b < 2 ^ 32) :
    (p.state = active ∧ p.polled active now = {p with filter := {p.filter with timer := now + p.filter.limitTo (!active)}}) ∨
    (p.state ≠ active ∧ (now < p.filter.timer ∨ p.checkNeeded = true) ∧ p.polled active now = p) ∨
    (p.state ≠ active ∧ p.filter.timer ≤ now ∧ p.checkNeeded = false ∧ p.polled active now =
      {p with state := active, checkNeeded := true, filter := {p.filter with timer := now + p.filter.limitTo active}}) := by
  by_cases same : p.state = active
  · exact Or.inl ⟨same,polled_same same (fits _)⟩
  · by_cases held : now < p.filter.timer ∨ p.checkNeeded = true
    · exact Or.inr (Or.inl ⟨same,held,polled_held same held⟩)
    · obtain ⟨expired,registered⟩ := not_or.mp held
      have expired := Nat.not_lt.mp expired
      have registered := Bool.eq_false_iff.mpr registered
      exact Or.inr (Or.inr ⟨same,expired,registered,polled_changed same expired registered (fits _)⟩)

variable (filtered : Filtered p polls turned) (before : ∀ poll ∈ polls, poll.1 ≤ now) (fits : ∀ b, now + p.filter.limitTo b < 2 ^ 32)
include filtered before fits

theorem polled_filtered : Filtered (p.polled active now) ((now,active) :: polls)
    (if (p.polled active now).state ≠ p.state then some now else if active = p.state then none else turned) := by
  have upTo : ∀ v b, (v,b) ∈ (now,active) :: polls → v ≤ now := by
    intro v b member
    rcases List.mem_cons.mp member with same | old
    · exact Nat.le_of_eq (Prod.mk.inj same).1
    · exact before _ old
  have unseen : p.state ≠ active → ∀ v, (v,p.state) ∈ (now,active) :: polls → (v,p.state) ∈ polls := by
    intro other v member
    rcases List.mem_cons.mp member with same | old
    · exact absurd (Prod.mk.inj same).2 other
    · exact old
  rcases polled_cases active fits with ⟨rfl,next⟩ | ⟨other,_,next⟩ | ⟨other,_,_,next⟩
  · rw [next,if_neg (not_not.mpr rfl),if_pos rfl]
    exact .confirmed now rfl fun v member => upTo v _ member
  · rw [next,if_neg (not_not.mpr rfl),if_neg (Ne.symm other)]
    cases filtered with
    | fresh deadline never => exact .fresh deadline fun u member => never u (unseen other u member)
    | confirmed u deadline last => exact .confirmed u deadline fun v member => last v (unseen other v member)
    | turned u deadline own last =>
      exact .turned u deadline (List.mem_cons_of_mem _ own) fun v member => last v (unseen other v member)
  · rw [next,if_pos (Ne.symm other)]
    exact .turned now rfl List.mem_cons_self fun v member => upTo v _ member

omit before in
theorem polled_debounced_iff :
    ((p.polled active now).state ≠ p.state → ∀ poll ∈ polls, now < poll.1 + p.filter.limitTo (p.polled active now).state →
        poll.2 = (p.polled active now).state) ↔
      ¬ (active ≠ p.state ∧ p.checkNeeded = false ∧ ∃ u ∈ turned, u + p.filter.limitTo p.state ≤ now ∧
        now < u + p.filter.limitTo (!p.state)) := by
  rcases polled_cases active fits with ⟨same,next⟩ | ⟨other,held,next⟩ | ⟨other,expired,registered,next⟩
  · rw [next]
    exact ⟨fun _ hasty => hasty.1 same.symm,fun _ changed => absurd rfl changed⟩
  · rw [next]
    refine ⟨fun _ hasty => ?_,fun _ changed => absurd rfl changed⟩
    obtain ⟨_,registered,u,isTurned,expired,_⟩ := hasty
    rcases held with early | unregistered
    · cases filtered with
      | fresh | confirmed => exact nomatch isTurned
      | turned v deadline =>
        obtain rfl := Option.some.inj isTurned
        rw [deadline] at early
        exact absurd expired (Nat.not_le.mpr early)
    · exact absurd (registered.symm.trans unregistered) nofun
  · rw [next]
    dsimp only
    have level : active = !p.state := (Bool.eq_not_of_ne other.symm)
    have sees : ∀ b, b ≠ active → b = p.state := fun b differ => by rw [level] at differ; exact Bool.not_eq_not.mp differ
    constructor
    · rintro quiet ⟨_,_,u,isTurned,_,early⟩
      cases filtered with
      | fresh | confirmed => exact nomatch isTurned
      | turned v deadline own =>
        obtain rfl := Option.some.inj isTurned
        exact other (quiet other.symm _ own (by rw [level]; exact early))
    · intro patient _ poll member early
      by_contra differ
      obtain ⟨v,b⟩ := poll
      obtain rfl := sees b differ
      rw [level] at early
      cases filtered with
      | fresh deadline never => exact never v member
      | confirmed u deadline last =>
        have limit := last v member
        rw [deadline] at expired
        omega
      | turned u deadline own last =>
        have limit := last v member
        refine patient ⟨other.symm,registered,u,rfl,?_,?_⟩
        · rw [← deadline]
          exact expired
        · omega

end Polled

section Trace

variable {limit limitDact : Inp → Nat}

def clocks (actions : List Action) : List Nat := actions.filterMap fun
  | .task now _ _ => some now
  | _ => none

/-- The clock of the polls never goes back, and no deadline is beyond its 32 bits. -/
structure NonWrapping (limit limitDact : Inp → Nat) (actions : List Action) : Prop where
  sorted : (clocks actions).Pairwise (· ≤ ·)
  room : ∀ now ∈ clocks actions, ∀ n, now + limit n < 2 ^ 32 ∧ now + limitDact n < 2 ^ 32

def begin (limit limitDact : Inp → Nat) (lowActive : Inp → Bool) : Watch :=
  ⟨withLimits limit limitDact (inpInit lowActive),fun _ => [],fun _ => none⟩

example (lowActive : Inp → Bool) : withLimits (fun n => if n = .shock then 0 else 100) (fun n => if n = .shock then 0 else 500)
    (inpInit lowActive) = inpInit lowActive := by
  unfold withLimits inpInit
  dsimp only
  congr 1
  funext n
  cases n <;> rfl

theorem clocks_append (before after : List Action) : clocks (before ++ after) = clocks before ++ clocks after :=
  List.filterMap_append

theorem NonWrapping.before {before after : List Action} (clock : NonWrapping limit limitDact (before ++ after)) :
    NonWrapping limit limitDact before := by
  obtain ⟨sorted,room⟩ := clock
  rw [clocks_append] at sorted room
  exact ⟨(List.pairwise_append.mp sorted).1,fun now member => room now (List.mem_append_left _ member)⟩

/-- Of each input the deadline is accounted for, the limits are the given ones, and the polls are those of the past. -/
structure Inv (limit limitDact : Inp → Nat) (past : List Nat) (w : Watch) : Prop where
  filtered : ∀ n, Filtered (w.statics.pins n) (w.polls n) (w.turned n)
  limits : ∀ n b, (w.statics.pins n).filter.limitTo b = if b then limit n else limitDact n
  heard : ∀ n, ∀ poll ∈ w.polls n, poll.1 ∈ past

theorem Filtered.congr {p p' : Pin} {polls : List (Nat × Bool)} {turned : Option Nat} (filtered : Filtered p polls turned)
    (state : p'.state = p.state) (filter : p'.filter = p.filter) : Filtered p' polls turned := by
  cases filtered with
  | fresh deadline never => exact .fresh (by rw [filter]; exact deadline) (by rw [state]; exact never)
  | confirmed u deadline last => exact .confirmed u (by rw [filter,state]; exact deadline) (by rw [state]; exact last)
  | turned u deadline own last =>
    exact .turned u (by rw [filter,state]; exact deadline) (by rw [state]; exact own) (by rw [state]; exact last)

theorem polled_limitTo (p : Pin) (active : Bool) (now : Nat) (b : Bool) :
    (p.polled active now).filter.limitTo b = p.filter.limitTo b := by
  unfold Pin.polled Pin.setTimer
  split_ifs <;> rfl

theorem begin_inv (lowActive : Inp → Bool) : Inv limit limitDact [] (begin limit limitDact lowActive) where
  filtered n := .fresh rfl fun _ member => nomatch member
  limits n b := by cases b <;> rfl
  heard n _ member := nomatch member

/-- The rest of the actions leaves the state and the filter of each input. -/
theorem step_other {s : Statics} {a : Action} (other : ∀ now mainMv lowActive, a ≠ .task now mainMv lowActive) (n : Inp) :
    ((step s a).pins n).state = (s.pins n).state ∧ ((step s a).pins n).filter = (s.pins n).filter := by
  cases a with
  | task now mainMv lowActive => exact absurd rfl (other now mainMv lowActive)
  | get => exact ⟨rfl,rfl⟩
  | enable state => exact ⟨rfl,rfl⟩
  | bypass inp state =>
    rw [step,inpSetBypass]
    dsimp only
    by_cases same : n = inp
    · subst same
      rw [Function.update_self]
      exact ⟨rfl,rfl⟩
    · rw [Function.update_of_ne same]
      exact ⟨rfl,rfl⟩

theorem Inv.fits {past : List Nat} {w : Watch} (inv : Inv limit limitDact past w) {now : Nat}
    (room : ∀ n, now + limit n < 2 ^ 32 ∧ now + limitDact n < 2 ^ 32) (n : Inp) (b : Bool) :
    now + (w.statics.pins n).filter.limitTo b < 2 ^ 32 := by
  rw [inv.limits]
  cases b with
  | true => exact (room n).1
  | false => exact (room n).2

theorem watch_task {past : List Nat} {w : Watch} (inv : Inv limit limitDact past w) {now : Nat} (later : ∀ u ∈ past, u ≤ now)
    (room : ∀ n, now + limit n < 2 ^ 32 ∧ now + limitDact n < 2 ^ 32) (mainMv : Nat) (lowActive : Inp → Bool) :
    Inv limit limitDact (past ++ [now]) (watch w (.task now mainMv lowActive)) := by
  have pin (n : Inp) : (watch w (.task now mainMv lowActive)).statics.pins n =
      visit (powered w.statics mainMv) now lowActive n (w.statics.pins n) := inpTask_pins _ _ _ _ n
  refine ⟨fun n => ?_,fun n b => ?_,fun n poll member => ?_⟩
  · by_cases evaluated : Evaluated w.statics mainMv n
    · have polled := pin n
      rw [visit_evaluated evaluated] at polled
      have next := polled_filtered (seen lowActive n) (inv.filtered n) (fun poll member => later _ (inv.heard n poll member))
        (inv.fits room n)
      rw [← polled] at next
      have polls : (watch w (.task now mainMv lowActive)).polls n = (now,seen lowActive n) :: w.polls n := if_pos evaluated
      rw [polls]
      have turned : (watch w (.task now mainMv lowActive)).turned n = _ := if_pos evaluated
      rw [turned]
      exact next
    · have skipped := pin n
      rw [visit_skipped evaluated] at skipped
      have polls : (watch w (.task now mainMv lowActive)).polls n = w.polls n := if_neg evaluated
      have turned : (watch w (.task now mainMv lowActive)).turned n = w.turned n := if_neg evaluated
      rw [skipped,polls,turned]
      exact inv.filtered n
  · rw [pin]
    by_cases evaluated : Evaluated w.statics mainMv n
    · rw [visit_evaluated evaluated,polled_limitTo,inv.limits]
    · rw [visit_skipped evaluated,inv.limits]
  · unfold watch at member
    dsimp only at member
    split_ifs at member with evaluated
    · rcases List.mem_cons.mp member with rfl | old
      · exact List.mem_append_right _ List.mem_cons_self
      · exact List.mem_append_left _ (inv.heard n poll old)
    · exact List.mem_append_left _ (inv.heard n poll member)

theorem watch_other {past : List Nat} {w : Watch} (inv : Inv limit limitDact past w) {a : Action}
    (other : ∀ now mainMv lowActive, a ≠ .task now mainMv lowActive) : Inv limit limitDact past (watch w a) := by
  have kept := @step_other w.statics a other
  have same : (watch w a).polls = w.polls ∧ (watch w a).turned = w.turned := by
    cases a with
    | task now mainMv lowActive => exact absurd rfl (other now mainMv lowActive)
    | get | enable | bypass => exact ⟨rfl,rfl⟩
  refine ⟨fun n => ?_,fun n b => ?_,fun n poll member => ?_⟩
  · rw [same.1,same.2]
    exact (inv.filtered n).congr (kept n).1 (kept n).2
  · exact (congrArg (InpFilter.limitTo · b) (kept n).2).trans (inv.limits n b)
  · rw [same.1] at member
    exact inv.heard n poll member

theorem run_inv {actions : List Action} (clock : NonWrapping limit limitDact actions) (lowActive : Inp → Bool) :
    Inv limit limitDact (clocks actions) (Run.run watch (begin limit limitDact lowActive) actions) := by
  induction actions using List.reverseRecOn with
  | nil => exact begin_inv lowActive
  | append_singleton actions a ih =>
    have inv := ih clock.before
    obtain ⟨sorted,room⟩ := clock
    rw [clocks_append] at sorted room
    rw [Run.run_append,clocks_append]
    cases a with
    | task now mainMv lowActive =>
      exact watch_task inv (fun u member => (List.pairwise_append.mp sorted).2.2 u member now List.mem_cons_self)
        (room now (List.mem_append_right _ List.mem_cons_self)) mainMv lowActive
    | get | enable | bypass =>
      rw [show clocks [_] = [] from rfl,List.append_nil]
      exact watch_other inv (fun _ _ _ => nofun)

theorem debounced_iff {past : List Nat} {w : Watch} (inv : Inv limit limitDact past w) (a : Action)
    (room : ∀ now ∈ clocks [a], ∀ n, now + limit n < 2 ^ 32 ∧ now + limitDact n < 2 ^ 32) : Debounced w a ↔ ¬ Hasty w a := by
  by_cases other : ∀ now mainMv lowActive, a ≠ .task now mainMv lowActive
  · have idle : ¬ Hasty w a := by
      cases a with
      | task now mainMv lowActive => exact absurd rfl (other now mainMv lowActive)
      | get | enable | bypass => exact id
    exact ⟨fun _ => idle,fun _ n changed => absurd (step_other other n).1 changed⟩
  push Not at other
  obtain ⟨now,mainMv,lowActive,rfl⟩ := other
  have fits := inv.fits (room now List.mem_cons_self)
  have pin (n : Inp) : (step w.statics (.task now mainMv lowActive)).pins n =
      visit (powered w.statics mainMv) now lowActive n (w.statics.pins n) := inpTask_pins _ _ _ _ n
  have own {n : Inp} (evaluated : Evaluated w.statics mainMv n) :=
    polled_debounced_iff (seen lowActive n) (inv.filtered n) (fits n)
  constructor
  · rintro debounced ⟨n,evaluated,sees,registered,turned⟩
    refine (own evaluated).mp (fun changed => ?_) ⟨sees,registered,turned⟩
    rw [← visit_evaluated evaluated now lowActive,← pin] at changed ⊢
    obtain ⟨now',mainMv',lowActive',same,_,_,quiet⟩ := debounced n changed
    obtain ⟨rfl,rfl,rfl⟩ := Action.task.inj same
    exact quiet
  · intro patient n changed
    by_cases evaluated : Evaluated w.statics mainMv n
    · have quiet := (own evaluated).mpr fun hasty => patient ⟨n,evaluated,hasty⟩
      rw [← visit_evaluated evaluated now lowActive,← pin] at quiet
      refine ⟨now,mainMv,lowActive,rfl,evaluated,?_,quiet changed⟩
      rw [pin,visit_evaluated evaluated] at changed ⊢
      rcases polled_cases (seen lowActive n) (fits n) with ⟨same,next⟩ | ⟨_,_,next⟩ | ⟨_,_,_,next⟩
      · rw [next] at changed
        exact absurd rfl changed
      · rw [next] at changed
        exact absurd rfl changed
      · rw [next]
    · rw [pin,visit_skipped evaluated] at changed
      exact absurd rfl changed

/-- Over any actions with a clock that does not wrap, the bits change as the limits have it, exactly if no poll is hasty. -/
theorem debounced_iff_patient (limit limitDact lowActive) {actions : List Action} (clock : NonWrapping limit limitDact actions) :
    (∀ before a rest, actions = before ++ a :: rest → Debounced (Run.run watch (begin limit limitDact lowActive) before) a) ↔
      ∀ before a rest, actions = before ++ a :: rest → ¬ Hasty (Run.run watch (begin limit limitDact lowActive) before) a := by
  have step {before : List Action} {a : Action} {rest : List Action} (split : actions = before ++ a :: rest) :
      Debounced (Run.run watch (begin limit limitDact lowActive) before) a ↔
        ¬ Hasty (Run.run watch (begin limit limitDact lowActive) before) a := by
    rw [split] at clock
    refine debounced_iff (run_inv clock.before lowActive) a fun now member => clock.room now ?_
    rw [← List.singleton_append,clocks_append,clocks_append]
    exact List.mem_append_right _ (List.mem_append_left _ member)
  exact forall₄_congr fun before a rest split => step split

end Trace

end Run

section Examples

/-- The levels with all inputs inactive but the key, which follows `key`. -/
def keyLevel (key : Bool) : Inp → Bool := fun n => if n = .key then key else inpInverted n

def keyOn : List Action := [.enable true,.task 900 12000 (keyLevel false),.task 1000 12000 (keyLevel true)]

/-- The key is on for longer than both limits. -/
def keyOnOff : List Action := keyOn ++ [.get,.task 1600 12000 (keyLevel false)]

theorem debounced_iff_patient_keyOn : Debounced (Run.run watch (begin (fun _ => 100) (fun _ => 500) (keyLevel false)) (keyOn ++ [.get]))
      (.task 1600 12000 (keyLevel false)) ∧
    ((Run.run watch (begin (fun _ => 100) (fun _ => 500) (keyLevel false)) keyOnOff).statics.pins .key).state = false := by
  have clock : NonWrapping (fun _ => 100) (fun _ => 500) keyOnOff := by
    refine ⟨by decide,fun now member n => ?_⟩
    have early : now ≤ 1600 := by
      revert now
      decide
    omega
  have patient : Run.Admits watch (fun w a => ¬ Hasty w a) (begin (fun _ => 100) (fun _ => 500) (keyLevel false)) keyOnOff := by
    decide +kernel
  refine ⟨?_,by decide +kernel⟩
  exact (debounced_iff_patient (fun _ => 100) (fun _ => 500) (keyLevel false) clock).mpr
    ((Run.admits_iff watch _ _ keyOnOff).mp patient) (keyOn ++ [.get]) _ [] rfl

/-- A contact that opens 200 ms after the key is on ends it, where the limit is 500 ms. -/
theorem keyOff_hasty : ¬ Debounced (Run.run watch (begin (fun _ => 100) (fun _ => 500) (keyLevel false)) (keyOn ++ [.get]))
    (.task 1200 12000 (keyLevel false)) := by
  intro debounced
  obtain ⟨now,mainMv,lowActive,same,_,_,quiet⟩ := debounced .key (by decide)
  obtain ⟨rfl,_⟩ := Action.task.inj same
  exact absurd (quiet (1000,true) (by decide) (by decide)) (by decide)

end Examples

end JcaFirmware.InpTask
