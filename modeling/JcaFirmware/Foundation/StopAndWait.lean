import JcaFirmware.Foundation.Run
import Mathlib.Tactic.SplitIfs

/-! Stop and wait over a line that loses and garbles: a sender gives one item after the other to a receiver, each only when
the one before was answered well, and gives up otherwise. Both ways keep the order. -/
namespace JcaFirmware.Foundation.StopAndWait

variable {Item State : Type}

/-- What is still to be sent; while it waits, what comes after the item that is out. -/
inductive Sender (Item : Type)
  | ready (rest : List Item)
  | waiting (rest : List Item)
  | failed
deriving DecidableEq

structure Link (Item State : Type) where
  sender : Sender Item
  up : List Item
  state : State
  down : List Item

/-- A step of a party, or of the line between them: a first item becomes others, or the receiver speaks unasked. -/
inductive Input (Item State : Type)
  | send
  | serve
  | change (state : State)
  | garbleUp (items : List Item)
  | garbleDown (items : List Item)
  | chatter (item : Item)
  | read
  | timeout

section Steps
variable (serve : Item → State → Option Item × State) (good bad : Item → Bool)

def Link.step (l : Link Item State) : Input Item State → Link Item State
  | .send =>
    match l.sender with
    | .ready (item :: rest) => {l with sender := .waiting rest, up := l.up ++ [item]}
    | _ => l
  | .serve =>
    match l.up with
    | [] => l
    | item :: up => {l with up, state := (serve item l.state).2, down := l.down ++ (serve item l.state).1.toList}
  | .change state => {l with state}
  | .garbleUp items =>
    match l.up with
    | [] => l
    | _ :: up => {l with up := items ++ up}
  | .garbleDown items =>
    match l.down with
    | [] => l
    | _ :: down => {l with down := items ++ down}
  | .chatter item => {l with down := l.down ++ [item]}
  | .read =>
    match l.sender,l.down with
    | .waiting rest,item :: down =>
      {l with down, sender := if good item then .ready rest else if bad item then .failed else .waiting rest}
    | _,_ => l
  | .timeout =>
    match l.sender with
    | .waiting _ => {l with sender := .failed}
    | _ => l

/-- What the receiver has served well, behind a step. -/
def Link.log (l : Link Item State) (log : List Item) : Input Item State → List Item
  | .serve =>
    match l.up with
    | [] => log
    | item :: _ => if (serve item l.state).1.any good then log ++ [item] else log
  | _ => log

/-- What it has served well in a run, in the order in which it has. -/
def Link.logged (l : Link Item State) (log : List Item) : List (Input Item State) → List Item
  | [] => log
  | input :: inputs => (l.step serve good bad input).logged (l.log serve good log input) inputs

/-- The receiver never answers the item well. -/
def Refused (item : Item) : Prop := ∀ state, ∀ answer ∈ (serve item state).1, good answer = false

/-- The receiver changes only as it may, no noise is taken for an item, and none for a good answer. -/
def Fair (change : State → State → Prop) (l : Link Item State) : Input Item State → Prop
  | .change state => change l.state state
  | .garbleUp items => ∀ item ∈ items, Refused serve good item
  | .garbleDown items => ∀ item ∈ items, good item = false
  | .chatter item => good item = false
  | _ => True

/-- The receiver has served these items, each once, in their order and well, with its own changes between them. -/
inductive Served (change : State → State → Prop) (start : State) : List Item → State → Prop
  | start : Served change start [] start
  | item {items : List Item} {state : State} (served : Served change start items state) (item answer : Item)
      (answers : (serve item state).1 = some answer) (well : good answer = true) :
      Served change start (items ++ [item]) (serve item state).2
  | change {items : List Item} {state next : State} (served : Served change start items state) (may : change state next) :
      Served change start items next

end Steps

section Exchanges
variable {serve : Item → State → Option Item × State} {good bad : Item → Bool} {change : State → State → Prop} {start : State}
  {all : List Item}

def Silent (good : Item → Bool) (down : List Item) : Prop := ∀ item ∈ down, good item = false

/-- How far the exchange is, with what the receiver has served well; once an item or its answer is lost, no good answer comes any more. -/
inductive Exchange (serve : Item → State → Option Item × State) (good : Item → Bool) (change : State → State → Prop) (start : State)
    (all : List Item) : Link Item State → List Item → Prop
  | ready (sent rest : List Item) (state : State) (down : List Item) (parts : all = sent ++ rest)
      (served : Served serve good change start sent state) (silent : Silent good down) :
      Exchange serve good change start all ⟨.ready rest,[],state,down⟩ sent
  | asked (sent rest : List Item) (item : Item) (state : State) (down : List Item) (parts : all = sent ++ item :: rest)
      (served : Served serve good change start sent state) (silent : Silent good down) :
      Exchange serve good change start all ⟨.waiting rest,[item],state,down⟩ sent
  | answered (sent rest : List Item) (state : State) (before behind : List Item) (answer : Item) (parts : all = sent ++ rest)
      (served : Served serve good change start sent state) (quiet : Silent good before) (well : good answer = true)
      (silent : Silent good behind) : Exchange serve good change start all ⟨.waiting rest,[],state,before ++ answer :: behind⟩ sent
  | lost (rest up : List Item) (state : State) (down log : List Item) (refused : ∀ item ∈ up, Refused serve good item) (silent : Silent good down) :
      Exchange serve good change start all ⟨.waiting rest,up,state,down⟩ log
  | failed (up : List Item) (state : State) (down log : List Item) : Exchange serve good change start all ⟨.failed,up,state,down⟩ log

theorem Silent.append {first second : List Item} (one : Silent good first) (two : Silent good second) : Silent good (first ++ second) :=
  fun item member => (List.mem_append.mp member).elim (one item) (two item)

theorem Silent.single {item : Item} (silent : good item = false) : Silent good [item] := fun other member => by
  obtain rfl := List.mem_singleton.mp member
  exact silent

theorem Silent.tail {item : Item} {down : List Item} (silent : Silent good (item :: down)) : Silent good down :=
  fun other member => silent other (List.mem_cons_of_mem _ member)

/-- An answer that is not good is passed over, or ends the exchange. -/
theorem Exchange.passed {rest up : List Item} {state : State} {down log : List Item} {item : Item} (silent : good item = false)
    (exchange : Exchange serve good change start all ⟨.waiting rest,up,state,down⟩ log) :
    Exchange serve good change start all (Link.step serve good bad ⟨.waiting rest,up,state,item :: down⟩ .read) log := by
  unfold Link.step
  dsimp only
  rw [silent,if_neg Bool.noConfusion]
  split_ifs
  · exact .failed up state down log
  · exact exchange

theorem Exchange.step {l : Link Item State} {log : List Item} (exchange : Exchange serve good change start all l log)
    (input : Input Item State) (fair : Fair serve good change l input) :
    Exchange serve good change start all (l.step serve good bad input) (l.log serve good log input) := by
  cases exchange with
  | ready _ rest state down parts served silent =>
    cases input with
    | send =>
      cases rest with
      | nil => exact .ready log [] state down parts served silent
      | cons item rest => exact .asked log rest item state down parts served silent
    | serve | garbleUp | read | timeout => exact .ready log rest state down parts served silent
    | change next => exact .ready log rest next down parts (served.change fair) silent
    | garbleDown items =>
      cases down with
      | nil => exact .ready log rest state [] parts served silent
      | cons item down => exact .ready log rest state (items ++ down) parts served (.append fair silent.tail)
    | chatter item => exact .ready log rest state (down ++ [item]) parts served (silent.append (.single fair))
  | asked _ rest item state down parts served silent =>
    cases input with
    | send => exact .asked log rest item state down parts served silent
    | serve =>
      unfold Link.step Link.log
      dsimp only
      cases answers : (serve item state).1 with
      | none => exact .lost rest [] (serve item state).2 (down ++ []) _ nofun (silent.append nofun)
      | some answer =>
        cases well : good answer with
        | true =>
          have parts : all = log ++ [item] ++ rest := by rw [parts,List.append_assoc,List.singleton_append]
          rw [Option.any_some,if_pos well]
          exact .answered (log ++ [item]) rest (serve item state).2 down [] answer parts (served.item item answer answers well) silent well nofun
        | false => exact .lost rest [] (serve item state).2 (down ++ [answer]) _ nofun (silent.append (.single well))
    | change next => exact .asked log rest item next down parts (served.change fair) silent
    | garbleUp items => exact .lost rest (items ++ []) state down log (by rw [List.append_nil]; exact fair) silent
    | garbleDown items =>
      cases down with
      | nil => exact .asked log rest item state [] parts served silent
      | cons _ down => exact .asked log rest item state (items ++ down) parts served (.append fair silent.tail)
    | chatter other => exact .asked log rest item state (down ++ [other]) parts served (silent.append (.single fair))
    | read =>
      cases down with
      | nil => exact .asked log rest item state [] parts served silent
      | cons other down => exact .passed (silent other List.mem_cons_self) (.asked log rest item state down parts served silent.tail)
    | timeout => exact .failed [item] state down log
  | answered _ rest state before behind answer parts served quiet well silent =>
    cases input with
    | send | serve | garbleUp => exact .answered log rest state before behind answer parts served quiet well silent
    | change next => exact .answered log rest next before behind answer parts (served.change fair) quiet well silent
    | garbleDown items =>
      cases before with
      | nil => exact .lost rest [] state (items ++ behind) log nofun (.append fair silent)
      | cons _ before =>
        have moved : items ++ (before ++ answer :: behind) = items ++ before ++ answer :: behind := (List.append_assoc _ _ _).symm
        unfold Link.step
        dsimp only [List.cons_append]
        rw [moved]
        exact .answered log rest state (items ++ before) behind answer parts served (.append fair quiet.tail) well silent
    | chatter item =>
      unfold Link.step
      dsimp only
      rw [List.append_assoc,List.cons_append]
      exact .answered log rest state before (behind ++ [item]) answer parts served quiet well (silent.append (.single fair))
    | read =>
      cases before with
      | nil =>
        unfold Link.step
        dsimp only [List.nil_append]
        rw [well,if_pos rfl]
        exact .ready log rest state behind parts served silent
      | cons item before =>
        exact .passed (quiet item List.mem_cons_self) (.answered log rest state before behind answer parts served quiet.tail well silent)
    | timeout => exact .failed [] state (before ++ answer :: behind) log
  | lost rest up state down _ refused silent =>
    cases input with
    | send => exact .lost rest up state down log refused silent
    | serve =>
      cases up with
      | nil => exact .lost rest [] state down log nofun silent
      | cons item up =>
        have others : ∀ item ∈ up, Refused serve good item := fun other member => refused other (List.mem_cons_of_mem _ member)
        refine .lost rest up (serve item state).2 (down ++ (serve item state).1.toList) _ others (silent.append fun answer member => ?_)
        exact refused item List.mem_cons_self state answer (Option.mem_toList.mp member)
    | change next => exact .lost rest up next down log refused silent
    | garbleUp items =>
      cases up with
      | nil => exact .lost rest [] state down log nofun silent
      | cons item up =>
        refine .lost rest (items ++ up) state down log (fun other member => ?_) silent
        exact (List.mem_append.mp member).elim (fair other) fun member => refused other (List.mem_cons_of_mem _ member)
    | garbleDown items =>
      cases down with
      | nil => exact .lost rest up state [] log refused silent
      | cons _ down => exact .lost rest up state (items ++ down) log refused (.append fair silent.tail)
    | chatter item => exact .lost rest up state (down ++ [item]) log refused (silent.append (.single fair))
    | read =>
      cases down with
      | nil => exact .lost rest up state [] log refused silent
      | cons item down => exact .passed (silent item List.mem_cons_self) (.lost rest up state down log refused silent.tail)
    | timeout => exact .failed up state down log
  | failed up state down =>
    cases input with
    | send | read | timeout => exact .failed up state down log
    | serve =>
      cases up with
      | nil => exact .failed [] state down log
      | cons item up => exact .failed up _ _ _
    | change next => exact .failed up next down log
    | garbleUp items =>
      cases up with
      | nil => exact .failed [] state down log
      | cons _ up => exact .failed (items ++ up) state down log
    | garbleDown items =>
      cases down with
      | nil => exact .failed up state [] log
      | cons _ down => exact .failed up state (items ++ down) log
    | chatter item => exact .failed up state (down ++ [item]) log

theorem Exchange.run {l : Link Item State} {log : List Item} (exchange : Exchange serve good change start all l log)
    (inputs : List (Input Item State)) (fair : Run.Admits (Link.step serve good bad) (Fair serve good change) l inputs) :
    Exchange serve good change start all (Run.run (Link.step serve good bad) l inputs) (l.logged serve good bad log inputs) := by
  induction inputs generalizing l log with
  | nil => exact exchange
  | cons input inputs ih => exact ih (exchange.step input fair.1) fair.2

/-- When the sender is done the receiver has served every item, each once, in order and well, whatever the line did, and nothing
else. -/
theorem all_served {state : State} {down : List Item} (silent : Silent good down) (inputs : List (Input Item State))
    (fair : Run.Admits (Link.step serve good bad) (Fair serve good change) ⟨.ready all,[],state,down⟩ inputs)
    (done : (Run.run (Link.step serve good bad) ⟨.ready all,[],state,down⟩ inputs).sender = .ready []) :
    Served serve good change state all (Run.run (Link.step serve good bad) ⟨.ready all,[],state,down⟩ inputs).state ∧
      Link.logged serve good bad ⟨.ready all,[],state,down⟩ [] inputs = all := by
  have begun : Exchange serve good change state all ⟨.ready all,[],state,down⟩ [] := .ready [] all state down rfl .start silent
  have exchange := begun.run inputs fair
  generalize Run.run (Link.step serve good bad) ⟨.ready all,[],state,down⟩ inputs = l at exchange done ⊢
  generalize Link.logged serve good bad ⟨.ready all,[],state,down⟩ [] inputs = log at exchange ⊢
  cases exchange with
  | ready _ rest state' down' parts served =>
    obtain rfl : rest = [] := Sender.ready.inj done
    rw [List.append_nil] at parts
    rw [parts]
    exact ⟨served,rfl⟩
  | asked | answered | lost | failed => exact nomatch done

end Exchanges

end JcaFirmware.Foundation.StopAndWait
