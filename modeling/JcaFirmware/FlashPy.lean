import JcaFirmware.Boot
import JcaFirmware.Foundation.StopAndWait

/-! The upload of `flash.py` (`step_upload`, `_record_reply`) to the bootloader (`_tty_rx_parser`), record by record over a serial
line that loses and garbles. -/
namespace JcaFirmware.FlashPy
open Foundation Numeral Bootloader Ihex IntelHex CText Boot
open StopAndWait (Link Input Served Fair)

section Code

def tOk : List UInt8 := ascii "OK"

def tError : List UInt8 := ascii "ERROR"

/-- A line without the `"\\r \\t"` at its ends. -/
def strip (line : List UInt8) : List UInt8 :=
  let blank (ch : UInt8) : Bool := ch = 0x0D ∨ ch = 0x20 ∨ ch = 0x09
  ((line.dropWhile blank).reverse.dropWhile blank).reverse

def accepts (line : List UInt8) : Bool := strip line = tOk

def rejects (line : List UInt8) : Bool := strip line = tError

/-- What the bootloader prints when it is sent a line, with the end of the line that it prints. -/
def serve (line : List UInt8) (d : Device) : Option (List UInt8) × Device :=
  if d.stage = .bl then
    let (reply,d) := ttyRxParser line d
    (reply.map fun ok => (if ok then tOk else tError) ++ [0x0D],d)
  else (none,d)

/-- The bootloader gives up waiting, is reset, or loses its power; it is not started again meanwhile. -/
def leaves (sdk : Chsum) (d d' : Device) : Prop := d' = step sdk d .timeout ∨ ∃ kept internal, d' = step sdk d (.cut kept internal)

/-- `step_upload` on one end of the line and the bootloader on the other. -/
def upload (l : Link (List UInt8) Device) (input : Input (List UInt8) Device) : Link (List UInt8) Device := l.step serve accepts rejects input

/-- The lines that the bootloader has accepted in an upload, in the order in which it has. -/
def acceptedLines (l : Link (List UInt8) Device) (inputs : List (Input (List UInt8) Device)) : List (List UInt8) :=
  l.logged serve accepts rejects [] inputs

end Code

section Uploads
variable {sdk : Chsum} {d d' : Device}

/-- A line that is accepted, with what becomes of the parser. -/
def accepted (p : Parse State) (line : List UInt8) : Option (Parse State) :=
  match ihexParse (fun addr data s => .ok (extStorageWriteData addr data s)) false line p with
  | .ok (true,p) => some p
  | _ => none

theorem ttyRxParser_accepted {line : List UInt8} (answers : (ttyRxParser line d).1 = some true) :
    accepted ⟨d.addrHiword,d.boot⟩ line = some ⟨(ttyRxParser line d).2.addrHiword,(ttyRxParser line d).2.boot⟩ := by
  unfold ttyRxParser at answers ⊢
  split_ifs at answers ⊢ with record boot flash reset
  · obtain ⟨ok,p,parsed,_⟩ := ihexParse_bootloader line ⟨d.addrHiword,d.boot⟩
    rw [parsed] at answers ⊢
    obtain rfl : ok = true := Option.some.inj answers
    rw [accepted,parsed]

theorem serve_accepted {line answer : List UInt8} (answers : (serve line d).1 = some answer) (well : accepts answer = true) :
    accepted ⟨d.addrHiword,d.boot⟩ line = some ⟨(serve line d).2.addrHiword,(serve line d).2.boot⟩ := by
  unfold serve at answers ⊢
  by_cases bl : d.stage = .bl
  · rw [if_pos bl] at answers ⊢
    obtain ⟨ok,replied,rfl⟩ := Option.map_eq_some_iff.mp answers
    cases ok with
    | true => exact ttyRxParser_accepted replied
    | false => exact absurd well (by decide)
  · rw [if_neg bl] at answers
    exact nomatch answers

/-- The bootloader is in its loop or has left it, and its parser is where the records have brought it. -/
structure Parsed (start : Device) (records : List (List UInt8)) (d : Device) : Prop where
  loop : d.stage = .bl ∨ d.stage = .off
  parsed : records.foldlM accepted ⟨start.addrHiword,start.boot⟩ = some ⟨d.addrHiword,d.boot⟩

theorem leaves_parsed {start : Device} {records : List (List UInt8)} (parsed : Parsed start records d) (may : leaves sdk d d') :
    Parsed start records d' := by
  obtain ⟨loop,same⟩ := parsed
  obtain rfl | ⟨kept,internal,rfl⟩ := may
  · unfold step
    dsimp only
    split_ifs
    · exact ⟨Or.inr rfl,same⟩
    · exact ⟨loop,same⟩
  · unfold step Boot.cut
    obtain bl | off := loop
    · dsimp only
      rw [bl]
      dsimp only
      split_ifs
      all_goals exact ⟨Or.inr rfl,same⟩
    · dsimp only
      rw [off]
      dsimp only
      split_ifs
      all_goals exact ⟨Or.inr rfl,same⟩

theorem served_parsed {start : Device} (bl : start.stage = .bl) {records : List (List UInt8)}
    (served : Served serve accepts (leaves sdk) start records d) : Parsed start records d := by
  induction served with
  | start => exact ⟨Or.inl bl,rfl⟩
  | @item records d served record answer answers well ih =>
    refine ⟨?_,?_⟩
    · unfold serve
      split_ifs with bl
      · obtain off | same := (ttyRxParser_typed record d).stage
        · exact Or.inr off
        · exact Or.inl (same.trans bl)
      · exact ih.loop
    · rw [List.foldlM_append,ih.parsed]
      exact (Option.bind_some _ _).trans ((List.foldlM_cons ..).trans (by rw [serve_accepted answers well]; rfl))
  | change served may ih => exact leaves_parsed ih may

/-- A record that is accepted is where it belongs. -/
theorem accepted_spells {line : List UInt8} {r : Record} (spells : Spells line r) (short : line.length < 256) {p q : Parse State}
    (taken : accepted p line = some q) : q.addrHiword = (denote p.addrHiword [r]).1 ∧
      q.state.external = place p.state.external (denote p.addrHiword [r]).2 := by
  unfold accepted at taken
  rw [ihexParse_spells _ false spells short,perform] at taken
  rw [denote]
  cases kind : r.kind with
  | data =>
    rw [kind] at taken
    unfold extStorageWriteData at taken
    dsimp only at taken
    split_ifs at taken
    all_goals cases taken
    exact ⟨rfl,rfl⟩
  | endOfFile | segment | linear =>
    rw [kind] at taken
    obtain rfl := Option.some.inj taken
    exact ⟨rfl,rfl⟩
  | startSegment | startLinear =>
    rw [kind] at taken
    cases taken

theorem accepted_placed {lines : List (List UInt8)} {rs : List Record} (spells : List.Forall₂ Spells lines rs)
    (short : ∀ line ∈ lines, line.length < 256) {p q : Parse State} (all : lines.foldlM accepted p = some q) :
    q.state.external = place p.state.external (denote p.addrHiword rs).2 := by
  induction spells generalizing p with
  | nil =>
    obtain rfl := Option.some.inj all
    rfl
  | @cons line r lines rs first _ ih =>
    rw [List.foldlM_cons] at all
    obtain ⟨next,taken,rest⟩ := Option.bind_eq_some_iff.mp all
    obtain ⟨base,placed⟩ := accepted_spells first (short line List.mem_cons_self) taken
    have split : denote p.addrHiword (r :: rs) = _ := denote_append p.addrHiword [r] rs
    rw [ih (fun other member => short other (List.mem_cons_of_mem _ member)) rest,base,placed,split,place_append]

theorem spelled_valid {lines : List (List UInt8)} {rs : List Record} (spells : List.Forall₂ Spells lines rs) : ∀ r ∈ rs, r.Valid := by
  induction spells with
  | nil => exact nofun
  | cons first _ ih => exact List.forall_mem_cons.mpr ⟨first.1,ih⟩

/-- Where the parser stands at first makes no difference to a file for the region of the bootloader. -/
theorem closed_placed {lines : List (List UInt8)} {pieces : List Piece} (closed : Closed lines pieces)
    (above : ∀ piece ∈ pieces, fwAddr ≤ piece.1) {p q : Parse State} (all : lines.foldlM accepted p = some q) :
    q.state.external = place p.state.external pieces := by
  obtain ⟨rs,last,spells,short,_,ends,rfl⟩ := closed
  have final (base : Nat) : denote base [last] = (0,[]) := by
    rw [denote,ends]
    rfl
  have valid : ∀ r ∈ rs, r.Valid := fun r member => spelled_valid spells r (List.mem_append_left _ member)
  have region : 65536 ≤ fwAddr := by decide
  have same := denote_far valid (fun piece member => Nat.le_trans region (above piece member)) p.addrHiword
  rw [accepted_placed spells short all,denote_append,final,List.append_nil,same]

/-- When `flash.py` goes on behind the upload, the bootloader has accepted every record of the file, each once and in order, and no
other line, whatever was lost or garbled; so what the records of the file describe is in the external flash, and nothing else is
changed there. -/
theorem upload_accepted (records : List (List UInt8)) (bl : d.stage = .bl) (inputs : List (Input (List UInt8) Device))
    (fair : Run.Admits upload (Fair serve accepts (leaves sdk)) ⟨.ready records,[],d,[]⟩ inputs)
    (done : (Run.run upload ⟨.ready records,[],d,[]⟩ inputs).sender = .ready []) :
    acceptedLines ⟨.ready records,[],d,[]⟩ inputs = records ∧
      records.foldlM accepted ⟨d.addrHiword,d.boot⟩ =
        some ⟨(Run.run upload ⟨.ready records,[],d,[]⟩ inputs).state.addrHiword,(Run.run upload ⟨.ready records,[],d,[]⟩ inputs).state.boot⟩ ∧
      ∀ pieces, Closed records pieces → (∀ piece ∈ pieces, fwAddr ≤ piece.1) →
        (Run.run upload ⟨.ready records,[],d,[]⟩ inputs).state.boot.external = place d.boot.external pieces := by
  obtain ⟨served,logged⟩ := StopAndWait.all_served nofun inputs fair done
  have all := (served_parsed bl served).parsed
  exact ⟨logged,all,fun pieces closed above => closed_placed closed above all⟩

def smallRecords : List (List UInt8) := (ihexFlush 0 fwAddr [1,2,3]).2 ++ [endLine]

/-- A line of the banner comes late and is lost, and another one is passed over. -/
def smallUpload : List (Input (List UInt8) Device) :=
  [.chatter (ascii "BOOT STAY"),.send,.serve,.garbleDown [],.read,.send,.chatter (ascii "FLASH"),.serve,.read,.read,.send,.serve,.read]

-- The last upload has left its base.
def waiting : Device := {unit .bl with boot := {(unit .bl).boot with storageReady := true}, addrHiword := 0x3F0000}

theorem smallRecords_closed : Closed smallRecords [(fwAddr,[1,2,3])] := by
  have one : piecesOf fwAddr [1,2,3] = [(fwAddr,[1,2,3])] := by
    rw [piecesOf]
    decide
  have places := @Output.flush_places ⟨0,[]⟩ [] (Printed.nil 0) fwAddr [1,2,3] (by decide)
  rw [List.nil_append,one] at places
  exact places.closed

theorem upload_accepted_small : acceptedLines ⟨.ready smallRecords,[],waiting,[]⟩ smallUpload = smallRecords ∧
    (Run.run upload ⟨.ready smallRecords,[],waiting,[]⟩ smallUpload).state.boot.external = waiting.boot.external.write fwAddr [1,2,3] := by
  have banner : accepts (ascii "BOOT STAY") = false := by decide
  have flash : accepts (ascii "FLASH") = false := by decide
  obtain ⟨logged,_,placed⟩ := @upload_accepted Toolchain.toolChsum waiting smallRecords rfl smallUpload
    (Run.admits_of_forall _ _ _ _ fun l => by
      simp only [smallUpload,List.forall_mem_cons]
      exact ⟨banner,trivial,trivial,nofun,trivial,trivial,flash,trivial,trivial,trivial,trivial,trivial,trivial,nofun⟩)
    (by decide +kernel)
  exact ⟨logged,placed _ smallRecords_closed (by decide)⟩

end Uploads

end JcaFirmware.FlashPy
