import JcaFirmware.AesRounds
import JcaFirmware.Foundation.Elementwise

/-! The chaining of blocks in memory, `aes_crypt_cbc`, with its path of words for aligned buffers and its path of bytes. -/
namespace JcaFirmware.Aes
open Foundation

section Code
variable (ctx : Context) (iv input output : Nat)

/-- A word of the little-endian host. -/
def load (m : Bytes) (p : Nat) : Word := getUlongLe (m p) (m (p + 1)) (m (p + 2)) (m (p + 3))

def store (m : Bytes) (p : Nat) (w : Word) : Bytes := m.write p (putUlongLe w)

def loadBlock (m : Bytes) (p : Nat) : Block := ⟨load m p,load m (p + 4),load m (p + 8),load m (p + 12)⟩

def storeBlock (m : Bytes) (p : Nat) (b : Block) : Bytes :=
  store (store (store (store m p b.x0) (p + 4) b.x1) (p + 8) b.x2) (p + 12) b.x3

def aesCryptEcb (mode : Mode) (m : Bytes) : Bytes := storeBlock m output (aesCryptEcb32 ctx mode (loadBlock m input))

/-- The turn of decryption for aligned buffers, -/
def decryptWords (m : Bytes) : Bytes :=
  let temp := m.read input 16
  let m := aesCryptEcb ctx input output .decrypt m
  (List.range 4).foldl (fun m i =>
    let m := store m (output + 4 * i) (load m (output + 4 * i) ^^^ load m (iv + 4 * i))
    m.write (iv + 4 * i) ((temp.drop (4 * i)).take 4)) m

/-- and for any other. -/
def decryptBytes (m : Bytes) : Bytes :=
  let temp := m.read input 16
  let m := aesCryptEcb ctx input output .decrypt m
  let m := (List.range 16).foldl (fun m i => m.write (output + i) [m (output + i) ^^^ m (iv + i)]) m
  m.write iv temp

def encryptWords (m : Bytes) : Bytes :=
  let m := (List.range 4).foldl (fun m i => store m (output + 4 * i) (load m (input + 4 * i) ^^^ load m (iv + 4 * i))) m
  let m := aesCryptEcb ctx output output .encrypt m
  (List.range 4).foldl (fun m i => store m (iv + 4 * i) (load m (output + 4 * i))) m

def encryptBytes (m : Bytes) : Bytes :=
  let m := (List.range 16).foldl (fun m i => m.write (output + i) [m (input + i) ^^^ m (iv + i)]) m
  let m := aesCryptEcb ctx output output .encrypt m
  m.write iv (m.read output 16)

def u32Optimise : Bool := (output ||| input ||| iv) &&& 3 == 0

def cbcTurn (mode : Mode) (words : Bool) (input output : Nat) (m : Bytes) : Bytes :=
  match mode with
  | .decrypt => if words then decryptWords ctx iv input output m else decryptBytes ctx iv input output m
  | .encrypt => if words then encryptWords ctx iv input output m else encryptBytes ctx iv input output m

def cbcLoop (mode : Mode) (words : Bool) (length input output : Nat) (m : Bytes) : Bytes :=
  if length = 0 then m
  else cbcLoop mode words (length - 16) (input + 16) (output + 16) (cbcTurn ctx iv mode words input output m)
termination_by length

def aesCryptCbc (mode : Mode) (length : Nat) (m : Bytes) : Bytes :=
  cbcLoop ctx iv mode (u32Optimise iv input output) length input output m

end Code

section Bytes

def Block.bytes (b : Block) : List UInt8 := b.words.flatMap putUlongLe

def blockOf (bytes : List UInt8) : Block :=
  let word := fun i => getUlongLe (bytes.getD i 0) (bytes.getD (i + 1) 0) (bytes.getD (i + 2) 0) (bytes.getD (i + 3) 0)
  ⟨word 0,word 4,word 8,word 12⟩

@[simp] theorem length_putUlongLe (w : Word) : (putUlongLe w).length = 4 := rfl

@[simp] theorem length_bytes (b : Block) : b.bytes.length = 16 := rfl

theorem loadBlock_eq (m : Bytes) (p : Nat) : loadBlock m p = blockOf (m.read p 16) := rfl

theorem storeBlock_eq (m : Bytes) (p : Nat) (b : Block) : storeBlock m p b = m.write p b.bytes := by
  have first := m.write_append p (putUlongLe b.x0) (putUlongLe b.x1)
  have second := m.write_append p (putUlongLe b.x0 ++ putUlongLe b.x1) (putUlongLe b.x2)
  have third := m.write_append p (putUlongLe b.x0 ++ putUlongLe b.x1 ++ putUlongLe b.x2) (putUlongLe b.x3)
  simp only [List.length_append,length_putUlongLe] at first second third
  rw [storeBlock,store,store,store,store,first,second,third]
  rfl

theorem putUlongLe_load (m : Bytes) (p : Nat) : putUlongLe (load m p) = m.read p 4 := by
  have bytes := byteOf_wordOf (m p).toBitVec (m (p + 1)).toBitVec (m (p + 2)).toBitVec (m (p + 3)).toBitVec
  rw [load,getUlongLe_eq]
  simp only [putUlongLe,List.range_succ,List.range_zero,List.nil_append,List.cons_append,List.map_cons,List.map_nil,bytes,Bytes.read]
  rfl

theorem putUlongLe_xor (v w : Word) : putUlongLe (v ^^^ w) = List.zipWith (· ^^^ ·) (putUlongLe v) (putUlongLe w) := by
  simp only [putUlongLe,List.range_succ,List.range_zero,List.nil_append,List.cons_append,List.map_cons,List.map_nil,byteOf_xor]
  rfl

theorem blockOf_bytes (b : Block) : blockOf b.bytes = b := by
  have word (w : Word) : getUlongLe ⟨byteOf w 0⟩ ⟨byteOf w 1⟩ ⟨byteOf w 2⟩ ⟨byteOf w 3⟩ = w := by
    rw [getUlongLe_eq]
    exact wordOf_byteOf w
  ext1 <;> exact word _

theorem bytes_blockOf (m : Bytes) (p : Nat) : (blockOf (m.read p 16)).bytes = m.read p 16 := by
  rw [← loadBlock_eq]
  simp only [Block.bytes,Block.words,loadBlock,List.flatMap_cons,List.flatMap_nil,List.append_nil,putUlongLe_load]
  rw [show 16 = 4 + (4 + (4 + 4)) by rfl,Bytes.read_add,Bytes.read_add,Bytes.read_add]

theorem bytes_xor (x k : Block) : (x.xor k).bytes = List.zipWith (· ^^^ ·) x.bytes k.bytes := by
  simp only [Block.bytes,Block.words,Block.xor,List.flatMap_cons,List.flatMap_nil,List.append_nil]
  rw [List.zipWith_append (by rfl),List.zipWith_append (by rfl),List.zipWith_append (by rfl)]
  rw [← putUlongLe_xor,← putUlongLe_xor,← putUlongLe_xor,← putUlongLe_xor]
  rw [BitVec.xor_comm k.x0,BitVec.xor_comm k.x1,BitVec.xor_comm k.x2,BitVec.xor_comm k.x3]

/-- The blocks of the memory from an address on. -/
def blocksAt (m : Bytes) (p n : Nat) : List Block := (List.range n).map fun i => blockOf (m.read (p + 16 * i) 16)

def bytesOfBlocks (bs : List Block) : List UInt8 := bs.flatMap Block.bytes

theorem length_bytesOfBlocks (bs : List Block) : (bytesOfBlocks bs).length = 16 * bs.length := by
  induction bs with
  | nil => rfl
  | cons b bs ih =>
    rw [bytesOfBlocks,List.flatMap_cons,← bytesOfBlocks,List.length_append,ih,length_bytes,List.length_cons]
    omega

theorem blocksAt_succ (m : Bytes) (p n : Nat) : blocksAt m p (n + 1) = blockOf (m.read p 16) :: blocksAt m (p + 16) n := by
  rw [blocksAt,List.range_succ_eq_map,List.map_cons,List.map_map]
  congr 1
  apply List.map_congr_left
  intro i _
  simp only [Function.comp_apply]
  congr 2
  omega

theorem bytesOfBlocks_blocksAt (m : Bytes) (p n : Nat) : bytesOfBlocks (blocksAt m p n) = m.read p (16 * n) := by
  induction n generalizing p with
  | zero => rfl
  | succ n ih =>
    rw [blocksAt_succ,bytesOfBlocks,List.flatMap_cons,← bytesOfBlocks,ih,bytes_blockOf,← Bytes.read_add]
    congr 1
    omega

theorem blocksAt_congr {m m' : Bytes} {p p' n : Nat} (same : m.read p (16 * n) = m'.read p' (16 * n)) :
    blocksAt m p n = blocksAt m' p' n := by
  induction n generalizing p p' with
  | zero => rfl
  | succ n ih =>
    rw [Nat.mul_succ,Nat.add_comm,Bytes.read_add,Bytes.read_add] at same
    obtain ⟨first,rest⟩ := List.append_inj same (by rw [Bytes.length_read,Bytes.length_read])
    rw [blocksAt_succ,blocksAt_succ,first,ih rest]

theorem blocksAt_bytes {m : Bytes} {p : Nat} {bs : List Block} (held : m.read p (16 * bs.length) = bytesOfBlocks bs) :
    blocksAt m p bs.length = bs := by
  induction bs generalizing p with
  | nil => rfl
  | cons b bs ih =>
    rw [List.length_cons,Nat.mul_succ,Nat.add_comm,Bytes.read_add,bytesOfBlocks,List.flatMap_cons] at held
    obtain ⟨first,rest⟩ := List.append_inj held (by rw [Bytes.length_read,length_bytes])
    rw [List.length_cons,blocksAt_succ,first,ih rest,blockOf_bytes]

end Bytes

section Turns
variable (ctx : Context) {iv input output : Nat}

theorem store_load (m : Bytes) (p q r : Nat) :
    store m p (load m q ^^^ load m r) = m.write p (List.zipWith (· ^^^ ·) (m.read q 4) (m.read r 4)) := by
  rw [store,putUlongLe_xor,putUlongLe_load,putUlongLe_load]

theorem aesCryptEcb_eq (mode : Mode) (m : Bytes) :
    aesCryptEcb ctx input output mode m = m.write output (aesCryptEcb32 ctx mode (blockOf (m.read input 16))).bytes := by
  rw [aesCryptEcb,storeBlock_eq,loadBlock_eq]

/-- One turn of decryption, for either path. -/
theorem cbcTurn_decrypt (words : Bool) (apart : output + 16 ≤ iv ∨ iv + 16 ≤ output) (m : Bytes) :
    cbcTurn ctx iv .decrypt words input output m =
      (m.write output ((aesCryptEcb32 ctx .decrypt (blockOf (m.read input 16))).xor (blockOf (m.read iv 16))).bytes).write
        iv (blockOf (m.read input 16)).bytes := by
  rw [bytes_blockOf]
  set plain := aesCryptEcb32 ctx .decrypt (blockOf (m.read input 16)) with plainEq
  have result : (m.write output plain.bytes).write output (List.zipWith (· ^^^ ·) ((m.write output plain.bytes).read output 16)
      ((m.write output plain.bytes).read iv 16)) = m.write output (plain.xor (blockOf (m.read iv 16))).bytes := by
    have held : (m.write output plain.bytes).read output 16 = plain.bytes := m.read_write output plain.bytes
    rw [held,Bytes.read_write_apart _ (by rw [length_bytes]; exact apart),bytes_xor,bytes_blockOf]
    apply Bytes.write_write
    rw [List.length_zipWith,Bytes.length_read,length_bytes,Nat.min_self]
  cases words with
  | true =>
    have loop := @Bytes.foldl_zipWith_store (· ^^^ ·) 4 output output iv 4 (m.read input 16) (Bytes.length_read _ _ _)
      (Or.inl (Nat.le_refl output)) apart apart (m.write output plain.bytes)
    rw [cbcTurn,if_pos rfl,decryptWords,aesCryptEcb_eq,← result,← loop]
    simp only [store_load]
    rfl
  | false =>
    have loop := @Bytes.foldl_zipWith (· ^^^ ·) 1 output output iv 16 (Or.inl (Nat.le_refl output)) apart (m.write output plain.bytes)
    simp only [Nat.one_mul] at loop
    rw [cbcTurn,if_neg Bool.false_ne_true,decryptBytes,aesCryptEcb_eq,← result,← loop]
    rfl

/-- One turn of encryption, for either path. -/
theorem cbcTurn_encrypt (words : Bool) (later : output ≤ input ∨ input + 16 ≤ output)
    (apart : output + 16 ≤ iv ∨ iv + 16 ≤ output) (m : Bytes) :
    cbcTurn ctx iv .encrypt words input output m =
      (m.write output (aesCryptEcb32 ctx .encrypt ((blockOf (m.read input 16)).xor (blockOf (m.read iv 16)))).bytes).write
        iv (aesCryptEcb32 ctx .encrypt ((blockOf (m.read input 16)).xor (blockOf (m.read iv 16)))).bytes := by
  set mixed := (blockOf (m.read input 16)).xor (blockOf (m.read iv 16)) with mixedEq
  have bytes : List.zipWith (· ^^^ ·) (m.read input 16) (m.read iv 16) = mixed.bytes := by
    rw [mixedEq,bytes_xor,bytes_blockOf,bytes_blockOf]
  have coded : aesCryptEcb ctx output output .encrypt (m.write output mixed.bytes) =
      m.write output (aesCryptEcb32 ctx .encrypt mixed).bytes := by
    have held : (m.write output mixed.bytes).read output 16 = mixed.bytes := m.read_write output mixed.bytes
    rw [aesCryptEcb_eq,held,blockOf_bytes]
    exact Bytes.write_write m rfl
  have held : (m.write output (aesCryptEcb32 ctx .encrypt mixed).bytes).read output 16 = (aesCryptEcb32 ctx .encrypt mixed).bytes :=
    m.read_write output (aesCryptEcb32 ctx .encrypt mixed).bytes
  cases words with
  | true =>
    have first := @Bytes.foldl_zipWith (· ^^^ ·) 4 output input iv 4 later apart m
    -- the copy to `iv` is a loop that keeps one of its two operands
    have second := @Bytes.foldl_zipWith (fun b _ => b) 4 iv output output 4 (by omega) (by omega)
      (m.write output (aesCryptEcb32 ctx .encrypt mixed).bytes)
    have copy (bytes : List UInt8) : List.zipWith (fun b _ => b) bytes bytes = bytes := by
      rw [List.zipWith_self,List.map_id'']
      exact fun _ => rfl
    simp only [copy] at second
    rw [bytes] at first
    rw [held] at second
    rw [cbcTurn,if_pos rfl,encryptWords]
    simp only [store_load]
    rw [first,coded,← second]
    simp only [store,putUlongLe_load]
  | false =>
    have loop := @Bytes.foldl_zipWith (· ^^^ ·) 1 output input iv 16 later apart m
    simp only [Nat.one_mul] at loop
    rw [bytes] at loop
    rw [cbcTurn,if_neg Bool.false_ne_true,encryptBytes]
    rw [show (List.range 16).foldl (fun m i => m.write (output + i) [m (input + i) ^^^ m (iv + i)]) m = m.write output mixed.bytes
      from loop,coded,held]

end Turns

section Runs
variable (ctx : Context) {iv input output : Nat}

def turns (length : Nat) : Nat := (length + 15) / 16

/-- Where the buffers may lie: the output at the input, before it or behind it, and `iv` apart from both. -/
structure Layout (iv input output len : Nat) : Prop where
  later : output ≤ input ∨ input + len ≤ output
  outputApart : output + len ≤ iv ∨ iv + 16 ≤ output
  inputApart : input + len ≤ iv ∨ iv + 16 ≤ input

def encryptOf (m : Bytes) (iv input n : Nat) : List Block × Block :=
  cbcEncrypt Block.xor (aesCryptEcb32 ctx .encrypt) (blockOf (m.read iv 16)) (blocksAt m input n)

def decryptOf (m : Bytes) (iv input n : Nat) : List Block × Block :=
  cbcDecrypt Block.xor (aesCryptEcb32 ctx .decrypt) (blockOf (m.read iv 16)) (blocksAt m input n)

def resultOf (m : Bytes) (iv output : Nat) (result : List Block × Block) : Bytes :=
  (m.write output (bytesOfBlocks result.1)).write iv result.2.bytes

@[simp] theorem length_blocksAt (m : Bytes) (p n : Nat) : (blocksAt m p n).length = n := by
  rw [blocksAt,List.length_map,List.length_range]

@[simp] theorem length_encryptOf (m : Bytes) (iv input n : Nat) : (encryptOf ctx m iv input n).1.length = n := by
  rw [encryptOf,length_cbcEncrypt,length_blocksAt]

/-- The blocks of one turn and those of the others, written one after the other. -/
theorem resultOf_cons {m : Bytes} {b last : Block} {rest : List Block} {next : Block}
    (apart : output + 16 * (rest.length + 1) ≤ iv ∨ iv + 16 ≤ output) :
    resultOf ((m.write output b.bytes).write iv next.bytes) iv (output + 16) (rest,last) = resultOf m iv output (b :: rest,last) := by
  have placed := m.write_append output b.bytes (bytesOfBlocks rest)
  rw [length_bytes] at placed
  rw [resultOf,resultOf]
  dsimp only
  rw [Bytes.write_comm (m.write output b.bytes) (by rw [length_bytes,length_bytesOfBlocks]; omega),placed]
  exact Bytes.write_write _ rfl

theorem turns_succ {length n : Nat} (count : turns length = n + 1) : length ≠ 0 ∧ turns (length - 16) = n := by
  unfold turns at count ⊢
  omega

/-- What a turn leaves to the others: its own blocks lie before theirs. -/
theorem later_blocks {m : Bytes} {x y : Block} {n : Nat} (layout : Layout iv input output (16 * (n + 1))) :
    blocksAt ((m.write output x.bytes).write iv y.bytes) (input + 16) n = blocksAt m (input + 16) n ∧
      blockOf (((m.write output x.bytes).write iv y.bytes).read iv 16) = y := by
  constructor
  · have outputApart := layout.outputApart
    have inputApart := layout.inputApart
    have later := layout.later
    apply blocksAt_congr
    rw [Bytes.read_write_apart _ (by rw [length_bytes]; omega),Bytes.read_write_apart _ (by rw [length_bytes]; omega)]
  · have held := (m.write output x.bytes).read_write iv y.bytes
    rw [length_bytes] at held
    rw [held,blockOf_bytes]

theorem Layout.next {n : Nat} (layout : Layout iv input output (16 * (n + 1))) : Layout iv (input + 16) (output + 16) (16 * n) := by
  obtain ⟨later,outputApart,inputApart⟩ := layout
  exact ⟨by omega,by omega,by omega⟩

theorem cbcLoop_encrypt (words : Bool) {length n : Nat} (count : turns length = n) (layout : Layout iv input output (16 * n)) (m : Bytes) :
    cbcLoop ctx iv .encrypt words length input output m = resultOf m iv output (encryptOf ctx m iv input n) := by
  induction n generalizing length input output m with
  | zero =>
    have none : length = 0 := by unfold turns at count; omega
    rw [none,cbcLoop,if_pos rfl,resultOf,encryptOf]
    simp only [blocksAt,List.range_zero,List.map_nil,cbcEncrypt,bytesOfBlocks,List.flatMap_nil]
    rw [Bytes.write_nil,bytes_blockOf,Bytes.write_read]
  | succ n ih =>
    obtain ⟨some,rest⟩ := turns_succ count
    have apart := layout.outputApart
    have later := layout.later
    rw [cbcLoop,if_neg some,ih rest layout.next,cbcTurn_encrypt ctx words (by omega) (by omega)]
    obtain ⟨blocks,chained⟩ := later_blocks layout
    rw [encryptOf,blocks,chained,encryptOf,blocksAt_succ,cbcEncrypt]
    apply resultOf_cons
    rw [length_cbcEncrypt,length_blocksAt]
    exact apart

theorem cbcLoop_decrypt (words : Bool) {length n : Nat} (count : turns length = n) (layout : Layout iv input output (16 * n)) (m : Bytes) :
    cbcLoop ctx iv .decrypt words length input output m = resultOf m iv output (decryptOf ctx m iv input n) := by
  induction n generalizing length input output m with
  | zero =>
    have none : length = 0 := by unfold turns at count; omega
    rw [none,cbcLoop,if_pos rfl,resultOf,decryptOf]
    simp only [blocksAt,List.range_zero,List.map_nil,cbcDecrypt,bytesOfBlocks,List.flatMap_nil]
    rw [Bytes.write_nil,bytes_blockOf,Bytes.write_read]
  | succ n ih =>
    obtain ⟨some,rest⟩ := turns_succ count
    have apart := layout.outputApart
    rw [cbcLoop,if_neg some,ih rest layout.next,cbcTurn_decrypt ctx words (by omega)]
    obtain ⟨blocks,chained⟩ := later_blocks layout
    rw [decryptOf,blocks,chained,decryptOf,blocksAt_succ,cbcDecrypt]
    apply resultOf_cons
    rw [length_cbcDecrypt,length_blocksAt]
    exact apart

/-- A run writes the blocks of its mode. -/
def modeOf (mode : Mode) (m : Bytes) (iv input n : Nat) : List Block × Block :=
  match mode with
  | .decrypt => decryptOf ctx m iv input n
  | .encrypt => encryptOf ctx m iv input n

theorem cbcLoop_eq (mode : Mode) (words : Bool) {length : Nat} (layout : Layout iv input output (16 * turns length)) (m : Bytes) :
    cbcLoop ctx iv mode words length input output m = resultOf m iv output (modeOf ctx mode m iv input (turns length)) := by
  cases mode with
  | decrypt => exact cbcLoop_decrypt ctx words rfl layout m
  | encrypt => exact cbcLoop_encrypt ctx words rfl layout m

theorem resultOf_output {m : Bytes} {result : List Block × Block}
    (apart : output + 16 * result.1.length ≤ iv ∨ iv + 16 ≤ output) :
    (resultOf m iv output result).read output (16 * result.1.length) = bytesOfBlocks result.1 := by
  have held := m.read_write output (bytesOfBlocks result.1)
  rw [length_bytesOfBlocks] at held
  rw [resultOf,Bytes.read_write_apart _ (by rw [length_bytes]; omega),held]

theorem resultOf_iv (m : Bytes) (result : List Block × Block) : (resultOf m iv output result).read iv 16 = result.2.bytes := by
  have held := (m.write output (bytesOfBlocks result.1)).read_write iv result.2.bytes
  rwa [length_bytes] at held

theorem resultOf_outside {m : Bytes} {result : List Block × Block} {a : Nat}
    (outside : a < output ∨ output + 16 * result.1.length ≤ a) (outsideIv : a < iv ∨ iv + 16 ≤ a) : resultOf m iv output result a = m a := by
  rw [resultOf,Bytes.write_outside _ (by rw [length_bytes]; exact outsideIv),
    Bytes.write_outside _ (by rw [length_bytesOfBlocks]; exact outside)]

theorem turns_add (a l : Nat) : turns (16 * a + l) = a + turns l := by
  unfold turns
  omega

theorem cbcLoop_paths (mode : Mode) (first second : Bool) {length : Nat} (layout : Layout iv input output (16 * turns length)) (m : Bytes) :
    cbcLoop ctx iv mode first length input output m = cbcLoop ctx iv mode second length input output m := by
  rw [cbcLoop_eq ctx mode first layout,cbcLoop_eq ctx mode second layout]

-- On one path, the loop goes on where a call of it has stopped.
theorem cbcLoop_add (mode : Mode) (words : Bool) (a l : Nat) (m : Bytes) :
    cbcLoop ctx iv mode words l (input + 16 * a) (output + 16 * a) (cbcLoop ctx iv mode words (16 * a) input output m) =
      cbcLoop ctx iv mode words (16 * a + l) input output m := by
  induction a generalizing input output m with
  | zero =>
    rw [Nat.mul_zero,cbcLoop.eq_def ctx iv mode words 0,if_pos rfl,Nat.zero_add]
    rfl
  | succ a ih =>
    rw [cbcLoop.eq_def ctx iv mode words (16 * (a + 1)),if_neg (by omega)]
    rw [cbcLoop.eq_def ctx iv mode words (16 * (a + 1) + l),if_neg (by omega)]
    rw [show 16 * (a + 1) - 16 = 16 * a by omega,show 16 * (a + 1) + l - 16 = 16 * a + l by omega]
    rw [show input + 16 * (a + 1) = input + 16 + 16 * a by omega,show output + 16 * (a + 1) = output + 16 + 16 * a by omega]
    exact ih _

/-- Both paths end with the same memory, and whichever of them each of its calls takes, a buffer may be cut between blocks. -/
theorem cbcLoop_split (mode : Mode) (first second : Bool) {a l : Nat} (layout : Layout iv input output (16 * turns (16 * a + l))) (m : Bytes) :
    cbcLoop ctx iv mode first (16 * a + l) input output m = cbcLoop ctx iv mode second (16 * a + l) input output m ∧
      cbcLoop ctx iv mode second l (input + 16 * a) (output + 16 * a) (cbcLoop ctx iv mode first (16 * a) input output m) =
        cbcLoop ctx iv mode second (16 * a + l) input output m := by
  have front : turns (16 * a) = a := by unfold turns; omega
  have shorter : Layout iv input output (16 * turns (16 * a)) := by
    obtain ⟨later,outputApart,inputApart⟩ := layout
    rw [turns_add] at later outputApart inputApart
    rw [front]
    exact ⟨by omega,by omega,by omega⟩
  refine ⟨cbcLoop_paths ctx mode first second layout m,?_⟩
  rw [cbcLoop_paths ctx mode first second shorter]
  exact cbcLoop_add ctx mode second a l m

theorem cbcLoop_split_five :
    cbcLoop ⟨10,[]⟩ 0 .encrypt false (16 * 1 + 5) 17 17 (fun _ => 0) = cbcLoop ⟨10,[]⟩ 0 .encrypt true (16 * 1 + 5) 17 17 (fun _ => 0) ∧
      cbcLoop ⟨10,[]⟩ 0 .encrypt true 5 (17 + 16 * 1) (17 + 16 * 1) (cbcLoop ⟨10,[]⟩ 0 .encrypt false (16 * 1) 17 17 fun _ => 0) =
        cbcLoop ⟨10,[]⟩ 0 .encrypt true (16 * 1 + 5) 17 17 fun _ => 0 :=
  cbcLoop_split ⟨10,[]⟩ .encrypt false true ⟨by decide,by decide,by decide⟩ fun _ => 0

end Runs

section RoundTrip
variable {key : List UInt8} {keysize : Nat} {enc dec : Context} {iv input output iv' input' output' length : Nat} {m m' : Bytes}

theorem decryptOf_encryptOf (forward : aesSetkeyEnc key keysize = .ok enc) (backward : aesSetkeyDec key keysize = .ok dec) {n : Nat}
    (coded : m'.read input' (16 * n) = bytesOfBlocks (encryptOf enc m iv input n).1) (start : m'.read iv' 16 = m.read iv 16) :
    decryptOf dec m' iv' input' n = (blocksAt m input n,(encryptOf enc m iv input n).2) := by
  have blocks : blocksAt m' input' n = (encryptOf enc m iv input n).1 := by
    have held := @blocksAt_bytes m' input' (encryptOf enc m iv input n).1
    rw [length_encryptOf] at held
    exact held coded
  rw [decryptOf,blocks,start]
  exact cbcDecrypt_cbcEncrypt cipher.mask_mask (decrypt_encrypt forward backward) _ _

/-- Decryption of what encryption wrote, as a change of the memory. -/
theorem aesCryptCbc_decrypt (forward : aesSetkeyEnc key keysize = .ok enc) (backward : aesSetkeyDec key keysize = .ok dec)
    (layout : Layout iv input output (16 * turns length)) (layout' : Layout iv' input' output' (16 * turns length))
    (coded : m'.read input' (16 * turns length) = (aesCryptCbc enc iv input output .encrypt length m).read output (16 * turns length))
    (start : m'.read iv' 16 = m.read iv 16) :
    aesCryptCbc dec iv' input' output' .decrypt length m' =
      resultOf m' iv' output' (blocksAt m input (turns length),(encryptOf enc m iv input (turns length)).2) := by
  have written := @resultOf_output iv output m (encryptOf enc m iv input (turns length)) (by rw [length_encryptOf]; exact layout.outputApart)
  rw [length_encryptOf] at written
  rw [aesCryptCbc,cbcLoop_eq enc .encrypt _ layout,modeOf,written] at coded
  rw [aesCryptCbc,cbcLoop_eq dec .decrypt _ layout',modeOf,decryptOf_encryptOf forward backward coded start]

theorem resultOf_blocksAt {n : Nat} (apart : output' + 16 * n ≤ iv' ∨ iv' + 16 ≤ output') (last : Block) :
    (resultOf m' iv' output' (blocksAt m input n,last)).read output' (16 * n) = m.read input (16 * n) := by
  have plain := @resultOf_output iv' output' m' (blocksAt m input n,last) (by rw [length_blocksAt]; exact apart)
  dsimp only at plain
  rwa [length_blocksAt,bytesOfBlocks_blocksAt] at plain

/-- A buffer that was encrypted is decrypted again, wherever the ciphertext and the first `iv` have been moved to; `iv` is
left for the next call as encryption leaves it, and nothing else changes. -/
theorem aesCryptCbc_roundTrip (forward : aesSetkeyEnc key keysize = .ok enc) (backward : aesSetkeyDec key keysize = .ok dec)
    (layout : Layout iv input output (16 * turns length)) (layout' : Layout iv' input' output' (16 * turns length))
    (coded : m'.read input' (16 * turns length) = (aesCryptCbc enc iv input output .encrypt length m).read output (16 * turns length))
    (start : m'.read iv' 16 = m.read iv 16) :
    (aesCryptCbc dec iv' input' output' .decrypt length m').read output' (16 * turns length) = m.read input (16 * turns length) ∧
      (aesCryptCbc dec iv' input' output' .decrypt length m').read iv' 16 = (aesCryptCbc enc iv input output .encrypt length m).read iv 16 ∧
      ∀ a, (a < output' ∨ output' + 16 * turns length ≤ a) → (a < iv' ∨ iv' + 16 ≤ a) →
        aesCryptCbc dec iv' input' output' .decrypt length m' a = m' a := by
  rw [aesCryptCbc_decrypt forward backward layout layout' coded start]
  refine ⟨resultOf_blocksAt layout'.outputApart _,?_,fun a outside outsideIv => ?_⟩
  · rw [aesCryptCbc,cbcLoop_eq enc .encrypt _ layout,modeOf,resultOf_iv,resultOf_iv]
  · apply resultOf_outside _ outsideIv
    rwa [length_blocksAt]

theorem aesCryptCbc_roundTrip_sevens : ∃ enc dec, aesSetkeyEnc [] 128 = .ok enc ∧ aesSetkeyDec [] 128 = .ok dec ∧
    (aesCryptCbc dec 0 16 16 .decrypt 32 ((aesCryptCbc enc 0 16 16 .encrypt 32 fun _ => 7).write 0 (List.replicate 16 7))).read 16 32 =
      List.replicate 32 7 := by
  have forward : aesSetkeyEnc [] 128 = .ok ⟨10,expandKey 10 (keyWords [] 128)⟩ := rfl
  obtain ⟨dec,backward⟩ := aesSetkeyDec_ok forward
  have layout : Layout 0 16 16 (16 * turns 32) := ⟨by decide,by decide,by decide⟩
  have sevens (addr len : Nat) : Bytes.read (fun _ => 7) addr len = List.replicate len 7 := Bytes.read_replicate fun _ _ _ => rfl
  obtain ⟨plain,_⟩ := @aesCryptCbc_roundTrip _ _ _ dec 0 16 16 0 16 16 32 (fun _ => 7) _ forward backward layout layout
    (Bytes.read_write_apart _ (Or.inl (by decide))) ((Bytes.read_write _ 0 (List.replicate 16 7)).trans (sevens 0 16).symm)
  exact ⟨_,dec,forward,backward,plain.trans (sevens 16 32)⟩

end RoundTrip

end JcaFirmware.Aes
