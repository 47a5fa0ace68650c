import JcaFirmware.Aes
import JcaFirmware.Foundation.Cipher

/-! The rounds of the tables are those of the cipher: the substitution with its shift of the rows,
and the mixing of the columns, which is linear. Hence the key of decryption inverts that of encryption. -/
namespace JcaFirmware.Aes
open Foundation

section Bytes

theorem byteOf_xor (v w : Word) (i : Nat) : byteOf (v ^^^ w) i = byteOf v i ^^^ byteOf w i := by
  rw [byteOf,byteOf,byteOf,BitVec.ushiftRight_xor_distrib,BitVec.setWidth_xor]

theorem wordOf_xor (a b c d a' b' c' d' : BitVec 8) :
    wordOf (a ^^^ a') (b ^^^ b') (c ^^^ c') (d ^^^ d') = wordOf a b c d ^^^ wordOf a' b' c' d' := by
  ext i inside
  simp only [wordOf]
  grind

theorem byteOf_wordOf (a b c d : BitVec 8) :
    byteOf (wordOf a b c d) 0 = a ∧ byteOf (wordOf a b c d) 1 = b ∧ byteOf (wordOf a b c d) 2 = c ∧ byteOf (wordOf a b c d) 3 = d := by
  refine ⟨?_,?_,?_,?_⟩ <;> ext i inside <;> simp (disch := omega) [byteOf,wordOf,BitVec.getLsbD_of_ge] <;> grind

theorem wordOf_byteOf (w : Word) : wordOf (byteOf w 0) (byteOf w 1) (byteOf w 2) (byteOf w 3) = w := by
  ext i inside
  simp only [byteOf,wordOf]
  grind

theorem getUlongLe_eq (a b c d : UInt8) : getUlongLe a b c d = wordOf a.toBitVec b.toBitVec c.toBitVec d.toBitVec := by
  ext i inside
  simp only [getUlongLe,wordOf]
  grind

end Bytes

section Columns

/-- The product with `x` in the field of the cipher. -/
def xtime (b : BitVec 8) : BitVec 8 := b <<< 1 ^^^ if b.msb then 0x1B else 0

theorem xtime_xor (a b : BitVec 8) : xtime (a ^^^ b) = xtime a ^^^ xtime b := by
  rw [xtime,xtime,xtime,BitVec.msb_xor,BitVec.shiftLeft_xor_distrib]
  cases a.msb <;> cases b.msb <;> ext i inside <;> simp <;> grind

/-- The products with the column of `mix` and of its inverse, lowest byte first. -/
def mixByte (s : BitVec 8) : Word := wordOf (xtime s) s s (xtime s ^^^ s)

def unmixByte (s : BitVec 8) : Word :=
  let s2 := xtime s
  let s4 := xtime s2
  let s8 := xtime s4
  wordOf (s8 ^^^ s4 ^^^ s2) (s8 ^^^ s) (s8 ^^^ s4 ^^^ s) (s8 ^^^ s2 ^^^ s)

theorem mixByte_xor (a b : BitVec 8) : mixByte (a ^^^ b) = mixByte a ^^^ mixByte b := by
  rw [mixByte,mixByte,mixByte,xtime_xor,← wordOf_xor]
  congr 1
  ac_rfl

theorem unmixByte_xor (a b : BitVec 8) : unmixByte (a ^^^ b) = unmixByte a ^^^ unmixByte b := by
  simp only [unmixByte,xtime_xor,← wordOf_xor]
  congr 1 <;> ac_rfl

/-- The bytes of a table as the digits of a number. -/
def packed (t : List (BitVec 8)) : Nat := t.foldr (fun b rest => rest * 256 + b.toNat) 0

theorem getD_packed (t : List (BitVec 8)) (n : Nat) : t.getD n 0 = BitVec.ofNat 8 (packed t >>> (8 * n)) := by
  induction t generalizing n with
  | nil => simp [packed]
  | cons b t ih =>
    have small := b.isLt
    rw [packed,List.foldr_cons,← packed]
    cases n with
    | zero =>
      apply BitVec.eq_of_toNat_eq
      rw [List.getD_cons_zero,Nat.mul_zero,Nat.shiftRight_zero,BitVec.toNat_ofNat]
      omega
    | succ n =>
      have next : (packed t * 256 + b.toNat) >>> (8 * (n + 1)) = packed t >>> (8 * n) := by
        rw [show 8 * (n + 1) = 8 + 8 * n by omega,Nat.shiftRight_add]
        congr 1
        rw [Nat.shiftRight_eq_div_pow]
        omega
      rw [List.getD_cons_succ,ih,next]

/-- One table undoes another when it does so for every byte; the numbers are what the kernel computes with. -/
theorem getD_getD {t t' : List (BitVec 8)}
    (each : (List.range 256).all (fun n => packed t' >>> (8 * (packed t >>> (8 * n) % 256)) % 256 == n) = true) (b : BitVec 8) :
    t'.getD (t.getD b.toNat 0).toNat 0 = b := by
  have one := List.all_eq_true.mp each b.toNat (List.mem_range.mpr b.isLt)
  apply BitVec.eq_of_toNat_eq
  rw [getD_packed,getD_packed,BitVec.toNat_ofNat,BitVec.toNat_ofNat]
  exact eq_of_beq one

theorem rS_fS (b : BitVec 8) : rS (fS b) = b := by
  simp only [rS,fS,Array.getD_eq_getD_getElem?,← Array.getElem?_toList,← List.getD_eq_getElem?_getD]
  exact getD_getD (by decide +kernel) b

theorem fS_rS (b : BitVec 8) : fS (rS b) = b := by
  simp only [rS,fS,Array.getD_eq_getD_getElem?,← Array.getElem?_toList,← List.getD_eq_getElem?_getD]
  exact getD_getD (by decide +kernel) b

/-- A table of words is the table of bytes with each of them multiplied, -/
theorem ft0_eq : ft0.toList = fSb.toList.map mixByte := by decide +kernel

theorem rt0_eq : rt0.toList = rSb.toList.map unmixByte := by decide +kernel

theorem ft_eq (table : Nat) (b : BitVec 8) : ft table b = (mixByte (fS b)).rotateLeft (8 * table) := by
  have entry : ft0.getD b.toNat 0 = mixByte (fS b) := by
    simp only [fS,Array.getD_eq_getD_getElem?,← Array.getElem?_toList,← List.getD_eq_getElem?_getD]
    rw [ft0_eq]
    exact List.getD_map fSb.toList 0 mixByte
  rw [ft,entry]

theorem rt_eq (table : Nat) (b : BitVec 8) : rt table b = (unmixByte (rS b)).rotateLeft (8 * table) := by
  have entry : rt0.getD b.toNat 0 = unmixByte (rS b) := by
    simp only [rS,Array.getD_eq_getD_getElem?,← Array.getElem?_toList,← List.getD_eq_getElem?_getD]
    rw [rt0_eq]
    exact List.getD_map rSb.toList 0 unmixByte
  rw [rt,entry]

/-- The bytes of a column move to their next places. -/
def turn (w : Word) : Word := wordOf (byteOf w 3) (byteOf w 0) (byteOf w 1) (byteOf w 2)

theorem rotateLeft_turn (w : Word) :
    w.rotateLeft (8 * 0) = w ∧ w.rotateLeft (8 * 1) = turn w ∧ w.rotateLeft (8 * 2) = turn (turn w) ∧
      w.rotateLeft (8 * 3) = turn (turn (turn w)) := by
  simp only [turn,byteOf_wordOf]
  refine ⟨?_,?_,?_,?_⟩ <;> ext i inside <;> simp only [BitVec.getElem_rotateLeft,wordOf,byteOf] <;> grind

theorem turn_xor (v w : Word) : turn (v ^^^ w) = turn v ^^^ turn w := by
  simp only [turn,byteOf_xor,wordOf_xor]

/-- The bytes of a column, each multiplied and turned to its place. -/
def columnOf (f : BitVec 8 → Word) (w : Word) : Word :=
  f (byteOf w 0) ^^^ turn (f (byteOf w 1)) ^^^ turn (turn (f (byteOf w 2))) ^^^ turn (turn (turn (f (byteOf w 3))))

theorem turn_four (w : Word) : turn (turn (turn (turn w))) = w := by
  simp only [turn,byteOf_wordOf,wordOf_byteOf]

theorem columnOf_turn (f : BitVec 8 → Word) (w : Word) : columnOf f (turn w) = turn (columnOf f w) := by
  simp only [columnOf,turn_xor,turn_four]
  rw [turn]
  simp only [byteOf_wordOf]
  ac_rfl

section Inverse
variable {f g : BitVec 8 → Word} (linear : ∀ a b, g (a ^^^ b) = g a ^^^ g b)
include linear

theorem columnOf_xor (v w : Word) : columnOf g (v ^^^ w) = columnOf g v ^^^ columnOf g w := by
  simp only [columnOf,byteOf_xor,linear,turn_xor]
  ac_rfl

/-- What holds of a column of one byte holds of all. -/
theorem columnOf_inverse (unit : ∀ s, columnOf g (f s) = wordOf s 0 0 0) (w : Word) : columnOf g (columnOf f w) = w := by
  rw [columnOf.eq_def f,columnOf_xor linear,columnOf_xor linear,columnOf_xor linear]
  simp only [columnOf_turn,unit]
  simp only [turn,byteOf_wordOf,← wordOf_xor,BitVec.ofNat_eq_ofNat,BitVec.xor_zero,BitVec.zero_xor]
  exact wordOf_byteOf w

end Inverse

theorem unmix_mix (w : Word) : columnOf unmixByte (columnOf mixByte w) = w := by
  apply columnOf_inverse unmixByte_xor
  intro s
  simp only [columnOf,mixByte,byteOf_wordOf]
  simp only [unmixByte,turn,byteOf_wordOf,xtime_xor,← wordOf_xor]
  congr 1 <;> ext i inside <;> simp only [BitVec.getElem_xor] <;> grind

theorem mix_unmix (w : Word) : columnOf mixByte (columnOf unmixByte w) = w := by
  apply columnOf_inverse mixByte_xor
  intro s
  simp only [columnOf,unmixByte,byteOf_wordOf]
  simp only [mixByte,turn,byteOf_wordOf,xtime_xor,← wordOf_xor]
  congr 1 <;> ext i inside <;> simp only [BitVec.getElem_xor] <;> grind

end Columns

section Layers

def Block.map (f : Word → Word) (b : Block) : Block := ⟨f b.x0,f b.x1,f b.x2,f b.x3⟩

theorem rlast_flast (y : Block) : rlast (flast y) = y := by
  ext1 <;> simp only [rlast,flast,byteOf_wordOf,rS_fS,wordOf_byteOf]

theorem flast_rlast (y : Block) : flast (rlast y) = y := by
  ext1 <;> simp only [rlast,flast,byteOf_wordOf,fS_rS,wordOf_byteOf]

/-- The cipher whose rounds the tables compute. -/
def cipher : RoundCipher Block where
  mask := Block.xor
  sub := flast
  invSub := rlast
  mix := Block.map (columnOf mixByte)
  invMix := Block.map (columnOf unmixByte)
  mask_mask x k := by ext1 <;> simp only [Block.xor,← BitVec.xor_assoc,BitVec.xor_self,BitVec.zero_xor]
  invSub_sub := rlast_flast
  sub_invSub := flast_rlast
  invMix_mix x := by ext1 <;> exact unmix_mix _
  mix_invMix x := by ext1 <;> exact mix_unmix _
  invMix_mask x k := by ext1 <;> exact columnOf_xor unmixByte_xor _ _

theorem fround_eq (k y : Block) : fround k y = cipher.round y k := by
  ext1 <;>
    simp only [fround,RoundCipher.round,cipher,Block.map,Block.xor,flast,columnOf,byteOf_wordOf,ft_eq,rotateLeft_turn] <;> ac_rfl

theorem rround_eq (k y : Block) : rround k y = cipher.invRound y k := by
  ext1 <;>
    simp only [rround,RoundCipher.invRound,cipher,Block.map,Block.xor,rlast,columnOf,byteOf_wordOf,rt_eq,rotateLeft_turn] <;> ac_rfl

theorem unmixWord_eq (w : Word) : unmixWord w = columnOf unmixByte w := by
  simp only [unmixWord,rt_eq,rS_fS,rotateLeft_turn,columnOf]

end Layers

section Keys
variable (ctx : Context)

def firstKey : Block := blockAt ctx.rk 0

def middleKeys : List Block := (List.range (ctx.nr - 1)).map fun i => blockAt ctx.rk (4 * (i + 1))

def lastKey : Block := blockAt ctx.rk (4 * ctx.nr)

theorem roundLoop_eq (round : Block → Block → Block) (rk : List Word) (n p : Nat) (x : Block) :
    roundLoop round rk n p x =
      (p + 8 * n,((List.range (2 * n)).map fun i => blockAt rk (p + 4 * i)).foldl (fun y k => round k y) x) := by
  induction n generalizing p x with
  | zero => rfl
  | succ n ih =>
    rw [roundLoop,ih,show 2 * (n + 1) = 2 * n + 1 + 1 by omega,List.range_succ_eq_map,List.range_succ_eq_map]
    simp only [List.map_cons,List.map_map,List.foldl_cons]
    refine Prod.ext (by dsimp only; omega) ?_
    dsimp only
    congr 1
    apply List.map_congr_left
    intro i _
    simp only [Function.comp_apply]
    congr 1
    omega

/-- All rounds but the last one. -/
theorem innerRounds_eq (round : Block → Block → Block) {half : Nat} (even : ctx.nr = 2 * half + 2) (x : Block) :
    innerRounds round ctx x = (4 * ctx.nr,(middleKeys ctx).foldl (fun y k => round k y) (x.xor (firstKey ctx))) := by
  have turns : ctx.nr / 2 - 1 = half := by omega
  have count : ctx.nr - 1 = 2 * half + 1 := by omega
  rw [innerRounds,turns,roundLoop_eq,middleKeys,count,List.range_succ,List.map_append,List.foldl_append]
  refine Prod.ext (by dsimp only; omega) ?_
  simp only [List.map_singleton,List.foldl_cons,List.foldl_nil,firstKey]
  congr 1
  · congr 1
    omega
  · congr 1
    apply List.map_congr_left
    intro i _
    congr 1
    omega

theorem aesCryptEcb32_encrypt {half : Nat} (even : ctx.nr = 2 * half + 2) (x : Block) :
    aesCryptEcb32 ctx .encrypt x = cipher.encrypt (firstKey ctx) (middleKeys ctx) (lastKey ctx) x := by
  have rounds : (fun y k => fround k y) = cipher.round := by
    ext1 y
    ext1 k
    exact fround_eq k y
  rw [aesCryptEcb32,innerRounds_eq ctx fround even,rounds]
  rfl

theorem aesCryptEcb32_decrypt {half : Nat} (even : ctx.nr = 2 * half + 2) (x : Block) :
    aesCryptEcb32 ctx .decrypt x = cipher.decrypt (firstKey ctx) (middleKeys ctx) (lastKey ctx) x := by
  have rounds : (fun y k => rround k y) = cipher.invRound := by
    ext1 y
    ext1 k
    exact rround_eq k y
  rw [aesCryptEcb32,innerRounds_eq ctx rround even,rounds]
  rfl

theorem blockAt_words (b : Block) (rest : List Word) : blockAt (b.words ++ rest) 0 = b := rfl

theorem blockAt_behind (b : Block) (rest : List Word) (p : Nat) : blockAt (b.words ++ rest) (p + 4) = blockAt rest p := rfl

theorem blockAt_flatMap (bs : List Block) {i : Nat} {b : Block} (found : bs[i]? = some b) :
    blockAt (bs.flatMap Block.words) (4 * i) = b := by
  induction bs generalizing i with
  | nil => cases found
  | cons first rest ih =>
    rw [List.flatMap_cons]
    cases i with
    | zero =>
      cases found
      exact blockAt_words _ _
    | succ i =>
      rw [Nat.mul_succ,blockAt_behind]
      exact ih found

theorem unmixKeys_eq (sk : List Word) (i : Nat) (rk : List Word) :
    unmixKeys sk i rk =
      rk ++ (cipher.invKeys ((List.range i).map fun j => blockAt sk (4 * (j + 1)))).flatMap Block.words := by
  induction i generalizing rk with
  | zero => rw [unmixKeys,List.range_zero,List.map_nil,RoundCipher.invKeys,List.reverse_nil,List.map_nil,List.flatMap_nil,List.append_nil]
  | succ i ih =>
    have block (b : Block) : b.words.map unmixWord = (cipher.invMix b).words := by
      simp only [Block.words,List.map_cons,List.map_nil,unmixWord_eq]
      rfl
    rw [unmixKeys,ih,List.range_succ,List.map_append,List.map_singleton,RoundCipher.invKeys,RoundCipher.invKeys]
    rw [List.reverse_append,List.reverse_singleton,List.singleton_append,List.map_cons,List.flatMap_cons,block,List.append_assoc]

theorem roundsOf_even {keysize nr : Nat} (valid : roundsOf keysize = some nr) : ∃ half, nr = 2 * half + 2 := by
  unfold roundsOf at valid
  split at valid
  · exact ⟨4,(Option.some.inj valid).symm⟩
  · exact ⟨5,(Option.some.inj valid).symm⟩
  · exact ⟨6,(Option.some.inj valid).symm⟩
  · cases valid

theorem aesSetkeyEnc_ok {key : List UInt8} {keysize : Nat} {enc : Context} (done : aesSetkeyEnc key keysize = .ok enc) :
    roundsOf keysize = some enc.nr := by
  unfold aesSetkeyEnc at done
  split at done
  · cases done
  · rename_i nr valid
    cases done
    exact valid

/-- The keys of decryption: those of encryption from behind, with the mixing taken back. -/
theorem aesSetkeyDec_keys {key : List UInt8} {keysize : Nat} {enc dec : Context}
    (forward : aesSetkeyEnc key keysize = .ok enc) (backward : aesSetkeyDec key keysize = .ok dec) :
    dec.nr = enc.nr ∧ firstKey dec = lastKey enc ∧ middleKeys dec = cipher.invKeys (middleKeys enc) ∧ lastKey dec = firstKey enc := by
  have valid := aesSetkeyEnc_ok forward
  obtain ⟨half,even⟩ := roundsOf_even valid
  unfold aesSetkeyDec at backward
  rw [valid] at backward
  simp only [forward,bind,Except.bind] at backward
  cases backward
  set keys := lastKey enc :: cipher.invKeys (middleKeys enc) ++ [firstKey enc] with keysEq
  have length : (cipher.invKeys (middleKeys enc)).length = enc.nr - 1 := by
    rw [RoundCipher.invKeys,List.length_map,List.length_reverse,middleKeys,List.length_map,List.length_range]
  have words : unmixKeys enc.rk (enc.nr - 1) (blockAt enc.rk (4 * enc.nr)).words ++ (blockAt enc.rk 0).words =
      keys.flatMap Block.words := by
    rw [unmixKeys_eq,keysEq,List.flatMap_append,List.flatMap_cons,List.flatMap_singleton]
    rfl
  refine ⟨rfl,?_,?_,?_⟩
  · rw [firstKey]
    dsimp only
    rw [words]
    exact @blockAt_flatMap keys 0 _ rfl
  · apply List.ext_getElem
    · rw [length,middleKeys,List.length_map,List.length_range]
    · intro i _ inside
      simp only [middleKeys,List.getElem_map,List.getElem_range]
      rw [words]
      apply blockAt_flatMap
      rw [keysEq,List.cons_append,List.getElem?_cons_succ,List.getElem?_append_left inside,List.getElem?_eq_getElem inside]
      rfl
  · rw [lastKey]
    dsimp only
    rw [words]
    apply blockAt_flatMap
    rw [keysEq,List.getElem?_append_right (by rw [List.length_cons,length]; omega),List.length_cons,length]
    rw [show enc.nr - (enc.nr - 1 + 1) = 0 by omega]
    rfl

end Keys

section Inverse
variable {key : List UInt8} {keysize : Nat} {enc dec : Context}

/-- For every key, decryption takes encryption back, -/
theorem decrypt_encrypt (forward : aesSetkeyEnc key keysize = .ok enc) (backward : aesSetkeyDec key keysize = .ok dec) (x : Block) :
    aesCryptEcb32 dec .decrypt (aesCryptEcb32 enc .encrypt x) = x := by
  obtain ⟨half,even⟩ := roundsOf_even (aesSetkeyEnc_ok forward)
  obtain ⟨rounds,first,middle,last⟩ := aesSetkeyDec_keys forward backward
  rw [aesCryptEcb32_encrypt enc even,aesCryptEcb32_decrypt dec (rounds.trans even),first,middle,last]
  exact cipher.decrypt_encrypt _ _ _ x

/-- and encryption decryption. -/
theorem encrypt_decrypt (forward : aesSetkeyEnc key keysize = .ok enc) (backward : aesSetkeyDec key keysize = .ok dec) (x : Block) :
    aesCryptEcb32 enc .encrypt (aesCryptEcb32 dec .decrypt x) = x := by
  obtain ⟨half,even⟩ := roundsOf_even (aesSetkeyEnc_ok forward)
  obtain ⟨rounds,first,middle,last⟩ := aesSetkeyDec_keys forward backward
  rw [aesCryptEcb32_encrypt enc even,aesCryptEcb32_decrypt dec (rounds.trans even),first,middle,last]
  exact cipher.encrypt_decrypt _ _ _ x

theorem aesSetkeyDec_ok (forward : aesSetkeyEnc key keysize = .ok enc) : ∃ dec, aesSetkeyDec key keysize = .ok dec := by
  unfold aesSetkeyDec
  rw [aesSetkeyEnc_ok forward,forward]
  exact ⟨_,rfl⟩

/-- The two schedules take the same sizes of keys, and then each mode undoes the other on every block. -/
theorem setkey_inverse (key : List UInt8) (keysize : Nat) :
    ((keysize ≠ 128 ∧ keysize ≠ 192 ∧ keysize ≠ 256) ∧
      aesSetkeyEnc key keysize = .error invalidKeyLength ∧ aesSetkeyDec key keysize = .error invalidKeyLength) ∨
    ∃ enc dec, aesSetkeyEnc key keysize = .ok enc ∧ aesSetkeyDec key keysize = .ok dec ∧
      ∀ x, aesCryptEcb32 dec .decrypt (aesCryptEcb32 enc .encrypt x) = x ∧ aesCryptEcb32 enc .encrypt (aesCryptEcb32 dec .decrypt x) = x := by
  cases valid : roundsOf keysize with
  | none =>
    refine Or.inl ⟨?_,by rw [aesSetkeyEnc,valid],by rw [aesSetkeyDec,valid]⟩
    refine ⟨?_,?_,?_⟩ <;> rintro rfl <;> cases valid
  | some nr =>
    have forward : aesSetkeyEnc key keysize = .ok ⟨nr,expandKey nr (keyWords key keysize)⟩ := by rw [aesSetkeyEnc,valid]
    obtain ⟨dec,backward⟩ := aesSetkeyDec_ok forward
    exact Or.inr ⟨_,dec,forward,backward,fun x => ⟨decrypt_encrypt forward backward x,encrypt_decrypt forward backward x⟩⟩

end Inverse

end JcaFirmware.Aes
