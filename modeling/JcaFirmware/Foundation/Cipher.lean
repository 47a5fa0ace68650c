import Mathlib.Data.List.Basic
import Mathlib.Tactic.Common

/-! Ciphers of rounds with their equivalent inverse, and the chaining of blocks, over any
type of blocks. -/
namespace JcaFirmware.Foundation

/-- The layers of a cipher: `mask` adds a key, and the others have inverses. -/
structure RoundCipher (B : Type) where
  mask : B → B → B
  sub : B → B
  invSub : B → B
  mix : B → B
  invMix : B → B
  mask_mask : ∀ x k, mask (mask x k) k = x
  invSub_sub : ∀ x, invSub (sub x) = x
  sub_invSub : ∀ x, sub (invSub x) = x
  invMix_mix : ∀ x, invMix (mix x) = x
  mix_invMix : ∀ x, mix (invMix x) = x
  invMix_mask : ∀ x k, invMix (mask x k) = mask (invMix x) (invMix k)

namespace RoundCipher
variable {B : Type} (c : RoundCipher B)

def round (x k : B) : B := c.mask (c.mix (c.sub x)) k

def invRound (x k : B) : B := c.mask (c.invMix (c.invSub x)) k

/-- The last round does not mix. -/
def encrypt (first : B) (ks : List B) (last x : B) : B := c.mask (c.sub (ks.foldl c.round (c.mask x first))) last

def decrypt (first : B) (ks : List B) (last x : B) : B := c.mask (c.invSub (ks.foldl c.invRound (c.mask x first))) last

theorem invRound_round (x k : B) : c.invRound (c.sub (c.round x k)) (c.invMix k) = c.sub x := by
  rw [invRound,round,c.invSub_sub,c.invMix_mask,c.invMix_mix,c.mask_mask]

theorem round_invRound (x k : B) : c.round (c.invSub (c.invRound x (c.invMix k))) k = c.invSub x := by
  have linear : c.mix (c.mask (c.invMix (c.invSub x)) (c.invMix k)) = c.mask (c.invSub x) k := by
    rw [← c.invMix_mask,c.mix_invMix]
  rw [round,invRound,c.sub_invSub,linear,c.mask_mask]

/-- The mixing of the inverse rounds moves to their keys, which are taken from behind. -/
def invKeys (ks : List B) : List B := ks.reverse.map c.invMix

theorem foldl_invRound (ks : List B) (x : B) : (c.invKeys ks).foldl c.invRound (c.sub (ks.foldl c.round x)) = c.sub x := by
  induction ks generalizing x with
  | nil => rfl
  | cons k ks ih =>
    rw [invKeys,List.reverse_cons,List.map_append,List.foldl_append,List.foldl_cons,← invKeys,ih]
    exact c.invRound_round x k

theorem foldl_round (ks : List B) (x : B) :
    ks.foldl c.round (c.invSub ((c.invKeys ks).foldl c.invRound x)) = c.invSub x := by
  induction ks generalizing x with
  | nil => rfl
  | cons k ks ih =>
    rw [invKeys,List.reverse_cons,List.map_append,List.foldl_append,List.foldl_cons,← invKeys]
    rw [List.map_singleton,List.foldl_cons,List.foldl_nil,c.round_invRound,ih]

theorem decrypt_encrypt (first last : B) (ks : List B) (x : B) :
    c.decrypt last (c.invKeys ks) first (c.encrypt first ks last x) = x := by
  rw [decrypt,encrypt,c.mask_mask,foldl_invRound,c.invSub_sub,c.mask_mask]

theorem encrypt_decrypt (first last : B) (ks : List B) (x : B) :
    c.encrypt first ks last (c.decrypt last (c.invKeys ks) first x) = x := by
  rw [decrypt,encrypt,c.mask_mask,foldl_round,c.sub_invSub,c.mask_mask]

end RoundCipher

section Chaining
variable {B : Type} (mask : B → B → B) (e d : B → B)

/-- The blocks, and the last of them for the next call. -/
def cbcEncrypt (iv : B) : List B → List B × B
  | [] => ([],iv)
  | x :: xs =>
    let y := e (mask x iv)
    (y :: (cbcEncrypt y xs).1,(cbcEncrypt y xs).2)

def cbcDecrypt (iv : B) : List B → List B × B
  | [] => ([],iv)
  | y :: ys => (mask (d y) iv :: (cbcDecrypt y ys).1,(cbcDecrypt y ys).2)

theorem length_cbcEncrypt (iv : B) (xs : List B) : (cbcEncrypt mask e iv xs).1.length = xs.length := by
  induction xs generalizing iv with
  | nil => rfl
  | cons x xs ih => simp only [cbcEncrypt,List.length_cons,ih]

theorem length_cbcDecrypt (iv : B) (ys : List B) : (cbcDecrypt mask d iv ys).1.length = ys.length := by
  induction ys generalizing iv with
  | nil => rfl
  | cons y ys ih => simp only [cbcDecrypt,List.length_cons,ih]

variable {mask e d}

/-- Decryption gives the blocks back, and leaves the same block for the next call. -/
theorem cbcDecrypt_cbcEncrypt (cancel : ∀ x k, mask (mask x k) k = x) (inverse : ∀ x, d (e x) = x) (iv : B) (xs : List B) :
    cbcDecrypt mask d iv (cbcEncrypt mask e iv xs).1 = (xs,(cbcEncrypt mask e iv xs).2) := by
  induction xs generalizing iv with
  | nil => rfl
  | cons x xs ih => simp only [cbcEncrypt,cbcDecrypt,ih,inverse,cancel]

end Chaining

end JcaFirmware.Foundation
