import JcaFirmware.AesCbc
import JcaFirmware.SizeLimits

/-! The option `-e` of the container tool. The pages are encrypted in place with the cipher of `ut/common/aes.c`; the
bootloader has no decryption yet and copies the ciphertext, from which the key gives the image back. -/
namespace JcaFirmware.EncryptedImage
open Foundation IntelHex Ihex AppCrc AppContainer SizeLimits Aes

section Pages
variable (ctx : Context) (mode : Mode)

variable {iv p : Nat}

end Pages

section Inverse
variable {key : List UInt8} {keysize : Nat} {enc dec : Context}
  (forward : aesSetkeyEnc key keysize = .ok enc) (backward : aesSetkeyDec key keysize = .ok dec)
include forward backward

end Inverse

section Device
variable {encrypt : Option (List UInt8 → List UInt8)} {sdk : Bootloader.Chsum}

theorem length_body (fwName : List UInt8) (s : AppContainer.State) : (headerOf encrypt fwName s).body.length = 508 := by
  simp only [ContainerHdr.body,headerOf,containerOf,List.length_append,length_bytesOf,length_strncpy,List.length_replicate,
    List.length_singleton,containerFwNameLen]

variable {fwName file : List UInt8} {pieces : List Piece} {lines container : List (List UInt8)}

variable {key : List UInt8} {keysize : Nat} {enc dec : Context} {iv p : Nat}

end Device

end JcaFirmware.EncryptedImage
