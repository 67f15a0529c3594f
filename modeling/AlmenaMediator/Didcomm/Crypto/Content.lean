import AlmenaMediator.Didcomm.Primitives

/-!
# Content encryption

`crypto/content.rs`: the length checks around the ciphers of `Primitives`.
-/

namespace Didcomm.ContentEncryption

variable (prim : Primitives)

/-- Length of the content key. -/
def keyLen : ContentEncryption → ℕ
  | a256CbcHs512 => 64
  | a256Gcm | xc20p => 32

/-- Length of the initialization vector. -/
def ivLen : ContentEncryption → ℕ
  | a256CbcHs512 => 16
  | a256Gcm => 12
  | xc20p => 24

def checkLengths (enc : ContentEncryption) (key iv : Bytes) : Result Unit :=
  if key.length ≠ enc.keyLen ∨ iv.length ≠ enc.ivLen then
    .error (.malformed "content key or iv length")
  else .ok ()

/-- Returns `(ciphertext, tag)`. -/
def encrypt (enc : ContentEncryption) (key iv aad plaintext : Bytes) : Result (Bytes × Bytes) := do
  checkLengths enc key iv
  prim.cipherEncrypt enc key iv aad plaintext

def decrypt (enc : ContentEncryption) (key iv aad ciphertext tag : Bytes) : Result Bytes := do
  checkLengths enc key iv
  prim.cipherDecrypt enc key iv aad ciphertext tag

end Didcomm.ContentEncryption
