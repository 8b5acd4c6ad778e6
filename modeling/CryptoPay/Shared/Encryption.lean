import CryptoPay.Webhooks.Deliver

/-!
# Field encryption

`encryptSecret` of `packages/crypto/src/encryption.ts`, over the functions of
Node that it calls; `Webhooks.decryptSecret` is its inverse half.

Results:
* `decryptSecret_encryptSecret`: what is encrypted decrypts to itself under the
  same key, if the functions of Node invert one another.
-/

namespace CryptoPay

/-- The functions of Node that `encryptSecret` calls, with those of `decryptSecret`. -/
structure Cipher extends Webhooks.Platform where
  /-- `buffer.toString('base64')`. -/
  toBase64 : List UInt8 → String
  /-- `Buffer.from(s, 'utf8')`. -/
  fromUtf8 : String → List UInt8
  /-- `createCipheriv('aes-256-gcm', key, iv)`, `update(plaintext)` and `final()`: the ciphertext
      and `getAuthTag()`. -/
  encipher : (key iv plaintext : List UInt8) → List UInt8 × List UInt8

/-- `encryptSecret` (lines 13–20), with the bytes of `randomBytes(IV_LENGTH)`. -/
def encryptSecret (C : Cipher) (iv : List UInt8) (plaintext keyHex : String) :
    Except Webhooks.Thrown String := do
  let key ← (Webhooks.decodeKey keyHex).mapError .crypto
  let (ciphertext, authTag) := C.encipher key iv (C.fromUtf8 plaintext)
  return C.toBase64 (iv ++ authTag ++ ciphertext)

/-- What Node documents of these functions: decoding inverts encoding, an authentication tag has
    16 bytes, and deciphering with the same key, vector and tag inverts enciphering. -/
structure Cipher.Inverts (C : Cipher) : Prop where
  base64 : ∀ bytes, C.fromBase64 (C.toBase64 bytes) = bytes
  utf8 : ∀ s, C.toUtf8 (C.fromUtf8 s) = s
  tag : ∀ key iv plaintext, (C.encipher key iv plaintext).2.length = 16
  decipher : ∀ key iv plaintext, C.decipher key iv (C.encipher key iv plaintext).2
    (C.encipher key iv plaintext).1 = .ok plaintext

theorem decryptSecret_encryptSecret {C : Cipher} (hC : C.Inverts) {iv : List UInt8}
    (hiv : iv.length = 12) {plaintext keyHex encoded : String}
    (h : encryptSecret C iv plaintext keyHex = .ok encoded) :
    Webhooks.decryptSecret C.toPlatform encoded keyHex = .ok plaintext := by
  unfold encryptSecret at h
  cases hkey : Webhooks.decodeKey keyHex with
  | error message =>
    rw [hkey] at h
    cases h
  | ok key =>
    rw [hkey] at h
    obtain rfl : C.toBase64 (iv ++ (C.encipher key iv (C.fromUtf8 plaintext)).2 ++
      (C.encipher key iv (C.fromUtf8 plaintext)).1) = encoded := Except.ok.inj h
    have htag := hC.tag key iv (C.fromUtf8 plaintext)
    have hplain := hC.decipher key iv (C.fromUtf8 plaintext)
    simp only [Webhooks.decryptSecret, hkey, hC.base64, List.append_assoc]
    rw [List.take_left' hiv, List.drop_left' hiv, List.take_left' htag,
      show 28 = 12 + 16 from rfl, ← List.drop_drop, List.drop_left' hiv, List.drop_left' htag]
    simp only [Except.mapError, bind, Except.bind, hplain]
    exact congrArg Except.ok (hC.utf8 plaintext)

end CryptoPay
