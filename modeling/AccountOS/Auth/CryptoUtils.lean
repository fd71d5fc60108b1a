import AccountOS.Codec.Hex
import AccountOS.Store.Schema

/-!
# Encryption at rest

`crypto.utils.ts` keeps the secrets of a business as texts of three hexadecimal segments, the IV, the
ciphertext and the authentication tag. Of Node's `crypto` nothing is known here but what
`CryptoRuntime.Lawful` says: what was sealed under a key is opened by it.
-/

namespace AccountOS

/-- What the services take from Node: the digests of `crypto`, AES-256-GCM, and the decoding of a
buffer as a text. -/
structure CryptoRuntime where
  sha256 : List UInt8 → Vector UInt8 32
  hmacSha256 : (key message : List UInt8) → Vector UInt8 32
  /-- The ciphertext and the tag. -/
  gcmSeal : (key : Vector UInt8 32) → (iv : Vector UInt8 16) → (plaintext : List UInt8) →
    List UInt8 × Vector UInt8 16
  /-- The plaintext, `none` when the decipher throws. -/
  gcmOpen : (key : Vector UInt8 32) → (iv ciphertext tag : List UInt8) → Option (List UInt8)
  decodeUtf8 : List UInt8 → String

/-- `Buffer.from(text, 'utf8')`. -/
def utf8 (text : String) : List UInt8 := text.toUTF8.data.toList

structure CryptoRuntime.Lawful (crypto : CryptoRuntime) : Prop where
  gcmOpen_gcmSeal : ∀ key iv plaintext,
    crypto.gcmOpen key iv.toList (crypto.gcmSeal key iv plaintext).1
      (crypto.gcmSeal key iv plaintext).2.toList = some plaintext
  decodeUtf8_utf8 : ∀ text, crypto.decodeUtf8 (utf8 text) = text

/-- `buffer.toString('hex')`. -/
def hexText (bytes : List UInt8) : String := String.ofList (Hex.encode bytes)

/-- A key of 32 bytes in hexadecimal: `/^[0-9a-f]{64}$/i`. -/
def IsHexKey (raw : String) : Prop := raw.toList.length = 64 ∧ raw.toList.all (Hex.IsDigit ·)

instance (raw : String) : Decidable (IsHexKey raw) := inferInstanceAs (Decidable (_ ∧ _))

theorem IsHexKey.size_decode {raw : String} (h : IsHexKey raw) :
    (Hex.decode raw.toList).toArray.size = 32 := by
  have hdigits : ∀ c ∈ raw.toList, Hex.IsDigit c := by
    intro c hc
    exact of_decide_eq_true (List.all_eq_true.1 h.2 c hc)
  rw [List.size_toArray, Hex.length_decode hdigits, h.1]

namespace CryptoUtils

variable (crypto : CryptoRuntime)

/-- The text that a sealed value is stored as. -/
def payload (iv ciphertext tag : List UInt8) : String :=
  hexText iv ++ ":" ++ hexText ciphertext ++ ":" ++ hexText tag

/-- `encrypt`, for the IV that it generates. -/
def encrypt (iv : Vector UInt8 16) (plaintext : String) (key : Vector UInt8 32) : String :=
  let box := crypto.gcmSeal key iv (utf8 plaintext)
  payload iv.toList box.1 box.2.toList

def invalidPayload : Error := .other "Invalid encrypted payload format"

/-- What `decipher.final` throws. -/
def unauthenticated : Error := .other "Unsupported state or unable to authenticate data"

/-- `decrypt`. -/
def decrypt (ciphertext : String) (key : Vector UInt8 32) : Except Error String :=
  match ciphertext.toList.splitOn ':' with
  | [iv, encrypted, tag] =>
    match crypto.gcmOpen key (Hex.decode iv) (Hex.decode encrypted) (Hex.decode tag) with
    | some plaintext => .ok (crypto.decodeUtf8 plaintext)
    | none => .error unauthenticated
  | _ => .error invalidPayload

/-- `deriveKey`: a key in hexadecimal is used as it is, any other text is hashed. -/
def deriveKey (raw : String) : Vector UInt8 32 :=
  if h : IsHexKey raw then ⟨(Hex.decode raw.toList).toArray, h.size_decode⟩
  else crypto.sha256 (utf8 raw)

/-- `timingSafeCompare`, for the key that it generates. -/
def timingSafeCompare (key : Vector UInt8 32) (a b : String) : Bool :=
  crypto.hmacSha256 key.toList (utf8 a) == crypto.hmacSha256 key.toList (utf8 b)

/-! ### Round trips -/

section RoundTrip

variable {crypto} {key : Vector UInt8 32}

theorem not_isDigit_colon : ¬ Hex.IsDigit ':' := by decide

/-- The segments of a stored text are those it was joined from. -/
theorem splitOn_payload (iv ciphertext tag : List UInt8) :
    (payload iv ciphertext tag).toList.splitOn ':' =
      [Hex.encode iv, Hex.encode ciphertext, Hex.encode tag] := by
  have hjoined : (payload iv ciphertext tag).toList =
      Hex.encode iv ++ ':' :: (Hex.encode ciphertext ++ ':' :: Hex.encode tag) := by
    simp [payload, hexText]
  have hnone : ∀ bytes, ':' ∉ Hex.encode bytes := fun _ => Hex.not_mem_encode not_isDigit_colon
  rw [hjoined, List.splitOn_append_cons_self_of_not_mem (hnone iv),
    List.splitOn_append_cons_self_of_not_mem (hnone ciphertext), List.splitOn_eq_singleton (hnone tag)]

/-- A stored text is opened as the parts it was joined from. -/
theorem decrypt_payload (iv ciphertext tag : List UInt8) :
    decrypt crypto (payload iv ciphertext tag) key =
      match crypto.gcmOpen key iv ciphertext tag with
      | some plaintext => .ok (crypto.decodeUtf8 plaintext)
      | none => .error unauthenticated := by
  rw [decrypt, splitOn_payload]
  simp only [Hex.decode_encode]

/-- **What was encrypted is decrypted**, whatever the IV was. -/
theorem decrypt_encrypt (hcrypto : crypto.Lawful) (iv : Vector UInt8 16) (plaintext : String) :
    decrypt crypto (encrypt crypto iv plaintext key) key = .ok plaintext := by
  rw [encrypt, decrypt_payload, hcrypto.gcmOpen_gcmSeal]
  simp only [hcrypto.decodeUtf8_utf8]

/-- An encrypted text is never empty: two separators stand in it. -/
theorem encrypt_ne_empty (iv : Vector UInt8 16) (plaintext : String) :
    encrypt crypto iv plaintext key ≠ "" := by
  intro h
  have hsplit := splitOn_payload iv.toList (crypto.gcmSeal key iv (utf8 plaintext)).1
    (crypto.gcmSeal key iv (utf8 plaintext)).2.toList
  have hempty : payload iv.toList (crypto.gcmSeal key iv (utf8 plaintext)).1
      (crypto.gcmSeal key iv (utf8 plaintext)).2.toList = "" := h
  rw [hempty] at hsplit
  have hlength := congrArg List.length hsplit
  have hone : ("".toList.splitOn ':').length = 1 := rfl
  rw [hone] at hlength
  exact absurd hlength (by simp)

end RoundTrip

end CryptoUtils

end AccountOS
