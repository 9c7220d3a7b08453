import Onegram.Crypto.AesIge

/-!
# Encryption of secret messages

What `encryptMessage` of the send actor makes of the bytes of a message, and what
`decryptMessageData` of the update builder makes of the result. The outgoing queue treats both as
one step; here they are followed to the bytes. The hashes and the block cipher are parameters. A
random byte read outside the buffer is no byte.
-/

namespace Onegram.MessageCipher

open Bytes

variable (sha1 sha256 : Bytes → Bytes) (encrypt decrypt : Bytes → Bytes → Bytes)

/-- `length` bytes from `off` on. -/
def cut (b : Bytes) (off length : ℕ) : Bytes := (b.drop off).take length

/-- The key and the initialization vector for a message key. -/
def generateMessageKeyData (messageKey : Bytes) (incoming : Bool) (authKey : Bytes) (v2 : Bool) :
    Option (Bytes × Bytes) :=
  if authKey = [] then none
  else if v2 then
    let xValue := if incoming then 8 else 0
    let sha256_a := sha256 (messageKey ++ cut authKey xValue 36)
    let sha256_b := sha256 (cut authKey (40 + xValue) 36 ++ messageKey)
    some (cut sha256_a 0 8 ++ cut sha256_b 8 16 ++ cut sha256_a 24 8,
      cut sha256_b 0 8 ++ cut sha256_a 8 16 ++ cut sha256_b 24 8)
  else
    let sha1_a := sha1 (messageKey ++ cut authKey 0 32)
    let sha1_b := sha1 (cut authKey 32 16 ++ messageKey ++ cut authKey 48 16)
    let sha1_c := sha1 (cut authKey 64 32 ++ messageKey)
    let sha1_d := sha1 (messageKey ++ cut authKey 96 32)
    some (cut sha1_a 0 8 ++ cut sha1_b 8 12 ++ cut sha1_c 4 12,
      cut sha1_a 8 12 ++ cut sha1_b 0 8 ++ cut sha1_c 16 4 ++ cut sha1_d 0 8)

/-! ## Padding -/

/-- `count` random bytes, from the one at `take` on. -/
def appendRandom (randomBytes : Bytes) : ℕ → Bytes × ℕ → Option (Bytes × ℕ)
  | 0, s => some s
  | count + 1, (data, take) => do
    let byte ← randomBytes[take]?
    appendRandom randomBytes count (data ++ [byte], take + 1)

/-- Random bytes until there is a whole number of blocks; `none` if `fuel` turns do not do. -/
def padToBlock (randomBytes : Bytes) : ℕ → Bytes × ℕ → Option (Bytes × ℕ)
  | 0, _ => none
  | fuel + 1, (data, take) =>
    if data.length % 16 ≠ 0 then do
      let byte ← randomBytes[take]?
      padToBlock randomBytes fuel (data ++ [byte], take + 1)
    else some (data, take)

def arc4random_uniform (random upperBound : ℕ) : ℕ := random % upperBound

/-- `while (remainingCount % 16 != 0) remainingCount--`. -/
def roundDown : ℕ → ℕ
  | 0 => 0
  | n + 1 => if (n + 1) % 16 ≠ 0 then roundDown n else n + 1

/-- The bytes to encrypt in the second scheme. -/
def padV2 (randomBytes : Bytes) (random : ℕ) (data : Bytes) : Option Bytes := do
  let s ← appendRandom randomBytes 12 (data, 0)
  let s ← padToBlock randomBytes 16 s
  let remainingCount := roundDown (arc4random_uniform random (72 + 1 - s.2))
  let s ← appendRandom randomBytes remainingCount s
  return s.1

def padV1 (randomBytes : Bytes) (data : Bytes) : Option Bytes :=
  (padToBlock randomBytes 16 (data, 0)).map (·.1)

/-! ## Both directions -/

/-- The message key of the second scheme. -/
def messageKeyV2 (authKey : Bytes) (xValue : ℕ) (data : Bytes) : Bytes :=
  cut (sha256 (cut authKey (88 + xValue) 32 ++ data)) 8 16

/-- The message key of the first scheme. -/
def messageKeyV1 (data : Bytes) : Bytes :=
  let messageKeyFull := sha1 data
  cut messageKeyFull (messageKeyFull.length - 16) 16

def encryptMessage (randomBytes : Bytes) (random : ℕ) (serializedMessage : Option Bytes)
    (key : Bytes) (keyId : Int) (currentClientIsCreator v2 : Bool) : Option Bytes := do
  let message ← serializedMessage
  let decryptedBytesOriginal := bytesLE 4 message.length ++ message
  let decryptedBytes ←
    if v2 then padV2 randomBytes random decryptedBytesOriginal
    else padV1 randomBytes decryptedBytesOriginal
  let messageKey :=
    if v2 then messageKeyV2 sha256 key (if currentClientIsCreator then 0 else 8) decryptedBytes
    else messageKeyV1 sha1 decryptedBytesOriginal
  let keyData ← generateMessageKeyData sha1 sha256 messageKey (!currentClientIsCreator) key v2
  return bytesLE 8 (keyId % 2 ^ 64).toNat ++ messageKey
    ++ MTAesEncryptInplace encrypt decryptedBytes keyData.1 keyData.2

/-- A number as an `int32_t`. -/
@[irreducible] def toInt32 (n : ℕ) : Int := Int.bmod n (2 ^ 32)

/-- The `int32_t` in the first four bytes. -/
@[irreducible] def readInt32 (b : Bytes) : Int :=
  toInt32 ((b.getD 0 0).toNat + (b.getD 1 0).toNat * 256 + (b.getD 2 0).toNat * 65536
    + (b.getD 3 0).toNat * 16777216)

def decryptMessageData (bytes authKey messageKey : Bytes) (keyData : Option (Bytes × Bytes))
    (currentClientIsCreator v2 : Bool) : Option Bytes := do
  let keyData ← keyData
  -- the result has the length of the data, with zeros for what is no whole block
  let messageData := MTAesDecrypt decrypt (bytes.drop (8 + 16)) keyData.1 keyData.2
    ++ List.replicate ((bytes.drop (8 + 16)).length % 16) 0
  let messageLength := readInt32 messageData
  let paddingLength := toInt32 messageData.length - (messageLength + 4)
  if messageLength ≤ 0 ∨ messageLength > toInt32 messageData.length - 4 then none
  else if (v2 ∧ paddingLength < 12) ∨ paddingLength > 1024 then none
  else
    let localMessageKey :=
      if v2 then messageKeyV2 sha256 authKey (if currentClientIsCreator then 8 else 0) messageData
      else messageKeyV1 sha1 (messageData.take (messageLength + 4).toNat)
    if localMessageKey = messageKey then some messageData else none

/-- What `decryptEncryptedMessageData` does for one of the schemes. -/
def openMessage (bytes key : Bytes) (currentClientIsCreator v2 : Bool) : Option Bytes :=
  if bytes.length < 8 + 16 + 16 then none
  else
    let messageKey := cut bytes 8 16
    let keyData := generateMessageKeyData sha1 sha256 messageKey currentClientIsCreator key v2
    decryptMessageData sha1 sha256 decrypt bytes key messageKey keyData currentClientIsCreator v2

end Onegram.MessageCipher
