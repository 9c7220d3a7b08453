import Onegram.Crypto.AesIge
import Onegram.Crypto.DiffieHellman
import Onegram.Lib.Run
import Onegram.ServiceMessages

/-!
# The authorization key

`MTDatacenterAuthMessageService`, the checks of `MTEncryption` it makes, and the keychain these
remember their answers in. The messages come parsed, in any order and from anyone; the answer inside
`server_DH_params_ok` is parsed here. The hash, the ciphers and the public keys are parameters, and
what is drawn at random comes with the event.

An exception ends the program. `Session` records what was done since the last `reset:`.
-/

namespace Onegram.DatacenterAuth

open Bytes TL

structure PublicKey where
  key : String
  fingerprint : Int64

inductive MTDatacenterAuthStage
  | waitingForPublicKeys
  | pq
  | reqDH
  | keyVerification
  | done
  deriving DecidableEq

structure MTDatacenterAuthKey where
  authKey : Bytes
  authKeyId : Int64
  notBound : Bool

/-- What does not change: the service's and its `MTProto`'s settings, and the functions of the
platform. -/
structure Config where
  tempAuth : Bool
  cdn : Bool
  datacenterId : ℤ
  defaultPublicKeys : List PublicKey
  MTSha1 : Bytes → Bytes
  MTRsaEncrypt : String → Bytes → Bytes
  encrypt : Bytes → Bytes → Bytes
  decrypt : Bytes → Bytes → Bytes

/-- What is drawn in one call, and what the probabilistic functions say in it. -/
structure Draw where
  nonce : Vector UInt8 16
  newNonce : Vector UInt8 32
  b : Vector UInt8 256
  pad : ℕ → UInt8
  MTFactorize : UInt64 → Option (UInt64 × UInt64)
  BN_is_prime_ex : ℕ → Bool

/-! ## Checks -/

/-- The strings `isPrimeSafe_p` and `isPrimeModSafe_p_g`. -/
inductive PrimeKey
  | isPrimeSafe (numberBytes : Bytes)
  | isPrimeModSafe (numberBytes : Bytes) (g : ℕ)
  deriving DecidableEq

/-- The group `primes`. -/
abbrev Keychain := PrimeKey → Option Bool

def MTCheckIsSafeG (g : ℕ) : Bool := 2 ≤ g && g ≤ 7

/-- The `switch` of `MTCheckMod`. -/
def residue (number : ℕ) : ℕ → Bool
  | 2 => number % 8 = 7
  | 3 => number % 3 = 2
  | 4 => true
  | 5 => number % 5 = 1 || number % 5 = 4
  | 6 => number % 24 = 19 || number % 24 = 23
  | 7 => number % 7 = 3 || number % 7 = 5 || number % 7 = 6
  | _ => false

def MTCheckMod (numberBytes : Bytes) (g : ℕ) (keychain : Keychain) : Bool × Keychain :=
  let modKey := PrimeKey.isPrimeModSafe numberBytes g
  match keychain modKey with
  | some cachedResult => (cachedResult, keychain)
  | none =>
    let result := residue (bin2bn numberBytes) g
    (result, Function.update keychain modKey (some result))

def goodPrime0 : Bytes :=
  [0xc7, 0x1c, 0xae, 0xb9, 0xc6, 0xb1, 0xc9, 0x04, 0x8e, 0x6c, 0x52, 0x2f, 0x70, 0xf1, 0x3f, 0x73,
   0x98, 0x0d, 0x40, 0x23, 0x8e, 0x3e, 0x21, 0xc1, 0x49, 0x34, 0xd0, 0x37, 0x56, 0x3d, 0x93, 0x0f,
   0x48, 0x19, 0x8a, 0x0a, 0xa7, 0xc1, 0x40, 0x58, 0x22, 0x94, 0x93, 0xd2, 0x25, 0x30, 0xf4, 0xdb,
   0xfa, 0x33, 0x6f, 0x6e, 0x0a, 0xc9, 0x25, 0x13, 0x95, 0x43, 0xae, 0xd4, 0x4c, 0xce, 0x7c, 0x37,
   0x20, 0xfd, 0x51, 0xf6, 0x94, 0x58, 0x70, 0x5a, 0xc6, 0x8c, 0xd4, 0xfe, 0x6b, 0x6b, 0x13, 0xab,
   0xdc, 0x97, 0x46, 0x51, 0x29, 0x69, 0x32, 0x84, 0x54, 0xf1, 0x8f, 0xaf, 0x8c, 0x59, 0x5f, 0x64,
   0x24, 0x77, 0xfe, 0x96, 0xbb, 0x2a, 0x94, 0x1d, 0x5b, 0xcd, 0x1d, 0x4a, 0xc8, 0xcc, 0x49, 0x88,
   0x07, 0x08, 0xfa, 0x9b, 0x37, 0x8e, 0x3c, 0x4f, 0x3a, 0x90, 0x60, 0xbe, 0xe6, 0x7c, 0xf9, 0xa4,
   0xa4, 0xa6, 0x95, 0x81, 0x10, 0x51, 0x90, 0x7e, 0x16, 0x27, 0x53, 0xb5, 0x6b, 0x0f, 0x6b, 0x41,
   0x0d, 0xba, 0x74, 0xd8, 0xa8, 0x4b, 0x2a, 0x14, 0xb3, 0x14, 0x4e, 0x0e, 0xf1, 0x28, 0x47, 0x54,
   0xfd, 0x17, 0xed, 0x95, 0x0d, 0x59, 0x65, 0xb4, 0xb9, 0xdd, 0x46, 0x58, 0x2d, 0xb1, 0x17, 0x8d,
   0x16, 0x9c, 0x6b, 0xc4, 0x65, 0xb0, 0xd6, 0xff, 0x9c, 0xa3, 0x92, 0x8f, 0xef, 0x5b, 0x9a, 0xe4,
   0xe4, 0x18, 0xfc, 0x15, 0xe8, 0x3e, 0xbe, 0xa0, 0xf8, 0x7f, 0xa9, 0xff, 0x5e, 0xed, 0x70, 0x05,
   0x0d, 0xed, 0x28, 0x49, 0xf4, 0x7b, 0xf9, 0x59, 0xd9, 0x56, 0x85, 0x0c, 0xe9, 0x29, 0x85, 0x1f,
   0x0d, 0x81, 0x15, 0xf6, 0x35, 0xb1, 0x05, 0xee, 0x2e, 0x4e, 0x15, 0xd0, 0x4b, 0x24, 0x54, 0xbf,
   0x6f, 0x4f, 0xad, 0xf0, 0x34, 0xb1, 0x04, 0x03, 0x11, 0x9c, 0xd8, 0xe3, 0xb9, 0x2f, 0xcc, 0x5b]

def MTCheckIsSafePrime (BN_is_prime_ex : ℕ → Bool) (numberBytes : Bytes) (keychain : Keychain) :
    Bool × Keychain :=
  let primeKey := PrimeKey.isPrimeSafe numberBytes
  match keychain primeKey with
  | some cachedResult => (cachedResult, keychain)
  | none =>
    if numberBytes.length ≠ 256 then (false, keychain)
    else if numberBytes.getD 0 0 &&& 0x80 = 0 then (false, keychain)
    else if numberBytes = goodPrime0 then (true, keychain)
    else
      let number := bin2bn numberBytes
      let result := BN_is_prime_ex number && BN_is_prime_ex ((number - 1) / 2)
      (result, Function.update keychain primeKey (some result))

/-! ## The service -/

structure MTDatacenterAuthMessageService where
  stage : MTDatacenterAuthStage := .waitingForPublicKeys
  currentStageMessageId : Int64 := 0
  currentStageMessageSeqNo : Int32 := 0
  currentStageTransactionId : Option ℕ := none
  nonce : Option Bytes := none
  serverNonce : Option Bytes := none
  newNonce : Option Bytes := none
  dhP : Option Bytes := none
  dhQ : Option Bytes := none
  dhPublicKeyFingerprint : Int64 := 0
  dhEncryptedData : Option Bytes := none
  authKey : Option MTDatacenterAuthKey := none
  encryptedClientData : Option Bytes := none
  publicKeys : Option (List PublicKey) := none

/-- The service, and what it has of the context. -/
structure World where
  service : MTDatacenterAuthMessageService := {}
  keychain : Keychain := fun _ => none
  publicKeysForDatacenter : Option (List PublicKey) := none
  running : Bool := true

inductive Effect
  | requestSecureTransportReset
  | requestTransportTransaction
  | publicKeysRequired
  | transaction (data : Bytes) (messageId : Int64) (messageSeqNo : Int32)
  | completed (authKey : Option MTDatacenterAuthKey) (timestamp : Int64)

abbrev Result := World × List Effect

/-- An exception nothing catches. -/
def exception (w : World) : Result := ({ w with running := false }, [])

/-- The stage begins with no message of its own. -/
def MTDatacenterAuthMessageService.enter (s : MTDatacenterAuthMessageService)
    (stage : MTDatacenterAuthStage) : MTDatacenterAuthMessageService :=
  { s with
    stage := stage
    currentStageMessageId := 0
    currentStageMessageSeqNo := 0
    currentStageTransactionId := none }

variable (config : Config)

/-- The stage `reset:` ends in, and its keys. -/
def resetStage (w : World) : MTDatacenterAuthStage × Option (List PublicKey) :=
  if config.cdn then
    match w.publicKeysForDatacenter with
    | none => (.waitingForPublicKeys, none)
    | some keys => (.pq, some keys)
  else (.pq, some config.defaultPublicKeys)

def reset (w : World) : Result :=
  let (stage, publicKeys) := resetStage config w
  let required :=
    if stage = .waitingForPublicKeys then [Effect.publicKeysRequired] else []
  let service : MTDatacenterAuthMessageService := { stage := stage, publicKeys := publicKeys }
  ({ w with service := service },
    required ++ [.requestSecureTransportReset, .requestTransportTransaction])

def mtProtoPublicKeysUpdated (w : World) (datacenterId : ℤ) (publicKeys : Option (List PublicKey)) :
    Result :=
  if w.service.stage = .waitingForPublicKeys ∧ config.datacenterId = datacenterId then
    let service := { w.service with publicKeys := publicKeys }
    match publicKeys with
    | some (_ :: _) =>
      ({ w with service := { service with stage := .pq } }, [.requestTransportTransaction])
    | _ => ({ w with service := service }, [])
  else (w, [])

/-! ## Requests -/

section Requests

open MTBuffer

/-- `req_pq_multi`, `req_DH_params` and `set_client_DH_params`. -/
def requestData (s : MTDatacenterAuthMessageService) : Option Bytes :=
  let nonce := s.nonce.getD []
  let serverNonce := s.serverNonce.getD []
  match s.stage with
  | .pq => some (appendInt32 [] (0x60469778 : UInt32).toInt32 ++ nonce)
  | .reqDH =>
    let buffer := appendInt32 [] (0xd712e4be : UInt32).toInt32 ++ nonce ++ serverNonce
    let buffer := appendTLBytes buffer (s.dhP.getD [])
    let buffer := appendTLBytes buffer (s.dhQ.getD [])
    let buffer := appendInt64 buffer s.dhPublicKeyFingerprint
    some (appendTLBytes buffer (s.dhEncryptedData.getD []))
  | .keyVerification =>
    let buffer := appendInt32 [] (0xf5045f1f : UInt32).toInt32 ++ nonce ++ serverNonce
    some (appendTLBytes buffer (s.encryptedClientData.getD []))
  | _ => none

/-- A nonce is drawn when there is none. -/
def drawNonce (s : MTDatacenterAuthMessageService) (draw : Draw) :
    MTDatacenterAuthMessageService :=
  if s.stage = .pq ∧ s.nonce = none then { s with nonce := some draw.nonce.toList } else s

def mtProtoMessageTransaction (w : World) (draw : Draw) : Result :=
  if w.service.currentStageTransactionId ≠ none then (w, [])
  else
    let service := drawNonce w.service draw
    match requestData service with
    | none => (w, [])
    | some data =>
      ({ w with service := service }, [.transaction data service.currentStageMessageId
        service.currentStageMessageSeqNo])

/-- The completion of a transaction that was made in `stage`. -/
def transactionPrepared (w : World) (stage : MTDatacenterAuthStage) (messageId : Int64)
    (messageSeqNo : Int32) (transactionId : ℕ) : Result :=
  if w.service.stage = stage then
    let service := { w.service with
      currentStageMessageId := messageId
      currentStageMessageSeqNo := messageSeqNo
      currentStageTransactionId := some transactionId }
    ({ w with service := service }, [])
  else (w, [])

def transactionFailed (w : World) : Result :=
  let service := { w.service with currentStageTransactionId := none }
  ({ w with service := service }, [.requestTransportTransaction])

def transactionsMayHaveFailed (w : World) (transactionIds : List ℕ) : Result :=
  match w.service.currentStageTransactionId with
  | some transactionId =>
    if transactionId ∈ transactionIds then transactionFailed w else (w, [])
  | none => (w, [])

def allTransactionsMayHaveFailed (w : World) : Result :=
  if w.service.currentStageTransactionId ≠ none then transactionFailed w else (w, [])

end Requests

/-! ## `resPQ` -/

/-- `selectPublicKey`: the first fingerprint there is a key for. -/
def selectPublicKey (fingerprints : List Int64) (publicKeys : List PublicKey) : Option PublicKey :=
  fingerprints.findSome? fun fingerprint =>
    publicKeys.find? fun keyDesc => fingerprint = keyDesc.fingerprint

/-- The key of a CDN, whatever its fingerprint. -/
def choosePublicKey (fingerprints : List Int64) (publicKeys : List PublicKey) : Option PublicKey :=
  match selectPublicKey fingerprints publicKeys with
  | some publicKey => some publicKey
  | none =>
    match config.cdn, fingerprints, publicKeys with
    | true, [fingerprint], [publicKey] => some ⟨publicKey.key, fingerprint⟩
    | _, _, _ => none

def readPq (pqBytes : Bytes) : UInt64 :=
  pqBytes.foldl (fun pq x => (pq <<< 8) ||| x.toUInt64) 0

/-- At least one byte. -/
def factorBytes (factor : UInt64) : Bytes :=
  bytesBE (max 1 (bnNumBytes factor.toNat)) factor.toNat

/-- `data`, and random bytes up to `length`. -/
def padRandom (draw : Draw) (length : ℕ) (data : Bytes) : Bytes :=
  data ++ (List.range (length - data.length)).map draw.pad

open MTBuffer in
def pqInnerData (pqBytes dhP dhQ nonce serverNonce newNonce : Bytes) : Bytes :=
  let signature := if config.tempAuth then (0x3c6a84d4 : UInt32) else 0x83c95aec
  let buffer := appendInt32 [] signature.toInt32
  let buffer := appendTLBytes (appendTLBytes (appendTLBytes buffer pqBytes) dhP) dhQ
  let buffer := buffer ++ nonce ++ serverNonce ++ newNonce
  if config.tempAuth then appendInt32 buffer (60 * 60 * 32) else buffer

/-- The bytes in front of what is encrypted are drawn after those of the padding. -/
def encryptInnerData (draw : Draw) (publicKey : PublicKey) (innerDataBytes : Bytes) : Bytes :=
  let dataWithHash := padRandom draw 255 (config.MTSha1 innerDataBytes ++ innerDataBytes)
  let encryptedData := config.MTRsaEncrypt publicKey.key dataWithHash
  (List.range (256 - encryptedData.length)).map (fun i => draw.pad (255 + i)) ++ encryptedData

def receivedResPq (w : World) (draw : Draw) (nonce serverNonce pqBytes : Bytes)
    (fingerprints : List Int64) : Result :=
  if w.service.nonce ≠ some nonce then (w, [])
  else
    match choosePublicKey config fingerprints (w.service.publicKeys.getD []) with
    | none => reset config w
    | some publicKey =>
      match draw.MTFactorize (readPq pqBytes) with
      | none => reset config w
      | some (factP, factQ) =>
        let newNonce := draw.newNonce.toList
        let dhP := factorBytes factP
        let dhQ := factorBytes factQ
        let innerDataBytes := pqInnerData config pqBytes dhP dhQ nonce serverNonce newNonce
        let service := { w.service.enter .reqDH with
          serverNonce := some serverNonce
          dhP := some dhP
          dhQ := some dhQ
          dhPublicKeyFingerprint := publicKey.fingerprint
          newNonce := some newNonce
          dhEncryptedData := some (encryptInnerData config draw publicKey innerDataBytes) }
        ({ w with service := service }, [.requestTransportTransaction])

/-! ## `server_DH_params` -/

def tmpAesKey (newNonce serverNonce : Bytes) : Bytes :=
  config.MTSha1 (newNonce ++ serverNonce) ++ (config.MTSha1 (serverNonce ++ newNonce)).take 12

def tmpAesIv (newNonce serverNonce : Bytes) : Bytes :=
  ((config.MTSha1 (serverNonce ++ newNonce)).drop 12).take 8
    ++ config.MTSha1 (newNonce ++ newNonce) ++ newNonce.take 4

/-- The result has the length of the data, with zeros for what is no whole block. -/
def decryptAnswer (encryptedResponse newNonce serverNonce : Bytes) : Bytes :=
  MTAesDecrypt config.decrypt encryptedResponse (tmpAesKey config newNonce serverNonce)
      (tmpAesIv config newNonce serverNonce)
    ++ List.replicate (encryptedResponse.length % 16) 0

/-- The loop that takes the padding off, a byte at a time; `none` where there is no byte left. -/
def verifyAnswer (answerHash : Bytes) : ℕ → Bytes → Option (Option Bytes)
  | 0, _ => some none
  | i + 1, answerData =>
    if config.MTSha1 answerData = answerHash then some (some answerData)
    else if answerData = [] then none
    else verifyAnswer answerHash i answerData.dropLast

/-- The answer without hash and padding. -/
def answerData (answerWithHash : Bytes) : Option (Option Bytes) :=
  if answerWithHash.length < 20 then none
  else verifyAnswer config (answerWithHash.take 20) 16 (answerWithHash.drop 20)

def authKeyId (authKey : Bytes) : Int64 :=
  let authKeyHash := config.MTSha1 authKey
  (UInt64.ofNat (littleEndian (authKeyHash.drop (authKeyHash.length - 8)))).toInt64

open MTBuffer in
def clientInnerData (nonce serverNonce g_b : Bytes) : Bytes :=
  let buffer := appendInt32 [] (0x6643b654 : UInt32).toInt32 ++ nonce ++ serverNonce
  appendTLBytes (appendInt64 buffer 0) g_b

def encryptClientData (draw : Draw) (newNonce serverNonce clientInnerDataBytes : Bytes) : Bytes :=
  let clientDataWithHash := config.MTSha1 clientInnerDataBytes ++ clientInnerDataBytes
  MTAesEncryptInplace config.encrypt
    (padRandom draw ((clientDataWithHash.length + 15) / 16 * 16) clientDataWithHash)
    (tmpAesKey config newNonce serverNonce) (tmpAesIv config newNonce serverNonce)

/-- The parameters are accepted. -/
def setDhParams (w : World) (draw : Draw) (nonce serverNonce newNonce : Bytes) (g : Int32)
    (dhPrime gA : Bytes) : Result :=
  let b := draw.b.toList
  let g_b := MTExp (bytesBE 4 g.toUInt32.toNat) b dhPrime
  let authKey := MTExp gA b dhPrime
  let service := { w.service.enter .keyVerification with
    authKey := some ⟨authKey, authKeyId config authKey, config.tempAuth⟩
    encryptedClientData := some (encryptClientData config draw newNonce serverNonce
      (clientInnerData nonce serverNonce g_b)) }
  ({ w with service := service }, [.requestTransportTransaction])

/-- The checks that use the keychain. -/
def checkDhPrime (w : World) (draw : Draw) (g : Int32) (dhPrime : Bytes) : Bool × World :=
  let (mod, keychain) := MTCheckMod dhPrime g.toInt.toNat w.keychain
  let w := { w with keychain := keychain }
  if !mod then (false, w)
  else
    let (safe, keychain) := MTCheckIsSafePrime draw.BN_is_prime_ex dhPrime w.keychain
    (safe, { w with keychain := keychain })

/-- The parsed answer. -/
def receivedInnerData (w : World) (draw : Draw) (nonce serverNonce newNonce : Bytes) :
    Option Message → Result
  | some (.serverDhInnerData nonce' serverNonce' g dhPrime gA _) =>
    if nonce ≠ nonce' ∨ serverNonce ≠ serverNonce' then reset config w
    else if g.toInt < 0 ∨ ¬ MTCheckIsSafeG g.toInt.toNat then reset config w
    else if ¬ MTCheckIsSafeGAOrB gA dhPrime then reset config w
    else
      let (accepted, w) := checkDhPrime w draw g dhPrime
      if accepted then setDhParams config w draw nonce serverNonce newNonce g dhPrime gA
      else reset config w
  | _ => reset config w

def receivedServerDhParamsOk (w : World) (draw : Draw) (nonce serverNonce : Bytes)
    (encryptedResponse : Bytes) : Result :=
  let newNonce := w.service.newNonce.getD []
  match answerData config (decryptAnswer config encryptedResponse newNonce serverNonce) with
  | none => exception w
  | some none => reset config w
  | some (some answer) =>
    receivedInnerData config w draw nonce serverNonce newNonce
      (MTInternalMessageParser.parseMessage answer)

/-! ## `Set_client_DH_params_answer` -/

def newNonceHash (tag : UInt8) (newNonce authKey : Bytes) : Bytes :=
  let authKeyAuxHash := (config.MTSha1 authKey).take 8
  let newNonceHashFull := config.MTSha1 (newNonce ++ [tag] ++ authKeyAuxHash)
  (newNonceHashFull.drop (newNonceHashFull.length - 16)).take 16

def receivedSetClientDhParamsResponseOk (w : World) (messageId : Int64) (nextNonceHash1 : Bytes) :
    Result :=
  let authKey := (w.service.authKey.map MTDatacenterAuthKey.authKey).getD []
  if newNonceHash config 1 (w.service.newNonce.getD []) authKey ≠ nextNonceHash1 then reset config w
  else ({ w with service := w.service.enter .done }, [.completed w.service.authKey messageId])

/-- The nonces of a message are those of the service. -/
def ownNonces (w : World) (nonce serverNonce : Bytes) : Prop :=
  w.service.nonce = some nonce ∧ w.service.serverNonce = some serverNonce

instance (w : World) (nonce serverNonce : Bytes) : Decidable (ownNonces w nonce serverNonce) :=
  inferInstanceAs (Decidable (_ ∧ _))

def receivedMessage (w : World) (draw : Draw) (messageId : Int64) (body : Message) : Result :=
  match w.service.stage, body with
  | .pq, .resPq nonce serverNonce pq fingerprints =>
    receivedResPq config w draw nonce serverNonce pq fingerprints
  | .reqDH, .serverDhParamsOk nonce serverNonce encryptedResponse =>
    if ownNonces w nonce serverNonce then
      receivedServerDhParamsOk config w draw nonce serverNonce encryptedResponse
    else (w, [])
  | .reqDH, .serverDhParamsFail nonce serverNonce _ =>
    if ownNonces w nonce serverNonce then reset config w else (w, [])
  | .keyVerification, .setClientDhParamsResponseOk nonce serverNonce nextNonceHash1 =>
    if ownNonces w nonce serverNonce then
      receivedSetClientDhParamsResponseOk config w messageId nextNonceHash1
    else (w, [])
  -- The hash is compared here as well, and the service is reset with either outcome.
  | .keyVerification, .setClientDhParamsResponseRetry nonce serverNonce _
  | .keyVerification, .setClientDhParamsResponseFail nonce serverNonce _ =>
    if ownNonces w nonce serverNonce then reset config w else (w, [])
  | _, _ => (w, [])

/-! ## Keys of messages -/

/-- `messageEncryptionKeyV2ForAuthKey:messageKey:toClient:`. What lies past the key is left out. -/
def messageEncryptionKeyV2 (MTSha256 : Bytes → Bytes) (authKey messageKey : Bytes)
    (toClient : Bool) : Option (Bytes × Bytes) :=
  if authKey = [] ∨ messageKey = [] then none
  else
    let xValue := if toClient then 8 else 0
    let sha256_a := MTSha256 (messageKey ++ (authKey.drop xValue).take 36)
    let sha256_b := MTSha256 ((authKey.drop (40 + xValue)).take 36 ++ messageKey)
    some (sha256_a.take 8 ++ (sha256_b.drop 8).take 16 ++ (sha256_a.drop 24).take 8,
      sha256_b.take 8 ++ (sha256_a.drop 8).take 16 ++ (sha256_b.drop 24).take 8)

/-! ## Runs -/

inductive Event
  | didAddService
  | contextPublicKeys (publicKeys : Option (List PublicKey))
  | publicKeysUpdated (datacenterId : ℤ) (publicKeys : Option (List PublicKey))
  | messageTransaction (draw : Draw)
  | transactionPrepared (stage : MTDatacenterAuthStage) (messageId : Int64) (messageSeqNo : Int32)
    (transactionId : ℕ)
  | receivedMessage (draw : Draw) (messageId : Int64) (body : Message)
  | protocolErrorReceived
  | transactionsMayHaveFailed (transactionIds : List ℕ)
  | allTransactionsMayHaveFailed
  -- Others ask the same keychain.
  | checkMod (numberBytes : Bytes) (g : ℕ)
  | checkIsSafePrime (BN_is_prime_ex : ℕ → Bool) (numberBytes : Bytes)

def handle (w : World) : Event → Result
  | .didAddService => reset config w
  | .contextPublicKeys publicKeys => ({ w with publicKeysForDatacenter := publicKeys }, [])
  | .publicKeysUpdated datacenterId publicKeys =>
    mtProtoPublicKeysUpdated config w datacenterId publicKeys
  | .messageTransaction draw => mtProtoMessageTransaction w draw
  | .transactionPrepared stage messageId messageSeqNo transactionId =>
    transactionPrepared w stage messageId messageSeqNo transactionId
  | .receivedMessage draw messageId body => receivedMessage config w draw messageId body
  | .protocolErrorReceived => reset config w
  | .transactionsMayHaveFailed transactionIds => transactionsMayHaveFailed w transactionIds
  | .allTransactionsMayHaveFailed => allTransactionsMayHaveFailed w
  | .checkMod numberBytes g => ({ w with keychain := (MTCheckMod numberBytes g w.keychain).2 }, [])
  | .checkIsSafePrime BN_is_prime_ex numberBytes =>
    ({ w with keychain := (MTCheckIsSafePrime BN_is_prime_ex numberBytes w.keychain).2 }, [])

/-- An event, and where it was handled. -/
structure Step where
  before : World
  event : Event

/-- A key that was handed to the delegate, and the steps from the last reset up to then. -/
structure Completion where
  authKey : Option MTDatacenterAuthKey
  since : List Step

def Effect.isReset : Effect → Bool
  | .requestSecureTransportReset => true
  | _ => false

def Effect.completion (since : List Step) : Effect → Option Completion
  | .completed authKey _ => some ⟨authKey, since⟩
  | _ => none

structure Session where
  world : World := {}
  since : List Step := []
  completions : List Completion := []

def Session.step (s : Session) (e : Event) : Session :=
  if s.world.running then
    let (w, effects) := handle config s.world e
    let since := if effects.any Effect.isReset then [] else s.since ++ [⟨s.world, e⟩]
    { world := w
      since := since
      completions := s.completions ++ effects.filterMap (Effect.completion since) }
  else s

def Session.run (s : Session) (es : List Event) : Session := Run.run (Session.step config) s es

end Onegram.DatacenterAuth

/-!
## The RSA envelope

The two variants of `MTRsaEncrypt`, with OpenSSL and with `MTRsa`, which hands the blocks to the
platform. How a key is read from its text and the platform's `SecKeyEncrypt` are parameters.
-/

namespace Onegram.DatacenterAuth

open Bytes

structure RSAKey where
  n : ℕ
  e : ℕ

/-- `TARGET_OS_IOS` or not. -/
inductive Build
  | ios
  | other

section MTRsa

-- `SecKeyEncrypt` without padding; `none` stands for an error.
variable (SecKeyEncrypt : RSAKey → Bytes → Option Bytes)

/-- The loop of `encryptData:withKeyRef:`, in blocks of the size of the key. -/
def encryptBlocks (key : RSAKey) : ℕ → Bytes → Option Bytes
  | 0, _ => some []
  | fuel + 1, data =>
    if data = [] then some []
    else
      (SecKeyEncrypt key (data.take (bnNumBytes key.n))).bind fun outbuf =>
        (encryptBlocks key fuel (data.drop (bnNumBytes key.n))).map (outbuf ++ ·)

/-- `encryptData:publicKey:`; after an error there is no data, and its length is 0. -/
def encryptData (key : RSAKey) (data : Bytes) : Bytes :=
  (encryptBlocks SecKeyEncrypt key data.length data).getD []

variable (readKey : String → RSAKey)

def MTRsaEncrypt : Build → String → Bytes → Bytes
  | .ios, publicKey, data => encryptData SecKeyEncrypt (readKey publicKey) (addKeyPadding data)
  | .other, publicKey, data =>
    let rsaKey := readKey publicKey
    bn2bin (bin2bn data ^ rsaKey.e % rsaKey.n)

/-- The service with a variant of `MTRsaEncrypt`. -/
def withRsa (config : Config) (build : Build) : Config :=
  { config with MTRsaEncrypt := MTRsaEncrypt SecKeyEncrypt readKey build }

end MTRsa

end Onegram.DatacenterAuth
