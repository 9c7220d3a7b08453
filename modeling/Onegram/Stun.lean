import Onegram.Lib.Bytes

/-!
# STUN messages of a call

The messages `Ios6TurnClient` reads and writes: a header of 20 bytes with the declared length, then
attributes, each a type, a length and a value padded to a multiple of 4. Integrity is an HMAC over
what stands before the MESSAGE-INTEGRITY attribute, under a header whose length ends with it. The
HMAC is a parameter.
-/

namespace Onegram.Stun

open Bytes

/-! ## Message types and attributes -/

def bindingRequest : ℕ := 0x0001
def bindingSuccess : ℕ := 0x0101
def bindingError : ℕ := 0x0111
def turnSendIndication : ℕ := 0x0016
def turnDataIndication : ℕ := 0x0017

def attrUsername : ℕ := 0x0006
def attrMessageIntegrity : ℕ := 0x0008
def attrErrorCode : ℕ := 0x0009
def attrXorPeerAddress : ℕ := 0x0012
def attrData : ℕ := 0x0013
def attrXorMappedAddress : ℕ := 0x0020
def attrPriority : ℕ := 0x0024
def attrUseCandidate : ℕ := 0x0025
def attrFingerprint : ℕ := 0x8028
def attrIceControlled : ℕ := 0x8029
def attrIceControlling : ℕ := 0x802A

def stunCookie : ℕ := 0x2112A442

/-! ## Reading -/

def read16 (m : Bytes) (i : ℕ) : ℕ := (m.getD i 0).toNat * 256 + (m.getD (i + 1) 0).toNat

def read32 (m : Bytes) (i : ℕ) : ℕ := read16 m i * 65536 + read16 m (i + 2)

/-- Where the attributes end: at the declared length, or at the end of the bytes there are. -/
def bodyEnd (m : Bytes) : ℕ := min (20 + read16 m 2) m.length

def align4 (offset : ℕ) : ℕ := (offset + 3) / 4 * 4

theorem le_align4 (offset : ℕ) : offset ≤ align4 offset := by
  unfold align4
  omega

/-- The loop of `Ios6FindAttribute`: offset and length of the first value of the wanted type. -/
def findFrom (m : Bytes) (stop wantedType offset : ℕ) : Option (ℕ × ℕ) :=
  if offset + 4 ≤ stop then
    let length := read16 m (offset + 2)
    if offset + 4 + length > stop then none
    else if read16 m offset = wantedType then some (offset + 4, length)
    else findFrom m stop wantedType (align4 (offset + 4 + length))
  else none
termination_by stop - offset
decreasing_by
  have := le_align4 (offset + 4 + read16 m (offset + 2))
  omega

def findAttribute (m : Bytes) (wantedType : ℕ) : Option (ℕ × ℕ) :=
  if m.length < 20 then none else findFrom m (bodyEnd m) wantedType 20

/-- The bytes of the value `findAttribute` points at. -/
def valueAt (m : Bytes) (v : ℕ × ℕ) : Bytes := (m.drop v.1).take v.2

def attributeValue (m : Bytes) (wantedType : ℕ) : Option Bytes :=
  (findAttribute m wantedType).map (valueAt m)

def hasAttribute (m : Bytes) (wantedType : ℕ) : Bool := (findAttribute m wantedType).isSome

def parseStunErrorCode (m : Bytes) : ℕ :=
  match attributeValue m attrErrorCode with
  | none => 0
  | some value =>
    if value.length < 4 then 0
    else (value.getD 2 0).toNat % 8 * 100 + (value.getD 3 0).toNat

/-! ## Addresses -/

/-- `inet_ntop` for IPv4. -/
def inetNtop (address : Vector UInt8 4) : Bytes :=
  List.intercalate [46] (address.toList.map fun b =>
    (Nat.toDigits 10 b.toNat).map fun c => UInt8.ofNat c.toNat)

/-- One octet of `inet_pton`: digits up to a value of 255, none of them after a leading 0. -/
def octet : Option ℕ → Bytes → Option (ℕ × Bytes)
  | value, c :: rest =>
    if 48 ≤ c ∧ c ≤ 57 then
      let next := value.getD 0 * 10 + (c.toNat - 48)
      if value = some 0 ∨ next > 255 then none else octet (some next) rest
    else value.map (·, c :: rest)
  | value, [] => value.map (·, [])

/-- `inet_pton` for IPv4: the dotted form of four octets, as `inet_ntop` writes it. -/
def inetPton (host : Bytes) : Option (Vector UInt8 4) :=
  match octet none host with
  | some (a, 46 :: host) =>
    match octet none host with
    | some (b, 46 :: host) =>
      match octet none host with
      | some (c, 46 :: host) =>
        match octet none host with
        | some (d, []) => some #v[.ofNat a, .ofNat b, .ofNat c, .ofNat d]
        | _ => none
      | _ => none
    | _ => none
  | _ => none

/-- Bytes of the address under the cookie. -/
def xorCookie (address : Vector UInt8 4) : Vector UInt8 4 :=
  address.zipWith (· ^^^ ·) #v[0x21, 0x12, 0xa4, 0x42]

def makeXorPeerAddressValue (peerHost : Bytes) (peerPort : UInt16) : Option Bytes :=
  (inetPton peerHost).map fun address =>
    [0, 1] ++ bytesBE 2 (peerPort ^^^ 0x2112).toNat ++ (xorCookie address).toList

def parseXorAddressValue (value : Bytes) : Option (Bytes × UInt16) :=
  if value.length < 8 ∨ value.getD 1 0 ≠ 1 then none
  else some (inetNtop (xorCookie (slice value 4 4)), UInt16.ofNat (read16 value 2) ^^^ 0x2112)

/-! ## Writing -/

def setStunLength (m : Bytes) (bodySize : ℕ) : Bytes :=
  (m.set 2 (UInt8.ofNat (bodySize / 256))).set 3 (UInt8.ofNat bodySize)

def makeStunHeader (type : ℕ) (txid : Vector UInt8 12) : Bytes :=
  bytesBE 2 type ++ [0, 0] ++ bytesBE 4 stunCookie ++ txid.toList

def appendAttribute (m : Bytes) (type : ℕ) (value : Bytes) : Bytes :=
  let m := m ++ bytesBE 2 type ++ bytesBE 2 value.length ++ value
  m ++ List.replicate (align4 m.length - m.length) 0

def crc32Bit (crc : UInt32) : UInt32 :=
  if crc &&& 1 = 0 then crc >>> 1 else (crc >>> 1) ^^^ 0xedb88320

def crc32 (data : Bytes) : UInt32 :=
  data.foldl (fun crc b => crc32Bit^[8] (crc ^^^ b.toUInt32)) 0xffffffff ^^^ 0xffffffff

section Integrity

variable (hmacSha1 : Bytes → Bytes → Vector UInt8 20)

/-- MESSAGE-INTEGRITY and FINGERPRINT at the end of a message. -/
def sealMessage (m password : Bytes) : Bytes :=
  let m := setStunLength m (m.length - 20 + 4 + 20)
  let m := appendAttribute m attrMessageIntegrity (hmacSha1 password m).toList
  let m := setStunLength m (m.length - 20 + 8)
  let m := appendAttribute m attrFingerprint (bytesBE 4 (crc32 m ^^^ 0x5354554e).toNat)
  setStunLength m (m.length - 20)

def makeIceBindingRequest (txid : Vector UInt8 12) (localUfrag remoteUfrag remotePassword : Bytes)
    (tieBreaker : UInt64) (controlling useCandidate : Bool) : Bytes :=
  let m := makeStunHeader bindingRequest txid
  let m := appendAttribute m attrUsername (remoteUfrag ++ [58] ++ localUfrag)
  let m := appendAttribute m attrPriority (bytesBE 4 1862270975)
  let m := appendAttribute m (if controlling then attrIceControlling else attrIceControlled)
    (bytesBE 8 tieBreaker.toNat)
  let m := if useCandidate then appendAttribute m attrUseCandidate [] else m
  sealMessage hmacSha1 m remotePassword

def makeIceBindingSuccessResponse (txid : Vector UInt8 12) (mappedHost : Bytes)
    (mappedPort : UInt16) (localPassword : Bytes) : Option Bytes :=
  (makeXorPeerAddressValue mappedHost mappedPort).map fun mappedValue =>
    sealMessage hmacSha1 (appendAttribute (makeStunHeader bindingSuccess txid) attrXorMappedAddress
      mappedValue) localPassword

def makeTurnSendIndication (txid : Vector UInt8 12) (peerHost : Bytes) (peerPort : UInt16)
    (payload : Bytes) : Option Bytes :=
  (makeXorPeerAddressValue peerHost peerPort).map fun peerValue =>
    let m := makeStunHeader turnSendIndication txid
    let m := appendAttribute m attrXorPeerAddress peerValue
    let m := appendAttribute m attrData payload
    setStunLength m (m.length - 20)

def verifyShortTermIntegrity (m password : Bytes) : Bool :=
  match findAttribute m attrMessageIntegrity with
  | none => false
  | some (valueOffset, integritySize) =>
    if integritySize ≠ 20 then false
    else if valueOffset < 24 ∨ valueOffset > m.length then false
    else
      let attributeOffset := valueOffset - 4
      if attributeOffset < 20 then false
      else
        let lengthThroughIntegrity := attributeOffset - 20 + 4 + 20
        if lengthThroughIntegrity > 65535 then false
        else
          let authenticatedPart := setStunLength (m.take attributeOffset) lengthThroughIntegrity
          (hmacSha1 password authenticatedPart).toList = (m.drop valueOffset).take 20

end Integrity

/-! ## Data from the relay -/

/-- `recv` into the buffer. -/
def received (datagram : Bytes) : Bytes := datagram.take 4096

/-- The peer the relay names; the given one where it names no IPv4 address. -/
def indicationPeer (defaultHost : Bytes) (defaultPort : UInt16) (m : Bytes) : Bytes × UInt16 :=
  ((attributeValue m attrXorPeerAddress).bind parseXorAddressValue).getD (defaultHost, defaultPort)

/-- What a Data indication carries. -/
def indicationData (m : Bytes) : Option Bytes :=
  if m.length < 20 then none
  else if read32 m 4 ≠ stunCookie then none
  else if read16 m 0 ≠ turnDataIndication then none
  else attributeValue m attrData

/-! ## Binding requests and responses -/

structure IceCredentials where
  localUfrag : Bytes
  localPassword : Bytes
  remoteUfrag : Bytes
  remotePassword : Bytes

def IceCredentials.expectedUsername (c : IceCredentials) : Bytes :=
  c.localUfrag ++ [58] ++ c.remoteUfrag

/-- What a side reads off a binding request. -/
structure RequestVerdict where
  usernameOk : Bool
  integrityOk : Bool
  useCandidate : Bool
  peerControlling : Bool
  peerControlled : Bool
  deriving DecidableEq

def RequestVerdict.accepted (v : RequestVerdict) : Bool := v.usernameOk && v.integrityOk

variable (hmacSha1 : Bytes → Bytes → Vector UInt8 20)

/-- A binding request during the probe. -/
def judgeRequest (c : IceCredentials) (m : Bytes) : RequestVerdict :=
  let incomingUsername := (attributeValue m attrUsername).getD []
  let usernameOk : Bool := incomingUsername = c.expectedUsername
  { usernameOk
    integrityOk := usernameOk && verifyShortTermIntegrity hmacSha1 m c.localPassword
    useCandidate := hasAttribute m attrUseCandidate
    peerControlling := hasAttribute m attrIceControlling
    peerControlled := hasAttribute m attrIceControlled }

/-- A binding request once a peer is selected. -/
def judgePersistentRequest (c : IceCredentials) (m : Bytes) : RequestVerdict where
  usernameOk := attributeValue m attrUsername = some c.expectedUsername
  integrityOk := !c.localPassword.isEmpty && verifyShortTermIntegrity hmacSha1 m c.localPassword
  useCandidate := hasAttribute m attrUseCandidate
  peerControlling := hasAttribute m attrIceControlling
  peerControlled := hasAttribute m attrIceControlled

/-- A request that nominates the pair it came over. -/
def nominates (controlling : Bool) (v : RequestVerdict) : Bool :=
  v.accepted && !controlling && v.peerControlling && v.useCandidate

def acceptsResponse (c : IceCredentials) (m : Bytes) : Bool :=
  read16 m 0 = bindingSuccess && verifyShortTermIntegrity hmacSha1 m c.remotePassword

end Onegram.Stun
