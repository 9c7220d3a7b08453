import Onegram.Stun

/-!
# The TURN client

The first half of `Ios6TurnClient.cpp` allocates a relay address and has its own code for reading
and writing messages; MD5 and HMAC are parameters. The second half, with the prefix `Ios6`, is the
code of `Onegram.Stun`; of that half this module has the function that receives a packet of a call.
-/

namespace Onegram.Turn

open Bytes Stun

def allocateRequest : ℕ := 0x0003
def refreshRequest : ℕ := 0x0004
def createPermissionRequest : ℕ := 0x0008

def attrLifetime : ℕ := 0x000D
def attrRealm : ℕ := 0x0014
def attrNonce : ℕ := 0x0015
def attrXorRelayedAddress : ℕ := 0x0016
def attrRequestedTransport : ℕ := 0x0019

/-! ## Reading and writing -/

def setU16 (out : Bytes) (offset value : ℕ) : Bytes :=
  if offset + 1 ≥ out.length then out
  else (out.set offset (UInt8.ofNat (value / 256))).set (offset + 1) (UInt8.ofNat value)

def makeMessage (type : ℕ) (txid : Vector UInt8 12) : Bytes :=
  bytesBE 2 type ++ bytesBE 2 0 ++ bytesBE 4 stunCookie ++ txid.toList

def updateMessageLength (message : Bytes) : Bytes :=
  if message.length < 20 then message else setU16 message 2 (message.length - 20)

def addAttribute (message : Bytes) (type : ℕ) (data : Bytes) : Bytes :=
  let message := message ++ bytesBE 2 type ++ bytesBE 2 data.length ++ data
  message ++ List.replicate (align4 message.length - message.length) 0

/-- `FindAttribute`; the loop is that of `Ios6FindAttribute`. -/
def findAttribute (message : Bytes) (wantedType : ℕ) : Option Bytes :=
  if message.length < 20 then none
  else
    let declaredLength := Stun.read16 message 2
    if 20 + declaredLength > message.length then none
    else (findFrom message (20 + declaredLength) wantedType 20).map (valueAt message)

def parseXorRelayedAddress (message : Bytes) : Option (Bytes × UInt16) :=
  match findAttribute message attrXorRelayedAddress with
  | none => none
  | some value =>
    if value.length < 8 then none
    else if value.getD 1 0 ≠ 1 then none
    else
      let decodedPort := UInt16.ofNat (Stun.read16 value 2) ^^^ 0x2112
      let decodedAddress := Stun.read32 value 4 ^^^ stunCookie
      some (inetNtop (slice (bytesBE 4 decodedAddress) 0 4), decodedPort)

def makeXorPeerAddress (host : Bytes) (port : UInt16) : Option Bytes :=
  (inetPton host).map fun address =>
    let ip := Stun.read32 address.toList 0
    [0, 1] ++ bytesBE 2 (port ^^^ 0x2112).toNat ++ bytesBE 4 (ip ^^^ stunCookie)

/-! ## Requests -/

section Requests

variable (md5 : Bytes → Vector UInt8 16) (hmacSha1 : Bytes → Bytes → Vector UInt8 20)

def makeLongTermKey (username realm password : Bytes) : Bytes :=
  (md5 (username ++ [58] ++ realm ++ [58] ++ password)).toList

def makeAuthenticatedAllocateRequest (txid : Vector UInt8 12)
    (username password realm nonce : Bytes) : Bytes :=
  let message := makeMessage allocateRequest txid
  let message := addAttribute message attrUsername username
  let message := addAttribute message attrRealm realm
  let message := addAttribute message attrNonce nonce
  let message := addAttribute message attrRequestedTransport [17, 0, 0, 0]
  let lengthWithIntegrity := message.length - 20 + 24
  let message := setU16 message 2 lengthWithIntegrity
  let digest := hmacSha1 (makeLongTermKey md5 username realm password) message
  updateMessageLength (addAttribute message attrMessageIntegrity digest.toList)

/-- The integrity of the other requests: the length is set in a copy, for the HMAC only. -/
def addLongTermMessageIntegrity (message username password realm : Bytes) : Bytes :=
  let key := (md5 (username ++ [58] ++ realm ++ [58] ++ password)).toList
  let payloadWithIntegrity := message.length - 20 + 4 + 20
  let digest := hmacSha1 key (setU16 message 2 payloadWithIntegrity)
  updateMessageLength (addAttribute message attrMessageIntegrity digest.toList)

def makeRefreshRequest (txid : Vector UInt8 12) (login password realm nonce : Bytes)
    (requestedLifetimeSeconds : UInt32) : Bytes :=
  let request := makeMessage refreshRequest txid
  let request := addAttribute request attrUsername login
  let request := addAttribute request attrRealm realm
  let request := addAttribute request attrNonce nonce
  let request := addAttribute request attrLifetime (bytesBE 4 requestedLifetimeSeconds.toNat)
  addLongTermMessageIntegrity md5 hmacSha1 request login password realm

def makeCreatePermissionRequest (txid : Vector UInt8 12) (login password realm nonce : Bytes)
    (peerHost : Bytes) (peerPort : UInt16) : Bytes :=
  let request := makeMessage createPermissionRequest txid
  let request := addAttribute request attrUsername login
  let request := addAttribute request attrRealm realm
  let request := addAttribute request attrNonce nonce
  let request := match makeXorPeerAddress peerHost peerPort with
    | some peerAddress => addAttribute request attrXorPeerAddress peerAddress
    | none => request
  addLongTermMessageIntegrity md5 hmacSha1 request login password realm

end Requests

/-! ## A packet of a call -/

inductive Kind
  | none
  | transport
  | innerStun
  | other
  deriving DecidableEq

structure ReceiveResult where
  kind : Kind := .none
  timeout : Bool := false
  error : Bytes := []
  peerHost : Bytes := []
  peerPort : UInt16 := 0
  innerStunType : ℕ := 0
  data : Bytes := []

/-- What `recv` comes to, repeated while it is interrupted. -/
inductive Recv
  | wouldBlock
  | failed (error : Bytes)
  | datagram (bytes : Bytes)

def looksLikeStun (data : Bytes) : Bool :=
  20 ≤ data.length && (data.getD 0 0) &&& 0xC0 = 0 && Stun.read32 data 4 = stunCookie

def looksLikeDtlsRecord (data : Bytes) : Bool :=
  13 ≤ data.length && 20 ≤ data.getD 0 0 && data.getD 0 0 ≤ 23 && data.getD 1 0 = 0xfe
    && (data.getD 2 0 = 0xff || data.getD 2 0 = 0xfd)

/-- What the inner packet `data` of an indication comes to; a response goes out for a binding
request in order. -/
def receiveInnerStun (hmacSha1 : Bytes → Bytes → Vector UInt8 20) (c : IceCredentials)
    (result : ReceiveResult) (data : Bytes) (txid : Vector UInt8 12) :
    ReceiveResult × Option Bytes :=
  let result := { result with kind := .innerStun, innerStunType := Stun.read16 data 0 }
  if Stun.read16 data 0 = bindingRequest then
    let verdict := judgePersistentRequest hmacSha1 c data
    if !verdict.usernameOk || !verdict.integrityOk then (result, none)
    else
      match makeIceBindingSuccessResponse hmacSha1 (slice data 8 12) result.peerHost
          result.peerPort c.localPassword with
      | none => (result, none)
      | some response => (result, makeTurnSendIndication txid result.peerHost result.peerPort response)
  else (result, none)

/-- `Ios6TurnReceivePacket`, with the indication that it sends, if it sends one under `txid`. -/
def turnReceivePacket (hmacSha1 : Bytes → Bytes → Vector UInt8 20) (fd : Int) (recv : Recv)
    (selectedPeerHost : Bytes) (selectedPeerPort : UInt16) (c : IceCredentials)
    (txid : Vector UInt8 12) : ReceiveResult × Option Bytes :=
  if fd < 0 then ({ error := "TURN socket is not open".toUTF8.toList }, none) else
  match recv with
  | .wouldBlock => ({ timeout := true }, none)
  | .failed error => ({ error }, none)
  | .datagram bytes =>
    let buffer := received bytes
    if buffer.length < 20 then ({ kind := .other }, none)
    else if Stun.read32 buffer 4 ≠ stunCookie then ({ kind := .other }, none)
    else if Stun.read16 buffer 0 ≠ turnDataIndication then ({ kind := .other }, none)
    else
      let peer := indicationPeer selectedPeerHost selectedPeerPort buffer
      let result : ReceiveResult := { peerHost := peer.1, peerPort := peer.2 }
      match attributeValue buffer attrData with
      | none => ({ result with kind := .other }, none)
      | some data =>
        if looksLikeStun data then receiveInnerStun hmacSha1 c result data txid
        else
          let alternatePeer := selectedPeerHost ≠ [] ∧ selectedPeerPort ≠ 0
            ∧ (result.peerHost ≠ selectedPeerHost ∨ result.peerPort ≠ selectedPeerPort)
          if alternatePeer ∧ ¬ looksLikeDtlsRecord data then ({ result with kind := .other }, none)
          else if data = [] then ({ result with kind := .other }, none)
          else ({ result with kind := .transport, data }, none)

end Onegram.Turn
