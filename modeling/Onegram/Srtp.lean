import Onegram.Lib.Bytes
import Onegram.Lib.Run

/-!
# SRTP for calls

The two directions of `Ios6DtlsTransport`: keys derived from the material of the DTLS handshake, one
rollover counter for the whole direction, and packets encrypted with AES in counter mode under an
index made of the stream, the counter and the sequence number. The receiver is not sent the
counter: it guesses it from how far the sequence number is from the last one. The block cipher and
the hash are parameters.
-/

namespace Onegram

open Bytes

/-! ## Packets -/

/-- 0 for bytes that are no RTP packet. -/
def rtpHeaderLength (data : Bytes) : ℕ :=
  if data.length < 12 ∨ (data.getD 0 0).toNat / 64 ≠ 2 then 0
  else
    let csrcCount := (data.getD 0 0).toNat % 16
    let headerLength := 12 + csrcCount * 4
    if headerLength > data.length then 0
    else if (data.getD 0 0).toNat / 16 % 2 = 1 then
      if headerLength + 4 > data.length then 0
      else
        let extensionWords :=
          (data.getD (headerLength + 2) 0).toNat * 256 + (data.getD (headerLength + 3) 0).toNat
        let headerLength := headerLength + (4 + extensionWords * 4)
        if headerLength > data.length then 0 else headerLength
    else headerLength

def read16 (data : Bytes) (off : ℕ) : UInt16 :=
  (data.getD off 0).toUInt16 <<< 8 ||| (data.getD (off + 1) 0).toUInt16

def read32 (data : Bytes) (off : ℕ) : UInt32 :=
  (data.getD off 0).toUInt32 <<< 24 ||| (data.getD (off + 1) 0).toUInt32 <<< 16
    ||| (data.getD (off + 2) 0).toUInt32 <<< 8 ||| (data.getD (off + 3) 0).toUInt32

/-! ## Keys and key streams -/

section Cipher

variable (aes : Bytes → Bytes → Bytes) (hmacSha1 : Bytes → Bytes → Bytes)

/-- `n` bytes of the counter mode stream; the counter is the last two bytes of the block. -/
def counterStream (key iv : Bytes) (n : ℕ) : Bytes :=
  (List.range n).map fun i => (aes key (iv.take 14 ++ bytesBE 2 (i / 16))).getD (i % 16) 0

def srtpKdf (masterKey masterSalt : Bytes) (label : UInt8) (outputSize : ℕ) : Bytes :=
  counterStream aes masterKey (masterSalt.set 7 (masterSalt.getD 7 0 ^^^ label)) outputSize

def srtpIv (salt : Bytes) (roc : UInt32) (sequence : UInt16) (ssrc : UInt32) : Bytes :=
  List.zipWith (· ^^^ ·) salt
    ([0, 0, 0, 0] ++ bytesBE 4 ssrc.toNat ++ bytesBE 6 (roc.toNat * 65536 + sequence.toNat))

def srtpCryptPayload (packet : Bytes) (headerLength : ℕ) (encryptionKey salt : Bytes)
    (roc : UInt32) (sequence : UInt16) (ssrc : UInt32) : Option Bytes :=
  if headerLength > packet.length ∨ encryptionKey.length ≠ 16 ∨ salt.length ≠ 14 then none
  else
    let payload := packet.drop headerLength
    some (packet.take headerLength ++ List.zipWith (· ^^^ ·) payload
      (counterStream aes encryptionKey (srtpIv salt roc sequence ssrc) payload.length))

def srtpAuthenticationTag (packet authenticationKey : Bytes) (roc : UInt32) : Option Bytes :=
  if authenticationKey.length ≠ 20 then none
  else some ((hmacSha1 authenticationKey (packet ++ bytesBE 4 roc.toNat)).take 10)

/-! ## The sender -/

structure SrtpSender where
  ready : Bool
  isClient : Bool
  keyMaterial : Bytes
  encryptionKey : Bytes
  authenticationKey : Bytes
  salt : Bytes
  roc : UInt32
  ssrc : UInt32
  lastSequence : UInt16
  initialized : Bool

def SrtpSender.start (ready isClient : Bool) (keyMaterial : Bytes) : SrtpSender :=
  ⟨ready, isClient, keyMaterial, [], [], [], 0, 0, 0, false⟩

def SrtpSender.hasKeys (s : SrtpSender) : Bool :=
  s.encryptionKey.length = 16 ∧ s.authenticationKey.length = 20 ∧ s.salt.length = 14

/-- `prepareSrtpKeys(true)`. -/
def prepareSrtpKeys (s : SrtpSender) : Option SrtpSender :=
  if !s.ready ∨ s.keyMaterial.length ≠ 60 then none
  else if s.hasKeys then some s
  else
    let masterKey := (s.keyMaterial.drop (if s.isClient then 0 else 16)).take 16
    let masterSalt := (s.keyMaterial.drop (if s.isClient then 32 else 46)).take 14
    some { s with
      encryptionKey := srtpKdf aes masterKey masterSalt 0x00 16
      authenticationKey := srtpKdf aes masterKey masterSalt 0x01 20
      salt := srtpKdf aes masterKey masterSalt 0x02 14
      roc := 0
      ssrc := 0
      lastSequence := 0
      initialized := false }

/-- The rollover counter as a packet of the stream is about to be sent. Another stream than the
last one starts over. -/
def updateRoc (s : SrtpSender) (ssrc : UInt32) (sequence : UInt16) : SrtpSender :=
  if !s.initialized ∨ s.ssrc ≠ ssrc then
    { s with ssrc := ssrc, roc := 0, lastSequence := sequence, initialized := true }
  else
    let delta : Int := (sequence.toNat : Int) - s.lastSequence.toNat
    if delta < -32768 then { s with roc := s.roc + 1, lastSequence := sequence }
    else if 0 < delta ∧ delta < 32768 then { s with lastSequence := sequence }
    else s

/-- `protectRtp`: the sender afterwards, and the protected packet. -/
def protectRtp (s : SrtpSender) (packet : Bytes) : SrtpSender × Option Bytes :=
  match prepareSrtpKeys aes s with
  | none => (s, none)
  | some s =>
    let headerLength := rtpHeaderLength packet
    if headerLength = 0 ∨ packet.length < 12 then (s, none)
    else
      let sequence := read16 packet 2
      let ssrc := read32 packet 8
      let s := updateRoc s ssrc sequence
      match srtpCryptPayload aes packet headerLength s.encryptionKey s.salt s.roc sequence ssrc with
      | none => (s, none)
      | some crypted =>
        match srtpAuthenticationTag hmacSha1 crypted s.authenticationKey s.roc with
        | none => (s, none)
        | some tag => (s, some (crypted ++ tag))

/-- What the key stream of a packet depends on besides the keys. -/
structure KeystreamIndex where
  ssrc : UInt32
  roc : UInt32
  sequence : UInt16
  deriving DecidableEq

/-- The sender, and the indices its packets were encrypted under. -/
@[ext] structure SrtpRun where
  sender : SrtpSender
  used : List KeystreamIndex

def protectStep (s : SrtpRun) (packet : Bytes) : SrtpRun :=
  let r := protectRtp aes hmacSha1 s.sender packet
  ⟨r.1, match r.2 with
    | none => s.used
    | some _ => s.used ++ [⟨read32 packet 8, r.1.roc, read16 packet 2⟩]⟩

/-- What a sender makes of a row of packets. -/
def protectAll : SrtpSender → List Bytes → List (Option Bytes)
  | _, [] => []
  | s, packet :: rest =>
    let r := protectRtp aes hmacSha1 s packet
    r.2 :: protectAll r.1 rest

/-! ## The receiver -/

structure SrtpReceiver where
  ready : Bool
  isClient : Bool
  keyMaterial : Bytes
  encryptionKey : Bytes
  authenticationKey : Bytes
  salt : Bytes
  roc : UInt32
  ssrc : UInt32
  lastSequence : UInt16
  initialized : Bool

def SrtpReceiver.start (ready isClient : Bool) (keyMaterial : Bytes) : SrtpReceiver :=
  ⟨ready, isClient, keyMaterial, [], [], [], 0, 0, 0, false⟩

def SrtpReceiver.hasKeys (s : SrtpReceiver) : Bool :=
  s.encryptionKey.length = 16 ∧ s.authenticationKey.length = 20 ∧ s.salt.length = 14

/-- `prepareSrtpKeys(false)`. -/
def prepareRecvSrtpKeys (s : SrtpReceiver) : Option SrtpReceiver :=
  if !s.ready ∨ s.keyMaterial.length ≠ 60 then none
  else if s.hasKeys then some s
  else
    let masterKey := (s.keyMaterial.drop (if s.isClient then 16 else 0)).take 16
    let masterSalt := (s.keyMaterial.drop (if s.isClient then 46 else 32)).take 14
    some { s with
      encryptionKey := srtpKdf aes masterKey masterSalt 0x00 16
      authenticationKey := srtpKdf aes masterKey masterSalt 0x01 20
      salt := srtpKdf aes masterKey masterSalt 0x02 14
      roc := 0
      ssrc := 0
      lastSequence := 0
      initialized := false }

def SrtpReceiver.newStream (s : SrtpReceiver) (ssrc : UInt32) : Bool :=
  !s.initialized ∨ s.ssrc ≠ ssrc

/-- The rollover counter a packet is taken to have been sent under. -/
def guessedRoc (s : SrtpReceiver) (ssrc : UInt32) (sequence : UInt16) : UInt32 :=
  if s.newStream ssrc then 0
  else if s.lastSequence.toNat < 32768 then
    if (sequence.toNat : Int) - s.lastSequence.toNat > 32768 then s.roc - 1 else s.roc
  else
    if (s.lastSequence.toNat : Int) - 32768 > sequence.toNat then s.roc + 1 else s.roc

/-- The receiver after a packet was accepted. -/
def acceptSequence (s : SrtpReceiver) (ssrc : UInt32) (sequence : UInt16) : SrtpReceiver :=
  let guess := guessedRoc s ssrc sequence
  if s.newStream ssrc then
    { s with ssrc := ssrc, roc := guess, lastSequence := sequence, initialized := true }
  else if guess = s.roc + 1 then { s with roc := guess, lastSequence := sequence }
  else if guess = s.roc ∧ s.lastSequence < sequence then { s with lastSequence := sequence }
  else s

/-- `unprotectRtp`: the receiver afterwards, and the packet where it is accepted. -/
def unprotectRtp (s : SrtpReceiver) (packet : Bytes) : SrtpReceiver × Option Bytes :=
  match prepareRecvSrtpKeys aes s with
  | none => (s, none)
  | some s =>
    if packet.length < 12 + 10 then (s, none)
    else
      let protectedSize := packet.length - 10
      let headerLength := rtpHeaderLength (packet.take protectedSize)
      if headerLength = 0 then (s, none)
      else
        let sequence := read16 packet 2
        let ssrc := read32 packet 8
        let guess := guessedRoc s ssrc sequence
        match srtpAuthenticationTag hmacSha1 (packet.take protectedSize) s.authenticationKey
            guess with
        | none => (s, none)
        | some expectedTag =>
          if expectedTag ≠ packet.drop protectedSize then (s, none)
          else
            match srtpCryptPayload aes (packet.take protectedSize) headerLength s.encryptionKey
                s.salt guess sequence ssrc with
            | none => (s, none)
            | some plain => (acceptSequence s ssrc sequence, some plain)

/-- What `unprotectRtp` leaves behind. -/
structure Unprotected where
  receiver : SrtpReceiver
  packet : Bytes
  result : Bool

/-- `unprotectRtp` with the packet it is given, which it changes in its place. -/
def unprotectRtpInPlace (s : SrtpReceiver) (packet : Bytes) : Unprotected :=
  match prepareRecvSrtpKeys aes s with
  | none => ⟨s, packet, false⟩
  | some s =>
    if packet.length < 12 + 10 then ⟨s, packet, false⟩
    else
      let protectedSize := packet.length - 10
      let headerLength := rtpHeaderLength (packet.take protectedSize)
      if headerLength = 0 then ⟨s, packet, false⟩
      else
        let sequence := read16 packet 2
        let ssrc := read32 packet 8
        let guess := guessedRoc s ssrc sequence
        match srtpAuthenticationTag hmacSha1 (packet.take protectedSize) s.authenticationKey
            guess with
        | none => ⟨s, packet, false⟩
        | some expectedTag =>
          if expectedTag ≠ packet.drop protectedSize then ⟨s, packet, false⟩
          else
            let packet := packet.take protectedSize
            match srtpCryptPayload aes packet headerLength s.encryptionKey s.salt guess sequence
                ssrc with
            -- What was cut off is gone by now.
            | none => ⟨s, packet, false⟩
            | some plain => ⟨acceptSequence s ssrc sequence, plain, true⟩

/-- What a receiver makes of a row of packets. -/
def unprotectAll : SrtpReceiver → List Bytes → List (Option Bytes)
  | _, [] => []
  | s, packet :: rest =>
    let r := unprotectRtp aes hmacSha1 s packet
    r.2 :: unprotectAll r.1 rest

end Cipher

end Onegram
