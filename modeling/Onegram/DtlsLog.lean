import Onegram.Lib.Bytes

/-!
# The log of a DTLS flight

`ios6DtlsLogFlight` walks the records of a datagram and the handshake fragments in them, and looks
into two kinds of fragments. A byte outside the datagram is a read that is `none`. The lines are
what goes to `syslog`, less their wording.
-/

namespace Onegram.DtlsLog

open Bytes

def ios6DtlsRead16 (data : Bytes) (p : ℕ) : Option ℕ := do
  let high ← data[p]?
  let low ← data[p + 1]?
  pure (high.toNat * 256 + low.toNat)

def ios6DtlsRead24 (data : Bytes) (p : ℕ) : Option ℕ := do
  let high ← data[p]?
  let middle ← data[p + 1]?
  let low ← data[p + 2]?
  pure (high.toNat * 65536 + middle.toNat * 256 + low.toNat)

def ios6DtlsHandshakeName (type : UInt8) : String :=
  match type with
  | 0 => "HelloRequest"
  | 1 => "ClientHello"
  | 2 => "ServerHello"
  | 3 => "HelloVerifyRequest"
  | 11 => "Certificate"
  | 12 => "ServerKeyExchange"
  | 13 => "CertificateRequest"
  | 14 => "ServerHelloDone"
  | 15 => "CertificateVerify"
  | 16 => "ClientKeyExchange"
  | 20 => "Finished"
  | _ => "Unknown"

inductive Line
  | flight (record : ℕ) (type major minor : UInt8) (epoch len total : ℕ)
  | truncated (record need have' : ℕ)
  | hs (record hs : ℕ) (type : UInt8) (name : String) (msgLen seq fragOff fragLen : ℕ)
  | serverHello (major minor sessionIdLen : UInt8) (cipher : ℕ) (compression : UInt8)
  | ske (curveType : UInt8) (namedCurve : ℕ) (publicKeyLen firstPointByte : UInt8)
    (fragmentLen pointEnd : ℕ)
  | skeSignature (hash signature : UInt8) (signatureLen bytesAfterHeader : ℕ)
  | skeInvalidPointLength (publicKeyLen : UInt8) (fragmentLen : ℕ)
  | skeHex (bytes : ℕ) (data : Bytes)
  | trailing (offset total trailing : ℕ)
  deriving DecidableEq

variable (data : Bytes)

/-- What is looked at of a `ServerHello`. -/
def logServerHello (body fragmentLength : ℕ) : Option (List Line) :=
  if 38 ≤ fragmentLength then do
    let sessionIdLength ← data[body + 34]?
    let cipherOffset := 35 + sessionIdLength.toNat
    if cipherOffset + 3 ≤ fragmentLength then do
      let cipherSuite ← ios6DtlsRead16 data (body + cipherOffset)
      let compression ← data[body + cipherOffset + 2]?
      let major ← data[body]?
      let minor ← data[body + 1]?
      pure [.serverHello major minor sessionIdLength cipherSuite compression]
    else pure []
  else pure []

/-- The header of the signature, behind the point. -/
def logSignature (body fragmentLength : ℕ) (publicKeyLength : UInt8) : Option (List Line) :=
  let pointEnd := 4 + publicKeyLength.toNat
  if pointEnd ≤ fragmentLength ∧ pointEnd + 4 ≤ fragmentLength then do
    let hashAlgorithm ← data[body + pointEnd]?
    let signatureAlgorithm ← data[body + (pointEnd + 1)]?
    let signatureLength ← ios6DtlsRead16 data (body + (pointEnd + 2))
    pure [.skeSignature hashAlgorithm signatureAlgorithm signatureLength
      (fragmentLength - pointEnd - 4)]
  else pure [.skeInvalidPointLength publicKeyLength fragmentLength]

/-- The loop of the dump: `length` bytes from `p` on. -/
def dump : ℕ → ℕ → Option Bytes
  | _, 0 => pure []
  | p, length + 1 => do
    let byte ← data[p]?
    let bytes ← dump (p + 1) length
    pure (byte :: bytes)

/-- What is looked at of a `ServerKeyExchange`. The text has room for what is dumped. -/
def logServerKeyExchange (body fragmentLength : ℕ) : Option (List Line) :=
  if 4 ≤ fragmentLength then do
    let curveType ← data[body]?
    let namedCurve ← ios6DtlsRead16 data (body + 1)
    let publicKeyLength ← data[body + 3]?
    let firstPointByte ←
      if publicKeyLength ≠ 0 ∧ 5 ≤ fragmentLength then data[body + 4]? else pure 0
    let signature ← logSignature data body fragmentLength publicKeyLength
    let hex ← dump data body (min 80 fragmentLength)
    pure ([.ske curveType namedCurve publicKeyLength firstPointByte fragmentLength
        (4 + publicKeyLength.toNat)]
      ++ signature ++ [.skeHex (min 80 fragmentLength) hex])
  else pure []

def logBody (handshakeType : UInt8) (body fragmentLength : ℕ) : Option (List Line) :=
  if handshakeType = 2 then logServerHello data body fragmentLength
  else if handshakeType = 12 then logServerKeyExchange data body fragmentLength
  else pure []

/-- The loop over the fragments of a record. -/
def logHandshakes (recordIndex recordEnd handshakeIndex p : ℕ) : Option (List Line) :=
  if _h : p + 12 ≤ recordEnd then do
    let handshakeType ← data[p]?
    let messageLength ← ios6DtlsRead24 data (p + 1)
    let messageSeq ← ios6DtlsRead16 data (p + 4)
    let fragmentOffset ← ios6DtlsRead24 data (p + 6)
    let fragmentLength ← ios6DtlsRead24 data (p + 9)
    let header := Line.hs recordIndex handshakeIndex handshakeType
      (ios6DtlsHandshakeName handshakeType) messageLength messageSeq fragmentOffset fragmentLength
    let lines ← logBody data handshakeType (p + 12) fragmentLength
    let consumed := 12 + fragmentLength
    if _h' : consumed ≤ 12 ∨ recordEnd < p + consumed then pure (header :: lines)
    else do
      let rest ← logHandshakes recordIndex recordEnd (handshakeIndex + 1) (p + consumed)
      pure (header :: lines ++ rest)
  else pure []
termination_by recordEnd - p

/-- The last line, where the records do not end with the datagram. -/
def logTrailing (offset : ℕ) : List Line :=
  if offset ≠ data.length then [.trailing offset data.length (data.length - offset)] else []

/-- The loop over the records. -/
def logRecords (recordIndex offset : ℕ) : Option (List Line) :=
  if _h : offset + 13 ≤ data.length then do
    let contentType ← data[offset]?
    let versionMajor ← data[offset + 1]?
    let versionMinor ← data[offset + 2]?
    let epoch ← ios6DtlsRead16 data (offset + 3)
    let recordLength ← ios6DtlsRead16 data (offset + 11)
    let header := Line.flight recordIndex contentType versionMajor versionMinor epoch recordLength
      data.length
    let recordEnd := offset + 13 + recordLength
    if _h' : data.length < recordEnd then
      pure (header :: .truncated recordIndex recordEnd data.length :: logTrailing data offset)
    else do
      let lines ←
        if contentType = 22 then logHandshakes data recordIndex recordEnd 0 (offset + 13)
        else pure []
      let rest ← logRecords (recordIndex + 1) recordEnd
      pure (header :: lines ++ rest)
  else pure (logTrailing data offset)
termination_by data.length - offset

def ios6DtlsLogFlight : Option (List Line) :=
  if data.length = 0 then pure [] else logRecords data 0 0

end Onegram.DtlsLog
