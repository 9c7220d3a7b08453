import Onegram.Lib.Bytes
import Onegram.Lib.Run

/-!
# The DTLS transport of a call

`Ios6DtlsTransport` up to the keys: `configure`, `start`, `receiveDatagram` and `handleTimeout`
around an OpenSSL that is a parameter. OpenSSL has a state of its own; what it is given from outside
(random numbers, the time, which of its calls fail) is one more argument of each call. It reads the
queue of received datagrams and gives datagrams to the send callback.
-/

namespace Onegram.Dtls

/-- `std::string`. -/
abbrev Text := List Char

/-! ## OpenSSL -/

/-- The calls of `configure` that can fail. -/
inductive SetupCall
  | ctxNew
  | setCipherList
  | useCertificate
  | usePrivateKey
  | checkPrivateKey
  | ecKeyNew
  | setTmpEcdh
  | setSrtp
  | sslNew
  | bioNew
  deriving DecidableEq

inductive HandshakeResult
  | complete
  | want
  | error
  deriving DecidableEq

/-- What a call of `SSL_do_handshake` leaves: the datagrams not read, and those sent. -/
structure Handshake (σ : Type*) where
  result : HandshakeResult
  ssl : σ
  incoming : List Bytes
  sent : List Bytes

structure Timeout (σ : Type*) where
  result : ℤ
  ssl : σ
  sent : List Bytes

structure OpenSsl (σ ω : Type*) where
  /-- The first of the calls of `configure` that fails. -/
  setupFailure : ω → Option SetupCall
  new : ω → (isClient : Bool) → σ
  doHandshake : ω → σ → List Bytes → Handshake σ
  handleTimeout : ω → σ → Timeout σ
  /-- The digest of the certificate of the peer; none inside where it cannot be computed. -/
  peerCertificate : σ → Option (Option Bytes)
  selectedSrtpProfile : σ → Option Text
  exportKeyingMaterial : ω → σ → Option (Vector UInt8 60)

/-! ## The transport -/

structure DtlsTransport (σ : Type*) where
  ssl : Option σ
  incoming : List Bytes
  configured : Bool
  started : Bool
  ready : Bool
  failed : Bool
  isClient : Bool
  remoteHash : Text
  remoteFingerprint : Text
  remoteSetup : Text
  srtpKeyMaterial : Bytes

def DtlsTransport.fresh (σ : Type*) : DtlsTransport σ :=
  { ssl := none, incoming := [], configured := false, started := false, ready := false,
    failed := false, isClient := false, remoteHash := [], remoteFingerprint := [],
    remoteSetup := [], srtpKeyMaterial := [] }

def DtlsTransport.fail {σ : Type*} (t : DtlsTransport σ) : DtlsTransport σ :=
  { t with failed := true, ready := false }

def isXDigit (c : Char) : Bool :=
  ('0' ≤ c ∧ c ≤ '9') ∨ ('a' ≤ c ∧ c ≤ 'f') ∨ ('A' ≤ c ∧ c ≤ 'F')

def normalizeFingerprint (value : Text) : Text := (value.filter isXDigit).map Char.toUpper

def hexDigit (n : ℕ) : Char := "0123456789ABCDEF".toList.getD n '0'

/-- A digest as pairs of upper-case digits with colons between. -/
def formatDigest (digest : Bytes) : Text :=
  List.intercalate [':'] (digest.map fun b => [hexDigit (b.toNat / 16), hexDigit (b.toNat % 16)])

/-- The fingerprint of a certificate, empty where its digest cannot be computed. -/
def fingerprintForCertificate (certificate : Option Bytes) : Text :=
  (certificate.map formatDigest).getD []

section

variable {σ ω : Type*} (openSsl : OpenSsl σ ω)

structure ConfigureArguments where
  hasCertificate : Bool
  hasPrivateKey : Bool
  remoteHash : Text
  remoteFingerprint : Text
  remoteSetup : Text
  isOutgoing : Bool

def configure (w : ω) (a : ConfigureArguments) (t : DtlsTransport σ) : DtlsTransport σ :=
  if t.started then t
  else if !a.hasCertificate || !a.hasPrivateKey then t.fail
  else if a.remoteHash.map Char.toLower ≠ "sha-256".toList then t.fail
  else
    let isClient :=
      if a.remoteSetup = "active".toList then false
      else if a.remoteSetup = "passive".toList then true
      else a.isOutgoing
    let t := { t with
      remoteHash := a.remoteHash
      remoteFingerprint := a.remoteFingerprint
      remoteSetup := a.remoteSetup
      isClient }
    match openSsl.setupFailure w with
    | some .sslNew => DtlsTransport.fail { t with ssl := none }
    | some .bioNew => DtlsTransport.fail { t with ssl := some (openSsl.new w isClient) }
    | some _ => t.fail
    | none => { t with ssl := some (openSsl.new w isClient), configured := true }

/-- The end of the handshake, with its result. -/
def finishHandshake (w : ω) (s : σ) (t : DtlsTransport σ) : DtlsTransport σ :=
  match openSsl.peerCertificate s with
  | none => t.fail
  | some peer =>
    let expectedNormalized := normalizeFingerprint t.remoteFingerprint
    let actualNormalized := normalizeFingerprint (fingerprintForCertificate peer)
    if expectedNormalized = [] ∨ actualNormalized = [] ∨ expectedNormalized ≠ actualNormalized then
      t.fail
    else
      match openSsl.selectedSrtpProfile s with
      | none => t.fail
      | some profile =>
        if profile ≠ "SRTP_AES128_CM_SHA1_80".toList then t.fail
        else
          match openSsl.exportKeyingMaterial w s with
          | none => DtlsTransport.fail { t with srtpKeyMaterial := [] }
          | some material => { t with srtpKeyMaterial := material.toList, ready := true }

/-- The transport afterwards, and what it gave to the send callback. -/
def driveHandshake (w : ω) (t : DtlsTransport σ) : DtlsTransport σ × List Bytes :=
  match t.ssl with
  | none => (t, [])
  | some s =>
    if t.failed || t.ready then (t, [])
    else
      let h := openSsl.doHandshake w s t.incoming
      let t := { t with ssl := some h.ssl, incoming := h.incoming }
      match h.result with
      | .complete => (finishHandshake openSsl w h.ssl t, h.sent)
      | .want => (t, h.sent)
      | .error => (t.fail, h.sent)

def start (w : ω) (t : DtlsTransport σ) : DtlsTransport σ × List Bytes :=
  if !t.configured || t.ssl.isNone || t.failed then (t, [])
  else if t.started then (t, [])
  else driveHandshake openSsl w { t with started := true }

def receiveDatagram (w : ω) (data : Bytes) (t : DtlsTransport σ) : DtlsTransport σ × List Bytes :=
  if !t.started || t.ssl.isNone || data.isEmpty || t.failed || t.ready then (t, [])
  else driveHandshake openSsl w { t with incoming := t.incoming ++ [data] }

def handleTimeout (w : ω) (t : DtlsTransport σ) : DtlsTransport σ × List Bytes :=
  match t.ssl with
  | none => (t, [])
  | some s =>
    if !t.started || t.failed || t.ready then (t, [])
    else
      let r := openSsl.handleTimeout w s
      let t := { t with ssl := some r.ssl }
      if r.result < 0 then (t.fail, r.sent) else (t, r.sent)

/-- A call of the transport, with what OpenSSL is given from outside during it. -/
inductive DtlsCall (ω : Type*)
  | configure (w : ω) (a : ConfigureArguments)
  | start (w : ω)
  | receiveDatagram (w : ω) (data : Bytes)
  | handleTimeout (w : ω)

def dtlsStep (t : DtlsTransport σ) : DtlsCall ω → DtlsTransport σ
  | .configure w a => configure openSsl w a t
  | .start w => (start openSsl w t).1
  | .receiveDatagram w data => (receiveDatagram openSsl w data t).1
  | .handleTimeout w => (handleTimeout openSsl w t).1

end

end Onegram.Dtls

/-!
## Two transports over a link that loses datagrams

The handshake as OpenSSL runs it here, without a cookie and without resumption: four flights, of
which the client sends the first and the third. A flight is one datagram, its number. An endpoint
answers the flight it waits for with its next one, a flight it has answered with the same answer
once more, and its timer repeats the last flight it has sent.
-/

namespace Onegram.Dtls

def flight (k : ℕ) : Bytes := [UInt8.ofNat k]

/-- How many flights an endpoint has sent and how many of its peer it has received, two each. -/
structure FlightState where
  isClient : Bool
  sent : ℕ
  received : ℕ
  deriving DecidableEq

namespace FlightState

variable (s : FlightState)

def own (j : ℕ) : Bytes := flight (if s.isClient then 2 * j - 1 else 2 * j)

def peer (j : ℕ) : Bytes := flight (if s.isClient then 2 * j else 2 * j - 1)

def done : Bool := s.received = 2

/-- The flight the endpoint waits for. -/
def awaited : Bytes := s.peer (s.received + 1)

/-- The last flight again; nothing where none has been sent. -/
def resend : List Bytes := if s.sent = 0 then [] else [s.own s.sent]

def sendNext : FlightState × List Bytes :=
  if s.sent < 2 then ({ s with sent := s.sent + 1 }, [s.own (s.sent + 1)]) else (s, [])

def read (d : Bytes) : FlightState × List Bytes :=
  if s.received < 2 ∧ d = s.awaited then sendNext { s with received := s.received + 1 }
  else if 0 < s.received ∧ d = s.peer s.received then (s, s.resend)
  else (s, [])

/-- The queue is read until the handshake is complete. -/
def readAll : FlightState → List Bytes → Handshake FlightState
  | s, [] => ⟨if s.done then .complete else .want, s, [], []⟩
  | s, d :: ds =>
    if s.done then ⟨.complete, s, d :: ds, []⟩
    else
      let h := readAll (s.read d).1 ds
      { h with sent := (s.read d).2 ++ h.sent }

/-- A client begins with its first flight. -/
def begin : FlightState × List Bytes := if s.isClient ∧ s.sent = 0 then s.sendNext else (s, [])

end FlightState

/-- What a call of the transport meets outside: the call of `configure` that fails, whether the
handshake fails, what the timer returns and the keys. -/
structure Outside where
  setupFailure : Option SetupCall
  handshakeError : Bool
  timeout : ℤ
  material : Option (Vector UInt8 60)

/-- What the peer of an endpoint presents. -/
structure Presented where
  certificate : Option (Option Bytes)
  profile : Option Text

def flightMachine (peer : Presented) : OpenSsl FlightState Outside :=
  { setupFailure := Outside.setupFailure
    new := fun _ isClient => ⟨isClient, 0, 0⟩
    doHandshake := fun o s incoming =>
      if o.handshakeError then ⟨.error, s, incoming, []⟩
      else
        let h := s.begin.1.readAll incoming
        { h with sent := s.begin.2 ++ h.sent }
    handleTimeout := fun o s => ⟨o.timeout, s, if 0 < o.timeout then s.resend else []⟩
    peerCertificate := fun _ => peer.certificate
    selectedSrtpProfile := fun _ => peer.profile
    exportKeyingMaterial := fun o _ => o.material }

/-! ## The link -/

/-- Two transports and, for each, the datagrams that are on the way to it. -/
structure Endpoints where
  transport : Bool → DtlsTransport FlightState
  link : Bool → List Bytes

def Endpoints.fresh : Endpoints :=
  { transport := fun _ => .fresh FlightState, link := fun _ => [] }

inductive LinkEvent
  | configure (side : Bool) (o : Outside) (a : ConfigureArguments)
  | start (side : Bool) (o : Outside)
  | deliver (side : Bool) (i : ℕ) (o : Outside)
  | drop (side : Bool) (i : ℕ)
  | duplicate (side : Bool) (i : ℕ)
  | timeout (side : Bool) (o : Outside)

variable (presented : Bool → Presented)

abbrev sslOf (side : Bool) : OpenSsl FlightState Outside := flightMachine (presented side)

/-- A call of one transport: what it sends is on the way to the other. -/
def Endpoints.apply (side : Bool) (r : DtlsTransport FlightState × List Bytes) (w : Endpoints) :
    Endpoints :=
  { transport := Function.update w.transport side r.1
    link := Function.update w.link (!side) (w.link (!side) ++ r.2) }

def Endpoints.setLink (side : Bool) (l : List Bytes) (w : Endpoints) : Endpoints :=
  { w with link := Function.update w.link side l }

/-- Datagrams are delivered in any order: a delivery names the place of its datagram. -/
def linkStep (w : Endpoints) : LinkEvent → Endpoints
  | .configure side o a =>
    w.apply side (configure (sslOf presented side) o a (w.transport side), [])
  | .start side o => w.apply side (start (sslOf presented side) o (w.transport side))
  | .deliver side i o =>
    match (w.link side)[i]? with
    | none => w
    | some d => (w.setLink side ((w.link side).eraseIdx i)).apply side
        (receiveDatagram (sslOf presented side) o d (w.transport side))
  | .drop side i => w.setLink side ((w.link side).eraseIdx i)
  | .duplicate side i =>
    match (w.link side)[i]? with
    | none => w
    | some d => w.setLink side (w.link side ++ [d])
  | .timeout side o => w.apply side (handleTimeout (sslOf presented side) o (w.transport side))

end Onegram.Dtls
