import Onegram.Stun
import Onegram.Lib.Run

/-!
# The ICE probe

`Ios6TurnIceBindingProbe`: binding requests to the peer of the call, and to any other peer an
accepted request comes from, sent through the relay and repeated, until a response or a nomination
settles the pair or seven seconds have passed. One event of the machine is one pass of its loop: how
long since the last reading of the clock, what the socket did, and the random numbers drawn. Times
are in microseconds, `gettimeofday`'s unit.
-/

namespace Onegram.Stun

open Bytes

structure ProbeConfig where
  fd : ℤ
  peerHost : Bytes
  peerPort : UInt16
  credentials : IceCredentials
  tieBreaker : UInt64
  controlling : Bool
  useCandidate : Bool

structure Transaction where
  host : Bytes
  port : UInt16
  txid : Vector UInt8 12
  binding : Bytes
  indication : Bytes
  nextSend : ℕ
  retransmit : ℕ
  sendAttempt : ℕ
  succeeded : Bool

/-- Where the probe is. `outcome` is what it returns once it has; `sent` is every datagram it gave
the socket, in order. -/
structure ProbeState where
  clock : ℕ
  deadline : ℕ
  transactions : List Transaction
  ownCheckSucceeded : Bool
  selectedHost : Bytes
  selectedPort : UInt16
  error : String
  outcome : Option Bool
  sent : List Bytes

inductive SendResult
  | sent
  | short
  | failed (error : String)

inductive WaitResult
  | selectFailed (error : String)
  | timedOut
  | tryAgain
  | recvFailed (error : String)
  | datagram (bytes : Bytes)

structure ProbePass where
  elapsed : ℕ
  sends : ℕ → SendResult
  wait : WaitResult
  responseTxid : Vector UInt8 12
  responseSent : Bool
  waited : ℕ
  triggeredTxid : Vector UInt8 12
  triggeredOuterTxid : Vector UInt8 12

def ProbeState.fail (s : ProbeState) (error : String) : ProbeState :=
  { s with error := error, outcome := some false }

def ProbeState.select (s : ProbeState) (host : Bytes) (port : UInt16) : ProbeState :=
  { s with selectedHost := host, selectedPort := port, outcome := some true }

variable (hmacSha1 : Bytes → Bytes → Vector UInt8 20) (cfg : ProbeConfig)

def ProbeConfig.bindingRequest (txid : Vector UInt8 12) : Bytes :=
  makeIceBindingRequest hmacSha1 txid cfg.credentials.localUfrag cfg.credentials.remoteUfrag
    cfg.credentials.remotePassword cfg.tieBreaker cfg.controlling cfg.useCandidate

/-- A transaction about to be sent for the first time; none where no indication can be built. -/
def newTransaction (host : Bytes) (port : UInt16) (txid outerTxid : Vector UInt8 12) (now : ℕ) :
    Option Transaction :=
  (makeTurnSendIndication outerTxid host port (cfg.bindingRequest hmacSha1 txid)).map
    fun indication =>
      { host, port, txid, binding := cfg.bindingRequest hmacSha1 txid, indication, nextSend := now,
        retransmit := 500000, sendAttempt := 0, succeeded := false }

/-- The probe before its loop. -/
def probeStart (clock : ℕ) (txid outerTxid : Vector UInt8 12) : ProbeState :=
  let s : ProbeState :=
    { clock, deadline := clock + 7000000, transactions := [], ownCheckSucceeded := false,
      selectedHost := [], selectedPort := 0, error := "", outcome := none, sent := [] }
  if cfg.fd < 0 then s.fail "TURN socket is not open"
  else if cfg.peerHost = [] ∨ cfg.peerPort = 0 then s.fail "peer address missing"
  else if cfg.credentials.localUfrag = [] ∨ cfg.credentials.localPassword = [] ∨
      cfg.credentials.remoteUfrag = [] ∨ cfg.credentials.remotePassword = [] then
    s.fail "ICE credentials missing"
  else if inetPton cfg.peerHost = none then s.fail "ICE peer is not numeric IPv4"
  else
    match newTransaction hmacSha1 cfg cfg.peerHost cfg.peerPort txid outerTxid clock with
    | none => s.fail "failed to build TURN Send Indication"
    | some initial => { s with transactions := [initial] }

/-! ## Sending -/

/-- The requests that are due, sent in order up to the first failure: the transactions afterwards,
what was sent and the error. -/
def sendDue (now : ℕ) (sends : ℕ → SendResult) :
    ℕ → List Transaction → List Transaction × List Bytes × Option String
  | _, [] => ([], [], none)
  | i, t :: rest =>
    if t.succeeded ∨ t.sendAttempt ≥ 5 ∨ now < t.nextSend then
      let r := sendDue now sends (i + 1) rest
      (t :: r.1, r.2.1, r.2.2)
    else
      match sends i with
      | .failed error => (t :: rest, [], some error)
      | .short => (t :: rest, [], some "short TURN Send Indication send")
      | .sent =>
        let r := sendDue now sends (i + 1) rest
        ({ t with
            sendAttempt := t.sendAttempt + 1
            nextSend := now + t.retransmit
            retransmit := min (t.retransmit * 2) 1600000 } :: r.1,
          t.indication :: r.2.1, r.2.2)

/-! ## Receiving -/

/-- The check a request from a peer triggers: of the transaction with that peer, or of a new one. -/
def trigger (p : ProbePass) (s : ProbeState) (host : Bytes) (port : UInt16) : ProbeState :=
  let now := s.clock + p.waited
  match s.transactions.findIdx? fun t => t.host = host ∧ t.port = port with
  | some i => { s with
      clock := now
      transactions := s.transactions.modify i fun t =>
        if t.succeeded then t else { t with nextSend := now } }
  | none =>
    if inetPton host = none ∨ port = 0 then s
    else
      match newTransaction hmacSha1 cfg host port p.triggeredTxid p.triggeredOuterTxid now with
      | none => { s with clock := now }
      | some triggered => { s with clock := now, transactions := s.transactions ++ [triggered] }

/-- A binding request of a peer: checked, answered, and then a nomination or a trigger. -/
def takeRequest (p : ProbePass) (s : ProbeState) (host : Bytes) (port : UInt16) (data : Bytes) :
    ProbeState :=
  let v := judgeRequest hmacSha1 cfg.credentials data
  if !v.accepted then s
  else
    match makeIceBindingSuccessResponse hmacSha1 (slice data 8 12) host port
        cfg.credentials.localPassword with
    | none => s
    | some response =>
      match makeTurnSendIndication p.responseTxid host port response with
      | none => s
      | some indication =>
        if !p.responseSent then s
        else
          let s := { s with sent := s.sent ++ [indication] }
          if nominates cfg.controlling v then s.select host port
          else trigger hmacSha1 cfg p s host port

/-- A message that answers the transaction at `i`. -/
def takeResponse (s : ProbeState) (i : ℕ) (t : Transaction) (host : Bytes) (port : UInt16)
    (data : Bytes) : ProbeState :=
  if host ≠ t.host ∨ port ≠ t.port then s
  else if read16 data 0 = bindingSuccess then
    if !acceptsResponse hmacSha1 cfg.credentials data then s
    else
      let s := { s with
        transactions := s.transactions.modify i fun t => { t with succeeded := true }
        ownCheckSucceeded := true }
      if cfg.controlling then s.select t.host t.port else s
  else if read16 data 0 = bindingError then
    s.fail s!"ICE Binding error {parseStunErrorCode data}"
  else s

def takeDatagram (p : ProbePass) (s : ProbeState) (buffer : Bytes) : ProbeState :=
  match indicationData buffer with
  | none => s
  | some data =>
    let peer := indicationPeer cfg.peerHost cfg.peerPort buffer
    if data.length < 20 then s
    else if read32 data 4 ≠ stunCookie then s
    else if read16 data 0 = bindingRequest then takeRequest hmacSha1 cfg p s peer.1 peer.2 data
    else
      match s.transactions.findIdx? fun t => t.txid = slice data 8 12 with
      | none => s
      | some i =>
        match s.transactions[i]? with
        | none => s
        | some t => takeResponse hmacSha1 cfg s i t peer.1 peer.2 data

/-- What follows the wait of a pass. -/
def receive (p : ProbePass) (s : ProbeState) : ProbeState :=
  match p.wait with
  | .selectFailed error => s.fail error
  | .timedOut => s
  | .tryAgain => s
  | .recvFailed error => s.fail error
  | .datagram bytes => takeDatagram hmacSha1 cfg p s (received bytes)

/-- One pass of the loop. -/
def probeStep (s : ProbeState) (p : ProbePass) : ProbeState :=
  match s.outcome with
  | some _ => s
  | none =>
    let now := s.clock + p.elapsed
    let s := { s with clock := now }
    if now ≥ s.deadline then
      s.fail (if !cfg.controlling && s.ownCheckSucceeded then
        "ICE connectivity succeeded but nomination timed out"
      else "ICE Binding transaction timed out")
    else
      let r := sendDue now p.sends 0 s.transactions
      let s := { s with transactions := r.1, sent := s.sent ++ r.2.1 }
      match r.2.2 with
      | some error => s.fail error
      | none => receive hmacSha1 cfg p s

end Onegram.Stun
