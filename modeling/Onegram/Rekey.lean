import Onegram.Crypto.DiffieHellman
import Onegram.Lib.Run
import Onegram.SecretChat

/-!
# Rekeying a secret chat

`maybeRekeyPeerId:` begins an exchange, and `_poll` of the incoming queue answers the peer's
`requestKey`, `acceptKey`, `commitKey` and `abortKey`. Each side has one exchange at a time, in the
fields of the conversation; an exchange id of 0 there means none. Both run on the database queue.

A world is the two clients with the messages of each that are on their way to the other, in order.
The hash is a parameter; the random numbers come with the event. An empty key or number is `nil`.
-/

namespace Onegram

/-- The fields of `TGEncryptedConversationData` that rekeying uses. -/
structure EncryptedConversationData where
  currentRekeyExchangeId : Int := 0
  currentRekeyIsInitiatedByLocalClient : Bool := false
  currentRekeyNumber : Bytes := []
  currentRekeyKey : Bytes := []
  currentRekeyKeyId : Int := 0

/-- The layers that have the messages of rekeying. -/
def rekeyLayers : List ℕ := [20, 23, 46, 66, 73]

namespace Rekey

variable (MTSha1 : Bytes → Bytes)

/-- A client. The code reads none of the last four fields: the numbers of the exchanges it began, the
ids the peer requested, the requests it accepted with `g_a` and its number, and the exchanges it
stored a key for. -/
structure Client where
  db : ChatDb
  encryptedData : EncryptedConversationData := {}
  cachedEncryptionConfig : Option DhConfig
  outbox : List MessageData := []
  began : List (Int × Bytes) := []
  requests : List Int := []
  accepted : List (Int × Bytes × Bytes) := []
  stored : List (Int × Bytes) := []

/-- The key both sides derive, of 256 bytes. -/
def exchangeKey (config : DhConfig) (gAOrB number : Bytes) : Bytes :=
  addKeyPadding (MTExp gAOrB number config.p)

namespace Client

/-- A message is sent where the layer both sides know has it; the result is its `seqOut`. -/
def send (c : Client) (randomId : Int) (messageData : MessageData) : Client × Option Int :=
  let peerLayer := min c.db.peerLayer currentLayer
  if peerLayer ∈ rekeyLayers then
    let r := enqueueOutgoingServiceMessage c.db peerLayer randomId messageData
    ({ c with db := r.1, outbox := c.outbox ++ [messageData] }, some r.2)
  else (c, none)

/-- A `noop` means nothing to the peer, and is not put among the messages on their way. -/
def sendNoop (c : Client) (randomId : Int) : Client :=
  let peerLayer := min c.db.peerLayer currentLayer
  if peerLayer ∈ rekeyLayers then
    { c with db := (enqueueOutgoingServiceMessage c.db peerLayer randomId .noop).1 }
  else c

/-- `storeEncryptionKeyForConversationId:`. -/
def storeKey (c : Client) (exchangeId : Int) (key : Bytes) (keyId firstSeqOut : Int) : Client :=
  { c with
    db := { c.db with encryptionKeys := storeEncryptionKey c.db.encryptionKeys key keyId firstSeqOut }
    stored := c.stored ++ [(exchangeId, key)] }

/-- `maybeRekeyPeerId:`. -/
def maybeRekey (c : Client) (exchangeId : Int) (a : Bytes) (randomId : Int) : Client :=
  match c.cachedEncryptionConfig with
  | none => c
  | some config =>
    let g_a := MTExp config.gBytes a config.p
    if c.encryptedData.currentRekeyExchangeId ≠ 0 then c
    else if !MTCheckIsSafeGAOrB g_a config.p then c
    else
      ({ c with
          encryptedData := { c.encryptedData with
            currentRekeyExchangeId := exchangeId
            currentRekeyIsInitiatedByLocalClient := true
            currentRekeyNumber := a }
          began := c.began ++ [(exchangeId, a)] }.send randomId (.requestKey exchangeId g_a)).1

def markHandshakeAsAborted (c : Client) (exchangeId : Int) : Client :=
  if c.encryptedData.currentRekeyExchangeId = exchangeId then { c with encryptedData := {} } else c

def abortHandshake (c : Client) (exchangeId randomId : Int) : Client :=
  (c.send randomId (.abortKey exchangeId)).1.markHandshakeAsAborted exchangeId

/-- The answer to a `requestKey` that is to be accepted. -/
def acceptRequest (c : Client) (exchangeId : Int) (g_a b : Bytes) (randomId : Int) : Client :=
  match c.cachedEncryptionConfig with
  | none => (c.send randomId (.abortKey exchangeId)).1
  | some config =>
    if !MTCheckIsSafeGAOrB g_a config.p then c.abortHandshake exchangeId randomId
    else
      let key := exchangeKey config g_a b
      let keyId := keyFingerprint MTSha1 key
      ({ c with
          encryptedData := { c.encryptedData with
            currentRekeyExchangeId := exchangeId
            currentRekeyKey := key
            currentRekeyKeyId := keyId
            currentRekeyIsInitiatedByLocalClient := false }
          accepted := c.accepted ++ [(exchangeId, g_a, b)] }.send randomId
        (.acceptKey exchangeId (MTExp config.gBytes b config.p) keyId)).1

/-- Of two exchanges at once that of the higher id goes on. -/
def requestKey (c : Client) (exchangeId : Int) (g_a b : Bytes) (randomId : Int) : Client :=
  let c := { c with requests := c.requests ++ [exchangeId] }
  if c.encryptedData.currentRekeyExchangeId = 0 then c.acceptRequest MTSha1 exchangeId g_a b randomId
  else if c.encryptedData.currentRekeyIsInitiatedByLocalClient then
    if exchangeId < c.encryptedData.currentRekeyExchangeId then
      (c.send randomId (.abortKey exchangeId)).1
    else c.acceptRequest MTSha1 exchangeId g_a b randomId
  else c

/-- The key is stored where the `commitKey` can be sent. -/
def commit (c : Client) (exchangeId : Int) (key : Bytes) (keyId randomId noopId : Int) : Client :=
  let c := { c with encryptedData := {} }
  match c.send randomId (.commitKey exchangeId keyId) with
  | (c, some seqOut) => (c.storeKey exchangeId key keyId seqOut).sendNoop noopId
  | (c, none) => c.sendNoop noopId

def acceptKey (c : Client) (exchangeId : Int) (g_b : Bytes) (key_fingerprint randomId noopId : Int) :
    Client :=
  if c.encryptedData.currentRekeyExchangeId = exchangeId
      ∧ c.encryptedData.currentRekeyIsInitiatedByLocalClient then
    match c.cachedEncryptionConfig with
    | none => c
    | some config =>
      if !MTCheckIsSafeGAOrB g_b config.p then c.abortHandshake exchangeId randomId
      else
        let key := exchangeKey config g_b c.encryptedData.currentRekeyNumber
        let keyId := keyFingerprint MTSha1 key
        if keyId = key_fingerprint then c.commit exchangeId key keyId randomId noopId
        else c.abortHandshake exchangeId randomId
  else c

def commitKey (c : Client) (exchangeId key_fingerprint noopId : Int) : Client :=
  if c.encryptedData.currentRekeyExchangeId = exchangeId
      ∧ ¬ c.encryptedData.currentRekeyIsInitiatedByLocalClient then
    if c.encryptedData.currentRekeyKeyId = key_fingerprint then
      { c.storeKey exchangeId c.encryptedData.currentRekeyKey c.encryptedData.currentRekeyKeyId
          (peerNextSeqOut c.db) with encryptedData := {} }.sendNoop noopId
    else c
  else c

end Client

/-- What a client draws while it handles a message. -/
structure Random where
  b : Bytes
  randomId : Int
  noopId : Int

/-- One message of the peer. -/
def Client.receive (c : Client) (r : Random) : MessageData → Client
  | .requestKey exchangeId g_a => c.requestKey MTSha1 exchangeId g_a r.b r.randomId
  | .acceptKey exchangeId g_b key_fingerprint =>
    c.acceptKey MTSha1 exchangeId g_b key_fingerprint r.randomId r.noopId
  | .commitKey exchangeId key_fingerprint => c.commitKey exchangeId key_fingerprint r.noopId
  | .abortKey exchangeId => c.markHandshakeAsAborted exchangeId
  | _ => c

abbrev World := Bool → Client

inductive Event
  | maybeRekey (side : Bool) (exchangeId : Int) (a : Bytes) (randomId : Int)
  /-- The first message of `side` reaches the other. -/
  | deliver (side : Bool) (random : Random)
  | setPeerLayer (side : Bool) (layer : ℕ)
  | discardEncryptionKeys (side : Bool) (beforeSeqOut : Int)

namespace World

/-- One side, and the other. -/
def of (side : Bool) (c other : Client) : World := fun s => if s = side then c else other

def deliver (w : World) (side : Bool) (r : Random) : World :=
  match (w side).outbox with
  | [] => w
  | m :: rest => of side { w side with outbox := rest } ((w !side).receive MTSha1 r m)

def step (w : World) : Event → World
  | .maybeRekey side exchangeId a randomId =>
    of side ((w side).maybeRekey exchangeId a randomId) (w !side)
  | .deliver side r => w.deliver MTSha1 side r
  | .setPeerLayer side layer =>
    of side { w side with db := { (w side).db with peerLayer := layer } } (w !side)
  | .discardEncryptionKeys side beforeSeqOut =>
    of side { w side with db := { (w side).db with
      encryptionKeys := discardEncryptionKeys (w side).db.encryptionKeys beforeSeqOut } } (w !side)

/-- Two clients of an established chat that hold the same config. -/
def start (config : DhConfig) (db : Bool → ChatDb) : World := fun side =>
  { db := db side, cachedEncryptionConfig := some config }

end World

end Rekey

end Onegram
