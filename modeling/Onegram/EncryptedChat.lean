import Onegram.Crypto.DiffieHellman
import Onegram.Lib.Run
import Onegram.SecretChat

/-!
# The establishment of secret chats

The branch of `applyUpdates:` for `updateEncryption`, and the three actors that create, answer and
discard a chat. All of them run on the stage queue, a call of `applyUpdates:` from its first update
to its transaction without another actor in between. A chat is named by the id of the server, which
stands for that of the conversation.

The hash is a parameter; what is drawn at random comes with the event.
-/

namespace Onegram.EncryptedChat

open Function (update)

variable (MTSha1 : Bytes → Bytes)

/-- A config is cached after `MTCheckIsSafePrime`; of a safe prime it matters here that it is odd. -/
structure SafeConfig extends DhConfig where
  odd : bin2bn p % 2 = 1

inductive TLEncryptedChat
  | encryptedChatEmpty (n_id : Int)
  | encryptedChatWaiting (n_id access_hash : Int)
  | encryptedChatRequested (n_id access_hash : Int) (g_a : Bytes)
  | encryptedChat (n_id access_hash : Int) (g_a_or_b : Bytes) (key_fingerprint : Int)
  | encryptedChatDiscarded (n_id : Int)
  deriving DecidableEq

namespace TLEncryptedChat

def n_id : TLEncryptedChat → Int
  | encryptedChatEmpty n_id => n_id
  | encryptedChatWaiting n_id _ => n_id
  | encryptedChatRequested n_id _ _ => n_id
  | encryptedChat n_id _ _ _ => n_id
  | encryptedChatDiscarded n_id => n_id

end TLEncryptedChat

/-- The `encryptedData` of a `TGConversation`. The states are 1 for a chat this client has asked for,
2 for one it was asked for, 3 for a discarded and 4 for an established one. -/
structure Conversation where
  accessHash : Int
  keyFingerprint : Int
  handshakeState : ℕ
  deriving DecidableEq

/-- `initWithTelegraphEncryptedChatDesc:`. -/
def TLEncryptedChat.conversation : TLEncryptedChat → Conversation
  | encryptedChatWaiting _ access_hash => ⟨access_hash, 0, 0⟩
  | encryptedChatRequested _ access_hash _ => ⟨access_hash, 0, 0⟩
  | encryptedChat _ access_hash _ key_fingerprint => ⟨access_hash, key_fingerprint, 0⟩
  | _ => ⟨0, 0, 0⟩

/-- A `TGEncryptedChatResponseActor` that has sent its `g_b`. -/
structure Response where
  encryptedConversationId : Int
  key : Bytes
  keyId : Int
  deriving DecidableEq

/-- The database, the entries of the call of `applyUpdates:` under way, and the actors that wait for
an answer. No code reads `drawn`, the exponents this client has drawn and for which chat. -/
structure State where
  conversations : Int → Option Conversation := fun _ => none
  a : Int → Option Bytes := fun _ => none
  encryptionKeys : Int → List EncryptionKeyData := fun _ => []
  cachedEncryptionConfig : Option SafeConfig := none
  updatedEncryptedChats : Option (Int → Option Conversation) := none
  responses : List Response := []
  drawn : List (Int × Bytes) := []

namespace State

/-- `[TGRequestEncryptedChatActor cachedEncryptionConfig].p`; that of `nil` has no bytes. -/
def p (s : State) : Bytes := (s.cachedEncryptionConfig.map (·.p)).getD []

/-- `[loadConversationWithId:].encryptedData.handshakeState`, 0 where there is no conversation. -/
def storedHandshakeState (s : State) (n_id : Int) : ℕ :=
  ((s.conversations n_id).map (·.handshakeState)).getD 0

/-- The key for what the peer sent, with whatever is stored under `a`. -/
def exchangedKey (s : State) (n_id : Int) (g_a_or_b : Bytes) : Bytes :=
  addKeyPadding (MTExp g_a_or_b ((s.a n_id).getD []) s.p)

/-- `updatedEncryptedChats[n_id] = conversation`. -/
def setEntry (s : State) (n_id : Int) (conversation : Conversation) : State :=
  { s with
    updatedEncryptedChats :=
      some (update (s.updatedEncryptedChats.getD fun _ => none) n_id (some conversation)) }

/-- An update that leaves no entry. -/
def pass (s : State) : State :=
  { s with updatedEncryptedChats := some (s.updatedEncryptedChats.getD fun _ => none) }

/-- `setConversationCustomProperty:name:value:` for the name `a`. -/
def setA (s : State) (n_id : Int) (value : Bytes) : State :=
  { s with a := update s.a n_id (some value) }

/-- `storeEncryptionKeyForConversationId:`. -/
def storeKey (s : State) (n_id : Int) (key : Bytes) (keyFingerprint : Int) : State :=
  { s with
    encryptionKeys := update s.encryptionKeys n_id
      (storeEncryptionKey (s.encryptionKeys n_id) key keyFingerprint 0) }

/-- `transactionAddMessages:updateConversationDatas:notifyAdded:` for one conversation. -/
def setConversation (s : State) (n_id : Int) (conversation : Conversation) : State :=
  { s with conversations := update s.conversations n_id (some conversation) }

/-- One `updateEncryption` of `applyUpdates:`. -/
def applyUpdate (s : State) (chat : TLEncryptedChat) : State :=
  match chat with
  | .encryptedChatRequested n_id _ g_a =>
    (s.setEntry n_id { chat.conversation with handshakeState := 2 }).setA n_id g_a
  | .encryptedChat n_id _ g_a_or_b key_fingerprint =>
    if s.storedHandshakeState n_id ≠ 4 then
      let key := s.exchangedKey n_id g_a_or_b
      let keyId := keyFingerprint MTSha1 key
      if keyId = key_fingerprint then
        (s.setEntry n_id
          { chat.conversation with handshakeState := 4, keyFingerprint := keyId }).storeKey
            n_id key keyId
      else s.setEntry n_id { chat.conversation with handshakeState := 3 }
    else s.pass
  | .encryptedChatDiscarded n_id =>
    if (s.conversations n_id).isSome then
      s.setEntry n_id { chat.conversation with handshakeState := 3 }
    else s.pass
  | .encryptedChatWaiting _ _ => s.pass
  | .encryptedChatEmpty _ => s.pass

/-- The transaction at the end of `applyUpdates:`. -/
def commit (s : State) : State :=
  match s.updatedEncryptedChats with
  | none => s
  | some entries =>
    { s with
      conversations := fun n_id => (entries n_id).or (s.conversations n_id)
      updatedEncryptedChats := none }

def applyUpdates (s : State) (updates : List TLEncryptedChat) : State :=
  (updates.foldl (applyUpdate MTSha1) s).commit

/-- `encryptedChatRequestSuccess:` of `TGRequestEncryptedChatActor`, whose `dhRequestSuccess:` drew
`aBytes`. -/
def encryptedChatRequestSuccess (s : State) (aBytes : Bytes) (chat : TLEncryptedChat) : State :=
  { (s.setA chat.n_id aBytes).setConversation chat.n_id
      { chat.conversation with handshakeState := 1 } with
    drawn := s.drawn ++ [(chat.n_id, aBytes)] }

/-- `dhRequestSuccess:` of `TGEncryptedChatResponseActor`, which draws `b`. -/
def dhRequestSuccess (s : State) (n_id : Int) (b : Bytes) : State :=
  let gABytes := (s.a n_id).getD []
  if !MTCheckIsSafeGAOrB gABytes s.p then s
  else
    let key := addKeyPadding (MTExp gABytes b s.p)
    { s with responses := s.responses ++ [⟨n_id, key, keyFingerprint MTSha1 key⟩] }

/-- `acceptEncryptedChatSuccess:` of the `i`th actor that waits. -/
def acceptEncryptedChatSuccess (s : State) (i : ℕ) (chat : TLEncryptedChat) : State :=
  match s.responses[i]? with
  | none => s
  | some r =>
    { (s.storeKey r.encryptedConversationId r.key r.keyId).setConversation chat.n_id
        { chat.conversation with handshakeState := 4 } with
      responses := s.responses.eraseIdx i }

/-- `TGDiscardEncryptedChatActor`, locally. -/
def discardLocally (s : State) (n_id : Int) : State :=
  match s.conversations n_id with
  | none => s
  | some conversation => s.setConversation n_id { conversation with handshakeState := 3 }

end State

/-- What the actors do. -/
inductive Action
  /-- A config that passed the checks of one of the two. -/
  | setCachedEncryptionConfig (config : SafeConfig)
  | encryptedChatRequestSuccess (aBytes : Bytes) (chat : TLEncryptedChat)
  | dhRequestSuccess (n_id : Int) (b : Bytes)
  | acceptEncryptedChatSuccess (i : ℕ) (chat : TLEncryptedChat)
  | discardLocally (n_id : Int)

def State.act (s : State) : Action → State
  | .setCachedEncryptionConfig config => { s with cachedEncryptionConfig := some config }
  | .encryptedChatRequestSuccess aBytes chat => s.encryptedChatRequestSuccess aBytes chat
  | .dhRequestSuccess n_id b => s.dhRequestSuccess MTSha1 n_id b
  | .acceptEncryptedChatSuccess i chat => s.acceptEncryptedChatSuccess i chat
  | .discardLocally n_id => s.discardLocally n_id

inductive Event
  | act (action : Action)
  /-- The next update of a call of `applyUpdates:`. -/
  | update (chat : TLEncryptedChat)
  /-- The end of the call. -/
  | commit

/-- What an actor does has no place between the updates of a call. -/
def State.step (s : State) : Event → State
  | .act action => if s.updatedEncryptedChats.isSome then s else s.act MTSha1 action
  | .update chat => s.applyUpdate MTSha1 chat
  | .commit => s.commit

end Onegram.EncryptedChat
