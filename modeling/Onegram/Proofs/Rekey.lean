import Onegram.Rekey

/-!
# Two clients agree on the key of an exchange

The queues are short: a side that has asked for a key waits, and so does one that has accepted. The
joint states of the two clients with what is on its way are nine phases; each message that arrives
leads from one to another. A message the peer's layer does not have is not sent, so the queues of a
phase are sublists.

The phases rest on the ids: 0 stands for no exchange, and an id that was seen before may belong to
another exchange that is still answered.
-/

namespace Onegram.Rekey

open Client

variable (MTSha1 : Bytes → Bytes) (config : DhConfig)

/-! ## What a client does -/

/-- `g_a` or `g_b`. -/
def gPower (number : Bytes) : Bytes := MTExp config.gBytes number config.p

/-- Both sides derive one key. -/
theorem exchangeKey_comm (a b : Bytes) :
    exchangeKey config (gPower config b) a = exchangeKey config (gPower config a) b := by
  unfold exchangeKey gPower
  rw [MTExp_comm]

def requestOf (exchangeId : Int) (a : Bytes) : MessageData :=
  .requestKey exchangeId (gPower config a)

def acceptOf (exchangeId : Int) (a b : Bytes) : MessageData :=
  .acceptKey exchangeId (gPower config b)
    (keyFingerprint MTSha1 (exchangeKey config (gPower config a) b))

def commitOf (exchangeId : Int) (a b : Bytes) : MessageData :=
  .commitKey exchangeId (keyFingerprint MTSha1 (exchangeKey config (gPower config a) b))

/-- The client waits for the answer to its request. -/
structure Begun (c : Client) (x : Int) (a : Bytes) : Prop where
  current : c.encryptedData.currentRekeyExchangeId = x
  isLocal : c.encryptedData.currentRekeyIsInitiatedByLocalClient = true
  number : c.encryptedData.currentRekeyNumber = a
  began : (x, a) ∈ c.began
  safe : MTCheckIsSafeGAOrB (gPower config a) config.p = true
  nonzero : x ≠ 0

/-- The client has accepted the peer's request and waits for the commit. -/
structure Held (c : Client) (x : Int) (a b : Bytes) : Prop where
  current : c.encryptedData.currentRekeyExchangeId = x
  isRemote : c.encryptedData.currentRekeyIsInitiatedByLocalClient = false
  key : c.encryptedData.currentRekeyKey = exchangeKey config (gPower config a) b
  keyId : c.encryptedData.currentRekeyKeyId
    = keyFingerprint MTSha1 (exchangeKey config (gPower config a) b)
  accepted : (x, gPower config a, b) ∈ c.accepted
  requested : x ∈ c.requests
  nonzero : x ≠ 0

/-- A later state of a client that has stored no further key. -/
structure Client.Extends (c c' : Client) : Prop where
  config : c'.cachedEncryptionConfig = c.cachedEncryptionConfig
  stored : c'.stored = c.stored
  began : ∀ e ∈ c.began, e ∈ c'.began
  requests : ∀ x ∈ c.requests, x ∈ c'.requests
  accepted : ∀ e ∈ c.accepted, e ∈ c'.accepted

section Operations

variable {MTSha1 config} {c c' c'' : Client} {x y : Int} {a b : Bytes}

theorem Client.Extends.refl (c : Client) : c.Extends c :=
  ⟨rfl, rfl, fun _ h => h, fun _ h => h, fun _ h => h⟩

theorem Client.Extends.trans (h : c.Extends c') (h' : c'.Extends c'') : c.Extends c'' :=
  ⟨h'.config.trans h.config, h'.stored.trans h.stored, fun e he => h'.began e (h.began e he),
    fun e he => h'.requests e (h.requests e he), fun e he => h'.accepted e (h.accepted e he)⟩

theorem Begun.of_extends (h : Begun config c x a) (he : c.Extends c')
    (hdata : c'.encryptedData = c.encryptedData) : Begun config c' x a :=
  ⟨hdata ▸ h.current, hdata ▸ h.isLocal, hdata ▸ h.number, he.began _ h.began, h.safe, h.nonzero⟩

theorem Held.of_extends (h : Held MTSha1 config c x a b) (he : c.Extends c')
    (hdata : c'.encryptedData = c.encryptedData) : Held MTSha1 config c' x a b :=
  ⟨hdata ▸ h.current, hdata ▸ h.isRemote, hdata ▸ h.key, hdata ▸ h.keyId, he.accepted _ h.accepted,
    he.requests _ h.requested, h.nonzero⟩

/-- Sending changes the tables and, where it succeeds, the messages on their way. -/
theorem send_extends (c : Client) (randomId : Int) (m : MessageData) :
    c.Extends (c.send randomId m).1 ∧ (c.send randomId m).1.encryptedData = c.encryptedData
      ∧ (c.send randomId m).1.outbox.Sublist (c.outbox ++ [m]) := by
  unfold send
  simp only []
  split
  · exact ⟨⟨rfl, rfl, fun _ h => h, fun _ h => h, fun _ h => h⟩, rfl, List.Sublist.refl _⟩
  · exact ⟨.refl c, rfl, List.sublist_append_left _ _⟩

theorem send_keeps (c : Client) (randomId : Int) (m : MessageData) :
    ∀ m' ∈ c.outbox, m' ∈ (c.send randomId m).1.outbox := by
  intro m' hm'
  unfold send
  simp only []
  split
  · exact List.mem_append_left _ hm'
  · exact hm'

theorem sendNoop_eq (c : Client) (randomId : Int) :
    ∃ db, c.sendNoop randomId = { c with db } := by
  unfold sendNoop
  simp only []
  split
  · exact ⟨_, rfl⟩
  · exact ⟨c.db, rfl⟩

theorem markHandshakeAsAborted_ne (h : c.encryptedData.currentRekeyExchangeId ≠ x) :
    c.markHandshakeAsAborted x = c := if_neg h

theorem markHandshakeAsAborted_eq (h : c.encryptedData.currentRekeyExchangeId = x) :
    c.markHandshakeAsAborted x = { c with encryptedData := {} } := if_pos h

theorem acceptRequest_eq (hconfig : c.cachedEncryptionConfig = some config)
    (hsafe : MTCheckIsSafeGAOrB (gPower config a) config.p = true) (b : Bytes) (randomId : Int) :
    c.acceptRequest MTSha1 x (gPower config a) b randomId
      = ({ c with
          encryptedData := { c.encryptedData with
            currentRekeyExchangeId := x
            currentRekeyKey := exchangeKey config (gPower config a) b
            currentRekeyKeyId := keyFingerprint MTSha1 (exchangeKey config (gPower config a) b)
            currentRekeyIsInitiatedByLocalClient := false }
          accepted := c.accepted ++ [(x, gPower config a, b)] }.send randomId
            (acceptOf MTSha1 config x a b)).1 := by
  unfold acceptRequest
  split
  · rename_i hnone
    exact absurd (hconfig.symm.trans hnone) (by simp)
  · rename_i config' hsome
    obtain rfl : config = config' := Option.some.inj (hconfig.symm.trans hsome)
    rw [if_neg (by simp [hsafe])]
    rfl

variable (MTSha1) in
/-- A request is accepted by a client that has no exchange, or began one of no higher id. -/
theorem requestKey_accepts (hconfig : c.cachedEncryptionConfig = some config)
    (hsafe : MTCheckIsSafeGAOrB (gPower config a) config.p = true) (hx : x ≠ 0)
    (hfree : c.encryptedData.currentRekeyExchangeId = 0
      ∨ c.encryptedData.currentRekeyIsInitiatedByLocalClient = true
        ∧ ¬ x < c.encryptedData.currentRekeyExchangeId) (b : Bytes) (randomId : Int) :
    c.Extends (c.requestKey MTSha1 x (gPower config a) b randomId)
      ∧ Held MTSha1 config (c.requestKey MTSha1 x (gPower config a) b randomId) x a b
      ∧ (c.requestKey MTSha1 x (gPower config a) b randomId).outbox.Sublist
        (c.outbox ++ [acceptOf MTSha1 config x a b]) := by
  have haccept : c.requestKey MTSha1 x (gPower config a) b randomId
      = { c with requests := c.requests ++ [x] }.acceptRequest MTSha1 x (gPower config a) b
          randomId := by
    unfold requestKey
    simp only []
    rcases hfree with hfree | ⟨hloc, hlt⟩
    · rw [if_pos hfree]
    · split_ifs
      · rfl
      · rfl
  rw [haccept, acceptRequest_eq (c := { c with requests := c.requests ++ [x] }) hconfig hsafe]
  obtain ⟨hext, hdata, hout⟩ := send_extends
    { c with
      requests := c.requests ++ [x]
      encryptedData := { c.encryptedData with
        currentRekeyExchangeId := x
        currentRekeyKey := exchangeKey config (gPower config a) b
        currentRekeyKeyId := keyFingerprint MTSha1 (exchangeKey config (gPower config a) b)
        currentRekeyIsInitiatedByLocalClient := false }
      accepted := c.accepted ++ [(x, gPower config a, b)] } randomId
    (acceptOf MTSha1 config x a b)
  refine ⟨⟨hext.config, hext.stored, hext.began, fun e he => ?_, fun e he => ?_⟩,
    ⟨?_, ?_, ?_, ?_, ?_, ?_, hx⟩, hout⟩
  · exact hext.requests _ (List.mem_append_left _ he)
  · exact hext.accepted _ (List.mem_append_left _ he)
  all_goals first
    | exact hext.accepted _ (List.mem_append_right _ (List.mem_singleton_self _))
    | exact hext.requests _ (List.mem_append_right _ (List.mem_singleton_self _))
    | exact congrArg _ hdata

variable (MTSha1) in
/-- A request of a lower id than the client's own is refused. -/
theorem requestKey_refuses (hbegun : Begun config c y b) (hlt : x < y) (g_a b' : Bytes)
    (randomId : Int) :
    c.Extends (c.requestKey MTSha1 x g_a b' randomId)
      ∧ (c.requestKey MTSha1 x g_a b' randomId).encryptedData = c.encryptedData
      ∧ (c.requestKey MTSha1 x g_a b' randomId).outbox.Sublist (c.outbox ++ [.abortKey x]) := by
  unfold requestKey
  simp only []
  rw [if_neg (hbegun.current ▸ hbegun.nonzero), if_pos hbegun.isLocal,
    if_pos (hbegun.current ▸ hlt)]
  obtain ⟨hext, hdata, hout⟩ :=
    send_extends { c with requests := c.requests ++ [x] } randomId (.abortKey x)
  exact ⟨⟨hext.config, hext.stored, hext.began,
    fun e he => hext.requests e (List.mem_append_left _ he), hext.accepted⟩, hdata, hout⟩

/-- A client that has accepted a request ignores any other. -/
theorem requestKey_ignored (hheld : Held MTSha1 config c y a b) (g_a b' : Bytes) (randomId : Int) :
    c.requestKey MTSha1 x g_a b' randomId = { c with requests := c.requests ++ [x] } := by
  unfold requestKey
  simp only []
  rw [if_neg (hheld.current ▸ hheld.nonzero), if_neg (by simp [hheld.isRemote])]

theorem acceptKey_ignored (h : c.encryptedData.currentRekeyIsInitiatedByLocalClient = false)
    (g_b : Bytes) (key_fingerprint randomId noopId : Int) :
    c.acceptKey MTSha1 x g_b key_fingerprint randomId noopId = c := by
  unfold acceptKey
  rw [if_neg (by simp [h])]

/-- The client with one more stored key. -/
def Client.withStored (c : Client) (x : Int) (key : Bytes) : Client :=
  { c with stored := c.stored ++ [(x, key)] }

theorem commit_spec (c : Client) (x : Int) (key : Bytes) (keyId randomId noopId : Int) :
    (c.commit x key keyId randomId noopId).encryptedData = {}
      ∧ ((c.withStored x key).Extends (c.commit x key keyId randomId noopId)
          ∧ (c.commit x key keyId randomId noopId).outbox = c.outbox ++ [.commitKey x keyId]
        ∨ c.Extends (c.commit x key keyId randomId noopId)
          ∧ (c.commit x key keyId randomId noopId).outbox = c.outbox) := by
  unfold commit send
  simp only []
  split_ifs
  · obtain ⟨db, hdb⟩ := sendNoop_eq
      (({ c with
        encryptedData := {}
        db := (enqueueOutgoingServiceMessage c.db (min c.db.peerLayer currentLayer) randomId
          (.commitKey x keyId)).1
        outbox := c.outbox ++ [.commitKey x keyId] } : Client).storeKey x key keyId
        (enqueueOutgoingServiceMessage c.db (min c.db.peerLayer currentLayer) randomId
          (.commitKey x keyId)).2) noopId
    simp only [hdb]
    exact ⟨rfl, Or.inl ⟨⟨rfl, rfl, fun _ h => h, fun _ h => h, fun _ h => h⟩, rfl⟩⟩
  · obtain ⟨db, hdb⟩ := sendNoop_eq { c with encryptedData := {} } noopId
    simp only [hdb]
    exact ⟨trivial, Or.inr ⟨⟨rfl, rfl, fun _ h => h, fun _ h => h, fun _ h => h⟩, trivial⟩⟩

/-- The answer to the client's own request. -/
theorem acceptKey_eq (hconfig : c.cachedEncryptionConfig = some config)
    (hbegun : Begun config c x a) (r : Random) :
    c.receive MTSha1 r (acceptOf MTSha1 config x a b)
      = if MTCheckIsSafeGAOrB (gPower config b) config.p then
          c.commit x (exchangeKey config (gPower config a) b)
            (keyFingerprint MTSha1 (exchangeKey config (gPower config a) b)) r.randomId r.noopId
        else c.abortHandshake x r.randomId := by
  unfold acceptOf receive acceptKey
  simp only []
  rw [if_pos ⟨hbegun.current, hbegun.isLocal⟩]
  split
  · rename_i hnone
    exact absurd (hconfig.symm.trans hnone) (by simp)
  · rename_i config' hsome
    obtain rfl : config = config' := Option.some.inj (hconfig.symm.trans hsome)
    rw [hbegun.number, exchangeKey_comm, if_pos rfl]
    cases MTCheckIsSafeGAOrB (gPower config b) config.p <;> rfl

theorem abortHandshake_spec (h : c.encryptedData.currentRekeyExchangeId = x) (randomId : Int) :
    c.Extends (c.abortHandshake x randomId) ∧ (c.abortHandshake x randomId).encryptedData = {}
      ∧ (c.abortHandshake x randomId).outbox.Sublist (c.outbox ++ [.abortKey x]) := by
  obtain ⟨hext, hdata, hout⟩ := send_extends c randomId (.abortKey x)
  unfold abortHandshake
  rw [markHandshakeAsAborted_eq (hdata ▸ h)]
  exact ⟨⟨hext.config, hext.stored, hext.began, hext.requests, hext.accepted⟩, rfl, hout⟩

/-- The commit of the exchange a client has accepted. -/
theorem commitKey_spec (hheld : Held MTSha1 config c x a b) (r : Random) :
    (c.receive MTSha1 r (commitOf MTSha1 config x a b)).encryptedData = {}
      ∧ (c.withStored x (exchangeKey config (gPower config a) b)).Extends
        (c.receive MTSha1 r (commitOf MTSha1 config x a b))
      ∧ (c.receive MTSha1 r (commitOf MTSha1 config x a b)).outbox = c.outbox := by
  unfold commitOf receive commitKey
  simp only []
  rw [if_pos ⟨hheld.current, by simp [hheld.isRemote]⟩, if_pos hheld.keyId]
  obtain ⟨db, hdb⟩ := sendNoop_eq ({ c.storeKey x c.encryptedData.currentRekeyKey
    c.encryptedData.currentRekeyKeyId (peerNextSeqOut c.db) with encryptedData := {} } : Client)
    r.noopId
  rw [hdb, hheld.key]
  exact ⟨rfl, ⟨rfl, rfl, fun _ h => h, fun _ h => h, fun _ h => h⟩, rfl⟩

/-- A client without an exchange begins one, and its request is on its way. -/
theorem maybeRekey_spec (hconfig : c.cachedEncryptionConfig = some config) (hx : x ≠ 0) (a : Bytes)
    (randomId : Int) :
    c.maybeRekey x a randomId = c
      ∨ c.encryptedData.currentRekeyExchangeId = 0 ∧ c.Extends (c.maybeRekey x a randomId)
        ∧ Begun config (c.maybeRekey x a randomId) x a
        ∧ (c.maybeRekey x a randomId).outbox.Sublist (c.outbox ++ [requestOf config x a]) := by
  unfold maybeRekey
  split
  · exact Or.inl rfl
  · rename_i config' hsome
    obtain rfl : config = config' := Option.some.inj (hconfig.symm.trans hsome)
    simp only []
    split_ifs with hcur hsafe
    · exact Or.inl rfl
    · exact Or.inl rfl
    · obtain ⟨hext, hdata, hout⟩ := send_extends
        { c with
          encryptedData := { c.encryptedData with
            currentRekeyExchangeId := x
            currentRekeyIsInitiatedByLocalClient := true
            currentRekeyNumber := a }
          began := c.began ++ [(x, a)] } randomId (requestOf config x a)
      refine Or.inr ⟨not_not.mp hcur, ⟨hext.config, hext.stored,
        fun e he => hext.began e (List.mem_append_left _ he), hext.requests, hext.accepted⟩,
        ⟨congrArg _ hdata, congrArg _ hdata, congrArg _ hdata,
          hext.began _ (List.mem_append_right _ (List.mem_singleton_self _)), ?_, hx⟩, hout⟩
      simpa [gPower] using hsafe

theorem maybeRekey_keeps (c : Client) (x : Int) (a : Bytes) (randomId : Int) :
    ∀ m ∈ c.outbox, m ∈ (c.maybeRekey x a randomId).outbox := by
  intro m hm
  unfold maybeRekey
  split
  · exact hm
  · simp only []
    split_ifs
    · exact hm
    · exact hm
    · exact send_keeps _ _ _ m hm

end Operations

/-! ## The joint states -/

def Idle (c : Client) : Prop := c.encryptedData.currentRekeyExchangeId = 0

/-- Both have stored the keys of the same exchanges. -/
def Same (c o : Client) : Prop := ∀ e, e ∈ c.stored ↔ e ∈ o.stored

def Unstored (c o : Client) (x : Int) : Prop := ∀ key, (x, key) ∉ c.stored ∧ (x, key) ∉ o.stored

/-- The client stored a key when it sent the commit `m`, which the other has yet to see. -/
structure Committing (c o : Client) (x : Int) (key : Bytes) (m : MessageData) : Prop where
  mine : ∀ e ∈ c.stored, e ∈ o.stored ∨ e = (x, key) ∧ m ∈ c.outbox
  theirs : ∀ e ∈ o.stored, e ∈ c.stored
  sent : m ∈ c.outbox → (x, key) ∈ c.stored

/-- What two clients can be in together, seen from one of them. A message of the queue may be
missing, where the layer did not have it. -/
inductive Phase (c o : Client) : Prop
  | idle (hc : Idle c) (ho : Idle o) (qc : c.outbox = []) (qo : o.outbox = []) (hs : Same c o)
  | requested {x : Int} {a : Bytes} (hc : Begun config c x a) (ho : Idle o)
      (qc : c.outbox.Sublist [requestOf config x a]) (qo : o.outbox = []) (hs : Same c o)
      (hx : Unstored c o x)
  | crossed {x y : Int} {a a' : Bytes} (hc : Begun config c x a) (ho : Begun config o y a')
      (qc : c.outbox.Sublist [requestOf config x a]) (qo : o.outbox.Sublist [requestOf config y a'])
      (hs : Same c o) (hx : Unstored c o x) (hy : Unstored c o y)
  | refused {x y : Int} {a a' : Bytes} (hc : Begun config c x a) (ho : Begun config o y a')
      (hlt : x < y) (qc : c.outbox = [])
      (qo : o.outbox.Sublist [requestOf config y a', .abortKey x])
      (hs : Same c o) (hx : Unstored c o x) (hy : Unstored c o y)
  | accepted {x y : Int} {a b a' : Bytes} (hc : Begun config c x a)
      (ho : Held MTSha1 config o x a b) (hle : y ≤ x)
      (hsafe : MTCheckIsSafeGAOrB (gPower config a') config.p = true) (qc : c.outbox = [])
      (qo : o.outbox.Sublist [requestOf config y a', acceptOf MTSha1 config x a b])
      (hs : Same c o) (hx : Unstored c o x)
  | refusing {x y : Int} {a b : Bytes} (hc : Begun config c x a) (ho : Held MTSha1 config o x a b)
      (hne : y ≠ x) (qc : c.outbox.Sublist [.abortKey y])
      (qo : o.outbox.Sublist [acceptOf MTSha1 config x a b]) (hs : Same c o) (hx : Unstored c o x)
  | both {x : Int} {a b a' b' : Bytes} (hc : Held MTSha1 config c x a b)
      (ho : Held MTSha1 config o x a' b') (qc : c.outbox.Sublist [acceptOf MTSha1 config x a b])
      (qo : o.outbox.Sublist [acceptOf MTSha1 config x a' b']) (hs : Same c o)
  | closing {x y : Int} {a b : Bytes} {last : MessageData} (hc : Idle c)
      (ho : Held MTSha1 config o x a b) (hne : y ≠ x)
      (hlast : last = commitOf MTSha1 config x a b ∨ last = .abortKey x)
      (qc : c.outbox.Sublist [.abortKey y, last]) (qo : o.outbox = [])
      (hs : Committing c o x (exchangeKey config (gPower config a) b)
        (commitOf MTSha1 config x a b))
  | restarted {x y z : Int} {a b d : Bytes} {last : MessageData} (hc : Begun config c z d)
      (ho : Held MTSha1 config o x a b) (hne : y ≠ x)
      (hlast : last = commitOf MTSha1 config x a b ∨ last = .abortKey x)
      (qc : c.outbox.Sublist [.abortKey y, last, requestOf config z d]) (qo : o.outbox = [])
      (hs : Committing c o x (exchangeKey config (gPower config a) b)
        (commitOf MTSha1 config x a b)) (hz : Unstored c o z)

/-- The client began the exchange or was asked for it. -/
def Client.Knows (c : Client) (x : Int) : Prop := x ∈ c.began.map Prod.fst ∨ x ∈ c.requests

/-- The key is that of an exchange of these two. -/
def Derived (c o : Client) (x : Int) (key : Bytes) : Prop :=
  ∃ a b, ((x, a) ∈ c.began ∧ (x, gPower config a, b) ∈ o.accepted
      ∨ (x, a) ∈ o.began ∧ (x, gPower config a, b) ∈ c.accepted)
    ∧ key = exchangeKey config (gPower config b) a ∧ key = exchangeKey config (gPower config a) b

/-- What is true of the stored keys. -/
structure Ledger (c o : Client) : Prop where
  configs : c.cachedEncryptionConfig = some config ∧ o.cachedEncryptionConfig = some config
  knows : ∀ x key, (x, key) ∈ c.stored ∨ (x, key) ∈ o.stored → c.Knows x ∧ o.Knows x
  derived : ∀ x key, (x, key) ∈ c.stored ∨ (x, key) ∈ o.stored → Derived config c o x key
  unique : ∀ x key key', (x, key) ∈ c.stored ∨ (x, key) ∈ o.stored →
    (x, key') ∈ c.stored ∨ (x, key') ∈ o.stored → key = key'

/-- The invariant, from either side. -/
def Joint (c o : Client) : Prop :=
  Ledger config c o ∧ (Phase MTSha1 config c o ∨ Phase MTSha1 config o c)

section Ledgers

variable {MTSha1 config} {c c' o o' : Client} {x : Int} {key : Bytes}

theorem Derived.symm (h : Derived config c o x key) : Derived config o c x key := by
  obtain ⟨a, b, hab, hk⟩ := h
  exact ⟨a, b, hab.symm, hk⟩

theorem Ledger.symm (h : Ledger config c o) : Ledger config o c :=
  ⟨h.configs.symm, fun x key hx => (h.knows x key hx.symm).symm,
    fun x key hx => (h.derived x key hx.symm).symm,
    fun x key key' hx hx' => h.unique x key key' hx.symm hx'.symm⟩

theorem Joint.symm (h : Joint MTSha1 config c o) : Joint MTSha1 config o c := ⟨h.1.symm, h.2.symm⟩

theorem Client.Extends.knows (h : c.Extends c') (hx : c.Knows x) : c'.Knows x := by
  rcases hx with hx | hx
  · obtain ⟨e, he, rfl⟩ := List.mem_map.mp hx
    exact Or.inl (List.mem_map_of_mem (h.began e he))
  · exact Or.inr (h.requests x hx)

theorem Ledger.extend (h : Ledger config c o) (hc : c.Extends c') (ho : o.Extends o') :
    Ledger config c' o' := by
  refine ⟨⟨hc.config.trans h.configs.1, ho.config.trans h.configs.2⟩, ?_, ?_, ?_⟩
  all_goals
    rw [hc.stored, ho.stored]
  · exact fun x key hx => ⟨hc.knows (h.knows x key hx).1, ho.knows (h.knows x key hx).2⟩
  · intro x key hx
    obtain ⟨a, b, hab, hk⟩ := h.derived x key hx
    exact ⟨a, b, hab.imp (.imp (hc.began _) (ho.accepted _)) (.imp (ho.began _) (hc.accepted _)), hk⟩
  · exact h.unique

/-- A key of an exchange that has none is added. -/
theorem Ledger.store (h : Ledger config c o) (hc : c.Knows x) (ho : o.Knows x)
    (hd : Derived config c o x key)
    (hnew : ∀ key', (x, key') ∈ c.stored ∨ (x, key') ∈ o.stored → key' = key) :
    Ledger config (c.withStored x key) o := by
  have hsplit : ∀ {y : Int} {k : Bytes}, (y, k) ∈ (c.withStored x key).stored ∨ (y, k) ∈ o.stored →
      ((y, k) ∈ c.stored ∨ (y, k) ∈ o.stored) ∨ y = x ∧ k = key := by
    intro y k hy
    simpa [withStored, or_right_comm] using hy
  refine ⟨h.configs, ?_, ?_, ?_⟩
  · intro y k hy
    rcases hsplit hy with hy | ⟨rfl, -⟩
    · exact h.knows y k hy
    · exact ⟨hc, ho⟩
  · intro y k hy
    rcases hsplit hy with hy | ⟨rfl, rfl⟩
    · exact h.derived y k hy
    · exact hd
  · intro y k k' hy hy'
    rcases hsplit hy with hold | ⟨rfl, rfl⟩
    · rcases hsplit hy' with hold' | ⟨rfl, rfl⟩
      · exact h.unique y k k' hold hold'
      · exact hnew k hold
    · rcases hsplit hy' with hold' | ⟨-, rfl⟩
      · exact (hnew k' hold').symm
      · rfl

theorem Same.symm (h : Same c o) : Same o c := fun e => (h e).symm

theorem Unstored.symm (h : Unstored c o x) : Unstored o c x := fun key => (h key).symm

theorem Same.extend (h : Same c o) (hc : c.Extends c') (ho : o.Extends o') : Same c' o' := by
  intro e
  rw [hc.stored, ho.stored]
  exact h e

theorem Unstored.extend (h : Unstored c o x) (hc : c.Extends c') (ho : o.Extends o') :
    Unstored c' o' x := by
  intro key
  rw [hc.stored, ho.stored]
  exact h key

theorem Committing.extend {m : MessageData} (h : Committing c o x key m) (hc : c.Extends c')
    (ho : o.Extends o') (hm : m ∈ c'.outbox ↔ m ∈ c.outbox) : Committing c' o' x key m := by
  constructor
  all_goals rw [hc.stored]
  · rw [ho.stored, hm]
    exact h.mine
  · rw [ho.stored]
    exact h.theirs
  · rw [hm]
    exact h.sent

/-- The commit is not among the messages on their way. -/
theorem Committing.same {m : MessageData} (h : Committing c o x key m) (hm : m ∉ c.outbox) :
    Same c o :=
  fun e => ⟨fun he => (h.mine e he).resolve_right fun hlast => hm hlast.2, h.theirs e⟩

theorem Committing.of_same {m : MessageData} (h : Same c o) (hm : m ∉ c.outbox) :
    Committing c o x key m :=
  ⟨fun e he => Or.inl ((h e).mp he), fun e he => (h e).mpr he, fun hin => absurd hin hm⟩

end Ledgers

/-! ## One message -/

section Deliver

variable {MTSha1 config} {c c' o o' : Client} {x y : Int} {a b : Bytes} {m : MessageData}
  {rest : List MessageData}

/-- A client whose first message has left. -/
theorem extends_pop (c : Client) (rest : List MessageData) :
    c.Extends { c with outbox := rest } :=
  ⟨rfl, rfl, fun _ h => h, fun _ h => h, fun _ h => h⟩

theorem commitOf_ne_abort : commitOf MTSha1 config x a b ≠ .abortKey y := by
  unfold commitOf
  exact fun h => MessageData.noConfusion h

theorem commitOf_ne_request {d : Bytes} : commitOf MTSha1 config x a b ≠ requestOf config y d := by
  unfold commitOf requestOf
  exact fun h => MessageData.noConfusion h

/-- The answer to a request ends the exchange of the client that asked: with a commit, or with an
abort where `g_b` is not safe. -/
theorem accept_closes (h : Ledger config c o) (hc : Begun config c x a)
    (ho : Held MTSha1 config o x a b) (hne : y ≠ x) (qc : c.outbox.Sublist [.abortKey y])
    (hs : Same c o) (hx : Unstored c o x) (r : Random) :
    Joint MTSha1 config (c.receive MTSha1 r (acceptOf MTSha1 config x a b))
      { o with outbox := [] } := by
  have hpop := extends_pop o []
  have ho' := ho.of_extends hpop rfl
  have hout : commitOf MTSha1 config x a b ∉ c.outbox := fun hin =>
    commitOf_ne_abort (List.mem_singleton.mp (qc.subset hin))
  rw [acceptKey_eq h.configs.1 hc]
  split
  · obtain ⟨hdata, ⟨hext, hq⟩ | ⟨hext, hq⟩⟩ := commit_spec c x
      (exchangeKey config (gPower config a) b)
      (keyFingerprint MTSha1 (exchangeKey config (gPower config a) b)) r.randomId r.noopId
    · have hstore : Ledger config (c.withStored x (exchangeKey config (gPower config a) b)) o :=
        h.store (Or.inl (List.mem_map_of_mem hc.began)) (Or.inr ho.requested)
          ⟨a, b, Or.inl ⟨hc.began, ho.accepted⟩, (exchangeKey_comm config a b).symm, rfl⟩
          fun key' hk => absurd hk (by simp [hx key'])
      refine ⟨hstore.extend hext hpop, Or.inl (.closing (congrArg _ hdata) ho' hne (Or.inl rfl)
        ?_ rfl ⟨?_, ?_, ?_⟩)⟩
      · rw [hq]
        exact qc.append (List.Sublist.refl _)
      · intro e he
        rw [hext.stored] at he
        rcases List.mem_append.mp he with he | he
        · exact Or.inl ((hs e).mp he)
        · rw [hq]
          exact Or.inr ⟨List.mem_singleton.mp he,
            List.mem_append_right _ (List.mem_singleton_self _)⟩
      · intro e he
        rw [hext.stored]
        exact List.mem_append_left _ ((hs e).mpr he)
      · intro _
        rw [hext.stored]
        exact List.mem_append_right _ (List.mem_singleton_self _)
    · refine ⟨h.extend hext hpop, Or.inl (.closing (congrArg _ hdata) ho' hne (Or.inl rfl)
        ?_ rfl (.of_same (hs.extend hext hpop) (hq ▸ hout)))⟩
      rw [hq]
      exact qc.trans (List.sublist_append_left [MessageData.abortKey y] _)
  · obtain ⟨hext, hdata, hq⟩ := abortHandshake_spec hc.current r.randomId
    have hq' := hq.trans (qc.append (List.Sublist.refl [MessageData.abortKey x]))
    refine ⟨h.extend hext hpop, Or.inl (.closing (congrArg _ hdata) ho' hne (Or.inr rfl) hq' rfl
      (.of_same (hs.extend hext hpop) fun hin => ?_))⟩
    have hin' := hq'.subset hin
    simp only [List.cons_append, List.nil_append, List.mem_cons, List.not_mem_nil, or_false] at hin'
    exact hin'.elim commitOf_ne_abort commitOf_ne_abort

/-- The last message of a closed exchange brings the two together again. -/
theorem last_closes (h : Ledger config c o) (ho : Held MTSha1 config o x a b)
    (hlast : m = commitOf MTSha1 config x a b ∨ m = .abortKey x) (hm : m ∈ c.outbox)
    (hout : ∀ m' ∈ c.outbox, m' = commitOf MTSha1 config x a b → m' = m)
    (hs : Committing c o x (exchangeKey config (gPower config a) b)
      (commitOf MTSha1 config x a b)) (r : Random) (c' : Client) (hc : c.Extends c') :
    Ledger config c' (o.receive MTSha1 r m) ∧ Idle (o.receive MTSha1 r m)
      ∧ (o.receive MTSha1 r m).outbox = o.outbox ∧ Same c' (o.receive MTSha1 r m)
      ∧ ∀ z, Unstored c o z → Unstored c' (o.receive MTSha1 r m) z := by
  rcases hlast with rfl | rfl
  · obtain ⟨hdata, hext, hq⟩ := commitKey_spec ho r
    have hmine := hs.sent hm
    have hstore : Ledger config (o.withStored x (exchangeKey config (gPower config a) b)) c :=
      h.symm.store (Or.inr ho.requested) (h.knows _ _ (Or.inl hmine)).1
        (h.derived _ _ (Or.inl hmine)).symm
        fun key' hk => h.unique _ _ _ hk.symm (Or.inl hmine)
    refine ⟨(hstore.extend hext hc).symm, congrArg _ hdata, hq, fun e => ?_, fun z hz key => ?_⟩
    · rw [hext.stored, hc.stored]
      constructor
      · intro he
        rcases hs.mine e he with he | ⟨rfl, -⟩
        · exact List.mem_append_left _ he
        · exact List.mem_append_right _ (List.mem_singleton_self _)
      · intro he
        rcases List.mem_append.mp he with he | he
        · exact hs.theirs e he
        · exact List.mem_singleton.mp he ▸ hmine
    · rw [hext.stored, hc.stored]
      refine ⟨(hz key).1, fun hin => ?_⟩
      rcases List.mem_append.mp hin with hin | hin
      · exact (hz key).2 hin
      · obtain ⟨rfl, rfl⟩ := Prod.mk.inj (List.mem_singleton.mp hin)
        exact (hz _).1 hmine
  · have habort : o.receive MTSha1 r (.abortKey x) = { o with encryptedData := {} } :=
      markHandshakeAsAborted_eq ho.current
    have hext : o.Extends { o with encryptedData := {} } :=
      ⟨rfl, rfl, fun _ h => h, fun _ h => h, fun _ h => h⟩
    have hsame : Same c o := hs.same fun hin => commitOf_ne_abort (hout _ hin rfl)
    rw [habort]
    exact ⟨h.extend hc hext, rfl, rfl, hsame.extend hc hext, fun z hz => hz.extend hc hext⟩

/-- A message that is not the commit leaves. -/
theorem Committing.pop {key : Bytes} {last : MessageData} (h : Committing c o x key last)
    (hq : c.outbox = m :: rest) (hm : last ≠ m) (ho : o.Extends o') :
    Committing { c with outbox := rest } o' x key last :=
  h.extend (extends_pop c rest) ho (by simp [hq, hm])

theorem phase_deliver (h : Ledger config c o) (hp : Phase MTSha1 config c o)
    (hq : c.outbox = m :: rest) (r : Random) :
    Joint MTSha1 config { c with outbox := rest } (o.receive MTSha1 r m) := by
  have hpop := extends_pop c rest
  cases hp with
  | idle hc ho qc => exact absurd (hq.symm.trans qc) (by simp)
  | @requested x a hc ho qc qo hs hx =>
    rw [hq] at qc
    obtain ⟨rfl, rfl⟩ : m = requestOf config x a ∧ rest = [] := by
      simpa using qc
    obtain ⟨hext, hheld, hout⟩ := requestKey_accepts MTSha1 h.configs.2 hc.safe
      hc.nonzero (Or.inl ho) r.b r.randomId
    rw [qo] at hout
    exact ⟨h.extend hpop hext, Or.inl (.refusing (hc.of_extends hpop rfl) hheld
      (show x + 1 ≠ x by omega) (List.nil_sublist _) hout (hs.extend hpop hext)
      (hx.extend hpop hext))⟩
  | @crossed x y a a' hc ho qc qo hs hx hy =>
    rw [hq] at qc
    obtain ⟨rfl, rfl⟩ : m = requestOf config x a ∧ rest = [] := by
      simpa using qc
    have hc' := hc.of_extends hpop rfl
    by_cases hlt : x < y
    · obtain ⟨hext, hdata, hout⟩ := requestKey_refuses MTSha1 ho hlt
        (gPower config a) r.b r.randomId
      exact ⟨h.extend hpop hext, Or.inl (.refused hc' (ho.of_extends hext hdata) hlt rfl
        (hout.trans (qo.append (List.Sublist.refl _))) (hs.extend hpop hext) (hx.extend hpop hext)
        (hy.extend hpop hext))⟩
    · obtain ⟨hext, hheld, hout⟩ := requestKey_accepts MTSha1 h.configs.2 hc.safe
        hc.nonzero (Or.inr ⟨ho.isLocal, ho.current ▸ hlt⟩) r.b r.randomId
      exact ⟨h.extend hpop hext, Or.inl (.accepted hc' hheld (not_lt.mp hlt) ho.safe rfl
        (hout.trans (qo.append (List.Sublist.refl _))) (hs.extend hpop hext)
        (hx.extend hpop hext))⟩
  | refused hc ho hlt qc => exact absurd (hq.symm.trans qc) (by simp)
  | accepted hc ho hle hsafe qc => exact absurd (hq.symm.trans qc) (by simp)
  | @refusing x y a b hc ho hne qc qo hs hx =>
    rw [hq] at qc
    obtain ⟨rfl, rfl⟩ : m = .abortKey y ∧ rest = [] := by
      simpa using qc
    have hign : o.receive MTSha1 r (.abortKey y) = o :=
      markHandshakeAsAborted_ne (ho.current ▸ hne.symm)
    rw [hign]
    exact ⟨h.extend hpop (.refl o), Or.inl (.refusing (hc.of_extends hpop rfl) ho hne
      (List.nil_sublist _) qo (hs.extend hpop (.refl o)) (hx.extend hpop (.refl o)))⟩
  | @both x a b a' b' hc ho qc qo hs =>
    rw [hq] at qc
    obtain ⟨rfl, rfl⟩ : m = acceptOf MTSha1 config x a b ∧ rest = [] := by
      simpa using qc
    have hign : o.receive MTSha1 r (acceptOf MTSha1 config x a b) = o :=
      acceptKey_ignored ho.isRemote _ _ _ _
    rw [hign]
    exact ⟨h.extend hpop (.refl o), Or.inl (.both (hc.of_extends hpop rfl) ho (List.nil_sublist _)
      qo (hs.extend hpop (.refl o)))⟩
  | @closing x y a b last hc ho hne hlast qc qo hs =>
    have qc' := hq ▸ qc
    rcases List.sublist_cons_iff.mp qc' with hsub | ⟨rest', heq, hsub⟩
    · -- The abort was not sent or has arrived: what comes is the last message.
      obtain ⟨rfl, rfl⟩ : m = last ∧ rest = [] := by
        simpa using hsub
      obtain ⟨hled, hidle, hout, hsame, -⟩ := last_closes h ho hlast (by simp [hq])
        (fun m' hm' _ => by simpa [hq] using hm') hs r _ hpop
      exact ⟨hled, Or.inl (.idle hc hidle rfl (hout.trans qo) hsame)⟩
    · obtain ⟨rfl, rfl⟩ := List.cons.inj heq
      have hign : o.receive MTSha1 r (.abortKey y) = o :=
        markHandshakeAsAborted_ne (ho.current ▸ hne.symm)
      rw [hign]
      exact ⟨h.extend hpop (.refl o), Or.inl (.closing hc ho hne hlast
        (hsub.trans (List.sublist_cons_self _ _)) qo
        (hs.pop hq commitOf_ne_abort (.refl o)))⟩
  | @restarted x y z a b d last hc ho hne hlast qc qo hs hz =>
    have qc' := hq ▸ qc
    have hc' := hc.of_extends hpop rfl
    rcases List.sublist_cons_iff.mp qc' with hsub | ⟨rest', heq, hsub⟩
    · rcases List.sublist_cons_iff.mp hsub with hsub | ⟨rest', heq, hsub⟩
      · obtain ⟨rfl, rfl⟩ : m = requestOf config z d ∧ rest = [] := by
          simpa using hsub
        have hign := requestKey_ignored (x := z) ho (gPower config d) r.b r.randomId
        have hext : o.Extends { o with requests := o.requests ++ [z] } :=
          ⟨rfl, rfl, fun _ h => h, fun _ h => List.mem_append_left _ h, fun _ h => h⟩
        unfold requestOf receive
        simp only []
        rw [hign]
        exact ⟨h.extend hpop hext, Or.inl (.restarted hc' (ho.of_extends hext rfl) hne hlast
          (List.nil_sublist _) qo (hs.pop hq commitOf_ne_request hext) (hz.extend hpop hext))⟩
      · obtain ⟨rfl, rfl⟩ := List.cons.inj heq
        obtain ⟨hled, hidle, hout, hsame, hun⟩ := last_closes h ho hlast (by simp [hq])
          (fun m' hm' hm => by
            rcases List.mem_cons.mp (hq ▸ hm') with hm' | hm'
            · exact hm'
            · exact absurd (hm.symm.trans (List.mem_singleton.mp (hsub.subset hm')))
                commitOf_ne_request) hs r _ hpop
        exact ⟨hled, Or.inl (.requested hc' hidle hsub (hout.trans qo) hsame (hun z hz))⟩
    · obtain ⟨rfl, rfl⟩ := List.cons.inj heq
      have hign : o.receive MTSha1 r (.abortKey y) = o :=
        markHandshakeAsAborted_ne (ho.current ▸ hne.symm)
      rw [hign]
      exact ⟨h.extend hpop (.refl o), Or.inl (.restarted hc' ho hne hlast
        (hsub.trans (List.sublist_cons_self _ _)) qo (hs.pop hq commitOf_ne_abort (.refl o))
        (hz.extend hpop (.refl o)))⟩

theorem phase_deliver' (h : Ledger config c o) (hp : Phase MTSha1 config o c)
    (hq : c.outbox = m :: rest) (r : Random) :
    Joint MTSha1 config { c with outbox := rest } (o.receive MTSha1 r m) := by
  have hpop := extends_pop c rest
  cases hp with
  | idle hc ho qc qo => exact absurd (hq.symm.trans qo) (by simp)
  | requested hc ho qc qo => exact absurd (hq.symm.trans qo) (by simp)
  | crossed hc ho qc qo hs hx hy =>
    exact phase_deliver h (.crossed ho hc qo qc hs.symm hy.symm hx.symm) hq r
  | @refused x y a a' hc ho hlt qc qo hs hx hy =>
    have qo' := hq ▸ qo
    have ho' := ho.of_extends hpop rfl
    rcases List.sublist_cons_iff.mp qo' with hsub | ⟨rest', heq, hsub⟩
    · obtain ⟨rfl, rfl⟩ : m = .abortKey x ∧ rest = [] := by
        simpa using hsub
      have hcleared : o.receive MTSha1 r (.abortKey x) = { o with encryptedData := {} } :=
        markHandshakeAsAborted_eq hc.current
      have hext : o.Extends { o with encryptedData := {} } :=
        ⟨rfl, rfl, fun _ h => h, fun _ h => h, fun _ h => h⟩
      rw [hcleared]
      exact ⟨h.extend hpop hext, Or.inl (.requested ho' rfl (List.nil_sublist _) qc
        (hs.symm.extend hpop hext) (hy.symm.extend hpop hext))⟩
    · obtain ⟨rfl, rfl⟩ := List.cons.inj heq
      obtain ⟨hext, hheld, hout⟩ := requestKey_accepts MTSha1 h.configs.2 ho.safe
        ho.nonzero (Or.inr ⟨hc.isLocal, hc.current ▸ hlt.le.not_gt⟩) r.b r.randomId
      rw [qc] at hout
      exact ⟨h.extend hpop hext, Or.inl (.refusing ho' hheld hlt.ne hsub hout
        (hs.symm.extend hpop hext) (hy.symm.extend hpop hext))⟩
  | @accepted x y a b a' hc ho hle hsafe qc qo hs hx =>
    have qo' := hq ▸ qo
    have ho' := ho.of_extends hpop rfl
    rcases List.sublist_cons_iff.mp qo' with hsub | ⟨rest', heq, hsub⟩
    · obtain ⟨rfl, rfl⟩ : m = acceptOf MTSha1 config x a b ∧ rest = [] := by
        simpa using hsub
      exact (accept_closes h.symm hc ho (show x + 1 ≠ x by omega) (qc ▸ List.nil_sublist _) hs hx
        r).symm
    · obtain ⟨rfl, rfl⟩ := List.cons.inj heq
      rcases hle.lt_or_eq with hlt | rfl
      · obtain ⟨hext, hdata, hout⟩ := requestKey_refuses MTSha1 hc hlt
          (gPower config a') r.b r.randomId
        rw [qc] at hout
        exact ⟨h.extend hpop hext, Or.inr (.refusing (hc.of_extends hext hdata) ho' hlt.ne hout hsub
          (hs.extend hext hpop) (hx.extend hext hpop))⟩
      · obtain ⟨hext, hheld, hout⟩ := requestKey_accepts MTSha1 h.configs.2 hsafe
          hc.nonzero (Or.inr ⟨hc.isLocal, hc.current ▸ lt_irrefl _⟩) r.b r.randomId
        rw [qc] at hout
        exact ⟨h.extend hpop hext, Or.inr (.both hheld ho' hout hsub (hs.extend hext hpop))⟩
  | @refusing x y a b hc ho hne qc qo hs hx =>
    obtain ⟨rfl, rfl⟩ : m = acceptOf MTSha1 config x a b ∧ rest = [] := by
      rw [hq] at qo
      simpa using qo
    exact (accept_closes h.symm hc ho hne qc hs hx r).symm
  | both hc ho qc qo hs => exact phase_deliver h (.both ho hc qo qc hs.symm) hq r
  | closing hc ho hne hlast qc qo => exact absurd (hq.symm.trans qo) (by simp)
  | restarted hc ho hne hlast qc qo => exact absurd (hq.symm.trans qo) (by simp)

theorem Joint.deliver (h : Joint MTSha1 config c o) (hq : c.outbox = m :: rest) (r : Random) :
    Joint MTSha1 config { c with outbox := rest } (o.receive MTSha1 r m) :=
  h.2.elim (fun hp => phase_deliver h.1 hp hq r) fun hp => phase_deliver' h.1 hp hq r

/-- The begun exchange is new to both. -/
theorem Ledger.unstored (h : Ledger config c o) (hx : ¬ c.Knows x) : Unstored c o x := fun key =>
  ⟨fun hin => hx (h.knows x key (Or.inl hin)).1, fun hin => hx (h.knows x key (Or.inr hin)).1⟩

theorem Joint.maybeRekey (h : Joint MTSha1 config c o) (hfresh : Idle c → x ≠ 0 ∧ ¬ c.Knows x)
    (a : Bytes) (randomId : Int) : Joint MTSha1 config (c.maybeRekey x a randomId) o := by
  by_cases hidle : Idle c
  swap
  · have hsame : c.maybeRekey x a randomId = c := by
      unfold Client.maybeRekey
      split
      · rfl
      · exact if_pos hidle
    rwa [hsame]
  obtain ⟨hx, hknows⟩ := hfresh hidle
  obtain ⟨hled, hp⟩ := h
  rcases maybeRekey_spec hled.configs.1 hx a randomId with hsame | ⟨-, hext, hbegun, hout⟩
  · rw [hsame]
    exact ⟨hled, hp⟩
  have hun := (hled.unstored hknows).extend hext (.refl o)
  have hbusy : ∀ {c : Client} {x : Int} {a : Bytes}, Idle c → ¬ Begun config c x a :=
    fun hc hb => hb.nonzero (hb.current.symm.trans hc)
  have hwait : ∀ {c : Client} {x : Int} {a b : Bytes}, Idle c → ¬ Held MTSha1 config c x a b :=
    fun hc hb => hb.nonzero (hb.current.symm.trans hc)
  refine ⟨hled.extend hext (.refl o), ?_⟩
  rcases hp with hp | hp
  · cases hp with
    | idle hc ho qc qo hs =>
      rw [qc] at hout
      exact Or.inl (.requested hbegun ho hout qo (hs.extend hext (.refl o)) hun)
    | @closing y z d e last hc ho hne hlast qc qo hs =>
      refine Or.inl (.restarted hbegun ho hne hlast (hout.trans (qc.append (List.Sublist.refl _))) qo
        (hs.extend hext (.refl o) ⟨fun hin => ?_, maybeRekey_keeps c x a randomId _⟩) hun)
      exact (List.mem_append.mp (hout.subset hin)).resolve_right fun hin =>
        commitOf_ne_request (List.mem_singleton.mp hin)
    | requested hc => exact absurd hc (hbusy hidle)
    | crossed hc => exact absurd hc (hbusy hidle)
    | refused hc => exact absurd hc (hbusy hidle)
    | accepted hc => exact absurd hc (hbusy hidle)
    | refusing hc => exact absurd hc (hbusy hidle)
    | both hc => exact absurd hc (hwait hidle)
    | restarted hc => exact absurd hc (hbusy hidle)
  · cases hp with
    | idle hc ho qc qo hs =>
      rw [qo] at hout
      exact Or.inl (.requested hbegun hc hout qc (hs.symm.extend hext (.refl o)) hun)
    | requested hc ho qc qo hs hy =>
      rw [qo] at hout
      exact Or.inl (.crossed hbegun hc hout qc (hs.symm.extend hext (.refl o)) hun
        (hy.symm.extend hext (.refl o)))
    | crossed hc ho => exact absurd ho (hbusy hidle)
    | refused hc ho => exact absurd ho (hbusy hidle)
    | accepted hc ho => exact absurd ho (hwait hidle)
    | refusing hc ho => exact absurd ho (hwait hidle)
    | both hc ho => exact absurd ho (hwait hidle)
    | closing hc ho => exact absurd ho (hwait hidle)
    | restarted hc ho => exact absurd ho (hwait hidle)

end Deliver

/-! ## Runs -/

section Runs

variable {MTSha1 config} {c c' o o' : Client}

/-- The phases see the exchange, the queue and the records of a client. -/
theorem Phase.extend (h : Phase MTSha1 config c o) (ec : c.Extends c') (eo : o.Extends o')
    (dc : c'.encryptedData = c.encryptedData) (hdo : o'.encryptedData = o.encryptedData)
    (qc' : c'.outbox = c.outbox) (qo' : o'.outbox = o.outbox) : Phase MTSha1 config c' o' := by
  have hidle : ∀ {c c' : Client}, c'.encryptedData = c.encryptedData → Idle c → Idle c' :=
    fun hd hi => (congrArg _ hd).trans hi
  cases h with
  | idle hc ho qc qo hs =>
    exact .idle (hidle dc hc) (hidle hdo ho) (qc'.trans qc) (qo'.trans qo) (hs.extend ec eo)
  | requested hc ho qc qo hs hx =>
    exact .requested (hc.of_extends ec dc) (hidle hdo ho) (qc' ▸ qc) (qo'.trans qo)
      (hs.extend ec eo) (hx.extend ec eo)
  | crossed hc ho qc qo hs hx hy =>
    exact .crossed (hc.of_extends ec dc) (ho.of_extends eo hdo) (qc' ▸ qc) (qo' ▸ qo)
      (hs.extend ec eo) (hx.extend ec eo) (hy.extend ec eo)
  | refused hc ho hlt qc qo hs hx hy =>
    exact .refused (hc.of_extends ec dc) (ho.of_extends eo hdo) hlt (qc'.trans qc) (qo' ▸ qo)
      (hs.extend ec eo) (hx.extend ec eo) (hy.extend ec eo)
  | accepted hc ho hle hsafe qc qo hs hx =>
    exact .accepted (hc.of_extends ec dc) (ho.of_extends eo hdo) hle hsafe (qc'.trans qc) (qo' ▸ qo)
      (hs.extend ec eo) (hx.extend ec eo)
  | refusing hc ho hne qc qo hs hx =>
    exact .refusing (hc.of_extends ec dc) (ho.of_extends eo hdo) hne (qc' ▸ qc) (qo' ▸ qo)
      (hs.extend ec eo) (hx.extend ec eo)
  | both hc ho qc qo hs =>
    exact .both (hc.of_extends ec dc) (ho.of_extends eo hdo) (qc' ▸ qc) (qo' ▸ qo)
      (hs.extend ec eo)
  | closing hc ho hne hlast qc qo hs =>
    exact .closing (hidle dc hc) (ho.of_extends eo hdo) hne hlast (qc' ▸ qc) (qo'.trans qo)
      (hs.extend ec eo (by rw [qc']))
  | restarted hc ho hne hlast qc qo hs hz =>
    exact .restarted (hc.of_extends ec dc) (ho.of_extends eo hdo) hne hlast (qc' ▸ qc)
      (qo'.trans qo) (hs.extend ec eo (by rw [qc'])) (hz.extend ec eo)

/-- No handling of rekeying depends on the tables. -/
theorem Joint.database (h : Joint MTSha1 config c o) (db : ChatDb) :
    Joint MTSha1 config { c with db } o := by
  have hext : c.Extends { c with db } := ⟨rfl, rfl, fun _ h => h, fun _ h => h, fun _ h => h⟩
  exact ⟨h.1.extend hext (.refl o), h.2.imp
    (fun hp => hp.extend hext (.refl o) rfl rfl rfl rfl)
    fun hp => hp.extend (.refl o) hext rfl rfl rfl rfl⟩

/-- A client that has nothing on its way to the other has stored what the other has. -/
theorem Phase.same (h : Phase MTSha1 config c o) (hq : c.outbox = []) : Same c o := by
  have hno : ∀ m, m ∉ c.outbox := fun m => hq ▸ List.not_mem_nil
  cases h with
  | idle _ _ _ _ hs => exact hs
  | requested _ _ _ _ hs => exact hs
  | crossed _ _ _ _ hs => exact hs
  | refused _ _ _ _ _ hs => exact hs
  | accepted _ _ _ _ _ _ hs => exact hs
  | refusing _ _ _ _ _ hs => exact hs
  | both _ _ _ _ hs => exact hs
  | closing _ _ _ _ _ _ hs => exact hs.same (hno _)
  | restarted _ _ _ _ _ _ hs => exact hs.same (hno _)

end Runs

/-- The exchange is over for the client, and it has no key of it. -/
def Dropped (c : Client) (x : Int) : Prop :=
  (∀ key, (x, key) ∉ c.stored)
    ∧ ¬ (c.encryptedData.currentRekeyExchangeId = x
      ∧ (c.encryptedData.currentRekeyIsInitiatedByLocalClient
        ∨ c.encryptedData.currentRekeyKey ≠ []))

structure Agreed (w : World) : Prop where
  keys : ∀ x key key', (x, key) ∈ (w false).stored → (x, key') ∈ (w true).stored →
    key = key' ∧ Derived config (w false) (w true) x key
  kept : (∀ side, (w side).outbox = []) → ∀ side x key, (x, key) ∈ (w side).stored →
    ¬ Dropped (w !side) x

/-- An exchange begins with an id that is not 0 and that the client has neither begun an exchange
with nor been asked for. -/
def FreshId (w : World) : Event → Prop
  | .maybeRekey side exchangeId _ _ =>
    Idle (w side) → exchangeId ≠ 0 ∧ ¬ (w side).Knows exchangeId
  | _ => True

/-- The invariant of a world. -/
def Inv (w : World) : Prop := Joint MTSha1 config (w false) (w true)

section Worlds

variable {MTSha1 config} {w : World}

theorem Inv.joint (h : Inv MTSha1 config w) : ∀ side, Joint MTSha1 config (w side) (w !side)
  | false => h
  | true => Joint.symm h

theorem Joint.inv {c o : Client} (h : Joint MTSha1 config c o) :
    ∀ side, Inv MTSha1 config (World.of side c o)
  | false => h
  | true => Joint.symm h

theorem inv_start (db : Bool → ChatDb) : Inv MTSha1 config (World.start config db) := by
  have hno : ∀ side x key, (x, key) ∉ (World.start config db side).stored :=
    fun _ _ _ => List.not_mem_nil
  refine ⟨⟨⟨rfl, rfl⟩, fun x key hx => ?_, fun x key hx => ?_, fun x key key' hx => ?_⟩,
    Or.inl (.idle rfl rfl rfl rfl fun e => Iff.rfl)⟩
  all_goals exact absurd hx (not_or.mpr ⟨hno _ _ _, hno _ _ _⟩)

theorem Inv.step (h : Inv MTSha1 config w) (e : Event) (hfresh : FreshId w e) :
    Inv MTSha1 config (w.step MTSha1 e) := by
  cases e with
  | maybeRekey side x a randomId => exact ((h.joint side).maybeRekey hfresh a randomId).inv side
  | deliver side r =>
    unfold World.step World.deliver
    simp only []
    split
    · exact h
    · exact ((h.joint side).deliver ‹_› r).inv side
  | setPeerLayer side layer => exact ((h.joint side).database _).inv side
  | discardEncryptionKeys side beforeSeqOut => exact ((h.joint side).database _).inv side

theorem Inv.agreed (h : Inv MTSha1 config w) : Agreed config w where
  keys x key key' hx hx' := ⟨h.1.unique x key key' (Or.inl hx) (Or.inr hx'),
    h.1.derived x key (Or.inl hx)⟩
  kept hq side x key hx hd := by
    have hsame : Same (w side) (w !side) := (h.joint side).2.elim (fun hp => hp.same (hq side))
      fun hp => (hp.same (hq !side)).symm
    exact hd.1 key ((hsame _).mp hx)

end Worlds

/-- With ids that are not 0 and are not seen twice, two clients agree on every exchange. -/
theorem agreed_runs (db : Bool → ChatDb) (events : List Event)
    (hfresh : Run.AllSteps (World.step MTSha1) FreshId (World.start config db) events) :
    Agreed config (Run.run (World.step MTSha1) (World.start config db) events) := by
  have hstep : ∀ w e, Inv MTSha1 config w → FreshId w e → Inv MTSha1 config (w.step MTSha1 e) :=
    fun _ e h hok => h.step e hok
  exact (Run.invariant hstep events (inv_start db) hfresh).agreed

/-! ## The exchange of id 0 -/

/-- A config with an odd `p` of 256 bytes. -/
def sampleConfig : DhConfig where
  g := 3
  p := List.replicate 256 255
  p_length := List.length_replicate

def sampleNumber (n : UInt8) : Bytes := List.replicate 255 0 ++ [n]

def sampleStart : World := World.start sampleConfig fun side => .fresh 73 side []

def sampleSha1 (_ : Bytes) : Bytes := List.replicate 20 1

def sampleRandom (n : UInt8) : Random := ⟨sampleNumber n, 1, 2⟩

theorem agreed_runs_sample :
    Agreed sampleConfig (Run.run (World.step sampleSha1) sampleStart
      [.maybeRekey false 5 (sampleNumber 3) 1, .deliver false (sampleRandom 5),
        .deliver true (sampleRandom 0), .deliver false (sampleRandom 0)]) :=
  agreed_runs sampleSha1 sampleConfig _ _
    ⟨fun _ => ⟨by decide, by simp [World.start, Client.Knows]⟩, trivial, trivial, trivial, trivial⟩

/-- The first side begins an exchange of id 0. The other accepts it and still counts as free, so
that it begins one of id 5, and has lost the first when its commit comes. -/
def zeroIdEvents : List Event :=
  [.maybeRekey false 0 (sampleNumber 3) 1, .deliver false (sampleRandom 5),
    .maybeRekey true 5 (sampleNumber 4) 1, .deliver true (sampleRandom 0),
    .deliver false (sampleRandom 0), .deliver true (sampleRandom 6),
    .deliver false (sampleRandom 0), .deliver true (sampleRandom 0)]

theorem zeroIdEvents_run :
    let w := Run.run (World.step sampleSha1) sampleStart zeroIdEvents
    (∀ side, (w side).outbox = []) ∧ (w false).stored.map Prod.fst = [0, 5]
      ∧ (w true).stored.map Prod.fst = [5] ∧ (w true).encryptedData.currentRekeyKey = []
      ∧ (w true).encryptedData.currentRekeyIsInitiatedByLocalClient = false := by
  decide +kernel

theorem zero_id_strands :
    ¬ Agreed sampleConfig (Run.run (World.step sampleSha1) sampleStart zeroIdEvents) := by
  obtain ⟨hq, hfirst, hsecond, hkey, hlocal⟩ := zeroIdEvents_run
  intro h
  have hzero : (0 : Int) ∈
      (Run.run (World.step sampleSha1) sampleStart zeroIdEvents false).stored.map Prod.fst := by
    rw [hfirst]
    exact List.mem_cons_self
  obtain ⟨⟨x, key⟩, hin, rfl⟩ := List.mem_map.mp hzero
  refine h.kept hq false _ key hin ⟨fun key' hin' => ?_, ?_⟩
  · have hfive := List.mem_map_of_mem (f := Prod.fst) hin'
    rw [Bool.not_false, hsecond] at hfive
    exact absurd (List.mem_singleton.mp hfive) (by simp)
  · rw [Bool.not_false, hkey, hlocal]
    simp

end Onegram.Rekey
