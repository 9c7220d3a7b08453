import Mathlib.NumberTheory.LucasPrimality
import Mathlib.Tactic.ReduceModChar
import Onegram.DatacenterAuth

/-!
# What a key that is handed over has behind it

`reset:` forgets the nonces and the key, so what the service knows in a stage was learned since the
last reset, in the stages before: `Known` says where each piece is from. The stages are entered in
order, each by the message that is checked against what is known, and no message is looked at in
another stage than its own.

The keychain is shared with other requests and only ever holds what a check has computed.
-/

namespace Onegram.DatacenterAuth

open Bytes TL

variable (config : Config)

/-! ## What was received -/

/-- The nonce was drawn for a request. -/
def Drawn (steps : List Step) (nonce : Bytes) : Prop :=
  ∃ w draw, ⟨w, .messageTransaction draw⟩ ∈ steps ∧ draw.nonce.toList = nonce

/-- A `resPQ` for a nonce drawn before it was answered with `newNonce`. -/
def GotResPq (steps : List Step) (nonce serverNonce newNonce : Bytes) : Prop :=
  ∃ pre post w draw id pq fingerprints,
    steps = pre ++ ⟨w, .receivedMessage draw id (.resPq nonce serverNonce pq fingerprints)⟩ :: post
      ∧ Drawn pre nonce ∧ newNonce = draw.newNonce.toList

/-- The parameters inside `encryptedResponse` pass every check, and `authKey` is made of them and of
an exponent drawn with them. -/
structure Accepted (w : World) (draw : Draw) (nonce serverNonce newNonce encryptedResponse : Bytes)
    (answer padding : Bytes) (g : Int32) (dhPrime gA : Bytes) (serverTime : Int32)
    (authKey : Bytes) : Prop where
  decrypted : (decryptAnswer config encryptedResponse newNonce serverNonce).drop 20
    = answer ++ padding
  hash : config.MTSha1 answer
    = (decryptAnswer config encryptedResponse newNonce serverNonce).take 20
  trimmed : padding.length < 16
  parsed : MTInternalMessageParser.parseMessage answer
    = some (.serverDhInnerData nonce serverNonce g dhPrime gA serverTime)
  base : 2 ≤ g.toInt ∧ g.toInt ≤ 7
  mod : residue (bin2bn dhPrime) g.toInt.toNat
  prime : (MTCheckIsSafePrime draw.BN_is_prime_ex dhPrime w.keychain).1
  range : 1 < bin2bn gA ∧ bin2bn gA < bin2bn dhPrime - 1
  key : authKey = MTExp gA draw.b.toList dhPrime

/-- A `server_DH_params_ok` after a `resPQ`, with its nonces. -/
def GotDhParams (steps : List Step) (nonce serverNonce newNonce authKey : Bytes) : Prop :=
  ∃ pre post w draw id encryptedResponse answer padding g dhPrime gA serverTime,
    steps = pre ++ ⟨w, .receivedMessage draw id
        (.serverDhParamsOk nonce serverNonce encryptedResponse)⟩ :: post
      ∧ GotResPq pre nonce serverNonce newNonce
      ∧ Accepted config w draw nonce serverNonce newNonce encryptedResponse answer padding g
        dhPrime gA serverTime authKey

/-- A `dh_gen_ok` after both, with the hash of the key. -/
def Confirmed (steps : List Step) (authKey : Bytes) : Prop :=
  ∃ pre w draw id nonce serverNonce newNonce,
    steps = pre ++ [⟨w, .receivedMessage draw id
        (.setClientDhParamsResponseOk nonce serverNonce (newNonceHash config 1 newNonce authKey))⟩]
      ∧ GotDhParams config pre nonce serverNonce newNonce authKey

variable {config} {steps : List Step} {nonce serverNonce newNonce authKey : Bytes}

theorem Drawn.later (h : Drawn steps nonce) (x : Step) : Drawn (steps ++ [x]) nonce := by
  obtain ⟨w, draw, hmem, hdraw⟩ := h
  exact ⟨w, draw, List.mem_append_left _ hmem, hdraw⟩

theorem GotResPq.later (h : GotResPq steps nonce serverNonce newNonce) (x : Step) :
    GotResPq (steps ++ [x]) nonce serverNonce newNonce := by
  obtain ⟨pre, post, w, draw, id, pq, fingerprints, rfl, hdrawn⟩ := h
  exact ⟨pre, post ++ [x], w, draw, id, pq, fingerprints, by simp, hdrawn⟩

theorem GotDhParams.later (h : GotDhParams config steps nonce serverNonce newNonce authKey)
    (x : Step) : GotDhParams config (steps ++ [x]) nonce serverNonce newNonce authKey := by
  obtain ⟨pre, post, w, draw, id, enc, answer, padding, g, p, gA, time, rfl, hrest⟩ := h
  exact ⟨pre, post ++ [x], w, draw, id, enc, answer, padding, g, p, gA, time, by simp, hrest⟩

/-! ## The keychain -/

/-- A remembered residue is the residue. -/
def ModSound (keychain : Keychain) : Prop :=
  ∀ numberBytes g result, keychain (.isPrimeModSafe numberBytes g) = some result →
    result = residue (bin2bn numberBytes) g

theorem checkMod_result {keychain : Keychain} (h : ModSound keychain) (numberBytes : Bytes)
    (g : ℕ) : (MTCheckMod numberBytes g keychain).1 = residue (bin2bn numberBytes) g := by
  unfold MTCheckMod
  simp only []
  split
  · rename_i cached hcached
    exact h _ _ _ hcached
  · rfl

theorem checkMod_sound {keychain : Keychain} (h : ModSound keychain) (numberBytes : Bytes)
    (g : ℕ) : ModSound (MTCheckMod numberBytes g keychain).2 := by
  unfold MTCheckMod
  simp only []
  split
  · exact h
  · intro numberBytes' g' result hresult
    simp only at hresult
    by_cases heq : PrimeKey.isPrimeModSafe numberBytes' g' = .isPrimeModSafe numberBytes g
    · obtain ⟨rfl, rfl⟩ := PrimeKey.isPrimeModSafe.inj heq
      rw [Function.update_self] at hresult
      exact (Option.some.inj hresult).symm
    · rw [Function.update_of_ne heq] at hresult
      exact h _ _ _ hresult

theorem checkMod_primes (keychain : Keychain) (numberBytes numberBytes' : Bytes) (g : ℕ) :
    (MTCheckMod numberBytes g keychain).2 (.isPrimeSafe numberBytes')
      = keychain (.isPrimeSafe numberBytes') := by
  unfold MTCheckMod
  simp only []
  split
  · rfl
  · simp only
    rw [Function.update_of_ne (by simp)]

theorem checkSafePrime_mod (BN_is_prime_ex : ℕ → Bool) (numberBytes numberBytes' : Bytes) (g : ℕ)
    (keychain : Keychain) :
    (MTCheckIsSafePrime BN_is_prime_ex numberBytes keychain).2 (.isPrimeModSafe numberBytes' g)
      = keychain (.isPrimeModSafe numberBytes' g) := by
  unfold MTCheckIsSafePrime
  simp only []
  split
  · rfl
  · split_ifs
    · rfl
    · rfl
    · rfl
    · simp only
      rw [Function.update_of_ne (by simp)]

theorem checkSafePrime_sound {keychain : Keychain} (h : ModSound keychain)
    (BN_is_prime_ex : ℕ → Bool) (numberBytes : Bytes) :
    ModSound (MTCheckIsSafePrime BN_is_prime_ex numberBytes keychain).2 := by
  intro numberBytes' g result hresult
  rw [checkSafePrime_mod] at hresult
  exact h _ _ _ hresult

/-- The answer depends on what is remembered of this number alone. -/
theorem checkSafePrime_congr (BN_is_prime_ex : ℕ → Bool) {numberBytes : Bytes}
    {keychain keychain' : Keychain}
    (h : keychain (.isPrimeSafe numberBytes) = keychain' (.isPrimeSafe numberBytes)) :
    (MTCheckIsSafePrime BN_is_prime_ex numberBytes keychain).1
      = (MTCheckIsSafePrime BN_is_prime_ex numberBytes keychain').1 := by
  unfold MTCheckIsSafePrime
  simp only [h]
  split
  · rfl
  · split_ifs <;> rfl

/-! ## The answer -/

theorem verifyAnswer_spec {answerHash answer : Bytes} : ∀ (i : ℕ) {data : Bytes},
    verifyAnswer config answerHash i data = some (some answer) →
      config.MTSha1 answer = answerHash ∧ ∃ padding, data = answer ++ padding ∧ padding.length < i
  | 0, data, h => by simp [verifyAnswer] at h
  | i + 1, data, h => by
    unfold verifyAnswer at h
    split_ifs at h with hhash hempty
    · obtain rfl : data = answer := Option.some.inj (Option.some.inj h)
      exact ⟨hhash, [], by simp, by simp⟩
    · obtain ⟨hanswer, padding, hdata, hlen⟩ := verifyAnswer_spec i h
      refine ⟨hanswer, padding ++ [data.getLast hempty], ?_, by simpa using hlen⟩
      rw [← List.append_assoc, ← hdata, List.dropLast_append_getLast]

/-! ## One step -/

/-- What is known in each stage, and where it is from. -/
def Known (config : Config) (steps : List Step) (s : MTDatacenterAuthMessageService) : Prop :=
  match s.stage with
  | .waitingForPublicKeys => s.nonce = none
  | .pq => ∀ nonce, s.nonce = some nonce → Drawn steps nonce
  | .reqDH => ∃ nonce serverNonce newNonce, s.nonce = some nonce
      ∧ s.serverNonce = some serverNonce ∧ s.newNonce = some newNonce
      ∧ GotResPq steps nonce serverNonce newNonce
  | .keyVerification => ∃ nonce serverNonce newNonce authKey, s.nonce = some nonce
      ∧ s.serverNonce = some serverNonce ∧ s.newNonce = some newNonce ∧ s.authKey = some authKey
      ∧ GotDhParams config steps nonce serverNonce newNonce authKey.authKey
  | .done => True

theorem Known.later {s : MTDatacenterAuthMessageService} (h : Known config steps s) (x : Step) :
    Known config (steps ++ [x]) s := by
  unfold Known at h ⊢
  split at h
  · exact h
  · exact fun nonce hnonce => (h nonce hnonce).later x
  · obtain ⟨nonce, serverNonce, newNonce, hn, hs, hnew, hgot⟩ := h
    exact ⟨nonce, serverNonce, newNonce, hn, hs, hnew, hgot.later x⟩
  · obtain ⟨nonce, serverNonce, newNonce, authKey, hn, hs, hnew, hkey, hgot⟩ := h
    exact ⟨nonce, serverNonce, newNonce, authKey, hn, hs, hnew, hkey, hgot.later x⟩
  · trivial

/-- The steps since the last reset, after this one. -/
def since (steps : List Step) (x : Step) (effects : List Effect) : List Step :=
  if effects.any Effect.isReset then [] else steps ++ [x]

structure Good (config : Config) (steps : List Step) (x : Step) (r : Result) : Prop where
  keychain : ModSound r.1.keychain
  known : Known config (since steps x r.2) r.1.service
  completed : ∀ c ∈ r.2.filterMap (Effect.completion (since steps x r.2)),
    ∃ key, c.authKey = some key ∧ Confirmed config c.since key.authKey

variable {x : Step} {w w' : World} {effects : List Effect}

theorem good_reset (h : ModSound w.keychain) : Good config steps x (reset config w) := by
  have hstage : (resetStage config w).1 = .waitingForPublicKeys ∨ (resetStage config w).1 = .pq := by
    unfold resetStage
    split
    · split
      · exact .inl rfl
      · exact .inr rfl
    · exact .inr rfl
  unfold reset
  generalize resetStage config w = sp at hstage
  obtain ⟨stage, publicKeys⟩ := sp
  refine ⟨h, ?_, ?_⟩
  · rcases hstage with rfl | rfl
    · rfl
    · intro nonce hnonce
      cases hnonce
  · rcases hstage with rfl | rfl
    · simp [Effect.completion]
    · simp [Effect.completion]

/-- Effects that are neither a reset nor a completion. -/
def Quiet (effects : List Effect) : Prop :=
  effects.any Effect.isReset = false ∧ ∀ steps, effects.filterMap (Effect.completion steps) = []

theorem quiet_nil : Quiet [] := ⟨rfl, fun _ => rfl⟩

theorem quiet_request : Quiet [.requestTransportTransaction] := ⟨rfl, fun _ => rfl⟩

theorem good_quiet (hkeychain : ModSound w.keychain) (hquiet : Quiet effects)
    (hknown : Known config (steps ++ [x]) w.service) : Good config steps x (w, effects) := by
  have hsince : since steps x effects = steps ++ [x] := by
    unfold since
    rw [hquiet.1]
    rfl
  refine ⟨hkeychain, ?_, ?_⟩
  · rw [hsince]
    exact hknown
  · intro c hc
    rw [hquiet.2] at hc
    cases hc

/-- Nothing that is known changes. -/
theorem good_same (hkeychain : ModSound w'.keychain) (hknown : Known config steps w.service)
    (hquiet : Quiet effects) (hstage : w'.service.stage = w.service.stage)
    (hnonce : w'.service.nonce = w.service.nonce)
    (hserver : w'.service.serverNonce = w.service.serverNonce)
    (hnew : w'.service.newNonce = w.service.newNonce)
    (hkey : w'.service.authKey = w.service.authKey) : Good config steps x (w', effects) := by
  refine good_quiet hkeychain hquiet (Known.later ?_ x)
  unfold Known at hknown ⊢
  rw [hstage, hnonce, hserver, hnew, hkey]
  exact hknown

theorem good_publicKeysUpdated (hkeychain : ModSound w.keychain)
    (hknown : Known config steps w.service) (datacenterId : ℤ)
    (publicKeys : Option (List PublicKey)) :
    Good config steps x (mtProtoPublicKeysUpdated config w datacenterId publicKeys) := by
  unfold mtProtoPublicKeysUpdated
  split_ifs with h
  · have hnone : w.service.nonce = none := by
      unfold Known at hknown
      rw [h.1] at hknown
      exact hknown
    simp only []
    split
    · refine good_quiet hkeychain quiet_request ?_
      intro nonce hnonce
      rw [hnone] at hnonce
      cases hnonce
    · exact good_same hkeychain hknown quiet_nil rfl rfl rfl rfl rfl
  · exact good_same hkeychain hknown quiet_nil rfl rfl rfl rfl rfl

theorem good_messageTransaction (hkeychain : ModSound w.keychain)
    (hknown : Known config steps w.service) (draw : Draw) :
    Good config steps ⟨w, .messageTransaction draw⟩ (mtProtoMessageTransaction w draw) := by
  unfold mtProtoMessageTransaction
  split_ifs
  · exact good_same hkeychain hknown quiet_nil rfl rfl rfl rfl rfl
  simp only []
  split
  · exact good_same hkeychain hknown quiet_nil rfl rfl rfl rfl rfl
  refine good_quiet hkeychain ⟨rfl, fun _ => rfl⟩ ?_
  unfold drawNonce
  split_ifs with h
  · unfold Known
    simp only [h.1]
    rintro nonce ⟨⟩
    exact ⟨w, draw, List.mem_append_right _ (List.mem_singleton_self _), rfl⟩
  · exact hknown.later _

theorem good_receivedResPq (hkeychain : ModSound w.keychain) (hknown : Known config steps w.service)
    (hstage : w.service.stage = .pq) (draw : Draw) (id : Int64) (nonce serverNonce pq : Bytes)
    (fingerprints : List Int64) :
    Good config steps ⟨w, .receivedMessage draw id (.resPq nonce serverNonce pq fingerprints)⟩
      (receivedResPq config w draw nonce serverNonce pq fingerprints) := by
  unfold receivedResPq
  split_ifs with hnonce
  · exact good_same hkeychain hknown quiet_nil rfl rfl rfl rfl rfl
  split
  · exact good_reset hkeychain
  split
  · exact good_reset hkeychain
  have hdrawn : Drawn steps nonce := by
    unfold Known at hknown
    rw [hstage] at hknown
    exact hknown nonce (not_not.mp hnonce)
  exact good_quiet hkeychain quiet_request ⟨nonce, serverNonce, draw.newNonce.toList,
    not_not.mp hnonce, rfl, rfl, steps, [], w, draw, id, pq, fingerprints, rfl, hdrawn, rfl⟩

/-- The keychain's part of the checks. -/
theorem checkDhPrime_spec (hkeychain : ModSound w.keychain) (draw : Draw) (g : Int32)
    (dhPrime : Bytes) :
    ModSound (checkDhPrime w draw g dhPrime).2.keychain
      ∧ (checkDhPrime w draw g dhPrime).2.service = w.service
      ∧ ((checkDhPrime w draw g dhPrime).1 = true → residue (bin2bn dhPrime) g.toInt.toNat
        ∧ (MTCheckIsSafePrime draw.BN_is_prime_ex dhPrime w.keychain).1) := by
  have hresult := checkMod_result hkeychain dhPrime g.toInt.toNat
  have hmod := checkMod_sound hkeychain dhPrime g.toInt.toNat
  have hcongr := checkSafePrime_congr draw.BN_is_prime_ex
    (checkMod_primes w.keychain dhPrime dhPrime g.toInt.toNat)
  unfold checkDhPrime
  generalize MTCheckMod dhPrime g.toInt.toNat w.keychain = r at hresult hmod hcongr
  obtain ⟨mod, keychain⟩ := r
  simp only at hresult hmod hcongr ⊢
  cases mod with
  | false => exact ⟨hmod, rfl, fun h => absurd h (by simp)⟩
  | true =>
    refine ⟨checkSafePrime_sound hmod _ _, rfl, fun h => ⟨hresult.symm, ?_⟩⟩
    rw [← hcongr]
    exact h

theorem good_receivedInnerData (hkeychain : ModSound w.keychain) (draw : Draw) (id : Int64)
    (hnonce : w.service.nonce = some nonce) (hserver : w.service.serverNonce = some serverNonce)
    (hnew : w.service.newNonce = some newNonce)
    (hgot : GotResPq steps nonce serverNonce newNonce) {encryptedResponse answer padding : Bytes}
    (hdecrypted : (decryptAnswer config encryptedResponse newNonce serverNonce).drop 20
      = answer ++ padding)
    (hhash : config.MTSha1 answer
      = (decryptAnswer config encryptedResponse newNonce serverNonce).take 20)
    (htrimmed : padding.length < 16) :
    Good config steps
      ⟨w, .receivedMessage draw id (.serverDhParamsOk nonce serverNonce encryptedResponse)⟩
      (receivedInnerData config w draw nonce serverNonce newNonce
        (MTInternalMessageParser.parseMessage answer)) := by
  rcases hparsed : MTInternalMessageParser.parseMessage answer with _ | body
  · exact good_reset hkeychain
  cases body with
  | serverDhInnerData nonce' serverNonce' g dhPrime gA serverTime =>
    unfold receivedInnerData
    simp only []
    obtain ⟨hsound, hservice, haccepted⟩ := checkDhPrime_spec hkeychain draw g dhPrime
    split_ifs with hnonces hg hrange hok
    · exact good_reset hkeychain
    · exact good_reset hkeychain
    · obtain ⟨hmod, hprime⟩ := haccepted hok
      push Not at hnonces hg
      obtain ⟨rfl, rfl⟩ := hnonces
      have hbase : 2 ≤ g.toInt ∧ g.toInt ≤ 7 := by
        have hsafe := hg.2
        simp only [MTCheckIsSafeG, Bool.and_eq_true, decide_eq_true_eq] at hsafe
        omega
      have hgA : 1 < bin2bn gA ∧ bin2bn gA < bin2bn dhPrime - 1 := by
        simp only [MTCheckIsSafeGAOrB, Bool.and_eq_true, decide_eq_true_eq] at hrange
        omega
      refine good_quiet hsound quiet_request ⟨nonce, serverNonce, newNonce, _, ?_, ?_, ?_, rfl,
        steps, [], w, draw, id, encryptedResponse, answer, padding, g, dhPrime, gA, serverTime,
        rfl, hgot, ⟨hdecrypted, hhash, htrimmed, hparsed, hbase, hmod, hprime, hgA, rfl⟩⟩
      · rw [← hnonce, ← hservice]
        rfl
      · rw [← hserver, ← hservice]
        rfl
      · rw [← hnew, ← hservice]
        rfl
    · exact good_reset hsound
    · exact good_reset hkeychain
  | _ => exact good_reset hkeychain

theorem good_receivedServerDhParamsOk (hkeychain : ModSound w.keychain)
    (hknown : Known config steps w.service) (hstage : w.service.stage = .reqDH) (draw : Draw)
    (id : Int64) {encryptedResponse : Bytes} (hown : ownNonces w nonce serverNonce) :
    Good config steps
      ⟨w, .receivedMessage draw id (.serverDhParamsOk nonce serverNonce encryptedResponse)⟩
      (receivedServerDhParamsOk config w draw nonce serverNonce encryptedResponse) := by
  unfold Known at hknown
  rw [hstage] at hknown
  obtain ⟨nonce', serverNonce', newNonce, hn, hs, hnew, hgot⟩ := hknown
  obtain rfl : nonce' = nonce := Option.some.inj (hn.symm.trans hown.1)
  obtain rfl : serverNonce' = serverNonce := Option.some.inj (hs.symm.trans hown.2)
  unfold receivedServerDhParamsOk
  rw [hnew, Option.getD_some]
  simp only []
  split
  · exact good_same hkeychain (by
      unfold Known
      rw [hstage]
      exact ⟨_, _, _, hn, hs, hnew, hgot⟩) quiet_nil rfl rfl rfl rfl rfl
  · exact good_reset hkeychain
  · rename_i answer hanswer
    unfold answerData at hanswer
    split_ifs at hanswer
    obtain ⟨hhash, padding, hdecrypted, htrimmed⟩ := verifyAnswer_spec 16 hanswer
    exact good_receivedInnerData hkeychain draw id hn hs hnew hgot hdecrypted hhash htrimmed

theorem good_receivedSetClientDhParamsResponseOk (hkeychain : ModSound w.keychain)
    (hknown : Known config steps w.service) (hstage : w.service.stage = .keyVerification)
    (draw : Draw) (id : Int64) {nextNonceHash1 : Bytes} (hown : ownNonces w nonce serverNonce) :
    Good config steps
      ⟨w, .receivedMessage draw id
        (.setClientDhParamsResponseOk nonce serverNonce nextNonceHash1)⟩
      (receivedSetClientDhParamsResponseOk config w id nextNonceHash1) := by
  unfold Known at hknown
  rw [hstage] at hknown
  obtain ⟨nonce', serverNonce', newNonce, key, hn, hs, hnew, hkey, hgot⟩ := hknown
  obtain rfl : nonce' = nonce := Option.some.inj (hn.symm.trans hown.1)
  obtain rfl : serverNonce' = serverNonce := Option.some.inj (hs.symm.trans hown.2)
  unfold receivedSetClientDhParamsResponseOk
  rw [hnew, hkey, Option.map_some, Option.getD_some, Option.getD_some]
  simp only []
  split_ifs with hhash
  · exact good_reset hkeychain
  · refine ⟨hkeychain, trivial, ?_⟩
    intro c hc
    obtain rfl : c = _ := List.mem_singleton.mp hc
    refine ⟨key, rfl, steps, w, draw, id, nonce', serverNonce', newNonce, ?_, hgot⟩
    rw [not_not.mp hhash]
    rfl

theorem good_receivedMessage (hkeychain : ModSound w.keychain)
    (hknown : Known config steps w.service) (draw : Draw) (id : Int64) (body : Message) :
    Good config steps ⟨w, .receivedMessage draw id body⟩
      (receivedMessage config w draw id body) := by
  have hsame : Good config steps ⟨w, .receivedMessage draw id body⟩ (w, []) :=
    good_same hkeychain hknown quiet_nil rfl rfl rfl rfl rfl
  unfold receivedMessage
  split
  · rename_i hstage
    exact good_receivedResPq hkeychain hknown hstage draw id _ _ _ _
  · rename_i hstage
    split_ifs with hown
    · exact good_receivedServerDhParamsOk hkeychain hknown hstage draw id hown
    · exact hsame
  · split_ifs
    · exact good_reset hkeychain
    · exact hsame
  · rename_i hstage
    split_ifs with hown
    · exact good_receivedSetClientDhParamsResponseOk hkeychain hknown hstage draw id hown
    · exact hsame
  · split_ifs
    · exact good_reset hkeychain
    · exact hsame
  · split_ifs
    · exact good_reset hkeychain
    · exact hsame
  · exact hsame

theorem good_transactionFailed (hkeychain : ModSound w.keychain)
    (hknown : Known config steps w.service) : Good config steps x (transactionFailed w) :=
  good_same hkeychain hknown quiet_request rfl rfl rfl rfl rfl

theorem good_handle (hkeychain : ModSound w.keychain) (hknown : Known config steps w.service)
    (e : Event) : Good config steps ⟨w, e⟩ (handle config w e) := by
  have hsame : Good config steps ⟨w, e⟩ (w, []) :=
    good_same hkeychain hknown quiet_nil rfl rfl rfl rfl rfl
  cases e with
  | didAddService => exact good_reset hkeychain
  | contextPublicKeys publicKeys =>
    exact good_same hkeychain hknown quiet_nil rfl rfl rfl rfl rfl
  | publicKeysUpdated datacenterId publicKeys =>
    exact good_publicKeysUpdated hkeychain hknown datacenterId publicKeys
  | messageTransaction draw => exact good_messageTransaction hkeychain hknown draw
  | transactionPrepared stage messageId messageSeqNo transactionId =>
    change Good config steps _ (transactionPrepared w stage messageId messageSeqNo transactionId)
    unfold transactionPrepared
    split_ifs
    · exact good_same hkeychain hknown quiet_nil rfl rfl rfl rfl rfl
    · exact hsame
  | receivedMessage draw id body => exact good_receivedMessage hkeychain hknown draw id body
  | protocolErrorReceived => exact good_reset hkeychain
  | transactionsMayHaveFailed transactionIds =>
    change Good config steps _ (transactionsMayHaveFailed w transactionIds)
    unfold transactionsMayHaveFailed
    split
    · split_ifs
      · exact good_transactionFailed hkeychain hknown
      · exact hsame
    · exact hsame
  | allTransactionsMayHaveFailed =>
    change Good config steps _ (allTransactionsMayHaveFailed w)
    unfold allTransactionsMayHaveFailed
    split_ifs
    · exact good_transactionFailed hkeychain hknown
    · exact hsame
  | checkMod numberBytes g =>
    exact good_same (checkMod_sound hkeychain _ _) hknown quiet_nil rfl rfl rfl rfl rfl
  | checkIsSafePrime BN_is_prime_ex numberBytes =>
    exact good_same (checkSafePrime_sound hkeychain _ _) hknown quiet_nil rfl rfl rfl rfl rfl

/-! ## Runs -/

structure Session.Inv (config : Config) (s : Session) : Prop where
  keychain : ModSound s.world.keychain
  known : Known config s.since s.world.service
  completed : ∀ c ∈ s.completions,
    ∃ key, c.authKey = some key ∧ Confirmed config c.since key.authKey

theorem step_inv {s : Session} (h : s.Inv config) (e : Event) : (s.step config e).Inv config := by
  have hgood := good_handle h.keychain h.known e
  unfold Session.step
  split_ifs
  · refine ⟨hgood.keychain, hgood.known, ?_⟩
    intro c hc
    rcases List.mem_append.mp hc with hc | hc
    · exact h.completed c hc
    · exact hgood.completed c hc
  · exact h

theorem init_inv : Session.Inv config {} := by
  refine ⟨?_, rfl, ?_⟩
  · intro numberBytes g result hresult
    cases hresult
  · intro c hc
    cases hc

theorem run_inv (es : List Event) : (Session.run config {} es).Inv config := by
  have hstep : ∀ s e, Session.Inv config s → True → (s.step config e).Inv config :=
    fun s e h _ => step_inv h e
  exact Run.invariant hstep es init_inv (Run.allSteps_of_forall _ es ({} : Session) fun _ _ => trivial)

/-- A key is handed to the delegate only after, since the last reset, a `resPQ`, a
`server_DH_params_ok` and a `dh_gen_ok` for the service's own nonces were received and accepted. -/
theorem completed_confirmed (config : Config) (es : List Event) :
    ∀ c ∈ (Session.run config {} es).completions,
      ∃ key, c.authKey = some key ∧ Confirmed config c.since key.authKey :=
  (run_inv es).completed

section Sample

/-- A hash that is always zero and a cipher that changes nothing. -/
def sampleConfig : Config where
  tempAuth := false
  cdn := false
  datacenterId := 2
  defaultPublicKeys := [⟨"key", 1⟩]
  MTSha1 := fun _ => List.replicate 20 0
  MTRsaEncrypt := fun _ _ => []
  encrypt := fun _ block => block
  decrypt := fun _ block => block

def sampleDraw : Draw where
  nonce := Vector.replicate 16 0
  newNonce := Vector.replicate 32 0
  b := Vector.replicate 256 0
  pad := fun _ => 0
  MTFactorize := fun _ => some (3, 5)
  BN_is_prime_ex := fun _ => true

def sampleAnswer : Bytes :=
  (Message.serverDhInnerData (List.replicate 16 0) (List.replicate 16 1) 4 (List.replicate 256 255)
    [2] 0).encode

def sampleEvents : List Event :=
  let nonce := List.replicate 16 0
  let serverNonce := List.replicate 16 1
  let encryptedResponse := MTAesEncryptInplace sampleConfig.encrypt
    (List.replicate 20 0 ++ sampleAnswer ++ List.replicate 8 0) (List.replicate 32 0)
    (List.replicate 32 0)
  [.didAddService, .messageTransaction sampleDraw,
    .receivedMessage sampleDraw 1 (.resPq nonce serverNonce [15] [1]),
    .receivedMessage sampleDraw 2 (.serverDhParamsOk nonce serverNonce encryptedResponse),
    .receivedMessage sampleDraw 3
      (.setClientDhParamsResponseOk nonce serverNonce (List.replicate 16 0))]

theorem sample_length : (Session.run sampleConfig {} sampleEvents).completions.length = 1 := by
  decide +kernel

/-- A run that ends with a key. -/
theorem completed_confirmed_sample :
    ∃ c ∈ (Session.run sampleConfig {} sampleEvents).completions,
      ∃ key, c.authKey = some key ∧ Confirmed sampleConfig c.since key.authKey := by
  obtain ⟨c, hc⟩ := List.length_eq_one_iff.mp sample_length
  have hmem : c ∈ (Session.run sampleConfig {} sampleEvents).completions := by
    rw [hc]
    exact List.mem_singleton_self c
  exact ⟨c, hmem, completed_confirmed sampleConfig sampleEvents c hmem⟩

end Sample

end Onegram.DatacenterAuth

/-!
## The key of an authorization and its length

`MTExp` gives a number without leading zero bytes, and the service takes it for the key as it is;
the key of a secret chat gets `addKeyPadding`. So the key is the one of 256 bytes when the number
has no leading zero byte, and only then.

`samplePrime` is a safe prime whose predecessors factor into small primes, by Lucas' criterion.
-/

namespace Onegram.DatacenterAuth

open Bytes

/-! ## The length of a number -/

theorem lt_bnNumBytes {n k : ℕ} (h : 256 ^ k ≤ n) : k < bnNumBytes n := by
  by_contra hle
  have hlt := lt_pow_bnNumBytes n
  have hpow := Nat.pow_le_pow_right (n := 256) (by norm_num) (not_lt.mp hle)
  omega

/-- The short form has the fixed width when there is no leading zero byte. -/
theorem bn2bin_eq_iff {n k : ℕ} (h : n < 256 ^ (k + 1)) :
    bn2bin n = bytesBE (k + 1) n ↔ 256 ^ k ≤ n := by
  constructor
  · intro heq
    by_contra hlt
    have hlen := congrArg List.length heq
    have hshort := bnNumBytes_le (not_le.mp hlt)
    rw [bn2bin, length_bytesBE, length_bytesBE] at hlen
    omega
  · intro hle
    have hlow := lt_bnNumBytes hle
    have hhigh := bnNumBytes_le h
    have hwidth : bnNumBytes n = k + 1 := by omega
    rw [bn2bin, hwidth]

/-! ## The key -/

/-- A safe prime of 2048 bits. -/
structure SafePrime (p : ℕ) : Prop where
  prime : p.Prime
  half : ((p - 1) / 2).Prime
  low : 2 ^ 2047 ≤ p
  high : p < 2 ^ 2048

theorem SafePrime.odd {p : ℕ} (hp : SafePrime p) : p % 2 = 1 := by
  rcases hp.prime.eq_two_or_odd with rfl | hodd
  · exact absurd hp.half (by norm_num)
  · exact hodd

theorem SafePrime.mod_lt {p : ℕ} (hp : SafePrime p) (n : ℕ) : n % p < 256 ^ (255 + 1) := by
  have hbytes : (256 : ℕ) ^ (255 + 1) = 2 ^ 2048 := by
    rw [show (256 : ℕ) = 2 ^ 8 from rfl, ← pow_mul]
  rw [hbytes]
  exact (Nat.mod_lt _ hp.prime.pos).trans hp.high

/-- Both ends have the same key, and what either derives of it. -/
structure KeyAgrees (config : Config) (MTSha256 : Bytes → Bytes) (key : MTDatacenterAuthKey)
    (shared : Bytes) : Prop where
  authKey : key.authKey = shared
  authKeyId : key.authKeyId = authKeyId config shared
  newNonceHash : ∀ tag newNonce,
    newNonceHash config tag newNonce key.authKey = newNonceHash config tag newNonce shared
  messageKey : ∀ messageKey toClient, messageEncryptionKeyV2 MTSha256 key.authKey messageKey toClient
    = messageEncryptionKeyV2 MTSha256 shared messageKey toClient

theorem MTExp_eq {base exp modulus : Bytes} {g a p : ℕ} (hp : p % 2 = 1) (hmod : bin2bn modulus = p)
    (hbase : bin2bn base = g ^ a % p) :
    MTExp base exp modulus = bn2bin (g ^ (a * bin2bn exp) % p) := by
  unfold MTExp
  rw [hmod, hbase, if_pos hp, ← Nat.pow_mod, ← pow_mul]

variable (config : Config) (MTSha256 : Bytes → Bytes)

/-- The key the service makes of the server's `g_a` and of its own exponent is the one of 256 bytes
when the number has no leading zero byte, and only then. -/
theorem authKey_agrees_iff (w : World) (draw : Draw) (nonce serverNonce newNonce : Bytes)
    (gWord : Int32) {p : ℕ} (hp : SafePrime p) {dhPrime gA : Bytes} (hprime : bin2bn dhPrime = p)
    (g a : ℕ) (hgA : bin2bn gA = g ^ a % p) :
    (∃ key, (setDhParams config w draw nonce serverNonce newNonce gWord dhPrime gA).1.service.authKey
        = some key ∧ KeyAgrees config MTSha256 key
          (bytesBE 256 (g ^ (a * bin2bn draw.b.toList) % p)))
      ↔ 256 ^ 255 ≤ g ^ (a * bin2bn draw.b.toList) % p := by
  rw [← bn2bin_eq_iff (hp.mod_lt _), ← MTExp_eq hp.odd hprime hgA]
  constructor
  · rintro ⟨key, hkey, hagrees⟩
    obtain rfl := Option.some.inj hkey
    exact hagrees.authKey
  · intro heq
    refine ⟨_, rfl, heq, ?_, ?_, ?_⟩
    · exact congrArg (authKeyId config) heq
    · exact fun tag newNonce => congrArg (newNonceHash config tag newNonce) heq
    · intro messageKey toClient
      exact congrArg (fun k => messageEncryptionKeyV2 MTSha256 k messageKey toClient) heq

/-! ## A safe prime -/

theorem numeral_ne_one {n c : ℕ} [c.AtLeastTwo] (hc : c < n) :
    (OfNat.ofNat c : ZMod n) ≠ 1 := by
  intro h
  have hcast : ((c : ℕ) : ZMod n) = ((1 : ℕ) : ZMod n) := by
    rw [Nat.cast_one, ← h]
    rfl
  have htwo : 2 ≤ c := Nat.AtLeastTwo.prop
  rw [ZMod.natCast_eq_natCast_iff', Nat.mod_eq_of_lt hc, Nat.mod_eq_of_lt (by omega)] at hcast
  omega

def samplePrimeHalf : ℕ := (2 ^ 256) ^ 4 * 2 ^ 28 * 5 ^ 214 * 7 ^ 113 * 11 ^ 52 + 1

def samplePrime : ℕ := 2 * samplePrimeHalf + 1

theorem dvd_samplePrimeHalf {r : ℕ} (hr : r.Prime) (h : r ∣ samplePrimeHalf - 1) :
    r = 2 ∨ r = 5 ∨ r = 7 ∨ r = 11 := by
  have hpow : ∀ {p k : ℕ}, p.Prime → r ∣ p ^ k → r = p := fun hp hdvd =>
    (Nat.prime_dvd_prime_iff_eq hr hp).mp (hr.dvd_of_dvd_pow hdvd)
  rw [samplePrimeHalf, Nat.add_sub_cancel] at h
  simp only [hr.dvd_mul] at h
  rcases h with (((h | h) | h) | h) | h
  · exact .inl (hpow Nat.prime_two (hr.dvd_of_dvd_pow h))
  · exact .inl (hpow Nat.prime_two h)
  · exact .inr (.inl (hpow Nat.prime_five h))
  · exact .inr (.inr (.inl (hpow (by norm_num) h)))
  · exact .inr (.inr (.inr (hpow (by norm_num) h)))

theorem samplePrimeHalf_prime : samplePrimeHalf.Prime := by
  have hdvd := @dvd_samplePrimeHalf
  obtain ⟨n, hn⟩ : ∃ n, n = samplePrimeHalf := ⟨_, rfl⟩
  rw [← hn] at hdvd ⊢
  -- The powers are reduced modulo a numeral.
  unfold samplePrimeHalf at hn
  norm_num at hn
  subst hn
  refine lucas_primality _ 12 ?_ fun r hr h => ?_
  · reduce_mod_char
  · rcases hdvd hr h with rfl | rfl | rfl | rfl
    all_goals
      reduce_mod_char
      refine numeral_ne_one ?_
      norm_num

theorem samplePrime_prime : samplePrime.Prime := by
  have hdvd : ∀ r : ℕ, r.Prime → r ∣ 2 * samplePrimeHalf + 1 - 1 → r = 2 ∨ r = samplePrimeHalf := by
    intro r hr h
    rw [Nat.add_sub_cancel, hr.dvd_mul] at h
    rcases h with h | h
    · exact .inl ((Nat.prime_dvd_prime_iff_eq hr Nat.prime_two).mp h)
    · exact .inr ((Nat.prime_dvd_prime_iff_eq hr samplePrimeHalf_prime).mp h)
  unfold samplePrime
  obtain ⟨n, hn⟩ : ∃ n, n = samplePrimeHalf := ⟨_, rfl⟩
  rw [← hn] at hdvd ⊢
  unfold samplePrimeHalf at hn
  norm_num at hn
  subst hn
  refine lucas_primality _ 2 ?_ fun r hr h => ?_
  · reduce_mod_char
  · rcases hdvd r hr h with rfl | rfl
    all_goals
      reduce_mod_char
      refine numeral_ne_one ?_
      norm_num

theorem samplePrime_safe : SafePrime samplePrime := by
  refine ⟨samplePrime_prime, ?_, ?_, ?_⟩
  · rw [samplePrime, Nat.add_sub_cancel, Nat.mul_div_cancel_left _ (by norm_num)]
    exact samplePrimeHalf_prime
  · decide +kernel
  · decide +kernel

theorem samplePrime_bytes : bin2bn (bytesBE 256 samplePrime) = samplePrime := by
  rw [bin2bn_bytesBE]
  decide +kernel

/-- The exponent of the client is 1. -/
def shortDraw : Draw := { sampleDraw with b := Vector.ofFn fun i => if i = 255 then 1 else 0 }

/-- An exchange whose key is a single byte. -/
theorem authKey_agrees_iff_short :
    (∃ key, (setDhParams sampleConfig {} shortDraw [] [] [] 3 (bytesBE 256 samplePrime)
        [3]).1.service.authKey = some key ∧ KeyAgrees sampleConfig id key
          (bytesBE 256 (3 ^ (1 * bin2bn shortDraw.b.toList) % samplePrime)))
      ↔ 256 ^ 255 ≤ 3 ^ (1 * bin2bn shortDraw.b.toList) % samplePrime :=
  authKey_agrees_iff sampleConfig id {} shortDraw [] [] [] 3 samplePrime_safe samplePrime_bytes 3 1
    (by decide +kernel)

/-- With the exponents 1 and 1 the parameters pass the checks, and the key is the byte 3. -/
theorem short_key :
    SafePrime samplePrime ∧ MTCheckIsSafeG 3 ∧ residue samplePrime 3
      ∧ MTCheckIsSafeGAOrB [3] (bytesBE 256 samplePrime) ∧ bin2bn [3] = 3 ^ 1 % samplePrime
      ∧ bin2bn shortDraw.b.toList = 1
      ∧ ¬ ∃ key, (setDhParams sampleConfig {} shortDraw [] [] [] 3 (bytesBE 256 samplePrime)
          [3]).1.service.authKey = some key
        ∧ KeyAgrees sampleConfig id key (bytesBE 256 (3 ^ (1 * 1) % samplePrime)) := by
  have hexp : bin2bn shortDraw.b.toList = 1 := by decide +kernel
  have hrange : MTCheckIsSafeGAOrB [3] (bytesBE 256 samplePrime) := by
    unfold MTCheckIsSafeGAOrB
    rw [samplePrime_bytes]
    decide +kernel
  have hbase : bin2bn [3] = 3 ^ 1 % samplePrime := by decide +kernel
  refine ⟨samplePrime_safe, rfl, by decide +kernel, hrange, hbase, hexp, ?_⟩
  rintro ⟨key, hkey, hagrees⟩
  obtain rfl := Option.some.inj hkey
  have heq := hagrees.authKey
  rw [MTExp_eq samplePrime_safe.odd samplePrime_bytes hbase, hexp,
    bn2bin_eq_iff (samplePrime_safe.mod_lt _)] at heq
  exact absurd heq (by decide +kernel)

end Onegram.DatacenterAuth
