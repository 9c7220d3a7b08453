import Onegram.DhAnswer
import Onegram.Proofs.DatacenterAuth
import Onegram.Proofs.TLStrings

/-!
# Answers of any length

Inside `server_DH_params_ok` are twenty bytes of hash, the answer, and up to fifteen bytes of
padding. The hash is cut off without a look at the length, and the padding is taken off a byte at a
time, at most sixteen of them. Where fewer are left than that, and no beginning of them has the
hash, the loop takes a byte of nothing.

The answer is parsed like any message. A byte string in it may have a length that is negative, and
where that reaches back no further than the beginning of the answer the parser raises.
-/

namespace Onegram.DatacenterAuth

open Bytes TL

variable {config : Config}

/-- The answer with the hash in front is there after at most fifteen bytes are taken off. -/
def Trimmed (config : Config) (answerWithHash answer : Bytes) : Prop :=
  ∃ padding, answerWithHash.drop 20 = answer ++ padding ∧ padding.length ≤ 15
    ∧ config.MTSha1 answer = answerWithHash.take 20

theorem verifyAnswer_none_iff (answerHash : Bytes) : ∀ (rounds : ℕ) (data : Bytes),
    verifyAnswer config answerHash rounds data = none
      ↔ data.length < rounds ∧ ∀ answer, answer <+: data → config.MTSha1 answer ≠ answerHash
  | 0, data => by simp [verifyAnswer]
  | rounds + 1, data => by
    have ih := verifyAnswer_none_iff answerHash rounds data.dropLast
    unfold verifyAnswer
    split_ifs with hhash hempty
    · constructor
      · intro h
        cases h
      · rintro ⟨-, hnone⟩
        exact absurd hhash (hnone data List.prefix_rfl)
    · subst hempty
      simp [hhash]
    · have hpos := List.length_pos_of_ne_nil hempty
      rw [ih, List.length_dropLast]
      constructor
      · rintro ⟨hlen, hnone⟩
        refine ⟨by omega, fun answer hanswer => ?_⟩
        rcases List.prefix_concat_iff.mp
          (by rwa [List.dropLast_append_getLast hempty] :
            answer <+: data.dropLast ++ [data.getLast hempty]) with heq | hshort
        · rw [heq, List.dropLast_append_getLast hempty]
          exact hhash
        · exact hnone answer hshort
      · rintro ⟨hlen, hnone⟩
        exact ⟨by omega, fun answer hanswer =>
          hnone answer (hanswer.trans (List.dropLast_prefix data))⟩

/-- When the answer is looked for past the end of what was decrypted. -/
theorem answerData_none_iff (answerWithHash : Bytes) :
    answerData config answerWithHash = none
      ↔ answerWithHash.length < 36
        ∧ (20 ≤ answerWithHash.length → ∀ answer, ¬ Trimmed config answerWithHash answer) := by
  unfold answerData
  split_ifs with hshort
  · exact ⟨fun _ => ⟨by omega, by omega⟩, fun _ => rfl⟩
  · rw [verifyAnswer_none_iff, List.length_drop]
    constructor
    · rintro ⟨hlen, hnone⟩
      refine ⟨by omega, fun _ answer htrimmed => ?_⟩
      obtain ⟨padding, hdata, -, hhash⟩ := htrimmed
      exact hnone answer ⟨padding, hdata.symm⟩ hhash
    · rintro ⟨hlen, hnone⟩
      refine ⟨by omega, fun answer hmark hhash => ?_⟩
      obtain ⟨padding, hdata⟩ := hmark
      have hpadding := congrArg List.length hdata
      rw [List.length_append, List.length_drop] at hpadding
      exact hnone (by omega) answer ⟨padding, hdata.symm, by omega, hhash⟩

theorem answerData_trimmed {answerWithHash answer : Bytes}
    (h : answerData config answerWithHash = some (some answer)) :
    Trimmed config answerWithHash answer := by
  unfold answerData at h
  split_ifs at h
  obtain ⟨hhash, padding, hdata, hlen⟩ := verifyAnswer_spec 16 h
  exact ⟨padding, hdata, by omega, hhash⟩

theorem verifyAnswer_longest {answerHash answer : Bytes} : ∀ (rounds : ℕ) {data : Bytes},
    verifyAnswer config answerHash rounds data = some (some answer) →
      ∀ other, other <+: data → config.MTSha1 other = answerHash → other.length ≤ answer.length
  | 0, data, h => by simp [verifyAnswer] at h
  | rounds + 1, data, h => by
    unfold verifyAnswer at h
    split_ifs at h with hhash hempty
    · obtain rfl : data = answer := Option.some.inj (Option.some.inj h)
      exact fun other hother _ => hother.length_le
    · intro other hother hsha
      rcases List.prefix_concat_iff.mp
        (by rwa [List.dropLast_append_getLast hempty] :
          other <+: data.dropLast ++ [data.getLast hempty]) with heq | hshort
      · rw [List.dropLast_append_getLast hempty] at heq
        rw [heq] at hsha
        exact absurd hsha hhash
      · exact verifyAnswer_longest rounds h other hshort hsha

theorem verifyAnswer_unverified {answerHash : Bytes} : ∀ (rounds : ℕ) {data : Bytes},
    verifyAnswer config answerHash rounds data = some none →
      ∀ other padding, data = other ++ padding → padding.length < rounds →
        config.MTSha1 other ≠ answerHash
  | 0, data, _ => fun other padding _ hlen => absurd hlen (Nat.not_lt_zero _)
  | rounds + 1, data, h => by
    unfold verifyAnswer at h
    split_ifs at h with hhash hempty
    · cases h
    · intro other padding hdata hlen
      rcases List.eq_nil_or_concat' padding with rfl | ⟨before, last, rfl⟩
      · rw [List.append_nil] at hdata
        rwa [← hdata]
      · refine verifyAnswer_unverified rounds h other before ?_ ?_
        · rw [hdata, ← List.append_assoc, List.dropLast_concat]
        · rw [List.length_append, List.length_singleton] at hlen
          omega

/-- The answer that is taken: of those with the hash in front, the one with the least padding. -/
structure Found (config : Config) (answerWithHash answer : Bytes) : Prop where
  trimmed : Trimmed config answerWithHash answer
  longest : ∀ other, Trimmed config answerWithHash other → other.length ≤ answer.length

theorem answerData_found {answerWithHash answer : Bytes}
    (h : answerData config answerWithHash = some (some answer)) :
    Found config answerWithHash answer := by
  refine ⟨answerData_trimmed h, ?_⟩
  rintro other ⟨padding, hdata, -, hhash⟩
  unfold answerData at h
  split_ifs at h
  exact verifyAnswer_longest 16 h other ⟨padding, hdata.symm⟩ hhash

theorem answerData_of_found {answerWithHash answer : Bytes}
    (h : answerData config answerWithHash ≠ none) (hfound : Found config answerWithHash answer) :
    answerData config answerWithHash = some (some answer) := by
  rcases hanswer : answerData config answerWithHash with _ | _ | other
  · exact absurd hanswer h
  · obtain ⟨padding, hdata, hlen, hhash⟩ := hfound.trimmed
    unfold answerData at hanswer
    split_ifs at hanswer
    exact absurd hhash (verifyAnswer_unverified 16 hanswer answer padding hdata (by omega))
  · have hother := answerData_found hanswer
    have hlen := le_antisymm (hfound.longest other hother.trimmed)
      (hother.longest answer hfound.trimmed)
    obtain ⟨padding, hdata, -, -⟩ := hfound.trimmed
    obtain ⟨padding', hdata', -, -⟩ := hother.trimmed
    rw [hdata'] at hdata
    rw [(List.append_inj hdata hlen).1]

/-! ## The parser -/

namespace DhAnswer

open Cursor TLStrings

/-- A length that is negative, and takes the offset back to a place in the data. -/
def ReachesBack (data : Bytes) (offset : ℕ) : Prop :=
  ∃ k n, lengthPrefix (data.drop offset) = some (k, n) ∧ 2 ^ 23 ≤ n ∧ 2 ^ 24 ≤ offset + 4 + n

theorem ReachesBack.le {data : Bytes} {offset : ℕ} (h : ReachesBack data offset) :
    offset < data.length := by
  obtain ⟨k, n, hmark, -, -⟩ := h
  have hk := prefix_le hmark
  rw [List.length_drop] at hk
  omega

theorem simulates_readTLBytes :
    SimulatesUnless ReachesBack readTLBytes TL.MTBufferReader.readTLBytes := by
  intro data offset hoffset
  rw [reader_eq hoffset]
  unfold readTLBytes
  rcases hmark : lengthPrefix (data.drop offset) with _ | ⟨k, n⟩
  · have hgood : ¬ ReachesBack data offset := by
      rintro ⟨k, n, hsome, -⟩
      rw [hmark] at hsome
      cases hsome
    rw [readTLBytes_none hoffset hmark]
    exact .inr ⟨hgood, .inl ⟨rfl, rfl⟩⟩
  have hback : ReachesBack data offset ↔ 2 ^ 23 ≤ n ∧ 2 ^ 24 ≤ offset + 4 + n := by
    constructor
    · rintro ⟨k', n', hsome, hback⟩
      obtain ⟨-, rfl⟩ := Prod.mk.inj (Option.some.inj (hmark.symm.trans hsome))
      exact hback
    · exact fun hback => ⟨k, n, hmark, hback⟩
  rw [hback]
  by_cases hn : n < 2 ^ 23
  · rw [readTLBytes_marked hoffset hmark hn]
    refine .inr ⟨by omega, ?_⟩
    split_ifs with hall
    · exact .inr ⟨_, _, hall, rfl, rfl⟩
    · exact .inl ⟨rfl, rfl⟩
    · exact .inl ⟨rfl, rfl⟩
  · rw [readTLBytes_negative hoffset hmark (not_lt.mp hn)]
    split_ifs with hreaches
    · exact .inl ⟨⟨not_lt.mp hn, hreaches⟩, _, rfl⟩
    · exact .inr ⟨fun h => hreaches h.2, .inl ⟨rfl, rfl⟩⟩

theorem simulates_readBytes (length : ℕ) :
    Simulates (readBytes length) (TL.MTBufferReader.readBytes length) :=
  simulates_read (fun _ _ _ _ => rfl) length

theorem simulates_readInt32 : Simulates readInt32 TL.MTBufferReader.readInt32 :=
  (simulates_readBytes 4).bind fun _ => simulates_pure _

theorem simulates_readInt64 : Simulates readInt64 TL.MTBufferReader.readInt64 :=
  (simulates_readBytes 8).bind fun _ => simulates_pure _

theorem simulates_readVector :
    Simulates readVector (MTInternalMessageParser.readVector TL.MTBufferReader.readInt64) :=
  simulates_readInt32.bind fun _ => simulates_readInt32.bind fun _ => simulates_readInt64.times _

/-! ### What is read in front of a byte string -/

/-- A reader that takes `n` bytes, whatever they are. -/
def Wide {α : Type} (r : Reader UInt8 α) (n : ℕ) : Prop :=
  ∀ s, if n ≤ s.length then ∃ v, r s = some (v, s.drop n) else r s = none

theorem wide_readBytes (n : ℕ) : Wide (TL.MTBufferReader.readBytes n) n := by
  intro s
  unfold TL.MTBufferReader.readBytes Reader.take
  split_ifs with h
  · exact ⟨_, rfl⟩
  · rfl

theorem Wide.bind {α β : Type} {r : Reader UInt8 α} {f : α → Reader UInt8 β} {n m : ℕ}
    (h : Wide r n) (hf : ∀ v, Wide (f v) m) : Wide (r >>= f) (n + m) := by
  intro s
  rw [Reader.bind_apply]
  have hr := h s
  by_cases hn : n ≤ s.length
  · rw [if_pos hn] at hr
    obtain ⟨v, hv⟩ := hr
    have hm := hf v (s.drop n)
    rw [List.length_drop, List.drop_drop] at hm
    rw [hv, Option.bind_some]
    by_cases hall : n + m ≤ s.length
    · rw [if_pos hall]
      rwa [if_pos (by omega)] at hm
    · rw [if_neg hall]
      rwa [if_neg (by omega)] at hm
  · rw [if_neg hn] at hr
    rw [if_neg (by omega), hr]
    rfl

theorem wide_pure {α : Type} (v : α) : Wide (pure v : Reader UInt8 α) 0 := by
  intro s
  rw [if_pos (by omega)]
  exact ⟨v, rfl⟩

theorem wide_readInt32 : Wide TL.MTBufferReader.readInt32 4 :=
  (wide_readBytes 4).bind fun _ => wide_pure _

theorem wide_readInt64 : Wide TL.MTBufferReader.readInt64 8 :=
  (wide_readBytes 8).bind fun _ => wide_pure _

theorem Wide.times {α : Type} {r : Reader UInt8 α} {n : ℕ} (h : Wide r n) :
    ∀ count, Wide (Reader.times r count) (n * count)
  | 0 => wide_pure []
  | count + 1 => by
    have hsum : n * (count + 1) = n + (n * count + 0) := by
      rw [Nat.mul_succ]
      omega
    rw [hsum]
    exact h.bind fun v => (h.times count).bind fun vs => wide_pure (v :: vs)

/-- What is behind such a reader is at a known place. -/
theorem Wide.after {α : Type} {r : Reader UInt8 α} {n : ℕ} (h : Wide r n)
    {bad : List UInt8 → ℕ → Prop} (hbad : ∀ data offset, bad data offset → offset < data.length)
    (data : Bytes) (offset : ℕ) :
    After r (fun _ => bad) data offset ↔ bad data (offset + n) := by
  have hr := h (data.drop offset)
  rw [List.length_drop, List.drop_drop] at hr
  constructor
  · rintro ⟨v, offset', hoffset', hv, hlater⟩
    have hlt := hbad _ _ hlater
    by_cases hn : n ≤ data.length - offset
    · rw [if_pos hn] at hr
      obtain ⟨w, hw⟩ := hr
      obtain ⟨-, hdrop⟩ := Prod.mk.inj (Option.some.inj (hv.symm.trans hw))
      have hlen := congrArg List.length hdrop
      rw [List.length_drop, List.length_drop] at hlen
      have hplace : offset + n = offset' := by omega
      rwa [hplace]
    · rw [if_neg hn, hv] at hr
      cases hr
  · intro hlater
    have hlt := hbad _ _ hlater
    rw [if_pos (by omega)] at hr
    obtain ⟨v, hv⟩ := hr
    exact ⟨v, offset + n, hlt.le, hv, hlater⟩

theorem after_bytes (n m : ℕ) :
    After (TL.MTBufferReader.readBytes n) (fun _ data offset => ReachesBack data (offset + m))
      = fun data offset => ReachesBack data (offset + (n + m)) := by
  funext data offset
  rw [← Nat.add_assoc]
  refine propext ((wide_readBytes n).after (fun data offset hback => ?_) data offset)
  have := hback.le
  omega

theorem after_int32 : After TL.MTBufferReader.readInt32 (fun _ => ReachesBack)
    = fun data offset => ReachesBack data (offset + 4) := by
  funext data offset
  exact propext (wide_readInt32.after (fun _ _ hback => hback.le) data offset)

theorem after_int64 : After TL.MTBufferReader.readInt64 (fun _ => ReachesBack)
    = fun data offset => ReachesBack data (offset + 8) := by
  funext data offset
  exact propext (wide_readInt64.after (fun _ _ hback => hback.le) data offset)

/-! ### The cases -/

/-- A byte string behind two nonces. -/
theorem after_nonces :
    After (TL.MTBufferReader.readBytes 16)
        (fun _ => After (TL.MTBufferReader.readBytes 16) fun _ => ReachesBack)
      = fun data offset => ReachesBack data (offset + 32) := by
  have hinner := after_bytes 16 0
  simp only [Nat.add_zero] at hinner
  rw [hinner, after_bytes 16 16]

theorem simulates_readResPq :
    SimulatesUnless (fun data offset => ReachesBack data (offset + 32)) readResPq
      MTInternalMessageParser.readResPq := by
  rw [← after_nonces]
  exact (simulates_readBytes 16).bind_unless fun nonce =>
    (simulates_readBytes 16).bind_unless fun serverNonce =>
      simulates_readTLBytes.bind_simulates fun pq =>
        simulates_readVector.bind fun fingerprints =>
          simulates_pure (Message.resPq nonce serverNonce pq fingerprints)

theorem simulates_readServerDhParamsOk :
    SimulatesUnless (fun data offset => ReachesBack data (offset + 32)) readServerDhParamsOk
      MTInternalMessageParser.readServerDhParamsOk := by
  rw [← after_nonces]
  exact (simulates_readBytes 16).bind_unless fun nonce =>
    (simulates_readBytes 16).bind_unless fun serverNonce =>
      simulates_readTLBytes.bind_simulates fun encryptedResponse =>
        simulates_pure (Message.serverDhParamsOk nonce serverNonce encryptedResponse)

/-- Either of the two numbers has such a length. -/
def NumberReachesBack (data : Bytes) (offset : ℕ) : Prop :=
  ReachesBack data offset ∨ After TL.MTBufferReader.readTLBytes (fun _ => ReachesBack) data offset

theorem NumberReachesBack.le {data : Bytes} {offset : ℕ} (h : NumberReachesBack data offset) :
    offset < data.length := by
  rcases h with hback | ⟨v, offset', hoffset', hread, hback⟩
  · exact hback.le
  · by_contra hlt
    rw [List.drop_eq_nil_of_le (not_lt.mp hlt)] at hread
    cases hread

theorem after_group :
    After (TL.MTBufferReader.readBytes 16)
        (fun _ => After (TL.MTBufferReader.readBytes 16)
          fun _ => After TL.MTBufferReader.readInt32 fun _ => NumberReachesBack)
      = fun data offset => NumberReachesBack data (offset + 36) := by
  funext data offset
  have hword : After TL.MTBufferReader.readInt32 (fun _ => NumberReachesBack)
      = fun data offset => NumberReachesBack data (offset + 4) := by
    funext data offset
    exact propext (wide_readInt32.after (fun _ _ hback => hback.le) data offset)
  have hserver : After (TL.MTBufferReader.readBytes 16)
      (fun _ data offset => NumberReachesBack data (offset + 4))
      = fun data offset => NumberReachesBack data (offset + 16 + 4) := by
    funext data offset
    refine propext ((wide_readBytes 16).after (fun data offset hback => ?_) data offset)
    have := hback.le
    omega
  rw [hword, hserver]
  refine propext ((wide_readBytes 16).after (fun data offset hback => ?_) data offset)
  have := hback.le
  omega

theorem simulates_readServerDhInnerData :
    SimulatesUnless (fun data offset => NumberReachesBack data (offset + 36)) readServerDhInnerData
      MTInternalMessageParser.readServerDhInnerData := by
  rw [← after_group]
  exact (simulates_readBytes 16).bind_unless fun nonce =>
    (simulates_readBytes 16).bind_unless fun serverNonce =>
      simulates_readInt32.bind_unless fun g =>
        simulates_readTLBytes.bind fun dhPrime =>
          simulates_readTLBytes.bind_simulates fun gA =>
            simulates_readInt32.bind fun serverTime =>
              simulates_pure (Message.serverDhInnerData nonce serverNonce g dhPrime gA serverTime)

theorem simulates_readRpcError :
    SimulatesUnless (fun data offset => ReachesBack data (offset + 4)) readRpcError
      MTInternalMessageParser.readRpcError := by
  rw [← after_int32]
  exact simulates_readInt32.bind_unless fun errorCode =>
    (simulates_readTLBytes.bind_simulates fun bytes =>
      simulates_pure (ofUtf8 bytes)).bind_simulates fun errorDescription =>
        simulates_pure (Message.rpcError errorCode errorDescription)

theorem simulates_readMsgsStateInfo :
    SimulatesUnless (fun data offset => ReachesBack data (offset + 8)) readMsgsStateInfo
      MTInternalMessageParser.readMsgsStateInfo := by
  rw [← after_int64]
  exact simulates_readInt64.bind_unless fun requestMessageId =>
    simulates_readTLBytes.bind_simulates fun info =>
      simulates_pure (Message.msgsStateInfo requestMessageId info)

/-- A byte string behind a vector of numbers has such a length. -/
abbrev VectorReachesBack : Bytes → ℕ → Prop :=
  After (MTInternalMessageParser.readVector TL.MTBufferReader.readInt64) fun _ => ReachesBack

theorem simulates_readMsgAllInfo :
    SimulatesUnless VectorReachesBack readMsgAllInfo MTInternalMessageParser.readMsgAllInfo :=
  simulates_readVector.bind_unless fun messageIds =>
    simulates_readTLBytes.bind_simulates fun info =>
      simulates_pure (Message.msgAllInfo messageIds info)

/-- What is behind the constructor meets such a length. -/
def CaseRaises (signature : UInt32) (data : Bytes) : Prop :=
  if signature = 0x05162463 ∨ signature = 0xd0e8075c then ReachesBack data 36
  else if signature = 0xb5890dba then NumberReachesBack data 40
  else if signature = 0x2144ca19 then ReachesBack data 8
  else if signature = 0x04deb57d then ReachesBack data 12
  else if signature = 0x8cc0d131 then VectorReachesBack data 4
  else False

/-- The message has a byte string whose length reaches back. -/
def Raises (data : Bytes) : Prop :=
  4 ≤ data.length ∧ CaseRaises (UInt32.ofNat (littleEndian (data.take 4))) data

/-- What comes of a case, at the place behind the constructor. -/
def CaseAgrees (signature : UInt32) (data : Bytes) : Prop :=
  (CaseRaises signature data ∧ ∃ e, readCase signature data 4 = Except.error e)
    ∨ ¬ CaseRaises signature data
      ∧ (readCase signature data 4).map (·.map Prod.fst)
        = Except.ok ((((MTInternalMessageParser.cases.lookup signature).getD Reader.fail)
          (data.drop 4)).map Prod.fst)

theorem caseAgrees_string {signature : UInt32} {data : Bytes} (h : 4 ≤ data.length)
    {c : BufferReader Message} {r : Reader UInt8 Message} {bad : Bytes → ℕ → Prop}
    (hc : stringCases.lookup signature = some c)
    (hr : MTInternalMessageParser.cases.lookup signature = some r)
    (hbad : CaseRaises signature data = bad data 4) (hsimulates : SimulatesUnless bad c r) :
    CaseAgrees signature data := by
  unfold CaseAgrees readCase
  rw [hc, hr, hbad]
  exact hsimulates.value h

theorem caseAgrees_plain {signature : UInt32} {data : Bytes}
    (hc : stringCases.lookup signature = none) (hbad : ¬ CaseRaises signature data) :
    CaseAgrees signature data := by
  unfold CaseAgrees readCase
  rw [hc]
  refine .inr ⟨hbad, ?_⟩
  change Except.map _ (Except.ok (Option.map _ _)) = _
  simp only [Except.map, Option.map_map]
  rfl

theorem caseAgrees (signature : UInt32) {data : Bytes} (h : 4 ≤ data.length) :
    CaseAgrees signature data := by
  by_cases hresPq : signature = 0x05162463
  · subst hresPq
    exact caseAgrees_string h rfl rfl (by simp [CaseRaises]) simulates_readResPq
  by_cases hparams : signature = 0xd0e8075c
  · subst hparams
    exact caseAgrees_string h rfl rfl (by simp [CaseRaises]) simulates_readServerDhParamsOk
  by_cases hinner : signature = 0xb5890dba
  · subst hinner
    exact caseAgrees_string h rfl rfl (by simp [CaseRaises]) simulates_readServerDhInnerData
  by_cases herror : signature = 0x2144ca19
  · subst herror
    exact caseAgrees_string h rfl rfl (by simp [CaseRaises]) simulates_readRpcError
  by_cases hstate : signature = 0x04deb57d
  · subst hstate
    exact caseAgrees_string h rfl rfl (by simp [CaseRaises]) simulates_readMsgsStateInfo
  by_cases hall : signature = 0x8cc0d131
  · subst hall
    exact caseAgrees_string h rfl rfl (by simp [CaseRaises]) simulates_readMsgAllInfo
  · refine caseAgrees_plain ?_ ?_
    · rw [List.lookup_eq_none_iff]
      simp [stringCases, hresPq, hparams, hinner, herror, hstate, hall]
    · simp [CaseRaises, hresPq, hparams, hinner, herror, hstate, hall]

/-- The parser raises on these messages only, and is the one that takes from the front elsewhere. -/
theorem parseMessage_raises (data : Bytes) :
    (Raises data ∧ ∃ e, parseMessage data = .error e)
      ∨ ¬ Raises data ∧ parseMessage data = .ok (MTInternalMessageParser.parseMessage data) := by
  unfold Raises parseMessage readSigned MTInternalMessageParser.parseMessage
    MTInternalMessageParser.readSigned
  rw [Reader.bind_apply]
  by_cases h : 4 ≤ data.length
  · have hword : TL.MTBufferReader.readInt32 data
        = some ((UInt32.ofNat (littleEndian (data.take 4))).toInt32, data.drop 4) := by
      unfold TL.MTBufferReader.readInt32
      rw [Reader.bind_apply]
      have hfour : TL.MTBufferReader.readBytes 4 data = some (data.take 4, data.drop 4) := if_pos h
      rw [hfour]
      rfl
    have hread : readInt32 data 0
        = .ok (some ((UInt32.ofNat (littleEndian (data.take 4))).toInt32, 4)) := by
      rcases simulates_readInt32 data 0 (Nat.zero_le _) with ⟨hr, -⟩ | ⟨v, offset', hle, hr, hc⟩
      · rw [List.drop_zero, hword] at hr
        cases hr
      · rw [List.drop_zero, hword] at hr
        obtain ⟨rfl, hdrop⟩ := Prod.mk.inj (Option.some.inj hr)
        rw [hc, drop_inj h hle hdrop]
    have hcase := caseAgrees (UInt32.ofNat (littleEndian (data.take 4))) h
    rw [bind_some hread, hword, Option.bind_some]
    unfold CaseAgrees at hcase
    rcases hcase with ⟨hraises, e, he⟩ | ⟨hgood, hvalue⟩
    · refine .inl ⟨⟨h, hraises⟩, e, ?_⟩
      simp only [UInt32.toUInt32_toInt32]
      rw [he]
      rfl
    · refine .inr ⟨fun hraises => hgood hraises.2, ?_⟩
      simp only [UInt32.toUInt32_toInt32]
      exact hvalue
  · have hword : TL.MTBufferReader.readInt32 data = none := by
      have hwide := wide_readInt32 data
      rwa [if_neg h] at hwide
    have hread : readInt32 data 0 = .ok none := by
      rcases simulates_readInt32 data 0 (Nat.zero_le _) with ⟨-, hc⟩ | ⟨v, offset', -, hr, -⟩
      · exact hc
      · rw [List.drop_zero, hword] at hr
        cases hr
    rw [bind_none hread, hword]
    exact .inr ⟨fun hraises => h hraises.1, rfl⟩

end DhAnswer

/-! ## The stage -/

/-- The stage is left for the next one or for the first. -/
structure Settles (r : Result) : Prop where
  running : r.1.running = true
  settled : r.1.service.stage = .keyVerification ∨ r.2.any Effect.isReset = true

theorem settles_reset {w : World} (h : w.running = true) : Settles (reset config w) := by
  refine ⟨h, .inr ?_⟩
  unfold reset
  simp [Effect.isReset]

theorem reset_stage (w : World) : (reset config w).1.service.stage ≠ .keyVerification := by
  unfold reset resetStage
  simp only []
  split_ifs
  · split <;> simp
  · simp

theorem checkDhPrime_running (w : World) (draw : Draw) (g : Int32) (dhPrime : Bytes) :
    (checkDhPrime w draw g dhPrime).2.running = w.running := by
  unfold checkDhPrime
  simp only []
  split <;> rfl

theorem settles_receivedInnerData {w : World} (h : w.running = true) (draw : Draw)
    (nonce serverNonce newNonce : Bytes) (message : Option Message) :
    Settles (receivedInnerData config w draw nonce serverNonce newNonce message) := by
  unfold receivedInnerData
  split
  · rename_i g dhPrime gA serverTime
    have hrunning : (checkDhPrime w draw g dhPrime).2.running = true := by
      rw [checkDhPrime_running, h]
    simp only []
    split_ifs
    · exact settles_reset h
    · exact settles_reset h
    · exact ⟨hrunning, .inl rfl⟩
    · exact settles_reset hrunning
    · exact settles_reset h
  · exact settles_reset h

/-- The answer is handled, and accepted only with its hash. -/
structure Handled (config : Config) (newNonce serverNonce encryptedResponse : Bytes) (r : Result) :
    Prop extends Settles r where
  verified : r.1.service.stage = .keyVerification →
    ∃ answer, Trimmed config (decryptAnswer config encryptedResponse newNonce serverNonce) answer

theorem handled_iff (w : World) (h : w.running = true) (draw : Draw)
    (nonce serverNonce encryptedResponse : Bytes) :
    Handled config (w.service.newNonce.getD []) serverNonce encryptedResponse
        (DhAnswer.receivedServerDhParamsOk config w draw nonce serverNonce encryptedResponse)
      ↔ answerData config (decryptAnswer config encryptedResponse (w.service.newNonce.getD [])
          serverNonce) ≠ none
        ∧ ∀ answer, answerData config (decryptAnswer config encryptedResponse
          (w.service.newNonce.getD []) serverNonce) = some (some answer)
            → ¬ DhAnswer.Raises answer := by
  unfold DhAnswer.receivedServerDhParamsOk
  simp only []
  rcases hanswer : answerData config (decryptAnswer config encryptedResponse
    (w.service.newNonce.getD []) serverNonce) with _ | _ | answer
  · refine iff_of_false (fun hhandled => ?_) fun hgood => hgood.1 rfl
    exact absurd hhandled.running (by simp [exception])
  · refine iff_of_true ⟨settles_reset h, fun hstage => absurd hstage (reset_stage w)⟩ ⟨by simp, ?_⟩
    intro answer hsome
    cases hsome
  · rcases DhAnswer.parseMessage_raises answer with ⟨hraises, e, he⟩ | ⟨hgood, hvalue⟩
    · simp only [he]
      refine iff_of_false (fun hhandled => ?_) fun hgood => hgood.2 answer rfl hraises
      exact absurd hhandled.running (by simp [exception])
    · simp only [hvalue]
      refine iff_of_true ⟨settles_receivedInnerData h draw nonce serverNonce _ _,
        fun _ => ⟨answer, answerData_trimmed hanswer⟩⟩ ⟨by simp, ?_⟩
      intro other hother
      rwa [← Option.some.inj (Option.some.inj hother)]

/-! ## Lengths -/

/-- What is documented of the hash and of the cipher. -/
structure Lengths (config : Config) : Prop where
  hash : ∀ data, (config.MTSha1 data).length = 20
  decrypt : ∀ key block, key.length = 32 → block.length = 16 →
    (config.decrypt key block).length = 16

theorem length_decryptAnswer (h : Lengths config) (encryptedResponse serverNonce : Bytes)
    {newNonce : Bytes} (hnonce : newNonce.length = 32) :
    (decryptAnswer config encryptedResponse newNonce serverNonce).length
      = encryptedResponse.length := by
  have hkey : (tmpAesKey config newNonce serverNonce).length = 32 := by
    unfold tmpAesKey
    rw [List.length_append, List.length_take, h.hash, h.hash]
    rfl
  have hiv : (tmpAesIv config newNonce serverNonce).length = 32 := by
    unfold tmpAesIv
    rw [List.length_append, List.length_append, List.length_take, List.length_take,
      List.length_drop, h.hash, h.hash, hnonce]
    rfl
  unfold decryptAnswer
  rw [List.length_append, List.length_replicate,
    length_MTAesDecrypt (fun block hblock => h.decrypt _ block hkey hblock) hiv]
  omega

/-- The nonce an answer is decrypted with was drawn for the `resPQ` before it. -/
theorem length_newNonce {s : Session} (h : s.Inv config) (hstage : s.world.service.stage = .reqDH) :
    (s.world.service.newNonce.getD []).length = 32 := by
  have hknown := h.known
  unfold Known at hknown
  rw [hstage] at hknown
  obtain ⟨nonce, serverNonce, newNonce, -, -, hnew, hgot⟩ := hknown
  obtain ⟨-, -, -, draw, -, -, -, -, -, rfl⟩ := hgot
  rw [hnew, Option.getD_some]
  exact draw.newNonce.size_toArray

/-- An answer is handled exactly when it has room for the hash and all the padding, or has the hash
in front and no more than fifteen bytes have to be taken off to see it; and when what is then taken
has no byte string whose length reaches back. -/
theorem dhAnswer_handled_iff (h : Lengths config) (es : List Event)
    (hrunning : (Session.run config {} es).world.running = true)
    (hstage : (Session.run config {} es).world.service.stage = .reqDH)
    {nonce serverNonce : Bytes} (hown : ownNonces (Session.run config {} es).world nonce serverNonce)
    (draw : Draw) (messageId : Int64) (encryptedResponse : Bytes) :
    let newNonce := (Session.run config {} es).world.service.newNonce.getD []
    let answerWithHash := decryptAnswer config encryptedResponse newNonce serverNonce
    Handled config newNonce serverNonce encryptedResponse
        (DhAnswer.receivedMessage config (Session.run config {} es).world draw messageId
          (.serverDhParamsOk nonce serverNonce encryptedResponse))
      ↔ (36 ≤ encryptedResponse.length
          ∨ 20 ≤ encryptedResponse.length ∧ ∃ answer, Trimmed config answerWithHash answer)
        ∧ ∀ answer, Found config answerWithHash answer → ¬ DhAnswer.Raises answer := by
  intro newNonce answerWithHash
  have hlength : answerWithHash.length = encryptedResponse.length :=
    length_decryptAnswer h encryptedResponse serverNonce (length_newNonce (run_inv es) hstage)
  have hhandle : DhAnswer.receivedMessage config (Session.run config {} es).world draw messageId
      (.serverDhParamsOk nonce serverNonce encryptedResponse)
      = DhAnswer.receivedServerDhParamsOk config (Session.run config {} es).world draw nonce
        serverNonce encryptedResponse := by
    unfold DhAnswer.receivedMessage
    simp only [hstage]
    rw [if_pos hown]
  have hroom : answerData config answerWithHash ≠ none
      ↔ 36 ≤ encryptedResponse.length
        ∨ 20 ≤ encryptedResponse.length ∧ ∃ answer, Trimmed config answerWithHash answer := by
    rw [ne_eq, answerData_none_iff, hlength, not_and_or, not_lt, Classical.not_imp]
    simp only [not_forall, not_not]
  rw [hhandle, handled_iff _ hrunning, ← hroom]
  refine and_congr_right fun hsome => ⟨fun hgood answer hfound => ?_, fun hgood answer hanswer => ?_⟩
  · exact hgood answer (answerData_of_found hsome hfound)
  · exact hgood answer (answerData_found hanswer)

/-- Without an exception in the parser the stage is the one of the runs. -/
theorem receivedServerDhParamsOk_eq (w : World) (draw : Draw)
    (nonce serverNonce encryptedResponse : Bytes)
    (h : ∀ answer, answerData config (decryptAnswer config encryptedResponse
      (w.service.newNonce.getD []) serverNonce) = some (some answer) → ¬ DhAnswer.Raises answer) :
    DhAnswer.receivedServerDhParamsOk config w draw nonce serverNonce encryptedResponse
      = receivedServerDhParamsOk config w draw nonce serverNonce encryptedResponse := by
  unfold DhAnswer.receivedServerDhParamsOk receivedServerDhParamsOk
  simp only []
  rcases hanswer : answerData config (decryptAnswer config encryptedResponse
    (w.service.newNonce.getD []) serverNonce) with _ | _ | answer
  · rfl
  · rfl
  · rcases DhAnswer.parseMessage_raises answer with ⟨hraises, -⟩ | ⟨-, hvalue⟩
    · exact absurd hraises (h answer hanswer)
    · simp only [hvalue]

section Sample

theorem sample_lengths : Lengths sampleConfig where
  hash := fun _ => rfl
  decrypt := fun _ _ _ hblock => hblock

/-- The exchange up to the answer. -/
def sampleOpening : List Event := sampleEvents.take 3

/-- Two blocks and some bytes that hold no answer are refused. -/
theorem dhAnswer_handled_sample :
    Handled sampleConfig
      ((Session.run sampleConfig {} sampleOpening).world.service.newNonce.getD [])
      (List.replicate 16 1) (List.replicate 36 7)
      (DhAnswer.receivedMessage sampleConfig (Session.run sampleConfig {} sampleOpening).world
        sampleDraw 2 (.serverDhParamsOk (List.replicate 16 0) (List.replicate 16 1)
          (List.replicate 36 7))) := by
  refine (dhAnswer_handled_iff sample_lengths sampleOpening (by decide +kernel) (by decide +kernel)
    (by decide +kernel) sampleDraw 2 (List.replicate 36 7)).mpr ⟨.inl (by decide), ?_⟩
  rintro answer ⟨⟨padding, -, -, hhash⟩, -⟩
  have hzero : List.replicate 20 0 = (decryptAnswer sampleConfig (List.replicate 36 7)
      ((Session.run sampleConfig {} sampleOpening).world.service.newNonce.getD [])
      (List.replicate 16 1)).take 20 := hhash
  exact absurd hzero (by decide +kernel)

/-- An answer of no bytes, with the right nonces, ends the program. -/
theorem emptyAnswer_raises :
    let w := (Session.run sampleConfig {} sampleOpening).world
    w.running = true ∧ w.service.stage = .reqDH
      ∧ ownNonces w (List.replicate 16 0) (List.replicate 16 1)
      ∧ (DhAnswer.receivedMessage sampleConfig w sampleDraw 2 (.serverDhParamsOk
          (List.replicate 16 0) (List.replicate 16 1) [])).1.running = false := by
  decide +kernel

end Sample

end Onegram.DatacenterAuth
