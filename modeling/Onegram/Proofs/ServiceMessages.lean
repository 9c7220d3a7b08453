import Onegram.ServiceMessages
import Onegram.Proofs.TLSerialization

/-!
# Service messages are read back

Each case of the parser reads the fields its message has in the schema, in their order, with one
exception: `msg_resend_req` is read as if its vector were bare. The word `vectorSignature` is then
the count, and the one list this count is right for is the list that is nothing but this word.

Beside that, a byte string must have a length below the sign (`roundTrip_iff`) and a message of a
container at most 16 MB.
-/

namespace Onegram.TL

open Bytes Reader MTBufferReader MTInternalMessageParser Message

variable {α : Type}

/-! ## Fields -/

theorem reads_bytes {e : Bytes} {n : ℕ} (h : e.length = n) : Reads (readBytes n) e e :=
  reads_take_of h

theorem reads_word (v : Int32) : Reads readInt32 (int32 v) v := reads_int32 v

theorem reads_long (v : Int64) : Reads readInt64 (int64 v) v := reads_int64 v

theorem count_ofNat {n : ℕ} (h : n < 2 ^ 31) : (Int32.ofNat n).toInt.toNat = n := by
  rw [Int32.toInt_ofNat_of_lt h]
  rfl

theorem reads_counted {r : Reader UInt8 α} {item : α → Bytes} {items : List α}
    (hlen : items.length < 2 ^ 31) (h : ∀ v ∈ items, Reads r (item v) v) :
    Reads (readCounted r) (bareVector item items) items := by
  have hitems := reads_times items h
  rw [← count_ofNat hlen] at hitems
  exact (reads_word _).bind hitems

theorem reads_vector {r : Reader UInt8 α} {item : α → Bytes} {items : List α}
    (hlen : items.length < 2 ^ 31) (h : ∀ v ∈ items, Reads r (item v) v) :
    Reads (readVector r) (vector item items) items :=
  (reads_word vectorSignature).bind (reads_counted hlen h)

theorem reads_ids {ids : List Int64} (h : ids.length < 2 ^ 31) :
    Reads (readVector readInt64) (vector int64 ids) ids :=
  reads_vector h fun v _ => reads_long v

theorem reads_signature (signature : Int32) :
    Reads (readSignature signature) (int32 signature) () := by
  let check : Int32 → Reader UInt8 Unit := fun word => if word ≠ signature then fail else pure ()
  have h : Reads (check signature) [] () := by
    change Reads (if signature ≠ signature then fail else pure ()) [] ()
    rw [if_neg (not_not.mpr rfl)]
    exact Reads.pure ()
  exact (reads_word signature).bind_nil h

theorem reads_tl {bytes : Bytes} (h : bytes.length < 2 ^ 23) :
    Reads readTLBytes (tlBytes bytes) bytes :=
  reads_tlBytes h

theorem fails_tl {bytes : Bytes} (h : bytes.length < 2 ^ 24) (hlong : ¬ bytes.length < 2 ^ 23) :
    Fails readTLBytes (tlBytes bytes) :=
  fails_tlBytes h (not_lt.mp hlong)

theorem reads_nonces {nonce serverNonce hash : Bytes} (message : Bytes → Bytes → Bytes → Message)
    (h : nonce.length = 16 ∧ serverNonce.length = 16 ∧ hash.length = 16) :
    Reads (readNonces message) (nonce ++ (serverNonce ++ hash)) (message nonce serverNonce hash) :=
  (reads_bytes h.1).bind ((reads_bytes h.2.1).bind ((reads_bytes h.2.2).bind_pure _))

theorem gives_restOf {data : Bytes} (h : data.length < 2 ^ 31) :
    Gives (readRestOf (Int32.ofNat data.length)) data data := by
  refine ⟨data, ?_⟩
  unfold readRestOf
  rw [bind_apply]
  change (if data.length ≠ _ then fail else pure data : Reader UInt8 Bytes) data = _
  rw [Int32.toInt_ofNat_of_lt h, if_neg]
  · rfl
  · rw [not_not, Int.emod_eq_of_lt (by omega) (by omega), Int.toNat_natCast]

/-- The most a message of a container may have. -/
def maxMessageLength : ℕ := 16 * 1024 * 1024

theorem reads_messageData {data : Bytes} (h : data.length ≤ maxMessageLength) :
    Reads (readMessageData (Int32.ofNat data.length)) data data := by
  unfold maxMessageLength at h
  unfold readMessageData
  rw [Int32.toInt_ofNat_of_lt (by omega), if_neg (by omega)]
  exact reads_bytes rfl

theorem fails_messageData {data : Bytes} (hlen : data.length < 2 ^ 31)
    (h : maxMessageLength < data.length) (e : Bytes) :
    Fails (readMessageData (Int32.ofNat data.length)) e := by
  unfold maxMessageLength at h
  unfold readMessageData
  rw [Int32.toInt_ofNat_of_lt hlen, if_pos (by omega)]
  exact fails_fail e

theorem reads_containerMessage {m : MTMessage} (h : m.data.length ≤ maxMessageLength) :
    Reads readContainerMessage (bareMessage m) m :=
  (reads_long _).bind ((reads_word _).bind ((reads_word _).bind
    ((reads_messageData h).bind_pure _)))

theorem fails_containerMessage {m : MTMessage} (hlen : m.data.length < 2 ^ 31)
    (h : maxMessageLength < m.data.length) : Fails readContainerMessage (bareMessage m) :=
  (reads_long _).bind_fails ((reads_word _).bind_fails ((reads_word _).bind_fails
    ((fails_messageData hlen h m.data).bind_nil _)))

theorem reads_futureSalt (salt : MTFutureSalt) : Reads readFutureSalt (futureSalt salt) salt :=
  (reads_word _).bind ((reads_word _).bind ((reads_long _).bind_pure _))

/-- One message that is too long is enough. -/
theorem fails_container : ∀ messages : List MTMessage,
    (∀ m ∈ messages, m.data.length < 2 ^ 31) →
    (∃ m ∈ messages, maxMessageLength < m.data.length) →
    Fails (times readContainerMessage messages.length) (messages.flatMap bareMessage)
  | [], _, h => absurd h (by simp)
  | m :: ms, hlen, h => by
    by_cases hm : m.data.length ≤ maxMessageLength
    · have hms : ∃ m ∈ ms, maxMessageLength < m.data.length := by
        obtain ⟨w, hw, hlong⟩ := h
        rcases List.mem_cons.mp hw with rfl | hw
        · omega
        · exact ⟨w, hw, hlong⟩
      have htail := fails_container ms (fun w hw => hlen w (List.mem_cons_of_mem _ hw)) hms
      exact (reads_containerMessage hm).bind_fails (htail.bind_nil _)
    · exact (fails_containerMessage (hlen m List.mem_cons_self) (not_le.mp hm)).bind _ _

/-! ## Cases of the switch -/

theorem parse_gives {m : Message} {r : Reader UInt8 Message}
    (hr : cases.lookup m.signature = some r) (h : Gives r m.fields m) :
    parseMessage m.encode = some m := by
  have hsigned : Gives readSigned m.encode m := by
    refine (reads_word _).bind_gives ?_
    rw [UInt32.toUInt32_toInt32, hr]
    exact h
  obtain ⟨s, hs⟩ := hsigned
  unfold parseMessage
  rw [hs]
  rfl

theorem parse_fails {m : Message} {r : Reader UInt8 Message}
    (hr : cases.lookup m.signature = some r) (h : Fails r m.fields) :
    parseMessage m.encode = none := by
  have hsigned : Fails readSigned m.encode := by
    refine (reads_word _).bind_fails ?_
    rw [UInt32.toUInt32_toInt32, hr]
    exact h
  have hs := hsigned []
  rw [List.append_nil] at hs
  unfold parseMessage
  rw [hs]
  rfl

/-- The ids `msg_resend_req` is right for. -/
def vectorWords : List Int64 := List.replicate vectorSignature.toInt.toNat 0x1cb5c4151cb5c415

/-- The messages whose encoding is read back. -/
def Message.ReadBack : Message → Prop
  | .resPq _ _ pq _ => pq.length < 2 ^ 23
  | .serverDhParamsOk _ _ encryptedResponse => encryptedResponse.length < 2 ^ 23
  | .serverDhInnerData _ _ _ dhPrime gA _ => dhPrime.length < 2 ^ 23 ∧ gA.length < 2 ^ 23
  | .rpcError _ errorDescription => (utf8 (errorDescription.getD "")).length < 2 ^ 23
  | .msgsStateInfo _ info => info.length < 2 ^ 23
  | .msgAllInfo _ info => info.length < 2 ^ 23
  | .msgResendReq messageIds => messageIds = vectorWords
  | .msgContainer messages => ∀ m ∈ messages, m.data.length ≤ maxMessageLength
  | _ => True

/-! ## `msg_resend_req` -/

/-- A list that can be moved past `w` is made of it. -/
theorem periodic {w t : Bytes} : ∀ (k : ℕ) {f : Bytes}, f.length = k * w.length →
    w ++ f = f ++ t → f = (List.replicate k w).flatten
  | 0, f, hlen, _ => by
    have hnil : f = [] := List.length_eq_zero_iff.mp (by omega)
    rw [hnil]
    rfl
  | k + 1, f, hlen, h => by
    have hle : w.length ≤ f.length := by
      rw [hlen]
      exact Nat.le_mul_of_pos_left _ (Nat.succ_pos k)
    have hpre : w <+: f := List.prefix_of_prefix_length_le (List.prefix_append w f)
      (h ▸ List.prefix_append f t) hle
    obtain ⟨f', rfl⟩ := hpre
    have hlen' : f'.length = k * w.length := by
      rw [List.length_append, Nat.succ_mul] at hlen
      omega
    have h' : w ++ f' = f' ++ t := by
      rw [List.append_assoc] at h
      exact List.append_cancel_left h
    rw [List.replicate_succ, List.flatten_cons, ← periodic k hlen' h']

/-- The word twice is an id. -/
theorem flatMap_words (w : Bytes) {id : Int64} (h : int64 id = w ++ w) : ∀ k : ℕ,
    (List.replicate k id).flatMap int64 = (List.replicate (2 * k) w).flatten
  | 0 => rfl
  | k + 1 => by
    rw [List.replicate_succ, List.flatMap_cons, flatMap_words w h k, h, Nat.mul_succ,
      List.replicate_succ, List.replicate_succ, List.flatten_cons, List.flatten_cons,
      List.append_assoc]

theorem length_int64s : ∀ ids : List Int64, (ids.flatMap int64).length = 8 * ids.length
  | [] => rfl
  | id :: ids => by
    have hid : (int64 id).length = 8 := length_bytesLE 8 _
    rw [List.flatMap_cons, List.length_append, length_int64s ids, List.length_cons, hid]
    omega

theorem takes_int64 : Takes readInt64 int64 := by
  intro s v t h
  unfold readInt64 readBytes at h
  rw [bind_apply] at h
  obtain ⟨⟨bytes, s'⟩, hbytes, h⟩ := Option.bind_eq_some_iff.mp h
  obtain ⟨rfl, rfl⟩ := Prod.mk.inj (Option.some.inj h)
  unfold take at hbytes
  split_ifs at hbytes with hlen
  obtain ⟨rfl, rfl⟩ := Prod.mk.inj (Option.some.inj hbytes)
  have hbytes : (s.take 8).length = 8 := by
    rw [List.length_take, Nat.min_eq_left hlen]
  have hlt := littleEndian_lt (s.take 8)
  rw [hbytes] at hlt
  have hint : int64 (UInt64.ofNat (littleEndian (s.take 8))).toInt64 = s.take 8 := by
    change bytesLE 8 (UInt64.ofNat (littleEndian (s.take 8))).toNat = s.take 8
    rw [UInt64.toNat_ofNat', Nat.mod_eq_of_lt (by omega)]
    have hback := bytesLE_littleEndian (s.take 8)
    rwa [hbytes] at hback
  simp only [hint, List.take_append_drop]

theorem int64s_inj {ids ids' : List Int64} (hlen : ids.length = ids'.length)
    (h : ids.flatMap int64 = ids'.flatMap int64) : ids = ids' := by
  have hids := (reads_times ids fun v _ => reads_long v).gives
  have hids' := (reads_times ids' fun v _ => reads_long v).gives
  rw [hlen, h] at hids
  exact hids.unique hids'

/-- The word is read as the count, and the count as the first half of an id. -/
theorem counted_resend {ids : List Int64} {s : Bytes}
    (hread : readCounted readInt64 (vector int64 ids) = some (ids, s)) : ids = vectorWords := by
  unfold readCounted vector at hread
  rw [bind_apply, reads_word vectorSignature (bareVector int64 ids), Option.bind_some] at hread
  have hlen : ids.length = vectorSignature.toInt.toNat := length_times _ hread
  have hcount : Int32.ofNat ids.length = vectorSignature := by
    rw [hlen]
    rfl
  have htake := takes_int64.times _ _ _ _ hread
  have hword : (int32 (Int32.ofNat ids.length)).length = 4 := length_bytesLE 4 _
  have hperiod := periodic (2 * ids.length) (by
    rw [length_int64s, hword]
    omega) htake
  apply int64s_inj
  · rw [hlen, vectorWords, List.length_replicate]
  · rw [hperiod, vectorWords, flatMap_words (int32 vectorSignature) rfl, hcount, hlen]

/-- A word moved past a list of the same word. -/
theorem append_replicate (w : Bytes) (k : ℕ) :
    w ++ (List.replicate k w).flatten = (List.replicate k w).flatten ++ w := by
  rw [← List.flatten_cons, ← List.replicate_succ, List.replicate_succ', List.flatten_append,
    List.flatten_singleton]

theorem gives_resend :
    Gives readMsgResendReq (vector int64 vectorWords) (msgResendReq vectorWords) := by
  have hlen : vectorWords.length = vectorSignature.toInt.toNat := List.length_replicate
  have hcount : Int32.ofNat vectorWords.length = vectorSignature := by
    rw [hlen]
    rfl
  have hwords : vectorWords.flatMap int64 = _ :=
    flatMap_words (int32 vectorSignature) rfl vectorSignature.toInt.toNat
  have hitems := reads_times vectorWords (fun v _ => reads_long v) (int32 vectorSignature)
  rw [hlen, hwords, ← append_replicate, ← hwords] at hitems
  refine ⟨int32 vectorSignature, ?_⟩
  unfold readMsgResendReq readCounted vector bareVector
  rw [hcount, bind_apply, bind_apply, reads_word, Option.bind_some, hitems]
  rfl

theorem resend_iff (ids : List Int64) :
    parseMessage (msgResendReq ids).encode = some (msgResendReq ids) ↔ ids = vectorWords := by
  constructor
  · intro hparse
    unfold parseMessage readSigned at hparse
    rw [encode, bind_apply, reads_word _ (fields _), Option.bind_some] at hparse
    obtain ⟨⟨m, s⟩, hm, hmsg⟩ := Option.map_eq_some_iff.mp hparse
    obtain rfl : m = msgResendReq ids := hmsg
    change readMsgResendReq (vector int64 ids) = _ at hm
    unfold readMsgResendReq at hm
    rw [bind_apply] at hm
    obtain ⟨⟨ids', s'⟩, hread, heq⟩ := Option.bind_eq_some_iff.mp hm
    obtain ⟨hids, -⟩ := Prod.mk.inj (Option.some.inj heq)
    obtain rfl : ids' = ids := Message.msgResendReq.inj hids
    exact counted_resend hread
  · rintro rfl
    exact parse_gives (r := readMsgResendReq) rfl gives_resend

/-! ## All messages -/

theorem parse_iff {m : Message} {r : Reader UInt8 Message} {P : Prop}
    (hr : cases.lookup m.signature = some r) (hgives : P → Gives r m.fields m)
    (hfails : ¬ P → Fails r m.fields) : parseMessage m.encode = some m ↔ P := by
  constructor
  · intro h
    by_contra hP
    rw [parse_fails hr (hfails hP)] at h
    exact Option.some_ne_none _ h.symm
  · intro hP
    exact parse_gives hr (hgives hP)

theorem parse_true {m : Message} {r : Reader UInt8 Message}
    (hr : cases.lookup m.signature = some r) (h : Gives r m.fields m) :
    parseMessage m.encode = some m ↔ True :=
  parse_iff hr (fun _ => h) fun hfalse => absurd trivial hfalse

theorem parse_resPq {nonce serverNonce pq : Bytes} {fingerprints : List Int64}
    (h : (resPq nonce serverNonce pq fingerprints).Encodable) :
    parseMessage (resPq nonce serverNonce pq fingerprints).encode
      = some (resPq nonce serverNonce pq fingerprints) ↔ pq.length < 2 ^ 23 := by
  obtain ⟨hnonce, hserver, hpq, hids⟩ := h
  refine parse_iff (r := readResPq) rfl (fun hshort => ?_) fun hlong => ?_
  · exact ((reads_bytes hnonce).bind ((reads_bytes hserver).bind
      ((reads_tl hshort).bind ((reads_ids hids).bind_pure _)))).gives
  · exact (reads_bytes hnonce).bind_fails ((reads_bytes hserver).bind_fails
      ((fails_tl hpq hlong).bind _ _))

theorem parse_serverDhParamsOk {nonce serverNonce encryptedResponse : Bytes}
    (h : (serverDhParamsOk nonce serverNonce encryptedResponse).Encodable) :
    parseMessage (serverDhParamsOk nonce serverNonce encryptedResponse).encode
      = some (serverDhParamsOk nonce serverNonce encryptedResponse)
        ↔ encryptedResponse.length < 2 ^ 23 := by
  obtain ⟨hnonce, hserver, hresponse⟩ := h
  refine parse_iff (r := readServerDhParamsOk) rfl (fun hshort => ?_) fun hlong => ?_
  · exact ((reads_bytes hnonce).bind ((reads_bytes hserver).bind
      ((reads_tl hshort).bind_pure _))).gives
  · exact (reads_bytes hnonce).bind_fails ((reads_bytes hserver).bind_fails
      ((fails_tl hresponse hlong).bind_nil _))

theorem parse_serverDhInnerData {nonce serverNonce dhPrime gA : Bytes} {g serverTime : Int32}
    (h : (serverDhInnerData nonce serverNonce g dhPrime gA serverTime).Encodable) :
    parseMessage (serverDhInnerData nonce serverNonce g dhPrime gA serverTime).encode
      = some (serverDhInnerData nonce serverNonce g dhPrime gA serverTime)
        ↔ dhPrime.length < 2 ^ 23 ∧ gA.length < 2 ^ 23 := by
  obtain ⟨hnonce, hserver, hprime, hgA⟩ := h
  refine parse_iff (r := readServerDhInnerData) rfl (fun hshort => ?_) fun hlong => ?_
  · exact ((reads_bytes hnonce).bind ((reads_bytes hserver).bind ((reads_word g).bind
      ((reads_tl hshort.1).bind ((reads_tl hshort.2).bind
        ((reads_word serverTime).bind_pure _)))))).gives
  · refine (reads_bytes hnonce).bind_fails ((reads_bytes hserver).bind_fails
      ((reads_word g).bind_fails ?_))
    by_cases hp : dhPrime.length < 2 ^ 23
    · exact (reads_tl hp).bind_fails ((fails_tl hgA fun hg => hlong ⟨hp, hg⟩).bind _ _)
    · exact (fails_tl hprime hp).bind _ _

theorem parse_rpcError {errorCode : Int32} {errorDescription : Option String}
    (h : (rpcError errorCode errorDescription).Encodable) :
    parseMessage (rpcError errorCode errorDescription).encode
      = some (rpcError errorCode errorDescription)
        ↔ (utf8 (errorDescription.getD "")).length < 2 ^ 23 := by
  obtain ⟨string, rfl, hlen⟩ := h
  refine parse_iff (r := readRpcError) rfl (fun hshort => ?_) fun hlong => ?_
  · have hstring := (reads_tl hshort).bind_pure ofUtf8
    rw [Option.getD_some, ofUtf8_utf8] at hstring
    exact ((reads_word errorCode).bind (hstring.bind_pure _)).gives
  · exact (reads_word errorCode).bind_fails (((fails_tl hlen hlong).bind_nil _).bind_nil _)

theorem parse_msgsStateInfo {requestMessageId : Int64} {info : Bytes}
    (h : (msgsStateInfo requestMessageId info).Encodable) :
    parseMessage (msgsStateInfo requestMessageId info).encode
      = some (msgsStateInfo requestMessageId info) ↔ info.length < 2 ^ 23 := by
  refine parse_iff (r := readMsgsStateInfo) rfl (fun hshort => ?_) fun hlong => ?_
  · exact ((reads_long requestMessageId).bind ((reads_tl hshort).bind_pure _)).gives
  · exact (reads_long requestMessageId).bind_fails ((fails_tl h hlong).bind_nil _)

theorem parse_msgAllInfo {messageIds : List Int64} {info : Bytes}
    (h : (msgAllInfo messageIds info).Encodable) :
    parseMessage (msgAllInfo messageIds info).encode
      = some (msgAllInfo messageIds info) ↔ info.length < 2 ^ 23 := by
  refine parse_iff (r := readMsgAllInfo) rfl (fun hshort => ?_) fun hlong => ?_
  · exact ((reads_ids h.1).bind ((reads_tl hshort).bind_pure _)).gives
  · exact (reads_ids h.1).bind_fails ((fails_tl h.2 hlong).bind_nil _)

theorem parse_msgContainer {messages : List MTMessage} (h : (msgContainer messages).Encodable) :
    parseMessage (msgContainer messages).encode = some (msgContainer messages)
      ↔ ∀ m ∈ messages, m.data.length ≤ maxMessageLength := by
  refine parse_iff (r := readMsgContainer) rfl (fun hshort => ?_) fun hlong => ?_
  · have hall := reads_counted h.1 fun m hm => reads_containerMessage (hshort m hm)
    exact (hall.bind_pure _).gives
  · push Not at hlong
    have hall := fails_container messages h.2 hlong
    rw [← count_ofNat h.1] at hall
    exact ((reads_word _).bind_fails hall).bind_nil _

/-- Which messages the parser gives back as they were encoded. -/
theorem parse_encode_iff {m : Message} (h : m.Encodable) :
    parseMessage m.encode = some m ↔ m.ReadBack := by
  cases m with
  | resPq => exact parse_resPq h
  | serverDhParamsFail =>
    exact parse_true (r := readServerDhParamsFail) rfl (reads_nonces _ h).gives
  | serverDhParamsOk => exact parse_serverDhParamsOk h
  | serverDhInnerData => exact parse_serverDhInnerData h
  | setClientDhParamsResponseOk =>
    exact parse_true (r := readSetClientDhParamsResponseOk) rfl (reads_nonces _ h).gives
  | setClientDhParamsResponseRetry =>
    exact parse_true (r := readSetClientDhParamsResponseRetry) rfl (reads_nonces _ h).gives
  | setClientDhParamsResponseFail =>
    exact parse_true (r := readSetClientDhParamsResponseFail) rfl (reads_nonces _ h).gives
  | rpcResult requestMessageId data =>
    exact parse_true (r := readRpcResult) rfl
      ((reads_long _).bind_gives ((gives_rest data).bind_pure _))
  | rpcError => exact parse_rpcError h
  | dropRpcResultUnknown => exact parse_true rfl (Reads.pure _).gives
  | dropRpcResultDroppedRunning => exact parse_true rfl (Reads.pure _).gives
  | dropRpcResultDropped =>
    exact parse_true (r := readDropRpcResultDropped) rfl
      ((reads_long _).bind ((reads_word _).bind ((reads_word _).bind_pure _))).gives
  | msgsStateReq =>
    exact parse_true (r := readMsgsStateReq) rfl ((reads_ids h).bind_pure _).gives
  | msgsStateInfo => exact parse_msgsStateInfo h
  | msgDetailedResponseInfo =>
    exact parse_true (r := readMsgDetailedResponseInfo) rfl ((reads_long _).bind
      ((reads_long _).bind ((reads_word _).bind ((reads_word _).bind_pure _)))).gives
  | msgDetailedInfo =>
    exact parse_true (r := readMsgDetailedInfo) rfl
      ((reads_long _).bind ((reads_word _).bind ((reads_word _).bind_pure _))).gives
  | msgAllInfo => exact parse_msgAllInfo h
  | message m =>
    exact parse_true (r := readMessage) rfl ((reads_signature _).bind_gives ((reads_long _).bind_gives
      ((reads_word _).bind_gives ((reads_word _).bind_gives ((gives_restOf h).bind_pure _)))))
  | msgResendReq ids => exact resend_iff ids
  | badMsgNotification =>
    exact parse_true (r := readBadMsgNotification) rfl
      ((reads_long _).bind ((reads_word _).bind ((reads_word _).bind_pure _))).gives
  | badServerSaltNotification =>
    exact parse_true (r := readBadServerSaltNotification) rfl ((reads_long _).bind
      ((reads_word _).bind ((reads_word _).bind ((reads_long _).bind_pure _)))).gives
  | msgsAck =>
    exact parse_true (r := readMsgsAck) rfl ((reads_signature _).bind
      ((reads_counted h fun v _ => reads_long v).bind_pure _)).gives
  | ping => exact parse_true (r := readPing) rfl ((reads_long _).bind_pure _).gives
  | pong =>
    exact parse_true (r := readPong) rfl ((reads_long _).bind ((reads_long _).bind_pure _)).gives
  | newSessionCreated =>
    exact parse_true (r := readNewSessionCreated) rfl
      ((reads_long _).bind ((reads_long _).bind ((reads_long _).bind_pure _))).gives
  | destroySessionResponseOk =>
    exact parse_true (r := readDestroySessionResponseOk) rfl ((reads_long _).bind_pure _).gives
  | destroySessionResponseNone =>
    exact parse_true (r := readDestroySessionResponseNone) rfl ((reads_long _).bind_pure _).gives
  | destroySessionMultipleResponse responses =>
    exact parse_true (r := readDestroySessionMultipleResponse) rfl ((gives_rest responses).bind_pure _)
  | msgContainer => exact parse_msgContainer h
  | futureSalts =>
    exact parse_true (r := readFutureSalts) rfl ((reads_long _).bind ((reads_word _).bind
      ((reads_counted h fun v _ => reads_futureSalt v).bind_pure _))).gives

theorem foldl_ids : ∀ (ids : List Int64) (data : Bytes),
    ids.foldl MTBuffer.appendInt64 data = data ++ ids.flatMap int64
  | [], data => by simp
  | id :: ids, data => by
    have hid : MTBuffer.appendInt64 data id = data ++ int64 id := rfl
    rw [List.foldl_cons, foldl_ids ids, hid, List.flatMap_cons, List.append_assoc]

theorem appendInt32_eq (data : Bytes) (v : Int32) : MTBuffer.appendInt32 data v = data ++ int32 v :=
  rfl

theorem msgsAckBuffer_eq (ids : List Int64) : msgsAckBuffer ids = (msgsAck ids).encode := by
  have hsignature : (481674261 : Int32) = vectorSignature := rfl
  unfold msgsAckBuffer encode fields vector bareVector signature
  rw [foldl_ids, hsignature]
  simp only [appendInt32_eq, List.nil_append, List.append_assoc]

theorem resendRequestBuffer_eq (id : Int64) :
    resendRequestBuffer id = (msgResendReq [id]).encode := by
  have hencode : (msgResendReq [id]).encode = int32 (0x7d861a08 : UInt32).toInt32
      ++ (int32 vectorSignature ++ (int32 1 ++ ([id].flatMap int64))) := rfl
  have hsignature : (481674261 : Int32) = vectorSignature := rfl
  have hid : ∀ data, MTBuffer.appendInt64 data id = data ++ int64 id := fun _ => rfl
  unfold resendRequestBuffer
  rw [hencode, hid, hsignature, List.flatMap_singleton]
  simp only [appendInt32_eq, List.nil_append, List.append_assoc]

/-- The client writes what the schema says. -/
theorem Encodes.eq {m : Message} {e : Bytes} (h : Encodes m e) : e = m.encode := by
  cases h with
  | schema => rfl
  | msgsAck ids => exact msgsAckBuffer_eq ids
  | resend id => exact resendRequestBuffer_eq id

/-- A message is read back from each of its encodings under this condition, and no other. -/
theorem faithful_iff (m : Message) (h : m.Encodable) :
    (∀ e, Encodes m e → parseMessage e = some m) ↔ m.ReadBack := by
  rw [← parse_encode_iff h]
  constructor
  · intro hall
    exact hall _ (.schema m)
  · intro hm e he
    rw [he.eq, hm]

/-- An empty container. -/
theorem faithful_iff_container :
    (msgContainer []).Encodable
      ∧ ((∀ e, Encodes (msgContainer []) e → parseMessage e = some (msgContainer []))
        ↔ (msgContainer []).ReadBack) :=
  have h : (msgContainer []).Encodable := ⟨by simp, by simp⟩
  ⟨h, faithful_iff _ h⟩

/-- A request of this client to resend one message is not read back. -/
theorem resend_misread :
    (msgResendReq [5]).Encodable ∧ Encodes (msgResendReq [5]) (resendRequestBuffer 5)
      ∧ parseMessage (resendRequestBuffer 5) ≠ some (msgResendReq [5]) := by
  have hencodable : (msgResendReq [5]).Encodable := by simp [Message.Encodable]
  refine ⟨hencodable, .resend 5, fun h => ?_⟩
  rw [resendRequestBuffer_eq, resend_iff] at h
  have hlen := congrArg List.length h
  rw [vectorWords, List.length_replicate] at hlen
  exact absurd hlen (by decide)

end Onegram.TL
