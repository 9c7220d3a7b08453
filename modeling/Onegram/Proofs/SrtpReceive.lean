import Mathlib.Data.Int.ModEq
import Onegram.Proofs.Srtp

/-!
# The receiver gives back what was sent

A packet of a stream stands at a position, its sequence number continued over the wraps
(`indexAt`). The sender's counter is the position divided by `2 ^ 16`; the receiver keeps the highest
position it has received, and its guess for a packet less than `2 ^ 15` away from it is right
(`guessedRoc_of_near`). With the counter right, the tag is the one the sender computed and the key
stream cancels.
-/

namespace Onegram

/-! ## One packet -/

section Packet

variable {aes : Bytes → Bytes → Bytes} {packet crypted key salt : Bytes} {headerLength : ℕ}
  {roc ssrc : UInt32} {sequence : UInt16}

theorem cryptPayload_header
    (h : srtpCryptPayload aes packet headerLength key salt roc sequence ssrc = some crypted) :
    crypted.length = packet.length ∧ crypted.take headerLength = packet.take headerLength := by
  unfold srtpCryptPayload at h
  split_ifs at h with hbad
  simp only [not_or, not_lt, not_not] at hbad
  simp only [Option.some.injEq] at h
  subst h
  have htake : (packet.take headerLength).length = headerLength := by simp [hbad.1]
  refine ⟨?_, ?_⟩
  · simp [length_counterStream, hbad.1]
  · rw [List.take_left' htake]

/-- The key stream cancels when it is applied again. -/
theorem cryptPayload_twice
    (h : srtpCryptPayload aes packet headerLength key salt roc sequence ssrc = some crypted) :
    srtpCryptPayload aes crypted headerLength key salt roc sequence ssrc = some packet := by
  have hheader := cryptPayload_header h
  unfold srtpCryptPayload at h ⊢
  split_ifs at h with hbad
  rw [hheader.1, if_neg hbad]
  simp only [not_or, not_lt, not_not] at hbad
  simp only [Option.some.injEq] at h ⊢
  have hdrop : crypted.drop headerLength = List.zipWith (· ^^^ ·) (packet.drop headerLength)
      (counterStream aes key (srtpIv salt roc sequence ssrc) (packet.drop headerLength).length) := by
    rw [← h, List.drop_left' (by simp [hbad.1])]
  have hlen : (crypted.drop headerLength).length = (packet.drop headerLength).length := by
    simp [hheader.1]
  rw [hheader.2, hlen, hdrop, Bytes.zipWith_xor_cancel (by rw [length_counterStream]),
    List.take_append_drop]

end Packet

theorem getD_of_take_eq {a b : Bytes} {n i : ℕ} (h : a.take n = b.take n) (hi : i < n) :
    a.getD i 0 = b.getD i 0 := by
  have := congrArg (·[i]?) h
  simp only [List.getElem?_take, hi, if_true] at this
  simp [List.getD_eq_getElem?_getD, this]

/-- The length of a header is found in the header. -/
theorem rtpHeaderLength_congr {a b : Bytes} (hlen : a.length = b.length)
    (htake : a.take (rtpHeaderLength b) = b.take (rtpHeaderLength b)) (hne : rtpHeaderLength b ≠ 0) :
    rtpHeaderLength a = rtpHeaderLength b := by
  have hget : ∀ i, i < rtpHeaderLength b → a.getD i 0 = b.getD i 0 := fun i hi =>
    getD_of_take_eq htake hi
  have h0 : a.getD 0 0 = b.getD 0 0 := hget 0 (Nat.pos_of_ne_zero hne)
  obtain ⟨n, hn⟩ : ∃ n, rtpHeaderLength b = n := ⟨_, rfl⟩
  rw [hn] at hne hget
  have hb := hn
  unfold rtpHeaderLength at hb
  rw [hn]
  unfold rtpHeaderLength
  rw [hlen, h0]
  simp only [] at hb ⊢
  split_ifs at hb with h₁ h₂ h₃ h₄ h₅
  · exact absurd hb.symm hne
  · exact absurd hb.symm hne
  · exact absurd hb.symm hne
  · exact absurd hb.symm hne
  · -- the two bytes that give the length of the extension are in the header
    have hhigh := hget (12 + (b.getD 0 0).toNat % 16 * 4 + 2) (by omega)
    have hlow := hget (12 + (b.getD 0 0).toNat % 16 * 4 + 3) (by omega)
    rw [if_neg h₁, if_neg h₂, if_pos h₃, if_neg h₄, hhigh, hlow, if_neg h₅]
    exact hb
  · rw [if_neg h₁, if_neg h₂, if_neg h₃]
    exact hb

/-! ## Keys -/

/-- The keys of one direction, from the role of its sender. -/
structure SrtpKeys where
  encryptionKey : Bytes
  authenticationKey : Bytes
  salt : Bytes

def directionKeys (aes : Bytes → Bytes → Bytes) (senderIsClient : Bool) (keyMaterial : Bytes) :
    SrtpKeys :=
  let masterKey := (keyMaterial.drop (if senderIsClient then 0 else 16)).take 16
  let masterSalt := (keyMaterial.drop (if senderIsClient then 32 else 46)).take 14
  ⟨srtpKdf aes masterKey masterSalt 0x00 16, srtpKdf aes masterKey masterSalt 0x01 20,
    srtpKdf aes masterKey masterSalt 0x02 14⟩

def SrtpSender.keys (s : SrtpSender) : SrtpKeys := ⟨s.encryptionKey, s.authenticationKey, s.salt⟩

def SrtpReceiver.keys (s : SrtpReceiver) : SrtpKeys :=
  ⟨s.encryptionKey, s.authenticationKey, s.salt⟩

theorem length_directionKeys (aes : Bytes → Bytes → Bytes) (c : Bool) (keyMaterial : Bytes) :
    (directionKeys aes c keyMaterial).encryptionKey.length = 16 ∧
      (directionKeys aes c keyMaterial).authenticationKey.length = 20 ∧
      (directionKeys aes c keyMaterial).salt.length = 14 := by
  simp [directionKeys, srtpKdf, length_counterStream]

section Stream

variable (aes : Bytes → Bytes → Bytes) (hmacSha1 : Bytes → Bytes → Vector UInt8 20)

/-- The protected packet of a direction under a counter. -/
def protectedPacket (keys : SrtpKeys) (roc : UInt32) (packet : Bytes) : Option Bytes :=
  (srtpCryptPayload aes packet (rtpHeaderLength packet) keys.encryptionKey keys.salt roc
    (read16 packet 2) (read32 packet 8)).bind fun crypted =>
      (srtpAuthenticationTag (fun k m => (hmacSha1 k m).toList) crypted keys.authenticationKey
        roc).map (crypted ++ ·)

/-- The counter at a position of a stream. -/
def rocAt (e : ℕ) : UInt32 := UInt32.ofNat (e / 65536)

/-- Packets of one stream with consecutive sequence numbers, from the position `e` on. -/
def InStream (ssrc : UInt32) : ℕ → List Bytes → Prop
  | _, [] => True
  | e, packet :: rest => rtpHeaderLength packet ≠ 0 ∧ read32 packet 8 = ssrc ∧
      read16 packet 2 = UInt16.ofNat e ∧ InStream ssrc (e + 1) rest

/-- Deliveries of packets that stand at positions `start + k` with `k < n`: the first has counter 0,
and each other one is less than `2 ^ 15` away from the highest position so far. -/
def Deliverable (start n : ℕ) : Option ℕ → List ℕ → Prop
  | _, [] => True
  | none, k :: rest => k < n ∧ start + k < 65536 ∧ Deliverable start n (some (start + k)) rest
  | some highest, k :: rest => k < n ∧ start + k < highest + 32768 ∧ highest < start + k + 32768 ∧
      Deliverable start n (some (max highest (start + k))) rest

variable {aes hmacSha1}

theorem protectedPacket_isSome (keyMaterial : Bytes) (c : Bool) (roc : UInt32) (packet : Bytes) :
    ∃ q, protectedPacket aes hmacSha1 (directionKeys aes c keyMaterial) roc packet = some q := by
  obtain ⟨hkey, hauth, hsalt⟩ := length_directionKeys aes c keyMaterial
  simp [protectedPacket, srtpCryptPayload, srtpAuthenticationTag, hkey, hauth, hsalt,
    not_lt.2 (rtpHeaderLength_le packet)]

/-! ## The sender over a stream -/

/-- A sender that has sent the packet at position `e` last. -/
structure SenderAt (aes : Bytes → Bytes → Bytes) (c : Bool) (keyMaterial : Bytes) (ssrc : UInt32)
    (e : ℕ) (s : SrtpSender) : Prop where
  ready : s.Ready
  keys : s.keys = directionKeys aes c keyMaterial
  initialized : s.initialized = true
  ssrc_eq : s.ssrc = ssrc
  roc : s.roc = rocAt e
  last : s.lastSequence = UInt16.ofNat e

theorem hasKeys_of_keys {s : SrtpSender} {keyMaterial : Bytes} {c : Bool}
    (h : s.keys = directionKeys aes c keyMaterial) : s.hasKeys = true := by
  obtain ⟨hkey, hauth, hsalt⟩ := length_directionKeys aes c keyMaterial
  rw [← h] at hkey hauth hsalt
  simpa [SrtpSender.hasKeys] using ⟨hkey, hauth, hsalt⟩

/-- What is sent once the keys are there. -/
theorem protectRtp_of_keys {s sp : SrtpSender} {packet : Bytes} {keyMaterial : Bytes} {c : Bool}
    (hprep : prepareSrtpKeys aes s = some sp) (hkeys : sp.keys = directionKeys aes c keyMaterial)
    (hheader : rtpHeaderLength packet ≠ 0) :
    protectRtp aes (fun k m => (hmacSha1 k m).toList) s packet =
      (updateRoc sp (read32 packet 8) (read16 packet 2),
        protectedPacket aes hmacSha1 (directionKeys aes c keyMaterial)
          (updateRoc sp (read32 packet 8) (read16 packet 2)).roc packet) := by
  have hlong : ¬ packet.length < 12 := fun h => hheader (by simp [rtpHeaderLength, h])
  obtain ⟨u, hu⟩ : ∃ u, updateRoc sp (read32 packet 8) (read16 packet 2) = u := ⟨_, rfl⟩
  have hukeys : u.keys = directionKeys aes c keyMaterial := by
    rw [← hkeys, ← hu]
    unfold updateRoc
    simp only []
    split_ifs <;> rfl
  rw [protectRtp, hprep]
  simp only []
  rw [if_neg (by simp [hheader, hlong]), hu, protectedPacket, ← hukeys]
  simp only [SrtpSender.keys]
  rcases srtpCryptPayload aes packet (rtpHeaderLength packet) u.encryptionKey u.salt u.roc
    (read16 packet 2) (read32 packet 8) with _ | crypted
  · rfl
  · simp only [Option.bind_some]
    rcases srtpAuthenticationTag (fun k m => (hmacSha1 k m).toList) crypted u.authenticationKey
      u.roc <;> rfl

theorem prepareSrtpKeys_start (aes : Bytes → Bytes → Bytes) (c : Bool) {keyMaterial : Bytes}
    (hlen : keyMaterial.length = 60) :
    ∃ sp, prepareSrtpKeys aes (SrtpSender.start true c keyMaterial) = some sp ∧ sp.Ready ∧
      sp.keys = directionKeys aes c keyMaterial ∧ sp.initialized = false := by
  rw [prepareSrtpKeys, if_neg (by simp [SrtpSender.start, hlen]),
    if_neg (by simp [SrtpSender.start, SrtpSender.hasKeys])]
  exact ⟨_, rfl, ⟨rfl, hlen⟩, rfl, rfl⟩

theorem SenderAt.next (hmacSha1 : Bytes → Bytes → Vector UInt8 20) {c : Bool}
    {keyMaterial packet : Bytes} {ssrc : UInt32} {e : ℕ} {s : SrtpSender}
    (h : SenderAt aes c keyMaterial ssrc e s)
    (hheader : rtpHeaderLength packet ≠ 0) (hssrc : read32 packet 8 = ssrc)
    (hseq : read16 packet 2 = UInt16.ofNat (e + 1)) :
    ∃ s', protectRtp aes (fun k m => (hmacSha1 k m).toList) s packet =
        (s', protectedPacket aes hmacSha1 (directionKeys aes c keyMaterial) (rocAt (e + 1)) packet) ∧
      SenderAt aes c keyMaterial ssrc (e + 1) s' := by
  have hprep : prepareSrtpKeys aes s = some s := by
    rw [prepareSrtpKeys, if_neg (by simp [h.ready.1, h.ready.2]), if_pos (hasKeys_of_keys h.keys)]
  have hnext : UInt16.ofNat (e + 1) = UInt16.ofNat e + 1 := by simp
  rw [protectRtp_of_keys hprep h.keys hheader, hssrc, hseq, ← h.ssrc_eq, hnext,
    updateRoc_next h.initialized h.roc h.last]
  exact ⟨_, rfl, ⟨h.ready, h.keys, h.initialized, rfl, rfl, rfl⟩⟩

/-- The protected packets of a stream, each under the counter of its position. -/
def sent (aes : Bytes → Bytes → Bytes) (hmacSha1 : Bytes → Bytes → Vector UInt8 20)
    (keys : SrtpKeys) : ℕ → List Bytes → List (Option Bytes)
  | _, [] => []
  | e, packet :: rest =>
    protectedPacket aes hmacSha1 keys (rocAt e) packet :: sent aes hmacSha1 keys (e + 1) rest

theorem protectAll_next {c : Bool} {keyMaterial : Bytes} {ssrc : UInt32} :
    ∀ {packets : List Bytes} {e : ℕ} {s : SrtpSender}, SenderAt aes c keyMaterial ssrc e s →
      InStream ssrc (e + 1) packets →
      protectAll aes (fun k m => (hmacSha1 k m).toList) s packets =
        sent aes hmacSha1 (directionKeys aes c keyMaterial) (e + 1) packets
  | [], _, _, _, _ => rfl
  | packet :: rest, e, s, h, ⟨hheader, hssrc, hseq, hrest⟩ => by
    obtain ⟨s', hprotect, h'⟩ := h.next hmacSha1 hheader hssrc hseq
    rw [protectAll, hprotect, sent, protectAll_next h' hrest]

/-- What a fresh sender makes of a stream. -/
theorem protectAll_start {c : Bool} {keyMaterial : Bytes} {ssrc : UInt32}
    (hlen : keyMaterial.length = 60) :
    ∀ {packets : List Bytes} {start : ℕ}, start < 65536 → InStream ssrc start packets →
      protectAll aes (fun k m => (hmacSha1 k m).toList) (SrtpSender.start true c keyMaterial)
          packets =
        sent aes hmacSha1 (directionKeys aes c keyMaterial) start packets
  | [], _, _, _ => rfl
  | packet :: rest, start, hstart, ⟨hheader, hssrc, hseq, hrest⟩ => by
    obtain ⟨sp, hprep, hready, hkeys, hinit⟩ := prepareSrtpKeys_start aes c hlen
    have hroc : rocAt start = 0 := by
      rw [rocAt, Nat.div_eq_of_lt hstart]
      rfl
    have h : SenderAt aes c keyMaterial ssrc start
        (updateRoc sp (read32 packet 8) (read16 packet 2)) := by
      rw [updateRoc_switch (.inl hinit)]
      exact ⟨hready, hkeys, rfl, hssrc, hroc.symm, hseq⟩
    rw [protectAll, protectRtp_of_keys hprep hkeys hheader, sent, h.roc]
    exact congrArg _ (protectAll_next h hrest)

/-! ## The receiver -/

/-- A receiver that has received the packet at position `e` as the highest. -/
structure ReceiverAt (aes : Bytes → Bytes → Bytes) (c : Bool) (keyMaterial : Bytes) (ssrc : UInt32)
    (e : ℕ) (s : SrtpReceiver) : Prop where
  ready : s.ready = true
  material : s.keyMaterial.length = 60
  keys : s.keys = directionKeys aes c keyMaterial
  initialized : s.initialized = true
  ssrc_eq : s.ssrc = ssrc
  roc : s.roc = rocAt e
  last : s.lastSequence = UInt16.ofNat e

theorem recvHasKeys_of_keys {s : SrtpReceiver} {keyMaterial : Bytes} {c : Bool}
    (h : s.keys = directionKeys aes c keyMaterial) : s.hasKeys = true := by
  obtain ⟨hkey, hauth, hsalt⟩ := length_directionKeys aes c keyMaterial
  rw [← h] at hkey hauth hsalt
  simpa [SrtpReceiver.hasKeys] using ⟨hkey, hauth, hsalt⟩

theorem rocAt_succ (n : ℕ) : UInt32.ofNat (n + 1) = UInt32.ofNat n + 1 := by simp

theorem uint32_add_one_ne (x : UInt32) : x + 1 ≠ x := by
  intro h
  have := congrArg UInt32.toNat h
  simp only [UInt32.toNat_add, UInt32.reduceToNat] at this
  have := x.toNat_lt
  omega

theorem uint32_sub_one_ne (x : UInt32) : x - 1 ≠ x + 1 := by
  intro h
  have := congrArg UInt32.toNat h
  simp only [UInt32.toNat_add, UInt32.toNat_sub, UInt32.reduceToNat] at this
  have := x.toNat_lt
  omega

/-- Near the highest position the guess is right, and accepting the packet keeps the highest. -/
theorem ReceiverAt.accept {c : Bool} {keyMaterial : Bytes} {ssrc : UInt32} {highest e : ℕ}
    {s : SrtpReceiver} (h : ReceiverAt aes c keyMaterial ssrc highest s)
    (hbelow : e < highest + 32768) (habove : highest < e + 32768) :
    guessedRoc s ssrc (UInt16.ofNat e) = rocAt e ∧
      ReceiverAt aes c keyMaterial ssrc (max highest e)
        (acceptSequence s ssrc (UInt16.ofNat e)) := by
  have hnew : s.newStream ssrc = false := by simp [SrtpReceiver.newStream, h.initialized, h.ssrc_eq]
  have hseq : (UInt16.ofNat e).toNat = e % 65536 := by simp
  have hlast : s.lastSequence.toNat = highest % 65536 := by simp [h.last]
  have hsucc : ∀ n, UInt32.ofNat (n + 1) - 1 = UInt32.ofNat n := fun n => by
    rw [rocAt_succ, UInt32.add_sub_cancel]
  have hguess : guessedRoc s ssrc (UInt16.ofNat e) = rocAt e := by
    unfold guessedRoc
    rw [hnew, hseq, hlast, h.roc]
    simp only [Bool.false_eq_true, if_false, rocAt]
    split_ifs with hlow hfar hfar
    · -- from before the last wrap
      rw [show highest / 65536 = e / 65536 + 1 by omega, hsucc]
    · rw [show highest / 65536 = e / 65536 by omega]
    · -- from after the next wrap
      rw [show e / 65536 = highest / 65536 + 1 by omega, rocAt_succ]
    · rw [show highest / 65536 = e / 65536 by omega]
  refine ⟨hguess, ?_⟩
  unfold acceptSequence
  simp only [hguess, hnew, Bool.false_eq_true, if_false]
  rcases Nat.lt_trichotomy (e / 65536) (highest / 65536) with hlt | heq | hgt
  · have hroc : rocAt highest = rocAt e + 1 := by
      rw [rocAt, show highest / 65536 = e / 65536 + 1 by omega, rocAt_succ, rocAt]
    rw [h.roc, hroc, if_neg, if_neg, max_eq_left (by omega)]
    · exact h
    · exact fun hr => uint32_add_one_ne _ hr.1.symm
    · intro hr
      refine uint32_sub_one_ne (rocAt e + 1) ?_
      rw [UInt32.add_sub_cancel]
      exact hr
  · have hroc : s.roc = rocAt e := by rw [h.roc, rocAt, ← heq, rocAt]
    rw [if_neg (by rw [hroc]; exact fun hr => uint32_add_one_ne _ hr.symm)]
    simp only [hroc, true_and, UInt16.lt_iff_toNat_lt, hseq, hlast]
    split_ifs with hgt
    · rw [max_eq_right (by omega)]
      exact ⟨h.ready, h.material, h.keys, h.initialized, h.ssrc_eq, rfl, rfl⟩
    · rw [max_eq_left (by omega)]
      exact h
  · have hroc : rocAt e = s.roc + 1 := by
      rw [h.roc, rocAt, show e / 65536 = highest / 65536 + 1 by omega, rocAt_succ, rocAt]
    rw [if_pos hroc, max_eq_right (by omega)]
    exact ⟨h.ready, h.material, h.keys, h.initialized, h.ssrc_eq, rfl, rfl⟩

/-- A receiver with the keys of the sender and the right guess gives back the packet. -/
theorem unprotectRtp_of_guess {s sp : SrtpReceiver} {keyMaterial packet q : Bytes} {c : Bool}
    {roc : UInt32} (hprep : prepareRecvSrtpKeys aes s = some sp)
    (hkeys : sp.keys = directionKeys aes c keyMaterial) (hheader : rtpHeaderLength packet ≠ 0)
    (hq : protectedPacket aes hmacSha1 (directionKeys aes c keyMaterial) roc packet = some q)
    (hguess : guessedRoc sp (read32 packet 8) (read16 packet 2) = roc) :
    unprotectRtp aes (fun k m => (hmacSha1 k m).toList) s q =
      (acceptSequence sp (read32 packet 8) (read16 packet 2), some packet) := by
  rw [protectedPacket] at hq
  obtain ⟨crypted, hcrypt, hq⟩ := Option.bind_eq_some_iff.1 hq
  obtain ⟨tag, htag, rfl⟩ := Option.map_eq_some_iff.1 hq
  obtain ⟨hlen, htake⟩ := cryptPayload_header hcrypt
  have hlong : 12 ≤ packet.length := by
    by_contra hshort
    exact hheader (by simp [rtpHeaderLength, not_le.1 hshort])
  have hlong' : 12 ≤ rtpHeaderLength packet := by
    have hne := hheader
    unfold rtpHeaderLength at hne ⊢
    simp only [] at hne ⊢
    split_ifs at hne ⊢ <;> omega
  have htagLength : tag.length = 10 := by
    unfold srtpAuthenticationTag at htag
    split_ifs at htag
    simp only [Option.some.injEq] at htag
    simp [← htag]
  have hsize : (crypted ++ tag).length - 10 = crypted.length := by
    rw [List.length_append, htagLength]
    omega
  have hget : ∀ i, i < 12 → (crypted ++ tag).getD i 0 = packet.getD i 0 := by
    intro i hi
    rw [List.getD_append _ _ _ _ (by omega)]
    exact getD_of_take_eq htake (by omega)
  have hseq : read16 (crypted ++ tag) 2 = read16 packet 2 := by
    simp only [read16, hget 2 (by omega), hget 3 (by omega)]
  have hssrc : read32 (crypted ++ tag) 8 = read32 packet 8 := by
    simp only [read32, hget 8 (by omega), hget 9 (by omega), hget 10 (by omega), hget 11 (by omega)]
  have hheader' : rtpHeaderLength crypted = rtpHeaderLength packet :=
    rtpHeaderLength_congr hlen htake hheader
  have hauth : srtpAuthenticationTag (fun k m => (hmacSha1 k m).toList) crypted
      sp.authenticationKey roc = some tag := by
    rw [← htag, ← hkeys]
    rfl
  have hplain : srtpCryptPayload aes crypted (rtpHeaderLength packet) sp.encryptionKey sp.salt roc
      (read16 packet 2) (read32 packet 8) = some packet := by
    rw [← hkeys] at hcrypt
    exact cryptPayload_twice hcrypt
  rw [unprotectRtp, hprep]
  simp only []
  rw [if_neg (by rw [List.length_append, htagLength]; omega), hsize, List.take_left,
    List.drop_left, hheader', if_neg hheader, hseq, hssrc, hguess, hauth]
  simp only [ne_eq, not_true_eq_false, if_false]
  rw [hplain]

/-! ## A stream and its deliveries -/

/-- A fresh receiver takes a packet with counter 0, whatever its sequence number. -/
theorem receiver_start (aes : Bytes → Bytes → Bytes) (c : Bool) {keyMaterial : Bytes}
    (hlen : keyMaterial.length = 60) (ssrc : UInt32) {e : ℕ} (he : e < 65536) :
    ∃ sp, prepareRecvSrtpKeys aes (SrtpReceiver.start true (!c) keyMaterial) = some sp ∧
      sp.keys = directionKeys aes c keyMaterial ∧
      guessedRoc sp ssrc (UInt16.ofNat e) = rocAt e ∧
      ReceiverAt aes c keyMaterial ssrc e (acceptSequence sp ssrc (UInt16.ofNat e)) := by
  have hroc : rocAt e = 0 := by
    rw [rocAt, Nat.div_eq_of_lt he]
    rfl
  rw [prepareRecvSrtpKeys, if_neg (by simp [SrtpReceiver.start, hlen]),
    if_neg (by simp [SrtpReceiver.start, SrtpReceiver.hasKeys])]
  refine ⟨_, rfl, ?_, hroc.symm, ?_⟩
  · cases c <;> rfl
  · refine ⟨rfl, hlen, ?_, rfl, rfl, hroc.symm, rfl⟩
    cases c <;> rfl

theorem ReceiverAt.prepare {c : Bool} {keyMaterial : Bytes} {ssrc : UInt32} {e : ℕ}
    {s : SrtpReceiver} (h : ReceiverAt aes c keyMaterial ssrc e s) :
    prepareRecvSrtpKeys aes s = some s := by
  rw [prepareRecvSrtpKeys, if_neg (by simp [h.ready, h.material]),
    if_pos (recvHasKeys_of_keys h.keys)]

/-- The packet at a position of the stream. -/
theorem InStream.getElem {ssrc : UInt32} : ∀ {packets : List Bytes} {start k : ℕ},
    InStream ssrc start packets → (hk : k < packets.length) →
      rtpHeaderLength packets[k] ≠ 0 ∧ read32 packets[k] 8 = ssrc ∧
        read16 packets[k] 2 = UInt16.ofNat (start + k)
  | packet :: rest, start, 0, ⟨hheader, hssrc, hseq, _⟩, _ => ⟨hheader, hssrc, hseq⟩
  | packet :: rest, start, k + 1, ⟨_, _, _, hrest⟩, hk => by
    have := hrest.getElem (k := k) (by simpa using hk)
    rwa [add_right_comm] at this

theorem sent_eq_map_some (keyMaterial : Bytes) (c : Bool) : ∀ (packets : List Bytes) (start : ℕ),
    ∃ qs : List Bytes, sent aes hmacSha1 (directionKeys aes c keyMaterial) start packets =
        qs.map some ∧ qs.length = packets.length ∧
      ∀ k, (hk : k < packets.length) → protectedPacket aes hmacSha1
        (directionKeys aes c keyMaterial) (rocAt (start + k)) packets[k] = some (qs.getD k [])
  | [], _ => ⟨[], rfl, rfl, fun k hk => absurd hk (by simp)⟩
  | packet :: rest, start => by
    obtain ⟨q, hq⟩ := @protectedPacket_isSome aes hmacSha1 keyMaterial c (rocAt start) packet
    obtain ⟨qs, hsent, hlen, hget⟩ := sent_eq_map_some keyMaterial c rest (start + 1)
    refine ⟨q :: qs, by simp [sent, hq, hsent], by simp [hlen], ?_⟩
    intro k hk
    cases k with
    | zero => simpa using hq
    | succ k =>
      have := hget k (by simpa using hk)
      rw [add_right_comm, add_assoc] at this
      simpa using this

/-- One delivery to a receiver that holds the keys and guesses the counter of the position. -/
theorem unprotectRtp_delivery {keyMaterial : Bytes} {c : Bool} {ssrc : UInt32} {start k : ℕ}
    {packets qs : List Bytes} {s sp : SrtpReceiver} (hstream : InStream ssrc start packets)
    (hqs : ∀ k, (hk : k < packets.length) → protectedPacket aes hmacSha1
      (directionKeys aes c keyMaterial) (rocAt (start + k)) packets[k] = some (qs.getD k []))
    (hk : k < packets.length) (hprep : prepareRecvSrtpKeys aes s = some sp)
    (hkeys : sp.keys = directionKeys aes c keyMaterial)
    (hguess : guessedRoc sp ssrc (UInt16.ofNat (start + k)) = rocAt (start + k)) :
    unprotectRtp aes (fun k m => (hmacSha1 k m).toList) s (qs.getD k []) =
      (acceptSequence sp ssrc (UInt16.ofNat (start + k)), packets[k]?) := by
  obtain ⟨hheader, hssrc, hseq⟩ := hstream.getElem hk
  rw [unprotectRtp_of_guess hprep hkeys hheader (hqs k hk) (by rw [hssrc, hseq, hguess]), hssrc,
    hseq, List.getElem?_eq_getElem hk]

theorem unprotectAll_next {keyMaterial : Bytes} {c : Bool} {ssrc : UInt32} {start : ℕ}
    {packets qs : List Bytes} (hstream : InStream ssrc start packets)
    (hqs : ∀ k, (hk : k < packets.length) → protectedPacket aes hmacSha1
      (directionKeys aes c keyMaterial) (rocAt (start + k)) packets[k] = some (qs.getD k [])) :
    ∀ {deliveries : List ℕ} {highest : ℕ} {s : SrtpReceiver},
      ReceiverAt aes c keyMaterial ssrc highest s →
      Deliverable start packets.length (some highest) deliveries →
      unprotectAll aes (fun k m => (hmacSha1 k m).toList) s (deliveries.map (qs.getD · [])) =
        deliveries.map (packets[·]?)
  | [], _, _, _, _ => rfl
  | k :: rest, highest, s, h, ⟨hk, hbelow, habove, hrest⟩ => by
    obtain ⟨hguess, h'⟩ := h.accept hbelow habove
    rw [List.map_cons, unprotectAll,
      unprotectRtp_delivery hstream hqs hk h.prepare h.keys hguess, List.map_cons]
    exact congrArg _ (unprotectAll_next hstream hqs h' hrest)

/-- Every delivered packet is accepted, and is what was sent. -/
theorem srtp_round_trip (aes : Bytes → Bytes → Bytes)
    (hmacSha1 : Bytes → Bytes → Vector UInt8 20) (senderIsClient : Bool) {keyMaterial : Bytes}
    (hlen : keyMaterial.length = 60) {ssrc : UInt32} {start : ℕ} {packets : List Bytes}
    (hstart : start < 65536) (hstream : InStream ssrc start packets) {deliveries : List ℕ}
    (hdeliver : Deliverable start packets.length none deliveries) :
    ∃ protectedPackets : List Bytes,
      protectAll aes (fun k m => (hmacSha1 k m).toList)
          (SrtpSender.start true senderIsClient keyMaterial) packets =
        protectedPackets.map some ∧
      unprotectAll aes (fun k m => (hmacSha1 k m).toList)
          (SrtpReceiver.start true (!senderIsClient) keyMaterial)
          (deliveries.map (protectedPackets.getD · [])) =
        deliveries.map (packets[·]?) := by
  obtain ⟨qs, hsent, -, hqs⟩ := @sent_eq_map_some aes hmacSha1 keyMaterial senderIsClient packets start
  refine ⟨qs, by rw [protectAll_start hlen hstart hstream, hsent], ?_⟩
  match deliveries, hdeliver with
  | [], _ => rfl
  | k :: rest, ⟨hk, hfirst, hrest⟩ =>
    obtain ⟨sp, hprep, hkeys, hguess, h'⟩ :=
      receiver_start aes senderIsClient hlen ssrc hfirst
    rw [List.map_cons, unprotectAll,
      unprotectRtp_delivery hstream hqs hk hprep hkeys hguess, List.map_cons]
    exact congrArg _ (unprotectAll_next hstream hqs h' hrest)

end Stream

theorem srtp_round_trip_reordered :
    ∃ protectedPackets : List Bytes,
      protectAll (fun _ block => block) (fun k m => (Vector.ofFn fun i : Fin 20 =>
          (k ++ m).getD i 0).toList)
          (SrtpSender.start true true (List.replicate 60 7))
          [rtpPacket 1 65534, rtpPacket 1 65535, rtpPacket 1 65536, rtpPacket 1 65537] =
        protectedPackets.map some ∧
      unprotectAll (fun _ block => block) (fun k m => (Vector.ofFn fun i : Fin 20 =>
          (k ++ m).getD i 0).toList)
          (SrtpReceiver.start true (!true) (List.replicate 60 7))
          ([0, 2, 1].map (protectedPackets.getD · [])) =
        [0, 2, 1].map
          ([rtpPacket 1 65534, rtpPacket 1 65535, rtpPacket 1 65536, rtpPacket 1 65537][·]?) :=
  srtp_round_trip (fun _ block => block)
    (fun k m => Vector.ofFn fun i : Fin 20 => (k ++ m).getD i 0) true (by simp)
    (by norm_num)
    (show InStream 1 65534 _ by
      simp [InStream, read32_rtpPacket_one, read16_rtpPacket, rtpHeaderLength_rtpPacket])
    (by simp [Deliverable])

end Onegram

/-!
## A refused packet changes nothing

Between the authentication of a packet and its decryption nothing can fail: the keys have their
lengths by then, and the header ends in the packet. So a packet that is refused is left as it was,
and so is the receiver, but for the keys it may have derived first: with these it starts over.

An accepted packet is at most half the sequence numbers away from the last one, in either direction.
-/

namespace Onegram

open Bytes

/-- What the receiver knows of the stream. -/
def SrtpReceiver.counters (s : SrtpReceiver) : UInt32 × UInt16 × UInt32 :=
  (s.roc, s.lastSequence, s.ssrc)

/-- The rollover counter and the last sequence number as one index of 48 bits. -/
def SrtpReceiver.index (s : SrtpReceiver) : ℤ := s.roc.toNat * 65536 + s.lastSequence.toNat

/-- The index a packet is accepted under. -/
def acceptedIndex (s : SrtpReceiver) (ssrc : UInt32) (sequence : UInt16) : ℤ :=
  (guessedRoc s ssrc sequence).toNat * 65536 + sequence.toNat

/-- The receiver follows the index of an accepted packet: another stream starts with it, and in the
stream it is gone to where it is ahead and forgotten where it is not. -/
structure Follows (s s' : SrtpReceiver) (ssrc : UInt32) (accepted : ℤ) : Prop where
  initialized : s'.initialized = true
  stream : s'.ssrc = ssrc
  started : s.newStream ssrc = true → s'.index = accepted
  moved : s.newStream ssrc = false →
    ∃ d : ℤ, |d| ≤ 2 ^ 15 ∧ accepted ≡ s.index + d [ZMOD 2 ^ 48]
      ∧ if 0 < d then s'.index = accepted else s' = s

theorem toNat_add_one (x : UInt32) : ((x + 1).toNat : ℤ) ≡ x.toNat + 1 [ZMOD 2 ^ 32] := by
  rw [UInt32.toNat_add]
  push_cast
  exact Int.mod_modEq _ _

theorem toNat_sub_one (x : UInt32) : ((x - 1).toNat : ℤ) ≡ x.toNat - 1 [ZMOD 2 ^ 32] := by
  have h := toNat_add_one (x - 1)
  rw [UInt32.sub_add_cancel] at h
  have h' := (h.symm).sub_right 1
  rwa [add_sub_cancel_right] at h'

/-- A counter and a sequence number that were split. -/
theorem index_modEq {a b : ℤ} (h : a ≡ b [ZMOD 2 ^ 32]) (c : ℤ) :
    a * 65536 + c ≡ b * 65536 + c [ZMOD 2 ^ 48] := by
  have hmul := h.mul_right' (c := 65536)
  exact hmul.add_right c

/-- The guess, and how far the packet is from the last one. -/
theorem guessedRoc_distance {s : SrtpReceiver} {ssrc : UInt32} (h : s.newStream ssrc = false)
    (sequence : UInt16) :
    (guessedRoc s ssrc sequence = s.roc - 1
        ∧ s.lastSequence.toNat + 32768 < sequence.toNat)
      ∨ (guessedRoc s ssrc sequence = s.roc + 1
        ∧ sequence.toNat + 32768 < s.lastSequence.toNat)
      ∨ guessedRoc s ssrc sequence = s.roc
        ∧ (sequence.toNat : ℤ) - s.lastSequence.toNat ≤ 32768
        ∧ (s.lastSequence.toNat : ℤ) - sequence.toNat ≤ 32768 := by
  have hsequence := sequence.toNat_lt
  have hlast := s.lastSequence.toNat_lt
  unfold guessedRoc
  rw [h, if_neg Bool.false_ne_true]
  split_ifs
  · exact .inl ⟨rfl, by omega⟩
  · exact .inr (.inr ⟨rfl, by omega, by omega⟩)
  · exact .inr (.inl ⟨rfl, by omega⟩)
  · exact .inr (.inr ⟨rfl, by omega, by omega⟩)

theorem moved_acceptSequence {s : SrtpReceiver} {ssrc : UInt32} (h : s.newStream ssrc = false)
    (sequence : UInt16) :
    ∃ d : ℤ, |d| ≤ 2 ^ 15 ∧ acceptedIndex s ssrc sequence ≡ s.index + d [ZMOD 2 ^ 48]
      ∧ if 0 < d then (acceptSequence s ssrc sequence).index = acceptedIndex s ssrc sequence
        else acceptSequence s ssrc sequence = s := by
  have hsequence := sequence.toNat_lt
  have hlast := s.lastSequence.toNat_lt
  unfold acceptSequence acceptedIndex SrtpReceiver.index
  simp only [h, Bool.false_eq_true, if_false]
  rcases guessedRoc_distance h sequence with ⟨hguess, hfar⟩ | ⟨hguess, hfar⟩ | ⟨hguess, hahead, hback⟩
  -- late, from before the counter went up
  · refine ⟨sequence.toNat - s.lastSequence.toNat - 65536, ?_, ?_, ?_⟩
    · rw [abs_le]
      omega
    · rw [hguess]
      refine (index_modEq (toNat_sub_one s.roc) _).trans ?_
      have hsum : ((s.roc.toNat : ℤ) - 1) * 65536 + sequence.toNat
          = s.roc.toNat * 65536 + s.lastSequence.toNat
            + (sequence.toNat - s.lastSequence.toNat - 65536) := by ring
      rw [hsum]
    · rw [if_neg (by omega), hguess, if_neg (uint32_sub_one_ne s.roc), if_neg]
      rintro ⟨heq, -⟩
      have hone := uint32_add_one_ne (s.roc - 1)
      rw [UInt32.sub_add_cancel] at hone
      exact hone heq.symm
  -- ahead, the counter goes up
  · refine ⟨sequence.toNat - s.lastSequence.toNat + 65536, ?_, ?_, ?_⟩
    · rw [abs_le]
      omega
    · rw [hguess]
      refine (index_modEq (toNat_add_one s.roc) _).trans ?_
      have hsum : ((s.roc.toNat : ℤ) + 1) * 65536 + sequence.toNat
          = s.roc.toNat * 65536 + s.lastSequence.toNat
            + (sequence.toNat - s.lastSequence.toNat + 65536) := by ring
      rw [hsum]
    · rw [if_pos (by omega), hguess, if_pos rfl]
  -- under the same counter
  · refine ⟨sequence.toNat - s.lastSequence.toNat, ?_, ?_, ?_⟩
    · rw [abs_le]
      omega
    · rw [hguess]
      have hsum : (s.roc.toNat : ℤ) * 65536 + sequence.toNat
          = s.roc.toNat * 65536 + s.lastSequence.toNat
            + (sequence.toNat - s.lastSequence.toNat) := by ring
      rw [hsum]
    · have hsame : ¬ s.roc = s.roc + 1 := fun heq => uint32_add_one_ne s.roc heq.symm
      rw [hguess, if_neg hsame]
      by_cases hlater : s.lastSequence < sequence
      · rw [if_pos (by have := UInt16.lt_iff_toNat_lt.mp hlater; omega), if_pos ⟨rfl, hlater⟩]
      · rw [if_neg (by have := mt UInt16.lt_iff_toNat_lt.mpr hlater; omega),
          if_neg fun hboth => hlater hboth.2]

theorem follows_acceptSequence (s : SrtpReceiver) (ssrc : UInt32) (sequence : UInt16) :
    Follows s (acceptSequence s ssrc sequence) ssrc (acceptedIndex s ssrc sequence) := by
  rcases hnew : s.newStream ssrc with _ | _
  · have hknown := hnew
    unfold SrtpReceiver.newStream at hknown
    simp only [Bool.not_eq_eq_eq_not, Bool.not_true, decide_eq_false_iff_not, not_or, ne_eq,
      not_not, Bool.not_eq_false] at hknown
    obtain ⟨hinit, hssrc⟩ := hknown
    refine ⟨?_, ?_, fun h => absurd (hnew.symm.trans h) Bool.false_ne_true,
      fun _ => moved_acceptSequence hnew sequence⟩
    · unfold acceptSequence
      simp only [hnew, Bool.false_eq_true, if_false]
      split_ifs <;> exact hinit
    · unfold acceptSequence
      simp only [hnew, Bool.false_eq_true, if_false]
      split_ifs <;> exact hssrc
  · unfold acceptSequence acceptedIndex
    simp only [hnew, if_true]
    exact ⟨rfl, rfl, fun _ => rfl, fun h => absurd (hnew.symm.trans h) Bool.false_ne_true.symm⟩

/-! ## The call -/

section Call

variable (aes : Bytes → Bytes → Bytes) (hmacSha1 : Bytes → Bytes → Bytes)

/-- The receiver as the packet finds it: with keys, if they can be had. -/
def prepared (s : SrtpReceiver) : SrtpReceiver := (prepareRecvSrtpKeys aes s).getD s

variable {aes}

theorem prepareRecv_cases {s sp : SrtpReceiver} (h : prepareRecvSrtpKeys aes s = some sp) :
    sp.hasKeys = true ∧ (sp = s ∨ s.hasKeys = false ∧ sp.counters = (0, 0, 0)) := by
  unfold prepareRecvSrtpKeys at h
  by_cases hkeys : s.hasKeys
  · rw [if_pos hkeys] at h
    split_ifs at h
    cases h
    exact ⟨hkeys, .inl rfl⟩
  · rw [if_neg hkeys] at h
    simp only [] at h
    split_ifs at h
    all_goals
      cases h
      exact ⟨by simp [SrtpReceiver.hasKeys, srtpKdf, length_counterStream],
        .inr ⟨by simpa using hkeys, rfl⟩⟩

theorem prepared_eq (s : SrtpReceiver) :
    prepared aes s = s ∨ s.hasKeys = false ∧ (prepared aes s).counters = (0, 0, 0) := by
  unfold prepared
  rcases hprep : prepareRecvSrtpKeys aes s with _ | sp
  · exact .inl rfl
  · exact (prepareRecv_cases hprep).2

variable (aes)

theorem unprotectRtpInPlace_spec (s : SrtpReceiver) (packet : Bytes) :
    unprotectRtpInPlace aes hmacSha1 s packet = ⟨prepared aes s, packet, false⟩
      ∨ ∃ plain, unprotectRtpInPlace aes hmacSha1 s packet
        = ⟨acceptSequence (prepared aes s) (read32 packet 8) (read16 packet 2), plain, true⟩ := by
  unfold unprotectRtpInPlace prepared
  rcases hprep : prepareRecvSrtpKeys aes s with _ | sp
  · exact .inl rfl
  have hkeys := (prepareRecv_cases hprep).1
  have hheader := rtpHeaderLength_le (packet.take (packet.length - 10))
  unfold SrtpReceiver.hasKeys at hkeys
  simp only [decide_eq_true_eq] at hkeys
  simp only [Option.getD_some]
  split_ifs
  · exact .inl rfl
  · exact .inl rfl
  · rcases srtpAuthenticationTag hmacSha1 (packet.take (packet.length - 10)) sp.authenticationKey
      (guessedRoc sp (read32 packet 8) (read16 packet 2)) with _ | expectedTag
    · exact .inl rfl
    · simp only []
      split_ifs
      · exact .inl rfl
      · unfold srtpCryptPayload
        rw [if_neg (by omega)]
        exact .inr ⟨_, rfl⟩

/-- A refused packet is as it was, and the receiver as the packet found it; an accepted one is
followed. What a packet finds is the receiver itself, or one that starts over with keys that are
derived for it. -/
theorem unprotectRtp_atomic (s : SrtpReceiver) (packet : Bytes) :
    let r := unprotectRtpInPlace aes hmacSha1 s packet
    (r.result = false → r.packet = packet ∧ r.receiver = prepared aes s)
      ∧ (r.result = true → Follows (prepared aes s) r.receiver (read32 packet 8)
        (acceptedIndex (prepared aes s) (read32 packet 8) (read16 packet 2)))
      ∧ (prepared aes s = s ∨ s.hasKeys = false ∧ (prepared aes s).counters = (0, 0, 0)) := by
  intro r
  rcases unprotectRtpInPlace_spec aes hmacSha1 s packet with hr | ⟨plain, hr⟩
  · have hfail : r = ⟨prepared aes s, packet, false⟩ := hr
    rw [hfail]
    exact ⟨fun _ => ⟨rfl, rfl⟩, fun h => absurd h Bool.false_ne_true, prepared_eq s⟩
  · have hok : r = ⟨acceptSequence (prepared aes s) (read32 packet 8) (read16 packet 2), plain,
        true⟩ := hr
    rw [hok]
    exact ⟨fun h => absurd h Bool.false_ne_true.symm,
      fun _ => follows_acceptSequence _ _ _, prepared_eq s⟩

/-- The packet where it is accepted. -/
def Unprotected.accepted (r : Unprotected) : Option Bytes :=
  if r.result then some r.packet else none

/-- The call in its place and the one that gives the packet back. -/
theorem unprotectRtpInPlace_eq (s : SrtpReceiver) (packet : Bytes) :
    unprotectRtp aes hmacSha1 s packet
      = ((unprotectRtpInPlace aes hmacSha1 s packet).receiver,
        (unprotectRtpInPlace aes hmacSha1 s packet).accepted) := by
  unfold unprotectRtp unprotectRtpInPlace
  rcases prepareRecvSrtpKeys aes s with _ | sp
  · rfl
  simp only []
  split_ifs
  · rfl
  · rfl
  · rcases srtpAuthenticationTag hmacSha1 (packet.take (packet.length - 10)) sp.authenticationKey
      (guessedRoc sp (read32 packet 8) (read16 packet 2)) with _ | expectedTag
    · rfl
    · simp only []
      split_ifs
      · rfl
      · rcases srtpCryptPayload aes (packet.take (packet.length - 10))
          (rtpHeaderLength (packet.take (packet.length - 10))) sp.encryptionKey sp.salt
          (guessedRoc sp (read32 packet 8) (read16 packet 2)) (read16 packet 2)
          (read32 packet 8) with _ | plain
        · rfl
        · rfl

end Call

/-- The counters are not initialised before the keys are: the first packet, of no bytes, is refused
and sets the rollover counter to 0. -/
theorem firstPacket_resets :
    let s : SrtpReceiver :=
      ⟨true, true, List.replicate 60 0, [], [], [], 5, 0, 0, false⟩
    let r := unprotectRtpInPlace (fun _ block => block) (fun _ _ => List.replicate 20 0) s []
    r.result = false ∧ s.roc = 5 ∧ r.receiver.roc = 0 := by
  decide +kernel

end Onegram
