import Onegram.Proofs.StunCodec

/-!
# What is put at the end of a message, and how it is checked

The length in the header is set three times while a message is sealed: to the end of the integrity
for the HMAC, to the end of the fingerprint for the CRC, and to that again. It has two bytes, and
the builder does not check that it fits; the verifier does.
-/

namespace Onegram.Stun

open Bytes

/-- A message that is sealed as it should be. -/
structure WellSealed (hmacSha1 : Bytes → Bytes → Vector UInt8 20) (m password : Bytes) : Prop where
  verifies : verifyShortTermIntegrity hmacSha1 m password = true
  /-- The header covers the attributes to the end of the message. -/
  covers : 20 + read16 m 2 = m.length
  /-- The integrity is that of what stands before it, under a length that ends with it. -/
  integrity : (m.drop (m.length - 32)).take 24
    = bytesBE 2 attrMessageIntegrity ++ bytesBE 2 20 ++ (hmacSha1 password
      (setStunLength (m.take (m.length - 32)) (m.length - 8 - 20))).toList
  fingerprint : m.drop (m.length - 8)
    = bytesBE 2 attrFingerprint ++ bytesBE 2 4
      ++ bytesBE 4 (crc32 (m.take (m.length - 8)) ^^^ 0x5354554e).toNat

section Sealing

variable {hmacSha1 : Bytes → Bytes → Vector UInt8 20} {type : ℕ} {txid : Vector UInt8 12}
  {password : Bytes} {attributes : List (ℕ × Bytes)}

theorem setStunLength_again {h : Bytes} (hh : 4 ≤ h.length) (k n : ℕ) :
    setStunLength (setStunLength h k) n = setStunLength h n := by
  have happend := setStunLength_append (q := []) hh k n
  simpa only [List.append_nil] using happend

theorem encodeAttributes_append (l r : List (ℕ × Bytes)) :
    encodeAttributes (l ++ r) = encodeAttributes l ++ encodeAttributes r := List.flatMap_append

theorem encodeAttributes_singleton (a : ℕ × Bytes) : encodeAttributes [a] = encodeAttribute a := by
  simp [encodeAttributes]

/-- The message that the fingerprint is over. -/
def fingerprinted (hmacSha1 : Bytes → Bytes → Vector UInt8 20) (type : ℕ) (txid : Vector UInt8 12)
    (password : Bytes) (attributes : List (ℕ × Bytes)) : Bytes :=
  let signed := encodeAttributes (signedAttributes hmacSha1 type txid password attributes)
  setStunLength (makeStunHeader type txid) (signed.length + 8) ++ signed

def fingerprintAttribute (m : Bytes) : ℕ × Bytes :=
  (attrFingerprint, bytesBE 4 (crc32 m ^^^ 0x5354554e).toNat)

theorem length_signed : (encodeAttributes (signedAttributes hmacSha1 type txid password
    attributes)).length = (encodeAttributes attributes).length + 24 := by
  rw [signedAttributes, encodeAttributes_append, encodeAttributes_singleton, List.length_append,
    length_encodeAttribute]
  simp [align4]

/-- Sealing appends the two attributes. -/
theorem sealMessage_eq :
    sealMessage hmacSha1 (makeStunHeader type txid ++ encodeAttributes attributes) password
      = stunMessage type txid (signedAttributes hmacSha1 type txid password attributes
        ++ [fingerprintAttribute (fingerprinted hmacSha1 type txid password attributes)]) := by
  obtain ⟨h, hh⟩ : ∃ h, makeStunHeader type txid = h := ⟨_, rfl⟩
  obtain ⟨e, he⟩ : ∃ e, encodeAttributes attributes = e := ⟨_, rfl⟩
  obtain ⟨s, hs⟩ : ∃ s, encodeAttributes (signedAttributes hmacSha1 type txid password attributes)
    = s := ⟨_, rfl⟩
  have hlen : h.length = 20 := hh ▸ length_makeStunHeader type txid
  have hmod : e.length % 4 = 0 := he ▸ length_encodeAttributes_mod attributes
  have hslen : s.length = e.length + 24 := by rw [← hs, ← he, length_signed]
  -- The length through the integrity, and the integrity.
  have hcovered : setStunLength (h ++ e) ((h ++ e).length - 20 + 4 + 20)
      = setStunLength h (e.length + 24) ++ e := by
    rw [setStunLength_header _ (by omega), List.length_append, hlen, Nat.add_sub_cancel_left]
  have hsigned : appendAttribute (setStunLength h (e.length + 24) ++ e) attrMessageIntegrity
      (hmacSha1 password (setStunLength h (e.length + 24) ++ e)).toList
        = setStunLength h (e.length + 24) ++ s := by
    have hboundary : (setStunLength h (e.length + 24) ++ e).length % 4 = 0 := by
      rw [List.length_append, length_setStunLength]
      omega
    rw [appendAttribute_eq hboundary, ← hs, signedAttributes, encodeAttributes_append,
      encodeAttributes_singleton, hh, he, List.append_assoc]
  -- The length through the fingerprint, and the fingerprint.
  have hprinted : setStunLength (setStunLength h (e.length + 24) ++ s)
      ((setStunLength h (e.length + 24) ++ s).length - 20 + 8) = setStunLength h (s.length + 8) ++ s := by
    rw [setStunLength_append (by omega), List.length_append, length_setStunLength, hlen,
      Nat.add_sub_cancel_left]
  have hboundary : (setStunLength h (s.length + 8) ++ s).length % 4 = 0 := by
    rw [List.length_append, length_setStunLength]
    omega
  unfold sealMessage
  dsimp only
  rw [hh, he, hcovered, hsigned, hprinted, appendAttribute_eq hboundary]
  have hmessage : fingerprinted hmacSha1 type txid password attributes
      = setStunLength h (s.length + 8) ++ s := by
    rw [fingerprinted, hs, hh]
  rw [stunMessage, encodeAttributes_append, encodeAttributes_singleton, hmessage, hs, hh,
    fingerprintAttribute, List.append_assoc, setStunLength_append (by omega)]
  congr 2
  simp only [List.length_append, length_setStunLength]
  omega

theorem read16_lt (m : Bytes) (i : ℕ) : read16 m i < 65536 := by
  have hhigh := (m.getD i 0).toNat_lt
  have hlow := (m.getD (i + 1) 0).toNat_lt
  unfold read16
  omega

theorem encodeAttribute_full {t : ℕ} {v : Bytes} (h : (4 + v.length) % 4 = 0) :
    encodeAttribute (t, v) = bytesBE 2 t ++ bytesBE 2 v.length ++ v := by
  rw [encodeAttribute, align4_of_dvd h, Nat.sub_self, List.replicate_zero, List.append_nil,
    List.append_assoc]

/-- A sealed message is sealed well just when its length can be declared. -/
theorem wellSealed_iff (htypes : ∀ a ∈ attributes, a.1 < 65536)
    (hne : ∀ a ∈ attributes, a.1 ≠ attrMessageIntegrity) :
    WellSealed hmacSha1 (sealMessage hmacSha1 (makeStunHeader type txid
        ++ encodeAttributes attributes) password) password
      ↔ (encodeAttributes attributes).length + 32 ≤ 65535 := by
  rw [sealMessage_eq]
  obtain ⟨f, hf⟩ : ∃ f, fingerprintAttribute (fingerprinted hmacSha1 type txid password attributes)
    = f := ⟨_, rfl⟩
  have hflen : (encodeAttributes [f]).length = 8 := by
    rw [encodeAttributes_singleton, length_encodeAttribute, ← hf, fingerprintAttribute]
    simp [align4]
  have hbody : (encodeAttributes (signedAttributes hmacSha1 type txid password attributes
      ++ [f])).length = (encodeAttributes attributes).length + 32 := by
    rw [encodeAttributes_append, List.length_append, length_signed, hflen]
  have hlen : (stunMessage type txid (signedAttributes hmacSha1 type txid password attributes
      ++ [f])).length = 20 + ((encodeAttributes attributes).length + 32) := by
    rw [stunMessage, List.length_append, length_setStunLength, length_makeStunHeader, hbody]
  rw [hf]
  constructor
  · intro hsealed
    have hcovers := hsealed.covers
    have hlt := read16_lt (stunMessage type txid
      (signedAttributes hmacSha1 type txid password attributes ++ [f])) 2
    omega
  · intro hfits
    have hencodable := encodable_of_length htypes (by omega)
    refine ⟨(verify_signed hmacSha1 hencodable hne (by omega)).2, ?_, ?_, ?_⟩
    · rw [hlen, stunMessage, hbody, read16_setStunLength (by simp) (by omega)]
    · obtain ⟨tag, htag⟩ : ∃ tag, hmacSha1 password (setStunLength (makeStunHeader type txid)
        ((encodeAttributes attributes).length + 24) ++ encodeAttributes attributes) = tag := ⟨_, rfl⟩
      have hsplit : stunMessage type txid (signedAttributes hmacSha1 type txid password attributes
          ++ [f]) = (setStunLength (makeStunHeader type txid)
            ((encodeAttributes attributes).length + 32) ++ encodeAttributes attributes)
          ++ (encodeAttribute (attrMessageIntegrity, tag.toList) ++ encodeAttributes [f]) := by
        rw [stunMessage, hbody, encodeAttributes_append, signedAttributes, encodeAttributes_append,
          encodeAttributes_singleton, htag]
        simp only [List.append_assoc]
      have hat : 20 + ((encodeAttributes attributes).length + 32) - 32 = (setStunLength
          (makeStunHeader type txid) ((encodeAttributes attributes).length + 32)
            ++ encodeAttributes attributes).length := by
        rw [List.length_append, length_setStunLength, length_makeStunHeader]
        omega
      have hend : 20 + ((encodeAttributes attributes).length + 32) - 8 - 20
          = (encodeAttributes attributes).length + 24 := by omega
      have htaglen : (encodeAttribute (attrMessageIntegrity, tag.toList)).length = 24 := by
        simp [length_encodeAttribute, align4]
      rw [hlen, hsplit, hat, List.drop_left, List.take_left, hend, setStunLength_append (by simp),
        htag, ← htaglen, List.take_left, encodeAttribute_full (by simp)]
      simp
    · have hsplit : stunMessage type txid (signedAttributes hmacSha1 type txid password attributes
          ++ [f]) = fingerprinted hmacSha1 type txid password attributes ++ encodeAttributes [f] := by
        rw [stunMessage, hbody, encodeAttributes_append, fingerprinted, length_signed,
          List.append_assoc]
      have hat : 20 + ((encodeAttributes attributes).length + 32) - 8
          = (fingerprinted hmacSha1 type txid password attributes).length := by
        rw [fingerprinted, List.length_append, length_setStunLength, length_makeStunHeader,
          length_signed]
        omega
      rw [hlen, hsplit, hat, List.drop_left, List.take_left, encodeAttributes_singleton, ← hf,
        fingerprintAttribute, encodeAttribute_full (by simp)]
      simp

end Sealing

/-! ## The messages -/

section Messages

variable (hmacSha1 : Bytes → Bytes → Vector UInt8 20)

def requestAttributes (localUfrag remoteUfrag : Bytes) (tieBreaker : UInt64)
    (controlling useCandidate : Bool) : List (ℕ × Bytes) :=
  [(attrUsername, remoteUfrag ++ [58] ++ localUfrag), (attrPriority, bytesBE 4 1862270975),
    (if controlling then attrIceControlling else attrIceControlled, bytesBE 8 tieBreaker.toNat)]
    ++ if useCandidate then [(attrUseCandidate, [])] else []

theorem makeIceBindingRequest_eq (txid : Vector UInt8 12)
    (localUfrag remoteUfrag remotePassword : Bytes) (tieBreaker : UInt64)
    (controlling useCandidate : Bool) :
    makeIceBindingRequest hmacSha1 txid localUfrag remoteUfrag remotePassword tieBreaker controlling
        useCandidate
      = sealMessage hmacSha1 (makeStunHeader bindingRequest txid ++ encodeAttributes
        (requestAttributes localUfrag remoteUfrag tieBreaker controlling useCandidate))
          remotePassword := by
  rw [← appendAttributes_eq _ (by simp)]
  cases useCandidate <;> rfl

/-- The body of the request, its integrity and its fingerprint fit the length in the header. -/
def RequestFits (localUfrag remoteUfrag : Bytes) (useCandidate : Bool) : Prop :=
  align4 (4 + (remoteUfrag.length + 1 + localUfrag.length)) + (if useCandidate then 56 else 52)
    ≤ 65535

theorem request_wellSealed_iff (txid : Vector UInt8 12)
    (localUfrag remoteUfrag remotePassword : Bytes) (tieBreaker : UInt64)
    (controlling useCandidate : Bool) :
    WellSealed hmacSha1 (makeIceBindingRequest hmacSha1 txid localUfrag remoteUfrag remotePassword
        tieBreaker controlling useCandidate) remotePassword
      ↔ RequestFits localUfrag remoteUfrag useCandidate := by
  have hkeys : ∀ a ∈ requestAttributes localUfrag remoteUfrag tieBreaker controlling useCandidate,
      a.1 < 65536 ∧ a.1 ≠ attrMessageIntegrity := by
    intro a ha
    have hkey : a.1 ∈ [attrUsername, attrPriority, attrIceControlling, attrIceControlled,
        attrUseCandidate] := by
      have hmem := List.mem_map_of_mem (f := Prod.fst) ha
      revert hmem
      cases controlling <;> cases useCandidate <;> simp [requestAttributes] <;> tauto
    revert hkey
    generalize a.1 = k
    revert k
    decide
  have hlen : (encodeAttributes (requestAttributes localUfrag remoteUfrag tieBreaker controlling
      useCandidate)).length + 32 = align4 (4 + (remoteUfrag.length + 1 + localUfrag.length))
        + if useCandidate then 56 else 52 := by
    cases useCandidate <;>
      simp [requestAttributes, encodeAttributes, length_encodeAttribute, align4] <;> omega
  rw [makeIceBindingRequest_eq, wellSealed_iff (fun a ha => (hkeys a ha).1)
    (fun a ha => (hkeys a ha).2), hlen, RequestFits]

theorem response_wellSealed {txid : Vector UInt8 12} {mappedHost m localPassword : Bytes}
    {mappedPort : UInt16}
    (h : makeIceBindingSuccessResponse hmacSha1 txid mappedHost mappedPort localPassword = some m) :
    WellSealed hmacSha1 m localPassword := by
  obtain ⟨value, hvalue, rfl⟩ := Option.map_eq_some_iff.mp h
  obtain ⟨address, -, rfl⟩ := Option.map_eq_some_iff.mp hvalue
  rw [appendAttribute_eq (by simp), ← encodeAttributes_singleton]
  refine (wellSealed_iff ?_ ?_).mpr ?_
  · intro a ha
    rw [List.mem_singleton.mp ha]
    exact (by decide : attrXorMappedAddress < 65536)
  · intro a ha
    rw [List.mem_singleton.mp ha]
    exact (by decide : attrXorMappedAddress ≠ attrMessageIntegrity)
  · simp [encodeAttributes_singleton, length_encodeAttribute, align4]

end Messages

end Onegram.Stun

namespace Onegram.Turn

open Bytes Stun

variable (md5 : Bytes → Vector UInt8 16) (hmacSha1 : Bytes → Bytes → Vector UInt8 20)

/-- The request for a relay address before its integrity. -/
def unsignedAllocateRequest (txid : Vector UInt8 12) (username realm nonce : Bytes) : Bytes :=
  appendAttributes (makeMessage allocateRequest txid) [(attrUsername, username), (attrRealm, realm),
    (attrNonce, nonce), (attrRequestedTransport, [17, 0, 0, 0])]

theorem addAttribute_setStunLength {m : Bytes} (h : 4 ≤ m.length) (k type : ℕ) (data : Bytes) :
    addAttribute (setStunLength m k) type data = setStunLength (addAttribute m type data) k := by
  unfold addAttribute
  simp only [List.append_assoc, setStunLength_header _ h, List.length_append, length_setStunLength]

/-- The two ways to sign a request come to the same. -/
theorem makeAuthenticatedAllocateRequest_eq (txid : Vector UInt8 12)
    (username password realm nonce : Bytes) :
    makeAuthenticatedAllocateRequest md5 hmacSha1 txid username password realm nonce
      = addLongTermMessageIntegrity md5 hmacSha1
        (unsignedAllocateRequest txid username realm nonce) username password realm := by
  obtain ⟨m, hm⟩ : ∃ m, unsignedAllocateRequest txid username realm nonce = m := ⟨_, rfl⟩
  have hlen : 20 ≤ m.length := by
    rw [← hm, unsignedAllocateRequest, appendAttributes_eq _ (by simp [makeMessage]),
      List.length_append]
    simp [makeMessage]
  have hallocate : makeAuthenticatedAllocateRequest md5 hmacSha1 txid username password realm nonce
      = updateMessageLength (addAttribute (setU16 m 2 (m.length - 20 + 24)) attrMessageIntegrity
        (hmacSha1 (makeLongTermKey md5 username realm password)
          (setU16 m 2 (m.length - 20 + 24))).toList) := by
    rw [← hm]
    rfl
  have hlonger : ∀ data : Bytes, 20 ≤ (addAttribute m attrMessageIntegrity data).length := by
    intro data
    simp only [addAttribute, List.length_append]
    omega
  have hfour : ∀ data : Bytes, 4 ≤ (addAttribute m attrMessageIntegrity data).length := fun data =>
    (by omega : 4 ≤ 20).trans (hlonger data)
  rw [hallocate, addLongTermMessageIntegrity, hm, setU16_eq (by omega), makeLongTermKey,
    addAttribute_setStunLength (by omega),
    updateMessageLength_eq (by rw [length_setStunLength]; exact hlonger _),
    updateMessageLength_eq (hlonger _), length_setStunLength, setStunLength_again (hfour _)]

/-! ## The result -/

/-- What is sealed verifies and declares its own length, and the two ways to sign for the relay are
one. -/
theorem sealing_iff (txid : Vector UInt8 12) (localUfrag remoteUfrag localPassword remotePassword
    mappedHost : Bytes) (mappedPort : UInt16) (tieBreaker : UInt64) (controlling useCandidate : Bool)
    (username password realm nonce : Bytes) :
    (WellSealed hmacSha1 (makeIceBindingRequest hmacSha1 txid localUfrag remoteUfrag remotePassword
        tieBreaker controlling useCandidate) remotePassword
      ∧ (∀ m ∈ makeIceBindingSuccessResponse hmacSha1 txid mappedHost mappedPort localPassword,
        WellSealed hmacSha1 m localPassword)
      ∧ makeAuthenticatedAllocateRequest md5 hmacSha1 txid username password realm nonce
        = addLongTermMessageIntegrity md5 hmacSha1
          (unsignedAllocateRequest txid username realm nonce) username password realm)
    ↔ RequestFits localUfrag remoteUfrag useCandidate := by
  rw [request_wellSealed_iff]
  refine ⟨fun h => h.1, fun h => ⟨h, fun m hm => response_wellSealed hmacSha1 hm, ?_⟩⟩
  exact makeAuthenticatedAllocateRequest_eq md5 hmacSha1 txid username password realm nonce

/-- A user name of 65536 bytes, whatever the hash. -/
theorem long_request_unsealed : ¬ ∃ hmacSha1 : Bytes → Bytes → Vector UInt8 20,
    WellSealed hmacSha1 (makeIceBindingRequest hmacSha1 (zeros 12) [97] (List.replicate 65534 98)
      [99] 0 true false) [99] := by
  rintro ⟨hmacSha1, hsealed⟩
  rw [request_wellSealed_iff, RequestFits, List.length_replicate] at hsealed
  exact absurd hsealed (by decide)

end Onegram.Turn
