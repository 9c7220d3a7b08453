import Onegram.Proofs.Stun
import Onegram.TurnClient

/-!
# The attributes of a message and the addresses in them

`Ios6TurnClient` has two walkers over the attributes of a message and two codecs for addresses. On
messages made of attributes they all agree; a message whose declared length runs past its bytes the
client refuses, and the other walker reads what there is of it.
-/

namespace Onegram.Stun

open Bytes

/-! ## The text of an address -/

/-- The decimal digits of a number. -/
def decimal (n : ℕ) : Bytes := (Nat.toDigits 10 n).map fun c => UInt8.ofNat c.toNat

theorem decimal_digit : ∀ d < 10, decimal d = [UInt8.ofNat (48 + d)] := by decide

theorem decimal_append : ∀ v < 26, v ≠ 0 → ∀ d < 10,
    decimal (v * 10 + d) = decimal v ++ [UInt8.ofNat (48 + d)] := by decide

/-- A digit is the one for its value. -/
theorem digit_eq {c : UInt8} (h : 48 ≤ c ∧ c ≤ 57) :
    c.toNat - 48 < 10 ∧ UInt8.ofNat (48 + (c.toNat - 48)) = c := by
  have hlow : 48 ≤ c.toNat := UInt8.le_iff_toNat_le.mp h.1
  have hhigh : c.toNat ≤ 57 := UInt8.le_iff_toNat_le.mp h.2
  refine ⟨by omega, ?_⟩
  rw [Nat.add_sub_cancel' hlow, UInt8.ofNat_toNat]

/-- An octet is read off its own digits. -/
theorem octet_spec : ∀ (s : Bytes) (value : Option ℕ) {n : ℕ} {rest : Bytes},
    octet value s = some (n, rest) → (∀ v ∈ value, v ≤ 255) →
      (value.elim [] decimal) ++ s = decimal n ++ rest ∧ n ≤ 255
  | [], value, n, rest, h, hle => by
    obtain ⟨v, rfl, heq⟩ : ∃ v, value = some v ∧ (v, []) = (n, rest) := by
      simpa [octet] using h
    obtain ⟨rfl, rfl⟩ := Prod.mk.inj heq
    exact ⟨rfl, hle v rfl⟩
  | c :: s, value, n, rest, h, hle => by
    rw [octet] at h
    by_cases hdigit : 48 ≤ c ∧ c ≤ 57
    · obtain ⟨hdig, hc⟩ := digit_eq hdigit
      rw [if_pos hdigit] at h
      dsimp only at h
      split_ifs at h with hbad
      obtain ⟨hzero, hbig⟩ := not_or.mp hbad
      obtain ⟨hdigits, hn⟩ := octet_spec s _ h (by simpa using hbig)
      refine ⟨?_, hn⟩
      rw [← hdigits]
      cases value with
      | none =>
        have hone := decimal_digit (c.toNat - 48) hdig
        rw [hc] at hone
        simp [hone]
      | some v =>
        have hv : v ≠ 0 := fun h0 => hzero (by rw [h0])
        simp only [Option.getD_some] at hbig
        have hmore := decimal_append v (by omega) hv (c.toNat - 48) hdig
        rw [hc] at hmore
        simp [hmore]
    · rw [if_neg hdigit] at h
      obtain ⟨v, rfl, heq⟩ : ∃ v, value = some v ∧ (v, c :: s) = (n, rest) := by
        simpa using h
      obtain ⟨rfl, rfl⟩ := Prod.mk.inj heq
      exact ⟨rfl, hle v rfl⟩

theorem inetNtop_eq {a b c d : ℕ} (ha : a ≤ 255) (hb : b ≤ 255) (hc : c ≤ 255) (hd : d ≤ 255) :
    inetNtop #v[.ofNat a, .ofNat b, .ofNat c, .ofNat d]
      = decimal a ++ 46 :: (decimal b ++ 46 :: (decimal c ++ 46 :: decimal d)) := by
  have hbyte : ∀ {n : ℕ}, n ≤ 255 → (UInt8.ofNat n).toNat = n := fun h => by
    rw [UInt8.toNat_ofNat', Nat.mod_eq_of_lt (by omega)]
  have hlist : inetNtop #v[.ofNat a, .ofNat b, .ofNat c, .ofNat d]
      = List.intercalate [46] [decimal (UInt8.ofNat a).toNat, decimal (UInt8.ofNat b).toNat,
        decimal (UInt8.ofNat c).toNat, decimal (UInt8.ofNat d).toNat] := rfl
  rw [hlist, hbyte ha, hbyte hb, hbyte hc, hbyte hd]
  simp [List.intercalate]

/-- Only the text of an address denotes it. -/
theorem inetNtop_of_inetPton {host : Bytes} {address : Vector UInt8 4}
    (h : inetPton host = some address) : inetNtop address = host := by
  unfold inetPton at h
  split at h <;> try cases h
  rename_i a hostb ha
  split at h <;> try cases h
  rename_i b hostc hb
  split at h <;> try cases h
  rename_i c hostd hc
  split at h <;> try cases h
  rename_i d hd
  obtain ⟨ha', hale⟩ := octet_spec _ none ha (by simp)
  obtain ⟨hb', hble⟩ := octet_spec _ none hb (by simp)
  obtain ⟨hc', hcle⟩ := octet_spec _ none hc (by simp)
  obtain ⟨hd', hdle⟩ := octet_spec _ none hd (by simp)
  simp only [Option.elim_none, List.nil_append, List.append_nil] at ha' hb' hc' hd'
  rw [inetNtop_eq hale hble hcle hdle, ← hd', ← hc', ← hb', ← ha']

/-! ## The two codecs for addresses -/

theorem bytesBE_xor : ∀ k m n : ℕ,
    bytesBE k (m ^^^ n) = List.zipWith (· ^^^ ·) (bytesBE k m) (bytesBE k n)
  | 0, _, _ => rfl
  | k + 1, m, n => by
    have hdiv : (m ^^^ n) / 256 = m / 256 ^^^ n / 256 := by
      have hshift := Nat.shiftRight_xor_distrib (a := m) (b := n) (i := 8)
      simpa only [Nat.shiftRight_eq_div_pow] using hshift
    have hbyte : UInt8.ofNat (m ^^^ n) = UInt8.ofNat m ^^^ UInt8.ofNat n := by
      simp
    rw [bytesBE, bytesBE, bytesBE, hdiv, hbyte, bytesBE_xor k,
      List.zipWith_append (by simp)]
    rfl

theorem toList_slice_four (m : Bytes) (i : ℕ) : (slice m i 4).toList
    = [m.getD i 0, m.getD (i + 1) 0, m.getD (i + 2) 0, m.getD (i + 3) 0] := rfl

theorem bytesBE_read32 (m : Bytes) (i : ℕ) : bytesBE 4 (read32 m i) = (slice m i 4).toList := by
  have hread : read32 m i = (((m.getD i 0).toNat * 256 + (m.getD (i + 1) 0).toNat) * 256
      + (m.getD (i + 2) 0).toNat) * 256 + (m.getD (i + 3) 0).toNat := by
    have hthird : m.getD (i + 2 + 1) 0 = m.getD (i + 3) 0 := rfl
    rw [read32, read16, read16, hthird]
    omega
  have hlast : ∀ (n : ℕ) (b : UInt8),
      (n * 256 + b.toNat) / 256 = n ∧ UInt8.ofNat (n * 256 + b.toNat) = b := fun n b => by
    have hb := b.toNat_lt
    refine ⟨by omega, ?_⟩
    rw [← UInt8.toNat_inj, UInt8.toNat_ofNat']
    omega
  have hfirst : UInt8.ofNat (m.getD i 0).toNat = m.getD i 0 := UInt8.ofNat_toNat
  rw [hread, toList_slice_four, bytesBE, bytesBE, bytesBE, bytesBE, bytesBE]
  simp only [hlast, hfirst, List.nil_append, List.cons_append]

/-- The client's way to put the cookie over an address. -/
theorem bytesBE_xor_cookie (m : Bytes) (i : ℕ) :
    bytesBE 4 (read32 m i ^^^ stunCookie) = (xorCookie (slice m i 4)).toList := by
  rw [bytesBE_xor, bytesBE_read32, xorCookie, Vector.toList_zipWith]
  rfl

theorem xorCookie_xorCookie (address : Vector UInt8 4) :
    xorCookie (xorCookie address) = address := by
  ext i hi
  rw [xorCookie, xorCookie, Vector.getElem_zipWith, Vector.getElem_zipWith, xor_cancel]

theorem parseXorAddressValue_eq (address : Vector UInt8 4) (encodedPort : UInt16) :
    parseXorAddressValue ([0, 1] ++ bytesBE 2 encodedPort.toNat ++ (xorCookie address).toList)
      = some (inetNtop address, encodedPort ^^^ 0x2112) := by
  have hslice : slice ([0, 1] ++ bytesBE 2 encodedPort.toNat ++ (xorCookie address).toList) 4 4
      = xorCookie address := by
    rw [slice_after _ (by simp), slice_toList]
  have hport : read16 ([0, 1] ++ (bytesBE 2 encodedPort.toNat ++ (xorCookie address).toList))
      (([0, 1] : Bytes).length + 0) = encodedPort.toNat := by
    rw [read16_append_right, read16_bytesBE encodedPort.toNat_lt]
  rw [← List.append_assoc, List.length_cons, List.length_singleton] at hport
  rw [parseXorAddressValue, if_neg (by simp), hslice, xorCookie_xorCookie, hport,
    UInt16.ofNat_toNat]

theorem parseXorAddressValue_make {host value : Bytes} {port : UInt16}
    (h : makeXorPeerAddressValue host port = some value) :
    parseXorAddressValue value = some (host, port) := by
  obtain ⟨address, haddress, rfl⟩ := Option.map_eq_some_iff.mp h
  have hword : port ^^^ 0x2112 ^^^ 0x2112 = port := by
    rw [UInt16.xor_assoc, UInt16.xor_self, UInt16.xor_zero]
  rw [parseXorAddressValue_eq, inetNtop_of_inetPton haddress, hword]

/-! ## Building a message -/

theorem appendAttribute_eq {m : Bytes} (h : m.length % 4 = 0) (type : ℕ) (value : Bytes) :
    appendAttribute m type value = m ++ encodeAttribute (type, value) := by
  have hpad : align4 (m.length + (4 + value.length)) - (m.length + (4 + value.length))
      = align4 (4 + value.length) - (4 + value.length) := by
    unfold align4
    omega
  have hlen : (m ++ bytesBE 2 type ++ bytesBE 2 value.length ++ value).length
      = m.length + (4 + value.length) := by
    simp
    omega
  rw [appendAttribute, hlen, hpad, encodeAttribute]
  simp only [List.append_assoc]

/-- The attributes of a list, one after the other. -/
def appendAttributes (m : Bytes) (l : List (ℕ × Bytes)) : Bytes :=
  l.foldl (fun m a => appendAttribute m a.1 a.2) m

theorem appendAttributes_eq : ∀ {m : Bytes} (l : List (ℕ × Bytes)), m.length % 4 = 0 →
    appendAttributes m l = m ++ encodeAttributes l
  | m, [], _ => by simp [appendAttributes, encodeAttributes]
  | m, a :: l, h => by
    have happend := appendAttribute_eq h a.1 a.2
    have hlen : (m ++ encodeAttribute a).length % 4 = 0 := by
      have halign := align4_mod (4 + a.2.length)
      rw [List.length_append, length_encodeAttribute]
      omega
    have hrest := appendAttributes_eq l hlen
    rw [appendAttributes, List.foldl_cons, happend, ← appendAttributes, hrest, List.append_assoc]
    rfl

theorem setStunLength_header {h : Bytes} (q : Bytes) (hh : 4 ≤ h.length) (n : ℕ) :
    setStunLength (h ++ q) n = setStunLength h n ++ q := by
  unfold setStunLength
  rw [List.set_append_left _ _ (by omega), List.set_append_left _ _ (by simp; omega)]

/-- A message built of a list of attributes. -/
def buildMessage (type : ℕ) (txid : Vector UInt8 12) (attributes : List (UInt16 × Bytes)) : Bytes :=
  let m := appendAttributes (makeStunHeader type txid) (attributes.map fun a => (a.1.toNat, a.2))
  setStunLength m (m.length - 20)

theorem buildMessage_eq (type : ℕ) (txid : Vector UInt8 12) (attributes : List (UInt16 × Bytes)) :
    buildMessage type txid attributes
      = stunMessage type txid (attributes.map fun a => (a.1.toNat, a.2)) := by
  have hheader := length_makeStunHeader type txid
  unfold buildMessage stunMessage
  rw [appendAttributes_eq _ (by rw [hheader]), setStunLength_header _ (by omega),
    List.length_append, hheader, Nat.add_sub_cancel_left]

/-- The attributes of a body that the length can declare are encodable. -/
theorem encodable_of_length : ∀ {l : List (ℕ × Bytes)}, (∀ a ∈ l, a.1 < 65536) →
    (encodeAttributes l).length < 65536 → Encodable l
  | [], _, _ => by simp [Encodable]
  | a :: l, htypes, hlen => by
    have hcons : encodeAttributes (a :: l) = encodeAttribute a ++ encodeAttributes l := rfl
    have halign := le_align4 (4 + a.2.length)
    rw [hcons, List.length_append, length_encodeAttribute] at hlen
    have hrest := encodable_of_length (fun b hb => htypes b (List.mem_cons_of_mem _ hb))
      (by omega : (encodeAttributes l).length < 65536)
    exact List.forall_mem_cons.mpr ⟨⟨htypes a List.mem_cons_self, by omega⟩, hrest⟩

/-- The value of the first attribute of a type. -/
def firstValue (attributes : List (UInt16 × Bytes)) (w : UInt16) : Option Bytes :=
  (attributes.find? (·.1 = w)).map (·.2)

theorem attributeValue_buildMessage {type : ℕ} {txid : Vector UInt8 12}
    {attributes : List (UInt16 × Bytes)}
    (hsize : (buildMessage type txid attributes).length ≤ 20 + 65535) (w : UInt16) :
    attributeValue (buildMessage type txid attributes) w.toNat = firstValue attributes w := by
  rw [buildMessage_eq, stunMessage, List.length_append, length_setStunLength,
    length_makeStunHeader] at hsize
  have htypes : ∀ a ∈ attributes.map fun a => (a.1.toNat, a.2), a.1 < 65536 := by
    intro a ha
    obtain ⟨b, -, rfl⟩ := List.mem_map.mp ha
    exact b.1.toNat_lt
  have hencodable := encodable_of_length htypes (by omega)
  have hkey : (fun a : UInt16 × Bytes => decide (a.1.toNat = w.toNat))
      = fun a => decide (a.1 = w) := by
    funext a
    simp [UInt16.toNat_inj]
  rw [buildMessage_eq, attributeValue_stunMessage hencodable (by omega), List.find?_map,
    Option.map_map]
  simp only [Function.comp_def, hkey]
  rfl

end Onegram.Stun

namespace Onegram.Turn

open Bytes Stun

theorem setU16_eq {m : Bytes} (h : 4 ≤ m.length) (value : ℕ) :
    setU16 m 2 value = setStunLength m value := if_neg (by omega)

theorem updateMessageLength_eq {m : Bytes} (h : 20 ≤ m.length) :
    updateMessageLength m = setStunLength m (m.length - 20) := by
  rw [updateMessageLength, if_neg (by omega), setU16_eq (by omega)]

/-- A message that the client builds of a list of attributes. -/
def buildMessage (type : ℕ) (txid : Vector UInt8 12) (attributes : List (UInt16 × Bytes)) : Bytes :=
  updateMessageLength (attributes.foldl (fun m a => addAttribute m a.1.toNat a.2)
    (makeMessage type txid))

theorem buildMessage_eq (type : ℕ) (txid : Vector UInt8 12) (attributes : List (UInt16 × Bytes)) :
    buildMessage type txid attributes = Stun.buildMessage type txid attributes := by
  have happend : attributes.foldl (fun m a => addAttribute m a.1.toNat a.2) (makeMessage type txid)
      = appendAttributes (makeStunHeader type txid) (attributes.map fun a => (a.1.toNat, a.2)) := by
    rw [appendAttributes, List.foldl_map]
    rfl
  rw [buildMessage, happend, updateMessageLength_eq, Stun.buildMessage]
  rw [appendAttributes_eq _ (by simp), List.length_append, length_makeStunHeader]
  omega

/-- The client's walker is the other one where the declared length fits the bytes. -/
theorem findAttribute_eq (m : Bytes) (w : ℕ) : findAttribute m w =
    if m.length < 20 + Stun.read16 m 2 then none else attributeValue m w := by
  unfold findAttribute attributeValue Stun.findAttribute bodyEnd
  dsimp only
  by_cases hshort : m.length < 20
  · rw [if_pos hshort, if_pos (by omega)]
  · by_cases hlong : m.length < 20 + Stun.read16 m 2
    · rw [if_neg hshort, if_pos hlong, if_pos hlong]
    · rw [if_neg hshort, if_neg hlong, if_neg hlong, if_neg hshort, min_eq_left (by omega)]

theorem makeXorPeerAddress_eq (host : Bytes) (port : UInt16) :
    makeXorPeerAddress host port = makeXorPeerAddressValue host port := by
  unfold makeXorPeerAddress makeXorPeerAddressValue
  dsimp only
  simp only [bytesBE_xor_cookie, slice_toList]

theorem parseXorRelayedAddress_eq (message : Bytes) : parseXorRelayedAddress message
    = (findAttribute message attrXorRelayedAddress).bind parseXorAddressValue := by
  unfold parseXorRelayedAddress
  cases findAttribute message attrXorRelayedAddress with
  | none => rfl
  | some value =>
    rw [Option.bind_some, parseXorAddressValue]
    dsimp only
    rw [bytesBE_xor_cookie, slice_toList]
    by_cases hshort : value.length < 8
    · rw [if_pos hshort, if_pos (.inl hshort)]
    · by_cases hfamily : value.getD 1 0 ≠ 1
      · rw [if_neg hshort, if_pos hfamily, if_pos (.inr hfamily)]
      · rw [if_neg hshort, if_neg hfamily, if_neg (not_or.mpr ⟨hshort, hfamily⟩)]

theorem findAttribute_buildMessage {type : ℕ} {txid : Vector UInt8 12}
    {attributes : List (UInt16 × Bytes)}
    (hsize : (buildMessage type txid attributes).length ≤ 20 + 65535) (w : UInt16) :
    findAttribute (buildMessage type txid attributes) w.toNat = firstValue attributes w := by
  rw [Turn.buildMessage_eq] at hsize ⊢
  have hdeclared : (Stun.buildMessage type txid attributes).length
      = 20 + Stun.read16 (Stun.buildMessage type txid attributes) 2 := by
    rw [Stun.buildMessage_eq, stunMessage, List.length_append, length_setStunLength,
      length_makeStunHeader] at hsize
    rw [Stun.buildMessage_eq, stunMessage, List.length_append, length_setStunLength,
      length_makeStunHeader, read16_setStunLength (by simp) (by omega)]
  rw [findAttribute_eq, if_neg (by omega), attributeValue_buildMessage hsize]

/-! ## The result -/

/-- What the walkers and the codecs for addresses do. -/
structure CodecLaws : Prop where
  lookup : ∀ (type : ℕ) (txid : Vector UInt8 12) (attributes : List (UInt16 × Bytes)) (w : UInt16),
    (Stun.buildMessage type txid attributes).length ≤ 20 + 65535 →
      attributeValue (Stun.buildMessage type txid attributes) w.toNat = firstValue attributes w
        ∧ findAttribute (Stun.buildMessage type txid attributes) w.toNat = firstValue attributes w
  same_messages : ∀ (type : ℕ) (txid : Vector UInt8 12) (attributes : List (UInt16 × Bytes)),
    buildMessage type txid attributes = Stun.buildMessage type txid attributes
  same_addresses : ∀ (host : Bytes) (port : UInt16),
    makeXorPeerAddress host port = makeXorPeerAddressValue host port
  address : ∀ (host value : Bytes) (port : UInt16), makeXorPeerAddressValue host port = some value →
    parseXorAddressValue value = some (host, port)
  relayed : ∀ message : Bytes, parseXorRelayedAddress message
    = (findAttribute message attrXorRelayedAddress).bind parseXorAddressValue
  other_family : ∀ value : Bytes, value.getD 1 0 ≠ 1 → parseXorAddressValue value = none
  agree : ∀ (m : Bytes) (w : ℕ), findAttribute m w =
    if m.length < 20 + Stun.read16 m 2 then none else attributeValue m w

theorem codecLaws : CodecLaws where
  lookup type txid attributes w hsize := by
    refine ⟨attributeValue_buildMessage hsize w, ?_⟩
    rw [← Turn.buildMessage_eq] at hsize ⊢
    exact findAttribute_buildMessage hsize w
  same_messages := Turn.buildMessage_eq
  same_addresses := makeXorPeerAddress_eq
  address _ _ _ h := parseXorAddressValue_make h
  relayed := parseXorRelayedAddress_eq
  other_family value h := if_pos (.inr h)
  agree := findAttribute_eq

/-- A message that declares more than there is, and the address `::1` with port 0. -/
theorem truncated_differs :
    let m : Bytes := stunMessage bindingRequest (zeros 12) [(attrUsername, [1, 2, 3, 4])]
    let ipv6 : Bytes := [0, 2, 0x21, 0x12, 0x21, 0x12, 0xa4, 0x42] ++ List.replicate 11 0 ++ [1]
    attributeValue (setStunLength m 9) attrUsername = some [1, 2, 3, 4]
      ∧ findAttribute (setStunLength m 9) attrUsername = none
      ∧ makeXorPeerAddressValue [58, 58, 49] 0 = none
      ∧ parseXorAddressValue ipv6 = none := by
  decide +kernel

end Onegram.Turn
