import Onegram.Stun

/-!
# Looking up attributes

The loop over the attributes reads a message up to the value it returns and no further. So up to the
end of one attribute it depends only on the bytes before that end, and what is found in a message is
found there or else after it (`findFrom_split`).
-/

namespace Onegram.Stun

open Bytes

variable {m m' : Bytes} {stop t w offset v n : ℕ}

/-! ## The loop -/

theorem align4_of_dvd (h : offset % 4 = 0) : align4 offset = offset := by
  unfold align4
  omega

theorem align4_mod (offset : ℕ) : align4 offset % 4 = 0 := by
  unfold align4
  omega

theorem findFrom_end (h : stop < offset + 4) : findFrom m stop w offset = none := by
  rw [findFrom, if_neg (by omega)]

theorem findFrom_overrun (h : stop < offset + 4 + read16 m (offset + 2)) :
    findFrom m stop w offset = none := by
  rw [findFrom]
  by_cases hshort : offset + 4 ≤ stop
  · rw [if_pos hshort]
    simp only []
    rw [if_pos h]
  · rw [if_neg hshort]

theorem findFrom_here (h : offset + 4 + read16 m (offset + 2) ≤ stop)
    (hw : read16 m offset = w) :
    findFrom m stop w offset = some (offset + 4, read16 m (offset + 2)) := by
  rw [findFrom, if_pos (by omega)]
  simp only []
  rw [if_neg (by omega), if_pos hw]

theorem findFrom_skip (h : offset + 4 + read16 m (offset + 2) ≤ stop)
    (hw : read16 m offset ≠ w) :
    findFrom m stop w offset =
      findFrom m stop w (align4 (offset + 4 + read16 m (offset + 2))) := by
  rw [findFrom, if_pos (by omega)]
  simp only []
  rw [if_neg (by omega), if_neg hw]

/-- What the loop does at an attribute. -/
theorem findFrom_cases (m : Bytes) (stop w offset : ℕ) :
    (findFrom m stop w offset = none) ∨
    (offset + 4 + read16 m (offset + 2) ≤ stop ∧
      (read16 m offset = w ∧
          findFrom m stop w offset = some (offset + 4, read16 m (offset + 2)) ∨
        read16 m offset ≠ w ∧ findFrom m stop w offset =
          findFrom m stop w (align4 (offset + 4 + read16 m (offset + 2))))) := by
  by_cases h : offset + 4 + read16 m (offset + 2) ≤ stop
  · by_cases hw : read16 m offset = w
    · exact .inr ⟨h, .inl ⟨hw, findFrom_here h hw⟩⟩
    · exact .inr ⟨h, .inr ⟨hw, findFrom_skip h hw⟩⟩
  · exact .inl (findFrom_overrun (by omega))

/-- A value is found after the offset, before the end, under its type and length. -/
theorem findFrom_some : ∀ {offset : ℕ}, findFrom m stop w offset = some (v, n) →
    offset + 4 ≤ v ∧ v + n ≤ stop ∧ (offset % 4 = 0 → v % 4 = 0) ∧ read16 m (v - 4) = w := by
  intro offset h
  rcases findFrom_cases m stop w offset with hnone | ⟨hstop, ⟨htype, hfound⟩ | ⟨-, hskip⟩⟩
  · rw [hnone] at h
    simp at h
  · rw [hfound] at h
    simp only [Option.some.injEq, Prod.mk.injEq] at h
    obtain ⟨rfl, rfl⟩ := h
    exact ⟨le_rfl, hstop, fun h => by omega, by rwa [Nat.add_sub_cancel]⟩
  · rw [hskip] at h
    have hle := le_align4 (offset + 4 + read16 m (offset + 2))
    obtain ⟨hv, hn, hmod, htype⟩ := findFrom_some h
    exact ⟨by omega, hn, fun _ => hmod (align4_mod _), htype⟩
termination_by offset => stop - offset
decreasing_by omega

/-- What is found with an earlier end is found with a later one. -/
theorem findFrom_mono {stop' : ℕ} (hle : stop ≤ stop') : ∀ {offset : ℕ},
    findFrom m stop w offset = some (v, n) → findFrom m stop' w offset = some (v, n) := by
  intro offset h
  rcases findFrom_cases m stop w offset with hnone | ⟨hstop, ⟨htype, hfound⟩ | ⟨htype, hskip⟩⟩
  · rw [hnone] at h
    simp at h
  · rw [findFrom_here (by omega) htype, ← hfound, h]
  · have hpad := le_align4 (offset + 4 + read16 m (offset + 2))
    rw [findFrom_skip (by omega) htype]
    rw [hskip] at h
    exact findFrom_mono hle h
termination_by offset => stop - offset
decreasing_by omega

/-- Past the end of an attribute the loop goes on as if the message ended there, and then from
there. -/
theorem findFrom_split (hend : (v + n) % 4 = 0) : ∀ {offset : ℕ},
    findFrom m stop t offset = some (v, n) → ∀ w,
      findFrom m stop w offset =
        (findFrom m (v + n) w offset).or (findFrom m stop w (v + n)) := by
  intro offset h w
  rcases findFrom_cases m stop t offset with hnone | ⟨hstop, ⟨-, hfound⟩ | ⟨-, hskip⟩⟩
  · rw [hnone] at h
    simp at h
  · rw [hfound] at h
    simp only [Option.some.injEq, Prod.mk.injEq] at h
    obtain ⟨rfl, rfl⟩ := h
    by_cases hw : read16 m offset = w
    · rw [findFrom_here hstop hw, findFrom_here le_rfl hw, Option.some_or]
    · have hnone : findFrom m (offset + 4 + read16 m (offset + 2)) w
          (offset + 4 + read16 m (offset + 2)) = none := findFrom_end (by omega)
      rw [findFrom_skip hstop hw, findFrom_skip le_rfl hw, align4_of_dvd hend, hnone,
        Option.none_or]
  · rw [hskip] at h
    have hle := le_align4 (offset + 4 + read16 m (offset + 2))
    have hafter := findFrom_some h
    have hbelow : offset + 4 + read16 m (offset + 2) ≤ v + n := by omega
    by_cases hw : read16 m offset = w
    · rw [findFrom_here hstop hw, findFrom_here hbelow hw, Option.some_or]
    · rw [findFrom_skip hstop hw, findFrom_skip hbelow hw]
      exact findFrom_split hend h w
termination_by offset => stop - offset
decreasing_by omega

/-- Two messages with the same bytes from an offset to an end. -/
def SameBytes (m m' : Bytes) (offset stop : ℕ) : Prop :=
  ∀ i, offset ≤ i → i < stop → m'.getD i 0 = m.getD i 0

theorem SameBytes.read16 {i : ℕ} (h : SameBytes m m' offset stop) (hi : offset ≤ i)
    (hstop : i + 2 ≤ stop) : read16 m' i = read16 m i := by
  simp only [Stun.read16, h i hi (by omega), h (i + 1) (by omega) (by omega)]

theorem findFrom_congr : ∀ {offset : ℕ}, SameBytes m m' offset stop →
    findFrom m' stop w offset = findFrom m stop w offset := by
  intro offset h
  by_cases hshort : stop < offset + 4
  · rw [findFrom_end hshort, findFrom_end hshort]
  · have htype := h.read16 le_rfl (by omega)
    have hlen := h.read16 (i := offset + 2) (by omega) (by omega)
    by_cases hover : stop < offset + 4 + Stun.read16 m (offset + 2)
    · rw [findFrom_overrun hover, findFrom_overrun (by rw [hlen]; exact hover)]
    · by_cases hw : Stun.read16 m offset = w
      · rw [findFrom_here (by omega) hw, findFrom_here (by omega) (by omega), hlen]
      · rw [findFrom_skip (by omega) hw, findFrom_skip (by omega) (by omega), hlen]
        have hle := le_align4 (offset + 4 + Stun.read16 m (offset + 2))
        exact findFrom_congr fun i hi => h i (by omega)
termination_by offset => stop - offset
decreasing_by omega

/-- The bytes of a value before the end are those of the other message. -/
theorem SameBytes.valueAt (h : SameBytes m m' offset stop) (hlen : stop ≤ m.length)
    (hlen' : stop ≤ m'.length) (hv : offset ≤ v) (hn : v + n ≤ stop) :
    valueAt m' (v, n) = valueAt m (v, n) := by
  apply List.ext_getElem
  · simp only [Stun.valueAt, List.length_take, List.length_drop]
    omega
  · intro i h₁ h₂
    have hi : i < n := by
      simp only [Stun.valueAt, List.length_take] at h₁
      omega
    have := h (v + i) (by omega) (by omega)
    rw [List.getD_eq_getElem _ _ (by omega), List.getD_eq_getElem _ _ (by omega)] at this
    simpa only [Stun.valueAt, List.getElem_take, List.getElem_drop] using this

/-! ## Messages made of attributes -/

def encodeAttribute (a : ℕ × Bytes) : Bytes :=
  bytesBE 2 a.1 ++ (bytesBE 2 a.2.length ++ (a.2 ++
    List.replicate (align4 (4 + a.2.length) - (4 + a.2.length)) 0))

def encodeAttributes (l : List (ℕ × Bytes)) : Bytes := l.flatMap encodeAttribute

theorem length_encodeAttribute (a : ℕ × Bytes) :
    (encodeAttribute a).length = align4 (4 + a.2.length) := by
  have := le_align4 (4 + a.2.length)
  simp [encodeAttribute, bytesBE]
  omega

theorem length_encodeAttributes_mod : ∀ l : List (ℕ × Bytes),
    (encodeAttributes l).length % 4 = 0
  | [] => rfl
  | a :: l => by
    have := length_encodeAttributes_mod l
    have := align4_mod (4 + a.2.length)
    simp only [encodeAttributes, List.flatMap_cons, List.length_append,
      length_encodeAttribute] at *
    omega

theorem read16_append_right {p q : Bytes} {i : ℕ} : read16 (p ++ q) (p.length + i) = read16 q i := by
  simp only [read16, add_assoc]
  rw [List.getD_append_right _ _ _ _ (by omega), List.getD_append_right _ _ _ _ (by omega)]
  simp

theorem read16_bytesBE {k : ℕ} (hk : k < 65536) (q : Bytes) : read16 (bytesBE 2 k ++ q) 0 = k := by
  simp [read16, bytesBE]
  omega

theorem read16_encodeAttribute {a : ℕ × Bytes} (ha : a.1 < 65536) (hlen : a.2.length < 65536)
    (q : Bytes) : read16 (encodeAttribute a ++ q) 0 = a.1 ∧
      read16 (encodeAttribute a ++ q) 2 = a.2.length := by
  simp only [encodeAttribute, List.append_assoc]
  refine ⟨read16_bytesBE ha _, ?_⟩
  have := read16_append_right (p := bytesBE 2 a.1) (i := 0) (q := bytesBE 2 a.2.length ++ (a.2 ++
    (List.replicate (align4 (4 + a.2.length) - (4 + a.2.length)) 0 ++ q)))
  rw [read16_bytesBE hlen] at this
  simpa [bytesBE] using this

/-- The types and lengths of the attributes fit their fields. -/
def Encodable (l : List (ℕ × Bytes)) : Prop := ∀ a ∈ l, a.1 < 65536 ∧ a.2.length < 65536

/-- Attributes of other types are skipped. -/
theorem findFrom_skip_all {q : Bytes} : ∀ {l : List (ℕ × Bytes)} {p : Bytes}, Encodable l →
    p.length % 4 = 0 → (∀ a ∈ l, a.1 ≠ w) → p.length + (encodeAttributes l).length ≤ stop →
      findFrom (p ++ (encodeAttributes l ++ q)) stop w p.length =
        findFrom (p ++ (encodeAttributes l ++ q)) stop w (p.length + (encodeAttributes l).length)
  | [], _, _, _, _, _ => by simp [encodeAttributes]
  | a :: l, p, hl, hp, hne, hstop => by
    obtain ⟨htype, hlen⟩ := hl a List.mem_cons_self
    have hcons : encodeAttributes (a :: l) = encodeAttribute a ++ encodeAttributes l := rfl
    obtain ⟨hread, hread'⟩ := read16_encodeAttribute htype hlen (encodeAttributes l ++ q)
    have hoffset : read16 (p ++ (encodeAttribute a ++ (encodeAttributes l ++ q))) p.length
        = a.1 := by
      have := read16_append_right (p := p) (q := encodeAttribute a ++ (encodeAttributes l ++ q))
        (i := 0)
      rwa [hread] at this
    have hoffset' : read16 (p ++ (encodeAttribute a ++ (encodeAttributes l ++ q))) (p.length + 2)
        = a.2.length := by rw [read16_append_right, hread']
    have hend : align4 (p.length + 4 + a.2.length) = (p ++ encodeAttribute a).length := by
      rw [List.length_append, length_encodeAttribute]
      unfold align4
      omega
    have hle := le_align4 (4 + a.2.length)
    rw [hcons, List.length_append, length_encodeAttribute] at hstop
    rw [hcons, List.append_assoc, findFrom_skip (by rw [hoffset']; omega)
      (by rw [hoffset]; exact hne a List.mem_cons_self), hoffset', hend]
    have := findFrom_skip_all (q := q) (l := l) (p := p ++ encodeAttribute a)
      (fun b hb => hl b (List.mem_cons_of_mem _ hb))
      (by rw [← hend]; exact align4_mod _) (fun b hb => hne b (List.mem_cons_of_mem _ hb))
      (by rw [List.length_append, length_encodeAttribute]; omega)
    simpa only [List.append_assoc, List.length_append, add_assoc] using this

/-- The first attribute of a type is found where it stands. -/
theorem findFrom_encode {q : Bytes} {l r : List (ℕ × Bytes)} {p v : Bytes} {e : ℕ}
    (hl : Encodable l) (hp : p.length % 4 = 0) (hne : ∀ a ∈ l, a.1 ≠ w) (hw : w < 65536)
    (hv : v.length < 65536) (he : p.length + (encodeAttributes l).length + 4 + v.length ≤ e) :
    findFrom (p ++ (encodeAttributes (l ++ (w, v) :: r) ++ q)) e w p.length =
      some (p.length + (encodeAttributes l).length + 4, v.length) := by
  have happend : p ++ (encodeAttributes (l ++ (w, v) :: r) ++ q) =
      p ++ (encodeAttributes l ++ (encodeAttribute (w, v) ++ (encodeAttributes r ++ q))) := by
    simp [encodeAttributes]
  obtain ⟨hread, hread'⟩ := read16_encodeAttribute (a := (w, v)) hw hv
    (encodeAttributes r ++ q)
  have hoffset := read16_append_right (p := p ++ encodeAttributes l) (i := 0)
    (q := encodeAttribute (w, v) ++ (encodeAttributes r ++ q))
  have hoffset' := read16_append_right (p := p ++ encodeAttributes l) (i := 2)
    (q := encodeAttribute (w, v) ++ (encodeAttributes r ++ q))
  rw [hread, List.append_assoc, List.length_append, add_zero] at hoffset
  rw [hread', List.append_assoc, List.length_append] at hoffset'
  rw [happend, findFrom_skip_all hl hp hne (by omega), findFrom_here (by rw [hoffset']; exact he)
    hoffset, hoffset']

/-- The loop over encoded attributes finds the first of the wanted type. -/
theorem lookup_encode {l : List (ℕ × Bytes)} {p : Bytes} (hl : Encodable l)
    (hp : p.length % 4 = 0) (w : ℕ) :
    (findFrom (p ++ encodeAttributes l) (p.length + (encodeAttributes l).length) w p.length).map
        (valueAt (p ++ encodeAttributes l)) = (l.find? (·.1 = w)).map (·.2) := by
  rcases hfind : l.find? (·.1 = w) with _ | ⟨type, value⟩
  · have hne : ∀ a ∈ l, a.1 ≠ w := fun a ha h => by
      have := List.find?_eq_none.1 hfind a ha
      simp [h] at this
    have := findFrom_skip_all (q := []) hl hp hne
      (le_refl (p.length + (encodeAttributes l).length))
    rw [List.append_nil] at this
    rw [this, findFrom_end (by omega), hfind]
    rfl
  · obtain ⟨htype, before, after, rfl, hbefore⟩ := List.find?_eq_some_iff_append.1 hfind
    obtain rfl : type = w := by simpa using htype
    obtain ⟨hw, hvalue⟩ := hl (type, value) (by simp)
    have hpad := le_align4 (4 + value.length)
    have hsize : (encodeAttributes (before ++ (type, value) :: after)).length =
        (encodeAttributes before).length + (align4 (4 + value.length) +
          (encodeAttributes after).length) := by
      simp [encodeAttributes, length_encodeAttribute]
    have hl' : Encodable before := fun a ha => hl a (by simp [ha])
    have hne : ∀ a ∈ before, a.1 ≠ type := fun a ha => by simpa using hbefore a ha
    have hstop : p.length + (encodeAttributes before).length + 4 + value.length ≤
        p.length + (encodeAttributes (before ++ (type, value) :: after)).length := by
      rw [hsize]
      omega
    have := findFrom_encode (q := []) (r := after) hl' hp hne hw hvalue hstop
    rw [List.append_nil] at this
    rw [this, hfind]
    simp only [Option.map_some, Option.some.injEq, valueAt]
    have hdrop : p ++ encodeAttributes (before ++ (type, value) :: after) =
        (p ++ (encodeAttributes before ++ (bytesBE 2 type ++ bytesBE 2 value.length))) ++ (value ++
          (List.replicate (align4 (4 + value.length) - (4 + value.length)) 0 ++
            encodeAttributes after)) := by
      simp [encodeAttributes, encodeAttribute]
    rw [hdrop, List.drop_left' (by simp [bytesBE]; omega), List.take_left]

/-! ## Messages -/

/-- A message with the given attributes. -/
def stunMessage (type : ℕ) (txid : Vector UInt8 12) (attributes : List (ℕ × Bytes)) : Bytes :=
  setStunLength (makeStunHeader type txid) (encodeAttributes attributes).length ++
    encodeAttributes attributes

@[simp] theorem length_setStunLength (m : Bytes) (n : ℕ) : (setStunLength m n).length = m.length := by
  simp [setStunLength]

@[simp] theorem length_makeStunHeader (type : ℕ) (txid : Vector UInt8 12) :
    (makeStunHeader type txid).length = 20 := by
  simp [makeStunHeader, bytesBE]

theorem read16_setStunLength {m : Bytes} (hm : 4 ≤ m.length) {k : ℕ} (hk : k < 65536) (q : Bytes) :
    read16 (setStunLength m k ++ q) 2 = k := by
  obtain ⟨a, b, c, d, rest, rfl⟩ : ∃ a b c d rest, m = a :: b :: c :: d :: rest := by
    match m, hm with
    | a :: b :: c :: d :: rest, _ => exact ⟨a, b, c, d, rest, rfl⟩
  simp [setStunLength, read16]
  omega

theorem bodyEnd_setStunLength {m q : Bytes} (hm : 20 ≤ m.length)
    (hk : m.length - 20 + q.length < 65536) :
    bodyEnd (setStunLength m (m.length - 20 + q.length) ++ q) = m.length + q.length := by
  rw [bodyEnd, read16_setStunLength (by omega) hk, List.length_append, length_setStunLength]
  omega

theorem attributeValue_stunMessage {type : ℕ} {txid : Vector UInt8 12}
    {attributes : List (ℕ × Bytes)} (hl : Encodable attributes)
    (hsize : (encodeAttributes attributes).length < 65536) (w : ℕ) :
    attributeValue (stunMessage type txid attributes) w =
      (attributes.find? (·.1 = w)).map (·.2) := by
  have hend := bodyEnd_setStunLength (m := makeStunHeader type txid)
    (q := encodeAttributes attributes) (by simp) (by simpa using hsize)
  simp only [length_makeStunHeader, Nat.sub_self, zero_add] at hend
  have := lookup_encode hl (p := setStunLength (makeStunHeader type txid)
    (encodeAttributes attributes).length) (by simp) w
  simp only [length_setStunLength, length_makeStunHeader] at this
  rw [attributeValue, findAttribute, if_neg (by simp [stunMessage]), stunMessage, hend, this]

theorem setStunLength_append {h q : Bytes} (hh : 4 ≤ h.length) (k n : ℕ) :
    setStunLength (setStunLength h k ++ q) n = setStunLength h n ++ q := by
  obtain ⟨a, b, c, d, rest, rfl⟩ : ∃ a b c d rest, h = a :: b :: c :: d :: rest := by
    match h, hh with
    | a :: b :: c :: d :: rest, _ => exact ⟨a, b, c, d, rest, rfl⟩
  simp [setStunLength]

/-- Attributes with a MESSAGE-INTEGRITY over them at the end. -/
def signedAttributes (hmacSha1 : Bytes → Bytes → Vector UInt8 20) (type : ℕ)
    (txid : Vector UInt8 12) (password : Bytes) (attributes : List (ℕ × Bytes)) :
    List (ℕ × Bytes) :=
  attributes ++ [(attrMessageIntegrity, (hmacSha1 password
    (setStunLength (makeStunHeader type txid) ((encodeAttributes attributes).length + 24) ++
      encodeAttributes attributes)).toList)]

/-- Whatever follows the integrity, it is found after what it signs, and it is valid. -/
theorem verify_signed (hmacSha1 : Bytes → Bytes → Vector UInt8 20) {type : ℕ}
    {txid : Vector UInt8 12} {password : Bytes} {attributes rest : List (ℕ × Bytes)}
    (hl : Encodable attributes) (hne : ∀ a ∈ attributes, a.1 ≠ attrMessageIntegrity)
    (hsize : (encodeAttributes attributes).length + 24 + (encodeAttributes rest).length < 65536) :
    findAttribute (stunMessage type txid
        (signedAttributes hmacSha1 type txid password attributes ++ rest)) attrMessageIntegrity =
      some (20 + (encodeAttributes attributes).length + 4, 20) ∧
    verifyShortTermIntegrity hmacSha1 (stunMessage type txid
      (signedAttributes hmacSha1 type txid password attributes ++ rest)) password = true := by
  obtain ⟨tag, htag⟩ : ∃ tag, hmacSha1 password
    (setStunLength (makeStunHeader type txid) ((encodeAttributes attributes).length + 24) ++
      encodeAttributes attributes) = tag := ⟨_, rfl⟩
  have hattributes : signedAttributes hmacSha1 type txid password attributes ++ rest =
      attributes ++ (attrMessageIntegrity, tag.toList) :: rest := by simp [signedAttributes, htag]
  have hall : encodeAttributes (attributes ++ (attrMessageIntegrity, tag.toList) :: rest) =
      encodeAttributes attributes ++ ((bytesBE 2 attrMessageIntegrity ++ bytesBE 2 20) ++
        (tag.toList ++ encodeAttributes rest)) := by
    simp [encodeAttributes, encodeAttribute, align4]
  obtain ⟨body, hbody⟩ : ∃ body, encodeAttributes
    (attributes ++ (attrMessageIntegrity, tag.toList) :: rest) = body := ⟨_, rfl⟩
  have hlength : body.length =
      (encodeAttributes attributes).length + 24 + (encodeAttributes rest).length := by
    rw [← hbody, hall]
    simp [bytesBE]
    omega
  have hend := bodyEnd_setStunLength (m := makeStunHeader type txid) (q := body) (by simp)
    (by simpa [hlength] using hsize)
  simp only [length_makeStunHeader, Nat.sub_self, zero_add] at hend
  have hfound := findFrom_encode (q := []) (r := rest) (v := tag.toList)
    (p := setStunLength (makeStunHeader type txid) body.length) (e := 20 + body.length) hl
    (by simp) hne (by decide : attrMessageIntegrity < 65536) (by simp)
    (by simp [hlength]; omega)
  rw [hbody, List.append_nil] at hfound
  simp only [length_setStunLength, length_makeStunHeader, Vector.length_toList] at hfound
  rw [hattributes, stunMessage, hbody]
  have hfind : findAttribute (setStunLength (makeStunHeader type txid) body.length ++ body)
      attrMessageIntegrity = some (20 + (encodeAttributes attributes).length + 4, 20) := by
    rw [findAttribute, if_neg (by simp), hend, hfound]
  refine ⟨hfind, ?_⟩
  have htake : (setStunLength (makeStunHeader type txid) body.length ++ body).take
      (20 + (encodeAttributes attributes).length) =
        setStunLength (makeStunHeader type txid) body.length ++ encodeAttributes attributes := by
    rw [← hbody, hall, ← List.append_assoc, List.take_left' (by simp)]
  have hdrop : ((setStunLength (makeStunHeader type txid) body.length ++ body).drop
      (20 + (encodeAttributes attributes).length + 4)).take 20 = tag.toList := by
    have hsplit : setStunLength (makeStunHeader type txid) body.length ++ body =
        (setStunLength (makeStunHeader type txid) body.length ++ (encodeAttributes attributes ++
          (bytesBE 2 attrMessageIntegrity ++ bytesBE 2 20))) ++ (tag.toList ++
            encodeAttributes rest) := by
      rw [← hbody, hall]
      simp
    rw [hsplit, List.drop_left' (by simp [bytesBE]; omega), List.take_left' (by simp)]
  rw [verifyShortTermIntegrity, hfind]
  simp only [ne_eq, not_true_eq_false, if_false, hdrop, Nat.add_sub_cancel, htake]
  rw [if_neg (by simp; omega), if_neg (by omega), if_neg (by omega),
    setStunLength_append (by simp), decide_eq_true_iff, ← htag,
    show 20 + (encodeAttributes attributes).length - 20 + 4 + 20 =
      (encodeAttributes attributes).length + 24 by omega]

end Onegram.Stun
