import Mathlib.Tactic
import Onegram.DtlsLog

/-!
# What the log of a flight looks at

The headers of records and fragments are read where they are known to be. A fragment may run past
its record, which ends the walk after it was looked into; there nothing is compared but the length
the fragment declares for itself.
-/

namespace Onegram.DtlsLog

open Bytes

variable (data : Bytes)

/-! ## Values -/

def byteAt (p : ℕ) : UInt8 := data.getD p 0

def word16 (p : ℕ) : ℕ := (byteAt data p).toNat * 256 + (byteAt data (p + 1)).toNat

def word24 (p : ℕ) : ℕ :=
  (byteAt data p).toNat * 65536 + (byteAt data (p + 1)).toNat * 256 + (byteAt data (p + 2)).toNat

variable {data}

theorem get_byteAt {p : ℕ} (h : p < data.length) : data[p]? = some (byteAt data p) := by
  unfold byteAt
  rw [List.getD_eq_getElem _ _ h, List.getElem?_eq_getElem h]

theorem read16_eq {p : ℕ} (h : p + 1 < data.length) :
    ios6DtlsRead16 data p = some (word16 data p) := by
  unfold ios6DtlsRead16
  rw [get_byteAt (by omega : p < data.length), get_byteAt h]
  rfl

theorem read24_eq {p : ℕ} (h : p + 2 < data.length) :
    ios6DtlsRead24 data p = some (word24 data p) := by
  unfold ios6DtlsRead24
  rw [get_byteAt (by omega : p < data.length), get_byteAt (by omega : p + 1 < data.length),
    get_byteAt h]
  rfl

/-- A read that comes later fails as well. -/
theorem bind_isSome_false {α β : Type} (x : Option α) {f : α → Option β}
    (h : ∀ v, (f v).isSome = false) : (x >>= f).isSome = false := by
  cases x with
  | none => rfl
  | some v => exact h v

theorem one_isSome {α β : Type} (x : Option α) (g : α → β) :
    (x.bind fun a => some (g a)).isSome = x.isSome := by
  cases x <;> rfl

theorem both_isSome {α β γ : Type} (x : Option α) (y : Option β) (g : α → β → γ) :
    (x.bind fun a => y.bind fun b => some (g a b)).isSome ↔ x.isSome ∧ y.isSome := by
  cases x with
  | none => simp
  | some a => cases y <;> simp

/-! ## Fragments -/

variable (data)

/-- How many bytes of a `ServerHello` are looked at. -/
def neededServerHello (body fragmentLength : ℕ) : ℕ :=
  if 38 ≤ fragmentLength then
    if 38 + (byteAt data (body + 34)).toNat ≤ fragmentLength then
      38 + (byteAt data (body + 34)).toNat
    else 35
  else 0

/-- How many bytes of a `ServerKeyExchange` are looked at. -/
def neededServerKeyExchange (body fragmentLength : ℕ) : ℕ :=
  if 4 ≤ fragmentLength then
    max (min 80 fragmentLength)
      (if 8 + (byteAt data (body + 3)).toNat ≤ fragmentLength then
        8 + (byteAt data (body + 3)).toNat
      else 0)
  else 0

def neededBody (handshakeType : UInt8) (body fragmentLength : ℕ) : ℕ :=
  if handshakeType = 2 then neededServerHello data body fragmentLength
  else if handshakeType = 12 then neededServerKeyExchange data body fragmentLength
  else 0

variable {data}

theorem logServerHello_isSome (body fragmentLength : ℕ) (h : body ≤ data.length) :
    (logServerHello data body fragmentLength).isSome
      ↔ body + neededServerHello data body fragmentLength ≤ data.length := by
  unfold logServerHello neededServerHello
  by_cases hlong : 38 ≤ fragmentLength
  · rw [if_pos hlong, if_pos hlong]
    by_cases hid : body + 34 < data.length
    · rw [get_byteAt hid]
      simp only [Option.bind_eq_bind, Option.bind_some]
      by_cases hcipher : 35 + (byteAt data (body + 34)).toNat + 3 ≤ fragmentLength
      · rw [if_pos hcipher, if_pos (by omega)]
        by_cases hend : body + (38 + (byteAt data (body + 34)).toNat) ≤ data.length
        · rw [read16_eq (by omega), get_byteAt (by omega), get_byteAt (by omega : body < data.length),
            get_byteAt (by omega : body + 1 < data.length)]
          exact iff_of_true rfl hend
        · have hnone : data[body + (35 + (byteAt data (body + 34)).toNat) + 2]? = none :=
            List.getElem?_eq_none_iff.mpr (by omega)
          rw [hnone]
          refine iff_of_false ?_ hend
          rw [Bool.not_eq_true]
          exact bind_isSome_false _ fun _ => rfl
      · rw [if_neg hcipher, if_neg (by omega)]
        exact iff_of_true rfl (by omega)
    · rw [List.getElem?_eq_none_iff.mpr (by omega : data.length ≤ body + 34)]
      refine iff_of_false (by simp) ?_
      split_ifs <;> omega
  · rw [if_neg hlong, if_neg hlong]
    exact iff_of_true rfl h

theorem dump_isSome : ∀ (length p : ℕ), p ≤ data.length →
    ((dump data p length).isSome ↔ p + length ≤ data.length)
  | 0, p, h => iff_of_true rfl h
  | length + 1, p, h => by
    unfold dump
    by_cases hp : p < data.length
    · rw [get_byteAt hp]
      have ih := dump_isSome length (p + 1) hp
      simp only [Option.bind_eq_bind, Option.bind_some]
      rcases hdump : dump data (p + 1) length with _ | bytes
      · rw [hdump] at ih
        refine iff_of_false (by simp) fun hle => ?_
        exact absurd (ih.mpr (by omega)) (by simp)
      · rw [hdump] at ih
        exact iff_of_true rfl (by have := ih.mp rfl; omega)
    · rw [List.getElem?_eq_none_iff.mpr (not_lt.mp hp)]
      exact iff_of_false (by simp) (by omega)

theorem logSignature_isSome (body fragmentLength : ℕ) (publicKeyLength : UInt8)
    (h : body ≤ data.length) :
    (logSignature data body fragmentLength publicKeyLength).isSome
      ↔ body + (if 8 + publicKeyLength.toNat ≤ fragmentLength then 8 + publicKeyLength.toNat else 0)
        ≤ data.length := by
  unfold logSignature
  simp only []
  by_cases hfits : 8 + publicKeyLength.toNat ≤ fragmentLength
  · rw [if_pos (by omega), if_pos hfits]
    by_cases hend : body + (8 + publicKeyLength.toNat) ≤ data.length
    · rw [get_byteAt (by omega), get_byteAt (by omega), read16_eq (by omega)]
      exact iff_of_true rfl hend
    · refine iff_of_false ?_ hend
      rw [Bool.not_eq_true]
      refine bind_isSome_false _ fun _ => bind_isSome_false _ fun _ => ?_
      unfold ios6DtlsRead16
      rw [List.getElem?_eq_none_iff.mpr
        (by omega : data.length ≤ body + (4 + publicKeyLength.toNat + 2) + 1)]
      cases data[body + (4 + publicKeyLength.toNat + 2)]? <;> rfl
  · rw [if_neg (by omega), if_neg hfits]
    exact iff_of_true rfl h

theorem logServerKeyExchange_isSome (body fragmentLength : ℕ) (h : body ≤ data.length) :
    (logServerKeyExchange data body fragmentLength).isSome
      ↔ body + neededServerKeyExchange data body fragmentLength ≤ data.length := by
  unfold logServerKeyExchange neededServerKeyExchange
  by_cases hlong : 4 ≤ fragmentLength
  · rw [if_pos hlong, if_pos hlong]
    have hmin : 4 ≤ min 80 fragmentLength := by omega
    by_cases hhead : body + 3 < data.length
    · have hsignature := logSignature_isSome body fragmentLength (byteAt data (body + 3)) h
      have hdump := dump_isSome (min 80 fragmentLength) body h
      rw [get_byteAt (by omega : body < data.length), read16_eq (by omega), get_byteAt hhead]
      simp only [Option.bind_eq_bind, Option.bind_some]
      have hrest (firstPointByte : UInt8) :=
        both_isSome (logSignature data body fragmentLength (byteAt data (body + 3)))
          (dump data body (min 80 fragmentLength)) fun signature hex =>
            [Line.ske (byteAt data body) (word16 data (body + 1)) (byteAt data (body + 3))
                firstPointByte fragmentLength (4 + (byteAt data (body + 3)).toNat)]
              ++ signature ++ [Line.skeHex (min 80 fragmentLength) hex]
      have hmax : body + max (min 80 fragmentLength)
            (if 8 + (byteAt data (body + 3)).toNat ≤ fragmentLength then
              8 + (byteAt data (body + 3)).toNat else 0) ≤ data.length
          ↔ (logSignature data body fragmentLength (byteAt data (body + 3))).isSome
            ∧ (dump data body (min 80 fragmentLength)).isSome := by
        rw [hsignature, hdump]
        omega
      rw [hmax]
      by_cases hpoint : byteAt data (body + 3) ≠ 0 ∧ 5 ≤ fragmentLength
      · rw [if_pos hpoint]
        by_cases hfirst : body + 4 < data.length
        · rw [get_byteAt hfirst]
          exact hrest _
        · rw [List.getElem?_eq_none_iff.mpr (not_lt.mp hfirst)]
          exact iff_of_false (by simp) fun hboth => by
            have := hdump.mp hboth.2
            omega
      · rw [if_neg hpoint]
        exact hrest 0
    · refine iff_of_false ?_ (by omega)
      rw [Bool.not_eq_true]
      refine bind_isSome_false _ fun _ => bind_isSome_false _ fun _ => ?_
      rw [List.getElem?_eq_none_iff.mpr (not_lt.mp hhead)]
      rfl
  · rw [if_neg hlong, if_neg hlong]
    exact iff_of_true rfl h

theorem logBody_isSome (handshakeType : UInt8) (body fragmentLength : ℕ) (h : body ≤ data.length) :
    (logBody data handshakeType body fragmentLength).isSome
      ↔ body + neededBody data handshakeType body fragmentLength ≤ data.length := by
  unfold logBody neededBody
  split_ifs
  · exact logServerHello_isSome body fragmentLength h
  · exact logServerKeyExchange_isSome body fragmentLength h
  · exact iff_of_true rfl h

/-! ## The walk -/

section Walk

variable (data)

/-- The place of a fragment the walk comes to from `p`, in a record that ends at `recordEnd`. -/
inductive Visits (recordEnd : ℕ) : ℕ → ℕ → Prop
  | here {p : ℕ} : p + 12 ≤ recordEnd → Visits recordEnd p p
  | next {p q : ℕ} : p + 12 ≤ recordEnd → 0 < word24 data (p + 9) →
      p + 12 + word24 data (p + 9) ≤ recordEnd →
      Visits recordEnd (p + 12 + word24 data (p + 9)) q → Visits recordEnd p q

/-- Where the record at `offset` ends, as it is declared. -/
def recordEnd (offset : ℕ) : ℕ := offset + 13 + word16 data (offset + 11)

/-- The place of a whole record the walk comes to from `offset`. -/
inductive VisitsRecord : ℕ → ℕ → Prop
  | here {offset : ℕ} : offset + 13 ≤ data.length → recordEnd data offset ≤ data.length →
      VisitsRecord offset offset
  | next {offset record : ℕ} : offset + 13 ≤ data.length → recordEnd data offset ≤ data.length →
      VisitsRecord (recordEnd data offset) record → VisitsRecord offset record

/-- There is a fragment of a handshake at `p`. -/
def FragmentAt (p : ℕ) : Prop :=
  ∃ record, VisitsRecord data 0 record ∧ byteAt data record = 22
    ∧ Visits data (recordEnd data record) (record + 13) p

/-- What is looked at of the fragment at `p`, behind its header. -/
def needed (p : ℕ) : ℕ := neededBody data (byteAt data p) (p + 12) (word24 data (p + 9))

def Fits (p : ℕ) : Prop := p + 12 + needed data p ≤ data.length

variable {data}

theorem logHandshakes_isSome {recordEnd : ℕ} (hend : recordEnd ≤ data.length)
    (recordIndex handshakeIndex p : ℕ) :
    (logHandshakes data recordIndex recordEnd handshakeIndex p).isSome
      ↔ ∀ q, Visits data recordEnd p q → Fits data q := by
  induction hleft : recordEnd - p using Nat.strong_induction_on generalizing handshakeIndex p with
  | _ left ih =>
    rw [logHandshakes]
    by_cases h : p + 12 ≤ recordEnd
    · rw [dif_pos h, get_byteAt (by omega : p < data.length), read24_eq (by omega),
        read16_eq (by omega), read24_eq (by omega), read24_eq (by omega)]
      simp only [Option.bind_eq_bind, Option.bind_some]
      have hbody := logBody_isSome (byteAt data p) (p + 12) (word24 data (p + 9))
        (by omega : p + 12 ≤ data.length)
      rcases hlines : logBody data (byteAt data p) (p + 12) (word24 data (p + 9)) with _ | lines
      · rw [hlines] at hbody
        refine iff_of_false (by simp) fun hall => ?_
        exact absurd (hbody.mpr (hall p (.here h))) (by simp)
      · rw [hlines] at hbody
        have hfits : Fits data p := hbody.mp rfl
        rw [Option.bind_some]
        by_cases hstop : 12 + word24 data (p + 9) ≤ 12 ∨ recordEnd < p + (12 + word24 data (p + 9))
        · rw [dif_pos hstop]
          refine iff_of_true rfl fun q hvisits => ?_
          cases hvisits with
          | here => exact hfits
          | next => omega
        · have hrest := ih (recordEnd - (p + (12 + word24 data (p + 9)))) (by omega)
            (handshakeIndex + 1) (p + (12 + word24 data (p + 9))) rfl
          rw [dif_neg hstop]
          change ((logHandshakes data recordIndex recordEnd (handshakeIndex + 1)
            (p + (12 + word24 data (p + 9)))).bind fun rest => some (_ :: lines ++ rest)).isSome
              = true ↔ _
          rw [one_isSome, hrest, ← Nat.add_assoc]
          constructor
          · intro hall q hvisits
            cases hvisits with
            | here => exact hfits
            | next _ _ _ hlater => exact hall q hlater
          · exact fun hall q hvisits =>
              hall q (.next h (by omega) (by omega) hvisits)
    · rw [dif_neg h]
      refine iff_of_true rfl fun q hvisits => ?_
      cases hvisits <;> omega

theorem logRecords_isSome (recordIndex offset : ℕ) :
    (logRecords data recordIndex offset).isSome
      ↔ ∀ record, VisitsRecord data offset record → byteAt data record = 22 →
        ∀ q, Visits data (recordEnd data record) (record + 13) q → Fits data q := by
  induction hleft : data.length - offset using Nat.strong_induction_on
    generalizing recordIndex offset with
  | _ left ih =>
    rw [logRecords]
    by_cases h : offset + 13 ≤ data.length
    · rw [dif_pos h, get_byteAt (by omega : offset < data.length), get_byteAt (by omega),
        get_byteAt (by omega), read16_eq (by omega), read16_eq (by omega)]
      simp only [Option.bind_eq_bind, Option.bind_some]
      by_cases hlong : data.length < offset + 13 + word16 data (offset + 11)
      · rw [dif_pos hlong]
        refine iff_of_true rfl fun record hvisits => ?_
        cases hvisits with
        | here _ hend => exact absurd hend (not_le.mpr hlong)
        | next _ hend => exact absurd hend (not_le.mpr hlong)
      · have hend : recordEnd data offset ≤ data.length := not_lt.mp hlong
        have hrest := ih (data.length - recordEnd data offset) (by unfold recordEnd; omega)
          (recordIndex + 1) (recordEnd data offset) rfl
        have hinner := logHandshakes_isSome hend recordIndex 0 (offset + 13)
        rw [dif_neg hlong]
        by_cases htype : byteAt data offset = 22
        · rw [if_pos htype]
          change ((logHandshakes data recordIndex (recordEnd data offset) 0 (offset + 13)).bind
            fun lines => (logRecords data (recordIndex + 1) (recordEnd data offset)).bind
              fun rest => some (_ :: lines ++ rest)).isSome = true ↔ _
          rw [both_isSome, hinner, hrest]
          constructor
          · rintro ⟨hhere, hlater⟩ record hvisits
            cases hvisits with
            | here => exact fun _ => hhere
            | next _ _ hnext => exact hlater record hnext
          · exact fun hall => ⟨hall offset (.here h hend) htype,
              fun record hvisits => hall record (.next h hend hvisits)⟩
        · rw [if_neg htype]
          change ((logRecords data (recordIndex + 1) (recordEnd data offset)).bind
            fun rest => some (_ :: [] ++ rest)).isSome = true ↔ _
          rw [one_isSome, hrest]
          constructor
          · intro hlater record hvisits
            cases hvisits with
            | here => exact fun hhere => absurd hhere htype
            | next _ _ hnext => exact hlater record hnext
          · exact fun hall record hvisits => hall record (.next h hend hvisits)
    · rw [dif_neg h]
      refine iff_of_true rfl fun record hvisits => ?_
      cases hvisits <;> omega

end Walk

/-- Every read is inside the datagram exactly when what is looked at of each fragment is. -/
theorem logFlight_inside_iff (data : Bytes) :
    (ios6DtlsLogFlight data).isSome ↔ ∀ p, FragmentAt data p → Fits data p := by
  unfold ios6DtlsLogFlight
  by_cases hempty : data.length = 0
  · rw [if_pos hempty]
    refine iff_of_true rfl ?_
    rintro p ⟨record, hvisits, -, -⟩
    cases hvisits <;> omega
  · rw [if_neg hempty, logRecords_isSome]
    constructor
    · rintro hall p ⟨record, hvisits, htype, hp⟩
      exact hall record hvisits htype p hp
    · exact fun hall record hvisits htype p hp => hall p ⟨record, hvisits, htype, hp⟩

theorem needed_le (data : Bytes) (p : ℕ) : needed data p ≤ word24 data (p + 9) := by
  unfold needed neededBody neededServerHello neededServerKeyExchange
  split_ifs <;> omega

/-- Only a fragment that runs past its record can be looked at past the datagram. -/
theorem fits_of_whole {recordEnd p : ℕ} (hend : recordEnd ≤ data.length)
    (hwhole : p + 12 + word24 data (p + 9) ≤ recordEnd) : Fits data p := by
  have hneeded := needed_le data p
  unfold Fits
  omega

/-- A record with the header of a `ServerHello` of 38 bytes, which are not there. -/
theorem serverHello_outside :
    ios6DtlsLogFlight ([22, 254, 253, 0, 0, 0, 0, 0, 0, 0, 0, 0, 12]
      ++ [2, 0, 0, 38, 0, 0, 0, 0, 0, 0, 0, 38]) = none := by
  decide +kernel

end Onegram.DtlsLog
