import Mathlib.Tactic

/-!
# UTF-16 code units

Strings as sequences of 16-bit code units, and the characters they spell. A sequence spells
characters when every surrogate in it stands in a pair (`ofUtf16`); writing those characters as
code units gives the sequence back (`toUtf16_of_ofUtf16`).
-/

namespace Utf16

def isSurrogate (u : UInt16) : Bool := 0xD800 ≤ u.toNat && u.toNat < 0xE000

def isPair (u v : UInt16) : Bool :=
  0xD800 ≤ u.toNat && u.toNat < 0xDC00 && 0xDC00 ≤ v.toNat && v.toNat < 0xE000

def pairValue (u v : UInt16) : ℕ := 0x10000 + (u.toNat - 0xD800) * 0x400 + (v.toNat - 0xDC00)

/-- The characters a sequence of code units spells, `none` where a surrogate has no partner. -/
def ofUtf16 : List UInt16 → Option (List Char)
  | [] => some []
  | [u] => if isSurrogate u then none else some [Char.ofNat u.toNat]
  | u :: v :: rest =>
    if isPair u v then (ofUtf16 rest).map (Char.ofNat (pairValue u v) :: ·)
    else if isSurrogate u then none
    else (ofUtf16 (v :: rest)).map (Char.ofNat u.toNat :: ·)

/-- The code units of one character. -/
def units (c : Char) : List UInt16 :=
  if c.toNat < 0x10000 then [UInt16.ofNat c.toNat]
  else [UInt16.ofNat (0xD800 + (c.toNat - 0x10000) / 0x400),
    UInt16.ofNat (0xDC00 + (c.toNat - 0x10000) % 0x400)]

def toUtf16 (cs : List Char) : List UInt16 := cs.flatMap units

theorem toNat_ofNat {n : ℕ} (h : n.isValidChar) : (Char.ofNat n).toNat = n := by
  rw [Char.ofNat, dif_pos h]
  rfl

theorem units_single {u : UInt16} (h : isSurrogate u = false) :
    units (Char.ofNat u.toNat) = [u] := by
  have hu := u.toNat_lt
  have hv : u.toNat.isValidChar := by
    simp only [isSurrogate, Bool.and_eq_false_iff, decide_eq_false_iff_not] at h
    simp only [Nat.isValidChar]
    omega
  rw [units, toNat_ofNat hv, if_pos (by omega), UInt16.ofNat_toNat]

theorem isValidChar_of_le {n : ℕ} (h : 0x10000 ≤ n) (h' : n < 0x110000) : n.isValidChar := by
  simp only [Nat.isValidChar]
  omega

theorem pairValue_bounds {u v : UInt16} (h : isPair u v = true) :
    0x10000 ≤ pairValue u v ∧ pairValue u v < 0x110000 ∧
      0xD800 + (pairValue u v - 0x10000) / 0x400 = u.toNat ∧
      0xDC00 + (pairValue u v - 0x10000) % 0x400 = v.toNat := by
  simp only [isPair, Bool.and_eq_true, decide_eq_true_eq] at h
  unfold pairValue
  generalize u.toNat = a at h ⊢
  generalize v.toNat = b at h ⊢
  omega

theorem units_pair {u v : UInt16} (h : isPair u v = true) :
    units (Char.ofNat (pairValue u v)) = [u, v] := by
  obtain ⟨hlow, hhigh, hu, hv⟩ := pairValue_bounds h
  rw [units, toNat_ofNat (isValidChar_of_le hlow hhigh), if_neg (not_lt.2 hlow), hu, hv,
    UInt16.ofNat_toNat, UInt16.ofNat_toNat]

theorem toUtf16_of_ofUtf16 :
    ∀ {s : List UInt16} {cs : List Char}, ofUtf16 s = some cs → toUtf16 cs = s
  | [], cs, h => by
    obtain rfl : [] = cs := by simpa [ofUtf16] using h
    rfl
  | [u], cs, h => by
    simp only [ofUtf16] at h
    split_ifs at h with hu
    obtain rfl : [Char.ofNat u.toNat] = cs := by simpa using h
    simp [toUtf16, units_single (by simpa using hu)]
  | u :: v :: rest, cs, h => by
    simp only [ofUtf16] at h
    split_ifs at h with hp hu
    · obtain ⟨cs', hrest, rfl⟩ := Option.map_eq_some_iff.1 h
      have ih := toUtf16_of_ofUtf16 hrest
      simp only [toUtf16, List.flatMap_cons, units_pair hp] at ih ⊢
      rw [ih]
      rfl
    · obtain ⟨cs', hrest, rfl⟩ := Option.map_eq_some_iff.1 h
      have ih := toUtf16_of_ofUtf16 hrest
      simp only [toUtf16, List.flatMap_cons, units_single (by simpa using hu)] at ih ⊢
      rw [ih]
      rfl

end Utf16
