import Onegram.Lib.Bytes

/-!
# HMAC and HKDF

The keyed hash over any hash function with a block size, and the key derivation of RFC 5869 over any
keyed hash: a key is extracted, and each block of the output comes from the one before it.
-/

namespace Hkdf

/-- HMAC over a hash with blocks of `B` bytes: a key that is too long is hashed first. -/
def hmac (H : Bytes → Bytes) (B : ℕ) (key msg : Bytes) : Bytes :=
  let key := if B < key.length then H key else key
  let key := key ++ List.replicate (B - key.length) 0
  H (key.map (· ^^^ 0x5c) ++ H (key.map (· ^^^ 0x36) ++ msg))

/-- `T(i)` of the expansion. -/
def T (mac : Bytes → Bytes → Bytes) (prk info : Bytes) : ℕ → Bytes
  | 0 => []
  | i + 1 => mac prk (T mac prk info i ++ info ++ [UInt8.ofNat (i + 1)])

/-- The first `n` blocks derived from `ikm` under `salt`. -/
def derive (mac : Bytes → Bytes → Bytes) (salt ikm info : Bytes) (n : ℕ) : List Bytes :=
  (List.range n).map fun i => T mac (mac salt ikm) info (i + 1)

@[simp] theorem length_derive (mac : Bytes → Bytes → Bytes) (salt ikm info : Bytes) (n : ℕ) :
    (derive mac salt ikm info n).length = n := by simp [derive]

section Outputs

variable (mac : Bytes → Bytes → Bytes) (salt ikm : Bytes)

theorem derive_one : derive mac salt ikm [] 1 = [mac (mac salt ikm) [1]] := rfl

theorem derive_two : derive mac salt ikm [] 2
    = [mac (mac salt ikm) [1], mac (mac salt ikm) (mac (mac salt ikm) [1] ++ [2])] := by
  simp [derive, T, List.range_succ]

theorem derive_three : derive mac salt ikm [] 3
    = [mac (mac salt ikm) [1], mac (mac salt ikm) (mac (mac salt ikm) [1] ++ [2]),
      mac (mac salt ikm) (mac (mac salt ikm) (mac (mac salt ikm) [1] ++ [2]) ++ [3])] := by
  simp [derive, T, List.range_succ]

end Outputs

/-- Fewer outputs are the first ones of more. -/
theorem derive_prefix (mac : Bytes → Bytes → Bytes) (salt ikm info : Bytes) {n k : ℕ} (h : n ≤ k) :
    derive mac salt ikm info n <+: derive mac salt ikm info k := by
  obtain ⟨j, rfl⟩ := Nat.exists_eq_add_of_le h
  refine ⟨(List.range j).map fun i => T mac (mac salt ikm) info (n + i + 1), ?_⟩
  rw [derive, derive, List.range_add, List.map_append, List.map_map]
  rfl

end Hkdf
