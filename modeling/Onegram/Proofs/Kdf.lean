import Onegram.Lib.Hkdf
import Onegram.Crypto.Kdf
import Onegram.Crypto.Primitives

/-!
# The key derivation is HKDF, whatever its outputs overwrite

The hash of several parts is that of the parts joined, so HMAC and the derivation are the general
ones over BLAKE2s. The chaining key and the data have been read before the first output is written,
and the later outputs come from local arrays.
-/

namespace Onegram

/-! ## HMAC -/

theorem length_BLAKE2s {nn : ℕ} (h : nn ≤ 32) (key msg : Bytes) :
    (Rfc7693.BLAKE2s nn key msg).length = nn := by
  have hwords : ∀ l : List UInt32, (l.flatMap fun w => Bytes.bytesLE 4 w.toNat).length
      = 4 * l.length := by
    intro l
    induction l with
    | nil => rfl
    | cons w l ih =>
      rw [List.flatMap_cons, List.length_append, ih, Bytes.length_bytesLE, List.length_cons]
      omega
  rw [Rfc7693.BLAKE2s, List.length_take, hwords, Vector.length_toList]
  omega

theorem blake2s_parts_eq (parts : List Bytes) :
    (blake2s_parts parts).toList = Rfc7693.BLAKE2s 32 [] parts.flatten := by
  have hkey : ([] : Bytes).length ≤ 32 := by norm_num
  have hdigest := digest_eq 32 hkey parts
  have hstart : (Rfc7693.keyBlock [] :: parts).foldl nw_blake2s_update (blake2s_param 32 0)
      = parts.foldl nw_blake2s_update (blake2s_param 32 0) := by
    have hnil : Rfc7693.keyBlock [] = [] := rfl
    rw [List.foldl_cons, hnil, nw_blake2s_update, if_pos List.length_nil]
  rw [List.length_nil, hstart] at hdigest
  rw [blake2s_parts, nw_blake2s_init, if_neg (by norm_num)]
  show (Bytes.slice ((nw_blake2s_final (parts.foldl nw_blake2s_update (blake2s_param 32 0))
    32).getD []) 0 32).toList = _
  rw [hdigest, Option.getD_some, Bytes.toList_slice_self _ (length_BLAKE2s le_rfl _ _)]

/-- WireGuard's keyed hash. -/
def hmacBlake2s : Bytes → Bytes → Bytes := Hkdf.hmac (Rfc7693.BLAKE2s 32 []) 64

theorem nw_hmac_blake2s_eq (key data : Bytes) :
    (nw_hmac_blake2s key data).toList = hmacBlake2s key data := by
  have hlong : (nw_blake2s 32 key []).getD [] = Rfc7693.BLAKE2s 32 [] key := by
    rw [nw_blake2s_eq, if_neg (by simp)]
    rfl
  set k₀ := if 64 < key.length then Rfc7693.BLAKE2s 32 [] key else key with hk₀
  have hlen : k₀.length ≤ 64 := by
    rw [hk₀]
    split_ifs with h
    · rw [length_BLAKE2s le_rfl]
      norm_num
    · omega
  have hk : (if 64 < key.length then
        Bytes.blit (Bytes.zeros 64) 0 ((nw_blake2s 32 key []).getD [])
      else Bytes.blit (Bytes.zeros 64) 0 key) = Bytes.blit (Bytes.zeros 64) 0 k₀ := by
    rw [hlong, hk₀]
    split_ifs <;> rfl
  rw [nw_hmac_blake2s, hk]
  simp only [blake2s_parts_eq, Vector.toList_map, toList_blit_zeros hlen, List.flatten_cons,
    List.flatten_nil, List.append_nil]
  rfl

/-! ## The derivation -/

/-- The outputs of WireGuard's `KDF`, `n` of them. -/
def kdfBlake2s (key input : Bytes) (n : ℕ) : List Bytes :=
  Hkdf.derive hmacBlake2s key input [] n

theorem nw_kdf_eq (chaining_key : Key) (data : Bytes) :
    [(nw_kdf chaining_key data).out1.toList, (nw_kdf chaining_key data).out2.toList,
      (nw_kdf chaining_key data).out3.toList] = kdfBlake2s chaining_key.toList data 3 := by
  rw [nw_kdf, kdfBlake2s, Hkdf.derive_three]
  simp only [nw_hmac_blake2s_eq]

/-- The call on buffers writes the outputs one after the other. -/
theorem nw_kdf_buffers_eq (mem : Memory UInt8) {outs : List ℕ} (hlen : outs.length ≤ 3)
    (chaining_key data datalen : ℕ) :
    nw_kdf_buffers mem outs[0]? outs[1]? outs[2]? chaining_key data datalen
      = mem.writeAll (outs.zip
        (kdfBlake2s (mem.read chaining_key 32) (mem.read data datalen) outs.length)) := by
  simp only [nw_kdf_buffers, kdfBlake2s]
  rcases outs with _ | ⟨out1, _ | ⟨out2, _ | ⟨out3, _ | ⟨out4, outs⟩⟩⟩⟩
  · simp [copy_out, Memory.writeAll]
  · simp [copy_out, Memory.writeAll, Hkdf.derive_one, nw_hmac_blake2s_eq]
  · simp [copy_out, Memory.writeAll, Hkdf.derive_two, nw_hmac_blake2s_eq]
  · simp [copy_out, Memory.writeAll, Hkdf.derive_three, nw_hmac_blake2s_eq]
  · simp only [List.length_cons] at hlen
    omega

theorem length_hmacBlake2s (key msg : Bytes) : (hmacBlake2s key msg).length = 32 :=
  length_BLAKE2s le_rfl _ _

theorem length_of_mem_kdfBlake2s {key input : Bytes} {n : ℕ} {b : Bytes}
    (h : b ∈ kdfBlake2s key input n) : b.length = 32 := by
  obtain ⟨i, _, rfl⟩ := List.mem_map.mp h
  exact length_hmacBlake2s _ _

/-- What a call leaves in its outputs and around them. -/
theorem read_outputs (mem : Memory UInt8) {outs : List ℕ} (hlen : outs.length ≤ 3)
    (hapart : outs.Pairwise fun p q => Memory.Apart p 32 q 32) (chaining_key data datalen : ℕ) :
    let mem' := nw_kdf_buffers mem outs[0]? outs[1]? outs[2]? chaining_key data datalen
    outs.map (fun p => mem'.read p 32)
        = kdfBlake2s (mem.read chaining_key 32) (mem.read data datalen) outs.length
      ∧ ∀ a, (∀ p ∈ outs, ¬(p ≤ a ∧ a < p + 32)) → mem' a = mem a := by
  intro mem'
  have hmem' := nw_kdf_buffers_eq mem hlen chaining_key data datalen
  set derived := kdfBlake2s (mem.read chaining_key 32) (mem.read data datalen) outs.length
  have hderived : derived.length = outs.length := Hkdf.length_derive _ _ _ _ _
  have hwidth : ∀ e ∈ outs.zip derived, e.2.length = 32 := fun e he =>
    length_of_mem_kdfBlake2s (List.of_mem_zip he).2
  have hzip : (outs.zip derived).Pairwise
      fun e e' => Memory.Apart e.1 e.2.length e'.1 e'.2.length := by
    have hfst : (outs.zip derived).Pairwise fun e e' => Memory.Apart e.1 32 e'.1 32 := by
      have hmap : (outs.zip derived).map Prod.fst = outs := List.map_fst_zip hderived.ge
      rw [← hmap] at hapart
      exact List.pairwise_map.mp hapart
    refine hfst.imp_of_mem fun he he' h => ?_
    rwa [hwidth _ he, hwidth _ he']
  constructor
  · have hread : (outs.zip derived).map (fun e => mem'.read e.1 32)
        = (outs.zip derived).map Prod.snd := by
      apply List.map_congr_left
      intro e he
      have hback := Memory.read_writeAll mem hzip e he
      rwa [hwidth e he, ← hmem'] at hback
    rw [List.map_snd_zip hderived.le, ← Function.comp_def (fun p => mem'.read p 32) Prod.fst,
      ← List.map_map, List.map_fst_zip hderived.ge] at hread
    exact hread
  · intro a ha
    show nw_kdf_buffers mem outs[0]? outs[1]? outs[2]? chaining_key data datalen a = mem a
    rw [hmem']
    refine Memory.writeAll_of_notMem fun e he => ?_
    rw [hwidth e he]
    exact ha e.1 (List.of_mem_zip he).1

/-- With the outputs apart from each other, wherever they lie on the inputs, a call leaves HKDF's
outputs of the inputs as they were before it, and nothing else changes; a call with fewer outputs
leaves the first of those that a call with more leaves. -/
theorem kdf_overwriting (mem : Memory UInt8) (chaining_key data datalen : ℕ) {outs outs' : List ℕ}
    (hle : outs.length ≤ outs'.length) (hlen : outs'.length ≤ 3)
    (hapart : outs.Pairwise fun p q => Memory.Apart p 32 q 32)
    (hapart' : outs'.Pairwise fun p q => Memory.Apart p 32 q 32) :
    let mem₁ := nw_kdf_buffers mem outs[0]? outs[1]? outs[2]? chaining_key data datalen
    let mem₂ := nw_kdf_buffers mem outs'[0]? outs'[1]? outs'[2]? chaining_key data datalen
    outs.map (fun p => mem₁.read p 32)
        = kdfBlake2s (mem.read chaining_key 32) (mem.read data datalen) outs.length
      ∧ (∀ a, (∀ p ∈ outs, ¬(p ≤ a ∧ a < p + 32)) → mem₁ a = mem a)
      ∧ outs.map (fun p => mem₁.read p 32) <+: outs'.map (fun p => mem₂.read p 32) := by
  obtain ⟨hread, hframe⟩ := read_outputs mem (hle.trans hlen) hapart chaining_key data datalen
  obtain ⟨hread', _⟩ := read_outputs mem hlen hapart' chaining_key data datalen
  refine ⟨hread, hframe, ?_⟩
  rw [hread, hread']
  exact Hkdf.derive_prefix _ _ _ _ hle

/-- The handshake's call: the chaining key is the first output. -/
theorem kdf_overwriting_chaining_key :
    let mem : Memory UInt8 := fun a => UInt8.ofNat a
    let mem₁ := nw_kdf_buffers mem [0, 40][0]? [0, 40][1]? [0, 40][2]? 0 80 32
    let mem₂ := nw_kdf_buffers mem [0, 40, 80][0]? [0, 40, 80][1]? [0, 40, 80][2]? 0 80 32
    [0, 40].map (fun p => mem₁.read p 32)
        = kdfBlake2s (mem.read 0 32) (mem.read 80 32) [0, 40].length
      ∧ (∀ a, (∀ p ∈ [0, 40], ¬(p ≤ a ∧ a < p + 32)) → mem₁ a = mem a)
      ∧ [0, 40].map (fun p => mem₁.read p 32) <+: [0, 40, 80].map (fun p => mem₂.read p 32) :=
  kdf_overwriting (fun a => UInt8.ofNat a) 0 80 32 (by decide) (by decide) (by decide) (by decide)

end Onegram
