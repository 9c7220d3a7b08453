import Onegram.Crypto.Primitives

/-!
# Decryption inverts encryption

The key stream depends on the key, the nonce and the position only, so applying it twice gives
the bytes back, and the tag of a ciphertext is recomputed from the very bytes it was computed
from.
-/

namespace Onegram

/-! ## The key stream -/

/-- A block of the key stream applied to the bytes it covers. -/
def chacha20_mask (st : Vector UInt32 16) (b : Bytes) : Bytes :=
  b.mapIdx fun i x => x ^^^ chacha20_ks (chacha20_block st) i

@[simp] theorem length_chacha20_mask (st : Vector UInt32 16) (b : Bytes) :
    (chacha20_mask st b).length = b.length := by
  simp [chacha20_mask]

theorem chacha20_mask_mask (st : Vector UInt32 16) (b : Bytes) :
    chacha20_mask st (chacha20_mask st b) = b := by
  apply List.ext_getElem
  · simp
  · intro i h₁ h₂
    simp only [chacha20_mask, List.getElem_mapIdx]
    exact Bytes.xor_cancel ..

theorem chacha20_loop_nil (st : Vector UInt32 16) : chacha20_loop st [] = [] := by
  rw [chacha20_loop]
  simp

@[simp] theorem length_chacha20_loop (st : Vector UInt32 16) (b : Bytes) :
    (chacha20_loop st b).length = b.length := by
  induction st, b using chacha20_loop.induct with
  | case1 st b h =>
    rw [List.length_eq_zero_iff] at h
    rw [h, chacha20_loop_nil]
  | case2 st b h ih =>
    rw [chacha20_loop_of_ne h, ← chacha20_mask, List.length_append, length_chacha20_mask, ih]
    simp
    omega

/-- Masking twice from one state is the identity, whatever the length. -/
theorem chacha20_loop_loop (st : Vector UInt32 16) (b : Bytes) :
    chacha20_loop st (chacha20_loop st b) = b := by
  induction st, b using chacha20_loop.induct with
  | case1 st b h =>
    rw [List.length_eq_zero_iff] at h
    rw [h, chacha20_loop_nil, chacha20_loop_nil]
  | case2 st b h ih =>
    set rest := chacha20_loop (st.set 12 (st[12] + 1)) (b.drop 64) with hrest
    have hout : chacha20_loop st b = chacha20_mask st (b.take 64) ++ rest :=
      chacha20_loop_of_ne h
    -- The first block is full, or nothing follows it.
    have hsplit : (chacha20_mask st (b.take 64)).length = 64 ∨ rest = [] := by
      by_cases hb : 64 ≤ b.length
      · left; simp; omega
      · right
        rw [hrest, List.drop_of_length_le (by omega), chacha20_loop_nil]
    have htake : (chacha20_loop st b).take 64 = chacha20_mask st (b.take 64) := by
      rw [hout]
      rcases hsplit with hl | hr
      · rw [List.take_append_of_le_length (by omega), List.take_of_length_le (by omega)]
      · rw [hr, List.append_nil, List.take_of_length_le (by simp)]
    have hdrop : (chacha20_loop st b).drop 64 = rest := by
      rw [hout]
      rcases hsplit with hl | hr
      · exact List.drop_left' hl
      · rw [hr, List.append_nil, List.drop_of_length_le (by simp)]
    have hlen : (chacha20_loop st b).length ≠ 0 := by simpa using h
    rw [chacha20_loop_of_ne hlen, htake, hdrop, ← chacha20_mask, chacha20_mask_mask, ih,
      List.take_append_drop]

theorem nw_chacha20_xor_xor (b : Bytes) (key : Key) (nonce : Nonce) (counter : UInt32) :
    nw_chacha20_xor (nw_chacha20_xor b key nonce counter) key nonce counter = b :=
  chacha20_loop_loop _ _

@[simp] theorem length_nw_chacha20_xor (b : Bytes) (key : Key) (nonce : Nonce)
    (counter : UInt32) : (nw_chacha20_xor b key nonce counter).length = b.length :=
  length_chacha20_loop _ _

/-! ## The tag -/

theorem foldl_or_eq_zero : ∀ {l : List UInt8} {x : UInt8},
    l.foldl (· ||| ·) x = 0 ↔ x = 0 ∧ ∀ y ∈ l, y = 0
  | [], x => by simp
  | y :: l, x => by
    rw [List.foldl_cons, foldl_or_eq_zero, UInt8.or_eq_zero_iff, List.forall_mem_cons, and_assoc]

theorem zipWith_xor_eq_zero : ∀ {a b : Bytes}, a.length = b.length →
    ((∀ y ∈ List.zipWith (· ^^^ ·) a b, y = 0) ↔ a = b)
  | [], [], _ => by simp
  | x :: a, y :: b, hlen => by
    rw [List.zipWith_cons_cons, List.forall_mem_cons, UInt8.xor_eq_zero_iff,
      zipWith_xor_eq_zero (Nat.succ.inj hlen), List.cons.injEq]

theorem tag_diff_eq_zero_iff {a b : Bytes} (hlen : a.length = b.length) :
    tag_diff a b = 0 ↔ a = b := by
  rw [tag_diff, foldl_or_eq_zero, and_iff_right rfl, zipWith_xor_eq_zero hlen]

theorem tag_diff_self (tag : Bytes) : tag_diff tag tag = 0 :=
  (tag_diff_eq_zero_iff rfl).mpr rfl

/-! ## The AEAD -/

@[simp] theorem length_encrypt (plain aad : Bytes) (key : Key) (nonce : Nonce) :
    (nw_chacha20poly1305_encrypt plain aad key nonce).length = plain.length + 16 := by
  simp [nw_chacha20poly1305_encrypt]

/-- What was encrypted is decrypted, for every key, nonce, associated data and plaintext. -/
theorem decrypt_encrypt (plain aad : Bytes) (key : Key) (nonce : Nonce) :
    nw_chacha20poly1305_decrypt (nw_chacha20poly1305_encrypt plain aad key nonce) aad key nonce
      = some plain := by
  set out := nw_chacha20_xor plain key nonce 1 with hout
  set tag := aead_mac aad out key nonce with htag
  have henc : nw_chacha20poly1305_encrypt plain aad key nonce = out ++ tag.toList := by
    rw [nw_chacha20poly1305_encrypt]
  have hlen : (out ++ tag.toList).length - 16 = out.length := by simp
  unfold nw_chacha20poly1305_decrypt
  rw [henc, if_neg (by simp)]
  simp only [hlen, List.take_left, List.drop_left]
  rw [← htag, tag_diff_self, if_neg (by simp), hout, nw_chacha20_xor_xor]

/-- A ciphertext opens under one tag at most. -/
theorem decrypt_tag_unique {out tag tag' aad : Bytes} {key : Key} {nonce : Nonce}
    (htag : tag.length = 16) (htag' : tag'.length = 16)
    (h : nw_chacha20poly1305_decrypt (out ++ tag) aad key nonce ≠ none)
    (h' : nw_chacha20poly1305_decrypt (out ++ tag') aad key nonce ≠ none) : tag = tag' := by
  have hright : ∀ {tag : Bytes}, tag.length = 16 →
      nw_chacha20poly1305_decrypt (out ++ tag) aad key nonce ≠ none →
      (aead_mac aad out key nonce).toList = tag := by
    intro tag htag h
    have hlen : (out ++ tag).length - 16 = out.length := by simp [htag]
    unfold nw_chacha20poly1305_decrypt at h
    rw [if_neg (by simp [htag])] at h
    simp only [hlen, List.take_left, List.drop_left] at h
    split_ifs at h with hdiff
    · exact absurd rfl h
    · exact (tag_diff_eq_zero_iff (by simp [htag])).mp (not_not.mp hdiff)
  exact (hright htag h).symm.trans (hright htag' h')

end Onegram
