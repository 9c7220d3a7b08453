import Onegram.Crypto.Primitives
import Onegram.Proofs.ChaChaPoly

/-!
# The AEAD opens exactly what it seals

A ciphertext opens as a plaintext exactly when it is that plaintext sealed. On buffers each pass
reads a byte before it is overwritten, in place too, so the calls do what they do on byte strings;
a call that fails has written nothing.
-/

namespace Onegram

/-! ## On byte strings -/

theorem decrypt_append (body : Bytes) {tag : Bytes} (htag : tag.length = 16) (aad : Bytes)
    (key : Key) (nonce : Nonce) :
    nw_chacha20poly1305_decrypt (body ++ tag) aad key nonce
      = if tag_diff (aead_mac aad body key nonce).toList tag ≠ 0 then none
        else some (nw_chacha20_xor body key nonce 1) := by
  have hlen : (body ++ tag).length - 16 = body.length := by simp [htag]
  unfold nw_chacha20poly1305_decrypt
  rw [if_neg (by simp [htag])]
  simp only [hlen, List.take_left, List.drop_left]

/-- A ciphertext opens exactly as what it is the sealing of. -/
theorem decrypt_eq_some_iff {cipher plain aad : Bytes} {key : Key} {nonce : Nonce} :
    nw_chacha20poly1305_decrypt cipher aad key nonce = some plain
      ↔ cipher = nw_chacha20poly1305_encrypt plain aad key nonce := by
  constructor
  · intro h
    have hlen : ¬cipher.length < 16 := by
      intro hlt
      rw [nw_chacha20poly1305_decrypt, if_pos hlt] at h
      exact absurd h (by simp)
    set body := cipher.take (cipher.length - 16) with hbody
    have hlen' : (cipher.drop (cipher.length - 16)).length = 16 := by simp; omega
    rw [← List.take_append_drop (cipher.length - 16) cipher, ← hbody, decrypt_append _ hlen'] at h
    split_ifs at h with hdiff
    have htag := (tag_diff_eq_zero_iff (by simp [hlen'])).mp (not_not.mp hdiff)
    rw [← Option.some.inj h, nw_chacha20poly1305_encrypt]
    simp only [nw_chacha20_xor_xor]
    rw [htag, hbody, List.take_append_drop]
  · rintro rfl
    exact decrypt_encrypt plain aad key nonce

theorem encrypt_injective {plain plain' aad : Bytes} {key : Key} {nonce : Nonce}
    (h : nw_chacha20poly1305_encrypt plain aad key nonce
      = nw_chacha20poly1305_encrypt plain' aad key nonce) : plain = plain' := by
  have h₁ := decrypt_encrypt plain aad key nonce
  rw [h, decrypt_encrypt] at h₁
  exact (Option.some.inj h₁).symm

/-! ## On buffers -/

theorem chacha20_xor_block_eq (blk : Vector UInt32 16) (mem : Memory UInt8) {out inp n : ℕ}
    (h : out ≤ inp ∨ inp + n ≤ out) :
    chacha20_xor_block blk mem out inp n
      = mem.write out ((mem.read inp n).mapIdx fun i b => b ^^^ chacha20_ks blk i) :=
  Memory.foldl_write_eq (fun i b => b ^^^ chacha20_ks blk i) mem h

theorem chacha20_xor_loop_eq (st : Vector UInt32 16) (mem : Memory UInt8) {out inp len : ℕ}
    (h : out ≤ inp ∨ inp + len ≤ out) :
    chacha20_xor_loop st mem out inp len = mem.write out (chacha20_loop st (mem.read inp len)) := by
  induction st, mem, out, inp, len using chacha20_xor_loop.induct with
  | case1 st mem out inp len hpos n ih =>
    have hn : n = min 64 len := by
      show (if len < 64 then len else 64) = min 64 len
      split_ifs <;> omega
    have hsplit : mem.read inp len = mem.read inp n ++ mem.read (inp + n) (len - n) :=
      Memory.read_eq_append (by omega)
    have htake : (mem.read inp len).take 64 = mem.read inp n := by
      rw [hsplit, List.take_append, List.take_of_length_le (by simp; omega), Memory.length_read]
      rcases le_total len 64 with hle | hle
      · rw [show len - n = 0 by omega]
        simp [Memory.read]
      · rw [show 64 - n = 0 by omega, List.take_zero, List.append_nil]
    have hdrop : (mem.read inp len).drop 64 = mem.read (inp + n) (len - n) := by
      rw [hsplit, List.drop_append, List.drop_of_length_le (by simp; omega), Memory.length_read,
        List.nil_append]
      rcases le_total len 64 with hle | hle
      · rw [show len - n = 0 by omega]
        simp [Memory.read]
      · rw [show 64 - n = 0 by omega, List.drop_zero]
    have hne : (mem.read inp len).length ≠ 0 := by simp; omega
    have hunread : (chacha20_xor_block (chacha20_block st) mem out inp n).read (inp + n) (len - n)
        = mem.read (inp + n) (len - n) := by
      rw [chacha20_xor_block_eq _ _ (by omega)]
      apply Memory.read_write_of_apart
      rw [List.length_mapIdx, Memory.length_read, Memory.Apart]
      omega
    rw [chacha20_xor_loop, if_pos hpos]
    show chacha20_xor_loop _ (chacha20_xor_block (chacha20_block st) mem out inp n) (out + n)
      (inp + n) (len - n) = _
    rw [ih (by omega), hunread, chacha20_xor_block_eq _ _ (by omega), chacha20_loop_of_ne hne, htake,
      hdrop, Memory.write_append, List.length_mapIdx, Memory.length_read]
  | case2 st mem out inp len hpos =>
    have hzero : len = 0 := by omega
    rw [chacha20_xor_loop, if_neg hpos, hzero]
    simp [Memory.read, chacha20_loop_nil]

theorem nw_chacha20_xor_buffers_eq (mem : Memory UInt8) {out inp len : ℕ} (key nonce : ℕ)
    (counter : UInt32) (h : out ≤ inp ∨ inp + len ≤ out) :
    nw_chacha20_xor_buffers mem out inp len key nonce counter
      = mem.write out (nw_chacha20_xor (mem.read inp len) (readKey mem key) (readNonce mem nonce)
        counter) :=
  chacha20_xor_loop_eq _ mem h

section Calls

variable (mem : Memory UInt8) {out inp len aad aadlen key nonce : ℕ}

/-- Writing to the output changes none of the inputs that the calls read afterwards. -/
theorem inputs_write {b : Bytes} (haad : Memory.Apart aad aadlen out b.length)
    (hkey : Memory.Apart key 32 out b.length) (hnonce : Memory.Apart nonce 12 out b.length) :
    (mem.write out b).read aad aadlen = mem.read aad aadlen
      ∧ readKey (mem.write out b) key = readKey mem key
      ∧ readNonce (mem.write out b) nonce = readNonce mem nonce := by
  refine ⟨Memory.read_write_of_apart haad, ?_, ?_⟩
  · rw [readKey, Memory.read_write_of_apart hkey, readKey]
  · rw [readNonce, Memory.read_write_of_apart hnonce, readNonce]

theorem encrypt_buffers_eq (h : out ≤ inp ∨ inp + len ≤ out)
    (haad : Memory.Apart aad aadlen out (len + 16)) (hkey : Memory.Apart key 32 out (len + 16))
    (hnonce : Memory.Apart nonce 12 out (len + 16)) :
    nw_chacha20poly1305_encrypt_buffers mem out inp len aad aadlen key nonce
      = mem.write out (nw_chacha20poly1305_encrypt (mem.read inp len) (mem.read aad aadlen)
        (readKey mem key) (readNonce mem nonce)) := by
  set body := nw_chacha20_xor (mem.read inp len) (readKey mem key) (readNonce mem nonce) 1
    with hbody
  have hlen : body.length = len := by simp [hbody]
  have hout : (mem.write out body).read out len = body := by
    rw [← hlen, Memory.read_write_self]
  have haad : Memory.Apart aad aadlen out body.length := by rw [Memory.Apart] at haad ⊢; omega
  have hkey : Memory.Apart key 32 out body.length := by rw [Memory.Apart] at hkey ⊢; omega
  have hnonce : Memory.Apart nonce 12 out body.length := by rw [Memory.Apart] at hnonce ⊢; omega
  obtain ⟨haad', hkey', hnonce'⟩ := inputs_write mem haad hkey hnonce
  rw [nw_chacha20poly1305_encrypt_buffers, nw_chacha20_xor_buffers_eq mem key nonce 1 h, ← hbody]
  simp only [aead_mac_buffers, haad', hkey', hnonce', hout]
  rw [nw_chacha20poly1305_encrypt, ← hbody, Memory.write_append, hlen]

theorem decrypt_buffers_eq (h : out ≤ inp ∨ inp + (len - 16) ≤ out) :
    nw_chacha20poly1305_decrypt_buffers mem out inp len aad aadlen key nonce
      = (nw_chacha20poly1305_decrypt (mem.read inp len) (mem.read aad aadlen) (readKey mem key)
          (readNonce mem nonce)).elim (-1, mem) fun plain => (0, mem.write out plain) := by
  rw [nw_chacha20poly1305_decrypt_buffers]
  by_cases hshort : len < 16
  · have hnone : nw_chacha20poly1305_decrypt (mem.read inp len) (mem.read aad aadlen)
        (readKey mem key) (readNonce mem nonce) = none := by
      rw [nw_chacha20poly1305_decrypt, if_pos (by simpa using hshort)]
    rw [if_pos hshort, hnone, Option.elim_none]
  have hsplit : mem.read inp len = mem.read inp (len - 16) ++ mem.read (inp + (len - 16)) 16 := by
    rw [← Memory.read_add, Nat.sub_add_cancel (by omega)]
  rw [if_neg hshort, hsplit, decrypt_append _ (Memory.length_read _ _ _)]
  simp only [aead_mac_buffers, nw_chacha20_xor_buffers_eq mem key nonce 1 h]
  split_ifs
  · rw [Option.elim_none]
  · rw [Option.elim_some]

end Calls

/-- A call that succeeds has found a sealed plaintext and written it; one that fails has written
nothing. -/
theorem decrypt_buffers_iff (mem : Memory UInt8) {out inp len : ℕ} (aad aadlen key nonce : ℕ)
    (h : out ≤ inp ∨ inp + (len - 16) ≤ out) :
    let call := nw_chacha20poly1305_decrypt_buffers mem out inp len aad aadlen key nonce
    let sealing plain := nw_chacha20poly1305_encrypt plain (mem.read aad aadlen) (readKey mem key)
      (readNonce mem nonce)
    (∀ plain, mem.read inp len = sealing plain → call = (0, mem.write out plain))
      ∧ (call.1 = 0 ↔ ∃ plain, mem.read inp len = sealing plain)
      ∧ (call.1 ≠ 0 → call.2 = mem) := by
  intro call sealing
  have hcall : call = _ := decrypt_buffers_eq mem h
  have hsome : ∀ plain, mem.read inp len = sealing plain → call = (0, mem.write out plain) := by
    intro plain hplain
    rw [hcall, decrypt_eq_some_iff.mpr hplain]
    rfl
  by_cases hex : ∃ plain, mem.read inp len = sealing plain
  · obtain ⟨plain, hplain⟩ := hex
    have hzero := hsome plain hplain
    refine ⟨hsome, ?_, ?_⟩ <;> rw [hzero]
    · simp only [true_iff]
      exact ⟨plain, hplain⟩
    · simp
  · have hfail : call = (-1, mem) := by
      rw [hcall, Option.eq_none_iff_forall_ne_some.mpr fun plain hplain =>
        hex ⟨plain, decrypt_eq_some_iff.mp hplain⟩]
      rfl
    refine ⟨hsome, ?_, ?_⟩ <;> rw [hfail]
    · simp [hex]
    · simp

/-- With the output in place or not in the way of what is still to be read, and apart from what else
the calls read: sealing writes the ciphertext and its tag, which open as the plaintext; what is in
the input opens exactly when it is a sealed plaintext, and a call that fails writes nothing. -/
theorem aead_correct (mem : Memory UInt8) {out inp len aad aadlen key nonce : ℕ}
    (h : out ≤ inp ∨ inp + len ≤ out) (haad : Memory.Apart aad aadlen out (len + 16))
    (hkey : Memory.Apart key 32 out (len + 16)) (hnonce : Memory.Apart nonce 12 out (len + 16)) :
    let sealing plain := nw_chacha20poly1305_encrypt plain (mem.read aad aadlen) (readKey mem key)
      (readNonce mem nonce)
    let sealed := nw_chacha20poly1305_encrypt_buffers mem out inp len aad aadlen key nonce
    let call := nw_chacha20poly1305_decrypt_buffers mem out inp len aad aadlen key nonce
    sealed = mem.write out (sealing (mem.read inp len))
      ∧ (∀ out', out' ≤ out ∨ out + len ≤ out' →
        nw_chacha20poly1305_decrypt_buffers sealed out' out (len + 16) aad aadlen key nonce
          = (0, sealed.write out' (mem.read inp len)))
      ∧ (∀ plain, mem.read inp len = sealing plain → call = (0, mem.write out plain))
      ∧ (call.1 = 0 ↔ ∃ plain, mem.read inp len = sealing plain)
      ∧ (call.1 ≠ 0 → call.2 = mem) := by
  intro sealing sealed call
  have hsealed : sealed = mem.write out (sealing (mem.read inp len)) :=
    encrypt_buffers_eq mem h haad hkey hnonce
  have hlen : (sealing (mem.read inp len)).length = len + 16 := by simp [sealing]
  refine ⟨hsealed, ?_, decrypt_buffers_iff mem aad aadlen key nonce (by omega)⟩
  intro out' hout'
  rw [← hlen] at haad hkey hnonce
  obtain ⟨haad', hkey', hnonce'⟩ := inputs_write mem haad hkey hnonce
  have hread : (mem.write out (sealing (mem.read inp len))).read out (len + 16)
      = sealing (mem.read inp len) := by
    rw [← hlen, Memory.read_write_self]
  apply (decrypt_buffers_iff sealed aad aadlen key nonce (by omega)).1
  rw [hsealed, haad', hkey', hnonce', hread]

/-- Five bytes sealed and opened in place. -/
theorem aead_correct_in_place :
    let mem : Memory UInt8 := fun a => UInt8.ofNat a
    let sealing plain := nw_chacha20poly1305_encrypt plain (mem.read 40 3) (readKey mem 50)
      (readNonce mem 90)
    let sealed := nw_chacha20poly1305_encrypt_buffers mem 0 0 5 40 3 50 90
    let call := nw_chacha20poly1305_decrypt_buffers mem 0 0 5 40 3 50 90
    sealed = mem.write 0 (sealing (mem.read 0 5))
      ∧ (∀ out', out' ≤ 0 ∨ 0 + 5 ≤ out' →
        nw_chacha20poly1305_decrypt_buffers sealed out' 0 (5 + 16) 40 3 50 90
          = (0, sealed.write out' (mem.read 0 5)))
      ∧ (∀ plain, mem.read 0 5 = sealing plain → call = (0, mem.write 0 plain))
      ∧ (call.1 = 0 ↔ ∃ plain, mem.read 0 5 = sealing plain)
      ∧ (call.1 ≠ 0 → call.2 = mem) :=
  aead_correct (fun a => UInt8.ofNat a) (by decide) (by decide) (by decide) (by decide)

end Onegram
