import Onegram.SocketWrites
import Onegram.Lib.ByteOrder
import Onegram.Lib.CounterMode
import Onegram.Proofs.SocketWrites

/-!
# AES-CTR by the word is counter mode

Each of the three ways of `encryptIn:out:len:` goes on where the one before it has stopped, as the
stream byte by byte would, and the row of bytes that is counted up is a number of 128 bits.
-/

namespace Onegram.Tcp

open Elements

/-! ## The counter -/

/-- What `ctr128Inc` does with a byte: the carry, and the bytes from it on. -/
def incByte (b : UInt8) (acc : ℕ × Bytes) : ℕ × Bytes :=
  ((acc.1 + b.toNat) / 256, UInt8.ofNat (acc.1 + b.toNat) :: acc.2)

theorem ctr128Inc_eq (counter : Bytes) : ctr128Inc counter = (counter.foldr incByte (1, [])).2 :=
  rfl

theorem foldr_incByte : ∀ k n (acc : ℕ × Bytes),
    ((Bytes.bytesBE k n).foldr incByte acc).2 = Bytes.bytesBE k (n + acc.1) ++ acc.2
  | 0, _, _ => rfl
  | k + 1, n, acc => by
    have hbyte : (UInt8.ofNat n).toNat = n % 256 := UInt8.toNat_ofNat'
    have hcarry : n / 256 + (acc.1 + n % 256) / 256 = (n + acc.1) / 256 := by omega
    have hlow : UInt8.ofNat (acc.1 + n % 256) = UInt8.ofNat (n + acc.1) := by
      apply UInt8.toNat_inj.mp
      rw [UInt8.toNat_ofNat', UInt8.toNat_ofNat']
      omega
    rw [Bytes.bytesBE, List.foldr_append, foldr_incByte k, List.foldr_cons, List.foldr_nil, incByte,
      hbyte, hcarry, hlow, Bytes.bytesBE, List.append_assoc]
    rfl

theorem ctr128Inc_bytesBE (k n : ℕ) :
    ctr128Inc (Bytes.bytesBE k n) = Bytes.bytesBE k (n + 1) := by
  rw [ctr128Inc_eq, foldr_incByte, List.append_nil]

theorem ctr128IncAligned_eq (sizeof_size_t address : ℕ) (counter : Bytes) :
    ctr128IncAligned sizeof_size_t address counter = ctr128Inc counter := if_pos rfl

/-- The 128 bits of a counter. -/
def counterOf (ivec : Bytes) : BitVec 128 := .ofNat 128 (Bytes.littleEndian ivec.reverse)

def bytesOf (counter : BitVec 128) : Bytes := Bytes.bytesBE 16 counter.toNat

theorem bytesOf_succ (counter : BitVec 128) :
    bytesOf (counter + 1) = ctr128Inc (bytesOf counter) := by
  have hword : (2 : ℕ) ^ 128 = 256 ^ 16 := by norm_num
  rw [bytesOf, bytesOf, ctr128Inc_bytesBE, BitVec.toNat_add, hword]
  exact Bytes.bytesBE_mod 16 _

theorem bytesOf_counterOf {ivec : Bytes} (h : ivec.length = 16) :
    bytesOf (counterOf ivec) = ivec := by
  have hword : (2 : ℕ) ^ 128 = 256 ^ 16 := by norm_num
  have hivec := Bytes.bytesBE_littleEndian_reverse ivec
  rw [h] at hivec
  rw [bytesOf, counterOf, BitVec.toNat_ofNat, hword, Bytes.bytesBE_mod, hivec]

/-! ## The words of a block -/

theorem toList_slice_eq_map (b : Bytes) (off n : ℕ) :
    (Bytes.slice b off n).toList = (List.range n).map fun j => b.getD (off + j) 0 := by
  apply List.ext_getElem
  · simp
  · intro i h₁ h₂
    simp [Bytes.slice]

theorem xorFrom_eq_map (block : Bytes) : ∀ (n : ℕ) (u : Bytes), CounterMode.xorFrom block n u
    = (List.range u.length).map fun i => u.getD i 0 ^^^ block.getD (n + i) 0
  | _, [] => rfl
  | n, b :: u => by
    rw [CounterMode.xorFrom, xorFrom_eq_map block (n + 1) u, List.length_cons,
      List.range_succ_eq_map, List.map_cons, List.map_map]
    congr 1
    refine List.map_congr_left fun i _ => ?_
    simp [Nat.add_assoc, Nat.add_comm 1]

theorem flatMap_range_mul {α : Type*} (f : ℕ → α) (w : ℕ) : ∀ k,
    (List.range k).flatMap (fun i => (List.range w).map fun j => f (i * w + j))
      = (List.range (k * w)).map f
  | 0 => by simp
  | k + 1 => by
    rw [List.range_succ, List.flatMap_append, flatMap_range_mul f w k, Nat.succ_mul, List.range_add,
      List.map_append, List.map_map, List.flatMap_singleton]
    rfl

theorem xorWords_eq {sizeof_size_t : ℕ} (h : 16 % sizeof_size_t = 0) {input : Bytes}
    (hinput : 16 ≤ input.length) (ecount : Bytes) :
    xorWords sizeof_size_t input ecount = CounterMode.xorFrom ecount 0 (input.take 16) := by
  have hword : ∀ i, storeWord sizeof_size_t
      (loadWord (Bytes.slice input (i * sizeof_size_t) sizeof_size_t).toList ^^^
        loadWord (Bytes.slice ecount (i * sizeof_size_t) sizeof_size_t).toList)
      = (List.range sizeof_size_t).map fun j =>
        input.getD (i * sizeof_size_t + j) 0 ^^^ ecount.getD (i * sizeof_size_t + j) 0 := by
    intro i
    have hlength : (Bytes.slice input (i * sizeof_size_t) sizeof_size_t).toList.length
        = (Bytes.slice ecount (i * sizeof_size_t) sizeof_size_t).toList.length := by simp
    have hxor := Bytes.bytesLE_xor hlength
    rw [Vector.length_toList] at hxor
    refine hxor.trans ?_
    rw [toList_slice_eq_map, toList_slice_eq_map, List.zipWith_map, List.zipWith_self]
  have hsize : 16 / sizeof_size_t * sizeof_size_t = 16 := Nat.div_mul_cancel
    (Nat.dvd_of_mod_eq_zero h)
  rw [xorWords, funext hword, flatMap_range_mul fun i => input.getD i 0 ^^^ ecount.getD i 0, hsize,
    xorFrom_eq_map, List.length_take_of_le hinput]
  refine List.map_congr_left fun i hi => ?_
  have hi : i < 16 := List.mem_range.mp hi
  simp [hi]

/-! ## The cipher as counter mode -/

namespace MTAesCtr

variable (aes : Bytes → Bytes → Bytes)

def state (c : MTAesCtr) : CounterMode.State Bytes := ⟨c.ivec, c.ecount, c.num⟩

def withState (c : MTAesCtr) (s : CounterMode.State Bytes) : MTAesCtr :=
  { c with ivec := s.counter, ecount := s.block, num := s.num }

theorem encryptByte_eq (b : UInt8) (c : MTAesCtr) :
    c.encryptByte aes b = ((CounterMode.step 16 (aes c.key) ctr128Inc c.state b).1,
      c.withState (CounterMode.step 16 (aes c.key) ctr128Inc c.state b).2) := by
  by_cases h : c.num = 0
  · simp [encryptByte, CounterMode.step, CounterMode.refill, state, withState, h]
  · simp [encryptByte, CounterMode.step, CounterMode.refill, state, withState, h]

theorem encryptIn_eq : ∀ (u : Bytes) (c : MTAesCtr), c.encryptIn aes u
    = ((CounterMode.run 16 (aes c.key) ctr128Inc c.state u).1,
      c.withState (CounterMode.run 16 (aes c.key) ctr128Inc c.state u).2)
  | [], _ => rfl
  | b :: u, c => by
    simp only [encryptIn, encryptByte_eq, CounterMode.run, encryptIn_eq u]
    rfl

/-- A block at once, where the last one is used up. -/
theorem encryptIn_block {u : Bytes} {c : MTAesCtr} (hnum : c.num = 0) (hu : u ≠ [])
    (hlength : u.length ≤ 16) (sizeof_size_t address : ℕ) :
    c.encryptIn aes u
      = (CounterMode.xorFrom (c.nextBlock aes sizeof_size_t address).ecount 0 u,
        { c.nextBlock aes sizeof_size_t address with num := u.length % 16 }) := by
  rw [encryptIn_eq, CounterMode.run_fresh hnum hu hlength]
  simp only [nextBlock, ctr128IncAligned_eq]
  rfl

/-- The rest of a block that has been begun goes first. -/
theorem finishBlock_eq : ∀ (u : Bytes) {c : MTAesCtr}, c.num < 16 →
    let head := finishBlock c.ecount c.num u
    let more := { c with num := head.2.1 }.encryptIn aes head.2.2
    c.encryptIn aes u = (head.1 ++ more.1, more.2) ∧ (head.2.1 = 0 ∨ head.2.2 = [])
      ∧ head.2.1 < 16
  | [], _, h => ⟨rfl, .inr rfl, h⟩
  | b :: u, c, h => by
    by_cases hnum : c.num = 0
    · rw [finishBlock, if_pos hnum]
      exact ⟨rfl, .inl hnum, h⟩
    · have hbyte : c.encryptByte aes b
          = (b ^^^ c.ecount.getD c.num 0, { c with num := (c.num + 1) % 16 }) := by
        simp only [encryptByte, if_neg hnum]
      obtain ⟨hrun, hend, hlt⟩ :=
        finishBlock_eq u (c := { c with num := (c.num + 1) % 16 }) (Nat.mod_lt _ (by norm_num))
      rw [finishBlock, if_neg hnum]
      refine ⟨?_, hend, hlt⟩
      simp only [encryptIn, hbyte, hrun, List.cons_append]

theorem lastBytes_eq (input ecount : Bytes) : ∀ (len n : ℕ), n + len = input.length →
    lastBytes input ecount n len = (CounterMode.xorFrom ecount n (input.drop n), n + len)
  | 0, n, h => by
    rw [List.drop_of_length_le (by omega)]
    rfl
  | len + 1, n, h => by
    have hn : n < input.length := by omega
    rw [lastBytes, lastBytes_eq input ecount len (n + 1) (by omega),
      List.drop_eq_getElem_cons hn, CounterMode.xorFrom, List.getD_eq_getElem input 0 hn,
      Nat.add_assoc, Nat.add_comm 1]

theorem wholeBlocks_eq {sizeof_size_t : ℕ} (h : 16 % sizeof_size_t = 0) (address : ℕ)
    {c : MTAesCtr} (hnum : c.num = 0) (u : Bytes) :
    let words := c.wholeBlocks aes sizeof_size_t address u
    let more := words.2.1.encryptIn aes words.2.2
    c.encryptIn aes u = (words.1 ++ more.1, more.2) ∧ words.2.1.num = 0
      ∧ words.2.2.length < 16 := by
  induction c, u using wholeBlocks.induct aes sizeof_size_t address with
  | case1 c u hlen c' ih =>
    have htake : (u.take 16).length = 16 := List.length_take_of_le hlen
    have hnil : u.take 16 ≠ [] := fun hnil => by simp [hnil] at htake
    obtain ⟨hrun, hend, hlt⟩ := ih rfl
    have hblock := encryptIn_block aes hnum hnil htake.le sizeof_size_t address
    rw [htake] at hblock
    rw [wholeBlocks, if_pos hlen]
    refine ⟨?_, hend, hlt⟩
    conv_lhs => rw [← List.take_append_drop 16 u]
    have hnext : ({ c.nextBlock aes sizeof_size_t address with num := 16 % 16 } : MTAesCtr)
        = { c' with num := 0 } := rfl
    rw [encryptIn_append, hblock, hnext, hrun]
    simp only [xorWords_eq h hlen, List.append_assoc]
    rfl
  | case2 c u hlen =>
    rw [wholeBlocks, if_neg hlen]
    exact ⟨rfl, hnum, Nat.lt_of_not_le hlen⟩

theorem wholeBlocks_nil (sizeof_size_t address : ℕ) (c : MTAesCtr) :
    c.wholeBlocks aes sizeof_size_t address [] = ([], c, []) := by
  rw [wholeBlocks, if_neg (by simp)]

/-- The last bytes begin a block. -/
theorem lastBytes_block (sizeof_size_t address : ℕ) {u : Bytes} {c : MTAesCtr} (hnum : c.num = 0)
    (hu : u.length ≠ 0) (hlength : u.length < 16) :
    let tail := lastBytes u (c.nextBlock aes sizeof_size_t address).ecount c.num u.length
    c.encryptIn aes u
      = (tail.1, { c.nextBlock aes sizeof_size_t address with num := tail.2 }) := by
  have hnil : u ≠ [] := fun hnil => hu (congrArg List.length hnil)
  rw [encryptIn_block aes hnum hnil hlength.le sizeof_size_t address, hnum,
    lastBytes_eq _ _ _ _ (Nat.zero_add _), Nat.mod_eq_of_lt hlength, Nat.zero_add]
  rfl

/-- One call is the stream over its bytes, wherever its buffers lie. -/
theorem encryptInOut_eq (sizeof_size_t inAddress outAddress ivecAddress : ℕ) (u : Bytes)
    {c : MTAesCtr} (hnum : c.num < 16) :
    c.encryptInOut aes sizeof_size_t inAddress outAddress ivecAddress u = c.encryptIn aes u := by
  rw [encryptInOut]
  by_cases hsize : 16 % sizeof_size_t = 0
  · obtain ⟨hrun, hend, _⟩ := finishBlock_eq aes u hnum
    rw [if_pos hsize, hrun]
    generalize finishBlock c.ecount c.num u = head at hend ⊢
    set c₁ : MTAesCtr := { c with num := head.2.1 } with hc₁
    dsimp only
    split_ifs with halign hrest
    · rfl
    · rcases hend with hzero | hnil
      · obtain ⟨hwords, hnum', hshort⟩ :=
          wholeBlocks_eq aes hsize ivecAddress (c := c₁) hzero head.2.2
        rw [hwords, lastBytes_block aes sizeof_size_t ivecAddress hnum' hrest hshort,
          List.append_assoc]
        rfl
      · rw [hnil, wholeBlocks_nil] at hrest
        exact absurd rfl hrest
    · have hnil : (c₁.wholeBlocks aes sizeof_size_t ivecAddress head.2.2).2.2 = [] :=
        List.eq_nil_of_length_eq_zero (not_not.mp hrest)
      rcases hend with hzero | hend
      · obtain ⟨hwords, _, _⟩ := wholeBlocks_eq aes hsize ivecAddress (c := c₁) hzero head.2.2
        rw [hwords, hnil, encryptIn, List.append_nil]
      · rw [hend, wholeBlocks_nil, encryptIn]
  · rw [if_neg hsize]

/-- The byte-wise cipher is counter mode over a counter of 128 bits. -/
theorem encryptIn_eq_run (key : Bytes) (iv ecount : Vector UInt8 16) (num : ℕ) (u : Bytes) :
    let stream := CounterMode.run 16 (fun k => aes key (bytesOf k)) (fun k => k + 1)
      ⟨counterOf iv.toList, ecount.toList, num⟩ u
    encryptIn aes u ⟨key, iv.toList, num, ecount.toList⟩
      = (stream.1, ⟨key, bytesOf stream.2.counter, stream.2.num, stream.2.block⟩) := by
  intro stream
  have hmap : CounterMode.run 16 (aes key) ctr128Inc
      (CounterMode.State.map bytesOf ⟨counterOf iv.toList, ecount.toList, num⟩) u
      = (stream.1, stream.2.map bytesOf) :=
    CounterMode.run_map bytesOf (fun _ => rfl) bytesOf_succ u _
  have hstart : CounterMode.State.map bytesOf ⟨counterOf iv.toList, ecount.toList, num⟩
      = ⟨iv.toList, ecount.toList, num⟩ := by
    rw [CounterMode.State.map, bytesOf_counterOf Vector.length_toList]
  rw [hstart] at hmap
  rw [encryptIn_eq]
  simp only [state, hmap]
  rfl

theorem encryptCalls_eq (sizeof_size_t ivecAddress : ℕ) : ∀ (calls : List Call) {c : MTAesCtr},
    c.num < 16 → c.encryptCalls aes sizeof_size_t ivecAddress calls
      = c.encryptIn aes (calls.map Call.input).flatten
  | [], _, _ => rfl
  | call :: calls, c, h => by
    have hnum : (c.encryptIn aes call.input).2.num < 16 := by
      rw [encryptIn_eq]
      exact CounterMode.num_run_lt (by norm_num) call.input h
    rw [encryptCalls, encryptInOut_eq aes _ _ _ _ _ h, List.map_cons, List.flatten_cons,
      encryptIn_append]
    simp only [encryptCalls_eq sizeof_size_t ivecAddress calls hnum]

/-- However a stream is cut into calls and wherever their buffers lie, it is encrypted as counter
mode does it byte by byte, with a counter of 128 bits, and less than a block is used up. -/
theorem ctr_streaming (sizeof_size_t ivecAddress : ℕ) (key : Bytes) (iv ecount : Vector UInt8 16)
    {num : ℕ} (h : num < 16) (calls : List Call) :
    let stream := CounterMode.run 16 (fun k => aes key (bytesOf k)) (fun k => k + 1)
      ⟨counterOf iv.toList, ecount.toList, num⟩ (calls.map Call.input).flatten
    encryptCalls aes sizeof_size_t ivecAddress calls ⟨key, iv.toList, num, ecount.toList⟩
      = (stream.1, ⟨key, bytesOf stream.2.counter, stream.2.num, stream.2.block⟩)
      ∧ stream.2.num < 16 := by
  intro stream
  have hrun := encryptIn_eq_run aes key iv ecount num (calls.map Call.input).flatten
  rw [← encryptCalls_eq aes sizeof_size_t ivecAddress calls h] at hrun
  exact ⟨hrun, CounterMode.num_run_lt (by norm_num) _ h⟩

/-- A cipher in place of AES. -/
def echo (_ counter : Bytes) : Bytes := counter

/-- A block that has been begun, whole words, an address between words and a last block. -/
theorem ctr_streaming_begun :
    let calls : List Call := [⟨5, 8, List.replicate 35 7⟩, ⟨3, 4, List.replicate 18 9⟩]
    let stream := CounterMode.run 16 (fun k => echo [] (bytesOf k)) (fun k => k + 1)
      ⟨counterOf (Vector.replicate 16 255).toList,
        (Vector.replicate 16 1).toList, 13⟩ (calls.map Call.input).flatten
    encryptCalls echo 8 16 calls
        ⟨[], (Vector.replicate 16 255).toList, 13, (Vector.replicate 16 1).toList⟩
      = (stream.1, ⟨[], bytesOf stream.2.counter, stream.2.num, stream.2.block⟩)
      ∧ stream.2.num < 16 :=
  ctr_streaming echo 8 16 [] (Vector.replicate 16 255)
    (Vector.replicate 16 1) (by norm_num) _

end MTAesCtr

end Onegram.Tcp
