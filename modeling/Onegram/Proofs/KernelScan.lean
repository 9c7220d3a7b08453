import Onegram.KernelScan

/-!
# The chunked scans agree with the plain one up to the end of the range

A chunk that can be read holds the memory's bytes, so its search is a search among the places from
its address on. The chunks reach each other, so the first find is the first place of all that they
cover; the last of them covers places behind the end of the range.
-/

namespace Onegram.KernelScan

open Bytes ChunkedScan

variable {is64 : Bool} {mem : Memory}

/-! ## What a read gives -/

theorem readAll_eq_some {byteAt : ℕ → Option UInt8} {n : ℕ} {bytes : Bytes} :
    readAll byteAt n = some bytes
      ↔ (∀ i < n, (byteAt i).isSome) ∧ (List.range n).map (fun i => (byteAt i).getD 0) = bytes := by
  rw [readAll]
  split_ifs with h
  · rw [Option.some.injEq]
    refine (and_iff_right fun i hi => ?_).symm
    exact List.all_eq_true.1 h i (List.mem_range.2 hi)
  · refine iff_of_false (by simp) ?_
    rintro ⟨hall, -⟩
    exact h (List.all_eq_true.2 fun i hi => hall i (List.mem_range.1 hi))

theorem readAll_congr {f g : ℕ → Option UInt8} {n : ℕ} (h : ∀ i < n, f i = g i) :
    readAll f n = readAll g n := by
  ext bytes
  have hmap : (List.range n).map (fun i => (f i).getD 0) = (List.range n).map fun i => (g i).getD 0 :=
    List.map_congr_left fun i hi => by rw [h i (List.mem_range.1 hi)]
  rw [readAll_eq_some, readAll_eq_some, hmap]
  refine and_congr_left fun _ => forall₂_congr fun i hi => ?_
  rw [h i hi]

/-- A part of what was read. -/
theorem readAll_part {byteAt : ℕ → Option UInt8} {n i width : ℕ} {bytes : Bytes}
    (h : readAll byteAt n = some bytes) (hi : i + width ≤ n) :
    readAll (fun j => byteAt (i + j)) width = some ((bytes.drop i).take width) := by
  obtain ⟨hall, rfl⟩ := readAll_eq_some.1 h
  refine readAll_eq_some.2 ⟨fun j hj => hall (i + j) (by omega), ?_⟩
  apply List.ext_getElem
  · simp only [List.length_map, List.length_range, List.length_take, List.length_drop]
    omega
  · intro j h₁ h₂
    simp

theorem kread_safe_eq_some {addr : ℕ} {bytes : Bytes} (h : kread_safe is64 mem addr 4095 = some bytes) :
    vmAddress is64 addr + 4095 ≤ (if is64 then 2 ^ 64 else 2 ^ 32)
      ∧ readAll (fun i => mem (vmAddress is64 addr + i)) 4095 = some bytes := by
  rw [kread_safe] at h
  by_cases hend : vmAddress is64 addr + 4095 ≤ (if is64 then 2 ^ 64 else 2 ^ 32)
  · exact ⟨hend, by rwa [if_pos hend] at h⟩
  · rw [if_neg hend] at h
    cases h

theorem length_kread_safe {addr : ℕ} {bytes : Bytes}
    (h : kread_safe is64 mem addr 4095 = some bytes) : bytes.length = 4095 := by
  obtain ⟨-, hread⟩ := kread_safe_eq_some h
  obtain ⟨-, rfl⟩ := readAll_eq_some.1 hread
  rw [List.length_map, List.length_range]

/-- Within a read that goes through, the addresses do not wrap. -/
theorem vmAddress_add {addr i : ℕ} {bytes : Bytes} (h : kread_safe is64 mem addr 4095 = some bytes)
    (hi : i < 4095) : vmAddress is64 (addr + i) = vmAddress is64 addr + i := by
  obtain ⟨hend, -⟩ := kread_safe_eq_some h
  cases is64 with
  | true => rfl
  | false =>
    simp only [vmAddress, Bool.false_eq_true, if_false] at hend ⊢
    omega

/-- A read that goes through does not reach the end of the addresses. -/
theorem kread_safe_end {addr : ℕ} {bytes : Bytes} (h : kread_safe is64 mem addr 4095 = some bytes)
    (haddr : addr < 2 ^ 64) : addr + 4095 ≤ 2 ^ 64 := by
  obtain ⟨hend, -⟩ := kread_safe_eq_some h
  cases is64 with
  | true => exact hend
  | false =>
    simp only [vmAddress, Bool.false_eq_true, if_false] at hend
    omega

/-- The chunk's bytes are those in memory. -/
theorem matchesAt_chunk {addr width i : ℕ} {bytes : Bytes} (test : Bytes → Bool)
    (h : kread_safe is64 mem addr 4095 = some bytes) (hi : i + width ≤ 4095) :
    matchesAt is64 mem width test (addr + i) = test ((bytes.drop i).take width) := by
  obtain ⟨-, hread⟩ := kread_safe_eq_some h
  have hpart := readAll_part hread hi
  have hsame : readAll (fun j => mem (vmAddress is64 (addr + i + j))) width
      = readAll (fun j => mem (vmAddress is64 addr + (i + j))) width := by
    refine readAll_congr fun j hj => ?_
    rw [Nat.add_assoc, vmAddress_add h (by omega)]
  rw [matchesAt, hsame, hpart]
  rfl

/-! ## The chunks -/

/-- A search in a chunk that tries `count` places, `unit` bytes apart, with the bytes there. -/
def Tries (search : Bytes → Option ℕ) (unit width count : ℕ) (test : Bytes → Bool) : Prop :=
  ∀ buf : Bytes, buf.length = 4095 →
    search buf = ((List.range count).find? fun i => test ((buf.drop (i * unit)).take width)).map
      (· * unit)

/-- Every chunk that begins in the range can be read. -/
def ChunksRead (is64 : Bool) (mem : Memory) (start stop : UInt64) : Prop :=
  ∀ k, start.toNat + 4080 * k < stop.toNat →
    (kread_safe is64 mem (start.toNat + 4080 * k) 4095).isSome

def chunkCount (start stop : UInt64) : ℕ := (stop.toNat - start.toNat + 4079) / 4080

section

variable {search : Bytes → Option ℕ} {unit width count : ℕ} {test : Bytes → Bool}
  {start stop : UInt64}

/-- One chunk is a scan of its places. -/
theorem search_chunk (hsearch : Tries search unit width count test)
    (hcount : ∀ i < count, i * unit + width ≤ 4095) {addr : ℕ} {bytes : Bytes}
    (hread : kread_safe is64 mem addr 4095 = some bytes) {base : ℕ}
    (haddr : addr = start.toNat + base * unit) :
    search bytes = ((List.range' base count).find?
      fun i => matchesAt is64 mem width test (start.toNat + i * unit)).map
        fun i => (i - base) * unit := by
  have hplace (i : ℕ) : start.toNat + (base + i) * unit = addr + i * unit := by
    rw [haddr, Nat.add_mul, Nat.add_assoc]
  have hfind : (List.range count).find? (fun i => test ((bytes.drop (i * unit)).take width))
      = (List.range count).find?
          fun i => matchesAt is64 mem width test (start.toNat + (base + i) * unit) := by
    refine List.find?_congr fun i hi => ?_
    rw [hplace, matchesAt_chunk test hread (hcount i (List.mem_range.1 hi))]
  rw [hsearch bytes (length_kread_safe hread), hfind, List.range'_eq_map_range, List.find?_map,
    Option.map_map]
  congr 1
  funext i
  simp [Function.comp]

/-- The loop is the scan in chunks. -/
theorem kfind_eq_scanChunks (step : ℕ) (hsearch : Tries search unit width count test) (hwidth : 0 < width)
    (hcount : ∀ i < count, i * unit + width ≤ 4095) (hstep : step * unit = 4080)
    (hread : ChunksRead is64 mem start stop) : ∀ (chunks k fuel : ℕ), chunks < fuel →
      (stop.toNat - (start.toNat + 4080 * k) + 4079) / 4080 = chunks →
      kfind is64 mem search stop.toNat fuel (start.toNat + 4080 * k)
        = some (((scanChunks (fun i => matchesAt is64 mem width test (start.toNat + i * unit)) step
            count chunks (k * step)).map fun i => start.toNat + i * unit).getD 0)
  | chunks, k, 0, hfuel, _ => by omega
  | 0, k, fuel + 1, _, hchunks => by
    rw [kfind, if_neg (by omega)]
    rfl
  | chunks + 1, k, fuel + 1, hfuel, hchunks => by
    have hlt : start.toNat + 4080 * k < stop.toNat := by omega
    obtain ⟨bytes, hbytes⟩ := Option.isSome_iff_exists.1 (hread k hlt)
    have hstop := stop.toNat_lt
    have hend := kread_safe_end hbytes (by omega)
    have haddr : start.toNat + 4080 * k = start.toNat + k * step * unit := by
      rw [Nat.mul_assoc, hstep, Nat.mul_comm]
    have hnext : (start.toNat + 4080 * k + 4080) % 2 ^ 64 = start.toNat + 4080 * (k + 1) := by
      omega
    have ih := kfind_eq_scanChunks step hsearch hwidth hcount hstep hread chunks (k + 1) fuel (by omega)
      (by omega)
    rw [kfind, if_pos hlt, hbytes, Option.bind_some,
      search_chunk hsearch hcount hbytes haddr, hnext, scanChunks]
    cases hfind : (List.range' (k * step) count).find?
        fun i => matchesAt is64 mem width test (start.toNat + i * unit) with
    | none =>
      rw [Option.none_or, ← Nat.succ_mul]
      exact ih
    | some i =>
      obtain ⟨hle, hi⟩ := List.mem_range'_1.1 (List.mem_of_find?_eq_some hfind)
      have hroom := hcount (i - k * step) (by omega)
      have hplace : start.toNat + 4080 * k + (i - k * step) * unit = start.toNat + i * unit := by
        rw [haddr, Nat.add_assoc, ← Nat.add_mul, Nat.add_sub_cancel' hle]
      show some ((start.toNat + 4080 * k + (i - k * step) * unit) % 2 ^ 64)
        = some (start.toNat + i * unit)
      rw [Nat.mod_eq_of_lt (by omega), hplace]

/-- The places that the chunks of the range cover. -/
def covered (start stop : UInt64) (step count : ℕ) : ℕ :=
  if start.toNat < stop.toNat then (chunkCount start stop - 1) * step + count else 0

theorem kfind_eq_find (step : ℕ) (hsearch : Tries search unit width count test) (hwidth : 0 < width)
    (hcount : ∀ i < count, i * unit + width ≤ 4095) (hstep : step * unit = 4080)
    (hle : step ≤ count) (hread : ChunksRead is64 mem start stop) {fuel : ℕ}
    (hfuel : chunkCount start stop < fuel) :
    kfind is64 mem search stop.toNat fuel start.toNat
      = some ((((List.range (covered start stop step count)).find?
          fun i => matchesAt is64 mem width test (start.toNat + i * unit)).map
            fun i => start.toNat + i * unit).getD 0) := by
  have h := kfind_eq_scanChunks step hsearch hwidth hcount hstep hread (chunkCount start stop) 0 fuel
    hfuel rfl
  rw [Nat.mul_zero, Nat.add_zero, Nat.zero_mul] at h
  rw [h, covered]
  split_ifs with hlt
  · obtain ⟨n, hn⟩ : ∃ n, chunkCount start stop = n + 1 :=
      ⟨chunkCount start stop - 1, by rw [chunkCount]; omega⟩
    rw [hn, scanChunks_eq hle, Nat.add_sub_cancel, List.range_eq_range']
  · have hzero : chunkCount start stop = 0 := by
      rw [chunkCount]
      omega
    rw [hzero]
    rfl

/-- The number 0 stands for no place, and no place is at 0. -/
theorem found_inj {start unit : ℕ} (hstart : 0 < start) (hunit : 0 < unit) {a b : Option ℕ} :
    (a.map fun i => start + i * unit).getD 0 = (b.map fun i => start + i * unit).getD 0 ↔ a = b := by
  refine ⟨fun h => ?_, fun h => by rw [h]⟩
  cases a with
  | none =>
    cases b with
    | none => rfl
    | some j =>
      simp only [Option.map_none, Option.getD_none, Option.map_some, Option.getD_some] at h
      omega
  | some i =>
    cases b with
    | none =>
      simp only [Option.map_none, Option.getD_none, Option.map_some, Option.getD_some] at h
      omega
    | some j =>
      simp only [Option.map_some, Option.getD_some] at h
      rw [Nat.eq_of_mul_eq_mul_right hunit (Nat.add_left_cancel h)]

/-- The scan is right when the range has a match, or the places behind it have none. -/
theorem kfind_eq_plainScan_iff (step : ℕ) (hsearch : Tries search unit width count test)
    (hwidth : 0 < width)
    (hcount : ∀ i < count, i * unit + width ≤ 4095) (hstep : step * unit = 4080)
    (hle : step ≤ count) (hplaces : places start stop unit width ≤ covered start stop step count)
    (hread : ChunksRead is64 mem start stop) (hstart : 0 < start.toNat) {fuel : ℕ}
    (hfuel : chunkCount start stop < fuel) :
    kfind is64 mem search stop.toNat fuel start.toNat
        = some (plainScan is64 mem start stop unit width test)
      ↔ (∃ i < places start stop unit width,
            matchesAt is64 mem width test (start.toNat + i * unit) = true)
        ∨ ∀ i, places start stop unit width ≤ i → i < covered start stop step count →
            matchesAt is64 mem width test (start.toNat + i * unit) = false := by
  rw [kfind_eq_find step hsearch hwidth hcount hstep hle hread hfuel, plainScan, Option.some.injEq,
    ← find?_extend_iff hplaces]
  refine found_inj hstart (Nat.pos_of_ne_zero ?_)
  rintro rfl
  omega

end

/-! ## The two searches -/

theorem findString_tries (needle : Bytes) (hlen : needle.length ≤ 4095) :
    Tries (findString needle) 1 needle.length (4095 - needle.length + 1) (· = needle) := by
  intro buf hbuf
  rw [findString, if_pos (by omega), hbuf]
  simp only [Nat.mul_one, Option.map_id']

theorem findWord_tries (width val : ℕ) :
    Tries (findWord width val) width width (4095 / width) fun bytes => littleEndian bytes = val := by
  intro buf hbuf
  rw [findWord, hbuf]

/-- The places that the string search reaches. -/
def stringReach (start stop : UInt64) (str : Bytes) : ℕ :=
  covered start stop 4080 (4095 - (str.length + 1) + 1)

/-- The places that the word search reaches. -/
def wordReach (start stop : UInt64) (width : ℕ) : ℕ := covered start stop (4080 / width) (4095 / width)

/-- A match before the end of the range, or none up to the end of what is read. -/
def InRangeOrNowhere (is64 : Bool) (mem : Memory) (start stop : UInt64) (unit width reach : ℕ)
    (test : Bytes → Bool) : Prop :=
  (∃ i < places start stop unit width,
      matchesAt is64 mem width test (start.toNat + i * unit) = true)
    ∨ ∀ i, places start stop unit width ≤ i → i < reach →
      matchesAt is64 mem width test (start.toNat + i * unit) = false

/-- The width of a kernel's words. -/
def wordWidth (is64 : Bool) : ℕ := if is64 then 8 else 4

/-- A word of the kernel with the value looked for. -/
def isWord (is64 : Bool) (val : UInt64) (bytes : Bytes) : Bool :=
  littleEndian bytes = if is64 then val.toNat else val.toNat % 2 ^ 32

/-- Exactly when the bytes read behind the range do not give what the range has not, both searches
are the plain scan. -/
theorem kfind_iff (is64 : Bool) (mem : Memory) {start stop : UInt64} (hstart : 0 < start.toNat)
    (hread : ChunksRead is64 mem start stop) {fuel : ℕ} (hfuel : chunkCount start stop < fuel) :
    (∀ str : Bytes, str.length + 1 ≤ 16 →
      (kfind_string_64 is64 mem start stop str fuel
          = some (plainScan is64 mem start stop 1 (str.length + 1) (· = str ++ [0]))
        ↔ InRangeOrNowhere is64 mem start stop 1 (str.length + 1) (stringReach start stop str)
            (· = str ++ [0])))
    ∧ ∀ val : UInt64,
      (kfind_ptr_64 is64 mem start stop val fuel
          = some (plainScan is64 mem start stop (wordWidth is64) (wordWidth is64) (isWord is64 val))
        ↔ InRangeOrNowhere is64 mem start stop (wordWidth is64) (wordWidth is64)
            (wordReach start stop (wordWidth is64)) (isWord is64 val)) := by
  constructor
  · intro str hstr
    have hlen : (str ++ [0]).length = str.length + 1 := by simp
    have htries := findString_tries (str ++ [0]) (by omega)
    rw [hlen] at htries
    refine kfind_eq_plainScan_iff 4080 htries (by omega) (fun i hi => by omega) rfl (by omega) ?_ hread
      hstart hfuel
    rw [places, covered, chunkCount]
    split_ifs <;> omega
  · intro val
    cases is64 with
    | true =>
      refine kfind_eq_plainScan_iff 510 (findWord_tries 8 val.toNat) (by norm_num)
        (fun i hi => by omega) rfl (by norm_num) ?_ hread hstart hfuel
      rw [places, covered, chunkCount]
      split_ifs <;> omega
    | false =>
      refine kfind_eq_plainScan_iff 1020 (findWord_tries 4 (val.toNat % 2 ^ 32))
        (by norm_num) (fun i hi => by omega) rfl (by norm_num) ?_ hread hstart hfuel
      rw [places, covered, chunkCount]
      split_ifs <;> omega

/-! ## A range of sixteen bytes -/

namespace Sample

/-- The letter `A` at two addresses, zeros elsewhere. -/
def memory : Memory := fun addr => some (if addr = 0x1004 ∨ addr = 0x1020 then 65 else 0)

theorem memory_read (start stop : UInt64) (h : stop.toNat ≤ 0x10000) :
    ChunksRead true memory start stop := by
  intro k hk
  have hall : ((List.range 4095).all fun i =>
      (memory (vmAddress true (start.toNat + 4080 * k) + i)).isSome) = true :=
    List.all_eq_true.2 fun i _ => rfl
  have hend : vmAddress true (start.toNat + 4080 * k) + 4095 ≤ (if true then 2 ^ 64 else 2 ^ 32) := by
    simp only [vmAddress, if_true]
    omega
  rw [kread_safe, if_pos hend, readAll, if_pos hall]
  rfl

end Sample

theorem kfind_sixteen_bytes :
    kfind_string_64 true Sample.memory 0x1000 0x1010 [65] 2
      = some (plainScan true Sample.memory 0x1000 0x1010 1 2 (· = [65, 0])) :=
  ((kfind_iff true Sample.memory (by decide) (Sample.memory_read 0x1000 0x1010 (by decide))
    (by decide)).1 [65] (by decide)).2 (Or.inl ⟨4, by decide, by decide⟩)

/-- Behind the range there is another one, which a search of the range then returns. -/
theorem kfind_behind_range :
    kfind_string_64 true Sample.memory 0x1006 0x1010 [65] 2 = some 0x1020
      ∧ plainScan true Sample.memory 0x1006 0x1010 1 2 (· = [65, 0]) = 0 := by
  constructor <;> decide +kernel

end Onegram.KernelScan
