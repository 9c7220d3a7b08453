import Onegram.Proofs.TunnelLoop

/-!
# Clamping the segment size of a packet

The packet goes through the walk over its TCP options, one word is replaced and the checksum is
computed afresh. The code takes the length of the segment from the buffer and not from the packet,
and asks neither for a whole header nor for the first fragment.
-/

namespace Onegram

/-! ## The law -/

/-- Starting at `opt`, the first maximum segment size among the options has its value at `i`. -/
inductive MssOption (b : Bytes) (optEnd : ℕ) : ℕ → ℕ → Prop
  | here {opt : ℕ} (hkind : b.getD opt 0 = 2) (hlen : b.getD (opt + 1) 0 = 4)
      (hfits : opt + 4 ≤ optEnd) : MssOption b optEnd opt (opt + 2)
  | nop {opt i : ℕ} (hin : opt < optEnd) (hkind : b.getD opt 0 = 1)
      (h : MssOption b optEnd (opt + 1) i) : MssOption b optEnd opt i
  | skip {opt i : ℕ} (hend : b.getD opt 0 ≠ 0) (hnop : b.getD opt 0 ≠ 1)
      (hmss : ¬ (b.getD opt 0 = 2 ∧ (b.getD (opt + 1) 0).toNat = 4))
      (hlen : 2 ≤ (b.getD (opt + 1) 0).toNat)
      (hfits : opt + (b.getD (opt + 1) 0).toNat ≤ optEnd)
      (h : MssOption b optEnd (opt + (b.getD (opt + 1) 0).toNat) i) : MssOption b optEnd opt i

def ip_hlen (b : Bytes) : ℕ := ((b.getD 0 0) &&& 0x0F).toNat * 4

def tcp_hlen (b : Bytes) : ℕ := (((b.getD (ip_hlen b + 12) 0) >>> 4) &&& 0x0F).toNat * 4

/-- The total length of the packet, as its header has it. -/
def total_length (b : Bytes) : ℕ := be16 b 2

/-- The buffer holds an IPv4 packet, the first or only fragment of one, that is a TCP SYN with whole
headers. -/
structure FirstSyn (b : Bytes) : Prop where
  version : (b.getD 0 0) >>> 4 = 4
  ip_header : 20 ≤ ip_hlen b
  total : ip_hlen b + 20 ≤ total_length b
  whole : total_length b ≤ b.length
  tcp : b.getD 9 0 = 6
  first : be16 b 6 % 8192 = 0
  tcp_header : 20 ≤ tcp_hlen b
  options : ip_hlen b + tcp_hlen b ≤ total_length b
  syn : (b.getD (ip_hlen b + 13) 0) &&& 0x02 ≠ 0

/-- The checksum of the segment is right: with the pseudo header it adds up to all ones. -/
def ChecksumValid (b : Bytes) : Prop :=
  let tcp_len := total_length b - ip_hlen b
  fold_sum (sum_words b 12 8 + 6 + tcp_len + sum_words b (ip_hlen b) tcp_len) = 65535

instance (b : Bytes) : Decidable (ChecksumValid b) := by
  unfold ChecksumValid
  infer_instance

/-- The value of the first segment size among the options is at `i`. -/
def MssAt (b : Bytes) (i : ℕ) : Prop :=
  MssOption b (ip_hlen b + tcp_hlen b) (ip_hlen b + 20) i

/-- What clamping a buffer is to do. -/
structure ExactlyClamped (b b' : Bytes) : Prop where
  other : ¬ FirstSyn b → b' = b
  length : b'.length = b.length
  changes : ∀ j, b'[j]? ≠ b[j]? →
    (∃ i, MssAt b i ∧ (j = i ∨ j = i + 1)) ∨ j = ip_hlen b + 16 ∨ j = ip_hlen b + 17
  mss : FirstSyn b → ∀ i, MssAt b i → be16 b' i = min (be16 b i) 1200
  checksum : FirstSyn b → ChecksumValid b → ChecksumValid b'
  again : clamp_tcp_mss b' = b'

/-! ## The condition -/

/-- The code finds a segment size over 1200 in the buffer. -/
structure Clamps (b : Bytes) (i : ℕ) : Prop where
  version : (b.getD 0 0) >>> 4 = 4
  ip_header : ip_hlen b + 20 ≤ b.length
  long : 20 ≤ b.length
  tcp : b.getD 9 0 = 6
  syn : (b.getD (ip_hlen b + 13) 0) &&& 0x02 ≠ 0
  options : ip_hlen b + tcp_hlen b ≤ b.length
  mss : MssAt b i
  big : 1200 < be16 b i

/-- The sum of `n` bytes from `j` on, where the first one is the low half of its word. -/
def odd_words (b : Bytes) (j : ℕ) : ℕ → ℕ
  | 0 => 0
  | n + 1 => (b.getD j 0).toNat + sum_words b (j + 1) n

/-- What `n` bytes from `j` on add to the sum of the `m` bytes before them. -/
def tail_words (b : Bytes) (j m n : ℕ) : ℕ :=
  if m % 2 = 0 then sum_words b j n else odd_words b j n

/-- What follows the packet in the buffer adds nothing to the checksum, its length included. -/
def Neutral (b : Bytes) : Prop :=
  let tcp_len := total_length b - ip_hlen b
  (tail_words b (total_length b) tcp_len (b.length - total_length b)
    + (b.length - ip_hlen b) % 65536) % 65535 = tcp_len % 65535

/-! ## The walk -/

section Walk

variable {b b' : Bytes} {opt optEnd i i' : ℕ}

theorem MssOption.bounds (h : MssOption b optEnd opt i) : opt + 2 ≤ i ∧ i + 2 ≤ optEnd := by
  induction h with
  | here hkind hlen hfits => omega
  | nop hin hkind h ih => omega
  | skip hend hnop hmss hlen hfits h ih => omega

/-- The walk reads the bytes before the value only. -/
theorem MssOption.congr (h : MssOption b optEnd opt i)
    (hsame : ∀ j, opt ≤ j → j < i → b'.getD j 0 = b.getD j 0) : MssOption b' optEnd opt i := by
  induction h with
  | @here opt hkind hlen hfits =>
    refine .here ?_ ?_ hfits
    · rw [hsame opt le_rfl (by omega), hkind]
    · rw [hsame (opt + 1) (by omega) (by omega), hlen]
  | @nop opt i hin hkind h ih =>
    have hbounds := h.bounds
    refine .nop hin ?_ (ih fun j hj => hsame j (by omega))
    rw [hsame opt le_rfl (by omega), hkind]
  | @skip opt i hend hnop hmss hlen hfits h ih =>
    have hbounds := h.bounds
    have hkind' := hsame opt le_rfl (by omega)
    have hlen' := hsame (opt + 1) (by omega) (by omega)
    refine .skip (hkind' ▸ hend) (hkind' ▸ hnop) ?_ (hlen' ▸ hlen) (hlen' ▸ hfits) ?_
    · rwa [hkind', hlen']
    · rw [hlen']
      exact ih fun j hj => hsame j (by omega)

/-- At an option that is no padding the walk has room for its length, finds the value, or goes past
it. -/
theorem MssOption.cases_option (hend : b.getD opt 0 ≠ 0) (hnop : b.getD opt 0 ≠ 1) :
    MssOption b optEnd opt i ↔
      2 ≤ (b.getD (opt + 1) 0).toNat ∧ opt + (b.getD (opt + 1) 0).toNat ≤ optEnd
        ∧ if b.getD opt 0 = 2 ∧ (b.getD (opt + 1) 0).toNat = 4 then i = opt + 2
          else MssOption b optEnd (opt + (b.getD (opt + 1) 0).toNat) i := by
  constructor
  · rintro (⟨hkind, hlen, hfits⟩ | ⟨hin, hkind, h⟩ | ⟨-, -, hmss, hlen, hfits, h⟩)
    · rw [hlen, if_pos ⟨hkind, rfl⟩]
      exact ⟨by decide, hfits, rfl⟩
    · exact absurd hkind hnop
    · rw [if_neg hmss]
      exact ⟨hlen, hfits, h⟩
  · rintro ⟨hlen, hfits, h⟩
    split_ifs at h with hmss
    · subst h
      exact .here hmss.1 (UInt8.toNat_inj.mp hmss.2) (hmss.2 ▸ hfits)
    · exact .skip hend hnop hmss hlen hfits h

theorem find_mss_eq_some_iff (b : Bytes) (opt optEnd i : ℕ) :
    find_mss b opt optEnd = some i ↔ MssOption b optEnd opt i ∧ 1200 < be16 b i := by
  fun_induction find_mss b opt optEnd with
  | case1 opt hover =>
    refine iff_of_false (by simp) fun h => ?_
    have hbounds := h.1.bounds
    omega
  | case2 opt hover kind hkind =>
    refine iff_of_false (by simp) ?_
    rintro ⟨⟨hkind', -, -⟩ | ⟨-, hkind', -⟩ | ⟨hend, -, -, -, -, -⟩, -⟩
    · exact absurd (hkind.symm.trans hkind') (by decide)
    · exact absurd (hkind.symm.trans hkind') (by decide)
    · exact hend hkind
  | case3 opt hover kind hend hkind ih =>
    rw [ih]
    refine and_congr_left fun _ => ⟨fun h => .nop (by omega) hkind h, ?_⟩
    rintro (⟨hkind', -, -⟩ | ⟨-, -, h⟩ | ⟨-, hnop, -, -, -, -⟩)
    · exact absurd (hkind.symm.trans hkind') (by decide)
    · exact h
    · exact absurd hkind hnop
  | case4 opt hover kind hend hnop hone =>
    rw [MssOption.cases_option hend hnop]
    exact iff_of_false (by simp) fun h => by omega
  | case5 opt hover kind hend hnop hone len hbad =>
    rw [MssOption.cases_option hend hnop]
    exact iff_of_false (by simp) fun h => by omega
  | case6 opt hover kind hend hnop hone len hgood hmss hbig =>
    rw [MssOption.cases_option hend hnop, if_pos hmss]
    constructor
    · intro heq
      obtain rfl := Option.some.inj heq
      exact ⟨⟨by omega, by omega, rfl⟩, hbig⟩
    · rintro ⟨⟨-, -, rfl⟩, -⟩
      rfl
  | case7 opt hover kind hend hnop hone len hgood hmss hsmall =>
    rw [MssOption.cases_option hend hnop, if_pos hmss]
    refine iff_of_false (by simp) ?_
    rintro ⟨⟨-, -, rfl⟩, hbig⟩
    exact hsmall hbig
  | case8 opt hover kind hend hnop hone len hgood hmss ih =>
    rw [ih, MssOption.cases_option hend hnop, if_neg hmss]
    refine and_congr_left fun _ => ⟨fun h => ⟨?_, ?_, h⟩, fun h => h.2.2⟩
    · exact not_lt.mp fun h => hgood (.inl h)
    · exact not_lt.mp fun h => hgood (.inr h)

/-- The walk finds one option at most. -/
theorem MssOption.unique (h : MssOption b optEnd opt i) (h' : MssOption b optEnd opt i') :
    i = i' := by
  induction h with
  | @here opt hkind hlen hfits =>
    have hend : b.getD opt 0 ≠ 0 := by rw [hkind]; decide
    have hnop : b.getD opt 0 ≠ 1 := by rw [hkind]; decide
    rw [MssOption.cases_option hend hnop, hlen, if_pos ⟨hkind, rfl⟩] at h'
    exact h'.2.2.symm
  | nop hin hkind h ih =>
    rcases h' with ⟨hkind', -, -⟩ | ⟨-, -, h'⟩ | ⟨-, hnop, -, -, -, -⟩
    · exact absurd (hkind.symm.trans hkind') (by decide)
    · exact ih h'
    · exact absurd hkind hnop
  | skip hend hnop hmss hlen hfits h ih =>
    rw [MssOption.cases_option hend hnop, if_neg hmss] at h'
    exact ih h'.2.2

end Walk

/-! ## The checksum -/

section Checksum

variable {b b' : Bytes}

theorem fold_sum_spec (n : ℕ) :
    fold_sum n < 65536 ∧ fold_sum n % 65535 = n % 65535 ∧ (fold_sum n = 0 ↔ n = 0) := by
  fun_induction fold_sum n with
  | case1 n hsmall => exact ⟨hsmall, rfl, Iff.rfl⟩
  | case2 n hbig ih =>
    obtain ⟨hlt, hmod, hzero⟩ := ih
    exact ⟨hlt, by rw [hmod]; omega, by rw [hzero]; omega⟩

/-- A sum folds to all ones just when it is a multiple of that. -/
theorem fold_sum_eq_iff {n : ℕ} (hn : 0 < n) : fold_sum n = 65535 ↔ n % 65535 = 0 := by
  obtain ⟨hlt, hmod, hzero⟩ := fold_sum_spec n
  constructor
  · intro h
    rw [← hmod, h]
  · intro h
    have hne : fold_sum n ≠ 0 := fun h0 => by omega
    omega

theorem be16_le (b : Bytes) (i : ℕ) : be16 b i ≤ 65535 := by
  have hhigh := (b.getD i 0).toNat_lt
  have hlow := (b.getD (i + 1) 0).toNat_lt
  unfold be16
  omega

theorem sum_words_le (b : Bytes) : ∀ i n, sum_words b i n ≤ 65535 * ((n + 1) / 2)
  | _, 0 => le_rfl
  | i, 1 => by
    have hbyte := (b.getD i 0).toNat_lt
    rw [sum_words]
    omega
  | i, n + 2 => by
    have hrest := sum_words_le b (i + 2) n
    have hword := be16_le b i
    rw [sum_words]
    omega

theorem sum_words_congr : ∀ i n, (∀ j, i ≤ j → j < i + n → b'.getD j 0 = b.getD j 0) →
    sum_words b' i n = sum_words b i n
  | _, 0, _ => rfl
  | i, 1, h => by rw [sum_words, sum_words, h i le_rfl (by omega)]
  | i, n + 2, h => by
    rw [sum_words, sum_words, be16, be16, h i le_rfl (by omega), h (i + 1) (by omega) (by omega),
      sum_words_congr (i + 2) n fun j hj hlt => h j (by omega) (by omega)]

theorem tail_words_congr (j m n : ℕ) (h : ∀ l, j ≤ l → l < j + n → b'.getD l 0 = b.getD l 0) :
    tail_words b' j m n = tail_words b j m n := by
  unfold tail_words
  split_ifs
  · exact sum_words_congr j n h
  · rcases n with _ | n
    · rfl
    · rw [odd_words, odd_words, h j le_rfl (by omega),
        sum_words_congr (j + 1) n fun l hl hlt => h l (by omega) (by omega)]

theorem sum_words_append (b : Bytes) : ∀ i m n,
    sum_words b i (m + n) = sum_words b i m + tail_words b (i + m) m n
  | i, 0, n => by simp [sum_words, tail_words]
  | i, 1, 0 => by simp [tail_words, odd_words]
  | i, 1, n + 1 => by
    have hlen : 1 + (n + 1) = n + 2 := by omega
    have hpos : sum_words b (i + 1 + 1) n = sum_words b (i + 2) n := rfl
    rw [hlen, sum_words, sum_words, be16, tail_words, if_neg (by decide), odd_words]
    omega
  | i, m + 2, n => by
    have hlen : m + 2 + n = m + n + 2 := by omega
    have hpos : i + 2 + m = i + (m + 2) := by omega
    have hparity : tail_words b (i + (m + 2)) (m + 2) n = tail_words b (i + (m + 2)) m n := by
      rw [tail_words, tail_words, Nat.add_mod_right]
    rw [hlen, sum_words, sum_words, sum_words_append b (i + 2) m n, hpos, hparity, add_assoc]

/-- A word written over zeros counts for itself. -/
theorem sum_words_put {i n k : ℕ} (hk : k % 2 = 0) (hin : k + 2 ≤ n)
    (hzero : be16 b (i + k) = 0)
    (hsame : ∀ j, j ≠ i + k → j ≠ i + k + 1 → b'.getD j 0 = b.getD j 0) :
    sum_words b' i n = sum_words b i n + be16 b' (i + k) := by
  obtain ⟨m, rfl⟩ : ∃ m, n = k + (m + 2) := ⟨n - k - 2, by omega⟩
  have hbefore := sum_words_congr i k fun j _ hlt => hsame j (by omega) (by omega)
  have hafter := sum_words_congr (i + k + 2) m fun j hj _ => hsame j (by omega) (by omega)
  rw [sum_words_append, sum_words_append, hbefore]
  simp only [tail_words, if_pos hk, sum_words]
  rw [hafter, hzero]
  omega

end Checksum

/-! ## The buffer afterwards -/

/-- The word at `i` becomes `w`. -/
def set_be16 (b : Bytes) (i w : ℕ) : Bytes :=
  (b.set i (w / 256).toUInt8).set (i + 1) (w % 256).toUInt8

/-- The buffer with the new segment size at `i` and no checksum. -/
def unsummed (b : Bytes) (i : ℕ) : Bytes :=
  set_be16 (set_be16 b i 1200) (ip_hlen b + 16) 0

/-- The checksum the code computes. -/
def new_checksum (b : Bytes) (i : ℕ) : ℕ :=
  65535 - fold_sum (sum_words (unsummed b i) 12 8 + 6 + (b.length - ip_hlen b) % 65536
    + sum_words (unsummed b i) (ip_hlen b) (b.length - ip_hlen b))

def clamped (b : Bytes) (i : ℕ) : Bytes :=
  set_be16 (unsummed b i) (ip_hlen b + 16) (new_checksum b i)

/-- In the buffers of the loop the sum stays within its 32 bits. -/
theorem checksum_sum_lt (b z : Bytes) (h : b.length ≤ 2048) :
    sum_words z 12 8 + 6 + (b.length - ip_hlen b) % 65536
      + sum_words z (ip_hlen b) (b.length - ip_hlen b) < 2 ^ 32 := by
  have haddresses := sum_words_le z 12 8
  have hsegment := sum_words_le z (ip_hlen b) (b.length - ip_hlen b)
  omega

section Clamped

variable {b b' : Bytes} {i : ℕ}

@[simp] theorem length_set_be16 (b : Bytes) (i w : ℕ) : (set_be16 b i w).length = b.length := by
  simp [set_be16]

theorem getElem?_set_be16 {w j : ℕ} (h : j ≠ i) (h' : j ≠ i + 1) :
    (set_be16 b i w)[j]? = b[j]? := by
  rw [set_be16, List.getElem?_set_ne (Ne.symm h'), List.getElem?_set_ne (Ne.symm h)]

theorem getD_set_be16 {w j : ℕ} (h : j ≠ i) (h' : j ≠ i + 1) :
    (set_be16 b i w).getD j 0 = b.getD j 0 := by
  rw [List.getD_eq_getElem?_getD, getElem?_set_be16 h h', ← List.getD_eq_getElem?_getD]

theorem be16_set_be16 {w : ℕ} (hw : w < 65536) (hin : i + 1 < b.length) :
    be16 (set_be16 b i w) i = w := by
  have hhigh : (set_be16 b i w).getD i 0 = (w / 256).toUInt8 := by
    rw [set_be16, List.getD_eq_getElem?_getD, List.getElem?_set_ne (by omega),
      List.getElem?_set_self (by omega), Option.getD_some]
  have hlow : (set_be16 b i w).getD (i + 1) 0 = (w % 256).toUInt8 := by
    rw [set_be16, List.getD_eq_getElem?_getD, List.getElem?_set_self (by simpa using hin),
      Option.getD_some]
  simp only [be16, hhigh, hlow, Nat.toUInt8, UInt8.toNat_ofNat']
  omega

theorem be16_congr (h : b'.getD i 0 = b.getD i 0) (h' : b'.getD (i + 1) 0 = b.getD (i + 1) 0) :
    be16 b' i = be16 b i := by
  rw [be16, be16, h, h']

theorem getElem?_clamped {j : ℕ} (hi : j ≠ i) (hi' : j ≠ i + 1) (hsum : j ≠ ip_hlen b + 16)
    (hsum' : j ≠ ip_hlen b + 17) : (clamped b i)[j]? = b[j]? := by
  rw [clamped, unsummed, getElem?_set_be16 hsum hsum', getElem?_set_be16 hsum hsum',
    getElem?_set_be16 hi hi']

theorem getD_clamped {j : ℕ} (hi : j ≠ i) (hi' : j ≠ i + 1) (hsum : j ≠ ip_hlen b + 16)
    (hsum' : j ≠ ip_hlen b + 17) : (clamped b i).getD j 0 = b.getD j 0 := by
  rw [List.getD_eq_getElem?_getD, getElem?_clamped hi hi' hsum hsum',
    ← List.getD_eq_getElem?_getD]

@[simp] theorem length_clamped (b : Bytes) (i : ℕ) : (clamped b i).length = b.length := by
  simp [clamped, unsummed]

/-- The checks of the code, one after the other. -/
theorem clamp_tcp_mss_eq (b : Bytes) : clamp_tcp_mss b =
    if b.length < 20 then b else
    if (b.getD 0 0) >>> 4 ≠ 4 then b else
    if b.length < ip_hlen b then b else
    if b.getD 9 0 ≠ 6 then b else
    if b.length - ip_hlen b < 20 then b else
    if (b.getD (ip_hlen b + 13) 0) &&& 0x02 = 0 then b else
    if b.length - ip_hlen b < tcp_hlen b then b else
    match find_mss b (ip_hlen b + 20) (ip_hlen b + tcp_hlen b) with
    | none => b
    | some i => clamped b i := rfl

/-- The code either finds nothing or replaces the value that it finds. -/
theorem clamp_tcp_mss_cases (b : Bytes) :
    (∃ i, Clamps b i ∧ clamp_tcp_mss b = clamped b i)
      ∨ (∀ i, ¬ Clamps b i) ∧ clamp_tcp_mss b = b := by
  rw [clamp_tcp_mss_eq]
  by_cases hlong : b.length < 20
  · exact .inr ⟨fun i h => absurd h.long (by omega), if_pos hlong⟩
  by_cases hversion : (b.getD 0 0) >>> 4 ≠ 4
  · exact .inr ⟨fun i h => hversion h.version, by rw [if_neg hlong, if_pos hversion]⟩
  by_cases hheader : b.length < ip_hlen b
  · refine .inr ⟨fun i h => absurd h.ip_header (by omega), ?_⟩
    rw [if_neg hlong, if_neg hversion, if_pos hheader]
  by_cases htcp : b.getD 9 0 ≠ 6
  · refine .inr ⟨fun i h => htcp h.tcp, ?_⟩
    rw [if_neg hlong, if_neg hversion, if_neg hheader, if_pos htcp]
  rw [if_neg hlong, if_neg hversion, if_neg hheader, if_neg htcp]
  by_cases hsegment : b.length - ip_hlen b < 20
  · exact .inr ⟨fun i h => absurd h.ip_header (by omega), if_pos hsegment⟩
  by_cases hsyn : (b.getD (ip_hlen b + 13) 0) &&& 0x02 = 0
  · exact .inr ⟨fun i h => h.syn hsyn, by rw [if_neg hsegment, if_pos hsyn]⟩
  by_cases hoptions : b.length - ip_hlen b < tcp_hlen b
  · refine .inr ⟨fun i h => absurd h.options (by omega), ?_⟩
    rw [if_neg hsegment, if_neg hsyn, if_pos hoptions]
  rw [if_neg hsegment, if_neg hsyn, if_neg hoptions]
  cases hfind : find_mss b (ip_hlen b + 20) (ip_hlen b + tcp_hlen b) with
  | none =>
    refine .inr ⟨fun i h => ?_, rfl⟩
    have hfound := (find_mss_eq_some_iff _ _ _ i).mpr ⟨h.mss, h.big⟩
    rw [hfind] at hfound
    cases hfound
  | some i =>
    obtain ⟨hmss, hbig⟩ := (find_mss_eq_some_iff _ _ _ i).mp hfind
    exact .inl ⟨i, ⟨not_not.mp hversion, by omega, by omega, not_not.mp htcp, hsyn, by omega, hmss,
      hbig⟩, rfl⟩

/-! Below, the buffer has a segment size to replace. -/

variable (h : Clamps b i)
include h

theorem Clamps.place : ip_hlen b + 22 ≤ i ∧ i + 2 ≤ b.length := by
  have hbounds := h.mss.bounds
  have hoptions := h.options
  omega

/-- What the code reads of the headers stays. -/
theorem Clamps.headers : (∀ j, j < ip_hlen b + 16 → (clamped b i).getD j 0 = b.getD j 0)
    ∧ ip_hlen (clamped b i) = ip_hlen b ∧ tcp_hlen (clamped b i) = tcp_hlen b := by
  have hplace := h.place
  have hbefore : ∀ j, j < ip_hlen b + 16 → (clamped b i).getD j 0 = b.getD j 0 := fun j hj =>
    getD_clamped (by omega) (by omega) (by omega) (by omega)
  have hip : ip_hlen (clamped b i) = ip_hlen b := by
    rw [ip_hlen, hbefore 0 (by omega), ip_hlen]
  refine ⟨hbefore, hip, ?_⟩
  rw [tcp_hlen, hip, hbefore (ip_hlen b + 12) (by omega), tcp_hlen]

theorem Clamps.new_mss : be16 (clamped b i) i = 1200 := by
  have hplace := h.place
  have hnew : be16 (set_be16 b i 1200) i = 1200 := be16_set_be16 (by decide) (by omega)
  rw [← hnew, clamped, unsummed]
  apply be16_congr
  · rw [getD_set_be16 (by omega) (by omega), getD_set_be16 (by omega) (by omega)]
  · rw [getD_set_be16 (by omega) (by omega), getD_set_be16 (by omega) (by omega)]

/-- The walk over the new buffer comes to the same value. -/
theorem Clamps.mssAt : MssAt (clamped b i) i := by
  obtain ⟨hbefore, hip, htcp⟩ := h.headers
  unfold MssAt
  rw [hip, htcp]
  exact h.mss.congr fun j hj hlt => getD_clamped (by omega) (by omega) (by omega) (by omega)

theorem Clamps.again : clamp_tcp_mss (clamped b i) = clamped b i := by
  rcases clamp_tcp_mss_cases (clamped b i) with ⟨i', h', -⟩ | ⟨-, hnone⟩
  · have hsame : i = i' := h.mssAt.unique h'.mss
    have hbig := h'.big
    rw [← hsame, h.new_mss] at hbig
    exact absurd hbig (lt_irrefl _)
  · exact hnone

theorem Clamps.ne : clamped b i ≠ b := by
  intro heq
  have hbig := h.big
  rw [← heq, h.new_mss] at hbig
  exact absurd hbig (lt_irrefl _)

/-- The new checksum is right for the packet just when what follows it adds nothing. -/
theorem Clamps.checksum_iff (hsyn : FirstSyn b) : ChecksumValid (clamped b i) ↔ Neutral b := by
  obtain ⟨hbefore, hip, -⟩ := h.headers
  have hplace := h.place
  have hbounds := h.mss.bounds
  obtain ⟨hheader, htotal, hwhole, hoptions⟩ :=
    And.intro hsyn.ip_header (And.intro hsyn.total (And.intro hsyn.whole hsyn.options))
  have htotal' : total_length (clamped b i) = total_length b :=
    be16_congr (hbefore 2 (by omega)) (hbefore 3 (by omega))
  have hpseudo : sum_words (clamped b i) 12 8 = sum_words (unsummed b i) 12 8 :=
    sum_words_congr 12 8 fun j _ hlt => getD_set_be16 (by omega) (by omega)
  have hzero : be16 (unsummed b i) (ip_hlen b + 16) = 0 :=
    be16_set_be16 (by decide) (by rw [length_set_be16]; omega)
  have hsum : be16 (clamped b i) (ip_hlen b + 16) = new_checksum b i := by
    refine be16_set_be16 (by unfold new_checksum; omega) ?_
    rw [unsummed, length_set_be16, length_set_be16]
    omega
  have hsegment : sum_words (clamped b i) (ip_hlen b) (total_length b - ip_hlen b)
      = sum_words (unsummed b i) (ip_hlen b) (total_length b - ip_hlen b) + new_checksum b i := by
    have hsame : ∀ j, j ≠ ip_hlen b + 16 → j ≠ ip_hlen b + 16 + 1 →
        (clamped b i).getD j 0 = (unsummed b i).getD j 0 := fun j => getD_set_be16
    rw [sum_words_put (by decide) (by omega) hzero hsame, hsum]
  have hbuffer : sum_words (unsummed b i) (ip_hlen b) (b.length - ip_hlen b)
      = sum_words (unsummed b i) (ip_hlen b) (total_length b - ip_hlen b)
        + tail_words b (total_length b) (total_length b - ip_hlen b)
          (b.length - total_length b) := by
    have hlen : b.length - ip_hlen b
        = total_length b - ip_hlen b + (b.length - total_length b) := by omega
    have hpos : ip_hlen b + (total_length b - ip_hlen b) = total_length b := by omega
    have hsame : ∀ j, total_length b ≤ j → (unsummed b i).getD j 0 = b.getD j 0 := fun j hj => by
      rw [unsummed, getD_set_be16 (by omega) (by omega), getD_set_be16 (by omega) (by omega)]
    rw [hlen, sum_words_append, hpos, tail_words_congr _ _ _ fun j hj _ => hsame j hj]
  unfold ChecksumValid Neutral
  dsimp only
  rw [hip, htotal', hpseudo, hsegment, fold_sum_eq_iff (by omega)]
  obtain ⟨hlt, hmod, -⟩ := fold_sum_spec (sum_words (unsummed b i) 12 8 + 6
    + (b.length - ip_hlen b) % 65536
    + sum_words (unsummed b i) (ip_hlen b) (b.length - ip_hlen b))
  unfold new_checksum
  rw [hbuffer] at hlt hmod ⊢
  omega

end Clamped

/-! ## The result -/

theorem not_clamps_exact {b : Bytes} (h : ∀ i, ¬ Clamps b i) (hsame : clamp_tcp_mss b = b) :
    ExactlyClamped b b := by
  refine ⟨fun _ => rfl, rfl, fun j hj => absurd rfl hj, fun hsyn i hi => ?_, fun _ hvalid => hvalid,
    hsame⟩
  have hsmall : be16 b i ≤ 1200 := by
    by_contra hbig
    have htotal := hsyn.total
    have hwhole := hsyn.whole
    have hoptions := hsyn.options
    exact h i ⟨hsyn.version, by omega, by omega, hsyn.tcp, hsyn.syn, by omega, hi, by omega⟩
  exact (min_eq_left hsmall).symm

/-- The buffer is clamped exactly just when a segment size that the code replaces is in a first
fragment of a SYN, and with a right checksum there nothing behind the packet adds to it. -/
theorem clamp_tcp_mss_exact_iff (b : Bytes) : ExactlyClamped b (clamp_tcp_mss b) ↔
    ((∃ i, Clamps b i) → FirstSyn b ∧ (ChecksumValid b → Neutral b)) := by
  rcases clamp_tcp_mss_cases b with ⟨i, h, hclamped⟩ | ⟨hnone, hsame⟩
  · rw [hclamped]
    constructor
    · intro hexact _
      have hsyn : FirstSyn b := by_contra fun hother => h.ne (hexact.other hother)
      exact ⟨hsyn, fun hvalid => (h.checksum_iff hsyn).mp (hexact.checksum hsyn hvalid)⟩
    · intro hcond
      obtain ⟨hsyn, hneutral⟩ := hcond ⟨i, h⟩
      refine ⟨fun hother => absurd hsyn hother, length_clamped b i, fun j hj => ?_,
        fun _ i' hi' => ?_, fun _ hvalid => (h.checksum_iff hsyn).mpr (hneutral hvalid), h.again⟩
      · by_contra hout
        rw [not_or, not_or] at hout
        exact hj (getElem?_clamped (fun hi => hout.1 ⟨i, h.mss, .inl hi⟩)
          (fun hi => hout.1 ⟨i, h.mss, .inr hi⟩) hout.2.1 hout.2.2)
      · obtain rfl := h.mss.unique hi'
        rw [h.new_mss, min_eq_right h.big.le]
  · rw [hsame]
    exact iff_of_true (not_clamps_exact hnone hsame) fun ⟨i, h⟩ => absurd h (hnone i)

/-- A SYN of 44 bytes with a right checksum, padded to 48 as a tunnel does. -/
theorem padded_syn_broken :
    let b : Bytes := [0x45, 0, 0, 44, 0, 0, 0, 0, 64, 6, 0, 0, 10, 0, 0, 1, 10, 0, 0, 2,
      0, 80, 0, 90, 0, 0, 0, 0, 0, 0, 0, 0, 0x60, 2, 0, 0, 131, 122, 0, 0, 2, 4, 5, 180, 0, 0, 0, 0]
    ¬ ExactlyClamped b (clamp_tcp_mss b) := by
  intro b hexact
  have hsyn : FirstSyn b := by constructor <;> decide
  have hvalid : ChecksumValid b := by decide +kernel
  have hbroken : ¬ ChecksumValid (clamp_tcp_mss b) := by decide +kernel
  exact hbroken (hexact.checksum hsyn hvalid)

end Onegram
