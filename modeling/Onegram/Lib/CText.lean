import Onegram.Lib.Bytes

/-!
# Numbers in C strings

A C string as the list of the bytes before its `NUL`. `atoi` is `strtol` to the base ten, here with
a `long` of 32 bits: what does not fit becomes the nearest number that does.
-/

namespace CText

def isSpace (c : UInt8) : Bool := (9 ≤ c && c ≤ 13) || c = 32

def isDigit (c : UInt8) : Bool := 48 ≤ c && c ≤ 57

/-- The number that the digits of a text write to the base ten. -/
def decimalValue (ds : Bytes) : ℕ := ds.foldl (fun n c => 10 * n + (c.toNat - 48)) 0

/-- The number that the digits at the head of a text write. -/
def leadingNumber (text : Bytes) : ℕ := decimalValue (text.takeWhile isDigit)

def atoi (text : Bytes) : ℤ :=
  let t := text.dropWhile isSpace
  if t.head? = some 45 then max (-2 ^ 31) (-leadingNumber t.tail)
  else if t.head? = some 43 then min (2 ^ 31 - 1) (leadingNumber t.tail)
  else min (2 ^ 31 - 1) (leadingNumber t)

/-! ## Runs of bytes at the head of a text -/

section

variable {p : UInt8 → Bool}

theorem takeWhile_append_cons {xs : Bytes} (h : ∀ c ∈ xs, p c = true) {y : UInt8}
    (hy : p y = false) (ys : Bytes) : (xs ++ y :: ys).takeWhile p = xs := by
  rw [List.takeWhile_append_of_pos h, List.takeWhile_cons_of_neg (by simp [hy]), List.append_nil]

theorem dropWhile_append_cons {xs : Bytes} (h : ∀ c ∈ xs, p c = true) {y : UInt8}
    (hy : p y = false) (ys : Bytes) : (xs ++ y :: ys).dropWhile p = y :: ys := by
  rw [List.dropWhile_append_of_pos h, List.dropWhile_cons_of_neg (by simp [hy])]

theorem takeWhile_append_of_neg (xs : Bytes) {ys : Bytes} (h : ∀ c ∈ ys, p c = false) :
    (xs ++ ys).takeWhile p = xs.takeWhile p := by
  cases ys with
  | nil => rw [List.append_nil]
  | cons y ys =>
    have hy := h y List.mem_cons_self
    rw [List.takeWhile_append, List.takeWhile_cons_of_neg (by simp [hy]), List.append_nil]
    split_ifs with hlen
    · exact ((List.takeWhile_prefix p).eq_of_length hlen).symm
    · rfl

end

theorem length_dropWhile_le (p : UInt8 → Bool) (xs : Bytes) :
    (xs.dropWhile p).length ≤ xs.length :=
  (List.dropWhile_sublist p).length_le

/-! ## Digits -/

theorem isSpace_of_isDigit {c : UInt8} (h : isDigit c = true) : isSpace c = false := by
  simp only [isDigit, isSpace, Bool.and_eq_true, decide_eq_true_eq, UInt8.le_iff_toNat_le] at h ⊢
  simp only [Bool.or_eq_false_iff, Bool.and_eq_false_iff, decide_eq_false_iff_not]
  refine ⟨Or.inr ?_, ?_⟩
  · simp only [UInt8.reduceToNat] at *
    omega
  · rintro rfl
    simp at h

theorem not_sign_of_isDigit {c : UInt8} (h : isDigit c = true) : c ≠ 45 ∧ c ≠ 43 := by
  constructor <;> rintro rfl <;> simp [isDigit] at h

/-- Digits up to a byte that is none. -/
theorem atoi_digits {ds : Bytes} (hne : ds ≠ []) (h : ∀ c ∈ ds, isDigit c = true) {y : UInt8}
    (hy : isDigit y = false) (ys : Bytes) :
    atoi (ds ++ y :: ys) = min (2 ^ 31 - 1) (decimalValue ds : ℤ) := by
  obtain ⟨d, ds', rfl⟩ := List.exists_cons_of_ne_nil hne
  have hd := h d List.mem_cons_self
  have htake := takeWhile_append_cons h hy ys
  have hdrop : (d :: ds' ++ y :: ys).dropWhile isSpace = d :: ds' ++ y :: ys := by
    rw [List.cons_append, List.dropWhile_cons_of_neg (by simp [isSpace_of_isDigit hd])]
  obtain ⟨hm, hp⟩ := not_sign_of_isDigit hd
  rw [atoi, hdrop, if_neg (by simpa using hm), if_neg (by simpa using hp), leadingNumber, htake]

theorem leadingNumber_append (text : Bytes) {spaces : Bytes}
    (h : ∀ c ∈ spaces, isDigit c = false) :
    leadingNumber (text ++ spaces) = leadingNumber text := by
  rw [leadingNumber, leadingNumber, takeWhile_append_of_neg text h]

/-- White space behind a number does not count. -/
theorem atoi_append_spaces (text : Bytes) {spaces : Bytes}
    (h : ∀ c ∈ spaces, isSpace c = true) : atoi (text ++ spaces) = atoi text := by
  have hdigits : ∀ c ∈ spaces, isDigit c = false := fun c hc => by
    by_contra hdigit
    have hspace := isSpace_of_isDigit (Bool.not_eq_false _ ▸ hdigit)
    rw [h c hc] at hspace
    cases hspace
  have hdrop : spaces.dropWhile isSpace = [] := by
    rw [← List.append_nil spaces, List.dropWhile_append_of_pos h, List.dropWhile_nil]
  rw [atoi, atoi, List.dropWhile_append]
  cases text.dropWhile isSpace with
  | nil => rw [List.isEmpty_nil, if_pos rfl, hdrop]
  | cons c t =>
    simp only [List.isEmpty_cons, Bool.false_eq_true, if_false, List.cons_append, List.head?_cons,
      List.tail_cons, leadingNumber_append t hdigits]
    rw [← List.cons_append, leadingNumber_append _ hdigits]
    rfl

end CText
