import Mathlib.Data.List.Nodup
import Mathlib.Order.Basic

/-!
# Values handed out past a mark

An issuer keeps a mark and hands out values above it. Between two marks it may also hand on values
it knew before, each at most once. Issues follow one another.
-/

variable {α : Type*} [Preorder α] {P : α → Prop}

/-- Between the marks `a` and `b` the values `ids` go out: no value twice, each either one of
`known` or past the first mark, none past the second. -/
structure Issue (P : α → Prop) (known : List α) (a : α) (ids : List α) (b : α) : Prop where
  le : a ≤ b
  nodup : ids.Nodup
  valid : ∀ x ∈ ids, P x
  below : ∀ x ∈ ids, x ≤ b
  source : ∀ x ∈ ids, x ∈ known ∨ a < x

namespace Issue

variable {known known₁ known₂ ids ids₁ ids₂ : List α} {a b c x : α}

theorem nil (h : a ≤ b) : Issue P known a [] b := ⟨h, by simp, by simp, by simp, by simp⟩

theorem single (h : a < x) (hx : P x) : Issue P [] a [x] x :=
  ⟨h.le, by simp, by simpa using hx, by simp, by simpa using h⟩

/-- What was known goes out as it is. -/
theorem pass (hnodup : known.Nodup) (hvalid : ∀ x ∈ known, P x) (hle : ∀ x ∈ known, x ≤ a) :
    Issue P known a known a :=
  ⟨le_rfl, hnodup, hvalid, hle, fun _ hx => .inl hx⟩

theorem settle (h : Issue P known a ids b) : Issue P ids b ids b :=
  pass h.nodup h.valid h.below

theorem mono (h : Issue P known₁ a ids b) (hk : known₁ ⊆ known₂) : Issue P known₂ a ids b :=
  { h with source := fun x hx => (h.source x hx).imp_left fun h => hk h }

/-- A value that both issues hand out is known to both. -/
theorem append (h₁ : Issue P known₁ a ids₁ b) (h₂ : Issue P known₂ b ids₂ c)
    (hnodup : (known₁ ++ known₂).Nodup) (hle : ∀ x ∈ known₂, x ≤ a) :
    Issue P (known₁ ++ known₂) a (ids₁ ++ ids₂) c where
  le := h₁.le.trans h₂.le
  nodup := by
    refine List.nodup_append'.2 ⟨h₁.nodup, h₂.nodup, fun x hx₁ hx₂ => ?_⟩
    rcases h₂.source x hx₂ with hk₂ | hb
    · rcases h₁.source x hx₁ with hk₁ | ha
      · exact (List.nodup_append'.1 hnodup).2.2 hk₁ hk₂
      · exact absurd ha (hle x hk₂).not_gt
    · exact absurd hb (h₁.below x hx₁).not_gt
  valid x hx := (List.mem_append.1 hx).elim (h₁.valid x) (h₂.valid x)
  below x hx := (List.mem_append.1 hx).elim (fun hx => (h₁.below x hx).trans h₂.le) (h₂.below x)
  source x hx := by
    rcases List.mem_append.1 hx with hx | hx
    · exact (h₁.source x hx).imp_left fun h => List.mem_append_left _ h
    · rcases h₂.source x hx with hk | hb
      · exact .inl (List.mem_append_right _ hk)
      · exact .inr (h₁.le.trans_lt hb)

/-- New values after new values. -/
theorem append_new (h₁ : Issue P known a ids₁ b) (h₂ : Issue P [] b ids₂ c) (hk : known.Nodup) :
    Issue P known a (ids₁ ++ ids₂) c := by
  have := h₁.append h₂ (by simpa using hk) (by simp)
  rwa [List.append_nil] at this

/-- What the second issue knows is what the first one made. -/
theorem trans (h₁ : Issue P known a ids₁ b) (h₂ : Issue P ids₁ b ids₂ c) :
    Issue P known a ids₂ c :=
  { h₂ with
    le := h₁.le.trans h₂.le
    source := fun x hx => (h₂.source x hx).elim (h₁.source x) fun hb => .inr (h₁.le.trans_lt hb) }

end Issue
