import Mathlib.Data.List.Basic
import Mathlib.Tactic

/-!
# Streams of elements

A framing says of a stream what its first element is: how much of the stream it takes and what it
stands for. What it has said of a stream it says of every longer one. Parsing takes element after
element until the rest has no whole one.
-/

namespace Elements

variable {α ο : Type*}

/-- What a stream begins with. -/
inductive Next (ο : Type*)
  | incomplete
  | malformed
  | element (out : List ο) (length : ℕ)

structure Framing (α ο : Type*) where
  next : List α → Next ο
  pos : ∀ {b o n}, next b = .element o n → 0 < n ∧ n ≤ b.length
  element_append : ∀ {b o n} (c : List α), next b = .element o n → next (b ++ c) = .element o n
  malformed_append : ∀ {b} (c : List α), next b = .malformed → next (b ++ c) = .malformed

structure Parsed (α ο : Type*) where
  out : List ο
  malformed : Bool
  rest : List α

variable (F : Framing α ο)

def parse (b : List α) : Parsed α ο :=
  match _h : F.next b with
  | .incomplete => ⟨[], false, b⟩
  | .malformed => ⟨[], true, b⟩
  | .element o n =>
    let p := parse (b.drop n)
    ⟨o ++ p.out, p.malformed, p.rest⟩
termination_by b.length
decreasing_by
  have := F.pos _h
  simp only [List.length_drop]
  omega

variable {F} {b c : List α}

theorem parse_incomplete (h : F.next b = .incomplete) : parse F b = ⟨[], false, b⟩ := by
  rw [parse]
  split <;> simp_all

theorem parse_malformed (h : F.next b = .malformed) : parse F b = ⟨[], true, b⟩ := by
  rw [parse]
  split <;> simp_all

theorem parse_element {o : List ο} {n : ℕ} (h : F.next b = .element o n) :
    parse F b = ⟨o ++ (parse F (b.drop n)).out, (parse F (b.drop n)).malformed,
      (parse F (b.drop n)).rest⟩ := by
  rw [parse]
  split
  · simp_all
  · simp_all
  · rename_i o' n' h'
    obtain ⟨rfl, rfl⟩ : o' = o ∧ n' = n := by
      rw [h] at h'
      injection h' with h₁ h₂
      exact ⟨h₁.symm, h₂.symm⟩
    rfl

/-- Induction along the elements of a stream. -/
theorem parse_induction {P : List α → Prop} (incomplete : ∀ b, F.next b = .incomplete → P b)
    (malformed : ∀ b, F.next b = .malformed → P b)
    (element : ∀ b o n, F.next b = .element o n → P (b.drop n) → P b) (b : List α) : P b := by
  induction hk : b.length using Nat.strong_induction_on generalizing b with
  | _ k ih =>
    rcases h : F.next b with _ | _ | ⟨o, n⟩
    · exact incomplete b h
    · exact malformed b h
    · have hpos := F.pos h
      refine element b o n h (ih _ ?_ _ rfl)
      rw [List.length_drop]
      omega

/-- What follows a stream whose parse is not at an end goes on after its rest. -/
theorem parse_append : ∀ (b c : List α), (parse F b).malformed = false →
    parse F (b ++ c) = ⟨(parse F b).out ++ (parse F ((parse F b).rest ++ c)).out,
      (parse F ((parse F b).rest ++ c)).malformed, (parse F ((parse F b).rest ++ c)).rest⟩ := by
  intro b c
  induction b using parse_induction (F := F) with
  | incomplete b h => simp [parse_incomplete h]
  | malformed b h => simp [parse_malformed h]
  | element b o n h ih =>
    intro hok
    rw [parse_element h] at hok
    have hn := F.pos h
    rw [parse_element (F.element_append c h), List.drop_append_of_le_length hn.2, ih hok,
      parse_element h]
    simp

/-- Nothing is read past a malformed element. -/
theorem parse_append_malformed : ∀ (b c : List α), (parse F b).malformed = true →
    (parse F (b ++ c)).out = (parse F b).out ∧ (parse F (b ++ c)).malformed = true := by
  intro b c
  induction b using parse_induction (F := F) with
  | incomplete b h => simp [parse_incomplete h]
  | malformed b h => simp [parse_malformed h, parse_malformed (F.malformed_append c h)]
  | element b o n h ih =>
    intro hbad
    rw [parse_element h] at hbad
    have hn := F.pos h
    obtain ⟨hout, hmalformed⟩ := ih hbad
    rw [parse_element (F.element_append c h), List.drop_append_of_le_length hn.2,
      parse_element h]
    simp [hout, hmalformed]

theorem parse_out_prefix (b c : List α) : (parse F b).out <+: (parse F (b ++ c)).out := by
  rcases h : (parse F b).malformed with _ | _
  · rw [parse_append b c h]
    exact List.prefix_append _ _
  · rw [(parse_append_malformed b c h).1]

/-- What is left of a stream where one of its elements begins. -/
inductive Begins (F : Framing α ο) : List α → List α → Prop
  | here (b : List α) : Begins F b b
  | after {b c : List α} {o : List ο} {n : ℕ} : F.next b = .element o n →
      Begins F (b.drop n) c → Begins F b c

/-- Two framings that say the same wherever an element begins parse the stream alike. -/
theorem parse_congr {G : Framing α ο} (b : List α)
    (h : ∀ c, Begins F b c → G.next c = F.next c) : parse G b = parse F b := by
  induction b using parse_induction (F := F) with
  | incomplete b hb => rw [parse_incomplete hb, parse_incomplete ((h b (.here b)).trans hb)]
  | malformed b hb => rw [parse_malformed hb, parse_malformed ((h b (.here b)).trans hb)]
  | element b o n hb ih =>
    rw [parse_element hb, parse_element ((h b (.here b)).trans hb),
      ih fun c hc => h c (.after hb hc)]

/-! ## Whole streams -/

/-- The elements of a stream that ends with one of them. -/
def whole (F : Framing α ο) (b : List α) : Option (List ο) :=
  let p := parse F b
  if p.malformed || !p.rest.isEmpty then none else some p.out

theorem whole_eq_some {o : List ο} : whole F b = some o ↔ parse F b = ⟨o, false, []⟩ := by
  unfold whole
  rcases parse F b with ⟨out, malformed, rest⟩
  rcases malformed <;> rcases rest <;> simp

theorem whole_append {o : List ο} (h : whole F b = some o) (c : List α) :
    whole F (b ++ c) = (whole F c).map (o ++ ·) := by
  have hb := whole_eq_some.mp h
  have happend := parse_append (F := F) b c (by rw [hb])
  rw [hb, List.nil_append] at happend
  unfold whole
  rw [happend]
  dsimp only
  split <;> simp

theorem whole_nil (hnil : F.next [] = .incomplete) : whole F [] = some [] :=
  whole_eq_some.mpr (parse_incomplete hnil)

theorem whole_element (hnil : F.next [] = .incomplete) {o : List ο}
    (h : F.next b = .element o b.length) : whole F b = some o := by
  rw [whole_eq_some, parse_element h, List.drop_length, parse_incomplete hnil]
  simp

/-- Elements one after the other. -/
theorem whole_flatMap {β : Type*} {enc : β → List α} {out : β → List ο}
    (hnil : F.next [] = .incomplete) : ∀ xs : List β,
    (∀ x ∈ xs, F.next (enc x) = .element (out x) (enc x).length) →
    whole F (xs.flatMap enc) = some (xs.flatMap out)
  | [], _ => whole_nil hnil
  | x :: xs, h => by
    rw [List.flatMap_cons, List.flatMap_cons,
      whole_append (whole_element hnil (h x List.mem_cons_self)),
      whole_flatMap hnil xs fun y hy => h y (List.mem_cons_of_mem _ hy)]
    rfl

end Elements
