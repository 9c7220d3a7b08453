import Mathlib.Data.List.Basic
import Mathlib.Tactic

/-!
# Readers

A reader takes a value off the front of a list, or fails. What an encoding means to a reader is
stated with whatever follows it, so that the statements compose as the readers do.
-/

abbrev Reader (τ : Type) := StateT (List τ) Option

namespace Reader

variable {τ α β : Type}

def fail : Reader τ α := fun _ => none

/-- The next `n` symbols. -/
def take (n : ℕ) : Reader τ (List τ) := fun s =>
  if n ≤ s.length then some (s.take n, s.drop n) else none

/-- All that is left, which stays. -/
def rest : Reader τ (List τ) := fun s => some (s, s)

def times (r : Reader τ α) : ℕ → Reader τ (List α)
  | 0 => pure []
  | n + 1 => do
    let v ← r
    let vs ← times r n
    pure (v :: vs)

/-- `r` reads `v` off `e`, and leaves what follows. -/
def Reads (r : Reader τ α) (e : List τ) (v : α) : Prop :=
  ∀ s, r (e ++ s) = some (v, s)

/-- `r` fails on `e`, whatever follows. -/
def Fails (r : Reader τ α) (e : List τ) : Prop := ∀ s, r (e ++ s) = none

/-- What `r` takes off is an encoding of what it gives. -/
def Takes (r : Reader τ α) (enc : α → List τ) : Prop :=
  ∀ s v t, r s = some (v, t) → s = enc v ++ t

/-- `r` gives `v` on exactly `e`. -/
def Gives (r : Reader τ α) (e : List τ) (v : α) : Prop := ∃ s, r e = some (v, s)

theorem bind_apply (r : Reader τ α) (f : α → Reader τ β) (s : List τ) :
    (r >>= f) s = (r s).bind fun p => f p.1 p.2 := by
  change (StateT.bind r f) s = _
  unfold StateT.bind
  cases r s <;> rfl

theorem Reads.pure (v : α) : Reads (pure v : Reader τ α) [] v := fun _ => rfl

theorem Reads.bind {r : Reader τ α} {f : α → Reader τ β} {e e' : List τ} {v : α} {w : β}
    (h : Reads r e v) (h' : Reads (f v) e' w) : Reads (r >>= f) (e ++ e') w := by
  intro s
  rw [bind_apply, List.append_assoc, h (e' ++ s)]
  exact h' s

/-- The last one of a row takes nothing more. -/
theorem Reads.bind_nil {r : Reader τ α} {f : α → Reader τ β} {e : List τ} {v : α} {w : β}
    (h : Reads r e v) (h' : Reads (f v) [] w) : Reads (r >>= f) e w := by
  have hbind := h.bind h'
  rwa [List.append_nil] at hbind

/-- What is read, changed. -/
theorem Reads.bind_pure {r : Reader τ α} {e : List τ} {v : α} (h : Reads r e v) (g : α → β) :
    Reads (do let v ← r; Pure.pure (g v)) e (g v) :=
  h.bind_nil (Reads.pure (g v))

theorem Reads.map {r : Reader τ α} {e : List τ} {v : α} (h : Reads r e v) (g : α → β) :
    Reads (g <$> r) e (g v) := by
  rw [map_eq_pure_bind]
  exact h.bind_pure g

theorem Reads.bind_fails {r : Reader τ α} {f : α → Reader τ β} {e e' : List τ} {v : α}
    (h : Reads r e v) (h' : Fails (f v) e') : Fails (r >>= f) (e ++ e') := by
  intro s
  rw [bind_apply, List.append_assoc, h (e' ++ s)]
  exact h' s

theorem Fails.bind {r : Reader τ α} {e : List τ} (h : Fails r e) (f : α → Reader τ β)
    (e' : List τ) : Fails (r >>= f) (e ++ e') := by
  intro s
  rw [bind_apply, List.append_assoc, h (e' ++ s)]
  rfl

theorem Fails.bind_nil {r : Reader τ α} {e : List τ} (h : Fails r e) (f : α → Reader τ β) :
    Fails (r >>= f) e := by
  have h' := h.bind f []
  rwa [List.append_nil] at h'

theorem Fails.map {r : Reader τ α} {e : List τ} (h : Fails r e) (g : α → β) :
    Fails (g <$> r) e := by
  rw [map_eq_pure_bind]
  exact h.bind_nil _

theorem Reads.bind_gives {r : Reader τ α} {f : α → Reader τ β} {e e' : List τ} {v : α} {w : β}
    (h : Reads r e v) (h' : Gives (f v) e' w) : Gives (r >>= f) (e ++ e') w := by
  obtain ⟨s, hs⟩ := h'
  refine ⟨s, ?_⟩
  rw [bind_apply, h e']
  exact hs

theorem Reads.gives {r : Reader τ α} {e : List τ} {v : α} (h : Reads r e v) : Gives r e v :=
  ⟨[], by simpa using h []⟩

theorem Gives.unique {r : Reader τ α} {e : List τ} {v w : α} (h : Gives r e v) (h' : Gives r e w) :
    v = w := by
  obtain ⟨s, hs⟩ := h
  obtain ⟨s', hs'⟩ := h'
  exact (Prod.mk.inj (Option.some.inj (hs.symm.trans hs'))).1

theorem reads_take (e : List τ) : Reads (take e.length) e e := by
  intro s
  unfold take
  rw [if_pos (by simp), List.take_left, List.drop_left]

theorem reads_take_of {e : List τ} {n : ℕ} (h : e.length = n) : Reads (take n) e e :=
  h ▸ reads_take e

theorem Gives.bind_pure {r : Reader τ α} {e : List τ} {v : α} (h : Gives r e v) (g : α → β) :
    Gives (do let v ← r; Pure.pure (g v)) e (g v) := by
  obtain ⟨s, hs⟩ := h
  refine ⟨s, ?_⟩
  rw [bind_apply, hs]
  rfl

theorem gives_rest (e : List τ) : Gives rest e e := ⟨e, rfl⟩

theorem fails_fail (e : List τ) : Fails (fail : Reader τ α) e := fun _ => rfl

/-- A list of encodings, one after the other. -/
theorem reads_times {r : Reader τ α} {enc : α → List τ} : ∀ (vs : List α),
    (∀ v ∈ vs, Reads r (enc v) v) → Reads (times r vs.length) (vs.flatMap enc) vs
  | [], _ => Reads.pure []
  | v :: vs, h => by
    have htail := reads_times vs fun w hw => h w (List.mem_cons_of_mem _ hw)
    have hcons := (h v List.mem_cons_self).bind (f := fun v => do
      let vs ← times r vs.length
      pure (v :: vs)) (htail.bind (Reads.pure (v :: vs)))
    simpa [times] using hcons

theorem length_times {r : Reader τ α} : ∀ (n : ℕ) {s : List τ} {vs : List α} {t : List τ},
    times r n s = some (vs, t) → vs.length = n
  | 0, s, vs, t, h => by
    obtain ⟨rfl, -⟩ := Prod.mk.inj (Option.some.inj h)
    rfl
  | n + 1, s, vs, t, h => by
    rw [times, bind_apply] at h
    obtain ⟨⟨v, s'⟩, -, h⟩ := Option.bind_eq_some_iff.mp h
    rw [bind_apply] at h
    obtain ⟨⟨ws, t'⟩, hws, h⟩ := Option.bind_eq_some_iff.mp h
    obtain ⟨rfl, -⟩ := Prod.mk.inj (Option.some.inj h)
    rw [List.length_cons, length_times n hws]

theorem Takes.times {r : Reader τ α} {enc : α → List τ} (h : Takes r enc) :
    ∀ n, Takes (times r n) fun vs => vs.flatMap enc
  | 0, s, vs, t, hs => by
    obtain ⟨rfl, rfl⟩ := Prod.mk.inj (Option.some.inj hs)
    rfl
  | n + 1, s, vs, t, hs => by
    rw [Reader.times, bind_apply] at hs
    obtain ⟨⟨v, s'⟩, hv, hs⟩ := Option.bind_eq_some_iff.mp hs
    rw [bind_apply] at hs
    obtain ⟨⟨ws, t'⟩, hws, hs⟩ := Option.bind_eq_some_iff.mp hs
    obtain ⟨rfl, rfl⟩ := Prod.mk.inj (Option.some.inj hs)
    have hs' : s' = ws.flatMap enc ++ t' := Takes.times h n _ _ _ hws
    rw [h _ _ _ hv, hs', ← List.append_assoc, ← List.flatMap_cons]

/-- Every value `r` gives has the property. -/
def Only (r : Reader τ α) (P : α → Prop) : Prop := ∀ s v t, r s = some (v, t) → P v

theorem Only.pure {P : α → Prop} {v : α} (h : P v) : Only (pure v : Reader τ α) P := by
  intro s w t hs
  obtain ⟨rfl, -⟩ := Prod.mk.inj (Option.some.inj hs)
  exact h

theorem Only.bind {r : Reader τ α} {f : α → Reader τ β} {P : β → Prop} (h : ∀ v, Only (f v) P) :
    Only (r >>= f) P := by
  intro s w t hs
  rw [bind_apply] at hs
  obtain ⟨⟨v, s'⟩, -, hs⟩ := Option.bind_eq_some_iff.mp hs
  exact h v s' w t hs

theorem Only.fail {P : α → Prop} : Only (fail : Reader τ α) P := by
  intro s v t hs
  cases hs

end Reader
