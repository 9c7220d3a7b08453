import Onegram.Lib.Reader

/-!
# Cursors

A cursor is a place in data that stays as it is. What is read through one may not be there, which is
a failure, and an access past the data is an exception. A cursor that tests before it reads does
what a reader does that takes symbols off the front.
-/

/-- The failure is the inner `none`, the exception the `error`. -/
abbrev Cursor (ε τ : Type) := ReaderT (List τ) (StateT ℕ (OptionT (Except ε)))

namespace Cursor

variable {ε τ α β : Type}

def fail : Cursor ε τ α := fun _ _ => Except.ok none

/-- `length` symbols from the place on, with an access that may be past the data. -/
def read (access : List τ → ℕ → ℕ → Except ε (List τ)) (length : ℕ) : Cursor ε τ (List τ) :=
  fun data offset =>
    if offset + length > data.length then Except.ok none
    else (access data offset length).map fun symbols => some (symbols, offset + length)

def times (c : Cursor ε τ α) : ℕ → Cursor ε τ (List α)
  | 0 => pure []
  | n + 1 => do
    let v ← c
    let vs ← times c n
    pure (v :: vs)

/-- What the cursor does within the data the reader does to what is left of it. -/
def Simulates (c : Cursor ε τ α) (r : Reader τ α) : Prop :=
  ∀ (data : List τ) (offset : ℕ), offset ≤ data.length →
    (r (data.drop offset) = none ∧ c data offset = Except.ok none)
      ∨ ∃ v offset', offset' ≤ data.length ∧ r (data.drop offset) = some (v, data.drop offset')
        ∧ c data offset = Except.ok (some (v, offset'))

theorem simulates_pure (v : α) : Simulates (pure v : Cursor ε τ α) (pure v) :=
  fun _ offset h => .inr ⟨v, offset, h, rfl, rfl⟩

theorem simulates_fail : Simulates (fail : Cursor ε τ α) Reader.fail :=
  fun _ _ _ => .inl ⟨rfl, rfl⟩

theorem bind_none {c : Cursor ε τ α} {f : α → Cursor ε τ β} {data : List τ} {offset : ℕ}
    (h : c data offset = Except.ok none) : (c >>= f) data offset = Except.ok none := by
  change (c data offset).bind _ = _
  rw [h]
  rfl

theorem bind_some {c : Cursor ε τ α} {f : α → Cursor ε τ β} {data : List τ} {offset offset' : ℕ}
    {v : α} (h : c data offset = Except.ok (some (v, offset'))) :
    (c >>= f) data offset = f v data offset' := by
  change (c data offset).bind _ = _
  rw [h]
  rfl

theorem Simulates.bind {c : Cursor ε τ α} {r : Reader τ α} {f : α → Cursor ε τ β}
    {g : α → Reader τ β} (h : Simulates c r) (hf : ∀ v, Simulates (f v) (g v)) :
    Simulates (c >>= f) (r >>= g) := by
  intro data offset hoffset
  rw [Reader.bind_apply]
  rcases h data offset hoffset with ⟨hr, hc⟩ | ⟨v, offset', hoffset', hr, hc⟩
  · exact .inl ⟨by rw [hr]; rfl, bind_none hc⟩
  · rw [hr, bind_some hc]
    exact hf v data offset' hoffset'

theorem simulates_read {access : List τ → ℕ → ℕ → Except ε (List τ)}
    (haccess : ∀ data offset length, offset + length ≤ data.length →
      access data offset length = .ok ((data.drop offset).take length)) (length : ℕ) :
    Simulates (read access length) (Reader.take length) := by
  intro data offset hoffset
  unfold read Reader.take
  by_cases h : offset + length > data.length
  · rw [if_pos h, if_neg (by rw [List.length_drop]; omega)]
    exact .inl ⟨rfl, rfl⟩
  · rw [if_neg h, if_pos (by rw [List.length_drop]; omega), haccess data offset length (by omega)]
    exact .inr ⟨_, offset + length, by omega, by rw [List.drop_drop], rfl⟩

theorem Simulates.times {c : Cursor ε τ α} {r : Reader τ α} (h : Simulates c r) :
    ∀ n, Simulates (times c n) (Reader.times r n)
  | 0 => simulates_pure []
  | n + 1 => h.bind fun v => (h.times n).bind fun vs => simulates_pure (v :: vs)

/-- From the beginning of the data on, what the reader gives and nothing else. -/
theorem Simulates.run {c : Cursor ε τ α} {r : Reader τ α} (h : Simulates c r) (data : List τ) :
    (c data 0).map (·.map Prod.fst) = Except.ok ((r data).map Prod.fst) := by
  rcases h data 0 (Nat.zero_le _) with ⟨hr, hc⟩ | ⟨v, offset', -, hr, hc⟩
  · rw [List.drop_zero] at hr
    rw [hr, hc]
    rfl
  · rw [List.drop_zero] at hr
    rw [hr, hc]
    rfl

/-! ## Exceptions -/

/-- The reader gives a value, and at the place after it the data is bad for that value. -/
def After (r : Reader τ α) (bad : α → List τ → ℕ → Prop) (data : List τ) (offset : ℕ) : Prop :=
  ∃ v offset', offset' ≤ data.length ∧ r (data.drop offset) = some (v, data.drop offset')
    ∧ bad v data offset'

/-- An exception exactly where the data is bad at the place, and the reader elsewhere. -/
def SimulatesUnless (bad : List τ → ℕ → Prop) (c : Cursor ε τ α) (r : Reader τ α) : Prop :=
  ∀ (data : List τ) (offset : ℕ), offset ≤ data.length →
    (bad data offset ∧ ∃ e, c data offset = Except.error e)
      ∨ ¬ bad data offset ∧ ((r (data.drop offset) = none ∧ c data offset = Except.ok none)
        ∨ ∃ v offset', offset' ≤ data.length ∧ r (data.drop offset) = some (v, data.drop offset')
          ∧ c data offset = Except.ok (some (v, offset')))

theorem Simulates.unless {c : Cursor ε τ α} {r : Reader τ α} (h : Simulates c r) :
    SimulatesUnless (fun _ _ => False) c r :=
  fun data offset hoffset => .inr ⟨id, h data offset hoffset⟩

theorem bind_error {c : Cursor ε τ α} {f : α → Cursor ε τ β} {data : List τ} {offset : ℕ} {e : ε}
    (h : c data offset = Except.error e) : (c >>= f) data offset = Except.error e := by
  change (c data offset).bind _ = _
  rw [h]
  rfl

/-- A place is known by what is left there. -/
theorem drop_inj {data : List τ} {offset offset' : ℕ} (h : offset ≤ data.length)
    (h' : offset' ≤ data.length) (heq : data.drop offset = data.drop offset') :
    offset = offset' := by
  have hlen := congrArg List.length heq
  rw [List.length_drop, List.length_drop] at hlen
  omega

theorem after_iff {r : Reader τ α} {bad : α → List τ → ℕ → Prop} {data : List τ}
    {offset offset' : ℕ} {v : α} (h : offset' ≤ data.length)
    (hr : r (data.drop offset) = some (v, data.drop offset')) :
    After r bad data offset ↔ bad v data offset' := by
  constructor
  · rintro ⟨w, place, hplace, hw, hbad⟩
    obtain ⟨rfl, hdrop⟩ := Prod.mk.inj (Option.some.inj (hr.symm.trans hw))
    rwa [drop_inj h hplace hdrop]
  · exact fun hbad => ⟨v, offset', h, hr, hbad⟩

theorem not_after {r : Reader τ α} {bad : α → List τ → ℕ → Prop} {data : List τ} {offset : ℕ}
    (h : r (data.drop offset) = none) : ¬ After r bad data offset := by
  rintro ⟨v, offset', -, hr, -⟩
  rw [h] at hr
  cases hr

theorem SimulatesUnless.bind {c : Cursor ε τ α} {r : Reader τ α} {f : α → Cursor ε τ β}
    {g : α → Reader τ β} {bad : List τ → ℕ → Prop} {bad' : α → List τ → ℕ → Prop}
    (h : SimulatesUnless bad c r) (hf : ∀ v, SimulatesUnless (bad' v) (f v) (g v)) :
    SimulatesUnless (fun data offset => bad data offset ∨ After r bad' data offset)
      (c >>= f) (r >>= g) := by
  intro data offset hoffset
  rw [Reader.bind_apply]
  rcases h data offset hoffset with ⟨hbad, e, he⟩ | ⟨hgood, ⟨hr, hc⟩ | ⟨v, offset', hoffset', hr, hc⟩⟩
  · exact .inl ⟨.inl hbad, e, bind_error he⟩
  · exact .inr ⟨fun hbad => hbad.elim hgood (not_after hr), .inl ⟨by rw [hr]; rfl, bind_none hc⟩⟩
  · have hafter : After r bad' data offset ↔ bad' v data offset' := after_iff hoffset' hr
    rw [hr, bind_some hc]
    rcases hf v data offset' hoffset' with ⟨hbad, he⟩ | ⟨hgood', hrest⟩
    · exact .inl ⟨.inr (hafter.mpr hbad), he⟩
    · exact .inr ⟨fun hbad => hbad.elim hgood fun hlater => hgood' (hafter.mp hlater), hrest⟩

theorem Simulates.bind_unless {c : Cursor ε τ α} {r : Reader τ α} {f : α → Cursor ε τ β}
    {g : α → Reader τ β} {bad : α → List τ → ℕ → Prop} (h : Simulates c r)
    (hf : ∀ v, SimulatesUnless (bad v) (f v) (g v)) :
    SimulatesUnless (After r bad) (c >>= f) (r >>= g) := by
  have hbind := h.unless.bind hf
  simpa only [false_or] using hbind

theorem SimulatesUnless.bind_simulates {c : Cursor ε τ α} {r : Reader τ α} {f : α → Cursor ε τ β}
    {g : α → Reader τ β} {bad : List τ → ℕ → Prop} (h : SimulatesUnless bad c r)
    (hf : ∀ v, Simulates (f v) (g v)) : SimulatesUnless bad (c >>= f) (r >>= g) := by
  intro data offset hoffset
  have hfalse : ¬ After r (fun _ _ _ => False) data offset := by
    rintro ⟨v, offset', -, -, hfalse⟩
    exact hfalse
  have hbind := h.bind (fun v => (hf v).unless) data offset hoffset
  simpa only [hfalse, or_false] using hbind

/-- The value, where there is no exception. -/
theorem SimulatesUnless.value {c : Cursor ε τ α} {r : Reader τ α} {bad : List τ → ℕ → Prop}
    (h : SimulatesUnless bad c r) {data : List τ} {offset : ℕ} (hoffset : offset ≤ data.length) :
    (bad data offset ∧ ∃ e, c data offset = Except.error e)
      ∨ ¬ bad data offset ∧ (c data offset).map (·.map Prod.fst)
        = Except.ok ((r (data.drop offset)).map Prod.fst) := by
  rcases h data offset hoffset with herror | ⟨hgood, ⟨hr, hc⟩ | ⟨v, offset', -, hr, hc⟩⟩
  · exact .inl herror
  · exact .inr ⟨hgood, by rw [hr, hc]; rfl⟩
  · exact .inr ⟨hgood, by rw [hr, hc]; rfl⟩

end Cursor
