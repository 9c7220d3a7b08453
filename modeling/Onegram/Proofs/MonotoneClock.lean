import Onegram.TransportTransaction

/-!
# The generator under a clock that does not go back

A reading that equals the last id is moved up by one and on to the next multiple of four, so an id
is at most one multiple ahead of its reading. The next reading has to have caught up. Whether it
has is a matter of the readings alone: the id is ahead of a reading that falls on the one before it
rounded up, and stays ahead as long as the readings go up in steps of four (`Crowded`).
-/

namespace Onegram.Mtp

/-- What `n` calls return, with whether each of them found the clock behind the last id. -/
def SessionInfo.generateClientMessageIds (clock : Nat → Int) : Nat → SessionInfo → List (Int × Bool)
  | 0, _ => []
  | n + 1, s =>
    let (messageId, monotonityViolated, s) := s.generateClientMessageId clock
    (messageId, monotonityViolated) :: s.generateClientMessageIds clock n

/-- The readings of the calls, after the zero a session starts from. -/
def readings (clock : Nat → Int) : Nat → Int
  | 0 => 0
  | n + 1 => clock n

/-- The next multiple of four. -/
def roundedUp (reading : Int) : Int := reading + (4 - reading % 4) % 4

/-- The reading is the one before it rounded up, or four more than a reading of this kind. -/
def Crowded (clock : Nat → Int) : Nat → Prop
  | 0 => False
  | n + 1 => readings clock (n + 1) = roundedUp (readings clock n)
      ∨ Crowded clock n ∧ readings clock (n + 1) = readings clock n + 4

/-- The reading has caught up with the one before it rounded up, or with the multiple after that
one if it was crowded. -/
def CaughtUp (clock : Nat → Int) (n : Nat) : Prop :=
  roundedUp (readings clock n) ≤ readings clock (n + 1)
    ∧ (Crowded clock n → readings clock n + 4 ≤ readings clock (n + 1))

variable {clock : Nat → Int}

theorem crowded_mod : ∀ {n : Nat}, Crowded clock n → readings clock n % 4 = 0
  | n + 1, h => by
    rcases h with h | ⟨hprev, h⟩
    · rw [h, roundedUp]
      omega
    · have := crowded_mod hprev
      omega

/-- The session after `n` calls none of which found the clock behind. -/
structure Ahead (clock : Nat → Int) (n : Nat) (s : SessionInfo) : Prop where
  called : s.readings = n
  crowded : Crowded clock n → s.lastClientMessageId = readings clock n + 4
  plain : ¬Crowded clock n → s.lastClientMessageId = roundedUp (readings clock n)

theorem Ahead.caughtUp_iff {n : Nat} {s : SessionInfo} (h : Ahead clock n s) :
    CaughtUp clock n ↔ s.lastClientMessageId ≤ clock s.readings := by
  have hreading : clock s.readings = readings clock (n + 1) := by rw [h.called]; rfl
  rw [hreading]
  by_cases hcrowded : Crowded clock n
  · have hmod := crowded_mod hcrowded
    have hlast := h.crowded hcrowded
    constructor
    · intro hcaught
      exact hlast ▸ hcaught.2 hcrowded
    · intro hle
      rw [hlast] at hle
      refine ⟨?_, fun _ => hle⟩
      unfold roundedUp
      omega
  · rw [h.plain hcrowded]
    exact ⟨fun hcaught => hcaught.1, fun hle => ⟨hle, fun h => absurd h hcrowded⟩⟩

theorem Ahead.step {n : Nat} {s : SessionInfo} (h : Ahead clock n s) (hcaught : CaughtUp clock n) :
    Ahead clock (n + 1) (s.generateClientMessageId clock).2.2 := by
  have hreading : clock s.readings = readings clock (n + 1) := by rw [h.called]; rfl
  have hle := h.caughtUp_iff.mp hcaught
  have hid : (s.generateClientMessageId clock).2.2.lastClientMessageId
      = roundedUp (if readings clock (n + 1) = s.lastClientMessageId then s.lastClientMessageId + 1
        else readings clock (n + 1)) := by
    rw [generateClientMessageId_last, ← hreading]
    exact alignClientMessageId_eq _
  -- the reading equals the last id exactly when it is crowded
  have hequal : readings clock (n + 1) = s.lastClientMessageId ↔ Crowded clock (n + 1) := by
    by_cases hcrowded : Crowded clock n
    · have hmod := crowded_mod hcrowded
      have hlast := h.crowded hcrowded
      constructor
      · exact fun heq => .inr ⟨hcrowded, heq.trans hlast⟩
      · rintro (heq | ⟨-, heq⟩)
        · have := hcaught.2 hcrowded
          unfold roundedUp at heq
          omega
        · exact heq.trans hlast.symm
    · rw [h.plain hcrowded]
      exact ⟨.inl, fun hnext => hnext.elim id fun hboth => absurd hboth.1 hcrowded⟩
  refine ⟨by rw [generateClientMessageId_readings, h.called], fun hnext => ?_, fun hnext => ?_⟩
  · have hmod := crowded_mod hnext
    have heq := hequal.mpr hnext
    rw [hid, if_pos heq, ← heq, roundedUp]
    omega
  · rw [hid, if_neg fun heq => hnext (hequal.mp heq)]

theorem ahead_start (clock : Nat → Int) (sessionId : Int) : Ahead clock 0 { sessionId } :=
  ⟨rfl, fun h => h.elim, fun _ => rfl⟩

/-- The ids go up in multiples of four, and no call finds the clock behind. -/
def Rising (calls : List (Int × Bool)) : Prop :=
  (calls.map Prod.fst).Pairwise (· < ·) ∧ ∀ call ∈ calls, 4 ∣ call.1 ∧ call.2 = false

/-- From a session that is ahead by `n` calls: the next `k` calls do as they should, with ids past
the last one, as long as each reading has caught up. -/
theorem Ahead.rising_iff : ∀ (k : Nat) {n : Nat} {s : SessionInfo}, Ahead clock n s →
    ((∀ i < k, CaughtUp clock (n + i)) ↔ Rising (s.generateClientMessageIds clock k))
      ∧ ((∀ i < k, CaughtUp clock (n + i)) →
        ∀ call ∈ s.generateClientMessageIds clock k, s.lastClientMessageId < call.1)
  | 0, _, _, _ => by simp [Rising, SessionInfo.generateClientMessageIds]
  | k + 1, n, s, h => by
    have hsplit : (∀ i < k + 1, CaughtUp clock (n + i))
        ↔ CaughtUp clock n ∧ ∀ i < k, CaughtUp clock (n + 1 + i) := by
      constructor
      · intro hall
        refine ⟨hall 0 (by omega), fun i hi => ?_⟩
        have := hall (i + 1) (by omega)
        rwa [show n + (i + 1) = n + 1 + i by omega] at this
      · rintro ⟨hzero, hall⟩ i hi
        cases i with
        | zero => exact hzero
        | succ i =>
          rw [show n + (i + 1) = n + 1 + i by omega]
          exact hall i (by omega)
    have hviolated : (s.generateClientMessageId clock).2.1 = false ↔ CaughtUp clock n := by
      rw [h.caughtUp_iff, ← Bool.not_eq_true, generateClientMessageId_violated, not_lt]
    have hmod := Int.dvd_of_emod_eq_zero (generateClientMessageId_mod clock s)
    rw [hsplit]
    by_cases hcaught : CaughtUp clock n
    · obtain ⟨hiff, hpast⟩ := Ahead.rising_iff k (h.step hcaught)
      rw [generateClientMessageId_last] at hpast
      have hgt := generateClientMessageId_gt clock s (h.caughtUp_iff.mp hcaught)
      simp only [SessionInfo.generateClientMessageIds, Rising, List.map_cons, List.pairwise_cons,
        List.forall_mem_cons, List.forall_mem_map]
      refine ⟨⟨fun ⟨_, hall⟩ => ?_, fun hrising => ⟨hcaught, ?_⟩⟩, fun ⟨_, hall⟩ => ?_⟩
      · obtain ⟨hids, hcalls⟩ := hiff.mp hall
        exact ⟨⟨hpast hall, hids⟩, ⟨hmod, hviolated.mpr hcaught⟩, hcalls⟩
      · exact hiff.mpr ⟨hrising.1.2, hrising.2.2⟩
      · exact ⟨hgt, fun call hcall => hgt.trans (hpast hall call hcall)⟩
    · refine ⟨⟨fun hall => absurd hall.1 hcaught, fun hrising => ?_⟩,
        fun hall => absurd hall.1 hcaught⟩
      have hfirst := (hrising.2 _ List.mem_cons_self).2
      exact absurd (hviolated.mp hfirst) hcaught

/-- The ids a new session gives out rise exactly as long as each reading has caught up. -/
theorem rising_iff_caughtUp (clock : Nat → Int) (sessionId : Int) (n : Nat) :
    Rising (SessionInfo.generateClientMessageIds clock n { sessionId })
      ↔ ∀ i < n, CaughtUp clock i := by
  have h := (Ahead.rising_iff n (ahead_start clock sessionId)).1
  simp only [Nat.zero_add] at h
  exact h.symm

/-- Three equal readings: the third is behind the id the second got. -/
theorem three_equal_not_rising :
    Monotone (fun _ : Nat => (1700000000 * 2 ^ 32 : Int))
      ∧ ¬Rising (SessionInfo.generateClientMessageIds (fun _ => 1700000000 * 2 ^ 32) 3
        { sessionId := 7 }) := by
  refine ⟨monotone_const, fun h => ?_⟩
  have hids : SessionInfo.generateClientMessageIds (fun _ => 1700000000 * 2 ^ 32) 3
      { sessionId := 7 } = [(1700000000 * 2 ^ 32, false), (1700000000 * 2 ^ 32 + 4, false),
        (1700000000 * 2 ^ 32, true)] := by
    simp [SessionInfo.generateClientMessageIds, SessionInfo.generateClientMessageId,
      alignClientMessageId_eq]
  rw [hids] at h
  exact absurd (h.2 (1700000000 * 2 ^ 32, true) (by simp)).2 (by simp)

/-! ## Readings of a double

Before 2038 a time in seconds is a double with at least 22 binary places, so that a reading is a
multiple of `2 ^ 10`. -/

theorem crowded_coarse (hcoarse : ∀ n, clock n % 1024 = 0) (n : Nat) :
    Crowded clock (n + 1) ↔ readings clock (n + 1) = readings clock n := by
  have hmod : ∀ n, readings clock n % 1024 = 0
    | 0 => rfl
    | n + 1 => hcoarse n
  have hn := hmod n
  have hnext := hmod (n + 1)
  have hup : roundedUp (readings clock n) = readings clock n := by
    unfold roundedUp
    omega
  constructor
  · rintro (heq | ⟨-, heq⟩)
    · exact heq.trans hup
    · omega
  · exact fun heq => .inl (heq.trans hup.symm)

/-- On such a clock the generator does as it should unless a reading comes three times in a row. -/
theorem caughtUp_coarse (hcoarse : ∀ n, clock n % 1024 = 0) (hmono : Monotone clock) (n : Nat) :
    CaughtUp clock (n + 2)
      ↔ ¬(readings clock (n + 3) = readings clock (n + 2)
        ∧ readings clock (n + 2) = readings clock (n + 1)) := by
  change (roundedUp (readings clock (n + 2)) ≤ readings clock (n + 3)
    ∧ (Crowded clock (n + 1 + 1) → readings clock (n + 2) + 4 ≤ readings clock (n + 3))) ↔ _
  rw [crowded_coarse hcoarse (n + 1)]
  have hmod : readings clock (n + 2) % 1024 = 0 := hcoarse (n + 1)
  have hnext : readings clock (n + 3) % 1024 = 0 := hcoarse (n + 2)
  have hle : readings clock (n + 2) ≤ readings clock (n + 3) := hmono (Nat.le_succ (n + 1))
  unfold roundedUp
  constructor
  · rintro ⟨-, hcrowded⟩ ⟨hsame, hbefore⟩
    have := hcrowded hbefore
    omega
  · intro hnot
    refine ⟨by omega, fun hbefore => ?_⟩
    have hne : readings clock (n + 3) ≠ readings clock (n + 2) := fun h => hnot ⟨h, hbefore⟩
    omega

end Onegram.Mtp
