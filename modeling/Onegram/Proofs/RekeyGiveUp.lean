import Onegram.Proofs.StallDetection

/-!
# When the loop gives up on a new key

The loop counts an initiation when it sends it and gives up at the next wake-up that finds six, so
the sixth has until then, and not the interval that a next one would wait for. An initiation that
`sendto` refuses counts as well.

The loop runs here together with the initiations since the last response it accepted.
-/

namespace Onegram

/-- The seconds between two initiations. -/
def retry_interval : Int := 5

/-- An initiation, and whether `sendto` took it. -/
structure Attempt where
  sent_at : Int
  delivered : Bool
  deriving DecidableEq

structure Rekeying where
  loop : LoopState
  attempts : List Attempt

/-- What an output means for the attempts. -/
def note_attempt (now : Int) (delivered : Bool) (attempts : List Attempt) : Output → List Attempt
  | .initiation _ _ => attempts ++ [⟨now, delivered⟩]
  | .rotated _ _ _ => []
  | _ => attempts

/-- An event of the loop, with the result of the `sendto` of an initiation. -/
def rekey_step (env : TunnelEnv) (w : Rekeying) (e : LoopEvent × Bool) : Rekeying :=
  let loop := loop_step env w.loop e.1
  { loop
    attempts := (loop.out.drop w.loop.out.length).foldl (note_attempt loop.now e.2) w.attempts }

def rekey_start (hs : NwHandshake) (t : NwTransport) (udp_buf : Bytes) (now : Int) : Rekeying where
  loop := loop_start hs t udp_buf now
  attempts := []

/-! ## The law -/

/-- Every attempt has had the interval: up to the next one, and the last one up to `now`. -/
def Rested (attempts : List Attempt) (now : Int) : Prop :=
  (attempts.IsChain fun a b => a.sent_at + retry_interval ≤ b.sent_at)
    ∧ ∀ a ∈ attempts.getLast?, a.sent_at + retry_interval ≤ now

/-- A loop that has given up had sent all its initiations, each with the whole interval. -/
def GivenUp (w : Rekeying) : Prop :=
  w.loop.exit = some NW_EXIT_REKEY_FAILED →
    kRekeyMaxAttempts ≤ (w.attempts.filter (·.delivered)).length ∧ Rested w.attempts w.loop.now

/-- At a wake-up at `now` the tunnel counts as stalled. -/
def LoopState.Stalls (s : LoopState) (now : Int) : Prop :=
  s.Waiting ∧ now - s.last_progress ≥ kStallSeconds

/-- The key is old at `now`, and all the initiations for a new one are out. -/
def LoopState.Exhausted (s : LoopState) (now : Int) : Prop :=
  now - s.key_derived_time ≥ 110 ∧ s.rekey_in_progress ∧ s.rekey_attempts ≥ kRekeyMaxAttempts

/-- A wake-up with all initiations out comes an interval after the last one, and `sendto` took them
all. -/
def Unhurried (w : Rekeying) : LoopEvent × Bool → Prop
  | (.wake now _ _ _, _) => w.loop.exit = none → ¬ w.loop.Stalls now → w.loop.Exhausted now →
      w.loop.rekey_sent_time + retry_interval ≤ now ∧ ∀ a ∈ w.attempts, a.delivered
  | _ => True

/-! ## What a step does about the key -/

section Steps

variable {env : TunnelEnv} {s s' : LoopState}

/-- An output that is about no key. -/
def Output.quiet : Output → Bool
  | .initiation _ _ => false
  | .rotated _ _ _ => false
  | _ => true

theorem foldl_note_quiet (now : Int) (delivered : Bool) (attempts : List Attempt) :
    ∀ l : List Output, (∀ o ∈ l, o.quiet) →
      l.foldl (note_attempt now delivered) attempts = attempts
  | [], _ => rfl
  | o :: l, h => by
    have ho : note_attempt now delivered attempts o = attempts := by
      have hquiet := h o List.mem_cons_self
      cases o with
      | packet => rfl
      | tun => rfl
      | initiation => cases hquiet
      | rotated => cases hquiet
    rw [List.foldl_cons, ho]
    exact foldl_note_quiet now delivered attempts l fun o' ho' => h o' (List.mem_cons_of_mem _ ho')

/-- Nothing changes about the key. -/
structure SameRekey (s s' : LoopState) : Prop where
  in_progress : s'.rekey_in_progress = s.rekey_in_progress
  sent_time : s'.rekey_sent_time = s.rekey_sent_time
  attempts : s'.rekey_attempts = s.rekey_attempts
  out : ∃ l, s'.out = s.out ++ l ∧ ∀ o ∈ l, o.quiet

theorem SameRekey.refl (s : LoopState) : SameRekey s s := ⟨rfl, rfl, rfl, [], by simp, by simp⟩

theorem SameRekey.trans {s s' s'' : LoopState} (h : SameRekey s s') (h' : SameRekey s' s'') :
    SameRekey s s'' := by
  obtain ⟨l, hl, hquiet⟩ := h.out
  obtain ⟨l', hl', hquiet'⟩ := h'.out
  refine ⟨h'.1.trans h.1, h'.2.trans h.2, h'.3.trans h.3, l ++ l', ?_, ?_⟩
  · rw [hl', hl, List.append_assoc]
  · exact List.forall_mem_append.mpr ⟨hquiet, hquiet'⟩

/-- An initiation goes out; one before it has had its interval. -/
structure Initiates (s s' : LoopState) (now : Int) : Prop where
  retries : s.rekey_in_progress → s.rekey_attempts < kRekeyMaxAttempts
    ∧ s.rekey_sent_time + retry_interval ≤ now
  in_progress : s'.rekey_in_progress = true
  sent_time : s'.rekey_sent_time = now
  attempts : s'.rekey_attempts = s.rekey_attempts + 1
  out : ∃ l ephemeral msg, s'.out = s.out ++ l ++ [.initiation ephemeral msg] ∧ ∀ o ∈ l, o.quiet

theorem SameRekey.initiates {s s' s'' : LoopState} {now : Int} (h : SameRekey s s')
    (h' : Initiates s' s'' now) : Initiates s s'' now := by
  obtain ⟨l, hl, hquiet⟩ := h.out
  obtain ⟨l', ephemeral, msg, hl', hquiet'⟩ := h'.out
  have hretries := h'.retries
  rw [h.in_progress, h.attempts, h.sent_time] at hretries
  refine ⟨hretries, h'.in_progress, h'.sent_time, by rw [h'.attempts, h.attempts], l ++ l',
    ephemeral, msg, ?_, List.forall_mem_append.mpr ⟨hquiet, hquiet'⟩⟩
  rw [hl', hl, List.append_assoc s.out]

theorem keepalive_check_rekey (env : TunnelEnv) (s : LoopState) :
    SameRekey s (keepalive_check env s)
      ∧ (keepalive_check env s).key_derived_time = s.key_derived_time := by
  unfold keepalive_check
  dsimp only
  by_cases hdue : s.now - s.last_ka ≥ if env.keepalive > 0 then env.keepalive else 25
  · rw [if_pos hdue]
    exact ⟨⟨rfl, rfl, rfl, _, rfl, by simp [Output.quiet]⟩, rfl⟩
  · rw [if_neg hdue]
    exact ⟨.refl s, rfl⟩

/-- The check gives up just when the tunnel counts as stalled, and is about no key. -/
theorem stall_check_rekey (s : LoopState) :
    SameRekey s (stall_check s) ∧ (stall_check s).key_derived_time = s.key_derived_time
      ∧ (stall_check s).now = s.now
      ∧ (s.Stalls s.now → (stall_check s).exit = some NW_EXIT_STALLED)
      ∧ (¬ s.Stalls s.now → (stall_check s).exit = s.exit) := by
  unfold stall_check
  by_cases hread : s.c_udp_in > s.udp_in_at_progress
  · rw [if_pos hread]
    refine ⟨⟨rfl, rfl, rfl, [], by simp, by simp⟩, rfl, rfl, fun hstalls => ?_, fun _ => rfl⟩
    exact absurd hstalls.1.1 (by omega)
  · rw [if_neg hread]
    by_cases hfires : s.c_tun_in > s.tun_in_at_progress ∧ s.now - s.last_progress ≥ kStallSeconds
    · rw [if_pos hfires]
      refine ⟨⟨rfl, rfl, rfl, [], by simp, by simp⟩, rfl, rfl, fun _ => rfl, fun hstalls => ?_⟩
      exact absurd ⟨⟨by omega, hfires.1⟩, hfires.2⟩ hstalls
    · rw [if_neg hfires]
      refine ⟨.refl s, rfl, rfl, fun hstalls => ?_, fun _ => rfl⟩
      exact absurd ⟨hstalls.1.2, hstalls.2⟩ hfires

/-- With no exit yet, the check gives up just when all initiations are out. -/
theorem rekey_check_rekey (hexit : s.exit = none) (idx : UInt32) (ephemeral : Key)
    (ts : Vector UInt8 12) :
    let s' := rekey_check s idx ephemeral ts
    s'.now = s.now ∧
      ((s.Exhausted s.now ∧ s'.exit = some NW_EXIT_REKEY_FAILED ∧ SameRekey s s')
        ∨ (¬ s.Exhausted s.now ∧ s'.exit = none ∧ (SameRekey s s' ∨ Initiates s s' s.now))) := by
  dsimp only
  unfold rekey_check
  by_cases hold : s.now - s.key_derived_time ≥ 110
  · rw [if_pos hold]
    by_cases hout : s.rekey_in_progress ∧ s.rekey_attempts ≥ kRekeyMaxAttempts
    · rw [if_pos hout]
      exact ⟨rfl, .inl ⟨⟨hold, hout.1, hout.2⟩, rfl, rfl, rfl, rfl, [], by simp, by simp⟩⟩
    · have hleft : ¬ s.Exhausted s.now := fun h => hout h.2
      rw [if_neg hout]
      by_cases hdue : ¬ s.rekey_in_progress ∨ s.now - s.rekey_sent_time ≥ 5
      · rw [if_pos hdue]
        refine ⟨rfl, .inr ⟨hleft, hexit, .inr ⟨fun hprogress => ⟨?_, ?_⟩, rfl, rfl, rfl, [], _, _,
          by rw [List.append_nil]; rfl, by simp⟩⟩⟩
        · exact not_le.mp fun h => hout ⟨hprogress, h⟩
        · rcases hdue with hidle | hage
          · exact absurd hprogress hidle
          · unfold retry_interval
            omega
      · rw [if_neg hdue]
        exact ⟨rfl, .inr ⟨hleft, hexit, .inl (.refl s)⟩⟩
  · rw [if_neg hold]
    exact ⟨rfl, .inr ⟨fun h => hold h.1, hexit, .inl (.refl s)⟩⟩

/-- What a wake-up comes to. -/
theorem on_wake_rekey (env : TunnelEnv) (hexit : s.exit = none) (now : Int) (idx : UInt32)
    (ephemeral : Key) (ts : Vector UInt8 12) :
    let s' := on_wake env s now idx ephemeral ts
    s'.now = now ∧
      ((s.Stalls now ∧ s'.exit = some NW_EXIT_STALLED ∧ SameRekey s s')
        ∨ (¬ s.Stalls now ∧ s.Exhausted now ∧ s'.exit = some NW_EXIT_REKEY_FAILED ∧ SameRekey s s')
        ∨ (¬ (¬ s.Stalls now ∧ s.Exhausted now) ∧ s'.exit = none
          ∧ (SameRekey s s' ∨ Initiates s s' now))) := by
  intro s'
  obtain ⟨hcounts, hkexit, hknow, hprogress⟩ := keepalive_check_counts env { s with now := now }
  obtain ⟨hkrekey, hkderived⟩ := keepalive_check_rekey env { s with now := now }
  obtain ⟨hcrekey, hcderived, hcnow, hcstalls, hcquiet⟩ :=
    stall_check_rekey (keepalive_check env { s with now := now })
  have hs' : s' = if (stall_check (keepalive_check env { s with now := now })).exit.isSome
      then stall_check (keepalive_check env { s with now := now })
      else rekey_check (stall_check (keepalive_check env { s with now := now })) idx ephemeral ts :=
    rfl
  generalize keepalive_check env { s with now := now } = k at *
  have hstalls : k.Stalls k.now ↔ s.Stalls now := by
    unfold LoopState.Stalls LoopState.Waiting
    rw [hknow, hprogress, hcounts.1, hcounts.2, hcounts.3, hcounts.4]
  have hsk : SameRekey s (stall_check k) := SameRekey.trans ⟨hkrekey.1, hkrekey.2, hkrekey.3,
    hkrekey.4⟩ hcrekey
  generalize stall_check k = c at *
  have hnow : c.now = now := hcnow.trans hknow
  rw [hs']
  by_cases hs : s.Stalls now
  · have hcexit := hcstalls (hstalls.mpr hs)
    rw [if_pos (by rw [hcexit]; rfl)]
    exact ⟨hnow, .inl ⟨hs, hcexit, hsk⟩⟩
  · have hcexit : c.exit = none := (hcquiet (mt hstalls.mp hs)).trans (hkexit.trans hexit)
    have hexhausted : c.Exhausted c.now ↔ s.Exhausted now := by
      unfold LoopState.Exhausted
      rw [hnow, hcderived, hkderived, hsk.in_progress, hsk.attempts]
    rw [if_neg (by rw [hcexit]; simp)]
    obtain ⟨hrnow, hfails | hgoes⟩ := rekey_check_rekey hcexit idx ephemeral ts
    · exact ⟨hrnow.trans hnow, .inr (.inl ⟨hs, hexhausted.mp hfails.1, hfails.2.1,
        hsk.trans hfails.2.2⟩)⟩
    · obtain ⟨hleft, hrexit, hwhat⟩ := hgoes
      refine ⟨hrnow.trans hnow, .inr (.inr ⟨fun h => hleft (hexhausted.mpr h.2), hrexit, ?_⟩)⟩
      rcases hwhat with hsame | hinit
      · exact .inl (hsk.trans hsame)
      · exact .inr (hsk.initiates (hnow ▸ hinit))

theorem on_tun_rekey (s : LoopState) (data : Bytes) :
    SameRekey s (on_tun s data) ∧ (on_tun s data).exit = s.exit := by
  refine ⟨?_, (on_tun_counts s data).1⟩
  unfold on_tun
  dsimp only
  split_ifs
  · exact .refl s
  · exact ⟨rfl, rfl, rfl, _, rfl, by simp [Output.quiet]⟩
  · exact ⟨rfl, rfl, rfl, _, rfl, by simp [Output.quiet]⟩
  · exact .refl s

/-- An accepted response ends the attempts. -/
structure Rotates (s s' : LoopState) : Prop where
  in_progress : s'.rekey_in_progress = false
  attempts : s'.rekey_attempts = 0
  out : ∃ ephemeral er key, s'.out = s.out ++ [.rotated ephemeral er key]

theorem on_udp_rekey (env : TunnelEnv) (s : LoopState) (src : SockAddr) (data : Bytes) :
    (SameRekey s (on_udp env s src data) ∨ Rotates s (on_udp env s src data))
      ∧ (on_udp env s src data).exit = s.exit := by
  refine ⟨?_, (on_udp_counts env s src data).1⟩
  have hsame : SameRekey s (received s data) := ⟨rfl, rfl, rfl, [], by simp [received], by simp⟩
  unfold on_udp
  dsimp only
  split_ifs
  · exact .inl (.refl s)
  · refine .inl (hsame.trans ?_)
    unfold on_data
    split
    · split_ifs
      · exact ⟨rfl, rfl, rfl, _, rfl, by simp [Output.quiet]⟩
      · exact .refl _
    · exact .refl _
  · unfold on_response
    dsimp only
    split_ifs
    · exact .inl hsame
    · exact .inr ⟨rfl, rfl, _, _, _, rfl⟩
    · exact .inl (hsame.trans ⟨rfl, rfl, rfl, [], by simp, by simp⟩)
  · exact .inl hsame

end Steps

/-! ## The run -/

/-- The attempts are those that the loop counts, each an interval after the one before it. -/
structure RekeyInv (w : Rekeying) : Prop where
  counted : w.loop.rekey_attempts = w.attempts.length
  bounded : w.attempts.length ≤ kRekeyMaxAttempts
  idle : w.loop.rekey_in_progress = false → w.attempts = []
  last : ∀ a ∈ w.attempts.getLast?, a.sent_at = w.loop.rekey_sent_time
  spaced : w.attempts.IsChain fun a b => a.sent_at + retry_interval ≤ b.sent_at

section Run

variable {env : TunnelEnv} {w : Rekeying}

theorem rekey_start_inv (hs : NwHandshake) (t : NwTransport) (udp_buf : Bytes) (now : Int) :
    RekeyInv (rekey_start hs t udp_buf now) :=
  ⟨rfl, Nat.zero_le _, fun _ => rfl, by simp [rekey_start], .nil⟩

theorem rekey_step_same (e : LoopEvent × Bool) (h : SameRekey w.loop (loop_step env w.loop e.1)) :
    (rekey_step env w e).attempts = w.attempts := by
  obtain ⟨l, hl, hquiet⟩ := h.out
  unfold rekey_step
  dsimp only
  rw [hl, List.drop_left]
  exact foldl_note_quiet _ _ _ l hquiet

theorem RekeyInv.same (hinv : RekeyInv w) (e : LoopEvent × Bool)
    (h : SameRekey w.loop (loop_step env w.loop e.1)) : RekeyInv (rekey_step env w e) := by
  have hattempts := rekey_step_same e h
  constructor
  · rw [hattempts]
    exact h.attempts.trans hinv.counted
  · rw [hattempts]
    exact hinv.bounded
  · rw [hattempts]
    exact fun hidle => hinv.idle (h.in_progress ▸ hidle)
  · rw [hattempts]
    exact fun a ha => (hinv.last a ha).trans h.sent_time.symm
  · rw [hattempts]
    exact hinv.spaced

theorem RekeyInv.initiates (hinv : RekeyInv w) (e : LoopEvent × Bool)
    (h : Initiates w.loop (loop_step env w.loop e.1) (loop_step env w.loop e.1).now) :
    RekeyInv (rekey_step env w e) := by
  have hattempts : (rekey_step env w e).attempts
      = w.attempts ++ [⟨(loop_step env w.loop e.1).now, e.2⟩] := by
    obtain ⟨l, ephemeral, msg, hl, hquiet⟩ := h.out
    unfold rekey_step
    dsimp only
    rw [hl, List.append_assoc, List.drop_left, List.foldl_append, foldl_note_quiet _ _ _ l hquiet]
    rfl
  -- Without one in progress this is the first; else the last one has had its interval.
  have hroom : w.attempts.length < kRekeyMaxAttempts
      ∧ ∀ a ∈ w.attempts.getLast?,
        a.sent_at + retry_interval ≤ (loop_step env w.loop e.1).now := by
    cases hprogress : w.loop.rekey_in_progress with
    | false => simp [hinv.idle hprogress, kRekeyMaxAttempts]
    | true =>
      obtain ⟨hfew, hage⟩ := h.retries hprogress
      exact ⟨hinv.counted ▸ hfew, fun a ha => hinv.last a ha ▸ hage⟩
  constructor
  · rw [hattempts, List.length_append, ← hinv.counted]
    exact h.attempts
  · rw [hattempts, List.length_append]
    exact hroom.1
  · exact fun hidle => absurd (h.in_progress.symm.trans hidle) (by decide)
  · rw [hattempts, List.getLast?_concat]
    intro a ha
    obtain rfl := Option.some.inj ha
    exact h.sent_time.symm
  · rw [hattempts]
    refine hinv.spaced.append (.singleton _) fun a ha b hb => ?_
    obtain rfl := Option.some.inj hb
    exact hroom.2 a ha

theorem RekeyInv.rotates (e : LoopEvent × Bool) (h : Rotates w.loop (loop_step env w.loop e.1)) :
    RekeyInv (rekey_step env w e) := by
  have hattempts : (rekey_step env w e).attempts = [] := by
    obtain ⟨ephemeral, er, key, hl⟩ := h.out
    unfold rekey_step
    dsimp only
    rw [hl, List.drop_left]
    rfl
  constructor
  · rw [hattempts]
    exact h.attempts
  · rw [hattempts]
    exact Nat.zero_le _
  · exact fun _ => hattempts
  · rw [hattempts]
    simp
  · rw [hattempts]
    exact .nil

/-- With all initiations out, the law is that the last one has had its interval and `sendto` took
them all. -/
theorem RekeyInv.law_iff (hinv : RekeyInv w) {now : Int} (hout : w.loop.Exhausted now) :
    (kRekeyMaxAttempts ≤ (w.attempts.filter (·.delivered)).length ∧ Rested w.attempts now)
      ↔ (w.loop.rekey_sent_time + retry_interval ≤ now ∧ ∀ a ∈ w.attempts, a.delivered) := by
  have hall : w.attempts.length = kRekeyMaxAttempts :=
    le_antisymm hinv.bounded (hinv.counted ▸ hout.2.2)
  have hdelivered : kRekeyMaxAttempts ≤ (w.attempts.filter (·.delivered)).length
      ↔ ∀ a ∈ w.attempts, a.delivered := by
    rw [← hall, ← List.length_filter_eq_length_iff]
    exact ⟨fun h => le_antisymm (List.length_filter_le _ _) h, fun h => h.ge⟩
  have hne : w.attempts ≠ [] := List.ne_nil_of_length_pos (by rw [hall]; decide)
  obtain ⟨a, ha⟩ : ∃ a, w.attempts.getLast? = some a := ⟨_, List.getLast?_eq_some_getLast hne⟩
  rw [hdelivered, and_comm]
  refine and_congr_left fun _ => ⟨fun h => hinv.last a ha ▸ h.2 a ha, fun h => ⟨hinv.spaced, ?_⟩⟩
  exact fun b hb => hinv.last b hb ▸ h

theorem not_given_up (h : w.loop.exit ≠ some NW_EXIT_REKEY_FAILED) : GivenUp w :=
  fun hfailed => absurd hfailed h

/-- A step of a loop that runs keeps the invariant, and the law just where it is unhurried. -/
theorem rekey_step_spec (hinv : RekeyInv w) (hexit : w.loop.exit = none) (e : LoopEvent × Bool) :
    RekeyInv (rekey_step env w e) ∧ (GivenUp (rekey_step env w e) ↔ Unhurried w e) := by
  have hruns : ¬ w.loop.exit.isSome = true := by simp [hexit]
  have hgoes : ∀ {rc}, (rekey_step env w e).loop.exit = rc → rc ≠ some NW_EXIT_REKEY_FAILED →
      GivenUp (rekey_step env w e) := fun h hne => not_given_up (h ▸ hne)
  rcases e with ⟨⟨now, idx, ephemeral, ts⟩ | ⟨data⟩ | ⟨src, data⟩, delivered⟩
  · have hloop : loop_step env w.loop (.wake now idx ephemeral ts)
        = on_wake env w.loop now idx ephemeral ts := if_neg hruns
    obtain ⟨hnow, ⟨hstalls, hrc, hsame⟩ | ⟨hpatient, hout, hrc, hsame⟩ | ⟨hleft, hrc, hwhat⟩⟩ :=
      on_wake_rekey env hexit now idx ephemeral ts
    all_goals rw [← hloop] at hnow hrc
    · rw [← hloop] at hsame
      exact ⟨hinv.same (_, delivered) hsame, iff_of_true (hgoes hrc (by decide))
        fun _ hpatient => absurd hstalls hpatient⟩
    · rw [← hloop] at hsame
      refine ⟨hinv.same (_, delivered) hsame, ?_⟩
      have hlaw : GivenUp (rekey_step env w (.wake now idx ephemeral ts, delivered))
          ↔ kRekeyMaxAttempts ≤ (w.attempts.filter (·.delivered)).length
            ∧ Rested w.attempts now := by
        unfold GivenUp
        rw [rekey_step_same (_, delivered) hsame]
        exact ⟨fun h => hnow ▸ h hrc, fun h _ => hnow.symm ▸ h⟩
      rw [hlaw, hinv.law_iff hout]
      exact ⟨fun h _ _ _ => h, fun h => h hexit hpatient hout⟩
    · refine ⟨?_, iff_of_true (hgoes hrc (by decide)) fun _ hpatient hout =>
        absurd ⟨hpatient, hout⟩ hleft⟩
      rw [← hloop] at hwhat
      rcases hwhat with hsame | hinit
      · exact hinv.same (_, delivered) hsame
      · exact hinv.initiates (_, delivered) (by rw [hnow]; exact hinit)
  · have hloop : loop_step env w.loop (.tun data) = on_tun w.loop data := if_neg hruns
    obtain ⟨hsame, hrc⟩ := on_tun_rekey w.loop data
    rw [← hloop] at hsame hrc
    exact ⟨hinv.same (_, delivered) hsame, iff_of_true (hgoes (hrc.trans hexit) (by simp)) trivial⟩
  · have hloop : loop_step env w.loop (.udp src data) = on_udp env w.loop src data := if_neg hruns
    obtain ⟨hwhat, hrc⟩ := on_udp_rekey env w.loop src data
    rw [← hloop] at hwhat hrc
    refine ⟨?_, iff_of_true (hgoes (hrc.trans hexit) (by simp)) trivial⟩
    rcases hwhat with hsame | hrotates
    · exact hinv.same (_, delivered) hsame
    · exact RekeyInv.rotates (_, delivered) hrotates

/-- After an exit nothing happens. -/
theorem rekey_step_exited (hexit : w.loop.exit.isSome) (e : LoopEvent × Bool) :
    rekey_step env w e = w ∧ Unhurried w e := by
  have hloop : loop_step env w.loop e.1 = w.loop := by
    rcases e with ⟨⟨now, idx, ephemeral, ts⟩ | ⟨data⟩ | ⟨src, data⟩, delivered⟩ <;>
      exact if_pos hexit
  constructor
  · unfold rekey_step
    dsimp only
    rw [hloop, List.drop_length]
    rfl
  · rcases e with ⟨⟨now, idx, ephemeral, ts⟩ | ⟨data⟩ | ⟨src, data⟩, delivered⟩
    · exact fun hnone => absurd hexit (by simp [hnone])
    · trivial
    · trivial

theorem rekey_run_exited (hexit : w.loop.exit.isSome) : ∀ es : List (LoopEvent × Bool),
    Run.run (rekey_step env) w es = w ∧ Run.AllSteps (rekey_step env) Unhurried w es
  | [] => ⟨rfl, trivial⟩
  | e :: es => by
    obtain ⟨hstep, hok⟩ := rekey_step_exited hexit e
    obtain ⟨hrun, hall⟩ := rekey_run_exited hexit es
    rw [Run.run_cons, Run.AllSteps, hstep]
    exact ⟨hrun, hok, hall⟩

theorem rekey_run_given_up : ∀ (es : List (LoopEvent × Bool)) {w : Rekeying}, RekeyInv w →
    w.loop.exit = none →
      (GivenUp (Run.run (rekey_step env) w es) ↔ Run.AllSteps (rekey_step env) Unhurried w es)
  | [], w, _, hexit => by
    have hne : w.loop.exit ≠ some NW_EXIT_REKEY_FAILED := by simp [hexit]
    exact iff_of_true (not_given_up hne) trivial
  | e :: es, w, hinv, hexit => by
    obtain ⟨hinv', hlaw⟩ := rekey_step_spec hinv hexit e
    rw [Run.run_cons, Run.AllSteps, ← hlaw]
    cases hexit' : (rekey_step env w e).loop.exit with
    | none =>
      rw [rekey_run_given_up es hinv' hexit']
      exact ⟨fun h => ⟨not_given_up (by simp [hexit']), h⟩, fun h => h.2⟩
    | some rc =>
      have hexited : (rekey_step env w e).loop.exit.isSome := by simp [hexit']
      obtain ⟨hrun, hall⟩ := rekey_run_exited hexited es
      rw [hrun]
      exact ⟨fun h => ⟨h, hall⟩, fun h => h.1⟩

/-- A run gives up by the law just when each wake-up with all initiations out comes an interval
after the last one, and `sendto` took them all. -/
theorem given_up_iff (env : TunnelEnv) (hs : NwHandshake) (t : NwTransport) (udp_buf : Bytes)
    (now : Int) (es : List (LoopEvent × Bool)) :
    GivenUp (Run.run (rekey_step env) (rekey_start hs t udp_buf now) es)
      ↔ Run.AllSteps (rekey_step env) Unhurried (rekey_start hs t udp_buf now) es :=
  rekey_run_given_up es (rekey_start_inv hs t udp_buf now) rfl

/-- Six initiations go out five seconds apart, and the loop gives up a second after the last. -/
theorem sixth_hurried :
    let k : Key := Bytes.zeros 32
    let start := rekey_start (nw_handshake_init k (some k) none) ⟨k, k, 0, 0, 0, 0, Bytes.zeros 3⟩
      (List.replicate 2048 0) 0
    ¬ GivenUp (Run.run (rekey_step ⟨⟨0, 0⟩, 25⟩) start
      ([110, 115, 120, 125, 130, 135, 136].map fun now =>
        (.wake now 1 (Bytes.zeros 32) (Bytes.zeros 12), true))) := by
  intro k start hgiven
  obtain ⟨-, -, hlast⟩ := hgiven (by decide +kernel)
  exact absurd (hlast ⟨135, true⟩ (by decide +kernel)) (by decide +kernel)

end Run

end Onegram
