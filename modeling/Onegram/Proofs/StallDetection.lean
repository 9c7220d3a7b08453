import Onegram.Proofs.TunnelLoop

/-!
# When a tunnel counts as stalled

The loop measures silence from the last progress it noted, not from the packet that is still
unanswered. After a pause the two differ by the length of the pause, so the first packet after a
long one is given no time at all. The check also runs before the datagrams of its turn are read, so
one that has arrived does not count yet.

A datagram arrives at the socket some time before the loop reads it; the loop here runs together
with its socket.
-/

namespace Onegram

/-- The loop, the datagrams that have arrived and were not read, and when the packets were sent
that no datagram has followed. -/
structure Watch where
  loop : LoopState
  socket : List (SockAddr × Bytes)
  unanswered : List Int

inductive SocketEvent
  | arrives (src : SockAddr) (data : Bytes)
  | wake (now : Int) (idx : UInt32) (ephemeral : Key) (ts : Vector UInt8 12)
  | tun (data : Bytes)
  | recv

/-- The tun device delivers a packet of the app. -/
def IsPacket (data : Bytes) : Prop :=
  4 < (data.take 2048).length
    ∧ (be16 (data.take 2048) 0 * 65536 + be16 (data.take 2048) 2 = AF_INET
      ∨ be16 (data.take 2048) 0 * 65536 + be16 (data.take 2048) 2 = AF_INET6)

instance (data : Bytes) : Decidable (IsPacket data) := by
  unfold IsPacket
  infer_instance

def watch_step (env : TunnelEnv) (w : Watch) (e : SocketEvent) : Watch :=
  if w.loop.exit.isSome then w else
  match e with
  | .arrives src data => { w with socket := w.socket ++ [(src, data)], unanswered := [] }
  | .wake now idx ephemeral ts =>
    { w with loop := loop_step env w.loop (.wake now idx ephemeral ts) }
  | .tun data =>
    { w with
      loop := loop_step env w.loop (.tun data)
      unanswered := if IsPacket data then w.unanswered ++ [w.loop.now] else w.unanswered }
  | .recv =>
    match w.socket with
    | [] => w
    | (src, data) :: rest =>
      { w with loop := loop_step env w.loop (.udp src data), socket := rest }

def watch_start (hs : NwHandshake) (t : NwTransport) (udp_buf : Bytes) (now : Int)
    (socket : List (SockAddr × Bytes)) : Watch where
  loop := loop_start hs t udp_buf now
  socket := socket
  unanswered := []

/-- The loop of a watched run is a run of the loop. -/
theorem watch_loop (env : TunnelEnv) : ∀ (es : List SocketEvent) (w : Watch),
    ∃ les, (Run.run (watch_step env) w es).loop = run_tunnel_loop env w.loop les
  | [], _ => ⟨[], rfl⟩
  | e :: es, w => by
    obtain ⟨les, hles⟩ := watch_loop env es (watch_step env w e)
    have hfirst : ∃ first, (watch_step env w e).loop = run_tunnel_loop env w.loop first := by
      unfold watch_step
      split_ifs
      · exact ⟨[], rfl⟩
      · cases e with
        | arrives src data => exact ⟨[], rfl⟩
        | wake now idx ephemeral ts => exact ⟨[.wake now idx ephemeral ts], rfl⟩
        | tun data => exact ⟨[.tun data], rfl⟩
        | recv =>
          rcases hsocket : w.socket with _ | ⟨⟨src, data⟩, rest⟩
          · exact ⟨[], rfl⟩
          · exact ⟨[.udp src data], rfl⟩
    obtain ⟨first, hfirst⟩ := hfirst
    refine ⟨first ++ les, ?_⟩
    rw [Run.run_cons, hles, hfirst]
    exact (Run.run_append _ _ _ _).symm

/-! ## The law -/

/-- A stalled tunnel has a packet that has waited long enough without a datagram. -/
def Justified (w : Watch) : Prop :=
  w.loop.exit = some NW_EXIT_STALLED → ∃ sent ∈ w.unanswered, sent + kStallSeconds ≤ w.loop.now

/-- Since progress was last noted a packet was sent and no datagram was read. -/
def LoopState.Waiting (s : LoopState) : Prop :=
  s.c_udp_in ≤ s.udp_in_at_progress ∧ s.tun_in_at_progress < s.c_tun_in

/-- While a datagram is unread, or the longest waiting packet has waited less than the limit, the
last progress is not as old as the limit either. Nothing empty arrives while a packet waits. -/
def Patient (w : Watch) : SocketEvent → Prop
  | .wake now _ _ _ =>
    w.loop.Waiting →
      ((∃ d ∈ w.socket, d.2 ≠ []) ∨ ∃ sent ∈ w.unanswered.head?, now < sent + kStallSeconds) →
      now < w.loop.last_progress + kStallSeconds
  | .arrives _ data => data = [] → w.unanswered = []
  | _ => True

/-! ## One step -/

section Steps

variable {env : TunnelEnv} {s : LoopState}

/-- What the check is about. -/
structure SameCounts (s s' : LoopState) : Prop where
  udp_in : s'.c_udp_in = s.c_udp_in
  tun_in : s'.c_tun_in = s.c_tun_in
  udp_in_at : s'.udp_in_at_progress = s.udp_in_at_progress
  tun_in_at : s'.tun_in_at_progress = s.tun_in_at_progress

theorem SameCounts.trans {s s' s'' : LoopState} (h : SameCounts s s') (h' : SameCounts s' s'') :
    SameCounts s s'' :=
  ⟨h'.1.trans h.1, h'.2.trans h.2, h'.3.trans h.3, h'.4.trans h.4⟩

theorem keepalive_check_counts (env : TunnelEnv) (s : LoopState) :
    SameCounts s (keepalive_check env s) ∧ (keepalive_check env s).exit = s.exit
      ∧ (keepalive_check env s).now = s.now
      ∧ (keepalive_check env s).last_progress = s.last_progress := by
  unfold keepalive_check
  dsimp only
  split_ifs <;> exact ⟨⟨rfl, rfl, rfl, rfl⟩, rfl, rfl, rfl⟩

theorem rekey_check_counts (s : LoopState) (hexit : s.exit = none) (idx : UInt32)
    (ephemeral : Key) (ts : Vector UInt8 12) :
    SameCounts s (rekey_check s idx ephemeral ts)
      ∧ (rekey_check s idx ephemeral ts).exit ≠ some NW_EXIT_STALLED := by
  have hrekey : some NW_EXIT_REKEY_FAILED ≠ some NW_EXIT_STALLED := by decide
  have hnone : s.exit ≠ some NW_EXIT_STALLED := by simp [hexit]
  unfold rekey_check
  split_ifs
  · exact ⟨⟨rfl, rfl, rfl, rfl⟩, hrekey⟩
  · exact ⟨⟨rfl, rfl, rfl, rfl⟩, hnone⟩
  · exact ⟨⟨rfl, rfl, rfl, rfl⟩, hnone⟩
  · exact ⟨⟨rfl, rfl, rfl, rfl⟩, hnone⟩

/-- What a wake-up does about progress: it notes some, gives up, or leaves things as they are. -/
theorem on_wake_cases (env : TunnelEnv) (s : LoopState) (hexit : s.exit = none) (now : Int)
    (idx : UInt32) (ephemeral : Key) (ts : Vector UInt8 12) :
    let s' := on_wake env s now idx ephemeral ts
    (s.udp_in_at_progress < s.c_udp_in ∧ s'.exit ≠ some NW_EXIT_STALLED
        ∧ s'.c_udp_in = s'.udp_in_at_progress ∧ s'.c_tun_in = s'.tun_in_at_progress)
      ∨ (s.Waiting ∧ s.last_progress + kStallSeconds ≤ now ∧ s'.now = now ∧ SameCounts s s')
      ∨ (s'.exit ≠ some NW_EXIT_STALLED ∧ SameCounts s s') := by
  intro s'
  obtain ⟨hcounts, hexit', hnow, hprogress⟩ := keepalive_check_counts env { s with now := now }
  have hs' : s' = if (stall_check (keepalive_check env { s with now := now })).exit.isSome
      then stall_check (keepalive_check env { s with now := now })
      else rekey_check (stall_check (keepalive_check env { s with now := now })) idx ephemeral ts :=
    rfl
  generalize keepalive_check env { s with now := now } = k at hcounts hexit' hnow hprogress hs'
  have hkexit : k.exit = none := hexit'.trans hexit
  have hks : SameCounts s k := ⟨hcounts.1, hcounts.2, hcounts.3, hcounts.4⟩
  rw [hs']
  unfold stall_check
  by_cases hread : k.c_udp_in > k.udp_in_at_progress
  · rw [if_pos hread]
    obtain ⟨hsame, hstall⟩ := rekey_check_counts { k with
      udp_in_at_progress := k.c_udp_in
      tun_in_at_progress := k.c_tun_in
      last_progress := k.now } hkexit idx ephemeral ts
    refine .inl ⟨by rw [← hks.1, ← hks.3]; exact hread, ?_⟩
    rw [if_neg (by simp [hkexit])]
    exact ⟨hstall, hsame.1.trans hsame.3.symm, hsame.2.trans hsame.4.symm⟩
  · rw [if_neg hread]
    by_cases hfires : k.c_tun_in > k.tun_in_at_progress ∧ k.now - k.last_progress ≥ kStallSeconds
    · rw [if_pos hfires, if_pos (Option.isSome_some)]
      have hnow' : k.now = now := hnow
      have hprogress' : k.last_progress = s.last_progress := hprogress
      have hage := hfires.2
      rw [hnow', hprogress'] at hage
      refine .inr (.inl ⟨⟨?_, ?_⟩, by omega, hnow, ⟨hks.1, hks.2, hks.3, hks.4⟩⟩)
      · rw [← hks.1, ← hks.3]
        omega
      · rw [← hks.2, ← hks.4]
        exact hfires.1
    · rw [if_neg hfires, if_neg (by simp [hkexit])]
      obtain ⟨hsame, hstall⟩ := rekey_check_counts k hkexit idx ephemeral ts
      exact .inr (.inr ⟨hstall, hks.trans hsame⟩)

theorem on_tun_counts (s : LoopState) (data : Bytes) :
    (on_tun s data).exit = s.exit ∧ (on_tun s data).c_udp_in = s.c_udp_in
      ∧ (on_tun s data).udp_in_at_progress = s.udp_in_at_progress
      ∧ (on_tun s data).tun_in_at_progress = s.tun_in_at_progress
      ∧ (on_tun s data).c_tun_in = s.c_tun_in + if IsPacket data then 1 else 0 := by
  unfold on_tun
  dsimp only
  by_cases hshort : (data.take 2048).length ≤ 4
  · have hpacket : ¬ IsPacket data := fun h => absurd h.1 (by omega)
    rw [if_pos hshort, if_neg hpacket]
    exact ⟨rfl, rfl, rfl, rfl, rfl⟩
  · rw [if_neg hshort]
    by_cases hinet : be16 (data.take 2048) 0 * 65536 + be16 (data.take 2048) 2 = AF_INET
    · have hpacket : IsPacket data := ⟨by omega, .inl hinet⟩
      rw [if_pos hinet, if_pos hpacket]
      exact ⟨rfl, rfl, rfl, rfl, rfl⟩
    · rw [if_neg hinet]
      by_cases hinet6 : be16 (data.take 2048) 0 * 65536 + be16 (data.take 2048) 2 = AF_INET6
      · have hpacket : IsPacket data := ⟨by omega, .inr hinet6⟩
        rw [if_pos hinet6, if_pos hpacket]
        exact ⟨rfl, rfl, rfl, rfl, rfl⟩
      · have hpacket : ¬ IsPacket data := fun h => h.2.elim hinet hinet6
        rw [if_neg hinet6, if_neg hpacket]
        exact ⟨rfl, rfl, rfl, rfl, rfl⟩

theorem on_udp_counts (env : TunnelEnv) (s : LoopState) (src : SockAddr) (data : Bytes) :
    (on_udp env s src data).exit = s.exit
      ∧ (on_udp env s src data).udp_in_at_progress = s.udp_in_at_progress
      ∧ (on_udp env s src data).tun_in_at_progress = s.tun_in_at_progress
      ∧ (on_udp env s src data).c_tun_in = s.c_tun_in
      ∧ (on_udp env s src data).c_udp_in = s.c_udp_in + if data = [] then 0 else 1 := by
  have hempty : (data.take 2048).length = 0 ↔ data = [] := by
    rw [List.length_eq_zero_iff, List.take_eq_nil_iff]
    simp
  unfold on_udp
  dsimp only
  by_cases hdata : data = []
  · rw [if_pos (hempty.mpr hdata), if_pos hdata]
    exact ⟨rfl, rfl, rfl, rfl, rfl⟩
  · rw [if_neg (mt hempty.mp hdata), if_neg hdata]
    split_ifs
    · unfold on_data
      split
      · split_ifs <;> exact ⟨rfl, rfl, rfl, rfl, rfl⟩
      · exact ⟨rfl, rfl, rfl, rfl, rfl⟩
    · unfold on_response
      dsimp only
      split_ifs <;> exact ⟨rfl, rfl, rfl, rfl, rfl⟩
    · exact ⟨rfl, rfl, rfl, rfl, rfl⟩

end Steps

/-! ## The run -/

/-- With no datagram read or waiting to be read since the last progress, the packets sent since
then are among those that wait. -/
structure WatchInv (w : Watch) : Prop where
  noted : w.loop.udp_in_at_progress ≤ w.loop.c_udp_in
  waits : w.loop.c_udp_in = w.loop.udp_in_at_progress → (∀ d ∈ w.socket, d.2 = []) →
    w.loop.c_tun_in ≤ w.loop.tun_in_at_progress + w.unanswered.length
  justified : Justified w

section Run

variable {env : TunnelEnv} {w : Watch}

theorem not_stalled {w : Watch} (h : w.loop.exit ≠ some NW_EXIT_STALLED) : Justified w :=
  fun hstalled => absurd hstalled h

/-- A stalled loop has a packet that waits, and it has waited since the last progress. -/
theorem stalled_waits (hinv : WatchInv w) (hwait : w.loop.Waiting) {now : Int}
    (hage : w.loop.last_progress + kStallSeconds ≤ now) (idx : UInt32) (ephemeral : Key)
    (ts : Vector UInt8 12) (hok : Patient w (.wake now idx ephemeral ts)) :
    ∃ sent ∈ w.unanswered, sent + kStallSeconds ≤ now := by
  have hpatient := mt (hok hwait) (by omega)
  rw [not_or] at hpatient
  obtain ⟨hsocket, hfirst⟩ := hpatient
  have hempty : ∀ d ∈ w.socket, d.2 = [] := fun d hd =>
    by_contra fun hne => hsocket ⟨d, hd, hne⟩
  have hcount := hinv.waits (le_antisymm hwait.1 hinv.noted) hempty
  have hsent := hwait.2
  rcases hun : w.unanswered with _ | ⟨sent, rest⟩
  · rw [hun] at hcount
    simp only [List.length_nil] at hcount
    omega
  · refine ⟨sent, List.mem_cons_self, ?_⟩
    by_contra hyoung
    exact hfirst ⟨sent, by rw [hun]; rfl, by omega⟩

theorem watch_step_inv (e : SocketEvent) (hinv : WatchInv w) (hok : Patient w e) :
    WatchInv (watch_step env w e) := by
  unfold watch_step
  cases hexit : w.loop.exit with
  | some rc => exact hinv
  | none =>
    rw [if_neg (by simp)]
    have hrun : ¬ w.loop.exit.isSome = true := by simp [hexit]
    have hnone : w.loop.exit ≠ some NW_EXIT_STALLED := by simp [hexit]
    cases e with
    | arrives src data =>
      refine ⟨hinv.noted, fun hudp hsocket => ?_, not_stalled hnone⟩
      have hdata : data = [] := hsocket (src, data) (by simp)
      have hcount := hinv.waits hudp fun d hd => hsocket d (List.mem_append_left _ hd)
      rwa [hok hdata] at hcount
    | wake now idx ephemeral ts =>
      have hloop : loop_step env w.loop (.wake now idx ephemeral ts)
          = on_wake env w.loop now idx ephemeral ts := if_neg hrun
      simp only [hloop]
      rcases on_wake_cases env w.loop hexit now idx ephemeral ts with
        ⟨-, hstall, hudp, htun⟩ | ⟨hwait, hage, hnow, hsame⟩ | ⟨hstall, hsame⟩
      · exact ⟨hudp.ge, fun _ _ => by simp only [htun]; omega, not_stalled hstall⟩
      · refine ⟨?_, ?_, fun _ => ?_⟩
        · simpa only [hsame.1, hsame.3] using hinv.noted
        · simpa only [hsame.1, hsame.2, hsame.3, hsame.4] using hinv.waits
        · simp only [hnow]
          exact stalled_waits hinv hwait hage idx ephemeral ts hok
      · refine ⟨?_, ?_, not_stalled hstall⟩
        · simpa only [hsame.1, hsame.3] using hinv.noted
        · simpa only [hsame.1, hsame.2, hsame.3, hsame.4] using hinv.waits
    | tun data =>
      have hloop : loop_step env w.loop (.tun data) = on_tun w.loop data := if_neg hrun
      obtain ⟨hexit', hudp, hudpAt, htunAt, htun⟩ := on_tun_counts w.loop data
      simp only [hloop]
      refine ⟨by simpa only [hudp, hudpAt] using hinv.noted, ?_,
        not_stalled (by simp [hexit', hexit])⟩
      simp only [hudp, hudpAt, htunAt, htun]
      intro heq hsocket
      have hcount := hinv.waits heq hsocket
      split_ifs
      · rw [List.length_append, List.length_singleton]
        omega
      · exact hcount
    | recv =>
      rcases hsocket : w.socket with _ | ⟨⟨src, data⟩, rest⟩
      · exact hinv
      · have hloop : loop_step env w.loop (.udp src data) = on_udp env w.loop src data := if_neg hrun
        obtain ⟨hexit', hudpAt, htunAt, htun, hudp⟩ := on_udp_counts env w.loop src data
        have hnoted := hinv.noted
        simp only [hloop]
        refine ⟨?_, ?_, not_stalled (by simp [hexit', hexit])⟩
        · simp only [hudp, hudpAt]
          omega
        · simp only [hudp, hudpAt, htunAt, htun]
          intro heq hrest
          by_cases hdata : data = []
          · rw [if_pos hdata] at heq
            refine hinv.waits heq fun d hd => ?_
            rw [hsocket] at hd
            rcases List.mem_cons.mp hd with rfl | hd
            · exact hdata
            · exact hrest d hd
          · rw [if_neg hdata] at heq
            omega

theorem watch_start_inv (hs : NwHandshake) (t : NwTransport) (udp_buf : Bytes) (now : Int)
    (socket : List (SockAddr × Bytes)) : WatchInv (watch_start hs t udp_buf now socket) :=
  ⟨le_refl _, fun _ _ => Nat.zero_le _, not_stalled (by simp [watch_start, loop_start])⟩

/-- In a patient run the loop gives up only on a packet that has waited long enough. -/
theorem stalled_justified (env : TunnelEnv) (hs : NwHandshake) (t : NwTransport) (udp_buf : Bytes)
    (now : Int) (socket : List (SockAddr × Bytes)) (es : List SocketEvent)
    (h : Run.AllSteps (watch_step env) Patient (watch_start hs t udp_buf now socket) es) :
    Justified (Run.run (watch_step env) (watch_start hs t udp_buf now socket) es) :=
  (Run.invariant (fun _ e => watch_step_inv e) es (watch_start_inv hs t udp_buf now socket)
    h).justified

def sample_watch : Watch :=
  let k : Key := Bytes.zeros 32
  watch_start (nw_handshake_init k (some k) none) ⟨k, k, 0, 0, 0, 0, Bytes.zeros 3⟩
    (List.replicate 2048 0) 0 []

/-- The loop wakes up at `now`; what an initiation would draw does not matter. -/
def sample_wake (now : Int) : SocketEvent := .wake now 1 (Bytes.zeros 32) (Bytes.zeros 12)

/-- A packet goes out at once and stays unanswered for the whole time. -/
theorem stalled_justified_silence :
    let es := [sample_wake 0, .tun tun_read, sample_wake 40]
    Run.AllSteps (watch_step ⟨⟨0, 0⟩, 25⟩) Patient sample_watch es
      ∧ (Run.run (watch_step ⟨⟨0, 0⟩, 25⟩) sample_watch es).loop.exit = some NW_EXIT_STALLED
      ∧ Justified (Run.run (watch_step ⟨⟨0, 0⟩, 25⟩) sample_watch es) := by
  intro es
  have hpatient : Run.AllSteps (watch_step ⟨⟨0, 0⟩, 25⟩) Patient sample_watch es := by
    refine ⟨fun hwait => absurd hwait.2 (by decide), trivial, fun _ hyoung => ?_, trivial⟩
    rcases hyoung with ⟨d, hd, -⟩ | ⟨sent, hsent, hyoung⟩
    · exact absurd hd List.not_mem_nil
    · obtain rfl : (0 : Int) = sent := Option.some.inj hsent
      exact absurd hyoung (by decide)
  exact ⟨hpatient, by decide +kernel, stalled_justified _ _ _ _ _ _ es hpatient⟩

/-- The tunnel is idle for a minute, waking up every second. Then a packet is sent and answered
within a second, and the loop gives up before it reads the answer. -/
theorem pause_stalls :
    ¬ Justified (Run.run (watch_step ⟨⟨0, 0⟩, 25⟩) sample_watch
      ((List.range 61).map (fun n => sample_wake n)
        ++ [.tun tun_read, .arrives ⟨0, 0⟩ [4], sample_wake 61])) := by
  intro hjustified
  obtain ⟨sent, hsent, -⟩ := hjustified (by decide +kernel)
  have hnone : (Run.run (watch_step ⟨⟨0, 0⟩, 25⟩) sample_watch
      ((List.range 61).map (fun n => sample_wake n)
        ++ [.tun tun_read, .arrives ⟨0, 0⟩ [4], sample_wake 61])).unanswered = [] := by
    decide +kernel
  rw [hnone] at hsent
  exact absurd hsent List.not_mem_nil

end Run

end Onegram
