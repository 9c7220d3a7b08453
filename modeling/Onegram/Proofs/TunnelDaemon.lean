import Onegram.TunnelDaemon

/-!
# One tunnel at a time

Where each stop finds in the pid file every daemon there is, there is one daemon at most, and none
is left when the stop is through. The file is written late: a stop that comes before leaves the
daemon, and the next one is started beside it.
-/

namespace Onegram

namespace TunnelDaemon

open Run (run AllSteps)

variable {s s' : State} {p q : Process}

/-! ## What a daemon's step does -/

/-- No process but what was there, with the routing of now if it is new. -/
def Descends (stops : ℕ) (ps ps' : List Process) : Prop :=
  ps'.length ≤ ps.length ∧ ∀ q ∈ ps', ∃ p ∈ ps, q.pid = p.pid ∧ q.born = p.born
    ∧ (q.routing = p.routing ∨ q.routing = some stops)

theorem Descends.refl (stops : ℕ) (ps : List Process) : Descends stops ps ps :=
  ⟨le_rfl, fun q hq => ⟨q, hq, rfl, rfl, .inl rfl⟩⟩

theorem Descends.filter (stops : ℕ) (ps : List Process) (f : Process → Bool) :
    Descends stops ps (ps.filter f) :=
  ⟨List.length_filter_le f ps, fun q hq => ⟨q, List.mem_of_mem_filter hq, rfl, rfl, .inl rfl⟩⟩

theorem Descends.map (stops : ℕ) (ps : List Process) (f : Process → Process)
    (h : ∀ q ∈ ps, ∃ p ∈ ps, (f q).pid = p.pid ∧ (f q).born = p.born
      ∧ ((f q).routing = p.routing ∨ (f q).routing = some stops)) :
    Descends stops ps (ps.map f) := by
  refine ⟨(List.length_map f).le, fun q hq => ?_⟩
  obtain ⟨q', hq', rfl⟩ := List.mem_map.mp hq
  exact h q' hq'

theorem Descends.trans {stops : ℕ} {ps ps' ps'' : List Process} (h : Descends stops ps ps')
    (h' : Descends stops ps' ps'') : Descends stops ps ps'' := by
  refine ⟨h'.1.trans h.1, fun r hr => ?_⟩
  obtain ⟨q, hq, hpid, hborn, hrouting⟩ := h'.2 r hr
  obtain ⟨p, hp, hpid', hborn', hrouting'⟩ := h.2 q hq
  refine ⟨p, hp, hpid.trans hpid', hborn.trans hborn', ?_⟩
  rcases hrouting with hsame | hnew
  · rw [hsame]
    exact hrouting'
  · exact .inr hnew

/-- The commands and the coordinator are where they were. -/
structure Quiet (s s' : State) : Prop where
  processes : Descends s.stops s.processes s'.processes
  command : s'.command = s.command
  coordinator : s'.coordinator = s.coordinator
  stops : s'.stops = s.stops

theorem Quiet.refl (s : State) : Quiet s s := ⟨.refl _ _, rfl, rfl, rfl⟩

theorem Quiet.become (h : Quiet s s') (hsame : s'.processes = s.processes)
    (hp : p ∈ s.processes) (hpid : q.pid = p.pid) (hborn : q.born = p.born)
    (hrouting : q.routing = p.routing ∨ q.routing = some s.stops) : Quiet s (s'.become q) := by
  refine ⟨?_, h.command, h.coordinator, h.stops⟩
  unfold State.become
  rw [hsame]
  refine .map _ _ _ fun r hr => ?_
  split_ifs
  · exact ⟨p, hp, hpid, hborn, hrouting⟩
  · exact ⟨r, hr, rfl, rfl, .inl rfl⟩

theorem Quiet.remove (s : State) (pid : pid_t) : Quiet s (s.remove pid) :=
  ⟨.filter _ _ _, rfl, rfl, rfl⟩

theorem openPid_quiet (s : State) :
    Quiet s (openPid s).2 ∧ (openPid s).2.processes = s.processes := by
  unfold openPid
  rcases s.pidFile with _ | file
  · exact ⟨⟨.refl _ _, rfl, rfl, rfl⟩, rfl⟩
  · exact ⟨⟨.refl _ _, rfl, rfl, rfl⟩, rfl⟩

theorem writePid_quiet (inode : ℕ) (pid : pid_t) (s : State) :
    Quiet s (writePid inode pid s) ∧ (writePid inode pid s).processes = s.processes := by
  unfold writePid
  rcases s.pidFile with _ | file
  · exact ⟨.refl s, rfl⟩
  · simp only []
    split_ifs
    · exact ⟨⟨.refl _ _, rfl, rfl, rfl⟩, rfl⟩
    · exact ⟨.refl s, rfl⟩

theorem advance_quiet (hp : p ∈ s.processes) (daemonStep : DaemonStep) :
    Quiet s (advance s p daemonStep) := by
  have hbecome : ∀ {s' : State} {q : Process}, Quiet s s' → s'.processes = s.processes →
      q.pid = p.pid → q.born = p.born → q.routing = p.routing → Quiet s (s'.become q) :=
    fun h hsame hpid hborn hrouting => h.become hsame hp hpid hborn (.inl hrouting)
  unfold advance
  split
  case h_3 fails _ _ =>
    split_ifs
    · exact hbecome (.refl s) rfl rfl rfl rfl
    · exact hbecome (openPid_quiet s).1 (openPid_quiet s).2 rfl rfl rfl
  case h_4 inode fails _ =>
    split_ifs
    · exact hbecome (.refl s) rfl rfl rfl rfl
    · exact hbecome (writePid_quiet inode p.pid s).1 (writePid_quiet inode p.pid s).2 rfl rfl rfl
  case h_6 => exact (Quiet.refl s).become rfl hp rfl rfl (.inr rfl)
  case h_7 fails _ =>
    split_ifs
    · exact hbecome (.refl s) rfl rfl rfl rfl
    · exact hbecome ⟨.refl _ _, rfl, rfl, rfl⟩ rfl rfl rfl rfl
  case h_9 =>
    split_ifs
    · exact hbecome (.refl s) rfl rfl rfl rfl
    · exact .refl s
  case h_10 | h_11 => exact hbecome ⟨.refl _ _, rfl, rfl, rfl⟩ rfl rfl rfl rfl
  case h_12 | h_13 => exact .remove s p.pid
  case h_14 => exact .refl s
  all_goals exact hbecome (.refl s) rfl rfl rfl rfl

/-! ## The invariant -/

/-- What the stop in progress knows of the processes. -/
def StopKnows (s : State) : Prop :=
  match s.command with
  | .signalling pid | .polling pid _ | .killing pid => ∀ p ∈ s.processes, p.pid = pid
  | .restoring | .unlinking => s.processes = []
  | _ => True

structure Owned (s : State) : Prop where
  atMostOne : s.processes.length ≤ 1
  positive : ∀ p ∈ s.processes, 0 < p.pid
  current : ∀ p ∈ s.processes, p.born = s.stops
  routed : ∀ p ∈ s.processes, ∀ n, p.routing = some n → n = p.born
  knows : StopKnows s
  /-- A stop is complete, and nothing is started yet. -/
  starting : ∀ rest, s.coordinator = .starting rest → s.command = .none → s.processes = []

theorem Descends.nil {stops : ℕ} {ps : List Process} (h : Descends stops [] ps) : ps = [] :=
  List.length_eq_zero_iff.mp (Nat.le_zero.mp h.1)

theorem Descends.pids {stops : ℕ} {ps ps' : List Process} {pid : pid_t}
    (h : Descends stops ps ps') (hpid : ∀ p ∈ ps, p.pid = pid) : ∀ q ∈ ps', q.pid = pid := by
  intro q hq
  obtain ⟨p, hp, hsame, -, -⟩ := h.2 q hq
  rw [hsame]
  exact hpid p hp

theorem StopKnows.descends (h : StopKnows s)
    (hd : Descends s.stops s.processes s'.processes) (hcommand : s'.command = s.command) :
    StopKnows s' := by
  unfold StopKnows at h ⊢
  rw [hcommand]
  split at h
  case h_1 | h_2 | h_3 => exact hd.pids h
  case h_4 | h_5 =>
    rw [h] at hd
    exact hd.nil
  case h_6 => trivial

/-- Fewer processes, and whatever the stop knows of them. -/
theorem Owned.descends (h : Owned s) (hd : Descends s.stops s.processes s'.processes)
    (hstops : s'.stops = s.stops) (hknows : StopKnows s')
    (hstarting : ∀ rest, s'.coordinator = .starting rest → s'.command = .none →
      s'.processes = []) : Owned s' := by
  refine ⟨hd.1.trans h.atMostOne, fun q hq => ?_, fun q hq => ?_, fun q hq n hn => ?_, hknows,
    hstarting⟩
  · obtain ⟨p, hp, hpid, -, -⟩ := hd.2 q hq
    rw [hpid]
    exact h.positive p hp
  · obtain ⟨p, hp, -, hborn, -⟩ := hd.2 q hq
    rw [hborn, hstops]
    exact h.current p hp
  · obtain ⟨p, hp, -, hborn, hrouting⟩ := hd.2 q hq
    rw [hborn]
    rcases hrouting with hsame | hnew
    · exact h.routed p hp n (hsame ▸ hn)
    · rw [hnew] at hn
      rw [h.current p hp]
      exact (Option.some.inj hn).symm

theorem Owned.quiet (h : Owned s) (hquiet : Quiet s s') : Owned s' := by
  refine h.descends hquiet.processes hquiet.stops (h.knows.descends hquiet.processes
    hquiet.command) fun rest hrest hnone => ?_
  have hprocesses := hquiet.processes
  rw [h.starting rest (hquiet.coordinator ▸ hrest) (hquiet.command ▸ hnone)] at hprocesses
  exact hprocesses.nil

/-- The processes are left as they are. -/
theorem Owned.moved (h : Owned s) (hprocesses : s'.processes = s.processes)
    (hstops : s'.stops = s.stops) (hknows : StopKnows s')
    (hstarting : ∀ rest, s'.coordinator = .starting rest → s'.command = .none →
      s'.processes = []) : Owned s' :=
  h.descends (hprocesses ▸ .refl _ _) hstops hknows hstarting

/-! ## The commands -/

theorem tryRoutes_owned (h : Owned s) (routes : ℕ) : Owned (tryRoutes routes s) := by
  cases routes <;> exact h.moved rfl rfl trivial nofun

theorem tunnelReturned_owned (h : Owned s) (up : ℕ) : Owned (tunnelReturned up s) := by
  unfold tunnelReturned
  split
  · split_ifs
    · exact h.moved rfl rfl trivial nofun
    · exact tryRoutes_owned h _
    · exact h.moved rfl rfl trivial nofun
  · exact h.moved rfl rfl trivial nofun

theorem waitForData_owned (h : Owned s) (rest downSamples : ℕ) (failing : Bool) (net : ℕ)
    (graceOver startupOver : Bool) :
    Owned (waitForData rest downSamples failing net graceOver startupOver s) := by
  have hagain : ∀ (downSamples : ℕ) (failing : Bool), Owned (if startupOver then tryRoutes rest s
      else { s with coordinator := .waiting rest downSamples failing, command := .netcheck }) := by
    intro downSamples failing
    split_ifs
    · exact tryRoutes_owned h rest
    · exact h.moved rfl rfl trivial nofun
  unfold waitForData
  simp only []
  by_cases hstart : net = 3
  · rw [if_pos hstart]
    exact hagain 0 false
  rw [if_neg hstart]
  by_cases hdata : net = 1
  · rw [if_pos hdata]
    by_cases hover : failing = true ∧ graceOver = true
    · rw [if_pos hover]
      exact tryRoutes_owned h rest
    · rw [if_neg hover]
      exact hagain downSamples true
  rw [if_neg hdata]
  by_cases hdown : downSamples + 1 ≥ 2
  · rw [if_pos hdown]
    exact tryRoutes_owned h rest
  · rw [if_neg hdown]
    exact hagain (downSamples + 1) failing

theorem netchecked_owned (h : Owned s) (net : ℕ) (graceOver startupOver : Bool) :
    Owned (netchecked net graceOver startupOver s) := by
  unfold netchecked
  split
  · split_ifs
    · exact h.moved rfl rfl trivial nofun
    · exact tryRoutes_owned h _
  · split_ifs
    · exact h.moved rfl rfl trivial nofun
    · exact waitForData_owned h _ _ _ _ _ _
  · split_ifs
    · exact h.moved rfl rfl trivial nofun
    · exact h.moved rfl rfl trivial nofun
  · exact h.moved rfl rfl trivial nofun

theorem cmd_netcheck_owned (h : Owned s) (probe graceOver startupOver : Bool) :
    Owned (cmd_netcheck probe graceOver startupOver s) := by
  unfold cmd_netcheck
  split
  · split
    · exact h.moved rfl rfl trivial nofun
    · exact netchecked_owned h _ _ _
  · split_ifs
    · exact h.moved rfl rfl trivial nofun
    · exact netchecked_owned h _ _ _
  · split_ifs
    · exact h.moved rfl rfl trivial nofun
    · exact netchecked_owned h _ _ _
  · exact netchecked_owned h _ _ _
  · exact h

/-! ## The stop -/

/-- The stop that reads the pid file finds every daemon there is in it. -/
def Found (s : State) (e : Event) : Prop :=
  s.command = .reading → e = .stop → ∀ p ∈ s.processes, s.pidRead = some p.pid

instance (s : State) (e : Event) : Decidable (Found s e) :=
  inferInstanceAs (Decidable (_ → _ → _))

theorem alive_iff {pid : pid_t} : s.alive pid = true ↔ ∃ p ∈ s.processes, p.pid = pid := by
  unfold State.alive
  simp

theorem interrupt_descends (s : State) (pid : pid_t) :
    Descends s.stops s.processes (s.interrupt pid).processes := by
  refine (Descends.filter s.stops s.processes _).trans (.map _ _ _ fun q hq => ?_)
  split_ifs
  · exact ⟨q, hq, rfl, rfl, .inl rfl⟩
  · exact ⟨q, hq, rfl, rfl, .inl rfl⟩

/-- A process that none is known beside is not there when it is dead. -/
theorem none_of_dead {pid : pid_t} (hpids : ∀ p ∈ s.processes, p.pid = pid)
    (hdead : ¬s.alive pid = true) : s.processes = [] := by
  rw [alive_iff] at hdead
  exact List.eq_nil_iff_forall_not_mem.mpr fun p hp => hdead ⟨p, hp, hpids p hp⟩

theorem read_owned (h : Owned s) (hcommand : s.command = .reading) (hfound : Found s .stop) :
    Owned (cmd_stop s) := by
  have hpids := hfound hcommand rfl
  unfold cmd_stop
  rw [hcommand]
  simp only []
  rcases hread : s.pidRead with _ | pid
  · have hnone : s.processes = [] := List.eq_nil_iff_forall_not_mem.mpr fun p hp => by
      have := hpids p hp
      rw [hread] at this
      cases this
    exact h.moved rfl rfl hnone fun _ _ _ => hnone
  · rw [hread] at hpids
    have hall : ∀ p ∈ s.processes, p.pid = pid := fun p hp => (Option.some.inj (hpids p hp)).symm
    by_cases hpositive : 0 < pid
    · simp only [if_pos hpositive]
      exact h.moved rfl rfl hall nofun
    · have hnone : s.processes = [] := List.eq_nil_iff_forall_not_mem.mpr fun p hp =>
        hpositive (hall p hp ▸ h.positive p hp)
      simp only [if_neg hpositive]
      exact h.moved rfl rfl hnone fun _ _ _ => hnone

theorem stopped_owned (hnone : s.processes = []) :
    Owned (stopped { s with pidFile := none, stops := s.stops + 1 }) := by
  have hcomplete : Owned { s with pidFile := none, stops := s.stops + 1, command := .none } :=
    ⟨by simp [hnone], by simp [hnone], by simp [hnone], by simp [hnone], trivial,
      fun _ _ _ => hnone⟩
  unfold stopped
  simp only []
  split
  · exact hcomplete.moved rfl rfl trivial fun _ _ _ => hnone
  · exact hcomplete.moved rfl rfl trivial nofun
  · exact hcomplete.moved rfl rfl trivial nofun

theorem cmd_stop_owned (h : Owned s) (hfound : Found s .stop) : Owned (cmd_stop s) := by
  rcases hcommand : s.command with _ | _ | pid | ⟨pid, polls⟩ | pid | _ | _ | pid | _ | pid | _ | _
  case reading => exact read_owned h hcommand hfound
  case signalling =>
    have hpids : ∀ p ∈ s.processes, p.pid = pid := by simpa [StopKnows, hcommand] using h.knows
    unfold cmd_stop
    rw [hcommand]
    simp only []
    split_ifs with halive
    · have hd := interrupt_descends s pid
      exact h.descends hd rfl (hd.pids hpids) nofun
    · have hnone := none_of_dead hpids halive
      exact h.moved rfl rfl hnone fun _ _ _ => hnone
  case polling =>
    have hpids : ∀ p ∈ s.processes, p.pid = pid := by simpa [StopKnows, hcommand] using h.knows
    unfold cmd_stop
    rw [hcommand]
    simp only []
    by_cases halive : s.alive pid = true
    · rw [if_pos halive]
      by_cases hpolls : polls + 1 < 20
      · rw [if_pos hpolls]
        exact h.moved rfl rfl hpids nofun
      · rw [if_neg hpolls]
        exact h.moved rfl rfl hpids nofun
    · rw [if_neg halive]
      have hnone := none_of_dead hpids halive
      exact h.moved rfl rfl hnone fun _ _ _ => hnone
  case killing =>
    have hpids : ∀ p ∈ s.processes, p.pid = pid := by simpa [StopKnows, hcommand] using h.knows
    have hnone : (s.remove pid).processes = [] := by
      unfold State.remove
      simpa [List.filter_eq_nil_iff] using hpids
    unfold cmd_stop
    rw [hcommand]
    exact h.descends (.filter _ _ _) rfl hnone fun _ _ _ => hnone
  case restoring | unlinking =>
    have hnone : s.processes = [] := by simpa [StopKnows, hcommand] using h.knows
    unfold cmd_stop
    rw [hcommand]
    first
      | exact stopped_owned hnone
      | exact h.moved rfl rfl hnone fun _ _ _ => hnone
  all_goals
    unfold cmd_stop
    rw [hcommand]
    exact h

/-! ## Every step -/

theorem warpTunnel_owned (h : Owned s) (pid : pid_t) : Owned (warpTunnel pid s) := by
  unfold warpTunnel
  split
  case h_1 rest hcoordinator hcommand =>
    split_ifs with hpid
    · have hnone := h.starting rest hcoordinator hcommand
      rw [hnone]
      exact ⟨le_rfl, by simp [hpid.1], by simp, by simp, trivial, nofun⟩
    · exact h
  case h_2 => exact h

theorem step_owned (h : Owned s) (e : Event) (hfound : Found s e) : Owned (step s e) := by
  cases e with
  | enable routes =>
    simp only [step]
    split_ifs
    · exact tryRoutes_owned h routes
    · exact h
  | check routes =>
    simp only [step]
    split_ifs
    · exact h.moved rfl rfl trivial nofun
    · exact h
  | disable =>
    simp only [step]
    split_ifs
    · exact h.moved rfl rfl trivial nofun
    · exact h
  | relaunch => exact h.moved rfl rfl h.knows nofun
  | stop => exact cmd_stop_owned h hfound
  | stopRefused =>
    simp only [step]
    split_ifs
    · split <;> exact h.moved rfl rfl trivial nofun
    · exact h
  | spawn pid => exact warpTunnel_owned h pid
  | returned up =>
    simp only [step]
    split
    · split_ifs
      · exact tunnelReturned_owned h up
      · exact h
    · exact h
  | netcheck probe graceOver startupOver => exact cmd_netcheck_owned h probe graceOver startupOver
  | daemon pid daemonStep =>
    simp only [step]
    split
    case h_1 p hfind => exact h.quiet (advance_quiet (List.mem_of_find?_eq_some hfind) daemonStep)
    case h_2 => exact h

/-! ## Runs -/

/-- No daemon, and nothing in progress. The files may be left from before. -/
def Start (s : State) : Prop := s.processes = [] ∧ s.Free

/-- One daemon at most is past its routing setup, and it was started after the last stop that was
complete then. -/
structure Exclusive (s : State) : Prop where
  alone : (s.processes.filter (·.routing.isSome)).length ≤ 1
  fresh : ∀ p ∈ s.processes, ∀ n, p.routing = some n → n = p.born

theorem Start.owned (h : Start s) : Owned s := by
  obtain ⟨hnone, -, hcommand⟩ := h
  refine ⟨by simp [hnone], by simp [hnone], by simp [hnone], by simp [hnone], ?_, fun _ _ _ => hnone⟩
  unfold StopKnows
  rw [hcommand]
  trivial

theorem Owned.exclusive (h : Owned s) : Exclusive s :=
  ⟨(List.length_filter_le _ _).trans h.atMostOne, h.routed⟩

/-- Where every stop finds the daemons there are, each state of the run has one tunnel at most. -/
theorem exclusive_of_found (hstart : Start s) (es : List Event) (hfound : AllSteps step Found s es) :
    Exclusive s ∧ AllSteps step (fun s e => Exclusive (step s e)) s es :=
  ⟨hstart.owned.exclusive, AllSteps.of_invariant (fun _ e h hf => step_owned h e hf)
    (fun _ e h hf => (step_owned h e hf).exclusive) hstart.owned hfound⟩

/-- A daemon gets to its loop, and is stopped for the next. -/
def enabledTwice : List Event :=
  [.enable 1, .stop, .stop, .stop, .spawn 10, .daemon 10 .fork, .returned 0, .daemon 10 .kpatch,
    .daemon 10 (.open_pid false), .daemon 10 (.write_pid false), .netcheck true false false,
    .netcheck true false false, .netcheck true false false, .daemon 10 (.setup_routing false),
    .daemon 10 (.announce false), .daemon 10 .install_handlers, .netcheck true false false,
    .netcheck true false false, .netcheck true false false, .netcheck true false false,
    .enable 1, .stop, .stop, .daemon 10 (.leave false), .daemon 10 .unlink_pid,
    .daemon 10 .unlink_ready, .daemon 10 .exit, .stop, .stop, .stop, .spawn 11, .daemon 11 .fork,
    .returned 0, .daemon 11 .kpatch, .daemon 11 (.open_pid false), .daemon 11 (.write_pid false),
    .daemon 11 (.setup_routing false)]

theorem enabledTwice_exclusive :
    (run step {} enabledTwice).processes
        = [{ pid := 11, phase := .routed, born := 2, routing := some 2 }]
      ∧ Exclusive {} ∧ AllSteps step (fun s e => Exclusive (step s e)) {} enabledTwice :=
  ⟨by decide +kernel, exclusive_of_found ⟨rfl, rfl, rfl⟩ enabledTwice (by decide +kernel)⟩

/-- The kernel patch of the first daemon takes longer than two samples: there is no pid file yet
when the coordinator gives up and stops it. -/
def lateDaemon : List Event :=
  [.enable 2, .stop, .stop, .stop, .spawn 10, .daemon 10 .fork, .returned 0,
    .netcheck false false false, .netcheck false false false,
    .stop, .stop, .stop, .spawn 11, .daemon 11 .fork, .returned 0,
    .daemon 11 .kpatch, .daemon 11 (.open_pid false), .daemon 11 (.write_pid false),
    .daemon 11 (.setup_routing false),
    .daemon 10 .kpatch, .daemon 10 (.open_pid false), .daemon 10 (.write_pid false),
    .daemon 10 (.setup_routing false)]

theorem lateDaemon_not_exclusive : Start {}
    ∧ (run step {} lateDaemon).processes
      = [{ pid := 10, phase := .routed, born := 1, routing := some 2 },
        { pid := 11, phase := .routed, born := 2, routing := some 2 }]
    ∧ ¬Exclusive (run step {} lateDaemon) := by
  refine ⟨⟨rfl, rfl, rfl⟩, by decide +kernel, fun h => absurd h.alone ?_⟩
  decide +kernel

end TunnelDaemon

end Onegram
