import Onegram.Lib.Run

/-!
# The tunnel's daemons

The coordinator stops the tunnel, starts one and waits for it, one endpoint after the other, through
a bridge that runs one command at a time. A daemon is known to the stop by the pid file alone, which
it writes once it has patched the kernel.

A pid of a process that is no daemon is taken for dead. Clocks are inputs: the coordinator is told
which of its deadlines have passed. `register` and `status` are left out.
-/

namespace Onegram

namespace TunnelDaemon

abbrev pid_t := ℕ

/-! ## Daemons -/

/-- Where `cmd_warp_tunnel` is. -/
inductive Phase where
  /-- In `main`, before it forks. -/
  | arguments
  | detached
  | patched
  /-- The pid file is open. -/
  | opened (inode : ℕ)
  /-- The pid is written: the connection, the handshake and the interface. -/
  | connecting
  | routed
  | announced
  | looping
  | cleaning
  | unlinked
  | restoring
deriving DecidableEq, Repr

structure Process where
  pid : pid_t
  phase : Phase := .arguments
  /-- `handle_sigint` is installed. -/
  handlers : Bool := false
  clean_exit_requested : Bool := false
  /-- The stops that were complete when it was started. -/
  born : ℕ
  /-- Those that were when it set up its routing. -/
  routing : Option ℕ := none
deriving DecidableEq, Repr

/-! ## The coordinator -/

/-- The command the bridge runs, and how far it is. -/
inductive Command where
  | none
  | reading
  | signalling (pid : pid_t)
  | polling (pid : pid_t) (polls : ℕ)
  | killing (pid : pid_t)
  | restoring
  | unlinking
  | spawning (pid : pid_t)
  | netcheck
  | netcheckAlive (pid : pid_t)
  | netcheckReady
  | netcheckProbe
deriving DecidableEq, Repr

/-- The block of `TGRouteQueue` that runs; `rest` are the routes after the one that is tried. -/
inductive Coordinator where
  | idle
  | checking (routes : ℕ)
  | stopping (rest : ℕ)
  | starting (rest : ℕ)
  | waiting (rest downSamples : ℕ) (failing : Bool)
  | lastStop
  | disabling (retried : Bool)
deriving DecidableEq, Repr

structure PidFile where
  inode : ℕ
  contents : Option pid_t
deriving DecidableEq, Repr

structure State where
  processes : List Process := []
  pidFile : Option PidFile := none
  inodes : ℕ := 0
  ready : Bool := false
  command : Command := .none
  coordinator : Coordinator := .idle
  /-- The stop commands that are complete. -/
  stops : ℕ := 0
deriving DecidableEq, Repr

namespace State

def alive (s : State) (pid : pid_t) : Bool := s.processes.any (·.pid = pid)

def become (s : State) (p : Process) : State :=
  { s with processes := s.processes.map fun q => if q.pid = p.pid then p else q }

def remove (s : State) (pid : pid_t) : State :=
  { s with processes := s.processes.filter (·.pid ≠ pid) }

/-- `SIGINT` ends a process that has no handler. -/
def interrupt (s : State) (pid : pid_t) : State :=
  let survivors := s.processes.filter fun p => p.pid ≠ pid ∨ p.handlers
  { s with processes := survivors.map fun p =>
      if p.pid = pid then { p with clean_exit_requested := true } else p }

/-- The pid in the file. -/
def pidRead (s : State) : Option pid_t := s.pidFile.bind (·.contents)

end State

/-! ## The steps of a daemon -/

inductive DaemonStep where
  | fork
  | kpatch
  | open_pid (fails : Bool)
  | write_pid (fails : Bool)
  | fail
  | setup_routing (fails : Bool)
  | announce (fails : Bool)
  | install_handlers
  | leave (gaveUp : Bool)
  | unlink_pid
  | unlink_ready
  | exit
  /-- It dies without a cleanup. -/
  | crash
deriving DecidableEq, Repr

/-- `fopen` empties the file that is there, or makes one. -/
def openPid (s : State) : ℕ × State :=
  match s.pidFile with
  | some file => (file.inode, { s with pidFile := some { file with contents := none } })
  | none => (s.inodes, { s with
      pidFile := some ⟨s.inodes, none⟩
      inodes := s.inodes + 1 })

/-- The file that was opened may be gone from the directory. -/
def writePid (inode : ℕ) (pid : pid_t) (s : State) : State :=
  match s.pidFile with
  | some file => if file.inode = inode then { s with pidFile := some ⟨inode, some pid⟩ } else s
  | none => s

def advance (s : State) (p : Process) (step : DaemonStep) : State :=
  match p.phase, step with
  | .arguments, .fork => s.become { p with phase := .detached }
  | .detached, .kpatch => s.become { p with phase := .patched }
  | .patched, .open_pid fails =>
    if fails then s.become { p with phase := .connecting }
    else (openPid s).2.become { p with phase := .opened (openPid s).1 }
  | .opened inode, .write_pid fails =>
    (if fails then s else writePid inode p.pid s).become { p with phase := .connecting }
  | .connecting, .fail => s.become { p with phase := .cleaning }
  | .connecting, .setup_routing fails =>
    s.become { p with
      phase := if fails then .cleaning else .routed
      routing := some s.stops }
  | .routed, .announce fails =>
    (if fails then s else { s with ready := true }).become { p with phase := .announced }
  | .announced, .install_handlers => s.become { p with phase := .looping, handlers := true }
  | .looping, .leave gaveUp =>
    if gaveUp ∨ p.clean_exit_requested then s.become { p with phase := .cleaning } else s
  | .cleaning, .unlink_pid => { s with pidFile := none }.become { p with phase := .unlinked }
  | .unlinked, .unlink_ready => { s with ready := false }.become { p with phase := .restoring }
  | .restoring, .exit => s.remove p.pid
  | _, .crash => s.remove p.pid
  | _, _ => s

/-! ## The commands -/

/-- The next route, or the stop after the last. -/
def tryRoutes (routes : ℕ) (s : State) : State :=
  match routes with
  | 0 => { s with coordinator := .lastStop, command := .reading }
  | rest + 1 => { s with coordinator := .stopping rest, command := .reading }

/-- The stop has returned. -/
def stopped (s : State) : State :=
  match s.coordinator with
  | .stopping rest => { s with coordinator := .starting rest, command := .none }
  | .disabling _ => { s with command := .netcheck }
  | _ => { s with coordinator := .idle, command := .none }

/-- One step of `cmd_stop`. -/
def cmd_stop (s : State) : State :=
  match s.command with
  | .reading =>
    match s.pidRead with
    | some pid => { s with command := if 0 < pid then .signalling pid else .restoring }
    | none => { s with command := .restoring }
  | .signalling pid =>
    if s.alive pid then { s.interrupt pid with command := .polling pid 0 }
    else { s with command := .restoring }
  | .polling pid polls =>
    if s.alive pid then
      { s with command := if polls + 1 < 20 then .polling pid (polls + 1) else .killing pid }
    else { s with command := .restoring }
  | .killing pid => { s.remove pid with command := .restoring }
  | .restoring => { s with ready := false, command := .unlinking }
  | .unlinking => stopped { s with pidFile := none, stops := s.stops + 1 }
  | _ => s

def TGNekroExitUnsupportedOS : ℕ := 99

/-- `warp-tunnel` has returned. -/
def tunnelReturned (up : ℕ) (s : State) : State :=
  match s.coordinator with
  | .starting rest =>
    if up = TGNekroExitUnsupportedOS then { s with coordinator := .idle, command := .none }
    else if up ≠ 0 then tryRoutes rest s
    else { s with coordinator := .waiting rest 0 false, command := .netcheck }
  | _ => { s with coordinator := .idle, command := .none }

/-- One turn of `waitForDataThroughEndpoint:` that found no data. -/
def waitForData (rest downSamples : ℕ) (failing : Bool) (net : ℕ) (graceOver startupOver : Bool)
    (s : State) : State :=
  let again (downSamples : ℕ) (failing : Bool) : State :=
    if startupOver then tryRoutes rest s
    else { s with coordinator := .waiting rest downSamples failing, command := .netcheck }
  if net = 3 then again 0 false
  else if net = 1 then
    if failing ∧ graceOver then tryRoutes rest s else again downSamples true
  else if downSamples + 1 ≥ 2 then tryRoutes rest s else again (downSamples + 1) failing

/-- `netcheck` has returned. -/
def netchecked (net : ℕ) (graceOver startupOver : Bool) (s : State) : State :=
  match s.coordinator with
  | .checking routes =>
    if net = 0 then { s with coordinator := .idle, command := .none } else tryRoutes routes s
  | .waiting rest downSamples failing =>
    if net = 0 then { s with coordinator := .idle, command := .none }
    else waitForData rest downSamples failing net graceOver startupOver s
  | .disabling retried =>
    if net = 0 ∧ ¬retried then { s with coordinator := .disabling true, command := .reading }
    else { s with coordinator := .idle, command := .none }
  | _ => { s with coordinator := .idle, command := .none }

/-- One step of `cmd_netcheck`. -/
def cmd_netcheck (probe graceOver startupOver : Bool) (s : State) : State :=
  match s.command with
  | .netcheck =>
    match s.pidRead with
    | some pid => { s with command := .netcheckAlive pid }
    | none => netchecked 2 graceOver startupOver s
  | .netcheckAlive pid =>
    if s.alive pid then { s with command := .netcheckReady }
    else netchecked 2 graceOver startupOver s
  | .netcheckReady =>
    if s.ready then { s with command := .netcheckProbe }
    else netchecked 3 graceOver startupOver s
  | .netcheckProbe => netchecked (if probe then 0 else 1) graceOver startupOver s
  | _ => s

/-! ## The whole -/

inductive Event where
  | enable (routes : ℕ)
  /-- Of the supervisor, of `refreshState` and of the start of the program. -/
  | check (routes : ℕ)
  | disable
  /-- The program with the coordinator is started anew. -/
  | relaunch
  | stop
  /-- The helper returns before it stops anything. -/
  | stopRefused
  | spawn (pid : pid_t)
  | returned (up : ℕ)
  | netcheck (probe graceOver startupOver : Bool)
  | daemon (pid : pid_t) (step : DaemonStep)
deriving DecidableEq, Repr

/-- A block of the queue can begin. -/
def State.Free (s : State) : Prop := s.coordinator = .idle ∧ s.command = .none

instance (s : State) : Decidable s.Free := inferInstanceAs (Decidable (_ ∧ _))

def warpTunnel (pid : pid_t) (s : State) : State :=
  match s.coordinator, s.command with
  | .starting _, .none =>
    if 0 < pid ∧ ¬s.alive pid then
      { s with
        processes := s.processes ++ [{ pid := pid, born := s.stops }]
        command := .spawning pid }
    else s
  | _, _ => s

/-- An event that cannot happen leaves the state as it is. -/
def step (s : State) : Event → State
  | .enable routes => if s.Free then tryRoutes routes s else s
  | .check routes =>
    if s.Free then { s with coordinator := .checking routes, command := .netcheck } else s
  | .disable =>
    if s.Free then { s with coordinator := .disabling false, command := .reading } else s
  | .relaunch => { s with coordinator := .idle }
  | .stop => cmd_stop s
  | .stopRefused =>
    if s.command = .reading then
      match s.coordinator with
      | .disabling _ => { s with command := .netcheck }
      | _ => { s with coordinator := .idle, command := .none }
    else s
  | .spawn pid => warpTunnel pid s
  | .returned up =>
    match s.command with
    | .spawning pid =>
      -- the bridge waits until the daemon has let go of its output
      if s.processes.all fun p => p.pid ≠ pid ∨ p.phase ≠ .arguments then tunnelReturned up s else s
    | _ => s
  | .netcheck probe graceOver startupOver => cmd_netcheck probe graceOver startupOver s
  | .daemon pid daemonStep =>
    match s.processes.find? (·.pid = pid) with
    | some p => advance s p daemonStep
    | none => s

end TunnelDaemon

end Onegram
