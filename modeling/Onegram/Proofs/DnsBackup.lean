import Onegram.Lib.Run
import Onegram.DynamicStore

/-!
# What the name servers get back

There is one place for a saved dictionary and none for the service it is of, so what comes back
depends on the calls before and on the service that is primary at the end. The calls are kept the
latest first.
-/

namespace Onegram

namespace NekroWarp

open Run

/-! ## Runs -/

/-- A call, or `configd` publishing another state. -/
inductive DnsEvent where
  | setDns (dns_servers_csv : String)
  | configd (state : Option CFDictionary)
deriving DecidableEq, Repr

def DnsEvent.apply (store : SCStore) : DnsEvent → SCStore
  | .setDns csv => nw_scope_set_dns csv store
  | .configd none => store.removeValue (.globalIPv4 .State)
  | .configd (some state) => store.setValue (.globalIPv4 .State) state

structure Call where
  primary : Option String
  dns : CFDictionary
deriving DecidableEq, Repr

/-- The store, and the calls so far. -/
def traced (s : SCStore × List Call) (e : DnsEvent) : SCStore × List Call :=
  (e.apply s.1, match e with
    | .setDns csv => ⟨primaryService s.1, dnsDictionary csv⟩ :: s.2
    | .configd _ => s.2)

def callsOf (store : SCStore) (events : List DnsEvent) : List Call :=
  (run traced (store, []) events).2

theorem run_traced_store : ∀ (events : List DnsEvent) (s : SCStore × List Call),
    (run traced s events).1 = run DnsEvent.apply s.1 events
  | [], _ => rfl
  | e :: events, s => run_traced_store events (traced s e)

/-! ## Key by key -/

section

variable {store : SCStore}

theorem set_dns_global (csv : String) :
    nw_scope_set_dns csv store .globalDNS = some (dnsDictionary csv) := by
  unfold nw_scope_set_dns SCStore.setValue
  simp [Function.update]

theorem set_dns_service (csv service : String) :
    nw_scope_set_dns csv store (.serviceDNS service)
      = if primaryService store = some service then some (dnsDictionary csv)
        else store (.serviceDNS service) := by
  unfold nw_scope_set_dns SCStore.setValue
  rcases primaryService store with _ | p <;> rcases h : store .globalDNS with _ | d <;>
    simp [Function.update, h, eq_comm]

theorem set_dns_backup (csv : String) :
    nw_scope_set_dns csv store .backup
      = match primaryService store with
        | none => store .backup
        | some service => some ((store (.serviceDNS service)).getD .empty) := by
  unfold nw_scope_set_dns SCStore.setValue
  rcases primaryService store with _ | p <;> rcases h : store .globalDNS with _ | d <;>
    simp [Function.update, h]

theorem set_dns_backupGlobal (csv : String) :
    nw_scope_set_dns csv store .backupGlobal
      = (store .globalDNS).or (store .backupGlobal) := by
  unfold nw_scope_set_dns SCStore.setValue
  rcases primaryService store with _ | p <;> rcases h : store .globalDNS with _ | d <;>
    simp [Function.update, h]

/-- An empty dictionary stands for none. -/
def putBack (d : CFDictionary) : Option CFDictionary := if 0 < d.count then some d else none

theorem restore_dns_global : nw_scope_restore_dns store .globalDNS = store .backupGlobal := by
  unfold nw_scope_restore_dns SCStore.setValue SCStore.removeValue
  rcases primaryService store with _ | p <;> rcases store .backup with _ | d <;>
    rcases h : store .backupGlobal with _ | g <;> simp [Function.update, h]
  all_goals
    by_cases hd : 0 < d.count <;> simp [hd, h]

theorem restore_dns_service (service : String) :
    nw_scope_restore_dns store (.serviceDNS service)
      = if primaryService store = some service then
          match store .backup with
          | none => store (.serviceDNS service)
          | some d => putBack d
        else store (.serviceDNS service) := by
  unfold nw_scope_restore_dns SCStore.setValue SCStore.removeValue putBack
  rcases primaryService store with _ | p
  · rcases h : store .backupGlobal with _ | g <;> simp [Function.update, h]
  rcases store .backup with _ | d
  · rcases h : store .backupGlobal with _ | g <;> simp [Function.update, h]
  by_cases hp : service = p <;> by_cases hd : 0 < d.count <;>
    rcases h : store .backupGlobal with _ | g <;> simp [Function.update, h, hd, hp, eq_comm]

/-! ## What the calls leave -/

variable (store) in
/-- The entry of a service after the calls. -/
def serviceAfter : List Call → String → Option CFDictionary
  | [], service => store (.serviceDNS service)
  | c :: calls, service =>
    if c.primary = some service then some c.dns else serviceAfter calls service

variable (store) in
def globalAfter : List Call → Option CFDictionary
  | [] => store .globalDNS
  | c :: _ => some c.dns

variable (store) in
def backupAfter : List Call → Option CFDictionary
  | [] => store .backup
  | c :: calls =>
    match c.primary with
    | none => backupAfter calls
    | some service => some ((serviceAfter store calls service).getD .empty)

variable (store) in
def backupGlobalAfter : List Call → Option CFDictionary
  | [] => store .backupGlobal
  | _ :: calls => (globalAfter store calls).or (backupGlobalAfter calls)

variable (store) in
structure After (s : SCStore × List Call) : Prop where
  service : ∀ service, s.1 (.serviceDNS service) = serviceAfter store s.2 service
  global : s.1 .globalDNS = globalAfter store s.2
  backup : s.1 .backup = backupAfter store s.2
  backupGlobal : s.1 .backupGlobal = backupGlobalAfter store s.2

theorem After.step {s : SCStore × List Call} (h : After store s) (e : DnsEvent) :
    After store (traced s e) := by
  obtain ⟨t, calls⟩ := s
  have hservice : ∀ service, t (.serviceDNS service) = serviceAfter store calls service := h.service
  have hglobal : t .globalDNS = globalAfter store calls := h.global
  have hbackup : t .backupGlobal = backupGlobalAfter store calls := h.backupGlobal
  cases e with
  | setDns csv =>
    constructor
    · intro service
      change nw_scope_set_dns csv t (.serviceDNS service) = _
      rw [set_dns_service, hservice]
      rfl
    · change nw_scope_set_dns csv t .globalDNS = _
      exact set_dns_global csv
    · change nw_scope_set_dns csv t .backup = _
      rw [set_dns_backup]
      change _ = match primaryService t with
        | none => backupAfter store calls
        | some service => some ((serviceAfter store calls service).getD .empty)
      rcases primaryService t with _ | service
      · exact h.backup
      · exact congrArg (fun d => some (d.getD .empty)) (hservice service)
    · change nw_scope_set_dns csv t .backupGlobal = _
      rw [set_dns_backupGlobal, hglobal, hbackup]
      rfl
  | configd state =>
    have hkey : ∀ key, key ≠ .globalIPv4 .State → (DnsEvent.configd state).apply t key = t key := by
      intro key hkey
      cases state with
      | none => exact Function.update_of_ne hkey _ _
      | some d => exact Function.update_of_ne hkey _ _
    exact ⟨fun service => (hkey _ (by simp)).trans (h.service service),
      (hkey _ (by simp)).trans h.global, (hkey _ (by simp)).trans h.backup,
      (hkey _ (by simp)).trans h.backupGlobal⟩

theorem after_run (events : List DnsEvent) : After store (run traced (store, []) events) :=
  invariant (fun _ e h _ => h.step e) events ⟨fun _ => rfl, rfl, rfl, rfl⟩
    (allSteps_of_forall (P := fun _ => True) _ events _ fun _ _ => trivial)

/-! ## The restore -/

def SCKey.isDns : SCKey → Prop
  | .globalDNS | .serviceDNS _ => True
  | _ => False

variable (store) in
/-- The entry for all: what the last call saved is what was there in the beginning. -/
def GlobalKept : List Call → Prop
  | [] => store .backupGlobal = store .globalDNS
  | [_] => store .globalDNS ≠ none ∨ store .backupGlobal = none
  | _ :: c :: _ => store .globalDNS = some c.dns

variable (store) in
/-- The entry of the service that is primary at the end: the last call with a primary service saved
what was there in the beginning, or there was none and no old backup of another value either. -/
def PrimaryKept : List Call → String → Prop
  | [], primary => ∀ d, store .backup = some d → putBack d = store (.serviceDNS primary)
  | c :: calls, primary =>
    match c.primary with
    | none => PrimaryKept calls primary
    | some service =>
      putBack ((serviceAfter store calls service).getD .empty) = store (.serviceDNS primary)

variable (store) in
/-- The entry of any other service: the last call it was primary at wrote what was there in the
beginning. -/
def OtherKept (calls : List Call) (service : String) : Prop :=
  ∀ c, calls.find? (·.primary = some service) = some c → some c.dns = store (.serviceDNS service)

theorem globalKept_iff (calls : List Call) :
    backupGlobalAfter store calls = store .globalDNS ↔ GlobalKept store calls := by
  rcases calls with _ | ⟨c, _ | ⟨c', calls⟩⟩
  · rfl
  · change (store .globalDNS).or (store .backupGlobal) = store .globalDNS ↔ _
    rcases hglobal : store .globalDNS with _ | d
    · simp [GlobalKept, hglobal]
    · simp [GlobalKept, hglobal]
  · change some c'.dns = store .globalDNS ↔ store .globalDNS = some c'.dns
    exact eq_comm

theorem otherKept_iff (service : String) : ∀ calls : List Call,
    serviceAfter store calls service = store (.serviceDNS service) ↔ OtherKept store calls service
  | [] => by simp [serviceAfter, OtherKept]
  | c :: calls => by
    unfold serviceAfter OtherKept
    by_cases hc : c.primary = some service
    · rw [if_pos hc, List.find?_cons_of_pos (by simpa using hc)]
      simp
    · rw [if_neg hc, List.find?_cons_of_neg (by simpa using hc)]
      exact otherKept_iff service calls

theorem primaryKept_iff (primary : String) : ∀ calls : List Call,
    (match backupAfter store calls with
      | none => serviceAfter store calls primary
      | some d => putBack d) = store (.serviceDNS primary) ↔ PrimaryKept store calls primary
  | [] => by
    unfold backupAfter PrimaryKept serviceAfter
    rcases store .backup with _ | d <;> simp
  | c :: calls => by
    unfold backupAfter PrimaryKept serviceAfter
    rcases hc : c.primary with _ | service
    · simp only [reduceCtorEq, if_false]
      exact primaryKept_iff primary calls
    · rfl

/-- Every entry for name servers is as it was exactly where the calls and the service that is
primary at the end fit together. -/
theorem dns_restored_iff (store : SCStore) (events : List DnsEvent) :
    (∀ key : SCKey, key.isDns →
        nw_scope_restore_dns (run DnsEvent.apply store events) key = store key)
      ↔ GlobalKept store (callsOf store events)
        ∧ ∀ service,
          if primaryService (run DnsEvent.apply store events) = some service then
            PrimaryKept store (callsOf store events) service
          else OtherKept store (callsOf store events) service := by
  have hafter : After store (run traced (store, []) events) := after_run events
  have hstore := run_traced_store events (store, [])
  obtain ⟨hservice, -, hbackup, hglobal⟩ := hafter
  rw [hstore] at hservice hbackup hglobal
  have hentry : ∀ service,
      nw_scope_restore_dns (run DnsEvent.apply store events) (.serviceDNS service)
          = store (.serviceDNS service)
        ↔ if primaryService (run DnsEvent.apply store events) = some service then
            PrimaryKept store (callsOf store events) service
          else OtherKept store (callsOf store events) service := by
    intro service
    rw [restore_dns_service, hbackup, hservice]
    split_ifs
    · exact primaryKept_iff service _
    · exact otherKept_iff service _
  have hall : nw_scope_restore_dns (run DnsEvent.apply store events) .globalDNS = store .globalDNS
      ↔ GlobalKept store (callsOf store events) := by
    rw [restore_dns_global, hglobal]
    exact globalKept_iff _
  constructor
  · intro h
    exact ⟨hall.mp (h .globalDNS trivial), fun service => (hentry service).mp (h _ trivial)⟩
  · rintro ⟨hg, hs⟩ key hkey
    cases key with
    | globalDNS => exact hall.mpr hg
    | serviceDNS service => exact (hentry service).mpr (hs service)
    | _ => exact hkey.elim

end

/-- Wi-Fi is primary and has its own name server. -/
def wifiStore : SCStore
  | .globalIPv4 .State => some { PrimaryService := some "15A2A2BD-DFCE-49D4-8F90-BC49E2397041" }
  | .globalDNS => some { properties := [("ServerAddresses", .array ["192.168.1.1"])] }
  | .serviceDNS "15A2A2BD-DFCE-49D4-8F90-BC49E2397041" =>
    some { properties := [("ServerAddresses", .array ["192.168.1.1"])] }
  | _ => none

/-- The tunnel sets its name servers and then becomes primary; at the restore it still is. -/
theorem wifiStore_not_restored :
    nw_scope_restore_dns (run DnsEvent.apply wifiStore [.setDns "1.1.1.1",
        .configd (some { PrimaryService := some NW_SERVICE_ID })])
        (.serviceDNS "15A2A2BD-DFCE-49D4-8F90-BC49E2397041")
      = some { properties := [("ServerAddresses", .array ["1.1.1.1"])] }
    ∧ wifiStore (.serviceDNS "15A2A2BD-DFCE-49D4-8F90-BC49E2397041")
      ≠ some { properties := [("ServerAddresses", .array ["1.1.1.1"])] } := by
  decide +kernel

end NekroWarp

end Onegram
