import Onegram.Proofs.Routing

/-!
# What the stop gives back

`force_restore_routing` knows the default route, the resolver's file and the scoped-route setting,
each through a file of its own. It does not know the route to the endpoint, the split networks or
the store, so a daemon that is killed before it takes them back leaves them.
-/

namespace Onegram

namespace NekroWarp

open FallibleTable (erase)

/-! ## Sessions with the store -/

/-- The store after the writes of a session. -/
def written (writes : List (SCKey × Option CFDictionary)) (store : SCStore) : SCStore :=
  writes.foldl (fun store w => Function.update store w.1 w.2) store

theorem makeAll_store : ∀ (writes : List (SCKey × Option CFDictionary)) (d : Daemon),
    (d.makeAll (writes.map fun w => .store w.1 w.2)).system
      = { d.system with store := written writes d.system.store }
  | [], _ => rfl
  | w :: writes, d => makeAll_store writes (d.make (.store w.1 w.2))

theorem scope_system (writes : SCStore → List (SCKey × Option CFDictionary)) (d : Daemon) :
    (d.scope false writes).system
      = { d.system with store := written (writes d.system.store) d.system.store } :=
  makeAll_store (writes d.system.store) d

theorem written_setPrimary (ifname addr router : String) (store : SCStore) :
    written (setPrimaryWrites ifname addr router store) store
      = nw_scope_set_primary ifname addr router store := by
  unfold setPrimaryWrites nw_scope_set_primary written SCStore.setValue SCStore.removeValue
  simp

theorem written_restore (store : SCStore) :
    written (restoreWrites store) store = nw_scope_restore store := by
  unfold restoreWrites nw_scope_restore written SCStore.setValue SCStore.removeValue
  rcases hsetup : store (.globalIPv4 .Setup) with _ | setup <;> simp [hsetup]

theorem written_setDns (csv : String) (store : SCStore) :
    written (setDnsWrites csv store) store = nw_scope_set_dns csv store := by
  unfold setDnsWrites nw_scope_set_dns written SCStore.setValue
  rcases primaryService store with _ | service <;> rcases hglobal : store .globalDNS with _ | d
    <;> simp [hglobal]

theorem written_restoreDns (store : SCStore) :
    written (restoreDnsWrites store) store = nw_scope_restore_dns store := by
  unfold restoreDnsWrites nw_scope_restore_dns written SCStore.setValue SCStore.removeValue
  rcases primaryService store with _ | service <;> rcases store .backup with _ | orig_dns
    <;> rcases hglobal : store .backupGlobal with _ | d
  case some.some.none | some.some.some =>
    by_cases hcount : 0 < orig_dns.count <;> simp [hglobal, hcount]
  all_goals simp [hglobal]

/-! ## What the log is -/

/-- A route the daemon touches. -/
def OwnKey (o : Outcomes) (c : Config) (key : RouteKey) : Prop :=
  key = endpointKey o c ∨ key = defaultKey ∨ ∃ r ∈ c.split_routes, key = networkKey r

def Change.Own (o : Outcomes) (c : Config) : Change → Prop
  | .route key _ => OwnKey o c key
  | _ => True

/-- The log of a daemon that started at `s` is what it has done. -/
structure Traced (o : Outcomes) (c : Config) (s : System) (d : Daemon) : Prop where
  log : d.log.foldl Change.apply s = d.system
  own : ∀ ch ∈ d.log, ch.Own o c
  place : d.host_route_added = true → hostKey d.warp_ep_ip d.wifi_ifindex = endpointKey o c

namespace Traced

variable {o : Outcomes} {c : Config} {s : System} {d : Daemon}

theorem make {ch : Change} (h : Traced o c s d) (hown : ch.Own o c) : Traced o c s (d.make ch) where
  log := by
    unfold Daemon.make
    rw [List.foldl_append, h.log]
    rfl
  own ch' hmem := by
    rcases List.mem_append.mp hmem with hmem | hmem
    · exact h.own ch' hmem
    · rwa [List.mem_singleton.mp hmem]
  place := h.place

theorem makeAll : ∀ (cs : List Change) {d : Daemon}, Traced o c s d → (∀ ch ∈ cs, ch.Own o c) →
    Traced o c s (d.makeAll cs)
  | [], _, h, _ => h
  | ch :: cs, _, h, hown => makeAll cs (h.make (hown ch List.mem_cons_self))
      fun ch' hmem => hown ch' (List.mem_cons_of_mem _ hmem)

theorem scope (fails : Bool) (writes : SCStore → List (SCKey × Option CFDictionary))
    (h : Traced o c s d) : Traced o c s (d.scope fails writes) := by
  unfold Daemon.scope
  split_ifs
  · exact h
  · refine h.makeAll _ fun ch hmem => ?_
    obtain ⟨w, -, rfl⟩ := List.mem_map.mp hmem
    trivial

theorem writeFile {α : Type} (fails : Bool) {file : Option α → Change} (contents : α)
    (h : Traced o c s d) (hown : ∀ v, (file v).Own o c) :
    Traced o c s (d.writeFile fails file contents) := by
  unfold Daemon.writeFile
  split_ifs
  · exact h
  · exact (h.make (hown _)).make (hown _)

theorem write_resolv_conf (fails : Bool) (dns_list : Text) (h : Traced o c s d) :
    Traced o c s (write_resolv_conf fails dns_list d) := by
  have hempty : Traced o c s (d.make (.resolv_conf (some []))) := h.make trivial
  unfold NekroWarp.write_resolv_conf
  split_ifs
  · exact h
  · exact hempty.make trivial

theorem unlink_resolv_conf (fails : Bool) (h : Traced o c s d) :
    Traced o c s (unlink_resolv_conf fails d) := by
  unfold NekroWarp.unlink_resolv_conf
  split_ifs
  · exact h
  · exact h.make trivial

/-! ### Routes -/

theorem answer (fails : Bool) (op : RouteOp) {key : RouteKey} (route : Route)
    (h : Traced o c s d) (hown : OwnKey o c key) :
    Traced o c s (route_answer fails op key route d).2 := by
  unfold route_answer
  cases op <;> simp only [] <;> split_ifs <;> first | exact h | exact h.make hown

theorem add_host (fails : Bool) (dst gateway : in_addr) (ifindex : ℕ) (h : Traced o c s d)
    (hkey : hostKey dst ifindex = endpointKey o c) :
    Traced o c s (nw_route_add_host fails dst gateway ifindex d).2 := by
  unfold nw_route_add_host nw_route_send
  rw [routeKey_host]
  exact h.answer _ _ _ (.inl hkey)

theorem delete_host (fails : Bool) (dst gateway : in_addr) (ifindex : ℕ) (h : Traced o c s d)
    (hkey : hostKey dst ifindex = endpointKey o c) :
    Traced o c s (nw_route_delete_host fails dst gateway ifindex d).2 := by
  unfold nw_route_delete_host nw_route_send
  rw [routeKey_host]
  exact h.answer _ _ _ (.inl hkey)

theorem add_network (fails : Bool) (dst mask gateway : in_addr) (mtu : Int) (h : Traced o c s d)
    (hown : OwnKey o c (networkKey (dst, mask))) :
    Traced o c s (nw_route_add_network fails dst mask gateway mtu d).2 := by
  unfold nw_route_add_network nw_route_send
  rw [routeKey_network]
  exact h.answer _ _ _ hown

theorem delete_network (fails : Bool) (dst mask gateway : in_addr) (h : Traced o c s d)
    (hown : OwnKey o c (networkKey (dst, mask))) :
    Traced o c s (nw_route_delete_network fails dst mask gateway d).2 := by
  unfold nw_route_delete_network nw_route_send
  rw [routeKey_network]
  exact h.answer _ _ _ hown

theorem add_default (fails : Bool) (gateway : in_addr) (mtu : Int) (h : Traced o c s d) :
    Traced o c s (nw_route_add_default fails gateway mtu d).2 :=
  h.add_network fails 0 0 gateway mtu (.inr (.inl rfl))

theorem delete_default (fails : Bool) (gateway : in_addr) (h : Traced o c s d) :
    Traced o c s (nw_route_delete_default fails gateway d).2 :=
  h.delete_network fails 0 0 gateway (.inr (.inl rfl))

/-! ### The cleanup -/

theorem delete_split_routes : ∀ (i : ℕ) (routes : List (in_addr × in_addr)) {d : Daemon},
    (∀ r ∈ routes, r ∈ c.split_routes) → Traced o c s d →
      Traced o c s (delete_split_routes o i routes d)
  | _, [], _, _, h => h
  | i, (network, mask) :: rest, d, hroutes, h => by
    have hrest : ∀ r ∈ rest, r ∈ c.split_routes := fun r hr =>
      hroutes r (List.mem_cons_of_mem _ hr)
    have hdelete := h.delete_network (o.fails (.cleanupSplitRoute i)) network mask d.warp_gw
      (.inr (.inr ⟨_, hroutes _ List.mem_cons_self, rfl⟩))
    unfold NekroWarp.delete_split_routes
    split_ifs
    · exact delete_split_routes (i + 1) rest hrest ⟨hdelete.log, hdelete.own, hdelete.place⟩
    · exact delete_split_routes (i + 1) rest hrest h

theorem cleanup_dns (h : Traced o c s d) : Traced o c s (cleanup_dns o d) := by
  unfold NekroWarp.cleanup_dns
  simp only []
  split_ifs
  · exact (h.scope _ _).write_resolv_conf _ _
  · exact (h.scope _ _).unlink_resolv_conf _
  · exact h

theorem cleanup_default (h : Traced o c s d) : Traced o c s (cleanup_default o d) := by
  unfold NekroWarp.cleanup_default
  split_ifs
  · exact (h.delete_default _ _).add_default _ _ _
  · exact h

theorem cleanup_host (h : Traced o c s d) : Traced o c s (cleanup_host o d) := by
  unfold NekroWarp.cleanup_host
  split_ifs with hadded
  · exact h.delete_host _ _ _ _ (h.place hadded)
  · exact h

theorem cleanup_primary (h : Traced o c s d) : Traced o c s (cleanup_primary o d) := by
  have hscope := h.scope (o.fails .cleanupPrimary) restoreWrites
  unfold NekroWarp.cleanup_primary
  split_ifs
  · exact ⟨hscope.log, hscope.own, hscope.place⟩
  · exact h

theorem cleanup_scopedroute (h : Traced o c s d) : Traced o c s (cleanup_scopedroute o d) := by
  have hvalue : Traced o c s (d.make (.scopedroute d.scopedroute_old)) := h.make trivial
  have hwritten : Traced o c s ((d.make (.scopedroute d.scopedroute_old)).make
    (.scopedroute_old none)) := hvalue.make trivial
  have hfailed : Traced o c s (d.make (.scopedroute_old none)) := h.make trivial
  unfold NekroWarp.cleanup_scopedroute
  simp only []
  split_ifs
  · exact ⟨hfailed.log, hfailed.own, hfailed.place⟩
  · exact ⟨hwritten.log, hwritten.own, hwritten.place⟩
  · exact h

theorem cleanup (h : Traced o c s d) : Traced o c s (cleanup o c d) := by
  unfold NekroWarp.cleanup
  split_ifs
  · exact h
  · have hstart : Traced o c s { d with cleanup_done := true } := ⟨h.log, h.own, h.place⟩
    exact (hstart.cleanup_dns.cleanup_default.delete_split_routes 0 c.split_routes
      fun _ hr => hr).cleanup_host.cleanup_primary.cleanup_scopedroute

/-! ### Setting up -/

theorem add_split_routes (mtu : Int) : ∀ (i : ℕ) (routes : List (in_addr × in_addr)) {d : Daemon},
    (∀ r ∈ routes, r ∈ c.split_routes) → Traced o c s d →
      Traced o c s (add_split_routes o c mtu i routes d).2
  | _, [], _, _, h => h
  | i, (network, mask) :: rest, d, hroutes, h => by
    have hrest : ∀ r ∈ rest, r ∈ c.split_routes := fun r hr =>
      hroutes r (List.mem_cons_of_mem _ hr)
    have hadd := h.add_network (o.fails (.splitRoute i)) network mask d.warp_gw mtu
      (.inr (.inr ⟨_, hroutes _ List.mem_cons_self, rfl⟩))
    unfold NekroWarp.add_split_routes
    simp only []
    split_ifs
    · exact hadd.cleanup
    · exact add_split_routes mtu (i + 1) rest hrest ⟨hadd.log, hadd.own, hadd.place⟩

theorem publish_primary (h : Traced o c s d) : Traced o c s (publish_primary o c d) := by
  have hscope := h.scope false
    (setPrimaryWrites c.active_ifname c.client_ip (inet_ntoa d.warp_gw))
  unfold NekroWarp.publish_primary
  split_ifs
  · exact h
  · exact h
  · exact ⟨hscope.log, hscope.own, hscope.place⟩

theorem replace_default (mtu : Int) (h : Traced o c s d) :
    Traced o c s (replace_default o c mtu d).2 := by
  have hdelete := h.delete_default (o.fails .deleteDefault) d.orig_gw
  unfold NekroWarp.replace_default
  rcases hanswer : nw_route_delete_default (o.fails .deleteDefault) d.orig_gw d with ⟨err, d₁⟩
  rw [hanswer] at hdelete
  have hreplaced : Traced o c s { d₁ with default_route_replaced := true } :=
    ⟨hdelete.log, hdelete.own, hdelete.place⟩
  have hadd := hreplaced.add_default (o.fails .addDefault) d₁.warp_gw mtu
  simp only []
  split_ifs
  · exact hdelete.cleanup
  · exact hadd.cleanup
  · exact hadd

theorem add_full_routes (mtu : Int) (h : Traced o c s d)
    (hplace : hostKey d.warp_ep_ip d.wifi_ifindex = endpointKey o c) :
    Traced o c s (add_full_routes o c mtu d).2 := by
  have hadd := h.add_host (o.fails .host) d.warp_ep_ip d.orig_gw d.wifi_ifindex hplace
  have hrouting := (NekroWarp.add_host (o.fails .host) d d.warp_ep_ip d.orig_gw
    d.wifi_ifindex).routing
  unfold NekroWarp.add_full_routes
  rcases hanswer : nw_route_add_host (o.fails .host) d.warp_ep_ip d.orig_gw d.wifi_ifindex d
    with ⟨err, d₁⟩
  rw [hanswer] at hadd hrouting
  have hadded : Traced o c s { d₁ with host_route_added := true } :=
    ⟨hadd.log, hadd.own, fun _ =>
      (congrArg (fun g => hostKey g.warp_ep_ip g.wifi_ifindex) hrouting).trans hplace⟩
  simp only []
  split_ifs
  · exact hadd
  · exact hadded.replace_default mtu
  · exact hadded

theorem prepare_routing (h : Traced o c s d) : Traced o c s (prepare_routing o c d) ∧
    hostKey (NekroWarp.prepare_routing o c d).warp_ep_ip
      (NekroWarp.prepare_routing o c d).wifi_ifindex = endpointKey o c := by
  -- the file is written between the two halves of the key
  have hfile : Traced o c s (d.writeFile (o.fails .origGwFile) .orig_gw d.orig_gw) :=
    h.writeFile _ _ fun _ => trivial
  have hindex : (Daemon.writeFile (o.fails .origGwFile) .orig_gw d.orig_gw
      { d with wifi_ifindex := o.ifindex }).wifi_ifindex = o.ifindex := by
    unfold Daemon.writeFile
    split_ifs <;> rfl
  have hplace : hostKey (NekroWarp.prepare_routing o c d).warp_ep_ip
      (NekroWarp.prepare_routing o c d).wifi_ifindex = endpointKey o c :=
    congrArg (hostKey c.endpoint_ip) hindex
  refine ⟨⟨?_, ?_, fun _ => hplace⟩, hplace⟩
  · have hlog := hfile.log
    unfold NekroWarp.prepare_routing
    unfold Daemon.writeFile at hlog ⊢
    split_ifs at hlog ⊢ <;> exact hlog
  · have hown := hfile.own
    unfold NekroWarp.prepare_routing
    unfold Daemon.writeFile at hown ⊢
    split_ifs at hown ⊢ <;> exact hown

theorem setup_routing (mtu : Int) (h : Traced o c s d) :
    Traced o c s (setup_routing o c mtu d).2 := by
  have hstart : Traced o c s
      { d with orig_gw := nw_route_get_default_gateway (o.dump d.system.routes) } :=
    ⟨h.log, h.own, h.place⟩
  obtain ⟨hprepared, hplace⟩ := hstart.prepare_routing
  unfold NekroWarp.setup_routing
  simp only []
  split_ifs
  · exact hstart
  · exact hprepared.add_split_routes mtu 0 c.split_routes fun _ hr => hr
  · have hrouting := (publish_primary_kept o c (NekroWarp.prepare_routing o c
      { d with orig_gw := nw_route_get_default_gateway (o.dump d.system.routes) })).routing
    exact hprepared.publish_primary.add_full_routes mtu
      ((congrArg (fun g => hostKey g.warp_ep_ip g.wifi_ifindex) hrouting).trans hplace)

theorem sysctl_scopedroute (h : Traced o c s d) : Traced o c s (sysctl_scopedroute o d).2 := by
  have hwritten : Traced o c s (d.make (.scopedroute 0)) := h.make trivial
  unfold NekroWarp.sysctl_scopedroute
  simp only []
  split_ifs
  · exact h
  · exact ⟨h.log, h.own, h.place⟩
  · exact ⟨h.log, h.own, h.place⟩
  · exact ⟨hwritten.log, hwritten.own, hwritten.place⟩

theorem kernel_scopedroute (h : Traced o c s d) : Traced o c s (kernel_scopedroute o d).2 := by
  have hwritten : Traced o c s (d.make (.scopedroute 0)) := h.make trivial
  unfold NekroWarp.kernel_scopedroute
  simp only []
  generalize (if o.fails .kernelRead then 1 else d.system.scopedroute : Int) = val
  split_ifs
  · exact h
  · exact ⟨h.log, h.own, h.place⟩
  · exact ⟨hwritten.log, hwritten.own, hwritten.place⟩

theorem disable_scopedroute (h : Traced o c s d) : Traced o c s (disable_scopedroute o d) := by
  have hfile : ∀ {d : Daemon}, Traced o c s d → Traced o c s
      (d.writeFile (o.fails .scopedrouteFile) .scopedroute_old d.scopedroute_old) :=
    fun h => h.writeFile _ _ fun _ => trivial
  unfold NekroWarp.disable_scopedroute
  simp only []
  split_ifs
  · exact hfile h.sysctl_scopedroute
  · exact h.sysctl_scopedroute
  · exact hfile h.sysctl_scopedroute.kernel_scopedroute
  · exact h.sysctl_scopedroute.kernel_scopedroute

theorem add_endpoint_route (h : Traced o c s d) : Traced o c s (add_endpoint_route o c d) := by
  have hplaced : Traced o c s { d with
      orig_gw := nw_route_get_default_gateway (o.dump d.system.routes)
      wifi_ifindex := o.ifindex
      warp_ep_ip := c.endpoint_ip } := ⟨h.log, h.own, fun _ => rfl⟩
  have hadd := hplaced.add_host (o.fails .preHandshakeHost) c.endpoint_ip
    (nw_route_get_default_gateway (o.dump d.system.routes)) o.ifindex rfl
  have hrouting := (NekroWarp.add_host (o.fails .preHandshakeHost) { d with
    orig_gw := nw_route_get_default_gateway (o.dump d.system.routes)
    wifi_ifindex := o.ifindex
    warp_ep_ip := c.endpoint_ip } c.endpoint_ip
    (nw_route_get_default_gateway (o.dump d.system.routes)) o.ifindex).routing
  unfold NekroWarp.add_endpoint_route
  simp only []
  split_ifs
  · exact ⟨hadd.log, hadd.own, fun _ =>
      congrArg (fun g => hostKey g.warp_ep_ip g.wifi_ifindex) hrouting⟩
  · exact hadd
  · exact hplaced

theorem set_dns_warp (h : Traced o c s d) : Traced o c s (set_dns_warp o c d) := by
  have hstart : Traced o c s { d with orig_dns := save_original_dns d.system.resolv_conf } :=
    ⟨h.log, h.own, h.place⟩
  have hfile : Traced o c s (Daemon.writeFile (o.fails .origDnsFile) .orig_dns
      ((save_original_dns d.system.resolv_conf).takeWhile (· ≠ '\r'))
      { d with orig_dns := save_original_dns d.system.resolv_conf }) :=
    hstart.writeFile _ _ fun _ => trivial
  have hscope := (hfile.write_resolv_conf (o.fails .resolvConf) c.dns_ip.toList).scope
    (o.fails .setDns) (setDnsWrites c.dns_ip)
  unfold NekroWarp.set_dns_warp
  exact ⟨hscope.log, hscope.own, hscope.place⟩

/-- The log of the whole command. -/
theorem cmd_warp_tunnel (o : Outcomes) (c : Config) (s : System) :
    Traced o c s (cmd_warp_tunnel o c s) := by
  have hstart : Traced o c s { system := s } := ⟨rfl, by simp, by simp⟩
  have hkpatch : Traced o c s
      (if c.kpatch then NekroWarp.disable_scopedroute o { system := s } else { system := s }) := by
    split_ifs
    · exact hstart.disable_scopedroute
    · exact hstart
  unfold NekroWarp.cmd_warp_tunnel
  simp only []
  generalize (if c.kpatch then NekroWarp.disable_scopedroute o { system := s }
    else { system := s } : Daemon) = d at hkpatch ⊢
  have hconnected := hkpatch.add_endpoint_route
  have hresolved : Traced o c s (if c.split_mode then NekroWarp.add_endpoint_route o c d
      else NekroWarp.set_dns_warp o c (NekroWarp.add_endpoint_route o c d)) := by
    split_ifs
    · exact hconnected
    · exact hconnected.set_dns_warp
  have hsetup := hresolved.setup_routing (if c.mtu ≤ 0 then 1280 else min c.mtu 1280)
  generalize NekroWarp.setup_routing o c _ _ = x at hsetup ⊢
  split_ifs
  · exact hkpatch.cleanup
  · exact hconnected.cleanup
  · exact hsetup.cleanup
  · exact hsetup

end Traced

/-! ## What a killed daemon leaves -/

section Stop

variable {o : Outcomes} {c : Config} {s t : System}

theorem Traced.handle_fatal {d : Daemon} (h : Traced o c s d) :
    Traced o c s (handle_fatal o d) := by
  unfold NekroWarp.handle_fatal
  split_ifs
  · exact h.make trivial
  · exact h

theorem foldl_routes {key : RouteKey} (hkey : ¬OwnKey o c key) : ∀ (cs : List Change) (s : System),
    (∀ ch ∈ cs, ch.Own o c) → (cs.foldl Change.apply s).routes key = s.routes key
  | [], _, _ => rfl
  | ch :: cs, s, h => by
    refine (foldl_routes hkey cs (ch.apply s) fun ch' hmem =>
      h ch' (List.mem_cons_of_mem _ hmem)).trans ?_
    have hown := h ch List.mem_cons_self
    cases ch with
    | route key' value =>
      refine Function.update_of_ne ?_ _ _
      rintro rfl
      exact hkey hown
    | _ => rfl

/-- The routes that are not the daemon's stay. -/
theorem killed_routes {key : RouteKey} (hkey : ¬OwnKey o c key) (changes : ℕ) :
    (killed o c s changes).routes key = s.routes key :=
  foldl_routes hkey _ s fun ch hmem =>
    (Traced.cmd_warp_tunnel o c s).own ch (List.mem_of_mem_take hmem)

theorem fatal_routes {key : RouteKey} (hkey : ¬OwnKey o c key) :
    (handle_fatal o (cmd_warp_tunnel o c s)).system.routes key = s.routes key := by
  have hfatal := (Traced.cmd_warp_tunnel o c s).handle_fatal
  rw [← hfatal.log]
  exact foldl_routes hkey _ s hfatal.own

theorem default6_not_own : ¬OwnKey o c .default6 := by
  rintro (h | h | ⟨r, -, h⟩) <;> cases h

/-! ## What the stop does -/

theorem answer_rest (fails : Bool) (op : RouteOp) (key : RouteKey) (route : Route) (d : Daemon) :
    (route_answer fails op key route d).2.system
      = { d.system with routes := (route_answer fails op key route d).2.system.routes } := by
  unfold route_answer
  cases op <;> simp only [] <;> split_ifs <;> rfl

/-- The gateway of the default route that the stop adds. -/
def savedGateway (o : Outcomes) (t : System) : Option in_addr :=
  t.orig_gw.or (o.wifi_ip.map firstOfNet)

/-- The routes before that: a default route through another gateway is removed. -/
def defaultLeft (o : Outcomes) (t : System) (gw_addr : in_addr) : RouteTable :=
  if nw_route_get_default_gateway (o.dump t.routes) ≠ INADDR_ANY
      ∧ nw_route_get_default_gateway (o.dump t.routes) ≠ gw_addr then
    erase (o.fails .stopDeleteDefault) defaultKey t.routes
  else t.routes

def defaultStopped (o : Outcomes) (t : System) (gw_addr : in_addr) : RouteTable :=
  FallibleTable.insert (o.fails .stopAddDefault) defaultKey (throughGateway gw_addr 0)
    (defaultLeft o t gw_addr)

theorem force_restore_default_spec {gw_addr : in_addr} {d : Daemon} (h : d.system.routes = t.routes) :
    (force_restore_default o gw_addr d).system
      = { d.system with routes := defaultStopped o t gw_addr } := by
  have hadd : ∀ d : Daemon, (nw_route_add_default (o.fails .stopAddDefault) gw_addr 0 d).2.system
      = { d.system with
        routes := FallibleTable.insert (o.fails .stopAddDefault) defaultKey
          (throughGateway gw_addr 0) d.system.routes } := fun d => by
    rw [← (add_default (o.fails .stopAddDefault) d gw_addr 0).routes]
    exact answer_rest _ _ _ _ _
  have hdelete : ∀ gw, (nw_route_delete_default (o.fails .stopDeleteDefault) gw d).2.system
      = { d.system with routes := erase (o.fails .stopDeleteDefault) defaultKey t.routes } :=
    fun gw => by
      rw [← h, ← (delete_default (o.fails .stopDeleteDefault) d gw).routes]
      exact answer_rest _ _ _ _ _
  unfold force_restore_default defaultStopped defaultLeft
  simp only []
  rw [h, hadd]
  split_ifs
  · rw [hdelete]
  · rw [h]

def routesStopped (o : Outcomes) (t : System) : RouteTable :=
  erase (o.fails .stopDelete6) .default6 (match savedGateway o t with
    | none => t.routes
    | some gw_addr => defaultStopped o t gw_addr)

def resolvStopped (o : Outcomes) (t : System) : Option Text :=
  if o.fails .stopResolvConf then t.resolv_conf
  else if t.orig_dns.getD [] = [] then none
  else some (resolvConf (t.orig_dns.getD []))

def scopedrouteStopped (o : Outcomes) (t : System) : Int :=
  match t.scopedroute_old with
  | none => t.scopedroute
  | some old_value =>
    if o.fails .stopSysctl ∧ o.fails .stopKernel then t.scopedroute else old_value

theorem write_resolv_conf_system (fails : Bool) (dns_list : Text) (d : Daemon) :
    (write_resolv_conf fails dns_list d).system = { d.system with
      resolv_conf := if fails then d.system.resolv_conf else some (resolvConf dns_list) } := by
  unfold write_resolv_conf
  cases fails <;> rfl

theorem unlink_resolv_conf_system (fails : Bool) (d : Daemon) :
    (unlink_resolv_conf fails d).system = { d.system with
      resolv_conf := if fails then d.system.resolv_conf else none } := by
  unfold unlink_resolv_conf
  cases fails <;> rfl

theorem delete_default_v6_system (fails : Bool) (d : Daemon) :
    (nw_route_delete_default_v6 fails d).2.system
      = { d.system with routes := erase fails .default6 d.system.routes } := by
  unfold nw_route_delete_default_v6
  rw [answer_rest, answer_delete.routes]

/-- The stop once it has been through the default route. -/
def restoredDefault (o : Outcomes) (t : System) : Daemon :=
  match savedGateway o t with
  | none => { system := { t with orig_gw := none, orig_dns := none } }
  | some gw_addr =>
    force_restore_default o gw_addr { system := { t with orig_gw := none, orig_dns := none } }

def restoredResolver (o : Outcomes) (t : System) : Daemon :=
  let d := (nw_route_delete_default_v6 (o.fails .stopDelete6) (restoredDefault o t)).2
  if t.orig_dns.getD [] ≠ [] then
    write_resolv_conf (o.fails .stopResolvConf) (t.orig_dns.getD []) d
  else unlink_resolv_conf (o.fails .stopResolvConf) d

theorem restoredResolver_system (o : Outcomes) (t : System) : (restoredResolver o t).system =
    { t with
      orig_gw := none
      orig_dns := none
      routes := routesStopped o t
      resolv_conf := resolvStopped o t } := by
  have hdefault : (restoredDefault o t).system = { t with
      orig_gw := none
      orig_dns := none
      routes := match savedGateway o t with
        | none => t.routes
        | some gw_addr => defaultStopped o t gw_addr } := by
    unfold restoredDefault
    rcases savedGateway o t with _ | gw_addr
    · rfl
    · exact force_restore_default_spec rfl
  unfold restoredResolver resolvStopped routesStopped
  simp only []
  split_ifs <;> simp_all [write_resolv_conf_system, unlink_resolv_conf_system,
    delete_default_v6_system]

/-- The stop, field by field: the store is not among them. -/
theorem force_restore_routing_eq (o : Outcomes) (t : System) : force_restore_routing o t =
    { routes := routesStopped o t
      scopedroute := scopedrouteStopped o t
      resolv_conf := resolvStopped o t
      store := t.store } := by
  have hsystem := restoredResolver_system o t
  have hstages : force_restore_routing o t
      = match (restoredResolver o t).system.scopedroute_old with
        | none => (restoredResolver o t).system
        | some old_value =>
          { (if o.fails .stopSysctl ∧ o.fails .stopKernel then restoredResolver o t
            else (restoredResolver o t).make (.scopedroute old_value)).system with
            scopedroute_old := none } := rfl
  rw [hstages]
  unfold scopedrouteStopped
  rcases hold : t.scopedroute_old with _ | old_value
  · rw [hsystem, hold]
  · rw [show (restoredResolver o t).system.scopedroute_old = some old_value by rw [hsystem, hold]]
    simp only []
    split_ifs
    · rw [hsystem]
    · unfold Daemon.make Change.apply
      rw [hsystem]

/-! ## What the stop gives back -/

/-- Everything is as before the daemon. -/
structure Restored (s s' : System) : Prop where
  routes : s'.routes = s.routes
  scopedroute : s'.scopedroute = s.scopedroute
  resolv_conf : s'.resolv_conf = s.resolv_conf
  store : s'.store = s.store

/-- The default route was the one that is there, or a plain one through the gateway that is saved. -/
def DefaultRecovers (o : Outcomes) (s t : System) : Prop :=
  match savedGateway o t with
  | none => t.routes defaultKey = s.routes defaultKey
  | some gw_addr =>
    s.routes defaultKey
      = if (defaultLeft o t gw_addr defaultKey).isSome ∨ o.fails .stopAddDefault = true then
          defaultLeft o t gw_addr defaultKey
        else some (throughGateway gw_addr 0)

/-- The file was what the saved servers are written as, or was not there and none are saved. -/
structure ResolverRecovers (o : Outcomes) (s t : System) : Prop where
  fails : o.fails .stopResolvConf = true → t.resolv_conf = s.resolv_conf
  none : o.fails .stopResolvConf = false → t.orig_dns.getD [] = [] → s.resolv_conf = none
  some : o.fails .stopResolvConf = false → t.orig_dns.getD [] ≠ [] →
    s.resolv_conf = some (resolvConf (t.orig_dns.getD []))

/-- The setting was the one that is saved. -/
structure ScopedrouteRecovers (o : Outcomes) (s t : System) : Prop where
  none : t.scopedroute_old = none → t.scopedroute = s.scopedroute
  fails : ∀ v, t.scopedroute_old = some v → o.fails .stopSysctl = true ∧ o.fails .stopKernel = true →
    t.scopedroute = s.scopedroute
  some : ∀ v, t.scopedroute_old = some v →
    ¬(o.fails .stopSysctl = true ∧ o.fails .stopKernel = true) → v = s.scopedroute

/-- What the stop finds, where it can make it what was there before: the daemon's own routes and the
store are as they were, and the rest is what it saves. -/
structure Recoverable (o : Outcomes) (c : Config) (s t : System) : Prop where
  host : t.routes (endpointKey o c) = s.routes (endpointKey o c)
  split : ∀ r ∈ c.split_routes, networkKey r ≠ defaultKey →
    t.routes (networkKey r) = s.routes (networkKey r)
  store : t.store = s.store
  default6 : s.routes .default6 = none ∨ o.fails .stopDelete6 = true
  default : DefaultRecovers o s t
  resolver : ResolverRecovers o s t
  scopedroute : ScopedrouteRecovers o s t

theorem defaultStopped_of_ne {gw_addr : in_addr} {key : RouteKey} (hkey : key ≠ defaultKey) :
    defaultStopped o t gw_addr key = t.routes key := by
  unfold defaultStopped defaultLeft
  rw [FallibleTable.insert_of_ne hkey]
  split_ifs
  · exact FallibleTable.erase_of_ne hkey
  · rfl

theorem routesStopped_of_ne {key : RouteKey} (hkey : key ≠ defaultKey) (hkey6 : key ≠ .default6) :
    routesStopped o t key = t.routes key := by
  unfold routesStopped
  rw [FallibleTable.erase_of_ne hkey6]
  rcases savedGateway o t with _ | gw_addr
  · rfl
  · exact defaultStopped_of_ne hkey

theorem routesStopped_default : routesStopped o t defaultKey = s.routes defaultKey
    ↔ DefaultRecovers o s t := by
  unfold routesStopped DefaultRecovers
  rw [FallibleTable.erase_of_ne (by decide)]
  rcases savedGateway o t with _ | gw_addr
  · exact Iff.rfl
  · simp only []
    unfold defaultStopped
    rw [FallibleTable.insert_self, eq_comm]

theorem routesStopped_default6 (h : t.routes .default6 = s.routes .default6) :
    routesStopped o t .default6 = s.routes .default6
      ↔ s.routes .default6 = none ∨ o.fails .stopDelete6 = true := by
  have hleft : (match savedGateway o t with
      | none => t.routes
      | some gw_addr => defaultStopped o t gw_addr) .default6 = s.routes .default6 := by
    rw [← h]
    rcases savedGateway o t with _ | gw_addr
    · rfl
    · exact defaultStopped_of_ne (by decide)
  unfold routesStopped
  rcases hfails : o.fails .stopDelete6 with _ | _
  · rw [FallibleTable.erase_self]
    simp [eq_comm]
  · rw [FallibleTable.erase_failed, hleft]
    simp

theorem routesStopped_iff (h : ∀ key, ¬OwnKey o c key → t.routes key = s.routes key) :
    routesStopped o t = s.routes
      ↔ t.routes (endpointKey o c) = s.routes (endpointKey o c)
        ∧ (∀ r ∈ c.split_routes, networkKey r ≠ defaultKey →
            t.routes (networkKey r) = s.routes (networkKey r))
        ∧ (s.routes .default6 = none ∨ o.fails .stopDelete6 = true) ∧ DefaultRecovers o s t := by
  rw [← routesStopped_default6 (h _ default6_not_own), ← routesStopped_default, funext_iff]
  constructor
  · intro hall
    refine ⟨?_, fun r _ hr => ?_, hall _, hall _⟩
    · rw [← hall, routesStopped_of_ne defaultKey_ne_endpoint (by unfold endpointKey hostKey; simp)]
    · rw [← hall, routesStopped_of_ne hr (by unfold networkKey; simp)]
  · rintro ⟨hhost, hsplit, hdefault6, hdefault⟩ key
    by_cases hd : key = defaultKey
    · rw [hd, hdefault]
    by_cases h6 : key = .default6
    · rw [h6, hdefault6]
    rw [routesStopped_of_ne hd h6]
    by_cases hown : OwnKey o c key
    · rcases hown with rfl | hdk | ⟨r, hr, rfl⟩
      · exact hhost
      · exact absurd hdk hd
      · exact hsplit r hr hd
    · exact h key hown

theorem resolvStopped_iff : resolvStopped o t = s.resolv_conf ↔ ResolverRecovers o s t := by
  unfold resolvStopped
  constructor
  · intro h
    refine ⟨fun hfails => ?_, fun hfails hdns => ?_, fun hfails hdns => ?_⟩
    · rw [← h, if_pos hfails]
    · rw [← h, if_neg (by simp [hfails]), if_pos hdns]
    · rw [← h, if_neg (by simp [hfails]), if_neg hdns]
  · intro h
    split_ifs with hfails hdns
    · exact h.fails hfails
    · exact (h.none (by simpa using hfails) hdns).symm
    · exact (h.some (by simpa using hfails) hdns).symm

theorem scopedrouteStopped_iff : scopedrouteStopped o t = s.scopedroute
    ↔ ScopedrouteRecovers o s t := by
  unfold scopedrouteStopped
  rcases hold : t.scopedroute_old with _ | v
  · exact ⟨fun h => ⟨fun _ => h, fun _ hv => by simp [hold] at hv, fun _ hv => by simp [hold] at hv⟩,
      fun h => h.none hold⟩
  · simp only []
    split_ifs with hfails
    · refine ⟨fun h => ⟨fun hn => by simp [hold] at hn, fun _ _ _ => h, fun _ _ hno =>
        absurd hfails hno⟩, fun h => h.fails v hold hfails⟩
    · refine ⟨fun h => ⟨fun hn => by simp [hold] at hn, fun _ _ hno => absurd hno hfails,
        fun v' hv' _ => ?_⟩, fun h => h.some v hold hfails⟩
      rw [hold] at hv'
      exact (Option.some.inj hv').symm.trans h

/-- The stop after anything that leaves the other routes as they were. -/
theorem restored_iff_recoverable (h : ∀ key, ¬OwnKey o c key → t.routes key = s.routes key) :
    Restored s (force_restore_routing o t) ↔ Recoverable o c s t := by
  have hroutes := routesStopped_iff h
  rw [force_restore_routing_eq]
  constructor
  · intro hrestored
    obtain ⟨hhost, hsplit, hdefault6, hdefault⟩ := hroutes.mp hrestored.routes
    exact ⟨hhost, hsplit, hrestored.store, hdefault6, hdefault,
      resolvStopped_iff.mp hrestored.resolv_conf,
      scopedrouteStopped_iff.mp hrestored.scopedroute⟩
  · intro hrec
    exact ⟨hroutes.mpr ⟨hrec.host, hrec.split, hrec.default6, hrec.default⟩,
      scopedrouteStopped_iff.mpr hrec.scopedroute, resolvStopped_iff.mpr hrec.resolver, hrec.store⟩

/-- The stop after a daemon that was killed after so many changes, or that died of a fatal signal
in its loop. -/
theorem stop_restores_iff (o : Outcomes) (c : Config) (s : System) :
    (∀ changes, Restored s (force_restore_routing o (killed o c s changes))
      ↔ Recoverable o c s (killed o c s changes))
    ∧ (Restored s (force_restore_routing o (handle_fatal o (cmd_warp_tunnel o c s)).system)
      ↔ Recoverable o c s (handle_fatal o (cmd_warp_tunnel o c s)).system) :=
  ⟨fun changes => restored_iff_recoverable fun _ hkey => killed_routes hkey changes,
    restored_iff_recoverable fun _ hkey => fatal_routes hkey⟩

end Stop

/-- One default route. -/
def homeNetwork : System where
  routes key := if key = defaultKey then some (throughGateway 0xc0a80101 0) else none
  scopedroute := 1
  resolv_conf := none
  store _ := none

/-- A split tunnel that is killed in its loop, and stopped. -/
theorem killedTunnel_not_restored :
    homeNetwork.routes (endpointKey allSucceed splitTunnel) = none
      ∧ (force_restore_routing allSucceed (killed allSucceed splitTunnel homeNetwork 100)).routes
        (endpointKey allSucceed splitTunnel) = some (toEndpoint 0xc0a80101 1) := by
  decide +kernel

end NekroWarp

end Onegram
