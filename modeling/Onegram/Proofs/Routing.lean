import Onegram.Lib.FallibleTable
import Onegram.Routing

/-!
# What the routing table gets back

An addition that finds its route there counts as one that added it, so the cleanup takes the route
away that was there before. The default route comes back as a plain one.
-/

namespace Onegram

namespace NekroWarp

open FallibleTable (erase insertAll eraseAll)

/-! ## What routing depends on -/

/-- The globals the cleanup of the routes reads. -/
structure RoutingGlobals where
  orig_gw : in_addr
  warp_gw : in_addr
  warp_ep_ip : in_addr
  wifi_ifindex : ℕ
  host_route_added : Bool
  default_route_replaced : Bool
  cleanup_done : Bool

namespace Daemon

def routing (d : Daemon) : RoutingGlobals :=
  ⟨d.orig_gw, d.warp_gw, d.warp_ep_ip, d.wifi_ifindex, d.host_route_added,
    d.default_route_replaced, d.cleanup_done⟩

/-- Nothing has changed that routing depends on. -/
structure Kept (d d' : Daemon) : Prop where
  routing : d'.routing = d.routing
  installed : d'.installed = d.installed
  routes : d'.system.routes = d.system.routes

namespace Kept

variable {d d' d'' : Daemon}

theorem refl (d : Daemon) : Kept d d := ⟨rfl, rfl, rfl⟩

theorem trans (h : Kept d d') (h' : Kept d' d'') : Kept d d'' :=
  ⟨h'.routing.trans h.routing, h'.installed.trans h.installed, h'.routes.trans h.routes⟩

theorem make (d : Daemon) {c : Change} (h : ∀ s, (c.apply s).routes = s.routes) :
    Kept d (d.make c) := ⟨rfl, rfl, h _⟩

theorem makeAll : ∀ (cs : List Change) (d : Daemon),
    (∀ c ∈ cs, ∀ s, (c.apply s).routes = s.routes) → Kept d (d.makeAll cs)
  | [], d, _ => refl d
  | c :: cs, d, h => (make d (h c List.mem_cons_self)).trans
      (makeAll cs (d.make c) fun c' hc' => h c' (List.mem_cons_of_mem _ hc'))

theorem scope (fails : Bool) (writes : SCStore → List (SCKey × Option CFDictionary))
    (d : Daemon) : Kept d (d.scope fails writes) := by
  unfold Daemon.scope
  split_ifs
  · exact refl d
  · refine makeAll _ d fun c hc s => ?_
    obtain ⟨w, -, rfl⟩ := List.mem_map.mp hc
    rfl

theorem writeFile {α : Type} (fails : Bool) {file : Option α → Change} (contents : α) (d : Daemon)
    (h : ∀ v s, ((file v).apply s).routes = s.routes) :
    Kept d (d.writeFile fails file contents) := by
  unfold Daemon.writeFile
  split_ifs
  · exact refl d
  · exact (make d (h _)).trans (make _ (h _))

theorem write_resolv_conf (fails : Bool) (dns_list : Text) (d : Daemon) :
    Kept d (write_resolv_conf fails dns_list d) := by
  unfold NekroWarp.write_resolv_conf
  split_ifs
  · exact refl d
  · exact (make d fun _ => rfl).trans (make _ fun _ => rfl)

theorem unlink_resolv_conf (fails : Bool) (d : Daemon) : Kept d (unlink_resolv_conf fails d) := by
  unfold NekroWarp.unlink_resolv_conf
  split_ifs
  · exact refl d
  · exact make d fun _ => rfl

theorem set_dns_warp (o : Outcomes) (c : Config) (d : Daemon) : Kept d (set_dns_warp o c d) := by
  unfold NekroWarp.set_dns_warp
  have hfile : Kept _ (Daemon.writeFile (o.fails .origDnsFile) .orig_dns
      ((save_original_dns d.system.resolv_conf).takeWhile (· ≠ '\r'))
      { d with orig_dns := save_original_dns d.system.resolv_conf }) :=
    writeFile _ _ _ fun _ _ => rfl
  have hresolv := hfile.trans (write_resolv_conf (o.fails .resolvConf) c.dns_ip.toList _)
  have hscope := hresolv.trans (scope (o.fails .setDns) (setDnsWrites c.dns_ip) _)
  exact ⟨hscope.routing, hscope.installed, hscope.routes⟩

theorem sysctl_scopedroute (o : Outcomes) (d : Daemon) : Kept d (sysctl_scopedroute o d).2 := by
  unfold NekroWarp.sysctl_scopedroute
  simp only []
  split_ifs <;> exact ⟨rfl, rfl, rfl⟩

theorem kernel_scopedroute (o : Outcomes) (d : Daemon) : Kept d (kernel_scopedroute o d).2 := by
  unfold NekroWarp.kernel_scopedroute
  simp only []
  split_ifs <;> exact ⟨rfl, rfl, rfl⟩

theorem disable_scopedroute (o : Outcomes) (d : Daemon) : Kept d (disable_scopedroute o d) := by
  have hfile : ∀ d : Daemon, Kept d
      (d.writeFile (o.fails .scopedrouteFile) .scopedroute_old d.scopedroute_old) :=
    fun d => writeFile _ _ d fun _ _ => rfl
  have hsysctl := sysctl_scopedroute o d
  have hkernel := kernel_scopedroute o (NekroWarp.sysctl_scopedroute o d).2
  unfold NekroWarp.disable_scopedroute
  simp only []
  split_ifs
  · exact hsysctl.trans (hfile _)
  · exact hsysctl
  · exact hsysctl.trans (hkernel.trans (hfile _))
  · exact hsysctl.trans hkernel

theorem cleanup_dns (o : Outcomes) (d : Daemon) : Kept d (cleanup_dns o d) := by
  unfold NekroWarp.cleanup_dns
  have hscope := scope (o.fails .cleanupDns) restoreDnsWrites d
  simp only []
  split_ifs
  · exact hscope.trans (write_resolv_conf _ _ _)
  · exact hscope.trans (unlink_resolv_conf _ _)
  · exact refl d

theorem cleanup_primary (o : Outcomes) (d : Daemon) : Kept d (cleanup_primary o d) := by
  unfold NekroWarp.cleanup_primary
  have hscope := scope (o.fails .cleanupPrimary) restoreWrites d
  split_ifs
  · exact ⟨hscope.routing, hscope.installed, hscope.routes⟩
  · exact refl d

theorem cleanup_scopedroute (o : Outcomes) (d : Daemon) : Kept d (cleanup_scopedroute o d) := by
  unfold NekroWarp.cleanup_scopedroute
  simp only []
  split_ifs <;> exact ⟨rfl, rfl, rfl⟩

end Kept

end Daemon

/-! ## Answers of the kernel -/

/-- The key of the route to the endpoint. -/
def hostKey (dst : in_addr) (ifscope : ℕ) : RouteKey := .host dst (ifscope % 65536)

def networkKey (r : in_addr × in_addr) : RouteKey := .network r.1 r.2 0

def defaultKey : RouteKey := .network 0 0 0

theorem routeKey_host (dst mask : in_addr) (ifscope : ℕ) :
    routeKey (RTF_HOST ||| RTF_GATEWAY) dst mask ifscope = hostKey dst ifscope := by
  unfold routeKey
  rw [if_pos (by decide)]
  rfl

theorem routeKey_network (dst mask : in_addr) :
    routeKey RTF_GATEWAY dst mask 0 = networkKey (dst, mask) := by
  unfold routeKey
  rw [if_neg (by decide)]
  rfl

/-- A route the program adds for a network, the default included. -/
def throughGateway (gateway : in_addr) (mtu : Int) : Route := sentRoute RTF_GATEWAY gateway 0 mtu

def toEndpoint (gateway : in_addr) (ifscope : ℕ) : Route :=
  sentRoute (RTF_HOST ||| RTF_GATEWAY) gateway ifscope 0

/-- What comes of a message, where one error counts as success. -/
structure Answered (harmless : Errno) (fails : Bool) (routes : RouteTable) (d : Daemon)
    (x : Option Errno × Daemon) : Prop where
  error : (x.1 ≠ none ∧ x.1 ≠ some harmless) ↔ fails = true
  routing : x.2.routing = d.routing
  installed : x.2.installed = d.installed
  routes : x.2.system.routes = routes

section Answers

variable {fails : Bool} {key : RouteKey} {route : Route} {d : Daemon}

theorem answer_add : Answered .EEXIST fails (FallibleTable.insert fails key route d.system.routes) d
    (route_answer fails .RTM_ADD key route d) := by
  unfold route_answer FallibleTable.insert
  by_cases hfails : fails = true
  · rw [if_pos hfails, if_pos (.inl hfails)]
    exact ⟨by simp [hfails], rfl, rfl, rfl⟩
  rw [if_neg hfails]
  by_cases hsome : (d.system.routes key).isSome = true
  · rw [if_pos (.inr hsome)]
    simp only [hsome, if_true]
    exact ⟨by simp [hfails], rfl, rfl, rfl⟩
  · rw [if_neg (by simp [hfails, hsome])]
    simp only [hsome]
    exact ⟨by simp [hfails], rfl, rfl, rfl⟩

theorem answer_delete : Answered .ESRCH fails (erase fails key d.system.routes) d
    (route_answer fails .RTM_DELETE key route d) := by
  unfold route_answer
  by_cases hfails : fails = true
  · rw [if_pos hfails, hfails, FallibleTable.erase_failed]
    exact ⟨by simp, rfl, rfl, rfl⟩
  rw [if_neg hfails]
  rcases h : d.system.routes key with _ | r
  · rw [FallibleTable.erase_of_none h]
    exact ⟨by simp [hfails], rfl, rfl, rfl⟩
  · rw [eq_false_of_ne_true hfails]
    exact ⟨by simp, rfl, rfl, rfl⟩

variable (fails d)

theorem add_host (dst gateway : in_addr) (ifindex : ℕ) :
    Answered .EEXIST fails (FallibleTable.insert fails (hostKey dst ifindex)
      (toEndpoint gateway ifindex) d.system.routes) d
      (nw_route_add_host fails dst gateway ifindex d) := by
  unfold nw_route_add_host nw_route_send
  rw [routeKey_host]
  exact answer_add

theorem delete_host (dst gateway : in_addr) (ifindex : ℕ) :
    Answered .ESRCH fails (erase fails (hostKey dst ifindex) d.system.routes) d
      (nw_route_delete_host fails dst gateway ifindex d) := by
  unfold nw_route_delete_host nw_route_send
  rw [routeKey_host]
  exact answer_delete

theorem add_network (dst mask gateway : in_addr) (mtu : Int) :
    Answered .EEXIST fails (FallibleTable.insert fails (networkKey (dst, mask))
      (throughGateway gateway mtu) d.system.routes) d
      (nw_route_add_network fails dst mask gateway mtu d) := by
  unfold nw_route_add_network nw_route_send
  rw [routeKey_network]
  exact answer_add

theorem delete_network (dst mask gateway : in_addr) :
    Answered .ESRCH fails (erase fails (networkKey (dst, mask)) d.system.routes) d
      (nw_route_delete_network fails dst mask gateway d) := by
  unfold nw_route_delete_network nw_route_send
  rw [routeKey_network]
  exact answer_delete

theorem add_default (gateway : in_addr) (mtu : Int) :
    Answered .EEXIST fails (FallibleTable.insert fails defaultKey (throughGateway gateway mtu)
      d.system.routes) d (nw_route_add_default fails gateway mtu d) :=
  add_network fails d 0 0 gateway mtu

theorem delete_default (gateway : in_addr) :
    Answered .ESRCH fails (erase fails defaultKey d.system.routes) d
      (nw_route_delete_default fails gateway d) :=
  delete_network fails d 0 0 gateway

end Answers

/-! ## The cleanup of the routes -/

def eraseSplit (o : Outcomes) : ℕ → List (in_addr × in_addr) → (ℕ → Bool) → RouteTable → RouteTable
  | _, [], _, t => t
  | i, r :: rest, installed, t =>
    if installed i then
      eraseSplit o (i + 1) rest (Function.update installed i false)
        (erase (o.fails (.cleanupSplitRoute i)) (networkKey r) t)
    else eraseSplit o (i + 1) rest installed t

theorem delete_split_routes_spec (o : Outcomes) : ∀ (i : ℕ) (routes : List (in_addr × in_addr))
    (d : Daemon), (delete_split_routes o i routes d).routing = d.routing
      ∧ (delete_split_routes o i routes d).system.routes
        = eraseSplit o i routes d.installed d.system.routes
  | _, [], _ => ⟨rfl, rfl⟩
  | i, (network, mask) :: rest, d => by
    unfold delete_split_routes eraseSplit
    by_cases hinstalled : d.installed i = true
    · rw [if_pos hinstalled, if_pos hinstalled]
      obtain ⟨-, hrouting, hinst, hroutes⟩ := delete_network
        (o.fails (.cleanupSplitRoute i)) d network mask d.warp_gw
      generalize (nw_route_delete_network (o.fails (.cleanupSplitRoute i)) network mask
        d.warp_gw d).2 = d' at hrouting hinst hroutes ⊢
      obtain ⟨hrest, hsplit⟩ := delete_split_routes_spec o (i + 1) rest
        { d' with installed := Function.update d'.installed i false }
      refine ⟨hrest.trans hrouting, ?_⟩
      rw [← hroutes, ← hinst]
      exact hsplit
    · rw [if_neg hinstalled, if_neg hinstalled]
      exact delete_split_routes_spec o (i + 1) rest d

theorem cleanup_default_spec (o : Outcomes) (d : Daemon) :
    (cleanup_default o d).routing = d.routing ∧ (cleanup_default o d).installed = d.installed
      ∧ (cleanup_default o d).system.routes
      = if d.default_route_replaced then
          FallibleTable.insert (o.fails .cleanupAddDefault) defaultKey (throughGateway d.orig_gw 0)
            (erase (o.fails .cleanupDeleteDefault) defaultKey d.system.routes)
        else d.system.routes := by
  unfold cleanup_default
  by_cases hreplaced : d.default_route_replaced = true
  · rw [if_pos hreplaced, if_pos hreplaced]
    obtain ⟨-, hrouting, hinst, hroutes⟩ := delete_default (o.fails .cleanupDeleteDefault) d
      d.warp_gw
    generalize (nw_route_delete_default (o.fails .cleanupDeleteDefault) d.warp_gw d).2 = d'
      at hrouting hinst hroutes ⊢
    have hgw : d'.orig_gw = d.orig_gw := congrArg RoutingGlobals.orig_gw hrouting
    obtain ⟨-, hrouting', hinst', hroutes'⟩ := add_default (o.fails .cleanupAddDefault) d'
      d'.orig_gw 0
    refine ⟨hrouting'.trans hrouting, hinst'.trans hinst, ?_⟩
    rw [← hroutes, ← hgw]
    exact hroutes'
  · rw [if_neg hreplaced, if_neg hreplaced]
    exact ⟨rfl, rfl, rfl⟩

theorem cleanup_host_spec (o : Outcomes) (d : Daemon) :
    (cleanup_host o d).routing = d.routing ∧ (cleanup_host o d).system.routes
      = if d.host_route_added then
          erase (o.fails .cleanupHost) (hostKey d.warp_ep_ip d.wifi_ifindex) d.system.routes
        else d.system.routes := by
  unfold cleanup_host
  split_ifs
  · have h := delete_host (o.fails .cleanupHost) d d.warp_ep_ip d.orig_gw d.wifi_ifindex
    exact ⟨h.routing, h.routes⟩
  · exact ⟨rfl, rfl⟩

/-- What the cleanup makes of the table. -/
def takeBack (o : Outcomes) (c : Config) (g : RoutingGlobals) (installed : ℕ → Bool)
    (t : RouteTable) : RouteTable :=
  let t :=
    if g.default_route_replaced then
      FallibleTable.insert (o.fails .cleanupAddDefault) defaultKey (throughGateway g.orig_gw 0)
        (erase (o.fails .cleanupDeleteDefault) defaultKey t)
    else t
  let t := eraseSplit o 0 c.split_routes installed t
  if g.host_route_added then erase (o.fails .cleanupHost) (hostKey g.warp_ep_ip g.wifi_ifindex) t
  else t

theorem cleanup_spec (o : Outcomes) (c : Config) {d : Daemon} (h : d.cleanup_done = false) :
    (cleanup o c d).routing = { d.routing with cleanup_done := true }
      ∧ (cleanup o c d).system.routes = takeBack o c d.routing d.installed d.system.routes := by
  unfold cleanup
  rw [if_neg (by simp [h])]
  simp only []
  have hdns := Daemon.Kept.cleanup_dns o { d with cleanup_done := true }
  generalize cleanup_dns o { d with cleanup_done := true } = d₁ at hdns ⊢
  have hg₁ : d₁.routing = { d.routing with cleanup_done := true } := hdns.routing
  obtain ⟨hdefault, hinst, hdroutes⟩ := cleanup_default_spec o d₁
  generalize cleanup_default o d₁ = d₂ at hdefault hinst hdroutes ⊢
  obtain ⟨hrest, hsplit⟩ := delete_split_routes_spec o 0 c.split_routes d₂
  generalize delete_split_routes o 0 c.split_routes d₂ = d₃ at hrest hsplit ⊢
  have hg₃ : d₃.routing = { d.routing with cleanup_done := true } :=
    hrest.trans (hdefault.trans hg₁)
  have hprimary := Daemon.Kept.cleanup_primary o (cleanup_host o d₃)
  have hscoped := Daemon.Kept.cleanup_scopedroute o (cleanup_primary o (cleanup_host o d₃))
  refine ⟨hscoped.routing.trans (hprimary.routing.trans ((cleanup_host_spec o d₃).1.trans hg₃)),
    ?_⟩
  rw [hscoped.routes, hprimary.routes, (cleanup_host_spec o d₃).2, hsplit, hdroutes, hinst, hdns.installed,
    hdns.routes]
  rw [show d₃.host_route_added = d.host_route_added from congrArg (·.host_route_added) hg₃,
    show d₃.warp_ep_ip = d.warp_ep_ip from congrArg (·.warp_ep_ip) hg₃,
    show d₃.wifi_ifindex = d.wifi_ifindex from congrArg (·.wifi_ifindex) hg₃,
    show d₁.default_route_replaced = d.default_route_replaced from
      congrArg (·.default_route_replaced) hg₁,
    show d₁.orig_gw = d.orig_gw from congrArg (·.orig_gw) hg₁]
  rfl

/-- The second cleanup does nothing. -/
theorem cleanup_cleanup (o : Outcomes) (c : Config) (d : Daemon) :
    cleanup o c (cleanup o c d) = cleanup o c d := by
  have hdone : (cleanup o c d).cleanup_done = true := by
    rcases h : d.cleanup_done with _ | _
    · exact congrArg RoutingGlobals.cleanup_done (cleanup_spec o c h).1
    · unfold cleanup
      rw [if_pos h]
      exact h
  rw [cleanup, if_pos hdone]

/-! ## Split routes -/

/-- The networks that count as added, with their places. -/
def counted (o : Outcomes) : ℕ → List (in_addr × in_addr) → List (ℕ × in_addr × in_addr)
  | _, [] => []
  | i, r :: rest => if o.fails (.splitRoute i) then [] else (i, r) :: counted o (i + 1) rest

theorem counted_le (o : Outcomes) : ∀ (i : ℕ) (routes : List (in_addr × in_addr)),
    ∀ e ∈ counted o i routes, i ≤ e.1
  | _, [], _, h => absurd h List.not_mem_nil
  | i, r :: rest, e, h => by
    unfold counted at h
    split_ifs at h
    · exact absurd h List.not_mem_nil
    · rcases List.mem_cons.mp h with rfl | h
      · exact le_rfl
      · exact (Nat.le_succ i).trans (counted_le o (i + 1) rest e h)

def marked (entries : List (ℕ × in_addr × in_addr)) (installed : ℕ → Bool) : ℕ → Bool :=
  entries.foldl (fun f e => Function.update f e.1 true) installed

theorem marked_iff {j : ℕ} : ∀ (entries : List (ℕ × in_addr × in_addr)) (installed : ℕ → Bool),
    marked entries installed j = true ↔ installed j = true ∨ ∃ r, (j, r) ∈ entries
  | [], _ => by simp [marked]
  | (i, r) :: entries, installed => by
    change marked entries (Function.update installed i true) j = true ↔ _
    rw [marked_iff entries]
    by_cases hj : j = i
    · subst hj
      simp
    · simp [hj]

def additions (entries : List (ℕ × in_addr × in_addr)) (gateway : in_addr) (mtu : Int) :
    List (RouteKey × Route) :=
  entries.map fun e => (networkKey e.2, throughGateway gateway mtu)

def removals (o : Outcomes) (entries : List (ℕ × in_addr × in_addr)) : List (RouteKey × Bool) :=
  entries.map fun e => (networkKey e.2, o.fails (.cleanupSplitRoute e.1))

theorem eraseSplit_none (o : Outcomes) : ∀ (i : ℕ) (routes : List (in_addr × in_addr))
    (installed : ℕ → Bool) (t : RouteTable), (∀ j, i ≤ j → installed j = false) →
      eraseSplit o i routes installed t = t
  | _, [], _, _, _ => rfl
  | i, r :: rest, installed, t, h => by
    unfold eraseSplit
    rw [if_neg (by simp [h i le_rfl])]
    exact eraseSplit_none o (i + 1) rest installed t fun j hj => h j (by omega)

theorem eraseSplit_counted (o : Outcomes) : ∀ (i : ℕ) (routes : List (in_addr × in_addr))
    (installed : ℕ → Bool) (t : RouteTable),
    (∀ j, i ≤ j → (installed j = true ↔ ∃ r, (j, r) ∈ counted o i routes)) →
      eraseSplit o i routes installed t = eraseAll (removals o (counted o i routes)) t
  | _, [], _, _, _ => rfl
  | i, r :: rest, installed, t, h => by
    unfold counted at h ⊢
    by_cases hfails : o.fails (.splitRoute i) = true
    · rw [if_pos hfails] at h ⊢
      exact eraseSplit_none o i (r :: rest) installed t fun j hj => by
        rw [← Bool.not_eq_true, h j hj]
        simp
    · rw [if_neg hfails] at h ⊢
      unfold eraseSplit
      rw [if_pos ((h i le_rfl).mpr ⟨r, List.mem_cons_self⟩)]
      refine eraseSplit_counted o (i + 1) rest _ _ fun j hj => ?_
      rw [Function.update_of_ne (by omega), h j (by omega)]
      have hne : ∀ r', (j, r') ≠ (i, r) := fun r' he => by
        have := congrArg Prod.fst he
        omega
      simp [hne]

/-- The additions, up to the first that fails. -/
theorem add_split_routes_spec (o : Outcomes) (c : Config) (mtu : Int) :
    ∀ (i : ℕ) (routes : List (in_addr × in_addr)) (d : Daemon),
      ∃ d', cleanup o c (add_split_routes o c mtu i routes d).2 = cleanup o c d'
        ∧ d'.routing = d.routing ∧ d'.installed = marked (counted o i routes) d.installed
        ∧ d'.system.routes
          = insertAll (additions (counted o i routes) d.warp_gw mtu) d.system.routes
  | _, [], d => ⟨d, rfl, rfl, rfl, rfl⟩
  | i, (network, mask) :: rest, d => by
    have hadd := add_network (o.fails (.splitRoute i)) d network mask d.warp_gw mtu
    unfold add_split_routes counted
    rcases hanswer : nw_route_add_network (o.fails (.splitRoute i)) network mask d.warp_gw mtu d
      with ⟨err, d₁⟩
    rw [hanswer] at hadd
    obtain ⟨herror, hrouting, hinst, hroutes⟩ := hadd
    simp only [] at herror hrouting hinst hroutes ⊢
    by_cases hfails : o.fails (.splitRoute i) = true
    · rw [if_pos (herror.mpr hfails), if_pos hfails]
      refine ⟨d₁, cleanup_cleanup o c d₁, hrouting, hinst, ?_⟩
      rw [hroutes, hfails, FallibleTable.insert_failed]
      rfl
    · rw [if_neg fun h => hfails (herror.mp h), if_neg hfails]
      obtain ⟨d', hcleanup, hrouting', hinst', hroutes'⟩ := add_split_routes_spec o c mtu (i + 1)
        rest { d₁ with installed := Function.update d₁.installed i true }
      have hgw : d₁.warp_gw = d.warp_gw := congrArg RoutingGlobals.warp_gw hrouting
      refine ⟨d', hcleanup, hrouting'.trans hrouting, ?_, ?_⟩
      · rw [hinst', ← hinst]
        rfl
      · rw [eq_false_of_ne_true hfails] at hroutes
        refine hroutes'.trans ?_
        simp only []
        rw [hroutes, hgw]
        rfl

/-! ## Setting up -/

section SetUp

variable {o : Outcomes} {c : Config} (mtu : Int) {d : Daemon}

theorem add_endpoint_route_spec (o : Outcomes) (c : Config) (d : Daemon)
    (hadded : d.host_route_added = false) :
    let gw := nw_route_get_default_gateway (o.dump d.system.routes)
    let counts := gw ≠ INADDR_ANY ∧ o.ifindex ≠ 0 ∧ o.fails .preHandshakeHost = false
    (add_endpoint_route o c d).routing = ⟨gw, d.warp_gw, c.endpoint_ip, o.ifindex,
        (add_endpoint_route o c d).host_route_added, d.default_route_replaced, d.cleanup_done⟩
      ∧ ((add_endpoint_route o c d).host_route_added = true ↔ counts)
      ∧ (add_endpoint_route o c d).installed = d.installed
      ∧ (add_endpoint_route o c d).system.routes
        = if counts then
            FallibleTable.insert false (hostKey c.endpoint_ip o.ifindex) (toEndpoint gw o.ifindex)
              d.system.routes
          else d.system.routes := by
  intro gw counts
  unfold add_endpoint_route
  simp only []
  by_cases htried : gw ≠ INADDR_ANY ∧ o.ifindex ≠ 0
  · rw [if_pos htried]
    obtain ⟨herror, hrouting, hinst, hroutes⟩ := add_host (o.fails .preHandshakeHost)
      { d with orig_gw := gw, wifi_ifindex := o.ifindex, warp_ep_ip := c.endpoint_ip }
      c.endpoint_ip gw o.ifindex
    rcases hanswer : nw_route_add_host (o.fails .preHandshakeHost) c.endpoint_ip gw o.ifindex
      { d with orig_gw := gw, wifi_ifindex := o.ifindex, warp_ep_ip := c.endpoint_ip }
      with ⟨err, d₁⟩
    rw [hanswer] at herror hrouting hinst hroutes
    simp only [] at herror hrouting hinst hroutes ⊢
    have hadded₁ : d₁.host_route_added = false :=
      (congrArg RoutingGlobals.host_route_added hrouting).trans hadded
    by_cases hfails : o.fails .preHandshakeHost = true
    · have hcounts : ¬counts := fun h => by simp [h.2.2] at hfails
      have herr := herror.mpr hfails
      rw [if_neg (by tauto), if_neg hcounts]
      refine ⟨?_, by simp [hadded₁, hcounts], hinst, ?_⟩
      · rw [hrouting, hadded₁, ← hadded]
        rfl
      · rw [hroutes, hfails, FallibleTable.insert_failed]
    · have hcounts : counts := ⟨htried.1, htried.2, eq_false_of_ne_true hfails⟩
      have herr : err = none ∨ err = some .EEXIST := by
        by_contra hne
        rw [not_or] at hne
        exact hfails (herror.mp hne)
      rw [if_pos herr, if_pos hcounts]
      refine ⟨?_, by simp [hcounts], hinst, by rw [hroutes, eq_false_of_ne_true hfails]⟩
      exact congrArg (fun g : RoutingGlobals => { g with host_route_added := true }) hrouting
  · have hcounts : ¬counts := fun h => htried ⟨h.1, h.2.1⟩
    rw [if_neg htried, if_neg hcounts]
    exact ⟨rfl, by simp [hadded, hcounts], rfl, rfl⟩

theorem publish_primary_kept (o : Outcomes) (c : Config) (d : Daemon) :
    Daemon.Kept d (publish_primary o c d) := by
  unfold publish_primary
  have hscope := Daemon.Kept.scope false
    (setPrimaryWrites c.active_ifname c.client_ip (inet_ntoa d.warp_gw)) d
  split_ifs
  · exact .refl d
  · exact .refl d
  · exact ⟨hscope.routing, hscope.installed, hscope.routes⟩

theorem setup_no_gateway (h : nw_route_get_default_gateway (o.dump d.system.routes) = INADDR_ANY) :
    (setup_routing o c mtu d).2 = { d with orig_gw := INADDR_ANY } := by
  unfold setup_routing
  simp only []
  rw [if_pos h, h]

/-- What the routes are added from. -/
structure Prepared (o : Outcomes) (c : Config) (d d' : Daemon) : Prop where
  routing : d'.routing = ⟨nw_route_get_default_gateway (o.dump d.system.routes),
    firstOfNet c.client_addr, c.endpoint_ip, o.ifindex, d.host_route_added,
    d.default_route_replaced, d.cleanup_done⟩
  installed : d'.installed = d.installed
  routes : d'.system.routes = d.system.routes

theorem prepare_routing_spec (o : Outcomes) (c : Config) (d : Daemon) :
    Prepared o c d (prepare_routing o c
      { d with orig_gw := nw_route_get_default_gateway (o.dump d.system.routes) }) := by
  have hfile : Daemon.Kept _ (Daemon.writeFile (o.fails .origGwFile) .orig_gw
      (nw_route_get_default_gateway (o.dump d.system.routes))
      { d with
        orig_gw := nw_route_get_default_gateway (o.dump d.system.routes)
        wifi_ifindex := o.ifindex }) :=
    .writeFile _ _ _ fun _ _ => rfl
  refine ⟨?_, hfile.installed, hfile.routes⟩
  exact congrArg (fun g : RoutingGlobals => { g with
    warp_ep_ip := c.endpoint_ip
    warp_gw := firstOfNet c.client_addr }) hfile.routing

theorem setup_split (h : nw_route_get_default_gateway (o.dump d.system.routes) ≠ INADDR_ANY)
    (hsplit : c.split_mode = true) : ∃ d', Prepared o c d d'
      ∧ setup_routing o c mtu d = add_split_routes o c mtu 0 c.split_routes d' := by
  refine ⟨_, prepare_routing_spec o c d, ?_⟩
  unfold setup_routing
  simp only []
  rw [if_neg h, if_pos hsplit]

theorem setup_full (h : nw_route_get_default_gateway (o.dump d.system.routes) ≠ INADDR_ANY)
    (hsplit : ¬c.split_mode = true) : ∃ d', Prepared o c d d'
      ∧ setup_routing o c mtu d = add_full_routes o c mtu d' := by
  have hprepared := prepare_routing_spec o c d
  have hprimary := publish_primary_kept o c (prepare_routing o c
    { d with orig_gw := nw_route_get_default_gateway (o.dump d.system.routes) })
  refine ⟨_, ⟨hprimary.routing.trans hprepared.routing,
    hprimary.installed.trans hprepared.installed, hprimary.routes.trans hprepared.routes⟩, ?_⟩
  unfold setup_routing
  simp only []
  rw [if_neg h, if_neg hsplit]

/-- The host route, and whether the rest is tried. -/
theorem full_host_failed (hfails : o.fails .host = true) : ∃ d',
    add_full_routes o c mtu d = (-1, d') ∧ Daemon.Kept d d' := by
  obtain ⟨herror, hrouting, hinst, hroutes⟩ :=
    add_host (o.fails .host) d d.warp_ep_ip d.orig_gw d.wifi_ifindex
  unfold add_full_routes
  rcases hanswer : nw_route_add_host (o.fails .host) d.warp_ep_ip d.orig_gw d.wifi_ifindex d
    with ⟨err, d₁⟩
  rw [hanswer] at herror hrouting hinst hroutes
  simp only [] at herror hrouting hinst hroutes ⊢
  rw [if_pos (herror.mpr hfails)]
  rw [hfails, FallibleTable.insert_failed] at hroutes
  exact ⟨d₁, rfl, hrouting, hinst, hroutes⟩

/-- The host route is counted. -/
structure HostAdded (d d' : Daemon) : Prop where
  routing : d'.routing = { d.routing with host_route_added := true }
  installed : d'.installed = d.installed
  routes : d'.system.routes = FallibleTable.insert false (hostKey d.warp_ep_ip d.wifi_ifindex)
    (toEndpoint d.orig_gw d.wifi_ifindex) d.system.routes

theorem full_host_added (hfails : o.fails .host = false) : ∃ d', HostAdded d d'
    ∧ add_full_routes o c mtu d = if c.surgery then replace_default o c mtu d' else (0, d') := by
  obtain ⟨herror, hrouting, hinst, hroutes⟩ :=
    add_host (o.fails .host) d d.warp_ep_ip d.orig_gw d.wifi_ifindex
  unfold add_full_routes
  rcases hanswer : nw_route_add_host (o.fails .host) d.warp_ep_ip d.orig_gw d.wifi_ifindex d
    with ⟨err, d₁⟩
  rw [hanswer] at herror hrouting hinst hroutes
  simp only [] at herror hrouting hinst hroutes ⊢
  rw [if_neg fun h => by simp [herror.mp h] at hfails]
  rw [hfails] at hroutes
  exact ⟨{ d₁ with host_route_added := true },
    ⟨congrArg (fun g : RoutingGlobals => { g with host_route_added := true }) hrouting, hinst,
      hroutes⟩, rfl⟩

theorem replace_failed (hfails : o.fails .deleteDefault = true) : ∃ d',
    cleanup o c (replace_default o c mtu d).2 = cleanup o c d' ∧ Daemon.Kept d d' := by
  obtain ⟨herror, hrouting, hinst, hroutes⟩ := delete_default (o.fails .deleteDefault) d d.orig_gw
  unfold replace_default
  rcases hanswer : nw_route_delete_default (o.fails .deleteDefault) d.orig_gw d with ⟨err, d₁⟩
  rw [hanswer] at herror hrouting hinst hroutes
  simp only [] at herror hrouting hinst hroutes ⊢
  rw [if_pos (herror.mpr hfails)]
  rw [hfails, FallibleTable.erase_failed] at hroutes
  exact ⟨d₁, cleanup_cleanup o c d₁, hrouting, hinst, hroutes⟩

/-- The default route is counted as replaced. -/
structure DefaultReplaced (o : Outcomes) (mtu : Int) (d d' : Daemon) : Prop where
  routing : d'.routing = { d.routing with default_route_replaced := true }
  installed : d'.installed = d.installed
  routes : d'.system.routes = FallibleTable.insert (o.fails .addDefault) defaultKey
    (throughGateway d.warp_gw mtu) (erase false defaultKey d.system.routes)

theorem replace_replaced (hfails : o.fails .deleteDefault = false) : ∃ d',
    cleanup o c (replace_default o c mtu d).2 = cleanup o c d' ∧ DefaultReplaced o mtu d d' := by
  obtain ⟨herror, hrouting, hinst, hroutes⟩ := delete_default (o.fails .deleteDefault) d d.orig_gw
  unfold replace_default
  rcases hanswer : nw_route_delete_default (o.fails .deleteDefault) d.orig_gw d with ⟨err, d₁⟩
  rw [hanswer] at herror hrouting hinst hroutes
  simp only [] at herror hrouting hinst hroutes ⊢
  rw [if_neg fun h => by simp [herror.mp h] at hfails]
  have hgw : d₁.warp_gw = d.warp_gw := congrArg RoutingGlobals.warp_gw hrouting
  obtain ⟨herror', hrouting', hinst', hroutes'⟩ := add_default (o.fails .addDefault)
    { d₁ with default_route_replaced := true } d₁.warp_gw mtu
  rcases hanswer' : nw_route_add_default (o.fails .addDefault) d₁.warp_gw mtu
    { d₁ with default_route_replaced := true } with ⟨err', d₂⟩
  rw [hanswer'] at herror' hrouting' hinst' hroutes'
  simp only [] at herror' hrouting' hinst' hroutes' ⊢
  have hreplaced : DefaultReplaced o mtu d d₂ := by
    refine ⟨hrouting'.trans (congrArg (fun g : RoutingGlobals =>
      { g with default_route_replaced := true }) hrouting), hinst'.trans hinst, ?_⟩
    rw [hroutes', hroutes, hgw, hfails]
  split_ifs
  · exact ⟨d₂, cleanup_cleanup o c d₂, hreplaced⟩
  · exact ⟨d₂, rfl, hreplaced⟩

end SetUp

/-! ## What counts as added -/

section Counted

variable (o : Outcomes) (c : Config) (s : System)

def tunnelMtu : Int := if c.mtu ≤ 0 then 1280 else min c.mtu 1280

def endpointKey : RouteKey := hostKey c.endpoint_ip o.ifindex

def earlyGateway : in_addr := nw_route_get_default_gateway (o.dump s.routes)

/-- The host route is counted before the handshake. -/
def EarlyCounted : Prop :=
  o.fails .connect = false ∧ earlyGateway o s ≠ INADDR_ANY ∧ o.ifindex ≠ 0
    ∧ o.fails .preHandshakeHost = false

instance : Decidable (EarlyCounted o s) :=
  inferInstanceAs (Decidable (_ ∧ _ ∧ _ ∧ _))

def routesAtSetup : RouteTable :=
  if EarlyCounted o s then
    FallibleTable.insert false (endpointKey o c) (toEndpoint (earlyGateway o s) o.ifindex) s.routes
  else s.routes

def foundGateway : in_addr := nw_route_get_default_gateway (o.dump (routesAtSetup o c s))

/-- The routes are tried. -/
def SetUp : Prop :=
  o.fails .connect = false ∧ o.fails .handshake = false ∧ foundGateway o c s ≠ INADDR_ANY

instance : Decidable (SetUp o c s) := inferInstanceAs (Decidable (_ ∧ _ ∧ _))

def HostCounted : Prop :=
  EarlyCounted o s ∨ SetUp o c s ∧ c.split_mode = false ∧ o.fails .host = false

instance : Decidable (HostCounted o c s) := inferInstanceAs (Decidable (_ ∨ _))

def splitCounted : List (ℕ × in_addr × in_addr) :=
  if SetUp o c s ∧ c.split_mode = true then counted o 0 c.split_routes else []

def DefaultCounted : Prop :=
  SetUp o c s ∧ c.split_mode = false ∧ o.fails .host = false ∧ c.surgery = true
    ∧ o.fails .deleteDefault = false

instance : Decidable (DefaultCounted o c s) := inferInstanceAs (Decidable (_ ∧ _ ∧ _ ∧ _ ∧ _))

/-- The networks of the table before the cleanup. -/
def networksAdded : RouteTable :=
  if DefaultCounted o c s then
    FallibleTable.insert (o.fails .addDefault) defaultKey
      (throughGateway (firstOfNet c.client_addr) (tunnelMtu c)) (erase false defaultKey s.routes)
  else
    insertAll (additions (splitCounted o c s) (firstOfNet c.client_addr) (tunnelMtu c)) s.routes

/-- The daemon that is cleaned up in the end. -/
structure Reached (d : Daemon) : Prop where
  last : cleanup o c (cmd_warp_tunnel o c s) = cleanup o c d
  done : d.cleanup_done = false
  host : d.host_route_added = true ↔ HostCounted o c s
  place : HostCounted o c s → hostKey d.warp_ep_ip d.wifi_ifindex = endpointKey o c
  replaced : d.default_route_replaced = true ↔ DefaultCounted o c s
  gateway : DefaultCounted o c s → d.orig_gw = foundGateway o c s
  installed : ∀ j, d.installed j = true ↔ ∃ r, (j, r) ∈ splitCounted o c s
  hostRoute : ∃ route, d.system.routes (endpointKey o c)
    = if HostCounted o c s then
        FallibleTable.insert false (endpointKey o c) route s.routes (endpointKey o c)
      else s.routes (endpointKey o c)
  networks : ∀ key, key ≠ endpointKey o c → d.system.routes key = networksAdded o c s key

variable {o c s}

theorem networkKey_ne_endpoint (r : in_addr × in_addr) : networkKey r ≠ endpointKey o c := by
  unfold networkKey endpointKey hostKey
  simp

theorem routesAtSetup_networks {key : RouteKey} (h : key ≠ endpointKey o c) :
    routesAtSetup o c s key = s.routes key := by
  unfold routesAtSetup
  split_ifs
  · exact FallibleTable.insert_of_ne h
  · rfl

theorem routesAtSetup_host : ∃ route, routesAtSetup o c s (endpointKey o c)
    = if EarlyCounted o s then
        FallibleTable.insert false (endpointKey o c) route s.routes (endpointKey o c)
      else s.routes (endpointKey o c) := by
  unfold routesAtSetup
  refine ⟨toEndpoint (earlyGateway o s) o.ifindex, ?_⟩
  split_ifs <;> rfl

/-- What the kernel patch leaves is where the daemon starts. -/
theorem start_kept (o : Outcomes) (c : Config) (s : System) : Daemon.Kept { system := s }
    (if c.kpatch then disable_scopedroute o { system := s } else { system := s }) := by
  split_ifs
  · exact .disable_scopedroute o _
  · exact .refl _

/-! ## The daemon that is cleaned up -/

/-- The daemon before its routes are tried. -/
structure Connected (o : Outcomes) (c : Config) (s : System) (d : Daemon) : Prop where
  done : d.cleanup_done = false
  host : d.host_route_added = true ↔ EarlyCounted o s
  place : EarlyCounted o s → d.warp_ep_ip = c.endpoint_ip ∧ d.wifi_ifindex = o.ifindex
  replaced : d.default_route_replaced = false
  installed : d.installed = fun _ => false
  routes : d.system.routes = routesAtSetup o c s

theorem Connected.reached {d : Daemon} (h : Connected o c s d)
    (hlast : cleanup o c (cmd_warp_tunnel o c s) = cleanup o c d)
    (hhost : HostCounted o c s ↔ EarlyCounted o s) (hsplit : splitCounted o c s = [])
    (hdefault : ¬DefaultCounted o c s) : Reached o c s d where
  last := hlast
  done := h.done
  host := h.host.trans hhost.symm
  place hcounted := by
    obtain ⟨hip, hindex⟩ := h.place (hhost.mp hcounted)
    rw [hip, hindex]
    rfl
  replaced := by simp [h.replaced, hdefault]
  gateway hcounted := absurd hcounted hdefault
  installed j := by simp [h.installed, hsplit]
  hostRoute := by
    obtain ⟨route, hroute⟩ := routesAtSetup_host (o := o) (c := c) (s := s)
    refine ⟨route, ?_⟩
    rw [h.routes, hroute]
    exact if_congr hhost.symm rfl rfl
  networks key hkey := by
    unfold networksAdded
    rw [if_neg hdefault, hsplit, h.routes, routesAtSetup_networks hkey]
    rfl

theorem cleanup_again (o : Outcomes) (c : Config) (x : Int × Daemon) :
    cleanup o c (if x.1 < 0 then cleanup o c x.2 else x.2) = cleanup o c x.2 := by
  split_ifs
  · exact cleanup_cleanup o c x.2
  · rfl

theorem connected_start (hconnect : o.fails .connect = true) : Connected o c s
    (if c.kpatch then disable_scopedroute o { system := s } else { system := s }) := by
  obtain ⟨hrouting, hinst, hroutes⟩ := start_kept o c s
  generalize (if c.kpatch then disable_scopedroute o { system := s } else { system := s } : Daemon)
    = d at hrouting hinst hroutes ⊢
  have hearly : ¬EarlyCounted o s := fun h => by simp [h.1] at hconnect
  refine ⟨congrArg (·.cleanup_done) hrouting, ?_, fun h => absurd h hearly,
    congrArg (·.default_route_replaced) hrouting, hinst, ?_⟩
  · have hadded : d.host_route_added = false := congrArg (·.host_route_added) hrouting
    simp [hadded, hearly]
  · unfold routesAtSetup
    rw [if_neg hearly]
    exact hroutes

theorem connected_endpoint (hconnect : o.fails .connect = false) : Connected o c s
    (add_endpoint_route o c
      (if c.kpatch then disable_scopedroute o { system := s } else { system := s })) := by
  obtain ⟨hrouting, hinst, hroutes⟩ := start_kept o c s
  generalize (if c.kpatch then disable_scopedroute o { system := s } else { system := s } : Daemon)
    = d at hrouting hinst hroutes ⊢
  have hadded : d.host_route_added = false := congrArg (·.host_route_added) hrouting
  obtain ⟨hrouting', hhost, hinst', hroutes'⟩ := add_endpoint_route_spec o c d hadded
  have hearly : (nw_route_get_default_gateway (o.dump d.system.routes) ≠ INADDR_ANY
      ∧ o.ifindex ≠ 0 ∧ o.fails .preHandshakeHost = false) ↔ EarlyCounted o s := by
    rw [hroutes]
    simp [EarlyCounted, hconnect, earlyGateway]
  refine ⟨?_, hhost.trans hearly, fun _ => ⟨congrArg (·.warp_ep_ip) hrouting',
    congrArg (·.wifi_ifindex) hrouting'⟩, ?_, hinst'.trans hinst, ?_⟩
  · exact (congrArg (·.cleanup_done) hrouting').trans (congrArg (·.cleanup_done) hrouting)
  · exact (congrArg (·.default_route_replaced) hrouting').trans
      (congrArg (·.default_route_replaced) hrouting)
  · rw [hroutes', hroutes]
    rw [hroutes] at hearly
    exact if_congr hearly rfl rfl

theorem Connected.kept {d d' : Daemon} (h : Connected o c s d) (hkept : Daemon.Kept d d') :
    Connected o c s d' := by
  obtain ⟨hrouting, hinst, hroutes⟩ := hkept
  refine ⟨(congrArg (·.cleanup_done) hrouting).trans h.done, ?_, fun hearly =>
    ⟨(congrArg (·.warp_ep_ip) hrouting).trans (h.place hearly).1,
      (congrArg (·.wifi_ifindex) hrouting).trans (h.place hearly).2⟩,
    (congrArg (·.default_route_replaced) hrouting).trans h.replaced, hinst.trans h.installed,
    hroutes.trans h.routes⟩
  rw [show d'.host_route_added = d.host_route_added from congrArg (·.host_route_added) hrouting]
  exact h.host

/-- A run that gets to `setup_routing`. -/
theorem setup_last (hconnect : o.fails .connect = false) (hhandshake : o.fails .handshake = false) :
    ∃ d, Connected o c s d ∧ cleanup o c (cmd_warp_tunnel o c s)
      = cleanup o c (setup_routing o c (tunnelMtu c) d).2 := by
  have hconnected := connected_endpoint (c := c) (s := s) hconnect
  let d := add_endpoint_route o c
    (if c.kpatch then disable_scopedroute o { system := s } else { system := s })
  refine ⟨if c.split_mode then d else set_dns_warp o c d, ?_, ?_⟩
  · split_ifs
    · exact hconnected
    · exact hconnected.kept (.set_dns_warp o c _)
  · unfold cmd_warp_tunnel
    simp only [hconnect, hhandshake]
    exact cleanup_again o c _

theorem Connected.prepared {d d' : Daemon} (h : Connected o c s d) (hprepared : Prepared o c d d') :
    Connected o c s d' ∧ d'.orig_gw = foundGateway o c s
      ∧ d'.warp_gw = firstOfNet c.client_addr ∧ d'.warp_ep_ip = c.endpoint_ip
      ∧ d'.wifi_ifindex = o.ifindex := by
  obtain ⟨hrouting, hinst, hroutes⟩ := hprepared
  have hip : d'.warp_ep_ip = c.endpoint_ip := congrArg (·.warp_ep_ip) hrouting
  have hindex : d'.wifi_ifindex = o.ifindex := congrArg (·.wifi_ifindex) hrouting
  have hadded : d'.host_route_added = d.host_route_added :=
    congrArg (·.host_route_added) hrouting
  refine ⟨⟨(congrArg (·.cleanup_done) hrouting).trans h.done, hadded ▸ h.host,
    fun _ => ⟨hip, hindex⟩, (congrArg (·.default_route_replaced) hrouting).trans h.replaced,
    hinst.trans h.installed, hroutes.trans h.routes⟩, ?_, congrArg (·.warp_gw) hrouting, hip, hindex⟩
  rw [show d'.orig_gw = _ from congrArg (·.orig_gw) hrouting, h.routes]
  rfl

/-- The split mode, up to the first network that fails. -/
theorem reached_split (hsetup : SetUp o c s) (hsplit : c.split_mode = true) :
    ∃ d, Reached o c s d := by
  obtain ⟨d₀, hconnected, hlast⟩ := setup_last (c := c) (s := s) hsetup.1 hsetup.2.1
  have hgateway : nw_route_get_default_gateway (o.dump d₀.system.routes) ≠ INADDR_ANY := by
    rw [hconnected.routes]
    exact hsetup.2.2
  obtain ⟨d₁, hprepared, hadd⟩ := setup_split (tunnelMtu c) hgateway hsplit
  obtain ⟨h₁, -, hwarp, -, -⟩ := hconnected.prepared hprepared
  obtain ⟨d, hcleanup, hrouting, hinst, hroutes⟩ :=
    add_split_routes_spec o c (tunnelMtu c) 0 c.split_routes d₁
  have hhost : HostCounted o c s ↔ EarlyCounted o s := by simp [HostCounted, hsplit]
  have hdefault : ¬DefaultCounted o c s := by simp [DefaultCounted, hsplit]
  have hcounted : splitCounted o c s = counted o 0 c.split_routes := if_pos ⟨hsetup, hsplit⟩
  have hadditions : ∀ r, r ∉ (additions (counted o 0 c.split_routes) d₁.warp_gw
      (tunnelMtu c)).map Prod.fst ∨ r ≠ endpointKey o c := by
    intro r
    by_cases hr : r = endpointKey o c
    · refine .inl fun hmem => ?_
      simp only [additions, List.map_map, List.mem_map] at hmem
      obtain ⟨e, -, he⟩ := hmem
      exact networkKey_ne_endpoint e.2 (he.trans hr)
    · exact .inr hr
  have hadded : d.host_route_added = d₁.host_route_added :=
    congrArg (·.host_route_added) hrouting
  have hendpoint : hostKey d.warp_ep_ip d.wifi_ifindex = hostKey d₁.warp_ep_ip d₁.wifi_ifindex :=
    congrArg (fun g => hostKey g.warp_ep_ip g.wifi_ifindex) hrouting
  refine ⟨d, ⟨by rw [hlast, hadd, hcleanup], (congrArg (·.cleanup_done) hrouting).trans h₁.done,
    ?_, fun hcount => ?_, ?_, fun hcount => absurd hcount hdefault, fun j => ?_, ?_,
    fun key hkey => ?_⟩⟩
  · rw [hadded, hhost]
    exact h₁.host
  · obtain ⟨hip, hindex⟩ := h₁.place (hhost.mp hcount)
    rw [hendpoint, hip, hindex]
    rfl
  · rw [show d.default_route_replaced = false from
      (congrArg (·.default_route_replaced) hrouting).trans h₁.replaced]
    simp [hdefault]
  · rw [hinst, marked_iff, hcounted, h₁.installed]
    simp
  · obtain ⟨route, hroute⟩ := routesAtSetup_host (o := o) (c := c) (s := s)
    refine ⟨route, ?_⟩
    rw [hroutes, FallibleTable.insertAll_of_notMem _ ((hadditions _).resolve_right (by simp)),
      h₁.routes, hroute]
    exact if_congr hhost.symm rfl rfl
  · unfold networksAdded
    rw [if_neg hdefault, hcounted, hroutes, hwarp]
    exact FallibleTable.insertAll_congr _ (by rw [h₁.routes, routesAtSetup_networks hkey])

/-- The daemon with its host route, before the default. -/
structure HostThere (o : Outcomes) (c : Config) (s : System) (d : Daemon) : Prop where
  done : d.cleanup_done = false
  host : d.host_route_added = true
  place : hostKey d.warp_ep_ip d.wifi_ifindex = endpointKey o c
  replaced : d.default_route_replaced = false
  gateway : d.orig_gw = foundGateway o c s
  warp : d.warp_gw = firstOfNet c.client_addr
  installed : d.installed = fun _ => false
  hostRoute : ∃ route, d.system.routes (endpointKey o c)
    = FallibleTable.insert false (endpointKey o c) route s.routes (endpointKey o c)
  networks : ∀ key, key ≠ endpointKey o c → d.system.routes key = s.routes key

theorem HostThere.kept {d d' : Daemon} (h : HostThere o c s d) (hkept : Daemon.Kept d d') :
    HostThere o c s d' := by
  obtain ⟨hrouting, hinst, hroutes⟩ := hkept
  exact ⟨(congrArg (·.cleanup_done) hrouting).trans h.done,
    (congrArg (·.host_route_added) hrouting).trans h.host,
    (congrArg (fun g => hostKey g.warp_ep_ip g.wifi_ifindex) hrouting).trans h.place,
    (congrArg (·.default_route_replaced) hrouting).trans h.replaced,
    (congrArg (·.orig_gw) hrouting).trans h.gateway, (congrArg (·.warp_gw) hrouting).trans h.warp,
    hinst.trans h.installed, hroutes ▸ h.hostRoute, hroutes ▸ h.networks⟩

theorem insert_endpoint (route : Route) : ∃ route',
    FallibleTable.insert false (endpointKey o c) route (routesAtSetup o c s) (endpointKey o c)
      = FallibleTable.insert false (endpointKey o c) route' s.routes (endpointKey o c) := by
  unfold routesAtSetup
  split_ifs
  · exact ⟨_, congrFun (FallibleTable.insert_of_isSome FallibleTable.insert_isSome) _⟩
  · exact ⟨route, rfl⟩

theorem HostAdded.there {d d' : Daemon} (h : HostAdded d d') (hconnected : Connected o c s d)
    (hgateway : d.orig_gw = foundGateway o c s) (hwarp : d.warp_gw = firstOfNet c.client_addr)
    (hip : d.warp_ep_ip = c.endpoint_ip) (hindex : d.wifi_ifindex = o.ifindex) :
    HostThere o c s d' := by
  obtain ⟨hrouting, hinst, hroutes⟩ := h
  have hplace : hostKey d.warp_ep_ip d.wifi_ifindex = endpointKey o c := by
    rw [hip, hindex]
    rfl
  rw [hplace, hconnected.routes] at hroutes
  refine ⟨(congrArg (·.cleanup_done) hrouting).trans hconnected.done,
    congrArg (·.host_route_added) hrouting,
    (congrArg (fun g => hostKey g.warp_ep_ip g.wifi_ifindex) hrouting).trans hplace,
    (congrArg (·.default_route_replaced) hrouting).trans hconnected.replaced,
    (congrArg (·.orig_gw) hrouting).trans hgateway, (congrArg (·.warp_gw) hrouting).trans hwarp,
    hinst.trans hconnected.installed, ?_, fun key hkey => ?_⟩
  · rw [hroutes]
    exact insert_endpoint _
  · rw [hroutes, FallibleTable.insert_of_ne hkey, routesAtSetup_networks hkey]

theorem HostThere.reached {d : Daemon} (h : HostThere o c s d)
    (hlast : cleanup o c (cmd_warp_tunnel o c s) = cleanup o c d) (hhost : HostCounted o c s)
    (hsplit : splitCounted o c s = []) (hdefault : ¬DefaultCounted o c s) : Reached o c s d where
  last := hlast
  done := h.done
  host := by simp [h.host, hhost]
  place _ := h.place
  replaced := by simp [h.replaced, hdefault]
  gateway hcounted := absurd hcounted hdefault
  installed j := by simp [h.installed, hsplit]
  hostRoute := by
    obtain ⟨route, hroute⟩ := h.hostRoute
    exact ⟨route, hroute.trans (if_pos hhost).symm⟩
  networks key hkey := by
    unfold networksAdded
    rw [if_neg hdefault, hsplit, h.networks key hkey]
    rfl

theorem defaultKey_ne_endpoint : endpointKey o c ≠ defaultKey :=
  (networkKey_ne_endpoint (0, 0)).symm

theorem DefaultReplaced.reached {d d' : Daemon} (h : DefaultReplaced o (tunnelMtu c) d d')
    (hthere : HostThere o c s d)
    (hlast : cleanup o c (cmd_warp_tunnel o c s) = cleanup o c d') (hhost : HostCounted o c s)
    (hsplit : splitCounted o c s = []) (hdefault : DefaultCounted o c s) : Reached o c s d' := by
  obtain ⟨hrouting, hinst, hroutes⟩ := h
  refine ⟨hlast, (congrArg (·.cleanup_done) hrouting).trans hthere.done, ?_, fun _ =>
    (congrArg (fun g => hostKey g.warp_ep_ip g.wifi_ifindex) hrouting).trans hthere.place, ?_,
    fun _ => (congrArg (·.orig_gw) hrouting).trans hthere.gateway, fun j => ?_, ?_,
    fun key hkey => ?_⟩
  · rw [show d'.host_route_added = true from
      (congrArg (·.host_route_added) hrouting).trans hthere.host]
    simp [hhost]
  · rw [show d'.default_route_replaced = true from congrArg (·.default_route_replaced) hrouting]
    simp [hdefault]
  · rw [hinst, hthere.installed, hsplit]
    simp
  · obtain ⟨route, hroute⟩ := hthere.hostRoute
    refine ⟨route, ?_⟩
    rw [if_pos hhost, hroutes, FallibleTable.insert_of_ne defaultKey_ne_endpoint,
      FallibleTable.erase_of_ne defaultKey_ne_endpoint, hroute]
  · unfold networksAdded
    rw [if_pos hdefault, hroutes, hthere.warp]
    exact FallibleTable.insert_congr (FallibleTable.erase_congr (hthere.networks key hkey))

/-- The full mode, in each way it ends. -/
theorem reached_full (hsetup : SetUp o c s) (hfull : c.split_mode = false) :
    ∃ d, Reached o c s d := by
  obtain ⟨d₀, hconnected, hlast⟩ := setup_last (c := c) (s := s) hsetup.1 hsetup.2.1
  have hgateway : nw_route_get_default_gateway (o.dump d₀.system.routes) ≠ INADDR_ANY := by
    rw [hconnected.routes]
    exact hsetup.2.2
  obtain ⟨d₁, hprepared, hadd⟩ := setup_full (c := c) (tunnelMtu c) hgateway
    (by simp [hfull])
  obtain ⟨h₁, hgw, hwarp, hip, hindex⟩ := hconnected.prepared hprepared
  have hsplit : splitCounted o c s = [] := if_neg (by simp [hfull])
  rw [hadd] at hlast
  rcases hhostFails : o.fails .host with _ | _
  · have hhost : HostCounted o c s := .inr ⟨hsetup, hfull, hhostFails⟩
    obtain ⟨d₂, hadded, hrest⟩ := full_host_added (c := c) (d := d₁) (tunnelMtu c) hhostFails
    have hthere := hadded.there h₁ hgw hwarp hip hindex
    rw [hrest] at hlast
    rcases hsurgery : c.surgery with _ | _
    · have hdefault : ¬DefaultCounted o c s := by simp [DefaultCounted, hsurgery]
      rw [hsurgery] at hlast
      exact ⟨d₂, hthere.reached hlast hhost hsplit hdefault⟩
    rw [if_pos hsurgery] at hlast
    rcases hdeleteFails : o.fails .deleteDefault with _ | _
    · have hdefault : DefaultCounted o c s := ⟨hsetup, hfull, hhostFails, hsurgery, hdeleteFails⟩
      obtain ⟨d₃, hcleanup, hreplaced⟩ := replace_replaced (c := c) (d := d₂) (tunnelMtu c)
        hdeleteFails
      exact ⟨d₃, hreplaced.reached hthere (hlast.trans hcleanup) hhost hsplit hdefault⟩
    · have hdefault : ¬DefaultCounted o c s := by simp [DefaultCounted, hdeleteFails]
      obtain ⟨d₃, hcleanup, hkept⟩ := replace_failed (c := c) (d := d₂) (tunnelMtu c)
        hdeleteFails
      exact ⟨d₃, (hthere.kept hkept).reached (hlast.trans hcleanup) hhost hsplit hdefault⟩
  · have hhost : HostCounted o c s ↔ EarlyCounted o s := by simp [HostCounted, hhostFails]
    have hdefault : ¬DefaultCounted o c s := by simp [DefaultCounted, hhostFails]
    obtain ⟨d₂, hfailed, hkept⟩ := full_host_failed (c := c) (d := d₁) (tunnelMtu c)
      hhostFails
    rw [hfailed] at hlast
    exact ⟨d₂, (h₁.kept hkept).reached hlast hhost hsplit hdefault⟩

/-- Whatever fails, the routes that are counted are known. -/
theorem reached (o : Outcomes) (c : Config) (s : System) : ∃ d, Reached o c s d := by
  by_cases hsetup : SetUp o c s
  · rcases hmode : c.split_mode with _ | _
    · exact reached_full hsetup hmode
    · exact reached_split hsetup hmode
  have hhost : HostCounted o c s ↔ EarlyCounted o s := by simp [HostCounted, hsetup]
  have hsplit : splitCounted o c s = [] := if_neg (by simp [hsetup])
  have hdefault : ¬DefaultCounted o c s := by simp [DefaultCounted, hsetup]
  rcases hconnect : o.fails .connect with _ | _
  · rcases hhandshake : o.fails .handshake with _ | _
    · obtain ⟨d, hconnected, hlast⟩ := setup_last (c := c) (s := s) hconnect hhandshake
      have hgateway : nw_route_get_default_gateway (o.dump d.system.routes) = INADDR_ANY := by
        rw [hconnected.routes]
        by_contra hne
        exact hsetup ⟨hconnect, hhandshake, hne⟩
      rw [setup_no_gateway _ hgateway] at hlast
      refine ⟨_, Connected.reached ?_ hlast hhost hsplit hdefault⟩
      exact ⟨hconnected.done, hconnected.host, hconnected.place, hconnected.replaced,
        hconnected.installed, hconnected.routes⟩
    · refine ⟨_, (connected_endpoint hconnect).reached ?_ hhost hsplit hdefault⟩
      unfold cmd_warp_tunnel
      simp only [hconnect, hhandshake]
      exact cleanup_cleanup o c _
  · refine ⟨_, (connected_start hconnect).reached ?_ hhost hsplit hdefault⟩
    unfold cmd_warp_tunnel
    simp only [hconnect]
    exact cleanup_cleanup o c _

/-! ## What comes back -/

theorem Reached.eraseSplit {d : Daemon} (h : Reached o c s d) (t : RouteTable) :
    eraseSplit o 0 c.split_routes d.installed t = eraseAll (removals o (splitCounted o c s)) t := by
  have hinstalled := h.installed
  unfold splitCounted at hinstalled ⊢
  by_cases hsplit : SetUp o c s ∧ c.split_mode = true
  · rw [if_pos hsplit] at hinstalled ⊢
    exact eraseSplit_counted o 0 c.split_routes d.installed t fun j _ => hinstalled j
  · rw [if_neg hsplit] at hinstalled ⊢
    exact eraseSplit_none o 0 c.split_routes d.installed t fun j _ => by
      rw [← Bool.not_eq_true, hinstalled j]
      simp

variable (o c s)

/-- The default route is taken back among the networks. -/
def networksBack : RouteTable :=
  if DefaultCounted o c s then
    FallibleTable.insert (o.fails .cleanupAddDefault) defaultKey
      (throughGateway (foundGateway o c s) 0)
      (erase (o.fails .cleanupDeleteDefault) defaultKey (networksAdded o c s))
  else eraseAll (removals o (splitCounted o c s)) (networksAdded o c s)

variable {o c s}

theorem removals_network {key : RouteKey} {fails : Bool}
    (h : (key, fails) ∈ removals o (splitCounted o c s)) : key ≠ endpointKey o c := by
  obtain ⟨e, -, he⟩ := List.mem_map.mp h
  obtain rfl : networkKey e.2 = key := congrArg Prod.fst he
  exact networkKey_ne_endpoint e.2

theorem additions_network {gateway : in_addr} {mtu : Int} :
    endpointKey o c ∉ (additions (splitCounted o c s) gateway mtu).map Prod.fst := by
  intro hmem
  simp only [additions, List.map_map, List.mem_map] at hmem
  obtain ⟨e, -, he⟩ := hmem
  exact networkKey_ne_endpoint e.2 he

theorem DefaultCounted.noSplit (h : DefaultCounted o c s) : splitCounted o c s = [] :=
  if_neg (by simp [h.2.1])

/-- The cleanup, away from the route to the endpoint. -/
theorem routes_networks {key : RouteKey} (hkey : key ≠ endpointKey o c) :
    (cleanup o c (cmd_warp_tunnel o c s)).system.routes key = networksBack o c s key := by
  obtain ⟨d, h⟩ := reached o c s
  rw [h.last, (cleanup_spec o c h.done).2]
  unfold takeBack networksBack
  rw [h.eraseSplit]
  have hhost : ∀ t : RouteTable, (if d.routing.host_route_added then
      erase (o.fails .cleanupHost) (hostKey d.routing.warp_ep_ip d.routing.wifi_ifindex) t
      else t) key = t key := by
    intro t
    split_ifs with hadded
    · exact FallibleTable.erase_of_ne (by rw [show hostKey d.routing.warp_ep_ip
        d.routing.wifi_ifindex = endpointKey o c from h.place (h.host.mp hadded)]; exact hkey)
    · rfl
  rw [hhost]
  by_cases hdefault : DefaultCounted o c s
  · have hreplaced : d.routing.default_route_replaced = true := h.replaced.mpr hdefault
    rw [if_pos hreplaced, if_pos hdefault, hdefault.noSplit,
      show d.routing.orig_gw = foundGateway o c s from h.gateway hdefault]
    exact FallibleTable.insert_congr (FallibleTable.erase_congr (h.networks key hkey))
  · have hreplaced : ¬d.routing.default_route_replaced = true := fun hr =>
      hdefault (h.replaced.mp hr)
    rw [if_neg hreplaced, if_neg hdefault]
    exact FallibleTable.eraseAll_congr _ (h.networks key hkey)

/-- The route to the endpoint comes back where the cleanup's removal is what it needs. -/
theorem routes_host_iff :
    (cleanup o c (cmd_warp_tunnel o c s)).system.routes (endpointKey o c)
        = s.routes (endpointKey o c)
      ↔ (HostCounted o c s →
          (s.routes (endpointKey o c) = none ↔ o.fails .cleanupHost = false)) := by
  obtain ⟨d, h⟩ := reached o c s
  rw [h.last, (cleanup_spec o c h.done).2]
  unfold takeBack
  rw [h.eraseSplit]
  set t := eraseAll (removals o (splitCounted o c s)) _ with ht
  have hsame : t (endpointKey o c) = d.system.routes (endpointKey o c) := by
    rw [ht, FallibleTable.eraseAll_of_notMem _ fun hmem => removals_network hmem rfl]
    split_ifs
    · rw [FallibleTable.insert_of_ne defaultKey_ne_endpoint,
        FallibleTable.erase_of_ne defaultKey_ne_endpoint]
    · rfl
  obtain ⟨route, hroute⟩ := h.hostRoute
  by_cases hhost : HostCounted o c s
  · have hadded : d.routing.host_route_added = true := h.host.mpr hhost
    rw [if_pos hadded, show hostKey d.routing.warp_ep_ip d.routing.wifi_ifindex
      = endpointKey o c from h.place hhost]
    rw [if_pos hhost] at hroute
    rw [FallibleTable.erase_congr (hsame.trans hroute), FallibleTable.erase_insert_self_iff]
    exact ⟨fun hiff _ => hiff, fun hiff => hiff hhost⟩
  · have hadded : ¬d.routing.host_route_added = true := fun hr => hhost (h.host.mp hr)
    rw [if_neg hadded, hsame, hroute, if_neg hhost]
    exact ⟨fun _ hcounted => absurd hcounted hhost, fun _ => rfl⟩

theorem networksBack_default (h : DefaultCounted o c s) : networksBack o c s defaultKey
    = if o.fails .cleanupDeleteDefault = true ∧ o.fails .addDefault = false then
        some (throughGateway (firstOfNet c.client_addr) (tunnelMtu c))
      else if o.fails .cleanupAddDefault = true then none
      else some (throughGateway (foundGateway o c s) 0) := by
  unfold networksBack networksAdded
  rw [if_pos h, if_pos h]
  unfold FallibleTable.insert erase
  cases o.fails .cleanupDeleteDefault <;> cases o.fails .addDefault
    <;> cases o.fails .cleanupAddDefault <;> simp

theorem networksBack_iff : (∀ key, key ≠ endpointKey o c → networksBack o c s key = s.routes key)
    ↔ (∀ e ∈ splitCounted o c s,
        s.routes (networkKey e.2) = none ↔ (networkKey e.2, false) ∈ removals o (splitCounted o c s))
      ∧ (DefaultCounted o c s → networksBack o c s defaultKey = s.routes defaultKey) := by
  by_cases hdefault : DefaultCounted o c s
  · rw [hdefault.noSplit]
    refine ⟨fun h => ⟨by simp, fun _ => h defaultKey defaultKey_ne_endpoint.symm⟩,
      fun ⟨_, h⟩ key hkey => ?_⟩
    by_cases hd : key = defaultKey
    · rw [hd, h hdefault]
    · unfold networksBack networksAdded
      rw [if_pos hdefault, if_pos hdefault, FallibleTable.insert_of_ne hd,
        FallibleTable.erase_of_ne hd, FallibleTable.insert_of_ne hd, FallibleTable.erase_of_ne hd]
  · set entries := additions (splitCounted o c s) (firstOfNet c.client_addr) (tunnelMtu c)
      with hentries
    have hback : networksBack o c s
        = eraseAll (removals o (splitCounted o c s)) (insertAll entries s.routes) := by
      unfold networksBack networksAdded
      rw [if_neg hdefault, if_neg hdefault]
    have hends : networksBack o c s (endpointKey o c) = s.routes (endpointKey o c) := by
      rw [hback, FallibleTable.eraseAll_of_notMem _ fun hmem => removals_network hmem rfl,
        FallibleTable.insertAll_of_notMem _ additions_network]
    have hkeys : ∀ r ∈ removals o (splitCounted o c s), r.1 ∈ entries.map Prod.fst := by
      intro r hr
      obtain ⟨e, he, rfl⟩ := List.mem_map.mp hr
      rw [hentries]
      unfold additions
      rw [List.map_map]
      exact List.mem_map_of_mem (f := Prod.fst ∘ _) he
    have hall := FallibleTable.eraseAll_insertAll_iff (t := s.routes) entries
      (removals o (splitCounted o c s)) hkeys
    rw [← hback, hentries] at hall
    simp only [additions, List.forall_mem_map] at hall
    rw [← hall]
    refine ⟨fun h => ⟨?_, fun hd => absurd hd hdefault⟩, fun ⟨h, _⟩ key _ => by rw [h]⟩
    funext key
    by_cases hkey : key = endpointKey o c
    · rw [hkey, hends]
    · exact h key hkey

/-- The route to the endpoint was not there before and is removed, or was and is not. -/
def HostKept (o : Outcomes) (c : Config) (s : System) : Prop :=
  HostCounted o c s → (s.routes (endpointKey o c) = none ↔ o.fails .cleanupHost = false)

/-- A network that counts as added was not there before, and one of its removals succeeds, or it was
and none does. -/
def SplitKept (o : Outcomes) (c : Config) (s : System) : Prop :=
  ∀ e ∈ splitCounted o c s, s.routes (networkKey e.2) = none
    ↔ ∃ e' ∈ splitCounted o c s, e'.2 = e.2 ∧ o.fails (.cleanupSplitRoute e'.1) = false

/-- The default route was what the failures leave: the plain one through the gateway it had, unless
that cannot be added or the tunnel's own cannot be removed. -/
def DefaultKept (o : Outcomes) (c : Config) (s : System) : Prop :=
  DefaultCounted o c s → s.routes defaultKey
    = if o.fails .cleanupDeleteDefault = true ∧ o.fails .addDefault = false then
        some (throughGateway (firstOfNet c.client_addr) (tunnelMtu c))
      else if o.fails .cleanupAddDefault = true then none
      else some (throughGateway (foundGateway o c s) 0)

theorem removals_iff {r : in_addr × in_addr} :
    (networkKey r, false) ∈ removals o (splitCounted o c s)
      ↔ ∃ e ∈ splitCounted o c s, e.2 = r ∧ o.fails (.cleanupSplitRoute e.1) = false := by
  unfold removals
  rw [List.mem_map]
  refine exists_congr fun e => and_congr_right fun _ => ?_
  rw [Prod.mk.injEq]
  refine and_congr_left fun _ => ⟨fun h => ?_, fun h => by rw [h]⟩
  unfold networkKey at h
  injection h with hdst hmask
  exact Prod.ext hdst hmask

/-- The cleanup gives back the routing table exactly where each route that counts as added was free
before, and the default was already a plain one. -/
theorem routes_restored_iff (o : Outcomes) (c : Config) (s : System) :
    (cleanup o c (cmd_warp_tunnel o c s)).system.routes = s.routes
      ↔ HostKept o c s ∧ SplitKept o c s ∧ DefaultKept o c s := by
  have hsplit : SplitKept o c s ↔ ∀ e ∈ splitCounted o c s, s.routes (networkKey e.2) = none
      ↔ (networkKey e.2, false) ∈ removals o (splitCounted o c s) :=
    forall₂_congr fun e _ => iff_congr Iff.rfl removals_iff.symm
  have hdefault : DefaultKept o c s
      ↔ (DefaultCounted o c s → networksBack o c s defaultKey = s.routes defaultKey) :=
    forall_congr' fun h => by rw [networksBack_default h, eq_comm]
  rw [hsplit, hdefault, ← networksBack_iff, HostKept, ← routes_host_iff, funext_iff]
  constructor
  · exact fun h => ⟨h _, fun key hkey => (routes_networks hkey).symm.trans (h key)⟩
  · rintro ⟨hhost, hnetworks⟩ key
    by_cases hkey : key = endpointKey o c
    · rw [hkey, hhost]
    · rw [routes_networks hkey, hnetworks key hkey]

end Counted

/-! ## A network that was routed before -/

/-- A split tunnel to an endpoint over the first interface. -/
def splitTunnel : Config where
  endpoint_ip := 0xa29fc001
  client_ip := "172.16.0.2"
  client_addr := 0xac100002
  dns_ip := "1.1.1.1"
  mtu := 1280
  active_ifname := "en0"
  split_mode := true
  split_routes := [(0x959aa000, 0xfffff000)]
  surgery := false
  kpatch := false

/-- Nothing fails. -/
def allSucceed : Outcomes where
  fails _ := false
  dump t := [defaultKey, .host 0xa29fc001 1, networkKey (0x959aa000, 0xfffff000)].filterMap
    fun key => (t key).map (key, ·)
  ifindex := 1
  wifi_ip := some 0xc0a80117

/-- A default route, and a network that goes through another gateway. -/
def routedBefore : System where
  routes key :=
    if key = defaultKey then some (throughGateway 0xc0a80101 0)
    else if key = networkKey (0x959aa000, 0xfffff000) then some (throughGateway 0xc0a801fe 0)
    else none
  scopedroute := 1
  resolv_conf := none
  store _ := none

theorem routedBefore_not_restored :
    routedBefore.routes (networkKey (0x959aa000, 0xfffff000))
        = some (throughGateway 0xc0a801fe 0)
      ∧ (cleanup allSucceed splitTunnel (cmd_warp_tunnel allSucceed splitTunnel routedBefore)
          ).system.routes (networkKey (0x959aa000, 0xfffff000)) = none := by
  decide +kernel

end NekroWarp

end Onegram
