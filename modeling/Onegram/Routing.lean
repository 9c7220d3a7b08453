import Mathlib.Tactic
import Onegram.DynamicStore

/-!
# Routing of the tunnel

What `cmd_warp_tunnel` and `setup_routing` change of the system, what `cleanup` takes back, and what
`force_restore_routing` does for a daemon that did not get to its cleanup. Every change is logged,
so that a daemon can be killed between any two.

The kernel finds a route by its destination, its mask and the interface it is scoped to, and not by
its gateway. Which calls fail, the order it lists its routes in and the addresses of the interfaces
are parameters. The pid, ready and split files are not read here; the scoped default of Wi-Fi and
the IPv6 default of the tunnel are never added.
-/

namespace Onegram

namespace NekroWarp

/-! ## The system -/

/-- An address in host order. -/
abbrev in_addr := UInt32

def INADDR_ANY : in_addr := 0

inductive Gateway where
  | inet (addr : in_addr)
  | link
deriving DecidableEq, Repr

structure Route where
  gateway : Gateway
  flags : UInt32
  mtu : Int
deriving DecidableEq, Repr

inductive RouteKey where
  | host (dst : in_addr) (ifscope : ℕ)
  | network (dst mask : in_addr) (ifscope : ℕ)
  | default6
deriving DecidableEq, Repr

abbrev RouteTable := RouteKey → Option Route

abbrev Text := List Char

/-- The files in `/tmp` are what is read back from them; a file that is empty is none. -/
structure System where
  routes : RouteTable
  scopedroute : Int
  resolv_conf : Option Text
  store : SCStore
  orig_gw : Option in_addr := none
  orig_dns : Option Text := none
  scopedroute_old : Option Int := none

inductive Change where
  | route (key : RouteKey) (value : Option Route)
  | scopedroute (value : Int)
  | resolv_conf (text : Option Text)
  | store (key : SCKey) (value : Option CFDictionary)
  | orig_gw (gw : Option in_addr)
  | orig_dns (dns : Option Text)
  | scopedroute_old (value : Option Int)

def Change.apply (s : System) : Change → System
  | .route key value => { s with routes := Function.update s.routes key value }
  | .scopedroute value => { s with scopedroute := value }
  | .resolv_conf text => { s with resolv_conf := text }
  | .store key value => { s with store := Function.update s.store key value }
  | .orig_gw gw => { s with orig_gw := gw }
  | .orig_dns dns => { s with orig_dns := dns }
  | .scopedroute_old value => { s with scopedroute_old := value }

/-- The calls that can fail. -/
inductive Site where
  | sysctlRead | sysctlWrite | kernelAddress | kernelRead | kernelWrite | scopedrouteFile
  | connect | preHandshakeHost | handshake | origDnsFile | resolvConf | setDns
  | origGwFile | splitRoute (i : ℕ) | setPrimary | host | deleteDefault | addDefault
  | cleanupDns | cleanupResolvConf | cleanupDeleteDefault | cleanupAddDefault
  | cleanupSplitRoute (i : ℕ) | cleanupHost | cleanupPrimary | cleanupScopedroute
  | stopDeleteDefault | stopAddDefault | stopDelete6 | stopResolvConf | stopSysctl | stopKernel
deriving DecidableEq, Repr

structure Outcomes where
  fails : Site → Bool
  /-- The routes with a gateway, in the order the kernel lists them. -/
  dump : RouteTable → List (RouteKey × Route)
  /-- `if_nametoindex` of `en0`, or else of `en1`. -/
  ifindex : ℕ
  wifi_ip : Option in_addr

structure Config where
  endpoint_ip : in_addr
  client_ip : String
  /-- What `inet_aton` makes of it. -/
  client_addr : in_addr
  dns_ip : String
  mtu : Int
  active_ifname : String
  split_mode : Bool
  split_routes : List (in_addr × in_addr)
  surgery : Bool
  kpatch : Bool

/-- The globals of the daemon, and what it has changed so far. -/
structure Daemon where
  system : System
  log : List Change := []
  orig_gw : in_addr := 0
  warp_gw : in_addr := 0
  warp_ep_ip : in_addr := 0
  wifi_ifindex : ℕ := 0
  orig_dns : Text := []
  host_route_added : Bool := false
  default_route_replaced : Bool := false
  installed : ℕ → Bool := fun _ => false
  dns_changed : Bool := false
  scope_primary_set : Bool := false
  scopedroute_changed : Bool := false
  scopedroute_old : Int := 1
  /-- `g_scopedroute_kaddr` is known. -/
  scopedroute_kaddr : Bool := false
  cleanup_done : Bool := false

namespace Daemon

def make (d : Daemon) (c : Change) : Daemon :=
  { d with system := c.apply d.system, log := d.log ++ [c] }

def makeAll (d : Daemon) (cs : List Change) : Daemon := cs.foldl make d

end Daemon

/-! ## Routes -/

def RTF_UP : UInt32 := 0x1
def RTF_GATEWAY : UInt32 := 0x2
def RTF_HOST : UInt32 := 0x4
def RTF_STATIC : UInt32 := 0x800
def RTF_IFSCOPE : UInt32 := 0x1000000

inductive RouteOp where
  | RTM_ADD
  | RTM_DELETE
deriving DecidableEq, Repr

inductive Errno where
  | EEXIST
  | ESRCH
  | other
deriving DecidableEq, Repr

def RouteKey.dst : RouteKey → Option in_addr
  | .host dst _ => some dst
  | .network dst _ _ => some dst
  | .default6 => none

def nw_route_get_default_gateway (dump : List (RouteKey × Route)) : in_addr :=
  (dump.findSome? fun (key, route) =>
    if key.dst = some INADDR_ANY then
      match route.gateway with
      | .inet addr => some addr
      | .link => none
    else none).getD INADDR_ANY

/-- The key of a message: a host route has no mask. -/
def routeKey (flags : UInt32) (dst mask : in_addr) (ifscope : ℕ) : RouteKey :=
  if flags &&& RTF_HOST ≠ 0 then .host dst (ifscope % 65536)
  else .network dst mask (ifscope % 65536)

def sentRoute (flags : UInt32) (gateway : in_addr) (ifscope : ℕ) (mtu : Int) : Route where
  gateway := .inet gateway
  flags := flags ||| RTF_UP ||| RTF_STATIC ||| (if ifscope = 0 then 0 else RTF_IFSCOPE)
  mtu := if 0 < mtu then mtu else 0

/-- The kernel's answer to a message, with the error of a negative result. -/
def route_answer (fails : Bool) (op : RouteOp) (key : RouteKey) (route : Route) (d : Daemon) :
    Option Errno × Daemon :=
  if fails then (some .other, d)
  else
    match op with
    | .RTM_ADD =>
      if (d.system.routes key).isSome then (some .EEXIST, d)
      else (none, d.make (.route key (some route)))
    | .RTM_DELETE =>
      if (d.system.routes key).isSome then (none, d.make (.route key none))
      else (some .ESRCH, d)

def nw_route_send (fails : Bool) (op : RouteOp) (flags : UInt32) (dst mask gateway : in_addr)
    (ifscope : ℕ) (mtu : Int) (d : Daemon) : Option Errno × Daemon :=
  route_answer fails op (routeKey flags dst mask ifscope) (sentRoute flags gateway ifscope mtu) d

def nw_route_add_host (fails : Bool) (dst gateway : in_addr) (ifindex : ℕ) (d : Daemon) :=
  nw_route_send fails .RTM_ADD (RTF_HOST ||| RTF_GATEWAY) dst 0xffffffff gateway ifindex 0 d

def nw_route_delete_host (fails : Bool) (dst gateway : in_addr) (ifindex : ℕ) (d : Daemon) :=
  nw_route_send fails .RTM_DELETE (RTF_HOST ||| RTF_GATEWAY) dst 0xffffffff gateway ifindex 0 d

def nw_route_add_network (fails : Bool) (dst mask gateway : in_addr) (mtu : Int) (d : Daemon) :=
  nw_route_send fails .RTM_ADD RTF_GATEWAY dst mask gateway 0 mtu d

def nw_route_delete_network (fails : Bool) (dst mask gateway : in_addr) (d : Daemon) :=
  nw_route_send fails .RTM_DELETE RTF_GATEWAY dst mask gateway 0 0 d

def nw_route_add_default (fails : Bool) (gateway : in_addr) (mtu : Int) (d : Daemon) :=
  nw_route_send fails .RTM_ADD RTF_GATEWAY 0 0 gateway 0 mtu d

def nw_route_delete_default (fails : Bool) (gateway : in_addr) (d : Daemon) :=
  nw_route_send fails .RTM_DELETE RTF_GATEWAY 0 0 gateway 0 0 d

/-- `nw_route_delete_default_v6`, of the gateway `::`. -/
def nw_route_delete_default_v6 (fails : Bool) (d : Daemon) : Option Errno × Daemon :=
  route_answer fails .RTM_DELETE .default6 ⟨.link, RTF_GATEWAY ||| RTF_UP ||| RTF_STATIC, 0⟩ d

/-! ## The resolver's file -/

/-- What `fgets` gives from here on, with room for so many characters more in its buffer. -/
def fgetsLines (size : ℕ) : ℕ → Text → Text → List Text
  | _, line, [] => if line = [] then [] else [line.reverse]
  | room, line, c :: text =>
    if c = '\n' ∨ room ≤ 1 then (c :: line).reverse :: fgetsLines size (size - 1) [] text
    else fgetsLines size (room - 1) (c :: line) text

def isBlank (c : Char) : Bool := c = ' ' || c = '\t'

/-- The name server of a line. -/
def nameserver (line : Text) : Option Text :=
  let p := line.dropWhile isBlank
  if p.take 10 ≠ "nameserver".toList then none
  else if (p.drop 10).head?.all (!isBlank ·) then none
  else
    let p := (p.drop 10).dropWhile isBlank
    let p := (p.reverse.dropWhile fun c => isBlank c || c = '\n' || c = '\r').reverse
    if p = [] then none else some p

/-- `save_original_dns`, with what `orig_dns` takes. -/
def save_original_dns (resolv_conf : Option Text) : Text :=
  match resolv_conf with
  | none => []
  | some text =>
    (List.intercalate [' '] ((fgetsLines 256 255 [] text).filterMap nameserver)).take 255

/-- What `write_resolv_conf` writes. -/
def resolvConf (dns_list : Text) : Text :=
  (tokens (dns_list.take 255)).flatMap fun tok => "nameserver ".toList ++ tok ++ ['\n']

def write_resolv_conf (fails : Bool) (dns_list : Text) (d : Daemon) : Daemon :=
  if fails then d
  else (d.make (.resolv_conf (some []))).make (.resolv_conf (some (resolvConf dns_list)))

def unlink_resolv_conf (fails : Bool) (d : Daemon) : Daemon :=
  if fails then d else d.make (.resolv_conf none)

/-! ## Writes to the store -/

/-- A session with the store, one write at a time. -/
def Daemon.scope (fails : Bool) (writes : SCStore → List (SCKey × Option CFDictionary))
    (d : Daemon) : Daemon :=
  if fails then d
  else d.makeAll ((writes d.system.store).map fun w => .store w.1 w.2)

def setPrimaryWrites (ifname addr router : String) (store : SCStore) :
    List (SCKey × Option CFDictionary) :=
  let setup := store (.globalIPv4 .Setup)
  let order := NW_SERVICE_ID :: stripped ((setup.bind (·.ServiceOrder)).getD [])
  [(.serviceIPv4 .State NW_LEGACY_ID, none),
    (.serviceIPv4 .State NW_SERVICE_ID, some (serviceState ifname addr router)),
    (.serviceIPv4 .Setup NW_SERVICE_ID, some (serviceSetup addr router)),
    (.interfaceIPv4 ifname, some .empty),
    (.globalIPv4 .Setup, some { setup.getD .empty with ServiceOrder := some order })]

def restoreWrites (store : SCStore) : List (SCKey × Option CFDictionary) :=
  [(.serviceIPv4 .State NW_SERVICE_ID, none), (.serviceIPv4 .Setup NW_SERVICE_ID, none),
    (.serviceIPv4 .State NW_LEGACY_ID, none)]
  ++ match store (.globalIPv4 .Setup) with
    | none => []
    | some setup => [(.globalIPv4 .Setup,
        some { setup with ServiceOrder := setup.ServiceOrder.map stripped })]

def setDnsWrites (csv : String) (store : SCStore) : List (SCKey × Option CFDictionary) :=
  (match primaryService store with
    | none => []
    | some service => [(.backup, some ((store (.serviceDNS service)).getD .empty))])
  ++ (match store .globalDNS with
    | none => []
    | some orig_global_dns => [(.backupGlobal, some orig_global_dns)])
  ++ (match primaryService store with
    | none => []
    | some service => [(.serviceDNS service, some (dnsDictionary csv))])
  ++ [(.globalDNS, some (dnsDictionary csv))]

def restoreDnsWrites (store : SCStore) : List (SCKey × Option CFDictionary) :=
  (match primaryService store, store .backup with
    | some service, some orig_dns =>
      [(.serviceDNS service, if 0 < orig_dns.count then some orig_dns else none)]
    | _, _ => [])
  ++ [(.globalDNS, store .backupGlobal), (.backup, none), (.backupGlobal, none)]

/-! ## Taking back -/

def delete_split_routes (o : Outcomes) : ℕ → List (in_addr × in_addr) → Daemon → Daemon
  | _, [], d => d
  | i, (network, mask) :: rest, d =>
    if d.installed i then
      let d := (nw_route_delete_network (o.fails (.cleanupSplitRoute i)) network mask d.warp_gw d).2
      delete_split_routes o (i + 1) rest { d with installed := Function.update d.installed i false }
    else delete_split_routes o (i + 1) rest d

def cleanup_dns (o : Outcomes) (d : Daemon) : Daemon :=
  if d.dns_changed then
    let d := d.scope (o.fails .cleanupDns) restoreDnsWrites
    if d.orig_dns ≠ [] then write_resolv_conf (o.fails .cleanupResolvConf) d.orig_dns d
    else unlink_resolv_conf (o.fails .cleanupResolvConf) d
  else d

def cleanup_default (o : Outcomes) (d : Daemon) : Daemon :=
  if d.default_route_replaced then
    let d := (nw_route_delete_default (o.fails .cleanupDeleteDefault) d.warp_gw d).2
    (nw_route_add_default (o.fails .cleanupAddDefault) d.orig_gw 0 d).2
  else d

def cleanup_host (o : Outcomes) (d : Daemon) : Daemon :=
  if d.host_route_added then
    (nw_route_delete_host (o.fails .cleanupHost) d.warp_ep_ip d.orig_gw d.wifi_ifindex d).2
  else d

def cleanup_primary (o : Outcomes) (d : Daemon) : Daemon :=
  if d.scope_primary_set then
    { d.scope (o.fails .cleanupPrimary) restoreWrites with scope_primary_set := false }
  else d

def cleanup_scopedroute (o : Outcomes) (d : Daemon) : Daemon :=
  if d.scopedroute_changed then
    let d := if o.fails .cleanupScopedroute then d else d.make (.scopedroute d.scopedroute_old)
    { d.make (.scopedroute_old none) with
      scopedroute_changed := false
      scopedroute_kaddr := false }
  else d

/-- `cleanup`, the first time it is reached. -/
def cleanup (o : Outcomes) (c : Config) (d : Daemon) : Daemon :=
  if d.cleanup_done then d
  else
    let d := cleanup_dns o { d with cleanup_done := true }
    let d := delete_split_routes o 0 c.split_routes (cleanup_default o d)
    cleanup_scopedroute o (cleanup_primary o (cleanup_host o d))

/-! ## Setting up -/

/-- `fopen` for writing empties the file. -/
def Daemon.writeFile {α : Type} (fails : Bool) (file : Option α → Change) (contents : α)
    (d : Daemon) : Daemon :=
  if fails then d else (d.make (file none)).make (file (some contents))

def add_split_routes (o : Outcomes) (c : Config) (mtu : Int) :
    ℕ → List (in_addr × in_addr) → Daemon → Int × Daemon
  | _, [], d => (0, d)
  | i, (network, mask) :: rest, d =>
    let (err, d) := nw_route_add_network (o.fails (.splitRoute i)) network mask d.warp_gw mtu d
    if err ≠ none ∧ err ≠ some .EEXIST then (-1, cleanup o c d)
    else add_split_routes o c mtu (i + 1) rest
      { d with installed := Function.update d.installed i true }

def inet_ntoa (addr : in_addr) : String :=
  let n := addr.toNat
  String.intercalate "." [toString (n / 2 ^ 24), toString (n / 2 ^ 16 % 256),
    toString (n / 2 ^ 8 % 256), toString (n % 256)]

/-- The first address of the network of 256 that an address is in. -/
def firstOfNet (addr : in_addr) : in_addr := (addr &&& 0xffffff00) ||| 1

/-- The store is left alone where scoped routing is off. -/
def publish_primary (o : Outcomes) (c : Config) (d : Daemon) : Daemon :=
  if d.scopedroute_changed then d
  else if o.fails .setPrimary then d
  else
    { d.scope false (setPrimaryWrites c.active_ifname c.client_ip (inet_ntoa d.warp_gw)) with
      scope_primary_set := true }

/-- The default route through the tunnel. -/
def replace_default (o : Outcomes) (c : Config) (mtu : Int) (d : Daemon) : Int × Daemon :=
  let (err, d) := nw_route_delete_default (o.fails .deleteDefault) d.orig_gw d
  if err ≠ none ∧ err ≠ some .ESRCH then (-1, cleanup o c d)
  else
    let d := { d with default_route_replaced := true }
    let (err, d) := nw_route_add_default (o.fails .addDefault) d.warp_gw mtu d
    if err ≠ none ∧ err ≠ some .EEXIST then (-1, cleanup o c d)
    else (0, d)

/-- The routes of the full mode. -/
def add_full_routes (o : Outcomes) (c : Config) (mtu : Int) (d : Daemon) : Int × Daemon :=
  let (err, d) := nw_route_add_host (o.fails .host) d.warp_ep_ip d.orig_gw d.wifi_ifindex d
  if err ≠ none ∧ err ≠ some .EEXIST then (-1, d)
  else
    let d := { d with host_route_added := true }
    if c.surgery then replace_default o c mtu d else (0, d)

/-- The gateway is written down and the addresses are worked out. -/
def prepare_routing (o : Outcomes) (c : Config) (d : Daemon) : Daemon :=
  let d := { d with wifi_ifindex := o.ifindex }
  let d := d.writeFile (o.fails .origGwFile) .orig_gw d.orig_gw
  { d with warp_ep_ip := c.endpoint_ip, warp_gw := firstOfNet c.client_addr }

def setup_routing (o : Outcomes) (c : Config) (mtu : Int) (d : Daemon) : Int × Daemon :=
  let d := { d with orig_gw := nw_route_get_default_gateway (o.dump d.system.routes) }
  if d.orig_gw = INADDR_ANY then (-1, d)
  else if c.split_mode then
    add_split_routes o c mtu 0 c.split_routes (prepare_routing o c d)
  else add_full_routes o c mtu (publish_primary o c (prepare_routing o c d))

/-- Scoped routing off by the sysctl. -/
def sysctl_scopedroute (o : Outcomes) (d : Daemon) : Bool × Daemon :=
  if o.fails .sysctlRead then (false, d)
  else
    let cur := d.system.scopedroute
    let d := { d with scopedroute_old := cur }
    if cur = 0 then (true, { d with scopedroute_changed := false })
    else if o.fails .sysctlWrite then (false, d)
    else (true, { d.make (.scopedroute 0) with scopedroute_changed := true })

/-- Scoped routing off in the memory of the kernel. -/
def kernel_scopedroute (o : Outcomes) (d : Daemon) : Bool × Daemon :=
  if o.fails .kernelAddress then (false, d)
  else
    let val := if o.fails .kernelRead then 1 else d.system.scopedroute
    let d := { d with scopedroute_old := val }
    if o.fails .kernelWrite then (false, { d with scopedroute_kaddr := false })
    else
      (true, { d.make (.scopedroute 0) with
        scopedroute_changed := val != 0
        scopedroute_kaddr := true })

def disable_scopedroute (o : Outcomes) (d : Daemon) : Daemon :=
  let (disabled, d) := sysctl_scopedroute o d
  let (disabled, d) := if disabled then (true, d) else kernel_scopedroute o d
  if disabled then d.writeFile (o.fails .scopedrouteFile) .scopedroute_old d.scopedroute_old else d

/-- The host route to the endpoint that is there before the handshake. -/
def add_endpoint_route (o : Outcomes) (c : Config) (d : Daemon) : Daemon :=
  let d := { d with
    orig_gw := nw_route_get_default_gateway (o.dump d.system.routes)
    wifi_ifindex := o.ifindex
    warp_ep_ip := c.endpoint_ip }
  if d.orig_gw ≠ INADDR_ANY ∧ d.wifi_ifindex ≠ 0 then
    let (err, d) :=
      nw_route_add_host (o.fails .preHandshakeHost) d.warp_ep_ip d.orig_gw d.wifi_ifindex d
    if err = none ∨ err = some .EEXIST then { d with host_route_added := true } else d
  else d

def set_dns_warp (o : Outcomes) (c : Config) (d : Daemon) : Daemon :=
  let d := { d with orig_dns := save_original_dns d.system.resolv_conf }
  -- it is read back up to a carriage return
  let d := d.writeFile (o.fails .origDnsFile) .orig_dns (d.orig_dns.takeWhile (· ≠ '\r'))
  let d := write_resolv_conf (o.fails .resolvConf) c.dns_ip.toList d
  { d.scope (o.fails .setDns) (setDnsWrites c.dns_ip) with dns_changed := true }

/-- `cmd_warp_tunnel` up to its loop, or to the end if it fails. -/
def cmd_warp_tunnel (o : Outcomes) (c : Config) (s : System) : Daemon :=
  let d : Daemon := { system := s }
  let d := if c.kpatch then disable_scopedroute o d else d
  if o.fails .connect then cleanup o c d
  else
    let d := add_endpoint_route o c d
    if o.fails .handshake then cleanup o c d
    else
      let mtu := if c.mtu ≤ 0 then 1280 else min c.mtu 1280
      let d := if c.split_mode then d else set_dns_warp o c d
      let (rc, d) := setup_routing o c mtu d
      if rc < 0 then cleanup o c d else d

/-- A fatal signal in the loop. -/
def handle_fatal (o : Outcomes) (d : Daemon) : Daemon :=
  if d.scopedroute_changed ∧ d.scopedroute_kaddr ∧ ¬o.fails .cleanupScopedroute then
    d.make (.scopedroute d.scopedroute_old)
  else d

/-! ## After the daemon -/

/-- The system a daemon leaves that is killed after so many of its changes. -/
def killed (o : Outcomes) (c : Config) (s : System) (changes : ℕ) : System :=
  ((cmd_warp_tunnel o c s).log.take changes).foldl Change.apply s

def force_restore_default (o : Outcomes) (gw_addr : in_addr) (d : Daemon) : Daemon :=
  let current_gw := nw_route_get_default_gateway (o.dump d.system.routes)
  let d :=
    if current_gw ≠ INADDR_ANY ∧ current_gw ≠ gw_addr then
      (nw_route_delete_default (o.fails .stopDeleteDefault) current_gw d).2
    else d
  (nw_route_add_default (o.fails .stopAddDefault) gw_addr 0 d).2

/-- `force_restore_routing`, which is what `cmd_stop` does when the daemon is gone. -/
def force_restore_routing (o : Outcomes) (s : System) : System :=
  let saved_gw := s.orig_gw.or (o.wifi_ip.map firstOfNet)
  let saved_dns := s.orig_dns.getD []
  let d : Daemon := { system := { s with orig_gw := none, orig_dns := none } }
  let d := match saved_gw with
    | none => d
    | some gw_addr => force_restore_default o gw_addr d
  let d := (nw_route_delete_default_v6 (o.fails .stopDelete6) d).2
  let d :=
    if saved_dns ≠ [] then write_resolv_conf (o.fails .stopResolvConf) saved_dns d
    else unlink_resolv_conf (o.fails .stopResolvConf) d
  match d.system.scopedroute_old with
  | none => d.system
  | some old_value =>
    let d :=
      if o.fails .stopSysctl ∧ o.fails .stopKernel then d else d.make (.scopedroute old_value)
    { d.system with scopedroute_old := none }

end NekroWarp

end Onegram
