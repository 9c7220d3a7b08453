import Mathlib.Data.Nat.Notation
import Mathlib.Logic.Function.Basic

/-!
# The dynamic store

`nw_scope.c`: what the tunnel writes to the store of `configd`, and what it puts back. A key is its
path, with the service or the interface that is formatted into it. The two properties that are read
by name have the type the schema gives them, and the rest of a dictionary is kept as it is; the
store takes every value it is given. The read-back and the log are left out.
-/

namespace Onegram

namespace NekroWarp

/-! ## Values and keys -/

inductive CFType where
  | string (value : String)
  | number (value : Int)
  | array (values : List String)
deriving DecidableEq, Repr

structure CFDictionary where
  ServiceOrder : Option (List String) := none
  PrimaryService : Option String := none
  properties : List (String × CFType) := []
deriving DecidableEq, Repr

def CFDictionary.empty : CFDictionary := {}

def CFDictionary.count (d : CFDictionary) : ℕ :=
  d.ServiceOrder.toList.length + d.PrimaryService.toList.length + d.properties.length

inductive Domain where
  | State
  | Setup
deriving DecidableEq, Repr

inductive SCKey where
  | globalIPv4 (domain : Domain)
  | globalDNS
  | serviceIPv4 (domain : Domain) (service : String)
  | serviceDNS (service : String)
  | interfaceIPv4 (ifname : String)
  | backup
  | backupGlobal
  | other (path : String)
deriving DecidableEq, Repr

abbrev SCStore := SCKey → Option CFDictionary

namespace SCStore

def setValue (store : SCStore) (key : SCKey) (value : CFDictionary) : SCStore :=
  Function.update store key (some value)

def removeValue (store : SCStore) (key : SCKey) : SCStore := Function.update store key none

end SCStore

def NW_SERVICE_ID : String := "00000000-0000-0000-0000-00004E454B52"

def NW_LEGACY_ID : String := "NekroWARP"

def array_remove_all (arr : List String) (val : String) : List String := arr.filter (· != val)

/-! ## The primary service -/

def serviceState (ifname addr router : String) : CFDictionary where
  properties := [("Addresses", .array [addr]), ("SubnetMasks", .array ["255.255.255.0"]),
    ("Router", .string router), ("InterfaceName", .string ifname),
    ("PrimaryRank", .string "First")]

def serviceSetup (addr router : String) : CFDictionary where
  properties := [("ConfigMethod", .string "Manual"), ("Addresses", .array [addr]),
    ("SubnetMasks", .array ["255.255.255.0"]), ("Router", .string router),
    ("OverridePrimary", .number 1)]

/-- The order without the service of this build and the one before it. -/
def stripped (order : List String) : List String :=
  array_remove_all (array_remove_all order NW_SERVICE_ID) NW_LEGACY_ID

def nw_scope_set_primary (ifname addr router : String) (store : SCStore) : SCStore :=
  let store := store.removeValue (.serviceIPv4 .State NW_LEGACY_ID)
  let store := store.setValue (.serviceIPv4 .State NW_SERVICE_ID) (serviceState ifname addr router)
  let store := store.setValue (.serviceIPv4 .Setup NW_SERVICE_ID) (serviceSetup addr router)
  let store := store.setValue (.interfaceIPv4 ifname) .empty
  let setup := store (.globalIPv4 .Setup)
  let order := NW_SERVICE_ID :: stripped ((setup.bind (·.ServiceOrder)).getD [])
  store.setValue (.globalIPv4 .Setup) { setup.getD .empty with ServiceOrder := some order }

def nw_scope_restore (store : SCStore) : SCStore :=
  let store := store.removeValue (.serviceIPv4 .State NW_SERVICE_ID)
  let store := store.removeValue (.serviceIPv4 .Setup NW_SERVICE_ID)
  let store := store.removeValue (.serviceIPv4 .State NW_LEGACY_ID)
  match store (.globalIPv4 .Setup) with
  | none => store
  | some setup =>
    store.setValue (.globalIPv4 .Setup)
      { setup with ServiceOrder := setup.ServiceOrder.map stripped }

/-! ## The name servers -/

/-- `PrimaryService` of the state that `configd` publishes. -/
def primaryService (store : SCStore) : Option String :=
  (store (.globalIPv4 .State)).bind (·.PrimaryService)

/-- The tokens between blanks, tabs and commas. -/
def tokens (text : List Char) : List (List Char) :=
  (text.splitOnP (· ∈ [' ', '\t', ','])).filter (· ≠ [])

/-- The buffer takes 511 characters. -/
def dnsServers (csv : String) : List String := (tokens (csv.toList.take 511)).map String.ofList

def dnsDictionary (csv : String) : CFDictionary where
  properties := [("ServerAddresses", .array (dnsServers csv))]

def nw_scope_set_dns (dns_servers_csv : String) (store : SCStore) : SCStore :=
  let primary_svc_id := primaryService store
  let dns_dict := dnsDictionary dns_servers_csv
  let store := match primary_svc_id with
    | none => store
    | some service =>
      -- an empty dictionary says that there was none
      store.setValue .backup ((store (.serviceDNS service)).getD .empty)
  let store := match store .globalDNS with
    | none => store
    | some orig_global_dns => store.setValue .backupGlobal orig_global_dns
  let store := match primary_svc_id with
    | none => store
    | some service => store.setValue (.serviceDNS service) dns_dict
  store.setValue .globalDNS dns_dict

def nw_scope_restore_dns (store : SCStore) : SCStore :=
  let store := match primaryService store, store .backup with
    | some service, some orig_dns =>
      if 0 < orig_dns.count then store.setValue (.serviceDNS service) orig_dns
      else store.removeValue (.serviceDNS service)
    | _, _ => store
  let store := match store .backupGlobal with
    | some orig_global_dns => store.setValue .globalDNS orig_global_dns
    | none => store.removeValue .globalDNS
  (store.removeValue .backup).removeValue .backupGlobal

end NekroWarp

end Onegram
