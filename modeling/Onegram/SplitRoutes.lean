import Onegram.Lib.CText
import Onegram.Lib.Passing
import Onegram.SocksRequests
import Onegram.Stun

/-!
# The list of split routes

`nw_set_split_routes` and `nw_parse_cidr` of `nekrowarp.m`: the networks of `routes=CIDR[,CIDR…]`.
The list and then each of its tokens are copied into a buffer of fixed size. Below it the entries of
a list as the comments of the source write them, `a.b.c.d/len` and `a.b.c.d/w.x.y.z`.
-/

namespace Onegram.Routes

open Bytes CText

abbrev InAddr := Vector UInt8 4

structure SplitRoute where
  network : InAddr
  mask : InAddr
  installed : Bool
  deriving DecidableEq

def maxSplitRoutes : ℕ := 32

/-- `strlcpy` into a buffer of `size` bytes. -/
def strlcpy (size : ℕ) (text : Bytes) : Bytes := text.take (size - 1)

/-- `mask->s_addr` for a number of bits from 0 to 32. -/
def bitsMask (bits : ℕ) : InAddr :=
  let word : UInt32 := if bits = 0 then 0 else 0xffffffff <<< UInt32.ofNat (32 - bits)
  slice (bytesBE 4 word.toNat) 0 4

def nw_parse_cidr (text : Bytes) : Option (InAddr × InAddr) :=
  let buf := strlcpy 64 text
  match buf.dropWhile (· ≠ 0x2f) with
  | [] => none
  | _ :: suffix =>
    match Tcp.inetAton (buf.takeWhile (· ≠ 0x2f)) with
    | none => none
    | some network =>
      if 0x2e ∈ suffix then (Tcp.inetAton suffix).map fun mask => (network, mask)
      else
        let bits := atoi suffix
        if bits < 0 ∨ bits > 32 then none
        else some (network, bitsMask bits.toNat)

/-- The tokens that `strtok` gives one after the other. -/
def strtok (sep : UInt8) (buf : Bytes) : List Bytes := (buf.splitOn sep).filter (· ≠ [])

/-- The loop over the tokens; the routes so far are `g_split_routes` up to `g_split_route_count`. -/
def setRoutes : List Bytes → List SplitRoute → List SplitRoute
  | [], routes => routes
  | token :: tokens, routes =>
    let token := token.dropWhile (· = 0x20)
    if token = [] then setRoutes tokens routes
    else if routes.length ≥ maxSplitRoutes then routes
    else
      match nw_parse_cidr token with
      | none => setRoutes tokens routes
      | some (network, mask) => setRoutes tokens (routes ++ [{ network, mask, installed := false }])

def nw_set_split_routes (list : Bytes) : List SplitRoute :=
  setRoutes (strtok 0x2c (strlcpy 1024 list)) []

/-! ## What a list says -/

/-- What stands between two commas, without the blanks around it. -/
def entry (part : Bytes) : Bytes := (part.dropWhile (· = 0x20)).rdropWhile (· = 0x20)

def entries (list : Bytes) : List Bytes := (list.splitOn 0x2c).map entry

/-- The mask whose first `n` bits are the ones that are set. -/
def prefixMask (n : ℕ) : InAddr := slice (bytesBE 4 (2 ^ 32 - 2 ^ (32 - n))) 0 4

/-- A number below 100 in decimal digits. -/
def shortDecimal (n : ℕ) : Bytes :=
  if n < 10 then [UInt8.ofNat (48 + n)] else [UInt8.ofNat (48 + n / 10), UInt8.ofNat (48 + n % 10)]

/-- The prefix length that stands behind the slash, as a number or as its mask. -/
def prefixLength (suffix : Bytes) : Option ℕ :=
  (List.range 33).find? fun n => suffix = shortDecimal n ∨ suffix = Stun.inetNtop (prefixMask n)

/-- A network and the mask of its prefix length, where `text` is a CIDR. -/
def validCidr (text : Bytes) : Option (InAddr × InAddr) :=
  match Stun.inetPton (text.takeWhile (· ≠ 0x2f)), text.dropWhile (· ≠ 0x2f) with
  | some network, _ :: suffix => (prefixLength suffix).map fun n => (network, prefixMask n)
  | _, _ => none

def toRoute (cidr : InAddr × InAddr) : SplitRoute := ⟨cidr.1, cidr.2, false⟩

/-- The entries the routes are read from, each with its place in the list. -/
def readEntries (list : Bytes) : List (Bytes × ℕ) :=
  Passing.firstPassing (fun e => (nw_parse_cidr e).isSome) maxSplitRoutes
    (entries (strlcpy 1024 list))

/-- The routes are those of the first entries that are CIDRs, and these are the entries they have
been read from, as they stand in the list. -/
structure RoutesOfList (list : Bytes) : Prop where
  routes : nw_set_split_routes list =
    (((entries list).filterMap validCidr).take maxSplitRoutes).map toRoute
  unaltered : readEntries list =
    Passing.firstPassing (fun e => (validCidr e).isSome) maxSplitRoutes (entries list)

/-- What `nw_parse_cidr` takes from the first 1023 bytes is a CIDR and stands so in the list, up to
the 32nd; and with fewer than 32 no CIDR of the list is cut or left out. -/
structure ReadsOnlyCidrs (list : Bytes) : Prop where
  taken : ∀ (i : ℕ) (e : Bytes), (entries (list.take 1023))[i]? = some e →
    (nw_parse_cidr e).isSome = true →
    ((entries (list.take 1023)).take i).countP (fun e => (nw_parse_cidr e).isSome) < 32 →
      (validCidr e).isSome = true ∧ (entries list)[i]? = some e
  whole : 32 ≤ (entries (list.take 1023)).countP (fun e => (nw_parse_cidr e).isSome) ∨
    ∀ (i : ℕ) (e : Bytes), (entries list)[i]? = some e → (validCidr e).isSome = true →
      (entries (list.take 1023))[i]? = some e

end Onegram.Routes
