import Onegram.Lib.Bytes
import Onegram.Lib.ChunkedScan

/-!
# Scans of the kernel's memory

`kread_safe`, `kfind_string_64` and `kfind_ptr_64` of `nekrowarp.m`. Memory is read in chunks of 4095
bytes, one every 4080 bytes from the start of the range on. Below it the plain scan of the range,
place by place.
-/

namespace Onegram.KernelScan

open Bytes ChunkedScan

/-- The bytes that are mapped. -/
abbrev Memory := ℕ → Option UInt8

/-- The address as `vm_read` takes it, in 32 bits for a kernel of 32 bits. -/
def vmAddress (is64 : Bool) (addr : ℕ) : ℕ := if is64 then addr else addr % 2 ^ 32

/-- `n` bytes, if each of them is mapped. -/
def readAll (byteAt : ℕ → Option UInt8) (n : ℕ) : Option Bytes :=
  if (List.range n).all fun i => (byteAt i).isSome then
    some ((List.range n).map fun i => (byteAt i).getD 0)
  else none

/-- `mach_vm_read` or `vm_read`, which fails where a byte is not mapped or the addresses end. -/
def kread_safe (is64 : Bool) (mem : Memory) (addr size : ℕ) : Option Bytes :=
  if vmAddress is64 addr + size ≤ (if is64 then 2 ^ 64 else 2 ^ 32) then
    readAll (fun i => mem (vmAddress is64 addr + i)) size
  else none

/-- The loop over the offsets of a chunk, `memcmp` at each. -/
def findString (needle buf : Bytes) : Option ℕ :=
  if needle.length ≤ buf.length then
    (List.range (buf.length - needle.length + 1)).find?
      fun i => (buf.drop i).take needle.length = needle
  else none

/-- The loop over the words of a chunk. -/
def findWord (width val : ℕ) (buf : Bytes) : Option ℕ :=
  ((List.range (buf.length / width)).find?
    fun i => littleEndian ((buf.drop (i * width)).take width) = val).map (· * width)

/-- The loop over the chunks; without fuel there is no result. -/
def kfind (is64 : Bool) (mem : Memory) (search : Bytes → Option ℕ) (stop : ℕ) :
    ℕ → ℕ → Option ℕ
  | 0, _ => none
  | fuel + 1, addr =>
    if addr < stop then
      match (kread_safe is64 mem addr 4095).bind search with
      | some offset => some ((addr + offset) % 2 ^ 64)
      | none => kfind is64 mem search stop fuel ((addr + 4080) % 2 ^ 64)
    else some 0

def kfind_string_64 (is64 : Bool) (mem : Memory) (start stop : UInt64) (str : Bytes) (fuel : ℕ) :
    Option ℕ :=
  kfind is64 mem (findString (str ++ [0])) stop.toNat fuel start.toNat

def kfind_ptr_64 (is64 : Bool) (mem : Memory) (start stop : UInt64) (val : UInt64) (fuel : ℕ) :
    Option ℕ :=
  if is64 then kfind is64 mem (findWord 8 val.toNat) stop.toNat fuel start.toNat
  else kfind is64 mem (findWord 4 (val.toNat % 2 ^ 32)) stop.toNat fuel start.toNat

/-! ## The plain scan -/

/-- Whether the `width` bytes at an address are there and pass the test. -/
def matchesAt (is64 : Bool) (mem : Memory) (width : ℕ) (test : Bytes → Bool) (addr : ℕ) : Bool :=
  (readAll (fun i => mem (vmAddress is64 (addr + i))) width).any test

/-- The places `start`, `start + unit`, … whose `width` bytes lie before `stop`. -/
def places (start stop : UInt64) (unit width : ℕ) : ℕ :=
  if start.toNat + width ≤ stop.toNat then (stop.toNat - start.toNat - width) / unit + 1 else 0

/-- The first of them with a match, or 0. -/
def plainScan (is64 : Bool) (mem : Memory) (start stop : UInt64) (unit width : ℕ)
    (test : Bytes → Bool) : ℕ :=
  (((List.range (places start stop unit width)).find?
    fun i => matchesAt is64 mem width test (start.toNat + i * unit)).map
      fun i => start.toNat + i * unit).getD 0

end Onegram.KernelScan
