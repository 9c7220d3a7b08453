import Onegram.SplitRoutes

/-!
# Importing a configuration

`cmd_import_conf` of `nekrowarp.m` up to the point where the buffers are filled. A copy with
`strlcpy` knows the size of its destination; `trim` does not, and a text that does not fit ends the
run here. Below it what a file has to look like for every copy to fit.
-/

namespace Onegram.ConfigImport

open Onegram.Routes

def ascii (s : String) : Bytes := s.toList.map fun c => UInt8.ofNat c.toNat

/-- The buffers of the function. -/
inductive Field
  | priv | pub | client_ip | client_ip6 | dns | endpoint | port | mtu | keepalive | reserved | psk
  | allowed | listenport | jc | jmin | jmax | s1 | s2 | s3 | s4 | h1 | h2 | h3 | h4 | i1 | i2 | i3
  | i4 | i5
  deriving DecidableEq

def Field.size : Field → ℕ
  | .priv | .pub | .client_ip | .client_ip6 | .dns | .endpoint | .port | .psk => 128
  | .allowed => 256
  | .reserved => 64
  | .i1 | .i2 | .i3 | .i4 | .i5 => 4096
  | _ => 16

theorem Field.size_pos (f : Field) : 0 < f.size := by
  cases f <;> decide

/-- The strings in the buffers, each with its `NUL`. -/
structure Conf where
  text : Field → Bytes
  fits : ∀ f, (text f).length < f.size

def Conf.empty : Conf := ⟨fun _ => [], Field.size_pos⟩

def Conf.set (conf : Conf) (f : Field) (s : Bytes) (h : s.length < f.size) : Conf where
  text := Function.update conf.text f s
  fits := by
    intro g
    by_cases hg : g = f
    · subst hg
      rw [Function.update_self]
      exact h
    · rw [Function.update_of_ne hg]
      exact conf.fits g

/-- `strlcpy(f, s, sizeof(f))`. -/
def Conf.copy (conf : Conf) (f : Field) (s : Bytes) : Conf :=
  conf.set f (strlcpy f.size s) (by
    have h := f.size_pos
    rw [strlcpy, List.length_take]
    omega)

/-! ## Lines -/

/-- The lines that `fgets` returns for a buffer of 4096 bytes, after the bytes read already. -/
def fgetsLines : Bytes → Bytes → List Bytes
  | line, [] => if line = [] then [] else [line]
  | line, c :: file =>
    if c = 0x0a ∨ (line ++ [c]).length = 4095 then (line ++ [c]) :: fgetsLines [] file
    else fgetsLines (line ++ [c]) file

/-- The C string in a buffer. -/
def cString (buf : Bytes) : Bytes := buf.takeWhile (· ≠ 0)

def isBlank (c : UInt8) : Bool := c = 0x20 || c = 0x09 || c = 0x0d || c = 0x0a

/-- What `trim` writes. -/
def trimmed (text : Bytes) : Bytes := (text.dropWhile isBlank).rdropWhile isBlank

/-- `trim` into a buffer of `size` bytes; too long a text is written past its end. -/
def trim (size : ℕ) (text : Bytes) : Option Bytes :=
  if (trimmed text).length < size then some (trimmed text) else none

def Conf.trimInto (conf : Conf) (f : Field) (text : Bytes) : Option Conf :=
  if h : (trimmed text).length < f.size then some (conf.set f (trimmed text) h) else none

def toLower (c : UInt8) : UInt8 := if 0x41 ≤ c ∧ c ≤ 0x5a then c + 0x20 else c

/-- `strcasecmp(key, name) == 0`. -/
def isKey (key : Bytes) (name : String) : Bool := key.map toLower = (ascii name).map toLower

/-- What stands before and behind the first of a byte. -/
def splitFirst (sep : UInt8) (text : Bytes) : Option (Bytes × Bytes) :=
  match text.dropWhile (· ≠ sep) with
  | [] => none
  | _ :: after => some (text.takeWhile (· ≠ sep), after)

/-- What stands before and behind the last of a byte. -/
def splitLast (sep : UInt8) (text : Bytes) : Option (Bytes × Bytes) :=
  (splitFirst sep text.reverse).map fun parts => (parts.2.reverse, parts.1.reverse)

/-! ## Keys -/

/-- The keys whose value goes into a buffer as it is. -/
def plainKeys : List (String × Field) :=
  [("PrivateKey", .priv), ("PublicKey", .pub), ("DNS", .dns), ("MTU", .mtu),
    ("PersistentKeepalive", .keepalive), ("Reserved", .reserved), ("ClientID", .reserved),
    ("PresharedKey", .psk), ("AllowedIPs", .allowed), ("ListenPort", .listenport), ("Jc", .jc),
    ("Jmin", .jmin), ("Jmax", .jmax), ("S1", .s1), ("S2", .s2), ("S3", .s3), ("S4", .s4),
    ("H1", .h1), ("H2", .h2), ("H3", .h3), ("H4", .h4), ("I1", .i1), ("I2", .i2), ("I3", .i3),
    ("I4", .i4), ("I5", .i5)]

def importEndpoint (conf : Conf) (val : Bytes) : Option Conf :=
  match splitLast 0x3a val with
  | some (host, port) => do
    let conf ← conf.trimInto .endpoint host
    conf.trimInto .port port
  | none => some ((conf.copy .endpoint val).copy .port (ascii "2408"))

/-- One token of an address list. -/
def importAddress (conf : Conf) (token : Bytes) : Option Conf := do
  let addr_item ← trim 128 token
  let addr_item := addr_item.takeWhile (· ≠ 0x2f)
  if 0x3a ∈ addr_item then some (conf.copy .client_ip6 addr_item)
  else some (conf.copy .client_ip addr_item)

def importValue (conf : Conf) (key val : Bytes) : Option Conf :=
  match plainKeys.find? fun k => isKey key k.1 with
  | some (_, f) => some (conf.copy f val)
  | none =>
    if isKey key "Endpoint" then importEndpoint conf val
    else if isKey key "Address" then (strtok 0x2c val).foldlM importAddress conf
    else some conf

/-- One round of the loop. -/
def importLine (conf : Conf) (line : Bytes) : Option Conf := do
  let clean_line ← trim 4096 (cString line)
  match clean_line with
  | [] => some conf
  | c :: _ =>
    if c = 0x23 ∨ c = 0x3b ∨ c = 0x5b then some conf
    else match splitFirst 0x3d clean_line with
      | none => some conf
      | some (before, after) => do
        let key ← trim 256 before
        let val ← trim 4096 after
        importValue conf key val

def defaults : List (Field × String) :=
  [(.endpoint, "engage.cloudflareclient.com"), (.port, "4500"), (.client_ip, "172.16.0.2"),
    (.dns, "111.88.96.50,111.88.96.51,2a00:ab00:1233:26::50,2a00:ab00:1233:26::51"),
    (.mtu, "1280"), (.keepalive, "25"), (.reserved, "AAAA"), (.allowed, "0.0.0.0/0"), (.jc, "5"),
    (.jmin, "100"), (.jmax, "200"), (.h1, "1"), (.h2, "2"), (.h3, "3"), (.h4, "4")]

def setDefault (conf : Conf) (d : Field × String) : Conf :=
  if conf.text d.1 = [] then conf.copy d.1 (ascii d.2) else conf

/-- The buffers when the function goes on to the settings, or what it returns without that. -/
def cmd_import_conf (file : Bytes) : Option (ℤ ⊕ Conf) := do
  let conf ← (fgetsLines [] file).foldlM importLine Conf.empty
  if conf.text .priv = [] ∨ conf.text .pub = [] then some (.inl 1)
  else some (.inr (defaults.foldl setDefault conf))

/-! ## What fits -/

/-- A key and its value, of a line that sets one. -/
def setting (line : Bytes) : Option (Bytes × Bytes) :=
  let text := trimmed (cString line)
  if text.head? = some 0x23 ∨ text.head? = some 0x3b ∨ text.head? = some 0x5b then none
  else (splitFirst 0x3d text).map fun parts => (trimmed parts.1, trimmed parts.2)

/-- The texts that are written without regard to a size: the key, the parts of an endpoint, the
items of an address list. -/
structure LineFits (line : Bytes) : Prop where
  key : ∀ key val, setting line = some (key, val) → key.length < 256
  endpoint : ∀ key val host port, setting line = some (key, val) → isKey key "Endpoint" →
    splitLast 0x3a val = some (host, port) →
    (trimmed host).length < 128 ∧ (trimmed port).length < 128
  address : ∀ key val, setting line = some (key, val) → isKey key "Address" →
    ∀ item ∈ val.splitOn 0x2c, (trimmed item).length < 128

end Onegram.ConfigImport
