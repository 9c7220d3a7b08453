import Onegram.KeyValueCoder
import Onegram.TcpConnection

/-!
# SOCKS5 requests

What `MTTcpConnection` writes to a SOCKS5 proxy: the greeting where it connects, the user name and
the password where the proxy asks for them, the request for the address of the datacenter. Below it
the messages of RFC 1928 and RFC 1929.
-/

namespace Onegram.Tcp

open KeyValueCoder (NSString utf8Data)

/-! ## Addresses as text -/

def digitValue (c : UInt8) : ℕ :=
  if 0x30 ≤ c ∧ c ≤ 0x39 then (c - 0x30).toNat
  else if 0x61 ≤ c ∧ c ≤ 0x66 then (c - 0x61).toNat + 10
  else if 0x41 ≤ c ∧ c ≤ 0x46 then (c - 0x41).toNat + 10
  else 16

def digits (base : ℕ) (cs : Bytes) : Option ℕ :=
  if cs = [] ∨ ∃ c ∈ cs, base ≤ digitValue c then none
  else some (cs.foldl (fun value c => value * base + digitValue c) 0)

/-- A number as C writes it: after `0x` hexadecimal, after `0` octal. -/
def partValue : Bytes → Option ℕ
  | 0x30 :: c :: cs => if c = 0x78 ∨ c = 0x58 then digits 16 cs else digits 8 (c :: cs)
  | cs => digits 10 cs

/-- `inet_aton`: one to four numbers up to the end or a space, of which the last one takes the bytes
that the others leave. -/
def inetAton (text : Bytes) : Option (Vector UInt8 4) :=
  let number := text.takeWhile fun c => c ∉ [0, 0x09, 0x0a, 0x0b, 0x0c, 0x0d, 0x20]
  match ((number.splitOn 0x2e).mapM partValue).map List.reverse with
  | some (last :: init) =>
    if init.length ≤ 3 ∧ (∀ a ∈ init, a ≤ 0xff) ∧ last < 256 ^ (4 - init.length) then
      some (Bytes.slice ((init.reverse.map UInt8.ofNat) ++
        Bytes.bytesBE (4 - init.length) last) 0 4)
    else none
  | _ => none

/-! ## The messages of a connection -/

/-- The settings of a proxy and the address to be reached through it; `stack` is what a variable
holds before anything is put into it. -/
structure SocksSettings where
  socksUsername : Option NSString
  socksPassword : Option NSString
  ip : NSString
  port : UInt16
  stack : ℕ → Vector UInt8 4

namespace SocksSettings

def usernameData (s : SocksSettings) : Bytes := (s.socksUsername.bind utf8Data).getD []

def passwordData (s : SocksSettings) : Bytes := (s.socksPassword.bind utf8Data).getD []

/-- `_address.ip.UTF8String`. -/
def ipText (s : SocksSettings) : Bytes := (utf8Data s.ip).getD []

end SocksSettings

inductive SocksStage
  | ident
  | login
  | request
  deriving DecidableEq

abbrev SocksMessage := SocksStage × Bytes

def identRequest (s : SocksSettings) : Bytes :=
  let methods : Bytes := if s.socksUsername ≠ none then [0x00, 0x02] else [0x00]
  5 :: UInt8.ofNat methods.length :: methods

/-- A length is at most 255, what it is the length of is not cut. -/
def loginRequest (s : SocksSettings) : Bytes :=
  1 :: UInt8.ofNat (min s.usernameData.length 255) :: (s.usernameData ++
    UInt8.ofNat (min s.passwordData.length 255) :: s.passwordData)

/-- `struct socks5_req`, the union as its bytes. -/
structure Socks5Req where
  version : UInt8
  cmd : UInt8
  reserved : UInt8
  addrType : UInt8
  destAddr : Bytes
  destPort : UInt16

/-- What the switch over the type of the address appends, nil where the connection is closed. -/
def Socks5Req.reqData (req : Socks5Req) : Option Bytes :=
  let addr : Option Bytes :=
    if req.addrType = 1 then some (req.destAddr.take 4)
    else if req.addrType = 3 then
      some (req.destAddr.take (1 + (req.destAddr.getD 0 0).toNat))
    else if req.addrType = 4 then some (req.destAddr.take 16)
    else none
  addr.map fun addr => [req.version, req.cmd, req.reserved, req.addrType] ++
    (addr ++ Bytes.bytesBE 2 req.destPort.toNat)

/-- `requestSocksConnection`; where `inet_aton` refuses the text the variable stays as it was. -/
def socks5Req (s : SocksSettings) (stack : Vector UInt8 4) : Socks5Req :=
  { version := 5, cmd := 1, reserved := 0, addrType := 1
    destAddr := ((inetAton s.ipText).getD stack).toList
    destPort := s.port }

def socksConnection (s : SocksSettings) (stack : Vector UInt8 4) : List SocksMessage :=
  match (socks5Req s stack).reqData with
  | some data => [(.request, data)]
  | none => []

/-- What is written when the proxy has answered. -/
def socksWrites (s : SocksSettings) (stack : Vector UInt8 4) (tag : ReadTag) (rawData : Bytes) :
    List SocksMessage :=
  match tag with
  | .socksLogin =>
    if rawData.length ≠ 2 then []
    else if rawData.getD 0 0 ≠ 5 then []
    else if rawData.getD 1 0 = 0xff then []
    else if rawData.getD 1 0 = 0x02 then [(.login, loginRequest s)]
    else socksConnection s stack
  | .socksReceiveAuthResponse =>
    if rawData.getD 0 0 ≠ 1 ∨ rawData.getD 1 0 ≠ 0 then [] else socksConnection s stack
  | _ => []

structure SocksConnection where
  tcp : TcpConnection
  written : List SocksMessage

def SocksConnection.fresh (intermediate webSocket socks : Bool) (datacenterTag : ℤ) :
    SocksConnection :=
  ⟨.fresh intermediate webSocket socks datacenterTag, []⟩

/-- The messages that one event writes. -/
def socksMessages (s : SocksSettings) (c : SocksConnection) : TcpEvent → List SocksMessage
  | .start connects =>
    if c.tcp.socket ≠ none ∨ c.tcp.onegramWebSocket ∨ !connects ∨ !c.tcp.socksIp then []
    else [(.ident, identRequest s)]
  | .didRead data =>
    match c.tcp.socket with
    | some (read :: _) =>
      if Satisfies data read ∧ c.tcp.closed = false then
        socksWrites s (s.stack c.written.length) read.tag data
      else []
    | _ => []
  | _ => []

def socksStep (env : Environment) (s : SocksSettings) (c : SocksConnection) (e : TcpEvent) :
    SocksConnection :=
  ⟨tcpStep env c.tcp e, c.written ++ socksMessages s c e⟩

/-! ## The messages of the protocol -/

inductive SocksAddress
  | ipv4 (address : Bytes)
  | domain (name : Bytes)
  | ipv6 (address : Bytes)
  deriving DecidableEq

/-- A version, and methods after their number. -/
def parseIdent : Bytes → Option Bytes
  | version :: n :: methods =>
    if version = 5 ∧ 1 ≤ n ∧ methods.length = n.toNat then some methods else none
  | _ => none

/-- What a length of one byte from 1 on stands before, and what comes after it. -/
def parseCounted : Bytes → Option (Bytes × Bytes)
  | n :: b => if 1 ≤ n ∧ n.toNat ≤ b.length then some (b.take n.toNat, b.drop n.toNat) else none
  | _ => none

def parseLogin : Bytes → Option (Bytes × Bytes)
  | version :: b =>
    if version = 1 then
      (parseCounted b).bind fun (username, b) =>
        (parseCounted b).bind fun (password, b) =>
          if b = [] then some (username, password) else none
    else none
  | _ => none

def parseAddress (addrType : UInt8) (b : Bytes) : Option (SocksAddress × Bytes) :=
  if addrType = 1 ∧ 4 ≤ b.length then some (.ipv4 (b.take 4), b.drop 4)
  else if addrType = 3 then (parseCounted b).map fun (name, b) => (.domain name, b)
  else if addrType = 4 ∧ 16 ≤ b.length then some (.ipv6 (b.take 16), b.drop 16)
  else none

def parseRequest : Bytes → Option (SocksAddress × ℕ)
  | version :: cmd :: reserved :: addrType :: b =>
    if version = 5 ∧ cmd = 1 ∧ reserved = 0 then
      (parseAddress addrType b).bind fun (address, b) =>
        if b.length = 2 then some (address, TcpConnection.bigEndian b) else none
    else none
  | _ => none

/-- An address that a text stands for: the one it spells, or a name to be looked up. -/
def Denotes (inetPton : Bytes → Option Bytes) (text : Bytes) : SocksAddress → Prop
  | .ipv4 address => (inetAton text).map Vector.toList = some address
  | .ipv6 address => inetPton text = some address
  | .domain name => name = text

/-- A message that is one of the protocol and says what the settings say. -/
def Conforms (inetPton : Bytes → Option Bytes) (s : SocksSettings) : SocksMessage → Prop
  | (.ident, b) =>
    parseIdent b = some (if s.socksUsername ≠ none then [0x00, 0x02] else [0x00])
  | (.login, b) =>
    ∃ username password, parseLogin b = some (username, password) ∧
      s.socksUsername.bind utf8Data = some username ∧
      s.socksPassword.bind utf8Data = some password
  | (.request, b) =>
    ∃ address, parseRequest b = some (address, s.port.toNat) ∧ Denotes inetPton s.ipText address

end Onegram.Tcp
