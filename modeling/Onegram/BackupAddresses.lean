import Onegram.Crypto.DiffieHellman
import Onegram.TLSerialization

/-!
# Backup addresses

`MTIPDataDecode`: a block of 256 bytes, decrypted with a public key, holds addresses to try when
the known ones are blocked. They come in groups, and a group has rules for the phone numbers it is
meant for. The arithmetic of the key, the cipher and the hash are parameters.

A missing number or a missing text is `nil`, to which every message answers `NO` or `nil`.
-/

namespace Onegram.MTIPData

open Bytes TL TL.MTBufferReader Reader

structure MTBackupDatacenterAddress where
  datacenterId : Int32
  ip : String
  port : Int32
  secret : Option Bytes
  deriving DecidableEq

structure MTBackupDatacenterData where
  timestamp : Int32
  expirationDate : Int32
  addressList : List MTBackupDatacenterAddress
  deriving DecidableEq

/-- The functions of the platform. `BN_mod_exp` has the exponent and the modulus of the key in the
source, and fails where they cannot be read. -/
structure Platform where
  BN_mod_exp : ℕ → Option ℕ
  AES_cbc_decrypt : Bytes → Bytes → Bytes → Bytes
  EVP_sha256 : Bytes → Bytes

/-- A power that does not fit the block is left out of it. -/
def decrypt_TL_data (platform : Platform) (buffer : Bytes) : Option Bytes := do
  let y ← platform.BN_mod_exp (bin2bn buffer)
  let bytes := bytesBE 256 y
  let iv := (bytes.drop 16).take 16
  let decrypted := platform.AES_cbc_decrypt (bytes.take 32) iv (bytes.drop 32)
  let sha256_out := platform.EVP_sha256 (decrypted.take (256 - 32 - 16))
  if (decrypted.drop (256 - 32 - 16)).take 16 = sha256_out.take 16 then
    let data_len := littleEndian (decrypted.take 4)
    if data_len ≠ 0 ∧ data_len ≤ 256 - 32 - 16 ∧ data_len % 4 = 0 then
      some ((decrypted.drop 4).take data_len)
    else none
  else none

/-- `%d.%d.%d.%d` of the four bytes. -/
def ipString (ip : Int32) : String :=
  let byte (shift : UInt32) : ℕ := ((ip.toUInt32 >>> shift) &&& 0xFF).toNat
  String.intercalate "." [toString (byte 24), toString (byte 16), toString (byte 8),
    toString (byte 0)]

def readAddress (datacenterId : Int32) : Reader UInt8 MTBackupDatacenterAddress := do
  let ip ← readInt32
  let port ← readInt32
  pure ⟨datacenterId, ipString ip, port, none⟩

def readRuleAddress (datacenterId : Int32) : Reader UInt8 MTBackupDatacenterAddress := do
  let signature ← readInt32
  if signature.toUInt32 = 0xd433ad73 then readAddress datacenterId
  else if signature.toUInt32 = 0x37982646 then do
    let address ← readAddress datacenterId
    let secret ← readTLBytes
    pure { address with secret := some secret }
  else fail

/-! ## The rules -/

/-- `componentsSeparatedByString:@","`. -/
def components (phonePrefixRules : Option String) : List (List Char) :=
  match phonePrefixRules with
  | none => []
  | some rules => rules.toList.splitOn ','

/-- `[phoneNumber hasPrefix:]`, which the empty text is of nothing. -/
def hasPrefix (phoneNumber : Option String) (text : List Char) : Bool :=
  match phoneNumber with
  | none => false
  | some number => !text.isEmpty && text.isPrefixOf number.toList

/-- The body of the loop over the rules. -/
def applyRule (phoneNumber : Option String) (_includeIp : Bool) (rule : List Char) : Bool :=
  if rule.length = 0 then true
  else if rule.head? = some '+' ∧ hasPrefix phoneNumber (rule.drop 1) then true
  else if rule.head? = some '-' ∧ hasPrefix phoneNumber (rule.drop 1) then false
  else false

def includeIp (phoneNumber : Option String) (rules : List (List Char)) : Bool :=
  rules.foldl (applyRule phoneNumber) true

/-! ## The configuration -/

structure RuleGroup where
  phonePrefixRules : Option String
  ruleAddressList : List MTBackupDatacenterAddress
  deriving DecidableEq

def readRuleGroup : Reader UInt8 RuleGroup := do
  let signature ← readInt32
  if signature.toUInt32 = 0x4679b65f then do
    let phonePrefixRules ← readTLString
    let datacenterId ← readInt32
    let ipCount ← readInt32
    let ruleAddressList ← times (readRuleAddress datacenterId) ipCount.toInt.toNat
    pure ⟨phonePrefixRules, ruleAddressList⟩
  else fail

/-- `addObjectsFromArray:` where the group is included. -/
def addRuleGroup (phoneNumber : Option String) (addressList : List MTBackupDatacenterAddress)
    (group : RuleGroup) : List MTBackupDatacenterAddress :=
  if includeIp phoneNumber (components group.phonePrefixRules) then
    addressList ++ group.ruleAddressList
  else addressList

/-- The loop over the groups, with `count - i` rounds to go. -/
def readRuleGroups (phoneNumber : Option String) : ℕ → List MTBackupDatacenterAddress →
    Reader UInt8 (List MTBackupDatacenterAddress)
  | 0, addressList => pure addressList
  | n + 1, addressList => do
    let group ← readRuleGroup
    readRuleGroups phoneNumber n (addRuleGroup phoneNumber addressList group)

/-- What follows the first signature, for the addresses of one datacenter. -/
def readPlainData : Reader UInt8 MTBackupDatacenterData := do
  let timestamp ← readInt32
  let expirationDate ← readInt32
  let datacenterId ← readInt32
  let vectorSignature ← readInt32
  if vectorSignature.toUInt32 = 0x1cb5c415 then do
    let count ← readInt32
    let addressList ← times (readAddress datacenterId) count.toInt.toNat
    pure ⟨timestamp, expirationDate, addressList⟩
  else fail

/-- What follows the second signature, for groups with rules. -/
def readRuleData (phoneNumber : Option String) : Reader UInt8 MTBackupDatacenterData := do
  let timestamp ← readInt32
  let expirationDate ← readInt32
  let count ← readInt32
  let addressList ← readRuleGroups phoneNumber count.toInt.toNat []
  pure ⟨timestamp, expirationDate, addressList⟩

def readData (phoneNumber : Option String) : Reader UInt8 MTBackupDatacenterData := do
  let signature ← readInt32
  if signature.toUInt32 = 0xd997c3c5 then readPlainData
  else if signature.toUInt32 = 0x5a592a6c then readRuleData phoneNumber
  else fail

def MTIPDataDecode (platform : Platform) (data : Bytes) (phoneNumber : Option String) :
    Option MTBackupDatacenterData := do
  let result ← decrypt_TL_data platform (data.take 256)
  let (backup, _) ← readData phoneNumber result
  pure backup

/-! ## What the rules are for -/

/-- What a rule says of a number it applies to. -/
def verdict (phoneNumber : Option String) : List Char → Option Bool
  | [] => some true
  | sign :: text =>
    if hasPrefix phoneNumber text then
      if sign = '+' then some true else if sign = '-' then some false else none
    else none

/-- The last rule that applies decides. -/
def lastVerdict (phoneNumber : Option String) (rules : List (List Char)) : Bool :=
  (rules.filterMap (verdict phoneNumber)).getLast?.getD true

/-- The groups of a configuration as they are sent, whoever reads it. -/
structure RuleConfiguration where
  timestamp : Int32
  expirationDate : Int32
  groups : List RuleGroup
  deriving DecidableEq

def readConfiguration : Reader UInt8 RuleConfiguration := do
  let signature ← readInt32
  if signature.toUInt32 = 0x5a592a6c then do
    let timestamp ← readInt32
    let expirationDate ← readInt32
    let count ← readInt32
    let groups ← times readRuleGroup count.toInt.toNat
    pure ⟨timestamp, expirationDate, groups⟩
  else fail

/-- The groups in a block. -/
def configuration (platform : Platform) (data : Bytes) : Option RuleConfiguration := do
  let result ← decrypt_TL_data platform (data.take 256)
  let (sent, _) ← readConfiguration result
  pure sent

end Onegram.MTIPData
