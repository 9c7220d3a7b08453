import Onegram.Proofs.TcpReads
import Onegram.Proofs.WebSocketFrames
import Onegram.SocksRequests

/-!
# Which SOCKS5 requests conform

The greeting always does. The user name and the password do where each fits into a length of one
byte that is not 0, the request where the address is one that `inet_aton` can read: the only
addresses it is written for.
-/

namespace Onegram.Tcp

open KeyValueCoder (NSString utf8Data)

variable {inetPton : Bytes → Option Bytes} {s : SocksSettings}

/-! ## One message -/

theorem conforms_ident (inetPton : Bytes → Option Bytes) (s : SocksSettings) :
    Conforms inetPton s (.ident, identRequest s) := by
  rcases h : s.socksUsername with _ | name <;> simp [Conforms, identRequest, h, parseIdent]

theorem parseCounted_append {a b : Bytes} (hpos : 1 ≤ a.length) (hfits : a.length ≤ 255) :
    parseCounted (UInt8.ofNat (min a.length 255) :: (a ++ b)) = some (a, b) := by
  have hn : (UInt8.ofNat (min a.length 255)).toNat = a.length := by
    rw [UInt8.toNat_ofNat']
    omega
  have hone : (1 : UInt8) ≤ UInt8.ofNat (min a.length 255) := by
    rw [UInt8.le_iff_toNat_le, hn]
    exact hpos
  rw [parseCounted, hn, if_pos ⟨hone, by simp⟩, List.take_left, List.drop_left]

/-- Where what is read is what was written, the length was right. -/
theorem parseCounted_self {a b c : Bytes}
    (h : parseCounted (UInt8.ofNat (min a.length 255) :: (a ++ b)) = some (a, c)) :
    1 ≤ a.length ∧ a.length ≤ 255 ∧ c = b := by
  have hn : (UInt8.ofNat (min a.length 255)).toNat = min a.length 255 := by
    rw [UInt8.toNat_ofNat']
    omega
  rw [parseCounted, hn] at h
  split_ifs at h with hlength
  obtain ⟨hone, -⟩ := hlength
  rw [UInt8.le_iff_toNat_le, hn] at hone
  have hone' : 1 ≤ min a.length 255 := hone
  simp only [Option.some.injEq, Prod.mk.injEq] at h
  obtain ⟨htake, hdrop⟩ := h
  have hlength := congrArg List.length htake
  rw [List.length_take, List.length_append] at hlength
  have hmin : min a.length 255 = a.length := by omega
  rw [hmin, List.drop_left] at hdrop
  exact ⟨by omega, by omega, hdrop.symm⟩

/-- A user name and a password that the protocol can carry. -/
def LoginFits (s : SocksSettings) : Prop :=
  (1 ≤ s.usernameData.length ∧ s.usernameData.length ≤ 255) ∧
    1 ≤ s.passwordData.length ∧ s.passwordData.length ≤ 255

instance (s : SocksSettings) : Decidable (LoginFits s) := inferInstanceAs (Decidable (_ ∧ _))

theorem bind_eq_some {name : Option NSString}
    (h : 1 ≤ ((name.bind utf8Data).getD []).length) :
    name.bind utf8Data = some ((name.bind utf8Data).getD []) := by
  rcases hname : name.bind utf8Data with _ | data
  · rw [hname] at h
    exact absurd h (by simp)
  · rfl

theorem conforms_login_iff : Conforms inetPton s (.login, loginRequest s) ↔ LoginFits s := by
  constructor
  · rintro ⟨username, password, hparse, husername, hpassword⟩
    have hu : s.usernameData = username := by simp [SocksSettings.usernameData, husername]
    have hp : s.passwordData = password := by simp [SocksSettings.passwordData, hpassword]
    rw [loginRequest, hu, hp, parseLogin, if_pos rfl] at hparse
    obtain ⟨⟨u, b⟩, hfirst, hparse⟩ := Option.bind_eq_some_iff.mp hparse
    obtain ⟨⟨p, b'⟩, hsecond, hparse⟩ := Option.bind_eq_some_iff.mp hparse
    simp only at hsecond hparse
    split_ifs at hparse with hend
    simp only [Option.some.injEq, Prod.mk.injEq] at hparse
    obtain ⟨rfl, rfl⟩ := hparse
    obtain ⟨hupos, hufits, rfl⟩ := parseCounted_self hfirst
    have hcounted : parseCounted (UInt8.ofNat (min p.length 255) :: (p ++ [])) = some (p, b') := by
      rw [List.append_nil]
      exact hsecond
    obtain ⟨hppos, hpfits, -⟩ := parseCounted_self hcounted
    rw [LoginFits, hu, hp]
    exact ⟨⟨hupos, hufits⟩, hppos, hpfits⟩
  · rintro ⟨⟨hupos, hufits⟩, hppos, hpfits⟩
    refine ⟨s.usernameData, s.passwordData, ?_, bind_eq_some hupos, bind_eq_some hppos⟩
    have hpassword : parseCounted (UInt8.ofNat (min s.passwordData.length 255) ::
        s.passwordData) = some (s.passwordData, []) := by
      have := parseCounted_append (b := []) hppos hpfits
      rwa [List.append_nil] at this
    rw [loginRequest, parseLogin, if_pos rfl, parseCounted_append hupos hufits, Option.bind_some]
    simp only [hpassword, Option.bind_some, if_true]

/-- The request is one for the bytes of an IPv4 address, whatever these are. -/
theorem socksConnection_eq (s : SocksSettings) (stack : Vector UInt8 4) :
    ∃ data, socksConnection s stack = [(.request, data)] ∧ parseRequest data =
      some (.ipv4 ((inetAton s.ipText).getD stack).toList, s.port.toNat) := by
  have hport := s.port.toNat_lt
  refine ⟨_, rfl, ?_⟩
  have hbytes : ((inetAton s.ipText).getD stack).toList.length = 4 := Vector.length_toList
  simp only [socks5Req, List.take_of_length_le hbytes.le, List.cons_append, List.nil_append,
    parseRequest, true_and, if_true]
  rw [parseAddress, if_pos ⟨rfl, by simp⟩, List.take_left' hbytes, List.drop_left' hbytes,
    Option.bind_some]
  simp only [Bytes.length_bytesBE, if_true]
  rw [bigEndian_bytesBE, Nat.mod_eq_of_lt (by omega)]

theorem conforms_request_iff {stack : Vector UInt8 4} :
    (∀ m ∈ socksConnection s stack, Conforms inetPton s m) ↔ inetAton s.ipText ≠ none := by
  obtain ⟨data, heq, hparse⟩ := socksConnection_eq s stack
  rw [heq, List.forall_mem_singleton]
  constructor
  · rintro ⟨address, hrequest, hdenotes⟩
    obtain rfl : .ipv4 ((inetAton s.ipText).getD stack).toList = address := by
      have := hparse.symm.trans hrequest
      simp only [Option.some.injEq, Prod.mk.injEq, and_true] at this
      exact this
    rw [Denotes] at hdenotes
    intro hnone
    rw [hnone] at hdenotes
    simp at hdenotes
  · intro hsome
    refine ⟨_, hparse, ?_⟩
    obtain ⟨address, haddress⟩ := Option.ne_none_iff_exists'.mp hsome
    rw [Denotes, haddress]
    rfl

/-! ## Runs -/

/-- The proxy asks for the user name and the password, or lets the request be sent. -/
def AsksLogin (tag : ReadTag) (rawData : Bytes) : Prop :=
  tag = .socksLogin ∧ rawData = [5, 2]

def AsksRequest (tag : ReadTag) (rawData : Bytes) : Prop :=
  (tag = .socksLogin ∧ ∃ method, rawData = [5, method] ∧ method ≠ 2 ∧ method ≠ 0xff) ∨
    tag = .socksReceiveAuthResponse ∧ rawData.getD 0 0 = 1 ∧ rawData.getD 1 0 = 0

/-- What an answer asks for can be given. -/
def Answerable (s : SocksSettings) (tag : ReadTag) (rawData : Bytes) : Prop :=
  (AsksLogin tag rawData → LoginFits s) ∧
    (AsksRequest tag rawData → inetAton s.ipText ≠ none)

/-- Every answer that is read can be given what it asks for. -/
def AnswersGiven (s : SocksSettings) (c : SocksConnection) (e : TcpEvent) : Prop :=
  ∀ data read reads, e = .didRead data → c.tcp.socket = some (read :: reads) →
    Satisfies data read = true → c.tcp.closed = false → Answerable s read.tag data

theorem socksLogin_conform_iff (stack : Vector UInt8 4) (rawData : Bytes) :
    (∀ m ∈ socksWrites s stack .socksLogin rawData, Conforms inetPton s m) ↔
      Answerable s .socksLogin rawData := by
  rcases rawData with _ | ⟨version, _ | ⟨method, _ | ⟨x, b⟩⟩⟩
  · simp [socksWrites, Answerable, AsksLogin, AsksRequest]
  · simp [socksWrites, Answerable, AsksLogin, AsksRequest]
  · by_cases hversion : version = 5
    · subst hversion
      by_cases hrefused : method = 0xff
      · simp [socksWrites, Answerable, AsksLogin, AsksRequest, hrefused]
      by_cases hlogin : method = 2
      · simp [socksWrites, Answerable, AsksLogin, AsksRequest, hlogin, conforms_login_iff]
      · have hwrites : socksWrites s stack .socksLogin [5, method] = socksConnection s stack := by
          simp [socksWrites, hrefused, hlogin]
        rw [hwrites, conforms_request_iff]
        simp [Answerable, AsksLogin, AsksRequest, hlogin, hrefused]
    · simp [socksWrites, Answerable, AsksLogin, AsksRequest, hversion]
  · simp [socksWrites, Answerable, AsksLogin, AsksRequest]

theorem socksAuthResponse_conform_iff (stack : Vector UInt8 4) (rawData : Bytes) :
    (∀ m ∈ socksWrites s stack .socksReceiveAuthResponse rawData, Conforms inetPton s m) ↔
      Answerable s .socksReceiveAuthResponse rawData := by
  by_cases haccepted : rawData.getD 0 0 = 1 ∧ rawData.getD 1 0 = 0
  · have hwrites : socksWrites s stack .socksReceiveAuthResponse rawData =
        socksConnection s stack := if_neg (by rwa [not_or, not_not, not_not])
    rw [hwrites, conforms_request_iff]
    exact ⟨fun h => ⟨fun hlogin => absurd hlogin.1 (by simp), fun _ => h⟩,
      fun h => h.2 (.inr ⟨rfl, haccepted⟩)⟩
  · have hwrites : socksWrites s stack .socksReceiveAuthResponse rawData = [] :=
      if_pos (by rwa [← not_and_or])
    rw [hwrites]
    refine iff_of_true (by simp) ⟨fun hlogin => absurd hlogin.1 (by simp), ?_⟩
    rintro (⟨htag, -⟩ | ⟨-, h⟩)
    · exact absurd htag (by simp)
    · exact absurd h haccepted

theorem socksWrites_conform_iff (stack : Vector UInt8 4) (tag : ReadTag) (rawData : Bytes) :
    (∀ m ∈ socksWrites s stack tag rawData, Conforms inetPton s m) ↔
      Answerable s tag rawData := by
  cases tag with
  | socksLogin => exact socksLogin_conform_iff stack rawData
  | socksReceiveAuthResponse => exact socksAuthResponse_conform_iff stack rawData
  | _ => simp [socksWrites, Answerable, AsksLogin, AsksRequest]

theorem socksMessages_conform_iff (inetPton : Bytes → Option Bytes) (s : SocksSettings)
    (c : SocksConnection) (e : TcpEvent) :
    (∀ m ∈ socksMessages s c e, Conforms inetPton s m) ↔ AnswersGiven s c e := by
  cases e with
  | start connects =>
    refine iff_of_true ?_ fun _ _ _ h => by cases h
    simp only [socksMessages]
    split_ifs
    · simp
    · rw [List.forall_mem_singleton]
      exact conforms_ident inetPton s
  | didRead data =>
    rcases hsocket : c.tcp.socket with _ | _ | ⟨read, reads⟩
    · simp [socksMessages, AnswersGiven, hsocket]
    · simp [socksMessages, AnswersGiven, hsocket]
    · have hwrites : socksMessages s c (.didRead data) =
          if Satisfies data read ∧ c.tcp.closed = false then
            socksWrites s (s.stack c.written.length) read.tag data
          else [] := by
        simp only [socksMessages, hsocket]
      rw [hwrites]
      split_ifs with hread
      · rw [socksWrites_conform_iff]
        constructor
        · rintro h data' read' reads' heq hfirst - -
          cases heq
          obtain ⟨rfl, -⟩ := List.cons.inj (Option.some.inj (hsocket.symm.trans hfirst))
          exact h
        · exact fun h => h data read reads rfl hsocket hread.1 hread.2
      · refine iff_of_true (by simp) ?_
        rintro data' read' reads' heq hfirst hsatisfies hopen
        cases heq
        obtain ⟨rfl, -⟩ := List.cons.inj (Option.some.inj (hsocket.symm.trans hfirst))
        exact absurd ⟨hsatisfies, hopen⟩ hread
  | _ => exact iff_of_true (by simp [socksMessages]) fun _ _ _ h => by cases h

/-- In every run of a connection the messages it writes to the proxy conform just where every answer
that is read can be given what it asks for. -/
theorem socksRequests_conform_iff (env : Environment) (inetPton : Bytes → Option Bytes)
    (s : SocksSettings) (intermediate webSocket socks : Bool) (datacenterTag : ℤ)
    (es : List TcpEvent) :
    (∀ m ∈ (Run.run (socksStep env s)
        (.fresh intermediate webSocket socks datacenterTag) es).written, Conforms inetPton s m) ↔
      Run.AllSteps (socksStep env s) (AnswersGiven s)
        (.fresh intermediate webSocket socks datacenterTag) es := by
  have hlog : ∀ c e, (socksStep env s c e).written = c.written ++ socksMessages s c e :=
    fun _ _ => rfl
  rw [Run.forall_log_iff hlog (socksMessages_conform_iff inetPton s)]
  exact and_iff_right (by simp [SocksConnection.fresh])

/-- A user name of 256 bytes, with an address the request can carry. -/
def longUsername : SocksSettings where
  socksUsername := some (List.replicate 256 0x61)
  socksPassword := some [0x62]
  ip := "149.154.167.51".toList.map fun c => UInt16.ofNat c.toNat
  port := 443
  stack _ := Vector.replicate 4 0

/-- A datacenter by its IPv6 address. -/
def ipv6Datacenter : SocksSettings where
  socksUsername := none
  socksPassword := none
  ip := "2001:67c:4e8:f002::a".toList.map fun c => UInt16.ofNat c.toNat
  port := 443
  stack _ := Vector.replicate 4 0

/-- `inet_pton` at the address of that datacenter. -/
def ipv6Address : Bytes := [0x20, 0x01, 0x06, 0x7c, 0x04, 0xe8, 0xf0, 0x02, 0, 0, 0, 0, 0, 0, 0, 0x0a]

/-- The length of the long name is 255 and the name is not cut; the other request is one for an
IPv4 address that nobody has given. -/
theorem socksRequests_malformed :
    (¬ ∀ m ∈ (Run.run (socksStep sampleEnvironment longUsername)
        (.fresh false false true 2) [.start true, .didRead [5, 2]]).written,
      Conforms (fun _ => none) longUsername m) ∧
    ¬ ∀ m ∈ (Run.run (socksStep sampleEnvironment ipv6Datacenter)
        (.fresh false false true 2) [.start true, .didRead [5, 0]]).written,
      Conforms (fun _ => some ipv6Address) ipv6Datacenter m := by
  constructor
  · intro h
    have hlogin := h (.login, loginRequest longUsername) (by decide +kernel)
    rw [conforms_login_iff] at hlogin
    revert hlogin
    decide +kernel
  · intro h
    have hrequest : ∀ m ∈ socksConnection ipv6Datacenter (Vector.replicate 4 0),
        Conforms (fun _ => some ipv6Address) ipv6Datacenter m :=
      fun m hm => h m (List.mem_append_right _ hm)
    rw [conforms_request_iff] at hrequest
    revert hrequest
    decide +kernel

end Onegram.Tcp
