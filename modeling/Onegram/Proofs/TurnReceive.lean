import Onegram.Proofs.IceProbe
import Onegram.TurnClient

/-!
# Whose packets of the relay reach the call

A packet is handed on when it comes in a Data indication from the selected peer. An indication that
names no IPv4 peer counts as from the selected one, and a DTLS record is let through from any; where
no peer is selected every packet is.
-/

namespace Onegram.Turn

open Bytes Stun

/-- A whole Data indication with a payload. -/
structure Indicates (m data : Bytes) : Prop where
  long : 20 ≤ m.length
  cookie : Stun.read32 m 4 = stunCookie
  type : Stun.read16 m 0 = turnDataIndication
  data : ∃ v, Stun.findAttribute m attrData = some v ∧ v.1 + v.2 ≤ m.length ∧ valueAt m v = data

/-- The peer may send the payload of the indication. -/
def PeerAllowed (host : Bytes) (port : UInt16) (m data : Bytes) : Prop :=
  host = [] ∨ port = 0 ∨ namedPeer m = some (host, port) ∨ namedPeer m = none
    ∨ looksLikeDtlsRecord data

theorem indicates_of_attributeValue {m data : Bytes} (hlong : ¬ m.length < 20)
    (hcookie : ¬ Stun.read32 m 4 ≠ stunCookie) (htype : ¬ Stun.read16 m 0 ≠ turnDataIndication)
    (hdata : attributeValue m attrData = some data) : Indicates m data := by
  obtain ⟨v, hfind, hvalue⟩ := Option.map_eq_some_iff.mp hdata
  refine ⟨not_lt.mp hlong, not_not.mp hcookie, not_not.mp htype, v, hfind, ?_, hvalue⟩
  unfold Stun.findAttribute at hfind
  split_ifs at hfind
  obtain ⟨-, hinside, -⟩ := findFrom_some hfind
  exact hinside.trans (min_le_right _ _)

/-- The caller gets this packet of the call. -/
def Delivers (result : ReceiveResult) (data : Bytes) : Prop :=
  result.kind = .transport ∧ result.data = data

instance (result : ReceiveResult) (data : Bytes) : Decidable (Delivers result data) := by
  unfold Delivers
  infer_instance

theorem not_delivers {result : ReceiveResult} {data : Bytes} (h : result.kind ≠ .transport) :
    ¬ Delivers result data := fun hdelivers => h hdelivers.1

theorem receiveInnerStun_kind (hmacSha1 : Bytes → Bytes → Vector UInt8 20) (c : IceCredentials)
    (result : ReceiveResult) (data : Bytes) (txid : Vector UInt8 12) :
    (receiveInnerStun hmacSha1 c result data txid).1.kind = .innerStun := by
  unfold receiveInnerStun
  dsimp only
  split_ifs
  · rfl
  · split <;> rfl
  · rfl

/-- Not from the selected peer, as the code has it. -/
theorem peerAllowed_iff (host : Bytes) (port : UInt16) (m data : Bytes) :
    ¬ ((host ≠ [] ∧ port ≠ 0 ∧ ((indicationPeer host port m).1 ≠ host
        ∨ (indicationPeer host port m).2 ≠ port)) ∧ ¬ looksLikeDtlsRecord data)
      ↔ PeerAllowed host port m data := by
  have hpeer : indicationPeer host port m = (namedPeer m).getD (host, port) := rfl
  rw [hpeer, PeerAllowed]
  cases hnamed : namedPeer m with
  | none => simp
  | some peer =>
    obtain ⟨h, p⟩ := peer
    simp only [Option.getD_some, Option.some.injEq, Prod.mk.injEq, reduceCtorEq, false_or]
    tauto

/-- What becomes of a datagram. -/
theorem turnReceivePacket_datagram (hmacSha1 : Bytes → Bytes → Vector UInt8 20) {fd : Int}
    (hfd : ¬ fd < 0) (bytes host : Bytes) (port : UInt16) (c : IceCredentials)
    (txid : Vector UInt8 12) (data : Bytes) :
    Delivers (turnReceivePacket hmacSha1 fd (.datagram bytes) host port c txid).1 data
      ↔ Indicates (received bytes) data ∧ data ≠ [] ∧ looksLikeStun data = false
        ∧ PeerAllowed host port (received bytes) data := by
  unfold turnReceivePacket
  rw [if_neg hfd]
  dsimp only
  by_cases hlong : (received bytes).length < 20
  · rw [if_pos hlong]
    exact iff_of_false (not_delivers (by decide)) fun h => absurd h.1.long (by omega)
  by_cases hcookie : Stun.read32 (received bytes) 4 ≠ stunCookie
  · rw [if_neg hlong, if_pos hcookie]
    exact iff_of_false (not_delivers (by decide)) fun h => hcookie h.1.cookie
  by_cases htype : Stun.read16 (received bytes) 0 ≠ turnDataIndication
  · rw [if_neg hlong, if_neg hcookie, if_pos htype]
    exact iff_of_false (not_delivers (by decide)) fun h => htype h.1.type
  rw [if_neg hlong, if_neg hcookie, if_neg htype]
  cases hvalue : attributeValue (received bytes) attrData with
  | none =>
    refine iff_of_false (not_delivers (by simp)) fun h => ?_
    obtain ⟨v, hfind, -⟩ := h.1.data
    rw [attributeValue, hfind] at hvalue
    cases hvalue
  | some value =>
    have hindicates := indicates_of_attributeValue hlong hcookie htype hvalue
    have hvalue_eq : ∀ {d}, Indicates (received bytes) d → d = value := by
      rintro d ⟨-, -, -, v, hfind, -, rfl⟩
      rw [attributeValue, hfind] at hvalue
      exact Option.some.inj hvalue
    dsimp only
    by_cases hstun : looksLikeStun value = true
    · rw [if_pos hstun]
      refine iff_of_false (not_delivers (by simp [receiveInnerStun_kind])) fun h => ?_
      rw [hvalue_eq h.1, hstun] at h
      exact absurd h.2.2.1 (by decide)
    rw [if_neg hstun]
    split_ifs with hother hempty
    · refine iff_of_false (not_delivers (by simp)) fun h => ?_
      rw [hvalue_eq h.1] at h
      exact (peerAllowed_iff _ _ _ _).mpr h.2.2.2 hother
    · refine iff_of_false (not_delivers (by simp)) fun h => h.2.1 ?_
      rw [hvalue_eq h.1, hempty]
    · constructor
      · rintro ⟨-, rfl⟩
        exact ⟨hindicates, hempty, by simpa using hstun, (peerAllowed_iff _ _ _ _).mp hother⟩
      · exact fun h => ⟨rfl, (hvalue_eq h.1).symm⟩

/-- A packet is handed to the caller just when it comes in a whole Data indication, is neither empty
nor STUN, and its peer may send it. -/
theorem turnReceivePacket_delivers_iff (hmacSha1 : Bytes → Bytes → Vector UInt8 20) (fd : Int)
    (recv : Recv) (host : Bytes) (port : UInt16) (c : IceCredentials) (txid : Vector UInt8 12)
    (data : Bytes) :
    Delivers (turnReceivePacket hmacSha1 fd recv host port c txid).1 data
      ↔ 0 ≤ fd ∧ ∃ bytes, recv = .datagram bytes ∧ Indicates (received bytes) data ∧ data ≠ []
        ∧ looksLikeStun data = false ∧ PeerAllowed host port (received bytes) data := by
  by_cases hfd : fd < 0
  · unfold turnReceivePacket
    rw [if_pos hfd]
    exact iff_of_false (not_delivers (by simp)) fun h => absurd h.1 (by omega)
  cases recv with
  | wouldBlock =>
    unfold turnReceivePacket
    rw [if_neg hfd]
    refine iff_of_false (not_delivers (by simp)) ?_
    rintro ⟨-, bytes, hrecv, -⟩
    cases hrecv
  | failed error =>
    unfold turnReceivePacket
    rw [if_neg hfd]
    refine iff_of_false (not_delivers (by simp)) ?_
    rintro ⟨-, bytes, hrecv, -⟩
    cases hrecv
  | datagram bytes =>
    rw [turnReceivePacket_datagram hmacSha1 hfd bytes host port c txid data]
    constructor
    · exact fun h => ⟨not_lt.mp hfd, bytes, rfl, h⟩
    · rintro ⟨-, bytes', hrecv, h⟩
      obtain rfl := Recv.datagram.inj hrecv
      exact h

/-- A call whose selected peer is at `host` and port 5 gets `data` in an indication with these
attributes, and they do not name that peer. -/
def DeliversOther (host : Bytes) (attributes : List (ℕ × Bytes)) (data : Bytes) : Prop :=
  let m := stunMessage turnDataIndication (zeros 12) attributes
  Delivers (turnReceivePacket (fun _ _ => zeros 20) 3 (.datagram m) host 5
      ⟨[97], [98], [99], [100]⟩ (zeros 12)).1 data
    ∧ namedPeer m ≠ some (host, 5)

instance (host : Bytes) (attributes : List (ℕ × Bytes)) (data : Bytes) :
    Decidable (DeliversOther host attributes data) := by
  unfold DeliversOther
  infer_instance

/-- A DTLS record from 9.9.9.9:5, a byte with no peer named, and a byte from 9.9.9.9:5 where no peer
is selected. -/
theorem other_peer_delivered :
    let other : ℕ × Bytes := (attrXorPeerAddress,
      [0, 1] ++ bytesBE 2 ((5 : UInt16) ^^^ 0x2112).toNat ++ (xorCookie #v[9, 9, 9, 9]).toList)
    let record : Bytes := [22, 0xfe, 0xfd] ++ List.replicate 10 0
    let selected : Bytes := [49, 46, 50, 46, 51, 46, 52]
    DeliversOther selected [other, (attrData, record)] record
      ∧ DeliversOther selected [(attrData, [200])] [200]
      ∧ DeliversOther [] [other, (attrData, [200])] [200] := by
  decide +kernel

end Onegram.Turn
