import Onegram.TcpConnection

/-!
# Packets read from a socket

The chain of reads by tags takes a stream of packets in the abridged format apart as parsing it
does: one element of the stream is one, two or three reads.
-/

namespace Onegram.Tcp

open Elements ExactReader

variable {E : Environment} {c : TcpConnection} {pos n : ℕ} {tag : ReadTag} {calls : List Call}

open TcpConnection

/-! ## The key stream -/

@[simp] theorem length_applyKeystream : ∀ (pos : ℕ) (u : Bytes),
    (applyKeystream E pos u).length = u.length
  | _, [] => rfl
  | pos, b :: u => by simp [applyKeystream, length_applyKeystream (pos + 1) u]

theorem applyKeystream_append : ∀ (pos : ℕ) (u v : Bytes), applyKeystream E pos (u ++ v) =
    applyKeystream E pos u ++ applyKeystream E (pos + u.length) v
  | _, [], _ => rfl
  | pos, b :: u, v => by
    simp only [List.cons_append, applyKeystream, applyKeystream_append (pos + 1) u v,
      List.length_cons]
    rw [show pos + 1 + u.length = pos + (u.length + 1) by omega]

theorem applyKeystream_take (pos k : ℕ) (u : Bytes) :
    applyKeystream E pos (u.take k) = (applyKeystream E pos u).take k := by
  rcases le_or_gt k u.length with hk | hk
  · have h := applyKeystream_append (E := E) pos (u.take k) (u.drop k)
    rw [List.take_append_drop] at h
    rw [h, List.take_left' (by simp [hk])]
  · rw [List.take_of_length_le hk.le, List.take_of_length_le (by simp [hk.le])]

theorem applyKeystream_drop (pos k : ℕ) (u : Bytes) (hk : k ≤ u.length) :
    applyKeystream E (pos + k) (u.drop k) = (applyKeystream E pos u).drop k := by
  have h := applyKeystream_append (E := E) pos (u.take k) (u.drop k)
  rw [List.take_append_drop, List.length_take, Nat.min_eq_left hk] at h
  rw [h, List.drop_left' (by simp [hk])]

/-! ## One read -/

/-- A connection that waits for a part of a packet. -/
structure Waiting (n : ℕ) (tag : ReadTag) (pos : ℕ) (calls : List Call) (c : TcpConnection) :
    Prop where
  open_ : c.closed = false
  abridged : c.useIntermediateFormat = false
  socket : c.socket = some [.toLength n tag]
  position : c.incomingAesCtr = some pos
  calls : c.calls = calls

/-- A connection that waits for the next packet. -/
structure Boundary (pos : ℕ) (calls : List Call) (c : TcpConnection) : Prop where
  waiting : Waiting 1 .packetShortLength pos calls c
  head : c.packetHead = none

theorem Waiting.want (h : Waiting n tag pos calls c) (hn : 0 < n) :
    (reader E).want c = some n := by
  simp [reader, wantedLength, h.socket, hn]

theorem Waiting.wait {u : Bytes} (h : Waiting n tag pos calls c) (hn : u.length < n) :
    drain (reader E) c u = (c, u) :=
  drain_wait (h.want (by omega)) hn

/-- The connection as a callback of the socket finds it, the data of the read decrypted. -/
def taken (n : ℕ) (c : TcpConnection) : TcpConnection :=
  { c with socket := some [], incomingAesCtr := c.incomingAesCtr.map (· + n) }

/-- What the callback of a packet read does with the decrypted data. -/
def packetCallback : ReadTag → Bytes → TcpConnection → TcpConnection
  | .packetShortLength => packetShortLength
  | .packetLongLength => packetLongLength
  | .packetHead => packetHeadRead
  | .packetBody => packetBody
  | .quickAck => quickAck
  | _ => fun _ c => c

theorem Waiting.read {u : Bytes} (h : Waiting n tag pos calls c) (hn : 0 < n) (hu : n ≤ u.length)
    (htag : tag ∈ [.packetShortLength, .packetLongLength, .packetHead, .packetBody, .quickAck]) :
    drain (reader E) c u = drain (reader E)
      (packetCallback tag ((applyKeystream E pos u).take n) (taken n c)) (u.drop n) := by
  rw [drain_read (h.want hn) hu]
  congr 1
  have hwanted : c.wantedLength = some (n, tag) := by simp [wantedLength, h.socket, hn]
  have hlength : (u.take n).length = n := by simp [hu]
  have hdecrypt : c.popRead.decrypt E (u.take n) =
      ((applyKeystream E pos u).take n, taken n c) := by
    simp [decrypt, popRead, h.position, h.socket, taken, applyKeystream_take, hu]
  simp only [reader, hwanted, didReadData]
  rw [if_neg (by simp [popRead, h.open_]), hdecrypt]
  fin_cases htag <;> rfl

/-! ## The callbacks -/

/-- The connection in a callback: nothing is asked of the socket. -/
structure Called (pos : ℕ) (calls : List Call) (c : TcpConnection) : Prop where
  open_ : c.closed = false
  abridged : c.useIntermediateFormat = false
  socket : c.socket = some []
  position : c.incomingAesCtr = some pos
  calls : c.calls = calls

theorem Waiting.called (h : Waiting n tag pos calls c) : Called (pos + n) calls (taken n c) :=
  ⟨h.open_, h.abridged, rfl, by simp [taken, h.position], h.calls⟩

theorem Called.readDataToLength (h : Called pos calls c) {k : ℕ} (hk : 0 < k) (tag : ReadTag) :
    Waiting k tag pos calls (c.readDataToLength k tag) := by
  unfold TcpConnection.readDataToLength
  rw [if_neg (by omega)]
  exact ⟨h.open_, h.abridged, by simp [h.socket], h.position, h.calls⟩

theorem Called.readPacketLength (h : Called pos calls c) (hhead : c.packetHead = none) :
    Boundary pos calls c.readPacketLength := by
  unfold TcpConnection.readPacketLength
  rw [if_neg (by simp [h.abridged])]
  refine ⟨h.readDataToLength (by omega) _, ?_⟩
  unfold TcpConnection.readDataToLength
  rw [if_neg (by omega)]
  exact hhead

theorem Called.tell (h : Called pos calls c) (l : List Call) :
    Called pos (calls ++ l) (c.tell l) :=
  ⟨h.open_, h.abridged, h.socket, h.position, by simp [TcpConnection.tell, h.calls]⟩

/-- A callback that closes the connection ends the reading. -/
theorem Called.close (h : Called pos calls c) (u : Bytes) :
    (drain (reader E) c.closeAndNotify u).1.calls = calls ++ [.closed] ∧
    (drain (reader E) c.closeAndNotify u).1.closed = true := by
  have hclose : c.closeAndNotify =
      { c with closed := true, socket := none, calls := c.calls ++ [.closed] } := by
    unfold closeAndNotify
    rw [if_neg (by simp [h.open_])]
  rw [hclose, drain_none (by simp [reader, wantedLength])]
  exact ⟨by rw [h.calls], rfl⟩

/-- The end of a packet: the head, if one was read, and the rest. -/
theorem Waiting.body {u : Bytes} {k : ℕ} (h : Waiting k .packetBody pos calls c) (hk : 0 < k)
    (hu : k ≤ u.length) : ∃ c', Boundary (pos + k)
      (calls ++ packetCalls (c.packetHead.getD [] ++ (applyKeystream E pos u).take k)) c' ∧
      drain (reader E) c u = drain (reader E) c' (u.drop k) := by
  refine ⟨_, ?_, h.read hk hu (by simp)⟩
  have hcalled := h.called
  exact ((⟨hcalled.open_, hcalled.abridged, rfl, hcalled.position, hcalled.calls⟩ :
    Called (pos + k) calls { taken k c with packetHead := none }).tell _).readPacketLength rfl

/-- What is to come of a packet of which `k` bytes are still to be read. -/
def BodyRead (E : Environment) (pos : ℕ) (calls : List Call) (k : ℕ) (c : TcpConnection)
    (u : Bytes) : Prop :=
  if u.length < k then
    (drain (reader E) c u).1.calls = calls ∧ (drain (reader E) c u).1.closed = false
  else ∃ c', Boundary (pos + k) (calls ++ packetCalls ((applyKeystream E pos u).take k)) c' ∧
    drain (reader E) c u = drain (reader E) c' (u.drop k)

theorem Waiting.head {m k : ℕ} (h : Waiting m .packetHead pos calls c) (hm : 0 < m) (hk : 0 < k)
    (hrest : c.packetRestLength = k) (u : Bytes) : BodyRead E pos calls (m + k) c u := by
  unfold BodyRead
  by_cases hfirst : u.length < m
  · rw [if_pos (by omega), h.wait hfirst]
    exact ⟨h.calls, h.open_⟩
  have hcalled : Called (pos + m) calls
      { taken m c with packetHead := some ((applyKeystream E pos u).take m) } :=
    ⟨h.open_, h.abridged, rfl, h.called.position, h.calls⟩
  obtain ⟨c₂, hc₂⟩ : ∃ c₂, TcpConnection.readDataToLength k .packetBody
      { taken m c with packetHead := some ((applyKeystream E pos u).take m) } = c₂ := ⟨_, rfl⟩
  have hread : drain (reader E) c u = drain (reader E) c₂ (u.drop m) := by
    rw [h.read hm (by omega) (by simp), ← hc₂, ← hrest]
    rfl
  have hbody : Waiting k .packetBody (pos + m) calls c₂ := hc₂ ▸ hcalled.readDataToLength hk _
  have hhead : c₂.packetHead = some ((applyKeystream E pos u).take m) := by
    rw [← hc₂]
    unfold TcpConnection.readDataToLength
    rw [if_neg (by omega)]
  rw [hread]
  by_cases hshort : u.length < m + k
  · rw [if_pos hshort, hbody.wait (by simp; omega)]
    exact ⟨hbody.calls, hbody.open_⟩
  · rw [if_neg hshort]
    obtain ⟨c', hc', heq⟩ := hbody.body (E := E) (u := u.drop m) hk (by simp; omega)
    rw [hhead, Option.getD_some, applyKeystream_drop pos m u (by omega), ← List.take_add,
      Nat.add_assoc] at hc'
    rw [List.drop_drop] at heq
    exact ⟨c', hc', heq⟩

/-- The body of a packet is read at once or, from a length on, in two reads. -/
theorem Called.readPacketBody {k : ℕ} (h : Called pos calls c) (hhead : c.packetHead = none)
    (hk : 0 < k) (u : Bytes) : BodyRead E pos calls k (c.readPacketBody k) u := by
  unfold TcpConnection.readPacketBody
  by_cases hlong : progressCalculationThreshold ≤ k
  · rw [if_pos hlong]
    rw [progressCalculationThreshold] at hlong
    obtain ⟨m, hm⟩ : ∃ m, m = 128 := ⟨_, rfl⟩
    rw [← hm]
    have hcalled : Called pos calls { c with packetRestLength := k - m } :=
      ⟨h.open_, h.abridged, h.socket, h.position, h.calls⟩
    have hwait := hcalled.readDataToLength (k := m) (by omega) .packetHead
    have hbody := hwait.head (E := E) (k := k - m) (by omega) (by omega)
      (by unfold TcpConnection.readDataToLength; split <;> rfl) u
    rwa [show m + (k - m) = k by omega] at hbody
  · rw [if_neg hlong]
    have hwait : Waiting k .packetBody pos calls (c.readDataToLength k .packetBody) :=
      h.readDataToLength hk _
    unfold BodyRead
    by_cases hshort : u.length < k
    · rw [if_pos hshort, hwait.wait hshort]
      exact ⟨hwait.calls, hwait.open_⟩
    · rw [if_neg hshort]
      obtain ⟨c', hc', heq⟩ := hwait.body (E := E) (u := u) hk (by omega)
      refine ⟨c', ?_, heq⟩
      have hnone : (c.readDataToLength k .packetBody).packetHead = none := by
        unfold TcpConnection.readDataToLength
        split <;> exact hhead
      simpa [hnone] using hc'

/-! ## A stream -/

def socketMaxMessageLength : ℕ := 4 * 1024 * 1024

/-- The connection has told what parsing the stream gives, and is closed where that fails. -/
structure Parses (E : Environment) (pos : ℕ) (calls : List Call) (c : TcpConnection) (u : Bytes) :
    Prop where
  calls : (drain (reader E) c u).1.calls = calls ++
    (parse (abridged socketMaxMessageLength) (applyKeystream E pos u)).out ++
    if (parse (abridged socketMaxMessageLength) (applyKeystream E pos u)).malformed then [.closed]
    else []
  closed : (drain (reader E) c u).1.closed =
    (parse (abridged socketMaxMessageLength) (applyKeystream E pos u)).malformed

variable {u : Bytes}

theorem parses_incomplete
    (hnext : abridgedNext socketMaxMessageLength (applyKeystream E pos u) = .incomplete)
    (hcalls : (drain (reader E) c u).1.calls = calls)
    (hopen : (drain (reader E) c u).1.closed = false) : Parses E pos calls c u := by
  have hparse := parse_incomplete (F := abridged socketMaxMessageLength) hnext
  constructor
  · simp [hparse, hcalls]
  · simp [hparse, hopen]

theorem parses_malformed
    (hnext : abridgedNext socketMaxMessageLength (applyKeystream E pos u) = .malformed)
    (hcalls : (drain (reader E) c u).1.calls = calls ++ [.closed])
    (hclosed : (drain (reader E) c u).1.closed = true) : Parses E pos calls c u := by
  have hparse := parse_malformed (F := abridged socketMaxMessageLength) hnext
  constructor
  · simp [hparse, hcalls]
  · simp [hparse, hclosed]

theorem parses_element {o : List Call} {k : ℕ} {c' : TcpConnection}
    (hnext : abridgedNext socketMaxMessageLength (applyKeystream E pos u) = .element o k)
    (hdrain : drain (reader E) c u = drain (reader E) c' (u.drop k))
    (h : Parses E (pos + k) (calls ++ o) c' (u.drop k)) : Parses E pos calls c u := by
  have hk := (abridgedNext_pos hnext).2
  rw [length_applyKeystream] at hk
  have hparse := parse_element (F := abridged socketMaxMessageLength) hnext
  obtain ⟨hcalls, hclosed⟩ := h
  rw [applyKeystream_drop pos k u hk] at hcalls hclosed
  constructor
  · rw [hdrain, hcalls, hparse]
    simp
  · rw [hdrain, hclosed, hparse]

/-- The body of a packet after a length of `m` bytes. -/
theorem parses_body {m k : ℕ} {c₁ : TcpConnection} (hm : m ≤ u.length)
    (hdrain : drain (reader E) c u = drain (reader E) c₁ (u.drop m))
    (hbody : BodyRead E (pos + m) calls k c₁ (u.drop m))
    (hnext : abridgedNext socketMaxMessageLength (applyKeystream E pos u) =
      if (u.drop m).length < k then .incomplete
      else .element (packetCalls (((applyKeystream E pos u).drop m).take k)) (m + k))
    (ih : ∀ {calls : List Call} {c' : TcpConnection}, Boundary (pos + (m + k)) calls c' →
      Parses E (pos + (m + k)) calls c' (u.drop (m + k))) : Parses E pos calls c u := by
  unfold BodyRead at hbody
  by_cases hshort : (u.drop m).length < k
  · rw [if_pos hshort] at hbody hnext
    exact parses_incomplete hnext (hdrain ▸ hbody.1) (hdrain ▸ hbody.2)
  · rw [if_neg hshort] at hbody hnext
    obtain ⟨c', hc', heq⟩ := hbody
    rw [applyKeystream_drop pos m u hm, Nat.add_assoc] at hc'
    rw [List.drop_drop] at heq
    exact parses_element hnext (hdrain.trans heq) (ih hc')

/-- What the first element of a stream says, the reads of it do. -/
theorem Boundary.parses (u : Bytes) : ∀ {pos : ℕ} {calls : List Call} {c : TcpConnection},
    Boundary pos calls c → Parses E pos calls c u := by
  induction hk : u.length using Nat.strong_induction_on generalizing u with
  | _ k ih =>
    intro pos calls c h
    rcases u with _ | ⟨b, u⟩
    · have hwait := h.waiting.wait (E := E) (u := []) (by simp)
      refine parses_incomplete rfl ?_ ?_
      · rw [hwait]
        exact h.waiting.calls
      · rw [hwait]
        exact h.waiting.open_
    have ih' : ∀ {j : ℕ} {calls : List Call} {c' : TcpConnection}, 0 < j →
        Boundary (pos + j) calls c' → Parses E (pos + j) calls c' ((b :: u).drop j) :=
      fun {j calls c'} hj hc' => ih _ (by rw [← hk, List.length_drop, List.length_cons]; omega) _
        rfl hc'
    obtain ⟨marker, hmarker⟩ : ∃ marker, b ^^^ E.keystream pos = marker := ⟨_, rfl⟩
    have hstream : applyKeystream E pos (b :: u) = marker :: applyKeystream E (pos + 1) u := by
      rw [applyKeystream, hmarker]
    have hlength : (applyKeystream E (pos + 1) u).length = u.length := length_applyKeystream _ _
    have hfirst := h.waiting.read (E := E) (u := b :: u) (by omega) (by simp) (by simp)
    rw [hstream, show (marker :: applyKeystream E (pos + 1) u).take 1 = [marker] from rfl,
      show (b :: u).drop 1 = u from rfl] at hfirst
    have hcalled := h.waiting.called
    have hhead : (taken 1 c).packetHead = none := h.head
    simp only [packetCallback, TcpConnection.packetShortLength, List.getD_cons_zero] at hfirst
    by_cases hack : 0x80 ≤ marker.toNat
    · rw [if_pos hack] at hfirst
      have hcalled₁ : Called (pos + 1) calls { taken 1 c with quickAckByte := marker } :=
        ⟨hcalled.open_, hcalled.abridged, rfl, hcalled.position, hcalled.calls⟩
      obtain ⟨c₁, hc₁⟩ : ∃ c₁, TcpConnection.readDataToLength 3 .quickAck
        { taken 1 c with quickAckByte := marker } = c₁ := ⟨_, rfl⟩
      have hwait : Waiting 3 .quickAck (pos + 1) calls c₁ :=
        hc₁ ▸ hcalled₁.readDataToLength (k := 3) (by omega) .quickAck
      have hbyte : c₁.quickAckByte = marker ∧ c₁.packetHead = none := by
        rw [← hc₁]
        unfold TcpConnection.readDataToLength
        rw [if_neg (by omega)]
        exact ⟨rfl, hhead⟩
      rw [hc₁] at hfirst
      by_cases hrest : u.length < 3
      · rw [hwait.wait hrest] at hfirst
        refine parses_incomplete ?_ (hfirst ▸ hwait.calls) (hfirst ▸ hwait.open_)
        rw [hstream, abridgedNext, if_pos hack, if_pos (by omega)]
      · rw [hwait.read (by omega) (by omega) (by simp)] at hfirst
        refine parses_element (k := 4) (o := [.receivedQuickAck (lengthQuickAck
          (marker :: applyKeystream E (pos + 1) u))]) ?_ hfirst (ih' (by omega) ?_)
        · rw [hstream, abridgedNext, if_pos hack, if_neg (by omega)]
        · have hboundary : Boundary (pos + 1 + 3) (calls ++ [.receivedQuickAck (lengthQuickAck
              (marker :: (applyKeystream E (pos + 1) u).take 3))])
              (packetCallback .quickAck ((applyKeystream E (pos + 1) u).take 3) (taken 3 c₁)) := by
            rw [← hbyte.1]
            exact (hwait.called.tell _).readPacketLength hbyte.2
          have hid := lengthQuickAck_append (marker :: (applyKeystream E (pos + 1) u).take 3)
            ((applyKeystream E (pos + 1) u).drop 3) (by simp; omega)
          rw [List.cons_append, List.take_append_drop] at hid
          rwa [hid]
    rw [if_neg hack] at hfirst
    by_cases hshort : 1 ≤ marker.toNat ∧ marker.toNat ≤ 0x7e
    · rw [if_pos hshort] at hfirst
      refine parses_body (m := 1) (by simp) hfirst
        (hcalled.readPacketBody hhead (by omega) u) ?_ (ih' (by omega))
      rw [hstream]
      simp only [abridgedNext, List.drop_one, List.tail_cons]
      rw [if_neg hack, if_neg (by omega), if_neg (by rw [socketMaxMessageLength]; omega), hlength]
    rw [if_neg hshort] at hfirst
    by_cases hlong : marker.toNat = 0x7f
    · rw [if_pos hlong] at hfirst
      have hwait := hcalled.readDataToLength (k := 3) (by omega) .packetLongLength
      have hhead₁ : ((taken 1 c).readDataToLength 3 .packetLongLength).packetHead = none := hhead
      obtain ⟨c₁, hc₁⟩ : ∃ c₁, (taken 1 c).readDataToLength 3 .packetLongLength = c₁ := ⟨_, rfl⟩
      rw [hc₁] at hfirst hwait hhead₁
      by_cases hrest : u.length < 3
      · rw [hwait.wait hrest] at hfirst
        refine parses_incomplete ?_ (hfirst ▸ hwait.calls) (hfirst ▸ hwait.open_)
        rw [hstream, abridgedNext, if_neg hack, if_pos hlong, if_pos (by omega)]
      rw [hwait.read (by omega) (by omega) (by simp)] at hfirst
      simp only [packetCallback, TcpConnection.packetLongLength, List.take_take, Nat.min_self]
        at hfirst
      obtain ⟨q, hq⟩ : ∃ q, word ((applyKeystream E (pos + 1) u).take 3) = q := ⟨_, rfl⟩
      rw [hq] at hfirst
      have hnext : abridgedNext socketMaxMessageLength (applyKeystream E pos (b :: u)) =
          if q * 4 = 0 ∨ socketMaxMessageLength < q * 4 then .malformed
          else if (applyKeystream E (pos + 1) u).length - 3 < q * 4 then .incomplete
          else .element (packetCalls (((applyKeystream E (pos + 1) u).drop 3).take (q * 4)))
            (4 + q * 4) := by
        rw [hstream, abridgedNext, if_neg hack, if_pos hlong, if_neg (by omega), hq]
      by_cases hbad : q = 0 ∨ 4 * 1024 * 1024 / 4 < q
      · rw [if_pos hbad] at hfirst
        obtain ⟨hcalls, hclosed⟩ := hwait.called.close (E := E) (u.drop 3)
        refine parses_malformed ?_ (hfirst ▸ hcalls) (hfirst ▸ hclosed)
        rw [hnext, if_pos (by rw [socketMaxMessageLength]; omega)]
      · rw [if_neg hbad] at hfirst
        have hbody := hwait.called.readPacketBody (E := E) (k := q * 4) hhead₁ (by omega)
          (u.drop 3)
        refine parses_body (m := 4) (by simp; omega) hfirst hbody ?_ (ih' (by omega))
        rw [hnext, if_neg (by rw [socketMaxMessageLength]; omega), hstream, hlength]
        simp only [List.drop_succ_cons, List.length_drop]
    rw [if_neg hlong] at hfirst
    obtain ⟨hcalls, hclosed⟩ := hcalled.close (E := E) u
    refine parses_malformed ?_ (hfirst ▸ hcalls) (hfirst ▸ hclosed)
    rw [hstream, abridgedNext, if_neg hack, if_neg hlong, if_pos (by left; omega)]

end Onegram.Tcp
