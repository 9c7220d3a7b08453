import Onegram.Srtp

/-!
# No key stream is used twice

The rollover counter belongs to the transport and starts over whenever the stream changes. While
no stream is returned to after it has wrapped, the counter is that of the stream, and the packets of
a stream have the 48-bit indices that follow its first sequence number.
-/

namespace Onegram

open Run

variable (aes : Bytes → Bytes → Bytes) (hmacSha1 : Bytes → Bytes → Bytes)

/-! ## What is asked, and when it holds -/

/-- The indices used for a stream, in order. -/
def streamOf (used : List KeystreamIndex) (ssrc : UInt32) : List KeystreamIndex :=
  used.filter (·.ssrc = ssrc)

/-- A packet has the sequence number after that of the last one of its stream. -/
def Consecutive (s : SrtpRun) (packet : Bytes) : Prop :=
  rtpHeaderLength packet ≠ 0 →
    ∀ i ∈ (streamOf s.used (read32 packet 8)).getLast?, read16 packet 2 = i.sequence + 1

/-- A packet that switches back to a stream finds it before its first wrap, and no stream has used
up its indices. -/
def KeepsCounter (s : SrtpRun) (packet : Bytes) : Prop :=
  rtpHeaderLength packet ≠ 0 →
    (s.sender.initialized → s.sender.ssrc ≠ read32 packet 8 →
      ∀ i ∈ streamOf s.used (read32 packet 8), i.sequence < read16 packet 2)
    ∧ (streamOf s.used (read32 packet 8)).length < 2 ^ 48

instance (s : SrtpRun) (packet : Bytes) : Decidable (Consecutive s packet) :=
  inferInstanceAs (Decidable (_ → _))

instance (s : SrtpRun) (packet : Bytes) : Decidable (KeepsCounter s packet) :=
  inferInstanceAs (Decidable (_ → _))

/-! ## One call -/

variable {aes hmacSha1} {s : SrtpRun} {sender sp : SrtpSender} {packet : Bytes}

theorem length_counterStream (key iv : Bytes) (n : ℕ) : (counterStream aes key iv n).length = n := by
  simp [counterStream]

theorem prepareSrtpKeys_cases (h : prepareSrtpKeys aes sender = some sp) :
    sp.hasKeys ∧ (sp = sender ∧ sender.hasKeys
      ∨ sender.hasKeys = false ∧ sp.initialized = false) := by
  unfold prepareSrtpKeys at h
  by_cases hkeys : sender.hasKeys
  · rw [if_pos hkeys] at h
    split_ifs at h
    cases h
    exact ⟨hkeys, .inl ⟨rfl, hkeys⟩⟩
  · rw [if_neg hkeys] at h
    simp only [] at h
    split_ifs at h
    all_goals
      cases h
      exact ⟨by simp [SrtpSender.hasKeys, srtpKdf, length_counterStream],
        .inr ⟨by simpa using hkeys, rfl⟩⟩

theorem rtpHeaderLength_le (data : Bytes) : rtpHeaderLength data ≤ data.length := by
  unfold rtpHeaderLength
  simp only []
  split_ifs <;> omega

theorem updateRoc_hasKeys (ssrc : UInt32) (sequence : UInt16) :
    (updateRoc sender ssrc sequence).hasKeys = sender.hasKeys := by
  unfold updateRoc
  simp only []
  split_ifs <;> rfl

/-- With keys, a packet is sent under the counter that was just updated. -/
theorem protectStep_send (hprep : prepareSrtpKeys aes s.sender = some sp)
    (hheader : rtpHeaderLength packet ≠ 0) :
    protectStep aes hmacSha1 s packet
      = ⟨updateRoc sp (read32 packet 8) (read16 packet 2),
          s.used ++ [⟨read32 packet 8,
            (updateRoc sp (read32 packet 8) (read16 packet 2)).roc, read16 packet 2⟩]⟩ := by
  have hle := rtpHeaderLength_le packet
  have hlong : ¬ packet.length < 12 := fun h => hheader (by simp [rtpHeaderLength, h])
  obtain ⟨u, hu⟩ : ∃ u, updateRoc sp (read32 packet 8) (read16 packet 2) = u := ⟨_, rfl⟩
  have hkeys : u.hasKeys := by
    rw [← hu, updateRoc_hasKeys]
    exact (prepareSrtpKeys_cases hprep).1
  simp only [SrtpSender.hasKeys, decide_eq_true_iff] at hkeys
  simp [protectStep, protectRtp, hprep, hheader, hlong, hu, srtpCryptPayload,
    srtpAuthenticationTag, hkeys, not_lt.2 hle]

/-- A call sends nothing, or it has keys and sends the packet. -/
theorem protectStep_cases (s : SrtpRun) (packet : Bytes) :
    ((protectStep aes hmacSha1 s packet).used = s.used
        ∧ ((protectStep aes hmacSha1 s packet).sender = s.sender
          ∨ prepareSrtpKeys aes s.sender = some (protectStep aes hmacSha1 s packet).sender))
      ∨ ∃ sp, prepareSrtpKeys aes s.sender = some sp ∧ rtpHeaderLength packet ≠ 0 := by
  rcases hprep : prepareSrtpKeys aes s.sender with _ | sp
  · left
    simp [protectStep, protectRtp, hprep]
  · by_cases hheader : rtpHeaderLength packet = 0
    · left
      simp [protectStep, protectRtp, hprep, hheader]
    · exact .inr ⟨sp, rfl, hheader⟩

/-! ## The counter of a stream -/

/-- The index of the packet at position `e` of a stream, counted from the sequence number 0 before
its first packet. -/
def indexAt (ssrc : UInt32) (e : ℕ) : KeystreamIndex :=
  ⟨ssrc, UInt32.ofNat (e / 65536), UInt16.ofNat e⟩

theorem indexAt_inj {ssrc : UInt32} {e e' : ℕ} (h : indexAt ssrc e = indexAt ssrc e') :
    e % 2 ^ 48 = e' % 2 ^ 48 := by
  simp only [indexAt, KeystreamIndex.mk.injEq, true_and] at h
  have hroc := congrArg UInt32.toNat h.1
  have hseq := congrArg UInt16.toNat h.2
  simp only [UInt32.toNat_ofNat', UInt16.toNat_ofNat'] at hroc hseq
  omega

/-- The used indices of a stream are those of consecutive positions. -/
def StreamRight (l : List KeystreamIndex) (ssrc : UInt32) : Prop :=
  ∃ start < 65536, l = (List.range l.length).map fun k => indexAt ssrc (start + k)

theorem StreamRight.nodup {l : List KeystreamIndex} {ssrc : UInt32} (h : StreamRight l ssrc)
    (hlen : l.length ≤ 2 ^ 48) : l.Nodup := by
  obtain ⟨start, -, hl⟩ := h
  rw [hl]
  refine List.Nodup.map_on (fun a ha b hb hab => ?_) List.nodup_range
  rw [List.mem_range] at ha hb
  have := indexAt_inj hab
  omega

theorem nodup_of_streams {used : List KeystreamIndex} (h : ∀ ssrc, (streamOf used ssrc).Nodup) :
    used.Nodup := by
  rw [List.nodup_iff_count_le_one]
  intro i
  have := List.nodup_iff_count_le_one.1 (h i.ssrc) i
  rwa [streamOf, List.count_filter (by simp)] at this

theorem updateRoc_switch {ssrc : UInt32} {sequence : UInt16}
    (h : sender.initialized = false ∨ sender.ssrc ≠ ssrc) :
    updateRoc sender ssrc sequence
      = { sender with ssrc := ssrc, roc := 0, lastSequence := sequence, initialized := true } := by
  rw [updateRoc, if_pos (by simpa using h)]

/-- The next packet of the stream that is current moves the counter on when it wraps. -/
theorem updateRoc_next {e : ℕ} (hinit : sender.initialized = true)
    (hroc : sender.roc = UInt32.ofNat (e / 65536))
    (hlast : sender.lastSequence = UInt16.ofNat e) :
    updateRoc sender sender.ssrc (UInt16.ofNat e + 1)
      = { sender with
          roc := UInt32.ofNat ((e + 1) / 65536)
          lastSequence := UInt16.ofNat (e + 1) } := by
  have hnext : UInt16.ofNat e + 1 = UInt16.ofNat (e + 1) := by simp
  have hnat : (UInt16.ofNat (e + 1)).toNat = (e + 1) % 65536 := by simp
  have hnat' : sender.lastSequence.toNat = e % 65536 := by simp [hlast]
  rw [hnext]
  unfold updateRoc
  rw [if_neg (by simp [hinit])]
  simp only [hnat, hnat']
  by_cases hwrap : e % 65536 = 65535
  · have hdiv : (e + 1) / 65536 = e / 65536 + 1 := by omega
    rw [if_pos (by omega), hroc, hdiv]
    simp
  · have hdiv : (e + 1) / 65536 = e / 65536 := by omega
    rw [if_neg (by omega), if_pos (by omega), hdiv, hroc]

/-! ## The invariant -/

structure SrtpInv (s : SrtpRun) : Prop where
  keyless : s.sender.hasKeys = false → s.sender.initialized = false
  unsent : s.sender.initialized = false → s.used = []
  stream : ∀ ssrc, StreamRight (streamOf s.used ssrc) ssrc
  short : ∀ ssrc, (streamOf s.used ssrc).length ≤ 2 ^ 48
  current : s.sender.initialized = true → (streamOf s.used s.sender.ssrc).getLast?
    = some ⟨s.sender.ssrc, s.sender.roc, s.sender.lastSequence⟩

theorem streamOf_append_self (used : List KeystreamIndex) (ssrc roc : UInt32) (sequence : UInt16) :
    streamOf (used ++ [⟨ssrc, roc, sequence⟩]) ssrc
      = streamOf used ssrc ++ [⟨ssrc, roc, sequence⟩] := by
  simp [streamOf, List.filter_append]

theorem streamOf_append_other {ssrc ssrc' : UInt32} (used : List KeystreamIndex) (roc : UInt32)
    (sequence : UInt16) (h : ssrc ≠ ssrc') :
    streamOf (used ++ [⟨ssrc, roc, sequence⟩]) ssrc' = streamOf used ssrc' := by
  simp [streamOf, List.filter_append, h]

theorem StreamRight.append {l : List KeystreamIndex} {ssrc : UInt32} {start : ℕ}
    (hstart : start < 65536) (hl : l = (List.range l.length).map fun k => indexAt ssrc (start + k)) :
    StreamRight (l ++ [indexAt ssrc (start + l.length)]) ssrc := by
  refine ⟨start, hstart, ?_⟩
  rw [List.length_append, List.length_singleton, List.range_succ, List.map_append, ← hl,
    List.map_singleton]

theorem StreamRight.singleton (ssrc : UInt32) (sequence : UInt16) :
    StreamRight [⟨ssrc, 0, sequence⟩] ssrc := by
  have hlt : sequence.toNat < 65536 := sequence.toNat_lt
  refine ⟨sequence.toNat, hlt, ?_⟩
  have hdiv : sequence.toNat / 65536 = 0 := Nat.div_eq_of_lt hlt
  simp [indexAt, hdiv]

/-- A stream whose sequence numbers are all below the next one has not wrapped. -/
theorem StreamRight.unwrapped {l : List KeystreamIndex} {ssrc : UInt32} {start : ℕ}
    (hstart : start < 65536) (hl : l = (List.range l.length).map fun k => indexAt ssrc (start + k))
    (hlt : ∀ i ∈ l, i.sequence < UInt16.ofNat (start + l.length)) : start + l.length < 65536 := by
  have hbelow : ∀ k < l.length, (start + k) % 65536 < (start + l.length) % 65536 := by
    intro k hk
    have hmem : indexAt ssrc (start + k) ∈ l := by
      rw [hl]
      exact List.mem_map.2 ⟨k, List.mem_range.2 hk, rfl⟩
    have := UInt16.lt_iff_toNat_lt.1 (hlt _ hmem)
    simpa [indexAt] using this
  by_contra hge
  rcases lt_or_ge l.length 65536 with hshort | hlong
  · have := hbelow 0 (by omega)
    omega
  · have := hbelow (l.length - 65536) (by omega)
    omega

theorem StreamRight.getLast {l : List KeystreamIndex} {ssrc : UInt32} {start : ℕ}
    {i : KeystreamIndex}
    (hl : l = (List.range l.length).map fun k => indexAt ssrc (start + k))
    (hi : l.getLast? = some i) :
    0 < l.length ∧ i = indexAt ssrc (start + (l.length - 1)) := by
  have hpos : 0 < l.length := by
    rcases l with _ | ⟨a, l⟩
    · simp at hi
    · simp
  refine ⟨hpos, ?_⟩
  rw [hl, List.getLast?_map, List.getLast?_range, if_neg (by omega)] at hi
  simpa using hi.symm

namespace SrtpInv

variable {used : List KeystreamIndex} {ssrc : UInt32} {sequence : UInt16}

/-- What updating the counter gives for the next packet of a stream. -/
theorem updateRoc (h : SrtpInv ⟨sp, used⟩)
    (hnext : ∀ i ∈ (streamOf used ssrc).getLast?, sequence = i.sequence + 1)
    (hback : sp.initialized = true → sp.ssrc ≠ ssrc →
      ∀ i ∈ streamOf used ssrc, i.sequence < sequence) :
    (updateRoc sp ssrc sequence).initialized = true ∧ (updateRoc sp ssrc sequence).ssrc = ssrc
      ∧ (updateRoc sp ssrc sequence).lastSequence = sequence
      ∧ StreamRight (streamOf used ssrc ++ [⟨ssrc, (updateRoc sp ssrc sequence).roc, sequence⟩])
          ssrc := by
  obtain ⟨start, hstart, hl⟩ : StreamRight (streamOf used ssrc) ssrc := h.stream ssrc
  by_cases hswitch : sp.initialized = false ∨ sp.ssrc ≠ ssrc
  · rw [updateRoc_switch hswitch]
    refine ⟨rfl, rfl, rfl, ?_⟩
    rcases hlast : (streamOf used ssrc).getLast? with _ | i
    · rw [List.getLast?_eq_none_iff] at hlast
      rw [hlast]
      exact .singleton ssrc sequence
    · -- The stream is returned to, so it has not wrapped and its counter is still 0.
      obtain ⟨hpos, hi⟩ := StreamRight.getLast hl hlast
      have hseq : sequence = UInt16.ofNat (start + (streamOf used ssrc).length) := by
        rw [hnext i hlast, hi]
        have : start + (streamOf used ssrc).length
            = start + ((streamOf used ssrc).length - 1) + 1 := by omega
        rw [this]
        simp [indexAt]
      have hinit : sp.initialized = true := by
        by_contra hno
        have hnil : used = [] := h.unsent (by simpa using hno)
        simp [hnil, streamOf] at hpos
      have hunwrapped := StreamRight.unwrapped hstart hl
        (hseq ▸ hback hinit (hswitch.resolve_left (by simp [hinit])))
      have hidx : (⟨ssrc, 0, sequence⟩ : KeystreamIndex)
          = indexAt ssrc (start + (streamOf used ssrc).length) := by
        simp [indexAt, hseq, Nat.div_eq_of_lt hunwrapped]
      exact hidx ▸ StreamRight.append hstart hl
  · rw [not_or, not_not, Bool.not_eq_false] at hswitch
    obtain ⟨hinit, rfl⟩ := hswitch
    have hlast : (streamOf used sp.ssrc).getLast? = some ⟨sp.ssrc, sp.roc, sp.lastSequence⟩ :=
      h.current hinit
    obtain ⟨hpos, hi⟩ := StreamRight.getLast hl hlast
    obtain ⟨e, he⟩ : ∃ e, start + ((streamOf used sp.ssrc).length - 1) = e := ⟨_, rfl⟩
    have he' : start + (streamOf used sp.ssrc).length = e + 1 := by omega
    rw [he] at hi
    simp only [indexAt, KeystreamIndex.mk.injEq, true_and] at hi
    have hseq : sequence = UInt16.ofNat e + 1 := by
      rw [hnext _ hlast]
      exact congrArg (· + 1) hi.2
    have hseq' : UInt16.ofNat e + 1 = UInt16.ofNat (e + 1) := by simp
    rw [hseq, updateRoc_next hinit hi.1 hi.2, hseq']
    refine ⟨hinit, rfl, rfl, ?_⟩
    have := StreamRight.append hstart hl
    rwa [he'] at this

theorem send (h : SrtpInv ⟨sp, used⟩) (hkeys : sp.hasKeys)
    (hnext : ∀ i ∈ (streamOf used ssrc).getLast?, sequence = i.sequence + 1)
    (hback : sp.initialized = true → sp.ssrc ≠ ssrc →
      ∀ i ∈ streamOf used ssrc, i.sequence < sequence)
    (hlen : (streamOf used ssrc).length < 2 ^ 48) :
    SrtpInv ⟨Onegram.updateRoc sp ssrc sequence,
      used ++ [⟨ssrc, (Onegram.updateRoc sp ssrc sequence).roc, sequence⟩]⟩ := by
  obtain ⟨hinit, hssrc, hlast, hright⟩ := h.updateRoc hnext hback
  have hkeys' : (Onegram.updateRoc sp ssrc sequence).hasKeys = true := by
    rwa [updateRoc_hasKeys]
  refine ⟨fun hno => ?_, fun hno => ?_, fun x => ?_, fun x => ?_, fun _ => ?_⟩
  · rw [hkeys'] at hno
    cases hno
  · rw [hinit] at hno
    cases hno
  · rcases eq_or_ne ssrc x with rfl | hne
    · rw [streamOf_append_self]
      exact hright
    · rw [streamOf_append_other _ _ _ hne]
      exact h.stream x
  · rcases eq_or_ne ssrc x with rfl | hne
    · rw [streamOf_append_self, List.length_append, List.length_singleton]
      omega
    · rw [streamOf_append_other _ _ _ hne]
      exact h.short x
  · simp only [hssrc, hlast, streamOf_append_self, List.getLast?_concat]

/-- Deriving the keys changes nothing of what was sent. -/
theorem prepare (h : SrtpInv s) (hprep : prepareSrtpKeys aes s.sender = some sp) :
    SrtpInv ⟨sp, s.used⟩ ∧ (sp = s.sender ∨ s.used = []) := by
  obtain ⟨hkeys, ⟨rfl, -⟩ | ⟨hnone, hinit⟩⟩ := prepareSrtpKeys_cases hprep
  · exact ⟨h, .inl rfl⟩
  · have hnil := h.unsent (h.keyless hnone)
    refine ⟨⟨fun _ => hinit, fun _ => hnil, h.stream, h.short, fun hyes => ?_⟩, .inr hnil⟩
    rw [hinit] at hyes
    cases hyes

theorem step (h : SrtpInv s) (hnext : Consecutive s packet) (hok : KeepsCounter s packet) :
    SrtpInv (protectStep aes hmacSha1 s packet) := by
  rcases protectStep_cases s packet with ⟨hused, hsender | hprep⟩ | ⟨sp, hprep, hheader⟩
  · rwa [SrtpRun.ext hsender hused]
  · have := (h.prepare hprep).1
    rwa [← hused] at this
  · obtain ⟨hinv, hsame⟩ := h.prepare hprep
    rw [protectStep_send hprep hheader]
    refine hinv.send (prepareSrtpKeys_cases hprep).1 (hnext hheader) ?_ (hok hheader).2
    rcases hsame with rfl | hnil
    · exact (hok hheader).1
    · simp [streamOf, hnil]

end SrtpInv

/-! ## Every run -/

/-- Over every sequence of calls in which the packets of each stream are consecutive and no stream
is returned to after it has wrapped, no two packets are encrypted under the same index. -/
theorem srtp_indices_nodup (ready isClient : Bool) (keyMaterial : Bytes) (packets : List Bytes)
    (hnext : AllSteps (protectStep aes hmacSha1) Consecutive
      ⟨.start ready isClient keyMaterial, []⟩ packets)
    (hok : AllSteps (protectStep aes hmacSha1) KeepsCounter
      ⟨.start ready isClient keyMaterial, []⟩ packets) :
    (run (protectStep aes hmacSha1) ⟨.start ready isClient keyMaterial, []⟩ packets).used.Nodup := by
  have hstart : SrtpInv ⟨.start ready isClient keyMaterial, []⟩ :=
    ⟨fun _ => rfl, fun _ => rfl, fun _ => ⟨0, by omega, rfl⟩, fun _ => by simp [streamOf],
      fun h => by cases h⟩
  have hrun := invariant (fun _ _ h hok => SrtpInv.step h hok.1 hok.2) packets hstart
    (hnext.and _ hok)
  exact nodup_of_streams fun ssrc => (hrun.stream ssrc).nodup (hrun.short ssrc)

/-! ## A stream that is returned to after it has wrapped -/

/-- An RTP packet without payload. -/
def rtpPacket (ssrc : UInt32) (sequence : ℕ) : Bytes :=
  [0x80, 0] ++ Bytes.bytesBE 2 sequence ++ [0, 0, 0, 0] ++ Bytes.bytesBE 4 ssrc.toNat

theorem read16_rtpPacket (ssrc : UInt32) (sequence : ℕ) :
    read16 (rtpPacket ssrc sequence) 2 = UInt16.ofNat sequence := by
  have hlow : sequence % 256 < 2 ^ 8 := by omega
  have hor : sequence / 256 % 256 * 256 + sequence % 256
      = sequence / 256 % 256 * 256 ||| sequence % 256 := by
    simpa [Nat.shiftLeft_eq] using Nat.shiftLeft_add_eq_or_of_lt hlow (sequence / 256 % 256)
  have hmod : sequence / 256 % 256 * 256 % 65536 = sequence / 256 % 256 * 256 := by omega
  apply UInt16.toNat_inj.1
  simp [read16, rtpPacket, Bytes.bytesBE, Nat.shiftLeft_eq]
  rw [hmod, ← hor]
  omega

theorem rtpHeaderLength_rtpPacket (ssrc : UInt32) (sequence : ℕ) :
    rtpHeaderLength (rtpPacket ssrc sequence) = 12 := by
  simp [rtpHeaderLength, rtpPacket, Bytes.bytesBE]

/-- A transport whose handshake is done. -/
def SrtpSender.Ready (s : SrtpSender) : Prop := s.ready = true ∧ s.keyMaterial.length = 60

theorem prepareSrtpKeys_ready (aes : Bytes → Bytes → Bytes) (h : sender.Ready) :
    ∃ sp, prepareSrtpKeys aes sender = some sp ∧ sp.Ready := by
  unfold prepareSrtpKeys
  rw [if_neg (by simp [h.1, h.2])]
  by_cases hkeys : sender.hasKeys
  · exact ⟨sender, by rw [if_pos hkeys], h⟩
  · rw [if_neg hkeys]
    exact ⟨_, rfl, h⟩

theorem updateRoc_ready (h : sp.Ready) (ssrc : UInt32) (sequence : UInt16) :
    (updateRoc sp ssrc sequence).Ready ∧ (updateRoc sp ssrc sequence).ssrc = ssrc
      ∧ (updateRoc sp ssrc sequence).initialized = true := by
  unfold updateRoc
  simp only []
  split_ifs with hswitch
  · exact ⟨h, rfl, rfl⟩
  all_goals
    rw [not_or, not_not, Bool.not_eq_true, Bool.not_eq_false'] at hswitch
    exact ⟨h, hswitch.2, hswitch.1⟩

/-- A packet sent by a transport that is ready. -/
theorem protectStep_ready (h : s.sender.Ready) (hheader : rtpHeaderLength packet ≠ 0) :
    (protectStep aes hmacSha1 s packet).sender.Ready
      ∧ (protectStep aes hmacSha1 s packet).sender.ssrc = read32 packet 8
      ∧ ∃ roc, (protectStep aes hmacSha1 s packet).used
          = s.used ++ [⟨read32 packet 8, roc, read16 packet 2⟩]
        ∧ (s.sender.initialized = false ∨ s.sender.ssrc ≠ read32 packet 8 → roc = 0) := by
  obtain ⟨sp, hprep, hready⟩ := prepareSrtpKeys_ready aes h
  obtain ⟨hready', hssrc, -⟩ := updateRoc_ready hready (read32 packet 8) (read16 packet 2)
  rw [protectStep_send hprep hheader]
  refine ⟨hready', hssrc, _, rfl, fun hswitch => ?_⟩
  have hswitch' : sp.initialized = false ∨ sp.ssrc ≠ read32 packet 8 := by
    obtain ⟨-, ⟨rfl, -⟩ | ⟨-, hinit⟩⟩ := prepareSrtpKeys_cases hprep
    · exact hswitch
    · exact .inl hinit
  rw [updateRoc_switch hswitch']

theorem read32_rtpPacket_one (sequence : ℕ) : read32 (rtpPacket 1 sequence) 8 = 1 := by
  simp [read32, rtpPacket, Bytes.bytesBE]

theorem read32_rtpPacket_two (sequence : ℕ) : read32 (rtpPacket 2 sequence) 8 = 2 := by
  simp [read32, rtpPacket, Bytes.bytesBE]

/-- What the first `n` packets of a stream from sequence number 0 leave. -/
structure StreamSent (s : SrtpRun) (n : ℕ) : Prop where
  ready : s.sender.Ready
  unsent : n = 0 → s.sender.initialized = false
  numbers : s.used.map (fun i => (i.ssrc, i.sequence))
    = (List.range n).map fun k => (1, UInt16.ofNat k)
  first : 0 < n → s.used.head? = some ⟨1, 0, 0⟩

theorem StreamSent.streamOf_eq {n : ℕ} (h : StreamSent s n) : streamOf s.used 1 = s.used := by
  refine List.filter_eq_self.2 fun i hi => ?_
  have hmem := List.mem_map_of_mem (f := fun i : KeystreamIndex => (i.ssrc, i.sequence)) hi
  rw [h.numbers] at hmem
  obtain ⟨k, -, hk⟩ := List.mem_map.1 hmem
  simpa using (congrArg Prod.fst hk).symm

theorem StreamSent.last {n : ℕ} (h : StreamSent s n) {i : KeystreamIndex}
    (hi : (streamOf s.used 1).getLast? = some i) : UInt16.ofNat n = i.sequence + 1 := by
  rw [h.streamOf_eq] at hi
  have hlast := congrArg List.getLast? h.numbers
  rw [List.getLast?_map, List.getLast?_map, hi, List.getLast?_range] at hlast
  rcases n with _ | n
  · simp at hlast
  · have : i.sequence = UInt16.ofNat n := by simpa using congrArg (Option.map Prod.snd) hlast
    rw [this]
    simp

theorem StreamSent.next {n : ℕ} (h : StreamSent s n) :
    StreamSent (protectStep aes hmacSha1 s (rtpPacket 1 n)) (n + 1) := by
  have hheader : rtpHeaderLength (rtpPacket 1 n) ≠ 0 := by simp [rtpHeaderLength_rtpPacket]
  obtain ⟨hready, -, roc, hused, hroc⟩ :=
    @protectStep_ready aes hmacSha1 s (rtpPacket 1 n) h.ready hheader
  rw [read32_rtpPacket_one, read16_rtpPacket] at hused
  refine ⟨hready, fun hno => by omega, ?_, fun _ => ?_⟩
  · rw [hused, List.map_append, h.numbers, List.range_succ, List.map_append]
    rfl
  · rw [hused]
    rcases n with _ | n
    · have hnil : s.used = [] := by simpa using h.numbers
      rw [hnil, hroc (.inl (h.unsent rfl))]
      rfl
    · rw [List.head?_append, h.first (Nat.succ_pos n)]
      rfl

theorem run_stream (hs : StreamSent s 0) : ∀ n : ℕ,
    StreamSent (run (protectStep aes hmacSha1) s ((List.range n).map (rtpPacket 1))) n
      ∧ AllSteps (protectStep aes hmacSha1) Consecutive s ((List.range n).map (rtpPacket 1))
  | 0 => ⟨hs, trivial⟩
  | n + 1 => by
    obtain ⟨hsent, hsteps⟩ := run_stream hs n
    rw [List.range_succ, List.map_append, run_append, allSteps_append]
    refine ⟨hsent.next, hsteps, fun _ i hi => ?_, trivial⟩
    rw [read32_rtpPacket_one] at hi
    rw [read16_rtpPacket]
    exact hsent.last hi

theorem StreamSent.streamOf_other {n : ℕ} (h : StreamSent s n) : streamOf s.used 2 = [] := by
  rw [← h.streamOf_eq, streamOf, streamOf, List.filter_filter, List.filter_eq_nil_iff]
  simp +contextual

/-- After a whole turn of the stream, a packet of another stream makes its counter start over. -/
theorem StreamSent.reuse {n : ℕ} (h : StreamSent s n) (hpos : 0 < n)
    (hturn : UInt16.ofNat n = 0) :
    AllSteps (protectStep aes hmacSha1) Consecutive s [rtpPacket 2 0, rtpPacket 1 n]
      ∧ ¬ (run (protectStep aes hmacSha1) s [rtpPacket 2 0, rtpPacket 1 n]).used.Nodup := by
  have hheader : ∀ ssrc n, rtpHeaderLength (rtpPacket ssrc n) ≠ 0 := by
    simp [rtpHeaderLength_rtpPacket]
  obtain ⟨hready, hssrc, roc, hused, -⟩ :=
    @protectStep_ready aes hmacSha1 s (rtpPacket 2 0) h.ready (hheader 2 0)
  obtain ⟨s', hs'⟩ : ∃ s', protectStep aes hmacSha1 s (rtpPacket 2 0) = s' := ⟨_, rfl⟩
  rw [hs'] at hready hssrc hused
  rw [read32_rtpPacket_two] at hssrc hused
  obtain ⟨-, -, roc', hused', hroc'⟩ :=
    @protectStep_ready aes hmacSha1 s' (rtpPacket 1 n) hready (hheader 1 n)
  rw [read32_rtpPacket_one] at hused' hroc'
  rw [hroc' (.inr (by rw [hssrc]; decide)), read16_rtpPacket, hturn] at hused'
  refine ⟨⟨fun _ i hi => ?_, fun _ i hi => ?_, trivial⟩, ?_⟩
  · rw [read32_rtpPacket_two, h.streamOf_other] at hi
    simp at hi
  · rw [hs', hused, read32_rtpPacket_one, streamOf_append_other _ _ _ (by decide)] at hi
    rw [read16_rtpPacket]
    exact h.last hi
  · obtain ⟨rest, hrest⟩ := List.head?_eq_some_iff.1 (h.first hpos)
    rw [run_cons, run_cons, run_nil, hs', hused', hused, hrest]
    simp

/-- A whole turn of one stream, a packet of another, and the first stream again. -/
def wrappedPackets (n : ℕ) : List Bytes :=
  (List.range n).map (rtpPacket 1) ++ [rtpPacket 2 0, rtpPacket 1 n]

theorem wrappedPackets_reuse (keyMaterial : Bytes) (hlen : keyMaterial.length = 60) {n : ℕ}
    (hpos : 0 < n) (hturn : UInt16.ofNat n = 0) :
    AllSteps (protectStep aes hmacSha1) Consecutive ⟨.start true true keyMaterial, []⟩
        (wrappedPackets n)
      ∧ ¬ (run (protectStep aes hmacSha1) ⟨.start true true keyMaterial, []⟩
          (wrappedPackets n)).used.Nodup := by
  have hstart : StreamSent ⟨.start true true keyMaterial, []⟩ 0 :=
    ⟨⟨rfl, hlen⟩, fun _ => rfl, rfl, fun h => absurd h (lt_irrefl 0)⟩
  obtain ⟨hsent, hsteps⟩ := @run_stream aes hmacSha1 _ hstart n
  obtain ⟨hsteps', hreuse⟩ := @StreamSent.reuse aes hmacSha1 _ _ hsent hpos hturn
  unfold wrappedPackets
  rw [allSteps_append, run_append]
  exact ⟨⟨hsteps, hsteps'⟩, hreuse⟩

/-- The last of these packets, with the sequence number 0 once more, is encrypted under the index of
the first. -/
theorem srtp_index_reused :
    AllSteps (protectStep (fun _ block => block) fun _ text => text) Consecutive
        ⟨.start true true (List.replicate 60 0), []⟩ (wrappedPackets 65536)
      ∧ ¬ (run (protectStep (fun _ block => block) fun _ text => text)
          ⟨.start true true (List.replicate 60 0), []⟩ (wrappedPackets 65536)).used.Nodup :=
  wrappedPackets_reuse _ List.length_replicate (by decide) (by decide)

/-- A stream that wraps, and then another. -/
theorem srtp_indices_nodup_wrap :
    (run (protectStep (fun _ block => block) fun _ text => text)
        ⟨.start true true (List.replicate 60 0), []⟩
        [rtpPacket 1 65535, rtpPacket 1 65536, rtpPacket 2 5]).used
      = [⟨1, 0, 65535⟩, ⟨1, 1, 0⟩, ⟨2, 0, 5⟩]
    ∧ (run (protectStep (fun _ block => block) fun _ text => text)
        ⟨.start true true (List.replicate 60 0), []⟩
        [rtpPacket 1 65535, rtpPacket 1 65536, rtpPacket 2 5]).used.Nodup :=
  ⟨by decide +kernel, srtp_indices_nodup true true _ _
    ⟨by decide +kernel, by decide +kernel, by decide +kernel, trivial⟩
    ⟨by decide +kernel, by decide +kernel, by decide +kernel, trivial⟩⟩

end Onegram
