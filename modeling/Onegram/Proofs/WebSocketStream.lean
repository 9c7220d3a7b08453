import Onegram.Proofs.TcpReads
import Onegram.Proofs.WebSocketFrames

/-!
# The stream of a WebSocket

Frames and socket reads cut the stream of packets anywhere. As long as no limit on sizes is
exceeded, what is delivered is what parsing the stream at once gives; a limit, or a frame that may
not come, closes the connection after a part of it.
-/

namespace Onegram.Tcp

open Elements ExactReader TcpConnection

variable {E : Environment} {c : TcpConnection} {s : Session} {pos : ℕ} {calls₀ : List Call}

/-! ## Deliveries -/

theorem deliveries_append (a b : List Call) :
    deliveries (a ++ b) = deliveries a ++ deliveries b := List.filter_append ..

theorem deliveries_packetCalls (data : Bytes) : deliveries (packetCalls data) = packetCalls data := by
  unfold packetCalls
  simp only []
  split_ifs <;> rfl

theorem deliveries_element {maxLength : ℕ} {b : Bytes} {o : List Call} {n : ℕ}
    (h : abridgedNext maxLength b = .element o n) : deliveries o = o := by
  rcases b with _ | ⟨marker, bytes⟩
  · simp [abridgedNext] at h
  simp only [abridgedNext] at h
  split_ifs at h <;> simp only [Next.element.injEq] at h <;> obtain ⟨rfl, -⟩ := h
  · rfl
  · exact deliveries_packetCalls _
  · exact deliveries_packetCalls _

theorem deliveries_parse {maxLength : ℕ} (b : Bytes) :
    deliveries (parse (abridged maxLength) b).out = (parse (abridged maxLength) b).out := by
  induction b using parse_induction (F := abridged maxLength) with
  | incomplete b h => rw [parse_incomplete h]; rfl
  | malformed b h => rw [parse_malformed h]; rfl
  | element b o n h ih => rw [parse_element h, deliveries_append, ih, deliveries_element h]

/-! ## The session along the frames -/

/-- The start of a session, and its state after some frames. -/
def Session.begin (pos : ℕ) (calls₀ : List Call) : Session := ⟨none, [], pos, calls₀, false⟩

/-- A session that is open has taken in the whole messages. -/
structure Open (E : Environment) (pos : ℕ) (calls₀ : List Call) (a : Bytes × Bytes)
    (s : Session) : Prop where
  open_ : s.closed = false
  pending : s.fragment.getD [] = a.2
  position : s.position = pos + a.1.length
  buffer : s.buffer = (parse packets (applyKeystream E pos a.1)).rest
  malformed : (parse packets (applyKeystream E pos a.1)).malformed = false
  delivered : deliveries s.calls =
    deliveries calls₀ ++ (parse packets (applyKeystream E pos a.1)).out

theorem begin_open : Open E pos calls₀ ([], []) (Session.begin pos calls₀) := by
  have hparse : parse packets (applyKeystream E pos []) = ⟨[], false, []⟩ :=
    parse_incomplete (F := packets) rfl
  refine ⟨rfl, rfl, rfl, ?_, ?_, ?_⟩
  · rw [hparse]
    rfl
  · rw [hparse]
  · rw [hparse]
    simp [Session.begin]

/-- A session that is closed has delivered what parsing a part of the stream gives. -/
structure Shut (E : Environment) (pos : ℕ) (calls₀ : List Call) (stream : Bytes)
    (s : Session) : Prop where
  closed : s.closed = true
  delivered : ∃ e, e <+: stream ∧
    deliveries s.calls = deliveries calls₀ ++ (parse packets (applyKeystream E pos e)).out

theorem deliveries_closed (calls : List Call) :
    deliveries (calls ++ [.closed]) = deliveries calls := by
  rw [deliveries_append]
  simp [deliveries]

theorem Open.shut {a : Bytes × Bytes} (h : Open E pos calls₀ a s) (stream : Bytes)
    (ha : a.1 <+: stream) {s' : Session} (hcalls : deliveries s'.calls = deliveries s.calls) :
    Shut E pos calls₀ stream s'.close :=
  ⟨rfl, a.1, ha, by rw [← h.delivered, ← hcalls]; exact deliveries_closed _⟩

variable {a : Bytes × Bytes} {m : Bytes}

theorem applyKeystream_message (h : Open E pos calls₀ a s) :
    parse packets (applyKeystream E pos (a.1 ++ m)) =
      ⟨(parse packets (applyKeystream E pos a.1)).out ++
          (parse packets (s.buffer ++ applyKeystream E s.position m)).out,
        (parse packets (s.buffer ++ applyKeystream E s.position m)).malformed,
        (parse packets (s.buffer ++ applyKeystream E s.position m)).rest⟩ := by
  rw [applyKeystream_append, parse_append _ _ h.malformed, h.buffer, h.position]

/-- A message that makes the buffer too long is lost. -/
theorem Open.message_long (h : Open E pos calls₀ a s) (hm : m ≠ [])
    (hlong : webSocketMaxMessageLength < s.buffer.length + m.length) :
    Shut E pos calls₀ a.1 (({ s with fragment := none } : Session).message E m) := by
  unfold Session.message
  rw [if_neg hm]
  simp only [List.length_append, length_applyKeystream]
  rw [if_pos hlong]
  exact h.shut a.1 List.prefix_rfl rfl

/-- A message that fits continues the parse. -/
theorem Open.message_fits (h : Open E pos calls₀ a s)
    (hfits : m = [] ∨ s.buffer.length + m.length ≤ webSocketMaxMessageLength) :
    if (parse packets (applyKeystream E pos (a.1 ++ m))).malformed then
      (({ s with fragment := none } : Session).message E m).closed = true ∧
      deliveries (({ s with fragment := none } : Session).message E m).calls =
        deliveries calls₀ ++ (parse packets (applyKeystream E pos (a.1 ++ m))).out
    else Open E pos calls₀ (a.1 ++ m, []) (({ s with fragment := none } : Session).message E m)
    := by
  unfold Session.message
  by_cases hm : m = []
  · subst hm
    rw [List.append_nil, if_neg (by simp [h.malformed]), if_pos rfl]
    exact ⟨h.open_, rfl, h.position, h.buffer, h.malformed, h.delivered⟩
  have hlong : ¬ webSocketMaxMessageLength < s.buffer.length + m.length :=
    not_lt.mpr (hfits.resolve_left hm)
  rw [if_neg hm]
  simp only [List.length_append, length_applyKeystream]
  rw [if_neg hlong]
  have hparse := applyKeystream_message (m := m) h
  obtain ⟨p, hp⟩ : ∃ p, parse packets (s.buffer ++ applyKeystream E s.position m) = p := ⟨_, rfl⟩
  have hout : deliveries p.out = p.out := hp ▸ deliveries_parse _
  rw [hp] at hparse
  rw [hparse, hp]
  simp only []
  split
  · refine ⟨rfl, ?_⟩
    simp only [Session.close]
    rw [deliveries_closed, deliveries_append, h.delivered, hout, List.append_assoc]
  · rename_i hok
    refine ⟨h.open_, rfl, ?_, ?_, ?_, ?_⟩
    · simp only [h.position, List.length_append]
      omega
    · simp only [hparse]
    · simpa only [hparse, Bool.not_eq_true] using hok
    · simp only [hparse]
      rw [deliveries_append, h.delivered, hout, List.append_assoc]

variable {f : Frame}

theorem prefix_assemble (a : Bytes × Bytes) (f : Frame) :
    a.1 ++ a.2 <+: (assemble a f).1 ++ (assemble a f).2 := by
  unfold assemble
  split_ifs
  · rw [List.append_nil, ← List.append_assoc]
    exact List.prefix_append _ _
  · rw [← List.append_assoc]
    exact List.prefix_append _ _
  · exact List.prefix_rfl

theorem prefix_assemble_fst (a : Bytes × Bytes) (f : Frame) :
    a.1 <+: (assemble a f).1 ++ (assemble a f).2 :=
  (List.prefix_append _ _).trans (prefix_assemble a f)

theorem isData_of_legal {begun : Bool} (hlegal : f.Legal begun) (h8 : f.opcode ≠ 8)
    (h9 : f.opcode ≠ 9) (hA : f.opcode ≠ 10) : f.isData = true := by
  have := hlegal.2.2.1
  simp only [List.mem_cons, List.not_mem_nil, or_false] at this
  simp only [Frame.isData, decide_eq_true_eq]
  omega

theorem assemble_control (a : Bytes × Bytes) (h : f.isData = false) : assemble a f = a := by
  unfold assemble
  rw [h]
  rfl

/-- A frame leaves the session open, with the frame taken in, or closed. -/
theorem Open.frame (h : Open E pos calls₀ a s) (f : Frame) :
    Open E pos calls₀ (assemble a f) (s.frame E f) ∨
    Shut E pos calls₀ ((assemble a f).1 ++ (assemble a f).2) (s.frame E f) := by
  have hbefore := prefix_assemble_fst a f
  unfold Session.frame
  rw [if_neg (by simp [h.open_])]
  split
  · exact .inr (h.shut _ hbefore rfl)
  rename_i hlegal
  rw [not_not] at hlegal
  split
  · exact .inr (h.shut _ hbefore rfl)
  unfold Session.payload
  by_cases h8 : f.opcode = 8
  · rw [if_pos h8]
    refine .inr (h.shut _ hbefore ?_)
    rw [deliveries_append]
    simp [deliveries]
  rw [if_neg h8]
  by_cases h9 : f.opcode = 9
  · rw [if_pos h9, assemble_control a (by simp [Frame.isData, h9])]
    refine .inl ⟨h.open_, h.pending, h.position, h.buffer, h.malformed, ?_⟩
    rw [← h.delivered, deliveries_append]
    simp [deliveries]
  rw [if_neg h9]
  by_cases hA : f.opcode = 10
  · rw [if_pos hA, assemble_control a (by simp [Frame.isData, hA])]
    exact .inl h
  rw [if_neg hA]
  have hdata := isData_of_legal hlegal h8 h9 hA
  unfold Session.data
  rw [h.pending]
  simp only []
  split
  · exact .inr (h.shut _ hbefore rfl)
  unfold assemble
  rw [if_pos hdata]
  split
  · by_cases hlong : webSocketMaxMessageLength < s.buffer.length + (a.2 ++ f.payload).length ∧
        a.2 ++ f.payload ≠ []
    · have hshut := h.message_long hlong.2 hlong.1
      obtain ⟨e, he, hdelivered⟩ := hshut.delivered
      exact .inr ⟨hshut.closed, e, he.trans ((List.prefix_append _ _).trans
        (List.prefix_append _ _)), hdelivered⟩
    · have hshort : a.2 ++ f.payload = [] ∨
          s.buffer.length + (a.2 ++ f.payload).length ≤ webSocketMaxMessageLength := by
        by_cases hm : a.2 ++ f.payload = []
        · exact .inl hm
        · exact .inr (not_lt.mp fun h => hlong ⟨h, hm⟩)
      have hfits := h.message_fits hshort
      split at hfits
      · exact .inr ⟨hfits.1, _, by simp, hfits.2⟩
      · exact .inl hfits
  · exact .inl ⟨h.open_, rfl, h.position, h.buffer, h.malformed, h.delivered⟩

theorem frame_of_closed (h : s.closed = true) (f : Frame) : s.frame E f = s := by
  unfold Session.frame
  rw [if_pos h]

theorem foldl_of_closed (h : s.closed = true) : ∀ fs : List Frame,
    fs.foldl (Session.frame E) s = s
  | [] => rfl
  | f :: fs => by rw [List.foldl_cons, frame_of_closed h f, foldl_of_closed h fs]

theorem prefix_foldl_assemble : ∀ (fs : List Frame) (a : Bytes × Bytes),
    a.1 ++ a.2 <+: (fs.foldl assemble a).1 ++ (fs.foldl assemble a).2
  | [], _ => List.prefix_rfl
  | f :: fs, a => (prefix_assemble a f).trans (prefix_foldl_assemble fs (assemble a f))

theorem Open.frames : ∀ (fs : List Frame) {a : Bytes × Bytes} {s : Session},
    Open E pos calls₀ a s →
    Open E pos calls₀ (fs.foldl assemble a) (fs.foldl (Session.frame E) s) ∨
    Shut E pos calls₀ ((fs.foldl assemble a).1 ++ (fs.foldl assemble a).2)
      (fs.foldl (Session.frame E) s)
  | [], _, _, h => .inl h
  | f :: fs, a, s, h => by
    simp only [List.foldl_cons]
    rcases h.frame f with h | h
    · exact Open.frames fs h
    · right
      rw [foldl_of_closed h.closed]
      obtain ⟨e, he, hdelivered⟩ := h.delivered
      exact ⟨h.closed, e, he.trans (prefix_foldl_assemble fs _), hdelivered⟩

/-- Whatever the frames, what is delivered is a part of the stream. -/
theorem delivered_prefix (fs : List Frame) :
    deliveries (fs.foldl (Session.frame E) (.begin pos calls₀)).calls <+:
      deliveries calls₀ ++ (parse packets (applyKeystream E pos (dataPayload fs))).out := by
  have hpart : ∀ {e : Bytes}, e <+: dataPayload fs →
      (parse packets (applyKeystream E pos e)).out <+:
        (parse packets (applyKeystream E pos (dataPayload fs))).out := by
    rintro e ⟨t, ht⟩
    rw [← ht, applyKeystream_append]
    exact parse_out_prefix _ _
  have hbegin : Open E pos calls₀ ([], []) (.begin pos calls₀) := begin_open
  rcases hbegin.frames fs with h | h
  · rw [h.delivered]
    exact (List.prefix_append_right_inj _).mpr (hpart (List.prefix_append _ _))
  · obtain ⟨e, he, hdelivered⟩ := h.delivered
    rw [hdelivered]
    exact (List.prefix_append_right_inj _).mpr (hpart he)

/-! ## Illegal frames -/

theorem message_fragment (m : Bytes) :
    (({ s with fragment := none } : Session).message E m).fragment = none := by
  unfold Session.message
  simp only [Session.close]
  split_ifs <;> rfl

/-- A frame after which the session is open was legal, and a message has or has not begun. -/
theorem legal_of_open (hopen : s.closed = false) (h : (s.frame E f).closed = false) :
    f.Legal s.fragment.isSome ∧
      (s.frame E f).fragment.isSome = f.begunAfter s.fragment.isSome := by
  unfold Session.frame at h ⊢
  rw [if_neg (by simp [hopen])] at h ⊢
  by_cases hlegal : f.Legal s.fragment.isSome
  · refine ⟨hlegal, ?_⟩
    rw [if_neg (not_not.mpr hlegal)] at h ⊢
    by_cases hlong : webSocketMaxMessageLength < f.payload.length
    · rw [if_pos hlong] at h
      simp [Session.close] at h
    rw [if_neg hlong] at h ⊢
    unfold Session.payload at h ⊢
    by_cases h8 : f.opcode = 8
    · rw [if_pos h8] at h
      simp [Session.close] at h
    rw [if_neg h8] at h ⊢
    by_cases h9 : f.opcode = 9
    · rw [if_pos h9]
      simp [Frame.begunAfter, Frame.isData, h9]
    rw [if_neg h9] at h ⊢
    by_cases hA : f.opcode = 10
    · rw [if_pos hA]
      simp [Frame.begunAfter, Frame.isData, hA]
    rw [if_neg hA] at h ⊢
    have hdata := isData_of_legal hlegal h8 h9 hA
    unfold Session.data at h ⊢
    simp only [] at h ⊢
    rw [Frame.begunAfter, if_pos hdata]
    by_cases hmessage : webSocketMaxMessageLength < (s.fragment.getD [] ++ f.payload).length
    · rw [if_pos hmessage] at h
      simp [Session.close] at h
    rw [if_neg hmessage]
    rcases hfin : f.fin with _ | _
    · rfl
    · simp only [if_true]
      rw [message_fragment]
      rfl
  · rw [if_pos hlegal] at h
    simp [Session.close] at h

/-- After frames that may not come in this order the session is closed. -/
theorem closed_of_illegal : ∀ (fs : List Frame) {s : Session}, s.closed = false →
    (fs.foldl (Session.frame E) s).closed = false → LegalFrames s.fragment.isSome fs
  | [], _, _, _ => trivial
  | f :: fs, s, hopen, hend => by
    rw [List.foldl_cons] at hend
    have hnext : (s.frame E f).closed = false := by
      rcases h : (s.frame E f).closed with _ | _
      · rfl
      · rw [foldl_of_closed h, h] at hend
        exact hend
    obtain ⟨hlegal, hbegun⟩ := legal_of_open hopen hnext
    have := closed_of_illegal fs hnext hend
    rw [hbegun] at this
    exact ⟨hlegal, this⟩

/-! ## Legal frames within the limits -/

/-- The session has delivered what parsing the whole messages gives, and is closed where that
fails. -/
structure Delivered (E : Environment) (pos : ℕ) (calls₀ : List Call) (a : Bytes × Bytes)
    (s : Session) : Prop where
  calls : deliveries s.calls =
    deliveries calls₀ ++ (parse packets (applyKeystream E pos a.1)).out
  closed : s.closed = (parse packets (applyKeystream E pos a.1)).malformed

theorem Open.delivers (h : Open E pos calls₀ a s) : Delivered E pos calls₀ a s :=
  ⟨h.delivered, h.open_.trans h.malformed.symm⟩

/-- A frame that is legal and no close frame, within the limits. -/
theorem Open.frame_legal (h : Open E pos calls₀ a s) (hlegal : f.Legal s.fragment.isSome)
    (h8 : f.opcode ≠ 8) (hlimits : f.isData = true →
      a.2.length + f.payload.length ≤ webSocketMaxMessageLength ∧
      (f.fin = true → (parse packets (applyKeystream E pos a.1)).rest.length +
        (a.2.length + f.payload.length) ≤ webSocketMaxMessageLength)) :
    Open E pos calls₀ (assemble a f) (s.frame E f) ∨
    Delivered E pos calls₀ (assemble a f) (s.frame E f) ∧ (s.frame E f).closed = true := by
  unfold Session.frame
  rw [if_neg (by simp [h.open_]), if_neg (not_not.mpr hlegal)]
  have hshort : ¬ webSocketMaxMessageLength < f.payload.length := by
    rcases hdata : f.isData with _ | _
    · have hge : 8 ≤ f.opcode := by simpa [Frame.isData] using hdata
      have hfits := f.fits
      rw [(hlegal.2.2.2.2.2 hge).2] at hfits
      have hfits : f.payload.length < 126 := hfits
      rw [webSocketMaxMessageLength]
      omega
    · have := (hlimits hdata).1
      omega
  rw [if_neg hshort]
  unfold Session.payload
  rw [if_neg h8]
  by_cases h9 : f.opcode = 9
  · rw [if_pos h9, assemble_control a (by simp [Frame.isData, h9])]
    refine .inl ⟨h.open_, h.pending, h.position, h.buffer, h.malformed, ?_⟩
    rw [← h.delivered, deliveries_append]
    simp [deliveries]
  rw [if_neg h9]
  by_cases hA : f.opcode = 10
  · rw [if_pos hA, assemble_control a (by simp [Frame.isData, hA])]
    exact .inl h
  rw [if_neg hA]
  have hdata := isData_of_legal hlegal h8 h9 hA
  obtain ⟨hmessage, hbuffer⟩ := hlimits hdata
  unfold Session.data assemble
  rw [h.pending, if_pos hdata]
  have hfitsMessage : ¬ webSocketMaxMessageLength < (a.2 ++ f.payload).length := by
    rw [List.length_append]
    omega
  simp only []
  rw [if_neg hfitsMessage]
  split
  · rename_i hfin
    have hfits := h.message_fits (m := a.2 ++ f.payload) (.inr (by
      rw [h.buffer, List.length_append]
      exact hbuffer hfin))
    split at hfits
    · rename_i hmalformed
      exact .inr ⟨⟨hfits.2, hfits.1.trans hmalformed.symm⟩, hfits.1⟩
    · exact .inl hfits
  · exact .inl ⟨h.open_, rfl, h.position, h.buffer, h.malformed, h.delivered⟩

/-- A final data frame completes a message. -/
theorem Open.frame_message (h : Open E pos calls₀ a s) (hlegal : f.Legal s.fragment.isSome)
    (hdata : f.isData = true) (hfin : f.fin = true)
    (hshort : a.2.length + f.payload.length ≤ webSocketMaxMessageLength) :
    s.frame E f = ({ s with fragment := none } : Session).message E (a.2 ++ f.payload) := by
  have hopcode : f.opcode < 8 := by simpa [Frame.isData] using hdata
  unfold Session.frame Session.payload Session.data
  rw [if_neg (by simp [h.open_]), if_neg (not_not.mpr hlegal), if_neg (by omega),
    if_neg (by omega), if_neg (by omega), if_neg (by omega), h.pending]
  simp only [List.length_append]
  rw [if_neg (by omega), if_pos hfin]

/-- Whole messages after a malformed packet change nothing. -/
theorem Delivered.after {b : Bytes × Bytes} (h : Delivered E pos calls₀ a s)
    (hclosed : s.closed = true) (hb : a.1 <+: b.1) : Delivered E pos calls₀ b s := by
  obtain ⟨t, ht⟩ := hb
  have hmalformed := h.closed.symm.trans hclosed
  obtain ⟨hout, hmal⟩ := parse_append_malformed (F := packets) (applyKeystream E pos a.1)
    (applyKeystream E (pos + a.1.length) t) hmalformed
  rw [← applyKeystream_append, ht] at hout hmal
  exact ⟨by rw [h.calls, hout], by rw [hclosed, hmal]⟩

theorem prefix_foldl_assemble_fst : ∀ (fs : List Frame) (a : Bytes × Bytes),
    a.1 <+: (fs.foldl assemble a).1
  | [], _ => List.prefix_rfl
  | f :: fs, a => by
    refine List.IsPrefix.trans ?_ (prefix_foldl_assemble_fst fs (assemble a f))
    unfold assemble
    split_ifs
    · exact List.prefix_append _ _
    · exact List.prefix_rfl
    · exact List.prefix_rfl

theorem Open.frames_legal : ∀ (fs : List Frame) {a : Bytes × Bytes} {s : Session},
    Open E pos calls₀ a s → LegalFrames s.fragment.isSome fs → (∀ f ∈ fs, f.opcode ≠ 8) →
    WithinLimits E pos a fs →
    Delivered E pos calls₀ (fs.foldl assemble a) (fs.foldl (Session.frame E) s)
  | [], _, _, h, _, _, _ => h.delivers
  | f :: fs, a, s, h, hlegal, h8, hlimits => by
    simp only [List.foldl_cons]
    rcases h.frame_legal hlegal.1 (h8 f List.mem_cons_self) hlimits.1 with hopen | ⟨hdone, hclosed⟩
    · refine Open.frames_legal fs hopen ?_ (fun f hf => h8 f (List.mem_cons_of_mem _ hf)) hlimits.2
      rw [(legal_of_open h.open_ hopen.open_).2]
      exact hlegal.2
    · rw [foldl_of_closed hclosed]
      exact hdone.after hclosed (prefix_foldl_assemble_fst fs _)

/-! ## The connection -/

theorem FrameState.frames : ∀ (fs : List Frame) {s : Session} {c : TcpConnection},
    FrameState [.toLength 2 .webSocketFrameHeader] s c → ∃ c',
      FrameState [.toLength 2 .webSocketFrameHeader] (fs.foldl (Session.frame E) s) c' ∧
      (drain (reader E) c (fs.flatMap Frame.encode)).1 = c'
  | [], s, c, h => by
    refine ⟨c, h, ?_⟩
    rcases hclosed : s.closed with _ | _
    · have hwant : (reader E).want c = some 2 := by
        simp [reader, wantedLength, h.socket, hclosed]
      rw [List.flatMap_nil, drain_wait hwant (by simp)]
    · rw [h.drain_closed hclosed]
  | f :: fs, s, c, h => by
    obtain ⟨c₁, hc₁, heq₁⟩ := h.frame f (fs.flatMap Frame.encode)
    obtain ⟨c', hc', heq⟩ := FrameState.frames fs hc₁
    exact ⟨c', hc', by rw [List.flatMap_cons, heq₁, heq]⟩

/-- The connection after the bytes of some frames, however they arrive. -/
theorem FrameState.chunks (h : FrameState [.toLength 2 .webSocketFrameHeader] s c)
    (fs : List Frame) (chunks : List Bytes) (hchunks : chunks.flatten = fs.flatMap Frame.encode) :
    FrameState [.toLength 2 .webSocketFrameHeader] (fs.foldl (Session.frame E) s)
      (chunks.foldl (feed (reader E)) (c, [])).1 := by
  have hidle : drain (reader E) c [] = (c, []) := by
    rcases hclosed : s.closed with _ | _
    · have hwant : (reader E).want c = some 2 := by
        simp [reader, wantedLength, h.socket, hclosed]
      exact drain_wait hwant (by simp)
    · exact h.drain_closed hclosed []
  obtain ⟨c', hc', heq⟩ := FrameState.frames fs h
  rw [foldl_feed chunks c [] hidle, List.nil_append, hchunks, heq]
  exact hc'

/-- Legal frames within the limits, however their bytes arrive. -/
theorem FrameState.delivers
    (h : FrameState [.toLength 2 .webSocketFrameHeader] (.begin pos calls₀) c) (fs : List Frame)
    (chunks : List Bytes) (hchunks : chunks.flatten = fs.flatMap Frame.encode)
    (hlegal : LegalFrames false fs) (hclose : ∀ f ∈ fs, f.opcode ≠ 8)
    (hlimits : WithinLimits E pos ([], []) fs) :
    deliveries (chunks.foldl (feed (reader E)) (c, [])).1.calls = deliveries calls₀ ++
      (parse packets (applyKeystream E pos (assembled fs).1)).out ∧
    (chunks.foldl (feed (reader E)) (c, [])).1.closed =
      (parse packets (applyKeystream E pos (assembled fs).1)).malformed := by
  have hstate := h.chunks (E := E) fs chunks hchunks
  have hopen : Open E pos calls₀ ([], []) (.begin pos calls₀) := begin_open
  have hdone := hopen.frames_legal fs hlegal hclose hlimits
  exact ⟨by rw [hstate.calls]; exact hdone.calls, by rw [hstate.closed]; exact hdone.closed⟩

/-- Frames and socket reads of any sizes: what is delivered is a part of what parsing the stream at
once gives; after frames that may not come the connection is closed; and where the frames may come,
none is a close frame and no limit is exceeded, it is what parsing the whole messages at once gives,
and the connection is closed only where that fails. -/
theorem websocket_chunking (E : Environment) (pos : ℕ) (calls₀ : List Call) (c : TcpConnection)
    (h : FrameState [.toLength 2 .webSocketFrameHeader] (.begin pos calls₀) c) (fs : List Frame)
    (chunks : List Bytes) (hchunks : chunks.flatten = fs.flatMap Frame.encode) :
    deliveries (chunks.foldl (feed (reader E)) (c, [])).1.calls <+:
      deliveries calls₀ ++ (parse packets (applyKeystream E pos (dataPayload fs))).out ∧
    (¬ LegalFrames false fs → (chunks.foldl (feed (reader E)) (c, [])).1.closed = true) ∧
    (LegalFrames false fs → (∀ f ∈ fs, f.opcode ≠ 8) → WithinLimits E pos ([], []) fs →
      deliveries (chunks.foldl (feed (reader E)) (c, [])).1.calls = deliveries calls₀ ++
        (parse packets (applyKeystream E pos (assembled fs).1)).out ∧
      (chunks.foldl (feed (reader E)) (c, [])).1.closed =
        (parse packets (applyKeystream E pos (assembled fs).1)).malformed) := by
  refine ⟨?_, fun hillegal => ?_, h.delivers fs chunks hchunks⟩
  · rw [(h.chunks fs chunks hchunks).calls]
    exact delivered_prefix fs
  · rw [(h.chunks fs chunks hchunks).closed]
    by_contra hopen
    exact hillegal (closed_of_illegal (E := E) (s := .begin pos calls₀) fs rfl
      (by simpa using hopen))

/-! ## A stream that is lost -/

def acceptingEnvironment : Environment :=
  { keystream := fun _ => 0, connects := fun _ => true, acceptsUpgrade := fun _ _ => true }

/-- A connection whose upgrade has been accepted and that has sent its first packet. -/
def upgraded : TcpConnection :=
  Run.run (tcpStep acceptingEnvironment) (.fresh false true false 2)
    [.start true, .didSecure, .didRead [0x0d, 0x0a, 0x0d, 0x0a], .sendDatas]

theorem upgraded_frameState :
    FrameState [.toLength 2 .webSocketFrameHeader] (.begin 0 [.opened]) upgraded := by
  have hstart : tcpStep acceptingEnvironment (.fresh false true false 2) (.start true) =
      { TcpConnection.fresh false true false 2 with socket := some [] } :=
    onegramStartWebSocketAttempt_connects rfl (by decide) rfl
  have hupgraded : upgraded = { TcpConnection.fresh false true false 2 with
      onegramWebSocketReady := true, incomingAesCtr := some 0
      socket := some [.toLength 2 .webSocketFrameHeader], calls := [.opened] } := by
    unfold upgraded
    rw [Run.run_cons, hstart]
    rfl
  rw [hupgraded]
  exact ⟨rfl, rfl, rfl, rfl, rfl, by simp [Session.begin], rfl, rfl, rfl⟩

/-- A message in one binary frame. -/
def binaryFrame (form : LengthForm) (payload : Bytes)
    (fits : payload.length < match form with
      | .short => 126
      | .medium => 2 ^ 16
      | .long => 2 ^ 64) : Frame :=
  { fin := true, reserved := 0, opcode := 2, mask := none, form, payload
    reserved_lt := by omega, opcode_lt := by omega, fits }

theorem binaryFrame_legal (form : LengthForm) (payload : Bytes) (fits) :
    (binaryFrame form payload fits).Legal false :=
  ⟨rfl, rfl, by simp [binaryFrame], by simp [binaryFrame], by simp, by simp [binaryFrame]⟩

theorem websocket_chunking_sample :
    deliveries ([[0x82], [5, 1], [1, 1, 1, 1]].foldl (feed (reader acceptingEnvironment))
      (upgraded, [])).1.calls = deliveries [.opened] ++
        (parse packets (applyKeystream acceptingEnvironment 0 [1, 1, 1, 1, 1])).out :=
  ((websocket_chunking acceptingEnvironment 0 [.opened] upgraded upgraded_frameState
    [binaryFrame .short [1, 1, 1, 1, 1] (by decide)] [[0x82], [5, 1], [1, 1, 1, 1]]
    (by decide)).2.2 ⟨binaryFrame_legal _ _ _, trivial⟩ (by simp [binaryFrame]) (by
      refine ⟨fun _ => ⟨by decide, fun _ => ?_⟩, trivial⟩
      have hparse : parse packets (applyKeystream acceptingEnvironment 0 []) = ⟨[], false, []⟩ :=
        parse_incomplete (F := packets) rfl
      rw [hparse]
      decide)).1

/-- The first byte of a packet, then the rest of the stream in one long message. -/
def overfull (m : Bytes) (fits : m.length < 2 ^ 64) : List Frame :=
  [binaryFrame .short [1] (by decide), binaryFrame .long m fits]

/-- A message as long as the limit is lost after the first byte of a packet, with all packets that
it completes. -/
theorem overfull_delivers (m : Bytes) (fits : m.length < 2 ^ 64)
    (hm : m.length = webSocketMaxMessageLength) :
    deliveries ((overfull m fits).foldl (Session.frame acceptingEnvironment)
      (.begin 0 [.opened])).calls = [] := by
  have hone : parse packets (applyKeystream acceptingEnvironment 0 [1]) = ⟨[], false, [1]⟩ :=
    parse_incomplete (F := packets) rfl
  have hbegin : Open acceptingEnvironment 0 [.opened] ([], []) (.begin 0 [.opened]) := begin_open
  obtain ⟨f₁, hf₁⟩ : ∃ f₁, binaryFrame .short [1] (by decide) = f₁ := ⟨_, rfl⟩
  obtain ⟨f₂, hf₂⟩ : ∃ f₂, binaryFrame .long m fits = f₂ := ⟨_, rfl⟩
  have hfirst : Open acceptingEnvironment 0 [.opened] ([1], [])
      ((Session.begin 0 [.opened]).frame acceptingEnvironment f₁) := by
    rw [hbegin.frame_message (by rw [← hf₁]; exact binaryFrame_legal _ _ _) (by rw [← hf₁]; rfl)
      (by rw [← hf₁]; rfl) (by rw [← hf₁]; decide), ← hf₁]
    have hfits := hbegin.message_fits (m := [1]) (.inr (by decide))
    rw [List.nil_append, hone] at hfits
    exact hfits
  have hbegun := (legal_of_open hbegin.open_ hfirst.open_).2
  obtain ⟨s₁, hs₁⟩ : ∃ s₁, (Session.begin 0 [.opened]).frame acceptingEnvironment f₁ = s₁ :=
    ⟨_, rfl⟩
  rw [hs₁] at hfirst hbegun
  have hpayload : f₂.payload = m := by rw [← hf₂]; rfl
  have hsecond := hfirst.frame_message (f := f₂)
    (by rw [hbegun, ← hf₁, ← hf₂]; exact binaryFrame_legal _ _ _) (by rw [← hf₂]; rfl)
    (by rw [← hf₂]; rfl) (by rw [hpayload, hm]; simp)
  have hshut : Shut acceptingEnvironment 0 [.opened] [1] (s₁.frame acceptingEnvironment f₂) := by
    rw [hsecond, hpayload]
    refine hfirst.message_long ?_ ?_
    · rintro hnil
      have := hm
      rw [List.nil_append] at hnil
      rw [hnil] at this
      simp [webSocketMaxMessageLength] at this
    · rw [hfirst.buffer, hone, List.nil_append, hm]
      simp
  obtain ⟨e, he, hdelivered⟩ := hshut.delivered
  have hout : (parse packets (applyKeystream acceptingEnvironment 0 e)).out = [] := by
    obtain ⟨t, ht⟩ := he
    have hbefore := parse_out_prefix (F := packets) (applyKeystream acceptingEnvironment 0 e)
      (applyKeystream acceptingEnvironment (0 + e.length) t)
    rw [← applyKeystream_append, ht, hone] at hbefore
    exact List.prefix_nil.mp hbefore
  rw [overfull, hf₁, hf₂, List.foldl_cons, List.foldl_cons, List.foldl_nil, hs₁, hdelivered, hout]
  rfl

/-- The whole stream begins with a packet. -/
theorem overfull_parses (m t : Bytes) (fits : m.length < 2 ^ 64) (hm : m = 1 :: 1 :: 1 :: 1 :: t) :
    (parse packets (applyKeystream acceptingEnvironment 0 (dataPayload (overfull m fits)))).out ≠
      [] := by
  have hstream : dataPayload (overfull m fits) = [1, 1, 1, 1, 1] ++ t := by
    simp [dataPayload, assembled, overfull, assemble, binaryFrame, Frame.isData, hm]
  have hnext : packets.next (applyKeystream acceptingEnvironment 0 [1, 1, 1, 1, 1]) =
      .element [.receivedData [1, 1, 1, 1]] 5 := rfl
  have hfirst : (parse packets (applyKeystream acceptingEnvironment 0 [1, 1, 1, 1, 1])).out ≠ [] := by
    rw [parse_element hnext]
    simp
  have hbefore := parse_out_prefix (F := packets) (applyKeystream acceptingEnvironment 0
    [1, 1, 1, 1, 1]) (applyKeystream acceptingEnvironment 5 t)
  rw [hstream, applyKeystream_append]
  intro hnil
  rw [show (0 + [(1 : UInt8), 1, 1, 1, 1].length) = 5 from rfl] at hnil
  rw [hnil] at hbefore
  exact hfirst (List.prefix_nil.mp hbefore)

/-- Legal frames without a close frame, of which the first message is one byte and the second
sixteen mebibytes: their packets are not delivered. -/
theorem overfull_lost :
    ∃ fits, LegalFrames false (overfull (List.replicate webSocketMaxMessageLength 1) fits) ∧
    deliveries ([(overfull (List.replicate webSocketMaxMessageLength 1) fits).flatMap
        Frame.encode].foldl (feed (reader acceptingEnvironment)) (upgraded, [])).1.calls ≠
      deliveries [.opened] ++ (parse packets (applyKeystream acceptingEnvironment 0
        (dataPayload (overfull (List.replicate webSocketMaxMessageLength 1) fits)))).out := by
  have hlength : (List.replicate webSocketMaxMessageLength (1 : UInt8)).length =
      webSocketMaxMessageLength := List.length_replicate
  have hhead : List.replicate webSocketMaxMessageLength (1 : UInt8) =
      1 :: 1 :: 1 :: 1 :: List.replicate (webSocketMaxMessageLength - 4) 1 := by
    rw [show webSocketMaxMessageLength = webSocketMaxMessageLength - 4 + 4 by
      simp [webSocketMaxMessageLength]]
    simp only [List.replicate_succ, Nat.add_sub_cancel]
  obtain ⟨m, hm⟩ : ∃ m, List.replicate webSocketMaxMessageLength (1 : UInt8) = m := ⟨_, rfl⟩
  rw [hm] at hlength hhead ⊢
  have fits : m.length < 2 ^ 64 := by
    rw [hlength, webSocketMaxMessageLength]
    norm_num
  refine ⟨fits, ⟨binaryFrame_legal _ _ _, binaryFrame_legal _ _ _, trivial⟩, ?_⟩
  have hstate := upgraded_frameState.chunks (E := acceptingEnvironment) (overfull m fits)
    [(overfull m fits).flatMap Frame.encode] (by simp)
  rw [hstate.calls, overfull_delivers m fits hlength]
  intro h
  exact overfull_parses m _ fits hhead (List.append_eq_nil_iff.mp h.symm).2

end Onegram.Tcp

/-!
## The two readers of the abridged format

A socket accepts packets up to four mebibytes, a WebSocket up to sixteen. On a stream without a
packet between the two lengths both deliver the same and both are closed, or neither.
-/

namespace Onegram.Tcp

open Elements ExactReader TcpConnection

variable {b d : Bytes} {short long : ℕ}

/-- No packet of the stream is longer than `maxLength` and not too long for a WebSocket. -/
def PacketsWithin (maxLength : ℕ) (d : Bytes) : Prop :=
  ∀ c, Begins packets d c → abridgedNext maxLength c = .malformed → packets.next c = .malformed

/-- A lower limit makes elements malformed and changes nothing else. -/
theorem abridgedNext_limit (h : short ≤ long) (b : Bytes) :
    abridgedNext short b = .malformed ∨ abridgedNext short b = abridgedNext long b := by
  rcases b with _ | ⟨marker, bytes⟩
  · exact .inr rfl
  simp only [abridgedNext]
  split
  · exact .inr rfl
  split
  · split
    · exact .inr rfl
    split
    · exact .inl rfl
    · rw [if_neg (by omega : ¬ (word (bytes.take 3) * 4 = 0 ∨ long < word (bytes.take 3) * 4))]
      exact .inr rfl
  split
  · exact .inl rfl
  · rw [if_neg (by omega : ¬ (marker.toNat = 0 ∨ long < marker.toNat * 4))]
    exact .inr rfl

theorem parse_within {maxLength : ℕ} (hmax : maxLength ≤ webSocketMaxMessageLength)
    (h : PacketsWithin maxLength d) : parse (abridged maxLength) d = parse packets d := by
  refine parse_congr d fun c hc => ?_
  rcases abridgedNext_limit hmax c with hshort | hsame
  · exact hshort.trans (h c hc hshort).symm
  · exact hsame

/-- What a socket delivers, however its bytes arrive. -/
theorem Boundary.chunks {E : Environment} {pos : ℕ} {calls : List Call} {c : TcpConnection}
    (h : Boundary pos calls c) (chunks : List Bytes) :
    Parses E pos calls c chunks.flatten ∧
    chunks.foldl (feed (reader E)) (c, []) = drain (reader E) c chunks.flatten := by
  refine ⟨h.parses _, ?_⟩
  rw [foldl_feed chunks c [] (h.waiting.wait (by simp)), List.nil_append]

/-- One stream in the abridged format without a packet of more than four mebibytes, read from a
socket and, in legal frames within the limits, from a WebSocket: both deliver what parsing it gives,
and both are closed where that fails. -/
theorem readers_agree (E E' : Environment) (pos pos' : ℕ) (calls calls' : List Call)
    (c c' : TcpConnection) (h : Boundary pos calls c)
    (h' : FrameState [.toLength 2 .webSocketFrameHeader] (.begin pos' calls') c')
    (chunks chunks' : List Bytes) (fs : List Frame)
    (hframes : chunks'.flatten = fs.flatMap Frame.encode) (hlegal : LegalFrames false fs)
    (hclose : ∀ f ∈ fs, f.opcode ≠ 8) (hlimits : WithinLimits E' pos' ([], []) fs)
    (hstream : applyKeystream E pos chunks.flatten = applyKeystream E' pos' (assembled fs).1)
    (hpackets : PacketsWithin socketMaxMessageLength (applyKeystream E pos chunks.flatten)) :
    ∃ p, p = parse packets (applyKeystream E pos chunks.flatten) ∧
      deliveries (chunks.foldl (feed (reader E)) (c, [])).1.calls = deliveries calls ++ p.out ∧
      deliveries (chunks'.foldl (feed (reader E')) (c', [])).1.calls = deliveries calls' ++ p.out ∧
      (chunks.foldl (feed (reader E)) (c, [])).1.closed = p.malformed ∧
      (chunks'.foldl (feed (reader E')) (c', [])).1.closed = p.malformed := by
  obtain ⟨hparses, hfold⟩ := h.chunks (E := E) chunks
  have hwithin := parse_within (by decide) hpackets
  have hcalls := hparses.calls
  rw [hwithin] at hcalls
  obtain ⟨hdelivered, hclosed⟩ := h'.delivers fs chunks' hframes hlegal hclose hlimits
  refine ⟨_, rfl, ?_, ?_, ?_, ?_⟩
  · rw [hfold, hcalls, deliveries_append, deliveries_append, deliveries_parse]
    split <;> simp [deliveries]
  · rw [hdelivered, hstream]
  · rw [hfold, hparses.closed, hwithin]
  · rw [hclosed, hstream]

/-- A connection to a server without a proxy that has sent its first packet. -/
def connected : TcpConnection :=
  Run.run (tcpStep acceptingEnvironment) (.fresh false false false 2)
    [.start true, .didConnect, .sendDatas]

theorem connected_boundary : Boundary 0 [.opened] connected := by
  exact ⟨⟨rfl, rfl, rfl, rfl, rfl⟩, rfl⟩

theorem withinLimits_single (m : Bytes) (fits : m.length < 126) :
    WithinLimits acceptingEnvironment 0 ([], []) [binaryFrame .short m fits] := by
  have hparse : parse packets (applyKeystream acceptingEnvironment 0 []) = ⟨[], false, []⟩ :=
    parse_incomplete (F := packets) rfl
  have hlength : m.length ≤ webSocketMaxMessageLength := by
    rw [webSocketMaxMessageLength]
    omega
  refine ⟨fun _ => ⟨?_, fun _ => ?_⟩, trivial⟩
  · simpa [binaryFrame] using hlength
  · rw [hparse]
    simpa [binaryFrame] using hlength

theorem packetsWithin_sample : PacketsWithin socketMaxMessageLength
    (applyKeystream acceptingEnvironment 0 [[1, 1], [1, 1, 1], [0]].flatten) := by
  have hstream : applyKeystream acceptingEnvironment 0 [[1, 1], [1, 1, 1], [0]].flatten =
      [1, 1, 1, 1, 1, 0] := by decide
  rw [hstream]
  intro c hc hmalformed
  rcases hc with _ | ⟨hnext, hc⟩
  · have helement : Next.element [Call.receivedData [1, 1, 1, 1]] 5 = .malformed := hmalformed
    simp at helement
  · have helement : Next.element [Call.receivedData [1, 1, 1, 1]] 5 = .element _ _ := hnext
    simp only [Next.element.injEq] at helement
    rw [← helement.2] at hc
    rcases hc with _ | ⟨hnext, -⟩
    · rfl
    · have hbad : Next.malformed = .element _ _ := hnext
      simp at hbad

theorem readers_agree_sample :
    ∃ p, p = parse packets (applyKeystream acceptingEnvironment 0
        [[1, 1], [1, 1, 1], [0]].flatten) ∧
      deliveries ([[1, 1], [1, 1, 1], [0]].foldl (feed (reader acceptingEnvironment))
        (connected, [])).1.calls = deliveries [.opened] ++ p.out ∧
      deliveries ([[0x82, 6, 1, 1, 1, 1, 1, 0]].foldl (feed (reader acceptingEnvironment))
        (upgraded, [])).1.calls = deliveries [.opened] ++ p.out ∧
      ([[1, 1], [1, 1, 1], [0]].foldl (feed (reader acceptingEnvironment))
        (connected, [])).1.closed = p.malformed ∧
      ([[0x82, 6, 1, 1, 1, 1, 1, 0]].foldl (feed (reader acceptingEnvironment))
        (upgraded, [])).1.closed = p.malformed :=
  readers_agree acceptingEnvironment acceptingEnvironment 0 0 [.opened] [.opened] connected upgraded
    connected_boundary upgraded_frameState [[1, 1], [1, 1, 1], [0]] [[0x82, 6, 1, 1, 1, 1, 1, 0]]
    [binaryFrame .short [1, 1, 1, 1, 1, 0] (by decide)] (by decide)
    ⟨binaryFrame_legal _ _ _, trivial⟩ (by simp [binaryFrame]) (withinLimits_single _ (by decide))
    rfl packetsWithin_sample

/-- A packet of four mebibytes and four bytes: the socket is closed at its length, the WebSocket
waits for it. -/
theorem readers_differ :
    ([[0x7f, 1, 0, 0x10]].foldl (feed (reader acceptingEnvironment)) (connected, [])).1.closed =
      true ∧
    ([[0x82, 4, 0x7f, 1, 0, 0x10]].foldl (feed (reader acceptingEnvironment))
      (upgraded, [])).1.closed = false := by
  constructor
  · have hparse : parse (abridged socketMaxMessageLength)
        (applyKeystream acceptingEnvironment 0 [0x7f, 1, 0, 0x10]) = ⟨[], true, _⟩ :=
      parse_malformed (F := abridged socketMaxMessageLength) (by rfl)
    obtain ⟨hparses, hfold⟩ := connected_boundary.chunks (E := acceptingEnvironment)
      [[0x7f, 1, 0, 0x10]]
    rw [hfold, hparses.closed]
    exact congrArg Parsed.malformed hparse
  · have hparse : parse packets (applyKeystream acceptingEnvironment 0 [0x7f, 1, 0, 0x10]) =
        ⟨[], false, _⟩ := parse_incomplete (F := packets) (by rfl)
    have hdelivers := (upgraded_frameState.delivers (E := acceptingEnvironment)
      [binaryFrame .short [0x7f, 1, 0, 0x10] (by decide)] [[0x82, 4, 0x7f, 1, 0, 0x10]] (by decide)
      ⟨binaryFrame_legal _ _ _, trivial⟩ (by simp [binaryFrame])
      (withinLimits_single _ (by decide))).2
    rw [hdelivers]
    exact congrArg Parsed.malformed hparse

end Onegram.Tcp
