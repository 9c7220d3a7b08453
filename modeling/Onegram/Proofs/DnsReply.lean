import Onegram.Proofs.DnsQuery

/-!
# The address in a DNS reply

The loop over the question knows all the forms of a name. The one over the records knows a pointer
at the start of a name only, and takes one that follows labels for a label of 192 bytes or more.
-/

namespace Onegram.Dns

open Bytes

/-! ## Replies -/

/-- A name in a message: labels and then the root, or a pointer to the rest of it. -/
structure WireName where
  labels : List Bytes
  pointer : Option (UInt8 × UInt8)
  valid : ∀ l ∈ labels, ValidLabel l
  compressed : ∀ b ∈ pointer, b.1 &&& 0xc0 = 0xc0

/-- A name that is all labels or all pointer. -/
def WireName.Plain (n : WireName) : Prop := n.labels = [] ∨ n.pointer = none

def WireName.last (n : WireName) : Bytes :=
  match n.pointer with
  | none => [0]
  | some b => [b.1, b.2]

theorem WireName.last_none {n : WireName} (h : n.pointer = none) : n.last = [0] := by
  rw [WireName.last, h]

theorem WireName.last_some {n : WireName} {b : UInt8 × UInt8} (h : n.pointer = some b) :
    n.last = [b.1, b.2] := by
  rw [WireName.last, h]

def WireName.bytes (n : WireName) : Bytes := wire n.labels ++ n.last

structure Record where
  name : WireName
  type : UInt16
  cls : UInt16
  ttl : UInt32
  rdata : Bytes
  short : rdata.length < 65536

def Record.bytes (r : Record) : Bytes :=
  r.name.bytes ++ (bytesBE 2 r.type.toNat ++ (bytesBE 2 r.cls.toNat ++ (bytesBE 4 r.ttl.toNat
    ++ (bytesBE 2 r.rdata.length ++ r.rdata))))

/-- A response to a query for A records: `answer` is the first one in the answer section, and
`after` is all that follows it. -/
structure Response where
  id : UInt16
  flags : UInt16
  ancount : UInt16
  nscount : UInt16
  arcount : UInt16
  qname : WireName
  before : List Record
  answer : Record
  after : Bytes
  counted : before.length < ancount.toNat
  others : ∀ r ∈ before, r.type ≠ 1
  isA : answer.type = 1
  isAddress : answer.rdata.length = 4

def Response.start (m : Response) : Bytes :=
  bytesBE 2 m.id.toNat ++ (bytesBE 2 m.flags.toNat ++ ([0, 1] ++ (bytesBE 2 m.ancount.toNat
    ++ (bytesBE 2 m.nscount.toNat ++ bytesBE 2 m.arcount.toNat))))

/-- The message through its first A record. -/
def Response.through (m : Response) : Bytes :=
  m.start ++ (m.qname.bytes ++ ([0, 1, 0, 1] ++ ((m.before ++ [m.answer]).flatMap Record.bytes)))

def Response.bytes (m : Response) : Bytes := m.through ++ m.after

def Response.address (m : Response) : Vector UInt8 4 := slice m.answer.rdata 0 4

/-- No name up to that of the answer has a pointer behind labels. -/
def Response.Plain (m : Response) : Prop := ∀ r ∈ m.before ++ [m.answer], r.name.Plain

/-- The code finds the address in the 1500 bytes that it receives. -/
def Response.Found (m : Response) : Prop :=
  read_reply (m.bytes.take 1500) = some (some m.address)

/-! ## Reading inside the message -/

section Reads

variable {r p q : Bytes} {off : ℕ}

theorem skip_labels_some (r : Bytes) (off : ℕ) : ∃ off', skip_labels r off = some off' ∧ off ≤ off' := by
  fun_induction skip_labels r off with
  | case1 off hin hnone =>
    rw [List.getElem?_eq_getElem hin] at hnone
    cases hnone
  | case2 off hin hzero => exact ⟨off, rfl, le_rfl⟩
  | case3 off hin c hc hne ih =>
    obtain ⟨off', heq, hle⟩ := ih
    exact ⟨off', heq, by omega⟩
  | case4 off hout => exact ⟨off, rfl, le_rfl⟩

theorem skip_question_some (r : Bytes) (off : ℕ) : ∃ off', skip_question r off = some off' := by
  fun_induction skip_question r off with
  | case1 off hin hnone =>
    rw [List.getElem?_eq_getElem hin] at hnone
    cases hnone
  | case2 off hin hzero => exact ⟨off, rfl⟩
  | case3 off hin c hc hne hpointer => exact ⟨off + 1, rfl⟩
  | case4 off hin c hc hne hlabel ih => exact ih
  | case5 off hout => exact ⟨off, rfl⟩

theorem read16_some (h : off + 1 < r.length) : ∃ k, read16 r off = some k := by
  rw [read16, List.getElem?_eq_getElem (by omega), List.getElem?_eq_getElem h]
  exact ⟨_, rfl⟩

theorem skip_name_some (h : off < r.length) : ∃ off', skip_name r off = some off' := by
  obtain ⟨off', hskip, -⟩ := skip_labels_some r off
  rw [skip_name, List.getElem?_eq_getElem h, hskip]
  dsimp only [Option.bind_eq_bind, Option.bind_some]
  split_ifs
  · exact ⟨_, rfl⟩
  · exact ⟨_, rfl⟩

/-- One turn of the loop, where the reads succeed. -/
theorem read_answers_turn {off' type rdlen : ℕ} (hroom : off + 12 ≤ r.length)
    (hname : skip_name r off = some off') (hfixed : off' + 10 ≤ r.length)
    (htype : read16 r off' = some type) (hrdlen : read16 r (off' + 8) = some rdlen)
    (hdata : off' + 10 + rdlen ≤ r.length) (a : ℕ) :
    read_answers r (a + 1) off =
      if type = 1 ∧ rdlen = 4 then some (some (slice r (off' + 10) 4))
      else read_answers r a (off' + 10 + rdlen) := by
  rw [read_answers, if_neg (by omega), hname]
  dsimp only [Option.bind_eq_bind, Option.bind_some]
  rw [if_neg (by omega), htype]
  dsimp only [Option.bind_some]
  rw [hrdlen]
  dsimp only [Option.bind_some]
  rw [if_neg (by omega)]
  by_cases hfour : type = 1 ∧ rdlen = 4
  · have hslice : slice r (off' + 10) 4 = #v[r.getD (off' + 10) 0, r.getD (off' + 10 + 1) 0,
        r.getD (off' + 10 + 2) 0, r.getD (off' + 10 + 3) 0] := rfl
    have hbyte : ∀ i < 4, r[off' + 10 + i]? = some (r.getD (off' + 10 + i) 0) := fun i hi => by
      rw [List.getElem?_eq_getElem (by omega), List.getD_eq_getElem _ _ (by omega)]
    have hfirst := hbyte 0 (by decide)
    rw [Nat.add_zero] at hfirst
    rw [if_pos hfour, if_pos hfour, hslice, hfirst, hbyte 1 (by decide), hbyte 2 (by decide),
      hbyte 3 (by decide)]
    rfl
  · rw [if_neg hfour, if_neg hfour]

theorem read_answers_some (r : Bytes) : ∀ a off : ℕ, ∃ result, read_answers r a off = some result
  | 0, _ => ⟨none, rfl⟩
  | a + 1, off => by
    by_cases hroom : off + 12 > r.length
    · exact ⟨none, by rw [read_answers, if_pos hroom]⟩
    obtain ⟨off', hname⟩ := skip_name_some (by omega : off < r.length)
    by_cases hfixed : off' + 10 > r.length
    · refine ⟨none, ?_⟩
      rw [read_answers, if_neg hroom, hname]
      exact if_pos hfixed
    obtain ⟨type, htype⟩ := read16_some (by omega : off' + 1 < r.length)
    obtain ⟨rdlen, hrdlen⟩ := read16_some (by omega : off' + 8 + 1 < r.length)
    by_cases hdata : off' + 10 + rdlen > r.length
    · refine ⟨none, ?_⟩
      rw [read_answers, if_neg hroom, hname]
      dsimp only [Option.bind_eq_bind, Option.bind_some]
      rw [if_neg hfixed, htype, hrdlen]
      exact if_pos hdata
    · rw [read_answers_turn (by omega) hname (by omega) htype hrdlen (by omega)]
      split_ifs
      · exact ⟨_, rfl⟩
      · exact read_answers_some r a _

/-- No read is outside of what was received. -/
theorem read_reply_some (r : Bytes) : ∃ result, read_reply r = some result := by
  unfold read_reply
  by_cases hshort : r.length < 12
  · exact ⟨none, if_pos hshort⟩
  obtain ⟨ancount, hcount⟩ := read16_some (by omega : 6 + 1 < r.length)
  rw [if_neg hshort, hcount]
  dsimp only [Option.bind_eq_bind, Option.bind_some]
  by_cases hnone : ancount < 1
  · exact ⟨none, if_pos hnone⟩
  obtain ⟨off, hskip⟩ := skip_question_some r 12
  rw [if_neg hnone, hskip]
  exact read_answers_some r ancount _

end Reads

/-! ## Skipping what is well formed -/

section Skip

variable {r p q : Bytes} {off : ℕ}

theorem read16_append (p q : Bytes) (i : ℕ) : read16 (p ++ q) (p.length + i) = read16 q i := by
  unfold read16
  rw [add_assoc, List.getElem?_append_right (by omega), List.getElem?_append_right (by omega),
    Nat.add_sub_cancel_left, Nat.add_sub_cancel_left]

theorem read16_bytesBE {k : ℕ} (hk : k < 65536) (q : Bytes) :
    read16 (bytesBE 2 k ++ q) 0 = some k := by
  simp [read16, bytesBE]
  omega

theorem label_byte {l : Bytes} (h : ValidLabel l) : (UInt8.ofNat l.length).toNat = l.length
    ∧ UInt8.ofNat l.length ≠ 0 ∧ UInt8.ofNat l.length &&& 0xc0 ≠ 0xc0 := by
  have hbytes : ∀ n < 64, 1 ≤ n → UInt8.ofNat n ≠ 0 ∧ UInt8.ofNat n &&& 0xc0 ≠ 0xc0 := by decide
  obtain ⟨hpos, hle⟩ := h
  refine ⟨?_, hbytes l.length (by omega) hpos⟩
  rw [UInt8.toNat_ofNat', Nat.mod_eq_of_lt (by omega)]

/-- The byte of a message behind some bytes. -/
theorem getElem?_at (p q : Bytes) : (p ++ q)[p.length]? = q.head? := by
  rw [List.getElem?_append_right le_rfl, Nat.sub_self, List.head?_eq_getElem?]

/-- Labels are skipped by a loop that skips one label. -/
theorem skip_wire {skip : Bytes → ℕ → Option ℕ}
    (hskip : ∀ {r : Bytes} {off : ℕ} {l : Bytes}, ValidLabel l → off < r.length →
      r[off]? = some (UInt8.ofNat l.length) → skip r off = skip r (off + (l.length + 1))) :
    ∀ (labels : List Bytes) (p : Bytes), (∀ l ∈ labels, ValidLabel l) →
      skip (p ++ (wire labels ++ q)) p.length
        = skip (p ++ (wire labels ++ q)) (p.length + wire_length labels)
  | [], p, _ => by simp [wire_length]
  | l :: labels, p, hvalid => by
    obtain ⟨hl, hrest⟩ := List.forall_mem_cons.mp hvalid
    obtain ⟨p', hp'⟩ : ∃ p', p ++ UInt8.ofNat l.length :: l = p' := ⟨_, rfl⟩
    have hsplit : p ++ (wire (l :: labels) ++ q) = p' ++ (wire labels ++ q) := by
      simp [wire, ← hp']
    have hp'len : p'.length = p.length + (l.length + 1) := by simp [← hp']
    have hhead : (p' ++ (wire labels ++ q))[p.length]? = some (UInt8.ofNat l.length) := by
      rw [← hp', List.append_assoc, getElem?_at]
      rfl
    have hsum : wire_length (l :: labels) = l.length + 1 + wire_length labels := by
      simp [wire_length]
    have hpos : p.length + (l.length + 1 + wire_length labels) = p'.length + wire_length labels := by
      omega
    rw [hsplit, hskip hl (by simp only [List.length_append]; omega) hhead, ← hp'len,
      skip_wire hskip labels p' hrest, hsum, hpos]

theorem skip_labels_label {l : Bytes} (hl : ValidLabel l) (hin : off < r.length)
    (hbyte : r[off]? = some (UInt8.ofNat l.length)) :
    skip_labels r off = skip_labels r (off + (l.length + 1)) := by
  obtain ⟨hlen, hne, -⟩ := label_byte hl
  rw [skip_labels, if_pos hin, hbyte]
  dsimp only
  rw [if_neg hne, hlen]

theorem skip_question_label {l : Bytes} (hl : ValidLabel l) (hin : off < r.length)
    (hbyte : r[off]? = some (UInt8.ofNat l.length)) :
    skip_question r off = skip_question r (off + (l.length + 1)) := by
  obtain ⟨hlen, hne, hlabel⟩ := label_byte hl
  rw [skip_question, if_pos hin, hbyte]
  dsimp only
  rw [if_neg hne, if_neg hlabel, hlen]

theorem skip_labels_root (h : r[off]? = some 0) : skip_labels r off = some off := by
  rw [skip_labels]
  split_ifs with hin
  · rw [h]
    rfl
  · rfl

theorem skip_question_root (h : r[off]? = some 0) : skip_question r off = some off := by
  rw [skip_question]
  split_ifs with hin
  · rw [h]
    rfl
  · rfl

/-- The first byte of a pointer, read as a length. -/
theorem pointer_byte {c : UInt8} (h : c &&& 0xc0 = 0xc0) : c ≠ 0 ∧ 192 ≤ c.toNat := by
  have hbytes : ∀ n < 256, UInt8.ofNat n &&& 0xc0 = 0xc0 → UInt8.ofNat n ≠ 0 ∧ 192 ≤ n := by
    decide +kernel
  have hc := hbytes c.toNat c.toNat_lt
  rw [UInt8.ofNat_toNat] at hc
  exact hc h

theorem skip_question_pointer {c : UInt8} (hin : off < r.length) (hbyte : r[off]? = some c)
    (hc : c &&& 0xc0 = 0xc0) : skip_question r off = some (off + 1) := by
  rw [skip_question, if_pos hin, hbyte]
  dsimp only
  rw [if_neg (pointer_byte hc).1, if_pos hc]

/-- The loop over the records jumps far past a pointer. -/
theorem skip_labels_pointer {c : UInt8} (hin : off < r.length) (hbyte : r[off]? = some c)
    (hc : c &&& 0xc0 = 0xc0) : ∃ off', skip_labels r off = some off' ∧ off + 193 ≤ off' := by
  obtain ⟨hne, hlarge⟩ := pointer_byte hc
  obtain ⟨off', hskip, hle⟩ := skip_labels_some r (off + (c.toNat + 1))
  rw [skip_labels, if_pos hin, hbyte]
  dsimp only
  rw [if_neg hne]
  exact ⟨off', hskip, by omega⟩

/-- What stands behind the labels of a name. -/
theorem getElem?_last (n : WireName) (p q : Bytes) :
    (p ++ (n.bytes ++ q))[p.length + wire_length n.labels]? = (n.last ++ q).head? := by
  rw [WireName.bytes, List.append_assoc, ← List.append_assoc p, ← length_wire, ← List.length_append,
    getElem?_at]

theorem length_bytes (n : WireName) : n.bytes.length = wire_length n.labels + n.last.length := by
  rw [WireName.bytes, List.length_append, length_wire]

theorem wire_bytes (n : WireName) (q : Bytes) :
    wire n.labels ++ (n.last ++ q) = n.bytes ++ q := by
  rw [WireName.bytes, List.append_assoc]

/-- The question's name is skipped in every form. -/
theorem skip_question_name (n : WireName) (p q : Bytes) :
    ∃ off, skip_question (p ++ (n.bytes ++ q)) p.length = some off
      ∧ off + 1 = p.length + n.bytes.length := by
  have hwire := skip_wire (q := n.last ++ q) skip_question_label n.labels p n.valid
  rw [wire_bytes] at hwire
  have hlast := getElem?_last n p q
  have hlen := length_bytes n
  rw [hwire]
  cases hpointer : n.pointer with
  | none =>
    rw [n.last_none hpointer] at hlast hlen
    exact ⟨_, skip_question_root hlast, by rw [hlen, List.length_singleton]; omega⟩
  | some b =>
    rw [n.last_some hpointer] at hlast hlen
    simp only [List.length_cons, List.length_nil] at hlen
    have hin : p.length + wire_length n.labels < (p ++ (n.bytes ++ q)).length := by
      simp only [List.length_append]
      omega
    exact ⟨_, skip_question_pointer hin hlast (n.compressed b hpointer), by omega⟩

/-- A name that does not start with a pointer is skipped label by label. -/
theorem skip_name_labels {n : WireName} (h : n.labels ≠ [] ∨ n.pointer = none) (p q : Bytes) :
    skip_name (p ++ (n.bytes ++ q)) p.length
      = (skip_labels (p ++ (n.bytes ++ q)) (p.length + wire_length n.labels)).map (· + 1) := by
  have hwire := skip_wire (q := n.last ++ q) skip_labels_label n.labels p n.valid
  rw [wire_bytes] at hwire
  obtain ⟨c, hhead, hc⟩ : ∃ c, (n.bytes ++ q).head? = some c ∧ c &&& 0xc0 ≠ 0xc0 := by
    rw [WireName.bytes]
    cases hlabels : n.labels with
    | nil =>
      obtain hpointer := h.resolve_left fun hne => hne hlabels
      rw [n.last_none hpointer]
      exact ⟨0, rfl, by decide⟩
    | cons l labels =>
      have hl := n.valid l (by rw [hlabels]; exact List.mem_cons_self)
      exact ⟨UInt8.ofNat l.length, rfl, (label_byte hl).2.2⟩
  rw [skip_name, getElem?_at, hhead]
  dsimp only [Option.bind_eq_bind, Option.bind_some]
  rw [if_neg hc, hwire]

/-- A plain name is skipped. -/
theorem skip_name_plain {n : WireName} (h : n.Plain) (p q : Bytes) :
    skip_name (p ++ (n.bytes ++ q)) p.length = some (p.length + n.bytes.length) := by
  have hlast := getElem?_last n p q
  have hlen := length_bytes n
  cases hpointer : n.pointer with
  | none =>
    rw [n.last_none hpointer] at hlast hlen
    rw [skip_name_labels (.inr hpointer), skip_labels_root hlast, hlen]
    rfl
  | some b =>
    have hlabels : n.labels = [] := h.resolve_right (by simp [hpointer])
    have hzero : wire_length n.labels = 0 := by rw [hlabels]; rfl
    rw [n.last_some hpointer] at hlast hlen
    rw [hzero, Nat.add_zero] at hlast
    rw [hzero, List.length_cons, List.length_singleton] at hlen
    rw [skip_name, hlast, hlen]
    exact if_pos (n.compressed b hpointer)

/-- Behind a name with both labels and a pointer the loop ends up far from the record. -/
theorem skip_name_mixed {n : WireName} (h : ¬ n.Plain) (p q : Bytes) :
    ∃ off, skip_name (p ++ (n.bytes ++ q)) p.length = some off ∧ p.length + 196 ≤ off := by
  obtain ⟨hlabels, hpointer⟩ := not_or.mp h
  obtain ⟨b, hb⟩ := Option.ne_none_iff_exists'.mp hpointer
  have hlast := getElem?_last n p q
  have hlen := length_bytes n
  rw [n.last_some hb] at hlast hlen
  simp only [List.length_cons, List.length_nil] at hlen
  have hlong : 2 ≤ wire_length n.labels := by
    obtain ⟨l, labels, hcons⟩ := List.exists_cons_of_ne_nil hlabels
    have hl := (n.valid l (by rw [hcons]; exact List.mem_cons_self)).1
    simp only [hcons, wire_length, List.map_cons, List.sum_cons]
    omega
  have hin : p.length + wire_length n.labels < (p ++ (n.bytes ++ q)).length := by
    simp only [List.length_append]
    omega
  obtain ⟨off, hskip, hfar⟩ := skip_labels_pointer hin hlast (n.compressed b hb)
  refine ⟨off + 1, ?_, by omega⟩
  rw [skip_name_labels (.inl hlabels), hskip]
  rfl

end Skip

/-! ## The records -/

section Records

variable {p q : Bytes}

theorem length_record (r : Record) : r.bytes.length = r.name.bytes.length + 10 + r.rdata.length := by
  simp only [Record.bytes, List.length_append, length_bytesBE]
  omega

/-- A record with a plain name is read: it is the answer, or the loop goes on behind it. -/
theorem read_answers_plain {r : Record} (h : r.name.Plain) (a : ℕ)
    (hroom : 12 ≤ r.bytes.length + q.length) :
    read_answers (p ++ (r.bytes ++ q)) (a + 1) p.length =
      if r.type = 1 ∧ r.rdata.length = 4 then some (some (slice r.rdata 0 4))
      else read_answers (p ++ (r.bytes ++ q)) a (p.length + r.bytes.length) := by
  have hlen := length_record r
  obtain ⟨fixed, hfixed⟩ : ∃ fixed, bytesBE 2 r.type.toNat ++ (bytesBE 2 r.cls.toNat
    ++ bytesBE 4 r.ttl.toNat) = fixed := ⟨_, rfl⟩
  have hfixedlen : fixed.length = 8 := by simp [← hfixed]
  have hname := skip_name_plain h p
    (fixed ++ (bytesBE 2 r.rdata.length ++ (r.rdata ++ q)))
  have hbytes : r.bytes ++ q
      = r.name.bytes ++ (fixed ++ (bytesBE 2 r.rdata.length ++ (r.rdata ++ q))) := by
    rw [Record.bytes, ← hfixed]
    simp only [List.append_assoc]
  rw [← hbytes] at hname
  have htype : read16 (p ++ (r.bytes ++ q)) (p.length + r.name.bytes.length)
      = some r.type.toNat := by
    have hread := read16_append (p ++ r.name.bytes)
      (fixed ++ (bytesBE 2 r.rdata.length ++ (r.rdata ++ q))) 0
    rw [List.append_assoc, ← hbytes, List.length_append, Nat.add_zero] at hread
    rw [hread, ← hfixed, List.append_assoc, read16_bytesBE r.type.toNat_lt]
  have hrdlen : read16 (p ++ (r.bytes ++ q)) (p.length + r.name.bytes.length + 8)
      = some r.rdata.length := by
    have hread := read16_append (p ++ (r.name.bytes ++ fixed))
      (bytesBE 2 r.rdata.length ++ (r.rdata ++ q)) 0
    simp only [List.append_assoc] at hread
    rw [← hbytes, List.length_append, List.length_append, hfixedlen, Nat.add_zero,
      read16_bytesBE r.short, ← add_assoc] at hread
    exact hread
  have hdata : slice (p ++ (r.bytes ++ q)) (p.length + r.name.bytes.length + 10) 4
      = slice (r.rdata ++ q) 0 4 := by
    have hsplit : p ++ (r.bytes ++ q)
        = (p ++ (r.name.bytes ++ (fixed ++ bytesBE 2 r.rdata.length))) ++ (r.rdata ++ q) := by
      rw [hbytes]
      simp only [List.append_assoc]
    rw [hsplit, slice_after _ (by simp only [List.length_append, hfixedlen, length_bytesBE]; omega)]
  have htotal : (p ++ (r.bytes ++ q)).length = p.length + (r.bytes.length + q.length) := by
    rw [List.length_append, List.length_append]
  rw [read_answers_turn (by omega) hname (by omega) htype hrdlen (by omega), hdata]
  have htype_iff : r.type.toNat = 1 ↔ r.type = 1 := by
    rw [← UInt16.toNat_inj]
    rfl
  have hend : p.length + r.name.bytes.length + 10 + r.rdata.length = p.length + r.bytes.length := by
    omega
  simp only [htype_iff, hend]
  by_cases hfour : r.type = 1 ∧ r.rdata.length = 4
  · rw [if_pos hfour, if_pos hfour, slice_append_left _ (by omega)]
  · rw [if_neg hfour, if_neg hfour]

/-- A record with a mixed name ends the reading of a short message. -/
theorem read_answers_mixed {r : Record} (h : ¬ r.name.Plain) (a : ℕ)
    (hroom : 12 ≤ r.bytes.length + q.length)
    (hshort : (p ++ (r.bytes ++ q)).length < p.length + 206) :
    read_answers (p ++ (r.bytes ++ q)) (a + 1) p.length = some none := by
  obtain ⟨off, hname, hfar⟩ := skip_name_mixed h p (bytesBE 2 r.type.toNat
    ++ (bytesBE 2 r.cls.toNat ++ (bytesBE 4 r.ttl.toNat
      ++ (bytesBE 2 r.rdata.length ++ (r.rdata ++ q)))))
  have hbytes : r.bytes ++ q = r.name.bytes ++ (bytesBE 2 r.type.toNat ++ (bytesBE 2 r.cls.toNat
      ++ (bytesBE 4 r.ttl.toNat ++ (bytesBE 2 r.rdata.length ++ (r.rdata ++ q))))) := by
    rw [Record.bytes]
    simp only [List.append_assoc]
  rw [← hbytes] at hname
  have htotal : (p ++ (r.bytes ++ q)).length = p.length + (r.bytes.length + q.length) := by
    rw [List.length_append, List.length_append]
  rw [read_answers, if_neg (by omega), hname]
  exact if_pos (by omega)

section Run

variable {answer : Record} (hA : answer.type = 1) (hfour : answer.rdata.length = 4)

include hfour in
/-- There is room for a record before the answer, and for the answer. -/
theorem records_room (before : List Record) :
    14 ≤ ((before ++ [answer]).flatMap Record.bytes).length := by
  have hlen := length_record answer
  rw [List.flatMap_append, List.flatMap_singleton, List.length_append]
  omega

theorem name_length_pos (n : WireName) : 1 ≤ n.bytes.length := by
  have hlen := length_bytes n
  have hlast : 1 ≤ n.last.length := by
    rw [WireName.last]
    split <;> simp
  omega

theorem record_length_pos (r : Record) : 11 ≤ r.bytes.length := by
  have hlen := length_record r
  have hname := name_length_pos r.name
  omega

include hA hfour in
/-- With plain names the first A record is found. -/
theorem read_answers_found (hplain : answer.name.Plain) :
    ∀ (before : List Record) (p : Bytes) (a : ℕ), (∀ r ∈ before, r.name.Plain ∧ r.type ≠ 1) →
      before.length < a → read_answers (p ++ ((before ++ [answer]).flatMap Record.bytes ++ q)) a
        p.length = some (some (slice answer.rdata 0 4))
  | [], p, a + 1, _, _ => by
    have hroom := record_length_pos answer
    have hlen := length_record answer
    rw [List.nil_append, List.flatMap_singleton, read_answers_plain hplain a (by omega),
      if_pos ⟨hA, hfour⟩]
  | r :: before, p, a + 1, hbefore, ha => by
    obtain ⟨⟨hname, hother⟩, hrest⟩ := List.forall_mem_cons.mp hbefore
    have hroom := records_room hfour before
    have hpos := record_length_pos r
    have hnext := read_answers_found hplain before (p ++ r.bytes) a hrest
      (by simpa using ha)
    rw [List.append_assoc, List.length_append] at hnext
    rw [List.cons_append, List.flatMap_cons, List.append_assoc,
      read_answers_plain hname a (by rw [List.length_append]; omega),
      if_neg fun h => hother h.1, hnext]

include hfour in
/-- In a short message nothing is found behind a mixed name. -/
theorem read_answers_lost : ∀ (before : List Record) (p : Bytes) (a : ℕ),
    (∀ r ∈ before, r.type ≠ 1) → before.length < a → (∃ r ∈ before ++ [answer], ¬ r.name.Plain) →
      (p ++ ((before ++ [answer]).flatMap Record.bytes ++ q)).length < p.length + 206 →
        read_answers (p ++ ((before ++ [answer]).flatMap Record.bytes ++ q)) a p.length = some none
  | [], p, a + 1, _, _, hmixed, hshort => by
    obtain ⟨r, hr, hname⟩ := hmixed
    obtain rfl := List.mem_singleton.mp hr
    have hpos := record_length_pos r
    have hlen := length_record r
    rw [List.nil_append, List.flatMap_singleton] at hshort ⊢
    exact read_answers_mixed hname a (by omega) hshort
  | r :: before, p, a + 1, hothers, ha, hmixed, hshort => by
    obtain ⟨hother, hrest⟩ := List.forall_mem_cons.mp hothers
    have hroom := records_room hfour before
    have hpos := record_length_pos r
    rw [List.cons_append, List.flatMap_cons, List.append_assoc] at hshort ⊢
    by_cases hname : r.name.Plain
    · have hmixed' : ∃ r ∈ before ++ [answer], ¬ r.name.Plain := by
        obtain ⟨r', hr', hname'⟩ := hmixed
        rcases List.mem_cons.mp hr' with rfl | hr'
        · exact absurd hname hname'
        · exact ⟨r', hr', hname'⟩
      have hp : (p ++ r.bytes).length = p.length + r.bytes.length := List.length_append
      have hnext := read_answers_lost before (p ++ r.bytes) a hrest (by simpa using ha) hmixed'
        (by rw [List.append_assoc, hp]; omega)
      rw [List.append_assoc, List.length_append] at hnext
      rw [read_answers_plain hname a (by rw [List.length_append]; omega),
        if_neg fun h => hother h.1, hnext]
    · exact read_answers_mixed hname a (by rw [List.length_append]; omega) hshort

end Run

end Records

/-! ## The result -/

theorem length_start (m : Response) : m.start.length = 12 := by
  simp [Response.start]

/-- The reading comes to the records behind the question. -/
theorem read_reply_through (m : Response) (q : Bytes) :
    read_reply (m.through ++ q) = read_answers (m.through ++ q) m.ancount.toNat
      (m.start ++ (m.qname.bytes ++ [0, 1, 0, 1])).length := by
  obtain ⟨records, hrecords⟩ : ∃ records, (m.before ++ [m.answer]).flatMap Record.bytes = records :=
    ⟨_, rfl⟩
  have hstart := length_start m
  have hthrough : m.through ++ q = m.start ++ (m.qname.bytes ++ ([0, 1, 0, 1] ++ (records ++ q))) := by
    rw [Response.through, hrecords]
    simp only [List.append_assoc]
  have hcount : read16 (m.through ++ q) 6 = some m.ancount.toNat := by
    have hread := read16_append (bytesBE 2 m.id.toNat ++ (bytesBE 2 m.flags.toNat ++ [0, 1]))
      (bytesBE 2 m.ancount.toNat ++ (bytesBE 2 m.nscount.toNat ++ (bytesBE 2 m.arcount.toNat
        ++ (m.qname.bytes ++ ([0, 1, 0, 1] ++ (records ++ q)))))) 0
    rw [read16_bytesBE m.ancount.toNat_lt] at hread
    rw [hthrough, Response.start]
    simpa using hread
  obtain ⟨off, hskip, hoff⟩ := skip_question_name m.qname m.start ([0, 1, 0, 1] ++ (records ++ q))
  rw [hstart, ← hthrough] at hskip
  have hend : (m.start ++ (m.qname.bytes ++ [0, 1, 0, 1])).length = off + 1 + 4 := by
    rw [List.length_append, List.length_append, hoff]
    rfl
  have hlong : 12 ≤ (m.through ++ q).length := by
    rw [hthrough, List.length_append]
    omega
  have hcounted := m.counted
  rw [read_reply, if_neg (by omega), hcount]
  dsimp only [Option.bind_eq_bind, Option.bind_some]
  rw [if_neg (by omega), hskip, hend]
  rfl

theorem through_eq (m : Response) (q : Bytes) : m.through ++ q
    = (m.start ++ (m.qname.bytes ++ [0, 1, 0, 1]))
      ++ ((m.before ++ [m.answer]).flatMap Record.bytes ++ q) := by
  rw [Response.through]
  simp only [List.append_assoc]

/-- What is received of a message that has its answer in the first 1500 bytes. -/
theorem received_eq (m : Response) (h : m.through.length ≤ 1500) :
    ∃ q, m.bytes.take 1500 = m.through ++ q := by
  refine ⟨m.after.take (1500 - m.through.length), ?_⟩
  rw [Response.bytes, List.take_append, List.take_of_length_le h]

theorem found_of_plain (m : Response) (hreceived : m.through.length ≤ 1500) (hplain : m.Plain) :
    m.Found := by
  obtain ⟨q, hq⟩ := received_eq m hreceived
  obtain ⟨hbefore, hanswer⟩ := List.forall_mem_append.mp hplain
  unfold Response.Found
  rw [hq, read_reply_through, through_eq]
  refine read_answers_found m.isA m.isAddress (hanswer _ (List.mem_singleton_self _)) m.before _ _
    (fun r hr => ⟨hbefore r hr, m.others r hr⟩) m.counted

theorem plain_of_found (m : Response) (hshort : m.bytes.length ≤ 222) (hfound : m.Found) :
    m.Plain := by
  by_contra hmixed
  have hmixed' : ∃ r ∈ m.before ++ [m.answer], ¬ r.name.Plain := by
    unfold Response.Plain at hmixed
    push Not at hmixed
    exact hmixed
  have hname := name_length_pos m.qname
  have hstart := length_start m
  have hbehind : 17 ≤ (m.start ++ (m.qname.bytes ++ [0, 1, 0, 1])).length := by
    simp only [List.length_append, List.length_cons, List.length_nil]
    omega
  rw [Response.bytes, through_eq] at hshort
  unfold Response.Found at hfound
  rw [Response.bytes, through_eq, List.take_of_length_le (by omega), ← through_eq,
    read_reply_through, through_eq, read_answers_lost m.isAddress m.before _ _ m.others m.counted
      hmixed' (by omega)] at hfound
  cases hfound

/-- The caller gets the address that is found, unless the exchange fails before. -/
theorem nw_dns_query_a_reply (x : Exchange) (id : UInt16) (host dns_ip : Bytes) (out_len : ℕ)
    {m : Response} (hreply : x.reply = some m.bytes) (hfound : m.Found) :
    (nw_dns_query_a x id host dns_ip out_len).1 = .failed
      ∨ (nw_dns_query_a x id host dns_ip out_len).1
        = .address ((Stun.inetNtop m.address).take (out_len - 1)) := by
  unfold nw_dns_query_a
  by_cases hsocket : x.socket = false
  · exact .inl (by rw [if_pos hsocket])
  rw [if_neg hsocket]
  cases Tcp.inetAton dns_ip with
  | none => exact .inl rfl
  | some server =>
    cases build_query id host with
    | none => exact .inl rfl
    | some q =>
      dsimp only
      by_cases hsent : x.sent = false
      · exact .inl (by rw [if_pos hsent])
      · rw [if_neg hsent, hreply]
        dsimp only
        rw [hfound]
        exact .inr rfl

/-- Nothing outside of what was received is read; the address is found where no name up to its own
has a pointer behind labels, and in a short message only there. -/
theorem read_reply_spec (r : Bytes) (m : Response) :
    read_reply r ≠ none ∧ (m.through.length ≤ 1500 → m.Plain → m.Found)
      ∧ (m.bytes.length ≤ 222 → (m.Found ↔ m.Plain)) := by
  refine ⟨fun hnone => ?_, found_of_plain m, fun hshort => ⟨plain_of_found m hshort, ?_⟩⟩
  · obtain ⟨result, hresult⟩ := read_reply_some r
    rw [hnone] at hresult
    cases hresult
  · refine found_of_plain m (le_trans ?_ (hshort.trans (by decide)))
    rw [Response.bytes, List.length_append]
    omega

/-- The query for `w.a` is answered by `CNAME x.a` and `x.a A 1.2.3.4`, the second name written as
`x` and a pointer to `a`. -/
theorem compressed_lost :
    let m : Response :=
      { id := 0, flags := 0x8180, ancount := 2, nscount := 0, arcount := 0
        qname := ⟨[[119], [97]], none, by decide, by simp⟩
        before := [⟨⟨[], some (0xc0, 12), by simp, by simp⟩, 5, 1, 60, [1, 120, 0xc0, 14],
          by decide⟩]
        answer := ⟨⟨[[120]], some (0xc0, 14), by decide, by simp⟩, 1, 1, 60, [1, 2, 3, 4],
          by decide⟩
        after := [], counted := by decide, others := by decide, isA := rfl, isAddress := rfl }
    ¬ m.Found := by
  intro m
  unfold Response.Found
  decide +kernel

end Onegram.Dns
