import Onegram.DnsQuery

/-!
# The name in a DNS query

The loop looks at the room before it copies a label and not at the length of the label, and when
there is too little it leaves the rest of the host out. So a long host, which is not refused,
overruns the buffer or gives the name of another host.
-/

namespace Onegram.Dns

open Bytes

/-! ## The law -/

/-- The labels of a host: what stands between its dots, and after the last one if there is
anything. -/
def host_labels (p : Bytes) : List Bytes :=
  if p = [] then []
  else
    let seg := p.takeWhile (· ≠ 46)
    match _hdot : p.dropWhile (· ≠ 46) with
    | [] => [seg]
    | _ :: rest => seg :: host_labels rest
termination_by p.length
decreasing_by
  have hlen := (List.dropWhile_sublist (l := p) (· ≠ 46)).length_le
  rw [_hdot, List.length_cons] at hlen
  omega

def ValidLabel (l : Bytes) : Prop := 1 ≤ l.length ∧ l.length ≤ 63

instance (l : Bytes) : Decidable (ValidLabel l) := inferInstanceAs (Decidable (_ ∧ _))

/-- The labels of a name on the wire, up to its root. -/
def decode_name : ℕ → Bytes → Option (List Bytes × Bytes)
  | 0, _ => none
  | _ + 1, [] => none
  | fuel + 1, c :: m =>
    if c = 0 then some ([], m)
    else if 63 < c.toNat ∨ m.length < c.toNat then none
    else (decode_name fuel (m.drop c.toNat)).map fun d => (m.take c.toNat :: d.1, d.2)

/-- A query for the A records of a name with these labels, within its buffer. -/
structure Asks (q : Bytes) (labels : List Bytes) : Prop where
  inside : q.length ≤ sizeofQ
  valid : ∀ l ∈ labels, ValidLabel l
  header : (q.drop 2).take 10 = [1, 0, 0, 1, 0, 0, 0, 0, 0, 0]
  question : decode_name q.length (q.drop 12) = some (labels, [0, 1, 0, 1])

/-- The host is refused, or asked for. -/
def QueryLaw (id : UInt16) (host : Bytes) : Prop :=
  ∀ q ∈ build_query id host, Asks q (host_labels host)

/-! ## The condition -/

/-- The length of labels on the wire. -/
def wire_length (labels : List Bytes) : ℕ := (labels.map fun l => l.length + 1).sum

/-- The first bad label stands where the loop still has room, or there is none and all labels fit
with the root and the rest of the question. -/
def HostFits (host : Bytes) : Prop :=
  match (host_labels host).span fun l => decide (ValidLabel l) with
  | (good, []) => wire_length good ≤ 283
  | (good, _ :: _) => wire_length good < 282

/-! ## The loop, label by label -/

/-- The loop over the labels. -/
def copy_list : Bytes → List Bytes → Option Bytes
  | q, [] => some q
  | q, l :: labels =>
    if q.length ≥ sizeofQ - 6 then some q
    else if l.length = 0 ∨ l.length > 63 then none
    else copy_list (q ++ [UInt8.ofNat l.length] ++ l) labels

theorem copy_labels_eq (q p : Bytes) : copy_labels q p = copy_list q (host_labels p) := by
  fun_induction copy_labels q p with
  | case1 q p hdone =>
    rcases hdone with rfl | hfull
    · rw [host_labels, if_pos rfl]
      rfl
    · cases host_labels p with
      | nil => rfl
      | cons l labels => exact (if_pos hfull).symm
  | case2 q p hroom seg hbad =>
    obtain ⟨hne, hroom⟩ := not_or.mp hroom
    rw [host_labels, if_neg hne]
    split <;> rw [copy_list, if_neg hroom, if_pos hbad]
  | case3 q p hroom seg hgood q' hdot =>
    obtain ⟨hne, hroom⟩ := not_or.mp hroom
    rw [host_labels, if_neg hne]
    split
    · rw [copy_list, if_neg hroom, if_neg hgood, copy_list]
    · rename_i heq
      rw [hdot] at heq
      cases heq
  | case4 q p hroom seg hgood q' dot rest hdot ih =>
    obtain ⟨hne, hroom⟩ := not_or.mp hroom
    rw [host_labels, if_neg hne]
    split
    · rename_i heq
      rw [hdot] at heq
      cases heq
    · rename_i heq
      rw [hdot] at heq
      obtain ⟨-, rfl⟩ := List.cons.inj heq
      rw [copy_list, if_neg hroom, if_neg hgood, ih]

/-- Labels on the wire, without the root. -/
def wire (labels : List Bytes) : Bytes := labels.flatMap fun l => UInt8.ofNat l.length :: l

theorem length_wire (labels : List Bytes) : (wire labels).length = wire_length labels := by
  simp [wire, wire_length, List.length_flatMap]

section Loop

variable {q : Bytes} {labels good rest : List Bytes}

theorem copy_list_good : ∀ {labels : List Bytes} {q : Bytes}, (∀ l ∈ labels, ValidLabel l) →
    q.length + wire_length labels ≤ 295 → copy_list q labels = some (q ++ wire labels)
  | [], q, _, _ => by simp [copy_list, wire]
  | l :: labels, q, hvalid, hfits => by
    obtain ⟨hl, hrest⟩ := List.forall_mem_cons.mp hvalid
    obtain ⟨hpos, hle⟩ := hl
    have hsum : wire_length (l :: labels) = l.length + 1 + wire_length labels := by
      simp [wire_length]
    have hroom : ¬ q.length ≥ sizeofQ - 6 := by
      unfold sizeofQ
      omega
    have hnext := copy_list_good (q := q ++ [UInt8.ofNat l.length] ++ l) hrest (by simp; omega)
    rw [copy_list, if_neg hroom, if_neg (by omega), hnext]
    simp [wire]

/-- A bad label is refused where it is reached with room. -/
theorem copy_list_bad {bad : Bytes} (hbad : ¬ ValidLabel bad) : ∀ {good : List Bytes} {q : Bytes},
    (∀ l ∈ good, ValidLabel l) → q.length + wire_length good < 294 →
      copy_list q (good ++ bad :: rest) = none
  | [], q, _, hfits => by
    have hroom : ¬ q.length ≥ sizeofQ - 6 := by
      simp only [wire_length, List.map_nil, List.sum_nil] at hfits
      unfold sizeofQ
      omega
    rw [List.nil_append, copy_list, if_neg hroom, if_pos (by unfold ValidLabel at hbad; omega)]
  | l :: good, q, hvalid, hfits => by
    obtain ⟨hl, hrest⟩ := List.forall_mem_cons.mp hvalid
    obtain ⟨hpos, hle⟩ := hl
    have hsum : wire_length (l :: good) = l.length + 1 + wire_length good := by
      simp [wire_length]
    have hroom : ¬ q.length ≥ sizeofQ - 6 := by
      unfold sizeofQ
      omega
    rw [List.cons_append, copy_list, if_neg hroom, if_neg (by omega)]
    exact copy_list_bad hbad hrest (by simp; omega)

/-- Past the room nothing is refused. -/
theorem copy_list_full : ∀ {good : List Bytes} {q : Bytes}, (∀ l ∈ good, ValidLabel l) →
    294 ≤ q.length + wire_length good → ∃ q', copy_list q (good ++ rest) = some q'
  | [], q, _, hfull => by
    have hfull' : q.length ≥ sizeofQ - 6 := by
      simp only [wire_length, List.map_nil, List.sum_nil] at hfull
      exact hfull
    cases rest with
    | nil => exact ⟨q, rfl⟩
    | cons l rest => exact ⟨q, if_pos hfull'⟩
  | l :: good, q, hvalid, hfull => by
    obtain ⟨hl, hrest⟩ := List.forall_mem_cons.mp hvalid
    obtain ⟨hpos, hle⟩ := hl
    have hsum : wire_length (l :: good) = l.length + 1 + wire_length good := by
      simp [wire_length]
    rw [List.cons_append, copy_list, if_neg (by omega : ¬ (l.length = 0 ∨ l.length > 63))]
    by_cases hroom : q.length ≥ sizeofQ - 6
    · exact ⟨q, if_pos hroom⟩
    · rw [if_neg hroom]
      exact copy_list_full hrest (by simp; omega)

end Loop

/-! ## Reading the name back -/

theorem decode_name_wire {m : Bytes} : ∀ {labels : List Bytes} {fuel : ℕ},
    (∀ l ∈ labels, ValidLabel l) → labels.length < fuel →
      decode_name fuel (wire labels ++ 0 :: m) = some (labels, m)
  | [], fuel + 1, _, _ => by simp [decode_name, wire]
  | l :: labels, fuel + 1, hvalid, hfuel => by
    obtain ⟨hl, hrest⟩ := List.forall_mem_cons.mp hvalid
    obtain ⟨hpos, hle⟩ := hl
    have hcons : wire (l :: labels) ++ 0 :: m
        = UInt8.ofNat l.length :: (l ++ (wire labels ++ 0 :: m)) := by simp [wire]
    have hlen : (UInt8.ofNat l.length).toNat = l.length := by
      rw [UInt8.toNat_ofNat', Nat.mod_eq_of_lt (by omega)]
    have hne : UInt8.ofNat l.length ≠ 0 := by
      intro h0
      have hzero : l.length = 0 := by rw [← hlen, h0]; rfl
      omega
    have hnext := decode_name_wire (m := m) hrest (by simpa using hfuel : labels.length < fuel)
    rw [hcons, decode_name, if_neg hne, hlen, if_neg (by simp; omega), List.drop_left,
      List.take_left, hnext]
    rfl

/-- A name takes the room of its labels and its root. -/
theorem decode_name_length : ∀ {fuel : ℕ} {m rest : Bytes} {labels : List Bytes},
    decode_name fuel m = some (labels, rest) → m.length = wire_length labels + 1 + rest.length
  | 0, m, rest, labels, h => by cases h
  | fuel + 1, [], rest, labels, h => by cases h
  | fuel + 1, c :: m, rest, labels, h => by
    rw [decode_name] at h
    split_ifs at h with hc hbad
    · obtain ⟨rfl, rfl⟩ := Prod.mk.inj (Option.some.inj h)
      simp [wire_length, add_comm]
    · obtain ⟨⟨ls, r⟩, hd, heq⟩ := Option.map_eq_some_iff.mp h
      obtain ⟨rfl, rfl⟩ := Prod.mk.inj heq
      have hlen := decode_name_length hd
      simp only [List.length_drop] at hlen
      have hsum : wire_length (m.take c.toNat :: ls) = c.toNat + 1 + wire_length ls := by
        simp only [wire_length, List.map_cons, List.sum_cons, List.length_take]
        omega
      simp only [List.length_cons]
      omega

/-! ## The result -/

section Result

variable {id : UInt16} {host : Bytes} {good rest : List Bytes}

theorem length_query_header (id : UInt16) : (query_header id).length = 12 := by
  simp [query_header]

theorem build_query_eq (id : UInt16) (host : Bytes) : build_query id host
    = (copy_list (query_header id) (host_labels host)).map fun q => q ++ [0, 0, 1, 0, 1] := by
  rw [build_query, copy_labels_eq]

theorem labels_length_le (labels : List Bytes) : labels.length ≤ wire_length labels := by
  have hsum := List.length_le_sum_of_one_le (labels.map fun l => l.length + 1)
    (by simp only [List.mem_map]; omega)
  rwa [List.length_map] at hsum

theorem asks_of_fits (hvalid : ∀ l ∈ good, ValidLabel l) (hfits : wire_length good ≤ 283) :
    Asks (query_header id ++ wire good ++ [0, 0, 1, 0, 1]) good := by
  have hheader := length_query_header id
  have hwire := length_wire good
  have hcount := labels_length_le good
  constructor
  · simp only [List.length_append, hheader, hwire, sizeofQ, List.length_cons, List.length_nil]
    omega
  · exact hvalid
  · rw [List.append_assoc, List.drop_append_of_le_length (by omega), List.take_append_of_le_length
      (by rw [List.length_drop]; omega)]
    rfl
  · rw [List.append_assoc, List.drop_left' hheader]
    refine decode_name_wire hvalid ?_
    simp only [List.length_append, hheader, hwire]
    omega

/-- A host with valid labels only is asked for just when they fit. -/
theorem queryLaw_valid (hlabels : host_labels host = good) (hvalid : ∀ l ∈ good, ValidLabel l) :
    QueryLaw id host ↔ wire_length good ≤ 283 := by
  have hheader := length_query_header id
  unfold QueryLaw
  rw [build_query_eq, hlabels]
  constructor
  · intro hlaw
    by_contra hlong
    obtain ⟨q, hq⟩ : ∃ q, copy_list (query_header id) good = some q := by
      have hfull : ∃ q, copy_list (query_header id) (good ++ []) = some q :=
        copy_list_full hvalid (by omega)
      rwa [List.append_nil] at hfull
    rw [hq] at hlaw
    have hasks := hlaw _ rfl
    have hlen := decode_name_length hasks.question
    have hinside := hasks.inside
    simp only [List.length_drop, sizeofQ, List.length_cons, List.length_nil] at hlen hinside
    omega
  · intro hfits q hq
    rw [copy_list_good hvalid (by omega)] at hq
    obtain rfl := Option.some.inj hq
    exact asks_of_fits hvalid hfits

/-- A host with a bad label is refused just when the loop comes to it. -/
theorem queryLaw_invalid {bad : Bytes} (hlabels : host_labels host = good ++ bad :: rest)
    (hvalid : ∀ l ∈ good, ValidLabel l) (hbad : ¬ ValidLabel bad) :
    QueryLaw id host ↔ wire_length good < 282 := by
  have hheader := length_query_header id
  unfold QueryLaw
  rw [build_query_eq, hlabels]
  constructor
  · intro hlaw
    by_contra hlong
    obtain ⟨q, hq⟩ : ∃ q, copy_list (query_header id) (good ++ bad :: rest) = some q :=
      copy_list_full hvalid (by omega)
    rw [hq] at hlaw
    exact hbad ((hlaw _ rfl).valid bad (by simp))
  · intro hfits q hq
    rw [copy_list_bad hbad hvalid (by omega)] at hq
    cases hq

/-- Refused or asked for, without leaving the buffer, is a host just when it fits. -/
theorem build_query_law_iff (id : UInt16) (host : Bytes) : QueryLaw id host ↔ HostFits host := by
  unfold HostFits
  rw [List.span_eq_takeWhile_dropWhile]
  have hsplit := List.takeWhile_append_dropWhile (l := host_labels host)
    (p := fun l => decide (ValidLabel l))
  have hfirst := List.head?_dropWhile_not (fun l => decide (ValidLabel l))
    (host_labels host)
  have hvalid : ∀ l ∈ (host_labels host).takeWhile fun l => decide (ValidLabel l),
      ValidLabel l := fun l hl =>
    of_decide_eq_true (List.all_eq_true.mp List.all_takeWhile l hl)
  cases hrest : (host_labels host).dropWhile fun l => decide (ValidLabel l) with
  | nil =>
    rw [hrest, List.append_nil] at hsplit
    exact queryLaw_valid hsplit.symm hvalid
  | cons bad rest =>
    rw [hrest] at hsplit hfirst
    exact queryLaw_invalid hsplit.symm hvalid (of_decide_eq_false hfirst)

/-- Behind four labels of 62 bytes and one of 28 the loop has room for one byte, and copies a label
of 63. -/
theorem long_host_overruns :
    let label (n : ℕ) : Bytes := List.replicate n 97
    let labels := [label 62, label 62, label 62, label 62, label 28, label 63]
    ¬ QueryLaw 0 (List.intercalate [46] labels) := by
  intro label labels
  have hlabels : host_labels (List.intercalate [46] labels) = labels := by decide +kernel
  have hvalid : ∀ l ∈ labels, ValidLabel l := by decide +kernel
  rw [queryLaw_valid hlabels hvalid]
  decide +kernel

end Result

end Onegram.Dns
