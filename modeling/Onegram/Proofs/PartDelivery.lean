import Onegram.Proofs.PartGrid

/-!
# The pieces are the bytes of the range

Where the range ends, the manager takes its end for its length, and it asks for whole limits: a
range of a known size that begins behind the start of the file has to reach its end, and one that
ends before the file does has to end with a part of the size of a limit. A part whose fetch fails is
asked for again only as long as no part behind it is fetched. Where this is so, the pieces handed on
are at any time the first bytes of the range, and all of them when it is complete.
-/

namespace Onegram.MultipartFetch

open MultipartFetchManager

/-! ## What is delivered -/

/-- What `partReady` has been handed. -/
def MultipartFetchManager.pieces (m : MultipartFetchManager) : Bytes :=
  (m.taken.filter (·.delivered)).flatMap (·.data)

/-- The bytes of the range that the file has. -/
def rangeBytes (content : Bytes) (location length : ℕ) : Bytes :=
  (content.drop location).take length

section Delivers

variable (sha256 : Bytes → Bytes) (aesCtrDecrypt : Bytes → Bytes → Bytes → Bytes)

/-- The pieces are the first bytes of the range, all of them when the fetch is complete; nothing
comes after the end. -/
structure Delivers (content : Bytes) (location length : ℕ) (m : MultipartFetchManager) :
    Prop where
  isPrefix : m.pieces <+: rangeBytes content location length
  whole : m.outcome = some .completed → m.pieces = rangeBytes content location length
  once : m.outcome ≠ none → ∀ e, (m.step sha256 aesCtrDecrypt e).outcome = m.outcome ∧
    (m.step sha256 aesCtrDecrypt e).pieces = m.pieces
  intact : m.outcome ≠ some .aborted

/-- In every state of the run, and while it is not over, some part is being fetched. -/
def DeliversRange (fileReference : Bytes) (originInfo : Bool) (content : Bytes) (known : Bool)
    (location length : ℕ) (events : List Event) : Prop :=
  ∀ past rest, events = past ++ rest →
    let m := Run.run (MultipartFetchManager.step sha256 aesCtrDecrypt)
      (init fileReference originInfo (if known then some content.length else none) location
        length) past
    Delivers sha256 aesCtrDecrypt content location length m ∧
      (.start ∈ past → m.terminated = false → m.fetchingParts ≠ [])

/-- The server answers a request with the bytes of the file. -/
def Served (content : Bytes) (m : MultipartFetchManager) (e : Event) : Prop :=
  ∀ offset next part, e = .answer offset next → m.asked offset = some part →
    ∃ limit, updatedLimit defaultPartSize part.size = some limit ∧
      next = .file (fileBytes content offset limit)

/-- The end of the range is taken for its length, and a limit for the size of a part. -/
structure RangeFits (size : ℕ) (known : Bool) (location length : ℕ) : Prop where
  start : known = true → location = 0 ∨ size ≤ location + length
  last : size ≤ location + length ∨ length % defaultPartSize = 0 ∨
    updatedLimit defaultPartSize (length % defaultPartSize) = some (length % defaultPartSize)

/-- The parts from what is committed up to an offset are in flight or fetched. -/
def Reached (s : ℕ) (m : MultipartFetchManager) (offset : ℕ) : Prop :=
  ∀ o, OnGrid s offset o → m.committedOffset ≤ o → o ∈ m.cells.map (·.1)

/-- No part is missing before one that arrives, and none is fetched behind one that is to be asked
for again. -/
structure InTurn (s : ℕ) (m : MultipartFetchManager) (e : Event) : Prop where
  arrives : ∀ pending data, incoming aesCtrDecrypt m e = some (pending, data) →
    Reached s m pending.offset
  fails : ∀ offset, Fails m e offset → offset ∉ m.retriedPartOffsets →
    ∀ part ∈ m.fetchedParts, part.offset < offset

end Delivers

/-! ## Bytes -/

theorem fileBytes_length (content : Bytes) (offset limit : ℕ) :
    fileBytes content offset limit =
      fileBytes content offset (fileBytes content offset limit).length := by
  unfold fileBytes
  rw [List.take_eq_take_iff, List.length_take]
  omega

/-- Two neighbouring pieces of a file. -/
theorem take_append_fileBytes {content : Bytes} {s c : ℕ} (hle : s ≤ c) (n : ℕ) :
    (content.drop s).take (c - s) ++ fileBytes content c n =
      (content.drop s).take (c + n - s) := by
  have hdrop : content.drop c = (content.drop s).drop (c - s) := by
    rw [List.drop_drop, Nat.add_sub_cancel' hle]
  have hsum : c + n - s = c - s + n := by omega
  rw [fileBytes, hdrop, hsum, List.take_add]

/-! ## Filled up to what is committed -/

/-- The file's bytes are in what is delivered and in the parts fetched, and none of these waits for
a part that is not asked for. -/
structure Filled (content : Bytes) (s E : ℕ) (m : MultipartFetchManager) : Prop where
  pieces : m.pieces = (content.drop s).take (m.committedOffset - s)
  bound : m.committedOffset ≤ max s E
  data : ∀ part ∈ m.fetchedParts, part.data = fileBytes content part.offset part.data.length
  reached : ∀ part ∈ m.fetchedParts, Reached s m part.offset

section Filled

variable {content : Bytes} {s E : ℕ} {size : Option ℕ} {m m' : MultipartFetchManager}
  {sha256 : Bytes → Bytes}

theorem Reached.mono {offset : ℕ} (h : Reached s m offset)
    (hcommitted : m'.committedOffset = m.committedOffset)
    (hcells : m.cells.map (·.1) ⊆ m'.cells.map (·.1)) : Reached s m' offset :=
  fun o hgrid hle => hcells (h o hgrid (hcommitted ▸ hle))

theorem pieces_congr (h : m'.taken = m.taken) : m'.pieces = m.pieces := by
  rw [MultipartFetchManager.pieces, MultipartFetchManager.pieces, h]

namespace Filled

/-- What changes neither the parts fetched nor what is committed, and loses no part. -/
theorem of_cells (h : Filled content s E m) (htaken : m'.taken = m.taken)
    (hcommitted : m'.committedOffset = m.committedOffset)
    (hfetched : m'.fetchedParts = m.fetchedParts)
    (hcells : m.cells.map (·.1) ⊆ m'.cells.map (·.1)) : Filled content s E m' where
  pieces := by rw [pieces_congr htaken, hcommitted, h.pieces]
  bound := hcommitted ▸ h.bound
  data := hfetched ▸ h.data
  reached part hpart := (h.reached part (hfetched ▸ hpart)).mono hcommitted hcells

theorem same (h : Filled content s E m) (hsame : Same m m') : Filled content s E m' :=
  h.of_cells (congrArg (·.taken) hsame) (congrArg (·.committedOffset) hsame)
    (congrArg (·.fetchedParts) hsame) (by rw [hsame.cells]; exact List.Subset.refl _)

theorem take (h : Filled content s E m) (hgrid : Grid s E size m) {part : FetchedPart}
    (hpart : part ∈ m.fetchedParts) (hat : part.offset = m.committedOffset) :
    Filled content s E (m.take sha256 part) := by
  obtain ⟨⟨hs, -, hlt⟩, hsize, -⟩ := hgrid.cells _ (mem_cells_fetched hpart)
  have hpos := hgrid.cell_pos (mem_cells_fetched hpart)
  simp only [] at hs hlt hsize hpos
  have haccepts : m.accepts sha256 part = true := by rw [accepts, hgrid.hashes]
  have hcommitted : (m.take sha256 part).committedOffset =
      m.committedOffset + part.data.length := rfl
  refine ⟨?_, ?_, fun p hp => h.data p (List.mem_of_mem_filter hp), ?_⟩
  · have htaken : (m.take sha256 part).pieces = m.pieces ++ part.data := by
      show ((m.taken ++ [_]).filter _).flatMap _ = _
      rw [List.filter_append, List.flatMap_append, List.filter_singleton, haccepts]
      exact congrArg (m.pieces ++ ·) (List.append_nil part.data)
    have hdata := h.data part hpart
    rw [hat] at hdata hs
    rw [htaken, h.pieces, hcommitted, ← take_append_fileBytes hs, ← hdata]
  · rw [hcommitted, hsize, ← hat]
    omega
  · intro p hp o hon hle
    obtain ⟨hmem, hne⟩ := List.mem_filter.mp hp
    rw [hcommitted] at hle
    obtain ⟨cell, hcell, rfl⟩ := List.mem_map.mp (h.reached p hmem o hon (by omega))
    rcases mem_cells hcell with ⟨q, hq, rfl⟩ | ⟨q, hq, rfl⟩
    · exact List.mem_map.mpr ⟨_, mem_cells_fetching (m := m.take sha256 part) hq, rfl⟩
    · have hother : q.offset ≠ part.offset := by
        simp only [] at hle
        omega
      exact List.mem_map.mpr ⟨_, mem_cells_fetched (m := m.take sha256 part)
        (List.mem_filter.mpr ⟨hq, bne_iff_ne.mpr hother⟩), rfl⟩

theorem fetchParts (h : Filled content s E m) (fuel : ℕ) : Filled content s E (m.fetchParts fuel) := by
  obtain ⟨hcommitted, hfetched, htaken⟩ := fetchParts_same fuel m
  obtain ⟨-, hcells⟩ := fetchParts_induct
    (P := fun _ m' => m.cells.map (·.1) ⊆ m'.cells.map (·.1)) (fun _ m' hsub _ =>
      List.Subset.trans hsub fun o ho =>
        ((cells_addPart m').map _).mem_iff.mpr (List.mem_cons_of_mem _ ho))
    fuel (List.Subset.refl _)
  exact h.of_cells htaken hcommitted hfetched hcells

/-- A part that is fetched with the bytes of the file, with none missing before it. -/
theorem storePart (h : Filled content s E m) {pending : MultipartPendingPart} {data : Bytes}
    (hdata : data = fileBytes content pending.offset data.length)
    (hreached : Reached s m pending.offset) (fromCdn : Bool) :
    Filled content s E (m.storePart pending data fromCdn) := by
  have hcells : m.cells.map (·.1) ⊆ (m.storePart pending data fromCdn).cells.map (·.1) := by
    intro o ho
    obtain ⟨cell, hcell, rfl⟩ := List.mem_map.mp ho
    rw [cells_storePart, List.map_append, List.mem_append]
    by_cases hat : cell.1 = pending.offset
    · exact .inr (by simp [hat])
    · exact .inl (List.mem_map_of_mem (List.mem_filter.mpr ⟨hcell, bne_iff_ne.mpr hat⟩))
  refine ⟨h.pieces, h.bound, fun part hpart => ?_, fun part hpart => ?_⟩
  · rcases List.mem_append.mp hpart with hpart | hpart
    · exact h.data part (List.mem_of_mem_filter hpart)
    · obtain rfl := List.mem_singleton.mp hpart
      exact hdata
  · rcases List.mem_append.mp hpart with hpart | hpart
    · exact (h.reached part (List.mem_of_mem_filter hpart)).mono rfl hcells
    · obtain rfl := List.mem_singleton.mp hpart
      exact hreached.mono rfl hcells

/-- A part that failed, with none fetched behind it. -/
theorem removePart (h : Filled content s E m) {offset : ℕ}
    (hlast : ∀ part ∈ m.fetchedParts, part.offset < offset) (retried : List ℕ) :
    Filled content s E { m.removePart offset with retriedPartOffsets := retried } := by
  refine ⟨h.pieces, h.bound, h.data, fun part hpart o hon hle => ?_⟩
  obtain ⟨cell, hcell, rfl⟩ := List.mem_map.mp (h.reached part hpart o hon hle)
  have hother : cell.1 ≠ offset := by
    have hbefore := hlast part hpart
    have hlt := hon.2.2
    omega
  rcases mem_cells hcell with ⟨q, hq, rfl⟩ | ⟨q, hq, rfl⟩
  · exact List.mem_map.mpr ⟨_, List.mem_append_left _ (List.mem_map_of_mem
      (List.mem_filter.mpr ⟨hq, bne_iff_ne.mpr hother⟩)), rfl⟩
  · exact List.mem_map.mpr ⟨_, List.mem_append_right _ (List.mem_map_of_mem hq), rfl⟩

end Filled

theorem fetchParts_grow (fuel : ℕ) (m : MultipartFetchManager) :
    m.fetchingParts.length ≤ (m.fetchParts fuel).fetchingParts.length := by
  obtain ⟨-, hgrow⟩ := fetchParts_induct
    (P := fun _ m' => m.fetchingParts.length ≤ m'.fetchingParts.length) (fun _ m' hle _ =>
      hle.trans (by simp [MultipartFetchManager.addPart])) fuel le_rfl
  exact hgrow

/-- While it is not over, some part is in flight. -/
theorem fetchParts_ne_nil (hgrid : Grid s E size m) (hfilled : Filled content s E m)
    (hpassed : ∀ part ∈ m.fetchedParts, part.offset ≠ m.committedOffset)
    (hend : m.committedOffset < E) :
    (m.fetchParts (m.parallelParts - m.fetchingParts.length)).fetchingParts ≠ [] := by
  by_cases hnone : m.fetchingParts = []
  · -- Nothing is fetched that waits for a part, so the next one is asked for.
    have hempty : m.cells = [] := by
      refine List.eq_nil_iff_forall_not_mem.mpr fun cell hcell => ?_
      rcases mem_cells hcell with ⟨part, hpart, rfl⟩ | ⟨part, hpart, rfl⟩
      · exact absurd (hnone ▸ hpart) List.not_mem_nil
      · obtain ⟨-, -, hle⟩ := hgrid.cells _ hcell
        have hne := hpassed part hpart
        simp only [] at hle
        have hon : OnGrid s part.offset m.committedOffset :=
          ⟨hgrid.committed.1, hgrid.committed.2.resolve_left (by omega), by omega⟩
        obtain ⟨cell, hcell, hat⟩ := List.mem_map.mp
          (hfilled.reached part hpart m.committedOffset hon le_rfl)
        rcases mem_cells hcell with ⟨q, hq, rfl⟩ | ⟨q, hq, rfl⟩
        · exact absurd (hnone ▸ hq) List.not_mem_nil
        · exact hpassed q hq hat
    have hnext : m.nextOffset = m.committedOffset := by
      rcases (nextOffset_spec m).2.2 with heq | ⟨cell, hcell, -⟩
      · exact heq
      · exact absurd (hempty ▸ hcell) List.not_mem_nil
    have hparallel : ∃ fuel, m.parallelParts - m.fetchingParts.length = fuel + 1 := by
      rw [hnone, hgrid.parallel]
      split_ifs
      · exact ⟨3, rfl⟩
      · exact ⟨0, rfl⟩
    obtain ⟨fuel, hfuel⟩ := hparallel
    have hgrow := fetchParts_grow fuel m.addPart
    have hlt : m.nextOffset < m.upperBound := by rw [hnext, hgrid.bound]; exact hend
    rw [hfuel, MultipartFetchManager.fetchParts, if_pos hlt]
    exact List.ne_nil_of_length_pos (lt_of_lt_of_le (by simp [MultipartFetchManager.addPart]) hgrow)
  · exact List.ne_nil_of_length_pos
      (lt_of_lt_of_le (List.length_pos_iff.mpr hnone) (fetchParts_grow _ m))

end Filled

/-! ## The end of the range -/

/-- Where the manager stops. -/
structure EndsAt (size : ℕ) (known : Bool) (s length E : ℕ) : Prop where
  of_known : known = true → (E = size ∧ size ≤ s + length) ∨ (s = 0 ∧ length < size ∧ E = length)
  of_unknown : known = false → E = s + length

section Range

variable {content : Bytes} {known : Bool} {s length E : ℕ}

theorem endsAt_init (fileReference : Bytes) (originInfo : Bool)
    (hfits : RangeFits content.length known s length)
    (hbound : (init fileReference originInfo (if known then some content.length else none) s
      length).upperBound = E) : EndsAt content.length known s length E := by
  cases known with
  | false => exact ⟨(nomatch ·), fun _ => hbound.symm⟩
  | true =>
    refine ⟨fun _ => ?_, (nomatch ·)⟩
    have hupper : min (s + min (s + length) content.length) content.length = E := hbound
    have hstart := hfits.start rfl
    omega

theorem limit_eq {size limit : ℕ} (hpos : 0 < size) (hle : size ≤ defaultPartSize)
    (hlimit : updatedLimit defaultPartSize size = some limit) : limit = limitFor size := by
  rw [defaultPartSize_eq] at hle hlimit
  have hmax := (limitFor_spec size).2.2.1
  rw [updatedLimit_eq 131072 hpos hle (by omega)] at hlimit
  exact (Option.some.inj hlimit).symm

/-- The answer is no longer than the part, and of a known size as long. -/
theorem length_answer (hfits : RangeFits content.length known s length)
    (hends : EndsAt content.length known s length E) {offset size : ℕ} (hgrid : OnGrid s E offset)
    (hsize : size = min (E - offset) defaultPartSize) :
    (fileBytes content offset (limitFor size)).length ≤ size ∧
      (known = true → (fileBytes content offset (limitFor size)).length = size) := by
  have hlength : (fileBytes content offset (limitFor size)).length =
      min (limitFor size) (content.length - offset) := by
    rw [fileBytes, List.length_take, List.length_drop]
  obtain ⟨hs, ⟨k, hk⟩, hlt⟩ := hgrid
  have hpos : 0 < size := by rw [hsize, defaultPartSize_eq]; omega
  have hle : size ≤ limitFor size := le_limitFor (by rw [hsize]; exact min_le_right _ _)
  rw [defaultPartSize_eq] at hk hsize
  rw [hlength]
  by_cases hfull : size = 131072
  · have hlimit : limitFor size = 131072 := by rw [hfull]; rfl
    refine ⟨by omega, fun hknown => ?_⟩
    have hknownEnd := hends.of_known hknown
    omega
  · -- the last part
    have hsmall : size = E - offset := by omega
    by_cases hfile : content.length ≤ s + length
    · refine ⟨?_, fun hknown => ?_⟩
      · rcases hknown : known with _ | _
        · have hend := hends.of_unknown hknown
          omega
        · have hend := hends.of_known hknown
          omega
      · have hend := hends.of_known hknown
        omega
    · have hend : E = s + length := by
        rcases hknown : known with _ | _
        · exact hends.of_unknown hknown
        · have hknownEnd := hends.of_known hknown
          omega
      have hmod : length % defaultPartSize = size := by
        rw [defaultPartSize_eq]
        omega
      have hlast := hfits.last.resolve_left hfile
      rw [hmod] at hlast
      have hlimit : limitFor size = size :=
        (limit_eq hpos (by rw [defaultPartSize_eq]; omega)
          (hlast.resolve_left (by omega))).symm
      omega

theorem prefix_of_filled {m : MultipartFetchManager} (hends : EndsAt content.length known s length E)
    (hfilled : Filled content s E m) : m.pieces <+: rangeBytes content s length := by
  have hend : E ≤ s + length := by
    rcases hknown : known with _ | _
    · exact (hends.of_unknown hknown).le
    · have hknownEnd := hends.of_known hknown
      omega
  have hbound := hfilled.bound
  rw [hfilled.pieces]
  exact List.take_prefix_take_left (by omega)

theorem whole_of_filled {m : MultipartFetchManager} (hends : EndsAt content.length known s length E)
    (hfilled : Filled content s E m) (hend : E ≤ m.committedOffset) :
    m.pieces = rangeBytes content s length := by
  have hbound := hfilled.bound
  rw [hfilled.pieces, rangeBytes, List.take_eq_take_iff, List.length_drop]
  rcases hknown : known with _ | _
  · have hunknownEnd := hends.of_unknown hknown
    omega
  · have hknownEnd := hends.of_known hknown
    omega

end Range

/-! ## Runs -/

/-- The manager when it is over, with what it delivered. -/
structure Over (content : Bytes) (location length : ℕ) (m : MultipartFetchManager) : Prop where
  ended : Ended m
  isPrefix : m.pieces <+: rangeBytes content location length
  whole : m.outcome = some .completed → m.pieces = rangeBytes content location length
  intact : m.outcome ≠ some .aborted

/-- The manager in a run: it fills the range, with some part in flight since it is started, or it is
over. -/
def Filling (content : Bytes) (known : Bool) (s length E : ℕ) (started : Prop)
    (m : MultipartFetchManager) : Prop :=
  (Grid s E (if known then some content.length else none) m ∧ Filled content s E m ∧
    (started → m.fetchingParts ≠ [])) ∨ Over content s length m

section Runs

variable {content : Bytes} {known : Bool} {s length E : ℕ} {size : Option ℕ}
  {m m' : MultipartFetchManager} {sha256 : Bytes → Bytes}
  {aesCtrDecrypt : Bytes → Bytes → Bytes → Bytes}

/-- Over without having completed. -/
theorem over_of_filled (hends : EndsAt content.length known s length E)
    (hfilled : Filled content s E m) (hterminated : m'.terminated = true)
    (hfetching : m'.fetchingParts = []) (hrequest : m'.partHashesRequest = none)
    (htaken : m'.taken = m.taken) (houtcome : m'.outcome = some .failed ∨ m'.outcome = none) :
    Over content s length m' where
  ended := ⟨hterminated, hfetching, hrequest⟩
  isPrefix := pieces_congr htaken ▸ prefix_of_filled hends hfilled
  whole hcompleted := by rcases houtcome with h | h <;> rw [h] at hcompleted <;> cases hcompleted
  intact haborted := by rcases houtcome with h | h <;> rw [h] at haborted <;> cases haborted

theorem filling_checkState (hends : EndsAt content.length known s length E)
    (hgrid : Grid s E (if known then some content.length else none) m)
    (hfilled : Filled content s E m) {started : Prop} :
    Filling content known s length E started (m.checkState sha256) := by
  obtain ⟨m₁, htaken, hgrid₁, hpassed, hcheck⟩ := @Grid.checkState s E _ m sha256 hgrid
  obtain ⟨hmem, hnodup, -⟩ := hgrid.sortedParts
  have hfilled₁ : Filled content s E m₁ := by
    rw [htaken]
    exact (takeParts_induct
      (P := fun m' => Grid s E (if known then some content.length else none) m' ∧
        Filled content s E m')
      (fun m' h' => h'.1.hashes) (fun m' part h' hpart hat =>
        ⟨h'.1.take hpart hat, h'.2.take h'.1 hpart hat⟩) m.sortedParts ⟨hgrid, hfilled⟩ hmem
      hnodup).2
  rw [hcheck]
  split_ifs with hend
  · have hcells : m₁.complete.cells = [] := hgrid₁.cells_nil hend
    have hwhole := whole_of_filled hends hfilled₁ hend
    have hprefix := prefix_of_filled hends hfilled₁
    refine .inr ⟨⟨rfl, ?_, hgrid₁.request⟩, hprefix, fun _ => hwhole, fun h => nomatch h⟩
    exact List.map_eq_nil_iff.mp (List.append_eq_nil_iff.mp hcells).1
  · exact .inl ⟨hgrid₁.fetchParts hpassed, hfilled₁.fetchParts _, fun _ =>
      fetchParts_ne_nil hgrid₁ hfilled₁ hpassed (Nat.lt_of_not_le hend)⟩

theorem incoming_asked {offset : ℕ} {next : Answer} {pending : MultipartPendingPart} {data : Bytes}
    (hincoming : incoming aesCtrDecrypt m (.answer offset next) = some (pending, data)) :
    m.asked offset = some pending := by
  cases next with
  | file bytes =>
    obtain ⟨part, hasked, hpart⟩ := Option.bind_eq_some_iff.mp hincoming
    obtain ⟨-, -, hpair⟩ := Option.map_eq_some_iff.mp hpart
    exact (Prod.mk.inj hpair).1 ▸ hasked
  | cdnFile bytes =>
    obtain ⟨part, hasked, hpart⟩ := Option.bind_eq_some_iff.mp hincoming
    obtain ⟨request, -, hpair⟩ := Option.bind_eq_some_iff.mp hpart
    cases request with
    | cdn fileData => exact (Prod.mk.inj (Option.some.inj hpair)).1 ▸ hasked
    | location reference => cases hpair
  | _ => cases hincoming

/-- The bytes that an event brings are those of the file. -/
theorem served_incoming {e : Event} (hserved : Served content m e)
    {pending : MultipartPendingPart} {data : Bytes}
    (hincoming : incoming aesCtrDecrypt m e = some (pending, data)) :
    ∃ limit, updatedLimit defaultPartSize pending.size = some limit ∧
      data = fileBytes content pending.offset limit := by
  cases e with
  | answer offset next =>
    have hasked := incoming_asked hincoming
    obtain ⟨limit, hlimit, rfl⟩ := hserved offset next pending rfl hasked
    obtain ⟨part, -, hpart⟩ := Option.bind_eq_some_iff.mp hincoming
    obtain ⟨-, -, hpair⟩ := Option.map_eq_some_iff.mp hpart
    refine ⟨limit, hlimit, ?_⟩
    rw [(mem_of_asked hasked).2]
    exact (Prod.mk.inj hpair).2.symm
  | _ => cases hincoming

theorem Over.step (h : Over content s length m) (e : Event) :
    Over content s length (m.step sha256 aesCtrDecrypt e) := by
  obtain ⟨hended, -, houtcome, htaken⟩ := @Ended.step sha256 aesCtrDecrypt m h.ended e
  refine ⟨hended, ?_, ?_, ?_⟩
  · rw [pieces_congr htaken]
    exact h.isPrefix
  · rw [pieces_congr htaken, houtcome]
    exact h.whole
  · rw [houtcome]
    exact h.intact

/-- A part with the bytes that the server answers with. -/
theorem filling_partData (hfits : RangeFits content.length known s length)
    (hends : EndsAt content.length known s length E)
    (hgrid : Grid s E (if known then some content.length else none) m)
    (hfilled : Filled content s E m) {pending : MultipartPendingPart} {limit : ℕ}
    (hpending : pending ∈ m.fetchingParts)
    (hlimit : updatedLimit defaultPartSize pending.size = some limit)
    (hreached : Reached s m pending.offset) (fromCdn : Bool) {started : Prop} :
    Filling content known s length E started
      (m.partData sha256 pending (fileBytes content pending.offset limit) fromCdn) := by
  obtain ⟨hon, hsize, -⟩ := hgrid.cells _ (mem_cells_fetching hpending)
  have hpos := hgrid.cell_pos (mem_cells_fetching hpending)
  simp only [] at hon hsize hpos
  have hmax : pending.size ≤ defaultPartSize := by
    rw [hsize]
    exact min_le_right _ _
  obtain rfl := limit_eq hpos hmax hlimit
  obtain ⟨hle, hfull⟩ := length_answer hfits hends hon hsize
  generalize hdata : fileBytes content pending.offset (limitFor pending.size) = data at hle hfull ⊢
  by_cases hlength : data.length = pending.size
  · rw [hgrid.partData_full hlength]
    refine filling_checkState hends (hgrid.storePart hpending hlength fromCdn)
      (hfilled.storePart ?_ hreached fromCdn)
    rw [← hdata]
    exact fileBytes_length content pending.offset _
  · -- The answer ends where the file does, which is not known before.
    have hunknown : known = false := by
      cases hknown : known with
      | false => rfl
      | true => exact absurd (hfull hknown) hlength
    subst hunknown
    have hnone : (if false then some content.length else none) = (none : Option ℕ) := rfl
    have hat : pending.offset = m.committedOffset :=
      hgrid.single hnone _ (mem_cells_fetching hpending)
    obtain ⟨m', hm', hterminated, houtcome, hfetching, -, hrequest, htaken⟩ :=
      @Grid.partData_short s E _ m sha256 hgrid pending data hpending hnone
        (lt_of_le_of_ne hle hlength) fromCdn
    have hshort : data.length < limitFor pending.size :=
      lt_of_lt_of_le (lt_of_le_of_ne hle hlength)
        (le_limitFor (by rw [defaultPartSize_eq] at hmax; exact hmax))
    have hcount : data.length = min (limitFor pending.size) (content.length - pending.offset) := by
      rw [← hdata, fileBytes, List.length_take, List.length_drop]
    have hpieces : m'.pieces = m.pieces ++ data := by
      rw [MultipartFetchManager.pieces, htaken, List.filter_append, List.flatMap_append]
      exact congrArg (m.pieces ++ ·) (List.append_nil data)
    have hend := hends.of_unknown rfl
    have hwhole : m'.pieces = rangeBytes content s length := by
      rw [hpieces, hfilled.pieces, ← hdata, hat, take_append_fileBytes hgrid.committed.1,
        rangeBytes, List.take_eq_take_iff, List.length_drop]
      omega
    rw [hm']
    exact .inr ⟨⟨hterminated, hfetching, hrequest⟩, hwhole ▸ List.prefix_rfl, fun _ => hwhole,
      by rw [houtcome]; exact fun h => nomatch h⟩

theorem fetchingParts_same (hsame : Same m m') (hfetching : m.fetchingParts ≠ []) :
    m'.fetchingParts ≠ [] := by
  have hcore : m'.fetchingParts.map unasked = m.fetchingParts.map unasked :=
    congrArg (·.fetchingParts) hsame
  intro hnil
  rw [hnil] at hcore
  exact hfetching (List.map_eq_nil_iff.mp hcore.symm)

theorem Filling.step (hfits : RangeFits content.length known s length)
    (hends : EndsAt content.length known s length E) {started : Prop}
    (h : Filling content known s length E started m) {e : Event} (hserved : Served content m e)
    (hturn : InTurn aesCtrDecrypt s m e) :
    Filling content known s length E (started ∨ e = .start) (m.step sha256 aesCtrDecrypt e) := by
  rcases h with ⟨hgrid, hfilled, halive⟩ | hover
  · by_cases hstart : e = .start
    · subst hstart
      exact filling_checkState hends hgrid hfilled
    rcases step_cases sha256 aesCtrDecrypt hgrid.request e with hsame | ⟨m₁, hsame, heq⟩ |
      ⟨m₁, hsame, heq, -⟩ | ⟨pending, data, fromCdn, hpending, hincoming, heq⟩ |
      ⟨offset, hfails, heq⟩ | ⟨-, offset, pending, next, rfl, hasked, hnot⟩ | ⟨heq, -⟩
    · exact .inl ⟨hgrid.same hsame, hfilled.same hsame, fun h =>
        fetchingParts_same hsame (halive (h.resolve_right hstart))⟩
    · rw [heq]
      exact filling_checkState hends (hgrid.same hsame) (hfilled.same hsame)
    · rw [heq, (hgrid.same hsame).fail_eq]
      exact .inr (over_of_filled hends (hfilled.same hsame) rfl rfl (hgrid.same hsame).request rfl
        (.inl rfl))
    · obtain ⟨limit, hlimit, rfl⟩ := served_incoming hserved hincoming
      rw [heq]
      exact filling_partData hfits hends hgrid hfilled hpending hlimit
        (hturn.arrives pending _ hincoming) fromCdn
    · rw [heq]
      unfold partError
      simp only []
      split_ifs with hretried
      · have hremoved := hgrid.removePart offset m.retriedPartOffsets
        rw [show (m.removePart offset).fail = _ from hremoved.fail_eq]
        exact .inr (over_of_filled hends hfilled rfl rfl hremoved.request rfl (.inl rfl))
      · exact filling_checkState hends (hgrid.removePart offset _)
          (hfilled.removePart (hturn.fails offset hfails hretried) _)
    · obtain ⟨limit, -, hnext⟩ := hserved offset next pending rfl hasked
      exact absurd hnext (hnot _)
    · rw [heq]
      exact .inr (over_of_filled hends hfilled rfl rfl rfl rfl (.inr hgrid.outcome))
  · exact .inr (hover.step e)

theorem Filling.delivers (hends : EndsAt content.length known s length E) {started : Prop}
    (h : Filling content known s length E started m) :
    Delivers sha256 aesCtrDecrypt content s length m ∧
      (started → m.terminated = false → m.fetchingParts ≠ []) := by
  rcases h with ⟨hgrid, hfilled, halive⟩ | hover
  · refine ⟨⟨prefix_of_filled hends hfilled, ?_, ?_, ?_⟩, fun hstarted _ => halive hstarted⟩
    · rw [hgrid.outcome]
      exact fun h => nomatch h
    · exact fun h => absurd hgrid.outcome h
    · rw [hgrid.outcome]
      exact fun h => nomatch h
  · refine ⟨⟨hover.isPrefix, hover.whole, fun _ e => ?_, hover.intact⟩, fun _ hrunning => ?_⟩
    · obtain ⟨-, -, houtcome, htaken⟩ := @Ended.step sha256 aesCtrDecrypt m hover.ended e
      exact ⟨houtcome, pieces_congr htaken⟩
    · rw [hover.ended.terminated] at hrunning
      cases hrunning

theorem filling_init (fileReference : Bytes) (originInfo : Bool)
    (hbound : (init fileReference originInfo size s length).upperBound = E)
    (hsize : size = if known then some content.length else none) :
    Filling content known s length E False (init fileReference originInfo size s length) := by
  refine .inl ⟨hsize ▸ grid_init fileReference originInfo hbound, ⟨?_, le_max_left s E, ?_, ?_⟩,
    False.elim⟩
  · have hzero : (init fileReference originInfo size s length).committedOffset - s = 0 :=
      Nat.sub_self s
    rw [hzero]
    rfl
  · exact fun _ hpart => absurd hpart List.not_mem_nil
  · exact fun _ hpart => absurd hpart List.not_mem_nil

variable (sha256 aesCtrDecrypt)

theorem filling_run {fileReference : Bytes} {originInfo : Bool}
    (hfits : RangeFits content.length known s length)
    (hends : EndsAt content.length known s length E)
    (hinit : Filling content known s length E False
      (init fileReference originInfo size s length)) (events : List Event) :
    Run.AllSteps (MultipartFetchManager.step sha256 aesCtrDecrypt)
      (fun m e => Served content m e ∧ InTurn aesCtrDecrypt s m e)
      (init fileReference originInfo size s length) events →
    Filling content known s length E (.start ∈ events)
      (Run.run (MultipartFetchManager.step sha256 aesCtrDecrypt)
        (init fileReference originInfo size s length) events) := by
  -- The last event is the one that the step lemma is about.
  induction events using List.reverseRecOn with
  | nil =>
    intro _
    simpa using hinit
  | append_singleton events e ih =>
    intro hsteps
    obtain ⟨hbefore, ⟨hserved, hturn⟩, -⟩ := (Run.allSteps_append _ _ events [e] _).mp hsteps
    have hstep : Filling content known s length E (.start ∈ events ∨ e = .start)
        (MultipartFetchManager.step sha256 aesCtrDecrypt _ e) :=
      (ih hbefore).step hfits hends hserved hturn
    rw [Run.run_append]
    simpa [List.mem_append, eq_comm] using hstep

/-- From a server that answers with the bytes of the file, and with the parts in turn, the pieces
are at any time the first bytes of a range that fits, and all of them when it is complete. -/
theorem deliversRange_runs (fileReference : Bytes) (originInfo : Bool) (content : Bytes)
    (known : Bool) (location length : ℕ) (hfits : RangeFits content.length known location length)
    (events : List Event)
    (hsteps : Run.AllSteps (MultipartFetchManager.step sha256 aesCtrDecrypt)
      (fun m e => Served content m e ∧ InTurn aesCtrDecrypt location m e)
      (init fileReference originInfo (if known then some content.length else none) location length)
      events) :
    DeliversRange sha256 aesCtrDecrypt fileReference originInfo content known location length
      events := by
  rintro past rest rfl
  have hends := endsAt_init fileReference originInfo hfits rfl
  have hpast := ((Run.allSteps_append _ _ past rest _).mp hsteps).1
  exact (filling_run sha256 aesCtrDecrypt hfits hends
    (filling_init fileReference originInfo rfl rfl) past hpast).delivers hends

end Runs

/-! ## Two runs -/

theorem updatedLimit_small {size : ℕ} (hpos : 0 < size) (hle : size ≤ 4096) :
    updatedLimit defaultPartSize size = some 4096 := by
  have hlimit : limitFor size = 4096 := if_pos hle
  rw [defaultPartSize_eq, updatedLimit_eq 131072 hpos (by omega) (by omega), hlimit]

theorem not_fails {m : MultipartFetchManager} {e : Event} {offset : ℕ} (htimeout : e ≠ .timeout offset)
    (herror : ∀ fileReference, e ≠ .error offset fileReference) : ¬ Fails m e offset := by
  rintro ⟨-, h | h | ⟨-, h, -⟩⟩
  · exact htimeout h
  · exact herror _ h
  · exact herror _ h

/-- An event that brings no bytes and fails no part. -/
theorem quiet_event {content : Bytes} {aesCtrDecrypt : Bytes → Bytes → Bytes → Bytes} {s : ℕ}
    {m : MultipartFetchManager} {e : Event} (hanswer : ∀ offset next, e ≠ .answer offset next)
    (hfails : ∀ offset, ¬ Fails m e offset) : Served content m e ∧ InTurn aesCtrDecrypt s m e := by
  refine ⟨fun offset next part h => absurd h (hanswer offset next), fun pending data h => ?_,
    fun offset h => absurd h (hfails offset)⟩
  cases e with
  | answer offset next => exact absurd rfl (hanswer offset next)
  | _ => cases h

/-- An answer to the request for the first part of a file. -/
theorem first_answer {content : Bytes} {aesCtrDecrypt : Bytes → Bytes → Bytes → Bytes} {s size : ℕ}
    {m : MultipartFetchManager} (hsize : (m.asked s).map (·.size) = some size) (hpos : 0 < size)
    (hle : size ≤ 4096) :
    Served content m (.answer s (.file (fileBytes content s 4096))) ∧
      InTurn aesCtrDecrypt s m (.answer s (.file (fileBytes content s 4096))) := by
  refine ⟨fun offset next part h hasked => ?_, fun pending data h => ?_, fun offset h => ?_⟩
  · obtain ⟨rfl, rfl⟩ := Event.answer.inj h
    rw [hasked] at hsize
    obtain rfl := Option.some.inj hsize
    exact ⟨4096, updatedLimit_small hpos hle, rfl⟩
  · rw [(mem_of_asked (incoming_asked h)).2]
    rintro o ⟨hs, -, hlt⟩
    omega
  · exact absurd h (not_fails (fun h => nomatch h) (fun _ h => nomatch h))

/-- A file of three bytes, all of it. -/
theorem deliversRange_runs_small :
    DeliversRange id (fun bytes _ _ => bytes) [5] false [10, 11, 12] true 0 INT32_MAX
      [.start, .worker, .answer 0 (.file [10, 11, 12])] :=
  deliversRange_runs id (fun bytes _ _ => bytes) [5] false [10, 11, 12] true 0 INT32_MAX
    ⟨fun _ => .inl rfl, .inl (by decide)⟩ [.start, .worker, .answer 0 (.file [10, 11, 12])]
    ⟨quiet_event (fun _ _ h => nomatch h) fun _ =>
        not_fails (fun h => nomatch h) (fun _ h => nomatch h),
      quiet_event (fun _ _ h => nomatch h) fun _ =>
        not_fails (fun h => nomatch h) (fun _ h => nomatch h),
      @first_answer [10, 11, 12] _ 0 3 _ (by decide +kernel) (by decide) (by decide), trivial⟩

/-- One byte of three is asked for, and two are handed on. -/
theorem bounded_range_excess :
    Run.AllSteps (MultipartFetchManager.step id fun bytes _ _ => bytes) (Served [10, 11, 12])
        (init [5] false (some 3) 1 1) [.start, .worker, .answer 1 (.file [11, 12])] ∧
      (Run.run (MultipartFetchManager.step id fun bytes _ _ => bytes)
        (init [5] false (some 3) 1 1) [.start, .worker, .answer 1 (.file [11, 12])]).pieces =
          [11, 12] ∧
      ¬ DeliversRange id (fun bytes _ _ => bytes) [5] false [10, 11, 12] true 1 1
        [.start, .worker, .answer 1 (.file [11, 12])] := by
  have hpieces : (Run.run (MultipartFetchManager.step id fun bytes _ _ => bytes)
      (init [5] false (some 3) 1 1) [.start, .worker, .answer 1 (.file [11, 12])]).pieces =
        [11, 12] := by
    decide +kernel
  refine ⟨⟨(fun _ _ _ h => nomatch h), (fun _ _ _ h => nomatch h),
    (@first_answer [10, 11, 12] (fun bytes _ _ => bytes) 1 2 _ (by decide +kernel) (by decide)
      (by decide)).1, trivial⟩, hpieces, fun hdelivers => ?_⟩
  have hprefix := (hdelivers _ [] (List.append_nil _).symm).1.isPrefix
  rw [if_pos rfl] at hprefix
  exact absurd (hpieces ▸ hprefix) (by decide)

/-- The first of two parts fails while the second one is in flight, and is not asked for again. -/
theorem failed_part_stalls :
    let m := Run.run (MultipartFetchManager.step id fun bytes _ _ => bytes)
      (init [5] false (some 131073) 0 INT32_MAX)
      [.start, .worker, .error 0 false, .answer 131072 (.file [0])]
    m.terminated = false ∧ m.fetchingParts.length = 0 ∧ m.pieces = [] := by
  decide +kernel

end Onegram.MultipartFetch
