import Onegram.MultipartFetch
import Onegram.Proofs.MultipartFetch

/-!
# Parts on a grid

Every part begins a whole number of parts behind the start of the range and ends with its cell or
with the range. So two parts never overlap, and where the start is a multiple of the size of a part
what is asked for is what the server takes. A start that is not one is carried on by every part.
-/

namespace Onegram.MultipartFetch

open MultipartFetchManager

/-! ## The limit -/

/-- The limit for a size, which is a power of two of pages. -/
def limitFor (size : ℕ) : ℕ :=
  if size ≤ 4096 then 4096
  else if size ≤ 8192 then 8192
  else if size ≤ 16384 then 16384
  else if size ≤ 32768 then 32768
  else if size ≤ 65536 then 65536
  else 131072

theorem limitFor_spec (size : ℕ) :
    limitFor size % 4096 = 0 ∧ 1048576 % limitFor size = 0 ∧ limitFor size ≤ 131072
      ∧ 0 < limitFor size := by
  unfold limitFor
  split_ifs <;> decide

theorem le_limitFor {size : ℕ} (h : size ≤ 131072) : size ≤ limitFor size := by
  unfold limitFor
  split_ifs <;> omega

/-- A limit the loop stops at is its own limit. -/
theorem limitFor_eq_self {size : ℕ} (hpos : 0 < size) (hle : size ≤ 131072)
    (hpage : size % 4096 = 0) (hdvd : 1048576 % size = 0) : limitFor size = size := by
  obtain ⟨j, rfl⟩ := Nat.dvd_of_mod_eq_zero hpage
  have hall : ∀ j ≤ 32, 0 < j → 256 % j = 0 → limitFor (4096 * j) = 4096 * j := by decide
  refine hall j (by omega) (by omega) ?_
  have hmod : 1048576 % (4096 * j) = 4096 * (256 % j) := Nat.mul_mod_mul_left 4096 256 j
  omega

theorem limitFor_succ {size : ℕ} (h : size < limitFor size) :
    limitFor (size + 1) = limitFor size := by
  unfold limitFor at h ⊢
  split_ifs at h ⊢ <;> omega

/-- The loop ends, at the limit for the size. -/
theorem updatedLimit_eq : ∀ (fuel : ℕ) {size : ℕ}, 0 < size → size ≤ 131072 →
    limitFor size - size < fuel → updatedLimit fuel size = some (limitFor size)
  | 0, _, _, _, h => absurd h (Nat.not_lt_zero _)
  | fuel + 1, size, hpos, hle, h => by
    rw [updatedLimit]
    by_cases hstop : size % 4096 = 0 ∧ 1048576 % size = 0
    · rw [if_neg (by simp [hstop]), limitFor_eq_self hpos hle hstop.1 hstop.2]
    · have hne : limitFor size ≠ size := by
        intro heq
        have hspec := limitFor_spec size
        rw [heq] at hspec
        exact hstop ⟨hspec.1, hspec.2.1⟩
      have hlt : size < limitFor size := lt_of_le_of_ne (le_limitFor hle) hne.symm
      have hmax := (limitFor_spec size).2.2.1
      rw [if_pos (by tauto), updatedLimit_eq fuel (by omega) (by omega)
        (by rw [limitFor_succ hlt]; omega), limitFor_succ hlt]

/-! ## Steps -/

/-- Offset and size of the parts in flight and of those fetched. -/
def MultipartFetchManager.cells (m : MultipartFetchManager) : List (ℕ × ℕ) :=
  (m.fetchingParts.map fun part => (part.offset, part.size))
    ++ m.fetchedParts.map fun part => (part.offset, part.data.length)

def unasked (part : MultipartPendingPart) : MultipartPendingPart := { part with asked := false }

/-- The manager without what the parts wait for and where the requests go. -/
def MultipartFetchManager.core (m : MultipartFetchManager) : MultipartFetchManager :=
  { m with
    fetchingParts := m.fetchingParts.map unasked
    requestData := none
    nextRequestData := none
    switchedToCdn := false
    reuploadedToCdn := false
    updatedFileReference := false
    reuploadRequest := none
    fileReferenceRequest := false
    ownHashes := [] }

def Same (m m' : MultipartFetchManager) : Prop := m'.core = m.core

namespace Same

variable {m m' m'' : MultipartFetchManager}

theorem refl (m : MultipartFetchManager) : Same m m := rfl

theorem trans (h : Same m m') (h' : Same m' m'') : Same m m'' := Eq.trans h' h

theorem cells (h : Same m m') : m'.cells = m.cells := by
  have hcore : ∀ m : MultipartFetchManager, m.core.cells = m.cells := by
    intro m
    show (m.fetchingParts.map _).map _ ++ _ = _
    rw [List.map_map]
    rfl
  rw [← hcore m', ← hcore m, show m'.core = m.core from h]

/-- A part that waits for other things is the same part. -/
theorem of_asked (m : MultipartFetchManager) (wait : MultipartPendingPart → MultipartPendingPart)
    (hwait : ∀ part, unasked (wait part) = unasked part) :
    Same m { m with fetchingParts := m.fetchingParts.map wait } := by
  have hmap : (m.fetchingParts.map wait).map unasked = m.fetchingParts.map unasked := by
    rw [List.map_map]
    exact List.map_congr_left fun part _ => hwait part
  show { m.core with fetchingParts := (m.fetchingParts.map wait).map unasked } = m.core
  rw [hmap]
  rfl

theorem never (m : MultipartFetchManager) (offset : ℕ) : Same m (m.never offset) := by
  refine of_asked m _ fun part => ?_
  split_ifs <;> rfl

theorem switchToCdn (m : MultipartFetchManager) (fileData : TGCdnFileData) :
    Same m (m.switchToCdn fileData) := by
  unfold MultipartFetchManager.switchToCdn
  split <;> rfl

theorem reuploadToCdn (m : MultipartFetchManager) (fileData : TGCdnFileData) :
    Same m (m.reuploadToCdn fileData) := by
  unfold MultipartFetchManager.reuploadToCdn
  split <;> rfl

end Same

section Steps

variable (sha256 : Bytes → Bytes) (aesCtrDecrypt : Bytes → Bytes → Bytes → Bytes)

/-- The part whose bytes an event brings, and the bytes. -/
def incoming (m : MultipartFetchManager) : Event → Option (MultipartPendingPart × Bytes)
  | .answer offset (.file bytes) =>
    (m.asked offset).bind fun pending => m.requestData.map fun _ => (pending, bytes)
  | .answer offset (.cdnFile bytes) =>
    (m.asked offset).bind fun pending => m.requestData.bind fun data =>
      match data with
      | .cdn fileData =>
        some (pending, decryptPart aesCtrDecrypt fileData pending.offset bytes)
      | .location _ => none
  | _ => none

/-- The event is an error or a timeout that ends the fetch of a part. -/
def Fails (m : MultipartFetchManager) (e : Event) (offset : ℕ) : Prop :=
  (∃ part ∈ m.fetchingParts, part.offset = offset)
    ∧ (e = .timeout offset ∨ e = .error offset false
      ∨ ∃ fileData, e = .error offset true ∧ m.requestData = some (.cdn fileData))

/-- The file reference is out of date, and no other one is to be had. -/
def NoReference (m : MultipartFetchManager) (e : Event) : Prop :=
  (∃ offset, e = .error offset true ∧ m.originInfo = false) ∨ e = .originInfo []
    ∨ e = .originInfoFailed

theorem mem_of_asked {m : MultipartFetchManager} {offset : ℕ} {pending : MultipartPendingPart}
    (h : m.asked offset = some pending) :
    pending ∈ m.fetchingParts ∧ pending.offset = offset := by
  have hfound := List.find?_some h
  simp only [Bool.and_eq_true, decide_eq_true_eq] at hfound
  exact ⟨List.mem_of_find?_eq_some h, hfound.1⟩

theorem answer_cases (m : MultipartFetchManager) (offset : ℕ) (next : Answer) :
    Same m (m.step sha256 aesCtrDecrypt (.answer offset next))
      ∨ (∃ pending data fromCdn, pending ∈ m.fetchingParts
        ∧ incoming aesCtrDecrypt m (.answer offset next) = some (pending, data)
        ∧ m.step sha256 aesCtrDecrypt (.answer offset next)
          = m.partData sha256 pending data fromCdn)
      ∨ (m.step sha256 aesCtrDecrypt (.answer offset next) = m.abort
        ∧ ∃ pending, m.asked offset = some pending ∧ ∀ bytes, next ≠ .file bytes) := by
  simp only [MultipartFetchManager.step, answer]
  rcases hasked : m.asked offset with _ | pending
  · exact .inl (.refl m)
  rcases hdata : m.requestData with _ | data
  · exact .inl (.refl m)
  have hpart := (mem_of_asked hasked).1
  cases next with
  | file bytes =>
    refine .inr (.inl ⟨pending, bytes, data.isCdn, hpart, ?_, rfl⟩)
    simp [incoming, hasked, hdata]
  | fileCdnRedirect fileData fileHashes =>
    left
    refine Same.trans ?_ (.switchToCdn _ fileData)
    exact (Same.never m pending.offset).trans rfl
  | cdnFile bytes =>
    cases data with
    | cdn fileData =>
      refine .inr (.inl ⟨pending, _, true, hpart, ?_, rfl⟩)
      simp [incoming, hasked, hdata]
    | location reference =>
      exact .inr (.inr ⟨rfl, pending, rfl, fun _ h => by cases h⟩)
  | cdnFileReuploadNeeded requestToken =>
    cases data with
    | cdn fileData =>
      exact .inl ((Same.never m pending.offset).trans (.reuploadToCdn _ fileData))
    | location reference =>
      simp only [receive]
      split_ifs
      · exact .inl (.never m pending.offset)
      · exact .inr (.inr ⟨rfl, pending, rfl, fun _ h => by cases h⟩)
  | other => exact .inl (.never m pending.offset)

/-- All that an event can do. -/
theorem step_cases {m : MultipartFetchManager} (hrequest : m.partHashesRequest = none) (e : Event) :
    Same m (m.step sha256 aesCtrDecrypt e)
      ∨ (∃ m₁, Same m m₁ ∧ m.step sha256 aesCtrDecrypt e = m₁.checkState sha256)
      ∨ (∃ m₁, Same m m₁ ∧ m.step sha256 aesCtrDecrypt e = m₁.fail ∧ NoReference m e)
      ∨ (∃ pending data fromCdn, pending ∈ m.fetchingParts
        ∧ incoming aesCtrDecrypt m e = some (pending, data)
        ∧ m.step sha256 aesCtrDecrypt e = m.partData sha256 pending data fromCdn)
      ∨ (∃ offset, Fails m e offset
        ∧ m.step sha256 aesCtrDecrypt e = m.partError sha256 offset)
      ∨ (m.step sha256 aesCtrDecrypt e = m.abort
        ∧ ∃ offset pending next, e = .answer offset next ∧ m.asked offset = some pending
          ∧ ∀ bytes, next ≠ .file bytes)
      ∨ (m.step sha256 aesCtrDecrypt e = m.cancel ∧ e = .cancel) := by
  cases e with
  | start => exact .inr (.inl ⟨m, .refl m, rfl⟩)
  | worker =>
    left
    simp only [MultipartFetchManager.step, worker]
    split
    · exact .refl m
    · exact (Same.of_asked m (fun part => { part with asked := true }) fun _ => rfl).trans rfl
  | answer offset next =>
    rcases answer_cases sha256 aesCtrDecrypt m offset next with
      heq | hdata | ⟨heq, pending, hasked, hnot⟩
    · exact .inl heq
    · exact .inr (.inr (.inr (.inl hdata)))
    · exact .inr (.inr (.inr (.inr (.inr (.inl
        ⟨heq, offset, pending, next, rfl, hasked, hnot⟩)))))
  | error offset fileReference =>
    simp only [MultipartFetchManager.step, error]
    rcases hasked : m.asked offset with _ | pending
    · exact .inl (.refl m)
    · have hpart := mem_of_asked hasked
      have hfound : ∃ part ∈ m.fetchingParts, part.offset = offset := ⟨pending, hpart⟩
      rcases hdata : m.requestData with _ | (reference | fileData)
      · exact .inl (.refl m)
      · cases fileReference with
        | false => exact .inr (.inr (.inr (.inr (.inl ⟨offset, ⟨hfound, .inr (.inl rfl)⟩, rfl⟩))))
        | true =>
          simp only [if_true, updateFileReference]
          split_ifs
          · exact .inl (.never m offset)
          · exact .inl ((Same.never m offset).trans rfl)
          · rename_i horigin
            exact .inr (.inr (.inl ⟨_, .never m offset, rfl, .inl
              ⟨offset, rfl, Bool.not_eq_true _ ▸ horigin⟩⟩))
      · refine .inr (.inr (.inr (.inr (.inl ⟨offset, ⟨hfound, ?_⟩, rfl⟩))))
        cases fileReference with
        | false => exact .inr (.inl rfl)
        | true => exact .inr (.inr ⟨fileData, rfl, hdata⟩)
  | timeout offset =>
    simp only [MultipartFetchManager.step, timeout]
    split_ifs with hany
    · obtain ⟨part, hmem, hoffset⟩ := List.any_eq_true.mp hany
      exact .inr (.inr (.inr (.inr (.inl
        ⟨offset, ⟨⟨part, hmem, of_decide_eq_true hoffset⟩, .inl rfl⟩, rfl⟩))))
    · exact .inl (.refl m)
  | reuploaded =>
    left
    simp only [MultipartFetchManager.step, reuploaded]
    split
    · exact .refl m
    · rfl
  | originInfo fileReference =>
    simp only [MultipartFetchManager.step, originInfoUpdated]
    split_ifs with _ hempty
    · refine .inr (.inr (.inl ⟨_, ?_, rfl, .inr (.inl ?_)⟩))
      · rfl
      · rw [List.isEmpty_iff.mp hempty]
    · refine .inr (.inl ⟨_, ?_, rfl⟩)
      rfl
    · exact .inl (.refl m)
  | originInfoFailed =>
    simp only [MultipartFetchManager.step, originInfoFailed]
    split_ifs
    · refine .inr (.inr (.inl ⟨_, ?_, rfl, .inr (.inr rfl)⟩))
      rfl
    · exact .inl (.refl m)
  | cdnFileHashes hashes =>
    -- No request for hashes is there to be answered.
    left
    simp only [MultipartFetchManager.step, cdnFileHashes, hrequest]
    exact .refl m
  | cancel => exact .inr (.inr (.inr (.inr (.inr (.inr ⟨rfl, rfl⟩)))))

end Steps

/-! ## The grid -/

theorem defaultPartSize_eq : defaultPartSize = 131072 := rfl

/-- A cell of the range from `s` to `E` begins here. -/
def OnGrid (s E offset : ℕ) : Prop := s ≤ offset ∧ defaultPartSize ∣ offset - s ∧ offset < E

/-- The manager while it runs: the parts in flight and those fetched are cells of the grid. -/
structure Grid (s E : ℕ) (size : Option ℕ) (m : MultipartFetchManager) : Prop where
  running : m.terminated = false
  outcome : m.outcome = none
  hashes : m.cdnFilePartHashes = none
  request : m.partHashesRequest = none
  known : m.completeSize = size
  bound : m.upperBound = E
  parallel : m.parallelParts = if size.isSome then 4 else 1
  committed : s ≤ m.committedOffset
    ∧ (E ≤ m.committedOffset ∨ defaultPartSize ∣ m.committedOffset - s)
  cells : ∀ cell ∈ m.cells, OnGrid s E cell.1 ∧ cell.2 = min (E - cell.1) defaultPartSize
    ∧ m.committedOffset ≤ cell.1
  nodup : (m.cells.map (·.1)).Nodup
  single : size = none → ∀ cell ∈ m.cells, cell.1 = m.committedOffset

section Grid

variable {s E : ℕ} {size : Option ℕ} {m m' : MultipartFetchManager} {sha256 : Bytes → Bytes}

theorem foldl_max_spec : ∀ (l : List ℕ) (b : ℕ), b ≤ l.foldl max b
    ∧ (∀ x ∈ l, x ≤ l.foldl max b) ∧ (l.foldl max b = b ∨ l.foldl max b ∈ l)
  | [], b => by simp
  | x :: l, b => by
    obtain ⟨hle, hall, hor⟩ := foldl_max_spec l (max b x)
    rw [List.foldl_cons]
    refine ⟨(le_max_left b x).trans hle, ?_, ?_⟩
    · intro y hy
      rcases List.mem_cons.mp hy with rfl | hy
      · exact (le_max_right b y).trans hle
      · exact hall y hy
    · rcases hor with heq | hmem
      · rcases max_choice b x with hb | hx
        · exact .inl (heq.trans hb)
        · exact .inr (List.mem_cons.mpr (.inl (heq.trans hx)))
      · exact .inr (List.mem_cons_of_mem _ hmem)

/-- The next part begins behind what is committed and behind every part. -/
theorem nextOffset_spec (m : MultipartFetchManager) :
    m.committedOffset ≤ m.nextOffset ∧ (∀ cell ∈ m.cells, cell.1 + cell.2 ≤ m.nextOffset)
      ∧ (m.nextOffset = m.committedOffset ∨ ∃ cell ∈ m.cells, m.nextOffset = cell.1 + cell.2) := by
  have hends : m.nextOffset
      = (m.cells.map fun cell => cell.1 + cell.2).foldl max m.committedOffset := by
    rw [nextOffset, MultipartFetchManager.cells, List.map_append, List.map_map, List.map_map]
    rfl
  obtain ⟨hle, hall, hor⟩ :=
    foldl_max_spec (m.cells.map fun cell => cell.1 + cell.2) m.committedOffset
  rw [hends]
  refine ⟨hle, fun cell hcell => hall _ (List.mem_map_of_mem hcell), hor.imp_right fun hmem => ?_⟩
  obtain ⟨cell, hcell, heq⟩ := List.mem_map.mp hmem
  exact ⟨cell, hcell, heq.symm⟩

theorem mem_cells_fetching {part : MultipartPendingPart} (h : part ∈ m.fetchingParts) :
    (part.offset, part.size) ∈ m.cells :=
  List.mem_append_left _ (List.mem_map_of_mem h)

theorem mem_cells_fetched {part : FetchedPart} (h : part ∈ m.fetchedParts) :
    (part.offset, part.data.length) ∈ m.cells :=
  List.mem_append_right _ (List.mem_map_of_mem h)

theorem mem_cells {cell : ℕ × ℕ} (h : cell ∈ m.cells) :
    (∃ part ∈ m.fetchingParts, cell = (part.offset, part.size))
      ∨ ∃ part ∈ m.fetchedParts, cell = (part.offset, part.data.length) := by
  rcases List.mem_append.mp h with h | h
  · obtain ⟨part, hpart, rfl⟩ := List.mem_map.mp h
    exact .inl ⟨part, hpart, rfl⟩
  · obtain ⟨part, hpart, rfl⟩ := List.mem_map.mp h
    exact .inr ⟨part, hpart, rfl⟩

namespace Grid

theorem same (h : Grid s E size m) (hsame : Same m m') : Grid s E size m' where
  running := (congrArg (·.terminated) hsame).trans h.running
  outcome := (congrArg (·.outcome) hsame).trans h.outcome
  hashes := (congrArg (·.cdnFilePartHashes) hsame).trans h.hashes
  request := (congrArg (·.partHashesRequest) hsame).trans h.request
  known := (congrArg (·.completeSize) hsame).trans h.known
  bound := (congrArg (·.upperBound) hsame).trans h.bound
  parallel := (congrArg (·.parallelParts) hsame).trans h.parallel
  committed := by
    rw [show m'.committedOffset = m.committedOffset from congrArg (·.committedOffset) hsame]
    exact h.committed
  cells := by
    rw [hsame.cells, show m'.committedOffset = m.committedOffset from
      congrArg (·.committedOffset) hsame]
    exact h.cells
  nodup := by
    rw [hsame.cells]
    exact h.nodup
  single := by
    rw [hsame.cells, show m'.committedOffset = m.committedOffset from
      congrArg (·.committedOffset) hsame]
    exact h.single

theorem cell_pos (h : Grid s E size m) {cell : ℕ × ℕ} (hcell : cell ∈ m.cells) : 0 < cell.2 := by
  obtain ⟨⟨-, -, hlt⟩, hsize, -⟩ := h.cells cell hcell
  rw [defaultPartSize_eq] at hsize
  omega

/-- Fewer parts are still on the grid. -/
theorem of_sublist (h : Grid s E size m) (hrunning : m'.terminated = false)
    (houtcome : m'.outcome = none) (hhashes : m'.cdnFilePartHashes = none)
    (hrequest : m'.partHashesRequest = none) (hknown : m'.completeSize = size)
    (hbound : m'.upperBound = E) (hparallel : m'.parallelParts = m.parallelParts)
    (hcommitted : m'.committedOffset = m.committedOffset)
    (hcells : ∀ cell ∈ m'.cells, cell ∈ m.cells) (hnodup : (m'.cells.map (·.1)).Nodup) :
    Grid s E size m' where
  running := hrunning
  outcome := houtcome
  hashes := hhashes
  request := hrequest
  known := hknown
  bound := hbound
  parallel := hparallel.trans h.parallel
  committed := hcommitted ▸ h.committed
  cells := fun cell hcell => hcommitted ▸ h.cells cell (hcells cell hcell)
  nodup := hnodup
  single := fun hnone cell hcell => hcommitted ▸ h.single hnone cell (hcells cell hcell)

/-- A part that is taken leaves the cells behind its end. -/
theorem take (h : Grid s E size m) {part : FetchedPart} (hpart : part ∈ m.fetchedParts)
    (hat : part.offset = m.committedOffset) : Grid s E size (m.take sha256 part) := by
  obtain ⟨⟨hs, hdvd, hlt⟩, hsize, -⟩ := h.cells _ (mem_cells_fetched hpart)
  simp only [] at hs hdvd hlt hsize
  have hcells : ∀ cell ∈ (m.take sha256 part).cells, cell ∈ m.cells ∧ cell.1 ≠ part.offset := by
    intro cell hcell
    rcases mem_cells hcell with ⟨p, hp, rfl⟩ | ⟨p, hp, rfl⟩
    · have hmem := mem_cells_fetching (m := m) hp
      refine ⟨hmem, fun heq => ?_⟩
      -- Two parts at one offset would be one cell twice.
      have hnodup := h.nodup
      rw [MultipartFetchManager.cells, List.map_append, List.nodup_append] at hnodup
      refine hnodup.2.2 p.offset ?_ part.offset ?_ heq
      · rw [List.map_map]
        exact List.mem_map_of_mem hp
      · rw [List.map_map]
        exact List.mem_map_of_mem hpart
    · have hfilter := List.mem_filter.mp hp
      exact ⟨mem_cells_fetched hfilter.1, bne_iff_ne.mp hfilter.2⟩
  have hcommitted : (m.take sha256 part).committedOffset
      = m.committedOffset + part.data.length := rfl
  refine ⟨h.running, h.outcome, h.hashes, h.request, h.known, h.bound, h.parallel, ?_, ?_, ?_, ?_⟩
  · rw [hcommitted, hsize, ← hat]
    rw [defaultPartSize_eq] at *
    omega
  · intro cell hcell
    obtain ⟨hmem, hne⟩ := hcells cell hcell
    obtain ⟨⟨hs', hdvd', hlt'⟩, hsize', hle'⟩ := h.cells cell hmem
    refine ⟨⟨hs', hdvd', hlt'⟩, hsize', ?_⟩
    rw [hcommitted, hsize]
    rw [defaultPartSize_eq] at *
    omega
  · refine h.nodup.sublist (List.Sublist.map _ ?_)
    exact List.Sublist.append (List.Sublist.refl _) (List.Sublist.map _ List.filter_sublist)
  · intro hnone cell hcell
    obtain ⟨hmem, hne⟩ := hcells cell hcell
    exact absurd ((h.single hnone cell hmem).trans hat.symm) hne

end Grid

/-- The part that the loop of `checkState` adds. -/
def MultipartFetchManager.addPart (m : MultipartFetchManager) : MultipartFetchManager :=
  { m with
    fetchingParts := m.fetchingParts ++
      [{ offset := m.nextOffset
         size := min (m.upperBound - m.nextOffset) defaultPartSize
         asked := m.requestData.isSome }] }

theorem cells_addPart (m : MultipartFetchManager) :
    m.addPart.cells.Perm
      ((m.nextOffset, min (m.upperBound - m.nextOffset) defaultPartSize) :: m.cells) := by
  show ((m.fetchingParts ++ [_]).map _ ++ _).Perm _
  rw [List.map_append, List.append_assoc]
  exact List.perm_middle

namespace Grid

/-- The next part is the next cell. -/
theorem nextOffset_cell (h : Grid s E size m) (hlt : m.nextOffset < m.upperBound) :
    OnGrid s E m.nextOffset ∧ m.committedOffset ≤ m.nextOffset
      ∧ ∀ cell ∈ m.cells, cell.1 < m.nextOffset := by
  obtain ⟨hle, hends, hor⟩ := nextOffset_spec m
  have hs := h.committed.1
  rw [h.bound] at hlt
  refine ⟨⟨by omega, ?_, hlt⟩, hle, fun cell hcell => ?_⟩
  · rcases hor with heq | ⟨cell, hcell, heq⟩
    · have := h.committed.2
      rw [heq] at hlt ⊢
      exact this.resolve_left (by omega)
    · obtain ⟨⟨hs', hdvd, -⟩, hsize, -⟩ := h.cells cell hcell
      rw [heq] at hlt ⊢
      rw [defaultPartSize_eq] at *
      omega
  · have := hends cell hcell
    have := h.cell_pos hcell
    omega

theorem addPart (h : Grid s E size m) (hlt : m.nextOffset < m.upperBound)
    (hsingle : size = none → m.cells = []) : Grid s E size m.addPart := by
  obtain ⟨hgrid, hle, hbefore⟩ := h.nextOffset_cell hlt
  have hperm := cells_addPart m
  rw [h.bound] at hperm
  refine ⟨h.running, h.outcome, h.hashes, h.request, h.known, h.bound, h.parallel, h.committed,
    ?_, ?_, ?_⟩
  · intro cell hcell
    rcases List.mem_cons.mp (hperm.mem_iff.mp hcell) with rfl | hcell
    · exact ⟨hgrid, rfl, hle⟩
    · exact h.cells cell hcell
  · refine (hperm.map _).nodup_iff.mpr (List.nodup_cons.mpr ⟨fun hmem => ?_, h.nodup⟩)
    obtain ⟨cell, hcell, heq⟩ := List.mem_map.mp hmem
    exact absurd heq (hbefore cell hcell).ne
  · intro hnone cell hcell
    rcases List.mem_cons.mp (hperm.mem_iff.mp hcell) with rfl | hcell
    · rcases (nextOffset_spec m).2.2 with heq | ⟨cell, hcell, -⟩
      · exact heq
      · rw [hsingle hnone] at hcell
        exact absurd hcell List.not_mem_nil
    · rw [hsingle hnone] at hcell
      exact absurd hcell List.not_mem_nil

end Grid

/-! ## The loops of `checkState` -/

/-- What taking a part keeps, taking all of them keeps. -/
theorem takeParts_induct {P : MultipartFetchManager → Prop}
    (hhashes : ∀ m, P m → m.cdnFilePartHashes = none)
    (htake : ∀ m part, P m → part ∈ m.fetchedParts → part.offset = m.committedOffset →
      P (m.take sha256 part)) :
    ∀ (parts : List FetchedPart) {m : MultipartFetchManager}, P m →
      (∀ part ∈ parts, part ∈ m.fetchedParts) → (parts.map (·.offset)).Nodup →
      P (m.takeParts sha256 parts)
  | [], _, h, _, _ => h
  | part :: parts, m, h, hmem, hnodup => by
    rw [List.map_cons, List.nodup_cons] at hnodup
    have haccepts : m.accepts sha256 part = true := by rw [accepts, hhashes m h]
    have hrest := fun p hp => hmem p (List.mem_cons_of_mem part hp)
    unfold MultipartFetchManager.takeParts
    rw [if_pos haccepts]
    split_ifs with hat
    · refine takeParts_induct hhashes htake parts (htake m part h (hmem part List.mem_cons_self) hat)
        (fun p hp => List.mem_filter.mpr ⟨hrest p hp, bne_iff_ne.mpr fun heq => ?_⟩) hnodup.2
      exact hnodup.1 (heq ▸ List.mem_map_of_mem hp)
    · exact takeParts_induct hhashes htake parts h hrest hnodup.2

/-- The loop moves the committed offset behind a part or not at all. -/
theorem takeParts_committed : ∀ (parts : List FetchedPart) {m : MultipartFetchManager},
    m.cdnFilePartHashes = none → (∀ part ∈ parts, 0 < part.data.length) →
    (m.takeParts sha256 parts).committedOffset = m.committedOffset
      ∨ ∃ part ∈ parts, part.offset < (m.takeParts sha256 parts).committedOffset
  | [], _, _, _ => .inl rfl
  | part :: parts, m, hhashes, hpos => by
    have haccepts : m.accepts sha256 part = true := by rw [accepts, hhashes]
    have hrest := fun p hp => hpos p (List.mem_cons_of_mem part hp)
    have hpart := hpos part List.mem_cons_self
    unfold MultipartFetchManager.takeParts
    rw [if_pos haccepts]
    split_ifs with hat
    · have htake : (m.take sha256 part).committedOffset = m.committedOffset + part.data.length := rfl
      rcases takeParts_committed parts (m := m.take sha256 part) hhashes hrest
        with heq | ⟨p, hp, hlt⟩
      · refine .inr ⟨part, List.mem_cons_self, ?_⟩
        rw [heq, htake]
        omega
      · exact .inr ⟨p, List.mem_cons_of_mem part hp, hlt⟩
    · rcases takeParts_committed parts hhashes hrest with heq | ⟨p, hp, hlt⟩
      · exact .inl heq
      · exact .inr ⟨p, List.mem_cons_of_mem part hp, hlt⟩

/-- Of sorted parts none is left at the committed offset. -/
theorem takeParts_passed : ∀ (parts : List FetchedPart) {m : MultipartFetchManager},
    m.cdnFilePartHashes = none → (∀ part ∈ parts, 0 < part.data.length) →
    parts.Pairwise (·.offset ≤ ·.offset) →
    ∀ part ∈ parts, part.offset ≠ (m.takeParts sha256 parts).committedOffset
  | [], _, _, _, _ => by simp
  | part :: parts, m, hhashes, hpos, hsorted => by
    have haccepts : m.accepts sha256 part = true := by rw [accepts, hhashes]
    have hrest := fun p hp => hpos p (List.mem_cons_of_mem part hp)
    have hpart := hpos part List.mem_cons_self
    rw [List.pairwise_cons] at hsorted
    unfold MultipartFetchManager.takeParts
    rw [if_pos haccepts]
    intro p hp
    split_ifs with hat
    · have htake : (m.take sha256 part).committedOffset = m.committedOffset + part.data.length := rfl
      rcases List.mem_cons.mp hp with rfl | hp
      · rcases takeParts_committed parts (m := m.take sha256 p) hhashes hrest
          with heq | ⟨q, hq, hlt⟩
        · rw [heq, htake]
          omega
        · have := hsorted.1 q hq
          omega
      · exact takeParts_passed parts (m := m.take sha256 part) hhashes hrest hsorted.2 p hp
    · rcases List.mem_cons.mp hp with rfl | hp
      · rcases @takeParts_committed sha256 parts m hhashes hrest with heq | ⟨q, hq, hlt⟩
        · rwa [heq]
        · have := hsorted.1 q hq
          omega
      · exact takeParts_passed parts hhashes hrest hsorted.2 p hp

/-- What adding a part keeps, with one turn less to go, adding all of them keeps. -/
theorem fetchParts_induct {P : ℕ → MultipartFetchManager → Prop}
    (hadd : ∀ fuel m, P (fuel + 1) m → m.nextOffset < m.upperBound → P fuel m.addPart) :
    ∀ (fuel : ℕ) {m : MultipartFetchManager}, P fuel m → ∃ left, P left (m.fetchParts fuel)
  | 0, m, h => ⟨0, h⟩
  | fuel + 1, m, h => by
    unfold MultipartFetchManager.fetchParts
    split_ifs with hlt
    · exact fetchParts_induct hadd fuel (hadd fuel m h hlt)
    · exact ⟨fuel + 1, h⟩

theorem completeOrFetch_eq (m : MultipartFetchManager) :
    m.completeOrFetch = if m.upperBound ≤ m.committedOffset then m.complete
      else m.fetchParts (m.parallelParts - m.fetchingParts.length) := by
  unfold completeOrFetch
  rcases hsize : m.completeSize with _ | c
  · have hupper : m.upperBound = m.rangeLocation + m.rangeLength := by
      rw [upperBound, hsize]
      rfl
    rw [hupper]
    rfl
  · have hupper : m.upperBound = min (m.rangeLocation + m.rangeLength) c := by
      rw [upperBound, hsize]
      rfl
    rw [hupper]
    by_cases hc : c ≤ m.committedOffset
    · rw [if_pos (by simp [hc]), if_pos (min_le_of_right_le hc)]
    · rw [if_neg (by simp [hc])]
      simp only [min_le_iff, hc, or_false]

namespace Grid

theorem sortedParts (h : Grid s E size m) :
    (∀ part ∈ m.sortedParts, part ∈ m.fetchedParts) ∧ (m.sortedParts.map (·.offset)).Nodup
      ∧ m.sortedParts.Pairwise (·.offset ≤ ·.offset) := by
  have hperm : m.sortedParts.Perm m.fetchedParts := List.mergeSort_perm _ _
  refine ⟨fun part hpart => hperm.mem_iff.mp hpart, ?_, ?_⟩
  · have hnodup := h.nodup
    rw [MultipartFetchManager.cells, List.map_append, List.nodup_append, List.map_map,
      List.map_map] at hnodup
    exact (hperm.map _).nodup_iff.mpr hnodup.2.1
  · have hsorted : m.sortedParts.Pairwise fun p q => decide (p.offset ≤ q.offset) = true :=
      List.pairwise_mergeSort (fun p q r hpq hqr => by simp only [decide_eq_true_eq] at *; omega)
        (fun p q => by simp only [Bool.or_eq_true, decide_eq_true_eq]; omega) m.fetchedParts
    exact hsorted.imp fun hpq => of_decide_eq_true hpq

/-- Without a cell at what is committed an unknown size has no part fetched. -/
theorem fetched_nil (h : Grid s E size m) (hnone : size = none)
    (hpassed : ∀ part ∈ m.fetchedParts, part.offset ≠ m.committedOffset) : m.fetchedParts = [] := by
  refine List.eq_nil_iff_forall_not_mem.mpr fun part hpart => hpassed part hpart ?_
  exact h.single hnone _ (mem_cells_fetched hpart)

/-- Of an unknown size there is one part at a time. -/
theorem length_cells_le (h : Grid s E size m) (hnone : size = none) : m.cells.length ≤ 1 := by
  have hall : ∀ x ∈ m.cells.map (·.1), x = m.committedOffset := by
    intro x hx
    obtain ⟨cell, hcell, rfl⟩ := List.mem_map.mp hx
    exact h.single hnone cell hcell
  have hnodup := h.nodup
  rw [List.eq_replicate_iff.mpr ⟨rfl, hall⟩] at hnodup
  have hle := List.nodup_replicate.mp hnodup
  rwa [List.length_map] at hle

theorem fetchParts (h : Grid s E size m)
    (hpassed : ∀ part ∈ m.fetchedParts, part.offset ≠ m.committedOffset) :
    Grid s E size (m.fetchParts (m.parallelParts - m.fetchingParts.length)) := by
  have hadd : ∀ fuel m', (Grid s E size m'
      ∧ (size = none → m'.fetchedParts = [] ∧ fuel + 1 + m'.fetchingParts.length ≤ 1)) →
      m'.nextOffset < m'.upperBound → Grid s E size m'.addPart
      ∧ (size = none → m'.addPart.fetchedParts = []
        ∧ fuel + m'.addPart.fetchingParts.length ≤ 1) := by
    rintro fuel m' ⟨hgrid, hnone⟩ hlt
    refine ⟨hgrid.addPart hlt fun hsize => ?_, fun hsize => ⟨(hnone hsize).1, ?_⟩⟩
    · obtain ⟨hfetched, hcount⟩ := hnone hsize
      have hempty : m'.fetchingParts = [] := List.length_eq_zero_iff.mp (by omega)
      rw [MultipartFetchManager.cells, hempty, hfetched]
      rfl
    · have hcount := (hnone hsize).2
      show fuel + (m'.fetchingParts ++ [_]).length ≤ 1
      rw [List.length_append, List.length_singleton]
      omega
  have hcount : size = none →
      m.parallelParts - m.fetchingParts.length + m.fetchingParts.length ≤ 1 := by
    intro hnone
    have hle := h.length_cells_le hnone
    rw [MultipartFetchManager.cells, List.length_append, List.length_map] at hle
    rw [h.parallel, hnone]
    show 1 - _ + _ ≤ 1
    omega
  obtain ⟨left, hgrid, -⟩ := fetchParts_induct (P := fun fuel m' => Grid s E size m'
    ∧ (size = none → m'.fetchedParts = [] ∧ fuel + m'.fetchingParts.length ≤ 1)) hadd
    (m.parallelParts - m.fetchingParts.length)
    ⟨h, fun hnone => ⟨h.fetched_nil hnone hpassed, hcount hnone⟩⟩
  exact hgrid

/-- What `checkState` comes to: it is over, or the next parts are asked for. -/
theorem checkState (h : Grid s E size m) :
    ∃ m₁, m₁ = m.takeParts sha256 m.sortedParts ∧ Grid s E size m₁
      ∧ (∀ part ∈ m₁.fetchedParts, part.offset ≠ m₁.committedOffset)
      ∧ m.checkState sha256 = if E ≤ m₁.committedOffset then m₁.complete
        else m₁.fetchParts (m₁.parallelParts - m₁.fetchingParts.length) := by
  obtain ⟨hmem, hnodup, hsorted⟩ := h.sortedParts
  have htaken : Grid s E size (m.takeParts sha256 m.sortedParts)
      ∧ ∀ part ∈ (m.takeParts sha256 m.sortedParts).fetchedParts, part ∈ m.fetchedParts :=
    takeParts_induct (P := fun m' => Grid s E size m' ∧ ∀ part ∈ m'.fetchedParts,
        part ∈ m.fetchedParts) (fun m' h' => h'.1.hashes)
      (fun m' part h' hpart hat => ⟨h'.1.take hpart hat, fun p hp =>
        h'.2 p (List.mem_of_mem_filter hp)⟩) m.sortedParts ⟨h, fun _ hp => hp⟩ hmem hnodup
  have hpos : ∀ part ∈ m.sortedParts, 0 < part.data.length := fun part hpart =>
    h.cell_pos (mem_cells_fetched (hmem part hpart))
  refine ⟨_, rfl, htaken.1, fun part hpart => ?_, ?_⟩
  · exact takeParts_passed m.sortedParts h.hashes hpos hsorted part
      (List.mem_mergeSort.mpr (htaken.2 part hpart))
  · unfold MultipartFetchManager.checkState
    simp only [h.running, htaken.1.running, Bool.false_eq_true, if_false, completeOrFetch_eq,
      htaken.1.bound]

end Grid

/-! ## A part that ends -/

/-- The part is fetched. -/
def MultipartFetchManager.storePart (m : MultipartFetchManager) (pending : MultipartPendingPart)
    (data : Bytes) (fromCdn : Bool) : MultipartFetchManager :=
  { m.removePart pending.offset with
    fetchedParts := m.fetchedParts.filter (·.offset != pending.offset) ++
      [{ offset := pending.offset, data, fromCdn }] }

theorem cells_removePart (m : MultipartFetchManager) (offset : ℕ) :
    (m.removePart offset).cells.Sublist m.cells :=
  List.Sublist.append (List.Sublist.map _ List.filter_sublist) (List.Sublist.refl _)

/-- The cells of a part that is stored: those at other offsets, and its own. -/
theorem cells_storePart (m : MultipartFetchManager) (pending : MultipartPendingPart) (data : Bytes)
    (fromCdn : Bool) :
    (m.storePart pending data fromCdn).cells
      = m.cells.filter (·.1 != pending.offset) ++ [(pending.offset, data.length)] := by
  show (m.fetchingParts.filter _).map _ ++ (m.fetchedParts.filter _ ++ [_]).map _ = _
  rw [MultipartFetchManager.cells, List.filter_append, List.map_append, List.append_assoc,
    List.filter_map, List.filter_map]
  rfl

namespace Grid

theorem removePart (h : Grid s E size m) (offset : ℕ) (retried : List ℕ) :
    Grid s E size { m.removePart offset with retriedPartOffsets := retried } :=
  h.of_sublist h.running h.outcome h.hashes h.request h.known h.bound rfl rfl
    (fun _ hcell => (cells_removePart m offset).subset hcell)
    (h.nodup.sublist ((cells_removePart m offset).map _))

theorem storePart (h : Grid s E size m) {pending : MultipartPendingPart} {data : Bytes}
    (hpending : pending ∈ m.fetchingParts) (hlength : data.length = pending.size) (fromCdn : Bool) :
    Grid s E size (m.storePart pending data fromCdn) := by
  have hcells := cells_storePart m pending data fromCdn
  refine h.of_sublist h.running h.outcome h.hashes h.request h.known h.bound rfl rfl ?_ ?_
  · intro cell hcell
    rw [hcells, List.mem_append, List.mem_singleton] at hcell
    rcases hcell with hcell | rfl
    · exact List.mem_of_mem_filter hcell
    · rw [hlength]
      exact mem_cells_fetching hpending
  · rw [hcells, List.map_append, List.nodup_append]
    refine ⟨h.nodup.sublist (List.Sublist.map _ List.filter_sublist), List.nodup_singleton _, ?_⟩
    intro x hx y hy heq
    obtain ⟨cell, hcell, rfl⟩ := List.mem_map.mp hx
    rw [List.map_singleton, List.mem_singleton] at hy
    exact bne_iff_ne.mp (List.mem_filter.mp hcell).2 (heq.trans hy)

theorem partData_full (h : Grid s E size m) {pending : MultipartPendingPart} {data : Bytes}
    (hlength : data.length = pending.size) (fromCdn : Bool) :
    m.partData sha256 pending data fromCdn
      = (m.storePart pending data fromCdn).checkState sha256 := by
  unfold MultipartFetchManager.partData
  rw [h.known]
  rcases size with _ | n
  · simp only []
    rw [if_neg (by omega)]
    rfl
  · simp only []
    rw [if_pos hlength]
    rfl

theorem partData_abort (h : Grid s E size m) {pending : MultipartPendingPart} {data : Bytes}
    (hsome : size ≠ none) (hlength : data.length ≠ pending.size) (fromCdn : Bool) :
    m.partData sha256 pending data fromCdn = m.abort := by
  unfold MultipartFetchManager.partData
  rw [h.known]
  rcases size with _ | n
  · exact absurd rfl hsome
  · simp only []
    rw [if_neg hlength]

/-- The part that reaches the size is the last. -/
theorem checkState_last {m : MultipartFetchManager} {part : FetchedPart}
    (hrunning : m.terminated = false) (hhashes : m.cdnFilePartHashes = none)
    (hfetched : m.fetchedParts = [part]) (hat : part.offset = m.committedOffset)
    (hsize : m.completeSize = some (part.offset + part.data.length)) :
    m.checkState sha256 = (m.take sha256 part).complete := by
  have haccepts : m.accepts sha256 part = true := by rw [accepts, hhashes]
  have hsorted : m.sortedParts = [part] := by
    rw [MultipartFetchManager.sortedParts, hfetched, List.mergeSort_singleton]
  have htaken : m.takeParts sha256 [part] = m.take sha256 part := by
    rw [takeParts, if_pos hat, if_pos haccepts]
    rfl
  have hend : (m.take sha256 part).committedOffset = part.offset + part.data.length := by
    rw [hat]
    rfl
  have hknown : (m.take sha256 part).completeSize = some (part.offset + part.data.length) := hsize
  have hrun : (m.take sha256 part).terminated = false := hrunning
  have hcomplete : (m.take sha256 part).completeOrFetch = (m.take sha256 part).complete := by
    unfold completeOrFetch
    rw [hknown, hend, if_pos (by simp)]
  unfold MultipartFetchManager.checkState
  simp only [hrunning, hsorted, htaken, hrun, hcomplete, Bool.false_eq_true, if_false]

/-- A short answer tells the size, and there is nothing left to fetch. -/
theorem partData_short (h : Grid s E size m) {pending : MultipartPendingPart} {data : Bytes}
    (hpending : pending ∈ m.fetchingParts) (hnone : size = none)
    (hlength : data.length < pending.size) (fromCdn : Bool) :
    ∃ m', m.partData sha256 pending data fromCdn = m' ∧ m'.terminated = true
      ∧ m'.outcome = some .completed ∧ m'.fetchingParts = [] ∧ m'.fetchedParts = []
      ∧ m'.partHashesRequest = none
      ∧ m'.taken = m.taken ++ [⟨⟨pending.offset, data, fromCdn⟩, none, true⟩] := by
  have hat := h.single hnone _ (mem_cells_fetching hpending)
  have hcount := h.length_cells_le hnone
  rw [MultipartFetchManager.cells, List.length_append, List.length_map, List.length_map] at hcount
  have hpos := List.length_pos_of_mem hpending
  have hfetched : m.fetchedParts = [] := List.length_eq_zero_iff.mp (by omega)
  have hfetching : m.fetchingParts.filter (·.offset != pending.offset) = [] := by
    refine List.filter_eq_nil_iff.mpr fun part hpart => ?_
    rw [bne_iff_ne, not_not]
    exact (h.single hnone _ (mem_cells_fetching hpart)).trans hat.symm
  simp only [] at hat
  obtain ⟨m₁, hm₁⟩ : ∃ m₁, ({ m with completeSize := some (pending.offset + data.length) } :
    MultipartFetchManager).storePart pending data fromCdn = m₁ := ⟨_, rfl⟩
  have hlast : m₁.checkState sha256 = (m₁.take sha256 ⟨pending.offset, data, fromCdn⟩).complete := by
    subst hm₁
    refine checkState_last h.running h.hashes ?_ hat rfl
    show m.fetchedParts.filter _ ++ _ = _
    rw [hfetched]
    rfl
  refine ⟨_, rfl, ?_⟩
  have hdata : m.partData sha256 pending data fromCdn
      = (m₁.take sha256 ⟨pending.offset, data, fromCdn⟩).complete := by
    unfold MultipartFetchManager.partData
    rw [h.known, hnone]
    simp only [if_pos hlength]
    rw [← hlast, ← hm₁]
    rfl
  have hhashes : m₁.cdnFilePartHashes = none := by
    subst hm₁
    exact h.hashes
  have htaken : m₁.taken = m.taken := by
    subst hm₁
    rfl
  rw [hdata]
  refine ⟨rfl, rfl, ?_, ?_, ?_, ?_⟩
  · subst hm₁
    exact hfetching
  · subst hm₁
    show (m.fetchedParts.filter _ ++ [_]).filter _ = []
    rw [hfetched]
    simp
  · subst hm₁
    exact h.request
  · show m₁.taken ++ [⟨_, m₁.cdnFilePartHashes, m₁.accepts sha256 _⟩] = _
    rw [accepts, hhashes, htaken]

end Grid

/-- Behind the end of the range there is no cell. -/
theorem Grid.cells_nil (h : Grid s E size m) (hend : E ≤ m.committedOffset) : m.cells = [] := by
  refine List.eq_nil_iff_forall_not_mem.mpr fun cell hcell => ?_
  obtain ⟨⟨-, -, hlt⟩, -, hle⟩ := h.cells cell hcell
  omega

theorem fetchParts_same (fuel : ℕ) (m : MultipartFetchManager) :
    (m.fetchParts fuel).committedOffset = m.committedOffset
      ∧ (m.fetchParts fuel).fetchedParts = m.fetchedParts ∧ (m.fetchParts fuel).taken = m.taken := by
  obtain ⟨-, h⟩ := fetchParts_induct (P := fun _ m' => m'.committedOffset = m.committedOffset
    ∧ m'.fetchedParts = m.fetchedParts ∧ m'.taken = m.taken) (fun _ _ h _ => h) fuel ⟨rfl, rfl, rfl⟩
  exact h

end Grid

/-! ## The end -/

/-- The manager when it is over: no part is in flight any more. -/
structure Ended (m : MultipartFetchManager) : Prop where
  terminated : m.terminated = true
  fetching : m.fetchingParts = []
  request : m.partHashesRequest = none

section Ended

variable {sha256 : Bytes → Bytes} {aesCtrDecrypt : Bytes → Bytes → Bytes → Bytes}
  {m m' : MultipartFetchManager}

theorem Ended.same (h : Ended m) (hsame : Same m m') : Ended m' where
  terminated := (congrArg (·.terminated) hsame).trans h.terminated
  fetching := by
    have hcore : m'.fetchingParts.map unasked = m.fetchingParts.map unasked :=
      congrArg (·.fetchingParts) hsame
    rw [h.fetching] at hcore
    exact List.map_eq_nil_iff.mp hcore
  request := (congrArg (·.partHashesRequest) hsame).trans h.request

/-- Nothing happens any more. -/
theorem Ended.step (h : Ended m) (e : Event) :
    Ended (m.step sha256 aesCtrDecrypt e)
      ∧ (m.step sha256 aesCtrDecrypt e).fetchedParts = m.fetchedParts
      ∧ (m.step sha256 aesCtrDecrypt e).outcome = m.outcome
      ∧ (m.step sha256 aesCtrDecrypt e).taken = m.taken := by
  have hsame : ∀ m', Same m m' → Ended m' ∧ m'.fetchedParts = m.fetchedParts
      ∧ m'.outcome = m.outcome ∧ m'.taken = m.taken := fun m' hsame =>
    ⟨h.same hsame, congrArg (·.fetchedParts) hsame, congrArg (·.outcome) hsame,
      congrArg (·.taken) hsame⟩
  have hempty : ∀ part : MultipartPendingPart, part ∉ m.fetchingParts := by simp [h.fetching]
  rcases step_cases sha256 aesCtrDecrypt h.request e with heq | ⟨m₁, hm₁, heq⟩ |
    ⟨m₁, hm₁, heq, -⟩ | ⟨pending, data, fromCdn, hpending, -, heq⟩ |
    ⟨offset, ⟨⟨part, hpart, -⟩, -⟩, heq⟩ | ⟨heq, offset, pending, next, -, hasked, -⟩ | ⟨heq, -⟩
  · exact hsame _ heq
  · rw [heq, checkState, if_pos (h.same hm₁).terminated]
    exact hsame m₁ hm₁
  · rw [heq, fail, if_pos (h.same hm₁).terminated]
    exact hsame m₁ hm₁
  · exact absurd hpending (hempty pending)
  · exact absurd hpart (hempty part)
  · exact absurd (mem_of_asked hasked).1 (hempty pending)
  · rw [heq]
    exact ⟨⟨rfl, rfl, rfl⟩, rfl, rfl, rfl⟩

end Ended

/-! ## What the server takes -/

/-- What the server asks of a request. -/
structure Acceptable (offset limit : ℕ) : Prop where
  offset_page : 4096 ∣ offset
  limit_page : 4096 ∣ limit
  limit_dvd : limit ∣ 1048576
  block : offset / 1048576 = (offset + limit - 1) / 1048576

/-- The intervals asked for have no byte in common. -/
def Apart (a b : ℕ × ℕ) : Prop := a.1 + limitFor a.2 ≤ b.1 ∨ b.1 + limitFor b.2 ≤ a.1

/-- The limit is found for every part in flight, the server takes it, and no part overlaps another
one in flight or fetched. -/
structure Requests (m : MultipartFetchManager) : Prop where
  inFlight : ∀ part ∈ m.fetchingParts,
    (∀ fuel, 131072 ≤ fuel → updatedLimit fuel part.size = some (limitFor part.size))
      ∧ Acceptable part.offset (limitFor part.size)
  apart : m.cells.Pairwise Apart

/-- Where the last part begins. -/
def lastOffset (s size : ℕ) : ℕ := s + (size - 1 - s) / defaultPartSize * defaultPartSize

/-- A start is a multiple of the size of a part; or one of pages, and all that is asked for of a
known size, or the first part of an unknown one, ends in the block where it begins. At the end of a
known size there is nothing to ask for. -/
def Resumes (s : ℕ) : Option ℕ → Prop
  | some size => size ≤ s ∨ 4096 ∣ s ∧ (defaultPartSize ∣ s
    ∨ (lastOffset s size + limitFor (size - lastOffset s size) - 1) / 1048576 = s / 1048576)
  | none => 4096 ∣ s ∧ (defaultPartSize ∣ s ∨ s % 1048576 + defaultPartSize ≤ 1048576)

/-- As long as the size is not known, an answer has no more bytes than the part; and if it has as
many, the start is a multiple of the size of a part or the next part ends in the same block. -/
def Fits (aesCtrDecrypt : Bytes → Bytes → Bytes → Bytes) (s : ℕ) (m : MultipartFetchManager)
    (e : Event) : Prop :=
  ∀ pending data, incoming aesCtrDecrypt m e = some (pending, data) → m.completeSize = none →
    data.length ≤ pending.size ∧ (data.length = pending.size → defaultPartSize ∣ s
      ∨ pending.offset % 1048576 + 2 * defaultPartSize ≤ 1048576)

theorem acceptable_of_block {offset size : ℕ} (hpage : 4096 ∣ offset)
    (hblock : offset / 1048576 = (offset + limitFor size - 1) / 1048576) :
    Acceptable offset (limitFor size) :=
  ⟨hpage, Nat.dvd_of_mod_eq_zero (limitFor_spec size).1,
    Nat.dvd_of_mod_eq_zero (limitFor_spec size).2.1, hblock⟩

/-- The cells of a known size. -/
theorem acceptable_known {s size offset : ℕ} (h : Resumes s (some size))
    (hgrid : OnGrid s size offset) :
    Acceptable offset (limitFor (min (size - offset) defaultPartSize)) := by
  obtain ⟨hs, hdvd, hlt⟩ := hgrid
  have hmax := (limitFor_spec (min (size - offset) defaultPartSize)).2.2
  rcases h with hend | ⟨hpage, hstart⟩
  · omega
  · refine acceptable_of_block ?_ ?_
    · rw [defaultPartSize_eq] at hdvd
      omega
    · rcases hstart with hstart | hstart
      · rw [defaultPartSize_eq] at hdvd hstart hmax ⊢
        omega
      · have hlast : lastOffset s size = s + (size - 1 - s) / 131072 * 131072 := rfl
        have hlimit := (limitFor_spec (size - lastOffset s size)).2.2.2
        by_cases hat : offset = lastOffset s size
        · have hmin : min (size - offset) defaultPartSize = size - lastOffset s size := by
            rw [← hat, defaultPartSize_eq]
            omega
          rw [hmin, hat]
          omega
        · -- The part ends where the last one begins, or before.
          have hbefore : offset + 131072 ≤ lastOffset s size := by
            rw [defaultPartSize_eq] at hdvd
            omega
          rw [defaultPartSize_eq] at hmax ⊢
          omega

/-- Of an unknown size: the room there is behind what is committed. -/
def Room (s : ℕ) (size : Option ℕ) (m : MultipartFetchManager) : Prop :=
  size = none → ¬defaultPartSize ∣ s → m.committedOffset % 1048576 + defaultPartSize ≤ 1048576
    ∧ ∀ part ∈ m.fetchedParts, part.offset % 1048576 + 2 * defaultPartSize ≤ 1048576

section Requests

variable {s E : ℕ} {size : Option ℕ} {m m' : MultipartFetchManager} {sha256 : Bytes → Bytes}
  {aesCtrDecrypt : Bytes → Bytes → Bytes → Bytes}

theorem Grid.apart (h : Grid s E size m) : m.cells.Pairwise Apart := by
  refine List.Pairwise.imp_of_mem ?_ (List.pairwise_map.mp h.nodup)
  intro a b ha hb hne
  obtain ⟨⟨hsa, hdvda, -⟩, -, -⟩ := h.cells a ha
  obtain ⟨⟨hsb, hdvdb, -⟩, -, -⟩ := h.cells b hb
  have hmaxa := (limitFor_spec a.2).2.2.1
  have hmaxb := (limitFor_spec b.2).2.2.1
  unfold Apart
  rw [defaultPartSize_eq] at hdvda hdvdb
  omega

theorem Grid.requests (h : Grid s E size m) (hroom : Room s size m) (hstart : Resumes s size)
    (hend : ∀ n ∈ size, E = n) : Requests m := by
  refine ⟨fun part hpart => ?_, h.apart⟩
  obtain ⟨hgrid, hsize, hle⟩ := h.cells _ (mem_cells_fetching hpart)
  have hpos := h.cell_pos (mem_cells_fetching hpart)
  simp only [] at hgrid hsize hle hpos
  have hmax : part.size ≤ 131072 := by
    rw [hsize]
    exact min_le_right _ _
  have hlimit := (limitFor_spec part.size).2.2.1
  refine ⟨fun fuel hfuel => updatedLimit_eq fuel hpos hmax (by omega), ?_⟩
  cases size with
  | some n =>
    obtain rfl := hend n rfl
    rw [hsize]
    exact acceptable_known hstart hgrid
  | none =>
    have hat := h.single rfl _ (mem_cells_fetching hpart)
    simp only [] at hat
    have hpage : 4096 ∣ part.offset := by
      have := hstart.1
      have hdvd := hgrid.2.1
      have hs := hgrid.1
      rw [defaultPartSize_eq] at hdvd
      omega
    refine acceptable_of_block hpage ?_
    by_cases hs : defaultPartSize ∣ s
    · have hdvd := hgrid.2.1
      have hle' := hgrid.1
      rw [defaultPartSize_eq] at hs hdvd
      have := (limitFor_spec part.size).2.2.2
      omega
    · have hcommitted := (hroom rfl hs).1
      rw [← hat, defaultPartSize_eq] at hcommitted
      have := (limitFor_spec part.size).2.2.2
      omega

theorem Room.same (h : Room s size m) (hsame : Same m m') : Room s size m' := by
  unfold Room
  rw [show m'.committedOffset = m.committedOffset from congrArg (·.committedOffset) hsame,
    show m'.fetchedParts = m.fetchedParts from congrArg (·.fetchedParts) hsame]
  exact h

theorem Room.take (h : Room s size m) (hgrid : Grid s E size m) {part : FetchedPart}
    (hpart : part ∈ m.fetchedParts) (hat : part.offset = m.committedOffset) :
    Room s size (m.take sha256 part) := by
  intro hnone hs
  obtain ⟨-, hfetched⟩ := h hnone hs
  have hroom := hfetched part hpart
  obtain ⟨-, hsize, -⟩ := hgrid.cells _ (mem_cells_fetched hpart)
  simp only [] at hsize
  refine ⟨?_, fun p hp => hfetched p (List.mem_of_mem_filter hp)⟩
  show (m.committedOffset + part.data.length) % 1048576 + defaultPartSize ≤ 1048576
  rw [hsize, ← hat]
  rw [defaultPartSize_eq] at hroom ⊢
  omega

/-- The manager in a run: it has parts on the grid, or it is over. -/
def Running (s E : ℕ) (size : Option ℕ) (m : MultipartFetchManager) : Prop :=
  (Grid s E size m ∧ Room s size m) ∨ (Ended m ∧ m.cells.Pairwise Apart)

theorem running_checkState (h : Grid s E size m) (hroom : Room s size m) :
    Running s E size (m.checkState sha256) := by
  obtain ⟨m₁, htaken, hgrid, hpassed, hcheck⟩ := @Grid.checkState s E size m sha256 h
  obtain ⟨hmem, hnodup, -⟩ := h.sortedParts
  have hroom₁ : Room s size m₁ := by
    rw [htaken]
    exact (takeParts_induct (P := fun m' => Grid s E size m' ∧ Room s size m')
      (fun m' h' => h'.1.hashes) (fun m' part h' hpart hat =>
        ⟨h'.1.take hpart hat, h'.2.take h'.1 hpart hat⟩) m.sortedParts ⟨h, hroom⟩ hmem hnodup).2
  rw [hcheck]
  split_ifs with hend
  · right
    have hcells : m₁.complete.cells = [] := hgrid.cells_nil hend
    refine ⟨⟨rfl, ?_, hgrid.request⟩, ?_⟩
    · exact List.map_eq_nil_iff.mp (List.append_eq_nil_iff.mp hcells).1
    · rw [hcells]
      exact .nil
  · obtain ⟨hcommitted, hfetched, -⟩ :=
      fetchParts_same (m₁.parallelParts - m₁.fetchingParts.length) m₁
    refine .inl ⟨hgrid.fetchParts hpassed, ?_⟩
    unfold Room
    rw [hcommitted, hfetched]
    exact hroom₁

/-- Over, with what is fetched as it was. -/
theorem running_over (h : m.cells.Pairwise Apart) (hterminated : m'.terminated = true)
    (hfetching : m'.fetchingParts = []) (hrequest : m'.partHashesRequest = none)
    (hfetched : m'.fetchedParts = m.fetchedParts) : Running s E size m' := by
  refine .inr ⟨⟨hterminated, hfetching, hrequest⟩, ?_⟩
  rw [MultipartFetchManager.cells, hfetching, hfetched]
  exact h.sublist (List.sublist_append_right _ _)

theorem Grid.fail_eq (h : Grid s E size m) :
    m.fail = { m with terminated := true, fetchingParts := [], outcome := some .failed } := by
  rw [fail, if_neg (by rw [h.running]; exact Bool.false_ne_true)]

theorem Running.step (h : Running s E size m) {e : Event} (hfits : Fits aesCtrDecrypt s m e) :
    Running s E size (m.step sha256 aesCtrDecrypt e) := by
  rcases h with ⟨hgrid, hroom⟩ | ⟨hended, hapart⟩
  · rcases step_cases sha256 aesCtrDecrypt hgrid.request e with heq | ⟨m₁, hm₁, heq⟩ |
      ⟨m₁, hm₁, heq, -⟩ | ⟨pending, data, fromCdn, hpending, hincoming, heq⟩ | ⟨offset, -, heq⟩ |
      ⟨heq, -⟩ | ⟨heq, -⟩
    · refine .inl ⟨hgrid.same heq, ?_⟩
      exact hroom.same heq
    · rw [heq]
      exact running_checkState (hgrid.same hm₁) (hroom.same hm₁)
    · rw [heq, (hgrid.same hm₁).fail_eq]
      exact running_over (hgrid.same hm₁).apart rfl rfl (hgrid.same hm₁).request rfl
    · rw [heq]
      by_cases hlength : data.length = pending.size
      · rw [hgrid.partData_full hlength]
        refine running_checkState (hgrid.storePart hpending hlength fromCdn) fun hnone hs => ?_
        obtain ⟨hcommitted, hfetched⟩ := hroom hnone hs
        refine ⟨hcommitted, fun part hpart => ?_⟩
        rcases List.mem_append.mp hpart with hpart | hpart
        · exact hfetched part (List.mem_of_mem_filter hpart)
        · obtain rfl := List.mem_singleton.mp hpart
          have hroom' := (hfits pending data hincoming (hgrid.known.trans hnone)).2 hlength
          exact hroom'.resolve_left hs
      · by_cases hnone : size = none
        · have hle := (hfits pending data hincoming (hgrid.known.trans hnone)).1
          obtain ⟨m', hm', hterminated, -, hfetching, hfetched, hrequest, -⟩ :=
            @Grid.partData_short s E size m sha256 hgrid pending data hpending hnone
              (lt_of_le_of_ne hle hlength) fromCdn
          rw [hm']
          refine .inr ⟨⟨hterminated, hfetching, hrequest⟩, ?_⟩
          rw [MultipartFetchManager.cells, hfetching, hfetched]
          exact .nil
        · rw [hgrid.partData_abort hnone hlength]
          exact running_over hgrid.apart rfl rfl hgrid.request rfl
    · rw [heq]
      unfold partError
      simp only []
      split_ifs
      · have hremoved := hgrid.removePart offset m.retriedPartOffsets
        rw [show (m.removePart offset).fail = _ from hremoved.fail_eq]
        exact running_over hremoved.apart rfl rfl hremoved.request rfl
      · exact running_checkState (hgrid.removePart offset _) hroom
    · rw [heq]
      exact running_over hgrid.apart rfl rfl hgrid.request rfl
    · rw [heq]
      exact running_over hgrid.apart rfl rfl rfl rfl
  · obtain ⟨hended', hfetched, -⟩ := @Ended.step sha256 aesCtrDecrypt m hended e
    exact running_over hapart hended'.terminated hended'.fetching hended'.request hfetched

theorem upperBound_init (fileReference : Bytes) (originInfo : Bool) (location length n : ℕ) :
    (init fileReference originInfo (some n) location length).upperBound
      = min (location + min (location + length) n) n := rfl

theorem grid_init (fileReference : Bytes) (originInfo : Bool) {location length : ℕ}
    (hbound : (init fileReference originInfo size location length).upperBound = E) :
    Grid location E size (init fileReference originInfo size location length) where
  running := rfl
  outcome := rfl
  hashes := rfl
  request := rfl
  known := rfl
  bound := hbound
  parallel := rfl
  committed := by
    refine ⟨le_rfl, .inr ?_⟩
    show defaultPartSize ∣ location - location
    rw [Nat.sub_self]
    exact dvd_zero _
  cells := fun _ hcell => absurd hcell List.not_mem_nil
  nodup := .nil
  single := fun _ _ hcell => absurd hcell List.not_mem_nil

end Requests

variable (sha256 : Bytes → Bytes) (aesCtrDecrypt : Bytes → Bytes → Bytes → Bytes)

/-- Whatever the answers hold and however the requests end, what is asked for on the way from a
start that is carried on well is what the server takes. -/
theorem requests_runs (fileReference : Bytes) (originInfo : Bool) (size : Option ℕ) (s : ℕ)
    (hsize : ∀ n ∈ size, n ≤ INT32_MAX) (hstart : Resumes s size) (events : List Event)
    (hfits : Run.AllSteps (MultipartFetchManager.step sha256 aesCtrDecrypt) (Fits aesCtrDecrypt s)
      (resume fileReference originInfo size s) events) :
    Requests (Run.run (MultipartFetchManager.step sha256 aesCtrDecrypt)
      (resume fileReference originInfo size s) events) := by
  obtain ⟨E, hbound⟩ : ∃ E, (resume fileReference originInfo size s).upperBound = E := ⟨_, rfl⟩
  have hend : ∀ n ∈ size, E = n := by
    rintro n rfl
    have hle := hsize n rfl
    rw [← hbound, resume, upperBound_init]
    omega
  have hroom : Room s size (resume fileReference originInfo size s) := by
    rintro rfl hs
    exact ⟨hstart.2.resolve_left hs, fun _ hpart => absurd hpart List.not_mem_nil⟩
  have hinit : Running s E size (resume fileReference originInfo size s) :=
    .inl ⟨grid_init fileReference originInfo hbound, hroom⟩
  rcases Run.invariant (fun m e hm he => Running.step (m := m) hm (e := e) he) events hinit hfits
    with ⟨hgrid, hroom⟩ | ⟨hended, hapart⟩
  · exact hgrid.requests hroom hstart hend
  · exact ⟨fun part hpart => absurd (hended.fetching ▸ hpart) List.not_mem_nil, hapart⟩

/-- A file of which the first part is there. -/
theorem requests_runs_second :
    Requests (Run.run (MultipartFetchManager.step id fun bytes _ _ => bytes)
      (resume [5] false (some 300000) 131072) [.start, .worker]) :=
  requests_runs id (fun bytes _ _ => bytes) [5] false (some 300000) 131072
    (fun _ h => by cases h; decide) (.inr ⟨by decide, .inl (by decide)⟩) [.start, .worker]
    ⟨(fun _ _ h => nomatch h), (fun _ _ h => nomatch h), trivial⟩

/-- All of a file of unknown size is there, and it is asked for what follows. -/
theorem resumed_inside_page :
    ¬Requests (Run.run (MultipartFetchManager.step id fun bytes _ _ => bytes)
      (resume [5] false none 5000) [.start]) := by
  intro h
  have hpart : (⟨5000, 131072, false⟩ : MultipartPendingPart)
      ∈ (Run.run (MultipartFetchManager.step id fun bytes _ _ => bytes)
        (resume [5] false none 5000) [.start]).fetchingParts := by
    simp [MultipartFetchManager.step, resume, init, checkState, sortedParts, takeParts,
      completeOrFetch, fetchParts, nextOffset, upperBound, defaultPartSize, INT32_MAX]
  exact absurd (h.inFlight _ hpart).2.offset_page (by decide)

end Onegram.MultipartFetch
