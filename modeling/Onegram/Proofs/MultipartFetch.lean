import Onegram.MultipartFetch

/-!
# The hashes of a CDN's parts are not looked at

A redirect goes to `switchToCdn:` and its hashes nowhere: `switchToCdnWithFileData:partHashes:`,
which would keep them, is called by nothing but itself. So `checkState` holds no hashes in any run,
and what a CDN sends goes to `partReady` as it is.
-/

namespace Onegram.MultipartFetch

open MultipartFetchManager

/-- Each byte of the part is in a block whose hash was compared, with one from the file's own
datacenter. -/
def TakenPart.Verified (sha256 : Bytes → Bytes) (ownHashes : List (ℕ × Bytes)) (part : TakenPart) :
    Prop :=
  ∀ i < part.data.length, ∃ hashes start stop, part.hashes = some hashes
    ∧ start ≤ i ∧ i < stop ∧ stop ≤ part.data.length
    ∧ hashes.lookup (part.offset + start) = some (sha256 ((part.data.take stop).drop start))
    ∧ (part.offset + start, sha256 ((part.data.take stop).drop start)) ∈ ownHashes

structure CdnVerified (sha256 : Bytes → Bytes) (m : MultipartFetchManager) : Prop where
  delivered : ∀ part ∈ m.taken, part.fromCdn → part.delivered → part.Verified sha256 m.ownHashes
  refused : ∀ part ∈ m.taken, part.fromCdn → ¬ part.Verified sha256 m.ownHashes →
    part.delivered = false ∧ m.outcome = some .failed

section Check

variable {sha256 : Bytes → Bytes}

theorem mem_of_lookup : ∀ {hashes : List (ℕ × Bytes)} {offset : ℕ} {hash : Bytes},
    hashes.lookup offset = some hash → (offset, hash) ∈ hashes
  | [], _, _, h => by simp at h
  | (o, x) :: rest, offset, hash, h => by
    rw [List.lookup_cons] at h
    by_cases ho : offset = o
    · obtain rfl : x = hash := by simpa [ho] using h
      exact ho ▸ List.mem_cons_self
    · have hb : (offset == o) = false := by simpa using ho
      rw [hb] at h
      exact List.mem_cons_of_mem _ (mem_of_lookup h)

/-- The loop over the blocks leaves no byte out. -/
theorem hashesMatch_byte {hashes : List (ℕ × Bytes)} {offset : ℕ} {data : Bytes}
    (h : hashesMatch sha256 hashes offset data) {i : ℕ} (hi : i < data.length) :
    ∃ start stop, start ≤ i ∧ i < stop ∧ stop ≤ data.length
      ∧ hashes.lookup (offset + start) = some (sha256 ((data.take stop).drop start)) := by
  have hpos : 0 < defaultPartSize := by decide
  have hmod := Nat.div_add_mod' i defaultPartSize
  have hlt := Nat.mod_lt i hpos
  have hblock : i / defaultPartSize < (data.length + defaultPartSize - 1) / defaultPartSize := by
    rw [Nat.lt_div_iff_mul_lt hpos]
    omega
  have hlookup := List.all_eq_true.mp h _ (List.mem_range.mpr hblock)
  refine ⟨i / defaultPartSize * defaultPartSize, _, by omega, ?_, ?_, beq_iff_eq.mp hlookup⟩
  all_goals
    unfold blockEnd
    split <;> omega

theorem verified_of_hashesMatch {part : TakenPart} {hashes ownHashes : List (ℕ × Bytes)}
    (hheld : part.hashes = some hashes) (hown : ∀ x ∈ hashes, x ∈ ownHashes)
    (h : hashesMatch sha256 hashes part.offset part.data) : part.Verified sha256 ownHashes := by
  intro i hi
  obtain ⟨start, stop, h₁, h₂, h₃, hlookup⟩ := hashesMatch_byte h hi
  exact ⟨hashes, start, stop, hheld, h₁, h₂, h₃, hlookup, hown _ (mem_of_lookup hlookup)⟩

/-- With hashes in hand the loop of `checkState` keeps what it must. -/
theorem CdnVerified.takeParts {hashes : List (ℕ × Bytes)} :
    ∀ (parts : List FetchedPart) {m : MultipartFetchManager}, m.cdnFilePartHashes = some hashes →
      (∀ x ∈ hashes, x ∈ m.ownHashes) → m.terminated = false → CdnVerified sha256 m →
      CdnVerified sha256 (takeParts sha256 parts m)
  | [], _, _, _, _, h => h
  | part :: parts, m, hheld, hown, hterm, h => by
    unfold MultipartFetchManager.takeParts
    split
    · have haccepts : m.accepts sha256 part = hashesMatch sha256 hashes part.offset part.data := by
        simp only [accepts, hheld]
      split
      · refine CdnVerified.takeParts parts hheld hown hterm ⟨?_, ?_⟩
        all_goals
          intro t ht hcdn
          rcases List.mem_append.mp ht with ht | ht
        · exact h.delivered t ht hcdn
        · obtain rfl := List.mem_singleton.mp ht
          exact fun hd => verified_of_hashesMatch hheld hown (haccepts ▸ hd)
        · exact h.refused t ht hcdn
        · obtain rfl := List.mem_singleton.mp ht
          refine fun hn => absurd (verified_of_hashesMatch hheld hown ?_) hn
          exact haccepts ▸ ‹m.accepts sha256 part = true›
      · have hfail : ((m.take sha256 part).fail).outcome = some .failed := by
          unfold fail
          rw [if_neg (by simpa [take] using hterm)]
        have htaken : ((m.take sha256 part).fail).taken = (m.take sha256 part).taken := by
          unfold fail
          split <;> rfl
        have hsame : ((m.take sha256 part).fail).ownHashes = m.ownHashes := by
          unfold fail
          split <;> rfl
        constructor
        all_goals
          rw [htaken, hsame]
          intro t ht hcdn
          rcases List.mem_append.mp ht with ht | ht
        · exact h.delivered t ht hcdn
        · obtain rfl := List.mem_singleton.mp ht
          intro hd
          exact absurd hd ‹¬ m.accepts sha256 part = true›
        · exact fun hn => ⟨(h.refused t ht hcdn hn).1, hfail⟩
        · obtain rfl := List.mem_singleton.mp ht
          exact fun _ => ⟨Bool.eq_false_iff.mpr ‹¬ m.accepts sha256 part = true›, hfail⟩
    · exact CdnVerified.takeParts parts hheld hown hterm h

end Check

/-! ## Runs -/

/-- No hashes are held or asked for, and a CDN has sent no byte. -/
structure Unchecked (m : MultipartFetchManager) : Prop where
  noHashes : m.cdnFilePartHashes = none
  noRequest : m.partHashesRequest = none
  fetched : ∀ part ∈ m.fetchedParts, part.fromCdn → part.data = []
  taken : ∀ part ∈ m.taken, part.fromCdn → part.data = []

namespace Unchecked

variable {sha256 : Bytes → Bytes} {aesCtrDecrypt : Bytes → Bytes → Bytes → Bytes}
  {m : MultipartFetchManager}

theorem verified (h : Unchecked m) : CdnVerified sha256 m := by
  have hv : ∀ part ∈ m.taken, part.fromCdn → part.Verified sha256 m.ownHashes := by
    intro part hp hcdn i hi
    rw [h.taken part hp hcdn] at hi
    exact absurd hi (by simp)
  exact ⟨fun part hp hcdn _ => hv part hp hcdn, fun part hp hcdn hn => absurd (hv part hp hcdn) hn⟩

theorem init {fileReference : Bytes} {originInfo : Bool} {size : Option ℕ} {location length : ℕ} :
    Unchecked (init fileReference originInfo size location length) where
  noHashes := rfl
  noRequest := rfl
  fetched := fun _ h => absurd h List.not_mem_nil
  taken := fun _ h => absurd h List.not_mem_nil

theorem fail (h : Unchecked m) : Unchecked m.fail := by
  unfold MultipartFetchManager.fail
  split
  · exact h
  · exact ⟨h.1, h.2, h.3, h.4⟩

theorem take (h : Unchecked m) {part : FetchedPart} (hp : part.fromCdn → part.data = []) :
    Unchecked (m.take sha256 part) := by
  refine ⟨h.1, h.2, fun p hm => h.3 p (List.mem_of_mem_filter hm), ?_⟩
  intro t ht
  rcases List.mem_append.mp ht with ht | ht
  · exact h.4 t ht
  · obtain rfl := List.mem_singleton.mp ht
    exact hp

theorem takeParts : ∀ (parts : List FetchedPart) {m : MultipartFetchManager}, Unchecked m →
    (∀ part ∈ parts, part.fromCdn → part.data = []) → Unchecked (m.takeParts sha256 parts)
  | [], _, h, _ => h
  | part :: parts, m, h, hp => by
    have htake : Unchecked (m.take sha256 part) := h.take (hp part List.mem_cons_self)
    have hrest := fun p hm => hp p (List.mem_cons_of_mem _ hm)
    unfold MultipartFetchManager.takeParts
    split_ifs
    · exact takeParts parts htake hrest
    · exact htake.fail
    · exact takeParts parts h hrest

theorem fetchParts : ∀ (fuel : ℕ) {m : MultipartFetchManager}, Unchecked m →
    Unchecked (m.fetchParts fuel)
  | 0, _, h => h
  | fuel + 1, m, h => by
    unfold MultipartFetchManager.fetchParts
    split
    · exact fetchParts fuel ⟨h.1, h.2, h.3, h.4⟩
    · exact h

theorem checkState (h : Unchecked m) : Unchecked (m.checkState sha256) := by
  have htaken : Unchecked (m.takeParts sha256 m.sortedParts) :=
    takeParts m.sortedParts h fun part hp => h.fetched part (List.mem_mergeSort.mp hp)
  unfold MultipartFetchManager.checkState completeOrFetch
  simp only []
  split_ifs
  · exact h
  · exact htaken
  · exact ⟨htaken.1, htaken.2, htaken.3, htaken.4⟩
  · exact ⟨htaken.1, htaken.2, htaken.3, htaken.4⟩
  · exact fetchParts _ htaken

theorem partData (h : Unchecked m) {pending : MultipartPendingPart} {data : Bytes} {fromCdn : Bool}
    (hd : fromCdn → data = []) : Unchecked (m.partData sha256 pending data fromCdn) := by
  have hstore : ∀ part ∈ m.fetchedParts.filter (·.offset != pending.offset)
      ++ [{ offset := pending.offset, data, fromCdn : FetchedPart }],
      part.fromCdn → part.data = [] := by
    intro part hp
    rcases List.mem_append.mp hp with hp | hp
    · exact h.fetched part (List.mem_of_mem_filter hp)
    · obtain rfl := List.mem_singleton.mp hp
      exact hd
  unfold MultipartFetchManager.partData
  simp only []
  split <;> split
  · exact checkState ⟨h.1, h.2, hstore, h.4⟩
  · exact ⟨h.1, h.2, h.3, h.4⟩
  · exact checkState ⟨h.1, h.2, hstore, h.4⟩
  · exact checkState ⟨h.1, h.2, hstore, h.4⟩

theorem partError (h : Unchecked m) (offset : ℕ) : Unchecked (m.partError sha256 offset) := by
  have hremove : Unchecked (m.removePart offset) := ⟨h.1, h.2, h.3, h.4⟩
  unfold MultipartFetchManager.partError
  simp only []
  split
  · exact hremove.fail
  · exact checkState ⟨h.1, h.2, h.3, h.4⟩

theorem switchToCdn (h : Unchecked m) (fileData : TGCdnFileData) :
    Unchecked (m.switchToCdn fileData) := by
  unfold MultipartFetchManager.switchToCdn
  split
  · exact h
  · exact ⟨h.1, h.2, h.3, h.4⟩

end Unchecked

variable (sha256 : Bytes → Bytes) (aesCtrDecrypt : Bytes → Bytes → Bytes → Bytes)

/-- The bytes of the file in an answer to a request of a part. -/
def receivedBytes (offset : ℕ) : RequestData → Answer → Bytes
  | _, .file bytes => bytes
  | .cdn fileData, .cdnFile bytes => decryptPart aesCtrDecrypt fileData offset bytes
  | _, _ => []

/-- A CDN answers the request of no part with bytes of the file. -/
def NoCdnBytes (m : MultipartFetchManager) : Event → Prop
  | .answer offset next => ∀ pending data, m.asked offset = some pending → m.requestData = some data →
      data.isCdn → receivedBytes aesCtrDecrypt pending.offset data next = []
  | _ => True

namespace Unchecked

variable {sha256 aesCtrDecrypt} {m : MultipartFetchManager}

theorem receive (h : Unchecked m) {pending : MultipartPendingPart} {data : RequestData}
    {next : Answer}
    (hb : data.isCdn → receivedBytes aesCtrDecrypt pending.offset data next = []) :
    Unchecked (m.receive sha256 aesCtrDecrypt pending data next) := by
  cases next with
  | file bytes => exact h.partData hb
  | fileCdnRedirect fileData fileHashes =>
    apply switchToCdn
    exact ⟨h.1, h.2, h.3, h.4⟩
  | cdnFile bytes =>
    cases data with
    | cdn fileData => exact h.partData fun _ => hb rfl
    | location => exact ⟨h.1, h.2, h.3, h.4⟩
  | cdnFileReuploadNeeded requestToken =>
    cases data with
    | cdn fileData =>
      simp only [MultipartFetchManager.receive, reuploadToCdn]
      split <;> exact ⟨h.1, h.2, h.3, h.4⟩
    | location =>
      simp only [MultipartFetchManager.receive]
      split <;> exact ⟨h.1, h.2, h.3, h.4⟩
  | other => exact ⟨h.1, h.2, h.3, h.4⟩

theorem updateFileReference (h : Unchecked m) : Unchecked m.updateFileReference := by
  unfold MultipartFetchManager.updateFileReference
  split_ifs
  · exact h
  · exact ⟨h.1, h.2, h.3, h.4⟩
  · exact h.fail

theorem error (h : Unchecked m) (offset : ℕ) (fileReference : Bool) :
    Unchecked (m.error sha256 offset fileReference) := by
  unfold MultipartFetchManager.error
  split
  · split
    · exact updateFileReference ⟨h.1, h.2, h.3, h.4⟩
    · exact h.partError offset
  · exact h.partError offset
  · exact h

theorem originInfoUpdated (h : Unchecked m) (fileReference : Bytes) :
    Unchecked (m.originInfoUpdated sha256 fileReference) := by
  unfold MultipartFetchManager.originInfoUpdated
  simp only []
  split_ifs
  · exact fail ⟨h.1, h.2, h.3, h.4⟩
  · exact checkState ⟨h.1, h.2, h.3, h.4⟩
  · exact h

theorem step (h : Unchecked m) {e : Event} (hb : NoCdnBytes aesCtrDecrypt m e) :
    Unchecked (m.step sha256 aesCtrDecrypt e) := by
  cases e with
  | start => exact h.checkState
  | worker =>
    simp only [MultipartFetchManager.step, worker]
    split
    · exact h
    · exact ⟨h.1, h.2, h.3, h.4⟩
  | answer offset next =>
    simp only [MultipartFetchManager.step, answer]
    split
    · exact h.receive (hb _ _ ‹_› ‹_›)
    · exact h
  | error offset fileReference => exact h.error offset fileReference
  | timeout offset =>
    simp only [MultipartFetchManager.step, timeout]
    split
    · exact h.partError offset
    · exact h
  | reuploaded =>
    simp only [MultipartFetchManager.step, reuploaded]
    split
    · exact h
    · exact ⟨h.1, h.2, h.3, h.4⟩
  | originInfo fileReference => exact h.originInfoUpdated fileReference
  | originInfoFailed =>
    simp only [MultipartFetchManager.step, originInfoFailed]
    split
    · exact fail ⟨h.1, h.2, h.3, h.4⟩
    · exact h
  | cdnFileHashes hashes =>
    -- No request for hashes is there to be answered.
    simp only [MultipartFetchManager.step, cdnFileHashes, h.noRequest]
    exact h
  | cancel => exact ⟨h.1, rfl, h.3, h.4⟩

end Unchecked

/-- As long as no CDN sends bytes, nothing from a CDN is handed on without its hash. -/
theorem cdnVerified_runs (fileReference : Bytes) (originInfo : Bool) (size : Option ℕ)
    (location length : ℕ) (events : List Event)
    (hb : Run.AllSteps (MultipartFetchManager.step sha256 aesCtrDecrypt) (NoCdnBytes aesCtrDecrypt)
      (init fileReference originInfo size location length) events) :
    CdnVerified sha256 (Run.run (MultipartFetchManager.step sha256 aesCtrDecrypt)
      (init fileReference originInfo size location length) events) := by
  have hstep : ∀ m e, Unchecked m → NoCdnBytes aesCtrDecrypt m e →
      Unchecked (m.step sha256 aesCtrDecrypt e) := fun _ _ h hok => h.step hok
  exact (Run.invariant hstep events Unchecked.init hb).verified

/-- A redirected fetch whose first part the CDN answers. -/
def redirectedEvents (bytes : Bytes) : List Event :=
  [.start, .worker,
    .answer 0 (.fileCdnRedirect { cdnId := 203, token := [1], encryptionKey := [2]
                                  encryptionIv := [0, 0, 0, 0] } [(0, [3])]),
    .worker, .answer 0 (.cdnFile bytes)]

theorem cdnVerified_runs_sample :
    CdnVerified id (Run.run (MultipartFetchManager.step id fun bytes _ _ => bytes)
      (init [5] false none 0 (256 * 1024)) (redirectedEvents [])) :=
  cdnVerified_runs id (fun bytes _ _ => bytes) [5] false none 0 (256 * 1024) (redirectedEvents [])
    ⟨trivial, trivial, fun _ data _ _ _ => by cases data <;> rfl, trivial,
      fun _ data _ _ _ => by cases data <;> rfl, trivial⟩

theorem redirected_taken {sha256 : Bytes → Bytes} {aesCtrDecrypt : Bytes → Bytes → Bytes → Bytes}
    (hlen : ∀ bytes key iv, (aesCtrDecrypt bytes key iv).length = bytes.length) :
    (Run.run (MultipartFetchManager.step sha256 aesCtrDecrypt) (init [5] false none 0 (256 * 1024))
        (redirectedEvents [4])).taken
      = [{ offset := 0, data := aesCtrDecrypt [4] [2] [0, 0, 0, 0], fromCdn := true, hashes := none
           delivered := true }] := by
  have hone := hlen [4] [2] [0, 0, 0, 0]
  simp [redirectedEvents, MultipartFetchManager.step, worker, answer, asked, receive, checkState,
    init, sortedParts, takeParts, completeOrFetch, fetchParts, nextOffset, upperBound,
    defaultPartSize, never, switchToCdn, setRequestData, RequestData.isCdn, partData, decryptPart,
    removePart, take, accepts, complete, Bytes.bytesBE, hone]

/-- The bytes of a CDN are handed on with no hash compared, though the redirect brought one. -/
theorem redirected_unverified :
    ¬ ∃ (sha256 : Bytes → Bytes) (aesCtrDecrypt : Bytes → Bytes → Bytes → Bytes),
      (∀ bytes key iv, (aesCtrDecrypt bytes key iv).length = bytes.length)
      ∧ CdnVerified sha256 (Run.run (MultipartFetchManager.step sha256 aesCtrDecrypt)
          (init [5] false none 0 (256 * 1024)) (redirectedEvents [4])) := by
  rintro ⟨sha256, aesCtrDecrypt, hlen, h⟩
  have htaken := @redirected_taken sha256 aesCtrDecrypt hlen
  obtain ⟨hashes, start, stop, hheld, -⟩ := h.delivered _ (htaken ▸ List.mem_singleton_self _) rfl rfl
    0 (by simp [hlen])
  exact absurd hheld (by simp)

end Onegram.MultipartFetch
