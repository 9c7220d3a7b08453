import Onegram.MediaBox

/-!
# What the media box stores

A result appends to the partial file whatever fetch it is of, and a complete result links the file
whatever was written. So the partial file can stop being a prefix of the resource: a result of a
fetch that was disposed of runs after a new fetch has taken the size of the file as its start
(`late`), or a result that was not written in full is followed by another one
(`torn`). It can only be so: in every run in which no bytes are written for a fetch after
a later one for the same resource has started, through a descriptor that was closed, or after a
short write of the same fetch, and no complete result follows or ends in such a write, every
partial file is a prefix and every complete file is whole (`mediaBox_true_content`).
-/

namespace Onegram

namespace MediaBox

variable {ρ : Type}

/-- A later fetch for the resource has taken its start. -/
def Superseded (fetches : ℕ → Option (Fetch ρ)) (f : ℕ) (r : ρ) : Prop :=
  ∃ g x, f < g ∧ fetches g = some x ∧ x.resourceId = r

/-- No fetch starts at a size an `int32_t` cannot hold; bytes are written for a fetch only through
its own open descriptor, before a later fetch for the resource starts, and when all it delivered
before was written; a result that links the complete file was written in full, like all before
it. -/
def Clean (resource : ρ → Bytes) (s : State ρ) : Event ρ → Prop
  | .fetchedResource _ r => s.completeSize r = 0 → s.fetchDisposable r = none →
      (s.partialFile r).length < 2 ^ 31
  | .result f length complete handle written => ∀ x, s.fetches f = some x →
      (x.fd.isSome ∨ handle.isSome) →
      ((x.piece resource length).take written ≠ [] →
        x.closed = false ∧ ¬ Superseded s.fetches f x.resourceId ∧ x.torn = false) ∧
      (complete → x.torn = false ∧ written = (x.piece resource length).length)
  | _ => True

/-- The partial files are prefixes and the complete ones whole. What a fetch that missed nothing
has delivered is in the file, and is all of it while no later fetch has started. Open descriptors
are of the fetch's own partial file and no other fetch's. -/
structure Inv (resource : ρ → Bytes) (s : State ρ) : Prop where
  starts : ∀ r, s.partialFile r <+: resource r
  whole : ∀ r, s.complete r → s.partialFile r = resource r
  position_le : ∀ f x, s.fetches f = some x → x.torn = false →
    x.position ≤ (s.partialFile x.resourceId).length
  position_eq : ∀ f x, s.fetches f = some x → x.torn = false →
    ¬ Superseded s.fetches f x.resourceId → x.position = (s.partialFile x.resourceId).length
  opened : ∀ f x n, s.fetches f = some x → x.fd = some n → x.closed = false →
    s.descriptors n = some x.resourceId
  distinct : ∀ f g x y n, s.fetches f = some x → s.fetches g = some y → x.fd = some n →
    y.fd = some n → x.closed = false → y.closed = false → f = g
  closed_disposed : ∀ f x, s.fetches f = some x → x.closed → x.disposed
  lt_next : ∀ f x, s.fetches f = some x → f < s.nextFetch

theorem initial_inv (resource : ρ → Bytes) : Inv resource (initial : State ρ) := by
  constructor <;> simp [initial, restart]

theorem restart_inv {resource : ρ → Bytes} {s : State ρ} (h : Inv resource s) :
    Inv resource (restart s) where
  starts := h.starts
  whole := h.whole
  position_le := by simp [restart]
  position_eq := by simp [restart]
  opened := by simp [restart]
  distinct := by simp [restart]
  closed_disposed := by simp [restart]
  lt_next := by simp [restart]

/-- What a fetch supersedes does not change with a fetch that keeps its resource. -/
theorem superseded_update {fetches : ℕ → Option (Fetch ρ)} {f : ℕ} {x x' : Fetch ρ}
    (hx : fetches f = some x) (hr : x'.resourceId = x.resourceId) (g : ℕ) (r : ρ) :
    Superseded (Function.update fetches f (some x')) g r ↔ Superseded fetches g r := by
  constructor
  · rintro ⟨k, y, hk, hy, rfl⟩
    by_cases hkf : k = f
    · subst hkf
      rw [Function.update_self] at hy
      obtain rfl := Option.some.inj hy
      exact ⟨k, x, hk, hx, hr.symm⟩
    · rw [Function.update_of_ne hkf] at hy
      exact ⟨k, y, hk, hy, rfl⟩
  · rintro ⟨k, y, hk, hy, rfl⟩
    by_cases hkf : k = f
    · subst hkf
      rw [hx] at hy
      obtain rfl := Option.some.inj hy
      exact ⟨k, x', hk, Function.update_self .., hr⟩
    · exact ⟨k, y, hk, by rw [Function.update_of_ne hkf, hy], rfl⟩

/-- A fetch after one of them was replaced: the new one, or one of the others. -/
theorem fetch_of_update {fetches : ℕ → Option (Fetch ρ)} {f g : ℕ} {x' y : Fetch ρ}
    (h : Function.update fetches f (some x') g = some y) :
    g = f ∧ y = x' ∨ g ≠ f ∧ fetches g = some y := by
  by_cases hg : g = f
  · subst hg
    rw [Function.update_self] at h
    exact .inl ⟨rfl, (Option.some.inj h).symm⟩
  · rw [Function.update_of_ne hg] at h
    exact .inr ⟨hg, h⟩

/-- A fetch is replaced by one that differs in its descriptor only, which it may close, and no
descriptor another fetch has open is touched. -/
theorem Inv.replace {resource : ρ → Bytes} {s : State ρ} (h : Inv resource s) {f : ℕ}
    {x x' : Fetch ρ} (hx : s.fetches f = some x) (hid : x'.resourceId = x.resourceId)
    (hposition : x'.position = x.position) (htorn : x'.torn = x.torn) (hfd : x'.fd = x.fd)
    (hclosed : x'.closed = false → x.closed = false) (hdisposed : x'.closed → x'.disposed)
    {d : ℕ → Option ρ}
    (hd : ∀ g y n, s.fetches g = some y → y.fd = some n → y.closed = false →
      (g = f → x'.closed = false) → d n = s.descriptors n) :
    Inv resource { s with descriptors := d, fetches := Function.update s.fetches f (some x') } where
  starts := h.starts
  whole := h.whole
  position_le g y hy := by
    rcases fetch_of_update hy with ⟨rfl, rfl⟩ | ⟨-, hy⟩
    · rw [hposition, hid, htorn]
      exact h.position_le g x hx
    · exact h.position_le g y hy
  position_eq g y hy hy' hsup := by
    rw [superseded_update hx hid] at hsup
    rcases fetch_of_update hy with ⟨rfl, rfl⟩ | ⟨-, hy⟩
    · rw [hid] at hsup ⊢
      rw [hposition]
      exact h.position_eq g x hx (htorn ▸ hy') hsup
    · exact h.position_eq g y hy hy' hsup
  opened g y n hy hn hc := by
    rcases fetch_of_update hy with ⟨rfl, rfl⟩ | ⟨hg, hy⟩
    · rw [hfd] at hn
      rw [hid, ← h.opened g x n hx hn (hclosed hc)]
      exact hd g x n hx hn (hclosed hc) fun _ => hc
    · rw [← h.opened g y n hy hn hc]
      exact hd g y n hy hn hc fun heq => absurd heq hg
  distinct g k y z n hy hz hyn hzn hyc hzc := by
    rcases fetch_of_update hy with ⟨rfl, rfl⟩ | ⟨-, hy'⟩
    · rcases fetch_of_update hz with ⟨rfl, -⟩ | ⟨-, hz'⟩
      · rfl
      · exact h.distinct _ _ x z n hx hz' (hfd ▸ hyn) hzn (hclosed hyc) hzc
    · rcases fetch_of_update hz with ⟨rfl, rfl⟩ | ⟨-, hz'⟩
      · exact h.distinct _ _ y x n hy' hx hyn (hfd ▸ hzn) hyc (hclosed hzc)
      · exact h.distinct _ _ y z n hy' hz' hyn hzn hyc hzc
  closed_disposed g y hy hc := by
    rcases fetch_of_update hy with ⟨rfl, rfl⟩ | ⟨-, hy⟩
    · exact hdisposed hc
    · exact h.closed_disposed g y hy hc
  lt_next g y hy := by
    rcases fetch_of_update hy with ⟨rfl, rfl⟩ | ⟨-, hy⟩
    · exact h.lt_next g x hx
    · exact h.lt_next g y hy

theorem disposeFetch_inv {resource : ρ → Bytes} {s : State ρ} (h : Inv resource s) (f : ℕ) :
    Inv resource (disposeFetch s f) := by
  rw [disposeFetch]
  split
  · exact h
  next x hx =>
    split_ifs with hd
    · exact h
    have hopen : x.closed = false := by
      by_contra hc
      exact hd (h.closed_disposed f x hx (by simpa using hc))
    split
    · exact h.replace hx (by rfl) (by rfl) (by rfl) (by rfl) (by exact id) (fun _ => by rfl)
        fun _ _ _ _ _ _ _ => rfl
    next n hn =>
      refine h.replace hx (by rfl) (by rfl) (by rfl) (by rfl) (by simp) (fun _ => by rfl)
        fun g y m hy hm hc hg => ?_
      -- the descriptor that is closed is of this fetch alone
      refine Function.update_of_ne ?_ _ _
      rintro rfl
      simpa using hg (h.distinct g f y x m hy hx hm hn hc hopen)

/-- The invariant reads neither the subscribers nor which fetch a context holds. -/
theorem Inv.congr {resource : ρ → Bytes} {s : State ρ} (h : Inv resource s)
    (subscribers : ρ → List ℕ) (disposables : ρ → Option ℕ) :
    Inv resource
      { s with fetchSubscribers := subscribers, fetchDisposable := disposables } :=
  ⟨h.starts, h.whole, h.position_le, h.position_eq, h.opened, h.distinct, h.closed_disposed,
    h.lt_next⟩

variable [DecidableEq ρ]

theorem disposeContext_inv {resource : ρ → Bytes} {s : State ρ} (h : Inv resource s) (r : ρ) :
    Inv resource (disposeContext s r) := by
  rw [disposeContext]
  rcases s.fetchDisposable r with _ | f
  · exact h
  · exact (disposeFetch_inv h f).congr _ _

theorem bmod_of_lt {n : ℕ} (h : n < 2147483648) : (n : ℤ).bmod 4294967296 = n := by
  rw [Int.bmod_def]
  omega

theorem toNat_emod_of_lt {n : ℕ} (h : n < 2147483648) :
    ((n : ℤ) % 18446744073709551616).toNat = n := by
  omega

theorem location_of_lt {n : ℕ} (h : n < 2 ^ 31) : (int32Size n % 2 ^ 64).toNat = n := by
  unfold int32Size
  norm_num at h ⊢
  rw [bmod_of_lt h, toNat_emod_of_lt h]

theorem startFetch_eq {s : State ρ} {r : ρ} (hlt : (s.partialFile r).length < 2 ^ 31) :
    startFetch s r =
      { s with
        fetches := Function.update s.fetches s.nextFetch
          (some ⟨r, (s.partialFile r).length, none, false, false, false⟩)
        nextFetch := s.nextFetch + 1
        fetchDisposable := Function.update s.fetchDisposable r (some s.nextFetch) } := by
  rw [startFetch]
  simp only [location_of_lt hlt]

/-- A fetch that starts takes its start where the file ends, and supersedes the others for its
resource. -/
theorem startFetch_inv {resource : ρ → Bytes} {s : State ρ} (h : Inv resource s) {r : ρ}
    (hlt : (s.partialFile r).length < 2 ^ 31) : Inv resource (startFetch s r) := by
  rw [startFetch_eq hlt]
  have hsup : ∀ {g q v}, Superseded s.fetches g q →
      Superseded (Function.update s.fetches s.nextFetch v) g q := by
    rintro g q v ⟨k, y, hk, hy, rfl⟩
    exact ⟨k, y, hk, by rw [Function.update_of_ne (h.lt_next k y hy).ne, hy], rfl⟩
  refine ⟨h.starts, h.whole, ?_, ?_, ?_, ?_, ?_, ?_⟩
  · intro g y hy htorn
    rcases fetch_of_update hy with ⟨rfl, rfl⟩ | ⟨-, hy⟩
    · exact le_rfl
    · exact h.position_le g y hy htorn
  · intro g y hy htorn hnot
    rcases fetch_of_update hy with ⟨rfl, rfl⟩ | ⟨-, hy⟩
    · rfl
    · exact h.position_eq g y hy htorn fun hs => hnot (hsup hs)
  · intro g y n hy hn hc
    rcases fetch_of_update hy with ⟨rfl, rfl⟩ | ⟨-, hy⟩
    · simp at hn
    · exact h.opened g y n hy hn hc
  · intro g k y z n hy hz hyn hzn hyc hzc
    rcases fetch_of_update hy with ⟨rfl, rfl⟩ | ⟨-, hy⟩
    · simp at hyn
    rcases fetch_of_update hz with ⟨rfl, rfl⟩ | ⟨-, hz⟩
    · simp at hzn
    · exact h.distinct g k y z n hy hz hyn hzn hyc hzc
  · intro g y hy hc
    rcases fetch_of_update hy with ⟨rfl, rfl⟩ | ⟨-, hy⟩
    · simp at hc
    · exact h.closed_disposed g y hy hc
  · intro g y hy
    rcases fetch_of_update hy with ⟨rfl, rfl⟩ | ⟨-, hy⟩
    · exact Nat.lt_succ_self _
    · exact (h.lt_next g y hy).trans (Nat.lt_succ_self _)

/-! ## Results -/

omit [DecidableEq ρ] in
/-- What `open` changes: the descriptor of the fetch, where it had none, and no other one. -/
theorem openPartial_inv {resource : ρ → Bytes} {s : State ρ} (h : Inv resource s) {f : ℕ}
    {x : Fetch ρ} (hx : s.fetches f = some x) {handle : Option ℕ}
    (hfree : x.fd = none → ∀ n, handle = some n → s.descriptors n = none) :
    Inv resource
      { (openPartial s x handle).1 with
        fetches := Function.update s.fetches f (some (openPartial s x handle).2) } := by
  unfold openPartial
  split
  next n hfd =>
    have hother : ∀ g y m, s.fetches g = some y → y.fd = some m → y.closed = false → m ≠ n := by
      rintro g y m hy hm hc rfl
      simpa [hfree hfd m rfl] using h.opened g y m hy hm hc
    refine ⟨h.starts, h.whole, ?_, ?_, ?_, ?_, ?_, ?_⟩
    · intro g y hy
      rcases fetch_of_update hy with ⟨rfl, rfl⟩ | ⟨-, hy⟩
      · exact h.position_le g x hx
      · exact h.position_le g y hy
    · intro g y hy htorn hsup
      rw [superseded_update hx (by rfl)] at hsup
      rcases fetch_of_update hy with ⟨rfl, rfl⟩ | ⟨-, hy⟩
      · exact h.position_eq g x hx htorn hsup
      · exact h.position_eq g y hy htorn hsup
    · intro g y m hy hm hc
      rcases fetch_of_update hy with ⟨rfl, rfl⟩ | ⟨-, hy⟩
      · obtain rfl : n = m := by simpa using hm
        exact Function.update_self ..
      · exact (Function.update_of_ne (hother g y m hy hm hc) _ _).trans (h.opened g y m hy hm hc)
    · intro g k y z m hy hz hym hzm hyc hzc
      rcases fetch_of_update hy with ⟨rfl, rfl⟩ | ⟨-, hy'⟩
      · rcases fetch_of_update hz with ⟨rfl, -⟩ | ⟨-, hz'⟩
        · rfl
        · exact absurd (Option.some.inj hym).symm (hother k z m hz' hzm hzc)
      · rcases fetch_of_update hz with ⟨rfl, rfl⟩ | ⟨-, hz'⟩
        · exact absurd (Option.some.inj hzm).symm (hother g y m hy' hym hyc)
        · exact h.distinct g k y z m hy' hz' hym hzm hyc hzc
    · intro g y hy hc
      rcases fetch_of_update hy with ⟨rfl, rfl⟩ | ⟨-, hy⟩
      · exact h.closed_disposed g x hx hc
      · exact h.closed_disposed g y hy hc
    · intro g y hy
      rcases fetch_of_update hy with ⟨rfl, rfl⟩ | ⟨-, hy⟩
      · exact h.lt_next g x hx
      · exact h.lt_next g y hy
  · have hself : Function.update s.fetches f (some x) = s.fetches := by
      rw [← hx, Function.update_eq_self]
    rw [hself]
    exact h

omit [DecidableEq ρ] in
/-- Two fetches for one resource: one of them is superseded by the other. -/
theorem superseded_of_ne {fetches : ℕ → Option (Fetch ρ)} {f g : ℕ} {x y : Fetch ρ}
    (hx : fetches f = some x) (hy : fetches g = some y) (hne : g ≠ f)
    (hr : y.resourceId = x.resourceId) :
    Superseded fetches f x.resourceId ∨ Superseded fetches g y.resourceId := by
  rcases Nat.lt_or_gt_of_ne hne with hlt | hlt
  · exact .inr ⟨f, x, hlt, hx, hr.symm⟩
  · exact .inl ⟨g, y, hlt, hy, hr⟩

theorem append_piece {b resource : Bytes} (h : b <+: resource) (k : ℕ) :
    b ++ (resource.drop b.length).take k <+: resource := by
  have hb := List.prefix_iff_eq_take.1 h
  have hsum : resource.take (b.length + k) = b ++ (resource.drop b.length).take k := by
    rw [List.take_add, ← hb]
  rw [← hsum]
  exact List.take_prefix _ _

/-- A piece is delivered, and `added` of it written: nothing, or its beginning, where the file
ends. -/
theorem Inv.deliver {resource : ρ → Bytes} {s : State ρ} (h : Inv resource s) {f : ℕ}
    {x : Fetch ρ} (hx : s.fetches f = some x) (x' : Fetch ρ) (hid : x'.resourceId = x.resourceId)
    (hfd : x'.fd = x.fd) (hclosed : x'.closed = x.closed) (hdisposed : x'.disposed = x.disposed)
    {added : Bytes} {k : ℕ} (hadded : added = ((resource x.resourceId).drop x.position).take k)
    (hbytes : added ≠ [] → ¬ Superseded s.fetches f x.resourceId ∧ x.torn = false)
    (htorn : x'.torn = false → x.torn = false ∧ x'.position = x.position + added.length) :
    Inv resource
      { s with
        partialFile := Function.update s.partialFile x.resourceId
          (s.partialFile x.resourceId ++ added)
        fetches := Function.update s.fetches f (some x') } := by
  have hself : Function.update s.partialFile x.resourceId (s.partialFile x.resourceId ++ added)
      x.resourceId = s.partialFile x.resourceId ++ added := Function.update_self ..
  have hother : ∀ r, r ≠ x.resourceId → Function.update s.partialFile x.resourceId
      (s.partialFile x.resourceId ++ added) r = s.partialFile r := fun r hr =>
    Function.update_of_ne hr _ _
  generalize Function.update s.partialFile x.resourceId (s.partialFile x.resourceId ++ added) = file
    at hself hother ⊢
  have hgrow : ∀ r, s.partialFile r <+: file r := by
    intro r
    by_cases hr : r = x.resourceId
    · rw [hr, hself]
      exact List.prefix_append _ _
    · rw [hother r hr]
  have hstarts : ∀ r, file r <+: resource r := by
    intro r
    by_cases hr : r = x.resourceId
    · rw [hr, hself]
      by_cases hnil : added = []
      · rw [hnil, List.append_nil]
        exact h.starts _
      · obtain ⟨hsup, ht⟩ := hbytes hnil
        rw [hadded, h.position_eq f x hx ht hsup]
        exact append_piece (h.starts _) k
    · rw [hother r hr]
      exact h.starts r
  refine ⟨hstarts, ?_, ?_, ?_, ?_, ?_, ?_, ?_⟩
  · intro r hr
    exact (hstarts r).eq_of_length_le ((h.whole r hr) ▸ hgrow r).length_le
  · intro g y hy ht
    rcases fetch_of_update hy with ⟨rfl, rfl⟩ | ⟨-, hy⟩
    · obtain ⟨ht, hposition⟩ := htorn ht
      change y.position ≤ (file y.resourceId).length
      rw [hid, hself, hposition, List.length_append]
      exact Nat.add_le_add_right (h.position_le _ x hx ht) _
    · exact (h.position_le g y hy ht).trans (hgrow _).length_le
  · intro g y hy ht hsup
    rw [superseded_update hx hid] at hsup
    change y.position = (file y.resourceId).length
    rcases fetch_of_update hy with ⟨rfl, rfl⟩ | ⟨hg, hy⟩
    · rw [hid] at hsup ⊢
      obtain ⟨ht, hposition⟩ := htorn ht
      rw [hself, hposition, List.length_append, h.position_eq _ x hx ht hsup]
    · -- bytes are added for the latest fetch of a resource, so this one is of another resource
      by_cases hr : y.resourceId = x.resourceId
      · have hnil : added = [] := by
          by_contra hne
          rcases superseded_of_ne hx hy hg hr with hs | hs
          · exact (hbytes hne).1 hs
          · exact hsup hs
        rw [hr, hself, hnil, List.append_nil, ← hr]
        exact h.position_eq g y hy ht hsup
      · rw [hother _ hr]
        exact h.position_eq g y hy ht hsup
  · intro g y n hy hn hc
    rcases fetch_of_update hy with ⟨rfl, rfl⟩ | ⟨-, hy⟩
    · rw [hid]
      exact h.opened _ x n hx (hfd ▸ hn) (hclosed ▸ hc)
    · exact h.opened g y n hy hn hc
  · intro g k y z n hy hz hyn hzn hyc hzc
    rcases fetch_of_update hy with ⟨rfl, rfl⟩ | ⟨-, hy'⟩
    · rcases fetch_of_update hz with ⟨rfl, -⟩ | ⟨-, hz'⟩
      · rfl
      · exact h.distinct _ k x z n hx hz' (hfd ▸ hyn) hzn (hclosed ▸ hyc) hzc
    · rcases fetch_of_update hz with ⟨rfl, rfl⟩ | ⟨-, hz'⟩
      · exact h.distinct g _ y x n hy' hx hyn (hfd ▸ hzn) hyc (hclosed ▸ hzc)
      · exact h.distinct g k y z n hy' hz' hyn hzn hyc hzc
  · intro g y hy hc
    rcases fetch_of_update hy with ⟨rfl, rfl⟩ | ⟨-, hy⟩
    · rw [hdisposed]
      exact h.closed_disposed _ x hx (hclosed ▸ hc)
    · exact h.closed_disposed g y hy hc
  · intro g y hy
    rcases fetch_of_update hy with ⟨rfl, rfl⟩ | ⟨-, hy⟩
    · exact h.lt_next _ x hx
    · exact h.lt_next g y hy

theorem Inv.link {resource : ρ → Bytes} {s : State ρ} (h : Inv resource s) {r : ρ}
    (hr : s.partialFile r = resource r) :
    Inv resource { s with complete := Function.update s.complete r true } where
  starts := h.starts
  whole q hq := by
    by_cases hqr : q = r
    · rw [hqr, hr]
    · exact h.whole q (by simpa [Function.update_of_ne hqr] using hq)
  position_le := h.position_le
  position_eq := h.position_eq
  opened := h.opened
  distinct := h.distinct
  closed_disposed := h.closed_disposed
  lt_next := h.lt_next

omit [DecidableEq ρ] in
theorem openPartial_eq (s : State ρ) (x : Fetch ρ) (handle : Option ℕ) :
    ∃ d, openPartial s x handle = ({ s with descriptors := d }, { x with fd := x.fd.or handle }) := by
  obtain ⟨r, p, fd, disposed, closed, torn⟩ := x
  cases fd with
  | some n => exact ⟨s.descriptors, rfl⟩
  | none =>
    cases handle with
    | none => exact ⟨s.descriptors, rfl⟩
    | some n => exact ⟨Function.update s.descriptors n (some r), rfl⟩

/-- A write goes to the fetch's own partial file where it writes anything. -/
theorem writeBytes_eq {s : State ρ} {n : ℕ} {data : Bytes} {written : ℕ} {r : ρ}
    (h : data.take written ≠ [] → s.descriptors n = some r) :
    writeBytes s n data written =
      { s with partialFile :=
          Function.update s.partialFile r (s.partialFile r ++ data.take written) } := by
  rw [writeBytes]
  by_cases hnil : data.take written = []
  · rw [hnil]
    split <;> simp
  · rw [h hnil]

theorem result_inv {resource : ρ → Bytes} {s : State ρ} (h : Inv resource s)
    {f length : ℕ} {complete : Bool} {handle : Option ℕ} {written : ℕ}
    (hpossible : Possible resource s (.result f length complete handle written))
    (hclean : Clean resource s (.result f length complete handle written)) :
    Inv resource (result resource s f length complete handle written) := by
  rw [result]
  rcases hx : s.fetches f with _ | x
  · exact h
  obtain ⟨hfree, hwritten, hend⟩ := hpossible x hx
  have hclean' := hclean x hx
  have hA := openPartial_inv h hx hfree
  obtain ⟨d, hopen⟩ := openPartial_eq s x handle
  rw [hopen] at hA
  simp only [hopen]
  have hdrop : x.piece resource length = ((resource x.resourceId).drop x.position).take length := rfl
  generalize x.piece resource length = data at hwritten hend hclean' hdrop ⊢
  rcases hfd : x.fd.or handle with _ | n
  · simp only [hfd] at hA ⊢
    -- without a descriptor nothing is written
    have hdeliver := hA.deliver (Function.update_self ..)
      { x with fd := none, position := x.position + data.length,
               torn := x.torn || decide (data ≠ []) }
      rfl rfl rfl rfl (List.take_zero).symm (by simp) (by
        intro ht
        simp only [Bool.or_eq_false_iff, decide_eq_false_iff_not, not_not] at ht
        exact ⟨ht.1, by simp [ht.2]⟩)
    simpa [Function.update_idem] using hdeliver
  · obtain ⟨hbytes, hcomplete⟩ := hclean' (by
      rcases hx' : x.fd with _ | m
      · exact .inr (by simpa [hx'] using congrArg Option.isSome hfd)
      · exact .inl rfl)
    simp only [hfd] at hA ⊢
    have hdescriptor : data.take written ≠ [] → d n = some x.resourceId := fun hne =>
      hA.opened f { x with fd := some n } n (Function.update_self ..) rfl (hbytes hne).1
    have hadded : data.take written =
        ((resource x.resourceId).drop x.position).take (min written length) := by
      rw [hdrop, List.take_take]
    have hlatest : data.take written ≠ [] →
        ¬ Superseded (Function.update s.fetches f (some { x with fd := some n })) f x.resourceId ∧
          x.torn = false := fun hne =>
      ⟨fun hs => (hbytes hne).2.1 ((superseded_update hx (by rfl) f _).1 hs), (hbytes hne).2.2⟩
    rw [writeBytes_eq hdescriptor]
    have hdeliver := hA.deliver (Function.update_self ..)
      { x with fd := some n, position := x.position + data.length,
               torn := x.torn || decide (written < data.length) }
      rfl rfl rfl rfl hadded hlatest (by
        intro ht
        simp only [Bool.or_eq_false_iff, decide_eq_false_iff_not, not_lt] at ht
        exact ⟨ht.1, by rw [List.take_of_length_le ht.2]⟩)
    simp only [Function.update_idem] at hdeliver
    split_ifs with hlink
    · -- all that was delivered is in the file, up to the end of the resource
      obtain ⟨htorn, hfull⟩ := hcomplete hlink
      have hle := hdeliver.position_le f _ (Function.update_self ..) (by simp [htorn, hfull])
      exact hdeliver.link
        ((hdeliver.starts x.resourceId).eq_of_length_le ((hend hlink).trans hle))
    · exact hdeliver

/-! ## Runs -/

theorem step_inv {resource : ρ → Bytes} (s : State ρ) (e : Event ρ) (h : Inv resource s)
    (hok : Possible resource s e ∧ Clean resource s e) : Inv resource (step resource s e) := by
  cases e with
  | fetchedResource subscriber r =>
    rw [step, fetchedResource]
    dsimp only
    split_ifs with hsize hdisposable
    · exact h
    · exact startFetch_inv (h.congr _ _) (hok.2 (not_not.1 hsize) hdisposable)
    · exact h.congr _ _
  | dispose subscriber r =>
    rw [step, dispose]
    dsimp only
    split_ifs with hempty
    · exact disposeContext_inv (h.congr _ _) r
    · exact h.congr _ _
  | cancelInteractiveResourceFetch r => exact disposeContext_inv h r
  | result f length complete handle written => exact result_inv h hok.1 hok.2
  | terminated f => exact disposeFetch_inv h f
  | restart => exact restart_inv h

/-- The cache holds true content: partial files are prefixes and complete files are whole. -/
structure TrueContent (resource : ρ → Bytes) (s : State ρ) : Prop where
  prefix_partial : ∀ r, s.partialFile r <+: resource r
  whole_complete : ∀ r, s.complete r → s.partialFile r = resource r

/-- A result of a fetch adds no bytes after a later fetch for the resource has taken its start. -/
def NoLateBytes (resource : ρ → Bytes) (s : State ρ) : Event ρ → Prop
  | .result f length complete handle written => ∀ x, s.fetches f = some x →
      Superseded s.fetches f x.resourceId →
      (result resource s f length complete handle written).partialFile = s.partialFile
  | _ => True

theorem noLateBytes_of_clean {resource : ρ → Bytes} {s : State ρ} {e : Event ρ}
    (hclean : Clean resource s e) : NoLateBytes resource s e := by
  cases e with
  | result f length complete handle written =>
    intro x hx hsup
    obtain ⟨d, hopen⟩ := openPartial_eq s x handle
    simp only [result, hx, hopen]
    rcases hfd : x.fd.or handle with _ | n
    · rfl
    have hnil : (x.piece resource length).take written = [] := by
      by_contra hne
      refine ((hclean x hx ?_).1 hne).2.1 hsup
      rcases hx' : x.fd with _ | m
      · exact .inr (by simpa [hx'] using congrArg Option.isSome hfd)
      · exact .inl rfl
    simp only [writeBytes_eq (r := x.resourceId) fun hne => absurd hnil hne, hnil,
      List.append_nil, Function.update_eq_self]
    split_ifs <;> rfl
  | _ => trivial

/-- In every run of clean steps the cache holds true content at every moment, and no fetch adds
bytes to a file after a later one for the resource has taken its start. -/
theorem mediaBox_true_content (resource : ρ → Bytes) {es : List (Event ρ)}
    (hrun : Run.AllSteps (step resource)
      (fun s e => Possible resource s e ∧ Clean resource s e) initial es) :
    TrueContent resource (Run.run (step resource) initial es) ∧
      Run.AllSteps (step resource)
        (fun s e => TrueContent resource s ∧ NoLateBytes resource s e) initial es := by
  have h := Run.invariant step_inv es (initial_inv resource) hrun
  exact ⟨⟨h.starts, h.whole⟩,
    hrun.of_invariant step_inv
      (fun s e hs hok => ⟨⟨hs.starts, hs.whole⟩, noLateBytes_of_clean hok.2⟩)
      (initial_inv resource)⟩

/-- A fetch is cut short by the system, and a new one goes on from what was written. -/
def resumed : List (Event Unit) :=
  [.fetchedResource 0 (), .result 0 2 false (some 3) 1, .dispose 0 (), .fetchedResource 1 (),
   .result 1 2 false (some 3) 2, .result 1 0 true none 0, .terminated 1]

theorem mediaBox_true_content_resumed :
    TrueContent (fun _ => [1, 2, 3]) (Run.run (step fun _ => [1, 2, 3]) initial resumed) ∧
      Run.AllSteps (step fun _ => [1, 2, 3])
        (fun s e => TrueContent (fun _ => [1, 2, 3]) s ∧ NoLateBytes (fun _ => [1, 2, 3]) s e)
        initial resumed := by
  refine mediaBox_true_content (fun _ => [1, 2, 3]) ⟨⟨trivial, fun _ _ => by decide⟩, ⟨?_, ?_⟩,
    ⟨trivial, trivial⟩, ⟨trivial, fun _ _ => by decide⟩, ⟨?_, ?_⟩, ⟨?_, ?_⟩,
    ⟨trivial, trivial⟩, trivial⟩
  · rintro x hx
    obtain rfl := Option.some.inj hx
    exact ⟨fun _ n _ => rfl, by decide, by simp⟩
  · rintro x hx -
    obtain rfl := Option.some.inj hx
    refine ⟨fun _ => ⟨rfl, ?_, rfl⟩, by simp⟩
    rintro ⟨_ | g, y, hg, hy, -⟩
    · exact absurd hg (by decide)
    · exact Option.some_ne_none y hy.symm
  · rintro x hx
    obtain rfl := Option.some.inj hx
    refine ⟨fun _ n hn => ?_, by decide, by simp⟩
    obtain rfl := Option.some.inj hn
    rfl
  · rintro x hx -
    obtain rfl := Option.some.inj hx
    refine ⟨fun _ => ⟨rfl, ?_, rfl⟩, by simp⟩
    rintro ⟨_ | _ | g, y, hg, hy, -⟩
    · exact absurd hg (by decide)
    · exact absurd hg (by decide)
    · exact Option.some_ne_none y hy.symm
  · rintro x hx
    obtain rfl := Option.some.inj hx
    exact ⟨fun _ n hn => by simp at hn, by decide, fun _ => by decide⟩
  · rintro x hx -
    obtain rfl := Option.some.inj hx
    exact ⟨fun hne => absurd rfl hne, fun _ => ⟨by decide, by decide⟩⟩

/-- A disposed fetch's result runs after the next fetch has started at offset 0. -/
def late : List (Event Unit) :=
  [.fetchedResource 0 (), .dispose 0 (), .fetchedResource 1 (), .result 0 2 false (some 3) 2,
   .result 1 2 false (some 4) 2]

/-- Half a piece is written, and the fetch goes on to the end. -/
def torn : List (Event Unit) :=
  [.fetchedResource 0 (), .result 0 2 false (some 3) 1, .result 0 1 true none 1]

theorem late_possible :
    Run.AllSteps (step fun _ => [1, 2, 3]) (Possible fun _ => [1, 2, 3]) initial late := by
  refine ⟨trivial, trivial, trivial, ?_, ?_, trivial⟩
  · rintro x hx
    obtain rfl := Option.some.inj hx
    exact ⟨fun _ n _ => rfl, by decide, by simp⟩
  · rintro x hx
    obtain rfl := Option.some.inj hx
    refine ⟨fun _ n hn => ?_, by decide, by simp⟩
    obtain rfl := Option.some.inj hn
    rfl

theorem torn_possible :
    Run.AllSteps (step fun _ => [1, 2, 3]) (Possible fun _ => [1, 2, 3]) initial torn := by
  refine ⟨trivial, ?_, ?_, trivial⟩
  · rintro x hx
    obtain rfl := Option.some.inj hx
    exact ⟨fun _ n _ => rfl, by decide, by simp⟩
  · rintro x hx
    obtain rfl := Option.some.inj hx
    exact ⟨fun _ n hn => by simp at hn, by decide, fun _ => by decide⟩

/-- The file repeats its beginning after the late result, and after the short write a complete
file lacks a byte. -/
theorem mediaBox_false_content :
    (Run.AllSteps (step fun _ => [1, 2, 3]) (Possible fun _ => [1, 2, 3]) initial late ∧
        ¬ TrueContent (fun _ => [1, 2, 3]) (Run.run (step fun _ => [1, 2, 3]) initial late)) ∧
      Run.AllSteps (step fun _ => [1, 2, 3]) (Possible fun _ => [1, 2, 3]) initial torn ∧
        ¬ TrueContent (fun _ => [1, 2, 3]) (Run.run (step fun _ => [1, 2, 3]) initial torn) := by
  refine ⟨⟨late_possible, fun h => ?_⟩, torn_possible, fun h => ?_⟩
  · exact absurd (h.prefix_partial ()) (by decide)
  · exact absurd (h.whole_complete () rfl) (by decide)

end MediaBox

end Onegram
