import Onegram.Proofs.Stun

/-!
# What decides about a binding message

Integrity covers a message through its MESSAGE-INTEGRITY attribute, but every other lookup reads the
whole body. So an attribute that does not stand before the integrity can be put after it, and the
decision is a function of the covered bytes only where everything it needs stands before.
-/

namespace Onegram.Stun

open Bytes

/-- The most that a received datagram can carry, after its header and that of DATA. -/
def largestPayload : ℕ := 4096 - 24

/-- What is decided about a binding message: whether it is taken as a request and as a response in
the probe, whether it nominates, and whether it is taken as a request later on. -/
structure IceDecision where
  request : Bool
  response : Bool
  nomination : Bool
  persistentRequest : Bool
  deriving DecidableEq

section

variable (hmacSha1 : Bytes → Bytes → Vector UInt8 20) (c : IceCredentials) (controlling : Bool)

def iceDecision (m : Bytes) : IceDecision :=
  let isRequest : Bool := read16 m 0 = bindingRequest
  { request := isRequest && (judgeRequest hmacSha1 c m).accepted
    response := acceptsResponse hmacSha1 c m
    nomination := isRequest && nominates controlling (judgeRequest hmacSha1 c m)
    persistentRequest := isRequest && (judgePersistentRequest hmacSha1 c m).accepted }

/-- The same bytes up to `e`, the declared length aside, and a body that reaches there. -/
structure SameThrough (e : ℕ) (m m' : Bytes) : Prop where
  reaches : e ≤ bodyEnd m'
  type : SameBytes m m' 0 2
  body : SameBytes m m' 4 e

/-- The value of an attribute that stands before `e`. -/
def coveredValue (m : Bytes) (e w : ℕ) : Option Bytes := (findFrom m e w 20).map (valueAt m)

/-- The attributes of a nomination that do not stand before `e`. -/
def uncovered (m : Bytes) (e : ℕ) : List ℕ :=
  [attrUseCandidate, attrIceControlling].filter fun w => (coveredValue m e w).isNone

/-- The bytes up to `e` settle what is decided: they hold the attributes that an accepted request
needs, or there is no room for these after them. -/
def CoversDecision (m : Bytes) (e : ℕ) : Prop :=
  read16 m 0 = bindingRequest → verifyShortTermIntegrity hmacSha1 m c.localPassword →
    match coveredValue m e attrUsername with
    | none => largestPayload < e + 4 + c.expectedUsername.length
    | some username => username = c.expectedUsername → controlling = false →
      uncovered m e = [] ∨ largestPayload < e + 4 * (uncovered m e).length

end

variable {hmacSha1 : Bytes → Bytes → Vector UInt8 20} {c : IceCredentials} {controlling : Bool}
  {m m' : Bytes} {v w : ℕ}

/-! ## Messages that agree through their integrity -/

/-- The integrity attribute of a message stands in its body, at a multiple of 4. -/
structure IntegrityAt (v : ℕ) (m : Bytes) : Prop where
  after : 24 ≤ v
  aligned : v % 4 = 0
  inside : v + 20 ≤ bodyEnd m
  found : findFrom m (v + 20) attrMessageIntegrity 20 = some (v, 20)

theorem bodyEnd_le (m : Bytes) : bodyEnd m ≤ m.length := min_le_right _ _

theorem integrityAt_of_found (h : findAttribute m attrMessageIntegrity = some (v, 20)) :
    IntegrityAt v m := by
  unfold findAttribute at h
  split_ifs at h
  obtain ⟨hafter, hinside, haligned, -⟩ := findFrom_some h
  have haligned := haligned rfl
  refine ⟨hafter, haligned, hinside, ?_⟩
  have hsplit := findFrom_split (by omega) h attrMessageIntegrity
  rw [h] at hsplit
  rcases hbefore : findFrom m (v + 20) attrMessageIntegrity 20 with _ | ⟨v', n'⟩
  · -- after the integrity nothing is found at its place
    rw [hbefore, Option.none_or] at hsplit
    have := findFrom_some hsplit.symm
    omega
  · rw [hbefore, Option.some_or] at hsplit
    exact hsplit.symm

theorem IntegrityAt.find (h : IntegrityAt v m) :
    findFrom m (bodyEnd m) attrMessageIntegrity 20 = some (v, 20) :=
  findFrom_mono h.inside h.found

theorem IntegrityAt.findAttribute (h : IntegrityAt v m) (w : ℕ) :
    findAttribute m w = (findFrom m (v + 20) w 20).or (findFrom m (bodyEnd m) w (v + 20)) := by
  have := bodyEnd_le m
  have := h.inside
  have hv := h.aligned
  rw [Stun.findAttribute, if_neg (by omega), findFrom_split (by omega) h.find w]

theorem SameThrough.refl (h : IntegrityAt v m) : SameThrough (v + 20) m m :=
  ⟨h.inside, fun _ _ _ => rfl, fun _ _ _ => rfl⟩

theorem SameThrough.from (h : SameThrough (v + 20) m m') : SameBytes m m' 20 (v + 20) :=
  fun i hi => h.body i (by omega)

theorem SameThrough.integrityAt (h : SameThrough (v + 20) m m') (hm : IntegrityAt v m) :
    IntegrityAt v m' :=
  ⟨hm.after, hm.aligned, h.reaches, by rw [findFrom_congr h.from, hm.found]⟩

/-- An attribute is the one before the end of the integrity, or else one after it. -/
theorem SameThrough.attributeValue (h : SameThrough (v + 20) m m') (hm : IntegrityAt v m) (w : ℕ) :
    attributeValue m' w = (coveredValue m (v + 20) w).or
      ((findFrom m' (bodyEnd m') w (v + 20)).map (valueAt m')) := by
  have hlen : v + 20 ≤ m.length := hm.inside.trans (bodyEnd_le m)
  have hlen' : v + 20 ≤ m'.length := h.reaches.trans (bodyEnd_le m')
  rw [Stun.attributeValue, (h.integrityAt hm).findAttribute, findFrom_congr h.from, coveredValue]
  rcases hfind : findFrom m (v + 20) w 20 with _ | ⟨v', n'⟩
  · rfl
  · obtain ⟨hafter, hinside, -⟩ := findFrom_some hfind
    simp only [Option.some_or, Option.map_some]
    rw [h.from.valueAt hlen hlen' (by omega) hinside]

/-- A value found after the integrity takes room there. -/
theorem room_of_found {e n : ℕ} (h : findFrom m' (bodyEnd m') w e = some (v, n)) :
    e + 4 + n ≤ m'.length := by
  obtain ⟨hafter, hinside, -⟩ := findFrom_some h
  have := bodyEnd_le m'
  omega

theorem setStunLength_congr {a b : Bytes} (hlen : a.length = b.length)
    (h : ∀ i, i < 2 ∨ 4 ≤ i → a[i]? = b[i]?) (n : ℕ) :
    setStunLength a n = setStunLength b n := by
  apply List.ext_getElem?
  intro i
  simp only [setStunLength, List.getElem?_set, List.length_set, hlen]
  split_ifs with h₁ h₂ h₃
  all_goals first
    | rfl
    | exact h i (by omega)

theorem SameThrough.verify (h : SameThrough (v + 20) m m') (hm : IntegrityAt v m)
    (password : Bytes) :
    verifyShortTermIntegrity hmacSha1 m' password =
      verifyShortTermIntegrity hmacSha1 m password := by
  have hlen : v + 20 ≤ m.length := hm.inside.trans (bodyEnd_le m)
  have hlen' : v + 20 ≤ m'.length := h.reaches.trans (bodyEnd_le m')
  have hafter := hm.after
  have hfound : ∀ {m : Bytes}, IntegrityAt v m →
      findAttribute m attrMessageIntegrity = some (v, 20) := by
    intro m hm
    rw [hm.findAttribute, hm.found, Option.some_or]
  have hbefore : ∀ n, setStunLength (m'.take (v - 4)) n = setStunLength (m.take (v - 4)) n := by
    refine setStunLength_congr (by simp; omega) fun i hi => ?_
    simp only [List.getElem?_take]
    split_ifs with hbelow
    · have : m'.getD i 0 = m.getD i 0 := by
        rcases hi with hi | hi
        · exact h.type i (by omega) hi
        · exact h.body i hi (by omega)
      rw [List.getD_eq_getElem _ _ (by omega), List.getD_eq_getElem _ _ (by omega)] at this
      rw [List.getElem?_eq_getElem (by omega), List.getElem?_eq_getElem (by omega), this]
    · rfl
  have hvalue : (m'.drop v).take 20 = (m.drop v).take 20 :=
    h.from.valueAt hlen hlen' (by omega) le_rfl
  have hinside : ¬ (v < 24 ∨ v > m.length) := by omega
  have hinside' : ¬ (v < 24 ∨ v > m'.length) := by omega
  unfold verifyShortTermIntegrity
  rw [hfound hm, hfound (h.integrityAt hm)]
  simp only [hbefore, hvalue, hinside, hinside', if_false]

/-! ## Adding attributes -/

/-- A message cut after `e`, with other attributes from there on. -/
def extend (m : Bytes) (e : ℕ) (l : List (ℕ × Bytes)) : Bytes :=
  setStunLength (m.take e) (e - 20 + (encodeAttributes l).length) ++ encodeAttributes l

section Extend

variable {l : List (ℕ × Bytes)}

theorem bodyEnd_extend (hm : IntegrityAt v m)
    (hsize : v + 20 + (encodeAttributes l).length ≤ largestPayload) :
    bodyEnd (extend m (v + 20) l) = v + 20 + (encodeAttributes l).length := by
  have hlen : v + 20 ≤ m.length := hm.inside.trans (bodyEnd_le m)
  have htake : (m.take (v + 20)).length = v + 20 := by simp [hlen]
  unfold largestPayload at hsize
  have := bodyEnd_setStunLength (m := m.take (v + 20)) (q := encodeAttributes l) (by omega)
    (by omega)
  rwa [htake] at this

theorem length_extend (hm : IntegrityAt v m) :
    (extend m (v + 20) l).length = v + 20 + (encodeAttributes l).length := by
  have hlen : v + 20 ≤ m.length := hm.inside.trans (bodyEnd_le m)
  simp [extend, hlen]

theorem sameThrough_extend (hm : IntegrityAt v m)
    (hsize : v + 20 + (encodeAttributes l).length ≤ largestPayload) :
    SameThrough (v + 20) m (extend m (v + 20) l) := by
  have hlen : v + 20 ≤ m.length := hm.inside.trans (bodyEnd_le m)
  have hget : ∀ i, i < v + 20 → i < 2 ∨ 4 ≤ i →
      (extend m (v + 20) l).getD i 0 = m.getD i 0 := by
    intro i hi hother
    rw [extend, List.getD_append _ _ _ _ (by simp; omega), setStunLength]
    simp only [List.getD_eq_getElem?_getD, List.getElem?_set, List.getElem?_take]
    rw [if_neg (by omega), if_neg (by omega), if_pos hi]
  refine ⟨by rw [bodyEnd_extend hm hsize]; omega, fun i _ hi => ?_, fun i hi hi' => ?_⟩
  · exact hget i (by omega) (.inl hi)
  · exact hget i hi' (.inr hi)

/-- The attributes of an extended message are those before the cut and then the new ones. -/
theorem attributeValue_extend (hm : IntegrityAt v m) (hl : Encodable l)
    (hsize : v + 20 + (encodeAttributes l).length ≤ largestPayload) (w : ℕ) :
    attributeValue (extend m (v + 20) l) w =
      (coveredValue m (v + 20) w).or ((l.find? (·.1 = w)).map (·.2)) := by
  have hlen : v + 20 ≤ m.length := hm.inside.trans (bodyEnd_le m)
  have haligned := hm.aligned
  have hcut : (setStunLength (m.take (v + 20))
      (v + 20 - 20 + (encodeAttributes l).length)).length = v + 20 := by simp [hlen]
  have hlookup := lookup_encode hl (p := setStunLength (m.take (v + 20))
    (v + 20 - 20 + (encodeAttributes l).length)) (by rw [hcut]; omega) w
  rw [hcut] at hlookup
  rw [(sameThrough_extend hm hsize).attributeValue hm, bodyEnd_extend hm hsize, extend, hlookup]

end Extend

/-! ## What is decided -/

theorem judgeRequest_accepted : (judgeRequest hmacSha1 c m).accepted =
    (decide (attributeValue m attrUsername = some c.expectedUsername) &&
      verifyShortTermIntegrity hmacSha1 m c.localPassword) := by
  have hne : c.expectedUsername ≠ [] := by simp [IceCredentials.expectedUsername]
  simp only [judgeRequest, RequestVerdict.accepted]
  rcases attributeValue m attrUsername with _ | username
  · simp [hne.symm]
  · by_cases h : username = c.expectedUsername <;> simp [h]

theorem hasAttribute_eq (m : Bytes) (w : ℕ) : hasAttribute m w = (attributeValue m w).isSome := by
  simp [hasAttribute, attributeValue]

/-- A decision that only depends on the user name, the attributes of a nomination and what the
integrity covers. -/
theorem iceDecision_eq (hm : IntegrityAt v m) (h : SameThrough (v + 20) m m') :
    iceDecision hmacSha1 c controlling m' =
      let accepted := decide (read16 m 0 = bindingRequest) &&
        (decide (attributeValue m' attrUsername = some c.expectedUsername) &&
          verifyShortTermIntegrity hmacSha1 m c.localPassword)
      { request := accepted
        response := acceptsResponse hmacSha1 c m
        nomination := accepted && !controlling && (attributeValue m' attrIceControlling).isSome &&
          (attributeValue m' attrUseCandidate).isSome
        persistentRequest := accepted && !c.localPassword.isEmpty } := by
  have htype : read16 m' 0 = read16 m 0 := h.type.read16 le_rfl le_rfl
  have hcontrolling : (judgeRequest hmacSha1 c m').peerControlling =
      (attributeValue m' attrIceControlling).isSome := hasAttribute_eq _ _
  have huse : (judgeRequest hmacSha1 c m').useCandidate =
      (attributeValue m' attrUseCandidate).isSome := hasAttribute_eq _ _
  have hpersistent : (judgePersistentRequest hmacSha1 c m').accepted =
      (decide (attributeValue m' attrUsername = some c.expectedUsername) &&
        (!c.localPassword.isEmpty && verifyShortTermIntegrity hmacSha1 m c.localPassword)) := by
    rw [← h.verify hm]
    rfl
  simp only [iceDecision, nominates, judgeRequest_accepted, hpersistent, acceptsResponse, htype,
    hcontrolling, huse, h.verify hm, IceDecision.mk.injEq, true_and]
  refine ⟨by simp only [Bool.and_assoc], ?_⟩
  simp only [Bool.and_assoc, Bool.and_comm (!c.localPassword.isEmpty)]

/-- An attribute that does not stand before the integrity needs room after it. -/
theorem room_of_attributeValue (hm : IntegrityAt v m) (h : SameThrough (v + 20) m m')
    (huncovered : coveredValue m (v + 20) w = none) {value : Bytes}
    (hvalue : attributeValue m' w = some value) :
    ∃ v' n, findFrom m' (bodyEnd m') w (v + 20) = some (v', n) ∧ value.length = n := by
  rw [h.attributeValue hm, huncovered, Option.none_or] at hvalue
  obtain ⟨⟨v', n⟩, hfind, rfl⟩ := Option.map_eq_some_iff.1 hvalue
  obtain ⟨-, hinside, -⟩ := findFrom_some hfind
  have := bodyEnd_le m'
  exact ⟨v', n, hfind, by simp [valueAt]; omega⟩

/-- Two attributes after the integrity stand at different places. -/
theorem room_of_two (hm : IntegrityAt v m) {w' : ℕ} (hne : w ≠ w') {v₁ n₁ v₂ n₂ : ℕ}
    (h₁ : findFrom m' (bodyEnd m') w (v + 20) = some (v₁, n₁))
    (h₂ : findFrom m' (bodyEnd m') w' (v + 20) = some (v₂, n₂)) : v + 20 + 8 ≤ m'.length := by
  have haligned := hm.aligned
  obtain ⟨hafter₁, hinside₁, hmod₁, htype₁⟩ := findFrom_some h₁
  obtain ⟨hafter₂, hinside₂, hmod₂, htype₂⟩ := findFrom_some h₂
  have := bodyEnd_le m'
  have hdiff : v₁ ≠ v₂ := fun heq => hne (by rw [← htype₁, ← htype₂, heq])
  have := hmod₁ (by omega)
  have := hmod₂ (by omega)
  omega

theorem covered_isSome (hm : IntegrityAt v m) (h : SameThrough (v + 20) m m') {username : Bytes}
    (hcovered : coveredValue m (v + 20) w = some username) :
    attributeValue m' w = some username := by
  rw [h.attributeValue hm, hcovered, Option.some_or]

theorem mem_uncovered {e : ℕ} : w ∈ uncovered m e ↔
    (w = attrUseCandidate ∨ w = attrIceControlling) ∧ coveredValue m e w = none := by
  simp [uncovered]

/-- Without room for what is missing, a message does not nominate. -/
theorem not_nominated (hm : IntegrityAt v m) (h : SameThrough (v + 20) m m')
    (hlen : m'.length ≤ largestPayload) (hne : uncovered m (v + 20) ≠ [])
    (hroom : largestPayload < v + 20 + 4 * (uncovered m (v + 20)).length) :
    ((attributeValue m' attrIceControlling).isSome && (attributeValue m' attrUseCandidate).isSome)
      = false := by
  by_contra hboth
  simp only [Bool.and_eq_false_iff, not_or, Bool.not_eq_false, Option.isSome_iff_exists] at hboth
  obtain ⟨⟨value₁, h₁⟩, ⟨value₂, h₂⟩⟩ := hboth
  rcases hcontrolling : coveredValue m (v + 20) attrIceControlling with _ | value
  · obtain ⟨v₁, n₁, hfound₁, -⟩ := room_of_attributeValue hm h hcontrolling h₁
    have := room_of_found hfound₁
    rcases huse : coveredValue m (v + 20) attrUseCandidate with _ | value
    · obtain ⟨v₂, n₂, hfound₂, -⟩ := room_of_attributeValue hm h huse h₂
      have := room_of_two hm (by decide) hfound₁ hfound₂
      simp only [uncovered, List.filter_cons, huse, hcontrolling, List.filter_nil,
        Option.isNone_none, if_true, List.length_cons, List.length_nil] at hroom
      omega
    · simp only [uncovered, List.filter_cons, huse, hcontrolling, List.filter_nil,
        Option.isNone_none, Option.isNone_some, if_true, Bool.false_eq_true, if_false,
        List.length_cons, List.length_nil] at hroom
      omega
  · rcases huse : coveredValue m (v + 20) attrUseCandidate with _ | value
    · obtain ⟨v₂, n₂, hfound₂, -⟩ := room_of_attributeValue hm h huse h₂
      have := room_of_found hfound₂
      simp only [uncovered, List.filter_cons, huse, hcontrolling, List.filter_nil,
        Option.isNone_none, Option.isNone_some, if_true, Bool.false_eq_true, if_false,
        List.length_cons, List.length_nil] at hroom
      omega
    · exact hne (by simp [uncovered, huse, hcontrolling])

/-- Where the condition holds, the decision is that of the covered bytes. -/
theorem decision_of_covers (hm : IntegrityAt v m) (hlen : m.length ≤ largestPayload)
    (hcovers : CoversDecision hmacSha1 c controlling m (v + 20))
    (hlen' : m'.length ≤ largestPayload) (h : SameThrough (v + 20) m m') :
    iceDecision hmacSha1 c controlling m' = iceDecision hmacSha1 c controlling m := by
  have hrefl := SameThrough.refl hm
  rw [iceDecision_eq hm h, iceDecision_eq hm hrefl]
  by_cases htype : read16 m 0 = bindingRequest
  swap
  · simp [htype]
  by_cases hverify : verifyShortTermIntegrity hmacSha1 m c.localPassword
  swap
  · simp [hverify]
  have hcovers := hcovers htype hverify
  rcases husername : coveredValue m (v + 20) attrUsername with _ | username <;>
    rw [husername] at hcovers
  · -- no message with these bytes has room for the user name
    have hno : ∀ {m' : Bytes}, SameThrough (v + 20) m m' → m'.length ≤ largestPayload →
        attributeValue m' attrUsername ≠ some c.expectedUsername := by
      intro m' h hlen' hvalue
      obtain ⟨v', n, hfound, hn⟩ := room_of_attributeValue hm h husername hvalue
      have := room_of_found hfound
      simp only [] at hcovers
      omega
    simp [hno h hlen', hno hrefl hlen]
  · simp only [] at hcovers
    rw [covered_isSome hm h husername, covered_isSome hm hrefl husername]
    by_cases heq : username = c.expectedUsername
    swap
    · simp [heq]
    rcases hcontrolling : controlling with _ | _
    · rcases hcovers heq hcontrolling with hnone | hroom
      · -- both attributes of a nomination stand before the integrity
        have hsome : ∀ {w : ℕ} {m' : Bytes}, w = attrUseCandidate ∨ w = attrIceControlling →
            SameThrough (v + 20) m m' → (attributeValue m' w).isSome = true := by
          intro w m' hw h
          rcases hcovered : coveredValue m (v + 20) w with _ | value
          · have : w ∈ uncovered m (v + 20) := mem_uncovered.2 ⟨hw, hcovered⟩
            simp [hnone] at this
          · simp [covered_isSome hm h hcovered]
        rw [hsome (.inl rfl) h, hsome (.inl rfl) hrefl, hsome (.inr rfl) h,
          hsome (.inr rfl) hrefl]
      · by_cases hne : uncovered m (v + 20) = []
        · rw [hne] at hroom
          have := hm.inside.trans (bodyEnd_le m)
          simp only [List.length_nil] at hroom
          omega
        · simp only [Bool.and_assoc, not_nominated hm h hlen' hne hroom,
            not_nominated hm hrefl hlen hne hroom]
    · simp

theorem encodable_missing (l : List ℕ) (hl : ∀ w ∈ l, w < 65536) :
    Encodable (l.map fun w => (w, [])) := by
  intro a ha
  obtain ⟨w, hw, rfl⟩ := List.mem_map.1 ha
  exact ⟨hl w hw, by simp⟩

theorem length_encode_missing : ∀ l : List ℕ,
    (encodeAttributes (l.map fun w => (w, []))).length = 4 * l.length
  | [] => rfl
  | w :: l => by
    have := length_encode_missing l
    simp only [List.map_cons, encodeAttributes, List.flatMap_cons, List.length_append,
      length_encodeAttribute, List.length_nil, align4, List.length_cons] at this ⊢
    omega

/-- Where the condition fails, two messages with the covered bytes are decided differently. -/
theorem covers_of_decision (hm : IntegrityAt v m)
    (hsame : ∀ m', m'.length ≤ largestPayload → SameThrough (v + 20) m m' →
      iceDecision hmacSha1 c controlling m' = iceDecision hmacSha1 c controlling m) :
    CoversDecision hmacSha1 c controlling m (v + 20) := by
  have haligned := hm.aligned
  intro htype hverify
  have hextend : ∀ {l : List (ℕ × Bytes)}, v + 20 + (encodeAttributes l).length ≤ largestPayload →
      iceDecision hmacSha1 c controlling (extend m (v + 20) l) =
        iceDecision hmacSha1 c controlling m := fun hsize =>
    hsame _ (by rw [length_extend hm]; exact hsize) (sameThrough_extend hm hsize)
  rcases husername : coveredValue m (v + 20) attrUsername with _ | username <;> simp only []
  · by_contra hroom
    have hl : Encodable [(attrUsername, c.expectedUsername)] := by
      intro a ha
      obtain rfl := List.mem_singleton.1 ha
      unfold largestPayload at hroom
      exact ⟨(by decide : attrUsername < 65536),
        (by omega : c.expectedUsername.length < 65536)⟩
    have hsize : v + 20 + (encodeAttributes [(attrUsername, c.expectedUsername)]).length ≤
        largestPayload := by
      unfold largestPayload at hroom ⊢
      simp only [encodeAttributes, List.flatMap_cons, List.flatMap_nil, List.append_nil,
        length_encodeAttribute, align4]
      omega
    have hcut : v + 20 + (encodeAttributes []).length ≤ largestPayload := by
      simp only [encodeAttributes, List.flatMap_nil, List.length_nil]
      omega
    -- without the user name the request is refused, with it added it is taken
    have hdiff := (hextend hsize).trans (hextend hcut).symm
    rw [iceDecision_eq hm (sameThrough_extend hm hsize),
      iceDecision_eq hm (sameThrough_extend hm hcut), attributeValue_extend hm hl hsize,
      attributeValue_extend hm (fun _ h => by simp at h) hcut, husername] at hdiff
    simp [htype, hverify] at hdiff
  · intro heq hcontrolling
    by_contra hno
    simp only [not_or, not_lt] at hno
    obtain ⟨hne, hroom⟩ := hno
    have hl : Encodable ((uncovered m (v + 20)).map fun w => (w, [])) :=
      encodable_missing _ fun w hw => by
        rcases (mem_uncovered.1 hw).1 with rfl | rfl <;> decide
    have hsize : v + 20 + (encodeAttributes ((uncovered m (v + 20)).map fun w => (w, []))).length
        ≤ largestPayload := by
      rw [length_encode_missing]
      exact hroom
    have hcut : v + 20 + (encodeAttributes []).length ≤ largestPayload := by
      simp only [encodeAttributes, List.flatMap_nil, List.length_nil]
      omega
    have hsome : ∀ w, w = attrUseCandidate ∨ w = attrIceControlling →
        (attributeValue (extend m (v + 20) ((uncovered m (v + 20)).map fun w => (w, []))) w).isSome
          = true := by
      intro w hw
      rw [attributeValue_extend hm hl hsize]
      rcases hcovered : coveredValue m (v + 20) w with _ | value
      · have hmem : w ∈ uncovered m (v + 20) := mem_uncovered.2 ⟨hw, hcovered⟩
        simpa using hmem
      · rfl
    obtain ⟨w, hw⟩ := List.exists_mem_of_ne_nil _ hne
    obtain ⟨hwtype, hwnone⟩ := mem_uncovered.1 hw
    have hnone : attributeValue (extend m (v + 20) []) w = none := by
      rw [attributeValue_extend hm (fun _ h => by simp at h) hcut, hwnone]
      rfl
    -- cut after the integrity the request does not nominate, with the rest added it does
    have hdiff := congrArg IceDecision.nomination ((hextend hsize).trans (hextend hcut).symm)
    rw [iceDecision_eq hm (sameThrough_extend hm hsize),
      iceDecision_eq hm (sameThrough_extend hm hcut)] at hdiff
    simp only [covered_isSome hm (sameThrough_extend hm hsize) husername,
      covered_isSome hm (sameThrough_extend hm hcut) husername, heq, htype, hverify, hcontrolling,
      hsome _ (.inl rfl), hsome _ (.inr rfl), decide_true, Bool.and_true, Bool.not_false,
      Bool.true_and] at hdiff
    rcases hwtype with rfl | rfl <;> simp [hnone] at hdiff

/-- What is decided about a message is a function of its covered bytes if and only if these hold
what the decision needs, or leave no room for it. -/
theorem decision_covered_iff (hmacSha1 : Bytes → Bytes → Vector UInt8 20) (c : IceCredentials)
    (controlling : Bool) {m : Bytes} {v : ℕ} (hlen : m.length ≤ largestPayload)
    (hfound : findAttribute m attrMessageIntegrity = some (v, 20)) :
    (∀ m', m'.length ≤ largestPayload → SameThrough (v + 20) m m' →
      iceDecision hmacSha1 c controlling m' = iceDecision hmacSha1 c controlling m) ↔
      CoversDecision hmacSha1 c controlling m (v + 20) :=
  have hm := integrityAt_of_found hfound
  ⟨covers_of_decision hm, fun hcovers _ hlen' h => decision_of_covers hm hlen hcovers hlen' h⟩

/-! ## A nomination put after the integrity -/

def sampleCredentials : IceCredentials := ⟨[108], [112], [114], [113]⟩

def sampleAttributes : List (ℕ × Bytes) :=
  [(attrUsername, [108, 58, 114]), (attrIceControlling, [0, 0, 0, 0, 0, 0, 0, 1])]

/-- A request of the controlling side that does not nominate. -/
def sampleRequest (hmacSha1 : Bytes → Bytes → Vector UInt8 20) : Bytes :=
  stunMessage bindingRequest (zeros 12)
    (signedAttributes hmacSha1 bindingRequest (zeros 12) [112] sampleAttributes)

theorem sampleAttributes_encodable : Encodable sampleAttributes := by
  intro a ha
  simp only [sampleAttributes, List.mem_cons, List.not_mem_nil, or_false] at ha
  rcases ha with rfl | rfl <;> exact ⟨by decide, by simp⟩

theorem sampleRequest_signed (hmacSha1 : Bytes → Bytes → Vector UInt8 20) :
    findAttribute (sampleRequest hmacSha1) attrMessageIntegrity = some (44, 20) ∧
      verifyShortTermIntegrity hmacSha1 (sampleRequest hmacSha1) [112] = true := by
  have := @verify_signed hmacSha1 bindingRequest (zeros 12) [112] sampleAttributes []
    sampleAttributes_encodable (by decide) (by decide)
  rwa [List.append_nil] at this

theorem attributeValue_sampleRequest (hmacSha1 : Bytes → Bytes → Vector UInt8 20) {w : ℕ}
    (hw : w ≠ attrMessageIntegrity) : attributeValue (sampleRequest hmacSha1) w =
      (sampleAttributes.find? (·.1 = w)).map (·.2) := by
  have hl : Encodable (signedAttributes hmacSha1 bindingRequest (zeros 12) [112]
      sampleAttributes) := by
    intro a ha
    rcases List.mem_append.1 ha with ha | ha
    · exact sampleAttributes_encodable a ha
    · obtain rfl := List.mem_singleton.1 ha
      exact ⟨(by decide : attrMessageIntegrity < 65536), by simp⟩
  rw [sampleRequest, attributeValue_stunMessage hl, signedAttributes, List.find?_append]
  · simp [hw.symm]
  · simp [signedAttributes, encodeAttributes, length_encodeAttribute, sampleAttributes, align4]

theorem bodyEnd_sampleRequest (hmacSha1 : Bytes → Bytes → Vector UInt8 20) :
    bodyEnd (sampleRequest hmacSha1) = 64 := by
  have hlen : (encodeAttributes (signedAttributes hmacSha1 bindingRequest (zeros 12) [112]
      sampleAttributes)).length = 44 := by
    simp [signedAttributes, encodeAttributes, length_encodeAttribute, sampleAttributes, align4]
  have := bodyEnd_setStunLength (m := makeStunHeader bindingRequest (zeros 12))
    (q := encodeAttributes (signedAttributes hmacSha1 bindingRequest (zeros 12) [112]
      sampleAttributes)) (by simp) (by simp [hlen])
  simpa [sampleRequest, stunMessage, hlen] using this

/-- Where a message ends with its integrity, all its attributes are covered. -/
theorem coveredValue_of_end (hm : IntegrityAt v m) (hend : bodyEnd m = v + 20) (w : ℕ) :
    coveredValue m (v + 20) w = attributeValue m w := by
  rw [(SameThrough.refl hm).attributeValue hm, hend, findFrom_end (by omega), Option.map_none,
    Option.or_none]

/-- An attribute behind the integrity nominates, whatever the hash. -/
theorem extended_request_nominates (hmacSha1 : Bytes → Bytes → Vector UInt8 20) :
    findAttribute (sampleRequest hmacSha1) attrMessageIntegrity = some (44, 20) ∧
      SameThrough 64 (sampleRequest hmacSha1)
        (extend (sampleRequest hmacSha1) 64 [(attrUseCandidate, [])]) ∧
      (iceDecision hmacSha1 sampleCredentials false (sampleRequest hmacSha1)).nomination = false ∧
      (iceDecision hmacSha1 sampleCredentials false
        (extend (sampleRequest hmacSha1) 64 [(attrUseCandidate, [])])).nomination = true := by
  obtain ⟨hfound, hverify⟩ := sampleRequest_signed hmacSha1
  have hm : IntegrityAt 44 (sampleRequest hmacSha1) := integrityAt_of_found hfound
  have hsize : 44 + 20 + (encodeAttributes [(attrUseCandidate, [])]).length ≤ largestPayload := by
    decide
  have hl : Encodable [(attrUseCandidate, [])] := encodable_missing [attrUseCandidate] (by decide)
  have hsame : SameThrough (44 + 20) (sampleRequest hmacSha1)
      (extend (sampleRequest hmacSha1) (44 + 20) [(attrUseCandidate, [])]) :=
    sameThrough_extend hm hsize
  have htype : read16 (sampleRequest hmacSha1) 0 = bindingRequest := by
    simp [sampleRequest, stunMessage, read16, setStunLength, makeStunHeader, bytesBE,
      bindingRequest]
  have husername := attributeValue_sampleRequest hmacSha1 (w := attrUsername) (by decide)
  have hcontrolling := attributeValue_sampleRequest hmacSha1 (w := attrIceControlling) (by decide)
  have huse := attributeValue_sampleRequest hmacSha1 (w := attrUseCandidate) (by decide)
  have hcovered := fun w => coveredValue_of_end hm (bodyEnd_sampleRequest hmacSha1) w
  refine ⟨hfound, hsame, ?_, ?_⟩
  · rw [iceDecision_eq hm (SameThrough.refl hm), huse]
    simp [sampleAttributes, attrUseCandidate, attrUsername, attrIceControlling]
  · rw [iceDecision_eq hm hsame, attributeValue_extend hm hl hsize,
      attributeValue_extend hm hl hsize, attributeValue_extend hm hl hsize, hcovered, hcovered,
      hcovered, husername, hcontrolling, huse]
    simp only [htype, show sampleCredentials.localPassword = [112] from rfl, hverify]
    decide

theorem length_extended_request (hmacSha1 : Bytes → Bytes → Vector UInt8 20) :
    (extend (sampleRequest hmacSha1) 64 [(attrUseCandidate, [])]).length ≤ largestPayload := by
  have htake := List.length_take_le 64 (sampleRequest hmacSha1)
  have hlen : (encodeAttributes [(attrUseCandidate, [])]).length = 4 := by decide
  rw [extend, List.length_append, length_setStunLength, hlen]
  unfold largestPayload
  omega

/-- Under no hash is the decision about the request one of its covered bytes. -/
theorem decision_uncovered : ¬ ∃ hmacSha1 : Bytes → Bytes → Vector UInt8 20,
    ∀ m', m'.length ≤ largestPayload → SameThrough 64 (sampleRequest hmacSha1) m' →
      iceDecision hmacSha1 sampleCredentials false m' =
        iceDecision hmacSha1 sampleCredentials false (sampleRequest hmacSha1) := by
  rintro ⟨hmacSha1, h⟩
  obtain ⟨-, hsame, hquiet, hnominates⟩ := extended_request_nominates hmacSha1
  rw [h _ (length_extended_request hmacSha1) hsame, hquiet] at hnominates
  exact absurd hnominates (by decide)

theorem decision_covered_iff_sample :
    (∀ m', m'.length ≤ largestPayload →
      SameThrough (44 + 20) (sampleRequest fun _ _ => zeros 20) m' →
      iceDecision (fun _ _ => zeros 20) sampleCredentials false m' =
        iceDecision (fun _ _ => zeros 20) sampleCredentials false
          (sampleRequest fun _ _ => zeros 20)) ↔
      CoversDecision (fun _ _ => zeros 20) sampleCredentials false
        (sampleRequest fun _ _ => zeros 20) (44 + 20) :=
  decision_covered_iff (fun _ _ => zeros 20) sampleCredentials false (by decide)
    (sampleRequest_signed fun _ _ => zeros 20).1

end Onegram.Stun
