import Onegram.Proofs.RequestOrder

/-!
# What is in a container

A pass of the inner loop goes on from a group whose messages all have the priority the flag says.
As messages of high priority come first, a message that is unlike the group is an ordinary one
behind those of high priority, and ends the group: the size is not zero where messages are not
empty.
-/

namespace Onegram.Mtp

def containerSize (messages : List PreparedMessage) : Nat :=
  (messages.map (·.data.length)).sum

/-- No message of high priority is behind an ordinary one. -/
def PriorityFirst (l : List PreparedMessage) : Prop :=
  l.Pairwise fun m m' => m'.hasHighPriority = true → m.hasHighPriority = true

/-- What the code calls a container, and the messages that go out on their own. -/
structure Packed (forceConfirmations : Bool) (messages : List PreparedMessage) : Prop where
  nonempty : messages ≠ []
  size : messages.length = 1 ∨ containerSize messages ≤ MTMaxContainerSize
  priority : forceConfirmations = false →
    ∀ m ∈ messages, ∀ m' ∈ messages, m.hasHighPriority = m'.hasHighPriority

@[simp] theorem containerSize_append (l l' : List PreparedMessage) :
    containerSize (l ++ l') = containerSize l + containerSize l' := by
  simp [containerSize]

theorem containerSize_ne_zero {l : List PreparedMessage} (h : ∀ m ∈ l, m.data ≠ [])
    (hl : l ≠ []) : containerSize l ≠ 0 := by
  obtain ⟨m, rest, rfl⟩ := List.exists_cons_of_ne_nil hl
  have hm := List.length_pos_of_ne_nil (h m List.mem_cons_self)
  simp only [containerSize, List.map_cons, List.sum_cons]
  omega

theorem packed_singleton (force : Bool) (m : PreparedMessage) : Packed force [m] where
  nonempty := List.cons_ne_nil m []
  size := .inl rfl
  priority := fun _ a ha b hb => by rw [List.mem_singleton.mp ha, List.mem_singleton.mp hb]

/-- A pass of the inner loop, from a group that fits and has the priority of the flag. -/
theorem takeContainer_packed (force : Bool) :
    ∀ (l : List PreparedMessage) (high : Bool) (current : List PreparedMessage),
      (∀ m ∈ current ++ l, m.data ≠ []) → current ++ l ≠ [] →
      containerSize current ≤ MTMaxContainerSize →
      (force = false → PriorityFirst (current ++ l) ∧ ∀ m ∈ current, m.hasHighPriority = high) →
      Packed force (takeContainer force l high current (containerSize current)).1
  | [], high, current, _, hne, hsize, hpriority => by
    rw [List.append_nil] at hne
    refine ⟨hne, .inr hsize, fun hforce a ha b hb => ?_⟩
    have hall := (hpriority hforce).2
    rw [hall a ha, hall b hb]
  | m :: rest, high, current, hdata, hne, hsize, hpriority => by
    unfold takeContainer
    simp only []
    have hcurrent : current ≠ [] → containerSize current ≠ 0 :=
      containerSize_ne_zero fun m' hm' => hdata m' (List.mem_append_left _ hm')
    split
    · split
      · -- too large for any container
        rename_i hzero
        obtain rfl : current = [] := not_imp_comm.mp hcurrent (not_not.mpr hzero)
        exact packed_singleton force m
      · rename_i hnonzero
        refine ⟨?_, .inr hsize, fun hforce a ha b hb => ?_⟩
        · rintro rfl
          exact hnonzero rfl
        · have hall := (hpriority hforce).2
          rw [hall a ha, hall b hb]
    · rename_i hfits
      simp only [Bool.or_eq_true, decide_eq_true_eq, not_or, not_lt] at hfits
      obtain ⟨hroom, hbreak⟩ := hfits
      have hsum : containerSize (current ++ [m]) = containerSize current + m.data.length := by
        rw [containerSize_append]
        simp [containerSize]
      rw [← hsum] at hroom ⊢
      have hlist : current ++ [m] ++ rest = current ++ m :: rest := by simp
      refine takeContainer_packed force rest _ (current ++ [m]) (hlist ▸ hdata) (by simp) hroom
        fun hforce => ?_
      obtain ⟨hfirst, hall⟩ := hpriority hforce
      refine ⟨hlist ▸ hfirst, fun m' hm' => ?_⟩
      rw [hforce, if_neg Bool.false_ne_true]
      rcases List.mem_append.mp hm' with hm' | hm'
      · -- the message is like those before it
        have hsize' := hcurrent (List.ne_nil_of_mem hm')
        have hbefore : m.hasHighPriority = true → m'.hasHighPriority = true :=
          (List.pairwise_append.mp hfirst).2.2 m' hm' m List.mem_cons_self
        have hflag := hall m' hm'
        simp [hforce, hsize'] at hbreak
        cases hm : m.hasHighPriority with
        | true => exact hbefore hm
        | false => rw [hflag, hbreak hm]
      · rw [List.mem_singleton.mp hm']

/-- Every group the outer loop makes. -/
theorem packContainers_packed (force : Bool) (l : List PreparedMessage) (high : Bool)
    (hdata : ∀ m ∈ l, m.data ≠ []) (hpriority : force = false → PriorityFirst l) :
    ∀ messages ∈ packContainers force l high, Packed force messages := by
  induction l, high using packContainers.induct force with
  | case1 high => simp
  | case2 l high h ih =>
    intro messages hmessages
    rw [packContainers, if_neg h, List.mem_cons] at hmessages
    have hsplit := takeContainer_append force l high [] 0
    rw [List.nil_append] at hsplit
    rcases hmessages with rfl | hmessages
    · exact takeContainer_packed force l high [] hdata h (Nat.zero_le _)
        fun hforce => ⟨hpriority hforce, fun m hm => absurd hm List.not_mem_nil⟩
    · refine ih (fun m hm => hdata m ?_) (fun hforce => ?_) messages hmessages
      · rw [← hsplit]
        exact List.mem_append_right _ hm
      · have hall := hpriority hforce
        rw [← hsplit] at hall
        exact (List.pairwise_append.mp hall).2.1

/-! ## The order -/

/-- By id, with high priority first unless confirmations are forced. -/
def Ordered (forceConfirmations : Bool) (l : List PreparedMessage) : Prop :=
  if forceConfirmations then l.Pairwise fun m m' => m.messageId ≤ m'.messageId
  else l.Pairwise fun m m' => m.hasHighPriority = true ∧ m'.hasHighPriority = false
    ∨ m.hasHighPriority = m'.hasHighPriority ∧ m.messageId ≤ m'.messageId

theorem orderMessages_ordered (force : Bool) (l : List PreparedMessage) :
    Ordered force (orderMessages force l) := by
  unfold orderMessages
  split
  · rename_i hone
    obtain ⟨m, rfl⟩ := List.length_eq_one_iff.mp hone
    unfold Ordered
    split <;> exact List.pairwise_singleton _ m
  · have hsorted : (l.insertionSort fun m m' => m.messageId ≤ m'.messageId).Pairwise
        fun m m' => m.messageId ≤ m'.messageId :=
      l.pairwise_insertionSort fun m m' : PreparedMessage => m.messageId ≤ m'.messageId
    simp only []
    cases force with
    | true => exact hsorted
    | false =>
      change List.Pairwise _ (List.filter _ _ ++ List.filter _ _)
      refine List.pairwise_append.mpr ⟨?_, ?_, fun m hm m' hm' => ?_⟩
      · refine (hsorted.filter _).imp_of_mem fun {m m'} hm hm' hle => .inr ⟨?_, hle⟩
        rw [(List.mem_filter.mp hm).2, (List.mem_filter.mp hm').2]
      · refine (hsorted.filter _).imp_of_mem fun {m m'} hm hm' hle => .inr ⟨?_, hle⟩
        have h := (List.mem_filter.mp hm).2
        have h' := (List.mem_filter.mp hm').2
        simp_all
      · exact .inl ⟨(List.mem_filter.mp hm).2, by simpa using (List.mem_filter.mp hm').2⟩

theorem Ordered.priorityFirst {l : List PreparedMessage} (h : Ordered false l) :
    PriorityFirst l := by
  refine List.Pairwise.imp (fun {m m'} hmm hhigh => ?_) h
  rcases hmm with ⟨hm, -⟩ | ⟨heq, -⟩
  · exact hm
  · exact heq.trans hhigh

/-- The outer loop: containers, or in the mode without a key one message at a time. -/
def payloadGroups (useUnauthorizedMode forceConfirmations : Bool) (l : List PreparedMessage) :
    List (List PreparedMessage) :=
  if useUnauthorizedMode then (orderMessages forceConfirmations l).map ([·])
  else packContainers forceConfirmations (orderMessages forceConfirmations l) false

theorem dataForContainers_groups (clock : Nat → Int) : ∀ (s : SessionInfo)
    (containers : List (List PreparedMessage)), (∀ messages ∈ containers, messages ≠ []) →
      ((dataForContainers clock true s containers).1).map (·.1.messages) = containers
  | _, [], _ => rfl
  | s, messages :: rest, h => by
    have hfirst : ((dataForContainer clock true s messages).1.map
        (·, messages.map (·.messageInternalId))).toList.map (·.1.messages) = [messages] := by
      match messages, h messages List.mem_cons_self with
      | [m], _ => rfl
      | m :: m' :: more, _ => rfl
    simp only [dataForContainers, List.map_append, hfirst]
    exact congrArg _ (dataForContainers_groups clock _ rest
      fun messages hm => h messages (List.mem_cons_of_mem _ hm))

/-- The payloads of a transaction are the groups, when there is a key. -/
theorem payloads_groups (clock : Nat → Int) (p : MTProto) (r : TransactionRequest)
    (hkeyed : r.keyed = true) (hdata : ∀ m ∈ (p.prepareAll clock r).transactionMessageList,
      m.data ≠ []) :
    (p.payloads clock r).1.map (·.1.messages)
      = payloadGroups p.useUnauthorizedMode r.forceConfirmations
        (p.prepareAll clock r).transactionMessageList := by
  unfold MTProto.payloads payloadGroups
  split
  · rw [List.map_map]
    rfl
  · rw [hkeyed]
    have hperm := orderMessages_perm r.forceConfirmations
      (p.prepareAll clock r).transactionMessageList
    refine dataForContainers_groups clock _ _ fun messages hmessages => ?_
    refine (packContainers_packed r.forceConfirmations _ false
      (fun m hm => hdata m (hperm.mem_iff.mp hm)) (fun hforce => ?_) messages hmessages).nonempty
    rw [hforce]
    exact (orderMessages_ordered false _).priorityFirst

/-- The messages are each in one group, in their order; a group is one message or fits a container,
and does not mix priorities unless confirmations are forced. -/
theorem payloadGroups_packed (useUnauthorizedMode force : Bool) (l : List PreparedMessage)
    (hdata : ∀ m ∈ l, m.data ≠ []) :
    (payloadGroups useUnauthorizedMode force l).flatten = orderMessages force l
      ∧ (orderMessages force l).Perm l
      ∧ Ordered force (orderMessages force l)
      ∧ ∀ messages ∈ payloadGroups useUnauthorizedMode force l, Packed force messages := by
  have horder := orderMessages_ordered force l
  have hperm := orderMessages_perm force l
  refine ⟨?_, hperm, horder, ?_⟩
  · unfold payloadGroups
    split
    · induction orderMessages force l with
      | nil => rfl
      | cons m rest ih => rw [List.map_cons, List.flatten_cons, ih, List.singleton_append]
    · exact packContainers_flatten force _ false
  · intro messages hmessages
    unfold payloadGroups at hmessages
    split at hmessages
    · obtain ⟨m, -, rfl⟩ := List.mem_map.mp hmessages
      exact packed_singleton force m
    · refine packContainers_packed force _ false (fun m hm => hdata m (hperm.mem_iff.mp hm)) ?_
        messages hmessages
      rintro rfl
      exact horder.priorityFirst

/-- Two of high priority that do not fit one container, and an ordinary one. -/
def packingSample : List PreparedMessage :=
  [(1, 2000, true), (2, 100, false), (3, 2000, true)].map fun (messageId, length, high) =>
    { data := List.replicate length 0, messageId, seqNo := 1, salt := 0, requiresConfirmation := true
      hasHighPriority := high, inResponseToMessageId := 0, messageInternalId := messageId.toNat
      fresh := true }

theorem packingSample_packed :
    (payloadGroups false false packingSample).flatten = orderMessages false packingSample
      ∧ (orderMessages false packingSample).Perm packingSample
      ∧ Ordered false (orderMessages false packingSample)
      ∧ ∀ messages ∈ payloadGroups false false packingSample, Packed false messages := by
  refine payloadGroups_packed false false packingSample fun m hm => ?_
  obtain ⟨sample, hsample, rfl⟩ := List.mem_map.mp hm
  have hlength : 0 < sample.2.1 := by
    simp only [List.mem_cons, List.not_mem_nil, or_false] at hsample
    rcases hsample with rfl | rfl | rfl <;> norm_num
  refine List.ne_nil_of_length_pos ?_
  rw [List.length_replicate]
  exact hlength

end Onegram.Mtp
