import Onegram.ChannelSortKeys

/-!
# The two ways to compute the keys

A forced reload gives the variant key of the newest visible message, raised to the dates of the
draft and the pin, and the empty key where no message is visible. The other way gives the same keys
and the same preview where a message is visible, no key of an emptied space is left over, and the
unimportant message is the newer one where both are visible.
-/

namespace Onegram

variable {μ : Type*} {messages : MessageTable μ} {space : BitVec 8} {message : TGMessage μ}
  {channel : TGConversation μ} {row : ChannelRow μ} {r : Rendering}

/-! ## Keys as numbers -/

theorem keyRank_lt_of_head {head head' : BitVec 8} {timestamp mid timestamp' mid' : BitVec 32}
    (h : head.toNat < head'.toNat) : keyRank head timestamp mid < keyRank head' timestamp' mid' := by
  unfold keyRank
  omega

theorem keyRank_le_iff {head : BitVec 8} {timestamp mid timestamp' mid' : BitVec 32}
    (head' : BitVec 8) : keyRank head timestamp mid ≤ keyRank head timestamp' mid' ↔
      keyRank head' timestamp mid ≤ keyRank head' timestamp' mid' := by
  unfold keyRank
  omega

theorem keyRank_injective {head head' : BitVec 8} {timestamp mid timestamp' mid' : BitVec 32}
    (h : keyRank head timestamp mid = keyRank head' timestamp' mid') :
    head = head' ∧ timestamp = timestamp' ∧ mid = mid' := by
  unfold keyRank at h
  refine ⟨BitVec.eq_of_toNat_eq ?_, BitVec.eq_of_toNat_eq ?_, BitVec.eq_of_toNat_eq ?_⟩ <;> omega

theorem TGConversationSortKey.compare_eq_iff {lhs rhs : TGConversationSortKey} :
    TGConversationSortKeyCompare lhs rhs = .eq ↔ lhs = rhs := by
  rw [TGConversationSortKeyCompare, Nat.compare_eq_eq]
  constructor
  · intro h
    obtain ⟨hkind, htimestamp, hmid⟩ := keyRank_injective h
    rcases lhs with ⟨_, _, _⟩
    subst hkind htimestamp hmid
    rfl
  · rintro rfl
    rfl

/-- The place of a message in time, by its date and its id. -/
def TGMessage.age (message : TGMessage μ) : ℕ :=
  keyRank 0 message.sortKey.timestamp message.sortKey.mid

theorem TGConversation.keyOf_eq (channel : TGConversation μ) (message : TGMessage μ) :
    channel.keyOf message = ⟨channel.kind, message.sortKey.timestamp, message.sortKey.mid⟩ := by
  simp [keyOf, TGConversationSortKeyMake, BitVec.ofInt_toInt]

theorem TGConversation.keyOf_gt_iff (channel : TGConversation μ) (lhs rhs : TGMessage μ) :
    TGConversationSortKeyCompare (channel.keyOf lhs) (channel.keyOf rhs) = .gt ↔
      rhs.age < lhs.age := by
  rw [TGConversationSortKeyCompare, Nat.compare_eq_gt, keyOf_eq, keyOf_eq, ← not_le, ← not_le]
  exact not_congr (keyRank_le_iff 0)

/-! ## The top messages -/

/-- What the query finds is in the space it asks for. -/
theorem space_of_mem (h : message ∈ messagesOfSpace messages space) :
    message.sortKey.space = space := by
  obtain ⟨hupper, hlower⟩ := of_decide_eq_true (List.mem_filter.mp h).2
  refine BitVec.eq_of_toNat_eq (le_antisymm (not_lt.mp fun hlt => ?_) (not_lt.mp fun hlt => ?_))
  · exact lt_asymm hupper (keyRank_lt_of_head hlt)
  · exact lt_asymm hlower (keyRank_lt_of_head hlt)

/-- No message has the id 0. -/
def IdsNonzero (messages : MessageTable μ) : Prop :=
  ∀ row ∈ messages.rows, row.2.mid ≠ 0 ∧ row.2.sortKey.mid ≠ 0

theorem IdsNonzero.of_mem (h : IdsNonzero messages)
    (hmem : message ∈ messagesOfSpace messages space) :
    message.mid ≠ 0 ∧ message.sortKey.mid ≠ 0 := by
  obtain ⟨row, hrow, rfl⟩ := List.mem_map.mp (List.mem_filter.mp hmem).1
  exact h row hrow

def spaceOf (important : Bool) : BitVec 8 :=
  if important then TGMessageSpaceImportant else TGMessageSpaceUnimportant

theorem topChannelMessage_mem {important : Bool}
    (h : topChannelMessage messages important = some message) :
    message ∈ messagesOfSpace messages (spaceOf important) :=
  List.argmax_mem (Option.filter_eq_some_iff.mp h).1

/-- The top message of a space is the latest there. -/
theorem topChannelMessage_latest {important : Bool} {other : TGMessage μ}
    (h : topChannelMessage messages important = some message)
    (hother : other ∈ messagesOfSpace messages (spaceOf important)) : other.age ≤ message.age := by
  have hle := List.le_of_mem_argmax hother (Option.filter_eq_some_iff.mp h).1
  rw [TGMessageSortKey.rank, TGMessageSortKey.rank, space_of_mem hother,
    space_of_mem (topChannelMessage_mem h)] at hle
  exact (keyRank_le_iff 0).mp hle

theorem topChannelMessage_eq_none_iff (hids : IdsNonzero messages) {important : Bool} :
    topChannelMessage messages important = none ↔
      messagesOfSpace messages (spaceOf important) = [] := by
  constructor
  · intro h
    rw [← @List.argmax_eq_none _ _ _ _ (·.sortKey.rank)]
    refine Option.eq_none_iff_forall_ne_some.mpr fun message hmessage => ?_
    have hmid := (hids.of_mem (List.argmax_mem hmessage)).1
    have hsome : topChannelMessage messages important = some message :=
      Option.filter_eq_some_iff.mpr ⟨hmessage, decide_eq_true hmid⟩
    rw [h] at hsome
    cases hsome
  · intro h
    have hargmax : (messagesOfSpace messages (spaceOf important)).argmax (·.sortKey.rank) = none :=
      List.argmax_eq_none.mpr h
    exact congrArg (Option.filter (·.mid ≠ 0)) hargmax

/-- A message the display variant of the channel shows. -/
def Visible (messages : MessageTable μ) (channel : TGConversation μ) (message : TGMessage μ) :
    Prop :=
  message ∈ messagesOfSpace messages (spaceOf true) ∨
    (channel.displayVariant = TGChannelDisplayVariantAll ∧
      message ∈ messagesOfSpace messages (spaceOf false))

/-- The newest of the visible messages. -/
def NewestVisible (messages : MessageTable μ) (channel : TGConversation μ) (message : TGMessage μ) :
    Prop :=
  Visible messages channel message ∧ ∀ other, Visible messages channel other →
    other.age ≤ message.age

/-! ## The forced reload -/

/-- What a forced reload makes of a channel, apart from its unread count. -/
def reload (messages : MessageTable μ) (row : ChannelRow μ) : TGConversation μ :=
  let channel := (topKeys messages row.load none none true).1
  (if channel.displayVariant = TGChannelDisplayVariantAll ∧ hasNewerUnimportant channel then
    (topChannelMessage messages false).elim (channel.setVariantSortKey channel.unimportantSortKey)
      (channel.setVariantSortKey channel.unimportantSortKey).mergeMessage
  else
    (topChannelMessage messages true).elim (channel.setVariantSortKey channel.importantSortKey)
      (channel.setVariantSortKey channel.importantSortKey).mergeMessage).raiseToDate

/-- The count of unread messages, which only a channel the user is in has raised. -/
def raiseUnread (channel : TGConversation μ) (unread : ℤ) : TGConversation μ :=
  if channel.kind = TGConversationKindPersistentChannel then
    { channel with unreadCount := channel.unreadCount + unread }
  else channel

theorem raiseUnread_eq (channel : TGConversation μ) (unread : ℤ) :
    ∃ unreadCount, raiseUnread channel unread = { channel with unreadCount } := by
  unfold raiseUnread
  split_ifs
  · exact ⟨_, rfl⟩
  · exact ⟨channel.unreadCount, rfl⟩

/-- A forced reload that changes the row writes what it made of the channel. -/
theorem reload_writes {important unimportant : Option (TGMessage μ)}
    {addImportantUnread addUnimportantUnread : ℤ}
    (h : updateChannelConversationSortKeys r messages row important unimportant addImportantUnread
      addUnimportantUnread true ≠ row) :
    ∃ unreadCount, updateChannelConversationSortKeys r messages row important unimportant
      addImportantUnread addUnimportantUnread true =
        ⟨(r.render (reload messages row)).variantSortKey,
          { reload messages row with unreadCount }⟩ := by
  have hwritten : updateChannelConversationSortKeys r messages row important unimportant
      addImportantUnread addUnimportantUnread true = row ∨
    updateChannelConversationSortKeys r messages row important unimportant
      addImportantUnread addUnimportantUnread true =
        ⟨(r.render (raiseUnread (reload messages row)
            (addImportantUnread + addUnimportantUnread))).variantSortKey,
          raiseUnread (reload messages row) (addImportantUnread + addUnimportantUnread)⟩ := by
    unfold updateChannelConversationSortKeys
    exact ite_eq_or_eq _ _ _
  obtain ⟨unreadCount, hunread⟩ :=
    raiseUnread_eq (reload messages row) (addImportantUnread + addUnimportantUnread)
  rw [hunread] at hwritten
  exact ⟨unreadCount, hwritten.resolve_left h⟩

/-! ## The variant key -/

@[simp] theorem TGConversation.variantSortKey_raiseToDate (channel : TGConversation μ) :
    channel.raiseToDate.variantSortKey = channel.variantSortKey.raise channel.date := by
  unfold raiseToDate TGConversationSortKey.raise
  split_ifs <;> rfl

/-- The empty key of a channel, with the date it had before. -/
def emptyKey (row : ChannelRow μ) : TGConversationSortKey :=
  TGConversationSortKeyMake row.data.kind (max 0 row.data.messageDate.toInt) 0

theorem emptyKey_eq (row : ChannelRow μ) :
    TGConversationSortKeyMake row.load.kind row.load.date 0 = emptyKey row := by
  simp [emptyKey, ChannelRow.load, TGConversation.date]

/-- The key of a message in the list: raised to the dates of the draft and of the pin. -/
def listKey (r : Rendering) (row : ChannelRow μ) (message : TGMessage μ) : TGConversationSortKey :=
  (((row.data.keyOf message).raise (max 0 (BitVec.ofInt 32 message.date).toInt)).raise
    r.draftDate).raise r.pinnedDate

/-- The channel with the keys of the top messages, and the empty one for a space without any. -/
def withTopKeys (messages : MessageTable μ) (row : ChannelRow μ) : TGConversation μ :=
  { row.load with
    importantSortKey := (topChannelMessage messages true).elim (emptyKey row) row.data.keyOf
    unimportantSortKey := (topChannelMessage messages false).elim (emptyKey row) row.data.keyOf }

theorem topKeys_reload (messages : MessageTable μ) (row : ChannelRow μ) :
    (topKeys messages row.load none none true).1 = withTopKeys messages row := by
  rw [withTopKeys, ← emptyKey_eq]
  rfl

theorem IdsNonzero.mid_keyOf (hids : IdsNonzero messages) {important : Bool}
    (h : topChannelMessage messages important = some message) :
    (row.data.keyOf message).mid ≠ 0 := by
  rw [TGConversation.keyOf_eq]
  exact (hids.of_mem (topChannelMessage_mem h)).2

theorem hasNewerUnimportant_iff (channel : TGConversation μ) :
    hasNewerUnimportant channel = true ↔ channel.unimportantSortKey.mid ≠ 0 ∧
      (channel.importantSortKey.mid ≠ 0 →
        TGConversationSortKeyCompare channel.unimportantSortKey channel.importantSortKey = .gt) := by
  unfold hasNewerUnimportant
  by_cases himportant : channel.importantSortKey.mid = 0 <;>
    by_cases hunimportant : channel.unimportantSortKey.mid = 0 <;> simp_all

/-- The unimportant key is the newer one where its message is later than the important one. -/
theorem hasNewerUnimportant_withTopKeys (hids : IdsNonzero messages) (row : ChannelRow μ) :
    hasNewerUnimportant (withTopKeys messages row) = true ↔
      ∃ unimportant, topChannelMessage messages false = some unimportant ∧
        ∀ important, topChannelMessage messages true = some important →
          important.age < unimportant.age := by
  have hempty : (emptyKey row).mid = 0 := rfl
  rw [hasNewerUnimportant_iff]
  simp only [withTopKeys]
  rcases hu : topChannelMessage messages false with _ | u
  · simp [hempty]
  · have humid : (row.data.keyOf u).mid ≠ 0 := hids.mid_keyOf hu
    rcases hi : topChannelMessage messages true with _ | i
    · simpa [hempty] using humid
    · have himid : (row.data.keyOf i).mid ≠ 0 := hids.mid_keyOf hi
      simp_all [TGConversation.keyOf_gt_iff]

/-- The channel with the variant key and the preview of a message. -/
def showing (channel : TGConversation μ) (key : TGConversationSortKey) (message : TGMessage μ) :
    TGConversation μ := ((channel.setVariantSortKey key).mergeMessage message).raiseToDate

theorem reload_eq (messages : MessageTable μ) (row : ChannelRow μ) :
    reload messages row =
      if row.data.displayVariant = TGChannelDisplayVariantAll ∧
          hasNewerUnimportant (withTopKeys messages row) then
        (topChannelMessage messages false).elim
          ((withTopKeys messages row).setVariantSortKey
            (withTopKeys messages row).unimportantSortKey).raiseToDate
          (showing (withTopKeys messages row) (withTopKeys messages row).unimportantSortKey)
      else
        (topChannelMessage messages true).elim
          ((withTopKeys messages row).setVariantSortKey
            (withTopKeys messages row).importantSortKey).raiseToDate
          (showing (withTopKeys messages row) (withTopKeys messages row).importantSortKey) := by
  have hvariant : (withTopKeys messages row).displayVariant = row.data.displayVariant := rfl
  unfold reload showing
  simp only [topKeys_reload, hvariant]
  split_ifs
  · rcases topChannelMessage messages false with _ | unimportant <;> rfl
  · rcases topChannelMessage messages true with _ | important <;> rfl

theorem variantSortKey_showing (messages : MessageTable μ) (row : ChannelRow μ)
    (key : TGConversationSortKey) (message : TGMessage μ) :
    (showing (withTopKeys messages row) key message).variantSortKey =
      key.raise (max 0 (BitVec.ofInt 32 message.date).toInt) := by
  rw [showing, TGConversation.variantSortKey_raiseToDate]
  simp [TGConversation.mergeMessage, TGConversation.setVariantSortKey, TGConversation.date,
    withTopKeys, ChannelRow.load]

theorem newestVisible_unimportant {unimportant : TGMessage μ} (hids : IdsNonzero messages)
    (hvariant : channel.displayVariant = TGChannelDisplayVariantAll)
    (hu : topChannelMessage messages false = some unimportant)
    (hlater : ∀ important, topChannelMessage messages true = some important →
      important.age < unimportant.age) : NewestVisible messages channel unimportant := by
  refine ⟨.inr ⟨hvariant, topChannelMessage_mem hu⟩, ?_⟩
  rintro other (hother | ⟨-, hother⟩)
  · rcases hi : topChannelMessage messages true with _ | important
    · rw [(topChannelMessage_eq_none_iff hids).mp hi] at hother
      cases hother
    · exact (topChannelMessage_latest hi hother).trans (hlater important hi).le
  · exact topChannelMessage_latest hu hother

theorem newestVisible_important {important : TGMessage μ} (hids : IdsNonzero messages)
    (hi : topChannelMessage messages true = some important)
    (hlater : channel.displayVariant = TGChannelDisplayVariantAll → ∀ unimportant,
      topChannelMessage messages false = some unimportant → unimportant.age ≤ important.age) :
    NewestVisible messages channel important := by
  refine ⟨.inl (topChannelMessage_mem hi), ?_⟩
  rintro other (hother | ⟨hvariant, hother⟩)
  · exact topChannelMessage_latest hi hother
  · rcases hu : topChannelMessage messages false with _ | unimportant
    · rw [(topChannelMessage_eq_none_iff hids).mp hu] at hother
      cases hother
    · exact (topChannelMessage_latest hu hother).trans (hlater hvariant unimportant hu)

/-- The important message is shown where the unimportant one is not visible or not later. -/
theorem not_newer_iff (hids : IdsNonzero messages) {important : TGMessage μ}
    (hi : topChannelMessage messages true = some important) :
    (¬ (row.data.displayVariant = TGChannelDisplayVariantAll ∧
      hasNewerUnimportant (withTopKeys messages row) = true)) ↔
    (row.data.displayVariant = TGChannelDisplayVariantAll → ∀ unimportant,
      topChannelMessage messages false = some unimportant → unimportant.age ≤ important.age) := by
  rw [hasNewerUnimportant_withTopKeys hids, hi]
  simp

theorem reload_unimportant {unimportant : TGMessage μ} (hids : IdsNonzero messages)
    (hvariant : row.data.displayVariant = TGChannelDisplayVariantAll)
    (hu : topChannelMessage messages false = some unimportant)
    (hlater : ∀ important, topChannelMessage messages true = some important →
      important.age < unimportant.age) :
    reload messages row =
      showing (withTopKeys messages row) (row.data.keyOf unimportant) unimportant := by
  have hkey : (withTopKeys messages row).unimportantSortKey = row.data.keyOf unimportant := by
    rw [withTopKeys, hu]
    rfl
  have hnewer := (hasNewerUnimportant_withTopKeys hids row).mpr ⟨unimportant, hu, hlater⟩
  rw [reload_eq, if_pos ⟨hvariant, hnewer⟩, hu, Option.elim_some, hkey]

theorem reload_important {important : TGMessage μ} (hids : IdsNonzero messages)
    (hi : topChannelMessage messages true = some important)
    (hlater : row.data.displayVariant = TGChannelDisplayVariantAll → ∀ unimportant,
      topChannelMessage messages false = some unimportant → unimportant.age ≤ important.age) :
    reload messages row =
      showing (withTopKeys messages row) (row.data.keyOf important) important := by
  have hkey : (withTopKeys messages row).importantSortKey = row.data.keyOf important := by
    rw [withTopKeys, hi]
    rfl
  rw [reload_eq, if_neg ((not_newer_iff hids hi).mpr hlater), hi, Option.elim_some, hkey]

/-- The forced reload shows the newest visible message. -/
theorem reload_newest (hids : IdsNonzero messages)
    (hvisible : ∃ message, Visible messages row.data message) :
    ∃ message, NewestVisible messages row.data message ∧
      reload messages row = showing (withTopKeys messages row) (row.data.keyOf message) message := by
  by_cases hnewer : row.data.displayVariant = TGChannelDisplayVariantAll ∧
      hasNewerUnimportant (withTopKeys messages row) = true
  · obtain ⟨hvariant, hkey⟩ := hnewer
    obtain ⟨unimportant, hu, hlater⟩ := (hasNewerUnimportant_withTopKeys hids row).mp hkey
    exact ⟨unimportant, newestVisible_unimportant hids hvariant hu hlater,
      reload_unimportant hids hvariant hu hlater⟩
  · rcases hi : topChannelMessage messages true with _ | important
    · obtain ⟨message, hmessage | ⟨hvariant, hmessage⟩⟩ := hvisible
      · rw [(topChannelMessage_eq_none_iff hids).mp hi] at hmessage
        cases hmessage
      · refine absurd ⟨hvariant, (hasNewerUnimportant_withTopKeys hids row).mpr ?_⟩ hnewer
        rcases hu : topChannelMessage messages false with _ | unimportant
        · rw [(topChannelMessage_eq_none_iff hids).mp hu] at hmessage
          cases hmessage
        · exact ⟨unimportant, rfl, fun important h => by rw [hi] at h; cases h⟩
    · have hlater := (not_newer_iff hids hi).mp hnewer
      exact ⟨important, newestVisible_important hids hi hlater, reload_important hids hi hlater⟩

theorem topChannelMessage_eq_none (hids : IdsNonzero messages) {important : Bool}
    (h : ∀ message, message ∉ messagesOfSpace messages (spaceOf important)) :
    topChannelMessage messages important = none :=
  (topChannelMessage_eq_none_iff hids).mpr (List.eq_nil_iff_forall_not_mem.mpr h)

theorem timestamp_emptyKey (row : ChannelRow μ) :
    (emptyKey row).timestamp.toInt = max 0 row.data.messageDate.toInt := by
  have hlt := @BitVec.toInt_lt 32 row.data.messageDate
  rw [emptyKey, TGConversationSortKeyMake, BitVec.toInt_ofInt_eq_self (by norm_num)] <;> omega

/-- Where no message is visible, the key is the empty one. -/
theorem reload_empty (hids : IdsNonzero messages)
    (hvisible : ∀ message, ¬ Visible messages row.data message) :
    (reload messages row).variantSortKey = emptyKey row := by
  have hi : topChannelMessage messages true = none :=
    topChannelMessage_eq_none hids fun message h => hvisible message (.inl h)
  have hnewer : ¬ (row.data.displayVariant = TGChannelDisplayVariantAll ∧
      hasNewerUnimportant (withTopKeys messages row) = true) := by
    rintro ⟨hvariant, hkey⟩
    obtain ⟨unimportant, hu, -⟩ := (hasNewerUnimportant_withTopKeys hids row).mp hkey
    exact hvisible unimportant (.inr ⟨hvariant, topChannelMessage_mem hu⟩)
  have himportant : (withTopKeys messages row).importantSortKey = emptyKey row := by
    rw [withTopKeys, hi]
    rfl
  rw [reload_eq, if_neg hnewer, hi, Option.elim_none, himportant,
    TGConversation.variantSortKey_raiseToDate, TGConversationSortKey.raise, if_neg]
  · rfl
  · have hdate : (((withTopKeys messages row).setVariantSortKey (emptyKey row)).date) =
        max 0 (max 0 (max 0 (emptyKey row).timestamp.toInt)) := rfl
    have hkey : ((withTopKeys messages row).setVariantSortKey (emptyKey row)).variantSortKey =
        emptyKey row := rfl
    rw [hdate, hkey, timestamp_emptyKey]
    omega

/-! ## The other way -/

/-- Where the two ways agree: a message is visible, a space without messages has the empty key, and
where both spaces are shown, the newest message is an unimportant one. -/
structure Regular (messages : MessageTable μ) (row : ChannelRow μ) : Prop where
  visible : ∃ message, Visible messages row.data message
  important : messagesOfSpace messages (spaceOf true) = [] →
    row.data.importantSortKey = emptyKey row
  unimportant : messagesOfSpace messages (spaceOf false) = [] →
    row.data.unimportantSortKey = emptyKey row
  newer : row.data.displayVariant = TGChannelDisplayVariantAll →
    messagesOfSpace messages (spaceOf false) ≠ [] →
      ∀ important ∈ messagesOfSpace messages (spaceOf true),
        ∃ unimportant ∈ messagesOfSpace messages (spaceOf false), important.age < unimportant.age

theorem Regular.top_lt (h : Regular messages row) {important unimportant : TGMessage μ}
    (hvariant : row.data.displayVariant = TGChannelDisplayVariantAll)
    (hi : topChannelMessage messages true = some important)
    (hu : topChannelMessage messages false = some unimportant) :
    important.age < unimportant.age := by
  have hmem := topChannelMessage_mem hu
  obtain ⟨other, hother, hlt⟩ :=
    h.newer hvariant (List.ne_nil_of_mem hmem) important (topChannelMessage_mem hi)
  exact hlt.trans_le (topChannelMessage_latest hu hother)

/-- The keys that are kept where a space has no message are those a forced reload gives. -/
theorem Regular.keys (h : Regular messages row) (hids : IdsNonzero messages) :
    (topChannelMessage messages true).elim row.data.importantSortKey row.data.keyOf =
        (withTopKeys messages row).importantSortKey ∧
      (topChannelMessage messages false).elim row.data.unimportantSortKey row.data.keyOf =
        (withTopKeys messages row).unimportantSortKey := by
  unfold withTopKeys
  constructor
  · rcases hi : topChannelMessage messages true with _ | important
    · exact h.important ((topChannelMessage_eq_none_iff hids).mp hi)
    · rfl
  · rcases hu : topChannelMessage messages false with _ | unimportant
    · exact h.unimportant ((topChannelMessage_eq_none_iff hids).mp hu)
    · rfl

/-- A channel with the keys of the top messages, and those it had for a space without any. -/
def keepingKeys (messages : MessageTable μ) (row : ChannelRow μ) : TGConversation μ :=
  { row.load with
    importantSortKey :=
      (topChannelMessage messages true).elim row.data.importantSortKey row.data.keyOf
    unimportantSortKey :=
      (topChannelMessage messages false).elim row.data.unimportantSortKey row.data.keyOf }

theorem Regular.keepingKeys_eq (h : Regular messages row) (hids : IdsNonzero messages) :
    keepingKeys messages row = withTopKeys messages row := by
  obtain ⟨himportant, hunimportant⟩ := h.keys hids
  rw [keepingKeys, himportant, hunimportant]
  rfl

/-- The top messages of the two spaces never compare as equal. -/
theorem topChannelMessage_compare_ne {important unimportant : TGMessage μ}
    (hi : topChannelMessage messages true = some important)
    (hu : topChannelMessage messages false = some unimportant) :
    TGMessageSortKeyCompare unimportant.sortKey important.sortKey ≠ .eq := by
  intro h
  have hspace := (keyRank_injective (Nat.compare_eq_eq.mp h)).1
  rw [space_of_mem (topChannelMessage_mem hi), space_of_mem (topChannelMessage_mem hu)] at hspace
  revert hspace
  decide

/-- What is written for a channel that shows the unimportant message. -/
theorem updateChannelConversation_unimportant {unimportant : TGMessage μ}
    (hvariant : row.data.displayVariant = TGChannelDisplayVariantAll)
    (hu : topChannelMessage messages false = some unimportant) :
    updateChannelConversation r messages row =
      ⟨(r.render (showing (keepingKeys messages row) (row.data.keyOf unimportant)
          unimportant)).variantSortKey,
        r.render (showing (keepingKeys messages row) (row.data.keyOf unimportant) unimportant)⟩ := by
  have hload : row.load.displayVariant = TGChannelDisplayVariantAll := hvariant
  unfold updateChannelConversation keepingKeys
  rcases hi : topChannelMessage messages true with _ | important
  · simp only [hu, hload, showing, Option.elim_some, Option.elim_none, if_true]
    rfl
  · have hne := topChannelMessage_compare_ne hi hu
    simp only [hu, hload, hne, showing, Option.elim_some, ne_eq, not_false_eq_true, if_true]
    rfl

/-- What is written for a channel that shows the important message. -/
theorem updateChannelConversation_important {important : TGMessage μ}
    (hi : topChannelMessage messages true = some important)
    (hhidden : row.data.displayVariant = TGChannelDisplayVariantAll →
      topChannelMessage messages false = none) :
    updateChannelConversation r messages row =
      ⟨(r.render (showing (keepingKeys messages row) (row.data.keyOf important)
          important)).variantSortKey,
        r.render (showing (keepingKeys messages row) (row.data.keyOf important) important)⟩ := by
  have hload : row.load.displayVariant = row.data.displayVariant := rfl
  unfold updateChannelConversation keepingKeys
  by_cases hvariant : row.data.displayVariant = TGChannelDisplayVariantAll
  · simp only [hi, hhidden hvariant, hload, hvariant, showing, Option.elim_some, Option.elim_none,
      if_true]
    rfl
  · rcases hu : topChannelMessage messages false with _ | unimportant
    · simp only [hi, hload, hvariant, showing, Option.elim_some, Option.elim_none, if_false]
      rfl
    · simp only [hi, hload, hvariant, showing, Option.elim_some, if_false]
      rfl

/-- Where the two ways agree, the list shows what a forced reload shows. -/
theorem Regular.updateChannelConversation_eq (h : Regular messages row)
    (hids : IdsNonzero messages) :
    updateChannelConversation r messages row =
      ⟨(r.render (reload messages row)).variantSortKey, r.render (reload messages row)⟩ := by
  by_cases hshown : row.data.displayVariant = TGChannelDisplayVariantAll ∧
      topChannelMessage messages false ≠ none
  · obtain ⟨hvariant, hne⟩ := hshown
    obtain ⟨unimportant, hu⟩ := Option.ne_none_iff_exists'.mp hne
    rw [updateChannelConversation_unimportant hvariant hu, h.keepingKeys_eq hids,
      reload_unimportant hids hvariant hu fun important hi => h.top_lt hvariant hi hu]
  · have hhidden : row.data.displayVariant = TGChannelDisplayVariantAll →
        topChannelMessage messages false = none := fun hvariant =>
      not_not.mp fun hne => hshown ⟨hvariant, hne⟩
    have hi : topChannelMessage messages true ≠ none := by
      rw [Ne, topChannelMessage_eq_none_iff hids]
      obtain ⟨message, hmessage | ⟨hvariant, hmessage⟩⟩ := h.visible
      · exact List.ne_nil_of_mem hmessage
      · rw [(topChannelMessage_eq_none_iff hids).mp (hhidden hvariant)] at hmessage
        cases hmessage
    obtain ⟨important, hi⟩ := Option.ne_none_iff_exists'.mp hi
    rw [updateChannelConversation_important hi hhidden, h.keepingKeys_eq hids,
      reload_important hids hi]
    intro hvariant unimportant hu
    rw [hhidden hvariant] at hu
    cases hu

/-! ## The position -/

/-- What the list shows of the message of a channel. -/
structure Preview (μ : Type*) where
  outgoing : Bool
  fromUid : ℤ
  text : String
  media : List μ
  unread : Bool
  deliveryError : Bool
  deliveryState : TGMessageDeliveryState
  messageFlags : ℤ

def TGConversation.preview (channel : TGConversation μ) : Preview μ :=
  ⟨channel.outgoing, channel.fromUid, channel.text, channel.media, channel.unread,
    channel.deliveryError, channel.deliveryState, channel.messageFlags⟩

theorem variantSortKey_render (r : Rendering) (channel : TGConversation μ) :
    (r.render channel).variantSortKey =
      (channel.variantSortKey.raise r.draftDate).raise r.pinnedDate := rfl

theorem variantSortKey_render_showing (r : Rendering) (message : TGMessage μ) :
    (r.render (showing (withTopKeys messages row) (row.data.keyOf message)
      message)).variantSortKey = listKey r row message := by
  rw [variantSortKey_render, variantSortKey_showing]
  rfl

/-- A forced reload that writes the row puts the channel where its newest visible message belongs,
or at its empty key, in both cases raised to the dates of the draft and the pin; and an update of
the conversation gives the same keys and the same preview where the two ways agree. -/
theorem channel_listPosition (r : Rendering) (messages : MessageTable μ) (row : ChannelRow μ)
    (important unimportant : Option (TGMessage μ)) (addImportantUnread addUnimportantUnread : ℤ)
    (hids : IdsNonzero messages)
    (hwrites : updateChannelConversationSortKeys r messages row important unimportant
      addImportantUnread addUnimportantUnread true ≠ row) :
    let forced := updateChannelConversationSortKeys r messages row important unimportant
      addImportantUnread addUnimportantUnread true
    let incremental := updateChannelConversation r messages row
    ((∃ message, Visible messages row.data message) → ∃ message,
      NewestVisible messages row.data message ∧
        forced.variantSortKey = listKey r row message) ∧
    ((∀ message, ¬ Visible messages row.data message) →
      forced.variantSortKey = ((emptyKey row).raise r.draftDate).raise r.pinnedDate) ∧
    (Regular messages row →
      incremental.variantSortKey = forced.variantSortKey ∧
        incremental.data.importantSortKey = forced.data.importantSortKey ∧
        incremental.data.unimportantSortKey = forced.data.unimportantSortKey ∧
        incremental.data.preview = forced.data.preview) := by
  obtain ⟨unreadCount, hforced⟩ := reload_writes hwrites
  rw [hforced]
  refine ⟨fun hvisible => ?_, fun hvisible => ?_, fun hregular => ?_⟩
  · obtain ⟨message, hnewest, hreload⟩ := reload_newest hids hvisible
    refine ⟨message, hnewest, ?_⟩
    rw [hreload, variantSortKey_render_showing]
  · rw [variantSortKey_render, reload_empty hids hvisible]
  · rw [hregular.updateChannelConversation_eq hids]
    exact ⟨rfl, rfl, rfl, rfl⟩

/-! ## A channel with two messages -/

def sampleMessage (space : BitVec 8) (mid date : ℤ) : TGMessage Empty where
  mid := mid
  cid := -1000000005
  pts := 3
  sortKey := TGMessageSortKeyMake space date mid
  date := date
  outgoing := false
  fromUid := 7
  text := "sample"
  mediaAttachments := []
  reply := none
  deliveryState := .delivered
  flags := 0
  containsUnseenMention := false
  hasUnreadContent := false

/-- An important message with the id 1 and an unimportant one with the id 2. -/
def sampleMessages (importantDate unimportantDate : ℤ) : MessageTable Empty :=
  (KeyedTable.empty.insertOrReplace 1
    (sampleMessage TGMessageSpaceImportant 1 importantDate)).insertOrReplace 2
      (sampleMessage TGMessageSpaceUnimportant 2 unimportantDate)

def sampleRow : ChannelRow Empty where
  variantSortKey := ⟨0, 0, 0⟩
  data :=
    { conversationId := -1000000005
      kind := TGConversationKindPersistentChannel
      displayVariant := TGChannelDisplayVariantAll
      pts := 3
      importantSortKey := ⟨0, 0, 0⟩
      unimportantSortKey := ⟨0, 0, 0⟩
      variantSortKey := ⟨0, 0, 0⟩
      maxReadMessageId := 0
      maxOutgoingReadMessageId := 0
      maxKnownMessageId := 0
      unreadCount := 0
      messageDate := 0
      outgoing := false
      fromUid := 0
      text := ""
      media := []
      unread := false
      deliveryError := false
      deliveryState := .delivered
      messageFlags := 0
      draftDate := 0
      pinnedDate := 0 }

theorem sampleMessages_idsNonzero : IdsNonzero (sampleMessages 10 20) := by
  intro row hrow
  have hrows : (sampleMessages 10 20).rows = [(1, sampleMessage TGMessageSpaceImportant 1 10),
      (2, sampleMessage TGMessageSpaceUnimportant 2 20)] := rfl
  rw [hrows] at hrow
  rcases List.mem_cons.mp hrow with rfl | hrow
  · decide
  · rw [List.mem_singleton.mp hrow]
    decide

theorem sampleRow_written :
    updateChannelConversationSortKeys ⟨0, 0⟩ (sampleMessages 10 20) sampleRow none none 0 0 true ≠
      sampleRow := by
  intro h
  have hkey := congrArg (·.variantSortKey.timestamp) h
  revert hkey
  decide +kernel

theorem sampleMessages_space (important : Bool) :
    messagesOfSpace (sampleMessages 10 20) (spaceOf important) =
      [if important then sampleMessage TGMessageSpaceImportant 1 10
        else sampleMessage TGMessageSpaceUnimportant 2 20] := by
  have hrows : (sampleMessages 10 20).rows.map (·.2) =
      [sampleMessage TGMessageSpaceImportant 1 10, sampleMessage TGMessageSpaceUnimportant 2 20] :=
    rfl
  rw [messagesOfSpace, hrows]
  cases important
  · rw [List.filter_cons_of_neg (by decide +kernel), List.filter_cons_of_pos (by decide +kernel)]
    rfl
  · rw [List.filter_cons_of_pos (by decide +kernel), List.filter_cons_of_neg (by decide +kernel)]
    rfl

theorem sampleRow_regular : Regular (sampleMessages 10 20) sampleRow where
  visible := ⟨sampleMessage TGMessageSpaceImportant 1 10, .inl (by simp [sampleMessages_space])⟩
  important := by simp [sampleMessages_space]
  unimportant := by simp [sampleMessages_space]
  newer := by
    intro _ _ important himportant
    refine ⟨sampleMessage TGMessageSpaceUnimportant 2 20, by simp [sampleMessages_space], ?_⟩
    rw [sampleMessages_space] at himportant
    rw [List.mem_singleton.mp himportant]
    decide +kernel

theorem channel_listPosition_sample :
    IdsNonzero (sampleMessages 10 20) ∧ Regular (sampleMessages 10 20) sampleRow ∧
      ∃ message, NewestVisible (sampleMessages 10 20) sampleRow.data message ∧
        (updateChannelConversation ⟨0, 0⟩ (sampleMessages 10 20) sampleRow).variantSortKey =
          listKey ⟨0, 0⟩ sampleRow message := by
  obtain ⟨hnewest, -, hsame⟩ := channel_listPosition ⟨0, 0⟩ (sampleMessages 10 20) sampleRow none
    none 0 0 sampleMessages_idsNonzero sampleRow_written
  obtain ⟨message, hmessage, hkey⟩ := hnewest sampleRow_regular.visible
  exact ⟨sampleMessages_idsNonzero, sampleRow_regular, message, hmessage,
    (hsame sampleRow_regular).1.trans hkey⟩

/-- With a pin, the key is no message's; and with a newer important message, the two ways show
different messages. -/
theorem channel_listPosition_differs :
    (∀ message ∈ (sampleMessages 10 20).rows.map (·.2),
      (updateChannelConversationSortKeys ⟨0, 100⟩ (sampleMessages 10 20) sampleRow none none 0 0
        true).variantSortKey ≠ sampleRow.data.keyOf message) ∧
    (updateChannelConversation ⟨0, 0⟩ (sampleMessages 30 20) sampleRow).variantSortKey ≠
      (updateChannelConversationSortKeys ⟨0, 0⟩ (sampleMessages 30 20) sampleRow none none 0 0
        true).variantSortKey := by
  have hrows : (sampleMessages 10 20).rows.map (·.2) =
      [sampleMessage TGMessageSpaceImportant 1 10, sampleMessage TGMessageSpaceUnimportant 2 20] :=
    rfl
  constructor
  · rw [hrows]
    decide +kernel
  · decide +kernel

end Onegram
