import Mathlib.Data.List.Basic
import Onegram.BackupAddresses
import Onegram.Proofs.TLSerialization

/-!
# The last rule of the list decides

A rule that does not apply to the number leaves the group out, as one that excludes it does. So only
the last rule of a list counts: a group is included when that one includes the number, or when there
is no list. A list follows its rules where its last rule includes the number, or where an excluding
rule is the last one that applies.
-/

namespace Onegram.MTIPData

open Bytes TL Reader

section Rules

variable (phoneNumber : Option String)

theorem applyRule_verdict (included : Bool) (rule : List Char) :
    applyRule phoneNumber included rule = decide (verdict phoneNumber rule = some true) := by
  unfold applyRule verdict
  rcases rule with _ | ⟨sign, text⟩
  · rfl
  · rw [if_neg (by simp)]
    simp only [List.head?_cons, Option.some.injEq, List.drop_succ_cons, List.drop_zero]
    by_cases hmark : hasPrefix phoneNumber text = true
    · by_cases hplus : sign = '+'
      · simp [hmark, hplus]
      · by_cases hminus : sign = '-' <;> simp [hmark, hplus, hminus]
    · simp [hmark]

theorem includeIp_append (rules : List (List Char)) (rule : List Char) :
    includeIp phoneNumber (rules ++ [rule]) = decide (verdict phoneNumber rule = some true) := by
  unfold includeIp
  rw [List.foldl_append, List.foldl_cons, List.foldl_nil, applyRule_verdict]

theorem includeIp_iff (rules : List (List Char)) :
    includeIp phoneNumber rules = true
      ↔ rules = [] ∨ ∃ before rule, rules = before ++ [rule]
          ∧ verdict phoneNumber rule = some true := by
  rcases List.eq_nil_or_concat' rules with rfl | ⟨before, rule, rfl⟩
  · exact ⟨fun _ => .inl rfl, fun _ => rfl⟩
  · rw [includeIp_append, decide_eq_true_iff]
    constructor
    · exact fun h => .inr ⟨before, rule, rfl, h⟩
    · rintro (hnil | ⟨before', rule', hrules, h⟩)
      · exact absurd hnil (by simp)
      · obtain ⟨-, hrule⟩ := List.append_inj' hrules rfl
        rw [List.singleton_inj.mp hrule]
        exact h

theorem lastVerdict_nil : lastVerdict phoneNumber [] = true := rfl

/-- A rule that does not apply changes nothing. -/
theorem lastVerdict_append_none (rules : List (List Char)) {rule : List Char}
    (h : verdict phoneNumber rule = none) :
    lastVerdict phoneNumber (rules ++ [rule]) = lastVerdict phoneNumber rules := by
  unfold lastVerdict
  rw [List.filterMap_append, List.filterMap_cons_none h, List.filterMap_nil, List.append_nil]

theorem lastVerdict_append_some (rules : List (List Char)) {rule : List Char} {included : Bool}
    (h : verdict phoneNumber rule = some included) :
    lastVerdict phoneNumber (rules ++ [rule]) = included := by
  unfold lastVerdict
  rw [List.filterMap_append, List.filterMap_cons_some h, List.filterMap_nil,
    List.getLast?_append, List.getLast?_singleton, Option.some_or, Option.getD_some]

theorem lastVerdict_append_neutral (rules : List (List Char)) : ∀ after : List (List Char),
    (∀ rule ∈ after, verdict phoneNumber rule = none) →
      lastVerdict phoneNumber (rules ++ after) = lastVerdict phoneNumber rules := by
  intro after
  induction after using List.reverseRecOn with
  | nil => intro _; rw [List.append_nil]
  | append_singleton after rule ih =>
    intro h
    rw [← List.append_assoc, lastVerdict_append_none _ _ (h rule (by simp))]
    exact ih fun other hother => h other (List.mem_append_left _ hother)

/-- The decision of the last rule that applies, by that rule. -/
theorem lastVerdict_excludes_iff (rules : List (List Char)) :
    lastVerdict phoneNumber rules = false
      ↔ ∃ before rule after, rules = before ++ rule :: after
          ∧ verdict phoneNumber rule = some false
          ∧ ∀ later ∈ after, verdict phoneNumber later = none := by
  constructor
  · intro h
    induction rules using List.reverseRecOn with
    | nil => exact absurd h (by simp [lastVerdict_nil])
    | append_singleton rules rule ih =>
      rcases hverdict : verdict phoneNumber rule with _ | included
      · rw [lastVerdict_append_none _ _ hverdict] at h
        obtain ⟨before, found, after, rfl, hfound, hafter⟩ := ih h
        refine ⟨before, found, after ++ [rule], by simp, hfound, ?_⟩
        intro later hlater
        rcases List.mem_append.mp hlater with hin | hin
        · exact hafter later hin
        · rw [List.mem_singleton.mp hin]
          exact hverdict
      · rw [lastVerdict_append_some _ _ hverdict] at h
        subst h
        exact ⟨rules, rule, [], rfl, hverdict, by simp⟩
  · rintro ⟨before, rule, after, rfl, hrule, hafter⟩
    rw [List.append_cons, lastVerdict_append_neutral _ _ _ hafter,
      lastVerdict_append_some _ _ hrule]

/-- The last rule of the list includes the number, or an excluding rule is the last that
applies. -/
def LastRuleApplies (rules : List (List Char)) : Prop :=
  rules = []
    ∨ (∃ before rule, rules = before ++ [rule] ∧ verdict phoneNumber rule = some true)
    ∨ ∃ before rule after, rules = before ++ rule :: after
        ∧ verdict phoneNumber rule = some false
        ∧ ∀ later ∈ after, verdict phoneNumber later = none

theorem includeIp_lastVerdict (rules : List (List Char)) (h : includeIp phoneNumber rules = true) :
    lastVerdict phoneNumber rules = true := by
  rcases (includeIp_iff phoneNumber rules).mp h with rfl | ⟨before, rule, rfl, hrule⟩
  · rfl
  · exact lastVerdict_append_some _ _ hrule

theorem includeIp_eq_lastVerdict_iff (rules : List (List Char)) :
    includeIp phoneNumber rules = lastVerdict phoneNumber rules
      ↔ LastRuleApplies phoneNumber rules := by
  unfold LastRuleApplies
  rw [← or_assoc, ← includeIp_iff, ← lastVerdict_excludes_iff]
  constructor
  · intro h
    rcases hlast : lastVerdict phoneNumber rules with _ | _
    · exact .inr rfl
    · exact .inl (h.trans hlast)
  · rintro (h | h)
    · rw [h, includeIp_lastVerdict phoneNumber rules h]
    · rw [h]
      by_contra hinc
      have hlast := includeIp_lastVerdict phoneNumber rules (by simpa using hinc)
      rw [h] at hlast
      cases hlast

end Rules

/-! ## The groups of a block -/

section Groups

variable (phoneNumber : Option String)

/-- A group the number gets. -/
def included (group : RuleGroup) : Bool :=
  includeIp phoneNumber (components group.phonePrefixRules)

/-- The addresses of the groups that are included. -/
def includedAddresses (groups : List RuleGroup) : List MTBackupDatacenterAddress :=
  (groups.filter (included phoneNumber)).flatMap RuleGroup.ruleAddressList

theorem addRuleGroup_eq (addressList : List MTBackupDatacenterAddress) (group : RuleGroup) :
    addRuleGroup phoneNumber addressList group
      = addressList ++ includedAddresses phoneNumber [group] := by
  unfold addRuleGroup includedAddresses included
  by_cases h : includeIp phoneNumber (components group.phonePrefixRules) = true
  · simp [h]
  · simp [h]

/-- The loop reads the groups one after the other, whoever they are for. -/
theorem readRuleGroups_eq : ∀ (n : ℕ) (addressList : List MTBackupDatacenterAddress) (s : Bytes),
    readRuleGroups phoneNumber n addressList s
      = (times readRuleGroup n s).map
          fun p => (addressList ++ includedAddresses phoneNumber p.1, p.2)
  | 0, addressList, s => by
    change some (addressList, s) = some (addressList ++ [], s)
    rw [List.append_nil]
  | n + 1, addressList, s => by
    rw [readRuleGroups, times, bind_apply, bind_apply]
    rcases readRuleGroup s with _ | ⟨group, t⟩
    · rfl
    · simp only [Option.bind_some]
      rw [readRuleGroups_eq n, bind_apply, addRuleGroup_eq]
      rcases times readRuleGroup n t with _ | ⟨groups, u⟩
      · rfl
      · have hcons : includedAddresses phoneNumber [group] ++ includedAddresses phoneNumber groups
            = includedAddresses phoneNumber (group :: groups) := by
          unfold includedAddresses
          rw [← List.flatMap_append, ← List.filter_append, List.singleton_append]
        change some (_ ++ _ ++ _, u) = some (addressList ++ includedAddresses _ (group :: groups), u)
        rw [List.append_assoc, hcons]

theorem readData_configuration {s t : Bytes} {sent : RuleConfiguration}
    (h : readConfiguration s = some (sent, t)) :
    readData phoneNumber s
      = some (⟨sent.timestamp, sent.expirationDate,
          includedAddresses phoneNumber sent.groups⟩, t) := by
  unfold readConfiguration at h
  unfold readData
  rw [bind_apply] at h ⊢
  obtain ⟨⟨signature, s₁⟩, hsignature, h⟩ := Option.bind_eq_some_iff.mp h
  rw [hsignature]
  simp only [Option.bind_some] at h ⊢
  split at h
  case isFalse => cases h
  case isTrue hrules =>
    rw [if_neg (by rw [hrules]; decide), if_pos hrules]
    unfold readRuleData
    rw [bind_apply] at h ⊢
    obtain ⟨⟨timestamp, s₂⟩, htimestamp, h⟩ := Option.bind_eq_some_iff.mp h
    rw [htimestamp, Option.bind_some, bind_apply]
    rw [bind_apply] at h
    obtain ⟨⟨expirationDate, s₃⟩, hexpiration, h⟩ := Option.bind_eq_some_iff.mp h
    rw [hexpiration, Option.bind_some, bind_apply]
    rw [bind_apply] at h
    obtain ⟨⟨count, s₄⟩, hcount, h⟩ := Option.bind_eq_some_iff.mp h
    rw [hcount, Option.bind_some, bind_apply, readRuleGroups_eq]
    rw [bind_apply] at h
    obtain ⟨⟨groups, s₅⟩, hgroups, h⟩ := Option.bind_eq_some_iff.mp h
    rw [hgroups]
    obtain ⟨rfl, rfl⟩ := Prod.mk.inj (Option.some.inj h)
    rfl

theorem MTIPDataDecode_configuration {platform : Platform} {data : Bytes}
    {sent : RuleConfiguration} (h : configuration platform data = some sent) :
    MTIPDataDecode platform data phoneNumber
      = some ⟨sent.timestamp, sent.expirationDate, includedAddresses phoneNumber sent.groups⟩ := by
  obtain ⟨result, hresult, h⟩ := Option.bind_eq_some_iff.mp h
  obtain ⟨⟨sent', t⟩, hread, h⟩ := Option.bind_eq_some_iff.mp h
  obtain rfl := Option.some.inj h
  unfold MTIPDataDecode
  rw [hresult]
  change (readData phoneNumber result).bind _ = _
  rw [readData_configuration phoneNumber hread]
  rfl

end Groups

/-- The addresses are those of the included groups, in order; and a group is included as the last
rule that applies says exactly where that one is the last of the list or excludes the number. -/
theorem backup_rules_iff {platform : Platform} {data : Bytes} {sent : RuleConfiguration}
    (h : configuration platform data = some sent) (phoneNumber : Option String) :
    MTIPDataDecode platform data phoneNumber
        = some ⟨sent.timestamp, sent.expirationDate, includedAddresses phoneNumber sent.groups⟩
      ∧ ∀ group : RuleGroup,
        included phoneNumber group = lastVerdict phoneNumber (components group.phonePrefixRules)
          ↔ LastRuleApplies phoneNumber (components group.phonePrefixRules) :=
  ⟨MTIPDataDecode_configuration phoneNumber h,
    fun group => includeIp_eq_lastVerdict_iff phoneNumber (components group.phonePrefixRules)⟩

/-- A platform whose key, cipher and hash leave the block as it is. -/
def plainPlatform : Platform where
  BN_mod_exp := some
  AES_cbc_decrypt := fun _ _ data => data
  EVP_sha256 := fun _ => List.replicate 32 0

/-- One group with one address, for every number that does not begin with `7`. -/
def sampleGroup : Bytes :=
  [0x5f, 0xb6, 0x79, 0x46] ++ [3, 44, 45, 55] ++ [2, 0, 0, 0] ++ [1, 0, 0, 0]
    ++ [0x73, 0xad, 0x33, 0xd4] ++ [4, 3, 2, 1] ++ [187, 1, 0, 0]

def sampleBlock : Bytes :=
  let content := [0x6c, 0x2a, 0x59, 0x5a] ++ [100, 0, 0, 0] ++ [200, 0, 0, 0] ++ [1, 0, 0, 0]
    ++ sampleGroup
  List.replicate 32 0 ++ [44, 0, 0, 0] ++ content ++ List.replicate (256 - 80) 0

/-- What the block holds. -/
def sampleConfiguration : RuleConfiguration :=
  ⟨100, 200, [⟨some ",-7", [⟨2, "1.2.3.4", 443, none⟩]⟩]⟩

theorem configuration_sampleBlock :
    configuration plainPlatform sampleBlock = some sampleConfiguration := by
  decide +kernel

/-- For a number with `7` the excluding rule is the last, and it applies. -/
theorem backup_rules_excluded :
    LastRuleApplies (some "7901") (components (some ",-7"))
      ∧ MTIPDataDecode plainPlatform sampleBlock (some "7901") = some ⟨100, 200, []⟩ := by
  obtain ⟨hdecode, hrules⟩ := backup_rules_iff configuration_sampleBlock (some "7901")
  refine ⟨(hrules ⟨some ",-7", []⟩).mp (by decide +kernel), ?_⟩
  rw [hdecode]
  decide +kernel

/-- For another number it does not apply, and the empty rule before it includes. The group is left
out all the same. -/
theorem neutral_rule_excludes :
    configuration plainPlatform sampleBlock = some sampleConfiguration
      ∧ lastVerdict (some "4930") (components (some ",-7")) = true
      ∧ MTIPDataDecode plainPlatform sampleBlock (some "4930") = some ⟨100, 200, []⟩ := by
  decide +kernel

end Onegram.MTIPData
