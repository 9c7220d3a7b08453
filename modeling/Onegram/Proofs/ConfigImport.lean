import Onegram.ConfigImport

/-!
# When the copies of an import fit

A line has at most 4095 bytes, and neither trimming nor cutting makes a text longer, so the line and
its value fit their buffers. What is left is the key, the parts of an endpoint and the items of an
address list, line by line.
-/

namespace Onegram.ConfigImport

open Onegram.Routes

/-! ## Lengths -/

theorem fgetsLines_length : ∀ (file line : Bytes), line.length < 4095 →
    ∀ l ∈ fgetsLines line file, l.length ≤ 4095
  | [], line, hline, l, hl => by
    rw [fgetsLines] at hl
    split_ifs at hl
    · cases hl
    · rw [List.mem_singleton.1 hl]
      omega
  | c :: file, line, hline, l, hl => by
    have hlen : (line ++ [c]).length = line.length + 1 := by simp
    rw [fgetsLines] at hl
    split_ifs at hl with hend
    · rcases List.mem_cons.1 hl with rfl | hl
      · omega
      · exact fgetsLines_length file [] (by norm_num) l hl
    · rw [not_or] at hend
      exact fgetsLines_length file (line ++ [c]) (by omega) l hl

theorem length_trimmed_le (text : Bytes) : (trimmed text).length ≤ text.length :=
  (List.rdropWhile_prefix _ _).length_le.trans (List.dropWhile_sublist _).length_le

theorem length_splitFirst {sep : UInt8} {text before after : Bytes}
    (h : splitFirst sep text = some (before, after)) :
    before.length < text.length ∧ after.length < text.length := by
  have hsum := congrArg List.length (List.takeWhile_append_dropWhile (p := (· ≠ sep)) (l := text))
  rw [List.length_append] at hsum
  unfold splitFirst at h
  cases hdrop : text.dropWhile (· ≠ sep) with
  | nil =>
    rw [hdrop] at h
    cases h
  | cons c rest =>
    rw [hdrop] at h hsum
    obtain ⟨rfl, rfl⟩ := Prod.mk.inj (Option.some.inj h)
    rw [List.length_cons] at hsum
    omega

theorem trim_of_lt {size : ℕ} {text : Bytes} (h : text.length < size) :
    trim size text = some (trimmed text) := by
  rw [trim, if_pos ((length_trimmed_le text).trans_lt h)]

/-! ## Steps that may fail -/

theorem foldlM_isSome_iff {α β : Type} {step : α → β → Option α} {fits : β → Prop} :
    ∀ (l : List β) (a : α), (∀ a, ∀ b ∈ l, (step a b).isSome ↔ fits b) →
      ((l.foldlM step a).isSome ↔ ∀ b ∈ l, fits b)
  | [], a, _ => by simp
  | b :: l, a, h => by
    have hb := h a b List.mem_cons_self
    rw [List.foldlM_cons, List.forall_mem_cons, ← hb]
    cases hstep : step a b with
    | none => simp
    | some a' =>
      have ih := foldlM_isSome_iff l a' fun a b hb => h a b (List.mem_cons_of_mem _ hb)
      simpa using ih

/-! ## Lines -/

theorem trimInto_isSome {conf : Conf} {f : Field} {text : Bytes} :
    (conf.trimInto f text).isSome ↔ (trimmed text).length < f.size := by
  rw [Conf.trimInto]
  split_ifs with h
  · exact iff_of_true rfl h
  · exact iff_of_false (by simp) h

theorem importEndpoint_isSome (conf : Conf) (val : Bytes) :
    (importEndpoint conf val).isSome
      ↔ ∀ host port, splitLast 0x3a val = some (host, port) →
          (trimmed host).length < 128 ∧ (trimmed port).length < 128 := by
  rw [importEndpoint]
  cases splitLast 0x3a val with
  | none => simp
  | some parts =>
    obtain ⟨host, port⟩ := parts
    have hhost := @trimInto_isSome conf .endpoint host
    cases hset : conf.trimInto .endpoint host with
    | none =>
      rw [hset] at hhost
      refine iff_of_false (by simp [hset]) fun h => ?_
      exact absurd (hhost.2 (h host port rfl).1) (by simp)
    | some conf' =>
      rw [hset] at hhost
      have hport := @trimInto_isSome conf' .port port
      simp only [hset, Option.bind_eq_bind, Option.bind_some, hport]
      constructor
      · rintro h _ _ ⟨⟩
        exact ⟨hhost.1 rfl, h⟩
      · intro h
        exact (h host port rfl).2

theorem importAddress_isSome (conf : Conf) (token : Bytes) :
    (importAddress conf token).isSome ↔ (trimmed token).length < 128 := by
  rw [importAddress, trim]
  split_ifs with h
  · refine iff_of_true ?_ h
    simp only [Option.bind_eq_bind, Option.bind_some]
    split_ifs <;> rfl
  · exact iff_of_false (by simp) h

/-- No key has two names. -/
theorem isKey_plain {key : Bytes} {name : String} (h : isKey key name = true)
    (hname : ∀ k ∈ plainKeys, (ascii k.1).map toLower ≠ (ascii name).map toLower) :
    plainKeys.find? (fun k => isKey key k.1) = none := by
  rw [List.find?_eq_none]
  intro k hk hkey
  have h₁ : key.map toLower = (ascii name).map toLower := by simpa [isKey] using h
  have h₂ : key.map toLower = (ascii k.1).map toLower := by simpa [isKey] using hkey
  exact hname k hk (h₂.symm.trans h₁)

theorem isKey_endpoint {key : Bytes} (h : isKey key "Endpoint" = true) :
    plainKeys.find? (fun k => isKey key k.1) = none :=
  isKey_plain h (by decide)

theorem isKey_address {key : Bytes} (h : isKey key "Address" = true) :
    plainKeys.find? (fun k => isKey key k.1) = none ∧ isKey key "Endpoint" = false := by
  refine ⟨isKey_plain h (by decide), ?_⟩
  have h₁ : key.map toLower = (ascii "Address").map toLower := by simpa [isKey] using h
  rw [isKey, h₁]
  decide

theorem importValue_isSome (conf : Conf) (key val : Bytes) :
    (importValue conf key val).isSome
      ↔ (isKey key "Endpoint" = true → ∀ host port, splitLast 0x3a val = some (host, port) →
            (trimmed host).length < 128 ∧ (trimmed port).length < 128)
        ∧ (isKey key "Address" = true → ∀ item ∈ val.splitOn 0x2c, (trimmed item).length < 128) := by
  rw [importValue]
  by_cases hend : isKey key "Endpoint" = true
  · have haddr : ¬isKey key "Address" = true := by
      intro h
      rw [(isKey_address h).2] at hend
      cases hend
    rw [isKey_endpoint hend]
    simp only [if_pos hend]
    rw [importEndpoint_isSome]
    exact ⟨fun h => ⟨fun _ => h, fun h' => absurd h' haddr⟩, fun h => h.1 hend⟩
  by_cases haddr : isKey key "Address" = true
  · rw [(isKey_address haddr).1]
    simp only [if_neg hend, if_pos haddr]
    rw [foldlM_isSome_iff _ conf fun conf b _ => importAddress_isSome conf b]
    constructor
    · intro h
      refine ⟨fun h' => absurd h' hend, fun _ item hitem => ?_⟩
      by_cases hnil : item = []
      · subst hnil
        decide
      · exact h item (List.mem_filter.2 ⟨hitem, by simpa using hnil⟩)
    · rintro ⟨-, h⟩ item hitem
      exact h haddr item (List.mem_filter.1 hitem).1
  · refine iff_of_true ?_ ⟨fun h => absurd h hend, fun h => absurd h haddr⟩
    cases plainKeys.find? fun k => isKey key k.1 with
    | none =>
      simp only [if_neg hend, if_neg haddr]
      rfl
    | some k => rfl

/-- The loop's own copy of a line and that of its value always fit. -/
theorem importLine_isSome (conf : Conf) {line : Bytes} (hline : line.length ≤ 4095) :
    (importLine conf line).isSome ↔ LineFits line := by
  have hstring : (cString line).length ≤ 4095 :=
    ((List.takeWhile_prefix _).length_le).trans hline
  have htrimmed := length_trimmed_le (cString line)
  rw [importLine, trim_of_lt (by omega)]
  simp only [Option.bind_eq_bind, Option.bind_some]
  cases htext : trimmed (cString line) with
  | nil =>
    have hnone : setting line = none := by
      rw [setting, htext]
      rfl
    refine iff_of_true rfl ⟨?_, ?_, ?_⟩ <;> simp [hnone]
  | cons c rest =>
    simp only
    split_ifs with hskip
    · have hnone : setting line = none := by
        rw [setting, htext]
        simp only [List.head?_cons, Option.some.injEq, if_pos hskip]
      refine iff_of_true rfl ⟨?_, ?_, ?_⟩ <;> simp [hnone]
    have hsetting : setting line
        = (splitFirst 0x3d (c :: rest)).map fun parts => (trimmed parts.1, trimmed parts.2) := by
      rw [setting, htext]
      simp only [List.head?_cons, Option.some.injEq, if_neg hskip]
    cases hsplit : splitFirst 0x3d (c :: rest) with
    | none =>
      rw [hsplit] at hsetting
      refine iff_of_true rfl ⟨?_, ?_, ?_⟩ <;> simp [hsetting]
    | some parts =>
      obtain ⟨before, after⟩ := parts
      obtain ⟨-, hafter⟩ := length_splitFirst hsplit
      rw [hsplit] at hsetting
      rw [htext] at htrimmed
      simp only [trim_of_lt (by omega : after.length < 4096), Option.bind_some]
      rw [trim]
      split_ifs with hkey
      · rw [Option.bind_some, importValue_isSome]
        constructor
        · rintro ⟨hend, haddr⟩
          refine ⟨?_, ?_, ?_⟩ <;> rw [hsetting]
          · rintro key val ⟨⟩
            exact hkey
          · rintro key val host port ⟨⟩ hk hlast
            exact hend hk host port hlast
          · rintro key val ⟨⟩ hk
            exact haddr hk
        · intro h
          exact ⟨fun hk host port => h.endpoint _ _ host port hsetting hk,
            fun hk => h.address _ _ hsetting hk⟩
      · refine iff_of_false (by simp) fun h => ?_
        exact hkey (h.key _ _ hsetting)

/-- Every copy fits exactly when each line fits. -/
theorem cmd_import_conf_iff (file : Bytes) :
    (cmd_import_conf file).isSome ↔ ∀ line ∈ fgetsLines [] file, LineFits line := by
  have hfold : ((fgetsLines [] file).foldlM importLine Conf.empty).isSome
      ↔ ∀ line ∈ fgetsLines [] file, LineFits line :=
    foldlM_isSome_iff _ _ fun conf line hline =>
      importLine_isSome conf (fgetsLines_length file [] (by norm_num) line hline)
  rw [← hfold, cmd_import_conf]
  cases (fgetsLines [] file).foldlM importLine Conf.empty with
  | none => exact Iff.rfl
  | some conf =>
    refine iff_of_true ?_ rfl
    simp only [Option.bind_eq_bind, Option.bind_some]
    split_ifs <;> rfl

/-- An address of 128 bytes is written past the end of `addr_item`. -/
theorem long_address_overflows :
    cmd_import_conf (ascii "Address=" ++ List.replicate 128 0x31) = none := by
  decide +kernel

end Onegram.ConfigImport
