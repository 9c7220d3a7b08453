import Onegram.Dtls

/-!
# When the transport is ready

Readiness is the last step of `finishHandshake`, which only `driveHandshake` reaches, from a
transport that has been started and has not failed. Nothing is done to a transport that is ready.
-/

namespace Onegram.Dtls

open Run

variable {σ ω : Type*} {openSsl : OpenSsl σ ω} {t : DtlsTransport σ} {w : ω}

/-- What holds of a transport whose flags are consistent. -/
structure Consistent (openSsl : OpenSsl σ ω) (t : DtlsTransport σ) : Prop where
  configured : t.ready = true → t.configured = true
  started : t.ready = true → t.started = true
  notFailed : t.ready = true → t.failed = false
  material : t.ready = true → t.srtpKeyMaterial.length = 60
  peer : t.ready = true → ∃ s digest, t.ssl = some s ∧
    openSsl.peerCertificate s = some (some digest) ∧
    normalizeFingerprint t.remoteFingerprint ≠ [] ∧
    normalizeFingerprint t.remoteFingerprint = normalizeFingerprint (formatDigest digest)

/-- Every transport that calls leave is consistent; one that was started had been configured. -/
structure DtlsInv (openSsl : OpenSsl σ ω) (t : DtlsTransport σ) : Prop where
  consistent : Consistent openSsl t
  startedConfigured : t.started = true → t.configured = true

theorem consistent_of_not_ready (h : t.ready = false) : Consistent openSsl t := by
  constructor <;> intro hready <;> simp [h] at hready

theorem fail_inv (h : t.started = true → t.configured = true) : DtlsInv openSsl t.fail :=
  ⟨consistent_of_not_ready rfl, h⟩

/-- The end of a handshake of a started transport leaves it ready and consistent, or failed. -/
theorem finishHandshake_inv {s : σ} (hssl : t.ssl = some s) (hconfigured : t.configured = true)
    (hstarted : t.started = true) (hfailed : t.failed = false) :
    DtlsInv openSsl (finishHandshake openSsl w s t) := by
  unfold finishHandshake
  rcases hpeer : openSsl.peerCertificate s with _ | peer
  · exact fail_inv fun _ => hconfigured
  simp only []
  split_ifs with hmismatch
  · exact fail_inv fun _ => hconfigured
  rcases hprofile : openSsl.selectedSrtpProfile s with _ | profile
  · exact fail_inv fun _ => hconfigured
  simp only []
  split_ifs with hname
  · exact fail_inv fun _ => hconfigured
  rcases hexport : openSsl.exportKeyingMaterial w s with _ | material
  · exact fail_inv fun _ => hconfigured
  simp only [not_or, not_not] at hmismatch
  obtain ⟨hexpected, hactual, heq⟩ := hmismatch
  rcases peer with _ | digest
  · exact absurd rfl hactual
  refine ⟨⟨fun _ => hconfigured, fun _ => hstarted, fun _ => hfailed, fun _ => by simp,
    fun _ => ⟨s, digest, hssl, hpeer, hexpected, heq⟩⟩, fun _ => hconfigured⟩

theorem driveHandshake_inv (h : DtlsInv openSsl t) (hstarted : t.started = true) :
    DtlsInv openSsl (driveHandshake openSsl w t).1 := by
  unfold driveHandshake
  split
  · exact h
  · rename_i s hssl
    by_cases hskip : (t.failed || t.ready) = true
    · rw [if_pos hskip]
      exact h
    rw [if_neg hskip]
    simp only [Bool.or_eq_true, not_or, Bool.not_eq_true] at hskip
    simp only []
    split
    · exact finishHandshake_inv rfl (h.startedConfigured hstarted) hstarted hskip.1
    · exact ⟨consistent_of_not_ready hskip.2, h.startedConfigured⟩
    · exact fail_inv h.startedConfigured

theorem configure_inv (a : ConfigureArguments) (h : DtlsInv openSsl t) :
    DtlsInv openSsl (configure openSsl w a t) := by
  unfold configure
  by_cases hstarted : t.started = true
  · rw [if_pos hstarted]
    exact h
  rw [if_neg hstarted]
  have hready : t.ready = false := by
    by_contra hready
    exact hstarted (h.consistent.started (by simpa using hready))
  have hnot : ∀ {p : Prop}, t.started = true → p := fun h => absurd h hstarted
  by_cases hmissing : (!a.hasCertificate || !a.hasPrivateKey) = true
  · rw [if_pos hmissing]
    exact fail_inv hnot
  rw [if_neg hmissing]
  by_cases hhash : a.remoteHash.map Char.toLower ≠ "sha-256".toList
  · rw [if_pos hhash]
    exact fail_inv hnot
  rw [if_neg hhash]
  simp only []
  split
  · exact fail_inv hnot
  · exact fail_inv hnot
  · exact fail_inv hnot
  · exact ⟨consistent_of_not_ready hready, fun _ => rfl⟩

theorem start_inv (h : DtlsInv openSsl t) : DtlsInv openSsl (start openSsl w t).1 := by
  unfold start
  split_ifs with hskip hstarted
  · exact h
  · exact h
  · simp only [Bool.or_eq_true, Bool.not_eq_true', not_or, Bool.not_eq_false,
      Bool.not_eq_true] at hskip
    have hready : t.ready = false := by
      by_contra hready
      exact hstarted (h.consistent.started (by simpa using hready))
    exact driveHandshake_inv ⟨consistent_of_not_ready hready, fun _ => hskip.1.1⟩ rfl

theorem receiveDatagram_inv (data : Bytes) (h : DtlsInv openSsl t) :
    DtlsInv openSsl (receiveDatagram openSsl w data t).1 := by
  unfold receiveDatagram
  split_ifs with hskip
  · exact h
  · simp only [Bool.or_eq_true, Bool.not_eq_true', not_or, Bool.not_eq_false,
      Bool.not_eq_true] at hskip
    exact driveHandshake_inv ⟨consistent_of_not_ready hskip.2, h.startedConfigured⟩
      hskip.1.1.1.1

theorem handleTimeout_inv (h : DtlsInv openSsl t) :
    DtlsInv openSsl (handleTimeout openSsl w t).1 := by
  unfold handleTimeout
  split
  · exact h
  · by_cases hskip : (!t.started || t.failed || t.ready) = true
    · rw [if_pos hskip]
      exact h
    rw [if_neg hskip]
    simp only [Bool.or_eq_true, not_or, Bool.not_eq_true] at hskip
    simp only []
    split_ifs
    · exact fail_inv h.startedConfigured
    · exact ⟨consistent_of_not_ready hskip.2, h.startedConfigured⟩

theorem dtlsStep_inv (t : DtlsTransport σ) (c : DtlsCall ω) (h : DtlsInv openSsl t) :
    DtlsInv openSsl (dtlsStep openSsl t c) := by
  cases c with
  | configure w a => exact configure_inv a h
  | start w => exact start_inv h
  | receiveDatagram w data => exact receiveDatagram_inv data h
  | handleTimeout w => exact handleTimeout_inv h

/-! ## Failure is final -/

theorem driveHandshake_failed (h : t.failed = true) :
    (driveHandshake openSsl w t).1.failed = true := by
  unfold driveHandshake
  split
  · exact h
  · rw [if_pos (by simp [h])]
    exact h

theorem configure_failed (a : ConfigureArguments) (h : t.failed = true) :
    (configure openSsl w a t).failed = true := by
  unfold configure
  by_cases hstarted : t.started = true
  · rw [if_pos hstarted]
    exact h
  rw [if_neg hstarted]
  by_cases hmissing : (!a.hasCertificate || !a.hasPrivateKey) = true
  · rw [if_pos hmissing]
    rfl
  rw [if_neg hmissing]
  by_cases hhash : a.remoteHash.map Char.toLower ≠ "sha-256".toList
  · rw [if_pos hhash]
    rfl
  rw [if_neg hhash]
  simp only []
  split
  · rfl
  · rfl
  · rfl
  · exact h

theorem dtlsStep_failed (c : DtlsCall ω) (h : t.failed = true) :
    (dtlsStep openSsl t c).failed = true := by
  cases c with
  | configure w a => exact configure_failed a h
  | start w =>
    simp only [dtlsStep, start]
    rw [if_pos (by simp [h])]
    exact h
  | receiveDatagram w data =>
    simp only [dtlsStep, receiveDatagram]
    rw [if_pos (by simp [h])]
    exact h
  | handleTimeout w =>
    simp only [dtlsStep, handleTimeout]
    split
    · exact h
    · rw [if_pos (by simp [h])]
      exact h

theorem run_failed : ∀ {calls : List (DtlsCall ω)} {t : DtlsTransport σ}, t.failed = true →
    (run (dtlsStep openSsl) t calls).failed = true
  | [], _, h => h
  | c :: calls, t, h => by
    rw [run_cons]
    exact run_failed (dtlsStep_failed c h)

theorem fresh_inv : DtlsInv openSsl (DtlsTransport.fresh σ) :=
  ⟨consistent_of_not_ready rfl, fun h => by simp [DtlsTransport.fresh] at h⟩

/-- After any calls the transport is consistent, is never both ready and failed, and stays failed
whatever follows once it is. -/
theorem dtls_consistent (openSsl : OpenSsl σ ω) (calls after : List (DtlsCall ω)) :
    Consistent openSsl (run (dtlsStep openSsl) (DtlsTransport.fresh σ) calls) ∧
    ¬ ((run (dtlsStep openSsl) (DtlsTransport.fresh σ) calls).ready = true ∧
      (run (dtlsStep openSsl) (DtlsTransport.fresh σ) calls).failed = true) ∧
    ((run (dtlsStep openSsl) (DtlsTransport.fresh σ) calls).failed = true →
      (run (dtlsStep openSsl) (DtlsTransport.fresh σ) (calls ++ after)).failed = true) := by
  have hok : AllSteps (dtlsStep openSsl) (fun _ _ => True) (DtlsTransport.fresh σ) calls :=
    allSteps_of_forall _ _ _ fun _ _ => trivial
  have hinv : DtlsInv openSsl (run (dtlsStep openSsl) (DtlsTransport.fresh σ) calls) :=
    invariant (fun s c h _ => dtlsStep_inv s c h) calls fresh_inv hok
  refine ⟨hinv.consistent, fun ⟨hready, hfailed⟩ => ?_, fun hfailed => ?_⟩
  · rw [hinv.consistent.notFailed hready] at hfailed
    simp at hfailed
  · rw [run_append]
    exact run_failed hfailed

end Onegram.Dtls
