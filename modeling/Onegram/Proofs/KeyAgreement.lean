import Onegram.Proofs.WireGuard
import Onegram.Proofs.X25519Group

/-!
# The handshake needs no assumption on X25519

Any two scalars commute on any point, so that initiator and responder of one handshake always come
to the same secrets, and the self-test of the handshake passes whatever keys it draws.
-/

namespace Onegram

/-- What the handshake assumes of the scalar multiplication. -/
theorem x25519Commutes (m n : Key) : X25519Commutes m n := by
  apply Vector.toList_inj.mp
  simp only [nw_x25519_base, X25519.toList_nw_x25519]
  exact Rfc7748.X25519_comm _ (by simp) (by simp)

section Run

variable {A B : NwHandshake}

/-- The responder has accepted the initiation and read the initiator's identity from it. -/
theorem handshake_run_learned (t₀ : NwTransport) (indexA indexB : UInt32)
    (ephemeralA ephemeralB : Key) (ts : Vector UInt8 12) (hAB : Paired A B) :
    let run := handshake_run A B t₀ indexA indexB ephemeralA ephemeralB ts
    run.consume_initiation_rc = 0 ∧ run.learned = A.static_public := by
  intro run
  obtain ⟨hrc, hmatch⟩ := initiation_accepted indexA ts hAB
    (x25519Commutes ephemeralA B.static_private) (x25519Commutes A.static_private B.static_private)
  have hstatic := hmatch.static
  rw [nw_wg_create_initiation_static_public] at hstatic
  constructor
  · simp only [run, handshake_run, hrc]
  · simp only [run, handshake_run, hstatic]

/-- The initiator has accepted the response, and what one end sends with the other receives
with. -/
theorem handshake_run_keys (t₀ : NwTransport) (indexA indexB : UInt32)
    (ephemeralA ephemeralB : Key) (ts : Vector UInt8 12) (hAB : Paired A B) :
    let run := handshake_run A B t₀ indexA indexB ephemeralA ephemeralB ts
    run.consume_response_rc = 0 ∧ run.tA.send_key = run.tB.recv_key ∧
      run.tA.recv_key = run.tB.send_key := by
  intro run
  obtain ⟨⟨-, hrc⟩, -, htA⟩ := handshake_run_eq t₀ indexA indexB ts hAB
    (x25519Commutes ephemeralA B.static_private) (x25519Commutes A.static_private B.static_private)
    (x25519Commutes ephemeralB ephemeralA) (x25519Commutes ephemeralB A.static_private)
  refine ⟨hrc, ?_, ?_⟩
  · simp only [run, htA]
  · simp only [run, htA]

end Run

/-- The self-test of the handshake never fails, whatever keys and random bytes it draws. -/
theorem nw_wg_selftest_ok (a_priv b_priv ephemeralA ephemeralB : Key) (ts : Vector UInt8 12)
    (t₀ : NwTransport) : nw_wg_selftest a_priv b_priv ephemeralA ephemeralB ts t₀ = 0 := by
  have hAB := paired_init a_priv b_priv (some (nw_x25519_base a_priv)) none
  obtain ⟨hinit, hlearned⟩ :=
    handshake_run_learned t₀ 0x11111111 0x22222222 ephemeralA ephemeralB ts hAB
  obtain ⟨hresp, hsend, hrecv⟩ :=
    handshake_run_keys t₀ 0x11111111 0x22222222 ephemeralA ephemeralB ts hAB
  have hpublic : (nw_handshake_init a_priv (some (nw_x25519_base b_priv)) none).static_public =
    nw_x25519_base a_priv := rfl
  simp only [nw_wg_selftest]
  rw [converse_eq _ _ _ hsend hrecv.symm, hinit, hlearned, hresp, hsend, hrecv, hpublic]
  simp [Except.toOption]

end Onegram
