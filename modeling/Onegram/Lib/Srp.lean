import Mathlib.Tactic

/-!
# Secure remote password

Two parties agree on a secret of which the client's part is a password and the server's a verifier
of it. Over any commutative ring both compute the same.
-/

namespace Srp

variable {R : Type*} [CommRing R] (g k : R)

/-- What the server keeps of the password's number. -/
def verifier (x : ℕ) : R := g ^ x

def clientPublic (a : ℕ) : R := g ^ a

def serverPublic (v : R) (b : ℕ) : R := k * v + g ^ b

/-- What the client takes for the server's own power of the generator. -/
def unmasked (B : R) (x : ℕ) : R := B - k * verifier g x

def clientSecret (B : R) (x a u : ℕ) : R := unmasked g k B x ^ (a + u * x)

/-- What the server computes of the client's public value. -/
def serverSecret (A v : R) (u b : ℕ) : R := (A * v ^ u) ^ b

theorem unmasked_serverPublic (x b : ℕ) :
    unmasked g k (serverPublic g k (verifier g x) b) x = g ^ b := by
  rw [unmasked, serverPublic]
  ring

theorem secrets_agree (x a b u : ℕ) :
    clientSecret g k (serverPublic g k (verifier g x) b) x a u
      = serverSecret (clientPublic g a) (verifier g x) u b := by
  rw [clientSecret, unmasked_serverPublic, serverSecret, clientPublic, verifier, ← pow_mul,
    ← pow_mul, ← pow_add, ← pow_mul, Nat.mul_comm x u, Nat.mul_comm b]

end Srp
