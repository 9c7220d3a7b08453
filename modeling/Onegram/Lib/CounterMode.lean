import Onegram.Lib.Bytes

/-!
# Counter mode byte by byte

A stream is encrypted by one byte of an encrypted counter after the other. A new counter is
encrypted where the bytes of the last one are used up, so that a state is a counter, the last
encrypted one and how many of its bytes are used.
-/

namespace CounterMode

/-- `block` is the counter before `counter` encrypted, of which `num` bytes are used. -/
@[ext] structure State (κ : Type*) where
  counter : κ
  block : Bytes
  num : ℕ

variable {κ κ' : Type*} (B : ℕ) (E : κ → Bytes) (next : κ → κ)

def refill (s : State κ) : State κ :=
  if s.num = 0 then { s with counter := next s.counter, block := E s.counter } else s

def step (s : State κ) (b : UInt8) : UInt8 × State κ :=
  let s := refill E next s
  (b ^^^ s.block.getD s.num 0, { s with num := (s.num + 1) % B })

def run : State κ → Bytes → Bytes × State κ
  | s, [] => ([], s)
  | s, b :: rest =>
    let first := step B E next s b
    let more := run first.2 rest
    (first.1 :: more.1, more.2)

/-- The bytes of `block` from `n` on over a text. -/
def xorFrom (block : Bytes) : ℕ → Bytes → Bytes
  | _, [] => []
  | n, b :: rest => (b ^^^ block.getD n 0) :: xorFrom block (n + 1) rest

variable {B E next}

theorem run_append : ∀ (u v : Bytes) (s : State κ), run B E next s (u ++ v)
    = ((run B E next s u).1 ++ (run B E next (run B E next s u).2 v).1,
      (run B E next (run B E next s u).2 v).2)
  | [], _, _ => rfl
  | b :: u, v, s => by
    have ih := run_append u v (step B E next s b).2
    simp only [List.cons_append, run, ih]

/-- A stream in pieces is the stream in one piece. -/
theorem run_flatten : ∀ (pieces : List Bytes) (s : State κ), run B E next s pieces.flatten
    = pieces.foldl (fun (acc : Bytes × State κ) u =>
        (acc.1 ++ (run B E next acc.2 u).1, (run B E next acc.2 u).2)) ([], s) := by
  suffices h : ∀ (pieces : List Bytes) (out : Bytes) (s : State κ), pieces.foldl
      (fun (acc : Bytes × State κ) u =>
        (acc.1 ++ (run B E next acc.2 u).1, (run B E next acc.2 u).2)) (out, s)
      = (out ++ (run B E next s pieces.flatten).1, (run B E next s pieces.flatten).2) by
    intro pieces s
    rw [h, List.nil_append]
  intro pieces
  induction pieces with
  | nil =>
    intro out s
    rw [List.flatten_nil, run, List.append_nil, List.foldl_nil]
  | cons u pieces ih =>
    intro out s
    rw [List.foldl_cons, ih, List.flatten_cons, run_append, List.append_assoc]

theorem num_run_lt (hB : 0 < B) : ∀ (u : Bytes) {s : State κ}, s.num < B →
    (run B E next s u).2.num < B
  | [], _, h => h
  | _ :: u, _, _ => num_run_lt hB u (Nat.mod_lt _ hB)

/-- Within a block that has been begun. -/
theorem run_begun : ∀ (u : Bytes) {s : State κ}, 0 < s.num → s.num < B → s.num + u.length ≤ B →
    run B E next s u = (xorFrom s.block s.num u, { s with num := (s.num + u.length) % B })
  | [], s, _, hlt, _ => by
    rw [List.length_nil, Nat.add_zero, Nat.mod_eq_of_lt hlt]
    rfl
  | b :: u, s, hpos, hlt, hle => by
    rw [List.length_cons] at hle
    have hstep : step B E next s b
        = (b ^^^ s.block.getD s.num 0, { s with num := (s.num + 1) % B }) := by
      rw [step, refill, if_neg (by omega)]
    rw [run, hstep, xorFrom, List.length_cons]
    rcases Nat.lt_or_ge (s.num + 1) B with hnext | hend
    · have hmod : (s.num + 1) % B = s.num + 1 := Nat.mod_eq_of_lt hnext
      have hshift : s.num + 1 + u.length = s.num + (u.length + 1) := by omega
      simp only [hmod]
      rw [run_begun u (s := { s with num := s.num + 1 }) (Nat.succ_pos _) hnext
        (by simp only; omega)]
      simp only [hshift]
    · have hnil : u = [] := List.eq_nil_of_length_eq_zero (by omega)
      subst hnil
      rfl

/-- A block that begins. -/
theorem run_fresh {u : Bytes} {s : State κ} (hnum : s.num = 0) (hu : u ≠ []) (hB : u.length ≤ B) :
    run B E next s u
      = (xorFrom (E s.counter) 0 u, ⟨next s.counter, E s.counter, u.length % B⟩) := by
  obtain ⟨b, u, rfl⟩ := List.exists_cons_of_ne_nil hu
  have hstep : step B E next s b
      = (b ^^^ (E s.counter).getD 0 0, ⟨next s.counter, E s.counter, 1 % B⟩) := by
    rw [step, refill, if_pos hnum]
    simp only [hnum]
  rw [List.length_cons] at hB
  rw [run, hstep, xorFrom, List.length_cons]
  rcases Nat.lt_or_ge 1 B with hone | hone
  · have hmod : 1 % B = 1 := Nat.mod_eq_of_lt hone
    have hshift : 1 + u.length = u.length + 1 := Nat.add_comm _ _
    simp only [hmod]
    rw [run_begun u (s := ⟨next s.counter, E s.counter, 1⟩) Nat.one_pos hone (by simp only; omega)]
    simp only [hshift]
  · have hnil : u = [] := List.eq_nil_of_length_eq_zero (by omega)
    subst hnil
    rfl

/-! ## The same stream with other counters -/

def State.map (f : κ → κ') (s : State κ) : State κ' := ⟨f s.counter, s.block, s.num⟩

/-- Counters that are stepped and encrypted alike give one stream. -/
theorem run_map {E' : κ' → Bytes} {next' : κ' → κ'} (f : κ → κ') (hE : ∀ k, E' (f k) = E k)
    (hnext : ∀ k, f (next k) = next' (f k)) : ∀ (u : Bytes) (s : State κ),
    run B E' next' (s.map f) u = ((run B E next s u).1, (run B E next s u).2.map f)
  | [], _ => rfl
  | b :: u, s => by
    have hrefill : refill E' next' (s.map f) = (refill E next s).map f := by
      have hnum : (s.map f).num = s.num := rfl
      by_cases h : s.num = 0
      · rw [refill, refill, hnum, if_pos h, if_pos h]
        simp only [State.map, hE, hnext]
      · rw [refill, refill, hnum, if_neg h, if_neg h]
    have hstep : step B E' next' (s.map f) b
        = ((step B E next s b).1, (step B E next s b).2.map f) := by
      rw [step, hrefill]
      rfl
    simp only [run, hstep, run_map f hE hnext u]

end CounterMode
