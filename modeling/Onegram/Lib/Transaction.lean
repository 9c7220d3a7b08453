import Mathlib.Tactic

/-!
# Connections to a database

A connection sees the tables with the changes of its open transaction. Outside of a transaction
every statement commits its own change. A block that wants one begins a transaction where none is
open, and then commits it; such blocks may be nested.
-/

structure Connection (τ : Type*) where
  committed : τ
  tables : τ
  inTransaction : Bool
  settled : inTransaction = false → committed = tables

namespace Connection

variable {τ : Type*} {c : Connection τ} {body body' : Connection τ → Connection τ} {f : τ → τ}

/-- A connection with nothing open. -/
def opened (tables : τ) : Connection τ := ⟨tables, tables, false, fun _ => rfl⟩

/-- `BEGIN`, which fails where a transaction is open. -/
def beginTransaction (c : Connection τ) : Connection τ :=
  ⟨c.committed, c.tables, true, fun h => by cases h⟩

/-- `COMMIT`, which fails where none is open and then has nothing to do. -/
def commit (c : Connection τ) : Connection τ := ⟨c.tables, c.tables, false, fun _ => rfl⟩

/-- A statement, or several of them. -/
def execute (f : τ → τ) (c : Connection τ) : Connection τ where
  committed := if c.inTransaction then c.committed else f c.tables
  tables := f c.tables
  inTransaction := c.inTransaction
  settled h := by rw [if_neg (by simp [h])]

/-- A block with a transaction of its own where none is open. -/
def transaction (body : Connection τ → Connection τ) (c : Connection τ) : Connection τ :=
  if c.inTransaction then body c else (body c.beginTransaction).commit

@[simp] theorem tables_opened (tables : τ) : (opened tables).tables = tables := rfl

@[simp] theorem inTransaction_opened (tables : τ) : (opened tables).inTransaction = false := rfl

@[simp] theorem tables_beginTransaction : c.beginTransaction.tables = c.tables := rfl

@[simp] theorem inTransaction_beginTransaction : c.beginTransaction.inTransaction = true := rfl

@[simp] theorem committed_beginTransaction : c.beginTransaction.committed = c.committed := rfl

@[simp] theorem tables_commit : c.commit.tables = c.tables := rfl

@[simp] theorem inTransaction_commit : c.commit.inTransaction = false := rfl

@[simp] theorem tables_execute : (c.execute f).tables = f c.tables := rfl

@[simp] theorem inTransaction_execute : (c.execute f).inTransaction = c.inTransaction := rfl

/-- A part of a block: it leaves the transaction as it is, and commits nothing of it. -/
structure Nested (body : Connection τ → Connection τ) : Prop where
  inTransaction : ∀ c, (body c).inTransaction = c.inTransaction
  committed : ∀ c, c.inTransaction = true → (body c).committed = c.committed

namespace Nested

theorem execute (f : τ → τ) : Nested (Connection.execute f) where
  inTransaction _ := rfl
  committed _ h := if_pos h

theorem id : Nested (fun c : Connection τ => c) := ⟨fun _ => rfl, fun _ _ => rfl⟩

theorem comp (h : Nested body) (h' : Nested body') : Nested (fun c => body' (body c)) where
  inTransaction c := (h'.inTransaction _).trans (h.inTransaction c)
  committed c hopen :=
    (h'.committed _ ((h.inTransaction c).trans hopen)).trans (h.committed c hopen)

theorem ite (h : Nested body) (h' : Nested body') (p : Prop) [Decidable p] :
    Nested (fun c => if p then body c else body' c) := by
  split_ifs
  · exact h
  · exact h'

theorem foldl {ε : Type*} {step : ε → Connection τ → Connection τ} (h : ∀ e, Nested (step e)) :
    ∀ es : List ε, Nested (fun c => es.foldl (fun c e => step e c) c)
  | [] => id
  | e :: es => (h e).comp (foldl h es)

/-- A block is itself a part of any other. -/
theorem transaction (h : Nested body) : Nested (Connection.transaction body) where
  inTransaction c := by
    unfold Connection.transaction
    split_ifs with hopen
    · exact h.inTransaction c
    · rw [inTransaction_commit]
      exact (Bool.eq_false_iff.mpr hopen).symm
  committed c hopen := by
    rw [Connection.transaction, if_pos hopen]
    exact h.committed c hopen

end Nested

/-- A part of a block that leaves what `g` reads of the tables. -/
def Preserves {σ : Type*} (g : τ → σ) (body : Connection τ → Connection τ) : Prop :=
  ∀ c, g (body c).tables = g c.tables

namespace Preserves

variable {σ : Type*} {g : τ → σ}

theorem execute (h : ∀ t, g (f t) = g t) : Preserves g (Connection.execute f) :=
  fun c => h c.tables

theorem id : Preserves g (fun c : Connection τ => c) := fun _ => rfl

theorem comp (h : Preserves g body) (h' : Preserves g body') :
    Preserves g (fun c => body' (body c)) := fun c => (h' _).trans (h c)

theorem ite (h : Preserves g body) (h' : Preserves g body') (p : Prop) [Decidable p] :
    Preserves g (fun c => if p then body c else body' c) := by
  split_ifs
  · exact h
  · exact h'

theorem foldl {ε : Type*} {step : ε → Connection τ → Connection τ} (h : ∀ e, Preserves g (step e)) :
    ∀ es : List ε, Preserves g (fun c => es.foldl (fun c e => step e c) c)
  | [] => id
  | e :: es => (h e).comp (foldl h es)

theorem transaction (h : Preserves g body) : Preserves g (Connection.transaction body) := by
  intro c
  unfold Connection.transaction
  split_ifs
  · exact h c
  · exact h c.beginTransaction

end Preserves

end Connection
