import Mathlib.Data.List.Basic
import Mathlib.Tactic

/-!
# Runs of a state machine

A machine is a function from a state and an event to the next state. A run folds it over a list of
events; a condition on single steps is asked of every step a run takes, at the state it takes it
in.
-/

namespace Run

variable {σ ε : Type*} (step : σ → ε → σ)

/-- The state after a list of events. -/
def run (s : σ) (es : List ε) : σ := es.foldl step s

/-- Every step of the run meets `ok`. -/
def AllSteps (ok : σ → ε → Prop) : σ → List ε → Prop
  | _, [] => True
  | s, e :: es => ok s e ∧ AllSteps ok (step s e) es

instance decidableAllSteps (ok : σ → ε → Prop) [∀ s e, Decidable (ok s e)] :
    ∀ (s : σ) (es : List ε), Decidable (AllSteps step ok s es)
  | _, [] => .isTrue trivial
  | s, e :: es =>
    have := decidableAllSteps ok (step s e) es
    inferInstanceAs (Decidable (_ ∧ _))

@[simp] theorem run_nil (s : σ) : run step s [] = s := rfl

@[simp] theorem run_cons (s : σ) (e : ε) (es : List ε) :
    run step s (e :: es) = run step (step s e) es := rfl

theorem run_append (s : σ) (es es' : List ε) :
    run step s (es ++ es') = run step (run step s es) es' := List.foldl_append

theorem allSteps_append (ok : σ → ε → Prop) : ∀ (es es' : List ε) (s : σ),
    AllSteps step ok s (es ++ es')
      ↔ AllSteps step ok s es ∧ AllSteps step ok (run step s es) es'
  | [], _, _ => by simp [AllSteps]
  | e :: es, es', s => by
    simp only [List.cons_append, AllSteps, run_cons, allSteps_append ok es es' (step s e),
      and_assoc]

/-- A condition on the events alone is met by every step when every event meets it. -/
theorem allSteps_of_forall {P : ε → Prop} : ∀ (es : List ε) (s : σ), (∀ e ∈ es, P e) →
    AllSteps step (fun _ e => P e) s es
  | [], _, _ => trivial
  | _ :: es, _, h => ⟨h _ List.mem_cons_self,
      allSteps_of_forall es _ fun e he => h e (List.mem_cons_of_mem _ he)⟩

theorem AllSteps.and {ok ok' : σ → ε → Prop} : ∀ {es : List ε} {s : σ}, AllSteps step ok s es →
    AllSteps step ok' s es → AllSteps step (fun s e => ok s e ∧ ok' s e) s es
  | [], _, _, _ => trivial
  | _ :: _, _, h, h' => ⟨⟨h.1, h'.1⟩, AllSteps.and h.2 h'.2⟩

variable {step} {ok : σ → ε → Prop} {Inv : σ → Prop}

/-- What every step that meets the condition keeps, every run of such steps keeps. -/
theorem invariant (hstep : ∀ s e, Inv s → ok s e → Inv (step s e)) :
    ∀ (es : List ε) {s : σ}, Inv s → AllSteps step ok s es → Inv (run step s es)
  | [], _, hs, _ => hs
  | e :: es, s, hs, hok => invariant hstep es (hstep s e hs hok.1) hok.2

/-- What holds of every step that meets the condition where the invariant does, holds of every step
of such a run. -/
theorem AllSteps.of_invariant {P : σ → ε → Prop} (hstep : ∀ s e, Inv s → ok s e → Inv (step s e))
    (hP : ∀ s e, Inv s → ok s e → P s e) :
    ∀ {es : List ε} {s : σ}, Inv s → AllSteps step ok s es → AllSteps step P s es
  | [], _, _, _ => trivial
  | e :: _, s, hs, hok =>
    ⟨hP s e hs hok.1, AllSteps.of_invariant hstep hP (hstep s e hs hok.1) hok.2⟩

/-- Two conditions that agree where the invariant holds are met by the same runs. -/
theorem allSteps_congr {ok' : σ → ε → Prop} (hinv : ∀ s e, Inv s → Inv (step s e))
    (hiff : ∀ s e, Inv s → (ok s e ↔ ok' s e)) :
    ∀ (es : List ε) {s : σ}, Inv s → (AllSteps step ok s es ↔ AllSteps step ok' s es)
  | [], _, _ => Iff.rfl
  | e :: es, s, hs => and_congr (hiff s e hs) (allSteps_congr hinv hiff es (hinv s e hs))

/-- What is true of all that every step adds to a log just where the step meets the condition, is
true of all that a run has added just where its steps do. -/
theorem forall_log_iff {β : Type*} {log : σ → List β} {new : σ → ε → List β} {P : β → Prop}
    (hlog : ∀ s e, log (step s e) = log s ++ new s e)
    (hnew : ∀ s e, (∀ m ∈ new s e, P m) ↔ ok s e) : ∀ (es : List ε) (s : σ),
    (∀ m ∈ log (run step s es), P m) ↔ (∀ m ∈ log s, P m) ∧ AllSteps step ok s es
  | [], s => by simp [AllSteps]
  | e :: es, s => by
    rw [run_cons, forall_log_iff hlog hnew es (step s e), hlog, List.forall_mem_append, hnew,
      and_assoc]
    rfl

/-- A relation between the state before and the state after that every step of a run meets holds
of the run, when it is reflexive and transitive. -/
theorem relates {R : σ → σ → Prop} (hrefl : ∀ s, R s s)
    (htrans : ∀ {a b c}, R a b → R b c → R a c)
    (hstep : ∀ s e, Inv s → ok s e → Inv (step s e) ∧ R s (step s e)) :
    ∀ (es : List ε) {s : σ}, Inv s → AllSteps step ok s es → R s (run step s es)
  | [], s, _, _ => hrefl s
  | e :: es, s, hs, hok =>
    htrans (hstep s e hs hok.1).2 (relates hrefl htrans hstep es (hstep s e hs hok.1).1 hok.2)

end Run
