/-!
# Runs of a labelled system

A **run** is a sequence of steps with the labels they carry. An invariant of the steps is an
invariant of the runs; a relation that every step of one system can be answered in by a step
of another with the same label turns the runs of the first into runs of the second. The
labels are what a user sees, so this is what it means for the first to implement the second.
-/

namespace Interaction

universe u v w

variable {σ : Type u} {τ : Type v} {ℓ : Type w}

/-- `Run step a ls b`: the steps labelled `ls` lead from `a` to `b`. -/
inductive Run (step : σ → ℓ → σ → Prop) : σ → List ℓ → σ → Prop
  | nil (a : σ) : Run step a [] a
  | cons {a b c : σ} {l : ℓ} {ls : List ℓ} (h : step a l b) (hs : Run step b ls c) :
      Run step a (l :: ls) c

namespace Run

variable {step : σ → ℓ → σ → Prop} {spec : τ → ℓ → τ → Prop}

/-- Runs can be put together and taken apart. -/
theorem append {a b c : σ} {ls ls' : List ℓ} (hrun : Run step a ls b) (hrun' : Run step b ls' c) :
    Run step a (ls ++ ls') c := by
  induction hrun with
  | nil _ => exact hrun'
  | cons h _ ih => exact .cons h (ih hrun')

/-- A run over two stretches of labels passes through a state in between. -/
theorem of_append {a c : σ} {ls ls' : List ℓ} (hrun : Run step a (ls ++ ls') c) :
    ∃ b, Run step a ls b ∧ Run step b ls' c := by
  induction ls generalizing a with
  | nil => exact ⟨a, .nil a, hrun⟩
  | cons l ls ih =>
    cases hrun with
    | cons h hs =>
      obtain ⟨b, hfirst, hsecond⟩ := ih hs
      exact ⟨b, .cons h hfirst, hsecond⟩

/-- What every step preserves, every run preserves. -/
theorem invariant {I : σ → Prop} {P : ℓ → Prop}
    (hstep : ∀ a l b, P l → I a → step a l b → I b) {a b : σ} {ls : List ℓ}
    (hrun : Run step a ls b) (hls : ∀ l ∈ ls, P l) (ha : I a) : I b := by
  induction hrun with
  | nil _ => exact ha
  | cons h _ ih =>
    have hrest := fun l hl => hls l (List.mem_cons_of_mem _ hl)
    exact ih hrest (hstep _ _ _ (hls _ List.mem_cons_self) ha h)

/-- A relation that every step respects carries whole runs over. -/
theorem simulation {R : σ → τ → Prop} {P : ℓ → Prop}
    (hstep : ∀ a l b x, P l → R a x → step a l b → ∃ y, spec x l y ∧ R b y)
    {a b : σ} {x : τ} {ls : List ℓ} (hrun : Run step a ls b) (hls : ∀ l ∈ ls, P l)
    (hx : R a x) : ∃ y, Run spec x ls y ∧ R b y := by
  induction hrun generalizing x with
  | nil a => exact ⟨x, .nil x, hx⟩
  | cons h _ ih =>
    obtain ⟨y, hspec, hy⟩ := hstep _ _ _ x (hls _ List.mem_cons_self) hx h
    obtain ⟨z, hrest, hz⟩ := ih (fun l hl => hls l (List.mem_cons_of_mem _ hl)) hy
    exact ⟨z, .cons hspec hrest, hz⟩

end Run

end Interaction
