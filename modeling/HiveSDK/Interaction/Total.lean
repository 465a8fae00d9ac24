import HiveSDK.Interaction.Reach

/-!
# Total correctness

`wp` speaks of the runs that come to an end. In an environment that may have no reply to a question,
a run can also be stuck there; `twp` is the weakest precondition that excludes this: every run can
go on until it ends, and ends well. It is `wp` and `Halts` in one (`twp.wp`, `twp.halts`), so that
both can be shown by one induction, and it obeys the same rules for the monadic operations.
-/

namespace Interaction

universe u v w x y

variable {ι : Type u} {ρ : ι → Type v} {ε : Type w} {α β : Type x} {σ : Type y}

namespace Program

/-- Every run of the program from `w` can go on until it returns or faults. -/
def Halts (h : Handler σ ι ρ) : Program ι ρ ε α → σ → Prop
  | ret _, _ => True
  | fault _, _ => True
  | ask i k, w => (∃ r w', h w i r w') ∧ ∀ r w', h w i r w' → (k r).Halts h w'

/-- `twp h F p Q w`: every run of `p` from `w` against `h` can go on until it ends, with a value and
a state in `Q`, or with a fault and a state in `F`. -/
def twp (h : Handler σ ι ρ) (F : ε → σ → Prop) : Program ι ρ ε α → (α → σ → Prop) → σ → Prop
  | ret a, Q, w => Q a w
  | fault e, _, w => F e w
  | ask i k, Q, w => (∃ r w', h w i r w') ∧ ∀ r w', h w i r w' → (k r).twp h F Q w'

variable {h : Handler σ ι ρ} {F : ε → σ → Prop}

/-- Total correctness includes termination. -/
theorem twp.halts {p : Program ι ρ ε α} {Q : α → σ → Prop} {w : σ} (hp : p.twp h F Q w) :
    p.Halts h w := by
  induction p generalizing w with
  | ret a => trivial
  | fault e => trivial
  | ask i k ih => exact ⟨hp.1, fun r w' hr => ih r (hp.2 r w' hr)⟩

/-- A program that halts has a run. -/
theorem Halts.exists_exec {p : Program ι ρ ε α} {w : σ} (hp : p.Halts h w) :
    ∃ o w', Exec h p w o w' := by
  induction p generalizing w with
  | ret a => exact ⟨_, _, .ret a w⟩
  | fault e => exact ⟨_, _, .fault e w⟩
  | ask i k ih =>
    obtain ⟨⟨r, w₁, hr⟩, hnext⟩ := hp
    obtain ⟨o, w', hex⟩ := ih r (hnext r w₁ hr)
    exact ⟨o, w', .ask hr hex⟩

/-- It includes partial correctness. -/
theorem twp.wp {p : Program ι ρ ε α} {Q : α → σ → Prop} {w : σ} (hp : p.twp h F Q w) :
    p.wp h F Q w := by
  induction p generalizing w with
  | ret a => exact hp
  | fault e => exact hp
  | ask i k ih => exact fun r w' hr => ih r (hp.2 r w' hr)

/-- Where every run ends well, some run does. -/
theorem twp.reaches {p : Program ι ρ ε α} {Q : α → σ → Prop} {w : σ} (hp : p.twp h F Q w) :
    p.reaches h F Q w := by
  induction p generalizing w with
  | ret a => exact hp
  | fault e => exact hp
  | ask i k ih =>
    obtain ⟨⟨r, w', hr⟩, hnext⟩ := hp
    exact ⟨r, w', hr, ih r (hnext r w' hr)⟩

/-- What is known of the runs that end is known of all of them when none is stuck. -/
theorem twp.of_wp {F' : ε → σ → Prop} {p : Program ι ρ ε α} {Q Q' : α → σ → Prop} {w : σ}
    (hp : p.twp h F Q w) (hwp : p.wp h F' Q' w) : p.twp h F' Q' w := by
  induction p generalizing w with
  | ret a => exact hwp
  | fault e => exact hwp
  | ask i k ih => exact ⟨hp.1, fun r w' hr => ih r (hp.2 r w' hr) (hwp r w' hr)⟩

/-- Consequence. -/
theorem twp_mono {F' : ε → σ → Prop} {p : Program ι ρ ε α} {Q Q' : α → σ → Prop} {w : σ}
    (hF : ∀ e w, F e w → F' e w) (hQ : ∀ a w, Q a w → Q' a w) (hp : p.twp h F Q w) :
    p.twp h F' Q' w := by
  induction p generalizing w with
  | ret a => exact hQ _ _ hp
  | fault e => exact hF _ _ hp
  | ask i k ih => exact ⟨hp.1, fun r w' hr => ih r (hp.2 r w' hr)⟩

/-- The bind rule. -/
theorem twp_bind {p : Program ι ρ ε α} {f : α → Program ι ρ ε β} {Q : β → σ → Prop} {w : σ} :
    (p >>= f).twp h F Q w ↔ p.twp h F (fun a w₁ => (f a).twp h F Q w₁) w := by
  induction p generalizing w with
  | ret a => rfl
  | fault e => rfl
  | ask i k ih =>
    refine and_congr_right fun _ => forall_congr' fun r => forall_congr' fun w₁ => ?_
    exact imp_congr_right fun _ => ih r

/-- A program within bounds is not stuck in an environment that answers what is within them; what
is known of its runs is then known of all of them. -/
theorem wp.total {P : ι → Prop} {E : ε → Prop} (hanswers : ∀ w i, P i → ∃ r w', h w i r w')
    {p : Program ι ρ ε α} {Q : α → σ → Prop} {w : σ} (hp : p.Within P E) (hwp : p.wp h F Q w) :
    p.twp h F Q w := by
  induction p generalizing w with
  | ret a => exact hwp
  | fault e => exact hwp
  | ask i k ih => exact ⟨hanswers w i hp.1, fun r w' hr => ih r (hp.2 r) (hwp r w' hr)⟩

end Program

namespace Script

variable {S : Type x} {h : Handler σ ι ρ} {F : ε → σ → Prop} {s : S} {w : σ}

/-- `Program.twp` for a script: memory before and after are explicit. -/
def twp (h : Handler σ ι ρ) (F : ε → σ → Prop) (m : Script S ι ρ ε α) (Q : α → S → σ → Prop) (s : S)
    (w : σ) : Prop :=
  (m s).twp h F (fun p w' => Q p.1 p.2 w') w

variable {Q : α → S → σ → Prop}

/-- Consequence, for scripts. -/
theorem twp_mono {F' : ε → σ → Prop} {m : Script S ι ρ ε α} {Q' : α → S → σ → Prop}
    (hm : twp h F m Q s w) (hF : ∀ e w, F e w → F' e w) (hQ : ∀ a s w, Q a s w → Q' a s w) :
    twp h F' m Q' s w :=
  Program.twp_mono hF (fun _ _ => hQ _ _ _) hm

/-- Termination from one proof, what the runs do from another. -/
theorem twp.of_wp {F' : ε → σ → Prop} {m : Script S ι ρ ε α} {Q' : α → S → σ → Prop}
    (hm : twp h F m Q s w) (hwp : wp h F' m Q' s w) : twp h F' m Q' s w :=
  Program.twp.of_wp hm hwp

/-- Where every call is answered, partial correctness is total. -/
theorem wp.total {P : ι → Prop} {E : ε → Prop} (hanswers : ∀ w i, P i → ∃ r w', h w i r w')
    {m : Script S ι ρ ε α} (hm : m.Within P E) (hwp : wp h F m Q s w) : twp h F m Q s w :=
  Program.wp.total hanswers (hm s) hwp

@[simp] theorem twp_pure {a : α} : twp h F (pure a) Q s w ↔ Q a s w := Iff.rfl

@[simp] theorem twp_bind {m : Script S ι ρ ε α} {f : α → Script S ι ρ ε β}
    {Q : β → S → σ → Prop} :
    twp h F (m >>= f) Q s w ↔ twp h F m (fun a s₁ w₁ => twp h F (f a) Q s₁ w₁) s w :=
  Program.twp_bind (p := m s) (f := fun p => f p.1 p.2)

@[simp] theorem twp_get {Q : S → S → σ → Prop} : twp h F get Q s w ↔ Q s s w := Iff.rfl

@[simp] theorem twp_modify {f : S → S} {Q : PUnit → S → σ → Prop} :
    twp h F (modify f) Q s w ↔ Q ⟨⟩ (f s) w := Iff.rfl

@[simp] theorem twp_fault {e : ε} : twp h F (fault e : Script S ι ρ ε α) Q s w ↔ F e w := Iff.rfl

@[simp] theorem twp_ite {c : Prop} [Decidable c] {m n : Script S ι ρ ε α} :
    twp h F (if c then m else n) Q s w ↔ (c → twp h F m Q s w) ∧ (¬c → twp h F n Q s w) := by
  split <;> simp [*]

end Script

@[simp] theorem Script.twp_ask {S : Type v} {ι : Type u} {ρ : ι → Type v} {ε : Type w}
    {σ : Type y} {h : Handler σ ι ρ} {F : ε → σ → Prop} {i : ι} {Q : ρ i → S → σ → Prop} {s : S}
    {w : σ} :
    Script.twp h F (ask i) Q s w ↔ (∃ r w', h w i r w') ∧ ∀ r w', h w i r w' → Q r s w' := Iff.rfl

end Interaction
