import Mathlib.Logic.Basic

/-!
# Interaction programs

A program that talks to an environment is a finite interaction tree: it returns a value,
stops in a fault, or asks the environment a question and continues with the reply. The
type of a reply may depend on the question. Nothing is assumed of the environment here;
a **handler** says, for a state of the environment and a question, which replies are
possible and which state follows, so one program is run against many environments: an
arbitrary one, a store, a recorded trace.

`Exec` is the operational meaning (one derivation is one complete run), `wp` the
backward reading of the same thing (every run from here ends well), and
`wp_iff_forall_exec` says they agree. A fault is an outcome of its own, so partial and
total correctness are the two choices of the fault postcondition.

The local memory of a program is a state threaded on top (`Script`); the rules for it are
stated once for the monadic operations, which is what symbolic execution of a translated
function uses.
-/

namespace Interaction

universe u v w x y

/-- A finite interaction tree over questions `ι`, replies `ρ` and faults `ε`. -/
inductive Program (ι : Type u) (ρ : ι → Type v) (ε : Type w) (α : Type x) :
    Type (max u v w x)
  /-- The program returns. -/
  | ret (a : α)
  /-- The program stops in a fault; nothing after it runs. -/
  | fault (e : ε)
  /-- The program asks the environment and goes on with the reply. -/
  | ask (i : ι) (k : ρ i → Program ι ρ ε α)

/-- What an environment with state `σ` may reply to a question, and its next state. -/
abbrev Handler (σ : Type y) (ι : Type u) (ρ : ι → Type v) : Type (max u v y) :=
  σ → (i : ι) → ρ i → σ → Prop

/-- One question together with the reply it got. -/
abbrev Event (ι : Type u) (ρ : ι → Type v) : Type (max u v) := (i : ι) × ρ i

namespace Program

variable {ι : Type u} {ρ : ι → Type v} {ε : Type w} {α β γ : Type x} {σ : Type y}

/-- Sequential composition: a fault of the first part is a fault of the whole. -/
def bind : Program ι ρ ε α → (α → Program ι ρ ε β) → Program ι ρ ε β
  | ret a, f => f a
  | fault e, _ => fault e
  | ask i k, f => ask i fun r => (k r).bind f

instance : Monad (Program ι ρ ε) where
  pure := ret
  bind := bind

/-- Right unit. -/
theorem bind_ret (p : Program ι ρ ε α) : p >>= ret = p := by
  induction p with
  | ret a => rfl
  | fault e => rfl
  | ask i k ih => exact congrArg (ask i) (funext ih)

/-- Associativity. -/
theorem bind_bind (p : Program ι ρ ε α) (f : α → Program ι ρ ε β) (g : β → Program ι ρ ε γ) :
    p >>= f >>= g = p >>= fun a => f a >>= g := by
  induction p with
  | ret a => rfl
  | fault e => rfl
  | ask i k ih => exact congrArg (ask i) (funext ih)

instance : LawfulMonad (Program ι ρ ε) :=
  LawfulMonad.mk' _ bind_ret (fun _ _ => rfl) bind_bind

/-! ### Complete runs -/

/-- `Exec h p w o w'`: run against `h` from `w`, the program `p` ends with outcome `o` (a
returned value, or a fault) and leaves the environment in `w'`. -/
inductive Exec (h : Handler σ ι ρ) : Program ι ρ ε α → σ → Except ε α → σ → Prop
  | ret (a : α) (w : σ) : Exec h (ret a) w (.ok a) w
  | fault (e : ε) (w : σ) : Exec h (fault e) w (.error e) w
  | ask {i : ι} {k : ρ i → Program ι ρ ε α} {w w₁ w₂ : σ} {r : ρ i} {o : Except ε α}
      (hr : h w i r w₁) (hk : Exec h (k r) w₁ o w₂) : Exec h (ask i k) w o w₂

/-- A run of the first part and a run of what follows make a run of the whole. -/
theorem Exec.bind {h : Handler σ ι ρ} {p : Program ι ρ ε α} {f : α → Program ι ρ ε β}
    {w w₁ w₂ : σ} {a : α} {o : Except ε β} (hp : Exec h p w (.ok a) w₁)
    (hf : Exec h (f a) w₁ o w₂) : Exec h (p >>= f) w o w₂ := by
  generalize ho : (Except.ok a : Except ε α) = o' at hp
  induction hp with
  | ret a' w => cases ho; exact hf
  | fault e w => cases ho
  | ask hr _ ih => exact .ask hr (ih hf ho)

/-- A run is a run in every environment with more replies. -/
theorem Exec.of_handler {h h' : Handler σ ι ρ} (hle : ∀ w i r w', h w i r w' → h' w i r w')
    {p : Program ι ρ ε α} {w w' : σ} {o : Except ε α} (hp : Exec h p w o w') :
    Exec h' p w o w' := by
  induction hp with
  | ret a w => exact .ret a w
  | fault e w => exact .fault e w
  | ask hr _ ih => exact .ask (hle _ _ _ _ hr) ih

/-- `wp h F p Q w`: every run of `p` from `w` against `h` ends with a value and a state in
`Q`, or with a fault and a state in `F`. -/
def wp (h : Handler σ ι ρ) (F : ε → σ → Prop) : Program ι ρ ε α → (α → σ → Prop) → σ → Prop
  | ret a, Q, w => Q a w
  | fault e, _, w => F e w
  | ask i k, Q, w => ∀ r w₁, h w i r w₁ → (k r).wp h F Q w₁

/-- A postcondition on values and one on faults, read as one on outcomes. -/
def Ends (F : ε → σ → Prop) (Q : α → σ → Prop) : Except ε α → σ → Prop
  | .ok a, w => Q a w
  | .error e, w => F e w

variable {h : Handler σ ι ρ} {F : ε → σ → Prop}

/-- The backward and the operational reading agree. -/
theorem wp_iff_forall_exec {p : Program ι ρ ε α} {Q : α → σ → Prop} {w : σ} :
    p.wp h F Q w ↔ ∀ o w', Exec h p w o w' → Ends F Q o w' := by
  induction p generalizing w with
  | ret a =>
    refine ⟨fun hq o w' he => ?_, fun hall => hall _ _ (.ret a w)⟩
    cases he
    exact hq
  | fault e =>
    refine ⟨fun hf o w' he => ?_, fun hall => hall _ _ (.fault e w)⟩
    cases he
    exact hf
  | ask i k ih =>
    constructor
    · intro hwp o w' he
      cases he with
      | ask hr hk => exact (ih _).mp (hwp _ _ hr) o w' hk
    · intro hall r w₁ hr
      exact (ih r).mpr fun o w' hk => hall o w' (.ask hr hk)

/-- Consequence. -/
theorem wp_mono {F' : ε → σ → Prop} {p : Program ι ρ ε α} {Q Q' : α → σ → Prop} {w : σ}
    (hF : ∀ e w, F e w → F' e w) (hQ : ∀ a w, Q a w → Q' a w) (hwp : p.wp h F Q w) :
    p.wp h F' Q' w := by
  induction p generalizing w with
  | ret a => exact hQ _ _ hwp
  | fault e => exact hF _ _ hwp
  | ask i k ih => exact fun r w₁ hr => ih r (hwp r w₁ hr)

/-- Conjunction. -/
theorem wp_and {F' : ε → σ → Prop} {p : Program ι ρ ε α} {Q Q' : α → σ → Prop} {w : σ}
    (hp : p.wp h F Q w) (hp' : p.wp h F' Q' w) :
    p.wp h (fun e w' => F e w' ∧ F' e w') (fun a w' => Q a w' ∧ Q' a w') w := by
  induction p generalizing w with
  | ret a => exact ⟨hp, hp'⟩
  | fault e => exact ⟨hp, hp'⟩
  | ask i k ih => exact fun r w₁ hr => ih r (hp r w₁ hr) (hp' r w₁ hr)

/-- Fewer replies, fewer runs. -/
theorem wp_of_handler {h' : Handler σ ι ρ} (hle : ∀ w i r w', h' w i r w' → h w i r w')
    {p : Program ι ρ ε α} {Q : α → σ → Prop} {w : σ} (hwp : p.wp h F Q w) : p.wp h' F Q w := by
  induction p generalizing w with
  | ret a => exact hwp
  | fault e => exact hwp
  | ask i k ih => exact fun r w₁ hr => ih r (hwp r w₁ (hle _ _ _ _ hr))

/-- Nothing is asked of a run. -/
theorem wp_true {p : Program ι ρ ε α} {w : σ} :
    p.wp h (fun _ _ => True) (fun _ _ => True) w := by
  induction p generalizing w with
  | ret a => trivial
  | fault e => trivial
  | ask i k ih => exact fun r w₁ _ => ih r

/-- The bind rule. -/
theorem wp_bind {p : Program ι ρ ε α} {f : α → Program ι ρ ε β} {Q : β → σ → Prop} {w : σ} :
    (p >>= f).wp h F Q w ↔ p.wp h F (fun a w₁ => (f a).wp h F Q w₁) w := by
  induction p generalizing w with
  | ret a => rfl
  | fault e => rfl
  | ask i k ih => exact forall_congr' fun r => forall_congr' fun w₁ => imp_congr_right fun _ => ih r

end Program

/-! ### Programs with a local memory -/

/-- A program with local memory `S`. -/
abbrev Script (S : Type x) (ι : Type u) (ρ : ι → Type v) (ε : Type w) :
    Type x → Type (max u v w x) :=
  StateT S (Program ι ρ ε)

namespace Script

variable {S : Type x} {ι : Type u} {ρ : ι → Type v} {ε : Type w} {α β : Type x} {σ : Type y}

/-- Stop in a fault. -/
def fault (e : ε) : Script S ι ρ ε α := fun _ => .fault e

/-- Run `m` on a part of the memory: `get` reads the part, `put` stores it back. -/
def zoom {T : Type x} (get : T → S) (put : S → T → T) (m : Script S ι ρ ε α) :
    Script T ι ρ ε α :=
  fun t => m (get t) >>= fun p => .ret (p.1, put p.2 t)

/-- Weakest precondition of a script: memory before and after are explicit. -/
def wp (h : Handler σ ι ρ) (F : ε → σ → Prop) (m : Script S ι ρ ε α)
    (Q : α → S → σ → Prop) (s : S) (w : σ) : Prop :=
  (m s).wp h F (fun p w' => Q p.1 p.2 w') w

variable {h : Handler σ ι ρ} {F : ε → σ → Prop} {Q Q' : α → S → σ → Prop} {s s' : S} {w w' : σ}

/-- A returning run satisfies the postcondition of every `wp` that holds where it starts. -/
theorem wp.of_exec {m : Script S ι ρ ε α} {a : α} (hwp : wp h F m Q s w)
    (he : Program.Exec h (m s) w (.ok (a, s')) w') : Q a s' w' :=
  Program.wp_iff_forall_exec.mp hwp _ _ he

/-- Consequence, for scripts. -/
theorem wp_mono {F' : ε → σ → Prop} {m : Script S ι ρ ε α} (hwp : wp h F m Q s w)
    (hF : ∀ e w, F e w → F' e w) (hQ : ∀ a s w, Q a s w → Q' a s w) : wp h F' m Q' s w :=
  Program.wp_mono hF (fun _ _ => hQ _ _ _) hwp

/-- Conjunction, for scripts. -/
theorem wp_and {F' : ε → σ → Prop} {m : Script S ι ρ ε α} (hm : wp h F m Q s w)
    (hm' : wp h F' m Q' s w) :
    wp h (fun e w' => F e w' ∧ F' e w') m (fun a s' w' => Q a s' w' ∧ Q' a s' w') s w :=
  Program.wp_and hm hm'

/-- A handler with fewer replies has fewer runs. -/
theorem wp_of_handler {h' : Handler σ ι ρ} (hle : ∀ w i r w', h' w i r w' → h w i r w')
    {m : Script S ι ρ ε α} (hwp : wp h F m Q s w) : wp h' F m Q s w :=
  Program.wp_of_handler hle hwp

theorem wp_true {m : Script S ι ρ ε α} :
    wp h (fun _ _ => True) m (fun _ _ _ => True) s w :=
  Program.wp_true

/-- Soundness and completeness, for scripts. -/
theorem wp_iff_forall_exec {m : Script S ι ρ ε α} : wp h F m Q s w ↔
    ∀ o w', Program.Exec h (m s) w o w' →
      Program.Ends F (fun (p : α × S) w' => Q p.1 p.2 w') o w' :=
  Program.wp_iff_forall_exec

/-- The run of a composition. -/
theorem exec_bind {m : Script S ι ρ ε α} {f : α → Script S ι ρ ε β} {a : α} {w₁ w₂ : σ}
    {o : Except ε (β × S)} (hm : Program.Exec h (m s) w (.ok (a, s')) w₁)
    (hf : Program.Exec h (f a s') w₁ o w₂) : Program.Exec h ((m >>= f) s) w o w₂ :=
  Program.Exec.bind (p := m s) (f := fun q : α × S => f q.1 q.2) (a := (a, s')) hm hf

/-- A read of the state in front. -/
theorem get_bind_eq {f : S → Script S ι ρ ε β} : (get >>= f) s = f s s := rfl

/-- A first part that asks nothing. -/
theorem bind_of_eq {m : Script S ι ρ ε α} {f : α → Script S ι ρ ε β} {a : α}
    {p : Program ι ρ ε (β × S)} (hm : m s = pure (a, s')) (hf : f a s' = p) :
    (m >>= f) s = p := by
  change m s >>= (fun q => f q.1 q.2) = p
  rw [hm]
  exact hf

/-- The postconditions of a script may name the run that leads to them. -/
theorem wp_with_exec {m : Script S ι ρ ε α} (hwp : wp h F m Q s w) :
    wp h (fun e w' => F e w' ∧ Program.Exec h (m s) w (.error e) w') m
      (fun a s' w' => Q a s' w' ∧ Program.Exec h (m s) w (.ok (a, s')) w') s w := by
  refine wp_iff_forall_exec.mpr fun o w' hex => ?_
  have hends := wp_iff_forall_exec.mp hwp o w' hex
  match o, hex, hends with
  | .ok _, hex, hends => exact ⟨hends, hex⟩
  | .error _, hex, hends => exact ⟨hends, hex⟩

@[simp] theorem wp_pure {a : α} : wp h F (pure a) Q s w ↔ Q a s w := Iff.rfl

@[simp] theorem wp_bind {m : Script S ι ρ ε α} {f : α → Script S ι ρ ε β}
    {Q : β → S → σ → Prop} :
    wp h F (m >>= f) Q s w ↔ wp h F m (fun a s₁ w₁ => wp h F (f a) Q s₁ w₁) s w :=
  Program.wp_bind (p := m s) (f := fun p => f p.1 p.2)

@[simp] theorem wp_get {Q : S → S → σ → Prop} : wp h F get Q s w ↔ Q s s w := Iff.rfl

@[simp] theorem wp_set {t : S} {Q : PUnit → S → σ → Prop} :
    wp h F (set t) Q s w ↔ Q ⟨⟩ t w := Iff.rfl

@[simp] theorem wp_modify {f : S → S} {Q : PUnit → S → σ → Prop} :
    wp h F (modify f) Q s w ↔ Q ⟨⟩ (f s) w := Iff.rfl

@[simp] theorem wp_fault {e : ε} : wp h F (fault e) Q s w ↔ F e w := Iff.rfl

@[simp] theorem wp_ite {c : Prop} [Decidable c] {m n : Script S ι ρ ε α} :
    wp h F (if c then m else n) Q s w ↔ (c → wp h F m Q s w) ∧ (¬c → wp h F n Q s w) := by
  split <;> simp [*]

/-- A script on a part of the state. -/
@[simp] theorem wp_zoom {T : Type x} {get : T → S} {put : S → T → T} {m : Script S ι ρ ε α}
    {Q : α → T → σ → Prop} {t : T} :
    wp h F (zoom get put m) Q t w ↔ wp h F m (fun a s₁ w₁ => Q a (put s₁ t) w₁) (get t) w :=
  Program.wp_bind (p := m (get t))

end Script

/-- Ask one question. -/
def ask {S : Type v} {ι : Type u} {ρ : ι → Type v} {ε : Type w} (i : ι) :
    Script S ι ρ ε (ρ i) :=
  fun s => .ask i fun r => .ret (r, s)

/-- The run of a call and of what follows it. -/
theorem Script.exec_ask {S α : Type v} {ι : Type u} {ρ : ι → Type v} {ε : Type w} {σ : Type y}
    {h : Handler σ ι ρ} {i : ι} {f : ρ i → Script S ι ρ ε α} {r : ρ i} {s : S} {w₁ w₂ w₃ : σ}
    {o : Except ε (α × S)} (hr : h w₁ i r w₂) (hf : Program.Exec h (f r s) w₂ o w₃) :
    Program.Exec h ((ask i >>= f) s) w₁ o w₃ :=
  .ask hr hf

@[simp] theorem Script.wp_ask {S : Type v} {ι : Type u} {ρ : ι → Type v} {ε : Type w}
    {σ : Type y} {h : Handler σ ι ρ} {F : ε → σ → Prop} {i : ι} {Q : ρ i → S → σ → Prop}
    {s : S} {w : σ} :
    Script.wp h F (ask i) Q s w ↔ ∀ r w', h w i r w' → Q r s w' := Iff.rfl

end Interaction
