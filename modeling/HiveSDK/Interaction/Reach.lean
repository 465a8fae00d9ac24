import HiveSDK.Interaction.Trace

/-!
# Runs that exist

`wp` says what every run does. To say that some run does it, the replies are chosen instead of
given: `reaches` is the same backward reading with the environment on our side
(`reaches_iff_exists_exec`), and it obeys the same rules for the monadic operations. A run that is
recorded is a run on a trace (`Exec.of_recorded`), so what is reached against `record` is reached
on some trace.
-/

namespace Interaction

universe u v w x y

variable {ι : Type u} {ρ : ι → Type v} {ε : Type w} {α β : Type x} {σ : Type y}

namespace Program

/-- `reaches h F p Q w`: some run of `p` from `w` against `h` ends with a value and a state in
`Q`, or with a fault and a state in `F`. -/
def reaches (h : Handler σ ι ρ) (F : ε → σ → Prop) :
    Program ι ρ ε α → (α → σ → Prop) → σ → Prop
  | ret a, Q, w => Q a w
  | fault e, _, w => F e w
  | ask i k, Q, w => ∃ r w₁, h w i r w₁ ∧ (k r).reaches h F Q w₁

variable {h : Handler σ ι ρ} {F : ε → σ → Prop}

/-- Soundness and completeness: there is such a run. -/
theorem reaches_iff_exists_exec {p : Program ι ρ ε α} {Q : α → σ → Prop} {w : σ} :
    p.reaches h F Q w ↔ ∃ o w', Exec h p w o w' ∧ Ends F Q o w' := by
  induction p generalizing w with
  | ret a =>
    refine ⟨fun hq => ⟨_, _, .ret a w, hq⟩, ?_⟩
    rintro ⟨o, w', hex, hends⟩
    cases hex
    exact hends
  | fault e =>
    refine ⟨fun hf => ⟨_, _, .fault e w, hf⟩, ?_⟩
    rintro ⟨o, w', hex, hends⟩
    cases hex
    exact hends
  | ask i k ih =>
    constructor
    · rintro ⟨r, w₁, hr, hreach⟩
      obtain ⟨o, w', hex, hends⟩ := (ih r).mp hreach
      exact ⟨o, w', .ask hr hex, hends⟩
    · rintro ⟨o, w', hex, hends⟩
      cases hex with
      | ask hr hk => exact ⟨_, _, hr, (ih _).mpr ⟨o, w', hk, hends⟩⟩

/-- The bind rule. -/
theorem reaches_bind {p : Program ι ρ ε α} {f : α → Program ι ρ ε β} {Q : β → σ → Prop} {w : σ} :
    (p >>= f).reaches h F Q w ↔ p.reaches h F (fun a w₁ => (f a).reaches h F Q w₁) w := by
  induction p generalizing w with
  | ret a => rfl
  | fault e => rfl
  | ask i k ih =>
    exact exists_congr fun r => exists_congr fun w₁ => and_congr_right fun _ => ih r

/-- Consequence. -/
theorem reaches_mono {F' : ε → σ → Prop} {p : Program ι ρ ε α} {Q Q' : α → σ → Prop} {w : σ}
    (hF : ∀ e w, F e w → F' e w) (hQ : ∀ a w, Q a w → Q' a w) (hp : p.reaches h F Q w) :
    p.reaches h F' Q' w := by
  induction p generalizing w with
  | ret a => exact hQ _ _ hp
  | fault e => exact hF _ _ hp
  | ask i k ih =>
    obtain ⟨r, w₁, hr, hk⟩ := hp
    exact ⟨r, w₁, hr, ih r hk⟩

/-- A run that is recorded is a run on the trace it records. -/
theorem Exec.of_recorded {p : Program ι ρ ε α} {past past' : List (Event ι ρ)} {o : Except ε α}
    (h : Exec record p past o past') : ∃ new, past' = past ++ new ∧ Exec playback p new o [] := by
  induction h with
  | ret a past => exact ⟨[], (List.append_nil past).symm, .ret a []⟩
  | fault e past => exact ⟨[], (List.append_nil past).symm, .fault e []⟩
  | @ask i k past past₁ past₂ r o hr _ ih =>
    simp only [record] at hr
    subst hr
    obtain ⟨new, rfl, hnew⟩ := ih
    exact ⟨⟨i, r⟩ :: new, by rw [List.append_assoc]; rfl, .ask rfl hnew⟩

/-- What a run takes from a trace is a trace of its own. -/
theorem Exec.own {p : Program ι ρ ε α} {tr tr' : List (Event ι ρ)} {o : Except ε α}
    (h : Exec playback p tr o tr') : ∃ own, tr = own ++ tr' ∧ Exec playback p own o [] := by
  obtain ⟨own, rfl, hrecord⟩ := h.recorded []
  obtain ⟨_, heq, hplay⟩ := hrecord.of_recorded
  obtain rfl := List.append_cancel_left heq
  exact ⟨own, rfl, hplay⟩

end Program

namespace Script

variable {S : Type x} {h : Handler σ ι ρ} {F : ε → σ → Prop} {s : S} {w : σ}

/-- `Program.reaches` for a script: memory before and after are explicit. -/
def reaches (h : Handler σ ι ρ) (F : ε → σ → Prop) (m : Script S ι ρ ε α)
    (Q : α → S → σ → Prop) (s : S) (w : σ) : Prop :=
  (m s).reaches h F (fun p w' => Q p.1 p.2 w') w

variable {Q : α → S → σ → Prop}

/-- Consequence, for scripts. -/
theorem reaches_mono {F' : ε → σ → Prop} {m : Script S ι ρ ε α} {Q' : α → S → σ → Prop}
    (hm : reaches h F m Q s w) (hF : ∀ e w, F e w → F' e w)
    (hQ : ∀ a s w, Q a s w → Q' a s w) : reaches h F' m Q' s w :=
  Program.reaches_mono hF (fun _ _ => hQ _ _ _) hm

@[simp] theorem reaches_pure {a : α} : reaches h F (pure a) Q s w ↔ Q a s w := Iff.rfl

@[simp] theorem reaches_bind {m : Script S ι ρ ε α} {f : α → Script S ι ρ ε β}
    {Q : β → S → σ → Prop} :
    reaches h F (m >>= f) Q s w ↔ reaches h F m (fun a s₁ w₁ => reaches h F (f a) Q s₁ w₁) s w :=
  Program.reaches_bind (p := m s) (f := fun p => f p.1 p.2)

@[simp] theorem reaches_get {Q : S → S → σ → Prop} : reaches h F get Q s w ↔ Q s s w := Iff.rfl

@[simp] theorem reaches_modify {f : S → S} {Q : PUnit → S → σ → Prop} :
    reaches h F (modify f) Q s w ↔ Q ⟨⟩ (f s) w := Iff.rfl

@[simp] theorem reaches_fault {e : ε} :
    reaches h F (fault e : Script S ι ρ ε α) Q s w ↔ F e w := Iff.rfl

@[simp] theorem reaches_ite {c : Prop} [Decidable c] {m n : Script S ι ρ ε α} :
    reaches h F (if c then m else n) Q s w ↔
      (c → reaches h F m Q s w) ∧ (¬c → reaches h F n Q s w) := by
  split <;> simp [*]

/-- What is reached without undefined behaviour is reached by a run. -/
theorem reaches.exists_exec {Q : α → S → σ → Prop} {m : Script S ι ρ ε α}
    (hreach : reaches h (fun _ _ => False) m Q s w) :
    ∃ a s' w', Program.Exec h (m s) w (.ok (a, s')) w' ∧ Q a s' w' := by
  obtain ⟨o, w', hex, hends⟩ := Program.reaches_iff_exists_exec.mp hreach
  cases o with
  | error e => exact hends.elim
  | ok p => exact ⟨p.1, p.2, w', hex, hends⟩

/-- What is reached against `record` from an empty past is reached on some trace. -/
theorem reaches.exists_playback {F : ε → List (Event ι ρ) → Prop}
    {Q : α → S → List (Event ι ρ) → Prop} {m : Script S ι ρ ε α}
    (hreach : reaches record F m Q s []) : ∃ tr o, Program.Exec playback (m s) tr o [] ∧
      Program.Ends F (fun (p : α × S) w' => Q p.1 p.2 w') o tr := by
  obtain ⟨o, past, hex, hends⟩ := Program.reaches_iff_exists_exec.mp hreach
  obtain ⟨new, hpast, hnew⟩ := hex.of_recorded
  rw [List.nil_append] at hpast
  exact ⟨new, o, hnew, hpast ▸ hends⟩

end Script

@[simp] theorem Script.reaches_ask {S : Type v} {ι : Type u} {ρ : ι → Type v} {ε : Type w}
    {σ : Type y} {h : Handler σ ι ρ} {F : ε → σ → Prop} {i : ι} {Q : ρ i → S → σ → Prop}
    {s : S} {w : σ} :
    Script.reaches h F (ask i) Q s w ↔ ∃ r w', h w i r w' ∧ Q r s w' := Iff.rfl

end Interaction
