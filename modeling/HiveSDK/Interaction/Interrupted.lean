import HiveSDK.Interaction.Reach

/-!
# Runs that are cut off

A process may end between any two of its questions, and what it leaves behind is the state its
environment is in at that point. `Interrupted` relates the states a run starts from and may be cut
off in; `wpc` is the weakest precondition with a condition on all of these states, the last one of a
complete run included, and it obeys the same rules for the monadic operations as `wp` does.

`recordOnly` restricts `record` to the events that satisfy a predicate: a program is run against an
environment that keeps to it.
-/

namespace Interaction

universe u v w x y

variable {ι : Type u} {ρ : ι → Type v} {ε : Type w} {α β : Type x} {σ : Type y}

namespace Program

/-- `Interrupted h p w w'`: a run of `p` from `w` against `h` may be cut off in `w'`. -/
inductive Interrupted (h : Handler σ ι ρ) : Program ι ρ ε α → σ → σ → Prop
  | here (p : Program ι ρ ε α) (w : σ) : Interrupted h p w w
  | ask {i : ι} {k : ρ i → Program ι ρ ε α} {w w₁ w₂ : σ} {r : ρ i} (hr : h w i r w₁)
      (hk : Interrupted h (k r) w₁ w₂) : Interrupted h (ask i k) w w₂

/-- `wpc h C p Q w`: every run of `p` from `w` against `h` stays in `C`, and returns in `Q`. -/
def wpc (h : Handler σ ι ρ) (C : σ → Prop) : Program ι ρ ε α → (α → σ → Prop) → σ → Prop
  | ret a, Q, w => C w ∧ Q a w
  | fault _, _, w => C w
  | ask i k, Q, w => C w ∧ ∀ r w₁, h w i r w₁ → (k r).wpc h C Q w₁

variable {h : Handler σ ι ρ} {C : σ → Prop}

/-- The crash condition holds at the start. -/
theorem wpc.start {p : Program ι ρ ε α} {Q : α → σ → Prop} {w : σ} (hp : p.wpc h C Q w) : C w := by
  cases p with
  | ret a => exact hp.1
  | fault e => exact hp
  | ask i k => exact hp.1

/-- And wherever the run is interrupted. -/
theorem wpc.of_interrupted {p : Program ι ρ ε α} {Q : α → σ → Prop} {w w' : σ}
    (hp : p.wpc h C Q w) (hcut : Interrupted h p w w') : C w' := by
  induction hcut with
  | here p w => exact hp.start
  | ask hr _ ih => exact ih (hp.2 _ _ hr)

/-- The bind rule. -/
theorem wpc_bind {p : Program ι ρ ε α} {f : α → Program ι ρ ε β} {Q : β → σ → Prop} {w : σ} :
    (p >>= f).wpc h C Q w ↔ p.wpc h C (fun a w₁ => (f a).wpc h C Q w₁) w := by
  induction p generalizing w with
  | ret a => exact ⟨fun hf => ⟨hf.start, hf⟩, fun hf => hf.2⟩
  | fault e => rfl
  | ask i k ih =>
    refine and_congr_right fun _ => forall_congr' fun r => forall_congr' fun w₁ => ?_
    exact imp_congr_right fun _ => ih r

end Program

namespace Script

variable {S : Type x} {h : Handler σ ι ρ} {C : σ → Prop} {s : S} {w : σ}

/-- `Program.wpc` for a script: memory before and after are explicit. -/
def wpc (h : Handler σ ι ρ) (C : σ → Prop) (m : Script S ι ρ ε α) (Q : α → S → σ → Prop) (s : S)
    (w : σ) : Prop :=
  (m s).wpc h C (fun p w' => Q p.1 p.2 w') w

/-- Soundness, for scripts. -/
theorem wpc.of_interrupted {m : Script S ι ρ ε α} {Q : α → S → σ → Prop} {w' : σ}
    (hm : wpc h C m Q s w) (hcut : (m s).Interrupted h w w') : C w' :=
  Program.wpc.of_interrupted hm hcut

variable {Q : α → S → σ → Prop}

@[simp] theorem wpc_pure {a : α} :
    wpc h C (pure a : Script S ι ρ ε α) Q s w ↔ C w ∧ Q a s w := Iff.rfl

@[simp] theorem wpc_bind {m : Script S ι ρ ε α} {f : α → Script S ι ρ ε β}
    {Q : β → S → σ → Prop} :
    wpc h C (m >>= f) Q s w ↔ wpc h C m (fun a s₁ w₁ => wpc h C (f a) Q s₁ w₁) s w :=
  Program.wpc_bind (p := m s) (f := fun p => f p.1 p.2)

@[simp] theorem wpc_get {Q : S → S → σ → Prop} :
    wpc h C (get : Script S ι ρ ε S) Q s w ↔ C w ∧ Q s s w := Iff.rfl

@[simp] theorem wpc_fault {e : ε} : wpc h C (fault e : Script S ι ρ ε α) Q s w ↔ C w := Iff.rfl

@[simp] theorem wpc_ite {c : Prop} [Decidable c] {m n : Script S ι ρ ε α} :
    wpc h C (if c then m else n) Q s w ↔ (c → wpc h C m Q s w) ∧ (¬c → wpc h C n Q s w) := by
  split <;> simp [*]

end Script

@[simp] theorem Script.wpc_ask {S : Type v} {ι : Type u} {ρ : ι → Type v} {ε : Type w}
    {σ : Type y} {h : Handler σ ι ρ} {C : σ → Prop} {i : ι} {Q : ρ i → S → σ → Prop} {s : S}
    {w : σ} :
    Script.wpc h C (ask i : Script S ι ρ ε (ρ i)) Q s w ↔
      C w ∧ ∀ r w', h w i r w' → C w' ∧ Q r s w' := Iff.rfl

/-! ### Environments that keep to a predicate -/

/-- `record`, with the events that satisfy `T` only. -/
def recordOnly (T : Event ι ρ → Prop) : Handler (List (Event ι ρ)) ι ρ :=
  fun past i r past' => past' = past ++ [⟨i, r⟩] ∧ T ⟨i, r⟩

variable {T : Event ι ρ → Prop}

namespace Program

/-- A run whose events are restricted is a run, with events of that kind. -/
theorem Exec.of_recordOnly {p : Program ι ρ ε α} {past past' : List (Event ι ρ)} {o : Except ε α}
    (hex : Exec (recordOnly T) p past o past') :
    Exec record p past o past' ∧ ∃ new, past' = past ++ new ∧ ∀ e ∈ new, T e := by
  induction hex with
  | ret a past => exact ⟨.ret a past, [], (List.append_nil past).symm, nofun⟩
  | fault e past => exact ⟨.fault e past, [], (List.append_nil past).symm, nofun⟩
  | ask hr _ ih =>
    obtain ⟨rfl, hT⟩ := hr
    obtain ⟨hex, new, rfl, hnew⟩ := ih
    refine ⟨.ask rfl hex, _ :: new, by rw [List.append_assoc]; rfl, ?_⟩
    exact List.forall_mem_cons.mpr ⟨hT, hnew⟩

/-- A run on a trace of such events is a run in such an environment. -/
theorem Exec.recordOnly {p : Program ι ρ ε α} {tr : List (Event ι ρ)} {o : Except ε α}
    (hex : Exec playback p tr o []) (htr : ∀ e ∈ tr, T e) (past : List (Event ι ρ)) :
    Exec (recordOnly T) p past o (past ++ tr) := by
  generalize hnil : ([] : List (Event ι ρ)) = rest at hex
  induction hex generalizing past with
  | ret a tr =>
    subst hnil
    rw [List.append_nil]
    exact .ret a past
  | fault e tr =>
    subst hnil
    rw [List.append_nil]
    exact .fault e past
  | @ask i k tr tr₁ tr₂ r o hr _ ih =>
    obtain rfl : tr = ⟨i, r⟩ :: tr₁ := hr
    obtain ⟨hT, htr₁⟩ := List.forall_mem_cons.mp htr
    have hrest := ih htr₁ (past ++ [⟨i, r⟩]) hnil
    rw [List.append_assoc] at hrest
    exact .ask ⟨rfl, hT⟩ hrest

/-- What holds of all runs holds of these. -/
theorem wp_recordOnly {p : Program ι ρ ε α} {F : ε → List (Event ι ρ) → Prop}
    {Q : α → List (Event ι ρ) → Prop} {past : List (Event ι ρ)} (hp : p.wp record F Q past) :
    p.wp (Interaction.recordOnly T) F Q past :=
  wp_of_handler (fun _ _ _ _ h => h.1) hp

/-- An environment that does not change, and whose answers to what a program asks satisfy `T`. -/
theorem Within.wp_of_recordOnly {σ : Type*} {h : Handler σ ι ρ} {P : ι → Prop} {E : ε → Prop}
    {p : Program ι ρ ε α} {F : ε → List (Event ι ρ) → Prop} {Q : α → List (Event ι ρ) → Prop}
    {past : List (Event ι ρ)} {w : σ} (hp : p.Within P E)
    (hT : ∀ i r w', P i → h w i r w' → T ⟨i, r⟩ ∧ w' = w)
    (hwp : p.wp (Interaction.recordOnly T) F Q past) :
    p.wp h (fun e w' => w' = w ∧ ∃ past', F e past') (fun a w' => w' = w ∧ ∃ past', Q a past')
      w := by
  induction p generalizing past with
  | ret a => exact ⟨rfl, past, hwp⟩
  | fault e => exact ⟨rfl, past, hwp⟩
  | ask i k ih =>
    intro r w' hr
    obtain ⟨hevent, rfl⟩ := hT i r w' hp.1 hr
    exact ih r (hp.2 r) (hwp r _ ⟨rfl, hevent⟩)

end Program

namespace Script

variable {S : Type x} {m : Script S ι ρ ε α} {s : S} {F : ε → List (Event ι ρ) → Prop}
  {Q : α → S → List (Event ι ρ) → Prop}

/-- What holds in every such environment holds of every run on a trace of such events. -/
theorem wp.of_playback_only {tr : List (Event ι ρ)} {o : Except ε (α × S)}
    (hwp : wp (recordOnly T) F m Q s []) (hex : Program.Exec playback (m s) tr o [])
    (htr : ∀ e ∈ tr, T e) : Program.Ends F (fun (p : α × S) w' => Q p.1 p.2 w') o tr :=
  wp_iff_forall_exec.mp hwp o tr (hex.recordOnly htr [])

/-- The postconditions may use what a script within bounds adds to the history. -/
theorem wp_recordOnly_within {P : ι → Prop} {E : ε → Prop} {past : List (Event ι ρ)}
    (hm : m.Within P E) (hwp : wp (recordOnly T) F m Q s past) :
    wp (recordOnly T) (fun e past' => F e past' ∧ E e ∧ Recorded P past past') m
      (fun a s' past' => Q a s' past' ∧ Recorded P past past') s past := by
  refine wp_iff_forall_exec.mpr fun o past' hex => ?_
  have hends := wp_iff_forall_exec.mp hwp o past' hex
  have hadded := hex.of_recordOnly.1.recorded_within (hm s)
  match o, hex, hends with
  | .ok _, _, hends => exact ⟨hends, hadded⟩
  | .error _, hex, hends => exact ⟨hends, hex.fault_within (hm s), hadded⟩

/-- `Program.Within.wp_of_recordOnly`, of scripts. -/
theorem Within.wp_of_recordOnly {σ : Type*} {h : Handler σ ι ρ} {P : ι → Prop} {E : ε → Prop}
    {past : List (Event ι ρ)} {w : σ} (hm : m.Within P E)
    (hT : ∀ i r w', P i → h w i r w' → T ⟨i, r⟩ ∧ w' = w) (hwp : wp (recordOnly T) F m Q s past) :
    wp h (fun e w' => w' = w ∧ ∃ past', F e past') m
      (fun a s' w' => w' = w ∧ ∃ past', Q a s' past') s w :=
  Program.Within.wp_of_recordOnly (hm s) hT hwp

/-- What is reached in such an environment is reached on a trace of such events. -/
theorem reaches.exists_playback_only (hreach : reaches (recordOnly T) F m Q s []) :
    ∃ tr o, Program.Exec playback (m s) tr o [] ∧ (∀ e ∈ tr, T e) ∧
      Program.Ends F (fun (p : α × S) w' => Q p.1 p.2 w') o tr := by
  obtain ⟨o, past, hex, hends⟩ := Program.reaches_iff_exists_exec.mp hreach
  obtain ⟨hrecord, new, hpast, hnew⟩ := hex.of_recordOnly
  obtain ⟨tr, htr, hplay⟩ := hrecord.of_recorded
  rw [List.nil_append] at hpast htr
  subst hpast
  obtain rfl : past = tr := htr
  exact ⟨past, o, hplay, hnew, hends⟩

end Script

end Interaction
