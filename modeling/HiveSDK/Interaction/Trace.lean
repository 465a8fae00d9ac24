import HiveSDK.Interaction.Program
import Mathlib.Data.List.Basic

/-!
# Recorded environments

`playback` is the environment that gives back the replies of a recorded trace. A statement
about every trace is a statement about every behaviour of the environment, and a condition
on a trace is a condition on the behaviour.

`Program.Within P E` bounds a program from outside: it asks only questions in `P` and stops
only in faults in `E`. It is checked structurally, along the text of a program
(`Script.Within.bind` and its companions), and says what the part of a trace that belongs to
the program looks like.
-/

namespace Interaction

universe u v w x y

/-- The environment that plays back a recorded trace: its state is what is left of the
trace, and the only reply it gives is the next one recorded, to the question recorded. -/
def playback {ι : Type u} {ρ : ι → Type v} : Handler (List (Event ι ρ)) ι ρ :=
  fun tr i r tr' => tr = ⟨i, r⟩ :: tr'

/-- The environment that gives any reply and writes down what has been asked and answered. It is
the same as playing back, read forwards: the state is the past of a run, not what is to come. -/
def record {ι : Type u} {ρ : ι → Type v} : Handler (List (Event ι ρ)) ι ρ :=
  fun past i r past' => past' = past ++ [⟨i, r⟩]

variable {ι : Type u} {ρ : ι → Type v} {ε : Type w} {α β : Type x}
variable {P P' : ι → Prop} {E E' : ε → Prop}

/-- The trace `tr` begins with events whose questions are in `P` and goes on with `tr'`. -/
def Consumed (P : ι → Prop) (tr tr' : List (Event ι ρ)) : Prop :=
  ∃ pre, tr = pre ++ tr' ∧ ∀ e ∈ pre, P e.1

/-- Nothing has been taken. -/
theorem Consumed.refl (tr : List (Event ι ρ)) : Consumed P tr tr := ⟨[], rfl, by simp⟩

/-- One more event in front. -/
theorem Consumed.cons {tr tr' : List (Event ι ρ)} {e : Event ι ρ} (he : P e.1)
    (h : Consumed P tr tr') : Consumed P (e :: tr) tr' := by
  obtain ⟨pre, rfl, hpre⟩ := h
  exact ⟨e :: pre, rfl, by simpa [he] using hpre⟩

/-- The history `past'` goes on from `past` with events whose questions are in `P`. -/
def Recorded (P : ι → Prop) (past past' : List (Event ι ρ)) : Prop :=
  ∃ new, past' = past ++ new ∧ ∀ e ∈ new, P e.1

namespace Program

/-- Played back, a program has one outcome. -/
theorem Exec.playback_unique {p : Program ι ρ ε α} {tr tr₁ tr₂ : List (Event ι ρ)}
    {o₁ o₂ : Except ε α} (h₁ : Exec playback p tr o₁ tr₁) (h₂ : Exec playback p tr o₂ tr₂) :
    o₁ = o₂ ∧ tr₁ = tr₂ := by
  induction h₁ with
  | ret a w => cases h₂; exact ⟨rfl, rfl⟩
  | fault e w => cases h₂; exact ⟨rfl, rfl⟩
  | ask hr _ ih =>
    cases h₂ with
    | ask hr' hk' =>
      simp only [playback] at hr hr'
      obtain ⟨hev, rfl⟩ := List.cons.inj (hr.symm.trans hr')
      cases hev
      exact ih hk'

/-- A run against a recorded trace does not depend on what is recorded after it. -/
theorem Exec.playback_append {p : Program ι ρ ε α} {tr tr₁ : List (Event ι ρ)}
    {o : Except ε α} (h : Exec playback p tr o tr₁) (rest : List (Event ι ρ)) :
    Exec playback p (tr ++ rest) o (tr₁ ++ rest) := by
  induction h with
  | ret a w => exact .ret a _
  | fault e w => exact .fault e _
  | ask hr _ ih =>
    simp only [playback] at hr
    subst hr
    exact .ask rfl ih

/-- A run that takes nothing from the trace asks nothing. -/
theorem Exec.of_playback_nil {p : Program ι ρ ε α} {a : α} {tr : List (Event ι ρ)}
    (h : Exec playback p [] (.ok a) tr) : p = .ret a := by
  cases h with
  | ret a w => rfl
  | ask hr _ => cases hr

/-- A run that uses up a trace asks the question recorded first. -/
theorem Exec.of_playback_cons {p : Program ι ρ ε α} {e : Event ι ρ} {tr : List (Event ι ρ)}
    {o : Except ε α} (h : Exec playback p (e :: tr) o []) :
    ∃ k, p = .ask e.1 k ∧ Exec playback (k e.2) tr o [] := by
  generalize htr : e :: tr = tr₀ at h
  generalize hnil : ([] : List (Event ι ρ)) = tr₁ at h
  cases h with
  | ret a w => subst hnil; cases htr
  | fault e w => subst hnil; cases htr
  | ask hr hk =>
    obtain ⟨rfl, rfl⟩ := List.cons.inj (htr.trans hr)
    exact ⟨_, rfl, hnil ▸ hk⟩

/-- A run on a trace is a run that is recorded. -/
theorem Exec.recorded {p : Program ι ρ ε α} {tr tr' : List (Event ι ρ)} {o : Except ε α}
    (h : Exec playback p tr o tr') (past : List (Event ι ρ)) :
    ∃ new, tr = new ++ tr' ∧ Exec record p past o (past ++ new) := by
  induction h generalizing past with
  | ret a w => exact ⟨[], rfl, by rw [List.append_nil]; exact .ret a past⟩
  | fault e w => exact ⟨[], rfl, by rw [List.append_nil]; exact .fault e past⟩
  | @ask i k tr tr₁ tr₂ r o hr _ ih =>
    obtain rfl : tr = ⟨i, r⟩ :: tr₁ := hr
    obtain ⟨new, rfl, hnew⟩ := ih (past ++ [⟨i, r⟩])
    rw [List.append_assoc] at hnew
    exact ⟨⟨i, r⟩ :: new, rfl, .ask rfl hnew⟩

/-- What has been recorded stays recorded. -/
theorem Exec.record_prefix {p : Program ι ρ ε α} {past past' : List (Event ι ρ)}
    {o : Except ε α} (h : Exec record p past o past') : past <+: past' := by
  induction h with
  | ret a past => exact List.prefix_rfl
  | fault e past => exact List.prefix_rfl
  | ask hr _ ih =>
    simp only [record] at hr
    subst hr
    exact (List.prefix_append _ _).trans ih

/-- What has happened stays in the history. -/
theorem wp_record_keeps {p : Program ι ρ ε α} {past : List (Event ι ρ)} {e : Event ι ρ}
    (he : e ∈ past) : p.wp record (fun _ past' => e ∈ past') (fun _ past' => e ∈ past') past := by
  refine wp_iff_forall_exec.mpr fun o past' hex => ?_
  have hkept : e ∈ past' := hex.record_prefix.subset he
  match o with
  | .ok _ => exact hkept
  | .error _ => exact hkept

/-- Run a program against an environment that computes its replies: the outcome and the trace
of the run, unless the environment leaves a question unanswered. -/
def runWith {σ : Type y} (reply : σ → (i : ι) → Option (ρ i × σ)) :
    Program ι ρ ε α → σ → Option (Except ε α × List (Event ι ρ))
  | ret a, _ => some (.ok a, [])
  | fault e, _ => some (.error e, [])
  | ask i k, w =>
    match reply w i with
    | none => none
    | some (r, w') => ((k r).runWith reply w').map fun next => (next.1, ⟨i, r⟩ :: next.2)

/-- What `runWith` computes is a run on the trace it computes. -/
theorem exec_of_runWith {σ : Type y} {reply : σ → (i : ι) → Option (ρ i × σ)}
    {p : Program ι ρ ε α} {w : σ} {o : Except ε α} {tr : List (Event ι ρ)}
    (h : p.runWith reply w = some (o, tr)) : Exec playback p tr o [] := by
  induction p generalizing w o tr with
  | ret a => cases h; exact .ret a []
  | fault e => cases h; exact .fault e []
  | ask i k ih =>
    unfold runWith at h
    split at h
    · cases h
    · obtain ⟨⟨o', tr'⟩, hnext, heq⟩ := Option.map_eq_some_iff.mp h
      cases heq
      exact .ask rfl (ih _ hnext)

/-- A run with given replies is a run of some trace. -/
theorem exists_exec_of_runWith {σ : Type y} {reply : σ → (i : ι) → Option (ρ i × σ)}
    {p : Program ι ρ ε α} {w : σ} {o : Except ε α}
    (h : (p.runWith reply w).map Prod.fst = some o) : ∃ tr, Exec playback p tr o [] := by
  obtain ⟨⟨o, tr⟩, hrun, rfl⟩ := Option.map_eq_some_iff.mp h
  exact ⟨tr, exec_of_runWith hrun⟩

/-- Run a program in an environment that computes its replies: the outcome and the state
afterwards. -/
def runIn {σ : Type y} (reply : σ → (i : ι) → Option (ρ i × σ)) :
    Program ι ρ ε α → σ → Option (Except ε α × σ)
  | ret a, w => some (.ok a, w)
  | fault e, w => some (.error e, w)
  | ask i k, w =>
    match reply w i with
    | none => none
    | some (r, w') => (k r).runIn reply w'

/-- What `runIn` computes is a run against every handler that allows the replies computed. -/
theorem exec_of_runIn {σ : Type y} {h : Handler σ ι ρ} {reply : σ → (i : ι) → Option (ρ i × σ)}
    (hreply : ∀ w i r w', reply w i = some (r, w') → h w i r w') {p : Program ι ρ ε α} {w w' : σ}
    {o : Except ε α} (hrun : p.runIn reply w = some (o, w')) : Exec h p w o w' := by
  induction p generalizing w with
  | ret a => cases hrun; exact .ret a _
  | fault e => cases hrun; exact .fault e _
  | ask i k ih =>
    unfold runIn at hrun
    split at hrun
    · cases hrun
    · rename_i r w₁ hr
      exact .ask (hreply _ _ _ _ hr) (ih r hrun)

/-- The program asks only questions in `P` and stops only in faults in `E`. -/
def Within (P : ι → Prop) (E : ε → Prop) : Program ι ρ ε α → Prop
  | ret _ => True
  | fault e => E e
  | ask i k => P i ∧ ∀ r, (k r).Within P E

/-- Consequence. -/
theorem Within.mono (hP : ∀ i, P i → P' i) (hE : ∀ e, E e → E' e) {p : Program ι ρ ε α}
    (hp : p.Within P E) : p.Within P' E' := by
  induction p with
  | ret a => trivial
  | fault e => exact hE e hp
  | ask i k ih => exact ⟨hP i hp.1, fun r => ih r (hp.2 r)⟩

/-- Composition. -/
theorem Within.bind {p : Program ι ρ ε α} {f : α → Program ι ρ ε β} (hp : p.Within P E)
    (hf : ∀ a, (f a).Within P E) : (p >>= f).Within P E := by
  induction p with
  | ret a => exact hf a
  | fault e => exact hp
  | ask i k ih => exact ⟨hp.1, fun r => ih r (hp.2 r)⟩

/-- What a program within bounds takes from a trace. -/
theorem Exec.consumed {p : Program ι ρ ε α} {tr tr' : List (Event ι ρ)} {o : Except ε α}
    (h : Exec playback p tr o tr') (hp : p.Within P E) : Consumed P tr tr' := by
  induction h with
  | ret a w => exact .refl w
  | fault e w => exact .refl w
  | ask hr _ ih =>
    simp only [playback] at hr
    subst hr
    exact .cons hp.1 (ih (hp.2 _))

/-- What a program within bounds adds to a history. -/
theorem Exec.recorded_within {p : Program ι ρ ε α} {past past' : List (Event ι ρ)}
    {o : Except ε α} (h : Exec record p past o past') (hp : p.Within P E) :
    Recorded P past past' := by
  induction h with
  | ret a past => exact ⟨[], (List.append_nil past).symm, by simp⟩
  | fault e past => exact ⟨[], (List.append_nil past).symm, by simp⟩
  | @ask i k past past₁ past₂ r o hr _ ih =>
    simp only [record] at hr
    subst hr
    obtain ⟨new, rfl, hnew⟩ := ih (hp.2 r)
    refine ⟨⟨i, r⟩ :: new, by rw [List.append_assoc]; rfl, fun e he => ?_⟩
    rcases List.mem_cons.mp he with rfl | he
    · exact hp.1
    · exact hnew e he

/-- A program within bounds stops in a fault within them. -/
theorem Exec.fault_within {σ : Type*} {h : Handler σ ι ρ} {p : Program ι ρ ε α} {w w' : σ}
    {e : ε} (hex : Exec h p w (.error e) w') (hp : p.Within P E) : E e := by
  generalize ho : (Except.error e : Except ε α) = o at hex
  induction hex with
  | ret a w => cases ho
  | fault e' w => cases ho; exact hp
  | ask _ _ ih => exact ih (hp.2 _) ho

end Program

namespace Script

variable {S T : Type x}

/-- `Program.Within`, from every memory. -/
def Within (P : ι → Prop) (E : ε → Prop) (m : Script S ι ρ ε α) : Prop :=
  ∀ s, (m s).Within P E

variable {m : Script S ι ρ ε α} {f : α → Script S ι ρ ε β}

/-- Consequence, for scripts. -/
theorem Within.mono (hP : ∀ i, P i → P' i) (hE : ∀ e, E e → E' e) (hm : m.Within P E) :
    m.Within P' E' :=
  fun s => (hm s).mono hP hE

theorem Within.pure (a : α) : (pure a : Script S ι ρ ε α).Within P E := fun _ => trivial

theorem Within.fault {e : ε} (he : E e) : (fault e : Script S ι ρ ε α).Within P E :=
  fun _ => he

/-- Composition, for scripts. -/
theorem Within.bind (hm : m.Within P E) (hf : ∀ a, (f a).Within P E) : (m >>= f).Within P E :=
  fun s => (hm s).bind fun p => hf p.1 p.2

theorem Within.get : (get : Script S ι ρ ε S).Within P E := fun _ => trivial

theorem Within.modify (g : S → S) : (modify g : Script S ι ρ ε PUnit).Within P E :=
  fun _ => trivial

theorem Within.ite {c : Prop} [Decidable c] {n : Script S ι ρ ε α} (hm : m.Within P E)
    (hn : n.Within P E) : (if c then m else n).Within P E := by
  split
  · exact hm
  · exact hn

/-- The postconditions of a recorded run may use that the past is kept. -/
theorem wp_record_prefix {F : ε → List (Event ι ρ) → Prop}
    {Q : α → S → List (Event ι ρ) → Prop} {s : S} {past : List (Event ι ρ)}
    (hwp : wp record F m Q s past) :
    wp record F m (fun a s' past' => Q a s' past' ∧ past <+: past') s past := by
  refine wp_iff_forall_exec.mpr fun o past' hex => ?_
  have hends := wp_iff_forall_exec.mp hwp o past' hex
  match o, hex, hends with
  | .ok _, hex, hends => exact ⟨hends, hex.record_prefix⟩
  | .error _, _, hends => exact hends

/-- What holds of every recorded run holds of every run on a trace. -/
theorem wp.of_playback {F : ε → List (Event ι ρ) → Prop}
    {Q : α → S → List (Event ι ρ) → Prop} {s : S} {past tr : List (Event ι ρ)}
    {o : Except ε (α × S)} (hwp : wp record F m Q s past)
    (hex : Program.Exec playback (m s) tr o []) :
    Program.Ends F (fun (p : α × S) w' => Q p.1 p.2 w') o (past ++ tr) := by
  obtain ⟨new, htr, hnew⟩ := hex.recorded past
  rw [List.append_nil] at htr
  exact wp_iff_forall_exec.mp hwp o _ (htr ▸ hnew)

/-- Every weakest precondition of a script within bounds can be strengthened by what the
bounds say about the trace. -/
theorem wp_consumed {F : ε → List (Event ι ρ) → Prop} {Q : α → S → List (Event ι ρ) → Prop}
    {s : S} {tr : List (Event ι ρ)} (hm : m.Within P E) (hwp : wp playback F m Q s tr) :
    wp playback (fun e tr' => F e tr' ∧ E e ∧ Consumed P tr tr') m
      (fun a s' tr' => Q a s' tr' ∧ Consumed P tr tr') s tr := by
  refine Program.wp_iff_forall_exec.mpr fun o tr' hex => ?_
  have hends := Program.wp_iff_forall_exec.mp hwp o tr' hex
  match o, hex, hends with
  | .ok _, hex, hends => exact ⟨hends, hex.consumed (hm s)⟩
  | .error _, hex, hends => exact ⟨hends, hex.fault_within (hm s), hex.consumed (hm s)⟩

/-- The same of a history. -/
theorem wp_recorded {F : ε → List (Event ι ρ) → Prop} {Q : α → S → List (Event ι ρ) → Prop}
    {s : S} {past : List (Event ι ρ)} (hm : m.Within P E) (hwp : wp record F m Q s past) :
    wp record (fun e past' => F e past' ∧ E e ∧ Recorded P past past') m
      (fun a s' past' => Q a s' past' ∧ Recorded P past past') s past := by
  refine Program.wp_iff_forall_exec.mpr fun o past' hex => ?_
  have hends := Program.wp_iff_forall_exec.mp hwp o past' hex
  match o, hex, hends with
  | .ok _, hex, hends => exact ⟨hends, hex.recorded_within (hm s)⟩
  | .error _, hex, hends => exact ⟨hends, hex.fault_within (hm s), hex.recorded_within (hm s)⟩

/-- What is known of every script within bounds. -/
theorem Within.wp_consumed_true {s : S} {tr : List (Event ι ρ)} (hm : m.Within P E) :
    wp playback (fun e tr' => E e ∧ Consumed P tr tr') m
      (fun _ _ tr' => Consumed P tr tr') s tr :=
  wp_mono (wp_consumed hm wp_true) (fun _ _ h => h.2) fun _ _ _ h => h.2

end Script

theorem Script.Within.ask {S : Type v} {i : ι} (hi : P i) :
    (ask i : Script S ι ρ ε (ρ i)).Within P E :=
  fun _ => ⟨hi, fun _ => trivial⟩

end Interaction
