import HiveSDK.Interaction.Reach

/-!
# Two runs in lockstep

A property of one run cannot say that something does not matter to a program. For that two
programs are run side by side on the same replies: `Lockstep R p q past` says that `p` and `q`
ask the same questions and stop in the same faults whatever is replied, and that the values they
return are related by `R`, which may look at the history. It is a weakest precondition of pairs of
runs, with the rules of one (`Lockstep.bind`, `Lockstep.mono`); what is known of each run alone is
added by `Lockstep.and_wp`.

The point is `Lockstep.exec_playback`: every run of `p` on a trace comes with a run of `q` on the
same trace.
-/

namespace Interaction

universe u v w x y

variable {ι : Type u} {ρ : ι → Type v} {ε : Type w} {α β γ δ : Type x}

namespace Program

/-- `p` and `q`, after the history `past`, ask the same questions and end alike; values returned
are related by `R`. -/
inductive Lockstep (R : α → β → List (Event ι ρ) → Prop) :
    Program ι ρ ε α → Program ι ρ ε β → List (Event ι ρ) → Prop
  | ret {a : α} {b : β} {past : List (Event ι ρ)} (h : R a b past) :
    Lockstep R (ret a) (ret b) past
  | fault (e : ε) (past : List (Event ι ρ)) : Lockstep R (fault e) (fault e) past
  | ask {i : ι} {k : ρ i → Program ι ρ ε α} {l : ρ i → Program ι ρ ε β}
    {past : List (Event ι ρ)} (h : ∀ r, Lockstep R (k r) (l r) (past ++ [⟨i, r⟩])) :
    Lockstep R (ask i k) (ask i l) past

namespace Lockstep

variable {R R' : α → β → List (Event ι ρ) → Prop} {p : Program ι ρ ε α} {q : Program ι ρ ε β}
  {past : List (Event ι ρ)}

/-- Consequence. -/
theorem mono (h : Lockstep R p q past) (hR : ∀ a b past', R a b past' → R' a b past') :
    Lockstep R' p q past := by
  induction h with
  | ret h => exact .ret (hR _ _ _ h)
  | fault e past => exact .fault e past
  | ask _ ih => exact .ask ih

/-- Two programs in lockstep, each followed by one that keeps step. -/
theorem bind {T : γ → δ → List (Event ι ρ) → Prop} {f : α → Program ι ρ ε γ}
    {g : β → Program ι ρ ε δ} (h : Lockstep R p q past)
    (hf : ∀ a b past', R a b past' → Lockstep T (f a) (g b) past') :
    Lockstep T (p >>= f) (q >>= g) past := by
  induction h with
  | ret h => exact hf _ _ _ h
  | fault e past => exact .fault e past
  | ask _ ih => exact .ask ih

/-- Lockstep is symmetric. -/
theorem symm (h : Lockstep R p q past) : Lockstep (fun b a past' => R a b past') q p past := by
  induction h with
  | ret h => exact .ret h
  | fault e past => exact .fault e past
  | ask _ ih => exact .ask ih

/-- What the first run alone guarantees. -/
theorem and_wp {F : ε → List (Event ι ρ) → Prop} {Q : α → List (Event ι ρ) → Prop}
    (h : Lockstep R p q past) (hwp : p.wp record F Q past) :
    Lockstep (fun a b past' => R a b past' ∧ Q a past') p q past := by
  induction h with
  | ret h => exact .ret ⟨h, hwp⟩
  | fault e past => exact .fault e past
  | ask _ ih => exact .ask fun r => ih r (hwp r _ rfl)

/-- What a run of the second guarantees a run of the first. -/
theorem wp_left {F : ε → List (Event ι ρ) → Prop} {Q : β → List (Event ι ρ) → Prop}
    (h : Lockstep R p q past) (hwp : q.wp record F Q past) :
    p.wp record F (fun a past' => ∃ b, R a b past' ∧ Q b past') past := by
  induction h with
  | ret h => exact ⟨_, h, hwp⟩
  | fault e past => exact hwp
  | ask _ ih =>
    intro r past' hpast'
    simp only [record] at hpast'
    subst hpast'
    exact ih r (hwp r _ rfl)

/-- Related outcomes: the same fault, or values related by `R`. -/
def Ends (R : α → β → List (Event ι ρ) → Prop) (past : List (Event ι ρ)) :
    Except ε α → Except ε β → Prop
  | .ok a, .ok b => R a b past
  | .error e, .error e' => e = e'
  | _, _ => False

/-- Soundness: a run of one has a run of the other, with the same trace. -/
theorem exec (h : Lockstep R p q past) {o : Except ε α} {past' : List (Event ι ρ)}
    (hex : Exec record p past o past') :
    ∃ o', Exec record q past o' past' ∧ Ends R past' o o' := by
  induction h with
  | ret h =>
    cases hex
    exact ⟨_, .ret _ _, h⟩
  | fault e past =>
    cases hex
    exact ⟨_, .fault _ _, rfl⟩
  | ask _ ih =>
    cases hex with
    | ask hr hk =>
      simp only [record] at hr
      subst hr
      obtain ⟨o', hex', hends⟩ := ih _ hk
      exact ⟨o', .ask rfl hex', hends⟩

/-- A run of the first program on a trace comes with one of the second on the same trace. -/
theorem exec_playback (h : Lockstep R p q []) {o : Except ε α} {tr : List (Event ι ρ)}
    (hex : Exec playback p tr o []) : ∃ o', Exec playback q tr o' [] ∧ Ends R tr o o' := by
  obtain ⟨new, htr, hrecorded⟩ := hex.recorded []
  rw [List.append_nil] at htr
  subst htr
  obtain ⟨o', hex', hends⟩ := h.exec hrecorded
  obtain ⟨new', heq, hplayed⟩ := hex'.of_recorded
  rw [List.nil_append, List.nil_append] at heq
  subst heq
  exact ⟨o', hplayed, by rwa [List.nil_append] at hends⟩

end Lockstep

end Program

namespace Script

open Program (Lockstep)

variable {S T : Type x} {R : α × S → β × T → List (Event ι ρ) → Prop}
  {past : List (Event ι ρ)} {s : S} {t : T}

/-- The bind rule, for scripts over two states. -/
theorem lockstep_bind {m : Script S ι ρ ε α} {n : Script T ι ρ ε β} {f : α → Script S ι ρ ε γ}
    {g : β → Script T ι ρ ε δ} {U : γ × S → δ × T → List (Event ι ρ) → Prop}
    (h : Lockstep R (m s) (n t) past)
    (hf : ∀ a b s' t' past', R (a, s') (b, t') past' → Lockstep U (f a s') (g b t') past') :
    Lockstep U ((m >>= f) s) ((n >>= g) t) past :=
  Lockstep.bind (f := fun p => f p.1 p.2) (g := fun p => g p.1 p.2) h
    fun p q past' => hf p.1 q.1 p.2 q.2 past'

/-- A first part of one script that asks nothing. -/
theorem lockstep_left {m : Script S ι ρ ε α} {f : α → Script S ι ρ ε γ} {a : α} {s' : S}
    {q : Program ι ρ ε δ} {U : γ × S → δ → List (Event ι ρ) → Prop} (hm : m s = pure (a, s'))
    (hf : Lockstep U (f a s') q past) : Lockstep U ((m >>= f) s) q past := by
  change Lockstep U (m s >>= fun p => f p.1 p.2) q past
  rw [hm]
  exact hf

/-- A script that only computes does not fall out of step. -/
theorem lockstep_right {n : Script T ι ρ ε β} {g : β → Script T ι ρ ε δ} {b : β} {t' : T}
    {p : Program ι ρ ε γ} {U : γ → δ × T → List (Event ι ρ) → Prop} (hn : n t = pure (b, t'))
    (hg : Lockstep U p (g b t') past) : Lockstep U p ((n >>= g) t) past := by
  change Lockstep U p (n t >>= fun q => g q.1 q.2) past
  rw [hn]
  exact hg

/-- What each run alone guarantees. -/
theorem lockstep_and_wp {m : Script S ι ρ ε α} {n : Script T ι ρ ε β}
    {F F' : ε → List (Event ι ρ) → Prop} {Q : α → S → List (Event ι ρ) → Prop}
    {Q' : β → T → List (Event ι ρ) → Prop} (h : Lockstep R (m s) (n t) past)
    (hm : wp record F m Q s past) (hn : wp record F' n Q' t past) :
    Lockstep (fun x y past' => R x y past' ∧ Q x.1 x.2 past' ∧ Q' y.1 y.2 past')
      (m s) (n t) past := by
  have hboth := ((h.and_wp hm).symm.and_wp hn).symm
  exact hboth.mono fun _ _ _ h => ⟨h.1.1, h.1.2, h.2⟩

/-- What is known of every trace is known of every history. -/
theorem wp_record_of_playback {m : Script S ι ρ ε α} {F : ε → List (Event ι ρ) → Prop}
    {Q : α → S → List (Event ι ρ) → Prop} (hwp : ∀ tr, wp playback F m
      (fun a s' tr' => ∃ new, tr = new ++ tr' ∧ Q a s' new) s tr) :
    wp record (fun _ _ => True) m
      (fun a s' past' => ∃ new, past' = past ++ new ∧ Q a s' new) s past := by
  refine wp_iff_forall_exec.mpr fun o past' hex => ?_
  obtain ⟨new, rfl, hplayed⟩ := hex.of_recorded
  have hends := wp_iff_forall_exec.mp (hwp new) o [] hplayed
  match o, hends with
  | .ok _, hends =>
    obtain ⟨new', heq, hQ⟩ := hends
    rw [List.append_nil] at heq
    exact ⟨new, rfl, heq ▸ hQ⟩
  | .error _, _ => trivial

end Script

end Interaction
