import HiveSDK.Interaction.Trace

/-!
# Invariants of the local memory

`Script.Within` bounds what a script asks from every memory. `Script.Confined I P E` does the
same from the memories in `I`, and says that the memory stays there; a bound that mentions a
part of the memory which nothing changes is of this kind. It is checked along the text of a
script like `Within`, and it holds of the runs against every environment.
-/

namespace Interaction

universe u v w x y

variable {ι : Type u} {ρ : ι → Type v} {ε : Type w} {α β : Type x} {σ : Type y}
variable {P P' : ι → Prop} {E E' : ε → Prop}

namespace Program

/-- The program asks only questions in `P`, stops only in faults in `E` and returns only values
in `R`. -/
def Confined (P : ι → Prop) (E : ε → Prop) (R : α → Prop) : Program ι ρ ε α → Prop
  | ret a => R a
  | fault e => E e
  | ask i k => P i ∧ ∀ r, (k r).Confined P E R

variable {R R' : α → Prop}

/-- Consequence: more calls, more faults, a weaker condition on the result. -/
theorem Confined.mono (hP : ∀ i, P i → P' i) (hE : ∀ e, E e → E' e) (hR : ∀ a, R a → R' a)
    {p : Program ι ρ ε α} (hp : p.Confined P E R) : p.Confined P' E' R' := by
  induction p with
  | ret a => exact hR a hp
  | fault e => exact hE e hp
  | ask i k ih => exact ⟨hP i hp.1, fun r => ih r (hp.2 r)⟩

/-- What is confined makes these calls only. -/
theorem Confined.within {p : Program ι ρ ε α} (hp : p.Confined P E R) : p.Within P E := by
  induction p with
  | ret a => trivial
  | fault e => exact hp
  | ask i k ih => exact ⟨hp.1, fun r => ih r (hp.2 r)⟩

/-- Composition under the condition on the intermediate result. -/
theorem Confined.bind {S : β → Prop} {p : Program ι ρ ε α} {f : α → Program ι ρ ε β}
    (hp : p.Confined P E R) (hf : ∀ a, R a → (f a).Confined P E S) :
    (p >>= f).Confined P E S := by
  induction p with
  | ret a => exact hf a hp
  | fault e => exact hp
  | ask i k ih => exact ⟨hp.1, fun r => ih r (hp.2 r)⟩

/-- What is returned, whatever the environment. -/
theorem Exec.confined {h : Handler σ ι ρ} {p : Program ι ρ ε α} {w w' : σ} {a : α}
    (hex : Exec h p w (.ok a) w') (hp : p.Confined P E R) : R a := by
  generalize ho : (Except.ok a : Except ε α) = o at hex
  induction hex with
  | ret a' w => cases ho; exact hp
  | fault e w => cases ho
  | ask _ _ ih => exact ih (hp.2 _) ho

end Program

namespace Script

variable {S : Type x} {I : S → Prop}

/-- From a memory in `I` the script asks only questions in `P`, stops only in faults in `E`, and
leaves the memory in `I`. -/
def Confined (I : S → Prop) (P : ι → Prop) (E : ε → Prop) (m : Script S ι ρ ε α) : Prop :=
  ∀ s, I s → (m s).Confined P E fun p => I p.2

namespace Confined

variable {m : Script S ι ρ ε α} {f : α → Script S ι ρ ε β}

/-- Consequence. -/
theorem mono (hP : ∀ i, P i → P' i) (hE : ∀ e, E e → E' e) (hm : m.Confined I P E) :
    m.Confined I P' E' :=
  fun s hs => (hm s hs).mono hP hE fun _ h => h

theorem pure (a : α) : (pure a : Script S ι ρ ε α).Confined I P E := fun _ hs => hs

theorem fault {e : ε} (he : E e) : (fault e : Script S ι ρ ε α).Confined I P E := fun _ _ => he

/-- Composition: the invariant holds in between. -/
theorem bind (hm : m.Confined I P E) (hf : ∀ a, (f a).Confined I P E) :
    (m >>= f).Confined I P E :=
  fun s hs => (hm s hs).bind fun p hp => hf p.1 p.2 hp

/-- What is read from the memory may be assumed to be in `I`. -/
theorem get_bind {f : S → Script S ι ρ ε β} (hf : ∀ s, I s → (f s).Confined I P E) :
    (get >>= f).Confined I P E :=
  fun s hs => hf s hs s hs

theorem get : (get : Script S ι ρ ε S).Confined I P E := fun _ hs => hs

/-- A change of the state must keep the invariant. -/
theorem modify {g : S → S} (hg : ∀ s, I s → I (g s)) :
    (modify g : Script S ι ρ ε PUnit).Confined I P E := fun s hs => hg s hs

theorem ite {c : Prop} [Decidable c] {n : Script S ι ρ ε α} (hm : m.Confined I P E)
    (hn : n.Confined I P E) : (if c then m else n).Confined I P E := by
  split
  · exact hm
  · exact hn

/-- Confined to the memories that are memories at all. -/
theorem within (hm : m.Confined (fun _ => True) P E) : m.Within P E :=
  fun s => (hm s trivial).within

/-- A run takes from a trace what the bounds allow, and keeps the memory in `I`. -/
theorem consumed (hm : m.Confined I P E) {s s' : S} {a : α} {tr tr' : List (Event ι ρ)}
    (hs : I s) (hex : Program.Exec playback (m s) tr (.ok (a, s')) tr') :
    Consumed P tr tr' ∧ I s' :=
  ⟨hex.consumed (hm s hs).within, hex.confined (hm s hs)⟩

/-- What is known of every run of a script within bounds. -/
theorem wp_consumed (hm : m.Confined I P E) {s : S} (hs : I s) {tr : List (Event ι ρ)} :
    wp playback (fun _ _ => True) m (fun _ s' tr' => Consumed P tr tr' ∧ I s') s tr := by
  refine wp_iff_forall_exec.mpr fun o tr' hex => ?_
  match o, hex with
  | .ok _, hex => exact hm.consumed hs hex
  | .error _, hex => trivial

end Confined

end Script

theorem Script.Confined.ask {S : Type v} {I : S → Prop} {i : ι} (hi : P i) :
    (ask i : Script S ι ρ ε (ρ i)).Confined I P E :=
  fun _ hs => ⟨hi, fun _ => hs⟩

end Interaction
