import HiveSDK.Interaction.Trace

/-!
# Environments that keep a log

`logged h` is the environment `h` that also writes down what it has been asked and what it has
answered. What is known of `h` is known of it (`Script.wp_logged`), and so is what is known of
every recorded run (`Script.wp_logged_of_record`): a postcondition may speak of the state of the
environment and of the log at once, and its parts may be proved where they are at home.

`noted f h` is `h` with notes: of every event only `f` of it is written down. Notes do not change
what a program does (`Script.wp_noted_iff`), and a program none of whose events is worth a note
leaves them as they are.
-/

namespace Interaction

universe u v w x y z

variable {ι : Type u} {ρ : ι → Type v} {ε : Type w} {α : Type x} {σ : Type y} {τ : Type z}

/-- The environment `h`, with a log of its answers. -/
def logged (h : Handler σ ι ρ) : Handler (σ × List (Event ι ρ)) ι ρ :=
  fun w i r w' => h w.1 i r w'.1 ∧ w'.2 = w.2 ++ [⟨i, r⟩]

variable {h : Handler σ ι ρ} {h' : Handler τ ι ρ} {π : σ → τ} {F : ε → τ → Prop}

namespace Program

/-- An environment of which another sees a part. -/
theorem wp_of_projection (hπ : ∀ w i r w', h w i r w' → h' (π w) i r (π w'))
    {p : Program ι ρ ε α} {Q : α → τ → Prop} {w : σ} (hp : p.wp h' F Q (π w)) :
    p.wp h (fun e w' => F e (π w')) (fun a w' => Q a (π w')) w := by
  induction p generalizing w with
  | ret a => exact hp
  | fault e => exact hp
  | ask i k ih =>
    intro r w' hr
    exact ih r (hp r (π w') (hπ w i r w' hr))

/-- A program that asks only what changes nothing changes nothing. -/
theorem Within.wp_unchanged {P : ι → Prop} {E : ε → Prop} {p : Program ι ρ ε α}
    (hp : p.Within P E) (hP : ∀ w i r w', P i → h w i r w' → w' = w) {w : σ} :
    p.wp h (fun _ w' => w' = w) (fun _ w' => w' = w) w := by
  induction p with
  | ret a => rfl
  | fault e => rfl
  | ask i k ih =>
    intro r w' hr
    rw [hP w i r w' hp.1 hr]
    exact ih r (hp.2 r)

end Program

namespace Script

variable {S : Type x} {m : Script S ι ρ ε α} {s : S}

/-- What is known of an environment is known of it with a log. -/
theorem wp_logged {F : ε → σ → Prop} {Q : α → S → σ → Prop} {w : σ × List (Event ι ρ)}
    (hm : wp h F m Q s w.1) :
    wp (logged h) (fun e w' => F e w'.1) m (fun a s' w' => Q a s' w'.1) s w :=
  Program.wp_of_projection (fun _ _ _ _ hr => hr.1) hm

/-- What is known of every recorded run is known of the log. -/
theorem wp_logged_of_record {F : ε → List (Event ι ρ) → Prop}
    {Q : α → S → List (Event ι ρ) → Prop} {w : σ × List (Event ι ρ)}
    (hm : wp record F m Q s w.2) :
    wp (logged h) (fun e w' => F e w'.2) m (fun a s' w' => Q a s' w'.2) s w :=
  Program.wp_of_projection (fun _ _ _ _ hr => hr.2) hm

/-- `Program.Within.wp_unchanged`, of scripts. -/
theorem Within.wp_unchanged {P : ι → Prop} {E : ε → Prop} (hm : m.Within P E)
    (hP : ∀ w i r w', P i → h w i r w' → w' = w) {w : σ} :
    wp h (fun _ w' => w' = w) m (fun _ _ w' => w' = w) s w :=
  Program.Within.wp_unchanged (hm s) hP

end Script

/-! ### Notes -/

section Noted

variable {κ : Type*} {f : Event ι ρ → List κ}

/-- An environment that does nothing but take notes. -/
def notes (f : Event ι ρ → List κ) : Handler (List κ) ι ρ := fun l i r l' => l' = l ++ f ⟨i, r⟩

/-- The environment `h`, with notes on its answers. -/
def noted (f : Event ι ρ → List κ) (h : Handler σ ι ρ) : Handler (σ × List κ) ι ρ :=
  fun w i r w' => h w.1 i r w'.1 ∧ w'.2 = w.2 ++ f ⟨i, r⟩

/-- Computed replies, with notes on them. -/
def notedReply (f : Event ι ρ → List κ) (reply : σ → (i : ι) → Option (ρ i × σ))
    (w : σ × List κ) (i : ι) : Option (ρ i × (σ × List κ)) :=
  (reply w.1 i).map fun r => (r.1, r.2, w.2 ++ f ⟨i, r.1⟩)

/-- The replies with a note are replies of the handler that notes. -/
theorem notedReply_sound {reply : σ → (i : ι) → Option (ρ i × σ)}
    (hreply : ∀ w i r w', reply w i = some (r, w') → h w i r w') (w : σ × List κ) (i : ι) (r : ρ i)
    (w' : σ × List κ) (hr : notedReply f reply w i = some (r, w')) : noted f h w i r w' := by
  obtain ⟨⟨r', v⟩, hcomputed, heq⟩ := Option.map_eq_some_iff.mp hr
  cases heq
  exact ⟨hreply _ _ _ _ hcomputed, rfl⟩

namespace Script

variable {S : Type x} {m : Script S ι ρ ε α} {s : S} {F : ε → σ → Prop}

/-- A script does the same whether notes are taken or not. -/
theorem wp_noted_iff {Q : α → S → σ → Prop} {w : σ × List κ} :
    wp (noted f h) (fun e w' => F e w'.1) m (fun a s' w' => Q a s' w'.1) s w ↔
      wp h F m Q s w.1 := by
  unfold wp
  generalize m s = p
  induction p generalizing w with
  | ret a => rfl
  | fault e => rfl
  | ask i k ih =>
    constructor
    · intro hp r w' hr
      exact (ih r (w := (w', w.2 ++ f ⟨i, r⟩))).mp (hp r _ ⟨hr, rfl⟩)
    · intro hp r w' hr
      exact (ih r).mpr (hp r w'.1 hr.1)

/-- What asks nothing worth a note adds none. -/
theorem Within.wp_noted {P : ι → Prop} {E : ε → Prop} (hm : m.Within P E)
    (hP : ∀ i r, P i → f ⟨i, r⟩ = []) {Q : α → S → σ → Prop} {w : σ × List κ}
    (hwp : wp h F m Q s w.1) :
    wp (noted f h) (fun e w' => F e w'.1) m (fun a s' w' => Q a s' w'.1 ∧ w'.2 = w.2) s w := by
  have hnotes : wp (noted f h) (fun _ w' => w'.2 = w.2) m (fun _ _ w' => w'.2 = w.2) s w := by
    have hπ : ∀ w i r w', noted f h w i r w' → notes f w.2 i r w'.2 := fun _ _ _ _ hr => hr.2
    refine Program.wp_of_projection hπ (hm.wp_unchanged ?_)
    rintro l i r _ hi rfl
    rw [hP i r hi, List.append_nil]
  exact wp_mono (wp_and (wp_noted_iff.mpr hwp) hnotes) (fun _ _ hF => hF.1) fun _ _ _ hQ => hQ

end Script

/-- What every step of the environment does to its state, every run does. -/
theorem Script.wp_steps {S : Type x} {m : Script S ι ρ ε α} {s : S} {w : σ} {R : σ → σ → Prop}
    (hrefl : ∀ w, R w w) (htrans : ∀ w₁ w₂ w₃, R w₁ w₂ → R w₂ w₃ → R w₁ w₃)
    (hstep : ∀ w i r w', h w i r w' → R w w') :
    wp h (fun _ w' => R w w') m (fun _ _ w' => R w w') s w := by
  unfold wp
  generalize m s = p
  induction p generalizing w with
  | ret a => exact hrefl w
  | fault e => exact hrefl w
  | ask i k ih =>
    intro r w₁ hr
    have hfirst := hstep w i r w₁ hr
    refine Program.wp_mono (fun _ w' => htrans w w₁ w' hfirst)
      (fun _ w' => htrans w w₁ w' hfirst) (ih r)

end Noted

end Interaction
