import HiveSDK.Interaction.Simulation
import HiveSDK.Interaction.Trace
import Mathlib.Data.Fintype.Basic
import Mathlib.Data.List.Dedup

/-!
# Programs that run at the same time

A pool of programs shares one environment, which answers one question at a time; an
**interleaving** is any order of the questions of all of them. Nothing stops another program
between two questions, so a program that reads and then writes may write something stale.

`serial_of_undisturbed` says when it does not. Suppose the only question of a program that
can change the environment is its last one, and that between a question that looks at the
environment and any later question of the same program no other program changes what there is
to see. Then every program might as well have run in one piece at the moment of its last
question: the interleaving ends like the serial run in the order of completion.
-/

namespace Interaction

universe u v w x y z

variable {ι : Type u} {ρ : ι → Type v} {ε : Type w} {α β : Type x} {σ : Type y} {κ : Type z}

namespace Program

/-! ### Which questions a program asks -/

/-- The program asks nothing. -/
def Silent : Program ι ρ ε α → Prop
  | ret _ => True
  | fault _ => True
  | ask _ _ => False

/-- Run against `h`, the program asks only questions in `P`. -/
def Asks (h : Handler σ ι ρ) (P : ι → Prop) : Program ι ρ ε α → σ → Prop
  | ret _, _ => True
  | fault _, _ => True
  | ask i k, w => P i ∧ ∀ r w', h w i r w' → (k r).Asks h P w'

/-- Run against `h`, the program asks only questions in `P` before its last one. -/
def AsksBeforeLast (h : Handler σ ι ρ) (P : ι → Prop) : Program ι ρ ε α → σ → Prop
  | ret _, _ => True
  | fault _, _ => True
  | ask i k, w => (∀ r, (k r).Silent) ∨ P i ∧ ∀ r w', h w i r w' → (k r).AsksBeforeLast h P w'

variable {h : Handler σ ι ρ} {P : ι → Prop} {w : σ}

/-- Silent programs are composed. -/
theorem Silent.bind {p : Program ι ρ ε α} {f : α → Program ι ρ ε β} (hp : p.Silent)
    (hf : ∀ a, (f a).Silent) : (p >>= f).Silent := by
  cases p with
  | ret a => exact hf a
  | fault e => trivial
  | ask i k => exact hp.elim

/-- A silent program leaves the world as it was. -/
theorem Silent.exec_eq {p : Program ι ρ ε α} {w' : σ} {o : Except ε α} (hp : p.Silent)
    (hrun : p.Exec h w o w') : w' = w := by
  cases hrun with
  | ret a w => rfl
  | fault e w => rfl
  | ask hr hk => exact hp.elim

/-- It asks nothing, whatever the question is. -/
theorem Silent.asksBeforeLast {p : Program ι ρ ε α} (hp : p.Silent) : p.AsksBeforeLast h P w := by
  cases p with
  | ret a => trivial
  | fault e => trivial
  | ask i k => exact hp.elim

/-- A program within some calls asks only these. -/
theorem Within.asks {E : ε → Prop} {p : Program ι ρ ε α} (hp : p.Within P E) : p.Asks h P w := by
  induction p generalizing w with
  | ret a => trivial
  | fault e => trivial
  | ask i k ih => exact ⟨hp.1, fun r w' _ => ih r (hp.2 r)⟩

/-- Composition, the second program from any world that the first may leave. -/
theorem Asks.bind {p : Program ι ρ ε α} {f : α → Program ι ρ ε β} (hp : p.Asks h P w)
    (hf : p.wp h (fun _ _ => True) (fun a w' => (f a).Asks h P w') w) :
    (p >>= f).Asks h P w := by
  induction p generalizing w with
  | ret a => exact hf
  | fault e => trivial
  | ask i k ih => exact ⟨hp.1, fun r w' hr => ih r (hp.2 r w' hr) (hf r w' hr)⟩

/-- A part that asks only questions in `P` may stand before the last question. -/
theorem Asks.bind_beforeLast {p : Program ι ρ ε α} {f : α → Program ι ρ ε β} (hp : p.Asks h P w)
    (hf : p.wp h (fun _ _ => True) (fun a w' => (f a).AsksBeforeLast h P w') w) :
    (p >>= f).AsksBeforeLast h P w := by
  induction p generalizing w with
  | ret a => exact hf
  | fault e => trivial
  | ask i k ih => exact .inr ⟨hp.1, fun r w' hr => ih r (hp.2 r w' hr) (hf r w' hr)⟩

/-- A part that asks nothing may stand behind it. -/
theorem AsksBeforeLast.bind_silent {p : Program ι ρ ε α} {f : α → Program ι ρ ε β}
    (hp : p.AsksBeforeLast h P w) (hf : ∀ a, (f a).Silent) : (p >>= f).AsksBeforeLast h P w := by
  induction p generalizing w with
  | ret a => exact (hf a).asksBeforeLast
  | fault e => trivial
  | ask i k ih =>
    rcases hp with hsilent | ⟨hi, hp⟩
    · exact .inl fun r => (hsilent r).bind hf
    · exact .inr ⟨hi, fun r w' hr => ih r (hp r w' hr)⟩

end Program

namespace Script

variable {S : Type x} {h : Handler σ ι ρ} {P : ι → Prop} {E : ε → Prop} {s : S} {w : σ}

/-- `Program.Silent`, from every memory. -/
def Silent (m : Script S ι ρ ε α) : Prop := ∀ s, (m s).Silent

/-- `Program.Asks`, from one memory. -/
def Asks (h : Handler σ ι ρ) (P : ι → Prop) (m : Script S ι ρ ε α) (s : S) (w : σ) : Prop :=
  (m s).Asks h P w

/-- `Program.AsksBeforeLast`, from one memory. -/
def AsksBeforeLast (h : Handler σ ι ρ) (P : ι → Prop) (m : Script S ι ρ ε α) (s : S) (w : σ) :
    Prop :=
  (m s).AsksBeforeLast h P w

variable {m n : Script S ι ρ ε α} {f : α → Script S ι ρ ε β}

theorem Silent.pure (a : α) : Silent (pure a : Script S ι ρ ε α) := fun _ => trivial

theorem Silent.fault (e : ε) : Silent (fault e : Script S ι ρ ε α) := fun _ => trivial

theorem Silent.modify (g : S → S) : Silent (modify g : Script S ι ρ ε PUnit) := fun _ => trivial

theorem Silent.bind (hm : m.Silent) (hf : ∀ a, (f a).Silent) : (m >>= f).Silent :=
  fun s => (hm s).bind fun p => hf p.1 p.2

theorem Silent.ite {c : Prop} [Decidable c] (hm : m.Silent) (hn : n.Silent) :
    (if c then m else n).Silent := by
  split
  · exact hm
  · exact hn

theorem Silent.asksBeforeLast (hm : m.Silent) : m.AsksBeforeLast h P s w := (hm s).asksBeforeLast

theorem Within.asks (hm : m.Within P E) : m.Asks h P s w := Program.Within.asks (hm s)

theorem Asks.bind (hm : m.Asks h P s w)
    (hf : wp h (fun _ _ => True) m (fun a s' w' => (f a).Asks h P s' w') s w) :
    (m >>= f).Asks h P s w :=
  Program.Asks.bind hm hf

/-- When the last call is in the second program, the first has none to leave out. -/
theorem Asks.bind_beforeLast (hm : m.Asks h P s w)
    (hf : wp h (fun _ _ => True) m (fun a s' w' => (f a).AsksBeforeLast h P s' w') s w) :
    (m >>= f).AsksBeforeLast h P s w :=
  Program.Asks.bind_beforeLast hm hf

/-- What may follow a part that stays within `P` may follow it whatever it returns. -/
theorem Within.bind_beforeLast (hm : m.Within P E)
    (hf : ∀ a s' w', (f a).AsksBeforeLast h P s' w') : (m >>= f).AsksBeforeLast h P s w :=
  hm.asks.bind_beforeLast (wp_mono wp_true (fun _ _ _ => trivial) fun a s' w' _ => hf a s' w')

/-- A silent program may follow: the last call stays the last. -/
theorem AsksBeforeLast.bind_silent (hm : m.AsksBeforeLast h P s w) (hf : ∀ a, (f a).Silent) :
    (m >>= f).AsksBeforeLast h P s w :=
  Program.AsksBeforeLast.bind_silent hm fun p => hf p.1 p.2

end Script

/-- The last question. -/
theorem Script.AsksBeforeLast.ask {S γ : Type v} {i : ι} {f : ρ i → Script S ι ρ ε γ}
    {h : Handler σ ι ρ} {P : ι → Prop} {s : S} {w : σ} (hf : ∀ r, (f r).Silent) :
    (ask i >>= f).AsksBeforeLast h P s w :=
  .inl fun r => hf r s

/-! ### Interleavings and serial runs -/

/-- `Interleaved h pool w τ a w'`: the programs of `pool` run at the same time from `w`, one
question after the other in the order `τ`, and end with the values `a` in `w'`. -/
inductive Interleaved [DecidableEq κ] (h : Handler σ ι ρ) :
    (κ → Program ι ρ ε α) → σ → List (κ × Event ι ρ) → (κ → α) → σ → Prop
  | done {pool : κ → Program ι ρ ε α} {a : κ → α} (hpool : ∀ k, pool k = .ret (a k)) (w : σ) :
      Interleaved h pool w [] a w
  | step {pool : κ → Program ι ρ ε α} {a : κ → α} {w w₁ w' : σ} {τ : List (κ × Event ι ρ)} (k : κ)
      {i : ι} {r : ρ i} {cont : ρ i → Program ι ρ ε α} (hk : pool k = .ask i cont)
      (hr : h w i r w₁) (hrest : Interleaved h (Function.update pool k (cont r)) w₁ τ a w') :
      Interleaved h pool w (⟨k, i, r⟩ :: τ) a w'

/-- The programs run one after the other, each of them in one piece. -/
abbrev Serial (h : Handler σ ι ρ) (pool : κ → Program ι ρ ε α) (a : κ → α) :
    σ → List κ → σ → Prop :=
  Run fun w k w' => Program.Exec h (pool k) w (.ok (a k)) w'

/-- The environment answers these questions one after the other. -/
abbrev Answered (h : Handler σ ι ρ) : σ → List (κ × Event ι ρ) → σ → Prop :=
  Run fun w q w' => h w q.2.1 q.2.2 w'

/-- The questions of one program with their replies. -/
def eventsOf [DecidableEq κ] (k : κ) (τ : List (κ × Event ι ρ)) : List (Event ι ρ) :=
  τ.filterMap fun q => if q.1 = k then some q.2 else none

section

variable [DecidableEq κ] {h : Handler σ ι ρ} {pool : κ → Program ι ρ ε α} {a : κ → α} {w w' : σ}
  {τ τ' : List (κ × Event ι ρ)} {k : κ}

@[simp] theorem eventsOf_nil : eventsOf k ([] : List (κ × Event ι ρ)) = [] := rfl

@[simp] theorem eventsOf_cons_self (e : Event ι ρ) :
    eventsOf k ((k, e) :: τ) = e :: eventsOf k τ := by
  simp [eventsOf]

/-- An event of another thread is none of this one. -/
theorem eventsOf_cons_of_ne {j : κ} (hj : j ≠ k) (e : Event ι ρ) :
    eventsOf k ((j, e) :: τ) = eventsOf k τ := by
  simp [eventsOf, hj]

/-- The events of a thread, over two stretches of time. -/
theorem eventsOf_append : eventsOf k (τ ++ τ') = eventsOf k τ ++ eventsOf k τ' :=
  List.filterMap_append

/-- A thread without events has none. -/
theorem eventsOf_eq_nil (hk : k ∉ τ.map Prod.fst) : eventsOf k τ = [] := by
  refine List.filterMap_eq_nil_iff.mpr fun q hq => if_neg fun heq => hk ?_
  exact List.mem_map.mpr ⟨q, hq, heq⟩

/-- An interleaving is answered by the handler, event after event. -/
theorem Interleaved.answered (hrun : Interleaved h pool w τ a w') : Answered h w τ w' := by
  induction hrun with
  | done _ w => exact .nil w
  | step k _ hr _ ih => exact .cons hr ih

/-- Each program makes a complete run of its own, on the replies it gets. -/
theorem Interleaved.exec_eventsOf (hrun : Interleaved h pool w τ a w') (k : κ) :
    (pool k).Exec playback (eventsOf k τ) (.ok (a k)) [] := by
  induction hrun with
  | done hpool w => rw [hpool k]; exact .ret _ _
  | @step pool a w w₁ w' τ j i r cont hj hr hrest ih =>
    rcases eq_or_ne j k with rfl | hne
    · rw [Function.update_self] at ih
      rw [eventsOf_cons_self, hj]
      exact .ask rfl ih
    · rw [Function.update_of_ne hne.symm] at ih
      rwa [eventsOf_cons_of_ne hne]

/-! ### When an interleaving is serial -/

/-- Questions in `P` change nothing, and those that do not look (`Looks`) or find the same
`view` are answered alike; an event outside `Writes` leaves the view. -/
structure Views {V : Type*} (h : Handler σ ι ρ) (view : σ → V) (P Looks : ι → Prop)
    (Writes : Event ι ρ → Prop) : Prop where
  still : ∀ {w i r w'}, P i → h w i r w' → w' = w
  again : ∀ {w i r w₁}, P i → h w i r w → (Looks i → view w₁ = view w) → h w₁ i r w₁
  calm : ∀ {w i r w'}, ¬Writes ⟨i, r⟩ → h w i r w' → view w' = view w

/-- No program writes between a look of another and a later question of that one. -/
def Undisturbed (Looks : ι → Prop) (Writes : Event ι ρ → Prop) (τ : List (κ × Event ι ρ)) : Prop :=
  ∀ k j e f e', [(k, e), (j, f), (k, e')].Sublist τ → Looks e.1 → j ≠ k → ¬Writes f

omit [DecidableEq κ] in
/-- Leaving out events disturbs nothing. -/
theorem Undisturbed.sublist {Looks : ι → Prop} {Writes : Event ι ρ → Prop}
    (hτ : Undisturbed Looks Writes τ) (hsub : τ'.Sublist τ) : Undisturbed Looks Writes τ' :=
  fun k j e f e' hin => hτ k j e f e' (hin.trans hsub)

variable {V : Type*} {view : σ → V} {P Looks : ι → Prop} {Writes : Event ι ρ → Prop}

/-- The run of one program, moved to its last question. `looked` says whether the program has
looked at the environment before `w`; from then on the view stays, so all that it has asked
would be answered the same way where it asks its last question. -/
theorem Views.exec_at_last (hviews : Views h view P Looks Writes) {p : Program ι ρ ε α} {b : α}
    (looked : Prop) {e : Event ι ρ} {w₁ : σ} (hτ : Answered h w τ w₁) (he : h w₁ e.1 e.2 w')
    (hp : p.Exec playback (eventsOf k (τ ++ [(k, e)])) (.ok b) [])
    (hasks : ∀ v, (looked → view v = view w) → p.AsksBeforeLast h P v)
    (hlooked : looked → ∀ q ∈ τ, q.1 ≠ k → ¬Writes q.2)
    (hundisturbed : Undisturbed Looks Writes (τ ++ [(k, e)])) :
    (looked → view w₁ = view w) ∧ (∀ q ∈ τ, q.1 = k → P q.2.1) ∧ p.Exec h w₁ (.ok b) w' := by
  induction hτ generalizing p looked with
  | nil w =>
    rw [List.nil_append, eventsOf_cons_self] at hp
    obtain ⟨cont, rfl, hcont⟩ := hp.of_playback_cons
    refine ⟨fun _ => rfl, by simp, .ask he ?_⟩
    rw [Program.Exec.of_playback_nil hcont]
    exact .ret _ _
  | @cons w w₂ _ q τ hq _ ih =>
    obtain ⟨j, i, r⟩ := q
    have hrest : Undisturbed Looks Writes (τ ++ [(k, e)]) :=
      hundisturbed.sublist (List.sublist_cons_self _ _)
    rw [List.cons_append] at hp
    rcases eq_or_ne j k with rfl | hne
    · rw [eventsOf_cons_self] at hp
      obtain ⟨cont, rfl, hcont⟩ := hp.of_playback_cons
      -- this is not the last question of the program
      have hmore : ¬(cont r).Silent := by
        intro hsilent
        have hnil := hsilent.exec_eq hcont
        rw [eventsOf_append, eventsOf_cons_self] at hnil
        simp at hnil
      have hnext (v : σ) (hv : looked → view v = view w) :
          P i ∧ ∀ r w', h v i r w' → (cont r).AsksBeforeLast h P w' :=
        (hasks v hv).resolve_left fun hsilent => hmore (hsilent r)
      have hi : P i := (hnext w fun _ => rfl).1
      obtain rfl : w₂ = w := hviews.still hi hq
      obtain ⟨hview, hquestions, hexec⟩ := ih (looked ∨ Looks i) he hcont
        (fun v hv => (hnext v fun hl => hv (.inl hl)).2 r v
          (hviews.again hi hq fun hl => hv (.inr hl)))
        (fun hl q hmem hother => by
          rcases hl with hl | hl
          · exact hlooked hl q (List.mem_cons_of_mem _ hmem) hother
          · refine hundisturbed j q.1 ⟨i, r⟩ q.2 e ?_ hl hother
            exact ((List.singleton_sublist.mpr hmem).append (List.Sublist.refl _)).cons_cons _)
        hrest
      refine ⟨fun hl => hview (.inl hl), fun q hq hk => ?_, .ask ?_ hexec⟩
      · rcases List.mem_cons.mp hq with rfl | hq
        · exact hi
        · exact hquestions q hq hk
      · exact hviews.again hi hq fun hl => hview (.inr hl)
    · rw [eventsOf_cons_of_ne hne] at hp
      have hcalm : looked → view w₂ = view w := fun hl =>
        hviews.calm (hlooked hl _ List.mem_cons_self hne) hq
      obtain ⟨hview, hquestions, hexec⟩ := ih looked he hp
        (fun v hv => hasks v fun hl => (hv hl).trans (hcalm hl))
        (fun hl q hmem => hlooked hl q (List.mem_cons_of_mem _ hmem)) hrest
      refine ⟨fun hl => (hview hl).trans (hcalm hl), fun q hq hk => ?_, hexec⟩
      rcases List.mem_cons.mp hq with rfl | hq
      · exact absurd hk hne
      · exact hquestions q hq hk

omit [DecidableEq κ] in
/-- The last event of a thread. -/
theorem exists_last_event (hk : k ∈ τ.map Prod.fst) :
    ∃ τ₁ e τ₂, τ = τ₁ ++ (k, e) :: τ₂ ∧ k ∉ τ₂.map Prod.fst := by
  induction τ with
  | nil => simp at hk
  | cons q τ ih =>
    by_cases hmem : k ∈ τ.map Prod.fst
    · obtain ⟨τ₁, e, τ₂, rfl, hlast⟩ := ih hmem
      exact ⟨q :: τ₁, e, τ₂, rfl, hlast⟩
    · rw [List.map_cons, List.mem_cons] at hk
      obtain rfl := hk.resolve_right hmem
      exact ⟨[], q.2, τ, rfl, hmem⟩

/-- At its last question in an interleaving, a program could run in one piece, and none of its
questions before has changed anything. -/
theorem Interleaved.exec_at_last (hviews : Views h view P Looks Writes)
    (hrun : Interleaved h pool w (τ ++ τ') a w')
    (hasks : ∀ k v, (pool k).AsksBeforeLast h P v)
    (hundisturbed : Undisturbed Looks Writes (τ ++ τ')) {e : Event ι ρ} {τ₂ : List (κ × Event ι ρ)}
    (hτ' : τ' = (k, e) :: τ₂) (hlast : k ∉ τ₂.map Prod.fst) {w₁ w₂ : σ} (hτ : Answered h w τ w₁)
    (he : h w₁ e.1 e.2 w₂) :
    (∀ q ∈ τ, q.1 = k → P q.2.1) ∧ (pool k).Exec h w₁ (.ok (a k)) w₂ := by
  subst hτ'
  have hsub : (τ ++ [(k, e)]).Sublist (τ ++ (k, e) :: τ₂) :=
    (List.Sublist.refl τ).append (List.singleton_sublist.mpr List.mem_cons_self)
  have hown := hrun.exec_eventsOf k
  have hevents : eventsOf k (τ ++ (k, e) :: τ₂) = eventsOf k (τ ++ [(k, e)]) := by
    rw [eventsOf_append, eventsOf_append, eventsOf_cons_self, eventsOf_cons_self,
      eventsOf_eq_nil hlast, eventsOf_nil]
  rw [hevents] at hown
  exact (hviews.exec_at_last False hτ he hown (fun v _ => hasks k v)
    (fun hl => hl.elim) (hundisturbed.sublist hsub)).2

/-- The rest of an interleaving, run serially. -/
theorem Interleaved.serial_rest (hviews : Views h view P Looks Writes)
    (hrun : Interleaved h pool w (τ ++ τ') a w')
    (hasks : ∀ k v, (pool k).AsksBeforeLast h P v)
    (hundisturbed : Undisturbed Looks Writes (τ ++ τ')) {w₁ : σ} (hτ : Answered h w τ w₁)
    (hτ' : Answered h w₁ τ' w') : Serial h pool a w₁ (τ'.map Prod.fst).dedup w' := by
  induction τ' generalizing τ w₁ with
  | nil => cases hτ'; exact .nil _
  | cons q τ' ih =>
    obtain ⟨k, e⟩ := q
    cases hτ' with
    | @cons _ w₂ _ _ _ he hrest =>
      have happend : τ ++ (k, e) :: τ' = τ ++ [(k, e)] ++ τ' := by simp
      have hserial : Serial h pool a w₂ (τ'.map Prod.fst).dedup w' := by
        rw [happend] at hrun hundisturbed
        exact ih hrun hundisturbed (hτ.append (.cons he (.nil _))) hrest
      rw [List.map_cons]
      by_cases hk : k ∈ τ'.map Prod.fst
      · rw [List.dedup_cons_of_mem hk]
        -- the program goes on, so this question has changed nothing
        obtain ⟨τ₁, e', τ₂, rfl, hlast⟩ := exists_last_event hk
        obtain ⟨w₃, hfirst, hsecond⟩ := Run.of_append hrest
        cases hsecond with
        | cons he' _ =>
          have hsplit : τ ++ (k, e) :: (τ₁ ++ (k, e') :: τ₂) =
            (τ ++ (k, e) :: τ₁) ++ (k, e') :: τ₂ := by simp
          rw [hsplit] at hrun hundisturbed
          have hquestion := (hrun.exec_at_last hviews hasks hundisturbed rfl hlast
            (hτ.append (.cons he hfirst)) he').1 (k, e) (by simp) rfl
          obtain rfl : w₂ = w₁ := hviews.still hquestion he
          exact hserial
      · rw [List.dedup_cons_of_notMem hk]
        exact .cons (hrun.exec_at_last hviews hasks hundisturbed rfl hk hτ he).2 hserial

/-- A program that never asks has returned from the start. -/
theorem Interleaved.pool_eq_ret (hrun : Interleaved h pool w τ a w') (hk : k ∉ τ.map Prod.fst) :
    pool k = .ret (a k) := by
  have hown := hrun.exec_eventsOf k
  rw [eventsOf_eq_nil hk] at hown
  exact hown.of_playback_nil

/-- An undisturbed interleaving ends like a serial run of the programs in some order. -/
theorem serial_of_undisturbed [Fintype κ] (hviews : Views h view P Looks Writes)
    (hrun : Interleaved h pool w τ a w') (hasks : ∀ k v, (pool k).AsksBeforeLast h P v)
    (hundisturbed : Undisturbed Looks Writes τ) :
    ∃ order : List κ, order.Nodup ∧ (∀ k, k ∈ order) ∧ Serial h pool a w order w' := by
  let idle := (Finset.univ.filter fun k => k ∉ τ.map Prod.fst).toList
  have hidle (k : κ) : k ∈ idle ↔ k ∉ τ.map Prod.fst := by simp [idle]
  have hfirst : ∀ ks : List κ, (∀ k ∈ ks, k ∉ τ.map Prod.fst) → Serial h pool a w ks w := by
    intro ks hks
    induction ks with
    | nil => exact .nil w
    | cons k ks ih =>
      refine .cons ?_ (ih fun j hj => hks j (List.mem_cons_of_mem _ hj))
      rw [hrun.pool_eq_ret (hks k List.mem_cons_self)]
      exact .ret _ _
  have hrest := hrun.serial_rest (τ := []) hviews hasks hundisturbed (.nil w) hrun.answered
  refine ⟨idle ++ (τ.map Prod.fst).dedup, ?_, fun k => ?_, (hfirst idle ?_).append hrest⟩
  · refine List.nodup_append.mpr ⟨Finset.nodup_toList _, List.nodup_dedup _, ?_⟩
    rintro k hk _ hk' rfl
    exact (hidle k).mp hk (List.mem_dedup.mp hk')
  · rw [List.mem_append, hidle, List.mem_dedup]
    exact (em _).symm
  · exact fun k hk => (hidle k).mp hk

/-! ### Scheduling -/

/-- Let the programs ask in the order given; the environment computes its replies. The events,
what is left of the programs, and the state afterwards. -/
def interleave (reply : σ → (i : ι) → Option (ρ i × σ)) :
    List κ → (κ → Program ι ρ ε α) → σ →
      Option (List (κ × Event ι ρ) × (κ → Program ι ρ ε α) × σ)
  | [], pool, w => some ([], pool, w)
  | k :: ks, pool, w =>
    match pool k with
    | .ask i cont =>
      match reply w i with
      | none => none
      | some (r, w₁) =>
        (interleave reply ks (Function.update pool k (cont r)) w₁).map fun next =>
          (⟨k, i, r⟩ :: next.1, next.2)
    | _ => none

/-- What a schedule computes is an interleaving, once all programs have returned. -/
theorem interleaved_of_interleave {reply : σ → (i : ι) → Option (ρ i × σ)}
    (hreply : ∀ w i r w', reply w i = some (r, w') → h w i r w') {ks : List κ}
    {pool' : κ → Program ι ρ ε α} (hrun : interleave reply ks pool w = some (τ, pool', w'))
    (hpool : ∀ k, pool' k = .ret (a k)) : Interleaved h pool w τ a w' := by
  induction ks generalizing pool w τ with
  | nil => cases hrun; exact .done hpool _
  | cons k ks ih =>
    unfold interleave at hrun
    split at hrun
    · rename_i i cont hk
      split at hrun
      · cases hrun
      · rename_i r w₁ hr
        obtain ⟨⟨τ, rest⟩, hnext, heq⟩ := Option.map_eq_some_iff.mp hrun
        cases heq
        exact .step k hk (hreply _ _ _ _ hr) (ih hnext)
    · cases hrun

end

end Interaction
