import HiveSDK.Interaction.Trace
import Mathlib.Data.List.Count

/-!
# Linear search, and programs that return

`Search test as` goes through the list `as` with a test that may change the state of the
environment, and stops at the first success. If the verdicts of the test do not depend on the
state, the search is `List.find?` (`Search.find?_eq`), however often the state changes; what has
been tested is a prefix of the list (`Search.tested_prefix`).

`Program.Returns` is total correctness without a postcondition: whatever the environment replies,
it can reply, and the program comes to a value. A program is a finite tree, so this is a matter of
the questions it asks (`Within.returns`).
-/

namespace Interaction

universe u v w x y

/-! ### Search -/

section Search

variable {α : Type u} {σ : Type v}

/-- The search through a list from one state to another: the elements tested, and the one found.
`test a w b w'` is a test of `a` from `w` with verdict `b`. -/
inductive Search (test : α → σ → Bool → σ → Prop) :
    List α → σ → List α → Option α → σ → Prop
  /-- Nothing is left to test. -/
  | nil (w : σ) : Search test [] w [] none w
  /-- The first element passes. -/
  | found {a : α} {as : List α} {w w' : σ} (h : test a w true w') :
      Search test (a :: as) w [a] (some a) w'
  /-- The first element fails, and the search goes on. -/
  | next {a : α} {as tested : List α} {found : Option α} {w w₁ w' : σ} (h : test a w false w₁)
      (hrest : Search test as w₁ tested found w') :
      Search test (a :: as) w (a :: tested) found w'

variable {test : α → σ → Bool → σ → Prop} {as bs tested tested' : List α} {found : Option α}
  {w w₁ w' : σ}

namespace Search

/-- A search that finds something need not look at what follows. -/
theorem append_right {a : α} (h : Search test as w tested (some a) w') (bs : List α) :
    Search test (as ++ bs) w tested (some a) w' := by
  generalize hfound : some a = found at h
  induction h with
  | nil w => cases hfound
  | found htest => cases hfound; exact .found htest
  | next htest _ ih => exact .next htest (ih hfound)

/-- A search that finds nothing goes on with what follows. -/
theorem append (h : Search test as w tested none w₁) (hrest : Search test bs w₁ tested' found w') :
    Search test (as ++ bs) w (tested ++ tested') found w' := by
  generalize hnone : (none : Option α) = none' at h
  induction h with
  | nil w => exact hrest
  | found htest => cases hnone
  | next htest _ ih => exact .next htest (ih hrest hnone)

/-- What has been tested comes first. -/
theorem tested_prefix (h : Search test as w tested found w') : tested <+: as := by
  induction h with
  | nil w => exact List.prefix_rfl
  | found htest => exact List.prefix_append [_] _
  | next htest _ ih => exact (List.prefix_append_right_inj [_]).mpr ih

/-- With fixed verdicts the search finds the first element that passes. -/
theorem find?_eq {up : α → Bool} (h : Search test as w tested found w')
    (hup : ∀ a ∈ as, ∀ w b w', test a w b w' → b = up a) : found = as.find? up := by
  induction h with
  | nil w => rfl
  | @found a as _ _ htest =>
    rw [List.find?_cons_of_pos (hup a List.mem_cons_self _ _ _ htest).symm]
  | @next a as _ _ _ _ _ htest _ ih =>
    have hfail : up a = false := (hup a List.mem_cons_self _ _ _ htest).symm
    rw [List.find?_cons_of_neg (by rw [hfail]; exact Bool.false_ne_true)]
    exact ih fun b hb => hup b (List.mem_cons_of_mem a hb)

end Search

end Search

/-! ### Programs that return -/

namespace Program

variable {ι : Type u} {ρ : ι → Type v} {ε : Type w} {α : Type x} {σ : Type y}

/-- Every run of the program from `w` can go on until it returns a value. -/
def Returns (h : Handler σ ι ρ) : Program ι ρ ε α → σ → Prop
  | ret _, _ => True
  | fault _, _ => False
  | ask i k, w => (∃ r w', h w i r w') ∧ ∀ r w', h w i r w' → (k r).Returns h w'

/-- An environment that answers what a program asks lets it return. -/
theorem Within.returns {P : ι → Prop} {h : Handler σ ι ρ}
    (hanswers : ∀ w i, P i → ∃ r w', h w i r w') {p : Program ι ρ ε α}
    (hp : p.Within P fun _ => False) (w : σ) : p.Returns h w := by
  induction p generalizing w with
  | ret a => trivial
  | fault e => exact hp
  | ask i k ih => exact ⟨hanswers w i hp.1, fun r w' _ => ih r (hp.2 r) w'⟩

end Program

end Interaction
