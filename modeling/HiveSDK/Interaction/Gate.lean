import HiveSDK.Interaction.Trace

/-!
# Gates

A gate is a rule for the order of events: some events close it, some runs of events open it again,
and some events need it open. It is shut when it has been closed and not been opened since
(`Shut`), and a history keeps to it when what needs it open has happened only while it was not shut
(`Guarded`). `guarded_iff` says the same without prefixes: between an event that closes the gate and
a later one that needs it open lies a run of events that opens it.

`recordAs` is `record` for events of another kind, restricted to the replies that an environment
may give.
-/

namespace Interaction

universe u v w x y

section Gate

variable {X : Type u} (closes : X → Prop) (opens : List X → Prop) (needs : X → Prop)

/-- The gate has been closed, and not been opened since. -/
def Shut (past : List X) : Prop :=
  ∃ before x after, past = before ++ x :: after ∧ closes x ∧ ∀ seg, seg <:+: after → ¬opens seg

/-- What needs the gate open has not happened while it was shut. -/
def Guarded (past : List X) : Prop :=
  ∀ before y after, past = before ++ y :: after → needs y → ¬Shut closes opens before

variable {closes opens needs} {past new : List X}

/-- Nothing is shut at the beginning. -/
theorem not_shut_nil : ¬Shut closes opens [] := by
  rintro ⟨before, x, after, hnil, -⟩
  exact List.append_ne_nil_of_right_ne_nil before (List.cons_ne_nil x after) hnil.symm

/-- Where events that do not close the gate have been added, it was shut before. -/
theorem Shut.of_append (hshut : Shut closes opens (past ++ new)) (hnew : ∀ x ∈ new, ¬closes x) :
    ∃ before x after, past = before ++ x :: after ∧ closes x ∧
      ∀ seg, seg <:+: after ++ new → ¬opens seg := by
  obtain ⟨before, x, after, heq, hx, hkept⟩ := hshut
  rcases List.append_eq_append_iff.mp heq with ⟨mid, rfl, hmid⟩ | ⟨mid, rfl, hmid⟩
  · exact absurd hx (hnew x (hmid ▸ List.mem_append_right mid List.mem_cons_self))
  · cases mid with
    | nil =>
      rw [List.nil_append] at hmid
      exact absurd hx (hnew x (hmid ▸ List.mem_cons_self))
    | cons c mid =>
      obtain ⟨rfl, rfl⟩ := List.cons.inj hmid
      exact ⟨before, x, mid, rfl, hx, hkept⟩

/-- What is shut was so before, if no event since has shut it. -/
theorem Shut.before (hshut : Shut closes opens (past ++ new)) (hnew : ∀ x ∈ new, ¬closes x) :
    Shut closes opens past := by
  obtain ⟨before, x, after, heq, hx, hkept⟩ := hshut.of_append hnew
  exact ⟨before, x, after, heq, hx, fun seg hseg =>
    hkept seg (hseg.trans (List.prefix_append after new).isInfix)⟩

/-- A run of events that opens the gate, and does not close it, leaves it open. -/
theorem not_shut_of_opens (hnew : ∀ x ∈ new, ¬closes x) (hopens : opens new) :
    ¬Shut closes opens (past ++ new) := by
  intro hshut
  obtain ⟨before, x, after, -, -, hkept⟩ := hshut.of_append hnew
  exact hkept new (List.suffix_append after new).isInfix hopens

/-- At the beginning nothing has passed the gate. -/
theorem guarded_nil : Guarded closes opens needs [] := by
  intro before y after hnil
  exact absurd hnil.symm (List.append_ne_nil_of_right_ne_nil before (List.cons_ne_nil y after))

/-- What needs the gate open may happen where it is not shut. -/
theorem Guarded.concat (hguarded : Guarded closes opens needs past) {x : X}
    (hx : needs x → ¬Shut closes opens past) : Guarded closes opens needs (past ++ [x]) := by
  intro before y after heq hy
  rcases List.append_eq_append_iff.mp heq with ⟨mid, rfl, hmid⟩ | ⟨mid, rfl, hmid⟩
  · cases mid with
    | nil =>
      obtain ⟨rfl, -⟩ := List.cons.inj hmid
      rw [List.append_nil]
      exact hx hy
    | cons c mid =>
      have hlen := congrArg List.length hmid
      simp only [List.length_append, List.length_cons, List.length_nil] at hlen
      omega
  · cases mid with
    | nil =>
      obtain ⟨rfl, -⟩ := List.cons.inj hmid
      rw [List.append_nil] at hx
      exact hx hy
    | cons c mid =>
      obtain ⟨rfl, rfl⟩ := List.cons.inj hmid
      exact hguarded before y mid rfl hy

/-- What does not need the gate open may always happen. -/
theorem Guarded.append (hguarded : Guarded closes opens needs past) (hnew : ∀ x ∈ new, ¬needs x) :
    Guarded closes opens needs (past ++ new) := by
  induction new generalizing past with
  | nil => rwa [List.append_nil]
  | cons x new ih =>
    obtain ⟨hx, hrest⟩ := List.forall_mem_cons.mp hnew
    have hnext := ih (hguarded.concat fun h => absurd h hx) hrest
    rwa [List.append_assoc, List.singleton_append] at hnext

/-- Between an event that closes the gate and a later one that needs it open, the gate is opened. -/
theorem guarded_iff : Guarded closes opens needs past ↔
    ∀ before x mid y after, past = before ++ x :: (mid ++ y :: after) → closes x → needs y →
      ∃ seg, seg <:+: mid ∧ opens seg := by
  constructor
  · intro hguarded before x mid y after heq hx hy
    by_contra hno
    refine hguarded (before ++ x :: mid) y after ?_ hy
      ⟨before, x, mid, rfl, hx, fun seg hseg hopens => hno ⟨seg, hseg, hopens⟩⟩
    rw [heq, List.append_assoc, List.cons_append]
  · rintro hall before y after heq hy ⟨start, x, mid, rfl, hx, hkept⟩
    obtain ⟨seg, hseg, hopens⟩ := hall start x mid y after
      (by rw [heq, List.append_assoc, List.cons_append]) hx hy
    exact hkept seg hseg hopens

end Gate

section RecordAs

variable {ι : Type u} {ρ : ι → Type v} {ε : Type w} {α : Type x} {X : Type y}

/-- The environment that gives any reply in `T` and writes down what has been asked and answered,
as `g` has it. -/
def recordAs (g : Event ι ρ → X) (T : Event ι ρ → Prop) : Handler (List X) ι ρ :=
  fun past i r past' => T ⟨i, r⟩ ∧ past' = past ++ [g ⟨i, r⟩]

variable {g : Event ι ρ → X} {T : Event ι ρ → Prop} {P : ι → Prop} {E : ε → Prop}

/-- A recorded run is a run on a trace. -/
theorem Program.Exec.of_recordAs {p : Program ι ρ ε α} {past past' : List X} {o : Except ε α}
    (hex : Exec (recordAs g T) p past o past') :
    ∃ tr, past' = past ++ tr.map g ∧ (∀ e ∈ tr, T e) ∧ Exec playback p tr o [] := by
  induction hex with
  | ret a past => exact ⟨[], (List.append_nil past).symm, nofun, .ret a []⟩
  | fault e past => exact ⟨[], (List.append_nil past).symm, nofun, .fault e []⟩
  | @ask i k past past₁ past₂ r o hr _ ih =>
    obtain ⟨hT, rfl⟩ := hr
    obtain ⟨tr, rfl, htr, hplay⟩ := ih
    refine ⟨⟨i, r⟩ :: tr, ?_, List.forall_mem_cons.mpr ⟨hT, htr⟩, .ask rfl hplay⟩
    rw [List.append_assoc, List.map_cons, List.singleton_append]

/-- A run on a trace is recorded where its replies are in `T`. -/
theorem Program.Exec.recordAs {p : Program ι ρ ε α} {tr : List (Event ι ρ)} {o : Except ε α}
    (hex : Exec playback p tr o []) (htr : ∀ e ∈ tr, T e) (past : List X) :
    Exec (recordAs g T) p past o (past ++ tr.map g) := by
  generalize hnil : ([] : List (Event ι ρ)) = last at hex
  induction hex generalizing past with
  | ret a w =>
    subst hnil
    rw [List.map_nil, List.append_nil]
    exact .ret a past
  | fault e w =>
    subst hnil
    rw [List.map_nil, List.append_nil]
    exact .fault e past
  | @ask i k tr tr₁ tr₂ r o hr _ ih =>
    obtain rfl : tr = ⟨i, r⟩ :: tr₁ := hr
    obtain ⟨hT, hrest⟩ := List.forall_mem_cons.mp htr
    have hnext := ih hrest (past ++ [g ⟨i, r⟩]) hnil
    rw [List.append_assoc, List.singleton_append] at hnext
    exact .ask ⟨hT, rfl⟩ hnext

end RecordAs

end Interaction
