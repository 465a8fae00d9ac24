import Mathlib.Data.List.Infix
import Mathlib.Logic.Function.Basic

/-!
# Trees of directories and files

A tree says what each path stands for, a path being the names on the way from the root. That the
root is a directory, and that only a directory holds anything, are fields: a tree that is built is
well formed.

`Tree.Completes t p t'` is what creating a path means: `t'` is `t` with a directory for every
prefix of `p` that was missing, and else the same. It grows by one name at a time
(`Completes.there`, `Completes.add`), it can be done exactly when no prefix is a file
(`Completes.isDirectory_iff`), and doing it again changes nothing (`Completes.again`). A file is
stored in the same sense (`Tree.Stores`), unless a file or a directory is in the way
(`Tree.exists_stores`, `Stores.storable`), and its directory may as well be created before
(`Stores.after_completes`).

The names in a path are separated by one symbol, which may be repeated (`components`).
-/

namespace FileTree

universe u v

/-! ### Paths as strings -/

section Components

variable {α : Type u} [DecidableEq α] {sep : α} {x y : List α}

/-- The names in a path that is written with separators. -/
def components (sep : α) (x : List α) : List (List α) := (x.splitOn sep).filter (· ≠ [])

@[simp] theorem components_nil : components sep [] = [] := by
  rw [components, List.splitOn_nil]
  rfl

/-- The names before and after a separator. -/
theorem components_append_sep : components sep (x ++ sep :: y) =
    components sep x ++ components sep y := by
  rw [components, List.splitOn_append_cons_self, List.filter_append]
  rfl

/-- A separator at the end makes no component. -/
theorem components_snoc : components sep (x ++ [sep]) = components sep x := by
  rw [components_append_sep, components_nil, List.append_nil]

/-- A string without a separator is a name. -/
theorem components_of_notMem (hx : sep ∉ x) (hne : x ≠ []) : components sep x = [x] := by
  rw [components, List.splitOn_eq_singleton hx]
  rw [List.filter_singleton, decide_eq_true hne, cond_true]

/-- A name after a separator. -/
theorem components_append_name {name : List α} (hname : sep ∉ name) (hne : name ≠ []) :
    components sep (x ++ sep :: name) = components sep x ++ [name] := by
  rw [components_append_sep, components_of_notMem hname hne]

end Components

/-! ### Trees -/

/-- What a path may stand for. -/
inductive Node (C : Type v)
  | directory
  | file (content : C)
  deriving DecidableEq, Repr

/-- A tree of directories and files. -/
@[ext] structure Tree (N : Type u) (C : Type v) where
  node : List N → Option (Node C)
  root : node [] = some .directory
  holds : ∀ p n, (node (p ++ [n])).isSome → node p = some .directory

namespace Tree

variable {N : Type u} {C : Type v} {t t₁ t₂ : Tree N C} {p q : List N} {n : N}

/-- There is a file at this path. -/
def IsFile (t : Tree N C) (p : List N) : Prop := ∃ content, t.node p = some (.file content)

/-- There is a directory at this path. -/
abbrev IsDirectory (t : Tree N C) (p : List N) : Prop := t.node p = some .directory

/-- A directory is no file. -/
theorem IsDirectory.not_isFile (h : t.IsDirectory p) : ¬t.IsFile p := by
  rintro ⟨content, hfile⟩
  cases h.symm.trans hfile

/-- What is there and no file is a directory. -/
theorem isDirectory_of_isSome (h : (t.node p).isSome) (hfile : ¬t.IsFile p) : t.IsDirectory p := by
  obtain ⟨node, hnode⟩ := Option.isSome_iff_exists.mp h
  cases node with
  | directory => exact hnode
  | file content => exact absurd ⟨content, hnode⟩ hfile

/-- On the way to what is there, there are only directories. -/
theorem isDirectory_of_below (hsome : (t.node p).isSome) (hq : q <+: p) (hne : q ≠ p) :
    t.IsDirectory q := by
  induction p using List.reverseRecOn with
  | nil => exact absurd (List.prefix_nil.mp hq) hne
  | append_singleton p n ih =>
    have hparent : t.IsDirectory p := t.holds p n hsome
    rcases List.prefix_concat_iff.mp hq with rfl | hq
    · exact absurd rfl hne
    by_cases hqp : q = p
    · exact hqp ▸ hparent
    · exact ih (by rw [hparent, Option.isSome_some]) hq hqp

/-- A file is at the end of every path it is on. -/
theorem IsFile.eq_of_prefix (h : t.IsFile q) (hsome : (t.node p).isSome) (hq : q <+: p) :
    q = p := by
  by_contra hne
  exact (isDirectory_of_below hsome hq hne).not_isFile h

/-- A file is on the way to this path. -/
def blocked (t : Tree N C) (p : List N) : Bool :=
  p.inits.any fun q => match t.node q with
    | some (.file _) => true
    | _ => false

section Update

variable [DecidableEq N]

/-- The tree with a new directory, in one that is there. -/
def addDirectory (t : Tree N C) (p : List N) (hparent : t.IsDirectory p.dropLast)
    (hfree : t.node p = none) : Tree N C where
  node := Function.update t.node p (some .directory)
  root := by
    have hne : [] ≠ p := by
      rintro rfl
      rw [t.root] at hfree
      cases hfree
    rw [Function.update_of_ne hne, t.root]
  holds q n hsome := by
    have hdirectory : t.IsDirectory q := by
      by_cases heq : q ++ [n] = p
      · rwa [← heq, List.dropLast_concat] at hparent
      · rw [Function.update_of_ne heq] at hsome
        exact t.holds q n hsome
    by_cases heq : q = p
    · rw [heq, Function.update_self]
    · rw [Function.update_of_ne heq, hdirectory]

/-- The tree with a directory added. -/
theorem addDirectory_node (hparent : t.IsDirectory p.dropLast) (hfree : t.node p = none) :
    (t.addDirectory p hparent hfree).node = Function.update t.node p (some .directory) := rfl

/-! ### Creating a path -/

/-- `t₁` is `t` with a directory for each prefix of `p` that was missing. -/
def Completes (t : Tree N C) (p : List N) (t₁ : Tree N C) : Prop :=
  ∀ q, t₁.node q = if q <+: p ∧ t.node q = none then some .directory else t.node q

namespace Completes

/-- Nothing is missing. -/
theorem of_isSome (hsome : (t.node p).isSome) : t.Completes p t := by
  intro q
  refine (if_neg ?_).symm
  rintro ⟨hq, hmissing⟩
  by_cases heq : q = p
  · rw [← heq, hmissing] at hsome
    cases hsome
  · rw [isDirectory_of_below hsome hq heq] at hmissing
    cases hmissing

/-- There is only one such tree. -/
theorem unique (h₁ : t.Completes p t₁) (h₂ : t.Completes p t₂) : t₁ = t₂ :=
  Tree.ext (funext fun q => (h₁ q).trans (h₂ q).symm)

/-- Completing a path makes no file and removes none. -/
theorem isFile_iff (h : t.Completes p t₁) : t₁.IsFile q ↔ t.IsFile q := by
  unfold IsFile
  rw [h q]
  split
  · rename_i hmissing
    rw [hmissing.2]
    refine iff_of_false ?_ ?_
    · rintro ⟨_, hfile⟩
      cases hfile
    · rintro ⟨_, hfile⟩
      cases hfile
  · rfl

/-- The path is there afterwards. -/
theorem isSome (h : t.Completes p t₁) : (t₁.node p).isSome := by
  rw [h p]
  split
  · rfl
  · rename_i hthere
    exact Option.isSome_iff_ne_none.mpr fun hnone => hthere ⟨List.prefix_rfl, hnone⟩

/-- The path is a directory in the end exactly when there was no file on it. -/
theorem isDirectory_iff (h : t.Completes p t₁) :
    t₁.IsDirectory p ↔ ∀ q, q <+: p → ¬t.IsFile q := by
  constructor
  · intro hdirectory q hq hfile
    have hfile₁ : t₁.IsFile q := h.isFile_iff.mpr hfile
    obtain rfl := hfile₁.eq_of_prefix h.isSome hq
    exact hdirectory.not_isFile hfile₁
  · intro hfiles
    refine isDirectory_of_isSome h.isSome fun hfile => ?_
    exact hfiles p List.prefix_rfl (h.isFile_iff.mp hfile)

/-- Created once, there is nothing left to create. -/
theorem again (h : t.Completes p t₁) : t₁.Completes p t₁ := .of_isSome h.isSome

/-- What is missing after `p` has been created was missing before. -/
theorem node_eq_none (h : t.Completes p t₁) (hmissing : t₁.node q = none) : t.node q = none := by
  rw [h q] at hmissing
  split at hmissing
  · cases hmissing
  · exact hmissing

/-- Behind `p` nothing has changed. -/
theorem node_concat (h : t.Completes p t₁) : t₁.node (p ++ [n]) = t.node (p ++ [n]) := by
  rw [h]
  refine if_neg fun hmissing => ?_
  have hlength := hmissing.1.length_le
  rw [List.length_append, List.length_singleton] at hlength
  omega

/-- The next name is there already. -/
theorem there (h : t.Completes p t₁) (hthere : (t₁.node (p ++ [n])).isSome) :
    t.Completes (p ++ [n]) t₁ := by
  intro q
  rw [h q]
  refine if_congr ⟨fun hq => ⟨hq.1.trans (List.prefix_append _ _), hq.2⟩, ?_⟩ rfl rfl
  rintro ⟨hq, hmissing⟩
  rcases List.prefix_concat_iff.mp hq with rfl | hq
  · rw [h.node_concat, hmissing] at hthere
    cases hthere
  · exact ⟨hq, hmissing⟩

/-- The next name is created. -/
theorem add (h : t.Completes p t₁) (hparent : t₁.IsDirectory (p ++ [n]).dropLast)
    (hfree : t₁.node (p ++ [n]) = none) :
    t.Completes (p ++ [n]) (t₁.addDirectory (p ++ [n]) hparent hfree) := by
  intro q
  rw [addDirectory_node]
  by_cases heq : q = p ++ [n]
  · subst heq
    rw [Function.update_self, if_pos ⟨List.prefix_rfl, h.node_eq_none hfree⟩]
  · have hprefix : q <+: p ↔ q <+: p ++ [n] := by
      rw [List.prefix_concat_iff, or_iff_right heq]
    rw [Function.update_of_ne heq, h q]
    exact if_congr (and_congr_left fun _ => hprefix) rfl rfl

/-- A path that runs into a file behind `p`: nothing has been created for it. -/
theorem eq_of_isFile (h : t.Completes p t₁) (hfile : t₁.IsFile (p ++ [n])) : t₁ = t := by
  have hfile' := h.isFile_iff.mp hfile
  obtain ⟨content, hcontent⟩ := hfile'
  have hparent : t.IsDirectory p := t.holds p n (by rw [hcontent, Option.isSome_some])
  exact h.unique (.of_isSome (by rw [hparent, Option.isSome_some]))

end Completes

/-! ### Storing a file -/

/-- No file is on the way to `p`, and `p` is no directory. -/
structure Storable (t : Tree N C) (p : List N) : Prop where
  free : ¬t.IsDirectory p
  way : ∀ q, q <+: p → q ≠ p → ¬t.IsFile q

/-- `t₁` is `t` with a file at `p`, and a directory for each prefix of `p` that was missing. -/
structure Stores (t : Tree N C) (p : List N) (content : C) (t₁ : Tree N C) : Prop where
  free : ¬t.IsDirectory p
  node : ∀ q, t₁.node q = if q = p then some (.file content)
    else if q <+: p ∧ t.node q = none then some .directory else t.node q

omit [DecidableEq N] in
/-- In a directory that is there, nothing is in the way. -/
theorem storable_of_parent (hparent : t.IsDirectory p.dropLast) (hfree : ¬t.IsDirectory p) :
    t.Storable p where
  free := hfree
  way q hq hne := by
    rcases List.eq_nil_or_concat p with rfl | ⟨p, n, rfl⟩
    · exact absurd (List.prefix_nil.mp hq) hne
    rw [List.concat_eq_append] at hq hne hparent
    rw [List.dropLast_concat] at hparent
    have hqp : q <+: p := (List.prefix_concat_iff.mp hq).resolve_left hne
    rcases eq_or_ne q p with rfl | hqne
    · exact hparent.not_isFile
    · exact (isDirectory_of_below (by rw [hparent, Option.isSome_some]) hqp hqne).not_isFile

namespace Stores

variable {content : C}

/-- The content is there afterwards. -/
theorem file (h : t.Stores p content t₁) : t₁.node p = some (.file content) := by
  rw [h.node, if_pos rfl]

/-- What a file on the way would hold is no file. -/
theorem storable (h : t.Stores p content t₁) : t.Storable p where
  free := h.free
  way q hq hne := by
    rintro ⟨content', hfile⟩
    have hdirectory : t₁.IsDirectory q :=
      isDirectory_of_below (by rw [h.file, Option.isSome_some]) hq hne
    have hkept : t₁.node q = t.node q := by
      rw [h.node, if_neg hne, if_neg fun hmissing => ?_]
      rw [hfile] at hmissing
      cases hmissing.2
    exact hdirectory.not_isFile ⟨content', hkept.trans hfile⟩

/-- The directory may be created first. -/
theorem after_completes (hcreated : t.Completes p.dropLast t₁) (h : t₁.Stores p content t₂) :
    t.Stores p content t₂ where
  free hdirectory := by
    refine h.free ?_
    rw [IsDirectory, hcreated p, if_neg, hdirectory]
    rintro ⟨-, hmissing⟩
    rw [hdirectory] at hmissing
    cases hmissing
  node q := by
    rw [h.node q]
    refine if_ctx_congr Iff.rfl (fun _ => rfl) fun hne => ?_
    have hprefix : q <+: p ↔ q <+: p.dropLast := by
      rcases List.eq_nil_or_concat p with rfl | ⟨p, n, rfl⟩
      · rfl
      · rw [List.concat_eq_append] at hne ⊢
        rw [List.dropLast_concat, List.prefix_concat_iff, or_iff_right hne]
    simp only [hcreated q, hprefix]
    by_cases hmissing : q <+: p.dropLast ∧ t.node q = none
    · rw [if_pos hmissing, if_neg (by simp)]
    · rw [if_neg hmissing, if_neg hmissing]

end Stores

/-- A file can be stored where nothing is in the way. -/
theorem exists_stores (h : t.Storable p) (content : C) : ∃ t₁, t.Stores p content t₁ := by
  have hne : [] ≠ p := by
    rintro rfl
    exact h.free t.root
  refine ⟨⟨fun q => if q = p then some (.file content)
    else if q <+: p ∧ t.node q = none then some .directory else t.node q, ?_, ?_⟩, h.free,
      fun _ => rfl⟩
  · rw [if_neg hne, if_neg fun hmissing => ?_, t.root]
    rw [t.root] at hmissing
    cases hmissing.2
  · intro q n hsome
    -- what is on the way to `p` is a directory, or becomes one
    have way (hq : q ++ [n] <+: p) : (if q = p then some (.file content)
        else if q <+: p ∧ t.node q = none then some .directory else t.node q) =
          some .directory := by
      have hqp : q <+: p := (List.prefix_append _ _).trans hq
      have hqne : q ≠ p := by
        rintro rfl
        have hlength := hq.length_le
        rw [List.length_append, List.length_singleton] at hlength
        omega
      rw [if_neg hqne]
      cases hnode : t.node q with
      | none => rw [if_pos ⟨hqp, rfl⟩]
      | some node =>
        have hdirectory : t.IsDirectory q :=
          isDirectory_of_isSome (by rw [hnode, Option.isSome_some]) (h.way q hqp hqne)
        rw [if_neg (by simp), ← hnode, hdirectory]
    by_cases hq : q ++ [n] <+: p
    · exact way hq
    · have hqn : q ++ [n] ≠ p := fun heq => hq (heq ▸ List.prefix_rfl)
      rw [if_neg hqn, if_neg fun hmissing => hq hmissing.1] at hsome
      have hdirectory : t.IsDirectory q := t.holds q n hsome
      have hqne : q ≠ p := fun heq => h.free (heq ▸ hdirectory)
      rw [if_neg hqne, hdirectory, if_neg (by simp)]

end Update

end Tree

end FileTree
