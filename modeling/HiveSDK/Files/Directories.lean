import HiveSDK.FileTree.Tree
import HiveSDK.Interaction.Total
import HiveSDK.Token.Connect

/-!
# Creating directories

`mkdirs` in a file system of directories and regular files that nothing else changes. `stat` and
`mkdir` are those of the tree: a name that is not there leads nowhere (`ENOENT`), a file on the way
to it is no directory (`ENOTDIR`), and what is there is not created again (`EEXIST`).

The loop of `mkdirs` creates the prefixes of its path in order (`Reached`), so that it is done when
it has come to the end, and has created nothing when it meets a file (`mkdirs_creates`).
-/

namespace HiveSDK

open Interaction C
open FileTree (Tree Node components)

/-! ### The file system -/

def ENOENT : ℤ := 2
def EEXIST : ℤ := 17
def ENOTDIR : ℤ := 20

/-- The symbol between two names. -/
abbrev slash : UInt8 := 47

/-- What a path names for a process in the directory `cwd`. -/
def resolve (cwd : List Bytes) (path : Bytes) : List Bytes :=
  (if path.head? = some slash then [] else cwd) ++ components slash path

/-- No name in the path is `.` or `..`. -/
def PlainPath (path : Bytes) : Prop :=
  ∀ name ∈ components slash path, name ≠ ascii "." ∧ name ≠ ascii ".."

instance (path : Bytes) : Decidable (PlainPath path) :=
  inferInstanceAs (Decidable (∀ name ∈ components slash path, name ≠ ascii "." ∧ name ≠ ascii ".."))

/-- The directories and files, with the contents of the files, and where the process is. -/
@[ext] structure FileSystem where
  tree : Tree Bytes Bytes
  cwd : List Bytes
  cwd_directory : tree.IsDirectory cwd

namespace FileSystem

/-- The error of a path that leads nowhere. -/
def nowhere (fs : FileSystem) (p : List Bytes) : ℤ := if fs.tree.blocked p then ENOTDIR else ENOENT

/-- `stat`. A file is not named by a path with a slash behind it. -/
def stat (fs : FileSystem) (path : Bytes) : Except ℤ FileStat :=
  if path = [] then .error ENOENT
  else
    match fs.tree.node (resolve fs.cwd path) with
    | some .directory => .ok .directory
    | some (.file content) =>
      if path.getLast? = some slash then .error ENOTDIR else .ok (.file content.length)
    | none => .error (fs.nowhere (resolve fs.cwd path))

/-- `mkdir`: the file system with the new directory, or the error. -/
def mkdir (fs : FileSystem) (path : Bytes) : Except ℤ FileSystem :=
  let p := resolve fs.cwd path
  if path = [] then .error ENOENT
  else if hfree : fs.tree.node p = none then
    if hparent : fs.tree.IsDirectory p.dropLast then
      .ok {
        tree := fs.tree.addDirectory p hparent hfree
        cwd := fs.cwd
        cwd_directory := by
          have hne : fs.cwd ≠ p := fun heq => by
            rw [← heq, fs.cwd_directory] at hfree
            cases hfree
          exact (Function.update_of_ne hne _ _).trans fs.cwd_directory }
    else .error (fs.nowhere p)
  else .error EEXIST

/-- The file system as an environment. A path with a name that is `.` or `..` may lead anywhere. -/
def handler : Handler FileSystem Call Call.Reply
  | fs, .stat path, r, fs' => (PlainPath path → r = fs.stat path) ∧ fs' = fs
  | fs, .mkdir path, r, fs' => PlainPath path →
    match fs.mkdir path with
    | .ok made => r = .ok () ∧ fs' = made
    | .error e => r = .error e ∧ fs' = fs
  | fs, _, _, fs' => fs' = fs

/-- A name that is free in a directory. -/
private theorem mkdir_ok {fs : FileSystem} {path : Bytes} {p : List Bytes} (hne : path ≠ [])
    (hresolve : resolve fs.cwd path = p) (hparent : fs.tree.IsDirectory p.dropLast)
    (hfree : fs.tree.node p = none) : ∃ made, fs.mkdir path = .ok made ∧
      made.tree = fs.tree.addDirectory p hparent hfree ∧ made.cwd = fs.cwd := by
  subst hresolve
  unfold mkdir
  dsimp only
  rw [if_neg hne, dif_pos hfree, dif_pos hparent]
  exact ⟨_, rfl, rfl, rfl⟩

/-- The file system answers every call made for a directory. -/
private theorem handler_answers (fs : FileSystem) (call : Call) (hcall : call.ForDirectory) :
    ∃ r fs', handler fs call r fs' := by
  cases call with
  | stat path => exact ⟨fs.stat path, fs, fun _ => rfl, rfl⟩
  | mkdir path =>
    cases hmade : fs.mkdir path with
    | ok made => exact ⟨.ok (), made, fun _ => by rw [hmade]; exact ⟨rfl, rfl⟩⟩
    | error e => exact ⟨.error e, fs, fun _ => by rw [hmade]; exact ⟨rfl, rfl⟩⟩
  | _ => exact hcall.elim

end FileSystem

/-! ### Paths -/

/-- A path that ends with a slash, or has not begun. -/
def AtSlash (path : Bytes) : Prop := path = [] ∨ ∃ front, path = front ++ [slash]

section Paths

variable {cwd : List Bytes} {path name rest : Bytes}

@[simp] theorem resolve_nil : resolve cwd [] = cwd := by
  simp [resolve]

/-- The path of a single slash is the root. -/
private theorem resolve_slash : resolve cwd [slash] = [] := rfl

/-- A slash behind a path changes nothing. -/
private theorem resolve_snoc (hne : path ≠ []) :
    resolve cwd (path ++ [slash]) = resolve cwd path := by
  unfold resolve
  rw [FileTree.components_snoc, List.head?_append_of_ne_nil _ hne]

/-- One more name. -/
private theorem resolve_append (hpath : AtSlash path) (hname : slash ∉ name) (hne : name ≠ []) :
    resolve cwd (path ++ name) = resolve cwd path ++ [name] := by
  rcases hpath with rfl | ⟨front, rfl⟩
  · have hhead : name.head? ≠ some slash := fun h => hname (List.mem_of_head? h)
    rw [List.nil_append, resolve_nil, resolve, if_neg hhead,
      FileTree.components_of_notMem hname hne]
  · have hfront : front ++ [slash] ≠ [] := List.append_ne_nil_of_right_ne_nil _ (by simp)
    unfold resolve
    rw [List.head?_append_of_ne_nil _ hfront, List.append_assoc, List.singleton_append,
      FileTree.components_append_name hname hne, FileTree.components_snoc, List.append_assoc]

/-- What is before a slash resolves to a prefix. -/
private theorem resolve_prefix (hne : path ≠ []) :
    resolve cwd path <+: resolve cwd (path ++ slash :: rest) := by
  unfold resolve
  rw [List.head?_append_of_ne_nil _ hne, FileTree.components_append_sep, ← List.append_assoc]
  exact List.prefix_append _ _

/-- What is asked for on the way is a part of the path. -/
theorem PlainPath.left (h : PlainPath (path ++ slash :: rest)) : PlainPath path := by
  intro name hname
  refine h name ?_
  rw [FileTree.components_append_sep]
  exact List.mem_append_left _ hname

end Paths

/-! ### The loop -/

/-- What the part `path` of a path names has been created in `fs`, and nothing else. -/
structure Reached (fs : FileSystem) (path : Bytes) (fs' : FileSystem) : Prop where
  cwd : fs'.cwd = fs.cwd
  completes : fs.tree.Completes (resolve fs.cwd path) fs'.tree
  directory : fs'.tree.IsDirectory (resolve fs.cwd path)

namespace Reached

variable {fs fs₁ : FileSystem} {path : Bytes}

/-- What has been reached is there. -/
theorem isSome (h : Reached fs path fs₁) : (fs₁.tree.node (resolve fs.cwd path)).isSome := by
  rw [h.directory, Option.isSome_some]

/-- At the beginning there is the directory the process is in. -/
theorem start (fs : FileSystem) : Reached fs [] fs := by
  have hthere : (fs.tree.node fs.cwd).isSome := by rw [fs.cwd_directory, Option.isSome_some]
  refine ⟨rfl, ?_, ?_⟩
  · rw [resolve_nil]
    exact .of_isSome hthere
  · rw [resolve_nil]
    exact fs.cwd_directory

/-- A slash changes nothing, but the first one leads to the root. -/
theorem snoc (h : Reached fs path fs₁) : Reached fs (path ++ [slash]) fs₁ := by
  by_cases hnil : path = []
  · subst hnil
    have hsame : fs₁.tree = fs.tree := by
      have hcompletes := h.completes
      rw [resolve_nil] at hcompletes
      exact hcompletes.unique (.of_isSome (by rw [fs.cwd_directory, Option.isSome_some]))
    have hroot : resolve fs.cwd ([] ++ [slash]) = [] := resolve_slash
    refine ⟨h.cwd, ?_, ?_⟩
    · rw [hroot, hsame]
      exact .of_isSome (by rw [fs.tree.root, Option.isSome_some])
    · rw [hroot]
      exact fs₁.tree.root
  · refine ⟨h.cwd, ?_, ?_⟩
    · rw [resolve_snoc hnil]
      exact h.completes
    · rw [resolve_snoc hnil]
      exact h.directory

end Reached

section Spec

variable {C : Type} {s : Thread C} {fs fs₁ : FileSystem} {path name : Bytes}

/-- A path that is a directory already. -/
private theorem mkdirInternal_there (hplain : PlainPath path) (hne : path ≠ [])
    (hreached : Reached fs path fs₁) :
    Script.wp FileSystem.handler noFault (mkdirInternal path : M C _)
      (fun r s' fs₂ => s' = s ∧ r = .ok () ∧ fs₂ = fs₁) s fs₁ := by
  unfold mkdirInternal
  simp only [Script.wp_bind, Script.wp_ask]
  rintro st fs₁ ⟨hst, rfl⟩
  have hdirectory : fs₁.stat path = .ok .directory := by
    rw [FileSystem.stat, if_neg hne, hreached.cwd, hreached.directory]
  obtain rfl : st = .ok .directory := (hst hplain).trans hdirectory
  exact ⟨rfl, rfl, rfl⟩

/-- The next name: it is there, it is created, or it is a file. -/
private theorem mkdirInternal_next (hplain : PlainPath (path ++ name)) (hpath : AtSlash path)
    (hname : slash ∉ name) (hne : name ≠ []) (hreached : Reached fs path fs₁) :
    Script.wp FileSystem.handler noFault (mkdirInternal (path ++ name) : M C _)
      (fun r s' fs₂ => s' = s ∧ match r with
        | .ok _ => Reached fs (path ++ name) fs₂
        | .error e => e = ENOTDIR ∧ fs₂ = fs ∧ fs.tree.IsFile (resolve fs.cwd (path ++ name))) s
      fs₁ := by
  have hresolve : resolve fs₁.cwd (path ++ name) = resolve fs.cwd path ++ [name] := by
    rw [hreached.cwd, resolve_append hpath hname hne]
  have hresolve' : resolve fs.cwd (path ++ name) = resolve fs.cwd path ++ [name] :=
    resolve_append hpath hname hne
  have hpne : path ++ name ≠ [] := List.append_ne_nil_of_right_ne_nil _ hne
  have hlast : (path ++ name).getLast? ≠ some slash := by
    rw [List.getLast?_append_of_ne_nil _ hne]
    exact fun h => hname (List.mem_of_getLast? h)
  unfold mkdirInternal
  simp only [Script.wp_bind, Script.wp_ask]
  rintro st fs₁ ⟨hst, rfl⟩
  replace hst := hst hplain
  rw [FileSystem.stat, if_neg hpne, hresolve] at hst
  -- what `stat` finds: a directory, a file, or nothing
  cases hnode : fs₁.tree.node (resolve fs.cwd path ++ [name]) with
  | some node =>
    have hsome : (fs₁.tree.node (resolve fs.cwd path ++ [name])).isSome := by
      rw [hnode, Option.isSome_some]
    cases node with
    | directory =>
      rw [hnode] at hst
      subst hst
      refine ⟨rfl, hreached.cwd, ?_, ?_⟩
      · rw [hresolve']
        exact hreached.completes.there hsome
      · rw [hresolve']
        exact hnode
    | file content =>
      rw [hnode] at hst
      simp only [if_neg hlast] at hst
      subst hst
      have hfile : fs₁.tree.IsFile (resolve fs.cwd path ++ [name]) := ⟨content, hnode⟩
      refine ⟨rfl, rfl, ?_, ?_⟩
      · exact FileSystem.ext (hreached.completes.eq_of_isFile hfile) hreached.cwd
      · rw [hresolve']
        exact hreached.completes.isFile_iff.mp hfile
  | none =>
    rw [hnode] at hst
    subst hst
    simp only [Script.wp_bind, Script.wp_ask]
    -- nothing there: the parent has been reached, so that `mkdir` succeeds
    have hparent : fs₁.tree.IsDirectory (resolve fs.cwd path ++ [name]).dropLast := by
      rw [List.dropLast_concat]
      exact hreached.directory
    obtain ⟨made, hmade, htree, hcwd⟩ := FileSystem.mkdir_ok hpne hresolve hparent hnode
    intro r fs₂ hr
    replace hr := hr hplain
    rw [hmade] at hr
    obtain ⟨rfl, rfl⟩ := hr
    refine ⟨rfl, hcwd.trans hreached.cwd, ?_, ?_⟩
    · rw [hresolve', htree]
      exact hreached.completes.add hparent hnode
    · rw [hresolve', htree]
      exact Function.update_self _ _ _

/-- The loop comes to the last slash, or to a file. -/
private theorem mkdirsLoop_creates {component rest : Bytes}
    (hplain : PlainPath (path ++ component ++ rest))
    (hpath : AtSlash path) (hcomponent : slash ∉ component) (hreached : Reached fs path fs₁) :
    Script.wp FileSystem.handler noFault (mkdirsLoop path component rest : M C _)
      (fun r s' fs₂ => s' = s ∧ match r with
        | .ok _ => ∃ front name, path ++ component ++ rest = front ++ name ∧ AtSlash front ∧
          slash ∉ name ∧ Reached fs front fs₂
        | .error e => e = ENOTDIR ∧ fs₂ = fs ∧
          ∃ q, q <+: resolve fs.cwd (path ++ component ++ rest) ∧ fs.tree.IsFile q) s fs₁ := by
  induction rest generalizing path component fs₁ with
  | nil => exact ⟨rfl, path, component, List.append_nil _, hpath, hcomponent, hreached⟩
  | cons c rest ih =>
    unfold mkdirsLoop
    simp only [Script.wp_ite]
    refine ⟨fun hc => ?_, fun hc => ⟨fun hnil => ?_, fun hne => ?_⟩⟩
    · -- one more symbol of the component
      have hnext : path ++ (component ++ [c]) ++ rest = path ++ component ++ c :: rest := by simp
      have hsymbol : slash ∉ component ++ [c] := by
        simp only [List.mem_append, List.mem_singleton, not_or]
        exact ⟨hcomponent, fun h => hc h.symm⟩
      have hih := ih (by rwa [hnext]) hpath hsymbol hreached
      rwa [hnext] at hih
    · -- another slash
      obtain rfl : c = slash := not_not.mp hc
      subst hnil
      have hnext : path ++ [slash] ++ [] ++ rest = path ++ [] ++ slash :: rest := by simp
      have hih := ih (by rwa [hnext]) (.inr ⟨path, rfl⟩) List.not_mem_nil hreached.snoc
      rwa [hnext] at hih
    · -- the end of a component
      obtain rfl : c = slash := not_not.mp hc
      have hnext : path ++ component ++ [slash] ++ [] ++ rest =
          path ++ component ++ slash :: rest := by simp
      simp only [Script.wp_bind]
      refine Script.wp_mono (mkdirInternal_next hplain.left hpath hcomponent hne hreached)
        (fun _ _ h => h) ?_
      rintro (e | _) s₁ fs₂ ⟨rfl, hmade⟩
      · obtain ⟨rfl, rfl, hfile⟩ := hmade
        exact ⟨rfl, rfl, rfl, _, resolve_prefix (List.append_ne_nil_of_right_ne_nil _ hne), hfile⟩
      · have hih := ih (by rwa [hnext]) (.inr ⟨path ++ component, rfl⟩) List.not_mem_nil hmade.snoc
        rwa [hnext] at hih

/-- The path is created, or there is a file on it and nothing has changed. -/
theorem mkdirs_ends (hne : path ≠ []) (hlen : path.length < PATH_MAX) (hplain : PlainPath path) :
    Script.wp FileSystem.handler noFault (mkdirs path : M C _)
      (fun r s' fs' => s' = s ∧ match r with
        | .ok _ => Reached fs path fs'
        | .error e => e = ENOTDIR ∧ fs' = fs ∧
          ∃ q, q <+: resolve fs.cwd path ∧ fs.tree.IsFile q) s fs := by
  have hwhole : path.take (PATH_MAX - 1) = path := List.take_of_length_le (by omega)
  have hloop : Script.wp FileSystem.handler noFault (mkdirsLoop [] [] path : M C _) _ s fs :=
    mkdirsLoop_creates hplain (.inl rfl) List.not_mem_nil (.start fs)
  unfold mkdirs
  rw [hwhole]
  simp only [Script.wp_bind]
  refine Script.wp_mono hloop (fun _ _ h => h) ?_
  rintro (e | _) s₁ fs₁ ⟨rfl, hmade⟩
  · exact ⟨rfl, hmade⟩
  obtain ⟨front, name, hsplit, hfront, hname, hreached⟩ := hmade
  obtain rfl : path = front ++ name := hsplit
  by_cases hnil : name = []
  · -- the last slash was the end
    subst hnil
    rw [List.append_nil] at hne hplain ⊢
    refine Script.wp_mono (mkdirInternal_there hplain hne hreached) (fun _ _ h => h) ?_
    rintro _ _ _ ⟨rfl, rfl, rfl⟩
    exact ⟨rfl, hreached⟩
  · refine Script.wp_mono (mkdirInternal_next hplain hfront hname hnil hreached)
      (fun _ _ h => h) ?_
    rintro (e | _) s₂ fs₂ ⟨rfl, hmade⟩
    · exact ⟨rfl, hmade.1, hmade.2.1, _, List.prefix_rfl, hmade.2.2⟩
    · exact ⟨rfl, hmade⟩

end Spec

/-! ### What is created -/

/-- What a call of `mkdirs` does to a file system. It succeeds exactly when no prefix of the path
is a file (`ok_iff`); then the path is a directory, and what was missing of it has become one, and
nothing else has changed. When it fails, only directories above the file have been added. -/
structure DirectoriesMade (fs : FileSystem) (path : Bytes) (r : Except ℤ Unit) (fs' : FileSystem) :
    Prop where
  ok_iff : r = .ok () ↔ ∀ q, q <+: resolve fs.cwd path → ¬fs.tree.IsFile q
  directory : r = .ok () → fs'.tree.IsDirectory (resolve fs'.cwd path)
  completes : r = .ok () → fs.tree.Completes (resolve fs.cwd path) fs'.tree
  above : r ≠ .ok () → ∃ offending, offending <+: resolve fs.cwd path ∧
    fs.tree.IsFile offending ∧ ∀ q, fs'.tree.node q ≠ fs.tree.node q →
      q <+: offending ∧ q ≠ offending ∧ fs.tree.node q = none ∧ fs'.tree.IsDirectory q
  cwd : fs'.cwd = fs.cwd

section Made

variable {C : Type} {s : Thread C} {fs : FileSystem} {path : Bytes}

/-- Every run ends. -/
private theorem mkdirs_total (hne : path ≠ []) (hlen : path.length < PATH_MAX)
    (hplain : PlainPath path) :
    Script.twp FileSystem.handler noFault (mkdirs path : M C _)
      (fun r s' fs' => s' = s ∧ match r with
        | .ok _ => Reached fs path fs'
        | .error e => e = ENOTDIR ∧ fs' = fs ∧
          ∃ q, q <+: resolve fs.cwd path ∧ fs.tree.IsFile q) s fs :=
  Script.wp.total FileSystem.handler_answers (mkdirs_directories path)
    (mkdirs_ends hne hlen hplain)

/-- All components reached: the directories are made. -/
private theorem directoriesMade_of_reached {fs' : FileSystem} (h : Reached fs path fs') :
    DirectoriesMade fs path (.ok ()) fs' where
  ok_iff := iff_of_true rfl (h.completes.isDirectory_iff.mp h.directory)
  directory _ := by
    rw [h.cwd]
    exact h.directory
  completes _ := h.completes
  above hfailed := absurd rfl hfailed
  cwd := h.cwd

/-- A file in the place of a component: nothing more is made. -/
private theorem directoriesMade_of_isFile {q : List Bytes} {e : ℤ} (hq : q <+: resolve fs.cwd path)
    (hfile : fs.tree.IsFile q) : DirectoriesMade fs path (.error e) fs where
  ok_iff := iff_of_false (fun h => (nomatch h)) fun hnone => hnone q hq hfile
  directory h := (nomatch h)
  completes h := (nomatch h)
  above _ := ⟨q, hq, hfile, fun _ hchanged => absurd rfl hchanged⟩
  cwd := rfl

/-- `mkdirs` creates exactly the missing directories of its path, and called again it returns the
same and changes nothing. -/
theorem mkdirs_creates (hne : path ≠ []) (hlen : path.length < PATH_MAX)
    (hplain : PlainPath path) :
    Script.twp FileSystem.handler noFault (mkdirs path : M C _)
      (fun r s' fs' => s' = s ∧ DirectoriesMade fs path r fs' ∧
        Script.twp FileSystem.handler noFault (mkdirs path : M C _)
          (fun r' s'' fs'' => s'' = s' ∧ r' = r ∧ fs'' = fs') s' fs') s fs := by
  refine Script.twp_mono (mkdirs_total hne hlen hplain) (fun _ _ h => h) ?_
  rintro (e | _) s₁ fs₁ ⟨rfl, hmade⟩
  · obtain ⟨rfl, rfl, q, hq, hfile⟩ := hmade
    refine ⟨rfl, directoriesMade_of_isFile hq hfile, ?_⟩
    -- the file is still there
    refine Script.twp_mono (mkdirs_total hne hlen hplain) (fun _ _ h => h) ?_
    rintro (e | _) s₂ fs₂ ⟨rfl, hagain⟩
    · obtain ⟨rfl, rfl, -⟩ := hagain
      exact ⟨rfl, rfl, rfl⟩
    · exact absurd hfile (hagain.completes.isDirectory_iff.mp hagain.directory q hq)
  · refine ⟨rfl, directoriesMade_of_reached hmade, ?_⟩
    -- nothing is missing any more
    refine Script.twp_mono (mkdirs_total hne hlen hplain) (fun _ _ h => h) ?_
    rintro (e | _) s₂ fs₂ ⟨rfl, hagain⟩
    · obtain ⟨-, -, q, hq, hfile⟩ := hagain
      rw [hmade.cwd] at hq
      have hfile₀ := hmade.completes.isFile_iff.mp hfile
      exact absurd hfile₀ (hmade.completes.isDirectory_iff.mp hmade.directory q hq)
    · have hcompletes := hagain.completes
      rw [hmade.cwd] at hcompletes
      exact ⟨rfl, rfl, FileSystem.ext (hcompletes.unique hmade.completes.again) hagain.cwd⟩

/-- An empty file system. -/
def emptyFileSystem : FileSystem where
  tree := {
    node := fun p => if p = [] then some .directory else none
    root := rfl
    holds := fun p n h => by
      rw [if_neg (List.append_ne_nil_of_right_ne_nil _ (List.cons_ne_nil n []))] at h
      cases h }
  cwd := []
  cwd_directory := rfl

/-- Two directories, the names separated by two slashes. -/
theorem mkdirs_creates_two :
    Script.twp FileSystem.handler noFault (mkdirs (ascii "a//b/") : M Unit _)
      (fun r s' fs' => s' = ⟨(), 0⟩ ∧ DirectoriesMade emptyFileSystem (ascii "a//b/") r fs' ∧
        Script.twp FileSystem.handler noFault (mkdirs (ascii "a//b/") : M Unit _)
          (fun r' s'' fs'' => s'' = s' ∧ r' = r ∧ fs'' = fs') s' fs') ⟨(), 0⟩ emptyFileSystem :=
  mkdirs_creates (by decide) (by decide) (by decide)

end Made

end HiveSDK
