import HiveSDK.Files.LocalDisk
import HiveSDK.OneDrive.Download

/-!
# Local files

The four functions that read or write a local file, on either kind of connection, seen from the
local disk. `hive_get_file` and `hive_ipfs_get_file` create the file they were told to, and every
run of theirs is one of four kinds (`Fetched`). From them it can be read off what the run leaves
on the disk: `frame_iff` is about the files that were not named, `failed_download_iff` about the
disk after a failure.
-/

namespace HiveSDK

open Interaction C

section Runs

variable {C : Type} {connect : HiveConnect C} {I : Thread C → Prop} {keystore : Option Bytes}

/-- The destination has been created. -/
abbrev created (path : Bytes) : CallEvent := ⟨.openFile path .writeExclusive, .ok ()⟩

/-- Events none of which changes the disk, but for the keystore. -/
abbrev Spared (keystore : Option Bytes) (tr : List CallEvent) : Prop :=
  ∀ e ∈ tr, CallEvent.SparesDisk keystore e

/-- One more event before a spared trace. -/
theorem Spared.cons {e : CallEvent} {tr : List CallEvent} (he : e.SparesDisk keystore)
    (htr : Spared keystore tr) : Spared keystore (e :: tr) :=
  List.forall_mem_cons.mpr ⟨he, htr⟩

/-- One more event after a spared trace. -/
theorem Spared.concat {e : CallEvent} {tr : List CallEvent} (htr : Spared keystore tr)
    (he : e.SparesDisk keystore) : Spared keystore (tr ++ [e]) :=
  List.forall_mem_append.mpr ⟨htr, List.forall_mem_singleton.mpr he⟩

theorem Spared.nil : Spared keystore [] := List.forall_mem_nil _

/-- The kinds of runs of a download to the local file at `path`: the value returned and the trace.
`Cleanup` are the events of a write that is not complete and of what follows it. -/
inductive Fetched (keystore : Option Bytes) (path : Bytes) (Cleanup : List CallEvent → Prop) :
    ℤ → List CallEvent → Prop
  /-- The destination is not created. -/
  | unopened {tr : List CallEvent} (htr : Spared keystore tr) :
      Fetched keystore path Cleanup (-1) tr
  /-- It is created and not written. -/
  | opened {rc : ℤ} {front back : List CallEvent} (hfront : Spared keystore front)
      (hback : Spared keystore back) :
      Fetched keystore path Cleanup rc (front ++ created path :: back)
  /-- It is written. -/
  | written {rc : ℤ} {front back : List CallEvent} {data : Bytes} {r : Except ℤ ℕ} (hrc : 0 ≤ rc)
      (hfront : Spared keystore front) (hback : Spared keystore back) :
      Fetched keystore path Cleanup rc
        (front ++ created path :: (back ++ [⟨.write path data, r⟩]))
  /-- The write is not complete. -/
  | undone {front back cleanup : List CallEvent} (hfront : Spared keystore front)
      (hback : Spared keystore back) (hcleanup : Cleanup cleanup) :
      Fetched keystore path Cleanup (-1) (front ++ created path :: (back ++ cleanup))

/-- `hive_get_file` unlinks the local file that has the name of the remote one; `removed` is the
outcome. -/
def GetFileCleanup (filename path : Bytes) (removed : Except ℤ Unit) (cleanup : List CallEvent) :
    Prop :=
  ∃ data r e, cleanup = [⟨.write path data, r⟩, ⟨.unlink filename, removed⟩, ⟨.errno, e⟩]

/-- `hive_ipfs_get_file` unlinks the destination. -/
def IpfsGetFileCleanup (path : Bytes) (removed : Except ℤ Unit) (cleanup : List CallEvent) : Prop :=
  ∃ data r e, cleanup = [⟨.write path data, r⟩, ⟨.errno, e⟩, ⟨.unlink path, removed⟩]

/-- What a script that spares the disk takes from a trace. -/
theorem SparesDisk.wp {α : Type} {m : M C α} (hm : SparesDisk I keystore m) {s : Thread C}
    (hs : I s) {tr : List CallEvent} :
    Script.wp playback anyFault m (fun _ s' tr' => I s' ∧
      ∃ pre, tr = pre ++ tr' ∧ Spared keystore pre) s tr := by
  refine Script.wp_mono (hm.wp_consumed hs) (fun _ _ _ => trivial) ?_
  rintro _ s' tr' ⟨⟨pre, htr, hpre⟩, hs'⟩
  exact ⟨hs', pre, htr, fun e he => hpre e he e.2⟩

variable {s : Thread C} {tr : List CallEvent}

/-- The write is the next event of the trace, with some of the block. -/
theorem writeBlock_playback (path block : Bytes) (count : ℕ) :
    Script.wp playback anyFault (writeBlock path block count)
      (fun r s' tr' => s' = s ∧ ∃ data, tr = ⟨.write path data, r⟩ :: tr') s tr := by
  unfold writeBlock
  simp only [Script.wp_ite, Script.wp_fault, Script.wp_ask]
  exact ⟨fun _ => trivial, fun _ r tr' htr => ⟨trivial, _, htr⟩⟩

/-- A new file at `path` is not opened, opened, written or undone. -/
private theorem createFile_fetched (Cleanup : List CallEvent → Prop)
    {toBuffer : Bytes → ℕ → M C (ℤ × Bytes)} {undo : M C ℤ} {path : Bytes} (hs : I s)
    (hbuffer : ∀ block buflen, SparesDisk I keystore (toBuffer block buflen))
    (hundo : ∀ data r s tr, Script.wp playback anyFault undo (fun rc _ tr' => rc = -1 ∧
      ∃ cleanup, tr = cleanup ++ tr' ∧ Cleanup (⟨.write path data, r⟩ :: cleanup)) s tr)
    {front : List CallEvent} (hfront : Spared keystore front) (fsize : ℤ) :
    Script.wp playback anyFault (createFile path fsize toBuffer undo)
      (fun rc _ tr' => ∃ pre, tr = pre ++ tr' ∧
        Fetched keystore path Cleanup rc (front ++ pre)) s tr := by
  unfold createFile
  simp only [Script.wp_bind, Script.wp_ite, Script.wp_pure, Script.wp_ask]
  refine ⟨fun _ => ⟨[], rfl, .unopened (by rwa [List.append_nil])⟩, fun _ => ?_⟩
  rintro opened tr₁ rfl
  cases opened with
  | error e => exact ⟨_, rfl, .unopened (hfront.concat (by rintro ⟨⟩))⟩
  | ok _ =>
  simp only [Script.wp_ite, Script.wp_pure, Script.wp_bind, Script.wp_ask]
  refine ⟨fun _ => ⟨_, rfl, .opened hfront .nil⟩, fun _ => ?_⟩
  rintro made tr₂ rfl
  refine ⟨fun _ => ⟨created path :: [⟨.malloc fsize.toNat, made⟩], rfl,
    .opened hfront (.cons trivial .nil)⟩, fun _ => ?_⟩
  refine Script.wp_mono ((hbuffer _ _).wp hs) (fun _ _ h => h) ?_
  rintro ⟨fsize', block⟩ s₂ _ ⟨-, back, rfl, hback⟩
  have hbetween : Spared keystore (⟨.malloc fsize.toNat, made⟩ :: back) := .cons trivial hback
  refine ⟨fun _ => ⟨created path :: ⟨.malloc fsize.toNat, made⟩ :: back, by simp,
    .opened hfront hbetween⟩, fun hnonneg => ?_⟩
  refine Script.wp_mono (writeBlock_playback _ _ _) (fun _ _ h => h) ?_
  rintro r s₃ tr₃ ⟨rfl, data, rfl⟩
  -- what has been written is not the whole, or there is no telling
  have hundone : Script.wp playback anyFault undo (fun rc _ tr' => ∃ pre,
      created path :: ⟨.malloc fsize.toNat, made⟩ :: (back ++ ⟨.write path data, r⟩ :: tr₃) =
        pre ++ tr' ∧ Fetched keystore path Cleanup rc (front ++ pre)) s₃ tr₃ := by
    refine Script.wp_mono (hundo data r s₃ tr₃) (fun _ _ h => h) ?_
    rintro _ _ tr' ⟨rfl, cleanup, rfl, hcleanup⟩
    exact ⟨created path :: (⟨.malloc fsize.toNat, made⟩ :: back ++
      ⟨.write path data, r⟩ :: cleanup), by simp, .undone hfront hbetween hcleanup⟩
  cases r with
  | error _ => exact hundone
  | ok nwr =>
    simp only [Script.wp_ite, Script.wp_pure]
    refine ⟨fun _ => hundone, fun _ => ?_⟩
    exact ⟨created path :: (⟨.malloc fsize.toNat, made⟩ :: back ++
      [⟨.write path data, .ok nwr⟩]), by simp, .written (not_lt.mp hnonneg) hfront hbetween⟩

/-- A run of `hive_get_file` is a download, undone by unlinking the file of the remote name. -/
private theorem hiveGetFile_fetched (hm : MethodsSpareDisk connect I keystore) (hs : I s)
    (filename path : Bytes) :
    Script.wp playback anyFault (hiveGetFile (some connect) (some filename) (some path))
      (fun rc _ tr' => ∃ pre, tr = pre ++ tr' ∧ Fetched keystore path
        (fun cleanup => ∃ r, GetFileCleanup filename path r cleanup) rc pre) s tr := by
  rcases filename with _ | ⟨b, filename⟩
  · exact ⟨[], rfl, .unopened .nil⟩
  rcases path with _ | ⟨c, path⟩
  · exact ⟨[], rfl, .unopened .nil⟩
  refine Script.wp_bind.mpr
    (Script.wp_mono ((hiveGetFileLength_sparesDisk hm _).wp hs) (fun _ _ h => h) ?_)
  rintro fsize s₁ tr₁ ⟨hs₁, front, rfl, hfront⟩
  refine Script.wp_mono (createFile_fetched
    (fun cleanup => ∃ r, GetFileCleanup (b :: filename) (c :: path) r cleanup) hs₁
    (fun block buflen => hiveGetFileToBuffer_sparesDisk hm _ _ _) ?_ hfront fsize)
    (fun _ _ h => h) ?_
  · rintro data r s tr removed _ rfl e _ rfl
    exact ⟨rfl, [⟨.unlink (b :: filename), removed⟩, ⟨.errno, e⟩], rfl, removed, data, r, e, rfl⟩
  · rintro rc _ tr' ⟨pre, rfl, hfetched⟩
    exact ⟨front ++ pre, (List.append_assoc _ _ _).symm, hfetched⟩

/-- A run of `hive_ipfs_get_file` is a download, undone by unlinking the destination. -/
private theorem hiveIpfsGetFile_fetched (hm : MethodsSpareDisk connect I keystore) (hs : I s)
    (cid path : Bytes) :
    Script.wp playback anyFault (hiveIpfsGetFile (some connect) (some cid) (some path))
      (fun rc _ tr' => ∃ pre, tr = pre ++ tr' ∧ Fetched keystore path
        (fun cleanup => ∃ r, IpfsGetFileCleanup path r cleanup) rc pre) s tr := by
  rcases cid with _ | ⟨b, cid⟩
  · exact ⟨[], rfl, .unopened .nil⟩
  rcases path with _ | ⟨c, path⟩
  · exact ⟨[], rfl, .unopened .nil⟩
  refine Script.wp_bind.mpr
    (Script.wp_mono ((hiveIpfsGetFileLength_sparesDisk hm _).wp hs) (fun _ _ h => h) ?_)
  rintro fsize s₁ tr₁ ⟨hs₁, front, rfl, hfront⟩
  refine Script.wp_mono (createFile_fetched
    (fun cleanup => ∃ r, IpfsGetFileCleanup (c :: path) r cleanup) hs₁
    (fun block buflen => ipfsToBuffer_sparesDisk hm _ _ _) ?_ hfront fsize) (fun _ _ h => h) ?_
  · rintro data r s tr e _ rfl removed _ rfl
    exact ⟨rfl, [⟨.errno, e⟩, ⟨.unlink (c :: path), removed⟩], rfl, removed, data, r, e, rfl⟩
  · rintro rc _ tr' ⟨pre, rfl, hfetched⟩
    exact ⟨front ++ pre, (List.append_assoc _ _ _).symm, hfetched⟩

end Runs

/-! ### What the runs leave -/

section Leaves

variable {keystore : Option Bytes} {path p : Bytes} {Cleanup : List CallEvent → Prop} {rc : ℤ}
  {tr : List CallEvent} {D : Disk}

/-- The disk after the events of a download up to the cleanup, away from the destination. -/
private theorem diskAfter_created {front back : List CallEvent} (hfront : Spared keystore front)
    (hback : Spared keystore back) (hkeystore : keystore ≠ some p) (hpath : p ≠ path) :
    diskAfter D (front ++ created path :: back) p = D p := by
  rw [diskAfter_append, diskAfter_cons, diskAfter_eq hback hkeystore]
  exact (Function.update_of_ne hpath _ _).trans (diskAfter_eq hfront hkeystore)

/-- A write changes its own file only. -/
private theorem diskStep_write_of_ne {data : Bytes} {r : Except ℤ ℕ} (hpath : p ≠ path) :
    diskStep D ⟨.write path data, r⟩ p = D p := by
  cases r with
  | ok n => exact Function.update_of_ne hpath _ _
  | error e => rfl

private theorem diskAfter_concat (front : List CallEvent) (e : CallEvent) :
    diskAfter D (front ++ [e]) = diskStep (diskAfter D front) e := by
  rw [diskAfter_append, diskAfter_cons, diskAfter_nil]

/-- A download changes no file but the destination and the keystore, and what the cleanup
changes. -/
theorem Fetched.frame (h : Fetched keystore path Cleanup rc tr) (hkeystore : keystore ≠ some p)
    (hpath : p ≠ path) (hcleanup : ∀ cleanup, Cleanup cleanup → cleanup <:+ tr →
      ∀ D : Disk, diskAfter D cleanup p = D p) :
    diskAfter D tr p = D p := by
  cases h with
  | unopened htr => exact diskAfter_eq htr hkeystore
  | opened hfront hback => exact diskAfter_created hfront hback hkeystore hpath
  | written _ hfront hback =>
    rw [← List.cons_append, ← List.append_assoc, diskAfter_concat, diskStep_write_of_ne hpath]
    exact diskAfter_created hfront hback hkeystore hpath
  | @undone front back cleanup hfront hback hc =>
    have hsuffix : cleanup <:+ front ++ created path :: (back ++ cleanup) :=
      ⟨front ++ created path :: back, by simp⟩
    rw [← List.cons_append, ← List.append_assoc, diskAfter_append, hcleanup cleanup hc hsuffix]
    exact diskAfter_created hfront hback hkeystore hpath

/-- The destination is there once it has been created. -/
private theorem isSome_created {front back : List CallEvent} (hback : Spared keystore back) :
    (diskAfter D (front ++ created path :: back) path).isSome := by
  rw [diskAfter_append, diskAfter_cons]
  refine isSome_diskAfter hback ?_
  have hnew : diskStep (diskAfter D front) (created path) path = some [] :=
    Function.update_self _ _ _
  rw [hnew]
  rfl

/-- It was not there before. -/
private theorem eq_none_of_creates {front back : List CallEvent} (hfront : Spared keystore front)
    (hcreates : Creates D (front ++ created path :: back)) : D path = none := by
  by_contra hsome
  have := isSome_diskAfter hfront (Option.isSome_iff_ne_none.mpr hsome)
  rw [hcreates front path back rfl] at this
  cases this

end Leaves

/-! ### Frame and rollback -/

/-- A download to a local file. -/
inductive Download
  | file (filename path : Bytes)
  | ipfs (cid path : Bytes)
  deriving DecidableEq, Repr

namespace Download

/-- The local file the download goes to. -/
def path : Download → Bytes
  | file _ path => path
  | ipfs _ path => path

def call {C : Type} (connect : HiveConnect C) : Download → M C ℤ
  | file filename path => hiveGetFile (some connect) (some filename) (some path)
  | ipfs cid path => hiveIpfsGetFile (some connect) (some cid) (some path)

/-- The local file that is unlinked after a write that is not complete. -/
def unlinked : Download → Bytes
  | file filename _ => filename
  | ipfs _ path => path

/-- The write that is not complete and what follows it. -/
def Cleanup : Download → Except ℤ Unit → List CallEvent → Prop
  | file filename path => GetFileCleanup filename path
  | ipfs _ path => IpfsGetFileCleanup path

/-- The run ends with a write that is not complete, and the file unlinked is removed. -/
def Removes (d : Download) (tr : List CallEvent) : Prop :=
  ∃ cleanup, d.Cleanup (.ok ()) cleanup ∧ cleanup <:+ tr

variable {d : Download} {removed : Except ℤ Unit} {cleanup : List CallEvent} {D : Disk} {p : Bytes}

/-- The cleanup changes the destination and what it unlinks. -/
theorem Cleanup.diskAfter_eq (h : d.Cleanup removed cleanup) (hpath : p ≠ d.path)
    (hunlinked : removed = .ok () → p ≠ d.unlinked) : diskAfter D cleanup p = D p := by
  have hwrite (data : Bytes) (r : Except ℤ ℕ) : diskStep D ⟨.write d.path data, r⟩ p = D p :=
    diskStep_write_of_ne hpath
  have hunlink (D : Disk) : diskStep D ⟨.unlink d.unlinked, removed⟩ p = D p := by
    match removed with
    | .ok () => exact Function.update_of_ne (hunlinked rfl) _ _
    | .error _ => rfl
  cases d with
  | file filename path =>
    obtain ⟨data, r, e, rfl⟩ := h
    exact (hunlink _).trans (hwrite data r)
  | ipfs cid path =>
    obtain ⟨data, r, e, rfl⟩ := h
    exact (hunlink _).trans (hwrite data r)

/-- What it has unlinked is gone. -/
theorem Cleanup.eq_none (h : d.Cleanup (.ok ()) cleanup) :
    diskAfter D cleanup d.unlinked = none := by
  cases d with
  | file filename path =>
    obtain ⟨data, r, e, rfl⟩ := h
    exact Function.update_self _ _ _
  | ipfs cid path =>
    obtain ⟨data, r, e, rfl⟩ := h
    exact Function.update_self _ _ _

/-- The destination stays, unless it is unlinked. -/
theorem Cleanup.isSome (h : d.Cleanup removed cleanup)
    (hremoved : removed = .ok () → d.unlinked ≠ d.path) (hpath : (D d.path).isSome) :
    (diskAfter D cleanup d.path).isSome := by
  have hwrite (data : Bytes) (r : Except ℤ ℕ) :
      (diskStep D ⟨.write d.path data, r⟩ d.path).isSome := by
    match r with
    | .ok n => exact Option.isSome_iff_exists.mpr ⟨_, Function.update_self _ _ _⟩
    | .error _ => exact hpath
  have hunlink (D : Disk) :
      diskStep D ⟨.unlink d.unlinked, removed⟩ d.path = D d.path := by
    match removed with
    | .ok () => exact Function.update_of_ne (hremoved rfl).symm _ _
    | .error _ => rfl
  cases d with
  | file filename path =>
    obtain ⟨data, r, e, rfl⟩ := h
    exact (congrArg Option.isSome (hunlink _)).trans (hwrite data r)
  | ipfs cid path =>
    obtain ⟨data, r, e, rfl⟩ := h
    exact (congrArg Option.isSome (hunlink _)).trans (hwrite data r)

/-- A run that removes a file leaves none of its name. -/
theorem Removes.eq_none {tr : List CallEvent} (h : d.Removes tr) :
    diskAfter D tr d.unlinked = none := by
  obtain ⟨cleanup, hcleanup, front, rfl⟩ := h
  rw [diskAfter_append, hcleanup.eq_none]

/-- A run of either download is a download in this sense. -/
theorem fetched {C : Type} {connect : HiveConnect C} {I : Thread C → Prop}
    {keystore : Option Bytes} (hm : MethodsSpareDisk connect I keystore) {s s' : Thread C} {rc : ℤ}
    {tr : List CallEvent} (hs : I s)
    (hexec : Program.Exec playback (d.call connect s) tr (.ok (rc, s')) []) :
    Fetched keystore d.path (fun cleanup => ∃ r, d.Cleanup r cleanup) rc tr := by
  cases d with
  | file filename path =>
    obtain ⟨pre, htr, hfetched⟩ := (hiveGetFile_fetched hm hs filename path).of_exec hexec
    rw [List.append_nil] at htr
    exact htr ▸ hfetched
  | ipfs cid path =>
    obtain ⟨pre, htr, hfetched⟩ := (hiveIpfsGetFile_fetched hm hs cid path).of_exec hexec
    rw [List.append_nil] at htr
    exact htr ▸ hfetched

end Download

/-- A call that moves a file between the local disk and a backend. -/
inductive FileTransfer
  | putFile (src filename : Bytes)
  | ipfsPutFile (src cid : Bytes)
  | download (d : Download)
  deriving DecidableEq, Repr

namespace FileTransfer

def call {C : Type} (connect : HiveConnect C) : FileTransfer → M C ℤ
  | putFile src filename => hivePutFile (some connect) (some src) (some filename)
  | ipfsPutFile src cid => do return (← hiveIpfsPutFile (some connect) (some src) (some cid)).1
  | download d => d.call connect

/-- The local file a call is told to write. -/
def destination : FileTransfer → Option Bytes
  | download d => some d.path
  | _ => none

end FileTransfer

/-- When a transfer leaves the files alone that it was not told to write: a token refresh has left
the keystore as it was, and a file that was removed after a write that was not complete is the
destination, or was not there. -/
structure KeepsFrame (keystore : Option Bytes) (D : Disk) (op : FileTransfer)
    (tr : List CallEvent) : Prop where
  keystore : ∀ path, keystore = some path → op.destination ≠ some path →
    diskAfter D tr path = D path
  unlinked : ∀ d, op = .download d → d.Removes tr → d.unlinked = d.path ∨ D d.unlinked = none

/-- An upload creates, writes and unlinks no local file. -/
private theorem putFile_spared {C : Type} {connect : HiveConnect C} {I : Thread C → Prop}
    {keystore : Option Bytes} (hm : MethodsSpareDisk connect I keystore) {s s' : Thread C} {rc : ℤ}
    {op : FileTransfer} {tr : List CallEvent} (hs : I s) (hput : op.destination = none)
    (hexec : Program.Exec playback (op.call connect s) tr (.ok (rc, s')) []) :
    Spared keystore tr := by
  have hspares : SparesDisk I keystore (op.call connect) := by
    cases op with
    | putFile src filename => exact hivePutFile_sparesDisk hm _ _
    | ipfsPutFile src cid => exact .bind (hiveIpfsPutFile_sparesDisk hm _ _) fun _ => .pure _
    | download d => cases hput
  obtain ⟨-, pre, htr, hpre⟩ := (hspares.wp hs).of_exec hexec
  rw [List.append_nil] at htr
  exact htr ▸ hpre

/-- What a run of one of the four functions does to the other files. -/
theorem frame_iff (b : Backend) (connect : b.Connect) (hiveError : ℤ) (op : FileTransfer)
    (D : Disk) {tr : List CallEvent} {rc : ℤ} {s' : Thread b.Connect}
    (hexec : Program.Exec playback (op.call b.methods ⟨connect, hiveError⟩) tr (.ok (rc, s')) []) :
    (∀ path, op.destination ≠ some path → diskAfter D tr path = D path) ↔
      KeepsFrame (b.keystore connect) D op tr := by
  obtain ⟨I, hm, hI⟩ := b.methods_spareDisk connect
  constructor
  · intro hframe
    refine ⟨fun path _ => hframe path, ?_⟩
    rintro d rfl hremoves
    rcases eq_or_ne d.unlinked d.path with heq | hne
    · exact .inl heq
    · exact .inr ((hframe d.unlinked fun h => hne (Option.some.inj h).symm).symm.trans
        hremoves.eq_none)
  · rintro ⟨hkept, hunlinked⟩ path hpath
    by_cases hkeystore : b.keystore connect = some path
    · exact hkept path hkeystore hpath
    cases op with
    | putFile src filename => exact diskAfter_eq (putFile_spared hm (hI _) rfl hexec) hkeystore
    | ipfsPutFile src cid => exact diskAfter_eq (putFile_spared hm (hI _) rfl hexec) hkeystore
    | download d =>
      have hne : path ≠ d.path := fun heq => hpath (congrArg some heq.symm)
      have hfetched := Download.fetched hm (hI _) hexec
      by_cases hremoves : d.Removes tr ∧ path = d.unlinked
      · obtain ⟨hremoves, rfl⟩ := hremoves
        rw [hremoves.eq_none, (hunlinked d rfl hremoves).resolve_left hne]
      · refine hfetched.frame hkeystore hne ?_
        rintro cleanup ⟨removed, hcleanup⟩ hsuffix D
        refine hcleanup.diskAfter_eq hne ?_
        rintro rfl heq
        exact hremoves ⟨⟨cleanup, hcleanup, hsuffix⟩, heq⟩

/-! ### A write for which there is no room -/

open OneDrive

/-- The file `a` of three bytes is downloaded; memory can be had or not, and nothing can be
written. -/
def noRoom (memory : Bool) (_ : Unit) : (i : Call) → Option (i.Reply × Unit)
  | .malloc _ => some (memory, ())
  | .openFile _ .writeExclusive => some (.ok (), ())
  | .write _ _ => some (.ok 0, ())
  | .unlink _ => some (.ok (), ())
  | .errno => some (28, ())
  | i => announceThree (ascii "123") () i

/-- What is said about `a`. -/
def threeBytes : HttpReply :=
  .accepted [ascii "{}"] (some (.object [
    (sizeQuery, .number (.ofInt 3)), (downloadUrlKey, .string (ascii "https://d"))]))

/-- Its length is asked for, and the destination is created. -/
def openEvents : List CallEvent := [
  ⟨.gettimeofday, ⟨1, 0⟩⟩,
  ⟨.httpClientNew .getFileLength, true⟩,
  ⟨.httpClientPerform (fileInfoRequest (ascii "token") (ascii "/Files/a") sizeQuery), threeBytes⟩,
  created (ascii "b")]

/-- It is downloaded, and not written. -/
def shortEvents : List CallEvent := [
  ⟨.malloc 3, true⟩,
  ⟨.gettimeofday, ⟨1, 0⟩⟩,
  ⟨.httpClientNew .getFileToBuffer, true⟩,
  ⟨.httpClientPerform (fileInfoRequest (ascii "token") (ascii "/Files/a") sizeAndUrlQuery),
    threeBytes⟩,
  ⟨.httpClientPerform (downloadRequest (ascii "https://d")), .accepted [ascii "123"] none⟩,
  ⟨.write (ascii "b") (ascii "123"), .ok 0⟩,
  ⟨.unlink (ascii "a"), .ok ()⟩,
  ⟨.errno, 28⟩]

/-- The thread after a system error. -/
def sysFailed : Thread OneDriveConnect :=
  { freshToken with hiveError := toInt (hiveSysError 28) }

/-- A disk with the file `a`. -/
def aloneOnDisk : Disk := fun path => if path = ascii "a" then some (ascii "mine") else none

private theorem shortWrite_exec : Program.Exec playback
    ((FileTransfer.download (.file (ascii "a") (ascii "b"))).call Backend.oneDrive.methods
      freshToken)
      (openEvents ++ shortEvents) (.ok (-1, sysFailed)) [] := by
  have hrun : ((FileTransfer.download (.file (ascii "a") (ascii "b"))).call
      Backend.oneDrive.methods freshToken).runWith (noRoom true) () =
        some (.ok (-1, sysFailed), openEvents ++ shortEvents) := rfl
  exact Program.exec_of_runWith hrun

/-- A local file that has the name of the remote one is lost. -/
theorem shortWrite_removes : ¬∀ (b : Backend) (connect : b.Connect) (hiveError : ℤ)
    (op : FileTransfer) (D : Disk) (tr : List CallEvent) (rc : ℤ) (s' : Thread b.Connect),
    Program.Exec playback (op.call b.methods ⟨connect, hiveError⟩) tr (.ok (rc, s')) [] →
      ∀ path, op.destination ≠ some path → diskAfter D tr path = D path := by
  intro h
  have hsame := h .oneDrive freshToken.conn 0 _ aloneOnDisk _ _ _ shortWrite_exec (ascii "a")
    (by decide)
  have hgone : diskAfter aloneOnDisk (openEvents ++ shortEvents) (ascii "a") = none := rfl
  rw [hgone] at hsame
  cases hsame

theorem frame_iff_shortWrite :
    (∀ path, (FileTransfer.download (.file (ascii "a") (ascii "b"))).destination ≠ some path →
      diskAfter aloneOnDisk (openEvents ++ shortEvents) path = aloneOnDisk path) ↔
    KeepsFrame (some (ascii "/keystore")) aloneOnDisk (.download (.file (ascii "a") (ascii "b")))
      (openEvents ++ shortEvents) :=
  frame_iff .oneDrive freshToken.conn 0 _ aloneOnDisk shortWrite_exec

/-- When a failed download leaves the disk as it was: a token refresh has left the keystore as it
was, and a destination that was created has been removed again. -/
structure RollsBack (keystore : Option Bytes) (D : Disk) (d : Download) (tr : List CallEvent) :
    Prop where
  keystore : ∀ path, keystore = some path → diskAfter D tr path = D path
  removed : created d.path ∈ tr → d.Removes tr ∧ d.unlinked = d.path

/-- A run that creates the destination creates it after events that spare the disk. -/
theorem Fetched.eq_none {keystore : Option Bytes} {path : Bytes} {rc : ℤ} {D : Disk}
    {Cleanup : List CallEvent → Prop} {tr : List CallEvent}
    (h : Fetched keystore path Cleanup rc tr) (hcreated : created path ∈ tr)
    (hcreates : Creates D tr) : D path = none := by
  cases h with
  | unopened htr => exact absurd rfl (htr _ hcreated)
  | opened hfront hback => exact eq_none_of_creates hfront hcreates
  | written _ hfront _ => exact eq_none_of_creates hfront hcreates
  | undone hfront _ _ => exact eq_none_of_creates hfront hcreates

/-- What a download that fails leaves on a disk on which `O_EXCL` is respected. -/
theorem failed_download_iff (b : Backend) (connect : b.Connect) (hiveError : ℤ) (d : Download)
    (D : Disk) {tr : List CallEvent} {s' : Thread b.Connect} (hcreates : Creates D tr)
    (hexec : Program.Exec playback (d.call b.methods ⟨connect, hiveError⟩) tr (.ok (-1, s')) []) :
    diskAfter D tr = D ↔ RollsBack (b.keystore connect) D d tr := by
  obtain ⟨I, hm, hI⟩ := b.methods_spareDisk connect
  have hfetched := Download.fetched hm (hI _) hexec
  constructor
  · intro hsame
    refine ⟨fun path _ => congrFun hsame path, fun hcreated => ?_⟩
    have hnone : diskAfter D tr d.path = none :=
      (congrFun hsame d.path).trans (hfetched.eq_none hcreated hcreates)
    -- a destination that is still there is a difference
    have gone {tr : List CallEvent} (h : (diskAfter D tr d.path).isSome)
        (hnone : diskAfter D tr d.path = none) : False := by
      rw [hnone] at h
      cases h
    -- the ways a download ends; only the undone one can have removed it
    cases hfetched with
    | unopened htr => exact absurd rfl (htr _ hcreated)
    | opened _ hback => exact (gone (isSome_created hback) hnone).elim
    | written hrc => exact absurd hrc (by decide)
    | @undone front back cleanup _ hback hc =>
      obtain ⟨removed, hcleanup⟩ := hc
      have hsplit : front ++ created d.path :: (back ++ cleanup) =
          front ++ created d.path :: back ++ cleanup := by simp
      by_cases hremoved : removed = .ok () ∧ d.unlinked = d.path
      · obtain ⟨rfl, heq⟩ := hremoved
        exact ⟨⟨cleanup, hcleanup, front ++ created d.path :: back, hsplit.symm⟩, heq⟩
      · rw [hsplit, diskAfter_append] at hnone
        have hthere : (diskAfter D (front ++ created d.path :: back) d.path).isSome :=
          isSome_created hback
        have hstays := hcleanup.isSome (fun hok heq => hremoved ⟨hok, heq⟩) hthere
        rw [hnone] at hstays
        cases hstays
  · rintro ⟨hkept, hremoved⟩
    funext path
    by_cases hkeystore : b.keystore connect = some path
    · exact hkept path hkeystore
    -- created and removed again, or never created
    by_cases hcreated : created d.path ∈ tr
    · obtain ⟨hremoves, heq⟩ := hremoved hcreated
      rcases eq_or_ne path d.path with rfl | hne
      · rw [← heq, hremoves.eq_none, heq, hfetched.eq_none hcreated hcreates]
      · refine hfetched.frame hkeystore hne ?_
        rintro cleanup ⟨removed, hcleanup⟩ - D
        exact hcleanup.diskAfter_eq hne fun _ => heq ▸ hne
    · cases hfetched with
      | unopened htr => exact diskAfter_eq htr hkeystore
      | opened => exact absurd (by simp) hcreated
      | written => exact absurd (by simp) hcreated
      | undone => exact absurd (by simp) hcreated

/-- The thread after an allocation has failed. -/
def memoryFailed : Thread OneDriveConnect :=
  { freshToken with hiveError := toInt (hiveGeneralError HIVEERR_OUT_OF_MEMORY) }

private theorem noMemory_exec : Program.Exec playback
    ((Download.file (ascii "a") (ascii "b")).call Backend.oneDrive.methods freshToken)
      (openEvents ++ [⟨.malloc 3, false⟩]) (.ok (-1, memoryFailed)) [] := by
  have hrun : ((Download.file (ascii "a") (ascii "b")).call
      Backend.oneDrive.methods freshToken).runWith (noRoom false) () =
        some (.ok (-1, memoryFailed), openEvents ++ [⟨.malloc 3, false⟩]) := rfl
  exact Program.exec_of_runWith hrun

private theorem noMemory_creates :
    Creates (fun _ => none) (openEvents ++ [⟨.malloc 3, false⟩]) := by
  refine creates_cons nofun (creates_cons nofun (creates_cons nofun (creates_cons ?_ ?_)))
  · exact fun _ _ => rfl
  · exact creates_cons nofun (creates_nil _)

/-- The empty destination stays when memory for the download cannot be had. -/
theorem noMemory_leaves : ¬∀ (b : Backend) (connect : b.Connect) (hiveError : ℤ) (d : Download)
    (D : Disk) (tr : List CallEvent) (s' : Thread b.Connect), Creates D tr →
      Program.Exec playback (d.call b.methods ⟨connect, hiveError⟩) tr (.ok (-1, s')) [] →
        diskAfter D tr = D := by
  intro h
  have hsame := h .oneDrive freshToken.conn 0 _ _ _ _ noMemory_creates noMemory_exec
  have hthere : diskAfter (fun _ => none) (openEvents ++ [⟨.malloc 3, false⟩]) (ascii "b") =
      some [] := rfl
  rw [hsame] at hthere
  cases hthere

theorem failed_download_iff_noMemory :
    diskAfter (fun _ => none) (openEvents ++ [⟨.malloc 3, false⟩]) = (fun _ => none) ↔
      RollsBack (some (ascii "/keystore")) (fun _ => none) (.file (ascii "a") (ascii "b"))
        (openEvents ++ [⟨.malloc 3, false⟩]) :=
  failed_download_iff .oneDrive freshToken.conn 0 _ _ noMemory_creates noMemory_exec

end HiveSDK
