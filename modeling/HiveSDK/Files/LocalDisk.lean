import HiveSDK.IPFS.Requests
import HiveSDK.OneDrive.Requests

/-!
# The local disk

The disk after a run is computed from the trace of the run (`diskAfter`), and a trace can be that
of a run on a given disk only if exclusive creation has not succeeded on a file that was there
(`Creates`).

A backend touches one local file, the keystore, which it rewrites when tokens are refreshed; on
this everything that is said about local files rests (`Backend.methods_spareDisk`). The public
functions add nothing to it, but for the two that download to a file.
-/

namespace HiveSDK

open Interaction C

/-! ### The disk -/

/-- The contents of the local files, by path. -/
abbrev Disk := Bytes → Option Bytes

/-- The disk after an event. A write appends; one that fails changes nothing. -/
def diskStep (D : Disk) : CallEvent → Disk
  | ⟨.openFile path .writeTruncate, .ok _⟩ => Function.update D path (some [])
  | ⟨.openFile path .writeExclusive, .ok _⟩ => Function.update D path (some [])
  | ⟨.write path data, .ok n⟩ =>
    Function.update D path (some ((D path).getD [] ++ data.take n))
  | ⟨.unlink path, .ok _⟩ => Function.update D path none
  | _ => D

/-- The disk after a run. -/
def diskAfter (D : Disk) (tr : List CallEvent) : Disk := tr.foldl diskStep D

/-- `O_EXCL` has been respected. -/
def Creates (D : Disk) (tr : List CallEvent) : Prop :=
  ∀ front path back, tr = front ++ ⟨.openFile path .writeExclusive, .ok ()⟩ :: back →
    diskAfter D front path = none

@[simp] theorem diskAfter_nil (D : Disk) : diskAfter D [] = D := rfl

@[simp] theorem diskAfter_cons (D : Disk) (e : CallEvent) (tr : List CallEvent) :
    diskAfter D (e :: tr) = diskAfter (diskStep D e) tr := rfl

@[simp] theorem diskAfter_append (D : Disk) (tr tr' : List CallEvent) :
    diskAfter D (tr ++ tr') = diskAfter (diskAfter D tr) tr' := List.foldl_append

theorem creates_nil (D : Disk) : Creates D [] := by
  intro front path back htr
  simp at htr

/-- A trace creates its files if its first event does, on a disk without the file, and the rest does
afterwards. -/
theorem creates_cons {D : Disk} {e : CallEvent} {tr : List CallEvent}
    (he : ∀ path, e = ⟨.openFile path .writeExclusive, .ok ()⟩ → D path = none)
    (htr : Creates (diskStep D e) tr) : Creates D (e :: tr) := by
  intro front path back heq
  cases front with
  | nil => exact he path (List.cons.inj heq).1
  | cons e' front =>
    obtain ⟨rfl, hrest⟩ := List.cons.inj heq
    exact htr front path back hrest

section Disk

variable {keystore : Option Bytes} {D : Disk} {e : CallEvent} {tr : List CallEvent} {path : Bytes}

/-- An event that spares the disk changes no file but the keystore. -/
theorem CallEvent.SparesDisk.diskStep_eq (h : e.SparesDisk keystore)
    (hpath : keystore ≠ some path) :
    diskStep D e path = D path := by
  have other {p : Bytes} (hp : keystore = some p) : path ≠ p :=
    fun heq => hpath (hp.trans (congrArg some heq.symm))
  unfold diskStep
  split
  · exact Function.update_of_ne (other h) _ _
  · exact absurd rfl h
  · exact Function.update_of_ne (other h) _ _
  · exact h.elim
  · rfl

/-- An event that spares the disk removes no file. -/
theorem CallEvent.SparesDisk.isSome (h : e.SparesDisk keystore) (hpath : (D path).isSome) :
    (diskStep D e path).isSome := by
  have update {p content : Bytes} : (Function.update D p (some content) path).isSome := by
    rcases eq_or_ne path p with rfl | hne
    · rw [Function.update_self]
      rfl
    · rwa [Function.update_of_ne hne]
  unfold diskStep
  split
  · exact update
  · exact update
  · exact update
  · exact h.elim
  · exact hpath

variable {Q : CallEvent → Prop}

/-- Neither does a trace of such events. -/
theorem diskAfter_eq (h : ∀ e ∈ tr, CallEvent.SparesDisk keystore e)
    (hpath : keystore ≠ some path) :
    diskAfter D tr path = D path := by
  induction tr generalizing D with
  | nil => rfl
  | cons e tr ih =>
    rw [diskAfter_cons, ih fun e he => h e (List.mem_cons_of_mem _ he),
      (h e List.mem_cons_self).diskStep_eq hpath]

/-- And no file goes missing. -/
theorem isSome_diskAfter (h : ∀ e ∈ tr, CallEvent.SparesDisk keystore e) (hpath : (D path).isSome) :
    (diskAfter D tr path).isSome := by
  induction tr generalizing D with
  | nil => exact hpath
  | cons e tr ih =>
    exact ih (fun e he => h e (List.mem_cons_of_mem _ he)) ((h e List.mem_cons_self).isSome hpath)

end Disk

/-! ### What the backends do to the disk -/

section Backends

/-- Confined to the events that spare the disk. -/
abbrev SparesDisk {C α : Type} (I : Thread C → Prop) (keystore : Option Bytes) (m : M C α) : Prop :=
  m.Confined I (fun call => ∀ r, CallEvent.SparesDisk keystore ⟨call, r⟩) fun _ => True

/-- Every method that is there is confined to the events that spare the disk. -/
structure MethodsSpareDisk {C : Type} (connect : HiveConnect C) (I : Thread C → Prop)
    (keystore : Option Bytes) : Prop where
  hiveError : ∀ s e, I s → I { s with hiveError := e }
  putFileFromBuffer : ∀ m ∈ connect.putFileFromBuffer, ∀ body filename,
    SparesDisk I keystore (m body filename)
  getFileLength : ∀ m ∈ connect.getFileLength, ∀ filename, SparesDisk I keystore (m filename)
  getFileToBuffer : ∀ m ∈ connect.getFileToBuffer, ∀ filename block buflen,
    SparesDisk I keystore (m filename block buflen)
  ipfsPutFileFromBuffer : ∀ m ∈ connect.ipfsPutFileFromBuffer, ∀ body cid,
    SparesDisk I keystore (m body cid)
  ipfsGetFileLength : ∀ m ∈ connect.ipfsGetFileLength, ∀ cid, SparesDisk I keystore (m cid)
  ipfsGetFileToBuffer : ∀ m ∈ connect.ipfsGetFileToBuffer, ∀ cid block buflen,
    SparesDisk I keystore (m cid block buflen)

variable {path : Bytes}

namespace OneDrive

/-- What the operations of a connection with a keystore at `path` are confined to. -/
abbrev KeepsDisk {α : Type} (path : Bytes) (m : M OneDriveConnect α) : Prop :=
  SparesDisk (KeystoreAt path) (some path) m

/-- A refresh writes the keystore only. -/
private theorem oauthTokenCheckExpire_keepsDisk : KeepsDisk path oauthTokenCheckExpire :=
  (oauthTokenCheckExpire_confined path).mono (fun _ h => h.sparesDisk) fun _ _ => trivial

/-- A request touches no local file. -/
private theorem requestAuthorized_keepsDisk (request : HttpRequest) (accepted : List ℕ) :
    KeepsDisk path (requestAuthorized request accepted) :=
  requestAuthorized_confined (fun _ => trivial) (fun _ h => h) accepted

/-- A request with the bearer token to a URL that is printed first. -/
private theorem sendTo_keepsDisk {α : Type} {url : Bytes} {request : Bytes → HttpRequest}
    {accepted : List ℕ} {f : Except ℤ HttpReply → M OneDriveConnect α}
    (hf : ∀ reply, KeepsDisk path (f reply)) : KeepsDisk path (do
      let _ ← sprintfUrl url
      f (← requestAuthorized (request (← getBearerToken)) accepted)) :=
  .bind (sprintfUrl_confined trivial _) fun _ => .bind (getBearerToken_confined trivial) fun _ =>
    .bind (requestAuthorized_keepsDisk _ _) hf

private theorem createFolder_keepsDisk (file : Bytes) : KeepsDisk path (createFolder file) := by
  unfold createFolder buildCreateFolderRequestBody
  refine .bind (sprintfUrl_confined trivial _) fun url => .bind ?_ fun body => ?_
  · exact .bind (.ask fun _ => trivial) fun created => .ite (.pure _) (.ask fun _ => trivial)
  match body with
  | none => exact .pure _
  | some body =>
    refine .bind (getBearerToken_confined trivial) fun token => ?_
    refine .bind (requestAuthorized_keepsDisk _ _) fun reply => ?_
    match reply with
    | .error _ => exact .pure _
    | .ok _ => exact .pure _

private theorem uploadFile_keepsDisk (file body : Bytes) :
    KeepsDisk path (uploadFile file body) := by
  refine sendTo_keepsDisk fun reply => ?_
  match reply with
  | .error _ => exact .pure _
  | .ok _ => exact .pure _

private theorem createUploadSession_keepsDisk (file : Bytes) :
    KeepsDisk path (createUploadSession file) := by
  refine sendTo_keepsDisk fun reply => ?_
  match reply with
  | .error _ => exact .pure _
  | .ok reply =>
    refine .bind (moveAndParse_confined trivial _) fun json => ?_
    match json with
    | none => exact .pure _
    | some json =>
      dsimp only
      split
      · exact .pure _
      · exact .ite (.pure _) (.pure _)

private theorem uploadToSession_keepsDisk (url body : Bytes) :
    KeepsDisk path (uploadToSession url body) := by
  unfold uploadToSession
  refine .bind (.ask fun _ => trivial) fun reply => ?_
  split
  · exact .pure _
  · exact .ite (.pure _) (.pure _)

/-- An upload, large or small, touches no local file. -/
private theorem putFileFromBufferAt_keepsDisk (file body : Bytes) :
    KeepsDisk path (putFileFromBufferAt file body) := by
  unfold putFileFromBufferAt
  refine .bind oauthTokenCheckExpire_keepsDisk fun rc => .ite (.pure _) ?_
  refine .bind (.ask fun _ => trivial) fun created => .ite (.pure _) ?_
  refine .ite (uploadFile_keepsDisk _ _) (.bind (createFolder_keepsDisk _) fun rc => ?_)
  refine .ite (.pure _) (.bind (createUploadSession_keepsDisk _) fun session => ?_)
  match session with
  | .error _ => exact .pure _
  | .ok _ => exact .bind (uploadToSession_keepsDisk _ _) fun rc => .ite (.pure _) (.pure _)

private theorem getFileInfo_keepsDisk (file query : Bytes) :
    KeepsDisk path (getFileInfo file query) :=
  getFileInfo_confined (fun _ _ => trivial) (fun _ h => h) trivial trivial

private theorem getFileLength_keepsDisk (filename : Bytes) :
    KeepsDisk path (getFileLength filename) := by
  unfold getFileLength getFileLengthAt
  refine .ite (.pure _) (.bind oauthTokenCheckExpire_keepsDisk fun rc => .ite (.pure _) ?_)
  refine .bind (.ask fun _ => trivial) fun created => .ite (.pure _) ?_
  refine .bind (getFileInfo_keepsDisk _ _) fun info => ?_
  match info with
  | .error _ => exact .pure _
  | .ok json =>
    dsimp only
    split
    · exact .fault trivial
    · exact .pure _

private theorem downloadFile_keepsDisk (url block : Bytes) :
    KeepsDisk path (downloadFile url block) :=
  downloadFile_confined (fun _ => trivial) trivial block

private theorem getFileToBuffer_keepsDisk (filename block : Bytes) (buflen : ℕ) :
    KeepsDisk path (getFileToBuffer filename block buflen) := by
  unfold getFileToBuffer getFileToBufferAt
  refine .ite (.pure _) (.bind oauthTokenCheckExpire_keepsDisk fun rc => .ite (.pure _) ?_)
  refine .bind (.ask fun _ => trivial) fun created => .ite (.pure _) ?_
  refine .bind (getFileInfo_keepsDisk _ _) fun info => ?_
  match info with
  | .error _ => exact .pure _
  | .ok json =>
    dsimp only
    split
    · split
      · exact .pure _
      refine .ite (.pure _) (.bind (downloadFile_keepsDisk _ _) fun r => ?_)
      exact .ite (.pure _) (.pure _)
    · exact .fault trivial

end OneDrive

/-- The methods of a OneDrive connection keep the disk, the keystore apart. -/
private theorem oneDriveMethods_spareDisk :
    MethodsSpareDisk oneDriveMethods (KeystoreAt path) (some path) where
  hiveError _ _ h := h
  putFileFromBuffer := by
    rintro _ ⟨⟩ body filename
    exact OneDrive.putFileFromBufferAt_keepsDisk _ _
  getFileLength := by
    rintro _ ⟨⟩
    exact OneDrive.getFileLength_keepsDisk
  getFileToBuffer := by
    rintro _ ⟨⟩
    exact OneDrive.getFileToBuffer_keepsDisk
  ipfsPutFileFromBuffer := by rintro _ ⟨⟩
  ipfsGetFileLength := by rintro _ ⟨⟩
  ipfsGetFileToBuffer := by rintro _ ⟨⟩

/-- An IPFS connection touches no file. -/
private theorem sparesDisk_of_confinedNode {α : Type} {nodes : List RpcNode} {m : M IPFSConnect α}
    (hm : IPFS.ConfinedNode nodes m) : SparesDisk (fun s => s.conn.rpcNodes = nodes) none m := by
  refine hm.mono (fun call hcall r => ?_) fun _ h => h
  match call with
  | .rand | .httpClientNew _ | .httpClientPerform _ | .block => trivial

/-- Those of an IPFS connection keep all of it. -/
private theorem ipfsMethods_spareDisk (nodes : List RpcNode) :
    MethodsSpareDisk ipfsMethods (fun s => s.conn.rpcNodes = nodes) none where
  hiveError _ _ h := h
  putFileFromBuffer := by rintro _ ⟨⟩
  getFileLength := by rintro _ ⟨⟩
  getFileToBuffer := by rintro _ ⟨⟩
  ipfsPutFileFromBuffer := by
    rintro _ ⟨⟩ body cid
    exact sparesDisk_of_confinedNode (IPFS.putFileFromBuffer_confined _ _)
  ipfsGetFileLength := by
    rintro _ ⟨⟩ cid
    exact sparesDisk_of_confinedNode (IPFS.getFileLength_confined trivial _)
  ipfsGetFileToBuffer := by
    rintro _ ⟨⟩ cid block buflen
    exact sparesDisk_of_confinedNode (IPFS.getFileToBuffer_confined _ _ _)

/-- The methods of either backend. -/
theorem Backend.methods_spareDisk (b : Backend) (connect : b.Connect) : ∃ I,
    MethodsSpareDisk b.methods I (b.keystore connect) ∧ ∀ e, I ⟨connect, e⟩ := by
  cases b with
  | oneDrive => exact ⟨_, oneDriveMethods_spareDisk, fun _ => rfl⟩
  | ipfs => exact ⟨_, ipfsMethods_spareDisk connect.rpcNodes, fun _ => rfl⟩

end Backends

/-! ### The runs of the public functions -/

section Runs

variable {C : Type} {connect : HiveConnect C} {I : Thread C → Prop} {keystore : Option Bytes}

/-- Recording an error does not touch the disk. -/
theorem failWith_sparesDisk (hm : MethodsSpareDisk connect I keystore) (e : ℤ) :
    SparesDisk I keystore (failWith e : M C ℤ) :=
  .bind (.modify fun s => hm.hiveError s e) fun _ => .pure _

/-- Reporting a result does not either. -/
theorem reportInt_sparesDisk (hm : MethodsSpareDisk connect I keystore) (rc : ℤ) :
    SparesDisk I keystore (reportInt rc : M C ℤ) :=
  .ite (failWith_sparesDisk hm _) (.pure _)

theorem reportSize_sparesDisk (hm : MethodsSpareDisk connect I keystore) (rc : ℤ) :
    SparesDisk I keystore (reportSize rc : M C ℤ) :=
  .ite (failWith_sparesDisk hm _) (.pure _)

theorem hivePutFileFromBuffer_sparesDisk (hm : MethodsSpareDisk connect I keystore)
    (src : Option Bytes) (length : ℕ) (filename : Option Bytes) :
    SparesDisk I keystore (hivePutFileFromBuffer (some connect) src length filename) := by
  unfold hivePutFileFromBuffer
  split
  · rename_i heq _
    obtain rfl := Option.some.inj heq
    refine .ite (failWith_sparesDisk hm _) ?_
    split
    · exact failWith_sparesDisk hm _
    · rename_i m hput
      exact .bind (hm.putFileFromBuffer m hput _ _) fun rc => reportInt_sparesDisk hm rc
  · exact failWith_sparesDisk hm _

theorem hiveGetFileLength_sparesDisk (hm : MethodsSpareDisk connect I keystore)
    (filename : Option Bytes) :
    SparesDisk I keystore (hiveGetFileLength (some connect) filename) := by
  unfold hiveGetFileLength
  split
  · rename_i heq _
    obtain rfl := Option.some.inj heq
    split
    · exact failWith_sparesDisk hm _
    · rename_i m hlength
      exact .bind (hm.getFileLength m hlength _) fun rc => reportSize_sparesDisk hm _
  · exact failWith_sparesDisk hm _

theorem hiveGetFileToBuffer_sparesDisk (hm : MethodsSpareDisk connect I keystore)
    (filename dst : Option Bytes) (buflen : ℕ) :
    SparesDisk I keystore (hiveGetFileToBuffer (some connect) filename dst buflen) := by
  have failed (e : ℤ) (block : Bytes) : SparesDisk I keystore (do
      return (← failWith e, block) : M C (ℤ × Bytes)) :=
    .bind (failWith_sparesDisk hm e) fun _ => .pure _
  unfold hiveGetFileToBuffer
  split
  · rename_i heq _
    obtain rfl := Option.some.inj heq
    refine .ite (failed _ _) ?_
    split
    · exact failed _ _
    · rename_i m hbuffer
      exact .bind (hm.getFileToBuffer m hbuffer _ _ _) fun r =>
        .bind (reportSize_sparesDisk hm _) fun _ => .pure _
  · exact failed _ _

/-- The download of `hive_ipfs_get_file`, for a connection that may lack the method. -/
theorem ipfsToBuffer_sparesDisk (hm : MethodsSpareDisk connect I keystore) (cid block : Bytes)
    (buflen : ℕ) : SparesDisk I keystore (ipfsToBuffer connect cid block buflen) := by
  unfold ipfsToBuffer
  split
  · exact .fault trivial
  · rename_i m hbuffer
    exact .bind (hm.ipfsGetFileToBuffer m hbuffer _ _ _) fun r =>
      .bind (reportSize_sparesDisk hm _) fun _ => .pure _

theorem hiveIpfsPutFileFromBuffer_sparesDisk (hm : MethodsSpareDisk connect I keystore)
    (src : Option Bytes) (length : ℕ) (cid : Option Bytes) :
    SparesDisk I keystore (hiveIpfsPutFileFromBuffer (some connect) src length cid) := by
  have failed (e : ℤ) (cid : Bytes) : SparesDisk I keystore (do
      return (← failWith e, cid) : M C (ℤ × Bytes)) :=
    .bind (failWith_sparesDisk hm e) fun _ => .pure _
  unfold hiveIpfsPutFileFromBuffer
  split
  · rename_i heq
    obtain rfl := Option.some.inj heq
    refine .ite (failed _ _) ?_
    split
    · exact failed _ _
    · rename_i m hput
      exact .bind (hm.ipfsPutFileFromBuffer m hput _ _) fun r =>
        .bind (reportInt_sparesDisk hm _) fun _ => .pure _
  · exact failed _ _

theorem hiveIpfsGetFileLength_sparesDisk (hm : MethodsSpareDisk connect I keystore)
    (cid : Option Bytes) :
    SparesDisk I keystore (hiveIpfsGetFileLength (some connect) cid) := by
  unfold hiveIpfsGetFileLength
  split
  · rename_i heq _
    obtain rfl := Option.some.inj heq
    split
    · exact failWith_sparesDisk hm _
    · rename_i m hlength
      exact .bind (hm.ipfsGetFileLength m hlength _) fun rc => reportSize_sparesDisk hm _
  · exact failWith_sparesDisk hm _

/-- Reading a local file changes nothing on the disk. -/
theorem readLocalFile_sparesDisk (hm : MethodsSpareDisk connect I keystore) (path : Bytes) :
    SparesDisk I keystore (readLocalFile path : M C _) := by
  have failed (e : ℤ) : SparesDisk I keystore (do
      hiveSetError e
      return none : M C (Option Bytes)) :=
    .bind (.modify fun s => hm.hiveError s e) fun _ => .pure _
  have failedSys : SparesDisk I keystore (do
      hiveSetError (toInt (hiveSysError (← errno)))
      return none : M C (Option Bytes)) :=
    .bind (.ask fun _ => trivial) fun e => failed _
  unfold readLocalFile
  refine .bind (.ask fun _ => trivial) fun opened => ?_
  match opened with
  | .error _ => exact failed _
  | .ok _ =>
    refine .bind (.ask fun _ => trivial) fun size => .ite (failed _) ?_
    refine .bind (.ask fun _ => trivial) fun made => .ite (failed _) ?_
    refine .bind (.ask fun _ => trivial) fun content => ?_
    match content with
    | .error _ => exact failedSys
    | .ok _ => exact .ite failedSys (.pure _)

/-- Uploading a local file leaves the disk alone. -/
theorem hivePutFile_sparesDisk (hm : MethodsSpareDisk connect I keystore)
    (src filename : Option Bytes) :
    SparesDisk I keystore (hivePutFile (some connect) src filename) := by
  unfold hivePutFile
  split
  · rename_i heq _ _
    obtain rfl := Option.some.inj heq
    refine .bind (readLocalFile_sparesDisk hm _) fun content => ?_
    match content with
    | none => exact .pure _
    | some _ => exact hivePutFileFromBuffer_sparesDisk hm _ _ _
  · exact failWith_sparesDisk hm _

/-- Adding a local file to the nodes leaves the disk alone. -/
theorem hiveIpfsPutFile_sparesDisk (hm : MethodsSpareDisk connect I keystore)
    (src cid : Option Bytes) :
    SparesDisk I keystore (hiveIpfsPutFile (some connect) src cid) := by
  unfold hiveIpfsPutFile
  split
  · rename_i heq _
    obtain rfl := Option.some.inj heq
    refine .bind (readLocalFile_sparesDisk hm _) fun content => ?_
    match content with
    | none => exact .pure _
    | some _ => exact hiveIpfsPutFileFromBuffer_sparesDisk hm _ _ _
  · exact .bind (failWith_sparesDisk hm _) fun _ => .pure _

end Runs

end HiveSDK
