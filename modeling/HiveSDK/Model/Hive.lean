import HiveSDK.Model.Connect
import HiveSDK.Model.IPFS

/-!
# The public operations

`hive_file.c` and `hive_key.c`: argument checks, the dispatch through the function table of
the connection, and the error a failing backend function leaves in `hive_error`. The table
is that of `struct HiveConnect`; a method a backend does not have is `none`, and so is a
`NULL` argument.

What a method answers for a length is an `Exit`, read here as the `ssize_t` it is declared
to return. The encryption flags select nothing in this version of the code and are left out.
-/

namespace HiveSDK

open Interaction C

/-- `struct HiveConnect`: the methods, over the connection data `C`. A method that fills a
buffer returns the buffer with its result. -/
structure HiveConnect (C : Type) where
  putFileFromBuffer : Option (Bytes → Bytes → M C ℤ) := none
  getFileLength : Option (Bytes → M C Exit) := none
  getFileToBuffer : Option (Bytes → Bytes → ℕ → M C (Exit × Bytes)) := none
  listFiles : Option (ℕ → M C ℤ) := none
  deleteFile : Option (Bytes → M C ℤ) := none
  ipfsPutFileFromBuffer : Option (Bytes → Bytes → M C (ℤ × Bytes)) := none
  ipfsGetFileLength : Option (Bytes → M C Exit) := none
  ipfsGetFileToBuffer : Option (Bytes → Bytes → ℕ → M C (Exit × Bytes)) := none
  putValue : Option (Bytes → Bytes → M C ℤ) := none
  setValue : Option (Bytes → Bytes → M C ℤ) := none
  getValues : Option (Bytes → M C ℤ) := none
  deleteKey : Option (Bytes → M C ℤ) := none
  expireToken : Option (M C ℤ) := none

/-- The table `onedrive_client_connect` fills. -/
def oneDriveMethods : HiveConnect OneDriveConnect where
  putFileFromBuffer := some OneDrive.putFileFromBuffer
  getFileLength := some OneDrive.getFileLength
  getFileToBuffer := some OneDrive.getFileToBuffer
  listFiles := some OneDrive.listFiles
  deleteFile := some OneDrive.deleteFile
  putValue := some OneDrive.putValue
  setValue := some OneDrive.setValue
  getValues := some OneDrive.getValues
  deleteKey := some OneDrive.deleteKey
  expireToken := some OneDrive.expireToken

/-- The table `ipfs_client_connect` fills. -/
def ipfsMethods : HiveConnect IPFSConnect where
  ipfsPutFileFromBuffer := some IPFS.putFileFromBuffer
  ipfsGetFileLength := some IPFS.getFileLength
  ipfsGetFileToBuffer := some IPFS.getFileToBuffer

/-- The two kinds of connection, with their data. -/
inductive Backend
  | oneDrive
  | ipfs
  deriving DecidableEq, Repr

namespace Backend

abbrev Connect : Backend → Type
  | oneDrive => OneDriveConnect
  | ipfs => IPFSConnect

def methods : (b : Backend) → HiveConnect b.Connect
  | oneDrive => oneDriveMethods
  | ipfs => ipfsMethods

/-- The keystore of a connection, if it has one. -/
def keystore : (b : Backend) → b.Connect → Option Bytes
  | oneDrive, connect => some connect.keystorePath
  | ipfs, _ => none

end Backend

section Public

variable {C : Type}

/-- Record an error and return `-1`. -/
def failWith (e : ℤ) : M C ℤ := do
  hiveSetError e
  return -1

abbrev invalidArgs : M C ℤ := failWith (toInt (hiveGeneralError HIVEERR_INVALID_ARGS))
abbrev notSupported : M C ℤ := failWith (toInt (hiveGeneralError HIVEERR_NOT_SUPPORTED))

/-- What the caller of a method returning `int` sees. -/
def reportInt (rc : ℤ) : M C ℤ :=
  if rc < 0 then failWith rc else return 0

/-- What the caller of a method returning `ssize_t` sees. -/
def reportSize (rc : ℤ) : M C ℤ :=
  if rc < 0 then failWith (toInt rc) else return rc

section

variable {σ : Type} {h : Handler σ Call Call.Reply} {F : Fault → σ → Prop} {s : Thread C} {w : σ}
  {Q : ℤ → Thread C → σ → Prop}

@[simp] theorem wp_failWith {e : ℤ} :
    Script.wp h F (failWith e) Q s w ↔ Q (-1) { s with hiveError := e } w := Iff.rfl

@[simp] theorem wp_reportInt {rc : ℤ} :
    Script.wp h F (reportInt rc) Q s w ↔
      (rc < 0 → Q (-1) { s with hiveError := rc } w) ∧ (¬rc < 0 → Q 0 s w) := by
  simp only [reportInt, Script.wp_ite, wp_failWith, Script.wp_pure]

@[simp] theorem wp_reportSize {rc : ℤ} :
    Script.wp h F (reportSize rc) Q s w ↔
      (rc < 0 → Q (-1) { s with hiveError := toInt rc } w) ∧ (¬rc < 0 → Q rc s w) := by
  simp only [reportSize, Script.wp_ite, wp_failWith, Script.wp_pure]

end

/-- A string argument that is present and not empty. -/
def nonempty? : Option Bytes → Option Bytes
  | some (b :: s) => some (b :: s)
  | _ => none

/-! ### Files -/

/-- `hive_put_file_from_buffer`. -/
def hivePutFileFromBuffer (connect : Option (HiveConnect C)) (src : Option Bytes) (length : ℕ)
    (filename : Option Bytes) : M C ℤ :=
  match connect, nonempty? filename with
  | some connect, some filename =>
    if src = none ∧ length ≠ 0 ∨ HIVE_MAX_FILE_SIZE < length then invalidArgs
    else
      match connect.putFileFromBuffer with
      | none => notSupported
      | some put => do reportInt (← put ((src.getD []).take length) filename)
  | _, _ => invalidArgs

/-- The part `hive_put_file` and `hive_ipfs_put_file` have in common: the content of a local
file, or `none` after an error has been recorded. -/
def readLocalFile (path : Bytes) : M C (Option Bytes) := do
  match ← openFile path .readOnly with
  | .error e =>
    hiveSetError (toInt (hiveSysError e))
    return none
  | .ok _ =>
    let fsize := toSize (← lseekEnd path)
    if HIVE_MAX_FILE_SIZE < fsize then
      hiveSetError (toInt (hiveGeneralError HIVEERR_LIMIT_EXCEEDED))
      return none
    if !(← malloc fsize.toNat) then
      hiveSetError (toInt (hiveGeneralError HIVEERR_OUT_OF_MEMORY))
      return none
    match ← read path fsize.toNat with
    | .error _ =>
      hiveSetError (toInt (hiveSysError (← errno)))
      return none
    | .ok content =>
      if content.length ≠ fsize.toNat then
        hiveSetError (toInt (hiveSysError (← errno)))
        return none
      return some content

/-- `hive_put_file`. -/
def hivePutFile (connect : Option (HiveConnect C)) (src filename : Option Bytes) : M C ℤ :=
  match connect, nonempty? src, nonempty? filename with
  | some connect, some src, some filename => do
    match ← readLocalFile src with
    | none => return -1
    | some content => hivePutFileFromBuffer connect (some content) content.length (some filename)
  | _, _, _ => invalidArgs

/-- `hive_get_file_length`. -/
def hiveGetFileLength (connect : Option (HiveConnect C)) (filename : Option Bytes) : M C ℤ :=
  match connect, nonempty? filename with
  | some connect, some filename =>
    match connect.getFileLength with
    | none => notSupported
    | some length => do reportSize (← length filename).ssize
  | _, _ => invalidArgs

/-- `hive_get_file_to_buffer`: the value returned, and the block at `to` afterwards. -/
def hiveGetFileToBuffer (connect : Option (HiveConnect C)) (filename dst : Option Bytes)
    (buflen : ℕ) : M C (ℤ × Bytes) :=
  match connect, nonempty? filename, dst with
  | some connect, some filename, some block =>
    if buflen = 0 then do return (← invalidArgs, block)
    else
      match connect.getFileToBuffer with
      | none => do return (← notSupported, block)
      | some toBuffer => do
        let (exit, block) ← toBuffer filename block buflen
        return (← reportSize exit.ssize, block)
  | _, _, _ => do return (← invalidArgs, dst.getD [])

/-- `write(fd, buf, count)`; reading past the end of the block is a fault. -/
def writeBlock (path block : Bytes) (count : ℕ) : M C (Except ℤ ℕ) :=
  if block.length < count then crash .bufferOverrun else write path (block.take count)

/-- `hive_get_file` and `hive_ipfs_get_file` once they have the length: a new file at `path`, with
what `toBuffer` stores in a block of that length. `undo` comes after a write that is not
complete. -/
def createFile (path : Bytes) (fsize : ℤ) (toBuffer : Bytes → ℕ → M C (ℤ × Bytes))
    (undo : M C ℤ) : M C ℤ := do
  if fsize < 0 then
    return -1
  match ← openFile path .writeExclusive with
  | .error e => failWith (toInt (hiveSysError e))
  | .ok _ =>
  if fsize = 0 then
    return 0
  if !(← malloc fsize.toNat) then
    return ← failWith (toInt (hiveGeneralError HIVEERR_OUT_OF_MEMORY))
  let (fsize, block) ← toBuffer (List.replicate fsize.toNat 0) fsize.toNat
  if fsize < 0 then
    return -1
  match ← writeBlock path block fsize.toNat with
  | .ok nwr => if (nwr : ℤ) ≠ fsize then undo else return fsize
  | .error _ => undo

/-- `hive_get_file`. After a write that is not complete it is `filename` that is unlinked. -/
def hiveGetFile (connect : Option (HiveConnect C)) (filename dst : Option Bytes) : M C ℤ :=
  match connect, nonempty? filename, nonempty? dst with
  | some connect, some filename, some path => do
    let fsize ← hiveGetFileLength connect (some filename)
    createFile path fsize
      (fun block buflen => hiveGetFileToBuffer connect (some filename) (some block) buflen) do
        let _ ← unlink filename
        failWith (toInt (hiveSysError (← errno)))
  | _, _, _ => invalidArgs

/-- `hive_delete_file`. -/
def hiveDeleteFile (connect : Option (HiveConnect C)) (filename : Option Bytes) : M C ℤ :=
  match connect, nonempty? filename with
  | some connect, some filename =>
    match connect.deleteFile with
    | none => notSupported
    | some delete => do reportInt (← delete filename)
  | _, _ => invalidArgs

/-- `hive_list_files`; `rounds` bounds the pages a run reads. -/
def hiveListFiles (connect : Option (HiveConnect C)) (callback : Bool) (rounds : ℕ) : M C ℤ :=
  match connect, callback with
  | some connect, true =>
    match connect.listFiles with
    | none => notSupported
    | some list => do reportInt (← list rounds)
  | _, _ => invalidArgs

/-! ### Files on IPFS -/

/-- `hive_ipfs_put_file_from_buffer`: the value returned, and what `cid` holds afterwards. -/
def hiveIpfsPutFileFromBuffer (connect : Option (HiveConnect C)) (src : Option Bytes)
    (length : ℕ) (cid : Option Bytes) : M C (ℤ × Bytes) :=
  match connect, cid with
  | some connect, some cid =>
    if src = none ∧ length ≠ 0 ∨ HIVE_MAX_FILE_SIZE < length then do return (← invalidArgs, cid)
    else
      match connect.ipfsPutFileFromBuffer with
      | none => do return (← notSupported, cid)
      | some put => do
        let (rc, cid) ← put ((src.getD []).take length) cid
        return (← reportInt rc, cid)
  | _, _ => do return (← invalidArgs, cid.getD [])

/-- `hive_ipfs_put_file`. -/
def hiveIpfsPutFile (connect : Option (HiveConnect C)) (src cid : Option Bytes) :
    M C (ℤ × Bytes) :=
  match connect, nonempty? src, cid with
  | some connect, some src, some cid => do
    match ← readLocalFile src with
    | none => return (-1, cid)
    | some content => hiveIpfsPutFileFromBuffer connect (some content) content.length (some cid)
  | _, _, _ => do return (← invalidArgs, cid.getD [])

/-- `hive_ipfs_get_file_length`. -/
def hiveIpfsGetFileLength (connect : Option (HiveConnect C)) (cid : Option Bytes) : M C ℤ :=
  match connect, nonempty? cid with
  | some connect, some cid =>
    match connect.ipfsGetFileLength with
    | none => notSupported
    | some length => do reportSize (← length cid).ssize
  | _, _ => invalidArgs

/-- `hive_ipfs_get_file_to_buffer`. -/
def hiveIpfsGetFileToBuffer (connect : Option (HiveConnect C)) (cid dst : Option Bytes)
    (buflen : ℕ) : M C (ℤ × Bytes) :=
  match connect, nonempty? cid, dst with
  | some connect, some cid, some block =>
    if buflen = 0 then do return (← invalidArgs, block)
    else
      match connect.ipfsGetFileToBuffer with
      | none => do return (← notSupported, block)
      | some toBuffer => do
        let (exit, block) ← toBuffer cid block buflen
        return (← reportSize exit.ssize, block)
  | _, _, _ => do return (← invalidArgs, dst.getD [])

/-- The download of `hive_ipfs_get_file`, which calls the method itself, without a test that the
connection has it. -/
def ipfsToBuffer (connect : HiveConnect C) (cid block : Bytes) (buflen : ℕ) : M C (ℤ × Bytes) :=
  match connect.ipfsGetFileToBuffer with
  | none => crash .nullDereference
  | some toBuffer => do
    let (exit, block) ← toBuffer cid block buflen
    return (← reportSize exit.ssize, block)

/-- `hive_ipfs_get_file`. -/
def hiveIpfsGetFile (connect : Option (HiveConnect C)) (cid dst : Option Bytes) : M C ℤ :=
  match connect, nonempty? cid, nonempty? dst with
  | some connect, some cid, some path => do
    let fsize ← hiveIpfsGetFileLength connect (some cid)
    createFile path fsize (ipfsToBuffer connect cid) do
      let e ← errno
      let _ ← unlink path
      failWith (toInt (hiveSysError e))
  | _, _, _ => invalidArgs

/-! ### Keys -/

/-- The arguments `hive_put_value` and `hive_set_value` accept. -/
def valueArgs (connect : Option (HiveConnect C)) (key value : Option Bytes) (length : ℕ) :
    Option (HiveConnect C × Bytes × Bytes) :=
  match connect, nonempty? key, value with
  | some connect, some key, some value =>
    if length = 0 ∨ HIVE_MAX_VALUE_LEN < length then none
    else some (connect, key, value.take length)
  | _, _, _ => none

/-- `hive_put_value`. -/
def hivePutValue (connect : Option (HiveConnect C)) (key value : Option Bytes) (length : ℕ) :
    M C ℤ :=
  match valueArgs connect key value length with
  | none => invalidArgs
  | some (connect, key, value) =>
    match connect.putValue with
    | none => notSupported
    | some put => do reportInt (← put key value)

/-- `hive_set_value`. -/
def hiveSetValue (connect : Option (HiveConnect C)) (key value : Option Bytes) (length : ℕ) :
    M C ℤ :=
  match valueArgs connect key value length with
  | none => invalidArgs
  | some (connect, key, value) =>
    match connect.setValue with
    | none => notSupported
    | some put => do reportInt (← put key value)

/-- `hive_get_values`. -/
def hiveGetValues (connect : Option (HiveConnect C)) (key : Option Bytes) (callback : Bool) :
    M C ℤ :=
  match connect, nonempty? key, callback with
  | some connect, some key, true =>
    match connect.getValues with
    | none => notSupported
    | some values => do reportInt (← values key)
  | _, _, _ => invalidArgs

/-- `hive_delete_key`. -/
def hiveDeleteKey (connect : Option (HiveConnect C)) (key : Option Bytes) : M C ℤ :=
  match connect, nonempty? key with
  | some connect, some key =>
    match connect.deleteKey with
    | none => notSupported
    | some delete => do reportInt (← delete key)
  | _, _ => invalidArgs

/-- `hive_set_access_token_expired`. -/
def hiveSetAccessTokenExpired (connect : Option (HiveConnect C)) : M C ℤ :=
  match connect with
  | none => invalidArgs
  | some connect =>
    match connect.expireToken with
    | none => return 0
    | some expire => do reportInt (← expire)

end Public

end HiveSDK
