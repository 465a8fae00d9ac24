import HiveSDK.Errors.Oblivious

/-!
# The errors of the operations

A function is `Accountable` when its failures are told in `hive_error`: whatever the error was
before the call, a call that fails leaves a negative error that was recorded in the meantime. "In
the meantime" is a statement about pairs of runs: two that differ only in the error they begin
with end with the same one.

The operations of `hive_file.c` and `hive_key.c` are accountable, because the methods of the
backends are oblivious and every failure of theirs goes through `reportInt` or `reportSize`.
-/

namespace HiveSDK

open Interaction C

section Rules

variable {C α β : Type}

/-- Started with one connection and two errors, `m` does the same; and if the value it returns is
a failure, both have been replaced by the same negative error. -/
def Accountable (fails : α → Prop) (m : M C α) : Prop :=
  ∀ c e₁ e₂ past, Program.Lockstep
    (fun x y _ => x.1 = y.1 ∧ x.2.conn = y.2.conn ∧
      (fails x.1 → x.2.hiveError = y.2.hiveError ∧ x.2.hiveError < 0))
    (m ⟨c, e₁⟩) (m ⟨c, e₂⟩) past

namespace Accountable

variable {P : α → Prop} {Q : β → Prop} {V : α → Prop} {m n : M C α} {f : α → M C β}

/-- A result that does not count as a failure needs no error. -/
theorem pure {a : α} (ha : ¬P a) : Accountable P (pure a : M C α) :=
  fun _ _ _ _ => .ret ⟨rfl, rfl, fun h => absurd h ha⟩

/-- A crash returns nothing that could be a failure. -/
theorem fault (e : Fault) : Accountable P (crash e : M C α) := fun _ _ _ past => .fault e past

/-- What ignores the error may come first. -/
theorem oblivious_bind (hm : Oblivious V m) (hf : ∀ a, V a → Accountable Q (f a)) :
    Accountable Q (m >>= f) := by
  intro c e₁ e₂ past
  refine Script.lockstep_bind (hm c e₁ e₂ past) ?_
  rintro a _ ⟨c', e₁'⟩ ⟨_, e₂'⟩ past' ⟨rfl, rfl, hV⟩
  exact hf a hV c' e₁' e₂' past'

/-- A call of the environment may come first. -/
theorem ask_bind {call : Call} {f : call.Reply → M C β} (hf : ∀ r, Accountable Q (f r)) :
    Accountable Q (ask call >>= f) :=
  oblivious_bind (ask_oblivious call) fun r _ => hf r

/-- A failure of the first part is passed on at once. -/
theorem bind (hm : Accountable P m) (hstop : ∀ a, P a → ∃ b, f a = Pure.pure b)
    (hf : ∀ a, ¬P a → Accountable Q (f a)) : Accountable Q (m >>= f) := by
  intro c e₁ e₂ past
  refine Script.lockstep_bind (hm c e₁ e₂ past) ?_
  rintro a _ ⟨c', e₁'⟩ ⟨_, e₂'⟩ past' ⟨rfl, rfl, hfails⟩
  by_cases ha : P a
  · obtain ⟨b, hb⟩ := hstop a ha
    obtain ⟨heq, hneg⟩ := hfails ha
    rw [hb]
    exact .ret ⟨rfl, rfl, fun _ => ⟨heq, hneg⟩⟩
  · exact hf a ha c' e₁' e₂' past'

/-- Only the value returned is changed. -/
theorem map {g : α → β} (hm : Accountable P m) (hg : ∀ a, Q (g a) → P a) :
    Accountable Q (do return g (← m)) :=
  hm.bind (fun _ _ => ⟨_, rfl⟩) fun a ha => .pure fun h => ha (hg a h)

/-- Each branch accounts for its own failures. -/
theorem ite {b : Prop} [Decidable b] (hm : b → Accountable P m) (hn : ¬b → Accountable P n) :
    Accountable P (if b then m else n) := by
  split
  · rename_i h
    exact hm h
  · rename_i h
    exact hn h

end Accountable

/-- An error is recorded and a value returned. -/
theorem setError_accountable {P : α → Prop} {e : ℤ} (he : e < 0) (a : α) :
    Accountable P (do
      hiveSetError e
      return a : M C α) :=
  fun _ _ _ _ => .ret ⟨rfl, rfl, fun _ => ⟨rfl, he⟩⟩

/-- What an operation answers with is a failure. -/
abbrev Negative (rc : ℤ) : Prop := rc < 0

/-- Recording the error and returning -1 is the way to fail. -/
theorem failWith_accountable {e : ℤ} (he : e < 0) : Accountable Negative (failWith e : M C ℤ) :=
  setError_accountable he _

theorem invalidArgs_accountable : Accountable Negative (invalidArgs : M C ℤ) :=
  failWith_accountable (toInt_hiveGeneralError_neg _)

theorem notSupported_accountable : Accountable Negative (notSupported : M C ℤ) :=
  failWith_accountable (toInt_hiveGeneralError_neg _)

/-- A negative result of a method is recorded, and -1 returned. -/
theorem reportInt_accountable (rc : ℤ) : Accountable Negative (reportInt rc : M C ℤ) :=
  .ite failWith_accountable fun _ => .pure (lt_irrefl 0)

/-- So is one of type `ssize_t`; a narrow one is not lost when it is recorded as an `int`. -/
theorem reportSize_accountable {rc : ℤ} (hrc : Narrow rc) :
    Accountable Negative (reportSize rc : M C ℤ) :=
  .ite (fun h => failWith_accountable (hrc h)) fun h => .pure h

end Rules

/-! ### The methods -/

/-- Every method that is there is oblivious, and its errors are narrow. -/
structure MethodsOblivious {C : Type} (connect : HiveConnect C) : Prop where
  putFileFromBuffer : ∀ m ∈ connect.putFileFromBuffer, ∀ body filename,
    Oblivious anyValue (m body filename)
  getFileLength : ∀ m ∈ connect.getFileLength, ∀ filename, Oblivious NarrowExit (m filename)
  getFileToBuffer : ∀ m ∈ connect.getFileToBuffer, ∀ filename block buflen,
    Oblivious (fun r => NarrowExit r.1) (m filename block buflen)
  listFiles : ∀ m ∈ connect.listFiles, ∀ rounds, Oblivious anyValue (m rounds)
  deleteFile : ∀ m ∈ connect.deleteFile, ∀ filename, Oblivious anyValue (m filename)
  ipfsPutFileFromBuffer : ∀ m ∈ connect.ipfsPutFileFromBuffer, ∀ body cid,
    Oblivious anyValue (m body cid)
  ipfsGetFileLength : ∀ m ∈ connect.ipfsGetFileLength, ∀ cid, Oblivious NarrowExit (m cid)
  ipfsGetFileToBuffer : ∀ m ∈ connect.ipfsGetFileToBuffer, ∀ cid block buflen,
    Oblivious (fun r => NarrowExit r.1) (m cid block buflen)
  putValue : ∀ m ∈ connect.putValue, ∀ key value, Oblivious anyValue (m key value)
  setValue : ∀ m ∈ connect.setValue, ∀ key value, Oblivious anyValue (m key value)
  getValues : ∀ m ∈ connect.getValues, ∀ key, Oblivious anyValue (m key)
  deleteKey : ∀ m ∈ connect.deleteKey, ∀ key, Oblivious anyValue (m key)
  expireToken : ∀ m ∈ connect.expireToken, Oblivious anyValue m

/-- Every method of a OneDrive connection ignores the error. -/
theorem oneDriveMethods_oblivious : MethodsOblivious oneDriveMethods where
  putFileFromBuffer := by
    rintro _ ⟨⟩ body filename
    exact OneDrive.putFileFromBufferAt_oblivious _ _
  getFileLength := by
    rintro _ ⟨⟩ filename
    exact OneDrive.getFileLength_oblivious filename
  getFileToBuffer := by
    rintro _ ⟨⟩ filename block buflen
    exact OneDrive.getFileToBuffer_oblivious filename block buflen
  listFiles := by
    rintro _ ⟨⟩ rounds
    exact OneDrive.listFiles_oblivious rounds
  deleteFile := by
    rintro _ ⟨⟩ filename
    exact .ite (fun _ => .pure trivial) fun _ => OneDrive.deleteFileAt_oblivious _
  ipfsPutFileFromBuffer := nofun
  ipfsGetFileLength := nofun
  ipfsGetFileToBuffer := nofun
  putValue := by
    rintro _ ⟨⟩ key value
    exact OneDrive.putValue_oblivious key value
  setValue := by
    rintro _ ⟨⟩ key value
    exact OneDrive.setValue_oblivious key value
  getValues := by
    rintro _ ⟨⟩ key
    exact OneDrive.getValues_oblivious key
  deleteKey := by
    rintro _ ⟨⟩ key
    exact OneDrive.deleteKey_oblivious key
  expireToken := by
    rintro _ ⟨⟩
    exact .bind oauthTokenSetExpired_oblivious fun _ _ => .pure trivial

/-- Every method of an IPFS connection ignores the error. -/
theorem ipfsMethods_oblivious : MethodsOblivious ipfsMethods where
  putFileFromBuffer := nofun
  getFileLength := nofun
  getFileToBuffer := nofun
  listFiles := nofun
  deleteFile := nofun
  ipfsPutFileFromBuffer := by
    rintro _ ⟨⟩ body cid
    exact IPFS.putFileFromBuffer_oblivious body cid
  ipfsGetFileLength := by
    rintro _ ⟨⟩ cid
    exact IPFS.getFileLength_oblivious cid
  ipfsGetFileToBuffer := by
    rintro _ ⟨⟩ cid block buflen
    exact IPFS.getFileToBuffer_oblivious cid block buflen
  putValue := nofun
  setValue := nofun
  getValues := nofun
  deleteKey := nofun
  expireToken := nofun

/-- The methods of either backend. -/
theorem methods_oblivious (b : Backend) : MethodsOblivious b.methods := by
  cases b with
  | oneDrive => exact oneDriveMethods_oblivious
  | ipfs => exact ipfsMethods_oblivious

/-! ### The operations -/

section Operations

variable {C : Type} {connect : Option (HiveConnect C)}

/-- What a rejected call leaves in a buffer does not matter. -/
private theorem invalidArgs_pair_accountable {β : Type} (b : β) :
    Accountable (fun r => Negative r.1) (do return (← invalidArgs, b) : M C (ℤ × β)) :=
  invalidArgs_accountable.map fun _ h => h

/-- A missing method, where a value is returned beside the result. -/
private theorem notSupported_pair_accountable {β : Type} (b : β) :
    Accountable (fun r => Negative r.1) (do return (← notSupported, b) : M C (ℤ × β)) :=
  notSupported_accountable.map fun _ h => h

/-- A method that returns `int`, or nothing if the backend does not have it. -/
private theorem reportInt_bind_accountable {m : M C ℤ} (hm : Oblivious anyValue m) :
    Accountable Negative (do reportInt (← m)) :=
  .oblivious_bind hm fun rc _ => reportInt_accountable rc

theorem hivePutFileFromBuffer_accountable (hm : ∀ m ∈ connect, MethodsOblivious m)
    (src : Option Bytes) (length : ℕ) (filename : Option Bytes) :
    Accountable Negative (hivePutFileFromBuffer connect src length filename) := by
  unfold hivePutFileFromBuffer
  split
  · refine .ite (fun _ => invalidArgs_accountable) fun _ => ?_
    split
    · exact notSupported_accountable
    · rename_i put hput
      exact reportInt_bind_accountable ((hm _ rfl).putFileFromBuffer put hput _ _)
  · exact invalidArgs_accountable

/-- A local file that cannot be read is accounted for by the error of the system. -/
theorem readLocalFile_accountable (path : Bytes) :
    Accountable (· = none) (readLocalFile path : M C (Option Bytes)) := by
  have failed {e : ℤ} (he : e < 0) : Accountable (· = none) (do
      hiveSetError e
      return none : M C (Option Bytes)) := setError_accountable he _
  have failedSys : Accountable (· = none) (do
      hiveSetError (toInt (hiveSysError (← errno)))
      return none : M C (Option Bytes)) :=
    .ask_bind fun e => failed (toInt_hiveSysError_neg e)
  unfold readLocalFile
  refine .ask_bind fun opened => ?_
  match opened with
  | .error _ => exact failed (toInt_hiveSysError_neg _)
  | .ok _ =>
    refine .ask_bind fun size => .ite (fun _ => failed (toInt_hiveGeneralError_neg _)) fun _ => ?_
    refine .ask_bind fun made => .ite (fun _ => failed (toInt_hiveGeneralError_neg _)) fun _ => ?_
    refine .ask_bind fun content => ?_
    match content with
    | .error _ => exact failedSys
    | .ok _ => exact .ite (fun _ => failedSys) fun _ => .pure (Option.some_ne_none _)

/-- A file is read and then put from the buffer; both record what goes wrong. -/
theorem hivePutFile_accountable (hm : ∀ m ∈ connect, MethodsOblivious m)
    (src filename : Option Bytes) : Accountable Negative (hivePutFile connect src filename) := by
  unfold hivePutFile
  split
  · refine (readLocalFile_accountable _).bind ?_ fun content hsome => ?_
    · rintro _ rfl
      exact ⟨-1, rfl⟩
    · obtain ⟨content, rfl⟩ := Option.ne_none_iff_exists'.mp hsome
      refine hivePutFileFromBuffer_accountable (fun m hmem => hm m ?_) _ _ _
      exact hmem
  · exact invalidArgs_accountable

/-- The length of a file. -/
theorem hiveGetFileLength_accountable (hm : ∀ m ∈ connect, MethodsOblivious m)
    (filename : Option Bytes) : Accountable Negative (hiveGetFileLength connect filename) := by
  unfold hiveGetFileLength
  split
  · split
    · exact notSupported_accountable
    · rename_i length hlength
      exact .oblivious_bind ((hm _ rfl).getFileLength length hlength _) fun exit hexit =>
        reportSize_accountable hexit
  · exact invalidArgs_accountable

/-- A file into a buffer. -/
theorem hiveGetFileToBuffer_accountable (hm : ∀ m ∈ connect, MethodsOblivious m)
    (filename dst : Option Bytes) (buflen : ℕ) : Accountable (fun r => Negative r.1)
      (hiveGetFileToBuffer connect filename dst buflen) := by
  unfold hiveGetFileToBuffer
  split
  · refine .ite (fun _ => invalidArgs_pair_accountable _) fun _ => ?_
    split
    · exact notSupported_pair_accountable _
    · rename_i toBuffer htoBuffer
      refine .oblivious_bind ((hm _ rfl).getFileToBuffer toBuffer htoBuffer _ _ _) fun r hr => ?_
      exact (reportSize_accountable hr).map fun _ h => h
  · exact invalidArgs_pair_accountable _

/-- The content of a file is written, and what was written is checked. -/
theorem writeBlock_accountable (path block : Bytes) (count : ℕ) {f : Except ℤ ℕ → M C ℤ}
    (hf : ∀ r, Accountable Negative (f r)) :
    Accountable Negative (do f (← writeBlock path block count)) :=
  .oblivious_bind (V := anyValue)
    (.ite (fun _ => .fault _) fun _ => ask_oblivious (.write path (block.take count)))
    fun r _ => hf r

/-- A new file is accountable if its download is, and what is done after an incomplete write. -/
theorem createFile_accountable {toBuffer : Bytes → ℕ → M C (ℤ × Bytes)} {undo : M C ℤ}
    (hbuffer : ∀ block buflen, Accountable (fun r => Negative r.1) (toBuffer block buflen))
    (hundo : Accountable Negative undo) (path : Bytes) {fsize : ℤ} (hpos : ¬fsize < 0) :
    Accountable Negative (createFile path fsize toBuffer undo) := by
  unfold createFile
  rw [if_neg hpos]
  refine .ask_bind fun opened => ?_
  match opened with
  | .error _ => exact failWith_accountable (toInt_hiveSysError_neg _)
  | .ok _ =>
    refine .ite (fun _ => .pure (lt_irrefl 0)) fun _ => .ask_bind fun made => ?_
    refine .ite (fun _ => failWith_accountable (toInt_hiveGeneralError_neg _)) fun _ => ?_
    refine (hbuffer _ _).bind (fun r hneg => ⟨-1, if_pos hneg⟩) fun r hread => ?_
    obtain ⟨fetched, block⟩ := r
    dsimp only
    rw [if_neg hread]
    refine writeBlock_accountable _ _ _ fun written => ?_
    match written with
    | .ok nwr => exact .ite (fun _ => hundo) fun _ => .pure hread
    | .error _ => exact hundo

/-- A file into a local file, through `createFile`. -/
theorem hiveGetFile_accountable (hm : ∀ m ∈ connect, MethodsOblivious m)
    (filename dst : Option Bytes) : Accountable Negative (hiveGetFile connect filename dst) := by
  unfold hiveGetFile
  split
  · refine (hiveGetFileLength_accountable ?_ _).bind (fun fsize hneg => ⟨-1, if_pos hneg⟩)
      fun fsize hpos => createFile_accountable (fun block buflen => ?_) ?_ _ hpos
    · exact hm
    · exact hiveGetFileToBuffer_accountable hm _ _ _
    · refine .ask_bind fun _ => .ask_bind fun e => ?_
      exact failWith_accountable (toInt_hiveSysError_neg e)
  · exact invalidArgs_accountable

theorem hiveDeleteFile_accountable (hm : ∀ m ∈ connect, MethodsOblivious m)
    (filename : Option Bytes) : Accountable Negative (hiveDeleteFile connect filename) := by
  unfold hiveDeleteFile
  split
  · split
    · exact notSupported_accountable
    · rename_i delete hdelete
      exact reportInt_bind_accountable ((hm _ rfl).deleteFile delete hdelete _)
  · exact invalidArgs_accountable

/-- The list of the files, for either callback. -/
theorem hiveListFiles_accountable (hm : ∀ m ∈ connect, MethodsOblivious m) (callback : Bool)
    (rounds : ℕ) : Accountable Negative (hiveListFiles connect callback rounds) := by
  unfold hiveListFiles
  split
  · split
    · exact notSupported_accountable
    · rename_i list hlist
      exact reportInt_bind_accountable ((hm _ rfl).listFiles list hlist _)
  · exact invalidArgs_accountable

theorem hiveIpfsPutFileFromBuffer_accountable (hm : ∀ m ∈ connect, MethodsOblivious m)
    (src : Option Bytes) (length : ℕ) (cid : Option Bytes) :
    Accountable (fun r => Negative r.1) (hiveIpfsPutFileFromBuffer connect src length cid) := by
  unfold hiveIpfsPutFileFromBuffer
  split
  · refine .ite (fun _ => invalidArgs_pair_accountable _) fun _ => ?_
    split
    · exact notSupported_pair_accountable _
    · rename_i put hput
      refine .oblivious_bind ((hm _ rfl).ipfsPutFileFromBuffer put hput _ _) fun r _ => ?_
      exact (reportInt_accountable r.1).map fun _ h => h
  · exact invalidArgs_pair_accountable _

theorem hiveIpfsPutFile_accountable (hm : ∀ m ∈ connect, MethodsOblivious m)
    (src cid : Option Bytes) :
    Accountable (fun r => Negative r.1) (hiveIpfsPutFile connect src cid) := by
  unfold hiveIpfsPutFile
  split
  · refine (readLocalFile_accountable _).bind ?_ fun content hsome => ?_
    · rintro _ rfl
      exact ⟨(-1, _), rfl⟩
    · obtain ⟨content, rfl⟩ := Option.ne_none_iff_exists'.mp hsome
      refine hiveIpfsPutFileFromBuffer_accountable (fun m hmem => hm m ?_) _ _ _
      exact hmem
  · exact invalidArgs_pair_accountable _

theorem hiveIpfsGetFileLength_accountable (hm : ∀ m ∈ connect, MethodsOblivious m)
    (cid : Option Bytes) : Accountable Negative (hiveIpfsGetFileLength connect cid) := by
  unfold hiveIpfsGetFileLength
  split
  · split
    · exact notSupported_accountable
    · rename_i length hlength
      exact .oblivious_bind ((hm _ rfl).ipfsGetFileLength length hlength _) fun exit hexit =>
        reportSize_accountable hexit
  · exact invalidArgs_accountable

theorem hiveIpfsGetFileToBuffer_accountable (hm : ∀ m ∈ connect, MethodsOblivious m)
    (cid dst : Option Bytes) (buflen : ℕ) : Accountable (fun r => Negative r.1)
      (hiveIpfsGetFileToBuffer connect cid dst buflen) := by
  unfold hiveIpfsGetFileToBuffer
  split
  · refine .ite (fun _ => invalidArgs_pair_accountable _) fun _ => ?_
    split
    · exact notSupported_pair_accountable _
    · rename_i toBuffer htoBuffer
      refine .oblivious_bind
        ((hm _ rfl).ipfsGetFileToBuffer toBuffer htoBuffer _ _ _) fun r hr => ?_
      exact (reportSize_accountable hr).map fun _ h => h
  · exact invalidArgs_pair_accountable _

/-- A content into a local file, through `createFile`. -/
theorem hiveIpfsGetFile_accountable (hm : ∀ m ∈ connect, MethodsOblivious m)
    (cid dst : Option Bytes) : Accountable Negative (hiveIpfsGetFile connect cid dst) := by
  unfold hiveIpfsGetFile
  split
  · refine (hiveIpfsGetFileLength_accountable ?_ _).bind (fun fsize hneg => ⟨-1, if_pos hneg⟩)
      fun fsize hpos => createFile_accountable (fun block buflen => ?_) ?_ _ hpos
    · exact hm
    · unfold ipfsToBuffer
      split
      · exact .fault _
      · rename_i toBuffer htoBuffer
        refine .oblivious_bind
          ((hm _ rfl).ipfsGetFileToBuffer toBuffer htoBuffer _ _ _) fun r hr => ?_
        exact (reportSize_accountable hr).map fun _ h => h
    · refine .ask_bind fun e => .ask_bind fun _ => ?_
      exact failWith_accountable (toInt_hiveSysError_neg e)
  · exact invalidArgs_accountable

/-- The arguments that are accepted name the connection. -/
theorem valueArgs_eq_some {key value : Option Bytes} {length : ℕ} {c : HiveConnect C}
    {k v : Bytes} (h : valueArgs connect key value length = some (c, k, v)) : connect = some c := by
  unfold valueArgs at h
  split at h
  · split at h
    · cases h
    · cases h
      rfl
  · cases h

theorem hivePutValue_accountable (hm : ∀ m ∈ connect, MethodsOblivious m)
    (key value : Option Bytes) (length : ℕ) :
    Accountable Negative (hivePutValue connect key value length) := by
  unfold hivePutValue
  split
  · exact invalidArgs_accountable
  · rename_i hargs
    split
    · exact notSupported_accountable
    · rename_i put hput
      exact reportInt_bind_accountable ((hm _ (valueArgs_eq_some hargs)).putValue put hput _ _)

theorem hiveSetValue_accountable (hm : ∀ m ∈ connect, MethodsOblivious m)
    (key value : Option Bytes) (length : ℕ) :
    Accountable Negative (hiveSetValue connect key value length) := by
  unfold hiveSetValue
  split
  · exact invalidArgs_accountable
  · rename_i hargs
    split
    · exact notSupported_accountable
    · rename_i put hput
      exact reportInt_bind_accountable ((hm _ (valueArgs_eq_some hargs)).setValue put hput _ _)

theorem hiveGetValues_accountable (hm : ∀ m ∈ connect, MethodsOblivious m) (key : Option Bytes)
    (callback : Bool) : Accountable Negative (hiveGetValues connect key callback) := by
  unfold hiveGetValues
  split
  · split
    · exact notSupported_accountable
    · rename_i values hvalues
      exact reportInt_bind_accountable ((hm _ rfl).getValues values hvalues _)
  · exact invalidArgs_accountable

theorem hiveDeleteKey_accountable (hm : ∀ m ∈ connect, MethodsOblivious m) (key : Option Bytes) :
    Accountable Negative (hiveDeleteKey connect key) := by
  unfold hiveDeleteKey
  split
  · split
    · exact notSupported_accountable
    · rename_i delete hdelete
      exact reportInt_bind_accountable ((hm _ rfl).deleteKey delete hdelete _)
  · exact invalidArgs_accountable

/-- Marking the token as expired. -/
theorem hiveSetAccessTokenExpired_accountable (hm : ∀ m ∈ connect, MethodsOblivious m) :
    Accountable Negative (hiveSetAccessTokenExpired connect) := by
  unfold hiveSetAccessTokenExpired
  split
  · exact invalidArgs_accountable
  · split
    · exact .pure (lt_irrefl 0)
    · rename_i expire hexpire
      exact reportInt_bind_accountable ((hm _ rfl).expireToken expire hexpire)

/-- Every operation is accountable. -/
theorem call_accountable (hm : ∀ m ∈ connect, MethodsOblivious m) (op : HiveOperation) :
    Accountable Negative (op.call connect) := by
  cases op with
  | putFileFromBuffer src length filename =>
    exact hivePutFileFromBuffer_accountable hm src length filename
  | putFile src filename => exact hivePutFile_accountable hm src filename
  | getFileLength filename => exact hiveGetFileLength_accountable hm filename
  | getFileToBuffer filename dst buflen =>
    exact (hiveGetFileToBuffer_accountable hm filename dst buflen).map fun _ h => h
  | getFile filename dst => exact hiveGetFile_accountable hm filename dst
  | deleteFile filename => exact hiveDeleteFile_accountable hm filename
  | listFiles callback rounds => exact hiveListFiles_accountable hm callback rounds
  | ipfsPutFileFromBuffer src length cid =>
    exact (hiveIpfsPutFileFromBuffer_accountable hm src length cid).map fun _ h => h
  | ipfsPutFile src cid => exact (hiveIpfsPutFile_accountable hm src cid).map fun _ h => h
  | ipfsGetFileLength cid => exact hiveIpfsGetFileLength_accountable hm cid
  | ipfsGetFileToBuffer cid dst buflen =>
    exact (hiveIpfsGetFileToBuffer_accountable hm cid dst buflen).map fun _ h => h
  | ipfsGetFile cid dst => exact hiveIpfsGetFile_accountable hm cid dst
  | putValue key value length => exact hivePutValue_accountable hm key value length
  | setValue key value length => exact hiveSetValue_accountable hm key value length
  | getValues key callback => exact hiveGetValues_accountable hm key callback
  | deleteKey key => exact hiveDeleteKey_accountable hm key
  | setAccessTokenExpired => exact hiveSetAccessTokenExpired_accountable hm

end Operations

end HiveSDK
