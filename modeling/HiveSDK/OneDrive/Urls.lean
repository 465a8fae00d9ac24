import HiveSDK.Interaction.Reach
import HiveSDK.OneDrive.Download
import HiveSDK.OneDrive.Names

/-!
# The URLs that are built from a name

A name goes through a buffer of `PATH_MAX` bytes and from there, by `sprintf`, into a URL buffer of
`MAX_URL_LEN` bytes. Three of the operations refuse a path that was cut off by the first buffer;
none looks at the second. What an operation writes is therefore in bounds exactly when the URL
with the longest suffix it may need fits, or the path is refused (`NamedOperation.Fits`).

One direction is a bound on the text of the operations. For the other a run is made: the token is
fresh, every request is granted, and the URL is written past its buffer.
-/

namespace HiveSDK.OneDrive

open Interaction C

/-! ### Requests that are about a name -/

/-- The URL of the request that creates the folder at `path`. -/
def folderUrl (path : Bytes) : Bytes :=
  if dirname path = ascii "/" then APP_ROOT ++ ascii "/children"
  else itemUrl (dirname path) childrenSuffix

/-- The request is about the item at `path`, or about the folder it is in, and its URL fits the
URL buffer with its terminator. -/
structure Names (path : Bytes) (request : HttpRequest) : Prop where
  fits : request.url.length < MAX_URL_LEN
  built : (∃ token r, request = ItemRequest.request token path r) ∨
    ∃ token body, request = createFolderRequest token (folderUrl (dirname path)) body

/-- The call is no request that carries the bearer token, or it names `path`. -/
def ForName (path : Bytes) (call : Call) : Prop :=
  ∀ request, call = .httpClientPerform request → request.Authorized → Names path request

/-- A call that sends nothing sends nothing else. -/
private theorem forName_of_offline {path : Bytes} {call : Call} (h : call.Offline) :
    ForName path call :=
  fun request heq => (h request heq).elim

/-- A request without headers is not one of these. -/
private theorem forName_of_headers {path : Bytes} {request : HttpRequest}
    (h : ∀ token, HttpHeader.authorization token ∉ request.headers) :
    ForName path (.httpClientPerform request) := by
  rintro _ ⟨⟩ ⟨token, htoken⟩
  exact absurd htoken (h token)

/-- Nothing is written past the URL buffer, and what carries the bearer token names `path`. -/
abbrev NamesOnly {C α : Type} (path : Bytes) (m : M C α) : Prop :=
  m.Within (ForName path) (· ≠ .urlOverrun)

/-! ### Lengths -/

/-- The length of a URL is that of its parts. -/
theorem length_itemUrl (path suffix : Bytes) :
    (itemUrl path suffix).length = (itemUrl [] []).length + path.length + suffix.length := by
  simp only [itemUrl, List.length_append, List.length_nil]
  omega

private theorem length_dropTrailingSlashes_le (path : Bytes) :
    (dropTrailingSlashes path).length ≤ path.length := by
  unfold dropTrailingSlashes
  rw [List.length_reverse]
  exact (List.dropWhile_sublist _).length_le.trans_eq List.length_reverse

/-- The directory is no longer than the path, unless it is the one byte `.` or `/`. -/
private theorem length_dirname_le (path : Bytes) : (dirname path).length ≤ path.length + 1 := by
  have htrimmed := length_dropTrailingSlashes_le path
  unfold dirname
  dsimp only
  split
  · split
    · exact le_add_self
    · exact le_add_self
  split
  · exact le_add_self
  split
  · exact le_add_self
  · refine (length_dropTrailingSlashes_le _).trans ?_
    rw [List.length_reverse]
    have hle := (List.dropWhile_sublist (fun c : UInt8 => c ≠ 47)
      (l := (dropTrailingSlashes path).reverse)).length_le
    rw [List.length_reverse] at hle
    omega

/-- If the URL of the upload session fits, so does that of the folder. -/
theorem length_folderUrl_lt {path : Bytes}
    (h : (itemUrl path sessionSuffix).length < MAX_URL_LEN) :
    (folderUrl (dirname path)).length < MAX_URL_LEN := by
  have h₁ := length_dirname_le path
  have h₂ := length_dirname_le (dirname path)
  have hsession : sessionSuffix.length = 21 := rfl
  have hchildren : childrenSuffix.length = 10 := rfl
  rw [length_itemUrl] at h
  unfold folderUrl
  split
  · decide
  · rw [length_itemUrl]
    omega

/-- A path that is not refused either is whole or does not fit. -/
private theorem snprintfPath_complete {dir name : Bytes} :
    (snprintfPath dir name).2 = true ↔ (fullPath dir name).length < PATH_MAX := by
  simp only [snprintfPath, fullPath, decide_eq_true_eq]

/-- A URL that fits has a path that fits. -/
private theorem fits_of_fullPath {dir name suffix : Bytes}
    (h : (itemUrl (fullPath dir name) suffix).length < MAX_URL_LEN) :
    (snprintfPath dir name).1 = fullPath dir name := by
  refine List.take_of_length_le ?_
  rw [length_itemUrl] at h
  simp only [fullPath, MAX_URL_LEN] at h
  simp only [PATH_MAX]
  omega

/-- Cut off or not, the path of a name that does not fit makes a URL that does not fit. -/
private theorem le_length_snprintfPath {dir name suffix : Bytes}
    (h : MAX_URL_LEN ≤ (itemUrl (fullPath dir name) suffix).length) :
    MAX_URL_LEN ≤ (itemUrl (snprintfPath dir name).1 suffix).length := by
  rw [length_itemUrl] at h ⊢
  simp only [snprintfPath, List.length_take]
  simp only [fullPath, MAX_URL_LEN, PATH_MAX] at h ⊢
  omega

/-! ### What the operations send -/

section Named

variable {path : Bytes}

/-- The calls for the token do not name an item. -/
private theorem oauthTokenCheckExpire_named : NamesOnly path oauthTokenCheckExpire := by
  refine oauthTokenCheckExpire_within.mono (fun call hcall => ?_) ?_
  · rintro request rfl ⟨token, htoken⟩
    rw [hcall.2] at htoken
    cases htoken
  · rintro e he rfl
    exact he

/-- A URL that has room is printed. -/
private theorem sprintfUrl_eq {C : Type} {url : Bytes} (h : url.length < MAX_URL_LEN) :
    (sprintfUrl url : M C Bytes) = pure url := if_pos h

/-- Printing a URL that fits. -/
private theorem sprintfUrl_named {C : Type} {url : Bytes} (h : url.length < MAX_URL_LEN) :
    NamesOnly path (sprintfUrl url : M C Bytes) := by
  rw [sprintfUrl_eq h]
  exact .pure _

private theorem getBearerToken_named : NamesOnly path getBearerToken := getBearerToken_within nofun

/-- A request on the item whose URL has been written. -/
private theorem requestItem_named {token : Bytes} {r : ItemRequest} {accepted : List ℕ}
    (h : (itemUrl path r.suffix).length < MAX_URL_LEN) :
    NamesOnly path (requestAuthorized (r.request token path) accepted) := by
  refine requestAuthorized_within ?_ accepted
  rintro _ ⟨⟩ _
  exact ⟨by rwa [ItemRequest.request_url], .inl ⟨token, r, rfl⟩⟩

private theorem moveAndParse_named {C : Type} (reply : HttpReply) :
    NamesOnly path (moveAndParse reply : M C _) :=
  moveAndParse_within nofun reply

/-- A lookup names its path only. -/
private theorem getFileInfo_named {query : Bytes} (h : (itemUrl path []).length < MAX_URL_LEN) :
    NamesOnly path (getFileInfo path query) := by
  unfold getFileInfo
  refine .bind (sprintfUrl_named h) fun _ => .bind getBearerToken_named fun token => ?_
  refine .bind (requestItem_named (r := .info query) h) fun result => ?_
  match result with
  | .error _ => exact .pure _
  | .ok reply =>
    refine .bind (moveAndParse_named reply) fun json => ?_
    match json with
    | none => exact .pure _
    | some _ => exact .ite (.pure _) (.pure _)

/-- So does the query of a length. -/
private theorem getFileLengthAt_named (h : (itemUrl path []).length < MAX_URL_LEN) :
    NamesOnly path (getFileLengthAt path) := by
  unfold getFileLengthAt
  refine .bind oauthTokenCheckExpire_named fun rc => .ite (.pure _) ?_
  refine .bind (.ask (forName_of_offline nofun)) fun created => .ite (.pure _) ?_
  refine .bind (getFileInfo_named h) fun info => ?_
  match info with
  | .error _ => exact .pure _
  | .ok json =>
    dsimp only
    split
    · exact .fault nofun
    · exact .pure _

private theorem downloadFile_named (url block : Bytes) :
    NamesOnly path (downloadFile url block) := by
  unfold downloadFile
  refine .bind (.ask (forName_of_headers nofun)) fun reply => ?_
  split
  · exact .fault nofun
  split
  · exact .pure _
  · exact .ite (.pure _) (.pure _)

/-- A read names its path only. -/
private theorem getFileToBufferAt_named {block : Bytes} {buflen : ℕ}
    (h : (itemUrl path []).length < MAX_URL_LEN) :
    NamesOnly path (getFileToBufferAt path block buflen) := by
  unfold getFileToBufferAt
  refine .bind oauthTokenCheckExpire_named fun rc => .ite (.pure _) ?_
  refine .bind (.ask (forName_of_offline nofun)) fun created => .ite (.pure _) ?_
  refine .bind (getFileInfo_named h) fun info => ?_
  match info with
  | .error _ => exact .pure _
  | .ok json =>
    dsimp only
    split
    · split
      · exact .pure _
      split
      · exact .pure _
      · exact .bind (downloadFile_named _ _) fun _ => .ite (.pure _) (.pure _)
    · exact .fault nofun

private theorem uploadFile_named {body : Bytes}
    (h : (itemUrl path contentSuffix).length < MAX_URL_LEN) :
    NamesOnly path (uploadFile path body) := by
  unfold uploadFile
  refine .bind (sprintfUrl_named h) fun _ => .bind getBearerToken_named fun token => ?_
  refine .bind (requestItem_named (r := .upload body) h) fun result => ?_
  split
  · exact .pure _
  · exact .pure _

private theorem buildCreateFolderRequestBody_named (fname : Bytes) :
    NamesOnly path (buildCreateFolderRequestBody fname) := by
  unfold buildCreateFolderRequestBody
  refine .bind (.ask (forName_of_offline nofun)) fun created => .ite (.pure _) ?_
  exact .ask (forName_of_offline nofun)

/-- The creation of the folder names the folder above. -/
private theorem createFolder_named (h : (folderUrl (dirname path)).length < MAX_URL_LEN) :
    NamesOnly path (createFolder (dirname path)) := by
  have hwritten : (sprintfUrl (if dirname (dirname path) = ascii "/" then
      APP_ROOT ++ ascii "/children"
      else itemUrl (dirname (dirname path)) childrenSuffix) : M OneDriveConnect Bytes) =
        pure (folderUrl (dirname path)) := sprintfUrl_eq h
  unfold createFolder
  dsimp only
  rw [hwritten, pure_bind]
  refine .bind (buildCreateFolderRequestBody_named _) fun body => ?_
  match body with
  | none => exact .pure _
  | some body =>
    refine .bind getBearerToken_named fun token =>
      .bind (requestAuthorized_within ?_ _) fun result => ?_
    · rintro _ ⟨⟩ _
      exact ⟨h, .inr ⟨token, body, rfl⟩⟩
    · split
      · exact .pure _
      · exact .pure _

private theorem createUploadSession_named (h : (itemUrl path sessionSuffix).length < MAX_URL_LEN) :
    NamesOnly path (createUploadSession path) := by
  unfold createUploadSession
  refine .bind (sprintfUrl_named h) fun _ => .bind getBearerToken_named fun token => ?_
  refine .bind (requestItem_named (r := .createUploadSession) h) fun result => ?_
  match result with
  | .error _ => exact .pure _
  | .ok reply =>
    refine .bind (moveAndParse_named reply) fun json => ?_
    match json with
    | none => exact .pure _
    | some json =>
      dsimp only
      split
      · exact .pure _
      · exact .ite (.pure _) (.pure _)

private theorem uploadToSession_named (url body : Bytes) :
    NamesOnly path (uploadToSession url body) := by
  unfold uploadToSession
  refine .bind
    (.ask (forName_of_headers fun token => by simp [uploadToSessionRequest])) fun reply => ?_
  split
  · exact .pure _
  · exact .ite (.pure _) (.pure _)

/-- The suffix of the longest URL written for an upload of this length. -/
def uploadSuffix (length : ℕ) : Bytes :=
  if length ≤ sessionThreshold then contentSuffix else sessionSuffix

/-- An upload, by whichever way its length takes. -/
private theorem putFileFromBufferAt_named {body : Bytes}
    (h : (itemUrl path (uploadSuffix body.length)).length < MAX_URL_LEN) :
    NamesOnly path (putFileFromBufferAt path body) := by
  unfold putFileFromBufferAt
  refine .bind oauthTokenCheckExpire_named fun rc => .ite (.pure _) ?_
  refine .bind (.ask (forName_of_offline nofun)) fun created => .ite (.pure _) ?_
  unfold uploadSuffix at h
  split
  · rename_i hsmall
    rw [if_pos hsmall] at h
    exact uploadFile_named h
  · rename_i hlarge
    rw [if_neg hlarge] at h
    refine .bind (createFolder_named (length_folderUrl_lt h)) fun rc => .ite (.pure _) ?_
    refine .bind (createUploadSession_named h) fun session => ?_
    match session with
    | .error _ => exact .pure _
    | .ok url => exact .bind (uploadToSession_named url body) fun _ => .ite (.pure _) (.pure _)

/-- A deletion names its path only. -/
private theorem deleteFileAt_named (h : (itemUrl path deleteSuffix).length < MAX_URL_LEN) :
    NamesOnly path (deleteFileAt path) := by
  unfold deleteFileAt
  refine .bind oauthTokenCheckExpire_named fun rc => .ite (.pure _) ?_
  refine .bind (.ask (forName_of_offline nofun)) fun created => .ite (.pure _) ?_
  refine .bind (sprintfUrl_named h) fun _ => .bind getBearerToken_named fun token => ?_
  refine .bind (requestItem_named (r := .delete) h) fun result => ?_
  split
  · exact .pure _
  · exact .pure _

/-- The loop sends nothing at all. -/
private theorem getValuesLoop_named (key kv : Bytes) (dataLen : ℤ) :
    NamesOnly path (getValuesLoop key kv dataLen) := by
  induction hlength : kv.length using Nat.strong_induction_on generalizing kv dataLen with
  | _ n ih =>
    unfold getValuesLoop
    split
    · exact .fault nofun
    rename_i hheader
    dsimp only
    split
    · exact .pure _
    split
    · exact .pure _
    split
    · exact .fault nofun
    · refine .bind (.ask (forName_of_offline nofun)) fun proceed => .ite (.pure _) ?_
      refine ih _ ?_ _ _ rfl
      rw [List.length_drop]
      simp only [kvHeaderSize] at hheader ⊢
      omega

private theorem putValue_named {key : Bytes} (value : Bytes)
    (h : (itemUrl (fullPath KEYS_DIR key) sessionSuffix).length < MAX_URL_LEN) :
    NamesOnly (fullPath KEYS_DIR key) (putValue key value) := by
  have hinfo : (itemUrl (fullPath KEYS_DIR key) []).length < MAX_URL_LEN := by
    rw [length_itemUrl] at h ⊢
    exact (Nat.add_le_add_left (Nat.zero_le _) _).trans_lt h
  have hupload (body : Bytes) :
      (itemUrl (fullPath KEYS_DIR key) (uploadSuffix body.length)).length < MAX_URL_LEN := by
    refine lt_of_le_of_lt ?_ h
    rw [length_itemUrl, length_itemUrl _ sessionSuffix]
    unfold uploadSuffix
    split
    · exact Nat.add_le_add_left (by decide) _
    · exact le_rfl
  unfold putValue putSized
  dsimp only
  rw [fits_of_fullPath h]
  refine .bind (getFileLengthAt_named hinfo) fun exit => ?_
  split
  · exact .pure _
  rename_i size _
  have hstore (content : Except ℤ Bytes) : NamesOnly (fullPath KEYS_DIR key)
      (storeContent (fullPath KEYS_DIR key) value size content) := by
    cases content with
    | error _ => exact .pure _
    | ok buf =>
      simp only [storeContent, storeEntry]
      split
      · exact .fault (by rintro ⟨⟩)
      · exact putFileFromBufferAt_named (hupload _)
  refine .bind (.ask (forName_of_offline (by rintro _ ⟨⟩))) fun allocated => .ite (.pure _) ?_
  split
  · refine .bind (getFileToBufferAt_named hinfo) fun r => ?_
    exact .ite (.bind (.pure _) hstore) (.ite (.bind (.pure _) hstore) (.bind (.pure _) hstore))
  · exact .bind (.pure _) hstore

private theorem setValue_named {key value : Bytes} (hvalue : value.length ≤ HIVE_MAX_VALUE_LEN)
    (h : (itemUrl (fullPath KEYS_DIR key) contentSuffix).length < MAX_URL_LEN) :
    NamesOnly (fullPath KEYS_DIR key) (setValue key value) := by
  have hsmall : (kvEntry value).length ≤ sessionThreshold := by
    simp only [HIVE_MAX_VALUE_LEN] at hvalue
    simp only [kvEntry, htonl, List.length_append, List.length_cons, List.length_nil,
      sessionThreshold]
    omega
  unfold setValue
  dsimp only
  rw [fits_of_fullPath h]
  refine .bind (.ask (forName_of_offline nofun)) fun allocated => .ite (.pure _) ?_
  refine putFileFromBufferAt_named ?_
  rwa [uploadSuffix, if_pos hsmall]

private theorem getValues_named {key : Bytes}
    (h : (itemUrl (fullPath KEYS_DIR key) []).length < MAX_URL_LEN) :
    NamesOnly (fullPath KEYS_DIR key) (getValues key) := by
  unfold getValues getSized
  dsimp only
  rw [fits_of_fullPath h]
  refine .bind (getFileLengthAt_named h) fun exit => ?_
  split
  · exact .pure _
  split
  · exact .pure _
  split
  · exact .pure _
  refine .bind (.ask (forName_of_offline nofun)) fun allocated => .ite (.pure _) ?_
  refine .bind (getFileToBufferAt_named h) fun r => ?_
  obtain ⟨exit, buf⟩ := r
  exact .ite (.pure _) (.ite (.pure _) (getValuesLoop_named _ _ _))

private theorem deleteKey_named {key : Bytes}
    (h : (itemUrl (fullPath KEYS_DIR key) deleteSuffix).length < MAX_URL_LEN) :
    NamesOnly (fullPath KEYS_DIR key) (deleteKey key) := by
  unfold deleteKey
  dsimp only
  rw [fits_of_fullPath h]
  exact .bind (deleteFileAt_named h) fun rc => .ite (.pure _) (.pure _)

/-- A name that is refused or whose URL fits, in one of the functions that test for truncation. -/
private theorem checked_named {α : Type} {dir name suffix : Bytes} {refused : M OneDriveConnect α}
    {f : Bytes → M OneDriveConnect α} (hrefused : NamesOnly (fullPath dir name) refused)
    (h : PATH_MAX ≤ (fullPath dir name).length ∨
      (itemUrl (fullPath dir name) suffix).length < MAX_URL_LEN)
    (hf : (itemUrl (fullPath dir name) suffix).length < MAX_URL_LEN →
      NamesOnly (fullPath dir name) (f (fullPath dir name))) :
    NamesOnly (fullPath dir name)
      (if !(snprintfPath dir name).2 then refused else f (snprintfPath dir name).1) := by
  split
  · exact hrefused
  · rename_i hcomplete
    rw [Bool.not_eq_true', Bool.not_eq_false, snprintfPath_complete] at hcomplete
    have hfits := h.resolve_left (by omega)
    rw [fits_of_fullPath hfits]
    exact hf hfits

section Files

variable {name : Bytes}

private theorem putFileFromBuffer_named {body : Bytes}
    (h : (itemUrl (fullPath FILES_DIR name) (uploadSuffix body.length)).length < MAX_URL_LEN) :
    NamesOnly (fullPath FILES_DIR name) (putFileFromBuffer body name) := by
  unfold putFileFromBuffer
  rw [fits_of_fullPath h]
  exact putFileFromBufferAt_named h

private theorem getFileLength_named (h : PATH_MAX ≤ (fullPath FILES_DIR name).length ∨
    (itemUrl (fullPath FILES_DIR name) []).length < MAX_URL_LEN) :
    NamesOnly (fullPath FILES_DIR name) (getFileLength name) :=
  checked_named (f := getFileLengthAt) (.pure _) h getFileLengthAt_named

private theorem getFileToBuffer_named {block : Bytes} {buflen : ℕ}
    (h : PATH_MAX ≤ (fullPath FILES_DIR name).length ∨
      (itemUrl (fullPath FILES_DIR name) []).length < MAX_URL_LEN) :
    NamesOnly (fullPath FILES_DIR name) (getFileToBuffer name block buflen) :=
  checked_named (f := fun path => getFileToBufferAt path block buflen) (.pure _) h
    getFileToBufferAt_named

private theorem deleteFile_named (h : PATH_MAX ≤ (fullPath FILES_DIR name).length ∨
    (itemUrl (fullPath FILES_DIR name) deleteSuffix).length < MAX_URL_LEN) :
    NamesOnly (fullPath FILES_DIR name) (deleteFile name) :=
  checked_named (f := deleteFileAt) (.pure _) h deleteFileAt_named

end Files

end Named

/-! ### The operations of the interface -/

/-- The operations on a name, with arguments the public functions accept. -/
inductive NamedOperation
  | putFile (body : {b : Bytes // b.length ≤ HIVE_MAX_FILE_SIZE})
  | getFileLength
  | getFileToBuffer (block : Bytes) (buflen : {n : ℕ // n ≠ 0})
  | deleteFile
  | putValue (value : {v : Bytes // v ≠ [] ∧ v.length ≤ HIVE_MAX_VALUE_LEN})
  | setValue (value : {v : Bytes // v ≠ [] ∧ v.length ≤ HIVE_MAX_VALUE_LEN})
  | getValues
  | deleteKey

/-- A file name or a key. -/
abbrev Name := {name : Bytes // name ≠ []}

namespace NamedOperation

/-- The function called, on a OneDrive connection. -/
def call (name : Name) : NamedOperation → M OneDriveConnect ℤ
  | putFile body => hivePutFileFromBuffer (some oneDriveMethods) (some body) body.1.length
      (some name)
  | getFileLength => hiveGetFileLength (some oneDriveMethods) (some name)
  | getFileToBuffer block buflen => do
      return (← hiveGetFileToBuffer (some oneDriveMethods) (some name) (some block) buflen).1
  | deleteFile => hiveDeleteFile (some oneDriveMethods) (some name)
  | putValue value => hivePutValue (some oneDriveMethods) (some name) (some value) value.1.length
  | setValue value => hiveSetValue (some oneDriveMethods) (some name) (some value) value.1.length
  | getValues => hiveGetValues (some oneDriveMethods) (some name) true
  | deleteKey => hiveDeleteKey (some oneDriveMethods) (some name)

/-- The directory the name is in. -/
def dir : NamedOperation → Bytes
  | putFile _ | getFileLength | getFileToBuffer _ _ | deleteFile => FILES_DIR
  | putValue _ | setValue _ | getValues | deleteKey => KEYS_DIR

/-- The suffix of the longest URL the operation may write. -/
def suffix : NamedOperation → Bytes
  | putFile body => uploadSuffix body.1.length
  | getFileLength | getFileToBuffer _ _ | getValues => []
  | deleteFile | deleteKey => deleteSuffix
  | putValue _ => sessionSuffix
  | setValue _ => contentSuffix

/-- The operation tests whether its path was cut off. -/
def Checks : NamedOperation → Prop
  | getFileLength | getFileToBuffer _ _ | deleteFile => True
  | _ => False

/-- The path is refused, or the longest URL fits its buffer. -/
def Fits (op : NamedOperation) (name : Name) : Prop :=
  op.Checks ∧ PATH_MAX ≤ (fullPath op.dir name).length ∨
    (itemUrl (fullPath op.dir name) op.suffix).length < MAX_URL_LEN

/-- Reporting a result sends nothing. -/
private theorem reportInt_named {path : Bytes} {m : M OneDriveConnect ℤ} (hm : NamesOnly path m) :
    NamesOnly path (do reportInt (← m)) :=
  .bind hm fun _ => .ite (.bind (.modify _) fun _ => .pure _) (.pure _)

/-- Neither does reporting a length. -/
private theorem reportSize_named {path : Bytes} {m : M OneDriveConnect Exit}
    (hm : NamesOnly path m) :
    NamesOnly path (do reportSize (← m).ssize) :=
  .bind hm fun _ => .ite (.bind (.modify _) fun _ => .pure _) (.pure _)

/-- The function of the backend, with what its caller makes of its result. -/
def method (name : Name) : NamedOperation → M OneDriveConnect ℤ
  | putFile body => do reportInt (← putFileFromBuffer body.1 name)
  | getFileLength => do reportSize (← OneDrive.getFileLength name).ssize
  | getFileToBuffer block buflen => do
      let (exit, _) ← OneDrive.getFileToBuffer name block buflen
      reportSize exit.ssize
  | deleteFile => do reportInt (← OneDrive.deleteFile name)
  | putValue value => do reportInt (← OneDrive.putValue name value)
  | setValue value => do reportInt (← OneDrive.setValue name value)
  | getValues => do reportInt (← OneDrive.getValues name)
  | deleteKey => do reportInt (← OneDrive.deleteKey name)

/-- The argument checks let the operation pass. -/
private theorem call_eq_method (name : Name) (op : NamedOperation) :
    op.call name = op.method name := by
  obtain ⟨name, hname⟩ := name
  obtain ⟨b, rest, rfl⟩ := List.exists_cons_of_ne_nil hname
  have hvalueArgs (value : {v : Bytes // v ≠ [] ∧ v.length ≤ HIVE_MAX_VALUE_LEN}) :
      valueArgs (some oneDriveMethods) (some (b :: rest)) (some value.1) value.1.length =
        some (oneDriveMethods, b :: rest, value.1) := by
    have hne : value.1.length ≠ 0 := fun h => value.2.1 (List.length_eq_zero_iff.mp h)
    have hle := value.2.2
    simp only [valueArgs, nonempty?, List.take_length]
    rw [if_neg (by omega)]
  cases op with
  | putFile body =>
    have hle := body.2
    simp only [call, method, hivePutFileFromBuffer, nonempty?, oneDriveMethods, Option.getD_some,
      List.take_length]
    rw [if_neg]
    simp only [reduceCtorEq, false_and, false_or, not_lt]
    exact hle
  | getFileToBuffer block buflen =>
    simp only [call, method, hiveGetFileToBuffer, nonempty?, oneDriveMethods]
    rw [if_neg buflen.2]
    simp only [bind_assoc, pure_bind, bind_pure]
  | putValue value =>
    simp only [call, hivePutValue, hvalueArgs]
    rfl
  | setValue value =>
    simp only [call, hiveSetValue, hvalueArgs]
    rfl
  | _ => rfl

/-- A name that fits is written whole, and inside the buffer. -/
private theorem call_named {op : NamedOperation} {name : Name} (h : op.Fits name) :
    NamesOnly (fullPath op.dir name) (op.call name) := by
  have fits (hno : ¬op.Checks) := h.resolve_left fun h => hno h.1
  rw [call_eq_method]
  cases op with
  | putFile body => exact reportInt_named (putFileFromBuffer_named (fits id))
  | getFileLength => exact reportSize_named (getFileLength_named (h.imp_left And.right))
  | getFileToBuffer block buflen =>
    refine .bind (getFileToBuffer_named (h.imp_left And.right)) fun r => ?_
    exact .ite (.bind (.modify _) fun _ => .pure _) (.pure _)
  | deleteFile => exact reportInt_named (deleteFile_named (h.imp_left And.right))
  | putValue value => exact reportInt_named (putValue_named _ (fits id))
  | setValue value => exact reportInt_named (setValue_named value.2.2 (fits id))
  | getValues => exact reportInt_named (getValues_named (fits id))
  | deleteKey => exact reportInt_named (deleteKey_named (fits id))

end NamedOperation

/-! ### A URL that does not fit is written -/

section Overruns

variable {F : Fault → List CallEvent → Prop} {s : Thread OneDriveConnect} {past : List CallEvent}
  {path : Bytes}

/-- Whatever has happened before, a URL can be written past its buffer. -/
abbrev Overruns {α : Type} (m : M OneDriveConnect α) (s : Thread OneDriveConnect) : Prop :=
  ∀ past, Script.reaches record (fun e _ => e = .urlOverrun) m (fun _ _ _ => False) s past

/-- What comes after an overrun does not matter. -/
theorem Overruns.bind {α β : Type} {m : M OneDriveConnect α} (hm : Overruns m s)
    (f : α → M OneDriveConnect β) : Overruns (m >>= f) s := fun past => by
  rw [Script.reaches_bind]
  exact Script.reaches_mono (hm past) (fun _ _ h => h) fun _ _ _ h => h.elim

/-- What comes before it can be gone through. -/
private theorem overruns_bind {α β : Type} {m : M OneDriveConnect α} {a : α}
    {f : α → M OneDriveConnect β} (hf : Overruns (f a) s)
    (hm : ∀ F past, Script.reaches record F m (fun a' s' _ => a' = a ∧ s' = s) s past) :
    Overruns (m >>= f) s := fun past => by
  rw [Script.reaches_bind]
  refine Script.reaches_mono (hm _ past) (fun _ _ h => h) ?_
  rintro _ _ past' ⟨rfl, rfl⟩
  exact hf past'

/-- A call before an overrun. -/
private theorem overruns_ask {α : Type} {i : Call} (r : i.Reply) {f : i.Reply → M OneDriveConnect α}
    (hf : Overruns (f r) s) : Overruns (ask i >>= f) s :=
  overruns_bind hf fun _ _ => ⟨r, _, rfl, rfl, rfl⟩

/-- A URL that has no room leaves its buffer. -/
private theorem overruns_sprintfUrl {url : Bytes} (h : MAX_URL_LEN ≤ url.length) :
    Overruns (sprintfUrl url) s := fun past => by
  unfold sprintfUrl
  rw [if_neg (by simp only [MAX_URL_LEN] at h; omega)]
  exact rfl

/-- With a fresh token the test for expiry may pass. -/
private theorem reaches_checkExpire (F : Fault → List CallEvent → Prop) (past : List CallEvent) :
    Script.reaches record F oauthTokenCheckExpire (fun rc s' _ => rc = 0 ∧ s' = freshToken)
      freshToken past :=
  ⟨⟨1, 0⟩, _, rfl, rfl, rfl⟩

/-- The operations on an item begin alike: the token is fresh and the client is had. -/
private theorem reaches_begin {α : Type} {user : HttpClientUser} {failed : ℤ → M OneDriveConnect α}
    {refused : M OneDriveConnect α} {m : M OneDriveConnect α}
    {Q : α → Thread OneDriveConnect → List CallEvent → Prop}
    (hm : ∀ past, Script.reaches record F m Q freshToken past) (past : List CallEvent) :
    Script.reaches record F (do
      let rc ← oauthTokenCheckExpire
      if rc < 0 then
        failed rc
      else if !(← httpClientNew user) then
        refused
      else m) Q freshToken past := by
  rw [Script.reaches_bind]
  refine Script.reaches_mono (reaches_checkExpire F past) (fun _ _ h => h) ?_
  rintro _ _ past₁ ⟨rfl, rfl⟩
  rw [if_neg (lt_irrefl 0), Script.reaches_bind, Script.reaches_ask]
  refine ⟨true, _, rfl, ?_⟩
  rw [if_neg (by decide)]
  exact hm _

/-- A lookup may overrun its buffer. -/
private theorem overruns_getFileInfo {query : Bytes} (h : MAX_URL_LEN ≤ (itemUrl path []).length) :
    Overruns (getFileInfo path query) s := (overruns_sprintfUrl h).bind _

/-- So may a query of the length. -/
private theorem overruns_getFileLengthAt (h : MAX_URL_LEN ≤ (itemUrl path []).length) :
    Overruns (getFileLengthAt path) freshToken :=
  reaches_begin ((overruns_getFileInfo h).bind _)

/-- So may a read. -/
private theorem overruns_getFileToBufferAt {block : Bytes} {buflen : ℕ}
    (h : MAX_URL_LEN ≤ (itemUrl path []).length) :
    Overruns (getFileToBufferAt path block buflen) freshToken :=
  reaches_begin ((overruns_getFileInfo h).bind _)

/-- So may a deletion. -/
private theorem overruns_deleteFileAt (h : MAX_URL_LEN ≤ (itemUrl path deleteSuffix).length) :
    Overruns (deleteFileAt path) freshToken :=
  reaches_begin ((overruns_sprintfUrl h).bind _)

/-- The folder is created, unless its own URL does not fit. -/
private theorem reaches_createFolder (hfits : (folderUrl path).length < MAX_URL_LEN)
    (F : Fault → List CallEvent → Prop) (past : List CallEvent) :
    Script.reaches record F (createFolder path) (fun rc s' _ => rc = 0 ∧ s' = freshToken)
      freshToken past := by
  have hwritten : (sprintfUrl (if dirname path = ascii "/" then APP_ROOT ++ ascii "/children"
      else itemUrl (dirname path) childrenSuffix) : M OneDriveConnect Bytes) =
        pure (folderUrl path) := sprintfUrl_eq hfits
  unfold createFolder
  dsimp only
  rw [hwritten, pure_bind]
  exact ⟨true, _, rfl, some [], _, rfl, .accepted [] none, _, rfl, rfl, rfl⟩

/-- An upload may overrun its buffer, on either way. -/
private theorem overruns_putFileFromBufferAt {body : Bytes}
    (h : MAX_URL_LEN ≤ (itemUrl path (uploadSuffix body.length)).length) :
    Overruns (putFileFromBufferAt path body) freshToken := by
  refine reaches_begin ?_
  unfold uploadSuffix at h
  split
  · rename_i hsmall
    rw [if_pos hsmall] at h
    exact (overruns_sprintfUrl h).bind _
  · rename_i hlarge
    rw [if_neg hlarge] at h
    rcases Nat.lt_or_ge (folderUrl (dirname path)).length MAX_URL_LEN with hfits | hlong
    · refine overruns_bind (a := 0) ?_ (reaches_createFolder hfits)
      rw [if_neg (lt_irrefl 0)]
      exact ((overruns_sprintfUrl h).bind _).bind _
    · exact ((overruns_sprintfUrl hlong).bind _).bind _

/-- The reply that announces a file just above the size of a small upload. -/
def largeInfo : Json := .object [
  (sizeQuery, .number (.ofInt 4194304)), (downloadUrlKey, .string (ascii "https://d"))]

/-- A lookup that fits may succeed. -/
private theorem reaches_getFileInfo {query : Bytes} (hfits : (itemUrl path []).length < MAX_URL_LEN)
    (hvalid : fileInfoValid query largeInfo = true) (F : Fault → List CallEvent → Prop)
    (past : List CallEvent) :
    Script.reaches record F (getFileInfo path query)
      (fun r s' _ => r = .ok largeInfo ∧ s' = freshToken) freshToken past := by
  unfold getFileInfo
  rw [sprintfUrl_eq hfits, pure_bind]
  refine ⟨.accepted [ascii "{}"] (some largeInfo), _, rfl, ?_⟩
  have hreply : Script.reaches record F (do
      if !fileInfoValid query largeInfo then
        return .error (toInt (hiveGeneralError HIVEERR_BAD_JSON_FORMAT))
      return (.ok largeInfo : Except ℤ Json))
      (fun r s' _ => r = .ok largeInfo ∧ s' = freshToken) freshToken (past ++
        [⟨.httpClientPerform (fileInfoRequest (ascii "token") path query),
          .accepted [ascii "{}"] (some largeInfo)⟩]) := by
    rw [hvalid]
    exact ⟨rfl, rfl⟩
  exact hreply

/-- A query of the length that fits may announce a large file. -/
private theorem reaches_getFileLengthAt (hfits : (itemUrl path []).length < MAX_URL_LEN)
    (F : Fault → List CallEvent → Prop) (past : List CallEvent) :
    Script.reaches record F (getFileLengthAt path)
      (fun exit s' _ => exit = .ret 4194304 ∧ s' = freshToken) freshToken past := by
  unfold getFileLengthAt
  refine reaches_begin (fun past₁ => ?_) past
  rw [Script.reaches_bind]
  refine Script.reaches_mono (reaches_getFileInfo hfits (by decide) F _) (fun _ _ h => h) ?_
  rintro _ _ past₂ ⟨rfl, rfl⟩
  exact ⟨rfl, rfl⟩

/-- The announced file is downloaded; nothing need be sent for it. -/
private theorem reaches_getFileToBufferAt {block : Bytes}
    (hfits : (itemUrl path []).length < MAX_URL_LEN)
    (F : Fault → List CallEvent → Prop) (past : List CallEvent) :
    Script.reaches record F (getFileToBufferAt path block 4194304)
      (fun r s' _ => r = (.ret 4194304, block) ∧ s' = freshToken) freshToken past := by
  unfold getFileToBufferAt
  refine reaches_begin (fun past₁ => ?_) past
  rw [Script.reaches_bind]
  refine Script.reaches_mono (reaches_getFileInfo hfits (by decide) F _) (fun _ _ h => h) ?_
  rintro _ _ past₂ ⟨rfl, rfl⟩
  exact ⟨.accepted [] none, _, rfl, rfl, rfl⟩

/-- A value is put behind a large file: the new content goes through a session. -/
private theorem overruns_putValue {key value : Bytes} (hvalue : value.length ≤ HIVE_MAX_VALUE_LEN)
    (h : MAX_URL_LEN ≤ (itemUrl (snprintfPath KEYS_DIR key).1 sessionSuffix).length) :
    Overruns (putValue key value) freshToken := by
  unfold putValue putSized
  dsimp only
  generalize (snprintfPath KEYS_DIR key).1 = path at h
  rcases Nat.lt_or_ge (itemUrl path []).length MAX_URL_LEN with hfits | hlong
  · refine overruns_bind ?_ (reaches_getFileLengthAt hfits)
    have hsize : sizeOrAbsent (Exit.ret 4194304).ssize = .ok 4194304 := by decide
    have hnew : (toSize (toLong (4194304 + kvHeaderSize + value.length))).toNat =
        4194308 + value.length := by
      simp only [HIVE_MAX_VALUE_LEN] at hvalue
      simp only [kvHeaderSize]
      rw [toLong_eq_self (by omega) (by omega), toSize_eq_self (by omega) (by omega)]
      omega
    rw [hsize]
    dsimp only
    refine overruns_ask true ?_
    rw [if_neg (by decide), if_pos (by decide), hnew]
    refine overruns_bind ?_ (reaches_getFileToBufferAt hfits)
    have hint : toInt 4194304 = 4194304 := by decide
    simp only [Exit.ssize_ret, hint]
    rw [if_neg (by decide), if_neg (by decide), pure_bind]
    have hentry : (kvEntry value).length = 4 + value.length := by
      simp only [kvEntry, htonl, List.length_append, List.length_cons, List.length_nil]
    have hroom : (4194304 : ℤ).toNat + (kvEntry value).length ≤
        (List.replicate (4194308 + value.length) (0 : UInt8)).length := by
      rw [hentry, List.length_replicate]
      omega
    -- a file of 4 MB and one more entry go up by an upload session, whose url is the long one
    dsimp only [storeContent, storeEntry]
    rw [memcpy, if_pos hroom]
    refine overruns_putFileFromBufferAt ?_
    rw [uploadSuffix, if_neg]
    · exact h
    · simp only [List.length_append, List.length_take, List.length_drop, List.length_replicate,
        hentry, sessionThreshold]
      omega
  · exact (overruns_getFileLengthAt hlong).bind _

/-- A set may overrun, by the URL of its upload. -/
private theorem overruns_setValue {key value : Bytes} (hvalue : value.length ≤ HIVE_MAX_VALUE_LEN)
    (h : MAX_URL_LEN ≤ (itemUrl (snprintfPath KEYS_DIR key).1 contentSuffix).length) :
    Overruns (setValue key value) freshToken := by
  unfold setValue
  refine overruns_ask true ?_
  rw [if_neg (by decide)]
  refine overruns_putFileFromBufferAt ?_
  rw [uploadSuffix, if_pos]
  · exact h
  · simp only [HIVE_MAX_VALUE_LEN] at hvalue
    simp only [kvEntry, htonl, List.length_append, List.length_cons, List.length_nil,
      sessionThreshold]
    omega

/-- A name that is not refused, in one of the functions that test for truncation. -/
private theorem overruns_checked {α : Type} {dir name : Bytes} {refused : M OneDriveConnect α}
    {f : Bytes → M OneDriveConnect α} (h : (fullPath dir name).length < PATH_MAX)
    (hf : Overruns (f (snprintfPath dir name).1) s) :
    Overruns (if !(snprintfPath dir name).2 then refused else f (snprintfPath dir name).1) s := by
  rw [snprintfPath_complete.mpr h, if_neg (by decide)]
  exact hf

end Overruns

namespace NamedOperation

/-- A name that does not fit is written past the buffer in some run. -/
private theorem overruns_call {op : NamedOperation} {name : Name} (h : ¬op.Fits name) :
    Overruns (op.call name) freshToken := by
  rw [Fits, not_or, not_and, not_lt, not_le] at h
  obtain ⟨hshort, hlong⟩ := h
  replace hlong := le_length_snprintfPath hlong
  rw [call_eq_method]
  cases op with
  | putFile body => exact (overruns_putFileFromBufferAt hlong).bind _
  | getFileLength =>
    exact (overruns_checked (f := getFileLengthAt) (hshort trivial)
      (overruns_getFileLengthAt hlong)).bind _
  | getFileToBuffer block buflen =>
    exact (overruns_checked (f := fun path => getFileToBufferAt path block buflen) (hshort trivial)
      (overruns_getFileToBufferAt hlong)).bind _
  | deleteFile =>
    exact (overruns_checked (f := deleteFileAt) (hshort trivial)
      (overruns_deleteFileAt hlong)).bind _
  | putValue value => exact (overruns_putValue value.2.2 hlong).bind _
  | setValue value => exact (overruns_setValue value.2.2 hlong).bind _
  | getValues => exact ((overruns_getFileLengthAt hlong).bind _).bind _
  | deleteKey => exact ((overruns_deleteFileAt hlong).bind _).bind _

end NamedOperation

/-! ### Every request URL is complete and fits -/

/-- In this run no URL is written past its buffer, and every request that carries the bearer token
names the whole of `path` in a URL that fits. -/
structure UrlsComplete (path : Bytes) (tr : List CallEvent)
    (o : Except Fault (ℤ × Thread OneDriveConnect)) : Prop where
  inside : o ≠ .error .urlOverrun
  named : ∀ request reply, ⟨.httpClientPerform request, reply⟩ ∈ tr → request.Authorized →
    Names path request

/-- **Which names fit.** All runs of an operation on a name write complete URLs inside their
buffer exactly when the name is refused as too long or its longest URL fits. -/
theorem urlsComplete_iff (op : NamedOperation) (name : Name) :
    (∀ s tr o, Program.Exec playback (op.call name s) tr o [] →
      UrlsComplete (fullPath op.dir name) tr o) ↔ op.Fits name := by
  constructor
  · intro h
    by_contra hno
    obtain ⟨tr, o, hexec, hends⟩ := (NamedOperation.overruns_call hno []).exists_playback
    match o, hends with
    | .ok _, hends => exact hends
    | .error _, hends => exact (h freshToken tr _ hexec).inside (congrArg _ hends)
  · intro h s tr o hexec
    have hnamed := NamedOperation.call_named h
    refine ⟨?_, fun request reply hmem => ?_⟩
    · rintro rfl
      exact hexec.fault_within (hnamed s) rfl
    · obtain ⟨pre, rfl, hpre⟩ := hexec.consumed (hnamed s)
      rw [List.append_nil] at hmem
      exact hpre _ hmem request rfl

/-- A key of a thousand bytes does not fit. -/
theorem urlsComplete_not_always :
    ¬∀ (op : NamedOperation) (name : Name) (s : Thread OneDriveConnect)
    (tr : List CallEvent) (o : Except Fault (ℤ × Thread OneDriveConnect)),
    Program.Exec playback (op.call name s) tr o [] → UrlsComplete (fullPath op.dir name) tr o := by
  intro h
  have hlong : ¬NamedOperation.Fits .getValues ⟨List.replicate 1000 97, by decide⟩ := by
    rintro (⟨hchecks, -⟩ | hfits)
    · exact hchecks
    · rw [length_itemUrl] at hfits
      simp only [fullPath, List.length_append, List.length_replicate, MAX_URL_LEN] at hfits
      have hroot : (itemUrl [] []).length = 58 := by decide
      omega
  obtain ⟨tr, o, hexec, hends⟩ := (NamedOperation.overruns_call hlong []).exists_playback
  cases o with
  | ok _ => exact hends
  | error _ =>
    exact (h .getValues _ freshToken tr _ hexec).inside (congrArg _ hends)

end HiveSDK.OneDrive
