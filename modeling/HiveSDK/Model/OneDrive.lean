import HiveSDK.Model.OAuthToken

/-!
# The OneDrive backend

The file and key-value operations of `onedrive.c`. Every request that carries the bearer
token goes through the same four tests (transfer failed, code not readable, status 401,
status not accepted), so they are one definition, `requestAuthorized`, with the accepted
statuses as a parameter; what a function does with an accepted reply stays with it.

A static function whose name begins with two underscores keeps its name without them; where
the source has both names, the one that works on a complete path ends in `At`.

Functions declared `int` return the converted value; functions declared `ssize_t` return an
`Exit`, because the conversion of an error differs from one `return` to the next.
Destination buffers are blocks of memory: a `memcpy` past the end of the block is a fault.
-/

namespace HiveSDK

open Interaction C

/-! ### Constants -/

def PATH_MAX : ℕ := 4096
def MAX_URL_LEN : ℕ := 1024
def HIVE_MAX_VALUE_LEN : ℕ := 32 * 1024
def HIVE_MAX_FILE_SIZE : ℕ := 32 * 1024 * 1024

/-- The length above which a file is uploaded through a session. -/
def sessionThreshold : ℕ := 4 * 1024 * 1024

def APP_ROOT : Bytes := ascii "https://graph.microsoft.com/v1.0/me/drive/special/approot"
def FILES_DIR : Bytes := ascii "/Files"
def KEYS_DIR : Bytes := ascii "/KeyValues"

def sizeQuery : Bytes := ascii "size"
def downloadUrlKey : Bytes := ascii "@microsoft.graph.downloadUrl"
def sizeAndUrlQuery : Bytes := ascii "size,@microsoft.graph.downloadUrl"

/-! ### Paths -/

/-- `snprintf(path, sizeof(path), "%s/%s", dir, name)`: the path stored and whether it was
complete. -/
def snprintfPath (dir name : Bytes) : Bytes × Bool :=
  let path := dir ++ ascii "/" ++ name
  (path.take (PATH_MAX - 1), path.length < PATH_MAX)

/-- A string without its trailing slashes. -/
def dropTrailingSlashes (path : Bytes) : Bytes :=
  (path.reverse.dropWhile (· = 47)).reverse

/-- `dirname`. -/
def dirname (path : Bytes) : Bytes :=
  let trimmed := dropTrailingSlashes path
  if trimmed = [] then (if path = [] then ascii "." else ascii "/")
  else if 47 ∉ trimmed then ascii "."
  else
    let dir := dropTrailingSlashes (trimmed.reverse.dropWhile (· ≠ 47)).reverse
    if dir = [] then ascii "/" else dir

/-- `basename`. -/
def basename (path : Bytes) : Bytes :=
  let trimmed := dropTrailingSlashes path
  if trimmed = [] then (if path = [] then ascii "." else ascii "/")
  else (trimmed.reverse.takeWhile (· ≠ 47)).reverse

namespace OneDrive

/-! ### Requests -/

/-- The URL of a request on the item at `path`, with the suffix that names the action. -/
def itemUrl (path suffix : Bytes) : Bytes := APP_ROOT ++ ascii ":" ++ path ++ suffix

def contentSuffix : Bytes := ascii ":/content"
def sessionSuffix : Bytes := ascii ":/createUploadSession"
def childrenSuffix : Bytes := ascii ":/children"
def deleteSuffix : Bytes := ascii ":"

def uploadRequest (token path body : Bytes) : HttpRequest where
  method := .put
  url := itemUrl path contentSuffix
  headers := [.authorization token]
  body := body

def createUploadSessionRequest (token path : Bytes) : HttpRequest where
  method := .post
  url := itemUrl path sessionSuffix
  headers := [.authorization token]

def uploadToSessionRequest (url body : Bytes) : HttpRequest where
  method := .put
  url := url
  headers := [.contentLength body.length, .contentRange 0 (body.length - 1) body.length,
    .transferEncoding [], .expect []]
  body := body

def createFolderRequest (token url body : Bytes) : HttpRequest where
  method := .post
  url := url
  headers := [.contentType (ascii "application/json"), .authorization token]
  body := body

def fileInfoRequest (token path query : Bytes) : HttpRequest where
  method := .get
  url := itemUrl path []
  query := [(ascii "select", query)]
  headers := [.authorization token]

def downloadRequest (url : Bytes) : HttpRequest where
  method := .get
  url := url

def deleteRequest (token path : Bytes) : HttpRequest where
  method := .delete
  url := itemUrl path deleteSuffix
  headers := [.authorization token]

def listRequest (token url : Bytes) : HttpRequest where
  method := .get
  url := url
  headers := [.authorization token]

/-- Perform a request that carries the bearer token and test its reply: the accepted reply,
or the macro value of the error returned. A 401 marks the token expired. -/
def requestAuthorized (request : HttpRequest) (accepted : List ℕ) :
    M OneDriveConnect (Except ℤ HttpReply) := do
  let reply ← httpClientPerform request
  match reply.answer with
  | .error e => return .error e
  | .ok status =>
    if status = HttpStatus_Unauthorized then
      oauthTokenSetExpired
      return .error (hiveGeneralError HIVEERR_TRY_AGAIN)
    if status ∉ accepted then
      return .error (hiveHttpStatusError status)
    return .ok reply

theorem wp_requestAuthorized {σ : Type} {h : Handler σ Call Call.Reply} {F : Fault → σ → Prop}
    {request : HttpRequest} {accepted : List ℕ}
    {Q : Except ℤ HttpReply → Thread OneDriveConnect → σ → Prop}
    {s : Thread OneDriveConnect} {w : σ} :
    Script.wp h F (requestAuthorized request accepted) Q s w ↔
      ∀ reply w', h w (.httpClientPerform request) reply w' →
        (∀ e, reply.answer = .error e → Q (.error e) s w') ∧
        (reply.answer = .ok HttpStatus_Unauthorized →
          Q (.error (hiveGeneralError HIVEERR_TRY_AGAIN)) s.expired w') ∧
        (∀ status, reply.answer = .ok status → status ≠ HttpStatus_Unauthorized →
          (status ∉ accepted → Q (.error (hiveHttpStatusError status)) s w') ∧
          (status ∈ accepted → Q (.ok reply) s w')) := by
  unfold requestAuthorized
  simp only [Script.wp_bind, Script.wp_ask]
  refine forall_congr' fun reply => forall_congr' fun w' => imp_congr_right fun _ => ?_
  cases reply.answer with
  | error e => simp
  | ok status =>
    simp only [Script.wp_ite, Script.wp_bind, wp_oauthTokenSetExpired, Script.wp_pure,
      reduceCtorEq, false_imp_iff, implies_true, true_and, Except.ok.injEq, forall_eq',
      not_not, ne_eq]

/-! ### Uploads -/

/-- `__build_create_folder_request_body`. -/
def buildCreateFolderRequestBody (fname : Bytes) : M OneDriveConnect (Option Bytes) := do
  if !(← cJSON_CreateObject) then
    return none
  cJSON_Print (.object [(ascii "name", .string fname), (ascii "folder", .object [])])

/-- `__create_folder`. -/
def createFolder (path : Bytes) : M OneDriveConnect ℤ := do
  let dir := dirname path
  let url ← sprintfUrl (if dir = ascii "/" then APP_ROOT ++ ascii "/children"
    else itemUrl dir childrenSuffix)
  match ← buildCreateFolderRequestBody (basename path) with
  | none => return toInt (hiveGeneralError HIVEERR_OUT_OF_MEMORY)
  | some body =>
    match ← requestAuthorized (createFolderRequest (← getBearerToken) url body)
        [HttpStatus_Created, HttpStatus_OK] with
    | .error e => return toInt e
    | .ok _ => return 0

/-- `__upload_file`. -/
def uploadFile (path body : Bytes) : M OneDriveConnect ℤ := do
  let _ ← sprintfUrl (itemUrl path contentSuffix)
  match ← requestAuthorized (uploadRequest (← getBearerToken) path body)
      [HttpStatus_Created, HttpStatus_OK] with
  | .error e => return toInt e
  | .ok _ => return 0

/-- `__create_upload_session`: the upload URL, or the error returned. -/
def createUploadSession (path : Bytes) : M OneDriveConnect (Except ℤ Bytes) := do
  let _ ← sprintfUrl (itemUrl path sessionSuffix)
  match ← requestAuthorized (createUploadSessionRequest (← getBearerToken) path)
      [HttpStatus_OK] with
  | .error e => return .error (toInt e)
  | .ok reply =>
    match ← moveAndParse reply with
    | none => return .error (toInt (hiveGeneralError HIVEERR_OUT_OF_MEMORY))
    | some json =>
      match Json.nonemptyString? (json.getObjectItemCaseSensitive (ascii "uploadUrl")) with
      | none => return .error (toInt (hiveGeneralError HIVEERR_BAD_JSON_FORMAT))
      | some url =>
        if MAX_URL_LEN ≤ url.length then
          return .error (toInt (hiveGeneralError HIVEERR_BUFFER_TOO_SMALL))
        return .ok url

/-- `__upload_to_session`. This request carries no Authorization header, and a 401 is a
status like any other. -/
def uploadToSession (url body : Bytes) : M OneDriveConnect ℤ := do
  let reply ← httpClientPerform (uploadToSessionRequest url body)
  match reply.answer with
  | .error e => return toInt e
  | .ok status =>
    if status ≠ HttpStatus_Created ∧ status ≠ HttpStatus_OK then
      return toInt (hiveHttpStatusError status)
    return 0

/-- `__put_file_from_buffer`. -/
def putFileFromBufferAt (path body : Bytes) : M OneDriveConnect ℤ := do
  let rc ← oauthTokenCheckExpire
  if rc < 0 then
    return rc
  if !(← httpClientNew .putFileFromBuffer) then
    return toInt (hiveGeneralError HIVEERR_OUT_OF_MEMORY)
  if body.length ≤ sessionThreshold then
    return ← uploadFile path body
  let rc ← createFolder (dirname path)
  if rc < 0 then
    return rc
  match ← createUploadSession path with
  | .error rc => return rc
  | .ok url =>
    let rc ← uploadToSession url body
    if rc < 0 then
      return rc
    return 0

/-- `put_file_from_buffer`. The path is not tested for truncation. -/
def putFileFromBuffer (body filename : Bytes) : M OneDriveConnect ℤ :=
  putFileFromBufferAt (snprintfPath FILES_DIR filename).1 body

/-! ### Information and downloads -/

/-- The tests `__get_file_info` makes on a parsed reply. -/
def fileInfoValid (query : Bytes) (json : Json) : Bool :=
  (!strstr query sizeQuery ||
    match Json.number? (json.getObjectItemCaseSensitive sizeQuery) with
    | some size => 0 ≤ size.toLong
    | none => false) &&
  (!strstr query downloadUrlKey ||
    (Json.nonemptyString? (json.getObjectItemCaseSensitive downloadUrlKey)).isSome)

/-- `__get_file_info`: the document, or the error returned. -/
def getFileInfo (path query : Bytes) : M OneDriveConnect (Except ℤ Json) := do
  let _ ← sprintfUrl (itemUrl path [])
  match ← requestAuthorized (fileInfoRequest (← getBearerToken) path query)
      [HttpStatus_OK] with
  | .error e => return .error (toInt e)
  | .ok reply =>
    match ← moveAndParse reply with
    | none => return .error (toInt (hiveGeneralError HIVEERR_OUT_OF_MEMORY))
    | some json =>
      if !fileInfoValid query json then
        return .error (toInt (hiveGeneralError HIVEERR_BAD_JSON_FORMAT))
      return .ok json

/-- `(ssize_t)size->valuedouble` of the item `size`. -/
def announcedSize (json : Json) : Option ℤ :=
  (Json.number? (json.getObjectItemCaseSensitive sizeQuery)).map Double.toLong

/-- `__get_file_length`. -/
def getFileLengthAt (path : Bytes) : M OneDriveConnect Exit := do
  let rc ← oauthTokenCheckExpire
  if rc < 0 then
    return .ret rc
  if !(← httpClientNew .getFileLength) then
    return .err (hiveGeneralError HIVEERR_OUT_OF_MEMORY)
  match ← getFileInfo path sizeQuery with
  | .error rc => return .ret rc
  | .ok json =>
    match announcedSize json with
    | none => crash .nullDereference
    | some size => return .ret size

/-- `get_file_length`. -/
def getFileLength (filename : Bytes) : M OneDriveConnect Exit := do
  let (path, complete) := snprintfPath FILES_DIR filename
  if !complete then
    return .err (hiveGeneralError HIVEERR_BUFFER_TOO_SMALL)
  getFileLengthAt path

/-- `__download_file_response_body_callback`: store a chunk at the write position and
advance it. -/
def downloadFileResponseBodyCallback (block : Bytes) (pos : ℕ) (chunk : Bytes) :
    Option (Bytes × ℕ) :=
  (memcpy block pos chunk).map fun block => (block, pos + chunk.length)

/-- The callback invocations of one transfer; `none` when one of them leaves the block. -/
def storeChunks (block : Bytes) (pos : ℕ) : List Bytes → Option Bytes
  | [] => some block
  | chunk :: chunks =>
    match downloadFileResponseBodyCallback block pos chunk with
    | none => none
    | some (block, pos) => storeChunks block pos chunks

/-- `__download_file`: the value returned, and the block after the transfer. The callback
runs on every body, whatever the status. -/
def downloadFile (url block : Bytes) : M OneDriveConnect (ℤ × Bytes) := do
  let reply ← httpClientPerform (downloadRequest url)
  match storeChunks block 0 reply.chunks with
  | none => crash .bufferOverrun
  | some block =>
    match reply.answer with
    | .error e => return (toInt e, block)
    | .ok status =>
      if status ≠ HttpStatus_OK then
        return (toInt (hiveHttpStatusError status), block)
      return (0, block)

/-- `__get_file_to_buffer`: how it is left, and the block at `to` afterwards. -/
def getFileToBufferAt (path block : Bytes) (buflen : ℕ) : M OneDriveConnect (Exit × Bytes) := do
  let rc ← oauthTokenCheckExpire
  if rc < 0 then
    return (.ret rc, block)
  if !(← httpClientNew .getFileToBuffer) then
    return (.err (hiveGeneralError HIVEERR_OUT_OF_MEMORY), block)
  match ← getFileInfo path sizeAndUrlQuery with
  | .error rc => return (.ret rc, block)
  | .ok json =>
    match announcedSize json,
        Json.nonemptyString? (json.getObjectItemCaseSensitive downloadUrlKey) with
    | some fsize, some url =>
      if 0 < toLong buflen ∧ toLong buflen < fsize then
        return (.err (hiveGeneralError HIVEERR_BUFFER_TOO_SMALL), block)
      if fsize = 0 then
        return (.ret 0, block)
      let (rc, block) ← downloadFile url block
      if rc < 0 then
        return (.ret rc, block)
      return (.ret fsize, block)
    | _, _ => crash .nullDereference

/-- `get_file_to_buffer`. -/
def getFileToBuffer (filename block : Bytes) (buflen : ℕ) :
    M OneDriveConnect (Exit × Bytes) := do
  let (path, complete) := snprintfPath FILES_DIR filename
  if !complete then
    return (.err (hiveGeneralError HIVEERR_BUFFER_TOO_SMALL), block)
  getFileToBufferAt path block buflen

/-! ### Deletion -/

/-- `__delete_file`. -/
def deleteFileAt (path : Bytes) : M OneDriveConnect ℤ := do
  let rc ← oauthTokenCheckExpire
  if rc < 0 then
    return rc
  if !(← httpClientNew .deleteFile) then
    return toInt (hiveGeneralError HIVEERR_OUT_OF_MEMORY)
  let _ ← sprintfUrl (itemUrl path deleteSuffix)
  match ← requestAuthorized (deleteRequest (← getBearerToken) path) [HttpStatus_NoContent] with
  | .error e => return toInt e
  | .ok _ => return 0

/-- `delete_file`. -/
def deleteFile (filename : Bytes) : M OneDriveConnect ℤ := do
  let (path, complete) := snprintfPath FILES_DIR filename
  if !complete then
    return toInt (hiveGeneralError HIVEERR_BUFFER_TOO_SMALL)
  deleteFileAt path

/-! ### Listing -/

/-- One item of a page passes the tests of `__merge_array`. -/
def listItemValid (item : Json) : Bool :=
  let file := item.getObjectItemCaseSensitive (ascii "file")
  let folder := item.getObjectItemCaseSensitive (ascii "folder")
  (Json.nonemptyString? (item.getObjectItemCaseSensitive (ascii "name"))).isSome &&
    (file.isSome != folder.isSome) &&
    (file.isNone || (Json.object? file).isSome) &&
    (folder.isNone || (Json.object? folder).isSome)

/-- `__merge_array`: move the items of a page to the end of `array`, or stop at the first bad
one. -/
def mergeArray (array : List Json) : List Json → Except ℤ (List Json)
  | [] => .ok array
  | item :: sub =>
    if listItemValid item then mergeArray (array ++ [item]) sub
    else .error (toInt (hiveGeneralError HIVEERR_BAD_JSON_FORMAT))

/-- `__notify_user_files`. -/
def notifyUserFiles : List Json → M OneDriveConnect Unit
  | [] => do
    let _ ← filesCallback none
  | item :: array => do
    let name := Json.string? (item.getObjectItemCaseSensitive (ascii "name"))
    if !(← filesCallback name) then
      return
    notifyUserFiles array

/-- The item `@odata.nextLink` of a page: absent, a URL, or malformed. -/
def nextLink (json : Json) : Except ℤ (Option Bytes) :=
  match json.getObjectItemCaseSensitive (ascii "@odata.nextLink") with
  | none => .ok none
  | some item =>
    match Json.nonemptyString? (some item) with
    | some url => .ok (some url)
    | none => .error (toInt (hiveGeneralError HIVEERR_BAD_JSON_FORMAT))

/-- The loop of `list_files`, one round a page; `page` numbers the rounds, `previous` says
whether the document of the round before is still held. A run makes finitely many rounds;
one that would need more than `rounds` does not return. -/
def listPages (rounds page : ℕ) (previous : Bool) (url : Bytes) (array : List Json) :
    M OneDriveConnect ℤ :=
  match rounds with
  | 0 => block
  | rounds + 1 => do
    let reply ← httpClientPerform (listRequest (← getBearerToken) url)
    if previous then
      cJSON_Delete (page - 1)
    match reply.answer with
    | .error e => return toInt e
    | .ok status =>
    if status = HttpStatus_Unauthorized then
      oauthTokenSetExpired
      return toInt (hiveGeneralError HIVEERR_TRY_AGAIN)
    if status ≠ HttpStatus_OK then
      return toInt (hiveHttpStatusError status)
    match ← moveAndParse reply with
    | none => return toInt (hiveGeneralError HIVEERR_OUT_OF_MEMORY)
    | some json =>
    match json.getObjectItemCaseSensitive (ascii "value") with
    | some (.array sub) =>
      match mergeArray array sub with
      | .error rc =>
        cJSON_Delete page
        return rc
      | .ok array =>
      match nextLink json with
      | .error rc =>
        cJSON_Delete page
        return rc
      | .ok (some url) => listPages rounds (page + 1) true url array
      | .ok none =>
        cJSON_Delete page
        notifyUserFiles array
        return 0
    | _ =>
      cJSON_Delete page
      return toInt (hiveGeneralError HIVEERR_BAD_JSON_FORMAT)

/-- `list_files`. -/
def listFiles (rounds : ℕ) : M OneDriveConnect ℤ := do
  let rc ← oauthTokenCheckExpire
  if rc < 0 then
    return rc
  if !(← httpClientNew .listFiles) then
    return toInt (hiveGeneralError HIVEERR_OUT_OF_MEMORY)
  let url ← sprintfUrl (itemUrl FILES_DIR childrenSuffix)
  if !(← cJSON_CreateArray) then
    return toInt (hiveGeneralError HIVEERR_OUT_OF_MEMORY)
  listPages rounds 0 false url []

/-! ### The key-value store -/

/-- `sizeof(KVEntry)`. -/
def kvHeaderSize : ℕ := 4

/-- `htonl` of a 32-bit length: its bytes, most significant first. -/
def htonl (n : ℕ) : Bytes :=
  [UInt8.ofNat (n / 2 ^ 24), UInt8.ofNat (n / 2 ^ 16), UInt8.ofNat (n / 2 ^ 8), UInt8.ofNat n]

/-- `ntohl` of the first four bytes. -/
def ntohl : Bytes → ℕ
  | a :: b :: c :: d :: _ => a.toNat * 2 ^ 24 + b.toNat * 2 ^ 16 + c.toNat * 2 ^ 8 + d.toNat
  | _ => 0

/-- The `KVEntry` of a value: its length and its bytes. -/
def kvEntry (value : Bytes) : Bytes := htonl (value.length % 2 ^ 32) ++ value

/-- The file size behind the result of `__get_file_length`: a 404 is read as an absent file,
any other error is returned. The comparison is between an `int` and an `unsigned int`. -/
def sizeOrAbsent (size : ℤ) : Except ℤ ℤ :=
  if toUInt (toInt size) = hiveHttpStatusError HttpStatus_NotFound then .ok 0
  else if size < 0 then .error (toInt size)
  else .ok size

/-- The end of `put_value`: the entry goes behind the content in the buffer, which is uploaded. -/
def storeEntry (path value : Bytes) (size : ℤ) (buf : Bytes) : M OneDriveConnect ℤ :=
  match memcpy buf size.toNat (kvEntry value) with
  | none => crash .bufferOverrun
  | some buf => putFileFromBufferAt path buf

/-- The end of `put_value`, on the content or the error of its download. -/
def storeContent (path value : Bytes) (size : ℤ) : Except ℤ Bytes → M OneDriveConnect ℤ
  | .error rc => pure rc
  | .ok buf => storeEntry path value size buf

/-- `put_value`, from the length of the file on. -/
def putSized (path value : Bytes) (size : ℤ) : M OneDriveConnect ℤ := do
  let sizeNew := toLong (size + kvHeaderSize + value.length)
  if !(← malloc (toSize sizeNew).toNat) then
    return toInt (hiveGeneralError HIVEERR_OUT_OF_MEMORY)
  let zeros : Bytes := List.replicate (toSize sizeNew).toNat 0
  let content : Except ℤ Bytes ←
    if 0 < size then do
      let (exit, buf) ← getFileToBufferAt path zeros (toSize size).toNat
      let rc := toInt exit.ssize
      if rc < 0 then
        pure (.error rc)
      else if rc ≠ toInt size then
        pure (.error (toInt (hiveGeneralError HIVEERR_INVALID_PERSISTENCE_FILE)))
      else pure (.ok buf)
    else pure (.ok zeros)
  storeContent path value size content

/-- `put_value`. -/
def putValue (key value : Bytes) : M OneDriveConnect ℤ := do
  let path := (snprintfPath KEYS_DIR key).1
  match sizeOrAbsent (← getFileLengthAt path).ssize with
  | .error rc => return rc
  | .ok size => putSized path value size

/-- `set_value`. -/
def setValue (key value : Bytes) : M OneDriveConnect ℤ := do
  let path := (snprintfPath KEYS_DIR key).1
  if !(← malloc (kvHeaderSize + value.length)) then
    return toInt (hiveGeneralError HIVEERR_OUT_OF_MEMORY)
  putFileFromBufferAt path (kvEntry value)

/-- The loop of `get_values`: `kv` is the block from the current entry on, `dataLen` what the
code takes to be left of it. -/
def getValuesLoop (key kv : Bytes) (dataLen : ℤ) : M OneDriveConnect ℤ :=
  if _h : kv.length < kvHeaderSize then crash .bufferOverrun
  else
    let valLen := ntohl kv
    if HIVE_MAX_VALUE_LEN < valLen then
      return toInt (hiveGeneralError HIVEERR_BAD_PERSISTENT_DATA)
    else
      let entryLen := kvHeaderSize + valLen
      let dataLen := toLong (dataLen - entryLen)
      if dataLen < 0 ∨ 0 < dataLen ∧ dataLen ≤ kvHeaderSize then
        return toInt (hiveGeneralError HIVEERR_BAD_PERSISTENT_DATA)
      else if kv.length < entryLen then crash .bufferOverrun
      else do
        let proceed ← valuesCallback key ((kv.drop kvHeaderSize).take valLen)
        if dataLen = 0 ∨ !proceed then
          return 0
        getValuesLoop key (kv.drop entryLen) dataLen
  termination_by kv.length
  decreasing_by
    simp only [List.length_drop, kvHeaderSize] at *
    omega

/-- `get_values`, from the length of the file on. -/
def getSized (path key : Bytes) (dataLen : ℤ) : M OneDriveConnect ℤ := do
  if 0 < dataLen ∧ dataLen ≤ kvHeaderSize then
    return toInt (hiveGeneralError HIVEERR_BAD_PERSISTENT_DATA)
  if dataLen = 0 then
    return 0
  if !(← malloc (toSize dataLen).toNat) then
    return toInt (hiveGeneralError HIVEERR_OUT_OF_MEMORY)
  let (exit, buf) ← getFileToBufferAt path (List.replicate (toSize dataLen).toNat 0)
    (toSize dataLen).toNat
  if exit.ssize < 0 then
    return toInt exit.ssize
  if exit.ssize ≠ dataLen then
    return toInt (hiveGeneralError HIVEERR_INVALID_PERSISTENCE_FILE)
  getValuesLoop key buf dataLen

/-- `get_values`. -/
def getValues (key : Bytes) : M OneDriveConnect ℤ := do
  let path := (snprintfPath KEYS_DIR key).1
  match sizeOrAbsent (← getFileLengthAt path).ssize with
  | .error rc => return rc
  | .ok dataLen => getSized path key dataLen

/-- `delete_key`. -/
def deleteKey (key : Bytes) : M OneDriveConnect ℤ := do
  let path := (snprintfPath KEYS_DIR key).1
  let rc ← deleteFileAt path
  if rc < 0 ∧ toUInt rc ≠ hiveHttpStatusError HttpStatus_NotFound then
    return rc
  return 0

/-- `expire_token`. -/
def expireToken : M OneDriveConnect ℤ := do
  oauthTokenSetExpired
  return 0

end OneDrive

end HiveSDK
