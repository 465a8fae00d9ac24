import HiveSDK.Model.OneDrive

/-!
# Opening a OneDrive connection

`onedrive_client_connect` with what it calls before a request is made: `mkdirs` for the
directory of the keystore, `load_keystore_in_json` and `oauth_token_new`.

The system calls of these functions report through `errno`, which is only read by
`onedrive_client_connect`; a failing call returns it as the value of the `Except`.
-/

namespace HiveSDK

open Interaction C

section Directories

variable {C : Type}

/-- `mkdir_internal`. `EEXIST` is no failure. -/
def mkdirInternal (path : Bytes) : M C (Except ℤ Unit) := do
  match ← stat path with
  | .error _ =>
    match ← mkdir path with
    | .ok _ => return .ok ()
    | .error e => if e = 17 then return .ok () else return .error e
  | .ok .directory => return .ok ()
  | .ok (.file _) => return .error 20

/-- The loop of `mkdirs`: `done` is what of the path lies before the pointer `pp`, `rest` what
lies from it on. Every slash that is not at `pp` ends a prefix that must be a directory. -/
def mkdirsLoop (done : Bytes) (component : Bytes) : Bytes → M C (Except ℤ Unit)
  | [] => return .ok ()
  | c :: rest => do
    if c ≠ 47 then
      mkdirsLoop done (component ++ [c]) rest
    else if component = [] then
      mkdirsLoop (done ++ [c]) [] rest
    else
      match ← mkdirInternal (done ++ component) with
      | .error e => return .error e
      | .ok _ => mkdirsLoop (done ++ component ++ [c]) [] rest

/-- `mkdirs`, or the `errno` it fails with. -/
def mkdirs (path : Bytes) : M C (Except ℤ Unit) := do
  match ← mkdirsLoop [] [] (path.take (PATH_MAX - 1)) with
  | .error e => return .error e
  | .ok _ => mkdirInternal path

end Directories

/-! ### The keystore -/

/-- The size of the buffer `load_keystore_in_json` reads into. -/
def keystoreBufferSize : ℕ := 4096

/-- `load_keystore_in_json`: the document, or the `errno` it fails with. -/
def loadKeystoreInJson (path : Bytes) : M OneDriveConnect (Except ℤ Json) := do
  match ← stat path with
  | .error e => return .error e
  | .ok st =>
    let size := match st with
      | .directory => keystoreBufferSize
      | .file size => size
    if size = 0 ∨ keystoreBufferSize < size then
      return .error 34
    match ← openFile path .readOnly with
    | .error e => return .error e
    | .ok _ =>
      match ← read path size with
      | .error e => return .error e
      | .ok text =>
        if text.length ≠ size then
          return .error (← errno)
        -- a full buffer without a terminator is read past its end
        if size = keystoreBufferSize ∧ 0 ∉ text then
          crash .bufferOverrun
        match ← cJSON_Parse (cString text) with
        | none => return .error 12
        | some json => return .ok json

/-! ### Connecting -/

/-- `OneDriveConnectOptions`; an absent option is `none`. -/
structure OneDriveConnectOptions where
  clientId : Option Bytes
  scope : Option Bytes
  redirectUrl : Option Bytes
  callback : Bool
  backendType : Bool

namespace OneDriveConnectOptions

/-- The three strings are present and not empty, the scope names the permission needed, the
callback is there and the backend is OneDrive. -/
def valid? (o : OneDriveConnectOptions) : Option (Bytes × Bytes × Bytes) :=
  match o.clientId, o.redirectUrl, o.scope with
  | some (c :: clientId), some (r :: redirectUrl), some (s :: scope) =>
    if strstr (s :: scope) (ascii "Files.ReadWrite.AppFolder") && o.callback && o.backendType then
      some (c :: clientId, r :: redirectUrl, s :: scope)
    else none
  | _, _, _ => none

end OneDriveConnectOptions

def AUTHORIZE_URL : Bytes := ascii "https://login.microsoftonline.com/common/oauth2/v2.0/authorize"
def TOKEN_URL : Bytes := ascii "https://login.microsoftonline.com/common/oauth2/v2.0/token"

/-- `sizeof(OneDriveConnect)`. -/
def oneDriveConnectSize : ℕ := 4224

/-- `sizeof(oauth_token_t)`. -/
def oauthTokenSize : ℕ := 96

/-- `snprintf` of `keystore_path`, `none` when the path does not fit. -/
def keystorePathOf (dataLocation : Bytes) : Option Bytes :=
  let path := dataLocation ++ ascii "/.data/onedrive.json"
  if path.length < PATH_MAX then some path else none

/-- `oauth_token_new`: the token holds the options, and what of the store is accepted. Its
result is not used; a store that is not accepted leaves the token empty. -/
def oauthTokenNew (store : Option Json) (clientId scope redirectUrl : Bytes) :
    M OneDriveConnect Bool := do
  let extraLen := AUTHORIZE_URL.length + TOKEN_URL.length + clientId.length + scope.length +
    redirectUrl.length + 5
  if !(← malloc (oauthTokenSize + extraLen)) then
    hiveSetError (toInt (hiveGeneralError HIVEERR_OUT_OF_MEMORY))
    return false
  modifyToken fun _ => {
    authorizeUrl := AUTHORIZE_URL
    tokenUrl := TOKEN_URL
    clientId := clientId
    scope := scope
    redirectUrl := redirectUrl }
  let _ ← restoreAccessToken store
  return true

/-- The keystore found at `path`: `some none` when there is none, `none` when it is refused. -/
def findKeystore (path : Bytes) : M OneDriveConnect (Option (Option Json)) := do
  if !(← access path) then
    return some none
  match ← loadKeystoreInJson path with
  | .error e =>
    hiveSetError (toInt (hiveSysError e))
    return none
  | .ok json => return some (some json)

/-- `onedrive_client_connect` from the test for the keystore on. -/
def connectWithKeystore (path clientId redirectUrl scope : Bytes) : M OneDriveConnect Bool := do
  match ← findKeystore path with
  | none => return false
  | some keystore =>
  if !(← oauthTokenNew keystore clientId scope redirectUrl) then
    return false
  let rc ← oauthTokenRequest
  if rc < 0 then
    return false
  return true

/-- `onedrive_client_connect`. The connection under construction is the thread's; the value
returned says whether it is handed out (`true`) or dropped and `NULL` returned. -/
def onedriveClientConnect (dataLocation : Bytes) (options : OneDriveConnectOptions) :
    M OneDriveConnect Bool := do
  match options.valid? with
  | none =>
    hiveSetError (toInt (hiveGeneralError HIVEERR_INVALID_ARGS))
    return false
  | some (clientId, redirectUrl, scope) =>
  if !(← malloc oneDriveConnectSize) then
    hiveSetError (toInt (hiveGeneralError HIVEERR_OUT_OF_MEMORY))
    return false
  match keystorePathOf dataLocation with
  | none =>
    hiveSetError (toInt (hiveGeneralError HIVEERR_INVALID_ARGS))
    return false
  | some path =>
  modify fun s => { s with conn := { s.conn with keystorePath := path } }
  match ← mkdirs (dirname path) with
  | .error e =>
    -- `EEXIST` never comes out of `mkdirs`, but the test is made
    if e ≠ 17 then
      hiveSetError (toInt (hiveSysError e))
      return false
    else connectWithKeystore path clientId redirectUrl scope
  | .ok _ => connectWithKeystore path clientId redirectUrl scope

end HiveSDK
