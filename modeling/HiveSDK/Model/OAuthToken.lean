import HiveSDK.Model.Environment

/-!
# OAuth tokens

The functions of `oauth_token.c`, with `oauth_writeback` of `onedrive.c`, the only
writeback callback they are given. The token object lives inside the OneDrive connection,
whose `keystore_path` is the callback's user data.

The redirect server runs on the caller's thread: its handler stores the authorization code
and may set the thread's `hive_error`. Both are threaded through `waitRedirect`, which
handles the events of one `sb_poll_server` call after the other until a stream has closed.
-/

namespace HiveSDK

open Interaction C

/-- `struct oauth_token`. -/
structure OAuthToken where
  authorizeUrl : Bytes
  tokenUrl : Bytes
  clientId : Bytes
  scope : Bytes
  redirectUrl : Bytes
  tokenType : Option Bytes := none
  accessToken : Option Bytes := none
  refreshToken : Option Bytes := none
  expiresAt : Timeval := ⟨0, 0⟩

/-- `struct OneDriveConnect`. -/
structure OneDriveConnect where
  token : OAuthToken
  keystorePath : Bytes

/-- Update the token of the connection. -/
abbrev modifyToken (f : OAuthToken → OAuthToken) : M OneDriveConnect Unit :=
  modify fun s => { s with conn := { s.conn with token := f s.conn.token } }

/-- The token of the connection. -/
abbrev getToken : M OneDriveConnect OAuthToken := do return (← get).conn.token

/-! ### The keystore -/

/-- `oauth_writeback`. The count given to `write` is an `int`, and so is what becomes of its
result. -/
def oauthWriteback (json : Json) : M OneDriveConnect ℤ := do
  match ← cJSON_Print json with
  | none => return toInt (hiveGeneralError HIVEERR_OUT_OF_MEMORY)
  | some [] => return toInt (hiveGeneralError HIVEERR_OUT_OF_MEMORY)
  | some text =>
    let path := (← get).conn.keystorePath
    match ← openFile path .writeTruncate with
    | .error e => return toInt (hiveSysError e)
    | .ok _ =>
      let count := toInt (toInt text.length + 1)
      let bytes ← write path ((text ++ [0]).take count.toNat)
      let bytes := match bytes with
        | .ok n => toInt n
        | .error _ => -1
      if bytes ≠ count then
        return toInt (hiveSysError (← errno))
      return 0

/-- The object `writeback_tokens` builds from a token that holds its three strings. -/
def keystoreTokens (clientId tokenType accessToken refreshToken : Bytes) (expiresAt : ℤ) :
    Json :=
  .object [
    (ascii "client_id", .string clientId),
    (ascii "token_type", .string tokenType),
    (ascii "access_token", .string accessToken),
    (ascii "refresh_token", .string refreshToken),
    (ascii "expires_at", .number (longToDouble expiresAt))]

/-- `writeback_tokens`. -/
def writebackTokens : M OneDriveConnect Unit := do
  let token ← getToken
  if !(← cJSON_CreateObject) then
    return
  match token.tokenType, token.accessToken, token.refreshToken with
  | none, _, _ =>
    let _ ← oauthWriteback (.object [(ascii "client_id", .string token.clientId)])
  | some tokenType, some accessToken, some refreshToken =>
    let _ ← oauthWriteback (keystoreTokens token.clientId tokenType accessToken refreshToken
      token.expiresAt.sec)
  | some _, _, _ => crash .assertion

/-- `oauth_token_reset`, up to the writeback. -/
def resetTokens : M OneDriveConnect Unit := do
  if (← getToken).tokenType = none then
    crash .assertion
  modifyToken fun t => { t with tokenType := none, accessToken := none, refreshToken := none }

/-- `oauth_token_reset`. -/
def oauthTokenReset : M OneDriveConnect ℤ := do
  resetTokens
  writebackTokens
  return 0

/-- `restore_access_token`. -/
def restoreAccessToken (json : Option Json) : M OneDriveConnect ℤ := do
  let token ← getToken
  match json with
  | none => return 0
  | some json =>
    if Json.string? (json.getObjectItem (ascii "client_id")) ≠ some token.clientId then
      return toInt (hiveGeneralError HIVEERR_BAD_PERSISTENT_DATA)
    match Json.string? (json.getObjectItem (ascii "token_type")),
        Json.string? (json.getObjectItem (ascii "access_token")),
        Json.string? (json.getObjectItem (ascii "refresh_token")),
        Json.number? (json.getObjectItem (ascii "expires_at")) with
    | some tokenType, some accessToken, some refreshToken, some expiresAt =>
      let memLen := tokenType.length + 1 + (accessToken.length + 1) + (refreshToken.length + 1)
      modifyToken fun t => { t with expiresAt := ⟨expiresAt.toLong, t.expiresAt.usec⟩ }
      if !(← malloc memLen) then
        return toInt (hiveSysError (← errno))
      modifyToken fun t => { t with
        tokenType := some tokenType
        accessToken := some accessToken
        refreshToken := some refreshToken }
      return 0
    | _, _, _, _ => return 0

/-! ### The redirect server -/

/-- What the redirect handler works on. -/
structure Redirect where
  stopped : Bool
  code : Bytes
  hiveError : ℤ
  deriving DecidableEq, Repr

/-- The size of the authorization code buffer in `oauth_token_request`. -/
def authorizeCodeSize : ℕ := 512

/-- `sb_get_var(stream, "code", dst, len)`: whether it reports success, and what it
stores. -/
def sbGetVar (value : Option Bytes) (len : ℕ) : Bool × Bytes :=
  match value with
  | none => (false, [])
  | some v => if len - 1 ≤ v.length then (false, v.take (len - 1)) else (true, v)

/-- `handle_auth_redirect`. -/
def handleAuthRedirect (path : Bytes) (r : Redirect) : SbEvent → Redirect
  | .close => { r with stopped := true }
  | .other => r
  | .request requestPath value =>
    if requestPath ≠ path then
      { r with hiveError := toInt (hiveGeneralError HIVEERR_BAD_ADDRESS) }
    else
      match sbGetVar value authorizeCodeSize with
      | (true, code) => { r with code := code }
      | (false, code) =>
        { r with code := code, hiveError := toInt (hiveGeneralError HIVEERR_INVALID_CREDENTIAL) }

/-- `while (!stopped) sb_poll_server(…)`; `none` when the recorded polls end before a stream
has closed. -/
def waitRedirect (path : Bytes) (r : Redirect) : List (List SbEvent) → Option Redirect
  | [] => if r.stopped then some r else none
  | poll :: polls =>
    if r.stopped then some r
    else waitRedirect path (poll.foldl (handleAuthRedirect path) r) polls

/-- The string in a buffer: the bytes before the first `0`. -/
def cString (buf : Bytes) : Bytes := buf.takeWhile (· ≠ 0)

/-- The end of `get_authorize_code`, on what the wait for the redirect gives. -/
def afterRedirect : Option Redirect → M OneDriveConnect (Option Bytes)
  | none => block
  | some r => do
    hiveSetError r.hiveError
    return if cString r.code = [] then none else some (cString r.code)

/-- `get_authorize_code`. -/
def getAuthorizeCode : M OneDriveConnect (Option Bytes) := do
  let token ← getToken
  if !(← httpClientNew .getAuthorizeCode) then
    hiveSetError (toInt (hiveGeneralError HIVEERR_OUT_OF_MEMORY))
    return none
  let query := [
    (ascii "client_id", token.clientId),
    (ascii "scope", token.scope),
    (ascii "redirect_uri", token.redirectUrl),
    (ascii "response_type", ascii "code")]
  match ← curlUrlGet .url token.authorizeUrl query with
  | .error rc => hiveSetError (toInt (hiveCurluError rc)); return none
  | .ok url =>
  match ← curlUrlGet .host token.redirectUrl [] with
  | .error rc => hiveSetError (toInt (hiveCurluError rc)); return none
  | .ok redirectHost =>
  match ← curlUrlGet .port token.redirectUrl [] with
  | .error rc => hiveSetError (toInt (hiveCurluError rc)); return none
  | .ok redirectPort =>
  match ← curlUrlGet .path token.redirectUrl [] with
  | .error rc => hiveSetError (toInt (hiveCurluError rc)); return none
  | .ok redirectPath =>
  -- a server that cannot be created leaves `hive_error` as it was
  if !(← sbNewServer redirectHost redirectPort) then
    return none
  if (← pthreadCreate url) ≠ 0 then
    hiveSetError (toInt (hiveSysError (← errno)))
    return none
  afterRedirect (waitRedirect redirectPath ⟨false, [], ← hiveGetError⟩ (← sbPollServer))

/-! ### Token requests -/

/-- `decode_access_token` on a parsed reply body. -/
def decodeAccessToken (json : Option Json) : M OneDriveConnect ℤ := do
  let badJson := toInt (hiveGeneralError HIVEERR_BAD_JSON_FORMAT)
  match json with
  | none => return badJson
  | some json =>
  match Json.nonemptyString? (json.getObjectItemCaseSensitive (ascii "token_type")) with
  | none => return badJson
  | some tokenType =>
  if !(← malloc (tokenType.length + 1)) then
    return toInt (hiveSysError (← errno))
  match Json.nonemptyString? (json.getObjectItemCaseSensitive (ascii "scope")) with
  | none => return badJson
  | some _ =>
  match Json.nonemptyString? (json.getObjectItemCaseSensitive (ascii "access_token")) with
  | none => return badJson
  | some accessToken =>
  if !(← malloc (accessToken.length + 1)) then
    return toInt (hiveSysError (← errno))
  match Json.nonemptyString? (json.getObjectItemCaseSensitive (ascii "refresh_token")) with
  | none => return badJson
  | some refreshToken =>
  if !(← malloc (refreshToken.length + 1)) then
    return toInt (hiveSysError (← errno))
  match Json.number? (json.getObjectItemCaseSensitive (ascii "expires_in")) with
  | none => return badJson
  | some expiresIn =>
  if expiresIn.toLong < 0 then
    return badJson
  let now ← gettimeofday
  modifyToken fun t => { t with
    tokenType := some tokenType
    accessToken := some accessToken
    refreshToken := some refreshToken
    expiresAt := now.add ⟨expiresIn.toLong, 0⟩ }
  return 0

/-- Escape the two fields common to both token requests and a third one, whose length is
taken with `strlen`. -/
def escapeFields (clientId redirectUrl : Bytes) (third : Option Bytes) :
    M OneDriveConnect (Option (Bytes × Bytes × Bytes)) := do
  match ← httpClientEscape clientId with
  | none => return none
  | some clientId =>
  match ← httpClientEscape redirectUrl with
  | none => return none
  | some redirectUri =>
  match third with
  | none => crash .nullDereference
  | some third =>
  match ← httpClientEscape third with
  | none => return none
  | some third => return some (clientId, redirectUri, third)

/-- `redeem_access_token`. The test of `http_client_get_response_code` is `rc < 0`, which no
libcurl code satisfies; the status then keeps its initial `0`. -/
def redeemAccessToken (code : Bytes) : M OneDriveConnect ℤ := do
  let token ← getToken
  if !(← httpClientNew .redeemAccessToken) then
    return toInt (hiveGeneralError HIVEERR_OUT_OF_MEMORY)
  match ← escapeFields token.clientId token.redirectUrl (some code) with
  | none => return toInt (hiveGeneralError HIVEERR_OUT_OF_MEMORY)
  | some (clientId, redirectUri, code) =>
  let body := ascii "client_id=" ++ clientId ++ ascii "&redirect_uri=" ++ redirectUri ++
    ascii "&code=" ++ code ++ ascii "&grant_type=authorization_code"
  if 512 ≤ body.length then
    return toInt (hiveGeneralError HIVEERR_BUFFER_TOO_SMALL)
  let reply ← httpClientPerform { method := .post, url := token.tokenUrl, body := body }
  if reply.performed ≠ 0 then
    return toInt (hiveCurlError reply.performed)
  let status : ℕ := if reply.info = 0 then reply.status else 0
  if status ≠ HttpStatus_OK then
    return toInt (hiveHttpStatusError status)
  decodeAccessToken (← moveAndParse reply)

/-- `oauth_token_request`. -/
def oauthTokenRequest : M OneDriveConnect ℤ := do
  if (← getToken).accessToken.isSome then
    return 0
  match ← getAuthorizeCode with
  | none => hiveGetError
  | some code =>
    let rc ← redeemAccessToken code
    if rc < 0 then
      return rc
    writebackTokens
    return 0

/-- The body `refresh_access_token` sends, from its escaped fields. -/
def refreshBody (clientId redirectUri refreshToken : Bytes) : Bytes :=
  ascii "client_id=" ++ clientId ++ ascii "&redirect_uri=" ++ redirectUri ++
    ascii "&refresh_token=" ++ refreshToken ++ ascii "&grant_type=refresh_token"

/-- `refresh_access_token`. -/
def refreshAccessToken : M OneDriveConnect ℤ := do
  let token ← getToken
  if !(← httpClientNew .refreshAccessToken) then
    return toInt (hiveGeneralError HIVEERR_OUT_OF_MEMORY)
  match ← escapeFields token.clientId token.redirectUrl token.refreshToken with
  | none => return toInt (hiveGeneralError HIVEERR_OUT_OF_MEMORY)
  | some (clientId, redirectUri, refreshToken) =>
  let body := refreshBody clientId redirectUri refreshToken
  if 4096 ≤ body.length then
    return toInt (hiveGeneralError HIVEERR_BUFFER_TOO_SMALL)
  let reply ← httpClientPerform { method := .post, url := token.tokenUrl, body := body }
  match reply.answer with
  | .error e => return toInt e
  | .ok status =>
  if status ≠ HttpStatus_OK then
    return toInt (hiveHttpStatusError status)
  let rc ← decodeAccessToken (← moveAndParse reply)
  if rc < 0 then
    return rc
  writebackTokens
  return 0

/-! ### Expiry -/

/-- `oauth_token_set_expired`. -/
def oauthTokenSetExpired : M OneDriveConnect Unit :=
  modifyToken fun t => { t with expiresAt := ⟨0, 0⟩ }

/-- `oauth_token_is_expired`. -/
def oauthTokenIsExpired : M OneDriveConnect Bool := do
  let now ← gettimeofday
  return now.after (← getToken).expiresAt

/-- `oauth_token_check_expire`. -/
def oauthTokenCheckExpire : M OneDriveConnect ℤ := do
  if !(← oauthTokenIsExpired) then
    return 0
  let rc ← refreshAccessToken
  if rc < 0 then
    return rc
  return 0

/-- `get_bearer_token`, as an argument of `http_client_set_header`, which asserts it. -/
def getBearerToken : M OneDriveConnect Bytes := do
  match (← getToken).accessToken with
  | none => crash .nullDereference
  | some token => return token

section

variable {σ : Type} {h : Handler σ Call Call.Reply} {F : Fault → σ → Prop}
  {s : Thread OneDriveConnect} {w : σ}

/-- The thread after `oauth_token_set_expired`. -/
def Thread.expired (s : Thread OneDriveConnect) : Thread OneDriveConnect :=
  { s with conn := { s.conn with token := { s.conn.token with expiresAt := ⟨0, 0⟩ } } }

@[simp] theorem wp_oauthTokenSetExpired {Q : Unit → Thread OneDriveConnect → σ → Prop} :
    Script.wp h F oauthTokenSetExpired Q s w ↔ Q () s.expired w := Iff.rfl

@[simp] theorem wp_oauthTokenIsExpired {Q : Bool → Thread OneDriveConnect → σ → Prop} :
    Script.wp h F oauthTokenIsExpired Q s w ↔
      ∀ now w', h w .gettimeofday now w' → Q (now.after s.conn.token.expiresAt) s w' :=
  Iff.rfl

@[simp] theorem wp_getBearerToken {Q : Bytes → Thread OneDriveConnect → σ → Prop} :
    Script.wp h F getBearerToken Q s w ↔
      (∀ token, s.conn.token.accessToken = some token → Q token s w) ∧
      (s.conn.token.accessToken = none → F .nullDereference w) := by
  unfold getBearerToken
  simp only [Script.wp_bind, Script.wp_get, Script.wp_pure]
  split <;> simp_all

end

end HiveSDK
