import HiveSDK.Memory.Heap
import HiveSDK.Model.OAuthToken

/-!
# The memory of a token

The functions of `oauth_token.c` that move the three strings of a token, with the blocks they are
stored in: what they allocate, where the pointers point, and what is released on which exit.
Everywhere else the strings are only read.

A token that was restored holds one block for the three strings, one that was decoded holds three.
Either way `token_type` points at the start of a block and is the only pointer that is ever
released.
-/

namespace HiveSDK

open Interaction C
open Memory (Heap Pointer)

/-- The fields of `struct oauth_token` that change. -/
structure TokenFields where
  tokenType : Option Pointer := none
  accessToken : Option Pointer := none
  refreshToken : Option Pointer := none
  expiresAt : Timeval := ⟨0, 0⟩
  deriving DecidableEq

/-- A token and the heap that holds its strings. -/
structure TokenMemory where
  heap : Heap
  clientId : Bytes
  fields : TokenFields

namespace TokenMemory

/-- Work on the heap. -/
def onHeap (f : Heap → Option Heap) : M TokenMemory Unit := do
  match f (← get).conn.heap with
  | none => crash .danglingPointer
  | some heap => modify fun s => { s with conn := { s.conn with heap := heap } }

/-- Update the fields of the token. -/
abbrev modifyFields (f : TokenFields → TokenFields) : M TokenMemory Unit :=
  modify fun s => { s with conn := { s.conn with fields := f s.conn.fields } }

/-- A block with `data` in it, of the same size. -/
def allocate (data : Bytes) : M TokenMemory (Option Pointer) := do
  if !(← malloc data.length) then
    return none
  let p := (← get).conn.heap.fresh
  onHeap fun heap => some (heap.alloc data)
  return some p

/-- `strdup`. -/
def strdup (s : Bytes) : M TokenMemory (Option Pointer) := allocate (s ++ [0])

/-- `calloc(1, size)`. -/
def calloc (size : ℕ) : M TokenMemory (Option Pointer) := allocate (List.replicate size 0)

/-- `free`. -/
def free (p : Pointer) : M TokenMemory Unit := onHeap (·.free p)

/-- `strcpy`. -/
def strcpy (p : Pointer) (s : Bytes) : M TokenMemory Unit := onHeap (·.store p (s ++ [0]))

/-- `FREE(token->token_type)`. -/
def freeTokenType : M TokenMemory Unit := do
  match (← get).conn.fields.tokenType with
  | none => pure ()
  | some p => free p
  modifyFields fun t => { t with tokenType := none }

/-- `decode_access_token` on a parsed reply body. -/
def decodeAccessToken (json : Option Json) : M TokenMemory ℤ := do
  let badJson := toInt (hiveGeneralError HIVEERR_BAD_JSON_FORMAT)
  match json with
  | none => return badJson
  | some json =>
  match Json.nonemptyString? (json.getObjectItemCaseSensitive (ascii "token_type")) with
  | none => return badJson
  | some tokenTypeString =>
  match ← strdup tokenTypeString with
  | none => return toInt (hiveSysError (← errno))
  | some tokenType =>
  match Json.nonemptyString? (json.getObjectItemCaseSensitive (ascii "scope")) with
  | none =>
    free tokenType
    return badJson
  | some _ =>
  match Json.nonemptyString? (json.getObjectItemCaseSensitive (ascii "access_token")) with
  | none =>
    free tokenType
    return badJson
  | some accessTokenString =>
  match ← strdup accessTokenString with
  | none =>
    let rc := toInt (hiveSysError (← errno))
    free tokenType
    return rc
  | some accessToken =>
  match Json.nonemptyString? (json.getObjectItemCaseSensitive (ascii "refresh_token")) with
  | none =>
    free tokenType
    free accessToken
    return badJson
  | some refreshTokenString =>
  match ← strdup refreshTokenString with
  | none =>
    let rc := toInt (hiveSysError (← errno))
    free tokenType
    free accessToken
    return rc
  | some refreshToken =>
  match Json.number? (json.getObjectItemCaseSensitive (ascii "expires_in")) with
  | none =>
    free tokenType
    free accessToken
    free refreshToken
    return badJson
  | some expiresIn =>
  if expiresIn.toLong < 0 then
    free tokenType
    free accessToken
    free refreshToken
    return badJson
  else
    freeTokenType
    modifyFields fun t => { t with
      tokenType := some tokenType
      accessToken := some accessToken
      refreshToken := some refreshToken }
    let now ← gettimeofday
    modifyFields fun t => { t with expiresAt := now.add ⟨expiresIn.toLong, 0⟩ }
    return 0

/-- The end of `restore_access_token`: the strings are copied one after the other to where `p`
points. A string that has just been copied is as long as the one copied. -/
def copyStrings (p : Pointer) (tokenType accessToken refreshToken : Bytes) :
    M TokenMemory Unit := do
  modifyFields fun t => { t with tokenType := some p }
  strcpy p tokenType
  let p : Pointer := ⟨p.block, p.offset + (tokenType.length + 1)⟩
  modifyFields fun t => { t with accessToken := some p }
  strcpy p accessToken
  let p : Pointer := ⟨p.block, p.offset + (accessToken.length + 1)⟩
  modifyFields fun t => { t with refreshToken := some p }
  strcpy p refreshToken

/-- `restore_access_token`. -/
def restoreAccessToken (json : Option Json) : M TokenMemory ℤ := do
  match json with
  | none => return 0
  | some json =>
    if Json.string? (json.getObjectItem (ascii "client_id")) ≠ some (← get).conn.clientId then
      return toInt (hiveGeneralError HIVEERR_BAD_PERSISTENT_DATA)
    match Json.string? (json.getObjectItem (ascii "token_type")),
        Json.string? (json.getObjectItem (ascii "access_token")),
        Json.string? (json.getObjectItem (ascii "refresh_token")),
        Json.number? (json.getObjectItem (ascii "expires_at")) with
    | some tokenType, some accessToken, some refreshToken, some expiresAt =>
      let memLen := tokenType.length + 1 + (accessToken.length + 1) + (refreshToken.length + 1)
      modifyFields fun t => { t with expiresAt := ⟨expiresAt.toLong, t.expiresAt.usec⟩ }
      match ← calloc memLen with
      | none => return toInt (hiveSysError (← errno))
      | some p =>
        copyStrings p tokenType accessToken refreshToken
        return 0
    | _, _, _, _ => return 0

/-- `oauth_token_reset`, up to the writeback. -/
def oauthTokenReset : M TokenMemory Unit := do
  match (← get).conn.fields.tokenType with
  | none => crash .assertion
  | some p =>
    free p
    modifyFields fun t => { t with tokenType := none, accessToken := none, refreshToken := none }

/-- `oauth_token_set_expired`. -/
def oauthTokenSetExpired : M TokenMemory Unit :=
  modifyFields fun t => { t with expiresAt := ⟨0, 0⟩ }

/-- `oauth_token_destrcutor`. -/
def oauthTokenDestructor : M TokenMemory Unit := do
  match (← get).conn.fields.tokenType with
  | none => pure ()
  | some p => free p

end TokenMemory

end HiveSDK
