import HiveSDK.Interaction.Program
import HiveSDK.Model.Error

/-!
# The environment of the SDK

Everything the C code reads from outside its own memory is a `Call` with its `Reply`: the
clock, `errno`, the allocators that the code checks, HTTP requests (libcurl behind
`http_client.c`), cJSON's printer and parser, the file system, the redirect server and the
callbacks of the user. The code itself is a `Script` over these calls whose local memory is
the connection and the thread's `hive_error`.

Four conventions keep the translation close to the source.

* Strings are byte lists without the terminator; `NULL` is `none`.
* A reply to `httpClientPerform` holds what the caller can learn from
  `http_client_request`, `http_client_get_response_code` and the response body. The body is
  kept twice: as the chunks handed to the write callback, and as the document `cJSON_Parse`
  reads from the block that `http_client_move_response_body` returns (`none` when it
  returns `NULL`).
* Allocations that the code does not check (and those inside libcurl and cJSON other than
  the ones whose `NULL` the code tests) succeed.
* Undefined behaviour is a `Fault`. A run that faults returns nothing.
-/

namespace HiveSDK

open Interaction C

/-! ### Bytes -/

/-- A block of memory, or a string without its terminator. -/
abbrev Bytes := List UInt8

/-- The bytes of an ASCII string literal. -/
def ascii (s : String) : Bytes := s.toList.map fun c => UInt8.ofNat c.toNat

/-- `memcpy(block + off, data, data.length)`, or `none` when it leaves the block. -/
def memcpy (block : Bytes) (off : ℕ) (data : Bytes) : Option Bytes :=
  if off + data.length ≤ block.length then
    some (block.take off ++ data ++ block.drop (off + data.length))
  else none

/-- A copy to the end of what is already there fits if the room behind it does. -/
theorem memcpy_append (front room data : Bytes) :
    memcpy (front ++ room) front.length data =
      if data.length ≤ room.length then some (front ++ data ++ room.drop data.length)
      else none := by
  unfold memcpy
  rw [List.length_append, List.take_left, ← List.drop_drop, List.drop_left]
  simp only [Nat.add_le_add_iff_left]

/-- `strstr(haystack, needle) != NULL`. -/
def strstr (haystack needle : Bytes) : Bool :=
  haystack.tails.any needle.isPrefixOf

/-! ### JSON documents -/

/-- A document as cJSON holds it; a number is a `double`. -/
inductive Json
  | null
  | bool (b : Bool)
  | number (valuedouble : Double)
  | string (valuestring : Bytes)
  | array (items : List Json)
  | object (members : List (Bytes × Json))

namespace Json

/-- `cJSON_GetObjectItemCaseSensitive`. -/
def getObjectItemCaseSensitive : Json → Bytes → Option Json
  | object members, key => (members.find? fun m => m.1 = key).map Prod.snd
  | _, _ => none

/-- `tolower` on an ASCII byte. -/
def toLower (b : UInt8) : UInt8 := if 65 ≤ b ∧ b ≤ 90 then b + 32 else b

/-- `cJSON_GetObjectItem`, which compares names without regard to case. -/
def getObjectItem : Json → Bytes → Option Json
  | object members, key =>
    (members.find? fun m => m.1.map toLower = key.map toLower).map Prod.snd
  | _, _ => none

/-- The string of an item that is present and a string. -/
def string? : Option Json → Option Bytes
  | some (string s) => some s
  | _ => none

/-- The string of an item that is present, a string and not empty. -/
def nonemptyString? : Option Json → Option Bytes
  | some (string (b :: s)) => some (b :: s)
  | _ => none

/-- The value of an item that is present and a number. -/
def number? : Option Json → Option Double
  | some (number d) => some d
  | _ => none

/-- An item that is present and an object. -/
def object? : Option Json → Option Json
  | some (object members) => some (object members)
  | _ => none

theorem nonemptyString?_eq_some {item : Option Json} {s : Bytes} :
    nonemptyString? item = some s ↔ s ≠ [] ∧ item = some (string s) := by
  unfold nonemptyString?
  split
  · rw [Option.some.injEq, Option.some.injEq, Json.string.injEq]
    constructor
    · rintro rfl
      exact ⟨List.cons_ne_nil _ _, rfl⟩
    · exact fun h => h.2
  · rename_i hno
    refine iff_of_false nofun fun h => ?_
    obtain ⟨b, rest, rfl⟩ := List.exists_cons_of_ne_nil h.1
    exact hno b rest h.2

theorem number?_eq_some {item : Option Json} {d : Double} :
    number? item = some d ↔ item = some (number d) := by
  unfold number?
  split
  · rw [Option.some.injEq, Option.some.injEq, Json.number.injEq]
  · rename_i hno
    exact iff_of_false nofun fun h => hno d h

theorem object?_eq_some {item : Option Json} {json : Json} :
    object? item = some json ↔ ∃ members, json = object members ∧ item = some json := by
  unfold object?
  split
  · rename_i members
    constructor
    · intro h
      obtain rfl := Option.some.inj h
      exact ⟨members, rfl, rfl⟩
    · rintro ⟨_, -, h⟩
      exact h
  · rename_i hno
    refine iff_of_false nofun ?_
    rintro ⟨members, rfl, h⟩
    exact hno members h

end Json

/-! ### HTTP -/

/-- A libcurl result code; `0` is `CURLE_OK`. -/
abbrev CurlCode := Fin 128

instance curlCode_neZero : NeZero 128 := ⟨by decide⟩

instance httpStatus_neZero : NeZero 1000 := ⟨by decide⟩

inductive HttpMethod
  | get
  | post
  | put
  | delete
  deriving DecidableEq, Repr

/-- The request headers the SDK sets. -/
inductive HttpHeader
  | contentType (value : Bytes)
  | authorization (value : Bytes)
  | contentLength (n : ℕ)
  | contentRange (first last total : ℕ)
  | transferEncoding (value : Bytes)
  | expect (value : Bytes)
  deriving DecidableEq, Repr

/-- A request as it is handed to `http_client_request`: the URL string given to
`http_client_set_url`, the query appended by `http_client_set_query`, the headers and the
body. -/
structure HttpRequest where
  method : HttpMethod
  url : Bytes
  query : List (Bytes × Bytes) := []
  headers : List HttpHeader := []
  body : Bytes := []
  deriving DecidableEq, Repr

/-- The request carries the Authorization header. -/
def HttpRequest.Authorized (r : HttpRequest) : Prop :=
  ∃ token, HttpHeader.authorization token ∈ r.headers

/-- What a request comes back with. `performed` is the result of `curl_easy_perform`,
`info` that of reading the response code; a status line has three digits. -/
structure HttpReply where
  performed : CurlCode
  info : CurlCode
  status : Fin 1000
  chunks : List Bytes
  parsed : Option Json

/-- All body bytes received, in order. -/
def HttpReply.received (r : HttpReply) : Bytes := r.chunks.flatten

/-- The status the caller reads, or the error it returns when the transfer failed or the
response code cannot be read. -/
def HttpReply.answer (r : HttpReply) : Except ℤ ℕ :=
  if r.performed ≠ 0 then .error (hiveCurlError r.performed)
  else if r.info ≠ 0 then .error (hiveCurlError r.info)
  else .ok r.status

/-- The error of a reply without a status is negative once it is an `int`. -/
theorem HttpReply.toInt_answer_neg {r : HttpReply} {e : ℤ} (h : r.answer = .error e) :
    toInt e < 0 := by
  unfold answer at h
  split at h
  · cases h; exact toInt_hiveCurlError_neg _
  split at h
  · cases h; exact toInt_hiveCurlError_neg _
  · cases h

/-- A reply counts as answered when the transfer and the query of the status succeed. -/
theorem HttpReply.answer_eq_ok {r : HttpReply} {status : ℕ} :
    r.answer = .ok status ↔ r.performed = 0 ∧ r.info = 0 ∧ (r.status : ℕ) = status := by
  unfold answer
  split
  · simp [*]
  split
  · simp [*]
  · simp_all

/-- The document the caller parses from the reply: none is read from an empty body. -/
def HttpReply.document (r : HttpReply) : Option Json :=
  if r.received = [] then none else r.parsed

/-- A transfer that succeeds and is answered 200. -/
def HttpReply.accepted (chunks : List Bytes) (parsed : Option Json) : HttpReply where
  performed := 0
  info := 0
  status := 200
  chunks := chunks
  parsed := parsed

def HttpStatus_OK : ℕ := 200
def HttpStatus_Created : ℕ := 201
def HttpStatus_NoContent : ℕ := 204
def HttpStatus_Unauthorized : ℕ := 401
def HttpStatus_NotFound : ℕ := 404

/-- The function that asks for an HTTP client. -/
inductive HttpClientUser
  | getAuthorizeCode
  | redeemAccessToken
  | refreshAccessToken
  | putFileFromBuffer
  | getFileLength
  | getFileToBuffer
  | deleteFile
  | listFiles
  | testReachable
  | ipfsPutFileFromBuffer
  | ipfsGetFileLength
  | ipfsGetFileToBuffer
  deriving DecidableEq, Repr

/-! ### Clock, files, redirect server -/

/-- `struct timeval`. -/
structure Timeval where
  sec : ℤ
  usec : ℤ
  deriving DecidableEq, Repr

/-- `timercmp(a, b, >)`. -/
def Timeval.after (a b : Timeval) : Bool :=
  if a.sec = b.sec then decide (b.usec < a.usec) else decide (b.sec < a.sec)

/-- `timeradd(a, b)`. -/
def Timeval.add (a b : Timeval) : Timeval :=
  if 1000000 ≤ a.usec + b.usec then
    ⟨toLong (a.sec + b.sec + 1), a.usec + b.usec - 1000000⟩
  else ⟨toLong (a.sec + b.sec), a.usec + b.usec⟩

inductive FileStat
  | directory
  | file (size : ℕ)
  deriving DecidableEq, Repr

inductive OpenMode
  | readOnly
  /-- `O_WRONLY | O_TRUNC | O_CREAT` -/
  | writeTruncate
  /-- `O_WRONLY | O_CREAT | O_EXCL` -/
  | writeExclusive
  deriving DecidableEq, Repr

/-- An event of the sandbird server. A request carries its decoded path and the decoded
value of its `code` variable, if it has one. -/
inductive SbEvent
  | request (path : Bytes) (code : Option Bytes)
  | close
  | other
  deriving DecidableEq, Repr

/-- The parts of a URL read back from libcurl's URL interface. -/
inductive UrlPart
  | url
  | host
  | port
  | path
  deriving DecidableEq, Repr

/-! ### Calls -/

/-- Undefined behaviour. -/
inductive Fault
  | nullDereference
  | bufferOverrun
  | urlOverrun
  | assertion
  /-- A block that is not live is released or written to, or written past its end. -/
  | danglingPointer
  deriving DecidableEq, Repr

/-- What the code asks of its environment. A file descriptor is named by the path it was
opened on: each function opens one file and closes it before it returns. -/
inductive Call
  | gettimeofday
  | errno
  | rand
  /-- `malloc`, `calloc`, `strdup`, `rc_zalloc` of so many bytes. -/
  | malloc (size : ℕ)
  | httpClientNew (user : HttpClientUser)
  | httpClientEscape (data : Bytes)
  | httpClientPerform (request : HttpRequest)
  | curlUrlGet (part : UrlPart) (url : Bytes) (query : List (Bytes × Bytes))
  | cJSON_CreateObject
  | cJSON_CreateArray
  /-- Release the document parsed from the reply numbered `page`. -/
  | cJSON_Delete (page : ℕ)
  | cJSON_Print (json : Json)
  | cJSON_Parse (text : Bytes)
  | access (path : Bytes)
  | stat (path : Bytes)
  | mkdir (path : Bytes)
  | openFile (path : Bytes) (mode : OpenMode)
  | lseekEnd (path : Bytes)
  | read (path : Bytes) (size : ℕ)
  | write (path data : Bytes)
  | unlink (path : Bytes)
  | valuesCallback (key value : Bytes)
  | filesCallback (name : Option Bytes)
  | sbNewServer (host port : Bytes)
  | pthreadCreate (url : Bytes)
  /-- The successive calls of `sb_poll_server`: the events each of them handles. -/
  | sbPollServer
  /-- A wait that does not end. -/
  | block

/-- The type of the reply. An allocation answers whether it succeeded; a system call
answers its error code or its result. -/
@[reducible] def Call.Reply : Call → Type
  | gettimeofday => Timeval
  | errno => ℤ
  | rand => ℕ
  | malloc _ => Bool
  | httpClientNew _ => Bool
  | httpClientEscape _ => Option Bytes
  | httpClientPerform _ => HttpReply
  | curlUrlGet _ _ _ => Except ℤ Bytes
  | cJSON_CreateObject => Bool
  | cJSON_CreateArray => Bool
  | cJSON_Delete _ => Unit
  | cJSON_Print _ => Option Bytes
  | cJSON_Parse _ => Option Json
  | access _ => Bool
  | stat _ => Except ℤ FileStat
  | mkdir _ => Except ℤ Unit
  | openFile _ _ => Except ℤ Unit
  | lseekEnd _ => ℤ
  | read _ _ => Except ℤ Bytes
  | write _ _ => Except ℤ ℕ
  | unlink _ => Except ℤ Unit
  | valuesCallback _ _ => Bool
  | filesCallback _ => Bool
  | sbNewServer _ _ => Bool
  | pthreadCreate _ => ℤ
  | sbPollServer => List (List SbEvent)
  | block => Empty

/-- The memory of a thread working on a connection: the connection and the thread-local
`hive_error`. -/
structure Thread (C : Type) where
  conn : C
  hiveError : ℤ

/-- A translated function. -/
abbrev M (C : Type) := Script (Thread C) Call Call.Reply Fault

/-- One call with its reply. -/
abbrev CallEvent := Event Call Call.Reply

/-- Any fault, and any state it is reached in. -/
abbrev anyFault {σ : Type} : Fault → σ → Prop := fun _ _ => True

/-- No fault is allowed. -/
abbrev noFault {σ : Type} : Fault → σ → Prop := fun _ _ => False

section Calls

variable {C : Type}

abbrev gettimeofday : M C Timeval := ask Call.gettimeofday
abbrev errno : M C ℤ := ask Call.errno
abbrev rand : M C ℕ := ask Call.rand
abbrev malloc (size : ℕ) : M C Bool := ask (Call.malloc size)
abbrev httpClientNew (user : HttpClientUser) : M C Bool := ask (Call.httpClientNew user)
abbrev httpClientEscape (data : Bytes) : M C (Option Bytes) := ask (Call.httpClientEscape data)
abbrev httpClientPerform (request : HttpRequest) : M C HttpReply :=
  ask (Call.httpClientPerform request)
abbrev curlUrlGet (part : UrlPart) (url : Bytes) (query : List (Bytes × Bytes)) :
    M C (Except ℤ Bytes) := ask (Call.curlUrlGet part url query)
abbrev cJSON_CreateObject : M C Bool := ask Call.cJSON_CreateObject
abbrev cJSON_CreateArray : M C Bool := ask Call.cJSON_CreateArray
abbrev cJSON_Delete (page : ℕ) : M C Unit := ask (Call.cJSON_Delete page)
abbrev cJSON_Print (json : Json) : M C (Option Bytes) := ask (Call.cJSON_Print json)
abbrev cJSON_Parse (text : Bytes) : M C (Option Json) := ask (Call.cJSON_Parse text)
abbrev access (path : Bytes) : M C Bool := ask (Call.access path)
abbrev stat (path : Bytes) : M C (Except ℤ FileStat) := ask (Call.stat path)
abbrev mkdir (path : Bytes) : M C (Except ℤ Unit) := ask (Call.mkdir path)
abbrev openFile (path : Bytes) (mode : OpenMode) : M C (Except ℤ Unit) :=
  ask (Call.openFile path mode)
abbrev lseekEnd (path : Bytes) : M C ℤ := ask (Call.lseekEnd path)
abbrev read (path : Bytes) (size : ℕ) : M C (Except ℤ Bytes) := ask (Call.read path size)
abbrev write (path data : Bytes) : M C (Except ℤ ℕ) := ask (Call.write path data)
abbrev unlink (path : Bytes) : M C (Except ℤ Unit) := ask (Call.unlink path)
abbrev valuesCallback (key value : Bytes) : M C Bool := ask (Call.valuesCallback key value)
abbrev filesCallback (name : Option Bytes) : M C Bool := ask (Call.filesCallback name)
abbrev sbNewServer (host port : Bytes) : M C Bool := ask (Call.sbNewServer host port)
abbrev pthreadCreate (url : Bytes) : M C ℤ := ask (Call.pthreadCreate url)
abbrev sbPollServer : M C (List (List SbEvent)) := ask Call.sbPollServer

/-- Wait for ever. -/
def block {α : Type} : M C α := ask Call.block >>= fun e => e.elim

/-- Undefined behaviour. -/
abbrev crash {α : Type} (e : Fault) : M C α := Script.fault e

/-- `hive_set_error`. -/
abbrev hiveSetError (e : ℤ) : M C Unit := modify fun s => { s with hiveError := e }

/-- `hive_get_error`. -/
abbrev hiveGetError : M C ℤ := do return (← get).hiveError

/-- `http_client_move_response_body(httpc, NULL)` followed by `cJSON_Parse`. With no byte
received the former stores through its `NULL` argument. -/
def moveAndParse (reply : HttpReply) : M C (Option Json) :=
  if reply.received = [] then crash .nullDereference else pure reply.parsed

/-- `sprintf(url, …)` into an array of `MAX_URL_LEN` bytes. -/
def sprintfUrl (url : Bytes) : M C Bytes :=
  if url.length < 1024 then pure url else crash .urlOverrun

variable {σ : Type} {h : Handler σ Call Call.Reply} {F : Fault → σ → Prop} {s : Thread C} {w : σ}

@[simp] theorem wp_moveAndParse {reply : HttpReply} {Q : Option Json → Thread C → σ → Prop} :
    Script.wp h F (moveAndParse reply) Q s w ↔
      (reply.received = [] → F .nullDereference w) ∧
      (reply.received ≠ [] → Q reply.parsed s w) := by
  simp only [moveAndParse, Script.wp_ite, Script.wp_fault, Script.wp_pure, ne_eq]

@[simp] theorem wp_sprintfUrl {url : Bytes} {Q : Bytes → Thread C → σ → Prop} :
    Script.wp h F (sprintfUrl url) Q s w ↔
      (url.length < 1024 → Q url s w) ∧ (1024 ≤ url.length → F .urlOverrun w) := by
  simp only [sprintfUrl, Script.wp_ite, Script.wp_fault, Script.wp_pure, not_lt]

end Calls

end HiveSDK
