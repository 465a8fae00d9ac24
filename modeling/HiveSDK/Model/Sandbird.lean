import HiveSDK.Model.OAuthToken
import HiveSDK.Url.Authority

/-!
# The redirect server

`sandbird.c`, as far as `get_authorize_code` uses it: the functions that read a request from the
bytes of a stream, the buffers, the streams, and `sb_poll_server`, with `handle_auth_redirect` as
the handler of its events. `waitRedirect` takes the events as they come; here they are made.

A string is what lies before the first zero byte of a buffer, so the pointers that walk through it
are the bytes that are left. Of the sockets and the allocators only their answers are known
(`SbCall`). What `recv` returns one time after another in one call of `sb_stream_recv` is one
answer, and so is what `accept` returns; a loop that does not end is a question without an answer.
-/

namespace HiveSDK

open Interaction C Url

namespace Sandbird

/-! ### Strings -/

/-- `isspace`. -/
def isSpace (c : UInt8) : Bool := c = 32 || 9 ≤ c && c ≤ 13

/-- One of the bytes `"?& \t\r\n"`, at which `url_decode` stops. -/
def endsValue (c : UInt8) : Bool := c = 63 || c = 38 || c = 32 || c = 9 || c = 13 || c = 10

/-- One of the bytes `"& \t\r\n"`, at which a variable ends. -/
def endsVariable (c : UInt8) : Bool := c = 38 || c = 32 || c = 9 || c = 13 || c = 10

def crlf : Bytes := [13, 10]

/-- `str_to_uint`: `sscanf` with `%u`, which converts with `strtoul`. -/
def strToUint (str : Bytes) : ℕ :=
  let str := str.dropWhile isSpace
  let negative := str.head? = some 45
  let digits := (if negative ∨ str.head? = some 43 then str.tail else str).takeWhile isPortDigit
  let value := digitsValue digits
  if 2 ^ 64 ≤ value then (2 ^ 64 - 1) % 2 ^ 32
  else if negative then (2 ^ 64 - value) % 2 ^ 32
  else value % 2 ^ 32

/-- `hex_to_int`, of which only the lower bits are used. -/
def hexToInt (c : UInt8) : UInt8 := if isPortDigit c then c - 48 else Json.toLower c - 97 + 10

/-- The loop of `url_decode`: what is stored, and the room that is left. -/
def urlDecodeLoop : Bytes → ℕ → Bytes × ℕ
  | [], room => ([], room)
  | _, 0 => ([], 0)
  | c :: src, room + 1 =>
    if endsValue c then ([], room + 1)
    else if c = 37 then
      match src with
      | a :: b :: src =>
        let (dst, room) := urlDecodeLoop src room
        ((hexToInt a <<< 4 ||| hexToInt b) :: dst, room)
      | src =>
        let (dst, room) := urlDecodeLoop src room
        (37 :: dst, room)
    else
      let (dst, room) := urlDecodeLoop src room
      ((if c = 43 then 32 else c) :: dst, room)

/-- `url_decode` into a buffer of `len` bytes: whether it succeeds, and what it stores before the
terminator. Otherwise the result is truncated, or just fits. -/
def urlDecode (src : Bytes) (len : ℕ) : Bool × Bytes :=
  let (dst, room) := urlDecodeLoop src (len - 1)
  (decide (room ≠ 0), dst)

/-- `mem_case_equal` on the first bytes of a string. -/
def startsCase (str field : Bytes) : Bool :=
  (field.map Json.toLower).isPrefixOf (str.map Json.toLower)

/-- How the search for a header ends. -/
inductive HeaderScan
  | found (value : Bytes)
  | missing
  /-- It goes round without moving. -/
  | endless
  deriving DecidableEq, Repr

/-- The steps to the next line in `find_header_value`. -/
def skipLine (str : Bytes) : Bytes :=
  let str := str.dropWhile (· ≠ 13)
  if crlf.isPrefixOf str then str.drop 2 else str

/-- `find_header_value`. -/
def findHeaderValue (field str : Bytes) : HeaderScan :=
  if str = [] ∨ crlf.isPrefixOf str then .missing
  else if startsCase str field && str[field.length]? = some 58 then
    .found ((str.drop (field.length + 1)).dropWhile fun c => c = 32 || c = 9)
  else if (skipLine str).length < str.length then findHeaderValue field (skipLine str)
  else .endless
termination_by str.length

/-- `find_var_value`. -/
def findVarValue (name str : Bytes) : Option Bytes :=
  if name.isPrefixOf str && str[name.length]? = some 61 then some (str.drop (name.length + 1))
  else
    match hnext : str.dropWhile fun c => !endsVariable c with
    | 38 :: next =>
      have : next.length < str.length := by
        have hle := (List.dropWhile_suffix (fun c => !endsVariable c) (l := str)).length_le
        rw [hnext] at hle
        exact hle
      findVarValue name next
    | _ => none
termination_by str.length

/-- `sscanf(str, "%15s %n%*s %15s", method, &path_idx, ver)` where it assigns both: the method, the
string from `path_idx` on, and the version. -/
def scanRequestLine (str : Bytes) : Option (Bytes × Bytes × Bytes) :=
  let str := str.dropWhile isSpace
  let method := (str.takeWhile fun c => !isSpace c).take 15
  let target := (str.drop method.length).dropWhile isSpace
  let rest := (target.dropWhile fun c => !isSpace c).dropWhile isSpace
  let ver := (rest.takeWhile fun c => !isSpace c).take 15
  if method = [] ∨ ver = [] then none else some (method, target, ver)

/-! ### The sockets and the allocators -/

/-- What the server asks. A stream is named by its serial number. -/
inductive SbCall
  | realloc (size : ℕ)
  /-- `malloc` for a stream. -/
  | malloc
  | recv (stream : ℕ)
  | send (stream : ℕ) (data : Bytes)
  | select
  | time
  | accept
  /-- A loop that does not end. -/
  | loops

/-- The chunks that `recv` returns until it fails, and whether it then says that the client has
disconnected. -/
structure Received where
  chunks : List Bytes
  disconnected : Bool

/-- The streams, and whether the listening socket is, for which `select` returns. -/
structure Selected where
  readable : ℕ → Bool
  writable : ℕ → Bool
  listening : Bool

/-- The type of the answer. `send` answers how much was sent, or whether it would have blocked;
`accept` answers the sockets until there are no more. -/
@[reducible] def SbCall.Reply : SbCall → Type
  | realloc _ => Bool
  | malloc => Bool
  | recv _ => Received
  | send _ _ => Except Bool ℕ
  | select => Selected
  | time => ℕ
  | accept => List ℕ
  | loops => Empty

/-! ### Buffers -/

/-- `sb_Buffer`: the bytes that are in use, and how many are allocated. -/
structure Buffer where
  data : Bytes
  cap : ℕ
  length_le : data.length ≤ cap

namespace Buffer

def empty : Buffer := ⟨[], 0, Nat.le_refl 0⟩

/-- The size `sb_buffer_push_char` asks for when the buffer is full. -/
def grown (buf : Buffer) : ℕ := if buf.cap = 0 then 1 else 2 * buf.cap

/-- The buffer with one more byte, when there is room. -/
def snoc (buf : Buffer) (c : UInt8) (h : buf.data.length < buf.cap) : Buffer :=
  ⟨buf.data ++ [c], buf.cap, by rw [List.length_append]; exact h⟩

theorem length_lt_grown (buf : Buffer) : buf.data.length < buf.grown := by
  have := buf.length_le
  unfold grown
  split <;> omega

/-- The buffer after `sb_buffer_reserve` has succeeded. -/
def reserved (buf : Buffer) : Buffer := ⟨buf.data, buf.grown, buf.length_lt_grown.le⟩

/-- `buf->len = n`, where `n` is not more than it was. -/
def truncate (buf : Buffer) (n : ℕ) : Buffer :=
  ⟨buf.data.take n, buf.cap, (List.length_take_le' n buf.data).trans buf.length_le⟩

/-- `sb_buffer_shift`. -/
def shift (buf : Buffer) (n : ℕ) : Buffer :=
  ⟨buf.data.drop n, buf.cap, by rw [List.length_drop]; have := buf.length_le; omega⟩

end Buffer

/-! ### Streams -/

/-- The states of a stream, in their order. -/
inductive StreamState
  | receivingHeader
  | receivingRequest
  | sendingStatus
  | sendingHeader
  | sendingData
  | sendingFile
  | closing
  deriving DecidableEq, Repr

/-- `st->state < STATE_SENDING_STATUS`. -/
def StreamState.receiving : StreamState → Bool
  | receivingHeader | receivingRequest => true
  | _ => false

/-- `struct sb_Stream`. No file is ever sent. -/
structure Stream where
  serial : ℕ
  sockfd : ℕ
  state : StreamState := .receivingHeader
  initTime : ℕ
  lastActivity : ℕ
  expectedRecvLen : ℕ := 0
  dataIdx : ℕ := 0
  recvBuf : Buffer := .empty
  sendBuf : Buffer := .empty

inductive EventType
  | connect
  | close
  | request (method path : Bytes)

/-- `struct sb_Event`. -/
structure Event where
  type : EventType
  stream : Stream

/-- `struct sb_Server`, with what the handler of its events works on and the events emitted so
far. The fields have the values `sb_new_server` gives them without options. -/
structure Server where
  sockfd : ℕ
  streams : List Stream := []
  now : ℕ := 0
  timeout : ℕ := 30000
  maxLifetime : ℕ := 0
  maxRequestSize : ℕ := 0
  nextSerial : ℕ := 0
  redirect : Redirect
  emitted : List Event := []

/-- A translated function of the server. -/
abbrev S := Script Server SbCall SbCall.Reply Fault

abbrev realloc (size : ℕ) : S Bool := ask (SbCall.realloc size)
abbrev malloc : S Bool := ask SbCall.malloc
abbrev recv (stream : ℕ) : S Received := ask (SbCall.recv stream)
abbrev send (stream : ℕ) (data : Bytes) : S (Except Bool ℕ) := ask (SbCall.send stream data)
abbrev select : S Selected := ask SbCall.select
abbrev time : S ℕ := ask SbCall.time
abbrev accept : S (List ℕ) := ask SbCall.accept

/-- Go round for ever. -/
def loops {α : Type} : S α := ask SbCall.loops >>= fun e => e.elim

/-- The errors that occur. -/
inductive SbError
  | outOfMemory
  | badState
  | fdTooBig
  deriving DecidableEq, Repr

/-- `sb_buffer_push_char`: whether it succeeds, and the buffer. -/
def bufferPushChar (buf : Buffer) (c : UInt8) : S (Bool × Buffer) := do
  if h : buf.data.length < buf.cap then
    return (true, buf.snoc c h)
  if !(← realloc buf.grown) then
    return (false, buf)
  return (true, buf.reserved.snoc c buf.length_lt_grown)

/-- `sb_buffer_push_str`: what has been pushed is taken back when it fails. -/
def bufferPushStr (buf : Buffer) : Bytes → S (Bool × Buffer)
  | [] => return (true, buf)
  | c :: p => do
    let (ok, grown) ← bufferPushChar buf c
    if !ok then
      return (false, grown)
    let (ok, pushed) ← bufferPushStr grown p
    if !ok then
      return (false, pushed.truncate buf.data.length)
    return (true, pushed)

/-- `sb_buffer_null_terminate`: the terminator lies behind the bytes in use. -/
def bufferNullTerminate (buf : Buffer) : S (Bool × Buffer) := do
  if buf.data.length < buf.cap then
    return (true, buf)
  if !(← realloc buf.grown) then
    return (false, buf)
  return (true, buf.reserved)

/-- `sb_send_status`. -/
def sendStatus (st : Stream) (code : ℕ) (msg : Bytes) : S (Option SbError × Stream) := do
  if st.state ≠ .sendingStatus then
    return (some .badState, st)
  let (ok, buf) ← bufferPushStr st.sendBuf
    (ascii "HTTP/1.1 " ++ decimal code ++ ascii " " ++ msg ++ crlf)
  if !ok then
    return (some .outOfMemory, { st with sendBuf := buf })
  return (none, { st with sendBuf := buf, state := .sendingHeader })

/-- The first half of `sb_get_var`: the variable in the query string. -/
def findQueryVariable (name str : Bytes) : Option Bytes :=
  match str.dropWhile fun c => c ≠ 63 && c ≠ 13 with
  | 63 :: q => findVarValue name q
  | _ => none

/-- Where `sb_get_var` finds a variable: in the query string, or in the data. -/
def Stream.findVariable (st : Stream) (name : Bytes) : Option Bytes :=
  let inQuery := findQueryVariable name (cString st.recvBuf.data)
  if inQuery.isNone ∧ st.dataIdx ≠ 0 then
    findVarValue name (cString (st.recvBuf.data.drop st.dataIdx))
  else inQuery

/-- `sb_get_var`: whether it succeeds, and what it stores. -/
def getVar (st : Stream) (name : Bytes) (len : ℕ) : Bool × Bytes :=
  match st.findVariable name with
  | none => (false, [])
  | some s => urlDecode s len

/-- `handle_auth_redirect`, on the stream of the event. -/
def handle (path : Bytes) (e : Event) : S Stream := do
  match e.type with
  | .close =>
    modify fun srv => { srv with redirect := { srv.redirect with stopped := true } }
    return e.stream
  | .connect => return e.stream
  | .request _ requestPath =>
    if requestPath ≠ path then
      modify fun srv => { srv with redirect :=
        { srv.redirect with hiveError := toInt (hiveGeneralError HIVEERR_BAD_ADDRESS) } }
      return e.stream
    let (ok, code) := getVar e.stream (ascii "code") authorizeCodeSize
    modify fun srv => { srv with redirect := { srv.redirect with code := code } }
    if !ok then
      modify fun srv => { srv with redirect :=
        { srv.redirect with hiveError := toInt (hiveGeneralError HIVEERR_INVALID_CREDENTIAL) } }
      return e.stream
    let (_, st) ← sendStatus e.stream 200 (ascii "OK")
    return st

/-- `sb_stream_emit`; the handler always answers `SB_RES_OK`. -/
def streamEmit (path : Bytes) (st : Stream) (type : EventType) : S Stream := do
  modify fun srv => { srv with emitted := srv.emitted ++ [⟨type, st⟩] }
  handle path ⟨type, st⟩

/-- `sb_stream_recv` from `handle_request` on. -/
def handleRequest (path : Bytes) (st : Stream) : S (Option SbError × Stream) := do
  let st := { st with state := .sendingStatus }
  let (ok, buf) ← bufferNullTerminate st.recvBuf
  let st := { st with recvBuf := buf }
  if !ok then
    return (some .outOfMemory, st)
  match scanRequestLine (cString st.recvBuf.data) with
  | none => return (none, { st with state := .closing })
  | some (method, target, ver) =>
    if !(ascii "HTTP").isPrefixOf ver then
      return (none, { st with state := .closing })
    let requestPath := cString (urlDecode target 512).2
    let st ← streamEmit path st (.request method requestPath)
    return (none, st)

/-- The loop of `sb_stream_recv` over the bytes of a chunk: `none` when it is done with them, and
otherwise what `sb_stream_recv` returns. -/
def recvBytes (path : Bytes) (st : Stream) : Bytes → S (Option (Option SbError) × Stream)
  | [] => return (none, st)
  | b :: bytes => do
    let (ok, buf) ← bufferPushChar st.recvBuf b
    let st := { st with recvBuf := buf }
    if !ok then
      return (some (some .outOfMemory), st)
    if st.state = .receivingHeader ∧ (crlf ++ crlf).isSuffixOf st.recvBuf.data then
      let st := { st with state := .receivingRequest }
      let (ok, buf) ← bufferNullTerminate st.recvBuf
      let st := { st with recvBuf := buf }
      if !ok then
        return (some (some .outOfMemory), st)
      match findHeaderValue (ascii "Content-Length") (cString st.recvBuf.data) with
      | .endless => loops
      | .missing =>
        let (err, st) ← handleRequest path st
        return (some err, st)
      | .found value =>
        let st := { st with
          expectedRecvLen := st.recvBuf.data.length + strToUint value
          dataIdx := st.recvBuf.data.length }
        if st.expectedRecvLen = st.recvBuf.data.length then
          let (err, st) ← handleRequest path st
          return (some err, st)
        recvBytes path st bytes
    else
      if st.expectedRecvLen = st.recvBuf.data.length then
        let (err, st) ← handleRequest path st
        return (some err, st)
      recvBytes path st bytes

/-- The loop of `sb_stream_recv` over what `recv` returns. -/
def recvChunks (path : Bytes) (st : Stream) (disconnected : Bool) :
    List Bytes → S (Option SbError × Stream)
  | [] => return (none, if disconnected then { st with state := .closing } else st)
  | chunk :: chunks => do
    let now := (← get).now
    let st := { st with lastActivity := now }
    let (result, st) ← recvBytes path st chunk
    match result with
    | some err => return (err, st)
    | none => recvChunks path st disconnected chunks

/-- `sb_stream_recv`. -/
def streamRecv (path : Bytes) (st : Stream) : S (Option SbError × Stream) := do
  let received ← recv st.serial
  recvChunks path st received.disconnected received.chunks

/-- `sb_stream_send`. -/
def streamSend (st : Stream) : S Stream := do
  if st.sendBuf.data = [] then
    return { st with state := .closing }
  match ← send st.serial st.sendBuf.data with
  | .error wouldBlock => return if wouldBlock then st else { st with state := .closing }
  | .ok sent =>
    let now := (← get).now
    return { st with sendBuf := st.sendBuf.shift sent, lastActivity := now }

/-! ### The server -/

/-- The tests of a stream against timeout, lifetime and request size. -/
def Server.exceeds (srv : Server) (st : Stream) : Bool :=
  (srv.timeout ≠ 0 && srv.timeout / 1000 < srv.now - st.lastActivity) ||
  (srv.maxLifetime ≠ 0 && srv.maxLifetime / 1000 < srv.now - st.initTime) ||
  (srv.maxRequestSize ≠ 0 && srv.maxRequestSize ≤ st.recvBuf.data.length)

/-- `if (FD_ISSET(st->sockfd, &fds_read))`: a stream is in that set if it is receiving. -/
def recvSelected (path : Bytes) (selected : Selected) (st : Stream) :
    S (Option SbError × Stream) :=
  if st.state.receiving && selected.readable st.serial then streamRecv path st
  else return (none, st)

/-- `if (FD_ISSET(st->sockfd, &fds_write))`: the stream is in that set if it was not receiving when
the set was made. -/
def sendSelected (receiving : Bool) (selected : Selected) (st : Stream) : S Stream :=
  if !receiving && selected.writable st.serial then streamSend st else return st

/-- The loop of `sb_poll_server` over the streams: what it returns when an error ends it, and the
streams that are still there. -/
def pollStreams (path : Bytes) (selected : Selected) :
    List Stream → S (Option SbError × List Stream)
  | [] => return (none, [])
  | st :: streams => do
    let receiving := st.state.receiving
    let (err, st) ← recvSelected path selected st
    if err.isSome then
      return (err, st :: streams)
    let st ← sendSelected receiving selected st
    let exceeded := (← get).exceeds st
    let st := if exceeded then { st with state := .closing } else st
    if st.state = .closing then
      let _ ← streamEmit path st .close
      pollStreams path selected streams
    else
      let (err, rest) ← pollStreams path selected streams
      return (err, st :: rest)

/-- `FD_SETSIZE`. -/
def fdSetSize : ℕ := 1024

/-- `sb_stream_new`, when there is memory for it. -/
def streamNew (srv : Server) (sockfd : ℕ) : Stream :=
  { serial := srv.nextSerial, sockfd, initTime := srv.now, lastActivity := srv.now }

/-- The loop of `sb_poll_server` over the sockets that `accept` returns. -/
def acceptStreams (path : Bytes) : List ℕ → S (Option SbError)
  | [] => return none
  | sockfd :: sockets => do
    if fdSetSize < sockfd then
      return some .fdTooBig
    if !(← malloc) then
      return some .outOfMemory
    let st ← streamEmit path (streamNew (← get) sockfd) .connect
    modify fun srv => { srv with streams := st :: srv.streams, nextSerial := srv.nextSerial + 1 }
    acceptStreams path sockets

/-- `FD_SET` of all descriptors: none lies outside the set. -/
def Server.fitsSet (srv : Server) : Bool :=
  srv.sockfd < fdSetSize && srv.streams.all fun st => st.sockfd < fdSetSize

/-- `sb_poll_server`, when the descriptors are in their sets. -/
def pollSelected (path : Bytes) : S (Option SbError) := do
  let selected ← select
  let now ← time
  modify fun srv => { srv with now := now }
  let (err, streams) ← pollStreams path selected (← get).streams
  modify fun srv => { srv with streams := streams }
  if err.isSome then
    return err
  if selected.listening then
    acceptStreams path (← accept)
  else
    return none

/-- `sb_poll_server`. -/
def pollServer (path : Bytes) : S (Option SbError) := do
  if (← get).fitsSet then pollSelected path else Script.fault .bufferOverrun

/-- `while (!stopped) sb_poll_server(…)`, cut off after so many calls. -/
def pollUntilStopped (path : Bytes) : ℕ → S Unit
  | 0 => return
  | n + 1 => do
    if !(← get).redirect.stopped then
      let _ ← pollServer path
      pollUntilStopped path n

/-- The loop of `sb_close_server`. -/
def closeStreams (path : Bytes) : List Stream → S Unit
  | [] => return
  | st :: streams => do
    modify fun srv => { srv with streams }
    let _ ← streamEmit path st .close
    closeStreams path streams

/-- `sb_close_server`. -/
def closeServer (path : Bytes) : S Unit := do
  closeStreams path (← get).streams

end Sandbird

end HiveSDK
