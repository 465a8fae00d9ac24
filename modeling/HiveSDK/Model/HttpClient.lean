import HiveSDK.Model.Environment
import HiveSDK.Url.Form
import Mathlib.Tactic.Linarith

/-!
# The response body of an HTTP client

`http_response_body_write_callback`, `http_client_reset` and `http_client_move_response_body`
of `http_client.c`, on the block of memory they share.

The functions copy bytes and never look at them, so they are written for any type `α` of
memory cells: `wrote` stores a byte received, `junk k i` is what the `k`-th `realloc` leaves
in the `i`-th cell that it adds. With bytes for cells this is the code; with
`Cell` it keeps track of where the content of each cell comes from.
-/

namespace HiveSDK

/-- A memory cell that knows its origin. -/
inductive Cell
  | junk (realloc index : ℕ)
  | stored (b : UInt8)
  deriving DecidableEq, Repr

/-- The content of a cell, when `realloc` leaves `junk`. -/
def Cell.eval (junk : ℕ → ℕ → UInt8) : Cell → UInt8
  | .junk k i => junk k i
  | .stored b => b

/-- What libcurl hands to a write callback: a block of memory, shorter than `2 ^ 64`. -/
abbrev Chunk := { b : Bytes // b.length < 2 ^ 64 }

/-- `http_response_body_t`. `block` is the memory at `data` (none for `NULL`), `reallocs` the
number of blocks obtained so far. -/
structure ResponseBody (α : Type) where
  block : List α
  used : ℕ
  sz : ℕ
  reallocs : ℕ
  deriving DecidableEq, Repr

/-- The same body with other cells. -/
def ResponseBody.map {α β : Type} (f : α → β) (r : ResponseBody α) : ResponseBody β where
  block := r.block.map f
  used := r.used
  sz := r.sz
  reallocs := r.reallocs

/-- `used = 0;` -/
def ResponseBody.clear {α : Type} (r : ResponseBody α) : ResponseBody α := { r with used := 0 }

/-- The body of a new client. -/
def ResponseBody.new {α : Type} : ResponseBody α := ⟨[], 0, 0, 0⟩

/-- `for (…; new_sz > last_try && new_sz <= bound; last_try = new_sz, new_sz <<= 1)`, in
`size_t` arithmetic: the final `new_sz` and `last_try`. -/
def growLoop (bound newSz lastTry : ℕ) : ℕ × ℕ :=
  if _h : lastTry < newSz ∧ newSz ≤ bound then growLoop bound (newSz * 2 % 2 ^ 64) newSz
  else (newSz, lastTry)
  termination_by bound + 1 - lastTry
  decreasing_by omega

/-- The size the callback asks `realloc` for. -/
def newSize (sz length : ℕ) : ℕ :=
  let (newSz, lastTry) := growLoop (sz + length) (if sz = 0 then 512 else sz * 2 % 2 ^ 64) sz
  if newSz ≤ lastTry then sz + length else newSz

section Cells

variable {α : Type} (wrote : UInt8 → α) (junk : ℕ → ℕ → α)

/-- `realloc(response->data, newSz)`. -/
def reallocBlock (r : ResponseBody α) (newSz : ℕ) : ResponseBody α where
  block := r.block.take newSz ++ (List.range (newSz - r.block.length)).map (junk r.reallocs)
  used := r.used
  sz := newSz
  reallocs := r.reallocs + 1

/-- `memcpy(data + used, ptr, length); used += length;` -/
def appendChunk (r : ResponseBody α) (chunk : Bytes) : Option (ResponseBody α) :=
  if r.used + chunk.length ≤ r.block.length then
    some { r with
      block := r.block.take r.used ++ chunk.map wrote ++ r.block.drop (r.used + chunk.length)
      used := (r.used + chunk.length) % 2 ^ 64 }
  else none

/-- `http_response_body_write_callback`, with what `realloc` answers if it is asked: the body
and the value returned. `none` when a copy leaves the block. -/
def httpResponseBodyWriteCallback (r : ResponseBody α) (chunk : Chunk) (reallocOk : Bool) :
    Option (ResponseBody α × ℕ) :=
  let length := chunk.1.length
  if (r.sz + 2 ^ 64 - r.used) % 2 ^ 64 < length then
    if (r.sz + length) % 2 ^ 64 < r.sz then some (r.clear, 0)
    else if reallocOk then
      (appendChunk wrote (reallocBlock junk r (newSize r.sz length)) chunk.1).map (·, length)
    else some (r.clear, 0)
  else (appendChunk wrote r chunk.1).map (·, length)

/-- `http_client_reset`, as far as the body is concerned. -/
def httpClientReset (r : ResponseBody α) : ResponseBody α := r.clear

/-- `http_client_move_response_body` with a body present or a `len` argument: the block
returned, `none` for `NULL`, and the body left behind. -/
def httpClientMoveResponseBody (r : ResponseBody α) : Option (List α) × ResponseBody α :=
  if r.used = 0 then (none, r) else (some r.block, { r with block := [], used := 0, sz := 0 })

/-- What happens to a client between two responses and during one. -/
inductive BodyEvent
  | chunk (data : Chunk) (reallocOk : Bool)
  | reset
  | move

/-- One event; `none` when a copy leaves the block. -/
def BodyEvent.step (r : ResponseBody α) : BodyEvent → Option (ResponseBody α)
  | .chunk data ok => (httpResponseBodyWriteCallback wrote junk r data ok).map Prod.fst
  | .reset => some (httpClientReset r)
  | .move => some (httpClientMoveResponseBody r).2

/-- A run of events. -/
def BodyEvent.run (r : ResponseBody α) : List BodyEvent → Option (ResponseBody α)
  | [] => some r
  | e :: es => (e.step wrote junk r).bind fun r => run r es

/-- libcurl delivers a response: it stops at the first chunk that is refused, and only a
response delivered completely counts (`none` otherwise). -/
def deliver (r : ResponseBody α) : List (Chunk × Bool) → Option (ResponseBody α)
  | [] => some r
  | (chunk, ok) :: chunks =>
    (httpResponseBodyWriteCallback wrote junk r chunk ok).bind fun p =>
      if p.2 = chunk.1.length then deliver p.1 chunks else none

end Cells

/-! ### Escaping -/

/-- `curl_easy_escape(curl, data, length)`: the first `length` bytes with every byte escaped that is
not unreserved, all of them if `length` is 0, and `NULL` if it is negative. -/
def curlEasyEscape (data : Bytes) (length : ℤ) : Option Bytes :=
  if length < 0 then none
  else if length = 0 then some (Url.escape data)
  else some (Url.escape (data.take length.toNat))

/-- What `http_client_escape(client, data, strlen(data))` returns when there is memory for it. The
length is narrowed to an `int`. -/
def escapedString (data : Bytes) : Option Bytes := curlEasyEscape data (C.toInt data.length)

end HiveSDK
