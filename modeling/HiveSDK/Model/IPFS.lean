import HiveSDK.Model.Environment

/-!
# The IPFS backend

`ipfs_rpc.c` chooses the node requests go to, `ipfs.c` holds the three file operations.
Every API request is treated alike when the transfer itself fails (`transferError`); what
differs between the operations is what happens after it, and by which kind of `return`.

The nodes are those of `ipfs_rpc_options_t`; an absent address is an empty string, and a
connection without a current node has an empty `current_node_ip`.
-/

namespace HiveSDK

open Interaction C

/-- `struct rpc_node`. -/
structure RpcNode where
  ipv4 : Bytes
  ipv6 : Bytes
  port : ℕ
  deriving DecidableEq, Repr

/-- `struct ipfs_rpc`, the only part of an `IPFSConnect` its operations use. -/
structure IPFSConnect where
  currentNodeIp : Bytes
  currentNodePort : ℕ
  rpcNodes : List RpcNode
  deriving DecidableEq, Repr

namespace IPFS

/-! ### Requests -/

/-- `http://<ip>:<port><path>` -/
def nodeUrl (ip : Bytes) (port : ℕ) (path : Bytes) : Bytes :=
  ascii "http://" ++ ip ++ ascii ":" ++ ascii (toString port) ++ path

def versionPath : Bytes := ascii "/version"
def addPath : Bytes := ascii "/api/v0/add"
def fileLsPath : Bytes := ascii "/api/v0/file/ls"
def catPath : Bytes := ascii "/api/v0/cat"

def versionRequest (ip : Bytes) (port : ℕ) : HttpRequest where
  method := .post
  url := nodeUrl ip port versionPath

def addRequest (ip : Bytes) (port : ℕ) (body : Bytes) : HttpRequest where
  method := .post
  url := nodeUrl ip port addPath
  body := body

def fileLsRequest (ip : Bytes) (port : ℕ) (cid : Bytes) : HttpRequest where
  method := .post
  url := nodeUrl ip port fileLsPath
  query := [(ascii "arg", cid)]

def catRequest (ip : Bytes) (port : ℕ) (cid : Bytes) : HttpRequest where
  method := .post
  url := nodeUrl ip port catPath
  query := [(ascii "arg", cid)]

/-! ### Choosing a node -/

/-- `test_reachable`. -/
def testReachable (ip : Bytes) (port : ℕ) : M IPFSConnect ℤ := do
  if 4097 ≤ (nodeUrl ip port versionPath).length then
    return toInt (hiveGeneralError HIVEERR_BUFFER_TOO_SMALL)
  if !(← httpClientNew .testReachable) then
    return toInt (hiveGeneralError HIVEERR_OUT_OF_MEMORY)
  let reply ← httpClientPerform (versionRequest ip port)
  match reply.answer with
  | .error e => return toInt e
  | .ok status =>
    if status ≠ HttpStatus_OK then
      return toInt (hiveHttpStatusError status)
    return 0

/-- One address of a node is configured and reachable. -/
def tryAddress (ip : Bytes) (port : ℕ) : M IPFSConnect Bool := do
  if ip = [] then
    return false
  return (← testReachable ip port) = 0

/-- Store the selected address in the connection. -/
def select (ip : Bytes) (port : ℕ) : M IPFSConnect Unit :=
  modify fun s => { s with
    conn := { s.conn with currentNodeIp := ip, currentNodePort := port } }

/-- The `do … while` loop of `select_bootstrap` at index `i`. It comes back to `base` after
as many rounds as there are nodes, so that `rounds` does not run out. -/
def selectLoop (nodes : List RpcNode) (base : ℕ) : ℕ → ℕ → M IPFSConnect ℤ
  | 0, _ => block
  | rounds + 1, i =>
    match nodes[i]? with
    | none => crash .bufferOverrun
    | some node => do
      if ← tryAddress node.ipv4 node.port then
        select node.ipv4 node.port
        return 0
      if ← tryAddress node.ipv6 node.port then
        select node.ipv6 node.port
        return 0
      let next := (i + 1) % nodes.length
      if next ≠ base then
        selectLoop nodes base rounds next
      else
        return toInt (hiveGeneralError HIVEERR_BAD_BOOTSTRAP_HOST)

/-- `select_bootstrap`. -/
def selectBootstrap (nodes : List RpcNode) : M IPFSConnect ℤ := do
  let base := (← rand) % nodes.length
  selectLoop nodes base nodes.length base

/-- `ipfs_rpc_check_reachable`. -/
def checkReachable : M IPFSConnect ℤ := do
  let rpc := (← get).conn
  if rpc.currentNodeIp ≠ [] then
    return 0
  selectBootstrap rpc.rpcNodes

/-- `ipfs_rpc_mark_node_unreachable`. -/
def markNodeUnreachable : M IPFSConnect Unit :=
  modify fun s => { s with conn := { s.conn with currentNodeIp := [] } }

/-- `sizeof(ipfs_rpc_t)` and `sizeof(rpc_node_t)`. -/
def rpcSize : ℕ := 64
def rpcNodeSize : ℕ := 66

/-- `ipfs_rpc_new`; whether there is an object to return. -/
def rpcNew (nodes : List RpcNode) : M IPFSConnect Bool := do
  if !(← malloc (rpcSize + rpcNodeSize * nodes.length)) then
    hiveSetError (toInt (hiveGeneralError HIVEERR_OUT_OF_MEMORY))
    return false
  modify fun s => { s with conn := ⟨[], 0, nodes⟩ }
  let rc ← selectBootstrap nodes
  if rc < 0 then
    hiveSetError rc
    return false
  return true

/-! ### Operations -/

def CURLE_COULDNT_CONNECT : CurlCode := 7
def CURLE_REMOTE_ACCESS_DENIED : CurlCode := 9
def CURLE_WRITE_ERROR : CurlCode := 23
def CURLE_OPERATION_TIMEDOUT : CurlCode := 28

/-- `RC_NODE_UNREACHABLE`. -/
def rcNodeUnreachable (rc : CurlCode) : Bool :=
  rc = CURLE_COULDNT_CONNECT || rc = CURLE_REMOTE_ACCESS_DENIED || rc = CURLE_OPERATION_TIMEDOUT

/-- What an operation makes of a transfer that failed: the value of its `int rc`. -/
def transferError (rc : CurlCode) : M IPFSConnect ℤ := do
  if rcNodeUnreachable rc then
    markNodeUnreachable
    return toInt (hiveGeneralError HIVEERR_TRY_AGAIN)
  return toInt (hiveCurlError rc)

/-- `sizeof(cid->content)`. -/
def cidSize : ℕ := 65

/-- `put_file_from_buffer`: the value returned, and what `cid` holds afterwards. -/
def putFileFromBuffer (body cid : Bytes) : M IPFSConnect (ℤ × Bytes) := do
  let rc ← checkReachable
  if rc < 0 then
    return (rc, cid)
  let rpc := (← get).conn
  if !(← httpClientNew .ipfsPutFileFromBuffer) then
    return (toInt (hiveGeneralError HIVEERR_OUT_OF_MEMORY), cid)
  let reply ← httpClientPerform (addRequest rpc.currentNodeIp rpc.currentNodePort body)
  if reply.performed ≠ 0 then
    return (← transferError reply.performed, cid)
  if reply.info ≠ 0 then
    return (toInt (hiveCurlError reply.info), cid)
  if (reply.status : ℕ) ≠ HttpStatus_OK then
    return (toInt (hiveHttpStatusError (reply.status : ℕ)), cid)
  match ← moveAndParse reply with
  | none => return (toInt (hiveGeneralError HIVEERR_OUT_OF_MEMORY), cid)
  | some resp =>
    match Json.nonemptyString? (resp.getObjectItemCaseSensitive (ascii "Hash")) with
    | none => return (toInt (hiveGeneralError HIVEERR_BAD_JSON_FORMAT), cid)
    | some hash =>
      if cidSize ≤ hash.length then
        return (toInt (hiveGeneralError HIVEERR_BAD_JSON_FORMAT), cid)
      return (0, hash)

/-- The size a reply of `file/ls` gives for `cid`, if all the tests of `get_file_length`
pass. -/
def listedSize (cid : Bytes) (resp : Json) : Option ℤ :=
  match Json.object? (resp.getObjectItemCaseSensitive (ascii "Objects")) with
  | none => none
  | some objects =>
    match Json.object? (objects.getObjectItemCaseSensitive cid) with
    | none => none
    | some item =>
      match Json.number? (item.getObjectItemCaseSensitive (ascii "Size")) with
      | none => none
      | some size => if size.toLong < 0 then none else some size.toLong

/-- `get_file_length`. -/
def getFileLength (cid : Bytes) : M IPFSConnect Exit := do
  let rc ← checkReachable
  if rc < 0 then
    return .ret rc
  let rpc := (← get).conn
  if !(← httpClientNew .ipfsGetFileLength) then
    return .err (hiveGeneralError HIVEERR_OUT_OF_MEMORY)
  let reply ← httpClientPerform (fileLsRequest rpc.currentNodeIp rpc.currentNodePort cid)
  if reply.performed ≠ 0 then
    return .ret (← transferError reply.performed)
  if reply.info ≠ 0 then
    return .ret (toInt (hiveCurlError reply.info))
  if (reply.status : ℕ) ≠ HttpStatus_OK then
    return .ret (toInt (hiveHttpStatusError (reply.status : ℕ)))
  match ← moveAndParse reply with
  | none => return .err (hiveGeneralError HIVEERR_OUT_OF_MEMORY)
  | some resp =>
    match listedSize cid resp with
    | none => return .err (hiveGeneralError HIVEERR_BAD_JSON_FORMAT)
    | some fsize => return .ret fsize

/-- `get_response_body_cb`: store a chunk, or refuse it. The sum is one of `size_t`, which holds
it: what is stored and the chunk are in memory at the same time. -/
def getResponseBodyCb (buflen : ℕ) (block : Bytes) (actual : ℕ) (chunk : Bytes) :
    Option (Option (Bytes × ℕ)) :=
  if buflen < actual + chunk.length then some none
  else (memcpy block actual chunk).map fun block => some (block, actual + chunk.length)

/-- The callback invocations of one transfer: the block, the bytes stored, and whether the
last chunk was refused, which makes libcurl end the transfer with `CURLE_WRITE_ERROR`.
`none` when a copy leaves the block. -/
def storeBody (buflen : ℕ) (block : Bytes) (actual : ℕ) :
    List Bytes → Option (Bytes × ℕ × Bool)
  | [] => some (block, actual, false)
  | chunk :: chunks =>
    match getResponseBodyCb buflen block actual chunk with
    | none => none
    | some none => some (block, actual, true)
    | some (some (block, actual)) => storeBody buflen block actual chunks

/-- The end of `get_file_to_buffer`, once the callbacks have stored `actual` bytes in the block and
refused the last chunk or not. -/
def afterTransfer (fsize : ℤ) (reply : HttpReply) (block : Bytes) (actual : ℕ) (refused : Bool) :
    M IPFSConnect (Exit × Bytes) := do
  let performed := if refused then CURLE_WRITE_ERROR else reply.performed
  if performed ≠ 0 then
    return (.ret (← transferError performed), block)
  if reply.info ≠ 0 then
    return (.err (hiveCurlError reply.info), block)
  if (reply.status : ℕ) ≠ HttpStatus_OK then
    return (.err (hiveHttpStatusError (reply.status : ℕ)), block)
  if toSize fsize ≠ actual then
    return (.err (hiveGeneralError HIVEERR_BAD_PERSISTENT_DATA), block)
  return (.ret fsize, block)

/-- `get_file_to_buffer`: how it is left, and the block at `to` afterwards. -/
def getFileToBuffer (cid block : Bytes) (buflen : ℕ) : M IPFSConnect (Exit × Bytes) := do
  let fsize := (← getFileLength cid).ssize
  if fsize ≤ 0 then
    return (.ret fsize, block)
  if 0 < toLong buflen ∧ toLong buflen < fsize then
    return (.err (hiveGeneralError HIVEERR_BUFFER_TOO_SMALL), block)
  let rc ← checkReachable
  if rc < 0 then
    return (.ret rc, block)
  let rpc := (← get).conn
  if !(← httpClientNew .ipfsGetFileToBuffer) then
    return (.err (hiveGeneralError HIVEERR_OUT_OF_MEMORY), block)
  let reply ← httpClientPerform (catRequest rpc.currentNodeIp rpc.currentNodePort cid)
  match storeBody buflen block 0 reply.chunks with
  | none => crash .bufferOverrun
  | some (block, actual, refused) =>
    afterTransfer fsize reply block actual refused

end IPFS

end HiveSDK
