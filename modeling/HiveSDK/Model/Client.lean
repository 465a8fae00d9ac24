import HiveSDK.Model.Hive

/-!
# Clients and connections

`hive_client.c` and `ipfs_client_connect`: a client is the directory its data lives in, and a
connection is opened by the function the backend type of the options selects. With the operations
of `HiveSDK.Model.Hive` these are the public functions.

`inet_pton` is a parameter: whether a string is an address of a family. `strtol` is the one of the
C locale, in base 10.
-/

namespace HiveSDK

open Interaction C

/-! ### Opening an IPFS connection -/

inductive AddressFamily
  /-- `AF_INET` -/
  | inet
  /-- `AF_INET6` -/
  | inet6
  deriving DecidableEq, Repr

/-- `IPFSNode`. -/
structure IPFSNode where
  ipv4 : Option Bytes
  ipv6 : Option Bytes
  port : Option Bytes
  deriving DecidableEq, Repr

/-- `isspace` and `isdigit`. -/
def isSpace (b : UInt8) : Bool := b = 32 || (9 ≤ b && b ≤ 13)
def isDigit (b : UInt8) : Bool := 48 ≤ b && b ≤ 57

/-- `strtol(text, &end, 10)`: the number, clamped to a `long`, and the string at `end`. -/
def strtol (text : Bytes) : ℤ × Bytes :=
  let (negative, rest) : Bool × Bytes :=
    match text.dropWhile isSpace with
    | 45 :: rest => (true, rest)
    | 43 :: rest => (false, rest)
    | rest => (false, rest)
  let digits := rest.takeWhile isDigit
  if digits = [] then (0, text)
  else
    let n : ℕ := digits.foldl (fun n d => n * 10 + (d.toNat - 48)) 0
    (max (-2 ^ 63) (min (2 ^ 63 - 1) (if negative then -n else n)), rest.drop digits.length)

section Options

variable (inetPton : AddressFamily → Bytes → Bool)

/-- One round of the loop of `ipfs_client_connect`: the node as the connection keeps it, `none`
when the round returns. -/
def rpcNodeOf (node : IPFSNode) : Option RpcNode :=
  let ipv4 := node.ipv4.getD []
  let ipv6 := node.ipv6.getD []
  if ipv4 = [] ∧ ipv6 = [] then none
  else if ipv4 ≠ [] ∧ (16 ≤ ipv4.length ∨ inetPton .inet ipv4 = false) then none
  else if ipv6 ≠ [] ∧ (48 ≤ ipv6.length ∨ inetPton .inet6 ipv6 = false) then none
  else
    match nonempty? node.port with
    | none => none
    | some text =>
      let (port, rest) := strtol text
      if rest ≠ [] then none
      else if port < 1 ∨ 65535 < port then none
      else some ⟨ipv4, ipv6, port.toNat⟩

/-- The loop, with the test before it. -/
def rpcNodesOf (nodes : List IPFSNode) : Option (List RpcNode) :=
  if nodes = [] then none else nodes.mapM (rpcNodeOf inetPton)

/-- `sizeof(IPFSConnect)`. -/
def ipfsConnectSize : ℕ := 128

/-- `ipfs_client_connect`. Until `ipfs_rpc_new` is called no error is recorded. -/
def ipfsClientConnect (nodes : List IPFSNode) : M IPFSConnect Bool :=
  match rpcNodesOf inetPton nodes with
  | none => return false
  | some nodes => do
    if !(← malloc ipfsConnectSize) then
      return false
    IPFS.rpcNew nodes

end Options

/-! ### Clients -/

/-- `HiveConnectOptions`: the backend type, with the options behind it. -/
inductive HiveConnectOptions
  | ipfs (rpcNodes : List IPFSNode)
  | oneDrive (clientId scope redirectUrl : Option Bytes) (callback : Bool)
  /-- A backend type that no factory method has. -/
  | other

/-- The connection data the options are about. -/
def HiveConnectOptions.backend : Option HiveConnectOptions → Backend
  | some (ipfs _) => .ipfs
  | _ => .oneDrive

section Client

variable {C : Type}

/-- Record an error and return `NULL`. -/
def nullWith (e : ℤ) : M C Bool := do
  hiveSetError e
  return false

/-- `hive_client_new`: whether a client is returned. The options are `none` for `NULL`, and so is
their `data_location`. -/
def hiveClientNew (options : Option (Option Bytes)) : M C Bool :=
  match nonempty? (options.getD none) with
  | none => nullWith (toInt (hiveGeneralError HIVEERR_INVALID_ARGS))
  | some dataLocation => do
    match ← stat dataLocation with
    | .ok (.file _) => nullWith (toInt (hiveGeneralError HIVEERR_INVALID_ARGS))
    | .error 2 =>
      match ← mkdirs dataLocation with
      | .error e => nullWith (toInt (hiveSysError e))
      | .ok _ => newClient dataLocation
    | .error _ => nullWith (toInt (hiveGeneralError HIVEERR_INVALID_ARGS))
    | .ok .directory => newClient dataLocation
where
  /-- The allocation at the end. -/
  newClient (dataLocation : Bytes) : M C Bool := do
    if !(← malloc (dataLocation.length + 1)) then
      return ← nullWith (toInt (hiveGeneralError HIVEERR_OUT_OF_MEMORY))
    return true

end Client

/-- `hive_client_connect`: whether a connection is returned. A client is its `data_location`. -/
def hiveClientConnect (inetPton : AddressFamily → Bytes → Bool) (client : Option Bytes) :
    (options : Option HiveConnectOptions) → M (HiveConnectOptions.backend options).Connect Bool
  | none => nullWith (toInt (hiveGeneralError HIVEERR_INVALID_ARGS))
  | some (.ipfs rpcNodes) =>
    match client with
    | none => nullWith (toInt (hiveGeneralError HIVEERR_INVALID_ARGS))
    | some _ => ipfsClientConnect inetPton rpcNodes
  | some (.oneDrive clientId scope redirectUrl callback) =>
    match client with
    | none => nullWith (toInt (hiveGeneralError HIVEERR_INVALID_ARGS))
    | some dataLocation =>
      onedriveClientConnect dataLocation ⟨clientId, scope, redirectUrl, callback, true⟩
  | some .other =>
    match client with
    | none => nullWith (toInt (hiveGeneralError HIVEERR_INVALID_ARGS))
    | some _ => nullWith (toInt (hiveGeneralError HIVEERR_NOT_SUPPORTED))

/-! ### The public functions -/

/-- The operations on a connection. -/
inductive HiveOperation
  | putFileFromBuffer (src : Option Bytes) (length : ℕ) (filename : Option Bytes)
  | putFile (src filename : Option Bytes)
  | getFileLength (filename : Option Bytes)
  | getFileToBuffer (filename dst : Option Bytes) (buflen : ℕ)
  | getFile (filename dst : Option Bytes)
  | deleteFile (filename : Option Bytes)
  | listFiles (callback : Bool) (rounds : ℕ)
  | ipfsPutFileFromBuffer (src : Option Bytes) (length : ℕ) (cid : Option Bytes)
  | ipfsPutFile (src cid : Option Bytes)
  | ipfsGetFileLength (cid : Option Bytes)
  | ipfsGetFileToBuffer (cid dst : Option Bytes) (buflen : ℕ)
  | ipfsGetFile (cid dst : Option Bytes)
  | putValue (key value : Option Bytes) (length : ℕ)
  | setValue (key value : Option Bytes) (length : ℕ)
  | getValues (key : Option Bytes) (callback : Bool)
  | deleteKey (key : Option Bytes)
  | setAccessTokenExpired

/-- The operation on a connection; what it returns besides its value is left out. -/
def HiveOperation.call {C : Type} (connect : Option (HiveConnect C)) : HiveOperation → M C ℤ
  | putFileFromBuffer src length filename => hivePutFileFromBuffer connect src length filename
  | putFile src filename => hivePutFile connect src filename
  | getFileLength filename => hiveGetFileLength connect filename
  | getFileToBuffer filename dst buflen => do
    return (← hiveGetFileToBuffer connect filename dst buflen).1
  | getFile filename dst => hiveGetFile connect filename dst
  | deleteFile filename => hiveDeleteFile connect filename
  | listFiles callback rounds => hiveListFiles connect callback rounds
  | ipfsPutFileFromBuffer src length cid => do
    return (← hiveIpfsPutFileFromBuffer connect src length cid).1
  | ipfsPutFile src cid => do return (← hiveIpfsPutFile connect src cid).1
  | ipfsGetFileLength cid => hiveIpfsGetFileLength connect cid
  | ipfsGetFileToBuffer cid dst buflen => do
    return (← hiveIpfsGetFileToBuffer connect cid dst buflen).1
  | ipfsGetFile cid dst => hiveIpfsGetFile connect cid dst
  | putValue key value length => hivePutValue connect key value length
  | setValue key value length => hiveSetValue connect key value length
  | getValues key callback => hiveGetValues connect key callback
  | deleteKey key => hiveDeleteKey connect key
  | setAccessTokenExpired => hiveSetAccessTokenExpired connect

/-- A public function with its arguments. An operation is given a connection of the backend, or
`NULL`. -/
inductive PublicFunction
  | clientNew (options : Option (Option Bytes))
  | clientConnect (client : Option Bytes) (options : Option HiveConnectOptions)
  | operation (backend : Backend) (connected : Bool) (op : HiveOperation)

namespace PublicFunction

/-- The connection data the function works on. -/
def backend : PublicFunction → Backend
  | clientNew _ => .oneDrive
  | clientConnect _ options => HiveConnectOptions.backend options
  | operation backend _ _ => backend

/-- The function. A pointer is returned as `0`, `NULL` as `-1`. -/
def call (inetPton : AddressFamily → Bytes → Bool) :
    (f : PublicFunction) → M f.backend.Connect ℤ
  | clientNew options => do return if ← hiveClientNew options then 0 else -1
  | clientConnect client options => do
    return if ← hiveClientConnect inetPton client options then 0 else -1
  | operation backend connected op =>
    op.call (if connected then some backend.methods else none)

end PublicFunction

end HiveSDK
