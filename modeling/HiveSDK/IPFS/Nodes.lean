import HiveSDK.IPFS.Requests

/-!
# The nodes an IPFS connection talks to

A connection keeps the address and the port of the node it uses. The two are written together
when a node has answered the reachability test, and the address alone is cleared when a transfer
fails in a way that means the node is unreachable.

What has been tested is a matter of the past, so the specifications here are about recorded runs:
the state of the environment is the list of what has been asked and answered. `NodeInv` holds of
the connection and the past at every step; every function keeps it, and from it follows what
holds in a whole session (`session_talksToNodes`).
-/

namespace HiveSDK.IPFS

open Interaction C

/-! ### Requests and events -/

/-- A request of the API sent to this node. -/
inductive ApiRequest (ip : Bytes) (port : ℕ) : HttpRequest → Prop
  | add (body : Bytes) : ApiRequest ip port (addRequest ip port body)
  | fileLs (cid : Bytes) : ApiRequest ip port (fileLsRequest ip port cid)
  | cat (cid : Bytes) : ApiRequest ip port (catRequest ip port cid)

/-- The request is one of the API. -/
def IsApi (request : HttpRequest) : Prop := ∃ ip port, ApiRequest ip port request

/-- The event is a request of the API. -/
def ApiEvent (e : CallEvent) : Prop := ∃ request, e.1 = .httpClientPerform request ∧ IsApi request

/-- The last byte of a URL is that of its path. -/
theorem getLast?_nodeUrl (ip : Bytes) (port : ℕ) (path : Bytes) (b : UInt8) :
    (nodeUrl ip port (path ++ [b])).getLast? = some b := by
  unfold nodeUrl
  rw [← List.append_assoc, List.getLast?_concat]

/-- No request of the API has the URL of the version, which ends in an `n`. -/
theorem ApiRequest.getLast?_url {ip : Bytes} {port : ℕ} {request : HttpRequest}
    (h : ApiRequest ip port request) : request.url.getLast? ≠ some 110 := by
  cases h with
  | add body =>
    exact fun h => by cases (getLast?_nodeUrl ip port (ascii "/api/v0/ad") 100).symm.trans h
  | fileLs cid =>
    exact fun h => by cases (getLast?_nodeUrl ip port (ascii "/api/v0/file/l") 115).symm.trans h
  | cat cid =>
    exact fun h => by cases (getLast?_nodeUrl ip port (ascii "/api/v0/ca") 116).symm.trans h

/-- The version request is none of the API. -/
private theorem not_isApi_versionRequest (ip : Bytes) (port : ℕ) :
    ¬IsApi (versionRequest ip port) := by
  rintro ⟨ip', port', h⟩
  exact h.getLast?_url (getLast?_nodeUrl ip port (ascii "/versio") 110)

/-- The node has answered the reachability test. -/
def Passed (ip : Bytes) (port : ℕ) (tr : List CallEvent) : Prop :=
  ∃ reply, ⟨.httpClientPerform (versionRequest ip port), reply⟩ ∈ tr ∧
    reply.answer = .ok HttpStatus_OK

/-- A test stays passed as the trace goes on. -/
theorem Passed.append {ip : Bytes} {port : ℕ} {tr : List CallEvent} (h : Passed ip port tr)
    (tr' : List CallEvent) : Passed ip port (tr ++ tr') := by
  obtain ⟨reply, hmem, hanswer⟩ := h
  exact ⟨reply, List.mem_append_left _ hmem, hanswer⟩

/-! ### The invariant -/

/-- An address of a configured node, with that node's port. -/
def Configured (nodes : List RpcNode) (ip : Bytes) (port : ℕ) : Prop :=
  ∃ node ∈ nodes, (ip = node.ipv4 ∨ ip = node.ipv6) ∧ port = node.port

/-- A configured node that had passed the test before, as `Before` has it, or has passed it
since. -/
structure Verified (nodes : List RpcNode) (Before : Bytes → ℕ → Prop) (past : List CallEvent)
    (ip : Bytes) (port : ℕ) : Prop where
  configured : Configured nodes ip port
  passed : Before ip port ∨ Passed ip port past

/-- A verified node stays so as the trace goes on. -/
theorem Verified.append {nodes : List RpcNode} {Before : Bytes → ℕ → Prop} {past : List CallEvent}
    {ip : Bytes} {port : ℕ} (h : Verified nodes Before past ip port) (new : List CallEvent) :
    Verified nodes Before (past ++ new) ip port :=
  ⟨h.configured, h.passed.imp_right (·.append new)⟩

/-- The connection knows its nodes, its current node is a verified one, and requests of the API
have only been sent to nodes that were verified then. None of the past events is one of `Marks`,
which are some of the requests of the API. -/
structure NodeInv (nodes : List RpcNode) (Before : Bytes → ℕ → Prop) (Marks : CallEvent → Prop)
    (s : Thread IPFSConnect) (past : List CallEvent) : Prop where
  rpcNodes : s.conn.rpcNodes = nodes
  current : s.conn.currentNodeIp ≠ [] →
    Verified nodes Before past s.conn.currentNodeIp s.conn.currentNodePort
  sent : ∀ front request reply back, past = front ++ ⟨.httpClientPerform request, reply⟩ :: back →
    IsApi request → ∃ ip port, ApiRequest ip port request ∧ Verified nodes Before front ip port
  marks : ∀ e, Marks e → ApiEvent e
  unmarked : ∀ e ∈ past, ¬Marks e

section Invariant

variable {nodes : List RpcNode} {Before : Bytes → ℕ → Prop} {Marks Marks' : CallEvent → Prop}
  {s : Thread IPFSConnect} {past : List CallEvent} {ip : Bytes} {port : ℕ}

/-- The invariant with fewer events that mark the node. -/
theorem NodeInv.mono (h : NodeInv nodes Before Marks s past) (hle : ∀ e, Marks' e → Marks e) :
    NodeInv nodes Before Marks' s past :=
  ⟨h.rpcNodes, h.current, h.sent, fun e he => h.marks e (hle e he),
    fun e he hmark => h.unmarked e he (hle e hmark)⟩

/-- One more event that does not mark the node, and whose request goes to a verified one. -/
theorem NodeInv.concat {e : CallEvent} (h : NodeInv nodes Before Marks s past) (hmark : ¬Marks e)
    (he : ∀ request, e.1 = .httpClientPerform request → IsApi request →
      ∃ ip port, ApiRequest ip port request ∧ Verified nodes Before past ip port) :
    NodeInv nodes Before Marks s (past ++ [e]) where
  rpcNodes := h.rpcNodes
  current hip := (h.current hip).append [e]
  sent front request reply back heq hapi := by
    rcases List.eq_nil_or_concat back with rfl | ⟨back, e', rfl⟩
    · obtain ⟨rfl, hlast⟩ := List.append_inj' heq rfl
      obtain rfl := (List.cons.inj hlast).1
      exact he request rfl hapi
    · rw [List.concat_eq_append, ← List.cons_append, ← List.append_assoc] at heq
      obtain ⟨rfl, -⟩ := List.append_inj' heq rfl
      exact h.sent front request reply back rfl hapi
  marks := h.marks
  unmarked e' he' := by
    rcases List.mem_append.mp he' with he' | he'
    · exact h.unmarked e' he'
    · rwa [List.mem_singleton.mp he']

/-- An event that is no request of the API keeps the invariant. -/
theorem NodeInv.quiet {e : CallEvent} (h : NodeInv nodes Before Marks s past) (he : ¬ApiEvent e) :
    NodeInv nodes Before Marks s (past ++ [e]) :=
  h.concat (fun hmark => he (h.marks e hmark))
    fun request heq hapi => absurd ⟨request, heq, hapi⟩ he

/-- So does a request to the current node. -/
theorem NodeInv.send {request : HttpRequest} {reply : HttpReply}
    (h : NodeInv nodes Before Marks s past) (hcurrent : s.conn.currentNodeIp ≠ [])
    (hrequest : ApiRequest s.conn.currentNodeIp s.conn.currentNodePort request)
    (hmark : ¬Marks ⟨.httpClientPerform request, reply⟩) :
    NodeInv nodes Before Marks s (past ++ [⟨.httpClientPerform request, reply⟩]) := by
  refine h.concat hmark ?_
  rintro _ ⟨⟩ -
  exact ⟨_, _, hrequest, h.current hcurrent⟩

/-- The error of the thread plays no part. -/
theorem NodeInv.hiveError (h : NodeInv nodes Before Marks s past) (e : ℤ) :
    NodeInv nodes Before Marks { s with hiveError := e } past :=
  ⟨h.rpcNodes, h.current, h.sent, h.marks, h.unmarked⟩

/-- A node that has just been verified becomes the current one. -/
theorem NodeInv.select (h : NodeInv nodes Before Marks s past)
    (hnode : Verified nodes Before past ip port) : NodeInv nodes Before Marks
      { s with conn := { s.conn with currentNodeIp := ip, currentNodePort := port } } past :=
  ⟨h.rpcNodes, fun _ => hnode, h.sent, h.marks, h.unmarked⟩

/-- Marking the node unreachable keeps the invariant, whatever came before. -/
theorem NodeInv.mark (h : NodeInv nodes Before Marks s past) : NodeInv nodes Before Marks
    { s with conn := { s.conn with currentNodeIp := [] } } past :=
  ⟨h.rpcNodes, fun hne => absurd rfl hne, h.sent, h.marks, h.unmarked⟩

end Invariant

/-! ### Choosing a node -/

section Spec

variable {nodes : List RpcNode} {Before : Bytes → ℕ → Prop} {Marks : CallEvent → Prop}
  {s : Thread IPFSConnect} {past : List CallEvent}

/-- Some node has answered the reachability test. -/
def AnyPassed (past : List CallEvent) : Prop := ∃ ip port, Passed ip port past

/-- The test of a node that succeeds has passed. -/
theorem testReachable_spec (h : NodeInv nodes Before Marks s past) (ip : Bytes) (port : ℕ) :
    Script.wp record noFault (testReachable ip port)
      (fun rc s' past' => s' = s ∧ NodeInv nodes Before Marks s past' ∧
        (rc = 0 → Passed ip port past')) s past := by
  have negative {e : ℤ} {past' : List CallEvent} (hneg : toInt e < 0)
      (h : NodeInv nodes Before Marks s past') : NodeInv nodes Before Marks s past' ∧
        (toInt e = 0 → Passed ip port past') :=
    ⟨h, fun hzero => absurd hzero hneg.ne⟩
  have hclient (created : Bool) : ¬ApiEvent ⟨.httpClientNew .testReachable, created⟩ := by
    rintro ⟨request, hrequest, -⟩
    cases hrequest
  have hversion (reply : HttpReply) :
      ¬ApiEvent ⟨.httpClientPerform (versionRequest ip port), reply⟩ := by
    rintro ⟨request, hrequest, hapi⟩
    cases hrequest
    exact not_isApi_versionRequest ip port hapi
  unfold testReachable
  simp only [Script.wp_bind, Script.wp_ite, Script.wp_ask, Script.wp_pure]
  refine ⟨fun _ => ⟨trivial, negative (toInt_hiveGeneralError_neg _) h⟩, fun _ => ?_⟩
  rintro created _ rfl
  refine ⟨fun _ => ⟨trivial, negative (toInt_hiveGeneralError_neg _) (h.quiet (hclient created))⟩,
    fun _ => ?_⟩
  rintro reply _ rfl
  have hquiet := (h.quiet (hclient created)).quiet (hversion reply)
  cases hanswer : reply.answer with
  | error e => exact ⟨rfl, negative (HttpReply.toInt_answer_neg hanswer) hquiet⟩
  | ok status =>
    simp only [Script.wp_ite, Script.wp_pure]
    refine ⟨fun _ => ⟨trivial, negative (toInt_hiveHttpStatusError_neg _) hquiet⟩,
      fun hok => ⟨trivial, hquiet, fun _ => ?_⟩⟩
    refine ⟨reply, List.mem_append_right _ (List.mem_singleton_self _), ?_⟩
    rw [hanswer, not_not.mp hok]

/-- So has an address that is found. -/
theorem tryAddress_spec (h : NodeInv nodes Before Marks s past) (ip : Bytes) (port : ℕ) :
    Script.wp record noFault (tryAddress ip port)
      (fun found s' past' => s' = s ∧ NodeInv nodes Before Marks s past' ∧
        (found = true → ip ≠ [] ∧ Passed ip port past')) s past := by
  unfold tryAddress
  simp only [Script.wp_ite, Script.wp_bind, Script.wp_pure]
  refine ⟨fun _ => ⟨trivial, h, by rintro ⟨⟩⟩, fun hip => ?_⟩
  refine Script.wp_mono (testReachable_spec h ip port) (fun _ _ h => h) ?_
  rintro rc _ past' ⟨rfl, hinv, hpassed⟩
  exact ⟨rfl, hinv, fun hzero => ⟨hip, hpassed (of_decide_eq_true hzero)⟩⟩

/-- What choosing a node comes to: a node that has answered just now is the current one, or
nothing has changed and an error is returned. -/
inductive Chosen (nodes : List RpcNode) (Before : Bytes → ℕ → Prop) (Marks : CallEvent → Prop)
    (s : Thread IPFSConnect) : ℤ → Thread IPFSConnect → List CallEvent → Prop
  | found {s' : Thread IPFSConnect} {past : List CallEvent}
      (hinv : NodeInv nodes Before Marks s' past)
      (hip : s'.conn.currentNodeIp ≠ []) (hpassed : AnyPassed past) :
      Chosen nodes Before Marks s 0 s' past
  | none {rc : ℤ} {past : List CallEvent} (hinv : NodeInv nodes Before Marks s past)
      (hrc : rc < 0) :
      Chosen nodes Before Marks s rc s past

/-- Choosing an address of a configured node that has passed. -/
private theorem select_chosen (h : NodeInv nodes Before Marks s past) {node : RpcNode}
    (hnode : node ∈ nodes)
    {ip : Bytes} (haddress : ip = node.ipv4 ∨ ip = node.ipv6) (hip : ip ≠ [])
    (hpassed : Passed ip node.port past) :
    Script.wp record noFault (do
      select ip node.port
      return (0 : ℤ)) (Chosen nodes Before Marks s) s past :=
  .found (h.select ⟨⟨node, hnode, haddress, rfl⟩, .inr hpassed⟩) hip ⟨ip, node.port, hpassed⟩

/-- The search chooses such an address or none, by induction on the rounds. -/
theorem selectLoop_spec (h : NodeInv nodes Before Marks s past) (base rounds i : ℕ)
    (hi : i < nodes.length) :
    Script.wp record noFault (selectLoop nodes base rounds i)
      (Chosen nodes Before Marks s) s past := by
  induction rounds generalizing i past with
  | zero => exact fun r => r.elim
  | succ rounds ih =>
    unfold selectLoop
    rw [List.getElem?_eq_getElem hi]
    have hmem := List.getElem_mem hi
    simp only [Script.wp_bind, Script.wp_ite, Script.wp_pure]
    refine Script.wp_mono (tryAddress_spec h _ _) (fun _ _ h => h) ?_
    rintro found₄ s₁ past₁ ⟨rfl, h₁, hpassed₄⟩
    refine ⟨fun hfound => ?_, fun _ => ?_⟩
    · obtain ⟨hip, hpassed⟩ := hpassed₄ hfound
      exact select_chosen h₁ hmem (.inl rfl) hip hpassed
    refine Script.wp_mono (tryAddress_spec h₁ _ _) (fun _ _ h => h) ?_
    rintro found₆ s₂ past₂ ⟨rfl, h₂, hpassed₆⟩
    refine ⟨fun hfound => ?_, fun _ => ⟨fun _ => ?_, fun _ => .none h₂ (by simp)⟩⟩
    · obtain ⟨hip, hpassed⟩ := hpassed₆ hfound
      exact select_chosen h₂ hmem (.inr rfl) hip hpassed
    · exact ih h₂ _ (Nat.mod_lt _ (Nat.zero_lt_of_lt hi))

theorem selectBootstrap_spec (h : NodeInv nodes Before Marks s past) (hne : nodes ≠ []) :
    Script.wp record noFault (selectBootstrap nodes) (Chosen nodes Before Marks s) s past := by
  unfold selectBootstrap
  simp only [Script.wp_bind, Script.wp_ask]
  rintro r _ rfl
  refine selectLoop_spec (h.quiet ?_) _ _ _ (Nat.mod_lt _ (List.length_pos_iff.mpr hne))
  rintro ⟨request, hrequest, -⟩
  cases hrequest

/-- A connection that is ready for a request: its current node is there, and if it was not there
before, it has just answered. -/
structure Ready (nodes : List RpcNode) (Before : Bytes → ℕ → Prop) (Marks : CallEvent → Prop)
    (s s' : Thread IPFSConnect) (past : List CallEvent) : Prop where
  inv : NodeInv nodes Before Marks s' past
  current : s'.conn.currentNodeIp ≠ []
  fresh : s.conn.currentNodeIp = [] → AnyPassed past

/-- After the test there is a verified current node, or an error and none. -/
theorem checkReachable_spec (h : NodeInv nodes Before Marks s past) (hne : nodes ≠ []) :
    Script.wp record noFault checkReachable
      (fun rc s' past' => (rc = 0 ∧ Ready nodes Before Marks s s' past') ∨
        (rc < 0 ∧ s' = s ∧ s.conn.currentNodeIp = [] ∧
          NodeInv nodes Before Marks s past')) s past := by
  unfold checkReachable
  simp only [Script.wp_bind, Script.wp_get, Script.wp_ite, Script.wp_pure]
  refine ⟨fun hip => .inl ⟨trivial, h, hip, fun hnil => absurd hnil hip⟩, fun hip => ?_⟩
  rw [not_not] at hip
  rw [h.rpcNodes]
  refine Script.wp_mono (selectBootstrap_spec h hne) (fun _ _ h => h) ?_
  rintro rc s' past' hchosen
  cases hchosen with
  | found hinv hcurrent hpassed => exact .inl ⟨rfl, hinv, hcurrent, fun _ => hpassed⟩
  | none hinv hrc => exact .inr ⟨hrc, rfl, hip, hinv⟩

end Spec

/-! ### Operations -/

/-- An operation of an IPFS connection. The length given for a buffer is not above its size. -/
inductive Operation
  | putFileFromBuffer (body cid : Bytes)
  | getFileLength (cid : Bytes)
  | getFileToBuffer (cid block : Bytes) (buflen : ℕ) (hbuflen : buflen ≤ block.length)

namespace Operation

/-- The call of the method; the value is the one its caller sees. -/
def call : Operation → M IPFSConnect ℤ
  | putFileFromBuffer body cid => do return (← IPFS.putFileFromBuffer body cid).1
  | getFileLength cid => do return (← IPFS.getFileLength cid).ssize
  | getFileToBuffer cid block buflen _ =>
    do return (← IPFS.getFileToBuffer cid block buflen).1.ssize

/-- The operation itself has ended the transfer, by refusing bytes it has no room for. -/
def Refuses : Operation → HttpRequest → HttpReply → Prop
  | getFileToBuffer cid _ buflen _, request, reply =>
    (∃ ip port, request = catRequest ip port cid) ∧ buflen < reply.received.length
  | _, _, _ => False

/-- A request of the API has failed as unreachable. -/
def Unreachable (op : Operation) (e : CallEvent) : Prop :=
  ∃ request reply, e = ⟨.httpClientPerform request, reply⟩ ∧ IsApi request ∧
    rcNodeUnreachable reply.performed = true ∧ ¬op.Refuses request reply

/-- Only a request of the API can fail as unreachable. -/
theorem Unreachable.apiEvent {op : Operation} {e : CallEvent} (h : op.Unreachable e) :
    ApiEvent e := by
  obtain ⟨request, reply, rfl, hapi, -⟩ := h
  exact ⟨request, rfl, hapi⟩

end Operation

def tryAgain : ℤ := toInt (hiveGeneralError HIVEERR_TRY_AGAIN)

/-- How an operation ends that began with the connection `s`: no request has failed as
unreachable, or the last one has, the node is marked and the caller is told to try again. If
there was no current node before, one has answered or the operation fails. -/
inductive Ended (nodes : List RpcNode) (Before : Bytes → ℕ → Prop) (op : Operation)
    (s : Thread IPFSConnect) (rc : ℤ) (s' : Thread IPFSConnect) : List CallEvent → Prop
  | calm {past : List CallEvent} (hinv : NodeInv nodes Before op.Unreachable s' past)
      (hfresh : s.conn.currentNodeIp = [] → rc < 0 ∨ AnyPassed past) :
      Ended nodes Before op s rc s' past
  | marked {front : List CallEvent} {e : CallEvent} (hrc : rc = tryAgain)
      (hip : s'.conn.currentNodeIp = [])
      (hinv : NodeInv nodes Before (fun _ => False) s' (front ++ [e])) (he : op.Unreachable e)
      (hfront : ∀ e ∈ front, ¬op.Unreachable e) :
      Ended nodes Before op s rc s' (front ++ [e])

/-- A run that ends in a fault. -/
def Crashed (nodes : List RpcNode) (Before : Bytes → ℕ → Prop) (op : Operation)
    (s : Thread IPFSConnect) (_ : Fault) (past : List CallEvent) : Prop :=
  (∃ s', NodeInv nodes Before op.Unreachable s' past) ∧
    (s.conn.currentNodeIp = [] → AnyPassed past)

section Operations

variable {nodes : List RpcNode} {Before : Bytes → ℕ → Prop} {op : Operation}
  {s s' : Thread IPFSConnect} {past : List CallEvent} {request : HttpRequest} {reply : HttpReply}

theorem tryAgain_neg : tryAgain < 0 := toInt_hiveGeneralError_neg _

/-- A passed test is not undone. -/
theorem AnyPassed.append (h : AnyPassed past) (new : List CallEvent) : AnyPassed (past ++ new) := by
  obtain ⟨ip, port, hpassed⟩ := h
  exact ⟨ip, port, hpassed.append new⟩

/-- An operation that ends without a further request. -/
theorem Ready.calm (h : Ready nodes Before op.Unreachable s s' past) (rc : ℤ) :
    Ended nodes Before op s rc s' past :=
  .calm h.inv fun hip => .inr (h.fresh hip)

/-- And one that crashes. -/
theorem Ready.crashed (h : Ready nodes Before op.Unreachable s s' past) (e : Fault) :
    Crashed nodes Before op s e past :=
  ⟨⟨s', h.inv⟩, h.fresh⟩

/-- An event that is no request of the API. -/
theorem Ready.quiet {e : CallEvent} (h : Ready nodes Before op.Unreachable s s' past)
    (he : ¬ApiEvent e) : Ready nodes Before op.Unreachable s s' (past ++ [e]) :=
  ⟨h.inv.quiet he, h.current, fun hip => (h.fresh hip).append [e]⟩

/-- A request to the current node that does not fail as unreachable. -/
theorem Ready.send (h : Ready nodes Before op.Unreachable s s' past) (reply : HttpReply)
    (hrequest : ApiRequest s'.conn.currentNodeIp s'.conn.currentNodePort request)
    (hmark : rcNodeUnreachable reply.performed = true → op.Refuses request reply) :
    Ready nodes Before op.Unreachable s s' (past ++ [⟨.httpClientPerform request, reply⟩]) := by
  refine ⟨h.inv.send h.current hrequest ?_, h.current, fun hip => (h.fresh hip).append _⟩
  rintro ⟨_, _, ⟨⟩, -, hcode, hnot⟩
  exact hnot (hmark hcode)

/-- A request to the current node that fails as unreachable. -/
theorem Ready.marked (h : Ready nodes Before op.Unreachable s s' past)
    (hrequest : ApiRequest s'.conn.currentNodeIp s'.conn.currentNodePort request)
    (hcode : rcNodeUnreachable reply.performed = true) (hnot : ¬op.Refuses request reply) :
    Ended nodes Before op s tryAgain
      { s' with conn := { s'.conn with currentNodeIp := [] } }
      (past ++ [⟨.httpClientPerform request, reply⟩]) := by
  have hinv : NodeInv nodes Before (fun _ => False) s' past := h.inv.mono nofun
  refine .marked rfl rfl (hinv.send h.current hrequest id).mark ?_ h.inv.unmarked
  exact ⟨request, reply, rfl, ⟨_, _, hrequest⟩, hcode, hnot⟩

/-- What becomes of a transfer that has failed. -/
private theorem transferError_ended (h : Ready nodes Before op.Unreachable s s' past)
    (hrequest : ApiRequest s'.conn.currentNodeIp s'.conn.currentNodePort request)
    (hnot : ¬op.Refuses request reply) :
    Script.wp record (Crashed nodes Before op s) (transferError reply.performed)
      (Ended nodes Before op s) s' (past ++ [⟨.httpClientPerform request, reply⟩]) := by
  unfold transferError markNodeUnreachable
  simp only [Script.wp_bind, Script.wp_ite, Script.wp_modify, Script.wp_pure]
  refine ⟨fun hcode => h.marked hrequest hcode hnot, fun hcode => ?_⟩
  exact (h.send reply hrequest fun hyes => absurd hyes hcode).calm _

private theorem not_rcNodeUnreachable_zero : rcNodeUnreachable 0 ≠ true := by decide

/-- The beginning of every operation: the node is chosen and an HTTP client made. -/
private theorem checkReachable_ended {α : Type} (value : α → ℤ) {f : ℤ → M IPFSConnect α}
    (h : NodeInv nodes Before op.Unreachable s past) (hne : nodes ≠ [])
    (hready : ∀ s' past', Ready nodes Before op.Unreachable s s' past' →
      Script.wp record (Crashed nodes Before op s) (f 0)
        (fun a s'' past'' => Ended nodes Before op s (value a) s'' past'') s' past')
    (hfailed : ∀ rc, rc < 0 → ∃ a, f rc = pure a ∧ value a = rc) :
    Script.wp record (Crashed nodes Before op s) (do f (← checkReachable))
      (fun a s' past' => Ended nodes Before op s (value a) s' past') s past := by
  rw [Script.wp_bind]
  refine Script.wp_mono (checkReachable_spec h hne) (fun _ _ h => h.elim) ?_
  rintro rc s' past' (⟨rfl, hr⟩ | ⟨hrc, rfl, -, hinv⟩)
  · exact hready s' past' hr
  · obtain ⟨a, hf, hvalue⟩ := hfailed rc hrc
    rw [hf, Script.wp_pure, hvalue]
    exact .calm hinv fun _ => .inl hrc

/-- A new client is no request. -/
private theorem not_apiEvent_httpClientNew (user : HttpClientUser) (created : Bool) :
    ¬ApiEvent ⟨.httpClientNew user, created⟩ := by
  rintro ⟨request, hrequest, -⟩
  cases hrequest

/-- How the upload to a node ends. -/
private theorem putFileFromBuffer_ended {body cid : Bytes} (hne : nodes ≠ [])
    (hrefuses : ∀ request reply, ¬op.Refuses request reply)
    (h : NodeInv nodes Before op.Unreachable s past) :
    Script.wp record (Crashed nodes Before op s) (putFileFromBuffer body cid)
      (fun r s' past' => Ended nodes Before op s r.1 s' past') s past := by
  unfold putFileFromBuffer
  refine checkReachable_ended Prod.fst h hne (fun s₁ past₁ hready => ?_) fun rc hrc => ?_
  swap
  · exact ⟨(rc, cid), if_pos hrc, rfl⟩
  rw [if_neg (lt_irrefl 0)]
  simp only [Script.wp_bind, Script.wp_get, Script.wp_ask, Script.wp_ite, Script.wp_pure]
  rintro created _ rfl
  have hready := hready.quiet (not_apiEvent_httpClientNew .ipfsPutFileFromBuffer created)
  refine ⟨fun _ => hready.calm _, fun _ => ?_⟩
  rintro reply _ rfl
  have hrequest : ApiRequest s₁.conn.currentNodeIp s₁.conn.currentNodePort _ := .add body
  refine ⟨fun _ => transferError_ended hready hrequest (hrefuses _ _), fun hzero => ?_⟩
  rw [not_not] at hzero
  have hready := hready.send reply hrequest
    fun hcode => absurd (hzero ▸ hcode) not_rcNodeUnreachable_zero
  refine ⟨fun _ => hready.calm _, fun _ => ⟨fun _ => hready.calm _, fun _ => ?_⟩⟩
  rw [wp_moveAndParse]
  refine ⟨fun _ => hready.crashed _, fun _ => ?_⟩
  cases reply.parsed with
  | none => exact hready.calm _
  | some resp =>
    dsimp only
    split
    · exact hready.calm _
    · rw [Script.wp_ite]
      exact ⟨fun _ => hready.calm _, fun _ => hready.calm _⟩

/-- How the query of a length ends. -/
private theorem getFileLength_ended {cid : Bytes} (hne : nodes ≠ [])
    (hrefuses : ∀ ip port reply, ¬op.Refuses (fileLsRequest ip port cid) reply)
    (h : NodeInv nodes Before op.Unreachable s past) :
    Script.wp record (Crashed nodes Before op s) (getFileLength cid)
      (fun exit s' past' => Ended nodes Before op s exit.ssize s' past') s past := by
  unfold getFileLength
  refine checkReachable_ended Exit.ssize h hne (fun s₁ past₁ hready => ?_) fun rc hrc => ?_
  swap
  · exact ⟨.ret rc, if_pos hrc, rfl⟩
  rw [if_neg (lt_irrefl 0)]
  simp only [Script.wp_bind, Script.wp_get, Script.wp_ask, Script.wp_ite, Script.wp_pure]
  rintro created _ rfl
  have hready := hready.quiet (not_apiEvent_httpClientNew .ipfsGetFileLength created)
  refine ⟨fun _ => hready.calm _, fun _ => ?_⟩
  rintro reply _ rfl
  have hrequest : ApiRequest s₁.conn.currentNodeIp s₁.conn.currentNodePort _ := .fileLs cid
  refine ⟨fun _ => transferError_ended hready hrequest (hrefuses _ _ _), fun hzero => ?_⟩
  rw [not_not] at hzero
  have hready := hready.send reply hrequest
    fun hcode => absurd (hzero ▸ hcode) not_rcNodeUnreachable_zero
  refine ⟨fun _ => hready.calm _, fun _ => ⟨fun _ => hready.calm _, fun _ => ?_⟩⟩
  rw [wp_moveAndParse]
  refine ⟨fun _ => hready.crashed _, fun _ => ?_⟩
  cases reply.parsed with
  | none => exact hready.calm _
  | some resp =>
    dsimp only
    split
    · exact hready.calm _
    · exact hready.calm _

/-- A body that is stored in a block as long as the buffer length: it stays inside, and a chunk is
refused when the body is longer than that. The induction is on the chunks. -/
private theorem storeBody_refused {buflen actual : ℕ} {block : Bytes}
    (hbuflen : buflen ≤ block.length)
    (hactual : actual ≤ buflen) (chunks : List Bytes) :
    ∃ block' actual' refused, storeBody buflen block actual chunks =
      some (block', actual', refused) ∧
      (refused = true ↔ buflen < actual + chunks.flatten.length) := by
  induction chunks generalizing block actual with
  | nil =>
    refine ⟨block, actual, false, rfl, iff_of_false nofun ?_⟩
    simpa using hactual
  | cons chunk chunks ih =>
    have htotal : actual + (chunk :: chunks).flatten.length =
        actual + chunk.length + chunks.flatten.length := by
      rw [List.flatten_cons, List.length_append, Nat.add_assoc]
    rw [htotal]
    unfold storeBody getResponseBodyCb
    by_cases hroom : buflen < actual + chunk.length
    · rw [if_pos hroom]
      exact ⟨block, actual, true, rfl, iff_of_true rfl (by omega)⟩
    · rw [if_neg hroom, memcpy, if_pos (by omega)]
      refine ih ?_ (by omega)
      rw [List.length_append, List.length_append, List.length_take, List.length_drop]
      omega

/-- How a download ends: as its query, or with its own request. -/
private theorem getFileToBuffer_ended {cid block : Bytes} {buflen : ℕ}
    (hbuflen : buflen ≤ block.length)
    (hne : nodes ≠ [])
    (h : NodeInv nodes Before (Operation.getFileToBuffer cid block buflen hbuflen).Unreachable s
      past) :
    Script.wp record (Crashed nodes Before (.getFileToBuffer cid block buflen hbuflen) s)
      (getFileToBuffer cid block buflen)
      (fun r s' past' => Ended nodes Before (.getFileToBuffer cid block buflen hbuflen) s r.1.ssize
        s' past') s past := by
  have hls (ip : Bytes) (port : ℕ) (reply : HttpReply) :
      ¬(Operation.getFileToBuffer cid block buflen hbuflen).Refuses
        (fileLsRequest ip port cid) reply := by
    rintro ⟨⟨ip', port', heq⟩, -⟩
    have hlast := getLast?_nodeUrl ip port (ascii "/api/v0/file/l") 115
    have hlast' := getLast?_nodeUrl ip' port' (ascii "/api/v0/ca") 116
    cases hlast.symm.trans ((congrArg (fun r => r.url.getLast?) heq).trans hlast')
  unfold getFileToBuffer
  simp only [Script.wp_bind, Script.wp_ite, Script.wp_pure]
  refine Script.wp_mono (getFileLength_ended hne hls h) (fun _ _ h => h) ?_
  rintro exit s₁ past₁ hended
  refine ⟨fun _ => hended, fun hpos => ?_⟩
  -- a positive size is not an error, so the node is still the current one
  cases hended with
  | marked hrc => exact absurd (hrc ▸ tryAgain_neg.le) hpos
  | calm hinv hfresh =>
  have hfresh : s.conn.currentNodeIp = [] → AnyPassed past₁ :=
    fun hip => (hfresh hip).resolve_left fun hneg => hpos hneg.le
  refine ⟨fun _ => .calm hinv fun hip => .inr (hfresh hip), fun _ => ?_⟩
  refine Script.wp_mono (Script.wp_record_prefix (checkReachable_spec hinv hne))
    (fun _ _ h => h.elim) ?_
  rintro rc s₂ past₂ ⟨⟨rfl, hready⟩ | ⟨hrc, rfl, -, hinv⟩, ⟨new, rfl⟩⟩
  swap
  · exact ⟨fun _ => .calm hinv fun _ => .inl hrc, fun hnot => absurd hrc hnot⟩
  refine ⟨fun hneg => absurd hneg (lt_irrefl 0), fun _ => ?_⟩
  have hready : Ready nodes Before
      (Operation.getFileToBuffer cid block buflen hbuflen).Unreachable s s₂ (past₁ ++ new) :=
    ⟨hready.inv, hready.current, fun hip => (hfresh hip).append new⟩
  simp only [Script.wp_get, Script.wp_ask]
  rintro created _ rfl
  have hready := hready.quiet (not_apiEvent_httpClientNew .ipfsGetFileToBuffer created)
  refine ⟨fun _ => hready.calm _, fun _ => ?_⟩
  rintro reply _ rfl
  have hrequest : ApiRequest s₂.conn.currentNodeIp s₂.conn.currentNodePort _ := .cat cid
  obtain ⟨block', actual, refused, hstore, hrefused⟩ :=
    storeBody_refused hbuflen (Nat.zero_le buflen) reply.chunks
  rw [Nat.zero_add] at hrefused
  rw [hstore]
  cases refused with
  | true =>
    have hready := hready.send reply hrequest fun _ => ⟨⟨_, _, rfl⟩, hrefused.mp rfl⟩
    have hcode : ¬rcNodeUnreachable CURLE_WRITE_ERROR = true := by decide
    have hwrite : CURLE_WRITE_ERROR ≠ 0 := by decide
    simp only [afterTransfer, if_true, Script.wp_ite, Script.wp_bind, Script.wp_pure, transferError]
    exact ⟨fun _ => ⟨fun hyes => absurd hyes hcode, fun _ => hready.calm _⟩,
      fun hzero => absurd hwrite hzero⟩
  | false =>
    have hnot : ¬(Operation.getFileToBuffer cid block buflen hbuflen).Refuses
        (catRequest s₂.conn.currentNodeIp s₂.conn.currentNodePort cid) reply :=
      fun hyes => by cases hrefused.mpr hyes.2
    simp only [afterTransfer, Bool.false_eq_true, if_false, Script.wp_ite, Script.wp_bind,
      Script.wp_pure]
    refine ⟨fun _ => transferError_ended hready hrequest hnot, fun hzero => ?_⟩
    rw [not_not] at hzero
    have hready := hready.send reply hrequest
      fun hcode => absurd (hzero ▸ hcode) not_rcNodeUnreachable_zero
    exact ⟨fun _ => hready.calm _, fun _ => ⟨fun _ => hready.calm _, fun _ =>
      ⟨fun _ => hready.calm _, fun _ => hready.calm _⟩⟩⟩

/-- Every operation, from a connection whose current node is verified. -/
theorem Operation.call_ended (op : Operation) (hne : nodes ≠ [])
    (h : NodeInv nodes Before op.Unreachable s past) :
    Script.wp record (Crashed nodes Before op s) op.call (Ended nodes Before op s) s past := by
  cases op with
  | putFileFromBuffer body cid =>
    exact Script.wp_bind.mpr (putFileFromBuffer_ended hne (fun _ _ => id) h)
  | getFileLength cid => exact Script.wp_bind.mpr (getFileLength_ended hne (fun _ _ _ => id) h)
  | getFileToBuffer cid block buflen hbuflen =>
    exact Script.wp_bind.mpr (getFileToBuffer_ended hbuflen hne h)

end Operations

/-! ### Sessions -/

/-- A session on a connection to `nodes`: the connection, and the nodes that have answered the
reachability test since it was last marked unreachable. An operation that marks it does so at its
end. -/
inductive Session (nodes : List RpcNode) : (Bytes → ℕ → Prop) → Thread IPFSConnect → Prop
  | opened {s₀ s : Thread IPFSConnect} {tr : List CallEvent}
      (hexec : Program.Exec playback (rpcNew nodes s₀) tr (.ok (true, s)) []) :
      Session nodes (fun ip port => Passed ip port tr) s
  | operated {Before : Bytes → ℕ → Prop} {s s' : Thread IPFSConnect} {op : Operation} {rc : ℤ}
      {tr : List CallEvent} (h : Session nodes Before s)
      (hexec : Program.Exec playback (op.call s) tr (.ok (rc, s')) []) :
      Session nodes
        (fun ip port => (∀ e ∈ tr, ¬op.Unreachable e) ∧ (Before ip port ∨ Passed ip port tr)) s'

/-- Requests go to verified nodes only: of a connection, and of any operation on it. -/
structure TalksToNodes (nodes : List RpcNode) (Before : Bytes → ℕ → Prop)
    (s : Thread IPFSConnect) : Prop where
  /-- The current node is a configured one, or there is none. -/
  current : s.conn.currentNodeIp = [] ∨
    Configured nodes s.conn.currentNodeIp s.conn.currentNodePort
  /-- A request of the API goes to a configured node that has passed the test, since the
  connection was last marked unreachable or before in the same operation. -/
  sent : ∀ (op : Operation) tr o, Program.Exec playback (op.call s) tr o [] →
    ∀ front request reply back, tr = front ++ ⟨.httpClientPerform request, reply⟩ :: back →
      IsApi request → ∃ ip port, ApiRequest ip port request ∧ Verified nodes Before front ip port
  /-- A request that fails as unreachable is the last thing done, the caller is told to try
  again, and the connection is without a current node. -/
  unreachable : ∀ (op : Operation) tr o, Program.Exec playback (op.call s) tr o [] →
    ∀ front e back, tr = front ++ e :: back → op.Unreachable e →
      back = [] ∧ ∃ s', o = .ok (tryAgain, s') ∧ s'.conn.currentNodeIp = []
  /-- Without a current node an operation begins with the choice of one. -/
  afresh : s.conn.currentNodeIp = [] → ∀ (op : Operation) tr o,
    Program.Exec playback (op.call s) tr o [] → ∃ r rest, tr = ⟨.rand, r⟩ :: rest
  /-- If no node answers then, it returns an error and has sent no request of the API. -/
  noNode : s.conn.currentNodeIp = [] → ∀ (op : Operation) tr o,
    Program.Exec playback (op.call s) tr o [] → ¬AnyPassed tr →
      (∃ rc s', o = .ok (rc, s') ∧ rc < 0) ∧ ∀ e ∈ tr, ¬ApiEvent e
  /-- An operation does not wait for ever. -/
  ends : ∀ op : Operation, (op.call s).Within (fun call => call ≠ .block) fun _ => True

section Sessions

variable {nodes : List RpcNode} {Before : Bytes → ℕ → Prop} {s s' : Thread IPFSConnect}
  {tr : List CallEvent}

/-- The state between two operations. -/
structure SessionInv (nodes : List RpcNode) (Before : Bytes → ℕ → Prop) (s : Thread IPFSConnect) :
    Prop where
  rpcNodes : s.conn.rpcNodes = nodes
  nonempty : nodes ≠ []
  current : s.conn.currentNodeIp ≠ [] →
    Configured nodes s.conn.currentNodeIp s.conn.currentNodePort ∧
      Before s.conn.currentNodeIp s.conn.currentNodePort

/-- An operation begins with nothing in its own past. -/
theorem NodeInv.start {op : Operation} (hnodes : s.conn.rpcNodes = nodes)
    (hcurrent : s.conn.currentNodeIp ≠ [] →
      Verified nodes Before [] s.conn.currentNodeIp s.conn.currentNodePort) :
    NodeInv nodes Before op.Unreachable s [] where
  rpcNodes := hnodes
  current := hcurrent
  sent front request reply back heq := by simp at heq
  marks _ := Operation.Unreachable.apiEvent
  unmarked := nofun

/-- An operation begins under the invariant of the session. -/
theorem SessionInv.nodeInv (h : SessionInv nodes Before s) (op : Operation) :
    NodeInv nodes Before op.Unreachable s [] :=
  .start h.rpcNodes fun hip => ⟨(h.current hip).1, .inl (h.current hip).2⟩

/-- A new connection is under the invariant, with no node tested. -/
theorem rpcNew_spec {s : Thread IPFSConnect} (hne : nodes ≠ []) :
    Script.wp record noFault (rpcNew nodes) (fun made s' past => made = true →
      NodeInv nodes (fun _ _ => False) (fun _ => False) s' past) s [] := by
  unfold rpcNew
  simp only [Script.wp_bind, Script.wp_ask, Script.wp_ite, Script.wp_modify, Script.wp_pure]
  rintro made _ rfl
  refine ⟨by rintro _ ⟨⟩, fun _ => ?_⟩
  have hempty : NodeInv nodes (fun _ _ => False) (fun _ => False)
      { s with conn := ⟨[], 0, nodes⟩ } [] :=
    ⟨rfl, fun hip => absurd rfl hip, fun _ _ _ _ heq => by simp at heq, by rintro _ ⟨⟩,
      by rintro _ ⟨⟩⟩
  have hmalloc : ¬ApiEvent ⟨.malloc (rpcSize + rpcNodeSize * nodes.length), made⟩ := by
    rintro ⟨request, hrequest, -⟩
    cases hrequest
  refine Script.wp_mono (selectBootstrap_spec (hempty.quiet hmalloc) hne) (fun _ _ h => h) ?_
  rintro rc s₁ past hchosen
  refine ⟨by rintro _ ⟨⟩, fun hrc _ => ?_⟩
  cases hchosen with
  | found hinv => exact hinv
  | none hinv => exact hinv

/-- `ipfs_rpc_new` cannot be left with no node to choose from. -/
private theorem not_exec_rpcNew_nil {s : Thread IPFSConnect}
    {o : Except Fault (Bool × Thread IPFSConnect)} :
    ¬(Program.Exec playback (rpcNew [] s) tr o [] ∧ ∃ s', o = .ok (true, s')) := by
  rintro ⟨hexec, s', rfl⟩
  have hwp : Script.wp playback anyFault (rpcNew []) (fun made _ _ => made = false) s tr := by
    unfold rpcNew selectBootstrap
    simp only [Script.wp_bind, Script.wp_ask, Script.wp_ite, Script.wp_modify, Script.wp_pure]
    rintro made _ -
    refine ⟨fun _ => trivial, fun _ r _ _ => ?_⟩
    exact fun r => r.elim
  cases hwp.of_exec hexec

/-- The invariant holds between any two operations of a session, by induction on it. -/
theorem Session.inv (h : Session nodes Before s) : SessionInv nodes Before s := by
  induction h with
  | @opened s₀ s tr hexec =>
    have hne : nodes ≠ [] := by
      rintro rfl
      exact not_exec_rpcNew_nil ⟨hexec, s, rfl⟩
    have hinv := (rpcNew_spec hne).of_playback hexec rfl
    refine ⟨hinv.rpcNodes, hne, fun hip => ?_⟩
    obtain ⟨hconfigured, hpassed⟩ := hinv.current hip
    exact ⟨hconfigured, hpassed.resolve_left id⟩
  | @operated Before s s' op rc tr _ hexec ih =>
    have hended := (op.call_ended ih.nonempty (ih.nodeInv op)).of_playback hexec
    rw [List.nil_append] at hended
    cases hended with
    | calm hinv =>
      refine ⟨hinv.rpcNodes, ih.nonempty, fun hip => ?_⟩
      obtain ⟨hconfigured, hpassed⟩ := hinv.current hip
      exact ⟨hconfigured, hinv.unmarked, hpassed⟩
    | marked _ hip hinv => exact ⟨hinv.rpcNodes, ih.nonempty, fun hne => absurd hip hne⟩

/-- What is known at the end of an operation, however it ends. -/
private theorem call_past (op : Operation) (hne : nodes ≠ [])
    (h : NodeInv nodes Before op.Unreachable s []) {o : Except Fault (ℤ × Thread IPFSConnect)}
    (hexec : Program.Exec playback (op.call s) tr o []) :
    (∃ rc s', o = .ok (rc, s') ∧ Ended nodes Before op s rc s' tr) ∨
      ∃ e, Crashed nodes Before op s e tr := by
  have hends := (op.call_ended hne h).of_playback hexec
  rw [List.nil_append] at hends
  match o, hends with
  | .ok (rc, s'), hends => exact .inl ⟨rc, s', rfl, hends⟩
  | .error e, hends => exact .inr ⟨e, hends⟩

/-- Requests have been sent to verified nodes only, however the operation ends. -/
private theorem call_sent (op : Operation) (hne : nodes ≠ [])
    (h : NodeInv nodes Before op.Unreachable s []) {o : Except Fault (ℤ × Thread IPFSConnect)}
    (hexec : Program.Exec playback (op.call s) tr o []) :
    ∃ s' Marks, NodeInv nodes Before Marks s' tr := by
  rcases call_past op hne h hexec with ⟨rc, s', -, hended⟩ | ⟨e, ⟨s', hinv⟩, -⟩
  · cases hended with
    | calm hinv => exact ⟨s', _, hinv⟩
    | marked _ _ hinv => exact ⟨s', _, hinv⟩
  · exact ⟨s', _, hinv⟩

/-- Without a current node the first thing an operation does is to take a random number. -/
private theorem call_afresh (op : Operation) (hip : s.conn.currentNodeIp = []) :
    ∃ k, op.call s = .ask .rand k := by
  have hcheck : ∃ k, checkReachable s = .ask .rand k := by
    unfold checkReachable
    refine ⟨fun r => selectLoop s.conn.rpcNodes (r % s.conn.rpcNodes.length) s.conn.rpcNodes.length
      (r % s.conn.rpcNodes.length) s, ?_⟩
    change (if s.conn.currentNodeIp ≠ [] then pure 0 else selectBootstrap s.conn.rpcNodes :
      M IPFSConnect ℤ) s = _
    rw [if_neg (not_not.mpr hip)]
    rfl
  have hbind {α β : Type} {m : M IPFSConnect α} (f : α → M IPFSConnect β)
      (hm : ∃ k, m s = .ask .rand k) : ∃ k, (m >>= f) s = .ask .rand k := by
    obtain ⟨k, hk⟩ := hm
    exact ⟨fun r => k r >>= fun p => f p.1 p.2,
      congrArg (fun p => p >>= fun q : α × Thread IPFSConnect => f q.1 q.2) hk⟩
  cases op with
  | putFileFromBuffer body cid => exact hbind _ (hbind _ hcheck)
  | getFileLength cid => exact hbind _ (hbind _ hcheck)
  | getFileToBuffer cid block buflen hbuflen => exact hbind _ (hbind _ (hbind _ hcheck))

/-- The invariant says all that is stated of the operation that follows. -/
theorem SessionInv.talksToNodes (h : SessionInv nodes Before s) : TalksToNodes nodes Before s where
  current := by
    by_cases hip : s.conn.currentNodeIp = []
    · exact .inl hip
    · exact .inr (h.current hip).1
  sent op tr o hexec := by
    obtain ⟨s', Marks, hinv⟩ := call_sent op h.nonempty (h.nodeInv op) hexec
    exact hinv.sent
  unreachable op tr o hexec front e back heq he := by
    have hmem : e ∈ tr := heq ▸ List.mem_append_right _ List.mem_cons_self
    rcases call_past op h.nonempty (h.nodeInv op) hexec with
      ⟨rc, s', rfl, hended⟩ | ⟨_, ⟨s', hinv⟩, -⟩
    · cases hended with
      | calm hinv => exact absurd he (hinv.unmarked e hmem)
      | @marked front' e' hrc hip _ _ hfront =>
        refine ⟨?_, s', by rw [hrc], hip⟩
        by_contra hback
        -- the event would not be the last one
        obtain ⟨back', e'', rfl⟩ := (List.eq_nil_or_concat back).resolve_left hback
        rw [List.concat_eq_append, ← List.cons_append, ← List.append_assoc] at heq
        obtain ⟨hsame, -⟩ := List.append_inj' heq rfl
        exact hfront e (hsame ▸ List.mem_append_right _ List.mem_cons_self) he
    · exact absurd he (hinv.unmarked e hmem)
  afresh hip op tr o hexec := by
    obtain ⟨k, hk⟩ := call_afresh op hip
    rw [hk] at hexec
    cases hexec with
    | ask hr _ => exact ⟨_, _, hr⟩
  noNode hip op tr o hexec hnone := by
    -- nothing that was known before counts
    have hinv : NodeInv nodes (fun _ _ => False) op.Unreachable s [] :=
      .start h.rpcNodes fun hne => absurd hip hne
    refine ⟨?_, ?_⟩
    · rcases call_past op h.nonempty hinv hexec with ⟨rc, s', rfl, hended⟩ | ⟨_, -, hfresh⟩
      · cases hended with
        | calm _ hfresh => exact ⟨rc, s', rfl, (hfresh hip).resolve_right hnone⟩
        | marked hrc => exact ⟨rc, s', rfl, hrc ▸ tryAgain_neg⟩
      · exact absurd (hfresh hip) hnone
    · rintro ⟨_, reply⟩ hmem ⟨request, rfl, hapi⟩
      obtain ⟨s', Marks, hinv⟩ := call_sent op h.nonempty hinv hexec
      obtain ⟨front, back, rfl⟩ := List.append_of_mem hmem
      obtain ⟨ip, port, -, hverified⟩ := hinv.sent front request reply back rfl hapi
      have hpassed := hverified.passed.resolve_left id
      exact hnone ⟨ip, port, hpassed.append _⟩
  ends op := by
    have hasks : Script.Confined (fun s => s.conn.rpcNodes = nodes) (Call.ForNode nodes)
        (fun _ => True) op.call := by
      cases op with
      | putFileFromBuffer body cid => exact .bind (putFileFromBuffer_confined _ _) fun _ => .pure _
      | getFileLength cid => exact .bind (getFileLength_confined trivial _) fun _ => .pure _
      | getFileToBuffer cid block buflen _ =>
        exact .bind (getFileToBuffer_confined _ _ _) fun _ => .pure _
    refine (hasks s h.rpcNodes).within.mono (fun call hcall => ?_) fun _ h => h
    rintro rfl
    exact h.nonempty hcall

/-- Whatever the network does, a connection talks to nodes it was configured with and has found
reachable. -/
theorem session_talksToNodes (h : Session nodes Before s) : TalksToNodes nodes Before s :=
  h.inv.talksToNodes

end Sessions

/-- The only node of a connection. -/
def oneNode : RpcNode where
  ipv4 := ascii "10.0.0.1"
  ipv6 := []
  port := 9095

/-- The node answers once, and cannot be connected to after that. -/
def answersOnce (asked : ℕ) : (i : Call) → Option (i.Reply × ℕ)
  | .malloc _ => some (true, asked)
  | .rand => some (7, asked)
  | .httpClientNew _ => some (true, asked)
  | .httpClientPerform _ =>
    if asked = 0 then some (.accepted [] none, 1)
    else some ({ HttpReply.accepted [] none with performed := CURLE_COULDNT_CONNECT }, asked + 1)
  | _ => none

/-- A connection without memory of a node. -/
def unconnected : Thread IPFSConnect := ⟨⟨[], 0, []⟩, 0⟩

theorem session_talksToNodes_oneNode :
    ∃ Before s, s.conn.currentNodeIp = [] ∧ TalksToNodes [oneNode] Before s := by
  have hopen : ((rpcNew [oneNode] unconnected).runWith answersOnce 0).map Prod.fst =
      some (.ok (true, ⟨⟨ascii "10.0.0.1", 9095, [oneNode]⟩, 0⟩)) := rfl
  obtain ⟨tr, hopened⟩ := Program.exists_exec_of_runWith hopen
  have hlength : (((Operation.getFileLength (ascii "Qm")).call
      ⟨⟨ascii "10.0.0.1", 9095, [oneNode]⟩, 0⟩).runWith answersOnce 1).map Prod.fst =
        some (.ok (tryAgain, ⟨⟨[], 9095, [oneNode]⟩, 0⟩)) := rfl
  obtain ⟨tr', hoperated⟩ := Program.exists_exec_of_runWith hlength
  exact ⟨_, _, rfl, session_talksToNodes (.operated (.opened hopened) hoperated)⟩

end HiveSDK.IPFS
