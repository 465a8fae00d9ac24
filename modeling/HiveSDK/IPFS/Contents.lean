import HiveSDK.Errors.Lengths
import HiveSDK.Interaction.Gate
import HiveSDK.Interaction.Simulation

/-!
# What is put on IPFS is what is got

The nodes of a cluster hold contents by their CID, and what is held under a CID does not change:
others add to it at any time, nobody takes away or replaces. Of the nodes themselves little is
asked. They may be down, answer with any error or not at all, and be exchanged for one another
between two requests; what they answer with 200 is true of the cluster (`Truthful`).

Over any number of calls by any number of connections, a content that has been put is the one that
is got under the CID the put has returned (`gets_of_puts`): as its length, in a buffer and in a
file, and in full when the nodes answer, whichever of them the connection has to turn to. The errors
that are returned as lengths are no lengths of it, which is why they have to be excluded.
-/

namespace HiveSDK

open Interaction C

/-- What a cluster holds, by CID. -/
abbrev Contents := Bytes → Option Bytes

/-- What is held in the one is held in the other. -/
def Contents.Kept (c c' : Contents) : Prop := ∀ cid data, c cid = some data → c' cid = some data

/-- A cluster keeps its contents when nothing happens. -/
theorem Contents.Kept.refl (c : Contents) : c.Kept c := fun _ _ h => h

/-- And over two stretches of time when it does over each. -/
theorem Contents.Kept.trans {c₁ c₂ c₃ : Contents} (h₁ : c₁.Kept c₂) (h₂ : c₂.Kept c₃) :
    c₁.Kept c₃ :=
  fun cid data h => h₂ cid data (h₁ cid data h)

namespace IPFS

/-- What a node answers with 200 is so. -/
structure Truthful (c : Contents) (e : CallEvent) : Prop where
  added : ∀ ip port body reply, e = ⟨.httpClientPerform (addRequest ip port body), reply⟩ →
    reply.answer = .ok HttpStatus_OK → ∀ resp hash, reply.document = some resp →
      Json.nonemptyString? (resp.getObjectItemCaseSensitive (ascii "Hash")) = some hash →
        c hash = some body
  listed : ∀ ip port cid reply, e = ⟨.httpClientPerform (fileLsRequest ip port cid), reply⟩ →
    reply.answer = .ok HttpStatus_OK → ∀ resp size, reply.document = some resp →
      listedSize cid resp = some size → ∃ data, c cid = some data ∧ size = data.length
  sent : ∀ ip port cid reply, e = ⟨.httpClientPerform (catRequest ip port cid), reply⟩ →
    reply.answer = .ok HttpStatus_OK → c cid = some reply.received

/-- What is so stays so. -/
theorem Truthful.kept {c c' : Contents} {e : CallEvent} (h : Truthful c e) (hkept : c.Kept c') :
    Truthful c' e where
  added ip port body reply heq hanswer resp hash hresp hhash :=
    hkept _ _ (h.added ip port body reply heq hanswer resp hash hresp hhash)
  listed ip port cid reply heq hanswer resp size hresp hsize := by
    obtain ⟨data, hdata, hlen⟩ := h.listed ip port cid reply heq hanswer resp size hresp hsize
    exact ⟨data, hkept _ _ hdata, hlen⟩
  sent ip port cid reply heq hanswer := hkept _ _ (h.sent ip port cid reply heq hanswer)

/-- Only requests are answered. -/
private theorem truthful_of_ne {c : Contents} {e : CallEvent}
    (h : ∀ request reply, e ≠ ⟨.httpClientPerform request, reply⟩) : Truthful c e where
  added _ _ _ reply heq := absurd heq (h _ reply)
  listed _ _ _ reply heq := absurd heq (h _ reply)
  sent _ _ _ reply heq := absurd heq (h _ reply)

/-- While a call runs on the trace `tr`, the cluster goes from `c` to `c'`, and what its nodes
answer is true when they answer. -/
structure Serves (c : Contents) (tr : List CallEvent) (c' : Contents) : Prop where
  kept : c.Kept c'
  answers : ∀ e ∈ tr, ∃ now : Contents, c.Kept now ∧ now.Kept c' ∧ Truthful now e

/-- It is still true at the end. -/
theorem Serves.truthful {c c' : Contents} {tr : List CallEvent} (h : Serves c tr c')
    {e : CallEvent} (he : e ∈ tr) : Truthful c' e := by
  obtain ⟨now, -, hkept, htrue⟩ := h.answers e he
  exact htrue.kept hkept

/-! ### Puts -/

/-- A node has given the content this CID. -/
def Added (body : Bytes) (tr : List CallEvent) (hash : Bytes) : Prop :=
  ∃ ip port reply resp, ⟨.httpClientPerform (addRequest ip port body), reply⟩ ∈ tr ∧
    reply.answer = .ok HttpStatus_OK ∧ reply.document = some resp ∧
    Json.nonemptyString? (resp.getObjectItemCaseSensitive (ascii "Hash")) = some hash

/-- A content that has been added to a cluster that serves is held by it. -/
theorem Added.held {body hash : Bytes} {tr : List CallEvent} {c c' : Contents}
    (h : Added body tr hash) (hserves : Serves c tr c') : c' hash = some body := by
  obtain ⟨ip, port, reply, resp, hmem, hanswer, hresp, hhash⟩ := h
  exact (hserves.truthful hmem).added ip port body reply rfl hanswer resp hash hresp hhash

theorem Added.ne_nil {body hash : Bytes} {tr : List CallEvent} (h : Added body tr hash) :
    hash ≠ [] := by
  obtain ⟨ip, port, reply, resp, -, -, -, hhash⟩ := h
  exact (Json.nonemptyString?_eq_some.mp hhash).1

section Puts

variable {s : Thread IPFSConnect} {past : List CallEvent}

/-- A put that succeeds has added the body under the identifier it returns. -/
private theorem putFileFromBuffer_added (body cid : Bytes) :
    Script.wp record (fun _ _ => True) (putFileFromBuffer body cid)
      (fun r _ past' => 0 ≤ r.1 → Added body past' r.2) s past := by
  unfold putFileFromBuffer
  simp only [Script.wp_bind, Script.wp_ite, Script.wp_pure, Script.wp_get, Script.wp_ask]
  refine Script.wp_mono Script.wp_true (fun _ _ _ => trivial) ?_
  intro rc s₁ past₁ _
  refine ⟨fun hneg hpos => absurd hneg hpos.not_gt, fun _ created past₂ _ => ?_⟩
  have hfailed (code : ℤ) {past' : List CallEvent} :
      0 ≤ toInt (hiveGeneralError code) → Added body past' cid :=
    fun hpos => absurd (toInt_hiveGeneralError_neg code) hpos.not_gt
  refine ⟨fun _ => hfailed HIVEERR_OUT_OF_MEMORY, fun _ reply past₃ hreply => ?_⟩
  refine ⟨fun _ => ?_, fun hperformed => ⟨fun _ hpos => ?_, fun hinfo => ⟨fun _ hpos => ?_,
    fun hstatus => ?_⟩⟩⟩
  · refine Script.wp_mono transferError_neg (fun _ _ h => h) ?_
    intro rc _ _ hneg hpos
    exact absurd hneg.1 hpos.not_gt
  · exact absurd (toInt_hiveCurlError_neg _) hpos.not_gt
  · exact absurd (toInt_hiveHttpStatusError_neg _) hpos.not_gt
  rw [not_not] at hperformed hinfo hstatus
  rw [wp_moveAndParse]
  refine ⟨fun _ => trivial, fun hbody => ?_⟩
  cases hparsed : reply.parsed with
  | none => exact hfailed HIVEERR_OUT_OF_MEMORY
  | some resp =>
    dsimp only
    split
    · exact hfailed HIVEERR_BAD_JSON_FORMAT
    · rename_i hash hhash
      simp only [Script.wp_ite, Script.wp_pure]
      refine ⟨fun _ => hfailed HIVEERR_BAD_JSON_FORMAT, fun _ _ => ?_⟩
      refine ⟨_, _, reply, resp, hreply ▸ List.mem_append_right _ (List.mem_singleton_self _),
        HttpReply.answer_eq_ok.mpr ⟨hperformed, hinfo, hstatus⟩, ?_, hhash⟩
      rw [HttpReply.document, if_neg hbody, hparsed]

/-- What `hive_ipfs_put_file_from_buffer` has put. -/
private theorem hiveIpfsPutFileFromBuffer_added (src : Option Bytes) (length : ℕ)
    (cid : Option Bytes)
    (past : List CallEvent) :
    Script.wp record (fun _ _ => True) (hiveIpfsPutFileFromBuffer (some ipfsMethods) src length cid)
      (fun r _ past' => 0 ≤ r.1 → Added ((src.getD []).take length) past' r.2) s past := by
  have hminus : ¬(0 : ℤ) ≤ -1 := by decide
  unfold hiveIpfsPutFileFromBuffer
  cases cid with
  | none => exact fun hpos => absurd hpos hminus
  | some cid =>
    dsimp only
    rw [Script.wp_ite]
    constructor
    · exact fun _ hpos => absurd hpos hminus
    · intro _
      refine Script.wp_bind.mpr (Script.wp_mono (putFileFromBuffer_added _ cid) (fun _ _ h => h) ?_)
      rintro ⟨rc, hash⟩ s' past' hadded
      simp only [Script.wp_bind, wp_reportInt, Script.wp_pure]
      constructor
      · exact fun _ hpos => absurd hpos hminus
      · exact fun hnonneg _ => hadded (not_lt.mp hnonneg)

/-- What has been read first. -/
def contentRead (tr : List CallEvent) : Option Bytes :=
  tr.findSome? fun
    | ⟨.read _ _, .ok content⟩ => some content
    | _ => none

/-- What has been read first stays what has been read. -/
private theorem contentRead_append {tr tr' : List CallEvent} {content : Bytes}
    (h : contentRead tr = some content) : contentRead (tr ++ tr') = some content := by
  rw [contentRead] at h
  rw [contentRead, List.findSome?_append, h, Option.some_or]

/-- A local file that is returned is the one that has been read. -/
private theorem readLocalFile_read (path : Bytes) :
    Script.wp record (fun _ _ => True) (readLocalFile path)
      (fun r _ past' => ∀ content, r = some content → contentRead past' = some content) s [] := by
  unfold readLocalFile
  simp only [Script.wp_bind, Script.wp_ask]
  rintro opened _ rfl
  cases opened with
  | error e =>
    intro _ h
    cases h
  | ok _ =>
    simp only [Script.wp_bind, Script.wp_ask, Script.wp_ite, Script.wp_pure]
    rintro size _ rfl
    constructor
    · intro _ content h
      cases h
    rintro - made _ rfl
    constructor
    · intro _ content h
      cases h
    rintro - got _ rfl
    cases got with
    | error e =>
      intro _ _ _ content h
      cases h
    | ok content =>
      dsimp only
      rw [Script.wp_ite]
      constructor
      · intro _ _ _ _ content' h
        cases h
      · intro _ content' h
        exact h

/-- What `hive_ipfs_put_file` has put: what it has read. -/
private theorem hiveIpfsPutFile_added (src cid : Option Bytes) :
    Script.wp record (fun _ _ => True) (hiveIpfsPutFile (some ipfsMethods) src cid)
      (fun r _ past' => 0 ≤ r.1 → ∃ content, contentRead past' = some content ∧
        Added content past' r.2) s [] := by
  have hminus : ¬(0 : ℤ) ≤ -1 := by decide
  unfold hiveIpfsPutFile
  split
  · rename_i connect path cid hconnect _
    obtain rfl := Option.some.inj hconnect
    rw [Script.wp_bind]
    refine Script.wp_mono (readLocalFile_read path) (fun _ _ h => h) ?_
    intro got s₁ past₁ hread
    cases got with
    | none => exact fun hpos => absurd hpos hminus
    | some content =>
      refine Script.wp_mono (Script.wp_record_prefix
        (hiveIpfsPutFileFromBuffer_added (some content) content.length (some cid) past₁))
        (fun _ _ _ => trivial) ?_
      rintro r s₂ _ ⟨hadded, new, rfl⟩ hpos
      have hall := hadded hpos
      rw [Option.getD_some, List.take_length] at hall
      exact ⟨content, contentRead_append (hread content rfl), hall⟩
  · exact fun hpos => absurd hpos hminus

end Puts

/-! ### Gets -/

/-- The calls of an operation are answered as well as they can be: a client can be had, and a node
answers 200, with the size if asked for it. -/
def Answered (c : Contents) (e : CallEvent) : Prop :=
  Truthful c e ∧ match e with
    | ⟨.httpClientNew _, made⟩ => made = true
    | ⟨.httpClientPerform request, reply⟩ => reply.answer = .ok HttpStatus_OK ∧
      ∀ ip port cid, request = fileLsRequest ip port cid →
        ∃ resp size, reply.received ≠ [] ∧ reply.document = some resp ∧
          listedSize cid resp = some size
    | _ => True

/-- There is a node to turn to: the current one, or else a configured address, and the URLs of
those fit the buffer of `test_reachable`. -/
def HasNode (conn : IPFSConnect) : Prop :=
  conn.currentNodeIp ≠ [] ∨ configured conn.rpcNodes ≠ [] ∧
    ∀ address ∈ configured conn.rpcNodes, (nodeUrl address.1 address.2 versionPath).length < 4097

/-- What the calls that ask for a content return: its length, and itself at the beginning of the
buffer or in the file, unless they fail or return an error as a length; and when there is a node to
turn to and the nodes answer they do neither. -/
structure Gets (c : Contents) (cid data : Bytes) : Prop where
  length : ∀ {tr c' s s' v}, Serves c tr c' →
    Program.Exec playback (hiveIpfsGetFileLength (some ipfsMethods) (some cid) s) tr
      (.ok (v, s')) [] →
      (∀ e, ¬LengthError cid tr e) → v = -1 ∨ v = data.length
  buffer : ∀ {tr c' s s' v block block' buflen}, Serves c tr c' →
    Program.Exec playback
      (hiveIpfsGetFileToBuffer (some ipfsMethods) (some cid) (some block) buflen s) tr
      (.ok ((v, block'), s')) [] →
      (∀ e, ¬BufferError s cid buflen tr e) →
        v = -1 ∨ v = data.length ∧ block'.take data.length = data
  file : ∀ {tr c' s s' v path}, Serves c tr c' →
    Program.Exec playback (hiveIpfsGetFile (some ipfsMethods) (some cid) (some path) s) tr
      (.ok (v, s')) [] →
      v < 2 ^ 31 →
        v = -1 ∨ v = data.length ∧ (data ≠ [] → ⟨.write path data, .ok data.length⟩ ∈ tr)
  lengthAnswered : ∀ {c' s}, c.Kept c' → HasNode s.conn →
    Script.wp (recordAs id (Answered c')) noFault
      (hiveIpfsGetFileLength (some ipfsMethods) (some cid))
      (fun v _ _ => v = data.length) s []
  bufferAnswered : ∀ {c' s block}, c.Kept c' → HasNode s.conn →
    0 < block.length → block.length < 2 ^ 63 → data.length ≤ block.length →
    Script.wp (recordAs id (Answered c')) noFault
      (hiveIpfsGetFileToBuffer (some ipfsMethods) (some cid) (some block) block.length)
      (fun r _ _ => r = ((data.length : ℤ), data ++ block.drop data.length)) s []

section Gets

variable {c c' : Contents} {cid data : Bytes} {tr : List CallEvent} {s : Thread IPFSConnect}

/-- The size that is listed is that of the content. -/
theorem Listed.length (hserves : Serves c tr c') (hheld : c' cid = some data) {n : ℤ}
    (h : Listed cid n tr) : n = data.length := by
  obtain ⟨ip, port, reply, resp, hmem, hanswer, hresp, hsize⟩ := h
  obtain ⟨data', hdata', hn⟩ :=
    (hserves.truthful hmem).listed ip port cid reply rfl hanswer resp n hresp hsize
  obtain rfl := Option.some.inj (hheld.symm.trans hdata')
  exact hn

/-- The bytes that are received are the content. -/
theorem Received.data_eq (hserves : Serves c tr c') (hheld : c' cid = some data) {data' : Bytes}
    (h : Received cid tr data') : data' = data := by
  obtain ⟨ip, port, reply, hlast, hanswer, rfl⟩ := h
  have hsent := (hserves.truthful (List.mem_of_getLast? hlast)).sent ip port cid reply rfl hanswer
  exact Option.some.inj (hsent.symm.trans hheld)

/-- An identifier that is not empty is accepted. -/
private theorem nonempty?_some (hcid : cid ≠ []) : nonempty? (some cid) = some cid := by
  cases cid with
  | nil => exact absurd rfl hcid
  | cons b cid => rfl

/-- What is accepted is the identifier, and is not empty. -/
private theorem mem_nonempty?_some {c : Bytes} (hc : c ∈ nonempty? (some cid)) :
    c = cid ∧ cid ≠ [] := by
  cases cid with
  | nil => cases hc
  | cons b cid =>
    obtain rfl := Option.some.inj hc
    exact ⟨rfl, List.cons_ne_nil b cid⟩

/-- A node of a cluster that answers passes the test. -/
private theorem answered_reachableAs {address : Bytes × ℕ}
    (hurl : (nodeUrl address.1 address.2 versionPath).length < 4097) :
    ReachableAs (recordAs id (Answered c)) s address true := by
  rintro w verdict w' ⟨rc, hex, rfl⟩
  have hwp : Script.wp (recordAs id (Answered c)) anyFault (testReachable address.1 address.2)
      (fun rc _ _ => rc = 0) s w := by
    unfold testReachable
    rw [if_neg (by omega)]
    simp only [Script.wp_bind, Script.wp_ite, Script.wp_ask, Script.wp_pure]
    rintro created _ ⟨⟨-, hcreated⟩, -⟩
    refine ⟨fun hfailed => by simp [show created = true from hcreated] at hfailed, fun _ => ?_⟩
    rintro reply _ ⟨⟨-, hanswer, -⟩, -⟩
    have hanswer : reply.answer = .ok HttpStatus_OK := hanswer
    simp only [hanswer, Script.wp_ite, Script.wp_pure]
    exact ⟨fun hno => absurd rfl hno, fun _ => trivial⟩
  exact decide_eq_true (hwp.of_exec hex)

private theorem ne_nil_of_mem_configured {nodes : List RpcNode} {address : Bytes × ℕ}
    (h : address ∈ configured nodes) : address.1 ≠ [] := by
  obtain ⟨node, -, hnode⟩ := List.mem_flatMap.mp h
  obtain ⟨ip, hip, rfl⟩ := List.mem_map.mp hnode
  simpa using (List.mem_filter.mp hip).2

/-- Where the nodes answer, the connection turns to one of them. -/
private theorem checkReachable_answered {past : List CallEvent} (hnode : HasNode s.conn) :
    Script.wp (recordAs id (Answered c)) noFault checkReachable
      (fun rc s' _ => rc = 0 ∧ HasNode s'.conn) s past := by
  unfold checkReachable
  simp only [Script.wp_bind, Script.wp_get, Script.wp_ite, Script.wp_pure]
  refine ⟨fun _ => ⟨trivial, hnode⟩, fun hcurrent => ?_⟩
  obtain ⟨hne, hurl⟩ := hnode.resolve_left hcurrent
  have hnodes : s.conn.rpcNodes ≠ [] := by
    intro hnil
    rw [hnil] at hne
    exact hne rfl
  refine Script.wp_mono (selectBootstrap_searches hnodes) (fun _ _ h => h) ?_
  rintro rc s' past' ⟨r, past₁, tested, found, -, hsearch, hselects⟩
  have hperm := configuredFrom_perm s.conn.rpcNodes (r % s.conn.rpcNodes.length)
  have hfound : found = _ := hsearch.find?_eq fun address hmem =>
    answered_reachableAs (hurl address (hperm.mem_iff.mp hmem))
  cases hselects with
  | found address =>
    have hmem := hperm.mem_iff.mp (List.mem_of_find?_eq_some hfound.symm)
    exact ⟨rfl, .inl (ne_nil_of_mem_configured hmem)⟩
  | none =>
    obtain ⟨address, hmem⟩ := List.exists_mem_of_ne_nil _ hne
    exact absurd rfl (List.find?_eq_none.mp hfound.symm address (hperm.mem_iff.mpr hmem))

/-- A cluster that answers lists the length of a content it holds. -/
private theorem getFileLength_answered {past : List CallEvent} (hheld : c cid = some data)
    (hnode : HasNode s.conn) :
    Script.wp (recordAs id (Answered c)) noFault (getFileLength cid)
      (fun exit s' _ => exit = .ret data.length ∧ HasNode s'.conn) s past := by
  rw [getFileLength, Script.wp_bind]
  refine Script.wp_mono (checkReachable_answered hnode) (fun _ _ h => h) ?_
  rintro _ s₁ past₁ ⟨rfl, hnode⟩
  simp only [Script.wp_ite, Script.wp_bind, Script.wp_get, Script.wp_ask, Script.wp_pure]
  refine ⟨fun hneg => absurd hneg (lt_irrefl 0), fun _ => ?_⟩
  rintro created _ ⟨⟨-, hcreated⟩, -⟩
  refine ⟨fun hfailed => by simp [show created = true from hcreated] at hfailed, fun _ => ?_⟩
  rintro reply _ ⟨⟨htruthful, hanswer, hlisted⟩, -⟩
  obtain ⟨hperformed, hinfo, hstatus⟩ := HttpReply.answer_eq_ok.mp hanswer
  obtain ⟨resp, size, hbody, hdocument, hsize⟩ := hlisted _ _ _ rfl
  refine ⟨fun h => absurd hperformed h, fun _ => ⟨fun h => absurd hinfo h, fun _ =>
    ⟨fun h => absurd hstatus h, fun _ => ?_⟩⟩⟩
  have hparsed : reply.parsed = some resp := by rwa [HttpReply.document, if_neg hbody] at hdocument
  rw [wp_moveAndParse]
  refine ⟨fun h => absurd h hbody, fun _ => ?_⟩
  simp only [hparsed, hsize, Script.wp_pure]
  obtain ⟨data', hdata', rfl⟩ :=
    htruthful.listed _ _ cid reply rfl hanswer resp size hdocument hsize
  obtain rfl := Option.some.inj (hheld.symm.trans hdata')
  exact ⟨rfl, hnode⟩

/-- It sends that content, and the callbacks put it at the beginning of the block. -/
private theorem getFileToBuffer_answered {block : Bytes} (hheld : c cid = some data)
    (hnode : HasNode s.conn) (hblock : block.length < 2 ^ 63)
    (hfits : data.length ≤ block.length) :
    Script.wp (recordAs id (Answered c)) noFault (getFileToBuffer cid block block.length)
      (fun r _ _ => r = (.ret data.length, data ++ block.drop data.length)) s [] := by
  rw [getFileToBuffer, Script.wp_bind]
  refine Script.wp_mono (getFileLength_answered hheld hnode) (fun _ _ h => h) ?_
  rintro _ s₁ past₁ ⟨rfl, hnode⟩
  rw [Exit.ssize_ret]
  simp only [Script.wp_ite, Script.wp_bind, Script.wp_pure]
  refine ⟨fun hzero => ?_, fun _ => ⟨fun hsmall => ?_, fun _ => ?_⟩⟩
  · obtain rfl : data = [] := List.eq_nil_of_length_eq_zero (by omega)
    rfl
  · have hself := toLong_eq_self (x := block.length) (by omega) (by omega)
    omega
  refine Script.wp_mono (checkReachable_answered hnode) (fun _ _ h => h) ?_
  rintro _ s₂ past₂ ⟨rfl, -⟩
  simp only [Script.wp_get, Script.wp_ask]
  refine ⟨fun hneg => absurd hneg (lt_irrefl 0), fun _ => ?_⟩
  rintro created _ ⟨⟨-, hcreated⟩, -⟩
  refine ⟨fun hfailed => by simp [show created = true from hcreated] at hfailed, fun _ => ?_⟩
  rintro reply _ ⟨⟨htruthful, hanswer, -⟩, -⟩
  obtain ⟨hperformed, hinfo, hstatus⟩ := HttpReply.answer_eq_ok.mp hanswer
  have hsent := htruthful.sent _ _ cid reply rfl hanswer
  obtain rfl := Option.some.inj (hheld.symm.trans hsent)
  obtain ⟨stored, refused, hstore, -, hall⟩ := storeBody_eq [] block [] reply.chunks
  simp only [List.length_nil, Nat.zero_add, List.nil_append, List.append_nil] at hstore
  -- what has been announced has room
  obtain rfl : refused = false := by
    rcases storeBody_ends (Nat.zero_le _) hstore with ⟨-, hlong⟩ | ⟨hno, -⟩
    · rw [Nat.zero_add] at hlong
      exact absurd hfits hlong.not_ge
    · exact hno
  obtain rfl : stored = reply.received := hall rfl
  have hself := toSize_eq_self (x := reply.received.length) (by omega) (by omega)
  simp only [hstore, afterTransfer, hperformed, hinfo, hstatus, hself, Script.wp_ite,
    Script.wp_pure]
  simp

/-- A part of a trace serves what the trace serves. -/
theorem Serves.of_subset {own : List CallEvent} (h : Serves c tr c') (hown : own ⊆ tr) :
    Serves c own c' :=
  ⟨h.kept, fun e he => h.answers e (hown he)⟩

/-- A content of no bytes is the empty one. -/
private theorem eq_nil_of_listed (hserves : Serves c tr c') (hheld : c' cid = some data)
    (h : Listed cid 0 tr) : data = [] := by
  have hlen := Listed.length hserves hheld h
  exact List.eq_nil_of_length_eq_zero (by omega)

/-- A run that brings a content into a local file has written it whole. -/
private theorem hiveIpfsGetFile_held (path : Option Bytes) (hserves : Serves c tr c')
    (hheld : c' cid = some data) :
    Script.wp playback (fun _ _ => True) (hiveIpfsGetFile (some ipfsMethods) (some cid) path)
      (fun v _ tr' => tr' = [] → v < 2 ^ 31 → v = -1 ∨ v = data.length ∧
        (data ≠ [] → ∃ p ∈ nonempty? path, ⟨.write p data, .ok data.length⟩ ∈ tr)) s tr := by
  unfold hiveIpfsGetFile createFile
  cases hcid : nonempty? (some cid) with
  | none => exact fun _ _ => .inl rfl
  | some c₀ =>
    obtain ⟨rfl, -⟩ := mem_nonempty?_some hcid
    cases nonempty? path with
    | none => exact fun _ _ => .inl rfl
    | some p =>
      refine Script.wp_bind.mpr (Script.wp_mono (Script.wp_with_exec Script.wp_true)
        (fun _ _ h => h.1) ?_)
      -- the run of the length is known: what it did is a prefix of the trace
      rintro fsize s₁ tr₁ ⟨-, hlength⟩
      obtain ⟨own₁, rfl, hquery⟩ := hlength.own
      have hqueried : Serves c own₁ c' := hserves.of_subset (List.subset_append_left _ _)
      have hreported := (hiveIpfsGetFileLength_reported (some c₀) s).of_playback hquery
      rw [List.nil_append] at hreported
      simp only [Script.wp_ite, Script.wp_pure]
      refine ⟨fun _ _ _ => .inl trivial, fun _ => ?_⟩
      rw [Script.wp_bind, Script.wp_ask]
      rintro opened tr₂ rfl
      cases opened with
      -- the file could not be created: -1, and nothing is downloaded
      | error e =>
        rw [wp_failWith]
        exact fun _ _ => .inl rfl
      | ok _ =>
        simp only [Script.wp_ite, Script.wp_pure, Script.wp_bind, Script.wp_ask, wp_failWith]
        refine ⟨fun hzero _ _ => ?_, fun _ => ?_⟩
        · -- an error would not be zero
          subst hzero
          rcases hreported.otherwise fun e he => by have := (hreported.told e he).2; omega
            with hminus | ⟨-, c, hc, hlisted⟩
          · cases hminus
          · obtain ⟨rfl, -⟩ := mem_nonempty?_some hc
            obtain rfl := eq_nil_of_listed hqueried hheld hlisted
            exact .inr ⟨rfl, fun hne => absurd rfl hne⟩
        -- the block is there: what was downloaded into it is compared with the length
        rintro made tr₃ rfl
        refine ⟨fun _ _ _ => .inl trivial, fun _ => ?_⟩
        rw [ipfsToBuffer]
        refine Script.wp_bind.mpr (Script.wp_mono (Script.wp_with_exec Script.wp_true)
          (fun _ _ h => h.1) ?_)
        rintro ⟨exit, block⟩ s₂ tr₄ ⟨-, hbuffer⟩
        obtain ⟨own₂, rfl, hdownload⟩ := hbuffer.own
        have hfetched : Serves c own₂ c' := hserves.of_subset fun e he => by simp [he]
        have hends : LengthEnds (FetchedInto c₀ block own₂) (BufferError s₁ c₀ fsize.toNat own₂)
            exit.ssize := (getFileToBuffer_ends _ _).of_playback hdownload
        simp only [Script.wp_ite, wp_reportSize, Script.wp_bind, Script.wp_pure, writeBlock,
          Script.wp_fault]
        refine ⟨fun _ => ⟨fun _ _ _ => .inl trivial, fun h => absurd (by decide) h⟩,
          fun hnonneg => ⟨fun _ _ _ => .inl trivial, fun _ => ⟨fun _ => trivial, fun _ => ?_⟩⟩⟩
        generalize hout : block.take exit.ssize.toNat = out
        rw [Script.wp_ask]
        -- `write` may have taken fewer bytes than it was given; then -1 is returned
        rintro written tr₅ rfl
        cases written with
        | error e =>
          simp only [Script.wp_bind, Script.wp_ask, wp_failWith]
          exact fun _ _ _ _ _ _ _ _ => .inl trivial
        | ok nwr =>
          simp only [Script.wp_bind, Script.wp_ask, Script.wp_ite, Script.wp_pure, wp_failWith]
          refine ⟨fun _ _ _ _ _ _ _ _ _ => .inl trivial, fun hall _ hv => .inr ?_⟩
          cases hends with
          | failed hneg => exact absurd hneg hnonneg
          | mislabelled hlarge => omega
          | obtained _ hgot =>
            rcases hgot with ⟨hzero, hlisted⟩ | ⟨data', hreceived, hlen, htake⟩
            · obtain rfl := eq_nil_of_listed hfetched hheld hlisted
              exact ⟨hzero, fun hne => absurd rfl hne⟩
            · obtain rfl := Received.data_eq hfetched hheld hreceived
              have hsize : exit.ssize.toNat = data'.length := by omega
              obtain rfl : out = data' := by rw [← hout, hsize, htake]
              obtain rfl : nwr = out.length := by omega
              refine ⟨hlen.symm, fun _ => ⟨p, rfl, ?_⟩⟩
              simp

/-- Every get of a content that is held brings that content. -/
private theorem gets_of_held (hheld : c cid = some data) (hcid : cid ≠ []) : Gets c cid data where
  -- the length that a node lists is that of the content
  length {tr c' s s' v} hserves hex hno := by
    have hends := (hiveIpfsGetFileLength_reported (some cid) s).of_playback hex
    rw [List.nil_append] at hends
    refine (hends.otherwise fun e he => ?_).imp_right ?_
    · obtain ⟨_, hc, he⟩ := he
      obtain ⟨rfl, -⟩ := mem_nonempty?_some hc
      exact hno e he
    · rintro ⟨-, _, hc, hlisted⟩
      obtain ⟨rfl, -⟩ := mem_nonempty?_some hc
      exact Listed.length hserves (hserves.kept _ _ hheld) hlisted
  buffer {tr c' s s' v block block' buflen} hserves hex hno := by
    have hwp := hiveIpfsGetFileToBuffer_reported (some cid) (some block) buflen s
    have hends := hwp.of_playback hex
    rw [List.nil_append] at hends
    refine (hends.otherwise fun e he => ?_).imp_right ?_
    · obtain ⟨_, hc, -, -, he⟩ := he
      obtain ⟨rfl, -⟩ := mem_nonempty?_some hc
      exact hno e he
    · rintro ⟨-, _, hc, hfetched⟩
      obtain ⟨rfl, -⟩ := mem_nonempty?_some hc
      rcases hfetched with ⟨rfl, hlisted⟩ | ⟨data', hreceived, rfl, htake⟩
      · have hlen := Listed.length hserves (hserves.kept _ _ hheld) hlisted
        obtain rfl : data = [] := List.eq_nil_of_length_eq_zero (by omega)
        exact ⟨rfl, rfl⟩
      · obtain rfl := Received.data_eq hserves (hserves.kept _ _ hheld) hreceived
        exact ⟨rfl, htake⟩
  file {tr c' s s' v path} hserves hex hv := by
    have hwp := hiveIpfsGetFile_held (s := s) (some path) hserves (hserves.kept _ _ hheld)
    refine (hwp.of_exec hex rfl hv).imp_right fun ⟨hlen, hwritten⟩ => ⟨hlen, fun hne => ?_⟩
    obtain ⟨p, hp, hmem⟩ := hwritten hne
    obtain ⟨rfl, -⟩ := mem_nonempty?_some hp
    exact hmem
  lengthAnswered {c' s} hkept hnode := by
    unfold hiveIpfsGetFileLength
    rw [nonempty?_some hcid]
    refine Script.wp_bind.mpr (Script.wp_mono
      (getFileLength_answered (hkept _ _ hheld) hnode) (fun _ _ h => h) ?_)
    rintro _ _ _ ⟨rfl, -⟩
    rw [wp_reportSize, Exit.ssize_ret]
    exact ⟨fun hneg => absurd hneg (by omega), fun _ => rfl⟩
  bufferAnswered {c' s block} hkept hnode hpos hblock hfits := by
    unfold hiveIpfsGetFileToBuffer
    rw [nonempty?_some hcid]
    dsimp only
    rw [if_neg hpos.ne']
    refine Script.wp_bind.mpr (Script.wp_mono
      (getFileToBuffer_answered (hkept _ _ hheld) hnode hblock hfits) (fun _ _ h => h) ?_)
    rintro _ _ _ rfl
    simp only [Script.wp_bind, wp_reportSize, Exit.ssize_ret, Script.wp_pure]
    exact ⟨fun hneg => absurd hneg (by omega), fun _ => trivial⟩

end Gets

/-! ### Runs -/

/-- A call of any connection to the cluster that puts a content, and is told its CID; or anything
else that leaves what is held. Calls that overlap are taken in the order they return in. -/
inductive Step : Contents → Option (Bytes × Bytes) → Contents → Prop
  | putFileFromBuffer {c c' : Contents} {tr : List CallEvent} {s s' : Thread IPFSConnect}
      {src dst : Option Bytes} {length : ℕ} {cid : Bytes} (hserves : Serves c tr c')
      (hex : Program.Exec playback
        (hiveIpfsPutFileFromBuffer (some ipfsMethods) src length dst s) tr
        (.ok ((0, cid), s')) []) :
      Step c (some (cid, (src.getD []).take length)) c'
  | putFile {c c' : Contents} {tr : List CallEvent} {s s' : Thread IPFSConnect}
      {src dst : Option Bytes} {cid : Bytes} (hserves : Serves c tr c')
      (hex : Program.Exec playback (hiveIpfsPutFile (some ipfsMethods) src dst s) tr
        (.ok ((0, cid), s')) []) :
      Step c ((contentRead tr).map fun content => (cid, content)) c'
  | other {c c' : Contents} (hkept : c.Kept c') : Step c none c'

/-- One step of the cluster keeps what it holds. -/
theorem Step.kept {c c' : Contents} {l : Option (Bytes × Bytes)} (h : Step c l c') : c.Kept c' := by
  cases h with
  | putFileFromBuffer hserves _ => exact hserves.kept
  | putFile hserves _ => exact hserves.kept
  | other hkept => exact hkept

/-- What has been put is held, under a CID that is one. -/
theorem Step.held {c c' : Contents} {l : Option (Bytes × Bytes)} {cid data : Bytes}
    (h : Step c l c') (hl : l = some (cid, data)) : c' cid = some data ∧ cid ≠ [] := by
  cases h with
  | @putFileFromBuffer _ tr s s' src dst length cid' hserves hex =>
    cases hl
    have hadded := (hiveIpfsPutFileFromBuffer_added src length dst []).of_playback hex le_rfl
    exact ⟨hadded.held hserves, hadded.ne_nil⟩
  | @putFile _ tr s s' src dst cid' hserves hex =>
    obtain ⟨content, hread, hadded⟩ := (hiveIpfsPutFile_added src dst).of_playback hex le_rfl
    rw [List.nil_append] at hread hadded
    rw [hread] at hl
    cases hl
    exact ⟨hadded.held hserves, hadded.ne_nil⟩
  | other _ => cases hl

/-- A content that has been put is the one that is got under the CID the put has returned, through
any connection and from any node. The induction is on the run. -/
theorem gets_of_puts {c c' : Contents} {history : List (Option (Bytes × Bytes))}
    (hrun : Run Step c history c') :
    ∀ cid data, some (cid, data) ∈ history → Gets c' cid data := by
  suffices hall : c.Kept c' ∧ ∀ cid data, some (cid, data) ∈ history →
      c' cid = some data ∧ cid ≠ [] by
    intro cid data hput
    obtain ⟨hheld, hcid⟩ := hall.2 cid data hput
    exact gets_of_held hheld hcid
  induction hrun with
  | nil c => exact ⟨.refl c, fun _ _ h => absurd h List.not_mem_nil⟩
  | cons hstep _ ih =>
    obtain ⟨hkept, hputs⟩ := ih
    refine ⟨hstep.kept.trans hkept, fun cid data hput => ?_⟩
    rcases List.mem_cons.mp hput with hput | hput
    · obtain ⟨hheld, hcid⟩ := hstep.held hput.symm
      exact ⟨hkept _ _ hheld, hcid⟩
    · exact hputs cid data hput

/-- What a cluster holds when one content has been put. -/
def onlyAbc : Contents := fun cid => if cid = ascii "Qm" then some (ascii "abc") else none

/-- The trace of the put. -/
def addAbc : List CallEvent := [
  ⟨.httpClientNew .ipfsPutFileFromBuffer, true⟩,
  ⟨.httpClientPerform (addRequest (ascii "10.0.0.1") 9095 (ascii "abc")),
    .accepted [[123]] (some (.object [(ascii "Hash", .string (ascii "Qm"))]))⟩]

private theorem serves_addAbc : Serves (fun _ => none) addAbc onlyAbc where
  kept := nofun
  answers e he := by
    refine ⟨onlyAbc, nofun, .refl onlyAbc, ?_⟩
    rcases List.mem_cons.mp he with rfl | he
    · refine truthful_of_ne fun request reply heq => ?_
      cases heq
    obtain rfl := List.mem_singleton.mp he
    constructor
    · intro ip port body reply heq _ resp hash hresp hhash
      injection heq with hcall hreply
      obtain rfl : ascii "abc" = body :=
        congrArg HttpRequest.body (Call.httpClientPerform.inj hcall)
      subst hreply
      cases hresp
      cases hhash
      rfl
    · intro ip port cid reply heq
      injection heq with hcall _
      cases congrArg HttpRequest.query (Call.httpClientPerform.inj hcall)
    · intro ip port cid reply heq
      injection heq with hcall _
      cases congrArg HttpRequest.query (Call.httpClientPerform.inj hcall)

theorem gets_of_puts_abc : Gets onlyAbc (ascii "Qm") (ascii "abc") := by
  have hex : Program.Exec playback (hiveIpfsPutFileFromBuffer (some ipfsMethods)
      (some (ascii "abc")) 3 (some []) atNode) addAbc (.ok ((0, ascii "Qm"), atNode)) [] :=
    .ask rfl (.ask rfl (.ret _ _))
  exact gets_of_puts (.cons (.putFileFromBuffer serves_addAbc hex) (.nil _)) _ _
    (List.mem_singleton_self _)

end IPFS

end HiveSDK
