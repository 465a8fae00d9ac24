import HiveSDK.Interaction.Reach
import HiveSDK.IPFS.Bootstrap

/-!
# IPFS downloads

`get_file_to_buffer` asks for the length of the file, and then stores what the node sends with a
callback that refuses a chunk it has no room for. The block at `to` is the buffer the caller has
announced, followed by the memory behind it: the callback writes to the buffer only
(`storeBody_eq`), and the positive length returned is that of the bytes received
(`getFileToBuffer_exact`).
-/

namespace HiveSDK.IPFS

open Interaction C

/-- The callback invocations of a transfer into a buffer that holds `stored` and has `room` left:
some bytes are stored behind the others, all of them if no chunk is refused, and the memory behind
the buffer stays as it is. The induction is on the chunks. -/
theorem storeBody_eq (stored room rest : Bytes) (chunks : List Bytes) : ∃ data refused,
    storeBody (stored.length + room.length) (stored ++ room ++ rest) stored.length chunks =
      some (stored ++ data ++ room.drop data.length ++ rest, stored.length + data.length, refused) ∧
    data.length ≤ room.length ∧ (refused = false → data = chunks.flatten) := by
  induction chunks generalizing stored room with
  | nil => exact ⟨[], false, by simp [storeBody], Nat.zero_le _, fun _ => rfl⟩
  | cons chunk chunks ih =>
    unfold storeBody getResponseBodyCb
    by_cases hroom : stored.length + room.length < stored.length + chunk.length
    · rw [if_pos hroom]
      exact ⟨[], true, by simp, Nat.zero_le _, nofun⟩
    · have hfit : chunk.length ≤ room.length := by omega
      have hcopy : memcpy (stored ++ room ++ rest) stored.length chunk =
          some (stored ++ chunk ++ room.drop chunk.length ++ rest) := by
        rw [List.append_assoc stored, memcpy_append,
          if_pos (by rw [List.length_append]; omega), List.drop_append_of_le_length hfit,
          ← List.append_assoc]
      have hsum : stored.length + room.length =
          (stored ++ chunk).length + (room.drop chunk.length).length := by
        rw [List.length_append, List.length_drop]
        omega
      rw [if_neg hroom, hcopy, hsum, ← List.length_append]
      obtain ⟨data, refused, hstore, hdata, hall⟩ := ih (stored ++ chunk) (room.drop chunk.length)
      refine ⟨chunk ++ data, refused, ?_, ?_, fun hno => ?_⟩
      · simpa [List.drop_drop, Nat.add_assoc] using hstore
      · rw [List.length_drop] at hdata
        rw [List.length_append]
        omega
      · rw [hall hno, List.flatten_cons]

/-- The length query with which the run on `tr` begins returns `query`. -/
def Queried (cid : Bytes) (s : Thread IPFSConnect) (tr : List CallEvent) (query : Exit) : Prop :=
  ∃ s₁ tr₁, Program.Exec playback (getFileLength cid s) tr (.ok (query, s₁)) tr₁

/-- A node has announced the size of the file. -/
def Listed (cid : Bytes) (size : ℤ) (tr : List CallEvent) : Prop :=
  ∃ ip port reply resp, ⟨.httpClientPerform (fileLsRequest ip port cid), reply⟩ ∈ tr ∧
    reply.answer = .ok HttpStatus_OK ∧ reply.document = some resp ∧ listedSize cid resp = some size

/-- The last thing in `tr` is a download, and what has been received is at the beginning of the
buffer: `n` bytes. -/
def Downloaded (cid buffer : Bytes) (n : ℤ) (tr : List CallEvent) : Prop :=
  ∃ ip port reply, tr.getLast? = some ⟨.httpClientPerform (catRequest ip port cid), reply⟩ ∧
    reply.performed = 0 ∧ (reply.received.length : ℤ) = n ∧ buffer.take n.toNat = reply.received

/-- What is left of a download into the buffer `front`, when the length query has returned `query`:
nothing has been written at or behind the end of the buffer, and a length is returned only for what
has been received. -/
def Stored (cid front rest : Bytes) (query exit : Exit) (block : Bytes) (tr : List CallEvent) :
    Prop :=
  ∃ buffer, buffer.length = front.length ∧ block = buffer ++ rest ∧
    ∀ n size, exit = .ret n → 0 < n → query = .ret size →
      n = size ∧ Listed cid size tr ∧ Downloaded cid buffer n tr

section

variable {cid front rest : Bytes} {query : Exit} {s : Thread IPFSConnect}
  {past tr : List CallEvent}

/-- What has been listed stays so as the trace goes on. -/
theorem Listed.append {size : ℤ} (h : Listed cid size tr) (tr' : List CallEvent) :
    Listed cid size (tr ++ tr') := by
  obtain ⟨ip, port, reply, resp, hmem, hlisted⟩ := h
  exact ⟨ip, port, reply, resp, List.mem_append_left _ hmem, hlisted⟩

/-- A listed size is a `ssize_t`. -/
theorem listedSize_lt {resp : Json} {size : ℤ} (h : listedSize cid resp = some size) :
    size < 2 ^ 63 := by
  unfold listedSize at h
  split at h
  · cases h
  split at h
  · cases h
  split at h
  · cases h
  split at h
  · cases h
  · rw [← Option.some.inj h]
    exact Double.toLong_lt _

/-- Nothing has been stored when no positive length is returned. -/
theorem Stored.untouched {exit : Exit} (hexit : ∀ n, exit = .ret n → n ≤ 0) :
    Stored cid front rest query exit (front ++ rest) tr :=
  ⟨front, rfl, rfl, fun n _ hn hpos => absurd hpos (hexit n hn).not_gt⟩

/-! ### The length query -/

/-- The test of the node returns no positive number. -/
theorem checkReachable_nonpos :
    Script.wp record noFault checkReachable (fun rc _ _ => rc ≤ 0) s past := by
  unfold checkReachable
  simp only [Script.wp_bind, Script.wp_get, Script.wp_ite, Script.wp_pure]
  refine ⟨fun _ => le_rfl, fun _ => ?_⟩
  rcases eq_or_ne s.conn.rpcNodes [] with hnil | hne
  · rw [hnil]
    exact fun _ _ _ r => r.elim
  · refine Script.wp_mono (selectBootstrap_searches hne) (fun _ _ h => h) ?_
    rintro rc s' past' ⟨r, w₁, tested, found, -, -, hselects⟩
    cases hselects with
    | found address => exact le_rfl
    | none => exact (toInt_hiveGeneralError_neg _).le

/-- A length that is returned as one has been announced by a node. -/
theorem getFileLength_listed : Script.wp record (fun e _ => e = .nullDereference)
    (getFileLength cid)
    (fun exit _ past' => ∀ size, exit = .ret size → 0 < size → Listed cid size past') s past := by
  have nonpos {x : ℤ} {past' : List CallEvent} (hx : x ≤ 0) (size : ℤ)
      (h : Exit.ret x = .ret size) (hpos : 0 < size) : Listed cid size past' := by
    cases h
    exact absurd hpos hx.not_gt
  unfold getFileLength
  rw [Script.wp_bind]
  refine Script.wp_mono checkReachable_nonpos (fun _ _ h => h.elim) ?_
  intro rc s₁ past₁ hrc
  simp only [Script.wp_bind, Script.wp_get, Script.wp_ask, Script.wp_ite, Script.wp_pure]
  refine ⟨fun _ => nonpos hrc, fun _ => ?_⟩
  rintro created _ rfl
  refine ⟨fun _ => by rintro _ ⟨⟩, fun _ => ?_⟩
  rintro reply _ rfl
  refine ⟨fun _ => ?_, fun hperformed => ⟨fun _ => nonpos (toInt_hiveCurlError_neg _).le,
    fun hinfo => ⟨fun _ => nonpos (toInt_hiveHttpStatusError_neg _).le, fun hstatus => ?_⟩⟩⟩
  · refine Script.wp_mono transferError_neg (fun _ _ h => h) ?_
    rintro e _ _ ⟨he, rfl⟩
    exact nonpos he.le
  rw [not_not] at hperformed hinfo hstatus
  rw [wp_moveAndParse]
  refine ⟨fun _ => rfl, fun hbody => ?_⟩
  cases hparsed : reply.parsed with
  | none => rintro _ ⟨⟩
  | some resp =>
    dsimp only
    split
    · rintro _ ⟨⟩
    · rename_i fsize hsize
      rintro size ⟨⟩ -
      refine ⟨_, _, reply, resp, List.mem_append_right _ (List.mem_singleton_self _), ?_, ?_,
        hsize⟩
      · exact HttpReply.answer_eq_ok.mpr ⟨hperformed, hinfo, hstatus⟩
      · rw [HttpReply.document, if_neg hbody, hparsed]

/-- The query in a recorded trace. -/
theorem Queried.of_record {s₁ : Thread IPFSConnect} {past₁ : List CallEvent}
    (hex : Program.Exec record (getFileLength cid s) [] (.ok (query, s₁)) past₁)
    (hpast : past₁ <+: past) : Queried cid s past query := by
  obtain ⟨new, hnew, hplay⟩ := hex.of_recorded
  rw [List.nil_append] at hnew
  subst hnew
  obtain ⟨back, rfl⟩ := hpast
  exact ⟨s₁, _, hplay.playback_append back⟩

/-! ### The download -/

private theorem getLast?_snd {α : Type} (past : List α) (a b : α) :
    (past ++ ([a] ++ [b])).getLast? = some b := by
  rw [← List.append_assoc, List.getLast?_concat]

/-- A transfer that has been received without an error. -/
theorem Stored.of_received {ip : Bytes} {port : ℕ} {reply : HttpReply} {data : Bytes}
    (hreply : tr.getLast? = some ⟨.httpClientPerform (catRequest ip port cid), reply⟩)
    (hperformed : reply.performed = 0) (hdata : data.length ≤ front.length)
    (hall : data = reply.received) (hsize : toSize query.ssize = data.length)
    (hlisted : ∀ size, query = .ret size → 0 < size → Listed cid size tr) :
    Stored cid front rest query (.ret query.ssize) (data ++ front.drop data.length ++ rest) tr := by
  refine ⟨data ++ front.drop data.length, ?_, rfl, ?_⟩
  · rw [List.length_append, List.length_drop]
    omega
  · rintro n size ⟨⟩ hpos rfl
    rw [Exit.ssize_ret] at hsize hpos ⊢
    have hfile := hlisted size rfl hpos
    obtain ⟨-, -, -, resp, -, -, -, hresp⟩ := hfile
    have hlt := listedSize_lt hresp
    rw [toSize_eq_self hpos.le (by omega)] at hsize
    refine ⟨rfl, hlisted size rfl hpos, ip, port, reply, hreply, hperformed, ?_, ?_⟩
    · rw [← hall, hsize]
    · rw [hsize, Int.toNat_natCast, List.take_left, hall]

/-- What a download leaves in the buffer, for every trace it may take. -/
private theorem getFileToBuffer_stored : Script.wp record (fun e _ => e = .nullDereference)
    (getFileToBuffer cid (front ++ rest) front.length)
    (fun r _ past' => ∃ query, Queried cid s past' query ∧
      Stored cid front rest query r.1 r.2 past') s [] := by
  unfold getFileToBuffer
  simp only [Script.wp_bind, Script.wp_ite, Script.wp_pure]
  refine Script.wp_mono (Script.wp_with_exec getFileLength_listed) (fun _ _ h => h.1) ?_
  rintro query s₁ past₁ ⟨hlisted, hquery⟩
  refine ⟨fun hsmall => ⟨query, .of_record hquery List.prefix_rfl, ?_⟩, fun _ => ?_⟩
  · refine .untouched ?_
    rintro n ⟨⟩
    exact hsmall
  refine ⟨fun _ => ⟨query, .of_record hquery List.prefix_rfl, .untouched (by rintro _ ⟨⟩)⟩,
    fun _ => ?_⟩
  refine Script.wp_mono (Script.wp_record_prefix checkReachable_nonpos) (fun _ _ h => h.elim) ?_
  rintro rc s₂ _ ⟨hrc, new, rfl⟩
  -- the query stays the query of the trace, whatever comes after it
  have hnext (back : List CallEvent) : Queried cid s (past₁ ++ new ++ back) query :=
    .of_record hquery (by rw [List.append_assoc]; exact List.prefix_append _ _)
  refine ⟨fun _ => ⟨query, ?_, .untouched ?_⟩, fun _ => ?_⟩
  · rw [← List.append_nil (past₁ ++ new)]
    exact hnext []
  · rintro n ⟨⟩
    exact hrc
  simp only [Script.wp_get, Script.wp_ask]
  rintro created _ rfl
  refine ⟨fun _ => ⟨query, hnext _, .untouched (by rintro _ ⟨⟩)⟩, fun _ => ?_⟩
  rintro reply _ rfl
  -- the callbacks fill a front of the buffer and leave the rest
  obtain ⟨data, refused, hstore, hdata, hall⟩ := storeBody_eq [] front rest reply.chunks
  simp only [List.length_nil, Nat.zero_add, List.nil_append] at hstore
  rw [hstore, List.append_assoc (past₁ ++ new)]
  have hbuffer : (data ++ front.drop data.length).length = front.length := by
    rw [List.length_append, List.length_drop]
    omega
  -- whatever is not a positive length promises nothing
  have hfailed {exit : Exit} {past' : List CallEvent} (hexit : ∀ n, exit = .ret n → n ≤ 0) :
      Stored cid front rest query exit (data ++ front.drop data.length ++ rest) past' :=
    ⟨_, hbuffer, rfl, fun n _ hn hpos => absurd hpos (hexit n hn).not_gt⟩
  dsimp only
  simp only [afterTransfer, Script.wp_bind, Script.wp_ite, Script.wp_pure]
  have herror {e : ℤ} {past' : List CallEvent} :
      Stored cid front rest query (.err e) (data ++ front.drop data.length ++ rest) past' :=
    hfailed (by rintro _ ⟨⟩)
  refine ⟨fun _ => ?_, fun hperformed => ⟨fun _ => ⟨query, hnext _, herror⟩, fun _ =>
    ⟨fun _ => ⟨query, hnext _, herror⟩, fun _ => ⟨fun _ => ⟨query, hnext _, herror⟩,
      fun hsize => ⟨query, hnext _, ?_⟩⟩⟩⟩⟩
  · refine Script.wp_mono transferError_neg (fun _ _ h => h) ?_
    rintro e _ _ ⟨he, rfl⟩
    refine ⟨query, hnext _, hfailed ?_⟩
    rintro n ⟨⟩
    exact he.le
  · rw [not_not] at hperformed hsize
    -- a refused chunk ends the transfer with an error
    cases refused with
    | true =>
      rw [if_pos rfl] at hperformed
      exact absurd hperformed (by decide)
    | false =>
      refine .of_received (getLast?_snd _ _ _) hperformed hdata (hall rfl) hsize
        fun size h hpos => ?_
      rw [List.append_assoc]
      exact (hlisted size h hpos).append _

end

/-- Whatever the node sends and in whatever chunks: nothing is written at or behind the end of the
buffer, and a positive length is returned as that of the file only if it is the one announced and
as many bytes have been received, which are then at the beginning of the buffer. -/
theorem getFileToBuffer_exact {cid front rest : Bytes} {s : Thread IPFSConnect}
    {tr : List CallEvent} {o : Except Fault ((Exit × Bytes) × Thread IPFSConnect)}
    (hex : Program.Exec playback (getFileToBuffer cid (front ++ rest) front.length s) tr o []) :
    o ≠ .error .bufferOverrun ∧
    ∀ exit block s', o = .ok ((exit, block), s') →
      ∃ buffer, buffer.length = front.length ∧ block = buffer ++ rest ∧
        ∀ n size, exit = .ret n → 0 < n → Queried cid s tr (.ret size) →
          n = size ∧ Listed cid size tr ∧ Downloaded cid buffer n tr := by
  have hends := getFileToBuffer_stored.of_playback hex
  rw [List.nil_append] at hends
  refine ⟨?_, ?_⟩
  · rintro rfl
    cases hends
  · rintro exit block s' rfl
    obtain ⟨query, ⟨s₁, tr₁, hquery⟩, buffer, hlength, rfl, hexact⟩ := hends
    refine ⟨buffer, hlength, rfl, ?_⟩
    rintro n size hn hpos ⟨s₁', tr₁', hquery'⟩
    have hsame := (hquery.playback_unique hquery').1
    exact hexact n size hn hpos (congrArg Prod.fst (Except.ok.inj hsame))

/-! ### A file of two bytes -/

/-- A connection that uses this node. -/
def atNode : Thread IPFSConnect := ⟨⟨ascii "10.0.0.1", 9095, []⟩, 0⟩

/-- The trace of a download in two chunks. -/
def twoChunks : List CallEvent := [
  ⟨.httpClientNew .ipfsGetFileLength, true⟩,
  ⟨.httpClientPerform (fileLsRequest (ascii "10.0.0.1") 9095 (ascii "Qm")),
    .accepted [[123]] (some (.object [(ascii "Objects", .object [(ascii "Qm",
      .object [(ascii "Size", .number (.ofInt 2))])])]))⟩,
  ⟨.httpClientNew .ipfsGetFileToBuffer, true⟩,
  ⟨.httpClientPerform (catRequest (ascii "10.0.0.1") 9095 (ascii "Qm")),
    .accepted [[97], [98]] none⟩]

theorem getFileToBuffer_exact_twoChunks : ∃ buffer, buffer.length = 3 ∧
    ([97, 98, 0, 7] : Bytes) = buffer ++ [7] ∧
    Listed (ascii "Qm") 2 twoChunks ∧ Downloaded (ascii "Qm") buffer 2 twoChunks := by
  have hquery : Queried (ascii "Qm") atNode twoChunks (.ret 2) :=
    ⟨atNode, twoChunks.drop 2, .ask rfl (.ask rfl (.ret _ _))⟩
  have hex : Program.Exec playback
      (getFileToBuffer (ascii "Qm") ([0, 0, 0] ++ [7]) [(0 : UInt8), 0, 0].length atNode) twoChunks
      (.ok ((.ret 2, [97, 98, 0, 7]), atNode)) [] :=
    .ask rfl (.ask rfl (.ask rfl (.ask rfl (.ret _ _))))
  obtain ⟨buffer, hlength, hblock, hexact⟩ := (getFileToBuffer_exact hex).2 _ _ _ rfl
  obtain ⟨-, hlisted, hdownloaded⟩ := hexact 2 2 rfl (by decide) hquery
  exact ⟨buffer, hlength, hblock, hlisted, hdownloaded⟩

end HiveSDK.IPFS
