import HiveSDK.OneDrive.Requests

/-!
# Downloads into a buffer

`__get_file_to_buffer` learns the size of a file from one reply and copies the body of
another one into the caller's buffer. Nothing in between compares the two: the callback
copies every chunk it is handed, whatever the size announced, the room left and the status,
and the size returned is the announced one.

`DownloadHonest` is what a caller relies on, `DownloadAgrees` the behaviour of the
environment under which it gets that, and `getFileToBufferAt_honest_iff` says that there is
no other.
-/

namespace HiveSDK.OneDrive

open Interaction C

/-! ### The callback over all chunks -/

/-- What the callback makes of all chunks: their concatenation, if there is room for it. The
induction moves each chunk from the room to the part already written. -/
private theorem storeChunks_append (front room : Bytes) (chunks : List Bytes) :
    storeChunks (front ++ room) front.length chunks =
      if chunks.flatten.length ≤ room.length then
        some (front ++ chunks.flatten ++ room.drop chunks.flatten.length)
      else none := by
  induction chunks generalizing front room with
  | nil => simp [storeChunks]
  | cons chunk chunks ih =>
    unfold storeChunks downloadFileResponseBodyCallback
    rw [memcpy_append, List.flatten_cons, List.length_append]
    by_cases hchunk : chunk.length ≤ room.length
    · have hfront : front.length + chunk.length = (front ++ chunk).length := by simp
      have hroom : chunks.flatten.length ≤ (room.drop chunk.length).length ↔
          chunk.length + chunks.flatten.length ≤ room.length := by
        rw [List.length_drop]
        omega
      simp only [hchunk, if_true, Option.map_some, hfront]
      rw [ih, List.drop_drop, List.append_assoc front]
      simp only [hroom]
    · have hlong : ¬chunk.length + chunks.flatten.length ≤ room.length := by omega
      simp only [hchunk, hlong, if_false, Option.map_none]

/-- A transfer into a fresh block fits exactly when its bytes do. -/
theorem storeChunks_zero (block : Bytes) (reply : HttpReply) :
    storeChunks block 0 reply.chunks =
      if reply.received.length ≤ block.length then
        some (reply.received ++ block.drop reply.received.length)
      else none :=
  storeChunks_append [] block reply.chunks

/-- What `__download_file` makes of a trace. -/
theorem downloadFile_playback (url block : Bytes) (s : Thread OneDriveConnect)
    (tr : List CallEvent) :
    Script.wp playback
      (fun e tr' => e = .bufferOverrun ∧ ∃ reply,
        tr = ⟨.httpClientPerform (downloadRequest url), reply⟩ :: tr' ∧
          block.length < reply.received.length)
      (downloadFile url block)
      (fun r _ tr' => ∃ reply,
        tr = ⟨.httpClientPerform (downloadRequest url), reply⟩ :: tr' ∧
          reply.received.length ≤ block.length ∧
          r.2 = reply.received ++ block.drop reply.received.length ∧
          (reply.answer = .ok HttpStatus_OK ∧ r.1 = 0 ∨
            reply.answer ≠ .ok HttpStatus_OK ∧ r.1 < 0)) s tr := by
  unfold downloadFile
  simp only [Script.wp_bind, Script.wp_ask]
  rintro reply tr' rfl
  rw [storeChunks_zero]
  by_cases hroom : reply.received.length ≤ block.length
  · simp only [hroom, if_true]
    cases hanswer : reply.answer with
    | error e =>
      exact ⟨reply, rfl, hroom, rfl, .inr ⟨by simp [hanswer], reply.toInt_answer_neg hanswer⟩⟩
    | ok status =>
      simp only [Script.wp_ite, Script.wp_pure, ne_eq, not_not]
      refine ⟨fun hstatus => ⟨reply, rfl, hroom, rfl, .inr ⟨?_, by simp⟩⟩,
        fun hstatus => ⟨reply, rfl, hroom, rfl, .inl ⟨?_, trivial⟩⟩⟩
      · simpa [hanswer] using hstatus
      · rw [hanswer, hstatus]
  · simp only [hroom, if_false]
    exact ⟨rfl, reply, rfl, by omega⟩

/-! ### What a download promises, and when it keeps it -/

/-- All body bytes handed to the download callback in a run. -/
def downloadedBytes (tr : List CallEvent) : Bytes := (downloads tr).flatMap HttpReply.received

/-- A download that neither lies nor overruns: nothing is written past the block, and a result
that is not negative is the number of body bytes received, which the block begins with. -/
structure DownloadHonest (tr : List CallEvent)
    (o : Except Fault ((Exit × Bytes) × Thread OneDriveConnect)) : Prop where
  inside : o ≠ .error .bufferOverrun
  exact : ∀ exit block s, o = .ok ((exit, block), s) → 0 ≤ exit.ssize →
    exit.ssize = (downloadedBytes tr).length ∧
      block.take (downloadedBytes tr).length = downloadedBytes tr

/-- The size announced is more than a buffer of `buflen` bytes is taken to hold. -/
def BufferTooSmall (buflen : ℕ) (fsize : ℤ) : Prop :=
  0 < toLong buflen ∧ toLong buflen < fsize

/-- An HTTP client could be had, the size announced is not above the buffer length, the bytes
delivered fit the buffer, and a download that succeeds delivers the size announced. -/
structure DownloadAgrees (buflen : ℕ) (tr : List CallEvent) : Prop where
  client : ⟨.httpClientNew .getFileToBuffer, false⟩ ∉ tr
  announced : ∀ info ∈ infos tr, ∀ json, info.fileInfo sizeAndUrlQuery = some json →
    ∀ n, announcedSize json = some n → ¬BufferTooSmall buflen n
  room : ∀ reply ∈ downloads tr, reply.received.length ≤ buflen
  size : ∀ info ∈ infos tr, ∀ json, info.fileInfo sizeAndUrlQuery = some json →
    ∀ reply ∈ downloads tr, reply.answer = .ok HttpStatus_OK →
      announcedSize json = some (reply.received.length : ℤ)

/-- The calls for the token do not include the client of the download. -/
private theorem httpClientNew_not_mem_token {pre : List CallEvent}
    (hpre : ∀ e ∈ pre, e.1.ForToken) :
    ⟨.httpClientNew .getFileToBuffer, false⟩ ∉ pre :=
  fun hmem => hpre _ hmem

section

variable {buflen : ℕ} {tr : List CallEvent}
  {o : Except Fault ((Exit × Bytes) × Thread OneDriveConnect)}

/-- A run that neither announces nor downloads anything and returns no error as a length. -/
private theorem honest_iff_of_refused (hclient : ⟨.httpClientNew .getFileToBuffer, false⟩ ∉ tr)
    (hdownloads : downloads tr = [])
    (hinfos : ∀ info ∈ infos tr, info.fileInfo sizeAndUrlQuery = none)
    (hinside : o ≠ .error .bufferOverrun)
    (hfailed : ∀ exit block s, o = .ok ((exit, block), s) → exit.ssize < 0) :
    DownloadHonest tr o ↔ DownloadAgrees buflen tr := by
  refine iff_of_true ⟨hinside, fun exit block s ho hexit => ?_⟩ ⟨hclient, ?_, ?_, ?_⟩
  · exact absurd hexit (hfailed exit block s ho).not_ge
  · intro info hinfo json hjson
    simp [hinfos info hinfo] at hjson
  · simp [hdownloads]
  · simp [hdownloads]

/-- An error returned as a length promises bytes that were never received. -/
private theorem not_honest_of_err {code : ℤ} {block : Bytes} {s : Thread OneDriveConnect}
    (hdownloads : downloads tr = []) :
    ¬DownloadHonest tr (.ok ((.err (hiveGeneralError code), block), s)) := by
  intro h
  have hpos : 0 < hiveGeneralError code :=
    lt_of_lt_of_le (by norm_num) (le_hiveMkError HIVEF_GENERAL code)
  have hzero := (h.exact _ _ _ rfl hpos.le).1
  simp only [Exit.ssize_err, downloadedBytes, hdownloads, List.flatMap_nil,
    List.length_nil] at hzero
  omega

/-- The same when the information request was refused. -/
private theorem honest_iff_of_infoRefused {pre : List CallEvent} (hpre : ∀ e ∈ pre, e.1.ForToken)
    (hrefused : InfoRefused sizeAndUrlQuery tr [])
    (hinside : o ≠ .error .bufferOverrun)
    (hfailed : ∀ exit block s, o = .ok ((exit, block), s) → exit.ssize < 0) :
    DownloadHonest (pre ++ ⟨.httpClientNew .getFileToBuffer, true⟩ :: tr) o ↔
      DownloadAgrees buflen (pre ++ ⟨.httpClientNew .getFileToBuffer, true⟩ :: tr) := by
  have hnew := httpClientNew_not_mem_token hpre
  obtain rfl | ⟨token, path, reply, rfl, hreply⟩ := hrefused
  · refine honest_iff_of_refused (by simpa using hnew) ?_ ?_ hinside hfailed
    · simp [downloads_token hpre]
    · simp [infos_token hpre]
  · refine honest_iff_of_refused (by simpa using hnew) ?_ ?_ hinside hfailed
    · simp [downloads_token hpre]
    · simp [infos_token hpre, hreply]

end

section

variable {buflen : ℕ} {pre : List CallEvent} {token path url : Bytes} {info reply : HttpReply}

/-- The trace of a run that gets to the download. -/
abbrev downloadTrace (pre : List CallEvent) (token path url : Bytes) (info reply : HttpReply) :
    List CallEvent :=
  pre ++ [⟨.httpClientNew .getFileToBuffer, true⟩,
    ⟨.httpClientPerform (fileInfoRequest token path sizeAndUrlQuery), info⟩,
    ⟨.httpClientPerform (downloadRequest url), reply⟩]

/-- The bytes of a download are those of its reply. -/
private theorem downloadedBytes_of_download (hpre : ∀ e ∈ pre, e.1.ForToken) :
    downloadedBytes (downloadTrace pre token path url info reply) = reply.received := by
  simp [downloadedBytes, downloads_token hpre]

/-- When the bytes agree with what has been announced. -/
private theorem agrees_of_download {json : Json} {n : ℕ} (hpre : ∀ e ∈ pre, e.1.ForToken)
    (hjson : info.fileInfo sizeAndUrlQuery = some json)
    (hn : announcedSize json = some (n : ℤ)) :
    DownloadAgrees buflen (downloadTrace pre token path url info reply) ↔
      ¬BufferTooSmall buflen n ∧ reply.received.length ≤ buflen ∧
        (reply.answer = .ok HttpStatus_OK → n = reply.received.length) := by
  have hinfos : infos (downloadTrace pre token path url info reply) = [info] := by
    simp [infos_token hpre]
  have hdownloads : downloads (downloadTrace pre token path url info reply) = [reply] := by
    simp [downloads_token hpre]
  have hnew := httpClientNew_not_mem_token hpre
  constructor
  · intro h
    refine ⟨h.announced info (by simp [hinfos]) json hjson n hn,
      h.room reply (by simp [hdownloads]),
      fun hok => ?_⟩
    simpa [hn] using h.size info (by simp [hinfos]) json hjson reply (by simp [hdownloads]) hok
  · rintro ⟨hfits, hroom, hsize⟩
    refine ⟨by simpa using hnew, ?_, by simpa [hdownloads] using hroom, ?_⟩
    · simpa [hinfos, hjson, hn] using hfits
    · simpa [hinfos, hdownloads, hjson, hn] using hsize

end

/-- A download keeps its promise exactly when the environment agrees with itself. -/
theorem getFileToBufferAt_honest_iff {path block : Bytes} {buflen : ℕ}
    {s : Thread OneDriveConnect} {tr : List CallEvent}
    {o : Except Fault ((Exit × Bytes) × Thread OneDriveConnect)}
    (hblock : block.length = buflen)
    (hrun : Program.Exec playback (getFileToBufferAt path block buflen s) tr o []) :
    DownloadHonest tr o ↔ DownloadAgrees buflen tr := by
  suffices hwp : Script.wp playback
      (fun e tr' => tr' = [] → (DownloadHonest tr (.error e) ↔ DownloadAgrees buflen tr))
      (getFileToBufferAt path block buflen)
      (fun r s' tr' => tr' = [] → (DownloadHonest tr (.ok (r, s')) ↔ DownloadAgrees buflen tr))
      s tr by
    have := Script.wp_iff_forall_exec.mp hwp o [] hrun
    match o, this with
    | .ok (r, s'), h => exact h rfl
    | .error e, h => exact h rfl
  -- along the text of the function; only the end of the trace counts
  clear hrun
  unfold getFileToBufferAt
  simp only [Script.wp_bind, Script.wp_ite, Script.wp_pure, Script.wp_ask]
  refine Script.wp_mono oauthTokenCheckExpire_within.wp_consumed_true ?_ ?_
  · rintro e _ ⟨he, pre, rfl, hpre⟩ rfl
    have hfault : e ≠ .bufferOverrun := by rintro rfl; exact he
    refine honest_iff_of_refused ?_ ?_ ?_ (by simpa using hfault) (by simp)
    · simpa using httpClientNew_not_mem_token hpre
    · simp [downloads_token hpre]
    · simp [infos_token hpre]
  rintro rc s₁ tr₁ ⟨pre, rfl, hpre⟩
  have hnew := httpClientNew_not_mem_token hpre
  refine ⟨?_, fun _ => ?_⟩
  · rintro hrc rfl
    refine honest_iff_of_refused (by simpa using hnew) ?_ ?_ (by simp) ?_
    · simp [downloads_token hpre]
    · simp [infos_token hpre]
    · rintro _ _ _ ⟨⟩
      exact hrc
  -- without a client an error is returned as a length
  rintro created tr₂ rfl
  refine ⟨?_, fun hcreated => ?_⟩
  · rintro hcreated rfl
    obtain rfl : created = false := by simpa using hcreated
    refine iff_of_false (not_honest_of_err ?_) fun h => h.client (by simp)
    simp [downloads_token hpre]
  obtain rfl : created = true := by simpa using hcreated
  refine Script.wp_mono (getFileInfo_playback path sizeAndUrlQuery s₁ tr₂) ?_ ?_
  · rintro e _ ⟨hfault, hrefused⟩ rfl
    exact honest_iff_of_infoRefused hpre hrefused (by simpa using hfault) (by simp)
  · rintro (rc | json) s₂ tr₃ hinfo
    · rintro rfl
      refine honest_iff_of_infoRefused hpre hinfo.2 (by simp) ?_
      rintro _ _ _ ⟨⟩
      exact hinfo.1
    · -- the announced size and the address are in the document
      obtain ⟨token, info, rfl, hjson⟩ := hinfo
      have hvalid := (HttpReply.fileInfo_eq_some.mp hjson).2.2.2
      obtain ⟨n, hn⟩ := announcedSize_of_fileInfoValid strstr_sizeAndUrlQuery_size hvalid
      obtain ⟨url, hurl⟩ := downloadUrl_of_fileInfoValid strstr_sizeAndUrlQuery_url hvalid
      simp only [hn, hurl, Script.wp_ite, Script.wp_pure, Script.wp_bind]
      refine ⟨?_, fun hfits => ⟨?_, fun hn0 => ?_⟩⟩
      · rintro hsmall rfl
        refine iff_of_false (not_honest_of_err ?_) fun h => ?_
        · simp [downloads_token hpre]
        · exact h.announced info (by simp [infos_token hpre]) json hjson n hn hsmall
      · -- an empty file: nothing is downloaded, and 0 is what was received
        rintro hn0 rfl
        refine iff_of_true ⟨by simp, ?_⟩ ⟨by simpa using hnew, ?_, ?_, ?_⟩
        · rintro _ _ _ ⟨⟩ _
          simp [downloadedBytes, downloads_token hpre]
        · simpa [infos_token hpre, hjson, hn, BufferTooSmall] using hfits
        · simp [downloads_token hpre]
        · simp [downloads_token hpre]
      · refine Script.wp_mono (downloadFile_playback url block s₂ tr₃) ?_ ?_
        · rintro e _ ⟨rfl, reply, rfl, hlong⟩ rfl
          refine iff_of_false (fun h => h.inside rfl) fun h => ?_
          have := h.room reply (by simp [downloads_token hpre])
          omega
        · rintro ⟨rc, block'⟩ s₃ tr₄ ⟨reply, rfl, hroom, rfl, hrc⟩
          have hlong : reply.received.length ≤ buflen := hblock ▸ hroom
          refine ⟨?_, ?_⟩
          · -- the download failed, and so says the result
            rintro hneg rfl
            have hanswer : reply.answer ≠ .ok HttpStatus_OK := by
              rintro hok
              rcases hrc with ⟨_, hrc⟩ | ⟨hne, _⟩
              · exact absurd hneg hrc.not_lt
              · exact hne hok
            refine iff_of_true ⟨by simp, ?_⟩ ((agrees_of_download hpre hjson hn).mpr
              ⟨hfits, hlong, fun hok => absurd hok hanswer⟩)
            rintro _ _ _ ⟨⟩ hexit
            exact absurd hneg hexit.not_gt
          · -- it succeeded: the announced size is returned, whatever was received
            rintro hneg rfl
            have hanswer : reply.answer = .ok HttpStatus_OK := by
              rcases hrc with ⟨hok, _⟩ | ⟨_, hrc⟩
              · exact hok
              · exact absurd hrc hneg
            refine Iff.trans ⟨fun h => ?_, fun h => ⟨by simp, ?_⟩⟩
              (agrees_of_download hpre hjson hn).symm
            · have hsize := (h.exact _ _ _ rfl (Int.natCast_nonneg n)).1
              rw [downloadedBytes_of_download hpre] at hsize
              exact ⟨hfits, hlong, fun _ => by simpa using hsize⟩
            · rintro _ _ _ ⟨⟩ _
              rw [downloadedBytes_of_download hpre]
              exact ⟨by simpa using h.2.2 hanswer, List.take_left⟩

/-! ### A download server that sends more than it announced -/

/-- A token that expires at second 2. -/
def freshToken : Thread OneDriveConnect where
  conn := {
    token := {
      authorizeUrl := []
      tokenUrl := []
      clientId := ascii "client"
      scope := []
      redirectUrl := []
      tokenType := some (ascii "bearer")
      accessToken := some (ascii "token")
      refreshToken := some (ascii "refresh")
      expiresAt := ⟨2, 0⟩ }
    keystorePath := ascii "/keystore" }
  hiveError := 0

/-- At second 1, a file of three bytes is announced and `body` is sent for it. -/
def announceThree (body : Bytes) (_ : Unit) : (i : Call) → Option (i.Reply × Unit)
  | .gettimeofday => some (⟨1, 0⟩, ())
  | .httpClientNew _ => some (true, ())
  | .httpClientPerform request =>
    if request.query.isEmpty then some (.accepted [body] none, ())
    else some (.accepted [ascii "{}"] (some (.object [
      (sizeQuery, .number (.ofInt 3)), (downloadUrlKey, .string (ascii "https://d"))])), ())
  | _ => none

/-- Five bytes do not fit a buffer of four, and are copied all the same. -/
theorem getFileToBufferAt_overruns :
    ¬∀ (path block : Bytes) (s : Thread OneDriveConnect) (tr : List CallEvent)
      (o : Except Fault ((Exit × Bytes) × Thread OneDriveConnect)), 1 ≤ block.length →
      Program.Exec playback (getFileToBufferAt path block block.length s) tr o [] →
        DownloadHonest tr o := by
  intro h
  have hrun : ((getFileToBufferAt (ascii "/Files/a") (ascii "    ") 4 freshToken).runWith
      (announceThree (ascii "12345")) ()).map Prod.fst = some (.error .bufferOverrun) := rfl
  obtain ⟨tr, hexec⟩ := Program.exists_exec_of_runWith hrun
  exact (h (ascii "/Files/a") (ascii "    ") freshToken tr _ (by decide) hexec).inside rfl

/-- Three bytes announced and three sent. -/
theorem getFileToBufferAt_honest_iff_three : ∃ tr o,
    Program.Exec playback (getFileToBufferAt (ascii "/Files/a") (ascii "    ") 4 freshToken) tr o []
      ∧ (DownloadHonest tr o ↔ DownloadAgrees 4 tr) := by
  have hrun : ((getFileToBufferAt (ascii "/Files/a") (ascii "    ") 4 freshToken).runWith
      (announceThree (ascii "123")) ()).map Prod.fst =
        some (.ok ((.ret 3, ascii "123 "), freshToken)) := rfl
  obtain ⟨tr, hexec⟩ := Program.exists_exec_of_runWith hrun
  exact ⟨tr, _, hexec, getFileToBufferAt_honest_iff rfl hexec⟩

end HiveSDK.OneDrive
