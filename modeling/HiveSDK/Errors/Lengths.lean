import HiveSDK.Errors.Oblivious
import HiveSDK.Http.Handlers
import HiveSDK.IPFS.Download
import HiveSDK.OneDrive.Download

/-!
# Errors that are taken for lengths

The functions that return a length are declared `ssize_t`. An error that reaches their `return`
through an `int` variable is negative there, and one that is returned as the macro is not: the
caller is told a length of more than two gigabytes. Which of the two a failure does is decided by
the place it happens at, and each place leaves its mark at the end of the run (`LengthError`).

`lengthFunction_reported` says of the four functions of the interface that return a length, over
either backend, that these failures are returned as lengths, and that every other value that is not
negative has been obtained.
-/

namespace HiveSDK

open Interaction C

/-- How a function that returns a length ends: it fails, it returns a length that has been obtained,
or it returns an error as a length. -/
inductive LengthEnds (obtained mislabelled : ℤ → Prop) (v : ℤ) : Prop
  | failed (hv : v < 0) (hno : ∀ e, ¬mislabelled e)
  | obtained (hv : 0 ≤ v) (hobtained : obtained v) (hno : ∀ e, ¬mislabelled e)
  | mislabelled (hv : 2 ^ 31 ≤ v) (hself : ∀ e, mislabelled e ↔ e = v)

/-- What the caller of a public function is told: the errors that are returned as lengths, and
otherwise `-1` or a length that has been obtained. -/
structure LengthReported (obtained mislabelled : ℤ → Prop) (v : ℤ) : Prop where
  told : ∀ e, mislabelled e → v = e ∧ 2 ^ 31 ≤ v
  otherwise : (∀ e, ¬mislabelled e) → v = -1 ∨ 0 ≤ v ∧ obtained v

section Ends

variable {obtained mislabelled obtained' mislabelled' : ℤ → Prop} {v : ℤ}

/-- The ends follow what has been obtained, and the errors that are returned as lengths. -/
theorem LengthEnds.mono (h : LengthEnds obtained mislabelled v)
    (hobtained : ∀ n, obtained n → obtained' n) (hsame : ∀ e, mislabelled' e ↔ mislabelled e) :
    LengthEnds obtained' mislabelled' v := by
  cases h with
  | failed hv hno => exact .failed hv fun e he => hno e ((hsame e).mp he)
  | obtained hv hgot hno =>
    exact .obtained hv (hobtained v hgot) fun e he => hno e ((hsame e).mp he)
  | mislabelled hv hself => exact .mislabelled hv fun e => (hsame e).trans (hself e)

/-- The report follows what has been obtained. -/
theorem LengthReported.mono (h : LengthReported obtained mislabelled v)
    (hobtained : ∀ n, obtained n → obtained' n) : LengthReported obtained' mislabelled v :=
  ⟨h.told, fun hno => (h.otherwise hno).imp_right fun hv => ⟨hv.1, hobtained v hv.2⟩⟩

/-- -1 reports a failure when no error has been returned as a length. -/
theorem LengthReported.of_failed (hno : ∀ e, ¬mislabelled e) :
    LengthReported obtained mislabelled (-1) :=
  ⟨fun e he => absurd he (hno e), fun _ => .inl rfl⟩

/-- A negative error becomes `-1`. -/
theorem LengthEnds.reported (h : LengthEnds obtained mislabelled v) :
    (v < 0 → LengthReported obtained mislabelled (-1)) ∧
      (¬v < 0 → LengthReported obtained mislabelled v) := by
  cases h with
  | failed hv hno => exact ⟨fun _ => .of_failed hno, fun hpos => absurd hv hpos⟩
  | obtained hv hgot hno =>
    refine ⟨fun hneg => absurd hneg hv.not_gt, fun _ => ?_⟩
    exact ⟨fun e he => absurd he (hno e), fun _ => .inr ⟨hv, hgot⟩⟩
  | mislabelled hv hself =>
    refine ⟨fun hneg => absurd hneg (by omega), fun _ => ⟨fun e he => ?_, fun hno => ?_⟩⟩
    · exact ⟨((hself e).mp he).symm, hv⟩
    · exact absurd ((hself v).mpr rfl) (hno v)

/-- The error of a function that returns the macro. -/
theorem LengthEnds.of_err {code : ℤ} (h : ∀ e, mislabelled e ↔ e = hiveGeneralError code) :
    LengthEnds obtained mislabelled (Exit.err (hiveGeneralError code)).ssize :=
  .mislabelled (le_hiveMkError _ _) h

end Ends

/-- The run ends because an HTTP client cannot be had. -/
def NoClient (user : HttpClientUser) (tr : List CallEvent) : Prop :=
  tr.getLast? = some ⟨.httpClientNew user, false⟩

/-- The calls for the token do not end on the client of the request. -/
private theorem not_noClient_of_forToken (user : HttpClientUser) {pre : List CallEvent}
    (huser : ¬(Call.httpClientNew user).ForToken) (hpre : ∀ e ∈ pre, e.1.ForToken) :
    ¬NoClient user pre := by
  intro h
  exact huser (hpre _ (List.mem_of_getLast? h))

namespace OneDrive

section Methods

variable {pre tr : List CallEvent} {s : Thread OneDriveConnect}

/-- The service has announced the size of the file. -/
def Announced (query : Bytes) (tr : List CallEvent) (n : ℤ) : Prop :=
  ∃ info ∈ infos tr, ∃ json, info.fileInfo query = some json ∧ announcedSize json = some n

/-- The errors `__get_file_length` returns as lengths. -/
def LengthErrorAt (tr : List CallEvent) (e : ℤ) : Prop :=
  NoClient .getFileLength tr ∧ e = hiveGeneralError HIVEERR_OUT_OF_MEMORY

/-- How the query of a length ends, given the trace it has taken. -/
theorem getFileLengthAt_ends (path : Bytes) :
    Script.wp playback (fun _ _ => True) (getFileLengthAt path)
      (fun exit _ tr' => tr' = [] →
        LengthEnds (Announced sizeQuery tr) (LengthErrorAt tr) exit.ssize) s tr := by
  unfold getFileLengthAt
  simp only [Script.wp_bind, Script.wp_ite, Script.wp_pure, Script.wp_ask]
  refine Script.wp_mono oauthTokenCheckExpire_within.wp_consumed_true (fun _ _ _ => trivial) ?_
  rintro rc s₁ tr₁ ⟨pre, rfl, hpre⟩
  refine ⟨?_, fun _ => ?_⟩
  · rintro hneg rfl
    rw [List.append_nil]
    exact .failed hneg fun e he => not_noClient_of_forToken .getFileLength id hpre he.1
  rintro created tr₂ rfl
  refine ⟨?_, fun hcreated => ?_⟩
  · rintro hfailed rfl
    obtain rfl : created = false := by simpa using hfailed
    exact .of_err fun e => and_iff_right List.getLast?_concat
  obtain rfl : created = true := by simpa using hcreated
  refine Script.wp_mono (getFileInfo_playback path sizeQuery s₁ tr₂) (fun _ _ _ => trivial) ?_
  rintro (rc | json) s₂ tr₃ hinfo
  · -- the error has been through an `int`
    rintro rfl
    obtain ⟨hneg, rfl | ⟨token, path, reply, rfl, -⟩⟩ := hinfo
    · exact .failed hneg fun e he => by simp [LengthErrorAt, NoClient] at he
    · exact .failed hneg fun e he => by simp [LengthErrorAt, NoClient] at he
  · obtain ⟨token, info, rfl, hjson⟩ := hinfo
    obtain ⟨n, hn⟩ := announcedSize_of_fileInfoValid strstr_sizeQuery
      (HttpReply.fileInfo_eq_some.mp hjson).2.2.2
    dsimp only
    rw [hn]
    rintro rfl
    refine .obtained (Int.natCast_nonneg n) ⟨info, ?_, json, hjson, hn⟩ fun e he => ?_
    · simp [infos_token hpre]
    · simp [LengthErrorAt, NoClient] at he

/-- The size announced is above the length of the buffer. -/
def TooLong (buflen : ℕ) (tr : List CallEvent) : Prop :=
  ∃ token path info json n,
    tr.getLast? = some ⟨.httpClientPerform (fileInfoRequest token path sizeAndUrlQuery), info⟩ ∧
    info.fileInfo sizeAndUrlQuery = some json ∧ announcedSize json = some n ∧
    BufferTooSmall buflen n

/-- The errors `__get_file_to_buffer` returns as lengths. -/
def BufferErrorAt (buflen : ℕ) (tr : List CallEvent) (e : ℤ) : Prop :=
  NoClient .getFileToBuffer tr ∧ e = hiveGeneralError HIVEERR_OUT_OF_MEMORY ∨
    TooLong buflen tr ∧ e = hiveGeneralError HIVEERR_BUFFER_TOO_SMALL

/-- The file is empty, or a download of it has succeeded. -/
def Fetched (tr : List CallEvent) (n : ℤ) : Prop :=
  Announced sizeAndUrlQuery tr n ∧
    (n = 0 ∨ ∃ reply ∈ downloads tr, reply.answer = .ok HttpStatus_OK)

/-- A run that ends with neither of them returns no error as a length. -/
private theorem not_bufferErrorAt {buflen : ℕ} {e : ℤ} (hclient : ¬NoClient .getFileToBuffer tr)
    (hlong : ¬TooLong buflen tr) : ¬BufferErrorAt buflen tr e :=
  fun h => h.elim (fun h => hclient h.1) fun h => hlong h.1

/-- The calls for the token announce no length. -/
private theorem not_tooLong_of_forToken {buflen : ℕ} (hpre : ∀ e ∈ pre, e.1.ForToken) :
    ¬TooLong buflen pre := by
  rintro ⟨token, path, info, json, n, hlast, -⟩
  obtain ⟨hpost, -⟩ := hpre _ (List.mem_of_getLast? hlast)
  cases hpost

/-- What the last reply of an information request announces. -/
private theorem tooLong_iff {buflen : ℕ} {token path : Bytes} {info : HttpReply} {json : Json}
    {n : ℤ}
    (hlast : tr.getLast? =
      some ⟨.httpClientPerform (fileInfoRequest token path sizeAndUrlQuery), info⟩)
    (hjson : info.fileInfo sizeAndUrlQuery = some json) (hn : announcedSize json = some n) :
    TooLong buflen tr ↔ BufferTooSmall buflen n := by
  constructor
  · rintro ⟨_, _, info', json', n', hlast', hjson', hn', hsmall⟩
    obtain ⟨-, rfl⟩ : _ ∧ info = info' := by simpa using hlast.symm.trans hlast'
    cases hjson.symm.trans hjson'
    cases hn.symm.trans hn'
    exact hsmall
  · intro hsmall
    exact ⟨token, path, info, json, n, hlast, hjson, hn, hsmall⟩

/-- How a download ends: the length first, then the content. -/
theorem getFileToBufferAt_ends (path block : Bytes) (buflen : ℕ) :
    Script.wp playback (fun _ _ => True) (getFileToBufferAt path block buflen)
      (fun r _ tr' => tr' = [] → LengthEnds (Fetched tr) (BufferErrorAt buflen tr) r.1.ssize)
      s tr := by
  unfold getFileToBufferAt
  simp only [Script.wp_bind, Script.wp_ite, Script.wp_pure, Script.wp_ask]
  refine Script.wp_mono oauthTokenCheckExpire_within.wp_consumed_true (fun _ _ _ => trivial) ?_
  rintro rc s₁ tr₁ ⟨pre, rfl, hpre⟩
  refine ⟨?_, fun _ => ?_⟩
  · rintro hneg rfl
    rw [List.append_nil]
    exact .failed hneg fun e => not_bufferErrorAt
      (not_noClient_of_forToken .getFileToBuffer id hpre) (not_tooLong_of_forToken hpre)
  rintro created tr₂ rfl
  refine ⟨?_, fun hcreated => ?_⟩
  · rintro hfailed rfl
    obtain rfl : created = false := by simpa using hfailed
    refine .of_err fun e => ?_
    simp [BufferErrorAt, NoClient, TooLong]
  obtain rfl : created = true := by simpa using hcreated
  refine Script.wp_mono (getFileInfo_playback path sizeAndUrlQuery s₁ tr₂) (fun _ _ _ => trivial) ?_
  rintro (rc | json) s₂ tr₃ hinfo
  · rintro rfl
    obtain ⟨hneg, rfl | ⟨token, path, reply, rfl, hrefused⟩⟩ := hinfo
    · exact .failed hneg fun e => not_bufferErrorAt (by simp [NoClient]) (by simp [TooLong])
    · refine .failed hneg fun e => not_bufferErrorAt (by simp [NoClient]) ?_
      rintro ⟨_, _, info, json, n, hlast, hjson, -⟩
      obtain ⟨-, rfl⟩ : _ ∧ reply = info := by simpa using hlast
      rw [hrefused] at hjson
      cases hjson
  · obtain ⟨token, info, rfl, hjson⟩ := hinfo
    have hvalid := (HttpReply.fileInfo_eq_some.mp hjson).2.2.2
    obtain ⟨n, hn⟩ := announcedSize_of_fileInfoValid strstr_sizeAndUrlQuery_size hvalid
    obtain ⟨url, hurl⟩ := downloadUrl_of_fileInfoValid strstr_sizeAndUrlQuery_url hvalid
    simp only [hn, hurl, Script.wp_ite, Script.wp_pure, Script.wp_bind]
    have hannounced (tr₄ : List CallEvent) : Announced sizeAndUrlQuery
        (pre ++ ⟨.httpClientNew .getFileToBuffer, true⟩ ::
          ⟨.httpClientPerform (fileInfoRequest token path sizeAndUrlQuery), info⟩ :: tr₄) n :=
      ⟨info, by simp [infos_token hpre], json, hjson, hn⟩
    have hlast : (pre ++ [(⟨.httpClientNew .getFileToBuffer, true⟩ : CallEvent),
        ⟨.httpClientPerform (fileInfoRequest token path sizeAndUrlQuery), info⟩]).getLast? =
        some ⟨.httpClientPerform (fileInfoRequest token path sizeAndUrlQuery), info⟩ := by
      rw [List.getLast?_append]
      rfl
    refine ⟨?_, fun hfits => ⟨?_, fun _ => ?_⟩⟩
    · rintro hsmall rfl
      have htoo := (tooLong_iff hlast hjson hn).mpr hsmall
      exact .of_err fun e => by simp [BufferErrorAt, NoClient, htoo]
    · rintro hzero rfl
      refine .obtained le_rfl ⟨hzero ▸ hannounced [], .inl rfl⟩ fun e => ?_
      refine not_bufferErrorAt (by simp [NoClient]) fun h => ?_
      exact hfits ((tooLong_iff hlast hjson hn).mp h)
    · refine Script.wp_mono (downloadFile_playback url block s₂ tr₃) (fun _ _ _ => trivial) ?_
      rintro ⟨rc, block'⟩ s₃ tr₄ ⟨reply, rfl, -, -, hrc⟩
      -- the last request has no query
      have hno (tr₄ : List CallEvent) (hnil : tr₄ = []) (e : ℤ) : ¬BufferErrorAt buflen
          (pre ++ ⟨.httpClientNew .getFileToBuffer, true⟩ ::
            ⟨.httpClientPerform (fileInfoRequest token path sizeAndUrlQuery), info⟩ ::
            ⟨.httpClientPerform (downloadRequest url), reply⟩ :: tr₄) e := by
        subst hnil
        refine not_bufferErrorAt (by simp [NoClient]) ?_
        simp [TooLong, downloadRequest, fileInfoRequest]
      refine ⟨fun hneg hnil => .failed hneg (hno _ hnil), fun hpos hnil => ?_⟩
      refine .obtained (Int.natCast_nonneg n) ⟨hannounced _, .inr ⟨reply, ?_, ?_⟩⟩ (hno _ hnil)
      · simp [downloads_token hpre]
      · exact (hrc.resolve_right fun h => hpos h.2).1

/-- The errors `get_file_length` returns as lengths: that of a name that is too long besides. -/
def LengthError (filename : Bytes) (tr : List CallEvent) (e : ℤ) : Prop :=
  (snprintfPath FILES_DIR filename).2 = false ∧ e = hiveGeneralError HIVEERR_BUFFER_TOO_SMALL ∨
    LengthErrorAt tr e

/-- Those of `get_file_to_buffer`. -/
def BufferError (filename : Bytes) (buflen : ℕ) (tr : List CallEvent) (e : ℤ) : Prop :=
  (snprintfPath FILES_DIR filename).2 = false ∧ e = hiveGeneralError HIVEERR_BUFFER_TOO_SMALL ∨
    BufferErrorAt buflen tr e

/-- The length of a file, with the empty name told apart. -/
theorem getFileLength_ends (filename : Bytes) :
    Script.wp playback (fun _ _ => True) (getFileLength filename)
      (fun exit _ tr' => tr' = [] →
        LengthEnds (Announced sizeQuery tr) (LengthError filename tr) exit.ssize) s tr := by
  unfold getFileLength
  simp only [Script.wp_ite, Bool.not_eq_true', Bool.not_eq_false]
  constructor
  · -- the path does not fit into its buffer, and no request is made
    rintro hlong rfl
    refine .of_err fun e => ?_
    simp [LengthError, LengthErrorAt, NoClient, hlong]
  · intro hcomplete
    refine Script.wp_mono (getFileLengthAt_ends _) (fun _ _ h => h) ?_
    intro exit _ tr' hends hnil
    exact (hends hnil).mono (fun _ h => h) fun e => by simp [LengthError, hcomplete]

/-- A file into a buffer, with the empty name told apart. -/
theorem getFileToBuffer_ends (filename block : Bytes) (buflen : ℕ) :
    Script.wp playback (fun _ _ => True) (getFileToBuffer filename block buflen)
      (fun r _ tr' => tr' = [] →
        LengthEnds (Fetched tr) (BufferError filename buflen tr) r.1.ssize) s tr := by
  unfold getFileToBuffer
  simp only [Script.wp_ite, Bool.not_eq_true', Bool.not_eq_false]
  constructor
  · -- the path does not fit into its buffer, and no request is made
    rintro hlong rfl
    refine .of_err fun e => ?_
    simp [BufferError, BufferErrorAt, NoClient, TooLong, hlong]
  · intro hcomplete
    refine Script.wp_mono (getFileToBufferAt_ends _ _ _) (fun _ _ h => h) ?_
    intro r _ tr' hends hnil
    exact (hends hnil).mono (fun _ h => h) fun e => by simp [BufferError, hcomplete]

end Methods

end OneDrive

namespace IPFS

section Methods

variable {pre past tr : List CallEvent} {s : Thread IPFSConnect} {cid : Bytes}

/-- The choice of a node does not end on the client of the request. -/
private theorem not_noClient_of_forChoice (user : HttpClientUser)
    (huser : ¬(Call.httpClientNew user).ForChoice) (hpre : ∀ e ∈ pre, e.1.ForChoice) :
    ¬NoClient user pre := by
  intro h
  exact huser (hpre _ (List.mem_of_getLast? h))

/-- The errors `get_file_length` returns as lengths: without a client, and of a reply that is
accepted and does not list the file. -/
def LengthError (cid : Bytes) (tr : List CallEvent) (e : ℤ) : Prop :=
  NoClient .ipfsGetFileLength tr ∧ e = hiveGeneralError HIVEERR_OUT_OF_MEMORY ∨
    ∃ ip port reply, tr.getLast? = some ⟨.httpClientPerform (fileLsRequest ip port cid), reply⟩ ∧
      reply.answer = .ok HttpStatus_OK ∧
      (reply.document = none ∧ e = hiveGeneralError HIVEERR_OUT_OF_MEMORY ∨
        ∃ resp, reply.document = some resp ∧ listedSize cid resp = none ∧
          e = hiveGeneralError HIVEERR_BAD_JSON_FORMAT)

/-- A reply that is not accepted is no such error. -/
private theorem not_lengthError {ip : Bytes} {port : ℕ} {reply : HttpReply} {e : ℤ}
    (hlast : tr.getLast? = some ⟨.httpClientPerform (fileLsRequest ip port cid), reply⟩)
    (hanswer : reply.answer ≠ .ok HttpStatus_OK) : ¬LengthError cid tr e := by
  rintro (⟨hclient, -⟩ | ⟨_, _, reply', hlast', hanswer', -⟩)
  · cases hlast.symm.trans hclient
  · obtain ⟨-, rfl⟩ : _ ∧ reply = reply' := by simpa using hlast.symm.trans hlast'
    exact hanswer hanswer'

/-- The error of a reply that is accepted. -/
private theorem lengthError_iff {ip : Bytes} {port : ℕ} {reply : HttpReply} {e : ℤ}
    (hlast : tr.getLast? = some ⟨.httpClientPerform (fileLsRequest ip port cid), reply⟩)
    (hanswer : reply.answer = .ok HttpStatus_OK) :
    LengthError cid tr e ↔ reply.document = none ∧ e = hiveGeneralError HIVEERR_OUT_OF_MEMORY ∨
      ∃ resp, reply.document = some resp ∧ listedSize cid resp = none ∧
        e = hiveGeneralError HIVEERR_BAD_JSON_FORMAT := by
  constructor
  · rintro (⟨hclient, -⟩ | ⟨_, _, reply', hlast', -, hbad⟩)
    · cases hlast.symm.trans hclient
    · obtain ⟨-, rfl⟩ : _ ∧ reply = reply' := by simpa using hlast.symm.trans hlast'
      exact hbad
  · intro hbad
    exact .inr ⟨ip, port, reply, hlast, hanswer, hbad⟩

/-- How the query of a length ends at a node; the length is a `ssize_t`. -/
theorem getFileLength_ends : Script.wp record (fun _ _ => True) (getFileLength cid)
    (fun exit _ past => LengthEnds (Listed cid · past) (LengthError cid past) exit.ssize ∧
      exit.ssize < 2 ^ 63) s [] := by
  have hsmall (code : ℤ) : (Exit.err (hiveGeneralError code)).ssize < 2 ^ 63 := by
    have := hiveMkError_lt (by decide : HIVEF_GENERAL < 128) code
    rw [Exit.ssize_err, hiveGeneralError]
    omega
  rw [getFileLength, Script.wp_bind]
  refine Script.wp_mono (Script.wp_recorded checkReachable_within checkReachable_nonpos)
    (fun _ _ _ => trivial) ?_
  rintro rc s₁ past₁ ⟨hrc, hchoice⟩
  obtain ⟨new, hpast, hnew⟩ := hchoice
  rw [List.nil_append] at hpast
  subst hpast
  simp only [Script.wp_ite, Script.wp_bind, Script.wp_get, Script.wp_ask, Script.wp_pure]
  refine ⟨fun hneg => ⟨.failed hneg ?_, ?_⟩, fun _ => ?_⟩
  · rintro e (⟨hclient, -⟩ | ⟨ip, port, reply, hlast, -⟩)
    · exact not_noClient_of_forChoice .ipfsGetFileLength id hnew hclient
    · obtain ⟨_, _, hversion⟩ := hnew _ (List.mem_of_getLast? hlast)
      cases congrArg HttpRequest.query hversion
  · rw [Exit.ssize_ret]
    omega
  rintro created _ rfl
  refine ⟨fun hfailed => ⟨.of_err fun e => ?_, hsmall _⟩, fun _ => ?_⟩
  · obtain rfl : created = false := by simpa using hfailed
    simp [LengthError, NoClient]
  rintro reply past₂ hpast
  have hlast : past₂.getLast? = some _ := hpast ▸ List.getLast?_concat
  have hmem := List.mem_of_getLast? hlast
  have hfailed {rc : ℤ} (hneg : rc < 0) (hanswer : reply.answer ≠ .ok HttpStatus_OK) :
      LengthEnds (Listed cid · past₂) (LengthError cid past₂) (Exit.ret rc).ssize ∧
        (Exit.ret rc).ssize < 2 ^ 63 :=
    ⟨.failed hneg fun e => not_lengthError hlast hanswer, by rw [Exit.ssize_ret]; omega⟩
  refine ⟨fun hperformed => ?_, fun hperformed => ⟨fun hinfo => ?_, fun hinfo => ⟨fun hstatus => ?_,
    fun hstatus => ?_⟩⟩⟩
  · refine Script.wp_mono transferError_neg (fun _ _ h => h) ?_
    rintro e _ _ ⟨hneg, rfl⟩
    exact hfailed hneg fun h => hperformed (HttpReply.answer_eq_ok.mp h).1
  · exact hfailed (toInt_hiveCurlError_neg _) fun h => hinfo (HttpReply.answer_eq_ok.mp h).2.1
  · exact hfailed (toInt_hiveHttpStatusError_neg _) fun h =>
      hstatus (HttpReply.answer_eq_ok.mp h).2.2
  rw [not_not] at hperformed hinfo hstatus
  have hanswer := HttpReply.answer_eq_ok.mpr ⟨hperformed, hinfo, hstatus⟩
  have hiff (e : ℤ) := lengthError_iff (e := e) hlast hanswer
  rw [wp_moveAndParse]
  refine ⟨fun _ => trivial, fun hbody => ?_⟩
  have hdocument : reply.document = reply.parsed := by rw [HttpReply.document, if_neg hbody]
  rw [hdocument] at hiff
  cases hparsed : reply.parsed with
  | none => exact ⟨.of_err fun e => by simp [hiff, hparsed], hsmall _⟩
  | some resp =>
    dsimp only
    cases hsize : listedSize cid resp with
    | none => exact ⟨.of_err fun e => by simp [hiff, hparsed, hsize], hsmall _⟩
    | some size =>
      refine ⟨.obtained (listedSize_nonneg hsize) ?_ fun e he => ?_, listedSize_lt hsize⟩
      · exact ⟨_, _, reply, resp, hmem, hanswer, hdocument.trans hparsed, hsize⟩
      · simp [hiff, hparsed, hsize] at he

/-- The calls of a length query. -/
def ForQuery (cid : Bytes) (call : Call) : Prop :=
  call.ForChoice ∨ call = .httpClientNew .ipfsGetFileLength ∨
    ∃ ip port, call = .httpClientPerform (fileLsRequest ip port cid)

/-- The calls a query of the length makes. -/
theorem getFileLength_within : (getFileLength cid).Within (ForQuery cid) fun _ => True := by
  have hchoice : checkReachable.Within (ForQuery cid) fun _ => True :=
    checkReachable_within.mono (fun _ => .inl) fun _ _ => trivial
  unfold getFileLength transferError markNodeUnreachable
  refine .bind hchoice fun rc => .ite (.pure _) (.bind .get fun s => ?_)
  refine .bind (.ask (.inr (.inl rfl))) fun created => .ite (.pure _) ?_
  refine .bind (.ask (.inr (.inr ⟨_, _, rfl⟩))) fun reply => ?_
  refine .ite (.bind (.ite (.bind (.modify _) fun _ => .pure _) (.pure _)) fun _ => .pure _) ?_
  refine .ite (.pure _) (.ite (.pure _) (.bind (moveAndParse_within trivial reply) fun json => ?_))
  cases json with
  | none => exact .pure _
  | some resp =>
    dsimp only
    split
    · exact .pure _
    · exact .pure _

/-- What the node answers to the request for the content is not returned as a length: a transfer
that has been received has another status, or another size. -/
def Rejected (buflen : ℕ) (query : ℤ) (reply : HttpReply) (e : ℤ) : Prop :=
  reply.performed = 0 ∧ reply.received.length ≤ buflen ∧
    (reply.info ≠ 0 ∧ e = hiveCurlError reply.info ∨
      reply.info = 0 ∧ (reply.status : ℕ) ≠ HttpStatus_OK ∧
        e = hiveHttpStatusError (reply.status : ℕ) ∨
      reply.answer = .ok HttpStatus_OK ∧ query ≠ reply.received.length ∧
        e = hiveGeneralError HIVEERR_BAD_PERSISTENT_DATA)

/-- How a run that has been told a positive length ends where that is no length. -/
inductive BufferEnd (cid : Bytes) (buflen : ℕ) (query : ℤ) (tr : List CallEvent) (e : ℤ) : Prop
  | tooSmall (hsmall : OneDrive.BufferTooSmall buflen query)
      (he : e = hiveGeneralError HIVEERR_BUFFER_TOO_SMALL)
  | noClient (hlarge : ¬OneDrive.BufferTooSmall buflen query)
      (hclient : NoClient .ipfsGetFileToBuffer tr) (he : e = hiveGeneralError HIVEERR_OUT_OF_MEMORY)
  | rejected (hlarge : ¬OneDrive.BufferTooSmall buflen query) {ip : Bytes} {port : ℕ}
      {reply : HttpReply}
      (hlast : tr.getLast? = some ⟨.httpClientPerform (catRequest ip port cid), reply⟩)
      (he : Rejected buflen query reply e)

/-- The errors `get_file_to_buffer` returns as lengths. -/
def BufferError (s : Thread IPFSConnect) (cid : Bytes) (buflen : ℕ) (tr : List CallEvent) (e : ℤ) :
    Prop :=
  ∃ query, Queried cid s tr query ∧ 0 < query.ssize ∧ BufferEnd cid buflen query.ssize tr e

/-- The last thing in the run is that a node has sent `data` for the content. -/
def Received (cid : Bytes) (tr : List CallEvent) (data : Bytes) : Prop :=
  ∃ ip port reply, tr.getLast? = some ⟨.httpClientPerform (catRequest ip port cid), reply⟩ ∧
    reply.answer = .ok HttpStatus_OK ∧ reply.received = data

/-- The file is empty, or as many bytes have been received. -/
def Fetched (cid : Bytes) (tr : List CallEvent) (n : ℤ) : Prop :=
  n = 0 ∧ Listed cid 0 tr ∨ ∃ data, Received cid tr data ∧ (data.length : ℤ) = n

/-- The bytes received are at the beginning of the block. -/
def FetchedInto (cid block : Bytes) (tr : List CallEvent) (n : ℤ) : Prop :=
  n = 0 ∧ Listed cid 0 tr ∨
    ∃ data, Received cid tr data ∧ (data.length : ℤ) = n ∧ block.take data.length = data

theorem FetchedInto.fetched {block : Bytes} {n : ℤ} (h : FetchedInto cid block tr n) :
    Fetched cid tr n := by
  rcases h with h | ⟨data, hreceived, hn, -⟩
  · exact .inl h
  · exact .inr ⟨data, hreceived, hn⟩

/-- The error of a download is that of its query, or comes after a query that announced a positive
length. -/
private theorem bufferError_iff {query : Exit} {buflen : ℕ} {e : ℤ}
    (hquery : Queried cid s tr query) :
    BufferError s cid buflen tr e ↔ 0 < query.ssize ∧ BufferEnd cid buflen query.ssize tr e := by
  constructor
  · rintro ⟨query', ⟨s₁', tr₁', hquery'⟩, hpos, hend⟩
    obtain ⟨s₁, tr₁, hquery⟩ := hquery
    obtain ⟨hsame, -⟩ := hquery'.playback_unique hquery
    cases hsame
    exact ⟨hpos, hend⟩
  · intro h
    exact ⟨query, hquery, h⟩

/-- The calls of the query do not end a download. -/
private theorem not_bufferEnd_of_forQuery {buflen : ℕ} {query e : ℤ}
    (hlarge : ¬OneDrive.BufferTooSmall buflen query) (htr : ∀ x ∈ tr, ForQuery cid x.1) :
    ¬BufferEnd cid buflen query tr e := by
  intro h
  cases h with
  | tooSmall hsmall => exact hlarge hsmall
  | noClient _ hclient =>
    rcases htr _ (List.mem_of_getLast? hclient) with h | h | ⟨_, _, h⟩
    · exact h
    · cases h
    · cases h
  | @rejected _ ip port reply hlast _ =>
    rcases htr _ (List.mem_of_getLast? hlast) with ⟨_, _, h⟩ | h | ⟨ip', port', h⟩
    · cases congrArg HttpRequest.query h
    · cases h
    · -- the requests for the content and for the length are at different paths
      have hcat := getLast?_nodeUrl ip port (ascii "/api/v0/ca") 116
      have hls := getLast?_nodeUrl ip' port' (ascii "/api/v0/file/l") 115
      have hsame := congrArg HttpRequest.url (Call.httpClientPerform.inj h)
      cases hcat.symm.trans ((congrArg List.getLast? hsame).trans hls)

/-- The bytes that a copy has left at the beginning of a block. -/
private theorem take_of_memcpy {block block' data : Bytes} {off : ℕ}
    (h : memcpy block off data = some block') :
    block'.take (off + data.length) = block.take off ++ data := by
  unfold memcpy at h
  split at h
  · rename_i hroom
    cases h
    have hlen : (block.take off ++ data).length = off + data.length := by
      rw [List.length_append, List.length_take]
      omega
    rw [← hlen]
    exact List.take_left
  · cases h

/-- A body that is refused is longer than the buffer, and one that is not has been stored. The
induction is on the chunks. -/
theorem storeBody_ends {buflen : ℕ} {chunks : List Bytes} {block block' : Bytes}
    {actual actual' : ℕ} {refused : Bool} (hactual : actual ≤ buflen)
    (h : storeBody buflen block actual chunks = some (block', actual', refused)) :
    refused = true ∧ buflen < actual + chunks.flatten.length ∨
      refused = false ∧ actual' = actual + chunks.flatten.length ∧ actual' ≤ buflen ∧
        block'.take actual' = block.take actual ++ chunks.flatten := by
  induction chunks generalizing block actual with
  | nil =>
    cases h
    exact .inr ⟨rfl, rfl, hactual, (List.append_nil _).symm⟩
  | cons chunk chunks ih =>
    rw [List.flatten_cons, List.length_append]
    unfold storeBody getResponseBodyCb at h
    split at h
    · cases h
    · rename_i hrefused
      split at hrefused
      · cases h
        exact .inl ⟨rfl, by omega⟩
      · obtain ⟨_, -, hno⟩ := Option.map_eq_some_iff.mp hrefused
        cases hno
    · rename_i hstored
      split at hstored
      · cases hstored
      · rename_i hroom
        obtain ⟨_, hcopy, hsome⟩ := Option.map_eq_some_iff.mp hstored
        cases hsome
        have hnext := ih (by omega) h
        rw [take_of_memcpy hcopy, Nat.add_assoc, List.append_assoc] at hnext
        exact hnext

/-- How the run ends once the request for the content has been answered. -/
theorem afterTransfer_ends {ip : Bytes} {port buflen actual : ℕ} {query : ℤ} {reply : HttpReply}
    {refused : Bool} {block : Bytes} {s₁ : Thread IPFSConnect} (hquery : 0 < query)
    (hlt : query < 2 ^ 63)
    (herror : ∀ e, BufferError s cid buflen tr e ↔ BufferEnd cid buflen query tr e)
    (hlarge : ¬OneDrive.BufferTooSmall buflen query)
    (hlast : tr.getLast? = some ⟨.httpClientPerform (catRequest ip port cid), reply⟩)
    (hstored : refused = true ∧ buflen < reply.received.length ∨
      refused = false ∧ actual = reply.received.length ∧ actual ≤ buflen ∧
        block.take actual = reply.received) :
    Script.wp record (fun _ _ => True) (afterTransfer query reply block actual refused)
      (fun r _ past => LengthEnds (FetchedInto cid r.2 past) (BufferError s cid buflen past)
        r.1.ssize)
      s₁ tr := by
  -- only what this reply says can be returned as a length
  have hend (e : ℤ) : BufferError s cid buflen tr e ↔ Rejected buflen query reply e := by
    rw [herror]
    constructor
    · intro h
      cases h with
      | tooSmall hsmall => exact absurd hsmall hlarge
      | noClient _ hclient => cases hlast.symm.trans hclient
      | @rejected _ _ _ reply' hlast' he =>
        obtain ⟨-, rfl⟩ : _ ∧ reply = reply' := by simpa using hlast.symm.trans hlast'
        exact he
    · intro he
      exact .rejected hlarge hlast he
  simp only [afterTransfer, Script.wp_ite, Script.wp_bind, Script.wp_pure]
  refine ⟨fun hperformed => ?_, fun hperformed => ?_⟩
  · refine Script.wp_mono transferError_neg (fun _ _ h => h) ?_
    rintro rc _ _ ⟨hneg, rfl⟩
    refine .failed hneg fun e he => ?_
    obtain ⟨hdone, hfits, -⟩ := (hend e).mp he
    rcases hstored with ⟨-, hlong⟩ | ⟨rfl, -⟩
    · omega
    · exact hperformed hdone
  obtain ⟨rfl, hactual, hfits, htake⟩ : refused = false ∧ actual = reply.received.length ∧
      actual ≤ buflen ∧ block.take actual = reply.received := by
    refine hstored.resolve_left ?_
    rintro ⟨rfl, -⟩
    exact hperformed (show CURLE_WRITE_ERROR ≠ 0 by decide)
  have hdone : reply.performed = 0 := not_not.mp hperformed
  have hrejected (e : ℤ) : BufferError s cid buflen tr e ↔
      (reply.info ≠ 0 ∧ e = hiveCurlError reply.info ∨
        reply.info = 0 ∧ (reply.status : ℕ) ≠ HttpStatus_OK ∧
          e = hiveHttpStatusError (reply.status : ℕ) ∨
        reply.answer = .ok HttpStatus_OK ∧ query ≠ reply.received.length ∧
          e = hiveGeneralError HIVEERR_BAD_PERSISTENT_DATA) := by
    rw [hend, Rejected, and_iff_right hdone, and_iff_right (hactual ▸ hfits)]
  have hanswer : reply.answer = .ok HttpStatus_OK ↔
      reply.info = 0 ∧ reply.status = HttpStatus_OK := by
    rw [HttpReply.answer_eq_ok, and_iff_right hdone]
  simp only [hanswer] at hrejected
  refine ⟨fun hinfo => ?_, fun hinfo => ⟨fun hstatus => ?_, fun hstatus => ?_⟩⟩
  · exact .mislabelled (le_hiveMkError _ _) fun e => by simp [hrejected, hinfo]
  · rw [not_not] at hinfo
    exact .mislabelled (le_hiveMkError _ _) fun e => by simp [hrejected, hinfo, hstatus]
  · rw [not_not] at hinfo hstatus
    have hself := toSize_eq_self hquery.le (by omega)
    refine ⟨fun hsize => ?_, fun hsize => ?_⟩
    · rw [hself, hactual] at hsize
      exact .of_err fun e => by simp [hrejected, hinfo, hstatus, hsize]
    · rw [not_not, hself, hactual] at hsize
      refine .obtained hquery.le ?_ fun e he => ?_
      · have hreceived : Received cid tr reply.received :=
          ⟨ip, port, reply, hlast, hanswer.mpr ⟨hinfo, hstatus⟩, rfl⟩
        exact .inr ⟨reply.received, hreceived, hsize.symm, hactual ▸ htake⟩
      · simp [hrejected, hinfo, hstatus, hsize] at he

/-- How a download from a node ends: what has been stored decides, not only what the node has
announced. -/
theorem getFileToBuffer_ends (block : Bytes) (buflen : ℕ) :
    Script.wp record (fun _ _ => True) (getFileToBuffer cid block buflen)
      (fun r _ past => LengthEnds (FetchedInto cid r.2 past) (BufferError s cid buflen past)
        r.1.ssize)
      s [] := by
  rw [getFileToBuffer, Script.wp_bind]
  refine Script.wp_mono (Script.wp_with_exec (Script.wp_recorded getFileLength_within
    getFileLength_ends)) (fun _ _ _ => trivial) ?_
  rintro query s₁ past₁ ⟨⟨⟨hends, hlt⟩, new₁, hpast, hnew₁⟩, hquery⟩
  rw [List.nil_append] at hpast
  subst hpast
  have herror (hpos : 0 < query.ssize) {tr : List CallEvent} (hpre : past₁ <+: tr) (e : ℤ) :
      BufferError s cid buflen tr e ↔ BufferEnd cid buflen query.ssize tr e :=
    (bufferError_iff (.of_record hquery hpre)).trans (and_iff_right hpos)
  simp only [Script.wp_bind, Script.wp_ite, Script.wp_pure]
  refine ⟨fun hzero => ?_, fun hpos => ?_⟩
  · -- nothing has been asked but the length
    have hno (e : ℤ) : ¬BufferError s cid buflen past₁ e := fun he =>
      ((bufferError_iff (.of_record hquery List.prefix_rfl)).mp he).1.not_ge hzero
    cases hends with
    | failed hneg => exact .failed hneg hno
    | obtained hnonneg hlisted =>
      refine .obtained hnonneg ?_ hno
      have heq := le_antisymm hzero hnonneg
      exact .inl ⟨heq, heq ▸ hlisted⟩
    | mislabelled hlarge => omega
  rw [not_le] at hpos
  refine ⟨fun hsmall => ?_, fun hlarge => ?_⟩
  · refine .of_err fun e => (herror hpos List.prefix_rfl e).trans ⟨fun h => ?_, .tooSmall hsmall⟩
    cases h with
    | tooSmall _ he => exact he
    | noClient hlarge => exact absurd hsmall hlarge
    | rejected hlarge => exact absurd hsmall hlarge
  refine Script.wp_mono (Script.wp_recorded checkReachable_within Script.wp_true)
    (fun _ _ _ => trivial) ?_
  rintro rc s₂ past₂ ⟨-, new₂, rfl, hnew₂⟩
  have hpre₂ : past₁ <+: past₁ ++ new₂ := List.prefix_append past₁ new₂
  refine ⟨fun hneg => .failed hneg fun e he => ?_, fun _ => ?_⟩
  · refine not_bufferEnd_of_forQuery hlarge (fun x hx => ?_) ((herror hpos hpre₂ e).mp he)
    rcases List.mem_append.mp hx with hx | hx
    · exact hnew₁ x hx
    · exact .inl (hnew₂ x hx)
  simp only [Script.wp_get, Script.wp_ask]
  rintro created past₃ hcreated
  have hlast₃ : past₃.getLast? = some _ := hcreated ▸ List.getLast?_concat
  have hpre₃ : past₁ <+: past₃ := hcreated ▸ hpre₂.trans (List.prefix_append _ _)
  refine ⟨fun hfailed => ?_, fun _ => ?_⟩
  · obtain rfl : created = false := by simpa using hfailed
    refine .of_err fun e => (herror hpos hpre₃ e).trans ⟨fun h => ?_, .noClient hlarge hlast₃⟩
    cases h with
    | tooSmall hsmall => exact absurd hsmall hlarge
    | noClient _ _ he => exact he
    | rejected _ hlast => cases hlast₃.symm.trans hlast
  rintro reply past₄ hreply
  have hlast₄ : past₄.getLast? = some _ := hreply ▸ List.getLast?_concat
  have hpre₄ : past₁ <+: past₄ := hreply ▸ hpre₃.trans (List.prefix_append _ _)
  cases hstore : storeBody buflen block 0 reply.chunks with
  | none => trivial
  | some stored =>
    obtain ⟨block, actual, refused⟩ := stored
    have hstored := storeBody_ends (Nat.zero_le buflen) hstore
    rw [Nat.zero_add, List.take_zero, List.nil_append] at hstored
    exact afterTransfer_ends hpos hlt (herror hpos hpre₄) hlarge hlast₄ hstored

end Methods

end IPFS

/-! ### The public functions -/

/-- The functions that return a length, each on a connection of the backend that has it. -/
inductive LengthFunction
  | getFileLength (filename : Option Bytes)
  | getFileToBuffer (filename dst : Option Bytes) (buflen : ℕ)
  | ipfsGetFileLength (cid : Option Bytes)
  | ipfsGetFileToBuffer (cid dst : Option Bytes) (buflen : ℕ)

namespace LengthFunction

def backend : LengthFunction → Backend
  | getFileLength _ | getFileToBuffer _ _ _ => .oneDrive
  | ipfsGetFileLength _ | ipfsGetFileToBuffer _ _ _ => .ipfs

def operation : LengthFunction → HiveOperation
  | getFileLength filename => .getFileLength filename
  | getFileToBuffer filename dst buflen => .getFileToBuffer filename dst buflen
  | ipfsGetFileLength cid => .ipfsGetFileLength cid
  | ipfsGetFileToBuffer cid dst buflen => .ipfsGetFileToBuffer cid dst buflen

/-- The length has been announced, or as many bytes have been received. -/
def Obtained : LengthFunction → List CallEvent → ℤ → Prop
  | getFileLength _, tr => OneDrive.Announced sizeQuery tr
  | getFileToBuffer _ _ _, tr => OneDrive.Fetched tr
  | ipfsGetFileLength cid, tr => fun n => ∃ c ∈ nonempty? cid, IPFS.Listed c n tr
  | ipfsGetFileToBuffer cid _ _, tr => fun n => ∃ c ∈ nonempty? cid, IPFS.Fetched c tr n

/-- The run from `s` ends with the failure `e`, and the function returns it as a length. -/
def Mislabels : (f : LengthFunction) → Thread f.backend.Connect → List CallEvent → ℤ → Prop
  | getFileLength filename, _, tr, e => ∃ name ∈ nonempty? filename, OneDrive.LengthError name tr e
  | getFileToBuffer filename dst buflen, _, tr, e => ∃ name ∈ nonempty? filename,
    dst ≠ none ∧ buflen ≠ 0 ∧ OneDrive.BufferError name buflen tr e
  | ipfsGetFileLength cid, _, tr, e => ∃ c ∈ nonempty? cid, IPFS.LengthError c tr e
  | ipfsGetFileToBuffer cid dst buflen, s, tr, e => ∃ c ∈ nonempty? cid,
    dst ≠ none ∧ buflen ≠ 0 ∧ IPFS.BufferError s c buflen tr e

end LengthFunction

section Public

variable {tr : List CallEvent}

/-- What `hive_get_file_length` returns over OneDrive. -/
theorem hiveGetFileLength_reported (filename : Option Bytes) (s : Thread OneDriveConnect) :
    Script.wp playback (fun _ _ => True) (hiveGetFileLength (some oneDriveMethods) filename)
      (fun v _ tr' => tr' = [] → LengthReported (OneDrive.Announced sizeQuery tr)
        (fun e => ∃ name ∈ nonempty? filename, OneDrive.LengthError name tr e) v) s tr := by
  unfold hiveGetFileLength
  cases nonempty? filename with
  | none =>
    intro _
    exact .of_failed (by simp)
  | some name =>
    refine Script.wp_bind.mpr (Script.wp_mono (OneDrive.getFileLength_ends name)
      (fun _ _ h => h) ?_)
    intro exit s' tr' hends
    rw [wp_reportSize]
    constructor
    · intro hneg hnil
      exact ((hends hnil).mono (fun _ h => h) (by simp)).reported.1 hneg
    · intro hpos hnil
      exact ((hends hnil).mono (fun _ h => h) (by simp)).reported.2 hpos

/-- What `hive_get_file_to_buffer` returns over OneDrive. -/
theorem hiveGetFileToBuffer_reported (filename dst : Option Bytes) (buflen : ℕ)
    (s : Thread OneDriveConnect) :
    Script.wp playback (fun _ _ => True)
      (hiveGetFileToBuffer (some oneDriveMethods) filename dst buflen)
      (fun r _ tr' => tr' = [] → LengthReported (OneDrive.Fetched tr)
        (fun e => ∃ name ∈ nonempty? filename,
          dst ≠ none ∧ buflen ≠ 0 ∧ OneDrive.BufferError name buflen tr e) r.1) s tr := by
  unfold hiveGetFileToBuffer
  cases nonempty? filename with
  | none =>
    intro _
    exact .of_failed (by simp)
  | some name =>
    cases dst with
    | none =>
      intro _
      exact .of_failed (by simp)
    | some block =>
      dsimp only
      rw [Script.wp_ite]
      constructor
      · intro hzero _
        exact .of_failed (by simp [hzero])
      · intro hlen
        refine Script.wp_bind.mpr (Script.wp_mono
          (OneDrive.getFileToBuffer_ends name block buflen) (fun _ _ h => h) ?_)
        rintro ⟨exit, block'⟩ s' tr' hends
        simp only [Script.wp_bind, wp_reportSize, Script.wp_pure]
        constructor
        · intro hneg hnil
          exact ((hends hnil).mono (fun _ h => h) (by simp [hlen])).reported.1 hneg
        · intro hpos hnil
          exact ((hends hnil).mono (fun _ h => h) (by simp [hlen])).reported.2 hpos

/-- What `hive_ipfs_get_file_length` returns. -/
theorem hiveIpfsGetFileLength_reported (cid : Option Bytes) (s : Thread IPFSConnect) :
    Script.wp record (fun _ _ => True) (hiveIpfsGetFileLength (some ipfsMethods) cid)
      (fun v _ past => LengthReported (fun n => ∃ c ∈ nonempty? cid, IPFS.Listed c n past)
        (fun e => ∃ c ∈ nonempty? cid, IPFS.LengthError c past e) v) s [] := by
  unfold hiveIpfsGetFileLength
  cases nonempty? cid with
  | none => exact .of_failed (by simp)
  | some c =>
    refine Script.wp_bind.mpr (Script.wp_mono IPFS.getFileLength_ends (fun _ _ h => h) ?_)
    rintro exit s' past ⟨hends, -⟩
    rw [wp_reportSize]
    exact (hends.mono (by simp) (by simp)).reported

/-- What `hive_ipfs_get_file_to_buffer` returns. -/
theorem hiveIpfsGetFileToBuffer_reported (cid dst : Option Bytes) (buflen : ℕ)
    (s : Thread IPFSConnect) :
    Script.wp record (fun _ _ => True) (hiveIpfsGetFileToBuffer (some ipfsMethods) cid dst buflen)
      (fun r _ past => LengthReported (fun n => ∃ c ∈ nonempty? cid, IPFS.FetchedInto c r.2 past n)
        (fun e => ∃ c ∈ nonempty? cid,
          dst ≠ none ∧ buflen ≠ 0 ∧ IPFS.BufferError s c buflen past e) r.1) s [] := by
  unfold hiveIpfsGetFileToBuffer
  cases nonempty? cid with
  | none => exact .of_failed (by simp)
  | some c =>
    cases dst with
    | none => exact .of_failed (by simp)
    | some block =>
      dsimp only
      rw [Script.wp_ite]
      constructor
      · intro hzero
        exact .of_failed (by simp [hzero])
      · intro hlen
        refine Script.wp_bind.mpr (Script.wp_mono
          (IPFS.getFileToBuffer_ends block buflen) (fun _ _ h => h) ?_)
        rintro ⟨exit, block'⟩ s' past hends
        simp only [Script.wp_bind, wp_reportSize, Script.wp_pure]
        refine (hends.mono (fun n h => ?_) (by simp [hlen])).reported
        exact ⟨c, rfl, h⟩

end Public

open LengthFunction in
/-- The failures that end a run in one of these ways are returned as lengths; in every other run
that returns, the function has failed, or the length it returns has been obtained. -/
theorem lengthFunction_reported {f : LengthFunction} {s s' : Thread f.backend.Connect}
    {tr : List CallEvent} {v : ℤ}
    (hex : Program.Exec playback (f.operation.call (some f.backend.methods) s) tr (.ok (v, s'))
      []) : LengthReported (f.Obtained tr) (f.Mislabels s tr) v := by
  cases f with
  | getFileLength filename =>
    exact Script.wp.of_exec (hiveGetFileLength_reported filename s) hex rfl
  | getFileToBuffer filename dst buflen =>
    have hcall : Script.wp playback (fun _ _ => True)
        (HiveOperation.call (some oneDriveMethods) (.getFileToBuffer filename dst buflen))
        (fun v _ tr' => tr' = [] → LengthReported _ (Mislabels (.getFileToBuffer _ _ _) s tr) v)
        s tr := Script.wp_bind.mpr (hiveGetFileToBuffer_reported filename dst buflen s)
    exact hcall.of_exec hex rfl
  | ipfsGetFileLength cid =>
    have hends := (hiveIpfsGetFileLength_reported cid s).of_playback hex
    rw [List.nil_append] at hends
    exact hends
  | ipfsGetFileToBuffer cid dst buflen =>
    have hcall : Script.wp record (fun _ _ => True)
        (HiveOperation.call (some ipfsMethods) (.ipfsGetFileToBuffer cid dst buflen))
        (fun v _ past => LengthReported (Obtained (.ipfsGetFileToBuffer cid dst buflen) past)
          (Mislabels (.ipfsGetFileToBuffer _ _ _) s past) v) s [] := by
      refine Script.wp_bind.mpr (Script.wp_mono (hiveIpfsGetFileToBuffer_reported cid dst buflen s)
        (fun _ _ h => h) fun r s' past h => h.mono fun n hn => ?_)
      obtain ⟨c, hc, hfetched⟩ := hn
      exact ⟨c, hc, hfetched.fetched⟩
    have hends := hcall.of_playback hex
    rw [List.nil_append] at hends
    exact hends

/-- A file of three bytes does not fit a buffer of two, and the error is a length above `2 ^ 31`. -/
theorem lengthFunction_reported_tooSmall : ∃ tr, LengthReported (OneDrive.Fetched tr)
    (LengthFunction.Mislabels (.getFileToBuffer (some (ascii "a")) (some [0, 0]) 2)
      OneDrive.freshToken tr) 2164260867 := by
  have hrun : (((HiveOperation.getFileToBuffer (some (ascii "a")) (some [0, 0]) 2).call
      (some oneDriveMethods) OneDrive.freshToken).runWith
        (OneDrive.announceThree (ascii "123")) ()).map Prod.fst =
          some (.ok (2164260867, OneDrive.freshToken)) := rfl
  obtain ⟨tr, hex⟩ := Program.exists_exec_of_runWith hrun
  exact ⟨tr, lengthFunction_reported (f := .getFileToBuffer _ _ _) hex⟩

end HiveSDK
