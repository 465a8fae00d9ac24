import HiveSDK.Service.Drive
import HiveSDK.Token.Spec
import HiveSDK.OneDrive.Download

/-!
# The operations against the service

One specification for each function of the OneDrive backend that reads or writes a file,
with the service as its environment. The token is valid throughout, so no function changes
the thread; a function that fails changes nothing at all.

An `int` function reports an absent file by the code of a 404, and only then
(`Absent`); this is what `put_value`, `get_values` and `delete_key` go by.
-/

namespace HiveSDK

open Interaction C OneDrive

/-! ### The code of an absent file -/

/-- The comparison by which a failure is taken for an absent file. -/
abbrev Absent (rc : ℤ) : Prop := toUInt rc = hiveHttpStatusError HttpStatus_NotFound

theorem toUInt_toInt_hiveMkError {facility : ℕ} (hf : facility < 128) (code : ℤ) :
    toUInt (toInt (hiveMkError facility code)) = hiveMkError facility code := by
  have hle := le_hiveMkError facility code
  rw [toUInt_toInt, toUInt_eq_self (by omega) (hiveMkError_lt hf code)]

theorem hiveHttpStatusError_notFound :
    hiveHttpStatusError HttpStatus_NotFound = (2 ^ 31 + 7 * 2 ^ 24 + 404 : ℕ) :=
  hiveMkError_eq (by decide) (by decide)

theorem not_absent_hiveGeneralError {code : ℕ} (hc : code < 2 ^ 24) :
    ¬Absent (toInt (hiveGeneralError code)) := by
  unfold Absent hiveGeneralError
  rw [toUInt_toInt_hiveMkError (by decide), hiveMkError_eq (by decide) hc,
    hiveHttpStatusError_notFound]
  simp only [HIVEF_GENERAL]
  omega

/-- A reply without a status is not a 404. -/
theorem HttpReply.not_absent_of_error {reply : HttpReply} {e : ℤ} (h : reply.answer = .error e) :
    ¬Absent (toInt e) := by
  have hcurl (c : CurlCode) : ¬Absent (toInt (hiveCurlError c)) := by
    have hc : (c : ℕ) < 2 ^ 24 := c.isLt.trans (by norm_num)
    unfold Absent hiveCurlError
    rw [toUInt_toInt_hiveMkError (by decide), hiveMkError_eq (by decide) hc,
      hiveHttpStatusError_notFound]
    simp only [HIVEF_CURL]
    omega
  unfold answer at h
  split at h
  · cases h; exact hcurl _
  split at h
  · cases h; exact hcurl _
  · cases h

theorem HttpReply.absent_iff {reply : HttpReply} {status : ℕ} (h : reply.answer = .ok status) :
    Absent (toInt (hiveHttpStatusError status)) ↔ status = HttpStatus_NotFound := by
  obtain ⟨-, -, hstatus⟩ := HttpReply.answer_eq_ok.mp h
  have hlt : status < 2 ^ 24 := by omega
  unfold Absent
  rw [hiveHttpStatusError_notFound, hiveHttpStatusError, toUInt_toInt_hiveMkError (by decide),
    hiveMkError_eq (by decide) hlt]
  simp only [HIVEF_HTTP_STATUS, HttpStatus_NotFound]
  omega

/-- A negative `int`. -/
structure Failed (rc : ℤ) : Prop where
  neg : rc < 0
  int : toInt rc = rc

theorem failed_toInt {e : ℤ} (h : toInt e < 0) : Failed (toInt e) := ⟨h, toInt_toInt e⟩

section Spec

variable {S : Drive} {s : Thread OneDriveConnect} {w : World}

/-- A token that is valid at the time the clock shows is not refreshed. -/
private theorem oauthTokenCheckExpire_unexpired {σ : Type} {h : Handler σ Call Call.Reply}
    {F : Fault → σ → Prop} {v : σ} (hclock : ∀ now v', h v .gettimeofday now v' →
      now.after s.conn.token.expiresAt = false ∧ v' = v) :
    Script.wp h F oauthTokenCheckExpire (fun rc s' v' => rc = 0 ∧ s' = s ∧ v' = v) s v := by
  unfold oauthTokenCheckExpire
  simp only [Script.wp_bind, wp_oauthTokenIsExpired, Script.wp_ite, Script.wp_pure]
  intro now v' hv
  obtain ⟨hnow, rfl⟩ := hclock now v' hv
  simp [hnow]

private theorem oauthTokenCheckExpire_valid (hs : S.TokenValid s) :
    Script.wp S.handler anyFault oauthTokenCheckExpire
      (fun rc s' w' => rc = 0 ∧ s' = s ∧ w' = w) s w :=
  oauthTokenCheckExpire_unexpired fun now _ hnow => ⟨hs now hnow.1, hnow.2⟩

/-- The same of the environment that notes the clients it refuses. -/
private theorem oauthTokenCheckExpire_refusing (hs : S.TokenValid s)
    {v : World × List HttpClientUser} :
    Script.wp S.refusing anyFault oauthTokenCheckExpire
      (fun rc s' v' => rc = 0 ∧ s' = s ∧ v' = v) s v := by
  refine oauthTokenCheckExpire_unexpired ?_
  rintro now ⟨w', refused'⟩ ⟨⟨hnow, hw⟩, hrefused⟩
  exact ⟨hs now hnow, Prod.ext hw (hrefused.trans (List.append_nil _))⟩

/-- How a request that carries the token ends: accepted, or refused with an error that is a
404 only if the answer is. -/
theorem requestAuthorized_spec {request : HttpRequest} {accepted : List ℕ}
    (hrequest : request.Authorized) {Q : Except ℤ HttpReply → Thread OneDriveConnect → World → Prop}
    (haccepted : ∀ reply files, S.Answers w.files request reply files →
      ∀ status ∈ accepted, reply.answer = .ok status → Q (.ok reply) s { w with files := files })
    (hrefused : ∀ reply files, S.Answers w.files request reply files →
      (∀ status ∈ accepted, reply.answer ≠ .ok status) → ∀ e, toInt e < 0 →
        (Absent (toInt e) → reply.answer = .ok HttpStatus_NotFound) →
          Q (.error e) s { w with files := files }) :
    Script.wp S.handler anyFault (requestAuthorized request accepted) Q s w := by
  rw [wp_requestAuthorized]
  rintro reply _ ⟨hvalid, files, hanswer, rfl⟩
  refine ⟨fun e he => ?_, fun h => absurd h (hvalid hrequest), fun status hstatus _ => ⟨?_, ?_⟩⟩
  · refine hrefused reply files hanswer (by simp [he]) e (reply.toInt_answer_neg he) fun habs => ?_
    exact absurd habs (HttpReply.not_absent_of_error he)
  · intro hnot
    refine hrefused reply files hanswer ?_ _ (toInt_hiveHttpStatusError_neg _) fun habs => ?_
    · rintro status' hmem hok
      cases hstatus.symm.trans hok
      exact hnot hmem
    · rw [hstatus, (HttpReply.absent_iff hstatus).mp habs]
  · exact fun hmem => haccepted reply files hanswer status hmem hstatus

/-! ### Reading -/

/-- The document of a file that is there, or an error. -/
theorem getFileInfo_spec (path query : Bytes) :
    Script.wp S.handler anyFault (getFileInfo path query)
      (fun r s' w' => s' = s ∧ w' = w ∧ match r with
        | .error rc => Failed rc ∧ (Absent rc → w.files path = none)
        | .ok json => fileInfoValid query json = true ∧
          ∃ content, w.files path = some content ∧ S.Describes path content json) s w := by
  unfold getFileInfo
  simp only [Script.wp_bind, wp_sprintfUrl, wp_getBearerToken]
  refine ⟨fun _ => ⟨fun token _ => ?_, fun _ => trivial⟩, fun _ => trivial⟩
  refine requestAuthorized_spec ⟨token, by simp [fileInfoRequest]⟩ ?_ ?_
  · intro reply files hanswer status hmem hstatus
    obtain ⟨rfl, hfound, -⟩ := hanswer.of_info
    rw [List.mem_singleton] at hmem
    subst hmem
    obtain ⟨content, hcontent, hdescribes⟩ := hfound hstatus
    simp only [Script.wp_bind, wp_moveAndParse]
    refine ⟨fun _ => trivial, fun _ => ?_⟩
    cases hparsed : reply.parsed with
    | none =>
      refine ⟨rfl, rfl, failed_toInt (by simp), fun h => ?_⟩
      exact absurd h (not_absent_hiveGeneralError (by decide))
    | some json =>
      simp only [Script.wp_ite, Script.wp_pure, Bool.not_eq_true', Bool.not_eq_false]
      refine ⟨fun _ => ⟨trivial, trivial, failed_toInt (by simp), fun h => ?_⟩,
        fun hvalid => ⟨trivial, trivial, hvalid, content, hcontent, hdescribes json hparsed⟩⟩
      exact absurd h (not_absent_hiveGeneralError (by decide))
  · intro reply files hanswer _ e he habs
    obtain ⟨rfl, -, habsent⟩ := hanswer.of_info
    exact ⟨rfl, rfl, failed_toInt he, fun h => habsent (habs h)⟩

/-- The functions that ask for no HTTP client of their own. -/
private theorem getFileInfo_clientless {path query : Bytes} :
    (getFileInfo path query).Within Call.Clientless fun _ => True :=
  getFileInfo_within (fun _ => trivial) trivial trivial

private theorem downloadFile_clientless {url block : Bytes} :
    (downloadFile url block).Within Call.Clientless fun _ => True :=
  downloadFile_within trivial trivial block

/-- How `__get_file_length` ends once it has an HTTP client: with an error, which is a 404 only
when there is no file, or with the length of the file. -/
def Sizes (files : Files) (path : Bytes) (exit : Exit) : Prop :=
  (∃ rc, exit = .ret rc ∧ Failed rc ∧ (Absent rc → files path = none)) ∨
    ∃ content, files path = some content ∧ exit = .ret content.length

/-- Without an HTTP client `__get_file_length` returns the code of an error, unsigned. -/
theorem getFileLengthAt_refusing (hs : S.TokenValid s) (path : Bytes)
    {v : World × List HttpClientUser} :
    Script.wp S.refusing anyFault (getFileLengthAt path)
      (fun exit s' v' => s' = s ∧ v'.1 = v.1 ∧
        (exit = .err (hiveGeneralError HIVEERR_OUT_OF_MEMORY) ∧ v'.2 = v.2 ++ [.getFileLength] ∨
          v'.2 = v.2 ∧ Sizes v.1.files path exit)) s v := by
  unfold getFileLengthAt
  simp only [Script.wp_bind, Script.wp_ite, Script.wp_pure, Script.wp_ask]
  refine Script.wp_mono (oauthTokenCheckExpire_refusing hs) (fun _ _ h => h) ?_
  rintro _ _ _ ⟨rfl, rfl, rfl⟩
  refine ⟨fun h => absurd h (lt_irrefl 0), fun _ => ?_⟩
  rintro created ⟨w, refused⟩ ⟨rfl, rfl⟩
  cases created with
  | false => exact ⟨fun _ => ⟨rfl, rfl, .inl ⟨trivial, rfl⟩⟩, fun h => absurd rfl h⟩
  | true =>
    refine ⟨fun h => by simp at h, fun _ => ?_⟩
    refine Script.wp_mono (getFileInfo_clientless.wp_noted CallEvent.refused_of_clientless
      (getFileInfo_spec path sizeQuery)) (fun _ _ h => h) ?_
    rintro (rc | json) s₁ ⟨w₁, refused₁⟩ ⟨⟨rfl, rfl, hinfo⟩, rfl⟩
    · exact ⟨rfl, rfl, .inr ⟨List.append_nil _, .inl ⟨rc, rfl, hinfo⟩⟩⟩
    obtain ⟨hvalid, content, hcontent, hdescribes⟩ := hinfo
    cases hsize : announcedSize json with
    | none => simp only [hsize, Script.wp_fault, anyFault]
    | some n =>
      simp only [hsize, Script.wp_pure]
      exact ⟨trivial, trivial, .inr ⟨List.append_nil _, .inr ⟨content, hcontent, by
        rw [hdescribes.size n hsize]⟩⟩⟩

/-- The length of a file that is there, or an error. -/
theorem getFileLengthAt_spec (hs : S.TokenValid s) (path : Bytes) :
    Script.wp S.handler anyFault (getFileLengthAt path)
      (fun exit s' w' => s' = s ∧ w' = w ∧
        (exit = .err (hiveGeneralError HIVEERR_OUT_OF_MEMORY) ∨ Sizes w.files path exit)) s w := by
  refine Script.wp_noted_iff.mp (Script.wp_mono (getFileLengthAt_refusing hs path (v := (w, [])))
    (fun _ _ h => h) ?_)
  rintro exit s' v' ⟨hs', hw', hends⟩
  exact ⟨hs', hw', hends.imp And.left And.right⟩

/-- A download that reports success has put the content at the front of the block. -/
theorem downloadFile_spec (path block : Bytes) :
    Script.wp S.handler anyFault (downloadFile (S.downloadUrl path) block)
      (fun r s' w' => s' = s ∧ w' = w ∧ (Failed r.1 ∨ r.1 = 0 ∧ ∃ content,
        w.files path = some content ∧ content.length ≤ block.length ∧
          r.2 = content ++ block.drop content.length)) s w := by
  unfold downloadFile
  simp only [Script.wp_bind, Script.wp_ask]
  rintro reply _ ⟨-, files, hanswer, rfl⟩
  obtain ⟨rfl, hcontent⟩ := hanswer.of_download
  rw [storeChunks_zero]
  by_cases hroom : reply.received.length ≤ block.length
  · simp only [hroom, if_true]
    cases hstatus : reply.answer with
    | error e => exact ⟨rfl, rfl, .inl (failed_toInt (reply.toInt_answer_neg hstatus))⟩
    | ok status =>
      simp only [Script.wp_ite, Script.wp_pure, ne_eq, not_not]
      refine ⟨fun _ => ⟨trivial, trivial, .inl (failed_toInt (by simp))⟩, fun hok =>
        ⟨trivial, trivial, .inr ?_⟩⟩
      exact ⟨trivial, reply.received, hcontent (by rw [hstatus, hok]), hroom, rfl⟩
  · simp only [hroom, if_false, Script.wp_fault, anyFault]

/-- How `__get_file_to_buffer` ends once it has an HTTP client: with an error, or with the file at
the front of the block; a buffer is too small only for a file that is longer. -/
def Loads (files : Files) (path block : Bytes) (buflen : ℕ) (r : Exit × Bytes) : Prop :=
  (∃ rc, r.1 = .ret rc ∧ Failed rc) ∨
    ∃ content, files path = some content ∧
      ((r.1 = .ret content.length ∧ content.length ≤ block.length ∧
          r.2 = content ++ block.drop content.length) ∨
        (∃ e, r.1 = .err e ∧ 0 < toLong buflen ∧ toLong buflen < content.length))

/-- A buffer that no content of the file exceeds is not too small. -/
theorem Loads.whole {files : Files} {path block : Bytes} {buflen : ℕ} {r : Exit × Bytes}
    (h : Loads files path block buflen r) (hlt : buflen < 2 ^ 63)
    (hfits : ∀ content, files path = some content → content.length ≤ buflen) :
    (∃ rc, r.1 = .ret rc ∧ Failed rc) ∨ ∃ content, files path = some content ∧
      r.1 = .ret content.length ∧ r.2 = content ++ block.drop content.length := by
  refine h.imp_right ?_
  rintro ⟨content, hcontent, ⟨hexit, -, hblock⟩ | ⟨e, -, -, hshort⟩⟩
  · exact ⟨content, hcontent, hexit, hblock⟩
  · have hle := hfits content hcontent
    rw [toLong_eq_self (by omega) (by omega)] at hshort
    omega

/-- Without an HTTP client `__get_file_to_buffer` returns the code of an error, unsigned, and
leaves the block as it is. -/
theorem getFileToBufferAt_refusing (hs : S.TokenValid s) (path block : Bytes) (buflen : ℕ)
    {v : World × List HttpClientUser} :
    Script.wp S.refusing anyFault (getFileToBufferAt path block buflen)
      (fun r s' v' => s' = s ∧ v'.1 = v.1 ∧
        (r = (.err (hiveGeneralError HIVEERR_OUT_OF_MEMORY), block) ∧
            v'.2 = v.2 ++ [.getFileToBuffer] ∨
          v'.2 = v.2 ∧ Loads v.1.files path block buflen r)) s v := by
  unfold getFileToBufferAt
  simp only [Script.wp_bind, Script.wp_ite, Script.wp_pure, Script.wp_ask]
  refine Script.wp_mono (oauthTokenCheckExpire_refusing hs) (fun _ _ h => h) ?_
  rintro _ _ _ ⟨rfl, rfl, rfl⟩
  refine ⟨fun h => absurd h (lt_irrefl 0), fun _ => ?_⟩
  rintro created ⟨w, refused⟩ ⟨rfl, rfl⟩
  -- the one client that is noted when it is refused
  cases created with
  | false => exact ⟨fun _ => ⟨rfl, rfl, .inl ⟨trivial, rfl⟩⟩, fun h => absurd rfl h⟩
  | true =>
    refine ⟨fun h => by simp at h, fun _ => ?_⟩
    refine Script.wp_mono (getFileInfo_clientless.wp_noted CallEvent.refused_of_clientless
      (getFileInfo_spec path sizeAndUrlQuery)) (fun _ _ h => h) ?_
    rintro (rc | json) s₁ ⟨w₁, refused₁⟩ ⟨⟨rfl, rfl, hinfo⟩, rfl⟩
    · exact ⟨rfl, rfl, .inr ⟨List.append_nil _, .inl ⟨rc, rfl, hinfo.1⟩⟩⟩
    obtain ⟨hvalid, content, hcontent, hdescribes⟩ := hinfo
    obtain ⟨n, hn⟩ := announcedSize_of_fileInfoValid strstr_sizeAndUrlQuery_size hvalid
    obtain ⟨url, hurl⟩ := downloadUrl_of_fileInfoValid strstr_sizeAndUrlQuery_url hvalid
    have hlen : (n : ℤ) = content.length := hdescribes.size n hn
    obtain rfl := hdescribes.url url hurl
    simp only [hn, hurl, Script.wp_ite, Script.wp_pure, Script.wp_bind]
    refine ⟨fun hsmall => ⟨trivial, trivial, .inr ⟨List.append_nil _, .inr ⟨content, hcontent,
      .inr ⟨_, rfl, ?_⟩⟩⟩⟩, fun _ => ⟨fun hzero => ?_, fun _ => ?_⟩⟩
    · rwa [hlen] at hsmall
    · obtain rfl : content = [] := List.eq_nil_of_length_eq_zero (by omega)
      exact ⟨trivial, trivial, .inr ⟨List.append_nil _, .inr ⟨[], hcontent,
        .inl ⟨rfl, Nat.zero_le _, rfl⟩⟩⟩⟩
    · refine Script.wp_mono (downloadFile_clientless.wp_noted CallEvent.refused_of_clientless
        (downloadFile_spec path block)) (fun _ _ h => h) ?_
      rintro ⟨rc, block'⟩ _ ⟨w₂, refused₂⟩ ⟨⟨rfl, rfl, hends⟩, rfl⟩
      rcases hends with hfailed | ⟨hzero, content', hcontent', hroom, hblock⟩
      · exact ⟨fun _ => ⟨rfl, rfl, .inr ⟨List.append_nil _, .inl ⟨rc, rfl, hfailed⟩⟩⟩,
          fun h => absurd hfailed.neg h⟩
      refine ⟨fun h => absurd h hzero.not_lt, fun _ => ⟨rfl, rfl, .inr ⟨List.append_nil _, ?_⟩⟩⟩
      cases hcontent.symm.trans hcontent'
      exact .inr ⟨content, hcontent, .inl ⟨by rw [hlen], hroom, hblock⟩⟩

/-- The content of a file that is there, or an error. -/
theorem getFileToBufferAt_spec (hs : S.TokenValid s) (path block : Bytes) (buflen : ℕ) :
    Script.wp S.handler anyFault (getFileToBufferAt path block buflen)
      (fun r s' w' => s' = s ∧ w' = w ∧
        (r.1 = .err (hiveGeneralError HIVEERR_OUT_OF_MEMORY) ∨
          Loads w.files path block buflen r)) s w := by
  refine Script.wp_noted_iff.mp (Script.wp_mono
    (getFileToBufferAt_refusing hs path block buflen (v := (w, []))) (fun _ _ h => h) ?_)
  rintro r s' v' ⟨hs', hw', hends⟩
  exact ⟨hs', hw', hends.imp (fun h => congrArg Prod.fst h.1) And.right⟩

/-! ### Writing -/

/-- How a write of one file ends: with the file replaced, or with an error and nothing
changed. -/
def Writes (path : Bytes) (content : Option Bytes) (s : Thread OneDriveConnect) (w : World)
    (rc : ℤ) (s' : Thread OneDriveConnect) (w' : World) : Prop :=
  s' = s ∧ (rc = 0 ∧ w' = w.setFile path content ∨ rc < 0 ∧ w' = w)

theorem uploadFile_spec (path body : Bytes) :
    Script.wp S.handler anyFault (uploadFile path body) (Writes path (some body) s w) s w := by
  unfold uploadFile
  simp only [Script.wp_bind, wp_sprintfUrl, wp_getBearerToken]
  refine ⟨fun _ => ⟨fun token _ => ?_, fun _ => trivial⟩, fun _ => trivial⟩
  refine requestAuthorized_spec ⟨token, by simp [uploadRequest]⟩ ?_ ?_
  · intro reply files hanswer status hmem hstatus
    have hstored : reply.Stored := by
      rcases List.mem_pair.mp hmem with rfl | rfl
      · exact .inr hstatus
      · exact .inl hstatus
    rcases hanswer.of_upload with ⟨-, rfl⟩ | ⟨hnot, -⟩
    · exact ⟨rfl, .inl ⟨rfl, rfl⟩⟩
    · exact absurd hstored hnot
  · intro reply files hanswer hnot e he _
    rcases hanswer.of_upload with ⟨hok | hcreated, -⟩ | ⟨-, rfl⟩
    · exact absurd hok (hnot _ (by simp))
    · exact absurd hcreated (hnot _ (by simp))
    · exact ⟨rfl, .inr ⟨he, rfl⟩⟩

theorem createFolder_spec (path : Bytes) :
    Script.wp S.handler anyFault (createFolder path) (fun _ s' w' => s' = s ∧ w' = w) s w := by
  unfold createFolder buildCreateFolderRequestBody
  simp only [Script.wp_bind, wp_sprintfUrl, Script.wp_ask, Script.wp_ite, Script.wp_pure]
  refine ⟨fun _ => ?_, fun _ => trivial⟩
  rintro made _ rfl
  refine ⟨fun _ => ⟨trivial, rfl⟩, fun _ => ?_⟩
  rintro (_ | body) _ rfl
  · exact ⟨rfl, rfl⟩
  simp only [Script.wp_bind, wp_getBearerToken]
  refine ⟨fun token _ => ?_, fun _ => trivial⟩
  refine requestAuthorized_spec ⟨token, by simp [createFolderRequest]⟩ ?_ ?_
  · intro reply files hanswer _ _ _
    obtain rfl := hanswer.of_createFolder
    exact ⟨rfl, rfl⟩
  · intro reply files hanswer _ e _ _
    obtain rfl := hanswer.of_createFolder
    exact ⟨rfl, rfl⟩

theorem createUploadSession_spec (path : Bytes) :
    Script.wp S.handler anyFault (createUploadSession path)
      (fun r s' w' => s' = s ∧ w' = w ∧ match r with
        | .error rc => rc < 0
        | .ok url => url = S.uploadUrl path) s w := by
  unfold createUploadSession
  simp only [Script.wp_bind, wp_sprintfUrl, wp_getBearerToken]
  refine ⟨fun _ => ⟨fun token _ => ?_, fun _ => trivial⟩, fun _ => trivial⟩
  refine requestAuthorized_spec ⟨token, by simp [createUploadSessionRequest]⟩ ?_ ?_
  · intro reply files hanswer _ _ _
    obtain ⟨rfl, hurl⟩ := hanswer.of_createSession
    simp only [Script.wp_bind, wp_moveAndParse]
    refine ⟨fun _ => trivial, fun _ => ?_⟩
    cases hparsed : reply.parsed with
    | none => exact ⟨rfl, rfl, by simp⟩
    | some json =>
      cases hjson : Json.nonemptyString? (json.getObjectItemCaseSensitive (ascii "uploadUrl")) with
      | none =>
        simp only [hjson, Script.wp_pure]
        exact ⟨trivial, trivial, by simp⟩
      | some url =>
        simp only [hjson, Script.wp_ite, Script.wp_pure]
        exact ⟨fun _ => ⟨trivial, trivial, by simp⟩,
          fun _ => ⟨trivial, trivial, hurl json hparsed url hjson⟩⟩
  · intro reply files hanswer _ e he _
    obtain ⟨rfl, -⟩ := hanswer.of_createSession
    exact ⟨rfl, rfl, he⟩

theorem uploadToSession_spec (path : Bytes) {body : Bytes} (hbody : body ≠ []) :
    Script.wp S.handler anyFault (uploadToSession (S.uploadUrl path) body)
      (Writes path (some body) s w) s w := by
  unfold uploadToSession
  simp only [Script.wp_bind, Script.wp_ask]
  rintro reply _ ⟨-, files, hanswer, rfl⟩
  have hwrites := hanswer.of_session hbody
  cases hstatus : reply.answer with
  | error e =>
    rcases hwrites with ⟨hok | hcreated, -⟩ | ⟨-, rfl⟩
    · cases hstatus.symm.trans hok
    · cases hstatus.symm.trans hcreated
    · exact ⟨rfl, .inr ⟨reply.toInt_answer_neg hstatus, rfl⟩⟩
  | ok status =>
    simp only [Script.wp_ite, Script.wp_pure]
    refine ⟨fun hnot => ?_, fun hok => ?_⟩
    · rcases hwrites with ⟨hok | hcreated, -⟩ | ⟨-, rfl⟩
      · cases hstatus.symm.trans hok
        exact absurd rfl hnot.2
      · cases hstatus.symm.trans hcreated
        exact absurd rfl hnot.1
      · exact ⟨rfl, .inr ⟨by simp, rfl⟩⟩
    · have hstored : reply.Stored := by
        unfold HttpReply.Stored
        rw [hstatus]
        by_cases hcreated : status = HttpStatus_Created
        · exact .inr (by rw [hcreated])
        · exact .inl (by rw [not_not.mp fun h => hok ⟨hcreated, h⟩])
      rcases hwrites with ⟨-, rfl⟩ | ⟨hnot, -⟩
      · exact ⟨rfl, .inl ⟨rfl, rfl⟩⟩
      · exact absurd hstored hnot

/-- A file is replaced by the content uploaded, through either protocol. -/
theorem putFileFromBufferAt_spec (hs : S.TokenValid s) (path body : Bytes) :
    Script.wp S.handler anyFault (putFileFromBufferAt path body)
      (Writes path (some body) s w) s w := by
  unfold putFileFromBufferAt
  simp only [Script.wp_bind, Script.wp_ite, Script.wp_pure, Script.wp_ask]
  refine Script.wp_mono (oauthTokenCheckExpire_valid hs) (fun _ _ h => h) ?_
  rintro _ _ _ ⟨rfl, rfl, rfl⟩
  refine ⟨fun h => absurd h (lt_irrefl 0), fun _ => ?_⟩
  rintro created _ rfl
  refine ⟨fun _ => ⟨rfl, .inr ⟨by simp, rfl⟩⟩, fun _ => ⟨fun _ => uploadFile_spec path body,
    fun hlong => ?_⟩⟩
  refine Script.wp_mono (createFolder_spec _) (fun _ _ h => h) ?_
  rintro rc _ _ ⟨rfl, rfl⟩
  refine ⟨fun hneg => ⟨rfl, .inr ⟨hneg, rfl⟩⟩, fun _ => ?_⟩
  refine Script.wp_mono (createUploadSession_spec path) (fun _ _ h => h) ?_
  rintro (rc | url) _ _ ⟨rfl, rfl, hurl⟩
  · exact ⟨rfl, .inr ⟨hurl, rfl⟩⟩
  subst hurl
  have hbody : body ≠ [] := by
    rintro rfl
    exact hlong (Nat.zero_le _)
  simp only [Script.wp_bind, Script.wp_ite, Script.wp_pure]
  refine Script.wp_mono (uploadToSession_spec path hbody) (fun _ _ h => h) ?_
  rintro rc _ w₁ ⟨rfl, ⟨rfl, rfl⟩ | ⟨hneg, rfl⟩⟩
  · exact ⟨fun h => absurd h (lt_irrefl 0), fun _ => ⟨rfl, .inl ⟨rfl, rfl⟩⟩⟩
  · exact ⟨fun _ => ⟨rfl, .inr ⟨hneg, rfl⟩⟩, fun h => absurd hneg h⟩

/-- A file is removed, or it was absent, or nothing changes. -/
theorem deleteFileAt_spec (hs : S.TokenValid s) (path : Bytes) :
    Script.wp S.handler anyFault (deleteFileAt path)
      (fun rc s' w' => Writes path none s w rc s' w' ∧ (Absent rc → w.files path = none)) s w := by
  have hzero : ¬Absent 0 := by decide
  have hmemory : ¬Absent (toInt (hiveGeneralError HIVEERR_OUT_OF_MEMORY)) :=
    not_absent_hiveGeneralError (by decide)
  unfold deleteFileAt
  simp only [Script.wp_bind, Script.wp_ite, Script.wp_pure, Script.wp_ask, wp_sprintfUrl,
    wp_getBearerToken]
  refine Script.wp_mono (oauthTokenCheckExpire_valid hs) (fun _ _ h => h) ?_
  rintro _ _ _ ⟨rfl, rfl, rfl⟩
  refine ⟨fun h => absurd h (lt_irrefl 0), fun _ => ?_⟩
  rintro created _ rfl
  refine ⟨fun _ => ⟨⟨rfl, .inr ⟨by simp, rfl⟩⟩, fun h => absurd h hmemory⟩, fun _ => ?_⟩
  refine ⟨fun _ => ⟨fun token _ => ?_, fun _ => trivial⟩, fun _ => trivial⟩
  refine requestAuthorized_spec ⟨token, by simp [deleteRequest]⟩ ?_ ?_
  · intro reply files hanswer status hmem hstatus
    rw [List.mem_singleton] at hmem
    subst hmem
    rcases hanswer.of_delete with ⟨-, rfl⟩ | ⟨hnot, -⟩
    · exact ⟨⟨rfl, .inl ⟨rfl, rfl⟩⟩, fun h => absurd h hzero⟩
    · exact absurd hstatus hnot
  · intro reply files hanswer hnot e he habs
    rcases hanswer.of_delete with ⟨hok, -⟩ | ⟨-, rfl, habsent⟩
    · exact absurd hok (hnot _ (by simp))
    · exact ⟨⟨rfl, .inr ⟨he, rfl⟩⟩, fun h => habsent (habs h)⟩

end Spec

end HiveSDK
