import HiveSDK.Service.Loopback
import HiveSDK.Service.Spec

/-!
# The operations when nothing fails

`Drive.healthy` is the service while nothing that is asked for is refused: memory and HTTP
clients can be had, requests are answered 200, information comes with a document that passes
the tests made on it, and local files can be created and written. The reading functions then
return, and return the file; no run of them ends in a fault.
-/

namespace HiveSDK

open Interaction C OneDrive

/-- The call got what it asked for. -/
def Succeeds : (i : Call) → i.Reply → Prop
  | .malloc _, made => made = true
  | .httpClientNew _, made => made = true
  | .httpClientPerform request, reply => reply.answer = .ok HttpStatus_OK ∧
      ∀ token path query, request = fileInfoRequest token path query →
        reply.received ≠ [] ∧ ∃ json, reply.parsed = some json ∧ fileInfoValid query json = true
  | .openFile _ _, r => r = .ok ()
  | .write _ data, r => r = .ok data.length
  | _, _ => True

/-- The service while every call succeeds. -/
def Drive.healthy (S : Drive) : Handler World Call Call.Reply :=
  fun w i r w' => S.handler w i r w' ∧ Succeeds i r

/-- The same with a callback that always continues. -/
def Drive.willing (S : Drive) : Handler World Call Call.Reply :=
  fun w i r w' => S.healthy w i r w' ∧
    match i, r with
    | .valuesCallback _ _, proceed => proceed = true
    | _, _ => True

section Spec

variable {S : Drive} {s : Thread OneDriveConnect} {w : World} {path content : Bytes}

theorem oauthTokenCheckExpire_healthy (hs : S.TokenValid s) :
    Script.wp S.healthy noFault oauthTokenCheckExpire
      (fun rc s' w' => rc = 0 ∧ s' = s ∧ w' = w) s w := by
  unfold oauthTokenCheckExpire
  simp only [Script.wp_bind, wp_oauthTokenIsExpired, Script.wp_ite, Script.wp_pure]
  rintro now _ ⟨⟨hnow, rfl⟩, -⟩
  simp [hs now hnow]

private theorem getFileInfo_healthy {query : Bytes} (htoken : s.conn.token.accessToken.isSome)
    (hfits : (itemUrl path []).length < MAX_URL_LEN) (hfile : w.files path = some content) :
    Script.wp S.healthy noFault (getFileInfo path query)
      (fun r s' w' => s' = s ∧ w' = w ∧ ∃ json, r = .ok json ∧
        fileInfoValid query json = true ∧ S.Describes path content json) s w := by
  obtain ⟨token, htoken⟩ := Option.isSome_iff_exists.mp htoken
  unfold getFileInfo
  simp only [Script.wp_bind, wp_sprintfUrl, wp_getBearerToken, wp_requestAuthorized, htoken,
    Option.some.injEq, forall_eq', reduceCtorEq, false_imp_iff, and_true]
  refine ⟨fun _ => ?_, fun hlong => absurd hfits hlong.not_gt⟩
  rintro reply _ ⟨⟨-, files, hanswer, rfl⟩, hok, hinfo⟩
  obtain ⟨rfl, hfound, -⟩ := hanswer.of_info
  obtain ⟨hbody, json, hparsed, hvalid⟩ := hinfo token path query rfl
  obtain ⟨content', hcontent', hdescribes⟩ := hfound hok
  cases hfile.symm.trans hcontent'
  refine ⟨fun e he => ?_, fun h => ?_, fun status hstatus _ => ⟨fun hnot => ?_, fun _ => ?_⟩⟩
  · cases hok.symm.trans he
  · cases hok.symm.trans h
  · cases hok.symm.trans hstatus
    exact absurd (List.mem_singleton_self _) hnot
  · simp only [wp_moveAndParse]
    refine ⟨fun h => absurd h hbody, fun _ => ?_⟩
    simp only [hparsed, Script.wp_ite, hvalid, Bool.not_true, Bool.false_eq_true, false_imp_iff,
      true_and, not_false_eq_true, true_imp_iff, Script.wp_pure]
    exact ⟨json, rfl, hvalid, hdescribes json hparsed⟩

/-- The length of a file that is there. -/
theorem getFileLengthAt_healthy (hs : S.TokenValid s) (htoken : s.conn.token.accessToken.isSome)
    (hfits : (itemUrl path []).length < MAX_URL_LEN) (hfile : w.files path = some content) :
    Script.wp S.healthy noFault (getFileLengthAt path)
      (fun exit s' w' => s' = s ∧ w' = w ∧ exit = .ret content.length ∧
        (content.length : ℤ) < 2 ^ 63) s w := by
  unfold getFileLengthAt
  simp only [Script.wp_bind, Script.wp_ite, Script.wp_pure, Script.wp_ask]
  refine Script.wp_mono (oauthTokenCheckExpire_healthy hs) (fun _ _ h => h) ?_
  rintro _ _ _ ⟨rfl, rfl, rfl⟩
  refine ⟨fun h => absurd h (lt_irrefl 0), fun _ => ?_⟩
  rintro created _ ⟨rfl, rfl⟩
  refine ⟨fun h => by simp at h, fun _ => ?_⟩
  refine Script.wp_mono (getFileInfo_healthy htoken hfits hfile) (fun _ _ h => h) ?_
  rintro _ _ _ ⟨rfl, rfl, json, rfl, hvalid, hdescribes⟩
  obtain ⟨n, hn⟩ := announcedSize_of_fileInfoValid strstr_sizeQuery hvalid
  obtain ⟨d, -, hd⟩ := Option.map_eq_some_iff.mp hn
  have hlength := hdescribes.size n hn
  simp only [hn, Script.wp_pure]
  exact ⟨trivial, trivial, by rw [hlength], by rw [← hlength, ← hd]; exact d.toLong_lt⟩

private theorem downloadFile_healthy {block : Bytes} (hroom : content.length ≤ block.length)
    (hfile : w.files path = some content) :
    Script.wp S.healthy noFault (downloadFile (S.downloadUrl path) block)
      (fun r s' w' => s' = s ∧ w' = w ∧ r = (0, content ++ block.drop content.length)) s w := by
  unfold downloadFile
  simp only [Script.wp_bind, Script.wp_ask]
  rintro reply _ ⟨⟨-, files, hanswer, rfl⟩, hok, -⟩
  obtain ⟨rfl, hcontent⟩ := hanswer.of_download
  obtain rfl : content = reply.received := Option.some.inj (hfile.symm.trans (hcontent hok))
  rw [storeChunks_zero, if_pos hroom]
  simp only [hok, Script.wp_ite, Script.wp_pure, ne_eq, not_true_eq_false, false_imp_iff,
    not_false_eq_true, true_imp_iff, true_and]

/-- The content of a file that is there, at the front of a block that has room for it. -/
theorem getFileToBufferAt_healthy (hs : S.TokenValid s)
    (htoken : s.conn.token.accessToken.isSome) (hfits : (itemUrl path []).length < MAX_URL_LEN)
    (hfile : w.files path = some content) {block : Bytes} {buflen : ℕ}
    (hroom : content.length ≤ block.length) (hbuflen : ¬BufferTooSmall buflen content.length) :
    Script.wp S.healthy noFault (getFileToBufferAt path block buflen)
      (fun r s' w' => s' = s ∧ w' = w ∧
        r = (.ret content.length, content ++ block.drop content.length)) s w := by
  unfold getFileToBufferAt
  simp only [Script.wp_bind, Script.wp_ite, Script.wp_pure, Script.wp_ask]
  refine Script.wp_mono (oauthTokenCheckExpire_healthy hs) (fun _ _ h => h) ?_
  rintro _ _ _ ⟨rfl, rfl, rfl⟩
  refine ⟨fun h => absurd h (lt_irrefl 0), fun _ => ?_⟩
  rintro created _ ⟨rfl, rfl⟩
  refine ⟨fun h => by simp at h, fun _ => ?_⟩
  refine Script.wp_mono (getFileInfo_healthy htoken hfits hfile) (fun _ _ h => h) ?_
  rintro _ s w ⟨rfl, rfl, json, rfl, hvalid, hdescribes⟩
  obtain ⟨n, hn⟩ := announcedSize_of_fileInfoValid strstr_sizeAndUrlQuery_size hvalid
  obtain ⟨url, hurl⟩ := downloadUrl_of_fileInfoValid strstr_sizeAndUrlQuery_url hvalid
  have hlen : (n : ℤ) = content.length := hdescribes.size n hn
  obtain rfl := hdescribes.url url hurl
  simp only [hn, hurl, hlen, Script.wp_ite, Script.wp_pure, Script.wp_bind]
  refine ⟨fun hsmall => absurd hsmall hbuflen, fun _ => ⟨fun hzero => ?_, fun _ => ?_⟩⟩
  · obtain rfl : content = [] := List.eq_nil_of_length_eq_zero (by omega)
    exact ⟨trivial, trivial, rfl⟩
  · refine Script.wp_mono (downloadFile_healthy hroom hfile) (fun _ _ h => h) ?_
    rintro _ _ _ ⟨rfl, rfl, rfl⟩
    exact ⟨fun h => absurd h (lt_irrefl 0), fun _ => ⟨rfl, rfl, rfl⟩⟩

end Spec

/-! ### Reading from the local service -/

namespace Drive

private theorem fileInfoValid_describe (query path : Bytes) {content : Bytes}
    (h : content.length < 2 ^ 63) : fileInfoValid query (describe path content) = true := by
  have hsize : Json.number? ((describe path content).getObjectItemCaseSensitive sizeQuery) =
      some (.ofInt content.length) := rfl
  have hurl : (Json.nonemptyString? ((describe path content).getObjectItemCaseSensitive
      downloadUrlKey)).isSome = true := rfl
  unfold fileInfoValid
  rw [hsize, hurl, Bool.or_true, Bool.and_true]
  simp only [Double.toLong_ofInt (n := (content.length : ℤ)) (by omega) (by omega)]
  simp

/-- The local service, as far as it answers 200 to a GET request; everything else that a reading
function asks for succeeds, and the callback continues. -/
def serveReads (w : World) : (i : Call) → Option (i.Reply × World)
  | .gettimeofday => serve w .gettimeofday
  | .malloc size => serve w (.malloc size)
  | .httpClientNew user => serve w (.httpClientNew user)
  | .valuesCallback key value => serve w (.valuesCallback key value)
  | .httpClientPerform request =>
    if request.method = .get then
      (serve w (.httpClientPerform request)).filter fun r => r.1.status = 200
    else none
  | _ => none

/-- The information the local service gives passes the tests made on it. -/
private theorem respond_valid {files files' : Files} {request : HttpRequest} {reply : HttpReply}
    (h : respond files request = some (reply, files')) (hmethod : request.method = .get)
    (hstatus : reply.status = 200) : Succeeds (.httpClientPerform request) reply := by
  unfold respond at h
  simp only at h
  split at h
  · rename_i hrequest
    rw [hrequest] at hmethod
    cases hmethod
  split at h
  · split at h
    · cases h
      cases hstatus
    · split at h
      · rename_i hlen
        cases h
        refine ⟨rfl, fun token path query _ => ⟨by rw [received_answered]; decide, _, rfl, ?_⟩⟩
        exact fileInfoValid_describe query _ hlen
      · cases h
  split at h
  · rename_i hrequest
    obtain ⟨content, -, hpair⟩ := Option.map_eq_some_iff.mp h
    cases hpair
    refine ⟨rfl, fun token path query hinfo => ?_⟩
    rw [hrequest] at hinfo
    cases congrArg HttpRequest.query hinfo
  split at h
  · rename_i hrequest
    rw [hrequest] at hmethod
    cases hmethod
  · cases h

theorem serveReads_sound (w : World) (i : Call) (r : i.Reply) (w' : World)
    (h : serveReads w i = some (r, w')) : loopback.willing w i r w' := by
  match i, r, h with
  | .gettimeofday, _, h => exact ⟨⟨serve_sound w _ _ w' h, trivial⟩, trivial⟩
  | .malloc _, _, h => cases h; exact ⟨⟨rfl, rfl⟩, trivial⟩
  | .httpClientNew _, _, h => cases h; exact ⟨⟨rfl, rfl⟩, trivial⟩
  | .valuesCallback _ _, _, h => cases h; exact ⟨⟨rfl, trivial⟩, rfl⟩
  | .httpClientPerform request, reply, h =>
    have hserve : serveReads w (.httpClientPerform request) = if request.method = .get then
      (serve w (.httpClientPerform request)).filter fun r => r.1.status = 200 else none := rfl
    rw [hserve] at h
    split at h
    · rename_i hmethod
      obtain ⟨hreply, hstatus⟩ := Option.filter_eq_some_iff.mp h
      obtain ⟨⟨reply', files⟩, hrespond, hpair⟩ := Option.map_eq_some_iff.mp hreply
      have hsound := serve_sound w (.httpClientPerform request) reply w' hreply
      cases hpair
      exact ⟨⟨hsound, respond_valid hrespond hmethod (of_decide_eq_true hstatus)⟩, trivial⟩
    · cases h

end Drive

end HiveSDK
