import HiveSDK.Interaction.Confined
import HiveSDK.Interaction.Total
import HiveSDK.Model.Hive

/-!
# Requests and replies of the OneDrive backend

Every operation of the OneDrive backend begins with `oauth_token_check_expire`. Its part of
a trace is recognisable: it consists of calls no operation makes for a file
(`Call.ForToken`), above all of requests without an Authorization header.

The two kinds of GET request are recognisable too. An information request has a query, a
download has none, so `infos` and `downloads` pick their replies out of a trace.
-/

namespace HiveSDK

open Interaction C

/-- The calls made to keep the access token fresh. -/
def Call.ForToken : Call → Prop
  | .gettimeofday | .errno | .malloc _ | .httpClientNew .refreshAccessToken
  | .httpClientEscape _ | .cJSON_CreateObject | .cJSON_Print _ | .openFile _ _
  | .write _ _ => True
  | .httpClientPerform request => request.method = .post ∧ request.headers = []
  | _ => False

/-- The faults of a token refresh: none of them is a write outside a buffer. -/
def Fault.OfToken : Fault → Prop
  | .nullDereference | .assertion => True
  | _ => False

section Bounds

variable {P : Call → Prop} {E : Fault → Prop} {C : Type}

/-- Taking and parsing a body, where an absent one may be dereferenced. -/
theorem moveAndParse_confined {I : Thread C → Prop} (hE : E .nullDereference) (reply : HttpReply) :
    (moveAndParse reply : M C _).Confined I P E :=
  .ite (.fault hE) (.pure _)

/-- Printing a URL, where the buffer may be overrun. -/
theorem sprintfUrl_confined {I : Thread C → Prop} (hE : E .urlOverrun) (url : Bytes) :
    (sprintfUrl url : M C _).Confined I P E :=
  .ite (.pure _) (.fault hE)

variable {I : Thread OneDriveConnect → Prop}

/-- The bearer token, where there may be none. -/
theorem getBearerToken_confined (hE : E .nullDereference) : getBearerToken.Confined I P E := by
  unfold getBearerToken
  refine .bind (.bind .get fun _ => .pure _) fun token => ?_
  split
  · exact .fault hE
  · exact .pure _

/-- A request with its answer, under an invariant that an expired token keeps. -/
theorem requestAuthorized_confined {request : HttpRequest} (hP : P (.httpClientPerform request))
    (hI : ∀ s, I s → I s.expired) (accepted : List ℕ) :
    (OneDrive.requestAuthorized request accepted).Confined I P E := by
  unfold OneDrive.requestAuthorized
  refine .bind (.ask hP) fun reply => ?_
  split
  · exact .pure _
  · exact .ite (.bind (.modify hI) fun _ => .pure _) (.ite (.pure _) (.pure _))

/-- `__get_file_info` makes one request. -/
theorem getFileInfo_confined {path query : Bytes}
    (hP : ∀ token, P (.httpClientPerform (OneDrive.fileInfoRequest token path query)))
    (hI : ∀ s, I s → I s.expired) (hnull : E .nullDereference) (hurl : E .urlOverrun) :
    (OneDrive.getFileInfo path query).Confined I P E := by
  refine .bind (sprintfUrl_confined hurl _) fun _ => .bind (getBearerToken_confined hnull)
    fun token => .bind (requestAuthorized_confined (hP token) hI _) fun answer => ?_
  match answer with
  | .error _ => exact .pure _
  | .ok reply =>
    refine .bind (moveAndParse_confined hnull reply) fun json => ?_
    match json with
    | none => exact .pure _
    | some _ => exact .ite (.pure _) (.pure _)

/-- `__download_file` makes one request. -/
theorem downloadFile_confined {url : Bytes}
    (hP : P (.httpClientPerform (OneDrive.downloadRequest url))) (hE : E .bufferOverrun)
    (block : Bytes) : (OneDrive.downloadFile url block).Confined I P E := by
  refine .bind (.ask hP) fun reply => ?_
  split
  · exact .fault hE
  split
  · exact .pure _
  · exact .ite (.pure _) (.pure _)

/-! Without an invariant of the memory. -/

/-- Taking and parsing a body, without an invariant. -/
theorem moveAndParse_within (hE : E .nullDereference) (reply : HttpReply) :
    (moveAndParse reply : M C _).Within P E :=
  (moveAndParse_confined hE reply).within

theorem sprintfUrl_within (hE : E .urlOverrun) (url : Bytes) :
    (sprintfUrl url : M C _).Within P E :=
  (sprintfUrl_confined hE url).within

theorem getBearerToken_within (hE : E .nullDereference) : getBearerToken.Within P E :=
  (getBearerToken_confined hE).within

/-- A request with its answer, without an invariant. -/
theorem requestAuthorized_within {request : HttpRequest} (hP : P (.httpClientPerform request))
    (accepted : List ℕ) : (OneDrive.requestAuthorized request accepted).Within P E :=
  (requestAuthorized_confined hP (fun _ => id) accepted).within

/-- A lookup sends its one request. -/
theorem getFileInfo_within {path query : Bytes}
    (hP : ∀ token, P (.httpClientPerform (OneDrive.fileInfoRequest token path query)))
    (hnull : E .nullDereference) (hurl : E .urlOverrun) :
    (OneDrive.getFileInfo path query).Within P E :=
  (getFileInfo_confined hP (fun _ => id) hnull hurl).within

/-- So does a download. -/
theorem downloadFile_within {url : Bytes}
    (hP : P (.httpClientPerform (OneDrive.downloadRequest url))) (hE : E .bufferOverrun)
    (block : Bytes) : (OneDrive.downloadFile url block).Within P E :=
  (downloadFile_confined hP hE block).within

end Bounds

/-! ### A token refresh -/

/-- The event changes no local file but the keystore, if there is one; the keystore is only
written to. -/
def CallEvent.SparesDisk (keystore : Option Bytes) : CallEvent → Prop
  | ⟨.openFile path .writeTruncate, _⟩ | ⟨.write path _, _⟩ => keystore = some path
  | ⟨.openFile _ .writeExclusive, r⟩ => r ≠ .ok ()
  | ⟨.unlink _, _⟩ => False
  | _ => True

/-- The calls of a token refresh on a connection whose keystore is at `path`. -/
structure Call.ForTokenAt (path : Bytes) (call : Call) : Prop where
  forToken : call.ForToken
  sparesDisk : ∀ r, CallEvent.SparesDisk (some path) ⟨call, r⟩

/-- The keystore of the connection is at `path`. -/
abbrev KeystoreAt (path : Bytes) (s : Thread OneDriveConnect) : Prop :=
  s.conn.keystorePath = path

/-- Confined to the bounds of a token refresh, wherever the keystore is. -/
abbrev ConfinedToken {α : Type} (m : M OneDriveConnect α) : Prop :=
  ∀ path, m.Confined (KeystoreAt path) (Call.ForTokenAt path) Fault.OfToken

/-- The call is no request to a server. -/
def Call.Offline (call : Call) : Prop := ∀ request, call ≠ .httpClientPerform request

/-- Confined to the calls of a token refresh that are no requests. -/
abbrev ConfinedOffline {α : Type} (m : M OneDriveConnect α) : Prop :=
  ∀ path, m.Confined (KeystoreAt path) (fun call => call.ForTokenAt path ∧ call.Offline)
    Fault.OfToken

theorem ConfinedOffline.online {α : Type} {m : M OneDriveConnect α} (hm : ConfinedOffline m) :
    ConfinedToken m :=
  fun path => (hm path).mono (fun _ h => h.1) fun _ h => h

/-- What stays offline makes offline calls. -/
theorem ConfinedOffline.within {α : Type} {m : M OneDriveConnect α} (hm : ConfinedOffline m) :
    m.Within Call.Offline Fault.OfToken :=
  fun s => (hm s.conn.keystorePath s rfl).within.mono (fun _ h => h.2) fun _ h => h

/-- `Within` the bounds of a token refresh. -/
abbrev WithinToken {α : Type} (m : M OneDriveConnect α) : Prop :=
  m.Within Call.ForToken Fault.OfToken

/-- What is confined to the token makes calls for it. -/
theorem ConfinedToken.within {α : Type} {m : M OneDriveConnect α} (hm : ConfinedToken m) :
    WithinToken m :=
  fun s => (hm s.conn.keystorePath s rfl).within.mono (fun _ h => h.forToken) fun _ h => h

/-- Reading the token asks nothing of the network. -/
private theorem getToken_offline : ConfinedOffline getToken := fun _ => .bind .get fun _ => .pure _

private theorem modifyToken_offline (f : OAuthToken → OAuthToken) :
    ConfinedOffline (modifyToken f) :=
  fun _ => .modify fun _ h => h

/-- Writing the keystore asks nothing of the network. -/
private theorem oauthWriteback_offline (json : Json) : ConfinedOffline (oauthWriteback json) := by
  intro path
  unfold oauthWriteback
  refine .bind (.ask ⟨⟨trivial, fun _ => trivial⟩, nofun⟩) fun text => ?_
  match text with
  | none => exact .pure _
  | some [] => exact .pure _
  | some (_ :: _) =>
    refine .get_bind fun s hs =>
      .bind (.ask ⟨⟨trivial, fun _ => congrArg some hs.symm⟩, nofun⟩) fun opened => ?_
    match opened with
    | .error _ => exact .pure _
    | .ok _ =>
      refine .bind (.ask ⟨⟨trivial, fun _ => congrArg some hs.symm⟩, nofun⟩) fun bytes => ?_
      exact .ite (.bind (.ask ⟨⟨trivial, fun _ => trivial⟩, nofun⟩) fun _ => .pure _) (.pure _)

theorem writebackTokens_offline : ConfinedOffline writebackTokens := by
  intro path
  unfold writebackTokens
  refine .bind (getToken_offline path) fun token =>
    .bind (.ask ⟨⟨trivial, fun _ => trivial⟩, nofun⟩) fun created => ?_
  refine .ite (.pure _) ?_
  split
  · exact .bind (oauthWriteback_offline _ path) fun _ => .pure _
  · exact .bind (oauthWriteback_offline _ path) fun _ => .pure _
  · exact .fault trivial

/-- Decoding a reply asks nothing of the network. -/
theorem decodeAccessToken_offline (json : Option Json) :
    ConfinedOffline (decodeAccessToken json) := by
  have failed : ∀ size, ∀ rest : M OneDriveConnect ℤ, ConfinedOffline rest → ConfinedOffline (do
      if !(← malloc size) then
        return toInt (hiveSysError (← errno))
      rest) := fun size rest hrest path =>
    .bind (.ask ⟨⟨trivial, fun _ => trivial⟩, nofun⟩) fun _ =>
      .ite (.bind (.ask ⟨⟨trivial, fun _ => trivial⟩, nofun⟩) fun _ => .pure _) (hrest path)
  unfold decodeAccessToken
  split
  · exact fun _ => .pure _
  split
  · exact fun _ => .pure _
  refine failed _ _ ?_
  split
  · exact fun _ => .pure _
  split
  · exact fun _ => .pure _
  refine failed _ _ ?_
  split
  · exact fun _ => .pure _
  refine failed _ _ ?_
  split
  · exact fun _ => .pure _
  refine fun path => .ite (.pure _) (.bind (.ask ⟨⟨trivial, fun _ => trivial⟩, nofun⟩) fun _ => ?_)
  exact .bind (modifyToken_offline _ path) fun _ => .pure _

/-- A field is escaped, or there is nothing. -/
def withEscaped {β : Type} (data : Bytes) (f : Bytes → M OneDriveConnect (Option β)) :
    M OneDriveConnect (Option β) := do
  match ← httpClientEscape data with
  | none => return none
  | some b => f b

theorem escapeFields_offline (clientId redirectUrl : Bytes) (third : Option Bytes) :
    ConfinedOffline (escapeFields clientId redirectUrl third) := by
  have escape : ∀ {β : Type} (data : Bytes) (f : Bytes → M OneDriveConnect (Option β)),
      (∀ b, ConfinedOffline (f b)) → ConfinedOffline (withEscaped data f) := by
    intro β data f hf path
    refine .bind (.ask ⟨⟨trivial, fun _ => trivial⟩, by rintro _ ⟨⟩⟩) fun escaped => ?_
    cases escaped with
    | none => exact .pure _
    | some b => exact hf b path
  unfold escapeFields
  refine escape _ _ fun _ => escape _ _ fun _ => ?_
  split
  · exact fun _ => .fault trivial
  · exact escape _ _ fun _ _ => .pure _

/-- A refresh makes the calls for the token. -/
theorem refreshAccessToken_confined : ConfinedToken refreshAccessToken := by
  intro path
  unfold refreshAccessToken
  refine .bind (getToken_offline.online path) fun token =>
    .bind (.ask ⟨trivial, fun _ => trivial⟩) fun created => ?_
  refine .ite (.pure _) (.bind ((escapeFields_offline _ _ _).online path) fun fields => ?_)
  match fields with
  | none => exact .pure _
  | some (_, _, _) =>
    refine .ite (.pure _) (.bind (.ask ⟨⟨rfl, rfl⟩, fun _ => trivial⟩) fun reply => ?_)
    split
    · exact .pure _
    refine .ite (.pure _) (.bind (moveAndParse_confined trivial _) fun json => ?_)
    refine .bind ((decodeAccessToken_offline _).online path) fun rc => .ite (.pure _) ?_
    exact .bind (writebackTokens_offline.online path) fun _ => .pure _

/-- So does the test for expiry. -/
theorem oauthTokenCheckExpire_confined : ConfinedToken oauthTokenCheckExpire := by
  intro path
  unfold oauthTokenCheckExpire oauthTokenIsExpired
  refine .bind (.bind (.ask ⟨trivial, fun _ => trivial⟩) fun _ =>
    .bind (getToken_offline.online path) fun _ => .pure _) fun _ => ?_
  refine .ite (.pure _) (.bind (refreshAccessToken_confined path) fun _ => ?_)
  exact .ite (.pure _) (.pure _)

/-- Writing the tokens makes calls of that kind. -/
theorem writebackTokens_within : WithinToken writebackTokens :=
  writebackTokens_offline.online.within

/-- So does decoding a reply. -/
theorem decodeAccessToken_within (json : Option Json) : WithinToken (decodeAccessToken json) :=
  (decodeAccessToken_offline json).online.within

/-- So does the test for expiry, without an invariant. -/
theorem oauthTokenCheckExpire_within : WithinToken oauthTokenCheckExpire :=
  oauthTokenCheckExpire_confined.within

/-! ### Information requests and downloads -/

/-- The reply of an event that is a GET request with (`true`) or without a query. -/
def CallEvent.getReply? (query : Bool) : CallEvent → Option HttpReply
  | ⟨.httpClientPerform request, reply⟩ =>
    if request.method = .get ∧ request.query.isEmpty = !query then some reply else none
  | _ => none

/-- The replies to information requests. -/
def infos (tr : List CallEvent) : List HttpReply := tr.filterMap (CallEvent.getReply? true)

/-- The replies to downloads. -/
def downloads (tr : List CallEvent) : List HttpReply := tr.filterMap (CallEvent.getReply? false)

/-- The replies about files, over two stretches of a trace. -/
@[simp] theorem infos_append (tr₁ tr₂ : List CallEvent) :
    infos (tr₁ ++ tr₂) = infos tr₁ ++ infos tr₂ :=
  List.filterMap_append

/-- The downloads, over two stretches of a trace. -/
@[simp] theorem downloads_append (tr₁ tr₂ : List CallEvent) :
    downloads (tr₁ ++ tr₂) = downloads tr₁ ++ downloads tr₂ :=
  List.filterMap_append

/-- The calls for the token bring none of these replies. -/
private theorem getReply?_of_forToken {e : CallEvent} (he : e.1.ForToken) (query : Bool) :
    e.getReply? query = none := by
  obtain ⟨call, reply⟩ := e
  cases call with
  | httpClientPerform request =>
    have hpost : request.method = .post := he.1
    exact if_neg fun hget => by simp [hpost] at hget
  | _ => rfl

/-- The part of a trace that belongs to a token refresh holds no reply of a GET request. -/
private theorem filterMap_getReply?_of_forToken {pre : List CallEvent}
    (hpre : ∀ e ∈ pre, e.1.ForToken)
    (query : Bool) : pre.filterMap (CallEvent.getReply? query) = [] :=
  List.filterMap_eq_nil_iff.mpr fun e he => getReply?_of_forToken (hpre e he) query

section Replies

variable {pre tr : List CallEvent}

/-- The calls for the token are no lookups. -/
theorem infos_token (hpre : ∀ e ∈ pre, e.1.ForToken) : infos pre = [] :=
  filterMap_getReply?_of_forToken hpre true

/-- Nor are they downloads. -/
theorem downloads_token (hpre : ∀ e ∈ pre, e.1.ForToken) : downloads pre = [] :=
  filterMap_getReply?_of_forToken hpre false

@[simp] theorem infos_nil : infos [] = [] := rfl
@[simp] theorem downloads_nil : downloads [] = [] := rfl

@[simp] theorem infos_httpClientNew (user : HttpClientUser) (r : Bool) :
    infos (⟨.httpClientNew user, r⟩ :: tr) = infos tr := rfl

@[simp] theorem downloads_httpClientNew (user : HttpClientUser) (r : Bool) :
    downloads (⟨.httpClientNew user, r⟩ :: tr) = downloads tr := rfl

@[simp] theorem infos_fileInfoRequest (token path query : Bytes) (reply : HttpReply) :
    infos (⟨.httpClientPerform (OneDrive.fileInfoRequest token path query), reply⟩ :: tr) =
      reply :: infos tr := rfl

@[simp] theorem downloads_fileInfoRequest (token path query : Bytes) (reply : HttpReply) :
    downloads (⟨.httpClientPerform (OneDrive.fileInfoRequest token path query), reply⟩ :: tr) =
      downloads tr := rfl

@[simp] theorem infos_downloadRequest (url : Bytes) (reply : HttpReply) :
    infos (⟨.httpClientPerform (OneDrive.downloadRequest url), reply⟩ :: tr) = infos tr := rfl

@[simp] theorem downloads_downloadRequest (url : Bytes) (reply : HttpReply) :
    downloads (⟨.httpClientPerform (OneDrive.downloadRequest url), reply⟩ :: tr) =
      reply :: downloads tr := rfl

end Replies

/-- The document `__get_file_info` accepts from a reply. -/
def HttpReply.fileInfo (query : Bytes) (reply : HttpReply) : Option Json :=
  if reply.answer = .ok HttpStatus_OK then reply.document.filter (OneDrive.fileInfoValid query)
  else none

open OneDrive in
/-- A reply has information on a file when it is a success with a valid body. -/
theorem HttpReply.fileInfo_eq_some {query : Bytes} {reply : HttpReply} {json : Json} :
    reply.fileInfo query = some json ↔ reply.answer = .ok HttpStatus_OK ∧ reply.received ≠ [] ∧
      reply.parsed = some json ∧ fileInfoValid query json = true := by
  unfold fileInfo document
  split
  · split
    · simp_all
    · simp_all [Option.filter_eq_some_iff]
  · simp_all

namespace OneDrive

/-- Between `tr` and `tr'` an information request may have been made, but no document was
accepted from its reply. -/
def InfoRefused (query : Bytes) (tr tr' : List CallEvent) : Prop :=
  tr = tr' ∨ ∃ token path reply,
    tr = ⟨.httpClientPerform (fileInfoRequest token path query), reply⟩ :: tr' ∧
      reply.fileInfo query = none

/-- What `__get_file_info` makes of a trace: it accepts the document of the one reply it
asks for, or returns a negative error. -/
theorem getFileInfo_playback (path query : Bytes) (s : Thread OneDriveConnect)
    (tr : List CallEvent) :
    Script.wp playback (fun e tr' => e ≠ .bufferOverrun ∧ InfoRefused query tr tr')
      (getFileInfo path query)
      (fun r _ tr' => match r with
        | .error rc => rc < 0 ∧ InfoRefused query tr tr'
        | .ok json => ∃ token reply,
          tr = ⟨.httpClientPerform (fileInfoRequest token path query), reply⟩ :: tr' ∧
            reply.fileInfo query = some json) s tr := by
  unfold getFileInfo
  simp only [Script.wp_bind, wp_sprintfUrl, wp_getBearerToken, wp_requestAuthorized]
  refine ⟨fun _ => ⟨fun token _ => ?_, fun _ => ⟨by decide, .inl rfl⟩⟩,
    fun _ => ⟨by decide, .inl rfl⟩⟩
  rintro reply tr' rfl
  have refused (h : reply.fileInfo query = none) :
      InfoRefused query (⟨.httpClientPerform (fileInfoRequest token path query), reply⟩ :: tr')
        tr' := .inr ⟨token, path, reply, rfl, h⟩
  refine ⟨fun e he => ?_, fun hstatus => ?_, fun status hstatus _ =>
    ⟨fun hacc => ?_, fun hacc => ?_⟩⟩
  · exact ⟨reply.toInt_answer_neg he, refused (by simp [HttpReply.fileInfo, he])⟩
  · exact ⟨by simp, refused (by simp [HttpReply.fileInfo, hstatus, HttpStatus_OK,
      HttpStatus_Unauthorized])⟩
  · rw [List.mem_singleton] at hacc
    exact ⟨by simp, refused (by simp [HttpReply.fileInfo, hstatus, hacc])⟩
  · rw [List.mem_singleton] at hacc
    subst hacc
    simp only [wp_moveAndParse]
    refine ⟨fun hempty => ⟨by decide, refused ?_⟩, fun hbody => ?_⟩
    · simp [HttpReply.fileInfo, HttpReply.document, hempty]
    cases hparsed : reply.parsed with
    | none =>
      exact ⟨by simp, refused (by simp [HttpReply.fileInfo, HttpReply.document, hparsed])⟩
    | some json =>
      simp only [Script.wp_ite, Script.wp_pure, Bool.not_eq_true', Bool.not_eq_false]
      refine ⟨fun hinvalid => ⟨by simp, refused ?_⟩, fun hvalid => ⟨token, reply, rfl, ?_⟩⟩
      · simp [HttpReply.fileInfo, HttpReply.document, hstatus, hparsed, hinvalid, hbody]
      · exact HttpReply.fileInfo_eq_some.mpr ⟨hstatus, hbody, hparsed, hvalid⟩

/-- An accepted document announces a size. -/
theorem announcedSize_of_fileInfoValid {query : Bytes} {json : Json}
    (hquery : strstr query sizeQuery = true) (h : fileInfoValid query json = true) :
    ∃ n : ℕ, announcedSize json = some (n : ℤ) := by
  unfold fileInfoValid at h
  unfold announcedSize
  rw [hquery] at h
  cases hsize : Json.number? (json.getObjectItemCaseSensitive sizeQuery) with
  | none => simp [hsize] at h
  | some d =>
    simp only [hsize, Bool.not_true, Bool.false_or, Bool.and_eq_true, decide_eq_true_eq] at h
    exact ⟨d.toLong.toNat, by simp [Int.toNat_of_nonneg h.1]⟩

/-- A document accepted for a download names its URL. -/
theorem downloadUrl_of_fileInfoValid {query : Bytes} {json : Json}
    (hquery : strstr query downloadUrlKey = true) (h : fileInfoValid query json = true) :
    ∃ url, Json.nonemptyString? (json.getObjectItemCaseSensitive downloadUrlKey) = some url := by
  unfold fileInfoValid at h
  rw [hquery] at h
  simp only [Bool.not_true, Bool.false_or, Bool.and_eq_true] at h
  exact Option.isSome_iff_exists.mp h.2

theorem strstr_sizeQuery : strstr sizeQuery sizeQuery = true := by decide
theorem strstr_sizeAndUrlQuery_size : strstr sizeAndUrlQuery sizeQuery = true := by decide
theorem strstr_sizeAndUrlQuery_url : strstr sizeAndUrlQuery downloadUrlKey = true := by decide

end OneDrive

/-! ### Runs that come to an end -/

section

variable {σ : Type} {h : Handler σ Call Call.Reply} {F : Fault → σ → Prop}
  {s : Thread OneDriveConnect} {w : σ}

/-- A URL is printed or leaves its buffer, by its length. -/
theorem twp_sprintfUrl {url : Bytes} {Q : Bytes → Thread OneDriveConnect → σ → Prop} :
    Script.twp h F (sprintfUrl url) Q s w ↔
      (url.length < 1024 → Q url s w) ∧ (1024 ≤ url.length → F .urlOverrun w) := by
  simp only [sprintfUrl, Script.twp_ite, Script.twp_fault, Script.twp_pure, not_lt]

/-- The bearer token, where there is one. -/
theorem twp_getBearerToken {token : Bytes} {Q : Bytes → Thread OneDriveConnect → σ → Prop}
    (htoken : s.conn.token.accessToken = some token) :
    Script.twp h F getBearerToken Q s w ↔ Q token s w := by
  unfold getBearerToken
  simp only [Script.twp_bind, Script.twp_get, Script.twp_pure, htoken]

/-- The parsed body, where there is one. -/
theorem twp_moveAndParse {reply : HttpReply} {Q : Option Json → Thread OneDriveConnect → σ → Prop}
    (hbody : reply.received ≠ []) :
    Script.twp h F (moveAndParse reply) Q s w ↔ Q reply.parsed s w := by
  rw [moveAndParse, if_neg hbody, Script.twp_pure]

/-- A request that is answered without a 401. -/
theorem twp_requestAuthorized {request : HttpRequest} {accepted : List ℕ}
    {Q : Except ℤ HttpReply → Thread OneDriveConnect → σ → Prop}
    (hanswered : ∃ reply w', h w (.httpClientPerform request) reply w')
    (hreply : ∀ reply w', h w (.httpClientPerform request) reply w' →
      ∃ status, reply.answer = .ok status ∧ status ≠ HttpStatus_Unauthorized ∧
        (status ∉ accepted → Q (.error (hiveHttpStatusError status)) s w') ∧
        (status ∈ accepted → Q (.ok reply) s w')) :
    Script.twp h F (OneDrive.requestAuthorized request accepted) Q s w := by
  unfold OneDrive.requestAuthorized
  simp only [Script.twp_bind, Script.twp_ask]
  refine ⟨hanswered, fun reply w' hr => ?_⟩
  obtain ⟨status, hstatus, hauthorized, hrefused, haccepted⟩ := hreply reply w' hr
  simp only [hstatus, Script.twp_ite, Script.twp_bind, Script.twp_pure]
  exact ⟨fun h => absurd h hauthorized, fun _ => ⟨hrefused, fun h => haccepted (not_not.mp h)⟩⟩

end

end HiveSDK
