import HiveSDK.Http.Replies

/-!
# The functions that parse replies

Each of them is run forwards from an empty past, and left in one of two ways: `Returned`, with a
negative error or with a success that the replies account for, or `Stopped`, by an accepted reply
without a body or by a connection that cannot be used. `handled_iff` collects what that says about
every run of every one of them.
-/

namespace HiveSDK

open Interaction C

section Handlers

variable {kindOf : HttpRequest → Option ReplyKind} {past past' : List CallEvent}

/-! ### The OneDrive functions -/

/-- `0`, or the error. -/
def resultCode {α : Type} : Except ℤ α → ℤ
  | .error rc => rc
  | .ok _ => 0

/-- The information on a file comes out of a reply that delivers it. -/
private theorem getFileInfo_replies (path query : Bytes) (s : Thread OneDriveConnect)
    (hkind : ∀ request, kindOf request = some (.fileInfo query)) :
    Script.wp record (fun _ => Stopped kindOf (s.conn.token.accessToken.isSome ∧
        (OneDrive.itemUrl path []).length < MAX_URL_LEN)) (OneDrive.getFileInfo path query)
      (fun r _ => Returned kindOf (.fileInfo query) (resultCode r)) s [] := by
  unfold OneDrive.getFileInfo
  simp only [Script.wp_bind, wp_sprintfUrl, wp_getBearerToken]
  refine ⟨fun _ => ⟨fun token _ => ?_, fun hnone => .inr ⟨fun h => ?_, rfl⟩⟩,
    fun hlong => .inr ⟨fun h => absurd h.2 (not_lt.mpr hlong), rfl⟩⟩
  · refine Script.wp_mono (requestAuthorized_replies (hkind _) s) (fun _ _ h => h) ?_
    intro r s₁ past₁ hr
    cases r with
    | error e =>
      obtain ⟨hneg, reply, hread, hreadable⟩ := hr
      exact ⟨allReadable_append (allReadable_of_nil rfl) hreadable hread, .inl hneg⟩
    | ok reply =>
      obtain ⟨hanswer, hread⟩ := hr
      refine wp_parseReply resultCode (by simp) hanswer hread ?_
      cases reply.parsed with
      | none => exact ⟨rfl, .inl (by simp [resultCode])⟩
      | some json =>
        simp only [Script.wp_ite, Script.wp_pure, Bool.not_eq_true', Bool.not_eq_false]
        exact ⟨fun _ => ⟨trivial, .inl (by simp [resultCode])⟩, fun hvalid =>
          ⟨trivial, .inr ⟨json, rfl, complete_of_fileInfoValid hvalid⟩⟩⟩
  · rw [hnone] at h
    exact absurd h.1 (by rintro ⟨⟩)

/-- So does the URL of an upload session. -/
private theorem createUploadSession_replies (path : Bytes) (s : Thread OneDriveConnect)
    (hkind : ∀ request, kindOf request = some .uploadSession) :
    Script.wp record (fun _ => Stopped kindOf (s.conn.token.accessToken.isSome ∧
        (OneDrive.itemUrl path OneDrive.sessionSuffix).length < MAX_URL_LEN))
      (OneDrive.createUploadSession path)
      (fun r _ => Returned kindOf .uploadSession (resultCode r)) s [] := by
  unfold OneDrive.createUploadSession
  simp only [Script.wp_bind, wp_sprintfUrl, wp_getBearerToken]
  refine ⟨fun _ => ⟨fun token _ => ?_, fun hnone => .inr ⟨fun h => ?_, rfl⟩⟩,
    fun hlong => .inr ⟨fun h => absurd h.2 (not_lt.mpr hlong), rfl⟩⟩
  · refine Script.wp_mono (requestAuthorized_replies (hkind _) s) (fun _ _ h => h) ?_
    intro r s₁ past₁ hr
    cases r with
    | error e =>
      obtain ⟨hneg, reply, hread, hreadable⟩ := hr
      exact ⟨allReadable_append (allReadable_of_nil rfl) hreadable hread, .inl hneg⟩
    | ok reply =>
      obtain ⟨hanswer, hread⟩ := hr
      refine wp_parseReply resultCode (by simp) hanswer hread ?_
      cases reply.parsed with
      | none => exact ⟨rfl, .inl (by simp [resultCode])⟩
      | some json =>
        dsimp only
        split
        · exact ⟨rfl, .inl (by simp [resultCode])⟩
        · rename_i url hurl
          rw [Json.nonemptyString?_eq_some] at hurl
          simp only [Script.wp_ite, Script.wp_pure]
          exact ⟨fun _ => ⟨trivial, .inl (by simp [resultCode])⟩, fun hfits =>
            ⟨trivial, .inr ⟨json, rfl, url, hurl.1, not_le.mp hfits, hurl.2⟩⟩⟩
  · rw [hnone] at h
    exact absurd h.1 (by rintro ⟨⟩)

/-- The document of the page before is released, or there is none. -/
private theorem wp_deletePrevious (kindOf : HttpRequest → Option ReplyKind)
    {F : Fault → List CallEvent → Prop} {previous : Bool} {page : ℕ}
    {m : M OneDriveConnect ℤ} {Q : ℤ → Thread OneDriveConnect → List CallEvent → Prop}
    {s : Thread OneDriveConnect}
    (hm : ∀ past₁, NoReply kindOf past past₁ → Script.wp record F m Q s past₁) :
    Script.wp record F (if previous then cJSON_Delete page >>= fun _ => m else m) Q s past := by
  simp only [Script.wp_ite, Script.wp_bind, Script.wp_ask]
  exact ⟨fun _ _ past₁ hdelete => hm past₁ (repliesBy_offline hdelete (by rintro _ ⟨⟩)),
    fun _ => hm past rfl⟩

theorem notifyUserFiles_within (array : List Json) :
    (OneDrive.notifyUserFiles array).Within Call.Offline fun _ => False := by
  induction array with
  | nil => exact .bind (.ask nofun) fun _ => .pure _
  | cons item array ih => exact .bind (.ask nofun) fun _ => .ite (.pure _) ih

/-- From a page on: everything read so far is accepted and complete. -/
private theorem listPages_replies {ready : Prop} (hkind : ∀ request, request.method = .get →
    kindOf request = some .page) {rounds page : ℕ} {previous : Bool} {url : Bytes}
    {array : List Json} {s : Thread OneDriveConnect} (htoken : s.conn.token.accessToken.isSome)
    (hpast : ∀ x ∈ repliesBy kindOf past, x.2.Delivers x.1) :
    Script.wp record (fun _ => Stopped kindOf ready)
      (OneDrive.listPages rounds page previous url array)
      (fun rc _ => Returned kindOf .page rc) s past := by
  induction rounds generalizing page previous url array past with
  | zero => exact fun r => r.elim
  | succ rounds ih =>
    have hreadable : AllReadable kindOf past := fun x hx => (hpast x hx).readable
    unfold OneDrive.listPages
    simp only [Script.wp_bind, wp_getBearerToken, Script.wp_ask]
    refine ⟨fun token _ reply past₁ hreply => wp_deletePrevious kindOf fun past₂ hdeleted => ?_,
      fun hnone => absurd htoken (by rw [hnone]; rintro ⟨⟩)⟩
    -- releasing the page before brings no reply, the request brings one
    have hread := hdeleted.trans (repliesBy_request hreply (hkind _ rfl))
    -- an error leaves every reply readable
    have refused {rc : ℤ} (hneg : rc < 0) {past' : List CallEvent}
        (hsame : NoReply kindOf past₂ past')
        (h : reply.Readable) : Returned kindOf .page rc past' :=
      ⟨allReadable_append hreadable h (hsame.trans hread), .inl hneg⟩
    have hbad := toInt_hiveGeneralError_neg HIVEERR_BAD_JSON_FORMAT
    -- the branches of the source: the answer, the body, the items, the link
    cases hanswer : reply.answer with
    | error e =>
      exact refused (reply.toInt_answer_neg hanswer) rfl
        (HttpReply.readable_of_answer hanswer (by rintro ⟨⟩))
    | ok status =>
      simp only [Script.wp_ite, Script.wp_bind, wp_oauthTokenSetExpired, Script.wp_pure,
        wp_moveAndParse]
      refine ⟨fun h401 => ?_, fun _ => ⟨fun hother => ?_, fun hstatus => ⟨fun hempty => ?_,
        fun hbody => ?_⟩⟩⟩
      · exact refused (by simp) rfl (HttpReply.readable_of_answer hanswer (by simp [h401,
          HttpStatus_OK, HttpStatus_Unauthorized]))
      · exact refused (by simp) rfl (HttpReply.readable_of_answer hanswer fun h =>
          hother (Except.ok.inj h))
      · rw [not_not] at hstatus
        exact .inl (not_allReadable (fun h => h (hstatus ▸ hanswer) hempty) hread)
      · rw [not_not] at hstatus
        subst hstatus
        have hbody' : reply.Readable := fun _ => hbody
        cases hparsed : reply.parsed with
        | none => exact refused (by simp) rfl hbody'
        | some json =>
          dsimp only
          split
          · rename_i sub hvalue
            split
            · rename_i rc hmerged
              simp only [Script.wp_bind, Script.wp_ask, Script.wp_pure]
              exact fun _ past₃ hdelete =>
                refused (mergeArray_neg hmerged) (repliesBy_offline hdelete (by rintro _ ⟨⟩)) hbody'
            · rename_i merged hmerged
              -- merged items and a link that is read make the page complete
              have hcomplete
                  (hlink : json.getObjectItemCaseSensitive (ascii "@odata.nextLink") = none ∨
                    json.HasText (ascii "@odata.nextLink") fun _ => True) : reply.Delivers .page :=
                HttpReply.delivers_of_parsed hanswer hbody hparsed
                  ⟨⟨sub, hvalue, fun item hitem => listEntry_of_listItemValid
                    (listItemValid_of_mergeArray hmerged item hitem)⟩, hlink⟩
              split
              · rename_i rc hlink
                simp only [Script.wp_bind, Script.wp_ask, Script.wp_pure]
                exact fun _ past₃ hdelete =>
                  refused (nextLink_neg hlink) (repliesBy_offline hdelete (by rintro _ ⟨⟩)) hbody'
              · rename_i link hlink
                have hall := succeeded_append hpast (hcomplete (nextLink_complete hlink)) hread
                -- another page follows
                exact ih hall.delivered
              · rename_i hlink
                simp only [Script.wp_bind, Script.wp_ask, Script.wp_pure]
                intro _ past₃ hdelete
                refine Script.wp_mono (Script.wp_recorded (notifyUserFiles_within merged)
                  Script.wp_true) (fun _ _ h => h.2.1.elim) ?_
                rintro _ _ past₄ ⟨_, hnotified⟩
                have hsame : NoReply kindOf past₂ past₄ :=
                  (repliesBy_recorded (fun request h => (h request rfl).elim) hnotified).trans
                    (repliesBy_offline hdelete (by rintro _ ⟨⟩))
                exact returned_of_succeeded (succeeded_append hpast
                  (hcomplete (nextLink_complete hlink)) (hsame.trans hread))
          · simp only [Script.wp_bind, Script.wp_ask, Script.wp_pure]
            exact fun _ past₃ hdelete =>
              refused hbad (repliesBy_offline hdelete (by rintro _ ⟨⟩)) hbody'

/-- Without an access token nothing is sent. -/
private theorem listPages_stopped {ready : Prop} {rounds page : ℕ} {previous : Bool} {url : Bytes}
    {array : List Json} {s : Thread OneDriveConnect} (htoken : s.conn.token.accessToken = none)
    (hready : ¬ready) (hpast : repliesBy kindOf past = []) :
    Script.wp record (fun _ => Stopped kindOf ready)
      (OneDrive.listPages rounds page previous url array)
      (fun rc _ => Returned kindOf .page rc) s past := by
  cases rounds with
  | zero => exact fun r => r.elim
  | succ rounds =>
    unfold OneDrive.listPages
    simp only [Script.wp_bind, wp_getBearerToken]
    refine ⟨fun token hsome => ?_, fun _ => .inr ⟨hready, hpast⟩⟩
    rw [htoken] at hsome
    cases hsome

/-- The check of the token ends in an error, finds the token valid, or replaces it. -/
private theorem oauthTokenCheckExpire_replies (hkind : ∀ request, request.method = .post →
    kindOf request = some .token) (s : Thread OneDriveConnect) :
    Script.wp record (fun _ => Stopped kindOf s.conn.token.Authorised) oauthTokenCheckExpire
      (fun rc s₁ past₁ => rc < 0 ∧ AllReadable kindOf past₁ ∨
        rc = 0 ∧ (∀ x ∈ repliesBy kindOf past₁, x.2.Delivers x.1) ∧
          (s₁.conn.token.accessToken.isSome ∨ s₁ = s ∧ repliesBy kindOf past₁ = [])) s [] := by
  unfold oauthTokenCheckExpire
  simp only [Script.wp_bind, wp_oauthTokenIsExpired]
  intro now past₀ hnow
  have hnone : repliesBy kindOf past₀ = [] := repliesBy_offline hnow (by rintro _ ⟨⟩)
  simp only [Script.wp_ite, Script.wp_bind, Script.wp_pure]
  refine ⟨fun _ => .inr ⟨trivial, by simp [hnone], .inr ⟨trivial, hnone⟩⟩, fun _ => ?_⟩
  refine Script.wp_mono (refreshAccessToken_replies hkind) ?_ ?_
  · rintro _ past₁ (⟨reply, hread, hreadable⟩ | ⟨habsent, hsame⟩)
    · exact .inl (not_allReadable hreadable hread)
    · refine .inr ⟨fun hauth => ?_, hsame.trans hnone⟩
      have hrefresh := hauth.refreshToken
      rw [habsent] at hrefresh
      cases hrefresh
  · intro rc s₁ past₁ hhandled
    cases hhandled with
    | stored hnext hstored =>
      obtain ⟨reply, hread, hdelivers⟩ := hnext
      have hall := (succeeded_append (by simp [hnone]) hdelivers hread).delivered
      exact ⟨fun h => absurd h (lt_irrefl 0), fun _ =>
        .inr ⟨trivial, hall, .inl hstored.authorised.accessToken⟩⟩
    | refused hrc hnext =>
      refine ⟨fun _ => .inl ⟨hrc, ?_⟩, fun h => absurd hrc h⟩
      rcases hnext with hsame | ⟨reply, hread, hreadable⟩
      · exact allReadable_of_nil (hsame.trans hnone)
      · exact allReadable_append (allReadable_of_nil hnone) hreadable hread

/-- Each page of a listing comes out of a reply that delivers it. -/
private theorem listFiles_replies (hpost : ∀ request, request.method = .post →
    kindOf request = some .token) (hget : ∀ request, request.method = .get →
    kindOf request = some .page) (rounds : ℕ) (s : Thread OneDriveConnect) :
    Script.wp record (fun _ => Stopped kindOf s.conn.token.Authorised) (OneDrive.listFiles rounds)
      (fun rc _ => Returned kindOf .page rc) s [] := by
  unfold OneDrive.listFiles
  simp only [Script.wp_bind]
  refine Script.wp_mono (oauthTokenCheckExpire_replies hpost s) (fun _ _ h => h) ?_
  rintro rc s₁ past₁ (⟨hneg, hall⟩ | ⟨rfl, hall, htoken⟩)
  · rw [Script.wp_ite]
    exact ⟨fun _ => ⟨hall, .inl hneg⟩, fun h => absurd hneg h⟩
  have hreadable : AllReadable kindOf past₁ := fun x hx => (hall x hx).readable
  simp only [Script.wp_ite, Script.wp_bind, Script.wp_ask, Script.wp_pure, wp_sprintfUrl]
  refine ⟨fun h => absurd h (lt_irrefl 0), fun _ created past₂ hcreated => ?_⟩
  have hnew : NoReply kindOf past₁ past₂ := repliesBy_offline hcreated (by rintro _ ⟨⟩)
  refine ⟨fun _ => ⟨hreadable.of_noReply hnew, .inl (by simp)⟩, fun _ =>
    ⟨fun _ array past₃ harray => ?_, fun hlong => absurd hlong (by decide)⟩⟩
  have hsame : NoReply kindOf past₁ past₃ := (repliesBy_offline harray (by rintro _ ⟨⟩)).trans hnew
  refine ⟨fun _ => ⟨hreadable.of_noReply hsame, .inl (by simp)⟩, fun _ => ?_⟩
  rcases htoken with hsome | ⟨rfl, hnil⟩
  · exact listPages_replies hget hsome (by rw [hsame]; exact hall)
  · cases htoken : s₁.conn.token.accessToken with
    | none =>
      refine listPages_stopped htoken (fun hauth => ?_) (hsame.trans hnil)
      have hsome := hauth.accessToken
      rw [htoken] at hsome
      cases hsome
    | some token => exact listPages_replies hget (by rw [htoken]; rfl) (by rw [hsame]; exact hall)

/-! ### The IPFS functions -/

open IPFS

/-- The calls made to choose a node. -/
def Call.ForChoice : Call → Prop
  | .rand | .httpClientNew .testReachable | .block => True
  | .httpClientPerform request => ∃ ip port, request = versionRequest ip port
  | _ => False

theorem tryAddress_within (ip : Bytes) (port : ℕ) :
    (tryAddress ip port).Within Call.ForChoice fun _ => False := by
  unfold tryAddress testReachable
  refine .ite (.pure _) (.bind (.ite (.pure _) ?_) fun _ => .pure _)
  refine .bind (.ask trivial) fun created => .ite (.pure _) ?_
  refine .bind (.ask ⟨ip, port, rfl⟩) fun reply => ?_
  split
  · exact .pure _
  · exact .ite (.pure _) (.pure _)

/-- The index stays inside the array of nodes. -/
theorem selectLoop_within {nodes : List RpcNode} {base rounds i : ℕ} (hi : i < nodes.length) :
    (selectLoop nodes base rounds i).Within Call.ForChoice fun _ => False := by
  induction rounds generalizing i with
  | zero => exact .bind (.ask trivial) fun e => e.elim
  | succ rounds ih =>
    have found (ip : Bytes) (port : ℕ) : (do
        select ip port
        return (0 : ℤ)).Within Call.ForChoice fun _ => False :=
      .bind (.modify _) fun _ => .pure _
    unfold selectLoop
    rw [List.getElem?_eq_getElem hi]
    refine .bind (tryAddress_within _ _) fun _ => .ite (found _ _) ?_
    refine .bind (tryAddress_within _ _) fun _ => .ite (found _ _) ?_
    have hnext : (i + 1) % nodes.length < nodes.length := Nat.mod_lt _ (by omega)
    exact .ite (ih hnext) (.pure _)

theorem checkReachable_within : checkReachable.Within Call.ForChoice fun _ => False := by
  unfold checkReachable selectBootstrap
  refine .bind .get fun s => .ite (.pure _) (.bind (.ask trivial) fun r => ?_)
  rcases Nat.eq_zero_or_pos s.conn.rpcNodes.length with hempty | hpos
  · rw [hempty]
    exact .bind (.ask trivial) fun e => e.elim
  · exact selectLoop_within (Nat.mod_lt _ hpos)

/-- A reachability test is not what an operation reads. -/
private theorem isSuffixOf_versionRequest (path : Bytes) {b : UInt8} (hb : b ≠ 110) (ip : Bytes)
    (port : ℕ) : (path ++ [b]).isSuffixOf (versionRequest ip port).url = false := by
  rw [Bool.eq_false_iff, ne_eq, List.isSuffixOf_iff_suffix]
  rintro ⟨front, hfront⟩
  have hlast := getLast?_nodeUrl ip port (ascii "/versio") 110
  have hurl : (versionRequest ip port).url = nodeUrl ip port (ascii "/versio" ++ [110]) := rfl
  rw [← hurl, ← hfront, ← List.append_assoc, List.getLast?_concat] at hlast
  exact hb (Option.some.inj hlast)

private theorem isSuffixOf_nodeUrl (ip : Bytes) (port : ℕ) (path : Bytes) :
    path.isSuffixOf (nodeUrl ip port path) = true := by
  rw [List.isSuffixOf_iff_suffix]
  exact List.suffix_append _ _

/-- What is read while a node is chosen: nothing. -/
private theorem checkReachable_replies {ready : Prop} {s : Thread IPFSConnect}
    (hkind : ∀ ip port, kindOf (versionRequest ip port) = none) :
    Script.wp record (fun _ => Stopped kindOf ready) checkReachable
      (fun _ _ past₁ => repliesBy kindOf past₁ = [] ∧ Recorded Call.ForChoice [] past₁) s [] := by
  refine Script.wp_mono (Script.wp_recorded checkReachable_within Script.wp_true)
    (fun _ _ h => h.2.1.elim) fun _ _ past₁ h => ⟨?_, h.2⟩
  refine (repliesBy_recorded (fun request hrequest => ?_) h.2).trans rfl
  obtain ⟨ip, port, rfl⟩ := hrequest
  exact hkind ip port

/-- A content identifier comes out of a reply that delivers it. -/
private theorem putFileFromBuffer_replies {s : Thread IPFSConnect}
    (hversion : ∀ ip port, kindOf (versionRequest ip port) = none)
    (hadd : ∀ ip port body, kindOf (addRequest ip port body) = some .added) (body cid : Bytes) :
    Script.wp record (fun _ => Stopped kindOf True) (IPFS.putFileFromBuffer body cid)
      (fun r _ => Returned kindOf .added r.1) s [] := by
  unfold IPFS.putFileFromBuffer
  simp only [Script.wp_bind]
  refine Script.wp_mono (checkReachable_replies hversion) (fun _ _ h => h) ?_
  rintro rc s₁ past₁ ⟨hnone, -⟩
  have refused {rc : ℤ} {past' : List CallEvent} (hneg : rc < 0)
      (h : AllReadable kindOf past') : Returned kindOf .added rc past' := ⟨h, .inl hneg⟩
  simp only [Script.wp_ite, Script.wp_bind, Script.wp_get, Script.wp_ask, Script.wp_pure]
  refine ⟨fun hneg => refused hneg (allReadable_of_nil hnone), fun _ created past₂ hcreated => ?_⟩
  -- `version` is asked first, and its reply is not counted
  have hnew : repliesBy kindOf past₂ = [] :=
    (repliesBy_offline hcreated (by rintro _ ⟨⟩)).trans hnone
  refine ⟨fun _ => refused (by simp) (allReadable_of_nil hnew), fun _ reply past₃ hreply => ?_⟩
  have hread := repliesBy_request hreply (hadd _ _ _)
  have unread (h : reply.Readable) : AllReadable kindOf past₃ :=
    allReadable_append (allReadable_of_nil hnew) h hread
  -- the transfer failed, has no status, has another status, or is readable
  refine ⟨fun hfailed => ?_, fun hperformed => ⟨fun hinfo => ?_, fun hinfo => ⟨fun hstatus => ?_,
    fun hstatus => ?_⟩⟩⟩
  · refine Script.wp_mono transferError_neg (fun _ _ h => h) ?_
    rintro rc _ _ ⟨hneg, rfl⟩
    exact refused hneg (unread fun h => (hfailed (HttpReply.answer_eq_ok.mp h).1).elim)
  · exact refused (by simp) (unread fun h => (hinfo (HttpReply.answer_eq_ok.mp h).2.1).elim)
  · exact refused (by simp) (unread fun h => (hstatus (HttpReply.answer_eq_ok.mp h).2.2).elim)
  · rw [not_not] at hperformed hinfo hstatus
    have hanswer := HttpReply.answer_eq_ok.mpr ⟨hperformed, hinfo, hstatus⟩
    refine Script.wp_bind.mp (wp_parseReply Prod.fst (by simp [hnew]) hanswer hread ?_)
    -- the body: no JSON, no `Hash`, a hash too long for a cid, or a cid
    cases reply.parsed with
    | none => exact ⟨rfl, .inl (by simp)⟩
    | some json =>
      dsimp only
      split
      · exact ⟨rfl, .inl (by simp)⟩
      · rename_i hash hhash
        rw [Json.nonemptyString?_eq_some] at hhash
        simp only [Script.wp_ite, Script.wp_pure]
        refine ⟨fun _ => ⟨trivial, .inl (by simp)⟩, fun hfits => ⟨trivial, .inr ⟨json, rfl, hash,
          hhash.1, ?_, hhash.2⟩⟩⟩
        rw [cidSize, not_le] at hfits
        omega

/-- An error returned as a macro is a length to the caller. -/
private theorem not_ssize_err_neg (e : ℤ) : ¬(Exit.err (hiveGeneralError e)).ssize < 0 := by
  have hle := le_hiveMkError HIVEF_GENERAL e
  rw [Exit.ssize_err, hiveGeneralError]
  omega

/-- What `get_file_length` takes for granted: its client can be had, and an accepted reply is
complete. Otherwise it returns the error as a length. -/
def LengthListed (kindOf : HttpRequest → Option ReplyKind) (past : List CallEvent) : Prop :=
  ⟨.httpClientNew .ipfsGetFileLength, false⟩ ∉ past ∧
    ∀ x ∈ repliesBy kindOf past, x.2.answer = .ok HttpStatus_OK → x.2.Delivers x.1

/-- A length comes out of a reply that lists it, an error number apart. -/
private theorem getFileLength_replies {s : Thread IPFSConnect} {cid : Bytes}
    (hversion : ∀ ip port, kindOf (versionRequest ip port) = none)
    (hls : ∀ ip port, kindOf (fileLsRequest ip port cid) = some (.listed cid)) :
    Script.wp record (fun _ past => ¬LengthListed kindOf past) (IPFS.getFileLength cid)
      (fun exit _ past => (exit.ssize < 0 ∨ Succeeded kindOf (.listed cid) past) ↔
        LengthListed kindOf past) s [] := by
  unfold IPFS.getFileLength
  simp only [Script.wp_bind]
  refine Script.wp_mono (Script.wp_recorded checkReachable_within Script.wp_true)
    (fun _ _ h => h.2.1.elim) ?_
  rintro rc s₁ past₁ ⟨-, hchoice⟩
  have hnone : repliesBy kindOf past₁ = [] := by
    refine (repliesBy_recorded (fun request hrequest => ?_) hchoice).trans rfl
    obtain ⟨ip, port, rfl⟩ := hrequest
    exact hversion ip port
  have hunmarked : ⟨.httpClientNew .ipfsGetFileLength, false⟩ ∉ past₁ := by
    obtain ⟨new, rfl, hnew⟩ := hchoice
    exact fun hmem => hnew _ hmem
  simp only [Script.wp_ite, Script.wp_bind, Script.wp_get, Script.wp_ask, Script.wp_pure]
  refine ⟨fun hneg => ?_, ?_⟩
  · exact iff_of_true (.inl hneg) ⟨hunmarked, by simp [hnone]⟩
  intro _ created past₂ hcreated
  have hnew : repliesBy kindOf past₂ = [] :=
    (repliesBy_offline hcreated (by rintro _ ⟨⟩)).trans hnone
  simp only [record] at hcreated
  subst hcreated
  refine ⟨fun hfailed => ?_, fun hcreated reply past₃ hreply => ?_⟩
  · -- the error is positive, and nothing has been asked
    rw [Bool.not_eq_true'] at hfailed
    subst hfailed
    refine iff_of_false (fun h => ?_) fun h => h.1 (by simp)
    rcases h with hneg | hsucceeded
    · exact absurd hneg (not_ssize_err_neg _)
    · obtain ⟨reply, hmem⟩ := hsucceeded.obtained
      rw [hnew] at hmem
      cases hmem
  have hread := (repliesBy_request hreply (hls _ _)).trans (by rw [hnew, List.nil_append])
  replace hunmarked : ⟨.httpClientNew .ipfsGetFileLength, false⟩ ∉ past₃ := by
    simp only [record] at hreply
    rw [hreply, List.mem_append, List.mem_append, List.mem_singleton, List.mem_singleton]
    rintro ((hmem | hmem) | hmem)
    · exact hunmarked hmem
    · cases hmem
      simp at hcreated
    · cases hmem
  have unaccepted {rc : ℤ} (hneg : rc < 0) (h : reply.answer ≠ .ok HttpStatus_OK) :
      ((Exit.ret rc).ssize < 0 ∨ Succeeded kindOf (.listed cid) past₃) ↔
        LengthListed kindOf past₃ := by
    refine iff_of_true (.inl hneg) ⟨hunmarked, fun x hx hanswer => ?_⟩
    rw [hread, List.mem_singleton] at hx
    subst hx
    exact (h hanswer).elim
  have incomplete (hanswer : reply.answer = .ok HttpStatus_OK)
      (h : ¬reply.Delivers (.listed cid)) : ¬LengthListed kindOf past₃ :=
    fun hlisted => h (hlisted.2 (.listed cid, reply) (by simp [hread]) hanswer)
  refine ⟨fun hfailed => ?_, fun hperformed => ⟨fun hinfo => ?_, fun hinfo => ⟨fun hstatus => ?_,
    fun hstatus => ?_⟩⟩⟩
  · refine Script.wp_mono transferError_neg (fun _ _ h => h) ?_
    rintro rc _ _ ⟨hneg, rfl⟩
    exact unaccepted hneg fun h => hfailed (HttpReply.answer_eq_ok.mp h).1
  · exact unaccepted (toInt_hiveCurlError_neg _) fun h => hinfo (HttpReply.answer_eq_ok.mp h).2.1
  · exact unaccepted (toInt_hiveHttpStatusError_neg _) fun h =>
      hstatus (HttpReply.answer_eq_ok.mp h).2.2
  rw [not_not] at hperformed hinfo hstatus
  have hanswer := HttpReply.answer_eq_ok.mpr ⟨hperformed, hinfo, hstatus⟩
  -- an error that is returned from here on is positive
  have misread (e : ℤ) (h : ¬reply.Delivers (.listed cid)) :
      ((Exit.err (hiveGeneralError e)).ssize < 0 ∨ Succeeded kindOf (.listed cid) past₃) ↔
        LengthListed kindOf past₃ := by
    refine iff_of_false (fun hor => ?_) (incomplete hanswer h)
    rcases hor with hneg | hsucceeded
    · exact absurd hneg (not_ssize_err_neg _)
    · exact h (hsucceeded.delivered (.listed cid, reply) (by simp [hread]))
  simp only [wp_moveAndParse]
  refine ⟨fun hempty => incomplete hanswer fun h => h.readable hanswer hempty, fun hbody => ?_⟩
  cases hparsed : reply.parsed with
  | none =>
    refine Script.wp_pure.mpr (misread _ fun h => ?_)
    obtain ⟨_, json, hdocument, _⟩ := h
    rw [HttpReply.document, if_neg hbody, hparsed] at hdocument
    cases hdocument
  | some json =>
    cases hsize : listedSize cid json with
    | none =>
      dsimp only
      rw [hsize, Script.wp_pure]
      refine misread _ fun h => ?_
      obtain ⟨_, json', hdocument, hcomplete⟩ := h
      rw [HttpReply.document, if_neg hbody, hparsed] at hdocument
      obtain rfl := Option.some.inj hdocument
      exact not_complete_of_listedSize hsize hcomplete
    | some size =>
      have hdelivers := HttpReply.delivers_of_parsed hanswer hbody hparsed
        (complete_of_listedSize hsize).1
      have hsucceeded := succeeded_of_single hdelivers hread
      dsimp only
      rw [hsize, Script.wp_pure]
      exact iff_of_true (.inr hsucceeded) ⟨hunmarked, fun x hx _ => hsucceeded.delivered x hx⟩

end Handlers

/-! ### Every reply is handled by a return -/

/-- The functions that parse replies. -/
inductive ReplyHandler
  | getFileInfo (path query : Bytes)
  | createUploadSession (path : Bytes)
  | listFiles (rounds : ℕ)
  | redeemAccessToken (code : Bytes)
  | refreshAccessToken
  | ipfsPutFileFromBuffer (body cid : Bytes)
  | ipfsGetFileLength (cid : Bytes)

namespace ReplyHandler

def backend : ReplyHandler → Backend
  | ipfsPutFileFromBuffer _ _ | ipfsGetFileLength _ => .ipfs
  | _ => .oneDrive

/-- The function, with the value its caller sees. -/
def call : (handler : ReplyHandler) → M handler.backend.Connect ℤ
  | getFileInfo path query => do return resultCode (← OneDrive.getFileInfo path query)
  | createUploadSession path => do return resultCode (← OneDrive.createUploadSession path)
  | listFiles rounds => OneDrive.listFiles rounds
  | redeemAccessToken code => HiveSDK.redeemAccessToken code
  | refreshAccessToken => HiveSDK.refreshAccessToken
  | ipfsPutFileFromBuffer body cid => do return (← IPFS.putFileFromBuffer body cid).1
  | ipfsGetFileLength cid => do return (← IPFS.getFileLength cid).ssize

/-- What the function is called for. -/
def own : ReplyHandler → ReplyKind
  | getFileInfo _ query => .fileInfo query
  | createUploadSession _ => .uploadSession
  | listFiles _ => .page
  | redeemAccessToken _ | refreshAccessToken => .token
  | ipfsPutFileFromBuffer _ _ => .added
  | ipfsGetFileLength cid => .listed cid

/-- What the function takes the reply to a request for; `none` when it reads only the status. -/
def kindOf (handler : ReplyHandler) (request : HttpRequest) : Option ReplyKind :=
  match handler with
  | listFiles _ => some (if request.method = .post then .token else .page)
  | ipfsPutFileFromBuffer _ _ => if IPFS.addPath.isSuffixOf request.url then some .added else none
  | ipfsGetFileLength cid =>
    if IPFS.fileLsPath.isSuffixOf request.url then some (.listed cid) else none
  | handler => some handler.own

/-- The connection holds what the function needs to make its request at all: tokens, where it
uses them, and a URL that fits. -/
def Ready : (handler : ReplyHandler) → Thread handler.backend.Connect → Prop
  | getFileInfo path _, s => s.conn.token.accessToken.isSome ∧
    (OneDrive.itemUrl path []).length < MAX_URL_LEN
  | createUploadSession path, s => s.conn.token.accessToken.isSome ∧
    (OneDrive.itemUrl path OneDrive.sessionSuffix).length < MAX_URL_LEN
  | listFiles _, s => s.conn.token.Authorised
  | refreshAccessToken, s => s.conn.token.refreshToken.isSome
  | _, _ => True

/-- A run is handled: it returns a negative error, or a success that the replies account for. If
it does not return, no reply is to blame: none was received, and the connection could not have
been used. -/
def Handled (handler : ReplyHandler) (s : Thread handler.backend.Connect)
    (tr : List CallEvent) : Except Fault (ℤ × Thread handler.backend.Connect) → Prop
  | .ok (rc, _) => rc < 0 ∨ Succeeded handler.kindOf handler.own tr
  | .error _ => ¬handler.Ready s ∧ repliesBy handler.kindOf tr = []

/-- What the functions take for granted of the replies: an accepted one has a body, and for
`get_file_length` of IPFS it is complete. -/
def Assumed (handler : ReplyHandler) (tr : List CallEvent) : Prop :=
  match handler with
  | ipfsGetFileLength _ => LengthListed handler.kindOf tr
  | _ => AllReadable handler.kindOf tr

/-- What is known of a token request in terms of the replies read so far. -/
private theorem returned_of_tokenHandled {k : HttpRequest → Option ReplyKind}
    {s s' : Thread OneDriveConnect} {rc : ℤ} {past : List CallEvent}
    (h : TokenHandled k [] s rc s' past) : Returned k .token rc past := by
  cases h with
  | stored hnext _ =>
    obtain ⟨reply, hread, hdelivers⟩ := hnext
    exact returned_of_succeeded (succeeded_append (by simp) hdelivers hread)
  | refused hrc hnext =>
    rcases hnext with hsame | ⟨reply, hread, hreadable⟩
    · exact ⟨allReadable_of_nil hsame, .inl hrc⟩
    · exact ⟨allReadable_append (allReadable_of_nil rfl) hreadable hread, .inl hrc⟩

/-- A crash in the calls for the token is one for want of a token. -/
private theorem stopped_of_tokenFault {k : HttpRequest → Option ReplyKind} {absent ready : Prop}
    {past : List CallEvent} (habsent : absent → ¬ready) (h : TokenFault k [] absent past) :
    Stopped k ready past := by
  rcases h with ⟨reply, hread, hreadable⟩ | ⟨h, hsame⟩
  · exact .inl (not_allReadable hreadable hread)
  · exact .inr ⟨habsent h, hsame⟩

/-- How a run is left, for all functions but the length of a CID. -/
private theorem returned_of_call (handler : ReplyHandler) (s : Thread handler.backend.Connect)
    (hne : ∀ cid, handler ≠ .ipfsGetFileLength cid) :
    Script.wp record (fun _ => Stopped handler.kindOf (handler.Ready s)) handler.call
      (fun rc _ => Returned handler.kindOf handler.own rc) s [] := by
  cases handler with
  | getFileInfo path query =>
    exact Script.wp_bind.mpr (getFileInfo_replies path query s fun _ => rfl)
  | createUploadSession path =>
    exact Script.wp_bind.mpr (createUploadSession_replies path s fun _ => rfl)
  | listFiles rounds =>
    refine listFiles_replies (fun request hpost => ?_) (fun request hget => ?_) rounds s
    · simp only [kindOf, hpost, if_true]
    · simp [kindOf, hget]
  | redeemAccessToken code =>
    exact Script.wp_mono (redeemAccessToken_replies (fun _ _ => rfl) code)
      (fun _ _ h => stopped_of_tokenFault False.elim h) fun _ _ _ => returned_of_tokenHandled
  | refreshAccessToken =>
    refine Script.wp_mono (refreshAccessToken_replies fun _ _ => rfl)
      (fun _ _ h => stopped_of_tokenFault (fun habsent hready => ?_) h)
      fun _ _ _ => returned_of_tokenHandled
    simp only [Ready] at hready
    rw [habsent] at hready
    cases hready
  | ipfsPutFileFromBuffer body cid =>
    refine Script.wp_bind.mpr (putFileFromBuffer_replies (fun ip port => ?_)
      (fun ip port body => ?_) body cid)
    · have hversion := isSuffixOf_versionRequest (ascii "/api/v0/ad") (b := 100) (by decide) ip port
      exact if_neg (Bool.eq_false_iff.mp hversion)
    · exact if_pos (isSuffixOf_nodeUrl ip port IPFS.addPath)
  | ipfsGetFileLength cid => exact absurd rfl (hne cid)

/-- How a run is left that asks for the length of a CID. -/
private theorem listed_of_call (cid : Bytes) (s : Thread IPFSConnect) :
    Script.wp record (fun _ past => ¬LengthListed (ipfsGetFileLength cid).kindOf past)
      (call (ipfsGetFileLength cid))
      (fun rc _ past => (rc < 0 ∨ Succeeded (ipfsGetFileLength cid).kindOf (.listed cid) past) ↔
        LengthListed (ipfsGetFileLength cid).kindOf past) s [] := by
  refine Script.wp_bind.mpr (getFileLength_replies (fun ip port => ?_) fun ip port => ?_)
  · have hversion :=
      isSuffixOf_versionRequest (ascii "/api/v0/file/l") (b := 115) (by decide) ip port
    exact if_neg (Bool.eq_false_iff.mp hversion)
  · exact if_pos (isSuffixOf_nodeUrl ip port IPFS.fileLsPath)

end ReplyHandler

open ReplyHandler

/-- **What a server may reply.** A run of a function that parses replies is handled exactly when
every accepted reply it reads has a body; for the length of a CID the accepted reply must be
complete besides, and the client must be had, since the errors found there are returned as
lengths. -/
theorem handled_iff (handler : ReplyHandler) (s : Thread handler.backend.Connect)
    (tr : List CallEvent) (o : Except Fault (ℤ × Thread handler.backend.Connect))
    (hex : Program.Exec playback (handler.call s) tr o []) :
    handler.Handled s tr o ↔ handler.Assumed tr := by
  by_cases hlength : ∃ cid, handler = .ipfsGetFileLength cid
  · obtain ⟨cid, rfl⟩ := hlength
    have hends := (listed_of_call cid s).of_playback hex
    rw [List.nil_append] at hends
    match o, hends with
    | .ok _, hends => exact hends
    | .error _, hends => exact iff_of_false (fun h => h.1 trivial) hends
  · have hends := (returned_of_call handler s fun cid h => hlength ⟨cid, h⟩).of_playback hex
    rw [List.nil_append] at hends
    have hassumed : handler.Assumed tr ↔ AllReadable handler.kindOf tr := by
      cases handler with
      | ipfsGetFileLength cid => exact absurd ⟨cid, rfl⟩ hlength
      | _ => exact Iff.rfl
    rw [hassumed]
    match o, hends with
    | .ok _, ⟨hreadable, hreturned⟩ => exact iff_of_true hreturned hreadable
    | .error _, .inl hunread =>
      exact iff_of_false (fun h => hunread (allReadable_of_nil h.2)) hunread
    | .error _, .inr hstopped => exact iff_of_true hstopped (allReadable_of_nil hstopped.2)

/-! ### A reply without a body -/

open OneDrive

/-- The information request is accepted, and answered with `body`. -/
def answerInfo (body : Bytes) (_ : Unit) : (i : Call) → Option (i.Reply × Unit)
  | .httpClientPerform _ => some (.accepted [body] (some (.object [
      (sizeQuery, .number (.ofInt 3))])), ())
  | _ => none

/-- With an empty body the code goes through a `NULL` pointer. -/
theorem handled_not_always :
    ¬∀ (handler : ReplyHandler) (s : Thread handler.backend.Connect) (tr : List CallEvent)
      (o : Except Fault (ℤ × Thread handler.backend.Connect)),
      Program.Exec playback (handler.call s) tr o [] → handler.Handled s tr o := by
  intro h
  have hrun : ((ReplyHandler.call (.getFileInfo (ascii "/Files/a") sizeQuery) freshToken).runWith
      (answerInfo []) ()).map Prod.fst = some (.error .nullDereference) := rfl
  obtain ⟨tr, hexec⟩ := Program.exists_exec_of_runWith hrun
  have hready : ReplyHandler.Ready (.getFileInfo (ascii "/Files/a") sizeQuery) freshToken :=
    ⟨rfl, by decide⟩
  exact (h (.getFileInfo (ascii "/Files/a") sizeQuery) freshToken tr _ hexec).1 hready

/-- With a body that announces three bytes it returns. -/
theorem handled_iff_three : ∃ tr,
    Program.Exec playback (ReplyHandler.call (.getFileInfo (ascii "/Files/a") sizeQuery) freshToken)
      tr (.ok (0, freshToken)) [] ∧
    (ReplyHandler.Handled (.getFileInfo (ascii "/Files/a") sizeQuery) freshToken tr
        (.ok (0, freshToken)) ↔
      ReplyHandler.Assumed (.getFileInfo (ascii "/Files/a") sizeQuery) tr) := by
  have hrun : ((ReplyHandler.call (.getFileInfo (ascii "/Files/a") sizeQuery) freshToken).runWith
      (answerInfo (ascii "{}")) ()).map Prod.fst = some (.ok (0, freshToken)) := rfl
  obtain ⟨tr, hexec⟩ := Program.exists_exec_of_runWith hrun
  exact ⟨tr, hexec, handled_iff (.getFileInfo (ascii "/Files/a") sizeQuery) freshToken tr _ hexec⟩

end HiveSDK
