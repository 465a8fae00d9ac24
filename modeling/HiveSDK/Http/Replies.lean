import HiveSDK.IPFS.Nodes
import HiveSDK.OneDrive.Download
import HiveSDK.Token.Spec

/-!
# How the replies of the servers are handled

The functions that parse a reply test its status, move its body out of the client, parse it and
look for the fields they need. What a reply must hold is stated here once for each kind of reply
(`ReplyKind.Complete`), in terms of the document alone; the functions are compared with it.

A run is read forwards: `repliesBy kindOf past` are the replies received so far that the function
at hand reads, each with its kind. Everything but a request leaves them alone, so what is to be
shown of a function is what it does with the next reply.
-/

namespace HiveSDK

open Interaction C

/-! ### What a reply must hold -/

/-- The document has a string that is not empty at `key`. -/
def Json.HasText (json : Json) (key : Bytes) (Good : Bytes → Prop) : Prop :=
  ∃ text, text ≠ [] ∧ Good text ∧ json.getObjectItemCaseSensitive key = some (.string text)

/-- The document has a number at `key` that is no negative size. -/
def Json.HasSize (json : Json) (key : Bytes) : Prop :=
  ∃ d : Double, 0 ≤ d.toLong ∧ json.getObjectItemCaseSensitive key = some (.number d)

/-- The document has an object at `key`. -/
def Json.HasObject (json : Json) (key : Bytes) : Prop :=
  ∃ members, json.getObjectItemCaseSensitive key = some (.object members)

/-- An entry of a listing: it has a name, and it is a file or a folder and not both. -/
structure Json.ListEntry (item : Json) : Prop where
  name : item.HasText (ascii "name") fun _ => True
  kind : item.HasObject (ascii "file") ∧
      item.getObjectItemCaseSensitive (ascii "folder") = none ∨
    item.HasObject (ascii "folder") ∧ item.getObjectItemCaseSensitive (ascii "file") = none

/-- What a function expects of a reply. -/
inductive ReplyKind
  | token
  | fileInfo (query : Bytes)
  | uploadSession
  | page
  | added
  | listed (cid : Bytes)

/-- The document of a reply of this kind has all it must have. -/
def ReplyKind.Complete : ReplyKind → Json → Prop
  | token, json => ∃ tokenType accessToken refreshToken expiresIn,
    json.Grants tokenType accessToken refreshToken expiresIn
  | fileInfo query, json => (strstr query sizeQuery → json.HasSize sizeQuery) ∧
    (strstr query downloadUrlKey → json.HasText downloadUrlKey fun _ => True)
  | uploadSession, json => json.HasText (ascii "uploadUrl") fun url => url.length < MAX_URL_LEN
  | page, json => (∃ items,
      json.getObjectItemCaseSensitive (ascii "value") = some (.array items) ∧
        ∀ item ∈ items, item.ListEntry) ∧
    (json.getObjectItemCaseSensitive (ascii "@odata.nextLink") = none ∨
      json.HasText (ascii "@odata.nextLink") fun _ => True)
  | added, json => json.HasText (ascii "Hash") fun hash => hash.length ≤ 64
  | listed cid, json => ∃ objects item, item.HasSize (ascii "Size") ∧
    json.getObjectItemCaseSensitive (ascii "Objects") = some (.object objects) ∧
    (Json.object objects).getObjectItemCaseSensitive cid = some item

/-- The reply is accepted and its document is complete. -/
def HttpReply.Delivers (reply : HttpReply) (kind : ReplyKind) : Prop :=
  reply.answer = .ok HttpStatus_OK ∧ ∃ json, reply.document = some json ∧ kind.Complete json

/-- If the reply is accepted, it has a body. -/
def HttpReply.Readable (reply : HttpReply) : Prop :=
  reply.answer = .ok HttpStatus_OK → reply.received ≠ []

/-- A reply that delivers can be read. -/
theorem HttpReply.Delivers.readable {reply : HttpReply} {kind : ReplyKind}
    (h : reply.Delivers kind) : reply.Readable := by
  intro _ hempty
  obtain ⟨_, json, hdocument, _⟩ := h
  rw [HttpReply.document, if_pos hempty] at hdocument
  cases hdocument

/-- An accepted reply whose parsed body is complete delivers. -/
theorem HttpReply.delivers_of_parsed {reply : HttpReply} {kind : ReplyKind} {json : Json}
    (hanswer : reply.answer = .ok HttpStatus_OK) (hbody : reply.received ≠ [])
    (hparsed : reply.parsed = some json) (hcomplete : kind.Complete json) :
    reply.Delivers kind :=
  ⟨hanswer, json, by rw [HttpReply.document, if_neg hbody, hparsed], hcomplete⟩

/-- A reply that is no success has no body that must be read. -/
theorem HttpReply.readable_of_answer {reply : HttpReply} {status : Except ℤ ℕ}
    (hanswer : reply.answer = status) (hne : status ≠ .ok HttpStatus_OK) : reply.Readable :=
  fun h => (hne (hanswer.symm.trans h)).elim

/-! ### The tests of the code -/

/-- The test of the code for the information on a file is that for completeness. -/
theorem complete_of_fileInfoValid {query : Bytes} {json : Json}
    (h : OneDrive.fileInfoValid query json = true) : (ReplyKind.fileInfo query).Complete json := by
  unfold OneDrive.fileInfoValid at h
  rw [Bool.and_eq_true, Bool.or_eq_true, Bool.or_eq_true, Bool.not_eq_true',
    Bool.not_eq_true'] at h
  obtain ⟨hsize, hurl⟩ := h
  constructor
  · intro hquery
    rw [hquery] at hsize
    cases hnumber : Json.number? (json.getObjectItemCaseSensitive sizeQuery) with
    | none => simp [hnumber] at hsize
    | some d =>
      simp only [hnumber, decide_eq_true_eq, Bool.true_eq_false, false_or] at hsize
      exact ⟨d, hsize, Json.number?_eq_some.mp hnumber⟩
  · intro hquery
    rw [hquery] at hurl
    simp only [Bool.true_eq_false, false_or] at hurl
    obtain ⟨url, hurl⟩ := Option.isSome_iff_exists.mp hurl
    rw [Json.nonemptyString?_eq_some] at hurl
    exact ⟨url, hurl.1, trivial, hurl.2⟩

/-- So is its test for an item of a list. -/
theorem listEntry_of_listItemValid {item : Json} (h : OneDrive.listItemValid item = true) :
    item.ListEntry := by
  unfold OneDrive.listItemValid at h
  simp only [Bool.and_eq_true, Bool.or_eq_true, bne_iff_ne, ne_eq] at h
  obtain ⟨⟨⟨hname, hone⟩, hfile⟩, hfolder⟩ := h
  obtain ⟨name, hname⟩ := Option.isSome_iff_exists.mp hname
  rw [Json.nonemptyString?_eq_some] at hname
  refine ⟨⟨name, hname.1, trivial, hname.2⟩, ?_⟩
  have isObject (key : Bytes) (h : (Json.object? (item.getObjectItemCaseSensitive key)).isSome) :
      item.HasObject key := by
    obtain ⟨object, hobject⟩ := Option.isSome_iff_exists.mp h
    obtain ⟨members, rfl, hitem⟩ := Json.object?_eq_some.mp hobject
    exact ⟨members, hitem⟩
  cases hf : item.getObjectItemCaseSensitive (ascii "file") with
  | none =>
    -- what is not a file is a folder
    have hsome : ¬(item.getObjectItemCaseSensitive (ascii "folder")).isNone = true := by
      rw [hf] at hone
      simpa using hone
    exact .inr ⟨isObject _ (hfolder.resolve_left hsome), rfl⟩
  | some file =>
    have hnone : item.getObjectItemCaseSensitive (ascii "folder") = none := by
      rw [hf] at hone
      simpa using hone
    rw [hf] at hfile
    exact .inl ⟨isObject _ (hf ▸ hfile.resolve_left (by simp)), hnone⟩

/-- A page that has been merged holds valid items only. -/
theorem listItemValid_of_mergeArray {sub array merged : List Json}
    (h : OneDrive.mergeArray array sub = .ok merged) :
    ∀ item ∈ sub, OneDrive.listItemValid item = true := by
  induction sub generalizing array with
  | nil => simp
  | cons item sub ih =>
    unfold OneDrive.mergeArray at h
    split at h
    · rename_i hvalid
      intro item' hmem
      rcases List.mem_cons.mp hmem with rfl | hmem
      · exact hvalid
      · exact ih h item' hmem
    · cases h

/-- A page that cannot be merged is an error. -/
theorem mergeArray_neg {sub array : List Json} {rc : ℤ}
    (h : OneDrive.mergeArray array sub = .error rc) : rc < 0 := by
  induction sub generalizing array with
  | nil => cases h
  | cons item sub ih =>
    unfold OneDrive.mergeArray at h
    split at h
    · exact ih h
    · cases h
      exact toInt_hiveGeneralError_neg _

/-- So is a link that is no text. -/
theorem nextLink_neg {json : Json} {rc : ℤ} (h : OneDrive.nextLink json = .error rc) : rc < 0 := by
  unfold OneDrive.nextLink at h
  split at h
  · cases h
  · split at h
    · cases h
    · cases h
      exact toInt_hiveGeneralError_neg _

/-- What is accepted as the link of a page is no link at all, or a text. -/
theorem nextLink_complete {json : Json} {link : Option Bytes}
    (h : OneDrive.nextLink json = .ok link) :
    json.getObjectItemCaseSensitive (ascii "@odata.nextLink") = none ∨
      json.HasText (ascii "@odata.nextLink") fun _ => True := by
  unfold OneDrive.nextLink at h
  split at h
  · exact .inl ‹_›
  · rename_i item hitem
    split at h
    · rename_i url hurl
      rw [Json.nonemptyString?_eq_some] at hurl
      exact .inr ⟨url, hurl.1, trivial, hurl.2 ▸ hitem⟩
    · cases h

/-- The test of the code for a listed size is that for completeness. -/
theorem complete_of_listedSize {cid : Bytes} {json : Json} {size : ℤ}
    (h : IPFS.listedSize cid json = some size) :
    (ReplyKind.listed cid).Complete json ∧ 0 ≤ size := by
  unfold IPFS.listedSize at h
  split at h
  · cases h
  rename_i objects hobjects
  split at h
  · cases h
  rename_i item hitem
  split at h
  · cases h
  rename_i d hsize
  split at h
  · cases h
  rename_i hnonneg
  obtain rfl := Option.some.inj h
  obtain ⟨members, rfl, hobjects⟩ := Json.object?_eq_some.mp hobjects
  obtain ⟨_, rfl, hitem⟩ := Json.object?_eq_some.mp hitem
  exact ⟨⟨members, _, ⟨d, not_lt.mp hnonneg, Json.number?_eq_some.mp hsize⟩, hobjects, hitem⟩,
    not_lt.mp hnonneg⟩

/-- It rejects nothing that is complete. -/
theorem not_complete_of_listedSize {cid : Bytes} {json : Json}
    (h : IPFS.listedSize cid json = none) : ¬(ReplyKind.listed cid).Complete json := by
  rintro ⟨objects, item, ⟨d, hnonneg, hsize⟩, hobjects, hitem⟩
  unfold IPFS.listedSize at h
  rw [hobjects] at h
  simp only [Json.object?, hitem] at h
  cases item with
  | object members =>
    simp only [hsize, Json.number?] at h
    rw [if_neg (not_lt.mpr hnonneg)] at h
    cases h
  | _ => cases hsize

/-! ### The replies a function reads -/

/-- The reply of an event that is a request of a kind the function reads. -/
def CallEvent.replyBy? (kindOf : HttpRequest → Option ReplyKind) :
    CallEvent → Option (ReplyKind × HttpReply)
  | ⟨.httpClientPerform request, reply⟩ => (kindOf request).map (·, reply)
  | _ => none

/-- The replies a function reads, in order. -/
def repliesBy (kindOf : HttpRequest → Option ReplyKind) (past : List CallEvent) :
    List (ReplyKind × HttpReply) :=
  past.filterMap (CallEvent.replyBy? kindOf)

section RepliesBy

variable {kindOf : HttpRequest → Option ReplyKind} {past past' : List CallEvent}

@[simp] theorem repliesBy_nil : repliesBy kindOf [] = [] := rfl

/-- What a request adds to the replies read. -/
theorem repliesBy_request {request : HttpRequest} {kind : ReplyKind} {reply : HttpReply}
    (h : record past (.httpClientPerform request) reply past')
    (hkind : kindOf request = some kind) :
    repliesBy kindOf past' = repliesBy kindOf past ++ [(kind, reply)] := by
  simp only [record] at h
  subst h
  unfold repliesBy
  rw [List.filterMap_append]
  simp only [List.filterMap_cons, CallEvent.replyBy?, hkind, Option.map_some, List.filterMap_nil]

/-- No other call adds anything. -/
theorem repliesBy_recorded {P : Call → Prop}
    (hP : ∀ request, P (.httpClientPerform request) → kindOf request = none)
    (h : Recorded P past past') : repliesBy kindOf past' = repliesBy kindOf past := by
  obtain ⟨new, rfl, hnew⟩ := h
  have hnone : new.filterMap (CallEvent.replyBy? kindOf) = [] := by
    refine List.filterMap_eq_nil_iff.mpr fun e he => ?_
    have hcall := hnew e he
    obtain ⟨call, reply⟩ := e
    cases call with
    | httpClientPerform request => rw [CallEvent.replyBy?, hP request hcall, Option.map_none]
    | _ => rfl
  unfold repliesBy
  rw [List.filterMap_append, hnone, List.append_nil]

/-- Calls that send nothing bring no reply. -/
theorem repliesBy_offline {call : Call} {r : call.Reply} (h : record past call r past')
    (hcall : call.Offline) : repliesBy kindOf past' = repliesBy kindOf past := by
  simp only [record] at h
  refine repliesBy_recorded (P := Call.Offline) (fun request h => (h request rfl).elim)
    ⟨[⟨call, r⟩], h, ?_⟩
  simpa using hcall

end RepliesBy

/-! ### Token replies -/

section Token

variable {kindOf : HttpRequest → Option ReplyKind} {s : Thread OneDriveConnect}
  {past : List CallEvent}

/-- The next reply read is of this kind and satisfies `P`. -/
def NextReply (kindOf : HttpRequest → Option ReplyKind) (kind : ReplyKind)
    (P : HttpReply → Prop) (past past' : List CallEvent) : Prop :=
  ∃ reply, repliesBy kindOf past' = repliesBy kindOf past ++ [(kind, reply)] ∧ P reply

/-- Nothing has been read in between. -/
abbrev NoReply (kindOf : HttpRequest → Option ReplyKind) (past past' : List CallEvent) : Prop :=
  repliesBy kindOf past' = repliesBy kindOf past

/-- What a script that makes no request does to the replies read, next to all else that is known
of it. -/
private theorem wp_noReply (kindOf : HttpRequest → Option ReplyKind) {α : Type}
    {m : M OneDriveConnect α}
    {F : Fault → List CallEvent → Prop}
    {Q : α → Thread OneDriveConnect → List CallEvent → Prop}
    (hm : m.Within Call.Offline Fault.OfToken) (hwp : Script.wp record F m Q s past) :
    Script.wp record (fun e past' => F e past' ∧ NoReply kindOf past past') m
      (fun a s' past' => Q a s' past' ∧ NoReply kindOf past past') s past :=
  Script.wp_mono (Script.wp_recorded hm hwp)
    (fun _ _ h => ⟨h.1, repliesBy_recorded (fun request h => (h request rfl).elim) h.2.2⟩)
    fun _ _ _ h => ⟨h.1, repliesBy_recorded (fun request h => (h request rfl).elim) h.2⟩

/-- A token request is answered with what it must be answered with and the reply is stored, or it
is not and nothing changes; in either case an accepted reply has a body. -/
inductive TokenHandled (kindOf : HttpRequest → Option ReplyKind) (past : List CallEvent)
    (s : Thread OneDriveConnect) : ℤ → Thread OneDriveConnect → List CallEvent → Prop
  | stored {s' : Thread OneDriveConnect} {past' : List CallEvent}
      (hnext : NextReply kindOf .token (·.Delivers .token) past past')
      (hstored : TokensStored s s') : TokenHandled kindOf past s 0 s' past'
  | refused {rc : ℤ} {past' : List CallEvent} (hrc : rc < 0)
      (hnext : NoReply kindOf past past' ∨
        NextReply kindOf .token HttpReply.Readable past past') :
      TokenHandled kindOf past s rc s past'

/-- A fault while a token request is made: the accepted reply has no body, or nothing was
sent, because there is no refresh token. -/
def TokenFault (kindOf : HttpRequest → Option ReplyKind) (past : List CallEvent) (absent : Prop)
    (past' : List CallEvent) : Prop :=
  NextReply kindOf .token (¬HttpReply.Readable ·) past past' ∨ absent ∧ NoReply kindOf past past'

/-- What both token requests do with an accepted reply. -/
private theorem wp_decodeReply {absent : Prop} {reply : HttpReply} {past₁ : List CallEvent}
    (hanswer : reply.answer = .ok HttpStatus_OK)
    (hreply : repliesBy kindOf past₁ = repliesBy kindOf past ++ [(.token, reply)]) :
    Script.wp record (fun _ => TokenFault kindOf past absent)
      (moveAndParse reply >>= decodeAccessToken) (TokenHandled kindOf past s) s past₁ := by
  simp only [Script.wp_bind, wp_moveAndParse]
  refine ⟨fun hempty => .inl ⟨reply, hreply, fun h => h hanswer hempty⟩, fun hbody => ?_⟩
  refine Script.wp_mono (wp_noReply kindOf (decodeAccessToken_offline _).within
    (decodeAccessToken_granted _)) (fun _ _ h => h.1.elim) ?_
  rintro rc s' past' ⟨⟨rfl, hgranted⟩ | ⟨hneg, rfl⟩, hsame⟩
  · have hstored := hgranted.tokensStored
    obtain ⟨json, tokenType, accessToken, refreshToken, expiresIn, _, hparsed, hgrants, _⟩ :=
      hgranted
    exact .stored ⟨reply, hsame.trans hreply, HttpReply.delivers_of_parsed hanswer hbody hparsed
      ⟨tokenType, accessToken, refreshToken, expiresIn, hgrants⟩⟩ hstored
  · exact .refused hneg (.inr ⟨reply, hsame.trans hreply, fun _ => hbody⟩)

/-- The redeem of a code is one reply, handled as its status says. -/
theorem redeemAccessToken_replies (hkind : ∀ request, request.method = .post →
    kindOf request = some .token) (code : Bytes) :
    Script.wp record (fun _ => TokenFault kindOf past False) (redeemAccessToken code)
      (TokenHandled kindOf past s) s past := by
  unfold redeemAccessToken
  simp only [Script.wp_bind, Script.wp_get, Script.wp_pure, Script.wp_ask, Script.wp_ite]
  intro created past₀ hcreated
  replace hcreated : NoReply kindOf past past₀ := repliesBy_offline hcreated (by rintro _ ⟨⟩)
  refine ⟨fun _ => .refused (by simp) (.inl hcreated), fun _ => ?_⟩
  refine Script.wp_mono (wp_noReply kindOf (escapeFields_offline _ _ _).within
    (escapeFields_spec (F := noFault) _ _ (by rintro ⟨⟩))) (fun _ _ h => h.1.elim) ?_
  rintro fields s₁ past₁ ⟨rfl, hsame⟩
  have hnone : NoReply kindOf past past₁ := hsame.trans hcreated
  cases fields with
  | none => exact .refused (by simp) (.inl hnone)
  | some found =>
    obtain ⟨_, _, _⟩ := found
    simp only [Script.wp_bind, Script.wp_ask, Script.wp_ite, Script.wp_pure]
    refine ⟨fun _ => .refused (by simp) (.inl hnone), fun _ => ?_⟩
    intro reply past₂ hreply
    have hread := repliesBy_request hreply (hkind _ rfl)
    rw [hnone] at hread
    refine ⟨fun hfailed => .refused (by simp) (.inr ⟨reply, hread, fun h => ?_⟩), fun hperformed =>
      ⟨fun hstatus => .refused (by simp) (.inr ⟨reply, hread, fun h => ?_⟩), fun hstatus => ?_⟩⟩
    · exact (hfailed (HttpReply.answer_eq_ok.mp h).1).elim
    · obtain ⟨_, hinfo, hok⟩ := HttpReply.answer_eq_ok.mp h
      rw [if_pos hinfo] at hstatus
      exact (hstatus hok).elim
    · -- the status is that of the reply, since 200 is not the initial 0
      have hinfo : reply.info = 0 := by
        by_contra hne
        rw [if_neg hne] at hstatus
        exact hstatus (by decide)
      rw [if_pos hinfo, not_not] at hstatus
      rw [not_not] at hperformed
      exact Script.wp_bind.mp (wp_decodeReply
        (HttpReply.answer_eq_ok.mpr ⟨hperformed, hinfo, hstatus⟩) hread)

/-- So is a refresh. -/
theorem refreshAccessToken_replies (hkind : ∀ request, request.method = .post →
    kindOf request = some .token) :
    Script.wp record (fun _ => TokenFault kindOf past (s.conn.token.refreshToken = none))
      refreshAccessToken (TokenHandled kindOf past s) s past := by
  unfold refreshAccessToken
  simp only [Script.wp_bind, Script.wp_get, Script.wp_pure, Script.wp_ask, Script.wp_ite]
  intro created past₀ hcreated
  replace hcreated : NoReply kindOf past past₀ := repliesBy_offline hcreated (by rintro _ ⟨⟩)
  refine ⟨fun _ => .refused (by simp) (.inl hcreated), fun _ => ?_⟩
  refine Script.wp_mono (wp_noReply kindOf (escapeFields_offline _ _ _).within
    (escapeFields_spec (F := fun _ _ => s.conn.token.refreshToken = none) _ _ fun h _ => h))
    (fun _ _ h => .inr ⟨h.1, h.2.trans hcreated⟩) ?_
  rintro fields s₁ past₁ ⟨rfl, hsame⟩
  -- up to the request there is no reply
  have hnone : NoReply kindOf past past₁ := hsame.trans hcreated
  cases fields with
  | none => exact .refused (by simp) (.inl hnone)
  | some found =>
    obtain ⟨_, _, _⟩ := found
    simp only [Script.wp_bind, Script.wp_ask, Script.wp_ite, Script.wp_pure]
    refine ⟨fun _ => .refused (by simp) (.inl hnone), fun _ => ?_⟩
    intro reply past₂ hreply
    have hread := repliesBy_request hreply (hkind _ rfl)
    rw [hnone] at hread
    cases hanswer : reply.answer with
    | error e =>
      exact .refused (reply.toInt_answer_neg hanswer)
        (.inr ⟨reply, hread, HttpReply.readable_of_answer hanswer (by rintro ⟨⟩)⟩)
    | ok status =>
      simp only [Script.wp_bind, Script.wp_ite, Script.wp_pure]
      refine ⟨fun hstatus => .refused (by simp) (.inr ⟨reply, hread, HttpReply.readable_of_answer
        hanswer fun h => hstatus (Except.ok.inj h)⟩), fun hstatus => ?_⟩
      rw [not_not] at hstatus
      subst hstatus
      refine Script.wp_mono (Script.wp_bind.mp (wp_decodeReply hanswer hread))
        (fun _ _ h => h) fun json s₂ past₂ hdecode => ?_
      refine Script.wp_mono hdecode (fun _ _ h => h) fun rc s₃ past₃ hhandled => ?_
      cases hhandled with
      | stored hnext hstored =>
        refine ⟨fun h => absurd h (lt_irrefl 0), fun _ => ?_⟩
        refine Script.wp_mono (wp_noReply kindOf writebackTokens_offline.within
          (writebackTokens_spec (F := noFault) (.inl hstored.authorised)))
          (fun _ _ h => h.1.elim) ?_
        rintro _ _ past₄ ⟨rfl, hsame⟩
        obtain ⟨reply, hnext, hdelivers⟩ := hnext
        exact .stored ⟨reply, hsame.trans hnext, hdelivers⟩ hstored
      | refused hrc hnext => exact ⟨fun _ => .refused hrc hnext, fun h => absurd hrc h⟩

end Token

/-! ### How a function is left -/

section Handled

variable (kindOf : HttpRequest → Option ReplyKind)

/-- Every accepted reply that is read has a body. -/
def AllReadable (past : List CallEvent) : Prop := ∀ x ∈ repliesBy kindOf past, x.2.Readable

/-- The function has got the reply it is for, and all it has read is accepted and complete. -/
structure Succeeded (own : ReplyKind) (past : List CallEvent) : Prop where
  obtained : ∃ reply, (own, reply) ∈ repliesBy kindOf past
  delivered : ∀ x ∈ repliesBy kindOf past, x.2.Delivers x.1

/-- A return: a negative error, or a success that the replies account for. -/
def Returned (own : ReplyKind) (rc : ℤ) (past : List CallEvent) : Prop :=
  AllReadable kindOf past ∧ (rc < 0 ∨ Succeeded kindOf own past)

/-- A fault: an accepted reply without a body has been read, or the connection could not be used
and nothing has been read at all. -/
def Stopped (ready : Prop) (past : List CallEvent) : Prop :=
  ¬AllReadable kindOf past ∨ ¬ready ∧ repliesBy kindOf past = []

end Handled

section Handlers

variable {kindOf : HttpRequest → Option ReplyKind} {own kind : ReplyKind} {rc : ℤ}
  {past past' : List CallEvent} {reply : HttpReply}

/-- Without replies there is nothing to read. -/
theorem allReadable_of_nil (h : repliesBy kindOf past = []) : AllReadable kindOf past := by
  intro x hx
  rw [h] at hx
  cases hx

/-- Calls that bring no reply change nothing. -/
theorem AllReadable.of_noReply (h : AllReadable kindOf past) (hsame : NoReply kindOf past past') :
    AllReadable kindOf past' := by
  intro x hx
  rw [hsame] at hx
  exact h x hx

/-- One more reply that can be read. -/
theorem allReadable_append (hpast : AllReadable kindOf past) (hreply : reply.Readable)
    (h : repliesBy kindOf past' = repliesBy kindOf past ++ [(kind, reply)]) :
    AllReadable kindOf past' := by
  intro x hx
  rw [h, List.mem_append, List.mem_singleton] at hx
  rcases hx with hx | rfl
  · exact hpast x hx
  · exact hreply

/-- One reply that cannot be read is enough. -/
theorem not_allReadable (hreply : ¬reply.Readable)
    (h : repliesBy kindOf past' = repliesBy kindOf past ++ [(kind, reply)]) :
    ¬AllReadable kindOf past' :=
  fun hall => hreply (hall (kind, reply) (by simp [h]))

/-- After a success all replies could be read. -/
theorem Succeeded.allReadable (h : Succeeded kindOf own past) : AllReadable kindOf past :=
  fun x hx => (h.delivered x hx).readable

/-- The last reply delivers, after others that did. -/
theorem succeeded_append (hpast : ∀ x ∈ repliesBy kindOf past, x.2.Delivers x.1)
    (hreply : reply.Delivers own)
    (h : repliesBy kindOf past' = repliesBy kindOf past ++ [(own, reply)]) :
    Succeeded kindOf own past' := by
  refine ⟨⟨reply, by simp [h]⟩, fun x hx => ?_⟩
  rw [h, List.mem_append, List.mem_singleton] at hx
  rcases hx with hx | rfl
  · exact hpast x hx
  · exact hreply

/-- The only reply delivers. -/
theorem succeeded_of_single (hreply : reply.Delivers own)
    (h : repliesBy kindOf past = [(own, reply)]) : Succeeded kindOf own past := by
  refine ⟨⟨reply, by simp [h]⟩, fun x hx => ?_⟩
  rw [h, List.mem_singleton] at hx
  exact hx ▸ hreply

/-- A success allows any return value. -/
theorem returned_of_succeeded (h : Succeeded kindOf own past) : Returned kindOf own rc past :=
  ⟨h.allReadable, .inr h⟩

/-- The reply to a request that carries the bearer token: it is accepted and not yet parsed, or
an error is returned that is negative once it is an `int`. -/
theorem requestAuthorized_replies {F : Fault → List CallEvent → Prop} {request : HttpRequest}
    (hkind : kindOf request = some kind) (s : Thread OneDriveConnect) :
    Script.wp record F (OneDrive.requestAuthorized request [HttpStatus_OK])
      (fun r _ past' => match r with
        | .error e => toInt e < 0 ∧ NextReply kindOf kind HttpReply.Readable past past'
        | .ok reply => reply.answer = .ok HttpStatus_OK ∧
          repliesBy kindOf past' = repliesBy kindOf past ++ [(kind, reply)]) s past := by
  rw [OneDrive.wp_requestAuthorized]
  intro reply past' hreply
  have hread := repliesBy_request hreply hkind
  refine ⟨fun e he => ?_, fun hstatus => ?_, fun status hstatus _ =>
    ⟨fun hacc => ?_, fun hacc => ?_⟩⟩
  · exact ⟨reply.toInt_answer_neg he, reply, hread, HttpReply.readable_of_answer he nofun⟩
  · exact ⟨by simp, reply, hread, HttpReply.readable_of_answer hstatus (by simp [HttpStatus_OK,
      HttpStatus_Unauthorized])⟩
  · rw [List.mem_singleton] at hacc
    exact ⟨by simp, reply, hread, HttpReply.readable_of_answer hstatus fun h =>
      hacc (Except.ok.inj h)⟩
  · rw [List.mem_singleton] at hacc
    exact ⟨hstatus.trans (congrArg _ hacc), hread⟩

/-- What becomes of one accepted reply: the document in it is complete, or the function returns
an error. -/
theorem wp_parseReply {C α : Type} {ready : Prop} (code : α → ℤ) {f : Option Json → M C α}
    {s : Thread C} (hpast : ∀ x ∈ repliesBy kindOf past, x.2.Delivers x.1)
    (hanswer : reply.answer = .ok HttpStatus_OK)
    (hread : repliesBy kindOf past' = repliesBy kindOf past ++ [(own, reply)])
    (hf : Script.wp record (fun _ => Stopped kindOf ready) (f reply.parsed)
      (fun a _ past'' => past'' = past' ∧
        (code a < 0 ∨ ∃ json, reply.parsed = some json ∧ own.Complete json)) s past') :
    Script.wp record (fun _ => Stopped kindOf ready) (moveAndParse reply >>= f)
      (fun a _ => Returned kindOf own (code a)) s past' := by
  simp only [Script.wp_bind, wp_moveAndParse]
  refine ⟨fun hempty => .inl (not_allReadable (fun h => h hanswer hempty) hread), fun hbody => ?_⟩
  refine Script.wp_mono hf (fun _ _ h => h) ?_
  rintro rc _ _ ⟨rfl, hneg | ⟨json, hparsed, hcomplete⟩⟩
  · exact ⟨allReadable_append (fun x hx => (hpast x hx).readable) (fun _ => hbody) hread, .inl hneg⟩
  · exact returned_of_succeeded (succeeded_append hpast
      (HttpReply.delivers_of_parsed hanswer hbody hparsed hcomplete) hread)

end Handlers

end HiveSDK
