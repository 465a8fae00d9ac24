import HiveSDK.Interaction.Logged
import HiveSDK.Service.Spec

/-!
# The service behind a token that expires

The files are served as before, but the clock shows any time, a request may be answered 401, and
a refresh may be answered in any way by a server that is not the service. What a function has
learned is then a matter of what was asked before, so the environment keeps a log.

`oauth_token_check_expire` returns the error of a failed refresh through the channel by which its
callers learn that a file is absent: a refresh that is answered 404 looks like a missing file
(`Checked`).
-/

namespace HiveSDK

open Interaction C OneDrive

/-! ### The environment -/

/-- The request of a refresh: it carries no token. -/
def HttpRequest.ForToken (request : HttpRequest) : Prop :=
  request.method = .post ∧ request.headers = []

/-- The environment of the operations on a connection with any token. An error number is one of
the system's, which are less than 4096. -/
def Drive.expiring (S : Drive) : Handler Files Call Call.Reply
  | files, .httpClientPerform request, reply, files' =>
    S.Answers files request reply files' ∨ request.ForToken ∧ files' = files
  | files, .errno, e, files' => (0 ≤ e ∧ e < 4096) ∧ files' = files
  | files, _, _, files' => files' = files

/-- Nothing is uploaded, nothing is deleted, and the user is given no value. -/
def Call.Reading : Call → Prop
  | .httpClientPerform request => request.method ≠ .put ∧ request.method ≠ .delete
  | .valuesCallback _ _ => False
  | _ => True

/-- A request that gets or posts reads only. -/
private theorem reading_of_method {request : HttpRequest}
    (h : request.method = .get ∨ request.method = .post) :
    (Call.httpClientPerform request).Reading := by
  have hmethod : request.method ≠ .put ∧ request.method ≠ .delete := by
    rcases h with h | h <;> rw [h] <;> decide
  exact hmethod

/-- So do the calls for the token. -/
private theorem reading_of_forToken {call : Call} (h : call.ForToken) : call.Reading := by
  cases call with
  | httpClientPerform request => exact reading_of_method (.inr h.1)
  | valuesCallback => exact h
  | _ => trivial

/-- The content at `path` is uploaded, and the service has it. -/
def Uploaded (tr : List CallEvent) : Prop :=
  ∃ request reply, ⟨.httpClientPerform request, reply⟩ ∈ tr ∧ request.method = .put ∧ reply.Stored

/-- An upload over two stretches of a trace. -/
theorem uploaded_append {tr tr' : List CallEvent} :
    Uploaded (tr ++ tr') ↔ Uploaded tr ∨ Uploaded tr' := by
  simp only [Uploaded, List.mem_append, or_and_right, exists_or]

/-- Reading calls upload nothing. -/
theorem not_uploaded_of_reading {tr : List CallEvent} (h : ∀ e ∈ tr, e.1.Reading) :
    ¬Uploaded tr := by
  rintro ⟨request, reply, hmem, hput, -⟩
  exact (h _ hmem).1 hput

namespace Drive

variable {S : Drive} {files files' : Files}

/-- Only an upload or a deletion changes a file. -/
theorem Answers.unchanged {request : HttpRequest} {reply : HttpReply}
    (h : S.Answers files request reply files')
    (hmethod : request.method ≠ .put ∧ request.method ≠ .delete) : files' = files := by
  cases h with
  | upload => exact absurd rfl hmethod.1
  | session _ _ _ _ _ _ hurl => exact absurd hurl.1 hmethod.1
  | delete => exact absurd rfl hmethod.2
  | _ => rfl

/-- Reading calls leave the files as they are. -/
private theorem expiring_reading {call : Call} {r : call.Reply} (hcall : call.Reading)
    (h : S.expiring files call r files') : files' = files := by
  cases call with
  | httpClientPerform request =>
    rcases h with h | ⟨-, h⟩
    · exact h.unchanged hcall
    · exact h
  | errno => exact h.2
  | _ => exact h

/-- A request that carries the token goes to the service. -/
private theorem expiring_authorized {request : HttpRequest} {reply : HttpReply}
    (hrequest : request.Authorized)
    (h : S.expiring files (.httpClientPerform request) reply files') :
    S.Answers files request reply files' := by
  rcases h with h | ⟨⟨-, hnone⟩, -⟩
  · exact h
  · obtain ⟨token, htoken⟩ := hrequest
    rw [hnone] at htoken
    cases htoken

end Drive

/-! ### A refresh that is answered 404 -/

/-- Nothing more is asked for a refresh: a request is made, or a client that is not its own. -/
def Call.endsRefresh : Call → Bool
  | .httpClientPerform _ => true
  | .httpClientNew user => user ≠ .refreshAccessToken
  | _ => false

/-- The operation begins with a refresh, and that is answered 404. -/
def RefreshNotFound (tr : List CallEvent) : Prop :=
  ∃ request reply, tr.find? (fun e => e.1.endsRefresh) = some ⟨.httpClientPerform request, reply⟩ ∧
    reply.answer = .ok HttpStatus_NotFound

/-- The calls of a refresh up to its request. -/
def Call.BeforeRefresh (call : Call) : Prop := call.ForToken ∧ call.Offline

theorem ConfinedOffline.before {α : Type} {m : M OneDriveConnect α} (hm : ConfinedOffline m) :
    m.Within Call.BeforeRefresh Fault.OfToken :=
  fun s => (hm s.conn.keystorePath s rfl).within.mono (fun _ h => ⟨h.1.forToken, h.2⟩) fun _ h => h

/-- What comes before a refresh does not end one. -/
private theorem endsRefresh_of_before {call : Call} (h : call.BeforeRefresh) :
    call.endsRefresh = false := by
  cases call with
  | httpClientPerform request => exact absurd rfl (h.2 request)
  | httpClientNew user =>
    cases user with
    | refreshAccessToken => rfl
    | _ => exact h.1.elim
  | _ => rfl

section Traces

variable {new rest : List CallEvent} {request : HttpRequest} {reply : HttpReply}

/-- What comes before a refresh may be left out. -/
private theorem refreshNotFound_append (hnew : ∀ e ∈ new, e.1.BeforeRefresh) :
    RefreshNotFound (new ++ rest) ↔ RefreshNotFound rest := by
  have hnone : new.find? (fun e => e.1.endsRefresh) = none := by
    rw [List.find?_eq_none]
    intro e he
    rw [endsRefresh_of_before (hnew e he)]
    exact Bool.false_ne_true
  unfold RefreshNotFound
  rw [List.find?_append, hnone, Option.none_or]

private theorem refreshNotFound_perform :
    RefreshNotFound (⟨.httpClientPerform request, reply⟩ :: rest) ↔
      reply.answer = .ok HttpStatus_NotFound := by
  constructor
  · rintro ⟨request', reply', hfind, hanswer⟩
    cases Option.some.inj hfind
    exact hanswer
  · exact fun h => ⟨request, reply, rfl, h⟩

theorem not_refreshNotFound_nil : ¬RefreshNotFound [] := by
  rintro ⟨_, _, ⟨⟩, _⟩

private theorem not_refreshNotFound_client {user : HttpClientUser} {created : Bool}
    (huser : user ≠ .refreshAccessToken) :
    ¬RefreshNotFound (⟨.httpClientNew user, created⟩ :: rest) := by
  rintro ⟨_, _, hfind, -⟩
  have hends : (⟨.httpClientNew user, created⟩ : CallEvent).1.endsRefresh = true :=
    decide_eq_true huser
  have hfirst : (⟨.httpClientNew user, created⟩ :: rest : List CallEvent).find?
      (fun e => e.1.endsRefresh) = some ⟨.httpClientNew user, created⟩ :=
    List.find?_cons_of_pos hends
  rw [hfirst] at hfind
  cases hfind

end Traces

/-- The result of `oauth_token_check_expire` and the calls it has made: the token is valid, and
its caller goes on with a client of its own; a refresh is answered 404; or it fails otherwise. -/
inductive Checked (new : List CallEvent) : ℤ → Prop
  | valid (h : ∀ user created rest, user ≠ .refreshAccessToken →
      ¬RefreshNotFound (new ++ ⟨.httpClientNew user, created⟩ :: rest)) : Checked new 0
  | notFound {rc : ℤ} (hrc : Failed rc) (habsent : Absent rc)
      (h : ∀ rest, RefreshNotFound (new ++ rest)) : Checked new rc
  | failed {rc : ℤ} (hrc : Failed rc) (habsent : ¬Absent rc) (h : ¬RefreshNotFound new) :
      Checked new rc

/-- More calls of the same refresh before. -/
theorem Checked.before {new front : List CallEvent} {rc : ℤ} (h : Checked new rc)
    (hfront : ∀ e ∈ front, e.1.BeforeRefresh) : Checked (front ++ new) rc := by
  cases h with
  | valid h =>
    refine .valid fun user created rest huser => ?_
    rw [List.append_assoc, refreshNotFound_append hfront]
    exact h user created rest huser
  | notFound hrc habsent h =>
    refine .notFound hrc habsent fun rest => ?_
    rw [List.append_assoc, refreshNotFound_append hfront]
    exact h rest
  | failed hrc habsent h =>
    refine .failed hrc habsent ?_
    rwa [refreshNotFound_append hfront]

/-! ### The length that is read -/

/-- A client is made for `__get_file_length`. -/
def Call.asksLength : Call → Bool
  | .httpClientNew .getFileLength => true
  | _ => false

/-- The length of the file is asked for, and the document that is answered is accepted. -/
def LengthRead (tr : List CallEvent) : Prop :=
  ∃ request reply back, tr.dropWhile (fun e => !e.1.asksLength) =
      ⟨.httpClientNew .getFileLength, true⟩ :: ⟨.httpClientPerform request, reply⟩ :: back ∧
    (reply.fileInfo sizeQuery).isSome

section Traces

variable {new rest : List CallEvent} {request : HttpRequest} {reply : HttpReply}

private theorem lengthRead_append (hnew : ∀ e ∈ new, e.1.ForToken) :
    LengthRead (new ++ rest) ↔ LengthRead rest := by
  unfold LengthRead
  rw [List.dropWhile_append_of_pos]
  intro e he
  have htoken := hnew e he
  revert htoken
  cases e.1 with
  | httpClientNew user => cases user <;> intro h <;> first | rfl | exact h.elim
  | _ => exact fun _ => rfl

theorem not_lengthRead_nil : ¬LengthRead [] := by
  rintro ⟨_, _, _, ⟨⟩, _⟩

private theorem not_lengthRead_client :
    ¬LengthRead (⟨.httpClientNew .getFileLength, false⟩ :: rest) := by
  rintro ⟨_, _, _, hdrop, -⟩
  have hfirst : (⟨.httpClientNew .getFileLength, false⟩ :: rest : List CallEvent).dropWhile
      (fun e => !e.1.asksLength) = ⟨.httpClientNew .getFileLength, false⟩ :: rest := rfl
  rw [hfirst] at hdrop
  cases (List.cons.inj hdrop).1

private theorem lengthRead_exchange :
    LengthRead
      (⟨.httpClientNew .getFileLength, true⟩ :: ⟨.httpClientPerform request, reply⟩ :: rest) ↔
      (reply.fileInfo sizeQuery).isSome := by
  constructor
  · rintro ⟨request', reply', back, hdrop, hsome⟩
    have hfirst : (⟨.httpClientNew .getFileLength, true⟩ ::
        ⟨.httpClientPerform request, reply⟩ :: rest : List CallEvent).dropWhile
        (fun e => !e.1.asksLength) = ⟨.httpClientNew .getFileLength, true⟩ ::
          ⟨.httpClientPerform request, reply⟩ :: rest := rfl
    rw [hfirst] at hdrop
    cases (List.cons.inj (List.cons.inj hdrop).2).1
    exact hsome
  · exact fun h => ⟨request, reply, rest, rfl, h⟩

end Traces

/-- What `__get_file_length` returns for a file, by the calls it has made: an error that is not
taken for a 404; that of a refresh that was answered 404; the 404 of a file that is absent; the
memory for the client is missing; or the length of the file. -/
inductive Measured (files : Files) (path : Bytes) (new : List CallEvent) : Exit → Prop
  | refused {rc : ℤ} (hrc : Failed rc) (habsent : ¬Absent rc) (hrefresh : ¬RefreshNotFound new)
    (hread : ¬LengthRead new) : Measured files path new (.ret rc)
  | mistaken {rc : ℤ} (hrc : Failed rc) (habsent : Absent rc)
    (hrefresh : ∀ rest, RefreshNotFound (new ++ rest)) : Measured files path new (.ret rc)
  | missing {rc : ℤ} (hrc : Failed rc) (habsent : Absent rc) (hfile : files path = none) :
    Measured files path new (.ret rc)
  | outOfMemory (hrefresh : ∀ rest, ¬RefreshNotFound (new ++ rest))
    (hread : ∀ rest, ¬LengthRead (new ++ rest)) :
    Measured files path new (.err (hiveGeneralError HIVEERR_OUT_OF_MEMORY))
  | measured {content : Bytes} (hfile : files path = some content)
      (hlength : content.length < 2 ^ 63)
    (hrefresh : ∀ rest, ¬RefreshNotFound (new ++ rest)) (hread : ∀ rest, LengthRead (new ++ rest)) :
    Measured files path new (.ret content.length)

/-- A reply without the code of a 404 is not one, however it is reported. -/
private theorem not_absent_hiveSysError {e : ℤ} (h₀ : 0 ≤ e) (h₁ : e < 4096) :
    ¬Absent (toInt (hiveSysError e)) := by
  obtain ⟨n, rfl⟩ := Int.eq_ofNat_of_zero_le h₀
  unfold Absent hiveSysError
  rw [toUInt_toInt_hiveMkError (by decide), hiveMkError_eq (by decide) (by omega),
    hiveHttpStatusError_notFound]
  simp only [HIVEF_SYS]
  omega

section Spec

variable {S : Drive} {s : Thread OneDriveConnect} {w : Files × List CallEvent}

/-- What is known of a script that reads: no file changes, and its calls are in the log. -/
theorem wp_reading {α : Type} {m : M OneDriveConnect α} {P : Call → Prop} {E : Fault → Prop}
    (hm : m.Within P E) (hP : ∀ call, P call → call.Reading) :
    Script.wp (logged S.expiring) anyFault m
      (fun _ _ w' => w'.1 = w.1 ∧ Recorded P w.2 w'.2) s w :=
  Script.wp_mono
    (Script.wp_and
      (Script.wp_logged (hm.wp_unchanged fun _ _ _ _ hcall => Drive.expiring_reading (hP _ hcall)))
      (Script.wp_logged_of_record (Script.wp_recorded hm Script.wp_true)))
    (fun _ _ _ => trivial) fun _ _ _ h => ⟨h.1, h.2.2⟩

/-- A token reply that is refused is not taken for a 404. -/
private theorem decodeAccessToken_errors (json : Option Json) {files : Files} :
    Script.wp S.expiring anyFault (decodeAccessToken json)
      (fun rc _ _ => rc = 0 ∨ Failed rc ∧ ¬Absent rc) s files := by
  have hjson : ¬Absent (toInt (hiveGeneralError HIVEERR_BAD_JSON_FORMAT)) :=
    not_absent_hiveGeneralError (by decide)
  have hbad : Failed (toInt (hiveGeneralError HIVEERR_BAD_JSON_FORMAT)) :=
    failed_toInt (toInt_hiveGeneralError_neg _)
  have refused {e : ℤ} {files₁ : Files} (he : Failed e) (habsent : ¬Absent e) :
      Script.wp S.expiring anyFault (pure e : M OneDriveConnect ℤ)
        (fun rc _ _ => rc = 0 ∨ Failed rc ∧ ¬Absent rc) s files₁ := .inr ⟨he, habsent⟩
  -- a failed allocation leaves an `errno`, which is no "absent" error
  have allocated {size : ℕ} {rest : M OneDriveConnect ℤ} {files₁ : Files}
      (hrest : ∀ files₂, Script.wp S.expiring anyFault rest
        (fun rc _ _ => rc = 0 ∨ Failed rc ∧ ¬Absent rc) s files₂) :
      Script.wp S.expiring anyFault (do
        if !(← malloc size) then
          return toInt (hiveSysError (← errno))
        rest) (fun rc _ _ => rc = 0 ∨ Failed rc ∧ ¬Absent rc) s files₁ := by
    simp only [Script.wp_bind, Script.wp_ask, Script.wp_ite, Script.wp_pure]
    intro made files₂ _
    refine ⟨fun _ e files₃ herrno => ?_, fun _ => hrest files₂⟩
    exact .inr ⟨failed_toInt (toInt_hiveSysError_neg e),
      not_absent_hiveSysError herrno.1.1 herrno.1.2⟩
  unfold decodeAccessToken
  split
  · exact refused hbad hjson
  split
  · exact refused hbad hjson
  refine allocated fun files₁ => ?_
  split
  · exact refused hbad hjson
  split
  · exact refused hbad hjson
  refine allocated fun files₂ => ?_
  split
  · exact refused hbad hjson
  refine allocated fun files₃ => ?_
  split
  · exact refused hbad hjson
  simp only [Script.wp_ite, Script.wp_bind, Script.wp_ask, Script.wp_modify, Script.wp_pure]
  exact ⟨fun _ => .inr ⟨hbad, hjson⟩, fun _ _ _ _ => .inl trivial⟩

/-- How a refresh ends, by what it has asked. -/
private theorem refreshAccessToken_checked :
    Script.wp (logged S.expiring) anyFault refreshAccessToken
      (fun rc _ w' => ∃ new, w'.2 = w.2 ++ new ∧ Checked new rc) s w := by
  -- before the request nothing can say that the token endpoint is absent
  have quiet {rc : ℤ} {new : List CallEvent} (hrc : Failed rc) (habsent : ¬Absent rc)
      (hnew : ∀ e ∈ new, e.1.BeforeRefresh) : Checked new rc := by
    refine .failed hrc habsent ?_
    rw [← List.append_nil new]
    exact (refreshNotFound_append hnew).not.mpr not_refreshNotFound_nil
  have hclient (created : Bool) :
      ∀ e ∈ [(⟨.httpClientNew .refreshAccessToken, created⟩ : CallEvent)], e.1.BeforeRefresh := by
    intro e he
    rw [List.mem_singleton] at he
    subst he
    exact ⟨trivial, by rintro _ ⟨⟩⟩
  have hmemory : ¬Absent (toInt (hiveGeneralError HIVEERR_OUT_OF_MEMORY)) :=
    not_absent_hiveGeneralError (by decide)
  have general (code : ℤ) : Failed (toInt (hiveGeneralError code)) :=
    failed_toInt (toInt_hiveGeneralError_neg code)
  unfold refreshAccessToken
  simp only [Script.wp_bind, Script.wp_get, Script.wp_pure, Script.wp_ask, Script.wp_ite]
  rintro created ⟨files₁, log₁⟩ ⟨-, rfl⟩
  refine ⟨fun _ => ⟨_, rfl, quiet (general _) hmemory (hclient created)⟩, fun _ => ?_⟩
  refine Script.wp_mono (wp_reading (escapeFields_offline _ _ _).before fun _ h =>
    reading_of_forToken h.1) (fun _ _ h => h) ?_
  rintro fields s₂ ⟨files₂, _⟩ ⟨-, escapes, rfl, hescapes⟩
  generalize hasked :
    [(⟨.httpClientNew .refreshAccessToken, created⟩ : CallEvent)] ++ escapes = asked
  have hbefore : ∀ e ∈ asked, e.1.BeforeRefresh := by
    rw [← hasked]
    exact List.forall_mem_append.mpr ⟨hclient created, hescapes⟩
  simp only [List.append_assoc, hasked]
  cases fields with
  | none =>
    simp only [Script.wp_pure]
    exact ⟨asked, rfl, quiet (general _) hmemory hbefore⟩
  | some found =>
  obtain ⟨clientId, redirectUri, refreshToken⟩ := found
  simp only [Script.wp_bind, Script.wp_ask, Script.wp_ite, Script.wp_pure]
  have hsize : ¬Absent (toInt (hiveGeneralError HIVEERR_BUFFER_TOO_SMALL)) :=
    not_absent_hiveGeneralError (by decide)
  refine ⟨fun _ => ⟨asked, rfl, quiet (general _) hsize hbefore⟩, fun _ => ?_⟩
  rintro reply ⟨files₃, _⟩ ⟨-, rfl⟩
  rw [List.append_assoc]
  -- the reply to the request is what decides, whatever comes after it
  have hfirst (rest : List CallEvent) : RefreshNotFound (asked ++ [⟨.httpClientPerform
      { method := .post, url := s.conn.token.tokenUrl,
        body := refreshBody clientId redirectUri refreshToken }, reply⟩] ++ rest) ↔
      reply.answer = .ok HttpStatus_NotFound := by
    rw [List.append_assoc, refreshNotFound_append hbefore]
    exact refreshNotFound_perform
  have failed {rc : ℤ} (hrc : Failed rc) (habsent : ¬Absent rc)
      (hanswer : reply.answer ≠ .ok HttpStatus_NotFound) (more : List CallEvent) :
      Checked (asked ++ [⟨.httpClientPerform
        { method := .post, url := s.conn.token.tokenUrl,
          body := refreshBody clientId redirectUri refreshToken }, reply⟩] ++ more) rc :=
    .failed hrc habsent ((hfirst more).not.mpr hanswer)
  generalize ([⟨.httpClientPerform
    { method := .post, url := s.conn.token.tokenUrl,
      body := refreshBody clientId redirectUri refreshToken }, reply⟩] : List CallEvent) = exchange
    at hfirst failed ⊢
  cases hanswer : reply.answer with
  | error e =>
    refine ⟨asked ++ exchange, rfl, ?_⟩
    have hchecked := failed (failed_toInt (reply.toInt_answer_neg hanswer))
      (HttpReply.not_absent_of_error hanswer) (by rw [hanswer]; rintro ⟨⟩) []
    rwa [List.append_nil] at hchecked
  | ok status =>
  have hsplit (more : List CallEvent) : w.2 ++ (asked ++ exchange) ++ more =
      w.2 ++ (asked ++ exchange ++ more) := List.append_assoc _ _ _
  simp only [Script.wp_bind, Script.wp_ite, Script.wp_pure, wp_moveAndParse]
  refine ⟨fun hstatus => ⟨asked ++ exchange, rfl, ?_⟩, fun hstatus =>
    ⟨fun _ => trivial, fun _ => ?_⟩⟩
  · have hrc : Failed (toInt (hiveHttpStatusError status)) :=
      failed_toInt (toInt_hiveHttpStatusError_neg _)
    -- a status that is not accepted; 404 is the one that reads as an absent file
    by_cases hmissing : status = HttpStatus_NotFound
    · refine .notFound hrc ((HttpReply.absent_iff hanswer).mpr hmissing) fun rest => ?_
      rw [hfirst, hanswer, hmissing]
    · have hchecked := failed hrc ((HttpReply.absent_iff hanswer).not.mpr hmissing)
        (by rw [hanswer]; exact fun h => hmissing (Except.ok.inj h)) []
      rwa [List.append_nil] at hchecked
  have hother : reply.answer ≠ .ok HttpStatus_NotFound := by
    rw [hanswer, not_not.mp hstatus]
    decide
  -- the reply is accepted: what is left are its document and the keystore
  refine Script.wp_mono (Script.wp_and (Script.wp_logged (decodeAccessToken_errors _))
    (wp_reading (decodeAccessToken_within _) fun _ => reading_of_forToken))
    (fun _ _ _ => trivial) ?_
  rintro rc s₄ ⟨files₄, _⟩ ⟨hrc, -, more, rfl, -⟩
  rw [hsplit]
  refine ⟨fun hneg => ⟨asked ++ exchange ++ more, rfl, ?_⟩, fun hnonneg => ?_⟩
  · rcases hrc with rfl | ⟨hrc, habsent⟩
    · exact absurd hneg (lt_irrefl 0)
    · exact failed hrc habsent hother more
  · refine Script.wp_mono (wp_reading writebackTokens_within fun _ => reading_of_forToken)
      (fun _ _ h => h) ?_
    rintro _ s₅ ⟨files₅, _⟩ ⟨-, written, rfl, -⟩
    refine ⟨asked ++ exchange ++ more ++ written, List.append_assoc _ _ _, ?_⟩
    refine .valid fun user created rest _ => ?_
    rw [List.append_assoc, List.append_assoc, hfirst]
    exact hother

/-- How the check of the token ends. -/
private theorem oauthTokenCheckExpire_checked :
    Script.wp (logged S.expiring) anyFault oauthTokenCheckExpire
      (fun rc _ w' => w'.1 = w.1 ∧ ∃ new, w'.2 = w.2 ++ new ∧
        (∀ e ∈ new, e.1.ForToken) ∧ Checked new rc) s w := by
  have hchecked : Script.wp (logged S.expiring) anyFault oauthTokenCheckExpire
      (fun rc _ w' => ∃ new, w'.2 = w.2 ++ new ∧ Checked new rc) s w := by
    unfold oauthTokenCheckExpire
    simp only [Script.wp_bind, wp_oauthTokenIsExpired, Script.wp_ite, Script.wp_pure]
    rintro now ⟨files₁, _⟩ ⟨-, rfl⟩
    have hclock : ∀ e ∈ [(⟨.gettimeofday, now⟩ : CallEvent)], e.1.BeforeRefresh := by
      intro e he
      rw [List.mem_singleton] at he
      subst he
      exact ⟨trivial, by rintro _ ⟨⟩⟩
    refine ⟨fun _ => ⟨_, rfl, .valid fun user created rest huser => ?_⟩, fun _ => ?_⟩
    · rw [refreshNotFound_append hclock]
      exact not_refreshNotFound_client huser
    refine Script.wp_mono refreshAccessToken_checked (fun _ _ h => h) ?_
    rintro rc s₂ ⟨files₂, _⟩ ⟨new, rfl, hnew⟩
    have hall := hnew.before hclock
    refine ⟨fun _ => ⟨_, List.append_assoc _ _ _, hall⟩, fun hnonneg => ?_⟩
    cases hnew with
    | valid h => exact ⟨_, List.append_assoc _ _ _, hall⟩
    | notFound hrc _ _ => exact absurd hrc.neg hnonneg
    | failed hrc _ _ => exact absurd hrc.neg hnonneg
  refine Script.wp_mono (Script.wp_and hchecked
    (wp_reading oauthTokenCheckExpire_within fun _ => reading_of_forToken))
    (fun _ _ _ => trivial) ?_
  rintro rc s₁ w₁ ⟨⟨new, hnew, hchecked⟩, hfiles, new', hnew', hforToken⟩
  obtain rfl := List.append_cancel_left (hnew.symm.trans hnew')
  exact ⟨hfiles, new, hnew, hforToken, hchecked⟩

/-! ### Requests that carry the token -/

/-- How a request that carries the token ends, whatever becomes of the token: accepted, or refused
with an error that is a 404 only if the answer is. -/
private theorem requestAuthorized_expiring {request : HttpRequest} {accepted : List ℕ}
    (hrequest : request.Authorized) (hunauthorized : HttpStatus_Unauthorized ∉ accepted)
    {Q : Except ℤ HttpReply → Thread OneDriveConnect → Files × List CallEvent → Prop}
    (haccepted : ∀ reply files, S.Answers w.1 request reply files →
      ∀ status ∈ accepted, reply.answer = .ok status →
        Q (.ok reply) s (files, w.2 ++ [⟨.httpClientPerform request, reply⟩]))
    (hrefused : ∀ reply files s', S.Answers w.1 request reply files →
      (∀ status ∈ accepted, reply.answer ≠ .ok status) → ∀ e, toInt e < 0 →
        (Absent (toInt e) → reply.answer = .ok HttpStatus_NotFound) →
          Q (.error e) s' (files, w.2 ++ [⟨.httpClientPerform request, reply⟩])) :
    Script.wp (logged S.expiring) anyFault (requestAuthorized request accepted) Q s w := by
  rw [wp_requestAuthorized]
  rintro reply ⟨files, _⟩ ⟨hserved, rfl⟩
  have hanswer := Drive.expiring_authorized hrequest hserved
  refine ⟨fun e he => ?_, fun h => ?_, fun status hstatus _ => ⟨fun hnot => ?_, fun hmem => ?_⟩⟩
  · refine hrefused reply files s hanswer (by simp [he]) e
      (reply.toInt_answer_neg he) fun habs => ?_
    exact absurd habs (HttpReply.not_absent_of_error he)
  · refine hrefused reply files _ hanswer ?_ _ (toInt_hiveGeneralError_neg _) fun habs => ?_
    · rintro status hmem hok
      cases h.symm.trans hok
      exact hunauthorized hmem
    · exact absurd habs (not_absent_hiveGeneralError (by decide))
  · refine hrefused reply files s hanswer ?_ _ (toInt_hiveHttpStatusError_neg _) fun habs => ?_
    · rintro status' hmem hok
      cases hstatus.symm.trans hok
      exact hnot hmem
    · rw [hstatus, (HttpReply.absent_iff hstatus).mp habs]
  · exact haccepted reply files hanswer status hmem hstatus

/-- What a request for information says, and what of it is accepted. -/
private theorem getFileInfo_expiring (path query : Bytes) :
    Script.wp (logged S.expiring) anyFault (getFileInfo path query)
      (fun r _ w' => w'.1 = w.1 ∧ ∃ request reply,
        w'.2 = w.2 ++ [⟨.httpClientPerform request, reply⟩] ∧ match r with
          | .error rc => Failed rc ∧ reply.fileInfo query = none ∧ (Absent rc → w.1 path = none)
          | .ok json => reply.fileInfo query = some json ∧
            ∃ content, w.1 path = some content ∧ S.Describes path content json) s w := by
  have refused {reply : HttpReply} (h : ∀ json, reply.fileInfo query ≠ some json) :
      reply.fileInfo query = none := Option.eq_none_iff_forall_ne_some.mpr h
  unfold getFileInfo
  simp only [Script.wp_bind, wp_sprintfUrl, wp_getBearerToken]
  refine ⟨fun _ => ⟨fun token _ => ?_, fun _ => trivial⟩, fun _ => trivial⟩
  refine requestAuthorized_expiring ⟨token, by simp [fileInfoRequest]⟩ (by decide) ?_ ?_
  · -- status 200: the file is there, and the reply describes it unless its body is unreadable
    intro reply files hanswer status hmem hstatus
    obtain ⟨rfl, hfound, -⟩ := hanswer.of_info
    rw [List.mem_singleton] at hmem
    subst hmem
    obtain ⟨content, hcontent, hdescribes⟩ := hfound hstatus
    simp only [Script.wp_bind, wp_moveAndParse]
    refine ⟨fun _ => trivial, fun hreceived => ?_⟩
    cases hparsed : reply.parsed with
    | none =>
      refine ⟨rfl, _, reply, rfl, failed_toInt (by simp), refused fun json hjson => ?_, fun h => ?_⟩
      · rw [(HttpReply.fileInfo_eq_some.mp hjson).2.2.1] at hparsed
        cases hparsed
      · exact absurd h (not_absent_hiveGeneralError (by decide))
    | some json =>
      simp only [Script.wp_ite, Script.wp_pure, Bool.not_eq_true', Bool.not_eq_false]
      refine ⟨fun hbad => ⟨trivial, _, reply, rfl, failed_toInt (by simp),
        refused fun json' hjson => ?_, fun h => ?_⟩, fun hvalid => ⟨trivial, _, reply, rfl, ?_,
          content, hcontent, hdescribes json hparsed⟩⟩
      · obtain ⟨-, -, hparsed', hvalid⟩ := HttpReply.fileInfo_eq_some.mp hjson
        cases hparsed.symm.trans hparsed'
        rw [hbad] at hvalid
        cases hvalid
      · exact absurd h (not_absent_hiveGeneralError (by decide))
      · exact HttpReply.fileInfo_eq_some.mpr ⟨hstatus, hreceived, hparsed, hvalid⟩
  · -- any other status is an error, and a 404 says that the file is not there
    intro reply files s' hanswer hnot e he habs
    obtain ⟨rfl, -, habsent⟩ := hanswer.of_info
    refine ⟨rfl, _, reply, rfl, failed_toInt he, refused fun json hjson => ?_,
      fun h => habsent (habs h)⟩
    exact hnot _ (List.mem_singleton_self _) (HttpReply.fileInfo_eq_some.mp hjson).1

/-- Within the calls that read. -/
abbrev ReadsOnly {α : Type} (m : M OneDriveConnect α) : Prop := m.Within Call.Reading fun _ => True

private theorem getFileInfo_reads (path query : Bytes) : ReadsOnly (getFileInfo path query) :=
  getFileInfo_within (fun _ => reading_of_method (.inl rfl)) trivial trivial

private theorem downloadFile_reads (url block : Bytes) : ReadsOnly (downloadFile url block) :=
  downloadFile_within (reading_of_method (.inl rfl)) trivial block

/-- What the functions have in common that read a file: the token is checked first, and then a
client is made. -/
private theorem reads_of_checkExpire {α : Type} {f : ℤ → M OneDriveConnect α}
    (hf : ∀ rc, ReadsOnly (f rc)) : ReadsOnly (oauthTokenCheckExpire >>= f) :=
  .bind (oauthTokenCheckExpire_within.mono (fun _ => reading_of_forToken) fun _ _ => trivial) hf

theorem getFileLengthAt_reads (path : Bytes) : ReadsOnly (getFileLengthAt path) := by
  refine reads_of_checkExpire fun rc => .ite (.pure _) (.bind (.ask trivial) fun created => ?_)
  refine .ite (.pure _) (.bind (getFileInfo_reads path sizeQuery) fun info => ?_)
  split
  · exact .pure _
  split
  · exact .fault trivial
  · exact .pure _

private theorem getFileToBufferAt_reads (path block : Bytes) (buflen : ℕ) :
    ReadsOnly (getFileToBufferAt path block buflen) := by
  refine reads_of_checkExpire fun rc => .ite (.pure _) (.bind (.ask trivial) fun created => ?_)
  refine .ite (.pure _) (.bind (getFileInfo_reads path sizeAndUrlQuery) fun info => ?_)
  split
  · exact .pure _
  split
  · split
    · exact .pure _
    refine .ite (.pure _) (.bind (downloadFile_reads _ block) fun r => ?_)
    exact .ite (.pure _) (.pure _)
  · exact .fault trivial

/-- The length of a file is asked for. -/
theorem getFileLengthAt_expiring (path : Bytes) :
    Script.wp (logged S.expiring) anyFault (getFileLengthAt path)
      (fun exit _ w' => w'.1 = w.1 ∧ ∃ new, w'.2 = w.2 ++ new ∧
        Measured w.1 path new exit) s w := by
  unfold getFileLengthAt
  simp only [Script.wp_bind, Script.wp_ite, Script.wp_pure, Script.wp_ask]
  refine Script.wp_mono oauthTokenCheckExpire_checked (fun _ _ h => h) ?_
  rintro rc s₁ ⟨_, _⟩ ⟨rfl, check, rfl, hforToken, hchecked⟩
  refine ⟨fun hneg => ⟨rfl, check, rfl, ?_⟩, fun hnonneg => ?_⟩
  · cases hchecked with
    | valid => exact absurd hneg (lt_irrefl 0)
    | notFound hrc habsent h => exact .mistaken hrc habsent h
    | failed hrc habsent h =>
      refine .refused hrc habsent h ?_
      rw [← List.append_nil check]
      exact (lengthRead_append hforToken).not.mpr not_lengthRead_nil
  have hrefresh (created : Bool) (rest : List CallEvent) :
      ¬RefreshNotFound (check ++ [⟨.httpClientNew .getFileLength, created⟩] ++ rest) := by
    rw [List.append_assoc]
    cases hchecked with
    | valid h => exact h _ _ _ (by decide)
    | notFound hrc _ _ => exact absurd hrc.neg hnonneg
    | failed hrc _ _ => exact absurd hrc.neg hnonneg
  rintro created ⟨_, _⟩ ⟨rfl, rfl⟩
  refine ⟨fun hcreated => ⟨rfl, _, List.append_assoc _ _ _, ?_⟩, fun hcreated => ?_⟩
  · obtain rfl : created = false := by simpa using hcreated
    refine .outOfMemory (hrefresh false) fun rest => ?_
    rw [List.append_assoc, lengthRead_append hforToken]
    exact not_lengthRead_client
  obtain rfl : created = true := by simpa using hcreated
  refine Script.wp_mono (getFileInfo_expiring path sizeQuery) (fun _ _ h => h) ?_
  rintro r s₂ ⟨_, _⟩ ⟨rfl, request, reply, rfl, hinfo⟩
  -- the calls, and what they say of the length
  generalize hnew : check ++ [⟨.httpClientNew .getFileLength, true⟩] ++
    [⟨.httpClientPerform request, reply⟩] = new
  have hlog : w.2 ++ check ++ [⟨.httpClientNew .getFileLength, true⟩] ++
      [⟨.httpClientPerform request, reply⟩] = w.2 ++ new := by
    simp only [← hnew, List.append_assoc]
  have hrefresh' (rest : List CallEvent) : ¬RefreshNotFound (new ++ rest) := by
    rw [← hnew, List.append_assoc]
    exact hrefresh true _
  have hread (rest : List CallEvent) :
      LengthRead (new ++ rest) ↔ (reply.fileInfo sizeQuery).isSome := by
    rw [← hnew, List.append_assoc, List.append_assoc, lengthRead_append hforToken]
    exact lengthRead_exchange
  cases r with
  | error rc =>
    obtain ⟨hrc, hnone, hmissing⟩ := hinfo
    refine ⟨rfl, new, hlog, ?_⟩
    by_cases habsent : Absent rc
    · exact .missing hrc habsent (hmissing habsent)
    · have hstart := hrefresh' []
      have hunread := (hread []).not.mpr (by rw [hnone]; exact Bool.false_ne_true)
      rw [List.append_nil] at hstart hunread
      exact .refused hrc habsent hstart hunread
  | ok json =>
    obtain ⟨hjson, content, hcontent, hdescribes⟩ := hinfo
    cases hsize : announcedSize json with
    | none => simp only [hsize, Script.wp_fault, anyFault]
    | some size =>
      simp only [hsize, Script.wp_pure]
      obtain rfl := hdescribes.size size hsize
      have hlength : (content.length : ℤ) < 2 ^ 63 := by
        obtain ⟨d, -, hd⟩ := Option.map_eq_some_iff.mp hsize
        rw [← hd]
        exact d.toLong_lt
      refine ⟨trivial, new, hlog, .measured hcontent (by exact_mod_cast hlength) hrefresh'
        fun rest => ?_⟩
      rw [hread, hjson]
      rfl

/-- A result of `oauth_token_check_expire` that is not an error is 0. -/
theorem Checked.failed_or_zero {new : List CallEvent} {rc : ℤ} (h : Checked new rc) :
    Failed rc ∨ rc = 0 := by
  cases h with
  | valid => exact .inr rfl
  | notFound hrc _ _ => exact .inl hrc
  | failed hrc _ _ => exact .inl hrc

/-- A request without a token that is no refresh goes to the service, too. -/
private theorem expiring_of_method {files files' : Files} {request : HttpRequest}
    {reply : HttpReply}
    (hmethod : request.method ≠ .post)
    (h : S.expiring files (.httpClientPerform request) reply files') :
    S.Answers files request reply files' :=
  h.resolve_right fun htoken => hmethod htoken.1.1

private theorem downloadFile_expiring (path block : Bytes) :
    Script.wp (logged S.expiring) anyFault (downloadFile (S.downloadUrl path) block)
      (fun r _ w' => w'.1 = w.1 ∧ (Failed r.1 ∨ r.1 = 0 ∧ ∃ content,
        w.1 path = some content ∧ content.length ≤ block.length ∧
          r.2 = content ++ block.drop content.length)) s w := by
  unfold downloadFile
  simp only [Script.wp_bind, Script.wp_ask]
  rintro reply ⟨files, _⟩ ⟨hserved, rfl⟩
  have hmethod : (downloadRequest (S.downloadUrl path)).method ≠ .post := by
    simp [downloadRequest]
  obtain ⟨rfl, hcontent⟩ := (expiring_of_method hmethod hserved).of_download
  rw [storeChunks_zero]
  by_cases hroom : reply.received.length ≤ block.length
  · simp only [hroom, if_true]
    cases hstatus : reply.answer with
    | error e => exact ⟨rfl, .inl (failed_toInt (reply.toInt_answer_neg hstatus))⟩
    | ok status =>
      simp only [Script.wp_ite, Script.wp_pure, ne_eq, not_not]
      refine ⟨fun _ => ⟨trivial, .inl (failed_toInt (by simp))⟩, fun hok => ⟨trivial, .inr ?_⟩⟩
      exact ⟨trivial, reply.received, hcontent (by rw [hstatus, hok]), hroom, rfl⟩
  · simp only [hroom, if_false, Script.wp_fault, anyFault]

/-- How a read of a file into a block is left: with an error from an `int`, which stays negative,
with an error that is not, or with the content at the front of the block. -/
inductive Fetches (files : Files) (path block : Bytes) : Exit → Bytes → Prop
  | failed {rc : ℤ} {block' : Bytes} (hrc : Failed rc) : Fetches files path block (.ret rc) block'
  | refused (code : ℤ) {block' : Bytes} :
    Fetches files path block (.err (hiveGeneralError code)) block'
  | fetched {content : Bytes} (hfile : files path = some content)
    (hroom : content.length ≤ block.length) :
    Fetches files path block (.ret content.length) (content ++ block.drop content.length)

theorem getFileToBufferAt_expiring (path block : Bytes) (buflen : ℕ) :
    Script.wp (logged S.expiring) anyFault (getFileToBufferAt path block buflen)
      (fun r _ w' => w'.1 = w.1 ∧ Recorded Call.Reading w.2 w'.2 ∧
        Fetches w.1 path block r.1 r.2) s w := by
  have hfetches : Script.wp (logged S.expiring) anyFault (getFileToBufferAt path block buflen)
      (fun r _ _ => Fetches w.1 path block r.1 r.2) s w := by
    unfold getFileToBufferAt
    simp only [Script.wp_bind, Script.wp_ite, Script.wp_pure, Script.wp_ask]
    refine Script.wp_mono oauthTokenCheckExpire_checked (fun _ _ h => h) ?_
    rintro rc s₁ ⟨_, _⟩ ⟨rfl, check, rfl, -, hchecked⟩
    refine ⟨fun hneg => ?_, fun _ => ?_⟩
    · rcases hchecked.failed_or_zero with hrc | rfl
      · exact .failed hrc
      · exact absurd hneg (lt_irrefl 0)
    rintro created ⟨_, _⟩ ⟨rfl, rfl⟩
    refine ⟨fun _ => .refused _, fun _ => ?_⟩
    refine Script.wp_mono (getFileInfo_expiring path sizeAndUrlQuery) (fun _ _ h => h) ?_
    -- the size and the url that were announced are those of one content
    rintro r s₂ ⟨_, _⟩ ⟨rfl, request, reply, rfl, hinfo⟩
    cases r with
    | error rc => exact .failed hinfo.1
    | ok json =>
    obtain ⟨hjson, content, hcontent, hdescribes⟩ := hinfo
    obtain ⟨-, -, -, hvalid⟩ := HttpReply.fileInfo_eq_some.mp hjson
    obtain ⟨n, hn⟩ := announcedSize_of_fileInfoValid strstr_sizeAndUrlQuery_size hvalid
    obtain ⟨url, hurl⟩ := downloadUrl_of_fileInfoValid strstr_sizeAndUrlQuery_url hvalid
    obtain rfl : n = content.length := by exact_mod_cast hdescribes.size n hn
    obtain rfl := hdescribes.url url hurl
    simp only [hn, hurl, Script.wp_ite, Script.wp_pure, Script.wp_bind]
    refine ⟨fun _ => .refused _, fun _ => ⟨fun hzero => ?_, fun _ => ?_⟩⟩
    · obtain rfl : content = [] := List.eq_nil_of_length_eq_zero (by omega)
      exact .fetched hcontent (Nat.zero_le _)
    · refine Script.wp_mono (downloadFile_expiring path block) (fun _ _ h => h) ?_
      -- and the download finds that content again
      rintro ⟨rc, block'⟩ s₃ w₃ ⟨-, hrc | ⟨hzero, content', hcontent', hroom, hblock⟩⟩
      · exact ⟨fun _ => .failed hrc, fun h => absurd hrc.neg h⟩
      · refine ⟨fun hneg => absurd hneg hzero.not_lt, fun _ => ?_⟩
        cases hcontent.symm.trans hcontent'
        dsimp only at hblock ⊢
        rw [hblock]
        exact .fetched hcontent hroom
  exact Script.wp_mono (Script.wp_and hfetches
    (wp_reading (getFileToBufferAt_reads path block buflen) fun _ h => h))
    (fun _ _ _ => trivial) fun _ _ _ h => ⟨h.2.1, h.2.2, h.1⟩

/-! ### Writes -/

/-- How an upload ends: the file is replaced, or there is an error and nothing has changed; and
the log tells which. -/
def Replaces (path body : Bytes) (w : Files × List CallEvent) (rc : ℤ)
    (w' : Files × List CallEvent) : Prop :=
  ∃ new, w'.2 = w.2 ++ new ∧
    (rc = 0 ∧ w'.1 = Function.update w.1 path (some body) ∧ Uploaded new ∨
      rc < 0 ∧ w'.1 = w.1 ∧ ¬Uploaded new)

/-- What was read before is no upload. -/
theorem Replaces.after {path body : Bytes} {w₁ w' : Files × List CallEvent} {rc : ℤ}
    (h : Replaces path body w₁ rc w') (hfiles : w₁.1 = w.1)
    (hlog : Recorded Call.Reading w.2 w₁.2) : Replaces path body w rc w' := by
  obtain ⟨read, hread, hreading⟩ := hlog
  obtain ⟨new, hnew, h⟩ := h
  have hiff : Uploaded (read ++ new) ↔ Uploaded new := by
    rw [uploaded_append, or_iff_right (not_uploaded_of_reading hreading)]
  refine ⟨read ++ new, by rw [hnew, hread, List.append_assoc], ?_⟩
  rwa [hiff, ← hfiles]

/-- An error, and only reads before. -/
theorem replaces_failed {path body : Bytes} {w' : Files × List CallEvent} {rc : ℤ} (hrc : rc < 0)
    (hfiles : w'.1 = w.1) (hlog : Recorded Call.Reading w.2 w'.2) : Replaces path body w rc w' := by
  obtain ⟨new, hnew, hreading⟩ := hlog
  exact ⟨new, hnew, .inr ⟨hrc, hfiles, not_uploaded_of_reading hreading⟩⟩

theorem recorded_reading {log : List CallEvent} {call : Call} {r : call.Reply}
    (hcall : call.Reading) : Recorded Call.Reading log (log ++ [⟨call, r⟩]) := by
  refine ⟨_, rfl, fun e he => ?_⟩
  rw [List.mem_singleton] at he
  subst he
  exact hcall

private theorem uploaded_exchange {request : HttpRequest} {reply : HttpReply}
    (hput : request.method = .put) :
    Uploaded [⟨.httpClientPerform request, reply⟩] ↔ reply.Stored := by
  constructor
  · rintro ⟨request', reply', hmem, -, hstored⟩
    rw [List.mem_singleton] at hmem
    cases hmem
    exact hstored
  · exact fun h => ⟨request, reply, List.mem_singleton_self _, hput, h⟩

private theorem stored_of_mem {reply : HttpReply} {status : ℕ}
    (hmem : status ∈ [HttpStatus_Created, HttpStatus_OK]) (hstatus : reply.answer = .ok status) :
    reply.Stored := by
  rcases List.mem_pair.mp hmem with rfl | rfl
  · exact .inr hstatus
  · exact .inl hstatus

private theorem uploadFile_expiring (path body : Bytes) :
    Script.wp (logged S.expiring) anyFault (uploadFile path body)
      (fun rc _ w' => Replaces path body w rc w') s w := by
  unfold uploadFile
  simp only [Script.wp_bind, wp_sprintfUrl, wp_getBearerToken]
  refine ⟨fun _ => ⟨fun token _ => ?_, fun _ => trivial⟩, fun _ => trivial⟩
  refine requestAuthorized_expiring ⟨token, by simp [uploadRequest]⟩ (by decide) ?_ ?_
  · intro reply files hanswer status hmem hstatus
    have hstored := stored_of_mem hmem hstatus
    rcases hanswer.of_upload with ⟨-, rfl⟩ | ⟨hnot, -⟩
    · exact ⟨_, rfl, .inl ⟨rfl, rfl, (uploaded_exchange rfl).mpr hstored⟩⟩
    · exact absurd hstored hnot
  · intro reply files s' hanswer hnot e he _
    rcases hanswer.of_upload with ⟨hok | hcreated, -⟩ | ⟨hfailed, rfl⟩
    · exact absurd hok (hnot _ (by simp))
    · exact absurd hcreated (hnot _ (by simp))
    · exact ⟨_, rfl, .inr ⟨he, rfl, (uploaded_exchange rfl).not.mpr hfailed⟩⟩

private theorem createFolder_reads (path : Bytes) : ReadsOnly (createFolder path) := by
  unfold createFolder buildCreateFolderRequestBody
  refine .bind (sprintfUrl_within trivial _) fun url => .bind ?_ fun body => ?_
  · refine .bind (.ask trivial) fun made => .ite (.pure _) (.ask trivial)
  split
  · exact .pure _
  refine .bind (getBearerToken_within trivial) fun token =>
    .bind (requestAuthorized_within (reading_of_method (.inr rfl)) _) fun r => ?_
  split
  · exact .pure _
  · exact .pure _

private theorem createUploadSession_reads (path : Bytes) :
    ReadsOnly (createUploadSession path) := by
  refine .bind (sprintfUrl_within trivial _) fun _ => .bind (getBearerToken_within trivial)
    fun token => .bind (requestAuthorized_within (reading_of_method (.inr rfl)) _) fun r => ?_
  split
  · exact .pure _
  refine .bind (moveAndParse_within trivial _) fun parsed => ?_
  split
  · exact .pure _
  split
  · exact .pure _
  · exact .ite (.pure _) (.pure _)

/-- The session is at the URL of the file, or there is an error. -/
private theorem createUploadSession_expiring (path : Bytes) :
    Script.wp (logged S.expiring) anyFault (createUploadSession path)
      (fun r _ w' => (w'.1 = w.1 ∧ Recorded Call.Reading w.2 w'.2) ∧ match r with
        | .error rc => rc < 0
        | .ok url => url = S.uploadUrl path) s w := by
  have hurl : Script.wp (logged S.expiring) anyFault (createUploadSession path)
      (fun r _ _ => match r with
        | .error rc => rc < 0
        | .ok url => url = S.uploadUrl path) s w := by
    unfold createUploadSession
    simp only [Script.wp_bind, wp_sprintfUrl, wp_getBearerToken]
    refine ⟨fun _ => ⟨fun token _ => ?_, fun _ => trivial⟩, fun _ => trivial⟩
    refine requestAuthorized_expiring ⟨token, by simp [createUploadSessionRequest]⟩
      (by decide) ?_ ?_
    · intro reply files hanswer _ _ _
      obtain ⟨rfl, hurl⟩ := hanswer.of_createSession
      simp only [Script.wp_bind, wp_moveAndParse]
      refine ⟨fun _ => trivial, fun _ => ?_⟩
      cases hparsed : reply.parsed with
      | none => exact toInt_hiveGeneralError_neg _
      | some json =>
        cases hjson :
          Json.nonemptyString? (json.getObjectItemCaseSensitive (ascii "uploadUrl")) with
        | none =>
          simp only [hjson, Script.wp_pure]
          exact toInt_hiveGeneralError_neg _
        | some url =>
          simp only [hjson, Script.wp_ite, Script.wp_pure]
          exact ⟨fun _ => toInt_hiveGeneralError_neg _, fun _ => hurl json hparsed url hjson⟩
    · exact fun _ _ _ _ _ e he _ => he
  exact Script.wp_mono
    (Script.wp_and (wp_reading (createUploadSession_reads path) fun _ h => h) hurl)
    (fun _ _ _ => trivial) fun _ _ _ h => h

private theorem uploadToSession_expiring (path : Bytes) {body : Bytes} (hbody : body ≠ []) :
    Script.wp (logged S.expiring) anyFault (uploadToSession (S.uploadUrl path) body)
      (fun rc _ w' => Replaces path body w rc w') s w := by
  unfold uploadToSession
  simp only [Script.wp_bind, Script.wp_ask]
  rintro reply ⟨files, _⟩ ⟨hserved, rfl⟩
  have hmethod : (uploadToSessionRequest (S.uploadUrl path) body).method ≠ .post := by
    simp [uploadToSessionRequest]
  have hwrites := (expiring_of_method hmethod hserved).of_session hbody
  have failed {e : ℤ} (he : e < 0) (hnot : ¬reply.Stored) : Replaces path body w e
      (files, w.2 ++
        [⟨.httpClientPerform (uploadToSessionRequest (S.uploadUrl path) body), reply⟩]) :=
    ⟨_, rfl, .inr ⟨he, (hwrites.resolve_left fun h => hnot h.1).2,
      (uploaded_exchange rfl).not.mpr hnot⟩⟩
  cases hstatus : reply.answer with
  | error e =>
    refine failed (reply.toInt_answer_neg hstatus) ?_
    rintro (hok | hcreated)
    · cases hstatus.symm.trans hok
    · cases hstatus.symm.trans hcreated
  | ok status =>
    simp only [Script.wp_ite, Script.wp_pure]
    refine ⟨fun hnot => failed (toInt_hiveHttpStatusError_neg _) ?_, fun hok => ?_⟩
    · rintro (hok | hcreated)
      · cases hstatus.symm.trans hok
        exact hnot.2 rfl
      · cases hstatus.symm.trans hcreated
        exact hnot.1 rfl
    · have hmem : status ∈ [HttpStatus_Created, HttpStatus_OK] := by
        rw [List.mem_pair]
        by_cases hcreated : status = HttpStatus_Created
        · exact .inl hcreated
        · exact .inr (not_not.mp fun h => hok ⟨hcreated, h⟩)
      have hstored := stored_of_mem hmem hstatus
      have hfiles := (hwrites.resolve_right fun h => h.1 hstored).2
      exact ⟨_, rfl, .inl ⟨rfl, hfiles, (uploaded_exchange rfl).mpr hstored⟩⟩

theorem putFileFromBufferAt_expiring (path body : Bytes) :
    Script.wp (logged S.expiring) anyFault (putFileFromBufferAt path body)
      (fun rc _ w' => Replaces path body w rc w') s w := by
  unfold putFileFromBufferAt
  simp only [Script.wp_bind, Script.wp_ite, Script.wp_pure, Script.wp_ask]
  refine Script.wp_mono oauthTokenCheckExpire_checked (fun _ _ h => h) ?_
  rintro rc s₁ w₁ ⟨hfiles₁, check, hcheck, hforToken, -⟩
  have hlog₁ : Recorded Call.Reading w.2 w₁.2 :=
    ⟨check, hcheck, fun e he => reading_of_forToken (hforToken e he)⟩
  refine ⟨fun hneg => replaces_failed hneg hfiles₁ hlog₁, fun _ => ?_⟩
  rintro created w₂ ⟨hfiles₂, hlog₂⟩
  have hclient : Recorded Call.Reading w₁.2 w₂.2 := hlog₂ ▸ recorded_reading trivial
  -- what comes after the check and the client
  have hafter {rc : ℤ} {w' : Files × List CallEvent} (h : Replaces path body w₂ rc w') :
      Replaces path body w rc w' := (h.after hfiles₂ hclient).after hfiles₁ hlog₁
  refine ⟨fun _ => hafter (replaces_failed (by simp) rfl ⟨[], by simp, by simp⟩), fun _ =>
    ⟨fun _ => ?_, fun hlong => ?_⟩⟩
  · exact Script.wp_mono (uploadFile_expiring path body) (fun _ _ h => h) fun _ _ _ h => hafter h
  refine Script.wp_mono (wp_reading (createFolder_reads (dirname path)) fun _ h => h)
    (fun _ _ h => h) ?_
  rintro rc₃ s₃ w₃ ⟨hfiles₃, hlog₃⟩
  refine ⟨fun hneg => hafter (replaces_failed hneg hfiles₃ hlog₃), fun _ => ?_⟩
  refine Script.wp_mono (createUploadSession_expiring path) (fun _ _ h => h) ?_
  rintro r s₄ w₄ ⟨⟨hfiles₄, hlog₄⟩, hurl⟩
  cases r with
  | error rc₄ => exact hafter ((replaces_failed hurl hfiles₄ hlog₄).after hfiles₃ hlog₃)
  | ok url =>
  subst hurl
  have hbody : body ≠ [] := by
    rintro rfl
    exact hlong (Nat.zero_le _)
  simp only [Script.wp_bind, Script.wp_ite, Script.wp_pure]
  refine Script.wp_mono (uploadToSession_expiring path hbody) (fun _ _ h => h) ?_
  intro rc₅ s₅ w₅ h
  have hall := hafter ((h.after hfiles₄ hlog₄).after hfiles₃ hlog₃)
  refine ⟨fun _ => hall, fun hnonneg => ?_⟩
  obtain ⟨-, -, ⟨rfl, -, -⟩ | ⟨hneg, -, -⟩⟩ := h
  · exact hall
  · exact absurd hneg hnonneg

/-- A file is removed, or there is an error: of a refresh that was answered 404, of the service
that has no such file, or one that is not taken for a 404. -/
theorem deleteFileAt_expiring (path : Bytes) :
    Script.wp (logged S.expiring) anyFault (deleteFileAt path)
      (fun rc _ w' => ∃ new, w'.2 = w.2 ++ new ∧
        (rc = 0 ∧ w'.1 = Function.update w.1 path none ∧ ¬RefreshNotFound new ∨
          rc < 0 ∧ w'.1 = w.1 ∧ ((Absent rc ∧ RefreshNotFound new) ∨
            (Absent rc ∧ w.1 path = none) ∨ (¬Absent rc ∧ ¬RefreshNotFound new)))) s w := by
  unfold deleteFileAt
  simp only [Script.wp_bind, Script.wp_ite, Script.wp_pure, Script.wp_ask, wp_sprintfUrl,
    wp_getBearerToken]
  refine Script.wp_mono oauthTokenCheckExpire_checked (fun _ _ h => h) ?_
  rintro rc s₁ ⟨_, _⟩ ⟨rfl, check, rfl, -, hchecked⟩
  refine ⟨fun hneg => ⟨check, rfl, .inr ⟨hneg, rfl, ?_⟩⟩, fun hnonneg => ?_⟩
  · cases hchecked with
    | valid => exact absurd hneg (lt_irrefl 0)
    | notFound _ habsent h =>
      have hstart := h []
      rw [List.append_nil] at hstart
      exact .inl ⟨habsent, hstart⟩
    | failed _ habsent h => exact .inr (.inr ⟨habsent, h⟩)
  rintro created ⟨_, _⟩ ⟨rfl, rfl⟩
  -- once the client is made, the refresh has not been answered as absent
  have hrefresh (rest : List CallEvent) :
      ¬RefreshNotFound (check ++ [⟨.httpClientNew .deleteFile, created⟩] ++ rest) := by
    rw [List.append_assoc]
    cases hchecked with
    | valid h => exact h _ _ _ (by decide)
    | notFound hrc _ _ => exact absurd hrc.neg hnonneg
    | failed hrc _ _ => exact absurd hrc.neg hnonneg
  have hlog (rest : List CallEvent) :
      w.2 ++ check ++ [⟨.httpClientNew .deleteFile, created⟩] ++ rest =
        w.2 ++ (check ++ [⟨.httpClientNew .deleteFile, created⟩] ++ rest) := by
    simp only [List.append_assoc]
  refine ⟨fun _ => ⟨_, List.append_assoc _ _ _, .inr ⟨by simp, rfl, .inr (.inr ⟨?_, ?_⟩)⟩⟩,
    fun _ => ?_⟩
  · exact not_absent_hiveGeneralError (by decide)
  · have hstart := hrefresh []
    rwa [List.append_nil] at hstart
  refine ⟨fun _ => ⟨fun token _ => ?_, fun _ => trivial⟩, fun _ => trivial⟩
  refine requestAuthorized_expiring ⟨token, by simp [deleteRequest]⟩ (by decide) ?_ ?_
  · intro reply files hanswer status hmem hstatus
    rw [List.mem_singleton] at hmem
    subst hmem
    rcases hanswer.of_delete with ⟨-, rfl⟩ | ⟨hnot, -⟩
    · exact ⟨_, hlog _, .inl ⟨rfl, rfl, hrefresh _⟩⟩
    · exact absurd hstatus hnot
  · intro reply files s' hanswer hnot e he habs
    rcases hanswer.of_delete with ⟨hok, -⟩ | ⟨-, rfl, habsent⟩
    · exact absurd hok (hnot _ (by simp))
    · refine ⟨_, hlog _, .inr ⟨he, rfl, .inr ?_⟩⟩
      by_cases h : Absent (toInt e)
      · exact .inl ⟨h, habsent (habs h)⟩
      · exact .inr ⟨h, hrefresh _⟩

end Spec

end HiveSDK
