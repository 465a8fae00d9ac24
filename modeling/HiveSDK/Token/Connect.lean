import HiveSDK.Interaction.Trace
import HiveSDK.Token.Spec
import HiveSDK.OneDrive.Requests

/-!
# Handing out a connection

`onedrive_client_connect` returns a connection unless `oauth_token_request` returns a
negative number, and that number is the thread's `hive_error` when no authorization code
came back. Two failures leave `hive_error` alone: a redirect server that cannot be created,
and a wait that ends without a code and without a request the handler objects to. If nothing
had gone wrong in the thread before, the connection is then handed out without tokens.

`onedriveClientConnect_authorised_iff` says that there is no other way to get such a
connection.
-/

namespace HiveSDK

open Interaction C

/-! ### The redirect handler over all events -/

/-- The events handled until a stream has closed. -/
def handledEvents : List (List SbEvent) → List SbEvent
  | [] => []
  | poll :: polls => if .close ∈ poll then poll else poll ++ handledEvents polls

/-- The handler records an error for the event. -/
def SbEvent.recordsError (path : Bytes) : SbEvent → Bool
  | .request requestPath value => requestPath ≠ path || !(sbGetVar value authorizeCodeSize).1
  | _ => false

/-- The code the handler stores for the event. -/
def SbEvent.storedCode (path : Bytes) : SbEvent → Option Bytes
  | .request requestPath value =>
    if requestPath = path then some (sbGetVar value authorizeCodeSize).2 else none
  | _ => none

/-- What the code buffer holds after the events: the last code stored. -/
def lastCode (path code : Bytes) : List SbEvent → Bytes
  | [] => code
  | e :: events => lastCode path ((e.storedCode path).getD code) events

/-- What the handler does for a request. -/
private theorem handleAuthRedirect_request (path requestPath : Bytes) (value : Option Bytes)
    (r : Redirect) :
    let r' := handleAuthRedirect path r (.request requestPath value)
    r'.stopped = r.stopped ∧
      r'.code = ((SbEvent.request requestPath value).storedCode path).getD r.code ∧
      (if (SbEvent.request requestPath value).recordsError path then r'.hiveError < 0
        else r'.hiveError = r.hiveError) := by
  unfold handleAuthRedirect SbEvent.storedCode SbEvent.recordsError
  by_cases hpath : requestPath = path
  · cases hvar : sbGetVar value authorizeCodeSize with
    | mk found code => cases found <;> simp [hpath, hvar]
  · simp [hpath]

/-- What the handler does over a sequence of events. -/
theorem foldl_handleAuthRedirect (path : Bytes) (events : List SbEvent) (r : Redirect) :
    let r' := events.foldl (handleAuthRedirect path) r
    r'.stopped = (r.stopped || decide (.close ∈ events)) ∧
      r'.code = lastCode path r.code events ∧
      (if events.any (SbEvent.recordsError path) then r'.hiveError < 0
        else r'.hiveError = r.hiveError) := by
  induction events generalizing r with
  | nil => simp [lastCode]
  | cons e events ih =>
    obtain ⟨hstopped, hcode, herror⟩ := ih (handleAuthRedirect path r e)
    rw [List.foldl_cons]
    simp only [hstopped, hcode, lastCode, List.any_cons]
    cases e with
    | request requestPath value =>
      obtain ⟨hstopped', hcode', herror'⟩ := handleAuthRedirect_request path requestPath value r
      refine ⟨by simp [hstopped'], by rw [hcode'], ?_⟩
      by_cases hany : events.any (SbEvent.recordsError path) = true
      · simpa [hany] using herror
      · simp only [hany, Bool.false_eq_true, if_false] at herror
        rw [herror]
        simpa [hany] using herror'
    | close => exact ⟨by simp [handleAuthRedirect], rfl, herror⟩
    | other => exact ⟨by simp [handleAuthRedirect], rfl, herror⟩

/-- The wait ends with the handler run over the events handled. -/
theorem waitRedirect_eq_some {path : Bytes} {polls : List (List SbEvent)} {r r' : Redirect}
    (hr : r.stopped = false) (h : waitRedirect path r polls = some r') :
    r' = (handledEvents polls).foldl (handleAuthRedirect path) r := by
  induction polls generalizing r with
  | nil => simp [waitRedirect, hr] at h
  | cons poll polls ih =>
    simp only [waitRedirect, hr, Bool.false_eq_true, if_false] at h
    have hstopped := (foldl_handleAuthRedirect path poll r).1
    rw [hr, Bool.false_or] at hstopped
    unfold handledEvents
    by_cases hclose : SbEvent.close ∈ poll
    · rw [if_pos hclose]
      simp only [hclose, decide_true] at hstopped
      cases polls <;> simpa [waitRedirect, hstopped] using h.symm
    · rw [if_neg hclose, List.foldl_append]
      exact ih (by simpa [hclose] using hstopped) h

/-- No request was for another path or carried a code the handler objects to, and the last
code carried, if there is one, is empty. -/
def SilentRedirect (path : Bytes) (polls : List (List SbEvent)) : Prop :=
  (∀ e ∈ handledEvents polls, e.recordsError path = false) ∧
    cString (lastCode path [] (handledEvents polls)) = []

/-- A wait that ends does so silently, or with an error or a code. -/
theorem waitRedirect_spec {path : Bytes} {polls : List (List SbEvent)} {e : ℤ} {r : Redirect}
    (h : waitRedirect path ⟨false, [], e⟩ polls = some r) :
    (SilentRedirect path polls ∧ cString r.code = [] ∧ r.hiveError = e) ∨
      (¬SilentRedirect path polls ∧ (cString r.code = [] → r.hiveError < 0)) := by
  have hr := waitRedirect_eq_some rfl h
  obtain ⟨-, hcode, herror⟩ := foldl_handleAuthRedirect path (handledEvents polls) ⟨false, [], e⟩
  rw [← hr] at hcode herror
  by_cases hany : (handledEvents polls).any (SbEvent.recordsError path) = true
  · rw [if_pos hany] at herror
    refine .inr ⟨fun hsilent => ?_, fun _ => herror⟩
    obtain ⟨ev, hev, hrec⟩ := List.any_eq_true.mp hany
    rw [hsilent.1 ev hev] at hrec
    cases hrec
  · rw [if_neg hany] at herror
    have hquiet : ∀ ev ∈ handledEvents polls, ev.recordsError path = false := by
      simpa using hany
    by_cases hempty : cString r.code = []
    · exact .inl ⟨⟨hquiet, hcode ▸ hempty⟩, hempty, herror⟩
    · exact .inr ⟨fun hsilent => hempty (hcode ▸ hsilent.2), fun h => absurd h hempty⟩

/-! ### The trace outside the redirect -/

/-- The calls only `get_authorize_code` makes. -/
def Call.OfRedirect : Call → Prop
  | .curlUrlGet _ _ _ | .sbNewServer _ _ | .sbPollServer => True
  | _ => False

/-- No call of the redirect is made. -/
abbrev OutsideRedirect {C α : Type} (m : M C α) : Prop :=
  m.Within (fun call => ¬call.OfRedirect) fun _ => True

/-- The calls for the token are not those of a redirect. -/
private theorem not_ofRedirect_of_forToken {call : Call} (h : call.ForToken) :
    ¬call.OfRedirect := by
  cases call <;> simp_all [Call.ForToken, Call.OfRedirect]

/-- So what makes only these stays outside a redirect. -/
private theorem outsideRedirect_of_withinToken {α : Type} {m : M OneDriveConnect α}
    (hm : WithinToken m) :
    OutsideRedirect m :=
  hm.mono (fun _ => not_ofRedirect_of_forToken) fun _ _ => trivial

/-- The calls made before a token is requested: none of them goes to a server. -/
def Call.OfSetup : Call → Prop
  | .malloc _ | .errno | .stat _ | .mkdir _ | .access _ | .openFile _ _ | .read _ _
  | .cJSON_Parse _ => True
  | _ => False

/-- Only such calls are made. -/
abbrev SetupOnly {C α : Type} (m : M C α) : Prop := m.Within Call.OfSetup fun _ => True

theorem not_ofRedirect_of_ofSetup {call : Call} (h : call.OfSetup) : ¬call.OfRedirect := by
  cases call <;> simp_all [Call.OfSetup, Call.OfRedirect]

/-- The setup of a connection stays outside a redirect. -/
theorem SetupOnly.outside {C α : Type} {m : M C α} (hm : SetupOnly m) : OutsideRedirect m :=
  hm.mono (fun _ => not_ofRedirect_of_ofSetup) fun _ h => h

/-- The calls `mkdirs` makes. -/
def Call.ForDirectory : Call → Prop
  | .stat _ | .mkdir _ => True
  | _ => False

/-- Only such calls are made, and there is no fault. -/
abbrev DirectoriesOnly {C α : Type} (m : M C α) : Prop := m.Within Call.ForDirectory fun _ => False

private theorem mkdirInternal_directories {C : Type} (path : Bytes) :
    DirectoriesOnly (mkdirInternal path : M C _) := by
  unfold mkdirInternal
  refine .bind (.ask trivial) fun st => ?_
  match st with
  | .ok .directory => exact .pure _
  | .ok (.file _) => exact .pure _
  | .error _ =>
    refine .bind (.ask trivial) fun made => ?_
    match made with
    | .ok _ => exact .pure _
    | .error _ => exact .ite (.pure _) (.pure _)

private theorem mkdirsLoop_directories {C : Type} (done component rest : Bytes) :
    DirectoriesOnly (mkdirsLoop done component rest : M C _) := by
  induction rest generalizing done component with
  | nil => exact .pure _
  | cons c rest ih =>
    unfold mkdirsLoop
    refine .ite (ih _ _) (.ite (ih _ _) (.bind (mkdirInternal_directories _) fun made => ?_))
    match made with
    | .ok _ => exact ih _ _
    | .error _ => exact .pure _

theorem mkdirs_directories {C : Type} (path : Bytes) : DirectoriesOnly (mkdirs path : M C _) := by
  unfold mkdirs
  refine .bind (mkdirsLoop_directories _ _ _) fun made => ?_
  match made with
  | .ok _ => exact mkdirInternal_directories _
  | .error _ => exact .pure _

private theorem ofSetup_of_forDirectory {call : Call} (h : call.ForDirectory) : call.OfSetup := by
  cases call <;> simp_all [Call.ForDirectory, Call.OfSetup]

theorem mkdirs_setup {C : Type} (path : Bytes) : SetupOnly (mkdirs path : M C _) :=
  (mkdirs_directories path).mono (fun _ => ofSetup_of_forDirectory) fun _ h => h.elim

/-- The calls that look for a keystore and read it. -/
def Call.ForLookup : Call → Prop
  | .access _ | .stat _ | .openFile _ .readOnly | .read _ _ | .errno | .cJSON_Parse _ => True
  | _ => False

/-- Looking for the keystore makes directories and reads the file. -/
theorem findKeystore_lookup (path : Bytes) :
    (findKeystore path).Within Call.ForLookup fun _ => True := by
  unfold findKeystore loadKeystoreInJson
  refine .bind (.ask trivial) fun found =>
    .ite (.pure _) (.bind (.bind (.ask trivial) fun st => ?_) ?_)
  · match st with
    | .error _ => exact .pure _
    | .ok st =>
      refine .ite (.pure _) (.bind (.ask trivial) fun opened => ?_)
      match opened with
      | .error _ => exact .pure _
      | .ok _ =>
        refine .bind (.ask trivial) fun text => ?_
        match text with
        | .error _ => exact .pure _
        | .ok text =>
          refine .ite (.bind (.ask trivial) fun _ => .pure _) (.ite (.fault trivial) ?_)
          refine .bind (.ask trivial) fun json => ?_
          match json with
          | none => exact .pure _
          | some _ => exact .pure _
  · intro json
    match json with
    | .error _ => exact .bind (.modify _) fun _ => .pure _
    | .ok _ => exact .pure _

theorem findKeystore_setup (path : Bytes) : SetupOnly (findKeystore path) :=
  (findKeystore_lookup path).mono (fun call h => by
    cases call <;> simp_all [Call.ForLookup, Call.OfSetup]) fun _ h => h

/-- The calls of a function that asks for memory, and for the reason when there is none. -/
def Call.ForMemory : Call → Prop
  | .malloc _ | .errno => True
  | _ => False

/-- A new token client asks for memory only. -/
theorem oauthTokenNew_memory (store : Option Json) (clientId scope redirectUrl : Bytes) :
    (oauthTokenNew store clientId scope redirectUrl).Within Call.ForMemory fun _ => True := by
  unfold oauthTokenNew restoreAccessToken
  refine .bind (.ask trivial) fun created => .ite (.bind (.modify _) fun _ => .pure _) ?_
  refine .bind (.modify _) fun _ => .bind (.bind (.bind .get fun _ => .pure _) fun token => ?_)
    fun _ => .pure _
  split
  · exact .pure _
  · refine .ite (.pure _) ?_
    split
    · refine .bind (.modify _) fun _ => .bind (.ask trivial) fun _ => ?_
      exact .ite (.bind (.ask trivial) fun _ => .pure _) (.bind (.modify _) fun _ => .pure _)
    · exact .pure _

theorem oauthTokenNew_setup (store : Option Json) (clientId scope redirectUrl : Bytes) :
    SetupOnly (oauthTokenNew store clientId scope redirectUrl) :=
  (oauthTokenNew_memory store clientId scope redirectUrl).mono (fun call h => by
    cases call <;> simp_all [Call.ForMemory, Call.OfSetup]) fun _ h => h

/-- The calls of a redeem. -/
def Call.ForRedeem : Call → Prop
  | .httpClientNew .redeemAccessToken | .httpClientEscape _ | .httpClientPerform _ | .malloc _
  | .errno | .gettimeofday => True
  | _ => False

theorem escapeFields_redeem (clientId redirectUrl : Bytes) (third : Option Bytes) :
    (escapeFields clientId redirectUrl third).Within Call.ForRedeem fun _ => True := by
  have escape {β : Type} (data : Bytes) (f : Bytes → M OneDriveConnect (Option β))
      (hf : ∀ b, (f b).Within Call.ForRedeem fun _ => True) :
      (withEscaped data f).Within Call.ForRedeem fun _ => True := by
    refine .bind (.ask trivial) fun escaped => ?_
    cases escaped with
    | none => exact .pure _
    | some b => exact hf b
  unfold escapeFields
  refine escape _ _ fun _ => escape _ _ fun _ => ?_
  split
  · exact .fault trivial
  · exact escape _ _ fun _ => .pure _

theorem decodeAccessToken_redeem (json : Option Json) :
    (decodeAccessToken json).Within Call.ForRedeem fun _ => True := by
  have allocated (size : ℕ) {rest : M OneDriveConnect ℤ}
      (hrest : rest.Within Call.ForRedeem fun _ => True) :
      Script.Within Call.ForRedeem (fun _ => True) (do
        if !(← malloc size) then
          return toInt (hiveSysError (← errno))
        rest) :=
    .bind (.ask trivial) fun _ => .ite (.bind (.ask trivial) fun _ => .pure _) hrest
  unfold decodeAccessToken
  split
  · exact .pure _
  split
  · exact .pure _
  refine allocated _ ?_
  split
  · exact .pure _
  split
  · exact .pure _
  refine allocated _ ?_
  split
  · exact .pure _
  refine allocated _ ?_
  split
  · exact .pure _
  exact .ite (.pure _) (.bind (.ask trivial) fun _ => .bind (.modify _) fun _ => .pure _)

/-- The redeem of a code makes the calls that are its own. -/
theorem redeemAccessToken_redeem (code : Bytes) :
    (redeemAccessToken code).Within Call.ForRedeem fun _ => True := by
  unfold redeemAccessToken
  refine .bind (.bind .get fun _ => .pure _) fun token => .bind (.ask trivial) fun created => ?_
  refine .ite (.pure _) (.bind (escapeFields_redeem _ _ _) fun fields => ?_)
  cases fields with
  | none => exact .pure _
  | some fields =>
    obtain ⟨_, _, _⟩ := fields
    refine .ite (.pure _) (.bind (.ask trivial) fun reply => .ite (.pure _) (.ite (.pure _) ?_))
    exact .bind (moveAndParse_within trivial _) fun json => decodeAccessToken_redeem _

theorem redeemAccessToken_outside (code : Bytes) : OutsideRedirect (redeemAccessToken code) :=
  (redeemAccessToken_redeem code).mono (fun call h => by
    cases call <;> simp_all [Call.ForRedeem, Call.OfRedirect]) fun _ h => h

/-- The calls of a request for a code. -/
def Call.ForCode : Call → Prop
  | .httpClientNew .getAuthorizeCode | .curlUrlGet _ _ _ | .sbNewServer _ _ | .pthreadCreate _
  | .errno | .sbPollServer | .block => True
  | _ => False

private theorem afterRedirect_forCode (r : Option Redirect) :
    (afterRedirect r).Within Call.ForCode fun _ => True := by
  cases r with
  | none => exact .bind (.ask trivial) fun e => e.elim
  | some r => exact .bind (.modify _) fun _ => .pure _

/-- Asking for a code makes the calls that are its own. -/
theorem getAuthorizeCode_forCode : getAuthorizeCode.Within Call.ForCode fun _ => True := by
  unfold getAuthorizeCode
  refine .bind (.bind .get fun _ => .pure _) fun token => ?_
  refine .bind (.ask trivial) fun created => .ite (.bind (.modify _) fun _ => .pure _) ?_
  refine .bind (.ask trivial) fun url => ?_
  cases url with
  | error _ => exact .bind (.modify _) fun _ => .pure _
  | ok url =>
  refine .bind (.ask trivial) fun host => ?_
  cases host with
  | error _ => exact .bind (.modify _) fun _ => .pure _
  | ok host =>
  refine .bind (.ask trivial) fun port => ?_
  cases port with
  | error _ => exact .bind (.modify _) fun _ => .pure _
  | ok port =>
  refine .bind (.ask trivial) fun path => ?_
  cases path with
  | error _ => exact .bind (.modify _) fun _ => .pure _
  | ok path =>
  refine .bind (.ask trivial) fun server => .ite (.pure _) (.bind (.ask trivial) fun _ => ?_)
  refine .ite (.bind (.ask trivial) fun _ => .bind (.modify _) fun _ => .pure _) ?_
  refine .bind (.bind .get fun _ => .pure _) fun e => .bind (.ask trivial) fun polls => ?_
  exact afterRedirect_forCode _

/-! ### The thread up to the token request -/

section Spec

variable {σ : Type} {h : Handler σ Call Call.Reply} {w : σ}

theorem mkdirInternal_spec {C : Type} {s : Thread C} (path : Bytes) :
    Script.wp h anyFault (mkdirInternal path) (fun _ s' _ => s' = s) s w := by
  unfold mkdirInternal
  simp only [Script.wp_bind, Script.wp_ask]
  intro st w₁ _
  rcases st with e | _ | size
  · simp only [Script.wp_bind, Script.wp_ask]
    intro made w₂ _
    cases made with
    | ok _ => exact rfl
    | error _ => simp [Script.wp_ite]
  · exact rfl
  · exact rfl

theorem mkdirsLoop_spec {C : Type} {s : Thread C} (done component rest : Bytes) :
    Script.wp h anyFault (mkdirsLoop done component rest) (fun _ s' _ => s' = s) s w := by
  induction rest generalizing done component w with
  | nil => exact rfl
  | cons c rest ih =>
    unfold mkdirsLoop
    simp only [Script.wp_ite, Script.wp_bind]
    refine ⟨fun _ => ih _ _, fun _ => ⟨fun _ => ih _ _, fun _ => ?_⟩⟩
    refine Script.wp_mono (mkdirInternal_spec _) (fun _ _ h => h) ?_
    rintro made _ w₁ rfl
    cases made with
    | ok _ => exact ih _ _
    | error _ => exact rfl

/-- Making the directories leaves the state of the thread. -/
theorem mkdirs_spec {C : Type} {s : Thread C} (path : Bytes) :
    Script.wp h anyFault (mkdirs path) (fun _ s' _ => s' = s) s w := by
  unfold mkdirs
  simp only [Script.wp_bind]
  refine Script.wp_mono (mkdirsLoop_spec _ _ _) (fun _ _ h => h) ?_
  rintro made _ w₁ rfl
  cases made with
  | ok _ => exact mkdirInternal_spec _
  | error _ => exact rfl

variable {s : Thread OneDriveConnect}

theorem loadKeystoreInJson_spec (path : Bytes) :
    Script.wp h anyFault (loadKeystoreInJson path) (fun _ s' _ => s' = s) s w := by
  unfold loadKeystoreInJson
  simp only [Script.wp_bind, Script.wp_ask]
  intro st w₁ _
  cases st with
  | error _ => exact rfl
  | ok st =>
    simp only [Script.wp_ite, Script.wp_bind, Script.wp_ask, Script.wp_pure]
    refine ⟨fun _ => trivial, fun _ opened w₂ _ => ?_⟩
    cases opened with
    | error _ => exact rfl
    | ok _ =>
      simp only [Script.wp_bind, Script.wp_ask]
      intro text w₃ _
      cases text with
      | error _ => exact rfl
      | ok text =>
        simp only [Script.wp_ite, Script.wp_bind, Script.wp_ask, Script.wp_pure, Script.wp_fault]
        refine ⟨fun _ _ _ _ => trivial, fun _ => ⟨fun _ => trivial, fun _ json w₄ _ => ?_⟩⟩
        cases json <;> exact rfl

/-- A keystore is found or there is none, and nothing changes; or an error is recorded. -/
theorem findKeystore_spec (path : Bytes) :
    Script.wp h anyFault (findKeystore path)
      (fun found s' _ => found.isSome → s' = s) s w := by
  unfold findKeystore
  simp only [Script.wp_bind, Script.wp_ask, Script.wp_ite, Script.wp_pure]
  refine fun found w₁ _ => ⟨fun _ _ => trivial, fun _ => ?_⟩
  refine Script.wp_mono (loadKeystoreInJson_spec path) (fun _ _ h => h) ?_
  rintro json _ w₂ rfl
  cases json with
  | ok _ => exact fun _ => rfl
  | error _ => exact fun hsome => by simp at hsome

/-- A new token holds its three strings or none of them. -/
theorem oauthTokenNew_spec (store : Option Json) (clientId scope redirectUrl : Bytes) :
    Script.wp h anyFault (oauthTokenNew store clientId scope redirectUrl)
      (fun made s' _ => made = true →
        (s'.conn.token.Authorised ∨ s'.conn.token.Unset) ∧ s'.hiveError = s.hiveError) s w := by
  unfold oauthTokenNew
  simp only [Script.wp_bind, Script.wp_ask, Script.wp_ite, Script.wp_modify, Script.wp_pure]
  refine fun created w₁ _ => ⟨fun _ hfalse => by simp at hfalse, fun _ => ?_⟩
  refine Script.wp_mono (restoreAccessToken_spec store) (fun _ _ h => h) ?_
  rintro _ s₁ w₂ (hstored | ⟨expiresAt, rfl⟩) _
  · refine ⟨.inl hstored.authorised, ?_⟩
    obtain ⟨_, _, _, _, rfl⟩ := hstored
    rfl
  · exact ⟨.inr ⟨rfl, rfl, rfl⟩, rfl⟩

end Spec

/-! ### Requesting a token -/

/-- The redirect ended without a code and without an error: the server was not created, or
the wait was silent. -/
def SilentFailure (tr : List CallEvent) : Prop :=
  (∃ host port, ⟨.sbNewServer host port, false⟩ ∈ tr) ∨
    ∃ url path polls, ⟨.curlUrlGet .path url [], .ok path⟩ ∈ tr ∧
      ⟨.sbPollServer, polls⟩ ∈ tr ∧ SilentRedirect path polls

/-- Outside a redirect nothing fails silently. -/
theorem not_silentFailure_of_outside {tr : List CallEvent}
    (h : ∀ e ∈ tr, ¬e.1.OfRedirect) : ¬SilentFailure tr := by
  rintro (⟨host, port, hmem⟩ | ⟨_, _, _, _, hmem, _⟩)
  · exact h _ hmem trivial
  · exact h _ hmem trivial

/-- Calls outside the redirect do not matter. -/
theorem silentFailure_congr {pre tr post : List CallEvent} (hpre : ∀ e ∈ pre, ¬e.1.OfRedirect)
    (hpost : ∀ e ∈ post, ¬e.1.OfRedirect) :
    SilentFailure (pre ++ tr ++ post) ↔ SilentFailure tr := by
  have hmem {e : CallEvent} (he : e.1.OfRedirect) : e ∈ pre ++ tr ++ post ↔ e ∈ tr := by
    simp only [List.mem_append]
    exact ⟨fun h => (h.resolve_right fun h => hpost e h he).resolve_left fun h => hpre e h he,
      fun h => .inl (.inr h)⟩
  unfold SilentFailure
  refine or_congr ?_ ?_
  · exact exists_congr fun host => exists_congr fun port => hmem trivial
  · refine exists_congr fun url => exists_congr fun path => exists_congr fun polls => ?_
    exact and_congr (hmem trivial) (and_congr_left fun _ => hmem trivial)

/-- The events of a redirect are in the trace: those of the polls, for the redirect path. -/
def Polled (tr : List CallEvent) (path : Bytes) (polls : List (List SbEvent)) : Prop :=
  (∃ url, ⟨.curlUrlGet .path url [], .ok path⟩ ∈ tr) ∧ ⟨.sbPollServer, polls⟩ ∈ tr

/-- A redirect server that cannot be created. -/
def NoServer (tr : List CallEvent) : Prop := ∃ host port, ⟨.sbNewServer host port, false⟩ ∈ tr

/-- A failure is silent when there is no server, or when the redirect brings nothing. -/
theorem silentFailure_iff {tr : List CallEvent} : SilentFailure tr ↔
    NoServer tr ∨ ∃ path polls, Polled tr path polls ∧ SilentRedirect path polls := by
  refine or_congr Iff.rfl ⟨?_, ?_⟩
  · rintro ⟨url, path, polls, hurl, hpolls, hsilent⟩
    exact ⟨path, polls, ⟨⟨url, hurl⟩, hpolls⟩, hsilent⟩
  · rintro ⟨path, polls, ⟨⟨url, hurl⟩, hpolls⟩, hsilent⟩
    exact ⟨url, path, polls, hurl, hpolls, hsilent⟩

/-- What becomes of a request for a code: the code, and the error of the thread, which was `e`. -/
inductive CodeRequest (e : ℤ) (tr : List CallEvent) : Option Bytes → ℤ → Prop
  /-- An error before the wait. -/
  | failed {err : ℤ} (hserver : ¬NoServer tr) (hpolled : ∀ path polls, ¬Polled tr path polls)
    (herr : err < 0) : CodeRequest e tr none err
  /-- No server, and no error. -/
  | noServer (hserver : NoServer tr) (hpolled : ∀ path polls, ¬Polled tr path polls) :
    CodeRequest e tr none e
  /-- The wait ends. -/
  | waited {path : Bytes} {polls : List (List SbEvent)} {r : Redirect} (hserver : ¬NoServer tr)
    (hpolled : ∀ path' polls', Polled tr path' polls' ↔ path' = path ∧ polls' = polls)
    (hwait : waitRedirect path ⟨false, [], e⟩ polls = some r) :
    CodeRequest e tr (if cString r.code = [] then none else some (cString r.code)) r.hiveError

/-- A returning run makes one of the three of its trace. -/
theorem getAuthorizeCode_requests (s : Thread OneDriveConnect) (tr : List CallEvent) :
    Script.wp playback (fun _ _ => False) getAuthorizeCode
      (fun code s' tr' => s'.conn = s.conn ∧ ∃ new, tr = new ++ tr' ∧
        CodeRequest s.hiveError new code s'.hiveError) s tr := by
  unfold getAuthorizeCode
  simp only [Script.wp_bind, Script.wp_get, Script.wp_pure, Script.wp_ask, Script.wp_ite,
    Script.wp_modify]
  rintro created tr₁ rfl
  refine ⟨fun _ => ⟨trivial, [_], rfl, .failed ?_ ?_ (by simp)⟩, fun _ => ?_⟩
  · simp [NoServer]
  · simp [Polled]
  rintro url tr₂ rfl
  cases url with
  | error _ =>
    simp only [Script.wp_bind, Script.wp_modify, Script.wp_pure]
    exact ⟨trivial, [_, _], rfl, .failed (by simp [NoServer]) (by simp [Polled]) (by simp)⟩
  | ok url =>
  simp only [Script.wp_bind, Script.wp_ask]
  rintro host tr₃ rfl
  cases host with
  | error _ =>
    simp only [Script.wp_bind, Script.wp_modify, Script.wp_pure]
    exact ⟨trivial, [_, _, _], rfl, .failed (by simp [NoServer]) (by simp [Polled]) (by simp)⟩
  | ok host =>
  simp only [Script.wp_bind, Script.wp_ask]
  rintro port tr₄ rfl
  cases port with
  | error _ =>
    simp only [Script.wp_bind, Script.wp_modify, Script.wp_pure]
    exact ⟨trivial, [_, _, _, _], rfl, .failed (by simp [NoServer]) (by simp [Polled]) (by simp)⟩
  | ok port =>
  simp only [Script.wp_bind, Script.wp_ask]
  rintro path tr₅ rfl
  cases path with
  | error _ =>
    simp only [Script.wp_bind, Script.wp_modify, Script.wp_pure]
    exact ⟨trivial, [_, _, _, _, _], rfl,
      .failed (by simp [NoServer]) (by simp [Polled]) (by simp)⟩
  | ok path =>
  simp only [Script.wp_bind, Script.wp_get, Script.wp_pure, Script.wp_ask, Script.wp_ite,
    Script.wp_modify]
  rintro server tr₆ rfl
  refine ⟨fun hserver => ?_, fun hserver => ?_⟩
  · obtain rfl : server = false := by simpa using hserver
    exact ⟨trivial, [_, _, _, _, _, _], rfl, .noServer (by simp [NoServer]) (by simp [Polled])⟩
  obtain rfl : server = true := by simpa using hserver
  rintro thread tr₇ rfl
  refine ⟨?_, fun _ => ?_⟩
  · rintro _ err tr₈ rfl
    exact ⟨trivial, [_, _, _, _, _, _, _, _], rfl,
      .failed (by simp [NoServer]) (by simp [Polled]) (by simp)⟩
  rintro polls tr₈ rfl
  cases hwait : waitRedirect path ⟨false, [], s.hiveError⟩ polls with
  | none =>
    simp only [afterRedirect, block, Script.wp_bind, Script.wp_ask]
    exact fun e => e.elim
  | some r =>
    simp only [afterRedirect, Script.wp_bind, Script.wp_modify, Script.wp_pure]
    -- the only calls of the redirect that matter are the path and the polls
    exact ⟨trivial, [_, _, _, _, _, _, _, _], rfl,
      .waited (by simp [NoServer]) (by simp [Polled]) hwait⟩

/-- What `get_authorize_code`, begun with the error `e`, makes of a trace: a code, or an error
recorded, or neither when the failure was silent. -/
def CodeOutcome (e : ℤ) (tr : List CallEvent) : Option Bytes → ℤ → Prop
  | some _, _ => ¬SilentFailure tr
  | none, e' => (SilentFailure tr ∧ e' = e) ∨ (¬SilentFailure tr ∧ e' < 0)

/-- What a run of `get_authorize_code` makes of its part of a trace. -/
theorem getAuthorizeCode_playback (s : Thread OneDriveConnect) (tr : List CallEvent) :
    Script.wp playback (fun _ _ => False) getAuthorizeCode
      (fun code s' tr' => s'.conn = s.conn ∧ ∃ pre, tr = pre ++ tr' ∧
        CodeOutcome s.hiveError pre code s'.hiveError) s tr := by
  refine Script.wp_mono (getAuthorizeCode_requests s tr) (fun _ _ h => h) ?_
  rintro code s' tr' ⟨hconn, pre, rfl, hrequest⟩
  refine ⟨hconn, pre, rfl, ?_⟩
  unfold CodeOutcome
  rw [silentFailure_iff]
  generalize s'.hiveError = err at hrequest ⊢
  cases hrequest with
  | failed hserver hpolled herr =>
    refine .inr ⟨?_, herr⟩
    rintro (hno | ⟨path, polls, hpolls, -⟩)
    · exact hserver hno
    · exact hpolled path polls hpolls
  | noServer hserver _ => exact .inl ⟨.inl hserver, rfl⟩
  | @waited path polls r hserver hpolled hwait =>
    have hsilent : (NoServer pre ∨ ∃ path polls, Polled pre path polls ∧
        SilentRedirect path polls) ↔ SilentRedirect path polls := by
      simp [hserver, hpolled]
    rw [hsilent]
    rcases waitRedirect_spec hwait with ⟨hyes, hempty, herror⟩ | ⟨hno, herror⟩
    · simp [hempty, hyes, herror]
    · by_cases hempty : cString r.code = []
      · simp [hempty, hno, herror hempty]
      · simp [hempty, hno]

/-- The three ways a token request ends: with tokens, with an error, or, after a silent
failure that finds no error recorded, with neither. -/
inductive TokenRequestEnds (s : Thread OneDriveConnect) (pre : List CallEvent) (rc : ℤ)
    (s' : Thread OneDriveConnect) : Prop
  | authorised (hrc : 0 ≤ rc) (htoken : s'.conn.token.Authorised) (hloud : ¬SilentFailure pre)
  | failed (hrc : rc < 0) (hloud : ¬(0 ≤ s.hiveError ∧ SilentFailure pre))
  | silent (hrc : 0 ≤ rc) (htoken : s'.conn.token.Unset) (herror : 0 ≤ s.hiveError)
      (hsilent : SilentFailure pre)

/-- How a token request ends, from a client that is authorised or new. -/
theorem oauthTokenRequest_playback {s : Thread OneDriveConnect}
    (htoken : s.conn.token.Authorised ∨ s.conn.token.Unset) (tr : List CallEvent) :
    Script.wp playback (fun _ tr' => ∃ pre, tr = pre ++ tr' ∧ ¬SilentFailure pre)
      oauthTokenRequest
      (fun rc s' tr' => ∃ pre, tr = pre ++ tr' ∧ TokenRequestEnds s pre rc s') s tr := by
  unfold oauthTokenRequest
  simp only [Script.wp_bind, Script.wp_get, Script.wp_pure, Script.wp_ite]
  refine ⟨fun hsome => ⟨[], rfl, .authorised le_rfl ?_ (not_silentFailure_of_outside (by simp))⟩,
    fun hnone => ?_⟩
  · refine htoken.resolve_right fun hunset => ?_
    simp [hunset.accessToken] at hsome
  have hunset : s.conn.token.Unset :=
    htoken.resolve_left fun hauth => hnone hauth.accessToken
  refine Script.wp_mono (getAuthorizeCode_playback s tr) (fun _ _ h => h.elim) ?_
  rintro (_ | code) s₁ tr₁ ⟨hconn, pre, rfl, hpre⟩
  · -- no code: the result is the thread's error
    simp only [Script.wp_bind, Script.wp_get, Script.wp_pure]
    refine ⟨pre, rfl, ?_⟩
    rcases hpre with ⟨hsilent, herror⟩ | ⟨hloud, herror⟩
    · by_cases hneg : 0 ≤ s.hiveError
      · exact .silent (herror ▸ hneg) (hconn ▸ hunset) hneg hsilent
      · exact .failed (by omega) fun h => hneg h.1
    · exact .failed herror fun h => hloud h.2
  · simp only [Script.wp_bind, Script.wp_ite, Script.wp_pure]
    refine Script.wp_mono (Script.wp_consumed (redeemAccessToken_outside code)
      (redeemAccessToken_spec code)) ?_ ?_
    · rintro _ tr₂ ⟨_, _, mid, rfl, hmid⟩
      refine ⟨pre ++ mid, by simp, ?_⟩
      rwa [← List.nil_append (pre ++ mid), ← List.append_assoc, silentFailure_congr (by simp) hmid]
    -- the code is there: it is redeemed, and the tokens are written back
    rintro rc s₂ tr₂ ⟨hredeem, mid, rfl, hmid⟩
    have hloud : ¬SilentFailure (pre ++ mid) := by
      rwa [← List.nil_append (pre ++ mid), ← List.append_assoc, silentFailure_congr (by simp) hmid]
    rcases hredeem with ⟨rfl, hstored⟩ | ⟨hneg, rfl⟩
    · refine ⟨fun h => absurd h (lt_irrefl 0), fun _ => ?_⟩
      have hwriteback := Script.wp_consumed (outsideRedirect_of_withinToken writebackTokens_within)
        (writebackTokens_spec (h := playback) (F := anyFault) (w := tr₂) (.inl hstored.authorised))
      refine Script.wp_mono hwriteback ?_ ?_
      · rintro _ tr₃ ⟨_, _, post, rfl, hpost⟩
        refine ⟨pre ++ mid ++ post, by simp, ?_⟩
        rwa [← List.nil_append (pre ++ mid), silentFailure_congr (by simp) hpost]
      · rintro _ _ tr₃ ⟨rfl, post, rfl, hpost⟩
        refine ⟨pre ++ mid ++ post, by simp, .authorised le_rfl hstored.authorised ?_⟩
        rwa [← List.nil_append (pre ++ mid), silentFailure_congr (by simp) hpost]
    · refine ⟨fun _ => ⟨pre ++ mid, by simp, .failed hneg fun h => hloud h.2⟩,
        fun h => absurd hneg h⟩

/-! ### Connecting -/

/-- What is promised of a connection that may be handed out after the events `tr`, begun with
the error `e`: it is authorised unless the failure was silent. -/
def HandedOut (e : ℤ) (tr : List CallEvent) (handed : Bool) (s' : Thread OneDriveConnect) :
    Prop :=
  (handed = true → s'.conn.token.Authorised) ↔ ¬(0 ≤ e ∧ SilentFailure tr)

/-- An exit before the token request. -/
private theorem handedOut_false {e : ℤ} {tr : List CallEvent} {s' : Thread OneDriveConnect}
    (htr : ∀ ev ∈ tr, ¬ev.1.OfRedirect) : HandedOut e tr false s' :=
  iff_of_true (by simp) fun h => not_silentFailure_of_outside htr h.2

/-- What the caller of the connect is handed then. -/
private theorem handedOut_of_tokenRequestEnds {s s' : Thread OneDriveConnect}
    {pre mid : List CallEvent}
    {rc : ℤ} (hpre : ∀ ev ∈ pre, ¬ev.1.OfRedirect) (h : TokenRequestEnds s mid rc s') :
    HandedOut s.hiveError (pre ++ mid) (decide (0 ≤ rc)) s' := by
  have hcongr : SilentFailure (pre ++ mid) ↔ SilentFailure mid := by
    rw [← List.append_nil (pre ++ mid)]
    exact silentFailure_congr hpre (by simp)
  unfold HandedOut
  rw [hcongr]
  cases h with
  | authorised hrc htoken hloud => exact iff_of_true (fun _ => htoken) fun h => hloud h.2
  | failed hrc hloud => exact iff_of_true (by simp [hrc]) hloud
  | silent hrc htoken herror hsilent =>
    refine iff_of_false (fun hauth => ?_) fun h => h ⟨herror, hsilent⟩
    have := (hauth (by simpa using hrc)).accessToken
    simp [htoken.accessToken] at this

/-- The connect over a keystore ends with what its caller is handed. -/
theorem connectWithKeystore_playback {s : Thread OneDriveConnect} {pre : List CallEvent}
    (hpre : ∀ ev ∈ pre, ¬ev.1.OfRedirect) (path clientId redirectUrl scope : Bytes)
    (tr : List CallEvent) :
    Script.wp playback (fun _ tr' => tr' = [] → ¬SilentFailure (pre ++ tr))
      (connectWithKeystore path clientId redirectUrl scope)
      (fun handed s' tr' => tr' = [] → HandedOut s.hiveError (pre ++ tr) handed s') s tr := by
  -- none of the calls before the token request is of a redirect
  have happend {l₁ l₂ : List CallEvent} (h₁ : ∀ ev ∈ l₁, ¬ev.1.OfRedirect)
      (h₂ : ∀ ev ∈ l₂, ¬ev.1.OfRedirect) : ∀ ev ∈ l₁ ++ l₂, ¬ev.1.OfRedirect :=
    fun ev hev => (List.mem_append.mp hev).elim (h₁ ev) (h₂ ev)
  unfold connectWithKeystore
  simp only [Script.wp_bind]
  refine Script.wp_mono (Script.wp_consumed (findKeystore_setup path).outside
    (findKeystore_spec path)) ?_ ?_
  · rintro _ _ ⟨_, _, mid, rfl, hmid⟩ rfl
    exact not_silentFailure_of_outside (happend hpre (by simpa using hmid))
  rintro (_ | keystore) s₁ tr₁ ⟨hsame, mid, rfl, hmid⟩
  · rintro rfl
    exact handedOut_false (happend hpre (by simpa using hmid))
  obtain rfl := hsame rfl
  simp only [Script.wp_bind, Script.wp_ite, Script.wp_pure]
  refine Script.wp_mono (Script.wp_consumed (oauthTokenNew_setup keystore clientId scope
    redirectUrl).outside (oauthTokenNew_spec keystore clientId scope redirectUrl)) ?_ ?_
  · rintro _ _ ⟨_, _, mid', rfl, hmid'⟩ rfl
    exact not_silentFailure_of_outside (happend hpre (happend hmid (by simpa using hmid')))
  rintro made s₂ tr₂ ⟨hmade, mid', rfl, hmid'⟩
  refine ⟨?_, fun hcreated => ?_⟩
  · rintro _ rfl
    exact handedOut_false (happend hpre (happend hmid (by simpa using hmid')))
  obtain ⟨htoken, herror⟩ := hmade (by simpa using hcreated)
  have hall := happend (happend hpre hmid) hmid'
  refine Script.wp_mono (oauthTokenRequest_playback htoken tr₂) ?_ ?_
  · rintro _ _ ⟨post, rfl, hpost⟩ rfl
    have hcongr := @silentFailure_congr (pre ++ mid ++ mid') post [] hall (by simp)
    simpa [hpost] using hcongr.not.mpr hpost
  rintro rc s₃ tr₃ ⟨post, rfl, hends⟩
  have hhanded := handedOut_of_tokenRequestEnds hall hends
  rw [herror] at hhanded
  constructor
  · rintro hneg rfl
    rw [decide_eq_false (not_le.mpr hneg)] at hhanded
    simpa using hhanded
  · rintro hneg rfl
    rw [decide_eq_true (not_lt.mp hneg)] at hhanded
    simpa using hhanded

/-- A connection that is handed out holds its three token strings, unless nothing had gone
wrong in the thread before and the redirect failed silently. -/
theorem onedriveClientConnect_authorised_iff {dataLocation : Bytes}
    {options : OneDriveConnectOptions} {s : Thread OneDriveConnect} {tr : List CallEvent}
    {o : Except Fault (Bool × Thread OneDriveConnect)}
    (hrun : Program.Exec playback (onedriveClientConnect dataLocation options s) tr o []) :
    (∀ s', o = .ok (true, s') → s'.conn.token.Authorised) ↔
      ¬(0 ≤ s.hiveError ∧ SilentFailure tr) := by
  suffices hwp : Script.wp playback (fun _ tr' => tr' = [] → ¬SilentFailure tr)
      (onedriveClientConnect dataLocation options)
      (fun handed s' tr' => tr' = [] → HandedOut s.hiveError tr handed s') s tr by
    have := Script.wp_iff_forall_exec.mp hwp o [] hrun
    rcases o with e | ⟨_ | _, s'⟩
    · exact iff_of_true (by simp) fun hand => this rfl hand.2
    · simpa [HandedOut, Program.Ends] using this
    · simpa [HandedOut, Program.Ends] using this
  -- along the text of the function, which fails before any redirect or goes on to the keystore
  clear hrun
  unfold onedriveClientConnect
  split
  · simp only [Script.wp_bind, Script.wp_modify, Script.wp_pure]
    rintro rfl
    exact handedOut_false (by simp)
  simp only [Script.wp_bind, Script.wp_ask, Script.wp_ite, Script.wp_modify, Script.wp_pure]
  rintro made tr₁ rfl
  refine ⟨?_, fun _ => ?_⟩
  · rintro _ rfl
    exact handedOut_false (by simp [Call.OfRedirect])
  split
  · simp only [Script.wp_bind, Script.wp_modify, Script.wp_pure]
    rintro rfl
    exact handedOut_false (by simp [Call.OfRedirect])
  rename_i path _
  simp only [Script.wp_bind, Script.wp_modify]
  refine Script.wp_mono (Script.wp_consumed (mkdirs_setup _).outside (mkdirs_spec _)) ?_ ?_
  · rintro _ _ ⟨_, _, pre, rfl, hpre⟩ rfl
    exact not_silentFailure_of_outside (by simpa [Call.OfRedirect] using hpre)
  rintro dir s₂ tr₂ ⟨rfl, pre, rfl, hpre⟩
  have hpre' : ∀ ev ∈ ⟨Call.malloc oneDriveConnectSize, made⟩ :: pre, ¬Call.OfRedirect ev.1 := by
    simpa [Call.OfRedirect] using hpre
  cases dir with
  | ok _ => exact connectWithKeystore_playback hpre' path _ _ _ tr₂
  | error e =>
    simp only [Script.wp_ite, Script.wp_bind, Script.wp_modify, Script.wp_pure]
    refine ⟨?_, fun _ => connectWithKeystore_playback hpre' path _ _ _ tr₂⟩
    rintro _ rfl
    exact handedOut_false (by simpa using hpre')

/-! ### A redirect server that cannot be created -/

/-- A thread without an error, before it connects. -/
def idleThread : Thread OneDriveConnect where
  conn := {
    token := {
      authorizeUrl := []
      tokenUrl := []
      clientId := []
      scope := []
      redirectUrl := [] }
    keystorePath := [] }
  hiveError := 0

/-- Valid options. -/
def validOptions : OneDriveConnectOptions where
  clientId := some (ascii "client")
  scope := some (ascii "Files.ReadWrite.AppFolder")
  redirectUrl := some (ascii "http://localhost:12345")
  callback := true
  backendType := true

/-- All directories exist, there is no keystore, and the port of the redirect server is taken. -/
def portTaken (_ : Unit) : (i : Call) → Option (i.Reply × Unit)
  | .malloc _ => some (true, ())
  | .stat _ => some (.ok .directory, ())
  | .access _ => some (false, ())
  | .httpClientNew _ => some (true, ())
  | .curlUrlGet _ _ _ => some (.ok (ascii "/"), ())
  | .sbNewServer _ _ => some (false, ())
  | _ => none

/-- What `onedrive_client_connect` returns then. -/
def unauthorisedThread : Thread OneDriveConnect where
  conn := {
    token := {
      authorizeUrl := AUTHORIZE_URL
      tokenUrl := TOKEN_URL
      clientId := ascii "client"
      scope := ascii "Files.ReadWrite.AppFolder"
      redirectUrl := ascii "http://localhost:12345" }
    keystorePath := ascii "/d/.data/onedrive.json" }
  hiveError := 0

private theorem exists_connect_portTaken : ∃ tr, Program.Exec playback
    (onedriveClientConnect (ascii "/d") validOptions idleThread) tr
    (.ok (true, unauthorisedThread)) [] := by
  have hrun : ((onedriveClientConnect (ascii "/d") validOptions idleThread).runWith
      portTaken ()).map Prod.fst = some (.ok (true, unauthorisedThread)) := rfl
  exact Program.exists_exec_of_runWith hrun

theorem onedriveClientConnect_authorised_iff_portTaken : ∃ tr,
    Program.Exec playback (onedriveClientConnect (ascii "/d") validOptions idleThread) tr
      (.ok (true, unauthorisedThread)) [] ∧
    ((∀ s', (.ok (true, unauthorisedThread) : Except Fault _) = .ok (true, s') →
      s'.conn.token.Authorised) ↔ ¬(0 ≤ idleThread.hiveError ∧ SilentFailure tr)) := by
  obtain ⟨tr, hexec⟩ := exists_connect_portTaken
  exact ⟨tr, hexec, onedriveClientConnect_authorised_iff hexec⟩

/-- The connection is handed out without tokens. -/
theorem onedriveClientConnect_unauthorised :
    ¬∀ (dataLocation : Bytes) (options : OneDriveConnectOptions) (s s' : Thread OneDriveConnect)
      (tr : List CallEvent), options.valid?.isSome →
      Program.Exec playback (onedriveClientConnect dataLocation options s) tr (.ok (true, s')) [] →
        s'.conn.token.Authorised := by
  intro h
  obtain ⟨tr, hexec⟩ := exists_connect_portTaken
  have hauth := h _ _ _ _ tr (by decide) hexec
  exact absurd hauth.tokenType (by decide)

end HiveSDK
