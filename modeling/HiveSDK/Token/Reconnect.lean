import HiveSDK.Interaction.Logged
import HiveSDK.Interaction.Simulation
import HiveSDK.Interaction.Total
import HiveSDK.Token.Writeback

/-!
# Tokens across connections

A connection writes its tokens to the keystore when they are redeemed and whenever they have been
refreshed; that they have expired it only remembers. So, over any number of connections, the
keystore holds the tokens of the last redeem or refresh (`kept_of_run`). The next connection
restores them, without asking the user, exactly when the text of their document fits the buffer it
is read into and the time of expiry is a number that a `double` can hold (`resumes_iff`).
-/

namespace HiveSDK

open Interaction C

/-! ### The environment -/

/-- How documents are written and read. -/
structure Cjson where
  print : Json → Bytes
  parse : Bytes → Option Json
  print_ne : ∀ json, print json ≠ []

/-- The keystore, and whether the user has been asked for an authorisation. -/
structure Store where
  keystore : Option Bytes
  asked : Bool

namespace Cjson

variable {J : Cjson} {path : Bytes}

/-- The environment of a connection whose keystore is at `path`, and can be written. -/
def handler (J : Cjson) (path : Bytes) : Handler Store Call Call.Reply
  | w, .access p, found, w' => (p = path → found = w.keystore.isSome) ∧ w' = w
  | w, .stat p, st, w' => (p = path → ∀ c ∈ w.keystore, st = .ok (.file c.length)) ∧ w' = w
  | w, .openFile p .readOnly, opened, w' => (p = path → opened = .ok ()) ∧ w' = w
  | w, .read p size, text, w' => (p = path → ∀ c ∈ w.keystore, text = .ok (c.take size)) ∧ w' = w
  | w, .cJSON_Parse text, json, w' => json = J.parse text ∧ w' = w
  | w, .cJSON_CreateObject, made, w' => made = true ∧ w' = w
  | w, .cJSON_Print json, text, w' => text = some (J.print json) ∧ w' = w
  | w, .openFile p .writeTruncate, opened, w' =>
    if p = path then opened = .ok () ∧ w' = { w with keystore := some [] } else w' = w
  | w, .write p data, written, w' =>
    if p = path then written = .ok data.length ∧
      w' = { w with keystore := w.keystore.map (· ++ data) }
    else w' = w
  | w, .httpClientNew .getAuthorizeCode, _, w' => w' = { w with asked := true }
  | w, _, _, w' => w' = w

/-- Neither is the keystore written nor the user asked. -/
def Idle : Call → Prop
  | .openFile _ .writeTruncate | .write _ _ | .httpClientNew .getAuthorizeCode => False
  | _ => True

/-- Idle calls leave the store alone. -/
private theorem handler_idle {w w' : Store} {call : Call} {r : call.Reply} (hcall : Idle call)
    (h : J.handler path w call r w') : w' = w := by
  cases call with
  | openFile p mode =>
    cases mode with
    | readOnly => exact h.2
    | writeTruncate => exact hcall.elim
    | writeExclusive => exact h
  | write => exact hcall.elim
  | httpClientNew user =>
    cases user with
    | getAuthorizeCode => exact hcall.elim
    | _ => exact h
  | access | stat | read | cJSON_Parse | cJSON_CreateObject | cJSON_Print => exact h.2
  | _ => exact h

/-- What is written of a document, with its terminator: the length is counted in an `int`. -/
def written (J : Cjson) (json : Json) : Bytes :=
  (J.print json ++ [0]).take (toInt (toInt (J.print json).length + 1)).toNat

/-- The keystore holds this token. -/
def Keeps (J : Cjson) (t : OAuthToken) (keystore : Option Bytes) : Prop :=
  ∃ json, t.document = some json ∧ keystore = some (J.written json)

end Cjson

/-- The document of an authorised client, with its tokens. -/
theorem OAuthToken.Authorised.document {t : OAuthToken} (h : t.Authorised) :
    ∃ tokenType accessToken refreshToken, t.tokenType = some tokenType ∧
      t.accessToken = some accessToken ∧ t.refreshToken = some refreshToken ∧
      t.document = some (keystoreTokens t.clientId tokenType accessToken refreshToken
        t.expiresAt.sec) := by
  obtain ⟨tokenType, htype⟩ := Option.isSome_iff_exists.mp h.tokenType
  obtain ⟨accessToken, haccess⟩ := Option.isSome_iff_exists.mp h.accessToken
  obtain ⟨refreshToken, hrefresh⟩ := Option.isSome_iff_exists.mp h.refreshToken
  refine ⟨tokenType, accessToken, refreshToken, htype, haccess, hrefresh, ?_⟩
  rw [OAuthToken.document, htype, haccess, hrefresh]

theorem TokensStored.keystorePath {s s' : Thread OneDriveConnect} (h : TokensStored s s') :
    s'.conn.keystorePath = s.conn.keystorePath := by
  obtain ⟨_, _, _, _, rfl⟩ := h
  rfl

theorem TokensStored.clientId {s s' : Thread OneDriveConnect} (h : TokensStored s s') :
    s'.conn.token.clientId = s.conn.token.clientId := by
  obtain ⟨_, _, _, _, rfl⟩ := h
  rfl

/-! ### What is written -/

section Writes

variable {J : Cjson} {path : Bytes} {s : Thread OneDriveConnect} {w : Store}

/-- What asks neither for a write nor for the user leaves the environment as it is. -/
private theorem wp_idle {α : Type} {P : Call → Prop} {E : Fault → Prop} {m : M OneDriveConnect α}
    (hm : m.Within P E) (hP : ∀ call, P call → Cjson.Idle call) :
    Script.wp (J.handler path) anyFault m (fun _ _ w' => w' = w) s w :=
  Script.wp_mono (hm.wp_unchanged fun _ _ _ _ hcall => Cjson.handler_idle (hP _ hcall))
    (fun _ _ _ => trivial) fun _ _ _ h => h

private theorem forRedeem_idle (call : Call) (h : call.ForRedeem) : Cjson.Idle call := by
  cases call with
  | openFile | write => exact h.elim
  | httpClientNew user =>
    cases user with
    | getAuthorizeCode => exact h.elim
    | _ => trivial
  | _ => trivial

private theorem oauthWriteback_writes (json : Json) (hpath : s.conn.keystorePath = path) :
    Script.wp (J.handler path) anyFault (oauthWriteback json)
      (fun _ s' w' => s' = s ∧ w' = { w with keystore := some (J.written json) }) s w := by
  subst hpath
  unfold oauthWriteback
  simp only [Script.wp_bind, Script.wp_ask]
  rintro _ w ⟨rfl, rfl⟩
  obtain ⟨b, text, htext⟩ := List.exists_cons_of_ne_nil (J.print_ne json)
  rw [htext]
  simp only [Script.wp_bind, Script.wp_get, Script.wp_ask]
  intro opened w₁ hopened
  rw [Cjson.handler, if_pos rfl] at hopened
  obtain ⟨rfl, rfl⟩ := hopened
  simp only [Script.wp_bind, Script.wp_ask]
  intro count w₂ hwritten
  rw [Cjson.handler, if_pos rfl] at hwritten
  obtain ⟨rfl, rfl⟩ := hwritten
  have hempty : (some []).map (· ++ (J.print json ++ [0]).take
      (toInt (toInt (J.print json).length + 1)).toNat) = some (J.written json) := by
    rw [Option.map_some, List.nil_append, Cjson.written]
  rw [htext] at hempty
  simp only [Script.wp_bind, Script.wp_ask, Script.wp_ite, Script.wp_pure, hempty]
  refine ⟨fun _ err w₃ herr => ⟨trivial, herr⟩, fun _ => ⟨trivial, trivial⟩⟩

/-- The tokens are written as the keystore keeps them. -/
private theorem writebackTokens_keeps (hpath : s.conn.keystorePath = path)
    (hauth : s.conn.token.Authorised) :
    Script.wp (J.handler path) anyFault writebackTokens
      (fun _ s' w' => s' = s ∧ J.Keeps s.conn.token w'.keystore ∧ w'.asked = w.asked) s w := by
  obtain ⟨tokenType, accessToken, refreshToken, htype, haccess, hrefresh, hdocument⟩ :=
    hauth.document
  unfold writebackTokens
  simp only [Script.wp_bind, Script.wp_get, Script.wp_pure, Script.wp_ask, Script.wp_ite]
  rintro _ w ⟨rfl, rfl⟩
  refine ⟨fun h => absurd h (by decide), fun _ => ?_⟩
  rw [htype, haccess, hrefresh]
  simp only [Script.wp_bind, Script.wp_pure]
  refine Script.wp_mono (oauthWriteback_writes _ hpath) (fun _ _ h => h) ?_
  rintro _ _ _ ⟨rfl, rfl⟩
  exact ⟨rfl, ⟨_, hdocument, rfl⟩, rfl⟩

/-- Either new tokens are stored and kept, or nothing changes. -/
private theorem refreshAccessToken_keeps (hpath : s.conn.keystorePath = path) :
    Script.wp (J.handler path) anyFault refreshAccessToken
      (fun rc s' w' => rc = 0 ∧ TokensStored s s' ∧ J.Keeps s'.conn.token w'.keystore ∨
        rc < 0 ∧ s' = s ∧ w' = w) s w := by
  unfold refreshAccessToken
  simp only [Script.wp_bind, Script.wp_get, Script.wp_pure, Script.wp_ask, Script.wp_ite]
  rintro created w₁ rfl
  refine ⟨fun _ => .inr ⟨by simp, trivial, rfl⟩, fun _ => ?_⟩
  have hfields : Script.wp (J.handler path) anyFault
      (escapeFields s.conn.token.clientId s.conn.token.redirectUrl s.conn.token.refreshToken)
      (fun _ s' _ => s' = s) s w₁ := escapeFields_spec _ _ fun _ _ => trivial
  refine Script.wp_mono (Script.wp_and hfields (wp_idle (escapeFields_redeem _ _ _)
    forRedeem_idle)) (fun _ _ _ => trivial) ?_
  rintro fields s₁ w₂ ⟨rfl, rfl⟩
  cases fields with
  | none => exact .inr ⟨by simp, rfl, rfl⟩
  | some found =>
    obtain ⟨_, _, _⟩ := found
    simp only [Script.wp_bind, Script.wp_ask, Script.wp_ite, Script.wp_pure]
    refine ⟨fun _ => .inr ⟨by simp, trivial, trivial⟩, ?_⟩
    rintro _ reply w₃ rfl
    cases hanswer : reply.answer with
    | error e => exact .inr ⟨reply.toInt_answer_neg hanswer, rfl, rfl⟩
    | ok status =>
      simp only [Script.wp_bind, Script.wp_ite, Script.wp_pure, wp_moveAndParse]
      refine ⟨fun _ => .inr ⟨by simp, trivial, trivial⟩, fun _ => ⟨fun _ => trivial, fun _ => ?_⟩⟩
      refine Script.wp_mono (Script.wp_and (decodeAccessToken_granted _)
        (wp_idle (decodeAccessToken_redeem _) forRedeem_idle)) (fun _ _ _ => trivial) ?_
      rintro rc s₂ w₄ ⟨hdec, rfl⟩
      rcases hdec with ⟨rfl, hgranted⟩ | ⟨hneg, rfl⟩
      · refine ⟨fun h => absurd h (lt_irrefl 0), fun _ => ?_⟩
        have hstored := hgranted.tokensStored
        have hpath' : s₂.conn.keystorePath = path := hstored.keystorePath.trans hpath
        refine Script.wp_mono (writebackTokens_keeps hpath' hstored.authorised) (fun _ _ h => h) ?_
        rintro _ _ _ ⟨rfl, hkeeps, hasked⟩
        exact .inl ⟨trivial, hstored, hkeeps⟩
      · exact ⟨fun _ => .inr ⟨hneg, rfl, rfl⟩, fun h => absurd hneg h⟩

/-! ### What a connection writes -/

/-- Asking for a code asks the user, whatever comes of it. -/
private theorem getAuthorizeCode_asks :
    Script.wp (J.handler path) anyFault getAuthorizeCode
      (fun _ s' w' => s'.conn = s.conn ∧ w' = { w with asked := true }) s w := by
  unfold getAuthorizeCode
  simp only [Script.wp_bind, Script.wp_get, Script.wp_pure, Script.wp_ask, Script.wp_ite,
    Script.wp_modify]
  -- every branch before the redirect leaves the connection as it is
  rintro created _ rfl
  refine ⟨fun _ => ⟨trivial, rfl⟩, fun _ => ?_⟩
  rintro url _ rfl
  cases url with
  | error _ =>
    simp only [Script.wp_bind, Script.wp_modify, Script.wp_pure]
    exact ⟨trivial, trivial⟩
  | ok url =>
  simp only [Script.wp_bind, Script.wp_ask]
  rintro host _ rfl
  cases host with
  | error _ =>
    simp only [Script.wp_bind, Script.wp_modify, Script.wp_pure]
    exact ⟨trivial, trivial⟩
  | ok host =>
  simp only [Script.wp_bind, Script.wp_ask]
  rintro port _ rfl
  cases port with
  | error _ =>
    simp only [Script.wp_bind, Script.wp_modify, Script.wp_pure]
    exact ⟨trivial, trivial⟩
  | ok port =>
  simp only [Script.wp_bind, Script.wp_ask]
  rintro redirectPath _ rfl
  cases redirectPath with
  | error _ =>
    simp only [Script.wp_bind, Script.wp_modify, Script.wp_pure]
    exact ⟨trivial, trivial⟩
  | ok redirectPath =>
  simp only [Script.wp_bind, Script.wp_get, Script.wp_pure, Script.wp_ask, Script.wp_ite,
    Script.wp_modify]
  -- the server and its thread
  rintro server _ rfl
  refine ⟨fun _ => ⟨trivial, rfl⟩, fun _ => ?_⟩
  rintro thread _ rfl
  refine ⟨fun _ err _ herr => ⟨trivial, herr⟩, fun _ => ?_⟩
  rintro polls _ rfl
  cases waitRedirect redirectPath ⟨false, [], s.hiveError⟩ polls with
  -- the loop waits for ever, and there is no state after it
  | none =>
    simp only [afterRedirect, block, Script.wp_bind, Script.wp_ask]
    exact fun e => e.elim
  | some r =>
    simp only [afterRedirect, Script.wp_bind, Script.wp_modify, Script.wp_pure]
    exact ⟨trivial, trivial⟩

/-- A code has been redeemed: the user was asked, and the connection holds tokens. -/
def redeemed (handed : Bool) (t : OAuthToken) (w : Store) : Bool :=
  handed && w.asked && t.accessToken.isSome

/-- What becomes of the keystore when a connection is opened: it stays as it is unless a code is
redeemed. -/
structure Opened (J : Cjson) (keystore : Option Bytes) (handed : Bool) (t : OAuthToken)
    (w : Store) : Prop where
  authorised : redeemed handed t w → t.Authorised
  keeps : redeemed handed t w → J.Keeps t w.keystore
  unchanged : ¬redeemed handed t w → w.keystore = keystore

theorem Opened.of_eq {keystore : Option Bytes} {handed : Bool} {t : OAuthToken} {w : Store}
    (hnot : ¬redeemed handed t w) (h : w.keystore = keystore) : Opened J keystore handed t w :=
  ⟨fun hyes => absurd hyes hnot, fun hyes => absurd hyes hnot, fun _ => h⟩

/-- A token request writes what it has redeemed. -/
theorem oauthTokenRequest_opened (hpath : s.conn.keystorePath = path) (hasked : w.asked = false) :
    Script.wp (J.handler path) anyFault oauthTokenRequest
      (fun rc s' w' => s'.conn.keystorePath = path ∧
        s'.conn.token.clientId = s.conn.token.clientId ∧
        Opened J w.keystore (decide (0 ≤ rc)) s'.conn.token w') s w := by
  unfold oauthTokenRequest
  simp only [Script.wp_bind, Script.wp_get, Script.wp_pure, Script.wp_ite]
  refine ⟨fun _ => ⟨hpath, trivial, .of_eq (by simp [redeemed, hasked]) rfl⟩, fun hnone => ?_⟩
  refine Script.wp_mono getAuthorizeCode_asks (fun _ _ h => h) ?_
  rintro code s₁ _ ⟨hconn, rfl⟩
  cases code with
  | none =>
    refine ⟨hconn ▸ hpath, by rw [hconn], .of_eq ?_ rfl⟩
    rw [hconn]
    simp [redeemed, hnone]
  | some code =>
  simp only [Script.wp_bind, Script.wp_ite, Script.wp_pure]
  refine Script.wp_mono (Script.wp_and (redeemAccessToken_spec code)
    (wp_idle (redeemAccessToken_redeem code) forRedeem_idle)) (fun _ _ _ => trivial) ?_
  rintro rc s₂ _ ⟨hredeem, rfl⟩
  rcases hredeem with ⟨rfl, hstored⟩ | ⟨hneg, rfl⟩
  · refine ⟨fun h => absurd h (lt_irrefl 0), fun _ => ?_⟩
    have hpath' : s₂.conn.keystorePath = path := by rw [hstored.keystorePath, hconn, hpath]
    refine Script.wp_mono (writebackTokens_keeps hpath' hstored.authorised) (fun _ _ h => h) ?_
    rintro _ _ w₃ ⟨rfl, hkeeps, hasked'⟩
    refine ⟨hpath', by rw [hstored.clientId, hconn], fun _ => hstored.authorised, fun _ => hkeeps,
      fun hnot => absurd ?_ hnot⟩
    simp [redeemed, hasked', hstored.authorised.accessToken]
  · refine ⟨fun _ => ⟨hconn ▸ hpath, by rw [hconn], .of_eq ?_ rfl⟩, fun h => absurd hneg h⟩
    simp [redeemed, hneg]

private theorem forDirectory_idle (call : Call) (h : call.ForDirectory) : Cjson.Idle call := by
  cases call <;> first | exact h.elim | trivial

private theorem forLookup_idle (call : Call) (h : call.ForLookup) : Cjson.Idle call := by
  cases call with
  | openFile p mode =>
    cases mode with
    | readOnly => trivial
    | _ => exact h.elim
  | write | httpClientNew => exact h.elim
  | _ => trivial

private theorem forMemory_idle (call : Call) (h : call.ForMemory) : Cjson.Idle call := by
  cases call <;> first | exact h.elim | trivial

private theorem oauthTokenNew_client (store : Option Json) (clientId scope redirectUrl : Bytes) :
    Script.wp (J.handler path) anyFault (oauthTokenNew store clientId scope redirectUrl)
      (fun made s' _ => made = true → s'.conn.keystorePath = s.conn.keystorePath ∧
        s'.conn.token.clientId = clientId) s w := by
  unfold oauthTokenNew
  simp only [Script.wp_bind, Script.wp_ask, Script.wp_ite, Script.wp_modify, Script.wp_pure]
  refine fun created w₁ _ => ⟨fun _ hfalse => absurd hfalse (by decide), fun _ => ?_⟩
  refine Script.wp_mono (restoreAccessToken_spec store) (fun _ _ h => h) ?_
  rintro _ s₁ w₂ (hstored | ⟨expiresAt, rfl⟩) _
  · exact ⟨hstored.keystorePath, hstored.clientId⟩
  · exact ⟨rfl, rfl⟩

/-- A connection that may be handed out, and the keystore it leaves. -/
structure Connected (J : Cjson) (path clientId : Bytes) (keystore : Option Bytes) (handed : Bool)
    (s : Thread OneDriveConnect) (w : Store) : Prop where
  keystorePath : handed = true → s.conn.keystorePath = path
  clientId : handed = true → s.conn.token.clientId = clientId
  opened : Opened J keystore handed s.conn.token w

theorem Connected.refused {clientId : Bytes} {keystore : Option Bytes}
    (h : w.keystore = keystore) : Connected J path clientId keystore false s w :=
  ⟨fun h => absurd h (by decide), fun h => absurd h (by decide), .of_eq (by simp [redeemed]) h⟩

/-- What the connect over a keystore leaves. -/
private theorem connectWithKeystore_connected (hpath : s.conn.keystorePath = path)
    (hasked : w.asked = false) (clientId redirectUrl scope : Bytes) :
    Script.wp (J.handler path) anyFault (connectWithKeystore path clientId redirectUrl scope)
      (fun handed s' w' => Connected J path clientId w.keystore handed s' w') s w := by
  unfold connectWithKeystore
  simp only [Script.wp_bind]
  refine Script.wp_mono (Script.wp_and (findKeystore_spec path)
    (wp_idle (findKeystore_lookup path) forLookup_idle)) (fun _ _ _ => trivial) ?_
  rintro found s₁ _ ⟨hsame, rfl⟩
  cases found with
  | none => exact .refused rfl
  | some keystore =>
  obtain rfl := hsame rfl
  simp only [Script.wp_bind, Script.wp_ite, Script.wp_pure]
  refine Script.wp_mono (Script.wp_and (oauthTokenNew_client keystore clientId scope redirectUrl)
    (wp_idle (oauthTokenNew_memory keystore clientId scope redirectUrl) forMemory_idle))
    (fun _ _ _ => trivial) ?_
  rintro made s₂ _ ⟨hmade, rfl⟩
  refine ⟨fun _ => .refused rfl, fun hcreated => ?_⟩
  obtain ⟨hpath', hclient⟩ := hmade (by simpa using hcreated)
  refine Script.wp_mono (oauthTokenRequest_opened (hpath'.trans hpath) hasked) (fun _ _ h => h) ?_
  rintro rc s₃ w₃ ⟨hpath₃, hclient₃, hopened⟩
  constructor
  · intro hneg
    rw [decide_eq_false (not_le.mpr hneg)] at hopened
    exact .refused (hopened.unchanged (by simp [redeemed]))
  · intro hneg
    rw [decide_eq_true (not_lt.mp hneg)] at hopened
    exact ⟨fun _ => hpath₃, fun _ => hclient₃.trans hclient, hopened⟩

/-- What the connect as a whole leaves. -/
private theorem onedriveClientConnect_connected {dataLocation clientId redirectUrl scope : Bytes}
    {options : OneDriveConnectOptions} (hpath : keystorePathOf dataLocation = some path)
    (hoptions : options.valid? = some (clientId, redirectUrl, scope)) (hasked : w.asked = false) :
    Script.wp (J.handler path) anyFault (onedriveClientConnect dataLocation options)
      (fun handed s' w' => Connected J path clientId w.keystore handed s' w') s w := by
  unfold onedriveClientConnect
  rw [hoptions, hpath]
  simp only [Script.wp_bind, Script.wp_ask, Script.wp_ite, Script.wp_modify, Script.wp_pure]
  rintro made _ rfl
  refine ⟨fun _ => .refused rfl, fun _ => ?_⟩
  refine Script.wp_mono (Script.wp_and (mkdirs_spec _)
    (wp_idle (mkdirs_directories _) forDirectory_idle)) (fun _ _ _ => trivial) ?_
  rintro made' s₁ _ ⟨rfl, rfl⟩
  cases made' with
  | ok _ => exact connectWithKeystore_connected (by rfl) hasked _ _ _
  | error e =>
    simp only [Script.wp_ite, Script.wp_bind, Script.wp_modify, Script.wp_pure]
    exact ⟨fun _ => .refused rfl, fun _ => connectWithKeystore_connected (by rfl) hasked _ _ _⟩

end Writes

/-! ### Sessions -/

/-- The connection of a client, the keystore at its path, and the token as it was last redeemed or
refreshed. -/
structure Session where
  conn : Option (Thread OneDriveConnect)
  keystore : Option Bytes
  last : Option OAuthToken

namespace Session

/-- What happens to a connection and its tokens. -/
inductive Event
  | connect
  | refresh
  | expire
  | disconnect

/-- The sessions of one client, which differ in their other options. A connection is opened and
perhaps handed out, its token is refreshed or not, a reply `401` has it expire, and it is closed. -/
inductive Step (J : Cjson) (dataLocation path clientId : Bytes) : Session → Event → Session → Prop
  | connect {keystore : Option Bytes} {last : Option OAuthToken} {redirectUrl scope : Bytes}
    {options : OneDriveConnectOptions} {s s' : Thread OneDriveConnect} {handed : Bool} {w : Store}
    (hoptions : options.valid? = some (clientId, redirectUrl, scope))
    (hrun : Program.Exec (J.handler path) (onedriveClientConnect dataLocation options s)
      ⟨keystore, false⟩ (.ok (handed, s')) w) :
    Step J dataLocation path clientId ⟨none, keystore, last⟩ .connect
      ⟨if handed then some s' else none, w.keystore,
        if redeemed handed s'.conn.token w then some s'.conn.token else last⟩
  | refresh {keystore : Option Bytes} {last : Option OAuthToken} {asked : Bool} {rc : ℤ}
    {s s' : Thread OneDriveConnect} {w : Store}
    (hrun : Program.Exec (J.handler path) (refreshAccessToken s) ⟨keystore, asked⟩ (.ok (rc, s'))
      w) :
    Step J dataLocation path clientId ⟨some s, keystore, last⟩ .refresh
      ⟨some s', w.keystore, if rc = 0 then some s'.conn.token else last⟩
  | expire {keystore : Option Bytes} {last : Option OAuthToken} {s : Thread OneDriveConnect} :
    Step J dataLocation path clientId ⟨some s, keystore, last⟩ .expire
      ⟨some s.expired, keystore, last⟩
  | disconnect {keystore : Option Bytes} {last : Option OAuthToken} {s : Thread OneDriveConnect} :
    Step J dataLocation path clientId ⟨some s, keystore, last⟩ .disconnect ⟨none, keystore, last⟩

/-- The tokens of the client are in the keystore. -/
structure Safe (J : Cjson) (clientId : Bytes) (keystore : Option Bytes) (t : OAuthToken) :
    Prop where
  authorised : t.Authorised
  client : t.clientId = clientId
  keeps : J.Keeps t keystore

/-- The token that was redeemed or refreshed last is in the keystore, and a connection writes its
tokens there. -/
structure Kept (J : Cjson) (path clientId : Bytes) (c : Session) : Prop where
  keystorePath : ∀ s ∈ c.conn, s.conn.keystorePath = path
  client : ∀ s ∈ c.conn, s.conn.token.clientId = clientId
  last : ∀ t ∈ c.last, Safe J clientId c.keystore t

variable {J : Cjson} {dataLocation path clientId : Bytes} {c c' : Session}

/-- A connect keeps what the session knows of the keystore. -/
theorem Kept.connect {keystore : Option Bytes} {last : Option OAuthToken} {handed : Bool}
    {s : Thread OneDriveConnect} {w : Store}
    (hlast : ∀ t ∈ last, Safe J clientId keystore t)
    (hconnected : Connected J path clientId keystore handed s w) :
    Kept J path clientId ⟨if handed then some s else none, w.keystore,
      if redeemed handed s.conn.token w then some s.conn.token else last⟩ := by
  obtain ⟨hpath, hclient, hopened⟩ := hconnected
  refine ⟨fun s' hs' => ?_, fun s' hs' => ?_, fun t ht => ?_⟩
  · cases handed with
    | true => exact Option.some.inj hs' ▸ hpath rfl
    | false => exact absurd hs' (by simp)
  · cases handed with
    | true => exact Option.some.inj hs' ▸ hclient rfl
    | false => exact absurd hs' (by simp)
  · by_cases hredeemed : redeemed handed s.conn.token w
    · have hhanded : handed = true := by
        simp only [redeemed, Bool.and_eq_true] at hredeemed
        exact hredeemed.1.1
      rw [if_pos hredeemed] at ht
      obtain rfl := Option.some.inj ht
      exact ⟨hopened.authorised hredeemed, hclient hhanded, hopened.keeps hredeemed⟩
    · rw [if_neg hredeemed] at ht
      rw [hopened.unchanged hredeemed]
      exact hlast t ht

/-- So does a refresh. -/
theorem Kept.refresh {keystore : Option Bytes} {last : Option OAuthToken} {rc : ℤ} {asked : Bool}
    {s s' : Thread OneDriveConnect} {w : Store} (h : Kept J path clientId ⟨some s, keystore, last⟩)
    (hrefreshed : rc = 0 ∧ TokensStored s s' ∧ J.Keeps s'.conn.token w.keystore ∨
      rc < 0 ∧ s' = s ∧ w = ⟨keystore, asked⟩) :
    Kept J path clientId ⟨some s', w.keystore, if rc = 0 then some s'.conn.token else last⟩ := by
  rcases hrefreshed with ⟨rfl, hstored, hkeeps⟩ | ⟨hneg, rfl, rfl⟩
  · have hclient : s'.conn.token.clientId = clientId := hstored.clientId.trans (h.client s rfl)
    refine ⟨?_, ?_, ?_⟩
    · rintro _ ⟨⟩
      exact hstored.keystorePath.trans (h.keystorePath s rfl)
    · rintro _ ⟨⟩
      exact hclient
    · rintro _ ⟨⟩
      exact ⟨hstored.authorised, hclient, hkeeps⟩
  · rw [if_neg hneg.ne]
    exact h

/-- Any step of the session does. -/
theorem Kept.step (hpath : keystorePathOf dataLocation = some path) {e : Event}
    (hkept : c.Kept J path clientId) (hstep : Step J dataLocation path clientId c e c') :
    c'.Kept J path clientId := by
  cases hstep with
  | @connect keystore last _ _ _ s _ _ _ hoptions hrun =>
    have hconnected := onedriveClientConnect_connected (J := J) (s := s) (w := ⟨keystore, false⟩)
      hpath hoptions rfl
    exact .connect hkept.last (hconnected.of_exec hrun)
  | refresh hrun =>
    exact hkept.refresh ((refreshAccessToken_keeps (hkept.keystorePath _ rfl)).of_exec hrun)
  | @expire _ _ s =>
    refine ⟨?_, ?_, hkept.last⟩
    · rintro _ ⟨⟩
      exact hkept.keystorePath s rfl
    · rintro _ ⟨⟩
      exact hkept.client s rfl
  | disconnect => exact ⟨fun _ h => absurd h (by simp), fun _ h => absurd h (by simp), hkept.last⟩

/-- Over any number of sessions, the keystore holds the tokens of the last redeem or refresh. -/
private theorem kept_of_run (hpath : keystorePathOf dataLocation = some path) {events : List Event}
    (hrun : Run (Step J dataLocation path clientId) c events c') (hc : c.Kept J path clientId) :
    c'.Kept J path clientId :=
  Run.invariant (P := fun _ => True) (fun _ _ _ _ hkept hstep => hkept.step hpath hstep) hrun
    (fun _ _ => trivial) hc

end Session

/-! ### The next connection -/

namespace Cjson

variable {J : Cjson} {path : Bytes} {w w' : Store}

/-- The environment of a connection that only its keystore can stop: there is memory, and the
directories are there. -/
def calm (J : Cjson) (path : Bytes) : Handler Store Call Call.Reply
  | w, .malloc size, made, w' => J.handler path w (.malloc size) made w' ∧ made = true
  | w, .stat p, st, w' =>
    J.handler path w (.stat p) st w' ∧ (p ≠ path → st = .ok .directory)
  | w, call, r, w' => J.handler path w call r w'

private theorem handler_of_calm {call : Call} {r : call.Reply} (h : J.calm path w call r w') :
    J.handler path w call r w' := by
  cases call with
  | malloc | stat => exact h.1
  | _ => exact h

/-- What is asked before a token is requested is answered. -/
private theorem calm_answers (w : Store) (call : Call) (hcall : call.OfSetup) :
    ∃ r w', J.calm path w call r w' := by
  cases call with
  | malloc size => exact ⟨true, w, rfl, rfl⟩
  | errno => exact ⟨(0 : ℤ), w, rfl⟩
  | mkdir p => exact ⟨.ok (), w, rfl⟩
  | access p => exact ⟨w.keystore.isSome, w, fun _ => rfl, rfl⟩
  | cJSON_Parse text => exact ⟨J.parse text, w, rfl, rfl⟩
  | stat p =>
    by_cases hp : p = path
    · refine ⟨.ok (.file (w.keystore.getD []).length), w, ⟨fun _ c hc => ?_, rfl⟩,
        fun h => absurd hp h⟩
      rw [Option.mem_def.mp hc, Option.getD_some]
    · exact ⟨.ok .directory, w, ⟨fun h => absurd h hp, rfl⟩, fun _ => rfl⟩
  | read p size =>
    refine ⟨.ok ((w.keystore.getD []).take size), w, fun _ c hc => ?_, rfl⟩
    rw [Option.mem_def.mp hc, Option.getD_some]
  | openFile p mode =>
    cases mode with
    | readOnly => exact ⟨.ok (), w, fun _ => rfl, rfl⟩
    | writeTruncate =>
      by_cases hp : p = path
      · refine ⟨.ok (), { w with keystore := some [] }, ?_⟩
        change if p = path then _ else _
        rw [if_pos hp]
        exact ⟨rfl, rfl⟩
      · refine ⟨.ok (), w, ?_⟩
        change if p = path then _ else _
        rw [if_neg hp]
    | writeExclusive => exact ⟨.ok (), w, rfl⟩
  | _ => exact hcall.elim

/-- A calm store is read as it is. -/
private theorem calm_faithful {call : Call} (hcall : call.ForLookup) {r : call.Reply}
    (h : J.calm path w call r w') :
    CallEvent.Faithful J.parse path w.keystore ⟨call, r⟩ ∧ w' = w := by
  refine ⟨?_, handler_idle (forLookup_idle call hcall) (handler_of_calm h)⟩
  cases call with
  | access | stat | read | cJSON_Parse => exact (handler_of_calm h).1
  | openFile p mode =>
    cases mode with
    | readOnly => exact (handler_of_calm h).1
    | _ => exact hcall.elim
  | errno => trivial
  | _ => exact hcall.elim

end Cjson

/-- The connection holds the tokens of `t` again; they expire in the second `sec`. -/
structure Resumed (t : OAuthToken) (sec : ℤ) (t' : OAuthToken) : Prop where
  tokenType : t'.tokenType = t.tokenType
  accessToken : t'.accessToken = t.accessToken
  refreshToken : t'.refreshToken = t.refreshToken
  expiresAt : t'.expiresAt = ⟨sec, 0⟩

/-- The second in which tokens expire, after it has been written as a number and read again. -/
def OAuthToken.storedSec (t : OAuthToken) : ℤ := (longToDouble t.expiresAt.sec).toLong

section Calm

variable {J : Cjson} {path : Bytes} {w : Store} {F : Fault → Store → Prop}

theorem mkdirInternal_calm {C : Type} {s : Thread C} {p : Bytes} (hp : p ≠ path) :
    Script.wp (J.calm path) F (mkdirInternal p)
      (fun made s' w' => made = .ok () ∧ s' = s ∧ w' = w) s w := by
  unfold mkdirInternal
  simp only [Script.wp_bind, Script.wp_ask]
  rintro st _ ⟨⟨-, rfl⟩, hst⟩
  obtain rfl := hst hp
  exact ⟨rfl, rfl, rfl⟩

theorem mkdirsLoop_calm {C : Type} {s : Thread C} (done component rest : Bytes)
    (hlength : done.length + component.length + rest.length < path.length) :
    Script.wp (J.calm path) F (mkdirsLoop done component rest)
      (fun made s' w' => made = .ok () ∧ s' = s ∧ w' = w) s w := by
  induction rest generalizing done component with
  | nil => exact ⟨rfl, rfl, rfl⟩
  | cons c rest ih =>
    rw [List.length_cons] at hlength
    unfold mkdirsLoop
    simp only [Script.wp_ite, Script.wp_bind]
    refine ⟨fun _ => ih _ _ ?_, fun _ => ⟨fun _ => ih _ _ ?_, fun _ => ?_⟩⟩
    · simp only [List.length_append, List.length_singleton]
      omega
    · simp only [List.length_append, List.length_singleton, List.length_nil]
      omega
    · have hp : done ++ component ≠ path := by
        rintro rfl
        rw [List.length_append] at hlength
        omega
      refine Script.wp_mono (mkdirInternal_calm hp) (fun _ _ h => h) ?_
      rintro _ _ _ ⟨rfl, rfl, rfl⟩
      refine ih _ _ ?_
      simp only [List.length_append, List.length_singleton, List.length_nil]
      omega

/-- The directories need not be made. -/
theorem mkdirs_calm {C : Type} {s : Thread C} {dir : Bytes} (hdir : dir.length < path.length) :
    Script.twp (J.calm path) F (mkdirs dir)
      (fun made s' w' => made = .ok () ∧ s' = s ∧ w' = w) s w := by
  refine Script.wp.total J.calm_answers (mkdirs_setup dir) ?_
  unfold mkdirs
  simp only [Script.wp_bind]
  refine Script.wp_mono (mkdirsLoop_calm [] [] _ ?_) (fun _ _ h => h) ?_
  · simp only [List.length_nil, List.length_take]
    omega
  · rintro _ _ _ ⟨rfl, rfl, rfl⟩
    refine mkdirInternal_calm ?_
    rintro rfl
    exact absurd hdir (lt_irrefl _)

variable {s : Thread OneDriveConnect} {c : Bytes}

/-- A document is read from the keystore, or it is refused. -/
theorem findKeystore_calm (hc : w.keystore = some c) :
    Script.twp (J.calm path) (fun _ _ => keystoreIn J.parse c = none) (findKeystore path)
      (fun found s' w' => w' = w ∧ match keystoreIn J.parse c with
        | some json => found = some (some json) ∧ s' = s
        | none => found = none) s w := by
  have hreads : Script.wp (recordOnly (CallEvent.Faithful J.parse path (some c))) _
    (findKeystore path) _ s [] := findKeystore_reads
  have hwp := (findKeystore_lookup path).wp_of_recordOnly (h := J.calm path) (w := w)
    (fun call r w' hcall hr => hc ▸ J.calm_faithful hcall hr) hreads
  refine Script.wp.total J.calm_answers (findKeystore_setup path) ?_
  exact Script.wp_mono hwp (fun _ _ h => h.2.choose_spec) fun _ _ _ h => ⟨h.1, h.2.choose_spec⟩

/-- The tokens of the client are restored from their document. -/
theorem oauthTokenNew_calm {t : OAuthToken} {json : Json} (hauth : t.Authorised)
    (hdocument : t.document = some json) (scope redirectUrl : Bytes) :
    Script.twp (J.calm path) F (oauthTokenNew (some json) t.clientId scope redirectUrl)
      (fun made s' w' => made = true ∧ w' = w ∧ Resumed t t.storedSec s'.conn.token) s w := by
  obtain ⟨tokenType, accessToken, refreshToken, htype, haccess, hrefresh, hjson⟩ := hauth.document
  obtain rfl := Option.some.inj (hdocument.symm.trans hjson)
  obtain ⟨hclient, htype', haccess', hrefresh', hexpires⟩ :=
    getObjectItem_keystoreTokens t.clientId tokenType accessToken refreshToken t.expiresAt.sec
  refine Script.wp.total J.calm_answers (oauthTokenNew_setup _ _ _ _) ?_
  unfold oauthTokenNew restoreAccessToken
  simp only [Script.wp_bind, Script.wp_ask, Script.wp_ite, Script.wp_modify, Script.wp_pure,
    Script.wp_get]
  rintro _ _ ⟨rfl, rfl⟩
  refine ⟨fun h => absurd h (by decide), fun _ => ?_⟩
  rw [hclient, htype', haccess', hrefresh', hexpires]
  simp only [Json.string?, Json.number?, Script.wp_bind, Script.wp_modify, Script.wp_ask,
    Script.wp_ite, Script.wp_pure]
  refine ⟨fun h => absurd rfl h, fun _ => ?_⟩
  rintro _ _ ⟨rfl, rfl⟩
  refine ⟨fun h => absurd h (by decide), fun _ => ⟨trivial, rfl, ?_⟩⟩
  exact ⟨htype.symm, haccess.symm, hrefresh.symm, rfl⟩

/-- The next connection resumes the tokens that are read from the keystore; without them it is not
handed out. -/
theorem onedriveClientConnect_calm {dataLocation redirectUrl scope : Bytes} {t : OAuthToken}
    {options : OneDriveConnectOptions} (hpath : keystorePathOf dataLocation = some path)
    (hoptions : options.valid? = some (t.clientId, redirectUrl, scope)) (hauth : t.Authorised)
    (hc : w.keystore = some c) (hdocument : ∀ json ∈ keystoreIn J.parse c, t.document = some json) :
    Script.twp (J.calm path) (fun _ _ => keystoreIn J.parse c = none)
      (onedriveClientConnect dataLocation options)
      (fun handed s' w' => match keystoreIn J.parse c with
        | some _ => handed = true ∧ w' = w ∧ Resumed t t.storedSec s'.conn.token
        | none => handed = false) s w := by
  unfold onedriveClientConnect connectWithKeystore
  rw [hoptions, hpath]
  simp only [Script.twp_bind, Script.twp_ask, Script.twp_ite, Script.twp_modify]
  refine ⟨J.calm_answers w (.malloc oneDriveConnectSize) trivial, ?_⟩
  rintro _ _ ⟨rfl, rfl⟩
  refine ⟨fun h => absurd h (by decide), fun _ => ?_⟩
  refine Script.twp_mono (mkdirs_calm (length_dirname_keystorePath hpath)) (fun _ _ h => h) ?_
  rintro _ s₁ w₁ ⟨rfl, -, rfl⟩
  simp only [Script.twp_bind]
  refine Script.twp_mono (findKeystore_calm hc) (fun _ _ h => h) ?_
  rintro found s₂ w₂ ⟨rfl, hfound⟩
  cases hread : keystoreIn J.parse c with
  | none =>
    rw [hread] at hfound
    obtain rfl := hfound
    rfl
  | some json =>
    rw [hread] at hfound
    obtain ⟨rfl, rfl⟩ := hfound
    simp only [Script.twp_bind, Script.twp_ite, Script.twp_pure]
    refine Script.twp_mono (oauthTokenNew_calm hauth (hdocument json hread) scope redirectUrl)
      (fun _ _ h => h) ?_
    rintro _ s₃ w₃ ⟨rfl, rfl, hresumed⟩
    refine ⟨fun h => absurd h (by decide), fun _ => ?_⟩
    -- the token that was read is there, so no authorization code is asked for
    have hsome : s₃.conn.token.accessToken.isSome := by
      rw [hresumed.accessToken]
      exact hauth.accessToken
    unfold oauthTokenRequest
    simp only [Script.twp_bind, Script.twp_get, Script.twp_pure, Script.twp_ite]
    refine ⟨fun _ => ⟨fun h => absurd h (lt_irrefl 0), fun _ => ⟨trivial, trivial, hresumed⟩⟩, ?_⟩
    exact fun hno => absurd hsome hno

end Calm

/-- The next connection resumes the tokens of `t`, without asking the user. -/
def Resumes (J : Cjson) (dataLocation path : Bytes) (options : OneDriveConnectOptions)
    (t : OAuthToken) (keystore : Option Bytes) : Prop :=
  ∀ s, Script.twp (J.calm path) noFault (onedriveClientConnect dataLocation options)
    (fun handed s' w' => handed = true ∧ w' = ⟨keystore, false⟩ ∧
      Resumed t t.expiresAt.sec s'.conn.token) s ⟨keystore, false⟩

/-- The document of `t` fits the buffer it is read into, and the second in which it expires is a
number that a `double` can hold. -/
def Readmits (J : Cjson) (t : OAuthToken) : Prop :=
  (∀ json ∈ t.document, (J.print json).length < keystoreBufferSize) ∧
    t.storedSec = t.expiresAt.sec

/-- What has been written is read back, when it fits the buffer. -/
private theorem keystoreIn_written {J : Cjson} {json : Json}
    (hprints : PrintsBack J.print J.parse json) :
    keystoreIn J.parse (J.written json) =
      if (J.print json).length < keystoreBufferSize then some json else none := by
  rw [Cjson.written, keystoreIn_take hprints]
  refine if_congr (and_iff_right_of_imp fun hfits => ?_) rfl rfl
  generalize (J.print json).length = n at hfits ⊢
  have hn : (n : ℤ) < 4096 := Int.ofNat_lt.mpr hfits
  have hcount : toInt n = n := toInt_eq_self (by omega) (by omega)
  rw [hcount, toInt_eq_self (by omega) (by omega)]
  omega

/-- Tokens that are in the keystore are resumed if their document is readmitted. -/
theorem Session.Safe.reconnects_iff {J : Cjson}
    {dataLocation path clientId redirectUrl scope : Bytes} {options : OneDriveConnectOptions}
    {t : OAuthToken} {keystore : Option Bytes} (hsafe : Safe J clientId keystore t)
    (hpath : keystorePathOf dataLocation = some path)
    (hoptions : options.valid? = some (clientId, redirectUrl, scope))
    (hprints : ∀ json ∈ t.document, PrintsBack J.print J.parse json) :
    Resumes J dataLocation path options t keystore ↔ Readmits J t := by
  obtain ⟨hauth, rfl, json, hdocument, rfl⟩ := hsafe
  have hread := keystoreIn_written (hprints json hdocument)
  have hfits : (∀ json ∈ t.document, (J.print json).length < keystoreBufferSize) ↔
      (J.print json).length < keystoreBufferSize := by
    simp only [hdocument, Option.mem_some_iff, forall_eq']
  have hstored : ∀ json' ∈ keystoreIn J.parse (J.written json), t.document = some json' := by
    intro json' hjson'
    rw [hread] at hjson'
    split at hjson'
    · rw [hdocument, ← hjson']
    · cases hjson'
  have hcalm (s : Thread OneDriveConnect) := onedriveClientConnect_calm (J := J) (s := s)
    (w := ⟨some (J.written json), false⟩) hpath hoptions hauth rfl hstored
  rw [Readmits, hfits]
  rw [hread] at hcalm
  constructor
  · intro hresumes
    -- one run, which ends as the connect does and as `Resumes` asks
    obtain ⟨o, w', hex⟩ := (hcalm idleThread).halts.exists_exec
    have hends := Program.wp_iff_forall_exec.mp (hcalm idleThread).wp o w' hex
    have hresumed := Program.wp_iff_forall_exec.mp (hresumes idleThread).wp o w' hex
    rcases o with e | ⟨handed, s'⟩
    · exact hresumed.elim
    obtain ⟨rfl, -, hresumed⟩ := hresumed
    by_cases hlength : (J.print json).length < keystoreBufferSize
    · simp only [Program.Ends, if_pos hlength] at hends
      have hexpires := hends.2.2.expiresAt.symm.trans hresumed.expiresAt
      exact ⟨hlength, congrArg Timeval.sec hexpires⟩
    · simp only [Program.Ends, if_neg hlength] at hends
      cases hends
  · rintro ⟨hlength, hsec⟩ s
    have htwp := hcalm s
    simp only [if_pos hlength, hsec] at htwp
    exact Script.twp_mono htwp (fun _ _ h => by cases h) fun _ _ _ h => h

/-- Over any number of connections of one client, with any number of refreshes and expirations, the
next connection resumes the tokens that were redeemed or refreshed last exactly when their document
is readmitted. -/
theorem resumes_iff {J : Cjson} {dataLocation path clientId redirectUrl scope : Bytes}
    {keystore : Option Bytes} {events : List Session.Event} {c : Session} {t : OAuthToken}
    {options : OneDriveConnectOptions} (hpath : keystorePathOf dataLocation = some path)
    (hrun : Run (Session.Step J dataLocation path clientId) ⟨none, keystore, none⟩ events c)
    (hlast : c.last = some t) (hoptions : options.valid? = some (clientId, redirectUrl, scope))
    (hprints : ∀ json ∈ t.document, PrintsBack J.print J.parse json) :
    Resumes J dataLocation path options t c.keystore ↔ Readmits J t := by
  have hkept : c.Kept J path clientId :=
    Session.kept_of_run hpath hrun ⟨by simp, by simp, by simp⟩
  exact (hkept.last t hlast).reconnects_iff hpath hoptions hprints

/-! ### A long token -/

/-- A document that grants this access token for an hour. -/
def grantDocument (accessToken : Bytes) : Json :=
  .object [
    (ascii "token_type", .string (ascii "t")),
    (ascii "scope", .string (ascii "s")),
    (ascii "access_token", .string accessToken),
    (ascii "refresh_token", .string (ascii "r")),
    (ascii "expires_in", .number (.ofInt 3600))]

/-- The reply with this document. -/
def grantReply (accessToken : Bytes) : HttpReply where
  performed := 0
  info := 0
  status := 200
  chunks := [ascii "\x7b\x7d"]
  parsed := some (grantDocument accessToken)

/-- The event of a refresh that is granted at the beginning of 1970. -/
def CallEvent.Grants (accessToken : Bytes) : CallEvent → Prop
  | ⟨.malloc _, made⟩ => made = true
  | ⟨.httpClientNew _, made⟩ => made = true
  | ⟨.httpClientEscape _, text⟩ => text = some []
  | ⟨.httpClientPerform _, reply⟩ => reply = grantReply accessToken
  | ⟨.gettimeofday, now⟩ => now = ⟨0, 0⟩
  | _ => True

/-- The environment of a refresh that is granted. -/
def Cjson.granting (J : Cjson) (path accessToken : Bytes) : Handler Store Call Call.Reply :=
  fun w call r w' => J.handler path w call r w' ∧ CallEvent.Grants accessToken ⟨call, r⟩

section Grants

variable {J : Cjson} {path accessToken : Bytes} {s : Thread OneDriveConnect} {w : Store}

private theorem granting_answers (w : Store) (call : Call) (hcall : call.ForToken) :
    ∃ r w', J.granting path accessToken w call r w' := by
  cases call with
  | gettimeofday => exact ⟨(⟨0, 0⟩ : Timeval), w, rfl, rfl⟩
  | errno => exact ⟨(0 : ℤ), w, rfl, trivial⟩
  | malloc size => exact ⟨true, w, rfl, rfl⟩
  | httpClientNew user =>
    cases user with
    | refreshAccessToken => exact ⟨true, w, rfl, rfl⟩
    | _ => exact hcall.elim
  | httpClientEscape data => exact ⟨some [], w, rfl, rfl⟩
  | httpClientPerform request => exact ⟨grantReply accessToken, w, rfl, rfl⟩
  | cJSON_CreateObject => exact ⟨true, w, ⟨rfl, rfl⟩, trivial⟩
  | cJSON_Print json => exact ⟨some (J.print json), w, ⟨rfl, rfl⟩, trivial⟩
  | openFile p mode =>
    have hanswers : ∃ r w', J.calm path w (.openFile p mode) r w' := J.calm_answers w _ trivial
    obtain ⟨r, w', hr⟩ := hanswers
    exact ⟨r, w', hr, trivial⟩
  | write p data =>
    by_cases hp : p = path
    · refine ⟨.ok data.length, { w with keystore := w.keystore.map (· ++ data) }, ?_, trivial⟩
      rw [Cjson.handler, if_pos hp]
      exact ⟨rfl, rfl⟩
    · refine ⟨.ok data.length, w, ?_, trivial⟩
      rw [Cjson.handler, if_neg hp]
  | _ => exact hcall.elim

private theorem decodeAccessToken_granting (haccess : accessToken ≠ []) :
    Script.wp (J.granting path accessToken) noFault
      (decodeAccessToken (some (grantDocument accessToken)))
      (fun rc s' w' => rc = 0 ∧ w' = w ∧ s' = s.withToken (s.conn.token.withTokens (ascii "t")
        accessToken (ascii "r") ⟨3600, 0⟩)) s w := by
  obtain ⟨b, text, rfl⟩ := List.exists_cons_of_ne_nil haccess
  have hstrings : let json := grantDocument (b :: text)
      Json.nonemptyString? (json.getObjectItemCaseSensitive (ascii "token_type")) =
        some (ascii "t") ∧
      Json.nonemptyString? (json.getObjectItemCaseSensitive (ascii "scope")) = some (ascii "s") ∧
      Json.nonemptyString? (json.getObjectItemCaseSensitive (ascii "access_token")) =
        some (b :: text) ∧
      Json.nonemptyString? (json.getObjectItemCaseSensitive (ascii "refresh_token")) =
        some (ascii "r") ∧
      Json.number? (json.getObjectItemCaseSensitive (ascii "expires_in")) =
        some (.ofInt 3600) :=
    ⟨rfl, rfl, rfl, rfl, rfl⟩
  obtain ⟨htype, hscope, haccess, hrefresh, hexpires⟩ := hstrings
  unfold decodeAccessToken
  dsimp only
  rw [htype, hscope, haccess, hrefresh, hexpires]
  simp only [Script.wp_bind, Script.wp_ask, Script.wp_ite, Script.wp_modify, Script.wp_pure]
  rintro _ _ ⟨rfl, rfl⟩
  refine ⟨fun h => absurd h (by decide), fun _ => ?_⟩
  rintro _ _ ⟨rfl, rfl⟩
  refine ⟨fun h => absurd h (by decide), fun _ => ?_⟩
  rintro _ _ ⟨rfl, rfl⟩
  refine ⟨fun h => absurd h (by decide), fun _ => ⟨fun h => absurd h (by decide), fun _ => ?_⟩⟩
  rintro _ _ ⟨rfl, rfl⟩
  exact ⟨trivial, rfl, rfl⟩

/-- A refresh that is granted ends with the tokens stored. -/
private theorem refreshAccessToken_granting {refreshToken : Bytes}
    (hrefresh : s.conn.token.refreshToken = some refreshToken) (haccess : accessToken ≠ []) :
    Script.twp (J.granting path accessToken) noFault refreshAccessToken
      (fun rc s' _ => rc = 0 ∧ s' = s.withToken (s.conn.token.withTokens (ascii "t") accessToken
        (ascii "r") ⟨3600, 0⟩)) s w := by
  refine Script.wp.total granting_answers refreshAccessToken_confined.within ?_
  unfold refreshAccessToken escapeFields
  simp only [Script.wp_bind, Script.wp_get, Script.wp_pure, Script.wp_ask, Script.wp_ite, hrefresh]
  rintro _ _ ⟨rfl, rfl⟩
  refine ⟨fun h => absurd h (by decide), fun _ => ?_⟩
  rintro _ _ ⟨rfl, rfl⟩
  simp only [Script.wp_bind, Script.wp_ask]
  rintro _ _ ⟨rfl, rfl⟩
  simp only [Script.wp_bind, Script.wp_ask]
  rintro _ _ ⟨rfl, rfl⟩
  simp only [Script.wp_bind, Script.wp_ask, Script.wp_ite, Script.wp_pure]
  refine ⟨fun h => absurd h (by decide), fun _ => ?_⟩
  rintro _ _ ⟨rfl, rfl⟩
  have hanswer : (grantReply accessToken).answer = .ok 200 := rfl
  rw [hanswer]
  simp only [Script.wp_bind, Script.wp_ite, Script.wp_pure, wp_moveAndParse]
  refine ⟨fun h => absurd rfl h, fun _ => ⟨fun h => ?_, fun _ => ?_⟩⟩
  · have hreceived : (grantReply accessToken).received = ascii "\x7b\x7d" := rfl
    rw [hreceived] at h
    exact absurd h (by decide)
  refine Script.wp_mono (decodeAccessToken_granting haccess) (fun _ _ h => h) ?_
  rintro _ s₁ w₁ ⟨rfl, rfl, rfl⟩
  refine ⟨fun h => absurd h (lt_irrefl 0), fun _ => ?_⟩
  have hauth := OAuthToken.authorised_withTokens s.conn.token (ascii "t") accessToken (ascii "r")
    ⟨3600, 0⟩
  refine Script.wp_mono (writebackTokens_spec (.inl hauth)) (fun _ _ h => h) ?_
  rintro _ _ _ rfl
  exact ⟨trivial, rfl⟩

end Grants

/-- An access token as long as the buffer of the keystore. -/
def longToken : Bytes := List.replicate keystoreBufferSize 97

/-- The document of the tokens that have been refreshed with it. -/
def longDocument : Json :=
  keystoreTokens (ascii "client") (ascii "t") longToken (ascii "r") 3600

/-- The text of that document. -/
def longText : Bytes :=
  ascii "\x7b\"client_id\":\"client\",\"token_type\":\"t\",\"access_token\":\"" ++ longToken ++
    ascii "\",\"refresh_token\":\"r\",\"expires_at\":3600\x7d"

private theorem length_longText : keystoreBufferSize < longText.length := by
  unfold longText longToken
  rw [List.length_append, List.length_append, List.length_replicate]
  have hend : 0 < (ascii "\",\"refresh_token\":\"r\",\"expires_at\":3600\x7d").length := by decide
  omega

/-- The texts of the tokens before and after. -/
def longCjson : Cjson where
  print _ := longText
  parse text := if text = longText then some longDocument else parseHeld text
  print_ne _ h := absurd (congrArg List.length h) (length_longText.trans_le' (Nat.zero_le _)).ne'

private theorem longCjson_print (json : Json) : longCjson.print json = longText := rfl

private theorem longCjson_parse (text : Bytes) : longCjson.parse text =
    if text = longText then some longDocument else parseHeld text := rfl

private theorem printsBack_long : PrintsBack longCjson.print longCjson.parse longDocument where
  nonempty := longCjson.print_ne _
  string := by
    rw [longCjson_print]
    unfold longText longToken
    simp only [List.mem_append, List.mem_replicate, not_or]
    exact ⟨⟨by decide, by decide⟩, by decide⟩
  whole := by
    rw [longCjson_print, longCjson_parse]
    exact if_pos rfl
  cut n hn := by
    rw [longCjson_print] at hn ⊢
    rw [longCjson_parse, if_neg, parseHeld, if_neg]
    · -- the access tokens differ in their second letters
      intro htake
      have hheld : heldText[56]? = some 34 := rfl
      have hlong : longText[56]? = some 97 := rfl
      rw [← htake, List.getElem?_take] at hheld
      split at hheld
      · rw [hlong] at hheld
        exact absurd hheld (by decide)
      · cases hheld
    · intro htake
      have hlength := congrArg List.length htake
      rw [List.length_take] at hlength
      omega

/-- The tokens that are in the keystore at the beginning are read. -/
private theorem keystoreIn_held :
    keystoreIn longCjson.parse (heldText ++ [0]) = some heldTokens := by
  have hne : heldText ≠ longText := by
    intro h
    have hlength := congrArg List.length h
    exact absurd (hlength ▸ length_longText) (by decide)
  have hread : ¬(heldText ++ [0] = [] ∨ keystoreBufferSize < (heldText ++ [0]).length ∨
      ((heldText ++ [0]).length = keystoreBufferSize ∧ 0 ∉ heldText ++ [0])) := by decide
  have hstring : cString (heldText ++ [0]) = heldText := cString_append_zero (by decide)
  rw [keystoreIn, if_neg hread, hstring, longCjson_parse, if_neg hne]
  exact if_pos rfl

/-- The client connects with the tokens it has, and they are refreshed. -/
private theorem exists_longRun : ∃ c t,
    Run (Session.Step longCjson (ascii "/d") tokenHolder.conn.keystorePath (ascii "client"))
      ⟨none, some (heldText ++ [0]), none⟩ [.connect, .refresh] c ∧
    c.last = some t ∧ t.document = some longDocument := by
  have hpath : keystorePathOf (ascii "/d") = some tokenHolder.conn.keystorePath := rfl
  have hoptions : holderOptions.valid? = some (tokenHolder.conn.token.clientId,
    tokenHolder.conn.token.redirectUrl, tokenHolder.conn.token.scope) := rfl
  have hdocument : ∀ json ∈ keystoreIn longCjson.parse (heldText ++ [0]),
      tokenHolder.conn.token.document = some json := by
    rw [keystoreIn_held]
    exact fun json hjson => hjson
  obtain ⟨o, w, hconnect, hends⟩ := Program.reaches_iff_exists_exec.mp
    (onedriveClientConnect_calm (J := longCjson) (s := idleThread)
      (w := ⟨some (heldText ++ [0]), false⟩) hpath hoptions ⟨rfl, rfl, rfl⟩ rfl hdocument).reaches
  rw [keystoreIn_held] at hends
  rcases o with e | ⟨handed, s⟩
  · cases hends
  obtain ⟨rfl, rfl, hresumed⟩ := hends
  have hfirst : Session.Step longCjson (ascii "/d") tokenHolder.conn.keystorePath (ascii "client")
      ⟨none, some (heldText ++ [0]), none⟩ .connect ⟨some s, some (heldText ++ [0]), none⟩ :=
    .connect hoptions (hconnect.of_handler fun _ _ _ _ h => Cjson.handler_of_calm h)
  have hlong : longToken ≠ [] :=
    List.ne_nil_of_length_pos (by rw [longToken, List.length_replicate]; decide)
  obtain ⟨o, w, hrefresh, hends⟩ := Program.reaches_iff_exists_exec.mp
    (refreshAccessToken_granting (J := longCjson) (s := s) (w := ⟨some (heldText ++ [0]), false⟩)
      hresumed.refreshToken hlong).reaches
  rcases o with e | ⟨rc, s'⟩
  · cases hends
  obtain ⟨rfl, rfl⟩ := hends
  have hsecond : Session.Step longCjson (ascii "/d") tokenHolder.conn.keystorePath (ascii "client")
      ⟨some s, some (heldText ++ [0]), none⟩ .refresh ⟨_, w.keystore, some _⟩ :=
    .refresh (hrefresh.of_handler fun _ _ _ _ h => h.1)
  have hclient : s.conn.token.clientId = ascii "client" :=
    (Session.kept_of_run hpath (.cons hfirst (.nil _)) ⟨by simp, by simp, by simp⟩).client s rfl
  refine ⟨_, _, .cons hfirst (.cons hsecond (.nil _)), rfl, ?_⟩
  exact congrArg (fun client => some (keystoreTokens client (ascii "t") longToken (ascii "r") 3600))
    hclient

private theorem printsBack_longRun {t : OAuthToken} (hdocument : t.document = some longDocument) :
    ∀ json ∈ t.document, PrintsBack longCjson.print longCjson.parse json := by
  intro json hjson
  obtain rfl := Option.some.inj (hdocument.symm.trans hjson)
  exact printsBack_long

theorem resumes_iff_long : ∃ c t,
    Run (Session.Step longCjson (ascii "/d") tokenHolder.conn.keystorePath (ascii "client"))
      ⟨none, some (heldText ++ [0]), none⟩ [.connect, .refresh] c ∧ c.last = some t ∧
    (Resumes longCjson (ascii "/d") tokenHolder.conn.keystorePath holderOptions t c.keystore ↔
      Readmits longCjson t) := by
  obtain ⟨c, t, hrun, hlast, hdocument⟩ := exists_longRun
  exact ⟨c, t, hrun, hlast, resumes_iff rfl hrun hlast rfl (printsBack_longRun hdocument)⟩

end HiveSDK
