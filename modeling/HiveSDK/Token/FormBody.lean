import HiveSDK.Http.Replies
import HiveSDK.Model.HttpClient
import HiveSDK.Token.Redeem
import Mathlib.Data.List.TakeDrop

/-!
# The bodies of the token requests

`redeem_access_token` and `refresh_access_token` put four pairs into a form body. Three values are
escaped by `http_client_escape`, which narrows their length to an `int`. A string whose length fits
is escaped as a whole, so the body reads as the four pairs intended; a string of `2 ^ 32` bytes and
more may lose its tail on the way (`Narrowed`), and the request is then sent with what is left of
it. `tokenRequest_delivered_iff` says that nothing else can go wrong.
-/

namespace HiveSDK

open Interaction C

/-- The two requests for a token, with the string that is special to each. -/
inductive TokenGrant
  | authorizationCode (code : Bytes)
  | refreshToken (token : Bytes)

namespace TokenGrant

/-- The pair with the special string. -/
def special : TokenGrant → Bytes × Bytes
  | authorizationCode code => (ascii "code", code)
  | refreshToken token => (ascii "refresh_token", token)

/-- The type of the grant, as the server knows it. -/
def name : TokenGrant → Bytes
  | authorizationCode _ => ascii "authorization_code"
  | refreshToken _ => ascii "refresh_token"

/-- The size of the buffer the body is printed to. -/
def bufferSize : TokenGrant → ℕ
  | authorizationCode _ => 512
  | refreshToken _ => 4096

/-- The function that makes the request. -/
def run : TokenGrant → M OneDriveConnect ℤ
  | authorizationCode code => redeemAccessToken code
  | refreshToken _ => refreshAccessToken

/-- A refresh takes its string from the token. -/
def OfToken (t : OAuthToken) : TokenGrant → Prop
  | authorizationCode _ => True
  | refreshToken token => t.refreshToken = some token

/-- The four pairs, with the three strings changed by `f`. -/
def pairsWith (f : Bytes → Bytes) (g : TokenGrant) (t : OAuthToken) : List (Bytes × Bytes) :=
  [(ascii "client_id", f t.clientId), (ascii "redirect_uri", f t.redirectUrl),
    (g.special.1, f g.special.2), (ascii "grant_type", g.name)]

/-- The pairs the request is to have. -/
def pairs (g : TokenGrant) (t : OAuthToken) : List (Bytes × Bytes) := g.pairsWith id t

/-- The strings that are escaped. -/
def strings (g : TokenGrant) (t : OAuthToken) : List Bytes :=
  [t.clientId, t.redirectUrl, g.special.2]

end TokenGrant

/-- What is left of a string whose length is narrowed to an `int`. -/
def narrowed (x : Bytes) : Bytes := if toInt x.length = 0 then x else x.take (toInt x.length).toNat

/-- The string loses its tail: the length has another value as an `int`, and a positive one. -/
def Narrowed (x : Bytes) : Prop := 0 < toInt x.length ∧ toInt x.length ≠ x.length

instance (x : Bytes) : Decidable (Narrowed x) :=
  inferInstanceAs (Decidable (0 < toInt x.length ∧ toInt x.length ≠ x.length))

/-- Escaping fails on a length that is negative as an `int`, and else escapes the narrowed string.
-/
private theorem escapedString_eq (x : Bytes) :
    escapedString x = if toInt x.length < 0 then none else some (Url.escape (narrowed x)) := by
  unfold escapedString curlEasyEscape narrowed
  split
  · rfl
  split
  · rfl
  · rfl

/-- A string is narrowed to itself unless it is longer than its length as an `int`. -/
private theorem narrowed_eq_self_iff {x : Bytes} (h : 0 ≤ toInt x.length) :
    narrowed x = x ↔ ¬Narrowed x := by
  unfold narrowed Narrowed
  by_cases hzero : toInt x.length = 0
  · rw [if_pos hzero, hzero]
    exact iff_of_true rfl fun hn => lt_irrefl 0 hn.1
  rw [if_neg hzero, List.take_eq_self_iff x]
  have hle : toInt x.length ≤ x.length := toInt_le_self (by omega)
  constructor
  · intro hlen hn
    omega
  · intro hn
    by_contra hlt
    exact hn ⟨by omega, by omega⟩

/-! ### The requests -/

namespace TokenGrant

variable {g : TokenGrant} {s : Thread OneDriveConnect}

/-- What is printed into the buffer. -/
def body : TokenGrant → Bytes → Bytes → Bytes → Bytes
  | authorizationCode _, clientId, redirectUri, code =>
    ascii "client_id=" ++ clientId ++ ascii "&redirect_uri=" ++ redirectUri ++
      ascii "&code=" ++ code ++ ascii "&grant_type=authorization_code"
  | refreshToken _, clientId, redirectUri, token => refreshBody clientId redirectUri token

/-- What is printed is a form. -/
private theorem body_escape (g : TokenGrant) (clientId redirectUrl third : Bytes) :
    g.body (Url.escape clientId) (Url.escape redirectUrl) (Url.escape third) =
      Url.formEncode [(ascii "client_id", clientId), (ascii "redirect_uri", redirectUrl),
        (g.special.1, third), (ascii "grant_type", g.name)] := by
  have hclient : ascii "client_id=" = Url.escape (ascii "client_id") ++ [61] := by decide
  have hredirect : ascii "&redirect_uri=" = 38 :: (Url.escape (ascii "redirect_uri") ++ [61]) := by
    decide
  unfold Url.formEncode Url.formPiece
  cases g with
  | authorizationCode code =>
    have hcode : ascii "&code=" = 38 :: (Url.escape (ascii "code") ++ [61]) := by decide
    have hgrant : ascii "&grant_type=authorization_code" = 38 :: (Url.escape (ascii "grant_type") ++
      61 :: Url.escape (ascii "authorization_code")) := by decide
    simp [body, special, name, hclient, hredirect, hcode, hgrant, List.intercalate]
  | refreshToken token =>
    have htoken : ascii "&refresh_token=" = 38 :: (Url.escape (ascii "refresh_token") ++ [61]) := by
      decide
    have hgrant : ascii "&grant_type=refresh_token" = 38 :: (Url.escape (ascii "grant_type") ++
      61 :: Url.escape (ascii "refresh_token")) := by decide
    simp [body, refreshBody, special, name, hclient, hredirect, htoken, hgrant, List.intercalate]

/-- The client a request asks for. -/
def user : TokenGrant → HttpClientUser
  | authorizationCode _ => .redeemAccessToken
  | refreshToken _ => .refreshAccessToken

/-- What is done with the reply. -/
def finish : TokenGrant → HttpReply → M OneDriveConnect ℤ
  | authorizationCode _, reply => do
    if reply.performed ≠ 0 then
      return toInt (hiveCurlError reply.performed)
    let status : ℕ := if reply.info = 0 then reply.status else 0
    if status ≠ HttpStatus_OK then
      return toInt (hiveHttpStatusError status)
    decodeAccessToken (← moveAndParse reply)
  | refreshToken _, reply => do
    match reply.answer with
    | .error e => return toInt e
    | .ok status =>
    if status ≠ HttpStatus_OK then
      return toInt (hiveHttpStatusError status)
    let rc ← decodeAccessToken (← moveAndParse reply)
    if rc < 0 then
      return rc
    writebackTokens
    return 0

/-- The common part of the two functions. -/
def request (g : TokenGrant) (t : OAuthToken) : M OneDriveConnect ℤ := do
  if !(← httpClientNew g.user) then
    return toInt (hiveGeneralError HIVEERR_OUT_OF_MEMORY)
  match ← escapeFields t.clientId t.redirectUrl (some g.special.2) with
  | none => return toInt (hiveGeneralError HIVEERR_OUT_OF_MEMORY)
  | some (clientId, redirectUri, third) =>
  if g.bufferSize ≤ (g.body clientId redirectUri third).length then
    return toInt (hiveGeneralError HIVEERR_BUFFER_TOO_SMALL)
  let reply ← httpClientPerform
    { method := .post, url := t.tokenUrl, body := g.body clientId redirectUri third }
  g.finish reply

/-- Both grants run the request of their form. -/
private theorem run_eq_request (hg : g.OfToken s.conn.token) :
    g.run s = g.request s.conn.token s := by
  cases g with
  | authorizationCode code => rfl
  | refreshToken token =>
    have hrun : refreshAccessToken s = (do
        if !(← httpClientNew .refreshAccessToken) then
          return toInt (hiveGeneralError HIVEERR_OUT_OF_MEMORY)
        match ← escapeFields s.conn.token.clientId s.conn.token.redirectUrl
          s.conn.token.refreshToken with
        | none => return toInt (hiveGeneralError HIVEERR_OUT_OF_MEMORY)
        | some (clientId, redirectUri, third) =>
        if 4096 ≤ (refreshBody clientId redirectUri third).length then
          return toInt (hiveGeneralError HIVEERR_BUFFER_TOO_SMALL)
        let reply ← httpClientPerform { method := .post, url := s.conn.token.tokenUrl,
                                        body := refreshBody clientId redirectUri third }
        (refreshToken token).finish reply : M OneDriveConnect ℤ) s := rfl
    change refreshAccessToken s = _
    rw [hrun, show s.conn.token.refreshToken = some token from hg]
    rfl

private theorem finish_offline (g : TokenGrant) (reply : HttpReply) :
    (g.finish reply).Within Call.Offline fun _ => True := by
  have decode (json : Option Json) : (decodeAccessToken json).Within Call.Offline fun _ => True :=
    (decodeAccessToken_offline json).within.mono (fun _ h => h) fun _ _ => trivial
  have writeback : writebackTokens.Within Call.Offline fun _ => True :=
    writebackTokens_offline.within.mono (fun _ h => h) fun _ _ => trivial
  have parse : (moveAndParse reply : M OneDriveConnect _).Within Call.Offline fun _ => True :=
    moveAndParse_within trivial reply
  cases g with
  | authorizationCode code => exact .ite (.pure _) (.ite (.pure _) (.bind parse decode))
  | refreshToken token =>
    unfold finish
    dsimp only
    split
    · exact .pure _
    · refine .ite (.pure _) (.bind parse fun json => .bind (decode json) fun rc => ?_)
      exact .ite (.pure _) (.bind writeback fun _ => .pure _)

/-- The strings of a request are put together without a loss: no length is narrowed to another
one, or the request is not made, since a length is negative as an `int` or since what is left of
the strings does not fit into the buffer. -/
def Harmless (g : TokenGrant) (t : OAuthToken) : Prop :=
  (∀ x ∈ g.strings t, ¬Narrowed x) ∨ (∃ x ∈ g.strings t, toInt x.length < 0) ∨
    g.bufferSize ≤ (Url.formEncode (g.pairsWith narrowed t)).length

/-- Nothing is sent and an error is returned, or one request is sent, and its body is read as the
four pairs. -/
def Delivered (g : TokenGrant) (t : OAuthToken) (o : Except Fault (ℤ × Thread OneDriveConnect))
    (tr : List CallEvent) : Prop :=
  ((∀ e ∈ tr, e.1.Offline) ∧ ∃ rc s', o = .ok (rc, s') ∧ rc < 0) ∨
    ∃ front request reply back, tr = front ++ ⟨.httpClientPerform request, reply⟩ :: back ∧
      (∀ e ∈ front, e.1.Offline) ∧ (∀ e ∈ back, e.1.Offline) ∧
      Url.formDecode request.body = g.pairs t

end TokenGrant

/-- Escapes fail, or do what the documentation of `curl_easy_escape` says. -/
def EscapedByCurl (tr : List CallEvent) : Prop :=
  ∀ data r, (⟨.httpClientEscape data, r⟩ : CallEvent) ∈ tr → r = none ∨ r = escapedString data

/-- What is escaped of the three fields. -/
private theorem escapeFields_results (clientId redirectUrl third : Bytes)
    {s : Thread OneDriveConnect}
    {past : List CallEvent} :
    Script.wp record noFault (escapeFields clientId redirectUrl (some third))
      (fun fields s' past' => s' = s ∧ ∀ x y z, fields = some (x, y, z) →
        ⟨.httpClientEscape clientId, some x⟩ ∈ past' ∧
        ⟨.httpClientEscape redirectUrl, some y⟩ ∈ past' ∧
        ⟨.httpClientEscape third, some z⟩ ∈ past') s past := by
  unfold escapeFields
  simp only [Script.wp_bind, Script.wp_ask]
  rintro escaped₁ _ rfl
  cases escaped₁ with
  | none => exact ⟨rfl, by rintro _ _ _ ⟨⟩⟩
  | some x =>
  simp only [Script.wp_bind, Script.wp_ask]
  rintro escaped₂ _ rfl
  cases escaped₂ with
  | none => exact ⟨rfl, by rintro _ _ _ ⟨⟩⟩
  | some y =>
  simp only [Script.wp_bind, Script.wp_ask]
  rintro escaped₃ _ rfl
  cases escaped₃ with
  | none => exact ⟨rfl, by rintro _ _ _ ⟨⟩⟩
  | some z =>
  refine ⟨rfl, fun x' y' z' h => ?_⟩
  obtain ⟨rfl, rfl, rfl⟩ : x = x' ∧ y = y' ∧ z = z' := by
    simpa only [Option.some.injEq, Prod.mk.injEq] using h
  simp

namespace TokenGrant

variable {g : TokenGrant} {t : OAuthToken} {s : Thread OneDriveConnect}

/-- What is left of the strings, as the server reads it. -/
private theorem body_narrowed {x y z : Bytes} (hx : escapedString t.clientId = some x)
    (hy : escapedString t.redirectUrl = some y) (hz : escapedString g.special.2 = some z) :
    g.body x y z = Url.formEncode (g.pairsWith narrowed t) := by
  have hescape {a b : Bytes} (h : escapedString a = some b) : b = Url.escape (narrowed a) := by
    rw [escapedString_eq] at h
    split at h
    · cases h
    · exact (Option.some.inj h).symm
  rw [hescape hx, hescape hy, hescape hz, body_escape]
  rfl

private theorem nonneg_of_escapedString {x y : Bytes} (h : escapedString x = some y) :
    0 ≤ toInt x.length := by
  rw [escapedString_eq] at h
  split at h
  · cases h
  · rename_i hneg
    exact not_lt.mp hneg

/-- The pairs survive exactly when no string loses its tail. -/
private theorem pairsWith_narrowed_iff (hnonneg : ∀ x ∈ g.strings t, 0 ≤ toInt x.length) :
    g.pairsWith narrowed t = g.pairs t ↔ ∀ x ∈ g.strings t, ¬Narrowed x := by
  have hself (x : Bytes) (hx : x ∈ g.strings t) := narrowed_eq_self_iff (hnonneg x hx)
  simp only [strings, List.mem_cons, List.not_mem_nil, or_false, forall_eq_or_imp, forall_eq]
    at hself ⊢
  rw [← hself.1, ← hself.2.1, ← hself.2.2]
  simp only [pairs, pairsWith, id, List.cons.injEq, Prod.mk.injEq, true_and, and_true]

/-- A harmless request is delivered, whatever the environment replies. -/
private theorem request_delivered (hharmless : g.Harmless t) :
    Script.wp record (fun fault tr => EscapedByCurl tr → g.Delivered t (.error fault) tr)
      (g.request t) (fun rc s' tr => EscapedByCurl tr → g.Delivered t (.ok (rc, s')) tr) s [] := by
  have refused {rc : ℤ} {s' : Thread OneDriveConnect} {tr : List CallEvent} (hrc : rc < 0)
      (htr : ∀ e ∈ tr, e.1.Offline) : EscapedByCurl tr → g.Delivered t (.ok (rc, s')) tr :=
    fun _ => .inl ⟨htr, rc, s', rfl, hrc⟩
  have hmemory := toInt_hiveGeneralError_neg HIVEERR_OUT_OF_MEMORY
  unfold request
  simp only [Script.wp_bind, Script.wp_ask, Script.wp_ite, Script.wp_pure]
  rintro created _ rfl
  have hcreated : ∀ e ∈ ([] ++ [⟨.httpClientNew g.user, created⟩] : List CallEvent),
      e.1.Offline := by
    intro e he
    rw [List.nil_append, List.mem_singleton] at he
    rw [he]
    rintro _ ⟨⟩
  refine ⟨fun _ => refused hmemory hcreated, fun _ => ?_⟩
  refine Script.wp_mono (Script.wp_recorded (escapeFields_escapes _ _ _)
    (escapeFields_results t.clientId t.redirectUrl g.special.2)) (fun _ _ h => h.1.elim) ?_
  rintro fields s₁ past₁ ⟨⟨rfl, hresults⟩, escapes, rfl, hescapes⟩
  have hoffline : ∀ e ∈ [] ++ [⟨.httpClientNew g.user, created⟩] ++ escapes, e.1.Offline := by
    intro e he
    rcases List.mem_append.mp he with he | he
    · exact hcreated e he
    · obtain ⟨data, hdata⟩ := hescapes e he
      rw [hdata]
      rintro _ ⟨⟩
  cases fields with
  | none => exact refused hmemory hoffline
  | some found =>
    obtain ⟨x, y, z⟩ := found
    simp only [Script.wp_bind, Script.wp_ask, Script.wp_ite, Script.wp_pure]
    refine ⟨fun _ => refused (toInt_hiveGeneralError_neg _) hoffline, fun hfits => ?_⟩
    rintro reply _ rfl
    obtain ⟨hx, hy, hz⟩ := hresults x y z rfl
    -- what follows the request asks for no other one
    have sent {o : Except Fault (ℤ × Thread OneDriveConnect)} {back : List CallEvent}
        (hback : ∀ e ∈ back, e.1.Offline) (hcurl : EscapedByCurl ([] ++
          [⟨.httpClientNew g.user, created⟩] ++ escapes ++ [⟨.httpClientPerform
            { method := .post, url := t.tokenUrl, body := g.body x y z }, reply⟩] ++ back)) :
        g.Delivered t o ([] ++ [⟨.httpClientNew g.user, created⟩] ++ escapes ++
          [⟨.httpClientPerform { method := .post, url := t.tokenUrl, body := g.body x y z },
            reply⟩] ++ back) := by
      have escaped {data out : Bytes} (hmem : ⟨.httpClientEscape data, some out⟩ ∈
          [] ++ [⟨.httpClientNew g.user, created⟩] ++ escapes) : escapedString data = some out :=
        ((hcurl data (some out) (List.mem_append_left _ (List.mem_append_left _ hmem))).resolve_left
          (Option.some_ne_none _)).symm
      have hbody := body_narrowed (escaped hx) (escaped hy) (escaped hz)
      have hnonneg : ∀ x ∈ g.strings t, 0 ≤ toInt x.length := by
        simp only [strings, List.mem_cons, List.not_mem_nil, or_false, forall_eq_or_imp, forall_eq]
        exact ⟨nonneg_of_escapedString (escaped hx), nonneg_of_escapedString (escaped hy),
          nonneg_of_escapedString (escaped hz)⟩
      refine .inr ⟨_, _, reply, back, List.append_cons .. |>.symm, hoffline, hback, ?_⟩
      dsimp only
      rw [hbody, Url.formDecode_formEncode, pairsWith_narrowed_iff hnonneg]
      rcases hharmless with hwhole | ⟨x, hmem, hneg⟩ | hsize
      · exact hwhole
      · exact absurd hneg (not_lt.mpr (hnonneg x hmem))
      · rw [← hbody] at hsize
        exact absurd hsize hfits
    refine Script.wp_mono (Script.wp_recorded (finish_offline g reply) Script.wp_true) ?_ ?_
    · rintro fault _ ⟨-, -, back, rfl, hback⟩ hcurl
      exact sent hback hcurl
    · rintro rc s' _ ⟨-, back, rfl, hback⟩ hcurl
      exact sent hback hcurl

/-- A reply that ends the request with an error. -/
def refusedReply : HttpReply where
  performed := 7
  info := 0
  status := 0
  chunks := []
  parsed := none

/-- The request with what is left of the strings. -/
def narrowedRequest (g : TokenGrant) (t : OAuthToken) : HttpRequest :=
  { method := .post, url := t.tokenUrl, body := Url.formEncode (g.pairsWith narrowed t) }

/-- The run in which everything succeeds up to the request, and the request fails. -/
def sentTrace (g : TokenGrant) (t : OAuthToken) : List CallEvent :=
  [⟨.httpClientNew g.user, true⟩,
    ⟨.httpClientEscape t.clientId, some (Url.escape (narrowed t.clientId))⟩,
    ⟨.httpClientEscape t.redirectUrl, some (Url.escape (narrowed t.redirectUrl))⟩,
    ⟨.httpClientEscape g.special.2, some (Url.escape (narrowed g.special.2))⟩,
    ⟨.httpClientPerform (g.narrowedRequest t), refusedReply⟩]

/-- A form that fits is sent, on this trace. -/
private theorem exec_sentTrace
    (hfits : ¬g.bufferSize ≤ (Url.formEncode (g.pairsWith narrowed t)).length) :
    Program.Exec playback (g.request t s) (g.sentTrace t)
      (.ok (toInt (hiveCurlError refusedReply.performed), s)) [] := by
  have hfields : Program.Exec playback (escapeFields t.clientId t.redirectUrl
      (some g.special.2) s) (g.sentTrace t).tail
      (.ok (some (Url.escape (narrowed t.clientId), Url.escape (narrowed t.redirectUrl),
        Url.escape (narrowed g.special.2)), s))
      ((g.sentTrace t).drop 4) := .ask rfl (.ask rfl (.ask rfl (.ret _ _)))
  have hfinish : Program.Exec playback (g.finish refusedReply s) []
      (.ok (toInt (hiveCurlError refusedReply.performed), s)) [] := by
    cases g with
    | authorizationCode code => exact .ret _ _
    | refreshToken token => exact .ret _ _
  have hbody : g.body (Url.escape (narrowed t.clientId)) (Url.escape (narrowed t.redirectUrl))
      (Url.escape (narrowed g.special.2)) = Url.formEncode (g.pairsWith narrowed t) :=
    body_escape _ _ _ _
  unfold request
  refine Script.exec_ask rfl (Script.exec_bind hfields ?_)
  dsimp only
  rw [hbody, if_neg hfits]
  exact Script.exec_ask rfl hfinish

/-- A request that is not harmless is made with what is left of the strings. -/
private theorem not_delivered_of_not_harmless (hg : g.OfToken s.conn.token)
    (hlossy : ¬g.Harmless s.conn.token) : ∃ tr o, EscapedByCurl tr ∧
      Program.Exec playback (g.run s) tr o [] ∧ ¬g.Delivered s.conn.token o tr := by
  unfold Harmless at hlossy
  simp only [not_or, not_exists, not_and, not_lt] at hlossy
  obtain ⟨hcut, hnonneg, hfits⟩ := hlossy
  refine ⟨g.sentTrace s.conn.token, _, ?_, (run_eq_request hg).symm ▸ exec_sentTrace hfits, ?_⟩
  · intro data r hmem
    have hescaped (x : Bytes) (hx : x ∈ g.strings s.conn.token) :
        some (Url.escape (narrowed x)) = escapedString x := by
      rw [escapedString_eq, if_neg (not_lt.mpr (hnonneg x hx))]
    simp only [sentTrace, List.mem_cons, List.not_mem_nil, or_false] at hmem
    rcases hmem with heq | heq | heq | heq | heq <;> cases heq <;>
      exact .inr (hescaped _ (by simp [strings]))
  · rintro (⟨hoffline, -⟩ | ⟨front, request, reply, back, htr, -, -, hdecode⟩)
    · exact hoffline ⟨.httpClientPerform (g.narrowedRequest s.conn.token), refusedReply⟩
        (by simp [sentTrace]) _ rfl
    · have hmem : ⟨.httpClientPerform request, reply⟩ ∈ g.sentTrace s.conn.token := by
        rw [htr]
        exact List.mem_append_right _ List.mem_cons_self
      simp only [sentTrace, List.mem_cons, List.not_mem_nil, or_false] at hmem
      rcases hmem with heq | heq | heq | heq | heq <;> cases heq
      rw [narrowedRequest, Url.formDecode_formEncode, pairsWith_narrowed_iff hnonneg] at hdecode
      exact hcut hdecode

end TokenGrant

/-- Every run of a token request delivers the four pairs or sends nothing, exactly when the strings
are harmless. -/
theorem tokenRequest_delivered_iff {g : TokenGrant} {s : Thread OneDriveConnect}
    (hg : g.OfToken s.conn.token) :
    (∀ tr o, EscapedByCurl tr → Program.Exec playback (g.run s) tr o [] →
      g.Delivered s.conn.token o tr) ↔ g.Harmless s.conn.token := by
  constructor
  · intro hall
    by_contra hlossy
    obtain ⟨tr, o, hcurl, hex, hnot⟩ := TokenGrant.not_delivered_of_not_harmless hg hlossy
    exact hnot (hall tr o hcurl hex)
  · intro hharmless tr o hcurl hex
    rw [TokenGrant.run_eq_request hg] at hex
    have hends := (TokenGrant.request_delivered hharmless).of_playback hex
    match o, hends with
    | .ok (rc, s'), hends => exact hends hcurl
    | .error fault, hends => exact hends hcurl

/-- A connection whose client is named by `clientId`. -/
def namedBy (clientId : Bytes) : Thread OneDriveConnect :=
  ⟨⟨⟨[], ascii "t", clientId, [], ascii "u", some (ascii "b"), some (ascii "a"),
    some (ascii "a&b=c%+ "), ⟨0, 0⟩⟩, []⟩, 0⟩

/-- Separators in the refresh token do no harm. -/
theorem tokenRequest_delivered_iff_separators :
    (TokenGrant.refreshToken (ascii "a&b=c%+ ")).Harmless (namedBy (ascii "id")).conn.token ∧
      ∀ tr o, EscapedByCurl tr →
        Program.Exec playback ((TokenGrant.refreshToken (ascii "a&b=c%+ ")).run
          (namedBy (ascii "id"))) tr o [] →
        (TokenGrant.refreshToken (ascii "a&b=c%+ ")).Delivered (namedBy (ascii "id")).conn.token
          o tr := by
  have hharmless : (TokenGrant.refreshToken (ascii "a&b=c%+ ")).Harmless
      (namedBy (ascii "id")).conn.token := .inl (by decide)
  exact ⟨hharmless, (@tokenRequest_delivered_iff (.refreshToken (ascii "a&b=c%+ "))
    (namedBy (ascii "id")) rfl).mpr hharmless⟩

/-- A client identifier of `2 ^ 32 + 1` bytes. -/
def longClientId : Bytes := List.replicate (2 ^ 32 + 1) 97

private theorem toInt_length_longClientId : toInt longClientId.length = 1 := by
  unfold longClientId
  rw [List.length_replicate]
  decide

/-- One byte of it is left. -/
private theorem narrowed_longClientId : narrowed longClientId = [97] := by
  have hmin : min (1 : ℤ).toNat (2 ^ 32 + 1) = 1 := by decide
  rw [narrowed, toInt_length_longClientId, if_neg (by decide), longClientId, List.take_replicate,
    hmin]
  rfl

/-- A code is redeemed in the name of another client. -/
theorem tokenRequest_longClientId :
    ¬∀ tr o, EscapedByCurl tr →
      Program.Exec playback ((TokenGrant.authorizationCode (ascii "c")).run (namedBy longClientId))
        tr o [] →
      (TokenGrant.authorizationCode (ascii "c")).Delivered
        (namedBy longClientId).conn.token o tr := by
  intro hall
  have hlength : (longClientId.length : ℤ) = 2 ^ 32 + 1 := by
    unfold longClientId
    rw [List.length_replicate]
    rfl
  have hlossy : ¬(TokenGrant.authorizationCode (ascii "c")).Harmless
      (namedBy longClientId).conn.token := by
    rintro (hwhole | ⟨x, hmem, hneg⟩ | hsize)
    · refine hwhole longClientId List.mem_cons_self ⟨?_, ?_⟩
      · rw [toInt_length_longClientId]
        exact zero_lt_one
      · rw [toInt_length_longClientId, hlength]
        decide
    · simp only [TokenGrant.strings, List.mem_cons, List.not_mem_nil, or_false] at hmem
      rcases hmem with rfl | rfl | rfl
      · rw [show (namedBy longClientId).conn.token.clientId = longClientId from rfl,
          toInt_length_longClientId] at hneg
        exact absurd hneg (by decide)
      · exact absurd hneg (by decide)
      · exact absurd hneg (by decide)
    · unfold TokenGrant.pairsWith at hsize
      rw [show (namedBy longClientId).conn.token.clientId = longClientId from rfl,
        narrowed_longClientId] at hsize
      exact absurd hsize (by decide)
  have hg : (TokenGrant.authorizationCode (ascii "c")).OfToken
    (namedBy longClientId).conn.token := trivial
  obtain ⟨tr, o, hcurl, hex, hnot⟩ := TokenGrant.not_delivered_of_not_harmless hg hlossy
  exact hnot (hall tr o hcurl hex)

end HiveSDK
