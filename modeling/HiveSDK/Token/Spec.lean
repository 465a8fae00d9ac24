import HiveSDK.Model.Connect

/-!
# What the token functions do to the token

One specification for each function of `oauth_token.c` that touches the token object,
against an arbitrary environment. The three strings of a token are either all absent
(`OAuthToken.Unset`) or all present (`OAuthToken.Authorised`), and every function either
leaves them alone or sets all three.
-/

namespace HiveSDK

open Interaction C

namespace OAuthToken

/-- The token holds its three strings. -/
structure Authorised (t : OAuthToken) : Prop where
  tokenType : t.tokenType.isSome
  accessToken : t.accessToken.isSome
  refreshToken : t.refreshToken.isSome

/-- The token holds none of its three strings. -/
structure Unset (t : OAuthToken) : Prop where
  tokenType : t.tokenType = none
  accessToken : t.accessToken = none
  refreshToken : t.refreshToken = none

/-- The token with new strings and a new time of expiry. -/
def withTokens (t : OAuthToken) (tokenType accessToken refreshToken : Bytes)
    (expiresAt : Timeval) : OAuthToken :=
  { t with
    tokenType := some tokenType
    accessToken := some accessToken
    refreshToken := some refreshToken
    expiresAt := expiresAt }

theorem authorised_withTokens (t : OAuthToken) (tokenType accessToken refreshToken : Bytes)
    (expiresAt : Timeval) :
    (t.withTokens tokenType accessToken refreshToken expiresAt).Authorised :=
  ⟨rfl, rfl, rfl⟩

end OAuthToken

/-- The thread with another token. -/
def Thread.withToken (s : Thread OneDriveConnect) (t : OAuthToken) : Thread OneDriveConnect :=
  { s with conn := { s.conn with token := t } }

/-- The thread after new tokens have been stored. -/
def TokensStored (s s' : Thread OneDriveConnect) : Prop :=
  ∃ tokenType accessToken refreshToken expiresAt,
    s' = s.withToken (s.conn.token.withTokens tokenType accessToken refreshToken expiresAt)

theorem TokensStored.authorised {s s' : Thread OneDriveConnect} (h : TokensStored s s') :
    s'.conn.token.Authorised := by
  obtain ⟨_, _, _, _, rfl⟩ := h
  exact OAuthToken.authorised_withTokens _ _ _ _ _

/-! ### Token replies -/

/-- A token reply with everything it must have: the three strings that are stored, a scope, and
the time after which the access token expires. -/
structure Json.Grants (json : Json) (tokenType accessToken refreshToken : Bytes)
    (expiresIn : ℤ) : Prop where
  tokenType_ne : tokenType ≠ []
  accessToken_ne : accessToken ≠ []
  refreshToken_ne : refreshToken ≠ []
  tokenType_eq : json.getObjectItemCaseSensitive (ascii "token_type") = some (.string tokenType)
  scope : ∃ scope, scope ≠ [] ∧
    json.getObjectItemCaseSensitive (ascii "scope") = some (.string scope)
  accessToken_eq :
    json.getObjectItemCaseSensitive (ascii "access_token") = some (.string accessToken)
  refreshToken_eq :
    json.getObjectItemCaseSensitive (ascii "refresh_token") = some (.string refreshToken)
  expiresIn_nonneg : 0 ≤ expiresIn
  expiresIn_eq : ∃ d : Double, d.toLong = expiresIn ∧
    json.getObjectItemCaseSensitive (ascii "expires_in") = some (.number d)

/-- The thread after what a token reply grants has been stored, at the time `now`. -/
def Granted (json : Option Json) (s s' : Thread OneDriveConnect) : Prop :=
  ∃ reply tokenType accessToken refreshToken expiresIn, ∃ now : Timeval,
    json = some reply ∧ reply.Grants tokenType accessToken refreshToken expiresIn ∧
      s' = s.withToken (s.conn.token.withTokens tokenType accessToken refreshToken
        (now.add ⟨expiresIn, 0⟩))

/-- A grant stores its tokens. -/
theorem Granted.tokensStored {json : Option Json} {s s' : Thread OneDriveConnect}
    (h : Granted json s s') : TokensStored s s' := by
  obtain ⟨_, _, _, _, _, _, _, _, rfl⟩ := h
  exact ⟨_, _, _, _, rfl⟩

section Spec

variable {σ : Type} {h : Handler σ Call Call.Reply} {s : Thread OneDriveConnect} {w : σ}

/-- Writing the keystore leaves the state of the thread. -/
theorem oauthWriteback_spec (json : Json) :
    Script.wp h noFault (oauthWriteback json) (fun _ s' _ => s' = s) s w := by
  unfold oauthWriteback
  simp only [Script.wp_bind, Script.wp_ask]
  intro text w₁ _
  rcases text with _ | _ | ⟨b, text⟩
  · exact rfl
  · exact rfl
  · simp only [Script.wp_bind, Script.wp_get, Script.wp_ask]
    intro opened w₂ _
    cases opened with
    | error e => exact rfl
    | ok _ =>
      simp only [Script.wp_bind, Script.wp_ask, Script.wp_ite, Script.wp_pure]
      exact fun _ _ _ => ⟨fun _ _ _ _ => trivial, fun _ => trivial⟩

/-- The writeback leaves the token alone, and asserts nothing of a token that holds its strings. -/
theorem writebackTokens_spec {F : Fault → σ → Prop}
    (hF : s.conn.token.Authorised ∨ ∀ w, F .assertion w) :
    Script.wp h F writebackTokens (fun _ s' _ => s' = s) s w := by
  have writeback (json : Json) (w₁ : σ) :
      Script.wp h F (oauthWriteback json) (fun _ s' _ => s' = s) s w₁ :=
    Script.wp_mono (oauthWriteback_spec json) (fun _ _ h => h.elim) fun _ _ _ h => h
  unfold writebackTokens
  simp only [Script.wp_bind, Script.wp_get, Script.wp_pure, Script.wp_ask, Script.wp_ite]
  refine fun created w₁ _ => ⟨fun _ => trivial, fun _ => ?_⟩
  split
  · simp only [Script.wp_bind, Script.wp_pure]
    exact writeback _ _
  · simp only [Script.wp_bind, Script.wp_pure]
    exact writeback _ _
  · -- a token without all of its strings
    rename_i hincomplete
    refine hF.elim (fun hauth => ?_) fun hF => hF _
    obtain ⟨refreshToken, hrefresh⟩ := Option.isSome_iff_exists.mp hauth.refreshToken
    obtain ⟨accessToken, haccess⟩ := Option.isSome_iff_exists.mp hauth.accessToken
    exact (hincomplete _ _ haccess hrefresh).elim

/-- The writeback of a token without its strings reaches no assertion. -/
theorem writebackTokens_unset (hunset : s.conn.token.Unset) :
    Script.wp h noFault writebackTokens (fun _ s' _ => s' = s) s w := by
  unfold writebackTokens
  simp only [Script.wp_bind, Script.wp_get, Script.wp_pure, Script.wp_ask, Script.wp_ite]
  refine fun created w₁ _ => ⟨fun _ => trivial, fun _ => ?_⟩
  rw [hunset.tokenType]
  simp only [Script.wp_bind, Script.wp_pure]
  exact oauthWriteback_spec _

/-- A token reply is accepted, and then what it grants is stored, or it is refused and nothing
is. -/
theorem decodeAccessToken_granted (json : Option Json) :
    Script.wp h noFault (decodeAccessToken json)
      (fun rc s' _ => rc = 0 ∧ Granted json s s' ∨ rc < 0 ∧ s' = s) s w := by
  have refused {e : ℤ} {w₁ : σ} (he : e < 0) :
      Script.wp h noFault (pure e)
        (fun rc s' _ => rc = 0 ∧ Granted json s s' ∨ rc < 0 ∧ s' = s) s w₁ := .inr ⟨he, rfl⟩
  have badJson := toInt_hiveGeneralError_neg HIVEERR_BAD_JSON_FORMAT
  -- each member of the reply is copied into an allocation of its own
  have allocated {size : ℕ} {rest : M OneDriveConnect ℤ} {w₁ : σ}
      (hrest : ∀ w₂, Script.wp h noFault rest
        (fun rc s' _ => rc = 0 ∧ Granted json s s' ∨ rc < 0 ∧ s' = s) s w₂) :
      Script.wp h noFault (do
        if !(← malloc size) then
          return toInt (hiveSysError (← errno))
        rest) (fun rc s' _ => rc = 0 ∧ Granted json s s' ∨ rc < 0 ∧ s' = s) s w₁ := by
    simp only [Script.wp_bind, Script.wp_ask, Script.wp_ite]
    exact fun _ w₂ _ => ⟨fun _ _ _ _ => refused (toInt_hiveSysError_neg _), fun _ => hrest w₂⟩
  unfold decodeAccessToken
  split
  · exact refused badJson
  split
  · exact refused badJson
  rename_i reply _ tokenType htokenType
  -- `token_type`
  refine allocated fun w₁ => ?_
  split
  · exact refused badJson
  rename_i scope hscope
  split
  · exact refused badJson
  rename_i accessToken haccessToken
  -- `access_token`, once `scope` is there
  refine allocated fun w₂ => ?_
  split
  · exact refused badJson
  rename_i refreshToken hrefreshToken
  -- `refresh_token`
  refine allocated fun w₃ => ?_
  split
  · exact refused badJson
  rename_i expiresIn hexpiresIn
  rw [Json.nonemptyString?_eq_some] at htokenType hscope haccessToken hrefreshToken
  rw [Json.number?_eq_some] at hexpiresIn
  simp only [Script.wp_ite, Script.wp_bind, Script.wp_ask, Script.wp_modify, Script.wp_pure]
  -- `expires_in`, which is refused when it is negative
  refine ⟨fun _ => .inr ⟨badJson, trivial⟩, fun hnonneg now w₄ _ => .inl ⟨trivial, ?_⟩⟩
  exact ⟨reply, tokenType, accessToken, refreshToken, expiresIn.toLong, now, rfl,
    ⟨htokenType.1, haccessToken.1, hrefreshToken.1, htokenType.2, ⟨scope, hscope⟩,
      haccessToken.2, hrefreshToken.2, not_lt.mp hnonneg, ⟨expiresIn, rfl, hexpiresIn⟩⟩, rfl⟩

/-- A third field that is missing is a `NULL` whose length is taken. -/
theorem escapeFields_spec {F : Fault → σ → Prop} (clientId redirectUrl : Bytes)
    {third : Option Bytes} (hF : third = none → ∀ w, F .nullDereference w) :
    Script.wp h F (escapeFields clientId redirectUrl third) (fun _ s' _ => s' = s) s w := by
  unfold escapeFields
  simp only [Script.wp_bind, Script.wp_ask]
  intro clientId w₁ _
  cases clientId with
  | none => exact rfl
  | some _ =>
    simp only [Script.wp_bind, Script.wp_ask]
    intro redirectUri w₂ _
    cases redirectUri with
    | none => exact rfl
    | some _ =>
      cases third with
      | none => exact hF rfl w₂
      | some _ =>
        simp only [Script.wp_bind, Script.wp_ask]
        intro third w₃ _
        cases third <;> exact rfl

/-- The code is redeemed, and then all three strings are stored, or nothing changes. -/
theorem redeemAccessToken_stores {F : Fault → σ → Prop} (hF : ∀ w, F .nullDereference w)
    (code : Bytes) :
    Script.wp h F (redeemAccessToken code)
      (fun rc s' _ => rc = 0 ∧ TokensStored s s' ∨ rc < 0 ∧ s' = s) s w := by
  unfold redeemAccessToken
  simp only [Script.wp_bind, Script.wp_get, Script.wp_pure, Script.wp_ask, Script.wp_ite]
  refine fun created w₁ _ => ⟨fun _ => .inr ⟨by simp, trivial⟩, fun _ => ?_⟩
  refine Script.wp_mono (escapeFields_spec _ _ fun _ => hF) (fun _ _ h => h) ?_
  rintro fields s₁ w₂ rfl
  cases fields with
  | none => exact .inr ⟨by simp, rfl⟩
  | some found =>
    obtain ⟨_, _, _⟩ := found
    simp only [Script.wp_bind, Script.wp_ask, Script.wp_ite, Script.wp_pure, wp_moveAndParse]
    refine ⟨fun _ => .inr ⟨by simp, trivial⟩, fun _ reply w₃ _ => ⟨fun _ => .inr ⟨by simp, trivial⟩,
      fun _ => ⟨fun _ => .inr ⟨by simp, trivial⟩, fun _ => ⟨fun _ => hF _, fun _ => ?_⟩⟩⟩⟩
    exact Script.wp_mono (decodeAccessToken_granted _) (fun _ _ h => h.elim) fun _ _ _ h =>
      h.imp_left fun h => ⟨h.1, h.2.tokensStored⟩

/-- A redeem stores the tokens or leaves the state. -/
theorem redeemAccessToken_spec (code : Bytes) :
    Script.wp h anyFault (redeemAccessToken code)
      (fun rc s' _ => rc = 0 ∧ TokensStored s s' ∨ rc < 0 ∧ s' = s) s w :=
  redeemAccessToken_stores (fun _ => trivial) code

/-- The same of a refresh; the writeback at its end asserts nothing that may fail. -/
theorem refreshAccessToken_stores {F : Fault → σ → Prop} (hF : ∀ w, F .nullDereference w) :
    Script.wp h F refreshAccessToken
      (fun rc s' _ => rc = 0 ∧ TokensStored s s' ∨ rc < 0 ∧ s' = s) s w := by
  unfold refreshAccessToken
  simp only [Script.wp_bind, Script.wp_get, Script.wp_pure, Script.wp_ask, Script.wp_ite]
  refine fun created w₁ _ => ⟨fun _ => .inr ⟨by simp, trivial⟩, fun _ => ?_⟩
  refine Script.wp_mono (escapeFields_spec _ _ fun _ => hF) (fun _ _ h => h) ?_
  rintro fields s₁ w₂ rfl
  cases fields with
  | none => exact .inr ⟨by simp, rfl⟩
  | some found =>
    obtain ⟨_, _, _⟩ := found
    simp only [Script.wp_bind, Script.wp_ask, Script.wp_ite, Script.wp_pure]
    refine ⟨fun _ => .inr ⟨by simp, trivial⟩, fun _ reply w₃ _ => ?_⟩
    cases hanswer : reply.answer with
    | error e => exact .inr ⟨reply.toInt_answer_neg hanswer, rfl⟩
    | ok status =>
      simp only [Script.wp_bind, Script.wp_ite, Script.wp_pure, wp_moveAndParse]
      refine ⟨fun _ => .inr ⟨by simp, trivial⟩, fun _ => ⟨fun _ => hF _, fun _ => ?_⟩⟩
      refine Script.wp_mono (decodeAccessToken_granted _)
        (fun _ _ h => h.elim) fun rc s₂ w₄ hdec => ?_
      rcases hdec with ⟨rfl, hgranted⟩ | ⟨hneg, rfl⟩
      · refine ⟨fun h => absurd h (lt_irrefl 0), fun _ => ?_⟩
        have hstored := hgranted.tokensStored
        refine Script.wp_mono (writebackTokens_spec (.inl hstored.authorised)) (fun _ _ h => h) ?_
        rintro _ _ _ rfl
        exact .inl ⟨trivial, hstored⟩
      · exact ⟨fun _ => .inr ⟨hneg, rfl⟩, fun h => absurd hneg h⟩

/-- So does a refresh. -/
theorem refreshAccessToken_spec :
    Script.wp h anyFault refreshAccessToken
      (fun rc s' _ => rc = 0 ∧ TokensStored s s' ∨ rc < 0 ∧ s' = s) s w :=
  refreshAccessToken_stores fun _ => trivial

/-- A store is accepted, and then all three strings are restored, or nothing is stored but
perhaps a time of expiry. -/
theorem restoreAccessToken_spec {F : Fault → σ → Prop} (json : Option Json) :
    Script.wp h F (restoreAccessToken json)
      (fun _ s' _ => TokensStored s s' ∨
        ∃ expiresAt, s' = s.withToken { s.conn.token with expiresAt := expiresAt }) s w := by
  unfold restoreAccessToken
  simp only [Script.wp_bind, Script.wp_get, Script.wp_pure]
  have unchanged : TokensStored s s ∨
      ∃ expiresAt, s = s.withToken { s.conn.token with expiresAt := expiresAt } := .inr ⟨_, rfl⟩
  cases json with
  | none => exact unchanged
  | some json =>
    simp only [Script.wp_ite, Script.wp_pure]
    refine ⟨fun _ => unchanged, fun _ => ?_⟩
    split
    · simp only [Script.wp_bind, Script.wp_modify, Script.wp_ask, Script.wp_ite, Script.wp_pure]
      exact fun _ _ _ => ⟨fun _ _ _ _ => .inr ⟨_, rfl⟩, fun _ => .inl ⟨_, _, _, _, rfl⟩⟩
    · exact unchanged

end Spec

end HiveSDK
