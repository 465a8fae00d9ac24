import HiveSDK.Errors.Connect

/-!
# The errors of a login

`onedrive_client_connect` is started twice on the same events, once with an error left over from
before and once with none. `LoginEnds` lists how the two can end: the error recorded is the same
and the run's own; both hand out a connection; the redirect fails silently, and then the error
from before decides; or a code is redeemed in vain, which is told to nobody.
-/

namespace HiveSDK

open Interaction C

/-! ### What is redeemed in a trace -/

/-- A code is redeemed in the course of the trace, and `rc` is what comes of it. -/
def Redeemed (tr : List CallEvent) (rc : ℤ) : Prop :=
  ∃ code s s' pre mid post, tr = pre ++ mid ++ post ∧
    Program.Exec playback (redeemAccessToken code s) mid (.ok (rc, s')) []

/-- A redeem does not depend on what comes before and after it. -/
theorem Redeemed.around {tr : List CallEvent} {rc : ℤ} (h : Redeemed tr rc)
    (pre post : List CallEvent) : Redeemed (pre ++ tr ++ post) rc := by
  obtain ⟨code, s, s', before, mid, after, rfl, hex⟩ := h
  refine ⟨code, s, s', pre ++ before, mid, after ++ post, ?_, hex⟩
  simp only [List.append_assoc]

/-- Without a redeem nothing is redeemed. -/
theorem Redeemed.not_noRedeem {tr : List CallEvent} {rc : ℤ} (h : Redeemed tr rc) :
    ¬NoRedeem tr := by
  obtain ⟨code, s, s', pre, mid, post, rfl, hex⟩ := h
  intro hno
  obtain ⟨k, hk⟩ : ∃ k, redeemAccessToken code s =
      .ask (Call.httpClientNew .redeemAccessToken) k := ⟨_, rfl⟩
  rw [hk] at hex
  cases hex with
  | @ask _ _ _ rest _ created _ hr hrest =>
    obtain rfl : mid = ⟨.httpClientNew .redeemAccessToken, created⟩ :: rest := hr
    have hstarts := hno ⟨.httpClientNew .redeemAccessToken, created⟩
      (List.mem_append_left _ (List.mem_append_right _ List.mem_cons_self))
    cases hstarts

private theorem noRedeem_nil : NoRedeem [] := fun _ h => (nomatch h)

private theorem not_silentFailure_nil : ¬SilentFailure [] :=
  not_silentFailure_of_outside fun _ h => (nomatch h)

/-! ### How two runs end -/

/-- How two attempts to log in end, of which one begins with the error `e` and one with none, and
that have added `new` to the history: whether a connection is handed out, and the error left, in
the one run and in the other. -/
inductive LoginEnds (e : ℤ) (new : List CallEvent) : Bool → ℤ → Bool → ℤ → Prop
  | told {err : ℤ} (hloud : ¬SilentFailure new) (hredeem : NoRedeem new) (herr : err < 0) :
    LoginEnds e new false err false err
  | opened {err err' : ℤ} (hloud : ¬SilentFailure new) (hredeem : ¬RedeemRefused new) :
    LoginEnds e new true err true err'
  | silent (hsilent : SilentFailure new) : LoginEnds e new (decide (0 ≤ e)) e true 0
  | refused {err err' rc : ℤ} (hloud : ¬SilentFailure new) (hrefused : RedeemRefused new)
    (hredeemed : Redeemed new rc) (hrc : rc < 0) (hown : ¬RedirectError rc)
    (herr : err = e ∨ RedirectError err) :
    LoginEnds e new false err false err'

/-- The calls before a token is requested neither redirect nor redeem. -/
private theorem not_startsRedeem_of_ofSetup {ev : CallEvent} (h : ev.1.OfSetup) :
    ev.startsRedeem = false := by
  obtain ⟨call, r⟩ := ev
  cases call with
  | httpClientNew _ => exact h.elim
  | _ => rfl

/-- Calls of the setup may come before a login. -/
theorem LoginEnds.of_setup {e : ℤ} {pre new : List CallEvent} {b b' : Bool} {err err' : ℤ}
    (hpre : ∀ ev ∈ pre, ev.1.OfSetup) (h : LoginEnds e new b err b' err') :
    LoginEnds e (pre ++ new) b err b' err' := by
  have hnoRedeem : NoRedeem pre := fun ev hev => not_startsRedeem_of_ofSetup (hpre ev hev)
  have hsilent : SilentFailure (pre ++ new) ↔ SilentFailure new := by
    rw [← List.append_nil (pre ++ new)]
    exact silentFailure_congr (fun ev hev => not_ofRedirect_of_ofSetup (hpre ev hev)) (by simp)
  have hrefused : RedeemRefused (pre ++ new) ↔ RedeemRefused new := by
    unfold RedeemRefused
    rw [redeemEvents_append hnoRedeem]
  cases h with
  | told hloud hredeem herr =>
    refine .told (hsilent.not.mpr hloud) (fun ev hev => ?_) herr
    exact (List.mem_append.mp hev).elim (hnoRedeem ev) (hredeem ev)
  | opened hloud hredeem => exact .opened (hsilent.not.mpr hloud) (hrefused.not.mpr hredeem)
  | silent h => exact .silent (hsilent.mpr h)
  | refused hloud h hredeemed hrc hown herr =>
    refine .refused (hsilent.not.mpr hloud) (hrefused.mpr h) ?_ hrc hown herr
    have haround := hredeemed.around pre []
    rwa [List.append_nil] at haround

/-- A part of a login, started with the error `e` and with none. -/
def LogsIn (e : ℤ) (m : M OneDriveConnect Bool) : Prop :=
  ∀ c past, Program.Lockstep (fun x y past' => ∃ new, past' = past ++ new ∧
    LoginEnds e new x.1 x.2.hiveError y.1 y.2.hiveError) (m ⟨c, e⟩) (m ⟨c, 0⟩) past

namespace LogsIn

variable {α : Type} {e : ℤ} {P : α → Prop} {m : M OneDriveConnect α}
  {f : α → M OneDriveConnect Bool}

/-- A failure that is told. -/
theorem nullWith {err : ℤ} (herr : err < 0) : LogsIn e (HiveSDK.nullWith err) :=
  fun _ past => .ret ⟨[], (List.append_nil past).symm,
    .told not_silentFailure_nil noRedeem_nil herr⟩

/-- A first part that is told when it fails, and leaves the error alone when it does not. -/
private theorem setup_bind (hm : Accountable P m) (hsetup : SetupOnly m)
    (hkeeps : ∀ s past, Script.wp record anyFault m
      (fun a s' _ => ¬P a → s'.hiveError = s.hiveError) s past)
    (hstop : ∀ a, P a → f a = pure false) (hf : ∀ a, ¬P a → LogsIn e (f a)) :
    LogsIn e (m >>= f) := by
  intro c past
  have hboth := Script.lockstep_and_wp (hm c e 0 past)
    (Script.wp_recorded hsetup (hkeeps ⟨c, e⟩ past)) (hkeeps ⟨c, 0⟩ past)
  refine Script.lockstep_bind hboth ?_
  rintro a a' ⟨c₁, e₁⟩ ⟨c₂, e₂⟩ past' ⟨⟨rfl, rfl, hfails⟩, ⟨hkept₁, pre, rfl, hpre⟩, hkept₂⟩
  have hsetup : ∀ ev ∈ pre, ev.1.OfSetup := fun ev hev => hpre ev hev
  by_cases ha : P a
  · obtain ⟨rfl, hneg⟩ := hfails ha
    rw [hstop a ha]
    refine .ret ⟨pre, rfl, ?_⟩
    rw [← List.append_nil pre]
    exact .of_setup hsetup (.told not_silentFailure_nil noRedeem_nil hneg)
  · obtain rfl : e₁ = e := hkept₁ ha
    obtain rfl : e₂ = 0 := hkept₂ ha
    refine (hf a ha c₁ (past ++ pre)).mono ?_
    rintro x y _ ⟨new, rfl, hends⟩
    exact ⟨pre ++ new, List.append_assoc past pre new, hends.of_setup hsetup⟩

/-- A first part that is never told of. -/
private theorem quiet_bind {V : α → Prop} (hm : Oblivious V m) (hsetup : SetupOnly m)
    (hkeeps : ∀ s past, Script.wp record anyFault m (fun _ s' _ => s'.hiveError = s.hiveError)
      s past)
    (hf : ∀ a, LogsIn e (f a)) : LogsIn e (m >>= f) := by
  have hnever : Accountable (fun _ => False) m := fun c e₁ e₂ past =>
    (hm c e₁ e₂ past).mono fun _ _ _ h => ⟨h.1, h.2.1, False.elim⟩
  refine .setup_bind hnever hsetup (fun s past => ?_) (fun _ h => h.elim) fun a _ => hf a
  exact Script.wp_mono (hkeeps s past) (fun _ _ h => h) fun _ _ _ h _ => h

end LogsIn

/-! ### The token request -/

/-- The calls for the keystore are not those of a redirect. -/
private theorem not_ofRedirect_of_forKeystore {call : Call} (h : call.ForKeystore) :
    ¬call.OfRedirect := by
  cases call <;> simp_all [Call.ForKeystore, Call.OfRedirect]

/-- A code is redeemed after it has been asked for, in two runs whose errors need not be the
same. -/
private theorem redeemAccessToken_pair (code : Bytes) (c : OneDriveConnect) (e₁ e₂ : ℤ)
    (past : List CallEvent) :
    Program.Lockstep (fun x y past' => x.1 = y.1 ∧ x.2.conn = y.2.conn ∧ x.2.hiveError = e₁ ∧
        (x.1 < 0 → ¬RedirectError x.1) ∧ ∃ created new,
          past' = past ++ ⟨.httpClientNew .redeemAccessToken, created⟩ :: new ∧
          (∀ ev ∈ new, ¬ev.1.OfRedirect) ∧ (x.1 < 0 ↔ ¬TokenDelivered new) ∧
          Redeemed (⟨.httpClientNew .redeemAccessToken, created⟩ :: new) x.1)
      (redeemAccessToken code ⟨c, e₁⟩) (redeemAccessToken code ⟨c, e₂⟩) past := by
  have hfirst := Script.wp_with_exec (Script.wp_recorded (redeemAccessToken_outside code)
    (Script.wp_and (redeemAccessToken_redeems code)
      (redeemAccessToken_spec (s := ⟨c, e₁⟩) (w := past) (h := record) code)))
  have hboth := Script.lockstep_and_wp (redeemAccessToken_oblivious code c e₁ e₂ past) hfirst
    Script.wp_true
  refine hboth.mono ?_
  rintro ⟨rc, s₁⟩ ⟨rc', s₂⟩ past' ⟨⟨hrc, hconn, -⟩,
    ⟨⟨⟨⟨created, hrecorded, hown⟩, hstored⟩, all, hall, houtside⟩, hex⟩, -⟩
  obtain ⟨new, hpast', hneg⟩ := hrecorded
  obtain ⟨mid, hmid, hplayed⟩ := hex.of_recorded
  rw [List.append_assoc] at hpast'
  obtain rfl : mid = ⟨.httpClientNew .redeemAccessToken, created⟩ :: new :=
    List.append_cancel_left (hmid.symm.trans hpast')
  obtain rfl := List.append_cancel_left (hall.symm.trans hpast')
  have hkept : s₁.hiveError = e₁ := by
    rcases hstored with ⟨-, _, _, _, _, rfl⟩ | ⟨-, rfl⟩
    · rfl
    · rfl
  refine ⟨hrc, hconn, hkept, hown, created, new, hpast',
    fun ev hev => houtside ev (List.mem_cons_of_mem _ hev), hneg, ?_⟩
  exact ⟨code, ⟨c, e₁⟩, s₁, [], _, [], by simp, hplayed⟩

/-- How two runs of `oauth_token_request` end. -/
def RequestEnds (e : ℤ) (past : List CallEvent) (x y : ℤ × Thread OneDriveConnect)
    (past' : List CallEvent) : Prop :=
  ∃ new, past' = past ++ new ∧
    LoginEnds e new (decide (0 ≤ x.1)) x.2.hiveError (decide (0 ≤ y.1)) y.2.hiveError

/-- What comes after a code has been obtained. -/
theorem afterCode_ends {e err err' : ℤ} {code : Bytes} {new : List CallEvent}
    (c : OneDriveConnect) (past : List CallEvent) (hnoRedeem : NoRedeem new)
    (hloud : ¬SilentFailure new) (herr : err = e ∨ RedirectError err) :
    Program.Lockstep (RequestEnds e past)
      ((do
        let rc ← redeemAccessToken code
        if rc < 0 then
          return rc
        writebackTokens
        return 0 : M OneDriveConnect ℤ) ⟨c, err⟩)
      ((do
        let rc ← redeemAccessToken code
        if rc < 0 then
          return rc
        writebackTokens
        return 0 : M OneDriveConnect ℤ) ⟨c, err'⟩) (past ++ new) := by
  refine Script.lockstep_bind (redeemAccessToken_pair code c err err' (past ++ new)) ?_
  rintro rc _ ⟨c₁, e₁⟩ ⟨c₂, e₂⟩ _
    ⟨rfl, rfl, rfl, hown, created, redeem, rfl, houtside, hrc, hredeemed⟩
  rw [List.append_assoc]
  have hrefused (rest : List CallEvent) :
      RedeemRefused (new ++ ⟨.httpClientNew .redeemAccessToken, created⟩ :: rest) ↔
        ¬TokenDelivered rest := redeemRefused_iff hnoRedeem
  have hquiet {rest : List CallEvent} (hrest : ∀ ev ∈ rest, ¬ev.1.OfRedirect) :
      ¬SilentFailure (new ++ rest) := by
    have hcongr : SilentFailure ([] ++ new ++ rest) ↔ SilentFailure new :=
      silentFailure_congr (by simp) hrest
    rwa [← List.nil_append new, hcongr]
  have hafter : ∀ ev ∈ (⟨.httpClientNew .redeemAccessToken, created⟩ :: redeem : List CallEvent),
      ¬ev.1.OfRedirect :=
    fun ev hev => (List.mem_cons.mp hev).elim (fun h => h ▸ id) (houtside ev)
  by_cases hneg : rc < 0
  · rw [if_pos hneg]
    refine .ret ⟨_, rfl, ?_⟩
    rw [decide_eq_false (not_le.mpr hneg)]
    have haround := hredeemed.around new []
    rw [List.append_nil] at haround
    exact .refused (hquiet hafter) ((hrefused _).mpr (hrc.mp hneg)) haround hneg (hown hneg) herr
  · rw [if_neg hneg]
    have hdelivered : TokenDelivered redeem := not_not.mp fun h => hneg (hrc.mpr h)
    -- the writeback asks for neither a code nor a redeem, and the error is not read again
    refine Script.lockstep_bind (Script.lockstep_and_wp (writebackTokens_oblivious c₁ e₁ e₂ _)
      (Script.wp_recorded writebackTokens_forKeystore Script.wp_true) Script.wp_true) ?_
    rintro _ _ s₁ s₂ _ ⟨-, ⟨-, keystore, rfl, hkeystore⟩, -⟩
    refine .ret ⟨_, List.append_assoc _ _ _, .opened ?_ ?_⟩
    · rw [List.append_assoc]
      refine hquiet fun ev hev => (List.mem_append.mp hev).elim (hafter ev) fun hev => ?_
      exact not_ofRedirect_of_forKeystore (hkeystore ev hev)
    · rw [List.append_assoc, List.cons_append, hrefused, not_not]
      exact hdelivered.append hkeystore

/-- How two token requests end, of which one begins with an error. -/
theorem oauthTokenRequest_ends (c : OneDriveConnect) (e : ℤ) (past : List CallEvent) :
    Program.Lockstep (RequestEnds e past) (oauthTokenRequest ⟨c, e⟩) (oauthTokenRequest ⟨c, 0⟩)
      past := by
  unfold oauthTokenRequest
  have hread (e : ℤ) : getToken ⟨c, e⟩ = pure (c.token, ⟨c, e⟩) := rfl
  refine Script.lockstep_left (hread e) (Script.lockstep_right (hread 0) ?_)
  by_cases hsome : c.token.accessToken.isSome = true
  · -- the keystore held the tokens
    rw [if_pos hsome]
    refine .ret ⟨[], (List.append_nil past).symm, ?_⟩
    exact .opened not_silentFailure_nil (not_redeemRefused noRedeem_nil)
  · rw [if_neg hsome]
    refine Script.lockstep_bind (getAuthorizeCode_ends c e past) ?_
    rintro code _ ⟨c₁, err⟩ ⟨c₂, err'⟩ _ ⟨rfl, hc₁, hc₂, new, rfl, hnoRedeem, hends⟩
    obtain rfl : c₂ = c := hc₂
    obtain rfl : c₁ = c₂ := hc₁
    dsimp only at hends
    cases hends with
    | silent hsilent => exact .ret ⟨new, rfl, .silent hsilent⟩
    | failed hloud herr =>
      refine .ret ⟨new, rfl, ?_⟩
      dsimp only
      rw [decide_eq_false (not_le.mpr herr)]
      exact .told hloud hnoRedeem herr
    | code hloud herr => exact afterCode_ends c₁ past hnoRedeem hloud herr

/-- The token request ends as a login does. -/
private theorem tokenRequest_logsIn (e : ℤ) : LogsIn e (do
    let rc ← oauthTokenRequest
    if rc < 0 then
      return false
    return true) := by
  intro c past
  refine Script.lockstep_bind (oauthTokenRequest_ends c e past) ?_
  rintro rc rc' ⟨c₁, err⟩ ⟨c₂, err'⟩ _ ⟨new, rfl, hends⟩
  have answer (rc : ℤ) : (if rc < 0 then return false else return true : M OneDriveConnect Bool) =
      pure (decide (0 ≤ rc)) := by
    split
    · rename_i h
      rw [decide_eq_false (not_le.mpr h)]
    · rename_i h
      rw [decide_eq_true (not_lt.mp h)]
  rw [answer, answer]
  exact .ret ⟨new, rfl, hends⟩

/-! ### Connecting -/

/-- Looking for the keystore comes before a login, or ends it. -/
private theorem findKeystore_logsIn {e : ℤ} (path : Bytes)
    {f : Option (Option Json) → M OneDriveConnect Bool} (hstop : f none = pure false)
    (hf : ∀ keystore, LogsIn e (f (some keystore))) : LogsIn e (findKeystore path >>= f) := by
  refine .setup_bind (findKeystore_accountable path) (findKeystore_setup path) (fun s past => ?_)
    ?_ ?_
  · refine Script.wp_mono (findKeystore_spec path) (fun _ _ h => h) ?_
    rintro found s' _ hsame hsome
    rw [hsame (Option.ne_none_iff_isSome.mp hsome)]
  · rintro _ rfl
    exact hstop
  · intro found hsome
    obtain ⟨keystore, rfl⟩ := Option.ne_none_iff_exists'.mp hsome
    exact hf keystore

/-- So does the connection over that keystore. -/
private theorem connectWithKeystore_logsIn (e : ℤ) (path clientId redirectUrl scope : Bytes) :
    LogsIn e (connectWithKeystore path clientId redirectUrl scope) := by
  unfold connectWithKeystore
  refine findKeystore_logsIn path rfl fun keystore => ?_
  refine .setup_bind (oauthTokenNew_accountable keystore clientId scope redirectUrl)
    (oauthTokenNew_setup _ _ _ _) (fun s past => ?_) ?_ ?_
  · refine Script.wp_mono (oauthTokenNew_spec keystore clientId scope redirectUrl)
      (fun _ _ h => h) ?_
    exact fun made s' _ hkept hmade => (hkept (Bool.not_eq_false _ ▸ hmade)).2
  · rintro _ rfl
    rfl
  · intro made hmade
    rw [Bool.not_eq_false] at hmade
    subst hmade
    exact tokenRequest_logsIn e

/-- The two runs of `onedrive_client_connect`. -/
theorem onedriveClientConnect_logsIn (e : ℤ) (dataLocation : Bytes)
    (options : OneDriveConnectOptions) : LogsIn e (onedriveClientConnect dataLocation options) := by
  unfold onedriveClientConnect
  split
  · exact .nullWith (toInt_hiveGeneralError_neg _)
  refine .quiet_bind (ask_oblivious (.malloc oneDriveConnectSize)) (.ask trivial)
    (fun _ _ _ _ _ => rfl) fun made => ?_
  split
  · exact .nullWith (toInt_hiveGeneralError_neg _)
  split
  · exact .nullWith (toInt_hiveGeneralError_neg _)
  refine .quiet_bind (.modify fun _ _ _ => rfl) (.modify _) (fun _ _ => rfl) fun _ => ?_
  refine .quiet_bind (mkdirs_oblivious _) (mkdirs_setup _) (fun s past => ?_) fun dir => ?_
  · refine Script.wp_mono (mkdirs_spec _) (fun _ _ h => h) ?_
    rintro _ _ _ rfl
    rfl
  match dir with
  | .ok _ => exact connectWithKeystore_logsIn e _ _ _ _
  | .error errno =>
    dsimp only
    split
    · exact .nullWith (toInt_hiveSysError_neg _)
    · exact connectWithKeystore_logsIn e _ _ _ _

end HiveSDK
