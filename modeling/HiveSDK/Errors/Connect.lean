import HiveSDK.Errors.Accountable
import HiveSDK.Token.Redeem

/-!
# The errors of the functions that return pointers

`hive_client_new` and the opening of an IPFS connection are accountable, up to the two exits of
`ipfs_client_connect` that record nothing. `onedrive_client_connect` is accountable until it
requests a token. From there on three things can happen to `hive_error` (`LoginEnds`): it is set
to what went wrong; it is left alone, by a redirect that failed silently; or a code is redeemed in
vain, and what is in `hive_error` then has nothing to do with it.
-/

namespace HiveSDK

open Interaction C

/-! ### Directories and clients -/

section Directories

variable {C : Type}

/-- Creating one directory ignores the error. -/
theorem mkdirInternal_oblivious (path : Bytes) :
    Oblivious anyValue (mkdirInternal path : M C _) := by
  unfold mkdirInternal
  refine ask_bind_oblivious fun st => ?_
  match st with
  | .ok .directory => exact .pure trivial
  | .ok (.file _) => exact .pure trivial
  | .error _ =>
    refine ask_bind_oblivious fun made => ?_
    match made with
    | .ok _ => exact .pure trivial
    | .error _ => exact .ite (fun _ => .pure trivial) fun _ => .pure trivial

/-- So does the loop over the components, by induction on what is left of the path. -/
theorem mkdirsLoop_oblivious (done component rest : Bytes) :
    Oblivious anyValue (mkdirsLoop done component rest : M C _) := by
  induction rest generalizing done component with
  | nil => exact .pure trivial
  | cons c rest ih =>
    unfold mkdirsLoop
    refine .ite (fun _ => ih _ _) fun _ => .ite (fun _ => ih _ _) fun _ => ?_
    refine .bind (mkdirInternal_oblivious _) fun made _ => ?_
    cases made with
    | ok _ => exact ih _ _
    | error _ => exact .pure trivial

theorem mkdirs_oblivious (path : Bytes) : Oblivious anyValue (mkdirs path : M C _) := by
  unfold mkdirs
  refine .bind (mkdirsLoop_oblivious _ _ _) fun made _ => ?_
  match made with
  | .ok _ => exact mkdirInternal_oblivious _
  | .error _ => exact .pure trivial

/-- Recording the error and returning `NULL` is how a constructor fails. -/
theorem nullWith_accountable {e : ℤ} (he : e < 0) : Accountable (· = false) (nullWith e : M C _) :=
  setError_accountable he _

theorem hiveClientNew_accountable (options : Option (Option Bytes)) :
    Accountable (· = false) (hiveClientNew options : M C _) := by
  have newClient (dataLocation : Bytes) :
      Accountable (· = false) (hiveClientNew.newClient dataLocation : M C _) := by
    refine .ask_bind fun made => .ite (fun _ => ?_) fun _ => .pure (by decide)
    exact nullWith_accountable (toInt_hiveGeneralError_neg _)
  unfold hiveClientNew
  split
  · exact nullWith_accountable (toInt_hiveGeneralError_neg _)
  refine .ask_bind fun st => ?_
  split
  · exact nullWith_accountable (toInt_hiveGeneralError_neg _)
  · refine .oblivious_bind (mkdirs_oblivious _) fun made _ => ?_
    match made with
    | .error _ => exact nullWith_accountable (toInt_hiveSysError_neg _)
    | .ok _ => exact newClient _
  · exact nullWith_accountable (toInt_hiveGeneralError_neg _)
  · exact newClient _

end Directories

theorem rpcNew_accountable (nodes : List RpcNode) :
    Accountable (· = false) (IPFS.rpcNew nodes) := by
  unfold IPFS.rpcNew
  refine .ask_bind fun made => .ite (fun _ => ?_) fun _ => ?_
  · exact setError_accountable (toInt_hiveGeneralError_neg _) _
  refine .oblivious_bind (.modify fun _ _ _ => rfl) fun _ _ => ?_
  refine .oblivious_bind (IPFS.selectBootstrap_oblivious nodes) fun rc _ => ?_
  exact .ite (fun hneg => setError_accountable hneg _) fun _ => .pure (by decide)

/-! ### Before a token is requested -/

theorem loadKeystoreInJson_oblivious (path : Bytes) :
    Oblivious anyValue (loadKeystoreInJson path) := by
  unfold loadKeystoreInJson
  refine ask_bind_oblivious fun st => ?_
  match st with
  | .error _ => exact .pure trivial
  | .ok st =>
    refine .ite (fun _ => .pure trivial) fun _ => ask_bind_oblivious fun opened => ?_
    match opened with
    | .error _ => exact .pure trivial
    | .ok _ =>
      refine ask_bind_oblivious fun text => ?_
      match text with
      | .error _ => exact .pure trivial
      | .ok text =>
        refine .ite (fun _ => ask_bind_oblivious fun _ => .pure trivial) fun _ => ?_
        refine .ite (fun _ => .fault _) fun _ => ask_bind_oblivious fun json => ?_
        match json with
        | none => exact .pure trivial
        | some _ => exact .pure trivial

/-- A keystore that is looked for and not opened leaves an error. -/
theorem findKeystore_accountable (path : Bytes) : Accountable (· = none) (findKeystore path) := by
  unfold findKeystore
  refine .ask_bind fun found => .ite (fun _ => .pure (Option.some_ne_none _)) fun _ => ?_
  refine .oblivious_bind (loadKeystoreInJson_oblivious _) fun json _ => ?_
  match json with
  | .error _ => exact setError_accountable (toInt_hiveSysError_neg _) _
  | .ok _ => exact .pure (Option.some_ne_none _)

theorem restoreAccessToken_oblivious (store : Option Json) :
    Oblivious anyValue (restoreAccessToken store) := by
  unfold restoreAccessToken
  refine .bind getToken_oblivious fun token _ => ?_
  split
  · exact .pure trivial
  · refine .ite (fun _ => .pure trivial) fun _ => ?_
    split
    · refine .bind (modifyToken_oblivious _) fun _ _ => ask_bind_oblivious fun held => ?_
      refine .ite (fun _ => ask_bind_oblivious fun _ => .pure trivial) fun _ => ?_
      exact .bind (modifyToken_oblivious _) fun _ _ => .pure trivial
    · exact .pure trivial

/-- The token client fails on its memory or on the store, and says so. -/
theorem oauthTokenNew_accountable (store : Option Json) (clientId scope redirectUrl : Bytes) :
    Accountable (· = false) (oauthTokenNew store clientId scope redirectUrl) := by
  unfold oauthTokenNew
  refine .ask_bind fun made => .ite (fun _ => ?_) fun _ => ?_
  · exact setError_accountable (toInt_hiveGeneralError_neg _) _
  refine .oblivious_bind (modifyToken_oblivious _) fun _ _ => ?_
  exact .oblivious_bind (restoreAccessToken_oblivious _) fun _ _ => .pure (by decide)

/-! ### The redirect -/

/-- Two states of the redirect handler that differ only in the error, if at all: either keeps the
error it began with, or both hold one of the handler's. -/
structure RedirectAlike (e₁ e₂ : ℤ) (r₁ r₂ : Redirect) : Prop where
  stopped : r₁.stopped = r₂.stopped
  code : r₁.code = r₂.code
  hiveError : r₁.hiveError = e₁ ∧ r₂.hiveError = e₂ ∨
    r₁.hiveError = r₂.hiveError ∧ RedirectError r₁.hiveError

section Redirect

variable {e₁ e₂ : ℤ} {r₁ r₂ : Redirect} {path : Bytes}

/-- One event of the server keeps two redirects alike. -/
theorem RedirectAlike.handle (h : RedirectAlike e₁ e₂ r₁ r₂) (event : SbEvent) :
    RedirectAlike e₁ e₂ (handleAuthRedirect path r₁ event) (handleAuthRedirect path r₂ event) := by
  obtain ⟨hstopped, hcode, herror⟩ := h
  cases event with
  | close => exact ⟨rfl, hcode, herror⟩
  | other => exact ⟨hstopped, hcode, herror⟩
  | request requestPath value =>
    dsimp only [handleAuthRedirect]
    split
    · exact ⟨hstopped, hcode, .inr ⟨rfl, .inl rfl⟩⟩
    · split
      · exact ⟨hstopped, rfl, herror⟩
      · exact ⟨hstopped, rfl, .inr ⟨rfl, .inr rfl⟩⟩

/-- So do the events of one poll. -/
theorem RedirectAlike.foldl (h : RedirectAlike e₁ e₂ r₁ r₂) (events : List SbEvent) :
    RedirectAlike e₁ e₂ (events.foldl (handleAuthRedirect path) r₁)
      (events.foldl (handleAuthRedirect path) r₂) := by
  induction events generalizing r₁ r₂ with
  | nil => exact h
  | cons event events ih => exact ih (h.handle event)

/-- And so does the wait, by induction on the polls: it ends for both at the same one, or for
neither. -/
theorem RedirectAlike.wait (h : RedirectAlike e₁ e₂ r₁ r₂) (polls : List (List SbEvent)) :
    Option.Rel (RedirectAlike e₁ e₂) (waitRedirect path r₁ polls) (waitRedirect path r₂ polls) := by
  induction polls generalizing r₁ r₂ with
  | nil =>
    unfold waitRedirect
    rw [h.stopped]
    split
    · exact .some h
    · exact .none
  | cons poll polls ih =>
    unfold waitRedirect
    rw [h.stopped]
    split
    · exact .some h
    · exact ih (h.foldl poll)

end Redirect

/-- What becomes of two errors while an authorization code is asked for. -/
def CodeError (e₁ e₂ : ℤ) (code : Option Bytes) (e₁' e₂' : ℤ) : Prop :=
  e₁' = e₁ ∧ e₂' = e₂ ∨ e₁' = e₂' ∧ (code.isSome → RedirectError e₁')

/-- Two runs that ask for a code and differ only in the error. -/
theorem getAuthorizeCode_lockstep (c : OneDriveConnect) (e₁ e₂ : ℤ) (past : List CallEvent) :
    Program.Lockstep (fun x y _ => x.1 = y.1 ∧ x.2.conn = c ∧ y.2.conn = c ∧
        CodeError e₁ e₂ x.1 x.2.hiveError y.2.hiveError)
      (getAuthorizeCode ⟨c, e₁⟩) (getAuthorizeCode ⟨c, e₂⟩) past := by
  set R : Option Bytes × Thread OneDriveConnect → Option Bytes × Thread OneDriveConnect →
      List CallEvent → Prop := fun x y _ => x.1 = y.1 ∧ x.2.conn = c ∧ y.2.conn = c ∧
    CodeError e₁ e₂ x.1 x.2.hiveError y.2.hiveError with hR
  have asked {call : Call} {f : call.Reply → M OneDriveConnect (Option Bytes)}
      (hf : ∀ r past, Program.Lockstep R (f r ⟨c, e₁⟩) (f r ⟨c, e₂⟩) past) (past : List CallEvent) :
      Program.Lockstep R ((ask call >>= f) ⟨c, e₁⟩) ((ask call >>= f) ⟨c, e₂⟩) past :=
    .ask fun r => hf r _
  have failed (e : ℤ) (past : List CallEvent) : Program.Lockstep R
      ((do
        hiveSetError e
        return none : M OneDriveConnect (Option Bytes)) ⟨c, e₁⟩)
      ((do
        hiveSetError e
        return none : M OneDriveConnect (Option Bytes)) ⟨c, e₂⟩) past :=
    .ret ⟨rfl, rfl, rfl, .inr ⟨rfl, by rintro ⟨⟩⟩⟩
  unfold getAuthorizeCode
  refine asked (fun created past => ?_) past
  cases created with
  | false => exact failed _ _
  | true =>
  refine asked (fun url past => ?_) past
  cases url with
  | error rc => exact failed _ _
  | ok url =>
  refine asked (fun host past => ?_) past
  cases host with
  | error rc => exact failed _ _
  | ok host =>
  refine asked (fun port past => ?_) past
  cases port with
  | error rc => exact failed _ _
  | ok port =>
  refine asked (fun path past => ?_) past
  cases path with
  | error rc => exact failed _ _
  | ok path =>
  refine asked (fun server past => ?_) past
  cases server with
  | false => exact .ret ⟨rfl, rfl, rfl, .inl ⟨rfl, rfl⟩⟩
  | true =>
  refine asked (fun thread past => ?_) past
  by_cases hthread : thread = 0
  · subst hthread
    -- the handler runs on the thread's own error
    refine .ask fun polls => ?_
    have halike : RedirectAlike e₁ e₂ ⟨false, [], e₁⟩ ⟨false, [], e₂⟩ :=
      ⟨rfl, rfl, .inl ⟨rfl, rfl⟩⟩
    have hwait : Option.Rel _ (waitRedirect path _ polls) (waitRedirect path _ polls) :=
      halike.wait polls
    change Program.Lockstep R (afterRedirect (waitRedirect path ⟨false, [], e₁⟩ polls) ⟨c, e₁⟩)
      (afterRedirect (waitRedirect path ⟨false, [], e₂⟩ polls) ⟨c, e₂⟩) _
    generalize waitRedirect path ⟨false, [], e₁⟩ polls = r₁ at hwait ⊢
    generalize waitRedirect path ⟨false, [], e₂⟩ polls = r₂ at hwait ⊢
    cases hwait with
    | none => exact .ask fun e => e.elim
    | some h =>
      refine .ret ⟨?_, rfl, rfl, ?_⟩
      · rw [h.code]
      · exact h.hiveError.imp_right fun h => ⟨h.1, fun _ => h.2⟩
  · refine (if_pos hthread).symm ▸ asked (fun e past => failed _ _) _

/-- The client of a redeem is not asked for. -/
private theorem getAuthorizeCode_noRedeem : getAuthorizeCode.Within
    (fun call => ∀ r, CallEvent.startsRedeem ⟨call, r⟩ = false) fun _ => True := by
  refine getAuthorizeCode_forCode.mono (fun call hcall r => ?_) fun _ h => h
  cases call with
  | httpClientNew user =>
    cases user with
    | getAuthorizeCode => rfl
    | _ => exact hcall.elim
  | _ => rfl

/-- How two runs that ask for a code end, of which one begins with the error `e` and one with
none: silently; with an error that is the same for both; or with a code. -/
inductive CodeEnds (e : ℤ) (new : List CallEvent) : Option Bytes → ℤ → ℤ → Prop
  | silent (hsilent : SilentFailure new) : CodeEnds e new none e 0
  | failed {err : ℤ} (hloud : ¬SilentFailure new) (herr : err < 0) : CodeEnds e new none err err
  | code {code : Bytes} {err err' : ℤ} (hloud : ¬SilentFailure new)
    (herr : err = e ∨ RedirectError err) : CodeEnds e new (some code) err err'

/-- The two runs of `get_authorize_code` have one trace, and one of the ends. -/
theorem getAuthorizeCode_ends (c : OneDriveConnect) (e : ℤ) (past : List CallEvent) :
    Program.Lockstep (fun x y past' => x.1 = y.1 ∧ x.2.conn = c ∧ y.2.conn = c ∧
        ∃ new, past' = past ++ new ∧ NoRedeem new ∧
          CodeEnds e new x.1 x.2.hiveError y.2.hiveError)
      (getAuthorizeCode ⟨c, e⟩) (getAuthorizeCode ⟨c, 0⟩) past := by
  -- each of the two runs ends in its own way; the lockstep says how the two are related
  have outcome (e : ℤ) (tr : List CallEvent) : Script.wp playback (fun _ _ => False)
      getAuthorizeCode (fun code s' tr' => ∃ new, tr = new ++ tr' ∧
        CodeOutcome e new code s'.hiveError) ⟨c, e⟩ tr :=
    Script.wp_mono (getAuthorizeCode_playback ⟨c, e⟩ tr) (fun _ _ h => h) fun _ _ _ h => h.2
  have hboth := Script.lockstep_and_wp (getAuthorizeCode_lockstep c e 0 past)
    (Script.wp_recorded getAuthorizeCode_noRedeem (Script.wp_record_of_playback (outcome e)))
    (Script.wp_record_of_playback (outcome 0))
  refine hboth.mono ?_
  rintro ⟨code, s₁⟩ ⟨code', s₂⟩ past' ⟨⟨hcode, hconn₁, hconn₂, herror⟩,
    ⟨⟨new, rfl, hfirst⟩, new', heq, hnew⟩, new'', heq', hsecond⟩
  obtain rfl := List.append_cancel_left heq
  obtain rfl := List.append_cancel_left heq'
  dsimp only at hcode hfirst hsecond herror ⊢
  subst hcode
  refine ⟨rfl, hconn₁, hconn₂, new, rfl, fun ev hev => hnew ev hev ev.2, ?_⟩
  -- either no error was recorded in either run, or the same one was in both
  cases code with
  | some code =>
    refine .code hfirst ?_
    rcases herror with ⟨h, -⟩ | ⟨-, h⟩
    · exact .inl h
    · exact .inr (h rfl)
  | none =>
    rcases hfirst with ⟨hsilent, hfirst⟩ | ⟨hloud, hfirst⟩
    · have hzero := (hsecond.resolve_right fun h => h.1 hsilent).2
      rw [hfirst, hzero]
      exact .silent hsilent
    · have hneg := (hsecond.resolve_left fun h => hloud h.1).2
      rcases herror with ⟨-, hzero⟩ | ⟨hsame, -⟩
      · rw [hzero] at hneg
        exact absurd hneg (lt_irrefl 0)
      · rw [← hsame]
        exact .failed hloud hfirst

end HiveSDK
