import HiveSDK.Errors.Accountable
import HiveSDK.Interaction.Gate
import HiveSDK.Model.Client
import HiveSDK.OneDrive.Requests
import HiveSDK.Token.Reconnect

/-!
# The access token as a gate

A token that the service has refused (401), or that the user has marked expired, is not used again:
the gate it was stays shut until `refresh_access_token` has succeeded. This is a rule for a whole
connection, over all of its operations (`requests_after_renewal`), and it holds although it is kept
only by a time of expiry that is set to the epoch, as long as the clock is past the epoch. The
operation that is refused ends with the request that is (`refused_operation_ends`).

Every operation abides by the rule (`Abides`), and what is put together from parts that do so does
so too, provided that it hands on the error of a part that was refused.
-/

namespace HiveSDK

open Interaction C

namespace OneDrive

/-- What happens on a connection: a call with its reply, or that the user marks the token
expired. -/
inductive Item
  | event (e : CallEvent)
  | expire

namespace Item

/-- A request to a server. -/
def Performs (x : Item) : Prop := ∃ request reply, x = event ⟨.httpClientPerform request, reply⟩

/-- A request with the access token that is answered 401. -/
def Refused (x : Item) : Prop :=
  ∃ request reply, x = event ⟨.httpClientPerform request, reply⟩ ∧ request.Authorized ∧
    reply.answer = .ok HttpStatus_Unauthorized

/-- After this the token is not to be used. -/
def Voids (x : Item) : Prop := x = expire ∨ x.Refused

/-- A request that is not one for new tokens. -/
def Sends (x : Item) : Prop :=
  ∃ request reply, x = event ⟨.httpClientPerform request, reply⟩ ∧
    ¬(request.method = .post ∧ request.headers = [])

/-- A refusal answers a request. -/
theorem Refused.performs {x : Item} (h : x.Refused) : x.Performs := by
  obtain ⟨request, reply, hx, -⟩ := h
  exact ⟨request, reply, hx⟩

theorem Sends.performs {x : Item} (h : x.Sends) : x.Performs := by
  obtain ⟨request, reply, hx, -⟩ := h
  exact ⟨request, reply, hx⟩

private theorem not_performs_of_offline {e : CallEvent} (he : e.1.Offline) :
    ¬(event e).Performs := by
  rintro ⟨request, reply, hx⟩
  cases hx
  exact he request rfl

end Item

/-- A run of `refresh_access_token` that succeeds. -/
def Renewal (seg : List Item) : Prop :=
  ∃ tr s rc s', seg = tr.map .event ∧ 0 ≤ rc ∧
    Program.Exec playback (refreshAccessToken s) tr (.ok (rc, s')) []

/-- A clock reading is later than the epoch. -/
def AfterEpoch (e : CallEvent) : Prop :=
  ∀ now, e = ⟨.gettimeofday, now⟩ → now.after ⟨0, 0⟩ = true

/-- What happens on a connection is written down. -/
abbrev connection : Handler (List Item) Call Call.Reply := recordAs .event AfterEpoch

/-- The token must not be used before it has been refreshed. -/
abbrev Void (items : List Item) : Prop := Shut Item.Voids Renewal items

/-- It has not been used when it must not. -/
abbrev Obeyed (items : List Item) : Prop := Guarded Item.Voids Renewal Item.Sends items

/-- The rule has been obeyed so far, and the time of expiry says when it applies. -/
structure TokenInv (s : Thread OneDriveConnect) (items : List Item) : Prop where
  obeyed : Obeyed items
  expired : Void items → s.conn.token.expiresAt = ⟨0, 0⟩

/-- Nothing has been refused. -/
def Clear (new : List Item) : Prop := ∀ x ∈ new, ¬x.Refused

/-- A request has been refused, and no other one has been sent after it. -/
def Refusal (new : List Item) : Prop :=
  ∃ before x after, new = before ++ x :: after ∧ x.Refused ∧ Clear before ∧
    ∀ y ∈ after, ¬y.Performs

/-- How a part of an operation leaves the connection: the rule is obeyed, and a part that was
refused has failed. Where the token may be used at its beginning it may be used at its end,
otherwise. -/
structure Left (usable : Prop) (failed : Prop) (items : List Item) (s' : Thread OneDriveConnect)
    (items' : List Item) : Prop where
  inv : TokenInv s' items'
  new : ∃ new, items' = items ++ new ∧ (Clear new ∧ (usable → ¬Void items') ∨ Refusal new ∧ failed)

/-- The part of an operation obeys the rule, and its result is `failed` when it was refused. -/
def Abides {α : Type} (usable : Prop) (m : M OneDriveConnect α)
    (failed : α → Thread OneDriveConnect → Prop) : Prop :=
  ∀ s items, TokenInv s items → (usable → ¬Void items) →
    Script.wp connection (fun _ items' => Obeyed items') m
      (fun a s' items' => Left usable (failed a s') items s' items') s items

section Rules

variable {α β : Type} {usable : Prop} {failed : α → Thread OneDriveConnect → Prop}
  {failed' : β → Thread OneDriveConnect → Prop} {s s' : Thread OneDriveConnect}
  {items items' : List Item}

/-- Where nothing has been sent, nothing has changed. -/
theorem TokenInv.concat (hinv : TokenInv s items) {e : CallEvent} (he : e.1.Offline) :
    TokenInv s (items ++ [.event e]) ∧ (Void (items ++ [.event e]) → Void items) := by
  have hquiet := Item.not_performs_of_offline he
  have hvoids : ∀ x ∈ [Item.event e], ¬x.Voids := by
    intro x hx
    obtain rfl := List.mem_singleton.mp hx
    rintro (h | h)
    · cases h
    · exact hquiet h.performs
  have hbefore : Void (items ++ [.event e]) → Void items := fun h => h.before hvoids
  refine ⟨⟨hinv.obeyed.concat fun h => absurd h.performs hquiet, fun h => ?_⟩, hbefore⟩
  exact hinv.expired (hbefore h)

/-- What has happened before without a refusal is added. -/
theorem Left.prepend {failed : Prop} {new : List Item} (hclear : Clear new)
    (h : Left usable failed (items ++ new) s' items') : Left usable failed items s' items' := by
  obtain ⟨hinv', new', rfl, hends⟩ := h
  refine ⟨hinv', new ++ new', List.append_assoc _ _ _, ?_⟩
  rcases hends with ⟨hclear', husable'⟩ | ⟨⟨before, x, after, rfl, hx, hbefore, hafter⟩, hfail⟩
  · exact .inl ⟨fun x hx => (List.mem_append.mp hx).elim (hclear x) (hclear' x), husable'⟩
  · refine .inr ⟨⟨new ++ before, x, after, (List.append_assoc _ _ _).symm, hx, ?_, hafter⟩, hfail⟩
    exact fun y hy => (List.mem_append.mp hy).elim (hclear y) (hbefore y)

theorem Left.weaken {usable' failed : Prop} (husable : usable' → usable)
    (h : Left usable failed items s' items') : Left usable' failed items s' items' := by
  obtain ⟨hinv', new, rfl, hends⟩ := h
  exact ⟨hinv', new, rfl, hends.imp_left fun hclear => ⟨hclear.1, fun h => hclear.2 (husable h)⟩⟩

theorem Abides.pure (a : α) : Abides usable (pure a) failed := by
  intro s items hinv husable
  refine ⟨hinv, [], (List.append_nil items).symm, .inl ⟨?_, husable⟩⟩
  intro x hx
  cases hx

theorem Abides.fault (e : Fault) : Abides usable (Script.fault e : M OneDriveConnect α) failed :=
  fun _ _ hinv _ => hinv.obeyed

theorem Abides.get {failed : Thread OneDriveConnect → Thread OneDriveConnect → Prop} :
    Abides usable get failed :=
  fun s items hinv husable => Abides.pure s s items hinv husable

/-- A change of the state must keep the token. -/
theorem Abides.modify {failed : PUnit → Thread OneDriveConnect → Prop}
    {g : Thread OneDriveConnect → Thread OneDriveConnect}
    (hg : ∀ s, (g s).conn.token = s.conn.token) : Abides usable (modify g) failed := by
  intro s items hinv husable
  refine ⟨⟨hinv.obeyed, fun h => ?_⟩, [], (List.append_nil items).symm, .inl ⟨?_, husable⟩⟩
  · change (g s).conn.token.expiresAt = _
    rw [hg]
    exact hinv.expired h
  · intro x hx
    cases hx

/-- A call that is none of the protocol. -/
theorem Abides.ask {i : Call} {failed : i.Reply → Thread OneDriveConnect → Prop}
    (hi : i.Offline) : Abides usable (ask i) failed := by
  intro s items hinv husable
  rintro r _ ⟨-, rfl⟩
  obtain ⟨hinv', hbefore⟩ := hinv.concat (e := ⟨i, r⟩) hi
  refine ⟨hinv', _, rfl, .inl ⟨?_, fun ho h => husable ho (hbefore h)⟩⟩
  intro x hx
  obtain rfl := List.mem_singleton.mp hx
  exact fun h => Item.not_performs_of_offline hi h.performs

/-- After a part that has been refused the rest asks nothing, and hands the failure on. -/
def HandsOn (failed' : β → Thread OneDriveConnect → Prop) (m : M OneDriveConnect β)
    (s : Thread OneDriveConnect) : Prop :=
  ∃ b s', m s = .ret (b, s') ∧ s'.conn.token = s.conn.token ∧ failed' b s'

theorem HandsOn.pure {b : β} (h : failed' b s) : HandsOn failed' (pure b) s :=
  ⟨b, s, rfl, rfl, h⟩

/-- Composition: the second program takes over what the first has failed with. -/
theorem Abides.bind {m : M OneDriveConnect α} {f : α → M OneDriveConnect β}
    (hm : Abides usable m failed) (hf : ∀ a, Abides usable (f a) failed')
    (hfailed : ∀ a s, failed a s → HandsOn failed' (f a) s) :
    Abides usable (m >>= f) failed' := by
  intro s items hinv husable
  rw [Script.wp_bind]
  refine Script.wp_mono (hm s items hinv husable) (fun _ _ h => h) ?_
  rintro a s₁ items₁ ⟨hinv₁, new, rfl, ⟨hclear, husable₁⟩ | ⟨hrefusal, hfail⟩⟩
  · exact Script.wp_mono (hf a s₁ _ hinv₁ husable₁) (fun _ _ h => h) fun _ _ _ h => h.prepend hclear
  · obtain ⟨b, s', heq, htoken, hfail'⟩ := hfailed a s₁ hfail
    change (f a s₁).wp _ _ _ _
    rw [heq]
    refine ⟨⟨hinv₁.obeyed, fun h => ?_⟩, new, rfl, .inr ⟨hrefusal, hfail'⟩⟩
    change s'.conn.token.expiresAt = _
    rw [htoken]
    exact hinv₁.expired h

/-- A first part that is never refused. -/
theorem Abides.seq {m : M OneDriveConnect α} {f : α → M OneDriveConnect β}
    (hm : Abides usable m fun _ _ => False) (hf : ∀ a, Abides usable (f a) failed') :
    Abides usable (m >>= f) failed' :=
  hm.bind hf fun _ _ h => h.elim

theorem Abides.ite {c : Prop} [Decidable c] {m n : M OneDriveConnect α}
    (hm : Abides usable m failed) (hn : Abides usable n failed) :
    Abides usable (if c then m else n) failed := by
  split
  · exact hm
  · exact hn

end Rules

/-! ### Tokens and requests -/

/-- The error of an operation that has been refused. -/
abbrev tryAgain : ℤ := toInt (hiveGeneralError HIVEERR_TRY_AGAIN)

theorem tryAgain_neg : tryAgain < 0 := toInt_hiveGeneralError_neg _

section Functions

variable {α : Type} {usable : Prop} {failed : α → Thread OneDriveConnect → Prop}
  {s s' : Thread OneDriveConnect} {items items' : List Item}

/-- A token request is no request with the token. -/
private theorem not_voids_of_forToken {tr : List CallEvent} (htr : ∀ e ∈ tr, e.1.ForToken) :
    ∀ x ∈ tr.map Item.event, ¬x.Voids ∧ ¬x.Sends := by
  intro x hx
  obtain ⟨e, he, rfl⟩ := List.mem_map.mp hx
  have hrequest : ∀ request reply, Item.event e = .event ⟨.httpClientPerform request, reply⟩ →
      request.method = .post ∧ request.headers = [] := by
    rintro request reply heq
    cases heq
    exact htr _ he
  constructor
  · rintro (h | ⟨request, reply, heq, ⟨token, hmem⟩, -⟩)
    · cases h
    · rw [(hrequest request reply heq).2] at hmem
      exact List.not_mem_nil hmem
  · rintro ⟨request, reply, heq, hno⟩
    exact hno (hrequest request reply heq)

/-- A refresh that succeeds opens the gate; one that fails leaves it as it is. -/
theorem refreshAccessToken_opens (hinv : TokenInv s items) :
    Script.wp connection (fun _ items' => Obeyed items') refreshAccessToken
      (fun rc s' items' => TokenInv s' items' ∧ (0 ≤ rc → ¬Void items') ∧
        ∃ new, items' = items ++ new ∧ Clear new) s items := by
  refine Script.wp_iff_forall_exec.mpr fun o items' hex => ?_
  obtain ⟨tr, rfl, -, hplay⟩ := hex.of_recordAs
  have htoken : ∀ e ∈ tr, e.1.ForToken := by
    obtain ⟨pre, hpre, hforToken⟩ := hplay.consumed (refreshAccessToken_confined.within s)
    rw [List.append_nil] at hpre
    exact hpre ▸ hforToken
  have hnew := not_voids_of_forToken htoken
  have hobeyed : Obeyed (items ++ tr.map .event) := hinv.obeyed.append fun x hx => (hnew x hx).2
  have hvoids : ∀ x ∈ tr.map Item.event, ¬x.Voids := fun x hx => (hnew x hx).1
  cases o with
  | error e => exact hobeyed
  | ok result =>
    obtain ⟨rc, s'⟩ := result
    have hopens : 0 ≤ rc → ¬Void (items ++ tr.map .event) := fun hrc =>
      not_shut_of_opens hvoids ⟨tr, s, rc, s', rfl, hrc, hplay⟩
    refine ⟨⟨hobeyed, fun hvoid => ?_⟩, hopens, _, rfl, fun x hx h => hvoids x hx (.inr h)⟩
    rcases refreshAccessToken_spec.of_exec hplay with ⟨rfl, -⟩ | ⟨-, rfl⟩
    · exact absurd hvoid (hopens (le_refl 0))
    · exact hinv.expired (hvoid.before hvoids)

/-- After `oauth_token_check_expire` the token may be used, unless there is an error. -/
theorem oauthTokenCheckExpire_opens (hinv : TokenInv s items) :
    Script.wp connection (fun _ items' => Obeyed items') oauthTokenCheckExpire
      (fun rc s' items' => TokenInv s' items' ∧ (0 ≤ rc → ¬Void items') ∧
        ∃ new, items' = items ++ new ∧ Clear new) s items := by
  rw [oauthTokenCheckExpire, Script.wp_bind, wp_oauthTokenIsExpired]
  rintro now _ ⟨hepoch, rfl⟩
  have hoffline : Call.gettimeofday.Offline := by
    intro request h
    cases h
  obtain ⟨hinv₁, hbefore⟩ := hinv.concat (e := ⟨.gettimeofday, now⟩) hoffline
  have hclear : Clear [Item.event ⟨.gettimeofday, now⟩] := by
    intro x hx
    obtain rfl := List.mem_singleton.mp hx
    exact fun h => Item.not_performs_of_offline hoffline h.performs
  rw [Script.wp_ite]
  refine ⟨fun hfresh => ?_, fun _ => ?_⟩
  · -- a token that has been voided has expired at the epoch, which the clock is past
    refine ⟨hinv₁, fun _ hvoid => ?_, _, rfl, hclear⟩
    rw [hinv.expired (hbefore hvoid), hepoch now rfl] at hfresh
    cases hfresh
  · rw [Script.wp_bind]
    refine Script.wp_mono (refreshAccessToken_opens hinv₁) (fun _ _ h => h) ?_
    rintro rc s' _ ⟨hinv', hopens, new, rfl, hnew⟩
    have hall : Clear ([Item.event ⟨.gettimeofday, now⟩] ++ new) :=
      fun x hx => (List.mem_append.mp hx).elim (hclear x) (hnew x)
    have hadded : ∃ new', items ++ [Item.event ⟨.gettimeofday, now⟩] ++ new = items ++ new' ∧
        Clear new' := ⟨_, List.append_assoc _ _ _, hall⟩
    rw [Script.wp_ite]
    exact ⟨fun hneg => ⟨hinv', fun h => absurd hneg h.not_gt, hadded⟩,
      fun hpos => ⟨hinv', fun _ => hopens (not_lt.mp hpos), hadded⟩⟩

/-- An operation that begins with `oauth_token_check_expire` may use the token after it. -/
theorem Abides.checked {rest : M OneDriveConnect α} (g : ℤ → α) (hrest : Abides True rest failed) :
    Abides False (do
      let rc ← oauthTokenCheckExpire
      if rc < 0 then
        return g rc
      rest) failed := by
  intro s items hinv _
  rw [Script.wp_bind]
  refine Script.wp_mono (oauthTokenCheckExpire_opens hinv) (fun _ _ h => h) ?_
  rintro rc s₁ _ ⟨hinv₁, hopens, new, rfl, hclear⟩
  rw [Script.wp_ite]
  refine ⟨fun _ => ⟨hinv₁, new, rfl, .inl ⟨hclear, False.elim⟩⟩, fun hpos => ?_⟩
  refine Script.wp_mono (hrest s₁ _ hinv₁ fun _ => hopens (not_lt.mp hpos)) (fun _ _ h => h) ?_
  exact fun a s' items' h => (h.prepend hclear).weaken False.elim

/-! ### The functions -/

theorem sprintfUrl_abides (url : Bytes) :
    Abides usable (sprintfUrl url) fun _ _ => False :=
  .ite (.pure _) (.fault _)

theorem moveAndParse_abides (reply : HttpReply) :
    Abides usable (moveAndParse reply) fun _ _ => False :=
  .ite (.fault _) (.pure _)

theorem getBearerToken_abides : Abides usable getBearerToken fun _ _ => False := by
  refine .seq (.seq .get fun _ => .pure _) fun token => ?_
  split
  · exact .fault _
  · exact .pure _

/-- A request may be sent where the token may be used. It is refused only if it carries the
token. -/
private theorem wp_perform {request : HttpRequest}
    {Q : HttpReply → Thread OneDriveConnect → List Item → Prop}
    (hinv : TokenInv s items) (husable : ¬Void items)
    (hQ : ∀ reply, Obeyed (items ++ [.event ⟨.httpClientPerform request, reply⟩]) →
      ((Item.event ⟨.httpClientPerform request, reply⟩).Refused ∨
        ¬(Item.event ⟨.httpClientPerform request, reply⟩).Refused ∧
        ¬Void (items ++ [.event ⟨.httpClientPerform request, reply⟩])) →
      Q reply s (items ++ [.event ⟨.httpClientPerform request, reply⟩])) :
    Script.wp connection (fun _ items' => Obeyed items') (httpClientPerform request) Q s items := by
  rintro reply _ ⟨-, rfl⟩
  refine hQ reply (hinv.obeyed.concat fun _ => husable) ?_
  by_cases hrefused : (Item.event ⟨.httpClientPerform request, reply⟩).Refused
  · exact .inl hrefused
  · refine .inr ⟨hrefused, fun hvoid => husable (hvoid.before fun x hx => ?_)⟩
    obtain rfl := List.mem_singleton.mp hx
    rintro (h | h)
    · cases h
    · exact hrefused h

/-- A request without the token. -/
theorem perform_abides {request : HttpRequest} (hrequest : ¬request.Authorized) :
    Abides True (httpClientPerform request) fun _ _ => False := by
  intro s items hinv husable
  refine wp_perform hinv (husable trivial) fun reply hobeyed hrefused => ?_
  obtain ⟨hclear, hopen⟩ := hrefused.resolve_left
    fun ⟨_, _, heq, hauth, _⟩ => hrequest (by cases heq; exact hauth)
  refine ⟨⟨hobeyed, fun h => absurd h hopen⟩, _, rfl, .inl ⟨fun x hx => ?_, fun _ => hopen⟩⟩
  obtain rfl := List.mem_singleton.mp hx
  exact hclear

/-- An authorised request uses the token, and voids it when it is refused. -/
theorem requestAuthorized_abides (request : HttpRequest) (accepted : List ℕ) :
    Abides True (requestAuthorized request accepted)
      fun r _ => r = .error (hiveGeneralError HIVEERR_TRY_AGAIN) := by
  intro s items hinv husable
  rw [requestAuthorized, Script.wp_bind]
  refine wp_perform hinv (husable trivial) fun reply hobeyed hrefused => ?_
  generalize hx : Item.event ⟨.httpClientPerform request, reply⟩ = x at hobeyed hrefused ⊢
  -- where it was not refused the token may still be used
  have hclear : reply.answer ≠ .ok HttpStatus_Unauthorized →
      ¬x.Refused ∧ ¬Void (items ++ [x]) := by
    refine fun hanswer => hrefused.resolve_left ?_
    rintro ⟨_, _, heq, -, hunauthorized⟩
    rw [← hx] at heq
    cases heq
    exact hanswer hunauthorized
  have hleft : ∀ r : Except ℤ HttpReply, reply.answer ≠ .ok HttpStatus_Unauthorized →
      Left True (r = .error (hiveGeneralError HIVEERR_TRY_AGAIN)) items s (items ++ [x]) := by
    intro r hanswer
    obtain ⟨hnot, hopen⟩ := hclear hanswer
    refine ⟨⟨hobeyed, fun h => absurd h hopen⟩, _, rfl, .inl ⟨fun y hy => ?_, fun _ => hopen⟩⟩
    exact (List.mem_singleton.mp hy) ▸ hnot
  cases hanswer : reply.answer with
  | error e => exact hleft _ (by rw [hanswer]; exact nofun)
  | ok status =>
    rw [Script.wp_ite]
    refine ⟨fun hunauthorized => ?_, fun hother => ?_⟩
    · rw [Script.wp_bind, wp_oauthTokenSetExpired]
      refine ⟨⟨hobeyed, fun _ => rfl⟩, _, rfl, ?_⟩
      rcases hrefused with hrefused | ⟨hnot, hopen⟩
      · refine .inr ⟨⟨[], x, [], rfl, hrefused, nofun, nofun⟩, rfl⟩
      · refine .inl ⟨fun y hy => ?_, fun _ => hopen⟩
        exact (List.mem_singleton.mp hy) ▸ hnot
    · have hne : reply.answer ≠ .ok HttpStatus_Unauthorized := by
        rw [hanswer]
        exact fun h => hother (Except.ok.inj h)
      rw [Script.wp_ite]
      exact ⟨fun _ => hleft _ hne, fun _ => hleft _ hne⟩

/-- The functions that return an `int` or a document hand on the error as an `int`. -/
abbrev FailedInt (rc : ℤ) (_ : Thread OneDriveConnect) : Prop := rc = tryAgain

abbrev FailedExcept {β : Type} (r : Except ℤ β) (_ : Thread OneDriveConnect) : Prop :=
  r = .error tryAgain

/-- The value of a function that returns `ssize_t`, which the error came to as an `int`. -/
abbrev FailedExit (exit : Exit) (_ : Thread OneDriveConnect) : Prop := exit = .ret tryAgain

abbrev FailedBlock (r : Exit × Bytes) (_ : Thread OneDriveConnect) : Prop := r.1 = .ret tryAgain

theorem buildCreateFolderRequestBody_abides (fname : Bytes) :
    Abides usable (buildCreateFolderRequestBody fname) fun _ _ => False :=
  .seq (.ask nofun) fun _ => .ite (.pure _) (.ask nofun)

theorem createFolder_abides (path : Bytes) : Abides True (createFolder path) FailedInt := by
  unfold createFolder
  refine .seq (sprintfUrl_abides _) fun url => ?_
  refine .seq (buildCreateFolderRequestBody_abides _) fun body => ?_
  cases body with
  | none => exact .pure _
  | some body =>
    refine .seq getBearerToken_abides fun token => (requestAuthorized_abides _ _).bind ?_ ?_
    · rintro (e | reply)
      · exact .pure _
      · exact .pure _
    · rintro _ s rfl
      exact .pure rfl

theorem uploadFile_abides (path body : Bytes) : Abides True (uploadFile path body) FailedInt := by
  unfold uploadFile
  refine .seq (sprintfUrl_abides _) fun _ => .seq getBearerToken_abides fun token => ?_
  refine (requestAuthorized_abides _ _).bind ?_ ?_
  · rintro (e | reply)
    · exact .pure _
    · exact .pure _
  · rintro _ s rfl
    exact .pure rfl

theorem createUploadSession_abides (path : Bytes) :
    Abides True (createUploadSession path) FailedExcept := by
  unfold createUploadSession
  refine .seq (sprintfUrl_abides _) fun _ => .seq getBearerToken_abides fun token => ?_
  refine (requestAuthorized_abides _ _).bind ?_ ?_
  · rintro (e | reply)
    · exact .pure _
    refine .seq (moveAndParse_abides _) fun json => ?_
    cases json with
    | none => exact .pure _
    | some json =>
      dsimp only
      split
      · exact .pure _
      · exact .ite (.pure _) (.pure _)
  · rintro _ s rfl
    exact .pure rfl

theorem uploadToSession_abides (url body : Bytes) :
    Abides True (uploadToSession url body) FailedInt := by
  unfold uploadToSession
  refine .seq (perform_abides ?_) fun reply => ?_
  · rintro ⟨token, hmem⟩
    simp [uploadToSessionRequest] at hmem
  · split
    · exact .pure _
    · exact .ite (.pure _) (.pure _)

/-- An upload checks the token before its first request. -/
theorem putFileFromBufferAt_abides (path body : Bytes) :
    Abides False (putFileFromBufferAt path body) FailedInt := by
  unfold putFileFromBufferAt
  refine .checked id (.seq (.ask nofun) fun created => .ite (.pure _) (.ite ?_ ?_))
  · exact uploadFile_abides path body
  · refine (createFolder_abides _).bind (fun rc => .ite (.pure _) ?_) ?_
    · refine (createUploadSession_abides path).bind ?_ ?_
      · rintro (rc | url)
        · exact .pure _
        · refine (uploadToSession_abides url body).bind (fun rc => .ite (.pure _) (.pure _)) ?_
          rintro _ s rfl
          rw [if_pos tryAgain_neg]
          exact .pure rfl
      · rintro _ s rfl
        exact .pure rfl
    · rintro _ s rfl
      rw [if_pos tryAgain_neg]
      exact .pure rfl

theorem getFileInfo_abides (path query : Bytes) :
    Abides True (getFileInfo path query) FailedExcept := by
  unfold getFileInfo
  refine .seq (sprintfUrl_abides _) fun _ => .seq getBearerToken_abides fun token => ?_
  refine (requestAuthorized_abides _ _).bind ?_ ?_
  · rintro (e | reply)
    · exact .pure _
    refine .seq (moveAndParse_abides _) fun json => ?_
    cases json with
    | none => exact .pure _
    | some json => exact .ite (.pure _) (.pure _)
  · rintro _ s rfl
    exact .pure rfl

/-- The query of a length checks the token before its request. -/
theorem getFileLengthAt_abides (path : Bytes) :
    Abides False (getFileLengthAt path) FailedExit := by
  unfold getFileLengthAt
  refine .checked Exit.ret (.seq (.ask nofun) fun created => .ite (.pure _) ?_)
  refine (getFileInfo_abides _ _).bind ?_ ?_
  · rintro (rc | json)
    · exact .pure _
    · dsimp only
      split
      · exact .fault _
      · exact .pure _
  · rintro _ s rfl
    exact .pure rfl

theorem getFileLength_abides (filename : Bytes) :
    Abides False (getFileLength filename) FailedExit := by
  unfold getFileLength
  exact .ite (.pure _) (getFileLengthAt_abides _)

theorem downloadFile_abides (url block : Bytes) :
    Abides True (downloadFile url block) fun _ _ => False := by
  unfold downloadFile
  refine .seq (perform_abides ?_) fun reply => ?_
  · rintro ⟨token, hmem⟩
    exact List.not_mem_nil hmem
  · split
    · exact .fault _
    split
    · exact .pure _
    · exact .ite (.pure _) (.pure _)

/-- A read checks it once for both of its requests. -/
theorem getFileToBufferAt_abides (path block : Bytes) (buflen : ℕ) :
    Abides False (getFileToBufferAt path block buflen) FailedBlock := by
  unfold getFileToBufferAt
  refine .checked (fun rc => (Exit.ret rc, block)) ?_
  refine .seq (.ask nofun) fun created => .ite (.pure _) ?_
  refine (getFileInfo_abides _ _).bind ?_ ?_
  · rintro (rc | json)
    · exact .pure _
    · dsimp only
      split
      · split
        · exact .pure _
        split
        · exact .pure _
        · refine .seq (downloadFile_abides _ _) fun result => ?_
          exact .ite (.pure _) (.pure _)
      · exact .fault _
  · rintro _ s rfl
    exact .pure rfl

theorem getFileToBuffer_abides (filename block : Bytes) (buflen : ℕ) :
    Abides False (getFileToBuffer filename block buflen) FailedBlock := by
  unfold getFileToBuffer
  exact .ite (.pure _) (getFileToBufferAt_abides _ _ _)

theorem deleteFileAt_abides (path : Bytes) : Abides False (deleteFileAt path) FailedInt := by
  unfold deleteFileAt
  refine .checked id (.seq (.ask nofun) fun created => .ite (.pure _) ?_)
  refine .seq (sprintfUrl_abides _) fun _ => .seq getBearerToken_abides fun token => ?_
  refine (requestAuthorized_abides _ _).bind ?_ ?_
  · rintro (e | reply)
    · exact .pure _
    · exact .pure _
  · rintro _ s rfl
    exact .pure rfl

theorem deleteFile_abides (filename : Bytes) : Abides False (deleteFile filename) FailedInt := by
  unfold deleteFile
  exact .ite (.pure _) (deleteFileAt_abides _)

theorem notifyUserFiles_abides (array : List Json) :
    Abides usable (notifyUserFiles array) fun _ _ => False := by
  induction array with
  | nil => exact .seq (.ask nofun) fun _ => .pure _
  | cons item array ih => exact .seq (.ask nofun) fun _ => .ite (.pure _) ih

private theorem cJSON_Delete_abides (page : ℕ) :
    Abides usable (cJSON_Delete page) fun _ _ => False :=
  .ask nofun

/-- What follows a request for a page, once the page before is released: where the request was not
refused the rest obeys the rule, and otherwise it is a failure. -/
private theorem wp_page {previous : Bool} {page : ℕ} {rest : HttpReply → M OneDriveConnect ℤ}
    {request : HttpRequest} (hinv : TokenInv s items) (husable : ¬Void items)
    (hrequest : request.Authorized)
    (hrest : ∀ reply, reply.answer ≠ .ok HttpStatus_Unauthorized →
      Abides True (rest reply) FailedInt)
    (hrefused : ∀ reply, reply.answer = .ok HttpStatus_Unauthorized →
      rest reply s = .ret (tryAgain, s.expired)) :
    Script.wp connection (fun _ items' => Obeyed items')
      (httpClientPerform request >>= fun reply =>
        if previous then cJSON_Delete page >>= fun _ => rest reply else rest reply)
      (fun rc s' items' => Left True (FailedInt rc s') items s' items') s items := by
  rw [Script.wp_bind]
  refine wp_perform hinv husable fun reply hobeyed hcase => ?_
  by_cases hanswer : reply.answer = .ok HttpStatus_Unauthorized
  · have hx : (Item.event ⟨.httpClientPerform request, reply⟩).Refused :=
      ⟨request, reply, rfl, hrequest, hanswer⟩
    generalize Item.event ⟨.httpClientPerform request, reply⟩ = x at hobeyed hx ⊢
    -- the rest ends at once, and releasing the page before does not count
    have hleft : ∀ quiet, (∀ y ∈ quiet, ¬y.Performs) →
        Script.wp connection (fun _ items' => Obeyed items') (rest reply)
          (fun rc s' items' => Left True (FailedInt rc s') items s' items') s
          (items ++ [x] ++ quiet) := by
      intro quiet hquiet
      change (rest reply s).wp _ _ _ _
      rw [hrefused reply hanswer]
      have hobeyed' : Obeyed (items ++ [x] ++ quiet) :=
        hobeyed.append fun y hy h => hquiet y hy h.performs
      exact ⟨⟨hobeyed', fun _ => rfl⟩, x :: quiet, by rw [List.append_assoc]; rfl,
        .inr ⟨⟨[], x, quiet, rfl, hx, nofun, hquiet⟩, rfl⟩⟩
    rw [Script.wp_ite, Script.wp_bind]
    constructor
    · rintro - r _ ⟨-, rfl⟩
      refine hleft [_] fun y hy => ?_
      obtain rfl := List.mem_singleton.mp hy
      exact Item.not_performs_of_offline (by intro request h; cases h)
    · intro _
      have := hleft [] nofun
      rwa [List.append_nil] at this
  · -- not refused: the token stays usable for the rest
    obtain ⟨hclear, hopen⟩ := hcase.resolve_left
      fun ⟨_, _, heq, _, h⟩ => hanswer (by cases heq; exact h)
    have hnext : Abides True
        (if previous then cJSON_Delete page >>= fun _ => rest reply else rest reply) FailedInt :=
      .ite (.seq (cJSON_Delete_abides page) fun _ => hrest reply hanswer)
        (hrest reply hanswer)
    refine Script.wp_mono (hnext s _ ⟨hobeyed, fun h => absurd h hopen⟩ fun _ => hopen)
      (fun _ _ h => h) fun rc s' items' h => h.prepend fun x hx => ?_
    exact (List.mem_singleton.mp hx) ▸ hclear

/-- The pages of a listing share one check, by induction on them. -/
theorem listPages_abides {rounds page : ℕ} {previous : Bool} {url : Bytes} {array : List Json} :
    Abides True (listPages rounds page previous url array) FailedInt := by
  induction rounds generalizing page previous url array with
  | zero => exact fun _ _ _ _ r => r.elim
  | succ rounds ih =>
    unfold listPages
    refine .seq getBearerToken_abides fun token => ?_
    intro s items hinv husable
    refine wp_page hinv (husable trivial) ⟨token, List.mem_singleton_self _⟩ ?_ ?_
    · intro reply hanswer
      split
      · exact .pure _
      rename_i status hstatus
      rw [if_neg fun h : status = HttpStatus_Unauthorized => hanswer (h ▸ hstatus)]
      refine .ite (.pure _) (.seq (moveAndParse_abides reply) fun json => ?_)
      split
      · exact .pure _
      split
      · split
        · exact .seq (cJSON_Delete_abides _) fun _ => .pure _
        split
        · exact .seq (cJSON_Delete_abides _) fun _ => .pure _
        · exact ih
        · refine .seq (cJSON_Delete_abides _) fun _ => ?_
          exact .seq (notifyUserFiles_abides _) fun _ => .pure _
      · exact .seq (cJSON_Delete_abides _) fun _ => .pure _
    · intro reply hanswer
      rw [hanswer]
      rfl

theorem listFiles_abides (rounds : ℕ) : Abides False (listFiles rounds) FailedInt := by
  unfold listFiles
  refine .checked id (.seq (.ask nofun) fun created => .ite (.pure _) ?_)
  refine .seq (sprintfUrl_abides _) fun url => .seq (.ask nofun) fun made => .ite (.pure _) ?_
  exact listPages_abides

/-! ### Keys -/

/-- A refusal is not taken for an absent file. -/
private theorem sizeOrAbsent_tryAgain : sizeOrAbsent (Exit.ret tryAgain).ssize = .error tryAgain :=
  rfl

/-- The end of `put_value` is an upload, if anything. -/
theorem storeContent_abides (path value : Bytes) (size : ℤ) (content : Except ℤ Bytes) :
    Abides False (storeContent path value size content) FailedInt := by
  cases content with
  | error rc => exact .pure _
  | ok buf =>
    simp only [storeContent, storeEntry]
    split
    · exact .fault _
    · exact putFileFromBufferAt_abides _ _

theorem putValue_abides (key value : Bytes) : Abides False (putValue key value) FailedInt := by
  unfold putValue putSized
  refine (getFileLengthAt_abides _).bind (fun exit => ?_) ?_
  · split
    · exact .pure _
    rename_i size _
    have hstore := storeContent_abides (snprintfPath KEYS_DIR key).1 value size
    refine .seq (.ask nofun) fun created => .ite (.pure _) ?_
    refine .ite ?_ (.seq (.pure _) hstore)
    refine (getFileToBufferAt_abides _ _ _).bind (fun result => ?_) ?_
    · exact .ite (.seq (.pure _) hstore) (.ite (.seq (.pure _) hstore) (.seq (.pure _) hstore))
    · rintro ⟨_, block⟩ s rfl
      exact .pure rfl
  · rintro _ s rfl
    rw [sizeOrAbsent_tryAgain]
    exact .pure rfl

theorem setValue_abides (key value : Bytes) : Abides False (setValue key value) FailedInt := by
  unfold setValue
  exact .seq (.ask nofun) fun created => .ite (.pure _) (putFileFromBufferAt_abides _ _)

theorem getValuesLoop_abides (key kv : Bytes) (dataLen : ℤ) :
    Abides usable (getValuesLoop key kv dataLen) FailedInt := by
  induction hn : kv.length using Nat.strong_induction_on generalizing kv dataLen with
  | _ n ih =>
    unfold getValuesLoop
    split
    · exact .fault _
    dsimp only
    split
    · exact .pure _
    split
    · exact .pure _
    split
    · exact .fault _
    · refine .seq (.ask nofun) fun proceed => .ite (.pure _) (ih _ ?_ _ _ rfl)
      rw [List.length_drop]
      simp only [kvHeaderSize] at *
      omega

theorem getValues_abides (key : Bytes) : Abides False (getValues key) FailedInt := by
  unfold getValues
  refine (getFileLengthAt_abides _).bind (fun exit => ?_) ?_
  · split
    · exact .pure _
    refine .ite (.pure _) (.ite (.pure _) (.seq (.ask nofun) fun created => .ite (.pure _) ?_))
    refine (getFileToBufferAt_abides _ _ _).bind (fun result => ?_) ?_
    · refine .ite (.pure _) (.ite (.pure _) ?_)
      exact getValuesLoop_abides _ _ _
    · rintro ⟨_, block⟩ s rfl
      exact .pure rfl
  · rintro _ s rfl
    rw [sizeOrAbsent_tryAgain]
    exact .pure rfl

theorem deleteKey_abides (key : Bytes) : Abides False (deleteKey key) FailedInt := by
  unfold deleteKey
  refine (deleteFileAt_abides _).bind (fun rc => .ite (.pure _) (.pure _)) ?_
  rintro _ s rfl
  rw [if_pos (by decide)]
  exact .pure rfl

/-! ### The public functions -/

/-- A public function reports the refusal. -/
abbrev FailedCall (v : ℤ) (s : Thread OneDriveConnect) : Prop := v = -1 ∧ s.hiveError = tryAgain

abbrev FailedBuffer (r : ℤ × Bytes) (s : Thread OneDriveConnect) : Prop := FailedCall r.1 s

theorem failWith_abides (e : ℤ) {failed : ℤ → Thread OneDriveConnect → Prop} :
    Abides usable (failWith e) failed :=
  .seq (.modify fun _ => rfl) fun _ => .pure _

/-- Reporting a result keeps to the protocol. -/
theorem reportInt_abides {m : M OneDriveConnect ℤ} (hm : Abides usable m FailedInt) :
    Abides usable (m >>= reportInt) FailedCall := by
  refine hm.bind (fun rc => .ite (failWith_abides _) (.pure _)) ?_
  rintro _ s rfl
  exact ⟨-1, { s with hiveError := tryAgain }, rfl, rfl, rfl, rfl⟩

theorem reportSize_abides {m : M OneDriveConnect Exit} (hm : Abides usable m FailedExit) :
    Abides usable (m >>= fun exit => reportSize exit.ssize) FailedCall := by
  refine hm.bind (fun exit => .ite (failWith_abides _) (.pure _)) ?_
  rintro _ s rfl
  exact ⟨-1, { s with hiveError := tryAgain }, rfl, rfl, rfl, rfl⟩

/-- The public functions do as the methods. -/
theorem hivePutFileFromBuffer_abides (src : Option Bytes) (length : ℕ) (filename : Option Bytes) :
    Abides False (hivePutFileFromBuffer (some oneDriveMethods) src length filename) FailedCall := by
  unfold hivePutFileFromBuffer
  split
  · rename_i connect _ hconnect _
    obtain rfl := Option.some.inj hconnect
    exact .ite (failWith_abides _) (reportInt_abides (putFileFromBufferAt_abides _ _))
  · exact failWith_abides _

theorem readLocalFile_abides (path : Bytes) :
    Abides usable (readLocalFile path) fun _ _ => False := by
  have failing : ∀ e, Abides usable (do hiveSetError e; return (none : Option Bytes))
      (fun _ _ => False) := fun e => .seq (.modify fun _ => rfl) fun _ => .pure _
  unfold readLocalFile
  refine .seq (.ask nofun) fun opened => ?_
  split
  · exact failing _
  refine .seq (.ask nofun) fun size => .ite (failing _) (.seq (.ask nofun) fun created => ?_)
  refine .ite (failing _) (.seq (.ask nofun) fun content => ?_)
  split
  · exact .seq (.ask nofun) fun e => failing _
  · exact .ite (.seq (.ask nofun) fun e => failing _) (.pure _)

theorem hivePutFile_abides (src filename : Option Bytes) :
    Abides False (hivePutFile (some oneDriveMethods) src filename) FailedCall := by
  unfold hivePutFile
  split
  · rename_i connect _ _ hconnect _ _
    obtain rfl := Option.some.inj hconnect
    refine .seq (readLocalFile_abides _) fun content => ?_
    cases content with
    | none => exact .pure _
    | some content => exact hivePutFileFromBuffer_abides _ _ _
  · exact failWith_abides _

theorem hiveGetFileLength_abides (filename : Option Bytes) :
    Abides False (hiveGetFileLength (some oneDriveMethods) filename) FailedCall := by
  unfold hiveGetFileLength
  split
  · rename_i connect _ hconnect _
    obtain rfl := Option.some.inj hconnect
    exact reportSize_abides (getFileLength_abides _)
  · exact failWith_abides _

theorem hiveGetFileToBuffer_abides (filename dst : Option Bytes) (buflen : ℕ) :
    Abides False (hiveGetFileToBuffer (some oneDriveMethods) filename dst buflen) FailedBuffer := by
  unfold hiveGetFileToBuffer
  split
  · rename_i connect _ _ hconnect _
    obtain rfl := Option.some.inj hconnect
    refine .ite (.seq (failWith_abides _) fun _ => .pure _) ?_
    refine (getFileToBuffer_abides _ _ _).bind ?_ ?_
    · rintro ⟨exit, block⟩
      exact .seq (.ite (failWith_abides _) (.pure _)) fun _ => .pure _
    · rintro ⟨_, block⟩ s rfl
      exact ⟨(-1, block), { s with hiveError := tryAgain }, rfl, rfl, rfl, rfl⟩
  · exact .seq (failWith_abides _) fun _ => .pure _

theorem writeBlock_abides (path block : Bytes) (count : ℕ) :
    Abides usable (writeBlock path block count) fun _ _ => False :=
  .ite (.fault _) (.ask nofun)

/-- A new file obeys the rule if its download does, and what is done after an incomplete write. -/
theorem createFile_abides {toBuffer : Bytes → ℕ → M OneDriveConnect (ℤ × Bytes)}
    {undo : M OneDriveConnect ℤ} (path : Bytes) (fsize : ℤ)
    (hbuffer : ∀ block buflen, Abides False (toBuffer block buflen) FailedBuffer)
    (hundo : Abides False undo FailedCall) :
    Abides False (createFile path fsize toBuffer undo) FailedCall := by
  unfold createFile
  refine .ite (.pure _) (.seq (.ask nofun) fun opened => ?_)
  split
  · exact failWith_abides _
  refine .ite (.pure _) (.seq (.ask nofun) fun created => .ite (failWith_abides _) ?_)
  refine (hbuffer _ _).bind (fun result => .ite (.pure _) ?_) ?_
  · refine .seq (writeBlock_abides _ _ _) fun written => ?_
    split
    · exact .ite hundo (.pure _)
    · exact hundo
  · rintro ⟨_, block⟩ s ⟨rfl, herror⟩
    exact .pure ⟨rfl, herror⟩

theorem hiveGetFile_abides (filename dst : Option Bytes) :
    Abides False (hiveGetFile (some oneDriveMethods) filename dst) FailedCall := by
  unfold hiveGetFile
  split
  · rename_i connect _ _ hconnect _ _
    obtain rfl := Option.some.inj hconnect
    refine (hiveGetFileLength_abides _).bind (fun fsize => createFile_abides _ _
      (fun block buflen => hiveGetFileToBuffer_abides _ _ _) ?_) ?_
    · exact .seq (.ask nofun) fun _ => .seq (.ask nofun) fun _ => failWith_abides _
    · rintro _ s ⟨rfl, herror⟩
      exact .pure ⟨rfl, herror⟩
  · exact failWith_abides _

theorem hiveDeleteFile_abides (filename : Option Bytes) :
    Abides False (hiveDeleteFile (some oneDriveMethods) filename) FailedCall := by
  unfold hiveDeleteFile
  split
  · rename_i connect _ hconnect _
    obtain rfl := Option.some.inj hconnect
    exact reportInt_abides (deleteFile_abides _)
  · exact failWith_abides _

theorem hiveListFiles_abides (callback : Bool) (rounds : ℕ) :
    Abides False (hiveListFiles (some oneDriveMethods) callback rounds) FailedCall := by
  unfold hiveListFiles
  split
  · rename_i connect hconnect
    obtain rfl := Option.some.inj hconnect
    exact reportInt_abides (listFiles_abides _)
  · exact failWith_abides _

theorem hivePutValue_abides (key value : Option Bytes) (length : ℕ) :
    Abides False (hivePutValue (some oneDriveMethods) key value length) FailedCall := by
  unfold hivePutValue
  split
  · exact failWith_abides _
  · rename_i connect _ _ hargs
    obtain rfl := Option.some.inj (valueArgs_eq_some hargs)
    exact reportInt_abides (putValue_abides _ _)

theorem hiveSetValue_abides (key value : Option Bytes) (length : ℕ) :
    Abides False (hiveSetValue (some oneDriveMethods) key value length) FailedCall := by
  unfold hiveSetValue
  split
  · exact failWith_abides _
  · rename_i connect _ _ hargs
    obtain rfl := Option.some.inj (valueArgs_eq_some hargs)
    exact reportInt_abides (setValue_abides _ _)

theorem hiveGetValues_abides (key : Option Bytes) (callback : Bool) :
    Abides False (hiveGetValues (some oneDriveMethods) key callback) FailedCall := by
  unfold hiveGetValues
  split
  · rename_i connect _ hconnect _
    obtain rfl := Option.some.inj hconnect
    exact reportInt_abides (getValues_abides _)
  · exact failWith_abides _

theorem hiveDeleteKey_abides (key : Option Bytes) :
    Abides False (hiveDeleteKey (some oneDriveMethods) key) FailedCall := by
  unfold hiveDeleteKey
  split
  · rename_i connect _ hconnect _
    obtain rfl := Option.some.inj hconnect
    exact reportInt_abides (deleteKey_abides _)
  · exact failWith_abides _

/-- A OneDrive connection has none of the methods for IPFS. -/
theorem hiveIpfsPutFileFromBuffer_abides (src : Option Bytes) (length : ℕ) (cid : Option Bytes) :
    Abides False (hiveIpfsPutFileFromBuffer (some oneDriveMethods) src length cid)
      fun _ _ => False := by
  unfold hiveIpfsPutFileFromBuffer
  split
  · rename_i connect _ hconnect
    obtain rfl := Option.some.inj hconnect
    refine .ite ?_ ?_
    · exact .seq (failWith_abides _) fun _ => .pure _
    · exact .seq (failWith_abides _) fun _ => .pure _
  · exact .seq (failWith_abides _) fun _ => .pure _

theorem hiveIpfsPutFile_abides (src cid : Option Bytes) :
    Abides False (hiveIpfsPutFile (some oneDriveMethods) src cid) fun _ _ => False := by
  unfold hiveIpfsPutFile
  split
  · rename_i connect _ _ hconnect _
    obtain rfl := Option.some.inj hconnect
    refine .seq (readLocalFile_abides _) fun content => ?_
    cases content with
    | none => exact .pure _
    | some content => exact hiveIpfsPutFileFromBuffer_abides _ _ _
  · exact .seq (failWith_abides _) fun _ => .pure _

theorem hiveIpfsGetFileLength_abides (cid : Option Bytes)
    {failed : ℤ → Thread OneDriveConnect → Prop} :
    Abides False (hiveIpfsGetFileLength (some oneDriveMethods) cid) failed := by
  unfold hiveIpfsGetFileLength
  split
  · rename_i connect _ hconnect _
    obtain rfl := Option.some.inj hconnect
    exact failWith_abides _
  · exact failWith_abides _

theorem hiveIpfsGetFileToBuffer_abides (cid dst : Option Bytes) (buflen : ℕ) :
    Abides False (hiveIpfsGetFileToBuffer (some oneDriveMethods) cid dst buflen)
      fun _ _ => False := by
  unfold hiveIpfsGetFileToBuffer
  split
  · rename_i connect _ _ hconnect _
    obtain rfl := Option.some.inj hconnect
    refine .ite ?_ ?_
    · exact .seq (failWith_abides _) fun _ => .pure _
    · exact .seq (failWith_abides _) fun _ => .pure _
  · exact .seq (failWith_abides _) fun _ => .pure _

theorem hiveIpfsGetFile_abides (cid dst : Option Bytes) :
    Abides False (hiveIpfsGetFile (some oneDriveMethods) cid dst) FailedCall := by
  unfold hiveIpfsGetFile
  split
  · rename_i connect _ _ hconnect _ _
    obtain rfl := Option.some.inj hconnect
    refine .seq (hiveIpfsGetFileLength_abides _) fun fsize => createFile_abides _ _
      (fun block buflen => .fault _) ?_
    exact .seq (.ask nofun) fun _ => .seq (.ask nofun) fun _ => failWith_abides _
  · exact failWith_abides _

/-- Every public function obeys the rule. -/
theorem call_abides (op : HiveOperation) :
    Abides False (op.call (some oneDriveMethods)) FailedCall := by
  cases op with
  | putFileFromBuffer src length filename => exact hivePutFileFromBuffer_abides src length filename
  | putFile src filename => exact hivePutFile_abides src filename
  | getFileLength filename => exact hiveGetFileLength_abides filename
  | getFileToBuffer filename dst buflen =>
    refine (hiveGetFileToBuffer_abides filename dst buflen).bind (fun _ => .pure _) ?_
    rintro ⟨_, block⟩ s hfailed
    exact .pure hfailed
  | getFile filename dst => exact hiveGetFile_abides filename dst
  | deleteFile filename => exact hiveDeleteFile_abides filename
  | listFiles callback rounds => exact hiveListFiles_abides callback rounds
  | putValue key value length => exact hivePutValue_abides key value length
  | setValue key value length => exact hiveSetValue_abides key value length
  | getValues key callback => exact hiveGetValues_abides key callback
  | deleteKey key => exact hiveDeleteKey_abides key
  | setAccessTokenExpired =>
    intro s items hinv _
    refine ⟨⟨hinv.obeyed, fun _ => rfl⟩, [], (List.append_nil items).symm, .inl ⟨?_, False.elim⟩⟩
    intro x hx
    cases hx
  | ipfsPutFileFromBuffer src length cid =>
    exact .seq (hiveIpfsPutFileFromBuffer_abides src length cid) fun _ => .pure _
  | ipfsPutFile src cid => exact .seq (hiveIpfsPutFile_abides src cid) fun _ => .pure _
  | ipfsGetFileLength cid => exact hiveIpfsGetFileLength_abides cid
  | ipfsGetFileToBuffer cid dst buflen =>
    exact .seq (hiveIpfsGetFileToBuffer_abides cid dst buflen) fun _ => .pure _
  | ipfsGetFile cid dst => exact hiveIpfsGetFile_abides cid dst

end Functions

/-! ### Connections -/

/-- What has happened on a connection since it was handed over: operations, the user's word that the
token has expired, and in between whatever else the thread does, which may change its error. -/
inductive Connected (s₀ : Thread OneDriveConnect) : List Item → Thread OneDriveConnect → Prop
  | start : Connected s₀ [] s₀
  | call {items items' : List Item} {s s' : Thread OneDriveConnect} {op : HiveOperation} {v : ℤ}
      (h : Connected s₀ items s) (hop : op ≠ .setAccessTokenExpired)
      (hex : Program.Exec connection (op.call (some oneDriveMethods) s) items (.ok (v, s'))
        items') : Connected s₀ items' s'
  | expire {items items' : List Item} {s s' : Thread OneDriveConnect} {v : ℤ}
      (h : Connected s₀ items s)
      (hex : Program.Exec connection
        (HiveOperation.setAccessTokenExpired.call (some oneDriveMethods) s) items (.ok (v, s'))
        items') : Connected s₀ (items' ++ [.expire]) s'
  | elsewhere {items : List Item} {s : Thread OneDriveConnect} (h : Connected s₀ items s) (e : ℤ) :
      Connected s₀ items { s with hiveError := e }

section Connections

variable {s₀ s s' : Thread OneDriveConnect} {items items' : List Item} {op : HiveOperation} {v : ℤ}

/-- Nothing is known of the token of a new connection. -/
private theorem tokenInv_start (s : Thread OneDriveConnect) : TokenInv s [] :=
  ⟨guarded_nil, fun h => absurd h not_shut_nil⟩

theorem Connected.inv (hrun : Connected s₀ items s) : TokenInv s items := by
  induction hrun with
  | start => exact tokenInv_start s₀
  | call _ _ hex ih => exact (Script.wp.of_exec (call_abides _ _ _ ih False.elim) hex).inv
  | expire _ hex ih =>
    have hinv := (Script.wp.of_exec (call_abides _ _ _ ih False.elim) hex).inv
    refine ⟨hinv.obeyed.concat fun h => ?_, fun _ => ?_⟩
    · obtain ⟨_, _, hx, -⟩ := h
      cases hx
    · cases hex
      rfl
  | elsewhere _ e ih => exact ⟨ih.obeyed, ih.expired⟩

/-- After a request with the token has been answered 401, or the user has marked the token expired,
no request is sent on the connection, but for new tokens, before `refresh_access_token` has
succeeded: not by the operations that follow, and not by one that is cut short by a fault. -/
theorem requests_after_renewal {o : Except Fault (ℤ × Thread OneDriveConnect)}
    (hrun : Connected s₀ items s)
    (hex : Program.Exec connection (op.call (some oneDriveMethods) s) items o items')
    {before mid after : List Item} {x y : Item}
    (heq : items' = before ++ x :: (mid ++ y :: after)) (hx : x.Voids) (hy : y.Sends) :
    ∃ seg, seg <:+: mid ∧ Renewal seg := by
  have hobeyed : Obeyed items' := by
    have hends := Script.wp_iff_forall_exec.mp (call_abides op s items hrun.inv False.elim) o items'
      hex
    cases o with
    | error e => exact hends
    | ok result => exact hends.inv.obeyed
  exact guarded_iff.mp hobeyed before x mid y after heq hx hy

/-- A reply without a body that refuses the token. -/
def refusal : HttpReply where
  performed := 0
  info := 0
  status := 401
  chunks := []
  parsed := none

/-- A service that grants new tokens, and refuses every request with a token. -/
def refusing (_ : Unit) : (i : Call) → Option (i.Reply × Unit)
  | .gettimeofday => some (⟨5, 0⟩, ())
  | .malloc _ => some (true, ())
  | .httpClientNew _ => some (true, ())
  | .httpClientEscape _ => some (some [], ())
  | .httpClientPerform request =>
    some (if request.headers = [] then grantReply (ascii "b") else refusal, ())
  | .cJSON_CreateObject => some (true, ())
  | .cJSON_Print _ => some (none, ())
  | _ => none

/-- A file is looked up on that service. -/
def lookUp : HiveOperation := .getFileLength (some (ascii "f"))

/-- The refresh that comes before the request for the file. -/
def renewed : List CallEvent := [
  ⟨.gettimeofday, (⟨5, 0⟩ : Timeval)⟩,
  ⟨.httpClientNew .refreshAccessToken, true⟩,
  ⟨.httpClientEscape (ascii "client"), some []⟩,
  ⟨.httpClientEscape (ascii "http://localhost:12345"), some []⟩,
  ⟨.httpClientEscape (ascii "r"), some []⟩,
  ⟨.httpClientPerform { method := .post, url := TOKEN_URL, body := refreshBody [] [] [] },
    grantReply (ascii "b")⟩,
  ⟨.malloc 2, true⟩, ⟨.malloc 2, true⟩, ⟨.malloc 2, true⟩,
  ⟨.gettimeofday, (⟨5, 0⟩ : Timeval)⟩,
  ⟨.cJSON_CreateObject, true⟩,
  ⟨.cJSON_Print (keystoreTokens (ascii "client") (ascii "t") (ascii "b") (ascii "r") 3605), none⟩,
  ⟨.httpClientNew .getFileLength, true⟩]

/-- The request that is refused, with the new token. -/
def refusedRequest : CallEvent :=
  ⟨.httpClientPerform (fileInfoRequest (ascii "b") (ascii "/Files/f") sizeQuery), refusal⟩

private theorem lookUp_exec (past : List Item) : ∃ s', Program.Exec connection
    (lookUp.call (some oneDriveMethods) tokenHolder) past (.ok (-1, s'))
    (past ++ (renewed ++ [refusedRequest]).map .event) := by
  have hrun : ∃ s', (lookUp.call (some oneDriveMethods) tokenHolder).runWith refusing () =
      some (.ok (-1, s'), renewed ++ [refusedRequest]) := ⟨_, rfl⟩
  obtain ⟨s', hrun⟩ := hrun
  refine ⟨s', (Program.exec_of_runWith hrun).recordAs ?_ past⟩
  -- the only readings of the clock are five seconds past the epoch
  rintro e he now rfl
  simp only [renewed, refusedRequest, List.cons_append, List.nil_append, List.mem_cons,
    Sigma.mk.injEq, reduceCtorEq, false_and, heq_eq_eq, true_and, List.not_mem_nil, or_false,
    false_or, or_self] at he
  subst he
  rfl

private theorem refusedRequest_refused : (Item.event refusedRequest).Refused :=
  ⟨_, refusal, rfl, ⟨ascii "b", List.mem_singleton_self _⟩, rfl⟩

theorem requests_after_renewal_marked : ∃ seg, seg <:+: renewed.map .event ∧ Renewal seg := by
  -- the token is marked expired, and then a file is looked up
  have hmarked : Connected tokenHolder [.expire] tokenHolder.expired :=
    .expire .start (.ret (0, tokenHolder.expired) [])
  obtain ⟨s', hex⟩ := lookUp_exec [.expire]
  have heq : [.expire] ++ (renewed ++ [refusedRequest]).map .event =
      [] ++ Item.expire :: (renewed.map .event ++ .event refusedRequest :: []) := by
    rw [List.map_append]
    rfl
  refine requests_after_renewal hmarked hex heq (.inl rfl) ⟨_, _, rfl, ?_⟩
  rintro ⟨hmethod, -⟩
  cases hmethod

/-- The operation that is refused fails, and it tells the user to try again; it sends nothing after
the request that was refused, not even one for new tokens. -/
theorem refused_operation_ends
    (hex : Program.Exec connection (op.call (some oneDriveMethods) s) [] (.ok (v, s')) items)
    {before after : List Item} {x : Item} (heq : items = before ++ x :: after) (hx : x.Refused) :
    v = -1 ∧ s'.hiveError = tryAgain ∧ ∀ y ∈ after, ¬y.Performs := by
  obtain ⟨-, new, hnew, hends⟩ :=
    Script.wp.of_exec (call_abides op s [] (tokenInv_start s) False.elim) hex
  rw [List.nil_append] at hnew
  subst hnew
  rcases hends with ⟨hclear, -⟩ | ⟨⟨before', x', after', heq', hx', hbefore', hafter'⟩, hv, herror⟩
  · exact absurd hx (hclear x (heq ▸ List.mem_append_right before List.mem_cons_self))
  · refine ⟨hv, herror, ?_⟩
    rcases List.append_eq_append_iff.mp (heq'.symm.trans heq) with
      ⟨mid, rfl, hmid⟩ | ⟨mid, rfl, hmid⟩
    · -- the request refused first is the only one
      cases mid with
      | nil =>
        obtain ⟨-, rfl⟩ := List.cons.inj hmid
        exact hafter'
      | cons c mid =>
        obtain ⟨rfl, rfl⟩ := List.cons.inj hmid
        exact absurd hx.performs (hafter' x (List.mem_append_right mid List.mem_cons_self))
    · cases mid with
      | nil =>
        obtain ⟨-, rfl⟩ := List.cons.inj hmid
        exact hafter'
      | cons c mid =>
        obtain ⟨rfl, rfl⟩ := List.cons.inj hmid
        exact absurd hx (hbefore' _ (List.mem_append_right before List.mem_cons_self))

theorem refused_operation_ends_lookUp : ∃ s' items, Program.Exec connection
    (lookUp.call (some oneDriveMethods) tokenHolder) [] (.ok (-1, s')) items ∧
    s'.hiveError = tryAgain := by
  obtain ⟨s', hex⟩ := lookUp_exec []
  have heq : [] ++ (renewed ++ [refusedRequest]).map Item.event =
      renewed.map Item.event ++ .event refusedRequest :: [] := by
    rw [List.nil_append, List.map_append]
    rfl
  exact ⟨s', _, hex, (refused_operation_ends hex heq refusedRequest_refused).2.1⟩

end Connections

end OneDrive

end HiveSDK
