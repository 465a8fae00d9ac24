import HiveSDK.Interaction.Lockstep
import HiveSDK.Model.Client
import HiveSDK.OneDrive.Requests

/-!
# What the thread's error has no influence on

The functions of the backends neither read nor write `hive_error`: they return their errors, and
the public functions record them. `Oblivious V m` states the half of this that matters: `m` does
the same whatever the error is, and the value it returns satisfies `V`. It is checked along the
text of a function.

`V` is needed where a value goes through one more conversion before it is recorded. An error that
was an `int` once stays negative in any of them (`Narrow`), and what is returned as a `ssize_t` is
such an error or not negative.
-/

namespace HiveSDK

open Interaction C

variable {C α β : Type}

/-- Started with one connection and two errors, `m` asks the same, ends alike and leaves the same
connection; a value it returns satisfies `V`. -/
def Oblivious (V : α → Prop) (m : M C α) : Prop :=
  ∀ c e₁ e₂ past, Program.Lockstep
    (fun x y _ => x.1 = y.1 ∧ x.2.conn = y.2.conn ∧ V x.1) (m ⟨c, e₁⟩) (m ⟨c, e₂⟩) past

/-- Whatever is returned. -/
abbrev anyValue : α → Prop := fun _ => True

namespace Oblivious

variable {U V W : α → Prop} {T : β → Prop} {m n : M C α} {f : α → M C β}

/-- A weaker condition on the value may take the place of the condition. -/
theorem mono (hm : Oblivious U m) (hV : ∀ a, U a → V a) : Oblivious V m :=
  fun c e₁ e₂ past => (hm c e₁ e₂ past).mono fun _ _ _ h => ⟨h.1, h.2.1, hV _ h.2.2⟩

/-- A program that returns at once does the same whatever the error was. -/
theorem pure {a : α} (ha : V a) : Oblivious V (pure a : M C α) :=
  fun _ _ _ _ => .ret ⟨rfl, rfl, ha⟩

/-- A crash does not depend on the error either. -/
theorem fault (e : Fault) : Oblivious V (crash e : M C α) := fun _ _ _ past => .fault e past

/-- Programs that ignore the error are composed, the second one under the condition of the first. -/
theorem bind (hm : Oblivious V m) (hf : ∀ a, V a → Oblivious T (f a)) :
    Oblivious T (m >>= f) := by
  intro c e₁ e₂ past
  refine Script.lockstep_bind (hm c e₁ e₂ past) ?_
  rintro a _ ⟨c', e₁'⟩ ⟨_, e₂'⟩ past' ⟨rfl, rfl, hV⟩
  exact hf a hV c' e₁' e₂' past'

/-- Reading the connection is allowed, reading the error is not. -/
theorem get_bind {g : Thread C → M C β} (hsame : ∀ c e₁ e₂, g ⟨c, e₁⟩ = g ⟨c, e₂⟩)
    (hg : ∀ s, Oblivious T (g s)) : Oblivious T (get >>= g) := by
  intro c e₁ e₂ past
  have hstart := hg ⟨c, e₁⟩ c e₁ e₂ past
  have hsecond : (get >>= g : M C β) ⟨c, e₂⟩ = g ⟨c, e₁⟩ ⟨c, e₂⟩ := by
    rw [hsame c e₁ e₂]
    rfl
  rw [hsecond]
  exact hstart

/-- A change of the state ignores the error when it leaves the error out of the connection. -/
theorem modify {g : Thread C → Thread C} (hsame : ∀ c e₁ e₂, (g ⟨c, e₁⟩).conn = (g ⟨c, e₂⟩).conn) :
    Oblivious anyValue (modify g : M C Unit) :=
  fun c e₁ e₂ _ => .ret ⟨rfl, hsame c e₁ e₂, trivial⟩

/-- A branch whose condition does not speak of the error. -/
theorem ite {b : Prop} [Decidable b] (hm : b → Oblivious V m) (hn : ¬b → Oblivious V n) :
    Oblivious V (if b then m else n) := by
  split
  · rename_i h
    exact hm h
  · rename_i h
    exact hn h

end Oblivious

/-- A call of the environment, whose reply the error does not change. -/
theorem ask_oblivious (call : Call) : Oblivious anyValue (ask call : M C call.Reply) :=
  fun _ _ _ _ => .ask fun _ => .ret ⟨rfl, rfl, trivial⟩

/-- The rest of a script after a question. -/
theorem ask_bind_oblivious {call : Call} {T : β → Prop} {f : call.Reply → M C β}
    (hf : ∀ r, Oblivious T (f r)) : Oblivious T (ask call >>= f) :=
  .bind (ask_oblivious call) fun r _ => hf r

/-- A wait that does not end. -/
theorem block_oblivious {V : α → Prop} : Oblivious V (block : M C α) :=
  ask_bind_oblivious fun e => e.elim

/-- Taking the body of a reply and parsing it. -/
theorem moveAndParse_oblivious (reply : HttpReply) :
    Oblivious anyValue (moveAndParse reply : M C _) :=
  .ite (fun _ => .fault _) fun _ => .pure trivial

/-- Printing a URL into its buffer. -/
theorem sprintfUrl_oblivious (url : Bytes) : Oblivious anyValue (sprintfUrl url : M C _) :=
  .ite (fun _ => .pure trivial) fun _ => .fault _

/-! ### Errors that were an `int` -/

/-- A negative value stays negative in a conversion to `int`. -/
def Narrow (rc : ℤ) : Prop := rc < 0 → toInt rc < 0

/-- What has been narrowed to `int` is a narrow value. -/
private theorem narrow_toInt (x : ℤ) : Narrow (toInt x) := fun h => by rwa [toInt_toInt]

/-- A narrowed value that is returned beside another one. -/
private theorem narrow_pair (x : ℤ) (b : β) :
    Oblivious (fun r => Narrow r.1) (pure (toInt x, b) : M C (ℤ × β)) :=
  .pure (narrow_toInt x)

/-- A length is a narrow value: the condition is on the negative ones only. -/
private theorem narrow_of_nonneg {rc : ℤ} (h : 0 ≤ rc) : Narrow rc :=
  fun hneg => absurd h (not_le.mpr hneg)

/-- What an exit of a function returning `ssize_t` gives its caller. -/
abbrev NarrowExit (exit : Exit) : Prop := Narrow exit.ssize

/-- An error number as a return value is not negative as `ssize_t`. -/
private theorem narrowExit_err (e : ℤ) (he : 0 ≤ e) : NarrowExit (.err e) := narrow_of_nonneg he

/-- An error number put together from its parts is an unsigned one. -/
private theorem hiveMkError_nonneg (facility : ℕ) (code : ℤ) : 0 ≤ hiveMkError facility code :=
  le_trans (by norm_num) (le_hiveMkError facility code)

/-! ### Tokens -/

theorem getToken_oblivious : Oblivious anyValue getToken :=
  .get_bind (fun _ _ _ => rfl) fun _ => .pure trivial

theorem modifyToken_oblivious (f : OAuthToken → OAuthToken) :
    Oblivious anyValue (modifyToken f) :=
  .modify fun _ _ _ => rfl

theorem oauthWriteback_oblivious (json : Json) : Oblivious anyValue (oauthWriteback json) := by
  unfold oauthWriteback
  refine ask_bind_oblivious fun text => ?_
  match text with
  | none => exact .pure trivial
  | some [] => exact .pure trivial
  | some (_ :: _) =>
    refine .get_bind (fun _ _ _ => rfl) fun s => ask_bind_oblivious fun opened => ?_
    match opened with
    | .error _ => exact .pure trivial
    | .ok _ =>
      refine ask_bind_oblivious fun bytes => ?_
      exact .ite (fun _ => ask_bind_oblivious fun _ => .pure trivial) fun _ => .pure trivial

/-- The tokens go to the keystore whatever the error was. -/
theorem writebackTokens_oblivious : Oblivious anyValue writebackTokens := by
  unfold writebackTokens
  refine .bind getToken_oblivious fun token _ => ask_bind_oblivious fun created => ?_
  refine .ite (fun _ => .pure trivial) fun _ => ?_
  split
  · exact .bind (oauthWriteback_oblivious _) fun _ _ => .pure trivial
  · exact .bind (oauthWriteback_oblivious _) fun _ _ => .pure trivial
  · exact .fault _

/-- The reply is decoded in the same way, and the result is an `int`. -/
theorem decodeAccessToken_oblivious (json : Option Json) :
    Oblivious Narrow (decodeAccessToken json) := by
  have failed {size : ℕ} {rest : M OneDriveConnect ℤ} (hrest : Oblivious Narrow rest) :
      Oblivious Narrow (do
        if !(← malloc size) then
          return toInt (hiveSysError (← errno))
        rest) :=
    ask_bind_oblivious fun _ =>
      .ite (fun _ => ask_bind_oblivious fun _ => .pure (narrow_toInt _)) fun _ => hrest
  have bad : Oblivious Narrow
      (pure (toInt (hiveGeneralError HIVEERR_BAD_JSON_FORMAT)) : M OneDriveConnect ℤ) :=
    .pure (narrow_toInt _)
  unfold decodeAccessToken
  split
  · exact bad
  split
  · exact bad
  refine failed ?_
  split
  · exact bad
  split
  · exact bad
  refine failed ?_
  split
  · exact bad
  refine failed ?_
  split
  · exact bad
  refine .ite (fun _ => bad) fun _ => ask_bind_oblivious fun now => ?_
  exact .bind (modifyToken_oblivious _) fun _ _ => .pure (narrow_of_nonneg le_rfl)

/-- Escaping the fields of a form. -/
theorem escapeFields_oblivious (clientId redirectUrl : Bytes) (third : Option Bytes) :
    Oblivious anyValue (escapeFields clientId redirectUrl third) := by
  have escape {β : Type} (data : Bytes) {f : Bytes → M OneDriveConnect (Option β)}
      (hf : ∀ b, Oblivious anyValue (f b)) : Oblivious anyValue (withEscaped data f) := by
    refine ask_bind_oblivious fun escaped => ?_
    cases escaped with
    | none => exact .pure trivial
    | some b => exact hf b
  unfold escapeFields
  refine escape _ fun _ => escape _ fun _ => ?_
  split
  · exact .fault _
  · exact escape _ fun _ => .pure trivial

/-- Redeeming a code for tokens. -/
theorem redeemAccessToken_oblivious (code : Bytes) :
    Oblivious anyValue (redeemAccessToken code) := by
  unfold redeemAccessToken
  refine .bind getToken_oblivious fun token _ => ask_bind_oblivious fun created => ?_
  refine .ite (fun _ => .pure trivial) fun _ =>
    .bind (escapeFields_oblivious _ _ _) fun fields _ => ?_
  match fields with
  | none => exact .pure trivial
  | some (_, _, _) =>
    refine .ite (fun _ => .pure trivial) fun _ => ask_bind_oblivious fun reply => ?_
    refine .ite (fun _ => .pure trivial) fun _ => .ite (fun _ => .pure trivial) fun _ => ?_
    refine .bind (moveAndParse_oblivious _) fun json _ => ?_
    exact (decodeAccessToken_oblivious json).mono fun _ _ => trivial

/-- Refreshing the tokens. -/
theorem refreshAccessToken_oblivious : Oblivious Narrow refreshAccessToken := by
  unfold refreshAccessToken
  refine .bind getToken_oblivious fun token _ => ask_bind_oblivious fun created => ?_
  refine .ite (fun _ => .pure (narrow_toInt _)) fun _ =>
    .bind (escapeFields_oblivious _ _ _) fun fields _ => ?_
  match fields with
  | none => exact .pure (narrow_toInt _)
  | some (_, _, _) =>
    refine .ite (fun _ => .pure (narrow_toInt _)) fun _ => ask_bind_oblivious fun reply => ?_
    split
    · exact .pure (narrow_toInt _)
    refine .ite (fun _ => .pure (narrow_toInt _)) fun _ =>
      .bind (moveAndParse_oblivious _) fun json _ => ?_
    refine .bind (decodeAccessToken_oblivious _) fun rc hrc => .ite (fun _ => .pure hrc) fun _ => ?_
    exact .bind writebackTokens_oblivious fun _ _ => .pure (narrow_of_nonneg le_rfl)

/-- The test for expiry, with the refresh that may follow. -/
theorem oauthTokenCheckExpire_oblivious : Oblivious Narrow oauthTokenCheckExpire := by
  unfold oauthTokenCheckExpire oauthTokenIsExpired
  refine .bind (V := anyValue) (ask_bind_oblivious fun now =>
    .bind getToken_oblivious fun _ _ => .pure trivial) fun expired _ => ?_
  refine .ite (fun _ => .pure (narrow_of_nonneg le_rfl)) fun _ => ?_
  refine .bind refreshAccessToken_oblivious fun rc hrc => ?_
  exact .ite (fun _ => .pure hrc) fun _ => .pure (narrow_of_nonneg le_rfl)

theorem oauthTokenSetExpired_oblivious : Oblivious anyValue oauthTokenSetExpired :=
  modifyToken_oblivious fun t => { t with expiresAt := ⟨0, 0⟩ }

theorem getBearerToken_oblivious : Oblivious anyValue getBearerToken := by
  unfold getBearerToken
  refine .bind getToken_oblivious fun token _ => ?_
  split
  · exact .fault _
  · exact .pure trivial

/-! ### The OneDrive backend -/

namespace OneDrive

/-- A request with a bearer token. -/
theorem requestAuthorized_oblivious (request : HttpRequest) (accepted : List ℕ) :
    Oblivious anyValue (requestAuthorized request accepted) := by
  unfold requestAuthorized
  refine ask_bind_oblivious fun reply => ?_
  split
  · exact .pure trivial
  · refine .ite (fun _ => .bind oauthTokenSetExpired_oblivious fun _ _ => .pure trivial) fun _ => ?_
    exact .ite (fun _ => .pure trivial) fun _ => .pure trivial

/-- Creating the folder above a path. -/
theorem createFolder_oblivious (path : Bytes) : Oblivious anyValue (createFolder path) := by
  unfold createFolder buildCreateFolderRequestBody
  refine .bind (sprintfUrl_oblivious _) fun url _ => .bind (V := anyValue) ?_ fun body _ => ?_
  · exact ask_bind_oblivious fun created => .ite (fun _ => .pure trivial) fun _ =>
      ask_oblivious (.cJSON_Print _)
  · match body with
    | none => exact .pure trivial
    | some body =>
      refine .bind getBearerToken_oblivious fun token _ => ?_
      refine .bind (requestAuthorized_oblivious _ _) fun result _ => ?_
      split
      · exact .pure trivial
      · exact .pure trivial

/-- The upload in one request. -/
theorem uploadFile_oblivious (path body : Bytes) : Oblivious anyValue (uploadFile path body) := by
  unfold uploadFile
  refine .bind (sprintfUrl_oblivious _) fun _ _ => .bind getBearerToken_oblivious fun token _ => ?_
  refine .bind (requestAuthorized_oblivious _ _) fun result _ => ?_
  split
  · exact .pure trivial
  · exact .pure trivial

/-- The session of a large upload. -/
theorem createUploadSession_oblivious (path : Bytes) :
    Oblivious anyValue (createUploadSession path) := by
  unfold createUploadSession
  refine .bind (sprintfUrl_oblivious _) fun _ _ => .bind getBearerToken_oblivious fun token _ => ?_
  refine .bind (requestAuthorized_oblivious _ _) fun result _ => ?_
  match result with
  | .error _ => exact .pure trivial
  | .ok reply =>
    refine .bind (moveAndParse_oblivious _) fun json _ => ?_
    match json with
    | none => exact .pure trivial
    | some json =>
      dsimp only
      split
      · exact .pure trivial
      · exact .ite (fun _ => .pure trivial) fun _ => .pure trivial

/-- The upload to that session. -/
theorem uploadToSession_oblivious (url body : Bytes) :
    Oblivious anyValue (uploadToSession url body) := by
  unfold uploadToSession
  refine ask_bind_oblivious fun reply => ?_
  split
  · exact .pure trivial
  · exact .ite (fun _ => .pure trivial) fun _ => .pure trivial

/-- An upload, large or small. -/
theorem putFileFromBufferAt_oblivious (path body : Bytes) :
    Oblivious anyValue (putFileFromBufferAt path body) := by
  unfold putFileFromBufferAt
  refine .bind oauthTokenCheckExpire_oblivious fun rc _ => .ite (fun _ => .pure trivial) fun _ => ?_
  refine ask_bind_oblivious fun created => .ite (fun _ => .pure trivial) fun _ => ?_
  refine .ite (fun _ => uploadFile_oblivious _ _) fun _ => ?_
  refine .bind (createFolder_oblivious _) fun rc _ => .ite (fun _ => .pure trivial) fun _ => ?_
  refine .bind (createUploadSession_oblivious _) fun session _ => ?_
  match session with
  | .error _ => exact .pure trivial
  | .ok url =>
    refine .bind (uploadToSession_oblivious _ _) fun rc _ => ?_
    exact .ite (fun _ => .pure trivial) fun _ => .pure trivial

/-- An error of `__get_file_info` was an `int`, and a document has passed its tests. -/
theorem getFileInfo_oblivious (path query : Bytes) :
    Oblivious (fun r => match r with
      | .error rc => Narrow rc
      | .ok json => fileInfoValid query json = true) (getFileInfo path query) := by
  unfold getFileInfo
  refine .bind (sprintfUrl_oblivious _) fun _ _ => .bind getBearerToken_oblivious fun token _ => ?_
  refine .bind (requestAuthorized_oblivious _ _) fun result _ => ?_
  match result with
  | .error _ => exact .pure (narrow_toInt _)
  | .ok reply =>
    refine .bind (moveAndParse_oblivious _) fun json _ => ?_
    match json with
    | none => exact .pure (narrow_toInt _)
    | some json =>
      refine .ite (fun _ => .pure (narrow_toInt _)) fun hvalid => .pure ?_
      rwa [Bool.not_eq_true', Bool.not_eq_false] at hvalid

/-- The errors `__get_file_info` checked are in range: what is announced is not negative. -/
private theorem announcedSize_nonneg {query : Bytes} {json : Json} {size : ℤ}
    (hquery : strstr query sizeQuery = true) (h : fileInfoValid query json = true)
    (hsize : announcedSize json = some size) : 0 ≤ size := by
  obtain ⟨n, hn⟩ := announcedSize_of_fileInfoValid hquery h
  rw [hn] at hsize
  obtain rfl := Option.some.inj hsize
  exact Int.natCast_nonneg n

/-- The length at a path; an error is left as an unsigned number. -/
theorem getFileLengthAt_oblivious (path : Bytes) :
    Oblivious NarrowExit (getFileLengthAt path) := by
  unfold getFileLengthAt
  refine .bind oauthTokenCheckExpire_oblivious fun rc hrc => .ite (fun _ => .pure hrc) fun _ => ?_
  refine ask_bind_oblivious fun created =>
    .ite (fun _ => .pure (narrowExit_err _ (hiveMkError_nonneg _ _))) fun _ => ?_
  refine .bind (getFileInfo_oblivious _ _) fun info hinfo => ?_
  match info, hinfo with
  | .error _, hrc => exact .pure hrc
  | .ok json, hvalid =>
    dsimp only
    split
    · exact .fault _
    · rename_i size hsize
      exact .pure (narrow_of_nonneg (announcedSize_nonneg strstr_sizeQuery hvalid hsize))

/-- The download of the content, into the block. -/
theorem downloadFile_oblivious (url block : Bytes) :
    Oblivious (fun r => Narrow r.1) (downloadFile url block) := by
  unfold downloadFile
  refine ask_bind_oblivious fun reply => ?_
  split
  · exact .fault _
  split
  · exact .pure (narrow_toInt _)
  split
  · exact narrow_pair _ _
  · exact .pure (narrow_of_nonneg le_rfl)

/-- The query of the length and the download together. -/
theorem getFileToBufferAt_oblivious (path block : Bytes) (buflen : ℕ) :
    Oblivious (fun r => NarrowExit r.1) (getFileToBufferAt path block buflen) := by
  unfold getFileToBufferAt
  refine .bind oauthTokenCheckExpire_oblivious fun rc hrc => .ite (fun _ => .pure hrc) fun _ => ?_
  refine ask_bind_oblivious fun created =>
    .ite (fun _ => .pure (narrowExit_err _ (hiveMkError_nonneg _ _))) fun _ => ?_
  refine .bind (getFileInfo_oblivious _ _) fun info hinfo => ?_
  match info, hinfo with
  | .error _, hrc => exact .pure hrc
  | .ok json, hvalid =>
    dsimp only
    split
    · rename_i fsize url hsize _
      have hfsize := announcedSize_nonneg strstr_sizeAndUrlQuery_size hvalid hsize
      split
      · exact .pure (narrowExit_err _ (hiveMkError_nonneg _ _))
      refine .ite (fun _ => .pure (narrow_of_nonneg le_rfl)) fun _ => ?_
      refine .bind (downloadFile_oblivious _ _) fun r hr => ?_
      exact .ite (fun _ => .pure hr) fun _ => .pure (narrow_of_nonneg hfsize)
    · exact .fault _

theorem getFileLength_oblivious (filename : Bytes) :
    Oblivious NarrowExit (getFileLength filename) :=
  .ite (fun _ => .pure (narrowExit_err _ (hiveMkError_nonneg _ _))) fun _ =>
    getFileLengthAt_oblivious _

theorem getFileToBuffer_oblivious (filename block : Bytes) (buflen : ℕ) :
    Oblivious (fun r => NarrowExit r.1) (getFileToBuffer filename block buflen) :=
  .ite (fun _ => .pure (narrowExit_err _ (hiveMkError_nonneg _ _))) fun _ =>
    getFileToBufferAt_oblivious _ _ _

theorem deleteFileAt_oblivious (path : Bytes) : Oblivious anyValue (deleteFileAt path) := by
  unfold deleteFileAt
  refine .bind oauthTokenCheckExpire_oblivious fun rc _ => .ite (fun _ => .pure trivial) fun _ => ?_
  refine ask_bind_oblivious fun created => .ite (fun _ => .pure trivial) fun _ => ?_
  refine .bind (sprintfUrl_oblivious _) fun _ _ => .bind getBearerToken_oblivious fun token _ => ?_
  refine .bind (requestAuthorized_oblivious _ _) fun result _ => ?_
  split
  · exact .pure trivial
  · exact .pure trivial

/-- Handing the names of a page to the callback. -/
theorem notifyUserFiles_oblivious (array : List Json) :
    Oblivious anyValue (notifyUserFiles array) := by
  induction array with
  | nil => exact ask_bind_oblivious fun _ => .pure trivial
  | cons item array ih =>
    unfold notifyUserFiles
    exact ask_bind_oblivious fun proceed => .ite (fun _ => .pure trivial) fun _ => ih

/-- The loop over the pages, by induction on their number. -/
theorem listPages_oblivious (rounds page : ℕ) (previous : Bool) (url : Bytes) (array : List Json) :
    Oblivious anyValue (listPages rounds page previous url array) := by
  induction rounds generalizing page previous url array with
  | zero => exact block_oblivious
  | succ rounds ih =>
    unfold listPages
    refine .bind getBearerToken_oblivious fun token _ => ask_bind_oblivious fun reply => ?_
    have released {m : M OneDriveConnect ℤ} (hm : Oblivious anyValue m) : Oblivious anyValue (do
        if previous then
          cJSON_Delete (page - 1)
        m) :=
      .ite (fun _ => ask_bind_oblivious fun _ => hm) fun _ => hm
    refine released ?_
    split
    · exact .pure trivial
    refine .ite (fun _ => .bind oauthTokenSetExpired_oblivious fun _ _ => .pure trivial) fun _ => ?_
    refine .ite (fun _ => .pure trivial) fun _ => .bind (moveAndParse_oblivious _) fun json _ => ?_
    match json with
    | none => exact .pure trivial
    | some json =>
      dsimp only
      split
      · split
        · exact ask_bind_oblivious fun _ => .pure trivial
        split
        · exact ask_bind_oblivious fun _ => .pure trivial
        · exact ih _ _ _ _
        · refine ask_bind_oblivious fun _ => ?_
          exact .bind (notifyUserFiles_oblivious _) fun _ _ => .pure trivial
      · exact ask_bind_oblivious fun _ => .pure trivial

theorem listFiles_oblivious (rounds : ℕ) : Oblivious anyValue (listFiles rounds) := by
  unfold listFiles
  refine .bind oauthTokenCheckExpire_oblivious fun rc _ => .ite (fun _ => .pure trivial) fun _ => ?_
  refine ask_bind_oblivious fun created => .ite (fun _ => .pure trivial) fun _ => ?_
  refine .bind (sprintfUrl_oblivious _) fun url _ => ask_bind_oblivious fun array => ?_
  exact .ite (fun _ => .pure trivial) fun _ => listPages_oblivious _ _ _ _ _

/-- A value is put by a read of the file and an upload, both indifferent to the error. -/
theorem putValue_oblivious (key value : Bytes) : Oblivious anyValue (putValue key value) := by
  unfold putValue putSized
  refine .bind (getFileLengthAt_oblivious _) fun exit _ => ?_
  split
  · exact .pure trivial
  rename_i size _
  have hstore (content : Except ℤ Bytes) :
      Oblivious anyValue (storeContent (snprintfPath KEYS_DIR key).1 value size content) := by
    cases content with
    | error _ => exact .pure trivial
    | ok buf =>
      simp only [storeContent, storeEntry]
      split
      · exact .fault _
      · exact putFileFromBufferAt_oblivious _ _
  refine ask_bind_oblivious fun allocated => .ite (fun _ => .pure trivial) fun _ => ?_
  split
  · refine .bind (getFileToBufferAt_oblivious _ _ _) fun r _ => ?_
    exact .ite (fun _ => .bind (V := anyValue) (.pure trivial) fun a _ => hstore a) fun _ =>
      .ite (fun _ => .bind (V := anyValue) (.pure trivial) fun a _ => hstore a) fun _ =>
        .bind (V := anyValue) (.pure trivial) fun a _ => hstore a
  · exact .bind (V := anyValue) (.pure trivial) fun a _ => hstore a

theorem setValue_oblivious (key value : Bytes) : Oblivious anyValue (setValue key value) := by
  unfold setValue
  refine ask_bind_oblivious fun allocated => .ite (fun _ => .pure trivial) fun _ => ?_
  exact putFileFromBufferAt_oblivious _ _

/-- The walk over the entries, by induction on the loop. -/
theorem getValuesLoop_oblivious (key kv : Bytes) (dataLen : ℤ) :
    Oblivious anyValue (getValuesLoop key kv dataLen) := by
  induction hlength : kv.length using Nat.strong_induction_on generalizing kv dataLen with
  | _ n ih =>
    unfold getValuesLoop
    split
    · exact .fault _
    rename_i hheader
    dsimp only
    split
    · exact .pure trivial
    split
    · exact .pure trivial
    split
    · exact .fault _
    · refine ask_bind_oblivious fun proceed => .ite (fun _ => .pure trivial) fun _ => ?_
      refine ih _ ?_ _ _ rfl
      rw [List.length_drop]
      simp only [kvHeaderSize] at hheader ⊢
      omega

/-- The read of a key's file and the walk over it. -/
theorem getValues_oblivious (key : Bytes) : Oblivious anyValue (getValues key) := by
  unfold getValues getSized
  refine .bind (getFileLengthAt_oblivious _) fun exit _ => ?_
  split
  · exact .pure trivial
  split
  · exact .pure trivial
  split
  · exact .pure trivial
  refine ask_bind_oblivious fun allocated => .ite (fun _ => .pure trivial) fun _ => ?_
  refine .bind (getFileToBufferAt_oblivious _ _ _) fun r _ => ?_
  exact .ite (fun _ => .pure trivial) fun _ =>
    .ite (fun _ => .pure trivial) fun _ => getValuesLoop_oblivious _ _ _

theorem deleteKey_oblivious (key : Bytes) : Oblivious anyValue (deleteKey key) := by
  unfold deleteKey
  refine .bind (deleteFileAt_oblivious _) fun rc _ => ?_
  exact .ite (fun _ => .pure trivial) fun _ => .pure trivial

end OneDrive

/-! ### The IPFS backend -/

namespace IPFS

/-- The version request that tests a node. -/
theorem testReachable_oblivious (ip : Bytes) (port : ℕ) :
    Oblivious anyValue (testReachable ip port) := by
  unfold testReachable
  refine .ite (fun _ => .pure trivial) fun _ => ask_bind_oblivious fun created => ?_
  refine .ite (fun _ => .pure trivial) fun _ => ask_bind_oblivious fun reply => ?_
  split
  · exact .pure trivial
  · exact .ite (fun _ => .pure trivial) fun _ => .pure trivial

theorem tryAddress_oblivious (ip : Bytes) (port : ℕ) :
    Oblivious anyValue (tryAddress ip port) := by
  unfold tryAddress
  refine .ite (fun _ => .pure trivial) fun _ => ?_
  exact .bind (testReachable_oblivious _ _) fun _ _ => .pure trivial

/-- The search for a node that answers, by induction on the rounds left. -/
theorem selectLoop_oblivious (nodes : List RpcNode) (base rounds i : ℕ) :
    Oblivious Narrow (selectLoop nodes base rounds i) := by
  induction rounds generalizing i with
  | zero => exact block_oblivious
  | succ rounds ih =>
    have found (ip : Bytes) (port : ℕ) : Oblivious Narrow (do
        select ip port
        return (0 : ℤ)) :=
      .bind (.modify fun _ _ _ => rfl) fun _ _ => .pure (narrow_of_nonneg le_rfl)
    unfold selectLoop
    split
    · exact .fault _
    refine .bind (tryAddress_oblivious _ _) fun _ _ => .ite (fun _ => found _ _) fun _ => ?_
    refine .bind (tryAddress_oblivious _ _) fun _ _ => .ite (fun _ => found _ _) fun _ => ?_
    exact .ite (fun _ => ih _) fun _ => .pure (narrow_toInt _)

theorem selectBootstrap_oblivious (nodes : List RpcNode) :
    Oblivious Narrow (selectBootstrap nodes) :=
  ask_bind_oblivious fun _ => selectLoop_oblivious _ _ _ _

/-- The test of the current node, with the search when there is none. -/
theorem checkReachable_oblivious : Oblivious Narrow checkReachable :=
  .get_bind (fun _ _ _ => rfl) fun _ =>
    .ite (fun _ => .pure (narrow_of_nonneg le_rfl)) fun _ => selectBootstrap_oblivious _

/-- What a failed transfer is reported as. -/
theorem transferError_oblivious (rc : CurlCode) : Oblivious Narrow (transferError rc) :=
  .ite (fun _ => .bind (.modify fun _ _ _ => rfl) fun _ _ => .pure (narrow_toInt _)) fun _ =>
    .pure (narrow_toInt _)

theorem putFileFromBuffer_oblivious (body cid : Bytes) :
    Oblivious anyValue (putFileFromBuffer body cid) := by
  unfold putFileFromBuffer
  refine .bind checkReachable_oblivious fun rc _ => .ite (fun _ => .pure trivial) fun _ => ?_
  refine .get_bind (fun _ _ _ => rfl) fun s => ask_bind_oblivious fun created => ?_
  refine .ite (fun _ => .pure trivial) fun _ => ask_bind_oblivious fun reply => ?_
  refine .ite (fun _ => .bind (transferError_oblivious _) fun _ _ => .pure trivial) fun _ => ?_
  refine .ite (fun _ => .pure trivial) fun _ => .ite (fun _ => .pure trivial) fun _ => ?_
  refine .bind (moveAndParse_oblivious _) fun json _ => ?_
  match json with
  | none => exact .pure trivial
  | some resp =>
    dsimp only
    split
    · exact .pure trivial
    · exact .ite (fun _ => .pure trivial) fun _ => .pure trivial

/-- A listed size is a length. -/
theorem listedSize_nonneg {cid : Bytes} {resp : Json} {size : ℤ}
    (h : listedSize cid resp = some size) : 0 ≤ size := by
  unfold listedSize at h
  split at h
  · cases h
  split at h
  · cases h
  split at h
  · cases h
  split at h
  · cases h
  · rename_i hneg
    rw [← Option.some.inj h]
    exact not_lt.mp hneg

theorem getFileLength_oblivious (cid : Bytes) : Oblivious NarrowExit (getFileLength cid) := by
  unfold getFileLength
  have err (e : ℤ) : Oblivious NarrowExit
      (pure (.err (hiveGeneralError e)) : M IPFSConnect Exit) :=
    .pure (narrowExit_err _ (hiveMkError_nonneg _ _))
  have ret (x : ℤ) : Oblivious NarrowExit (pure (.ret (toInt x)) : M IPFSConnect Exit) :=
    .pure (narrow_toInt x)
  refine .bind checkReachable_oblivious fun rc hrc => .ite (fun _ => .pure hrc) fun _ => ?_
  refine .get_bind (fun _ _ _ => rfl) fun s => ask_bind_oblivious fun created => ?_
  refine .ite (fun _ => err _) fun _ => ask_bind_oblivious fun reply => ?_
  refine .ite (fun _ => .bind (transferError_oblivious _) fun rc hrc => .pure hrc) fun _ => ?_
  split
  · exact ret _
  split
  · exact ret _
  refine .bind (moveAndParse_oblivious _) fun json _ => ?_
  match json with
  | none => exact err _
  | some resp =>
    dsimp only
    split
    · exact err _
    · rename_i fsize hsize
      exact .pure (narrow_of_nonneg (listedSize_nonneg hsize))

theorem getFileToBuffer_oblivious (cid block : Bytes) (buflen : ℕ) :
    Oblivious (fun r => NarrowExit r.1) (getFileToBuffer cid block buflen) := by
  unfold getFileToBuffer
  have err (facility : ℕ) (e : ℤ) (block : Bytes) : Oblivious (fun r => NarrowExit r.1)
      (pure (.err (hiveMkError facility e), block) : M IPFSConnect (Exit × Bytes)) :=
    .pure (narrowExit_err _ (hiveMkError_nonneg _ _))
  refine .bind (getFileLength_oblivious _) fun exit hexit => ?_
  refine .ite (fun _ => .pure hexit) fun hpos => ?_
  split
  · exact err _ _ _
  refine .bind checkReachable_oblivious fun rc hrc => .ite (fun _ => .pure hrc) fun _ => ?_
  refine .get_bind (fun _ _ _ => rfl) fun s => ask_bind_oblivious fun created => ?_
  refine .ite (fun _ => err _ _ _) fun _ => ask_bind_oblivious fun reply => ?_
  split
  · exact .fault _
  · refine .ite (fun _ => .bind (transferError_oblivious _) fun rc hrc => .pure hrc) fun _ => ?_
    split
    · exact err _ _ _
    split
    · exact err _ _ _
    split
    · exact err _ _ _
    · exact .pure (narrow_of_nonneg (not_le.mp hpos).le)

end IPFS

end HiveSDK
