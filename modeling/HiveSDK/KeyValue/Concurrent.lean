import HiveSDK.Interaction.Concurrent
import HiveSDK.KeyValue.Refinement

/-!
# Updates of one key at the same time

`put_value` asks for the length of the key's file, downloads it, and uploads all of it with the
new entry behind; nothing tells the service which version the upload is based on. Two puts that
read before either has written keep only the later one (`twoPuts_not_serialisable`).

The reads are the only way in which updates notice each other. As long as nobody writes the
file between a request of a `put_value` and its upload, updates that run at the same time end
like updates that run one after the other, in the order in which they write
(`updates_serialisable`).
-/

namespace HiveSDK

open Interaction C OneDrive

/-! ### Calls that leave the service as it is -/

/-- Calls that change nothing: allocations, the clock, cJSON, and requests that read or
prepare. -/
def Call.Quiet : Call → Prop
  | .gettimeofday | .malloc _ | .httpClientNew _ | .cJSON_CreateObject | .cJSON_Print _ => True
  | .httpClientPerform request => request.method = .get ∨ request.method = .post
  | _ => False

/-- The call is a request to the service. -/
def Call.IsRequest : Call → Prop
  | .httpClientPerform _ => True
  | _ => False

/-- The event replaces or removes a file of the service. -/
def CallEvent.Writes : CallEvent → Prop
  | ⟨.httpClientPerform request, reply⟩ =>
    request.method = .put ∧ reply.Stored ∨
      request.method = .delete ∧ reply.answer = .ok HttpStatus_NoContent
  | _ => False

namespace Drive

variable {S : Drive} {files files' : Files} {request : HttpRequest} {reply : HttpReply}

/-- A request that does not write leaves the files. -/
theorem Answers.files_eq (h : S.Answers files request reply files')
    (hwrites : ¬CallEvent.Writes ⟨.httpClientPerform request, reply⟩) : files' = files := by
  cases h with
  | upload _ _ _ _ hstored => exact absurd (.inl ⟨rfl, hstored⟩) hwrites
  | session _ _ _ _ _ _ hurl _ hstored => exact absurd (.inl ⟨hurl.1, hstored⟩) hwrites
  | delete _ _ _ hdone => exact absurd (.inr ⟨rfl, hdone⟩) hwrites
  | _ => rfl

/-- A quiet call does not write. -/
private theorem not_writes_of_quiet {i : Call} {r : i.Reply} (hi : i.Quiet) :
    ¬CallEvent.Writes ⟨i, r⟩ := by
  cases i with
  | httpClientPerform request =>
    have hmethod : request.method = .get ∨ request.method = .post := hi
    rintro (⟨hput, -⟩ | ⟨hdelete, -⟩)
    · simp [hput] at hmethod
    · simp [hdelete] at hmethod
  | _ => exact id

/-- What an update sees of the world are the files; only a write changes them. -/
private theorem views (S : Drive) :
    Views S.handler World.files Call.Quiet Call.IsRequest CallEvent.Writes where
  still {w i r w'} hi hr := by
    cases i with
    | httpClientPerform request =>
      -- only a request touches the files, and a quiet one leaves them
      obtain ⟨-, files, hanswers, rfl⟩ := hr
      rw [hanswers.files_eq (not_writes_of_quiet hi)]
    | gettimeofday => exact hr.2
    | httpClientNew user => exact hr
    | malloc _ => exact hr
    | cJSON_CreateObject => exact hr
    | cJSON_Print _ => exact hr
    | _ => exact hi.elim
  again {w i r w₁} hi hr hview := by
    cases i with
    | httpClientPerform request =>
      -- the answer fits any world with the same files
      obtain ⟨hvalid, files, hanswers, -⟩ := hr
      obtain rfl := hanswers.files_eq (not_writes_of_quiet hi)
      refine ⟨hvalid, w₁.files, ?_, rfl⟩
      rw [hview trivial]
      exact hanswers
    | gettimeofday => exact ⟨hr.1, rfl⟩
    | httpClientNew user => rfl
    | malloc _ => rfl
    | cJSON_CreateObject => rfl
    | cJSON_Print _ => rfl
    | _ => exact hi.elim
  calm {w i r w'} hwrites hr := by
    cases i with
    | httpClientPerform request =>
      obtain ⟨-, files, hanswers, rfl⟩ := hr
      exact hanswers.files_eq hwrites
    | gettimeofday => rw [hr.2]
    | httpClientNew user => exact congrArg World.files hr
    | valuesCallback key value =>
      obtain rfl : w' = w.deliver [(key, value, r)] := hr
      rfl
    | openFile path mode =>
      cases mode with
      | readOnly => rw [hr.2]
      | writeTruncate =>
        obtain rfl : w' = if r = .ok () then w.setDisk path (some []) else w := hr
        split <;> rfl
      | writeExclusive =>
        obtain ⟨-, rfl⟩ := hr
        split <;> rfl
    | lseekEnd path => rw [hr.2]
    | read path size => rw [hr.2]
    | write path data =>
      cases r with
      | ok n => rw [hr.2]; rfl
      | error e => exact congrArg World.files hr
    | unlink path =>
      obtain rfl : w' = if r = .ok () then w.setDisk path none else w := hr
      split <;> rfl
    | _ => exact congrArg World.files hr

end Drive

/-! ### What the operations ask -/

/-- The calls of the function are quiet. -/
abbrev QuietOnly {α : Type} (m : M OneDriveConnect α) : Prop := m.Within Call.Quiet fun _ => True

namespace OneDrive

variable {S : Drive} {s : Thread OneDriveConnect} {w : World}

/-- Looking up a file is quiet. -/
private theorem getFileInfo_quiet (path query : Bytes) : QuietOnly (getFileInfo path query) :=
  getFileInfo_within (fun _ => .inl rfl) trivial trivial

/-- So is its download. -/
private theorem downloadFile_quiet (url block : Bytes) : QuietOnly (downloadFile url block) :=
  downloadFile_within (.inl rfl) trivial block

/-- Creating a folder writes no file. -/
private theorem createFolder_quiet (path : Bytes) : QuietOnly (createFolder path) := by
  unfold createFolder buildCreateFolderRequestBody
  refine .bind (sprintfUrl_within trivial _) fun _ => .bind (.bind (.ask trivial) fun _ =>
    .ite (.pure _) (.ask trivial)) fun body => ?_
  match body with
  | none => exact .pure _
  | some _ =>
    refine .bind (getBearerToken_within trivial) fun _ =>
      .bind (requestAuthorized_within (.inr rfl) _) fun answer => ?_
    match answer with
    | .error _ => exact .pure _
    | .ok _ => exact .pure _

/-- Neither does asking for an upload session. -/
private theorem createUploadSession_quiet (path : Bytes) :
    QuietOnly (createUploadSession path) := by
  unfold createUploadSession
  refine .bind (sprintfUrl_within trivial _) fun _ => .bind (getBearerToken_within trivial) fun _ =>
    .bind (requestAuthorized_within (.inr rfl) _) fun answer => ?_
  match answer with
  | .error _ => exact .pure _
  | .ok reply =>
    refine .bind (moveAndParse_within trivial reply) fun json => ?_
    match json with
    | none => exact .pure _
    | some json =>
      dsimp only
      split
      · exact .pure _
      · exact .ite (.pure _) (.pure _)

/-- While the token is valid, checking it is quiet. -/
private theorem oauthTokenCheckExpire_asks (hs : S.TokenValid s) :
    Script.Asks S.handler Call.Quiet oauthTokenCheckExpire s w := by
  have hexpired : (oauthTokenIsExpired).Within Call.Quiet fun _ => True :=
    .bind (.ask trivial) fun _ => .bind (.bind .get fun _ => .pure _) fun _ => .pure _
  unfold oauthTokenCheckExpire
  refine hexpired.asks.bind ?_
  rw [wp_oauthTokenIsExpired]
  rintro now w' ⟨hnow, -⟩
  rw [hs now hnow]
  trivial

/-- The function checks the token first; the rest of it is quiet. -/
private theorem asks_of_checkExpire (hs : S.TokenValid s) {α : Type} {f : ℤ → M OneDriveConnect α}
    (hf : ∀ rc, QuietOnly (f rc)) :
    Script.Asks S.handler Call.Quiet (oauthTokenCheckExpire >>= f) s w :=
  (oauthTokenCheckExpire_asks hs).bind
    (Script.wp_mono Script.wp_true (fun _ _ _ => trivial) fun rc _ _ _ => (hf rc).asks)

/-- With a valid token the test for expiry asks nothing that matters. -/
private theorem beforeLast_of_checkExpire (hs : S.TokenValid s) {α : Type}
    {f : ℤ → M OneDriveConnect α}
    (hf : ∀ rc s' w', Script.AsksBeforeLast S.handler Call.Quiet (f rc) s' w') :
    Script.AsksBeforeLast S.handler Call.Quiet (oauthTokenCheckExpire >>= f) s w :=
  (oauthTokenCheckExpire_asks hs).bind_beforeLast
    (Script.wp_mono Script.wp_true (fun _ _ _ => trivial) fun rc s' w' _ => hf rc s' w')

/-- The query of a length asks quiet calls only. -/
private theorem getFileLengthAt_asks (hs : S.TokenValid s) (path : Bytes) :
    Script.Asks S.handler Call.Quiet (getFileLengthAt path) s w := by
  refine asks_of_checkExpire hs fun rc => .ite (.pure _) (.bind (.ask trivial) fun created => ?_)
  refine .ite (.pure _) (.bind (getFileInfo_quiet path sizeQuery) fun info => ?_)
  match info with
  | .error _ => exact .pure _
  | .ok json =>
    dsimp only
    split
    · exact .fault trivial
    · exact .pure _

/-- So does a read. -/
private theorem getFileToBufferAt_asks (hs : S.TokenValid s) (path block : Bytes) (buflen : ℕ) :
    Script.Asks S.handler Call.Quiet (getFileToBufferAt path block buflen) s w := by
  refine asks_of_checkExpire hs fun rc => .ite (.pure _) (.bind (.ask trivial) fun created => ?_)
  refine .ite (.pure _) (.bind (getFileInfo_quiet path sizeAndUrlQuery) fun info => ?_)
  match info with
  | .error _ => exact .pure _
  | .ok json =>
    dsimp only
    split
    · split
      · exact .pure _
      refine .ite (.pure _) (.bind (downloadFile_quiet _ block) fun r => ?_)
      exact .ite (.pure _) (.pure _)
    · exact .fault trivial

/-- A request that carries the token is the last question of the function that makes it. -/
private theorem requestAuthorized_asksBeforeLast (request : HttpRequest) (accepted : List ℕ) :
    Script.AsksBeforeLast S.handler Call.Quiet (requestAuthorized request accepted) s w := by
  refine .ask fun reply => ?_
  split
  · exact .pure _
  · exact .ite (.bind (.modify _) fun _ => .pure _) (.ite (.pure _) (.pure _))

/-- Turning an answer into a result asks nothing. -/
private theorem silent_reportAnswer (answer : Except ℤ HttpReply) :
    (match answer with
      | .error e => pure (toInt e)
      | .ok _ => pure 0 : M OneDriveConnect ℤ).Silent := by
  cases answer with
  | error e => exact .pure _
  | ok reply => exact .pure _

/-- The upload is the last call of a small put. -/
private theorem uploadFile_asksBeforeLast (path body : Bytes) :
    Script.AsksBeforeLast S.handler Call.Quiet (uploadFile path body) s w := by
  unfold uploadFile
  refine (sprintfUrl_within (E := fun _ => True) trivial _).bind_beforeLast fun _ _ _ =>
    (getBearerToken_within (E := fun _ => True) trivial).bind_beforeLast fun _ _ _ =>
      (requestAuthorized_asksBeforeLast _ _).bind_silent silent_reportAnswer

/-- And of a large one. -/
private theorem uploadToSession_asksBeforeLast (url body : Bytes) :
    Script.AsksBeforeLast S.handler Call.Quiet (uploadToSession url body) s w := by
  refine .ask fun reply => ?_
  split
  · exact .pure _
  · exact .ite (.pure _) (.pure _)

/-- The upload is the last question of `__put_file_from_buffer`. -/
private theorem putFileFromBufferAt_asksBeforeLast (hs : S.TokenValid s) (path body : Bytes) :
    Script.AsksBeforeLast S.handler Call.Quiet (putFileFromBufferAt path body) s w := by
  refine beforeLast_of_checkExpire hs fun rc s' w' => ?_
  split
  · exact (Script.Silent.pure _).asksBeforeLast
  refine (Script.Within.ask (E := fun _ => True) trivial).bind_beforeLast fun created s' w' => ?_
  split
  · exact (Script.Silent.pure _).asksBeforeLast
  split
  · exact uploadFile_asksBeforeLast path body
  refine (createFolder_quiet _).bind_beforeLast fun rc s' w' => ?_
  split
  · exact (Script.Silent.pure _).asksBeforeLast
  refine (createUploadSession_quiet path).bind_beforeLast fun session s' w' => ?_
  match session with
  | .error rc => exact (Script.Silent.pure _).asksBeforeLast
  | .ok url =>
    refine (uploadToSession_asksBeforeLast url body).bind_silent fun rc => ?_
    exact .ite (.pure _) (.pure _)

/-- The request is the last question of `__delete_file`. -/
private theorem deleteFileAt_asksBeforeLast (hs : S.TokenValid s) (path : Bytes) :
    Script.AsksBeforeLast S.handler Call.Quiet (deleteFileAt path) s w := by
  refine beforeLast_of_checkExpire hs fun rc s' w' => ?_
  split
  · exact (Script.Silent.pure _).asksBeforeLast
  refine (Script.Within.ask (E := fun _ => True) trivial).bind_beforeLast fun created s' w' => ?_
  split
  · exact (Script.Silent.pure _).asksBeforeLast
  exact (sprintfUrl_within (E := fun _ => True) trivial _).bind_beforeLast fun _ _ _ =>
    (getBearerToken_within (E := fun _ => True) trivial).bind_beforeLast fun _ _ _ =>
      (requestAuthorized_asksBeforeLast _ _).bind_silent silent_reportAnswer

/-- The last request of `put_value` is the upload; what it asks before leaves the service as it
is, and finds the token valid. -/
private theorem putValue_asksBeforeLast (hs : S.TokenValid s) (key value : Bytes) :
    Script.AsksBeforeLast S.handler Call.Quiet (putValue key value) s w := by
  unfold putValue
  refine (getFileLengthAt_asks hs _).bind_beforeLast
    (Script.wp_mono (getFileLengthAt_spec hs _) (fun _ _ _ => trivial) ?_)
  rintro exit s w ⟨rfl, rfl, -⟩
  split
  · exact (Script.Silent.pure _).asksBeforeLast
  rename_i size _
  refine (Script.Within.asks (E := fun _ => True) (.ask trivial)).bind_beforeLast ?_
  rw [Script.wp_ask]
  rintro made w ⟨rfl⟩
  have append (buf : Bytes) : Script.AsksBeforeLast S.handler Call.Quiet
      (storeEntry (snprintfPath KEYS_DIR key).1 value size buf) s w := by
    unfold storeEntry
    split
    · exact (Script.Silent.fault _).asksBeforeLast
    · exact putFileFromBufferAt_asksBeforeLast hs _ _
  split
  · exact (Script.Silent.pure _).asksBeforeLast
  split
  · refine (getFileToBufferAt_asks hs _ _ _).bind_beforeLast
      (Script.wp_mono (getFileToBufferAt_spec hs _ _ _) (fun _ _ _ => trivial) ?_)
    rintro ⟨exit, buf⟩ s' w' ⟨rfl, rfl, -⟩
    show Script.AsksBeforeLast _ _ (if toInt exit.ssize < 0 then _ else _) s' w'
    split
    · exact (Script.Silent.pure _).asksBeforeLast
    split
    · exact (Script.Silent.pure _).asksBeforeLast
    · exact append buf
  · exact append _

/-- A set writes with its last call. -/
private theorem setValue_asksBeforeLast (hs : S.TokenValid s) (key value : Bytes) :
    Script.AsksBeforeLast S.handler Call.Quiet (setValue key value) s w := by
  unfold setValue
  refine (Script.Within.asks (E := fun _ => True) (.ask trivial)).bind_beforeLast ?_
  rw [Script.wp_ask]
  rintro made w ⟨rfl⟩
  split
  · exact (Script.Silent.pure _).asksBeforeLast
  · exact putFileFromBufferAt_asksBeforeLast hs _ _

/-- So does a delete. -/
private theorem deleteKey_asksBeforeLast (hs : S.TokenValid s) (key : Bytes) :
    Script.AsksBeforeLast S.handler Call.Quiet (deleteKey key) s w := by
  unfold deleteKey
  refine (deleteFileAt_asksBeforeLast hs _).bind_silent fun rc => ?_
  exact .ite (.pure _) (.pure _)

end OneDrive

/-! ### Updates -/

namespace KeyOperation

/-- The operation updates its key. -/
def Updates : KeyOperation → Prop
  | get _ => False
  | _ => True

/-- The path of the key's file. -/
def path (operation : KeyOperation) : Bytes := (snprintfPath KEYS_DIR operation.key).1

/-- The content of the key's file after a successful operation, from the content before. -/
def effect : KeyOperation → Option Bytes → Option Bytes
  | put _ value, content => some (content.getD [] ++ kvEntry value)
  | set _ value, _ => some (kvEntry value)
  | get _, content => content
  | delete _, _ => none

variable {S : Drive} {s : Thread OneDriveConnect} {w : World}

/-- Reporting a result asks nothing. -/
private theorem silent_reportInt (rc : ℤ) : (reportInt rc : M OneDriveConnect ℤ).Silent :=
  .ite (.bind (.modify _) fun _ => .pure _) (.pure _)

/-- Recording an error asks nothing. -/
private theorem silent_failWith (e : ℤ) : (failWith e : M OneDriveConnect ℤ).Silent :=
  .bind (.modify _) fun _ => .pure _

/-- The write of an update is the last thing it asks. -/
private theorem call_asksBeforeLast (hs : S.TokenValid s) {operation : KeyOperation}
    (hupdates : operation.Updates) :
    Script.AsksBeforeLast S.handler Call.Quiet operation.call s w := by
  cases operation with
  | put key value =>
    simp only [KeyOperation.call, hivePutValue]
    rcases valueArgs_eq oneDriveMethods key value with hargs | ⟨-, hargs⟩
    · rw [hargs]
      exact (silent_failWith _).asksBeforeLast
    · rw [hargs]
      exact (putValue_asksBeforeLast hs key value).bind_silent silent_reportInt
  | set key value =>
    simp only [KeyOperation.call, hiveSetValue]
    rcases valueArgs_eq oneDriveMethods key value with hargs | ⟨-, hargs⟩
    · rw [hargs]
      exact (silent_failWith _).asksBeforeLast
    · rw [hargs]
      exact (setValue_asksBeforeLast hs key value).bind_silent silent_reportInt
  | get key => exact hupdates.elim
  | delete key =>
    cases key with
    | nil => exact (silent_failWith _).asksBeforeLast
    | cons b key => exact (deleteKey_asksBeforeLast hs (b :: key)).bind_silent silent_reportInt

/-- A public function that reports the result of a method which writes the file at `path`. -/
private theorem report_effect {m : M OneDriveConnect ℤ} {path : Bytes} {content : Option Bytes}
    (hm : Script.wp S.handler anyFault m (fun rc s' w' => Writes path content s w rc s' w' ∧
      (rc = 0 → ∀ bytes, content = some bytes → bytes.length < 2 ^ 31 + 2 ^ 16)) s w) :
    Script.wp S.handler anyFault (do reportInt (← m))
      (fun rc _ w' => rc = 0 → w' = w.setFile path content ∧ Bounded w'.files path) s w := by
  simp only [Script.wp_bind, wp_reportInt]
  refine Script.wp_mono hm (fun _ _ h => h) ?_
  rintro rc s' w' ⟨⟨rfl, hwrites⟩, hbounded⟩
  refine ⟨fun _ h => absurd h (by decide), fun hpos _ => ?_⟩
  rcases hwrites with ⟨rfl, rfl⟩ | ⟨hneg, -⟩
  · refine ⟨rfl, fun bytes hbytes => hbounded rfl bytes ?_⟩
    rwa [World.setFile_files_self] at hbytes
  · exact absurd hneg hpos

/-- An update that succeeds, run in one piece. -/
private theorem call_effect (hs : S.TokenValid s) {operation : KeyOperation}
    (hupdates : operation.Updates) (hbounded : Bounded w.files operation.path) :
    Script.wp S.handler anyFault operation.call (fun rc _ w' => rc = 0 →
      w' = w.setFile operation.path (operation.effect (w.files operation.path)) ∧
        Bounded w'.files operation.path) s w := by
  -- a call that fails has no effect to show
  have failed (e : ℤ) (path : Bytes) (content : Option Bytes) :
      Script.wp S.handler anyFault (failWith e) (fun rc _ w' => rc = 0 →
        w' = w.setFile path content ∧ Bounded w'.files path) s w :=
    wp_failWith.mpr fun h => absurd h (by decide)
  cases operation with
  | put key value =>
    simp only [KeyOperation.call, hivePutValue]
    rcases valueArgs_eq oneDriveMethods key value with hargs | ⟨hvalue, hargs⟩
    · rw [hargs]
      exact failed _ _ _
    rw [hargs]
    refine report_effect (Script.wp_mono (putValue_spec hs rfl hvalue hbounded) (fun _ _ h => h) ?_)
    rintro rc s' w' ⟨hwrites, hshort⟩
    refine ⟨hwrites, fun hrc bytes hbytes => ?_⟩
    -- the entry is appended only when the file stays short
    have hold := hshort hrc
    have hlen := hvalue.length_le
    obtain rfl := Option.some.inj hbytes
    simp only [KeyOperation.path, KeyOperation.key, List.length_append, length_kvEntry,
      HIVE_MAX_VALUE_LEN, kvHeaderSize] at hlen ⊢
    omega
  | set key value =>
    simp only [KeyOperation.call, hiveSetValue]
    rcases valueArgs_eq oneDriveMethods key value with hargs | ⟨hvalue, hargs⟩
    · rw [hargs]
      exact failed _ _ _
    rw [hargs]
    refine report_effect (Script.wp_mono (setValue_spec hs value rfl) (fun _ _ h => h) ?_)
    intro rc s' w' hwrites
    refine ⟨hwrites, fun _ bytes hbytes => ?_⟩
    have hlen := hvalue.length_le
    obtain rfl := Option.some.inj hbytes
    simp only [length_kvEntry, HIVE_MAX_VALUE_LEN, kvHeaderSize] at hlen ⊢
    omega
  | get key => exact hupdates.elim
  | delete key =>
    cases key with
    | nil => exact failed _ _ _
    | cons b key =>
      refine report_effect (Script.wp_mono (deleteKey_spec hs rfl) (fun _ _ h => h) ?_)
      exact fun rc s' w' hwrites => ⟨hwrites, by rintro _ bytes ⟨⟩⟩

end KeyOperation

/-! ### Updates that run at the same time -/

/-- Updates of one key, one for each `k`, that have all returned 0 and have left the key's file
with this content, end like updates that run one after the other in some order. -/
def Serialisable {κ : Type} (S : Drive) (updates : κ → KeyOperation)
    (threads : κ → Thread OneDriveConnect) (w : World) (path : Bytes) (content : Option Bytes) :
    Prop :=
  ∃ (order : List κ) (a : κ → ℤ × Thread OneDriveConnect) (w' : World),
    order.Nodup ∧ (∀ k, k ∈ order) ∧ (∀ k, (a k).1 = 0) ∧
      Serial S.handler (fun k => (updates k).call (threads k)) a w order w' ∧
        w'.files path = content

section Serial

variable {κ : Type} {S : Drive} {updates : κ → KeyOperation} {threads : κ → Thread OneDriveConnect}
  {a : κ → ℤ × Thread OneDriveConnect} {w w' : World} {key : Bytes} {order : List κ}

/-- The content that updates of one key leave behind when they run one after the other. -/
private theorem serial_content (hupdates : ∀ k, (updates k).key = key ∧ (updates k).Updates)
    (hthreads : ∀ k, S.TokenValid (threads k))
    (hbounded : Bounded w.files (snprintfPath KEYS_DIR key).1) (hresults : ∀ k, (a k).1 = 0)
    (hserial : Serial S.handler (fun k => (updates k).call (threads k)) a w order w') :
    w'.files (snprintfPath KEYS_DIR key).1 =
      order.foldl (fun content k => (updates k).effect content)
        (w.files (snprintfPath KEYS_DIR key).1) := by
  induction hserial with
  | nil w => rfl
  | @cons w w₁ _ k order hexec _ ih =>
    have hpath : (updates k).path = (snprintfPath KEYS_DIR key).1 := by
      rw [KeyOperation.path, (hupdates k).1]
    rw [← hpath] at hbounded
    obtain ⟨hw₁, hbounded₁⟩ := Script.wp.of_exec (KeyOperation.call_effect (hthreads k)
      (hupdates k).2 hbounded) hexec (hresults k)
    rw [hpath] at hw₁ hbounded₁
    rw [ih hbounded₁, hw₁, List.foldl_cons, World.setFile_files_self]

/-- Updates of one key that run at the same time and all succeed end like a serial run of them,
if no update writes the file between a request of another one and a later call of it. -/
theorem updates_serialisable [Fintype κ] [DecidableEq κ] {τ : List (κ × CallEvent)}
    (hupdates : ∀ k, (updates k).key = key ∧ (updates k).Updates)
    (hthreads : ∀ k, S.TokenValid (threads k))
    (hbounded : Bounded w.files (snprintfPath KEYS_DIR key).1)
    (hrun : Interleaved S.handler (fun k => (updates k).call (threads k)) w τ a w')
    (hresults : ∀ k, (a k).1 = 0)
    (hundisturbed : Undisturbed Call.IsRequest CallEvent.Writes τ) :
    ∃ order : List κ, order.Nodup ∧ (∀ k, k ∈ order) ∧
      Serial S.handler (fun k => (updates k).call (threads k)) a w order w' ∧
      w'.files (snprintfPath KEYS_DIR key).1 =
        order.foldl (fun content k => (updates k).effect content)
          (w.files (snprintfPath KEYS_DIR key).1) := by
  have hasks : ∀ k v, ((updates k).call (threads k)).AsksBeforeLast S.handler Call.Quiet v :=
    fun k v => KeyOperation.call_asksBeforeLast (hthreads k) (hupdates k).2
  obtain ⟨order, hnodup, hall, hserial⟩ := serial_of_undisturbed S.views hrun hasks hundisturbed
  exact ⟨order, hnodup, hall, hserial,
    serial_content hupdates hthreads hbounded hresults hserial⟩

end Serial

/-! ### Two puts -/

/-- Two clients, each with a value for the same key. -/
def twoPuts : Bool → KeyOperation
  | true => .put (ascii "k") (ascii "a")
  | false => .put (ascii "k") (ascii "b")

def twoThreads : Bool → Thread OneDriveConnect := fun _ => freshToken

def succeeded : Bool → ℤ × Thread OneDriveConnect := fun _ => (0, freshToken)

private theorem twoPuts_updates (k : Bool) : (twoPuts k).key = ascii "k" ∧ (twoPuts k).Updates := by
  cases k <;> exact ⟨rfl, trivial⟩

private theorem twoThreads_valid (k : Bool) : Drive.loopback.TokenValid (twoThreads k) :=
  loopback_tokenValid

private theorem emptyWorld_bounded (path : Bytes) : Bounded emptyWorld.files path :=
  fun _ hcontent => nomatch hcontent

/-- A client, and whether its call is a request. -/
def tag (q : Bool × CallEvent) : Bool × Bool :=
  (q.1, match q.2.1 with
    | .httpClientPerform _ => true
    | _ => false)

/-- Whether a run is disturbed is seen from who makes which kind of event. -/
private theorem undisturbed_of_tags {τ : List (Bool × CallEvent)}
    (htags : ∀ k j b b', [(k, true), (j, b), (k, b')].Sublist (τ.map tag) → j = k) :
    Undisturbed Call.IsRequest CallEvent.Writes τ := by
  intro k j e f e' hsub hlooks hne
  have hmap := hsub.map tag
  have he : tag (k, e) = (k, true) := by
    obtain ⟨i, r⟩ := e
    cases i with
    | httpClientPerform request => rfl
    | _ => exact hlooks.elim
  rw [List.map_cons, he] at hmap
  exact absurd (htags k j _ _ hmap) hne

/-- The first put runs from its start to its end between the first two calls of the second. -/
theorem updates_serialisable_twoPuts : ∃ (τ : List (Bool × CallEvent)) (w' : World),
    Interleaved Drive.loopback.handler (fun k => (twoPuts k).call (twoThreads k)) emptyWorld τ
      succeeded w' ∧
    ∃ order : List Bool, order.Nodup ∧ (∀ k, k ∈ order) ∧
      Serial Drive.loopback.handler (fun k => (twoPuts k).call (twoThreads k)) succeeded emptyWorld
        order w' ∧
      w'.files (snprintfPath KEYS_DIR (ascii "k")).1 =
        order.foldl (fun content k => (twoPuts k).effect content)
          (emptyWorld.files (snprintfPath KEYS_DIR (ascii "k")).1) := by
  let schedule := false :: (List.replicate 7 true ++ List.replicate 10 false)
  have hcompute : ∃ τ pool w', interleave Drive.serve schedule
      (fun k => (twoPuts k).call (twoThreads k)) emptyWorld = some (τ, pool, w') ∧
        pool true = .ret (succeeded true) ∧ pool false = .ret (succeeded false) ∧
          τ.map tag = (false, false) ::
            ([false, false, true, false, false, false, true].map (true, ·) ++
              [false, true, false, false, false, true, true, false, false, true].map (false, ·)) :=
    ⟨_, _, _, rfl, rfl, rfl, rfl⟩
  obtain ⟨τ, pool, w', hcompute, htrue, hfalse, htags⟩ := hcompute
  have hrun : Interleaved Drive.loopback.handler (fun k => (twoPuts k).call (twoThreads k))
      emptyWorld τ succeeded w' :=
    interleaved_of_interleave Drive.serve_sound hcompute (Bool.forall_bool.mpr ⟨hfalse, htrue⟩)
  have hundisturbed : Undisturbed Call.IsRequest CallEvent.Writes τ :=
    undisturbed_of_tags (by rw [htags]; decide)
  exact ⟨τ, w', hrun, updates_serialisable twoPuts_updates twoThreads_valid
    (emptyWorld_bounded _) hrun (fun _ => rfl) hundisturbed⟩

/-- Both puts ask for the length before either of them uploads: the value of the first is
gone. -/
theorem twoPuts_not_serialisable : ∃ (τ : List (Bool × CallEvent)) (w' : World),
    Interleaved Drive.loopback.handler (fun k => (twoPuts k).call (twoThreads k)) emptyWorld τ
      succeeded w' ∧
    ¬Serialisable Drive.loopback twoPuts twoThreads emptyWorld
      (snprintfPath KEYS_DIR (ascii "k")).1 (w'.files (snprintfPath KEYS_DIR (ascii "k")).1) := by
  let schedule := List.replicate 6 true ++ List.replicate 6 false ++ [true, false]
  have hcompute : ∃ τ pool w', interleave Drive.serve schedule
      (fun k => (twoPuts k).call (twoThreads k)) emptyWorld = some (τ, pool, w') ∧
        pool true = .ret (succeeded true) ∧ pool false = .ret (succeeded false) ∧
          w'.files (snprintfPath KEYS_DIR (ascii "k")).1 = some (kvEntry (ascii "b")) :=
    ⟨_, _, _, rfl, rfl, rfl, rfl⟩
  obtain ⟨τ, pool, w', hcompute, htrue, hfalse, hcontent⟩ := hcompute
  refine ⟨τ, w', interleaved_of_interleave Drive.serve_sound hcompute
    (Bool.forall_bool.mpr ⟨hfalse, htrue⟩), ?_⟩
  rintro ⟨order, a, w₁, hnodup, hall, hresults, hserial, hfinal⟩
  have hserial := serial_content twoPuts_updates twoThreads_valid (emptyWorld_bounded _) hresults
    hserial
  rw [hfinal, hcontent] at hserial
  -- a serial run in either order leaves two entries
  match order, hall, hnodup, hserial with
  | [], hall, _, _ => exact absurd (hall true) List.not_mem_nil
  | [k], hall, _, _ =>
    have htrue : true = k := List.mem_singleton.mp (hall true)
    have hfalse : false = k := List.mem_singleton.mp (hall false)
    exact absurd (htrue.trans hfalse.symm) (by decide)
  | [j, k], _, _, hserial =>
    have hfold : ∀ j k : Bool, [j, k].foldl (fun content k => (twoPuts k).effect content) none ≠
        some (kvEntry (ascii "b")) := by decide
    exact hfold j k hserial.symm
  | i :: j :: k :: order, _, hnodup, _ =>
    have hthree : ∀ i j k : Bool, ¬[i, j, k].Nodup := by decide
    exact hthree i j k (hnodup.sublist (List.prefix_append [i, j, k] order).sublist)

end HiveSDK
