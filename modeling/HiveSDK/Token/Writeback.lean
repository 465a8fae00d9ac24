import HiveSDK.Files.LocalDisk
import HiveSDK.Token.Keystore

/-!
# A keystore that is not written to its end

`oauth_writeback` empties the keystore and then writes it with one `write`. Wherever it stops, by an
error or because the process ends, the file holds what it held before, or what has been written of
the new text (`writebackTokens_stopped`). The next connection accepts the file in the first case,
unless it was too long already; in the second it does so only if the text is there as a whole
(`writeback_reconnects_iff`). So the user is locked out by a process that ends between the two
calls.
-/

namespace HiveSDK

open Interaction C

/-- The bytes written since the file was emptied, after an event; `none` when it has not been. -/
def CallEvent.written (path : Bytes) (n : Option ℕ) : CallEvent → Option ℕ
  | ⟨.openFile p .writeTruncate, .ok _⟩ => if p = path then some 0 else n
  | ⟨.write p data, .ok k⟩ => if p = path then n.map (· + min k data.length) else n
  | _ => n

/-- The bytes that were written since the file was emptied in the history `past`. -/
def writtenSince (path : Bytes) (past : List CallEvent) : Option ℕ :=
  past.foldl (CallEvent.written path) none

/-- What has been written, one event later. -/
@[simp] theorem writtenSince_concat (path : Bytes) (past : List CallEvent) (e : CallEvent) :
    writtenSince path (past ++ [e]) = e.written path (writtenSince path past) :=
  List.foldl_concat ..

/-- The file is as it was. -/
structure Untouched (D : Disk) (path : Bytes) (past : List CallEvent) : Prop where
  written : writtenSince path past = none
  disk : diskAfter D past path = D path

/-- So many bytes of the text of the document, and its terminator, are in the file. -/
structure Begun (D : Disk) (path : Bytes) (json : Json) (past : List CallEvent) (text : Bytes)
    (n : ℕ) : Prop where
  print : ⟨.cJSON_Print json, some text⟩ ∈ past
  written : writtenSince path past = some n
  disk : diskAfter D past path = some ((text ++ [0]).take n)

/-- Where the writing of a document to the keystore at `path` may have stopped. -/
inductive LeftOff (D : Disk) (path : Bytes) (document : Option Json) (past : List CallEvent) : Prop
  | untouched (h : Untouched D path past)
  | begun {json : Json} {text : Bytes} {n : ℕ} (hdocument : document = some json)
    (h : Begun D path json past text n)

section

variable {D : Disk} {path : Bytes} {s : Thread OneDriveConnect} {past : List CallEvent}

/-- An event that neither empties the file nor writes to it. -/
theorem Untouched.concat {e : CallEvent} (h : Untouched D path past)
    (he : e.written path none = none) (hstep : diskStep (diskAfter D past) e = diskAfter D past) :
    Untouched D path (past ++ [e]) := by
  constructor
  · rw [writtenSince_concat, h.written, he]
  · rw [diskAfter_append, diskAfter_cons, diskAfter_nil, hstep, h.disk]

/-- The file has been emptied. -/
theorem Begun.emptied {json : Json} {text : Bytes}
    (hprint : ⟨.cJSON_Print json, some text⟩ ∈ past) :
    Begun D path json (past ++ [⟨.openFile path .writeTruncate, .ok ()⟩]) text 0 := by
  refine ⟨List.mem_append_left _ hprint, ?_, ?_⟩
  · rw [writtenSince_concat]
    exact if_pos rfl
  · rw [diskAfter_append]
    exact Function.update_self ..

theorem Begun.errno {json : Json} {text : Bytes} {n : ℕ} (h : Begun D path json past text n)
    (err : ℤ) : Begun D path json (past ++ [⟨.errno, err⟩]) text n := by
  refine ⟨List.mem_append_left _ h.print, ?_, ?_⟩
  · rw [writtenSince_concat]
    exact h.written
  · rw [diskAfter_append]
    exact h.disk

/-- A part of the text has been written to it, or nothing. -/
theorem Begun.wrote {json : Json} {text : Bytes} (h : Begun D path json past text 0) (count : ℕ)
    (written : Except ℤ ℕ) :
    ∃ n, Begun D path json
      (past ++ [⟨.write path ((text ++ [0]).take count), written⟩]) text n := by
  match written with
  | .error e =>
    refine ⟨0, List.mem_append_left _ h.print, ?_, ?_⟩
    · rw [writtenSince_concat]
      exact h.written
    · rw [diskAfter_append]
      exact h.disk
  | .ok k =>
    refine ⟨0 + min k ((text ++ [0]).take count).length, List.mem_append_left _ h.print, ?_, ?_⟩
    · rw [writtenSince_concat, h.written]
      exact if_pos rfl
    · rw [diskAfter_append, diskAfter_cons, diskAfter_nil]
      refine (Function.update_self ..).trans (congrArg some ?_)
      rw [h.disk, zero_add]
      simp only [List.take_zero, Option.getD_some, List.nil_append]
      rw [List.take_take, List.length_take, List.take_eq_take_iff]
      omega

/-- A writeback that is stopped anywhere has left the file off at some point. -/
private theorem oauthWriteback_stopped {json : Json} (hpath : s.conn.keystorePath = path)
    (h : Untouched D path past) :
    Script.wpc record (LeftOff D path (some json)) (oauthWriteback json)
      (fun _ _ past' => LeftOff D path (some json) past') s past := by
  subst hpath
  unfold oauthWriteback
  simp only [Script.wpc_bind, Script.wpc_ask]
  refine ⟨.untouched h, ?_⟩
  rintro text past₁ rfl
  have hprinted : Untouched D s.conn.keystorePath (past ++ [⟨.cJSON_Print json, text⟩]) :=
    h.concat rfl rfl
  refine ⟨.untouched hprinted, ?_⟩
  -- nothing to write: the document could not be printed, or its text is empty
  rcases text with _ | _ | ⟨b, text⟩
  · exact ⟨.untouched hprinted, .untouched hprinted⟩
  · exact ⟨.untouched hprinted, .untouched hprinted⟩
  simp only [Script.wpc_bind, Script.wpc_get, Script.wpc_ask]
  refine ⟨.untouched hprinted, .untouched hprinted, ?_⟩
  rintro opened past₂ rfl
  rcases opened with e | _
  · have hclosed := hprinted.concat (e := ⟨.openFile s.conn.keystorePath .writeTruncate, .error e⟩)
      rfl rfl
    exact ⟨.untouched hclosed, .untouched hclosed, .untouched hclosed⟩
  -- `O_TRUNC` has emptied the file, whatever follows
  have hempty : Begun D s.conn.keystorePath json _ (b :: text) 0 :=
    .emptied (List.mem_append_right past (List.mem_singleton_self _))
  refine ⟨.begun rfl hempty, ?_⟩
  simp only [Script.wpc_bind, Script.wpc_ask]
  refine ⟨.begun rfl hempty, ?_⟩
  rintro written past₃ rfl
  obtain ⟨n, hn⟩ := hempty.wrote (toInt (toInt (b :: text).length + 1)).toNat written
  refine ⟨.begun rfl hn, ?_⟩
  simp only [Script.wpc_bind, Script.wpc_ask, Script.wpc_ite, Script.wpc_pure]
  refine ⟨fun _ => ⟨.begun rfl hn, ?_⟩, fun _ => ⟨.begun rfl hn, .begun rfl hn⟩⟩
  rintro err past₄ rfl
  have hafter : LeftOff D s.conn.keystorePath (some json) (_ ++ [⟨.errno, err⟩]) :=
    .begun rfl (hn.errno err)
  exact ⟨hafter, hafter, hafter⟩

/-- Wherever the writing of the keystore stops, the file holds what it held, or what has been
written of the new text. -/
private theorem writebackTokens_stopped (hstop : (writebackTokens s).Interrupted record [] past) :
    LeftOff D s.conn.keystorePath s.conn.token.document past := by
  have hstart : Untouched D s.conn.keystorePath [] := ⟨rfl, rfl⟩
  have hwpc : Script.wpc record (LeftOff D s.conn.keystorePath s.conn.token.document)
      writebackTokens (fun _ _ _ => True) s [] := by
    unfold writebackTokens
    simp only [Script.wpc_bind, Script.wpc_get, Script.wpc_pure, Script.wpc_ask, Script.wpc_ite]
    refine ⟨.untouched hstart, .untouched hstart, .untouched hstart, ?_⟩
    rintro created past₁ rfl
    have hcreated : Untouched D s.conn.keystorePath ([] ++ [⟨.cJSON_CreateObject, created⟩]) :=
      hstart.concat rfl rfl
    refine ⟨.untouched hcreated, fun _ => ⟨.untouched hcreated, trivial⟩, fun _ => ?_⟩
    obtain ⟨⟨⟨_, _, _, _, _, tokenType, accessToken, refreshToken, _⟩, _⟩, _⟩ := s
    rcases tokenType with _ | tokenType
    · simp only [Script.wpc_bind, Script.wpc_pure, and_true]
      exact oauthWriteback_stopped rfl hcreated
    rcases accessToken with _ | accessToken
    · exact .untouched hcreated
    rcases refreshToken with _ | refreshToken
    · exact .untouched hcreated
    simp only [Script.wpc_bind, Script.wpc_pure, and_true]
    exact oauthWriteback_stopped rfl hcreated
  exact hwpc.of_interrupted hstop

end

/-! ### The next connection -/

/-- The keystore holds what has been written for the token state `previous`, to the end; or there is
none. -/
def HoldsPrevious (print : Json → Bytes) (previous : Option OAuthToken) (content : Option Bytes) :
    Prop :=
  match previous with
  | none => content = none
  | some t => ∃ json, t.document = some json ∧ content = some (print json ++ [0])

/-- The keystore of a connection held `previous`, and the writing of its token state has stopped
after `past`; the texts are those that cJSON prints. -/
structure WritebackStops (print : Json → Bytes) (parse : Bytes → Option Json) (D : Disk)
    (previous : Option OAuthToken) (s : Thread OneDriveConnect) (past : List CallEvent) : Prop where
  stops : (writebackTokens s).Interrupted record [] past
  holds : HoldsPrevious print previous (D s.conn.keystorePath)
  prints : ∀ json text, ⟨.cJSON_Print json, some text⟩ ∈ past → text = print json
  printsBack : ∀ t, previous = some t ∨ s.conn.token = t → ∀ json ∈ t.document,
    PrintsBack print parse json

/-- The point at which the writing has stopped does no harm. If the file was not emptied, what it
held must have fitted the buffer; if it was, the whole text must have been written, and fit. -/
def HarmlessStop (print : Json → Bytes) (previous : Option OAuthToken) (t : OAuthToken) :
    Option ℕ → Prop
  | none => ∀ t' ∈ previous, ∀ json ∈ t'.document, (print json).length < keystoreBufferSize
  | some n => ∀ json ∈ t.document,
    (print json).length ≤ n ∧ (print json).length < keystoreBufferSize

/-- The next connection of the same client restores the previous or the new tokens, or begins a
fresh authorisation, exactly when the writing stopped at a harmless point. -/
theorem writeback_reconnects_iff {print : Json → Bytes} {parse : Bytes → Option Json} {D : Disk}
    {previous : Option OAuthToken} {s : Thread OneDriveConnect} {past : List CallEvent}
    {dataLocation redirectUrl scope : Bytes} {options : OneDriveConnectOptions}
    (hstop : WritebackStops print parse D previous s past)
    (hpath : keystorePathOf dataLocation = some s.conn.keystorePath)
    (hoptions : options.valid? = some (s.conn.token.clientId, redirectUrl, scope)) :
    Reconnects parse (fun t => previous = some t ∨ s.conn.token = t) s.conn.keystorePath
        (diskAfter D past s.conn.keystorePath) dataLocation options ↔
      HarmlessStop print previous s.conn.token (writtenSince s.conn.keystorePath past) := by
  obtain ⟨hstops, hprevious, hprints, hback⟩ := hstop
  -- a text of a document that is stored, with its terminator, and perhaps cut off
  have reconnects {t : OAuthToken} {json : Json} (n : ℕ)
      (ht : previous = some t ∨ s.conn.token = t) (hdocument : t.document = some json) :
      Reconnects parse (fun t => previous = some t ∨ s.conn.token = t) s.conn.keystorePath
          (some ((print json ++ [0]).take n)) dataLocation options ↔
        (print json).length ≤ n ∧ (print json).length < keystoreBufferSize := by
    have hread := keystoreIn_take (hback t ht json hdocument) n
    rw [onedriveClientConnect_reopens_iff ?_ hoptions hpath]
    · simp only [Option.mem_some_iff, forall_eq', hread]
      split <;> simp [*]
    · rintro _ ⟨⟩ json' hjson'
      rw [hread] at hjson'
      split at hjson'
      · obtain rfl := Option.some.inj hjson'
        exact ⟨t, ht, hdocument⟩
      · cases hjson'
  rcases writebackTokens_stopped (D := D) hstops with ⟨hwritten, hdisk⟩ | ⟨hdocument, hbegun⟩
  · rw [hwritten, hdisk]
    match previous, hprevious with
    | none, hprevious =>
      rw [show D s.conn.keystorePath = none from hprevious]
      rw [onedriveClientConnect_reopens_iff ?_ hoptions hpath]
      · simp [HarmlessStop]
      · simp
    | some t, ⟨json, hdocument, hcontent⟩ =>
      have hfull : print json ++ [0] = (print json ++ [0]).take ((print json).length + 1) :=
        (List.take_of_length_le (by simp)).symm
      rw [hcontent, hfull, reconnects _ (.inl rfl) hdocument]
      simp [HarmlessStop, hdocument]
  · obtain ⟨hprint, hwritten, hdisk⟩ := hbegun
    obtain rfl := hprints _ _ hprint
    rw [hwritten, hdisk, reconnects _ (.inr rfl) hdocument]
    simp [HarmlessStop, hdocument]

/-! ### A process that ends between the two calls -/

/-- A connection that holds tokens. -/
def tokenHolder : Thread OneDriveConnect where
  conn := {
    token := {
      authorizeUrl := AUTHORIZE_URL
      tokenUrl := TOKEN_URL
      clientId := ascii "client"
      scope := ascii "Files.ReadWrite.AppFolder"
      redirectUrl := ascii "http://localhost:12345"
      tokenType := some (ascii "t")
      accessToken := some (ascii "a")
      refreshToken := some (ascii "r") }
    keystorePath := ascii "/d/.data/onedrive.json" }
  hiveError := 0

/-- Its document. -/
def heldTokens : Json := keystoreTokens (ascii "client") (ascii "t") (ascii "a") (ascii "r") 0

/-- The text of its document. -/
def heldText : Bytes :=
  ascii ("\x7b\"client_id\":\"client\",\"token_type\":\"t\",\"access_token\":\"a\"," ++
    "\"refresh_token\":\"r\",\"expires_at\":0\x7d")

/-- The parser that knows this text alone. -/
def parseHeld (text : Bytes) : Option Json := if text = heldText then some heldTokens else none

private theorem printsBack_held : PrintsBack (fun _ => heldText) parseHeld heldTokens where
  nonempty := by decide
  string := by decide
  whole := if_pos rfl
  cut n hn := if_neg fun htake => by
    have hlength := congrArg List.length htake
    rw [List.length_take] at hlength
    omega

/-- The events of the writing of these tokens, up to the opening of the file. -/
def heldOpened : List CallEvent :=
  [⟨.cJSON_CreateObject, true⟩, ⟨.cJSON_Print heldTokens, some heldText⟩,
    ⟨.openFile (ascii "/d/.data/onedrive.json") .writeTruncate, .ok ()⟩]

/-- A disk with the keystore of these tokens. -/
def heldDisk : Disk :=
  Function.update (fun _ => none) (ascii "/d/.data/onedrive.json") (some (heldText ++ [0]))

/-- The options of the same client. -/
def holderOptions : OneDriveConnectOptions where
  clientId := some (ascii "client")
  scope := some (ascii "Files.ReadWrite.AppFolder")
  redirectUrl := some (ascii "http://localhost:12345")
  callback := true
  backendType := true

private theorem writebackStops_held {past : List CallEvent}
    (hstops : (writebackTokens tokenHolder).Interrupted record [] past)
    (hprints : ∀ json text, ⟨.cJSON_Print json, some text⟩ ∈ past → text = heldText) :
    WritebackStops (fun _ => heldText) parseHeld heldDisk (some tokenHolder.conn.token) tokenHolder
      past where
  stops := hstops
  holds := ⟨heldTokens, rfl, Function.update_self ..⟩
  prints := hprints
  printsBack := by
    rintro t (ht | rfl) json hjson
    · obtain rfl := Option.some.inj ht
      obtain rfl := Option.some.inj hjson
      exact printsBack_held
    · obtain rfl := Option.some.inj hjson
      exact printsBack_held

/-- The text of these tokens is written, but for its terminator. -/
theorem writeback_reconnects_iff_unterminated :
    Reconnects parseHeld
        (fun t => some tokenHolder.conn.token = some t ∨ tokenHolder.conn.token = t)
        tokenHolder.conn.keystorePath
        (diskAfter heldDisk (heldOpened ++ [⟨.write (ascii "/d/.data/onedrive.json")
          (heldText ++ [0]), .ok heldText.length⟩]) tokenHolder.conn.keystorePath)
        (ascii "/d") holderOptions ↔
      HarmlessStop (fun _ => heldText) (some tokenHolder.conn.token) tokenHolder.conn.token
        (some heldText.length) :=
  writeback_reconnects_iff (writebackStops_held
    (.ask (r := true) rfl (.ask (r := some heldText) rfl (.ask (r := .ok ()) rfl
      (.ask (r := .ok heldText.length) rfl (.here _ _))))) (by simp [heldOpened])) rfl rfl

/-- The process ends when the file has been opened, and the user is locked out. -/
theorem writeback_lockedOut :
    WritebackStops (fun _ => heldText) parseHeld heldDisk (some tokenHolder.conn.token) tokenHolder
      heldOpened ∧
    ¬Reconnects parseHeld
      (fun t => some tokenHolder.conn.token = some t ∨ tokenHolder.conn.token = t)
      tokenHolder.conn.keystorePath (diskAfter heldDisk heldOpened tokenHolder.conn.keystorePath)
      (ascii "/d") holderOptions := by
  have hempty : diskAfter heldDisk heldOpened tokenHolder.conn.keystorePath = some [] := by
    simp [heldOpened, diskStep, tokenHolder]
  refine ⟨writebackStops_held (.ask (r := true) rfl (.ask (r := some heldText) rfl
    (.ask (r := .ok ()) rfl (.here _ _)))) (by simp [heldOpened]), fun hall => ?_⟩
  obtain ⟨tr, o, hex, htr, hnot⟩ := @onedriveClientConnect_refuses parseHeld _ []
    tokenHolder.conn.keystorePath idleThread (ascii "/d") _ _ _ holderOptions rfl rfl rfl
  exact hnot (hall idleThread tr o hex (hempty ▸ htr))

end HiveSDK
