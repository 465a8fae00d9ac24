import HiveSDK.Interaction.Interrupted
import HiveSDK.Token.Connect
import Mathlib.Data.List.TakeWhile

/-!
# Reading the keystore

What `onedrive_client_connect` makes of a keystore with a given content. A file that is missing
leads to a fresh authorisation; one that is empty, longer than the buffer it is read into, or no
JSON text is an error, and no connection is made (`onedriveClientConnect_reopens_iff`).

The texts that are written and read are cJSON's: what it prints for a document is read back as that
document, and nothing cut off of it is the text of an object.
-/

namespace HiveSDK

open Interaction C

/-! ### Documents -/

/-- The object `writeback_tokens` builds from a token. -/
def OAuthToken.document (t : OAuthToken) : Option Json :=
  match t.tokenType, t.accessToken, t.refreshToken with
  | none, _, _ => some (.object [(ascii "client_id", .string t.clientId)])
  | some tokenType, some accessToken, some refreshToken =>
    some (keystoreTokens t.clientId tokenType accessToken refreshToken t.expiresAt.sec)
  | some _, _, _ => none

/-- What is documented of cJSON, for one object: its text is a string and not empty, and is read
back; and a text that is cut off is no JSON text. -/
structure PrintsBack (print : Json → Bytes) (parse : Bytes → Option Json) (json : Json) : Prop where
  nonempty : print json ≠ []
  string : 0 ∉ print json
  whole : parse (print json) = some json
  cut : ∀ n < (print json).length, parse ((print json).take n) = none

/-- The document that is read from a keystore with the content `c`. -/
def keystoreIn (parse : Bytes → Option Json) (c : Bytes) : Option Json :=
  if c = [] ∨ keystoreBufferSize < c.length ∨ (c.length = keystoreBufferSize ∧ 0 ∉ c) then none
  else parse (cString c)

/-- Without a zero byte the string is the whole. -/
theorem cString_of_notMem {c : Bytes} (h : 0 ∉ c) : cString c = c := by
  refine List.takeWhile_eq_self_iff.mpr fun b hb => ?_
  rw [decide_eq_true_eq]
  rintro rfl
  exact h hb

/-- With one it ends there. -/
theorem cString_append_zero {c rest : Bytes} (h : 0 ∉ c) : cString (c ++ 0 :: rest) = c := by
  unfold cString
  rw [List.takeWhile_append_of_pos]
  · rw [List.takeWhile_cons_of_neg (by simp), List.append_nil]
  · intro b hb
    rw [decide_eq_true_eq]
    rintro rfl
    exact h hb

/-- Of a text with its terminator, cut off anywhere, the document is read when the text is there as
a whole and fits the buffer with its terminator. -/
theorem keystoreIn_take {print : Json → Bytes} {parse : Bytes → Option Json} {json : Json}
    (hjson : PrintsBack print parse json) (n : ℕ) :
    keystoreIn parse ((print json ++ [0]).take n) =
      if (print json).length ≤ n ∧ (print json).length < keystoreBufferSize then some json
      else none := by
  obtain ⟨hnonempty, hstring, hwhole, hcut⟩ := hjson
  generalize print json = text at *
  have hpositive : 0 < text.length := List.length_pos_iff.mpr hnonempty
  unfold keystoreIn
  rcases lt_or_ge n text.length with hlt | hge
  · -- the text is cut off
    have htake : (text ++ [0]).take n = text.take n := List.take_append_of_le_length hlt.le
    have hclean : 0 ∉ text.take n := fun h => hstring (List.mem_of_mem_take h)
    rw [htake, cString_of_notMem hclean, hcut n hlt, ite_self,
      if_neg fun hfull => hlt.not_ge hfull.1]
  rcases hge.eq_or_lt with rfl | hlong
  · -- the text without its terminator: a full buffer is not read
    have hrefused : (text = [] ∨ keystoreBufferSize < text.length ∨
        text.length = keystoreBufferSize ∧ 0 ∉ text) ↔ ¬text.length < keystoreBufferSize := by
      simp only [hnonempty, hstring, not_false_eq_true, and_true, false_or, not_lt]
      exact le_iff_lt_or_eq'.symm
    rw [List.take_left, cString_of_notMem hstring, hwhole, if_congr hrefused rfl rfl]
    simp only [le_refl, true_and, ite_not]
  · have htake : (text ++ [0]).take n = text ++ [0] :=
      List.take_of_length_le (by simpa using Nat.succ_le_of_lt hlong)
    have hrefused : (text ++ [0] = [] ∨ keystoreBufferSize < (text ++ [0]).length ∨
        (text ++ [0]).length = keystoreBufferSize ∧ 0 ∉ text ++ [0]) ↔
        ¬text.length < keystoreBufferSize := by
      have hterminated : (0 : UInt8) ∈ text ++ [0] := by simp
      have hlength : (text ++ [0]).length = text.length + 1 := List.length_append
      have hne : text ++ [0] ≠ [] := by simp
      simp only [hne, hterminated, hlength, not_true_eq_false, and_false, or_false, false_or,
        not_lt]
      exact Nat.lt_succ_iff
    rw [htake, cString_append_zero hstring, hwhole, if_congr hrefused rfl rfl]
    simp only [hlong.le, true_and, ite_not]

/-! ### Finding the keystore -/

/-- The keystore at `path` has this content, and is read; and texts are parsed by `parse`. -/
def CallEvent.Faithful (parse : Bytes → Option Json) (path : Bytes) (content : Option Bytes) :
    CallEvent → Prop
  | ⟨.access p, found⟩ => p = path → found = content.isSome
  | ⟨.stat p, st⟩ => p = path → ∀ c ∈ content, st = .ok (.file c.length)
  | ⟨.openFile p .readOnly, opened⟩ => p = path → opened = .ok ()
  | ⟨.read p size, text⟩ => p = path → ∀ c ∈ content, text = .ok (c.take size)
  | ⟨.cJSON_Parse text, json⟩ => json = parse text
  | _ => True

section

variable {parse : Bytes → Option Json} {path : Bytes} {s : Thread OneDriveConnect}
  {past : List CallEvent}

/-- Without a keystore there is nothing to read. -/
private theorem findKeystore_missing :
    Script.wp (recordOnly (CallEvent.Faithful parse path none)) noFault (findKeystore path)
      (fun found s' _ => found = some none ∧ s' = s) s past := by
  unfold findKeystore
  simp only [Script.wp_bind, Script.wp_ask, Script.wp_ite, Script.wp_pure]
  rintro found past₁ ⟨-, hfound⟩
  obtain rfl : found = false := hfound rfl
  exact ⟨fun _ => ⟨trivial, trivial⟩, fun h => absurd rfl h⟩

/-- A keystore is read, or refused, or, when it fills the buffer, read past its end. -/
theorem findKeystore_reads {c : Bytes} :
    Script.wp (recordOnly (CallEvent.Faithful parse path (some c)))
      (fun _ _ => keystoreIn parse c = none) (findKeystore path)
      (fun found s' _ => match keystoreIn parse c with
        | some json => found = some (some json) ∧ s' = s
        | none => found = none) s past := by
  unfold findKeystore loadKeystoreInJson keystoreIn
  simp only [Script.wp_bind, Script.wp_ask, Script.wp_ite, Script.wp_pure]
  rintro found past₁ ⟨-, hfound⟩
  obtain rfl : found = true := hfound rfl
  refine ⟨fun h => absurd h (by decide), ?_⟩
  rintro _ st past₂ ⟨-, hst⟩
  obtain rfl : st = .ok (.file c.length) := hst rfl c rfl
  simp only [Script.wp_bind, Script.wp_ite, Script.wp_ask, Script.wp_pure, Script.wp_modify]
  refine ⟨fun hsize => ?_, ?_⟩
  · rw [if_pos (hsize.imp List.length_eq_zero_iff.mp .inl)]
    trivial
  rintro hsize opened past₃ ⟨-, hopened⟩
  obtain ⟨hnonempty, hfits⟩ := not_or.mp hsize
  obtain rfl : opened = .ok () := hopened rfl
  simp only [Script.wp_bind, Script.wp_ask]
  rintro text past₄ ⟨-, htext⟩
  obtain rfl : text = .ok c := (htext rfl c rfl).trans (by rw [List.take_length])
  simp only [Script.wp_bind, Script.wp_ite, Script.wp_ask, Script.wp_pure, Script.wp_fault]
  refine ⟨fun h => absurd rfl h, fun _ => ⟨fun hfull => if_pos (.inr (.inr hfull)), ?_⟩⟩
  rintro hroom json past₅ ⟨-, hjson⟩
  obtain rfl : json = parse (cString c) := hjson
  -- the length checks of the source are those of `keystoreIn`
  have hread : ¬(c = [] ∨ keystoreBufferSize < c.length ∨
      c.length = keystoreBufferSize ∧ 0 ∉ c) := by
    rintro (rfl | hlong | hfull)
    · exact hnonempty rfl
    · exact hfits hlong
    · exact hroom hfull
  rw [if_neg hread]
  cases parse (cString c) with
  | none => trivial
  | some json => exact ⟨rfl, rfl⟩

end

/-! ### Restoring the tokens -/

/-- The connection holds the token set of `t`, as a document holds it: the time of expiry in whole
seconds, as a `double`. -/
structure Restores (t t' : OAuthToken) : Prop where
  authorised : t.Authorised
  tokenType : t'.tokenType = t.tokenType
  accessToken : t'.accessToken = t.accessToken
  refreshToken : t'.refreshToken = t.refreshToken
  expiresAt : t'.expiresAt.sec = (longToDouble t.expiresAt.sec).toLong

/-- The names of the members of a document are found as they are written. -/
theorem getObjectItem_keystoreTokens (clientId tokenType accessToken refreshToken : Bytes)
    (expiresAt : ℤ) :
    let json := keystoreTokens clientId tokenType accessToken refreshToken expiresAt
    json.getObjectItem (ascii "client_id") = some (.string clientId) ∧
      json.getObjectItem (ascii "token_type") = some (.string tokenType) ∧
      json.getObjectItem (ascii "access_token") = some (.string accessToken) ∧
      json.getObjectItem (ascii "refresh_token") = some (.string refreshToken) ∧
      json.getObjectItem (ascii "expires_at") = some (.number (longToDouble expiresAt)) :=
  ⟨rfl, rfl, rfl, rfl, rfl⟩

section

variable {σ : Type} {h : Handler σ Call Call.Reply} {F : Fault → σ → Prop} {t : OAuthToken}
  {json : Json} {s : Thread OneDriveConnect} {w : σ}

/-- A new token stays without its strings, or all of them are those of the document. -/
private theorem restoreAccessToken_document (hdoc : t.document = some json)
    (hunset : s.conn.token.Unset) :
    Script.wp h F (restoreAccessToken (some json))
      (fun _ s' _ => s'.conn.token.Unset ∨ Restores t s'.conn.token) s w := by
  unfold restoreAccessToken
  simp only [Script.wp_bind, Script.wp_get, Script.wp_pure, Script.wp_ite]
  refine ⟨fun _ => .inl hunset, fun _ => ?_⟩
  obtain ⟨_, _, clientId, _, _, tokenType, accessToken, refreshToken, expiresAt⟩ := t
  rcases tokenType with _ | tokenType
  · obtain rfl := Option.some.inj hdoc
    exact .inl hunset
  rcases accessToken with _ | accessToken
  · cases hdoc
  rcases refreshToken with _ | refreshToken
  · cases hdoc
  obtain rfl := Option.some.inj hdoc
  obtain ⟨-, htype, haccess, hrefresh, hexpires⟩ :=
    getObjectItem_keystoreTokens clientId tokenType accessToken refreshToken expiresAt.sec
  dsimp only
  rw [htype, haccess, hrefresh, hexpires]
  simp only [Json.string?, Json.number?, Script.wp_bind, Script.wp_modify, Script.wp_ask,
    Script.wp_ite, Script.wp_pure]
  refine fun made w₁ _ => ⟨fun _ _ _ _ => .inl ?_, fun _ => .inr ?_⟩
  · exact ⟨hunset.tokenType, hunset.accessToken, hunset.refreshToken⟩
  · exact ⟨⟨rfl, rfl, rfl⟩, rfl, rfl, rfl, rfl⟩

end

/-- The token of a new connection: an allocation fails, and that is the end, or it is made from
the document. -/
private theorem oauthTokenNew_document {T : CallEvent → Prop} {Stored : OAuthToken → Prop}
    {store : Option Json} (hstore : ∀ json ∈ store, ∃ t, Stored t ∧ t.document = some json)
    {F : Fault → List CallEvent → Prop} (clientId scope redirectUrl : Bytes)
    {s : Thread OneDriveConnect} {past : List CallEvent} :
    Script.wp (recordOnly T) F (oauthTokenNew store clientId scope redirectUrl)
      (fun made s' past' => match made with
        | true => s'.conn.token.Unset ∨ ∃ t, Stored t ∧ Restores t s'.conn.token
        | false => ∃ size, past'.getLast? = some ⟨.malloc size, false⟩) s past := by
  unfold oauthTokenNew
  simp only [Script.wp_bind, Script.wp_ask, Script.wp_ite, Script.wp_modify, Script.wp_pure]
  rintro made past₁ ⟨rfl, -⟩
  constructor
  · intro hno
    obtain rfl : made = false := by simpa using hno
    exact ⟨_, List.getLast?_concat⟩
  · intro _
    cases store with
    | none => exact .inl ⟨rfl, rfl, rfl⟩
    | some json =>
      obtain ⟨t, ht, hdoc⟩ := hstore json rfl
      refine Script.wp_mono (restoreAccessToken_document hdoc ⟨rfl, rfl, rfl⟩) (fun _ _ h => h) ?_
      rintro _ s₁ past₂ (hunset | hrestores)
      · exact .inl hunset
      · exact .inr ⟨t, ht, hrestores⟩

/-! ### Connecting -/

/-- An authorisation has been begun. -/
def FreshStart (tr : List CallEvent) : Prop :=
  ∃ made, ⟨.httpClientNew .getAuthorizeCode, made⟩ ∈ tr

/-- A run of `onedrive_client_connect` that is not stopped by the keystore at `path`. -/
inductive Reopened (Stored : OAuthToken → Prop) (path : Bytes) (tr : List CallEvent) :
    Except Fault (Bool × Thread OneDriveConnect) → Prop
  /-- It fails before the keystore is looked for. -/
  | unread {s' : Thread OneDriveConnect} (h : ∀ found, ⟨.access path, found⟩ ∉ tr) :
    Reopened Stored path tr (.ok (false, s'))
  /-- The last thing that happens is an allocation that fails. -/
  | outOfMemory {s' : Thread OneDriveConnect} {size : ℕ}
    (h : tr.getLast? = some ⟨.malloc size, false⟩) : Reopened Stored path tr (.ok (false, s'))
  /-- The tokens are those of one of the token states stored. -/
  | restored {s' : Thread OneDriveConnect} {t : OAuthToken} (ht : Stored t)
    (h : Restores t s'.conn.token) : Reopened Stored path tr (.ok (true, s'))
  /-- It goes on to ask the user for an authorisation. -/
  | fresh {o : Except Fault (Bool × Thread OneDriveConnect)} (h : FreshStart tr) :
    Reopened Stored path tr o

section

variable {T : CallEvent → Prop} {s : Thread OneDriveConnect} {past : List CallEvent}

private theorem freshStart_keeps {α : Type} {p : Program Call Call.Reply Fault α}
    (h : FreshStart past) :
    p.wp (recordOnly T) (fun _ => FreshStart) (fun _ => FreshStart) past := by
  obtain ⟨made, hmade⟩ := h
  exact Program.wp_mono (fun _ _ h => ⟨made, h⟩) (fun _ _ h => ⟨made, h⟩)
    (Program.wp_recordOnly (Program.wp_record_keeps hmade))

/-- Without an access token an authorisation is begun. -/
private theorem oauthTokenRequest_fresh (hnone : s.conn.token.accessToken = none) :
    Script.wp (recordOnly T) (fun _ => FreshStart) oauthTokenRequest (fun _ _ => FreshStart) s
      past := by
  have hrequest : Script.wp (recordOnly T) (fun _ => FreshStart) getAuthorizeCode
      (fun _ _ => FreshStart) s past := by
    obtain ⟨k, hk⟩ : ∃ k, getAuthorizeCode s = .ask (.httpClientNew .getAuthorizeCode) k :=
      ⟨_, rfl⟩
    unfold Script.wp
    rw [hk]
    rintro made past₁ ⟨rfl, -⟩
    exact freshStart_keeps ⟨made, List.mem_append_right _ (List.mem_singleton_self _)⟩
  unfold oauthTokenRequest
  simp only [Script.wp_bind, Script.wp_get, Script.wp_pure, Script.wp_ite]
  rw [hnone]
  refine ⟨fun h => absurd h (by decide), fun _ => ?_⟩
  exact Script.wp_mono hrequest (fun _ _ h => h) fun _ _ _ h => freshStart_keeps h

end

section

variable {parse : Bytes → Option Json} {Stored : OAuthToken → Prop} {content : Option Bytes}
  {s : Thread OneDriveConnect} {past : List CallEvent}

/-- A keystore that is missing, or from which a document is read that is stored. -/
structure Readable (parse : Bytes → Option Json) (Stored : OAuthToken → Prop)
    (content : Option Bytes) : Prop where
  isSome : ∀ c ∈ content, (keystoreIn parse c).isSome
  stored : ∀ c ∈ content, ∀ json ∈ keystoreIn parse c, ∃ t, Stored t ∧ t.document = some json

/-- A keystore that can be read is found as it was stored. -/
private theorem findKeystore_stored {path : Bytes} (hgood : Readable parse Stored content) :
    Script.wp (recordOnly (CallEvent.Faithful parse path content)) noFault (findKeystore path)
      (fun found s' _ => s' = s ∧ ∃ store, found = some store ∧
        ∀ json ∈ store, ∃ t, Stored t ∧ t.document = some json) s past := by
  match content, hgood with
  | none, _ =>
    refine Script.wp_mono findKeystore_missing (fun _ _ h => h) ?_
    rintro _ _ past₁ ⟨rfl, rfl⟩
    exact ⟨rfl, none, rfl, nofun⟩
  | some c, hgood =>
    obtain ⟨json, hjson⟩ := Option.isSome_iff_exists.mp (hgood.isSome c rfl)
    refine Script.wp_mono findKeystore_reads (fun _ _ h => ?_) ?_
    · rw [hjson] at h
      cases h
    · intro found s₁ past₁ hfound
      rw [hjson] at hfound
      refine ⟨hfound.2, some json, hfound.1, ?_⟩
      rintro _ ⟨⟩
      exact hgood.stored c rfl json hjson

/-- A connection is not stopped by a keystore from which a document is read. -/
private theorem connectWithKeystore_reopens {path : Bytes} (hgood : Readable parse Stored content)
    (clientId redirectUrl scope : Bytes) :
    Script.wp (recordOnly (CallEvent.Faithful parse path content))
      (fun e past' => Reopened Stored path past' (.error e))
      (connectWithKeystore path clientId redirectUrl scope)
      (fun handed s' past' => Reopened Stored path past' (.ok (handed, s'))) s past := by
  unfold connectWithKeystore
  simp only [Script.wp_bind]
  refine Script.wp_mono (findKeystore_stored hgood) (fun _ _ h => h.elim) ?_
  rintro found s₁ past₁ ⟨rfl, store, rfl, hstore⟩
  simp only [Script.wp_bind, Script.wp_ite, Script.wp_pure]
  refine Script.wp_mono (oauthTokenNew_document hstore clientId scope redirectUrl)
    (fun _ _ h => h) ?_
  rintro (_ | _) s₂ past₂ hmade
  · obtain ⟨size, hlast⟩ := hmade
    exact ⟨fun _ => .outOfMemory hlast, fun h => absurd rfl h⟩
  · refine ⟨fun h => absurd h (by decide), fun _ => ?_⟩
    rcases hmade with hunset | ⟨t, ht, hrestores⟩
    · refine Script.wp_mono (oauthTokenRequest_fresh hunset.accessToken) (fun _ _ h => .fresh h) ?_
      exact fun rc s₃ past₃ hfresh => ⟨fun _ => .fresh hfresh, fun _ => .fresh hfresh⟩
    · have hsome : s₂.conn.token.accessToken.isSome := by
        rw [hrestores.accessToken]
        exact hrestores.authorised.accessToken
      unfold oauthTokenRequest
      simp only [Script.wp_bind, Script.wp_get, Script.wp_pure, Script.wp_ite]
      refine ⟨fun _ => ⟨fun h => absurd h (lt_irrefl 0), fun _ => .restored ht hrestores⟩, ?_⟩
      exact fun hno => absurd hsome hno

/-- So is `onedrive_client_connect`. -/
private theorem onedriveClientConnect_reopens {path dataLocation : Bytes}
    {options : OneDriveConnectOptions} (hgood : Readable parse Stored content)
    (hpath : keystorePathOf dataLocation = some path) :
    Script.wp (recordOnly (CallEvent.Faithful parse path content))
      (fun e past' => Reopened Stored path past' (.error e))
      (onedriveClientConnect dataLocation options)
      (fun handed s' past' => Reopened Stored path past' (.ok (handed, s'))) s [] := by
  unfold onedriveClientConnect
  split
  · simp only [Script.wp_bind, Script.wp_modify, Script.wp_pure]
    exact .unread fun _ => List.not_mem_nil
  simp only [Script.wp_bind, Script.wp_ask, Script.wp_ite, Script.wp_modify, Script.wp_pure]
  rintro made past₁ ⟨rfl, -⟩
  refine ⟨fun _ => .unread fun _ => by simp, fun _ => ?_⟩
  rw [hpath]
  simp only [Script.wp_bind, Script.wp_modify]
  refine Script.wp_mono (Script.wp_recordOnly_within (mkdirs_directories _) (mkdirs_spec _)) ?_ ?_
  · exact fun _ _ h => h.2.1.elim
  rintro made' s₂ past₂ ⟨rfl, new, rfl, hnew⟩
  cases made' with
  | ok _ => exact connectWithKeystore_reopens hgood _ _ _
  | error e =>
    simp only [Script.wp_ite, Script.wp_bind, Script.wp_modify, Script.wp_pure]
    refine ⟨fun _ => .unread fun found hmem => ?_, fun _ => connectWithKeystore_reopens hgood _ _ _⟩
    rcases List.mem_append.mp hmem with h | h
    · simp at h
    · exact hnew _ h

end

/-! ### A keystore that is refused -/

section

variable {T : CallEvent → Prop} {F : Fault → List CallEvent → Prop} {past : List CallEvent}

/-- If they may all exist, no directory need be made. -/
theorem mkdirInternal_reaches {C : Type} {s : Thread C} {p : Bytes}
    (hT : T ⟨.stat p, .ok .directory⟩) :
    Script.reaches (recordOnly T) F (mkdirInternal p) (fun made s' _ => made = .ok () ∧ s' = s) s
      past := by
  unfold mkdirInternal
  simp only [Script.reaches_bind, Script.reaches_ask]
  exact ⟨.ok .directory, _, ⟨rfl, hT⟩, rfl, rfl⟩

theorem mkdirsLoop_reaches {C : Type} {s : Thread C} {n : ℕ}
    (hT : ∀ p : Bytes, p.length ≤ n → T ⟨.stat p, .ok .directory⟩) (done component rest : Bytes)
    (hlength : done.length + component.length + rest.length ≤ n) :
    Script.reaches (recordOnly T) F (mkdirsLoop done component rest)
      (fun made s' _ => made = .ok () ∧ s' = s) s past := by
  induction rest generalizing done component past with
  | nil => exact ⟨rfl, rfl⟩
  | cons c rest ih =>
    rw [List.length_cons] at hlength
    unfold mkdirsLoop
    simp only [Script.reaches_ite, Script.reaches_bind]
    refine ⟨fun _ => ih _ _ ?_, fun _ => ⟨fun _ => ih _ _ ?_, fun _ => ?_⟩⟩
    · simp only [List.length_append, List.length_singleton]
      omega
    · simp only [List.length_append, List.length_singleton, List.length_nil]
      omega
    · have hexists : T ⟨.stat (done ++ component), .ok .directory⟩ :=
        hT _ (by rw [List.length_append]; omega)
      refine Script.reaches_mono (mkdirInternal_reaches hexists) (fun _ _ h => h) ?_
      rintro _ _ past₁ ⟨rfl, rfl⟩
      refine ih _ _ ?_
      simp only [List.length_append, List.length_singleton, List.length_nil]
      omega

/-- The directories of the keystore may all be there. -/
theorem mkdirs_reaches {C : Type} {s : Thread C} {path : Bytes}
    (hT : ∀ p : Bytes, p.length ≤ path.length → T ⟨.stat p, .ok .directory⟩) :
    Script.reaches (recordOnly T) F (mkdirs path) (fun made s' _ => made = .ok () ∧ s' = s) s
      past := by
  unfold mkdirs
  simp only [Script.reaches_bind]
  refine Script.reaches_mono (mkdirsLoop_reaches hT [] [] _ ?_) (fun _ _ h => h) ?_
  · simp
  · rintro _ _ past₁ ⟨rfl, rfl⟩
    exact mkdirInternal_reaches (hT path le_rfl)

end

/-- The directory of the keystore. -/
private theorem dirname_keystorePath (dataLocation : Bytes) :
    dirname (dataLocation ++ ascii "/.data/onedrive.json") = dataLocation ++ ascii "/.data" := by
  have htrim : dropTrailingSlashes (dataLocation ++ ascii "/.data/onedrive.json") =
      dataLocation ++ ascii "/.data/onedrive.json" := by
    have hkeep : (dataLocation ++ ascii "/.data/onedrive.json").reverse.dropWhile (· = 47) =
        (dataLocation ++ ascii "/.data/onedrive.json").reverse := by
      rw [List.reverse_append]
      rfl
    rw [dropTrailingSlashes, hkeep, List.reverse_reverse]
  have hbase : (dataLocation ++ ascii "/.data/onedrive.json").reverse.dropWhile (· ≠ 47) =
      (dataLocation ++ ascii "/.data/").reverse := by
    rw [List.reverse_append, List.reverse_append]
    rfl
  have hdir : dropTrailingSlashes (dataLocation ++ ascii "/.data/") =
      dataLocation ++ ascii "/.data" := by
    have hdrop : (dataLocation ++ ascii "/.data/").reverse.dropWhile (· = 47) =
        (dataLocation ++ ascii "/.data").reverse := by
      rw [List.reverse_append, List.reverse_append]
      rfl
    rw [dropTrailingSlashes, hdrop, List.reverse_reverse]
  have hslash : (47 : UInt8) ∈ dataLocation ++ ascii "/.data/onedrive.json" :=
    List.mem_append_right _ (by decide)
  unfold dirname
  rw [htrim]
  dsimp only
  rw [hbase, List.reverse_reverse, hdir, if_neg (by simp [ascii]), if_neg (not_not.mpr hslash),
    if_neg (by simp [ascii])]

theorem length_dirname_keystorePath {dataLocation path : Bytes}
    (hpath : keystorePathOf dataLocation = some path) : (dirname path).length < path.length := by
  unfold keystorePathOf at hpath
  dsimp only at hpath
  split at hpath
  · obtain rfl := Option.some.inj hpath
    rw [dirname_keystorePath, List.length_append, List.length_append]
    exact Nat.add_lt_add_left (by decide) _
  · cases hpath

section

variable {parse : Bytes → Option Json} {Stored : OAuthToken → Prop} {c path : Bytes}
  {s : Thread OneDriveConnect} {past : List CallEvent}

/-- Nothing else goes wrong, and no authorisation is begun. -/
def CallEvent.Smooth : CallEvent → Prop
  | ⟨.malloc _, made⟩ => made = true
  | ⟨.httpClientNew _, _⟩ => False
  | _ => True

/-- An event of a run that only the keystore at `path`, with the content `c`, can stop. -/
def CallEvent.Undisturbed (parse : Bytes → Option Json) (path c : Bytes) (e : CallEvent) : Prop :=
  e.Faithful parse path (some c) ∧ e.Smooth

/-- The keystore at `path` has been looked for. -/
def LookedFor (path : Bytes) (past : List CallEvent) : Prop := ∃ found, ⟨.access path, found⟩ ∈ past

/-- A keystore that cannot be read is refused. -/
private theorem findKeystore_refuses (hbad : keystoreIn parse c = none) :
    Script.reaches (recordOnly (CallEvent.Undisturbed parse path c))
      (fun _ => LookedFor path) (findKeystore path)
      (fun found _ past' => found = none ∧ LookedFor path past') s past := by
  have hlooked {past' : List CallEvent} (h : past ++ [⟨.access path, true⟩] <+: past') :
      LookedFor path past' :=
    ⟨true, h.subset (List.mem_append_right _ (List.mem_singleton_self _))⟩
  unfold findKeystore loadKeystoreInJson
  simp only [Script.reaches_bind, Script.reaches_ask, Script.reaches_ite, Script.reaches_pure]
  refine ⟨true, _, ⟨rfl, fun _ => rfl, trivial⟩, fun h => absurd h (by decide), fun _ => ?_⟩
  refine ⟨.ok (.file c.length), _, ⟨rfl, ?_, trivial⟩, ?_⟩
  · rintro _ _ ⟨⟩
    rfl
  simp only [Script.reaches_bind, Script.reaches_ask, Script.reaches_ite, Script.reaches_pure,
    Script.reaches_modify]
  refine ⟨fun _ => ⟨trivial, hlooked (List.prefix_append _ _)⟩, fun hsize => ?_⟩
  refine ⟨.ok (), _, ⟨rfl, fun _ => rfl, trivial⟩, ?_⟩
  simp only [Script.reaches_bind, Script.reaches_ask]
  refine ⟨.ok c, _, ⟨rfl, ?_, trivial⟩, ?_⟩
  · rintro _ _ ⟨⟩
    rw [List.take_length]
  simp only [Script.reaches_bind, Script.reaches_ask, Script.reaches_ite, Script.reaches_pure,
    Script.reaches_fault]
  refine ⟨fun h => absurd rfl h, fun _ => ⟨fun _ => hlooked ?_, fun hroom => ?_⟩⟩
  · simp only [List.append_assoc, List.prefix_append_right_inj]
    exact List.prefix_append _ _
  -- a text is read, and it is none
  have hnone : parse (cString c) = none := by
    unfold keystoreIn at hbad
    rwa [if_neg] at hbad
    rintro (rfl | hlong | hfull)
    · exact hsize (.inl rfl)
    · exact hsize (.inr hlong)
    · exact hroom hfull
  refine ⟨none, _, ⟨rfl, hnone.symm, trivial⟩, rfl, hlooked ?_⟩
  simp only [List.append_assoc, List.prefix_append_right_inj]
  exact List.prefix_append _ _

/-- A keystore from which no document is read stops a connection for which all else is in order. -/
theorem onedriveClientConnect_refuses {dataLocation clientId redirectUrl scope : Bytes}
    {options : OneDriveConnectOptions} (hbad : keystoreIn parse c = none)
    (hoptions : options.valid? = some (clientId, redirectUrl, scope))
    (hpath : keystorePathOf dataLocation = some path) :
    ∃ tr o, Program.Exec playback (onedriveClientConnect dataLocation options s) tr o [] ∧
      (∀ e ∈ tr, CallEvent.Faithful parse path (some c) e) ∧ ¬Reopened Stored path tr o := by
  have hreach : Script.reaches (recordOnly (CallEvent.Undisturbed parse path c))
      (fun _ => LookedFor path) (onedriveClientConnect dataLocation options)
      (fun handed _ past' => handed = false ∧ LookedFor path past') s [] := by
    unfold onedriveClientConnect connectWithKeystore
    rw [hoptions, hpath]
    simp only [Script.reaches_bind, Script.reaches_ask, Script.reaches_ite, Script.reaches_modify]
    refine ⟨true, _, ⟨rfl, trivial, rfl⟩, fun h => absurd h (by decide), fun _ => ?_⟩
    -- the directories are there already, so no step of `mkdirs` touches the keystore
    have hexists (p : Bytes) (hp : p.length ≤ (dirname path).length) :
        CallEvent.Undisturbed parse path c ⟨.stat p, .ok .directory⟩ := by
      refine ⟨?_, trivial⟩
      rintro rfl
      exact absurd hp (length_dirname_keystorePath hpath).not_ge
    refine Script.reaches_mono (mkdirs_reaches hexists) (fun _ _ h => h) ?_
    rintro _ s₁ past₁ ⟨rfl, -⟩
    simp only [Script.reaches_bind]
    refine Script.reaches_mono (findKeystore_refuses hbad) (fun _ _ h => h) ?_
    rintro _ s₂ past₂ ⟨rfl, hlooked⟩
    exact ⟨rfl, hlooked⟩
  obtain ⟨tr, o, hex, htr, hends⟩ := hreach.exists_playback_only
  refine ⟨tr, o, hex, fun e he => (htr e he).1, fun hreopened => ?_⟩
  have hlooked : LookedFor path tr := by
    cases o with
    | ok _ => exact hends.2
    | error _ => exact hends
  -- none of the four ways to have reopened it fits this run
  cases hreopened with
  | unread h =>
    obtain ⟨found, hfound⟩ := hlooked
    exact h found hfound
  | outOfMemory h => exact Bool.false_ne_true (htr _ (List.mem_of_getLast? h)).2
  | restored _ _ => exact Bool.false_ne_true hends.1.symm
  | fresh h =>
    obtain ⟨made, hmade⟩ := h
    exact (htr _ hmade).2

end

/-- No connection is stopped by a keystore at `path` with this content. -/
def Reconnects (parse : Bytes → Option Json) (Stored : OAuthToken → Prop) (path : Bytes)
    (content : Option Bytes) (dataLocation : Bytes) (options : OneDriveConnectOptions) : Prop :=
  ∀ s tr o, Program.Exec playback (onedriveClientConnect dataLocation options s) tr o [] →
    (∀ e ∈ tr, CallEvent.Faithful parse path content e) → Reopened Stored path tr o

/-- That is so exactly when there is none, or a document is read from it. -/
theorem onedriveClientConnect_reopens_iff {parse : Bytes → Option Json}
    {Stored : OAuthToken → Prop} {content : Option Bytes}
    {dataLocation path clientId redirectUrl scope : Bytes} {options : OneDriveConnectOptions}
    (hstored : ∀ c ∈ content, ∀ json ∈ keystoreIn parse c, ∃ t, Stored t ∧ t.document = some json)
    (hoptions : options.valid? = some (clientId, redirectUrl, scope))
    (hpath : keystorePathOf dataLocation = some path) :
    Reconnects parse Stored path content dataLocation options ↔
      ∀ c ∈ content, (keystoreIn parse c).isSome := by
  constructor
  · rintro hall c rfl
    by_contra hnone
    obtain ⟨tr, o, hex, htr, hnot⟩ := @onedriveClientConnect_refuses parse Stored c path idleThread
      _ _ _ _ _ (Option.not_isSome_iff_eq_none.mp hnone) hoptions hpath
    exact hnot (hall _ tr o hex htr)
  · intro hsome s tr o hex htr
    have hends := (onedriveClientConnect_reopens ⟨hsome, hstored⟩ hpath).of_playback_only hex htr
    match o, hends with
    | .ok _, hends => exact hends
    | .error _, hends => exact hends

end HiveSDK
