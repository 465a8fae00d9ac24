import HiveSDK.Http.Replies
import HiveSDK.Token.Connect

/-!
# Redeeming the code

When `redeem_access_token` succeeds. Seen from outside, a redeem is the client it asks for and
what comes after: it succeeds exactly when its request is answered with a complete token reply
and no allocation fails (`TokenDelivered`). Its errors are none of the two that the redirect
handler records, so the two can be told apart in `hive_error`.
-/

namespace HiveSDK

open Interaction C

/-! ### Two errors that only the redirect handler records -/

/-- The errors `handle_auth_redirect` records. -/
def RedirectError (e : ℤ) : Prop :=
  e = toInt (hiveGeneralError HIVEERR_BAD_ADDRESS) ∨
    e = toInt (hiveGeneralError HIVEERR_INVALID_CREDENTIAL)

/-- An error number as an `int`: `2 ^ 32` less. -/
private theorem toInt_hiveMkError {facility : ℕ} (hf : facility < 128) (code : ℤ) :
    toInt (hiveMkError facility code) = hiveMkError facility code - 2 ^ 32 :=
  toInt_eq_sub (le_hiveMkError _ _) (hiveMkError_lt hf _)

/-- The bits of the facility are set in the error, whatever the code. -/
private theorem hiveMkError_ne {facility k n : ℕ} (hk : facility.testBit k = true)
    (hn : n.testBit (24 + k) = false) (code : ℤ) : hiveMkError facility code ≠ n := by
  intro h
  rw [hiveMkError, Int.natCast_inj] at h
  rw [← h, Nat.testBit_or, Nat.testBit_or, Nat.testBit_shiftLeft, Nat.add_sub_cancel_left, hk] at hn
  simp at hn

private theorem hiveGeneralError_eq {code : ℕ} (hc : code < 2 ^ 24) :
    hiveGeneralError code = (2 ^ 31 + 1 * 2 ^ 24 + code : ℕ) :=
  hiveMkError_eq (by decide) hc

/-- The two errors that a redirect records. -/
private theorem redirectError_iff {e : ℤ} :
    RedirectError e ↔ e = (2164260885 : ℕ) - 2 ^ 32 ∨ e = (2164260870 : ℕ) - 2 ^ 32 := by
  have haddress : hiveGeneralError HIVEERR_BAD_ADDRESS = (2164260885 : ℕ) :=
    hiveGeneralError_eq (show 0x15 < 2 ^ 24 by decide)
  have hcredential : hiveGeneralError HIVEERR_INVALID_CREDENTIAL = (2164260870 : ℕ) :=
    hiveGeneralError_eq (show 0x06 < 2 ^ 24 by decide)
  unfold RedirectError
  rw [hiveGeneralError, toInt_hiveMkError (by decide), ← hiveGeneralError, haddress,
    hiveGeneralError, toInt_hiveMkError (by decide), ← hiveGeneralError, hcredential]

/-- Another facility with one of the bits 1 and 2. -/
private theorem not_redirectError_of_facility {facility : ℕ} (hf : facility < 128)
    (hbits : facility.testBit 1 = true ∨ facility.testBit 2 = true) (code : ℤ) :
    ¬RedirectError (toInt (hiveMkError facility code)) := by
  rw [redirectError_iff, toInt_hiveMkError hf]
  have hne (n : ℕ) (h₁ : n.testBit 25 = false) (h₂ : n.testBit 26 = false) :
      hiveMkError facility code ≠ n :=
    hbits.elim (fun h => hiveMkError_ne h h₁ code) fun h => hiveMkError_ne h h₂ code
  have haddress := hne 2164260885 (by decide) (by decide)
  have hcredential := hne 2164260870 (by decide) (by decide)
  omega

/-- Another code of the same facility. -/
private theorem not_redirectError_of_code {code : ℕ} (hc : code < 2 ^ 24) (h₁ : code ≠ 0x15)
    (h₂ : code ≠ 0x06) : ¬RedirectError (toInt (hiveGeneralError code)) := by
  rw [redirectError_iff, hiveGeneralError, toInt_hiveMkError (by decide), ← hiveGeneralError,
    hiveGeneralError_eq hc]
  push_cast
  omega

/-! ### What a redeem is answered with -/

/-- No allocation fails. -/
def MemoryHeld (tr : List CallEvent) : Prop := ∀ size, ⟨.malloc size, false⟩ ∉ tr

/-- A request is answered with a complete token reply, and no allocation fails. -/
structure TokenDelivered (tr : List CallEvent) : Prop where
  reply : ∃ request reply, ⟨.httpClientPerform request, reply⟩ ∈ tr ∧ reply.Delivers .token
  memory : MemoryHeld tr

/-- Memory that held over two stretches. -/
private theorem memoryHeld_append {tr₁ tr₂ : List CallEvent} :
    MemoryHeld (tr₁ ++ tr₂) ↔ MemoryHeld tr₁ ∧ MemoryHeld tr₂ := by
  simp only [MemoryHeld, List.mem_append, not_or, forall_and]

/-- How a redeem, or a part of it, ends that has added `new` to the history: with an error of its
own, or because `Good` is the case. -/
structure Redeems (Good : List CallEvent → Prop) (past : List CallEvent) (rc : ℤ)
    (past' : List CallEvent) : Prop where
  recorded : ∃ new, past' = past ++ new ∧ (rc < 0 ↔ ¬Good new)
  own : rc < 0 → ¬RedirectError rc

section Spec

variable {s : Thread OneDriveConnect} {past : List CallEvent}

/-- A token reply is refused when it is not complete or an allocation fails, and else accepted. -/
private theorem decodeAccessToken_redeems (json : Option Json) :
    Script.wp record noFault (decodeAccessToken json)
      (fun rc _ => Redeems (fun new =>
        (∃ reply, json = some reply ∧ ReplyKind.token.Complete reply) ∧ MemoryHeld new) past rc)
      s past := by
  set Good := fun new => (∃ reply, json = some reply ∧ ReplyKind.token.Complete reply) ∧
    MemoryHeld new with hGood
  -- a field that is missing: the reply is incomplete, and the error none of a redirect
  have refused {e : ℤ} {new : List CallEvent} (he : e < 0) (hown : ¬RedirectError e)
      (hbad : ¬∃ reply, json = some reply ∧ ReplyKind.token.Complete reply) :
      Script.wp record noFault (pure e : M OneDriveConnect ℤ)
        (fun rc _ => Redeems Good past rc) s (past ++ new) :=
    ⟨⟨new, rfl, iff_of_true he fun h => hbad h.1⟩, fun _ => hown⟩
  have hneg := toInt_hiveGeneralError_neg HIVEERR_BAD_JSON_FORMAT
  have hown : ¬RedirectError (toInt (hiveGeneralError HIVEERR_BAD_JSON_FORMAT)) :=
    not_redirectError_of_code (show 0x16 < 2 ^ 24 by decide) (by decide) (by decide)
  -- an allocation that fails is an error of the system, whatever follows it
  have allocated {size : ℕ} {rest : M OneDriveConnect ℤ} {new : List CallEvent}
      (hnew : MemoryHeld new) (hrest : ∀ new, MemoryHeld new →
        Script.wp record noFault rest (fun rc _ => Redeems Good past rc) s (past ++ new)) :
      Script.wp record noFault (do
        if !(← malloc size) then
          return toInt (hiveSysError (← errno))
        rest) (fun rc _ => Redeems Good past rc) s (past ++ new) := by
    simp only [Script.wp_bind, Script.wp_ask, Script.wp_ite, Script.wp_pure]
    intro held past₁ hpast₁
    simp only [record, List.append_assoc] at hpast₁
    subst hpast₁
    refine ⟨fun hfailed errno past₂ hpast₂ => ?_, fun hheld => hrest _ ?_⟩
    · simp only [record, List.append_assoc] at hpast₂
      rw [Bool.not_eq_true'] at hfailed
      refine ⟨⟨_, hpast₂, iff_of_true (toInt_hiveSysError_neg _) fun h => h.2 size ?_⟩, fun _ => ?_⟩
      · simp [hfailed]
      · exact not_redirectError_of_facility (by decide) (.inl (by decide)) _
    · rw [Bool.not_eq_true', Bool.not_eq_false] at hheld
      refine memoryHeld_append.mpr ⟨hnew, fun size' hmem => ?_⟩
      rw [List.mem_singleton] at hmem
      cases hmem
      cases hheld
  -- a field that the code has not found cannot be one of a complete reply
  have absent {item : Option Json} {text : Bytes} (hnone : Json.nonemptyString? item = none)
      (hne : text ≠ []) (hitem : item = some (.string text)) : False := by
    rw [Json.nonemptyString?_eq_some.mpr ⟨hne, hitem⟩] at hnone
    cases hnone
  have hstart : MemoryHeld [] := fun size => List.not_mem_nil
  -- from here on along the text of the function, with the memory held so far as `new`
  suffices hwp : Script.wp record noFault (decodeAccessToken json)
      (fun rc _ => Redeems Good past rc) s (past ++ []) by
    rwa [List.append_nil] at hwp
  unfold decodeAccessToken
  dsimp only
  split
  · exact refused hneg hown (by rintro ⟨_, ⟨⟩, _⟩)
  rename_i reply
  split
  · rename_i hnone
    refine refused hneg hown ?_
    rintro ⟨_, ⟨⟩, _, _, _, _, hgrants⟩
    exact absent hnone hgrants.tokenType_ne hgrants.tokenType_eq
  rename_i tokenType htokenType
  refine allocated hstart fun new₁ hnew₁ => ?_
  split
  · rename_i hnone
    refine refused hneg hown ?_
    rintro ⟨_, ⟨⟩, _, _, _, _, hgrants⟩
    obtain ⟨scope, hne, hscope⟩ := hgrants.scope
    exact absent hnone hne hscope
  rename_i scope hscope
  split
  · rename_i hnone
    refine refused hneg hown ?_
    rintro ⟨_, ⟨⟩, _, _, _, _, hgrants⟩
    exact absent hnone hgrants.accessToken_ne hgrants.accessToken_eq
  rename_i accessToken haccessToken
  refine allocated hnew₁ fun new₂ hnew₂ => ?_
  split
  · rename_i hnone
    refine refused hneg hown ?_
    rintro ⟨_, ⟨⟩, _, _, _, _, hgrants⟩
    exact absent hnone hgrants.refreshToken_ne hgrants.refreshToken_eq
  rename_i refreshToken hrefreshToken
  refine allocated hnew₂ fun new₃ hnew₃ => ?_
  split
  · rename_i hnone
    refine refused hneg hown ?_
    rintro ⟨_, ⟨⟩, _, _, _, _, hgrants⟩
    obtain ⟨d, _, hd⟩ := hgrants.expiresIn_eq
    rw [Json.number?_eq_some.mpr hd] at hnone
    cases hnone
  rename_i expiresIn hexpiresIn
  rw [Json.nonemptyString?_eq_some] at htokenType hscope haccessToken hrefreshToken
  rw [Json.number?_eq_some] at hexpiresIn
  split
  · rename_i hpassed
    refine refused hneg hown ?_
    rintro ⟨_, ⟨⟩, _, _, _, _, hgrants⟩
    obtain ⟨d, rfl, hd⟩ := hgrants.expiresIn_eq
    rw [hexpiresIn, Option.some.injEq, Json.number.injEq] at hd
    subst hd
    exact absurd hgrants.expiresIn_nonneg (not_le.mpr hpassed)
  · rename_i hnonneg
    simp only [Script.wp_bind, Script.wp_ask, Script.wp_modify, Script.wp_pure]
    -- everything found and held: the reply was complete
    intro now past₁ hpast₁
    simp only [record, List.append_assoc] at hpast₁
    refine ⟨⟨_, hpast₁, iff_of_false (lt_irrefl 0) (not_not.mpr ⟨⟨reply, rfl, ?_⟩, ?_⟩)⟩,
      fun h => absurd h (lt_irrefl 0)⟩
    · exact ⟨tokenType, accessToken, refreshToken, expiresIn.toLong, htokenType.1, haccessToken.1,
        hrefreshToken.1, htokenType.2, ⟨scope, hscope⟩, haccessToken.2, hrefreshToken.2,
        not_lt.mp hnonneg, ⟨expiresIn, rfl, hexpiresIn⟩⟩
    · refine memoryHeld_append.mpr ⟨hnew₃, fun size hmem => ?_⟩
      rw [List.mem_singleton] at hmem
      cases hmem

/-- Nothing but `http_client_escape` is called. -/
theorem escapeFields_escapes (clientId redirectUrl : Bytes) (third : Option Bytes) :
    (escapeFields clientId redirectUrl third).Within
      (fun call => ∃ data, call = .httpClientEscape data) fun _ => True := by
  have escape {β : Type} (data : Bytes) {f : Bytes → M OneDriveConnect (Option β)}
      (hf : ∀ b, (f b).Within (fun call => ∃ data, call = .httpClientEscape data) fun _ => True) :
      (withEscaped data f).Within
        (fun call => ∃ data, call = .httpClientEscape data) fun _ => True := by
    refine .bind (.ask ⟨data, rfl⟩) fun escaped => ?_
    cases escaped with
    | none => exact .pure _
    | some b => exact hf b
  unfold escapeFields
  refine escape _ fun _ => escape _ fun _ => ?_
  split
  · exact .fault trivial
  · exact escape _ fun _ => .pure _

/-- What the escapes of the fields add is neither a reply nor an allocation. -/
private theorem tokenDelivered_escapes {new rest : List CallEvent}
    (hnew : ∀ e ∈ new, ∃ data, e.1 = .httpClientEscape data) :
    TokenDelivered (new ++ rest) ↔ TokenDelivered rest := by
  have hreply (request : HttpRequest) (reply : HttpReply) :
      (⟨.httpClientPerform request, reply⟩ : CallEvent) ∉ new := fun h =>
    (hnew _ h).elim fun _ heq => (nomatch heq)
  have hmemory : MemoryHeld new := fun size h => (hnew _ h).elim fun _ heq => (nomatch heq)
  constructor
  · rintro ⟨⟨request, reply, hmem, hdelivers⟩, hheld⟩
    exact ⟨⟨request, reply, (List.mem_append.mp hmem).resolve_left (hreply _ _), hdelivers⟩,
      (memoryHeld_append.mp hheld).2⟩
  · rintro ⟨⟨request, reply, hmem, hdelivers⟩, hheld⟩
    exact ⟨⟨request, reply, List.mem_append_right _ hmem, hdelivers⟩,
      memoryHeld_append.mpr ⟨hmemory, hheld⟩⟩

/-- After the request: it is the one reply that counts, and the allocations come later. -/
private theorem tokenDelivered_cons {request : HttpRequest} {reply : HttpReply}
    {rest : List CallEvent}
    (hrest : ∀ e ∈ rest, e.1.Offline) :
    TokenDelivered (⟨.httpClientPerform request, reply⟩ :: rest) ↔
      reply.Delivers .token ∧ MemoryHeld rest := by
  constructor
  · rintro ⟨⟨request', reply', hmem, hdelivers⟩, hheld⟩
    refine ⟨?_, fun size hmem => hheld size (List.mem_cons_of_mem _ hmem)⟩
    rcases List.mem_cons.mp hmem with heq | hmem
    · cases heq
      exact hdelivers
    · exact (hrest _ hmem request' rfl).elim
  · rintro ⟨hdelivers, hheld⟩
    refine ⟨⟨request, reply, List.mem_cons_self, hdelivers⟩, fun size hmem => ?_⟩
    rcases List.mem_cons.mp hmem with heq | hmem
    · cases heq
    · exact hheld size hmem

private theorem not_tokenDelivered_nil : ¬TokenDelivered [] := by
  rintro ⟨⟨_, _, hmem, _⟩, _⟩
  exact List.not_mem_nil hmem

/-- A code is redeemed exactly when the request is answered with a complete token reply and no
allocation fails. -/
theorem redeemAccessToken_redeems (code : Bytes) :
    Script.wp record anyFault (redeemAccessToken code)
      (fun rc _ past' => ∃ created, Redeems TokenDelivered
        (past ++ [⟨.httpClientNew .redeemAccessToken, created⟩]) rc past') s past := by
  have refused {e : ℤ} {past' new : List CallEvent} (he : e < 0) (hown : ¬RedirectError e)
      (hbad : ¬TokenDelivered new) : Redeems TokenDelivered past' e (past' ++ new) :=
    ⟨⟨new, rfl, iff_of_true he hbad⟩, fun _ => hown⟩
  have hmemory := toInt_hiveGeneralError_neg HIVEERR_OUT_OF_MEMORY
  have hmemoryOwn : ¬RedirectError (toInt (hiveGeneralError HIVEERR_OUT_OF_MEMORY)) :=
    not_redirectError_of_code (show 0x02 < 2 ^ 24 by decide) (by decide) (by decide)
  have hsizeOwn : ¬RedirectError (toInt (hiveGeneralError HIVEERR_BUFFER_TOO_SMALL)) :=
    not_redirectError_of_code (show 0x03 < 2 ^ 24 by decide) (by decide) (by decide)
  unfold redeemAccessToken
  simp only [Script.wp_bind, Script.wp_get, Script.wp_pure, Script.wp_ask, Script.wp_ite]
  intro created past₁ hpast₁
  simp only [record] at hpast₁
  subst hpast₁
  refine ⟨fun _ => ⟨created, ?_⟩, fun _ => ?_⟩
  · have hnothing : Redeems TokenDelivered
        (past ++ [⟨.httpClientNew .redeemAccessToken, created⟩])
        (toInt (hiveGeneralError HIVEERR_OUT_OF_MEMORY))
        (past ++ [⟨.httpClientNew .redeemAccessToken, created⟩] ++ []) :=
      refused hmemory hmemoryOwn not_tokenDelivered_nil
    rwa [List.append_nil] at hnothing
  refine Script.wp_mono (Script.wp_recorded (escapeFields_escapes _ _ _) Script.wp_true)
    (fun _ _ _ => trivial) ?_
  rintro fields s₁ _ ⟨-, escapes, rfl, hescapes⟩
  have hunasked : ¬TokenDelivered escapes := by
    have hiff : TokenDelivered (escapes ++ []) ↔ TokenDelivered [] :=
      tokenDelivered_escapes hescapes
    rw [List.append_nil] at hiff
    exact hiff.not.mpr not_tokenDelivered_nil
  cases fields with
  | none => exact ⟨created, refused hmemory hmemoryOwn hunasked⟩
  | some found =>
    obtain ⟨clientId, redirectUri, code⟩ := found
    simp only [Script.wp_bind, Script.wp_ask, Script.wp_ite, Script.wp_pure, wp_moveAndParse]
    refine ⟨fun _ => ⟨created, refused (toInt_hiveGeneralError_neg _) hsizeOwn hunasked⟩,
      fun _ reply past₂ hpast₂ => ?_⟩
    simp only [record, List.append_assoc] at hpast₂
    have undelivered {e : ℤ} (he : e < 0) (hown : ¬RedirectError e)
        (hbad : reply.answer ≠ .ok HttpStatus_OK) : ∃ created, Redeems TokenDelivered
          (past ++ [⟨.httpClientNew .redeemAccessToken, created⟩]) e past₂ := by
      refine ⟨created, ?_⟩
      rw [hpast₂, ← List.append_assoc]
      refine refused he hown ?_
      rw [tokenDelivered_escapes hescapes, tokenDelivered_cons (by simp)]
      exact fun h => hbad h.1.1
    refine ⟨fun hfailed => undelivered (toInt_hiveCurlError_neg _)
      (not_redirectError_of_facility (by decide) (.inr (by decide)) _)
      fun h => hfailed (HttpReply.answer_eq_ok.mp h).1, fun hperformed => ⟨fun hstatus =>
        undelivered (toInt_hiveHttpStatusError_neg _)
          (not_redirectError_of_facility (by decide) (.inl (by decide)) _) fun h => hstatus ?_,
        fun hstatus => ⟨fun _ => trivial, fun hbody => ?_⟩⟩⟩
    · obtain ⟨_, hinfo, hok⟩ := HttpReply.answer_eq_ok.mp h
      rw [if_pos hinfo]
      exact hok
    -- the status is that of the reply, since 200 is not the initial 0
    have hinfo : reply.info = 0 := by
      by_contra hne
      rw [if_neg hne] at hstatus
      exact hstatus (by decide)
    rw [if_pos hinfo, not_not] at hstatus
    rw [not_not] at hperformed
    have hanswer := HttpReply.answer_eq_ok.mpr ⟨hperformed, hinfo, hstatus⟩
    have hdelivers : (∃ doc, reply.parsed = some doc ∧ ReplyKind.token.Complete doc) ↔
        reply.Delivers .token := by
      constructor
      · rintro ⟨doc, hparsed, hcomplete⟩
        exact HttpReply.delivers_of_parsed hanswer hbody hparsed hcomplete
      · rintro ⟨_, doc, hdocument, hcomplete⟩
        rw [HttpReply.document, if_neg hbody] at hdocument
        exact ⟨doc, hdocument, hcomplete⟩
    refine Script.wp_mono (Script.wp_recorded (decodeAccessToken_offline _).within
      (decodeAccessToken_redeems _)) (fun _ _ _ => trivial) ?_
    rintro rc s₂ _ ⟨⟨⟨new, rfl, hrc⟩, hown⟩, new', heq, hoffline⟩
    obtain rfl := List.append_cancel_left heq
    refine ⟨created, ⟨escapes ++ ⟨.httpClientPerform _, reply⟩ :: new, ?_, ?_⟩, hown⟩
    · rw [hpast₂]
      simp only [List.append_assoc, List.cons_append, List.nil_append]
    · rw [hrc, tokenDelivered_escapes hescapes, tokenDelivered_cons hoffline, hdelivers]

end Spec

/-! ### The redeem in a trace -/

/-- The event begins a redeem: its client is asked for. -/
def CallEvent.startsRedeem : CallEvent → Bool
  | ⟨.httpClientNew .redeemAccessToken, _⟩ => true
  | _ => false

/-- The events of a trace from the redeem on. -/
def redeemEvents (tr : List CallEvent) : List CallEvent :=
  tr.dropWhile fun e => !e.startsRedeem

/-- A code has been redeemed, without success. -/
def RedeemRefused (tr : List CallEvent) : Prop :=
  redeemEvents tr ≠ [] ∧ ¬TokenDelivered (redeemEvents tr)

/-- No redeem is begun. -/
abbrev NoRedeem (tr : List CallEvent) : Prop := ∀ e ∈ tr, e.startsRedeem = false

/-- What comes before a redeem has none of its events. -/
theorem redeemEvents_append {pre tr : List CallEvent} (hpre : NoRedeem pre) :
    redeemEvents (pre ++ tr) = redeemEvents tr := by
  refine List.dropWhile_append_of_pos fun e he => ?_
  rw [hpre e he, Bool.not_false]

theorem not_redeemRefused {tr : List CallEvent} (h : NoRedeem tr) : ¬RedeemRefused tr := by
  have hnil : redeemEvents tr = [] := by
    rw [← List.append_nil tr, redeemEvents_append h]
    rfl
  exact fun hrefused => hrefused.1 hnil

private theorem tokenDelivered_httpClientNew {user : HttpClientUser} {r : Bool}
    {tr : List CallEvent} :
    TokenDelivered (⟨.httpClientNew user, r⟩ :: tr) ↔ TokenDelivered tr := by
  constructor
  · rintro ⟨⟨request, reply, hmem, hdelivers⟩, hheld⟩
    refine ⟨⟨request, reply, ?_, hdelivers⟩, fun size h => hheld size (List.mem_cons_of_mem _ h)⟩
    rcases List.mem_cons.mp hmem with heq | hmem
    · cases heq
    · exact hmem
  · rintro ⟨⟨request, reply, hmem, hdelivers⟩, hheld⟩
    refine ⟨⟨request, reply, List.mem_cons_of_mem _ hmem, hdelivers⟩, fun size h => ?_⟩
    rcases List.mem_cons.mp h with heq | h
    · cases heq
    · exact hheld size h

/-- When a redeem begins after `pre`, what comes from there on decides. -/
theorem redeemRefused_iff {pre rest : List CallEvent} {created : Bool} (hpre : NoRedeem pre) :
    RedeemRefused (pre ++ ⟨.httpClientNew .redeemAccessToken, created⟩ :: rest) ↔
      ¬TokenDelivered rest := by
  have hstart : redeemEvents (⟨.httpClientNew .redeemAccessToken, created⟩ :: rest) =
      ⟨.httpClientNew .redeemAccessToken, created⟩ :: rest := rfl
  unfold RedeemRefused
  rw [redeemEvents_append hpre, hstart, tokenDelivered_httpClientNew]
  exact and_iff_right (List.cons_ne_nil _ _)

/-- The calls that write the keystore. -/
def Call.ForKeystore : Call → Prop
  | .cJSON_CreateObject | .cJSON_Print _ | .openFile _ _ | .write _ _ | .errno => True
  | _ => False

theorem writebackTokens_forKeystore :
    writebackTokens.Within Call.ForKeystore fun _ => True := by
  have writeback (json : Json) : (oauthWriteback json).Within Call.ForKeystore fun _ => True := by
    unfold oauthWriteback
    refine .bind (.ask trivial) fun text => ?_
    match text with
    | none => exact .pure _
    | some [] => exact .pure _
    | some (_ :: _) =>
      refine .bind .get fun s => .bind (.ask trivial) fun opened => ?_
      match opened with
      | .error _ => exact .pure _
      | .ok _ =>
        refine .bind (.ask trivial) fun bytes => ?_
        exact .ite (.bind (.ask trivial) fun _ => .pure _) (.pure _)
  unfold writebackTokens
  refine .bind (.bind .get fun _ => .pure _) fun token => .bind (.ask trivial) fun created => ?_
  refine .ite (.pure _) ?_
  split
  · exact .bind (writeback _) fun _ => .pure _
  · exact .bind (writeback _) fun _ => .pure _
  · exact .fault trivial

/-- Writing the keystore afterwards does not spoil a redeem. -/
theorem TokenDelivered.append {tr rest : List CallEvent} (h : TokenDelivered tr)
    (hrest : ∀ e ∈ rest, e.1.ForKeystore) : TokenDelivered (tr ++ rest) := by
  obtain ⟨⟨request, reply, hmem, hdelivers⟩, hheld⟩ := h
  refine ⟨⟨request, reply, List.mem_append_left _ hmem, hdelivers⟩,
    memoryHeld_append.mpr ⟨hheld, fun size hmem => ?_⟩⟩
  exact hrest _ hmem

end HiveSDK
