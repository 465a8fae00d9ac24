import HiveSDK.Http.Replies
import HiveSDK.Interaction.Total

/-!
# Listing the files

A listing comes in pages, each of which names the next one. `Listing` says what a chain of pages
lists, in the words of the service: all entries of all pages in order, or nothing if one of the
pages is not what it must be. `list_files` follows the chain to its end, whatever its length, and
tells the user either all of it or nothing (`listFiles_lists`); the document of every page that is
parsed is released once.
-/

namespace HiveSDK

open Interaction C

/-! ### What is listed -/

/-- A reply is a page with these entries and this link to the next page: it is answered 200, and its
document is complete. -/
structure IsPage (reply : HttpReply) (entries : List Json) (link : Option Bytes) : Prop where
  answer : reply.answer = .ok HttpStatus_OK
  document : ∃ json, reply.document = some json ∧
    json.getObjectItemCaseSensitive (ascii "value") = some (.array entries) ∧
    (∀ entry ∈ entries, entry.ListEntry) ∧
    match link with
    | none => json.getObjectItemCaseSensitive (ascii "@odata.nextLink") = none
    | some url => url ≠ [] ∧
      json.getObjectItemCaseSensitive (ascii "@odata.nextLink") = some (.string url)

/-- What a chain of pages lists that begins at `url`; nothing if a page is not one. -/
inductive Listing : Bytes → List (Bytes × HttpReply) → Option (List Json) → Prop
  | last {url : Bytes} {reply : HttpReply} {entries : List Json}
    (hpage : IsPage reply entries none) : Listing url [(url, reply)] (some entries)
  | next {url link : Bytes} {reply : HttpReply} {entries : List Json}
    {chain : List (Bytes × HttpReply)} {rest : Option (List Json)}
    (hpage : IsPage reply entries (some link)) (hrest : Listing link chain rest) :
    Listing url ((url, reply) :: chain) (rest.map (entries ++ ·))
  | broken {url : Bytes} {reply : HttpReply} (hbad : ¬reply.Delivers .page) :
    Listing url [(url, reply)] none

/-- A listing starts with the page at its URL. -/
theorem Listing.eq_cons {url : Bytes} {chain : List (Bytes × HttpReply)}
    {listed : Option (List Json)} (h : Listing url chain listed) :
    ∃ reply rest, chain = (url, reply) :: rest := by
  cases h with
  | last => exact ⟨_, _, rfl⟩
  | next => exact ⟨_, _, rfl⟩
  | broken => exact ⟨_, _, rfl⟩

/-- The name of an entry. -/
def Json.entryName (entry : Json) : Bytes :=
  (Json.string? (entry.getObjectItemCaseSensitive (ascii "name"))).getD []

/-- The calls of the user's callback, with its results: for each name in turn, and then with `NULL`,
but for none after it has returned `false`. -/
inductive Notified : List Bytes → List (Option Bytes × Bool) → Prop
  | finished (resume : Bool) : Notified [] [(none, resume)]
  | resumed {name : Bytes} {names : List Bytes} {calls : List (Option Bytes × Bool)}
    (h : Notified names calls) : Notified (name :: names) ((some name, true) :: calls)
  | stopped (name : Bytes) (names : List Bytes) : Notified (name :: names) [(some name, false)]

/-! ### What is seen of a run -/

/-- A page that is asked for, and the reply. -/
def CallEvent.page? : CallEvent → Option (Bytes × HttpReply)
  | ⟨.httpClientPerform request, reply⟩ =>
    if request.method = .get then some (request.url, reply) else none
  | _ => none

/-- The page whose document is released. -/
def CallEvent.released? : CallEvent → Option ℕ
  | ⟨.cJSON_Delete page, _⟩ => some page
  | _ => none

/-- A call of the user's callback, with its result. -/
def CallEvent.notified? : CallEvent → Option (Option Bytes × Bool)
  | ⟨.filesCallback name, resume⟩ => some (name, resume)
  | _ => none

/-- The pages asked for, the documents released and the calls of the callback in a history. -/
structure Seen (past : List CallEvent) (pages : List (Bytes × HttpReply)) (released : List ℕ)
    (notified : List (Option Bytes × Bool)) : Prop where
  pages : past.filterMap CallEvent.page? = pages
  released : past.filterMap CallEvent.released? = released
  notified : past.filterMap CallEvent.notified? = notified

/-- The call is none of these. -/
def Call.Unseen : Call → Prop
  | .httpClientPerform request => request.method ≠ .get
  | .cJSON_Delete _ | .filesCallback _ => False
  | _ => True

section Seen

variable {past : List CallEvent} {pages : List (Bytes × HttpReply)} {released : List ℕ}
  {notified : List (Option Bytes × Bool)}

/-- One more event. -/
theorem Seen.concat (h : Seen past pages released notified) (e : CallEvent) :
    Seen (past ++ [e]) (pages ++ e.page?.toList) (released ++ e.released?.toList)
      (notified ++ e.notified?.toList) := by
  obtain ⟨hpages, hreleased, hnotified⟩ := h
  have hone {β : Type} (f : CallEvent → Option β) : [e].filterMap f = (f e).toList := by
    cases hf : f e with
    | none => exact List.filterMap_cons_none hf
    | some b => exact List.filterMap_cons_some hf
  constructor
  · rw [List.filterMap_append, hpages, hone]
  · rw [List.filterMap_append, hreleased, hone]
  · rw [List.filterMap_append, hnotified, hone]

/-- A call that none of the three lists is about. -/
theorem Seen.unseen (h : Seen past pages released notified) {call : Call} (hcall : call.Unseen)
    (r : call.Reply) : Seen (past ++ [⟨call, r⟩]) pages released notified := by
  have hconcat := h.concat ⟨call, r⟩
  cases call with
  | httpClientPerform request =>
    have hpage : CallEvent.page? ⟨.httpClientPerform request, r⟩ = none := if_neg hcall
    rw [hpage] at hconcat
    simpa [CallEvent.released?, CallEvent.notified?] using hconcat
  | cJSON_Delete page => exact hcall.elim
  | filesCallback name => exact hcall.elim
  | _ => simpa [CallEvent.page?, CallEvent.released?, CallEvent.notified?] using hconcat

/-- Any number of such calls. -/
theorem Seen.recorded {past' : List CallEvent} (h : Seen past pages released notified)
    (hrecorded : Recorded Call.Unseen past past') : Seen past' pages released notified := by
  obtain ⟨new, rfl, hnew⟩ := hrecorded
  induction new generalizing past with
  | nil => rwa [List.append_nil]
  | cons e new ih =>
    obtain ⟨he, hnew⟩ := List.forall_mem_cons.mp hnew
    rw [List.append_cons]
    exact ih (h.unseen he e.2) hnew

end Seen

/-! ### The tests of the code -/

/-- The code accepts every proper entry. -/
private theorem listItemValid_of_listEntry {item : Json} (h : item.ListEntry) :
    OneDrive.listItemValid item = true := by
  obtain ⟨⟨name, hne, -, hname⟩, hkind⟩ := h
  have hsome : (Json.nonemptyString? (item.getObjectItemCaseSensitive (ascii "name"))).isSome := by
    rw [Json.nonemptyString?_eq_some.mpr ⟨hne, hname⟩]
    rfl
  unfold OneDrive.listItemValid
  rcases hkind with ⟨⟨members, hfile⟩, hfolder⟩ | ⟨⟨members, hfolder⟩, hfile⟩
  · rw [hfile, hfolder, hsome]
    rfl
  · rw [hfile, hfolder, hsome]
    rfl

/-- All entries are moved. -/
private theorem mergeArray_of_listEntry {array sub : List Json} (h : ∀ item ∈ sub, item.ListEntry) :
    OneDrive.mergeArray array sub = .ok (array ++ sub) := by
  induction sub generalizing array with
  | nil => rw [OneDrive.mergeArray, List.append_nil]
  | cons item sub ih =>
    obtain ⟨hitem, hsub⟩ := List.forall_mem_cons.mp h
    rw [OneDrive.mergeArray, if_pos (listItemValid_of_listEntry hitem), ih hsub, List.append_assoc]
    rfl

/-- The code reads the name of a proper entry. -/
private theorem entryName_of_listEntry {entry : Json} (h : entry.ListEntry) :
    Json.string? (entry.getObjectItemCaseSensitive (ascii "name")) = some entry.entryName := by
  obtain ⟨⟨name, -, -, hname⟩, -⟩ := h
  rw [Json.entryName, hname]
  rfl

/-- A document that fails no test is complete. -/
private theorem complete_of_tests {json : Json} {sub array merged : List Json} {link : Option Bytes}
    (hvalue : json.getObjectItemCaseSensitive (ascii "value") = some (.array sub))
    (hmerged : OneDrive.mergeArray array sub = .ok merged)
    (hlink : OneDrive.nextLink json = .ok link) : ReplyKind.page.Complete json :=
  ⟨⟨sub, hvalue, fun item hitem =>
    listEntry_of_listItemValid (listItemValid_of_mergeArray hmerged item hitem)⟩,
    nextLink_complete hlink⟩

/-! ### The environment -/

/-- The pages asked for are answered by the chain, in order; all else is answered in any way. -/
def serving (chain : List (Bytes × HttpReply)) : Handler (List CallEvent) Call Call.Reply :=
  fun past call r past' => record past call r past' ∧
    ((CallEvent.page? ⟨call, r⟩).isSome → past'.filterMap CallEvent.page? <+: chain)

section Serving

variable {chain pages : List (Bytes × HttpReply)} {past : List CallEvent} {released : List ℕ}
  {notified : List (Option Bytes × Bool)} {C : Type} {s : Thread C}
  {F : Fault → List CallEvent → Prop}

/-- A call that is not for a page may be answered in any way. -/
private theorem serving_other {call : Call} {r : call.Reply}
    (h : CallEvent.page? ⟨call, r⟩ = none) :
    serving chain past call r (past ++ [⟨call, r⟩]) := by
  refine ⟨rfl, fun hpage => ?_⟩
  rw [h] at hpage
  cases hpage

/-- A call that none of the lists is about brings no page. -/
private theorem page?_of_unseen {call : Call} (hcall : call.Unseen) (r : call.Reply) :
    CallEvent.page? ⟨call, r⟩ = none := by
  cases call with
  | httpClientPerform request => exact if_neg hcall
  | _ => rfl

/-- The next page that is asked for is the next one of the chain. -/
private theorem twp_nextPage {url token : Bytes} {reply : HttpReply}
    {rest : List (Bytes × HttpReply)}
    {Q : HttpReply → Thread C → List CallEvent → Prop}
    (hchain : chain = pages ++ (url, reply) :: rest) (hseen : Seen past pages released notified)
    (hQ : ∀ past', Seen past' (pages ++ [(url, reply)]) released notified → Q reply s past') :
    Script.twp (serving chain) F (httpClientPerform (OneDrive.listRequest token url)) Q s past := by
  have hnext (r : HttpReply) :
      Seen (past ++ [⟨.httpClientPerform (OneDrive.listRequest token url), r⟩])
        (pages ++ [(url, r)]) released notified := by
    have hconcat := hseen.concat ⟨.httpClientPerform (OneDrive.listRequest token url), r⟩
    simpa [CallEvent.page?, CallEvent.released?, CallEvent.notified?, OneDrive.listRequest]
      using hconcat
  rw [Script.twp_ask]
  constructor
  · refine ⟨reply, _, rfl, fun _ => ?_⟩
    rw [(hnext reply).pages, hchain]
    exact ⟨rest, by rw [List.append_assoc]; rfl⟩
  · rintro r past' ⟨rfl, hprefix⟩
    have hserved := hprefix rfl
    rw [(hnext r).pages, hchain, List.prefix_append_right_inj,
      List.singleton_prefix_cons_iff] at hserved
    obtain rfl : r = reply := congrArg Prod.snd hserved
    exact hQ _ (hnext r)

/-- Releasing a document. -/
private theorem twp_release {page : ℕ} {Q : Unit → Thread C → List CallEvent → Prop}
    (hseen : Seen past pages released notified)
    (hQ : ∀ past', Seen past' pages (released ++ [page]) notified → Q () s past') :
    Script.twp (serving chain) F (cJSON_Delete page) Q s past := by
  rw [Script.twp_ask]
  refine ⟨⟨(), _, serving_other rfl⟩, ?_⟩
  rintro _ past' ⟨rfl, -⟩
  have hreleased : Seen (past ++ [⟨.cJSON_Delete page, ()⟩]) pages (released ++ [page])
      notified := by
    simpa [CallEvent.page?, CallEvent.released?, CallEvent.notified?] using
      hseen.concat ⟨.cJSON_Delete page, ()⟩
  exact hQ _ hreleased

/-- The user is told the names. -/
private theorem notifyUserFiles_notifies {array : List Json} {s : Thread OneDriveConnect}
    (harray : ∀ entry ∈ array, entry.ListEntry) (hseen : Seen past pages released notified) :
    Script.twp (serving chain) F (OneDrive.notifyUserFiles array)
      (fun _ _ past' => ∃ calls, Notified (array.map Json.entryName) calls ∧
        Seen past' pages released (notified ++ calls)) s past := by
  have calls {name : Option Bytes} {past : List CallEvent}
      {notified : List (Option Bytes × Bool)} (hseen : Seen past pages released notified)
      (resume : Bool) :
      Seen (past ++ [⟨.filesCallback name, resume⟩]) pages released
        (notified ++ [(name, resume)]) := by
    simpa [CallEvent.page?, CallEvent.released?, CallEvent.notified?] using
      hseen.concat ⟨.filesCallback name, resume⟩
  induction array generalizing past notified with
  | nil =>
    unfold OneDrive.notifyUserFiles
    simp only [Script.twp_bind, Script.twp_ask, Script.twp_pure]
    refine ⟨⟨true, _, serving_other rfl⟩, ?_⟩
    rintro resume past' ⟨rfl, -⟩
    exact ⟨_, .finished resume, calls hseen resume⟩
  | cons entry array ih =>
    obtain ⟨hentry, harray⟩ := List.forall_mem_cons.mp harray
    unfold OneDrive.notifyUserFiles
    simp only [Script.twp_bind, Script.twp_ask, Script.twp_ite, Script.twp_pure,
      entryName_of_listEntry hentry]
    refine ⟨⟨true, _, serving_other rfl⟩, ?_⟩
    rintro resume past' ⟨rfl, -⟩
    have hcalled := @calls (some entry.entryName) _ _ hseen resume
    cases resume with
    | false => exact ⟨fun _ => ⟨_, .stopped _ _, hcalled⟩, fun h => absurd rfl h⟩
    | true =>
      refine ⟨fun h => absurd h (by decide), fun _ => ?_⟩
      refine Script.twp_mono (ih harray hcalled) (fun _ _ h => h) ?_
      rintro _ _ past' ⟨later, hlater, hseen'⟩
      refine ⟨_, .resumed hlater, ?_⟩
      rwa [List.append_assoc] at hseen'

end Serving

/-! ### The pages -/

/-- A document is parsed from the reply. -/
def HttpReply.documented (reply : HttpReply) : Bool :=
  match reply.answer with
  | .ok status => status = HttpStatus_OK && reply.parsed.isSome
  | .error _ => false

/-- The pages from which a document is parsed, when the first one is numbered `page`. -/
def documentsFrom (page : ℕ) (chain : List (Bytes × HttpReply)) : List ℕ :=
  ((chain.zipIdx page).filter fun p => p.1.2.documented).map Prod.snd

/-- The documents of a chain: that of the first page, and those of the rest. -/
private theorem documentsFrom_cons (page : ℕ) (url : Bytes) (reply : HttpReply)
    (chain : List (Bytes × HttpReply)) : documentsFrom page ((url, reply) :: chain) =
      (if reply.documented then [page] else []) ++ documentsFrom (page + 1) chain := by
  unfold documentsFrom
  rw [List.zipIdx_cons, List.filter_cons]
  dsimp only
  split <;> rfl

/-- A page has a document. -/
theorem IsPage.documented {reply : HttpReply} {entries : List Json} {link : Option Bytes}
    (h : IsPage reply entries link) : reply.documented = true := by
  obtain ⟨hanswer, json, hdocument, -⟩ := h
  unfold HttpReply.document at hdocument
  split at hdocument
  · cases hdocument
  · rw [HttpReply.documented, hanswer, hdocument]
    rfl

/-- The document of a page, as it is parsed. -/
theorem IsPage.parsed {reply : HttpReply} {entries : List Json} {link : Option Bytes}
    (h : IsPage reply entries link) (hbody : reply.received ≠ []) : ∃ json,
      reply.parsed = some json ∧
      json.getObjectItemCaseSensitive (ascii "value") = some (.array entries) ∧
      (∀ entry ∈ entries, entry.ListEntry) ∧ OneDrive.nextLink json = .ok link := by
  obtain ⟨-, json, hdocument, hvalue, hentries, hlink⟩ := h
  rw [HttpReply.document, if_neg hbody] at hdocument
  refine ⟨json, hdocument, hvalue, hentries, ?_⟩
  unfold OneDrive.nextLink
  cases link with
  | none => rw [show json.getObjectItemCaseSensitive _ = none from hlink]
  | some url =>
    obtain ⟨hne, hlink⟩ := hlink
    have htext := Json.nonemptyString?_eq_some.mpr ⟨hne, hlink⟩
    rw [hlink] at htext ⊢
    dsimp only
    rw [htext]

/-- What a listing comes to: all entries told to the user, or an error and nothing told; and every
document released. -/
def PagesEnd (chain : List (Bytes × HttpReply)) (documents : List ℕ) (listed : Option (List Json))
    (rc : ℤ) (past : List CallEvent) : Prop :=
  match listed with
  | some entries => rc = 0 ∧ ∃ calls, Notified (entries.map Json.entryName) calls ∧
      Seen past chain documents calls
  | none => rc < 0 ∧ Seen past chain documents []

section Pages

variable {chain pages : List (Bytes × HttpReply)} {past : List CallEvent} {released : List ℕ}
  {s : Thread OneDriveConnect}

/-- The document of the page before, if there is one, is released after the request. -/
private theorem twp_deletePrevious {F : Fault → List CallEvent → Prop} {previous : Bool} {page : ℕ}
    {m : M OneDriveConnect ℤ} {Q : ℤ → Thread OneDriveConnect → List CallEvent → Prop}
    (hseen : Seen past pages released [])
    (hm : ∀ past', Seen past' pages (released ++ if previous then [page] else []) [] →
      Script.twp (serving chain) F m Q s past') :
    Script.twp (serving chain) F (if previous then cJSON_Delete page >>= fun _ => m else m) Q s
      past := by
  cases previous with
  | false =>
    have hrest := hm past (by simpa using hseen)
    simpa using hrest
  | true =>
    rw [if_pos rfl, Script.twp_bind]
    exact twp_release hseen fun past' h => hm past' h

/-- From a page on, the listing comes to its end. -/
private theorem listPages_lists {url : Bytes} {rest : List (Bytes × HttpReply)}
    {entries : Option (List Json)} (hlisting : Listing url rest entries)
    (hbodies : ∀ p ∈ rest, p.2.received ≠ []) {rounds page : ℕ} {previous : Bool}
    {array : List Json} (hrounds : rest.length ≤ rounds) (hchain : chain = pages ++ rest)
    (hseen : Seen past pages released []) (harray : ∀ entry ∈ array, entry.ListEntry)
    (htoken : s.conn.token.accessToken.isSome) :
    Script.twp (serving chain) noFault (OneDrive.listPages rounds page previous url array)
      (fun rc _ past' => PagesEnd chain
        (released ++ (if previous then [page - 1] else []) ++ documentsFrom page rest)
        (entries.map (array ++ ·)) rc past') s past := by
  obtain ⟨token, htoken⟩ := Option.isSome_iff_exists.mp htoken
  induction rounds generalizing url rest entries page previous array pages released past with
  | zero =>
    obtain ⟨reply, tail, rfl⟩ := hlisting.eq_cons
    exact absurd hrounds (by simp)
  | succ rounds ih =>
    obtain ⟨reply, tail, rfl⟩ := hlisting.eq_cons
    have hbody : reply.received ≠ [] := hbodies _ List.mem_cons_self
    unfold OneDrive.listPages
    simp only [Script.twp_bind, twp_getBearerToken htoken]
    refine twp_nextPage hchain hseen fun past₁ hseen₁ => ?_
    refine twp_deletePrevious hseen₁ fun past₂ hseen₂ => ?_
    rw [documentsFrom_cons, ← List.append_assoc]
    generalize released ++ (if previous then [page - 1] else []) = before at hseen₂ ⊢
    have hmove : (moveAndParse reply : M OneDriveConnect _) = pure reply.parsed := if_neg hbody
    have haccept : ¬HttpStatus_OK = HttpStatus_Unauthorized := by decide
    cases hlisting with
    | @last _ _ items hpage =>
      obtain ⟨json, hparsed, hvalue, hitems, hlink⟩ := hpage.parsed hbody
      have hmerged := @mergeArray_of_listEntry array items hitems
      rw [hpage.documented, hpage.answer, hmove, hparsed]
      simp only [Script.twp_bind, Script.twp_ite, Script.twp_pure, hvalue, hmerged, hlink]
      refine ⟨fun h => absurd h haccept, fun _ => ⟨fun h => absurd rfl h, fun _ => ?_⟩⟩
      refine twp_release hseen₂ fun past₃ hseen₃ => ?_
      have hall : ∀ entry ∈ array ++ items, entry.ListEntry :=
        fun entry hentry => (List.mem_append.mp hentry).elim (harray entry) (hitems entry)
      refine Script.twp_mono (notifyUserFiles_notifies hall hseen₃) (fun _ _ h => h) ?_
      rintro _ _ past₄ ⟨calls, hcalls, hseen₄⟩
      refine ⟨rfl, calls, hcalls, ?_⟩
      rw [hchain]
      simpa [documentsFrom] using hseen₄
    | @next _ link _ items rest listed hpage hrest =>
      obtain ⟨json, hparsed, hvalue, hitems, hlink⟩ := hpage.parsed hbody
      have hmerged := @mergeArray_of_listEntry array items hitems
      rw [hpage.documented, hpage.answer, hmove, hparsed]
      simp only [Script.twp_bind, Script.twp_ite, Script.twp_pure, hvalue, hmerged, hlink]
      refine ⟨fun h => absurd h haccept, fun _ => ⟨fun h => absurd rfl h, fun _ => ?_⟩⟩
      have hall : ∀ entry ∈ array ++ items, entry.ListEntry :=
        fun entry hentry => (List.mem_append.mp hentry).elim (harray entry) (hitems entry)
      have hnext := @ih (pages ++ [(url, reply)]) past₂ before link tail listed hrest
        (fun p hp => hbodies p (List.mem_cons_of_mem _ hp)) (page + 1) true (array ++ items)
        (Nat.le_of_succ_le_succ hrounds) (by rw [hchain, List.append_assoc]; rfl) hseen₂ hall
      simpa [Option.map_map, Function.comp_def, List.append_assoc] using hnext
    | broken hbad =>
      have refused {rc : ℤ} (hneg : rc < 0) (hnone : reply.documented = false) :
          PagesEnd chain (before ++ (if reply.documented then [page] else []) ++
            documentsFrom (page + 1) []) none rc past₂ := by
        refine ⟨hneg, ?_⟩
        rw [hchain, hnone]
        simpa [documentsFrom] using hseen₂
      have released {rc : ℤ} (hneg : rc < 0) (hsome : reply.documented = true) :
          Script.twp (serving chain) noFault (cJSON_Delete page) (fun _ _ past' =>
            PagesEnd chain (before ++ (if reply.documented then [page] else []) ++
              documentsFrom (page + 1) []) none rc past') s past₂ := by
        refine twp_release hseen₂ fun past₃ hseen₃ => ⟨hneg, ?_⟩
        rw [hchain, hsome]
        simpa [documentsFrom] using hseen₃
      cases hanswer : reply.answer with
      | error e =>
        exact refused (reply.toInt_answer_neg hanswer) (by rw [HttpReply.documented, hanswer])
      | ok status =>
        simp only [oauthTokenSetExpired, Script.twp_bind, Script.twp_ite, Script.twp_pure,
          Script.twp_modify, hmove]
        refine ⟨fun h401 => refused (by simp) ?_, fun _ =>
          ⟨fun hother => refused (by simp) ?_, fun hok => ?_⟩⟩
        · rw [HttpReply.documented, hanswer, h401]
          rfl
        · rw [HttpReply.documented, hanswer]
          simp [hother]
        obtain rfl : status = HttpStatus_OK := not_not.mp hok
        cases hparsed : reply.parsed with
        | none =>
          refine refused (by simp) ?_
          rw [HttpReply.documented, hanswer, hparsed]
          rfl
        | some json =>
        have hdocumented : reply.documented = true := by
          rw [HttpReply.documented, hanswer, hparsed]
          rfl
        dsimp only
        split
        · rename_i sub hvalue
          cases hmerged : OneDrive.mergeArray array sub with
          | error rc =>
            simp only [Script.twp_bind, Script.twp_pure]
            exact released (mergeArray_neg hmerged) hdocumented
          | ok merged =>
          cases hlink : OneDrive.nextLink json with
          | error rc =>
            simp only [Script.twp_bind, Script.twp_pure]
            exact released (nextLink_neg hlink) hdocumented
          | ok link =>
            -- no test fails
            have hcomplete := complete_of_tests hvalue hmerged hlink
            exact absurd (HttpReply.delivers_of_parsed hanswer hbody hparsed hcomplete) hbad
        · simp only [Script.twp_bind, Script.twp_pure]
          exact released (by simp) hdocumented

end Pages

/-! ### The whole listing -/

/-- There is no token to ask with: the check of the token, made with the first of these calls, has
ended in an error, or has left no access token. -/
def TokenDenied (s : Thread OneDriveConnect) (past : List CallEvent) : Prop :=
  ∃ o before, before <+: past ∧ Program.Exec record (oauthTokenCheckExpire s) [] o before ∧
    ∀ s', o = .ok (0, s') → s'.conn.token.accessToken = none

/-- A token that has been denied stays so. -/
theorem TokenDenied.append {s : Thread OneDriveConnect} {past : List CallEvent}
    (h : TokenDenied s past) (rest : List CallEvent) : TokenDenied s (past ++ rest) := by
  obtain ⟨o, before, hbefore, hends⟩ := h
  exact ⟨o, before, hbefore.trans (List.prefix_append _ _), hends⟩

/-- The check of the token says that there is one, or fails. -/
theorem oauthTokenCheckExpire_ends (s : Thread OneDriveConnect) (past : List CallEvent) :
    Script.wp record anyFault oauthTokenCheckExpire (fun rc _ _ => rc = 0 ∨ rc < 0) s past := by
  unfold oauthTokenCheckExpire
  simp only [Script.wp_bind, wp_oauthTokenIsExpired, Script.wp_ite, Script.wp_pure]
  refine fun now past₁ _ => ⟨fun _ => .inl trivial, fun _ => ?_⟩
  refine Script.wp_mono refreshAccessToken_spec (fun _ _ h => h) ?_
  exact fun rc s₁ past₂ _ => ⟨fun hneg => .inr hneg, fun _ => .inl trivial⟩

/-- The calls for the token are of none of the three kinds. -/
private theorem unseen_of_forToken {call : Call} (h : call.ForToken) : call.Unseen := by
  cases call with
  | httpClientPerform request =>
    intro hget
    rw [h.1] at hget
    cases hget
  | _ => simp_all [Call.ForToken, Call.Unseen]

/-- What a refresh asks is answered. -/
private theorem serving_forToken {chain : List (Bytes × HttpReply)} {past : List CallEvent}
    {call : Call}
    (h : call.ForToken) : ∃ r past', serving chain past call r past' := by
  obtain ⟨r⟩ : Nonempty call.Reply := by
    cases call with
    | gettimeofday => exact ⟨⟨0, 0⟩⟩
    | errno => exact ⟨0⟩
    | malloc size => exact ⟨true⟩
    | httpClientNew user => exact ⟨true⟩
    | httpClientEscape data => exact ⟨none⟩
    | httpClientPerform request => exact ⟨.accepted [] none⟩
    | cJSON_CreateObject => exact ⟨true⟩
    | cJSON_Print json => exact ⟨none⟩
    | openFile path mode => exact ⟨.ok ()⟩
    | write path data => exact ⟨.ok 0⟩
    | _ => exact h.elim
  exact ⟨r, _, serving_other (page?_of_unseen (unseen_of_forToken h) r)⟩

/-- How a listing ends. Either no page is asked for, because there is no token to ask with or an
allocation has failed; or the chain of pages is followed to its end. -/
inductive ListEnds (chain : List (Bytes × HttpReply)) (listed : Option (List Json))
    (s : Thread OneDriveConnect) (past : List CallEvent) :
    Except Fault (ℤ × Thread OneDriveConnect) → Prop
  | unasked {o : Except Fault (ℤ × Thread OneDriveConnect)}
    (hcause : TokenDenied s past ∨
      ⟨.httpClientNew .listFiles, false⟩ ∈ past ∨ ⟨.cJSON_CreateArray, false⟩ ∈ past)
    (hseen : Seen past [] [] []) (hneg : ∀ rc s', o = .ok (rc, s') → rc < 0) :
    ListEnds chain listed s past o
  | followed {rc : ℤ} {s' : Thread OneDriveConnect}
    (h : PagesEnd chain (documentsFrom 0 chain) listed rc past) :
    ListEnds chain listed s past (.ok (rc, s'))

/-- Whatever the number of pages, `list_files` comes to an end, and tells the user all entries of
all pages in order, or, if one of them is not what it must be, nothing. -/
theorem listFiles_lists {chain : List (Bytes × HttpReply)} {listed : Option (List Json)}
    (hlisting : Listing (OneDrive.itemUrl FILES_DIR OneDrive.childrenSuffix) chain listed)
    (hbodies : ∀ p ∈ chain, p.2.received ≠ []) {rounds : ℕ} (hrounds : chain.length ≤ rounds)
    (s : Thread OneDriveConnect) :
    (OneDrive.listFiles rounds s).Halts (serving chain) [] ∧
      ∀ o past, Program.Exec (serving chain) (OneDrive.listFiles rounds s) [] o past →
        ListEnds chain listed s past o := by
  suffices htotal : Script.twp (serving chain)
      (fun e past => ListEnds chain listed s past (.error e)) (OneDrive.listFiles rounds)
      (fun rc s' past => ListEnds chain listed s past (.ok (rc, s'))) s [] by
    refine ⟨htotal.halts, fun o past hex => ?_⟩
    have hends := Program.wp_iff_forall_exec.mp htotal.wp o past hex
    cases o with
    | ok _ => exact hends
    | error _ => exact hends
  have hstart : Seen [] [] [] [] := ⟨rfl, rfl, rfl⟩
  unfold OneDrive.listFiles
  simp only [Script.twp_bind]
  have hunseen : oauthTokenCheckExpire.Within Call.Unseen Fault.OfToken :=
    oauthTokenCheckExpire_within.mono (fun _ => unseen_of_forToken) fun _ h => h
  -- the check of the token asks for no page; how it ends is kept as a run of its own
  have hcheck := Script.wp_of_handler (fun _ _ _ _ h => h.1 : ∀ past call r past',
    serving chain past call r past' → record past call r past')
    (Script.wp_recorded hunseen (Script.wp_with_exec (oauthTokenCheckExpire_ends s [])))
  have htotal := hcheck.total (fun _ _ => serving_forToken) oauthTokenCheckExpire_within
  refine Script.twp_mono htotal ?_ ?_
  · rintro e past ⟨⟨-, hexec⟩, -, hrecorded⟩
    have hdenied : TokenDenied s past := ⟨_, past, List.prefix_rfl, hexec, by rintro _ ⟨⟩⟩
    exact .unasked (.inl hdenied) (hstart.recorded hrecorded) (by rintro _ _ ⟨⟩)
  rintro rc s₁ past₁ ⟨⟨hrc, hexec⟩, hrecorded⟩
  have hseen₁ := hstart.recorded hrecorded
  -- the URL of the folder fits its buffer
  have hurl : (sprintfUrl (OneDrive.itemUrl FILES_DIR OneDrive.childrenSuffix) :
      M OneDriveConnect Bytes) = pure (OneDrive.itemUrl FILES_DIR OneDrive.childrenSuffix) :=
    if_pos (by decide)
  rw [hurl]
  simp only [Script.twp_bind, Script.twp_ite, Script.twp_ask, Script.twp_pure]
  constructor
  · intro hneg
    have hdenied : TokenDenied s past₁ := by
      refine ⟨_, past₁, List.prefix_rfl, hexec, ?_⟩
      rintro s' ⟨⟩
      exact absurd hneg (lt_irrefl 0)
    exact .unasked (.inl hdenied) hseen₁ fun rc' s' h => by cases h; exact hneg
  intro hnonneg
  refine ⟨⟨true, _, serving_other rfl⟩, ?_⟩
  rintro created past₂ ⟨rfl, -⟩
  have hseen₂ := @Seen.unseen _ _ _ _ hseen₁ (.httpClientNew .listFiles) trivial created
  constructor
  · intro hno
    obtain rfl : created = false := by simpa using hno
    exact .unasked (.inr (.inl (by simp))) hseen₂ fun rc' s' h => by cases h; simp
  intro _
  refine ⟨⟨true, _, serving_other rfl⟩, ?_⟩
  rintro array past₃ ⟨rfl, -⟩
  have hseen₃ := @Seen.unseen _ _ _ _ hseen₂ .cJSON_CreateArray trivial array
  constructor
  · intro hno
    obtain rfl : array = false := by simpa using hno
    exact .unasked (.inr (.inr (by simp))) hseen₃ fun rc' s' h => by cases h; simp
  intro _
  -- without a token the first page crashes, and the token had been denied
  cases htoken : s₁.conn.token.accessToken with
  | some token =>
    have hpages : Script.twp (serving chain) noFault (OneDrive.listPages rounds 0 false _ [])
        (fun rc _ past' => PagesEnd chain ([] ++ [] ++ documentsFrom 0 chain)
          (listed.map ([] ++ ·)) rc past') s₁ _ :=
      listPages_lists hlisting hbodies hrounds rfl hseen₃ (by simp) (by rw [htoken]; rfl)
    have hlisted : listed.map ([] ++ ·) = listed := by simp
    rw [hlisted] at hpages
    exact Script.twp_mono hpages (fun _ _ h => h.elim) fun _ _ _ h => .followed h
  | none =>
    obtain ⟨reply, rest, rfl⟩ := hlisting.eq_cons
    obtain ⟨n, rfl⟩ : ∃ n, rounds = n + 1 :=
      Nat.exists_eq_add_one_of_ne_zero (Nat.ne_of_gt (Nat.lt_of_lt_of_le (by simp) hrounds))
    have hdenied : TokenDenied s past₁ := by
      obtain rfl : rc = 0 := hrc.resolve_right hnonneg
      refine ⟨_, past₁, List.prefix_rfl, hexec, ?_⟩
      rintro s' ⟨⟩
      exact htoken
    unfold OneDrive.listPages getBearerToken
    simp only [Script.twp_bind, Script.twp_get, Script.twp_pure, htoken]
    exact .unasked (.inl ((hdenied.append _).append _)) hseen₃ (by rintro _ _ ⟨⟩)

/-- An entry with this name, of this kind. -/
def namedEntry (name : Bytes) (kind : Bytes) : Json :=
  .object [(ascii "name", .string name), (kind, .object [])]

/-- A page with one file and a link. -/
def firstPage : Json :=
  .object [(ascii "value", .array [namedEntry (ascii "a") (ascii "file")]),
    (ascii "@odata.nextLink", .string (ascii "u"))]

/-- A page with one folder. -/
def lastPage : Json :=
  .object [(ascii "value", .array [namedEntry (ascii "b") (ascii "folder")])]

/-- The two pages. -/
def twoPages : List (Bytes × HttpReply) :=
  [(OneDrive.itemUrl FILES_DIR OneDrive.childrenSuffix, .accepted [[1]] (some firstPage)),
    (ascii "u", .accepted [[1]] (some lastPage))]

private theorem listEntry_namedEntry_file (name : Bytes) (hname : name ≠ []) :
    (namedEntry name (ascii "file")).ListEntry :=
  ⟨⟨name, hname, trivial, rfl⟩, .inl ⟨⟨[], rfl⟩, rfl⟩⟩

private theorem listEntry_namedEntry_folder (name : Bytes) (hname : name ≠ []) :
    (namedEntry name (ascii "folder")).ListEntry :=
  ⟨⟨name, hname, trivial, rfl⟩, .inr ⟨⟨[], rfl⟩, rfl⟩⟩

/-- A connection that holds tokens. -/
def listingThread : Thread OneDriveConnect :=
  ⟨⟨⟨[], [], [], [], [], some (ascii "t"), some (ascii "a"), some (ascii "r"), ⟨0, 0⟩⟩, []⟩, 0⟩

/-- The file and the folder are told. -/
theorem listFiles_lists_twoPages :
    (OneDrive.listFiles 2 listingThread).Halts (serving twoPages) [] ∧
      ∀ o past, Program.Exec (serving twoPages) (OneDrive.listFiles 2 listingThread) [] o past →
        ListEnds twoPages
          (some [namedEntry (ascii "a") (ascii "file"), namedEntry (ascii "b") (ascii "folder")])
          listingThread past o := by
  have hlast : IsPage (.accepted [[1]] (some lastPage))
      [namedEntry (ascii "b") (ascii "folder")] none := by
    refine ⟨rfl, lastPage, rfl, rfl, ?_, rfl⟩
    simpa using listEntry_namedEntry_folder (ascii "b") (by decide)
  have hfirst : IsPage (.accepted [[1]] (some firstPage))
      [namedEntry (ascii "a") (ascii "file")] (some (ascii "u")) := by
    refine ⟨rfl, firstPage, rfl, rfl, ?_, by decide, rfl⟩
    simpa using listEntry_namedEntry_file (ascii "a") (by decide)
  refine listFiles_lists (.next hfirst (.last hlast)) ?_ le_rfl _
  simp [HttpReply.accepted, HttpReply.received]

end HiveSDK
