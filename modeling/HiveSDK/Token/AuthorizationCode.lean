import HiveSDK.Errors.Connect

/-!
# The code that comes back from the redirect server

Every request for the redirect path overwrites the buffer for the code, also one without a code and
one whose code does not fit. So what is returned depends on the last such request alone, and what is
recorded as an error on whether there was any request the handler objects to. That the code returned
is one that was carried, and that a failure is an error, is therefore a property of whole sequences
of events (`Redirected`); `getAuthorizeCode_right_iff` says of which.
-/

namespace HiveSDK

open Interaction C

/-- The code parameter of a request for the redirect path. -/
def SbEvent.codeFor (path : Bytes) : SbEvent → Option (Option Bytes)
  | .request requestPath value => if requestPath = path then some value else none
  | _ => none

/-- What the last request for the redirect path carried. -/
def lastCarried (path : Bytes) (events : List SbEvent) : Option (Option Bytes) :=
  (events.filterMap (SbEvent.codeFor path)).getLast?

/-- The handler objects to the request: it is for another path, or has no code that fits. -/
def SbEvent.Objectionable (path : Bytes) : SbEvent → Prop
  | .request requestPath value => requestPath ≠ path ∨ ∀ v, value = some v → 511 ≤ v.length
  | _ => False

/-- One of the requests carries this code: not empty, and short enough for the buffer. -/
def CarriedBy (path : Bytes) (events : List SbEvent) (v : Bytes) : Prop :=
  .request path (some v) ∈ events ∧ v ≠ [] ∧ v.length < 511

/-- A sequence of events that the handler gets right. If some request carries a code, the last one
carries a code whose part that fits the buffer, up to a zero byte, is such a code. If none does, the
last one leaves the buffer empty, and the handler objects to one of the requests. -/
structure Redirected (path : Bytes) (events : List SbEvent) : Prop where
  carried : (∃ v, CarriedBy path events v) →
    ∃ v, lastCarried path events = some (some v) ∧ CarriedBy path events (cString (v.take 511))
  refused : (¬∃ v, CarriedBy path events v) →
    (∀ v, lastCarried path events = some (some v) → v.head? = none ∨ v.head? = some 0) ∧
      ∃ e ∈ events, e.Objectionable path

/-! ### The buffer and the error -/

section

variable {path : Bytes} {events : List SbEvent}

/-- A value is cut to what the buffer of the code holds. -/
private theorem sbGetVar_some (v : Bytes) :
    (sbGetVar (some v) authorizeCodeSize).2 = v.take 511 := by
  unfold sbGetVar
  dsimp only
  split
  · rfl
  · rename_i hshort
    have hlength : v.length ≤ 511 := by
      unfold authorizeCodeSize at hshort
      omega
    exact (List.take_of_length_le hlength).symm

/-- The buffer holds what the last request for the path left in it. -/
private theorem lastCode_eq (code : Bytes) : lastCode path code events =
    match lastCarried path events with
    | none => code
    | some value => (sbGetVar value authorizeCodeSize).2 := by
  induction events generalizing code with
  | nil => rfl
  | cons e events ih =>
    rw [lastCode, ih]
    unfold lastCarried
    cases e with
    | close => rfl
    | other => rfl
    | request requestPath value =>
      by_cases hpath : requestPath = path
      · have hstored : (SbEvent.request requestPath value).storedCode path =
          some (sbGetVar value authorizeCodeSize).2 := if_pos hpath
        have hcode : (SbEvent.request requestPath value).codeFor path = some value := if_pos hpath
        rw [hstored, List.filterMap_cons_some hcode, List.getLast?_cons]
        cases (events.filterMap (SbEvent.codeFor path)).getLast? with
        | none => rfl
        | some _ => rfl
      · have hstored : (SbEvent.request requestPath value).storedCode path = none := if_neg hpath
        have hcode : (SbEvent.request requestPath value).codeFor path = none := if_neg hpath
        rw [hstored, List.filterMap_cons_none hcode]
        rfl

/-- The handler records an error for the objectionable events. -/
private theorem recordsError_iff (e : SbEvent) :
    e.recordsError path = true ↔ e.Objectionable path := by
  cases e with
  | close => exact iff_of_false (by rintro ⟨⟩) id
  | other => exact iff_of_false (by rintro ⟨⟩) id
  | request requestPath value =>
    simp only [SbEvent.recordsError, SbEvent.Objectionable, Bool.or_eq_true, decide_eq_true_eq,
      Bool.not_eq_true', ne_eq]
    refine or_congr_right ?_
    cases value with
    | none => exact iff_of_true rfl (by rintro _ ⟨⟩)
    | some v =>
      simp only [Option.some.injEq, forall_eq']
      unfold sbGetVar authorizeCodeSize
      dsimp only
      split
      · rename_i hlong
        exact iff_of_true rfl hlong
      · rename_i hshort
        exact iff_of_false (by rintro ⟨⟩) hshort

/-- The string in the buffer is empty when the value begins with its end. -/
private theorem cString_take_eq_nil {v : Bytes} :
    cString (v.take 511) = [] ↔ v.head? = none ∨ v.head? = some 0 := by
  cases v with
  | nil => exact iff_of_true rfl (.inl rfl)
  | cons b v =>
    unfold cString
    rw [show (511 : ℕ) = 510 + 1 from rfl, List.take_succ_cons]
    by_cases hb : b = 0
    · subst hb
      exact iff_of_true rfl (.inr rfl)
    · have hkeep : decide (b ≠ 0) = true := decide_eq_true hb
      rw [List.takeWhile_cons_of_pos (p := fun x => decide (x ≠ 0)) hkeep]
      refine iff_of_false (List.cons_ne_nil _ _) ?_
      rintro (h | h)
      · cases h
      · exact hb (Option.some.inj h)

end

/-! ### Runs -/

/-- Some request handled in the run carries this code. -/
def Carried (tr : List CallEvent) (v : Bytes) : Prop :=
  ∃ path polls, Polled tr path polls ∧ CarriedBy path (handledEvents polls) v

/-- A request for a code on the trace `tr` comes back right: with a code that was carried, if one
was; otherwise with none, and with an error that is set whatever the error was before. -/
structure AuthorizeRight (c : OneDriveConnect) (tr : List CallEvent) (code : Option Bytes) :
    Prop where
  carried : (∃ v, Carried tr v) → ∃ v, Carried tr v ∧ code = some v
  refused : (¬∃ v, Carried tr v) → code = none ∧ ∃ err < 0, ∀ e,
    Program.Exec playback (getAuthorizeCode ⟨c, e⟩) tr (.ok (none, ⟨c, err⟩)) []

section

variable {c : OneDriveConnect} {e : ℤ} {tr : List CallEvent} {code : Option Bytes}
  {s' : Thread OneDriveConnect}

/-- How a run comes back, and what a run from another error comes back with. -/
private theorem getAuthorizeCode_from (hex : Program.Exec playback (getAuthorizeCode ⟨c, e⟩) tr
    (.ok (code, s')) []) (e' : ℤ) :
    ∃ err, Program.Exec playback (getAuthorizeCode ⟨c, e'⟩) tr (.ok (code, ⟨c, err⟩)) [] := by
  obtain ⟨o, hex', hends⟩ := (getAuthorizeCode_lockstep c e e' []).exec_playback hex
  match o, hends with
  | .ok (code', ⟨c', err⟩), ⟨hcode, _, hconn, _⟩ =>
    dsimp only at hcode hconn
    subst hcode hconn
    exact ⟨err, hex'⟩

/-- A run over its whole trace makes one of the requests for a code. -/
private theorem getAuthorizeCode_outcome (hex : Program.Exec playback (getAuthorizeCode ⟨c, e⟩) tr
    (.ok (code, s')) []) : CodeRequest e tr code s'.hiveError := by
  obtain ⟨-, new, htr, hrequest⟩ := (getAuthorizeCode_requests ⟨c, e⟩ tr).of_exec hex
  rw [List.append_nil] at htr
  exact htr ▸ hrequest

/-- A failure sets an error exactly when it is not a silent one. -/
private theorem error_set_iff (hex : Program.Exec playback (getAuthorizeCode ⟨c, e⟩) tr
    (.ok (none, s')) []) :
    (∃ err < 0, ∀ e, Program.Exec playback (getAuthorizeCode ⟨c, e⟩) tr
      (.ok (none, ⟨c, err⟩)) []) ↔ ¬SilentFailure tr := by
  have outcome {e err : ℤ} (hrun : Program.Exec playback (getAuthorizeCode ⟨c, e⟩) tr
      (.ok (none, ⟨c, err⟩)) []) :
      SilentFailure tr ∧ err = e ∨ ¬SilentFailure tr ∧ err < 0 := by
    obtain ⟨-, new, htr, houtcome⟩ := (getAuthorizeCode_playback ⟨c, e⟩ tr).of_exec hrun
    rw [List.append_nil] at htr
    subst htr
    exact houtcome
  constructor
  · rintro ⟨err, hneg, hall⟩ hsilent
    rcases outcome (hall 0) with ⟨-, hzero⟩ | ⟨hloud, -⟩
    · rw [hzero] at hneg
      exact lt_irrefl 0 hneg
    · exact hloud hsilent
  · intro hloud
    obtain ⟨err, hzero⟩ := getAuthorizeCode_from hex 0
    have hneg := ((outcome hzero).resolve_left fun h => hloud h.1).2
    refine ⟨err, hneg, fun e' => ?_⟩
    -- two runs that differ in the prior error alone
    obtain ⟨err', hrun⟩ := getAuthorizeCode_from hex e'
    obtain ⟨o, hrun', hends⟩ := (getAuthorizeCode_lockstep c e' 0 []).exec_playback hrun
    obtain ⟨rfl, -⟩ := hrun'.playback_unique hzero
    rcases hends.2.2.2 with ⟨-, herr⟩ | ⟨hsame, -⟩
    · dsimp only at herr
      rw [herr] at hneg
      exact absurd hneg (lt_irrefl 0)
    · dsimp only at hsame
      exact hsame ▸ hrun

/-- The server is created, and the events handled, if it comes to that, are among those the handler
gets right. -/
def RedirectWorks (tr : List CallEvent) : Prop :=
  ¬NoServer tr ∧ ∀ path polls, Polled tr path polls → Redirected path (handledEvents polls)

/-- A request for a code comes back right exactly when the redirect works. -/
theorem getAuthorizeCode_right_iff (hex : Program.Exec playback (getAuthorizeCode ⟨c, e⟩) tr
    (.ok (code, s')) []) : AuthorizeRight c tr code ↔ RedirectWorks tr := by
  have hrequest := getAuthorizeCode_outcome hex
  generalize s'.hiveError = err at hrequest
  cases hrequest with
  | failed hserver hpolled herr =>
    -- nothing was polled, so that nothing carries a code
    have hnone : ¬∃ v, Carried tr v := by
      rintro ⟨v, path, polls, hpolls, -⟩
      exact hpolled path polls hpolls
    have hloud : ¬SilentFailure tr := by
      rw [silentFailure_iff]
      rintro (hno | ⟨path, polls, hpolls, -⟩)
      · exact hserver hno
      · exact hpolled path polls hpolls
    refine iff_of_true ⟨fun h => absurd h hnone, fun _ => ⟨rfl, (error_set_iff hex).mpr hloud⟩⟩ ?_
    exact ⟨hserver, fun path polls hpolls => absurd hpolls (hpolled path polls)⟩
  | noServer hserver hpolled =>
    have hnone : ¬∃ v, Carried tr v := by
      rintro ⟨v, path, polls, hpolls, -⟩
      exact hpolled path polls hpolls
    -- no server and no error: this failure is silent
    refine iff_of_false (fun hright => ?_) fun hworks => hworks.1 hserver
    exact (error_set_iff hex).mp (hright.refused hnone).2 (.inl hserver)
  | @waited path polls r hserver hpolled hwait =>
    -- the path and the polls of the trace are those of the wait
    have hcarried (v : Bytes) : Carried tr v ↔ CarriedBy path (handledEvents polls) v := by
      constructor
      · rintro ⟨path', polls', hpolls, h⟩
        obtain ⟨rfl, rfl⟩ := (hpolled path' polls').mp hpolls
        exact h
      · exact fun h => ⟨path, polls, (hpolled path polls).mpr ⟨rfl, rfl⟩, h⟩
    have hworks : RedirectWorks tr ↔ Redirected path (handledEvents polls) := by
      constructor
      · exact fun h => h.2 path polls ((hpolled path polls).mpr ⟨rfl, rfl⟩)
      · refine fun h => ⟨hserver, fun path' polls' hpolls => ?_⟩
        obtain ⟨rfl, rfl⟩ := (hpolled path' polls').mp hpolls
        exact h
    have hcode : r.code = lastCode path [] (handledEvents polls) := by
      rw [waitRedirect_eq_some rfl hwait]
      exact (foldl_handleAuthRedirect path (handledEvents polls) ⟨false, [], e⟩).2.1
    have hlast {v : Bytes} (hv : lastCarried path (handledEvents polls) = some (some v)) :
        cString r.code = cString (v.take 511) := by
      rw [hcode, lastCode_eq, hv]
      exact congrArg cString (sbGetVar_some v)
    -- a code without a value leaves the buffer empty
    have hempty (hv : ∀ v, lastCarried path (handledEvents polls) ≠ some (some v)) :
        cString r.code = [] := by
      rw [hcode, lastCode_eq]
      match hcase : lastCarried path (handledEvents polls) with
      | none => rfl
      | some none => rfl
      | some (some v) => exact absurd hcase (hv v)
    have hsilent (hnil : cString r.code = []) : ¬SilentFailure tr ↔
        ∃ e ∈ handledEvents polls, e.Objectionable path := by
      have hthis : SilentFailure tr ↔ SilentRedirect path polls := by
        rw [silentFailure_iff]
        constructor
        · rintro (hno | ⟨path', polls', hpolls, hsilent⟩)
          · exact absurd hno hserver
          · obtain ⟨rfl, rfl⟩ := (hpolled path' polls').mp hpolls
            exact hsilent
        · exact fun h => .inr ⟨path, polls, (hpolled path polls).mpr ⟨rfl, rfl⟩, h⟩
      rw [hthis, SilentRedirect, ← hcode, hnil]
      simp only [and_true, not_forall, Bool.not_eq_false, recordsError_iff, exists_prop]
    -- what is left speaks of the events only
    simp only [hworks]
    constructor
    · intro hright
      refine ⟨?_, ?_⟩
      · rintro ⟨v, hv⟩
        obtain ⟨v', hv', hcode'⟩ := hright.carried ⟨v, (hcarried v).mpr hv⟩
        rw [hcarried] at hv'
        split at hcode'
        · cases hcode'
        rename_i hne
        by_contra hno
        -- the code that is returned is that of the last request
        refine hne (hempty fun u hu => hno ⟨u, hu, ?_⟩)
        rw [← hlast hu, Option.some.inj hcode']
        exact hv'
      · intro hno
        obtain ⟨hnone, herr⟩ := hright.refused (by simpa only [hcarried] using hno)
        rw [hnone] at hex
        have hnil : cString r.code = [] := by
          by_contra hne
          rw [if_neg hne] at hnone
          cases hnone
        refine ⟨fun v hv => ?_, (hsilent hnil).mp ((error_set_iff hex).mp herr)⟩
        rw [← cString_take_eq_nil, ← hlast hv]
        exact hnil
    · intro hredirected
      refine ⟨?_, ?_⟩
      · rintro ⟨v, hv⟩
        obtain ⟨u, hu, hgood⟩ := hredirected.carried ⟨v, (hcarried v).mp hv⟩
        rw [← hlast hu] at hgood
        exact ⟨_, (hcarried _).mpr hgood, if_neg hgood.2.1⟩
      · intro hno
        obtain ⟨hhead, hobject⟩ := hredirected.refused (by simpa only [hcarried] using hno)
        have hnil : cString r.code = [] := by
          by_contra hne
          refine hne (hempty fun v hv => hne ?_)
          rw [hlast hv]
          exact cString_take_eq_nil.mpr (hhead v hv)
        rw [if_pos hnil] at hex ⊢
        exact ⟨rfl, (error_set_iff hex).mpr ((hsilent hnil).mpr hobject)⟩

end

/-- A connection that asks for a code on the local host. -/
def localConnect : OneDriveConnect :=
  ⟨⟨[], [], [], [], ascii "http://localhost:12345/", none, none, none, ⟨0, 0⟩⟩, []⟩

/-- A request for a code that comes to the polls. -/
def redirectTrace (polls : List (List SbEvent)) : List CallEvent :=
  [⟨.httpClientNew .getAuthorizeCode, true⟩,
    ⟨.curlUrlGet .url [] [(ascii "client_id", []), (ascii "scope", []),
      (ascii "redirect_uri", ascii "http://localhost:12345/"),
      (ascii "response_type", ascii "code")], .ok []⟩,
    ⟨.curlUrlGet .host (ascii "http://localhost:12345/") [], .ok (ascii "localhost")⟩,
    ⟨.curlUrlGet .port (ascii "http://localhost:12345/") [], .ok (ascii "12345")⟩,
    ⟨.curlUrlGet .path (ascii "http://localhost:12345/") [], .ok [47]⟩,
    ⟨.sbNewServer (ascii "localhost") (ascii "12345"), true⟩, ⟨.pthreadCreate [], 0⟩,
    ⟨.sbPollServer, polls⟩]

/-- The browser asks for an icon and closes the stream. -/
theorem getAuthorizeCode_right_iff_icon :
    AuthorizeRight localConnect
        (redirectTrace [[.request [47] (some [97, 98, 99])], [.request [47, 105] none, .close]])
        (some [97, 98, 99]) ↔
      RedirectWorks
        (redirectTrace [[.request [47] (some [97, 98, 99])], [.request [47, 105] none, .close]]) :=
  @getAuthorizeCode_right_iff localConnect 0 _ _
    ⟨localConnect, toInt (hiveGeneralError HIVEERR_BAD_ADDRESS)⟩
    (.ask rfl (.ask rfl (.ask rfl (.ask rfl (.ask rfl (.ask rfl (.ask rfl (.ask rfl
      (.ret _ _)))))))))

/-- A code that was carried is forgotten when the page is loaded again without it. -/
theorem getAuthorizeCode_forgotten :
    ∃ tr s', Program.Exec playback (getAuthorizeCode ⟨localConnect, 0⟩) tr (.ok (none, s')) [] ∧
      Carried tr [97, 98, 99] ∧ ¬AuthorizeRight localConnect tr none := by
  have hcarried : Carried (redirectTrace [[.request [47] (some [97, 98, 99])],
      [.request [47] none, .close]]) [97, 98, 99] := by
    refine ⟨[47], [[.request [47] (some [97, 98, 99])], [.request [47] none, .close]],
      ⟨⟨ascii "http://localhost:12345/", ?_⟩, ?_⟩, ?_⟩
    · simp [redirectTrace]
    · exact List.mem_of_getLast? rfl
    · exact ⟨by decide, by decide, by decide⟩
  refine ⟨redirectTrace [[.request [47] (some [97, 98, 99])], [.request [47] none, .close]],
    ⟨localConnect, toInt (hiveGeneralError HIVEERR_INVALID_CREDENTIAL)⟩,
    .ask rfl (.ask rfl (.ask rfl (.ask rfl (.ask rfl (.ask rfl (.ask rfl (.ask rfl
      (.ret _ _)))))))), hcarried, fun hright => ?_⟩
  obtain ⟨v, -, hv⟩ := hright.carried ⟨_, hcarried⟩
  cases hv

end HiveSDK
