import HiveSDK.Sandbird.Request

/-!
# One stream

What `sb_poll_server` does to one stream, against a network that answers anything and keeps what
each client has sent and got (`network`). A stream reads until its bytes hold a request, however
`recv` cuts them into pieces; the request then makes one event, and the stream only sends what the
handler has written (`Live`).

The proposition `ok` says whether memory is always there. Without it a byte may be lost, and what
holds then is what does not depend on the bytes that were sent.
-/

namespace HiveSDK

open Interaction Url

namespace Sandbird

/-! ### The network -/

/-- What `recv` has returned from each stream, and what of it `send` has taken. -/
structure Wire where
  received : ℕ → Bytes
  sent : ℕ → Bytes

namespace Wire

def receive (wire : Wire) (i : ℕ) (bs : Bytes) : Wire :=
  { wire with received := Function.update wire.received i (wire.received i ++ bs) }

def deliver (wire : Wire) (i : ℕ) (bs : Bytes) : Wire :=
  { wire with sent := Function.update wire.sent i (wire.sent i ++ bs) }

private theorem deliver_nil (wire : Wire) (i : ℕ) : wire.deliver i [] = wire := by
  rw [deliver, List.append_nil, Function.update_eq_self]

/-- Nothing has been sent yet. -/
def silent : Wire := ⟨fun _ => [], fun _ => []⟩

end Wire

/-- Any answers; memory is there if `ok` holds. -/
def network (ok : Prop) : Handler Wire SbCall SbCall.Reply
  | wire, .realloc _, r, wire' => (ok → r = true) ∧ wire' = wire
  | wire, .malloc, r, wire' => (ok → r = true) ∧ wire' = wire
  | wire, .recv i, r, wire' => wire' = wire.receive i r.chunks.flatten
  | wire, .send i data, r, wire' =>
    wire' = match r with
      | .ok n => wire.deliver i (data.take n)
      | .error _ => wire
  | wire, .select, _, wire' => wire' = wire
  | wire, .time, _, wire' => wire' = wire
  | wire, .accept, _, wire' => wire' = wire
  | wire, .loops, _, wire' => wire' = wire

/-- Without memory for certain there are more answers. -/
theorem network_false {wire wire' : Wire} (i : SbCall) (r : i.Reply)
    (h : network True wire i r wire') : network False wire i r wire' := by
  cases i with
  | realloc n => exact ⟨False.elim, h.2⟩
  | malloc => exact ⟨False.elim, h.2⟩
  | _ => exact h

section Calls

variable {ok : Prop} {F : Fault → Wire → Prop} {srv : Server} {wire : Wire}

/-- A reallocation fails only where allocations may. -/
private theorem wp_realloc {n : ℕ} {Q : Bool → Server → Wire → Prop}
    (hQ : ∀ r, (ok → r = true) → Q r srv wire) :
    Script.wp (network ok) F (realloc n) Q srv wire := by
  rintro r _ ⟨hr, rfl⟩
  exact hQ r hr

/-- So does an allocation. -/
theorem wp_malloc {Q : Bool → Server → Wire → Prop} (hQ : ∀ r, (ok → r = true) → Q r srv wire) :
    Script.wp (network ok) F malloc Q srv wire := by
  rintro r _ ⟨hr, rfl⟩
  exact hQ r hr

/-- What is received is what the client has sent on. -/
private theorem wp_recv {i : ℕ} {Q : Received → Server → Wire → Prop}
    (hQ : ∀ r, Q r srv (wire.receive i r.chunks.flatten)) :
    Script.wp (network ok) F (recv i) Q srv wire := by
  rintro r _ rfl
  exact hQ r

/-- What is sent is a front of the data, or nothing. -/
private theorem wp_send {i : ℕ} {data : Bytes} {Q : Except Bool ℕ → Server → Wire → Prop}
    (hfail : ∀ b, Q (.error b) srv wire)
    (hsent : ∀ n, Q (.ok n) srv (wire.deliver i (data.take n))) :
    Script.wp (network ok) F (send i data) Q srv wire := by
  rintro r _ rfl
  cases r with
  | error b => exact hfail b
  | ok n => exact hsent n

/-- A call that leaves the network as it was. -/
theorem wp_quiet {i : SbCall} {Q : i.Reply → Server → Wire → Prop}
    (hi : ∀ r wire', network ok wire i r wire' → wire' = wire) (hQ : ∀ r, Q r srv wire) :
    Script.wp (network ok) F (ask i) Q srv wire := by
  intro r wire' hr
  obtain rfl := hi r wire' hr
  exact hQ r

private theorem wp_loops {α : Type} {Q : α → Server → Wire → Prop} :
    Script.wp (network ok) F loops Q srv wire := by
  rw [loops, Script.wp_bind]
  intro r
  exact r.elim

/-- The buffer with the bytes pushed, or as it was. -/
def Pushed (ok : Prop) (buf : Buffer) (x : Bytes) (r : Bool × Buffer) : Prop :=
  (ok → r.1 = true) ∧ r.2.data = if r.1 then buf.data ++ x else buf.data

/-- A byte is pushed, or memory is out. -/
theorem wp_bufferPushChar {buf : Buffer} {c : UInt8} :
    Script.wp (network ok) F (bufferPushChar buf c)
      (fun r srv' wire' => Pushed ok buf [c] r ∧ srv' = srv ∧ wire' = wire) srv wire := by
  unfold bufferPushChar
  split
  · exact ⟨⟨fun _ => rfl, rfl⟩, rfl, rfl⟩
  · rw [Script.wp_bind]
    refine wp_realloc fun r hr => ?_
    cases r with
    | false => exact ⟨⟨fun h => hr h, rfl⟩, rfl, rfl⟩
    | true => exact ⟨⟨fun _ => rfl, rfl⟩, rfl, rfl⟩

/-- So is a string, by induction on it. -/
private theorem wp_bufferPushStr {buf : Buffer} {p : Bytes} :
    Script.wp (network ok) F (bufferPushStr buf p)
      (fun r srv' wire' => Pushed ok buf p r ∧ srv' = srv ∧ wire' = wire) srv wire := by
  induction p generalizing buf with
  | nil => exact ⟨⟨fun _ => rfl, (List.append_nil _).symm⟩, rfl, rfl⟩
  | cons c p ih =>
    rw [bufferPushStr, Script.wp_bind]
    refine Script.wp_mono wp_bufferPushChar (fun _ _ h => h) ?_
    rintro ⟨okc, grown⟩ _ _ ⟨⟨hokc, hgrown⟩, rfl, rfl⟩
    cases okc with
    | false => exact ⟨⟨fun h => hokc h, hgrown⟩, rfl, rfl⟩
    | true =>
      simp only [Bool.not_true, Bool.false_eq_true, if_false]
      rw [Script.wp_bind]
      refine Script.wp_mono ih (fun _ _ h => h) ?_
      rintro ⟨okp, pushed⟩ _ _ ⟨⟨hokp, hpushed⟩, rfl, rfl⟩
      rw [if_pos rfl] at hgrown
      cases okp with
      | false =>
        refine ⟨⟨fun h => hokp h, ?_⟩, rfl, rfl⟩
        change pushed.data.take buf.data.length = buf.data
        rw [hpushed, if_neg Bool.false_ne_true, hgrown, List.take_left]
      | true =>
        refine ⟨⟨fun _ => rfl, ?_⟩, rfl, rfl⟩
        rw [if_pos rfl, hpushed, if_pos rfl, hgrown, List.append_assoc]
        rfl

/-- So is the end of a string, which does not count as data. -/
theorem wp_bufferNullTerminate {buf : Buffer} :
    Script.wp (network ok) F (bufferNullTerminate buf)
      (fun r srv' wire' => Pushed ok buf [] r ∧ srv' = srv ∧ wire' = wire) srv wire := by
  unfold bufferNullTerminate
  rw [Script.wp_ite]
  refine ⟨fun _ => ⟨⟨fun _ => rfl, (List.append_nil _).symm⟩, rfl, rfl⟩, fun _ => ?_⟩
  rw [Script.wp_bind]
  refine wp_realloc fun r hr => ?_
  cases r with
  | false => exact ⟨⟨fun h => hr h, rfl⟩, rfl, rfl⟩
  | true => exact ⟨⟨fun _ => rfl, (List.append_nil _).symm⟩, rfl, rfl⟩

end Calls

/-! ### Events -/

/-- An event as `waitRedirect` takes it. -/
def Event.seen (e : Event) : SbEvent :=
  match e.type with
  | .connect => .other
  | .close => .close
  | .request _ path => .request path ((e.stream.findVariable (ascii "code")).map decode)

/-- The request asks for the redirect path and has a code that is not too long. -/
def accepts (path : Bytes) : SbEvent → Bool
  | .request requestPath value => requestPath = path && (sbGetVar value authorizeCodeSize).1
  | _ => false

/-- The line that `handle_auth_redirect` writes. -/
def statusLine : Bytes := ascii "HTTP/1.1 200 OK" ++ crlf

/-- The server after events have been handled. -/
def Server.after (path : Bytes) (srv : Server) (es : List Event) : Server :=
  { srv with
    redirect := (es.map Event.seen).foldl (handleAuthRedirect path) srv.redirect
    emitted := srv.emitted ++ es }

theorem Server.after_nil (path : Bytes) (srv : Server) : srv.after path [] = srv := by
  unfold after
  rw [List.append_nil]
  rfl

/-- The handler runs over the events in their order. -/
theorem Server.after_after (path : Bytes) (srv : Server) (es es' : List Event) :
    (srv.after path es).after path es' = srv.after path (es ++ es') := by
  simp only [after, List.map_append, List.foldl_append, List.append_assoc]

/-- The stream after its event has been handled: the line is written when the event is accepted and
there is memory for it. -/
inductive Answered (ok : Prop) (accepted : Bool) (st : Stream) : Stream → Prop
  | same (h : ok → accepted = false) : Answered ok accepted st st
  | full (h : accepted = true) (hok : ¬ok) (buf : Buffer) (hbuf : buf.data = st.sendBuf.data) :
    Answered ok accepted st { st with sendBuf := buf }
  | written (h : accepted = true) (buf : Buffer) (hbuf : buf.data = st.sendBuf.data ++ statusLine) :
    Answered ok accepted st { st with sendBuf := buf, state := .sendingHeader }

/-- The variable of the code is the one that `sb_get_var` copies. -/
private theorem getVar_eq (st : Stream) (name : Bytes) (len : ℕ) :
    getVar st name len = sbGetVar ((st.findVariable name).map decode) len := by
  unfold getVar
  split
  · rename_i hnone
    rw [hnone]
    rfl
  · rename_i s hsome
    rw [hsome, urlDecode_eq]
    rfl

section Events

variable {ok : Prop} {F : Fault → Wire → Prop} {srv : Server} {wire : Wire} {path : Bytes}

/-- The status line is put into the buffer, or memory is out. -/
private theorem wp_sendStatus {st : Stream} (hst : st.state = .sendingStatus) :
    Script.wp (network ok) F (sendStatus st 200 (ascii "OK"))
      (fun r srv' wire' => Answered ok true st r.2 ∧ srv' = srv ∧ wire' = wire) srv wire := by
  have hline : ascii "HTTP/1.1 " ++ decimal 200 ++ ascii " " ++ ascii "OK" ++ crlf =
      statusLine := by
    decide
  unfold sendStatus
  rw [hline, if_neg (not_not.mpr hst), Script.wp_bind]
  refine Script.wp_mono wp_bufferPushStr (fun _ _ h => h) ?_
  rintro ⟨written, buf⟩ _ _ ⟨⟨hok, hbuf⟩, rfl, rfl⟩
  cases written with
  | false => exact ⟨.full rfl (fun h => Bool.false_ne_true (hok h)) buf hbuf, rfl, rfl⟩
  | true => exact ⟨.written rfl buf hbuf, rfl, rfl⟩

/-- Emitting an event is what `handleAuthRedirect` does with it, and the answer to the stream. -/
private theorem wp_streamEmit {st : Stream} {type : EventType}
    (hst : accepts path (Event.seen ⟨type, st⟩) = true → st.state = .sendingStatus) :
    Script.wp (network ok) F (streamEmit path st type)
      (fun st' srv' wire' => Answered ok (accepts path (Event.seen ⟨type, st⟩)) st st' ∧
        srv' = srv.after path [⟨type, st⟩] ∧ wire' = wire) srv wire := by
  unfold streamEmit
  rw [Script.wp_bind, Script.wp_modify]
  unfold handle
  cases type with
  | connect => exact ⟨.same fun _ => rfl, rfl, rfl⟩
  | close => exact ⟨.same fun _ => rfl, rfl, rfl⟩
  | request method requestPath =>
    dsimp only
    rw [getVar_eq]
    have hseen : Event.seen ⟨.request method requestPath, st⟩ =
      .request requestPath ((st.findVariable (ascii "code")).map decode) := rfl
    rw [hseen] at hst ⊢
    unfold Server.after
    rw [List.map_cons, hseen]
    generalize (st.findVariable (ascii "code")).map decode = value at hst
    change (requestPath = path && _) = true → _ at hst
    change Script.wp _ _ _ (fun st' srv' wire' =>
      Answered ok (requestPath = path && (sbGetVar value authorizeCodeSize).1) st st' ∧ _) _ _
    simp only [List.map_nil, List.foldl_cons, List.foldl_nil, handleAuthRedirect]
    generalize sbGetVar value authorizeCodeSize = found at hst ⊢
    generalize C.toInt (hiveGeneralError HIVEERR_BAD_ADDRESS) = badAddress
    generalize C.toInt (hiveGeneralError HIVEERR_INVALID_CREDENTIAL) = invalid
    obtain ⟨found, code⟩ := found
    -- only a request for the redirect path may be answered
    by_cases hpath : requestPath = path
    · rw [if_neg (not_not.mpr hpath), if_neg (not_not.mpr hpath)]
      rw [decide_eq_true hpath, Bool.true_and] at hst ⊢
      cases found with
      | false => exact ⟨.same fun _ => rfl, rfl, rfl⟩
      | true =>
        rw [Script.wp_bind, Script.wp_modify, if_neg (by simp only [Bool.not_true,
          Bool.false_eq_true, not_false_eq_true]), Script.wp_bind]
        exact wp_sendStatus (hst rfl)
    · rw [if_pos hpath, if_pos hpath, decide_eq_false hpath, Bool.false_and]
      exact ⟨.same fun _ => rfl, rfl, rfl⟩

/-- Only a request is answered. -/
theorem wp_streamEmit_still {st : Stream} {type : EventType}
    (htype : type = .connect ∨ type = .close) :
    Script.wp (network ok) F (streamEmit path st type)
      (fun st' srv' wire' => st' = st ∧ srv' = srv.after path [⟨type, st⟩] ∧ wire' = wire) srv
      wire := by
  rcases htype with rfl | rfl
  · exact ⟨rfl, rfl, rfl⟩
  · exact ⟨rfl, rfl, rfl⟩

end Events

/-- From `srv` to `srv'` nothing happens but events of the stream `i`, seen as `reqs`. -/
def Emitted (path : Bytes) (i : ℕ) (reqs : List SbEvent) (srv srv' : Server) : Prop :=
  ∃ es : List Event, srv' = srv.after path es ∧ es.map Event.seen = reqs ∧
    ∀ e ∈ es, e.stream.serial = i

theorem Emitted.refl (path : Bytes) (i : ℕ) (srv : Server) : Emitted path i [] srv srv :=
  ⟨[], (srv.after_nil path).symm, rfl, nofun⟩

/-- One event of one stream. -/
theorem Emitted.single (path : Bytes) (srv : Server) (e : Event) :
    Emitted path e.stream.serial [e.seen] srv (srv.after path [e]) :=
  ⟨[e], rfl, rfl, by simp⟩

/-! ### What a stream has done -/

/-- The requests that the bytes of a client amount to. -/
def Asks (received : Bytes) (reqs : List SbEvent) : Prop :=
  NoRequest received ∧ reqs = [] ∨
    ∃ h b, h ++ b <+: received ∧ IsRequest h b ∧ reqs = (redirectEvent h b).toList

theorem Asks.readable {received : Bytes} {reqs : List SbEvent} (hasks : Asks received reqs) :
    Readable received := by
  rcases hasks with ⟨hno, -⟩ | ⟨h, b, hpre, hreq, -⟩
  · exact hno.readable
  · exact hreq.readable hpre

/-- What is asked is decided by any piece of the bytes that is a request. -/
theorem Asks.eq_of_request {received h b : Bytes} {reqs : List SbEvent} (hasks : Asks received reqs)
    (hreq : IsRequest h b) (hpre : h ++ b <+: received) : reqs = (redirectEvent h b).toList := by
  rcases hasks with ⟨hno, -⟩ | ⟨h', b', hpre', hreq', rfl⟩
  · exact absurd hreq (hno.incomplete h b hpre)
  · obtain ⟨rfl, rfl⟩ := hreq'.unique hreq hpre' hpre
    rfl

/-- The events between the first and the last one of a stream, and the answer. -/
structure Session (path : Bytes) (ok : Prop) (reqs : List SbEvent) (received sent : Bytes) :
    Prop where
  asked : ok → Asks received reqs
  requests : reqs = [] ∨ ∃ h b, IsRequest h b ∧ reqs = (redirectEvent h b).toList
  answer : sent <+: statusLine
  accepted : sent ≠ [] → ∃ e ∈ reqs, accepts path e = true

/-- How far a stream has read. -/
inductive Reading (ok : Prop) (st : Stream) : Prop
  | header (hstate : st.state = .receivingHeader) (hlen : st.expectedRecvLen = 0)
    (hidx : st.dataIdx = 0) (hno : NoHeader st.recvBuf.data)
  | body (h b : Bytes) (n : ℕ) (hstate : st.state = .receivingRequest)
    (hdata : st.recvBuf.data = h ++ b) (hh : IsHeader h) (hn : announced h = some n)
    (hlen : st.expectedRecvLen = h.length + n) (hidx : st.dataIdx = h.length) (hlt : b.length < n)
  /-- There was no memory when the header ended, and the request will not. -/
  | stuck (hok : ¬ok) (hstate : st.state = .receivingRequest) (hlen : st.expectedRecvLen = 0)
    (hne : st.recvBuf.data ≠ [])

/-- A stream, the requests it has made, and what its client has sent and got. -/
inductive Live (path : Bytes) (ok : Prop) (st : Stream) :
    List SbEvent → Bytes → Bytes → Prop
  | reading {received : Bytes} (hstate : st.state.receiving = true) (hsend : st.sendBuf.data = [])
    (hread : Reading ok st) (hdata : ok → st.recvBuf.data = received) :
    Live path ok st [] received []
  | answering {reqs : List SbEvent} {received sent : Bytes} (hstate : st.state.receiving = false)
    (h : Session path ok reqs received (sent ++ st.sendBuf.data)) :
    Live path ok st reqs received sent

section Stream

variable {path : Bytes} {ok : Prop} {st : Stream} {reqs : List SbEvent}
  {received sent : Bytes}

theorem Reading.noRequest (hread : Reading ok st) (hok : ok) : NoRequest st.recvBuf.data := by
  cases hread with
  | header _ _ _ hno => exact hno.noRequest
  | body h b n _ hdata hh hn _ _ hlt =>
    rw [hdata]
    exact hh.noRequest hn hlt
  | stuck hnok => exact absurd hok hnok

/-- How far a stream has read depends on few of its fields. -/
theorem Reading.congr {st' : Stream} (hread : Reading ok st) (hstate : st'.state = st.state)
    (hlen : st'.expectedRecvLen = st.expectedRecvLen) (hidx : st'.dataIdx = st.dataIdx)
    (hdata : st'.recvBuf.data = st.recvBuf.data) : Reading ok st' := by
  cases hread with
  | header h₁ h₂ h₃ hno =>
    exact .header (hstate.trans h₁) (hlen.trans h₂) (hidx.trans h₃) (hdata.symm ▸ hno)
  | body h b n h₁ h₂ hh hn h₃ h₄ hlt =>
    exact .body h b n (hstate.trans h₁) (hdata.trans h₂) hh hn (hlen.trans h₃) (hidx.trans h₄) hlt
  | stuck hok h₁ h₂ hne => exact .stuck hok (hstate.trans h₁) (hlen.trans h₂) (hdata.symm ▸ hne)

/-- A session without a request. -/
theorem Session.of_noRequest (hno : ok → NoRequest received) : Session path ok [] received [] :=
  ⟨fun hok => .inl ⟨hno hok, rfl⟩, .inl rfl, List.nil_prefix, fun h => absurd rfl h⟩

/-- A live stream is a session. -/
theorem Live.session (hlive : Live path ok st reqs received sent) :
    Session path ok reqs received sent := by
  cases hlive with
  | reading _ _ hread hdata =>
    refine .of_noRequest fun hok => ?_
    rw [← hdata hok]
    exact hread.noRequest hok
  | answering _ h =>
    refine ⟨h.asked, h.requests, (List.prefix_append sent _).trans h.answer, fun hne => ?_⟩
    exact h.accepted (List.append_ne_nil_of_left_ne_nil hne _)

/-- A session with one request. -/
theorem Session.of_request {h b : Bytes} (hreq : IsRequest h b) (hpre : h ++ b <+: received)
    (hsent : sent = [] ∨ sent = statusLine ∧ ∃ e ∈ redirectEvent h b, accepts path e = true) :
    Session path ok (redirectEvent h b).toList received sent where
  asked _ := .inr ⟨h, b, hpre, hreq, rfl⟩
  requests := .inr ⟨h, b, hreq, rfl⟩
  answer := by
    rcases hsent with rfl | ⟨rfl, -⟩
    · exact List.nil_prefix
    · exact List.prefix_refl _
  accepted hne := by
    obtain ⟨-, e, he, hacc⟩ := hsent.resolve_left hne
    exact ⟨e, Option.mem_toList.mpr he, hacc⟩

/-! ### Reading -/

/-- The same connection. -/
def Kept (st st' : Stream) : Prop := st'.serial = st.serial ∧ st'.sockfd = st.sockfd

theorem Kept.trans {st st' st'' : Stream} (h : Kept st st') (h' : Kept st' st'') : Kept st st'' :=
  ⟨h'.1.trans h.1, h'.2.trans h.2⟩

variable {F : Fault → Wire → Prop} {srv : Server} {wire : Wire}

/-- What is left of a call of `sb_stream_recv` when the bytes of the stream are `bs`: only events of
the stream, and an error only without memory. -/
def Done (path : Bytes) (ok : Prop) (st : Stream) (srv : Server) (wire : Wire)
    (bs : Bytes) (err : Option SbError) (st' : Stream) (srv' : Server) (wire' : Wire) : Prop :=
  wire' = wire ∧ Kept st st' ∧ (ok → err = none) ∧
    ∃ reqs, Emitted path st.serial reqs srv srv' ∧
      ∀ received, bs <+: received → Live path ok st' reqs received []

/-- What becomes of a request that is complete. -/
private theorem wp_handleRequest {h b : Bytes} (hreq : IsRequest h b)
    (hdata : st.recvBuf.data = h ++ b)
    (hidx : st.dataIdx = h.length ∧ h ≠ [] ∨ st.dataIdx = 0 ∧ b = [])
    (hsend : st.sendBuf.data = []) :
    Script.wp (network ok) F (handleRequest path st)
      (fun r srv' wire' => Done path ok st srv wire (h ++ b) r.1 r.2 srv' wire') srv wire := by
  unfold handleRequest
  dsimp only
  rw [Script.wp_bind]
  refine Script.wp_mono wp_bufferNullTerminate (fun _ _ h => h) ?_
  rintro ⟨terminated, buf⟩ srv wire ⟨⟨hok, hbuf⟩, rfl, rfl⟩
  cases terminated with
  | false =>
    -- out of memory: the stream is closed with an answer pending, and nothing seen
    have hnok : ¬ok := fun h => Bool.false_ne_true (hok h)
    refine ⟨rfl, ⟨rfl, rfl⟩, fun h => absurd h hnok, [], .refl _ _ _, fun received _ => ?_⟩
    refine .answering rfl ?_
    rw [hsend]
    exact .of_noRequest fun h => absurd h hnok
  | true =>
    rw [if_pos rfl, List.append_nil] at hbuf
    change buf.data = st.recvBuf.data at hbuf
    rw [hdata] at hbuf
    simp only [Bool.not_true, Bool.false_eq_true, if_false, hbuf]
    -- a request that is not understood is no event
    have hrejected : redirectEvent h b = none →
        Done path ok st srv wire (h ++ b) none
          { st with state := .closing, recvBuf := buf } srv wire := by
      intro hnone
      refine ⟨rfl, ⟨rfl, rfl⟩, fun _ => rfl, [], .refl _ _ _, fun received hpre => ?_⟩
      refine .answering rfl ?_
      rw [hsend]
      have : Session path ok (redirectEvent h b).toList received [] :=
        .of_request hreq hpre (.inl rfl)
      rwa [hnone] at this
    cases hscan : scanRequestLine (cString (h ++ b)) with
    | none => exact hrejected (by rw [redirectEvent, hscan])
    | some line =>
      obtain ⟨method, target, ver⟩ := line
      dsimp only
      by_cases hver : (ascii "HTTP").isPrefixOf ver = true
      · -- the event that the handler is called with, and the stream it sees
        let sending : Stream := { st with state := .sendingStatus, recvBuf := buf }
        let e : Event := ⟨.request method (cString (urlDecode target 512).2), sending⟩
        have hseen : redirectEvent h b = some e.seen := by
          have hvar : sending.findVariable (ascii "code") = requestVariable (ascii "code") h b :=
            Stream.findVariable_eq (by decide) hbuf hidx
          rw [redirectEvent, hscan]
          dsimp only
          rw [if_pos hver, ← hvar]
          rfl
        have hsession := fun received sent hpre =>
          @Session.of_request path ok received sent _ _ hreq hpre
        rw [hseen] at hsession
        rw [hver]
        change Script.wp _ _ (streamEmit path sending e.type >>= _) _ _ _
        rw [Script.wp_bind]
        refine Script.wp_mono (wp_streamEmit fun _ => rfl) (fun _ _ h => h) ?_
        rintro st' _ _ ⟨hanswered, rfl, rfl⟩
        have hemitted := Emitted.single path srv e
        -- the answer: none, or none for want of memory, or the status line
        cases hanswered with
        | same _ =>
          refine ⟨rfl, ⟨rfl, rfl⟩, fun _ => rfl, _, hemitted, fun received hpre => ?_⟩
          exact .answering rfl (hsession received _ hpre (.inl hsend))
        | full _ _ sendBuf hsame =>
          refine ⟨rfl, ⟨rfl, rfl⟩, fun _ => rfl, _, hemitted, fun received hpre => ?_⟩
          exact .answering rfl (hsession received _ hpre (.inl (hsame.trans hsend)))
        | written hacc sendBuf hline =>
          refine ⟨rfl, ⟨rfl, rfl⟩, fun _ => rfl, _, hemitted, fun received hpre => ?_⟩
          refine .answering rfl (hsession received _ hpre (.inr ⟨?_, e.seen, rfl, hacc⟩))
          change sendBuf.data = statusLine
          rw [hline]
          change st.sendBuf.data ++ statusLine = statusLine
          rw [hsend]
          rfl
      · rw [Bool.not_eq_true] at hver
        rw [hver]
        exact hrejected (by rw [redirectEvent, hscan]; exact if_neg (Bool.eq_false_iff.mp hver))

/-- A stream that has still to read. -/
structure Waits (ok : Prop) (st : Stream) : Prop where
  receiving : st.state.receiving = true
  send : st.sendBuf.data = []
  read : Reading ok st

/-- Where the loop over a chunk stands: it has read all of `bytes`, or it is done. -/
def Progress (path : Bytes) (ok : Prop) (st : Stream) (srv : Server) (wire : Wire) (bytes : Bytes)
    (result : Option (Option SbError)) (st' : Stream) (srv' : Server) (wire' : Wire) : Prop :=
  match result with
  | none => wire' = wire ∧ srv' = srv ∧ Kept st st' ∧ Waits ok st' ∧
      st'.recvBuf.data = st.recvBuf.data ++ bytes
  | some err => ∃ bs, (ok → bs <+: st.recvBuf.data ++ bytes) ∧
      Done path ok st srv wire bs err st' srv' wire'

theorem Done.of_kept {bs : Bytes} {err : Option SbError} {st₁ st' : Stream} {srv' : Server}
    {wire' : Wire} (hkept : Kept st st₁) (hdone : Done path ok st₁ srv wire bs err st' srv' wire') :
    Done path ok st srv wire bs err st' srv' wire' := by
  obtain ⟨hwire, hkept', hok, reqs, hemitted, hlive⟩ := hdone
  rw [hkept.1] at hemitted
  exact ⟨hwire, hkept.trans hkept', hok, reqs, hemitted, hlive⟩

/-- Progress after one byte more. -/
theorem Progress.cons {c : UInt8} {bytes : Bytes} {result : Option (Option SbError)}
    {st₁ st' : Stream} {srv' : Server} {wire' : Wire} (hkept : Kept st st₁)
    (hdata : st₁.recvBuf.data = st.recvBuf.data ++ [c])
    (h : Progress path ok st₁ srv wire bytes result st' srv' wire') :
    Progress path ok st srv wire (c :: bytes) result st' srv' wire' := by
  have hassoc : st₁.recvBuf.data ++ bytes = st.recvBuf.data ++ c :: bytes := by
    rw [hdata, List.append_assoc]
    rfl
  cases result with
  | none =>
    obtain ⟨hwire, hsrv, hkept', hwaits, hrest⟩ := h
    exact ⟨hwire, hsrv, hkept.trans hkept', hwaits, hrest.trans hassoc⟩
  | some err =>
    obtain ⟨bs, hbs, hdone⟩ := h
    exact ⟨bs, fun hok => hassoc ▸ hbs hok, hdone.of_kept hkept⟩

/-- A stream whose request has not come, and will not when there is no memory. -/
theorem Waits.done_of_not_ok (hwaits : Waits ok st) (hnok : ¬ok) {st₀ : Stream}
    (hkept : Kept st₀ st)
    (bs : Bytes) (err : Option SbError) : Done path ok st₀ srv wire bs err st srv wire := by
  refine ⟨rfl, hkept, fun h => absurd h hnok, [], .refl _ _ _, fun received _ => ?_⟩
  exact .reading hwaits.receiving hwaits.send hwaits.read fun h => absurd h hnok

theorem EndsHeader.ne_nil {bs : Bytes} (hends : EndsHeader bs) : bs ≠ [] := by
  rintro rfl
  cases List.suffix_nil.mp hends

section Push

variable {buf : Buffer} {c : UInt8}

/-- The byte ends the header. -/
theorem Reading.header_ended (hread : Reading ok st) (hbuf : buf.data = st.recvBuf.data ++ [c])
    (hstate : st.state = .receivingHeader) (hends : EndsHeader buf.data) :
    IsHeader buf.data ∧ st.expectedRecvLen = 0 ∧ st.dataIdx = 0 := by
  cases hread with
  | header _ hlen hidx hno =>
    rw [hbuf] at hends ⊢
    exact ⟨(hno.push c).1 hends, hlen, hidx⟩
  | body h b n hbody =>
    rw [hbody] at hstate
    cases hstate
  | stuck _ hbody =>
    rw [hbody] at hstate
    cases hstate

/-- The byte is the last one of the body. -/
theorem Reading.body_ended (hread : Reading ok st) (hbuf : buf.data = st.recvBuf.data ++ [c])
    (hlen : st.expectedRecvLen = buf.data.length) :
    ∃ h b, buf.data = h ++ b ∧ IsRequest h b ∧ st.dataIdx = h.length ∧ h ≠ [] := by
  cases hread with
  | header _ hzero _ _ =>
    rw [hzero, hbuf, List.length_append] at hlen
    cases hlen
  | body h b n _ hdata hh hn hexpected hidx hlt =>
    refine ⟨h, b ++ [c], ?_, ⟨hh, ?_⟩, hidx, hh.ends.ne_nil⟩
    · rw [hbuf, hdata, List.append_assoc]
    · rw [hexpected, hbuf, hdata, List.append_assoc, List.length_append] at hlen
      rw [hn, Nat.add_left_cancel hlen]
  | stuck _ _ hzero _ =>
    rw [hzero, hbuf, List.length_append] at hlen
    cases hlen

/-- The byte ends nothing. -/
theorem Reading.push (hread : Reading ok st) (hbuf : buf.data = st.recvBuf.data ++ [c])
    (hheader : ¬(st.state = .receivingHeader ∧ EndsHeader buf.data))
    (hbody : st.expectedRecvLen ≠ buf.data.length) : Reading ok { st with recvBuf := buf } := by
  cases hread with
  | header hstate hlen hidx hno =>
    refine .header hstate hlen hidx ?_
    change NoHeader buf.data
    have hends : ¬EndsHeader buf.data := fun hends => hheader ⟨hstate, hends⟩
    rw [hbuf] at hends ⊢
    exact (hno.push c).2 hends
  | body h b n hstate hdata hh hn hlen hidx hlt =>
    have hwhole : buf.data = h ++ (b ++ [c]) := by rw [hbuf, hdata, List.append_assoc]
    refine .body h (b ++ [c]) n hstate hwhole hh hn hlen hidx ?_
    rw [hwhole, hlen, List.length_append, ne_eq, Nat.add_left_cancel_iff] at hbody
    rw [List.length_append, List.length_singleton] at hbody ⊢
    omega
  | stuck hok hstate hlen hne =>
    refine .stuck hok hstate hlen ?_
    change buf.data ≠ []
    rw [hbuf]
    exact List.append_ne_nil_of_left_ne_nil hne _

end Push

/-- The loop over received bytes makes progress, by induction on them. -/
theorem wp_recvBytes {bytes : Bytes} (hwaits : Waits ok st) :
    Script.wp (network ok) F (recvBytes path st bytes)
      (fun r srv' wire' => Progress path ok st srv wire bytes r.1 r.2 srv' wire') srv wire := by
  induction bytes generalizing st with
  | nil => exact ⟨rfl, rfl, ⟨rfl, rfl⟩, hwaits, (List.append_nil _).symm⟩
  | cons c bytes ih =>
    rw [recvBytes, Script.wp_bind]
    refine Script.wp_mono wp_bufferPushChar (fun _ _ h => h) ?_
    rintro ⟨pushed, buf⟩ srv wire ⟨⟨hok, hbuf⟩, rfl, rfl⟩
    cases pushed with
    | false =>
      -- out of memory in the middle of a request
      have hnok : ¬ok := fun h => Bool.false_ne_true (hok h)
      have hwaits' : Waits ok { st with recvBuf := buf } :=
        ⟨hwaits.receiving, hwaits.send, hwaits.read.congr rfl rfl rfl hbuf⟩
      exact ⟨[], fun h => absurd h hnok, hwaits'.done_of_not_ok hnok ⟨rfl, rfl⟩ _ _⟩
    | true =>
      rw [if_pos rfl] at hbuf
      change buf.data = st.recvBuf.data ++ [c] at hbuf
      have hpre : buf.data <+: st.recvBuf.data ++ c :: bytes :=
        ⟨bytes, by rw [hbuf, List.append_assoc]; rfl⟩
      simp only [Bool.not_true, Bool.false_eq_true, if_false]
      rw [Script.wp_ite]
      refine ⟨fun hheader => ?_, fun hheader => ?_⟩
      · -- the header has ended: what it announces decides how the stream goes on
        obtain ⟨hstate, hends⟩ := hheader
        rw [List.isSuffixOf_iff_suffix] at hends
        obtain ⟨hh, hlen, hidx⟩ := hwaits.read.header_ended hbuf hstate hends
        rw [Script.wp_bind]
        refine Script.wp_mono wp_bufferNullTerminate (fun _ _ h => h) ?_
        rintro ⟨terminated, buf'⟩ srv wire ⟨⟨hok', hbuf'⟩, rfl, rfl⟩
        cases terminated with
        | false =>
          have hnok : ¬ok := fun h => Bool.false_ne_true (hok' h)
          have hsame : buf'.data = buf.data := hbuf'
          have hwaits' : Waits ok { st with state := .receivingRequest, recvBuf := buf' } :=
            ⟨rfl, hwaits.send, .stuck hnok rfl hlen (hsame ▸ hh.ends.ne_nil)⟩
          exact ⟨[], fun h => absurd h hnok, hwaits'.done_of_not_ok hnok ⟨rfl, rfl⟩ _ _⟩
        | true =>
          have hsame : buf'.data = buf.data := hbuf'.trans (List.append_nil _)
          simp only [Bool.not_true, Bool.false_eq_true, if_false, hsame]
          split
          · -- a carriage return of its own: the search for the field does not end
            exact wp_loops
          · rename_i hfind
            -- no length announced: the request is the header
            have hreq : IsRequest buf.data [] := ⟨hh, by rw [announced, hfind]; rfl⟩
            rw [Script.wp_bind]
            refine Script.wp_mono (wp_handleRequest hreq (hsame.trans (List.append_nil _).symm)
              (.inr ⟨hidx, rfl⟩) hwaits.send) (fun _ _ h => h) ?_
            intro r srv' wire' hdone
            exact ⟨_, fun _ => (List.append_nil buf.data).symm ▸ hpre, hdone.of_kept ⟨rfl, rfl⟩⟩
          · rename_i value hfind
            have hn : announced buf.data = some (strToUint value) := by rw [announced, hfind]
            rw [Script.wp_ite]
            refine ⟨fun hzero => ?_, fun hzero => ?_⟩
            · -- a length of zero
              have hreq : IsRequest buf.data [] :=
                ⟨hh, by rw [hn, Nat.left_eq_add.mp hzero.symm]; rfl⟩
              rw [Script.wp_bind]
              refine Script.wp_mono (wp_handleRequest hreq (hsame.trans (List.append_nil _).symm)
                (.inl ⟨rfl, hh.ends.ne_nil⟩) hwaits.send) (fun _ _ h => h) ?_
              intro r srv' wire' hdone
              exact ⟨_, fun _ => (List.append_nil buf.data).symm ▸ hpre, hdone.of_kept ⟨rfl, rfl⟩⟩
            · -- a body is to come
              refine Script.wp_mono (ih ⟨rfl, hwaits.send, ?_⟩) (fun _ _ h => h) ?_
              · refine .body buf.data [] (strToUint value) rfl ?_ hh hn rfl rfl ?_
                · exact hsame.trans (List.append_nil _).symm
                · exact Nat.pos_of_ne_zero fun h => hzero (by rw [h, Nat.add_zero])
              · intro r srv' wire' hprogress
                exact Progress.cons (by exact ⟨rfl, rfl⟩) (by exact hsame.trans hbuf) hprogress
      · have hheader' : ¬(st.state = .receivingHeader ∧ EndsHeader buf.data) := by
          rw [EndsHeader, ← List.isSuffixOf_iff_suffix]
          exact hheader
        rw [Script.wp_ite]
        refine ⟨fun hlen => ?_, fun hlen => ?_⟩
        · -- the last byte of the body
          obtain ⟨h, b, hwhole, hreq, hidx, hne⟩ := hwaits.read.body_ended hbuf hlen
          rw [Script.wp_bind]
          refine Script.wp_mono (wp_handleRequest hreq hwhole (.inl ⟨hidx, hne⟩) hwaits.send)
            (fun _ _ h => h) ?_
          intro r srv' wire' hdone
          exact ⟨h ++ b, fun _ => hwhole ▸ hpre, hdone.of_kept ⟨rfl, rfl⟩⟩
        · -- a byte in the middle, of the header or of the body
          have hwaits' : Waits ok { st with recvBuf := buf } :=
            ⟨hwaits.receiving, hwaits.send, hwaits.read.push hbuf hheader' hlen⟩
          refine Script.wp_mono (ih hwaits') (fun _ _ h => h) ?_
          intro r srv' wire' hprogress
          exact Progress.cons (by exact ⟨rfl, rfl⟩) (by exact hbuf) hprogress

/-- A live stream that receives waits for the rest of its request. -/
theorem Live.waits (hlive : Live path ok st reqs received sent)
    (hstate : st.state.receiving = true) :
    Waits ok st ∧ (ok → st.recvBuf.data = received) := by
  cases hlive with
  | reading _ hsend hread hdata => exact ⟨⟨hstate, hsend, hread⟩, hdata⟩
  | answering hnot _ =>
    rw [hstate] at hnot
    cases hnot

/-- Without memory nothing is said of the bytes a client has sent. -/
theorem Live.of_not_ok (hnok : ¬ok) (hlive : Live path ok st reqs received sent)
    (received' : Bytes) : Live path ok st reqs received' sent := by
  cases hlive with
  | reading hstate hsend hread _ => exact .reading hstate hsend hread fun h => absurd h hnok
  | answering hstate h =>
    exact .answering hstate ⟨fun hok => absurd hok hnok, h.requests, h.answer, h.accepted⟩

/-- A call for one stream: it makes the requests `new`, and has then made `reqs`. -/
structure Handled (path : Bytes) (ok : Prop) (st : Stream) (srv : Server)
    (new reqs : List SbEvent) (received sent : Bytes) (err : Option SbError) (st' : Stream)
    (srv' : Server) : Prop where
  kept : Kept st st'
  error : ok → err = none
  emitted : Emitted path st.serial new srv srv'
  live : Live path ok st' reqs received sent

/-- The loop over the pieces handles them, by induction on them. -/
theorem wp_recvChunks {disconnected : Bool} {chunks : List Bytes} (hwaits : Waits ok st)
    (hdata : ok → st.recvBuf.data = received) :
    Script.wp (network ok) F (recvChunks path st disconnected chunks)
      (fun r srv' wire' => wire' = wire ∧ ∃ reqs, Handled path ok st srv reqs reqs
        (received ++ chunks.flatten) [] r.1 r.2 srv') srv wire := by
  induction chunks generalizing st received with
  | nil =>
    rw [recvChunks, Script.wp_pure, List.flatten_nil, List.append_nil]
    refine ⟨rfl, [], ?_⟩
    cases disconnected with
    | false =>
      exact ⟨⟨rfl, rfl⟩, fun _ => rfl, .refl _ _ _,
        .reading hwaits.receiving hwaits.send hwaits.read hdata⟩
    -- the peer has gone: an answer to a request it never sent in full is empty
    | true =>
      refine ⟨⟨rfl, rfl⟩, fun _ => rfl, .refl _ _ _, .answering rfl ?_⟩
      change Session path ok [] received ([] ++ st.sendBuf.data)
      rw [hwaits.send]
      exact .of_noRequest fun hok => hdata hok ▸ hwaits.read.noRequest hok
  | cons chunk chunks ih =>
    rw [recvChunks, Script.wp_bind, Script.wp_get]
    dsimp only
    rw [Script.wp_bind]
    have hwaits' : Waits ok { st with lastActivity := srv.now } :=
      ⟨hwaits.receiving, hwaits.send, hwaits.read.congr rfl rfl rfl rfl⟩
    refine Script.wp_mono (wp_recvBytes hwaits') (fun _ _ h => h) ?_
    rintro ⟨result, st₁⟩ srv₁ wire₁ hprogress
    cases result with
    -- the stream ended inside this chunk; the rest of the chunks is not read
    | some err =>
      obtain ⟨bs, hbs, rfl, hkept, herr, reqs, hemitted, hlive⟩ := hprogress
      refine ⟨rfl, reqs, hkept, herr, hemitted, ?_⟩
      by_cases hok : ok
      · refine hlive _ ((hbs hok).trans ⟨chunks.flatten, ?_⟩)
        rw [List.flatten_cons, ← List.append_assoc, ← hdata hok]
      · exact (hlive bs (List.prefix_refl bs)).of_not_ok hok _
    -- the header is not complete; the next chunk is read into the same buffer
    | none =>
      obtain ⟨rfl, rfl, hkept, hwaits₁, hdata₁⟩ := hprogress
      have hnext : ok → st₁.recvBuf.data = received ++ chunk := by
        intro hok
        rw [hdata₁, ← hdata hok]
      refine Script.wp_mono (ih hwaits₁ hnext) (fun _ _ h => h) ?_
      rintro r srv' wire' ⟨hwire, reqs, hhandled⟩
      refine ⟨hwire, reqs, hkept.trans hhandled.kept, hhandled.error, ?_, ?_⟩
      · have := hhandled.emitted
        rwa [hkept.1] at this
      · have := hhandled.live
        rwa [List.append_assoc] at this

/-- A stream that is read has what it received before and what it receives now. -/
theorem wp_streamRecv (hlive : Live path ok st reqs received sent)
    (hstate : st.state.receiving = true) :
    Script.wp (network ok) F (streamRecv path st)
      (fun r srv' wire' => ∃ bs new, wire' = wire.receive st.serial bs ∧
        Handled path ok st srv new (reqs ++ new) (received ++ bs) sent r.1 r.2 srv') srv wire := by
  cases hlive with
  | answering hnot _ =>
    rw [hstate] at hnot
    cases hnot
  | reading _ hsend hread hdata =>
    rw [streamRecv, Script.wp_bind]
    refine wp_recv fun r => ?_
    refine Script.wp_mono (wp_recvChunks ⟨hstate, hsend, hread⟩ hdata) (fun _ _ h => h) ?_
    rintro result srv' _ ⟨rfl, new, hhandled⟩
    exact ⟨r.chunks.flatten, new, rfl, hhandled⟩

/-- What a stream sends is taken from its buffer. -/
theorem wp_streamSend (hlive : Live path ok st reqs received sent)
    (hstate : st.state.receiving = false) :
    Script.wp (network ok) F (streamSend st)
      (fun st' srv' wire' => ∃ bs, wire' = wire.deliver st.serial bs ∧
        Handled path ok st srv [] reqs received (sent ++ bs) none st' srv') srv wire := by
  cases hlive with
  | reading hnot =>
    rw [hstate] at hnot
    cases hnot
  | answering _ hsession =>
    have hclosing : Live path ok { st with state := .closing } reqs received (sent ++ []) :=
      .answering rfl ((List.append_nil sent).symm ▸ hsession)
    unfold streamSend
    rw [Script.wp_ite]
    refine ⟨fun _ => ?_, fun _ => ?_⟩
    · exact ⟨[], (wire.deliver_nil _).symm, ⟨rfl, rfl⟩, fun _ => rfl, .refl _ _ _, hclosing⟩
    · rw [Script.wp_bind]
      refine wp_send (fun wouldBlock => ?_) fun n => ?_
      · refine ⟨[], (wire.deliver_nil _).symm, ?_⟩
        cases wouldBlock with
        | false => exact ⟨⟨rfl, rfl⟩, fun _ => rfl, .refl _ _ _, hclosing⟩
        | true =>
          exact ⟨⟨rfl, rfl⟩, fun _ => rfl, .refl _ _ _,
            .answering hstate ((List.append_nil sent).symm ▸ hsession)⟩
      · refine ⟨_, rfl, ⟨rfl, rfl⟩, fun _ => rfl, .refl _ _ _, .answering hstate ?_⟩
        change Session path ok reqs received
          (sent ++ st.sendBuf.data.take n ++ st.sendBuf.data.drop n)
        rw [List.append_assoc, List.take_append_drop]
        exact hsession

end Stream

end Sandbird

end HiveSDK
