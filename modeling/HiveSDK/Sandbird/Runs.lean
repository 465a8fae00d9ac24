import HiveSDK.Interaction.Simulation
import HiveSDK.Sandbird.GetRequest
import HiveSDK.Sandbird.Liveness

/-!
# Runs of the server

What any number of calls of `sb_poll_server` by `get_authorize_code` does. The events of a client
are a function of the bytes it has sent (`polls_events_of_bytes`); with or without memory each
client has at most one request and one closing event (`served_session`). The loop of
`get_authorize_code` is `waitRedirect` on the events (`pollUntilStopped_refines`): each call is a
`PollStep` that adds its own events, and the loop is left after the first call that stops the
redirect (`LoopEnds`). So a client that is sent back with an authorization code delivers it
(`redirect_delivers_code`).

A client can do harm in three ways. One that is silent ends the loop for all
(`loop_waits_for_active`), one that sends a carriage return of its own in a header hangs the server
(`streamRecv_returns_iff`), and one that gets the descriptor 1024 is let in though it does not fit
the set of descriptors (`pollServer_faults_iff`).
-/

namespace HiveSDK

open Interaction

namespace Sandbird

section Runs

variable {path : Bytes} {ok : Prop} {srv srv' : Server} {wire wire' : Wire} {sockfd : ℕ}
  {redirect : Redirect}

/-- Between any two calls. -/
private theorem inv_of_polls {n : ℕ}
    (hrun : Program.Exec (network ok) (polls path n (newServer sockfd redirect)) .silent
      (.ok ((), srv)) wire) : Inv path ok (· ≤ fdSetSize) srv wire srv.streams :=
  ((wp_polls (inv_newServer path ok _ sockfd redirect)).of_exec hrun).2

/-! ### A client to try them on -/

/-- Only the listening socket is selected. -/
def onlyListening : Selected := ⟨fun _ => false, fun _ => false, true⟩

/-- A server with one client, which has just connected. -/
def connected (path : Bytes) (sockfd : ℕ) : Server :=
  let srv := newServer 3 ⟨false, [], 0⟩
  { srv.after path [⟨.connect, streamNew srv sockfd⟩] with
    streams := [streamNew srv sockfd], nextSerial := 1 }

/-- A poll in which one client connects. -/
private theorem reaches_connect {h : Handler Wire SbCall SbCall.Reply} {path : Bytes} (sockfd : ℕ)
    {Q : Option SbError → Server → Wire → Prop}
    (hselect : h .silent .select onlyListening .silent) (htime : h .silent .time (0 : ℕ) .silent)
    (haccept : h .silent .accept [sockfd] .silent) (hmalloc : h .silent .malloc true .silent)
    (hfits : sockfd ≤ fdSetSize) (hQ : Q none (connected path sockfd) .silent) :
    Script.reaches h noFault (pollServer path) Q (newServer 3 ⟨false, [], 0⟩) .silent := by
  refine ⟨onlyListening, _, hselect, (0 : ℕ), _, htime, [sockfd], _, haccept, ?_⟩
  have hnot : ¬fdSetSize < sockfd := Nat.not_lt.mpr hfits
  change Script.reaches h _ (acceptStreams path [sockfd]) _ _ _
  rw [acceptStreams, if_neg hnot]
  exact ⟨true, _, hmalloc, hQ⟩

/-- A client that has connected sends one byte and disconnects. -/
private theorem reaches_depart {path : Bytes} {Q : Option SbError → Server → Wire → Prop}
    (ok : Prop)
    (hQ : ∀ srv, srv.nextSerial = 1 → srv.streams = [] → srv.redirect.stopped = true →
      Q none srv (Wire.silent.receive 0 [71])) :
    Script.reaches (network ok) noFault (pollServer path) Q (connected path 5) .silent := by
  refine ⟨⟨fun _ => true, fun _ => false, false⟩, _, rfl, (1 : ℕ), _, rfl, ⟨[[71]], true⟩, _, rfl,
    true, _, ⟨fun _ => rfl, rfl⟩, ?_⟩
  exact hQ _ rfl rfl rfl

/-- A target with a variable before the code and one behind it. -/
private theorem isRedirect_callback :
    IsRedirect (ascii "/callback") [ascii "state=7"] (ascii "&lc=1033") where
  fits := by decide
  plain := by
    unfold Graphic
    decide +kernel
  before := by
    unfold Graphic
    decide +kernel
  other := by decide
  graphic := by
    unfold Graphic
    decide +kernel
  separated := .inr (by decide)

private theorem lines_callback : ∀ l ∈ [ascii "Host: localhost:44316", ascii "Accept: */*"],
    IsLine l ∧ 0 ∉ l ∧ hasField (ascii "Content-Length") l = false := by
  unfold IsLine
  decide

/-- A request for that target. -/
def requestCallback : Bytes :=
  getRequest (redirectTarget (ascii "/callback") [ascii "state=7"] (ascii "M.R3 %+")
    (ascii "&lc=1033")) [ascii "Host: localhost:44316", ascii "Accept: */*"]

/-- What the header of that redirect asks for. -/
private theorem redirectEvent_callback : IsRequest requestCallback [] ∧
    redirectEvent requestCallback [] =
      some (.request (ascii "/callback") (some (ascii "M.R3 %+"))) :=
  redirectEvent_getRequest isRedirect_callback lines_callback (ascii "M.R3 %+")

/-- What is asked in it is its event. -/
private theorem asks_callback {reqs : List SbEvent} (hasks : Asks requestCallback reqs) :
    reqs = [.request (ascii "/callback") (some (ascii "M.R3 %+"))] := by
  obtain ⟨hreq, hevent⟩ := redirectEvent_callback
  rw [hasks.eq_of_request hreq (List.append_nil _ ▸ List.prefix_refl _), hevent]
  rfl

/-- The client that has connected sends two pieces. -/
private theorem reaches_pieces {path first second : Bytes} (hread : Readable (first ++ second))
    {Q : Option SbError → Server → Wire → Prop}
    (hQ : ∀ err srv wire, srv.nextSerial = 1 → wire.received 0 = first ++ second →
      Q err srv wire) :
    Script.reaches civil noFault (pollServer path) Q (connected path 5) .silent := by
  rw [pollServer, Script.reaches_bind, Script.reaches_get, if_pos (by rfl), pollSelected,
    Script.reaches_bind]
  refine Script.reaches_ask.mpr ⟨⟨fun _ => true, fun _ => false, false⟩, _, ⟨rfl, trivial⟩, ?_⟩
  rw [Script.reaches_bind]
  refine Script.reaches_ask.mpr ⟨(0 : ℕ), _, ⟨rfl, trivial⟩, ?_⟩
  rw [Script.reaches_bind, Script.reaches_modify, Script.reaches_bind, Script.reaches_get,
    Script.reaches_bind]
  -- both pieces are there when the stream is read
  change Script.reaches civil noFault
    (pollStreams path _ [streamNew (newServer 3 ⟨false, [], 0⟩) 5]) _ _ _
  rw [pollStreams, Script.reaches_bind, recvSelected, if_pos (by rfl), streamRecv,
    Script.reaches_bind]
  have hpieces : [first, second].flatten = first ++ second := by
    rw [List.flatten_cons, List.flatten_singleton]
  refine Script.reaches_ask.mpr ⟨⟨[first, second], false⟩, _, ⟨rfl, ?_⟩, ?_⟩
  · change Readable ([] ++ [first, second].flatten)
    rwa [List.nil_append, hpieces]
  generalize hst : streamNew (newServer 3 ⟨false, [], 0⟩) 5 = st
  -- the stream is new: it waits for a request, with nothing received
  have hwaits : Waits True st := by
    subst hst
    exact ⟨rfl, rfl, .header rfl rfl rfl noHeader_nil⟩
  have hdata : True → st.recvBuf.data = [] := fun _ => hst ▸ rfl
  have hgot : (Wire.silent.receive st.serial [first, second].flatten).received 0 =
      first ++ second := by
    subst hst
    change [] ++ [first, second].flatten = first ++ second
    rw [List.nil_append, hpieces]
  have hreceived : Readable (st.recvBuf.data ++ [first, second].flatten) := by
    rw [hdata trivial, List.nil_append, hpieces]
    exact hread
  refine Script.reaches_mono (Program.twp.reaches ((twp_recvChunks hwaits hreceived).of_wp
    (wp_civil (wp_recvChunks hwaits hdata)))) (fun _ _ h => h) ?_
  rintro ⟨err, st₁⟩ srv₁ wire₁ ⟨rfl, reqs, hhandled⟩
  obtain rfl : err = none := hhandled.error trivial
  obtain ⟨es, rfl, -⟩ := hhandled.emitted
  rw [Script.reaches_ite]
  refine ⟨fun h => absurd h Bool.false_ne_true, fun _ => ?_⟩
  rw [show st.state.receiving = true from hst ▸ rfl, Script.reaches_bind, sendSelected,
    if_neg (by simp only [Bool.not_true, Bool.false_and, Bool.false_eq_true, not_false_eq_true]),
    Script.reaches_pure, Script.reaches_bind, Script.reaches_get]
  dsimp only
  generalize Server.exceeds _ st₁ = exceeded
  generalize (if exceeded then { st₁ with state := .closing } else st₁) = st₂
  rw [Script.reaches_ite]
  refine ⟨fun _ => ?_, fun _ => hQ _ _ _ rfl hgot⟩
  rw [Script.reaches_bind]
  refine Script.reaches_mono (Program.twp.reaches ((answers_streamEmit _ _ _).twp
    (wp_streamEmit_still (.inr rfl)))) (fun _ _ h => h) ?_
  rintro _ _ _ ⟨-, rfl, rfl⟩
  exact hQ _ _ _ rfl hgot

/-- The client that connects first. -/
private theorem reaches_connect_civil {path : Bytes} {Q : Option SbError → Server → Wire → Prop}
    (hQ : Q none (connected path 5) .silent) :
    Script.reaches civil noFault (pollServer path) Q (newServer 3 ⟨false, [], 0⟩) .silent := by
  have hfits : Civil .silent .accept [5] := by
    change ∀ sockfd ∈ [5], sockfd < fdSetSize
    decide
  exact reaches_connect 5 ⟨rfl, trivial⟩ ⟨rfl, trivial⟩ ⟨rfl, hfits⟩ ⟨⟨fun _ => rfl, rfl⟩, trivial⟩
    (by decide) hQ

/-- Two calls in which a client connects and sends two pieces. -/
private theorem reaches_polls {path first second : Bytes} (hread : Readable (first ++ second))
    {Q : Unit → Server → Wire → Prop}
    (hQ : ∀ srv wire, srv.nextSerial = 1 → wire.received 0 = first ++ second → Q () srv wire) :
    Script.reaches civil noFault (polls path 2) Q (newServer 3 ⟨false, [], 0⟩) .silent := by
  rw [polls, Script.reaches_bind]
  refine reaches_connect_civil ?_
  rw [polls, Script.reaches_bind]
  exact reaches_pieces hread fun _ srv wire hnext hreceived => hQ srv wire hnext hreceived

/-- The request in two pieces, the second of which begins in the code. -/
private theorem readable_callback :
    Readable (requestCallback.take 31 ++ requestCallback.drop 31) := by
  rw [List.take_append_drop]
  have hreq := redirectEvent_callback.1
  exact List.append_nil requestCallback ▸ hreq.readable (List.prefix_refl _)

/-! ### The events of one client -/

/-- The closing event of a stream that is gone. -/
def Server.closing (srv : Server) (i : ℕ) : List SbEvent :=
  if i ∈ srv.streams.map Stream.serial then [] else [.close]

/-- Every stream there has been is a session. -/
theorem Inv.session (hinv : Inv path ok (· ≤ fdSetSize) srv wire srv.streams) {i : ℕ}
    (hi : i < srv.nextSerial) :
    ∃ reqs, srv.eventsOf i = .other :: (reqs ++ srv.closing i) ∧
      Session path ok reqs (wire.received i) (wire.sent i) := by
  unfold Server.closing
  split
  · rename_i hmem
    obtain ⟨st, hst, rfl⟩ := List.mem_map.mp hmem
    obtain ⟨reqs, hevents, hlive⟩ := hinv.live st hst
    exact ⟨reqs, by rw [hevents, List.append_nil], hlive.session⟩
  · rename_i hmem
    exact hinv.gone i hi hmem

/-- With memory, the events of a client depend only on the bytes it has sent, however they were cut
into pieces and whatever other clients did: a connection, the event of the one request that they
begin with, and one closing event if the stream is gone. -/
theorem polls_events_of_bytes (path : Bytes) (sockfd : ℕ) (redirect : Redirect) (n : ℕ)
    {srv : Server} {wire : Wire}
    (hrun : Program.Exec (network True) (polls path n (newServer sockfd redirect)) .silent
      (.ok ((), srv)) wire) (i : ℕ) :
    (srv.nextSerial ≤ i → srv.eventsOf i = [] ∧ wire.received i = []) ∧
      (i < srv.nextSerial → ∃ reqs, Asks (wire.received i) reqs ∧
        srv.eventsOf i = .other :: (reqs ++ srv.closing i)) := by
  have hinv := inv_of_polls hrun
  constructor
  · intro hi
    obtain ⟨hevents, hreceived, -⟩ := hinv.fresh i hi
    exact ⟨hevents, hreceived⟩
  · intro hi
    obtain ⟨reqs, hevents, hsession⟩ := hinv.session hi
    exact ⟨reqs, hsession.asked trivial, hevents⟩

/-- The loop over the streams when the server is closed. -/
private theorem wp_closeStreams {F : Fault → Wire → Prop} {streams : List Stream}
    (hinv : Inv path ok (· ≤ fdSetSize) srv wire streams) :
    Script.wp (network ok) F (closeStreams path streams)
      (fun _ srv' wire' => Inv path ok (· ≤ fdSetSize) srv' wire' [] ∧
        srv'.nextSerial = srv.nextSerial) srv wire := by
  induction streams generalizing srv with
  | nil => exact ⟨hinv, rfl⟩
  | cons st streams ih =>
    rw [closeStreams, Script.wp_bind, Script.wp_modify, Script.wp_bind]
    refine Script.wp_mono (wp_streamEmit_still (.inr rfl)) (fun _ _ h => h) ?_
    rintro _ _ wire ⟨-, rfl, rfl⟩
    have hstart : Inv path ok (· ≤ fdSetSize) srv wire ([] ++ st :: streams) := hinv
    exact ih (hstart.emit_close.congr rfl rfl)

theorem polls_events_of_bytes_requested :
    ∃ srv wire, Program.Exec (network True) (polls (ascii "/callback") 2
        (newServer 3 ⟨false, [], 0⟩)) .silent (.ok ((), srv)) wire ∧
      wire.received 0 = requestCallback ∧ ∃ reqs, Asks (wire.received 0) reqs ∧
      srv.eventsOf 0 = .other :: (reqs ++ srv.closing 0) ∧
      reqs = [.request (ascii "/callback") (some (ascii "M.R3 %+"))] := by
  have hreach : Script.reaches civil noFault (polls (ascii "/callback") 2)
      (fun _ srv wire => srv.nextSerial = 1 ∧ wire.received 0 = requestCallback)
      (newServer 3 ⟨false, [], 0⟩) .silent := by
    refine reaches_polls readable_callback fun _ _ hnext hreceived => ⟨hnext, ?_⟩
    exact hreceived.trans (List.take_append_drop _ _)
  obtain ⟨⟨⟩, srv, wire, hrun, hnext, hreceived⟩ := hreach.exists_exec
  have hrun := hrun.of_handler fun _ _ _ _ h => h.1
  obtain ⟨reqs, hasks, hevents⟩ :=
    (polls_events_of_bytes _ 3 _ 2 hrun 0).2 (hnext.symm ▸ Nat.zero_lt_one)
  exact ⟨srv, wire, hrun, hreceived, reqs, hasks, hevents, asks_callback (hreceived ▸ hasks)⟩

/-- A server that polls and is closed in the end. -/
def serveAndClose (path : Bytes) (n : ℕ) : S Unit := do
  polls path n
  closeServer path

/-- Polls and the close together, on any network. -/
private theorem wp_serveAndClose {n : ℕ} : Script.wp (network ok) anyFault (serveAndClose path n)
    (fun _ srv' wire' => Inv path ok (· ≤ fdSetSize) srv' wire' [])
    (newServer sockfd redirect) .silent := by
  rw [serveAndClose, Script.wp_bind]
  refine Script.wp_mono (wp_polls (inv_newServer path ok _ sockfd redirect)) (fun _ _ h => h) ?_
  rintro _ srv₁ wire₁ ⟨-, hinv⟩
  rw [closeServer, Script.wp_bind, Script.wp_get]
  exact Script.wp_mono (wp_closeStreams hinv) (fun _ _ h => h) fun _ _ _ h => h.1

/-- A server that closes its streams returns, and its clients have sent nothing more. -/
private theorem reaches_closeStreams {request : Bytes} {streams : List Stream}
    (hstart : srv.nextSerial = 1 ∧ wire.received 0 = request) :
    Script.reaches civil noFault (closeStreams path streams)
      (fun _ srv wire => srv.nextSerial = 1 ∧ wire.received 0 = request) srv wire := by
  induction streams generalizing srv with
  | nil => exact hstart
  | cons st streams ih =>
    rw [closeStreams, Script.reaches_bind, Script.reaches_modify, Script.reaches_bind]
    refine Script.reaches_mono (Program.twp.reaches ((answers_streamEmit _ _ _).twp
      (wp_streamEmit_still (.inr rfl)))) (fun _ _ h => h) ?_
    rintro _ _ _ ⟨-, rfl, rfl⟩
    exact ih hstart

/-- Whether there is memory or not, each client that has connected has one closing event, its last
one, and at most one request before it, which is complete; and it has got nothing but the beginning
of the status line, and that only if its request was accepted. -/
theorem served_session (path : Bytes) (sockfd : ℕ) (redirect : Redirect) (n : ℕ) {srv : Server}
    {wire : Wire}
    (hrun : Program.Exec (network False) (serveAndClose path n (newServer sockfd redirect)) .silent
      (.ok ((), srv)) wire) {i : ℕ} (hi : i < srv.nextSerial) :
    ∃ reqs, srv.eventsOf i = .other :: (reqs ++ [.close]) ∧
      (reqs = [] ∨ ∃ h b, IsRequest h b ∧ reqs = (redirectEvent h b).toList) ∧
      wire.sent i <+: statusLine ∧
      (wire.sent i ≠ [] → ∃ e ∈ reqs, accepts path e = true) := by
  obtain ⟨reqs, hevents, hsession⟩ := (wp_serveAndClose.of_exec hrun).gone i hi List.not_mem_nil
  exact ⟨reqs, hevents, hsession.requests, hsession.answer, hsession.accepted⟩

/-- Two calls in which a client connects and sends a request in two pieces, and the end. -/
private theorem exists_served : ∃ srv wire, Program.Exec (network True)
    (serveAndClose (ascii "/callback") 2 (newServer 3 ⟨false, [], 0⟩)) .silent (.ok ((), srv))
      wire ∧ srv.nextSerial = 1 ∧
    srv.eventsOf 0 = [.other, .request (ascii "/callback") (some (ascii "M.R3 %+")), .close] := by
  have hreach : Script.reaches civil noFault (serveAndClose (ascii "/callback") 2)
      (fun _ srv wire => srv.nextSerial = 1 ∧ wire.received 0 = requestCallback)
      (newServer 3 ⟨false, [], 0⟩) .silent := by
    rw [serveAndClose, Script.reaches_bind]
    refine reaches_polls readable_callback fun srv wire hnext hreceived => ?_
    rw [List.take_append_drop] at hreceived
    rw [closeServer, Script.reaches_bind, Script.reaches_get]
    exact reaches_closeStreams ⟨hnext, hreceived⟩
  obtain ⟨⟨⟩, srv, wire, hrun, hnext, hreceived⟩ := hreach.exists_exec
  have hrun := hrun.of_handler fun _ _ _ _ h => h.1
  obtain ⟨reqs, hevents, hsession⟩ := (wp_serveAndClose.of_exec hrun).gone 0
    (hnext.symm ▸ Nat.zero_lt_one) List.not_mem_nil
  have hasks : Asks (wire.received 0) reqs := hsession.asked trivial
  rw [hreceived] at hasks
  rw [asks_callback hasks] at hevents
  exact ⟨srv, wire, hrun, hnext, hevents⟩

theorem served_session_requested :
    ∃ srv wire, Program.Exec (network False) (serveAndClose (ascii "/callback") 2
        (newServer 3 ⟨false, [], 0⟩)) .silent (.ok ((), srv)) wire ∧
      srv.eventsOf 0 =
        [.other, .request (ascii "/callback") (some (ascii "M.R3 %+")), .close] ∧
      ∃ reqs, srv.eventsOf 0 = .other :: (reqs ++ [.close]) ∧
      (reqs = [] ∨ ∃ h b, IsRequest h b ∧ reqs = (redirectEvent h b).toList) ∧
      wire.sent 0 <+: statusLine ∧
      (wire.sent 0 ≠ [] → ∃ e ∈ reqs, accepts (ascii "/callback") e = true) := by
  obtain ⟨srv, wire, hrun, hnext, hevents⟩ := exists_served
  have hrun := hrun.of_handler fun _ _ _ _ => network_false _ _
  exact ⟨srv, wire, hrun, hevents, served_session _ 3 _ 2 hrun (hnext.symm ▸ Nat.zero_lt_one)⟩

/-! ### The loop of `get_authorize_code` -/

/-- One call of `sb_poll_server`, with the events it emits. -/
def PollStep (path : Bytes) (ok : Prop) (before : Server × Wire) (events : List SbEvent)
    (after : Server × Wire) : Prop :=
  ∃ err, Program.Exec (network ok) (pollServer path before.1) before.2 (.ok (err, after.1))
      after.2 ∧
    after.1.emitted.map Event.seen = before.1.emitted.map Event.seen ++ events

/-- What the loop makes of the events of its calls, with up to `n` of them. It ends behind the last
call or not at all, and if it has not ended there have been `n`. -/
structure LoopEnds (path : Bytes) (n : ℕ) (redirect : Redirect) (polls : List (List SbEvent))
    (redirect' : Redirect) : Prop where
  result : redirect' = polls.flatten.foldl (handleAuthRedirect path) redirect
  ends : waitRedirect path redirect polls = if redirect'.stopped then some redirect' else none
  goes : ∀ k < polls.length, waitRedirect path redirect (polls.take k) = none
  le : polls.length ≤ n
  all : redirect'.stopped = false → polls.length = n

/-- No call is made. -/
theorem LoopEnds.nil {n : ℕ} (hend : redirect.stopped = true ∨ n = 0) :
    LoopEnds path n redirect [] redirect where
  result := rfl
  ends := rfl
  goes := fun _ hk => absurd hk (Nat.not_lt_zero _)
  le := Nat.zero_le n
  all := fun hgoes => by
    rw [hgoes, Bool.false_eq_true, false_or] at hend
    exact hend.symm

/-- A call is made, and the loop goes on with what its events have left. -/
theorem LoopEnds.cons {n : ℕ} {events : List SbEvent} {polls : List (List SbEvent)}
    {redirect' : Redirect} (hgoes : redirect.stopped = false)
    (h : LoopEnds path n (events.foldl (handleAuthRedirect path) redirect) polls redirect') :
    LoopEnds path (n + 1) redirect (events :: polls) redirect' where
  result := by
    rw [List.flatten_cons, List.foldl_append]
    exact h.result
  ends := by
    rw [waitRedirect, hgoes, if_neg Bool.false_ne_true]
    exact h.ends
  goes := by
    intro k hk
    cases k with
    | zero => rw [List.take_zero, waitRedirect, hgoes, if_neg Bool.false_ne_true]
    | succ k =>
      rw [List.take_succ_cons, waitRedirect, hgoes, if_neg Bool.false_ne_true]
      exact h.goes k (Nat.lt_of_succ_lt_succ hk)
  le := Nat.succ_le_succ h.le
  all := fun hrest => congrArg Nat.succ (h.all hrest)

/-- The loop is a run of calls, and `waitRedirect` on their events. -/
private theorem wp_pollUntilStopped {n : ℕ}
    (hinv : Inv path ok (· ≤ fdSetSize) srv wire srv.streams) :
    Script.wp (network ok) anyFault (pollUntilStopped path n)
      (fun _ srv' wire' => (∃ polls, Run (PollStep path ok) (srv, wire) polls (srv', wire') ∧
        LoopEnds path n srv.redirect polls srv'.redirect) ∧
        (∃ es, Ran path es srv srv') ∧
        Inv path ok (· ≤ fdSetSize) srv' wire' srv'.streams) srv wire := by
  induction n generalizing srv wire with
  | zero => exact ⟨⟨[], .nil _, .nil (.inr rfl)⟩, ⟨[], .refl path srv⟩, hinv⟩
  | succ n ih =>
    rw [pollUntilStopped, Script.wp_bind, Script.wp_get, Script.wp_ite]
    refine ⟨fun hgoes => ?_, fun hends => ?_⟩
    · rw [Bool.not_eq_true'] at hgoes
      rw [Script.wp_bind]
      refine Script.wp_mono (Script.wp_with_exec
        (wp_pollServer (F := anyFault) hinv fun _ => trivial))
        (fun _ _ _ => trivial) ?_
      rintro err srv₁ wire₁ ⟨⟨⟨es, hran⟩, hinv₁, -⟩, hcall⟩
      have hstep : PollStep path ok (srv, wire) (es.map Event.seen) (srv₁, wire₁) :=
        ⟨err, hcall, by rw [hran.emitted, List.map_append]⟩
      refine Script.wp_mono (ih hinv₁) (fun _ _ h => h) ?_
      rintro _ srv' wire' ⟨⟨polls, hrun, hloop⟩, ⟨es', hran'⟩, hinv'⟩
      rw [hran.redirect] at hloop
      exact ⟨⟨_, .cons hstep hrun, hloop.cons hgoes⟩, ⟨_, hran.trans hran'⟩, hinv'⟩
    · have hstopped : srv.redirect.stopped = true := by
        rwa [Bool.not_eq_true', Bool.not_eq_false] at hends
      exact ⟨⟨[], .nil _, .nil (.inl hstopped)⟩, ⟨[], .refl path srv⟩, hinv⟩

/-- Every run of the loop of `get_authorize_code` is a sequence of calls of `sb_poll_server`, and
`waitRedirect` on the events of these calls has the same result and ends behind the same call. -/
theorem pollUntilStopped_refines (path : Bytes) (sockfd : ℕ) (redirect : Redirect) (n : ℕ)
    {srv : Server} {wire : Wire}
    (hrun : Program.Exec (network False) (pollUntilStopped path n (newServer sockfd redirect))
      .silent (.ok ((), srv)) wire) :
    ∃ polls, Run (PollStep path False) (newServer sockfd redirect, .silent) polls (srv, wire) ∧
      LoopEnds path n redirect polls srv.redirect :=
  ((wp_pollUntilStopped (inv_newServer path False _ sockfd redirect)).of_exec hrun).1

theorem pollUntilStopped_refines_departed :
    ∃ srv wire, Program.Exec (network False) (pollUntilStopped (ascii "/callback") 3
        (newServer 3 ⟨false, [], 0⟩)) .silent (.ok ((), srv)) wire ∧ srv.redirect.stopped = true ∧
      ∃ polls, Run (PollStep (ascii "/callback") False) (newServer 3 ⟨false, [], 0⟩, .silent) polls
          (srv, wire) ∧
        LoopEnds (ascii "/callback") 3 ⟨false, [], 0⟩ polls srv.redirect := by
  have hreach : Script.reaches (network False) noFault (pollUntilStopped (ascii "/callback") 3)
      (fun _ srv _ => srv.redirect.stopped = true) (newServer 3 ⟨false, [], 0⟩) .silent := by
    rw [pollUntilStopped, Script.reaches_bind, Script.reaches_get, if_pos (by rfl),
      Script.reaches_bind]
    refine reaches_connect 5 rfl rfl rfl ⟨False.elim, rfl⟩ (by decide) ?_
    rw [pollUntilStopped, Script.reaches_bind, Script.reaches_get, if_pos (by rfl),
      Script.reaches_bind]
    refine reaches_depart False fun srv _ _ hstopped => ?_
    rw [pollUntilStopped, Script.reaches_bind, Script.reaches_get, hstopped]
    exact hstopped
  obtain ⟨⟨⟩, srv, wire, hrun, hstopped⟩ := hreach.exists_exec
  exact ⟨srv, wire, hrun, hstopped, pollUntilStopped_refines _ 3 _ 3 hrun⟩

/-! ### Clients that come and go -/

/-- An event of a stream has been emitted. -/
private theorem mem_emitted_of_mem_eventsOf {i : ℕ} {e : SbEvent} (he : e ∈ srv.eventsOf i) :
    e ∈ srv.emitted.map Event.seen :=
  ((List.filter_sublist.map _).subset he)

/-- A closing event ends the loop, and nothing else does. -/
private theorem stopped_foldl (path : Bytes) (es : List SbEvent) (r : Redirect) :
    (es.foldl (handleAuthRedirect path) r).stopped =
      (r.stopped || decide (SbEvent.close ∈ es)) := by
  induction es generalizing r with
  | nil => rw [List.foldl_nil, decide_eq_false List.not_mem_nil, Bool.or_false]
  | cons e es ih =>
    have hstep : (handleAuthRedirect path r e).stopped =
        (r.stopped || decide (SbEvent.close = e)) := by
      cases e with
      | close => exact (Bool.or_true r.stopped).symm
      | other => exact (Bool.or_false r.stopped).symm
      | request requestPath value =>
        refine Eq.trans ?_ (Bool.or_false r.stopped).symm
        unfold handleAuthRedirect
        dsimp only
        split
        · rfl
        · split <;> rfl
    rw [List.foldl_cons, ih, hstep, Bool.or_assoc, ← Bool.decide_or]
    simp only [List.mem_cons]

/-- As long as the loop goes on no client that got a stream has gone, whatever the last call has
returned; and after a call without an error each of them has been active in the last 30 seconds. One
client that is silent, or gone, ends the loop. -/
theorem loop_waits_for_active (path : Bytes) (sockfd : ℕ) (redirect : Redirect) (n : ℕ)
    {err : Option SbError} {srv : Server} {wire : Wire}
    (hrun : Program.Exec (network False) ((polls path n >>= fun _ => pollServer path)
      (newServer sockfd redirect)) .silent (.ok (err, srv)) wire)
    (hgoes : srv.redirect.stopped = false) {i : ℕ} (hi : i < srv.nextSerial) :
    ∃ st ∈ srv.streams, st.serial = i ∧ (err = none → srv.now - st.lastActivity ≤ 30) := by
  have hwp : Script.wp (network False) anyFault (polls path n >>= fun _ => pollServer path)
      (fun err srv' wire' => (∃ es, Ran path es (newServer sockfd redirect) srv') ∧
        Inv path False (· ≤ fdSetSize) srv' wire' srv'.streams ∧ (err = none → srv'.Within))
      (newServer sockfd redirect) .silent := by
    rw [Script.wp_bind]
    refine Script.wp_mono (wp_polls (inv_newServer path False _ sockfd redirect))
      (fun _ _ h => h) ?_
    rintro _ srv₁ wire₁ ⟨⟨es, hran⟩, hinv⟩
    refine Script.wp_mono (wp_pollServer hinv fun _ => trivial) (fun _ _ h => h) ?_
    rintro err srv' wire' ⟨⟨es', hran'⟩, hrest⟩
    exact ⟨⟨_, hran.trans hran'⟩, hrest⟩
  obtain ⟨⟨es, hran⟩, hinv, hwithin⟩ := hwp.of_exec hrun
  by_cases hmem : i ∈ srv.streams.map Stream.serial
  · obtain ⟨st, hst, rfl⟩ := List.mem_map.mp hmem
    refine ⟨st, hst, rfl, fun herr => ?_⟩
    have hexceeds := hwithin herr st hst
    have htimeout : srv.timeout = 30000 := hran.timeout
    rw [Server.exceeds, htimeout, Bool.or_eq_false_iff, Bool.or_eq_false_iff] at hexceeds
    simpa using hexceeds.1.1
  · obtain ⟨reqs, hevents, -⟩ := hinv.gone i hi hmem
    have hclose : SbEvent.close ∈ srv.emitted.map Event.seen := by
      refine mem_emitted_of_mem_eventsOf (i := i) ?_
      rw [hevents]
      exact List.mem_cons_of_mem _ (List.mem_append_right _ List.mem_cons_self)
    have hredirect := hran.redirect
    rw [show es = srv.emitted from hran.emitted.symm] at hredirect
    rw [hredirect, stopped_foldl, decide_eq_true hclose, Bool.or_true] at hgoes
    cases hgoes

/-- A run in which a client connects over a descriptor. -/
private theorem exists_connected (ok : Prop) (sockfd : ℕ) (hfits : sockfd ≤ fdSetSize) :
    ∃ wire, Program.Exec (network ok) (polls (ascii "/callback") 1
      (newServer 3 ⟨false, [], 0⟩)) .silent (.ok ((), connected (ascii "/callback") sockfd))
      wire := by
  have hreach : Script.reaches (network ok) noFault (polls (ascii "/callback") 1)
      (fun _ srv _ => srv = connected (ascii "/callback") sockfd)
      (newServer 3 ⟨false, [], 0⟩) .silent := by
    rw [polls, Script.reaches_bind]
    exact reaches_connect sockfd rfl rfl rfl ⟨fun _ => rfl, rfl⟩ hfits rfl
  obtain ⟨⟨⟩, srv, wire, hrun, rfl⟩ := hreach.exists_exec
  exact ⟨wire, hrun⟩

theorem loop_waits_for_active_connected :
    ∃ srv wire, Program.Exec (network False) ((polls (ascii "/callback") 0 >>= fun _ =>
        pollServer (ascii "/callback")) (newServer 3 ⟨false, [], 0⟩)) .silent
        (.ok (none, srv)) wire ∧ srv.redirect.stopped = false ∧ srv.nextSerial = 1 ∧
      ∃ st ∈ srv.streams, st.serial = 0 ∧
        ((none : Option SbError) = none → srv.now - st.lastActivity ≤ 30) := by
  have hreach : Script.reaches (network False) noFault
      (polls (ascii "/callback") 0 >>= fun _ => pollServer (ascii "/callback"))
      (fun err srv _ => err = none ∧ srv.redirect.stopped = false ∧ srv.nextSerial = 1)
      (newServer 3 ⟨false, [], 0⟩) .silent := by
    rw [Script.reaches_bind, polls, Script.reaches_pure]
    refine reaches_connect 5 rfl rfl rfl ⟨False.elim, rfl⟩ (by decide) ?_
    exact ⟨rfl, rfl, rfl⟩
  obtain ⟨_, srv, wire, hrun, rfl, hstopped, hnext⟩ := hreach.exists_exec
  exact ⟨srv, wire, hrun, hstopped, hnext,
    loop_waits_for_active _ 3 _ 0 hrun hstopped (hnext.symm ▸ Nat.zero_lt_one)⟩

/-! ### Clients that do harm -/

/-- The bytes begin with a header in which a carriage return stands alone, in a line that has no
`Content-Length` and that no line with one precedes. -/
def LoneCr (bs : Bytes) : Prop :=
  ∃ h, h <+: bs ∧ IsHeader h ∧ ∃ lines l rest, cString h = unlines lines ++ (l ++ 13 :: rest) ∧
    (∀ x ∈ lines, IsLine x ∧ hasField (ascii "Content-Length") x = false) ∧
    13 ∉ l ∧ hasField (ascii "Content-Length") l = false ∧ rest.head? ≠ some 10

private theorem readable_iff {bs : Bytes} : Readable bs ↔ ¬LoneCr bs := by
  have hiff : ∀ h, announced h = none ↔ findHeaderValue (ascii "Content-Length") (cString h) =
      .endless := by
    intro h
    unfold announced
    split
    · rename_i value hfind
      rw [hfind]
      exact iff_of_false (Option.some_ne_none _) nofun
    · rename_i hfind
      rw [hfind]
      exact iff_of_false (Option.some_ne_none _) nofun
    · rename_i hfind
      rw [hfind]
      exact iff_of_true rfl rfl
  have hcontent : 13 ∉ ascii "Content-Length" ∧ ascii "Content-Length" ≠ [] := by decide
  constructor
  · rintro hread ⟨h, hpre, hh, hlines⟩
    exact hread h hpre hh
      ((hiff h).mpr ((findHeaderValue_eq_endless_iff hcontent.1 hcontent.2).mpr hlines))
  · intro hno h hpre hh hnone
    exact hno ⟨h, hpre, hh,
      (findHeaderValue_eq_endless_iff hcontent.1 hcontent.2).mp ((hiff h).mp hnone)⟩

/-- With memory, between any two calls: reading from a stream returns unless what its client has
sent begins with a header in which a carriage return stands alone. Then the server hangs. -/
theorem streamRecv_returns_iff (path : Bytes) (sockfd : ℕ) (redirect : Redirect) (n : ℕ)
    {srv : Server} {wire : Wire}
    (hrun : Program.Exec (network True) (polls path n (newServer sockfd redirect)) .silent
      (.ok ((), srv)) wire) {st : Stream} (hst : st ∈ srv.streams)
    (hstate : st.state.receiving = true) (r : Received) :
    (∃ o wire', Program.Exec (network True)
        (recvChunks path st r.disconnected r.chunks srv) wire o wire') ↔
      ¬LoneCr (wire.received st.serial ++ r.chunks.flatten) := by
  obtain ⟨reqs, -, hlive⟩ := (inv_of_polls hrun).live st hst
  obtain ⟨hwaits, hdata⟩ := hlive.waits hstate
  rw [← readable_iff]
  constructor
  · rintro ⟨o, wire', hex⟩
    have hends := Script.wp_iff_forall_exec.mp (wp_recvChunks (F := noFault) hwaits hdata)
      o wire' hex
    cases o with
    | error e => exact hends.elim
    | ok result =>
      obtain ⟨-, reqs', hhandled⟩ := hends
      exact (hhandled.live.session.asked trivial).readable
  · intro hread
    rw [← hdata trivial] at hread
    have htotal : Script.twp civil anyFault (recvChunks path st r.disconnected r.chunks)
        (fun _ _ _ => True) srv wire := twp_recvChunks hwaits hread
    obtain ⟨o, wire', hex⟩ := htotal.halts.exists_exec
    exact ⟨o, wire', hex.of_handler fun _ _ _ _ h => h.1⟩

theorem streamRecv_returns_iff_connected :
    ∃ wire, Program.Exec (network True) (polls (ascii "/callback") 1
        (newServer 3 ⟨false, [], 0⟩)) .silent (.ok ((), connected (ascii "/callback") 5)) wire ∧
      ∃ st ∈ (connected (ascii "/callback") 5).streams, ∀ r : Received,
        (∃ o wire', Program.Exec (network True) (recvChunks (ascii "/callback") st r.disconnected
          r.chunks (connected (ascii "/callback") 5)) wire o wire') ↔
        ¬LoneCr (wire.received st.serial ++ r.chunks.flatten) := by
  obtain ⟨wire, hrun⟩ := exists_connected True 5 (by decide)
  exact ⟨wire, hrun, _, List.mem_cons_self, fun r =>
    streamRecv_returns_iff _ 3 _ 1 hrun List.mem_cons_self rfl r⟩

/-- Between any two calls: the next one is undefined behaviour exactly when the descriptor of the
server, or that of a client, does not fit the set of descriptors. Clients are turned away only from
1025 on, so it is a client with the descriptor 1024. -/
theorem pollServer_faults_iff (path : Bytes) (sockfd : ℕ) (redirect : Redirect) (n : ℕ)
    {srv : Server} {wire : Wire}
    (hrun : Program.Exec (network False) (polls path n (newServer sockfd redirect)) .silent
      (.ok ((), srv)) wire) :
    (∃ e wire', Program.Exec (network False) (pollServer path srv) wire (.error e) wire') ↔
      1024 ≤ sockfd ∨ ∃ st ∈ srv.streams, st.sockfd = 1024 := by
  obtain ⟨⟨es, hran⟩, hinv⟩ :=
    (wp_polls (inv_newServer path False _ sockfd redirect)).of_exec hrun
  have hsockfd : srv.sockfd = sockfd := hran.sockfd
  have hfits : srv.fitsSet = false ↔ 1024 ≤ sockfd ∨ ∃ st ∈ srv.streams, st.sockfd = 1024 := by
    rw [Server.fitsSet, Bool.and_eq_false_iff, decide_eq_false_iff_not, hsockfd, not_lt,
      List.all_eq_false]
    refine or_congr_right (exists_congr fun st => and_congr_right fun hst => ?_)
    have hle : st.sockfd ≤ 1024 := hinv.sockfd st hst
    rw [decide_eq_true_eq, not_lt]
    exact ⟨fun h => hle.antisymm h, fun h => h.ge⟩
  rw [← hfits]
  constructor
  · rintro ⟨e, wire', hex⟩
    by_contra hset
    exact Script.wp_iff_forall_exec.mp
      (wp_pollServer (F := noFault) hinv fun h => absurd h hset) _ _ hex
  · intro hset
    refine ⟨.bufferOverrun, wire, ?_⟩
    rw [pollServer, Script.get_bind_eq, if_neg (Bool.eq_false_iff.mp hset)]
    exact .fault _ _

theorem pollServer_faults_iff_1024 :
    ∃ wire, Program.Exec (network False) (polls (ascii "/callback") 1
        (newServer 3 ⟨false, [], 0⟩)) .silent (.ok ((), connected (ascii "/callback") 1024)) wire ∧
      ∃ e wire', Program.Exec (network False) (pollServer (ascii "/callback")
        (connected (ascii "/callback") 1024)) wire (.error e) wire' := by
  obtain ⟨wire, hrun⟩ := exists_connected False 1024 (by decide)
  exact ⟨wire, hrun, (pollServer_faults_iff _ 3 _ 1 hrun).mpr (.inr ⟨_, List.mem_cons_self, rfl⟩)⟩

/-! ### A client that is sent back with a code -/

/-- With one stream all events are its own. -/
theorem Inv.emitted_of_one {D : ℕ → Prop} (hinv : Inv path ok D srv wire srv.streams)
    (hone : srv.nextSerial = 1) : srv.emitted.map Event.seen = srv.eventsOf 0 := by
  have hall : srv.emitted.filter (·.stream.serial = 0) = srv.emitted := by
    refine List.filter_eq_self.mpr fun e he => decide_eq_true ?_
    by_contra hne
    have hfresh := (hinv.fresh e.stream.serial (hone.trans_le (Nat.pos_of_ne_zero hne))).1
    have hmem : e.seen ∈ srv.eventsOf e.stream.serial :=
      List.mem_map_of_mem (List.mem_filter.mpr ⟨he, decide_eq_true rfl⟩)
    rw [hfresh] at hmem
    exact List.not_mem_nil hmem
  rw [Server.eventsOf, hall]

/-- When one client has connected and has sent what a client that is sent back with a code sends, in
whatever pieces, the loop has the code and no error, and it has ended if the client has gone. -/
theorem redirect_delivers_code {path code more : Bytes} {vars lines : List Bytes}
    (hredirect : IsRedirect path vars more)
    (hlines : ∀ l ∈ lines, IsLine l ∧ 0 ∉ l ∧ hasField (ascii "Content-Length") l = false)
    (hcode : code.length + 1 < authorizeCodeSize) (sockfd : ℕ) (hiveError : ℤ) (n : ℕ)
    {srv : Server} {wire : Wire}
    (hrun : Program.Exec (network True) (pollUntilStopped path n
      (newServer sockfd ⟨false, [], hiveError⟩)) .silent (.ok ((), srv)) wire)
    (hone : srv.nextSerial = 1)
    (hsent : getRequest (redirectTarget path vars code more) lines <+: wire.received 0) :
    srv.redirect = ⟨decide (srv.streams = []), code, hiveError⟩ := by
  obtain ⟨-, ⟨es, hran⟩, hinv⟩ :=
    (wp_pollUntilStopped (inv_newServer path True _ sockfd _)).of_exec hrun
  obtain ⟨hreq, hevent⟩ := redirectEvent_getRequest hredirect hlines code
  obtain ⟨reqs, hevents, hsession⟩ := hinv.session (hone ▸ Nat.zero_lt_one)
  -- the bytes that were sent give one request event, with the code in it
  have hreqs : reqs = [.request path (some code)] := by
    rw [(hsession.asked trivial).eq_of_request hreq (by rwa [List.append_nil]), hevent]
    rfl
  have hfits : sbGetVar (some code) authorizeCodeSize = (true, code) := by
    rw [sbGetVar, if_neg (by omega)]
  have hhandled : handleAuthRedirect path ⟨false, [], hiveError⟩ (.request path (some code)) =
      ⟨false, code, hiveError⟩ := by
    rw [handleAuthRedirect, if_neg (not_not.mpr rfl), hfits]
  -- the redirect is the fold of the handler; the close, if any, only stops it
  have hresult := hran.redirect
  rw [show es = srv.emitted from hran.emitted.symm, hinv.emitted_of_one hone, hevents,
    hreqs] at hresult
  change srv.redirect = (srv.closing 0).foldl (handleAuthRedirect path)
    (handleAuthRedirect path ⟨false, [], hiveError⟩ (.request path (some code))) at hresult
  rw [hhandled] at hresult
  rw [hresult, Server.closing]
  by_cases hnil : srv.streams = []
  · rw [hnil, List.map_nil, if_neg List.not_mem_nil, decide_eq_true rfl]
    rfl
  · obtain ⟨st, streams, hstreams⟩ := List.exists_cons_of_ne_nil hnil
    have hmem : st ∈ srv.streams := hstreams ▸ List.mem_cons_self
    have hzero : st.serial = 0 := by
      have := hinv.lt_next st hmem
      omega
    rw [if_pos (hzero ▸ List.mem_map_of_mem hmem), decide_eq_false hnil]
    rfl

theorem redirect_delivers_code_callback :
    ∃ srv wire, Program.Exec (network True) (pollUntilStopped (ascii "/callback") 2
        (newServer 3 ⟨false, [], 0⟩)) .silent (.ok ((), srv)) wire ∧
      srv.redirect = ⟨decide (srv.streams = []), ascii "M.R3 %+", 0⟩ := by
  have hreach : Script.reaches civil noFault (pollUntilStopped (ascii "/callback") 2)
      (fun _ srv wire => srv.nextSerial = 1 ∧ wire.received 0 = requestCallback)
      (newServer 3 ⟨false, [], 0⟩) .silent := by
    rw [pollUntilStopped, Script.reaches_bind, Script.reaches_get, if_pos (by rfl),
      Script.reaches_bind]
    refine reaches_connect_civil ?_
    rw [pollUntilStopped, Script.reaches_bind, Script.reaches_get, if_pos (by rfl),
      Script.reaches_bind]
    refine reaches_pieces readable_callback fun _ srv wire hnext hreceived => ?_
    exact ⟨hnext, hreceived.trans (List.take_append_drop _ _)⟩
  obtain ⟨⟨⟩, srv, wire, hrun, hone, hreceived⟩ := hreach.exists_exec
  have hrun := hrun.of_handler fun _ _ _ _ h => h.1
  exact ⟨srv, wire, hrun, redirect_delivers_code isRedirect_callback lines_callback (by decide)
    3 0 2 hrun hone (hreceived ▸ List.prefix_refl _)⟩

end Runs

end Sandbird

end HiveSDK
