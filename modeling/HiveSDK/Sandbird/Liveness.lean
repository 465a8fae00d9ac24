import HiveSDK.Interaction.Total
import HiveSDK.Sandbird.Server

/-!
# The server does not hang

A call of `sb_poll_server` can fail to return in two ways. A header in which a carriage return
stands alone before any `Content-Length` keeps `find_header_value` going round, and a descriptor
that does not fit the set of descriptors is undefined behaviour. Against clients that do neither
(`civil`), and with memory, every call returns, however the bytes come and whatever becomes of the
connections (`polls_total`).
-/

namespace HiveSDK

open Interaction

namespace Sandbird

/-- The answers of clients whose headers can be read, over descriptors that fit their set. -/
def Civil (wire : Wire) : (i : SbCall) → i.Reply → Prop
  | .recv i, r => Readable (wire.received i ++ r.chunks.flatten)
  | .accept, sockets => ∀ sockfd ∈ sockets, sockfd < fdSetSize
  | _, _ => True

/-- A network of such clients, with memory. -/
def civil : Handler Wire SbCall SbCall.Reply :=
  fun wire i r wire' => network True wire i r wire' ∧ Civil wire i r

/-- A question that is always answered. -/
def SbCall.Answered : SbCall → Prop
  | .recv _ => False
  | .loops => False
  | _ => True

/-- On a civil network every call that should be answered is. -/
private theorem civil_answers (wire : Wire) (i : SbCall) (hi : i.Answered) :
    ∃ r wire', civil wire i r wire' := by
  cases i with
  | realloc n => exact ⟨true, wire, ⟨fun _ => rfl, rfl⟩, trivial⟩
  | malloc => exact ⟨true, wire, ⟨fun _ => rfl, rfl⟩, trivial⟩
  | recv i => exact hi.elim
  | send i data => exact ⟨.error true, wire, rfl, trivial⟩
  | select => exact ⟨⟨fun _ => false, fun _ => false, false⟩, wire, rfl, trivial⟩
  | time => exact ⟨0, wire, rfl, trivial⟩
  | accept => exact ⟨[], wire, rfl, nofun⟩
  | loops => exact hi.elim

/-- The script asks only what is always answered. -/
abbrev Answers {α : Type} (m : S α) : Prop := m.Within SbCall.Answered fun _ => False

section Answers

private theorem answers_bufferPushChar (buf : Buffer) (c : UInt8) :
    Answers (bufferPushChar buf c) := by
  unfold bufferPushChar
  split
  · exact .pure _
  · refine .bind (.ask trivial) fun r => ?_
    exact .ite (.pure _) (.pure _)

private theorem answers_bufferPushStr (buf : Buffer) (p : Bytes) :
    Answers (bufferPushStr buf p) := by
  induction p generalizing buf with
  | nil => exact .pure _
  | cons c p ih =>
    refine .bind (answers_bufferPushChar buf c) fun r => .ite (.pure _) ?_
    exact .bind (ih _) fun r' => .ite (.pure _) (.pure _)

private theorem answers_bufferNullTerminate (buf : Buffer) : Answers (bufferNullTerminate buf) := by
  unfold bufferNullTerminate
  refine .ite (.pure _) ?_
  exact .bind (.ask trivial) fun r => .ite (.pure _) (.pure _)

theorem answers_streamEmit (path : Bytes) (st : Stream) (type : EventType) :
    Answers (streamEmit path st type) := by
  unfold streamEmit
  refine .bind (.modify _) fun _ => ?_
  unfold handle
  cases type with
  | connect => exact .pure _
  | close => exact .bind (.modify _) fun _ => .pure _
  | request method requestPath =>
    refine .ite (.bind (.modify _) fun _ => .pure _) ?_
    refine .bind (.modify _) fun _ => ?_
    refine .ite (.bind (.modify _) fun _ => .pure _) (.bind ?_ fun _ => .pure _)
    unfold sendStatus
    refine .ite (.pure _) (.bind (answers_bufferPushStr _ _) fun r => ?_)
    exact .ite (.pure _) (.pure _)

private theorem answers_handleRequest (path : Bytes) (st : Stream) :
    Answers (handleRequest path st) := by
  unfold handleRequest
  refine .bind (answers_bufferNullTerminate _) fun r => .ite (.pure _) ?_
  split
  · exact .pure _
  · refine .ite (.pure _) (.bind (answers_streamEmit _ _ _) fun _ => .pure _)

private theorem answers_sendSelected (receiving : Bool) (selected : Selected) (st : Stream) :
    Answers (sendSelected receiving selected st) := by
  unfold sendSelected streamSend
  refine .ite (.ite (.pure _) (.bind (.ask trivial) fun r => ?_)) (.pure _)
  cases r with
  | error wouldBlock => exact .pure _
  | ok sent => exact .bind .get fun _ => .pure _

private theorem answers_acceptStreams (path : Bytes) (sockets : List ℕ) :
    Answers (acceptStreams path sockets) := by
  induction sockets with
  | nil => exact .pure _
  | cons sockfd sockets ih =>
    refine .ite (.pure _) (.bind (.ask trivial) fun r => .ite (.pure _) ?_)
    refine .bind .get fun srv => .bind (answers_streamEmit _ _ _) fun st => ?_
    exact .bind (.modify _) fun _ => ih

end Answers

section Total

variable {path : Bytes} {srv srv' : Server} {wire wire' : Wire} {st : Stream}

theorem wp_civil {α : Type} {F : Fault → Wire → Prop} {m : S α} {Q : α → Server → Wire → Prop}
    (hwp : Script.wp (network True) F m Q srv wire) : Script.wp civil F m Q srv wire :=
  Script.wp_of_handler (fun _ _ _ _ h => h.1) hwp

/-- What answers is total on a civil network, if it is correct on any. -/
theorem Answers.twp {α : Type} {F : Fault → Wire → Prop} {m : S α}
    {Q : α → Server → Wire → Prop} (hm : Answers m)
    (hwp : Script.wp (network True) F m Q srv wire) : Script.twp civil F m Q srv wire :=
  (wp_civil hwp).total civil_answers hm

/-- As long as the headers can be read, the loop over a chunk ends. -/
private theorem twp_recvBytes {bytes : Bytes} (hwaits : Waits True st)
    (hread : Readable (st.recvBuf.data ++ bytes)) :
    Script.twp civil anyFault (recvBytes path st bytes) (fun _ _ _ => True) srv wire := by
  induction bytes generalizing st with
  | nil => trivial
  | cons c bytes ih =>
    rw [recvBytes, Script.twp_bind]
    refine Script.twp_mono ((answers_bufferPushChar _ _).twp wp_bufferPushChar) (fun _ _ h => h) ?_
    rintro ⟨pushed, buf⟩ srv wire ⟨⟨hok, hbuf⟩, rfl, rfl⟩
    obtain rfl : pushed = true := hok trivial
    rw [if_pos rfl] at hbuf
    change buf.data = st.recvBuf.data ++ [c] at hbuf
    have hrest : st.recvBuf.data ++ c :: bytes = buf.data ++ bytes := by
      rw [hbuf, List.append_assoc]
      rfl
    rw [hrest] at hread
    -- the handler answers in any case
    have hrequest : ∀ st', Script.twp civil anyFault
        (handleRequest path st' >>= fun r => pure (some r.1, r.2)) (fun _ _ _ => True) srv wire :=
      fun st' => Answers.twp ((answers_handleRequest path st').bind fun _ => .pure _) Script.wp_true
    simp only [Bool.not_true, Bool.false_eq_true, if_false]
    rw [Script.twp_ite]
    refine ⟨fun hheader => ?_, fun hheader => ?_⟩
    · obtain ⟨hstate, hends⟩ := hheader
      rw [List.isSuffixOf_iff_suffix] at hends
      obtain ⟨hh, hlen, hidx⟩ := hwaits.read.header_ended hbuf hstate hends
      rw [Script.twp_bind]
      refine Script.twp_mono ((answers_bufferNullTerminate _).twp wp_bufferNullTerminate)
        (fun _ _ h => h) ?_
      rintro ⟨terminated, buf'⟩ srv wire ⟨⟨hok', hbuf'⟩, rfl, rfl⟩
      obtain rfl : terminated = true := hok' trivial
      have hsame : buf'.data = buf.data := hbuf'.trans (List.append_nil _)
      simp only [Bool.not_true, Bool.false_eq_true, if_false, hsame]
      split
      · rename_i hfind
        -- the search for the field would not end, which `Readable` excludes
        refine absurd ?_ (hread _ (List.prefix_append _ _) hh)
        rw [announced, hfind]
      · exact hrequest _
      · rename_i value hfind
        have hn : announced buf.data = some (strToUint value) := by rw [announced, hfind]
        rw [Script.twp_ite]
        refine ⟨fun _ => hrequest _, fun hzero => ih ⟨rfl, hwaits.send, ?_⟩ ?_⟩
        · refine .body buf.data [] (strToUint value) rfl ?_ hh hn rfl rfl ?_
          · exact hsame.trans (List.append_nil _).symm
          · exact Nat.pos_of_ne_zero fun h => hzero (by rw [h, Nat.add_zero])
        · change Readable (buf'.data ++ bytes)
          rw [hsame]
          exact hread
    · have hheader' : ¬(st.state = .receivingHeader ∧ EndsHeader buf.data) := by
        rw [EndsHeader, ← List.isSuffixOf_iff_suffix]
        exact hheader
      rw [Script.twp_ite]
      refine ⟨fun _ => hrequest _, fun hlen => ih ⟨hwaits.receiving, hwaits.send, ?_⟩ hread⟩
      exact hwaits.read.push hbuf hheader' hlen

/-- The loop over what has been received ends, where the bytes can be read. -/
theorem twp_recvChunks {disconnected : Bool} {chunks : List Bytes} (hwaits : Waits True st)
    (hread : Readable (st.recvBuf.data ++ chunks.flatten)) :
    Script.twp civil anyFault (recvChunks path st disconnected chunks) (fun _ _ _ => True) srv
      wire := by
  induction chunks generalizing st srv wire with
  | nil => trivial
  | cons chunk chunks ih =>
    rw [recvChunks, Script.twp_bind, Script.twp_get]
    dsimp only
    rw [Script.twp_bind]
    have hwaits' : Waits True { st with lastActivity := srv.now } :=
      ⟨hwaits.receiving, hwaits.send, hwaits.read.congr rfl rfl rfl rfl⟩
    rw [List.flatten_cons, ← List.append_assoc] at hread
    have hchunk : Script.twp civil anyFault
        (recvBytes path { st with lastActivity := srv.now } chunk) (fun _ _ _ => True) srv wire :=
      twp_recvBytes hwaits' (hread.mono (List.prefix_append _ _))
    refine Script.twp_mono (hchunk.of_wp (wp_civil (wp_recvBytes (F := anyFault) hwaits')))
      (fun _ _ h => h) ?_
    rintro ⟨result, st₁⟩ srv₁ wire₁ hprogress
    cases result with
    | some err => trivial
    | none =>
      obtain ⟨rfl, rfl, hkept, hwaits₁, hdata⟩ := hprogress
      refine ih hwaits₁ ?_
      rw [hdata]
      exact hread

variable {D : ℕ → Prop}

/-- One stream in the loop over the readable ones. -/
private theorem twp_recvSelected {before after : List Stream} {selected : Selected}
    (hinv : Inv path True D srv wire (before ++ st :: after)) :
    Script.twp civil anyFault (recvSelected path selected st)
      (fun r srv' wire' => (∃ es, srv' = srv.after path es) ∧ (True → r.1 = none) ∧
        (st.state.receiving = false → r.2 = st) ∧
        Inv path True D srv' wire' (before ++ r.2 :: after)) srv wire := by
  have hends : Script.twp civil anyFault (recvSelected path selected st) (fun _ _ _ => True) srv
      wire := by
    rw [recvSelected, Script.twp_ite]
    refine ⟨fun hselected => ?_, fun _ => trivial⟩
    rw [Bool.and_eq_true] at hselected
    obtain ⟨reqs, -, hlive⟩ := hinv.live st (mem_middle.mpr (.inl rfl))
    obtain ⟨hwaits, hdata⟩ := hlive.waits hselected.1
    rw [streamRecv, Script.twp_bind, Script.twp_ask]
    constructor
    · -- a client may always disconnect
      refine ⟨⟨[], true⟩, _, rfl, ?_⟩
      change Readable (wire.received st.serial ++ [])
      rw [List.append_nil, ← hdata trivial]
      exact (hwaits.read.noRequest trivial).readable
    · rintro r wire' ⟨-, hcivil⟩
      refine twp_recvChunks hwaits ?_
      rw [hdata trivial]
      exact hcivil
  exact hends.of_wp (wp_civil (wp_recvSelected hinv))

/-- The loop over the streams ends, by induction on them. -/
private theorem twp_pollStreams {before streams : List Stream} {selected : Selected}
    (hinv : Inv path True D srv wire (before ++ streams)) :
    Script.twp civil anyFault (pollStreams path selected streams) (fun _ _ _ => True) srv wire := by
  induction streams generalizing before srv wire with
  | nil => trivial
  | cons st streams ih =>
    rw [pollStreams, Script.twp_bind]
    refine Script.twp_mono (twp_recvSelected hinv) (fun _ _ h => h) ?_
    rintro ⟨err, st₁⟩ srv₁ wire₁ ⟨-, -, hsame, hinv₁⟩
    rw [Script.twp_ite]
    refine ⟨fun _ => trivial, fun _ => ?_⟩
    have hstate : st.state.receiving = false → st₁.state.receiving = false := by
      intro h
      rw [show st₁ = st from hsame h]
      exact h
    rw [Script.twp_bind]
    refine Script.twp_mono ((answers_sendSelected _ _ _).twp (wp_sendSelected hstate hinv₁))
      (fun _ _ h => h) ?_
    rintro st₂ srv₂ wire₂ ⟨-, hinv₂⟩
    rw [Script.twp_bind, Script.twp_get]
    dsimp only
    generalize Server.exceeds _ st₂ = exceeded
    have hinv₃ := hinv₂.limit exceeded
    generalize (if exceeded then { st₂ with state := .closing } else st₂) = st₃ at hinv₃ ⊢
    rw [Script.twp_ite]
    refine ⟨fun _ => ?_, fun _ => ?_⟩
    · rw [Script.twp_bind]
      refine Script.twp_mono ((answers_streamEmit _ _ _).twp (wp_streamEmit_still (.inr rfl)))
        (fun _ _ h => h) ?_
      rintro _ _ _ ⟨-, rfl, rfl⟩
      exact ih hinv₃.emit_close
    · rw [Script.twp_bind]
      have hmoved : Inv path True D srv₂ wire₂ ((before ++ [st₃]) ++ streams) := by
        rw [List.append_assoc]
        exact hinv₃
      exact Script.twp_mono (ih hmoved) (fun _ _ h => h) fun _ _ _ _ => trivial

/-- All descriptors fit the set. -/
private theorem fitsSet_of_inv {streams : List Stream} (hsockfd : srv.sockfd < fdSetSize)
    (hstreams : srv.streams = streams) (hinv : Inv path True (· < fdSetSize) srv wire streams) :
    srv.fitsSet = true := by
  unfold Server.fitsSet
  rw [decide_eq_true hsockfd, Bool.true_and, List.all_eq_true, hstreams]
  exact fun st hst => decide_eq_true (hinv.sockfd st hst)

/-- A call that leaves the network as it was. -/
private theorem twp_quiet {F : Fault → Wire → Prop} {i : SbCall}
    {Q : i.Reply → Server → Wire → Prop}
    (hanswered : i.Answered) (hi : ∀ r wire', network True wire i r wire' → wire' = wire)
    (hQ : ∀ r, Civil wire i r → Q r srv wire) : Script.twp civil F (ask i) Q srv wire := by
  refine ⟨civil_answers wire i hanswered, ?_⟩
  rintro r wire' ⟨hr, hcivil⟩
  obtain rfl := hi r wire' hr
  exact hQ r hcivil

/-- A call of `sb_poll_server` returns. -/
private theorem twp_pollServer (hsockfd : srv.sockfd < fdSetSize)
    (hinv : Inv path True (· < fdSetSize) srv wire srv.streams) :
    Script.twp civil noFault (pollServer path)
      (fun _ srv' wire' => srv'.sockfd = srv.sockfd ∧
        Inv path True (· < fdSetSize) srv' wire' srv'.streams) srv wire := by
  rw [pollServer, Script.twp_bind, Script.twp_get, if_pos (fitsSet_of_inv hsockfd rfl hinv),
    pollSelected, Script.twp_bind]
  refine twp_quiet trivial (fun _ _ h => h) fun selected _ => ?_
  rw [Script.twp_bind]
  refine twp_quiet trivial (fun _ _ h => h) fun now _ => ?_
  rw [Script.twp_bind, Script.twp_modify, Script.twp_bind, Script.twp_get, Script.twp_bind]
  have hinv₁ : Inv path True (· < fdSetSize) { srv with now := now } wire ([] ++ srv.streams) :=
    hinv.congr rfl rfl
  refine Script.twp_mono ((twp_pollStreams hinv₁).of_wp (wp_civil (wp_pollStreams hinv₁)))
    (fun _ _ h => h) ?_
  rintro ⟨err, streams⟩ _ wire' ⟨⟨es, rfl⟩, hinv₂, -⟩
  rw [Script.twp_bind, Script.twp_modify, Script.twp_ite]
  have hinv₃ : Inv path True (· < fdSetSize)
      { Server.after path { srv with now := now } es with streams := streams } wire' streams :=
    hinv₂.congr rfl rfl
  refine ⟨fun _ => ⟨rfl, hinv₃⟩, fun _ => ?_⟩
  rw [Script.twp_ite]
  refine ⟨fun _ => ?_, fun _ => ⟨rfl, hinv₃⟩⟩
  rw [Script.twp_bind]
  refine twp_quiet trivial (fun _ _ h => h) fun sockets hsockets => ?_
  refine Script.twp_mono ((answers_acceptStreams path sockets).twp
    (wp_acceptStreams (fun sockfd h _ => hsockets sockfd h) hinv₃)) (fun _ _ h => h) ?_
  rintro _ srv' wire'' ⟨⟨es', hran⟩, hinv₄, -⟩
  exact ⟨hran.sockfd, hinv₄⟩

/-- Against clients whose headers can be read and whose descriptors fit the set, and with memory,
any number of calls returns: none hangs, and none is undefined behaviour. -/
theorem polls_total (path : Bytes) {sockfd : ℕ} (redirect : Redirect) (n : ℕ)
    (hsockfd : sockfd < fdSetSize) :
    Script.twp civil noFault (polls path n) (fun _ _ _ => True) (newServer sockfd redirect)
      .silent := by
  have hall : ∀ srv wire, srv.sockfd < fdSetSize →
      Inv path True (· < fdSetSize) srv wire srv.streams →
      Script.twp civil noFault (polls path n) (fun _ _ _ => True) srv wire := by
    induction n with
    | zero => exact fun _ _ _ _ => trivial
    | succ n ih =>
      intro srv wire hfits hinv
      rw [polls, Script.twp_bind]
      refine Script.twp_mono (twp_pollServer hfits hinv) (fun _ _ h => h) ?_
      rintro _ srv' wire' ⟨hsame, hinv'⟩
      exact ih srv' wire' (hsame ▸ hfits) hinv'
  exact hall _ _ hsockfd (inv_newServer path True _ sockfd redirect)

theorem polls_total_callback : Script.twp civil noFault (polls (ascii "/callback") 1000)
    (fun _ _ _ => True) (newServer 3 ⟨false, [], 0⟩) .silent :=
  polls_total (ascii "/callback") ⟨false, [], 0⟩ 1000 (by decide)

end Total

end Sandbird

end HiveSDK
