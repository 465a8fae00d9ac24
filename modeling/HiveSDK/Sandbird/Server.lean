import HiveSDK.Sandbird.Stream

/-!
# The streams of the server

What holds between any two calls of `sb_poll_server` (`Inv`). Each client makes one stream; its
events are the connection, the requests that its bytes amount to, and one closing event if the
stream is gone, whatever happens to other streams in between.
-/

namespace HiveSDK

open Interaction

namespace Sandbird

/-! ### The events of one stream -/

/-- The events of one stream, as they are seen. -/
def Server.eventsOf (srv : Server) (i : ℕ) : List SbEvent :=
  (srv.emitted.filter (·.stream.serial = i)).map Event.seen

section Emitted

variable {path : Bytes} {i : ℕ} {reqs : List SbEvent} {srv srv' : Server}

/-- The events of the stream itself grow by what has been emitted. -/
theorem Emitted.eventsOf_self (h : Emitted path i reqs srv srv') :
    srv'.eventsOf i = srv.eventsOf i ++ reqs := by
  obtain ⟨es, rfl, rfl, hes⟩ := h
  have hall : es.filter (·.stream.serial = i) = es :=
    List.filter_eq_self.mpr fun e he => decide_eq_true (hes e he)
  unfold Server.eventsOf Server.after
  rw [List.filter_append, hall, List.map_append]

/-- Those of another stream stay. -/
theorem Emitted.eventsOf_other (h : Emitted path i reqs srv srv') {j : ℕ} (hne : j ≠ i) :
    srv'.eventsOf j = srv.eventsOf j := by
  obtain ⟨es, rfl, -, hes⟩ := h
  have hnone : es.filter (·.stream.serial = j) = [] := by
    refine List.filter_eq_nil_iff.mpr fun e he hj => ?_
    exact hne ((of_decide_eq_true hj).symm.trans (hes e he))
  unfold Server.eventsOf Server.after
  rw [List.filter_append, hnone, List.append_nil]

end Emitted

/-! ### The invariant -/

/-- Between `srv`, `wire` and `srv'`, `wire'` only the stream `i` has had to do with its client. -/
structure Frame (i : ℕ) (srv : Server) (wire : Wire) (srv' : Server) (wire' : Wire) : Prop where
  next : srv'.nextSerial = srv.nextSerial
  events : ∀ j ≠ i, srv'.eventsOf j = srv.eventsOf j
  received : ∀ j ≠ i, wire'.received j = wire.received j
  sent : ∀ j ≠ i, wire'.sent j = wire.sent j

/-- The events of a live stream, and of one that is gone. -/
def IsLive (path : Bytes) (ok : Prop) (srv : Server) (wire : Wire) (st : Stream) : Prop :=
  ∃ reqs, srv.eventsOf st.serial = .other :: reqs ∧
    Live path ok st reqs (wire.received st.serial) (wire.sent st.serial)

def IsGone (path : Bytes) (ok : Prop) (srv : Server) (wire : Wire) (i : ℕ) : Prop :=
  ∃ reqs, srv.eventsOf i = .other :: (reqs ++ [.close]) ∧
    Session path ok reqs (wire.received i) (wire.sent i)

/-- What the server keeps, when its streams are `streams` and their descriptors in `D`. -/
structure Inv (path : Bytes) (ok : Prop) (D : ℕ → Prop) (srv : Server) (wire : Wire)
    (streams : List Stream) : Prop where
  nodup : (streams.map Stream.serial).Nodup
  lt_next : ∀ st ∈ streams, st.serial < srv.nextSerial
  sockfd : ∀ st ∈ streams, D st.sockfd
  live : ∀ st ∈ streams, IsLive path ok srv wire st
  gone : ∀ i < srv.nextSerial, i ∉ streams.map Stream.serial → IsGone path ok srv wire i
  fresh : ∀ i, srv.nextSerial ≤ i →
    srv.eventsOf i = [] ∧ wire.received i = [] ∧ wire.sent i = []

section Inv

variable {path : Bytes} {ok : Prop} {D : ℕ → Prop} {srv srv' : Server} {wire wire' : Wire}
  {before after : List Stream} {st st' : Stream}

/-- A live stream is untouched by what happens to another. -/
theorem Frame.isLive {i : ℕ} (hframe : Frame i srv wire srv' wire')
    (hlive : IsLive path ok srv wire st) (hne : st.serial ≠ i) : IsLive path ok srv' wire' st := by
  obtain ⟨reqs, hevents, hlive⟩ := hlive
  refine ⟨reqs, (hframe.events _ hne).trans hevents, ?_⟩
  rw [hframe.received _ hne, hframe.sent _ hne]
  exact hlive

/-- So is one that has been closed. -/
theorem Frame.isGone {i j : ℕ} (hframe : Frame i srv wire srv' wire')
    (hgone : IsGone path ok srv wire j) (hne : j ≠ i) : IsGone path ok srv' wire' j := by
  obtain ⟨reqs, hevents, hsession⟩ := hgone
  refine ⟨reqs, (hframe.events _ hne).trans hevents, ?_⟩
  rw [hframe.received _ hne, hframe.sent _ hne]
  exact hsession

/-- The other streams have other serial numbers. -/
theorem Inv.serial_ne (hinv : Inv path ok D srv wire (before ++ st :: after)) {x : Stream}
    (hx : x ∈ before ++ after) : x.serial ≠ st.serial := by
  have hnodup := hinv.nodup
  rw [List.map_append, List.map_cons, List.perm_middle.nodup_iff, List.nodup_cons,
    ← List.map_append] at hnodup
  intro heq
  exact hnodup.1 (heq ▸ List.mem_map_of_mem hx)

/-- A stream has a serial number that has been given out. -/
theorem Inv.self_lt (hinv : Inv path ok D srv wire (before ++ st :: after)) :
    st.serial < srv.nextSerial :=
  hinv.lt_next st (List.mem_append_right _ List.mem_cons_self)

theorem mem_middle {x : Stream} : x ∈ before ++ st :: after ↔ x = st ∨ x ∈ before ++ after := by
  simp only [List.mem_append, List.mem_cons]
  exact or_left_comm

/-- What does not concern the stream stays as it is. -/
theorem Inv.fresh_frame (hinv : Inv path ok D srv wire (before ++ st :: after))
    (hframe : Frame st.serial srv wire srv' wire') (i : ℕ) (hi : srv'.nextSerial ≤ i) :
    srv'.eventsOf i = [] ∧ wire'.received i = [] ∧ wire'.sent i = [] := by
  rw [hframe.next] at hi
  have hne : i ≠ st.serial := (hinv.self_lt.trans_le hi).ne'
  rw [hframe.events i hne, hframe.received i hne, hframe.sent i hne]
  exact hinv.fresh i hi

/-- Something has happened to one stream, and it is still there. -/
theorem Inv.update (hinv : Inv path ok D srv wire (before ++ st :: after))
    (hframe : Frame st.serial srv wire srv' wire') (hkept : Kept st st')
    (hlive : IsLive path ok srv' wire' st') :
    Inv path ok D srv' wire' (before ++ st' :: after) := by
  have hserials : (before ++ st' :: after).map Stream.serial =
      (before ++ st :: after).map Stream.serial := by
    simp only [List.map_append, List.map_cons, hkept.1]
  refine ⟨hserials ▸ hinv.nodup, fun x hx => ?_, fun x hx => ?_, fun x hx => ?_,
    fun i hi hmem => ?_,
    hinv.fresh_frame hframe⟩
  · rw [hframe.next]
    rcases mem_middle.mp hx with rfl | hx
    · rw [hkept.1]
      exact hinv.self_lt
    · exact hinv.lt_next x (mem_middle.mpr (.inr hx))
  · rcases mem_middle.mp hx with rfl | hx
    · rw [hkept.2]
      exact hinv.sockfd st (mem_middle.mpr (.inl rfl))
    · exact hinv.sockfd x (mem_middle.mpr (.inr hx))
  · rcases mem_middle.mp hx with rfl | hx
    · exact hlive
    · exact hframe.isLive (hinv.live x (mem_middle.mpr (.inr hx))) (hinv.serial_ne hx)
  · rw [hserials] at hmem
    rw [hframe.next] at hi
    refine hframe.isGone (hinv.gone i hi hmem) ?_
    rintro rfl
    exact hmem (List.mem_map_of_mem (mem_middle.mpr (.inl rfl)))

/-- A stream has been closed. -/
theorem Inv.remove (hinv : Inv path ok D srv wire (before ++ st :: after))
    (hframe : Frame st.serial srv wire srv' wire') (hgone : IsGone path ok srv' wire' st.serial) :
    Inv path ok D srv' wire' (before ++ after) := by
  have hsublist : (before ++ after).Sublist (before ++ st :: after) :=
    List.Sublist.append_left (List.sublist_cons_self st after) before
  refine ⟨(hsublist.map _).nodup hinv.nodup, fun x hx => ?_, fun x hx => ?_, fun x hx => ?_,
    fun i hi hmem => ?_, hinv.fresh_frame hframe⟩
  · rw [hframe.next]
    exact hinv.lt_next x (hsublist.subset hx)
  · exact hinv.sockfd x (hsublist.subset hx)
  · exact hframe.isLive (hinv.live x (hsublist.subset hx)) (hinv.serial_ne hx)
  · by_cases hself : i = st.serial
    · rw [hself]
      exact hgone
    · rw [hframe.next] at hi
      refine hframe.isGone (hinv.gone i hi fun h => ?_) hself
      obtain ⟨x, hx, rfl⟩ := List.mem_map.mp h
      rcases mem_middle.mp hx with rfl | hx
      · exact hself rfl
      · exact hmem (List.mem_map_of_mem hx)

/-- A client has connected. -/
theorem Inv.connect {streams : List Stream} (hinv : Inv path ok D srv wire streams) {sockfd : ℕ}
    (hfits : D sockfd) (hst : st = streamNew srv sockfd) :
    Inv path ok D { srv.after path [⟨.connect, st⟩] with
      streams := st :: streams, nextSerial := srv.nextSerial + 1 } wire (st :: streams) := by
  have hserial : st.serial = srv.nextSerial := by
    rw [hst]
    rfl
  have hemitted := Emitted.single path srv ⟨.connect, st⟩
  -- the new stream has its connecting event and nothing else
  have hself : (srv.after path [⟨.connect, st⟩]).eventsOf st.serial = [.other] := by
    rw [hemitted.eventsOf_self, hserial, (hinv.fresh _ (Nat.le_refl _)).1]
    rfl
  have hother : ∀ j ≠ st.serial, (srv.after path [⟨.connect, st⟩]).eventsOf j = srv.eventsOf j :=
    fun j hne => hemitted.eventsOf_other hne
  refine ⟨?_, fun x hx => ?_, fun x hx => ?_, fun x hx => ?_, fun i hi hmem => ?_, fun i hi => ?_⟩
  · rw [List.map_cons, List.nodup_cons]
    refine ⟨fun h => ?_, hinv.nodup⟩
    obtain ⟨x, hx, heq⟩ := List.mem_map.mp h
    exact (hinv.lt_next x hx).ne (heq.trans hserial)
  · rcases List.mem_cons.mp hx with rfl | hx
    · rw [hserial]
      exact Nat.lt_succ_self _
    · exact (hinv.lt_next x hx).trans (Nat.lt_succ_self _)
  · rcases List.mem_cons.mp hx with rfl | hx
    · rw [hst]
      exact hfits
    · exact hinv.sockfd x hx
  · rcases List.mem_cons.mp hx with rfl | hx
    · obtain ⟨-, hreceived, hsent⟩ := hinv.fresh _ (Nat.le_refl _)
      refine ⟨[], hself, ?_⟩
      rw [hserial, hreceived, hsent, hst]
      exact .reading rfl rfl (.header rfl rfl rfl noHeader_nil) fun _ => rfl
    · obtain ⟨reqs, hevents, hlive⟩ := hinv.live x hx
      have hne : x.serial ≠ st.serial := hserial ▸ (hinv.lt_next x hx).ne
      exact ⟨reqs, (hother _ hne).trans hevents, hlive⟩
  · rw [List.map_cons, List.mem_cons, not_or] at hmem
    have hlt : i < srv.nextSerial := by
      have hle : i ≤ srv.nextSerial := Nat.lt_succ_iff.mp hi
      exact hle.lt_of_ne fun h => hmem.1 (h.trans hserial.symm)
    obtain ⟨reqs, hevents, hsession⟩ := hinv.gone i hlt hmem.2
    exact ⟨reqs, (hother i hmem.1).trans hevents, hsession⟩
  · have hle : srv.nextSerial ≤ i := Nat.le_of_succ_le hi
    have hne : i ≠ st.serial := hserial ▸ (Nat.lt_of_succ_le hi).ne'
    obtain ⟨hevents, hrest⟩ := hinv.fresh i hle
    exact ⟨(hother i hne).trans hevents, hrest⟩

/-! ### One call of `sb_poll_server` -/

/-- Events of one stream and traffic on it frame the others. -/
theorem Emitted.frame {i : ℕ} {reqs : List SbEvent} (h : Emitted path i reqs srv srv')
    (hreceived : ∀ j ≠ i, wire'.received j = wire.received j)
    (hsent : ∀ j ≠ i, wire'.sent j = wire.sent j) : Frame i srv wire srv' wire' := by
  refine ⟨?_, fun j hne => h.eventsOf_other hne, hreceived, hsent⟩
  obtain ⟨es, rfl, -⟩ := h
  rfl

/-- The stream has been dealt with. -/
theorem Handled.update {new reqs : List SbEvent} {err : Option SbError} {reqs₀ : List SbEvent}
    (h : Handled path ok st srv new reqs (wire'.received st.serial) (wire'.sent st.serial) err st'
      srv')
    (hinv : Inv path ok D srv wire (before ++ st :: after))
    (hevents : srv.eventsOf st.serial = .other :: reqs₀) (hreqs : reqs = reqs₀ ++ new)
    (hreceived : ∀ j ≠ st.serial, wire'.received j = wire.received j)
    (hsent : ∀ j ≠ st.serial, wire'.sent j = wire.sent j) :
    Inv path ok D srv' wire' (before ++ st' :: after) := by
  refine hinv.update (h.emitted.frame hreceived hsent) h.kept ⟨reqs, ?_, ?_⟩
  · rw [h.kept.1, h.emitted.eventsOf_self, hevents, hreqs]
    rfl
  · rw [h.kept.1]
    exact h.live

/-- A live stream may be closed. -/
theorem Live.close {reqs : List SbEvent} {received sent : Bytes}
    (hlive : Live path ok st reqs received sent) :
    Live path ok { st with state := .closing } reqs received sent := by
  refine .answering rfl ?_
  cases hlive with
  | reading hstate hsend hread hdata =>
    change Session path ok [] received ([] ++ st.sendBuf.data)
    rw [hsend]
    exact (Live.reading hstate hsend hread hdata).session
  | answering _ h => exact h

variable {F : Fault → Wire → Prop}

/-- One stream in the loop over the readable ones. -/
theorem wp_recvSelected {selected : Selected}
    (hinv : Inv path ok D srv wire (before ++ st :: after)) :
    Script.wp (network ok) F (recvSelected path selected st)
      (fun r srv' wire' => (∃ es, srv' = srv.after path es) ∧ (ok → r.1 = none) ∧
        (st.state.receiving = false → r.2 = st) ∧
        Inv path ok D srv' wire' (before ++ r.2 :: after)) srv wire := by
  rw [recvSelected, Script.wp_ite]
  refine ⟨fun hread => ?_, fun _ => ?_⟩
  · rw [Bool.and_eq_true] at hread
    obtain ⟨reqs, hevents, hlive⟩ := hinv.live st (mem_middle.mpr (.inl rfl))
    refine Script.wp_mono (wp_streamRecv hlive hread.1) (fun _ _ h => h) ?_
    rintro ⟨err, st'⟩ srv' _ ⟨bs, new, rfl, hhandled⟩
    refine ⟨?_, hhandled.error, fun h => ?_, ?_⟩
    · obtain ⟨es, hes, -⟩ := hhandled.emitted
      exact ⟨es, hes⟩
    · rw [hread.1] at h
      cases h
    · have hself : (wire.receive st.serial bs).received st.serial = _ := Function.update_self ..
      rw [← hself] at hhandled
      refine hhandled.update hinv hevents rfl (fun j hne => ?_) fun j _ => rfl
      exact Function.update_of_ne hne _ _
  · exact ⟨⟨[], (srv.after_nil path).symm⟩, fun _ => rfl, fun _ => rfl, hinv⟩

/-- One stream in the loop over the writable ones. -/
theorem wp_sendSelected {selected : Selected} {receiving : Bool}
    (hstate : receiving = false → st.state.receiving = false)
    (hinv : Inv path ok D srv wire (before ++ st :: after)) :
    Script.wp (network ok) F (sendSelected receiving selected st)
      (fun st' srv' wire' => (∃ es, srv' = srv.after path es) ∧
        Inv path ok D srv' wire' (before ++ st' :: after)) srv wire := by
  rw [sendSelected, Script.wp_ite]
  refine ⟨fun hsend => ?_, fun _ => ⟨⟨[], (srv.after_nil path).symm⟩, hinv⟩⟩
  rw [Bool.and_eq_true, Bool.not_eq_true'] at hsend
  obtain ⟨reqs, hevents, hlive⟩ := hinv.live st (mem_middle.mpr (.inl rfl))
  refine Script.wp_mono (wp_streamSend hlive (hstate hsend.1)) (fun _ _ h => h) ?_
  rintro st' srv' _ ⟨bs, rfl, hhandled⟩
  constructor
  · obtain ⟨es, hes, -⟩ := hhandled.emitted
    exact ⟨es, hes⟩
  · have hself : (wire.deliver st.serial bs).sent st.serial = _ := Function.update_self ..
    rw [← hself] at hhandled
    refine hhandled.update hinv hevents (List.append_nil reqs).symm (fun j _ => rfl) fun j hne => ?_
    exact Function.update_of_ne hne _ _

/-- A stream over a limit is closed. -/
theorem Inv.limit (hinv : Inv path ok D srv wire (before ++ st :: after)) (exceeded : Bool) :
    Inv path ok D srv wire
      (before ++ (if exceeded then { st with state := .closing } else st) :: after) := by
  cases exceeded with
  | false => exact hinv
  | true =>
    obtain ⟨reqs, hevents, hlive⟩ := hinv.live st (mem_middle.mpr (.inl rfl))
    refine hinv.update ⟨rfl, fun _ _ => rfl, fun _ _ => rfl, fun _ _ => rfl⟩ ⟨rfl, rfl⟩ ?_
    exact ⟨reqs, hevents, hlive.close⟩

/-- A stream is gone with its closing event. -/
theorem Inv.emit_close (hinv : Inv path ok D srv wire (before ++ st :: after)) :
    Inv path ok D (srv.after path [⟨.close, st⟩]) wire (before ++ after) := by
  have hemitted := Emitted.single path srv ⟨.close, st⟩
  obtain ⟨reqs, hevents, hlive⟩ := hinv.live st (mem_middle.mpr (.inl rfl))
  refine hinv.remove (hemitted.frame (fun _ _ => rfl) fun _ _ => rfl) ⟨reqs, ?_, hlive.session⟩
  rw [hemitted.eventsOf_self, hevents]
  rfl

/-- The loop over the streams, by induction on them. -/
theorem wp_pollStreams {selected : Selected} {streams : List Stream}
    (hinv : Inv path ok D srv wire (before ++ streams)) :
    Script.wp (network ok) F (pollStreams path selected streams)
      (fun r srv' wire' => (∃ es, srv' = srv.after path es) ∧
        Inv path ok D srv' wire' (before ++ r.2) ∧ (ok → r.1 = none) ∧
        (r.1 = none → ∀ st ∈ r.2, srv'.exceeds st = false)) srv wire := by
  induction streams generalizing before srv wire with
  | nil => exact ⟨⟨[], (srv.after_nil path).symm⟩, hinv, fun _ => rfl, fun _ => nofun⟩
  | cons st streams ih =>
    rw [pollStreams, Script.wp_bind]
    refine Script.wp_mono (wp_recvSelected hinv) (fun _ _ h => h) ?_
    rintro ⟨err, st₁⟩ _ wire₁ ⟨⟨es₁, rfl⟩, hok, hsame, hinv₁⟩
    rw [Script.wp_ite]
    refine ⟨fun herr => ?_, fun herr => ?_⟩
    · exact ⟨⟨es₁, rfl⟩, hinv₁, hok, fun h => absurd h (Option.isSome_iff_ne_none.mp herr)⟩
    · have hstate : st.state.receiving = false → st₁.state.receiving = false := by
        intro h
        rw [show st₁ = st from hsame h]
        exact h
      rw [Script.wp_bind]
      refine Script.wp_mono (wp_sendSelected hstate hinv₁) (fun _ _ h => h) ?_
      rintro st₂ _ wire₂ ⟨⟨es₂, rfl⟩, hinv₂⟩
      rw [Script.wp_bind, Script.wp_get]
      dsimp only
      generalize hover : Server.exceeds _ st₂ = exceeded
      have hinv₃ := hinv₂.limit exceeded
      generalize hst₃ : (if exceeded then { st₂ with state := .closing } else st₂) = st₃ at hinv₃ ⊢
      rw [Script.wp_ite]
      refine ⟨fun _ => ?_, fun hopen => ?_⟩
      · rw [Script.wp_bind]
        refine Script.wp_mono (wp_streamEmit_still (.inr rfl)) (fun _ _ h => h) ?_
        rintro _ _ _ ⟨-, rfl, rfl⟩
        refine Script.wp_mono (ih hinv₃.emit_close) (fun _ _ h => h) ?_
        rintro r _ wire' ⟨⟨es₃, rfl⟩, hrest⟩
        refine ⟨⟨es₁ ++ es₂ ++ [⟨.close, st₃⟩] ++ es₃, ?_⟩, hrest⟩
        simp only [Server.after_after, List.append_assoc]
      · rw [Script.wp_bind]
        have hmoved : Inv path ok D (Server.after path (srv.after path es₁) es₂) wire₂
            ((before ++ [st₃]) ++ streams) := by
          rw [List.append_assoc]
          exact hinv₃
        refine Script.wp_mono (ih hmoved) (fun _ _ h => h) ?_
        rintro ⟨err', rest⟩ _ wire' ⟨⟨es₃, rfl⟩, hinv', hok', hlimits⟩
        rw [List.append_assoc] at hinv'
        refine ⟨⟨es₁ ++ es₂ ++ es₃, ?_⟩, hinv', hok', fun herr' => ?_⟩
        · simp only [Server.after_after, List.append_assoc]
        · refine List.forall_mem_cons.mpr ⟨?_, hlimits herr'⟩
          -- a stream over a limit would have been closed
          cases exceeded with
          | true =>
            rw [← hst₃] at hopen
            exact absurd rfl hopen
          | false =>
            rw [← hst₃]
            exact hover

/-- From `srv` to `srv'` events have been handled, and clients may have come and gone. -/
structure Ran (path : Bytes) (es : List Event) (srv srv' : Server) : Prop where
  emitted : srv'.emitted = srv.emitted ++ es
  redirect : srv'.redirect = (es.map Event.seen).foldl (handleAuthRedirect path) srv.redirect
  sockfd : srv'.sockfd = srv.sockfd
  timeout : srv'.timeout = srv.timeout

/-- The events of two stretches. -/
theorem Ran.trans {es es' : List Event} {srv'' : Server} (h : Ran path es srv srv')
    (h' : Ran path es' srv' srv'') : Ran path (es ++ es') srv srv'' := by
  refine ⟨?_, ?_, h'.sockfd.trans h.sockfd, h'.timeout.trans h.timeout⟩
  · rw [h'.emitted, h.emitted, List.append_assoc]
  · rw [h'.redirect, h.redirect, List.map_append, List.foldl_append]

theorem Ran.refl (path : Bytes) (srv : Server) : Ran path [] srv srv :=
  ⟨(List.append_nil _).symm, rfl, rfl, rfl⟩

/-- No stream is over a limit. -/
def Server.Within (srv : Server) : Prop := ∀ st ∈ srv.streams, srv.exceeds st = false

theorem Server.exceeds_new (srv : Server) (sockfd : ℕ) :
    srv.exceeds (streamNew srv sockfd) = false := by
  have hsize : (srv.maxRequestSize ≠ 0 && srv.maxRequestSize ≤ Buffer.empty.data.length) =
      false := by
    rw [Bool.and_eq_false_iff, decide_eq_false_iff_not, decide_eq_false_iff_not, not_not, not_le]
    exact (Nat.eq_zero_or_pos _)
  simp only [Server.exceeds, streamNew, Nat.sub_self, Nat.not_lt_zero, decide_false, Bool.and_false,
    Bool.false_or]
  exact hsize

/-- The loop over the connections that are accepted, by induction on them. -/
theorem wp_acceptStreams {sockets : List ℕ}
    (hsockets : ∀ sockfd ∈ sockets, sockfd ≤ fdSetSize → D sockfd)
    (hinv : Inv path ok D srv wire srv.streams) :
    Script.wp (network ok) F (acceptStreams path sockets)
      (fun _ srv' wire' => (∃ es, Ran path es srv srv') ∧
        Inv path ok D srv' wire' srv'.streams ∧ (srv.Within → srv'.Within)) srv wire := by
  induction sockets generalizing srv with
  | nil => exact ⟨⟨[], .refl path srv⟩, hinv, id⟩
  | cons sockfd sockets ih =>
    obtain ⟨hsockfd, hrest⟩ := List.forall_mem_cons.mp hsockets
    rw [acceptStreams, Script.wp_ite]
    refine ⟨fun _ => ⟨⟨[], .refl path srv⟩, hinv, id⟩, fun hfits => ?_⟩
    rw [Script.wp_bind]
    refine wp_malloc fun r _ => ?_
    cases r with
    | false => exact ⟨⟨[], .refl path srv⟩, hinv, id⟩
    | true =>
      simp only [Bool.not_true, Bool.false_eq_true, if_false]
      rw [Script.wp_bind, Script.wp_get, Script.wp_bind]
      generalize hst : streamNew srv sockfd = st
      refine Script.wp_mono (wp_streamEmit_still (.inl rfl)) (fun _ _ h => h) ?_
      rintro st' _ _ ⟨rfl, rfl, rfl⟩
      rw [Script.wp_bind, Script.wp_modify]
      refine Script.wp_mono (ih hrest (hinv.connect (hsockfd (Nat.not_lt.mp hfits)) hst.symm))
        (fun _ _ h => h) ?_
      rintro err srv' wire' ⟨⟨es, hran⟩, hinv', hwithin⟩
      have hfirst : Ran path [⟨.connect, st'⟩] srv { srv.after path [⟨.connect, st'⟩] with
          streams := st' :: srv.streams, nextSerial := srv.nextSerial + 1 } := ⟨rfl, rfl, rfl, rfl⟩
      refine ⟨⟨_, hfirst.trans hran⟩, hinv', fun h => hwithin ?_⟩
      refine List.forall_mem_cons.mpr ⟨?_, h⟩
      rw [← hst]
      exact srv.exceeds_new _

/-- The invariant speaks of few fields of the server. -/
theorem Inv.congr {streams : List Stream} (hinv : Inv path ok D srv wire streams)
    (hemitted : srv'.emitted = srv.emitted) (hnext : srv'.nextSerial = srv.nextSerial) :
    Inv path ok D srv' wire streams := by
  have hevents : ∀ i, srv'.eventsOf i = srv.eventsOf i := by
    intro i
    rw [Server.eventsOf, Server.eventsOf, hemitted]
  refine ⟨hinv.nodup, fun st hst => ?_, hinv.sockfd, fun st hst => ?_, fun i hi hmem => ?_,
    fun i hi => ?_⟩
  · rw [hnext]
    exact hinv.lt_next st hst
  · obtain ⟨reqs, h, hlive⟩ := hinv.live st hst
    exact ⟨reqs, (hevents _).trans h, hlive⟩
  · rw [hnext] at hi
    obtain ⟨reqs, h, hsession⟩ := hinv.gone i hi hmem
    exact ⟨reqs, (hevents i).trans h, hsession⟩
  · rw [hnext] at hi
    obtain ⟨h, hrest⟩ := hinv.fresh i hi
    exact ⟨(hevents i).trans h, hrest⟩

/-- What `sb_poll_server` does after `select`. -/
private theorem wp_pollSelected (hinv : Inv path ok (· ≤ fdSetSize) srv wire srv.streams) :
    Script.wp (network ok) F (pollSelected path)
      (fun err srv' wire' => (∃ es, Ran path es srv srv') ∧
        Inv path ok (· ≤ fdSetSize) srv' wire' srv'.streams ∧ (err = none → srv'.Within))
      srv wire := by
  unfold pollSelected
  rw [Script.wp_bind]
  refine wp_quiet (fun _ _ h => h) fun selected => ?_
  rw [Script.wp_bind]
  refine wp_quiet (fun _ _ h => h) fun now => ?_
  rw [Script.wp_bind, Script.wp_modify, Script.wp_bind, Script.wp_get, Script.wp_bind]
  generalize hclock : ({ srv with now := now } : Server) = clock
  have hinv₁ : Inv path ok (· ≤ fdSetSize) clock wire ([] ++ clock.streams) := by
    rw [← hclock]
    exact hinv.congr rfl rfl
  have hran₁ : Ran path [] srv clock := by
    rw [← hclock]
    exact ⟨(List.append_nil _).symm, rfl, rfl, rfl⟩
  -- the streams that are there first; one that ended is unlinked
  refine Script.wp_mono (wp_pollStreams hinv₁) (fun _ _ h => h) ?_
  rintro ⟨err, streams⟩ _ wire' ⟨⟨es, rfl⟩, hinv₂, -, hlimits⟩
  rw [Script.wp_bind, Script.wp_modify, Script.wp_ite]
  generalize hpolled : ({ clock.after path es with streams := streams } : Server) = polled
  have hstreams : polled.streams = streams := by rw [← hpolled]
  have hinv₃ : Inv path ok (· ≤ fdSetSize) polled wire' polled.streams := by
    rw [hstreams, ← hpolled]
    exact hinv₂.congr rfl rfl
  have hran₂ : Ran path ([] ++ es) srv polled := by
    refine hran₁.trans ?_
    rw [← hpolled]
    exact ⟨rfl, rfl, rfl, rfl⟩
  refine ⟨fun herr => ?_, fun herr => ?_⟩
  · exact ⟨⟨_, hran₂⟩, hinv₃, fun h => absurd h (Option.isSome_iff_ne_none.mp herr)⟩
  · have hwithin : polled.Within := by
      rw [← hpolled]
      exact hlimits (Option.not_isSome_iff_eq_none.mp herr)
    rw [Script.wp_ite]
    refine ⟨fun _ => ?_, fun _ => ⟨⟨_, hran₂⟩, hinv₃, fun _ => hwithin⟩⟩
    rw [Script.wp_bind]
    refine wp_quiet (fun _ _ h => h) fun sockets => ?_
    -- new connections are taken only when no stream failed
    refine Script.wp_mono (wp_acceptStreams (fun _ _ h => h) hinv₃) (fun _ _ h => h) ?_
    rintro err' srv' wire'' ⟨⟨es', hran₃⟩, hinv₄, hkeeps⟩
    exact ⟨⟨_, hran₂.trans hran₃⟩, hinv₄, fun _ => hkeeps hwithin⟩

/-- One call of `sb_poll_server`. It ends in undefined behaviour when a descriptor does not fit the
set. -/
theorem wp_pollServer (hinv : Inv path ok (· ≤ fdSetSize) srv wire srv.streams)
    (hF : srv.fitsSet = false → F .bufferOverrun wire) :
    Script.wp (network ok) F (pollServer path)
      (fun err srv' wire' => (∃ es, Ran path es srv srv') ∧
        Inv path ok (· ≤ fdSetSize) srv' wire' srv'.streams ∧ (err = none → srv'.Within))
      srv wire := by
  unfold pollServer
  rw [Script.wp_bind, Script.wp_get, Script.wp_ite, Script.wp_fault]
  exact ⟨fun _ => wp_pollSelected hinv, fun h => hF (Bool.eq_false_iff.mpr h)⟩

/-! ### Calls one after another -/

/-- So many calls of `sb_poll_server`. -/
def polls (path : Bytes) : ℕ → S Unit
  | 0 => return
  | n + 1 => do
    let _ ← pollServer path
    polls path n

/-- What `sb_new_server` makes for `get_authorize_code`. -/
def newServer (sockfd : ℕ) (redirect : Redirect) : Server := { sockfd, redirect }

/-- The invariant holds of a new server. -/
theorem inv_newServer (path : Bytes) (ok : Prop) (D : ℕ → Prop) (sockfd : ℕ)
    (redirect : Redirect) : Inv path ok D (newServer sockfd redirect) .silent [] :=
  ⟨List.nodup_nil, nofun, nofun, nofun, nofun, fun _ _ => ⟨rfl, rfl, rfl⟩⟩

/-- The invariant holds after any number of polls. -/
theorem wp_polls {n : ℕ} (hinv : Inv path ok (· ≤ fdSetSize) srv wire srv.streams) :
    Script.wp (network ok) anyFault (polls path n)
      (fun _ srv' wire' => (∃ es, Ran path es srv srv') ∧
        Inv path ok (· ≤ fdSetSize) srv' wire' srv'.streams) srv wire := by
  induction n generalizing srv wire with
  | zero => exact ⟨⟨[], .refl path srv⟩, hinv⟩
  | succ n ih =>
    rw [polls, Script.wp_bind]
    refine Script.wp_mono (wp_pollServer hinv fun _ => trivial) (fun _ _ h => h) ?_
    rintro _ srv₁ wire₁ ⟨⟨es, hran⟩, hinv₁, -⟩
    refine Script.wp_mono (ih hinv₁) (fun _ _ h => h) ?_
    rintro _ srv' wire' ⟨⟨es', hran'⟩, hinv'⟩
    exact ⟨⟨_, hran.trans hran'⟩, hinv'⟩

end Inv

end Sandbird

end HiveSDK
