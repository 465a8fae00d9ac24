import HiveSDK.Token.Storage

/-!
# Token updates are all or nothing

A token that is *whole* holds all three of its strings or none. Every operation that changes a
token keeps it whole, so it is whole in every state they can lead to (`TokenReachable.whole`), and
the assertions of `writeback_tokens` hold there. What a single reply does is read off from
`decodeAccessToken_lockstep`: in memory it changes nothing or everything.
-/

namespace HiveSDK

open Interaction C
open Interaction.Program (Lockstep)

/-- The three strings of the token are all there or all missing. -/
def OAuthToken.Whole (t : OAuthToken) : Prop := t.Unset ∨ t.Authorised

/-- Tokens that have been stored are whole. -/
theorem TokensStored.whole {s s' : Thread OneDriveConnect} (h : TokensStored s s') :
    s'.conn.token.Whole := .inr h.authorised

/-- An operation that changes a token. -/
inductive TokenOperation
  | restore (store : Option Json)
  | redeem (code : Bytes)
  | refresh
  | reset
  | setExpired

namespace TokenOperation

/-- The function behind the operation. -/
def run : TokenOperation → M OneDriveConnect Unit
  | restore store => do let _ ← restoreAccessToken store
  | redeem code => do let _ ← redeemAccessToken code
  | refresh => do let _ ← refreshAccessToken
  | reset => do let _ ← oauthTokenReset
  | setExpired => oauthTokenSetExpired

end TokenOperation

section Whole

variable {σ : Type} {h : Handler σ Call Call.Reply} {s : Thread OneDriveConnect} {w : σ}

/-- The assertions of the writeback hold of a whole token. -/
private theorem writebackTokens_whole (hwhole : s.conn.token.Whole) :
    Script.wp h noFault writebackTokens (fun _ s' _ => s' = s) s w :=
  hwhole.elim (fun hunset => writebackTokens_unset hunset) fun hauthorised =>
    writebackTokens_spec (.inl hauthorised)

/-- A reset clears the strings; it asserts that they are there. -/
theorem oauthTokenReset_spec {F : Fault → σ → Prop}
    (hF : s.conn.token.tokenType = none → F .assertion w) :
    Script.wp h F oauthTokenReset
      (fun rc s' _ => rc = 0 ∧ s' = s.withToken { s.conn.token with
        tokenType := none, accessToken := none, refreshToken := none }) s w := by
  unfold oauthTokenReset resetTokens
  simp only [Script.wp_bind, Script.wp_get, Script.wp_pure, Script.wp_ite, Script.wp_fault,
    Script.wp_modify]
  refine ⟨hF, fun _ => ?_⟩
  refine Script.wp_mono (writebackTokens_unset ⟨rfl, rfl, rfl⟩) (fun _ _ h => h.elim) ?_
  intro _ s' _ hs'
  exact ⟨trivial, hs'⟩

/-- An operation keeps a token whole, and the only assertion it can run into is that of a reset
without a token. -/
theorem TokenOperation.run_whole (op : TokenOperation) (hwhole : s.conn.token.Whole) :
    Script.wp h
      (fun fault _ => fault = .assertion → op = .reset ∧ s.conn.token.Unset) op.run
      (fun _ s' _ => s'.conn.token.Whole) s w := by
  have stored {rc : ℤ} {s' : Thread OneDriveConnect}
      (hstored : rc = 0 ∧ TokensStored s s' ∨ rc < 0 ∧ s' = s) : s'.conn.token.Whole :=
    hstored.elim (fun h => h.2.whole) fun h => h.2 ▸ hwhole
  cases op with
  | restore store =>
    refine Script.wp_bind.mpr (Script.wp_mono (restoreAccessToken_spec (F := noFault) store)
      (fun _ _ h => h.elim) ?_)
    rintro rc s' _ (hstored | ⟨expiresAt, rfl⟩)
    · exact hstored.whole
    · exact hwhole.imp (fun h => ⟨h.1, h.2, h.3⟩) fun h => ⟨h.1, h.2, h.3⟩
  | redeem code =>
    refine Script.wp_bind.mpr (Script.wp_mono
      (redeemAccessToken_stores (fun _ h => Fault.noConfusion h) code) (fun _ _ h => h) ?_)
    exact fun rc s' _ h => stored h
  | refresh =>
    refine Script.wp_bind.mpr (Script.wp_mono
      (refreshAccessToken_stores fun _ h => Fault.noConfusion h) (fun _ _ h => h) ?_)
    exact fun rc s' _ h => stored h
  | reset =>
    have hunset (hnone : s.conn.token.tokenType = none) : s.conn.token.Unset := by
      refine hwhole.resolve_right fun hauthorised => ?_
      have hsome := hauthorised.tokenType
      rw [hnone] at hsome
      cases hsome
    refine Script.wp_bind.mpr (Script.wp_mono
      (oauthTokenReset_spec fun hnone _ => ⟨rfl, hunset hnone⟩) (fun _ _ h => h) ?_)
    rintro rc _ _ ⟨-, rfl⟩
    exact .inl ⟨rfl, rfl, rfl⟩
  | setExpired => exact hwhole.imp (fun h => ⟨h.1, h.2, h.3⟩) fun h => ⟨h.1, h.2, h.3⟩

end Whole

/-- The connections that operations can lead to, from one whose token is new, whatever the
environment replies. -/
inductive TokenReachable : OneDriveConnect → Prop
  | new {c : OneDriveConnect} (hnew : c.token.Unset) : TokenReachable c
  | step {c c' : OneDriveConnect} {e e' : ℤ} (op : TokenOperation) {past past' : List CallEvent}
    (hc : TokenReachable c) (hrun : Program.Exec record (op.run ⟨c, e⟩) past
      (.ok ((), ⟨c', e'⟩)) past') : TokenReachable c'

/-- The token of every reachable connection is whole, by induction on the steps. -/
theorem TokenReachable.whole {c : OneDriveConnect} (hc : TokenReachable c) : c.token.Whole := by
  induction hc with
  | new hnew => exact .inl hnew
  | step op _ hrun ih => exact (TokenOperation.run_whole op ih).of_exec hrun

/-! ### One reply -/

/-- The time is that of a clock, and lies before the last second a `long` can hold. -/
structure Timeval.CanAdd (now : Timeval) (seconds : ℤ) : Prop where
  usec_nonneg : 0 ≤ now.usec
  usec_lt : now.usec < 1000000
  le_sec : -2 ^ 63 ≤ now.sec + seconds
  sec_lt : now.sec + seconds < 2 ^ 63

theorem Timeval.add_seconds {now : Timeval} {seconds : ℤ} (h : now.CanAdd seconds) :
    now.add ⟨seconds, 0⟩ = ⟨now.sec + seconds, now.usec⟩ := by
  have hcarry : ¬1000000 ≤ now.usec + 0 := by
    rw [add_zero]
    exact not_le.mpr h.usec_lt
  unfold Timeval.add
  dsimp only
  rw [if_neg hcarry, toLong_eq_self h.le_sec h.sec_lt, add_zero]

/-- Nothing of the token has changed: its fields, and every block of memory. -/
def TokenMemory.Unchanged (m m' : TokenMemory) : Prop :=
  m'.fields = m.fields ∧ m'.heap.blocks = m.heap.blocks

/-- The token holds what the reply grants, from the time `now` on. -/
def TokenMemory.Stores (m : TokenMemory) (json : Option Json) (now : Timeval) : Prop :=
  ∃ reply strings expiresIn, json = some reply ∧
    reply.Grants strings.tokenType strings.accessToken strings.refreshToken expiresIn ∧
    m.Holds (some strings) ∧
    (now.CanAdd expiresIn → m.fields.expiresAt = ⟨now.sec + expiresIn, now.usec⟩)

/-- A reply is refused and changes nothing, or it is accepted and what it grants is stored. -/
private theorem decodeAccessToken_atomic {m : TokenMemory} {held : Option TokenStrings}
    (hholds : m.Holds held) (json : Option Json) (e : ℤ) (past : List CallEvent) :
    Script.wp record noFault (TokenMemory.decodeAccessToken json)
      (fun rc s' past' => rc < 0 ∧ m.Unchanged s'.conn ∨
        rc = 0 ∧ ∃ now, past'.getLast? = some ⟨.gettimeofday, now⟩ ∧ s'.conn.Stores json now)
      ⟨m, e⟩ past := by
  let token : OAuthToken := ⟨[], [], [], [], [], none, none, none, ⟨0, 0⟩⟩
  have hlockstep : Lockstep (Decoded json ⟨m, e⟩ ⟨⟨token, []⟩, e⟩)
      (TokenMemory.decodeAccessToken json ⟨m, e⟩) (decodeAccessToken json ⟨⟨token, []⟩, e⟩) past :=
    decodeAccessToken_lockstep json hholds
  refine Program.wp_mono (fun _ _ h => h) ?_ (hlockstep.wp_left (decodeAccessToken_granted json))
  rintro ⟨rc, s'⟩ past' ⟨b, hdecoded, -⟩
  cases hdecoded with
  | refused hrc hblocks => exact .inl ⟨hrc, rfl, hblocks⟩
  | @granted reply strings expiresIn now _ _ _ hjson hgrants hlayout hexpires =>
    refine .inr ⟨rfl, now, List.getLast?_concat .., reply, strings, expiresIn, hjson, hgrants,
      hlayout, fun hcan => ?_⟩
    exact hexpires.trans (Timeval.add_seconds hcan)

/-- Token updates are atomic: a reply is stored as a whole or not at all, the token is whole in
every state that can be reached, and a refresh that fails leaves everything for the next one. -/
theorem tokenUpdates_atomic {m : TokenMemory} {held : Option TokenStrings} (hholds : m.Holds held)
    {c : OneDriveConnect} (hc : TokenReachable c) {σ : Type} (h : Handler σ Call Call.Reply)
    (json : Option Json) (e : ℤ) (past : List CallEvent) (w : σ) :
    Script.wp record noFault (TokenMemory.decodeAccessToken json)
        (fun rc s' past' => rc < 0 ∧ m.Unchanged s'.conn ∨
          rc = 0 ∧ ∃ now, past'.getLast? = some ⟨.gettimeofday, now⟩ ∧ s'.conn.Stores json now)
        ⟨m, e⟩ past ∧
      c.token.Whole ∧
      Script.wp h noFault writebackTokens (fun _ s' _ => s' = ⟨c, e⟩) ⟨c, e⟩ w ∧
      (∀ op : TokenOperation, Script.wp h
        (fun fault _ => fault = .assertion → op = .reset ∧ c.token.Unset) op.run
        (fun _ s' _ => s'.conn.token.Whole) ⟨c, e⟩ w) ∧
      Script.wp h anyFault refreshAccessToken (fun rc s' _ => rc < 0 → s' = ⟨c, e⟩) ⟨c, e⟩ w := by
  refine ⟨decodeAccessToken_atomic hholds json e past, hc.whole, writebackTokens_whole hc.whole,
    fun op => TokenOperation.run_whole (s := ⟨c, e⟩) op hc.whole, ?_⟩
  refine Script.wp_mono refreshAccessToken_spec (fun _ _ h => h) ?_
  rintro rc s' _ (⟨rfl, -⟩ | ⟨-, rfl⟩)
  · exact fun hneg => absurd hneg (lt_irrefl 0)
  · exact fun _ => rfl

/-- A token restored from one block, with a reply that lacks all but the type. -/
theorem tokenUpdates_atomic_restored :
    Script.wp record noFault
      (TokenMemory.decodeAccessToken
        (some (.object [(ascii "token_type", .string (ascii "bearer"))])))
      (fun rc s' past' => rc < 0 ∧ TokenMemory.Unchanged
          ⟨Memory.Heap.empty.alloc [98, 0, 97, 0, 114, 0], ascii "id",
            ⟨some ⟨0, 0⟩, some ⟨0, 2⟩, some ⟨0, 4⟩, ⟨7, 0⟩⟩⟩ s'.conn ∨
        rc = 0 ∧ ∃ now, past'.getLast? = some ⟨.gettimeofday, now⟩ ∧ s'.conn.Stores
          (some (.object [(ascii "token_type", .string (ascii "bearer"))])) now)
      ⟨⟨Memory.Heap.empty.alloc [98, 0, 97, 0, 114, 0], ascii "id",
        ⟨some ⟨0, 0⟩, some ⟨0, 2⟩, some ⟨0, 4⟩, ⟨7, 0⟩⟩⟩, 0⟩ [] :=
  (tokenUpdates_atomic
    (@TokenFields.Layout.oneBlock _ _ ⟨[98], [97], [114]⟩ 0 Memory.Heap.blocks_alloc_self
      rfl rfl rfl)
    (.new (c := ⟨⟨[], [], [], [], [], none, none, none, ⟨0, 0⟩⟩, []⟩) ⟨rfl, rfl, rfl⟩)
    playback _ 0 [] []).1

end HiveSDK
