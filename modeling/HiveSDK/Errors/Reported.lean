import HiveSDK.Errors.Login

/-!
# Reported failures

A public function reports its failures when, on whatever the environment does, a failing call
leaves a negative error that is its own. Since an error that is left over cannot be told from one
that happens to be the same, the statement is about all the errors a call can begin with
(`PublicFunction.Reports`).

All functions do, except for the two that open a connection. `ipfs_client_connect` records nothing
when it rejects its nodes or is refused its memory, and `onedrive_client_connect` nothing when the
redirect fails silently or a code is redeemed in vain (`PublicFunction.Loud`).
-/

namespace HiveSDK

open Interaction C

/-! ### The property and its condition -/

namespace PublicFunction

/-- The function opens a OneDrive connection, the only occasion on which a code is redeemed. -/
def LogsIn : PublicFunction → Prop
  | clientConnect (some _) (some (.oneDrive _ _ _ _)) => True
  | _ => False

/-- The call of the function returns `rc` on the events `tr`. -/
abbrev Returns (inetPton : AddressFamily → Bytes → Bool) (f : PublicFunction)
    (c : f.backend.Connect) (tr : List CallEvent) (e rc : ℤ) (s' : Thread f.backend.Connect) :
    Prop :=
  Program.Exec playback (f.call inetPton ⟨c, e⟩) tr (.ok (rc, s')) []

/-- On the events `tr`, a call of the function that fails leaves a negative error (`negative`), the
same whatever the error was before (`fresh`), and that of the redeem if it is a redeem that has
failed (`own`). -/
structure Reports (inetPton : AddressFamily → Bytes → Bool) (f : PublicFunction)
    (c : f.backend.Connect) (tr : List CallEvent) : Prop where
  negative : ∀ e rc s', f.Returns inetPton c tr e rc s' → rc < 0 → s'.hiveError < 0
  fresh : ∀ e₁ e₂ rc₁ rc₂ s₁ s₂, f.Returns inetPton c tr e₁ rc₁ s₁ → rc₁ < 0 →
    f.Returns inetPton c tr e₂ rc₂ s₂ → rc₂ < 0 → s₁.hiveError = s₂.hiveError
  own : f.LogsIn → ∀ e rc s', f.Returns inetPton c tr e rc s' → rc < 0 →
    ∀ redeemed, Redeemed tr redeemed → redeemed < 0 → s'.hiveError = redeemed

/-- Nothing fails that is not recorded. With IPFS options there are nodes, every node is accepted,
and there is memory for the connection; with OneDrive options the redirect does not fail silently
and no code is redeemed in vain. -/
def Loud (inetPton : AddressFamily → Bytes → Bool) (tr : List CallEvent) : PublicFunction → Prop
  | clientConnect (some _) (some (.ipfs nodes)) =>
    nodes ≠ [] ∧ (∀ node ∈ nodes, (rpcNodeOf inetPton node).isSome) ∧
      tr.head? ≠ some ⟨.malloc ipfsConnectSize, false⟩
  | clientConnect (some _) (some (.oneDrive _ _ _ _)) => ¬SilentFailure tr ∧ ¬RedeemRefused tr
  | _ => True

end PublicFunction

/-! ### Functions that are accountable -/

section Accountable

variable {inetPton : AddressFamily → Bytes → Bool} {f : PublicFunction} {c : f.backend.Connect}
  {tr rest : List CallEvent}

/-- A function reports its failures if, on these events, it comes to an accountable script. -/
private theorem reports_of_accountable {m : M f.backend.Connect ℤ} (hm : Accountable Negative m)
    (hruns : ∀ e rc s', f.Returns inetPton c tr e rc s' →
      Program.Exec playback (m ⟨c, e⟩) rest (.ok (rc, s')) []) (hlogin : ¬f.LogsIn) :
    f.Reports inetPton c tr where
  negative e rc s' hex hneg := by
    obtain ⟨o, -, hends⟩ := (hm c e e []).exec_playback (hruns e rc s' hex)
    match o, hends with
    | .ok _, hends => exact (hends.2.2 hneg).2
  fresh e₁ e₂ rc₁ rc₂ s₁ s₂ hex₁ hneg₁ hex₂ _ := by
    obtain ⟨o, hex, hends⟩ := (hm c e₁ e₂ []).exec_playback (hruns e₁ rc₁ s₁ hex₁)
    obtain ⟨rfl, -⟩ := hex.playback_unique (hruns e₂ rc₂ s₂ hex₂)
    exact (hends.2.2 hneg₁).1
  own h := absurd h hlogin

/-- A function that accounts for its failures reports them, if no login is part of it. -/
theorem Accountable.reports (hf : Accountable Negative (f.call inetPton)) (hlogin : ¬f.LogsIn) :
    f.Reports inetPton c tr :=
  reports_of_accountable hf (fun _ _ _ h => h) hlogin

end Accountable

/-- A pointer that is returned as a number. -/
theorem pointer_accountable {C : Type} {m : M C Bool} (hm : Accountable (· = false) m) :
    Accountable Negative (do return if ← m then 0 else -1 : M C ℤ) := by
  refine hm.map fun made hneg => ?_
  cases made with
  | true => exact absurd hneg (lt_irrefl 0)
  | false => rfl

/-! ### Opening an IPFS connection -/

section IPFS

variable {inetPton : AddressFamily → Bytes → Bool}

/-- The options are accepted when there are nodes and each of them can be translated. -/
private theorem rpcNodesOf_isSome {nodes : List IPFSNode} : (rpcNodesOf inetPton nodes).isSome ↔
    nodes ≠ [] ∧ ∀ node ∈ nodes, (rpcNodeOf inetPton node).isSome := by
  have hmap : (nodes.mapM (rpcNodeOf inetPton)).isSome ↔
      ∀ node ∈ nodes, (rpcNodeOf inetPton node).isSome := by
    induction nodes with
    | nil => simp
    | cons node nodes ih =>
      rw [List.forall_mem_cons, ← ih, List.mapM_cons]
      cases rpcNodeOf inetPton node with
      | none => simp
      | some first =>
        cases nodes.mapM (rpcNodeOf inetPton) with
        | none => simp
        | some others => simp
  unfold rpcNodesOf
  split
  · rename_i hnil
    exact iff_of_false (by simp) fun h => h.1 hnil
  · rename_i hne
    rw [hmap, and_iff_right hne]

/-- A run that returns `NULL` and leaves everything as it was, whatever the error. -/
private theorem not_reports_of_unchanged {f : PublicFunction} {c : f.backend.Connect}
    {tr : List CallEvent} (hrun : f.Returns inetPton c tr 0 (-1) ⟨c, 0⟩) :
    ¬f.Reports inetPton c tr :=
  fun h => lt_irrefl 0 (h.negative 0 (-1) ⟨c, 0⟩ hrun (by decide))

variable {client : Bytes} {nodes : List IPFSNode} {s : Thread IPFSConnect}

/-- `hive_client_connect` with the options of an IPFS connection. -/
abbrev connectIpfs (client : Bytes) (nodes : List IPFSNode) : PublicFunction :=
  .clientConnect (some client) (some (.ipfs nodes))

/-- Options that are not accepted end the connect at once. -/
private theorem connectIpfs_rejected (hnodes : rpcNodesOf inetPton nodes = none)
    {tr : List CallEvent}
    {o : Except Fault (ℤ × Thread IPFSConnect)} :
    Program.Exec playback ((connectIpfs client nodes).call inetPton s) tr o [] ↔
      Program.Exec playback (.ret (-1, s)) tr o [] := by
  suffices hcall : (connectIpfs client nodes).call inetPton s = .ret (-1, s) from
    hcall ▸ Iff.rfl
  change (do return if ← ipfsClientConnect inetPton nodes then 0 else -1 : M IPFSConnect ℤ) s = _
  unfold ipfsClientConnect
  rw [hnodes]
  rfl

/-- With accepted options a connect asks for its memory, and then for a node. -/
private theorem connectIpfs_accepted {accepted : List RpcNode}
    (hnodes : rpcNodesOf inetPton nodes = some accepted) {tr : List CallEvent}
    {o : Except Fault (ℤ × Thread IPFSConnect)} :
    Program.Exec playback ((connectIpfs client nodes).call inetPton s) tr o [] ↔
      Program.Exec playback (.ask (.malloc ipfsConnectSize) fun made =>
        if made then (do return if ← IPFS.rpcNew accepted then 0 else -1 : M IPFSConnect ℤ) s
        else .ret (-1, s)) tr o [] := by
  suffices hcall : (connectIpfs client nodes).call inetPton s =
      .ask (.malloc ipfsConnectSize) fun made =>
        if made then (do return if ← IPFS.rpcNew accepted then 0 else -1 : M IPFSConnect ℤ) s
        else .ret (-1, s) from hcall ▸ Iff.rfl
  change (do return if ← ipfsClientConnect inetPton nodes then 0 else -1 : M IPFSConnect ℤ) s = _
  unfold ipfsClientConnect
  rw [hnodes]
  refine congrArg (Program.ask _) (funext fun made => ?_)
  cases made with
  | true => rfl
  | false => rfl

/-- A connect over IPFS reports its failures except for bad options and for want of that memory. -/
private theorem connectIpfs_reports_iff {c : IPFSConnect} {tr : List CallEvent} {e rc : ℤ}
    {s' : Thread IPFSConnect} (hex : (connectIpfs client nodes).Returns inetPton c tr e rc s') :
    (connectIpfs client nodes).Reports inetPton c tr ↔
      nodes ≠ [] ∧ (∀ node ∈ nodes, (rpcNodeOf inetPton node).isSome) ∧
        tr.head? ≠ some ⟨.malloc ipfsConnectSize, false⟩ := by
  rw [← and_assoc, ← rpcNodesOf_isSome]
  cases hnodes : rpcNodesOf inetPton nodes with
  | none =>
    cases (connectIpfs_rejected hnodes).mp hex
    refine iff_of_false (not_reports_of_unchanged ?_) fun h => (nomatch h.1)
    exact (connectIpfs_rejected hnodes).mpr (.ret _ _)
  | some accepted =>
    cases (connectIpfs_accepted hnodes).mp hex with
    | @ask _ _ _ rest _ made _ hr hrest =>
      obtain rfl : tr = ⟨.malloc ipfsConnectSize, made⟩ :: rest := hr
      cases made with
      | false =>
        cases hrest
        refine iff_of_false (not_reports_of_unchanged ?_) fun h => h.2 rfl
        exact (connectIpfs_accepted hnodes).mpr (.ask rfl (.ret _ _))
      | true =>
        -- what is left is accountable
        have hruns (e' rc' : ℤ) (s₁ : Thread IPFSConnect)
            (hrun : (connectIpfs client nodes).Returns inetPton c
              (⟨.malloc ipfsConnectSize, true⟩ :: rest) e' rc' s₁) :
            Program.Exec playback ((do return if ← IPFS.rpcNew accepted then 0 else -1 :
              M IPFSConnect ℤ) ⟨c, e'⟩) rest (.ok (rc', s₁)) [] := by
          obtain ⟨_, heq, hplayed⟩ := ((connectIpfs_accepted hnodes).mp hrun).of_playback_cons
          cases heq
          exact hplayed
        refine iff_of_true ?_ ⟨rfl, fun h => (nomatch h)⟩
        exact reports_of_accountable (pointer_accountable (rpcNew_accountable accepted)) hruns id

end IPFS

/-! ### Opening a OneDrive connection -/

section OneDrive

variable {inetPton : AddressFamily → Bytes → Bool} {client : Bytes}
  {clientId scope redirectUrl : Option Bytes} {callback : Bool} {c : OneDriveConnect}
  {tr : List CallEvent}

/-- `hive_client_connect` with the options of a OneDrive connection. -/
abbrev connectOneDrive (client : Bytes) (clientId scope redirectUrl : Option Bytes)
    (callback : Bool) : PublicFunction :=
  .clientConnect (some client) (some (.oneDrive clientId scope redirectUrl callback))

/-- How a call of the function ends, compared with one that begins without an error. -/
def LoginReturns (e : ℤ) (x y : ℤ × Thread OneDriveConnect) (new : List CallEvent) : Prop :=
  ∃ handed handed', x.1 = (if handed then 0 else -1) ∧ y.1 = (if handed' then 0 else -1) ∧
    LoginEnds e new handed x.2.hiveError handed' y.2.hiveError

/-- Two connects over OneDrive, begun with an error and without, return as a login does. -/
private theorem connectOneDrive_lockstep (e : ℤ) : Program.Lockstep (LoginReturns e)
    ((connectOneDrive client clientId scope redirectUrl callback).call inetPton ⟨c, e⟩)
    ((connectOneDrive client clientId scope redirectUrl callback).call inetPton ⟨c, 0⟩) [] := by
  refine Script.lockstep_bind (onedriveClientConnect_logsIn e client
    ⟨clientId, scope, redirectUrl, callback, true⟩ c []) ?_
  rintro handed handed' s₁ s₂ _ ⟨new, rfl, hends⟩
  exact .ret ⟨handed, handed', rfl, rfl, hends⟩

/-- A run with an error and the run without on the same events. -/
theorem Returns.without_error {e rc : ℤ} {s' : Thread OneDriveConnect}
    (hex : (connectOneDrive client clientId scope redirectUrl callback).Returns inetPton c tr e
      rc s') :
    ∃ rc₀ s₀, (connectOneDrive client clientId scope redirectUrl callback).Returns inetPton c tr 0
      rc₀ s₀ ∧ LoginReturns e (rc, s') (rc₀, s₀) tr := by
  obtain ⟨o, hex₀, hends⟩ := (connectOneDrive_lockstep e).exec_playback hex
  match o, hex₀, hends with
  | .ok (rc₀, s₀), hex₀, hends => exact ⟨rc₀, s₀, hex₀, hends⟩

/-- What is returned after any error follows from what is returned after none. -/
theorem Returns.with_error {rc₀ : ℤ} {s₀ : Thread OneDriveConnect} (e : ℤ)
    (hex : (connectOneDrive client clientId scope redirectUrl callback).Returns inetPton c tr 0
      rc₀ s₀) :
    ∃ rc s', (connectOneDrive client clientId scope redirectUrl callback).Returns inetPton c tr e
      rc s' ∧ LoginReturns e (rc, s') (rc₀, s₀) tr := by
  obtain ⟨o, hex', hends⟩ := (connectOneDrive_lockstep e).symm.exec_playback hex
  match o, hex', hends with
  | .ok (rc, s'), hex', hends => exact ⟨rc, s', hex', hends⟩

/-- After a silent failure the error from before is all there is. -/
theorem LoginReturns.of_silent {e rc rc₀ : ℤ} {s' s₀ : Thread OneDriveConnect}
    (h : LoginReturns e (rc, s') (rc₀, s₀) tr) (hsilent : SilentFailure tr) (he : e < 0) :
    rc < 0 ∧ s'.hiveError = e := by
  obtain ⟨handed, handed', rfl, rfl, hends⟩ := h
  dsimp only at hends ⊢
  generalize s'.hiveError = err at hends ⊢
  generalize s₀.hiveError = err₀ at hends
  cases hends with
  | told hloud => exact absurd hsilent hloud
  | opened hloud => exact absurd hsilent hloud
  | refused hloud => exact absurd hsilent hloud
  | silent =>
    rw [decide_eq_false (not_le.mpr he)]
    exact ⟨by decide, rfl⟩

/-- After a redeem in vain its error is nowhere. -/
theorem LoginReturns.of_refused {e rc rc₀ : ℤ} {s' s₀ : Thread OneDriveConnect}
    (h : LoginReturns e (rc, s') (rc₀, s₀) tr) (hloud : ¬SilentFailure tr)
    (hrefused : RedeemRefused tr) : rc < 0 ∧ (s'.hiveError = e ∨ RedirectError s'.hiveError) ∧
      ∃ redeemed, Redeemed tr redeemed ∧ redeemed < 0 ∧ ¬RedirectError redeemed := by
  obtain ⟨handed, handed', rfl, rfl, hends⟩ := h
  dsimp only at hends ⊢
  generalize s'.hiveError = err at hends ⊢
  generalize s₀.hiveError = err₀ at hends
  cases hends with
  | told _ hredeem => exact absurd hrefused (not_redeemRefused hredeem)
  | opened _ hredeem => exact absurd hrefused hredeem
  | silent hsilent => exact absurd hsilent hloud
  | refused _ _ hredeemed hrc hown herr => exact ⟨by decide, herr, _, hredeemed, hrc, hown⟩

/-- Otherwise a failure is told, and in the same way whatever the error was. -/
theorem LoginReturns.of_loud {e rc rc₀ : ℤ} {s' s₀ : Thread OneDriveConnect}
    (h : LoginReturns e (rc, s') (rc₀, s₀) tr) (hloud : ¬SilentFailure tr)
    (hkept : ¬RedeemRefused tr) (hneg : rc < 0) :
    s'.hiveError < 0 ∧ s'.hiveError = s₀.hiveError ∧ NoRedeem tr := by
  obtain ⟨handed, handed', rfl, rfl, hends⟩ := h
  dsimp only at hends hneg ⊢
  generalize s'.hiveError = err at hends ⊢
  generalize s₀.hiveError = err₀ at hends ⊢
  cases hends with
  | told _ hredeem herr => exact ⟨herr, rfl, hredeem⟩
  | opened => exact absurd hneg (lt_irrefl 0)
  | silent hsilent => exact absurd hsilent hloud
  | refused _ hrefused => exact absurd hrefused hkept

/-- A connect over OneDrive reports its failures unless the redirect or the redeem fails silently.
-/
private theorem connectOneDrive_reports_iff {e rc : ℤ} {s' : Thread OneDriveConnect}
    (hex : (connectOneDrive client clientId scope redirectUrl callback).Returns inetPton c tr e
      rc s') :
    (connectOneDrive client clientId scope redirectUrl callback).Reports inetPton c tr ↔
      ¬SilentFailure tr ∧ ¬RedeemRefused tr := by
  constructor
  · intro h
    obtain ⟨rc₀, s₀, hex₀, -⟩ := Returns.without_error hex
    have hloud : ¬SilentFailure tr := by
      intro hsilent
      obtain ⟨rc₁, s₁, hex₁, hends₁⟩ := Returns.with_error (-1) hex₀
      obtain ⟨rc₂, s₂, hex₂, hends₂⟩ := Returns.with_error (-2) hex₀
      obtain ⟨hneg₁, herr₁⟩ := hends₁.of_silent hsilent (by decide)
      obtain ⟨hneg₂, herr₂⟩ := hends₂.of_silent hsilent (by decide)
      have hsame := h.fresh _ _ _ _ _ _ hex₁ hneg₁ hex₂ hneg₂
      rw [herr₁, herr₂] at hsame
      exact absurd hsame (by decide)
    refine ⟨hloud, fun hrefused => ?_⟩
    obtain ⟨_, _, hex₁, hends₁⟩ := Returns.with_error 0 hex₀
    obtain ⟨-, -, redeemed, hredeemed, hneg, hown⟩ := hends₁.of_refused hloud hrefused
    -- a call that begins with another error than that of the redeem
    obtain ⟨_, _, hex₂, hends₂⟩ := Returns.with_error (redeemed - 1) hex₀
    obtain ⟨hneg₂, herr, -⟩ := hends₂.of_refused hloud hrefused
    have htold := h.own trivial _ _ _ hex₂ hneg₂ redeemed hredeemed hneg
    rw [htold] at herr
    rcases herr with herr | herr
    · omega
    · exact hown herr
  · rintro ⟨hloud, hkept⟩
    refine ⟨fun e₁ rc₁ s₁ hex₁ hneg => ?_, fun e₁ e₂ rc₁ rc₂ s₁ s₂ hex₁ hneg₁ hex₂ hneg₂ => ?_,
      fun _ e₁ rc₁ s₁ hex₁ hneg redeemed hredeemed _ => ?_⟩
    · obtain ⟨_, _, -, hends⟩ := Returns.without_error hex₁
      exact (hends.of_loud hloud hkept hneg).1
    · obtain ⟨rc₀, s₀, hex₀, hends₁⟩ := Returns.without_error hex₁
      obtain ⟨rc₀', s₀', hex₀', hends₂⟩ := Returns.without_error hex₂
      obtain ⟨heq, -⟩ := hex₀.playback_unique hex₀'
      cases heq
      rw [(hends₁.of_loud hloud hkept hneg₁).2.1, (hends₂.of_loud hloud hkept hneg₂).2.1]
    · obtain ⟨_, _, -, hends⟩ := Returns.without_error hex₁
      exact absurd (hends.of_loud hloud hkept hneg).2.2 hredeemed.not_noRedeem

end OneDrive

/-! ### Every public function -/

/-- A public function reports its failures on the events of a call exactly when nothing fails that
is not recorded. -/
theorem publicFunction_reports_iff {inetPton : AddressFamily → Bytes → Bool} {f : PublicFunction}
    {c : f.backend.Connect} {tr : List CallEvent} {e rc : ℤ} {s' : Thread f.backend.Connect}
    (hex : f.Returns inetPton c tr e rc s') :
    f.Reports inetPton c tr ↔ f.Loud inetPton tr := by
  have told {f : PublicFunction} {c : f.backend.Connect}
      (hf : Accountable Negative (f.call inetPton)) (hlogin : ¬f.LogsIn)
      (hloud : f.Loud inetPton tr) : f.Reports inetPton c tr ↔ f.Loud inetPton tr :=
    iff_of_true (hf.reports hlogin) hloud
  have hnull {C : Type} (e : ℤ) : Accountable (· = false)
      (nullWith (toInt (hiveGeneralError e)) : M C Bool) :=
    nullWith_accountable (toInt_hiveGeneralError_neg e)
  match f, c, s', hex with
  | .clientNew options, _, _, _ =>
    exact told (pointer_accountable (hiveClientNew_accountable options)) id trivial
  | .operation backend connected op, _, _, _ =>
    refine told (call_accountable (fun m hm => ?_) op) id trivial
    cases connected with
    | true => exact Option.some.inj hm ▸ methods_oblivious backend
    | false => cases hm
  | .clientConnect none none, _, _, _ => exact told (pointer_accountable (hnull _)) id trivial
  | .clientConnect (some _) none, _, _, _ => exact told (pointer_accountable (hnull _)) id trivial
  | .clientConnect none (some (.ipfs _)), _, _, _ =>
    exact told (pointer_accountable (hnull _)) id trivial
  | .clientConnect none (some (.oneDrive _ _ _ _)), _, _, _ =>
    exact told (pointer_accountable (hnull _)) id trivial
  | .clientConnect none (some .other), _, _, _ =>
    exact told (pointer_accountable (hnull _)) id trivial
  | .clientConnect (some _) (some .other), _, _, _ =>
    exact told (pointer_accountable (hnull _)) id trivial
  | .clientConnect (some _) (some (.ipfs _)), _, _, hex => exact connectIpfs_reports_iff hex
  | .clientConnect (some _) (some (.oneDrive _ _ _ _)), _, _, hex =>
    exact connectOneDrive_reports_iff hex

/-- A connection that no function has worked on yet. -/
def blankIpfs : IPFSConnect := ⟨[], 0, []⟩

/-- The events of connecting to one node that cannot be reached. -/
def unreachableNode : List CallEvent := [
  ⟨.malloc ipfsConnectSize, true⟩,
  ⟨.malloc (IPFS.rpcSize + IPFS.rpcNodeSize * 1), true⟩,
  ⟨.rand, (0 : ℕ)⟩,
  ⟨.httpClientNew .testReachable, true⟩,
  ⟨.httpClientPerform (IPFS.versionRequest (ascii "10.0.0.1") 9095), ⟨7, 0, 0, [], none⟩⟩]

/-- A connection to a node that cannot be reached fails with an error of its own. -/
theorem publicFunction_reports_iff_unreachable :
    (connectIpfs [] [⟨some (ascii "10.0.0.1"), none, some (ascii "9095")⟩]).Reports
        (fun _ _ => true) blankIpfs unreachableNode ↔
      (connectIpfs [] [⟨some (ascii "10.0.0.1"), none, some (ascii "9095")⟩]).Loud
        (fun _ _ => true) unreachableNode := by
  have hrun : (connectIpfs [] [⟨some (ascii "10.0.0.1"), none, some (ascii "9095")⟩]).Returns
      (fun _ _ => true) blankIpfs unreachableNode 0 (-1)
      ⟨⟨[], 0, [⟨ascii "10.0.0.1", [], 9095⟩]⟩,
        toInt (hiveGeneralError HIVEERR_BAD_BOOTSTRAP_HOST)⟩ :=
    .ask rfl (.ask rfl (.ask rfl (.ask rfl (.ask rfl (.ret _ _)))))
  exact publicFunction_reports_iff hrun

/-- Without nodes `hive_client_connect` fails and records nothing. -/
theorem publicFunction_unreported :
    ¬∀ (inetPton : AddressFamily → Bytes → Bool) (f : PublicFunction) (c : f.backend.Connect)
      (tr : List CallEvent) (e rc : ℤ) (s' : Thread f.backend.Connect),
      f.Returns inetPton c tr e rc s' → f.Reports inetPton c tr := by
  intro h
  have hrun : (connectIpfs [] []).Returns (fun _ _ => false) blankIpfs [] 0 (-1) ⟨blankIpfs, 0⟩ :=
    (connectIpfs_rejected rfl).mpr (.ret _ _)
  exact not_reports_of_unchanged hrun (h _ _ _ _ _ _ _ hrun)

end HiveSDK
