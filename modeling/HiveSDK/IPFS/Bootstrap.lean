import HiveSDK.Interaction.Search
import HiveSDK.IPFS.Requests
import Mathlib.Data.List.Rotate

/-!
# Choosing a node

`select_bootstrap` goes round the ring of configured nodes from a random one on. Read abstractly
it is a linear search through the addresses of the rotated list (`selectLoop_searches`); that it
comes back to where it began after one round is what bounds the loop.

Which addresses are reachable is for the environment to say: an address *is* reachable when
`test_reachable` finds it so, and the assignment is stable when it does so from every state
(`ReachableAs`).
-/

namespace HiveSDK

open Interaction C

/-! ### The configured addresses -/

/-- The configured addresses of a node with its port, in the order in which they are tried. -/
def RpcNode.addresses (node : RpcNode) : List (Bytes × ℕ) :=
  ([node.ipv4, node.ipv6].filter (· ≠ [])).map fun ip => (ip, node.port)

namespace IPFS

/-- The configured addresses. -/
def configured (nodes : List RpcNode) : List (Bytes × ℕ) := nodes.flatMap RpcNode.addresses

/-- The configured addresses in cyclic order, from the node with index `base` on. -/
def configuredFrom (nodes : List RpcNode) (base : ℕ) : List (Bytes × ℕ) :=
  configured (nodes.rotate base)

/-- The order from a node on has the same addresses. -/
theorem configuredFrom_perm (nodes : List RpcNode) (base : ℕ) :
    (configuredFrom nodes base).Perm (configured nodes) :=
  (List.rotate_perm nodes base).flatMap_right _

/-- The addresses of a node are those that are set, IPv4 first. -/
theorem addresses_eq (node : RpcNode) : node.addresses =
    (if node.ipv4 = [] then [] else [(node.ipv4, node.port)]) ++
      (if node.ipv6 = [] then [] else [(node.ipv6, node.port)]) := by
  unfold RpcNode.addresses
  by_cases h₄ : node.ipv4 = [] <;> by_cases h₆ : node.ipv6 = [] <;> simp [h₄, h₆]

/-- The thread after `select`. -/
def selected (s : Thread IPFSConnect) (address : Bytes × ℕ) : Thread IPFSConnect :=
  { s with conn := { s.conn with currentNodeIp := address.1, currentNodePort := address.2 } }

/-! ### The loop is a search -/

section Loop

variable {σ : Type}

/-- One test of an address from the thread `s`, with its verdict: a complete run of
`test_reachable`. -/
def Tests (h : Handler σ Call Call.Reply) (s : Thread IPFSConnect) (address : Bytes × ℕ) (w : σ)
    (verdict : Bool) (w' : σ) : Prop :=
  ∃ rc, Program.Exec h (testReachable address.1 address.2 s) w (.ok (rc, s)) w' ∧
    verdict = decide (rc = 0)

/-- What `select_bootstrap` makes of a search. -/
inductive Selects (s : Thread IPFSConnect) : Option (Bytes × ℕ) → ℤ → Thread IPFSConnect → Prop
  | found (address : Bytes × ℕ) : Selects s (some address) 0 (selected s address)
  | none : Selects s none (toInt (hiveGeneralError HIVEERR_BAD_BOOTSTRAP_HOST)) s

variable {h : Handler σ Call Call.Reply} {s : Thread IPFSConnect} {w : σ}

/-- `test_reachable` returns, and leaves the thread alone. -/
private theorem testReachable_thread (ip : Bytes) (port : ℕ) :
    Script.wp h noFault (testReachable ip port) (fun _ s' _ => s' = s) s w := by
  unfold testReachable
  simp only [Script.wp_bind, Script.wp_ite, Script.wp_ask, Script.wp_pure, implies_true, true_and]
  intro _ created w₁ _ _ reply w₂ _
  cases reply.answer with
  | error e => rfl
  | ok status =>
    simp only [Script.wp_ite, Script.wp_pure, implies_true, and_self]

/-- Trying one address is a search through it, if it is configured at all. -/
private theorem tryAddress_searches (ip : Bytes) (port : ℕ) :
    Script.wp h noFault (tryAddress ip port) (fun found s' w' => s' = s ∧ ∃ tested,
      Search (Tests h s) (if ip = [] then [] else [(ip, port)]) w tested
        (if found then some (ip, port) else none) w') s w := by
  unfold tryAddress
  simp only [Script.wp_ite, Script.wp_bind, Script.wp_pure]
  constructor
  · intro hip
    rw [if_pos hip]
    exact ⟨trivial, [], .nil w⟩
  · intro hip
    rw [if_neg hip]
    refine Script.wp_mono (Script.wp_with_exec (testReachable_thread ip port))
      (fun _ _ h => h.1) ?_
    rintro rc _ w' ⟨rfl, hex⟩
    refine ⟨rfl, [(ip, port)], ?_⟩
    by_cases hrc : rc = 0
    · rw [if_pos (decide_eq_true hrc)]
      exact .found ⟨rc, hex, (decide_eq_true hrc).symm⟩
    · rw [if_neg (by simpa using hrc)]
      exact .next ⟨rc, hex, (decide_eq_false hrc).symm⟩ (.nil w')

/-- After `k` rounds the loop searches the addresses of the nodes that are left. -/
private theorem selectLoop_searches {nodes : List RpcNode} {base : ℕ} (hbase : base < nodes.length)
    {rounds k : ℕ} (hk : k < nodes.length) (hrounds : rounds + k = nodes.length) :
    Script.wp h noFault (selectLoop nodes base rounds ((base + k) % nodes.length))
      (fun rc s' w' => ∃ tested found,
        Search (Tests h s) (configured ((nodes.rotate base).drop k)) w tested found w' ∧
          Selects s found rc s') s w := by
  induction rounds generalizing k w with
  | zero => omega
  | succ rounds ih =>
    have hindex : (base + k) % nodes.length < nodes.length := Nat.mod_lt _ (by omega)
    have hk' : k < (nodes.rotate base).length := by rwa [List.length_rotate]
    obtain ⟨node, hnode⟩ : ∃ node, node = nodes[(base + k) % nodes.length] := ⟨_, rfl⟩
    have hrotate : (nodes.rotate base)[k] = node := by
      simp only [hnode, List.getElem_rotate, Nat.add_comm k base]
    -- the node of this round, its IPv4 address first, and then the others
    have hdrop : configured ((nodes.rotate base).drop k) =
        (if node.ipv4 = [] then [] else [(node.ipv4, node.port)]) ++
          ((if node.ipv6 = [] then [] else [(node.ipv6, node.port)]) ++
            configured ((nodes.rotate base).drop (k + 1))) := by
      rw [List.drop_eq_getElem_cons hk', hrotate, ← List.append_assoc, ← addresses_eq]
      rfl
    unfold selectLoop
    rw [List.getElem?_eq_getElem hindex, ← hnode, hdrop]
    simp only [Script.wp_bind]
    refine Script.wp_mono (tryAddress_searches _ _) (fun _ _ h => h) ?_
    rintro found₄ _ w₁ ⟨rfl, tested₄, h₄⟩
    simp only [Script.wp_ite, Script.wp_bind, Script.wp_pure]
    refine ⟨fun hfound => ?_, fun hfound => ?_⟩
    · rw [if_pos hfound] at h₄
      exact ⟨tested₄, _, h₄.append_right _, .found _⟩
    rw [if_neg hfound] at h₄
    refine Script.wp_mono (tryAddress_searches _ _) (fun _ _ h => h) ?_
    rintro found₆ _ w₂ ⟨rfl, tested₆, h₆⟩
    refine ⟨fun hfound => ?_, fun hfound => ?_⟩
    · rw [if_pos hfound] at h₆
      exact ⟨_, _, h₄.append (h₆.append_right _), .found _⟩
    rw [if_neg hfound] at h₆
    rw [Nat.mod_add_mod, Nat.add_assoc]
    rcases Nat.lt_or_ge (k + 1) nodes.length with hlt | hge
    · -- the loop goes on, because `base` is fewer than a full round back
      have hnext : (base + (k + 1)) % nodes.length ≠ base := by
        rcases Nat.lt_or_ge (base + (k + 1)) nodes.length with hsmall | hwrap
        · rw [Nat.mod_eq_of_lt hsmall]
          omega
        · rw [Nat.mod_eq_sub_mod hwrap, Nat.mod_eq_of_lt (by omega)]
          omega
      refine ⟨fun _ => ?_, fun hcome => absurd hnext hcome⟩
      refine Script.wp_mono (ih hlt (by omega)) (fun _ _ h => h) ?_
      rintro rc s' w' ⟨tested, found, hrest, hselects⟩
      exact ⟨_, found, h₄.append (h₆.append hrest), hselects⟩
    · -- a full round has been made
      have hround : k + 1 = nodes.length := by omega
      rw [hround, Nat.add_mod_right, Nat.mod_eq_of_lt hbase]
      refine ⟨fun hne => absurd rfl hne, fun _ => ?_⟩
      have hnil : (nodes.rotate base).drop nodes.length = [] :=
        List.drop_eq_nil_of_le (List.length_rotate ..).le
      rw [hnil]
      exact ⟨_, none, h₄.append (h₆.append (.nil w₂)), .none⟩

/-- `select_bootstrap` searches from the node its random number names. -/
theorem selectBootstrap_searches {nodes : List RpcNode} (hne : nodes ≠ []) :
    Script.wp h noFault (selectBootstrap nodes)
      (fun rc s' w' => ∃ r w₁ tested found, h w .rand r w₁ ∧
        Search (Tests h s) (configuredFrom nodes (r % nodes.length)) w₁ tested found w' ∧
          Selects s found rc s') s w := by
  have hlength : 0 < nodes.length := List.length_pos_iff.mpr hne
  unfold selectBootstrap
  simp only [Script.wp_bind, Script.wp_ask]
  intro r w₁ hr
  have hbase : r % nodes.length < nodes.length := Nat.mod_lt _ hlength
  have hloop := selectLoop_searches (h := h) (s := s) (w := w₁) hbase hlength
    (Nat.add_zero nodes.length)
  rw [Nat.add_zero, Nat.mod_eq_of_lt hbase, List.drop_zero] at hloop
  refine Script.wp_mono hloop (fun _ _ h => h) ?_
  rintro rc s' w' ⟨tested, found, hsearch, hselects⟩
  exact ⟨r, w₁, tested, found, hr, hsearch, hselects⟩

end Loop

/-! ### Soundness and completeness -/

section Assignment

variable {σ : Type}

/-- In the environment `h` every test of the address by the thread `s` says `up`. -/
def ReachableAs (h : Handler σ Call Call.Reply) (s : Thread IPFSConnect) (address : Bytes × ℕ)
    (up : Bool) : Prop :=
  ∀ w verdict w', Tests h s address w verdict w' → verdict = up

/-- One run of `select_bootstrap` that began at the node `base`, with the addresses it has tested:
it is told by the first reachable address in cyclic order. -/
structure Bootstrap (nodes : List RpcNode) (base : ℕ) (up : Bytes × ℕ → Bool)
    (tested : List (Bytes × ℕ)) (s : Thread IPFSConnect) (rc : ℤ) (s' : Thread IPFSConnect) :
    Prop where
  /-- The addresses are tested in cyclic order. -/
  order : tested <+: configuredFrom nodes base
  /-- No address is tested more often than it is configured. -/
  once : ∀ address, tested.count address ≤ (configured nodes).count address
  succeeds : rc = 0 ↔ ∃ address ∈ configured nodes, up address = true
  first : ∀ address, (configuredFrom nodes base).find? up = some address → s' = selected s address
  fails : rc ≠ 0 → rc < 0 ∧ s' = s

/-- A search over the rotated addresses is a bootstrap. -/
theorem Bootstrap.of_search {h : Handler σ Call Call.Reply} {nodes : List RpcNode} {base : ℕ}
    {up : Bytes × ℕ → Bool} {tested : List (Bytes × ℕ)} {found : Option (Bytes × ℕ)}
    {s s' : Thread IPFSConnect} {rc : ℤ} {w w' : σ}
    (hup : ∀ address ∈ configured nodes, ReachableAs h s address (up address))
    (hsearch : Search (Tests h s) (configuredFrom nodes base) w tested found w')
    (hselects : Selects s found rc s') : Bootstrap nodes base up tested s rc s' := by
  have hperm := configuredFrom_perm nodes base
  have hfound : found = (configuredFrom nodes base).find? up :=
    hsearch.find?_eq fun address ha => hup address (hperm.mem_iff.mp ha)
  have horder := hsearch.tested_prefix
  have honce (address : Bytes × ℕ) : tested.count address ≤ (configured nodes).count address :=
    (horder.sublist.count_le address).trans_eq (hperm.count_eq address)
  refine ⟨horder, honce, ?_, ?_, ?_⟩
  · cases hselects with
    | found address =>
      have hmem := List.mem_of_find?_eq_some hfound.symm
      exact iff_of_true rfl ⟨address, hperm.mem_iff.mp hmem, List.find?_some hfound.symm⟩
    | none =>
      refine iff_of_false (toInt_hiveGeneralError_neg _).ne ?_
      rintro ⟨address, hmem, hreachable⟩
      exact List.find?_eq_none.mp hfound.symm address (hperm.mem_iff.mpr hmem) hreachable
  · intro address haddress
    rw [← hfound] at haddress
    subst haddress
    cases hselects
    rfl
  · intro hrc
    cases hselects with
    | found address => exact absurd rfl hrc
    | none => exact ⟨toInt_hiveGeneralError_neg _, rfl⟩

/-- Whatever the environment replies, `select_bootstrap` comes to an end; and when each configured
address is reachable or unreachable throughout the call, every run begins at a random node, tests
the addresses in cyclic order and at most once each, and selects the first reachable one if there
is one. -/
theorem selectBootstrap_first {h : Handler σ Call Call.Reply} {nodes : List RpcNode}
    (hne : nodes ≠ []) {up : Bytes × ℕ → Bool} {s : Thread IPFSConnect}
    (hup : ∀ address ∈ configured nodes, ReachableAs h s address (up address)) (w : σ) :
    ((∀ w i, Call.ForNode nodes i → ∃ r w', h w i r w') →
      (selectBootstrap nodes s).Returns h w) ∧
    ∀ o w', Program.Exec h (selectBootstrap nodes s) w o w' →
      ∃ r w₁ tested rc s', o = .ok (rc, s') ∧ h w .rand r w₁ ∧
        (∃ found, Search (Tests h s) (configuredFrom nodes (r % nodes.length)) w₁ tested found w') ∧
        Bootstrap nodes (r % nodes.length) up tested s rc s' := by
  constructor
  · intro hanswers
    have hconfined : (selectBootstrap nodes).Confined (fun _ => True) (Call.ForNode nodes)
        (fun _ => False) := selectBootstrap_confined (fun _ _ _ h => h)
    exact (hconfined.within s).returns hanswers w
  · intro o w' hex
    have hends := Script.wp_iff_forall_exec.mp (selectBootstrap_searches (s := s) hne) o w' hex
    match o, hends with
    | .ok (rc, s'), ⟨r, w₁, tested, found, hr, hsearch, hselects⟩ =>
      exact ⟨r, w₁, tested, rc, s', rfl, hr, ⟨found, hsearch⟩, .of_search hup hsearch hselects⟩

/-- An environment in which HTTP clients can be made and exactly the URLs in `up` are answered. -/
def answering (up : Bytes → Bool) : Handler Unit Call Call.Reply := fun _ i r _ =>
  match i, r with
  | .rand, _ => True
  | .httpClientNew _, created => created = true
  | .httpClientPerform request, reply =>
    reply.answer = .ok HttpStatus_OK ↔ up request.url = true
  | _, _ => False

/-- There every address whose URL fits the buffer is reachable or unreachable throughout. -/
theorem answering_reachableAs (up : Bytes → Bool) (s : Thread IPFSConnect) {address : Bytes × ℕ}
    (hurl : (nodeUrl address.1 address.2 versionPath).length < 4097) :
    ReachableAs (answering up) s address (up (nodeUrl address.1 address.2 versionPath)) := by
  rintro w verdict w' ⟨rc, hex, rfl⟩
  have hwp : Script.wp (answering up) anyFault (testReachable address.1 address.2)
      (fun rc _ _ => rc = 0 ↔ up (nodeUrl address.1 address.2 versionPath) = true) s w := by
    unfold testReachable
    rw [if_neg (by omega)]
    simp only [Script.wp_bind, Script.wp_ite, Script.wp_ask, Script.wp_pure]
    rintro created _ hcreated
    obtain rfl : created = true := hcreated
    refine ⟨by rintro ⟨⟩, fun _ reply _ hreply => ?_⟩
    have hreply : reply.answer = .ok HttpStatus_OK ↔
      up (nodeUrl address.1 address.2 versionPath) = true := hreply
    rw [← hreply]
    cases hanswer : reply.answer with
    | error e => exact iff_of_false (HttpReply.toInt_answer_neg hanswer).ne (by rintro ⟨⟩)
    | ok status =>
      simp only [Script.wp_ite, Script.wp_pure]
      refine ⟨fun hne => iff_of_false (toInt_hiveHttpStatusError_neg _).ne ?_, fun heq => ?_⟩
      · exact fun h => hne (Except.ok.inj h)
      · exact iff_of_true trivial (congrArg Except.ok (not_not.mp heq))
  have hiff := hwp.of_exec hex
  exact Bool.eq_iff_iff.mpr (decide_eq_true_iff.trans hiff)

/-- A node with two addresses and a node with one. -/
def twoNodes : List RpcNode :=
  [⟨ascii "10.0.0.1", ascii "fe80::1", 9095⟩, ⟨[], ascii "fe80::2", 9095⟩]

/-- The URL of the last of their addresses. -/
def lastUrl (url : Bytes) : Bool := url = nodeUrl (ascii "fe80::2") 9095 versionPath

theorem selectBootstrap_first_twoNodes :
    (∀ o w', Program.Exec (answering lastUrl)
        (selectBootstrap twoNodes ⟨⟨[], 0, twoNodes⟩, 0⟩) () o w' →
      ∃ r tested rc s', o = .ok (rc, s') ∧ Bootstrap twoNodes (r % 2)
        (fun a => lastUrl (nodeUrl a.1 a.2 versionPath)) tested ⟨⟨[], 0, twoNodes⟩, 0⟩ rc s') ∧
    ∃ address ∈ configured twoNodes, lastUrl (nodeUrl address.1 address.2 versionPath) = true := by
  have hup : ∀ address ∈ configured twoNodes, ReachableAs (answering lastUrl)
      ⟨⟨[], 0, twoNodes⟩, 0⟩ address (lastUrl (nodeUrl address.1 address.2 versionPath)) :=
    fun address haddress => answering_reachableAs _ _
      ((by decide : ∀ a ∈ configured twoNodes, (nodeUrl a.1 a.2 versionPath).length < 4097)
        address haddress)
  constructor
  · intro o w' hex
    obtain ⟨r, _, tested, rc, s', ho, -, -, hbootstrap⟩ :=
      (selectBootstrap_first (by decide) hup ()).2 o w' hex
    exact ⟨r, tested, rc, s', ho, hbootstrap⟩
  · exact ⟨(ascii "fe80::2", 9095), by decide, by decide⟩

end Assignment

end IPFS

end HiveSDK
