import HiveSDK.Interaction.Confined
import HiveSDK.Model.IPFS

/-!
# What the operations of an IPFS connection ask

They make HTTP clients and perform requests; choosing a node takes a random number besides. With
at least one node configured the choice comes to an end after one round, so that nothing waits
for ever (`Call.ForNode`).
-/

namespace HiveSDK

open Interaction C

/-- The calls of an operation on a connection to `nodes`. -/
def Call.ForNode (nodes : List RpcNode) : Call → Prop
  | .rand | .httpClientNew _ | .httpClientPerform _ => True
  | .block => nodes = []
  | _ => False

namespace IPFS

variable {nodes : List RpcNode} {I : Thread IPFSConnect → Prop} {E : Fault → Prop}

/-- Confined to the bounds of an operation on a connection to `nodes`. -/
abbrev ConfinedNode {α : Type} (nodes : List RpcNode) (m : M IPFSConnect α) : Prop :=
  m.Confined (fun s => s.conn.rpcNodes = nodes) (Call.ForNode nodes) fun _ => True

/-! ### Choosing a node

Nothing goes wrong here, so no fault need be allowed. -/

/-- The invariant does not depend on the current node. -/
def SelectKeeps (I : Thread IPFSConnect → Prop) : Prop :=
  ∀ ip port s, I s →
    I { s with conn := { s.conn with currentNodeIp := ip, currentNodePort := port } }

/-- The test of a node makes the calls that an operation may make, and keeps the state. -/
theorem testReachable_confined (ip : Bytes) (port : ℕ) :
    (testReachable ip port).Confined I (Call.ForNode nodes) E := by
  unfold testReachable
  refine .ite (.pure _) (.bind (.ask trivial) fun created => .ite (.pure _) ?_)
  refine .bind (.ask trivial) fun reply => ?_
  split
  · exact .pure _
  · exact .ite (.pure _) (.pure _)

theorem tryAddress_confined (ip : Bytes) (port : ℕ) :
    (tryAddress ip port).Confined I (Call.ForNode nodes) E := by
  unfold tryAddress
  exact .ite (.pure _) (.bind (testReachable_confined _ _) fun _ => .pure _)

/-- After `k` rounds, there are as many left as it takes to come back to `base`. -/
theorem selectLoop_confined (hI : SelectKeeps I) {base : ℕ} (hbase : base < nodes.length)
    {rounds k : ℕ} (hk : k < nodes.length) (hrounds : rounds + k = nodes.length) :
    (selectLoop nodes base rounds ((base + k) % nodes.length)).Confined I
      (Call.ForNode nodes) E := by
  induction rounds generalizing k with
  | zero => omega
  | succ rounds ih =>
    have found (ip : Bytes) (port : ℕ) : Script.Confined I (Call.ForNode nodes) E (do
        select ip port
        return (0 : ℤ)) :=
      .bind (.modify (hI ip port)) fun _ => .pure _
    have hindex : (base + k) % nodes.length < nodes.length := Nat.mod_lt _ (by omega)
    unfold selectLoop
    split
    · rename_i hnone
      rw [List.getElem?_eq_getElem hindex] at hnone
      cases hnone
    · refine .bind (tryAddress_confined _ _) fun _ => .ite (found _ _) ?_
      refine .bind (tryAddress_confined _ _) fun _ => .ite (found _ _) ?_
      rw [Nat.mod_add_mod, Nat.add_assoc]
      dsimp only
      split
      · rename_i hnext
        rcases Nat.lt_or_ge (k + 1) nodes.length with hlt | hge
        · exact ih hlt (by omega)
        · -- a full round has been made
          have hround : k + 1 = nodes.length := by omega
          rw [hround, Nat.add_mod_right, Nat.mod_eq_of_lt hbase] at hnext
          exact absurd rfl hnext
      · exact .pure _

/-- The search for a node changes only the current one. -/
theorem selectBootstrap_confined (hI : SelectKeeps I) :
    (selectBootstrap nodes).Confined I (Call.ForNode nodes) E := by
  unfold selectBootstrap
  refine .bind (.ask trivial) fun r => ?_
  rcases eq_or_ne nodes [] with rfl | hne
  · exact .bind (.ask rfl) nofun
  · have hlength : 0 < nodes.length := List.length_pos_iff.mpr hne
    have hbase : r % nodes.length < nodes.length := Nat.mod_lt _ hlength
    have hloop := selectLoop_confined (E := E) hI hbase hlength (Nat.add_zero nodes.length)
    rwa [Nat.add_zero, Nat.mod_eq_of_lt hbase] at hloop

/-- The test before a request, with the search. -/
theorem checkReachable_confined :
    checkReachable.Confined (fun s => s.conn.rpcNodes = nodes) (Call.ForNode nodes) E := by
  unfold checkReachable
  refine .get_bind fun s hs => .ite (.pure _) ?_
  rw [hs]
  exact selectBootstrap_confined fun _ _ _ h => h

/-! ### Operations -/

/-- A failed transfer at most empties the current node. -/
theorem transferError_confined (rc : CurlCode) :
    (transferError rc).Confined (fun s => s.conn.rpcNodes = nodes) (Call.ForNode nodes) E := by
  unfold transferError markNodeUnreachable
  exact .ite (.bind (.modify fun _ h => h) fun _ => .pure _) (.pure _)

/-- It is reported by a negative number, and nothing more is sent. -/
theorem transferError_neg {F : Fault → List CallEvent → Prop} {rc : CurlCode}
    {s : Thread IPFSConnect} {past : List CallEvent} :
    Script.wp record F (transferError rc) (fun e _ past' => e < 0 ∧ past' = past) s past := by
  unfold transferError markNodeUnreachable
  simp only [Script.wp_bind, Script.wp_ite, Script.wp_modify, Script.wp_pure]
  exact ⟨fun _ => ⟨toInt_hiveGeneralError_neg _, trivial⟩,
    fun _ => ⟨toInt_hiveCurlError_neg _, trivial⟩⟩

/-- The upload keeps the configured nodes and makes the calls of a node. -/
theorem putFileFromBuffer_confined (body cid : Bytes) :
    ConfinedNode nodes (putFileFromBuffer body cid) := by
  unfold putFileFromBuffer
  refine .bind checkReachable_confined fun rc => .ite (.pure _) (.bind .get fun s => ?_)
  refine .bind (.ask trivial) fun created => .ite (.pure _) ?_
  refine .bind (.ask trivial) fun reply => ?_
  refine .ite (.bind (transferError_confined _) fun _ => .pure _) (.ite (.pure _) ?_)
  refine .ite (.pure _) (.bind (.ite (.fault trivial) (.pure _)) fun json => ?_)
  match json with
  | none => exact .pure _
  | some json =>
    dsimp only
    split
    · exact .pure _
    · exact .ite (.pure _) (.pure _)

/-- The query of a length does, and may dereference an absent reply. -/
theorem getFileLength_confined (hE : E .nullDereference) (cid : Bytes) :
    (getFileLength cid).Confined (fun s => s.conn.rpcNodes = nodes) (Call.ForNode nodes) E := by
  unfold getFileLength
  refine .bind checkReachable_confined fun rc => .ite (.pure _) (.bind .get fun s => ?_)
  refine .bind (.ask trivial) fun created => .ite (.pure _) ?_
  refine .bind (.ask trivial) fun reply => ?_
  refine .ite (.bind (transferError_confined _) fun _ => .pure _) (.ite (.pure _) ?_)
  refine .ite (.pure _) (.bind (.ite (.fault hE) (.pure _)) fun json => ?_)
  match json with
  | none => exact .pure _
  | some json =>
    dsimp only
    split
    · exact .pure _
    · exact .pure _

/-- So does the download. -/
theorem getFileToBuffer_confined (cid block : Bytes) (buflen : ℕ) :
    ConfinedNode nodes (getFileToBuffer cid block buflen) := by
  unfold getFileToBuffer
  refine .bind (getFileLength_confined trivial _) fun exit => .ite (.pure _) ?_
  dsimp only
  split
  · exact .pure _
  refine .bind checkReachable_confined fun rc => .ite (.pure _) (.bind .get fun s => ?_)
  refine .bind (.ask trivial) fun created => .ite (.pure _) ?_
  refine .bind (.ask trivial) fun reply => ?_
  split
  · exact .fault trivial
  · refine .ite (.bind (transferError_confined _) fun _ => .pure _) (.ite (.pure _) ?_)
    exact .ite (.pure _) (.ite (.pure _) (.pure _))

end IPFS

end HiveSDK
