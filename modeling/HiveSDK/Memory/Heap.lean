import Mathlib.Logic.Function.Basic
import Mathlib.Data.List.Basic
import Mathlib.Data.List.Nodup
import Mathlib.Order.Nat

/-!
# A heap of byte blocks

What `malloc` and `free` work on: blocks that are handed out once and released once, each with its
contents. A pointer is a block with an offset into it. Only the start of a live block can be
released, and a release does not make the number of the block available again, so a pointer to a
released block stays recognisable as dangling.

`Extends h h' temps` says that `h'` is `h` with the additional live blocks `temps`. It is the
bookkeeping of a function that allocates temporaries and has to release exactly those on each of
its error exits: `Extends.alloc` adds one at the end, `Extends.free` takes the first away, and with
none left the blocks are those at the start (`Extends.blocks_eq`).
-/

namespace Memory

/-- A block and an offset into it. -/
structure Pointer where
  block : ℕ
  offset : ℕ
  deriving DecidableEq, Repr

/-- The live blocks with their contents. Blocks from `next` on have never been handed out. -/
structure Heap where
  blocks : ℕ → Option (List UInt8)
  next : ℕ
  unused : ∀ b, next ≤ b → blocks b = none

namespace Heap

/-- The heap before any allocation. -/
def empty : Heap := ⟨fun _ => none, 0, fun _ _ => rfl⟩

/-- The pointer the next allocation returns. -/
def fresh (h : Heap) : Pointer := ⟨h.next, 0⟩

/-- Hand out the next block, with contents `data`. -/
def alloc (h : Heap) (data : List UInt8) : Heap where
  blocks := Function.update h.blocks h.next (some data)
  next := h.next + 1
  unused b hb := by
    rw [Function.update_of_ne (by omega)]
    exact h.unused b (by omega)

/-- Release the block a pointer points at the start of; `none` when there is no such block. -/
def free (h : Heap) (p : Pointer) : Option Heap :=
  if p.offset = 0 ∧ (h.blocks p.block).isSome then
    some
      { blocks := Function.update h.blocks p.block none
        next := h.next
        unused := fun b hb => by
          by_cases hp : b = p.block
          · rw [hp, Function.update_self]
          · rw [Function.update_of_ne hp]
            exact h.unused b hb }
  else none

/-- Store `data` where a pointer points; `none` when it does not fit into a live block. -/
def store (h : Heap) (p : Pointer) (data : List UInt8) : Option Heap :=
  match hb : h.blocks p.block with
  | none => none
  | some content =>
    if p.offset + data.length ≤ content.length then
      some
        { blocks := Function.update h.blocks p.block
            (some (content.take p.offset ++ data ++ content.drop (p.offset + data.length)))
          next := h.next
          unused := fun b hle => by
            have hne : b ≠ p.block := fun heq => by
              rw [← heq, h.unused b hle] at hb
              cases hb
            rw [Function.update_of_ne hne]
            exact h.unused b hle }
    else none

variable {h h' h₁ : Heap} {b : ℕ} {data : List UInt8}

/-- A live block has been handed out. -/
theorem lt_next_of_blocks (hb : h.blocks b = some data) : b < h.next := by
  by_contra hge
  rw [h.unused b (not_lt.mp hge)] at hb
  cases hb

/-- The new block holds the data. -/
theorem blocks_alloc_self : (h.alloc data).blocks h.next = some data :=
  Function.update_self ..

/-- A live block is left alone. -/
theorem blocks_alloc_of_live {content : List UInt8} (hb : h.blocks b = some content) :
    (h.alloc data).blocks b = some content := by
  have hne : b ≠ h.next := (lt_next_of_blocks hb).ne
  exact (Function.update_of_ne hne ..).trans hb

/-- The start of a live block can be released, and nothing else changes. -/
theorem free_of_blocks (hb : h.blocks b = some data) :
    ∃ h', h.free ⟨b, 0⟩ = some h' ∧ h'.blocks = Function.update h.blocks b none ∧
      h'.next = h.next := by
  have hlive : (h.blocks b).isSome := by rw [hb, Option.isSome_some]
  exact ⟨_, if_pos ⟨rfl, hlive⟩, rfl, rfl⟩

/-- What fits is stored, and nothing outside the block changes. -/
theorem store_of_blocks {front room : List UInt8} (hb : h.blocks b = some (front ++ room))
    (hroom : data.length ≤ room.length) :
    ∃ h', h.store ⟨b, front.length⟩ data = some h' ∧
      h'.blocks = Function.update h.blocks b (some (front ++ data ++ room.drop data.length)) ∧
      h'.next = h.next := by
  unfold store
  split
  · rename_i hnone
    rw [hb] at hnone
    cases hnone
  · rename_i content hcontent
    obtain rfl : front ++ room = content := Option.some.inj (hb.symm.trans hcontent)
    have hfits : front.length + data.length ≤ (front ++ room).length := by
      rw [List.length_append]
      omega
    rw [if_pos hfits]
    refine ⟨_, rfl, ?_, rfl⟩
    dsimp only
    rw [List.take_left, ← List.drop_drop, List.drop_left]

/-- What is stored behind `front` takes the place of as many zeros. -/
theorem store_zeros (front data : List UInt8) {n : ℕ}
    (hb : h.blocks b = some (front ++ List.replicate (data.length + n) 0)) :
    ∃ h', h.store ⟨b, front.length⟩ data = some h' ∧
      h'.blocks b = some (front ++ data ++ List.replicate n 0) := by
  have hroom : data.length ≤ (List.replicate (data.length + n) (0 : UInt8)).length := by
    rw [List.length_replicate]
    exact Nat.le_add_right _ _
  obtain ⟨h', hstore, hblocks, -⟩ := store_of_blocks hb hroom
  refine ⟨h', hstore, ?_⟩
  rw [hblocks, Function.update_self, List.drop_replicate, Nat.add_sub_cancel_left]

/-! ### Temporaries -/

/-- `h'` is `h` with the additional live blocks `temps`. -/
structure Extends (h h' : Heap) (temps : List (ℕ × List UInt8)) : Prop where
  next_le : h.next ≤ h'.next
  nodup : (temps.map Prod.fst).Nodup
  fresh : ∀ t ∈ temps, h.next ≤ t.1
  live : ∀ t ∈ temps, h'.blocks t.1 = some t.2
  frame : ∀ b, b ∉ temps.map Prod.fst → h'.blocks b = h.blocks b

namespace Extends

variable {temps : List (ℕ × List UInt8)} {t : ℕ × List UInt8}

/-- Nothing allocated. -/
theorem refl (h : Heap) : Extends h h [] :=
  ⟨le_rfl, List.nodup_nil, fun _ ht => absurd ht List.not_mem_nil,
    fun _ ht => absurd ht List.not_mem_nil, fun _ _ => rfl⟩

/-- Once all temporaries are released, the blocks are those at the start. -/
theorem blocks_eq (hext : Extends h h' []) : h'.blocks = h.blocks :=
  funext fun b => hext.frame b List.not_mem_nil

/-- A block that was live at the start still is, with its contents. -/
theorem blocks_of_live (hext : Extends h h' temps) (hb : h.blocks b = some data) :
    h'.blocks b = some data := by
  rw [hext.frame b, hb]
  intro hmem
  obtain ⟨t, ht, rfl⟩ := List.mem_map.mp hmem
  exact absurd (lt_next_of_blocks hb) (not_lt.mpr (hext.fresh t ht))

/-- One more temporary block. -/
theorem alloc (hext : Extends h h' temps) (data : List UInt8) :
    Extends h (h'.alloc data) (temps ++ [(h'.next, data)]) := by
  have hlt : ∀ t ∈ temps, t.1 < h'.next := fun t ht => lt_next_of_blocks (hext.live t ht)
  have hnew : h'.next ∉ temps.map Prod.fst := by
    intro hmem
    obtain ⟨t, ht, heq⟩ := List.mem_map.mp hmem
    exact absurd (hlt t ht) (by omega)
  constructor
  · exact hext.next_le.trans (Nat.le_succ _)
  · rw [List.map_append, List.map_singleton]
    refine List.nodup_append.mpr ⟨hext.nodup, List.nodup_singleton _, fun a ha b hb heq => ?_⟩
    rw [List.mem_singleton] at hb
    have hnext : a = h'.next := heq.trans hb
    exact hnew (hnext ▸ ha)
  · intro t ht
    rcases List.mem_append.mp ht with ht | ht
    · exact hext.fresh t ht
    · rw [List.mem_singleton.mp ht]
      exact hext.next_le
  · intro t ht
    rcases List.mem_append.mp ht with ht | ht
    · exact blocks_alloc_of_live (hext.live t ht)
    · rw [List.mem_singleton.mp ht]
      exact blocks_alloc_self
  · intro b hb
    rw [List.map_append, List.mem_append, not_or, List.map_singleton, List.mem_singleton] at hb
    exact (Function.update_of_ne hb.2 ..).trans (hext.frame b hb.1)

/-- The first temporary can be released. -/
theorem free (hext : Extends h h' (t :: temps)) :
    ∃ h'', h'.free ⟨t.1, 0⟩ = some h'' ∧ Extends h h'' temps := by
  obtain ⟨h'', hfree, hblocks, hnext⟩ := free_of_blocks (hext.live t List.mem_cons_self)
  have hnodup : t.1 ∉ temps.map Prod.fst ∧ (temps.map Prod.fst).Nodup :=
    List.nodup_cons.mp hext.nodup
  refine ⟨h'', hfree, ?_, hnodup.2, fun u hu => hext.fresh u (List.mem_cons_of_mem _ hu), ?_, ?_⟩
  · exact hnext ▸ hext.next_le
  · intro u hu
    have hne : u.1 ≠ t.1 := fun heq => hnodup.1 (heq ▸ List.mem_map_of_mem hu)
    rw [hblocks, Function.update_of_ne hne]
    exact hext.live u (List.mem_cons_of_mem _ hu)
  · intro b hb
    rw [hblocks]
    by_cases heq : b = t.1
    · rw [heq, Function.update_self, h.unused _ (hext.fresh t List.mem_cons_self)]
    · rw [Function.update_of_ne heq]
      refine hext.frame b ?_
      rw [List.map_cons, List.mem_cons, not_or]
      exact ⟨heq, hb⟩

/-- The temporaries stay live when a block of the start is released. -/
theorem blocks_of_free (hext : Extends h h' temps) (hb : h.blocks b = some data)
    (hblocks : h₁.blocks = Function.update h'.blocks b none) (ht : t ∈ temps) :
    h₁.blocks t.1 = some t.2 := by
  have hne : t.1 ≠ b :=
    (lt_of_lt_of_le (lt_next_of_blocks hb) (hext.fresh t ht)).ne'
  rw [hblocks, Function.update_of_ne hne]
  exact hext.live t ht

end Extends

end Heap

end Memory
