import HiveSDK.Model.HttpClient

/-!
# What is parsed of a response body

The block that `http_client_move_response_body` returns is handed to `cJSON_Parse`, which
reads up to the first zero byte. The write callback stores the bytes received and nothing
behind them, so the byte after the body is what the block held there before: whatever
`realloc` left, or what an earlier response on the same client stored.

`bodyTerminated_iff` makes this exact. The condition is read off a run of the same code over
cells that know where their content comes from; the functions commute with a change of cells
(`run_map`, `deliver_map`), so a run over such cells stands for the runs over bytes for every
content that `realloc` may leave.
-/

namespace HiveSDK

/-! ### The size of the block -/

/-- The loop ends when the doubled size has wrapped or is above the bound. -/
theorem growLoop_spec (bound newSz lastTry : ℕ) (h : newSz < 2 ^ 64) :
    (growLoop bound newSz lastTry).1 < 2 ^ 64 ∧
      ((growLoop bound newSz lastTry).1 ≤ (growLoop bound newSz lastTry).2 ∨
        bound < (growLoop bound newSz lastTry).1) := by
  induction newSz, lastTry using growLoop.induct bound with
  | case1 newSz lastTry hcond ih =>
    unfold growLoop
    rw [dif_pos hcond]
    exact ih (Nat.mod_lt _ (by norm_num))
  | case2 newSz lastTry hcond =>
    unfold growLoop
    rw [dif_neg hcond]
    exact ⟨h, by omega⟩

/-- Doubling reaches the size that is needed, and stays a `size_t`. -/
theorem newSize_spec {sz length : ℕ} (h : sz + length < 2 ^ 64) :
    sz + length ≤ newSize sz length ∧ newSize sz length < 2 ^ 64 := by
  have hstart : (if sz = 0 then 512 else sz * 2 % 2 ^ 64) < 2 ^ 64 := by
    split
    · norm_num
    · exact Nat.mod_lt _ (by norm_num)
  unfold newSize
  generalize (if sz = 0 then 512 else sz * 2 % 2 ^ 64) = start at hstart
  have hloop := growLoop_spec (sz + length) start sz hstart
  simp only
  split
  · exact ⟨le_rfl, h⟩
  · exact ⟨by omega, hloop.1⟩

namespace ResponseBody

variable {α β : Type}

/-- What holds of a body in every state: `used <= sz`, and `sz` is the size of the block. -/
structure WellFormed (r : ResponseBody α) : Prop where
  used_le : r.used ≤ r.sz
  sz_eq : r.sz = r.block.length
  sz_lt : r.sz < 2 ^ 64

/-- A body starts out well-formed. -/
theorem WellFormed.new : (ResponseBody.new : ResponseBody α).WellFormed :=
  ⟨le_rfl, rfl, by norm_num [ResponseBody.new]⟩

end ResponseBody

open ResponseBody

section Cells

variable {α : Type} {wrote : UInt8 → α} {junk : ℕ → ℕ → α} {r r' : ResponseBody α}

/-- The block has the size it is given. -/
theorem length_reallocBlock {newSz : ℕ} (h : r.block.length ≤ newSz) :
    (reallocBlock junk r newSz).block.length = newSz := by
  simp [reallocBlock, h]

/-- A chunk that has room is stored behind what is used. -/
theorem appendChunk_eq_some {chunk : Bytes} (hlt : r.block.length < 2 ^ 64)
    (h : r.used + chunk.length ≤ r.block.length) :
    appendChunk wrote r chunk = some { r with
      block := r.block.take r.used ++ chunk.map wrote ++ r.block.drop (r.used + chunk.length)
      used := r.used + chunk.length } := by
  rw [appendChunk, if_pos h, Nat.mod_eq_of_lt (by omega)]

/-- The three ways a call of the write callback goes: the chunk fits, the block is enlarged
for it, or the chunk is refused and the body dropped. -/
theorem httpResponseBodyWriteCallback_cases (hwf : r.WellFormed) (chunk : Chunk) (ok : Bool) :
    (r.used + chunk.1.length ≤ r.block.length ∧
      httpResponseBodyWriteCallback wrote junk r chunk ok =
        (appendChunk wrote r chunk.1).map (·, chunk.1.length)) ∨
    (∃ newSz, r.block.length ≤ newSz ∧ r.used + chunk.1.length ≤ newSz ∧ newSz < 2 ^ 64 ∧
      newSz = newSize r.sz chunk.1.length ∧
      httpResponseBodyWriteCallback wrote junk r chunk ok =
        (appendChunk wrote (reallocBlock junk r newSz) chunk.1).map (·, chunk.1.length)) ∨
    (0 < chunk.1.length ∧
      httpResponseBodyWriteCallback wrote junk r chunk ok = some (r.clear, 0)) := by
  obtain ⟨hused, hsz, hlt⟩ := hwf
  have hchunk := chunk.2
  have hroom : (r.sz + 2 ^ 64 - r.used) % 2 ^ 64 = r.sz - r.used := by
    rw [show r.sz + 2 ^ 64 - r.used = (r.sz - r.used) + 2 ^ 64 by omega, Nat.add_mod_right]
    exact Nat.mod_eq_of_lt (by omega)
  unfold httpResponseBodyWriteCallback
  simp only [hroom]
  by_cases hfit : r.sz - r.used < chunk.1.length
  · simp only [hfit, if_true]
    by_cases hwrap : (r.sz + chunk.1.length) % 2 ^ 64 < r.sz
    · exact .inr (.inr ⟨by omega, by simp only [hwrap, if_true]⟩)
    · have hsum : r.sz + chunk.1.length < 2 ^ 64 := by
        by_contra hge
        refine hwrap ?_
        rw [Nat.mod_eq_sub_mod (by omega), Nat.mod_eq_of_lt (by omega)]
        omega
      have hnew := newSize_spec hsum
      cases ok with
      | true =>
        exact .inr (.inl ⟨_, by omega, by omega, hnew.2, rfl, by
          simp only [hwrap, if_true, if_false]⟩)
      | false =>
        exact .inr (.inr ⟨by omega, by simp only [hwrap, if_false, Bool.false_eq_true]⟩)
  · exact .inl ⟨by omega, by simp [hfit]⟩

/-- The bytes from `i` on of `r'` are those of `r`, as far as `r` has them, and otherwise what
some `realloc` left. -/
def KeptAt (junk : ℕ → ℕ → α) (r r' : ResponseBody α) (i : ℕ) : Prop :=
  (i < r.block.length ∧ r'.block[i]? = r.block[i]?) ∨
    (r.block.length ≤ i ∧ ∀ x ∈ r'.block[i]?, ∃ k j, x = junk k j)

/-- What two steps keep at a cell, both keep. -/
theorem KeptAt.trans {r₁ r₂ r₃ : ResponseBody α} {i : ℕ} (h₁ : KeptAt junk r₁ r₂ i)
    (h₂ : KeptAt junk r₂ r₃ i) (hle : r₁.block.length ≤ r₂.block.length) :
    KeptAt junk r₁ r₃ i := by
  rcases h₁ with ⟨hi, heq⟩ | ⟨hi, hjunk⟩
  · rcases h₂ with ⟨_, heq₂⟩ | ⟨hi₂, _⟩
    · exact .inl ⟨hi, heq₂.trans heq⟩
    · omega
  · rcases h₂ with ⟨_, heq₂⟩ | ⟨_, hjunk₂⟩
    · exact .inr ⟨hi, heq₂ ▸ hjunk⟩
    · exact .inr ⟨hi, hjunk₂⟩

/-- Growing the block keeps its cells. -/
private theorem keptAt_reallocBlock {newSz : ℕ} (h : r.block.length ≤ newSz) (i : ℕ) :
    KeptAt junk r (reallocBlock junk r newSz) i := by
  have htake : r.block.take newSz = r.block := List.take_of_length_le h
  simp only [KeptAt, reallocBlock, htake]
  rcases Nat.lt_or_ge i r.block.length with hi | hi
  · exact .inl ⟨hi, List.getElem?_append_left hi⟩
  · refine .inr ⟨hi, fun x hx => ?_⟩
    rw [List.getElem?_append_right hi, List.getElem?_map] at hx
    obtain ⟨j, _, rfl⟩ := Option.map_eq_some_iff.mp hx
    exact ⟨_, _, rfl⟩

/-- What an accepted chunk does to the body. -/
structure Accepted (junk : ℕ → ℕ → α) (r r' : ResponseBody α) (length : ℕ) : Prop where
  wellFormed : r'.WellFormed
  used_eq : r'.used = r.used + length
  le_length : r.block.length ≤ r'.block.length
  kept : ∀ i, r'.used ≤ i → KeptAt junk r r' i

theorem Accepted.refl (hwf : r.WellFormed) : Accepted junk r r 0 where
  wellFormed := hwf
  used_eq := rfl
  le_length := le_rfl
  kept i _ := by
    rcases Nat.lt_or_ge i r.block.length with hi | hi
    · exact .inl ⟨hi, rfl⟩
    · exact .inr ⟨hi, by simp [List.getElem?_eq_none hi]⟩

/-- Two accepted lengths add up. -/
theorem Accepted.trans {r₁ r₂ r₃ : ResponseBody α} {m n : ℕ} (h₁ : Accepted junk r₁ r₂ m)
    (h₂ : Accepted junk r₂ r₃ n) : Accepted junk r₁ r₃ (m + n) where
  wellFormed := h₂.wellFormed
  used_eq := by rw [h₂.used_eq, h₁.used_eq, Nat.add_assoc]
  le_length := h₁.le_length.trans h₂.le_length
  kept i hi := by
    have := h₂.used_eq
    exact (h₁.kept i (by omega)).trans (h₂.kept i hi) h₁.le_length

/-- Growing accepts no byte. -/
theorem accepted_reallocBlock {newSz : ℕ} (hwf : r.WellFormed) (h : r.block.length ≤ newSz)
    (hlt : newSz < 2 ^ 64) : Accepted junk r (reallocBlock junk r newSz) 0 where
  wellFormed := by
    refine ⟨?_, (length_reallocBlock h).symm, hlt⟩
    exact hwf.used_le.trans (hwf.sz_eq.trans_le h)
  used_eq := rfl
  le_length := by rw [length_reallocBlock h]; exact h
  kept i _ := keptAt_reallocBlock h i

/-- A chunk is accepted with its length. -/
theorem accepted_appendChunk {chunk : Bytes} (hwf : r.WellFormed)
    (h : r.used + chunk.length ≤ r.block.length) (hr' : appendChunk wrote r chunk = some r') :
    Accepted junk r r' chunk.length := by
  rw [appendChunk_eq_some (hwf.sz_eq ▸ hwf.sz_lt) h] at hr'
  cases hr'
  have hfront : (r.block.take r.used ++ chunk.map wrote).length = r.used + chunk.length := by
    rw [List.length_append, List.length_take, List.length_map]
    omega
  have hlength : (r.block.take r.used ++ chunk.map wrote ++
      r.block.drop (r.used + chunk.length)).length = r.block.length := by
    rw [List.length_append, hfront, List.length_drop]
    omega
  refine ⟨⟨h.trans_eq hwf.sz_eq.symm, hwf.sz_eq.trans hlength.symm, hwf.sz_lt⟩, rfl, hlength.ge,
    fun i hi => ?_⟩
  have hbehind : (r.block.take r.used ++ chunk.map wrote ++
      r.block.drop (r.used + chunk.length))[i]? = r.block[i]? := by
    rw [List.getElem?_append_right (hfront.trans_le hi), List.getElem?_drop, hfront]
    congr 1
    have : r.used + chunk.length ≤ i := hi
    omega
  simp only [KeptAt, hbehind]
  rcases Nat.lt_or_ge i r.block.length with hi' | hi'
  · exact .inl ⟨hi', trivial⟩
  · exact .inr ⟨hi', by simp [List.getElem?_eq_none hi']⟩

/-- A call of the write callback accepts the chunk, or refuses it and drops the body. -/
theorem httpResponseBodyWriteCallback_spec {chunk : Chunk} {ok : Bool} {n : ℕ}
    (hwf : r.WellFormed)
    (h : httpResponseBodyWriteCallback wrote junk r chunk ok = some (r', n)) :
    Accepted junk r r' chunk.1.length ∨
      n ≠ chunk.1.length ∧ r' = r.clear := by
  rcases httpResponseBodyWriteCallback_cases hwf chunk ok with
    ⟨hfit, heq⟩ | ⟨newSz, hgrow, hfit, hlt, _, heq⟩ | ⟨hpos, heq⟩
  · rw [heq] at h
    obtain ⟨r'', hr'', hpair⟩ := Option.map_eq_some_iff.mp h
    cases hpair
    exact .inl (accepted_appendChunk hwf hfit hr'')
  · rw [heq] at h
    obtain ⟨r'', hr'', hpair⟩ := Option.map_eq_some_iff.mp h
    cases hpair
    have hgrown : Accepted junk r (reallocBlock junk r newSz) 0 :=
      accepted_reallocBlock hwf hgrow hlt
    rw [← Nat.zero_add chunk.1.length]
    refine .inl (hgrown.trans (accepted_appendChunk hgrown.wellFormed ?_ hr''))
    rw [length_reallocBlock hgrow]
    exact hfit
  · rw [heq] at h
    cases h
    exact .inr ⟨by omega, rfl⟩

/-- Every event keeps the body well formed. -/
theorem wellFormed_of_step {e : BodyEvent} (hwf : r.WellFormed)
    (h : e.step wrote junk r = some r') : r'.WellFormed := by
  have hreset : r.clear.WellFormed := ⟨Nat.zero_le _, hwf.sz_eq, hwf.sz_lt⟩
  cases e with
  | chunk data ok =>
    obtain ⟨⟨r₁, n⟩, hcall, rfl⟩ := Option.map_eq_some_iff.mp h
    rcases httpResponseBodyWriteCallback_spec hwf hcall with hacc | ⟨_, rfl⟩
    · exact hacc.wellFormed
    · exact hreset
  | reset => cases h; exact hreset
  | move =>
    cases h
    unfold httpClientMoveResponseBody
    split
    · exact hwf
    · exact ⟨le_rfl, rfl, by simp⟩

/-- Well-formedness over any chunks and any reuse, by induction on the events. -/
theorem wellFormed_of_run {es : List BodyEvent} (hwf : r.WellFormed)
    (h : BodyEvent.run wrote junk r es = some r') : r'.WellFormed := by
  induction es generalizing r with
  | nil => cases h; exact hwf
  | cons e es ih =>
    obtain ⟨r₁, hstep, hrest⟩ := Option.bind_eq_some_iff.mp h
    exact ih (wellFormed_of_step hwf hstep) hrest

/-- The number of bytes of a response. -/
def totalLength (chunks : List (Chunk × Bool)) : ℕ := (chunks.map fun c => c.1.1.length).sum

/-- What a transfer accepts: the lengths of its chunks, by induction on them. -/
private theorem accepted_of_deliver {chunks : List (Chunk × Bool)} (hwf : r.WellFormed)
    (h : deliver wrote junk r chunks = some r') : Accepted junk r r' (totalLength chunks) := by
  induction chunks generalizing r with
  | nil =>
    cases h
    exact .refl hwf
  | cons c chunks ih =>
    obtain ⟨chunk, ok⟩ := c
    obtain ⟨⟨r₁, n⟩, hcall, hrest⟩ := Option.bind_eq_some_iff.mp h
    by_cases hn : n = chunk.1.length
    · rw [if_pos hn] at hrest
      rcases httpResponseBodyWriteCallback_spec hwf hcall with hfirst | ⟨hrefused, _⟩
      · exact hfirst.trans (ih hfirst.wellFormed hrest)
      · exact absurd hn hrefused
    · rw [if_neg hn] at hrest
      cases hrest

end Cells

/-! ### Changing the cells -/

section Map

variable {α β : Type} {wrote : UInt8 → α} {junk : ℕ → ℕ → α} (f : α → β) (r : ResponseBody α)

/-- Storing a chunk does not depend on what a cell is made of. -/
private theorem appendChunk_map (chunk : Bytes) :
    appendChunk (f ∘ wrote) (r.map f) chunk = (appendChunk wrote r chunk).map (·.map f) := by
  unfold appendChunk ResponseBody.map
  simp only [List.length_map]
  split
  · simp [List.map_take, List.map_drop]
  · rfl

private theorem reallocBlock_map (newSz : ℕ) :
    reallocBlock (fun k i => f (junk k i)) (r.map f) newSz =
      (reallocBlock junk r newSz).map f := by
  simp [reallocBlock, ResponseBody.map, List.map_take, Function.comp_def]

/-- The callback as a whole does not depend on what a cell is made of. -/
private theorem httpResponseBodyWriteCallback_map (chunk : Chunk) (ok : Bool) :
    httpResponseBodyWriteCallback (f ∘ wrote) (fun k i => f (junk k i)) (r.map f) chunk ok =
      (httpResponseBodyWriteCallback wrote junk r chunk ok).map
        fun p => (p.1.map f, p.2) := by
  have hclear : (r.map f).clear = r.clear.map f := rfl
  have hused : (r.map f).used = r.used := rfl
  have hsz : (r.map f).sz = r.sz := rfl
  unfold httpResponseBodyWriteCallback
  simp only [reallocBlock_map, appendChunk_map, hused, hsz, hclear]
  by_cases hfit : (r.sz + 2 ^ 64 - r.used) % 2 ^ 64 < chunk.1.length
  · simp only [hfit, if_true]
    by_cases hwrap : (r.sz + chunk.1.length) % 2 ^ 64 < r.sz
    · simp only [hwrap, if_true, Option.map_some]
    · cases ok <;> simp only [hwrap, if_true, if_false, Option.map_map, Function.comp_def,
        Option.map_some, Bool.false_eq_true]
  · simp only [hfit, if_false, Option.map_map, Function.comp_def]

private theorem step_map (e : BodyEvent) :
    e.step (f ∘ wrote) (fun k i => f (junk k i)) (r.map f) =
      (e.step wrote junk r).map (·.map f) := by
  cases e with
  | chunk data ok =>
    simp only [BodyEvent.step]
    rw [httpResponseBodyWriteCallback_map, Option.map_map, Option.map_map]
    rfl
  | reset => rfl
  | move =>
    unfold BodyEvent.step httpClientMoveResponseBody ResponseBody.map
    simp only
    split <;> simp

/-- Nor does a sequence of events. -/
private theorem run_map (es : List BodyEvent) :
    BodyEvent.run (f ∘ wrote) (fun k i => f (junk k i)) (r.map f) es =
      (BodyEvent.run wrote junk r es).map (·.map f) := by
  induction es generalizing r with
  | nil => rfl
  | cons e es ih =>
    unfold BodyEvent.run
    rw [step_map]
    cases e.step wrote junk r with
    | none => rfl
    | some r₁ => exact ih r₁

private theorem deliver_map (chunks : List (Chunk × Bool)) :
    deliver (f ∘ wrote) (fun k i => f (junk k i)) (r.map f) chunks =
      (deliver wrote junk r chunks).map (·.map f) := by
  induction chunks generalizing r with
  | nil => rfl
  | cons c chunks ih =>
    unfold deliver
    rw [httpResponseBodyWriteCallback_map]
    cases httpResponseBodyWriteCallback wrote junk r c.1 c.2 with
    | none => rfl
    | some p =>
      simp only [Option.map_some, Option.bind_some]
      split
      · exact ih p.1
      · rfl

end Map

/-! ### The byte after the body -/

/-- After `hist` and a response in `chunks`, when `realloc` leaves `junk`: the block that is
moved out has a zero byte behind the bytes received, inside its capacity. -/
def BodyTerminated (junk : ℕ → ℕ → UInt8) (hist : List BodyEvent)
    (chunks : List (Chunk × Bool)) : Prop :=
  ∃ r r' block, BodyEvent.run id junk .new hist = some r ∧ deliver id junk r chunks = some r' ∧
    (httpClientMoveResponseBody r').1 = some block ∧
    block[totalLength chunks]? = some 0

/-- The body is terminated for every content of fresh memory exactly when the cell behind it
was set to zero by an earlier response on the same block. -/
theorem bodyTerminated_iff {hist : List BodyEvent} {chunks : List (Chunk × Bool)}
    {r : ResponseBody Cell} (hhist : BodyEvent.run Cell.stored Cell.junk .new hist = some r)
    (hidle : r.used = 0) (hdelivered : (deliver Cell.stored Cell.junk r chunks).isSome)
    (hpos : 0 < totalLength chunks) :
    (∀ junk, BodyTerminated junk hist chunks) ↔
      r.block[totalLength chunks]? = some (.stored 0) := by
  obtain ⟨r', hr'⟩ := Option.isSome_iff_exists.mp hdelivered
  have hacc := accepted_of_deliver (wellFormed_of_run .new hhist) hr'
  have hused : r'.used = totalLength chunks := by rw [hacc.used_eq, hidle, Nat.zero_add]
  have hkept := hacc.kept (totalLength chunks) hused.le
  -- what is moved out of the run with `junk`
  have hmoved : ∀ junk, BodyTerminated junk hist chunks ↔
      (r'.block[totalLength chunks]?).map (Cell.eval junk) = some 0 := by
    intro junk
    have hrun : BodyEvent.run id junk .new hist = some (r.map (Cell.eval junk)) := by
      have hmap := @run_map _ _ Cell.stored Cell.junk (Cell.eval junk) .new hist
      rwa [hhist] at hmap
    have hdel : deliver id junk (r.map (Cell.eval junk)) chunks =
        some (r'.map (Cell.eval junk)) := by
      have hmap := @deliver_map _ _ Cell.stored Cell.junk (Cell.eval junk) r chunks
      rwa [hr'] at hmap
    have hblock : (httpClientMoveResponseBody (r'.map (Cell.eval junk))).1 =
        some (r'.block.map (Cell.eval junk)) := by
      unfold httpClientMoveResponseBody
      rw [if_neg (by simp only [ResponseBody.map]; omega)]
      rfl
    constructor
    · rintro ⟨r₁, r₂, block, h₁, h₂, h₃, hzero⟩
      cases hrun.symm.trans h₁
      cases hdel.symm.trans h₂
      cases hblock.symm.trans h₃
      rwa [List.getElem?_map] at hzero
    · intro hzero
      exact ⟨_, _, _, hrun, hdel, hblock, by rwa [List.getElem?_map]⟩
  constructor
  · intro hall
    obtain ⟨cell, hcell, heval⟩ := Option.map_eq_some_iff.mp ((hmoved fun _ _ => 1).mp (hall _))
    cases cell with
    | junk k i => simp [Cell.eval] at heval
    | stored b =>
      obtain rfl : b = 0 := heval
      rcases hkept with ⟨_, heq⟩ | ⟨_, hjunk⟩
      · exact heq.symm.trans hcell
      · obtain ⟨k, j, hne⟩ := hjunk _ hcell
        cases hne
  · intro hzero junk
    rcases hkept with ⟨_, heq⟩ | ⟨hle, _⟩
    · exact (hmoved junk).mpr (by rw [heq, hzero]; rfl)
    · rw [List.getElem?_eq_none hle] at hzero
      cases hzero

/-! ### A response of one byte -/

/-- The body `1`, in one chunk. -/
def oneByte : List (Chunk × Bool) := [(⟨ascii "1", by decide⟩, true)]

private theorem deliver_oneByte : (deliver Cell.stored Cell.junk .new oneByte).isSome := by
  have hsize : newSize 0 1 = 512 := by
    rw [newSize, growLoop]
    simp
  simp [deliver, oneByte, httpResponseBodyWriteCallback, ResponseBody.new, ascii, hsize,
    appendChunk, reallocBlock]

theorem bodyTerminated_iff_oneByte : (∀ junk, BodyTerminated junk [] oneByte) ↔
    (ResponseBody.new : ResponseBody Cell).block[1]? = some (.stored 0) :=
  bodyTerminated_iff rfl rfl deliver_oneByte (by decide)

/-- On a new client the byte behind the body is the one `realloc` left there. -/
theorem not_bodyTerminated :
    ¬∀ (junk : ℕ → ℕ → UInt8) (hist : List BodyEvent) (chunks : List (Chunk × Bool))
      (r : ResponseBody Cell), BodyEvent.run Cell.stored Cell.junk .new hist = some r →
      r.used = 0 → (deliver Cell.stored Cell.junk r chunks).isSome → 0 < totalLength chunks →
        BodyTerminated junk hist chunks := by
  intro h
  obtain ⟨r, r', block, hrun, hdel, hblock, hzero⟩ :=
    h (fun _ _ => 1) [] oneByte .new rfl rfl deliver_oneByte (by decide)
  cases hrun
  have hacc := accepted_of_deliver .new hdel
  unfold httpClientMoveResponseBody at hblock
  rw [if_neg (by rw [hacc.used_eq]; decide)] at hblock
  cases hblock
  rcases hacc.kept (totalLength oneByte) hacc.used_eq.le with ⟨hlt, _⟩ | ⟨_, hjunk⟩
  · exact absurd hlt (by decide)
  · obtain ⟨_, _, hone⟩ := hjunk 0 hzero
    have : (0 : UInt8) = 1 := hone
    exact absurd this (by decide)

end HiveSDK
