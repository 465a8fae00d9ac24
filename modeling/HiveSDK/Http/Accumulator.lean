import HiveSDK.Http.ResponseBody

/-!
# The response body accumulates what is received

Any sequence of calls of the write callback, resets and moves leaves a body whose first `used`
bytes are the chunks accepted since the last reset or move, whatever `realloc` answers and
whatever it leaves in fresh memory. The arithmetic of the growth loop is that of `size_t`: the
loop comes to an end because the last size tried goes up in each round, also when the doubled
size has wrapped, and then the size asked for is the one needed.
-/

namespace HiveSDK

open ResponseBody

/-! ### The growth loop -/

/-- One round of the growth loop on `(new_sz, last_try)`. -/
def growStep (p : ℕ × ℕ) : ℕ × ℕ := (p.1 * 2 % 2 ^ 64, p.1)

/-- The condition of the loop. -/
def Growing (bound : ℕ) (p : ℕ × ℕ) : Prop := p.2 < p.1 ∧ p.1 ≤ bound

/-- The loop makes finitely many rounds. -/
private theorem growLoop_rounds (bound newSz lastTry : ℕ) : ∃ n,
    (∀ k < n, Growing bound (growStep^[k] (newSz, lastTry))) ∧
      ¬Growing bound (growStep^[n] (newSz, lastTry)) ∧
      growLoop bound newSz lastTry = growStep^[n] (newSz, lastTry) := by
  induction newSz, lastTry using growLoop.induct bound with
  | case1 newSz lastTry hcond ih =>
    obtain ⟨n, hbefore, hafter, heq⟩ := ih
    refine ⟨n + 1, fun k hk => ?_, hafter, ?_⟩
    · cases k with
      | zero => exact hcond
      | succ k => exact hbefore k (by omega)
    · rw [growLoop, dif_pos hcond, heq]
      rfl
  | case2 newSz lastTry hcond =>
    refine ⟨0, by simp, hcond, ?_⟩
    rw [growLoop, dif_neg hcond]
    rfl

/-- Where the loop begins when the block has `sz` bytes. -/
def growStart (sz : ℕ) : ℕ × ℕ := (if sz = 0 then 512 else sz * 2 % 2 ^ 64, sz)

/-- The loop of a call that asks for `length` more bytes ends, and the size it leads to is
enough. -/
structure Grows (sz length : ℕ) : Prop where
  ends : ∃ n, (∀ k < n, Growing (sz + length) (growStep^[k] (growStart sz))) ∧
    ¬Growing (sz + length) (growStep^[n] (growStart sz))
  enough : sz + length ≤ newSize sz length
  size_t : newSize sz length < 2 ^ 64

/-- Any two lengths that fit in memory together have a size above them. -/
private theorem grows {sz length : ℕ} (h : sz + length < 2 ^ 64) : Grows sz length := by
  obtain ⟨n, hbefore, hafter, -⟩ := growLoop_rounds (sz + length) (growStart sz).1 (growStart sz).2
  have hsize := newSize_spec h
  exact ⟨⟨n, hbefore, hafter⟩, hsize.1, hsize.2⟩

/-- The overflow test of the callback is exact. -/
private theorem add_lt_of_not_wrap {sz length : ℕ} (hsz : sz < 2 ^ 64) (hlength : length < 2 ^ 64)
    (h : sz ≤ (sz + length) % 2 ^ 64) : sz + length < 2 ^ 64 := by
  by_contra hge
  rw [Nat.mod_eq_sub_mod (by omega), Nat.mod_eq_of_lt (by omega)] at h
  omega

/-! ### The content -/

/-- The first `used` bytes. -/
def ResponseBody.content {α : Type} (r : ResponseBody α) : List α := r.block.take r.used

section Cells

variable {α : Type} {wrote : UInt8 → α} {junk : ℕ → ℕ → α} {r r' : ResponseBody α}

/-- An unused body has no content. -/
private theorem content_eq_nil (h : r.used = 0) : r.content = [] := by
  rw [content, h, List.take_zero]

/-- Growing keeps the content. -/
private theorem content_reallocBlock {newSz : ℕ} (hwf : r.WellFormed) (h : r.block.length ≤ newSz) :
    (reallocBlock junk r newSz).content = r.content := by
  have hused : r.used ≤ r.block.length := hwf.used_le.trans hwf.sz_eq.le
  unfold content reallocBlock
  dsimp only
  rw [List.take_of_length_le h, List.take_append_of_le_length hused]

/-- A chunk is appended to the content. -/
private theorem content_appendChunk {chunk : Bytes} (hwf : r.WellFormed)
    (h : r.used + chunk.length ≤ r.block.length) (hr' : appendChunk wrote r chunk = some r') :
    r'.content = r.content ++ chunk.map wrote := by
  rw [appendChunk_eq_some (hwf.sz_eq ▸ hwf.sz_lt) h] at hr'
  cases hr'
  have hfront : (r.block.take r.used ++ chunk.map wrote).length = r.used + chunk.length := by
    rw [List.length_append, List.length_take, List.length_map]
    omega
  unfold content
  dsimp only
  rw [List.take_append_of_le_length hfront.ge, List.take_of_length_le hfront.le]

/-- What a call of the write callback may come to: the chunk is appended, or a chunk that is not
empty is refused and the body dropped. -/
inductive CallbackEnds (wrote : UInt8 → α) (r : ResponseBody α) (chunk : Chunk) :
    ResponseBody α × ℕ → Prop
  | appended {r' : ResponseBody α} (hwf : r'.WellFormed)
      (hcontent : r'.content = r.content ++ chunk.1.map wrote) :
      CallbackEnds wrote r chunk (r', chunk.1.length)
  | refused (hpos : 0 < chunk.1.length) : CallbackEnds wrote r chunk (r.clear, 0)

variable (wrote junk)

/-- Every copy of the callback stays inside the block. -/
theorem httpResponseBodyWriteCallback_ends (hwf : r.WellFormed) (chunk : Chunk) (ok : Bool) :
    ∃ p, httpResponseBodyWriteCallback wrote junk r chunk ok = some p ∧
      CallbackEnds wrote r chunk p := by
  rcases httpResponseBodyWriteCallback_cases hwf chunk ok with
    ⟨hfit, heq⟩ | ⟨newSz, hgrow, hfit, hlt, -, heq⟩ | ⟨hpos, heq⟩
  · have happend : appendChunk wrote r chunk.1 = some _ :=
      appendChunk_eq_some (hwf.sz_eq ▸ hwf.sz_lt) hfit
    have hacc : Accepted junk r _ _ := accepted_appendChunk hwf hfit happend
    rw [happend] at heq
    exact ⟨_, heq, .appended hacc.wellFormed (content_appendChunk hwf hfit happend)⟩
  · have hgrown : Accepted junk r (reallocBlock junk r newSz) 0 :=
      accepted_reallocBlock hwf hgrow hlt
    have hroom : (reallocBlock junk r newSz).used + chunk.1.length ≤
        (reallocBlock junk r newSz).block.length := by
      rw [length_reallocBlock hgrow]
      exact hfit
    have happend : appendChunk wrote (reallocBlock junk r newSz) chunk.1 = some _ :=
      appendChunk_eq_some (hgrown.wellFormed.sz_eq ▸ hgrown.wellFormed.sz_lt) hroom
    have hacc : Accepted junk _ _ _ := accepted_appendChunk hgrown.wellFormed hroom happend
    rw [happend] at heq
    refine ⟨_, heq, .appended hacc.wellFormed ?_⟩
    rw [content_appendChunk hgrown.wellFormed hroom happend, content_reallocBlock hwf hgrow]
  · exact ⟨_, heq, .refused hpos⟩

/-- Every event goes through. -/
private theorem step_total (hwf : r.WellFormed) (e : BodyEvent) :
    ∃ r', e.step wrote junk r = some r' := by
  cases e with
  | chunk data ok =>
    obtain ⟨p, hp, -⟩ := httpResponseBodyWriteCallback_ends wrote junk hwf data ok
    exact ⟨p.1, by rw [BodyEvent.step, hp]; rfl⟩
  | reset => exact ⟨_, rfl⟩
  | move => exact ⟨_, rfl⟩

/-- The callbacks never leave the block, by induction on the events. -/
private theorem run_total (hwf : r.WellFormed) (es : List BodyEvent) :
    ∃ r', BodyEvent.run wrote junk r es = some r' := by
  induction es generalizing r with
  | nil => exact ⟨r, rfl⟩
  | cons e es ih =>
    obtain ⟨r₁, hstep⟩ := step_total wrote junk hwf e
    obtain ⟨r', hrest⟩ := ih (wellFormed_of_step hwf hstep)
    exact ⟨r', by rw [BodyEvent.run, hstep]; exact hrest⟩

variable {wrote junk}

private theorem run_append (es₁ es₂ : List BodyEvent) : BodyEvent.run wrote junk r (es₁ ++ es₂) =
    (BodyEvent.run wrote junk r es₁).bind fun r => BodyEvent.run wrote junk r es₂ := by
  induction es₁ generalizing r with
  | nil => rfl
  | cons e es ih =>
    rw [List.cons_append, BodyEvent.run, BodyEvent.run, Option.bind_assoc]
    exact congrArg _ (funext fun _ => ih)

/-! ### Responses -/

/-- The call for a chunk, with what `realloc` answers if it is asked. -/
def BodyEvent.ofCall (call : Chunk × Bool) : BodyEvent := .chunk call.1 call.2

/-- The last event, if there is one, is a reset or a move. -/
def Boundary (es : List BodyEvent) : Prop := ∀ e ∈ es.getLast?, e = .reset ∨ e = .move

/-- Called for these chunks one after the other, the callback never returns 0 for one that is not
empty. -/
def NoneRefused (wrote : UInt8 → α) (junk : ℕ → ℕ → α) (r : ResponseBody α) :
    List (Chunk × Bool) → Prop
  | [] => True
  | call :: calls => ∀ r' n,
      httpResponseBodyWriteCallback wrote junk r call.1 call.2 = some (r', n) →
        (0 < call.1.1.length → n ≠ 0) ∧ NoneRefused wrote junk r' calls

/-- The chunks of a response, put together. -/
def concatenation (calls : List (Chunk × Bool)) : Bytes := (calls.map fun c => c.1.1).flatten

/-- The content is the concatenation of the chunks, by induction on the calls. -/
private theorem content_of_calls {calls : List (Chunk × Bool)} (hwf : r.WellFormed)
    (hnone : NoneRefused wrote junk r calls)
    (hrun : BodyEvent.run wrote junk r (calls.map BodyEvent.ofCall) = some r') :
    r'.content = r.content ++ (concatenation calls).map wrote := by
  induction calls generalizing r with
  | nil =>
    cases hrun
    exact (List.append_nil _).symm
  | cons call calls ih =>
    obtain ⟨p, hp, hends⟩ := httpResponseBodyWriteCallback_ends wrote junk hwf call.1
      call.2
    obtain ⟨hpos, hrest⟩ := hnone p.1 p.2 hp
    have hrun : BodyEvent.run wrote junk p.1 (calls.map BodyEvent.ofCall) = some r' := by
      rw [List.map_cons, BodyEvent.run, BodyEvent.ofCall, BodyEvent.step, hp] at hrun
      exact hrun
    cases hends with
    | appended hwf' hcontent =>
      rw [ih hwf' hrest hrun, hcontent, List.append_assoc, ← List.map_append]
      rfl
    | refused hlength => exact absurd rfl (hpos hlength)

/-- A reset or a move leaves nothing. -/
private theorem used_of_boundary {past : List BodyEvent} (hpast : Boundary past)
    (hrun : BodyEvent.run wrote junk .new past = some r) : r.used = 0 := by
  rcases List.eq_nil_or_concat past with rfl | ⟨front, e, rfl⟩
  · cases hrun
    rfl
  · rw [List.concat_eq_append, run_append] at hrun
    obtain ⟨r₁, -, hlast⟩ := Option.bind_eq_some_iff.mp hrun
    rw [BodyEvent.run, Option.bind_eq_some_iff] at hlast
    obtain ⟨r₂, hstep, hnil⟩ := hlast
    cases hnil
    rcases hpast e (by simp) with rfl | rfl
    · cases hstep
      rfl
    · cases hstep
      unfold httpClientMoveResponseBody
      split
      · assumption
      · rfl

end Cells

/-- After any events: no copy has left the block; `used <= sz`, the size of the block; the next
call may be for any chunk, ends its growth loop with a size that is enough, and leaves nothing of
the body if it refuses the chunk; and if the events end with a response of which no chunk has been
refused, the body is this response, without a byte of an earlier one. -/
theorem responseBody_lossless (junk : ℕ → ℕ → UInt8) (es : List BodyEvent) :
    ∃ r, BodyEvent.run id junk .new es = some r ∧ r.WellFormed ∧
      (∀ chunk ok, ∃ r' n, httpResponseBodyWriteCallback id junk r chunk ok = some (r', n) ∧
        (0 < chunk.1.length → n = 0 → r'.used = 0) ∧
        (r.sz ≤ (r.sz + chunk.1.length) % 2 ^ 64 → Grows r.sz chunk.1.length)) ∧
      ∀ past calls r₀, es = past ++ calls.map BodyEvent.ofCall → Boundary past →
        BodyEvent.run id junk .new past = some r₀ → NoneRefused id junk r₀ calls →
          r.content = concatenation calls := by
  obtain ⟨r, hrun⟩ := run_total id junk .new es
  have hwf := wellFormed_of_run .new hrun
  refine ⟨r, hrun, hwf, fun chunk ok => ?_, ?_⟩
  · obtain ⟨⟨r', n⟩, hp, hends⟩ := httpResponseBodyWriteCallback_ends id junk hwf chunk ok
    refine ⟨r', n, hp, fun hpos hn => ?_,
      fun hsum => grows (add_lt_of_not_wrap hwf.sz_lt chunk.2 hsum)⟩
    cases hends with
    | appended _ _ => omega
    | refused _ => rfl
  · rintro past calls r₀ rfl hpast hr₀ hnone
    rw [run_append, hr₀] at hrun
    have hcontent := content_of_calls (wellFormed_of_run .new hr₀) hnone hrun
    rwa [content_eq_nil (used_of_boundary hpast hr₀), List.nil_append, List.map_id] at hcontent

end HiveSDK
