import HiveSDK.KeyValue.Log
import HiveSDK.Service.Healthy

/-!
# The walk over hostile data

`get_values` walks whatever the service has delivered. It keeps a pointer into the block and a
count of the bytes that are left; the header of an entry says how far to move, and nothing
about the header can be trusted.

`LoopHead` are the states in which the loop can come to its head, for any block and any
answers of the callback. In each of them the count is the number of bytes behind the pointer,
more than a header is left, and every iteration before has used up at least a header
(`LoopHead.spec`). So the walk stays inside the block and ends (`getValues_walk`).
-/

namespace HiveSDK.OneDrive

open Interaction C

/-! ### The block that is walked -/

/-- `get_values` up to its loop: the block to walk and its length, or the value returned
without a walk. -/
def getValuesBlock (key : Bytes) : M OneDriveConnect (Except ℤ (Bytes × ℤ)) := do
  let path := (snprintfPath KEYS_DIR key).1
  match sizeOrAbsent (← getFileLengthAt path).ssize with
  | .error rc => return .error rc
  | .ok dataLen =>
  if 0 < dataLen ∧ dataLen ≤ kvHeaderSize then
    return .error (toInt (hiveGeneralError HIVEERR_BAD_PERSISTENT_DATA))
  if dataLen = 0 then
    return .error 0
  if !(← malloc (toSize dataLen).toNat) then
    return .error (toInt (hiveGeneralError HIVEERR_OUT_OF_MEMORY))
  let (exit, buf) ← getFileToBufferAt path (List.replicate (toSize dataLen).toNat 0)
    (toSize dataLen).toNat
  if exit.ssize < 0 then
    return .error (toInt exit.ssize)
  if exit.ssize ≠ dataLen then
    return .error (toInt (hiveGeneralError HIVEERR_INVALID_PERSISTENCE_FILE))
  return .ok (buf, dataLen)

/-- `get_values` is its loop on that block. -/
theorem getValues_eq (key : Bytes) : getValues key = (do
    match ← getValuesBlock key with
    | .error rc => return rc
    | .ok (buf, dataLen) => getValuesLoop key buf dataLen) := by
  unfold getValues getValuesBlock
  simp only [bind_assoc]
  refine bind_congr fun exit => ?_
  cases sizeOrAbsent exit.ssize with
  | error rc => rfl
  | ok dataLen =>
    simp only [getSized]
    split
    · rfl
    split
    · rfl
    simp only [bind_assoc]
    refine bind_congr fun made => ?_
    split
    · rfl
    simp only [bind_assoc]
    refine bind_congr fun r => ?_
    obtain ⟨exit, buf⟩ := r
    simp only
    split
    · rfl
    split
    · rfl
    · rfl

section Block

variable {s : Thread OneDriveConnect} {tr : List CallEvent}

/-- What `get_values` takes for the size of the file is not negative, and is the number it was
given unless that is read as an absent file. -/
private theorem sizeOrAbsent_eq_ok {size dataLen : ℤ} (h : sizeOrAbsent size = .ok dataLen) :
    0 ≤ dataLen ∧ (dataLen = 0 ∨ dataLen = size) := by
  unfold sizeOrAbsent at h
  split at h
  · cases h
    exact ⟨le_rfl, .inl rfl⟩
  split at h
  · cases h
  · cases h
    exact ⟨not_lt.mp ‹_›, .inr rfl⟩

private theorem hiveGeneralError_lt (code : ℤ) : hiveGeneralError code < 2 ^ 32 :=
  hiveMkError_lt (by decide) code

/-- Every number that `__get_file_length` returns is one of type `ssize_t`. -/
private theorem getFileLengthAt_lt (path : Bytes) :
    Script.wp playback anyFault (getFileLengthAt path) (fun exit _ _ => exit.ssize < 2 ^ 63)
      s tr := by
  have hmemory := hiveGeneralError_lt HIVEERR_OUT_OF_MEMORY
  unfold getFileLengthAt
  simp only [Script.wp_bind, Script.wp_ite, Script.wp_ask, Script.wp_pure]
  refine Script.wp_mono Script.wp_true (fun _ _ h => h) fun rc s₁ tr₁ _ => ⟨fun hneg => ?_, ?_⟩
  · exact hneg.trans (by norm_num)
  rintro _ created tr₁ rfl
  refine ⟨fun _ => by rw [Exit.ssize_err]; omega, fun _ => ?_⟩
  refine Script.wp_mono (getFileInfo_playback path sizeQuery s₁ tr₁) (fun _ _ _ => trivial) ?_
  rintro (rc | json) s₂ tr₂ hinfo
  · exact hinfo.1.trans (by norm_num)
  · cases hsize : announcedSize json with
    | none => simp only [hsize, Script.wp_fault, anyFault]
    | some n =>
      obtain ⟨d, -, rfl⟩ := Option.map_eq_some_iff.mp hsize
      simp only [hsize, Script.wp_pure]
      exact d.toLong_lt

/-- A download leaves the block as long as it was. -/
private theorem length_getFileToBufferAt (path block : Bytes) (buflen : ℕ) :
    Script.wp playback anyFault (getFileToBufferAt path block buflen)
      (fun r _ _ => r.2.length = block.length) s tr := by
  unfold getFileToBufferAt
  simp only [Script.wp_bind, Script.wp_ite, Script.wp_ask, Script.wp_pure]
  refine Script.wp_mono Script.wp_true (fun _ _ h => h) fun rc s₁ tr₁ _ => ⟨fun _ => trivial, ?_⟩
  rintro _ created tr₁ rfl
  refine ⟨fun _ => trivial, fun _ => ?_⟩
  refine Script.wp_mono Script.wp_true (fun _ _ h => h) ?_
  rintro (rc | json) s₂ tr₂ -
  · rfl
  cases hsize : announcedSize json with
  | none => simp only [hsize, Script.wp_fault, anyFault]
  | some n =>
    cases hurl : Json.nonemptyString? (json.getObjectItemCaseSensitive downloadUrlKey) with
    | none => simp only [hsize, hurl, Script.wp_fault, anyFault]
    | some url =>
      simp only [hsize, hurl, Script.wp_ite, Script.wp_bind, Script.wp_pure]
      refine ⟨fun _ => trivial, fun _ => ⟨fun _ => trivial, fun _ => ?_⟩⟩
      refine Script.wp_mono (downloadFile_playback url block s₂ tr₂) (fun _ _ _ => trivial) ?_
      rintro ⟨rc, block'⟩ _ _ ⟨reply, -, hroom, hblock, -⟩
      obtain rfl : block' = reply.received ++ block.drop reply.received.length := hblock
      have hlength : (reply.received ++ block.drop reply.received.length).length =
          block.length := by
        rw [List.length_append, List.length_drop]
        omega
      exact ⟨fun _ => hlength, fun _ => hlength⟩

/-- The loop is entered with a count that is the length of the block, and with more than a
header in it. -/
theorem getValuesBlock_spec (key : Bytes) :
    Script.wp playback anyFault (getValuesBlock key)
      (fun r _ _ => ∀ buf dataLen, r = .ok (buf, dataLen) →
        dataLen = buf.length ∧ kvHeaderSize < buf.length ∧ buf.length < 2 ^ 63) s tr := by
  unfold getValuesBlock
  simp only [Script.wp_bind]
  refine Script.wp_mono (getFileLengthAt_lt _) (fun _ _ h => h) fun exit s₁ tr₁ hexit => ?_
  cases hsize : sizeOrAbsent exit.ssize with
  | error rc =>
    intro buf dataLen h
    cases h
  | ok dataLen =>
    obtain ⟨hnonneg, hle⟩ := sizeOrAbsent_eq_ok hsize
    have hlt : dataLen < 2 ^ 63 := by
      rcases hle with rfl | rfl
      · norm_num
      · exact hexit
    have hnat : (toSize dataLen).toNat = dataLen.toNat := by
      rw [toSize_eq_self hnonneg (by omega)]
    simp only [Script.wp_ite, Script.wp_bind, Script.wp_ask, Script.wp_pure, hnat]
    refine ⟨by rintro _ _ _ ⟨⟩, fun hlong => ⟨by rintro _ _ _ ⟨⟩, fun hne => ?_⟩⟩
    rintro made tr₂ rfl
    refine ⟨by rintro _ _ _ ⟨⟩, fun _ => ?_⟩
    refine Script.wp_mono (length_getFileToBufferAt _ _ _) (fun _ _ h => h) ?_
    rintro ⟨exit', buf⟩ s₂ tr₃ hlength
    rw [List.length_replicate] at hlength
    refine ⟨by rintro _ _ _ ⟨⟩, fun _ => ⟨by rintro _ _ _ ⟨⟩, fun _ => ?_⟩⟩
    rintro _ _ ⟨⟩
    have hlength' : buf.length = dataLen.toNat := hlength
    have hheader : ¬dataLen ≤ kvHeaderSize := fun hle => hlong ⟨by omega, hle⟩
    refine ⟨by omega, by omega, by omega⟩

end Block

/-! ### The loop -/

/-- The bytes an entry takes up, as its header has it. -/
def entryLength (kv : Bytes) : ℕ := kvHeaderSize + ntohl kv

/-- `data_len -= entry_len;` -/
def remainder (kv : Bytes) (dataLen : ℤ) : ℤ := toLong (dataLen - entryLength kv)

/-- The remainders the loop does not go on with. -/
def BadRemainder (dataLen : ℤ) : Prop := dataLen < 0 ∨ 0 < dataLen ∧ dataLen ≤ kvHeaderSize

/-- `LoopHead buf n kv dataLen`: in the walk over `buf`, after `n` iterations the loop can be at
its head with the bytes from the pointer on being `kv` and the count `dataLen`. -/
inductive LoopHead (buf : Bytes) : ℕ → Bytes → ℤ → Prop
  | first : LoopHead buf 0 buf buf.length
  | next {n : ℕ} {kv : Bytes} {dataLen : ℤ} (h : LoopHead buf n kv dataLen)
      (hvalue : ntohl kv ≤ HIVE_MAX_VALUE_LEN) (hrest : ¬BadRemainder (remainder kv dataLen))
      (hmore : remainder kv dataLen ≠ 0) :
      LoopHead buf (n + 1) (kv.drop (entryLength kv)) (remainder kv dataLen)

/-- What holds whenever the loop is at its head. -/
structure HeadInside (buf : Bytes) (n : ℕ) (kv : Bytes) (dataLen : ℤ) : Prop where
  /-- The pointer is in the block, and the count is right. -/
  suffix : kv <:+ buf
  count : dataLen = kv.length
  /-- The header can be read, and more. -/
  header : kvHeaderSize < kv.length
  /-- The iterations before have used up a header each. -/
  used : kvHeaderSize * n + kv.length ≤ buf.length
  /-- The update of the count does not wrap. -/
  exact : ntohl kv ≤ HIVE_MAX_VALUE_LEN → remainder kv dataLen = dataLen - entryLength kv

/-- The remaining length is computed without overflow. -/
theorem remainder_eq {kv : Bytes} {dataLen : ℤ} (h₀ : 0 ≤ dataLen) (h₁ : dataLen < 2 ^ 63)
    (hvalue : ntohl kv ≤ HIVE_MAX_VALUE_LEN) : remainder kv dataLen = dataLen - entryLength kv := by
  have hlength : (entryLength kv : ℤ) ≤ 4 + 32 * 1024 := by
    unfold entryLength kvHeaderSize
    unfold HIVE_MAX_VALUE_LEN at hvalue
    omega
  exact toLong_eq_self (by omega) (by omega)

/-- Every head of the loop, by induction on the iterations. -/
theorem LoopHead.inside {buf : Bytes} (hheader : kvHeaderSize < buf.length)
    (hlt : buf.length < 2 ^ 63) {n : ℕ} {kv : Bytes} {dataLen : ℤ}
    (h : LoopHead buf n kv dataLen) : HeadInside buf n kv dataLen := by
  induction h with
  | first =>
    exact ⟨List.suffix_rfl, rfl, hheader, by omega, remainder_eq (by omega) (by omega)⟩
  | @next n kv dataLen _ hvalue hrest hmore ih =>
    have hle := ih.suffix.length_le
    have hcount := ih.count
    have hused := ih.used
    have hrem := ih.exact hvalue
    rw [hrem] at hrest hmore ⊢
    have hpos : (kvHeaderSize : ℤ) < dataLen - entryLength kv := by
      by_contra hle
      refine hrest ?_
      rcases lt_trichotomy (dataLen - entryLength kv) 0 with hneg | hzero | hpos
      · exact .inl hneg
      · exact absurd hzero hmore
      · exact .inr ⟨hpos, not_lt.mp hle⟩
    have hentry : kvHeaderSize ≤ entryLength kv := Nat.le_add_right _ _
    have hdrop : (kv.drop (entryLength kv)).length = kv.length - entryLength kv :=
      List.length_drop
    refine ⟨(List.drop_suffix _ _).trans ih.suffix, ?_, ?_, ?_, remainder_eq ?_ ?_⟩
    · omega
    · omega
    · rw [Nat.mul_succ]
      omega
    · omega
    · omega

/-! ### The walk -/

/-- The callback is called with these values and gives these answers. -/
def callbackEvents (key : Bytes) (calls : List (Bytes × Bool)) : List CallEvent :=
  calls.map fun c => ⟨.valuesCallback key c.1, c.2⟩

/-- The calls of the callback in a walk over `buf` that has made `n` iterations already: each is
made at the next head of the loop, with bytes of the block that lie behind the header there. -/
def CallsInside (buf : Bytes) (n : ℕ) (calls : List (Bytes × Bool)) : Prop :=
  ∀ k c, calls[k]? = some c → ∃ kv dataLen, LoopHead buf (n + k) kv dataLen ∧
    entryLength kv ≤ kv.length ∧ c.1 = (kv.drop kvHeaderSize).take (ntohl kv)

/-- No call, nothing outside. -/
theorem CallsInside.nil (buf : Bytes) (n : ℕ) : CallsInside buf n [] := by
  intro k c hc
  simp at hc

/-- One more entry inside the buffer. -/
theorem CallsInside.cons {buf : Bytes} {n : ℕ} {kv : Bytes} {dataLen : ℤ}
    (hhead : LoopHead buf n kv dataLen) (hentry : entryLength kv ≤ kv.length)
    {calls : List (Bytes × Bool)} (hcalls : CallsInside buf (n + 1) calls) (proceed : Bool) :
    CallsInside buf n (((kv.drop kvHeaderSize).take (ntohl kv), proceed) :: calls) := by
  intro k c hc
  cases k with
  | zero =>
    obtain rfl := Option.some.inj hc
    exact ⟨kv, dataLen, hhead, hentry, rfl⟩
  | succ k =>
    obtain ⟨kv', dataLen', hhead', hrest⟩ := hcalls k c hc
    rw [Nat.add_right_comm] at hhead'
    exact ⟨kv', dataLen', hhead', hrest⟩

/-- The loop from one of its heads on: it stays inside the block. The induction is on the bytes
that are left. -/
private theorem getValuesLoop_walk {key buf : Bytes} (hheader : kvHeaderSize < buf.length)
    (hlt : buf.length < 2 ^ 63) {n : ℕ} {kv : Bytes} {dataLen : ℤ}
    (hhead : LoopHead buf n kv dataLen) {s : Thread OneDriveConnect} {tr : List CallEvent} :
    Script.wp playback noFault (getValuesLoop key kv dataLen)
      (fun _ s' tr' => s' = s ∧ ∃ calls, tr = callbackEvents key calls ++ tr' ∧
        CallsInside buf n calls) s tr := by
  induction hlength : kv.length using Nat.strong_induction_on generalizing kv dataLen n tr with
  | _ length ih =>
    subst hlength
    obtain ⟨-, hcount, hlong, -, hexact⟩ := hhead.inside hheader hlt
    have stop : True ∧ ∃ calls, tr = callbackEvents key calls ++ tr ∧ CallsInside buf n calls :=
      ⟨trivial, [], rfl, .nil buf n⟩
    rw [getValuesLoop, dif_neg (by omega)]
    simp only [Script.wp_ite, Script.wp_pure]
    refine ⟨fun _ => stop, fun hvalue => ⟨fun _ => stop, fun hrest => ?_⟩⟩
    rw [not_lt] at hvalue
    have hrem : remainder kv dataLen = dataLen - entryLength kv := hexact hvalue
    have hgood : ¬BadRemainder (remainder kv dataLen) := hrest
    have hentry : entryLength kv ≤ kv.length := by
      by_contra hover
      exact hgood (.inl (by omega))
    refine ⟨fun hshort => absurd hentry hshort.not_ge, fun _ => ?_⟩
    simp only [Script.wp_bind, Script.wp_ask, Script.wp_ite, Script.wp_pure]
    rintro proceed tr' rfl
    refine ⟨fun _ => ⟨trivial, [_], rfl, .cons hhead hentry (.nil buf _) proceed⟩, fun hmore => ?_⟩
    have hne : remainder kv dataLen ≠ 0 := fun hzero => hmore (.inl hzero)
    have hnext := hhead.next hvalue hgood hne
    have hshorter : (kv.drop (entryLength kv)).length < kv.length := by
      have hpos : 0 < entryLength kv := Nat.lt_of_lt_of_le (by decide) (Nat.le_add_right 4 _)
      rw [List.length_drop]
      omega
    refine Script.wp_mono (ih _ hshorter hnext rfl) (fun _ _ h => h) ?_
    rintro rc s' tr'' ⟨rfl, calls, rfl, hcalls⟩
    exact ⟨rfl, _ :: calls, rfl, .cons hhead hentry hcalls proceed⟩

/-- What makes a walk over `buf` safe: every head of the loop is inside, and there are at most
as many heads as headers fit into the block. -/
structure WalkSafe (buf : Bytes) : Prop where
  inside : ∀ n kv dataLen, LoopHead buf n kv dataLen → HeadInside buf n kv dataLen
  bounded : ∀ n kv dataLen, LoopHead buf n kv dataLen → n < buf.length / kvHeaderSize

/-- The loop from the first entry of a buffer on. -/
private theorem walkSafe {buf : Bytes} (hheader : kvHeaderSize < buf.length)
    (hlt : buf.length < 2 ^ 63) : WalkSafe buf where
  inside _ _ _ h := h.inside hheader hlt
  bounded n kv dataLen h := by
    obtain ⟨-, -, hlong, hused, -⟩ := h.inside hheader hlt
    rw [Nat.lt_div_iff_mul_lt (by decide)]
    unfold kvHeaderSize at *
    omega

/-- Whatever the service delivers and the callback answers: a run of `get_values` ends before
the loop, by a return or in a fault, or it walks a block safely; then it returns, and has handed
out nothing but bytes of the block, one entry for each head of the loop. -/
theorem getValues_walk (key : Bytes) (s : Thread OneDriveConnect) (tr : List CallEvent) :
    Script.wp playback
      (fun e tr' => (getValuesBlock key s).Exec playback tr (.error e) tr')
      (getValues key)
      (fun rc s' tr' =>
        (getValuesBlock key s).Exec playback tr (.ok (.error rc, s')) tr' ∨
        ∃ buf mid calls,
          (getValuesBlock key s).Exec playback tr (.ok (.ok (buf, (buf.length : ℤ)), s')) mid ∧
          WalkSafe buf ∧ mid = callbackEvents key calls ++ tr' ∧ CallsInside buf 0 calls ∧
          calls.length ≤ buf.length / kvHeaderSize) s tr := by
  rw [getValues_eq, Script.wp_bind]
  refine Script.wp_mono (Script.wp_with_exec (getValuesBlock_spec key)) (fun e tr' h => h.2) ?_
  rintro (rc | ⟨buf, dataLen⟩) s' mid ⟨hblock, hexec⟩
  · exact .inl hexec
  obtain ⟨rfl, hheader, hlt⟩ := hblock buf dataLen rfl
  have hsafe := walkSafe hheader hlt
  refine Script.wp_mono (getValuesLoop_walk hheader hlt .first) (fun _ _ h => h.elim) ?_
  rintro rc s'' tr' ⟨rfl, calls, rfl, hcalls⟩
  refine .inr ⟨buf, _, calls, hexec, hsafe, rfl, hcalls, ?_⟩
  -- the last call is made at a head of the loop
  rcases Nat.eq_zero_or_pos calls.length with hzero | hpos
  · rw [hzero]
    exact Nat.zero_le _
  · obtain ⟨kv, dataLen, hhead, -⟩ := hcalls (calls.length - 1) _
      (List.getElem?_eq_getElem (by omega))
    have := hsafe.bounded _ kv dataLen hhead
    omega

end HiveSDK.OneDrive
