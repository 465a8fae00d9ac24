import HiveSDK.Service.Spec

/-!
# The log of a key

The file of a key is the concatenation of its entries, each value behind its length in four
bytes. `put_value` appends an entry to the bytes it has downloaded, and `get_values` walks
the entries of a download. On a log the walk never meets a malformed entry, never leaves the
block, and hands out the values in their order until the callback has had enough.
-/

namespace HiveSDK.OneDrive

open Interaction C

/-- The content of a file that holds `values`. -/
def entries (values : List Bytes) : Bytes := values.flatMap kvEntry

/-- A value the public operations let through. -/
structure ValidValue (value : Bytes) : Prop where
  nonempty : 0 < value.length
  length_le : value.length ≤ HIVE_MAX_VALUE_LEN

@[simp] theorem entries_nil : entries [] = [] := rfl

@[simp] theorem entries_cons (value : Bytes) (values : List Bytes) :
    entries (value :: values) = kvEntry value ++ entries values := rfl

/-- Appending values appends their entries. -/
theorem entries_append (values values' : List Bytes) :
    entries (values ++ values') = entries values ++ entries values' :=
  List.flatMap_append

/-- The file of a key is absent when there are no values. -/
theorem getD_entries {values : List Bytes} {file : Option Bytes}
    (h : file = if values = [] then none else some (entries values)) :
    file.getD [] = entries values := by
  subst h
  split
  · rename_i hnil
    rw [hnil]
    rfl
  · rfl

/-- What `htonl` writes, `ntohl` reads, whatever follows. -/
private theorem ntohl_htonl {n : ℕ} (hn : n < 2 ^ 32) (rest : Bytes) :
    ntohl (htonl n ++ rest) = n := by
  simp only [htonl, List.cons_append, List.nil_append, ntohl, UInt8.toNat_ofNat']
  omega

/-- An entry is a header and its value. -/
@[simp] theorem length_kvEntry (value : Bytes) :
    (kvEntry value).length = kvHeaderSize + value.length := by
  simp [kvEntry, htonl, kvHeaderSize]
  omega

/-- The header of an entry holds the length. -/
theorem ntohl_kvEntry {value : Bytes} (hvalue : value.length < 2 ^ 32) (rest : Bytes) :
    ntohl (kvEntry value ++ rest) = value.length := by
  rw [kvEntry, List.append_assoc, Nat.mod_eq_of_lt hvalue, ntohl_htonl hvalue]

/-- Behind the header stands the value. -/
theorem drop_kvEntry (value rest : Bytes) :
    (kvEntry value ++ rest).drop kvHeaderSize = value ++ rest := by
  simp [kvEntry, htonl, kvHeaderSize]

/-- Behind the entry stands the rest. -/
theorem drop_kvEntry_length (value rest : Bytes) :
    (kvEntry value ++ rest).drop (kvHeaderSize + value.length) = rest := by
  rw [← length_kvEntry, List.drop_left]

/-- A log that is not empty is longer than a header. -/
private theorem lt_length_entries {values : List Bytes} (hvalid : ∀ v ∈ values, ValidValue v)
    (hne : values ≠ []) : kvHeaderSize < (entries values).length := by
  cases values with
  | nil => exact absurd rfl hne
  | cons value values =>
    have hpos := (hvalid value List.mem_cons_self).nonempty
    rw [entries_cons, List.length_append, length_kvEntry]
    omega

/-! ### Walking the log -/

/-- What the callback is given for `values`, with its answers: every value in order, up to
one it answers with `false`. -/
inductive Delivered (key : Bytes) : List Bytes → List (Bytes × Bytes × Bool) → Prop
  | done : Delivered key [] []
  | stopped (value : Bytes) (values : List Bytes) :
      Delivered key (value :: values) [(key, value, false)]
  | next (value : Bytes) {values : List Bytes} {log : List (Bytes × Bytes × Bool)}
      (h : Delivered key values log) :
      Delivered key (value :: values) ((key, value, true) :: log)

section Spec

variable {S : Drive} {s : Thread OneDriveConnect} {w : World}

/-- The loop of `get_values` on a log: it returns 0 and has delivered the values. -/
theorem getValuesLoop_spec {key : Bytes} {values : List Bytes}
    (hvalid : ∀ v ∈ values, ValidValue v) (hne : values ≠ [])
    (hsize : (entries values).length < 2 ^ 63) :
    Script.wp S.handler (fun _ _ => False)
      (getValuesLoop key (entries values) (entries values).length)
      (fun rc s' w' => rc = 0 ∧ s' = s ∧
        ∃ log, Delivered key values log ∧ w' = w.deliver log) s w := by
  induction values generalizing w with
  | nil => exact absurd rfl hne
  | cons value values ih =>
    have hvalue := hvalid value List.mem_cons_self
    have hrest : ∀ v ∈ values, ValidValue v := fun v hv => hvalid v (List.mem_cons_of_mem _ hv)
    have hlen : (entries (value :: values)).length =
        kvHeaderSize + value.length + (entries values).length := by
      rw [entries_cons, List.length_append, length_kvEntry]
    have hlt : value.length < 2 ^ 32 := hvalue.length_le.trans_lt (by decide)
    have hread : ntohl (entries (value :: values)) = value.length := by
      rw [entries_cons, ntohl_kvEntry hlt]
    -- what is left behind the first entry is the length of the others
    have hleft : toLong (((entries (value :: values)).length : ℤ) -
        ((kvHeaderSize + value.length : ℕ) : ℤ)) = (entries values).length := by
      rw [hlen, toLong_eq_self (by omega) (by omega)]
      omega
    -- which is not between one byte and a header
    have hsmall : ¬(((entries values).length : ℤ) < 0 ∨ 0 < ((entries values).length : ℤ) ∧
        ((entries values).length : ℤ) ≤ kvHeaderSize) := by
      rcases eq_or_ne values [] with rfl | hvalues
      · simp
      · have := lt_length_entries hrest hvalues
        omega
    have hfront : ((entries (value :: values)).drop kvHeaderSize).take value.length = value := by
      rw [entries_cons, drop_kvEntry, List.take_left]
    rw [getValuesLoop, dif_neg (by omega)]
    simp only [hread, hleft, hfront, Script.wp_ite]
    refine ⟨fun h => absurd h hvalue.length_le.not_gt, fun _ => ⟨fun h => absurd h hsmall, fun _ =>
      ⟨fun h => absurd h (by omega), fun _ => ?_⟩⟩⟩
    simp only [Script.wp_bind, Script.wp_ask, Script.wp_ite, Script.wp_pure]
    rintro proceed _ rfl
    -- the last entry, or the callback may stop, or the loop goes on
    rcases eq_or_ne values [] with rfl | hvalues
    · refine ⟨fun _ => ⟨trivial, trivial, [(key, value, proceed)], ?_, rfl⟩, fun h => ?_⟩
      · cases proceed
        · exact .stopped value []
        · exact .next value .done
      · simp at h
    have hpos : entries values ≠ [] := by
      have hlt := lt_length_entries hrest hvalues
      rintro hnil
      simp [hnil] at hlt
    refine ⟨fun h => ?_, fun h => ?_⟩
    · obtain rfl : proceed = false := by simpa [hpos] using h
      exact ⟨trivial, trivial, [(key, value, false)], .stopped value values, rfl⟩
    · obtain rfl : proceed = true := by simpa [hpos] using h
      rw [entries_cons, drop_kvEntry_length]
      refine Script.wp_mono (ih hrest hvalues (by omega)) (fun _ _ h => h) ?_
      rintro rc s' w' ⟨rfl, rfl, log, hlog, rfl⟩
      exact ⟨rfl, rfl, (key, value, true) :: log, .next value hlog, by simp [World.deliver]⟩

/-- A key's file is not so long that a length is taken for an error. -/
def Bounded (files : Files) (path : Bytes) : Prop :=
  ∀ content, files path = some content → content.length < 2 ^ 31 + 2 ^ 16

/-- What `put_value` and `get_values` make of the result of `__get_file_length`. -/
theorem sizeOrAbsent_spec {path : Bytes} {exit : Exit} (hbounded : Bounded w.files path)
    (h : Sizes w.files path exit) :
    (∃ rc, sizeOrAbsent exit.ssize = .error rc ∧ rc < 0) ∨
      sizeOrAbsent exit.ssize = .ok ((w.files path).getD []).length := by
  have hnotFound := hiveHttpStatusError_notFound
  rcases h with ⟨rc, rfl, hfailed, habsent⟩ | ⟨content, hcontent, rfl⟩
  · unfold sizeOrAbsent
    rw [Exit.ssize_ret, hfailed.int]
    by_cases hnone : toUInt rc = hiveHttpStatusError HttpStatus_NotFound
    · exact .inr (by rw [if_pos hnone, habsent hnone]; rfl)
    · exact .inl ⟨rc, by rw [if_neg hnone, if_pos hfailed.neg], hfailed.neg⟩
  · have hlt := hbounded content hcontent
    unfold sizeOrAbsent
    rw [Exit.ssize_ret, toUInt_toInt, toUInt_eq_self (by omega) (by omega), if_neg (by omega),
      if_neg (by omega), hcontent]
    exact .inr rfl

theorem hiveGeneralError_outOfMemory :
    hiveGeneralError HIVEERR_OUT_OF_MEMORY = (2 ^ 31 + 1 * 2 ^ 24 + 2 : ℕ) :=
  hiveMkError_eq (by decide) (by decide)

/-- The error of a missing HTTP client is taken for a length. -/
theorem sizeOrAbsent_outOfMemory : sizeOrAbsent (hiveGeneralError HIVEERR_OUT_OF_MEMORY) =
    .ok (hiveGeneralError HIVEERR_OUT_OF_MEMORY) := by
  have hmemory := hiveGeneralError_outOfMemory
  have habsent : ¬Absent (toInt (hiveGeneralError HIVEERR_OUT_OF_MEMORY)) :=
    not_absent_hiveGeneralError (by decide)
  unfold sizeOrAbsent
  rw [if_neg habsent, if_neg (by omega)]

/-- A length that is the error of a missing HTTP client: `put_value` changes nothing. Whatever it
downloads is shorter, and as an `int` the error is negative. -/
private theorem putSized_unmeasured (hs : S.TokenValid s) {path : Bytes} (value : Bytes) {size : ℤ}
    (hsize : size = hiveGeneralError HIVEERR_OUT_OF_MEMORY) (hbounded : Bounded w.files path) :
    Script.wp S.handler anyFault (putSized path value size)
      (fun rc s' w' => s' = s ∧ rc < 0 ∧ w' = w) s w := by
  have hmemory := hiveGeneralError_outOfMemory
  have hint := toInt_hiveGeneralError_neg HIVEERR_OUT_OF_MEMORY
  rw [← hsize] at hmemory hint
  unfold putSized
  simp only [storeContent, Script.wp_bind, Script.wp_ask, Script.wp_ite, Script.wp_pure]
  rintro made w rfl
  refine ⟨fun _ => ⟨trivial, toInt_hiveGeneralError_neg _, rfl⟩, fun _ => ⟨fun _ => ?_,
    fun h => absurd (by omega) h⟩⟩
  refine Script.wp_mono (getFileToBufferAt_spec hs path _ _) (fun _ _ h => h) ?_
  rintro ⟨exit, block⟩ s w ⟨rfl, rfl, hread⟩
  have hnat : ((toSize size).toNat : ℤ) = size := by
    rw [toSize_eq_self (by omega) (by omega), Int.toNat_of_nonneg (by omega)]
  have hfits (content : Bytes) (hcontent : w.files path = some content) :
      content.length ≤ (toSize size).toNat := by
    have := hbounded content hcontent
    omega
  rcases hread.imp_right fun h => h.whole (by omega) hfits
    with hexit | ⟨rc, hrc, hfailed⟩ | ⟨content, hcontent, hexit, -⟩
  · have hneg := toInt_hiveGeneralError_neg HIVEERR_OUT_OF_MEMORY
    obtain rfl : exit = .err (hiveGeneralError HIVEERR_OUT_OF_MEMORY) := hexit
    exact ⟨fun _ => ⟨rfl, hneg, rfl⟩, fun h => absurd hneg h⟩
  · obtain rfl : exit = .ret rc := hrc
    rw [Exit.ssize_ret, hfailed.int]
    exact ⟨fun _ => ⟨rfl, hfailed.neg, rfl⟩, fun h => absurd hfailed.neg h⟩
  obtain rfl : exit = .ret content.length := hexit
  rw [Exit.ssize_ret]
  refine ⟨fun hneg => ⟨rfl, hneg, rfl⟩, fun hnonneg => ⟨fun _ => ?_, fun heq => ?_⟩⟩
  · exact ⟨rfl, toInt_hiveGeneralError_neg _, rfl⟩
  · rw [not_not] at heq
    rw [heq] at hnonneg
    exact absurd hint hnonneg

/-- With the right length, `put_value` uploads the old content with the entry behind. -/
theorem putSized_spec (hs : S.TokenValid s) {path value old : Bytes} (hvalue : ValidValue value)
    (hbounded : Bounded w.files path) (hold : (w.files path).getD [] = old) :
    Script.wp S.handler anyFault (putSized path value old.length)
      (fun rc s' w' => Writes path (some (old ++ kvEntry value)) s w rc s' w' ∧
        (rc = 0 → old.length < 2 ^ 31)) s w := by
  have failed {rc : ℤ} (hrc : rc < 0) : Writes path (some (old ++ kvEntry value)) s w rc s w ∧
      (rc = 0 → old.length < 2 ^ 31) :=
    ⟨⟨rfl, .inr ⟨hrc, rfl⟩⟩, fun h => absurd h hrc.ne⟩
  have hlen := hvalue.length_le
  have hlt : old.length < 2 ^ 31 + 2 ^ 16 := by
    cases hfile : w.files path with
    | none => simp [← hold, hfile]
    | some content =>
      rw [hfile, Option.getD_some] at hold
      exact hold ▸ hbounded content hfile
  have hsame {content : Bytes} (hcontent : w.files path = some content) :
      content.length = old.length := by
    rw [← hold, hcontent, Option.getD_some]
  have hnew : (toSize (toLong ((old.length : ℤ) + kvHeaderSize + value.length))).toNat =
      old.length + (kvHeaderSize + value.length) := by
    simp only [HIVE_MAX_VALUE_LEN, kvHeaderSize] at hlen ⊢
    rw [toLong_eq_self (by omega) (by omega), toSize_eq_self (by omega) (by omega)]
    omega
  have hbuf : (toSize (old.length : ℤ)).toNat = old.length := by
    rw [toSize_eq_self (by omega) (by omega), Int.toNat_natCast]
  -- the entry goes behind the old content, whether that was downloaded or is empty
  have happend : memcpy (old ++ List.replicate (kvHeaderSize + value.length) 0) old.length
      (kvEntry value) = some (old ++ kvEntry value) := by
    rw [memcpy_append, length_kvEntry, List.length_replicate, if_pos le_rfl,
      List.drop_eq_nil_of_le (by simp), List.append_nil]
  have upload (hshort : old.length < 2 ^ 31) :
      Script.wp S.handler anyFault (putFileFromBufferAt path (old ++ kvEntry value))
        (fun rc s' w' => Writes path (some (old ++ kvEntry value)) s w rc s' w' ∧
          (rc = 0 → old.length < 2 ^ 31)) s w :=
    Script.wp_mono (putFileFromBufferAt_spec hs path _) (fun _ _ h => h)
      fun _ _ _ h => ⟨h, fun _ => hshort⟩
  unfold putSized
  simp only [storeContent, storeEntry, hnew, hbuf, Script.wp_bind, Script.wp_ask, Script.wp_ite,
    Script.wp_pure]
  rintro made _ rfl
  refine ⟨fun _ => failed (by simp), fun _ => ⟨fun hpos => ?_, fun hzero => ?_⟩⟩
  · refine Script.wp_mono (getFileToBufferAt_spec hs path _ _) (fun _ _ h => h) ?_
    rintro ⟨exit, block⟩ s _ ⟨rfl, rfl, hread⟩
    rcases hread.imp_right fun h => h.whole (by omega) fun _ h => (hsame h).le
      with hexit | ⟨rc, hrc, hfailed⟩ | ⟨content, hcontent, hexit, hblock⟩
    · have hneg := toInt_hiveGeneralError_neg HIVEERR_OUT_OF_MEMORY
      obtain rfl : exit = .err (hiveGeneralError HIVEERR_OUT_OF_MEMORY) := hexit
      exact ⟨fun _ => failed hneg, fun h => absurd hneg h⟩
    · obtain rfl : exit = .ret rc := hrc
      simp only [Exit.ssize_ret, hfailed.int]
      exact ⟨fun _ => failed hfailed.neg, fun h => absurd hfailed.neg h⟩
    obtain rfl : content = old := by rw [← hold, hcontent, Option.getD_some]
    obtain rfl : exit = .ret content.length := hexit
    obtain rfl : block = content ++ List.replicate (kvHeaderSize + value.length) 0 := by
      have hrest : block = content ++ (List.replicate _ 0).drop content.length := hblock
      rw [hrest, List.drop_replicate, Nat.add_sub_cancel_left]
    simp only [Exit.ssize_ret, ne_eq, not_true_eq_false, false_imp_iff, true_and,
      Int.toNat_natCast, happend]
    refine ⟨fun hneg => failed hneg, fun hnonneg _ => upload ?_⟩
    -- a length of 2 ^ 31 and more is negative as an `int`
    by_contra hlong
    rw [toInt_eq_sub (by omega) (by omega)] at hnonneg
    omega
  · obtain rfl : old = [] := by simpa using hzero
    have hzeros : memcpy (List.replicate (([] : Bytes).length + (kvHeaderSize + value.length)) 0)
        (([] : Bytes).length : ℤ).toNat (kvEntry value) = some ([] ++ kvEntry value) := by
      simpa using happend
    simp only [hzeros]
    exact upload (by simp)

/-- A value put is appended to the log, or nothing changes. -/
theorem putValue_spec (hs : S.TokenValid s) {path key value : Bytes}
    (hpath : (snprintfPath KEYS_DIR key).1 = path) (hvalue : ValidValue value)
    (hbounded : Bounded w.files path) :
    Script.wp S.handler anyFault (putValue key value)
      (fun rc s' w' => Writes path (some ((w.files path).getD [] ++ kvEntry value)) s w rc s' w' ∧
        (rc = 0 → ((w.files path).getD []).length < 2 ^ 31)) s w := by
  unfold putValue
  simp only [hpath, Script.wp_bind]
  refine Script.wp_mono (getFileLengthAt_spec hs path) (fun _ _ h => h) ?_
  rintro exit s w ⟨rfl, rfl, rfl | hexit⟩
  · rw [Exit.ssize_err, sizeOrAbsent_outOfMemory]
    refine Script.wp_mono (putSized_unmeasured hs value rfl hbounded) (fun _ _ h => h) ?_
    rintro rc s' w' ⟨rfl, hrc, rfl⟩
    exact ⟨⟨rfl, .inr ⟨hrc, rfl⟩⟩, fun h => absurd h hrc.ne⟩
  rcases sizeOrAbsent_spec hbounded hexit with ⟨rc, hsize, hrc⟩ | hsize
  · simp only [hsize, Script.wp_pure]
    exact ⟨⟨rfl, .inr ⟨hrc, rfl⟩⟩, fun h => absurd h hrc.ne⟩
  · rw [hsize]
    exact putSized_spec hs hvalue hbounded rfl

/-- A value set is the only one of the log, or nothing changes. -/
theorem setValue_spec (hs : S.TokenValid s) {path key : Bytes} (value : Bytes)
    (hpath : (snprintfPath KEYS_DIR key).1 = path) :
    Script.wp S.handler anyFault (setValue key value) (Writes path (some (kvEntry value)) s w)
      s w := by
  unfold setValue
  simp only [hpath, Script.wp_bind, Script.wp_ask, Script.wp_ite, Script.wp_pure]
  rintro made w ⟨rfl⟩
  exact ⟨fun _ => ⟨rfl, .inr ⟨by simp, rfl⟩⟩, fun _ => putFileFromBufferAt_spec hs path _⟩

/-- A key deleted has no file, or nothing changes. -/
theorem deleteKey_spec (hs : S.TokenValid s) {path key : Bytes}
    (hpath : (snprintfPath KEYS_DIR key).1 = path) :
    Script.wp S.handler anyFault (deleteKey key) (Writes path none s w) s w := by
  unfold deleteKey
  simp only [hpath, Script.wp_bind, Script.wp_ite, Script.wp_pure]
  refine Script.wp_mono (deleteFileAt_spec hs path) (fun _ _ h => h) ?_
  rintro rc s₁ w₁ ⟨⟨rfl, hwrites⟩, habsent⟩
  refine ⟨fun hfailed => ⟨rfl, hwrites⟩, fun hdone => ⟨rfl, .inl ⟨rfl, ?_⟩⟩⟩
  rcases hwrites with ⟨-, hdeleted⟩ | ⟨hneg, hsame⟩
  · exact hdeleted
  · -- a 404: the file was absent
    have hnone := habsent (not_not.mp fun h => hdone ⟨hneg, h⟩)
    rw [hsame, World.setFile, ← hnone, Function.update_eq_self]

/-! ### Two clients refused -/

/-- Neither the length of a file nor its content can be asked for. -/
def Misread (refused : List HttpClientUser) : Prop :=
  .getFileLength ∈ refused ∧ .getFileToBuffer ∈ refused

/-- How `get_values` ends: with the values of the log delivered, or with an error and none; but
with both its HTTP clients refused the two errors agree, and an empty value is delivered that
nobody has put. -/
inductive GetsLog (key : Bytes) (values : List Bytes) (s : Thread OneDriveConnect) (w : World)
    (rc : ℤ) (s' : Thread OneDriveConnect) (v : World × List HttpClientUser) : Prop
  | failed (hs : s' = s) (hrc : rc < 0) (hw : v.1 = w) (h : ¬Misread v.2) :
      GetsLog key values s w rc s' v
  | delivered (hs : s' = s) (hrc : rc = 0) (log : List (Bytes × Bytes × Bool))
      (hlog : Delivered key values log) (hw : v.1 = w.deliver log) (h : ¬Misread v.2) :
      GetsLog key values s w rc s' v
  | misread (proceed : Bool) (rest : List (Bytes × Bytes × Bool))
      (hw : v.1.delivered = w.delivered ++ (key, [], proceed) :: rest) (h : Misread v.2) :
      GetsLog key values s w rc s' v

/-- The walk over a block of zeros begins with an empty value. -/
theorem getValuesLoop_zeros (key : Bytes) {n : ℕ} (hmore : 2 * kvHeaderSize < n)
    (hlt : n < 2 ^ 63) : getValuesLoop key (List.replicate n 0) n = (do
      let proceed ← valuesCallback key []
      if !proceed then
        return 0
      getValuesLoop key (List.replicate (n - kvHeaderSize) 0) ((n - kvHeaderSize : ℕ) : ℤ)) := by
  have hread : ntohl (List.replicate n 0) = 0 := by
    obtain ⟨m, rfl⟩ : ∃ m, n = m + 4 := ⟨n - 4, by simp only [kvHeaderSize] at hmore; omega⟩
    simp [List.replicate_succ, ntohl]
  have hleft : toLong ((n : ℤ) - (kvHeaderSize : ℕ)) = (n - kvHeaderSize : ℕ) := by
    rw [toLong_eq_self (by omega) (by omega)]
    omega
  have hsmall : ¬(((n - kvHeaderSize : ℕ) : ℤ) < 0 ∨ 0 < ((n - kvHeaderSize : ℕ) : ℤ) ∧
      ((n - kvHeaderSize : ℕ) : ℤ) ≤ kvHeaderSize) := by omega
  have hblock : ¬(List.replicate n (0 : UInt8)).length < kvHeaderSize := by
    rw [List.length_replicate]
    omega
  have hnext : ((n - kvHeaderSize : ℕ) : ℤ) ≠ 0 := by omega
  rw [getValuesLoop, dif_neg hblock]
  simp only [hread, Nat.add_zero, hleft, hsmall, hnext, Nat.not_lt_zero, if_false, hblock,
    List.take_zero, List.drop_replicate, false_or]

/-- The walk asks for no HTTP client. -/
private theorem getValuesLoop_clientless {key kv : Bytes} {dataLen : ℤ} :
    (getValuesLoop key kv dataLen).Within Call.Clientless fun _ => True := by
  induction hlength : kv.length using Nat.strong_induction_on generalizing kv dataLen with
  | _ n ih =>
    unfold getValuesLoop
    split
    · exact .fault trivial
    rename_i hheader
    refine .ite (.pure _) (.ite (.pure _) (.ite (.fault trivial) ?_))
    refine .bind (.ask trivial) fun proceed => .ite (.pure _) (ih _ ?_ rfl)
    rw [List.length_drop]
    simp only [kvHeaderSize] at hheader ⊢
    omega

/-- The environment only adds to what has been delivered. -/
private theorem delivered_extends {w w' : World} {i : Call} {r : i.Reply} (h : S.handler w i r w') :
    w.delivered <+: w'.delivered := by
  cases i with
  | httpClientPerform request =>
    obtain ⟨-, files, -, rfl⟩ := h
    exact List.prefix_rfl
  | gettimeofday => exact h.2 ▸ List.prefix_rfl
  | valuesCallback key value =>
    obtain rfl : w' = w.deliver [(key, value, r)] := h
    exact List.prefix_append _ _
  | openFile path mode =>
    cases mode with
    | readOnly => exact h.2 ▸ List.prefix_rfl
    | writeTruncate =>
      obtain rfl : w' = if r = .ok () then w.setDisk path (some []) else w := h
      split <;> exact List.prefix_rfl
    | writeExclusive =>
      obtain ⟨-, rfl⟩ := h
      split <;> exact List.prefix_rfl
  | lseekEnd path => exact h.2 ▸ List.prefix_rfl
  | read path size => exact h.2 ▸ List.prefix_rfl
  | write path data =>
    cases r with
    | ok n =>
      rw [h.2]
      exact List.prefix_rfl
    | error e =>
      obtain rfl : w' = w := h
      exact List.prefix_rfl
  | unlink path =>
    obtain rfl : w' = if r = .ok () then w.setDisk path none else w := h
    split <;> exact List.prefix_rfl
  | _ =>
    obtain rfl : w' = w := h
    exact List.prefix_rfl

/-- What has been delivered and what has been refused stays so. -/
private theorem wp_refusing_extends {α : Type} (m : M OneDriveConnect α)
    (v : World × List HttpClientUser) :
    Script.wp S.refusing anyFault m
      (fun _ _ v' => v.1.delivered <+: v'.1.delivered ∧ v.2 <+: v'.2) s v := by
  refine Script.wp_mono (Script.wp_steps
    (R := fun v v' => v.1.delivered <+: v'.1.delivered ∧ v.2 <+: v'.2) (fun _ => ?_) ?_ ?_)
    (fun _ _ _ => trivial) fun _ _ _ h => h
  · exact ⟨List.prefix_rfl, List.prefix_rfl⟩
  · exact fun _ _ _ h h' => ⟨h.1.trans h'.1, h.2.trans h'.2⟩
  · rintro ⟨w, refused⟩ i r ⟨w', _⟩ ⟨hw, rfl⟩
    exact ⟨delivered_extends hw, List.prefix_append _ _⟩

/-- A length that is the error of a missing HTTP client: what is downloaded is shorter, unless
there is no client for the download either. -/
private theorem getSized_unmeasured (hs : S.TokenValid s) {path key : Bytes} {values : List Bytes}
    {size : ℤ} (hsize : size = hiveGeneralError HIVEERR_OUT_OF_MEMORY)
    (hbounded : Bounded w.files path) :
    Script.wp S.refusing anyFault (getSized path key size) (GetsLog key values s w) s
      (w, [.getFileLength]) := by
  have hmemory := hiveGeneralError_outOfMemory
  rw [← hsize] at hmemory
  have hclient : ¬Misread [.getFileLength] := by
    rintro ⟨-, h⟩
    simp at h
  have failed {rc : ℤ} (hrc : rc < 0) : GetsLog key values s w rc s (w, [.getFileLength]) :=
    .failed rfl hrc rfl hclient
  -- the error is taken for a size, and `get_values` allocates a block for it
  have hsmall : ¬(0 < size ∧ size ≤ kvHeaderSize) := by
    simp only [kvHeaderSize]
    omega
  have hzero : size ≠ 0 := by omega
  have hnat : ((toSize size).toNat : ℤ) = size := by
    rw [toSize_eq_self (by omega) (by omega), Int.toNat_of_nonneg (by omega)]
  unfold getSized
  generalize (toSize size).toNat = n at hnat ⊢
  have hshorter {content : Bytes} (hcontent : w.files path = some content) :
      content.length < n := by
    have := hbounded content hcontent
    omega
  simp only [hsmall, hzero, if_false, Script.wp_bind, Script.wp_ask, Script.wp_ite, Script.wp_pure]
  -- the block is there; the second client fails too, or the whole file is read
  rintro made ⟨_, refused⟩ ⟨rfl, hmade⟩
  obtain rfl : refused = [.getFileLength] := hmade
  refine ⟨fun _ => failed (toInt_hiveGeneralError_neg _), fun _ => ?_⟩
  refine Script.wp_mono (getFileToBufferAt_refusing hs path _ _) (fun _ _ h => h) ?_
  rintro ⟨exit, block⟩ s ⟨_, refused⟩ ⟨rfl, rfl, ⟨hread, hrefused⟩ | ⟨hrefused, hread⟩⟩
  · -- the two errors agree, and the block is still zero
    obtain rfl : refused = [.getFileLength, .getFileToBuffer] := hrefused
    obtain ⟨rfl, rfl⟩ := Prod.mk.inj hread
    rw [Exit.ssize_err, ← hsize, ← hnat, getValuesLoop_zeros key
      (by simp only [kvHeaderSize]; omega) (by omega)]
    refine ⟨fun h => absurd h (by omega), fun _ => ⟨fun h => absurd rfl h, fun _ => ?_⟩⟩
    simp only [Script.wp_bind, Script.wp_ask]
    rintro proceed ⟨_, _⟩ ⟨rfl, rfl⟩
    refine Script.wp_mono (wp_refusing_extends _ _) (fun _ _ h => h) ?_
    rintro rc s' ⟨w', refused'⟩ ⟨⟨rest, hrest⟩, hkept⟩
    refine .misread proceed rest ?_ ⟨hkept.subset (by simp), hkept.subset (by simp)⟩
    rw [← hrest]
    simp [World.deliver]
  obtain rfl : refused = [.getFileLength] := hrefused
  rcases hread.whole (by omega) fun _ h => (hshorter h).le
    with ⟨rc, hrc, hfailed⟩ | ⟨content, hcontent, hexit, -⟩
  · obtain rfl : exit = .ret rc := hrc
    simp only [Exit.ssize_ret, hfailed.int]
    exact ⟨fun _ => failed hfailed.neg, fun h => absurd hfailed.neg h⟩
  · have hshort := hshorter hcontent
    obtain rfl : exit = .ret content.length := hexit
    rw [Exit.ssize_ret]
    refine ⟨fun h => absurd h (by omega), fun _ => ⟨fun _ => ?_, fun h => absurd ?_ h⟩⟩
    · exact failed (toInt_hiveGeneralError_neg _)
    · omega

/-- With the right length, the values of a log are delivered, or nothing is. -/
theorem getSized_spec (hs : S.TokenValid s) {path key : Bytes} {values : List Bytes}
    (hvalid : ∀ v ∈ values, ValidValue v)
    (hfile : w.files path = if values = [] then none else some (entries values))
    (hbounded : Bounded w.files path) :
    Script.wp S.refusing anyFault (getSized path key (entries values).length)
      (GetsLog key values s w) s (w, []) := by
  have hsame {content : Bytes} (hcontent : w.files path = some content) :
      content = entries values := by
    rw [← getD_entries hfile, hcontent, Option.getD_some]
  have hlt : (entries values).length < 2 ^ 31 + 2 ^ 16 := by
    by_cases hvalues : values = []
    · simp [hvalues]
    · exact hbounded _ (by rw [hfile, if_neg hvalues])
  have hnone : ¬Misread [] := fun h => by simp [Misread] at h
  have failed {rc : ℤ} (hrc : rc < 0) : GetsLog key values s w rc s (w, []) :=
    .failed rfl hrc rfl hnone
  -- the length survives its way through `size_t`
  have hbuf : (toSize ((entries values).length : ℤ)).toNat = (entries values).length := by
    rw [toSize_eq_self (by omega) (by omega), Int.toNat_natCast]
  unfold getSized
  simp only [hbuf, Script.wp_ite, Script.wp_bind, Script.wp_ask, Script.wp_pure]
  refine ⟨fun _ => failed (by simp), fun _ => ⟨fun hzero => ?_, fun hpos => ?_⟩⟩
  · have hnil : values = [] := by
      by_contra hvalues
      have := lt_length_entries hvalid hvalues
      omega
    subst hnil
    exact .delivered rfl rfl [] .done (by simp [World.deliver]) hnone
  have hvalues : values ≠ [] := by
    rintro rfl
    simp at hpos
  rintro made ⟨_, refused⟩ ⟨rfl, hmade⟩
  obtain rfl : refused = [] := hmade
  refine ⟨fun _ => failed (by simp), fun _ => ?_⟩
  refine Script.wp_mono (getFileToBufferAt_refusing hs path _ _) (fun _ _ h => h) ?_
  rintro ⟨exit, block⟩ s ⟨_, refused⟩ ⟨rfl, rfl, ⟨hread, hrefused⟩ | ⟨hrefused, hread⟩⟩
  · -- no client for the content: the error, narrowed to `int`, is negative
    have hmemory := hiveGeneralError_outOfMemory
    have hclient : ¬Misread [.getFileToBuffer] := fun h => by simp [Misread] at h
    obtain rfl : refused = [.getFileToBuffer] := hrefused
    obtain ⟨rfl, rfl⟩ := Prod.mk.inj hread
    rw [Exit.ssize_err]
    refine ⟨fun h => absurd h (by omega), fun _ => ⟨fun _ => ?_, fun h => absurd ?_ h⟩⟩
    · exact .failed rfl (toInt_hiveGeneralError_neg _) rfl hclient
    · omega
  obtain rfl : refused = [] := hrefused
  -- the content could not be asked for, or it has been sent
  rcases hread.whole (by omega) fun _ h => (hsame h ▸ le_rfl)
    with ⟨rc, hrc, hfailed⟩ | ⟨content, hcontent, hexit, hblock⟩
  · obtain rfl : exit = .ret rc := hrc
    simp only [Exit.ssize_ret, hfailed.int]
    exact ⟨fun _ => failed hfailed.neg, fun h => absurd hfailed.neg h⟩
  obtain rfl := hsame hcontent
  obtain rfl : exit = .ret (entries values).length := hexit
  obtain rfl : block = entries values := by
    -- the block had as many bytes as the file, all of which are replaced
    have hall : block = entries values ++ (List.replicate _ 0).drop (entries values).length :=
      hblock
    rw [hall, List.drop_replicate, Nat.sub_self, List.replicate_zero, List.append_nil]
  simp only [Exit.ssize_ret, ne_eq, not_true_eq_false, false_imp_iff, true_and]
  refine ⟨fun hneg => absurd hneg (Int.natCast_nonneg _).not_gt, fun _ _ => ?_⟩
  refine Script.wp_mono (getValuesLoop_clientless.wp_noted CallEvent.refused_of_clientless
    (getValuesLoop_spec hvalid hvalues (by omega))) (fun _ _ h => h.elim) ?_
  rintro rc s' ⟨w', refused⟩ ⟨⟨rfl, rfl, log, hlog, hw⟩, hrefused⟩
  obtain rfl : refused = [] := hrefused
  exact .delivered rfl rfl log hlog hw hnone

/-- The values of a log are delivered, or nothing is, unless two HTTP clients are refused. -/
theorem getValues_spec (hs : S.TokenValid s) {path key : Bytes} {values : List Bytes}
    (hpath : (snprintfPath KEYS_DIR key).1 = path) (hvalid : ∀ v ∈ values, ValidValue v)
    (hfile : w.files path = if values = [] then none else some (entries values))
    (hbounded : Bounded w.files path) :
    Script.wp S.refusing anyFault (getValues key) (GetsLog key values s w) s (w, []) := by
  have hold := getD_entries hfile
  unfold getValues
  simp only [hpath, Script.wp_bind]
  refine Script.wp_mono (getFileLengthAt_refusing hs path) (fun _ _ h => h) ?_
  rintro exit s ⟨_, refused⟩ ⟨rfl, rfl, ⟨rfl, hrefused⟩ | ⟨hrefused, hexit⟩⟩
  · obtain rfl : refused = [.getFileLength] := hrefused
    rw [Exit.ssize_err, sizeOrAbsent_outOfMemory]
    exact getSized_unmeasured hs rfl hbounded
  obtain rfl : refused = [] := hrefused
  rcases sizeOrAbsent_spec hbounded hexit with ⟨rc, hsize, hrc⟩ | hsize
  · simp only [hsize, Script.wp_pure]
    exact .failed rfl hrc rfl fun h => by simp [Misread] at h
  · rw [hsize, hold]
    exact getSized_spec hs hvalid hfile hbounded

end Spec

end HiveSDK.OneDrive
