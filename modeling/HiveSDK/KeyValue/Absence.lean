import HiveSDK.KeyValue.Refinement
import HiveSDK.Service.Expiring

/-!
# Keys taken to be absent

`put_value`, `get_values` and `delete_key` take a key to be absent when a certain number comes back
to them, the code of a 404. It comes back for two more reasons: the refresh that precedes the
question was answered 404, by a server that knows nothing of the key; or the file is there, and
its length, cut down to an `int`, is that number (`Misled`). Then a value replaces what was stored,
what was stored is not found, and a key is reported deleted that is not. For no other reason does
an operation go wrong (`KeyOperation.correct_iff`).
-/

namespace HiveSDK

open Interaction C OneDrive

/-- The path of the file of a key. -/
abbrev keyPath (key : Bytes) : Bytes := (snprintfPath KEYS_DIR key).1

/-- The file at `path` looks absent, and the service has not said so. -/
def Misled (files : Files) (path : Bytes) (tr : List CallEvent) : Prop :=
  RefreshNotFound tr ∨ ∃ content, files path = some content ∧
    (content.length : ℤ) % 2 ^ 32 = hiveHttpStatusError HttpStatus_NotFound ∧ LengthRead tr

/-- What misleads is a refresh answered as absent, or a length that reads so. -/
private theorem not_misled {files : Files} {path : Bytes} {tr : List CallEvent}
    (hrefresh : ¬RefreshNotFound tr) (hread : ¬LengthRead tr) : ¬Misled files path tr := by
  rintro (h | ⟨_, _, _, h⟩)
  · exact hrefresh h
  · exact hread h

/-- The user has been given a value. -/
def GivenValue (tr : List CallEvent) : Prop :=
  ∃ key value proceed, ⟨.valuesCallback key value, proceed⟩ ∈ tr

/-- Reading calls hand no value to the callback. -/
private theorem not_givenValue_of_reading {tr : List CallEvent} (h : ∀ e ∈ tr, e.1.Reading) :
    ¬GivenValue tr := by
  rintro ⟨key, value, proceed, hmem⟩
  exact h _ hmem

/-- What `put_value` and `get_values` make of the length of a file. -/
inductive Sized (files : Files) (path : Bytes) (new : List CallEvent) : Except ℤ ℤ → Prop
  | failed {rc : ℤ} (hrc : rc < 0) (h : ¬Misled files path new) : Sized files path new (.error rc)
  | misled (h : ∀ rest, Misled files path (new ++ rest)) : Sized files path new (.ok 0)
  | empty (h : (files path).getD [] = []) : Sized files path new (.ok 0)
  | outOfMemory (h : ∀ rest, ¬Misled files path (new ++ rest)) :
    Sized files path new (.ok (hiveGeneralError HIVEERR_OUT_OF_MEMORY))
  | sized {content : Bytes} (hfile : files path = some content) (hne : content ≠ [])
    (hlength : content.length < 2 ^ 63) (h : ∀ rest, ¬Misled files path (new ++ rest)) :
    Sized files path new (.ok content.length)

/-- The size of a measured file, or its absence. -/
theorem Measured.sized {files : Files} {path : Bytes} {new : List CallEvent} {exit : Exit}
    (h : Measured files path new exit) : Sized files path new (sizeOrAbsent exit.ssize) := by
  have hcode := hiveHttpStatusError_notFound
  unfold sizeOrAbsent
  cases h with
  | @refused rc hrc habsent hrefresh hread =>
    rw [Exit.ssize_ret, hrc.int, if_neg habsent, if_pos hrc.neg]
    exact .failed hrc.neg (not_misled hrefresh hread)
  | @mistaken rc hrc habsent hrefresh =>
    rw [Exit.ssize_ret, hrc.int, if_pos habsent]
    exact .misled fun rest => .inl (hrefresh rest)
  | @missing rc hrc habsent hfile =>
    rw [Exit.ssize_ret, hrc.int, if_pos habsent]
    exact .empty (by rw [hfile]; rfl)
  | outOfMemory hrefresh hread =>
    have hsize := sizeOrAbsent_outOfMemory
    unfold sizeOrAbsent at hsize
    rw [Exit.ssize_err, hsize]
    exact .outOfMemory fun rest => not_misled (hrefresh rest) (hread rest)
  | @measured content hfile hlength hrefresh hread =>
    rw [Exit.ssize_ret, toUInt_toInt, toUInt]
    by_cases hcoded : (content.length : ℤ) % 2 ^ 32 = hiveHttpStatusError HttpStatus_NotFound
    · rw [if_pos hcoded]
      exact .misled fun rest => .inr ⟨content, hfile, hcoded, hread rest⟩
    rw [if_neg hcoded, if_neg (by omega)]
    rcases eq_or_ne content [] with rfl | hne
    · exact .empty (by rw [hfile]; rfl)
    · refine .sized hfile hne hlength fun rest h => h.elim (hrefresh rest) ?_
      rintro ⟨content', hfile', hcoded', -⟩
      cases hfile.symm.trans hfile'
      exact hcoded hcoded'

namespace OneDrive

private theorem getSized_zero (key : Bytes) : getSized (keyPath key) key 0 = pure 0 := rfl

section Spec

variable {S : Drive} {s : Thread OneDriveConnect} {w : Files × List CallEvent} {files : Files}

/-- The query of the length over a service whose tokens may expire. -/
private theorem sizeOrAbsent_expiring (path : Bytes) :
    Script.wp (logged S.expiring) anyFault (getFileLengthAt path)
      (fun exit _ w' => w'.1 = w.1 ∧ ∃ new, w'.2 = w.2 ++ new ∧ (∀ e ∈ new, e.1.Reading) ∧
        Sized w.1 path new (sizeOrAbsent exit.ssize)) s w := by
  refine Script.wp_mono (Script.wp_and (getFileLengthAt_expiring path)
    (wp_reading (getFileLengthAt_reads path) fun _ h => h)) (fun _ _ _ => trivial) ?_
  rintro exit s₁ w₁ ⟨⟨hfiles, new, hnew, hmeasured⟩, -, new', hnew', hreading⟩
  obtain rfl := List.append_cancel_left (hnew.symm.trans hnew')
  exact ⟨hfiles, new, hnew, hreading, hmeasured.sized⟩

/-- The entry is uploaded behind what is in front of the block. -/
private theorem storeEntry_expiring {path value content : Bytes} {size : ℤ}
    (hsize : size = content.length) :
    Script.wp (logged S.expiring) anyFault
      (storeEntry path value size (content ++ List.replicate (kvHeaderSize + value.length) 0))
      (fun rc _ w' => Replaces path (content ++ kvEntry value) w rc w') s w := by
  have happend : memcpy (content ++ List.replicate (kvHeaderSize + value.length) 0) size.toNat
      (kvEntry value) = some (content ++ kvEntry value) := by
    rw [hsize, Int.toNat_natCast, memcpy_append, length_kvEntry, List.length_replicate,
      if_pos le_rfl, List.drop_eq_nil_of_le (by simp), List.append_nil]
  unfold storeEntry
  simp only [happend]
  exact putFileFromBufferAt_expiring path _

/-- A file without content, or taken for one, is replaced by the entry. -/
private theorem putSized_empty {path value : Bytes} (hvalue : ValidValue value) :
    Script.wp (logged S.expiring) anyFault (putSized path value 0)
      (fun rc _ w' => Replaces path (kvEntry value) w rc w') s w := by
  have hlen := hvalue.length_le
  simp only [HIVE_MAX_VALUE_LEN] at hlen
  have hnew : (toSize (toLong (0 + kvHeaderSize + value.length))).toNat =
      kvHeaderSize + value.length := by
    simp only [kvHeaderSize]
    rw [toLong_eq_self (by omega) (by omega), toSize_eq_self (by omega) (by omega)]
    omega
  unfold putSized
  simp only [hnew, Script.wp_bind, Script.wp_ask, Script.wp_ite, Script.wp_pure, lt_irrefl,
    false_imp_iff, true_and, not_false_eq_true, true_imp_iff]
  have hmemory := toInt_hiveGeneralError_neg HIVEERR_OUT_OF_MEMORY
  generalize toInt (hiveGeneralError HIVEERR_OUT_OF_MEMORY) = e at hmemory ⊢
  rintro made w₁ ⟨hfiles, hlog⟩
  have hmalloc : Recorded Call.Reading w.2 w₁.2 := hlog ▸ recorded_reading trivial
  refine ⟨fun _ => replaces_failed hmemory hfiles hmalloc, fun _ => ?_⟩
  have hnone : (0 : ℤ) = ([] : Bytes).length := rfl
  have hstore : Script.wp (logged S.expiring) anyFault (storeEntry path value 0
      ([] ++ List.replicate (kvHeaderSize + value.length) 0)) _ s w₁ := storeEntry_expiring hnone
  exact Script.wp_mono hstore (fun _ _ h => h) fun _ _ _ h => h.after hfiles hmalloc

/-- The block has been read, or it has not, and then nothing is uploaded. -/
private theorem storeContent_error {path value : Bytes} {size rc : ℤ} (hrc : rc < 0)
    {body : Bytes} :
    Script.wp (logged S.expiring) anyFault (storeContent path value size (.error rc))
      (fun rc _ w' => Replaces path body w rc w') s w :=
  replaces_failed hrc rfl ⟨[], by simp, by simp⟩

/-- An `ssize_t` below `2 ^ 63` that is not negative as an `int` leaves room for an entry. -/
private theorem blockSize {n len : ℕ} (hn : n < 2 ^ 63) (hshort : 0 ≤ toInt n)
    (hlen : len ≤ 32768) :
    (toSize (toLong ((n : ℤ) + kvHeaderSize + len))).toNat = n + (kvHeaderSize + len) := by
  have hroom : n < 2 ^ 63 - 2 ^ 31 := by
    unfold toInt at hshort
    rw [Int.bmod_def] at hshort
    split at hshort <;> omega
  simp only [kvHeaderSize]
  rw [toLong_eq_self (by omega) (by omega), toSize_eq_self (by omega) (by omega)]
  omega

/-- The entry goes behind the content of the file, or nothing is uploaded. -/
private theorem putSized_content {path value content : Bytes} (hvalue : ValidValue value)
    (hfile : w.1 path = some content) (hne : content ≠ []) (hlength : content.length < 2 ^ 63) :
    Script.wp (logged S.expiring) anyFault (putSized path value content.length)
      (fun rc _ w' => Replaces path (content ++ kvEntry value) w rc w') s w := by
  have hpos : (0 : ℤ) < content.length := by exact_mod_cast List.length_pos_iff.mpr hne
  unfold putSized
  simp only [Script.wp_bind, Script.wp_ask, Script.wp_ite, Script.wp_pure, hpos, not_true_eq_false,
    true_imp_iff, false_imp_iff, and_true]
  have hmemory := toInt_hiveGeneralError_neg HIVEERR_OUT_OF_MEMORY
  generalize toInt (hiveGeneralError HIVEERR_OUT_OF_MEMORY) = e at hmemory ⊢
  rintro made w₁ ⟨hfiles₁, hlog₁⟩
  have hmalloc : Recorded Call.Reading w.2 w₁.2 := hlog₁ ▸ recorded_reading trivial
  refine ⟨fun _ => replaces_failed hmemory hfiles₁ hmalloc, fun _ => ?_⟩
  refine Script.wp_mono (getFileToBufferAt_expiring path _ _) (fun _ _ h => h) ?_
  rintro ⟨exit, block⟩ s₂ w₂ ⟨hfiles₂, hlog₂, hfetches⟩
  have hafter {rc : ℤ} {w' : Files × List CallEvent}
      (h : Replaces path (content ++ kvEntry value) w₂ rc w') :
      Replaces path (content ++ kvEntry value) w rc w' :=
        (h.after hfiles₂ hlog₂).after hfiles₁ hmalloc
  have failed {rc : ℤ} (hrc : rc < 0) : Script.wp (logged S.expiring) anyFault
      (storeContent path value content.length (.error rc))
      (fun rc _ w' => Replaces path (content ++ kvEntry value) w rc w') s₂ w₂ :=
    Script.wp_mono (storeContent_error hrc) (fun _ _ h => h) fun _ _ _ h => hafter h
  dsimp only at hfetches
  cases hfetches with
  | failed hrc =>
    rw [Exit.ssize_ret, hrc.int]
    exact ⟨fun _ => failed hrc.neg, fun h => absurd hrc.neg h⟩
  | refused code =>
    rw [Exit.ssize_err]
    exact ⟨fun h => failed h, fun h => absurd (toInt_hiveGeneralError_neg code) h⟩
  | @fetched content' hfile' hroom =>
    rw [hfiles₁] at hfile'
    cases hfile.symm.trans hfile'
    rw [Exit.ssize_ret]
    refine ⟨fun h => failed h, fun hshort => ⟨fun h => absurd rfl h, fun _ => ?_⟩⟩
    -- the length is an `int` that is not negative, and the block is as long as it should be
    rw [blockSize hlength (not_lt.mp hshort) hvalue.length_le, List.drop_replicate,
      Nat.add_sub_cancel_left]
    exact Script.wp_mono (storeEntry_expiring rfl) (fun _ _ h => h) fun _ _ _ h => hafter h

/-- The code of an allocation that failed is no length that the file has as an `int`. -/
private theorem putSized_outOfMemory {path value body : Bytes} :
    Script.wp (logged S.expiring) anyFault
      (putSized path value (hiveGeneralError HIVEERR_OUT_OF_MEMORY))
      (fun rc _ w' => rc < 0 ∧ Replaces path body w rc w') s w := by
  have hmemory := hiveGeneralError_outOfMemory
  have hneg := toInt_hiveGeneralError_neg HIVEERR_OUT_OF_MEMORY
  have hinvalid := toInt_hiveGeneralError_neg HIVEERR_INVALID_PERSISTENCE_FILE
  have hpos : (0 : ℤ) < hiveGeneralError HIVEERR_OUT_OF_MEMORY := by omega
  unfold putSized
  simp only [Script.wp_bind, Script.wp_ask, Script.wp_ite, Script.wp_pure, hpos, not_true_eq_false,
    true_imp_iff, false_imp_iff, and_true]
  rintro made w₁ ⟨hfiles₁, hlog₁⟩
  have hmalloc : Recorded Call.Reading w.2 w₁.2 := hlog₁ ▸ recorded_reading trivial
  refine ⟨fun _ => ⟨hneg, replaces_failed hneg hfiles₁ hmalloc⟩, fun _ => ?_⟩
  refine Script.wp_mono (getFileToBufferAt_expiring path _ _) (fun _ _ h => h) ?_
  rintro ⟨exit, block⟩ s₂ w₂ ⟨hfiles₂, hlog₂, -⟩
  have failed {rc : ℤ} (hrc : rc < 0) : rc < 0 ∧ Replaces path body w rc w₂ :=
    ⟨hrc, (replaces_failed hrc hfiles₂ hlog₂).after hfiles₁ hmalloc⟩
  refine ⟨fun h => failed h, fun hnonneg => ⟨fun _ => failed hinvalid, fun heq => ?_⟩⟩
  exact absurd (not_not.mp heq ▸ hneg) hnonneg

/-- How `put_value` ends, by the calls `tr` it has made: with an error and nothing uploaded; with
the entry behind the old content, and then the length was not mistaken or there was nothing; or
with the entry alone. -/
inductive PutsValue (files : Files) (path entry : Bytes) (tr : List CallEvent) : ℤ → Files → Prop
  | failed {rc : ℤ} (hrc : rc < 0) (h : ¬Uploaded tr) : PutsValue files path entry tr rc files
  | appended (h : (files path).getD [] ≠ [] → ¬Misled files path tr) :
    PutsValue files path entry tr 0
      (Function.update files path (some ((files path).getD [] ++ entry)))
  | overwritten (hmisled : Misled files path tr) (huploaded : Uploaded tr) :
    PutsValue files path entry tr 0 (Function.update files path (some entry))

/-- An upload that replaces the file puts the value, given what was read before. -/
private theorem putsValue_of_replaces {files : Files} {path entry body : Bytes}
    {new : List CallEvent}
    {w₁ w' : Files × List CallEvent} {rc : ℤ} (h : Replaces path body w₁ rc w')
    (hfiles : w₁.1 = files) (hlog : w₁.2 = w.2 ++ new) (hnew : ¬Uploaded new)
    (hputs : ∀ more, Uploaded more → PutsValue files path entry (new ++ more) 0
      (Function.update files path (some body))) :
    ∃ tr, w'.2 = w.2 ++ tr ∧ PutsValue files path entry tr rc w'.1 := by
  obtain ⟨more, hmore, h⟩ := h
  refine ⟨new ++ more, by rw [hmore, hlog, List.append_assoc], ?_⟩
  rcases h with ⟨rfl, hfiles', huploaded⟩ | ⟨hrc, hfiles', huploaded⟩
  · rw [hfiles', hfiles]
    exact hputs more huploaded
  · rw [hfiles', hfiles]
    exact .failed hrc fun h => (uploaded_append.mp h).elim hnew huploaded

/-- What a put does over such a service, over every run. -/
private theorem putValue_expiring {key value : Bytes} (hvalue : ValidValue value) :
    Script.wp (logged S.expiring) anyFault (putValue key value)
      (fun rc _ w' => ∃ tr, w'.2 = w.2 ++ tr ∧
        PutsValue w.1 (keyPath key) (kvEntry value) tr rc w'.1) s w := by
  unfold putValue
  simp only [Script.wp_bind]
  refine Script.wp_mono (sizeOrAbsent_expiring (keyPath key)) (fun _ _ h => h) ?_
  rintro exit s₁ w₁ ⟨hfiles, new, hnew, hreading, hsized⟩
  have hspared := not_uploaded_of_reading hreading
  generalize sizeOrAbsent exit.ssize = size at hsized ⊢
  -- what the length was taken for decides what is uploaded
  cases hsized with
  | failed hrc _ =>
    simp only [Script.wp_pure]
    exact ⟨new, hnew, hfiles ▸ .failed hrc hspared⟩
  | misled h =>
    refine Script.wp_mono (putSized_empty hvalue) (fun _ _ h => h) fun rc _ w' hreplaces => ?_
    refine putsValue_of_replaces hreplaces hfiles hnew hspared fun more huploaded => ?_
    exact .overwritten (h more) (uploaded_append.mpr (.inr huploaded))
  | empty h =>
    refine Script.wp_mono (putSized_empty hvalue) (fun _ _ h => h) fun rc _ w' hreplaces => ?_
    refine putsValue_of_replaces hreplaces hfiles hnew hspared fun more _ => ?_
    have hputs : PutsValue w.1 (keyPath key) (kvEntry value) (new ++ more) 0
        (Function.update w.1 (keyPath key) (some ((w.1 (keyPath key)).getD [] ++ kvEntry value))) :=
      .appended fun hne => absurd h hne
    rwa [h, List.nil_append] at hputs
  | outOfMemory h =>
    -- an error number taken for a length, with which the put fails
    have hfailed : Script.wp (logged S.expiring) anyFault
        (putSized (keyPath key) value (hiveGeneralError HIVEERR_OUT_OF_MEMORY))
        (fun rc _ w' => rc < 0 ∧ Replaces (keyPath key) [] w₁ rc w') s₁ w₁ := putSized_outOfMemory
    refine Script.wp_mono hfailed (fun _ _ h => h) ?_
    rintro rc _ w' ⟨hrc, more, hmore, ⟨rfl, -, -⟩ | ⟨-, hfiles', hnot⟩⟩
    · exact absurd hrc (lt_irrefl 0)
    · refine ⟨new ++ more, by rw [hmore, hnew, List.append_assoc], ?_⟩
      rw [hfiles', hfiles]
      exact .failed hrc fun h => (uploaded_append.mp h).elim hspared hnot
  | @sized content hfile hne hlength h =>
    refine Script.wp_mono (putSized_content hvalue (hfiles ▸ hfile) hne hlength)
      (fun _ _ h => h) fun rc _ w' hreplaces => ?_
    refine putsValue_of_replaces hreplaces hfiles hnew hspared fun more _ => ?_
    have hputs : PutsValue w.1 (keyPath key) (kvEntry value) (new ++ more) 0
        (Function.update w.1 (keyPath key) (some ((w.1 (keyPath key)).getD [] ++ kvEntry value))) :=
      .appended fun _ => h more
    rwa [hfile, Option.getD_some] at hputs

/-- `set_value` does not ask what is there. -/
private theorem setValue_expiring (key value : Bytes) :
    Script.wp (logged S.expiring) anyFault (setValue key value)
      (fun rc _ w' => Replaces (keyPath key) (kvEntry value) w rc w') s w := by
  have hmemory := toInt_hiveGeneralError_neg HIVEERR_OUT_OF_MEMORY
  unfold setValue
  simp only [Script.wp_bind, Script.wp_ask, Script.wp_ite, Script.wp_pure]
  rintro made w₁ ⟨hfiles₁, hlog₁⟩
  have hmalloc : Recorded Call.Reading w.2 w₁.2 := hlog₁ ▸ recorded_reading trivial
  refine ⟨fun _ => replaces_failed hmemory hfiles₁ hmalloc, fun _ => ?_⟩
  exact Script.wp_mono (putFileFromBufferAt_expiring (keyPath key) (kvEntry value))
    (fun _ _ h => h) fun _ _ _ h => h.after hfiles₁ hmalloc

/-- The walk ends with an error, or the user has been given a value. -/
private theorem getValuesLoop_expiring (key kv : Bytes) (dataLen : ℤ) :
    Script.wp (logged S.expiring) anyFault (getValuesLoop key kv dataLen)
      (fun rc _ w' => ∃ new, w'.2 = w.2 ++ new ∧ (rc < 0 ∨ GivenValue new)) s w := by
  have hbad := toInt_hiveGeneralError_neg HIVEERR_BAD_PERSISTENT_DATA
  refine Script.wp_logged_of_record (F := anyFault)
    (Q := fun rc _ tr' => ∃ new, tr' = w.2 ++ new ∧ (rc < 0 ∨ GivenValue new)) ?_
  unfold getValuesLoop
  split
  · exact trivial
  dsimp only
  split
  · exact ⟨[], by simp, .inl hbad⟩
  split
  · exact ⟨[], by simp, .inl hbad⟩
  split
  · exact trivial
  simp only [Script.wp_bind, Script.wp_ask]
  rintro proceed tr rfl
  -- whatever comes later, the callback has been called
  refine Script.wp_mono (Script.wp_record_prefix Script.wp_true) (fun _ _ _ => trivial) ?_
  rintro rc s' tr' ⟨-, rest, rfl⟩
  exact ⟨_, List.append_assoc _ _ _,
    .inr ⟨_, _, _, List.mem_append_left _ (List.mem_singleton_self _)⟩⟩

/-- How `get_values` ends, by the calls `tr` it has made: with an error; with a value given to the
user; or with a file that has nothing in it, or is taken for one. -/
inductive GetsValues (files : Files) (path : Bytes) (tr : List CallEvent) : ℤ → Prop
  | failed {rc : ℤ} (hrc : rc < 0) (h : ¬Misled files path tr) : GetsValues files path tr rc
  | given {rc : ℤ} (hgiven : GivenValue tr) (h : ¬Misled files path tr) :
      GetsValues files path tr rc
  | nothing (hgiven : ¬GivenValue tr) (h : (files path).getD [] = [] ∨ Misled files path tr) :
    GetsValues files path tr 0

/-- Only a file that is empty, or taken for one, is read without an error and without a value. -/
private theorem getSized_expiring (key : Bytes) {dataLen : ℤ} (hne : dataLen ≠ 0) :
    Script.wp (logged S.expiring) anyFault (getSized (keyPath key) key dataLen)
      (fun rc _ w' => ∃ new, w'.2 = w.2 ++ new ∧ (rc < 0 ∨ GivenValue new)) s w := by
  have hbad := toInt_hiveGeneralError_neg HIVEERR_BAD_PERSISTENT_DATA
  have hmemory := toInt_hiveGeneralError_neg HIVEERR_OUT_OF_MEMORY
  have hinvalid := toInt_hiveGeneralError_neg HIVEERR_INVALID_PERSISTENCE_FILE
  unfold getSized
  simp only [Script.wp_bind, Script.wp_ask, Script.wp_ite, Script.wp_pure]
  refine ⟨fun _ => ⟨[], by simp, .inl hbad⟩, fun _ => ⟨fun h => absurd h hne, fun _ => ?_⟩⟩
  rintro made ⟨_, _⟩ ⟨-, rfl⟩
  refine ⟨fun _ => ⟨_, rfl, .inl hmemory⟩, fun _ => ?_⟩
  refine Script.wp_mono (getFileToBufferAt_expiring (keyPath key) _ _) (fun _ _ h => h) ?_
  rintro ⟨exit, block⟩ s₁ ⟨_, _⟩ ⟨-, ⟨read, rfl, -⟩, hfetches⟩
  refine ⟨fun hneg => ⟨_, List.append_assoc _ _ _, .inl ?_⟩, fun _ =>
    ⟨fun _ => ⟨_, List.append_assoc _ _ _, .inl hinvalid⟩, fun _ => ?_⟩⟩
  · cases hfetches with
    | failed hrc =>
      rw [Exit.ssize_ret, hrc.int]
      exact hrc.neg
    | refused code =>
      have hpos := le_hiveMkError HIVEF_GENERAL code
      rw [Exit.ssize_err, hiveGeneralError] at hneg
      omega
    | fetched =>
      rw [Exit.ssize_ret] at hneg
      omega
  · refine Script.wp_mono (getValuesLoop_expiring key block dataLen) (fun _ _ h => h) ?_
    rintro rc s₂ ⟨_, _⟩ ⟨walked, rfl, h⟩
    refine ⟨_, by rw [List.append_assoc, List.append_assoc], h.imp_right ?_⟩
    rintro ⟨k, v, proceed, hmem⟩
    exact ⟨k, v, proceed, by simp [hmem]⟩

/-- What a get does. -/
private theorem getValues_expiring (key : Bytes) :
    Script.wp (logged S.expiring) anyFault (getValues key)
      (fun rc _ w' => ∃ tr, w'.2 = w.2 ++ tr ∧ GetsValues w.1 (keyPath key) tr rc) s w := by
  unfold getValues
  simp only [Script.wp_bind]
  refine Script.wp_mono (sizeOrAbsent_expiring (keyPath key)) (fun _ _ h => h) ?_
  rintro exit s₁ ⟨files₁, _⟩ ⟨rfl, new, rfl, hreading, hsized⟩
  have hquiet := not_givenValue_of_reading hreading
  -- a length that is not zero is read on with, an error taken for one too
  have sized {dataLen : ℤ} (hne : dataLen ≠ 0)
      (h : ∀ rest, ¬Misled w.1 (keyPath key) (new ++ rest)) :
      Script.wp (logged S.expiring) anyFault (getSized (keyPath key) key dataLen)
        (fun rc _ w' => ∃ tr, w'.2 = w.2 ++ tr ∧ GetsValues w.1 (keyPath key) tr rc) s₁
          (w.1, w.2 ++ new) := by
    refine Script.wp_mono (getSized_expiring key hne) (fun _ _ h => h) ?_
    rintro rc s₂ ⟨_, _⟩ ⟨rest, rfl, hends⟩
    refine ⟨new ++ rest, List.append_assoc _ _ _, ?_⟩
    rcases hends with hrc | ⟨k, v, proceed, hmem⟩
    · exact .failed hrc (h rest)
    · exact .given ⟨k, v, proceed, List.mem_append_right _ hmem⟩ (h rest)
  have nothing (h : (w.1 (keyPath key)).getD [] = [] ∨ Misled w.1 (keyPath key) new) :
      Script.wp (logged S.expiring) anyFault (getSized (keyPath key) key 0)
        (fun rc _ w' => ∃ tr, w'.2 = w.2 ++ tr ∧ GetsValues w.1 (keyPath key) tr rc) s₁
          (w.1, w.2 ++ new) := by
    rw [getSized_zero]
    exact ⟨new, rfl, .nothing hquiet h⟩
  generalize sizeOrAbsent exit.ssize = size at hsized ⊢
  cases hsized with
  | failed hrc h =>
    simp only [Script.wp_pure]
    exact ⟨new, rfl, .failed hrc h⟩
  | misled h =>
    have hmisled := h []
    rw [List.append_nil] at hmisled
    exact nothing (.inr hmisled)
  | empty h => exact nothing (.inl h)
  | outOfMemory h =>
    have hpos := le_hiveMkError HIVEF_GENERAL HIVEERR_OUT_OF_MEMORY
    exact sized (by rw [hiveGeneralError]; omega) h
  | sized _ hne _ h => exact sized (by simpa using hne) h

/-- What a delete does: a refresh answered as absent counts as a deletion. -/
private theorem deleteKey_expiring (key : Bytes) :
    Script.wp (logged S.expiring) anyFault (deleteKey key)
      (fun rc _ w' => ∃ tr, w'.2 = w.2 ++ tr ∧
        (rc < 0 ∧ ¬RefreshNotFound tr ∨
          rc = 0 ∧ (w'.1 (keyPath key) = none ∧ ((w.1 (keyPath key)).isSome → ¬RefreshNotFound tr) ∨
            w'.1 = w.1 ∧ RefreshNotFound tr))) s w := by
  unfold deleteKey
  simp only [Script.wp_bind, Script.wp_ite, Script.wp_pure]
  refine Script.wp_mono (deleteFileAt_expiring (keyPath key)) (fun _ _ h => h) ?_
  rintro rc s₁ ⟨files₁, _⟩ ⟨new, rfl, ⟨rfl, hfiles, hrefresh⟩ | ⟨hneg, rfl, hends⟩⟩
  · refine ⟨fun h => absurd h.1 (lt_irrefl 0), fun _ => ⟨new, rfl, .inr ⟨trivial, .inl ⟨?_, ?_⟩⟩⟩⟩
    · rw [hfiles, Function.update_self]
    · exact fun _ => hrefresh
  · refine ⟨fun h => ⟨new, rfl, .inl ⟨hneg, ?_⟩⟩, fun h => ⟨new, rfl, .inr ⟨trivial, ?_⟩⟩⟩
    · rcases hends with ⟨habsent, -⟩ | ⟨habsent, -⟩ | ⟨-, hrefresh⟩
      · exact absurd habsent h.2
      · exact absurd habsent h.2
      · exact hrefresh
    · rcases hends with ⟨-, hrefresh⟩ | ⟨-, hnone⟩ | ⟨habsent, -⟩
      · exact .inr ⟨rfl, hrefresh⟩
      · refine .inl ⟨hnone, fun hsome => ?_⟩
        rw [hnone] at hsome
        cases hsome
      · exact absurd ⟨hneg, habsent⟩ h

end Spec

end OneDrive

namespace KeyOperation

/-- What a call that returns `rc` has done to the file of its key, and told of it. -/
def Correct (files files' : Files) (tr : List CallEvent) (rc : ℤ) : KeyOperation → Prop
  | put key value =>
    (rc = 0 → files' (keyPath key) = some ((files (keyPath key)).getD [] ++ kvEntry value)) ∧
      (rc ≠ 0 → files' (keyPath key) = files (keyPath key))
  | set key value =>
    (rc = 0 → files' (keyPath key) = some (kvEntry value)) ∧
      (rc ≠ 0 → files' (keyPath key) = files (keyPath key))
  | get key => rc = 0 → ¬GivenValue tr → (files (keyPath key)).getD [] = []
  | delete key => rc = 0 → files' (keyPath key) = none

/-- There is something at the key, the call is misled about it, and goes on. -/
def Misjudges (files : Files) (tr : List CallEvent) : KeyOperation → Prop
  | put key _ =>
    (files (keyPath key)).getD [] ≠ [] ∧ Misled files (keyPath key) tr ∧ Uploaded tr
  | set _ _ => False
  | get key => (files (keyPath key)).getD [] ≠ [] ∧ Misled files (keyPath key) tr
  | delete key => (files (keyPath key)).isSome ∧ RefreshNotFound tr

section Spec

variable {S : Drive} {s : Thread OneDriveConnect} {files : Files}

/-- Nothing has happened that could mislead. -/
private theorem not_misled_nil {path : Bytes} : ¬Misled files path [] :=
  not_misled not_refreshNotFound_nil not_lengthRead_nil

/-- A put is correct exactly when it is not misled. -/
private theorem put_correct_iff {key value : Bytes} {tr : List CallEvent} {rc rc' : ℤ}
    {files' : Files}
    (hputs : PutsValue files (keyPath key) (kvEntry value) tr rc files')
    (hneg : rc < 0 → rc' = -1) (hzero : ¬rc < 0 → rc' = 0) :
    (put key value).Correct files files' tr rc' ↔ ¬(put key value).Misjudges files tr := by
  simp only [Correct, Misjudges]
  cases hputs with
  | failed hrc h =>
    obtain rfl := hneg hrc
    refine iff_of_true ⟨fun h => absurd h (by norm_num), fun _ => rfl⟩ fun hmis => h hmis.2.2
  | appended h =>
    obtain rfl := hzero (lt_irrefl 0)
    refine iff_of_true ⟨fun _ => Function.update_self .., fun h => absurd rfl h⟩ fun hmis => ?_
    exact h hmis.1 hmis.2.1
  | overwritten hmisled huploaded =>
    obtain rfl := hzero (lt_irrefl 0)
    rw [Function.update_self]
    constructor
    · intro h hmis
      have hlen := congrArg List.length (Option.some.inj (h.1 rfl))
      rw [List.length_append] at hlen
      exact hmis.1 (List.eq_nil_of_length_eq_zero (by omega))
    · intro h
      have hnil : (files (keyPath key)).getD [] = [] :=
        not_not.mp fun hne => h ⟨hne, hmisled, huploaded⟩
      exact ⟨fun _ => by rw [hnil, List.nil_append], fun h => absurd rfl h⟩

/-- So is a get. -/
private theorem get_correct_iff {key : Bytes} {tr : List CallEvent} {rc rc' : ℤ} {files' : Files}
    (hgets : GetsValues files (keyPath key) tr rc) (hneg : rc < 0 → rc' = -1)
    (hzero : ¬rc < 0 → rc' = 0) :
    (get key).Correct files files' tr rc' ↔ ¬(get key).Misjudges files tr := by
  simp only [Correct, Misjudges]
  cases hgets with
  | failed hrc h =>
    obtain rfl := hneg hrc
    exact iff_of_true (fun h => absurd h (by norm_num)) fun hmis => h hmis.2
  | given hgiven h => exact iff_of_true (fun _ h => absurd hgiven h) fun hmis => h hmis.2
  | nothing hgiven h =>
    obtain rfl := hzero (lt_irrefl 0)
    constructor
    · exact fun hnil hmis => hmis.1 (hnil rfl hgiven)
    · intro hmis _ _
      rcases h with hnil | hmisled
      · exact hnil
      · exact not_not.mp fun hne => hmis ⟨hne, hmisled⟩

/-- So is any of the four. -/
private theorem call_correct_iff (operation : KeyOperation) :
    Script.wp (logged S.expiring) anyFault operation.call
      (fun rc _ w' => operation.Correct files w'.1 w'.2 rc ↔ ¬operation.Misjudges files w'.2) s
      (files, []) := by
  have hminus : (-1 : ℤ) < 0 := by norm_num
  cases operation with
  | put key value =>
    simp only [call, hivePutValue]
    -- arguments that are refused leave the trace empty
    rcases valueArgs_eq oneDriveMethods key value with hargs | ⟨hvalue, hargs⟩
    · rw [hargs]
      have hnone : ¬Uploaded [] := by simp [Uploaded]
      exact put_correct_iff (.failed hminus hnone) (fun _ => rfl)
        fun h => absurd hminus h
    rw [hargs]
    simp only [oneDriveMethods, Script.wp_bind, wp_reportInt]
    refine Script.wp_mono (putValue_expiring hvalue) (fun _ _ h => h) ?_
    rintro rc s₁ ⟨files', _⟩ ⟨tr, rfl, hputs⟩
    exact ⟨fun h => put_correct_iff hputs (fun _ => rfl) fun h' => absurd h h',
      fun h => put_correct_iff hputs (fun h' => absurd h' h) fun _ => rfl⟩
  | set key value =>
    simp only [call, hiveSetValue]
    rcases valueArgs_eq oneDriveMethods key value with hargs | ⟨hvalue, hargs⟩
    · rw [hargs]
      exact iff_of_true ⟨fun h => absurd h hminus.ne, fun _ => rfl⟩ not_false
    rw [hargs]
    simp only [oneDriveMethods, Script.wp_bind, wp_reportInt]
    refine Script.wp_mono (setValue_expiring key value) (fun _ _ h => h) ?_
    rintro rc s₁ ⟨files', _⟩ ⟨tr, rfl, ⟨rfl, rfl, -⟩ | ⟨hneg, rfl, -⟩⟩
    · refine ⟨fun h => absurd h (lt_irrefl 0), fun _ => iff_of_true ⟨fun _ => ?_, ?_⟩ not_false⟩
      · exact Function.update_self ..
      · exact fun h => absurd rfl h
    · refine ⟨fun _ => iff_of_true ⟨fun h => absurd h hminus.ne, fun _ => rfl⟩ not_false, ?_⟩
      exact fun h => absurd hneg h
  | get key =>
    simp only [call, hiveGetValues]
    cases key with
    | nil => exact iff_of_true (fun h => absurd h hminus.ne) fun h => not_misled_nil h.2
    | cons b key =>
      simp only [nonempty?, oneDriveMethods, Script.wp_bind, wp_reportInt]
      refine Script.wp_mono (getValues_expiring (b :: key)) (fun _ _ h => h) ?_
      rintro rc s₁ ⟨files', _⟩ ⟨tr, rfl, hgets⟩
      exact ⟨fun h => get_correct_iff hgets (fun _ => rfl) fun h' => absurd h h',
        fun h => get_correct_iff hgets (fun h' => absurd h' h) fun _ => rfl⟩
  | delete key =>
    simp only [call, hiveDeleteKey]
    cases key with
    | nil => exact iff_of_true (fun h => absurd h hminus.ne) fun h => not_refreshNotFound_nil h.2
    | cons b key =>
      simp only [nonempty?, oneDriveMethods, Script.wp_bind, wp_reportInt]
      refine Script.wp_mono (deleteKey_expiring (b :: key)) (fun _ _ h => h) ?_
      rintro rc s₁ ⟨files', _⟩ ⟨tr, rfl, ⟨hneg, hrefresh⟩ | ⟨rfl, hends⟩⟩
      · refine ⟨fun _ => iff_of_true (fun h => absurd h hminus.ne) fun h => hrefresh h.2, ?_⟩
        exact fun h => absurd hneg h
      refine ⟨fun h => absurd h (lt_irrefl 0), fun _ => ?_⟩
      -- the file is gone, or the refresh was answered as if it were
      rcases hends with ⟨hnone, hsome⟩ | ⟨rfl, hrefresh⟩
      · exact iff_of_true (fun _ => hnone) fun h => hsome h.1 h.2
      · simp only [Correct, Misjudges]
        constructor
        · rintro hnone ⟨hsome, -⟩
          rw [hnone trivial] at hsome
          cases hsome
        · intro h _
          exact Option.not_isSome_iff_eq_none.mp fun hsome => h ⟨hsome, hrefresh⟩

end Spec

/-- An operation does what it should unless it is misled about a file that is there. -/
theorem correct_iff {S : Drive} {s s' : Thread OneDriveConnect} {files files' : Files}
    {tr : List CallEvent} {rc : ℤ} (operation : KeyOperation)
    (hrun : Program.Exec (logged S.expiring) (operation.call s) (files, []) (.ok (rc, s'))
      (files', tr)) :
    operation.Correct files files' tr rc ↔ ¬operation.Misjudges files tr :=
  Script.wp.of_exec (call_correct_iff operation) hrun

end KeyOperation

/-! ### A refresh that is answered 404 -/

/-- At second 1, a token server that knows no refresh token. -/
def tokenNotFound : (i : Call) → Option i.Reply
  | .gettimeofday => some ⟨1, 0⟩
  | .httpClientNew _ => some true
  | .httpClientEscape data => some (some data)
  | .httpClientPerform request =>
    if request.method = .post ∧ request.headers = [] then some (Drive.answered 404 [] none)
    else none
  | _ => none

/-- The replies of the failing run are replies of the service. -/
private theorem tokenNotFound_sound (w : Files × List CallEvent) (i : Call) (r : i.Reply)
    (w' : Files × List CallEvent)
    (h : (tokenNotFound i).map (fun r => (r, w.1, w.2 ++ [⟨i, r⟩])) = some (r, w')) :
    logged Drive.loopback.expiring w i r w' := by
  obtain ⟨r, hr, hpair⟩ := Option.map_eq_some_iff.mp h
  cases hpair
  cases i with
  | httpClientPerform request =>
    refine ⟨.inr ⟨?_, rfl⟩, rfl⟩
    simp only [tokenNotFound] at hr
    split at hr
    · assumption
    · cases hr
  | errno => cases hr
  | _ => exact ⟨rfl, rfl⟩

/-- A key is to be deleted, and its file is there. -/
private theorem deleteKey_tokenNotFound : ∃ tr,
    Program.Exec (logged Drive.loopback.expiring)
      ((KeyOperation.delete (ascii "k")).call freshToken.expired) (oneValue.files, [])
      (.ok (0, freshToken.expired)) (oneValue.files, tr) ∧
    RefreshNotFound tr := by
  refine ⟨_, Program.exec_of_runIn tokenNotFound_sound rfl, ?_⟩
  exact ⟨_, _, rfl, rfl⟩

/-- The key is reported to be deleted, and is still there. -/
theorem deleteKey_undeleted : ¬∀ (S : Drive) (s s' : Thread OneDriveConnect) (files files' : Files)
    (tr : List CallEvent) (rc : ℤ) (operation : KeyOperation),
      Program.Exec (logged S.expiring) (operation.call s) (files, []) (.ok (rc, s')) (files', tr) →
        operation.Correct files files' tr rc := by
  intro h
  obtain ⟨tr, hrun, -⟩ := deleteKey_tokenNotFound
  have hnone := h _ _ _ _ _ _ _ _ hrun rfl
  cases hnone

theorem KeyOperation.correct_iff_tokenNotFound : ∃ tr,
    ((KeyOperation.delete (ascii "k")).Correct oneValue.files oneValue.files tr 0 ↔
      ¬(KeyOperation.delete (ascii "k")).Misjudges oneValue.files tr) := by
  obtain ⟨tr, hrun, -⟩ := deleteKey_tokenNotFound
  exact ⟨tr, KeyOperation.correct_iff _ hrun⟩

end HiveSDK
