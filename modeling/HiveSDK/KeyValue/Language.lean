import HiveSDK.KeyValue.Refinement
import HiveSDK.KeyValue.Walk

/-!
# The strings `get_values` accepts

`put_value` and `set_value` write entries with values of 1 to `HIVE_MAX_VALUE_LEN` bytes.
`get_values` tests the length of a value from above only; that a value has at least one byte
follows for the last entry alone, because a remainder of a bare header is refused. So it
accepts `Loose` strings: an empty value may stand anywhere but at the end.

A second way to differ comes before the walk. The length of the file is compared with the code
of a 404 after its conversion to `int`, so a file of one of those lengths is taken for an
absent one. `getValues_language_iff` says that these are the only two.
-/

namespace HiveSDK.OneDrive

open Interaction C

/-! ### Entries and the bytes they are made of -/

/-- `htonl` writes what `ntohl` has read. -/
private theorem htonl_ntohl (kv : Bytes) (h : kvHeaderSize ≤ kv.length) :
    htonl (ntohl kv) = kv.take kvHeaderSize := by
  match kv, h with
  | a :: b :: c :: d :: rest, _ =>
    have ha := a.toNat_lt
    have hb := b.toNat_lt
    have hc := c.toNat_lt
    have hd := d.toNat_lt
    simp only [ntohl, htonl, kvHeaderSize, List.take_succ_cons, List.take_zero, List.cons.injEq,
      and_true]
    refine ⟨?_, ?_, ?_, ?_⟩ <;> refine UInt8.toNat_inj.mp ?_ <;> rw [UInt8.toNat_ofNat'] <;> omega

/-- A length in a header has four bytes. -/
private theorem ntohl_lt (kv : Bytes) : ntohl kv < 2 ^ 32 := by
  unfold ntohl
  split
  · rename_i a b c d rest
    have ha := a.toNat_lt
    have hb := b.toNat_lt
    have hc := c.toNat_lt
    have hd := d.toNat_lt
    omega
  · norm_num

/-- The value of the entry at the head of `kv`. -/
def entryValue (kv : Bytes) : Bytes := (kv.drop kvHeaderSize).take (ntohl kv)

/-- The value of an entry is as long as its header says. -/
private theorem length_entryValue {kv : Bytes} (h : entryLength kv ≤ kv.length) :
    (entryValue kv).length = ntohl kv := by
  unfold entryLength at h
  rw [entryValue, List.length_take, List.length_drop]
  omega

/-- A block that is as long as its first entry says begins with that entry. -/
private theorem kvEntry_append_drop {kv : Bytes} (h : entryLength kv ≤ kv.length) :
    kvEntry (entryValue kv) ++ kv.drop (entryLength kv) = kv := by
  have hheader : kvHeaderSize ≤ kv.length := (Nat.le_add_right _ _).trans h
  have hlt : ntohl kv < 2 ^ 32 := ntohl_lt kv
  rw [kvEntry, length_entryValue h, Nat.mod_eq_of_lt hlt, htonl_ntohl kv hheader, entryValue,
    entryLength, ← List.drop_drop, List.append_assoc, List.take_append_drop,
    List.take_append_drop]

/-- An entry at the front is determined by the bytes. -/
private theorem kvEntry_append_inj {value value' rest rest' : Bytes} (hlt : value.length < 2 ^ 32)
    (hlt' : value'.length < 2 ^ 32) (h : kvEntry value ++ rest = kvEntry value' ++ rest') :
    value = value' ∧ rest = rest' := by
  have hlength : value.length = value'.length := by
    rw [← ntohl_kvEntry hlt rest, h, ntohl_kvEntry hlt' rest']
  have hentry := List.append_inj h (by rw [length_kvEntry, length_kvEntry, hlength])
  refine ⟨?_, hentry.2⟩
  have hdrop := congrArg (List.drop kvHeaderSize) hentry.1
  rwa [← List.append_nil (kvEntry value), ← List.append_nil (kvEntry value'), drop_kvEntry,
    drop_kvEntry, List.append_nil, List.append_nil] at hdrop

/-- Entries as the walk takes them: an empty value may stand anywhere but at the end. -/
inductive Loose : List Bytes → Prop
  | last (value : Bytes) (hpos : 0 < value.length) (hle : value.length ≤ HIVE_MAX_VALUE_LEN) :
      Loose [value]
  | cons (value : Bytes) (hle : value.length ≤ HIVE_MAX_VALUE_LEN) {values : List Bytes}
      (h : Loose values) : Loose (value :: values)

namespace Loose

variable {values values' : List Bytes}

/-- Every value of a file that is read has an allowed length. -/
theorem length_le (h : Loose values) : ∀ v ∈ values, v.length ≤ HIVE_MAX_VALUE_LEN := by
  induction h with
  | last value _ hle => exact fun v hv => List.mem_singleton.mp hv ▸ hle
  | cons value hle _ ih =>
    intro v hv
    rcases List.mem_cons.mp hv with rfl | hv
    · exact hle
    · exact ih v hv

/-- Such a file is longer than one header. -/
private theorem lt_length (h : Loose values) : kvHeaderSize < (entries values).length := by
  induction h with
  | last value hpos _ =>
    rw [entries_cons, entries_nil, List.append_nil, length_kvEntry]
    omega
  | cons value _ _ ih =>
    rw [entries_cons, List.length_append]
    omega

/-- Valid values are values that are read. -/
private theorem of_valid (hne : values ≠ []) (hvalid : ∀ v ∈ values, ValidValue v) :
    Loose values := by
  induction values with
  | nil => exact absurd rfl hne
  | cons value values ih =>
    have hvalue := hvalid value List.mem_cons_self
    rcases eq_or_ne values [] with rfl | hvalues
    · exact .last value hvalue.nonempty hvalue.length_le
    · exact .cons value hvalue.length_le
        (ih hvalues fun v hv => hvalid v (List.mem_cons_of_mem _ hv))

/-- A string is made of loose entries in one way. -/
private theorem entries_inj (h : Loose values) (h' : Loose values')
    (heq : entries values = entries values') :
    values = values' := by
  have lt {v : Bytes} (hv : v.length ≤ HIVE_MAX_VALUE_LEN) : v.length < 2 ^ 32 :=
    hv.trans_lt (by decide)
  have not_nil {vs : List Bytes} (hvs : Loose vs) : entries vs ≠ [] := by
    intro hnil
    have hlength := hvs.lt_length
    simp [hnil] at hlength
  induction h generalizing values' with
  | last value _ hle =>
    cases h' with
    | last value' _ hle' =>
      rw [(kvEntry_append_inj (lt hle) (lt hle') heq).1]
    | cons value' hle' hvalues' =>
      exact absurd (kvEntry_append_inj (lt hle) (lt hle') heq).2.symm (not_nil hvalues')
  | cons value hle hvalues ih =>
    cases h' with
    | last value' _ hle' =>
      exact absurd (kvEntry_append_inj (lt hle) (lt hle') heq).2 (not_nil hvalues)
    | cons value' hle' hvalues' =>
      obtain ⟨rfl, hrest⟩ := kvEntry_append_inj (lt hle) (lt hle') heq
      rw [ih hvalues' hrest]

end Loose

/-! ### What the walk accepts -/

section Spec

variable {S : Drive} {s : Thread OneDriveConnect} {w : World}

/-- The values handed out under a key, each of them answered with `true`. -/
def allOf (key : Bytes) (values : List Bytes) : List (Bytes × Bytes × Bool) :=
  values.map fun value => (key, value, true)

/-- What is said of a string that is loose, and of one that is not. -/
structure Walked (key content : Bytes) (w : World) (rc : ℤ) (w' : World) : Prop where
  accepted : ∀ values, Loose values → content = entries values →
    rc = 0 ∧ w' = w.deliver (allOf key values)
  refused : (∀ values, Loose values → content ≠ entries values) → rc < 0

/-- A walk that fails over a content that is no sequence of entries. -/
theorem Walked.of_refused {key content : Bytes} {rc : ℤ} {w' : World} (hrc : rc < 0)
    (hnone : ∀ values, Loose values → content ≠ entries values) :
    Walked key content w rc w' where
  accepted values hvalues heq := absurd heq (hnone values hvalues)
  refused _ := hrc

/-- A walk that succeeds and hands out the entries. -/
theorem Walked.of_accepted {key content : Bytes} {values : List Bytes} {w' : World}
    (hvalues : Loose values) (hcontent : content = entries values)
    (hw' : w' = w.deliver (allOf key values)) : Walked key content w 0 w' where
  accepted values' hvalues' heq := by
    rw [← hvalues.entries_inj hvalues' (hcontent.symm.trans heq)]
    exact ⟨rfl, hw'⟩
  refused hnone := absurd hcontent (hnone values hvalues)

/-- The head of a loose string: its first entry, and what is left of it. -/
private theorem loose_head {kv : Bytes} {values : List Bytes} (hvalues : Loose values)
    (hkv : kv = entries values) : ntohl kv ≤ HIVE_MAX_VALUE_LEN ∧ entryLength kv ≤ kv.length ∧
      (kv.drop (entryLength kv) = [] ∨
        ∃ rest, Loose rest ∧ values = entryValue kv :: rest ∧
          kv.drop (entryLength kv) = entries rest) := by
  have hfirst : ∃ value rest, values = value :: rest ∧ value.length ≤ HIVE_MAX_VALUE_LEN ∧
      (rest = [] ∨ Loose rest) := by
    cases hvalues with
    | last value _ hle => exact ⟨value, [], rfl, hle, .inl rfl⟩
    | cons value hle hrest => exact ⟨value, _, rfl, hle, .inr hrest⟩
  obtain ⟨value, rest, rfl, hle, hrest⟩ := hfirst
  rw [entries_cons] at hkv
  have hread : ntohl kv = value.length := by
    rw [hkv, ntohl_kvEntry (hle.trans_lt (by decide))]
  have hentry : entryLength kv = kvHeaderSize + value.length := by rw [entryLength, hread]
  have hdrop : kv.drop (entryLength kv) = entries rest := by
    rw [hentry, hkv, drop_kvEntry_length]
  have hvalue : entryValue kv = value := by
    rw [entryValue, hread, hkv, drop_kvEntry, List.take_left]
  refine ⟨hread ▸ hle, ?_, ?_⟩
  · rw [hentry, hkv, List.length_append, length_kvEntry]
    omega
  · rcases hrest with rfl | hrest
    · exact .inl hdrop
    · exact .inr ⟨rest, hrest, by rw [hvalue], hdrop⟩

/-- The loop of `get_values` on any bytes. The induction is on the bytes that are left. -/
private theorem getValuesLoop_language {key kv : Bytes} (hheader : kvHeaderSize < kv.length)
    (hlt : kv.length < 2 ^ 63) :
    Script.wp S.willing noFault (getValuesLoop key kv kv.length)
      (fun rc s' w' => s' = s ∧ Walked key kv w rc w') s w := by
  -- each entry is longer than nothing, so the induction is on what is left
  induction hlength : kv.length using Nat.strong_induction_on generalizing kv w with
  | _ length ih =>
    subst hlength
    have hentryLength : kvHeaderSize + ntohl kv = entryLength kv := rfl
    rw [getValuesLoop, dif_neg (by omega)]
    simp only [Script.wp_ite, Script.wp_pure, hentryLength]
    refine ⟨fun hlong => ⟨trivial, .of_refused (by simp) fun values hvalues hkv => ?_⟩,
      fun hvalue => ?_⟩
    · exact absurd hlong (loose_head hvalues hkv).1.not_gt
    rw [not_lt] at hvalue
    have hrem : toLong ((kv.length : ℤ) - entryLength kv) = kv.length - entryLength kv :=
      remainder_eq (by omega) (by omega) hvalue
    rw [hrem]
    refine ⟨fun hbad => ⟨trivial, .of_refused (by simp) fun values hvalues hkv => ?_⟩,
      fun hgood => ?_⟩
    · -- an entry that overruns the file, or leaves less than a header
      obtain ⟨-, hentry, hrest⟩ := loose_head hvalues hkv
      have hleft : (kv.drop (entryLength kv)).length = kv.length - entryLength kv :=
        List.length_drop
      rcases hrest with hnil | ⟨rest, hloose, -, hdrop⟩
      · rw [hnil, List.length_nil] at hleft
        omega
      · have hmore := hloose.lt_length
        rw [← hdrop] at hmore
        omega
    have hentry : entryLength kv ≤ kv.length := by
      by_contra hover
      exact hgood (.inl (by omega))
    have hsplit := kvEntry_append_drop hentry
    have hle : (entryValue kv).length ≤ HIVE_MAX_VALUE_LEN := by rwa [length_entryValue hentry]
    -- the entry is inside, and is handed to the callback
    refine ⟨fun hshort => absurd hentry hshort.not_ge, fun _ => ?_⟩
    simp only [Script.wp_bind, Script.wp_ask, Script.wp_ite, Script.wp_pure]
    rintro proceed w₁ ⟨⟨hcallback, -⟩, hproceed⟩
    obtain rfl : proceed = true := hproceed
    obtain rfl : w₁ = w.deliver [(key, entryValue kv, true)] := hcallback
    refine ⟨fun hend => ⟨trivial, ?_⟩, fun hmore => ?_⟩
    · -- the last entry
      have hzero : (kv.length : ℤ) - entryLength kv = 0 := by simpa using hend
      have hnil : kv.drop (entryLength kv) = [] :=
        List.drop_eq_nil_of_le (by omega)
      have hpos : 0 < (entryValue kv).length := by
        rw [length_entryValue hentry]
        unfold entryLength at hzero
        omega
      refine .of_accepted (.last (entryValue kv) hpos hle) ?_ rfl
      rw [entries_cons, entries_nil, ← hnil, hsplit]
    · have hne : (kv.length : ℤ) - entryLength kv ≠ 0 := by simpa using hmore
      have hleft : (kv.drop (entryLength kv)).length = kv.length - entryLength kv :=
        List.length_drop
      have hcount : (kv.length : ℤ) - entryLength kv =
          ((kv.drop (entryLength kv)).length : ℤ) := by omega
      have hlong : kvHeaderSize < (kv.drop (entryLength kv)).length := by
        by_contra hshort
        exact hgood (.inr ⟨by omega, by omega⟩)
      have hpos : 0 < entryLength kv := Nat.lt_of_lt_of_le (by decide) (Nat.le_add_right 4 _)
      rw [hcount]
      refine Script.wp_mono (ih _ (by omega) hlong (by omega) rfl) (fun _ _ h => h) ?_
      -- the rest is entries exactly when the whole is
      rintro rc s' w' ⟨rfl, hwalked⟩
      refine ⟨rfl, fun values hvalues hkv => ?_, fun hnone => hwalked.refused ?_⟩
      · rcases (loose_head hvalues hkv).2.2 with hnil | ⟨rest, hloose, rfl, hdrop⟩
        · rw [hnil, List.length_nil] at hlong
          exact absurd hlong (Nat.not_lt_zero _)
        · obtain ⟨hrc, hw'⟩ := hwalked.accepted rest hloose hdrop
          refine ⟨hrc, ?_⟩
          rw [hw', World.deliver_deliver]
          rfl
      · intro rest hrest hdrop
        refine hnone _ (.cons (entryValue kv) hle hrest) ?_
        rw [entries_cons, ← hdrop, hsplit]

/-- The size of a file that is there: it is taken for absent by its length, or it is known. -/
private theorem sizeOrAbsent_length (n : ℕ) :
    (Absent n → sizeOrAbsent n = .ok 0) ∧ (¬Absent n → sizeOrAbsent n = .ok n) := by
  unfold sizeOrAbsent
  rw [toUInt_toInt]
  refine ⟨fun habsent => if_pos habsent, fun hpresent => ?_⟩
  rw [if_neg hpresent, if_neg (Int.natCast_nonneg n).not_gt]

variable {key content : Bytes}

/-- `get_values` of a stored string while nothing fails: nothing is handed out when the string is
empty or its length is that of an absent file, and otherwise the walk decides. -/
private theorem getValues_willing (hs : S.TokenValid s) (htoken : s.conn.token.accessToken.isSome)
    (hfits : KeyFits key) (hfile : w.files (fullPath KEYS_DIR key) = some content) :
    Script.wp S.willing noFault (getValues key)
      (fun rc _ w' => (content = [] ∨ Absent content.length → rc = 0 ∧ w' = w) ∧
        (content ≠ [] → ¬Absent content.length → Walked key content w rc w')) s w := by
  have hpath := hfits.snprintfPath
  have hwilling : ∀ w i r w', S.willing w i r w' → S.healthy w i r w' := fun _ _ _ _ h => h.1
  unfold getValues
  simp only [hpath, Script.wp_bind]
  refine Script.wp_mono (Script.wp_of_handler hwilling
    (getFileLengthAt_healthy hs htoken hfits hfile)) (fun _ _ h => h) ?_
  rintro exit s w ⟨rfl, rfl, rfl, hlt⟩
  rw [Exit.ssize_ret]
  have hsize := sizeOrAbsent_length content.length
  have hcases := em (Absent content.length)
  cases hcases with
  | inl habsent =>
    rw [hsize.1 habsent]
    dsimp only [getSized]
    rw [if_neg fun h => lt_irrefl 0 h.1, if_pos rfl, Script.wp_pure]
    exact ⟨fun _ => ⟨rfl, rfl⟩, fun _ hpresent => absurd habsent hpresent⟩
  | inr hpresent =>
  rw [hsize.2 hpresent]
  have hnat : (toSize (content.length : ℤ)).toNat = content.length := by
    rw [toSize_eq_self (by omega) (by omega), Int.toNat_natCast]
  simp only [getSized, Script.wp_ite, Script.wp_bind, Script.wp_ask, Script.wp_pure, hnat]
  refine ⟨fun hshort => ⟨fun hnil => ?_, fun _ _ => .of_refused (by simp) ?_⟩, fun hlong =>
    ⟨fun hzero => ⟨fun _ => ⟨trivial, trivial⟩, fun hne => ?_⟩, fun hne => ?_⟩⟩
  · rcases hnil with rfl | habsent
    · exact absurd hshort.1 (lt_irrefl 0)
    · exact absurd habsent hpresent
  · rintro values hvalues rfl
    have := hvalues.lt_length
    omega
  · exact absurd (List.eq_nil_of_length_eq_zero (by omega)) hne
  -- the download fills the block, and the loop runs on it
  have hheader : kvHeaderSize < content.length := by
    by_contra hle
    exact hlong ⟨by omega, by omega⟩
  have hlt' : content.length < 2 ^ 63 := by omega
  have hbuflen : ¬BufferTooSmall content.length content.length := by
    rintro ⟨-, hsmall⟩
    rw [toLong_eq_self (by omega) (by omega)] at hsmall
    exact lt_irrefl _ hsmall
  rintro made w ⟨⟨rfl, hmade⟩, -⟩
  obtain rfl : made = true := hmade
  refine ⟨fun h => by simp at h, fun _ => ?_⟩
  refine Script.wp_mono (Script.wp_of_handler hwilling (getFileToBufferAt_healthy hs htoken hfits
    hfile (by rw [List.length_replicate]) hbuflen)) (fun _ _ h => h) ?_
  rintro _ s w ⟨rfl, rfl, rfl⟩
  have hblock : content ++ (List.replicate content.length (0 : UInt8)).drop content.length =
      content := by
    rw [List.drop_replicate, Nat.sub_self, List.replicate_zero, List.append_nil]
  rw [hblock]
  refine ⟨fun hneg => absurd hneg (by simp), fun _ => ⟨fun hne => absurd rfl hne, fun _ => ?_⟩⟩
  refine Script.wp_mono (getValuesLoop_language hheader hlt') (fun _ _ h => h) ?_
  rintro rc s' w' ⟨-, hwalked⟩
  refine ⟨fun hempty => ?_, fun _ _ => hwalked⟩
  rcases hempty with rfl | habsent
  · exact absurd hheader (Nat.not_lt_zero _)
  · exact absurd habsent hpresent

/-- The path of a key that does not fit a URL does not fit one when it is cut either. -/
private theorem le_length_itemUrl (hlong : ¬KeyFits key) :
    1024 ≤ (itemUrl (snprintfPath KEYS_DIR key).1 []).length := by
  rw [KeyFits, MAX_URL_LEN, not_lt] at hlong
  simp only [itemUrl, fullPath, snprintfPath, List.length_append, List.length_take, PATH_MAX] at *
  omega

/-- With such a key, `get_values` overruns the URL buffer before it sends a request. -/
private theorem getValues_overrun (hs : S.TokenValid s) (hlong : ¬KeyFits key) :
    Script.wp S.willing (fun _ _ => True) (getValues key) (fun _ _ _ => False) s w := by
  have hurl := le_length_itemUrl hlong
  have hwilling : ∀ w i r w', S.willing w i r w' → S.healthy w i r w' := fun _ _ _ _ h => h.1
  unfold getValues getFileLengthAt getFileInfo
  simp only [Script.wp_bind, Script.wp_ite, Script.wp_ask, Script.wp_pure]
  refine Script.wp_mono (Script.wp_of_handler hwilling (oauthTokenCheckExpire_healthy hs))
    (fun _ _ h => h.elim) ?_
  rintro _ _ _ ⟨rfl, rfl, rfl⟩
  refine ⟨fun h => absurd h (lt_irrefl 0), fun _ => ?_⟩
  rintro created _ ⟨⟨rfl, hcreated⟩, -⟩
  obtain rfl : created = true := hcreated
  refine ⟨fun h => by simp at h, fun _ => ?_⟩
  rw [wp_sprintfUrl]
  exact ⟨fun hshort => absurd hshort hurl.not_gt, fun _ => trivial⟩

end Spec

/-! ### The language written -/

/-- What `put_value` and `set_value` write: nothing yet, or entries. -/
def InLanguage (content : Bytes) : Prop :=
  ∃ values, (∀ v ∈ values, ValidValue v) ∧ content = entries values

/-- The string is in the language if and only if 0 is returned; then its values are delivered,
in order, and any other string makes an error. -/
structure ReadsLanguage (key content : Bytes) (w : World) (rc : ℤ) (w' : World) : Prop where
  accepts : rc = 0 ↔ InLanguage content
  delivers : ∀ values, (∀ v ∈ values, ValidValue v) → content = entries values →
    w' = w.deliver (allOf key values)
  rejects : ¬InLanguage content → rc < 0

/-- The string is made of entries one of which is empty, and not the last one. -/
def HasEmptyEntry (content : Bytes) : Prop :=
  ∃ values, Loose values ∧ [] ∈ values ∧ content = entries values

/-- An empty content has no entries. -/
private theorem eq_nil_of_entries {values : List Bytes} (h : [] = entries values) :
    values = [] := by
  cases values with
  | nil => rfl
  | cons value values =>
    have hlength := congrArg List.length h
    rw [entries_cons, List.length_append, length_kvEntry] at hlength
    simp [kvHeaderSize] at hlength
    omega

/-- An empty content is read as no value. -/
theorem ReadsLanguage.of_nil {key : Bytes} {w : World} : ReadsLanguage key [] w 0 w where
  accepts := iff_of_true rfl ⟨[], by simp, rfl⟩
  delivers values hvalid hnil := by
    rw [eq_nil_of_entries hnil]
    exact (congrArg (World.mk w.files w.disk) (List.append_nil _)).symm
  rejects hnot := absurd ⟨[], by simp, rfl⟩ hnot

/-- When nothing has been handed out there was nothing to hand out. -/
private theorem eq_nil_of_deliver {w : World} {key : Bytes} {values : List Bytes}
    (h : w.deliver (allOf key values) = w) : values = [] := by
  have hlog : w.delivered ++ allOf key values = w.delivered := congrArg World.delivered h
  exact List.map_eq_nil_iff.mp (List.append_right_eq_self.mp hlog)

/-- A file without entries does not count as absent. -/
private theorem not_absent_zero : ¬Absent (entries []).length := by
  rw [Absent, hiveHttpStatusError_notFound]
  decide

/-- A loose string without an empty entry is in the language. -/
theorem Loose.inLanguage {values : List Bytes} (h : Loose values) (hempty : [] ∉ values) :
    InLanguage (entries values) := by
  refine ⟨values, fun v hv => ⟨List.length_pos_iff.mpr ?_, h.length_le v hv⟩, rfl⟩
  rintro rfl
  exact hempty hv

/-- A string of the language that is not empty is loose. -/
private theorem loose_of_inLanguage {values : List Bytes} (hvalid : ∀ v ∈ values, ValidValue v)
    (hne : entries values ≠ []) : Loose values := by
  refine .of_valid ?_ hvalid
  rintro rfl
  exact hne rfl

/-- `get_values` reads the language from a service on which nothing fails, with a callback that
always continues, if and only if the URL of the key fits, the length of the file is not that of
an absent one, and the file is not one with an empty entry before the end. -/
theorem getValues_language_iff {S : Drive} {s : Thread OneDriveConnect} {w w' : World}
    {key content : Bytes} {o : Except Fault (ℤ × Thread OneDriveConnect)} (hs : S.TokenValid s)
    (htoken : s.conn.token.accessToken.isSome)
    (hfile : w.files (fullPath KEYS_DIR key) = some content)
    (hexec : Program.Exec S.willing (getValues key s) w o w') :
    (∃ rc s', o = .ok (rc, s') ∧ ReadsLanguage key content w rc w') ↔
      KeyFits key ∧ ¬Absent content.length ∧ ¬HasEmptyEntry content := by
  by_cases hfits : KeyFits key
  swap
  · have hends := Script.wp_iff_forall_exec.mp (getValues_overrun hs hfits) o w' hexec
    refine iff_of_false ?_ fun h => hfits h.1
    rintro ⟨rc, s', rfl, -⟩
    exact hends
  have hends := Script.wp_iff_forall_exec.mp (getValues_willing hs htoken hfits hfile) o w' hexec
  match o, hends with
  | .ok (rc, s'), ⟨hnothing, hwalk⟩ =>
  constructor
  · rintro ⟨_, _, ⟨⟩, hreads⟩
    -- a length that reads as absent would have been read as no value
    have hpresent : ¬Absent content.length := by
      intro habsent
      obtain ⟨rfl, hw'⟩ := hnothing (.inr habsent)
      obtain ⟨values, hvalid, rfl⟩ := hreads.accepts.mp rfl
      have hsame : w.deliver (allOf key values) = w :=
        (hreads.delivers values hvalid rfl).symm.trans hw'
      rw [eq_nil_of_deliver hsame] at habsent
      exact not_absent_zero habsent
    refine ⟨hfits, hpresent, ?_⟩
    rintro ⟨values, hvalues, hmem, rfl⟩
    -- an empty entry is accepted, though the language has none
    have hne : entries values ≠ [] := List.length_pos_iff.mp (Nat.zero_lt_of_lt hvalues.lt_length)
    have hrc := ((hwalk hne hpresent).accepted values hvalues rfl).1
    obtain ⟨values', hvalid, heq⟩ := hreads.accepts.mp hrc
    have hloose := loose_of_inLanguage hvalid (heq ▸ hne)
    rw [hvalues.entries_inj hloose heq] at hmem
    exact absurd (hvalid [] hmem).nonempty (lt_irrefl 0)
  · rintro ⟨-, hpresent, hnone⟩
    refine ⟨rc, s', rfl, ?_⟩
    rcases eq_or_ne content [] with rfl | hne
    · obtain ⟨rfl, rfl⟩ := hnothing (.inl rfl)
      exact .of_nil
    have hwalked := hwalk hne hpresent
    -- either a sequence of entries, maybe empty ones, or no such sequence
    by_cases hloose : ∃ values, Loose values ∧ content = entries values
    · obtain ⟨values, hvalues, rfl⟩ := hloose
      obtain ⟨rfl, rfl⟩ := hwalked.accepted values hvalues rfl
      have hin : InLanguage (entries values) :=
        hvalues.inLanguage fun hmem => hnone ⟨values, hvalues, hmem, rfl⟩
      refine ⟨iff_of_true rfl hin, fun values' hvalid heq => ?_, fun hnot => absurd hin hnot⟩
      rw [hvalues.entries_inj (loose_of_inLanguage hvalid (heq ▸ hne)) heq]
    · have hnot : ¬InLanguage content := by
        rintro ⟨values, hvalid, rfl⟩
        exact hloose ⟨values, loose_of_inLanguage hvalid hne, rfl⟩
      have hneg : rc < 0 := hwalked.refused fun values hvalues heq => hloose ⟨values, hvalues, heq⟩
      refine ⟨iff_of_false hneg.ne hnot, fun values hvalid heq => ?_, fun _ => hneg⟩
      exact absurd ⟨values, hvalid, heq⟩ hnot

/-- An iteration of the loop that does not return early. -/
private theorem getValuesLoop_next (key kv : Bytes) (dataLen : ℤ)
    (hheader : kvHeaderSize ≤ kv.length)
    (hvalue : ntohl kv ≤ HIVE_MAX_VALUE_LEN) (hrest : ¬BadRemainder (remainder kv dataLen))
    (hentry : entryLength kv ≤ kv.length) :
    getValuesLoop key kv dataLen = (do
      let proceed ← valuesCallback key (entryValue kv)
      if remainder kv dataLen = 0 ∨ !proceed then
        return 0
      getValuesLoop key (kv.drop (entryLength kv)) (remainder kv dataLen)) := by
  rw [getValuesLoop, dif_neg hheader.not_gt]
  exact (if_neg hvalue.not_gt).trans ((if_neg hrest).trans (if_neg hentry.not_gt))

/-- A file that begins with an empty entry. -/
def emptyEntryFile : World :=
  { emptyWorld with files := fun path =>
      if path = fullPath KEYS_DIR (ascii "k") then some (entries [[], ascii "a"]) else none }

/-- What the callback has been given after `get_values` has read it. -/
def emptyEntryRead : World := emptyEntryFile.deliver (allOf (ascii "k") [[], ascii "a"])

private theorem getValues_emptyEntryFile : Program.Exec Drive.loopback.willing
    (getValues (ascii "k") freshToken) emptyEntryFile (.ok (0, freshToken)) emptyEntryRead := by
  have hblock : (getValuesBlock (ascii "k") freshToken).runIn Drive.serveReads emptyEntryFile =
      some (.ok (.ok (entries [[], ascii "a"], 9), freshToken), emptyEntryFile) := rfl
  rw [getValues_eq]
  refine Script.exec_bind (Program.exec_of_runIn Drive.serveReads_sound hblock) ?_
  dsimp only
  have hcall (w : World) (value : Bytes) : Drive.loopback.willing w
      (.valuesCallback (ascii "k") value) true (w.deliver [(ascii "k", value, true)]) :=
    ⟨⟨rfl, trivial⟩, rfl⟩
  have hentry : entryLength (entries [[], ascii "a"]) = 4 := by decide
  have hentry' : entryLength (kvEntry (ascii "a")) = 5 := by decide
  have hfirst : remainder (entries [[], ascii "a"]) 9 = 5 := by
    rw [remainder_eq (by norm_num) (by norm_num) (by decide), hentry]
    norm_num
  have hlast : remainder (kvEntry (ascii "a")) 5 = 0 := by
    rw [remainder_eq (by norm_num) (by norm_num) (by decide), hentry']
    norm_num
  have hdrop : (entries [[], ascii "a"]).drop (entryLength (entries [[], ascii "a"])) =
    kvEntry (ascii "a") := rfl
  rw [getValuesLoop_next _ (entries [[], ascii "a"]) 9 (by decide) (by decide)
    (by rw [BadRemainder, hfirst]; decide) (by decide), hfirst, hdrop]
  refine Script.exec_ask (hcall emptyEntryFile []) ?_
  rw [if_neg (by decide)]
  rw [getValuesLoop_next _ (kvEntry (ascii "a")) 5 (by decide) (by decide)
    (by rw [BadRemainder, hlast]; decide) (by decide), hlast]
  refine Script.exec_ask (hcall _ (ascii "a")) ?_
  rw [if_pos (.inl rfl)]
  exact .ret _ _

/-- The file is read as if an empty value could have been put. -/
theorem getValues_accepts_empty : ¬∀ (S : Drive) (s s' : Thread OneDriveConnect) (w w' : World)
    (key content : Bytes) (rc : ℤ), S.TokenValid s → s.conn.token.accessToken.isSome → KeyFits key →
      w.files (fullPath KEYS_DIR key) = some content →
        Program.Exec S.willing (getValues key s) w (.ok (rc, s')) w' →
          ReadsLanguage key content w rc w' := by
  intro h
  have hreads := h Drive.loopback freshToken freshToken emptyEntryFile emptyEntryRead (ascii "k")
    (entries [[], ascii "a"]) 0 loopback_tokenValid rfl keyFits_k rfl getValues_emptyEntryFile
  obtain ⟨values, hvalid, heq⟩ := hreads.accepts.mp rfl
  have hloose : Loose [[], ascii "a"] :=
    .cons [] (Nat.zero_le _) (.last (ascii "a") (by decide) (by decide))
  have hmem : [] ∈ values := by
    rw [← hloose.entries_inj (loose_of_inLanguage hvalid (heq ▸ by decide)) heq]
    exact List.mem_cons_self
  exact absurd (hvalid [] hmem).nonempty (lt_irrefl 0)

theorem getValues_language_iff_k : (∃ rc s', (.ok (0, freshToken) : Except Fault _) = .ok (rc, s') ∧
    ReadsLanguage (ascii "k") (entries [[], ascii "a"]) emptyEntryFile rc emptyEntryRead) ↔
      KeyFits (ascii "k") ∧ ¬Absent (entries [[], ascii "a"]).length ∧
        ¬HasEmptyEntry (entries [[], ascii "a"]) :=
  getValues_language_iff loopback_tokenValid rfl rfl getValues_emptyEntryFile

end HiveSDK.OneDrive
