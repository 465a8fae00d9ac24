import HiveSDK.Model.Sandbird

/-!
# The text of a request

How the functions of the redirect server read a string. `url_decode` is a decoding without a bound
(`decode`) that is cut at the size of its buffer (`urlDecode_eq`), and it reads what a writer has
escaped as it was (`decode_escape`). `find_header_value` goes through the lines of a header; it goes
round for ever when a line holds a carriage return that no line feed follows, unless a line before
it has the field it looks for (`findHeaderValue_eq_endless_iff`).
-/

namespace HiveSDK

namespace Sandbird

open Url

/-! ### Values -/

/-- What `url_decode` stores when its buffer is large enough. -/
def decode : Bytes → Bytes
  | [] => []
  | c :: src =>
    if endsValue c then []
    else if c = 37 then
      match src with
      | a :: b :: src => (hexToInt a <<< 4 ||| hexToInt b) :: decode src
      | src => 37 :: decode src
    else (if c = 43 then 32 else c) :: decode src

/-- Decoding stops where a value ends. -/
theorem decode_of_endsValue {c : UInt8} (rest : Bytes) (hc : endsValue c = true) :
    decode (c :: rest) = [] := by
  unfold decode
  rw [if_pos hc]

/-- An escaped byte is decoded from its two digits. -/
private theorem decode_escaped (a b : UInt8) (src : Bytes) :
    decode (37 :: a :: b :: src) = (hexToInt a <<< 4 ||| hexToInt b) :: decode src := rfl

/-- A byte that is not escaped stands for itself, a plus sign for a space. -/
theorem decode_of_plain {c : UInt8} (src : Bytes) (hends : ¬endsValue c = true) (hc : c ≠ 37) :
    decode (c :: src) = (if c = 43 then 32 else c) :: decode src := by
  conv_lhs => unfold decode
  rw [if_neg hends, if_neg hc]

/-- One byte more is stored in the room for one byte more. -/
private theorem take_sub_cons (c : UInt8) (dst : Bytes) (room : ℕ) :
    (c :: dst.take room, room - dst.length) =
      ((c :: dst).take (room + 1), room + 1 - (c :: dst).length) := by
  rw [List.take_succ_cons, List.length_cons, Nat.add_sub_add_right]

/-- The loop stores as much of the decoded text as there is room for. -/
private theorem urlDecodeLoop_eq (src : Bytes) (room : ℕ) :
    urlDecodeLoop src room = ((decode src).take room, room - (decode src).length) := by
  induction room generalizing src with
  | zero =>
    cases src with
    | nil => rfl
    | cons c src =>
      rw [List.take_zero, Nat.zero_sub]
      rfl
  | succ room ih =>
    cases src with
    | nil => rfl
    | cons c src =>
      conv_lhs => unfold urlDecodeLoop
      by_cases hends : endsValue c = true
      · rw [if_pos hends, decode_of_endsValue src hends]
        rfl
      · rw [if_neg hends]
        by_cases hpercent : c = 37
        · subst hpercent
          rw [if_pos rfl]
          -- an escape that is cut off is no escape
          match src with
          | [] =>
            dsimp only
            rw [show decode [37] = 37 :: decode [] from rfl, ← take_sub_cons, ih]
          | [a] =>
            dsimp only
            rw [show decode [37, a] = 37 :: decode [a] from rfl, ← take_sub_cons, ih]
          | a :: b :: src =>
            dsimp only
            rw [decode_escaped, ← take_sub_cons, ih]
        · rw [if_neg hpercent, decode_of_plain src hends hpercent, ← take_sub_cons, ih]

/-- `url_decode` cuts what it decodes to the size of its buffer, and reports it as truncated also
when it just fits. -/
theorem urlDecode_eq (src : Bytes) (len : ℕ) :
    urlDecode src len = sbGetVar (some (decode src)) len := by
  simp only [urlDecode, urlDecodeLoop_eq, sbGetVar]
  by_cases hlen : len - 1 ≤ (decode src).length
  · rw [if_pos hlen, Nat.sub_eq_zero_of_le hlen]
    rfl
  · rw [if_neg hlen, List.take_of_length_le (Nat.le_of_not_le hlen), decide_eq_true]
    exact Nat.sub_ne_zero_of_lt (Nat.lt_of_not_le hlen)

/-- An unreserved byte is decoded as it is. -/
private theorem plain_of_isUnreserved {c : UInt8} (hc : isUnreserved c = true) :
    endsValue c = false ∧ c ≠ 37 ∧ c ≠ 43 := by
  refine forall_byte
    (P := fun c => isUnreserved c = true → endsValue c = false ∧ c ≠ 37 ∧ c ≠ 43) ?_ c hc
  decide +kernel

/-- The two digits of a byte are read back as the byte. -/
private theorem hexToInt_hexDigit (c : UInt8) :
    (hexToInt (hexDigit (c / 16)) <<< 4 ||| hexToInt (hexDigit (c % 16))) = c := by
  refine forall_byte (P := fun c =>
    (hexToInt (hexDigit (c / 16)) <<< 4 ||| hexToInt (hexDigit (c % 16))) = c) ?_ c
  decide +kernel

/-- What a writer has escaped is read as it was. -/
theorem decode_escape (v rest : Bytes) : decode (escape v ++ rest) = v ++ decode rest := by
  induction v with
  | nil => rfl
  | cons c v ih =>
    unfold escape
    split
    · rename_i hc
      obtain ⟨hends, hpercent, hplus⟩ := plain_of_isUnreserved hc
      rw [List.cons_append, decode_of_plain _ (Bool.not_eq_true _ ▸ hends) hpercent, if_neg hplus,
        ih]
      rfl
    · rw [List.cons_append, List.cons_append, List.cons_append, decode_escaped,
        hexToInt_hexDigit, ih]
      rfl

/-! ### Header lines -/

/-- A line of a header, without its end. -/
def IsLine (l : Bytes) : Prop := l ≠ [] ∧ 13 ∉ l

/-- The lines of a header, each with its end. -/
def unlines (lines : List Bytes) : Bytes := lines.flatMap (· ++ crlf)

/-- The line has the given field. -/
def hasField (field l : Bytes) : Bool := startsCase l field && l[field.length]? = some 58

private theorem toLower_eq_cr {c : UInt8} : Json.toLower c = 13 ↔ c = 13 := by
  refine forall_byte (P := fun c => Json.toLower c = 13 ↔ c = 13) ?_ c
  decide +kernel

private theorem hasField_cons_cons (f c : UInt8) (field l : Bytes) :
    hasField (f :: field) (c :: l) = (Json.toLower f == Json.toLower c && hasField field l) := by
  simp only [hasField, startsCase, List.map_cons, List.isPrefixOf_cons_cons, List.length_cons,
    List.getElem?_cons_succ, Bool.and_assoc]

/-- What follows the end of a line does not matter to the field it has. -/
private theorem hasField_append {field rest : Bytes} (hfield : 13 ∉ field)
    (hrest : rest.head? = some 13) (l : Bytes) : hasField field (l ++ rest) = hasField field l := by
  obtain ⟨rest, rfl⟩ : ∃ x, rest = 13 :: x := by
    cases rest with
    | nil => cases hrest
    | cons c x => exact ⟨x, by rw [Option.some.inj hrest]⟩
  induction field generalizing l with
  | nil =>
    cases l with
    | nil => rfl
    | cons c l => rfl
  | cons f field ih =>
    cases l with
    | nil =>
      have hf : Json.toLower f ≠ 13 :=
        fun h => hfield (toLower_eq_cr.mp h ▸ List.mem_cons_self)
      rw [List.nil_append, hasField_cons_cons]
      have hne : (Json.toLower f == Json.toLower 13) = false := beq_false_of_ne hf
      rw [hne]
      rfl
    | cons c l =>
      rw [List.cons_append, hasField_cons_cons, hasField_cons_cons,
        ih (fun h => hfield (List.mem_cons_of_mem f h))]

/-- A string goes on to its end, to the end of a line, or to a carriage return of its own. -/
private theorem exists_line (str : Bytes) :
    13 ∉ str ∨ ∃ l rest, 13 ∉ l ∧ (str = l ++ crlf ++ rest ∨
      str = l ++ 13 :: rest ∧ rest.head? ≠ some 10) := by
  by_cases hmem : 13 ∈ str
  · obtain ⟨l, rest, rfl, hl⟩ := List.eq_append_cons_of_mem hmem
    refine .inr ?_
    cases rest with
    | nil => exact ⟨l, [], hl, .inr ⟨rfl, nofun⟩⟩
    | cons c rest =>
      by_cases hc : c = 10
      · refine ⟨l, rest, hl, .inl ?_⟩
        rw [hc, List.append_assoc]
        rfl
      · exact ⟨l, c :: rest, hl, .inr ⟨rfl, fun h => hc (Option.some.inj h)⟩⟩
  · exact .inl hmem

private theorem dropWhile_line {l : Bytes} (hl : 13 ∉ l) (rest : Bytes) :
    (l ++ 13 :: rest).dropWhile (· ≠ 13) = 13 :: rest := by
  have hall : ∀ c ∈ l, decide (c ≠ 13) = true := by
    intro c hc
    exact decide_eq_true fun h => hl (h ▸ hc)
  rw [List.dropWhile_append_of_pos hall]
  rfl

/-- Where a line ends. -/
theorem line_unique {l l' x y : Bytes} (hl : 13 ∉ l) (hl' : 13 ∉ l')
    (heq : l ++ 13 :: x = l' ++ 13 :: y) : l = l' ∧ x = y := by
  have hrest : 13 :: x = 13 :: y := by
    rw [← dropWhile_line hl x, heq, dropWhile_line hl' y]
  obtain rfl := (List.cons.inj hrest).2
  exact ⟨List.append_cancel_right heq, rfl⟩

/-- A line is skipped with its end. -/
private theorem skipLine_line {l : Bytes} (hl : 13 ∉ l) (rest : Bytes) :
    skipLine (l ++ crlf ++ rest) = rest := by
  have hdrop : (l ++ crlf ++ rest).dropWhile (· ≠ 13) = 13 :: 10 :: rest := by
    rw [List.append_assoc]
    exact dropWhile_line hl _
  rw [skipLine, hdrop]
  rfl

/-- A carriage return alone ends no line. -/
private theorem skipLine_bare {l rest : Bytes} (hl : 13 ∉ l) (hrest : rest.head? ≠ some 10) :
    skipLine (l ++ 13 :: rest) = 13 :: rest := by
  have hbare : crlf.isPrefixOf (13 :: rest) = false := by
    cases rest with
    | nil => rfl
    | cons c rest =>
      have hc : (10 == c) = false := beq_false_of_ne fun h => hrest (congrArg some h.symm)
      simp only [crlf, List.isPrefixOf_cons_cons, hc, Bool.false_and, Bool.and_false]
  rw [skipLine, dropWhile_line hl]
  simp only [hbare, Bool.false_eq_true, if_false]

/-- A line that is not empty and has no end is not the end of a header. -/
private theorem not_ends_header {l : Bytes} (hl : 13 ∉ l) (hne : l ≠ []) (rest : Bytes) :
    ¬(l ++ rest = [] ∨ crlf.isPrefixOf (l ++ rest) = true) := by
  obtain ⟨c, l, rfl⟩ := List.exists_cons_of_ne_nil hne
  rintro (h | h)
  · cases h
  · have hc : 13 = c := (List.prefix_cons_iff.mp (List.isPrefixOf_iff_prefix.mp h)).elim nofun
      fun ⟨t, ht, _⟩ => (List.cons.inj ht).1
    exact hl (hc ▸ List.mem_cons_self)

/-- The search ends at a line that has the field. -/
private theorem findHeaderValue_found {field l rest : Bytes} (hfield : 13 ∉ field) (hl : 13 ∉ l)
    (hhas : hasField field l = true) (hrest : rest = [] ∨ rest.head? = some 13) :
    findHeaderValue field (l ++ rest) =
      .found (((l ++ rest).drop (field.length + 1)).dropWhile fun c => c = 32 || c = 9) := by
  have hne : l ≠ [] := by
    rintro rfl
    rw [hasField, List.getElem?_nil, Bool.and_comm] at hhas
    cases hhas
  have hwhole : hasField field (l ++ rest) = true := by
    rcases hrest with rfl | hrest
    · rw [List.append_nil]
      exact hhas
    · rw [hasField_append hfield hrest]
      exact hhas
  rw [findHeaderValue, if_neg (not_ends_header hl hne rest)]
  rw [hasField] at hwhole
  rw [hwhole, if_pos rfl]

/-- A line that has another field is passed over. -/
private theorem findHeaderValue_line {field l : Bytes} (hfield : 13 ∉ field) (hl : IsLine l)
    (hother : hasField field l = false) (rest : Bytes) :
    findHeaderValue field (l ++ crlf ++ rest) = findHeaderValue field rest := by
  have hends := not_ends_header hl.2 hl.1 (crlf ++ rest)
  have hfieldless : hasField field (l ++ (crlf ++ rest)) = false :=
    (hasField_append hfield rfl l).trans hother
  have hmoves : (skipLine (l ++ crlf ++ rest)).length < (l ++ crlf ++ rest).length := by
    rw [skipLine_line hl.2, List.length_append, List.length_append]
    exact Nat.lt_add_of_pos_left (Nat.add_pos_right _ (by decide))
  rw [findHeaderValue, List.append_assoc, if_neg hends]
  rw [hasField] at hfieldless
  rw [hfieldless, if_neg Bool.false_ne_true, ← List.append_assoc, if_pos hmoves,
    skipLine_line hl.2]

/-- Where a carriage return stands alone the search goes round. -/
private theorem findHeaderValue_bare {field l rest : Bytes} (hfield : 13 ∉ field) (hne : field ≠ [])
    (hl : 13 ∉ l) (hother : hasField field l = false) (hrest : rest.head? ≠ some 10) :
    findHeaderValue field (l ++ 13 :: rest) = .endless := by
  -- the search stops moving at the carriage return, so that is where it is unfolded last
  have hself : findHeaderValue field (13 :: rest) = .endless := by
    have hskip : skipLine (13 :: rest) = 13 :: rest := skipLine_bare List.not_mem_nil hrest
    have hfieldless : hasField field (13 :: rest) = false := by
      have := hasField_append hfield (show (13 :: rest).head? = some 13 from rfl) []
      rw [List.nil_append] at this
      rw [this]
      obtain ⟨f, field, rfl⟩ := List.exists_cons_of_ne_nil hne
      rfl
    have hends : ¬(13 :: rest = [] ∨ crlf.isPrefixOf (13 :: rest) = true) := by
      rintro (h | h)
      · cases h
      · obtain ⟨t, ht⟩ := List.isPrefixOf_iff_prefix.mp h
        obtain rfl := (List.cons.inj ht).2
        exact hrest rfl
    rw [findHeaderValue, if_neg hends]
    rw [hasField] at hfieldless
    rw [hfieldless, if_neg Bool.false_ne_true, hskip, if_neg (Nat.lt_irrefl _)]
  by_cases hnil : l = []
  · rw [hnil]
    exact hself
  · have hends := not_ends_header hl hnil (13 :: rest)
    have hfieldless :=
      (hasField_append hfield (show (13 :: rest).head? = some 13 from rfl) l).trans hother
    have hmoves : (13 :: rest).length < (l ++ 13 :: rest).length := by
      rw [List.length_append]
      exact Nat.lt_add_of_pos_left (List.length_pos_iff.mpr hnil)
    rw [findHeaderValue, if_neg hends]
    rw [hasField] at hfieldless
    rw [hfieldless, if_neg Bool.false_ne_true, skipLine_bare hl hrest, if_pos hmoves, hself]

/-- The search for a field passes over lines that do not have it. -/
private theorem findHeaderValue_unlines {field : Bytes} {lines : List Bytes} (hfield : 13 ∉ field)
    (hlines : ∀ l ∈ lines, IsLine l ∧ hasField field l = false) (rest : Bytes) :
    findHeaderValue field (unlines lines ++ rest) = findHeaderValue field rest := by
  induction lines with
  | nil => rfl
  | cons l lines ih =>
    obtain ⟨hl, hrest⟩ := List.forall_mem_cons.mp hlines
    rw [unlines, List.flatMap_cons, List.append_assoc (l ++ crlf),
      findHeaderValue_line hfield hl.1 hl.2]
    exact ih hrest

/-- The header ends after its lines. -/
theorem findHeaderValue_eq_missing {field : Bytes} {lines : List Bytes} (hfield : 13 ∉ field)
    (hlines : ∀ l ∈ lines, IsLine l ∧ hasField field l = false) (rest : Bytes) :
    findHeaderValue field (unlines lines ++ crlf ++ rest) = .missing := by
  rw [List.append_assoc, findHeaderValue_unlines hfield hlines, findHeaderValue]
  exact if_pos (.inr (List.isPrefixOf_iff_prefix.mpr (List.prefix_append crlf rest)))

/-- Without a carriage return the search ends. -/
private theorem findHeaderValue_ne_endless {field l : Bytes} (hfield : 13 ∉ field) (hl : 13 ∉ l) :
    findHeaderValue field l ≠ .endless := by
  intro hendless
  by_cases hnil : l = []
  · rw [hnil, findHeaderValue, if_pos (.inl rfl)] at hendless
    cases hendless
  by_cases hhas : hasField field l = true
  · have hfound := findHeaderValue_found hfield hl hhas (.inl rfl)
    rw [List.append_nil, hendless] at hfound
    cases hfound
  · have hends := not_ends_header hl hnil []
    have hskip : skipLine l = [] := by
      have hall : ∀ c ∈ l, decide (c ≠ 13) = true := by
        intro c hc
        exact decide_eq_true fun h => hl (h ▸ hc)
      rw [skipLine, List.dropWhile_eq_nil_iff.mpr hall]
      rfl
    have hmoves : ([] : Bytes).length < l.length := List.length_pos_iff.mpr hnil
    rw [List.append_nil] at hends
    rw [hasField] at hhas
    rw [findHeaderValue, if_neg hends, if_neg hhas, hskip, if_pos hmoves, findHeaderValue,
      if_pos (.inl rfl)] at hendless
    cases hendless

/-- The search does not end exactly when it comes to a carriage return that no line feed
follows. -/
theorem findHeaderValue_eq_endless_iff {field str : Bytes} (hfield : 13 ∉ field)
    (hne : field ≠ []) :
    findHeaderValue field str = .endless ↔
      ∃ lines l rest, str = unlines lines ++ (l ++ 13 :: rest) ∧
      (∀ l ∈ lines, IsLine l ∧ hasField field l = false) ∧
      13 ∉ l ∧ hasField field l = false ∧ rest.head? ≠ some 10 := by
  constructor
  · intro hendless
    induction hlen : str.length using Nat.strong_induction_on generalizing str with
    | _ n ih =>
      rcases exists_line str with hnone | ⟨l, rest, hl, rfl | ⟨rfl, hrest⟩⟩
      · exact absurd hendless (findHeaderValue_ne_endless hfield hnone)
      · by_cases hnil : l = []
        · rw [hnil, findHeaderValue, if_pos (.inr rfl)] at hendless
          cases hendless
        · by_cases hhas : hasField field l = true
          · rw [List.append_assoc, findHeaderValue_found hfield hl hhas (.inr rfl)] at hendless
            cases hendless
          · have hother := Bool.eq_false_iff.mpr hhas
            rw [findHeaderValue_line hfield ⟨hnil, hl⟩ hother] at hendless
            have hlt : rest.length < n := by
              rw [← hlen, List.length_append, List.length_append]
              exact Nat.lt_add_of_pos_left (Nat.add_pos_right _ (by decide))
            obtain ⟨lines, l', rest', rfl, hlines, hrest'⟩ := ih _ hlt hendless rfl
            refine ⟨l :: lines, l', rest', ?_, ?_, hrest'⟩
            · rw [unlines, unlines, List.flatMap_cons, List.append_assoc (l ++ crlf)]
            · exact List.forall_mem_cons.mpr ⟨⟨⟨hnil, hl⟩, hother⟩, hlines⟩
      · by_cases hhas : hasField field l = true
        · rw [findHeaderValue_found hfield hl hhas (.inr rfl)] at hendless
          cases hendless
        · exact ⟨[], l, rest, rfl, nofun, hl, Bool.eq_false_iff.mpr hhas, hrest⟩
  · rintro ⟨lines, l, rest, rfl, hlines, hl, hother, hrest⟩
    rw [findHeaderValue_unlines hfield hlines]
    exact findHeaderValue_bare hfield hne hl hother hrest

end Sandbird

end HiveSDK
