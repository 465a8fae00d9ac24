import HiveSDK.Url.Path

/-!
# Forms

A form body is a list of pairs, each written as a name, `=` and a value, and separated by `&`. A
reader splits it at the separators, turns `+` into a space and percent-decodes names and values
(`formDecode`). A writer that escapes every byte but the unreserved ones writes no separator, no `+`
and no `%` that is not its own, so any list of pairs is read as it was written
(`formDecode_formEncode`): no value can add a pair or end another one early.
-/

namespace Url

/-- A byte that stands for itself: `A`-`Z`, `a`-`z`, `0`-`9`, `-`, `.`, `_` or `~`. -/
def isUnreserved (c : UInt8) : Bool :=
  65 ≤ c && c ≤ 90 || 97 ≤ c && c ≤ 122 || 48 ≤ c && c ≤ 57 || c = 45 || c = 46 || c = 95 || c = 126

/-- Escape every byte that is not unreserved. -/
def escape : List UInt8 → List UInt8
  | [] => []
  | c :: x =>
    if isUnreserved c then c :: escape x
    else 37 :: hexDigit (c / 16) :: hexDigit (c % 16) :: escape x

/-- A `+` stands for a space. -/
def plusToSpace (x : List UInt8) : List UInt8 := x.map fun c => if c = 43 then 32 else c

/-- A name or a value as it is read. -/
def formValue (x : List UInt8) : List UInt8 := percentDecode (plusToSpace x)

/-- A pair as it is read: the name ends at the first `=`. -/
def formPair (piece : List UInt8) : List UInt8 × List UInt8 :=
  (formValue (piece.takeWhile (· ≠ 61)), formValue ((piece.dropWhile (· ≠ 61)).drop 1))

/-- The pairs of a form body. -/
def formDecode (body : List UInt8) : List (List UInt8 × List UInt8) :=
  ((body.splitOn 38).filter (· ≠ [])).map formPair

/-- One pair, written. -/
def formPiece (p : List UInt8 × List UInt8) : List UInt8 := escape p.1 ++ 61 :: escape p.2

/-- The form body with the given pairs. -/
def formEncode (pairs : List (List UInt8 × List UInt8)) : List UInt8 :=
  [38].intercalate (pairs.map formPiece)

variable {x : List UInt8} {c : UInt8}

private theorem hexDigit_unreserved (c : UInt8) :
    isUnreserved (hexDigit (c / 16)) = true ∧ isUnreserved (hexDigit (c % 16)) = true := by
  refine forall_byte (P := fun c =>
    isUnreserved (hexDigit (c / 16)) = true ∧ isUnreserved (hexDigit (c % 16)) = true) ?_ c
  decide +kernel

/-- What is escaped consists of unreserved bytes and `%`. -/
theorem of_mem_escape (hc : c ∈ escape x) : isUnreserved c = true ∨ c = 37 := by
  induction x with
  | nil => exact absurd hc List.not_mem_nil
  | cons d x ih =>
    unfold escape at hc
    split at hc
    · rename_i hd
      rcases List.mem_cons.mp hc with rfl | hc
      · exact .inl hd
      · exact ih hc
    · obtain ⟨h₁, h₂⟩ := hexDigit_unreserved d
      simp only [List.mem_cons] at hc
      rcases hc with rfl | rfl | rfl | hc
      · exact .inr rfl
      · exact .inl h₁
      · exact .inl h₂
      · exact ih hc

/-- An escaped text has no reserved byte but the percent sign. -/
private theorem not_mem_escape (hreserved : isUnreserved c = false) (hc : c ≠ 37) :
    c ∉ escape x := by
  intro hmem
  rcases of_mem_escape hmem with h | h
  · rw [hreserved] at h
    cases h
  · exact hc h

/-- An escaped string holds no `+`. -/
private theorem plusToSpace_escape (x : List UInt8) : plusToSpace (escape x) = escape x := by
  refine (List.map_congr_left fun c hc => ?_).trans (List.map_id _)
  have hplus : c ≠ 43 := by
    rintro rfl
    exact not_mem_escape (by decide) (by decide) hc
  rw [if_neg hplus, id]

/-- Escaping is undone by decoding. -/
private theorem percentDecode_escape_self (x : List UInt8) : percentDecode (escape x) = x := by
  induction x with
  | nil => rfl
  | cons c x ih =>
    unfold escape
    split
    · rename_i hc
      have hpercent : c ≠ 37 := by
        rintro rfl
        exact absurd hc (by decide)
      rw [percentDecode_cons fun h => hpercent h.1, ih]
    · obtain ⟨h₁, h₂, hvalue⟩ := hexDigits_spec c
      rw [percentDecode_escape _ h₁ h₂, hvalue, ih]

/-- An escaped string is read as it was. -/
private theorem formValue_escape (x : List UInt8) : formValue (escape x) = x := by
  unfold formValue
  rw [plusToSpace_escape, percentDecode_escape_self]

/-- The first `=` of a pair is the one that was written between name and value. -/
private theorem formPair_formPiece (p : List UInt8 × List UInt8) : formPair (formPiece p) = p := by
  have hname : ∀ c ∈ escape p.1, (decide (c ≠ 61)) = true := by
    intro c hc
    rw [decide_eq_true_eq]
    rintro rfl
    exact not_mem_escape (by decide) (by decide) hc
  have hend : (decide ((61 : UInt8) ≠ 61)) = false := by decide
  unfold formPair formPiece
  rw [List.takeWhile_append_of_pos hname, List.dropWhile_append_of_pos hname,
    List.takeWhile_cons_of_neg (by rw [hend]; exact Bool.false_ne_true),
    List.dropWhile_cons_of_neg (by rw [hend]; exact Bool.false_ne_true), List.append_nil,
    List.drop_succ_cons, List.drop_zero, formValue_escape, formValue_escape]

/-- A form is read as it was written. -/
theorem formDecode_formEncode (pairs : List (List UInt8 × List UInt8)) :
    formDecode (formEncode pairs) = pairs := by
  cases pairs with
  | nil => rfl
  | cons p pairs =>
    have hsep : ∀ piece ∈ (p :: pairs).map formPiece, 38 ∉ piece := by
      intro piece hpiece
      obtain ⟨q, -, rfl⟩ := List.mem_map.mp hpiece
      have hescape (x : List UInt8) : 38 ∉ escape x := not_mem_escape (by decide) (by decide)
      unfold formPiece
      simp only [List.mem_append, List.mem_cons, not_or]
      exact ⟨hescape _, by decide, hescape _⟩
    have hne : ∀ piece ∈ (p :: pairs).map formPiece, (decide (piece ≠ [])) = true := by
      intro piece hpiece
      obtain ⟨q, -, rfl⟩ := List.mem_map.mp hpiece
      rw [decide_eq_true_eq]
      exact List.append_ne_nil_of_right_ne_nil _ (List.cons_ne_nil _ _)
    unfold formDecode formEncode
    rw [List.splitOn_intercalate 38 hsep (List.cons_ne_nil _ _), List.filter_eq_self.mpr hne,
      List.map_map]
    exact (List.map_congr_left fun q _ => formPair_formPiece q).trans (List.map_id _)

end Url
