import Mathlib.Data.List.TakeWhile
import Mathlib.Tactic.NormNum

/-!
# The path of a URL, as it is sent and as it is read

A URL is put together as a string and then taken apart by a URL parser: the fragment begins
at the first `#`, the query at the first `?`, dot segments are removed, spaces and non-ASCII
bytes are percent-encoded, and escapes that are there already are kept. The server
percent-decodes what it receives.

`decodedPath` is the composition of these steps. None of them makes a path longer, and each
leaves a path alone exactly when it finds nothing to do; so the path that is read is the path
that was written exactly when the path is `Plain` (`decodedPath_eq_iff`).
-/

namespace Url

/-! ### Query and fragment -/

/-- What stands before the query and the fragment. -/
def beforeQuery (x : List UInt8) : List UInt8 := x.takeWhile fun c => c ≠ 35 && c ≠ 63

private theorem length_beforeQuery_le (x : List UInt8) : (beforeQuery x).length ≤ x.length :=
  (List.takeWhile_prefix _).length_le

/-- A path without a query is left as it is. -/
private theorem beforeQuery_eq_self {x : List UInt8} (h₁ : 35 ∉ x) (h₂ : 63 ∉ x) :
    beforeQuery x = x :=
  List.takeWhile_eq_self_iff.mpr fun c hc => by
    simp only [ne_eq, Bool.and_eq_true, decide_eq_true_eq]
    exact ⟨fun h => h₁ (h ▸ hc), fun h => h₂ (h ▸ hc)⟩

private theorem length_beforeQuery_lt {x : List UInt8} (h : 35 ∈ x ∨ 63 ∈ x) :
    (beforeQuery x).length < x.length := by
  refine lt_of_le_of_ne (length_beforeQuery_le x) fun heq => ?_
  have hself : beforeQuery x = x := (List.takeWhile_prefix _).eq_of_length heq
  have hall := List.takeWhile_eq_self_iff.mp hself
  rcases h with h | h
  · simpa using hall _ h
  · simpa using hall _ h

/-! ### Dot segments -/

/-- The segments of a path, the slashes left out. -/
def segments : List UInt8 → List (List UInt8)
  | [] => [[]]
  | c :: x =>
    if c = 47 then [] :: segments x
    else
      match segments x with
      | [] => [[c]]
      | s :: rest => (c :: s) :: rest

/-- The segments put together again, with a slash before each. -/
def joinSegments (segs : List (List UInt8)) : List UInt8 := segs.flatMap (47 :: ·)

private theorem segments_ne_nil (x : List UInt8) : segments x ≠ [] := by
  cases x with
  | nil => simp [segments]
  | cons c x =>
    unfold segments
    split
    · simp
    · split <;> simp

@[simp] theorem joinSegments_segments (x : List UInt8) : joinSegments (segments x) = 47 :: x := by
  induction x with
  | nil => rfl
  | cons c x ih =>
    unfold segments
    by_cases hc : c = 47
    · simp only [hc, if_true, joinSegments, List.flatMap_cons] at ih ⊢
      rw [ih]
      rfl
    · simp only [hc, if_false]
      cases hx : segments x with
      | nil => exact absurd hx (segments_ne_nil x)
      | cons s rest =>
        rw [hx] at ih
        simp only [joinSegments, List.flatMap_cons, List.cons_append] at ih ⊢
        rw [List.cons_inj_right] at ih
        rw [ih]

/-- A segment is `.` or `..`. -/
def isDot (s : List UInt8) : Bool := s = [46] || s = [46, 46]

/-- Remove dot segments; `out` holds the segments passed, the last one first. -/
def removeDots (out : List (List UInt8)) : List (List UInt8) → List (List UInt8)
  | [] => out.reverse
  | s :: rest =>
    if s = [46] then
      if rest = [] then ([] :: out).reverse else removeDots out rest
    else if s = [46, 46] then
      if rest = [] then ([] :: out.tail).reverse else removeDots out.tail rest
    else removeDots (s :: out) rest

/-- Without dot segments nothing is removed. -/
private theorem removeDots_eq_append {segs : List (List UInt8)} (out : List (List UInt8))
    (h : ∀ s ∈ segs, isDot s = false) : removeDots out segs = out.reverse ++ segs := by
  induction segs generalizing out with
  | nil => simp [removeDots]
  | cons s rest ih =>
    have hs := h s List.mem_cons_self
    simp only [isDot, Bool.or_eq_false_iff, decide_eq_false_iff_not] at hs
    rw [removeDots, if_neg hs.1, if_neg hs.2, ih _ fun s hs => h s (List.mem_cons_of_mem _ hs)]
    simp

private theorem length_joinSegments_append (a b : List (List UInt8)) :
    (joinSegments (a ++ b)).length = (joinSegments a).length + (joinSegments b).length := by
  simp [joinSegments, List.flatMap_append]

private theorem length_joinSegments_cons (s : List UInt8) (a : List (List UInt8)) :
    (joinSegments (s :: a)).length = s.length + 1 + (joinSegments a).length := by
  simp only [joinSegments, List.flatMap_cons, List.length_append, List.length_cons]

private theorem length_joinSegments_reverse (a : List (List UInt8)) :
    (joinSegments a.reverse).length = (joinSegments a).length := by
  induction a with
  | nil => rfl
  | cons s a ih =>
    rw [List.reverse_cons, length_joinSegments_append, ih, length_joinSegments_cons,
      length_joinSegments_cons]
    simp [joinSegments]
    omega

private theorem length_joinSegments_tail_le (a : List (List UInt8)) :
    (joinSegments a.tail).length ≤ (joinSegments a).length := by
  cases a with
  | nil => exact le_rfl
  | cons s a =>
    rw [List.tail_cons, length_joinSegments_cons]
    omega

/-- Removing dot segments makes no path longer. -/
private theorem length_removeDots_le (out segs : List (List UInt8)) :
    (joinSegments (removeDots out segs)).length ≤
      (joinSegments out).length + (joinSegments segs).length := by
  induction segs generalizing out with
  | nil => simp [removeDots, length_joinSegments_reverse]
  | cons s rest ih =>
    have htail := length_joinSegments_tail_le out
    unfold removeDots
    rw [length_joinSegments_cons]
    split
    · split
      · rw [length_joinSegments_reverse, length_joinSegments_cons]
        simp only [List.length_nil]
        omega
      · have := ih out
        omega
    split
    · split
      · rw [length_joinSegments_reverse, length_joinSegments_cons]
        simp only [List.length_nil]
        omega
      · have := ih out.tail
        omega
    · have := ih (s :: out)
      rw [length_joinSegments_cons] at this
      omega

/-- It makes one with a dot segment shorter. -/
private theorem length_removeDots_lt (out : List (List UInt8)) {segs : List (List UInt8)}
    (h : ∃ s ∈ segs, isDot s = true) :
    (joinSegments (removeDots out segs)).length <
      (joinSegments out).length + (joinSegments segs).length := by
  induction segs generalizing out with
  | nil => simp at h
  | cons s rest ih =>
    have htail := length_joinSegments_tail_le out
    unfold removeDots
    rw [length_joinSegments_cons]
    split
    · rename_i hs
      split
      · rw [length_joinSegments_reverse, length_joinSegments_cons, hs]
        simp only [List.length_nil, List.length_cons]
        omega
      · have := length_removeDots_le out rest
        omega
    split
    · rename_i hs
      split
      · rw [length_joinSegments_reverse, length_joinSegments_cons, hs]
        simp only [List.length_nil, List.length_cons]
        omega
      · have := length_removeDots_le out.tail rest
        omega
    · rename_i hdot hdots
      have hrest : ∃ s ∈ rest, isDot s = true := by
        obtain ⟨d, hd, hdot'⟩ := h
        rcases List.mem_cons.mp hd with rfl | hd
        · simp [isDot, hdot, hdots] at hdot'
        · exact ⟨d, hd, hdot'⟩
      have := ih (s :: out) hrest
      rw [length_joinSegments_cons] at this
      omega

/-! ### Percent escapes -/

def isHex (c : UInt8) : Bool :=
  48 ≤ c && c ≤ 57 || 65 ≤ c && c ≤ 70 || 97 ≤ c && c ≤ 102

def hexValue (c : UInt8) : UInt8 :=
  if c ≤ 57 then c - 48 else if c ≤ 70 then c - 55 else c - 87

def hexDigit (n : UInt8) : UInt8 := if n < 10 then n + 48 else n + 55

/-- The bytes begin with two hexadecimal digits. -/
def startsHexPair : List UInt8 → Bool
  | a :: b :: _ => isHex a && isHex b
  | _ => false

/-- There is a percent escape somewhere. -/
def hasEscape : List UInt8 → Bool
  | [] => false
  | c :: x => c = 37 && startsHexPair x || hasEscape x

/-- Percent-decoding; a `%` that begins no escape stays. -/
def percentDecode : List UInt8 → List UInt8
  | c :: a :: b :: x =>
    if c = 37 ∧ isHex a = true ∧ isHex b = true then
      (hexValue a * 16 + hexValue b) :: percentDecode x
    else c :: percentDecode (a :: b :: x)
  | x => x

/-- A byte the URL parser escapes: a space or a byte outside ASCII. -/
def isEncoded (c : UInt8) : Bool := c = 32 || 128 ≤ c

/-- Escape spaces and bytes outside ASCII. -/
def percentEncode : List UInt8 → List UInt8
  | [] => []
  | c :: x =>
    if isEncoded c then 37 :: hexDigit (c / 16) :: hexDigit (c % 16) :: percentEncode x
    else c :: percentEncode x

theorem percentDecode_cons {c : UInt8} {x : List UInt8}
    (h : ¬(c = 37 ∧ startsHexPair x = true)) : percentDecode (c :: x) = c :: percentDecode x := by
  match x with
  | [] => rfl
  | [_] => rfl
  | a :: b :: x =>
    rw [percentDecode, if_neg]
    simpa [startsHexPair] using h

/-- An escape is decoded from its two digits. -/
theorem percentDecode_escape {a b : UInt8} (x : List UInt8) (ha : isHex a = true)
    (hb : isHex b = true) :
    percentDecode (37 :: a :: b :: x) = (hexValue a * 16 + hexValue b) :: percentDecode x := by
  rw [percentDecode, if_pos ⟨rfl, ha, hb⟩]

private theorem not_isEncoded_of_isHex {c : UInt8} (h : isHex c = true) : isEncoded c = false := by
  simp only [isHex, isEncoded, Bool.or_eq_true, Bool.and_eq_true, decide_eq_true_eq,
    Bool.or_eq_false_iff, decide_eq_false_iff_not, not_le, UInt8.le_iff_toNat_le,
    ← UInt8.toNat_inj] at h ⊢
  constructor
  · intro hc
    rw [hc] at h
    revert h
    decide
  · have : (102 : UInt8).toNat = 102 := rfl
    have : (57 : UInt8).toNat = 57 := rfl
    have : (70 : UInt8).toNat = 70 := rfl
    have : (128 : UInt8).toNat = 128 := rfl
    omega

/-- Encoding does not create the second half of an escape. -/
private theorem startsHexPair_percentEncode (x : List UInt8) :
    startsHexPair (percentEncode x) = startsHexPair x := by
  have hpercent : isHex 37 = false := by decide
  match x with
  | [] => rfl
  | [a] =>
    unfold percentEncode
    split
    · simp [startsHexPair, hpercent]
    · rfl
  | a :: b :: x =>
    by_cases ha : isEncoded a = true
    · have hhex : isHex a = false := by
        by_contra h
        simp [not_isEncoded_of_isHex (by simpa using h)] at ha
      simp [percentEncode, ha, startsHexPair, hpercent, hhex]
    · by_cases hb : isEncoded b = true
      · have hhex : isHex b = false := by
          by_contra h
          simp [not_isEncoded_of_isHex (by simpa using h)] at hb
        simp [percentEncode, ha, hb, startsHexPair, hpercent, hhex]
      · simp [percentEncode, ha, hb, startsHexPair]

/-- What holds of 256 bytes holds of all. -/
theorem forall_byte {P : UInt8 → Prop} (hall : ∀ n : Fin 256, P (UInt8.ofNat n)) (c : UInt8) :
    P c := by
  have hc := hall ⟨c.toNat, c.toNat_lt⟩
  rwa [UInt8.ofNat_toNat] at hc

/-- The escape of a byte decodes to the byte. -/
theorem hexDigits_spec (c : UInt8) : isHex (hexDigit (c / 16)) = true ∧
    isHex (hexDigit (c % 16)) = true ∧
    hexValue (hexDigit (c / 16)) * 16 + hexValue (hexDigit (c % 16)) = c := by
  refine forall_byte (P := fun c => isHex (hexDigit (c / 16)) = true ∧
    isHex (hexDigit (c % 16)) = true ∧
    hexValue (hexDigit (c / 16)) * 16 + hexValue (hexDigit (c % 16)) = c) ?_ c
  decide +kernel

/-- Decoding what was encoded gives the bytes back if they hold no escape, and fewer bytes if
they do. -/
private theorem percentDecode_percentEncode (x : List UInt8) :
    (hasEscape x = false → percentDecode (percentEncode x) = x) ∧
      (hasEscape x = true → (percentDecode (percentEncode x)).length < x.length) ∧
      (percentDecode (percentEncode x)).length ≤ x.length := by
  match x with
  | [] => simp [percentEncode, percentDecode, hasEscape]
  | c :: x =>
    obtain ⟨hself, hlt, hle⟩ := percentDecode_percentEncode x
    by_cases hc : isEncoded c = true
    · -- an encoded byte is no `%`, and its escape decodes to it
      have hne : c ≠ 37 := by
        rintro rfl
        exact absurd hc (by decide)
      obtain ⟨h₁, h₂, hval⟩ := hexDigits_spec c
      have hdec : percentDecode (percentEncode (c :: x)) =
          c :: percentDecode (percentEncode x) := by
        rw [percentEncode, if_pos hc, percentDecode_escape _ h₁ h₂, hval]
      rw [hdec]
      simpa [hasEscape, hne, hle] using ⟨hself, hlt⟩
    have henc : percentEncode (c :: x) = c :: percentEncode x := by rw [percentEncode, if_neg hc]
    by_cases hesc : c = 37 ∧ startsHexPair x = true
    · -- an escape that was there before decodes to a single byte
      obtain ⟨rfl, hpair⟩ := hesc
      match x with
      | [] => simp [startsHexPair] at hpair
      | [_] => simp [startsHexPair] at hpair
      | a :: b :: x =>
        simp only [startsHexPair, Bool.and_eq_true] at hpair
        have hlen := (percentDecode_percentEncode x).2.2
        rw [henc, percentEncode, if_neg (by simp [not_isEncoded_of_isHex hpair.1]),
          percentEncode, if_neg (by simp [not_isEncoded_of_isHex hpair.2]),
          percentDecode_escape _ hpair.1 hpair.2]
        simp only [hasEscape, startsHexPair, hpair, List.length_cons]
        simp
        omega
    · have hdec : percentDecode (percentEncode (c :: x)) =
          c :: percentDecode (percentEncode x) := by
        rw [henc, percentDecode_cons]
        rwa [startsHexPair_percentEncode]
      rw [hdec]
      have hhas : hasEscape (c :: x) = hasEscape x := by
        have : (decide (c = 37) && startsHexPair x) = false := by
          simpa [Bool.and_eq_false_iff] using hesc
        simp [hasEscape, this]
      simpa [hhas, hle] using ⟨hself, hlt⟩

/-! ### The path read by the server -/

/-- The path that the server reads when `x` is written after the slash that ends the
authority. -/
def decodedPath (x : List UInt8) : List UInt8 :=
  percentDecode (percentEncode (joinSegments (removeDots [] (segments (beforeQuery x)))))

/-- Nothing in the path means anything to a URL parser. -/
structure Plain (x : List UInt8) : Prop where
  noFragment : 35 ∉ x
  noQuery : 63 ∉ x
  noDots : ∀ s ∈ segments x, isDot s = false
  noEscape : hasEscape x = false

/-- The path read is the path written exactly when it is plain. Every step may only shorten
the path, so the lengths tell whether one of them did. -/
theorem decodedPath_eq_iff {x : List UInt8} : decodedPath x = 47 :: x ↔ Plain x := by
  constructor
  · intro h
    have hlen : (decodedPath x).length = x.length + 1 := by rw [h, List.length_cons]
    have hquery := length_beforeQuery_le x
    have hdots := length_removeDots_le [] (segments (beforeQuery x))
    obtain ⟨-, hlt, hle⟩ :=
      percentDecode_percentEncode (joinSegments (removeDots [] (segments (beforeQuery x))))
    rw [joinSegments_segments, List.length_cons] at hdots
    simp only [joinSegments, List.flatMap_nil, List.length_nil, Nat.zero_add] at hdots
    simp only [decodedPath, joinSegments] at hlen hlt hle
    -- each part that is cut off makes the path shorter, and nothing makes it longer
    have hplain : 35 ∉ x ∧ 63 ∉ x := by
      by_contra hmem
      have := length_beforeQuery_lt (by tauto : 35 ∈ x ∨ 63 ∈ x)
      omega
    have hbefore := beforeQuery_eq_self hplain.1 hplain.2
    rw [hbefore] at hdots hlen hlt hle
    have hnodots : ∀ s ∈ segments x, isDot s = false := by
      by_contra hdot
      push Not at hdot
      have := length_removeDots_lt [] (show ∃ s ∈ segments x, isDot s = true by simpa using hdot)
      rw [joinSegments_segments, List.length_cons] at this
      simp only [joinSegments, List.flatMap_nil, List.length_nil, Nat.zero_add] at this
      omega
    refine ⟨hplain.1, hplain.2, hnodots, ?_⟩
    by_contra hescape
    have hsegs : removeDots [] (segments x) = segments x := removeDots_eq_append [] hnodots
    have hjoin : List.flatMap (47 :: ·) (segments x) = 47 :: x := joinSegments_segments x
    rw [hsegs, hjoin] at hlen hlt
    have := hlt (by simpa [hasEscape] using hescape)
    rw [List.length_cons] at this
    omega
  · rintro ⟨hfragment, hquery, hdots, hescape⟩
    have hsegs : removeDots [] (segments x) = segments x := removeDots_eq_append [] hdots
    rw [decodedPath, beforeQuery_eq_self hfragment hquery, hsegs, joinSegments_segments]
    exact (percentDecode_percentEncode (47 :: x)).1 (by simpa [hasEscape] using hescape)

/-! ### Paths put together from parts -/

/-- The last segment of the first part and the first segment of the second become one. -/
private theorem segments_append (x y : List UInt8) : ∃ init last first rest,
    segments x = init ++ [last] ∧ segments y = first :: rest ∧
      segments (x ++ y) = init ++ (last ++ first) :: rest := by
  induction x with
  | nil =>
    cases hy : segments y with
    | nil => exact absurd hy (segments_ne_nil y)
    | cons first rest => exact ⟨[], [], first, rest, rfl, rfl, by simpa using hy⟩
  | cons c x ih =>
    obtain ⟨init, last, first, rest, hx, hy, hxy⟩ := ih
    by_cases hc : c = 47
    · refine ⟨[] :: init, last, first, rest, ?_, hy, ?_⟩
      · simp [segments, hc, hx]
      · simp [segments, hc, hxy]
    · cases init with
      | nil =>
        refine ⟨[], c :: last, first, rest, ?_, hy, ?_⟩
        · simp [segments, hc, hx]
        · simp [segments, hc, hxy]
      | cons i init =>
        refine ⟨(c :: i) :: init, last, first, rest, ?_, hy, ?_⟩
        · simp [segments, hc, hx]
        · simp [segments, hc, hxy]

/-- A slash separates segments. -/
theorem segments_append_slash (x y : List UInt8) :
    segments (x ++ 47 :: y) = segments x ++ segments y := by
  obtain ⟨init, last, first, rest, hx, hy, hxy⟩ := segments_append x (47 :: y)
  simp only [segments, if_true, List.cons.injEq] at hy
  obtain ⟨rfl, rfl⟩ := hy
  rw [hxy, hx]
  simp

theorem hasEscape_append_left {x : List UInt8} (h : 37 ∉ x) (y : List UInt8) :
    hasEscape (x ++ y) = hasEscape y := by
  induction x with
  | nil => rfl
  | cons c x ih =>
    rw [List.mem_cons, not_or] at h
    have : decide (c = 37) = false := decide_eq_false fun hc => h.1 hc.symm
    simp [hasEscape, this, ih h.2]

/-- A byte that is no digit separates escapes. -/
theorem hasEscape_append_cons {c : UInt8} (hc : isHex c = false) {y : List UInt8}
    (hy : 37 ∉ c :: y) (x : List UInt8) : hasEscape (x ++ c :: y) = hasEscape x := by
  induction x with
  | nil => simpa [hasEscape] using hasEscape_append_left hy []
  | cons a x ih =>
    have hpair : startsHexPair (x ++ c :: y) = startsHexPair x := by
      match x with
      | [] => cases y <;> simp [startsHexPair, hc]
      | [_] => simp [startsHexPair, hc]
      | _ :: _ :: _ => rfl
    simp only [List.cons_append, hasEscape, hpair, ih]

/-- What follows the first slash after the authority of an absolute URL. -/
def afterAuthority (url : List UInt8) : List UInt8 :=
  (((url.dropWhile (· ≠ 58)).drop 3).dropWhile (· ≠ 47)).tail

end Url
