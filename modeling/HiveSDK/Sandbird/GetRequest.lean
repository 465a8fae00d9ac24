import HiveSDK.Sandbird.Request
import HiveSDK.Token.Keystore

/-!
# The request of a client that is sent back

A client that is sent back with an authorization code asks for the path of the redirect URL and
gives the code as a variable of the query, among others. `redirectEvent_getRequest` says that such a
request is one request, without a body, and that its event has the path and the code as they were
meant, whatever bytes the code consists of.
-/

namespace HiveSDK

open Url

namespace Sandbird

/-- A request for a target, with the lines of its header. -/
def getRequest (target : Bytes) (lines : List Bytes) : Bytes :=
  unlines ((ascii "GET " ++ target ++ ascii " HTTP/1.1") :: lines) ++ crlf

/-- The target of a redirect: the code stands behind other variables and before more of them. -/
def redirectTarget (path : Bytes) (vars : List Bytes) (code more : Bytes) : Bytes :=
  path ++ 63 :: (vars.flatMap (· ++ [38]) ++ (ascii "code=" ++ (escape code ++ more)))

/-- A byte that a target may consist of. -/
def Graphic (c : UInt8) : Prop := isSpace c = false ∧ c ≠ 0

/-- The variable has the given name. -/
def isVariable (name l : Bytes) : Bool := name.isPrefixOf l && l[name.length]? = some 61

/-- The path, and what stands around the code, consist of bytes that stand for themselves, the path
fits its buffer, and no variable before the code has its name. -/
structure IsRedirect (path : Bytes) (vars : List Bytes) (more : Bytes) : Prop where
  fits : path.length < 512
  plain : ∀ c ∈ path, Graphic c ∧ endsValue c = false ∧ c ≠ 37 ∧ c ≠ 43
  before : ∀ l ∈ vars, ∀ c ∈ l, Graphic c ∧ endsVariable c = false
  other : ∀ l ∈ vars, isVariable (ascii "code") l = false
  graphic : ∀ c ∈ more, Graphic c
  separated : more = [] ∨ more.head? = some 38

/-! ### The header -/

private theorem unlines_cons_append (l : Bytes) (lines : List Bytes) (rest : Bytes) :
    unlines (l :: lines) ++ rest = l ++ 13 :: 10 :: (unlines lines ++ rest) := by
  rw [unlines, List.flatMap_cons, List.append_assoc, List.append_assoc]
  rfl

/-- Among lines that are not empty no header ends before the last of them has. -/
private theorem eq_nil_of_unlines_eq {lines : List Bytes} (hlines : ∀ l ∈ lines, IsLine l)
    {q r : Bytes}
    (heq : unlines lines ++ crlf = q ++ 13 :: 10 :: 13 :: 10 :: r) : r = [] := by
  induction lines generalizing q with
  | nil =>
    have hlen := congrArg List.length heq
    rw [List.length_append, List.length_append] at hlen
    simp only [unlines, List.flatMap_nil, List.length_nil, crlf, List.length_cons] at hlen
    omega
  | cons l lines ih =>
    obtain ⟨hl, hrest⟩ := List.forall_mem_cons.mp hlines
    rw [unlines_cons_append] at heq
    by_cases hq : 13 ∈ q
    · -- the end that is looked for begins behind the first line
      obtain ⟨q₁, q₂, rfl, hq₁⟩ := List.eq_append_cons_of_mem hq
      rw [List.append_assoc, List.cons_append] at heq
      have heq := (line_unique hl.2 hq₁ heq).2
      cases q₂ with
      | nil => cases (List.cons.inj heq).1
      | cons c q₃ => exact ih hrest (List.cons.inj heq).2
    · have heq := (List.cons.inj (line_unique hl.2 hq heq).2).2
      cases lines with
      | nil => exact (List.cons.inj (List.cons.inj heq).2).2.symm
      | cons m lines =>
        obtain ⟨hm, -⟩ := List.forall_mem_cons.mp hrest
        obtain ⟨c, m, rfl⟩ := List.exists_cons_of_ne_nil hm.1
        rw [unlines_cons_append] at heq
        exact absurd ((List.cons.inj heq).1 ▸ List.mem_cons_self) hm.2

/-- Lines that are not empty, with an empty one behind them, are a header. -/
private theorem isHeader_unlines {lines : List Bytes} (hne : lines ≠ [])
    (hlines : ∀ l ∈ lines, IsLine l) :
    IsHeader (unlines lines ++ crlf) where
  ends := by
    obtain ⟨init, last, rfl⟩ := (List.eq_nil_or_concat lines).resolve_left hne
    refine ⟨unlines init ++ last, ?_⟩
    rw [List.concat_eq_append]
    simp only [unlines, List.flatMap_append, List.flatMap_cons, List.flatMap_nil, List.append_nil,
      List.append_assoc]
  first := by
    rintro p ⟨r, hr⟩ hp ⟨q, rfl⟩
    refine hp ?_
    have hnil : r = [] := by
      refine eq_nil_of_unlines_eq (q := q) hlines ?_
      rw [← hr, List.append_assoc]
      rfl
    rw [← hr, hnil, List.append_nil]

/-! ### The request line -/

/-- Where a scan stops behind a front of bytes that it takes. -/
private theorem span_append {p : UInt8 → Bool} {x rest : Bytes} (hx : ∀ c ∈ x, p c = true)
    (hrest : rest.head?.all (p · = false)) :
    (x ++ rest).takeWhile p = x ∧ (x ++ rest).dropWhile p = rest := by
  rw [List.takeWhile_append_of_pos hx, List.dropWhile_append_of_pos hx]
  cases rest with
  | nil => exact ⟨List.append_nil x, rfl⟩
  | cons c rest =>
    have hc : ¬p c = true := by simpa using hrest
    rw [List.takeWhile_cons_of_neg hc, List.dropWhile_cons_of_neg hc, List.append_nil]
    exact ⟨rfl, rfl⟩

/-- The request line of a GET is scanned into its parts. -/
private theorem scanRequestLine_get {target : Bytes} (hne : target ≠ [])
    (htarget : ∀ c ∈ target, Graphic c)
    (rest : Bytes) :
    scanRequestLine (ascii "GET " ++ (target ++ (ascii " HTTP/1.1" ++ (crlf ++ rest)))) =
      some (ascii "GET", target ++ (ascii " HTTP/1.1" ++ (crlf ++ rest)), ascii "HTTP/1.1") := by
  have hvisible : ∀ c ∈ target, (!isSpace c) = true := by
    intro c hc
    rw [(htarget c hc).1]
    rfl
  have hget : ascii "GET " = [71, 69, 84, 32] := by decide
  have hhttp : ascii " HTTP/1.1" = [32, 72, 84, 84, 80, 47, 49, 46, 49] := by decide
  generalize htail : ascii " HTTP/1.1" ++ (crlf ++ rest) = tail
  have hfirst : ([71, 69, 84, 32] ++ (target ++ tail)).dropWhile isSpace =
      [71, 69, 84, 32] ++ (target ++ tail) := rfl
  have hmethod : (([71, 69, 84, 32] ++ (target ++ tail)).takeWhile fun c => !isSpace c).take 15 =
      [71, 69, 84] := rfl
  have hskip : (([71, 69, 84, 32] ++ (target ++ tail)).drop 3).dropWhile isSpace =
      target ++ tail := by
    obtain ⟨c, target, rfl⟩ := List.exists_cons_of_ne_nil hne
    have hc : ¬isSpace c = true := Bool.eq_false_iff.mp (htarget c List.mem_cons_self).1
    exact List.dropWhile_cons_of_neg hc
  have hrest : (target ++ tail).dropWhile (fun c => !isSpace c) = tail := by
    refine (span_append hvisible ?_).2
    rw [← htail, hhttp]
    rfl
  have hver : ((tail.dropWhile isSpace).takeWhile fun c => !isSpace c).take 15 =
      ascii "HTTP/1.1" := by
    rw [← htail, hhttp]
    rfl
  unfold scanRequestLine
  rw [hget]
  simp only [hfirst, hmethod, List.length_cons, List.length_nil, Nat.zero_add, Nat.reduceAdd,
    hskip, hrest, hver]
  exact if_neg (by decide)

/-! ### The code -/

private theorem isVariable_cons_cons (n c : UInt8) (name l : Bytes) :
    isVariable (n :: name) (c :: l) = (n == c && isVariable name l) := by
  simp only [isVariable, List.isPrefixOf_cons_cons, List.length_cons, List.getElem?_cons_succ,
    Bool.and_assoc]

/-- What follows a variable does not matter to the name it has. -/
private theorem isVariable_append {name rest : Bytes} (hname : 38 ∉ name) (l : Bytes) :
    isVariable name (l ++ 38 :: rest) = isVariable name l := by
  induction name generalizing l with
  | nil =>
    cases l with
    | nil => rfl
    | cons c l => rfl
  | cons n name ih =>
    cases l with
    | nil =>
      have hn : (n == 38) = false := beq_false_of_ne fun h => hname (h ▸ List.mem_cons_self)
      rw [List.nil_append, isVariable_cons_cons, hn]
      rfl
    | cons c l =>
      rw [List.cons_append, isVariable_cons_cons, isVariable_cons_cons,
        ih (fun h => hname (List.mem_cons_of_mem n h))]

/-- A variable is found at its own name. -/
private theorem isVariable_self (name rest : Bytes) :
    isVariable name (name ++ 61 :: rest) = true := by
  have hpre : name.isPrefixOf (name ++ 61 :: rest) = true :=
    List.isPrefixOf_iff_prefix.mpr (List.prefix_append name _)
  rw [isVariable, hpre, List.getElem?_append_right (Nat.le_refl _), Nat.sub_self]
  rfl

/-- The first variable of a name is found behind others. -/
private theorem findVarValue_variables {name : Bytes} {vars : List Bytes} (hname : 38 ∉ name)
    (hvars : ∀ l ∈ vars, (∀ c ∈ l, endsVariable c = false) ∧ isVariable name l = false)
    (rest : Bytes) :
    findVarValue name (vars.flatMap (· ++ [38]) ++ (name ++ 61 :: rest)) = some rest := by
  induction vars with
  | nil =>
    have hself := isVariable_self name rest
    rw [isVariable] at hself
    rw [List.flatMap_nil, List.nil_append, findVarValue, if_pos hself, ← List.drop_drop,
      List.drop_left]
    rfl
  | cons l vars ih =>
    obtain ⟨⟨hl, hother⟩, hrest⟩ := List.forall_mem_cons.mp hvars
    generalize htail : vars.flatMap (· ++ [38]) ++ (name ++ 61 :: rest) = tail at ih
    have hwhole : (l :: vars).flatMap (· ++ [38]) ++ (name ++ 61 :: rest) = l ++ 38 :: tail := by
      rw [List.flatMap_cons, List.append_assoc, List.append_assoc, htail]
      rfl
    have hskip : (l ++ 38 :: tail).dropWhile (fun c => !endsVariable c) = 38 :: tail := by
      refine (span_append (fun c hc => ?_) rfl).2
      rw [hl c hc]
      rfl
    have hnot : isVariable name (l ++ 38 :: tail) = false := by
      rw [isVariable_append hname, hother]
    rw [isVariable] at hnot
    rw [hwhole, findVarValue, hnot, if_neg Bool.false_ne_true]
    split
    · rename_i next hnext
      obtain rfl := (List.cons.inj (hskip.symm.trans hnext)).2
      exact ih hrest
    · rename_i hno
      exact absurd hskip (hno tail)

/-! ### The event -/

variable {path code more : Bytes} {vars : List Bytes}

private theorem graphic_of_isUnreserved {c : UInt8} (hc : isUnreserved c = true) : Graphic c := by
  refine forall_byte (P := fun c => isUnreserved c = true → isSpace c = false ∧ c ≠ 0) ?_ c hc
  decide +kernel

/-- The target of a redirect has printable bytes only. -/
theorem IsRedirect.graphic_target (hredirect : IsRedirect path vars more) (code : Bytes) :
    ∀ c ∈ redirectTarget path vars code more, Graphic c := by
  have hcode : ∀ c ∈ ascii "code=", Graphic c := by
    unfold Graphic
    decide +kernel
  intro c hc
  simp only [redirectTarget, List.mem_append, List.mem_cons, List.mem_flatMap,
    List.not_mem_nil, or_false] at hc
  rcases hc with hc | rfl | ⟨l, hl, hc | rfl⟩ | hc | hc | hc
  · exact (hredirect.plain c hc).1
  · exact ⟨by decide, by decide⟩
  · exact (hredirect.before l hl c hc).1
  · exact ⟨by decide, by decide⟩
  · exact hcode c hc
  · rcases of_mem_escape hc with h | rfl
    · exact graphic_of_isUnreserved h
    · exact ⟨by decide, by decide⟩
  · exact hredirect.graphic c hc

/-- Its path is left as it is, up to the question mark. -/
theorem IsRedirect.decode_path (hredirect : IsRedirect path vars more) (rest : Bytes) :
    decode (path ++ 63 :: rest) = path := by
  have hpath := hredirect.plain
  clear hredirect
  induction path with
  | nil => exact decode_of_endsValue rest rfl
  | cons c path ih =>
    obtain ⟨⟨-, hends, hpercent, hplus⟩, hrest⟩ := List.forall_mem_cons.mp hpath
    rw [List.cons_append, decode_of_plain _ (Bool.eq_false_iff.mp hends) hpercent, if_neg hplus,
      ih hrest]

/-- The path of the target, as it comes out of its buffer. -/
theorem IsRedirect.urlDecode_path (hredirect : IsRedirect path vars more) (code rest : Bytes) :
    cString (urlDecode (redirectTarget path vars code more ++ rest) 512).2 = path := by
  have hzero : 0 ∉ path := fun h => (hredirect.plain 0 h).1.2 rfl
  have hlen := hredirect.fits
  rw [urlDecode_eq, redirectTarget, List.append_assoc, List.cons_append, hredirect.decode_path]
  unfold sbGetVar
  dsimp only
  split
  · rw [List.take_of_length_le (by omega)]
    exact cString_of_notMem hzero
  · exact cString_of_notMem hzero

/-- The code is found, and decoded to what it was. -/
theorem IsRedirect.findQueryVariable_code (hredirect : IsRedirect path vars more) (code : Bytes)
    (rest : Bytes) (hrest : rest.head? = some 32) :
    (findQueryVariable (ascii "code")
      (ascii "GET " ++ (redirectTarget path vars code more ++ rest))).map decode = some code := by
  obtain ⟨rest, rfl⟩ : ∃ x, rest = 32 :: x := by
    cases rest with
    | nil => cases hrest
    | cons c x => exact ⟨x, by rw [Option.some.inj hrest]⟩
  have hname : ascii "code=" = ascii "code" ++ [61] := by decide
  generalize hvalue : escape code ++ (more ++ 32 :: rest) = value
  have hwhole : ascii "GET " ++ (redirectTarget path vars code more ++ 32 :: rest) =
      (ascii "GET " ++ path) ++
        63 :: (vars.flatMap (· ++ [38]) ++ (ascii "code" ++ 61 :: value)) := by
    simp only [redirectTarget, hname, ← hvalue, List.append_assoc, List.cons_append,
      List.nil_append]
  -- the search for the question mark passes over the method and the path
  have hskip : (ascii "GET " ++ (redirectTarget path vars code more ++ 32 :: rest)).dropWhile
      (fun c => c ≠ 63 && c ≠ 13) =
        63 :: (vars.flatMap (· ++ [38]) ++ (ascii "code" ++ 61 :: value)) := by
    rw [hwhole]
    refine (span_append (fun c hc => ?_) rfl).2
    have hget : ∀ c ∈ ascii "GET ", (c ≠ 63 && c ≠ 13) = true := by decide +kernel
    rcases List.mem_append.mp hc with hc | hc
    · exact hget c hc
    · have hends := (hredirect.plain c hc).2.1
      have h63 : c ≠ 63 := by
        rintro rfl
        cases hends
      have h13 : c ≠ 13 := by
        rintro rfl
        cases hends
      simp only [h63, h13, ne_eq, not_false_eq_true, decide_true, Bool.and_self]
  -- then over the variables before the code
  have hvar : findVarValue (ascii "code")
      (vars.flatMap (· ++ [38]) ++ (ascii "code" ++ 61 :: value)) = some value := by
    refine findVarValue_variables (by decide) (fun l hl => ⟨fun c hc => ?_, ?_⟩) value
    · exact (hredirect.before l hl c hc).2
    · exact hredirect.other l hl
  -- and decodes its value up to what follows
  have hdecode : decode value = code := by
    have hstop : decode (more ++ 32 :: rest) = [] := by
      rcases hredirect.separated with rfl | hsep
      · exact decode_of_endsValue rest rfl
      · cases more with
        | nil => cases hsep
        | cons c more =>
          obtain rfl := Option.some.inj hsep
          exact decode_of_endsValue _ rfl
    rw [← hvalue, decode_escape, hstop, List.append_nil]
  have hfound : findQueryVariable (ascii "code")
      (ascii "GET " ++ (redirectTarget path vars code more ++ 32 :: rest)) = some value := by
    unfold findQueryVariable
    rw [hskip]
    exact hvar
  rw [hfound, Option.map_some, hdecode]

/-- A client that is sent back with an authorization code makes one request, without a body, and the
event of the request has the path and the code. -/
theorem redirectEvent_getRequest {lines : List Bytes} (hredirect : IsRedirect path vars more)
    (hlines : ∀ l ∈ lines, IsLine l ∧ 0 ∉ l ∧ hasField (ascii "Content-Length") l = false)
    (code : Bytes) :
    IsRequest (getRequest (redirectTarget path vars code more) lines) [] ∧
      redirectEvent (getRequest (redirectTarget path vars code more) lines) [] =
        some (.request path (some code)) := by
  generalize htarget : redirectTarget path vars code more = target
  have hgraphic : ∀ c ∈ target, Graphic c := htarget ▸ hredirect.graphic_target code
  have hne : target ≠ [] := by
    rw [← htarget, redirectTarget]
    exact List.append_ne_nil_of_right_ne_nil _ (List.cons_ne_nil _ _)
  have hcontent : 13 ∉ ascii "Content-Length" := by decide
  -- the request line is a line, and has another field
  have hfirst : IsLine (ascii "GET " ++ target ++ ascii " HTTP/1.1") ∧
      0 ∉ ascii "GET " ++ target ++ ascii " HTTP/1.1" ∧
      hasField (ascii "Content-Length") (ascii "GET " ++ target ++ ascii " HTTP/1.1") = false := by
    have hget : 13 ∉ ascii "GET " ∧ 0 ∉ ascii "GET " := by decide
    have hhttp : 13 ∉ ascii " HTTP/1.1" ∧ 0 ∉ ascii " HTTP/1.1" := by decide
    have hcr : 13 ∉ target := by
      intro h
      cases (hgraphic 13 h).1
    have hzero : 0 ∉ target := fun h => (hgraphic 0 h).2 rfl
    refine ⟨⟨?_, ?_⟩, ?_, rfl⟩
    · exact List.append_ne_nil_of_right_ne_nil _ (by decide)
    · simp only [List.mem_append, hget.1, hcr, hhttp.1, or_self, not_false_eq_true]
    · simp only [List.mem_append, hget.2, hzero, hhttp.2, or_self, not_false_eq_true]
  have hall : ∀ l ∈ (ascii "GET " ++ target ++ ascii " HTTP/1.1") :: lines,
      IsLine l ∧ 0 ∉ l ∧ hasField (ascii "Content-Length") l = false :=
    List.forall_mem_cons.mpr ⟨hfirst, hlines⟩
  have hzero : 0 ∉ getRequest target lines := by
    intro h
    rcases List.mem_append.mp h with h | h
    · obtain ⟨l, hl, h⟩ := List.mem_flatMap.mp h
      rcases List.mem_append.mp h with h | h
      · exact (hall l hl).2.1 h
      · exact absurd h (by decide)
    · exact absurd h (by decide)
  have hstring := cString_of_notMem hzero
  have hrequest : getRequest target lines = ascii "GET " ++ (target ++ (ascii " HTTP/1.1" ++
      (crlf ++ (unlines lines ++ crlf)))) := by
    simp only [getRequest, unlines, List.flatMap_cons, List.append_assoc]
  refine ⟨⟨?_, ?_⟩, ?_⟩
  · exact isHeader_unlines (List.cons_ne_nil _ _) fun l hl => (hall l hl).1
  · have hmissing := findHeaderValue_eq_missing hcontent
      (fun l hl => ⟨(hall l hl).1, (hall l hl).2.2⟩) []
    rw [List.append_nil] at hmissing
    rw [announced, hstring, getRequest, hmissing]
    rfl
  · have hcode := hredirect.findQueryVariable_code code
      (ascii " HTTP/1.1" ++ (crlf ++ (unlines lines ++ crlf))) rfl
    have hpath := hredirect.urlDecode_path code
      (ascii " HTTP/1.1" ++ (crlf ++ (unlines lines ++ crlf)))
    have hhttp : (ascii "HTTP").isPrefixOf (ascii "HTTP/1.1") = true := by decide
    rw [htarget] at hcode hpath
    unfold redirectEvent requestVariable
    rw [List.append_nil, hstring, hrequest, scanRequestLine_get hne hgraphic]
    dsimp only
    rw [if_pos hhttp, hpath]
    generalize findQueryVariable (ascii "code") _ = found at hcode
    cases found with
    | none => cases hcode
    | some value => exact congrArg (fun v => some (SbEvent.request path v)) hcode

end Sandbird

end HiveSDK
