import HiveSDK.Url.Form

/-!
# The authority of a URL

The generic syntax of a URI: a scheme, `://`, and up to the next `/`, `?` or `#` the authority,
which is a host with an optional user information before it and an optional port behind it. A host
is a name, in which there is no colon, or an address in brackets. So the first colon after a name
begins the port, and an address with colons is a host only in brackets (`target_ne_of_colon`).
-/

namespace Url

/-- One of `!$&'()*+,;=`. -/
def isSubDelim (c : UInt8) : Bool :=
  c = 33 || c = 36 || 38 ≤ c && c ≤ 44 || c = 59 || c = 61

/-- Unreserved bytes, delimiters allowed in a component, bytes in `extra` and percent escapes. The
digits of an escape are unreserved. -/
def isComponent (extra : UInt8 → Bool) : List UInt8 → Bool
  | [] => true
  | c :: x =>
    if c = 37 then startsHexPair x && isComponent extra x
    else (isUnreserved c || isSubDelim c || extra c) && isComponent extra x

/-- A host as it is written: a name (or an IPv4 address), or an address in brackets. -/
inductive Host
  | name (text : List UInt8)
  | literal (address : List UInt8)
  deriving DecidableEq, Repr

/-- The name or the address. -/
def Host.text : Host → List UInt8
  | name text => text
  | literal address => address

def isPortDigit (c : UInt8) : Bool := 48 ≤ c && c ≤ 57

/-- The value of a string of decimal digits. -/
def digitsValue (digits : List UInt8) : ℕ :=
  digits.foldl (fun n d => n * 10 + (d.toNat - 48)) 0

/-- What follows a host: nothing, or a colon and a port. -/
def parsePort : List UInt8 → Option (Option ℕ)
  | [] => some none
  | c :: digits =>
    if c = 58 ∧ digits.all isPortDigit then some (some (digitsValue digits)) else none

/-- A host and what follows it. -/
def parseHostPort (x : List UInt8) : Option (Host × Option ℕ) :=
  if x.head? = some 91 then
    let address := x.tail.takeWhile (· ≠ 93)
    if 93 ∈ x.tail ∧ isComponent (· = 58) address then
      (parsePort ((x.tail.dropWhile (· ≠ 93)).drop 1)).map fun port => (.literal address, port)
    else none
  else
    let name := x.takeWhile (· ≠ 58)
    if isComponent (fun _ => false) name then
      (parsePort (x.dropWhile (· ≠ 58))).map fun port => (.name name, port)
    else none

/-- The host and the port of an authority; there may be user information before an `@`. -/
def parseAuthority (x : List UInt8) : Option (Host × Option ℕ) :=
  if 64 ∈ x then
    if isComponent (· = 58) (x.takeWhile (· ≠ 64)) then
      parseHostPort ((x.dropWhile (· ≠ 64)).drop 1)
    else none
  else parseHostPort x

/-- A letter, and then letters, digits, `+`, `-` and `.`. -/
def isScheme : List UInt8 → Bool
  | [] => false
  | c :: x => isLetter c && x.all fun c => isLetter c || isPortDigit c || c = 43 || c = 45 || c = 46
where
  isLetter (c : UInt8) : Bool := 65 ≤ c && c ≤ 90 || 97 ≤ c && c ≤ 122

/-- The byte ends an authority. -/
def endsAuthority (c : UInt8) : Bool := c = 47 || c = 63 || c = 35

/-- The authority of a URL. -/
def authority (url : List UInt8) : Option (List UInt8) :=
  if isScheme (url.takeWhile (· ≠ 58)) ∧ (url.dropWhile (· ≠ 58)).take 3 = [58, 47, 47] then
    some (((url.dropWhile (· ≠ 58)).drop 3).takeWhile fun c => !endsAuthority c)
  else none

/-- The host a URL names, with its port. -/
def target (url : List UInt8) : Option (Host × Option ℕ) := (authority url).bind parseAuthority

/-! ### Decimal numbers -/

/-- The decimal digits of a number. -/
def decimal (n : ℕ) : List UInt8 := (Nat.toDigits 10 n).map fun c => UInt8.ofNat c.toNat

/-- One more digit. -/
private theorem digitsValue_append (x : List UInt8) (d : UInt8) :
    digitsValue (x ++ [d]) = digitsValue x * 10 + (d.toNat - 48) := by
  unfold digitsValue
  rw [List.foldl_append]
  rfl

private theorem digitChar_toNat {d : ℕ} (hd : d < 10) :
    (UInt8.ofNat (Nat.digitChar d).toNat).toNat - 48 = d ∧
      isPortDigit (UInt8.ofNat (Nat.digitChar d).toNat) = true := by
  have hall : ∀ d : Fin 10, (UInt8.ofNat (Nat.digitChar d).toNat).toNat - 48 = d ∧
      isPortDigit (UInt8.ofNat (Nat.digitChar d).toNat) = true := by decide
  exact hall ⟨d, hd⟩

/-- The digits of a number have its value. -/
theorem decimal_spec (n : ℕ) :
    digitsValue (decimal n) = n ∧ (decimal n).all isPortDigit = true := by
  induction n using Nat.strong_induction_on with
  | _ n ih =>
    by_cases hn : n < 10
    · have hdigits : decimal n = [UInt8.ofNat (Nat.digitChar n).toNat] := by
        unfold decimal
        rw [Nat.toDigits_of_lt_base hn, List.map_singleton]
      obtain ⟨hvalue, hdigit⟩ := digitChar_toNat hn
      rw [hdigits]
      refine ⟨?_, by rw [List.all_cons, List.all_nil, hdigit, Bool.and_self]⟩
      change 0 * 10 + _ = n
      rw [hvalue, Nat.zero_mul, Nat.zero_add]
    · have hdigits : decimal n =
          decimal (n / 10) ++ [UInt8.ofNat (Nat.digitChar (n % 10)).toNat] := by
        unfold decimal
        rw [Nat.toDigits_of_base_le (by decide) (not_lt.mp hn), List.map_append,
          List.map_singleton]
      obtain ⟨hvalue, hall⟩ := ih (n / 10) (by omega)
      obtain ⟨hlast, hdigit⟩ := digitChar_toNat (Nat.mod_lt n (by decide : 0 < 10))
      rw [hdigits]
      refine ⟨?_, ?_⟩
      · rw [digitsValue_append, hvalue, hlast]
        omega
      · rw [List.all_append, hall, List.all_cons, List.all_nil, hdigit]
        rfl

/-! ### URLs with a host and a port -/

section

variable {scheme ip path : List UInt8} {port : ℕ}

/-- The URL `<scheme>://<ip>:<port><path>`. -/
def hostPortUrl (scheme ip : List UInt8) (port : ℕ) (path : List UInt8) : List UInt8 :=
  scheme ++ ([58, 47, 47] ++ ((ip ++ 58 :: decimal port) ++ path))

/-- A scheme has no colon. -/
private theorem not_mem_of_isScheme (h : isScheme scheme = true) : 58 ∉ scheme := by
  cases scheme with
  | nil => exact List.not_mem_nil
  | cons c x =>
    rw [isScheme, Bool.and_eq_true, List.all_eq_true] at h
    intro hmem
    rcases List.mem_cons.mp hmem with heq | hmem
    · rw [← heq] at h
      exact absurd h.1 (by decide)
    · exact absurd (h.2 58 hmem) (by decide)

/-- What stands before the first byte that does not satisfy `p`, and the rest. -/
private theorem takeWhile_dropWhile_append {p : UInt8 → Bool} {x y : List UInt8} {c : UInt8}
    (hx : ∀ a ∈ x, p a = true) (hc : p c = false) :
    (x ++ c :: y).takeWhile p = x ∧ (x ++ c :: y).dropWhile p = c :: y := by
  rw [List.takeWhile_append_of_pos hx, List.dropWhile_append_of_pos hx,
    List.takeWhile_cons_of_neg (by rw [hc]; exact Bool.false_ne_true),
    List.dropWhile_cons_of_neg (by rw [hc]; exact Bool.false_ne_true), List.append_nil]
  exact ⟨rfl, rfl⟩

private theorem ne_colon_of_isPortDigit {c : UInt8} (h : isPortDigit c = true) :
    c ≠ 58 ∧ c ≠ 64 ∧ endsAuthority c = false := by
  refine ⟨?_, ?_, ?_⟩
  · rintro rfl
    exact absurd h (by decide)
  · rintro rfl
    exact absurd h (by decide)
  · unfold endsAuthority
    simp only [Bool.or_eq_false_iff, decide_eq_false_iff_not]
    refine ⟨⟨?_, ?_⟩, ?_⟩ <;>
    · rintro rfl
      exact absurd h (by decide)

/-- The authority is the host, a colon and the port. -/
private theorem authority_hostPortUrl (hscheme : isScheme scheme = true)
    (hip : ∀ c ∈ ip, endsAuthority c = false) {e : UInt8} {rest : List UInt8}
    (hpath : path = e :: rest) (he : endsAuthority e = true) :
    authority (hostPortUrl scheme ip port path) = some (ip ++ 58 :: decimal port) := by
  have hcolon : ∀ c ∈ scheme, decide (c ≠ 58) = true := by
    intro c hc
    rw [decide_eq_true_eq]
    rintro rfl
    exact not_mem_of_isScheme hscheme hc
  have hdigits := List.all_eq_true.mp (decimal_spec port).2
  have hinside : ∀ c ∈ ip ++ 58 :: decimal port, (!endsAuthority c) = true := by
    intro c hc
    rw [Bool.not_eq_true']
    rcases List.mem_append.mp hc with hc | hc
    · exact hip c hc
    rcases List.mem_cons.mp hc with rfl | hc
    · decide
    · exact (ne_colon_of_isPortDigit (hdigits c hc)).2.2
  obtain ⟨htake, hdrop⟩ := takeWhile_dropWhile_append (p := fun c => decide (c ≠ 58))
    (y := [47, 47] ++ ((ip ++ 58 :: decimal port) ++ path)) hcolon
    (by decide : decide ((58 : UInt8) ≠ 58) = false)
  have hurl : hostPortUrl scheme ip port path =
      scheme ++ 58 :: ([47, 47] ++ ((ip ++ 58 :: decimal port) ++ path)) := rfl
  unfold authority
  rw [hurl, htake, hdrop, if_pos ⟨hscheme, rfl⟩]
  subst hpath
  exact congrArg some (takeWhile_dropWhile_append hinside (by rw [he]; rfl)).1

/-- Unreserved bytes may stand in any component. -/
private theorem isComponent_of_unreserved {extra : UInt8 → Bool} {x : List UInt8}
    (hx : ∀ c ∈ x, isUnreserved c = true) : isComponent extra x = true := by
  induction x with
  | nil => rfl
  | cons c x ih =>
    have hc := hx c List.mem_cons_self
    have hpercent : c ≠ 37 := by
      rintro rfl
      exact absurd hc (by decide)
    rw [isComponent, if_neg hpercent, hc, ih fun d hd => hx d (List.mem_cons_of_mem _ hd)]
    rfl

/-- A host of unreserved bytes is found again, with its port. -/
theorem target_hostPortUrl (hscheme : isScheme scheme = true)
    (hip : ∀ c ∈ ip, isUnreserved c = true) {e : UInt8} {rest : List UInt8}
    (hpath : path = e :: rest) (he : endsAuthority e = true) :
    target (hostPortUrl scheme ip port path) = some (.name ip, some port) := by
  obtain ⟨hvalue, hdigits⟩ := decimal_spec port
  have hbyte {c d : UInt8} (hc : c ∈ ip) (hd : isUnreserved d = false) : c ≠ d := by
    rintro rfl
    rw [hip c hc] at hd
    cases hd
  have hends : ∀ c ∈ ip, endsAuthority c = false := by
    intro c hc
    unfold endsAuthority
    simp only [Bool.or_eq_false_iff, decide_eq_false_iff_not]
    exact ⟨⟨hbyte hc (by decide), hbyte hc (by decide)⟩, hbyte hc (by decide)⟩
  have huserinfo : 64 ∉ ip ++ 58 :: decimal port := by
    intro hmem
    rcases List.mem_append.mp hmem with hc | hc
    · exact hbyte hc (by decide) rfl
    rcases List.mem_cons.mp hc with hc | hc
    · cases hc
    · exact (ne_colon_of_isPortDigit (List.all_eq_true.mp hdigits 64 hc)).2.1 rfl
  have hbracket : (ip ++ 58 :: decimal port).head? ≠ some 91 := by
    cases ip with
    | nil => exact fun h => by cases h
    | cons c x =>
      intro h
      exact hbyte List.mem_cons_self (by decide) (Option.some.inj h)
  obtain ⟨htake, hdrop⟩ := takeWhile_dropWhile_append (p := fun c => decide (c ≠ 58))
    (y := decimal port) (fun c hc => decide_eq_true (hbyte hc (by decide)))
    (by decide : decide ((58 : UInt8) ≠ 58) = false)
  unfold target
  rw [authority_hostPortUrl hscheme hends hpath he, Option.bind_some, parseAuthority,
    if_neg huserinfo, parseHostPort, if_neg hbracket, htake, hdrop,
    if_pos (isComponent_of_unreserved hip), parsePort, if_pos ⟨rfl, hdigits⟩, hvalue]
  rfl

/-- An address with a colon is not found again: what is found ends before the colon. -/
theorem target_ne_of_colon (hscheme : isScheme scheme = true) (hcolon : 58 ∈ ip)
    (hip : ∀ c ∈ ip, c ≠ 64 ∧ c ≠ 91 ∧ endsAuthority c = false) {e : UInt8} {rest : List UInt8}
    (hpath : path = e :: rest) (he : endsAuthority e = true) {host : Host} {p : Option ℕ}
    (htarget : target (hostPortUrl scheme ip port path) = some (host, p)) : host.text ≠ ip := by
  have hdigits := List.all_eq_true.mp (decimal_spec port).2
  have huserinfo : 64 ∉ ip ++ 58 :: decimal port := by
    intro hmem
    rcases List.mem_append.mp hmem with hc | hc
    · exact (hip 64 hc).1 rfl
    rcases List.mem_cons.mp hc with hc | hc
    · cases hc
    · exact (ne_colon_of_isPortDigit (hdigits 64 hc)).2.1 rfl
  have hbracket : (ip ++ 58 :: decimal port).head? ≠ some 91 := by
    cases ip with
    | nil => exact fun h => by cases h
    | cons c x => exact fun h => (hip c List.mem_cons_self).2.1 (Option.some.inj h)
  unfold target at htarget
  rw [authority_hostPortUrl hscheme (fun c hc => (hip c hc).2.2) hpath he, Option.bind_some,
    parseAuthority, if_neg huserinfo, parseHostPort, if_neg hbracket] at htarget
  dsimp only at htarget
  split at htarget
  · obtain ⟨q, -, heq⟩ := Option.map_eq_some_iff.mp htarget
    cases heq
    intro htext
    rw [← htext] at hcolon
    have hne := List.mem_takeWhile_imp hcolon
    exact absurd hne (by decide)
  · cases htarget

end

end Url
