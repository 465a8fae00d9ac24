import HiveSDK.Model.OneDrive
import HiveSDK.Url.Path

/-!
# What a file name addresses

The name of a file or a key is pasted into the URL of a request as it is, between the
directory and the suffix that names the action, and the URL parser reads the result. A name
addresses its own item exactly when nothing in it means anything to the parser, nor to the
form `root:<item>:<action>` of the path (`addressed_iff`); two such names address two items.
-/

namespace HiveSDK.OneDrive

open Url

/-- The requests that are built from a name. -/
inductive ItemRequest
  | upload (body : Bytes)
  | createUploadSession
  | info (query : Bytes)
  | delete

namespace ItemRequest

/-- The suffix that names the action. -/
def suffix : ItemRequest → Bytes
  | upload _ => contentSuffix
  | createUploadSession => sessionSuffix
  | info _ => []
  | delete => deleteSuffix

/-- The request on the item at `path`. -/
def request (token path : Bytes) : ItemRequest → HttpRequest
  | upload body => uploadRequest token path body
  | createUploadSession => createUploadSessionRequest token path
  | info query => fileInfoRequest token path query
  | delete => deleteRequest token path

/-- The URL of a request for an item. -/
theorem request_url (token path : Bytes) (r : ItemRequest) :
    (r.request token path).url = itemUrl path r.suffix := by
  cases r <;> rfl

/-- A suffix is empty or begins with a colon, and means nothing to the URL parser. -/
theorem suffix_spec (r : ItemRequest) : (r.suffix = [] ∨ ∃ t, r.suffix = 58 :: t) ∧
    35 ∉ r.suffix ∧ 63 ∉ r.suffix ∧ 37 ∉ r.suffix := by
  cases r with
  | upload _ =>
    have h : 35 ∉ contentSuffix ∧ 63 ∉ contentSuffix ∧ 37 ∉ contentSuffix := by decide
    exact ⟨.inr ⟨_, rfl⟩, h⟩
  | createUploadSession => exact ⟨.inr ⟨_, rfl⟩, by decide⟩
  | info _ => exact ⟨.inl rfl, List.not_mem_nil, List.not_mem_nil, List.not_mem_nil⟩
  | delete => exact ⟨.inr ⟨_, rfl⟩, by decide⟩

end ItemRequest

/-- The part of every decoded path that stands before the item. -/
def itemRoot : Bytes := ascii "/v1.0/me/drive/special/approot:"

/-- The item a decoded path is about: what stands between the colon of the root and the one
that begins the action. -/
def itemOf (path : Bytes) : Bytes := (path.drop itemRoot.length).takeWhile (· ≠ 58)

/-- The path the server reads in a request. -/
def pathRead (request : HttpRequest) : Bytes := decodedPath (afterAuthority request.url)

/-- The full path of a name in one of the two directories. -/
def fullPath (dir name : Bytes) : Bytes := dir ++ ascii "/" ++ name

/-- The request built for `name` reads back as the root, the path of the name and the suffix,
and is about the item of that name. -/
structure Addressed (token dir name : Bytes) (r : ItemRequest) : Prop where
  literal : pathRead (r.request token (snprintfPath dir name).1) =
    itemRoot ++ fullPath dir name ++ r.suffix
  item : itemOf (pathRead (r.request token (snprintfPath dir name).1)) = fullPath dir name

/-- The name holds no `#`, `?`, `:` or percent escape, and no dot segment where it stands. -/
structure PlainName (name : Bytes) (r : ItemRequest) : Prop where
  noFragment : 35 ∉ name
  noQuery : 63 ∉ name
  noColon : 58 ∉ name
  noEscape : hasEscape name = false
  noDots : ∀ s ∈ segments (name ++ r.suffix), isDot s = false

/-! ### The path of a request -/

/-- The path of an item URL, without its first slash. -/
private theorem afterAuthority_itemUrl (path suffix : Bytes) :
    afterAuthority (itemUrl path suffix) = itemRoot.tail ++ path ++ suffix := by
  simp only [itemUrl, List.append_assoc]
  rfl

/-- A path whose URL fits the URL buffer was not cut off. -/
private theorem snprintfPath_of_fits {dir name suffix : Bytes}
    (h : (itemUrl (snprintfPath dir name).1 suffix).length < MAX_URL_LEN) :
    (snprintfPath dir name).1 = fullPath dir name := by
  unfold snprintfPath at h ⊢
  simp only [itemUrl, List.length_append, List.length_take] at h
  refine List.take_of_length_le ?_
  simp only [PATH_MAX, MAX_URL_LEN] at h ⊢
  simp only [List.length_append]
  omega

/-- The two directories, which mean nothing to the URL parser. -/
theorem dir_spec {dir : Bytes} (hdir : dir = FILES_DIR ∨ dir = KEYS_DIR) :
    (35 ∉ itemRoot.tail ++ dir ∧ 63 ∉ itemRoot.tail ++ dir ∧ 37 ∉ itemRoot.tail ++ dir) ∧
      (∀ s ∈ segments (itemRoot.tail ++ dir), isDot s = false) ∧ 58 ∉ dir := by
  rcases hdir with rfl | rfl
  · decide
  · decide

/-- Between the directory and the suffix only the name decides whether the path is plain. -/
private theorem plain_iff {dir name : Bytes} {r : ItemRequest}
    (hdir : dir = FILES_DIR ∨ dir = KEYS_DIR) :
    Plain (itemRoot.tail ++ fullPath dir name ++ r.suffix) ↔
      35 ∉ name ∧ 63 ∉ name ∧ hasEscape name = false ∧
        ∀ s ∈ segments (name ++ r.suffix), isDot s = false := by
  obtain ⟨⟨hd₁, hd₂, hd₃⟩, hdots, -⟩ := dir_spec hdir
  obtain ⟨hsuffix, hs₁, hs₂, hs₃⟩ := r.suffix_spec
  have hpath : itemRoot.tail ++ fullPath dir name ++ r.suffix =
      (itemRoot.tail ++ dir) ++ 47 :: (name ++ r.suffix) := by
    simp only [fullPath, List.append_assoc]
    rfl
  -- an escape cannot begin in the directory or run on into the suffix
  have hescape : hasEscape (itemRoot.tail ++ fullPath dir name ++ r.suffix) = hasEscape name := by
    rw [hpath, hasEscape_append_left hd₃]
    have : hasEscape (47 :: (name ++ r.suffix)) = hasEscape (name ++ r.suffix) := by
      simp [hasEscape]
    rw [this]
    rcases hsuffix with hnil | ⟨t, ht⟩
    · rw [hnil, List.append_nil]
    · rw [ht] at hs₃ ⊢
      exact hasEscape_append_cons (by decide) hs₃ name
  have hmem {c : UInt8} (hc : c ∉ itemRoot.tail ++ dir) (hc' : c ∉ r.suffix) (hne : c ≠ 47) :
      c ∉ itemRoot.tail ++ fullPath dir name ++ r.suffix ↔ c ∉ name := by
    rw [List.mem_append, not_or] at hc
    rw [hpath, List.mem_append, List.mem_append, List.mem_cons, List.mem_append]
    simp only [hc.1, hc.2, hc', hne, false_or, or_false]
  -- nor does the directory bring in a dot segment
  have hsegments : (∀ s ∈ segments (itemRoot.tail ++ fullPath dir name ++ r.suffix),
      isDot s = false) ↔ ∀ s ∈ segments (name ++ r.suffix), isDot s = false := by
    rw [hpath, segments_append_slash]
    refine ⟨fun h s hs => h s (List.mem_append_right _ hs), fun h s hs => ?_⟩
    exact (List.mem_append.mp hs).elim (hdots s) (h s)
  constructor
  · rintro ⟨h₁, h₂, h₃, h₄⟩
    exact ⟨(hmem hd₁ hs₁ (by decide)).mp h₁, (hmem hd₂ hs₂ (by decide)).mp h₂, hescape ▸ h₄,
      hsegments.mp h₃⟩
  · rintro ⟨h₁, h₂, h₃, h₄⟩
    exact ⟨(hmem hd₁ hs₁ (by decide)).mpr h₁, (hmem hd₂ hs₂ (by decide)).mpr h₂,
      hsegments.mpr h₄, hescape.trans h₃⟩

/-- The item of a path that reads back literally ends at the first colon. -/
private theorem itemOf_literal {dir name : Bytes} {r : ItemRequest}
    (hdir : dir = FILES_DIR ∨ dir = KEYS_DIR) :
    itemOf (itemRoot ++ fullPath dir name ++ r.suffix) = fullPath dir name ↔ 58 ∉ name := by
  obtain ⟨-, -, hcolon⟩ := dir_spec hdir
  have hmem : 58 ∈ fullPath dir name ↔ 58 ∈ name := by
    simp [fullPath, hcolon, ascii]
  unfold itemOf
  rw [List.append_assoc, List.drop_left]
  constructor
  · intro h hname
    have := List.mem_takeWhile_imp (h.symm ▸ hmem.mpr hname)
    simp at this
  · intro hname
    have htake : (fullPath dir name).takeWhile (· ≠ 58) = fullPath dir name :=
      List.takeWhile_eq_self_iff.mpr fun c hc => by
        simp only [ne_eq, decide_not, Bool.not_eq_true', decide_eq_false_iff_not]
        rintro rfl
        exact hname (hmem.mp hc)
    rcases r.suffix_spec.1 with hnil | ⟨t, ht⟩
    · rw [hnil, List.append_nil, htake]
    · rw [ht, List.takeWhile_append, htake]
      simp

/-! ### The names that address their own item -/

/-- A name whose URL fits the buffer addresses its own item exactly when it is plain. -/
private theorem addressed_iff_plain {token dir name : Bytes} {r : ItemRequest}
    (hdir : dir = FILES_DIR ∨ dir = KEYS_DIR)
    (hfits : (r.request token (snprintfPath dir name).1).url.length < MAX_URL_LEN) :
    Addressed token dir name r ↔ PlainName name r := by
  rw [ItemRequest.request_url] at hfits
  have hpath := snprintfPath_of_fits hfits
  have hread : pathRead (r.request token (snprintfPath dir name).1) =
      decodedPath (itemRoot.tail ++ fullPath dir name ++ r.suffix) := by
    rw [pathRead, ItemRequest.request_url, hpath, afterAuthority_itemUrl]
  have hliteral : pathRead (r.request token (snprintfPath dir name).1) =
      itemRoot ++ fullPath dir name ++ r.suffix ↔
      Plain (itemRoot.tail ++ fullPath dir name ++ r.suffix) := by
    rw [hread]
    exact decodedPath_eq_iff
  constructor
  · rintro ⟨hlit, hitem⟩
    obtain ⟨h₁, h₂, h₃, h₄⟩ := (plain_iff hdir).mp (hliteral.mp hlit)
    rw [hlit] at hitem
    exact ⟨h₁, h₂, (itemOf_literal hdir).mp hitem, h₃, h₄⟩
  · rintro ⟨h₁, h₂, h₃, h₄, h₅⟩
    have hlit := hliteral.mpr ((plain_iff hdir).mpr ⟨h₁, h₂, h₄, h₅⟩)
    exact ⟨hlit, hlit ▸ (itemOf_literal hdir).mpr h₃⟩

/-- Two plain names, or a name and a key, never address the same item. -/
private theorem item_injective {token token' dir dir' name name' : Bytes} {r r' : ItemRequest}
    (hdir : dir = FILES_DIR ∨ dir = KEYS_DIR) (hdir' : dir' = FILES_DIR ∨ dir' = KEYS_DIR)
    (h : Addressed token dir name r) (h' : Addressed token' dir' name' r')
    (hsame : itemOf (pathRead (r.request token (snprintfPath dir name).1)) =
      itemOf (pathRead (r'.request token' (snprintfPath dir' name').1))) :
    dir = dir' ∧ name = name' := by
  rw [h.item, h'.item] at hsame
  have hne : ∀ a b : Bytes, fullPath FILES_DIR a ≠ fullPath KEYS_DIR b := by
    intro a b hab
    have := congrArg (List.take 2) hab
    simp [fullPath, FILES_DIR, KEYS_DIR, ascii] at this
  rcases hdir with rfl | rfl <;> rcases hdir' with rfl | rfl
  · exact ⟨rfl, List.append_cancel_left hsame⟩
  · exact absurd hsame (hne _ _)
  · exact absurd hsame.symm (hne _ _)
  · exact ⟨rfl, List.append_cancel_left hsame⟩

/-- A name whose URL fits the buffer addresses its own item exactly when it is plain, and two
plain names, or a name and a key, address two items. -/
theorem addressed_iff {token dir name : Bytes} {r : ItemRequest}
    (hdir : dir = FILES_DIR ∨ dir = KEYS_DIR)
    (hfits : (r.request token (snprintfPath dir name).1).url.length < MAX_URL_LEN) :
    (Addressed token dir name r ↔ PlainName name r) ∧
      (PlainName name r → ∀ token' dir' name' r', (dir' = FILES_DIR ∨ dir' = KEYS_DIR) →
        (ItemRequest.request token' (snprintfPath dir' name').1 r').url.length < MAX_URL_LEN →
        PlainName name' r' → (dir, name) ≠ (dir', name') →
        itemOf (pathRead (r.request token (snprintfPath dir name).1)) ≠
          itemOf (pathRead (r'.request token' (snprintfPath dir' name').1))) := by
  refine ⟨addressed_iff_plain hdir hfits,
    fun hplain token' dir' name' r' hdir' hfits' hplain' => ?_⟩
  intro hne hsame
  obtain ⟨rfl, rfl⟩ := item_injective hdir hdir' ((addressed_iff_plain hdir hfits).mpr hplain)
    ((addressed_iff_plain hdir' hfits').mpr hplain') hsame
  exact hne rfl

theorem addressed_iff_report : Addressed [] FILES_DIR (ascii "report.txt") .delete ↔
    PlainName (ascii "report.txt") .delete :=
  (addressed_iff (.inl rfl) (by decide)).1

/-- What follows a `#` never reaches the server, so the request is about another item. -/
theorem not_addressed : ¬∀ (token dir name : Bytes) (r : ItemRequest), name ≠ [] →
    (dir = FILES_DIR ∨ dir = KEYS_DIR) →
    (r.request token (snprintfPath dir name).1).url.length < MAX_URL_LEN →
    Addressed token dir name r := by
  intro h
  have hitem := (h [] FILES_DIR (ascii "a#b") .delete (by decide) (.inl rfl) (by decide)).item
  exact absurd hitem (by decide)

end HiveSDK.OneDrive
