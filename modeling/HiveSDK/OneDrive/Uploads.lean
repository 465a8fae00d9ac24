import HiveSDK.FileTree.Tree
import HiveSDK.Interaction.Total
import HiveSDK.OneDrive.Urls
import HiveSDK.Service.Loopback
import Mathlib.Data.List.DropRight

/-!
# Large files

A file of up to 4 MiB is uploaded by one request, which creates the folders on its way; a larger
one by three, the first of which creates the folder the file is in. The service is the tree of its
folders and files here, and refuses nothing that it can do.

`FolderService.putSmall` and `FolderService.putLarge` say when an upload succeeds, and what the
tree is then. A folder cannot be created when it is there, and not in one that is missing, so the
large upload succeeds only when exactly the folder of the file is missing; the two agree when that
is so, or when no upload is possible (`FolderService.agrees_iff`).
-/

namespace HiveSDK

open Interaction C OneDrive
open FileTree (Tree components)

/-! ### Names in a path -/

/-- The names in a path. -/
abbrev pathNames (path : Bytes) : List Bytes := components 47 path

/-- The document that asks for a folder. -/
def folderDocument (name : Bytes) : Json :=
  .object [(ascii "name", .string name), (ascii "folder", .object [])]

/-- The URL of what is in a folder. -/
def childrenUrl (dir : Bytes) : Bytes :=
  if dir = ascii "/" then APP_ROOT ++ ascii "/children" else itemUrl dir childrenSuffix

/-- The path begins with a slash. -/
def Absolute (path : Bytes) : Prop := path.head? = some 47

section Paths

variable {path front : Bytes} {c : UInt8}

/-- The loop over trailing slashes, as a function on lists. -/
private theorem dropTrailingSlashes_eq : dropTrailingSlashes path = path.rdropWhile (· = 47) := rfl

/-- The slashes at the end of a path say nothing. -/
private theorem pathNames_dropTrailingSlashes :
    pathNames (dropTrailingSlashes path) = pathNames path := by
  induction path using List.reverseRecOn with
  | nil => rfl
  | append_singleton path c ih =>
    rw [dropTrailingSlashes_eq, List.rdropWhile_concat]
    split
    · rename_i hc
      obtain rfl := of_decide_eq_true hc
      rw [← dropTrailingSlashes_eq, ih, pathNames, pathNames, FileTree.components_snoc]
    · rfl

/-- A front of an absolute path is absolute. -/
theorem Absolute.of_front (h : Absolute path) (hfront : front <+: path) (hne : front ≠ []) :
    Absolute front := by
  obtain ⟨rest, rfl⟩ := hfront
  unfold Absolute at h ⊢
  rwa [List.head?_append_of_ne_nil _ hne] at h

/-- `dirname` and `basename` take the last name off. -/
private theorem dirname_basename (h : Absolute path) :
    (pathNames path = [] ∧ dirname path = ascii "/" ∧ basename path = ascii "/") ∨
      (47 ∉ basename path ∧ basename path ≠ [] ∧ Absolute (dirname path) ∧
        pathNames path = pathNames (dirname path) ++ [basename path]) := by
  have hpath : path ≠ [] := by
    rintro rfl
    cases h
  have hnames : pathNames (dropTrailingSlashes path) = pathNames path :=
    pathNames_dropTrailingSlashes
  have hprefix : dropTrailingSlashes path <+: path := List.rdropWhile_prefix _ _
  have hend : ∀ hne : dropTrailingSlashes path ≠ [], (dropTrailingSlashes path).getLast hne ≠ 47 :=
    fun hne heq => List.rdropWhile_last_not (fun c : UInt8 => c = 47) path hne (decide_eq_true heq)
  unfold dirname basename
  generalize dropTrailingSlashes path = trimmed at hnames hprefix hend ⊢
  dsimp only
  by_cases hne : trimmed = []
  · left
    rw [if_pos hne, if_pos hne, if_neg hpath, ← hnames, hne]
    exact ⟨FileTree.components_nil, rfl, rfl⟩
  right
  have habsolute : Absolute trimmed := h.of_front hprefix hne
  have hslash : 47 ∈ trimmed := List.mem_of_head? habsolute
  rw [if_neg hne, if_neg (not_not.mpr hslash), if_neg hne]
  -- the path is what is in front of its last name, which ends with a slash, and that name
  have hsplit := List.rdropWhile_append_rtakeWhile (p := (· ≠ (47 : UInt8))) (l := trimmed)
  have hname : trimmed.rtakeWhile (· ≠ 47) ≠ [] := by
    rw [Ne, List.rtakeWhile_eq_nil_iff]
    intro hlast
    exact hend hne (by simpa using hlast hne)
  have hclean : 47 ∉ trimmed.rtakeWhile (· ≠ 47) := by
    intro hmem
    simpa using List.mem_rtakeWhile_imp hmem
  have hfrontEnd := List.rdropWhile_last_not (fun c : UInt8 => decide (c ≠ 47)) trimmed
  have hunfolded : (trimmed.reverse.dropWhile (· ≠ 47)).reverse =
      trimmed.rdropWhile (· ≠ 47) := rfl
  have hunfolded' : (trimmed.reverse.takeWhile (· ≠ 47)).reverse =
      trimmed.rtakeWhile (· ≠ 47) := rfl
  rw [hunfolded, hunfolded']
  generalize trimmed.rtakeWhile (· ≠ 47) = name at hsplit hname hclean ⊢
  generalize trimmed.rdropWhile (· ≠ 47) = front at hsplit hfrontEnd ⊢
  subst hsplit
  have hfront : front ≠ [] := by
    rintro rfl
    exact hclean hslash
  obtain ⟨u, c, rfl⟩ := (List.eq_nil_or_concat front).resolve_left hfront
  rw [List.concat_eq_append] at *
  obtain rfl : c = 47 := by simpa using hfrontEnd hfront
  have hdirname : pathNames (if dropTrailingSlashes (u ++ [47]) = [] then ascii "/"
      else dropTrailingSlashes (u ++ [47])) = pathNames u := by
    have hu : pathNames (dropTrailingSlashes (u ++ [47])) = pathNames u := by
      rw [pathNames_dropTrailingSlashes, pathNames, FileTree.components_snoc]
    split
    · rename_i hnil
      rw [← hu, hnil]
      rfl
    · exact hu
  refine ⟨hclean, hname, ?_, ?_⟩
  · split
    · rfl
    · rename_i hdir
      exact (habsolute.of_front (List.prefix_append _ _) hfront).of_front
        (List.rdropWhile_prefix _ _) hdir
  · rw [hdirname, ← hnames, List.append_assoc, List.singleton_append, pathNames,
      FileTree.components_append_name hclean hname]

/-- The directory of an absolute path is absolute. -/
private theorem absolute_dirname (h : Absolute path) : Absolute (dirname path) := by
  rcases dirname_basename h with ⟨-, hroot, -⟩ | ⟨-, -, habsolute, -⟩
  · rw [hroot]
    rfl
  · exact habsolute

/-- The directory has all names but the last. -/
private theorem pathNames_dirname (h : Absolute path) :
    pathNames (dirname path) = (pathNames path).dropLast := by
  rcases dirname_basename h with ⟨hnil, hroot, -⟩ | ⟨-, -, -, hnames⟩
  · rw [hnil, hroot]
    rfl
  · rw [hnames, List.dropLast_concat]

end Paths

/-! ### The service -/

/-- A service of folders and files: the URLs of its upload sessions, how a document is written that
is sent to it, and the times the clock shows while it is used. -/
structure FolderService where
  uploadUrl : Bytes → Bytes
  print : Json → Bytes
  clock : Timeval → Prop
  uploadUrl_ne : ∀ path, uploadUrl path ≠ []
  uploadUrl_injective : Function.Injective uploadUrl
  print_folder : ∀ name name', print (folderDocument name) = print (folderDocument name') →
    name = name'
  clock_ticks : ∃ now, clock now

/-- The folders and files. -/
abbrev Folders := Tree Bytes Bytes

/-- Answered, but neither with a success nor with a 401. -/
def HttpReply.Refused (reply : HttpReply) : Prop :=
  ∃ status, reply.answer = .ok status ∧
    status ∉ [HttpStatus_Created, HttpStatus_OK, HttpStatus_Unauthorized]

/-- A session is opened at this URL. -/
def HttpReply.Opens (url : Bytes) (reply : HttpReply) : Prop :=
  reply.answer = .ok HttpStatus_OK ∧ reply.received ≠ [] ∧ ∃ json, reply.parsed = some json ∧
    Json.nonemptyString? (json.getObjectItemCaseSensitive (ascii "uploadUrl")) = some url

namespace FolderService

/-- A file is stored with the folders on its way, unless something else is there. -/
inductive Uploads (t : Folders) (p : List Bytes) (body : Bytes) : HttpReply → Folders → Prop
  | stored {reply : HttpReply} {t' : Folders} (hreply : reply.Stored) (h : t.Stores p body t') :
      Uploads t p body reply t'
  | refused {reply : HttpReply} (hreply : reply.Refused) (h : ¬t.Storable p) :
      Uploads t p body reply t

/-- A folder is created in one that is there, unless something of this name is there. -/
inductive Creates (t : Folders) (p : List Bytes) (name : Bytes) : HttpReply → Folders → Prop
  | created {reply : HttpReply} (hreply : reply.Stored) (hname : 47 ∉ name ∧ name ≠ [])
      (hparent : t.IsDirectory (p ++ [name]).dropLast) (hfree : t.node (p ++ [name]) = none) :
      Creates t p name reply (t.addDirectory (p ++ [name]) hparent hfree)
  | conflict {reply : HttpReply} (hreply : reply.answer = .ok 409)
      (h : (t.node (p ++ [name])).isSome) : Creates t p name reply t
  | missing {reply : HttpReply} (hreply : reply.answer = .ok HttpStatus_NotFound)
      (h : t.node p = none) : Creates t p name reply t
  | refused {reply : HttpReply} (hreply : reply.Refused)
      (h : ¬(47 ∉ name ∧ name ≠ []) ∨ t.IsFile p) : Creates t p name reply t

/-- A session is opened for a file in a folder that is there. -/
inductive Sessions (t : Folders) (p : List Bytes) (url : Bytes) : HttpReply → Prop
  | opened {reply : HttpReply} (hreply : reply.Opens url) (hparent : t.IsDirectory p.dropLast)
      (hfree : ¬t.IsDirectory p) : Sessions t p url reply
  | refused {reply : HttpReply} (hreply : reply.Refused)
      (h : ¬t.IsDirectory p.dropLast ∨ t.IsDirectory p) : Sessions t p url reply

/-- What the service answers to a request, and its tree afterwards. -/
inductive Answers (S : FolderService) (t : Folders) : HttpRequest → HttpReply → Folders → Prop
  | upload {reply : HttpReply} {t' : Folders} (token path body : Bytes)
      (h : Uploads t (pathNames path) body reply t') :
      Answers S t (uploadRequest token path body) reply t'
  | createFolder {reply : HttpReply} {t' : Folders} (token dir name : Bytes)
      (h : Creates t (pathNames dir) name reply t') :
      Answers S t (createFolderRequest token (childrenUrl dir) (S.print (folderDocument name)))
        reply t'
  | createSession {reply : HttpReply} (token path : Bytes)
      (h : Sessions t (pathNames path) (S.uploadUrl path) reply) :
      Answers S t (createUploadSessionRequest token path) reply t
  | session {reply : HttpReply} {t' : Folders} (path body : Bytes)
      (h : Uploads t (pathNames path) body reply t') :
      Answers S t (uploadToSessionRequest (S.uploadUrl path) body) reply t'

/-- The environment of an upload while nothing fails but what the service must refuse. -/
def handler (S : FolderService) : Handler Folders Call Call.Reply
  | t, .gettimeofday, now, t' => S.clock now ∧ t' = t
  | t, .httpClientNew _, created, t' => created = true ∧ t' = t
  | t, .cJSON_CreateObject, created, t' => created = true ∧ t' = t
  | t, .cJSON_Print json, text, t' => text = some (S.print json) ∧ t' = t
  | t, .httpClientPerform request, reply, t' => S.Answers t request reply t'
  | t, _, _, t' => t' = t

/-- The connection has a token that is valid at every time the clock shows. -/
structure Authorized (S : FolderService) (s : Thread OneDriveConnect) : Prop where
  token : s.conn.token.accessToken.isSome
  valid : ∀ now, S.clock now → now.after s.conn.token.expiresAt = false

/-! ### What is asked is answered -/

section Answers

variable {S : FolderService} {t t' : Folders} {p : List Bytes} {token path dir name body : Bytes}
  {reply : HttpReply}

/-- The service answers every upload. -/
private theorem exists_uploads (t : Folders) (p : List Bytes) (body : Bytes) :
    ∃ reply t', Uploads t p body reply t' := by
  by_cases h : t.Storable p
  · obtain ⟨t', ht'⟩ := Tree.exists_stores h body
    exact ⟨Drive.answered 201 [] none, t', .stored (.inr rfl) ht'⟩
  · exact ⟨Drive.answered 403 [] none, t, .refused ⟨403, rfl, by decide⟩ h⟩

/-- It answers every creation of a folder. -/
private theorem exists_creates (t : Folders) (p : List Bytes) (name : Bytes) :
    ∃ reply t', Creates t p name reply t' := by
  by_cases hname : 47 ∉ name ∧ name ≠ []
  swap
  · exact ⟨Drive.answered 400 [] none, t, .refused ⟨400, rfl, by decide⟩ (.inl hname)⟩
  cases hnode : t.node p with
  | none => exact ⟨Drive.answered 404 [] none, t, .missing rfl hnode⟩
  | some node =>
    cases node with
    | file content =>
      exact ⟨Drive.answered 400 [] none, t, .refused ⟨400, rfl, by decide⟩ (.inr ⟨content, hnode⟩)⟩
    | directory =>
      cases hfree : t.node (p ++ [name]) with
      | none =>
        exact ⟨Drive.answered 201 [] none, _,
          .created (.inr rfl) hname (by rwa [List.dropLast_concat]) hfree⟩
      | some there =>
        exact ⟨Drive.answered 409 [] none, t, .conflict rfl (by rw [hfree, Option.isSome_some])⟩

/-- It answers every request for a session. -/
private theorem exists_sessions (t : Folders) (p : List Bytes) {url : Bytes} (hurl : url ≠ []) :
    ∃ reply, Sessions t p url reply := by
  by_cases h : t.IsDirectory p.dropLast ∧ ¬t.IsDirectory p
  · refine ⟨Drive.answered 200 (ascii "{}") (some (.object [(ascii "uploadUrl", .string url)])),
      .opened ⟨rfl, ?_, _, rfl, ?_⟩ h.1 h.2⟩
    · rw [Drive.received_answered]
      decide
    · exact Json.nonemptyString?_eq_some.mpr ⟨hurl, rfl⟩
  · refine ⟨Drive.answered 403 [] none, .refused ⟨403, rfl, by decide⟩ ?_⟩
    by_cases hparent : t.IsDirectory p.dropLast
    · exact .inr (not_not.mp fun hfree => h ⟨hparent, hfree⟩)
    · exact .inl hparent

/-- The URL of a folder's children determines the folder. -/
private theorem childrenUrl_injective : Function.Injective childrenUrl := by
  have hroot (dir : Bytes) : APP_ROOT ++ ascii "/children" ≠ itemUrl dir childrenSuffix := by
    intro h
    rw [itemUrl, List.append_assoc, List.append_assoc] at h
    cases List.append_cancel_left h
  intro dir dir' h
  unfold childrenUrl at h
  split at h
  · split at h
    · rename_i hdir hdir'
      rw [hdir, hdir']
    · exact absurd h (hroot dir')
  · split at h
    · exact absurd h.symm (hroot dir)
    · exact Drive.itemUrl_injective h

/-- The request to create a folder opens no session. -/
private theorem childrenUrl_ne_session : childrenUrl dir ≠ itemUrl path sessionSuffix := by
  intro h
  unfold childrenUrl at h
  split at h
  · rw [itemUrl, List.append_assoc, List.append_assoc] at h
    cases List.append_cancel_left h
  · have hlast (path : Bytes) {suffix : Bytes} (hsuffix : 2 ≤ suffix.reverse.length) :
        (itemUrl path suffix).reverse.take 2 = suffix.reverse.take 2 := by
      rw [itemUrl, List.reverse_append, List.take_append_of_le_length hsuffix]
    have hends : childrenSuffix.reverse.take 2 = sessionSuffix.reverse.take 2 := by
      rw [← hlast dir (by decide), h, hlast path (by decide)]
    revert hends
    decide

/-- An answered upload is one. -/
theorem Answers.of_upload (h : S.Answers t (uploadRequest token path body) reply t') :
    Uploads t (pathNames path) body reply t' := by
  generalize hr : uploadRequest token path body = request at h
  cases h with
  | upload token' path' body' h =>
    obtain ⟨hurl, -, rfl⟩ : itemUrl path contentSuffix = itemUrl path' contentSuffix ∧ _ ∧
        body = body' := by
      simpa [uploadRequest] using hr
    obtain rfl := Drive.itemUrl_injective hurl
    exact h
  | session => simp [uploadRequest, uploadToSessionRequest] at hr
  | _ => cases congrArg HttpRequest.method hr

/-- An answered creation of a folder is one. -/
theorem Answers.of_createFolder (h : S.Answers t
    (createFolderRequest token (childrenUrl dir) (S.print (folderDocument name))) reply t') :
    Creates t (pathNames dir) name reply t' := by
  generalize hr : createFolderRequest token (childrenUrl dir) (S.print (folderDocument name)) =
    request at h
  cases h with
  | createFolder token' dir' name' h =>
    obtain ⟨hurl, -, hname⟩ : childrenUrl dir = childrenUrl dir' ∧ _ ∧
        S.print (folderDocument name) = S.print (folderDocument name') := by
      simpa [createFolderRequest] using hr
    obtain rfl := childrenUrl_injective hurl
    obtain rfl := S.print_folder _ _ hname
    exact h
  | createSession => exact absurd (congrArg HttpRequest.url hr) childrenUrl_ne_session
  | _ => cases congrArg HttpRequest.method hr

/-- An answered request for a session is one, and changes nothing. -/
theorem Answers.of_createSession
    (h : S.Answers t (createUploadSessionRequest token path) reply t') :
    Sessions t (pathNames path) (S.uploadUrl path) reply ∧ t' = t := by
  generalize hr : createUploadSessionRequest token path = request at h
  cases h with
  | createSession token' path' h =>
    obtain ⟨hurl, -⟩ : itemUrl path sessionSuffix = itemUrl path' sessionSuffix ∧ _ := by
      simpa [createUploadSessionRequest] using hr
    obtain rfl := Drive.itemUrl_injective hurl
    exact ⟨h, rfl⟩
  | createFolder => exact absurd (congrArg HttpRequest.url hr.symm) childrenUrl_ne_session
  | _ => cases congrArg HttpRequest.method hr

/-- An answered upload to a session is an upload. -/
theorem Answers.of_session
    (h : S.Answers t (uploadToSessionRequest (S.uploadUrl path) body) reply t') :
    Uploads t (pathNames path) body reply t' := by
  generalize hr : uploadToSessionRequest (S.uploadUrl path) body = request at h
  cases h with
  | session path' body' h =>
    obtain ⟨hurl, -, rfl⟩ : S.uploadUrl path = S.uploadUrl path' ∧ _ ∧ body = body' := by
      simpa [uploadToSessionRequest] using hr
    obtain rfl := S.uploadUrl_injective hurl
    exact h
  | upload => simp [uploadRequest, uploadToSessionRequest] at hr
  | _ => cases congrArg HttpRequest.method hr

end Answers

/-! ### The requests of an upload -/

section Requests

variable {S : FolderService} {s : Thread OneDriveConnect} {t : Folders} {path body : Bytes}

/-- With a token that is valid nothing is asked of the service. -/
private theorem oauthTokenCheckExpire_total {F : Fault → Folders → Prop}
    {Q : ℤ → Thread OneDriveConnect → Folders → Prop} (hs : S.Authorized s) (hQ : Q 0 s t) :
    Script.twp S.handler F oauthTokenCheckExpire Q s t := by
  unfold oauthTokenCheckExpire oauthTokenIsExpired
  simp only [Script.twp_bind, Script.twp_ask, Script.twp_get, Script.twp_pure, Script.twp_ite]
  refine ⟨⟨S.clock_ticks.choose, t, S.clock_ticks.choose_spec, rfl⟩, ?_⟩
  rintro now _ ⟨hnow, rfl⟩
  simp [hs.valid now hnow, hQ]

/-- A success is one of the two statuses that are accepted. -/
private theorem stored_status {reply : HttpReply} (h : reply.Stored) : ∃ status,
    reply.answer = .ok status ∧ status ≠ HttpStatus_Unauthorized ∧
      status ∈ [HttpStatus_Created, HttpStatus_OK] := by
  rcases h with h | h
  · exact ⟨_, h, by decide, by decide⟩
  · exact ⟨_, h, by decide, by decide⟩

/-- A refusal is a status that the code does not accept. -/
private theorem refused_status {reply : HttpReply} (h : reply.Refused) : ∃ status,
    reply.answer = .ok status ∧ status ≠ HttpStatus_Unauthorized ∧
      status ∉ [HttpStatus_Created, HttpStatus_OK] := by
  obtain ⟨status, hstatus, hnot⟩ := h
  refine ⟨status, hstatus, fun heq => hnot ?_, fun hmem => hnot ?_⟩
  · rw [heq]
    decide
  · exact List.mem_append_left [HttpStatus_Unauthorized] hmem

/-- The file is stored by one request, or the request is refused. -/
private theorem uploadFile_total (hs : S.Authorized s) :
    Script.twp S.handler (fun _ _ => MAX_URL_LEN ≤ (itemUrl path contentSuffix).length)
      (uploadFile path body)
      (fun rc _ t' => (itemUrl path contentSuffix).length < MAX_URL_LEN ∧
        (rc = 0 ∧ t.Stores (pathNames path) body t' ∨ rc < 0 ∧ ¬t.Storable (pathNames path)))
      s t := by
  obtain ⟨token, htoken⟩ := Option.isSome_iff_exists.mp hs.token
  unfold uploadFile
  simp only [Script.twp_bind, twp_sprintfUrl, twp_getBearerToken htoken]
  refine ⟨fun hfits => twp_requestAuthorized ?_ fun reply t' hanswer => ?_, fun hlong => hlong⟩
  · obtain ⟨reply, t', h⟩ := exists_uploads t (pathNames path) body
    exact ⟨reply, t', .upload token path body h⟩
  cases hanswer.of_upload with
  | stored hreply h =>
    obtain ⟨status, hstatus, hauthorized, haccepted⟩ := stored_status hreply
    exact ⟨status, hstatus, hauthorized, fun hnot => absurd haccepted hnot,
      fun _ => ⟨hfits, .inl ⟨rfl, h⟩⟩⟩
  | refused hreply h =>
    obtain ⟨status, hstatus, hauthorized, hnot⟩ := refused_status hreply
    have hneg := toInt_hiveHttpStatusError_neg status
    refine ⟨status, hstatus, hauthorized, fun _ => ?_, fun haccepted => absurd haccepted hnot⟩
    simp only [Script.twp_pure]
    exact ⟨hfits, .inr ⟨hneg, h⟩⟩

/-- The last of the folders on the way is the only one that is missing. -/
def FolderMissing (t : Folders) (p : List Bytes) : Prop :=
  t.node p = none ∧ t.IsDirectory p.dropLast

/-- A folder is created exactly if nothing else is missing. -/
theorem Creates.status {reply : HttpReply} {t' : Folders} (hpath : Absolute path)
    (h : Creates t (pathNames (dirname path)) (basename path) reply t') : ∃ status,
      reply.answer = .ok status ∧ status ≠ HttpStatus_Unauthorized ∧
        (status ∈ [HttpStatus_Created, HttpStatus_OK] ∧ FolderMissing t (pathNames path) ∧
            t.Completes (pathNames path) t' ∧ t'.IsDirectory (pathNames path) ∨
          status ∉ [HttpStatus_Created, HttpStatus_OK] ∧ ¬FolderMissing t (pathNames path)) := by
  have hparent := pathNames_dirname hpath
  -- the root is there, so that it is not a folder that is missing
  have hroot (hnil : pathNames path = []) : ¬FolderMissing t (pathNames path) := by
    rintro ⟨hmissing, -⟩
    rw [hnil, t.root] at hmissing
    cases hmissing
  have hlast := dirname_basename hpath
  -- the answers of the service: made, there already, no parent, refused
  cases h with
  | created hreply hname hdirectory hfree =>
    obtain ⟨status, hstatus, hauthorized, haccepted⟩ := stored_status hreply
    rcases hlast with ⟨-, -, hslash⟩ | ⟨-, -, -, hnames⟩
    · rw [hslash] at hname
      exact absurd (by decide) hname.1
    rw [hnames]
    refine ⟨status, hstatus, hauthorized, .inl ⟨haccepted, ⟨hfree, hdirectory⟩, ?_, ?_⟩⟩
    · rw [List.dropLast_concat] at hdirectory
      exact (Tree.Completes.of_isSome (by rw [hdirectory, Option.isSome_some])).add _ hfree
    · rw [Tree.IsDirectory, Tree.addDirectory_node, Function.update_self]
  | conflict hreply hthere =>
    refine ⟨409, hreply, by decide, .inr ⟨by decide, ?_⟩⟩
    rcases hlast with ⟨hnil, -, -⟩ | ⟨-, -, -, hnames⟩
    · exact hroot hnil
    · rintro ⟨hmissing, -⟩
      rw [← hnames, hmissing] at hthere
      cases hthere
  | missing hreply hmissing =>
    refine ⟨HttpStatus_NotFound, hreply, by decide, .inr ⟨by decide, ?_⟩⟩
    rintro ⟨-, hdirectory⟩
    rw [← hparent, Tree.IsDirectory, hmissing] at hdirectory
    cases hdirectory
  | refused hreply hrefused =>
    obtain ⟨status, hstatus, hauthorized, hnot⟩ := refused_status hreply
    refine ⟨status, hstatus, hauthorized, .inr ⟨hnot, ?_⟩⟩
    rcases hrefused with hname | hfile
    · rcases hlast with ⟨hnil, -, -⟩ | ⟨hslash, hne, -, -⟩
      · exact hroot hnil
      · exact absurd ⟨hslash, hne⟩ hname
    · rintro ⟨-, hdirectory⟩
      rw [← hparent] at hdirectory
      exact hdirectory.not_isFile hfile

/-- Creating the folder above: it is made when it is missing, and an error otherwise. -/
private theorem createFolder_total (hs : S.Authorized s) (hpath : Absolute path) :
    Script.twp S.handler (fun _ _ => MAX_URL_LEN ≤ (folderUrl path).length) (createFolder path)
      (fun rc s' t' => s' = s ∧
        (rc = 0 ∧ FolderMissing t (pathNames path) ∧ t.Completes (pathNames path) t' ∧
            t'.IsDirectory (pathNames path) ∨
          rc < 0 ∧ ¬FolderMissing t (pathNames path))) s t := by
  obtain ⟨token, htoken⟩ := Option.isSome_iff_exists.mp hs.token
  unfold createFolder buildCreateFolderRequestBody
  simp only [Script.twp_bind, Script.twp_ask, Script.twp_ite, Script.twp_pure, twp_sprintfUrl]
  refine ⟨fun _ => ⟨⟨true, t, rfl, rfl⟩, ?_⟩, fun hlong => hlong⟩
  rintro _ t ⟨rfl, rfl⟩
  refine ⟨fun h => absurd h (by decide), fun _ => ⟨⟨_, _, rfl, rfl⟩, ?_⟩⟩
  rintro _ t ⟨rfl, rfl⟩
  simp only [Script.twp_bind, twp_getBearerToken htoken]
  have hanswered : ∃ reply t', S.Answers t (createFolderRequest token (folderUrl path)
      (S.print (folderDocument (basename path)))) reply t' := by
    obtain ⟨reply, t', h⟩ := exists_creates t (pathNames (dirname path)) (basename path)
    exact ⟨reply, t', .createFolder token (dirname path) (basename path) h⟩
  refine twp_requestAuthorized hanswered fun reply t' hanswer => ?_
  obtain ⟨status, hstatus, hauthorized, hends⟩ := hanswer.of_createFolder.status hpath
  refine ⟨status, hstatus, hauthorized, fun hnot => ?_, fun haccepted => ?_⟩
  · have hneg := toInt_hiveHttpStatusError_neg status
    simp only [Script.twp_pure]
    exact ⟨trivial, .inr ⟨hneg, (hends.resolve_left fun h => hnot h.1).2⟩⟩
  · exact ⟨rfl, .inl ⟨rfl, (hends.resolve_right fun h => h.1 haccepted).2⟩⟩

/-- A session is opened for a file whose folder is there. -/
private theorem createUploadSession_total (hs : S.Authorized s)
    (hparent : t.IsDirectory (pathNames path).dropLast) (hfree : ¬t.IsDirectory (pathNames path)) :
    Script.twp S.handler (fun _ _ => MAX_URL_LEN ≤ (itemUrl path sessionSuffix).length)
      (createUploadSession path)
      (fun r s' t' => s' = s ∧ t' = t ∧ match r with
        | .error rc => rc < 0 ∧ MAX_URL_LEN ≤ (S.uploadUrl path).length
        | .ok url => url = S.uploadUrl path ∧ (S.uploadUrl path).length < MAX_URL_LEN ∧
          (itemUrl path sessionSuffix).length < MAX_URL_LEN) s t := by
  obtain ⟨token, htoken⟩ := Option.isSome_iff_exists.mp hs.token
  unfold createUploadSession
  simp only [Script.twp_bind, twp_sprintfUrl, twp_getBearerToken htoken]
  refine ⟨fun hfits => twp_requestAuthorized ?_ fun reply t' hanswer => ?_, fun hlong => hlong⟩
  · obtain ⟨reply, h⟩ := exists_sessions t (pathNames path) (S.uploadUrl_ne path)
    exact ⟨reply, t, .createSession token path h⟩
  obtain ⟨hsession, rfl⟩ := hanswer.of_createSession
  cases hsession with
  | refused _ hrefused => exact absurd hrefused (not_or.mpr ⟨not_not.mpr hparent, hfree⟩)
  | opened hreply _ _ =>
  obtain ⟨hok, hbody, json, hparsed, hurl⟩ := hreply
  refine ⟨HttpStatus_OK, hok, by decide, fun hnot => absurd (List.mem_singleton_self _) hnot, ?_⟩
  intro _
  have hlong := toInt_hiveGeneralError_neg HIVEERR_BUFFER_TOO_SMALL
  simp only [Script.twp_bind, twp_moveAndParse hbody, hparsed, hurl, Script.twp_ite,
    Script.twp_pure]
  exact ⟨fun h => ⟨trivial, trivial, hlong, h⟩,
    fun h => ⟨trivial, trivial, trivial, not_le.mp h, hfits⟩⟩

/-- The upload to a session stores the file, where it can be stored. -/
private theorem uploadToSession_total (h : t.Storable (pathNames path)) :
    Script.twp S.handler noFault (uploadToSession (S.uploadUrl path) body)
      (fun rc _ t' => rc = 0 ∧ t.Stores (pathNames path) body t') s t := by
  unfold uploadToSession
  simp only [Script.twp_bind, Script.twp_ask]
  refine ⟨?_, fun reply t' hanswer => ?_⟩
  · obtain ⟨reply, t', h⟩ := exists_uploads t (pathNames path) body
    exact ⟨reply, t', .session path body h⟩
  cases hanswer.of_session with
  | refused _ hrefused => exact absurd h hrefused
  | stored hreply hstores =>
    obtain ⟨status, hstatus, -, haccepted⟩ := stored_status hreply
    simp only [hstatus, Script.twp_ite, Script.twp_pure]
    refine ⟨fun hnot => absurd haccepted ?_, fun _ => ⟨trivial, hstores⟩⟩
    rw [List.mem_pair]
    exact not_or.mpr hnot

end Requests

/-! ### Both uploads -/

/-- One request can store the file. -/
structure TakesFile (t : Folders) (path : Bytes) : Prop where
  fits : (itemUrl path contentSuffix).length < MAX_URL_LEN
  storable : t.Storable (pathNames path)

/-- A session can be opened for the file, once its folder is there; and that is missing, in a folder
that is not. -/
structure TakesSession (S : FolderService) (t : Folders) (path : Bytes) : Prop where
  fits : (itemUrl path sessionSuffix).length < MAX_URL_LEN
  uploadUrl : (S.uploadUrl path).length < MAX_URL_LEN
  missing : FolderMissing t (pathNames path).dropLast

section Uploads

variable {S : FolderService} {s : Thread OneDriveConnect} {t : Folders} {path body : Bytes}

/-- A small file is stored where the service takes files. -/
private theorem putSmall (hs : S.Authorized s) (hshort : body.length ≤ sessionThreshold) :
    Script.twp S.handler (fun _ _ => ¬TakesFile t path) (putFileFromBufferAt path body)
      (fun rc _ t' => rc = 0 ∧ TakesFile t path ∧ t.Stores (pathNames path) body t' ∨
        rc < 0 ∧ ¬TakesFile t path) s t := by
  unfold putFileFromBufferAt
  simp only [Script.twp_bind, Script.twp_ite, Script.twp_pure, Script.twp_ask, hshort, true_imp_iff,
    not_true_eq_false, false_imp_iff, and_true]
  refine oauthTokenCheckExpire_total hs ⟨fun h => absurd h (lt_irrefl 0), fun _ => ?_⟩
  refine ⟨⟨true, t, rfl, rfl⟩, ?_⟩
  rintro _ t ⟨rfl, rfl⟩
  refine ⟨fun h => absurd h (by decide), fun _ => ?_⟩
  refine Script.twp_mono (uploadFile_total hs) (fun _ _ hlong h => absurd h.fits hlong.not_gt) ?_
  rintro rc s' t' ⟨hfits, ⟨rfl, hstores⟩ | ⟨hneg, hstorable⟩⟩
  · exact .inl ⟨rfl, ⟨hfits, hstores.storable⟩, hstores⟩
  · exact .inr ⟨hneg, fun h => hstorable h.storable⟩

/-- In a folder that has been created there is nothing yet. -/
private theorem node_of_created {t₁ : Folders} {p : List Bytes}
    (hmissing : t.node p.dropLast = none)
    (hcreated : t.Completes p.dropLast t₁) : t₁.node p = none := by
  rcases List.eq_nil_or_concat p with rfl | ⟨p, n, rfl⟩
  · rw [List.dropLast_nil, t.root] at hmissing
    cases hmissing
  rw [List.concat_eq_append] at *
  rw [List.dropLast_concat] at hmissing hcreated
  rw [hcreated.node_concat]
  by_contra hthere
  rw [t.holds p n (Option.isSome_iff_ne_none.mpr hthere)] at hmissing
  cases hmissing

/-- A large one where it takes a session, after the creation of the folder. -/
private theorem putLarge (hs : S.Authorized s) (hpath : Absolute path)
    (hlong : sessionThreshold < body.length) :
    Script.twp S.handler (fun _ _ => ¬S.TakesSession t path) (putFileFromBufferAt path body)
      (fun rc _ t' => rc = 0 ∧ S.TakesSession t path ∧ t.Stores (pathNames path) body t' ∨
        rc < 0 ∧ ¬S.TakesSession t path) s t := by
  have hfolder := pathNames_dirname hpath
  unfold putFileFromBufferAt
  simp only [Script.twp_bind, Script.twp_ite, Script.twp_pure, Script.twp_ask, hlong.not_ge,
    false_imp_iff, true_and, not_false_eq_true, true_imp_iff]
  refine oauthTokenCheckExpire_total hs ⟨fun h => absurd h (lt_irrefl 0), fun _ => ?_⟩
  refine ⟨⟨true, t, rfl, rfl⟩, ?_⟩
  rintro _ t ⟨rfl, rfl⟩
  refine ⟨fun h => absurd h (by decide), fun _ => ?_⟩
  refine Script.twp_mono (createFolder_total hs (absolute_dirname hpath))
    (fun _ _ hlong h => absurd (length_folderUrl_lt h.fits) hlong.not_gt) ?_
  rw [hfolder]
  rintro rc s t₁ ⟨rfl, ⟨rfl, hmissing, hcreated, hdirectory⟩ | ⟨hneg, hmissing⟩⟩
  swap
  · exact ⟨fun _ => .inr ⟨hneg, fun h => hmissing h.missing⟩, fun h => absurd hneg h⟩
  refine ⟨fun h => absurd h (lt_irrefl 0), fun _ => ?_⟩
  have hfree : ¬t₁.IsDirectory (pathNames path) := by
    rw [Tree.IsDirectory, node_of_created hmissing.1 hcreated]
    rintro ⟨⟩
  refine Script.twp_mono (createUploadSession_total hs hdirectory hfree)
    (fun _ _ hlong h => absurd h.fits hlong.not_gt) ?_
  rintro (rc | url) s t₂ ⟨rfl, rfl, hsession⟩
  · exact .inr ⟨hsession.1, fun h => absurd h.uploadUrl hsession.2.not_gt⟩
  obtain ⟨rfl, hurl, hfits⟩ := hsession
  simp only [Script.twp_bind, Script.twp_ite, Script.twp_pure]
  refine Script.twp_mono (uploadToSession_total (Tree.storable_of_parent hdirectory hfree))
    (fun _ _ h => h.elim) ?_
  rintro rc s t₃ ⟨rfl, hstores⟩
  exact ⟨fun h => absurd h (lt_irrefl 0),
    fun _ => .inl ⟨trivial, ⟨hfits, hurl, hmissing⟩, hstores.after_completes hcreated⟩⟩

end Uploads

/-- The outcome of a run that returns 0. -/
def ReturnsZero (o : Except Fault (ℤ × Thread OneDriveConnect)) : Prop := ∃ s, o = .ok (0, s)

/-- A run that stores a file if and only if it is possible. -/
private theorem returnsZero_iff {S : FolderService} {m : M OneDriveConnect ℤ}
    {s : Thread OneDriveConnect}
    {t t' : Folders} {p : List Bytes} {body : Bytes} {c : Prop}
    {o : Except Fault (ℤ × Thread OneDriveConnect)}
    (hm : Script.twp S.handler (fun _ _ => ¬c) m
      (fun rc _ t' => rc = 0 ∧ c ∧ t.Stores p body t' ∨ rc < 0 ∧ ¬c) s t)
    (hrun : Program.Exec S.handler (m s) t o t') :
    (ReturnsZero o ↔ c) ∧ (ReturnsZero o → t.Stores p body t') := by
  have hends := Program.wp_iff_forall_exec.mp (Program.twp.wp hm) o t' hrun
  cases o with
  | error e =>
    refine ⟨iff_of_false ?_ hends, ?_⟩
    · rintro ⟨_, ⟨⟩⟩
    · rintro ⟨_, ⟨⟩⟩
  | ok r =>
    obtain ⟨rc, s'⟩ := r
    rcases hends with ⟨hzero, hc, hstores⟩ | ⟨hneg, hc⟩
    · dsimp only at hzero
      subst hzero
      exact ⟨iff_of_true ⟨s', rfl⟩ hc, fun _ => hstores⟩
    · have hne : ¬ReturnsZero (.ok (rc, s')) := by
        rintro ⟨_, ⟨⟩⟩
        exact absurd hneg (lt_irrefl 0)
      exact ⟨iff_of_false hne hc, fun h => absurd h hne⟩

/-- The upload of a large file agrees with that of a small one of the same name exactly when the
small one is refused, or the folder of the file, and no other, is missing. -/
theorem agrees_iff {S : FolderService} {s : Thread OneDriveConnect} {t t₁ t₂ : Folders}
    {path small large : Bytes} {o₁ o₂ : Except Fault (ℤ × Thread OneDriveConnect)}
    (hs : S.Authorized s) (hpath : Absolute path) (hsmall : small.length ≤ sessionThreshold)
    (hlarge : sessionThreshold < large.length)
    (hrun₁ : Program.Exec S.handler (putFileFromBufferAt path small s) t o₁ t₁)
    (hrun₂ : Program.Exec S.handler (putFileFromBufferAt path large s) t o₂ t₂) :
    ((ReturnsZero o₂ ↔ ReturnsZero o₁) ∧
        (ReturnsZero o₂ → t.Stores (pathNames path) large t₂)) ↔
      (TakesFile t path → S.TakesSession t path) := by
  obtain ⟨hiff₁, -⟩ := returnsZero_iff (putSmall hs hsmall) hrun₁
  obtain ⟨hiff₂, hstores⟩ := returnsZero_iff (putLarge hs hpath hlarge) hrun₂
  rw [hiff₁, hiff₂]
  constructor
  · exact fun h => h.1.mpr
  · intro h
    refine ⟨⟨fun hsession => ⟨?_, ?_⟩, h⟩, fun hsession => hstores (hiff₂.mpr hsession)⟩
    · have hfits := hsession.fits
      have hsession : sessionSuffix.length = 21 := rfl
      have hcontent : contentSuffix.length = 9 := rfl
      rw [length_itemUrl] at hfits ⊢
      omega
    · exact (hstores (hiff₂.mpr hsession)).storable

/-! ### A second large file -/

/-- A service that writes a document as a text. -/
def loopback : FolderService where
  uploadUrl path := ascii "https://upload" ++ path
  print json := ascii "\x7b\"name\":\"" ++
    (Json.string? (json.getObjectItemCaseSensitive (ascii "name"))).getD [] ++
    ascii "\",\"folder\":\x7b\x7d\x7d"
  clock now := now = ⟨1, 0⟩
  uploadUrl_ne _ := List.append_ne_nil_of_left_ne_nil (by decide) _
  uploadUrl_injective _ _ h := List.append_cancel_left h
  print_folder _ _ h := List.append_cancel_left (List.append_cancel_right h)
  clock_ticks := ⟨⟨1, 0⟩, rfl⟩

/-- No folder but the root. -/
def rootOnly : Folders where
  node
    | [] => some .directory
    | _ :: _ => none
  root := rfl
  holds p n hsome := by
    cases p with
    | nil => cases hsome
    | cons => cases hsome

/-- The folder of the files is there. -/
def filesFolder : Folders := rootOnly.addDirectory [ascii "Files"] rfl rfl

private theorem authorized_freshToken : loopback.Authorized freshToken where
  token := rfl
  valid := by
    rintro _ rfl
    decide

/-- More than 4 MiB. -/
def largeFile : Bytes := List.replicate (sessionThreshold + 1) 0

private theorem lt_length_largeFile : sessionThreshold < largeFile.length := by
  rw [largeFile, List.length_replicate]
  exact Nat.lt_succ_self _

/-- The folder is there, so no large file can be put into it. -/
theorem large_refused : ¬∀ (S : FolderService) (s : Thread OneDriveConnect) (t t₁ t₂ : Folders)
    (path small large : Bytes) (o₁ o₂ : Except Fault (ℤ × Thread OneDriveConnect)),
    S.Authorized s → Absolute path → small.length ≤ sessionThreshold →
      sessionThreshold < large.length →
      Program.Exec S.handler (putFileFromBufferAt path small s) t o₁ t₁ →
      Program.Exec S.handler (putFileFromBufferAt path large s) t o₂ t₂ →
        (ReturnsZero o₂ ↔ ReturnsZero o₁) := by
  intro h
  have hpath : Absolute (ascii "/Files/f") := rfl
  have hempty : ([] : Bytes).length ≤ sessionThreshold := Nat.zero_le _
  have hsmall :
      Script.twp loopback.handler _ (putFileFromBufferAt (ascii "/Files/f") []) _ freshToken
      filesFolder := putSmall authorized_freshToken hempty
  have hlarge := putLarge (t := filesFolder) authorized_freshToken hpath lt_length_largeFile
  obtain ⟨o₁, t₁, hrun₁⟩ := (Program.twp.halts hsmall).exists_exec
  obtain ⟨o₂, t₂, hrun₂⟩ := (Program.twp.halts hlarge).exists_exec
  have hagree := h _ _ _ _ _ _ _ _ _ _ authorized_freshToken hpath hempty lt_length_largeFile
    hrun₁ hrun₂
  rw [(returnsZero_iff hsmall hrun₁).1, (returnsZero_iff hlarge hrun₂).1] at hagree
  have hstorable : filesFolder.Storable (pathNames (ascii "/Files/f")) :=
    Tree.storable_of_parent (by decide) (by decide)
  have hsession := hagree.mpr ⟨by decide, hstorable⟩
  have hmissing : filesFolder.node (pathNames (ascii "/Files/f")).dropLast = none :=
    hsession.missing.1
  revert hmissing
  decide

theorem agrees_rootOnly : ∃ o₁ t₁ o₂ t₂,
    Program.Exec loopback.handler
      (putFileFromBufferAt (ascii "/Files/f") [] freshToken) rootOnly o₁ t₁ ∧
    Program.Exec loopback.handler
      (putFileFromBufferAt (ascii "/Files/f") largeFile freshToken) rootOnly
      o₂ t₂ ∧
    (((ReturnsZero o₂ ↔ ReturnsZero o₁) ∧
        (ReturnsZero o₂ → rootOnly.Stores (pathNames (ascii "/Files/f")) largeFile t₂)) ↔
      (TakesFile rootOnly (ascii "/Files/f") →
        loopback.TakesSession rootOnly (ascii "/Files/f"))) := by
  have hpath : Absolute (ascii "/Files/f") := rfl
  have hempty : ([] : Bytes).length ≤ sessionThreshold := Nat.zero_le _
  have hsmall :
      Script.twp loopback.handler _ (putFileFromBufferAt (ascii "/Files/f") []) _ freshToken
      rootOnly := putSmall authorized_freshToken hempty
  have hlarge := putLarge (t := rootOnly) authorized_freshToken hpath lt_length_largeFile
  obtain ⟨o₁, t₁, hrun₁⟩ := (Program.twp.halts hsmall).exists_exec
  obtain ⟨o₂, t₂, hrun₂⟩ := (Program.twp.halts hlarge).exists_exec
  exact ⟨o₁, t₁, o₂, t₂, hrun₁, hrun₂,
    agrees_iff authorized_freshToken hpath hempty lt_length_largeFile hrun₁ hrun₂⟩

end FolderService

end HiveSDK
