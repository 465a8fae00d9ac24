import HiveSDK.Interaction.Logged
import HiveSDK.Model.Hive
import Mathlib.Logic.Function.Basic

/-!
# The OneDrive service

The service as the operations see it while nothing but the operations uses it: a map from
path strings to contents. A request that is answered with success reads or writes that map;
one that ends in any other way changes nothing, and a size is denied with 404 only when there
is no file. Download and upload URLs are the service's own, one for each path.

`Drive.handler` puts the service, a local disk and the user's value callback together into
an environment for the whole program. The clock shows times at which the token is valid, and
no request that carries it is answered 401. Every allocation may fail; `Drive.refusing` is the
same environment with a list of the HTTP clients that could not be had.
-/

namespace HiveSDK

open Interaction C OneDrive

/-- A service: the URLs it hands out, and the times the clock shows while it is used. -/
structure Drive where
  downloadUrl : Bytes → Bytes
  uploadUrl : Bytes → Bytes
  clock : Timeval → Prop
  downloadUrl_injective : Function.Injective downloadUrl
  uploadUrl_injective : Function.Injective uploadUrl

/-- The contents stored, by path. -/
abbrev Files := Bytes → Option Bytes

/-- Answered 200 or 201. -/
def HttpReply.Stored (reply : HttpReply) : Prop :=
  reply.answer = .ok HttpStatus_OK ∨ reply.answer = .ok HttpStatus_Created

/-- A content of `total` bytes of which those from `first` to `last` are replaced. -/
def storeRange (old : Bytes) (first last total : ℕ) (body : Bytes) : Bytes :=
  let old := (old ++ List.replicate total 0).take total
  old.take first ++ body.take (last + 1 - first) ++ old.drop (last + 1)

/-- The range of all bytes replaces all of them. -/
private theorem storeRange_all {body : Bytes} (old : Bytes) (hbody : body ≠ []) :
    storeRange old 0 (body.length - 1) body.length body = body := by
  have hpos : 0 < body.length := List.length_pos_iff.mpr hbody
  have hlast : body.length - 1 + 1 = body.length := by omega
  have hbehind : ((old ++ List.replicate body.length 0).take body.length).drop body.length = [] :=
    List.drop_eq_nil_of_le (List.length_take_le _ _)
  simp only [storeRange, hlast, Nat.sub_zero, List.take_length, List.take_zero, List.nil_append,
    hbehind, List.append_nil]

namespace Drive

/-- The document describes the file at `path`: the size and the URL it names are right. -/
structure Describes (S : Drive) (path content : Bytes) (json : Json) : Prop where
  size : ∀ n, announcedSize json = some n → n = content.length
  url : ∀ url, Json.nonemptyString? (json.getObjectItemCaseSensitive downloadUrlKey) = some url →
    url = S.downloadUrl path

/-- What the service answers to a request, and the files afterwards. -/
inductive Answers (S : Drive) (files : Files) : HttpRequest → HttpReply → Files → Prop
  | upload (token path body : Bytes) (reply : HttpReply) (h : reply.Stored) :
      Answers S files (uploadRequest token path body) reply
        (Function.update files path (some body))
  | uploadFailed (token path body : Bytes) (reply : HttpReply) (h : ¬reply.Stored) :
      Answers S files (uploadRequest token path body) reply files
  | createSession (token path : Bytes) (reply : HttpReply)
      (h : ∀ json, reply.parsed = some json → ∀ url,
        Json.nonemptyString? (json.getObjectItemCaseSensitive (ascii "uploadUrl")) = some url →
          url = S.uploadUrl path) :
      Answers S files (createUploadSessionRequest token path) reply files
  | session (path : Bytes) (request : HttpRequest) (reply : HttpReply) (first last total : ℕ)
      (hurl : request.method = .put ∧ request.url = S.uploadUrl path)
      (hrange : request.headers.find? (fun header => header matches .contentRange _ _ _) =
        some (.contentRange first last total)) (h : reply.Stored) :
      Answers S files request reply (Function.update files path
        (some (storeRange ((files path).getD []) first last total request.body)))
  | sessionFailed (path : Bytes) (request : HttpRequest) (reply : HttpReply)
      (hurl : request.method = .put ∧ request.url = S.uploadUrl path)
      (hrange : (request.headers.find?
        (fun header => header matches .contentRange _ _ _)).isSome) (h : ¬reply.Stored) :
      Answers S files request reply files
  | createFolder (token url body : Bytes) (reply : HttpReply) :
      Answers S files (createFolderRequest token url body) reply files
  | info (token path query : Bytes) (reply : HttpReply)
      (hfound : reply.answer = .ok HttpStatus_OK → ∃ content, files path = some content ∧
        ∀ json, reply.parsed = some json → S.Describes path content json)
      (habsent : reply.answer = .ok HttpStatus_NotFound → files path = none) :
      Answers S files (fileInfoRequest token path query) reply files
  | download (path : Bytes) (reply : HttpReply)
      (h : reply.answer = .ok HttpStatus_OK → files path = some reply.received) :
      Answers S files (downloadRequest (S.downloadUrl path)) reply files
  | delete (token path : Bytes) (reply : HttpReply) (h : reply.answer = .ok HttpStatus_NoContent) :
      Answers S files (deleteRequest token path) reply (Function.update files path none)
  | deleteFailed (token path : Bytes) (reply : HttpReply)
      (h : reply.answer ≠ .ok HttpStatus_NoContent)
      (habsent : reply.answer = .ok HttpStatus_NotFound → files path = none) :
      Answers S files (deleteRequest token path) reply files

end Drive

/-- The service, the local disk, and the values delivered to the callback with its answers. -/
structure World where
  files : Files
  disk : Bytes → Option Bytes
  delivered : List (Bytes × Bytes × Bool)

/-- The world with one file of the service replaced. -/
def World.setFile (w : World) (path : Bytes) (content : Option Bytes) : World :=
  { w with files := Function.update w.files path content }

@[simp] theorem World.setFile_files_self (w : World) (path : Bytes) (content : Option Bytes) :
    (w.setFile path content).files path = content :=
  Function.update_self _ _ _

/-- The world with one local file replaced. -/
def World.setDisk (w : World) (path : Bytes) (content : Option Bytes) : World :=
  { w with disk := Function.update w.disk path content }

/-- The world after the callback has been given the values of `log`, with these answers. -/
def World.deliver (w : World) (log : List (Bytes × Bytes × Bool)) : World :=
  { w with delivered := w.delivered ++ log }

theorem World.deliver_deliver (w : World) (log log' : List (Bytes × Bytes × Bool)) :
    (w.deliver log).deliver log' = w.deliver (log ++ log') := by
  simp only [World.deliver, List.append_assoc]

/-- The environment of a program that uses the service. Every allocation may fail. -/
def Drive.handler (S : Drive) : Handler World Call Call.Reply
  | w, .gettimeofday, now, w' => S.clock now ∧ w' = w
  | w, .httpClientPerform request, reply, w' =>
    (request.Authorized → reply.answer ≠ .ok HttpStatus_Unauthorized) ∧
      ∃ files, S.Answers w.files request reply files ∧ w' = { w with files := files }
  | w, .valuesCallback key value, proceed, w' =>
    w' = w.deliver [(key, value, proceed)]
  | w, .openFile path .readOnly, r, w' => (r = .ok () → (w.disk path).isSome) ∧ w' = w
  | w, .openFile path .writeTruncate, r, w' =>
    w' = if r = .ok () then w.setDisk path (some []) else w
  | w, .openFile path .writeExclusive, r, w' =>
    (r = .ok () → w.disk path = none) ∧ w' = if r = .ok () then w.setDisk path (some []) else w
  | w, .lseekEnd path, n, w' =>
    (n = -1 ∨ 0 ≤ n ∧ n < 2 ^ 63 ∧ (w.disk path).map List.length = some n.toNat) ∧ w' = w
  | w, .read path size, r, w' =>
    (∀ data, r = .ok data → data.length ≤ size ∧ ∃ content, w.disk path = some content ∧
      data <+: content) ∧ w' = w
  | w, .write path data, .ok n, w' =>
    n ≤ data.length ∧ w' = w.setDisk path (some ((w.disk path).getD [] ++ data.take n))
  | w, .unlink path, r, w' => w' = if r = .ok () then w.setDisk path none else w
  | w, _, _, w' => w' = w

/-- The HTTP client that the event denies to its user. -/
def CallEvent.refused : CallEvent → List HttpClientUser
  | ⟨.httpClientNew user, created⟩ => if created = true then [] else [user]
  | _ => []

/-- The service, with the HTTP clients that could not be had. -/
def Drive.refusing (S : Drive) : Handler (World × List HttpClientUser) Call Call.Reply :=
  noted CallEvent.refused S.handler

/-- The call is not for an HTTP client. -/
def Call.Clientless : Call → Prop
  | .httpClientNew _ => False
  | _ => True

theorem CallEvent.refused_of_clientless (i : Call) (r : i.Reply) (h : i.Clientless) :
    CallEvent.refused ⟨i, r⟩ = [] := by
  cases i with
  | httpClientNew user => exact h.elim
  | _ => rfl

/-- The token is valid at every time the clock shows. -/
def Drive.TokenValid (S : Drive) (s : Thread OneDriveConnect) : Prop :=
  ∀ now, S.clock now → now.after s.conn.token.expiresAt = false

/-! ### What an answer means -/

namespace Drive

/-- The URL determines the path. -/
theorem itemUrl_injective {path path' suffix : Bytes}
    (h : itemUrl path suffix = itemUrl path' suffix) : path = path' := by
  unfold itemUrl at h
  exact List.append_cancel_left (List.append_cancel_right h)

variable {S : Drive} {files files' : Files} {token path body url query : Bytes} {reply : HttpReply}

/-- The request of a file is one of its own kind. -/
theorem Answers.of_upload (h : S.Answers files (uploadRequest token path body) reply files') :
    reply.Stored ∧ files' = Function.update files path (some body) ∨
      ¬reply.Stored ∧ files' = files := by
  generalize hr : uploadRequest token path body = request at h
  cases h with
  | upload _ _ _ _ h =>
    obtain ⟨hurl, -, rfl⟩ :
      itemUrl path contentSuffix = itemUrl _ contentSuffix ∧ _ ∧ body = _ := by
      simpa [uploadRequest] using hr
    obtain rfl := itemUrl_injective hurl
    exact .inl ⟨h, rfl⟩
  | uploadFailed _ _ _ _ h => exact .inr ⟨h, rfl⟩
  | session _ _ _ _ _ _ _ hrange => simp [← hr, uploadRequest] at hrange
  | sessionFailed _ _ _ _ hrange => simp [← hr, uploadRequest] at hrange
  | _ => cases congrArg HttpRequest.method hr

/-- A session leads to the URL for its own path. -/
theorem Answers.of_createSession
    (h : S.Answers files (createUploadSessionRequest token path) reply files') :
    files' = files ∧ ∀ json, reply.parsed = some json → ∀ url,
      Json.nonemptyString? (json.getObjectItemCaseSensitive (ascii "uploadUrl")) = some url →
        url = S.uploadUrl path := by
  generalize hr : createUploadSessionRequest token path = request at h
  cases h with
  | createSession _ _ _ h =>
    obtain ⟨hurl, -⟩ : itemUrl path sessionSuffix = itemUrl _ sessionSuffix ∧ _ := by
      simpa [createUploadSessionRequest] using hr
    obtain rfl := itemUrl_injective hurl
    exact ⟨rfl, h⟩
  | createFolder => simp [createUploadSessionRequest, createFolderRequest] at hr
  | session _ _ _ _ _ _ hurl => simp [← hr, createUploadSessionRequest] at hurl
  | sessionFailed _ _ _ hurl => simp [← hr, createUploadSessionRequest] at hurl
  | _ => cases congrArg HttpRequest.method hr

/-- An upload to that URL stores the body, or leaves the files. -/
theorem Answers.of_session (hbody : body ≠ [])
    (h : S.Answers files (uploadToSessionRequest (S.uploadUrl path) body) reply files') :
    reply.Stored ∧ files' = Function.update files path (some body) ∨
      ¬reply.Stored ∧ files' = files := by
  generalize hr : uploadToSessionRequest (S.uploadUrl path) body = request at h
  cases h with
  | session _ _ _ _ _ _ hurl hrange h =>
    subst hr
    obtain rfl := S.uploadUrl_injective hurl.2
    have hall : HttpHeader.contentRange 0 (body.length - 1) body.length = .contentRange _ _ _ :=
      Option.some.inj hrange
    cases hall
    refine .inl ⟨h, congrArg (fun content => Function.update files path (some content)) ?_⟩
    exact storeRange_all ((files path).getD []) hbody
  | sessionFailed _ _ _ _ _ h => exact .inr ⟨h, rfl⟩
  | upload => simp [uploadToSessionRequest, uploadRequest] at hr
  | uploadFailed => simp [uploadToSessionRequest, uploadRequest] at hr
  | _ => cases congrArg HttpRequest.method hr

theorem Answers.of_createFolder
    (h : S.Answers files (createFolderRequest token url body) reply files') : files' = files := by
  generalize hr : createFolderRequest token url body = request at h
  cases h with
  | createFolder => rfl
  | createSession => rfl
  | session _ _ _ _ _ _ hurl => simp [← hr, createFolderRequest] at hurl
  | sessionFailed => rfl
  | _ => cases congrArg HttpRequest.method hr

/-- A lookup describes the file that is there. -/
theorem Answers.of_info
    (h : S.Answers files (fileInfoRequest token path query) reply files') :
    files' = files ∧
      (reply.answer = .ok HttpStatus_OK → ∃ content, files path = some content ∧
        ∀ json, reply.parsed = some json → S.Describes path content json) ∧
      (reply.answer = .ok HttpStatus_NotFound → files path = none) := by
  generalize hr : fileInfoRequest token path query = request at h
  cases h with
  | info _ _ _ _ hfound habsent =>
    obtain ⟨hurl, -⟩ : itemUrl path [] = itemUrl _ [] ∧ _ := by simpa [fileInfoRequest] using hr
    obtain rfl := itemUrl_injective hurl
    exact ⟨rfl, hfound, habsent⟩
  | download => simp [fileInfoRequest, downloadRequest] at hr
  | session _ _ _ _ _ _ hurl => simp [← hr, fileInfoRequest] at hurl
  | sessionFailed _ _ _ hurl => simp [← hr, fileInfoRequest] at hurl
  | _ => cases congrArg HttpRequest.method hr

/-- A download sends the file that is there. -/
theorem Answers.of_download
    (h : S.Answers files (downloadRequest (S.downloadUrl path)) reply files') :
    files' = files ∧ (reply.answer = .ok HttpStatus_OK → files path = some reply.received) := by
  generalize hr : downloadRequest (S.downloadUrl path) = request at h
  cases h with
  | download path' _ h =>
    have hurl : S.downloadUrl path = S.downloadUrl path' := congrArg HttpRequest.url hr
    obtain rfl := S.downloadUrl_injective hurl
    exact ⟨rfl, h⟩
  | info => simp [fileInfoRequest, downloadRequest] at hr
  | session _ _ _ _ _ _ hurl => simp [← hr, downloadRequest] at hurl
  | sessionFailed _ _ _ hurl => simp [← hr, downloadRequest] at hurl
  | _ => cases congrArg HttpRequest.method hr

/-- A deletion removes the file, or leaves the files. -/
theorem Answers.of_delete (h : S.Answers files (deleteRequest token path) reply files') :
    reply.answer = .ok HttpStatus_NoContent ∧ files' = Function.update files path none ∨
      reply.answer ≠ .ok HttpStatus_NoContent ∧ files' = files ∧
        (reply.answer = .ok HttpStatus_NotFound → files path = none) := by
  generalize hr : deleteRequest token path = request at h
  have hpath {token' path' : Bytes} (h : deleteRequest token path = deleteRequest token' path') :
      path = path' := by
    obtain ⟨hurl, -⟩ : itemUrl path deleteSuffix = itemUrl path' deleteSuffix ∧ _ := by
      simpa [deleteRequest] using h
    exact itemUrl_injective hurl
  cases h with
  | delete _ _ _ h =>
    obtain rfl := hpath hr
    exact .inl ⟨h, rfl⟩
  | deleteFailed _ _ _ h habsent =>
    obtain rfl := hpath hr
    exact .inr ⟨h, rfl, habsent⟩
  | session _ _ _ _ _ _ hurl => simp [← hr, deleteRequest] at hurl
  | sessionFailed _ _ _ hurl => simp [← hr, deleteRequest] at hurl
  | _ => cases congrArg HttpRequest.method hr

end Drive

end HiveSDK
