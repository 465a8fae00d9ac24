import HiveSDK.OneDrive.Download
import HiveSDK.Service.Drive

/-!
# A service that computes its answers

`Drive.loopback` is a service on the local machine that answers every request on a file with
success. It computes what the relation `Drive.handler` only allows (`serve_sound`), so that a
run against the service can be evaluated.
-/

namespace HiveSDK

open Interaction C OneDrive

namespace Drive

/-- A service whose URLs are made from the path; it is one second past the epoch. -/
def loopback : Drive where
  downloadUrl path := ascii "http://localhost/download" ++ path
  uploadUrl path := ascii "http://localhost/upload" ++ path
  clock now := now = ⟨1, 0⟩
  downloadUrl_injective _ _ h := List.append_cancel_left h
  uploadUrl_injective _ _ h := List.append_cancel_left h

/-- A reply with a status, a body and the document it parses to. -/
def answered (status : Fin 1000) (body : Bytes) (parsed : Option Json) : HttpReply where
  performed := 0
  info := 0
  status := status
  chunks := [body]
  parsed := parsed

@[simp] theorem answer_answered (status : Fin 1000) (body : Bytes) (parsed : Option Json) :
    (answered status body parsed).answer = .ok status := rfl

@[simp] theorem received_answered (status : Fin 1000) (body : Bytes) (parsed : Option Json) :
    (answered status body parsed).received = body :=
  List.append_nil body

/-- The document that describes a file. -/
def describe (path content : Bytes) : Json :=
  .object [(sizeQuery, .number (.ofInt content.length)),
    (downloadUrlKey, .string (Drive.loopback.downloadUrl path))]

private theorem describes_describe {path content : Bytes} (h : content.length < 2 ^ 63) :
    Drive.loopback.Describes path content (describe path content) where
  size n hn := by
    have hsize :
        announcedSize (describe path content) = some (Double.ofInt content.length).toLong :=
      rfl
    rw [hsize, Double.toLong_ofInt (by omega) (by omega)] at hn
    exact (Option.some.inj hn).symm
  url url hurl := by
    have heq : Json.nonemptyString? ((describe path content).getObjectItemCaseSensitive
        downloadUrlKey) = some (Drive.loopback.downloadUrl path) := rfl
    exact (Option.some.inj (heq.symm.trans hurl)).symm

/-- The token a request carries. -/
def tokenOf (request : HttpRequest) : Bytes :=
  match request.headers with
  | [.authorization token] => token
  | _ => []

/-- The path in an item URL. -/
def pathOf (suffix url : Bytes) : Bytes :=
  (url.drop (APP_ROOT.length + 1)).take (url.length - (APP_ROOT.length + 1) - suffix.length)

/-- The answer to a request, and the files afterwards. -/
def respond (files : Files) (request : HttpRequest) : Option (HttpReply × Files) :=
  let token := tokenOf request
  let uploaded := pathOf contentSuffix request.url
  let asked := pathOf [] request.url
  let deleted := pathOf deleteSuffix request.url
  let downloaded := request.url.drop (ascii "http://localhost/download").length
  if request = uploadRequest token uploaded request.body then
    some (answered 201 [] none, Function.update files uploaded (some request.body))
  else if request = fileInfoRequest token asked ((request.query.map Prod.snd).flatten) then
    match files asked with
    | none => some (answered 404 [] none, files)
    | some content =>
      if content.length < 2 ^ 63 then
        some (answered 200 (ascii "{}") (some (describe asked content)), files)
      else none
  else if request = downloadRequest (Drive.loopback.downloadUrl downloaded) then
    (files downloaded).map fun content => (answered 200 content none, files)
  else if request = deleteRequest token deleted then
    some (answered 204 [] none, Function.update files deleted none)
  else none

/-- What is computed is allowed. -/
private theorem respond_sound {files files' : Files} {request : HttpRequest} {reply : HttpReply}
    (h : respond files request = some (reply, files')) :
    reply.answer ≠ .ok HttpStatus_Unauthorized ∧
      Drive.loopback.Answers files request reply files' := by
  unfold respond at h
  simp only at h
  split at h
  · -- an upload
    rename_i hrequest
    cases h
    have hanswer : Drive.loopback.Answers files (uploadRequest (tokenOf request)
        (pathOf contentSuffix request.url) request.body) (answered 201 [] none) _ :=
      .upload _ _ _ _ (.inr rfl)
    rw [← hrequest] at hanswer
    exact ⟨by simp [HttpStatus_Unauthorized], hanswer⟩
  split at h
  · rename_i hrequest
    split at h
    · -- the information of a file that is not there
      rename_i hnone
      cases h
      have hanswer : Drive.loopback.Answers files (fileInfoRequest (tokenOf request)
          (pathOf [] request.url) (request.query.map Prod.snd).flatten) (answered 404 [] none)
            files :=
        .info _ _ _ _ (fun h => by simp [HttpStatus_OK] at h) fun _ => hnone
      rw [← hrequest] at hanswer
      exact ⟨by simp [HttpStatus_Unauthorized], hanswer⟩
    · -- or of one that is, described when its size can be
      rename_i content hcontent
      split at h
      · rename_i hlen
        cases h
        have hanswer : Drive.loopback.Answers files (fileInfoRequest (tokenOf request)
            (pathOf [] request.url) (request.query.map Prod.snd).flatten)
              (answered 200 (ascii "{}")
                (some (describe (pathOf [] request.url) content))) files := by
          refine .info _ _ _ _ (fun _ => ⟨content, hcontent, ?_⟩)
            fun h => by simp [HttpStatus_NotFound] at h
          rintro _ ⟨⟩
          exact describes_describe hlen
        rw [← hrequest] at hanswer
        exact ⟨by simp [HttpStatus_Unauthorized], hanswer⟩
      · cases h
  split at h
  · rename_i hrequest
    -- a download
    obtain ⟨content, hcontent, hpair⟩ := Option.map_eq_some_iff.mp h
    cases hpair
    have hanswer : Drive.loopback.Answers files (downloadRequest (Drive.loopback.downloadUrl _))
        (answered 200 content none) files :=
      .download _ _ fun _ => by rw [hcontent, received_answered]
    rw [← hrequest] at hanswer
    exact ⟨by simp [HttpStatus_Unauthorized], hanswer⟩
  split at h
  · rename_i hrequest
    cases h
    -- a deletion
    have hanswer : Drive.loopback.Answers files (deleteRequest (tokenOf request)
        (pathOf deleteSuffix request.url)) (answered 204 [] none) _ := .delete _ _ _ rfl
    rw [← hrequest] at hanswer
    exact ⟨by simp [HttpStatus_Unauthorized], hanswer⟩
  · cases h

/-- The environment of a program: the local service, and everything else going well. -/
def serve (w : World) : (i : Call) → Option (i.Reply × World)
  | .gettimeofday => some (⟨1, 0⟩, w)
  | .malloc _ => some (true, w)
  | .httpClientNew _ => some (true, w)
  | .httpClientPerform request =>
    (respond w.files request).map fun r => (r.1, { w with files := r.2 })
  | .valuesCallback key value => some (true, w.deliver [(key, value, true)])
  | .openFile path .writeExclusive =>
    if w.disk path = none then some (.ok (), w.setDisk path (some [])) else none
  | .write path data =>
    some (.ok data.length, w.setDisk path (some ((w.disk path).getD [] ++ data)))
  | _ => none

theorem serve_sound (w : World) (i : Call) (r : i.Reply) (w' : World)
    (h : serve w i = some (r, w')) : Drive.loopback.handler w i r w' := by
  match i, r, h with
  | .gettimeofday, _, h => cases h; exact ⟨rfl, rfl⟩
  | .malloc _, _, h => cases h; rfl
  | .httpClientNew _, _, h => cases h; rfl
  | .httpClientPerform request, reply, h =>
    obtain ⟨⟨reply, files⟩, hrespond, hpair⟩ := Option.map_eq_some_iff.mp h
    cases hpair
    obtain ⟨hvalid, hanswers⟩ := respond_sound hrespond
    exact ⟨fun _ => hvalid, files, hanswers, rfl⟩
  | .valuesCallback key value, _, h => cases h; rfl
  | .openFile path .writeExclusive, r, h =>
    have hopen : serve w (.openFile path .writeExclusive) =
        if w.disk path = none then some (.ok (), w.setDisk path (some [])) else none := rfl
    by_cases hnone : w.disk path = none
    · rw [hopen, if_pos hnone] at h
      cases h
      exact ⟨fun _ => hnone, (if_pos rfl).symm⟩
    · rw [hopen, if_neg hnone] at h
      cases h
  | .write path data, _, h =>
    cases h
    exact ⟨le_rfl, by rw [List.take_length]⟩

end Drive

/-- Against this service a token that expires at second 2 is valid. -/
theorem loopback_tokenValid : Drive.loopback.TokenValid freshToken := by
  rintro _ rfl
  decide

/-- An empty service and an empty disk. -/
def emptyWorld : World := ⟨fun _ => none, fun _ => none, []⟩

end HiveSDK
