/-
  What a path names — the static handler as a question to the file system.

  1. **Specification** — `StaticTarget` lists what a URL path can name: nothing, something outside
     the document root, something the system cannot classify, or a file with its content.

  2. **Bridge** — `serve_eq` says that `serve` is a function of that target, so what is true of two
     paths with one target is true of their answers.

  3. **Which file** (`target_eq_iff_of_file`) — two paths name one file exactly when they resolve to
     one canonical path.
-/
import HttpServer.StaticRoot

namespace HttpServer

open ListSearch (find)

/-- What a URL path names. -/
inductive StaticTarget
  | missing
  | forbidden
  /-- `fs::is_regular_file` throws. -/
  | unknown (e : FilesystemError)
  | file (canonical : CanonicalPath) (content : Bytes)

namespace StaticFileHandler

/-- The relative path that `serve` joins to the document root. -/
def relativePath (urlPath : Bytes) : Bytes :=
  let normalized := normalizePath (urlDecode urlPath)
  if normalized = [] then str "index.html" else normalized

/-- What a canonical path is, seen from the document root. -/
def classify (fs : FileSystem) (root canonical : CanonicalPath) : StaticTarget :=
  if rootPrefix root <+: canonical.text then
    match fs.isRegularFile canonical.text with
    | .error e => .unknown e
    | .ok false => .missing
    | .ok true =>
      match fs.readFile canonical.text with
      | none => .missing
      | some content => .file canonical content
  else .forbidden

/-- What a URL path names under the document root. -/
def target (handler : StaticFileHandler) (fs : FileSystem) (urlPath : Bytes) : StaticTarget :=
  match fs.canonical (pathJoin handler.documentRoot (relativePath urlPath)) with
  | none => .missing
  | some canonical =>
    match fs.canonical handler.documentRoot with
    | none => .missing
    | some root => classify fs root canonical

/-- The response for a file. -/
def fileResponse (canonical : CanonicalPath) (content : Bytes) : HttpResponse :=
  (HttpResponse.okResponse content (mimeType canonical.extension)).setHeader (str "Connection")
    (str "close")

/-- What `serve` answers for a target. -/
def answerFor : StaticTarget → Except FilesystemError (Option HttpResponse)
  | .missing => .ok none
  | .forbidden => .ok (some (HttpResponse.forbidden (str "403 Forbidden")))
  | .unknown e => .error e
  | .file canonical content => .ok (some (fileResponse canonical content))

theorem serveCanonical_eq (fs : FileSystem) (root canonical : CanonicalPath) :
    serveCanonical fs root canonical = answerFor (classify fs root canonical) := by
  unfold serveCanonical classify
  by_cases hpre : rootPrefix root <+: canonical.text
  · rw [if_neg (not_not_intro (find_eq_zero_iff.mpr hpre)), if_pos hpre]
    cases fs.isRegularFile canonical.text with
    | error e => rfl
    | ok regular =>
      cases regular with
      | false => rfl
      | true => cases fs.readFile canonical.text <;> rfl
  · rw [if_pos (fun hfind => hpre (find_eq_zero_iff.mp hfind)), if_neg hpre]
    rfl

/-- **`serve` answers for what the path names.** -/
theorem serve_eq (handler : StaticFileHandler) (fs : FileSystem) (urlPath : Bytes) :
    handler.serve fs urlPath = answerFor (handler.target fs urlPath) := by
  unfold serve target relativePath
  simp only
  cases fs.canonical (pathJoin handler.documentRoot
    (if normalizePath (urlDecode urlPath) = [] then str "index.html"
      else normalizePath (urlDecode urlPath))) with
  | none => rfl
  | some canonical =>
    cases fs.canonical handler.documentRoot with
    | none => rfl
    | some root => exact serveCanonical_eq fs root canonical

/-! ## Which file -/

variable {handler : StaticFileHandler} {fs : FileSystem} {urlPath urlPath' : Bytes}
  {canonical : CanonicalPath} {content : Bytes}

theorem canonical_of_classify_eq_file {root canonical' : CanonicalPath}
    (h : classify fs root canonical' = .file canonical content) : canonical' = canonical := by
  unfold classify at h
  split at h
  · split at h
    · cases h
    · cases h
    · split at h
      · cases h
      · cases h
        rfl
  · cases h

/-- A path that names a file resolves to it. -/
theorem canonical_of_target_eq_file (h : handler.target fs urlPath = .file canonical content) :
    fs.canonical (pathJoin handler.documentRoot (relativePath urlPath)) = some canonical := by
  unfold target at h
  split at h
  · cases h
  · rename_i canonical' hcanonical
    split at h
    · cases h
    · rw [hcanonical, canonical_of_classify_eq_file h]

/-- **A second path names the same file exactly when it resolves to the same canonical path.** -/
theorem target_eq_iff_of_file (h : handler.target fs urlPath = .file canonical content) :
    handler.target fs urlPath' = handler.target fs urlPath ↔
      fs.canonical (pathJoin handler.documentRoot (relativePath urlPath')) =
        fs.canonical (pathJoin handler.documentRoot (relativePath urlPath)) := by
  constructor
  · intro hsame
    rw [canonical_of_target_eq_file h, canonical_of_target_eq_file (hsame.trans h)]
  · intro hcanonical
    unfold target
    rw [hcanonical]

end StaticFileHandler

end HttpServer
