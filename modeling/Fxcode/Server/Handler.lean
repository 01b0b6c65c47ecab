import Fxcode.Server.Path
import Fxcode.Server.Decode
/-!
# The HTTP request handler of `startServer`

`serveFile` stats the normalized path, answers 304 when the request already holds the ETag,
and otherwise writes a 200 head and pipes a read stream of the path into the response.  How
the response goes on is up to what the path names: a readable regular file is read to its end,
a readable device gives what its driver gives, perhaps without end (`/dev/zero`), and a named
pipe makes the stream wait for a writer.  The stream has no `error` listener, so when it cannot
open the path (a directory, a socket, a file or device without read permission) the error
event goes unheard and ends the server process after the 200 head.

The request handler routes `/vscode-remote-resource` to the file its `path` query names,
`/` to the workbench page, `/manifest.json` to a fixed manifest, and every other pathname to a
file under the application root, `/static/` stripped first.

What the handler takes from outside is a parameter: how `url.parse` reads the URL (`none` when
it throws), what `URI.from({ scheme: 'file', path }).fsPath` gives (`none` when `URI.from`
throws), the directory the server runs from, and the file system.  Logging is left out.

* `handleRequest_outcome`: every request ends in one response of status 304, 400, 404 or 500,
  the manifest, or a 200 carrying the readable regular file at the path served; or after a
  200 head it streams a readable device, waits on a named pipe, or ends the server with an
  unheard stream error, and then the path served is a directory, a socket, or a file or device
  that cannot be read.
-/

namespace Fxcode.Server.Handler

open Path Decode

/-! ## Constants -/

/-- `devMode`. -/
def devMode : Bool := true

/-- `APP_ROOT`, four levels above the directory the server runs from. -/
def APP_ROOT (dirname : String) : String := join [dirname, "../../../.."]

/-- `WEB_MAIN`. -/
def WEB_MAIN (dirname : String) : String :=
  join [APP_ROOT dirname, "out", "vs", "fxdk", "browser", "workbench", "workbench.html"]

/-- `WEB_MAIN_DEV`. -/
def WEB_MAIN_DEV (dirname : String) : String :=
  join [APP_ROOT dirname, "out", "vs", "fxdk", "browser", "workbench", "workbench-dev.html"]

/-- `textMimeType`. -/
def textMimeType : List (String × String) :=
  [(".html", "text/html"), (".js", "text/javascript"), (".json", "application/json"),
    (".css", "text/css"), (".svg", "image/svg+xml")]

/-- `mapExtToMediaMimes`. -/
def mapExtToMediaMimes : List (String × String) :=
  [(".bmp", "image/bmp"), (".gif", "image/gif"), (".ico", "image/x-icon"), (".jpe", "image/jpg"),
    (".jpeg", "image/jpg"), (".jpg", "image/jpg"), (".png", "image/png"), (".tga", "image/x-tga"),
    (".tif", "image/tiff"), (".tiff", "image/tiff"), (".woff", "application/font-woff")]

/-- `String.prototype.toLowerCase` on the characters an extension in the tables can hold. -/
def toLowerCase (s : String) : String := ⟨s.data.map Char.toLower⟩

/-- `getMediaMime`. -/
def getMediaMime (forPath : String) : Option String :=
  mapExtToMediaMimes.lookup (toLowerCase (extname forPath))

/-- The `Content-Type` `serveFile` sends. -/
def contentType (filePath : String) : String :=
  ((textMimeType.lookup (extname filePath)).orElse fun _ => getMediaMime filePath).getD "text/plain"

/-- The body of `/manifest.json`, as `JSON.stringify` writes it. -/
def manifest : String :=
  "\x7b\"name\":\"FxDK long\",\"short_name\":\"FxDK short\",\"start_url\":\"/\",\"lang\":\"en-US\",\"display\":\"standalone\"\x7d"

/-! ## Requests, files and responses -/

/-- The fields of `fs.Stats` the ETag is made of; `mtime` is `mtime.getTime()`. -/
structure Stats where
  ino : Nat
  size : Nat
  mtime : Nat
  deriving DecidableEq, Repr

/-- What a path names on disk, as `stat` and `open` see it. -/
inductive Entry
  /-- Nothing `stat` reaches. -/
  | missing
  /-- A regular file, which a read stream can read or not (permissions). -/
  | file (stats : Stats) (readable : Bool)
  /-- A directory: `stat` succeeds, opening it for reading fails with `EISDIR`. -/
  | directory (stats : Stats)
  /-- A character or block device, which a read stream can open or not (permissions). -/
  | device (stats : Stats) (readable : Bool)
  /-- A named pipe: opening it for reading waits until a writer opens it. -/
  | fifo (stats : Stats)
  /-- A socket: opening it fails with `ENXIO`. -/
  | socket (stats : Stats)
  deriving DecidableEq, Repr

/-- The stat of an entry, when `stat` reaches it. -/
def Entry.stats? : Entry → Option Stats
  | .missing => none
  | .file stats _ | .directory stats | .device stats _ | .fifo stats | .socket stats => some stats

/-- What each path names. -/
def FileSystem : Type := String → Entry

/-- `fs.promises.stat`: a path holding a NUL character is refused like a missing one. -/
def stat (fs : FileSystem) (path : String) : Option Stats :=
  if '\x00' ∈ path.data then none else (fs path).stats?

/-- A value of the parsed query. -/
inductive QueryValue
  | single (value : String)
  | multiple (values : List String)
  deriving DecidableEq, Repr

/-- The fields of `url.parse(req.url, true)` the handler reads. -/
structure ParsedUrl where
  pathname : Option String
  query : List (String × QueryValue)
  deriving DecidableEq, Repr

/-- The fields of the request the handler reads. -/
structure Request where
  url : String
  ifNoneMatch : Option String
  deriving DecidableEq, Repr

/-- What the response carries after its head. -/
inductive Body
  /-- `res.end()`. -/
  | empty
  /-- `res.end(text)`. -/
  | text (content : String)
  /-- `fs.createReadStream(path).pipe(res)`. -/
  | file (path : String)
  deriving DecidableEq, Repr

/-- A response: status, headers in the order they are set, body. -/
structure Response where
  status : Nat
  headers : List (String × String)
  body : Body
  deriving DecidableEq, Repr

/-- How a request ends. -/
inductive Outcome
  /-- One response, which ends. -/
  | respond (response : Response)
  /-- A head, then what a device gives, which may never end. -/
  | streamDevice (head : Response)
  /-- A head, then nothing: the read stream waits for a writer to the named pipe. -/
  | waits (head : Response)
  /-- A head, after which the read stream emits an `error` nobody listens to, which ends the
  process. -/
  | streamError (head : Response)
  deriving DecidableEq, Repr

/-- The response, or the head the response starts with. -/
def Outcome.head : Outcome → Response
  | .respond head | .streamDevice head | .waits head | .streamError head => head

/-- The file an outcome streams to the client, if any. -/
def Outcome.file? (outcome : Outcome) : Option String :=
  match outcome.head.body with
  | .file path => some path
  | _ => none

/-! ## The handler -/

/-- `serveError`. -/
def serveError (errorCode : Nat) (errorMessage : String) : Outcome :=
  .respond ⟨errorCode, [("Content-Type", "text/plain")], .text errorMessage⟩

/-- The weak ETag `serveFile` makes of a stat. -/
def etagOf (stats : Stats) : String :=
  "W/\"" ++ "-".intercalate [toString stats.ino, toString stats.size, toString stats.mtime] ++ "\""

/-- `fs.createReadStream(path).pipe(res)` after the head: how the response goes on.  The stream
has no `error` listener. -/
def pipeReadStream (fs : FileSystem) (path : String) (head : Response) : Outcome :=
  match fs path with
  | .file _ true => .respond head
  | .device _ true => .streamDevice head
  | .fifo _ => .waits head
  | _ => .streamError head

/-- `serveFile`, for the request's `If-None-Match` header. -/
def serveFile (fs : FileSystem) (ifNoneMatch : Option String) (filePath : String) : Outcome :=
  let filePath := normalize filePath
  match stat fs filePath with
  | none => .respond ⟨404, [("Content-Type", "text/plain")], .text "Not found"⟩
  | some stats =>
    let etag := etagOf stats
    if ifNoneMatch = some etag then .respond ⟨304, [], .empty⟩
    else
      pipeReadStream fs filePath
        ⟨200, [("Content-Type", contentType filePath), ("Etag", etag)], .file filePath⟩

/-- The path the static branch hands to `serveFile`: the pathname, `/static/` stripped when it
starts with it, decoded and normalized, joined to `APP_ROOT`. -/
def staticFilePath (dirname pathname : String) : Except URIError String :=
  let relative :=
    if "/static/".data.isPrefixOf pathname.data then ⟨pathname.data.drop "/static/".length⟩
    else pathname
  (fun decoded => join [APP_ROOT dirname, normalize decoded]) <$> decodeURIComponent relative

/-- The `/vscode-remote-resource` branch: the `path` query value, when it is one string, as
`URI.from` makes a file system path of it. -/
def remoteResource (fsPath : String → Option String) (fs : FileSystem) (req : Request)
    (parsedUrl : ParsedUrl) : Outcome :=
  match parsedUrl.query.lookup "path" with
  | some (.single filePath) =>
    match fsPath filePath with
    | none => serveError 500 "Internal Server Error."
    | some path => if path = "" then serveError 400 "Bad Request." else serveFile fs req.ifNoneMatch path
  | _ => serveError 400 "Bad Request."

/-- The request handler passed to `http.createServer`. -/
def handleRequest (dirname : String) (urlParse : String → Option ParsedUrl)
    (fsPath : String → Option String) (fs : FileSystem) (req : Request) : Outcome :=
  if req.url = "" then serveError 400 "Bad Request."
  else match urlParse req.url with
    | none => serveError 500 "Internal Server Error."
    | some parsedUrl =>
      if parsedUrl.pathname = some "/vscode-remote-resource" then remoteResource fsPath fs req parsedUrl
      else if parsedUrl.pathname = some "/" then
        serveFile fs req.ifNoneMatch (if devMode then WEB_MAIN_DEV dirname else WEB_MAIN dirname)
      else if parsedUrl.pathname = some "/manifest.json" then
        .respond ⟨200, [("Content-Type", "application/json")], .text manifest⟩
      else match parsedUrl.pathname with
        | some pathname =>
          if pathname = "" then serveError 404 "Not found."
          else match staticFilePath dirname pathname with
            | .error _ => serveError 500 "Internal Server Error."
            | .ok filePath => serveFile fs req.ifNoneMatch filePath
        | none => serveError 404 "Not found."

example : APP_ROOT "/srv/fxcode/out/vs/fxdk/node" = "/srv/fxcode" := by decide
example : contentType "/a/logo.PNG" = "image/png" ∧ contentType "/a/x.html" = "text/html" ∧
    contentType "/a/README" = "text/plain" := by
  decide

/-! ## Every request ends in one response, or in a stream error on an unreadable path -/

section Outcome

variable (fs : FileSystem) (ifNoneMatch : Option String) (filePath : String)

theorem stat_eq_some {fs : FileSystem} {path : String} {stats : Stats} (h : stat fs path = some stats) :
    (fs path).stats? = some stats := by
  unfold stat at h
  split_ifs at h
  exact h

/-- `serveFile` answers 404 or 304, or writes a 200 head and pipes a read stream of the
normalized path, which `stat` reaches. -/
theorem serveFile_cases :
    serveFile fs ifNoneMatch filePath = .respond ⟨404, [("Content-Type", "text/plain")], .text "Not found"⟩ ∨
    serveFile fs ifNoneMatch filePath = .respond ⟨304, [], .empty⟩ ∨
    ∃ headers stats, (fs (normalize filePath)).stats? = some stats ∧ serveFile fs ifNoneMatch filePath =
      pipeReadStream fs (normalize filePath) ⟨200, headers, .file (normalize filePath)⟩ := by
  dsimp only [serveFile]
  split
  · exact .inl rfl
  · rename_i stats hstat
    split_ifs
    · exact .inr (.inl rfl)
    · exact .inr (.inr ⟨_, stats, stat_eq_some hstat, rfl⟩)

/-- After the head, the entry at the path decides how the response goes on. -/
theorem pipeReadStream_cases {path : String} {stats : Stats} (hstat : (fs path).stats? = some stats)
    (head : Response) :
    pipeReadStream fs path head = .respond head ∧ fs path = .file stats true ∨
    pipeReadStream fs path head = .streamDevice head ∧ fs path = .device stats true ∨
    pipeReadStream fs path head = .waits head ∧ fs path = .fifo stats ∨
    pipeReadStream fs path head = .streamError head ∧ (fs path = .directory stats ∨
      fs path = .socket stats ∨ fs path = .file stats false ∨ fs path = .device stats false) := by
  unfold pipeReadStream
  rcases hfs : fs path with _ | ⟨s, _ | _⟩ | s | ⟨s, _ | _⟩ | s | s <;>
    simp only [hfs, Entry.stats?, Option.some.injEq, reduceCtorEq] at hstat <;> subst hstat <;> simp

/-- `serveFile` streams nothing but the normalized path it was given. -/
theorem serveFile_file? {path : String} (h : (serveFile fs ifNoneMatch filePath).file? = some path) :
    path = normalize filePath := by
  rcases serveFile_cases fs ifNoneMatch filePath with h' | h' | ⟨headers, stats, -, h'⟩ <;> rw [h'] at h
  · cases h
  · cases h
  · unfold pipeReadStream at h
    split at h <;> exact (Option.some.inj h).symm

/-- The ways the handler answers: an error page, the manifest, or `serveFile` of a path. -/
inductive Answer (fs : FileSystem) (ifNoneMatch : Option String) : Outcome → Prop
  | error {code : Nat} (message : String) : code ∈ [400, 404, 500] → Answer fs ifNoneMatch (serveError code message)
  | manifest : Answer fs ifNoneMatch (.respond ⟨200, [("Content-Type", "application/json")], .text manifest⟩)
  | serve (path : String) : Answer fs ifNoneMatch (serveFile fs ifNoneMatch path)

theorem handleRequest_answer (dirname : String) (urlParse : String → Option ParsedUrl)
    (fsPath : String → Option String) (req : Request) :
    Answer fs req.ifNoneMatch (handleRequest dirname urlParse fsPath fs req) := by
  unfold handleRequest remoteResource
  repeat' split
  all_goals with_reducible first
    | exact .serve _
    | exact .manifest
    | exact .error _ (by decide)

end Outcome

/-- A request for `/static/`: the branch serves `APP_ROOT` itself, a directory, so the 200 head
goes out and the read stream's error ends the server. -/
theorem static_root_directory_stream_error :
    handleRequest "/srv/fxcode/out/vs/fxdk/node" (fun url => some ⟨some url, []⟩) (fun _ => none)
        (fun path => if path = "/srv/fxcode" then .directory ⟨2, 4096, 0⟩ else .missing)
        ⟨"/static/", none⟩ =
      .streamError ⟨200, [("Content-Type", "text/plain"), ("Etag", "W/\"2-4096-0\"")], .file "/srv/fxcode"⟩ := by
  decide

end Fxcode.Server.Handler
