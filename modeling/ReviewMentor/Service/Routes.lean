import ReviewMentor.Service.Analysis
import ReviewMentor.Service.Learning

/-!
# Routes

Which request is answered how, and which pages may use the answers.
-/

namespace ReviewMentor

/-- The version of the program. -/
def version : String := "0.2.0"

/-- A part of a route. -/
inductive RoutePart where
  | fixed (text : String)
  /-- Any part; the last one must not be empty. -/
  | hole
deriving DecidableEq, Repr

/-- What a route offers: the method it wants, and what it does with the holes of the path. -/
structure Route where
  method : String
  parts : List RoutePart
  handle : List String → Http.Request → Handling Http.Response

namespace Route

/-- The route of a path; a star is a hole. -/
def parse (path : String) : List RoutePart :=
  ((Text.cut '/' path).drop 1).map fun part => if part = "*" then .hole else .fixed part

/-- What stands in the holes of a route. -/
def holes? : List RoutePart → List String → Option (List String)
  | [], [] => some []
  | .fixed text :: parts, given :: rest => if text = given then holes? parts rest else none
  | .hole :: parts, given :: rest =>
    if given = "" && rest.isEmpty then none else (holes? parts rest).map (given :: ·)
  | _, _ => none

/-- What stands in the holes of a route, if the path is one of its paths. -/
def matches? (route : Route) (path : String) : Option (List String) :=
  match Text.cut '/' path with
  | "" :: parts => holes? route.parts parts
  | _ => none

/-- Whether the route offers a method. What may be got may also be looked up without its body. -/
def offers (route : Route) (method : String) : Bool :=
  route.method = method || (route.method = "GET" && method = "HEAD")

end Route

namespace Service

/-- Tells that the service is well. -/
def health : Handling Http.Response :=
  pure (.ofJson (.object [("status", .string "healthy"), ("version", .string version)]))

/-- All routes. -/
def routes (s : Service) (now : Timestamp) : List Route :=
  let get (path : String) (handle : List String → Http.Request → Handling Http.Response) : Route :=
    ⟨"GET", Route.parse path, handle⟩
  let post (path : String) (handle : List String → Http.Request → Handling Http.Response) :
      Route :=
    ⟨"POST", Route.parse path, handle⟩
  [get "/health" fun _ _ => health,
    post "/api/v1/analysis/analyze-zip" fun _ => s.analyzeUpload,
    post "/api/v1/analysis/analyze-code" fun _ => s.analyzeCode,
    post "/api/v1/analysis/apply-fix" fun _ => s.applyFix,
    post "/api/v1/analysis/export-project" fun _ => s.exportProject,
    post "/api/v1/analysis/generate-fix" fun _ => s.suggestFix,
    get "/api/v1/analysis/debug-config" fun _ _ => s.showConfigs,
    get "/api/v1/files" fun _ => s.showFile,
    post "/api/v1/explanations/explain" fun _ => s.explain,
    get "/api/v1/explanations/template/*" fun holes => showTemplate (holes.headD ""),
    post "/api/v1/feedback/explanation" fun _ => s.logFeedback now,
    get "/api/v1/profile/*" fun holes _ => s.showProfile (holes.headD ""),
    post "/api/v1/profile/*/experience-level" fun holes =>
      s.changeProfile (holes.headD "") readChosenLevel,
    post "/api/v1/profile/*/quiz" fun holes => s.changeProfile (holes.headD "") readQuiz]

/-- Answers a request by its route. -/
def route (s : Service) (now : Timestamp) (r : Http.Request) (scene : Scene) :
    Scene × Http.Response :=
  let found := (s.routes now).filterMap fun route =>
    (route.matches? r.path).map fun holes => (route, holes)
  match found.find? fun f => f.1.offers r.method with
  | some (route, holes) =>
    let (scene, result) := (route.handle holes r).run scene
    let response := match result with
      | .ok response => response
      | .error refusal => refusal.response
    (scene, if r.method = "HEAD" then response.withoutBody else response)
  | none => (scene, .bare (if found.isEmpty then 404 else 405))

/-- Whether a character may stand in the value of a header. -/
def isHeaderChar (c : Char) : Bool :=
  (0x20 ≤ c.toNat && c.toNat ≠ 0x7F) || c = '\t'

/-- The page that a request comes from, if it may use the answer. -/
def originAllowed? (s : Service) (r : Http.Request) : Option String :=
  (r.header? "origin").filter fun origin =>
    (s.settings.server.origins.filter (·.toList.all isHeaderChar)).contains origin

/-- A header that is only sent if it has a value. -/
def headerIf (name : String) : Option String → List (String × String)
  | none => []
  | some value => [(name, value)]

/-- The headers that tell a browser which pages may use the answer. -/
def originHeaders (s : Service) (r : Http.Request) : List (String × String) :=
  ("access-control-allow-credentials", "true") ::
    headerIf "access-control-allow-origin" (s.originAllowed? r)

/-- The headers that allow what a browser asks for. -/
def mirroredHeaders (r : Http.Request) : List (String × String) :=
  headerIf "access-control-allow-methods" (r.header? "access-control-request-method") ++
    headerIf "access-control-allow-headers" (r.header? "access-control-request-headers")

/-- Answers a request. A browser that asks what it may do is answered whatever the path is. -/
def answer (s : Service) (now : Timestamp) (r : Http.Request) (scene : Scene) :
    Scene × Http.Response :=
  if r.method = "OPTIONS" then (scene, ⟨200, s.originHeaders r ++ mirroredHeaders r, .empty⟩)
  else
    let (scene, response) := s.route now r scene
    (scene, { response with headers := s.originHeaders r ++ response.headers })

end Service

end ReviewMentor
