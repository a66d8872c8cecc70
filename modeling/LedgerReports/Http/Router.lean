import LedgerReports.Http.Message
import LedgerReports.Report.Json
import LedgerReports.Service
import LedgerReports.Tabulation.Json

/-!
# Routes

The service over HTTP. A target is one of three routes, and a route has a handler for each of some
methods; what else is asked for is answered without looking at the store.

A handler first reads the number of the report and the body, then looks who asks, and then does the
work. Scripts of all origins may use the service, so every response says so.
-/

namespace LedgerReports.Http

/-- What a path leads to. -/
inductive Route where
  /-- All reports of a user. -/
  | reports
  /-- A report, by the text of its number. -/
  | report (id : String)
  /-- The tabulation of a report, by the text of its number. -/
  | tabulations (id : String)
deriving DecidableEq, Repr

/-- The path without a query behind it. -/
def pathOf (target : String) : String :=
  String.ofList (target.toList.takeWhile fun c => c ≠ '?' && c ≠ '#')

/-- The route of a path, if it leads anywhere. -/
def Route.ofPath? (path : String) : Option Route :=
  match path.splitOn "/" with
  | ["", "v1", "reports"] => some .reports
  | ["", "v1", "reports", id] => if id.isEmpty then none else some (.report id)
  | ["", "v1", "reports", id, "tabulations"] =>
    if id.isEmpty then none else some (.tabulations id)
  | _ => none

/-- The methods of a route. -/
def Route.methods : Route → List String
  | reports => ["GET", "HEAD", "POST"]
  | report _ => ["GET", "HEAD", "PUT", "DELETE"]
  | tabulations _ => ["GET", "HEAD"]

/-- What is asked for. -/
inductive Command where
  /-- All reports. -/
  | list
  /-- Keeping a new report. -/
  | create
  /-- A report. -/
  | show (id : String)
  /-- Replacing a report. -/
  | update (id : String)
  /-- Deleting a report. -/
  | delete (id : String)
  /-- Running a report. -/
  | tabulate (id : String)
deriving DecidableEq, Repr

/-- What a method asks of a route. -/
def Route.command? : Route → String → Option Command
  | reports, "GET" => some .list
  | reports, "HEAD" => some .list
  | reports, "POST" => some .create
  | report id, "GET" => some (.show id)
  | report id, "HEAD" => some (.show id)
  | report id, "PUT" => some (.update id)
  | report id, "DELETE" => some (.delete id)
  | tabulations id, "GET" => some (.tabulate id)
  | tabulations id, "HEAD" => some (.tabulate id)
  | _, _ => none

/-! ### Reading requests -/

/-- The bytes of a path with the escapes of the form `%xx` replaced. -/
def unescape : List UInt8 → List UInt8
  | [] => []
  | [a] => [a]
  | [a, b] => [a, b]
  | a :: b :: c :: rest =>
    if a = Json.code '%' then
      match Json.hexValue? b, Json.hexValue? c with
      | some hi, some lo => UInt8.ofNat (16 * hi + lo) :: unescape rest
      | _, _ => a :: unescape (b :: c :: rest)
    else a :: unescape (b :: c :: rest)

/-- The number that a part of a path stands for. -/
def reportId? (text : String) : Option Int := do
  let decoded ← (Utf8.decode ⟨(unescape text.toUTF8.toList).toArray⟩).toOption
  let (negative, figures) :=
    match decoded.toList with
    | '-' :: rest => (true, rest)
    | '+' :: rest => (false, rest)
    | rest => (false, rest)
  if figures.isEmpty || !figures.all Text.isDigit then none
  else
    let n : Int := Text.digitsValue figures
    let n := if negative then -n else n
    if -2 ^ 63 ≤ n ∧ n < 2 ^ 63 then some n else none

/-- Reads the number of a report from a path. -/
def readId (text : String) : Except Failure Int :=
  match reportId? text with
  | some id => .ok id
  | none => .error (.validation "the path holds no number")

/-- The greatest number of bytes of a body. -/
def maxBody : Nat := 2 * 1024 * 1024

/-- Reads a report from the body of a request. What follows the report is not looked at. -/
def readReport (r : Request) : Except Failure Report :=
  if !r.hasJsonBody then .error (.validation "the body is not of a JSON type")
  else if maxBody < r.body.size then .error (.validation "the body is too long")
  else
    match (Json.read? r.body).bind fun (v, _) => Report.ofJson? v with
    | some report => .ok report
    | none => .error (.validation "the body is no report")

/-! ### Answering -/

/-- Does something for the user who asks. -/
def asUser (r : Request) (work : User → StoreM Response) : StoreM Response := do
  match r.secret? with
  | some secret => work (← Service.userForSession secret)
  | none => throw .notSignedIn

/-- Does what is asked for. -/
def Command.run (service : Service) (r : Request) : Command → StoreM Response
  | list => asUser r fun user => do
    return .ofJson 200 (Report.listToJson (← Service.reports user))
  | create => do
    let draft ← readReport r
    asUser r fun user => do return .ofJson 201 (← Service.createReport user draft).toJson
  | «show» id => do
    let id ← readId id
    asUser r fun user => do return .ofJson 200 (← Service.report user id).toJson
  | update id => do
    let id ← readId id
    let report ← readReport r
    asUser r fun user => do return .ofJson 200 (← Service.updateReport user id report).toJson
  | delete id => do
    let id ← readId id
    asUser r fun user => do
      Service.deleteReport user id
      return { status := 204 }
  | tabulate id => do
    let id ← readId id
    asUser r fun user => do return .ofJson 200 (← service.tabulate user id).toJson

/-- Every origin may read a response. -/
def allowOrigin : String × String := ("access-control-allow-origin", "*")

/-- The answer to a browser that asks what it may send. -/
def preflight (route? : Option Route) : Response :=
  let allow := (route?.map fun route => ("allow", ",".intercalate route.methods)).toList
  { status := 200
    headers := allow ++ [("access-control-allow-methods", "GET,POST,PUT,DELETE"),
      ("access-control-allow-headers", "*")] }

/-- The answer to a request, and the store afterwards. -/
def respond (service : Service) (r : Request) (s : Store) : Response × Store :=
  let route? := Route.ofPath? (pathOf r.target)
  let (response, s) : Response × Store :=
    if r.method = "OPTIONS" then (preflight route?, s)
    else
      match route? with
      | none => ({ status := 404 }, s)
      | some route =>
        match route.command? r.method with
        | none => ({ status := 405, headers := [("allow", ",".intercalate route.methods)] }, s)
        | some command =>
          match Service.transact (command.run service r) s with
          | (.ok response, s) => (response, s)
          | (.error f, s) => (.ofFailure f, s)
  let body := if r.method = "HEAD" then "" else response.body
  ({ response with headers := allowOrigin :: response.headers, body }, s)

end LedgerReports.Http
