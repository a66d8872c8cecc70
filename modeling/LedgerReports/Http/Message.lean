import LedgerReports.Failure
import LedgerReports.Json.Printer
import LedgerReports.Text.Blank
import LedgerReports.Text.Utf8

/-!
# Requests and responses

A request as it comes in and a response as it goes out, with what is read from headers.
-/

namespace LedgerReports.Http

/-- A request. -/
structure Request where
  /-- The method. -/
  method : String
  /-- What is asked for: a path, and perhaps a query. -/
  target : String
  /-- The headers. -/
  headers : List (String × ByteArray) := []
  /-- The body. -/
  body : ByteArray := ByteArray.empty

/-- A response. -/
structure Response where
  /-- The status. -/
  status : Nat
  /-- The headers. -/
  headers : List (String × String) := []
  /-- The body. -/
  body : String := ""

/-- The value of the first header with a name. -/
def Request.header? (r : Request) (name : String) : Option ByteArray :=
  r.headers.findSome? fun (key, value) => if key.toLower == name then some value else none

/-- The text of a header of which all bytes are visible. -/
def visible? (value : ByteArray) : Option String :=
  let ok (b : UInt8) : Bool := b == 9 || (decide (32 ≤ b) && decide (b < 127))
  if value.toList.all ok then some (Utf8.decodeLossy value) else none

/-- The secret that stands behind `Bearer` in the first header that authorises. -/
def Request.secret? (r : Request) : Option String := do
  let text ← (← r.header? "authorization") |> visible?
  let mark := "Bearer ".toList
  if mark.isPrefixOf text.toList then
    let secret := Text.trim (text.toList.drop mark.length)
    if secret.isEmpty then none else some (String.ofList secret)
  else none

/-- Whether a character may stand in the name of a media type. -/
def isTokenChar (c : Char) : Bool :=
  c.isAlphanum || "!#$&-^_.+%'*`|~".toList.contains c

/-- Whether a media type is that of JSON, or of something that is written in JSON. -/
def isJsonType (mediaType : String) : Bool :=
  let name := (mediaType.toLower.toList.takeWhile (· ≠ ';')).reverse.dropWhile (· == ' ')
  let name := name.reverse
  let top := name.takeWhile (· ≠ '/')
  let sub := (name.dropWhile (· ≠ '/')).drop 1
  let isWord (cs : List Char) : Bool := !cs.isEmpty && cs.all isTokenChar
  top == "application".toList && isWord sub
    && (sub == "json".toList || "+json".toList.isSuffixOf sub)

/-- Whether the first header for the type of the body says that it is JSON. -/
def Request.hasJsonBody (r : Request) : Bool :=
  ((r.header? "content-type").bind visible?).any isJsonType

/-- A response with a JSON value. -/
def Response.ofJson (status : Nat) (v : Json) : Response :=
  { status, headers := [("content-type", "application/json")], body := v.render }

/-- A failure as it is shown to a client. -/
def envelope (f : Failure) : Json :=
  .ofFields [("errorId", .ofInt f.id), ("errorString", .ofText f.publicMessage)]

/-- The response for a failure. -/
def Response.ofFailure (f : Failure) : Response := .ofJson f.status (envelope f)

end LedgerReports.Http
