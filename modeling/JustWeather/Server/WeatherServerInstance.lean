import JustWeather.Lib.HttpServerConnection

/-!
# Server/WeatherServerInstance — the responses

`weather_server_instance_on_request`: the path is taken apart at `?`, and each endpoint formats a
head into 256 bytes and appends its body.  The handler of `/v1/current` is a parameter.
-/

open CLib

namespace WeatherServerInstance

/-- What `open_meteo_handler_current` makes of a query: `*response_json` and `*status_code`. -/
abbrev Current := List Byte → Option (List Byte) × Int32

/-! ## The path -/

/-- `path` and `query`: what stands before the first `?`, and after it. -/
def splitPath (requestPath : List Byte) : List Byte × List Byte :=
  match strchr requestPath 63 with
  | some mark => (requestPath.take (requestPath.length - mark.length), mark.drop 1)
  | none => (requestPath, [])

/-- A path and its query are no longer than what they were cut from. -/
theorem length_splitPath_le (requestPath : List Byte) :
    (splitPath requestPath).1.length ≤ requestPath.length ∧
      (splitPath requestPath).2.length ≤ requestPath.length := by
  rw [splitPath, strchr]
  split
  · rename_i mark hmark
    split at hmark
    · have hsuffix : mark.length ≤ requestPath.length := by
        rw [← Option.some.inj hmark]
        exact (List.dropWhile_suffix _).length_le
      simp only [List.length_take, List.length_drop]
      omega
    · cases hmark
  · exact ⟨le_rfl, Nat.zero_le _⟩

/-- The copies into `path[256]` and `query[512]`. -/
def copyPath (requestPath : List Byte) : Except Fault (List Byte × List Byte) :=
  let (path, query) := splitPath requestPath
  if path.length < 256 ∧ query.length < 512 then .ok (path, query) else .error .copyPastEnd

/-! ## The texts -/

/-- The head every endpoint formats, with its own status line, type and length. -/
def headText (status contentType length : List Byte) : List Byte :=
  bytes "HTTP/1.1 " ++ status ++ bytes "\r\n" ++
    bytes "Content-Type: " ++ contentType ++ bytes "\r\n" ++
    bytes "Access-Control-Allow-Origin: *\r\n" ++
    bytes "Content-Length: " ++ length ++ bytes "\r\n" ++
    bytes "\r\n"

/-- The homepage. -/
def html : List Byte :=
  [ "<!DOCTYPE html>",
    "<html>",
    "<head><title>Just Weather</title></head>",
    "<body>",
    "<h1>Just Weather API</h1>",
    "<p>Available endpoints:</p>",
    "<ul>",
    "  <li><b>GET /echo</b> — echo raw request</li>",
    "  <li><b>POST /echo</b> — echo raw body</li>",
    "  <li><b>GET /v1/current?lat=XX&lon=YY</b> — current weather</li>",
    "</ul>",
    "<p>Source code available on <a ",
    "href=\"https://github.com/Stockholm-3/just-weather\" ",
    "target=\"_blank\">GitHub</a>.</p>",
    "</body>",
    "</html>" ].flatMap bytes

/-- The body of the `500`. -/
def errorText : List Byte :=
  [ "\x7b\n",
    "  \"error\": \"Internal Server Error\",\n",
    "  \"message\": \"Failed to fetch weather data from Open-Meteo API\"\n",
    "\x7d\n" ].flatMap bytes

/-- `response_body`, formatted. -/
def notFoundText (method path : List Byte) : List Byte :=
  [ "\x7b\n",
    "  \"error\": \"Not Found\",\n",
    "  \"message\": \"The requested endpoint was not found\",\n",
    "  \"method\": \"" ].flatMap bytes ++ method ++ bytes "\",\n" ++
  bytes "  \"path\": \"" ++ path ++
  [ "\",\n",
    "  \"available_endpoints\": [\n",
    "    \"GET /\",\n",
    "    \"POST /echo\",\n",
    "    \"GET /v1/current?lat=XX&lon=YY\"\n",
    "  ]\n",
    "\x7d\n" ].flatMap bytes

/-! ## The responses -/

/-- `malloc(total + spare)`, and `header_len` bytes of `header[256]` and the body copied there; what
is spare is terminated. -/
def assemble (spare : ℕ) (header : List Byte × ℕ) (body : List Byte) :
    Except Fault HTTPServerConnection.Response :=
  let total := sizeAdd header.2 body.length
  if 256 < header.2 then .error .copyPastEnd
  else if sizeAdd total spare < header.2 + body.length + spare then .error .blockTooSmall
  else .ok ⟨(header.1 ++ [0]).take header.2 ++ body ++ List.replicate spare 0, total⟩

/-- `GET /`; `alloc` is whether the block for the response is there, here and below. -/
def homepage (alloc : Bool) : Except Fault (Option HTTPServerConnection.Response) :=
  let header := snprintf 256
    (headText (bytes "200 OK") (bytes "text/html; charset=utf-8") (decimal html.length))
  if alloc then (assemble 0 header html).map some else .error .nullAccess

/-- `/echo`. -/
def echo (alloc : Bool) (readBuffer : List Byte) :
    Except Fault (Option HTTPServerConnection.Response) :=
  let header := snprintf 256
    (headText (bytes "200 OK") (bytes "text/plain") (decimal readBuffer.length))
  if alloc then (assemble 0 header readBuffer).map some else .error .nullAccess

/-- `GET /v1/current` without an answer from the handler. -/
def currentFailed (alloc : Bool) : Except Fault (Option HTTPServerConnection.Response) :=
  let (body, bodyLen) := snprintf 256 errorText
  let header := snprintf 256
    (headText (bytes "500 Internal Server Error") (bytes "application/json") (decimal bodyLen))
  if alloc then
    if 256 < bodyLen then .error .copyPastEnd
    else (assemble 1 header ((body ++ [0]).take bodyLen)).map some
  else .ok none

/-- `GET /v1/current` with one. -/
def currentAnswered (alloc : Bool) (statusCode : Int32) (json : List Byte) :
    Except Fault (Option HTTPServerConnection.Response) :=
  let reason := if statusCode = 200 then bytes "OK" else bytes "Error"
  let header := snprintf 256 (headText (decimalInt statusCode.toInt ++ bytes " " ++ reason)
    (bytes "application/json") (decimal json.length))
  if alloc then (assemble 1 header json).map some else .ok none

/-- Everything else. -/
def notFound (alloc : Bool) (method path : List Byte) :
    Except Fault (Option HTTPServerConnection.Response) :=
  let body := (snprintf 512 (notFoundText method path)).1
  let header := snprintf 256
    (headText (bytes "404 Not Found") (bytes "application/json") (decimal body.length))
  if alloc then (assemble 1 header body).map some else .ok none

/-- `weather_server_instance_on_request`. -/
def onRequest (current : Current) (alloc : Bool) : HTTPServerConnection.OnRequest := fun c =>
  match c.requestPath with
  | none => .error .nullAccess
  | some requestPath =>
    match copyPath requestPath with
    | .error f => .error f
    | .ok (path, query) =>
      match c.method with
      | none => .error .nullAccess
      | some method =>
        if method = bytes "GET" ∧ path = bytes "/" then homepage alloc
        else if path = bytes "/echo" then echo alloc c.readBuffer
        else if method = bytes "GET" ∧ path = bytes "/v1/current" then
          match current query with
          | (none, _) => currentFailed alloc
          | (some json, statusCode) => currentAnswered alloc statusCode json
        else notFound alloc method path

end WeatherServerInstance
