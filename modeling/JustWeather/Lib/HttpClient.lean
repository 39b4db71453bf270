import JustWeather.Lib.MessageHead
import JustWeather.Lib.TcpClient

/-!
# Lib/HttpClient — the client: the URL, the request it writes, the response it reads

The states of `http_client.c` that carry the exchange: `workInit` takes the URL apart, `workWriting`
formats the request and sends it, `workReading` collects the response.  Connecting and the timeout
take no part in what is written or read.
-/

open CLib

/-- `http_client_state`. -/
inductive HttpClientState
  | init
  | connect
  | connecting
  | writing
  | reading
  | done
  | dispose
  deriving DecidableEq, Repr

/-- `http_client`.  `callback` says whether one is installed; `write_buffer` is what was written to
its block, `read_buffer` the block of its `read_buffer_size` bytes, empty for `NULL`, and `body` the
`content_len` bytes before the terminator of its block. -/
structure HttpClient where
  state : HttpClientState
  url : List Byte
  callback : Bool
  writeBuffer : Option (List Byte)
  writeSize : ℕ
  writeOffset : ℕ
  readBuffer : List Byte
  bodyStart : ℕ
  contentLen : ℕ
  statusCode : ℤ
  body : Option (List Byte)
  hostname : List Byte
  path : List Byte
  port : List Byte
  deriving DecidableEq

namespace HttpClient

/-- `CHUNK_SIZE`. -/
def chunkSize : ℕ := 4096

/-- What the outside sees of a tick. -/
inductive Event
  /-- the callback was called -/
  | called (event : List Byte) (response : Option (List Byte))
  /-- the socket took these bytes -/
  | accepted (bs : List Byte)
  deriving DecidableEq

/-- The state a handler returns, the client after it, and its events. -/
structure Outcome where
  next : HttpClientState
  client : HttpClient
  events : List Event
  deriving DecidableEq

/-- `if (callback != NULL) callback(event, response)`. -/
def notify (event response : List Byte) (c : HttpClient) : List Event :=
  if c.callback then [.called event (some response)] else []

/-! ## The URL -/

/-- What `parse_url` takes out of a URL. -/
structure Url where
  hostname : List Byte
  port : List Byte
  path : List Byte
  deriving DecidableEq, Repr

/-- The scheme is skipped, and sets the default port. -/
def skipScheme (url : List Byte) : List Byte × List Byte :=
  if startsWith url (bytes "http://") then (url.drop 7, bytes "80")
  else if startsWith url (bytes "https://") then (url.drop 8, bytes "443")
  else (url, bytes "80")

/-- `if (*end == ':') { … }`: what follows the port, and the port. -/
def takePort (port : List Byte) : List Byte → List Byte × List Byte
  | 58 :: rest =>
    let digits := rest.takeWhile (· != 47)
    (rest.drop digits.length,
      if 0 < digits.length ∧ digits.length < 16 then strncpy 15 digits else port)
  | rest => (rest, port)

/-- `if (*end == '/') { … }`. -/
def takePath : List Byte → List Byte
  | 47 :: rest => strncpy 511 (47 :: rest)
  | _ => bytes "/"

/-- `parse_url`: `none` is its `-1`. -/
def parseUrl (url : List Byte) : Option Url :=
  let (start, port) := skipScheme url
  let hostname := start.takeWhile fun b => b != 58 && b != 47
  if hostname.length = 0 ∨ 255 < hostname.length then none
  else
    let (rest, port) := takePort port (start.drop hostname.length)
    some ⟨hostname, port, takePath rest⟩

/-- `http_client_work_init`. -/
def workInit (c : HttpClient) : Outcome :=
  match parseUrl c.url with
  | none => ⟨.dispose, c, c.notify (bytes "ERROR") (bytes "Invalid URL")⟩
  | some u =>
    let c := { c with hostname := u.hostname, port := u.port, path := u.path }
    if c.hostname.length = 0 then
      ⟨.dispose, c, c.notify (bytes "ERROR") (bytes "No hostname in URL")⟩
    else ⟨.connect, c, []⟩

/-! ## Writing -/

/-- The request, as its format string spells it. -/
def requestText (path hostname : List Byte) : List Byte :=
  bytes "GET " ++ path ++ bytes " HTTP/1.1\r\n" ++ bytes "Host: " ++ hostname ++ bytes "\r\n" ++
    bytes "Connection: close\r\n" ++ bytes "\r\n"

/-- The request is formatted into a block of 1024 bytes, and `write_size` is the length it has. -/
def format (c : HttpClient) : HttpClient :=
  let (text, len) := snprintf 1024 (requestText c.path c.hostname)
  { c with writeBuffer := some (text ++ [0]), writeSize := len, writeOffset := 0 }

/-- The call of `send` on what is left of the request, and what follows it. -/
def sendRequest (s : Send) (buffer : List Byte) (c : HttpClient) : Except Fault Outcome :=
  if buffer.length < c.writeSize then .error .sendPastEnd
  else
    match s with
    | .wouldBlock => .ok ⟨.writing, c, []⟩
    | .error => .ok ⟨.dispose, c, c.notify (bytes "ERROR") (bytes "Send failed")⟩
    | .accepts room =>
      let sent := ((buffer.drop c.writeOffset).take (c.writeSize - c.writeOffset)).take room
      let c := { c with writeOffset := c.writeOffset + sent.length }
      if c.writeSize ≤ c.writeOffset then
        .ok ⟨.reading, { c with writeBuffer := none }, [.accepted sent]⟩
      else .ok ⟨.writing, c, [.accepted sent]⟩

/-- `http_client_work_writing`; `alloc` is whether the block for the request is there. -/
def workWriting (alloc : Bool) (s : Send) (c : HttpClient) : Except Fault Outcome :=
  match c.writeBuffer with
  | some buffer => c.sendRequest s buffer
  | none =>
    if alloc then
      match c.format.writeBuffer with
      | some buffer => c.format.sendRequest s buffer
      | none => .error .nullAccess
    else .ok ⟨.dispose, c, c.notify (bytes "ERROR") (bytes "Memory allocation failed")⟩

/-! ## Reading -/

/-- Which allocations of `http_client_work_reading` succeed: the grown `read_buffer`, the copy of
the head, the body. -/
structure ReadAlloc where
  readBuffer : Bool
  headers : Bool
  body : Bool
  deriving DecidableEq

/-- Every allocation succeeds. -/
def ReadAlloc.all : ReadAlloc := ⟨true, true, true⟩

/-- `sscanf(headers, "HTTP/1.%*d %d …", &status_code, …)`; a conversion that fails leaves the `0` of
the declaration. -/
def scanStatus (text : List Byte) : ℤ :=
  if startsWith text (bytes "HTTP/1.") then
    match scanInt (text.drop 7) with
    | none => 0
    | some (_, rest) => ((scanInt rest).map Prod.fst).getD 0
  else 0

/-- `realloc` and `memcpy`. -/
def grow (chunk : List Byte) (c : HttpClient) : Except Fault HttpClient :=
  if c.readBuffer.length + chunk.length < sizeMod then
    .ok { c with readBuffer := c.readBuffer ++ chunk }
  else .error .blockTooSmall

/-- A chunk that `size_t` counts with what is there is added. -/
theorem grow_of_lt {c : HttpClient} {chunk : List Byte}
    (h : (c.readBuffer ++ chunk).length < sizeMod) :
    c.grow chunk = .ok { c with readBuffer := c.readBuffer ++ chunk } := by
  rw [List.length_append] at h
  exact if_pos h

theorem grow_of_le {c : HttpClient} {chunk : List Byte}
    (h : sizeMod ≤ (c.readBuffer ++ chunk).length) : c.grow chunk = .error .blockTooSmall := by
  rw [List.length_append] at h
  exact if_neg (Nat.not_lt.mpr h)

theorem of_grow {c d : HttpClient} {chunk : List Byte} (h : c.grow chunk = .ok d) :
    d = { c with readBuffer := c.readBuffer ++ chunk } ∧
      (c.readBuffer ++ chunk).length < sizeMod := by
  rcases Nat.lt_or_ge (c.readBuffer ++ chunk).length sizeMod with hlt | hge
  · exact ⟨Except.ok.inj (h.symm.trans (grow_of_lt hlt)), hlt⟩
  · cases h.symm.trans (grow_of_le hge)

/-- The client with a head read into it. -/
def setHead (h : MessageHead ℤ) (c : HttpClient) : HttpClient :=
  { c with statusCode := h.fields, contentLen := h.contentLen, bodyStart := h.bodyStart }

/-- `if (client->body_start == 0) { … }`: `none` is the early return when the head has no memory to
be copied to. -/
def latch (a : ReadAlloc) (c : HttpClient) : Except Fault (Option HttpClient) :=
  if c.bodyStart = 0 then
    match endOfHeaders c.readBuffer with
    | .error f => .error f
    | .ok none => .ok (some c)
    | .ok (some headerEnd) =>
      if a.headers then .ok (some (c.setHead (parseHead scanStatus (c.readBuffer.take headerEnd))))
      else .ok none
  else .ok (some c)

/-- The completeness test, `body_start + content_len` taken as a `size_t`. -/
def complete (c : HttpClient) : Bool :=
  0 < c.bodyStart && sizeAdd c.bodyStart c.contentLen ≤ c.readBuffer.length

/-- The body is copied to a block of `content_len + 1` bytes, taken as a `size_t`, and terminated
there. -/
def takeBody (a : ReadAlloc) (c : HttpClient) : Except Fault HttpClient :=
  if 0 < c.contentLen then
    if a.body then
      if c.contentLen < sizeAdd c.contentLen 1 ∧
          c.bodyStart + c.contentLen ≤ c.readBuffer.length then
        .ok { c with body := some ((c.readBuffer.drop c.bodyStart).take c.contentLen) }
      else .error .copyPastEnd
    else .ok { c with body := none }
  else .ok c

/-- `Status: %d, Body: %s`, cut to the 256 bytes of `response_info`. -/
def responseInfo (c : HttpClient) : List Byte :=
  (snprintf 256 (bytes "Status: " ++ decimalInt c.statusCode ++ bytes ", Body: " ++
    cstr (c.body.getD []))).1

/-- What follows the head: wait, or take the body and be done. -/
def finish (a : ReadAlloc) (c : HttpClient) : Except Fault Outcome :=
  if c.complete then
    match c.takeBody a with
    | .error f => .error f
    | .ok c => .ok ⟨.done, c, c.notify (bytes "RESPONSE") c.responseInfo⟩
  else .ok ⟨.reading, c, []⟩

/-- The part of `http_client_work_reading` after the bytes are in `read_buffer`. -/
def process (a : ReadAlloc) (c : HttpClient) : Except Fault Outcome :=
  match c.latch a with
  | .error f => .error f
  | .ok none => .ok ⟨.dispose, c, c.notify (bytes "ERROR") (bytes "Memory allocation failed")⟩
  | .ok (some c) => c.finish a

/-- `http_client_work_reading`. -/
def workReading (a : ReadAlloc) (r : Recv chunkSize) (c : HttpClient) : Except Fault Outcome :=
  let (bytesRead, chunk) := tcpClientRead r
  if bytesRead < 0 then .ok ⟨.dispose, c, c.notify (bytes "ERROR") (bytes "Read failed")⟩
  else if bytesRead = 0 then .ok ⟨.reading, c, []⟩
  else if a.readBuffer then
    match c.grow chunk with
    | .error f => .error f
    | .ok c => c.process a
  else .ok ⟨.dispose, c, c.notify (bytes "ERROR") (bytes "Memory allocation failed")⟩

/-- What the environment does in one tick of a client that reads. -/
structure ReadTick where
  recv : Recv chunkSize
  alloc : ReadAlloc

/-- The `http_client_state_reading` case of `http_client_work`; a client in another state reads
nothing. -/
def readWork (t : ReadTick) (c : HttpClient) : Except Fault (HttpClient × List Event) :=
  match c.state with
  | .reading => (c.workReading t.alloc t.recv).map fun o =>
      ({ o.client with state := o.next }, o.events)
  | _ => .ok (c, [])

end HttpClient
