import JustWeather.Lib.HeadLines
import JustWeather.Lib.HttpClient.Sending
import JustWeather.Lib.HttpServerConnection.Segmentation

/-!
# RoundTrip/Request — what the server makes of the client's request

The client pastes the path and the hostname of a URL into its request as they are, and the server
reads tokens and looks for header names in the whole head.  So the request arrives as it was meant
exactly when the URL is plain (`Plain`): short, without white space, and without a header name in
its path that the server would believe (`request_round_trip_iff`).
-/

open CLib MessageHead HTTPServerConnection

/-! ## The request -/

variable {path hostname : List Byte}

/-- The request after the path. -/
def requestTail (hostname : List Byte) : List Byte :=
  bytes "HTTP/1.1" ++ 13 :: 10 :: (bytes "Host:" ++ 32 ::
    (hostname ++ 13 :: 10 :: bytes "Connection: close\r\n\r\n"))

theorem requestText_eq (path hostname : List Byte) : HttpClient.requestText path hostname
    = bytes "GET" ++ 32 :: (path ++ 32 :: requestTail hostname) := by
  have hget : bytes "GET " = bytes "GET" ++ [32] := rfl
  have hversion : bytes " HTTP/1.1\r\n" = 32 :: (bytes "HTTP/1.1" ++ [13, 10]) := rfl
  have hhost : bytes "Host: " = bytes "Host:" ++ [32] := rfl
  have hcrlf : bytes "\r\n" = [13, 10] := rfl
  have hclose : bytes "Connection: close\r\n\r\n" = bytes "Connection: close\r\n" ++ [13, 10] :=
    rfl
  simp only [HttpClient.requestText, requestTail, hget, hversion, hhost, hcrlf, hclose,
    List.append_assoc, List.cons_append, List.nil_append]

theorem requestText_lines (path hostname : List Byte) : HttpClient.requestText path hostname
    = crlfLines [bytes "GET " ++ path ++ bytes " HTTP/1.1", bytes "Host: " ++ hostname,
      bytes "Connection: close"] ++ [13, 10] := by
  have hversion : bytes " HTTP/1.1\r\n" = bytes " HTTP/1.1" ++ [13, 10] := rfl
  have hcrlf : bytes "\r\n" = [13, 10] := rfl
  have hclose : bytes "Connection: close\r\n" = bytes "Connection: close" ++ [13, 10] := rfl
  simp only [HttpClient.requestText, hversion, hcrlf, hclose, crlfLines_cons, crlfLines_nil,
    List.append_assoc, List.cons_append, List.nil_append]

theorem zero_notMem_requestText (hp : (0 : Byte) ∉ path) (hh : (0 : Byte) ∉ hostname) :
    (0 : Byte) ∉ HttpClient.requestText path hostname := by
  simp only [HttpClient.requestText, List.mem_append, not_or]
  refine ⟨⟨⟨⟨⟨⟨⟨?_, hp⟩, ?_⟩, ?_⟩, hh⟩, ?_⟩, ?_⟩, ?_⟩ <;> decide

/-! ## What the server reads off it -/

/-- **A URL the server takes as it was meant**: the path fits its token, neither part has white
space in it, and what the server would find first behind a header name in the path is no news. -/
structure Plain (path hostname : List Byte) : Prop where
  path_le : path.length ≤ 255
  path_word : ∀ b ∈ path, isSpace b = false
  hostname_word : ∀ b ∈ hostname, isSpace b = false
  host : ∀ found, strstr path (bytes "Host:") = some found → found = bytes "Host:" ++ hostname
  length : scanContentLength path = 0

theorem readRequest_method (path hostname : List Byte) :
    (readRequest (HttpClient.requestText path hostname)).method = bytes "GET" := by
  rw [readRequest, requestText_eq,
    scanToken_append (by decide) (by decide +kernel) (by decide) (by decide)]

theorem readRequest_requestPath (hne : path ≠ []) (hle : path.length ≤ 255)
    (hword : ∀ b ∈ path, isSpace b = false) (hostname : List Byte) :
    (readRequest (HttpClient.requestText path hostname)).requestPath = path := by
  rw [readRequest, requestText_eq,
    scanToken_append (by decide) (by decide +kernel) (by decide) (by decide)]
  dsimp only
  rw [scanToken_cons (by decide), scanToken_append hne hword hle (by decide)]

theorem strstr_requestText {needle : List Byte} (hspace : (32 : Byte) ∉ needle)
    (hget : strstr (bytes "GET") needle = none) :
    strstr (HttpClient.requestText path hostname) needle
      = ((strstr path needle).map fun found => found ++ 32 :: requestTail hostname).or
        (strstr (requestTail hostname) needle) := by
  rw [requestText_eq, strstr_append_cons hspace, strstr_append_cons hspace, hget]
  rfl

theorem strstr_requestTail_host (hostname : List Byte) :
    strstr (requestTail hostname) (bytes "Host:") = some (bytes "Host:" ++ 32 ::
      (hostname ++ 13 :: 10 :: bytes "Connection: close\r\n\r\n")) := by
  rw [requestTail, strstr_crlf (by decide) (by decide) (by decide), strstr_append_self]
  rfl

theorem strstr_requestTail_length (hcolon : (58 : Byte) ∉ hostname) :
    strstr (requestTail hostname) (bytes "Content-Length:") = none := by
  have hspace : (32 : Byte) ∉ bytes "Content-Length:" := by decide
  have hhost : strstr hostname (bytes "Content-Length:") = none :=
    strstr_of_notMem (by decide) hcolon
  rw [requestTail, strstr_crlf (by decide) (by decide) (by decide), strstr_append_cons hspace,
    strstr_crlf (by decide) (by decide) (by decide), hhost]
  rfl

theorem word_of_strstr {s needle found : List Byte} (hs : ∀ b ∈ s, isSpace b = false)
    (h : strstr s needle = some found) : ∀ b ∈ found, isSpace b = false :=
  fun b hb => hs b ((exists_of_strstr h).2.subset hb)

/-- The host the server takes: the hostname, or what the path says after a `Host:` of its own. -/
theorem scanHost_requestText (hle : path.length ≤ 255) (hword : ∀ b ∈ path, isSpace b = false)
    (hne : hostname ≠ []) (hhost : hostname.length ≤ 255)
    (hhword : ∀ b ∈ hostname, isSpace b = false) :
    scanHost (HttpClient.requestText path hostname) =
      match strstr path (bytes "Host:") with
      | none => hostname
      | some found => if found.drop 5 = [] then bytes "HTTP/1.1" else found.drop 5 := by
  have hfield : ∀ s, (bytes "Host:" ++ s).drop 5 = s := fun s => List.drop_left' rfl
  rw [scanHost, strstr_requestText (by decide) rfl, strstr_requestTail_host]
  rcases hs : strstr path (bytes "Host:") with _ | found
  · dsimp only [Option.map_none, Option.none_or]
    rw [hfield, scanToken_cons (by decide), scanToken_append hne hhword hhost (by decide)]
  · obtain ⟨⟨rest, rfl⟩, hsuffix⟩ := exists_of_strstr hs
    have hrest : ∀ b ∈ rest, isSpace b = false :=
      fun b hb => word_of_strstr hword hs b (List.mem_append_right _ hb)
    have hlen : rest.length ≤ 255 := by
      have := hsuffix.length_le
      rw [List.length_append] at this
      omega
    dsimp only [Option.map_some, Option.some_or]
    rw [List.append_assoc, hfield, hfield]
    by_cases hnil : rest = []
    · rw [if_pos hnil, hnil, List.nil_append, scanToken_cons (by decide), requestTail,
        scanToken_append (by decide) (by decide +kernel) (by decide) (by decide)]
    · rw [if_neg hnil, scanToken_append hnil hrest hlen (by decide)]

/-- **The length the server takes is the one the path names**, if it names one. -/
theorem scanContentLength_requestText (hword : ∀ b ∈ path, isSpace b = false)
    (hcolon : (58 : Byte) ∉ hostname) :
    scanContentLength (HttpClient.requestText path hostname) = scanContentLength path := by
  have hfield : ∀ s, (bytes "Content-Length:" ++ s).drop 15 = s := fun s => List.drop_left' rfl
  rw [scanContentLength, scanContentLength, strstr_requestText (by decide) rfl,
    strstr_requestTail_length hcolon, Option.or_none]
  rcases hs : strstr path (bytes "Content-Length:") with _ | found
  · rfl
  · obtain ⟨⟨rest, rfl⟩, -⟩ := exists_of_strstr hs
    have hrest : ∀ b ∈ rest, isSpace b = false :=
      fun b hb => word_of_strstr hword hs b (List.mem_append_right _ hb)
    have htail : requestTail hostname = 72 :: (requestTail hostname).tail := rfl
    dsimp only [Option.map_some]
    rw [List.append_assoc, hfield, hfield, htail, scanSize_append_space hrest (by decide)]

/-- The head of the request is the whole request. -/
theorem headOf_requestText (hle : path.length ≤ 511) (hword : ∀ b ∈ path, isSpace b = false)
    (hhost : hostname.length ≤ 255) (hhword : ∀ b ∈ hostname, isSpace b = false) :
    headOf readRequest (HttpClient.requestText path hostname)
      = some (parseHead readRequest (HttpClient.requestText path hostname)) := by
  have hcr : ∀ s : List Byte, (∀ b ∈ s, isSpace b = false) → (13 : Byte) ∉ s :=
    fun s hs h => absurd (hs 13 h) (by decide)
  have hlen := HttpClient.length_requestText path hostname
  rw [requestText_lines, List.length_append] at hlen
  rw [requestText_lines]
  refine headOf_lines readRequest (by simp) ?_ ?_ []
  · intro l hl
    simp only [List.mem_cons, List.not_mem_nil, or_false] at hl
    obtain rfl | rfl | rfl := hl
    · refine ⟨by simp [bytes], ?_⟩
      simp only [List.mem_append, not_or]
      exact ⟨⟨by decide, hcr _ hword⟩, by decide⟩
    · refine ⟨by simp [bytes], ?_⟩
      simp only [List.mem_append, not_or]
      exact ⟨by decide, hcr _ hhword⟩
    · decide
  · have : intMax = 2 ^ 31 - 1 := rfl
    simp only [List.length_cons, List.length_nil] at hlen
    omega

/-! ## The round trip -/

/-- Every delivery of the request `w` wrote makes a connection call its callback once, on the
request the URL stands for. -/
def RoundTrips (w : HttpClient) : Prop :=
  ∀ (κ : Type) (onRequest : OnRequest) (smw : Smw κ) (fd : ℤ) (task : Option TaskHandle)
    (ticks : List Tick), (∀ c, ∃ r, onRequest c = .ok r) →
    Delivers ((w.writeBuffer.getD []).take w.writeSize) ticks →
    ∃ k d, dispatch onRequest ticks (smw, initiate fd task) = some (k, d) ∧
      (∀ y evs, connectionRun onRequest smw fd task ticks = .ok (y, evs) →
        evs.filterMap Event.connection? = [d]) ∧
      d.method = some (bytes "GET") ∧ d.requestPath = some w.path ∧ d.host = some w.hostname ∧
      d.contentLen = 0 ∧ d.bodyStart = w.writeSize

/-- A client that goes on to connect has taken its URL apart. -/
theorem exists_of_workInit {c : HttpClient} (h : c.workInit.next = .connect) :
    ∃ u, HttpClient.parseUrl c.url = some u ∧ c.workInit.client
      = { c with hostname := u.hostname, port := u.port, path := u.path } := by
  rw [HttpClient.workInit] at h ⊢
  rcases hu : HttpClient.parseUrl c.url with _ | u
  · rw [hu] at h
    cases h
  · refine ⟨u, rfl, ?_⟩
    dsimp only
    split <;> rfl

/-- What the client wrote is the whole request. -/
theorem format_request {w : HttpClient}
    (hlen : (HttpClient.requestText w.path w.hostname).length < 1024) :
    (w.format.writeBuffer.getD []).take w.format.writeSize
      = HttpClient.requestText w.path w.hostname ∧
    w.format.writeSize = (HttpClient.requestText w.path w.hostname).length := by
  rw [HttpClient.format, snprintf_of_lt hlen]
  exact ⟨List.take_left, rfl⟩

/-- **What the server makes of the head** of a request for a URL that was taken apart. -/
theorem headOf_parsed {port : List Byte} (hu : ParsedUrl ⟨hostname, port, path⟩)
    (hword : ∀ b ∈ path, isSpace b = false) (hhword : ∀ b ∈ hostname, isSpace b = false) :
    headOf readRequest (HttpClient.requestText path hostname)
      = some ⟨readRequest (HttpClient.requestText path hostname), scanContentLength path,
        (HttpClient.requestText path hostname).length⟩ := by
  have hcstr : cstr (HttpClient.requestText path hostname) = HttpClient.requestText path hostname :=
    cstr_of_notMem (zero_notMem_requestText hu.zero_notMem_path hu.zero_notMem_hostname)
  rw [headOf_requestText hu.path_le hword hu.hostname_le hhword, parseHead, hcstr,
    scanContentLength_requestText hword hu.colon_notMem]

/-- **The server takes the hostname exactly when the path does not name another host.** -/
theorem scanHost_eq_iff {port : List Byte} (hu : ParsedUrl ⟨hostname, port, path⟩)
    (hle : path.length ≤ 255) (hword : ∀ b ∈ path, isSpace b = false)
    (hhword : ∀ b ∈ hostname, isSpace b = false) :
    scanHost (HttpClient.requestText path hostname) = hostname ↔
      ∀ found, strstr path (bytes "Host:") = some found → found = bytes "Host:" ++ hostname := by
  have hfield : ∀ s, (bytes "Host:" ++ s).drop 5 = s := fun s => List.drop_left' rfl
  rw [scanHost_requestText hle hword hu.hostname_ne_nil hu.hostname_le hhword]
  rcases hs : strstr path (bytes "Host:") with _ | found
  · simp
  · obtain ⟨⟨rest, rfl⟩, -⟩ := exists_of_strstr hs
    dsimp only
    rw [hfield]
    constructor
    · intro hscan found hfound
      obtain rfl := Option.some.inj hfound
      split at hscan
      · -- a hostname has no slash
        have hslash : (47 : Byte) ∈ bytes "HTTP/1.1" := by decide
        rw [hscan] at hslash
        exact absurd hslash hu.slash_notMem
      · rw [hscan]
    · intro hhost
      obtain rfl := List.append_cancel_left (hhost _ rfl)
      rw [if_neg hu.hostname_ne_nil]

theorem roundTrips_of_plain {w : HttpClient} (hu : ParsedUrl ⟨w.hostname, w.port, w.path⟩)
    (hp : Plain w.path w.hostname) : RoundTrips w.format := by
  intro κ onRequest smw fd task ticks hret hd
  have hlen := HttpClient.length_requestText w.path w.hostname
  have hpath := hu.path_le
  have hhost := hu.hostname_le
  dsimp only at hpath hhost
  obtain ⟨htext, hsize⟩ := format_request (w := w) (by omega)
  rw [htext] at hd
  have hhead := headOf_parsed hu hp.path_word hp.hostname_word
  rw [hp.length] at hhead
  have hmod : sizeMod = 2 ^ 64 := rfl
  have hno : NoWrap readRequest (HttpClient.requestText w.path w.hostname) := by
    intro h hs
    obtain rfl := Option.some.inj (hhead.symm.trans hs)
    dsimp only
    omega
  rcases hd.dispatch_cases smw fd task hret (by omega) hno with
    ⟨-, hnone⟩ | ⟨h, k, p, hmsg, hpre, hle, hdisp, -⟩
  · cases (message_of_le (m := []) (by rwa [List.append_nil]) le_rfl).symm.trans hnone
  · obtain rfl := Option.some.inj (hhead.symm.trans (Framing.message_eq_some_iff.mp hmsg).1)
    obtain ⟨hm, hrp, hh, hc, hb, -⟩ := called_fields fd task hpre hle
    refine ⟨k, _, hdisp, fun y evs hrun => ?_, ?_, ?_, ?_, hc, hb.trans hsize.symm⟩
    · rw [requests_eq hrun, hdisp]
      rfl
    · rw [hm, readRequest_method]
    · rw [hrp, readRequest_requestPath hu.path_ne_nil hp.path_le hp.path_word]
      rfl
    · rw [hh]
      exact congrArg some
        ((scanHost_eq_iff hu hp.path_le hp.path_word hp.hostname_word).mpr hp.host)

/-- A request that arrives as it was meant has a head, with the path, the hostname and no body. -/
theorem exists_head_of_roundTrips {w : HttpClient} (hu : ParsedUrl ⟨w.hostname, w.port, w.path⟩)
    (hr : RoundTrips w.format) :
    ∃ head, headOf readRequest (HttpClient.requestText w.path w.hostname)
        = some (parseHead readRequest head) ∧
      (readRequest (cstr head)).requestPath = w.path ∧ scanHost (cstr head) = w.hostname ∧
      scanContentLength (cstr head) = 0 := by
  have hlen := HttpClient.length_requestText w.path w.hostname
  have hpath := hu.path_le
  have hhost := hu.hostname_le
  dsimp only at hpath hhost
  obtain ⟨htext, -⟩ := format_request (w := w) (by omega)
  obtain ⟨ticks, hd⟩ :=
    exists_delivers (s := HttpClient.requestText w.path w.hostname) (by omega)
  obtain ⟨k, d, hdisp, -, -, hrp, hh, hc, -⟩ :=
    hr Unit silent Smw.init 4 none ticks (fun c => ⟨none, rfl⟩) (by rwa [htext])
  obtain ⟨a, p, h, rfl, hs, rfl⟩ :=
    head_of_dispatch (A := (· = .all)) (s := []) hd.alloc waits_initiate (by decide) hdisp
  rw [List.nil_append, hd.received] at hs
  have hrp' : h.fields.requestPath = w.path := by
    rw [dispatched] at hrp
    split at hrp <;> exact Option.some.inj hrp
  have hh' : h.fields.host = w.hostname := by
    rw [dispatched] at hh
    split at hh <;> exact Option.some.inj hh
  have hc' : h.contentLen = 0 := by simpa [setHead] using hc
  obtain ⟨e, -, rfl⟩ := headOf_eq_some_iff.mp hs
  exact ⟨_, hs, hrp', hh', hc'⟩

theorem plain_of_roundTrips {w : HttpClient} (hu : ParsedUrl ⟨w.hostname, w.port, w.path⟩)
    (hr : RoundTrips w.format) : Plain w.path w.hostname := by
  obtain ⟨head, hs, hrp, hh, hc⟩ := exists_head_of_roundTrips hu hr
  have hple : w.path.length ≤ 255 := by
    rw [← hrp]
    exact length_scanToken_le _ _
  have hpword : ∀ b ∈ w.path, isSpace b = false := by
    rw [← hrp]
    exact fun b hb => (mem_scanToken hb).2
  have hhword : ∀ b ∈ w.hostname, isSpace b = false := by
    rw [← hh]
    intro b hb
    rw [scanHost] at hb
    split at hb
    · cases hb
    · exact (mem_scanToken hb).2
  -- now the head is known, and with it what the server reads off it
  have hhead := Option.some.inj (hs.symm.trans (headOf_parsed hu hpword hhword))
  have hscan : scanHost (HttpClient.requestText w.path w.hostname) = w.hostname :=
    (congrArg (fun h => h.fields.host) hhead).symm.trans hh
  exact ⟨hple, hpword, hhword, (scanHost_eq_iff hu hple hpword hhword).mp hscan,
    (congrArg MessageHead.contentLen hhead).symm.trans hc⟩

/-- **The request arrives as it was meant exactly when the URL is plain.** -/
theorem request_round_trip_iff (c : HttpClient) (hnul : (0 : Byte) ∉ c.url)
    (hinit : c.workInit.next = .connect) :
    RoundTrips c.workInit.client.format ↔
      Plain c.workInit.client.path c.workInit.client.hostname := by
  obtain ⟨u, hu, hclient⟩ := exists_of_workInit hinit
  have hparsed : ParsedUrl ⟨c.workInit.client.hostname, c.workInit.client.port,
      c.workInit.client.path⟩ := by
    rw [hclient]
    exact parsedUrl_of_parseUrl hnul hu
  exact ⟨plain_of_roundTrips hparsed, roundTrips_of_plain hparsed⟩

/-- A client that is given a URL. -/
def clientFor (url : String) : HttpClient := { HttpClient.idle with url := bytes url }

/-- A URL with a port, a path and a query. -/
theorem request_round_trip_current : RoundTrips
    (clientFor "http://127.0.0.1:8080/v1/current?lat=59.33&lon=18.07").workInit.client.format := by
  have hnone : strstr (clientFor
      "http://127.0.0.1:8080/v1/current?lat=59.33&lon=18.07").workInit.client.path (bytes "Host:")
      = none := by decide
  refine (request_round_trip_iff (clientFor "http://127.0.0.1:8080/v1/current?lat=59.33&lon=18.07")
    (by decide) (by decide)).mpr
    ⟨by decide, by decide +kernel, by decide +kernel, fun found h => ?_, by decide⟩
  cases hnone.symm.trans h

/-- A URL whose path names a length: the server waits for a body that never comes. -/
theorem request_round_trip_length : ¬ RoundTrips
    (clientFor "http://127.0.0.1/echo?Content-Length:5").workInit.client.format := by
  have hnul : (0 : Byte) ∉ bytes "http://127.0.0.1/echo?Content-Length:5" := by decide
  intro h
  exact absurd (plain_of_roundTrips (parsedUrl_of_parseUrl hnul rfl) h).length (by decide)
