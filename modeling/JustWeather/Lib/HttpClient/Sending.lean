import JustWeather.Lib.HttpClient.ParseUrl
import JustWeather.Lib.HttpClient.Reading

/-!
# Lib/HttpClient/Sending — the request is sent whole

What `parse_url` lets through is short enough for the 1024 bytes of `write_buffer`
(`length_request_lt`).  The writing state formats it once, and whatever `send` takes each time, the
socket has had the first `write_offset` bytes of it (`run_sent`).
-/

open CLib

namespace HttpClient

variable {c c' d : HttpClient} {evs evs' : List Event}

/-- What the environment does in one tick of a client that writes. -/
structure WriteTick where
  alloc : Bool
  send : Send

/-- The `http_client_state_writing` case of `http_client_work`; a client in another state writes
nothing. -/
def writeWork (t : WriteTick) (c : HttpClient) : Except Fault (HttpClient × List Event) :=
  match c.state with
  | .writing => (c.workWriting t.alloc t.send).map fun o =>
      ({ o.client with state := o.next }, o.events)
  | _ => .ok (c, [])

/-- The bytes the socket took. -/
def acceptedBytes (evs : List Event) : List Byte :=
  evs.flatMap fun
    | .accepted bs => bs
    | .called _ _ => []

@[simp] theorem acceptedBytes_nil : acceptedBytes [] = [] := rfl

@[simp] theorem acceptedBytes_accepted (bs : List Byte) : acceptedBytes [.accepted bs] = bs :=
  List.append_nil bs

@[simp] theorem acceptedBytes_append (evs evs' : List Event) :
    acceptedBytes (evs ++ evs') = acceptedBytes evs ++ acceptedBytes evs' := List.flatMap_append

@[simp] theorem acceptedBytes_notify (event response : List Byte) (c : HttpClient) :
    acceptedBytes (c.notify event response) = [] := by
  rw [notify]
  split <;> rfl

/-! ## The request -/

/-- The request of a client. -/
def request (c : HttpClient) : List Byte := requestText c.path c.hostname

theorem length_requestText (path hostname : List Byte) :
    (requestText path hostname).length = path.length + hostname.length + 44 := by
  have h : (bytes "GET ").length + (bytes " HTTP/1.1\r\n").length + (bytes "Host: ").length +
    (bytes "\r\n").length + (bytes "Connection: close\r\n").length + (bytes "\r\n").length
      = 44 := by
    decide
  simp only [requestText, List.length_append]
  omega

/-- **The request of a URL that was accepted fits its block.** -/
theorem length_request_lt (hpath : c.path.length ≤ 511) (hhost : c.hostname.length ≤ 255) :
    c.request.length < 1024 := by
  rw [request, length_requestText]
  omega

/-- The client with its request in the block. -/
theorem format_eq (h : c.request.length < 1024) : c.format =
    { c with
      writeBuffer := some (c.request ++ [0])
      writeSize := c.request.length
      writeOffset := 0 } := by
  rw [format, ← request, snprintf_of_lt h]

/-! ## One tick -/

/-- **A client that was sending**: the request is in its block and of the size it has, the socket
has had the first `write_offset` bytes of it, and all of it when the client goes on to read. -/
structure Sent (request : List Byte) (c : HttpClient) (accepted : List Byte) : Prop where
  writeSize : c.writeSize = request.length
  le : c.writeOffset ≤ c.writeSize
  accepted_eq : accepted = request.take c.writeOffset
  buffer : c.state = .writing → c.writeBuffer = some (request ++ [0])
  whole : c.state = .reading → c.writeOffset = c.writeSize

/-- What is left of the request, without the terminator behind it. -/
theorem rest_of_request {request : List Byte} {k : ℕ} (hk : k ≤ request.length) :
    ((request ++ [0]).drop k).take (request.length - k) = request.drop k := by
  rw [List.drop_append_of_le_length hk, List.take_append_of_le_length (by simp),
    List.take_of_length_le (by simp)]

/-- **A client with the request in its block**, of which the socket has had the first `write_offset`
bytes. -/
structure Loaded (request : List Byte) (c : HttpClient) (accepted : List Byte) : Prop where
  writeSize : c.writeSize = request.length
  le : c.writeOffset ≤ c.writeSize
  buffer : c.writeBuffer = some (request ++ [0])
  accepted_eq : accepted = request.take c.writeOffset

/-- One call of `send`. -/
theorem Loaded.exists_sendRequest {request accepted : List Byte} (h : Loaded request c accepted)
    (s : Send) :
    ∃ o, c.sendRequest s (request ++ [0]) = .ok o ∧
      Sent request { o.client with state := o.next } (accepted ++ acceptedBytes o.events) := by
  obtain ⟨hsize, hle, hbuffer, haccepted⟩ := h
  have hroom : ¬ (request ++ [(0 : Byte)]).length < c.writeSize := by
    rw [List.length_append, hsize]
    omega
  rw [sendRequest.eq_def, if_neg hroom]
  rcases s with room | _ | _
  · -- the socket takes as much of the rest as it has room for
    dsimp only
    rw [hsize] at hle ⊢
    rw [rest_of_request hle]
    have hlen : ((request.drop c.writeOffset).take room).length
        = min room.val (request.length - c.writeOffset) := by
      rw [List.length_take, List.length_drop]
    have htake : accepted ++ (request.drop c.writeOffset).take room
        = request.take (c.writeOffset + ((request.drop c.writeOffset).take room).length) := by
      rw [haccepted, List.take_add, hlen, ← List.length_drop, ← List.take_eq_take_min]
    have hle' : c.writeOffset + ((request.drop c.writeOffset).take room).length
        ≤ request.length := by
      omega
    split
    · rename_i hdone
      refine ⟨_, rfl, rfl, hle', ?_, by simp, fun _ => le_antisymm hle' hdone⟩
      rw [acceptedBytes_accepted, htake]
    · refine ⟨_, rfl, rfl, hle', ?_, fun _ => hbuffer, by simp⟩
      rw [acceptedBytes_accepted, htake]
  · exact ⟨_, rfl, hsize, hle, by simp [haccepted], fun _ => hbuffer, by simp⟩
  · exact ⟨_, rfl, hsize, hle, by simp [haccepted], by simp, by simp⟩

theorem writeWork_of_ne_writing (hc : c.state ≠ .writing) (t : WriteTick) :
    c.writeWork t = .ok (c, []) := by
  rw [writeWork]
  split
  · exact absurd (by assumption) hc
  · rfl

/-- **A tick of a client that was sending.** -/
theorem Sent.exists_writeWork {request accepted : List Byte} (h : Sent request c accepted)
    (t : WriteTick) :
    ∃ d evs, c.writeWork t = .ok (d, evs) ∧ Sent request d (accepted ++ acceptedBytes evs) := by
  by_cases hc : c.state = .writing
  · have hloaded : Loaded request c accepted := ⟨h.writeSize, h.le, h.buffer hc, h.accepted_eq⟩
    obtain ⟨o, ho, hsent⟩ := hloaded.exists_sendRequest t.send
    refine ⟨_, _, ?_, hsent⟩
    rw [writeWork, hc]
    dsimp only
    rw [workWriting, h.buffer hc]
    dsimp only
    rw [ho]
    rfl
  · exact ⟨c, [], writeWork_of_ne_writing hc t, by rwa [acceptedBytes_nil, List.append_nil]⟩

/-- A client whose request had no memory. -/
structure Unsent (c : HttpClient) (accepted : List Byte) : Prop where
  state : c.state = .dispose
  accepted_eq : accepted = []

/-- **The first tick** formats the request, or there is no memory for it. -/
theorem exists_first (hc : c.state = .writing) (hnone : c.writeBuffer = none)
    (hlen : c.request.length < 1024) (t : WriteTick) :
    ∃ d evs, c.writeWork t = .ok (d, evs) ∧
      (Sent c.request d (acceptedBytes evs) ∨ t.alloc = false ∧ Unsent d (acceptedBytes evs)) := by
  rw [writeWork, hc]
  dsimp only
  rw [workWriting, hnone]
  dsimp only
  rcases halloc : t.alloc
  · exact ⟨_, _, rfl, Or.inr ⟨rfl, rfl, acceptedBytes_notify _ _ _⟩⟩
  · rw [if_pos rfl, format_eq hlen]
    dsimp only
    have hloaded : Loaded c.request
        { c with
          writeBuffer := some (c.request ++ [0])
          writeSize := c.request.length
          writeOffset := 0 } [] :=
      ⟨rfl, Nat.zero_le _, rfl, List.take_zero.symm⟩
    obtain ⟨o, ho, hsent⟩ := hloaded.exists_sendRequest t.send
    refine ⟨_, _, by rw [ho]; rfl, Or.inl hsent⟩

/-! ## Any number of ticks -/

/-- The tick formats a request into a block of its own. -/
def Formats (t : WriteTick) (c : HttpClient) : Prop :=
  c.state = .writing ∧ c.writeBuffer = none ∧ t.alloc = true

theorem Sent.not_formats {request accepted : List Byte} (h : Sent request c accepted)
    (t : WriteTick) : ¬ Formats t c := by
  rintro ⟨hc, hnone, -⟩
  cases (h.buffer hc).symm.trans hnone

/-- **A client that was sending goes on where it was**, and formats nothing again. -/
theorem Sent.exists_run {request accepted : List Byte} (h : Sent request c accepted)
    (ticks : List WriteTick) :
    ∃ d evs, Trace.run writeWork ticks c = .ok (d, evs) ∧
      Sent request d (accepted ++ acceptedBytes evs) ∧
      ¬ Trace.Visits writeWork Formats ticks c := by
  induction ticks generalizing c accepted with
  | nil => exact ⟨c, [], rfl, by rwa [acceptedBytes_nil, List.append_nil], not_false⟩
  | cons t ticks ih =>
    obtain ⟨c₁, evs₁, hstep, hsent⟩ := h.exists_writeWork t
    obtain ⟨d, evs₂, hrun, hsent', hno⟩ := ih hsent
    refine ⟨d, evs₁ ++ evs₂, by rw [Trace.run_cons_of_ok hstep, hrun]; rfl, ?_, ?_⟩
    · rwa [acceptedBytes_append, ← List.append_assoc]
    · rw [Trace.visits_cons_of_ok hstep, not_or]
      exact ⟨h.not_formats t, hno⟩

/-- A client without a request is to be disposed of, and stays so. -/
theorem Unsent.exists_run {accepted : List Byte} (h : Unsent c accepted) (ticks : List WriteTick) :
    Trace.run writeWork ticks c = .ok (c, []) ∧ ¬ Trace.Visits writeWork Formats ticks c := by
  have hc : c.state ≠ .writing := by
    rw [h.state]
    exact nofun
  induction ticks with
  | nil => exact ⟨rfl, not_false⟩
  | cons t ticks ih =>
    have hstep := writeWork_of_ne_writing hc t
    refine ⟨by rw [Trace.run_cons_of_ok hstep, ih.1]; rfl, ?_⟩
    rw [Trace.visits_cons_of_ok hstep, not_or]
    exact ⟨fun hf => hc hf.1, ih.2⟩

/-- **The writing state, from a client without a write buffer**: the first tick formats the request,
no other does, and the socket has the first `write_offset` bytes of it. -/
theorem run_sent (hc : c.state = .writing) (hnone : c.writeBuffer = none)
    (hlen : c.request.length < 1024) (t : WriteTick) (ticks : List WriteTick) :
    ∃ c₁ evs₁ d evs, c.writeWork t = .ok (c₁, evs₁) ∧
      ¬ Trace.Visits writeWork Formats ticks c₁ ∧
      Trace.run writeWork (t :: ticks) c = .ok (d, evs) ∧
      (Sent c.request d (acceptedBytes evs) ∨ t.alloc = false ∧ Unsent d (acceptedBytes evs)) := by
  obtain ⟨c₁, evs₁, hstep, hsent | ⟨halloc, hunsent⟩⟩ := exists_first hc hnone hlen t
  · obtain ⟨d, evs, hrun, hsent', hno⟩ := hsent.exists_run ticks
    refine ⟨c₁, evs₁, d, evs₁ ++ evs, hstep, hno, ?_, Or.inl ?_⟩
    · rw [Trace.run_cons_of_ok hstep, hrun]
      rfl
    · rwa [acceptedBytes_append]
  · obtain ⟨hrun, hno⟩ := hunsent.exists_run ticks
    refine ⟨c₁, evs₁, c₁, evs₁ ++ [], hstep, hno, ?_, Or.inr ⟨halloc, ?_⟩⟩
    · rw [Trace.run_cons_of_ok hstep, hrun]
      rfl
    · rwa [List.append_nil]

/-- **The client sends its request whole.**  `parse_url` stays inside its arrays; what it accepts
makes a request that fits `write_buffer`; and over any ticks of the writing state the socket has had
the first `write_offset` bytes of that request, which is formatted once, and all of it when the
client goes on to read. -/
theorem sends_whole {url : List Byte} (hnul : (0 : Byte) ∉ url) (f : UrlBlocks) :
    ∃ code f', parseUrlInto url f = .ok (code, f') ∧
      (code = 0 → ∀ c : HttpClient, c.hostname = f'.url.hostname → c.path = f'.url.path →
        c.format.writeSize = c.request.length ∧ c.request.length < 1024 ∧
        (c.state = .writing → c.writeBuffer = none → ∀ t ticks, ∃ c₁ evs₁ d evs,
          c.writeWork t = .ok (c₁, evs₁) ∧ ¬ Trace.Visits writeWork Formats ticks c₁ ∧
          Trace.run writeWork (t :: ticks) c = .ok (d, evs) ∧
          (Sent c.request d (acceptedBytes evs) ∨
            t.alloc = false ∧ Unsent d (acceptedBytes evs)))) := by
  rcases h : parseUrl url with _ | u
  · obtain ⟨f', hrun⟩ := exists_of_parseUrl_none h f
    exact ⟨-1, f', hrun, by simp⟩
  · obtain ⟨f', hrun, hu⟩ := exists_of_parseUrl hnul h f
    have hparsed := parsedUrl_of_parseUrl hnul h
    refine ⟨0, f', hrun, fun _ c hhost hpath => ?_⟩
    rw [hu] at hhost hpath
    have hlen : c.request.length < 1024 :=
      length_request_lt (hpath ▸ hparsed.path_le) (hhost ▸ hparsed.hostname_le)
    exact ⟨by rw [format_eq hlen], hlen, fun hc hnone => run_sent hc hnone hlen⟩

/-- The request of the echo endpoint, over a socket that takes ten bytes and then the rest. -/
theorem sends_whole_echo : ∃ f' d evs,
    parseUrlInto (bytes "http://localhost:10680/echo") ⟨.zero 256, .zero 16, .zero 512⟩
      = .ok (0, f') ∧
    Trace.run writeWork [⟨true, .accepts 10⟩, ⟨true, .wouldBlock⟩, ⟨true, .accepts 1000⟩]
      { idle with state := .writing, hostname := f'.url.hostname, path := f'.url.path }
        = .ok (d, evs) ∧
    d.state = .reading ∧ acceptedBytes evs = requestText f'.url.path f'.url.hostname := by
  have hnul : (0 : Byte) ∉ bytes "http://localhost:10680/echo" := by decide
  obtain ⟨code, f', hrun, hsends⟩ := sends_whole hnul ⟨.zero 256, .zero 16, .zero 512⟩
  obtain ⟨f'', hrun', hurl⟩ := exists_of_parseUrl hnul rfl ⟨.zero 256, .zero 16, .zero 512⟩
  cases hrun.symm.trans hrun'
  obtain ⟨-, -, hwrite⟩ := hsends rfl
    { idle with state := .writing, hostname := f'.url.hostname, path := f'.url.path } rfl rfl
  obtain ⟨-, -, d, evs, -, -, hd, hsent | ⟨halloc, -⟩⟩ := hwrite rfl rfl ⟨true, .accepts 10⟩
    [⟨true, .wouldBlock⟩, ⟨true, .accepts 1000⟩]
  · have hreads : (Trace.run writeWork
        [⟨true, .accepts 10⟩, ⟨true, .wouldBlock⟩, ⟨true, .accepts 1000⟩]
        { idle with state := .writing, hostname := bytes "localhost", path := bytes "/echo" }
        ).toOption.map (fun r => r.1.state) = some .reading := by decide +kernel
    have hstate : d.state = .reading := by
      rw [hurl] at hd
      exact Option.some.inj ((congrArg (fun r => r.toOption.map fun r => r.1.state) hd).symm.trans
        hreads)
    refine ⟨f', d, evs, hrun, hd, hstate, ?_⟩
    rw [hsent.accepted_eq, hsent.whole hstate, hsent.writeSize, List.take_length]
    rfl
  · cases halloc

end HttpClient
