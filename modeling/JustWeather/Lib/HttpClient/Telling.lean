import JustWeather.Lib.HttpClient.Completion
import JustWeather.Lib.HttpClient.Decoding
import JustWeather.Lib.HttpClient.Prepared
import JustWeather.Lib.HttpClient.Sending
import JustWeather.Machinery.Component

/-!
# Lib/HttpClient/Telling — what a client tells its caller

From the URL to the last event: a client takes its URL apart, connects, sends its request, reads,
and tells.  Which of these it is at is its stage (`HttpClientRun.Stage`), with what it has sent,
read and told so far, and every tick keeps it (`Stage.work`).  So whatever the other side does, a
client has sent the start of its own request, and what it tells of a response is what the bytes it
has read say (`tells`).
-/

open CLib MessageHead

namespace HttpClient

variable {c c₀ d : HttpClient} {o : Outcome} {a : ReadAlloc} {t : ReadTick} {s read : List Byte}
  {evs evs' : List Event}

/-! ## What is told -/

/-- The calls of the callback. -/
def calls (evs : List Event) : List Event :=
  evs.filter fun
    | .called _ _ => true
    | .accepted _ => false

@[simp] theorem calls_nil : calls [] = [] := rfl

@[simp] theorem calls_append (evs evs' : List Event) :
    calls (evs ++ evs') = calls evs ++ calls evs' := List.filter_append ..

@[simp] theorem calls_accepted (bs : List Byte) : calls [.accepted bs] = [] := rfl

@[simp] theorem calls_notify (event response : List Byte) (c : HttpClient) :
    calls (c.notify event response) = c.notify event response := by
  rw [notify]
  split <;> rfl

/-- The texts of the errors that are not a response. -/
def failures : List (List Byte) :=
  ["Invalid URL", "No hostname in URL", "Memory allocation failed",
    "Failed to initiate connection", "Connection failed", "Send failed", "Read failed"].map bytes

/-- The events tell of a failure, and nothing else. -/
def TellsFailure (c : HttpClient) (evs : List Event) : Prop :=
  ∃ text ∈ failures, evs = c.notify (bytes "ERROR") text

/-- **The client has decoded the message that `read` begins with.** -/
def Decodes (read : List Byte) (d : HttpClient) : Prop :=
  ∃ h, (framing scanStatus).message read = some h ∧ d.statusCode = h.fields ∧
    d.body = if h.contentLen = 0 then none else some ((read.drop h.bodyStart).take h.contentLen)

/-- The client reports the response it has decoded: first its status and the start of its body. -/
def info (d : HttpClient) : List Event := d.notify (bytes "RESPONSE") d.responseInfo

/-- **What a client can have told** when `read` was read, up to a timeout: nothing, a failure, or
the response it decoded, by the one report or by both. -/
inductive Told (callback : Bool) (read : List Byte) : List Event → Prop
  | nothing : Told callback read []
  | failure (c : HttpClient) (hc : c.callback = callback) {evs : List Event}
      (h : TellsFailure c evs) : Told callback read evs
  | decoded (d : HttpClient) (hd : d.callback = callback) (h : Decodes read d) :
      Told callback read (info d)
  | reported (d : HttpClient) (hd : d.callback = callback) (h : Decodes read d) :
      Told callback read (info d ++ HttpClientRun.report d)

/-! ## The handlers -/

theorem tellsFailure_notify {text : List Byte} (h : text ∈ failures) (c : HttpClient) :
    TellsFailure c (c.notify (bytes "ERROR") text) := ⟨text, h, rfl⟩

theorem TellsFailure.congr (h : TellsFailure c evs) (hcb : d.callback = c.callback) :
    TellsFailure d evs := by
  obtain ⟨text, htext, rfl⟩ := h
  exact ⟨text, htext, by rw [notify, notify, hcb]⟩

theorem acceptedBytes_of_tellsFailure (h : TellsFailure c evs) : acceptedBytes evs = [] := by
  obtain ⟨text, -, rfl⟩ := h
  exact acceptedBytes_notify ..

theorem calls_of_tellsFailure (h : TellsFailure c evs) : calls evs = evs := by
  obtain ⟨text, -, rfl⟩ := h
  exact calls_notify ..

/-- **What `http_client_work_init` does.** -/
theorem workInit_cases (c : HttpClient) :
    (c.workInit.next = .dispose ∧ TellsFailure c c.workInit.events ∧
      c.workInit.client.callback = c.callback) ∨
    ∃ u, parseUrl c.url = some u ∧ c.workInit = ⟨.connect,
      { c with hostname := u.hostname, port := u.port, path := u.path }, []⟩ := by
  rw [workInit]
  rcases hu : parseUrl c.url with _ | u
  · exact Or.inl ⟨rfl, tellsFailure_notify (by simp [failures]) c, rfl⟩
  · dsimp only
    split
    · exact Or.inl ⟨rfl, ⟨_, by simp [failures], rfl⟩, rfl⟩
    · exact Or.inr ⟨u, rfl, rfl⟩

/-- **What one call of `send` does.** -/
theorem sendRequest_cases {buffer : List Byte} {s : Send} (ho : c.sendRequest s buffer = .ok o) :
    (o.next = .dispose ∧ o.client = c ∧ TellsFailure c o.events) ∨
    (calls o.events = [] ∧
      ∃ k, (o.next = .writing ∧ o.client = { c with writeOffset := k }) ∨
        (o.next = .reading ∧ o.client = { c with writeOffset := k, writeBuffer := none })) := by
  rw [sendRequest.eq_def] at ho
  split at ho
  · cases ho
  · split at ho
    · obtain rfl := Except.ok.inj ho
      exact Or.inr ⟨rfl, c.writeOffset, Or.inl ⟨rfl, rfl⟩⟩
    · obtain rfl := Except.ok.inj ho
      exact Or.inl ⟨rfl, rfl, tellsFailure_notify (by simp [failures]) c⟩
    · dsimp only at ho
      split at ho
      · obtain rfl := Except.ok.inj ho
        exact Or.inr ⟨rfl, _, Or.inr ⟨rfl, rfl⟩⟩
      · obtain rfl := Except.ok.inj ho
        exact Or.inr ⟨rfl, _, Or.inl ⟨rfl, rfl⟩⟩

/-- A buffer of fewer than four bytes is searched past its end. -/
theorem readWork_of_short (hf : Fresh c₀) (ht : goesOn t = true) (hne : t.recv.bytes ≠ [])
    (hshort : (s ++ t.recv.bytes).length < 4) :
    (waiting c₀ s).readWork t = .error .readPastEnd := by
  have hnone : headOf scanStatus s = none := by
    rcases hs : headOf scanStatus s with _ | h
    · rfl
    · have := bodyStart_bounds hs
      rw [List.length_append] at hshort
      omega
  have hwait : waiting c₀ s = filled c₀ s := waiting_of_none hnone
  have hsize : sizeMod = 2 ^ 64 := rfl
  have hgrow : (filled c₀ s).grow t.recv.bytes = .ok (filled c₀ (s ++ t.recv.bytes)) :=
    grow_of_lt (by change (s ++ t.recv.bytes).length < sizeMod; omega)
  have hlatch : (filled c₀ (s ++ t.recv.bytes)).latch t.alloc = .error .readPastEnd := by
    have hstart : (filled c₀ (s ++ t.recv.bytes)).bodyStart = 0 := hf.bodyStart
    have he : endOfHeaders (filled c₀ (s ++ t.recv.bytes)).readBuffer = .error .readPastEnd :=
      endOfHeaders_short hshort
    rw [latch, if_pos hstart, he]
  rw [hwait, readWork_of_reading (show (filled c₀ s).state = .reading from hf.state),
    workReading_of_bytes ht hne, hgrow]
  simp only [Except.bind, process, hlatch]
  rfl

/-- A client that leaves the reading state for the end says why. -/
theorem tellsFailure_of_workReading {r : Recv chunkSize} (h : c.workReading a r = .ok o)
    (hnext : o.next = .dispose) : TellsFailure c o.events ∧ o.client.callback = c.callback := by
  rw [workReading] at h
  dsimp only at h
  split at h
  · obtain rfl := Except.ok.inj h
    exact ⟨tellsFailure_notify (by simp [failures]) c, rfl⟩
  · split at h
    · obtain rfl := Except.ok.inj h
      cases hnext
    · split at h
      · split at h
        · cases h
        · rename_i d hgrow
          obtain ⟨rfl, -⟩ := of_grow hgrow
          rw [process] at h
          split at h
          · cases h
          · obtain rfl := Except.ok.inj h
            exact ⟨⟨_, by simp [failures], rfl⟩, rfl⟩
          · rw [finish] at h
            split at h
            · split at h
              · cases h
              · obtain rfl := Except.ok.inj h
                cases hnext
            · obtain rfl := Except.ok.inj h
              cases hnext
      · obtain rfl := Except.ok.inj h
        exact ⟨tellsFailure_notify (by simp [failures]) c, rfl⟩

/-- A client that is done, with memory for the body, has decoded what it holds. -/
theorem decodes_taken (hf : Fresh c₀) (hbody : c₀.body = none) (ha : a.body = true)
    (hcomp : (waiting c₀ s).complete = true)
    (hfit : 0 < (waiting c₀ s).contentLen → a.body = true → (waiting c₀ s).BodyFits) :
    Decodes s ((waiting c₀ s).taken a) := by
  obtain ⟨h, hs, hwait, hle⟩ := exists_of_complete hf hcomp
  have hstart := bodyStart_bounds hs
  rw [hwait] at hfit ⊢
  refine ⟨h, message_framing_iff.mpr ⟨hs, ?_⟩, taken_statusCode a _, ?_⟩
  · rcases Nat.eq_zero_or_pos h.contentLen with hzero | hpos
    · rw [hzero]
      exact hstart.2.2
    · exact (hfit hpos ha).2
  · rw [taken, ha]
    change (if 0 < h.contentLen then _ else _ : HttpClient).body = _
    by_cases hzero : h.contentLen = 0
    · rw [if_neg (by omega), if_pos hzero]
      exact hbody
    · rw [if_pos (Nat.pos_of_ne_zero hzero), if_neg hzero]
      rfl

/-- **What a tick does to a client that waits**: it waits on, it is done and has decoded what it
holds, or it gives up and says so. -/
theorem waiting_cases (hf : Fresh c₀) (hbody : c₀.body = none) (ha : t.alloc.body = true)
    (hlt : s.length < sizeMod) (h : (waiting c₀ s).readWork t = .ok (d, evs)) :
    (d = waiting c₀ (s ++ t.recv.bytes) ∧ evs = [] ∧ (s ++ t.recv.bytes).length < sizeMod ∧
      ((waiting c₀ s).complete = false → (waiting c₀ (s ++ t.recv.bytes)).complete = false)) ∨
    (d.state = .done ∧ Decodes (s ++ t.recv.bytes) d ∧ d.callback = c₀.callback ∧ evs = info d) ∨
    (d.state = .dispose ∧ TellsFailure c₀ evs ∧ d.callback = c₀.callback) := by
  have hstate : (waiting c₀ s).state = .reading := by rw [waiting_state, hf.state]
  by_cases hgives : d.state = .dispose
  · rw [readWork_of_reading hstate] at h
    obtain ⟨o, ho, hd⟩ := Fallible.exists_of_map h
    obtain ⟨rfl, rfl⟩ := Prod.ext_iff.mp hd
    obtain ⟨htells, hcb⟩ := tellsFailure_of_workReading ho hgives
    exact Or.inr (Or.inr ⟨hgives, htells.congr (waiting_callback c₀ s).symm,
      hcb.trans (waiting_callback c₀ s)⟩)
  · by_cases ht : goesOn t = true
    · by_cases hnil : t.recv.bytes = []
      · cases (readWork_of_bytes_nil hf ht hnil).symm.trans h
        rw [hnil, List.append_nil]
        exact Or.inl ⟨rfl, rfl, hlt, id⟩
      · rcases Nat.lt_or_ge (s ++ t.recv.bytes).length sizeMod with hlt' | hge
        · by_cases h4 : 4 ≤ (s ++ t.recv.bytes).length
          · rcases readWork_waiting hf ht hnil h4 hlt' with
              ⟨hd, hmore⟩ | ⟨hd, hcomp, hfit⟩ | ⟨d', evs', hd, hdisp, -⟩ | ⟨hd, -⟩ | ⟨hd, -⟩
            · cases hd.symm.trans h
              exact Or.inl ⟨rfl, rfl, hlt', fun _ => hmore⟩
            · obtain ⟨rfl, rfl⟩ := Prod.ext_iff.mp (Except.ok.inj (hd.symm.trans h))
              have hdec := decodes_taken hf hbody ha hcomp hfit
              refine Or.inr (Or.inl ⟨rfl, hdec, ?_, rfl⟩)
              change ((waiting c₀ (s ++ t.recv.bytes)).taken t.alloc).callback = _
              rw [taken, ← waiting_callback c₀ (s ++ t.recv.bytes)]
              split <;> rfl
            · cases hd.symm.trans h
              exact absurd hdisp hgives
            · cases hd.symm.trans h
            · cases hd.symm.trans h
          · cases (readWork_of_short hf ht hnil (Nat.not_le.mp h4)).symm.trans h
        · cases (readWork_of_full hf ht hnil hge).symm.trans h
    · obtain ⟨text, hwork⟩ := workReading_of_not_goesOn (by simpa using ht) (waiting c₀ s)
      rw [readWork_of_reading hstate, hwork] at h
      cases h
      exact absurd rfl hgives

end HttpClient

namespace HttpClientRun

open HttpClient

variable {κ : Type} {r r' : HttpClientRun κ} {t : HttpClientTick} {ticks : List HttpClientTick}
  {evs told : List Event} {url sent read : List Byte} {callback : Bool}

/-! ## One tick -/

/-- The bytes the state of a client reads in a tick. -/
def delivered (t : HttpClientTick) (c : HttpClient) : List Byte :=
  if c.state = .reading then t.recv.bytes else []

/-- The bytes a tick reads. -/
def takes (t : HttpClientTick) (r : HttpClientRun κ) : List Byte :=
  if TimedOut t r then [] else delivered t r.client

theorem takes_of_timedOut (h : TimedOut t r) : takes t r = [] := if_pos h

theorem takes_of_not_timedOut (h : ¬ TimedOut t r) : takes t r = delivered t r.client := if_neg h

theorem delivered_of_state {c : HttpClient} (h : c.state ≠ .reading) : delivered t c = [] :=
  if_neg h

/-- What a client whose time is up tells last. -/
def timeoutCall (callback : Bool) : List Event :=
  if callback then [.called (bytes "TIMEOUT") none] else []

@[simp] theorem calls_timeoutCall (callback : Bool) :
    calls (timeoutCall callback) = timeoutCall callback := by
  cases callback <;> rfl

@[simp] theorem acceptedBytes_timeoutCall (callback : Bool) :
    acceptedBytes (timeoutCall callback) = [] := by
  cases callback <;> rfl

@[simp] theorem setTimer_freed (t : HttpClientTick) (r : HttpClientRun κ) :
    (r.setTimer t).freed = r.freed := by
  rw [setTimer]
  split <;> rfl

theorem conn_of_connected (h : Connected r) : ∃ fd, r.conn = .ok ⟨some fd⟩ := by
  obtain ⟨b, fd, hb, hcell, -⟩ := h
  exact ⟨fd, conn_eq hb hcell⟩

/-- A connected client sends on its socket. -/
theorem workWriting_of_connected (h : Connected r) (t : HttpClientTick) :
    r.workWriting t = (r.client.workWriting t.writeAlloc t.send).map r.enter := by
  obtain ⟨fd, hconn⟩ := conn_of_connected h
  rw [workWriting, hconn]
  split <;> rfl

/-- A connected client reads from its socket. -/
theorem workReading_of_connected (h : Connected r) (t : HttpClientTick) :
    r.workReading t = (r.client.workReading t.alloc t.recv).map r.enter := by
  obtain ⟨fd, hconn⟩ := conn_of_connected h
  rw [workReading, hconn]
  rfl

/-- The client moves on, or gives up and says why. -/
def MovesOn (r r' : HttpClientRun κ) (evs : List Event) : Prop :=
  ∃ next, r'.client = { r.client with state := next } ∧
    (evs = [] ∨ next = .dispose ∧ TellsFailure r.client evs)

theorem workConnect_movesOn (h : r.workConnect t = .ok (r', evs)) : MovesOn r r' evs := by
  rw [workConnect] at h
  dsimp only at h
  split at h
  · split at h
    · obtain ⟨m, -, hr⟩ := Fallible.exists_of_map h
      obtain ⟨rfl, rfl⟩ := Prod.ext_iff.mp hr
      exact ⟨.dispose, rfl, Or.inr ⟨rfl, tellsFailure_notify (by simp [failures]) _⟩⟩
    · obtain ⟨m, -, hr⟩ := Fallible.exists_of_map h
      obtain ⟨rfl, rfl⟩ := Prod.ext_iff.mp hr
      exact ⟨.connecting, rfl, Or.inl rfl⟩
  · obtain ⟨rfl, rfl⟩ := Prod.ext_iff.mp (Except.ok.inj h)
    exact ⟨.dispose, rfl, Or.inr ⟨rfl, tellsFailure_notify (by simp [failures]) _⟩⟩

theorem workConnecting_movesOn (h : r.workConnecting t = .ok (r', evs)) : MovesOn r r' evs := by
  rw [workConnecting] at h
  split at h
  · obtain ⟨rfl, rfl⟩ := Prod.ext_iff.mp (Except.ok.inj h)
    exact ⟨.dispose, rfl, Or.inl rfl⟩
  · obtain ⟨tcpClient, -, hr⟩ := Fallible.exists_of_map h
    obtain ⟨rfl, rfl⟩ := Prod.ext_iff.mp hr
    rw [connectingOn.eq_def]
    split
    · exact ⟨.dispose, rfl, Or.inl rfl⟩
    · exact ⟨.dispose, rfl, Or.inl rfl⟩
    · split
      · exact ⟨.writing, rfl, Or.inl rfl⟩
      · split
        · exact ⟨.connecting, rfl, Or.inl rfl⟩
        · exact ⟨.dispose, rfl, Or.inr ⟨rfl, tellsFailure_notify (by simp [failures]) _⟩⟩

/-! ## Stages -/

/-- The request of a URL, once it is taken apart. -/
def requestOf (url : List Byte) : List Byte :=
  match parseUrl url with
  | none => []
  | some u => requestText u.path u.hostname

/-- The request is to be formatted, or in its block with some of it sent. -/
def IsWriting (request : List Byte) (c : HttpClient) (sent : List Byte) : Prop :=
  c.writeBuffer = none ∧ c.request = request ∧ sent = [] ∨ Loaded request c sent

/-- **What a client is at**, with the bytes it has sent and read and what it has told: it sets out,
it writes, it reads, it is done, or it ends. -/
inductive Stage (callback : Bool) (url sent read : List Byte) (told : List Event)
    (r : HttpClientRun κ) : Prop
  | setsOut (hstate : r.client.state ∈ [.init, .connect, .connecting])
      (hurl : r.client.state = .init → r.client.url = url)
      (hrequest : r.client.state ≠ .init → r.client.request = requestOf url)
      (hbuffer : r.client.writeBuffer = none) (hin : r.client.inbound = ([], none, 0, 0))
      (hsent : sent = []) (hread : read = []) (htold : told = [])
  | writes (hstate : r.client.state = .writing) (hwriting : IsWriting (requestOf url) r.client sent)
      (hin : r.client.inbound = ([], none, 0, 0)) (hread : read = []) (htold : told = [])
  | reads (c₀ : HttpClient) (hf : Fresh c₀) (hbody : c₀.body = none)
      (hclient : r.client = waiting c₀ read) (hlt : read.length < sizeMod)
      (hmore : (waiting c₀ read).complete = false) (hsent : sent = requestOf url)
      (htold : told = [])
  | done (hstate : r.client.state = .done) (hdecodes : Decodes read r.client)
      (hsent : sent = requestOf url) (htold : told = info r.client)
  | ends (hsent : sent <+: requestOf url) (hwhole : read = [] ∨ sent = requestOf url)
      (evs last : List Event) (hevs : Told callback read evs) (htold : told = evs ++ last)
      (hend : last = [] ∧ r.client.state = .dispose ∨
        r.freed = true ∧ (last = [] ∨ last = timeoutCall callback))

/-- **The client so far**: what it holds, and what it is at. -/
structure Lives (callback : Bool) (url sent read : List Byte) (told : List Event)
    (r : HttpClientRun κ) : Prop where
  phase : r.freed = false → Phase r
  hcallback : r.client.callback = callback
  stage : Stage callback url sent read told r

theorem IsWriting.sent_prefix {request : List Byte} {c : HttpClient}
    (h : IsWriting request c sent) : sent <+: request := by
  rcases h with ⟨-, -, rfl⟩ | h
  · exact List.nil_prefix
  · rw [h.accepted_eq]
    exact List.take_prefix _ _

/-- What a client has sent and told, at any stage. -/
theorem Lives.exists_told (h : Lives callback url sent read told r) :
    sent <+: requestOf url ∧ (read = [] ∨ sent = requestOf url) ∧
      ∃ evs last, Told callback read evs ∧ told = evs ++ last ∧
        (last = [] ∨ r.freed = true ∧ last = timeoutCall callback) := by
  rcases h.stage with ⟨-, -, -, -, -, rfl, rfl, rfl⟩ | ⟨-, hwriting, -, rfl, rfl⟩ |
    ⟨c₀, -, -, -, -, -, rfl, rfl⟩ | ⟨-, hdecodes, rfl, rfl⟩ |
    ⟨hsent, hwhole, evs, last, hevs, rfl, hend⟩
  · exact ⟨List.nil_prefix, Or.inl rfl, [], [], .nothing, rfl, Or.inl rfl⟩
  · exact ⟨hwriting.sent_prefix, Or.inl rfl, [], [], .nothing, rfl, Or.inl rfl⟩
  · exact ⟨List.prefix_rfl, Or.inr rfl, [], [], .nothing, rfl, Or.inl rfl⟩
  · exact ⟨List.prefix_rfl, Or.inr rfl, _, [], .decoded _ h.hcallback hdecodes,
      (List.append_nil _).symm, Or.inl rfl⟩
  · refine ⟨hsent, hwhole, evs, last, hevs, rfl, ?_⟩
    rcases hend with ⟨rfl, -⟩ | ⟨hfreed, rfl | rfl⟩
    · exact Or.inl rfl
    · exact Or.inl rfl
    · exact Or.inr ⟨hfreed, rfl⟩

/-- A client that is there has not told that its time is up. -/
theorem Lives.told_of_live (h : Lives callback url sent read told r) (hlive : r.freed = false) :
    Told callback read told := by
  obtain ⟨-, -, evs, last, hevs, rfl, rfl | ⟨hfreed, -⟩⟩ := h.exists_told
  · rwa [List.append_nil]
  · cases hlive.symm.trans hfreed

theorem length_requestOf_lt (hnul : (0 : Byte) ∉ url) : (requestOf url).length < 1024 := by
  rw [requestOf]
  rcases hu : parseUrl url with _ | u
  · exact Nat.zero_lt_succ _
  · have hparsed := parsedUrl_of_parseUrl hnul hu
    dsimp only
    rw [length_requestText]
    have := hparsed.path_le
    have := hparsed.hostname_le
    omega

/-- A client that gives up ends, with why. -/
theorem stage_of_failure (hsent : sent <+: requestOf url)
    (hwhole : read = [] ∨ sent = requestOf url)
    {c : HttpClient} (hcb : c.callback = callback) (hevs : TellsFailure c evs)
    (hstate : r'.client.state = .dispose) :
    Stage callback url (sent ++ acceptedBytes evs) read ([] ++ calls evs) r' := by
  rw [acceptedBytes_of_tellsFailure hevs, calls_of_tellsFailure hevs, List.append_nil]
  exact .ends hsent hwhole evs [] (.failure c hcb hevs) (by simp) (Or.inl ⟨rfl, hstate⟩)

/-- A client that sets out, after a tick that moves it on. -/
theorem stage_of_movesOn (hm : MovesOn r r' evs) (hcb : r.client.callback = callback)
    (hnext : r'.client.state ∈ [.connecting, .writing, .dispose])
    (hrequest : r.client.request = requestOf url) (hbuffer : r.client.writeBuffer = none)
    (hin : r.client.inbound = ([], none, 0, 0)) :
    Stage callback url ([] ++ acceptedBytes evs) [] ([] ++ calls evs) r' := by
  obtain ⟨next, hclient, rfl | ⟨rfl, htells⟩⟩ := hm
  · rw [hclient] at hnext
    change next ∈ _ at hnext
    simp only [List.mem_cons, List.not_mem_nil, or_false] at hnext
    rcases hnext with rfl | rfl | rfl
    · exact .setsOut (by simp [hclient]) (by simp [hclient])
        (fun _ => by rw [hclient]; exact hrequest)
        (by rw [hclient]; exact hbuffer) (by rw [hclient]; exact hin) rfl rfl rfl
    · exact .writes (by rw [hclient]) (by rw [hclient]; exact Or.inl ⟨hbuffer, hrequest, rfl⟩)
        (by rw [hclient]; exact hin) rfl rfl
    · exact .ends List.nil_prefix (Or.inl rfl) [] [] .nothing rfl (Or.inl ⟨rfl, by rw [hclient]⟩)
  · exact stage_of_failure List.nil_prefix (Or.inl rfl) hcb htells (by rw [hclient])

theorem stage_of_init (hurl : r.client.url = url)
    (hcb : r.client.callback = callback) (hbuffer : r.client.writeBuffer = none)
    (hin : r.client.inbound = ([], none, 0, 0)) :
    Stage callback url ([] ++ acceptedBytes r.client.workInit.events) []
      ([] ++ calls r.client.workInit.events) (r.enter r.client.workInit).1 := by
  rcases workInit_cases r.client with ⟨hnext, htells, -⟩ | ⟨u, hu, hwork⟩
  · exact stage_of_failure List.nil_prefix (Or.inl rfl) hcb htells hnext
  · rw [hwork]
    refine .setsOut (by simp [enter]) (by simp [enter]) (fun _ => ?_) hbuffer hin rfl rfl rfl
    rw [requestOf, ← hurl, hu]
    rfl

/-- A client that writes, after a call of `send`. -/
theorem stage_of_sendRequest {c : HttpClient} {s : Send} {o : Outcome}
    (hcb : c.callback = callback) (hloaded : Loaded (requestOf url) c sent)
    (hin : c.inbound = ([], none, 0, 0))
    (ho : c.sendRequest s (requestOf url ++ [0]) = .ok o) :
    Stage callback url (sent ++ acceptedBytes o.events) [] ([] ++ calls o.events)
      (r.enter o).1 := by
  obtain ⟨o', ho', hsent⟩ := hloaded.exists_sendRequest s
  obtain rfl := Except.ok.inj (ho'.symm.trans ho)
  have hle := hsent.le
  rw [hsent.writeSize] at hle
  rcases sendRequest_cases ho with ⟨hnext, hclient, htells⟩ |
    ⟨hcalls, k, ⟨hnext, hclient⟩ | ⟨hnext, hclient⟩⟩
  · exact stage_of_failure (IsWriting.sent_prefix (Or.inr hloaded)) (Or.inl rfl) hcb htells hnext
  · rw [hcalls]
    refine .writes hnext (Or.inr ⟨hsent.writeSize, hsent.le, hsent.buffer hnext,
      hsent.accepted_eq⟩) ?_
      rfl rfl
    change o'.client.inbound = _
    rw [hclient]
    exact hin
  · rw [hcalls]
    obtain ⟨hread, hbody, hstart, -⟩ : c.readBuffer = [] ∧ c.body = none ∧ c.bodyStart = 0 ∧
        c.contentLen = 0 := by
      simpa [inbound] using hin
    have hclient' : (r.enter o').1.client
        = { c with state := .reading, writeOffset := k, writeBuffer := none } := by
      rw [enter, hclient, hnext]
    have hf : Fresh (r.enter o').1.client := by
      rw [hclient']
      exact ⟨rfl, hread, hstart⟩
    refine .reads (r.enter o').1.client hf (by rw [hclient']; exact hbody) (waiting_nil hf).symm
      (by decide) ?_ ?_ rfl
    · rw [waiting_nil hf, complete, hf.bodyStart]
      rfl
    rw [hsent.accepted_eq, hsent.whole hnext, hsent.writeSize, List.take_length]

theorem stage_of_workWriting {o : Outcome} {s : Send} {alloc : Bool} (hnul : (0 : Byte) ∉ url)
    (hcb : r.client.callback = callback) (hwriting : IsWriting (requestOf url) r.client sent)
    (hin : r.client.inbound = ([], none, 0, 0)) (ho : r.client.workWriting alloc s = .ok o) :
    Stage callback url (sent ++ acceptedBytes o.events) [] ([] ++ calls o.events)
      (r.enter o).1 := by
  rcases hwriting with ⟨hnone, hrequest, rfl⟩ | hloaded
  · rw [HttpClient.workWriting, hnone] at ho
    dsimp only at ho
    rcases alloc
    · obtain rfl := Except.ok.inj ho
      exact stage_of_failure List.nil_prefix (Or.inl rfl) hcb
        (tellsFailure_notify (by simp [failures]) _) rfl
    · rw [if_pos rfl, format_eq (hrequest ▸ length_requestOf_lt hnul), hrequest] at ho
      dsimp only at ho
      refine stage_of_sendRequest ?_ ?_ ?_ ho
      · exact hcb
      · exact ⟨rfl, Nat.zero_le _, rfl, List.take_zero.symm⟩
      · exact hin
  · rw [HttpClient.workWriting, hloaded.buffer] at ho
    exact stage_of_sendRequest hcb hloaded hin ho

/-- A client that reads, after a tick. -/
theorem stage_of_workReading {c₀ : HttpClient} {o : Outcome} (ha : t.alloc.body = true)
    (hf : Fresh c₀) (hbody : c₀.body = none) (hclient : r.client = waiting c₀ read)
    (hcb : r.client.callback = callback) (hlt : read.length < sizeMod)
    (hmore : (waiting c₀ read).complete = false)
    (ho : r.client.workReading t.alloc t.recv = .ok o) :
    Stage callback url (requestOf url ++ acceptedBytes o.events) (read ++ t.recv.bytes)
      ([] ++ calls o.events) (r.enter o).1 := by
  have hstate : r.client.state = .reading := by rw [hclient, waiting_state, hf.state]
  have hcb₀ : c₀.callback = callback := by rw [← hcb, hclient, waiting_callback]
  have hread : (waiting c₀ read).readWork ⟨t.recv, t.alloc⟩
      = .ok ((r.enter o).1.client, o.events) := by
    rw [← hclient, readWork_of_reading hstate]
    dsimp only
    rw [ho]
    rfl
  rcases waiting_cases hf hbody ha hlt hread with
    ⟨hd, hevs, hlt', hmore'⟩ | ⟨hd, hdec, -, hevs⟩ | ⟨hd, htells, -⟩
  · rw [hevs]
    exact .reads c₀ hf hbody hd hlt' (hmore' hmore) (List.append_nil _) rfl
  · rw [hevs, info, calls_notify, acceptedBytes_notify]
    exact .done hd hdec (List.append_nil _) rfl
  · exact stage_of_failure List.prefix_rfl (Or.inr rfl) hcb₀ htells hd

theorem workDone_client (h : r.workDone = .ok (r', evs)) :
    r'.client.state = .dispose ∧ evs = report r.client := by
  rw [workDone] at h
  dsimp only at h
  split at h
  · obtain ⟨rfl, rfl⟩ := Prod.ext_iff.mp (Except.ok.inj h)
    exact ⟨rfl, rfl⟩
  · obtain ⟨_, -, h⟩ := Fallible.exists_of_bind_pure h
    obtain ⟨_, -, h⟩ := Fallible.exists_of_bind_pure h
    obtain ⟨rfl, rfl⟩ := Prod.ext_iff.mp (Except.ok.inj h)
    exact ⟨rfl, rfl⟩

@[simp] theorem calls_report (c : HttpClient) : calls (report c) = report c := by
  rw [report]
  split <;> exact calls_notify ..

@[simp] theorem acceptedBytes_report (c : HttpClient) : acceptedBytes (report c) = [] := by
  rw [report]
  split <;> exact acceptedBytes_notify ..

/-- **A tick that is not the last keeps the stage.** -/
theorem Stage.dispatch (h : Stage callback url sent read told r) (hnul : (0 : Byte) ∉ url)
    (ha : t.alloc.body = true) (hphase : Phase r) (hcb : r.client.callback = callback)
    (hlive : r.freed = false) {n : ℕ} (hmoves : Moves t r.client.state r'.client.state n)
    (hw : r.dispatch t = .ok (r', evs)) :
    Stage callback url (sent ++ acceptedBytes evs) (read ++ delivered t r.client)
      (told ++ calls evs) r' := by
  rw [HttpClientRun.dispatch] at hw
  rw [Phase] at hphase
  rcases h with ⟨hstate, hurl, hrequest, hbuffer, hin, rfl, rfl, rfl⟩ |
    ⟨hstate, hwriting, hin, rfl, rfl⟩ | ⟨c₀, hf, hbody, hclient, hlt, hmore, rfl, rfl⟩ |
    ⟨hstate, hdecodes, rfl, rfl⟩ | ⟨-, -, -, last, -, -, ⟨-, hstate⟩ | ⟨hfreed, -⟩⟩
  · simp only [List.mem_cons, List.not_mem_nil, or_false] at hstate
    rw [delivered_of_state (by rcases hstate with h | h | h <;> rw [h] <;> simp), List.append_nil]
    rcases hstate with hstate | hstate | hstate <;> rw [hstate] at hw hmoves
    · obtain ⟨rfl, rfl⟩ := Prod.ext_iff.mp (Except.ok.inj hw)
      exact stage_of_init (hurl hstate) hcb hbuffer hin
    · refine stage_of_movesOn (workConnect_movesOn hw) hcb ?_ (hrequest (by simp [hstate]))
        hbuffer hin
      generalize r'.client.state = next at hmoves
      cases hmoves <;> simp
    · refine stage_of_movesOn (workConnecting_movesOn hw) hcb ?_ (hrequest (by simp [hstate]))
        hbuffer
        hin
      generalize r'.client.state = next at hmoves
      cases hmoves <;> simp
  · rw [delivered_of_state (by simp [hstate]), List.append_nil]
    rw [hstate] at hw hphase
    rw [workWriting_of_connected hphase] at hw
    obtain ⟨o, ho, hr⟩ := Fallible.exists_of_map hw
    obtain ⟨rfl, rfl⟩ := Prod.ext_iff.mp hr
    exact stage_of_workWriting hnul hcb hwriting hin ho
  · have hstate : r.client.state = .reading := by rw [hclient, waiting_state, hf.state]
    rw [hstate] at hw hphase
    rw [workReading_of_connected hphase] at hw
    obtain ⟨o, ho, hr⟩ := Fallible.exists_of_map hw
    obtain ⟨rfl, rfl⟩ := Prod.ext_iff.mp hr
    rw [delivered, if_pos hstate]
    exact stage_of_workReading ha hf hbody hclient hcb hlt hmore ho
  · rw [delivered_of_state (by simp [hstate]), List.append_nil]
    rw [hstate] at hw
    obtain ⟨hstate', rfl⟩ := workDone_client hw
    rw [calls_report, acceptedBytes_report, List.append_nil]
    exact .ends List.prefix_rfl (Or.inr rfl) _ [] (.reported r.client hcb hdecodes) (by simp)
      (Or.inl ⟨rfl, hstate'⟩)
  · rw [hstate] at hmoves
    cases hmoves
  · cases hlive.symm.trans hfreed

/-! ## Any tick -/

/-- A client that is freed is over. -/
theorem Lives.freed {last : List Event} (h : Lives callback url sent read told r)
    (hlive : r.freed = false) (htakes : takes t r = []) (hcb : r'.client.callback = callback)
    (hfreed : r'.freed = true) (hlast : last = [] ∨ last = timeoutCall callback) :
    Lives callback url (sent ++ acceptedBytes last) (read ++ takes t r)
      (told ++ calls last) r' := by
  obtain ⟨hsent, hwhole, -⟩ := h.exists_told
  have hbytes : acceptedBytes last = [] := by
    rcases hlast with rfl | rfl
    · rfl
    · exact acceptedBytes_timeoutCall callback
  have hcalls : calls last = last := by
    rcases hlast with rfl | rfl
    · rfl
    · exact calls_timeoutCall callback
  rw [hbytes, hcalls, htakes, List.append_nil, List.append_nil]
  exact ⟨fun hno => (Bool.eq_false_iff.mp hno hfreed).elim, hcb,
    .ends hsent hwhole told last (h.told_of_live hlive) rfl (Or.inr ⟨hfreed, hlast⟩)⟩

/-- The timer has no part in the stage. -/
theorem Stage.setTimer (h : Stage callback url sent read told r) (t : HttpClientTick) :
    Stage callback url sent read told (r.setTimer t) := by
  rw [HttpClientRun.setTimer]
  split
  · rcases h with ⟨hstate, hurl, hrequest, hbuffer, hin, hsent, hread, htold⟩ |
      ⟨hstate, hwriting, hin, hread, htold⟩ | ⟨c₀, hf, hbody, hclient, hlt, hmore, hsent, htold⟩ |
      ⟨hstate, hdecodes, hsent, htold⟩ | ⟨hsent, hwhole, evs, last, hevs, htold, hend⟩
    · exact .setsOut hstate hurl hrequest hbuffer hin hsent hread htold
    · exact .writes hstate hwriting hin hread htold
    · exact .reads c₀ hf hbody hclient hlt hmore hsent htold
    · exact .done hstate hdecodes hsent htold
    · exact .ends hsent hwhole evs last hevs htold hend
  · exact h

/-- **A tick of `http_client_work` keeps the story.** -/
theorem Lives.work (h : Lives callback url sent read told r) (hnul : (0 : Byte) ∉ url)
    (ha : t.alloc.body = true) (hw : r.work t = .ok (r', evs)) :
    Lives callback url (sent ++ acceptedBytes evs) (read ++ takes t r) (told ++ calls evs) r' := by
  have hlive : r.freed = false := by
    rw [HttpClientRun.work] at hw
    split at hw
    · cases hw
    · simp_all
  obtain ⟨-, ⟨hlate, rfl, rfl⟩ | ⟨hlate, hstate, rfl, rfl⟩ | ⟨hlate, hs⟩⟩ :=
    work_cases (h.phase hlive) hw
  · refine h.freed hlive (takes_of_timedOut hlate) h.hcallback rfl (Or.inr ?_)
    rw [notifyTimeout, h.hcallback, timeoutCall]
  · have htakes : takes t r = [] := by
      rw [takes_of_not_timedOut hlate, delivered_of_state (by simp [hstate])]
    refine h.freed hlive htakes ?_ rfl (Or.inl rfl)
    change (r.setTimer t).client.callback = callback
    rw [setTimer_client, h.hcallback]
  · have hw' : (r.setTimer t).dispatch t = .ok (r', evs) := by
      rw [HttpClientRun.work, if_neg (by simp [hlive]), if_neg hlate] at hw
      exact hw
    obtain ⟨n, hmoves, -⟩ := hs.moves
    have hstage := (h.stage.setTimer t).dispatch hnul ha ((h.phase hlive).setTimer t)
      (by rw [setTimer_client, h.hcallback]) (by rw [setTimer_freed, hlive])
      (by rwa [setTimer_client]) hw'
    rw [setTimer_client] at hstage
    rw [takes_of_not_timedOut hlate]
    exact ⟨fun _ => hs.phase, hs.callback.trans h.hcallback, hstage⟩

/-! ## A whole run -/

/-- The bytes the ticks of a run read. -/
def taken : List HttpClientTick → HttpClientRun κ → List Byte :=
  Trace.gather work takes

theorem lives_zeroed (url : List Byte) (callback : Bool) (timeout : UInt64) (task : TaskHandle)
    (smw : Smw κ) : Lives callback url [] [] [] (zeroed url callback timeout task smw) := by
  refine ⟨fun _ => ?_, rfl, .setsOut ?_ (fun _ => rfl) (fun h => absurd rfl h) rfl rfl rfl rfl rfl⟩
  · exact (initial_zeroed url callback timeout task smw).idle
  · exact List.mem_cons_self ..

/-- **The story of a client** up to any tick. -/
theorem lives_of_run {timeout : UInt64} {task : TaskHandle} {smw : Smw κ} (hnul : (0 : Byte) ∉ url)
    (ha : ∀ t ∈ ticks, t.alloc.body = true)
    (h : Trace.run work ticks (zeroed url callback timeout task smw) = .ok (r', evs)) :
    Lives callback url (acceptedBytes evs) (taken ticks (zeroed url callback timeout task smw))
      (calls evs) r' := by
  refine Trace.run_invariant_gather (P := fun read r evs =>
    Lives callback url (acceptedBytes evs) read (calls evs) r) ?_ ?_ h
  · exact lives_zeroed url callback timeout task smw
  · intro read r r' evs evs' t ht hlives hw
    rw [acceptedBytes_append, calls_append]
    exact hlives.work hnul (ha t ht) hw

/-- A client that is connected, sends, reads a response and ends. -/
def responseTicks : List HttpClientTick :=
  [.smooth 0, .smooth 0, .smooth 0, .smooth 0,
    { HttpClientTick.smooth 0 with
      recv := .data ⟨bytes "HTTP/1.1 204 No Content\r\n\r\n", by decide +kernel,
        by decide +kernel⟩ },
    .smooth 0, .smooth 0]

end HttpClientRun
