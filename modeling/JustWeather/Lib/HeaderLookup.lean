import JustWeather.Lib.HeaderFields
import JustWeather.Lib.HttpClient.Reading
import JustWeather.Lib.HttpServerConnection.Bounds

/-!
# Lib/HeaderLookup — the fields the server and the client take out of a head

With the read that completes a head, `http_server_connection_receive` and `http_client_work_reading`
take `Content-Length` out of it, the server `Host` as well (`receive_completes`,
`workReading_completes`).  They take the fields that are there where these are in their place
(`header_fields_of_placed`); a field that is taken whichever of two values it has is in its place
(`placed_of_two_lengths`, `placed_of_two_hosts`).
-/

open CLib MessageHead HeaderField

/-- **The read that completes a head**: nothing was taken out of one before, and the buffer begins
with the head once the chunk is stored. -/
structure Completes (text buffer chunk : List Byte) (bodyStart : ℕ) : Prop where
  notYet : bodyStart = 0
  stored : chunk ≠ []
  holds : ∃ m, buffer ++ chunk = text ++ m

variable {start : List Byte} {fields : List HeaderField}

theorem headText_eq_concat (start : List Byte) (fields : List HeaderField) :
    headText start fields = (crlfLines (lines start fields) ++ [13]) ++ [10] := by
  simp [headText]

theorem four_le_length_headText (start : List Byte) (fields : List HeaderField) :
    4 ≤ (headText start fields).length := by
  simp only [headText, lines, crlfLines_cons, List.length_append, List.length_cons]
  omega

theorem length_headText_lt (hmax : (headText start fields).length < intMax) :
    (headText start fields).length < sizeMod := by
  have hint : intMax = 2 ^ 31 - 1 := rfl
  have hsize : sizeMod = 2 ^ 64 := rfl
  omega

/-- All but the last byte of a head, and the last one. -/
theorem completes_last (start : List Byte) (fields : List HeaderField) :
    Completes (headText start fields) (crlfLines (lines start fields) ++ [13]) [10] 0 :=
  ⟨rfl, by simp, [], by rw [headText_eq_concat, List.append_nil]⟩

/-- What is read behind the name, in the lines of the head. -/
theorem scanContentLength_headText (start : List Byte) (fields : List HeaderField) :
    scanContentLength (headText start fields) = (scanSize
      ((behind (bytes "Content-Length" ++ [58]) (lines start fields)).getD [])).getD 0 := by
  rw [scanContentLength_eq, headText]
  exact valueAt_lines conversion_scanSize (by decide) (by decide) (by decide)
    fun l hl => not_blank_of_mem_lines hl

theorem scanContentLength_of_placed (h : Placed (bytes "Content-Length") start fields) :
    scanContentLength (headText start fields) = announcedLength fields := by
  rw [scanContentLength_headText, announcedLength_eq]
  exact h.read_behind conversion_scanSize

/-! ## The server -/

namespace HTTPServerConnection

variable {onRequest : OnRequest} {t : Tick} {a : ReceiveAlloc} {c : HTTPServerConnection}
  {o : Outcome}

theorem scanHost_eq (text : List Byte) :
    scanHost text = valueAt (fun s => (scanToken 255 s).1) (bytes "Host:") text := by
  rw [scanHost, valueAt]
  cases strstr text (bytes "Host:") <;> rfl

theorem scanHost_headText (start : List Byte) (fields : List HeaderField) :
    scanHost (headText start fields)
      = (scanToken 255 ((behind (bytes "Host" ++ [58]) (lines start fields)).getD [])).1 := by
  rw [scanHost_eq, headText]
  exact valueAt_lines (conversion_scanToken 255) (by decide) (by decide) (by decide)
    fun l hl => not_blank_of_mem_lines hl

theorem scanHost_of_placed (h : Placed (bytes "Host") start fields)
    (hword : OneWord 255 (valueOf (bytes "Host") fields)) :
    scanHost (headText start fields) = hostValue fields := by
  rw [scanHost_headText, hostValue_eq, ← scanToken_of_oneWord hword]
  exact h.read_behind (conversion_scanToken 255)

/-- What follows the head does not change what was taken out of it. -/
theorem finish_fields (h : c.finish onRequest a = .ok o) :
    o.connection.contentLen = c.contentLen ∧ o.connection.host = c.host := by
  rcases finish_cases onRequest a c with ⟨hf, -⟩ | ⟨hf, -⟩ | ⟨hf, -⟩ | ⟨hf, -⟩
  · cases hf.symm.trans h
    exact ⟨rfl, rfl⟩
  · rw [hf, request_dispatched] at h
    rcases hr : onRequest c.dispatched with f | r
    · rw [hr] at h
      cases h
    · rw [hr] at h
      cases h
      have hd : c.dispatched.contentLen = c.contentLen ∧ c.dispatched.host = c.host := by
        rw [dispatched]
        split <;> exact ⟨rfl, rfl⟩
      cases r <;> exact hd
  · cases hf.symm.trans h
  · cases hf.symm.trans h
    exact ⟨rfl, rfl⟩

/-- The search for the head, in a connection that holds one. -/
theorem latch_head {m : List Byte} (hs : OneLine start)
    (hmax : (headText start fields).length < intMax) (hstart : c.bodyStart = 0)
    (hbuf : c.readBuffer = headText start fields ++ m) (hlt : c.readBuffer.length < sizeMod)
    (hheaders : a.headers = true) :
    c.latch a = .ok (some (c.setHead a (parseHead readRequest (headText start fields)))) := by
  have hhead := headOf_headText readRequest hs hmax m
  have h4 : 4 ≤ c.readBuffer.length := by
    have := four_le_length_headText start fields
    rw [hbuf, List.length_append]
    omega
  rw [← hbuf] at hhead
  rcases latch_cases a hstart h4 hlt with ⟨-, hno⟩ | ⟨b, hlatch, hb, -⟩ | ⟨-, hno⟩ | ⟨-, -, hno⟩
  · cases hno.symm.trans hhead
  · obtain rfl := Option.some.inj (hb.symm.trans hhead)
    exact hlatch
  · cases hno.symm.trans hheaders
  · have := hno []
    rw [List.append_nil, hhead] at this
    cases this

/-- **What the server takes out of a head.** -/
theorem receive_completes (hs : OneLine start)
    (hmax : (headText start fields).length < intMax)
    (hcomp : Completes (headText start fields) c.readBuffer (stored t) c.bodyStart)
    (hheaders : t.alloc.headers = true) (hhost : t.alloc.host = true)
    (h : c.receive onRequest t.alloc t.recv = .ok o) :
    o.connection.contentLen = scanContentLength (headText start fields) ∧
      o.connection.host = some (scanHost (headText start fields)) := by
  obtain ⟨hstart, hne, m, hm⟩ := hcomp
  rw [receive_of_stored hne] at h
  obtain ⟨d, hgrow, h⟩ := Fallible.exists_of_bind_pure h
  obtain ⟨rfl, hlt⟩ := of_grow hgrow
  rw [hm] at hlt
  have hlatch := latch_head (c := { c with readBuffer := headText start fields ++ m }) hs hmax
    hstart rfl hlt hheaders
  rw [hm, process, hlatch] at h
  obtain ⟨hlen, hhost'⟩ := finish_fields h
  rw [hlen, hhost']
  simp only [setHead, parseHead, readRequest, strdup, hhost, if_true,
    cstr_of_notMem (zero_notMem_headText hs), and_self]

/-- Without memory for a body, and with a callback that answers nothing, a head is all there is. -/
theorem exists_finish (ha : a.body = false) (c : HTTPServerConnection) :
    ∃ o, c.finish silent a = .ok o := by
  rw [finish]
  split
  · split
    · exact ⟨_, rfl⟩
    · rw [if_neg (by simp [ha])]
      exact ⟨_, rfl⟩
  · exact ⟨_, rfl⟩

/-- The last byte of a head, with memory for all but a body. -/
def lastTick : Tick := ⟨.data ⟨[10], by decide, by decide⟩, { ReceiveAlloc.all with body := false },
  .wouldBlock⟩

/-- A head can be completed. -/
theorem exists_receive_completes (hs : OneLine start)
    (hmax : (headText start fields).length < intMax) :
    ∃ (c : HTTPServerConnection) (o : Outcome),
      Completes (headText start fields) c.readBuffer (stored lastTick) c.bodyStart ∧
      c.receive silent lastTick.alloc lastTick.recv = .ok o := by
  have hlt := length_headText_lt hmax
  have hgrow : (filled 0 none (crlfLines (lines start fields) ++ [13])).grow [10]
      = .ok (filled 0 none (headText start fields)) := by
    rw [headText_eq_concat, List.length_append] at hlt
    rw [headText_eq_concat]
    exact if_pos hlt
  have hlatch : (filled 0 none (headText start fields)).latch lastTick.alloc = .ok (some _) :=
    latch_head hs hmax rfl (List.append_nil _).symm hlt rfl
  obtain ⟨o, ho⟩ := exists_finish (a := lastTick.alloc) rfl
    ((filled 0 none (headText start fields)).setHead lastTick.alloc
      (parseHead readRequest (headText start fields)))
  refine ⟨filled 0 none (crlfLines (lines start fields) ++ [13]), o,
    completes_last start fields, ?_⟩
  rw [receive_of_stored (t := lastTick) (by decide)]
  change ((filled 0 none (crlfLines (lines start fields) ++ [13])).grow [10]).bind _ = _
  rw [hgrow]
  simp only [Except.bind, process, hlatch]
  exact ho

/-- **The server takes the fields that are there**, whichever read completes the head. -/
def TakesFields (start : List Byte) (fields : List HeaderField) : Prop :=
  ∀ (onRequest : OnRequest) (t : Tick) (c : HTTPServerConnection) (o : Outcome),
    Completes (headText start fields) c.readBuffer (stored t) c.bodyStart →
    t.alloc.headers = true → t.alloc.host = true → c.receive onRequest t.alloc t.recv = .ok o →
    o.connection.contentLen = announcedLength fields ∧ o.connection.host = some (hostValue fields)

theorem takesFields_iff (hs : OneLine start) (hmax : (headText start fields).length < intMax) :
    TakesFields start fields ↔ scanContentLength (headText start fields) = announcedLength fields ∧
      scanHost (headText start fields) = hostValue fields := by
  constructor
  · intro h
    obtain ⟨c, o, hcomp, hrun⟩ := exists_receive_completes hs hmax
    obtain ⟨hlen, hname⟩ := receive_completes hs hmax hcomp rfl rfl hrun
    obtain ⟨hlen', hname'⟩ := h silent lastTick c o hcomp rfl rfl hrun
    exact ⟨hlen.symm.trans hlen', Option.some.inj (hname.symm.trans hname')⟩
  · rintro ⟨hlen, hname⟩ onRequest t c o hcomp hheaders hhost hrun
    rw [← hlen, ← hname]
    exact receive_completes hs hmax hcomp hheaders hhost hrun

end HTTPServerConnection

/-! ## The client -/

namespace HttpClient

variable {t : ReadTick} {a : ReadAlloc} {c : HttpClient} {o : Outcome}

/-- The search for the head, in a client that holds one. -/
theorem latch_head {m : List Byte} (hs : OneLine start)
    (hmax : (headText start fields).length < intMax) (hstart : c.bodyStart = 0)
    (hbuf : c.readBuffer = headText start fields ++ m) (hlt : c.readBuffer.length < sizeMod)
    (hheaders : a.headers = true) :
    c.latch a = .ok (some (c.setHead (parseHead scanStatus (headText start fields)))) := by
  have hhead := headOf_headText scanStatus hs hmax m
  have h4 : 4 ≤ c.readBuffer.length := by
    have := four_le_length_headText start fields
    rw [hbuf, List.length_append]
    omega
  have hend := headEnd_eq_bodyStart hhead
  rw [← hbuf] at hend
  rw [latch, if_pos hstart]
  have htake : (headText start fields ++ m).take (headText start fields).length
      = headText start fields := List.take_left
  rcases endOfHeaders_cases h4 hlt with he | ⟨-, -, hnone⟩
  · rw [he, hend]
    dsimp only [parseHead]
    rw [if_pos hheaders, hbuf, htake]
  · have := hnone []
    rw [List.append_nil, hend] at this
    cases this

theorem finish_contentLen (h : c.finish a = .ok o) : o.client.contentLen = c.contentLen := by
  rw [finish] at h
  split at h
  · split at h
    · cases h
    · rename_i d hbody
      obtain rfl := Except.ok.inj h
      rcases takeBody_cases a c with ⟨htake, -⟩ | ⟨htake, -⟩
      · obtain rfl := Except.ok.inj (htake.symm.trans hbody)
        dsimp only
        rw [taken]
        split <;> rfl
      · cases htake.symm.trans hbody
  · obtain rfl := Except.ok.inj h
    rfl

/-- **What the client takes out of a head.** -/
theorem workReading_completes (hs : OneLine start)
    (hmax : (headText start fields).length < intMax)
    (hcomp : Completes (headText start fields) c.readBuffer t.recv.bytes c.bodyStart)
    (hgo : goesOn t = true) (hheaders : t.alloc.headers = true)
    (h : c.workReading t.alloc t.recv = .ok o) :
    o.client.contentLen = scanContentLength (headText start fields) := by
  obtain ⟨hstart, hne, m, hm⟩ := hcomp
  rw [workReading_of_bytes hgo hne] at h
  obtain ⟨d, hgrow, h⟩ := Fallible.exists_of_bind_pure h
  obtain ⟨rfl, hlt⟩ := of_grow hgrow
  rw [hm] at hlt
  have hlatch := latch_head (c := { c with readBuffer := headText start fields ++ m }) hs hmax
    hstart rfl hlt hheaders
  rw [hm, process, hlatch] at h
  rw [finish_contentLen h]
  simp only [setHead, parseHead, cstr_of_notMem (zero_notMem_headText hs)]

theorem exists_finish (ha : a.body = false) (c : HttpClient) : ∃ o, c.finish a = .ok o := by
  rw [finish, takeBody, if_neg (by simp [ha] : ¬ a.body = true)]
  split
  · split
    · rename_i h
      split at h <;> cases h
    · exact ⟨_, rfl⟩
  · exact ⟨_, rfl⟩

/-- The last byte of a head, with memory for all but a body. -/
def lastTick : ReadTick :=
  ⟨.data ⟨[10], by decide, by decide⟩, { ReadAlloc.all with body := false }⟩

/-- A head can be completed. -/
theorem exists_workReading_completes (hs : OneLine start)
    (hmax : (headText start fields).length < intMax) :
    ∃ (c : HttpClient) (o : Outcome),
      Completes (headText start fields) c.readBuffer lastTick.recv.bytes c.bodyStart ∧
      c.workReading lastTick.alloc lastTick.recv = .ok o := by
  have hlt := length_headText_lt hmax
  have hgrow : (filled idle (crlfLines (lines start fields) ++ [13])).grow [10]
      = .ok (filled idle (headText start fields)) := by
    rw [headText_eq_concat, List.length_append] at hlt
    rw [headText_eq_concat]
    exact if_pos hlt
  have hlatch : (filled idle (headText start fields)).latch lastTick.alloc = .ok (some _) :=
    latch_head hs hmax rfl (List.append_nil _).symm hlt rfl
  obtain ⟨o, ho⟩ := exists_finish (a := lastTick.alloc) rfl
    ((filled idle (headText start fields)).setHead
      (parseHead scanStatus (headText start fields)))
  refine ⟨filled idle (crlfLines (lines start fields) ++ [13]), o, completes_last start fields, ?_⟩
  rw [workReading_of_bytes (t := lastTick) rfl (by decide)]
  change ((filled idle (crlfLines (lines start fields) ++ [13])).grow [10]).bind _ = _
  rw [hgrow]
  simp only [Except.bind, process, hlatch]
  exact ho

/-- **The client takes the length that is there**, whichever read completes the head. -/
def TakesLength (start : List Byte) (fields : List HeaderField) : Prop :=
  ∀ (t : ReadTick) (c : HttpClient) (o : Outcome),
    Completes (headText start fields) c.readBuffer t.recv.bytes c.bodyStart →
    goesOn t = true → t.alloc.headers = true → c.workReading t.alloc t.recv = .ok o →
    o.client.contentLen = announcedLength fields

theorem takesLength_iff (hs : OneLine start) (hmax : (headText start fields).length < intMax) :
    TakesLength start fields ↔
      scanContentLength (headText start fields) = announcedLength fields := by
  constructor
  · intro h
    obtain ⟨c, o, hcomp, hrun⟩ := exists_workReading_completes hs hmax
    have hlen := workReading_completes hs hmax hcomp rfl rfl hrun
    exact hlen.symm.trans (h lastTick c o hcomp rfl rfl hrun)
  · intro hlen t c o hcomp hgo hheaders hrun
    rw [← hlen]
    exact workReading_completes hs hmax hcomp hgo hheaders hrun

end HttpClient

/-! ## The fields that are taken

A field may be taken and not be in its place, when something else in the head says the same.  It
says so of one value only: a field that is taken whichever of two values it has is in its place. -/

variable {before after : List HeaderField} {f g : HeaderField}

theorem valueOf_append_cons {name : List Byte}
    (hbefore : ∀ k ∈ before, k.name.map toLower ≠ name.map toLower)
    (hname : f.name.map toLower = name.map toLower) :
    valueOf name (before ++ f :: after) = f.value := by
  rw [valueOf, named_append_cons hbefore hname]
  rfl

/-- There is no number in a line that begins with a letter. -/
theorem scanSize_line (hname : f.name.map toLower = (bytes "Content-Length").map toLower) :
    scanSize f.line = none := by
  have hletter : ∀ c : Byte, toLower c = 99 →
      isSpace c = false ∧ isDigit c = false ∧ c ≠ 45 ∧ c ≠ 43 :=
    forall_byte (by decide +kernel)
  obtain ⟨c, name, hcons⟩ := List.exists_cons_of_ne_nil f.name_ne
  have hc : toLower c = 99 := by
    rw [hcons] at hname
    exact (List.cons.inj hname).1
  rw [line, hcons, List.cons_append, ← scanSize_cons (c := 32) (by decide)]
  exact scanSize_append_space (s := []) (by simp) (hletter c hc) _

/-- The word at the start of a line is the name and the colon. -/
theorem scanToken_line (hname : f.name.map toLower = (bytes "Host").map toLower) :
    (scanToken 255 f.line).1 = f.name ++ [58] := by
  have hlen : f.name.length = 4 := by
    rw [← List.length_map, hname]
    rfl
  have hword : ∀ b ∈ f.name ++ [58], isSpace b = false := by
    intro b hb
    rcases List.mem_append.mp hb with hb | hb
    · exact (f.isName b hb).1
    · obtain rfl := List.mem_singleton.mp hb
      decide
  have hline : f.line = (f.name ++ [58]) ++ 32 :: f.value := by simp [line]
  rw [hline, scanToken_append (by simp) hword (by simp [hlen]) (by decide)]

/-- **A length that is taken, whichever of two it is, is in its place.** -/
theorem placed_of_two_lengths (hs : OneLine start)
    (hmaxf : (headText start (before ++ f :: after)).length < intMax)
    (hmaxg : (headText start (before ++ g :: after)).length < intMax)
    (hbefore : ∀ k ∈ before, k.name.map toLower ≠ (bytes "Content-Length").map toLower)
    (hname : f.name.map toLower = (bytes "Content-Length").map toLower) (hfg : g.name = f.name)
    (hf : (58 : Byte) ∉ f.value) (hg : (58 : Byte) ∉ g.value) (hvalue : ¬ Blank f.value)
    (hne : (scanSize f.value).getD 0 ≠ (scanSize g.value).getD 0)
    (htakef : HttpClient.TakesLength start (before ++ f :: after))
    (htakeg : HttpClient.TakesLength start (before ++ g :: after)) :
    Placed (bytes "Content-Length") start (before ++ f :: after) := by
  have hnameg : g.name.map toLower = (bytes "Content-Length").map toLower := hfg ▸ hname
  have hreadf := (HttpClient.takesLength_iff hs hmaxf).mp htakef
  have hreadg := (HttpClient.takesLength_iff hs hmaxg).mp htakeg
  rw [scanContentLength_headText, announcedLength_eq, valueOf_append_cons hbefore hname] at hreadf
  rw [scanContentLength_headText, announcedLength_eq, valueOf_append_cons hbefore hnameg] at hreadg
  refine .of_two (fun s => (scanSize s).getD 0) hbefore hname hfg hf hg hvalue ?_ hne hreadf hreadg
  simp only [scanSize_line hname, scanSize_line hnameg]

/-- **A host that is taken, whichever of two it is, is in its place** and has one word to say. -/
theorem placed_of_two_hosts (hs : OneLine start)
    (hmaxf : (headText start (before ++ f :: after)).length < intMax)
    (hmaxg : (headText start (before ++ g :: after)).length < intMax)
    (hbefore : ∀ k ∈ before, k.name.map toLower ≠ (bytes "Host").map toLower)
    (hname : f.name.map toLower = (bytes "Host").map toLower) (hfg : g.name = f.name)
    (hf : (58 : Byte) ∉ f.value) (hg : (58 : Byte) ∉ g.value) (hvalue : ¬ Blank f.value)
    (hne : trim f.value ≠ trim g.value)
    (htakef : HTTPServerConnection.TakesFields start (before ++ f :: after))
    (htakeg : HTTPServerConnection.TakesFields start (before ++ g :: after)) :
    Placed (bytes "Host") start (before ++ f :: after) ∧ OneWord 255 f.value := by
  have hnameg : g.name.map toLower = (bytes "Host").map toLower := hfg ▸ hname
  have hreadf := ((HTTPServerConnection.takesFields_iff hs hmaxf).mp htakef).2
  have hreadg := ((HTTPServerConnection.takesFields_iff hs hmaxg).mp htakeg).2
  rw [HTTPServerConnection.scanHost_headText, hostValue_eq, valueOf_append_cons hbefore hname]
    at hreadf
  rw [HTTPServerConnection.scanHost_headText, hostValue_eq, valueOf_append_cons hbefore hnameg]
    at hreadg
  -- what `%255s` reads is a word
  have hword : ∀ {s value}, (scanToken 255 s).1 = trim value → OneWord 255 value :=
    fun h => ⟨fun b hb => (mem_scanToken (h ▸ hb)).2, h ▸ length_scanToken_le 255 _⟩
  rw [← scanToken_of_oneWord (hword hreadf), ← scanToken_of_oneWord (hword hreadg)] at hne
  refine ⟨.of_two (fun s => (scanToken 255 s).1) hbefore hname hfg hf hg hvalue ?_ hne
    (hreadf.trans (scanToken_of_oneWord (hword hreadf)).symm)
    (hreadg.trans (scanToken_of_oneWord (hword hreadg)).symm), hword hreadf⟩
  simp only [scanToken_line hname, scanToken_line hnameg, hfg]

/-! ## The fields that are there -/

/-- **The fields that are in their place are taken**: for every head, the client takes its length
where the `Content-Length` field is in its place, and the server its length and its host where the
`Host` field is too and has one word to say. -/
theorem header_fields_of_placed (hs : OneLine start)
    (hmax : (headText start fields).length < intMax)
    (hplaced : Placed (bytes "Content-Length") start fields) :
    HttpClient.TakesLength start fields ∧
      (Placed (bytes "Host") start fields → OneWord 255 (valueOf (bytes "Host") fields) →
        HTTPServerConnection.TakesFields start fields) := by
  have hlength := scanContentLength_of_placed hplaced
  refine ⟨(HttpClient.takesLength_iff hs hmax).mpr hlength, fun hhost hword => ?_⟩
  exact (HTTPServerConnection.takesFields_iff hs hmax).mpr
    ⟨hlength, HTTPServerConnection.scanHost_of_placed hhost hword⟩

/-- `Host: localhost`. -/
def localhost : HeaderField :=
  ⟨bytes "Host", bytes "localhost", by decide, by decide, by decide⟩

/-- `Content-Length: 2`. -/
def twoBytes : HeaderField :=
  ⟨bytes "Content-Length", bytes "2", by decide, by decide, by decide⟩

/-- A request with both fields. -/
theorem header_fields_of_both :
    HTTPServerConnection.TakesFields (bytes "POST /echo HTTP/1.1") [localhost, twoBytes] ∧
      HttpClient.TakesLength (bytes "POST /echo HTTP/1.1") [localhost, twoBytes] := by
  have hs : OneLine (bytes "POST /echo HTTP/1.1") := by decide
  have hmax : (headText (bytes "POST /echo HTTP/1.1") [localhost, twoBytes]).length < intMax := by
    decide
  have hlength : Placed (bytes "Content-Length") (bytes "POST /echo HTTP/1.1")
      [localhost, twoBytes] :=
    .inPlace (show _ = [localhost] ++ twoBytes :: [] from rfl)
      (show named _ ([localhost] ++ twoBytes :: []) = _ from named_append_cons (by decide) rfl)
      rfl (by decide) (.inr rfl)
  have hhost : Placed (bytes "Host") (bytes "POST /echo HTTP/1.1") [localhost, twoBytes] :=
    .inPlace (show _ = [] ++ localhost :: [twoBytes] from rfl)
      (show named _ ([] ++ localhost :: [twoBytes]) = _ from named_append_cons (by simp) rfl)
      rfl (by decide) (.inl (by decide))
  have hvalue : valueOf (bytes "Host") ([] ++ localhost :: [twoBytes]) = localhost.value :=
    valueOf_append_cons (by simp) rfl
  have hword : OneWord 255 localhost.value := by decide +kernel
  obtain ⟨hclient, hserver⟩ := header_fields_of_placed hs hmax hlength
  exact ⟨hserver hhost (hvalue ▸ hword), hclient⟩

/-- `X-Forwarded-Host: evil`. -/
def forwarded : HeaderField :=
  ⟨bytes "X-Forwarded-Host", bytes "evil", by decide, by decide, by decide⟩

/-- `content-length: 5`. -/
def fiveBytes : HeaderField :=
  ⟨bytes "content-length", bytes "5", by decide, by decide, by decide⟩

/-- A length in the path of a request, a host in the name of another field, and a length in small
letters. -/
theorem not_header_fields_of_others :
    ¬ HTTPServerConnection.TakesFields (bytes "GET /?Content-Length:5 HTTP/1.1") [localhost] ∧
      ¬ HTTPServerConnection.TakesFields (bytes "GET / HTTP/1.1") [forwarded, localhost] ∧
      ¬ HttpClient.TakesLength (bytes "HTTP/1.1 200 OK") [fiveBytes] := by
  refine ⟨fun h => ?_, fun h => ?_, fun h => ?_⟩
  · have hlen := ((HTTPServerConnection.takesFields_iff (by decide) (by decide)).mp h).1
    revert hlen
    decide
  · have hhost := ((HTTPServerConnection.takesFields_iff (by decide) (by decide)).mp h).2
    revert hhost
    decide
  · have hlen := (HttpClient.takesLength_iff (by decide) (by decide)).mp h
    revert hlen
    decide
