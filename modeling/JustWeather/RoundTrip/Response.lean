import JustWeather.Lib.HeadLines
import JustWeather.Lib.HttpClient.Decoding
import JustWeather.Lib.HttpServerConnection.Segmentation
import JustWeather.Server.WeatherServerInstance

/-!
# RoundTrip/Response — what the client makes of the server's response

Every endpoint writes the same kind of head (`headText`) and then its body, and the length in the
head is the length of the body.  So a response is one message and nothing more (`message_headText`),
and the client decodes it however it is cut (`response_round_trip`).
-/

open CLib MessageHead

namespace WeatherServerInstance

/-- `status_code` and the body of a response. -/
structure Answer where
  status : ℤ
  body : List Byte
  deriving DecidableEq, Repr

/-- **What the server answers**, endpoint by endpoint. -/
def answer (current : Current) (c : HTTPServerConnection) : Answer :=
  let method := c.method.getD []
  let (path, query) := splitPath (c.requestPath.getD [])
  if method = bytes "GET" ∧ path = bytes "/" then ⟨200, html⟩
  else if path = bytes "/echo" then ⟨200, c.readBuffer⟩
  else if method = bytes "GET" ∧ path = bytes "/v1/current" then
    match current query with
    | (none, _) => ⟨500, errorText⟩
    | (some json, statusCode) => ⟨statusCode.toInt, json⟩
  else ⟨404, (snprintf 512 (notFoundText method path)).1⟩

/-! ## The head -/

/-- A field of a head: no line end, no terminator, no colon, and short. -/
def Quiet (field : List Byte) : Prop :=
  (13 : Byte) ∉ field ∧ (0 : Byte) ∉ field ∧ (58 : Byte) ∉ field ∧ field.length ≤ 40

instance (field : List Byte) : Decidable (Quiet field) := inferInstanceAs (Decidable (_ ∧ _))

variable {z : ℤ} {n : ℕ} {reason contentType body : List Byte}

/-- The status line after the version. -/
def statusText (z : ℤ) (reason : List Byte) : List Byte := decimalInt z ++ 32 :: reason

/-- The lines of a head. -/
def headList (z : ℤ) (reason contentType : List Byte) (n : ℕ) : List (List Byte) :=
  [bytes "HTTP/1.1 " ++ statusText z reason, bytes "Content-Type: " ++ contentType,
    bytes "Access-Control-Allow-Origin: *", bytes "Content-Length: " ++ decimal n]

theorem headText_eq (z : ℤ) (reason contentType : List Byte) (n : ℕ) :
    headText (statusText z reason) contentType (decimal n)
      = crlfLines (headList z reason contentType n) ++ [13, 10] := by
  have hcrlf : bytes "\r\n" = [13, 10] := rfl
  have horigin : bytes "Access-Control-Allow-Origin: *\r\n"
      = bytes "Access-Control-Allow-Origin: *" ++ [13, 10] := rfl
  simp only [headText, headList, hcrlf, horigin, crlfLines_cons, crlfLines_nil, List.append_assoc,
    List.cons_append, List.nil_append]

theorem notMem_decimal {b : Byte} (hb : isDigit b = false) : b ∉ decimal n := fun h => by
  cases hb.symm.trans (isDigit_of_mem_decimal h)

theorem notMem_decimalInt {b : Byte} (hb : isDigit b = false) (hminus : b ≠ 45) :
    b ∉ decimalInt z := fun h => by
  rcases mem_decimalInt h with h | h
  · exact hminus h
  · cases hb.symm.trans h

theorem notMem_statusText {b : Byte} (hb : isDigit b = false) (hminus : b ≠ 45) (hspace : b ≠ 32)
    (hr : b ∉ reason) : b ∉ statusText z reason := by
  rw [statusText, List.mem_append, List.mem_cons]
  exact fun h => h.elim (notMem_decimalInt hb hminus) fun h => h.elim hspace hr

theorem isLine_headList (hr : Quiet reason) (ht : Quiet contentType) :
    ∀ l ∈ headList z reason contentType n, IsLine l := by
  intro l hl
  simp only [headList, List.mem_cons, List.not_mem_nil, or_false] at hl
  obtain rfl | rfl | rfl | rfl := hl
  · refine ⟨by simp [bytes], ?_⟩
    rw [List.mem_append]
    exact fun h => h.elim (by decide) (notMem_statusText (by decide) (by decide) (by decide) hr.1)
  · refine ⟨by simp [bytes], ?_⟩
    rw [List.mem_append]
    exact fun h => h.elim (by decide) ht.1
  · decide
  · refine ⟨by simp [bytes], ?_⟩
    rw [List.mem_append]
    exact fun h => h.elim (by decide) (notMem_decimal (by decide))

theorem zero_notMem_headText (hr : Quiet reason) (ht : Quiet contentType) :
    (0 : Byte) ∉ headText (statusText z reason) contentType (decimal n) := by
  have hstatus : (0 : Byte) ∉ statusText z reason :=
    notMem_statusText (by decide) (by decide) (by decide) hr.2.1
  have hlen : (0 : Byte) ∉ decimal n := notMem_decimal (by decide)
  simp only [headText, List.mem_append, not_or]
  refine ⟨⟨⟨⟨⟨⟨⟨⟨⟨⟨?_, hstatus⟩, ?_⟩, ?_⟩, ht.2.1⟩, ?_⟩, ?_⟩, ?_⟩, hlen⟩, ?_⟩, ?_⟩ <;> decide

/-- A head fits the 256 bytes it is formatted into. -/
theorem length_headText_lt (hlo : -2 ^ 31 ≤ z) (hhi : z < 2 ^ 31) (hr : Quiet reason)
    (ht : Quiet contentType) (hn : n < sizeMod) :
    (headText (statusText z reason) contentType (decimal n)).length < 256 := by
  have hstatus : (decimalInt z).length ≤ 11 := by
    have hdigits : (decimal z.natAbs).length ≤ 10 := length_decimal_le (by decide) (by omega)
    rw [decimalInt]
    split
    · rw [List.length_cons]
      omega
    · omega
  have hlen : (decimal n).length ≤ 20 := length_decimal_le (by decide) (hn.trans (by decide))
  have hfixed : (bytes "HTTP/1.1 ").length + (bytes "\r\n").length +
    (bytes "Content-Type: ").length + (bytes "\r\n").length +
    (bytes "Access-Control-Allow-Origin: *\r\n").length + (bytes "Content-Length: ").length +
    (bytes "\r\n").length + (bytes "\r\n").length = 79 := by decide
  have hreason := hr.2.2.2
  have htype := ht.2.2.2
  simp only [headText, statusText, List.length_append, List.length_cons]
  omega

/-! ## What the client reads off it -/

theorem scanStatus_headText (hlo : -2 ^ 31 ≤ z) (hhi : z < 2 ^ 31)
    (contentType length : List Byte) :
    HttpClient.scanStatus (headText (statusText z reason) contentType length) = z := by
  obtain ⟨rest, hrest⟩ : ∃ rest, headText (statusText z reason) contentType length
      = bytes "HTTP/1." ++ (decimalInt 1 ++ 32 :: (decimalInt z ++ 32 :: rest)) := by
    have hone : decimalInt 1 = [49] := by simp [decimalInt, decimal]
    have hversion : bytes "HTTP/1.1 " = bytes "HTTP/1." ++ [49, 32] := rfl
    simp only [headText, statusText, hone, hversion, List.append_assoc, List.cons_append,
      List.nil_append]
    exact ⟨_, rfl⟩
  have hstart : startsWith (bytes "HTTP/1." ++ (decimalInt 1 ++ 32 :: (decimalInt z ++ 32 :: rest)))
      (bytes "HTTP/1.") = true := List.isPrefixOf_iff_prefix.mpr (List.prefix_append _ _)
  have hdrop : (bytes "HTTP/1." ++ (decimalInt 1 ++ 32 :: (decimalInt z ++ 32 :: rest))).drop 7
      = decimalInt 1 ++ 32 :: (decimalInt z ++ 32 :: rest) := List.drop_left' rfl
  rw [HttpClient.scanStatus, hrest, if_pos hstart, hdrop,
    scanInt_decimalInt (by decide) (by decide) (by decide)]
  dsimp only
  rw [scanInt_cons (by decide), scanInt_decimalInt hlo hhi (by decide)]
  rfl

theorem scanContentLength_headText (hr : Quiet reason) (ht : Quiet contentType)
    (hn : n < sizeMod) :
    scanContentLength (headText (statusText z reason) contentType (decimal n)) = n := by
  have hcolon : (58 : Byte) ∈ bytes "Content-Length:" := by decide
  have hstatus : strstr (bytes "HTTP/1.1 " ++ statusText z reason) (bytes "Content-Length:")
      = none := by
    refine strstr_of_notMem hcolon ?_
    rw [List.mem_append]
    exact fun h => h.elim (by decide)
      (notMem_statusText (by decide) (by decide) (by decide) hr.2.2.1)
  have htype : strstr (bytes "Content-Type: " ++ contentType) (bytes "Content-Length:") = none := by
    have hsplit : bytes "Content-Type: " ++ contentType
        = bytes "Content-Type:" ++ 32 :: contentType :=
      rfl
    rw [hsplit, strstr_append_cons (by decide), strstr_of_notMem hcolon ht.2.2.1]
    rfl
  have horigin : strstr (bytes "Access-Control-Allow-Origin: *") (bytes "Content-Length:")
      = none := by decide
  have hlength : bytes "Content-Length: " ++ decimal n
      = bytes "Content-Length:" ++ 32 :: decimal n := rfl
  have hself : strstr (bytes "Content-Length: " ++ decimal n) (bytes "Content-Length:")
      = some (bytes "Content-Length:" ++ 32 :: decimal n) := by
    rw [hlength, strstr_append_self]
  have hfound : strstr (headText (statusText z reason) contentType (decimal n))
      (bytes "Content-Length:")
      = some (bytes "Content-Length:" ++ 32 :: (decimal n ++ 13 :: 10 :: [13, 10])) := by
    rw [headText_eq, headList]
    simp only [crlfLines_cons, crlfLines_nil, List.append_assoc, List.cons_append, List.nil_append]
    have hcrlf : ∀ l m, strstr (l ++ 13 :: 10 :: m) (bytes "Content-Length:")
        = ((strstr l (bytes "Content-Length:")).map fun found => found ++ 13 :: 10 :: m).or
          (strstr m (bytes "Content-Length:")) := strstr_crlf (by decide) (by decide) (by decide)
    rw [← List.append_assoc, hcrlf, hstatus, ← List.append_assoc, hcrlf, htype, hcrlf, horigin,
      ← List.append_assoc, hcrlf, hself]
    simp
  have hdrop : ∀ s, (bytes "Content-Length:" ++ s).drop 15 = s := fun s => List.drop_left' rfl
  rw [scanContentLength, hfound]
  dsimp only
  rw [hdrop, scanSize_cons (by decide), scanSize_decimal hn (by decide)]
  rfl

/-- What the client reads off a head. -/
def headRead (z : ℤ) (reason contentType : List Byte) (n : ℕ) : MessageHead ℤ :=
  ⟨z, n, (headText (statusText z reason) contentType (decimal n)).length⟩

/-- **A response is one message**, and its length is the length of its body. -/
theorem message_headText (hlo : -2 ^ 31 ≤ z) (hhi : z < 2 ^ 31) (hr : Quiet reason)
    (ht : Quiet contentType) (hn : body.length < sizeMod) :
    (framing HttpClient.scanStatus).message
        (headText (statusText z reason) contentType (decimal body.length) ++ body)
      = some (headRead z reason contentType body.length) := by
  have hlen := length_headText_lt hlo hhi hr ht hn
  have hint : intMax = 2 ^ 31 - 1 := rfl
  have hhead : headOf HttpClient.scanStatus
      (headText (statusText z reason) contentType (decimal body.length) ++ body)
      = some (parseHead HttpClient.scanStatus
        (headText (statusText z reason) contentType (decimal body.length))) := by
    rw [headText_eq] at hlen ⊢
    rw [List.length_append] at hlen
    rw [List.append_assoc]
    exact headOf_lines _ (by simp [headList]) (isLine_headList hr ht) (by omega) body
  refine message_framing_iff.mpr ⟨?_, ?_⟩
  · rw [hhead, parseHead, cstr_of_notMem (zero_notMem_headText hr ht),
      scanStatus_headText hlo hhi, scanContentLength_headText hr ht hn, headRead]
  · rw [List.length_append]
    exact le_rfl

/-! ## What the server puts together -/

variable {spare : ℕ} {r : HTTPServerConnection.Response}

/-- A response that is put together has a size that `size_t` can say. -/
theorem length_of_assemble {header : List Byte × ℕ} (h : assemble spare header body = .ok r) :
    header.2 + body.length + spare < sizeMod := by
  have hpos : 0 < sizeMod := by decide
  simp only [assemble] at h
  split at h
  · cases h
  · split at h
    · cases h
    · rename_i hfit
      exact Nat.lt_of_le_of_lt (Nat.not_lt.mp hfit) (Nat.mod_lt _ hpos)

/-- A response that is put together under a whole header is the header and the body, and what is
spare. -/
theorem eq_of_assemble {header : List Byte} (hlen : header.length < 256)
    (h : assemble spare (snprintf 256 header) body = .ok r) :
    r.writeBuffer = header ++ body ++ List.replicate spare 0 ∧
      r.writeSize = header.length + body.length := by
  have hroom := length_of_assemble h
  rw [snprintf_of_lt hlen] at h hroom
  simp only [assemble] at h hroom
  split at h
  · cases h
  · split at h
    · cases h
    · cases h
      rw [sizeAdd_of_lt (by omega), List.take_left]
      exact ⟨rfl, rfl⟩

/-- A response that is put together is its head and its body, and what is spare. -/
theorem assemble_headText (hlo : -2 ^ 31 ≤ z) (hhi : z < 2 ^ 31) (hr : Quiet reason)
    (ht : Quiet contentType)
    (h : assemble spare (snprintf 256 (headText (statusText z reason) contentType
      (decimal body.length))) body = .ok r) :
    r.writeBuffer = headText (statusText z reason) contentType (decimal body.length) ++ body ++
      List.replicate spare 0 ∧
    r.writeSize = (headText (statusText z reason) contentType (decimal body.length)).length +
      body.length ∧
    r.writeSize < sizeMod := by
  have hroom := length_of_assemble h
  have hlen := length_headText_lt (z := z) (n := body.length) hlo hhi hr ht (by omega)
  obtain ⟨hbuffer, hsize⟩ := eq_of_assemble hlen h
  rw [snprintf_of_lt hlen] at hroom
  exact ⟨hbuffer, hsize, by omega⟩

/-- **What a response is**: an answer, under a head that tells its length. -/
structure Carries (r : HTTPServerConnection.Response) (a : Answer) : Prop where
  lt : r.writeSize < sizeMod
  le : r.writeSize ≤ r.writeBuffer.length
  status : -2 ^ 31 ≤ a.status ∧ a.status < 2 ^ 31
  written : ∃ reason contentType, Quiet reason ∧ Quiet contentType ∧
    r.writeBuffer.take r.writeSize
      = headText (statusText a.status reason) contentType (decimal a.body.length) ++ a.body

theorem carries_of_assemble (hlo : -2 ^ 31 ≤ z) (hhi : z < 2 ^ 31) (hr : Quiet reason)
    (ht : Quiet contentType)
    (h : assemble spare (snprintf 256 (headText (statusText z reason) contentType
      (decimal body.length))) body = .ok r) : Carries r ⟨z, body⟩ := by
  obtain ⟨hbuffer, hsize, hlt⟩ := assemble_headText hlo hhi hr ht h
  refine ⟨hlt, ?_, ⟨hlo, hhi⟩, reason, contentType, hr, ht, ?_⟩
  · rw [hbuffer, hsize, List.length_append, List.length_append]
    exact Nat.le_add_right _ _
  · rw [hbuffer, hsize, ← List.length_append, List.take_left]

theorem eq_ok_of_map_some {x : Except Fault HTTPServerConnection.Response}
    (h : x.map some = .ok (some r)) : x = .ok r := by
  rcases x with f | r'
  · cases h
  · simpa [Except.map] using h

theorem exists_of_map_some {x : Except Fault HTTPServerConnection.Response}
    {o : Option HTTPServerConnection.Response} (h : x.map some = .ok o) : ∃ r, o = some r := by
  rcases x with f | r
  · cases h
  · exact ⟨r, (Except.ok.inj h).symm⟩

/-- The status lines that do not depend on the handler. -/
theorem statusText_eq : bytes "200 OK" = statusText 200 (bytes "OK") ∧
    bytes "500 Internal Server Error" = statusText 500 (bytes "Internal Server Error") ∧
    bytes "404 Not Found" = statusText 404 (bytes "Not Found") := by
  decide

theorem carries_homepage (h : homepage true = .ok (some r)) : Carries r ⟨200, html⟩ := by
  simp only [homepage, if_true] at h
  have hr := eq_ok_of_map_some h
  rw [statusText_eq.1] at hr
  exact carries_of_assemble (by decide) (by decide) (by decide) (by decide) hr

theorem carries_echo (h : echo true body = .ok (some r)) : Carries r ⟨200, body⟩ := by
  simp only [echo, if_true] at h
  have hr := eq_ok_of_map_some h
  rw [statusText_eq.1] at hr
  exact carries_of_assemble (by decide) (by decide) (by decide) (by decide) hr

theorem carries_currentFailed (h : currentFailed true = .ok (some r)) :
    Carries r ⟨500, errorText⟩ := by
  have hlen : errorText.length < 256 := by decide +kernel
  have hbound : ¬ 256 < errorText.length := by omega
  simp only [currentFailed, snprintf_of_lt hlen, if_true, if_neg hbound, List.take_left] at h
  have hr := eq_ok_of_map_some h
  rw [statusText_eq.2.1] at hr
  exact carries_of_assemble (by decide) (by decide) (by decide) (by decide) hr

theorem carries_currentAnswered {statusCode : Int32}
    (h : currentAnswered true statusCode body = .ok (some r)) :
    Carries r ⟨statusCode.toInt, body⟩ := by
  simp only [currentAnswered, if_true] at h
  have hr := eq_ok_of_map_some h
  have hline : ∀ reason, decimalInt statusCode.toInt ++ bytes " " ++ reason
      = statusText statusCode.toInt reason := fun reason => List.append_assoc _ _ _
  rw [hline] at hr
  refine carries_of_assemble statusCode.le_toInt statusCode.toInt_lt ?_ (by decide) hr
  split <;> decide

theorem carries_notFound {method path : List Byte} (h : notFound true method path = .ok (some r)) :
    Carries r ⟨404, (snprintf 512 (notFoundText method path)).1⟩ := by
  simp only [notFound, if_true] at h
  have hr := eq_ok_of_map_some h
  rw [statusText_eq.2.2] at hr
  exact carries_of_assemble (by decide) (by decide) (by decide) (by decide) hr

theorem copyPath_eq {requestPath : List Byte} {target : List Byte × List Byte}
    (h : copyPath requestPath = .ok target) : target = splitPath requestPath := by
  simp only [copyPath] at h
  split at h
  · exact (Except.ok.inj h).symm
  · cases h

/-- What is left of `on_request` once the path is taken apart. -/
theorem exists_of_onRequest {current : Current} {c : HTTPServerConnection}
    (h : onRequest current true c = .ok (some r)) :
    ∃ requestPath method, c.requestPath = some requestPath ∧ c.method = some method ∧
      copyPath requestPath = .ok (splitPath requestPath) := by
  rw [onRequest] at h
  rcases hp : c.requestPath with _ | requestPath
  · rw [hp] at h
    cases h
  · rw [hp] at h
    rcases hcopy : copyPath requestPath with f | target
    · simp only [hcopy] at h
      cases h
    · rcases hm : c.method with _ | method
      · simp only [hcopy, hm] at h
        cases h
      · exact ⟨requestPath, method, rfl, rfl, by rw [hcopy, copyPath_eq hcopy]⟩

/-- **Every endpoint writes its answer.** -/
theorem carries_answer {current : Current} {c : HTTPServerConnection}
    (h : onRequest current true c = .ok (some r)) : Carries r (answer current c) := by
  obtain ⟨requestPath, method, hp, hm, hcopy⟩ := exists_of_onRequest h
  simp only [onRequest, hp, hm, hcopy] at h
  simp only [answer, hp, hm, Option.getD_some]
  by_cases hhome : method = bytes "GET" ∧ (splitPath requestPath).1 = bytes "/"
  · rw [if_pos hhome] at h ⊢
    exact carries_homepage h
  · rw [if_neg hhome] at h ⊢
    by_cases hecho : (splitPath requestPath).1 = bytes "/echo"
    · rw [if_pos hecho] at h ⊢
      exact carries_echo h
    · rw [if_neg hecho] at h ⊢
      by_cases hcurrent : method = bytes "GET" ∧ (splitPath requestPath).1 = bytes "/v1/current"
      · rw [if_pos hcurrent] at h ⊢
        rcases hjson : current (splitPath requestPath).2 with ⟨_ | json, statusCode⟩
        · rw [hjson] at h
          exact carries_currentFailed h
        · rw [hjson] at h
          exact carries_currentAnswered h
      · rw [if_neg hcurrent] at h ⊢
        exact carries_notFound h

/-! ## Every request is answered -/

/-- A response is put together when its blocks have a size that fits a half of the address space. -/
theorem exists_of_assemble (hlo : -2 ^ 31 ≤ z) (hhi : z < 2 ^ 31) (hr : Quiet reason)
    (ht : Quiet contentType) (hspare : spare ≤ 1) (hn : body.length < 2 ^ 63) :
    ∃ r, (assemble spare (snprintf 256 (headText (statusText z reason) contentType
      (decimal body.length))) body).map some = .ok (some r) := by
  have hmod : sizeMod = 2 ^ 64 := rfl
  have hlen := length_headText_lt (z := z) (n := body.length) hlo hhi hr ht (by omega)
  rw [snprintf_of_lt hlen, assemble]
  dsimp only
  rw [if_neg (by omega), if_neg]
  · exact ⟨_, rfl⟩
  · have htotal := sizeAdd_of_lt (show (headText (statusText z reason) contentType
      (decimal body.length)).length + body.length < sizeMod by omega)
    rw [htotal, sizeAdd_of_lt (by omega)]
    omega

theorem copyPath_of_le {requestPath : List Byte} (hle : requestPath.length ≤ 255) :
    copyPath requestPath = .ok (splitPath requestPath) := by
  have hlen := length_splitPath_le requestPath
  have hfit : (splitPath requestPath).1.length < 256 ∧ (splitPath requestPath).2.length < 512 := by
    omega
  simp only [copyPath, if_pos hfit]

variable {current : Current} {c : HTTPServerConnection}

/-- A request with a method and a short path is answered. -/
theorem exists_of_request {method requestPath : List Byte} (hm : c.method = some method)
    (hp : c.requestPath = some requestPath) (hle : requestPath.length ≤ 255)
    (hread : c.readBuffer.length < 2 ^ 63)
    (hjson : ∀ query json code, current query = (some json, code) → json.length < 2 ^ 63) :
    ∃ r, onRequest current true c = .ok (some r) := by
  simp only [onRequest, hp, hm, copyPath_of_le hle]
  split
  · have hlen : html.length < 2 ^ 63 := by decide +kernel
    simp only [homepage, if_true, statusText_eq.1]
    exact exists_of_assemble (by decide) (by decide) (by decide) (by decide) (Nat.zero_le 1) hlen
  · split
    · simp only [echo, if_true, statusText_eq.1]
      exact exists_of_assemble (by decide) (by decide) (by decide) (by decide) (Nat.zero_le 1) hread
    · split
      · rcases hcur : current (splitPath requestPath).2 with ⟨_ | json, statusCode⟩
        · have hlen : errorText.length < 256 := by decide +kernel
          have hbound : ¬ 256 < errorText.length := by omega
          simp only [currentFailed, snprintf_of_lt hlen, if_true, if_neg hbound, List.take_left,
            statusText_eq.2.1]
          exact exists_of_assemble (by decide) (by decide) (by decide) (by decide) le_rfl (by omega)
        · have hline : ∀ reason, decimalInt statusCode.toInt ++ bytes " " ++ reason
              = statusText statusCode.toInt reason := fun reason => List.append_assoc _ _ _
          simp only [currentAnswered, if_true, hline]
          refine exists_of_assemble statusCode.le_toInt statusCode.toInt_lt ?_ (by decide) le_rfl
            (hjson _ json statusCode hcur)
          split <;> decide
      · simp only [notFound, if_true, statusText_eq.2.2]
        refine exists_of_assemble (by decide) (by decide) (by decide) (by decide) le_rfl ?_
        exact Nat.lt_of_le_of_lt (List.length_take_le _ _) (by decide)

/-- **A dispatched request is answered**, when there is memory for the answer. -/
theorem exists_of_dispatch {κ : Type} {onDispatch : HTTPServerConnection.OnRequest} {smw : Smw κ}
    {fd : ℤ} {task : Option TaskHandle} {ticks : List HTTPServerConnection.Tick} {k : ℕ}
    (halloc : ∀ t ∈ ticks, t.alloc = .all)
    (h : HTTPServerConnection.dispatch onDispatch ticks
      (smw, HTTPServerConnection.initiate fd task) = some (k, c))
    (hread : c.readBuffer.length < 2 ^ 63)
    (hjson : ∀ query json code, current query = (some json, code) → json.length < 2 ^ 63) :
    ∃ r, onRequest current true c = .ok (some r) := by
  obtain ⟨a, p, hd, rfl, hs, rfl⟩ := HTTPServerConnection.head_of_dispatch (A := (· = .all))
    (s := []) halloc HTTPServerConnection.waits_initiate (by decide) h
  obtain ⟨e, -, rfl⟩ := headOf_eq_some_iff.mp hs
  have hle : (parseHead HTTPServerConnection.readRequest
      (([] ++ HTTPServerConnection.received ticks).take e)).fields.requestPath.length ≤ 255 :=
    length_scanToken_le _ _
  exact exists_of_request (HTTPServerConnection.dispatched_method _)
    (HTTPServerConnection.dispatched_requestPath _) hle hread hjson

/-! ## The round trip -/

/-- **The client decodes what the server writes.**  A response ends where its head says; delivered
in any cut it leaves the client waiting until the last byte, and with the last byte done, with the
status and the body the server wrote. -/
theorem response_round_trip (current : Current) (c : HTTPServerConnection)
    (hr : onRequest current true c = .ok (some r)) {c₀ : HttpClient} (hf : HttpClient.Fresh c₀)
    (hbody : c₀.body = none) {ticks : List HttpClient.ReadTick}
    (hd : HttpClient.Delivers (r.writeBuffer.take r.writeSize) ticks) :
    (r.writeSize ≤ r.writeBuffer.length ∧
      ∃ i, Search.IsFirst blankLine (r.writeBuffer.take r.writeSize) i ∧
        scanContentLength ((r.writeBuffer.take r.writeSize).take (i + 4))
          = (answer current c).body.length ∧
        (r.writeBuffer.take r.writeSize).drop (i + 4) = (answer current c).body) ∧
    ∀ pre, pre <+: ticks → ∃ d evs, HttpClient.readRun c₀ pre = .ok (d, evs) ∧
      (HttpClient.received pre ≠ r.writeBuffer.take r.writeSize → d.state = .reading) ∧
      (HttpClient.received pre = r.writeBuffer.take r.writeSize →
        d.state = .done ∧ d.statusCode = (answer current c).status ∧
        d.body = if (answer current c).body = [] then none else some (answer current c).body) := by
  obtain ⟨hlt, hle, ⟨hlo, hhi⟩, reason, contentType, hreason, htype, hwritten⟩ := carries_answer hr
  have hsize : (r.writeBuffer.take r.writeSize).length = r.writeSize := by
    rw [List.length_take, Nat.min_eq_left hle]
  have hexact : (r.writeBuffer.take r.writeSize).length
      = (headText (statusText (answer current c).status reason) contentType
        (decimal (answer current c).body.length)).length + (answer current c).body.length := by
    rw [hwritten, List.length_append]
  have hn : (answer current c).body.length < sizeMod := by omega
  have hm := message_headText hlo hhi hreason htype hn
  rw [← hwritten] at hm
  refine ⟨⟨hle, ?_⟩, fun pre hpre => ?_⟩
  · obtain ⟨i, hi, hstart⟩ := isFirst_blankLine (message_framing_iff.mp hm).1
    refine ⟨i, hi, ?_, ?_⟩
    · rw [← hstart, hwritten]
      exact (congrArg scanContentLength List.take_left).trans
        (scanContentLength_headText hreason htype hn)
    · rw [← hstart, hwritten]
      exact List.drop_left
  · obtain ⟨hd', m, hrest⟩ := hd.of_prefix hpre
    by_cases hwhole : HttpClient.received pre = r.writeBuffer.take r.writeSize
    · rw [hwhole] at hd'
      obtain ⟨d, evs, hrun, hstate, hstatus, hdec⟩ :=
        hd'.run_of_whole hf hbody hm hexact (hsize.trans_lt hlt)
      refine ⟨d, evs, hrun, fun hne => absurd hwhole hne, fun _ => ⟨hstate, hstatus, ?_⟩⟩
      have hdrop : (r.writeBuffer.take r.writeSize).drop (headRead (answer current c).status reason
          contentType (answer current c).body.length).bodyStart = (answer current c).body := by
        rw [hwritten]
        exact List.drop_left
      rw [hdec, hdrop]
      exact if_congr List.length_eq_zero_iff rfl rfl
    · have hshort : (HttpClient.received pre).length < (r.writeBuffer.take r.writeSize).length := by
        have hne : m ≠ [] := by
          rintro rfl
          exact hwhole (by rw [← hrest, List.append_nil])
        have hpos := List.length_pos_iff.mpr hne
        rw [← hrest, List.length_append]
        omega
      refine ⟨_, _, hd.run_of_short hf hm (hsize.trans_lt hlt) hpre (hshort.trans_eq hexact),
        fun _ => ?_, fun hwhole' => absurd hwhole' hwhole⟩
      rw [HttpClient.waiting_state, hf.state]

/-- A request for the echo, as the callback sees it. -/
def echoRequest : HTTPServerConnection :=
  { HTTPServerConnection.initiate 4 none with
    method := some (bytes "GET")
    requestPath := some (bytes "/echo")
    readBuffer := bytes "GET /echo HTTP/1.1\r\n\r\n" }

/-- The first lines of its echo. -/
def echoStart : List Byte := bytes "HTTP/1.1 200 OK\r\nContent-Type: text/plain\r\n"

/-- The rest of its echo. -/
def echoRest : List Byte := bytes "Access-Control-Allow-Origin: *\r\nContent-Length: 22\r\n\r\n" ++
  echoRequest.readBuffer

/-- The echo of a request, in two reads. -/
theorem response_round_trip_echo : ∃ d evs,
    HttpClient.readRun HttpClient.idle [HttpClient.readTick echoStart (by decide) (by decide),
      HttpClient.readTick echoRest (by decide) (by decide)] = .ok (d, evs) ∧
    d.statusCode = 200 ∧ d.body = some echoRequest.readBuffer := by
  have hr : onRequest (fun _ => (none, 500)) true echoRequest
      = .ok (some ⟨echoStart ++ echoRest, 119⟩) := by decide +kernel
  have hd : HttpClient.Delivers ((echoStart ++ echoRest).take 119)
      [HttpClient.readTick echoStart (by decide) (by decide),
        HttpClient.readTick echoRest (by decide) (by decide)] :=
    ⟨by simp [HttpClient.readTick, HttpClient.goesOn, HttpClient.ReadAlloc.all],
      by simp [HttpClient.readTick], rfl, by decide⟩
  obtain ⟨d, evs, hrun, -, hdone⟩ :=
    (response_round_trip _ echoRequest hr HttpClient.fresh_idle rfl hd).2 _ (List.prefix_refl _)
  obtain ⟨-, hstatus, hbody⟩ := hdone rfl
  exact ⟨d, evs, hrun, hstatus, hbody⟩

end WeatherServerInstance
