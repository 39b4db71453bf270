import JustWeather.CLib.Blocks
import JustWeather.Lib.HttpServerConnection.RequestLine
import JustWeather.RoundTrip.Response
import JustWeather.Server.OpenMeteoApi

/-!
# Server/WeatherServerInstance/Fits — what is dispatched fits the buffers of the handler

`weather_server_instance_on_request` copies and formats into arrays without a look at what it is
given; the limits are the widths `%7s` and `%255s` in another file.  Here the copies are made into
the arrays themselves (`copyTarget`), and what each branch formats is a list of texts (`headers`).
For every dispatched request the copies stay inside and the texts are whole (`dispatched_fits`).
-/

open CLib MessageHead HTTPServerConnection

/-! ## The copies -/

/-- `char query_copy[512]`, filled by `open_meteo_api_parse_query`. -/
def OpenMeteoApi.copyQuery (query : List Byte) (queryCopy : Block 512) : Except Fault (Block 512) :=
  queryCopy.copyPrefix 511 query

namespace WeatherServerInstance

/-- `path[256]` and `query[512]`. -/
structure Target where
  path : Block 256
  query : Block 512

/-- The copies into `path[256]` and `query[512]`, which start zeroed. -/
def copyTarget (requestPath : List Byte) : Except Fault Target := do
  match strchr requestPath 63 with
  | some questionMark =>
    let path ← (Block.zero 256).copyPrefix (requestPath.length - questionMark.length) requestPath
    let query ← (Block.zero 512).strcpy (questionMark.drop 1)
    return ⟨path, query⟩
  | none =>
    let path ← (Block.zero 256).strcpy requestPath
    return ⟨path, .zero 512⟩

variable {requestPath method path json header : List Byte} {statusCode : Int32}

/-- **A path of at most 255 characters is copied into both arrays, and terminated there.** -/
theorem exists_copyTarget (hle : requestPath.length ≤ 255) :
    ∃ t, copyTarget requestPath = .ok t ∧ t.path.Has (splitPath requestPath).1 ∧
      t.query.Has (splitPath requestPath).2 := by
  have hlen := length_splitPath_le requestPath
  rw [splitPath] at hlen ⊢
  rw [copyTarget]
  rcases hmark : strchr requestPath 63 with _ | mark
  · rw [hmark] at hlen
    obtain ⟨path, hpath, hhas⟩ := Block.strcpy_of_lt (show requestPath.length < 256 by omega)
      (Block.zero 256)
    dsimp only
    rw [hpath]
    exact ⟨_, rfl, hhas, List.replicate 511 0, rfl⟩
  · rw [hmark] at hlen
    dsimp only at hlen ⊢
    obtain ⟨path, hpath, hhas⟩ := Block.copyPrefix_of_lt
      (show requestPath.length - mark.length < 256 by omega) requestPath (Block.zero 256)
    obtain ⟨query, hquery, hhas'⟩ := Block.strcpy_of_lt
      (show (mark.drop 1).length < 512 by omega) (Block.zero 512)
    rw [hpath]
    change ∃ t, ((Block.zero 512).strcpy (mark.drop 1) >>= _) = _ ∧ _
    rw [hquery]
    exact ⟨_, rfl, hhas, hhas'⟩

theorem mem_splitPath {b : Byte} (hb : b ∈ (splitPath requestPath).1 ∨
    b ∈ (splitPath requestPath).2) : b ∈ requestPath := by
  rw [splitPath, strchr] at hb
  split at hb
  · rename_i mark hmark
    split at hmark
    · rcases hb with hb | hb
      · exact List.mem_of_mem_take hb
      · have hsuffix : mark <:+ requestPath := by
          rw [← Option.some.inj hmark]
          exact List.dropWhile_suffix _
        exact hsuffix.subset (List.mem_of_mem_drop hb)
    · cases hmark
  · simpa using hb

/-! ## The texts -/

/-- `snprintf` has room for the text and its terminator. -/
def Complete (size : ℕ) (text : List Byte) : Prop := (snprintf size text).2 < size

theorem Complete.snprintf_eq {size : ℕ} {text : List Byte} (h : Complete size text) :
    snprintf size text = (text, text.length) := snprintf_of_lt h

/-- What is formatted into `header[256]`, branch by branch: the homepage, the echo, the weather that
could not be had, the weather, and everything else. -/
def headers (readBuffer method path : List Byte) (statusCode : Int32) (json : List Byte) :
    List (List Byte) :=
  [ headText (bytes "200 OK") (bytes "text/html; charset=utf-8") (decimal html.length),
    headText (bytes "200 OK") (bytes "text/plain") (decimal readBuffer.length),
    headText (bytes "500 Internal Server Error") (bytes "application/json")
      (decimal (snprintf 256 errorText).2),
    headText (decimalInt statusCode.toInt ++ bytes " " ++
        if statusCode = 200 then bytes "OK" else bytes "Error")
      (bytes "application/json") (decimal json.length),
    headText (bytes "404 Not Found") (bytes "application/json")
      (decimal (snprintf 512 (notFoundText method path)).1.length) ]

/-- The headers are complete whatever they tell the length of. -/
theorem complete_headers {readBuffer : List Byte} (hread : readBuffer.length < sizeMod)
    (hjson : json.length < sizeMod) (hh : header ∈ headers readBuffer method path statusCode json) :
    Complete 256 header := by
  have hpage : html.length < sizeMod := by decide +kernel
  have herror : (snprintf 256 errorText).2 < sizeMod := by decide +kernel
  have hfound : (snprintf 512 (notFoundText method path)).1.length < sizeMod :=
    Nat.lt_of_le_of_lt (List.length_take_le _ _) (by decide)
  have hline : ∀ reason, decimalInt statusCode.toInt ++ bytes " " ++ reason
      = statusText statusCode.toInt reason := fun reason => List.append_assoc _ _ _
  simp only [headers, List.mem_cons, List.not_mem_nil, or_false] at hh
  obtain rfl | rfl | rfl | rfl | rfl := hh
  · rw [statusText_eq.1]
    exact length_headText_lt (by decide) (by decide) (by decide) (by decide) hpage
  · rw [statusText_eq.1]
    exact length_headText_lt (by decide) (by decide) (by decide) (by decide) hread
  · rw [statusText_eq.2.1]
    exact length_headText_lt (by decide) (by decide) (by decide) (by decide) herror
  · rw [hline]
    refine length_headText_lt statusCode.le_toInt statusCode.toInt_lt ?_ (by decide) hjson
    split <;> decide
  · rw [statusText_eq.2.2]
    exact length_headText_lt (by decide) (by decide) (by decide) (by decide) hfound

/-- The text of a `404` is as long as its two variable parts make it. -/
theorem length_notFoundText (method path : List Byte) : (notFoundText method path).length
    = (notFoundText [] []).length + method.length + path.length := by
  simp only [notFoundText, List.length_append, List.length_nil]
  omega

theorem complete_notFoundText (hmethod : method.length ≤ 7) (hpath : path.length ≤ 255) :
    Complete 512 (notFoundText method path) := by
  have hfixed : (notFoundText [] []).length + 7 + 255 < 512 := by decide +kernel
  have hlen := length_notFoundText method path
  rw [Complete, snprintf]
  dsimp only
  omega

/-- The header and the body of a response, and how many bytes are spare behind them. -/
structure Parts where
  header : List Byte
  body : List Byte
  spare : ℕ

/-- **What the response to a request is put together from**, branch by branch, with every text
whole. -/
def parts (current : Current) (readBuffer method path query : List Byte) : Parts :=
  if method = bytes "GET" ∧ path = bytes "/" then
    ⟨headText (bytes "200 OK") (bytes "text/html; charset=utf-8") (decimal html.length), html, 0⟩
  else if path = bytes "/echo" then
    ⟨headText (bytes "200 OK") (bytes "text/plain") (decimal readBuffer.length), readBuffer, 0⟩
  else if method = bytes "GET" ∧ path = bytes "/v1/current" then
    match current query with
    | (none, _) =>
      ⟨headText (bytes "500 Internal Server Error") (bytes "application/json")
        (decimal errorText.length), errorText, 1⟩
    | (some json, statusCode) =>
      ⟨headText (decimalInt statusCode.toInt ++ bytes " " ++
          if statusCode = 200 then bytes "OK" else bytes "Error")
        (bytes "application/json") (decimal json.length), json, 1⟩
  else
    ⟨headText (bytes "404 Not Found") (bytes "application/json")
      (decimal (notFoundText method path).length), notFoundText method path, 1⟩

/-- **What is written out is put together from one of the headers**, with the body that belongs to
it. -/
theorem exists_header {current : Current} {c : HTTPServerConnection}
    {r : HTTPServerConnection.Response} (hp : c.requestPath = some requestPath)
    (hm : c.method = some method)
    (hwhole : Complete 512 (notFoundText method (splitPath requestPath).1))
    (h : onRequest current true c = .ok (some r)) :
    ∃ p, p = parts current c.readBuffer method (splitPath requestPath).1 (splitPath requestPath).2 ∧
      assemble p.spare (snprintf 256 p.header) p.body = .ok r ∧ ∃ statusCode json,
        (json = [] ∨ json = p.body) ∧
          p.header ∈ headers c.readBuffer method (splitPath requestPath).1 statusCode json := by
  obtain ⟨_, _, hp', hm', hcopy⟩ := exists_of_onRequest h
  cases hp.symm.trans hp'
  cases hm.symm.trans hm'
  have herror : errorText.length < 256 := by decide +kernel
  simp only [onRequest, hp, hm, hcopy] at h
  refine ⟨_, rfl, ?_⟩
  rw [parts]
  split at h
  · rename_i hhome
    rw [if_pos hhome]
    simp only [homepage, if_true] at h
    refine ⟨eq_ok_of_map_some h, 0, [], Or.inl rfl, ?_⟩
    simp only [headers, List.mem_cons, true_or]
  · rename_i hhome
    rw [if_neg hhome]
    split at h
    · rename_i hecho
      rw [if_pos hecho]
      simp only [echo, if_true] at h
      refine ⟨eq_ok_of_map_some h, 0, [], Or.inl rfl, ?_⟩
      simp only [headers, List.mem_cons, true_or, or_true]
    · rename_i hecho
      rw [if_neg hecho]
      split at h
      · rename_i hcurrent
        rw [if_pos hcurrent]
        rcases hjson : current (splitPath requestPath).2 with ⟨_ | json, statusCode⟩ <;>
          rw [hjson] at h
        · have hbound : ¬ 256 < errorText.length := by omega
          simp only [currentFailed, snprintf_of_lt herror, if_true, if_neg hbound,
            List.take_left] at h
          refine ⟨eq_ok_of_map_some h, 0, [], Or.inl rfl, ?_⟩
          simp only [headers, snprintf_of_lt herror, List.mem_cons, true_or, or_true]
        · simp only [currentAnswered, if_true] at h
          refine ⟨eq_ok_of_map_some h, statusCode, json, Or.inr rfl, ?_⟩
          simp only [headers, List.mem_cons, true_or, or_true]
      · rename_i hcurrent
        rw [if_neg hcurrent]
        simp only [notFound, hwhole.snprintf_eq, if_true] at h
        refine ⟨eq_ok_of_map_some h, 0, [], Or.inl rfl, ?_⟩
        simp only [headers, hwhole.snprintf_eq, List.mem_cons, true_or, or_true]

/-! ## Every request that is dispatched -/

variable {κ : Type} {callback : OnRequest} {smw : Smw κ} {fd : ℤ} {task : Option TaskHandle}
  {ticks : List Tick} {x : Smw κ × HTTPServerConnection} {evs : List Event}
  {c : HTTPServerConnection}

/-- What is dispatched has strings no longer than the conversions they were read with. -/
theorem length_of_requested (h : connectionRun callback smw fd task ticks = .ok (x, evs))
    (hc : .request c ∈ evs) :
    (∀ method, c.method = some method → method.length ≤ 7 ∧ (0 : Byte) ∉ method) ∧
    (∀ requestPath, c.requestPath = some requestPath →
      requestPath.length ≤ 255 ∧ (0 : Byte) ∉ requestPath) ∧
    c.readBuffer.length < sizeMod := by
  obtain ⟨pre, t, post, a, head, -, hs, rfl, hlt⟩ := exists_of_requested h hc
  obtain ⟨e, -, rfl⟩ := headOf_eq_some_iff.mp hs
  have hzero : ∀ {w : ℕ} {s : List Byte}, s <:+ cstr ((received (pre ++ [t])).take e) →
      (0 : Byte) ∉ (scanToken w s).1 := by
    intro w s hsub hmem
    have := List.mem_takeWhile_imp (hsub.subset (mem_scanToken hmem).1)
    simp at this
  rw [dispatched_method, dispatched_requestPath, dispatched_readBuffer]
  refine ⟨fun method hm => ?_, fun requestPath hp => ?_, hlt⟩
  · rw [← (strdup_eq_some_iff.mp hm).2]
    exact ⟨length_scanToken_le _ _, hzero List.suffix_rfl⟩
  · rw [← (strdup_eq_some_iff.mp hp).2]
    exact ⟨length_scanToken_le _ _, hzero ((List.drop_suffix _ _).trans (List.dropWhile_suffix _))⟩

/-- **Every request that is dispatched fits the buffers of the handler.**  The two copies stay in
`path[256]` and `query[512]` and end in their terminators, and leave there what the handler goes on
with; the query is copied whole into `query_copy[512]`; the bodies in `body[512]` and `body[256]`
and every header in `header[256]` are complete; and so the response is the whole header and the
whole body of its branch. -/
theorem dispatched_fits (h : connectionRun callback smw fd task ticks = .ok (x, evs))
    (hc : .request c ∈ evs) (hp : c.requestPath = some requestPath) :
    (∃ t, copyTarget requestPath = .ok t ∧ t.path.Has (splitPath requestPath).1 ∧
      t.query.Has (splitPath requestPath).2 ∧
      copyPath requestPath = .ok (cstr t.path.bytes, cstr t.query.bytes)) ∧
    (∀ b, ∃ queryCopy, OpenMeteoApi.copyQuery (splitPath requestPath).2 b = .ok queryCopy ∧
      queryCopy.Has (splitPath requestPath).2 ∧
      strncpy 511 (splitPath requestPath).2 = (splitPath requestPath).2) ∧
    ∀ method, c.method = some method →
      Complete 512 (notFoundText method (splitPath requestPath).1) ∧ Complete 256 errorText ∧
      (∀ statusCode json, json.length < sizeMod →
        ∀ header ∈ headers c.readBuffer method (splitPath requestPath).1 statusCode json,
          Complete 256 header) ∧
      ∀ current r, onRequest current true c = .ok (some r) →
        ∃ p, p = parts current c.readBuffer method (splitPath requestPath).1
            (splitPath requestPath).2 ∧
          (∃ statusCode json,
            p.header ∈ headers c.readBuffer method (splitPath requestPath).1 statusCode json) ∧
          assemble p.spare (snprintf 256 p.header) p.body = .ok r ∧
          r.writeBuffer = p.header ++ p.body ++ List.replicate p.spare 0 ∧
          r.writeSize = p.header.length + p.body.length := by
  obtain ⟨hmethod, hpath, hread⟩ := length_of_requested h hc
  obtain ⟨hle, hzero⟩ := hpath requestPath hp
  have hlen := length_splitPath_le requestPath
  have herror : (snprintf 256 errorText).2 < 256 := by decide +kernel
  have hwhole : ∀ method, c.method = some method →
      Complete 512 (notFoundText method (splitPath requestPath).1) := fun method hm =>
    complete_notFoundText (hmethod method hm).1 (by omega)
  refine ⟨?_, fun b => ?_, fun method hm => ⟨hwhole method hm, herror, ?_, ?_⟩⟩
  · obtain ⟨t, ht, hhas, hhas'⟩ := exists_copyTarget hle
    refine ⟨t, ht, hhas, hhas', ?_⟩
    rw [hhas.cstr_eq fun h0 => hzero (mem_splitPath (Or.inl h0)),
      hhas'.cstr_eq fun h0 => hzero (mem_splitPath (Or.inr h0))]
    exact copyPath_of_le hle
  · obtain ⟨queryCopy, hcopy, hhas⟩ :=
      Block.copyPrefix_of_lt (show 511 < 512 by decide) (splitPath requestPath).2 b
    have hwhole : (splitPath requestPath).2.take 511 = (splitPath requestPath).2 :=
      List.take_of_length_le (by omega)
    exact ⟨queryCopy, hcopy, hwhole ▸ hhas, hwhole⟩
  · exact fun statusCode json hjson header hheader => complete_headers hread hjson hheader
  · intro current r hr
    obtain ⟨p, hparts, hassemble, statusCode, json, hjson, hheader⟩ :=
      exists_header hp hm (hwhole method hm) hr
    have hlen := length_of_assemble hassemble
    have hshort : json.length < sizeMod := by
      rcases hjson with rfl | rfl
      · decide
      · omega
    have hcomplete := complete_headers hread hshort hheader
    exact ⟨p, hparts, ⟨statusCode, json, hheader⟩, hassemble, eq_of_assemble hcomplete hassemble⟩

/-- A request for the weather, in one read. -/
theorem dispatched_fits_current : ∃ t,
    copyTarget (bytes "/v1/current?lat=59.33&lon=18.07") = .ok t ∧
    t.path.Has (bytes "/v1/current") ∧ t.query.Has (bytes "lat=59.33&lon=18.07") := by
  have hrun : ∃ x c, connectionRun silent (Smw.init : Smw Unit) 4 none
      [readTick (bytes "GET /v1/current?lat=59.33&lon=18.07 HTTP/1.1\r\n\r\n") (by decide)
        (by decide)] = .ok (x, [.request c]) ∧
      c.requestPath = some (bytes "/v1/current?lat=59.33&lon=18.07") := ⟨_, _, rfl, rfl⟩
  obtain ⟨x, c, hrun, hp⟩ := hrun
  obtain ⟨⟨t, ht, hpath, hquery, -⟩, -⟩ := dispatched_fits hrun (List.mem_singleton.mpr rfl) hp
  have hsplit : splitPath (bytes "/v1/current?lat=59.33&lon=18.07")
      = (bytes "/v1/current", bytes "lat=59.33&lon=18.07") := by decide
  rw [hsplit] at hpath hquery
  exact ⟨t, ht, hpath, hquery⟩

end WeatherServerInstance
