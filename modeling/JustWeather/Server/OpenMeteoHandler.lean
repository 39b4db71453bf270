import JustWeather.Server.OpenMeteoApi.Progress
import JustWeather.Server.OpenMeteoApi.ResponseFormat
import JustWeather.Machinery.Trace

/-!
# Server/OpenMeteoHandler — the handler of `/v1/current`

`open_meteo_handler_current` over the world of `open_meteo_api.c`, and the server that handles one
request after another.
-/

open CLib Fallible OpenMeteoApi

/-- `*response_json`: the text of an error, or a document, up to the text of the value. -/
inductive ResponseJson (D : Type)
  | error (text : List Byte)
  | document (root : Json D)

/-- What `open_meteo_handler_current` returns, with `*response_json` and `*status_code`. -/
structure Handled (D : Type) where
  returned : ℤ
  responseJson : Option (ResponseJson D)
  statusCode : ℤ

namespace OpenMeteoHandler

variable {F D : Type} (x : Platform F D) (config : WeatherConfig) (env : Env)

/-- `build_error_response`: the text; the block it is in is for the caller to release. -/
def buildErrorResponse (errorMsg : String) (code : ℤ) : Option (ResponseJson D) :=
  if env.alloc.error then
    some (.error (snprintf 512 (bytes "\x7b\n  \"error\": true,\n  \"code\": " ++ decimalInt code ++
      bytes ",\n  \"message\": \"" ++ bytes errorMsg ++ bytes "\"\n\x7d")).1)
  else none

/-- The part of `open_meteo_handler_current` after the query. -/
def currentAt (lat lon : F) : Api F D (Handled D) := do
  let (result, weatherData) ← getCurrent x config env lat lon none
  match if result = 0 then weatherData else none with
  | some weatherData =>
    let responseJson ← buildJsonResponse x config env (some weatherData) lat lon
    freeCurrent weatherData
    match responseJson with
    | none => return ⟨-1, none, 500⟩
    | some root => return ⟨0, some (.document root), 200⟩
  | none =>
    return ⟨-1, buildErrorResponse env "Failed to fetch weather data from Open-Meteo API" 500, 500⟩

/-- `open_meteo_handler_current`. -/
def current (queryString : List Byte) : Api F D (Handled D) :=
  match parseQuery x queryString with
  | (0, some lat, some lon) => currentAt x config env lat lon
  | _ =>
    pure ⟨-1, buildErrorResponse env
      "Invalid query parameters. Expected format: lat=XX.XXXX&long=YY.YYYY" 400, 400⟩

/-! ## One request after another -/

/-- A request: its query, and what the environment does while it is handled. -/
structure Request where
  queryString : List Byte
  env : Env

/-- A request that was handled: the world before it, the answer, and the world after it. -/
structure Exchange (F D : Type) where
  request : Request
  before : World F D
  handled : Handled D
  after : World F D

/-- One request. -/
def step (request : Request) (w : World F D) : Except Fault (World F D × List (Exchange F D)) :=
  (current x config request.env request.queryString w).map fun r => (r.2, [⟨request, w, r.1, r.2⟩])

/-- The requests, one after another. -/
abbrev run : List Request → World F D → Except Fault (World F D × List (Exchange F D)) :=
  Trace.run (step x config)

/-! ## What a request does -/

variable {x config env} {lat lon : F} {w w' : World F D} {r : Handled D}
  {queryString : List Byte}

/-- **What a request does**: it gets the weather, and writes no file after that; a `200` has the
response for the weather it got. -/
theorem exists_of_currentAt (h : currentAt x config env lat lon w = .ok (r, w')) :
    ∃ code data w₁, getCurrent x config env lat lon none w = .ok ((code, data), w₁) ∧ Calm w₁ w' ∧
      (r.statusCode = 200 → code = 0 ∧ ∃ p root, data = some p ∧
        response x config env lat lon w₁.files p.value = some root ∧
        r.responseJson = some (.document root)) := by
  obtain ⟨⟨code, data⟩, w₁, hget, h₁⟩ := exists_of_bind h
  refine ⟨code, data, w₁, hget, ?_⟩
  dsimp only at h₁
  rcases hp : (if code = 0 then data else none) with _ | p
  · rw [hp] at h₁
    cases h₁
    exact ⟨Calm.refl _, fun h200 => by cases h200⟩
  · rw [hp] at h₁
    obtain ⟨rfl, rfl⟩ : code = 0 ∧ data = some p := by
      split at hp
      · exact ⟨‹_›, hp⟩
      · cases hp
    obtain ⟨built, w₂, hbuild, h₂⟩ := exists_of_bind h₁
    obtain ⟨hbuilt, hcalm⟩ := of_buildJsonResponse hbuild
    obtain ⟨_, w₃, hfree, h₃⟩ := exists_of_bind h₂
    have hcalm' := hcalm.trans (calm_freeCurrent p _ _ _ hfree)
    rcases built with _ | root
    · cases h₃
      exact ⟨hcalm', fun h200 => by cases h200⟩
    · cases h₃
      exact ⟨hcalm', fun _ => ⟨rfl, p, root, rfl, hbuilt.symm, rfl⟩⟩

/-- A request with a query that names no location does nothing, and is not a `200`. -/
theorem of_current (h : current x config env queryString w = .ok (r, w')) :
    (∃ lat lon, parseQuery x queryString = (0, some lat, some lon) ∧
      currentAt x config env lat lon w = .ok (r, w')) ∨ (w' = w ∧ r.statusCode = 400) := by
  rw [current] at h
  generalize parseQuery x queryString = found at h ⊢
  split at h
  · exact Or.inl ⟨_, _, rfl, h⟩
  · cases h
    exact Or.inr ⟨rfl, rfl⟩

theorem step_of_current {request : Request}
    (h : current x config request.env request.queryString w = .ok (r, w')) :
    step x config request w = .ok (w', [⟨request, w, r, w'⟩]) := by
  rw [step, h]
  rfl

/-! ## A request that fetches -/

/-- **A request whose fetch is needed and succeeds is answered**, and has written its document if it
could. -/
theorem exists_current {path text : List Byte} {d : Json D} {v : WeatherData F D}
    (hquery : parseQuery x queryString = (0, some lat, some lon))
    (hpath : generateCacheFilepath x config true lat lon = some path)
    (hmiss : ¬ (config.useCache = true ∧ FileFresh config env w.files path))
    (halloc : env.alloc = .all) (htransfer : env.transfer = .done 200 (some text))
    (hd : x.loadb text = some d)
    (hparse : parseWeatherJson x env.fetchedAt text (zeroed x) lat lon = .ok (0, v)) :
    ∃ r w' u root, current x config env queryString w = .ok (r, w') ∧
      response x config env lat lon w'.files u = some root ∧
      r = ⟨0, some (.document root), 200⟩ ∧ w'.files = written config env path d w.files ∧
      w'.fetches = ⟨lat, lon, env.transfer, env.fetchedAt⟩ :: w.fetches := by
  have hpath' : generateCacheFilepath x config env.alloc.cacheFile lat lon = some path := by
    rw [halloc]
    exact hpath
  have halloc' : env.alloc.url = true ∧ env.alloc.curl = true ∧ env.alloc.fetched = true := by
    rw [halloc]
    exact ⟨rfl, rfl, rfl⟩
  obtain ⟨p, w₁, hget, howned⟩ := exists_getCurrent none hpath' hmiss halloc' htransfer hparse
  obtain ⟨w₂, hbuild, hcalm, hkeeps⟩ := buildJsonResponse_eq x config env lat lon howned.1
  obtain ⟨w₃, hfree⟩ := exists_freeCurrent (howned.of_keeps hkeeps)
  have hcalm' := hcalm.trans (calm_freeCurrent p _ _ _ hfree)
  obtain ⟨root, hroot⟩ : ∃ root, response x config env lat lon w₁.files p.value = some root := by
    rw [response]
    simp only [dumps, halloc, ApiAlloc.all]
    rcases savedDocument x config env lat lon w₁.files with _ | d
    · exact ⟨_, rfl⟩
    · exact ⟨_, rfl⟩
  obtain ⟨-, ⟨body, d', -, htransfer', hd', -, -, hfiles⟩, hfetches⟩ :=
    fetched_of_getCurrent hget hpath' hmiss
  cases htransfer.symm.trans htransfer'
  cases hd.symm.trans hd'
  refine ⟨⟨0, some (.document root), 200⟩, w₃, p.value, root, ?_, ?_, rfl, ?_, ?_⟩
  · rw [current, hquery]
    change currentAt x config env lat lon w = _
    rw [currentAt, bind_of_ok hget]
    simp only [if_true]
    rw [bind_of_ok hbuild, bind_of_ok hfree, hroot]
    rfl
  · rw [hcalm'.files, hroot]
  · rw [hcalm'.files, hfiles]
  · rw [hcalm'.fetches, hfetches]

end OpenMeteoHandler
