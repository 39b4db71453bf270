import JustWeather.Server.OpenMeteoHandler

/-!
# Server/OpenMeteoHandler/Freshness — how old the weather in an answer is

Whatever the requests, every file of the cache was written from a transfer that was made, for a
location with that path and at the time the file carries (`Backed`).  An answer is read back from
such a file without a look at its age, so it is fresh unless an old file that was not replaced is in
the way (`freshness`).
-/

open CLib Fallible OpenMeteoApi

namespace OpenMeteoHandler

variable {F D : Type} {x : Platform F D} {config : WeatherConfig} {env : Env} {lat lon : F}
  {path queryString : List Byte} {d root : Json D} {file : File D} {w w' : World F D}
  {data data' : Option (Ptr (WeatherData F D))} {code : ℤ} {p : Ptr (WeatherData F D)}
  {r : Handled D} {f : Fetch F} {request : Request} {requests : List Request}

/-! ## Where the weather comes from -/

/-- Two locations that `build_api_url` and `generate_cache_filepath` print alike. -/
def SamePlace (x : Platform F D) (lat lon lat' lon' : F) : Prop :=
  x.decimals 6 (x.widen lat) = x.decimals 6 (x.widen lat') ∧
    x.decimals 6 (x.widen lon) = x.decimals 6 (x.widen lon')

/-- The transfer got the document. -/
def Got (x : Platform F D) (f : Fetch F) (d : Json D) : Prop :=
  ∃ body, f.transfer = .done 200 (some body) ∧ x.loadb body = some d

/-- The weather of an answer is that of the document: it is the document, or built from the values
that were copied out of it; enriched. -/
def Shows (x : Platform F D) (d root : Json D) : Prop :=
  root = enrich d ∨ ∃ now current units u lat lon, d.get "current" = some current ∧
    d.get "current_units" = some units ∧ copyValues x now current units (zeroed x) = .ok u ∧
    root = enrich (buildRoot x
      { u with latitude := lat, longitude := lon, cityName := cityName x lat lon })

/-- There is a cache, and the time is within its time to live. -/
def Recent (config : WeatherConfig) (env : Env) (time : Int64) : Prop :=
  config.useCache = true ∧ env.checkedAt.toInt - time.toInt ≤ config.cacheTtl.toInt

/-- The file an answer for the location is read back from. -/
def ReadBack (x : Platform F D) (config : WeatherConfig) (env : Env) (lat lon : F)
    (files : List Byte → Option (File D)) (file : File D) : Prop :=
  ∃ path, generateCacheFilepath x config env.alloc.responseFile lat lon = some path ∧
    files path = some file ∧ file.content.isSome = true

/-- **A fresh answer**: its weather is that of a document for the location, which this request
fetched, or which was fetched within the time to live of the cache; and what it was read back from,
if anything, is a file within its time to live, or the one this request wrote. -/
def Fresh (x : Platform F D) (config : WeatherConfig) (e : Exchange F D) (root : Json D) : Prop :=
  ∃ lat lon f d, parseQuery x e.request.queryString = (0, some lat, some lon) ∧
    f ∈ e.after.fetches ∧ SamePlace x f.latitude f.longitude lat lon ∧ Got x f d ∧
    Shows x d root ∧
    (e.after.fetches = f :: e.before.fetches ∨ Recent config e.request.env f.time) ∧
    ∀ file, ReadBack x config e.request.env lat lon e.after.files file →
      Recent config e.request.env file.mtime ∨
        (config.useCache = true ∧ e.after.fetches = f :: e.before.fetches ∧
          file = ⟨some d, f.time⟩)

/-! ## The files of the cache -/

/-- The file at the path was written from the transfer. -/
structure Backs (x : Platform F D) (config : WeatherConfig) (f : Fetch F) (path : List Byte)
    (file : File D) : Prop where
  path : generateCacheFilepath x config true f.latitude f.longitude = some path
  document : ∃ d, file.content = some d ∧ Got x f d
  time : f.time = file.mtime

/-- **Every file that can be loaded was written from a transfer.** -/
def Backed (x : Platform F D) (config : WeatherConfig) (w : World F D) : Prop :=
  ∀ path file, w.files path = some file → file.content.isSome = true →
    ∃ f ∈ w.fetches, Backs x config f path file

/-- An empty cache directory is backed. -/
theorem backed_of_no_files (h : ∀ path, w.files path = none) : Backed x config w :=
  fun path file hfile => by rw [h] at hfile; cases hfile

/-- What writes no file, and forgets no transfer, keeps the cache backed. -/
theorem Backed.of_fetching (h : Backed x config w) (hfetching : Fetching w w') :
    Backed x config w' := by
  intro path file hfile hsome
  rw [hfetching.files] at hfile
  obtain ⟨f, hf, hbacks⟩ := h path file hfile hsome
  exact ⟨f, hfetching.fetches.subset hf, hbacks⟩

/-- A fetch that succeeds writes its own document, or nothing. -/
theorem Backed.of_fetched (h : Backed x config w)
    (hpath : generateCacheFilepath x config true lat lon = some path)
    (hfetched : Fetched x config env lat lon path p w w') : Backed x config w' := by
  obtain ⟨-, ⟨body, json, v, htransfer, hjson, -, -, hfiles⟩, hfetches⟩ := hfetched
  have hold : ∀ path file, w.files path = some file → file.content.isSome = true →
      ∃ f ∈ w'.fetches, Backs x config f path file := by
    intro path file hfile hsome
    obtain ⟨f, hf, hbacks⟩ := h path file hfile hsome
    exact ⟨f, hfetches ▸ List.mem_cons_of_mem _ hf, hbacks⟩
  intro path' file hfile hsome
  rw [hfiles, written] at hfile
  split at hfile
  · by_cases hsame : path' = path
    · subst hsame
      rw [Function.update_self] at hfile
      obtain rfl := Option.some.inj hfile
      exact ⟨⟨lat, lon, env.transfer, env.fetchedAt⟩, hfetches ▸ List.mem_cons_self ..,
        hpath, ⟨json, rfl, body, htransfer, hjson⟩, rfl⟩
    · rw [Function.update_of_ne hsame] at hfile
      exact hold path' file hfile hsome
  · exact hold path' file hfile hsome

theorem generateCacheFilepath_of_some {alloc : Bool}
    (h : generateCacheFilepath x config alloc lat lon = some path) :
    alloc = true ∧ generateCacheFilepath x config true lat lon = some path := by
  rw [generateCacheFilepath_eq] at h
  split at h
  · exact ⟨‹_›, h⟩
  · cases h

theorem Backed.of_getCurrent (h : Backed x config w)
    (hget : getCurrent x config env lat lon data w = .ok ((code, data'), w')) :
    Backed x config w' := by
  rcases OpenMeteoApi.of_getCurrent hget with
    ⟨-, -, rfl⟩ | ⟨path, hpath, ⟨-, p, -, hhit⟩ | ⟨-, ⟨-, p, -, hfetched⟩ | ⟨-, hfetching⟩⟩⟩
  · exact h
  · exact h.of_fetching hhit.calm.fetching
  · exact h.of_fetched (generateCacheFilepath_of_some hpath).2 hfetched
  · exact h.of_fetching hfetching

/-- **A request keeps the cache backed.** -/
theorem Backed.of_current (h : Backed x config w)
    (hcurrent : current x config env queryString w = .ok (r, w')) : Backed x config w' := by
  rcases OpenMeteoHandler.of_current hcurrent with ⟨lat, lon, -, hat⟩ | ⟨rfl, -⟩
  · obtain ⟨code, data, w₁, hget, hcalm, -⟩ := exists_of_currentAt hat
    exact (h.of_getCurrent hget).of_fetching hcalm.fetching
  · exact h

/-- **So does a run of requests.** -/
theorem Backed.of_run {exchanges : List (Exchange F D)} (h : Backed x config w)
    (hrun : run x config requests w = .ok (w', exchanges)) : Backed x config w' :=
  Trace.run_invariant (P := fun _ w _ => Backed x config w) h
    (fun hb hstep => by
      obtain ⟨⟨r, t⟩, hcurrent, ht⟩ := exists_of_map hstep
      obtain ⟨rfl, -⟩ := Prod.ext_iff.mp ht
      exact hb.of_current hcurrent) hrun

/-! ## One answer -/

/-- **The request can answer with what it fetches**: what it needs can be allocated, and the
transfer ends with a document that `parse_weather_json` accepts. -/
structure Fetches (x : Platform F D) (env : Env) (lat lon : F) : Prop where
  alloc : (env.alloc.url = true ∧ env.alloc.curl = true ∧ env.alloc.fetched = true) ∧
    env.alloc.cacheFile = true ∧ env.alloc.dumped = true
  document : ∃ body v, env.transfer = .done 200 (some body) ∧
    parseWeatherJson x env.fetchedAt body (zeroed x) lat lon = .ok (0, v)

/-- **No old file is in the way**: if the path of the request has a file that can be loaded, either
the file is within its time to live, and the transfer it was written from was for the place, or it
will not be read back: the fetch fails, or its document replaces the file. -/
def StaysFresh (x : Platform F D) (config : WeatherConfig) (request : Request) (w : World F D) :
    Prop :=
  ∀ lat lon path file, parseQuery x request.queryString = (0, some lat, some lon) →
    generateCacheFilepath x config true lat lon = some path → w.files path = some file →
    file.content.isSome = true →
    (Recent config request.env file.mtime → ∀ f ∈ w.fetches, Backs x config f path file →
      SamePlace x f.latitude f.longitude lat lon) ∧
    (¬ Recent config request.env file.mtime → request.env.alloc.responseFile = true →
      Fetches x request.env lat lon → config.useCache = true ∧ request.env.saved = true)

/-- What was loaded from a document is shown when a response is built from it. -/
theorem shows_of_loadValues {now : Int64} {current units : Json D}
    (hc : d.get "current" = some current) (hu : d.get "current_units" = some units)
    (h : loadValues x now d current units (zeroed x) = .ok p.value) :
    Shows x d (enrich (buildRoot x p.value)) := by
  obtain ⟨u, hcopy, hvalue⟩ := exists_of_map h
  exact Or.inr ⟨now, current, units, u, _, _, hc, hu, hcopy, by rw [← hvalue]⟩

/-- What was parsed from a document is shown when a response is built from it. -/
theorem shows_of_parseWeatherJson {now : Int64} {body : List Byte} {v : WeatherData F D}
    (hd : x.loadb body = some d)
    (h : parseWeatherJson x now body (zeroed x) lat lon = .ok (0, v))
    (hvalue : p.value = { v with rawJsonCache := p.value.rawJsonCache }) :
    Shows x d (enrich (buildRoot x p.value)) := by
  obtain ⟨d', current, units, u, hd', hc, hu, hcopy, rfl⟩ := exists_of_parseWeatherJson h
  obtain rfl := Option.some.inj (hd.symm.trans hd')
  refine Or.inr ⟨now, current, units, copyNumbers x now current u, lat, lon, hc, hu, ?_, ?_⟩
  · rw [copyValues, hcopy]
    rfl
  · rw [hvalue]
    rfl

/-- An answer after a hit. -/
theorem fresh_of_hit {e : Exchange F D} (hb : Backed x config e.before)
    (hquery : parseQuery x e.request.queryString = (0, some lat, some lon))
    (hpath : generateCacheFilepath x config true lat lon = some path)
    (hstays : StaysFresh x config e.request e.before)
    (hhit : Hit x config e.request.env path p e.before w) (hcalm : Calm w e.after)
    (hroot : response x config e.request.env lat lon w.files p.value = some root) :
    Fresh x config e root := by
  obtain ⟨huse, -, ⟨file, d, current, units, hfile, hage, hcontent, hc, hu, hv⟩, hcalm'⟩ := hhit
  have hcalm'' := hcalm'.trans hcalm
  have hsome : file.content.isSome = true := by rw [hcontent]; rfl
  have hrecent : Recent config e.request.env file.mtime := ⟨huse, hage⟩
  obtain ⟨f, hf, hbacks⟩ := hb path file hfile hsome
  obtain ⟨d', hcontent', hgot⟩ := hbacks.document
  obtain rfl := Option.some.inj (hcontent.symm.trans hcontent')
  have hplace := (hstays lat lon path file hquery hpath hfile hsome).1 hrecent f hf hbacks
  refine ⟨lat, lon, f, d, hquery, hcalm''.fetches ▸ hf, hplace, hgot, ?_,
    Or.inr (hbacks.time ▸ hrecent), ?_⟩
  · obtain ⟨-, ⟨d', hsaved, rfl⟩ | ⟨-, rfl⟩⟩ := of_response hroot
    · rw [savedDocument_eq hpath, hcalm'.files, hfile] at hsaved
      split at hsaved
      · rw [Option.bind_some, hcontent] at hsaved
        obtain rfl := Option.some.inj hsaved
        exact Or.inl rfl
      · cases hsaved
    · exact shows_of_loadValues hc hu hv
  · rintro file' ⟨path', hpath', hfile', -⟩
    obtain rfl := Option.some.inj (hpath.symm.trans (generateCacheFilepath_of_some hpath').2)
    rw [hcalm''.files, hfile] at hfile'
    obtain rfl := Option.some.inj hfile'
    exact Or.inl hrecent

/-- An answer after a fetch. -/
theorem fresh_of_fetched {e : Exchange F D}
    (hquery : parseQuery x e.request.queryString = (0, some lat, some lon))
    (hgenerated : generateCacheFilepath x config e.request.env.alloc.cacheFile lat lon = some path)
    (hstays : StaysFresh x config e.request e.before)
    (hstale : ¬ (config.useCache = true ∧ FileFresh config e.request.env e.before.files path))
    (hfetched : Fetched x config e.request.env lat lon path p e.before w) (hcalm : Calm w e.after)
    (hroot : response x config e.request.env lat lon w.files p.value = some root) :
    Fresh x config e root := by
  obtain ⟨halloc, ⟨body, d, v, htransfer, hd, hparse, hp, hfiles⟩, hfetches⟩ := hfetched
  have hmade := hcalm.fetches.trans hfetches
  obtain ⟨hcacheFile, hpath⟩ := generateCacheFilepath_of_some hgenerated
  -- a file that is read back is the one the fetch wrote
  have hwritten : ∀ file, e.request.env.alloc.responseFile = true → w.files path = some file →
      file.content.isSome = true →
      config.useCache = true ∧ file = ⟨some d, e.request.env.fetchedAt⟩ := by
    intro file hresponse hfile hsome
    rw [hfiles, written] at hfile
    split at hfile
    · rename_i hyes
      rw [Function.update_self] at hfile
      exact ⟨(Bool.and_eq_true_iff.mp hyes).1, (Option.some.inj hfile).symm⟩
    · rename_i hno
      have hold : ¬ Recent config e.request.env file.mtime := fun hrecent =>
        hstale ⟨hrecent.1, file, hfile, hrecent.2⟩
      have hyes := (hstays lat lon path file hquery hpath hfile hsome).2 hold hresponse
        ⟨⟨halloc, hcacheFile, (of_response hroot).1⟩, body, v, htransfer, hparse⟩
      exact absurd (Bool.and_eq_true_iff.mpr hyes) hno
  refine ⟨lat, lon, ⟨lat, lon, e.request.env.transfer, e.request.env.fetchedAt⟩, d, hquery,
    hmade ▸ List.mem_cons_self .., ⟨rfl, rfl⟩, ⟨body, htransfer, hd⟩, ?_, Or.inl hmade, ?_⟩
  · obtain ⟨-, ⟨d', hsaved, rfl⟩ | ⟨-, rfl⟩⟩ := of_response hroot
    · rw [savedDocument_eq hpath] at hsaved
      split at hsaved
      · rename_i hresponse
        obtain ⟨file, hfile, hcontent⟩ := Option.bind_eq_some_iff.mp hsaved
        obtain ⟨-, rfl⟩ := hwritten file hresponse hfile (by rw [hcontent]; rfl)
        obtain rfl := Option.some.inj hcontent
        exact Or.inl rfl
      · cases hsaved
    · exact shows_of_parseWeatherJson hd hparse hp
  · rintro file ⟨path', hpath', hfile, hsome⟩
    obtain ⟨hresponse, hpath''⟩ := generateCacheFilepath_of_some hpath'
    obtain rfl := Option.some.inj (hpath.symm.trans hpath'')
    rw [hcalm.files] at hfile
    obtain ⟨huse, hfile'⟩ := hwritten file hresponse hfile hsome
    exact Or.inr ⟨huse, hmade, hfile'⟩

/-- **A request that no old file is in the way of gets a fresh answer.** -/
theorem fresh_of_current (hb : Backed x config w) (hstays : StaysFresh x config request w)
    (h : current x config request.env request.queryString w = .ok (r, w'))
    (h200 : r.statusCode = 200) :
    ∃ root, r.responseJson = some (.document root) ∧
      Fresh x config ⟨request, w, r, w'⟩ root := by
  rcases of_current h with ⟨lat, lon, hquery, hat⟩ | ⟨-, h400⟩
  · obtain ⟨code, data, w₁, hget, hcalm, hanswer⟩ := exists_of_currentAt hat
    obtain ⟨rfl, p, root, rfl, hroot, hjson⟩ := hanswer h200
    refine ⟨root, hjson, ?_⟩
    rcases of_getCurrent hget with
      ⟨-, hcode, -⟩ | ⟨path, hpath, ⟨-, q, hq, hhit⟩ | ⟨hstale, ⟨-, q, hq, hfetched⟩ | ⟨hcode, -⟩⟩⟩
    · cases hcode
    · obtain rfl := Option.some.inj hq
      exact fresh_of_hit hb hquery (generateCacheFilepath_of_some hpath).2 hstays hhit hcalm hroot
    · obtain rfl := Option.some.inj hq
      exact fresh_of_fetched hquery hpath hstays hstale hfetched hcalm hroot
    · cases hcode
  · rw [h400] at h200
    cases h200

/-- **A request that an old file is in the way of gets an answer that is not fresh.** -/
theorem exists_not_fresh {text : List Byte} {v : WeatherData F D}
    (hquery : parseQuery x request.queryString = (0, some lat, some lon))
    (hpath : generateCacheFilepath x config true lat lon = some path)
    (hfile : w.files path = some file) (hcontent : file.content = some d)
    (hold : ¬ Recent config request.env file.mtime)
    (htime : file.mtime ≠ request.env.fetchedAt)
    (hkept : ¬ (config.useCache = true ∧ request.env.saved = true))
    (halloc : request.env.alloc = .all) (htransfer : request.env.transfer = .done 200 (some text))
    (hparse : parseWeatherJson x request.env.fetchedAt text (zeroed x) lat lon = .ok (0, v)) :
    ∃ w', current x config request.env request.queryString w
        = .ok (⟨0, some (.document (enrich d)), 200⟩, w') ∧
      ∀ root, ¬ Fresh x config ⟨request, w, ⟨0, some (.document (enrich d)), 200⟩, w'⟩ root := by
  obtain ⟨d', -, -, -, hd', -⟩ := exists_of_parseWeatherJson hparse
  have hmiss : ¬ (config.useCache = true ∧ FileFresh config request.env w.files path) := by
    rintro ⟨huse, file', hfile', hage⟩
    obtain rfl := Option.some.inj (hfile.symm.trans hfile')
    exact hold ⟨huse, hage⟩
  obtain ⟨r, w', u, root, hcurrent, hroot, rfl, hfiles, hfetches⟩ :=
    exists_current hquery hpath hmiss halloc htransfer hd' hparse
  have hfile' : w'.files path = some file := by
    rw [hfiles, written, if_neg fun hyes => hkept (Bool.and_eq_true_iff.mp hyes), hfile]
  have hresponse : request.env.alloc.responseFile = true := by rw [halloc]; rfl
  obtain rfl : root = enrich d := by
    have hsaved : savedDocument x config request.env lat lon w'.files = some d := by
      rw [savedDocument_eq hpath, if_pos hresponse, hfile', Option.bind_some, hcontent]
    rw [response, hsaved] at hroot
    exact (dumps_eq_some_iff.mp hroot).2.symm
  refine ⟨w', hcurrent, ?_⟩
  rintro root ⟨lat', lon', f, d₁, hquery', -, -, -, -, -, hread⟩
  obtain ⟨rfl, rfl⟩ : lat = lat' ∧ lon = lon' := by
    simpa using hquery.symm.trans hquery'
  have hpath' : generateCacheFilepath x config request.env.alloc.responseFile lat lon
      = some path := by
    rw [hresponse]
    exact hpath
  rcases hread file ⟨path, hpath', hfile', by rw [hcontent]; rfl⟩ with
    hrecent | ⟨-, hmade, hwritten⟩
  · exact hold hrecent
  · rw [hfetches] at hmade
    obtain rfl := (List.cons.inj hmade).1
    exact htime (congrArg File.mtime hwritten)

/-! ## Every run -/

/-- **Freshness**: in a run out of a cache directory that is backed, if no old file is in the way of
any request, every answer with a document is fresh. -/
theorem freshness {exchanges : List (Exchange F D)} (hw : Backed x config w)
    (hrun : run x config requests w = .ok (w', exchanges))
    (hstays : ∀ earlier request later t es, requests = earlier ++ request :: later →
      run x config earlier w = .ok (t, es) → StaysFresh x config request t) :
    ∀ e ∈ exchanges, e.handled.statusCode = 200 →
      ∃ root, e.handled.responseJson = some (.document root) ∧ Fresh x config e root := by
  intro e he h200
  obtain ⟨earlier, request, later, t, t', es, es', hsplit, hearlier, hstep, hmem⟩ :=
    Trace.exists_of_mem_events hrun he
  obtain ⟨⟨r, u⟩, hcurrent, hu⟩ := exists_of_map hstep
  obtain ⟨-, rfl⟩ := Prod.ext_iff.mp hu
  obtain rfl := List.mem_singleton.mp hmem
  exact fresh_of_current (hw.of_run hearlier) (hstays _ _ _ _ _ hsplit hearlier) hcurrent h200

/-! ## A day with two requests -/

/-- The text of a later document. -/
def laterText : List Byte :=
  [ "\x7b\"latitude\":59.25,\"longitude\":18.0,",
    "\"current_units\":\x7b\"temperature_2m\":\"°C\"\x7d,",
    "\"current\":\x7b\"temperature_2m\":7.5\x7d\x7d" ].flatMap bytes

/-- The later document. -/
def laterWeather : Json ℚ :=
  .object [("latitude", .real 59.25), ("longitude", .real 18),
    ("current_units", .object [("temperature_2m", .string "°C")]),
    ("current", .object [("temperature_2m", .real 7.5)])]

/-- The platform that reads the two documents. -/
def dayPlatform : Platform ℚ ℚ :=
  exactPlatform (fun _ => bytes "f134ae816459c75fbef55cbcf3616c0b")
    [(nearText, upstream 59.25 18), (laterText, laterWeather)]

/-- A request for `59.25, 18.0` at a time, whose transfer ends with `text`. -/
def requestAt (time : Int64) (text : List Byte) (saved : Bool) : Request :=
  ⟨bytes "lat=59.25&lon=18.0", ⟨time, time, time, .done 200 (some text), saved, .all⟩⟩

theorem parseQuery_requestAt (time : Int64) (text : List Byte) (saved : Bool) :
    parseQuery dayPlatform (requestAt time text saved).queryString
      = (0, some 59.25, some 18) := by
  change parseQuery dayPlatform (bytes "lat=59.25&lon=18.0") = _
  decide +kernel

theorem generateCacheFilepath_day :
    generateCacheFilepath dayPlatform handlerConfig true 59.25 18 = some savingPath.value := by
  decide +kernel

theorem loadb_nearText_day : dayPlatform.loadb nearText = some (upstream 59.25 18) := by
  simp [dayPlatform, exactPlatform]

theorem loadb_laterText : dayPlatform.loadb laterText = some laterWeather := by
  have hne : (laterText == nearText) = false := by decide +kernel
  simp [dayPlatform, exactPlatform, List.lookup_cons, hne]

theorem exists_parse_day {text : List Byte} {d current units : Json ℚ} {u : WeatherData ℚ ℚ}
    (now : Int64) (hd : dayPlatform.loadb text = some d) (hc : d.get "current" = some current)
    (hu : d.get "current_units" = some units)
    (hcopy : copyUnits units (zeroed dayPlatform) = .ok u) :
    ∃ v, parseWeatherJson dayPlatform now text (zeroed dayPlatform) 59.25 18 = .ok (0, v) := by
  rw [parseWeatherJson, hd]
  simp only [hc, hu]
  rw [copyValues, hcopy]
  exact ⟨_, rfl⟩

/-- The first request fetches a document and writes it. -/
theorem exists_first : ∃ r w₁,
    step dayPlatform handlerConfig (requestAt 0 nearText true) emptyWorld
      = .ok (w₁, [⟨requestAt 0 nearText true, emptyWorld, r, w₁⟩]) ∧
    w₁.files savingPath.value = some ⟨some (upstream 59.25 18), 0⟩ := by
  obtain ⟨v, hparse⟩ := exists_parse_day 0 loadb_nearText_day rfl rfl rfl
  have hmiss : ¬ (handlerConfig.useCache = true ∧ FileFresh handlerConfig
      (requestAt 0 nearText true).env (emptyWorld : World ℚ ℚ).files savingPath.value) := by
    rintro ⟨-, file, hfile, -⟩
    cases hfile
  obtain ⟨r, w₁, u, root, hcurrent, -, -, hfiles, -⟩ := exists_current
    (parseQuery_requestAt 0 nearText true) generateCacheFilepath_day hmiss rfl rfl
    loadb_nearText_day hparse
  exact ⟨r, w₁, step_of_current hcurrent, by rw [hfiles]; rfl⟩

/-- After a thousand seconds the file is old. -/
theorem not_recent_later (saved : Bool) :
    ¬ Recent handlerConfig (requestAt 1000 laterText saved).env 0 := by
  rintro ⟨-, hage⟩
  have hage' : (1000 : Int64).toInt - (0 : Int64).toInt ≤ handlerConfig.cacheTtl.toInt := hage
  exact absurd hage' (by decide)

/-- The later document is served when it could be written. -/
theorem freshness_refreshed : ∃ w₂ e₁ e₂,
    run dayPlatform handlerConfig [requestAt 0 nearText true, requestAt 1000 laterText true]
      emptyWorld = .ok (w₂, [e₁, e₂]) ∧ e₂.handled.statusCode = 200 ∧
    ∃ root, e₂.handled.responseJson = some (.document root) ∧
      Fresh dayPlatform handlerConfig e₂ root := by
  obtain ⟨r₁, w₁, hfirst, hfile⟩ := exists_first
  obtain ⟨v, hparse⟩ := exists_parse_day 1000 loadb_laterText rfl rfl rfl
  have hmiss : ¬ (handlerConfig.useCache = true ∧ FileFresh handlerConfig
      (requestAt 1000 laterText true).env w₁.files savingPath.value) := by
    rintro ⟨huse, file, hfile', hage⟩
    obtain rfl := Option.some.inj (hfile.symm.trans hfile')
    exact not_recent_later true ⟨huse, hage⟩
  obtain ⟨r₂, w₂, u, root, hcurrent, -, rfl, -⟩ := exists_current
    (parseQuery_requestAt 1000 laterText true) generateCacheFilepath_day hmiss rfl rfl
    loadb_laterText hparse
  have hone := Trace.run_concat (Trace.run_nil emptyWorld) hfirst
  have hrun := Trace.run_concat hone (step_of_current hcurrent)
  refine ⟨w₂, _, _, hrun, rfl, ?_⟩
  refine freshness (backed_of_no_files fun _ => rfl) hrun ?_ _ (List.mem_cons_of_mem _
    (List.mem_singleton_self _)) rfl
  intro earlier request later t es hsplit hearlier
  rcases earlier with _ | ⟨i, _ | ⟨j, earlier⟩⟩
  · -- the first request finds no file
    obtain ⟨rfl, -⟩ := Prod.ext_iff.mp (Except.ok.inj hearlier)
    intro lat lon path file _ _ hfile'
    cases hfile'
  · -- the second replaces the file it finds
    obtain ⟨rfl, rfl, -⟩ : requestAt 0 nearText true = i ∧ requestAt 1000 laterText true = request ∧
      later = [] := by simpa using hsplit
    obtain ⟨rfl, -⟩ := Prod.ext_iff.mp (Except.ok.inj (hone.symm.trans hearlier))
    intro lat lon path file hquery hpath hfile' _
    cases (parseQuery_requestAt 1000 laterText true).symm.trans hquery
    cases generateCacheFilepath_day.symm.trans hpath
    cases hfile.symm.trans hfile'
    exact ⟨fun hrecent => absurd hrecent (not_recent_later true), fun _ _ _ => ⟨rfl, rfl⟩⟩
  · have hlength := congrArg List.length hsplit
    simp at hlength

/-- The expired file is served when the later document could not be written. -/
theorem expired_file_served : ∃ w₂ e₁ e₂,
    run dayPlatform handlerConfig [requestAt 0 nearText true, requestAt 1000 laterText false]
      emptyWorld = .ok (w₂, [e₁, e₂]) ∧ e₂.handled.statusCode = 200 ∧
    e₂.handled.responseJson = some (.document (enrich (upstream 59.25 18))) ∧
    ∀ root, ¬ Fresh dayPlatform handlerConfig e₂ root := by
  obtain ⟨r₁, w₁, hfirst, hfile⟩ := exists_first
  obtain ⟨v, hparse⟩ := exists_parse_day 1000 loadb_laterText rfl rfl rfl
  obtain ⟨w₂, hcurrent, hstale⟩ := exists_not_fresh (parseQuery_requestAt 1000 laterText false)
    generateCacheFilepath_day hfile rfl (not_recent_later false) (by decide)
    (fun h => Bool.false_ne_true h.2) rfl rfl hparse
  exact ⟨w₂, _, _, Trace.run_concat (Trace.run_concat (Trace.run_nil emptyWorld) hfirst)
    (step_of_current hcurrent), rfl, rfl, hstale⟩

end OpenMeteoHandler
