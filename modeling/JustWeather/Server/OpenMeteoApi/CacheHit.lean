import JustWeather.Server.OpenMeteoApi.Worlds

/-!
# Server/OpenMeteoApi/CacheHit — a document read off the network and off the cache

`parse_weather_json` and `load_weather_from_cache` copy the same values out of a document, but take
the location from different places: the one from the request, the other from the document.  So a hit
agrees with the fetch that filled the cache exactly when the document names the coordinates that
were asked for (`cache_hit_iff`).
-/

open CLib Fallible

namespace OpenMeteoApi

variable {F D : Type} {x : Platform F D} {config : WeatherConfig} {env : Env} {lat lon : F}
  {text path : List Byte} {d current units : Json D} {now : Int64} {u v : WeatherData F D}
  {filepath raw : Ptr (List Byte)} {data : Option (Ptr (WeatherData F D))} {w w' : World F D}
  {file : File D}

/-- Two `WeatherData` that agree in every field but `timestamp` and `_raw_json_cache`. -/
def SameWeather (u v : WeatherData F D) : Prop :=
  { u with timestamp := v.timestamp, rawJsonCache := v.rawJsonCache } = v

/-- The coordinate `load_weather_from_cache` takes from a document: `0` if it has none. -/
def documentCoordinate (x : Platform F D) (d : Json D) (key : String) : F :=
  copyCoordinate x d key x.zeroF

/-! ## The same document, read twice -/

/-- What `load_weather_from_cache` makes of a document whose units can be copied. -/
def loaded (x : Platform F D) (now : Int64) (d current : Json D) (u : WeatherData F D) :
    WeatherData F D :=
  { copyNumbers x now current u with
    latitude := documentCoordinate x d "latitude"
    longitude := documentCoordinate x d "longitude"
    cityName :=
      cityName x (documentCoordinate x d "latitude") (documentCoordinate x d "longitude") }

theorem loadValues_eq (h : copyUnits units (zeroed x) = .ok u) (now : Int64) (d current : Json D) :
    loadValues x now d current units (zeroed x) = .ok (loaded x now d current u) := by
  obtain ⟨_, _, _, _, -, -, -, -, rfl⟩ := exists_of_copyUnits h
  rw [loadValues, copyValues, h]
  rfl

/-- **What was loaded is what was parsed** exactly when the coordinates are. -/
theorem sameWeather_loaded_iff (now' : Int64) :
    SameWeather (loaded x now' d current u) { copyNumbers x now current u with
      latitude := lat, longitude := lon, cityName := cityName x lat lon } ↔
    documentCoordinate x d "latitude" = lat ∧ documentCoordinate x d "longitude" = lon := by
  constructor
  · intro h
    exact ⟨congrArg WeatherData.latitude h, congrArg WeatherData.longitude h⟩
  · rintro ⟨hlat, hlon⟩
    simp only [SameWeather, loaded, hlat, hlon]
    rfl

/-! ## The hit -/

/-- A document that is accepted is loaded. -/
theorem loadWeatherFromCache_eq (data : Option (Ptr (WeatherData F D)))
    (hlive : Heap.Live filepath w.heap) (hfile : w.files filepath.value = some file)
    (hroot : file.content = some d) (hc : d.get "current" = some current)
    (hu : d.get "current_units" = some units) (hcopy : copyUnits units (zeroed x) = .ok u)
    (halloc : env.alloc.loaded = true) :
    loadWeatherFromCache x env filepath data w
      = .ok ((0, some ⟨w.heap.size, loaded x env.loadedAt d current u⟩),
        { w with heap := (w.heap.alloc (zeroed x)).2 }) := by
  have hload : loadFile filepath w = .ok (some d, w) := by
    rw [loadFile, bind_of_ok (deref_of_live hlive)]
    change Except.ok ((w.files filepath.value).bind File.content, w) = _
    rw [hfile, Option.bind_some, hroot]
  rw [loadWeatherFromCache, bind_of_ok hload]
  dsimp only
  rw [if_pos halloc]
  have hmalloc : malloc (zeroed x) w = .ok (⟨w.heap.size, zeroed x⟩,
    { w with heap := (w.heap.alloc (zeroed x)).2 }) := rfl
  rw [bind_of_ok hmalloc, hc, hu]
  dsimp only
  rw [loadValues_eq hcopy]
  rfl

/-- **A fresh file is a hit**, and what it gives is what the document says. -/
theorem getCurrent_eq_of_hit (data : Option (Ptr (WeatherData F D)))
    (huse : config.useCache = true)
    (hpath : generateCacheFilepath x config env.alloc.cacheFile lat lon = some path)
    (hfile : w.files path = some file)
    (hage : env.checkedAt.toInt - file.mtime.toInt ≤ config.cacheTtl.toInt)
    (hroot : file.content = some d) (hc : d.get "current" = some current)
    (hu : d.get "current_units" = some units) (hcopy : copyUnits units (zeroed x) = .ok u)
    (halloc : env.alloc.loaded = true) :
    ∃ p w', getCurrent x config env lat lon data w = .ok ((0, some p), w') ∧
      p.value = loaded x env.loadedAt d current u ∧ w'.fetches = w.fetches := by
  have hmalloc : malloc path w = .ok ((w.heap.alloc path).1,
    { w with heap := (w.heap.alloc path).2 }) := rfl
  have hlive := Heap.live_alloc path w.heap
  have hfile' : ({ w with heap := (w.heap.alloc path).2 } : World F D).files
      (w.heap.alloc path).1.value = some file := hfile
  have hvalid := useCacheFile_of_fresh huse hlive hfile' hage
  have hload : loadWeatherFromCache x env (w.heap.alloc path).1 data _ = _ :=
    loadWeatherFromCache_eq _ hlive hfile' hroot hc hu hcopy halloc
  obtain ⟨heap, -, hfree⟩ := free_of_live (w := { w with
    heap := ((w.heap.alloc path).2.alloc (zeroed x)).2 }) (hlive.alloc (zeroed x))
  rw [getCurrent, hpath]
  dsimp only
  rw [bind_of_ok hmalloc, bind_of_ok hvalid]
  simp only [if_true]
  rw [bind_of_ok hload, bind_of_ok hfree]
  exact ⟨_, _, rfl, rfl, rfl⟩

/-! ## The hit and the fetch -/

/-- The document names the coordinates that were asked for; one it does not name counts as `0`. -/
def NamesCoordinates (x : Platform F D) (d : Json D) (lat lon : F) : Prop :=
  documentCoordinate x d "latitude" = lat ∧ documentCoordinate x d "longitude" = lon

/-- A save that reports success leaves the document at the path. -/
theorem file_of_save {saving : Env} (hd : x.loadb raw.value = some d)
    (hsave : saveRawJsonToCache x saving filepath raw w = .ok (0, w')) :
    Heap.Live filepath w'.heap ∧ w'.files filepath.value = some ⟨some d, saving.fetchedAt⟩ := by
  obtain ⟨hlive, hcode, rfl⟩ := of_saveRawJsonToCache hd hsave
  refine ⟨hlive, ?_⟩
  simp [hcode.mp rfl]

/-- **A hit agrees with the fetch that filled the cache exactly when the document names the
coordinates that were asked for** and there is memory for what is loaded, whether the file is loaded
as such or through `open_meteo_api_get_current`. -/
theorem cache_hit_iff (x : Platform F D) (saving env : Env) (hd : x.loadb raw.value = some d)
    (hparse : parseWeatherJson x now raw.value (zeroed x) lat lon = .ok (0, v))
    (hsave : saveRawJsonToCache x saving filepath raw w = .ok (0, w'))
    (data : Option (Ptr (WeatherData F D))) :
    ((∃ p w'', loadWeatherFromCache x env filepath data w' = .ok ((0, some p), w'') ∧
        SameWeather p.value v) ↔ env.alloc.loaded = true ∧ NamesCoordinates x d lat lon) ∧
    ∀ config : WeatherConfig, config.useCache = true →
      generateCacheFilepath x config env.alloc.cacheFile lat lon = some filepath.value →
      env.checkedAt.toInt - saving.fetchedAt.toInt ≤ config.cacheTtl.toInt →
      ((∃ p w'', getCurrent x config env lat lon data w' = .ok ((0, some p), w'') ∧
        SameWeather p.value v) ↔ env.alloc.loaded = true ∧ NamesCoordinates x d lat lon) := by
  obtain ⟨d', current, units, u, hd', hc, hu, hcopy, rfl⟩ := exists_of_parseWeatherJson hparse
  obtain rfl := Option.some.inj (hd.symm.trans hd')
  obtain ⟨hlive, hfile⟩ := file_of_save hd hsave
  refine ⟨⟨?_, ?_⟩, fun config huse hpath hage => ⟨?_, ?_⟩⟩
  · rintro ⟨p, w'', hload, hsame⟩
    have halloc := (of_loadWeatherFromCache hload).1
    have hload' := loadWeatherFromCache_eq data hlive hfile rfl hc hu hcopy halloc
    cases hload.symm.trans hload'
    exact ⟨halloc, (sameWeather_loaded_iff _).mp hsame⟩
  · rintro ⟨halloc, hnames⟩
    exact ⟨_, _, loadWeatherFromCache_eq _ hlive hfile rfl hc hu hcopy halloc,
      (sameWeather_loaded_iff _).mpr hnames⟩
  · rintro ⟨p, w'', hget, hsame⟩
    have halloc : env.alloc.loaded = true := by
      rcases of_getCurrent hget with ⟨hnone, -⟩ | ⟨path, hpath', ⟨-, q, -, hhit⟩ | ⟨hstale, -⟩⟩
      · cases hpath.symm.trans hnone
      · exact hhit.alloc
      · obtain rfl := Option.some.inj (hpath.symm.trans hpath')
        exact absurd ⟨huse, _, hfile, hage⟩ hstale
    obtain ⟨q, w₁, hget', hq, -⟩ :=
      getCurrent_eq_of_hit data huse hpath hfile hage rfl hc hu hcopy halloc
    cases hget.symm.trans hget'
    rw [hq] at hsame
    exact ⟨halloc, (sameWeather_loaded_iff _).mp hsame⟩
  · rintro ⟨halloc, hnames⟩
    obtain ⟨p, w'', hget, hp, -⟩ :=
      getCurrent_eq_of_hit _ huse hpath hfile hage rfl hc hu hcopy halloc
    exact ⟨p, w'', hget, by rw [hp]; exact (sameWeather_loaded_iff _).mpr hnames⟩

/-! ## A document of the grid -/

/-- A document of the upstream service, at its own coordinates. -/
def upstream (lat lon : ℚ) : Json ℚ :=
  .object [("latitude", .real lat), ("longitude", .real lon),
    ("current_units", .object [("temperature_2m", .string "°C")]),
    ("current", .object [("temperature_2m", .real 2.5)])]

/-- Its text, where the grid has a point at the requested coordinates. -/
def nearText : List Byte :=
  [ "\x7b\"latitude\":59.25,\"longitude\":18.0,",
    "\"current_units\":\x7b\"temperature_2m\":\"°C\"\x7d,",
    "\"current\":\x7b\"temperature_2m\":2.5\x7d\x7d" ].flatMap bytes

/-- Its text, where the nearest point of the grid is a little off. -/
def gridText : List Byte :=
  [ "\x7b\"latitude\":59.265625,\"longitude\":18.015625,",
    "\"current_units\":\x7b\"temperature_2m\":\"°C\"\x7d,",
    "\"current\":\x7b\"temperature_2m\":2.5\x7d\x7d" ].flatMap bytes

/-- The platform that reads the two, and hashes the key of `59.25, 18.0`. -/
def upstreamPlatform : Platform ℚ ℚ :=
  exactPlatform (fun _ => bytes "f134ae816459c75fbef55cbcf3616c0b")
    [(nearText, upstream 59.25 18), (gridText, upstream 59.265625 18.015625)]

/-- A request for which everything goes well, with a transfer that ends with `text`. -/
def calmEnv (text : List Byte) : Env := ⟨0, 0, 0, .done 200 (some text), true, .all⟩

/-- A world with a path, a text and a `WeatherData` in its heap. -/
def savingWorld : World ℚ ℚ := ⟨⟨3, [], by simp⟩, fun _ => none, []⟩

/-- The path of the cache file, and a text to save there. -/
def savingPath : Ptr (List Byte) := ⟨0, bytes "./cache//f134ae816459c75fbef55cbcf3616c0b.json"⟩

theorem loadb_nearText : upstreamPlatform.loadb nearText = some (upstream 59.25 18) := by
  simp [upstreamPlatform, exactPlatform]

theorem loadb_gridText :
    upstreamPlatform.loadb gridText = some (upstream 59.265625 18.015625) := by
  have hne : (gridText == nearText) = false := by decide +kernel
  simp [upstreamPlatform, exactPlatform, List.lookup_cons, hne]

/-- The world after the document was saved there. -/
def savedWorld (d : Json ℚ) : World ℚ ℚ :=
  { savingWorld with
    files := Function.update savingWorld.files savingPath.value (some ⟨some d, 0⟩) }

theorem save_text {y : Platform ℚ ℚ} {d : Json ℚ} (h : y.loadb text = some d) :
    saveRawJsonToCache y (calmEnv text) savingPath ⟨1, text⟩ savingWorld
      = .ok (0, savedWorld d) :=
  saveRawJsonToCache_eq ⟨Nat.lt_add_of_pos_right Nat.two_pos, List.not_mem_nil⟩ h (by decide) rfl

theorem parse_upstream {a b : ℚ} (h : upstreamPlatform.loadb text = some (upstream a b)) :
    ∃ v, parseWeatherJson upstreamPlatform 0 text (zeroed upstreamPlatform) 59.25 18
      = .ok (0, v) := by
  rw [parseWeatherJson, h]
  exact ⟨_, rfl⟩

/-- On a point of the grid a hit gives what the fetch gave. -/
theorem cache_hit_near : ∃ v w' p w'',
    parseWeatherJson upstreamPlatform 0 nearText (zeroed upstreamPlatform) 59.25 18 = .ok (0, v) ∧
    saveRawJsonToCache upstreamPlatform (calmEnv nearText) savingPath ⟨1, nearText⟩ savingWorld
      = .ok (0, w') ∧
    loadWeatherFromCache upstreamPlatform (calmEnv nearText) savingPath none w'
      = .ok ((0, some p), w'') ∧ SameWeather p.value v := by
  obtain ⟨v, hparse⟩ := parse_upstream loadb_nearText
  have hsave := save_text loadb_nearText
  obtain ⟨p, w'', hload, hsame⟩ := (cache_hit_iff upstreamPlatform (calmEnv nearText)
    (calmEnv nearText) loadb_nearText hparse hsave none).1.mpr ⟨rfl, rfl, rfl⟩
  exact ⟨v, _, p, w'', hparse, hsave, hload, hsame⟩

/-- Off the grid it gives another place. -/
theorem cache_hit_off_grid : ∃ v w' p w'',
    parseWeatherJson upstreamPlatform 0 gridText (zeroed upstreamPlatform) 59.25 18 = .ok (0, v) ∧
    saveRawJsonToCache upstreamPlatform (calmEnv gridText) savingPath ⟨1, gridText⟩ savingWorld
      = .ok (0, w') ∧
    loadWeatherFromCache upstreamPlatform (calmEnv gridText) savingPath none w'
      = .ok ((0, some p), w'') ∧ ¬ SameWeather p.value v := by
  obtain ⟨v, hparse⟩ := parse_upstream loadb_gridText
  have hsave := save_text loadb_gridText
  obtain ⟨hlive, hfile⟩ := file_of_save loadb_gridText hsave
  obtain ⟨d, current, units, u, hd, hc, hu, hcopy, rfl⟩ := exists_of_parseWeatherJson hparse
  obtain rfl := Option.some.inj (loadb_gridText.symm.trans hd)
  refine ⟨_, _, _, _, hparse, hsave,
    loadWeatherFromCache_eq _ hlive hfile rfl hc hu hcopy rfl, fun hsame => ?_⟩
  have hlat : (59.265625 : ℚ) = 59.25 := ((sameWeather_loaded_iff 0).mp hsame).1
  norm_num at hlat

end OpenMeteoApi
