import JustWeather.CLib.Heap
import JustWeather.CLib.Jansson
import JustWeather.CLib.Scanf
import JustWeather.Machinery.Fallible
import Mathlib.Algebra.Order.Field.Rat

/-!
# Server/OpenMeteoApi — the weather, its cache and the JSON it is answered with

`open_meteo_api.c` over a world of files, heap blocks and transfers.  What it takes from outside is
a `Platform`, and what the environment does while one request is handled an `Env`.  A function of
the source is a computation of `Api`: it can change the world, and it can fault.
-/

open CLib

/-- What the code takes from outside: the two floating point types, of which `0.0` is finite, `%.nf`
and `atof`, and the JSON value of a text.  Any hash may stand for `hash_md5_string`, whose own is
`HashMd5.md5String` (`hashed`). -/
structure Platform (F D : Type) where
  zeroF : F
  zero : D
  narrow : D → F
  widen : F → D
  finite : D → Bool
  finite_zero : finite zero = true
  decimals : ℕ → D → List Byte
  atof : List Byte → D
  md5 : List Byte → List Byte
  loadb : List Byte → Option (Json D)

/-- `WeatherData`.  A `char` array is the C string in it. -/
structure WeatherData (F D : Type) where
  timestamp : Int64
  weatherCode : Int32
  temperature : D
  temperatureUnit : List Byte
  windspeed : D
  windspeedUnit : List Byte
  winddirection : Int32
  winddirectionUnit : List Byte
  precipitation : D
  precipitationUnit : List Byte
  humidity : D
  pressure : D
  isDay : Int32
  cityName : List Byte
  latitude : F
  longitude : F
  rawJsonCache : Option (Ptr (List Byte))

/-- `WeatherConfig`. -/
structure WeatherConfig where
  cacheDir : List Byte
  cacheTtl : Int32
  useCache : Bool

/-- A file of the cache: the JSON value of its text, if it is one, and `st_mtime`. -/
structure File (D : Type) where
  content : Option (Json D)
  mtime : Int64

/-- How a transfer ends: `curl_easy_perform` fails, or there is a response, with the C string
`write_callback` collected if it was called. -/
inductive Transfer
  | failed
  | done (httpCode : ℤ) (body : Option (List Byte))

/-- A transfer that was made: the coordinates it asked for, how it ended, and when. -/
structure Fetch (F : Type) where
  latitude : F
  longitude : F
  transfer : Transfer
  time : Int64

/-- Which allocations of one request succeed: the two paths of the cache file, the two
`WeatherData`, the URL, the curl handle, the two objects of a built response, and the texts of a
response and of an error. -/
structure ApiAlloc where
  cacheFile : Bool
  responseFile : Bool
  loaded : Bool
  fetched : Bool
  url : Bool
  curl : Bool
  root : Bool
  current : Bool
  dumped : Bool
  error : Bool
  deriving DecidableEq

/-- Every allocation succeeds. -/
def ApiAlloc.all : ApiAlloc := ⟨true, true, true, true, true, true, true, true, true, true⟩

/-- What the environment does during one request: the clock when the cache file is checked, when it
is loaded, and when a transfer ends and its document is written; how the transfer ends; whether the
document can be written; and which allocations succeed. -/
structure Env where
  checkedAt : Int64
  loadedAt : Int64
  fetchedAt : Int64
  transfer : Transfer
  saved : Bool
  alloc : ApiAlloc

/-- The state the functions work on, and the transfers made so far.  The heap has the blocks that
they release themselves: the cache paths, the URLs, the documents received and `WeatherData`; the
text that is handed out as the response, the JSON values and the curl handle are no part of it. -/
structure World (F D : Type) where
  heap : Heap
  files : List Byte → Option (File D)
  fetches : List (Fetch F)

/-- A computation on the world that can fault. -/
abbrev Api (F D : Type) := StateT (World F D) (Except Fault)

namespace OpenMeteoApi

variable {F D : Type} (x : Platform F D) (config : WeatherConfig) (env : Env)

/-! ## Blocks -/

/-- `malloc` or `calloc`. -/
def malloc {α : Type} (a : α) : Api F D (Ptr α) := fun w =>
  .ok ((w.heap.alloc a).1, { w with heap := (w.heap.alloc a).2 })

/-- An access to a block. -/
def deref {α : Type} (p : Ptr α) : Api F D α := fun w => (w.heap.use p).map fun a => (a, w)

/-- `free`. -/
def free {α : Type} (p : Ptr α) : Api F D Unit := fun w =>
  (w.heap.free p).map fun heap => ((), { w with heap := heap })

/-- `if (p) free(p)`. -/
def freeOption {α : Type} : Option (Ptr α) → Api F D Unit
  | none => pure ()
  | some p => free p

section Blocks

variable {α : Type} {a : α} {p : Ptr α} {w w' : World F D}

theorem deref_of_live (h : Heap.Live p w.heap) : deref p w = .ok (p.value, w) := by
  rw [deref, Heap.use, if_pos h]
  rfl

theorem of_deref (h : deref p w = .ok (a, w')) : Heap.Live p w.heap ∧ a = p.value ∧ w' = w := by
  by_cases hlive : Heap.Live p w.heap
  · cases (deref_of_live hlive).symm.trans h
    exact ⟨hlive, rfl, rfl⟩
  · rw [deref, Heap.use, if_neg hlive] at h
    cases h

/-- What `free` changes: the heap, in which the block is no longer live. -/
theorem of_free {u : Unit} (h : free p w = .ok (u, w')) :
    Heap.Live p w.heap ∧ w.heap.free p = .ok w'.heap ∧ w' = { w with heap := w'.heap } := by
  obtain ⟨heap, hfree, hw⟩ := Fallible.exists_of_map h
  obtain ⟨-, rfl⟩ := Prod.ext_iff.mp hw
  refine ⟨?_, hfree, rfl⟩
  by_contra hlive
  rw [Heap.free, dif_neg hlive] at hfree
  cases hfree

theorem free_of_live (h : Heap.Live p w.heap) :
    ∃ heap, w.heap.free p = .ok heap ∧ free p w = .ok ((), { w with heap := heap }) := by
  rw [free, Heap.free, dif_pos h]
  exact ⟨_, rfl, rfl⟩

end Blocks

/-! ## Names -/

/-- `open_meteo_api_get_city_name`, into 128 bytes. -/
def cityName (lat lon : F) : List Byte :=
  (snprintf 128 (bytes "Location (" ++ x.decimals 4 (x.widen lat) ++ bytes ", " ++
    x.decimals 4 (x.widen lon) ++ bytes ")")).1

/-- `weather_descriptions`, without the last entry. -/
def weatherDescriptions : List (ℤ × String) :=
  [(0, "Clear sky"), (1, "Mainly clear"), (2, "Partly cloudy"), (3, "Overcast"), (45, "Fog"),
    (48, "Depositing rime fog"), (51, "Light drizzle"), (53, "Moderate drizzle"),
    (55, "Dense drizzle"), (61, "Slight rain"), (63, "Moderate rain"), (65, "Heavy rain"),
    (71, "Slight snow"), (73, "Moderate snow"), (75, "Heavy snow"), (77, "Snow grains"),
    (80, "Slight rain showers"), (81, "Moderate rain showers"), (82, "Violent rain showers"),
    (85, "Slight snow showers"), (86, "Heavy snow showers"), (95, "Thunderstorm"),
    (96, "Thunderstorm with slight hail"), (99, "Thunderstorm with heavy hail")]

/-- `open_meteo_api_get_description`. -/
def getDescription (weatherCode : Int32) : String :=
  (weatherDescriptions.lookup weatherCode.toInt).getD "Unknown"

/-- `get_wind_direction_name`. -/
def getWindDirectionName (degrees : Int32) : String :=
  let degrees := degrees.toInt.tmod 360
  let degrees : ℚ := if degrees < 0 then degrees + 360 else degrees
  if 348.75 ≤ degrees ∨ degrees < 11.25 then "North"
  else if degrees < 33.75 then "North-Northeast"
  else if degrees < 56.25 then "Northeast"
  else if degrees < 78.75 then "East-Northeast"
  else if degrees < 101.25 then "East"
  else if degrees < 123.75 then "East-Southeast"
  else if degrees < 146.25 then "Southeast"
  else if degrees < 168.75 then " South-Southeast"
  else if degrees < 191.25 then "South"
  else if degrees < 213.75 then "South-Southwest"
  else if degrees < 236.25 then "Southwest"
  else if degrees < 258.75 then "West-Southwest"
  else if degrees < 281.25 then "West"
  else if degrees < 303.75 then "North-Northwest"
  else if degrees < 326.25 then "Northwest"
  else "North-Northwest"

/-! ## The cache file -/

/-- `generate_cache_filepath`; `alloc` is whether the 512 bytes are there. -/
def generateCacheFilepath (alloc : Bool) (lat lon : F) : Option (List Byte) :=
  let (cacheKey, keyLen) := snprintf 256 (bytes "weather_" ++ x.decimals 6 (x.widen lat) ++
    bytes "_" ++ x.decimals 6 (x.widen lon))
  if 256 ≤ keyLen then none
  else if alloc then
    some (snprintf 512 (config.cacheDir ++ bytes "/" ++ x.md5 cacheKey ++ bytes ".json")).1
  else none

/-- `is_cache_valid`. -/
def isCacheValid (filepath : Ptr (List Byte)) : Api F D Bool := do
  let path ← deref filepath
  match (← get).files path with
  | none => return false
  | some file => return !decide (config.cacheTtl.toInt < env.checkedAt.toInt - file.mtime.toInt)

/-- `g_config.use_cache && is_cache_valid(cache_file, g_config.cache_ttl)`. -/
def useCacheFile (filepath : Ptr (List Byte)) : Api F D Bool :=
  if config.useCache then isCacheValid config env filepath else pure false

/-- `json_load_file`. -/
def loadFile (filepath : Ptr (List Byte)) : Api F D (Option (Json D)) := do
  let path ← deref filepath
  return ((← get).files path).bind File.content

/-- `save_raw_json_to_cache`: the document replaces the file, or the write fails and the file stays
as it was. -/
def saveRawJsonToCache (filepath jsonStr : Ptr (List Byte)) : Api F D ℤ := do
  let text ← deref jsonStr
  match x.loadb text with
  | none => return -2
  | some json =>
    let path ← deref filepath
    if env.saved then
      modify fun w =>
        { w with files := Function.update w.files path (some ⟨some json, env.fetchedAt⟩) }
      return 0
    else return -3

/-! ## Reading a document -/

/-- `calloc(1, sizeof(WeatherData))`. -/
def zeroed : WeatherData F D where
  timestamp := 0
  weatherCode := 0
  temperature := x.zero
  temperatureUnit := []
  windspeed := x.zero
  windspeedUnit := []
  winddirection := 0
  winddirectionUnit := []
  precipitation := x.zero
  precipitationUnit := []
  humidity := x.zero
  pressure := x.zero
  isDay := 0
  cityName := []
  latitude := x.zeroF
  longitude := x.zeroF
  rawJsonCache := none

/-- `if (…) data->… = json_real_value(…)`. -/
def copyReal (current : Json D) (key : String) (old : D) : D :=
  match current.get key with
  | none => old
  | some value => value.realValue x.zero

/-- `if (…) data->… = json_integer_value(…)`. -/
def copyInteger (current : Json D) (key : String) (old : Int32) : Int32 :=
  match current.get key with
  | none => old
  | some value => value.integerValue.toInt32

/-- `if (…) strncpy(data->…, json_string_value(…), sizeof(data->…) - 1)`. -/
def copyUnit (units : Json D) (key : String) (old : List Byte) : Except Fault (List Byte) :=
  match units.get key with
  | none => .ok old
  | some unit =>
    match unit.stringValue with
    | none => .error .nullAccess
    | some s => .ok (strncpy 15 s)

/-- The units of `current_units`. -/
def copyUnits (units : Json D) (data : WeatherData F D) : Except Fault (WeatherData F D) := do
  let temperatureUnit ← copyUnit units "temperature_2m" data.temperatureUnit
  let windspeedUnit ← copyUnit units "wind_speed_10m" data.windspeedUnit
  let winddirectionUnit ← copyUnit units "wind_direction_10m" data.winddirectionUnit
  let precipitationUnit ← copyUnit units "precipitation" data.precipitationUnit
  return { data with
    temperatureUnit := temperatureUnit
    windspeedUnit := windspeedUnit
    winddirectionUnit := winddirectionUnit
    precipitationUnit := precipitationUnit }

/-- The numbers of `current`, and the timestamp; `now` is `time(NULL)`. -/
def copyNumbers (now : Int64) (current : Json D) (data : WeatherData F D) : WeatherData F D :=
  { data with
    temperature := copyReal x current "temperature_2m" data.temperature
    windspeed := copyReal x current "wind_speed_10m" data.windspeed
    winddirection := copyInteger current "wind_direction_10m" data.winddirection
    precipitation := copyReal x current "precipitation" data.precipitation
    humidity := copyReal x current "relative_humidity_2m" data.humidity
    pressure := copyReal x current "surface_pressure" data.pressure
    weatherCode := copyInteger current "weather_code" data.weatherCode
    isDay := copyInteger current "is_day" data.isDay
    timestamp := if (current.get "time").isSome then now else data.timestamp }

/-- The block `Extract values … Copy values … Parse timestamp`, which `load_weather_from_cache` and
`parse_weather_json` hold statement for statement. -/
def copyValues (now : Int64) (current units : Json D) (data : WeatherData F D) :
    Except Fault (WeatherData F D) :=
  (copyUnits units data).map (copyNumbers x now current)

/-- `parse_weather_json`: the code it returns, and `*data`. -/
def parseWeatherJson (now : Int64) (jsonStr : List Byte) (data : WeatherData F D) (lat lon : F) :
    Except Fault (ℤ × WeatherData F D) :=
  match x.loadb jsonStr with
  | none => .ok (-1, data)
  | some root =>
    match root.get "current", root.get "current_units" with
    | some current, some units => (copyValues x now current units data).map fun data =>
        (0, { data with latitude := lat, longitude := lon, cityName := cityName x lat lon })
    | _, _ => .ok (-2, data)

/-- `if (…) data->… = json_real_value(…)`, into a `float`. -/
def copyCoordinate (root : Json D) (key : String) (old : F) : F :=
  match root.get key with
  | none => old
  | some value => x.narrow (value.realValue x.zero)

/-- What `load_weather_from_cache` makes of a document it accepts. -/
def loadValues (now : Int64) (root current units : Json D) (data : WeatherData F D) :
    Except Fault (WeatherData F D) :=
  (copyValues x now current units data).map fun data =>
    let lat := copyCoordinate x root "latitude" data.latitude
    let lon := copyCoordinate x root "longitude" data.longitude
    { data with latitude := lat, longitude := lon, cityName := cityName x lat lon }

/-- `load_weather_from_cache`: the code it returns, and `*data`. -/
def loadWeatherFromCache (filepath : Ptr (List Byte)) (data : Option (Ptr (WeatherData F D))) :
    Api F D (ℤ × Option (Ptr (WeatherData F D))) := do
  match ← loadFile filepath with
  | none => return (-1, data)
  | some root =>
    if env.alloc.loaded then
      let data ← malloc (zeroed x)
      match root.get "current", root.get "current_units" with
      | some current, some units =>
        let value ← (loadValues x env.loadedAt root current units data.value : Except Fault _)
        return (0, some { data with value := value })
      | _, _ =>
        free data
        return (-3, some data)
    else return (-2, none)

/-! ## Fetching -/

/-- `build_api_url`, into 1024 bytes. -/
def buildApiUrl (lat lon : F) : List Byte :=
  (snprintf 1024 (bytes "https://api.open-meteo.com/v1/forecast" ++ bytes "?latitude=" ++
    x.decimals 6 (x.widen lat) ++ bytes "&longitude=" ++ x.decimals 6 (x.widen lon) ++
    [ "&current=temperature_2m,relative_humidity_2m,",
      "apparent_temperature,is_day,precipitation,weather_code,",
      "surface_pressure,wind_speed_10m,wind_direction_10m",
      "&timezone=GMT" ].flatMap bytes)).1

/-- `curl_easy_perform`, and the block of the bytes it collected. -/
def perform (url : Ptr (List Byte)) (lat lon : F) :
    Api F D (Transfer × Option (Ptr (List Byte))) := do
  let _ ← deref url
  modify fun w => { w with fetches := ⟨lat, lon, env.transfer, env.fetchedAt⟩ :: w.fetches }
  match env.transfer with
  | .done _ (some body) => return (env.transfer, some (← malloc body))
  | _ => return (env.transfer, none)

/-- The part of `fetch_weather_from_api` after a response with status 200. -/
def parseResponse (chunk : Option (Ptr (List Byte))) (lat lon : F) :
    Api F D (ℤ × Option (Ptr (WeatherData F D))) := do
  if env.alloc.fetched then
    let data ← malloc (zeroed x)
    match chunk with
    | none => throw .nullAccess
    | some jsonStr =>
      let text ← deref jsonStr
      let (result, value) ← (parseWeatherJson x env.fetchedAt text data.value lat lon :
        Except Fault _)
      if result = 0 then
        return (0, some { data with value := { value with rawJsonCache := some jsonStr } })
      else
        free jsonStr
        free data
        return (-6, none)
  else
    freeOption chunk
    return (-5, none)

/-- `fetch_weather_from_api`: the code it returns, and `*data`. -/
def fetchWeatherFromApi (lat lon : F) (data : Option (Ptr (WeatherData F D))) :
    Api F D (ℤ × Option (Ptr (WeatherData F D))) := do
  if env.alloc.url then
    let url ← malloc (buildApiUrl x lat lon)
    if env.alloc.curl then
      let (res, chunk) ← perform env url lat lon
      match res with
      | .failed =>
        free url
        freeOption chunk
        return (-3, data)
      | .done httpCode _ =>
        free url
        if httpCode = 200 then parseResponse x env chunk lat lon
        else
          freeOption chunk
          return (-4, data)
    else
      free url
      return (-2, data)
  else return (-1, data)

/-! ## The current weather -/

/-- The block `Save RAW JSON to cache`. -/
def saveFetched (cacheFile : Ptr (List Byte)) (data : Ptr (WeatherData F D)) :
    Api F D (Ptr (WeatherData F D)) := do
  if config.useCache then
    let value ← deref data
    match value.rawJsonCache with
    | none => return data
    | some raw =>
      let _ ← saveRawJsonToCache x env cacheFile raw
      free raw
      return { data with value := { value with rawJsonCache := none } }
  else return data

/-- The part of `open_meteo_api_get_current` from `Fetch from API` on. -/
def fetchAndSave (cacheFile : Ptr (List Byte)) (lat lon : F)
    (data : Option (Ptr (WeatherData F D))) : Api F D (ℤ × Option (Ptr (WeatherData F D))) := do
  let (result, data) ← fetchWeatherFromApi x env lat lon data
  if result = 0 then
    match data with
    | none => throw .nullAccess
    | some data =>
      let data ← saveFetched x config env cacheFile data
      free cacheFile
      return (0, some data)
  else
    free cacheFile
    return (-3, data)

/-- `open_meteo_api_get_current`: the code it returns, and `*data`. -/
def getCurrent (lat lon : F) (data : Option (Ptr (WeatherData F D))) :
    Api F D (ℤ × Option (Ptr (WeatherData F D))) := do
  match generateCacheFilepath x config env.alloc.cacheFile lat lon with
  | none => return (-2, data)
  | some path =>
    let cacheFile ← malloc path
    let valid ← useCacheFile config env cacheFile
    if valid then
      let (result, data) ← loadWeatherFromCache x env cacheFile data
      free cacheFile
      if result = 0 then return (0, data)
      else fetchAndSave x config env cacheFile lat lon data
    else fetchAndSave x config env cacheFile lat lon data

/-- `open_meteo_api_free_current`. -/
def freeCurrent (data : Ptr (WeatherData F D)) : Api F D Unit := do
  let value ← deref data
  freeOption value.rawJsonCache
  free data

/-! ## The response -/

/-- The object built when there is no cache file to take it from. -/
def buildRoot (data : WeatherData F D) : Json D :=
  let current := Json.object []
    |>.set "temperature" (Json.ofReal x.finite data.temperature)
    |>.set "temperature_unit" (Json.ofString data.temperatureUnit)
    |>.set "windspeed" (Json.ofReal x.finite data.windspeed)
    |>.set "windspeed_unit" (Json.ofString data.windspeedUnit)
    |>.set "wind_direction_10m" (some (.integer data.winddirection.toInt64))
    |>.set "weather_code" (some (.integer data.weatherCode.toInt64))
    |>.set "is_day" (some (.integer data.isDay.toInt64))
    |>.set "precipitation" (Json.ofReal x.finite data.precipitation)
    |>.set "precipitation_unit" (Json.ofString data.precipitationUnit)
    |>.set "humidity" (Json.ofReal x.finite data.humidity)
    |>.set "pressure" (Json.ofReal x.finite data.pressure)
    |>.set "time" (some (.integer data.timestamp))
    |>.set "city_name" (Json.ofString data.cityName)
  let coords := Json.object []
    |>.set "latitude" (Json.ofReal x.finite (x.widen data.latitude))
    |>.set "longitude" (Json.ofReal x.finite (x.widen data.longitude))
  Json.object [] |>.set "current" (some current) |>.set "coords" (some coords)

/-- `if (value && json_is_integer(value)) json_object_set_new(current, name, …)`. -/
def nameInteger (key name : String) (text : Int32 → String) (current : Json D) : Json D :=
  match current.get key with
  | none => current
  | some value =>
    if value.isInteger then current.set name (some (.string (text value.integerValue.toInt32)))
    else current

/-- The block `ENRICHMENT`, in the order of the source. -/
def enrichCurrent (current : Json D) : Json D :=
  current
    |> nameInteger "weather_code" "weather_description" getDescription
    |> nameInteger "wind_direction_10m" "wind_direction_name" getWindDirectionName

/-- The enrichment of a response; `current` is changed in place. -/
def enrich (root : Json D) : Json D :=
  match root.get "current" with
  | none => root
  | some current => root.set "current" (some (enrichCurrent current))

/-- What a path that could be generated is loaded from. -/
def loadResponse (lat lon : F) : Api F D (Option (Json D)) := do
  match generateCacheFilepath x config env.alloc.responseFile lat lon with
  | none => return none
  | some path =>
    let cacheFile ← malloc path
    let root ← loadFile cacheFile
    free cacheFile
    return root

/-- `json_dumps`, up to the text of the value. -/
def dumps (root : Json D) : Option (Json D) := if env.alloc.dumped then some root else none

/-- `open_meteo_api_build_json_response`, up to the text of the value. -/
def buildJsonResponse (data : Option (Ptr (WeatherData F D))) (lat lon : F) :
    Api F D (Option (Json D)) := do
  match data with
  | none => return none
  | some data =>
    match ← loadResponse x config env lat lon with
    | some root => return dumps env (enrich root)
    | none =>
      if env.alloc.root && env.alloc.current then
        let value ← deref data
        return dumps env (enrich (buildRoot x value))
      else return none

/-! ## The query -/

/-- The tokens of `strtok(…, "&")`. -/
def tokens (query : List Byte) : List (List Byte) := (query.splitOn 38).filter (· ≠ [])

/-- One turn of the loop of `open_meteo_api_parse_query`: what `*lat` and `*lon` were set to. -/
def parseToken (found : Option F × Option F) (token : List Byte) : Option F × Option F :=
  if startsWith token (bytes "lat=") then (some (x.narrow (x.atof (token.drop 4))), found.2)
  else if startsWith token (bytes "lon=") || startsWith token (bytes "long=") then
    match strchr token 61 with
    | some value => (found.1, some (x.narrow (x.atof (value.drop 1))))
    | none => found
  else found

/-- `open_meteo_api_parse_query`: the code it returns, and what `*lat` and `*lon` were set to. -/
def parseQuery (query : List Byte) : ℤ × Option F × Option F :=
  let found := (tokens (strncpy 511 query)).foldl (parseToken x) (none, none)
  if found.1.isSome && found.2.isSome then (0, found) else (-1, found)

/-! ## Exact numbers

A platform on which both floating point types are the rationals.  It agrees with the real one on
numbers that a `float` holds exactly and that do not end halfway between two that are printed. -/

/-- `%.nf` of an exact number. -/
def decimalsOf (n : ℕ) (v : ℚ) : List Byte :=
  let scaled := (|v| * 10 ^ n + 1 / 2).floor.toNat
  let fraction := decimal (scaled % 10 ^ n)
  (if v < 0 then [45] else []) ++ decimal (scaled / 10 ^ n) ++
    46 :: (List.replicate (n - fraction.length) 48 ++ fraction)

/-- `atof`, of a number without an exponent. -/
def atofOf (s : List Byte) : ℚ :=
  let (neg, s) := scanSign (skipSpace s)
  let whole := s.takeWhile isDigit
  let fraction := match s.drop whole.length with
    | 46 :: rest => rest.takeWhile isDigit
    | _ => []
  let v : ℚ := digitsVal whole + digitsVal fraction / 10 ^ fraction.length
  if neg then -v else v

/-- The platform that reads the texts of `documents`. -/
def exactPlatform (md5 : List Byte → List Byte) (documents : List (List Byte × Json ℚ)) :
    Platform ℚ ℚ where
  zeroF := 0
  zero := 0
  narrow := id
  widen := id
  finite := fun _ => true
  finite_zero := rfl
  decimals := decimalsOf
  atof := atofOf
  md5 := md5
  loadb := fun text => documents.lookup text

/-- The configuration of `open_meteo_handler_init`. -/
def handlerConfig : WeatherConfig := ⟨bytes "./cache/", 900, true⟩

/-- The world before anything happened. -/
def emptyWorld : World F D := ⟨Heap.empty, fun _ => none, []⟩

end OpenMeteoApi
