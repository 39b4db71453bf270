import JustWeather.Server.OpenMeteoHandler.Freshness
import JustWeather.Server.HashMd5
import Mathlib.Data.Set.Function

/-!
# Server/OpenMeteoHandler/CacheKeys — cached weather is keyed by what was fetched

The key of a cache file and the URL of a transfer print the same two numbers, each in a format of
its own.  A number has neither the `_` that ends the first one in a key nor the `&` that ends it in
a URL, so both say which numbers they print; and so does the path, as long as MD5 keeps the keys in
play apart (`generateCacheFilepath_eq_iff`).  A document is therefore loaded for the URL it was
fetched from (`cache_keyed_by_url`).
-/

open CLib Fallible OpenMeteoApi

namespace OpenMeteoHandler

variable {F D : Type} {x : Platform F D} {config : WeatherConfig} {env : Env}
  {lat lon lat' lon' : F} {w w' w₀ : World F D} {requests : List Request} {d : Json D}
  {p : Ptr (WeatherData F D)} {data : Option (Ptr (WeatherData F D))}

/-! ## What is assumed -/

/-- The platform with the MD5 of `hash_md5.c`. -/
def hashed (x : Platform F D) : Platform F D := { x with md5 := HashMd5.md5String }

/-- What is assumed of `%.6f`: at most 50 characters, of which none is a `_` or an `&`. -/
structure Printable (x : Platform F D) : Prop where
  length_le : ∀ v : F, (x.decimals 6 (x.widen v)).length ≤ 50
  underscore : ∀ v : F, 95 ∉ x.decimals 6 (x.widen v)
  ampersand : ∀ v : F, 38 ∉ x.decimals 6 (x.widen v)

theorem Printable.hashed (hx : Printable x) : Printable (hashed x) :=
  ⟨hx.length_le, hx.underscore, hx.ampersand⟩

/-- The directories the program configures: `DEFAULT_CACHE_DIR`, and that of
`open_meteo_handler_init`. -/
def cacheDirs : List (List Byte) := [bytes "./cache", bytes "./cache/"]

/-! ## The three texts -/

/-- The whole key. -/
def keyText (x : Platform F D) (lat lon : F) : List Byte :=
  bytes "weather_" ++ x.decimals 6 (x.widen lat) ++ bytes "_" ++ x.decimals 6 (x.widen lon)

/-- The whole path. -/
def pathText (x : Platform F D) (config : WeatherConfig) (lat lon : F) : List Byte :=
  config.cacheDir ++ bytes "/" ++ x.md5 (keyText x lat lon) ++ bytes ".json"

/-- The whole URL. -/
def urlText (x : Platform F D) (lat lon : F) : List Byte :=
  bytes "https://api.open-meteo.com/v1/forecast" ++ bytes "?latitude=" ++
    x.decimals 6 (x.widen lat) ++ bytes "&longitude=" ++ x.decimals 6 (x.widen lon) ++
    [ "&current=temperature_2m,relative_humidity_2m,",
      "apparent_temperature,is_day,precipitation,weather_code,",
      "surface_pressure,wind_speed_10m,wind_direction_10m",
      "&timezone=GMT" ].flatMap bytes

/-- **None of the three texts is cut** by its buffer. -/
structure Complete (x : Platform F D) (config : WeatherConfig) (lat lon : F) : Prop where
  key : (keyText x lat lon).length < 256
  path : generateCacheFilepath x config true lat lon = some (pathText x config lat lon) ∧
    (pathText x config lat lon).length < 512
  url : buildApiUrl x lat lon = urlText x lat lon ∧ (urlText x lat lon).length < 1024

theorem length_keyText_lt (hx : Printable x) (lat lon : F) : (keyText x lat lon).length < 256 := by
  have hlat := hx.length_le lat
  have hlon := hx.length_le lon
  have hweather : (bytes "weather_").length = 8 := by decide
  have hunderscore : (bytes "_").length = 1 := by decide
  simp only [keyText, List.length_append, hweather, hunderscore]
  omega

theorem length_pathText_lt (hdir : config.cacheDir ∈ cacheDirs) (lat lon : F) :
    (pathText (hashed x) config lat lon).length < 512 := by
  have hmd5 : ((hashed x).md5 (keyText (hashed x) lat lon)).length = 32 := by
    change (HashMd5.md5String _).length = 32
    rw [HashMd5.md5String_eq, HashMd5.length_hexString, HashMd5.length_hashMd5Binary]
  have hslash : (bytes "/").length = 1 := by decide
  have hjson : (bytes ".json").length = 5 := by decide
  have hcacheDir : ∀ dir ∈ cacheDirs, dir.length ≤ 8 := by decide
  have hle := hcacheDir _ hdir
  simp only [pathText, List.length_append, hmd5, hslash, hjson]
  omega

theorem length_urlText_lt (hx : Printable x) (lat lon : F) : (urlText x lat lon).length < 1024 := by
  have hlat := hx.length_le lat
  have hlon := hx.length_le lon
  have hbase : (bytes "https://api.open-meteo.com/v1/forecast").length = 38 := by decide
  have hlatitude : (bytes "?latitude=").length = 10 := by decide
  have hlongitude : (bytes "&longitude=").length = 11 := by decide
  have hcurrent : ([ "&current=temperature_2m,relative_humidity_2m,",
    "apparent_temperature,is_day,precipitation,weather_code,",
    "surface_pressure,wind_speed_10m,wind_direction_10m",
    "&timezone=GMT" ].flatMap bytes).length < 200 := by decide +kernel
  simp only [urlText, List.length_append, hbase, hlatitude, hlongitude]
  omega

/-- **Every text is complete.** -/
theorem complete (hx : Printable x) (hdir : config.cacheDir ∈ cacheDirs) (lat lon : F) :
    Complete (hashed x) config lat lon := by
  have hkey := length_keyText_lt hx.hashed lat lon
  have hpath : (pathText (hashed x) config lat lon).length < 512 := length_pathText_lt hdir lat lon
  have hurl := length_urlText_lt hx.hashed lat lon
  refine ⟨hkey, ⟨?_, hpath⟩, ⟨congrArg Prod.fst (snprintf_of_lt hurl), hurl⟩⟩
  rw [generateCacheFilepath]
  change (if 256 ≤ (keyText (hashed x) lat lon).length then none else
    some (snprintf 512 (config.cacheDir ++ bytes "/" ++
      (hashed x).md5 (snprintf 256 (keyText (hashed x) lat lon)).1 ++ bytes ".json")).1) = _
  rw [if_neg (Nat.not_le.mpr hkey), snprintf_of_lt hkey]
  exact congrArg (fun r => some r.1) (snprintf_of_lt hpath)

/-! ## What a text says -/

/-- A letter that a field does not have ends it. -/
theorem append_cons_inj {c : Byte} {a b s t : List Byte} (ha : c ∉ a) (hb : c ∉ b)
    (h : a ++ c :: s = b ++ c :: t) : a = b ∧ s = t := by
  have hfield : ∀ {u : List Byte}, c ∉ u → ∀ v, (u ++ c :: v).takeWhile (· != c) = u := by
    intro u hu v
    rw [takeWhile_append_cons (p := (· != c)) (bne_self_eq_false c), List.takeWhile_eq_self_iff]
    intro e he
    exact bne_iff_ne.mpr fun hec => hu (hec ▸ he)
  obtain rfl : a = b := by rw [← hfield ha s, h, hfield hb t]
  exact ⟨rfl, (List.cons.inj (List.append_cancel_left h)).2⟩

/-- **A key says which numbers it prints.** -/
theorem keyText_eq_iff (hx : Printable x) :
    keyText x lat lon = keyText x lat' lon' ↔ SamePlace x lat lon lat' lon' := by
  refine ⟨fun h => ?_, fun ⟨hlat, hlon⟩ => by rw [keyText, hlat, hlon]; rfl⟩
  have hfields : x.decimals 6 (x.widen lat) ++ 95 :: x.decimals 6 (x.widen lon)
      = x.decimals 6 (x.widen lat') ++ 95 :: x.decimals 6 (x.widen lon') := by
    simp only [keyText, List.append_assoc] at h
    exact List.append_cancel_left h
  exact append_cons_inj (hx.underscore lat) (hx.underscore lat') hfields

/-- **So does a URL.** -/
theorem urlText_eq_iff (hx : Printable x) :
    urlText x lat lon = urlText x lat' lon' ↔ SamePlace x lat lon lat' lon' := by
  refine ⟨fun h => ?_, fun ⟨hlat, hlon⟩ => by rw [urlText, hlat, hlon]; rfl⟩
  have hends := List.append_cancel_right h
  have hfields : x.decimals 6 (x.widen lat) ++
        38 :: (bytes "longitude=" ++ x.decimals 6 (x.widen lon))
      = x.decimals 6 (x.widen lat') ++
        38 :: (bytes "longitude=" ++ x.decimals 6 (x.widen lon')) := by
    simp only [List.append_assoc] at hends
    exact List.append_cancel_left (List.append_cancel_left hends)
  obtain ⟨hlat, hrest⟩ := append_cons_inj (hx.ampersand lat) (hx.ampersand lat') hfields
  exact ⟨hlat, List.append_cancel_left hrest⟩

/-- **A path says which key it was made from**, if MD5 keeps the two keys apart. -/
theorem pathText_eq_iff {K : Set (List Byte)} (hK : Set.InjOn HashMd5.hashMd5Binary K)
    (hkey : keyText x lat lon ∈ K) (hkey' : keyText x lat' lon' ∈ K) :
    pathText (hashed x) config lat lon = pathText (hashed x) config lat' lon' ↔
      keyText x lat lon = keyText x lat' lon' := by
  refine ⟨fun h => ?_, fun h => ?_⟩
  · have hmd5 := List.append_cancel_left (List.append_cancel_right h)
    change HashMd5.md5String (keyText x lat lon) = HashMd5.md5String (keyText x lat' lon') at hmd5
    rw [HashMd5.md5String_eq, HashMd5.md5String_eq] at hmd5
    exact hK hkey hkey' (HashMd5.hexString_injective hmd5)
  · change config.cacheDir ++ bytes "/" ++ HashMd5.md5String (keyText x lat lon) ++ _ = _
    rw [h]
    rfl

/-- **Two pairs of coordinates share a path exactly when they share a URL.** -/
theorem generateCacheFilepath_eq_iff {K : Set (List Byte)} (hx : Printable x)
    (hdir : config.cacheDir ∈ cacheDirs) (hK : Set.InjOn HashMd5.hashMd5Binary K)
    (hkey : keyText x lat lon ∈ K) (hkey' : keyText x lat' lon' ∈ K) :
    generateCacheFilepath (hashed x) config true lat lon
        = generateCacheFilepath (hashed x) config true lat' lon' ↔
      buildApiUrl (hashed x) lat lon = buildApiUrl (hashed x) lat' lon' := by
  have hc := complete hx hdir lat lon
  have hc' := complete hx hdir lat' lon'
  rw [hc.path.1, hc'.path.1, hc.url.1, hc'.url.1, Option.some_inj, pathText_eq_iff hK hkey hkey',
    keyText_eq_iff hx]
  exact (urlText_eq_iff hx.hashed).symm

/-! ## What is loaded -/

/-- The keys in play when a location is asked for: its own, and those of the transfers so far. -/
def keysInPlay (x : Platform F D) (w : World F D) (lat lon : F) : Set (List Byte) :=
  {key | key = keyText x lat lon ∨ ∃ f ∈ w.fetches, key = keyText x f.latitude f.longitude}

/-- The weather is what `load_weather_from_cache` makes of the document. -/
def LoadedFrom (x : Platform F D) (env : Env) (d : Json D) (p : Ptr (WeatherData F D)) : Prop :=
  ∃ current units, d.get "current" = some current ∧ d.get "current_units" = some units ∧
    loadValues x env.loadedAt d current units (zeroed x) = .ok p.value

/-- **What the file of a location holds was fetched for its URL.** -/
theorem exists_fetch_of_file {path : List Byte} {file : File D} (hx : Printable x)
    (hdir : config.cacheDir ∈ cacheDirs) (hb : Backed (hashed x) config w)
    (hK : Set.InjOn HashMd5.hashMd5Binary (keysInPlay x w lat lon))
    (hpath : generateCacheFilepath (hashed x) config true lat lon = some path)
    (hfile : w.files path = some file) (hcontent : file.content = some d) :
    ∃ f ∈ w.fetches, f.time = file.mtime ∧ Got (hashed x) f d ∧
      buildApiUrl (hashed x) f.latitude f.longitude = buildApiUrl (hashed x) lat lon := by
  obtain ⟨f, hf, hbacks⟩ := hb path file hfile (by rw [hcontent]; rfl)
  obtain ⟨d', hcontent', hgot⟩ := hbacks.document
  obtain rfl := Option.some.inj (hcontent.symm.trans hcontent')
  exact ⟨f, hf, hbacks.time, hgot, (generateCacheFilepath_eq_iff hx hdir hK (Or.inr ⟨f, hf, rfl⟩)
    (Or.inl rfl)).mp (hbacks.path.trans hpath.symm)⟩

/-- **Weather that comes without a transfer was loaded from a document fetched for its URL.** -/
theorem exists_fetch_of_getCurrent (hx : Printable x) (hdir : config.cacheDir ∈ cacheDirs)
    (hb : Backed (hashed x) config w)
    (hK : Set.InjOn HashMd5.hashMd5Binary (keysInPlay x w lat lon))
    (hget : getCurrent (hashed x) config env lat lon data w = .ok ((0, some p), w'))
    (hmade : w'.fetches = w.fetches) :
    ∃ d, LoadedFrom (hashed x) env d p ∧ ∃ f ∈ w.fetches, Got (hashed x) f d ∧
      buildApiUrl (hashed x) f.latitude f.longitude = buildApiUrl (hashed x) lat lon := by
  rcases OpenMeteoApi.of_getCurrent hget with
    ⟨-, hcode, -⟩ | ⟨path, hpath, ⟨-, q, hq, hhit⟩ | ⟨-, ⟨-, q, -, hfetched⟩ | ⟨hcode, -⟩⟩⟩
  · cases hcode
  · obtain rfl := Option.some.inj hq
    obtain ⟨file, d, current, units, hfile, -, hcontent, hc, hu, hv⟩ := hhit.file
    obtain ⟨f, hf, -, hgot, hurl⟩ := exists_fetch_of_file hx hdir hb hK
      (generateCacheFilepath_of_some hpath).2 hfile hcontent
    exact ⟨d, ⟨current, units, hc, hu, hv⟩, f, hf, hgot, hurl⟩
  · exact absurd (hfetched.fetches.symm.trans hmade) (List.cons_ne_self _ _)
  · cases hcode

/-- **Cached weather is keyed by what was fetched.**  Every key, path and URL is complete; two pairs
of coordinates share a path exactly when they share a URL; and after any requests, from an empty
cache directory on, what the file of a location holds was fetched for its URL, and so was what
`open_meteo_api_get_current` loads for it. -/
theorem cache_keyed_by_url (hx : Printable x) (hdir : config.cacheDir ∈ cacheDirs) :
    (∀ lat lon, Complete (hashed x) config lat lon) ∧
    (∀ lat lon lat' lon',
      Set.InjOn HashMd5.hashMd5Binary {keyText x lat lon, keyText x lat' lon'} →
      (generateCacheFilepath (hashed x) config true lat lon
          = generateCacheFilepath (hashed x) config true lat' lon' ↔
        buildApiUrl (hashed x) lat lon = buildApiUrl (hashed x) lat' lon')) ∧
    ∀ requests w₀ w exchanges, (∀ path, w₀.files path = none) →
      run (hashed x) config requests w₀ = .ok (w, exchanges) →
      ∀ lat lon, Set.InjOn HashMd5.hashMd5Binary (keysInPlay x w lat lon) →
      (∀ path file d, generateCacheFilepath (hashed x) config true lat lon = some path →
        w.files path = some file → file.content = some d →
        ∃ f ∈ w.fetches, f.time = file.mtime ∧ Got (hashed x) f d ∧
          buildApiUrl (hashed x) f.latitude f.longitude = buildApiUrl (hashed x) lat lon) ∧
      ∀ env data p w', getCurrent (hashed x) config env lat lon data w = .ok ((0, some p), w') →
        w'.fetches = w.fetches →
        ∃ d, LoadedFrom (hashed x) env d p ∧ ∃ f ∈ w.fetches, Got (hashed x) f d ∧
          buildApiUrl (hashed x) f.latitude f.longitude = buildApiUrl (hashed x) lat lon := by
  refine ⟨complete hx hdir, ?_, ?_⟩
  · intro lat lon lat' lon' hK
    exact generateCacheFilepath_eq_iff hx hdir hK (Set.mem_insert _ _)
      (Set.mem_insert_of_mem _ rfl)
  · intro requests w₀ w exchanges hempty hrun lat lon hK
    have hb : Backed (hashed x) config w := (backed_of_no_files hempty).of_run hrun
    refine ⟨?_, ?_⟩
    · intro path file d hpath hfile hcontent
      exact exists_fetch_of_file hx hdir hb hK hpath hfile hcontent
    · intro env data p w' hget hmade
      exact exists_fetch_of_getCurrent hx hdir hb hK hget hmade

/-! ## Two requests for one place -/

/-- A platform with a byte for a coordinate, so that it can be a whole number of degrees. -/
def degreePlatform : Platform Int8 ℚ where
  zeroF := 0
  zero := 0
  narrow := fun v => Int8.ofInt v.floor
  widen := fun v => v.toInt
  finite := fun _ => true
  finite_zero := rfl
  decimals := decimalsOf
  atof := atofOf
  md5 := fun _ => []
  loadb := fun text => [(nearText, upstream 59.25 18)].lookup text

theorem printable_degreePlatform : Printable degreePlatform := by
  have hall : ∀ n < 256, (decimalsOf 6 ((UInt8.ofNat n).toInt8.toInt : ℚ)).length ≤ 50 ∧
      95 ∉ decimalsOf 6 ((UInt8.ofNat n).toInt8.toInt : ℚ) ∧
      38 ∉ decimalsOf 6 ((UInt8.ofNat n).toInt8.toInt : ℚ) := by decide +kernel
  have hbyte : ∀ v : Int8, (decimalsOf 6 (v.toInt : ℚ)).length ≤ 50 ∧
      95 ∉ decimalsOf 6 (v.toInt : ℚ) ∧ 38 ∉ decimalsOf 6 (v.toInt : ℚ) :=
    fun v => forall_byte (p := fun b => (decimalsOf 6 (b.toInt8.toInt : ℚ)).length ≤ 50 ∧
      95 ∉ decimalsOf 6 (b.toInt8.toInt : ℚ) ∧ 38 ∉ decimalsOf 6 (b.toInt8.toInt : ℚ))
      hall v.toUInt8
  exact ⟨fun v => (hbyte v).1, fun v => (hbyte v).2.1, fun v => (hbyte v).2.2⟩

/-- A request for `59, 18`. -/
def degreeRequest : Request := ⟨bytes "lat=59&lon=18", calmEnv nearText⟩

/-- The path of its cache file. -/
def degreePath : List Byte := bytes "./cache//11292dda9a2338af23212059c4b38de1.json"

theorem generateCacheFilepath_degree :
    generateCacheFilepath (hashed degreePlatform) handlerConfig true 59 18 = some degreePath := by
  decide +kernel

/-- A second request for the place is answered from the file that the first one wrote. -/
theorem exists_degree : ∃ w e p w',
    run (hashed degreePlatform) handlerConfig [degreeRequest] emptyWorld = .ok (w, [e]) ∧
    w.fetches = [⟨59, 18, .done 200 (some nearText), 0⟩] ∧
    getCurrent (hashed degreePlatform) handlerConfig (calmEnv nearText) 59 18 none w
      = .ok ((0, some p), w') ∧ w'.fetches = w.fetches := by
  have hquery : parseQuery (hashed degreePlatform) degreeRequest.queryString
      = (0, some 59, some 18) := by decide +kernel
  have hd : (hashed degreePlatform).loadb nearText = some (upstream 59.25 18) := by
    simp [hashed, degreePlatform]
  obtain ⟨v, hparse⟩ : ∃ v, parseWeatherJson (hashed degreePlatform) 0 nearText
      (zeroed (hashed degreePlatform)) 59 18 = .ok (0, v) := by
    rw [parseWeatherJson, hd]
    exact ⟨_, rfl⟩
  have hmiss : ¬ (handlerConfig.useCache = true ∧ FileFresh handlerConfig (calmEnv nearText)
      (emptyWorld : World Int8 ℚ).files degreePath) := by
    rintro ⟨-, file, hfile, -⟩
    cases hfile
  obtain ⟨r, w, u, root, hcurrent, -, -, hfiles, hfetches⟩ :=
    exists_current hquery generateCacheFilepath_degree hmiss rfl rfl hd hparse
  have hfile : w.files degreePath = some ⟨some (upstream 59.25 18), 0⟩ := by
    rw [hfiles]
    rfl
  obtain ⟨p, w', hget, -, hmade⟩ : ∃ p w', getCurrent (hashed degreePlatform) handlerConfig
      (calmEnv nearText) 59 18 none w = .ok ((0, some p), w') ∧ _ ∧ w'.fetches = w.fetches :=
    getCurrent_eq_of_hit none rfl generateCacheFilepath_degree hfile (by decide) rfl rfl rfl rfl rfl
  exact ⟨w, _, p, w', Trace.run_concat (Trace.run_nil emptyWorld) (step_of_current hcurrent),
    hfetches, hget, hmade⟩

/-- Two places have two paths and two URLs, and the second request for a place loads what the first
one fetched for its URL. -/
theorem cache_keyed_by_url_degree :
    (generateCacheFilepath (hashed degreePlatform) handlerConfig true 59 18
        = generateCacheFilepath (hashed degreePlatform) handlerConfig true 18 59 ↔
      buildApiUrl (hashed degreePlatform) 59 18 = buildApiUrl (hashed degreePlatform) 18 59) ∧
    ∃ w e p w' d f,
      run (hashed degreePlatform) handlerConfig [degreeRequest] emptyWorld = .ok (w, [e]) ∧
      getCurrent (hashed degreePlatform) handlerConfig (calmEnv nearText) 59 18 none w
        = .ok ((0, some p), w') ∧
      LoadedFrom (hashed degreePlatform) (calmEnv nearText) d p ∧ f ∈ w.fetches ∧
      Got (hashed degreePlatform) f d ∧
      buildApiUrl (hashed degreePlatform) f.latitude f.longitude
        = buildApiUrl (hashed degreePlatform) 59 18 := by
  have hdir : handlerConfig.cacheDir ∈ cacheDirs :=
    List.mem_cons_of_mem _ (List.mem_singleton_self _)
  obtain ⟨-, hpair, hruns⟩ := cache_keyed_by_url printable_degreePlatform hdir
  obtain ⟨w, e, p, w', hrun, hfetches, hget, hmade⟩ := exists_degree
  have hK : Set.InjOn HashMd5.hashMd5Binary (keysInPlay degreePlatform w 59 18) := by
    have hone : ∀ key ∈ keysInPlay degreePlatform w 59 18, key = keyText degreePlatform 59 18 := by
      rintro key (hkey | ⟨f, hf, hkey⟩)
      · exact hkey
      · rw [hfetches, List.mem_singleton] at hf
        rw [hkey, hf]
    intro key hkey key' hkey' _
    rw [hone key hkey, hone key' hkey']
  obtain ⟨d, hloaded, f, hf, hgot, hurl⟩ :=
    (hruns _ _ _ _ (fun _ => rfl) hrun 59 18 hK).2 _ _ _ _ hget hmade
  refine ⟨hpair 59 18 18 59 (Set.injOn_pair.mpr fun h => absurd h (by decide +kernel)),
    w, e, p, w', d, f, hrun, hget, hloaded, hf, hgot, hurl⟩

end OpenMeteoHandler
