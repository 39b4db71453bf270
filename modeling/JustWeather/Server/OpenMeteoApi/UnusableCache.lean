import JustWeather.Server.OpenMeteoApi.Progress

/-!
# Server/OpenMeteoApi/UnusableCache — a cache file that cannot be loaded

`open_meteo_api_get_current` releases the path of the cache file after it has tried to load it, and
goes on to fetch with the path it released.  So a file that is fresh but cannot be loaded is never
like no file at all (`not_actsAsMiss`).
-/

open CLib

namespace OpenMeteoApi

variable {F D : Type} {x : Platform F D} {config : WeatherConfig} {env : Env} {lat lon : F}
  {path : List Byte} {data data' : Option (Ptr (WeatherData F D))} {w w' : World F D} {code : ℤ}

/-- Content that `load_weather_from_cache` rejects: it is no JSON, or lacks one of the
two objects. -/
def Rejected (content : Option (Json D)) : Prop :=
  ∀ d, content = some d → d.get "current" = none ∨ d.get "current_units" = none

/-- **An unusable cache file**: `is_cache_valid` accepts it, `load_weather_from_cache` does not. -/
structure Unusable (x : Platform F D) (config : WeatherConfig) (env : Env) (lat lon : F)
    (path : List Byte) (w : World F D) : Prop where
  useCache : config.useCache = true
  generated : generateCacheFilepath x config env.alloc.cacheFile lat lon = some path
  file : ∃ file, w.files path = some file ∧
    env.checkedAt.toInt - file.mtime.toInt ≤ config.cacheTtl.toInt ∧ Rejected file.content

/-- **A request that acts as a miss**: it returns without touching a block that was released, after
one transfer, with the code and the data it returns when there is no file; the document is at the
path if it could be written; and after a failure the caller is left with no released data. -/
def ActsAsMiss (x : Platform F D) (config : WeatherConfig) (env : Env) (lat lon : F)
    (path : List Byte) (data : Option (Ptr (WeatherData F D))) (w : World F D) : Prop :=
  ∃ code data' w', getCurrent x config env lat lon data w = .ok ((code, data'), w') ∧
    w'.fetches = ⟨lat, lon, env.transfer, env.fetchedAt⟩ :: w.fetches ∧
    (∃ code₀ data₀ w₀, getCurrent x config env lat lon data
        { w with files := Function.update w.files path none } = .ok ((code₀, data₀), w₀) ∧
      code = code₀ ∧ data'.map Ptr.value = data₀.map Ptr.value) ∧
    (code = 0 → env.saved = true → ∃ text, env.transfer = .done 200 (some text) ∧
      w'.files path = some ⟨x.loadb text, env.fetchedAt⟩) ∧
    (code ≠ 0 → ∀ p, data' = some p → Heap.Live p w'.heap)

/-- With no file and a fetch that succeeds the request does act as a miss. -/
theorem actsAsMiss_of_absent {text : List Byte} {v : WeatherData F D}
    (data : Option (Ptr (WeatherData F D))) (huse : config.useCache = true)
    (hpath : generateCacheFilepath x config env.alloc.cacheFile lat lon = some path)
    (habsent : w.files path = none)
    (halloc : env.alloc.url = true ∧ env.alloc.curl = true ∧ env.alloc.fetched = true)
    (htransfer : env.transfer = .done 200 (some text))
    (hparse : parseWeatherJson x env.fetchedAt text (zeroed x) lat lon = .ok (0, v)) :
    ActsAsMiss x config env lat lon path data w := by
  have hmiss : ¬ (config.useCache = true ∧ FileFresh config env w.files path) := by
    rintro ⟨-, file, hfile, -⟩
    cases habsent.symm.trans hfile
  obtain ⟨p, w', hget, -⟩ := exists_getCurrent data hpath hmiss halloc htransfer hparse
  have hsame : { w with files := Function.update w.files path none } = w := by
    rw [← habsent, Function.update_eq_self]
  obtain ⟨-, ⟨body, json, -, hbody, hjson, -, -, hfiles⟩, hfetches⟩ :=
    fetched_of_getCurrent hget hpath hmiss
  refine ⟨0, some p, w', hget, hfetches, ⟨0, some p, w', by rw [hsame, hget], rfl, rfl⟩,
    fun _ hsaved => ⟨body, hbody, ?_⟩, fun hcode => absurd rfl hcode⟩
  rw [hfiles, written, huse, hsaved, Bool.and_true, if_pos rfl, Function.update_self, hjson]

/-- With an unusable file the request does not return. -/
theorem Unusable.not_ok (h : Unusable x config env lat lon path w)
    (hget : getCurrent x config env lat lon data w = .ok ((code, data'), w')) : False := by
  obtain ⟨huse, hpath, file, hfile, hage, hrejected⟩ := h
  rcases of_getCurrent hget with ⟨hnone, -⟩ | ⟨path', hpath', ⟨-, p, -, hhit⟩ | ⟨hstale, -⟩⟩
  · cases hpath.symm.trans hnone
  · obtain rfl := Option.some.inj (hpath.symm.trans hpath')
    obtain ⟨file', root, current, units, hfile', -, hroot, hc, hu, -⟩ := hhit.file
    obtain rfl := Option.some.inj (hfile.symm.trans hfile')
    rcases hrejected root hroot with hnone | hnone
    · cases hc.symm.trans hnone
    · cases hu.symm.trans hnone
  · obtain rfl := Option.some.inj (hpath.symm.trans hpath')
    exact hstale ⟨huse, file, hfile, hage⟩

/-- **An unusable cache file is never like no file**, whatever the transfer and the write
come to. -/
theorem not_actsAsMiss (x : Platform F D) (config : WeatherConfig) (env : Env) (lat lon : F)
    (data : Option (Ptr (WeatherData F D))) (h : Unusable x config env lat lon path w) :
    ¬ ActsAsMiss x config env lat lon path data w := by
  rintro ⟨code, data', w', hget, -⟩
  exact h.not_ok hget

/-! ## Two unusable files -/

/-- A platform that hashes the key of `59.25, 18.0`, and on which no text is JSON. -/
def hashPlatform : Platform ℚ ℚ :=
  exactPlatform (fun _ => bytes "f134ae816459c75fbef55cbcf3616c0b") []

/-- The path of its cache file. -/
def hashPath : List Byte := bytes "./cache//f134ae816459c75fbef55cbcf3616c0b.json"

/-- A world in which that file holds `content`. -/
def worldWith (content : Option (Json ℚ)) : World ℚ ℚ :=
  ⟨Heap.empty, fun path => if path = hashPath then some ⟨content, 0⟩ else none, []⟩

/-- A request made in the second the file was written, with a transfer that ends as given. -/
def envWith (transfer : Transfer) : Env := ⟨0, 0, 0, transfer, true, .all⟩

theorem unusable_worldWith {content : Option (Json ℚ)} (h : Rejected content)
    (transfer : Transfer) : Unusable hashPlatform handlerConfig (envWith transfer) 59.25 18 hashPath
      (worldWith content) := by
  have hage : (0 : Int64).toInt - (0 : Int64).toInt ≤ handlerConfig.cacheTtl.toInt := by decide
  refine ⟨rfl, ?_, ⟨content, 0⟩, by simp [worldWith], hage, h⟩
  change generateCacheFilepath hashPlatform handlerConfig true 59.25 18 = some hashPath
  decide +kernel

/-- A file that is no JSON, and a transfer that fails. -/
theorem not_actsAsMiss_garbage : ¬ ActsAsMiss hashPlatform handlerConfig (envWith .failed) 59.25 18
    hashPath none (worldWith none) :=
  not_actsAsMiss _ _ _ _ _ _ (unusable_worldWith (fun d hd => by cases hd) .failed)

/-- A file with an empty object, and a response that is an error page. -/
theorem unusable_empty_object : ¬ ActsAsMiss hashPlatform handlerConfig
    (envWith (.done 404 (some (bytes "not found")))) 59.25 18 hashPath none
    (worldWith (some (.object []))) := by
  rintro ⟨code, data', w', hget, -⟩
  refine (unusable_worldWith (fun d hd => ?_) _).not_ok hget
  obtain rfl := Option.some.inj hd
  exact Or.inl rfl

end OpenMeteoApi
