import JustWeather.Server.OpenMeteoApi

/-!
# Server/OpenMeteoApi/Worlds — what the functions do to the world

Only `save_raw_json_to_cache` writes a file; everything else is `Calm`.  From that and the cases of
`fetch_weather_from_api`: what `open_meteo_api_get_current` can come to (`of_getCurrent`).
-/

open CLib Fallible

namespace OpenMeteoApi

/-- A step that makes no transfer and writes no file; no released block comes back. -/
structure Calm {F D : Type} (w w' : World F D) : Prop where
  released : w.heap.released ⊆ w'.heap.released
  files : w'.files = w.files
  fetches : w'.fetches = w.fetches

/-- A step that writes no file, and may make a transfer; none is forgotten. -/
structure Fetching {F D : Type} (w w' : World F D) : Prop where
  released : w.heap.released ⊆ w'.heap.released
  files : w'.files = w.files
  fetches : w.fetches <:+ w'.fetches

variable {F D : Type} {x : Platform F D} {config : WeatherConfig} {env : Env} {lat lon : F}
  {text : List Byte} {d current units : Json D} {now : Int64} {u v : WeatherData F D}
  {w w' w'' : World F D}
  {data data' : Option (Ptr (WeatherData F D))} {code : ℤ}

theorem Calm.refl (w : World F D) : Calm w w := ⟨List.Subset.refl _, rfl, rfl⟩

theorem Calm.trans (h : Calm w w') (h' : Calm w' w'') : Calm w w'' :=
  ⟨fun _ hb => h'.released (h.released hb), h'.files.trans h.files, h'.fetches.trans h.fetches⟩

theorem Calm.fetching (h : Calm w w') : Fetching w w' :=
  ⟨h.released, h.files, h.fetches ▸ List.suffix_refl _⟩

theorem Fetching.trans (h : Fetching w w') (h' : Fetching w' w'') : Fetching w w'' :=
  ⟨fun _ hb => h'.released (h.released hb), h'.files.trans h.files, h.fetches.trans h'.fetches⟩

/-- Every block that is live stays live. -/
def Keeps (w w' : World F D) : Prop :=
  ∀ {α : Type} {q : Ptr α}, Heap.Live q w.heap → Heap.Live q w'.heap

/-! ## Calm steps -/

theorem calm_malloc {α : Type} (a : α) : Preserves Calm (malloc a : Api F D (Ptr α)) := by
  intro w p w' h
  cases h
  exact ⟨List.Subset.refl _, rfl, rfl⟩

theorem calm_deref {α : Type} (p : Ptr α) : Preserves Calm (deref p : Api F D α) := by
  intro w a w' h
  obtain ⟨-, -, rfl⟩ := of_deref h
  exact Calm.refl _

theorem calm_free {α : Type} (p : Ptr α) : Preserves Calm (free p : Api F D Unit) := by
  intro w a w' h
  obtain ⟨hlive, hfree, hw⟩ := of_free h
  rw [Heap.free, dif_pos hlive] at hfree
  refine ⟨?_, by rw [hw], by rw [hw]⟩
  rw [← Except.ok.inj hfree]
  exact List.subset_cons_self _ _

theorem calm_freeOption {α : Type} (p : Option (Ptr α)) :
    Preserves Calm (freeOption p : Api F D Unit) := by
  cases p with
  | none => exact Preserves.pure Calm.refl _
  | some p => exact calm_free p

theorem calm_get : Preserves Calm (get : Api F D (World F D)) := by
  intro w a w' h
  obtain ⟨-, rfl⟩ := Prod.ext_iff.mp (Except.ok.inj h)
  exact Calm.refl _

theorem calm_loadFile (filepath : Ptr (List Byte)) :
    Preserves Calm (loadFile filepath : Api F D (Option (Json D))) :=
  (calm_deref filepath).bind Calm.trans fun _ => calm_get.bind Calm.trans fun _ =>
    Preserves.pure Calm.refl _

theorem fetching_perform (url : Ptr (List Byte)) (lat lon : F) :
    Preserves Fetching (perform env url lat lon : Api F D _) := by
  refine ((calm_deref url).mono Calm.fetching).bind Fetching.trans fun _ =>
    Preserves.bind Fetching.trans ?_ fun _ => Preserves.mono (R := Calm) ?_ Calm.fetching
  · intro w a w' h
    obtain ⟨-, rfl⟩ := Prod.ext_iff.mp (Except.ok.inj h)
    exact ⟨List.Subset.refl _, rfl, List.suffix_cons _ _⟩
  · split
    · exact (calm_malloc _).bind Calm.trans fun _ => Preserves.pure Calm.refl _
    · exact Preserves.pure Calm.refl _

theorem calm_parseResponse (chunk : Option (Ptr (List Byte))) (lat lon : F) :
    Preserves Calm (parseResponse x env chunk lat lon) := by
  rw [parseResponse]
  split
  · refine (calm_malloc _).bind Calm.trans fun p => ?_
    cases chunk with
    | none => exact Preserves.throw _
    | some chunk =>
      refine (calm_deref chunk).bind Calm.trans fun text =>
        (Preserves.lift Calm.refl _).bind Calm.trans fun r => ?_
      dsimp only
      split
      · exact Preserves.pure Calm.refl _
      · exact (calm_free _).bind Calm.trans fun _ => (calm_free _).bind Calm.trans fun _ =>
          Preserves.pure Calm.refl _
  · exact (calm_freeOption _).bind Calm.trans fun _ => Preserves.pure Calm.refl _

theorem fetching_fetchWeatherFromApi (lat lon : F) (data : Option (Ptr (WeatherData F D))) :
    Preserves Fetching (fetchWeatherFromApi x env lat lon data) := by
  rw [fetchWeatherFromApi]
  split
  · refine ((calm_malloc _).mono Calm.fetching).bind Fetching.trans fun url => ?_
    split
    · refine (fetching_perform url lat lon).bind Fetching.trans fun r =>
        Preserves.mono (R := Calm) ?_ Calm.fetching
      dsimp only
      split
      · exact (calm_free _).bind Calm.trans fun _ => (calm_freeOption _).bind Calm.trans fun _ =>
          Preserves.pure Calm.refl _
      · refine (calm_free _).bind Calm.trans fun _ => ?_
        split
        · exact calm_parseResponse _ _ _
        · exact (calm_freeOption _).bind Calm.trans fun _ => Preserves.pure Calm.refl _
    · refine Preserves.mono (R := Calm) ?_ Calm.fetching
      exact (calm_free _).bind Calm.trans fun _ => Preserves.pure Calm.refl _
  · exact Preserves.mono (R := Calm) (Preserves.pure Calm.refl _) Calm.fetching

theorem calm_loadWeatherFromCache (filepath : Ptr (List Byte))
    (data : Option (Ptr (WeatherData F D))) :
    Preserves Calm (loadWeatherFromCache x env filepath data) := by
  refine (calm_loadFile filepath).bind Calm.trans fun root => ?_
  cases root with
  | none => exact Preserves.pure Calm.refl _
  | some root =>
    dsimp only
    split
    · refine (calm_malloc _).bind Calm.trans fun p => ?_
      split
      · exact (Preserves.lift Calm.refl _).bind Calm.trans fun _ => Preserves.pure Calm.refl _
      · exact (calm_free _).bind Calm.trans fun _ => Preserves.pure Calm.refl _
    · exact Preserves.pure Calm.refl _

theorem calm_freeCurrent (p : Ptr (WeatherData F D)) :
    Preserves Calm (freeCurrent p : Api F D Unit) :=
  (calm_deref p).bind Calm.trans fun _ => (calm_freeOption _).bind Calm.trans fun _ => calm_free p

/-! ## What is copied -/

/-- The units are copied and nothing else. -/
theorem exists_of_copyUnits (h : copyUnits units v = .ok u) :
    ∃ temperatureUnit windspeedUnit winddirectionUnit precipitationUnit,
      copyUnit units "temperature_2m" v.temperatureUnit = .ok temperatureUnit ∧
      copyUnit units "wind_speed_10m" v.windspeedUnit = .ok windspeedUnit ∧
      copyUnit units "wind_direction_10m" v.winddirectionUnit = .ok winddirectionUnit ∧
      copyUnit units "precipitation" v.precipitationUnit = .ok precipitationUnit ∧
      u = { v with
        temperatureUnit := temperatureUnit
        windspeedUnit := windspeedUnit
        winddirectionUnit := winddirectionUnit
        precipitationUnit := precipitationUnit } := by
  obtain ⟨temperatureUnit, ht, h⟩ := exists_of_bind_pure h
  obtain ⟨windspeedUnit, hw, h⟩ := exists_of_bind_pure h
  obtain ⟨winddirectionUnit, hd, h⟩ := exists_of_bind_pure h
  obtain ⟨precipitationUnit, hp, h⟩ := exists_of_bind_pure h
  exact ⟨_, _, _, _, ht, hw, hd, hp, (Except.ok.inj h).symm⟩

/-- What `parse_weather_json` does with a document it accepts. -/
theorem exists_of_parseWeatherJson {v₀ : WeatherData F D}
    (h : parseWeatherJson x now text v₀ lat lon = .ok (0, v)) :
    ∃ d current units u, x.loadb text = some d ∧ d.get "current" = some current ∧
      d.get "current_units" = some units ∧ copyUnits units v₀ = .ok u ∧
      v = { copyNumbers x now current u with
        latitude := lat, longitude := lon, cityName := cityName x lat lon } := by
  rw [parseWeatherJson] at h
  rcases hd : x.loadb text with _ | d
  · simp [hd] at h
  · rcases hc : d.get "current" with _ | current
    · simp [hd, hc] at h
    · rcases hu : d.get "current_units" with _ | units
      · simp [hd, hc, hu] at h
      · simp only [hd, hc, hu] at h
        obtain ⟨u, hv, hu'⟩ := exists_of_map h
        obtain ⟨u, hcopy, rfl⟩ := exists_of_map hv
        exact ⟨d, current, units, u, rfl, hc, hu, hcopy, (Prod.ext_iff.mp hu').2.symm⟩

/-! ## What is read -/

/-- The path of a cache file does not depend on who asks for it, as long as its 512 bytes
are there. -/
theorem generateCacheFilepath_eq (alloc : Bool) : generateCacheFilepath x config alloc lat lon
    = if alloc then generateCacheFilepath x config true lat lon else none := by
  rcases alloc
  · rw [generateCacheFilepath]
    dsimp only
    split <;> rfl
  · rfl

theorem of_malloc {α : Type} {a : α} {p : Ptr α} (h : malloc a w = .ok (p, w')) :
    p.value = a ∧ Heap.Live p w'.heap ∧ w'.files = w.files ∧ w'.fetches = w.fetches := by
  cases h
  exact ⟨rfl, Heap.live_alloc a w.heap, rfl, rfl⟩

theorem of_loadFile {filepath : Ptr (List Byte)} {root : Option (Json D)}
    (h : loadFile filepath w = .ok (root, w')) :
    Heap.Live filepath w.heap ∧ root = (w.files filepath.value).bind File.content ∧ w' = w := by
  obtain ⟨path, w₁, hpath, hget⟩ := exists_of_bind h
  obtain ⟨hlive, rfl, rfl⟩ := of_deref hpath
  obtain ⟨hroot, rfl⟩ := Prod.ext_iff.mp (Except.ok.inj hget)
  exact ⟨hlive, hroot.symm, rfl⟩

/-- The file is there and not older than the time to live. -/
def FileFresh (config : WeatherConfig) (env : Env) (files : List Byte → Option (File D))
    (path : List Byte) : Prop :=
  ∃ file, files path = some file ∧
    env.checkedAt.toInt - file.mtime.toInt ≤ config.cacheTtl.toInt

theorem of_isCacheValid {filepath : Ptr (List Byte)} {valid : Bool}
    (h : isCacheValid config env filepath w = .ok (valid, w')) :
    w' = w ∧ (valid = true ↔ FileFresh config env w.files filepath.value) := by
  obtain ⟨path, w₁, hpath, hstat⟩ := exists_of_bind h
  obtain ⟨-, rfl, rfl⟩ := of_deref hpath
  obtain ⟨w₂, w₃, hget, hfile⟩ := exists_of_bind hstat
  obtain ⟨rfl, rfl⟩ := Prod.ext_iff.mp (Except.ok.inj hget)
  dsimp only at hfile
  rcases hf : w₁.files filepath.value with _ | file
  · rw [hf] at hfile
    obtain ⟨rfl, rfl⟩ := Prod.ext_iff.mp (Except.ok.inj hfile)
    exact ⟨rfl, by simp [FileFresh, hf]⟩
  · rw [hf] at hfile
    obtain ⟨rfl, rfl⟩ := Prod.ext_iff.mp (Except.ok.inj hfile)
    exact ⟨rfl, by simp [FileFresh, hf]⟩

/-- Looking at the file changes nothing, and it is used only when there is a cache. -/
theorem of_useCacheFile {filepath : Ptr (List Byte)} {valid : Bool}
    (h : useCacheFile config env filepath w = .ok (valid, w')) :
    w' = w ∧ (valid = true ↔
      config.useCache = true ∧ FileFresh config env w.files filepath.value) := by
  rw [useCacheFile] at h
  split at h
  · rename_i huse
    obtain ⟨hw, hfile⟩ := of_isCacheValid h
    exact ⟨hw, by simp [huse, hfile]⟩
  · rename_i huse
    cases h
    exact ⟨rfl, by simp [huse]⟩

theorem isCacheValid_eq {filepath : Ptr (List Byte)} (h : Heap.Live filepath w.heap) :
    isCacheValid config env filepath w = .ok (match w.files filepath.value with
      | none => false
      | some file =>
        !decide (config.cacheTtl.toInt < env.checkedAt.toInt - file.mtime.toInt), w) := by
  rw [isCacheValid, bind_of_ok (deref_of_live h)]
  change (match w.files filepath.value with
    | none => pure false
    | some file => pure !decide (config.cacheTtl.toInt < env.checkedAt.toInt - file.mtime.toInt) :
      Api F D Bool) w = _
  rcases w.files filepath.value with _ | file <;> rfl

/-- A file that is there and young enough is used. -/
theorem useCacheFile_of_fresh {filepath : Ptr (List Byte)} {file : File D}
    (huse : config.useCache = true) (hlive : Heap.Live filepath w.heap)
    (hfile : w.files filepath.value = some file)
    (hage : env.checkedAt.toInt - file.mtime.toInt ≤ config.cacheTtl.toInt) :
    useCacheFile config env filepath w = .ok (true, w) := by
  rw [useCacheFile, if_pos huse, isCacheValid_eq hlive, hfile]
  dsimp only
  rw [decide_eq_false (Int.not_lt.mpr hage)]
  rfl

/-- `load_weather_from_cache` succeeds on a document with its two objects. -/
theorem of_loadWeatherFromCache {filepath : Ptr (List Byte)}
    (h : loadWeatherFromCache x env filepath data w = .ok ((0, data'), w')) :
    env.alloc.loaded = true ∧ ∃ file root current units p,
      w.files filepath.value = some file ∧ file.content = some root ∧
      root.get "current" = some current ∧ root.get "current_units" = some units ∧
      data' = some p ∧
      loadValues x env.loadedAt root current units (zeroed x) = .ok p.value := by
  obtain ⟨root, w₁, hload, h₁⟩ := exists_of_bind h
  obtain ⟨-, rfl, rfl⟩ := of_loadFile hload
  rcases hfile : w₁.files filepath.value with _ | file
  · rw [hfile] at h₁
    cases h₁
  · rw [hfile, Option.bind_some] at h₁
    rcases hroot : file.content with _ | root
    · rw [hroot] at h₁
      cases h₁
    · simp only [hroot] at h₁
      split at h₁
      · rename_i halloc
        obtain ⟨p, w₂, hp, h₂⟩ := exists_of_bind h₁
        obtain ⟨hvalue, -⟩ := of_malloc hp
        rcases hc : root.get "current" with _ | current
        · simp only [hc] at h₂
          obtain ⟨_, _, -, h₃⟩ := exists_of_bind h₂
          cases h₃
        · rcases hu : root.get "current_units" with _ | units
          · simp only [hc, hu] at h₂
            obtain ⟨_, _, -, h₃⟩ := exists_of_bind h₂
            cases h₃
          · simp only [hc, hu, hvalue] at h₂
            obtain ⟨value, w₃, hlift, h₃⟩ := exists_of_bind h₂
            rcases hv : loadValues x env.loadedAt root current units (zeroed x) with f | value'
            · rw [hv] at hlift
              cases hlift
            · rw [hv] at hlift
              cases hlift
              cases h₃
              exact ⟨halloc, file, root, current, units, _, rfl, hroot, hc, hu, rfl, hv⟩
      · cases h₁

/-! ## What is fetched -/

/-- The bytes of a response. -/
def Transfer.body : Transfer → Option (List Byte)
  | .failed => none
  | .done _ body => body

theorem of_perform {url : Ptr (List Byte)} {r : Transfer × Option (Ptr (List Byte))}
    (h : perform env url lat lon w = .ok (r, w')) :
    r.1 = env.transfer ∧ r.2.map Ptr.value = Transfer.body env.transfer ∧
      w'.fetches = ⟨lat, lon, env.transfer, env.fetchedAt⟩ :: w.fetches := by
  obtain ⟨_, w₁, hurl, h₁⟩ := exists_of_bind h
  obtain ⟨-, -, rfl⟩ := of_deref hurl
  obtain ⟨_, w₂, hlog, h₂⟩ := exists_of_bind h₁
  cases hlog
  rcases ht : env.transfer with _ | ⟨code, _ | body⟩
  · simp only [ht] at h₂
    cases h₂
    exact ⟨rfl, rfl, rfl⟩
  · simp only [ht] at h₂
    cases h₂
    exact ⟨rfl, rfl, rfl⟩
  · simp only [ht] at h₂
    obtain ⟨p, w₃, hp, h₃⟩ := exists_of_bind h₂
    obtain ⟨hvalue, -, -, hfetches⟩ := of_malloc hp
    cases h₃
    exact ⟨rfl, congrArg some hvalue, hfetches⟩

/-- A response that is taken has a text, and the text is accepted. -/
theorem of_parseResponse {chunk : Option (Ptr (List Byte))}
    (h : parseResponse x env chunk lat lon w = .ok ((0, data'), w')) :
    env.alloc.fetched = true ∧ ∃ jsonStr v p, chunk = some jsonStr ∧ data' = some p ∧
      parseWeatherJson x env.fetchedAt jsonStr.value (zeroed x) lat lon = .ok (0, v) ∧
      p.value = { v with rawJsonCache := some jsonStr } := by
  rw [parseResponse] at h
  split at h
  · rename_i halloc
    obtain ⟨p, w₁, hp, h₁⟩ := exists_of_bind h
    obtain ⟨hvalue, -⟩ := of_malloc hp
    rcases chunk with _ | jsonStr
    · cases h₁
    · obtain ⟨text, w₂, htext, h₂⟩ := exists_of_bind h₁
      obtain ⟨-, rfl, rfl⟩ := of_deref htext
      obtain ⟨r, w₃, hlift, h₃⟩ := exists_of_bind h₂
      rw [hvalue] at hlift
      rcases hparse : parseWeatherJson x env.fetchedAt jsonStr.value (zeroed x) lat lon with
        f | ⟨result, v⟩
      · rw [hparse] at hlift
        cases hlift
      · rw [hparse] at hlift
        cases hlift
        dsimp only at h₃
        split at h₃
        · rename_i hzero
          subst hzero
          cases h₃
          exact ⟨halloc, jsonStr, v, _, rfl, rfl, hparse, rfl⟩
        · obtain ⟨_, _, -, h₄⟩ := exists_of_bind h₃
          obtain ⟨_, _, -, h₅⟩ := exists_of_bind h₄
          cases h₅
  · obtain ⟨_, _, -, h₁⟩ := exists_of_bind h
    cases h₁

/-- **A fetch that succeeds** made its transfer, and the text it got is accepted. -/
theorem of_fetchWeatherFromApi
    (h : fetchWeatherFromApi x env lat lon data w = .ok ((0, data'), w')) :
    ∃ jsonStr v p, (env.alloc.url = true ∧ env.alloc.curl = true ∧ env.alloc.fetched = true) ∧
      env.transfer = .done 200 (some jsonStr.value) ∧ data' = some p ∧
      parseWeatherJson x env.fetchedAt jsonStr.value (zeroed x) lat lon = .ok (0, v) ∧
      p.value = { v with rawJsonCache := some jsonStr } ∧
      w'.fetches = ⟨lat, lon, env.transfer, env.fetchedAt⟩ :: w.fetches := by
  rw [fetchWeatherFromApi] at h
  split at h
  · rename_i hallocUrl
    obtain ⟨url, w₁, hurl, h₁⟩ := exists_of_bind h
    have hcalm := calm_malloc _ _ _ _ hurl
    split at h₁
    · rename_i hallocCurl
      obtain ⟨⟨res, chunk⟩, w₂, hperform, h₂⟩ := exists_of_bind h₁
      obtain ⟨hres, hchunk, hfetches⟩ := of_perform hperform
      dsimp only at hres hchunk h₂
      subst hres
      rcases htransfer : env.transfer with _ | ⟨httpCode, body⟩
      · rw [htransfer] at h₂
        obtain ⟨_, _, -, h₃⟩ := exists_of_bind h₂
        obtain ⟨_, _, -, h₄⟩ := exists_of_bind h₃
        cases h₄
      · simp only [htransfer] at h₂
        obtain ⟨_, w₃, hfree, h₃⟩ := exists_of_bind h₂
        split at h₃
        · rename_i hcode
          subst hcode
          obtain ⟨hallocFetched, jsonStr, v, p, rfl, rfl, hparse, hp⟩ := of_parseResponse h₃
          obtain ⟨rfl⟩ : some jsonStr.value = body := by
            simpa [htransfer, Transfer.body] using hchunk
          refine ⟨jsonStr, v, p, ⟨hallocUrl, hallocCurl, hallocFetched⟩, rfl, rfl, hparse, hp, ?_⟩
          rw [((calm_free _ _ _ _ hfree).trans (calm_parseResponse _ _ _ _ _ _ h₃)).fetches,
            hfetches, hcalm.fetches, htransfer]
        · obtain ⟨_, _, -, h₄⟩ := exists_of_bind h₃
          cases h₄
    · obtain ⟨_, _, -, h₂⟩ := exists_of_bind h₁
      cases h₂
  · cases h

/-! ## What is saved -/

variable {cacheFile raw : Ptr (List Byte)} {p q : Ptr (WeatherData F D)} {json : Json D}
  {path : List Byte}

/-- The files after a document was written to `path`, or could not be. -/
def written (config : WeatherConfig) (env : Env) (path : List Byte) (json : Json D)
    (files : List Byte → Option (File D)) : List Byte → Option (File D) :=
  if config.useCache && env.saved then
    Function.update files path (some ⟨some json, env.fetchedAt⟩)
  else files

/-- A save writes the document to the path, or nothing. -/
theorem of_saveRawJsonToCache (hjson : x.loadb raw.value = some json)
    (h : saveRawJsonToCache x env cacheFile raw w = .ok (code, w')) :
    Heap.Live cacheFile w.heap ∧ (code = 0 ↔ env.saved = true) ∧
    w' = { w with
      files := if env.saved then
          Function.update w.files cacheFile.value (some ⟨some json, env.fetchedAt⟩)
        else w.files } := by
  obtain ⟨text, w₁, htext, h₁⟩ := exists_of_bind h
  obtain ⟨-, rfl, rfl⟩ := of_deref htext
  rw [hjson] at h₁
  obtain ⟨path, w₂, hpath, h₂⟩ := exists_of_bind h₁
  obtain ⟨hlive, rfl, rfl⟩ := of_deref hpath
  rcases hsaved : env.saved
  · simp only [hsaved] at h₂
    cases h₂
    exact ⟨hlive, by simp, rfl⟩
  · simp only [hsaved] at h₂
    cases h₂
    exact ⟨hlive, by simp, rfl⟩

/-- A save that can be written succeeds. -/
theorem saveRawJsonToCache_eq (hraw : Heap.Live raw w.heap) (hjson : x.loadb raw.value = some json)
    (hlive : Heap.Live cacheFile w.heap) (hsaved : env.saved = true) :
    saveRawJsonToCache x env cacheFile raw w = .ok (0, { w with
      files := Function.update w.files cacheFile.value (some ⟨some json, env.fetchedAt⟩) }) := by
  rw [saveRawJsonToCache, bind_of_ok (deref_of_live hraw), hjson]
  dsimp only
  rw [bind_of_ok (deref_of_live hlive), if_pos hsaved]
  rfl

/-- The block `Save RAW JSON to cache` writes the document if there is a cache. -/
theorem of_saveFetched (hraw : p.value.rawJsonCache = some raw)
    (hjson : x.loadb raw.value = some json)
    (h : saveFetched x config env cacheFile p w = .ok (q, w')) :
    q.value = { p.value with rawJsonCache := q.value.rawJsonCache } ∧
    w.heap.released ⊆ w'.heap.released ∧ w'.fetches = w.fetches ∧
    w'.files = written config env cacheFile.value json w.files := by
  rw [saveFetched] at h
  split at h
  · rename_i huse
    obtain ⟨value, w₁, hvalue, h₁⟩ := exists_of_bind h
    obtain ⟨-, rfl, rfl⟩ := of_deref hvalue
    rw [hraw] at h₁
    obtain ⟨code, w₂, hsave, h₂⟩ := exists_of_bind h₁
    obtain ⟨-, -, rfl⟩ := of_saveRawJsonToCache hjson hsave
    obtain ⟨_, w₃, hfree, h₃⟩ := exists_of_bind h₂
    have hcalm := calm_free _ _ _ _ hfree
    obtain ⟨-, -, hw⟩ := of_free hfree
    cases h₃
    refine ⟨rfl, hcalm.released, by rw [hw], ?_⟩
    rw [hw, written, huse, Bool.true_and]
  · rename_i huse
    cases h
    refine ⟨rfl, List.Subset.refl _, rfl, ?_⟩
    rw [written, Bool.not_eq_true] at *
    rw [huse]
    rfl

/-- **A fetch that is needed and succeeds.** -/
structure Fetched (x : Platform F D) (config : WeatherConfig) (env : Env) (lat lon : F)
    (path : List Byte) (p : Ptr (WeatherData F D)) (w w' : World F D) : Prop where
  alloc : env.alloc.url = true ∧ env.alloc.curl = true ∧ env.alloc.fetched = true
  fetch : ∃ body json v, env.transfer = .done 200 (some body) ∧ x.loadb body = some json ∧
    parseWeatherJson x env.fetchedAt body (zeroed x) lat lon = .ok (0, v) ∧
    p.value = { v with rawJsonCache := p.value.rawJsonCache } ∧
    w'.files = written config env path json w.files
  fetches : w'.fetches = ⟨lat, lon, env.transfer, env.fetchedAt⟩ :: w.fetches

/-- **The part after the cache** needs a path that was not released; it fetches and saves, or it
fails and writes nothing. -/
theorem of_fetchAndSave
    (h : fetchAndSave x config env cacheFile lat lon data w = .ok ((code, data'), w')) :
    cacheFile.block ∉ w.heap.released ∧
    ((code = 0 ∧ ∃ p, data' = some p ∧ Fetched x config env lat lon cacheFile.value p w w') ∨
      (code = -3 ∧ Fetching w w')) := by
  obtain ⟨⟨result, data₁⟩, w₁, hfetch, h₁⟩ := exists_of_bind h
  have hfetching := fetching_fetchWeatherFromApi _ _ _ _ _ _ hfetch
  dsimp only at h₁
  split at h₁
  · rename_i hzero
    subst hzero
    obtain ⟨jsonStr, v, p, halloc, htransfer, rfl, hparse, hp, hmade⟩ :=
      of_fetchWeatherFromApi hfetch
    obtain ⟨q, w₂, hsave, h₂⟩ := exists_of_bind h₁
    obtain ⟨_, w₃, hfree, h₃⟩ := exists_of_bind h₂
    obtain ⟨json, -, -, -, hjson, -⟩ := exists_of_parseWeatherJson hparse
    obtain ⟨hvalue, hreleased, hfetches, hfiles⟩ := of_saveFetched (by rw [hp]) hjson hsave
    have hcalm := calm_free _ _ _ _ hfree
    obtain ⟨hlive, -, -⟩ := of_free hfree
    cases h₃
    refine ⟨fun hb => hlive.2 (hreleased (hfetching.released hb)), Or.inl ⟨rfl, q, rfl, halloc, ?_,
      hcalm.fetches.trans (hfetches.trans hmade)⟩⟩
    refine ⟨_, json, v, htransfer, hjson, hparse, ?_, ?_⟩
    · rw [hvalue, hp]
    · rw [hcalm.files, hfiles, hfetching.files]
  · obtain ⟨_, w₂, hfree, h₂⟩ := exists_of_bind h₁
    have hcalm := calm_free _ _ _ _ hfree
    obtain ⟨hlive, -, -⟩ := of_free hfree
    cases h₂
    exact ⟨fun hb => hlive.2 (hfetching.released hb), Or.inr ⟨rfl, hfetching.trans hcalm.fetching⟩⟩

/-! ## The current weather -/

/-- **A hit**: the file is young enough, and what it holds is loaded. -/
structure Hit (x : Platform F D) (config : WeatherConfig) (env : Env) (path : List Byte)
    (p : Ptr (WeatherData F D)) (w w' : World F D) : Prop where
  useCache : config.useCache = true
  alloc : env.alloc.loaded = true
  file : ∃ file root current units, w.files path = some file ∧
    env.checkedAt.toInt - file.mtime.toInt ≤ config.cacheTtl.toInt ∧ file.content = some root ∧
    root.get "current" = some current ∧ root.get "current_units" = some units ∧
    loadValues x env.loadedAt root current units (zeroed x) = .ok p.value
  calm : Calm w w'

/-- A calm step before a fetch makes no difference. -/
theorem Fetched.of_calm (hcalm : Calm w w') (h : Fetched x config env lat lon path p w' w'') :
    Fetched x config env lat lon path p w w'' := by
  obtain ⟨halloc, ⟨body, json, v, htransfer, hjson, hparse, hp, hwritten⟩, hfetches⟩ := h
  exact ⟨halloc, ⟨body, json, v, htransfer, hjson, hparse, hp, by rw [hwritten, hcalm.files]⟩,
    by rw [hfetches, hcalm.fetches]⟩

/-- **How `open_meteo_api_get_current` can return**: without a path, with a hit, or through the
fetch.  What is left after a load that failed cannot return: it releases the path again. -/
theorem of_getCurrent
    (h : getCurrent x config env lat lon data w = .ok ((code, data'), w')) :
    (generateCacheFilepath x config env.alloc.cacheFile lat lon = none ∧ code = -2 ∧ w' = w) ∨
    ∃ path, generateCacheFilepath x config env.alloc.cacheFile lat lon = some path ∧
      ((code = 0 ∧ ∃ p, data' = some p ∧ Hit x config env path p w w') ∨
        (¬ (config.useCache = true ∧ FileFresh config env w.files path) ∧
          ((code = 0 ∧ ∃ p, data' = some p ∧ Fetched x config env lat lon path p w w') ∨
            (code = -3 ∧ Fetching w w')))) := by
  rw [getCurrent] at h
  rcases hpath : generateCacheFilepath x config env.alloc.cacheFile lat lon with _ | path
  · rw [hpath] at h
    cases h
    exact Or.inl ⟨rfl, rfl, rfl⟩
  · rw [hpath] at h
    obtain ⟨cacheFile, w₁, hmalloc, h₁⟩ := exists_of_bind h
    have hcalm := calm_malloc _ _ _ _ hmalloc
    obtain ⟨hvalue, -⟩ := of_malloc hmalloc
    obtain ⟨valid, w₂, hvalid, h₂⟩ := exists_of_bind h₁
    obtain ⟨rfl, hfresh⟩ := of_useCacheFile hvalid
    rw [hvalue, hcalm.files] at hfresh
    refine Or.inr ⟨path, rfl, ?_⟩
    rcases valid
    · simp only [Bool.false_eq_true, if_false] at h₂
      refine Or.inr ⟨fun hyes => Bool.false_ne_true (hfresh.mpr hyes), ?_⟩
      rcases (of_fetchAndSave h₂).2 with ⟨hzero, p, hp, hfetched⟩ | ⟨hfailed, hfetching⟩
      · rw [hvalue] at hfetched
        exact Or.inl ⟨hzero, p, hp, hfetched.of_calm hcalm⟩
      · exact Or.inr ⟨hfailed, hcalm.fetching.trans hfetching⟩
    · obtain ⟨huse, file, hfile, hage⟩ := hfresh.mp rfl
      simp only [if_true] at h₂
      obtain ⟨⟨result, data₁⟩, w₃, hload, h₃⟩ := exists_of_bind h₂
      have hcalm₁ := calm_loadWeatherFromCache _ _ _ _ _ hload
      obtain ⟨_, w₄, hfree, h₄⟩ := exists_of_bind h₃
      have hcalm₂ := calm_free _ _ _ _ hfree
      dsimp only at h₄
      split at h₄
      · rename_i hzero
        subst hzero
        obtain ⟨halloc, file', root, current, units, p, hfile', hroot, hc, hu, rfl, hv⟩ :=
          of_loadWeatherFromCache hload
        rw [hvalue, hcalm.files] at hfile'
        obtain rfl := Option.some.inj (hfile.symm.trans hfile')
        cases h₄
        exact Or.inl ⟨rfl, p, rfl, huse, halloc,
          ⟨file, root, current, units, hfile, hage, hroot, hc, hu, hv⟩,
          (hcalm.trans hcalm₁).trans hcalm₂⟩
      · -- the path was released, so what follows cannot end
        obtain ⟨hlive, hheap, -⟩ := of_free hfree
        rw [Heap.free, dif_pos hlive] at hheap
        refine absurd ?_ (of_fetchAndSave h₄).1
        rw [← Except.ok.inj hheap]
        exact List.mem_cons_self ..

/-- What is returned without a hit was fetched. -/
theorem fetched_of_getCurrent
    (h : getCurrent x config env lat lon data w = .ok ((0, some p), w'))
    (hpath : generateCacheFilepath x config env.alloc.cacheFile lat lon = some path)
    (hmiss : ¬ (config.useCache = true ∧ FileFresh config env w.files path)) :
    Fetched x config env lat lon path p w w' := by
  rcases of_getCurrent h with
    ⟨hnone, -⟩ | ⟨path', hpath', ⟨-, q, -, hhit⟩ | ⟨-, ⟨-, q, hq, hfetched⟩ | ⟨hcode, -⟩⟩⟩
  · cases hpath.symm.trans hnone
  · obtain rfl := Option.some.inj (hpath.symm.trans hpath')
    obtain ⟨file, -, -, -, hfile, hage, -⟩ := hhit.file
    exact absurd ⟨hhit.useCache, file, hfile, hage⟩ hmiss
  · obtain rfl := Option.some.inj (hpath.symm.trans hpath')
    obtain rfl := Option.some.inj hq
    exact hfetched
  · cases hcode

end OpenMeteoApi
