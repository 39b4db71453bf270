import JustWeather.Server.OpenMeteoApi.Worlds

/-!
# Server/OpenMeteoApi/Progress — a fetch that succeeds is returned

When nothing is loaded from the cache and the transfer ends with a document that is accepted,
`open_meteo_api_get_current` goes through without a fault, and what it gives its caller can be
released (`exists_getCurrent`).
-/

open CLib Fallible

namespace OpenMeteoApi

variable {F D : Type} {x : Platform F D} {config : WeatherConfig} {env : Env} {lat lon : F}
  {text path : List Byte} {json : Json D} {v : WeatherData F D} {w w' w'' : World F D}
  {p : Ptr (WeatherData F D)} {cacheFile : Ptr (List Byte)}

/-! ## Blocks that stay live -/

/-- Every block that is live stays live, and is not the block `b`. -/
def KeepsApart (b : ℕ) (w w' : World F D) : Prop :=
  ∀ {α : Type} {q : Ptr α}, Heap.Live q w.heap → Heap.Live q w'.heap ∧ q.block ≠ b

/-- A block that is taken is live, and apart from the others. -/
theorem exists_malloc {α : Type} (a : α) (w : World F D) :
    ∃ p w', malloc a w = .ok (p, w') ∧ p.value = a ∧ Heap.Live p w'.heap ∧
      KeepsApart p.block w w' ∧ w'.files = w.files :=
  ⟨_, _, rfl, rfl, Heap.live_alloc a w.heap, fun hq => ⟨hq.alloc a, Nat.ne_of_lt hq.1⟩, rfl⟩

/-- A block that is live can be released, and the others stay live. -/
theorem exists_free {α : Type} {p : Ptr α} (hp : Heap.Live p w.heap) :
    ∃ w', free p w = .ok ((), w') ∧ (∀ {β : Type} {q : Ptr β}, Heap.Live q w.heap →
      q.block ≠ p.block → Heap.Live q w'.heap) ∧ w'.files = w.files := by
  obtain ⟨heap, hheap, hfree⟩ := free_of_live hp
  exact ⟨_, hfree, fun hq hne => hq.free hne hheap, rfl⟩

/-! ## The data of a caller -/

/-- **The caller owns the data**: the block is live, and so is the raw document, in
another block. -/
def Owned (p : Ptr (WeatherData F D)) (w : World F D) : Prop :=
  Heap.Live p w.heap ∧ ∀ raw, p.value.rawJsonCache = some raw →
    Heap.Live raw w.heap ∧ raw.block ≠ p.block

theorem Owned.of_keeps (h : Owned p w) (hkeeps : Keeps w w') : Owned p w' :=
  ⟨hkeeps h.1, fun raw hraw => ⟨hkeeps (h.2 raw hraw).1, (h.2 raw hraw).2⟩⟩

/-- **Data that is owned can be released.** -/
theorem exists_freeCurrent (h : Owned p w) : ∃ w', freeCurrent p w = .ok ((), w') := by
  rw [freeCurrent, bind_of_ok (deref_of_live h.1)]
  rcases hraw : p.value.rawJsonCache with _ | raw
  · obtain ⟨w', hfree, -⟩ := exists_free h.1
    exact ⟨w', hfree⟩
  · obtain ⟨hlive, hne⟩ := h.2 raw hraw
    obtain ⟨w', hfree, hkeeps, -⟩ := exists_free hlive
    obtain ⟨w'', hfree', -⟩ := exists_free (hkeeps h.1 hne.symm)
    refine ⟨w'', ?_⟩
    rw [freeOption, bind_of_ok hfree, hfree']

/-! ## The fetch -/

theorem exists_perform {url : Ptr (List Byte)} {httpCode : ℤ} (lat lon : F)
    (hurl : Heap.Live url w.heap) (htransfer : env.transfer = .done httpCode (some text)) :
    ∃ chunk w', perform env url lat lon w = .ok ((env.transfer, some chunk), w') ∧
      chunk.value = text ∧ Heap.Live chunk w'.heap ∧ KeepsApart chunk.block w w' ∧
      w'.files = w.files := by
  obtain ⟨chunk, w', hmalloc, hvalue, hlive, hkeeps, hfiles⟩ := exists_malloc text
    { w with fetches := ⟨lat, lon, env.transfer, env.fetchedAt⟩ :: w.fetches }
  refine ⟨chunk, w', ?_, hvalue, hlive, hkeeps, hfiles⟩
  rw [perform, bind_of_ok (deref_of_live hurl)]
  have hlog : (modify fun w : World F D =>
      { w with fetches := ⟨lat, lon, env.transfer, env.fetchedAt⟩ :: w.fetches } : Api F D Unit) w
      = .ok ((), { w with fetches := ⟨lat, lon, env.transfer, env.fetchedAt⟩ :: w.fetches }) := rfl
  rw [bind_of_ok hlog]
  simp only [htransfer]
  rw [htransfer] at hmalloc
  rw [bind_of_ok hmalloc]
  rfl

theorem exists_parseResponse {chunk : Ptr (List Byte)} (halloc : env.alloc.fetched = true)
    (hchunk : Heap.Live chunk w.heap)
    (hparse : parseWeatherJson x env.fetchedAt chunk.value (zeroed x) lat lon = .ok (0, v)) :
    ∃ p w', parseResponse x env (some chunk) lat lon w = .ok ((0, some p), w') ∧
      p.value = { v with rawJsonCache := some chunk } ∧ Heap.Live p w'.heap ∧
      KeepsApart p.block w w' ∧ w'.files = w.files := by
  obtain ⟨p, w', hmalloc, hvalue, hlive, hkeeps, hfiles⟩ := exists_malloc (zeroed x) w
  refine ⟨{ p with value := { v with rawJsonCache := some chunk } }, w', ?_, rfl, hlive, hkeeps,
    hfiles⟩
  rw [parseResponse, if_pos halloc, bind_of_ok hmalloc]
  dsimp only
  rw [bind_of_ok (deref_of_live (hkeeps hchunk).1), hvalue, hparse]
  rfl

/-- **A transfer that ends with a document that is accepted is a fetch that succeeds.** -/
theorem exists_fetchWeatherFromApi (data : Option (Ptr (WeatherData F D))) (w : World F D)
    (halloc : env.alloc.url = true ∧ env.alloc.curl = true ∧ env.alloc.fetched = true)
    (htransfer : env.transfer = .done 200 (some text))
    (hparse : parseWeatherJson x env.fetchedAt text (zeroed x) lat lon = .ok (0, v)) :
    ∃ chunk p w', fetchWeatherFromApi x env lat lon data w = .ok ((0, some p), w') ∧
      chunk.value = text ∧ p.value = { v with rawJsonCache := some chunk } ∧ Owned p w' ∧
      KeepsApart p.block w w' ∧ KeepsApart chunk.block w w' ∧ w'.files = w.files := by
  obtain ⟨url, w₁, hurl, -, hurlLive, hkeeps₁, hfiles₁⟩ := exists_malloc (buildApiUrl x lat lon) w
  obtain ⟨chunk, w₂, hperform, rfl, hchunk, hkeeps₂, hfiles₂⟩ :=
    exists_perform lat lon hurlLive htransfer
  obtain ⟨w₃, hfree, hkeeps₃, hfiles₃⟩ := exists_free (hkeeps₂ hurlLive).1
  have hchunk₃ := hkeeps₃ hchunk (hkeeps₂ hurlLive).2.symm
  obtain ⟨p, w₄, hresponse, hp, hlive, hkeeps₄, hfiles₄⟩ :=
    exists_parseResponse halloc.2.2 hchunk₃ hparse
  -- what was live is apart from all three blocks
  have hold : ∀ {α : Type} {q : Ptr α}, Heap.Live q w.heap → Heap.Live q w₄.heap ∧
      q.block ≠ p.block ∧ q.block ≠ chunk.block := by
    intro α q hq
    obtain ⟨hq₁, hneUrl⟩ := hkeeps₁ hq
    obtain ⟨hq₂, hneChunk⟩ := hkeeps₂ hq₁
    obtain ⟨hq₄, hneData⟩ := hkeeps₄ (hkeeps₃ hq₂ hneUrl)
    exact ⟨hq₄, hneData, hneChunk⟩
  refine ⟨chunk, p, w₄, ?_, rfl, hp, ⟨hlive, ?_⟩, fun hq => ⟨(hold hq).1, (hold hq).2.1⟩,
    fun hq => ⟨(hold hq).1, (hold hq).2.2⟩, ?_⟩
  · rw [fetchWeatherFromApi, if_pos halloc.1, bind_of_ok hurl, if_pos halloc.2.1,
      bind_of_ok hperform]
    simp only [htransfer]
    rw [bind_of_ok hfree, if_pos trivial, hresponse]
  · intro raw hraw
    rw [hp] at hraw
    obtain rfl := Option.some.inj hraw
    exact hkeeps₄ hchunk₃
  · rw [hfiles₄, hfiles₃, hfiles₂, hfiles₁]

/-! ## The save -/

theorem exists_saveRawJsonToCache (env : Env) {raw : Ptr (List Byte)} (hraw : Heap.Live raw w.heap)
    (hjson : x.loadb raw.value = some json) (hcacheFile : Heap.Live cacheFile w.heap) :
    ∃ code w', saveRawJsonToCache x env cacheFile raw w = .ok (code, w') ∧ w'.heap = w.heap := by
  rw [saveRawJsonToCache, bind_of_ok (deref_of_live hraw), hjson]
  dsimp only
  rw [bind_of_ok (deref_of_live hcacheFile)]
  split
  · exact ⟨_, _, rfl, rfl⟩
  · exact ⟨_, _, rfl, rfl⟩

/-- **The save goes through**, whether the document can be written or not. -/
theorem exists_saveFetched (config : WeatherConfig) (env : Env) {raw : Ptr (List Byte)}
    (hp : Owned p w) (hraw : p.value.rawJsonCache = some raw)
    (hjson : x.loadb raw.value = some json)
    (hcacheFile : Heap.Live cacheFile w.heap) (hneRaw : cacheFile.block ≠ raw.block) :
    ∃ q w', saveFetched x config env cacheFile p w = .ok (q, w') ∧ Owned q w' ∧
      Heap.Live cacheFile w'.heap ∧ q.block = p.block ∧
      (∀ raw', q.value.rawJsonCache = some raw' → cacheFile.block ≠ raw'.block) := by
  obtain ⟨hlive, hne⟩ := hp.2 raw hraw
  rw [saveFetched]
  split
  · rw [bind_of_ok (deref_of_live hp.1), hraw]
    dsimp only
    obtain ⟨code, w₁, hsave, hheap⟩ := exists_saveRawJsonToCache env hlive hjson hcacheFile
    rw [← hheap] at hlive hcacheFile
    obtain ⟨w₂, hfree, hkeeps, -⟩ := exists_free hlive
    rw [bind_of_ok hsave, bind_of_ok hfree]
    refine ⟨_, w₂, rfl, ⟨hkeeps (hheap ▸ hp.1) hne.symm, fun raw' hraw' => ?_⟩,
      hkeeps hcacheFile hneRaw, rfl, fun raw' hraw' => ?_⟩
    · cases hraw'
    · cases hraw'
  · refine ⟨p, w, rfl, hp, hcacheFile, rfl, fun raw' hraw' => ?_⟩
    rw [hraw] at hraw'
    obtain rfl := Option.some.inj hraw'
    exact hneRaw

/-! ## The current weather -/

/-- A file is looked at without a fault. -/
theorem exists_useCacheFile (config : WeatherConfig) (env : Env) {filepath : Ptr (List Byte)}
    (h : Heap.Live filepath w.heap) :
    ∃ valid, useCacheFile config env filepath w = .ok (valid, w) := by
  rw [useCacheFile]
  split
  · exact ⟨_, isCacheValid_eq h⟩
  · exact ⟨false, rfl⟩

/-- **A fetch that is needed and succeeds is returned**, and the caller can release what it got. -/
theorem exists_getCurrent (data : Option (Ptr (WeatherData F D)))
    (hpath : generateCacheFilepath x config env.alloc.cacheFile lat lon = some path)
    (hmiss : ¬ (config.useCache = true ∧ FileFresh config env w.files path))
    (halloc : env.alloc.url = true ∧ env.alloc.curl = true ∧ env.alloc.fetched = true)
    (htransfer : env.transfer = .done 200 (some text))
    (hparse : parseWeatherJson x env.fetchedAt text (zeroed x) lat lon = .ok (0, v)) :
    ∃ p w', getCurrent x config env lat lon data w = .ok ((0, some p), w') ∧ Owned p w' := by
  obtain ⟨cacheFile, w₁, hmalloc, hvalue, hlive₁, -, hfiles⟩ := exists_malloc path w
  obtain ⟨valid, huse⟩ := exists_useCacheFile config env hlive₁
  have hvalid : valid = false := by
    rw [← Bool.not_eq_true]
    intro hyes
    have := (of_useCacheFile huse).2.mp hyes
    rw [hvalue, hfiles] at this
    exact hmiss this
  subst hvalid
  obtain ⟨raw, p, w₂, hfetch, rfl, hp, howned, hkeepsData, hkeepsRaw, -⟩ :=
    exists_fetchWeatherFromApi data w₁ halloc htransfer hparse
  obtain ⟨json, -, -, -, hjson, -⟩ := exists_of_parseWeatherJson hparse
  obtain ⟨hlive₂, hneData⟩ := hkeepsData hlive₁
  obtain ⟨q, w₃, hsave, howned₃, hlive₃, hblock, hneRaw⟩ := exists_saveFetched config env
    howned (by rw [hp]) hjson hlive₂ (hkeepsRaw hlive₁).2
  obtain ⟨w₄, hfree, hkeeps, -⟩ := exists_free hlive₃
  refine ⟨q, w₄, ?_, ?_, fun raw' hraw' => ?_⟩
  · rw [getCurrent, hpath]
    dsimp only
    rw [bind_of_ok hmalloc, bind_of_ok huse]
    simp only [Bool.false_eq_true, if_false]
    rw [fetchAndSave, bind_of_ok hfetch]
    simp only [if_true]
    rw [bind_of_ok hsave, bind_of_ok hfree]
    rfl
  · exact hkeeps howned₃.1 (hblock ▸ hneData.symm)
  · obtain ⟨hraw, hne⟩ := howned₃.2 raw' hraw'
    exact ⟨hkeeps hraw (hneRaw raw' hraw').symm, hne⟩

end OpenMeteoApi
