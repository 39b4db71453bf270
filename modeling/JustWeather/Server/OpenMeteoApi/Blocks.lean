import JustWeather.CLib.Footprint
import JustWeather.Server.OpenMeteoApi.Readers

/-!
# Server/OpenMeteoApi/Blocks — the blocks the functions take and give back

What each function of `open_meteo_api.c` leaves of the blocks it took, wherever it returns: the data
that is handed over, with the raw document in it, and nothing else (`returns_getCurrent`).
-/

open CLib Fallible Heap

namespace OpenMeteoApi

variable {F D : Type} {x : Platform F D} {config : WeatherConfig} {env : Env} {lat lon : F}
  {L : List ℕ} {w w' : World F D} {data : Option (Ptr (WeatherData F D))}
  {p : Ptr (WeatherData F D)} {cacheFile filepath url : Ptr (List Byte)}
  {chunk : Option (Ptr (List Byte))} {path : List Byte}

/-! ## Blocks -/

theorem returns_malloc {α : Type} (a : α) (h : Holds L w.heap) :
    Returns (malloc a) w fun p w' =>
      p.value = a ∧ Holds (p.block :: L) w'.heap ∧ w'.files = w.files :=
  ⟨_, _, rfl, rfl, h.alloc a, rfl⟩

theorem returns_deref {α : Type} {p : Ptr α} (h : Holds L w.heap) (hp : p.block ∈ L) :
    Returns (deref p) w fun a w' => a = p.value ∧ w' = w :=
  ⟨_, _, deref_of_live (h.live hp), rfl, rfl⟩

theorem returns_free {α : Type} {p : Ptr α} (h : Holds (p.block :: L) w.heap) :
    Returns (free p) w fun _ w' => Holds L w'.heap ∧ w'.files = w.files := by
  obtain ⟨heap, hfree, hheap⟩ := h.free
  refine ⟨(), { w with heap := heap }, ?_, hheap, rfl⟩
  rw [free, hfree]
  rfl

theorem returns_freeOption {α : Type} {p : Option (Ptr α)}
    (h : Holds (Ptr.blocks p ++ L) w.heap) :
    Returns (freeOption p) w fun _ w' => Holds L w'.heap ∧ w'.files = w.files := by
  rcases p with _ | p
  · exact .pure ⟨h, rfl⟩
  · exact returns_free h

/-- The blocks of the data: its own, and that of the raw document. -/
def dataBlocks (p : Ptr (WeatherData F D)) : List ℕ := p.block :: Ptr.blocks p.value.rawJsonCache

/-- **The data can be released**, with all it has. -/
theorem returns_freeCurrent (h : Holds (dataBlocks p ++ L) w.heap) :
    Returns (freeCurrent p) w fun _ w' => Holds L w'.heap ∧ w'.files = w.files := by
  have hraw : Holds (Ptr.blocks p.value.rawJsonCache ++ p.block :: L) w.heap :=
    h.perm List.perm_middle
  refine (returns_deref h (List.mem_cons_self ..)).bind ?_
  rintro _ _ ⟨rfl, rfl⟩
  refine (returns_freeOption hraw).bind ?_
  rintro _ _ ⟨hblock, hfiles⟩
  exact (returns_free hblock).mono fun ⟨hL, hfiles'⟩ => ⟨hL, hfiles'.trans hfiles⟩

/-! ## The fetch -/

/-- The upstream answers with something that is parsed without a fault, if its answer is looked at.
-/
def Parses (x : Platform F D) (env : Env) : Prop :=
  env.alloc.url = true → env.alloc.curl = true → env.alloc.fetched = true →
    ∀ body, env.transfer = .done 200 body → ∃ text, body = some text ∧
      ∀ root, x.loadb text = some root → UnitsAreStrings root

theorem returns_lift {α : Type} {y : Except Fault α} {a : α} (h : y = .ok a) :
    Returns (liftM y : Api F D α) w fun b w' => b = a ∧ w' = w := by
  subst h
  exact ⟨a, w, rfl, rfl, rfl⟩

theorem returns_perform (env : Env) (lat lon : F) (h : Holds L w.heap) (hurl : url.block ∈ L) :
    Returns (perform env url lat lon) w fun r w' => r.1 = env.transfer ∧
      r.2.map Ptr.value = Transfer.body env.transfer ∧ Holds (Ptr.blocks r.2 ++ L) w'.heap := by
  have hlog : ∀ w : World F D, Holds L w.heap → Returns (modify fun w : World F D =>
      { w with fetches := ⟨lat, lon, env.transfer, env.fetchedAt⟩ :: w.fetches } : Api F D Unit) w
      fun _ w' => Holds L w'.heap := fun w hL => ⟨_, _, rfl, hL⟩
  refine (returns_deref h hurl).bind ?_
  rintro _ _ ⟨-, rfl⟩
  refine (hlog _ h).bind fun hL => ?_
  rcases ht : env.transfer with _ | ⟨code, _ | body⟩
  · exact .pure ⟨rfl, rfl, hL⟩
  · exact .pure ⟨rfl, rfl, hL⟩
  · refine (returns_malloc body hL).bind ?_
    rintro q _ ⟨hvalue, hq, -⟩
    exact .pure ⟨rfl, congrArg some hvalue, hq⟩

/-- **The fetch is handed over** with the raw document, or it leaves nothing. -/
def HandsOver (L : List ℕ) (r : ℤ × Option (Ptr (WeatherData F D))) (w : World F D) : Prop :=
  (r.1 = 0 ∧ ∃ p, r.2 = some p ∧ Holds (dataBlocks p ++ L) w.heap) ∨ (r.1 ≠ 0 ∧ Holds L w.heap)

theorem HandsOver.nothing {code : ℤ} (hcode : code ≠ 0) (h : Holds L w.heap) :
    HandsOver L (code, data) w := Or.inr ⟨hcode, h⟩

theorem returns_parseResponse (h : Holds (Ptr.blocks chunk ++ L) w.heap)
    (hparses : env.alloc.fetched = true → ∃ q, chunk = some q ∧
      ∀ root, x.loadb q.value = some root → UnitsAreStrings root) :
    Returns (parseResponse x env chunk lat lon) w (HandsOver L) := by
  rw [parseResponse]
  refine .ite (fun halloc => ?_) fun _ => ?_
  · obtain ⟨q, rfl, hunits⟩ := hparses halloc
    refine (returns_malloc (zeroed x) h).bind ?_
    rintro p w₁ ⟨-, hL, -⟩
    refine (returns_deref hL (List.mem_cons_of_mem _ (List.mem_cons_self ..))).bind ?_
    rintro _ _ ⟨rfl, rfl⟩
    obtain ⟨⟨result, value⟩, hparse⟩ :=
      (exists_parseWeatherJson_iff env.fetchedAt p.value lat lon).mpr hunits
    refine (returns_lift hparse).bind ?_
    rintro _ _ ⟨rfl, rfl⟩
    refine .ite (fun hzero => ?_) fun hne => ?_
    · exact .pure (Or.inl ⟨rfl, _, rfl, hL⟩)
    · refine (returns_free (hL.perm (List.Perm.swap ..))).bind ?_
      rintro _ w₂ ⟨hp, -⟩
      refine (returns_free hp).bind ?_
      rintro _ w₃ ⟨hrest, -⟩
      exact .pure (.nothing (by decide) hrest)
  · refine (returns_freeOption h).bind ?_
    rintro _ w₁ ⟨hL, -⟩
    exact .pure (.nothing (by decide) hL)

theorem returns_fetchWeatherFromApi (hparses : Parses x env) (h : Holds L w.heap) :
    Returns (fetchWeatherFromApi x env lat lon data) w (HandsOver L) := by
  rw [fetchWeatherFromApi]
  refine .ite (fun hurl => ?_) fun _ => .pure (.nothing (by decide) h)
  refine (returns_malloc (buildApiUrl x lat lon) h).bind ?_
  rintro url w₁ ⟨-, hL, -⟩
  refine .ite (fun hcurl => ?_) fun _ => ?_
  · refine (returns_perform env lat lon hL (List.mem_cons_self ..)).bind ?_
    rintro ⟨res, chunk⟩ w₂ ⟨rfl, hbody, hchunk⟩
    have hfirst : Holds (url.block :: (Ptr.blocks chunk ++ L)) w₂.heap :=
      hchunk.perm List.perm_middle.symm
    rcases ht : env.transfer with _ | ⟨httpCode, body⟩
    · refine (returns_free hfirst).bind ?_
      rintro _ w₃ ⟨hfreed, -⟩
      refine (returns_freeOption hfreed).bind ?_
      rintro _ w₄ ⟨hrest, -⟩
      exact .pure (.nothing (by decide) hrest)
    · refine (returns_free hfirst).bind ?_
      rintro _ w₃ ⟨hfreed, -⟩
      refine .ite (fun hcode => ?_) fun _ => ?_
      · subst hcode
        refine returns_parseResponse hfreed fun hfetched => ?_
        obtain ⟨text, rfl, hunits⟩ := hparses hurl hcurl hfetched body ht
        rw [ht] at hbody
        obtain ⟨q, rfl, rfl⟩ := Option.map_eq_some_iff.mp hbody
        exact ⟨q, rfl, hunits⟩
      · refine (returns_freeOption hfreed).bind ?_
        rintro _ w₄ ⟨hrest, -⟩
        exact .pure (.nothing (by decide) hrest)
  · refine (returns_free hL).bind ?_
    rintro _ w₂ ⟨hrest, -⟩
    exact .pure (.nothing (by decide) hrest)

/-! ## The save -/

theorem returns_saveRawJsonToCache {raw : Ptr (List Byte)} (env : Env) (h : Holds L w.heap)
    (hraw : raw.block ∈ L) (hcacheFile : cacheFile.block ∈ L) :
    Returns (saveRawJsonToCache x env cacheFile raw) w fun _ w' => Holds L w'.heap := by
  refine (returns_deref h hraw).bind ?_
  rintro _ _ ⟨rfl, rfl⟩
  rcases x.loadb raw.value with _ | json
  · exact .pure h
  · refine (returns_deref h hcacheFile).bind ?_
    rintro _ _ ⟨rfl, rfl⟩
    exact .ite (fun _ => ⟨_, _, rfl, h⟩) fun _ => .pure h

/-- The raw document is released once it is saved, or stays with the data. -/
theorem returns_saveFetched (config : WeatherConfig) (env : Env)
    (h : Holds (dataBlocks p ++ cacheFile.block :: L) w.heap) :
    Returns (saveFetched x config env cacheFile p) w fun q w' =>
      Holds (dataBlocks q ++ cacheFile.block :: L) w'.heap := by
  rw [saveFetched]
  refine .ite (fun _ => ?_) fun _ => .pure h
  refine (returns_deref h (List.mem_cons_self ..)).bind ?_
  rintro _ _ ⟨rfl, rfl⟩
  rcases hraw : p.value.rawJsonCache with _ | raw
  · exact .pure h
  · rw [dataBlocks, hraw] at h
    refine (returns_saveRawJsonToCache env h (by simp [Ptr.blocks]) (by simp)).bind
      fun hsaved => ?_
    refine (returns_free (hsaved.perm (List.Perm.swap ..))).bind ?_
    rintro _ w₂ ⟨hfreed, -⟩
    exact .pure hfreed

theorem returns_fetchAndSave (hparses : Parses x env)
    (h : Holds (cacheFile.block :: L) w.heap) :
    Returns (fetchAndSave x config env cacheFile lat lon data) w (HandsOver L) := by
  refine (returns_fetchWeatherFromApi hparses h).bind ?_
  rintro ⟨result, data'⟩ w₁ (⟨hzero, p, hp, hL⟩ | ⟨hne, hL⟩)
  · obtain rfl : result = 0 := hzero
    obtain rfl : data' = some p := hp
    refine (returns_saveFetched config env hL).bind fun {q w₂} hq => ?_
    refine (returns_free (hq.perm List.perm_middle.symm)).bind ?_
    rintro _ w₃ ⟨hrest, -⟩
    exact .pure (Or.inl ⟨rfl, q, rfl, hrest⟩)
  · refine .ite (fun hzero => absurd hzero hne) fun _ => ?_
    refine (returns_free hL).bind ?_
    rintro _ w₂ ⟨hrest, -⟩
    exact .pure (.nothing (by decide) hrest)

/-! ## The load -/

/-- There is something in the file to load, and memory for it. -/
def Loads (env : Env) (files : List Byte → Option (File D)) (path : List Byte) : Prop :=
  env.alloc.loaded = true ∧ ∃ file root current units, files path = some file ∧
    file.content = some root ∧ root.get "current" = some current ∧
    root.get "current_units" = some units ∧ AreStrings units

theorem rawJsonCache_of_loadValues {now : Int64} {root current units : Json D}
    {v u : WeatherData F D} (h : loadValues x now root current units v = .ok u) :
    u.rawJsonCache = v.rawJsonCache := by
  obtain ⟨_, hcopy, rfl⟩ := exists_of_map h
  obtain ⟨_, hunits, rfl⟩ := exists_of_map hcopy
  obtain ⟨_, _, _, _, -, -, -, -, rfl⟩ := exists_of_copyUnits hunits
  rfl

theorem returns_loadWeatherFromCache (h : Holds L w.heap) (hfilepath : filepath.block ∈ L)
    (hloads : Loads env w.files filepath.value) :
    Returns (loadWeatherFromCache x env filepath data) w fun r w' =>
      r.1 = 0 ∧ ∃ p, r.2 = some p ∧ dataBlocks p = [p.block] ∧ Holds (p.block :: L) w'.heap := by
  obtain ⟨halloc, file, root, current, units, hfile, hroot, hc, hu, hunits⟩ := hloads
  have hload : loadFile filepath w = .ok (some root, w) := by
    rw [loadFile_eq (h.live hfilepath), hfile, Option.bind_some, hroot]
  refine Returns.bind (Q := fun r w' => r = some root ∧ w' = w) ⟨_, _, hload, rfl, rfl⟩ ?_
  rintro _ _ ⟨rfl, rfl⟩
  refine .ite (fun _ => ?_) fun hno => absurd halloc hno
  refine (returns_malloc (zeroed x) h).bind ?_
  rintro p w₁ ⟨hvalue, hL, -⟩
  obtain ⟨v, hv⟩ := (exists_loadValues_iff (x := x) env.loadedAt root current p.value).mpr hunits
  have hnone : v.rawJsonCache = none := by
    rw [rawJsonCache_of_loadValues hv, hvalue]
    rfl
  simp only [hc, hu]
  refine (returns_lift hv).bind ?_
  rintro _ _ ⟨rfl, rfl⟩
  refine .pure ⟨rfl, _, rfl, ?_, hL⟩
  rw [dataBlocks, hnone]
  rfl

/-! ## The current weather -/

/-- **What a call needs to return**: of a file that is used, that it can be loaded; else, of what
the upstream answers, that it can be parsed. -/
def Survives (x : Platform F D) (config : WeatherConfig) (env : Env)
    (files : List Byte → Option (File D)) (lat lon : F) : Prop :=
  ∀ path, generateCacheFilepath x config env.alloc.cacheFile lat lon = some path →
    (config.useCache = true ∧ FileFresh config env files path → Loads env files path) ∧
    (¬ (config.useCache = true ∧ FileFresh config env files path) → Parses x env)

/-- **The weather is handed over**, or nothing is left of the call. -/
theorem returns_getCurrent (hsurvives : Survives x config env w.files lat lon)
    (h : Holds L w.heap) : Returns (getCurrent x config env lat lon data) w (HandsOver L) := by
  rw [getCurrent]
  rcases hpath : generateCacheFilepath x config env.alloc.cacheFile lat lon with _ | path
  · exact .pure (.nothing (by decide) h)
  · obtain ⟨hhit, hmiss⟩ := hsurvives path hpath
    refine (returns_malloc path h).bind ?_
    rintro cacheFile w₁ ⟨rfl, hL, hfiles⟩
    obtain ⟨valid, huse⟩ := exists_useCacheFile config env (hL.live (List.mem_cons_self ..))
    have hvalid := (of_useCacheFile huse).2
    rw [hfiles] at hvalid
    refine Returns.bind (Q := fun r w' => r = valid ∧ w' = w₁) ⟨_, _, huse, rfl, rfl⟩ ?_
    rintro _ _ ⟨rfl, rfl⟩
    refine .ite (fun htrue => ?_) fun hfalse => ?_
    · refine (returns_loadWeatherFromCache hL (List.mem_cons_self ..)
        (hfiles ▸ hhit (hvalid.mp htrue))).bind ?_
      rintro ⟨result, data'⟩ w₂ ⟨hzero, p, hp, hblocks, hloaded⟩
      refine (returns_free (hloaded.perm (List.Perm.swap ..))).bind ?_
      rintro _ w₃ ⟨hrest, -⟩
      refine .ite (fun _ => .pure (Or.inl ⟨rfl, p, hp, ?_⟩)) fun hne => absurd hzero hne
      rw [hblocks]
      exact hrest
    · exact returns_fetchAndSave (hmiss fun hyes => hfalse (hvalid.mpr hyes)) hL

/-- **A call that returned had what it needs.** -/
theorem survives_of_getCurrent {r : ℤ × Option (Ptr (WeatherData F D))}
    (h : getCurrent x config env lat lon data w = .ok (r, w')) :
    Survives x config env w.files lat lon := by
  intro path hpath
  refine ⟨fun hfresh => ?_, fun hmiss => ?_⟩
  · rcases of_getCurrent h with ⟨hnone, -⟩ | ⟨path', hpath', ⟨-, p, -, hhit⟩ | ⟨hmiss, -⟩⟩
    · cases hpath.symm.trans hnone
    · obtain rfl := Option.some.inj (hpath.symm.trans hpath')
      obtain ⟨file, root, current, units, hfile, -, hroot, hc, hu, hv⟩ := hhit.file
      exact ⟨hhit.alloc, file, root, current, units, hfile, hroot, hc, hu,
        (exists_loadValues_iff _ _ _ _).mp ⟨_, hv⟩⟩
    · obtain rfl := Option.some.inj (hpath.symm.trans hpath')
      exact absurd hfresh hmiss
  · rw [getCurrent, hpath] at h
    obtain ⟨cacheFile, w₁, hmalloc, h₁⟩ := exists_of_bind h
    obtain ⟨hvalue, -, hfiles, -⟩ := of_malloc hmalloc
    obtain ⟨valid, w₂, huse, h₂⟩ := exists_of_bind h₁
    obtain ⟨rfl, hvalid⟩ := of_useCacheFile huse
    rw [hvalue, hfiles] at hvalid
    obtain rfl : valid = false := Bool.eq_false_iff.mpr fun htrue => hmiss (hvalid.mp htrue)
    obtain ⟨r', w₃, hfetch, -⟩ := exists_of_bind h₂
    exact exists_fetchWeatherFromApi_iff.mp ⟨_, _, hfetch⟩

/-! ## The response -/

theorem returns_loadResponse (config : WeatherConfig) (env : Env) (lat lon : F)
    (h : Holds L w.heap) :
    Returns (loadResponse x config env lat lon) w fun _ w' => Holds L w'.heap := by
  rw [loadResponse]
  rcases generateCacheFilepath x config env.alloc.responseFile lat lon with _ | path
  · exact .pure h
  · refine (returns_malloc path h).bind ?_
    rintro cacheFile w₁ ⟨-, hL, -⟩
    have hload := loadFile_eq (hL.live (List.mem_cons_self ..))
    refine Returns.bind (Q := fun _ w' => w' = w₁) ⟨_, _, hload, rfl⟩ ?_
    rintro root _ rfl
    refine (returns_free hL).bind ?_
    rintro _ w₂ ⟨hrest, -⟩
    exact .pure hrest

theorem returns_buildJsonResponse (config : WeatherConfig) (env : Env) (lat lon : F)
    (h : Holds L w.heap) (hp : p.block ∈ L) :
    Returns (buildJsonResponse x config env (some p) lat lon) w fun _ w' => Holds L w'.heap := by
  refine (returns_loadResponse config env lat lon h).bind fun {root w₁} hL => ?_
  rcases root with _ | root
  · refine .ite (fun _ => ?_) fun _ => .pure hL
    refine (returns_deref hL hp).bind ?_
    rintro _ _ ⟨rfl, rfl⟩
    exact .pure hL
  · exact .pure hL

end OpenMeteoApi
