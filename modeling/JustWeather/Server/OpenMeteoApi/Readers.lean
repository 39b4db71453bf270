import JustWeather.Server.OpenMeteoApi.CacheHit
import JustWeather.Server.OpenMeteoApi.Progress

/-!
# Server/OpenMeteoApi/Readers — what the two readers make of any document

`parse_weather_json` and `load_weather_from_cache` look up some eighteen members and pass what they
find to an accessor of jansson, which has an answer for a value of another type: `NULL` where a
string is asked for, and a zero where a number is.  The `NULL` goes to `strncpy`
(`readers_total_iff`), and the zero is taken for the number (`numbers_survive_iff`).
-/

open CLib Fallible Json

namespace OpenMeteoApi

variable {F D : Type} {x : Platform F D} {env : Env} {now : Int64} {lat lon : F} {key : String}
  {text old : List Byte} {root current units : Json D} {data : WeatherData F D}
  {out : Option (Ptr (WeatherData F D))} {w : World F D} {filepath : Ptr (List Byte)}

/-! ## The units -/

/-- The members of `current_units` that are copied. -/
def unitKeys : List String :=
  ["temperature_2m", "wind_speed_10m", "wind_direction_10m", "precipitation"]

/-- Every unit that is there is a string. -/
def AreStrings (units : Json D) : Prop :=
  ∀ key ∈ unitKeys, ∀ unit, units.get key = some unit → ∃ s, unit = .string s

/-- **No unit of the document is anything but a string**, if it has the two objects at all. -/
def UnitsAreStrings (root : Json D) : Prop :=
  ∀ current units, root.get "current" = some current → root.get "current_units" = some units →
    AreStrings units

theorem exists_copyUnit_iff (old : List Byte) : (∃ s, copyUnit units key old = .ok s) ↔
    ∀ unit, units.get key = some unit → ∃ s, unit = .string s := by
  rw [copyUnit]
  rcases units.get key with _ | unit
  · simp
  · cases unit <;> simp [stringValue]

theorem exists_copyUnits_iff :
    (∃ v, copyUnits units data = .ok v) ↔ AreStrings units := by
  simp only [AreStrings, unitKeys, List.forall_mem_cons, List.not_mem_nil, false_implies,
    implies_true, and_true]
  rw [← exists_copyUnit_iff data.temperatureUnit,
    ← exists_copyUnit_iff data.windspeedUnit,
    ← exists_copyUnit_iff data.winddirectionUnit,
    ← exists_copyUnit_iff data.precipitationUnit]
  constructor
  · rintro ⟨v, hv⟩
    obtain ⟨_, _, _, _, ht, hw, hd, hp, -⟩ := exists_of_copyUnits hv
    exact ⟨⟨_, ht⟩, ⟨_, hw⟩, ⟨_, hd⟩, ⟨_, hp⟩⟩
  · rintro ⟨⟨_, ht⟩, ⟨_, hw⟩, ⟨_, hd⟩, ⟨_, hp⟩⟩
    rw [copyUnits, ht, hw, hd, hp]
    exact ⟨_, rfl⟩

theorem exists_copyValues_iff :
    (∃ v, copyValues x now current units data = .ok v) ↔ AreStrings units := by
  rw [copyValues, exists_map_iff, exists_copyUnits_iff]

theorem exists_loadValues_iff (now : Int64) (root current : Json D) (data : WeatherData F D) :
    (∃ v, loadValues x now root current units data = .ok v) ↔ AreStrings units := by
  rw [loadValues, exists_map_iff, exists_copyValues_iff]

/-- A document without one of the two objects has no units to copy. -/
theorem unitsAreStrings_of_missing
    (h : root.get "current" = none ∨ root.get "current_units" = none) : UnitsAreStrings root := by
  intro current units hc hu
  rcases h with h | h
  · cases hc.symm.trans h
  · cases hu.symm.trans h

theorem unitsAreStrings_iff (hc : root.get "current" = some current)
    (hu : root.get "current_units" = some units) : UnitsAreStrings root ↔ AreStrings units := by
  refine ⟨fun h => h current units hc hu, fun h current' units' _ hu' => ?_⟩
  obtain rfl := Option.some.inj (hu.symm.trans hu')
  exact h

/-! ## The two readers -/

/-- **When `parse_weather_json` returns.** -/
theorem exists_parseWeatherJson_iff (now : Int64) (data : WeatherData F D) (lat lon : F) :
    (∃ r, parseWeatherJson x now text data lat lon = .ok r) ↔
      ∀ root, x.loadb text = some root → UnitsAreStrings root := by
  rw [parseWeatherJson]
  rcases x.loadb text with _ | root
  · simp
  · simp only [Option.some.injEq, forall_eq']
    rcases hc : root.get "current" with _ | current
    · exact iff_of_true ⟨_, rfl⟩ (unitsAreStrings_of_missing (Or.inl hc))
    · rcases hu : root.get "current_units" with _ | units
      · exact iff_of_true ⟨_, rfl⟩ (unitsAreStrings_of_missing (Or.inr hu))
      · dsimp only
        rw [exists_map_iff, exists_copyValues_iff, unitsAreStrings_iff hc hu]

theorem loadFile_eq (h : Heap.Live filepath w.heap) :
    loadFile filepath w = .ok ((w.files filepath.value).bind File.content, w) := by
  rw [loadFile, bind_of_ok (deref_of_live h)]
  rfl

/-- The document of a file. -/
theorem forall_document_iff {P : Json D → Prop} {file : Option (File D)} :
    (∀ f root, file = some f → f.content = some root → P root) ↔
      ∀ root, file.bind File.content = some root → P root := by
  constructor
  · intro h root hroot
    obtain ⟨f, hf, hcontent⟩ := Option.bind_eq_some_iff.mp hroot
    exact h f root hf hcontent
  · rintro h f root rfl hcontent
    exact h root hcontent

/-- **When `load_weather_from_cache` returns.** -/
theorem exists_loadWeatherFromCache_iff (h : Heap.Live filepath w.heap) :
    (∃ r w', loadWeatherFromCache x env filepath out w = .ok (r, w')) ↔
      (env.alloc.loaded = true → ∀ file root, w.files filepath.value = some file →
        file.content = some root → UnitsAreStrings root) := by
  rw [loadWeatherFromCache, bind_of_ok (loadFile_eq h), forall_document_iff]
  rcases (w.files filepath.value).bind File.content with _ | root
  · exact iff_of_true ⟨_, _, rfl⟩ fun _ _ h => by cases h
  · simp only [Option.some.injEq, forall_eq']
    cases env.alloc.loaded with
    | false => exact iff_of_true ⟨_, _, rfl⟩ fun h => by cases h
    | true =>
      obtain ⟨p, w₁, hmalloc, -, hlive, -⟩ := exists_malloc (zeroed x) w
      obtain ⟨w₂, hfree, -⟩ := exists_free hlive
      simp only [if_true, forall_const]
      rw [bind_of_ok hmalloc]
      rcases hc : root.get "current" with _ | current
      · exact iff_of_true ⟨(-3, some p), w₂, bind_of_ok hfree⟩
          (unitsAreStrings_of_missing (Or.inl hc))
      · rcases hu : root.get "current_units" with _ | units
        · exact iff_of_true ⟨(-3, some p), w₂, bind_of_ok hfree⟩
            (unitsAreStrings_of_missing (Or.inr hu))
        · rw [unitsAreStrings_iff hc hu,
            ← exists_loadValues_iff (x := x) env.loadedAt root current p.value]
          dsimp only
          rcases loadValues x env.loadedAt root current units p.value with f | v
          · exact iff_of_false (by rintro ⟨_, _, h⟩; cases h) (by rintro ⟨_, h⟩; cases h)
          · exact iff_of_true ⟨_, _, rfl⟩ ⟨v, rfl⟩

/-! ## The fetch -/

theorem exists_freeOption {α : Type} {p : Option (Ptr α)}
    (h : ∀ q, p = some q → Heap.Live q w.heap) : ∃ w', freeOption p w = .ok ((), w') := by
  cases p with
  | none => exact ⟨w, rfl⟩
  | some q =>
    obtain ⟨w', hfree, -⟩ := exists_free (h q rfl)
    exact ⟨w', hfree⟩

/-- **When the response to a fetch is parsed**, from the block that collected it. -/
theorem exists_parseResponse_iff {chunk : Option (Ptr (List Byte))}
    (h : ∀ q, chunk = some q → Heap.Live q w.heap) :
    (∃ r w', parseResponse x env chunk lat lon w = .ok (r, w')) ↔
      (env.alloc.fetched = true → ∃ q, chunk = some q ∧
        ∀ root, x.loadb q.value = some root → UnitsAreStrings root) := by
  rw [parseResponse]
  cases env.alloc.fetched with
  | false =>
    obtain ⟨w', hfree⟩ := exists_freeOption h
    exact iff_of_true ⟨(-5, none), w', bind_of_ok hfree⟩ fun h => by cases h
  | true =>
    obtain ⟨p, w₁, hmalloc, -, hp, hkeeps, -⟩ := exists_malloc (zeroed x) w
    simp only [if_true, forall_const]
    rw [bind_of_ok hmalloc]
    cases chunk with
    | none => exact iff_of_false (by rintro ⟨_, _, h⟩; cases h) (by rintro ⟨_, h, -⟩; cases h)
    | some q =>
      obtain ⟨hq, hne⟩ := hkeeps (h q rfl)
      simp only [Option.some.injEq, exists_eq_left']
      rw [bind_of_ok (deref_of_live hq),
        ← exists_parseWeatherJson_iff env.fetchedAt p.value lat lon]
      rcases parseWeatherJson x env.fetchedAt q.value p.value lat lon with f | ⟨result, v⟩
      · exact iff_of_false (by rintro ⟨_, _, h⟩; cases h) (by rintro ⟨_, h⟩; cases h)
      · obtain ⟨w₂, hfree, hkeeps₂, -⟩ := exists_free hq
        obtain ⟨w₃, hfree', -⟩ := exists_free (hkeeps₂ hp hne.symm)
        refine iff_of_true ?_ ⟨_, rfl⟩
        have hparse : (liftM (.ok (result, v) : Except Fault (ℤ × WeatherData F D)) :
            Api F D (ℤ × WeatherData F D)) w₁ = .ok ((result, v), w₁) := rfl
        rw [bind_of_ok hparse]
        dsimp only
        split
        · exact ⟨_, _, rfl⟩
        · rw [bind_of_ok hfree, bind_of_ok hfree']
          exact ⟨_, _, rfl⟩

/-- A transfer that is made ends, and what it collected is in a block of its own. -/
theorem exists_perform_eq (env : Env) {url : Ptr (List Byte)} (lat lon : F)
    (hurl : Heap.Live url w.heap) :
    ∃ chunk w', perform env url lat lon w = .ok ((env.transfer, chunk), w') ∧
      chunk.map Ptr.value = Transfer.body env.transfer ∧ Heap.Live url w'.heap ∧
      ∀ q, chunk = some q → Heap.Live q w'.heap ∧ url.block ≠ q.block := by
  have hnone : Transfer.body env.transfer = none →
      perform env url lat lon w = .ok ((env.transfer, none),
        { w with fetches := ⟨lat, lon, env.transfer, env.fetchedAt⟩ :: w.fetches }) := by
    intro hbody
    rw [perform, bind_of_ok (deref_of_live hurl)]
    rcases ht : env.transfer with _ | ⟨code, _ | text⟩
    · rfl
    · rfl
    · rw [ht] at hbody
      cases hbody
  rcases hbody : Transfer.body env.transfer with _ | text
  · exact ⟨none, _, hnone hbody, rfl, hurl, fun _ h => by cases h⟩
  · obtain ⟨code, ht⟩ : ∃ code, env.transfer = .done code (some text) := by
      rcases ht : env.transfer with _ | ⟨code, body⟩
      · rw [ht] at hbody
        cases hbody
      · rw [ht] at hbody
        exact ⟨code, congrArg (Transfer.done code) hbody⟩
    obtain ⟨chunk, w', hperform, hvalue, hlive, hkeeps, -⟩ := exists_perform lat lon hurl ht
    obtain ⟨hurl', hne⟩ := hkeeps hurl
    refine ⟨some chunk, w', hperform, congrArg some hvalue, hurl', ?_⟩
    rintro q hq
    obtain rfl := Option.some.inj hq
    exact ⟨hlive, hne⟩

/-- **When `fetch_weather_from_api` returns.** -/
theorem exists_fetchWeatherFromApi_iff :
    (∃ r w', fetchWeatherFromApi x env lat lon out w = .ok (r, w')) ↔
      (env.alloc.url = true → env.alloc.curl = true → env.alloc.fetched = true →
        ∀ body, env.transfer = .done 200 body → ∃ text, body = some text ∧
          ∀ root, x.loadb text = some root → UnitsAreStrings root) := by
  rw [fetchWeatherFromApi]
  cases env.alloc.url with
  | false => exact iff_of_true ⟨_, _, rfl⟩ fun h => by cases h
  | true =>
    obtain ⟨url, w₁, hmalloc, -, hurl, -⟩ := exists_malloc (buildApiUrl x lat lon) w
    simp only [if_true, forall_const]
    rw [bind_of_ok hmalloc]
    cases env.alloc.curl with
    | false =>
      obtain ⟨w₂, hfree, -⟩ := exists_free hurl
      exact iff_of_true ⟨(-2, out), w₂, bind_of_ok hfree⟩ fun h => by cases h
    | true =>
      simp only [if_true, forall_const]
      obtain ⟨chunk, w₂, hperform, hbody, hurl₂, hchunk⟩ := exists_perform_eq env lat lon hurl
      obtain ⟨w₃, hfree, hkeeps, -⟩ := exists_free hurl₂
      have hlive : ∀ q, chunk = some q → Heap.Live q w₃.heap := fun q hq =>
        hkeeps (hchunk q hq).1 (hchunk q hq).2.symm
      obtain ⟨w₄, hfree'⟩ := exists_freeOption hlive
      rw [bind_of_ok hperform]
      rcases ht : env.transfer with _ | ⟨code, body⟩
      · dsimp only
        rw [bind_of_ok hfree, bind_of_ok hfree']
        exact iff_of_true ⟨_, _, rfl⟩ fun _ _ h => by cases h
      · dsimp only
        rw [bind_of_ok hfree]
        by_cases hcode : code = 200
        · rw [if_pos hcode, exists_parseResponse_iff hlive, hcode]
          rw [ht] at hbody
          refine forall_congr' fun _ => ⟨?_, fun h => ?_⟩
          · rintro ⟨q, rfl, hunits⟩ _ hdone
            cases hdone
            exact ⟨q.value, hbody.symm, hunits⟩
          · obtain ⟨text, htext, hunits⟩ := h body rfl
            obtain ⟨q, rfl, rfl⟩ := Option.map_eq_some_iff.mp (hbody.trans htext)
            exact ⟨q, rfl, hunits⟩
        · rw [if_neg hcode, bind_of_ok hfree']
          refine iff_of_true ⟨_, _, rfl⟩ fun _ body' h => absurd ?_ hcode
          cases h
          rfl

/-- **When the readers are total**: a fetch needs a response that is not empty, unless it fails
before it looks at one, and every unit that is copied has to be a string. -/
theorem readers_total_iff (x : Platform F D) (env : Env) (now : Int64) (text : List Byte)
    (lat lon : F) (data : WeatherData F D) (out : Option (Ptr (WeatherData F D)))
    (hlive : Heap.Live filepath w.heap) :
    ((∃ r, parseWeatherJson x now text data lat lon = .ok r) ↔
      ∀ root, x.loadb text = some root → UnitsAreStrings root) ∧
    ((∃ r w', fetchWeatherFromApi x env lat lon out w = .ok (r, w')) ↔
      (env.alloc.url = true → env.alloc.curl = true → env.alloc.fetched = true →
        ∀ body, env.transfer = .done 200 body → ∃ text, body = some text ∧
          ∀ root, x.loadb text = some root → UnitsAreStrings root)) ∧
    ((∃ r w', loadWeatherFromCache x env filepath out w = .ok (r, w')) ↔
      (env.alloc.loaded = true → ∀ file root, w.files filepath.value = some file →
        file.content = some root → UnitsAreStrings root)) :=
  ⟨exists_parseWeatherJson_iff now data lat lon, exists_fetchWeatherFromApi_iff,
    exists_loadWeatherFromCache_iff hlive⟩

theorem live_savingPath (d : Json ℚ) : Heap.Live savingPath (savedWorld d).heap := by
  change 0 < 3 ∧ 0 ∉ []
  decide

theorem files_savedWorld (d : Json ℚ) :
    (savedWorld d).files savingPath.value = some ⟨some d, 0⟩ := by
  simp [savedWorld]

theorem unitsAreStrings_upstream (a b : ℚ) : UnitsAreStrings (upstream a b) := by
  rintro current units hc hu key - unit hunit
  obtain rfl := Option.some.inj ((show (upstream a b).get "current_units"
    = some (.object [("temperature_2m", .string "°C")]) from rfl).symm.trans hu)
  rw [get_object, List.lookup_cons] at hunit
  split at hunit
  · exact ⟨_, (Option.some.inj hunit).symm⟩
  · cases hunit

/-- The readers on a document of the upstream service. -/
theorem readers_total_upstream :
    (∃ r, parseWeatherJson upstreamPlatform 0 nearText (zeroed upstreamPlatform) 59.25 18
      = .ok r) ∧
    (∃ r w', fetchWeatherFromApi upstreamPlatform (calmEnv nearText) 59.25 18 none
      (savedWorld (upstream 59.25 18)) = .ok (r, w')) ∧
    ∃ r w', loadWeatherFromCache upstreamPlatform (calmEnv nearText) savingPath none
      (savedWorld (upstream 59.25 18)) = .ok (r, w') := by
  obtain ⟨hparse, hfetch, hload⟩ := readers_total_iff upstreamPlatform (calmEnv nearText) 0
    nearText 59.25 18 (zeroed upstreamPlatform) none (live_savingPath (upstream 59.25 18))
  have hdocument : ∀ root, upstreamPlatform.loadb nearText = some root → UnitsAreStrings root := by
    intro root hroot
    obtain rfl := Option.some.inj (loadb_nearText.symm.trans hroot)
    exact unitsAreStrings_upstream 59.25 18
  refine ⟨hparse.mpr hdocument, hfetch.mpr fun _ _ _ body hbody => ?_, hload.mpr ?_⟩
  · cases hbody
    exact ⟨nearText, rfl, hdocument⟩
  · rintro - file root hfile hroot
    obtain rfl := Option.some.inj ((files_savedWorld _).symm.trans hfile)
    obtain rfl := Option.some.inj hroot
    exact unitsAreStrings_upstream 59.25 18

/-- A document with a unit that is no string. -/
def nullUnit : Json ℚ :=
  .object [("current_units", .object [("temperature_2m", .null)]), ("current", .object [])]

/-- Its text. -/
def nullUnitText : List Byte :=
  bytes "\x7b\"current_units\":\x7b\"temperature_2m\":null\x7d,\"current\":\x7b\x7d\x7d"

/-- The platform that reads it. -/
def nullUnitPlatform : Platform ℚ ℚ :=
  exactPlatform (fun _ => bytes "f134ae816459c75fbef55cbcf3616c0b") [(nullUnitText, nullUnit)]

theorem not_unitsAreStrings_nullUnit : ¬ UnitsAreStrings nullUnit := by
  intro h
  obtain ⟨s, hs⟩ := h _ _ rfl rfl "temperature_2m" (by simp [unitKeys]) .null rfl
  cases hs

/-- A response without a body, a unit that is `null` in a response, and one in a cache file. -/
theorem readers_fault :
    (¬ ∃ r w', fetchWeatherFromApi upstreamPlatform ⟨0, 0, 0, .done 200 none, true, .all⟩ 59.25 18
      none savingWorld = .ok (r, w')) ∧
    (¬ ∃ r, parseWeatherJson nullUnitPlatform 0 nullUnitText (zeroed nullUnitPlatform) 59.25 18
      = .ok r) ∧
    ¬ ∃ r w', loadWeatherFromCache nullUnitPlatform (calmEnv nullUnitText) savingPath none
      (savedWorld nullUnit) = .ok (r, w') := by
  have hloadb : nullUnitPlatform.loadb nullUnitText = some nullUnit := by
    simp [nullUnitPlatform, exactPlatform]
  refine ⟨fun h => ?_, fun h => ?_, fun h => ?_⟩
  · obtain ⟨text, htext, -⟩ := exists_fetchWeatherFromApi_iff.mp h rfl rfl rfl none rfl
    cases htext
  · exact not_unitsAreStrings_nullUnit
      ((exists_parseWeatherJson_iff 0 _ 59.25 18).mp h nullUnit hloadb)
  · exact not_unitsAreStrings_nullUnit
      ((exists_loadWeatherFromCache_iff (live_savingPath nullUnit)).mp h rfl _ nullUnit
        (files_savedWorld nullUnit) rfl)

/-! ## The numbers -/

/-- The members of `current` that are copied as numbers, and where to. -/
def numericFields : List (String × (WeatherData F D → D)) :=
  [("temperature_2m", WeatherData.temperature), ("wind_speed_10m", WeatherData.windspeed),
    ("precipitation", WeatherData.precipitation), ("relative_humidity_2m", WeatherData.humidity),
    ("surface_pressure", WeatherData.pressure)]

/-- The number a JSON value is, in either spelling. -/
def numberValue (exact : D → ℚ) : Json D → Option ℚ
  | .integer n => some n.toInt
  | .real v => some (exact v)
  | _ => none

/-- **Every number that is copied is the number of the document.** -/
def NumbersSurvive (exact : D → ℚ) (current : Json D) (v : WeatherData F D) : Prop :=
  ∀ field ∈ numericFields, ∀ value, current.get field.1 = some value →
    ∀ q, numberValue exact value = some q → exact (field.2 v) = q

/-- A number that is spelled as an integer is zero. -/
def IntegersAreZero (current : Json D) : Prop :=
  ∀ key ∈ ["temperature_2m", "wind_speed_10m", "precipitation", "relative_humidity_2m",
    "surface_pressure"], ∀ n, current.get key = some (.integer n) → n = 0

/-- One number. -/
theorem copyReal_survives_iff {exact : D → ℚ} (hzero : exact x.zero = 0) {old : D} :
    (∀ value, current.get key = some value → ∀ q, numberValue exact value = some q →
      exact (copyReal x current key old) = q) ↔
    ∀ n, current.get key = some (.integer n) → n = 0 := by
  rw [copyReal]
  rcases current.get key with _ | value
  · simp
  · simp only [Option.some.injEq, forall_eq']
    cases value with
    | integer n =>
      have hn : n.toInt = 0 ↔ n = 0 := by
        rw [← Int64.toInt_inj]
        rfl
      simp [numberValue, realValue, hzero, ← hn, eq_comm]
    | real v => simp [numberValue, realValue]
    | _ => simp [numberValue]

/-- The numbers that were copied. -/
theorem numbersSurvive_iff {exact : D → ℚ} (hzero : exact x.zero = 0) (now : Int64)
    (u : WeatherData F D) {v : WeatherData F D}
    (hv : ∀ field ∈ numericFields, field.2 v = field.2 (copyNumbers x now current u)) :
    NumbersSurvive exact current v ↔ IntegersAreZero current := by
  have hcopied : NumbersSurvive exact current v ↔
      NumbersSurvive exact current (copyNumbers x now current u) :=
    forall₂_congr fun field hfield => by rw [hv field hfield]
  rw [hcopied]
  simp only [NumbersSurvive, IntegersAreZero, numericFields, List.forall_mem_cons,
    List.not_mem_nil, false_implies, implies_true, and_true, copyNumbers,
    copyReal_survives_iff hzero]

/-- **When the numbers of a document survive**, in a fetch and in a cache file: those that are
spelled as integers are zero. -/
theorem numbers_survive_iff (exact : D → ℚ) (hzero : exact x.zero = 0) :
    (∀ now text data lat lon v, parseWeatherJson x now text data lat lon = .ok (0, v) →
      ∃ root current, x.loadb text = some root ∧ root.get "current" = some current ∧
        (NumbersSurvive exact current v ↔ IntegersAreZero current)) ∧
    ∀ env filepath out w p w', loadWeatherFromCache x env filepath out w = .ok ((0, some p), w') →
      ∃ file root current, w.files filepath.value = some file ∧ file.content = some root ∧
        root.get "current" = some current ∧
        (NumbersSurvive exact current p.value ↔ IntegersAreZero current) := by
  refine ⟨fun now text data lat lon v h => ?_, fun env filepath out w p w' h => ?_⟩
  · obtain ⟨root, current, units, u, hroot, hc, -, -, rfl⟩ := exists_of_parseWeatherJson h
    refine ⟨root, current, hroot, hc, numbersSurvive_iff hzero now u ?_⟩
    simp [numericFields]
  · obtain ⟨-, file, root, current, units, _, hfile, hroot, hc, -, hp, hv⟩ :=
      of_loadWeatherFromCache h
    obtain rfl := Option.some.inj hp
    obtain ⟨copied, hcopy, hvalue⟩ := exists_of_map hv
    obtain ⟨u, -, rfl⟩ := exists_of_map hcopy
    refine ⟨file, root, current, hfile, hroot, hc,
      numbersSurvive_iff hzero env.loadedAt u ?_⟩
    rw [← hvalue]
    simp [numericFields]

theorem integersAreZero_upstream : ∀ current, (upstream 59.25 18).get "current" = some current →
    IntegersAreZero current := by
  rintro current hc key - n hn
  obtain rfl := Option.some.inj ((show (upstream 59.25 18).get "current"
    = some (.object [("temperature_2m", .real 2.5)]) from rfl).symm.trans hc)
  rw [get_object, List.lookup_cons] at hn
  split at hn <;> cases hn

/-- The temperature of a document of the upstream service. -/
theorem numbers_survive_upstream : ∃ v current,
    parseWeatherJson upstreamPlatform 0 nearText (zeroed upstreamPlatform) 59.25 18 = .ok (0, v) ∧
      (upstream 59.25 18).get "current" = some current ∧ NumbersSurvive id current v := by
  obtain ⟨v, hparse⟩ := parse_upstream loadb_nearText
  obtain ⟨root, current, hroot, hc, hsurvive⟩ :=
    (numbers_survive_iff (x := upstreamPlatform) id rfl).1 _ _ _ _ _ _ hparse
  obtain rfl := Option.some.inj (loadb_nearText.symm.trans hroot)
  exact ⟨v, current, hparse, hc, hsurvive.mpr (integersAreZero_upstream current hc)⟩

/-- A document with a humidity of 87 percent, spelled as an integer. -/
def humid : Json ℚ :=
  .object [("current_units", .object []),
    ("current", .object [("relative_humidity_2m", .integer 87)])]

/-- Its text. -/
def humidText : List Byte :=
  bytes "\x7b\"current_units\":\x7b\x7d,\"current\":\x7b\"relative_humidity_2m\":87\x7d\x7d"

/-- The platform that reads it. -/
def humidPlatform : Platform ℚ ℚ :=
  exactPlatform (fun _ => bytes "f134ae816459c75fbef55cbcf3616c0b") [(humidText, humid)]

/-- The humidity is taken for zero. -/
theorem humidity_lost : ∃ v current,
    parseWeatherJson humidPlatform 0 humidText (zeroed humidPlatform) 59.25 18 = .ok (0, v) ∧
      humid.get "current" = some current ∧ v.humidity = 0 ∧ ¬ NumbersSurvive id current v := by
  have hloadb : humidPlatform.loadb humidText = some humid := by
    simp [humidPlatform, exactPlatform]
  refine ⟨_, _, by rw [parseWeatherJson, hloadb]; rfl, rfl, rfl, fun h => ?_⟩
  have hhumidity := h ("relative_humidity_2m", WeatherData.humidity) (by simp [numericFields])
    (.integer 87) rfl 87 rfl
  cases hhumidity

end OpenMeteoApi
