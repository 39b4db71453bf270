import JustWeather.Server.OpenMeteoApi.CacheHit

/-!
# Server/OpenMeteoApi/ResponseFormat — the response built, and the response read back

`open_meteo_api_build_json_response` answers with the document of the cache file if there is one,
and builds an object from the `WeatherData` otherwise; either is enriched.  The two have the same
`current` and `coords` exactly when the document is already in the format that is built
(`response_format_iff`).
-/

open CLib Fallible Json

namespace OpenMeteoApi

variable {F D : Type} {x : Platform F D} {config : WeatherConfig} {env : Env} {lat lon : F}
  {text path : List Byte} {d current units : Json D} {now : Int64} {u v : WeatherData F D}
  {p : Ptr (WeatherData F D)} {w w' : World F D} {key : String}

/-! ## Which of the two -/

/-- The document a response is read back from: what the file at the path holds. -/
def savedDocument (x : Platform F D) (config : WeatherConfig) (env : Env) (lat lon : F)
    (files : List Byte → Option (File D)) : Option (Json D) :=
  (generateCacheFilepath x config env.alloc.responseFile lat lon).bind fun path =>
    (files path).bind File.content

theorem dumps_eq_some_iff {root r : Json D} :
    dumps env root = some r ↔ env.alloc.dumped = true ∧ root = r := by
  rw [dumps]
  split <;> simp [*]

/-- The response: the document that was saved, or one built from `v`; enriched. -/
def response (x : Platform F D) (config : WeatherConfig) (env : Env) (lat lon : F)
    (files : List Byte → Option (File D)) (v : WeatherData F D) : Option (Json D) :=
  match savedDocument x config env lat lon files with
  | some root => dumps env (enrich root)
  | none => if env.alloc.root && env.alloc.current then dumps env (enrich (buildRoot x v)) else none

theorem loadResponse_eq (x : Platform F D) (config : WeatherConfig) (env : Env) (lat lon : F)
    (w : World F D) :
    ∃ w', loadResponse x config env lat lon w
        = .ok (savedDocument x config env lat lon w.files, w') ∧
      Calm w w' ∧ Keeps w w' := by
  rcases hpath : generateCacheFilepath x config env.alloc.responseFile lat lon with _ | path
  · refine ⟨w, ?_, Calm.refl w, fun hq => hq⟩
    rw [loadResponse, savedDocument, hpath]
    rfl
  · have hmalloc : malloc path w = .ok ((w.heap.alloc path).1,
      { w with heap := (w.heap.alloc path).2 }) := rfl
    have hlive := Heap.live_alloc path w.heap
    obtain ⟨heap, hheap, hfree⟩ :=
      free_of_live (w := { w with heap := (w.heap.alloc path).2 }) hlive
    have hload : loadFile (w.heap.alloc path).1 { w with heap := (w.heap.alloc path).2 }
        = .ok ((w.files path).bind File.content, { w with heap := (w.heap.alloc path).2 }) := by
      rw [loadFile, bind_of_ok (deref_of_live hlive)]
      rfl
    refine ⟨{ w with heap := heap }, ?_, ?_, ?_⟩
    · rw [loadResponse, savedDocument, hpath]
      dsimp only
      rw [bind_of_ok hmalloc, bind_of_ok hload, bind_of_ok hfree]
      rfl
    · exact (calm_malloc _ _ _ _ hmalloc).trans (calm_free _ _ _ _ hfree)
    · intro α q hq
      exact (hq.alloc path).free (Nat.ne_of_lt hq.1) hheap

/-- **What `open_meteo_api_build_json_response` answers.** -/
theorem buildJsonResponse_eq (x : Platform F D) (config : WeatherConfig) (env : Env) (lat lon : F)
    (hp : Heap.Live p w.heap) :
    ∃ w', buildJsonResponse x config env (some p) lat lon w
        = .ok (response x config env lat lon w.files p.value, w') ∧
      Calm w w' ∧ Keeps w w' := by
  obtain ⟨w', hload, hcalm, hkeeps⟩ := loadResponse_eq x config env lat lon w
  refine ⟨w', ?_, hcalm, hkeeps⟩
  rw [buildJsonResponse, bind_of_ok hload, response]
  rcases savedDocument x config env lat lon w.files with _ | root
  · dsimp only
    split
    · rw [bind_of_ok (deref_of_live (hkeeps hp))]
      rfl
    · rfl
  · rfl

theorem of_buildJsonResponse {r : Option (Json D)}
    (h : buildJsonResponse x config env (some p) lat lon w = .ok (r, w')) :
    r = response x config env lat lon w.files p.value ∧ Calm w w' := by
  obtain ⟨w₁, hload, hcalm, -⟩ := loadResponse_eq x config env lat lon w
  rw [buildJsonResponse, bind_of_ok hload] at h
  rw [response]
  rcases hsaved : savedDocument x config env lat lon w.files with _ | root
  · rw [hsaved] at h
    dsimp only at h ⊢
    split at h
    · rename_i halloc
      obtain ⟨value, w₂, hvalue, h₁⟩ := exists_of_bind h
      obtain ⟨-, rfl, rfl⟩ := of_deref hvalue
      cases h₁
      exact ⟨by rw [if_pos halloc], hcalm⟩
    · rename_i halloc
      cases h
      exact ⟨by rw [if_neg halloc], hcalm⟩
  · rw [hsaved] at h
    cases h
    exact ⟨rfl, hcalm⟩

/-- A response is a document that was read back, or one that was built. -/
theorem of_response {files : List Byte → Option (File D)} {root : Json D}
    (h : response x config env lat lon files v = some root) : env.alloc.dumped = true ∧
      ((∃ d, savedDocument x config env lat lon files = some d ∧ root = enrich d) ∨
        (savedDocument x config env lat lon files = none ∧ root = enrich (buildRoot x v))) := by
  rw [response] at h
  rcases hd : savedDocument x config env lat lon files with _ | d
  · rw [hd] at h
    dsimp only at h
    split at h
    · obtain ⟨hdumped, rfl⟩ := dumps_eq_some_iff.mp h
      exact ⟨hdumped, Or.inr ⟨rfl, rfl⟩⟩
    · cases h
  · rw [hd] at h
    obtain ⟨hdumped, rfl⟩ := dumps_eq_some_iff.mp h
    exact ⟨hdumped, Or.inl ⟨d, rfl, rfl⟩⟩

/-! ## The fields that are built -/

/-- The fields of the `current` that is built. -/
def currentFields (x : Platform F D) (v : WeatherData F D) : List (String × Option (Json D)) :=
  [("temperature", ofReal x.finite v.temperature), ("temperature_unit", ofString v.temperatureUnit),
    ("windspeed", ofReal x.finite v.windspeed), ("windspeed_unit", ofString v.windspeedUnit),
    ("wind_direction_10m", some (.integer v.winddirection.toInt64)),
    ("weather_code", some (.integer v.weatherCode.toInt64)),
    ("is_day", some (.integer v.isDay.toInt64)),
    ("precipitation", ofReal x.finite v.precipitation),
    ("precipitation_unit", ofString v.precipitationUnit),
    ("humidity", ofReal x.finite v.humidity), ("pressure", ofReal x.finite v.pressure),
    ("time", some (.integer v.timestamp)), ("city_name", ofString v.cityName)]

/-- The fields of the `coords` that is built. -/
def coordsFields (x : Platform F D) (lat lon : F) : List (String × Option (Json D)) :=
  [("latitude", ofReal x.finite (x.widen lat)), ("longitude", ofReal x.finite (x.widen lon))]

theorem buildRoot_eq (x : Platform F D) (v : WeatherData F D) :
    buildRoot x v = .object (ofFields
      [("current", some (.object (ofFields (currentFields x v)))),
        ("coords", some (.object (ofFields (coordsFields x v.latitude v.longitude))))]) := by
  simp only [buildRoot, set_object, ofFields, currentFields, coordsFields, List.foldl_cons,
    List.foldl_nil]

/-! ## The enrichment -/

/-- The two members the enrichment sets. -/
def enriched : List String := ["weather_description", "wind_direction_name"]

/-- What `nameInteger` sets the name to. -/
def named (text : Int32 → String) (value : Json D) : Option (Json D) :=
  if value.isInteger then some (.string (text value.integerValue.toInt32)) else none

theorem nameInteger_object (key name : String) (text : Int32 → String)
    (members : List (String × Json D)) : nameInteger key name text (.object members)
      = .object (setOption name ((members.lookup key).bind (named text)) members) := by
  rw [nameInteger, get_object]
  rcases members.lookup key with _ | value
  · rfl
  · dsimp only [Option.bind_some, named]
    split
    · rw [set_object]
    · rfl

/-- **The enrichment of an object** adds the two names. -/
theorem exists_enrichCurrent (members : List (String × Json D)) :
    ∃ members', enrichCurrent (.object members) = .object members' ∧
      ∀ key, members'.lookup key =
        if key = "wind_direction_name" then
          ((members.lookup "wind_direction_10m").bind (named getWindDirectionName)).or
            (members.lookup key)
        else if key = "weather_description" then
          ((members.lookup "weather_code").bind (named getDescription)).or (members.lookup key)
        else members.lookup key := by
  refine ⟨_, by rw [enrichCurrent, nameInteger_object, nameInteger_object], fun key => ?_⟩
  rw [lookup_setOption, lookup_setOption, lookup_setOption]
  split
  · subst key
    simp
  · rfl

theorem enrichCurrent_of_not_object (h : ∀ members, current ≠ .object members) :
    enrichCurrent current = current := by
  cases current with
  | object members => exact absurd rfl (h members)
  | _ => rfl

/-- **What the enrichment cannot tell apart**: objects with the same members, apart from the names
it sets itself. -/
theorem same_enrichCurrent_iff {members : List (String × Json D)} {m n : Int64}
    (hdirection : members.lookup "wind_direction_10m" = some (.integer m))
    (hcode : members.lookup "weather_code" = some (.integer n)) :
    Same (enrichCurrent (.object members)) (enrichCurrent current) ↔
      ∃ members', current = .object members' ∧
        ∀ key, key ∉ enriched → members.lookup key = members'.lookup key := by
  obtain ⟨a, ha, hlookup⟩ := exists_enrichCurrent members
  rw [ha, same_object_iff]
  constructor
  · rintro ⟨b, hb, hsame⟩
    by_cases hobject : ∃ members', current = .object members'
    · obtain ⟨members', rfl⟩ := hobject
      obtain ⟨b', hb', hlookup'⟩ := exists_enrichCurrent members'
      obtain rfl := Json.object.inj (hb'.symm.trans hb)
      refine ⟨members', rfl, fun key hkey => ?_⟩
      simp only [enriched, List.mem_cons, List.not_mem_nil, or_false, not_or] at hkey
      have hkey' := hsame key
      rw [hlookup, hlookup', if_neg hkey.2, if_neg hkey.1, if_neg hkey.2, if_neg hkey.1] at hkey'
      exact hkey'
    · rw [enrichCurrent_of_not_object fun members' h => hobject ⟨members', h⟩] at hb
      exact absurd ⟨b, hb⟩ hobject
  · rintro ⟨members', rfl, hsame⟩
    obtain ⟨b, hb, hlookup'⟩ := exists_enrichCurrent members'
    refine ⟨b, hb, fun key => ?_⟩
    have hdirection' := (hsame _ (by decide)).symm.trans hdirection
    have hcode' := (hsame _ (by decide)).symm.trans hcode
    rw [hlookup, hlookup', hdirection, hdirection', hcode, hcode']
    by_cases hname : key = "wind_direction_name"
    · rw [if_pos hname, if_pos hname]
      rfl
    · rw [if_neg hname, if_neg hname]
      by_cases hdescription : key = "weather_description"
      · rw [if_pos hdescription, if_pos hdescription]
        rfl
      · rw [if_neg hdescription, if_neg hdescription]
        exact hsame key (by simp [enriched, hname, hdescription])

/-! ## The format -/

/-- The unit a document names, as far as it is copied. -/
def documentUnit (d : Json D) (key : String) : List Byte :=
  (((d.get "current_units").bind (get key)).bind stringValue).elim [] (strncpy 15)

/-- The names of the fields that are built. -/
def currentNames : List String :=
  ["temperature", "temperature_unit", "windspeed", "windspeed_unit", "wind_direction_10m",
    "weather_code", "is_day", "precipitation", "precipitation_unit", "humidity", "pressure", "time",
    "city_name"]

theorem names_currentFields (x : Platform F D) (v : WeatherData F D) :
    (currentFields x v).map Prod.fst = currentNames := rfl

/-- **The `current` of a document is in the format of the response**: it has the fields that are
built, with the values they are built with, and no others. -/
structure CurrentFormat (x : Platform F D) (now : Int64) (lat lon : F) (d : Json D)
    (members : List (String × Json D)) : Prop where
  zeros : ∀ key ∈ ["temperature", "windspeed", "humidity", "pressure"],
    members.lookup key = some (.real x.zero)
  units : ∀ field ∈ [("temperature_unit", "temperature_2m"), ("windspeed_unit", "wind_speed_10m"),
      ("precipitation_unit", "precipitation")],
    members.lookup field.1 = ofString (documentUnit d field.2)
  integers : ∀ key ∈ ["wind_direction_10m", "weather_code", "is_day"],
    ∃ n : Int32, members.lookup key = some (.integer n.toInt64)
  precipitation : ∃ v, x.finite v = true ∧ members.lookup "precipitation" = some (.real v)
  time : members.lookup "time" = some (.integer now)
  cityName : members.lookup "city_name" = ofString (cityName x lat lon)
  others : ∀ key, key ∉ enriched → key ∉ currentNames → members.lookup key = none

/-- The `coords` of a document are in the format of the response. -/
structure CoordsFormat (x : Platform F D) (lat lon : F) (members : List (String × Json D)) :
    Prop where
  latitude : members.lookup "latitude" = ofReal x.finite (x.widen lat)
  longitude : members.lookup "longitude" = ofReal x.finite (x.widen lon)
  others : ∀ key, key ≠ "latitude" → key ≠ "longitude" → members.lookup key = none

/-- **The document is in the format of the response.** -/
def InResponseFormat (x : Platform F D) (now : Int64) (lat lon : F) (d : Json D) : Prop :=
  (∃ members, d.get "current" = some (.object members) ∧ CurrentFormat x now lat lon d members) ∧
    ∃ members, d.get "coords" = some (.object members) ∧ CoordsFormat x lat lon members

/-! ## The fields against the document -/

variable {members : List (String × Json D)}

theorem unit_eq {s : List Byte} (hu : d.get "current_units" = some units)
    (h : copyUnit units key [] = .ok s) : s = documentUnit d key := by
  rw [documentUnit, hu, Option.bind_some]
  rw [copyUnit] at h
  rcases hkey : units.get key with _ | unit
  · rw [hkey] at h
    exact (Except.ok.inj h).symm
  · rw [hkey] at h
    rw [Option.bind_some]
    rcases hs : unit.stringValue with _ | s'
    · simp only [hs] at h
      cases h
    · simp only [hs] at h
      exact (Except.ok.inj h).symm

/-- A real the document lacks is built as `0.0`. -/
theorem ofReal_copyReal (h : members.lookup key = none) :
    ofReal x.finite (copyReal x (.object members) key x.zero) = some (.real x.zero) := by
  rw [copyReal, get_object, h, ofReal, x.finite_zero]
  rfl

/-- An integer is built as it was read when it fits an `int`. -/
theorem lookup_eq_copyInteger_iff :
    members.lookup key = some (.integer (copyInteger (.object members) key 0).toInt64) ↔
      ∃ n : Int32, members.lookup key = some (.integer n.toInt64) := by
  refine ⟨fun h => ⟨_, h⟩, fun ⟨n, hn⟩ => ?_⟩
  rw [copyInteger, get_object, hn]
  simp [integerValue]

/-- A real is built as it was read. -/
theorem lookup_eq_copyReal_iff :
    members.lookup key = ofReal x.finite (copyReal x (.object members) key x.zero) ↔
      ∃ v, x.finite v = true ∧ members.lookup key = some (.real v) := by
  constructor
  · intro h
    by_cases hfinite : x.finite (copyReal x (.object members) key x.zero) = true
    · rw [ofReal, if_pos hfinite] at h
      exact ⟨_, hfinite, h⟩
    · -- a value that is refused cannot be the zero of a missing member
      rw [ofReal, if_neg hfinite] at h
      rw [copyReal, get_object, h] at hfinite
      exact absurd x.finite_zero hfinite
  · rintro ⟨v, hfinite, hv⟩
    rw [copyReal, get_object, hv]
    simp [realValue, ofReal, hfinite]

/-- The time is built as the time of the parse. -/
theorem lookup_eq_time_iff :
    members.lookup key = some (.integer (if (members.lookup key).isSome then now else 0)) ↔
      members.lookup key = some (.integer now) := by
  constructor
  · intro h
    have hsome : (members.lookup key).isSome = true := by
      rw [h]
      rfl
    rwa [if_pos hsome] at h
  · intro h
    rw [h]
    rfl

/-! ## The format against the document -/

/-- What `parse_weather_json` makes of a document whose units can be copied. -/
def parsed (x : Platform F D) (now : Int64) (current : Json D) (u : WeatherData F D) (lat lon : F) :
    WeatherData F D :=
  { copyNumbers x now current u with
    latitude := lat, longitude := lon, cityName := cityName x lat lon }

/-- **The fields that are built are the members of the document** exactly when the document is in
the format. -/
theorem currentFormat_iff (hu : d.get "current_units" = some units)
    (hcopy : copyUnits units (zeroed x) = .ok u) :
    (∀ key, key ∉ enriched →
        (ofFields (currentFields x (parsed x now (.object members) u lat lon))).lookup key
          = members.lookup key) ↔
      CurrentFormat x now lat lon d members := by
  obtain ⟨temperatureUnit, windspeedUnit, _, precipitationUnit, ht, hw, -, hp, rfl⟩ :=
    exists_of_copyUnits hcopy
  obtain rfl := unit_eq hu ht
  obtain rfl := unit_eq hu hw
  obtain rfl := unit_eq hu hp
  rw [lookup_ofFields_iff (names_currentFields x _) (by decide)]
  simp only [currentFields, List.forall_mem_cons, List.not_mem_nil, false_implies,
    implies_true, and_true]
  constructor
  · rintro ⟨⟨htemperature, htemperatureUnit, hwindspeed, hwindspeedUnit, hdirection, hcode, hday,
      hprecipitation, hprecipitationUnit, hhumidity, hpressure, htime, hcity⟩, hothers⟩
    refine ⟨?_, ?_, ?_, ?_, ?_, ?_, hothers⟩
    · simp only [List.forall_mem_cons, List.not_mem_nil, false_implies, implies_true, and_true]
      refine ⟨?_, ?_, ?_, ?_⟩
      · exact (htemperature (by decide)).trans (ofReal_copyReal (hothers _ (by decide) (by decide)))
      · exact (hwindspeed (by decide)).trans (ofReal_copyReal (hothers _ (by decide) (by decide)))
      · exact (hhumidity (by decide)).trans (ofReal_copyReal (hothers _ (by decide) (by decide)))
      · exact (hpressure (by decide)).trans (ofReal_copyReal (hothers _ (by decide) (by decide)))
    · simp only [List.forall_mem_cons, List.not_mem_nil, false_implies, implies_true, and_true]
      exact ⟨htemperatureUnit (by decide), hwindspeedUnit (by decide),
        hprecipitationUnit (by decide)⟩
    · simp only [List.forall_mem_cons, List.not_mem_nil, false_implies, implies_true, and_true]
      exact ⟨⟨_, hdirection (by decide)⟩, ⟨_, hcode (by decide)⟩, ⟨_, hday (by decide)⟩⟩
    · exact lookup_eq_copyReal_iff.mp (hprecipitation (by decide))
    · exact lookup_eq_time_iff.mp (htime (by decide))
    · exact hcity (by decide)
  · rintro ⟨hzeros, hunits, hintegers, hprecipitation, htime, hcity, hothers⟩
    simp only [List.forall_mem_cons, List.not_mem_nil, false_implies, implies_true,
      and_true] at hzeros hunits hintegers
    obtain ⟨htemperature, hwindspeed, hhumidity, hpressure⟩ := hzeros
    obtain ⟨htemperatureUnit, hwindspeedUnit, hprecipitationUnit⟩ := hunits
    obtain ⟨hdirection, hcode, hday⟩ := hintegers
    refine ⟨⟨?_, fun _ => htemperatureUnit, ?_, fun _ => hwindspeedUnit, ?_, ?_, ?_, ?_,
      fun _ => hprecipitationUnit, ?_, ?_, ?_, fun _ => hcity⟩, hothers⟩
    · exact fun _ => htemperature.trans
        (ofReal_copyReal (hothers _ (by decide) (by decide))).symm
    · exact fun _ => hwindspeed.trans (ofReal_copyReal (hothers _ (by decide) (by decide))).symm
    · exact fun _ => lookup_eq_copyInteger_iff.mpr hdirection
    · exact fun _ => lookup_eq_copyInteger_iff.mpr hcode
    · exact fun _ => lookup_eq_copyInteger_iff.mpr hday
    · exact fun _ => lookup_eq_copyReal_iff.mpr hprecipitation
    · exact fun _ => hhumidity.trans (ofReal_copyReal (hothers _ (by decide) (by decide))).symm
    · exact fun _ => hpressure.trans (ofReal_copyReal (hothers _ (by decide) (by decide))).symm
    · exact fun _ => lookup_eq_time_iff.mpr htime

theorem coordsFormat_iff :
    (∀ key, (ofFields (coordsFields x lat lon)).lookup key = members.lookup key) ↔
      CoordsFormat x lat lon members := by
  have hnames : (coordsFields x lat lon).map Prod.fst = ["latitude", "longitude"] := rfl
  have hfields := lookup_ofFields_iff hnames (by decide) (fun key => members.lookup key)
    fun _ => True
  simp only [coordsFields, List.forall_mem_cons, List.not_mem_nil, false_implies,
    implies_true, and_true, true_implies] at hfields
  simp only [List.mem_cons, List.not_mem_nil, or_false, not_or] at hfields
  refine hfields.trans ⟨?_, ?_⟩
  · rintro ⟨⟨hlat, hlon⟩, hothers⟩
    exact ⟨hlat, hlon, fun key hkey hkey' => hothers key ⟨hkey, hkey'⟩⟩
  · rintro ⟨hlat, hlon, hothers⟩
    exact ⟨⟨hlat, hlon⟩, fun key hkey => hothers key hkey.1 hkey.2⟩

/-! ## The two responses -/

theorem get_enrich (hc : d.get "current" = some current) :
    (enrich d).get "current" = some (enrichCurrent current) ∧
      (enrich d).get "coords" = d.get "coords" := by
  obtain ⟨members, rfl⟩ := exists_of_get hc
  rw [enrich, hc]
  dsimp only
  rw [set_object, get_object, get_object, get_object, lookup_setOption, lookup_setOption]
  exact ⟨rfl, rfl⟩

theorem get_buildRoot (x : Platform F D) (v : WeatherData F D) :
    (buildRoot x v).get "current" = some (.object (ofFields (currentFields x v))) ∧
      (buildRoot x v).get "coords"
        = some (.object (ofFields (coordsFields x v.latitude v.longitude))) := by
  rw [buildRoot_eq]
  exact ⟨rfl, rfl⟩

/-- An object that is built has the two integers the enrichment names. -/
theorem lookup_currentFields (x : Platform F D) (v : WeatherData F D) :
    (ofFields (currentFields x v)).lookup "wind_direction_10m"
        = some (.integer v.winddirection.toInt64) ∧
      (ofFields (currentFields x v)).lookup "weather_code"
        = some (.integer v.weatherCode.toInt64) := by
  have hnodup : ((currentFields x v).map Prod.fst).Nodup := by
    rw [names_currentFields]
    decide
  rw [ofFields, lookup_foldl_setOption _ _ hnodup, lookup_foldl_setOption _ _ hnodup]
  exact ⟨rfl, rfl⟩

/-- The response built from a document, and the document as the response. -/
theorem sameMembers_iff (hc : d.get "current" = some current)
    (hu : d.get "current_units" = some units) (hcopy : copyUnits units (zeroed x) = .ok u) :
    (SameMember "current" (enrich (buildRoot x (parsed x now current u lat lon))) (enrich d) ∧
      SameMember "coords" (enrich (buildRoot x (parsed x now current u lat lon))) (enrich d)) ↔
    InResponseFormat x now lat lon d := by
  obtain ⟨hcurrent, hcoords⟩ := get_buildRoot x (parsed x now current u lat lon)
  obtain ⟨hdirection, hcode⟩ := lookup_currentFields x (parsed x now current u lat lon)
  obtain ⟨hbuilt, hbuilt'⟩ := get_enrich hcurrent
  obtain ⟨hread, hread'⟩ := get_enrich hc
  rw [sameMember_iff hbuilt, sameMember_iff (hbuilt'.trans hcoords), hread, hread',
    InResponseFormat, hc]
  refine and_congr ⟨?_, ?_⟩ ⟨?_, ?_⟩
  · rintro ⟨_, hread, hsame⟩
    obtain rfl := Option.some.inj hread
    obtain ⟨members, rfl, hmembers⟩ := (same_enrichCurrent_iff hdirection hcode).mp hsame
    exact ⟨members, rfl, (currentFormat_iff hu hcopy).mp hmembers⟩
  · rintro ⟨members, hmembers, hformat⟩
    obtain rfl := Option.some.inj hmembers
    exact ⟨_, rfl, (same_enrichCurrent_iff hdirection hcode).mpr
      ⟨members, rfl, (currentFormat_iff hu hcopy).mpr hformat⟩⟩
  · rintro ⟨coords, hd, hsame⟩
    obtain ⟨members, rfl, hmembers⟩ := same_object_iff.mp hsame
    exact ⟨members, hd, coordsFormat_iff.mp hmembers⟩
  · rintro ⟨members, hd, hformat⟩
    exact ⟨_, hd, same_object_iff.mpr ⟨members, rfl, coordsFormat_iff.mpr hformat⟩⟩

/-! ## With the file and without it -/

/-- **The two responses agree**: a request answers with the same `current` and `coords` in the one
world and in the other. -/
def ResponsesAgree (x : Platform F D) (config : WeatherConfig) (env : Env) (lat lon : F)
    (p : Ptr (WeatherData F D)) (w₀ w₁ : World F D) : Prop :=
  ∃ r₀ w₀' r₁ w₁', buildJsonResponse x config env (some p) lat lon w₀ = .ok (some r₀, w₀') ∧
    buildJsonResponse x config env (some p) lat lon w₁ = .ok (some r₁, w₁') ∧
    SameMember "current" r₀ r₁ ∧ SameMember "coords" r₀ r₁

theorem responsesAgree_iff {w₀ w₁ : World F D} (hp₀ : Heap.Live p w₀.heap)
    (hp₁ : Heap.Live p w₁.heap) : ResponsesAgree x config env lat lon p w₀ w₁ ↔
      ∃ r₀ r₁, response x config env lat lon w₀.files p.value = some r₀ ∧
        response x config env lat lon w₁.files p.value = some r₁ ∧
        SameMember "current" r₀ r₁ ∧ SameMember "coords" r₀ r₁ := by
  obtain ⟨w₀', h₀, -⟩ := buildJsonResponse_eq x config env lat lon hp₀
  obtain ⟨w₁', h₁, -⟩ := buildJsonResponse_eq x config env lat lon hp₁
  constructor
  · rintro ⟨r₀, _, r₁, _, h₀', h₁', hsame⟩
    exact ⟨r₀, r₁, (Prod.ext_iff.mp (Except.ok.inj (h₀.symm.trans h₀'))).1,
      (Prod.ext_iff.mp (Except.ok.inj (h₁.symm.trans h₁'))).1, hsame⟩
  · rintro ⟨r₀, r₁, hr₀, hr₁, hsame⟩
    exact ⟨r₀, w₀', r₁, w₁', hr₀ ▸ h₀, hr₁ ▸ h₁, hsame⟩

/-- The path of the cache file is there when its 512 bytes are. -/
theorem savedDocument_eq (hpath : generateCacheFilepath x config true lat lon = some path)
    (files : List Byte → Option (File D)) : savedDocument x config env lat lon files
      = if env.alloc.responseFile then (files path).bind File.content else none := by
  rw [savedDocument, generateCacheFilepath_eq, hpath]
  split <;> rfl

/-- **The response built from a document and the response read back from its cache file agree
exactly** when the two objects of the one and the two texts could be allocated and, unless the path
could not be, the document is in the format of the response. -/
theorem response_format_iff {saving : Env} {w₀ w₁ : World F D} (config : WeatherConfig) (env : Env)
    (filepath raw : Ptr (List Byte)) (hd : x.loadb raw.value = some d)
    (hparse : parseWeatherJson x now raw.value (zeroed x) lat lon = .ok (0, p.value))
    (hpath : generateCacheFilepath x config true lat lon = some filepath.value)
    (hsave : saveRawJsonToCache x saving filepath raw w = .ok (0, w₁))
    (habsent : w₀.files filepath.value = none)
    (hp₀ : Heap.Live p w₀.heap) (hp₁ : Heap.Live p w₁.heap) :
    ResponsesAgree x config env lat lon p w₀ w₁ ↔
      env.alloc.root = true ∧ env.alloc.current = true ∧ env.alloc.dumped = true ∧
        (env.alloc.responseFile = true → InResponseFormat x now lat lon d) := by
  obtain ⟨d', current, units, u, hd', hc, hu, hcopy, hv⟩ := exists_of_parseWeatherJson hparse
  obtain rfl := Option.some.inj (hd.symm.trans hd')
  obtain ⟨-, hfile⟩ := file_of_save hd hsave
  have hv' : p.value = parsed x now current u lat lon := hv
  rw [responsesAgree_iff hp₀ hp₁, hv', response, savedDocument_eq hpath, habsent, response,
    savedDocument_eq hpath, hfile, ← sameMembers_iff hc hu hcopy]
  simp only [dumps]
  rcases env.alloc.root <;> rcases env.alloc.current <;> rcases env.alloc.dumped <;>
    rcases env.alloc.responseFile <;> simp [SameMember.refl]

/-! ## A document in the format, and one of the upstream service -/

/-- The members of a `current` in the format. -/
def formattedCurrent : List (String × Json ℚ) :=
  [("temperature", .real 0), ("temperature_unit", .string ""), ("windspeed", .real 0),
    ("windspeed_unit", .string ""), ("wind_direction_10m", .integer 180),
    ("weather_code", .integer 2), ("is_day", .integer 1), ("precipitation", .real 0.5),
    ("precipitation_unit", .string ""), ("humidity", .real 0), ("pressure", .real 0),
    ("time", .integer 0), ("city_name", .string "Location (59.2500, 18.0000)")]

/-- The members of a `coords` in the format. -/
def formattedCoords : List (String × Json ℚ) := [("latitude", .real 59.25), ("longitude", .real 18)]

/-- A document in the format. -/
def formatted : Json ℚ :=
  .object [("current_units", .object []), ("current", .object formattedCurrent),
    ("coords", .object formattedCoords)]

/-- Its text. -/
def formattedText : List Byte :=
  [ "\x7b\"current_units\":\x7b\x7d,\"current\":\x7b\"temperature\":0.0,\"temperature_unit\":\"\",",
    "\"windspeed\":0.0,\"windspeed_unit\":\"\",\"wind_direction_10m\":180,\"weather_code\":2,",
    "\"is_day\":1,\"precipitation\":0.5,\"precipitation_unit\":\"\",\"humidity\":0.0,",
    "\"pressure\":0.0,",
    "\"time\":0,\"city_name\":\"Location (59.2500, 18.0000)\"\x7d,",
    "\"coords\":\x7b\"latitude\":59.25,\"longitude\":18.0\x7d\x7d" ].flatMap bytes

/-- The platform that reads it. -/
def formattedPlatform : Platform ℚ ℚ :=
  exactPlatform (fun _ => bytes "f134ae816459c75fbef55cbcf3616c0b") [(formattedText, formatted)]

theorem cityName_formatted :
    cityName formattedPlatform 59.25 18 = bytes "Location (59.2500, 18.0000)" := by
  decide +kernel

theorem inResponseFormat_formatted : InResponseFormat formattedPlatform 0 59.25 18 formatted := by
  refine ⟨⟨formattedCurrent, rfl, ?_⟩, ⟨formattedCoords, rfl, ?_⟩⟩
  · refine ⟨?_, ?_, ?_, ⟨0.5, rfl, rfl⟩, rfl, ?_, fun key hkey hkey' => ?_⟩
    · simp only [List.forall_mem_cons, List.not_mem_nil, false_implies, implies_true, and_true]
      exact ⟨rfl, rfl, rfl, rfl⟩
    · have hempty : (ofString [] : Option (Json ℚ)) = some (.string "") := ofString_bytes ""
      simp only [List.forall_mem_cons, List.not_mem_nil, false_implies, implies_true, and_true]
      exact ⟨hempty.symm, hempty.symm, hempty.symm⟩
    · simp only [List.forall_mem_cons, List.not_mem_nil, false_implies, implies_true, and_true]
      exact ⟨⟨180, rfl⟩, ⟨2, rfl⟩, ⟨1, rfl⟩⟩
    · rw [cityName_formatted, ofString_bytes]
      rfl
    · exact lookup_of_not_mem hkey'
  · refine ⟨rfl, rfl, fun key hlat hlon => lookup_of_not_mem ?_⟩
    simp [formattedCoords, hlat, hlon]

/-- A document in the format reads back as it is built. -/
theorem response_format_formatted : ∃ v w₁,
    parseWeatherJson formattedPlatform 0 formattedText (zeroed formattedPlatform) 59.25 18
      = .ok (0, v) ∧
    saveRawJsonToCache formattedPlatform (calmEnv formattedText) savingPath ⟨1, formattedText⟩
      savingWorld = .ok (0, w₁) ∧
    ResponsesAgree formattedPlatform handlerConfig (calmEnv formattedText) 59.25 18 ⟨2, v⟩
      savingWorld w₁ := by
  have hload : formattedPlatform.loadb formattedText = some formatted := by
    simp [formattedPlatform, exactPlatform]
  have hparse : parseWeatherJson formattedPlatform 0 formattedText (zeroed formattedPlatform) 59.25
      18 = .ok (0, parsed formattedPlatform 0 (.object formattedCurrent) (zeroed formattedPlatform)
        59.25 18) := by
    rw [parseWeatherJson, hload]
    rfl
  have hpath : generateCacheFilepath formattedPlatform handlerConfig true 59.25 18
      = some savingPath.value := by decide +kernel
  have hlive : Heap.Live (⟨2, parsed formattedPlatform 0 (.object formattedCurrent)
      (zeroed formattedPlatform) 59.25 18⟩ : Ptr (WeatherData ℚ ℚ)) savingWorld.heap :=
    ⟨Nat.lt_succ_self 2, List.not_mem_nil⟩
  have hlive' : Heap.Live (⟨2, parsed formattedPlatform 0 (.object formattedCurrent)
      (zeroed formattedPlatform) 59.25 18⟩ : Ptr (WeatherData ℚ ℚ)) (savedWorld formatted).heap :=
    hlive
  refine ⟨_, _, hparse, save_text hload, ?_⟩
  exact (response_format_iff handlerConfig (calmEnv formattedText) savingPath ⟨1, formattedText⟩
    hload hparse hpath (save_text hload) rfl hlive hlive').mpr
    ⟨rfl, rfl, rfl, fun _ => inResponseFormat_formatted⟩

/-- A document of the upstream service reads back without `coords`. -/
theorem response_format_upstream : ∃ v w₁,
    parseWeatherJson upstreamPlatform 0 nearText (zeroed upstreamPlatform) 59.25 18
      = .ok (0, v) ∧
    saveRawJsonToCache upstreamPlatform (calmEnv nearText) savingPath ⟨1, nearText⟩
      savingWorld = .ok (0, w₁) ∧
    ¬ ResponsesAgree upstreamPlatform handlerConfig (calmEnv nearText) 59.25 18 ⟨2, v⟩
      savingWorld w₁ := by
  obtain ⟨v, hparse⟩ := parse_upstream loadb_nearText
  have hpath : generateCacheFilepath upstreamPlatform handlerConfig true 59.25 18
      = some savingPath.value := by decide +kernel
  have hlive : Heap.Live (⟨2, v⟩ : Ptr (WeatherData ℚ ℚ)) savingWorld.heap :=
    ⟨Nat.lt_succ_self 2, List.not_mem_nil⟩
  have hlive' : Heap.Live (⟨2, v⟩ : Ptr (WeatherData ℚ ℚ)) (savedWorld (upstream 59.25 18)).heap :=
    hlive
  refine ⟨v, _, hparse, save_text loadb_nearText, fun hagree => ?_⟩
  obtain ⟨r₀, r₁, h₀, h₁, -, hcoords⟩ := (responsesAgree_iff hlive hlive').mp hagree
  rw [response, savedDocument_eq hpath] at h₀ h₁
  have hr₀ := Option.some.inj h₀
  have hr₁ := Option.some.inj h₁
  subst hr₀ hr₁
  obtain ⟨hcurrent, hcoords'⟩ := get_buildRoot upstreamPlatform v
  obtain ⟨u, hu, -⟩ := (sameMember_iff ((get_enrich hcurrent).2.trans hcoords')).mp hcoords
  cases hu

end OpenMeteoApi
