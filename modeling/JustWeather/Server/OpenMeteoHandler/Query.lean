import JustWeather.Machinery.Parameters
import JustWeather.Server.OpenMeteoHandler

/-!
# Server/OpenMeteoHandler/Query — the query of a request

`open_meteo_api_parse_query` goes through the parameters and takes the last `lat` and the last `lon`
or `long` (`parseQuery_eq`), whatever stands around them (`parse_query_isolated`).  It takes their
values as `atof` makes them and never looks at the rest of the text, so it accepts more than numbers
(`parsed_by_grammar_iff`).
-/

open CLib Fallible Parameters

namespace OpenMeteoApi

variable {F D : Type} {x : Platform F D} {query : List Byte} {ps ps' : List (List Byte)}
  {p key latValue lonValue : List Byte}

/-! ## What is found -/

/-- The names of the latitude. -/
def latNames : List (List Byte) := [bytes "lat"]

/-- The names of the longitude. -/
def lonNames : List (List Byte) := [bytes "lon", bytes "long"]

/-- What a parameter of one of the names sets its coordinate to. -/
def coordinate (x : Platform F D) (names : List (List Byte)) (p : List Byte) : Option F :=
  if name 61 p ∈ names ∧ 61 ∈ p then some (x.narrow (x.atof (value 61 p))) else none

theorem startsWith_iff {word : List Byte} (hword : (61 : Byte) ∉ word) :
    startsWith p (word ++ [61]) = true ↔ name 61 p = word ∧ 61 ∈ p :=
  isPrefixOf_iff hword

theorem startsWith_lat : startsWith p (bytes "lat=") = true ↔ name 61 p ∈ latNames ∧ 61 ∈ p := by
  rw [show bytes "lat=" = bytes "lat" ++ [61] from rfl, startsWith_iff (by decide), latNames,
    List.mem_singleton]

theorem startsWith_lon : (startsWith p (bytes "lon=") || startsWith p (bytes "long=")) = true ↔
    name 61 p ∈ lonNames ∧ 61 ∈ p := by
  rw [Bool.or_eq_true, show bytes "lon=" = bytes "lon" ++ [61] from rfl,
    show bytes "long=" = bytes "long" ++ [61] from rfl, startsWith_iff (by decide),
    startsWith_iff (by decide), lonNames, ← or_and_right]
  simp

/-- `strchr(token, '=')` finds the value. -/
theorem strchr_eq (hmem : (61 : Byte) ∈ p) :
    ∃ rest, strchr p 61 = some rest ∧ rest.drop 1 = value 61 p := by
  refine ⟨_, if_pos hmem, ?_⟩
  rw [value]
  congr 2
  funext b
  rw [decide_not]
  rfl

/-- `token + 4` is the value. -/
theorem drop_of_startsWith_lat (h : startsWith p (bytes "lat=") = true) :
    p.drop 4 = value 61 p := by
  obtain ⟨v, rfl⟩ := List.isPrefixOf_iff_prefix.mp h
  change v = value 61 (bytes "lat" ++ 61 :: v)
  rw [value_append (by decide)]

/-- **One turn of the loop.** -/
theorem parseToken_eq (x : Platform F D) (found : Option F × Option F) (p : List Byte) :
    parseToken x found p
      = ((coordinate x latNames p).or found.1, (coordinate x lonNames p).or found.2) := by
  rw [parseToken, coordinate, coordinate]
  by_cases hlat : startsWith p (bytes "lat=") = true
  · have hname := startsWith_lat.mp hlat
    have hlon : ¬ (name 61 p ∈ lonNames ∧ 61 ∈ p) := by
      rw [List.mem_singleton.mp hname.1]
      exact fun h => absurd h.1 (by decide)
    rw [if_pos hlat, if_pos hname, if_neg hlon, drop_of_startsWith_lat hlat]
    rfl
  · rw [if_neg hlat, if_neg fun h => hlat (startsWith_lat.mpr h)]
    by_cases hlon : (startsWith p (bytes "lon=") || startsWith p (bytes "long=")) = true
    · have hname := startsWith_lon.mp hlon
      obtain ⟨rest, hrest, hdrop⟩ := strchr_eq hname.2
      rw [if_pos hlon, if_pos hname, hrest, ← hdrop]
      rfl
    · rw [if_neg hlon, if_neg fun h => hlon (startsWith_lon.mpr h)]
      rfl

/-- **The last of each coordinate is taken.** -/
theorem parseQuery_eq (x : Platform F D) (hlength : query.length < 512) :
    parseQuery x query =
      let lat := ((tokens query).filterMap (coordinate x latNames)).getLast?
      let lon := ((tokens query).filterMap (coordinate x lonNames)).getLast?
      (if lat.isSome && lon.isSome then 0 else -1, lat, lon) := by
  have hfound : (tokens query).foldl (parseToken x) (none, none)
      = (((tokens query).filterMap (coordinate x latNames)).getLast?,
        ((tokens query).filterMap (coordinate x lonNames)).getLast?) := by
    have hpair : parseToken x = fun found p =>
        ((coordinate x latNames p).or found.1, (coordinate x lonNames p).or found.2) :=
      funext fun found => funext fun p => parseToken_eq x found p
    rw [hpair, foldl_overwrite_pair, Option.or_none, Option.or_none]
  rw [parseQuery, strncpy, List.take_of_length_le (Nat.le_of_lt_succ hlength)]
  simp only [hfound]
  split <;> rfl

/-! ## Exactly one of each -/

/-- Exactly one parameter starts with `lat=`, and exactly one with `lon=` or `long=`. -/
structure OneOfEach (ps : List (List Byte)) (latValue lonValue : List Byte) : Prop where
  lat : ps.filter (startsWith · (bytes "lat=")) = [bytes "lat=" ++ latValue]
  lon : ∃ key ∈ [bytes "lon=", bytes "long="],
    ps.filter (fun p => startsWith p (bytes "lon=") || startsWith p (bytes "long="))
      = [key ++ lonValue]

theorem OneOfEach.of_perm (h : OneOfEach ps latValue lonValue) (hperm : ps'.Perm ps) :
    OneOfEach ps' latValue lonValue := by
  obtain ⟨hlat, key, hkey, hlon⟩ := h
  refine ⟨List.perm_singleton.mp ?_, key, hkey, List.perm_singleton.mp ?_⟩
  · rw [← hlat]
    exact hperm.filter _
  · rw [← hlon]
    exact hperm.filter _

/-- What is found are the values of the parameters that are named. -/
theorem filterMap_coordinate {names : List (List Byte)} {named : List Byte → Bool}
    (hnamed : ∀ p, named p = true ↔ name 61 p ∈ names ∧ 61 ∈ p) (ps : List (List Byte)) :
    ps.filterMap (coordinate x names)
      = (ps.filter named).map fun p => x.narrow (x.atof (value 61 p)) := by
  rw [← List.filterMap_eq_map, List.filterMap_filter]
  refine List.filterMap_congr fun p _ => ?_
  rw [coordinate]
  exact if_congr (hnamed p).symm rfl rfl

/-- **The query is taken apart again**: one latitude and one longitude are found in any order, under
either name, with any parameters between them and any number of separators. -/
theorem parse_query_isolated (x : Platform F D) (hps : ∀ p ∈ ps, p ≠ [] ∧ (38 : Byte) ∉ p)
    (hone : OneOfEach ps latValue lonValue) (hperm : ps'.Perm ps) (hquery : Joins 38 ps' query)
    (hlength : query.length ≤ 511) :
    parseQuery x query
      = (0, some (x.narrow (x.atof latValue)), some (x.narrow (x.atof lonValue))) := by
  have htokens : tokens query = ps' := hquery.fields_eq fun p hp => hps p (hperm.mem_iff.mp hp)
  obtain ⟨hlat, key, hkey, hlon⟩ := hone.of_perm hperm
  have hvalue : value 61 (key ++ lonValue) = lonValue := by
    rcases List.mem_cons.mp hkey with rfl | hkey
    · change value 61 (bytes "lon" ++ 61 :: lonValue) = lonValue
      rw [value_append (by decide)]
    · rw [List.mem_singleton.mp hkey]
      change value 61 (bytes "long" ++ 61 :: lonValue) = lonValue
      rw [value_append (by decide)]
  rw [parseQuery_eq x (Nat.lt_succ_of_le hlength), htokens,
    filterMap_coordinate (fun p => startsWith_lat), filterMap_coordinate (fun p => startsWith_lon),
    hlat, hlon, List.map_singleton, List.map_singleton, hvalue]
  change (_, some (x.narrow (x.atof (value 61 (bytes "lat" ++ 61 :: latValue)))), _) = _
  rw [value_append (by decide)]
  rfl

/-- A query with other parameters around the two. -/
theorem parse_query_isolated_example :
    parseQuery (exactPlatform (fun _ => []) [])
        (bytes "&latitude=1&long=18.07&&q=lat=2&lat=59.33&lo=n=3&")
      = (0, some (atofOf (bytes "59.33")), some (atofOf (bytes "18.07"))) := by
  have hjoin : Joins 38 [bytes "latitude=1", bytes "long=18.07", bytes "q=lat=2",
      bytes "lat=59.33", bytes "lo=n=3"]
      (bytes "&latitude=1&long=18.07&&q=lat=2&lat=59.33&lo=n=3&") :=
    .separator (.cons (bytes "latitude=1") (.cons (bytes "long=18.07") (.separator
      (.cons (bytes "q=lat=2") (.cons (bytes "lat=59.33") (.cons (bytes "lo=n=3") .nil))))))
  exact parse_query_isolated _ (by decide) ⟨rfl, bytes "long=", by decide, rfl⟩ (.refl _) hjoin
    (by decide)

/-! ## The grammar -/

/-- An exponent, or nothing. -/
def isExponent : List Byte → Bool
  | [] => true
  | e :: s => (e == 101 || e == 69) && (scanSign s).2 != [] && (scanSign s).2.all isDigit

/-- A decimal number, and nothing after it. -/
def isDecimal (s : List Byte) : Bool :=
  let s := (scanSign s).2
  let whole := s.takeWhile isDigit
  match s.drop whole.length with
  | 46 :: rest =>
    let fraction := rest.takeWhile isDigit
    whole ++ fraction != [] && isExponent (rest.drop fraction.length)
  | rest => whole != [] && isExponent rest

/-- The text is a decimal number, and a finite one. -/
def IsNumber (x : Platform F D) (s : List Byte) : Prop :=
  isDecimal s = true ∧ x.finite (x.atof s) = true

instance (x : Platform F D) (s : List Byte) : Decidable (IsNumber x s) :=
  inferInstanceAs (Decidable (_ ∧ _))

/-- The query has a value for one of the names. -/
def Has (names : List (List Byte)) (query : List Byte) : Prop :=
  ∃ p ∈ query.splitOn 38, name 61 p ∈ names ∧ 61 ∈ p

instance (names : List (List Byte)) (query : List Byte) : Decidable (Has names query) :=
  inferInstanceAs (Decidable (∃ p ∈ query.splitOn 38, _ ∧ _))

/-- **The grammar of a query**: there is a latitude and a longitude, and each is a number. -/
structure InGrammar (x : Platform F D) (query : List Byte) : Prop where
  lat : Has latNames query
  lon : Has lonNames query
  number : ∀ p ∈ query.splitOn 38, name 61 p ∈ latNames ++ lonNames ∧ 61 ∈ p →
    IsNumber x (value 61 p)

/-- What the parser and the handler do with a query of the grammar, and with another. -/
structure ParsedByGrammar (x : Platform F D) (config : WeatherConfig) (env : Env)
    (query : List Byte) : Prop where
  zero_iff : (parseQuery x query).1 = 0 ↔ InGrammar x query
  refused : ¬ InGrammar x query →
    parseQuery x query = (-1, none, none) ∧
    ∀ w, ∃ r, OpenMeteoHandler.current x config env query w = .ok (r, w) ∧ r.statusCode = 400

/-- A coordinate is found when the query has a value for it. -/
theorem getLast?_coordinate_isSome {names : List (List Byte)} :
    ((tokens query).filterMap (coordinate x names)).getLast?.isSome ↔ Has names query := by
  rw [List.getLast?_isSome, ← List.length_pos_iff, List.length_pos_iff_exists_mem]
  constructor
  · rintro ⟨v, hv⟩
    obtain ⟨p, hp, hcoordinate⟩ := List.mem_filterMap.mp hv
    refine ⟨p, List.mem_of_mem_filter hp, ?_⟩
    by_contra hno
    rw [coordinate, if_neg hno] at hcoordinate
    cases hcoordinate
  · rintro ⟨p, hp, hhas⟩
    have hne : p ≠ [] := List.ne_nil_of_mem hhas.2
    exact ⟨_, List.mem_filterMap.mpr
      ⟨p, List.mem_filter.mpr ⟨hp, by simpa using hne⟩, if_pos hhas⟩⟩

/-- The parser looks for the names only. -/
theorem parseQuery_eq_zero_iff (hlength : query.length < 512) :
    (parseQuery x query).1 = 0 ↔ Has latNames query ∧ Has lonNames query := by
  rw [← getLast?_coordinate_isSome (x := x), ← getLast?_coordinate_isSome (x := x),
    ← Bool.and_eq_true, parseQuery_eq x hlength]
  exact ⟨fun h => by_contra fun hno => absurd ((if_neg hno).symm.trans h) (by decide),
    fun h => if_pos h⟩

/-- Nothing is written when there is nothing to write. -/
theorem parseQuery_eq_none_iff (hlength : query.length < 512) :
    (parseQuery x query).2 = (none, none) ↔ ¬ Has latNames query ∧ ¬ Has lonNames query := by
  rw [← getLast?_coordinate_isSome (x := x), ← getLast?_coordinate_isSome (x := x),
    parseQuery_eq x hlength, Prod.mk.injEq]
  simp

theorem current_of_parseQuery {config : WeatherConfig} {env : Env} {lat lon : Option F}
    (h : parseQuery x query = (-1, lat, lon)) (w : World F D) :
    ∃ r, OpenMeteoHandler.current x config env query w = .ok (r, w) ∧ r.statusCode = 400 := by
  rw [OpenMeteoHandler.current, h]
  exact ⟨_, rfl, rfl⟩

/-- **The parser keeps to its grammar when every coordinate in the query is a number**, if both are
there; or when none is there at all. -/
theorem parsed_by_grammar_iff (x : Platform F D) (config : WeatherConfig) (env : Env)
    (hlength : query.length < 512) :
    ParsedByGrammar x config env query ↔
      InGrammar x query ∨ (¬ Has latNames query ∧ ¬ Has lonNames query) := by
  constructor
  · intro h
    by_cases hgrammar : InGrammar x query
    · exact Or.inl hgrammar
    · refine Or.inr ((parseQuery_eq_none_iff (x := x) hlength).mp ?_)
      rw [(h.refused hgrammar).1]
  · rintro (hgrammar | hnone)
    · exact ⟨iff_of_true ((parseQuery_eq_zero_iff hlength).mpr ⟨hgrammar.lat, hgrammar.lon⟩)
        hgrammar, fun h => absurd hgrammar h⟩
    · have hcode : ¬ (parseQuery x query).1 = 0 := fun h =>
        hnone.1 ((parseQuery_eq_zero_iff hlength).mp h).1
      have hfound := (parseQuery_eq_none_iff (x := x) hlength).mpr hnone
      have hparsed : parseQuery x query = (-1, none, none) := by
        rw [parseQuery_eq x hlength] at hcode hfound ⊢
        exact Prod.ext (ite_eq_right_iff.mpr fun h => absurd (if_pos h) hcode) hfound
      exact ⟨iff_of_false hcode fun h => hnone.1 h.lat,
        fun _ => ⟨hparsed, current_of_parseQuery hparsed⟩⟩

/-- A query of the grammar. -/
theorem parsed_by_grammar_stockholm :
    ParsedByGrammar (exactPlatform (fun _ => []) []) handlerConfig (calmEnv [])
      (bytes "lat=59.33&lon=18.07") :=
  (parsed_by_grammar_iff _ _ _ (by decide)).mpr
    (Or.inl ⟨by decide, by decide, by decide⟩)

/-- A latitude that is no number is taken for one, and a latitude on its own is written though the
query is refused. -/
theorem not_parsed_by_grammar :
    ¬ ParsedByGrammar (exactPlatform (fun _ => []) []) handlerConfig (calmEnv [])
      (bytes "lat=abc&lon=18.07") ∧
    ¬ ParsedByGrammar (exactPlatform (fun _ => []) []) handlerConfig (calmEnv [])
      (bytes "lat=59.33") := by
  constructor
  · intro h
    have hboth : Has latNames (bytes "lat=abc&lon=18.07") ∧
        Has lonNames (bytes "lat=abc&lon=18.07") := by decide
    have hgrammar := h.zero_iff.mp ((parseQuery_eq_zero_iff (by decide)).mpr hboth)
    have hnumber := hgrammar.number (bytes "lat=abc") (by decide) (by decide)
    exact absurd hnumber.1 (by decide)
  · intro h
    have hno : ¬ Has lonNames (bytes "lat=59.33") := by decide
    have hfound := (h.refused fun hgrammar => hno hgrammar.lon).1
    have hlat := ((parseQuery_eq_none_iff (by decide)).mp (congrArg Prod.snd hfound)).1
    exact hlat (by decide)

end OpenMeteoApi
