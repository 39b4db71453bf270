import JustWeather.CLib.Strings

/-!
# CLib/Jansson — JSON values and the accessors of jansson

A JSON value over a type `D` of doubles.  The accessors answer as documented: a lookup in what is
not an object finds nothing, and a value of another type reads as `0`, `0.0` or `NULL`.  A string is
valid UTF-8 and a real is finite, so what is neither cannot become a value.
-/

open CLib

/-- `json_t`. -/
inductive Json (D : Type)
  | null
  | bool (b : Bool)
  | integer (n : Int64)
  | real (v : D)
  | string (s : String)
  | array (elements : List (Json D))
  | object (members : List (String × Json D))

namespace Json

variable {D : Type} {members : List (String × Json D)} {key k : String} {v j : Json D}

/-- `json_object_get`. -/
def get (key : String) : Json D → Option (Json D)
  | object members => members.lookup key
  | _ => none

/-- The members with `key` set to `v`. -/
def setMember (key : String) (v : Json D) : List (String × Json D) → List (String × Json D)
  | [] => [(key, v)]
  | (k, u) :: members => if k = key then (k, v) :: members else (k, u) :: setMember key v members

/-- `json_object_set_new`: a value that is `NULL` is refused, and so is anything but an object. -/
def set (key : String) : Option (Json D) → Json D → Json D
  | some v, object members => object (setMember key v members)
  | _, j => j

/-- `json_is_integer`. -/
def isInteger : Json D → Bool
  | integer _ => true
  | _ => false

/-- `json_integer_value`. -/
def integerValue : Json D → Int64
  | integer n => n
  | _ => 0

/-- `json_real_value`, with the `0.0` it gives for anything but a real. -/
def realValue (zero : D) : Json D → D
  | real v => v
  | _ => zero

/-- `json_string_value`. -/
def stringValue : Json D → Option (List Byte)
  | string s => some (cstr (bytes s))
  | _ => none

/-- `json_real`. -/
def ofReal (finite : D → Bool) (v : D) : Option (Json D) := if finite v then some (real v) else none

/-- `json_string`. -/
def ofString (s : List Byte) : Option (Json D) := (String.fromUTF8? ⟨s.toArray⟩).map string

/-- The text of a string is a string. -/
@[simp] theorem ofString_bytes (s : String) :
    (ofString (bytes s) : Option (Json D)) = some (.string s) := by
  have hbytes : (⟨(bytes s).toArray⟩ : ByteArray) = s.toByteArray := by
    rw [← String.utf8Encode_toList]
    ext1
    rw [List.utf8Encode, List.data_toByteArray, bytes]
  rw [ofString, hbytes, String.fromUTF8?, dif_pos s.isValidUTF8]
  rfl

/-! ## Lookups -/

theorem lookup_setMember (key k : String) (v : Json D) (members : List (String × Json D)) :
    (setMember key v members).lookup k = if k = key then some v else members.lookup k := by
  induction members with
  | nil =>
    by_cases hk : k = key
    · simp [setMember, hk]
    · have hne : (k == key) = false := by simpa using hk
      simp [setMember, List.lookup_cons, hne, hk]
  | cons m members ih =>
    obtain ⟨l, u⟩ := m
    by_cases hl : l = key
    · subst hl
      by_cases hk : k = l
      · simp [setMember, hk]
      · have hne : (k == l) = false := by simpa using hk
        simp [setMember, List.lookup_cons, hne, hk]
    · by_cases hk : k = l
      · subst hk
        simp [setMember, hl]
      · have hne : (k == l) = false := by simpa using hk
        simp [setMember, List.lookup_cons, hne, hl, ih]

section Assoc

variable {β : Type} {l : List (String × β)}

theorem lookup_of_not_mem (h : key ∉ l.map Prod.fst) : l.lookup key = none := by
  rw [List.lookup_eq_none_iff]
  intro p hp
  have hne : key ≠ p.1 := fun hkey => h (hkey ▸ List.mem_map_of_mem hp)
  simpa using hne

theorem lookup_of_mem (hnodup : (l.map Prod.fst).Nodup) {p : String × β} (h : p ∈ l) :
    l.lookup p.1 = some p.2 := by
  induction l with
  | nil => cases h
  | cons q l ih =>
    obtain ⟨k, b⟩ := q
    obtain ⟨hk, hnodup'⟩ := List.nodup_cons.mp hnodup
    rcases List.mem_cons.mp h with rfl | hmem
    · exact List.lookup_cons_self
    · have hmem' : p.1 ∈ l.map Prod.fst := List.mem_map_of_mem hmem
      have hne : (p.1 == k) = false := by
        simpa using fun hpk : p.1 = k => hk (hpk ▸ hmem')
      rw [List.lookup_cons, hne]
      exact ih hnodup' hmem

end Assoc

/-- The members with `key` set to what there is to set it to. -/
def setOption (key : String) (o : Option (Json D)) (members : List (String × Json D)) :
    List (String × Json D) :=
  match o with
  | some v => setMember key v members
  | none => members

@[simp] theorem set_object (key : String) (o : Option (Json D)) (members : List (String × Json D)) :
    set key o (object members) = object (setOption key o members) := by
  cases o <;> rfl

/-- **A member that is set is found**, and the others are as they were. -/
theorem lookup_setOption (key k : String) (o : Option (Json D)) (members : List (String × Json D)) :
    (setOption key o members).lookup k
      = if k = key then o.or (members.lookup k) else members.lookup k := by
  cases o with
  | none => simp [setOption]
  | some v => simp [setOption, lookup_setMember]

@[simp] theorem get_object (key : String) (members : List (String × Json D)) :
    get key (object members) = members.lookup key := rfl

/-- The members of an object that is built field by field. -/
def ofFields (fields : List (String × Option (Json D))) : List (String × Json D) :=
  fields.foldl (fun members field => setOption field.1 field.2 members) []

theorem lookup_foldl_setOption (key : String) (fields : List (String × Option (Json D)))
    (hnodup : (fields.map Prod.fst).Nodup) (members : List (String × Json D)) :
    (fields.foldl (fun members field => setOption field.1 field.2 members) members).lookup key
      = ((fields.lookup key).getD none).or (members.lookup key) := by
  induction fields generalizing members with
  | nil => rfl
  | cons field fields ih =>
    obtain ⟨k, o⟩ := field
    obtain ⟨hk, hnodup⟩ := List.nodup_cons.mp hnodup
    rw [List.foldl_cons, ih hnodup, lookup_setOption]
    by_cases hkey : key = k
    · subst hkey
      simp [lookup_of_not_mem hk]
    · have hne : (key == k) = false := by simpa using hkey
      simp [List.lookup_cons, hne, hkey]

/-- **The members of a built object** are its fields, and nothing else. -/
theorem lookup_ofFields_iff {fields : List (String × Option (Json D))} {names : List String}
    (hnames : fields.map Prod.fst = names) (hnodup : names.Nodup) (f : String → Option (Json D))
    (P : String → Prop) :
    (∀ key, P key → (ofFields fields).lookup key = f key) ↔
      (∀ field ∈ fields, P field.1 → f field.1 = field.2) ∧
        ∀ key, P key → key ∉ names → f key = none := by
  subst hnames
  have hlookup : ∀ key, (ofFields fields).lookup key = (fields.lookup key).getD none := by
    intro key
    rw [ofFields, lookup_foldl_setOption key fields hnodup]
    simp
  constructor
  · intro h
    refine ⟨fun field hmem hP => ?_, fun key hP hkey => ?_⟩
    · rw [← h _ hP, hlookup, lookup_of_mem hnodup hmem]
      rfl
    · rw [← h _ hP, hlookup, lookup_of_not_mem hkey]
      rfl
  · rintro ⟨hfields, hothers⟩ key hP
    rw [hlookup]
    by_cases hkey : key ∈ fields.map Prod.fst
    · obtain ⟨field, hmem, rfl⟩ := List.mem_map.mp hkey
      rw [lookup_of_mem hnodup hmem, hfields _ hmem hP]
      rfl
    · rw [lookup_of_not_mem hkey, hothers key hP hkey]
      rfl

/-- What is looked up in is an object. -/
theorem exists_of_get (h : get key j = some v) : ∃ members, j = object members := by
  cases j with
  | object members => exact ⟨members, rfl⟩
  | _ => cases h

/-- **Two objects with the same members**, in whatever order; other values are the same only when
they are equal. -/
def Same : Json D → Json D → Prop
  | object a, object b => ∀ key, a.lookup key = b.lookup key
  | a, b => a = b

theorem same_object_iff {a : List (String × Json D)} : Same (object a) j ↔
    ∃ b, j = object b ∧ ∀ key, a.lookup key = b.lookup key := by
  cases j <;> simp [Same]

/-- Two values have the same member, or both none. -/
def SameMember (key : String) (a b : Json D) : Prop :=
  match get key a, get key b with
  | some u, some v => Same u v
  | none, none => True
  | _, _ => False

theorem Same.refl (j : Json D) : Same j j := by
  cases j <;> simp [Same]

theorem SameMember.refl (key : String) (j : Json D) : SameMember key j j := by
  rw [SameMember]
  rcases get key j with _ | v
  · trivial
  · exact Same.refl v

theorem sameMember_iff {a b : Json D} (ha : get key a = some v) :
    SameMember key a b ↔ ∃ u, get key b = some u ∧ Same v u := by
  rw [SameMember, ha]
  rcases get key b with _ | u <;> simp

end Json
