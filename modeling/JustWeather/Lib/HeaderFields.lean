import JustWeather.Lib.HeadLines
import Mathlib.Data.List.DropRight

/-!
# Lib/HeaderFields — header fields, and where a search for their names ends up

A head is a start line and header fields `Name: value`.  The two readers do not look for a field:
they look for its name and a colon in the whole head, capitals as written, and convert what stands
behind the first place, over the end of the line where the line says nothing more (`behind`,
`valueAt_lines`).
-/

open CLib MessageHead

/-- A name is a word without a colon and a terminator. -/
def IsName (s : List Byte) : Prop := ∀ b ∈ s, isSpace b = false ∧ b ≠ 58 ∧ b ≠ 0

instance (s : List Byte) : Decidable (IsName s) := List.decidableBAll _ s

/-- There is no line end in the text, and no terminator. -/
def OneLine (s : List Byte) : Prop := ∀ b ∈ s, b ≠ 13 ∧ b ≠ 10 ∧ b ≠ 0

instance (s : List Byte) : Decidable (OneLine s) := List.decidableBAll _ s

/-- A header field. -/
structure HeaderField where
  name : List Byte
  value : List Byte
  name_ne : name ≠ []
  isName : IsName name
  oneLine : OneLine value

namespace HeaderField

variable {start name : List Byte} {fields : List HeaderField} {f : HeaderField}

/-- `Name: value`. -/
def line (f : HeaderField) : List Byte := f.name ++ 58 :: 32 :: f.value

/-- The lines of a head. -/
def lines (start : List Byte) (fields : List HeaderField) : List (List Byte) :=
  start :: fields.map line

/-- The text of a head. -/
def headText (start : List Byte) (fields : List HeaderField) : List Byte :=
  crlfLines (lines start fields) ++ [13, 10]

/-! ## What a field says -/

/-- `tolower` in the C locale. -/
def toLower (b : Byte) : Byte := if 65 ≤ b ∧ b ≤ 90 then b + 32 else b

/-- The field of that name, in any capitals; the first one where there are several. -/
def named (name : List Byte) (fields : List HeaderField) : Option HeaderField :=
  fields.find? fun f => f.name.map toLower == name.map toLower

/-- A value without the white space around it. -/
def trim (value : List Byte) : List Byte := (skipSpace value).rdropWhile isSpace

/-- The length that the `Content-Length` field announces. -/
def announcedLength (fields : List HeaderField) : ℕ :=
  match named (bytes "Content-Length") fields with
  | none => 0
  | some f => (scanSize f.value).getD 0

/-- The value of the `Host` field. -/
def hostValue (fields : List HeaderField) : List Byte :=
  match named (bytes "Host") fields with
  | none => []
  | some f => trim f.value

/-! ## The text of a head -/

theorem isLine_line (f : HeaderField) : IsLine f.line := by
  refine ⟨by simp [line], fun h => ?_⟩
  simp only [line, List.mem_append, List.mem_cons] at h
  obtain h | h | h | h := h
  · exact absurd (f.isName 13 h).1 (by decide)
  · cases h
  · cases h
  · exact (f.oneLine 13 h).1 rfl

theorem not_blank_line (f : HeaderField) : ¬ Blank f.line := fun h =>
  absurd (h 58 (by simp [line])) (by decide)

theorem zero_notMem_headText (hs : OneLine start) : (0 : Byte) ∉ headText start fields := by
  have hfield : ∀ f ∈ fields, (0 : Byte) ∉ f.line := by
    intro f _ h
    simp only [line, List.mem_append, List.mem_cons] at h
    obtain h | h | h | h := h
    · exact (f.isName 0 h).2.2 rfl
    · cases h
    · cases h
    · exact (f.oneLine 0 h).2.2 rfl
  simp only [headText, lines, crlfLines, List.mem_append, List.mem_flatMap, not_or, not_exists,
    not_and]
  refine ⟨?_, by decide⟩
  intro l hl
  refine ⟨?_, by decide⟩
  rcases List.mem_cons.mp hl with rfl | hl
  · exact fun h => (hs 0 h).2.2 rfl
  · obtain ⟨f, hf, rfl⟩ := List.mem_map.mp hl
    exact hfield f hf

/-- **The head that is read is the head that was written.** -/
theorem headOf_headText {β : Type} (read : List Byte → β) (hs : OneLine start)
    (hmax : (headText start fields).length < intMax) (m : List Byte) :
    headOf read (headText start fields ++ m) = some (parseHead read (headText start fields)) := by
  have hcr : (13 : Byte) ∉ start := fun h => (hs 13 h).1 rfl
  have hlines : ∀ k ∈ fields.map line, IsLine k := by
    intro k hk
    obtain ⟨f, -, rfl⟩ := List.mem_map.mp hk
    exact f.isLine_line
  rw [headText, List.length_append] at hmax
  rw [headText, List.append_assoc]
  exact headOf_start read hcr hlines hmax m

/-! ## A search through the whole head -/

/-- What stands behind the first `word`: the rest of its line or, where that is blank, the next
line. -/
def behind (word : List Byte) : List (List Byte) → Option (List Byte)
  | [] => none
  | l :: ls =>
    match strstr l word with
    | none => behind word ls
    | some found =>
      let rest := found.drop word.length
      some (if Blank rest then ls.headD [] else rest)

/-- What a conversion makes of the text behind the first `word`. -/
def valueAt {γ : Type*} (read : List Byte → γ) (word text : List Byte) : γ :=
  match strstr text word with
  | none => read []
  | some found => read (found.drop word.length)

variable {γ : Type*} {read : List Byte → γ} {word : List Byte} {ls : List (List Byte)}

/-- What is left of a line is read up to its end or, where it is blank, on the next line. -/
theorem read_rest (hread : Conversion read) (rest : List Byte) (hls : ∀ l ∈ ls, ¬ Blank l) :
    read (rest ++ 13 :: 10 :: (crlfLines ls ++ [13, 10]))
      = read (if Blank rest then ls.headD [] else rest) := by
  have hcrlf : Blank [13, 10] := by decide
  by_cases hrest : Blank rest
  · rw [if_pos hrest, hread.blank hrest,
      show (13 : Byte) :: 10 :: (crlfLines ls ++ [13, 10]) = [13, 10] ++ (crlfLines ls ++ [13, 10])
        from rfl, hread.blank hcrlf]
    cases ls with
    | nil => exact hread.blank hcrlf []
    | cons l ls =>
      rw [crlfLines_cons, List.append_assoc, List.cons_append, hread.line (hls l (by simp))]
      rfl
  · rw [if_neg hrest, hread.line hrest]

/-- **A search through the whole head, line by line.** -/
theorem valueAt_lines (hread : Conversion read) (hne : word ≠ []) (hcr : (13 : Byte) ∉ word)
    (hlf : (10 : Byte) ∉ word) (hls : ∀ l ∈ ls.tail, ¬ Blank l) :
    valueAt read word (crlfLines ls ++ [13, 10]) = read ((behind word ls).getD []) := by
  induction ls with
  | nil =>
    obtain ⟨c, word', rfl⟩ := List.exists_cons_of_ne_nil hne
    have hc : c ∉ crlfLines [] ++ [13, 10] := by
      simp only [crlfLines_nil, List.nil_append, List.mem_cons, List.not_mem_nil, or_false, not_or]
      refine ⟨?_, ?_⟩
      · rintro rfl
        exact hcr (by simp)
      · rintro rfl
        exact hlf (by simp)
    rw [valueAt, strstr_of_notMem (by simp) hc]
    rfl
  | cons l ls ih =>
    have ih := ih fun k hk => hls k (List.mem_of_mem_tail hk)
    rw [crlfLines_cons, List.append_assoc, List.cons_append, List.cons_append, behind, valueAt,
      strstr_crlf hne hcr hlf]
    rcases hl : strstr l word with _ | found
    · exact ih
    · obtain ⟨⟨rest, rfl⟩, -⟩ := exists_of_strstr hl
      dsimp only [Option.map_some, Option.some_or, Option.getD_some]
      rw [List.append_assoc, List.drop_left, List.drop_left]
      exact read_rest hread rest hls

theorem scanContentLength_eq (text : List Byte) : scanContentLength text
    = valueAt (fun s => (scanSize s).getD 0) (bytes "Content-Length:") text := by
  rw [scanContentLength, valueAt]
  cases strstr text (bytes "Content-Length:") <;> rfl

theorem not_blank_of_mem_lines {l : List Byte} (hl : l ∈ (lines start fields).tail) :
    ¬ Blank l := by
  obtain ⟨f, -, rfl⟩ := List.mem_map.mp hl
  exact f.not_blank_line

/-! ## The field in its place -/

/-- **The field of that name is where the search finds it**: it is so spelled, no line before it has
the name and a colon, and its value is not blank or is the last thing in the head; or there is no
such field, and the name and a colon are nowhere in the head. -/
inductive Placed (name start : List Byte) (fields : List HeaderField) : Prop
  | inPlace {before after : List HeaderField} {f : HeaderField}
      (hfields : fields = before ++ f :: after) (hnamed : named name fields = some f)
      (hname : f.name = name) (hfirst : ∀ l ∈ lines start before, strstr l (name ++ [58]) = none)
      (hvalue : ¬ Blank f.value ∨ after = [])
  | nowhere (hnamed : named name fields = none)
      (hnone : ∀ l ∈ lines start fields, strstr l (name ++ [58]) = none)

/-- A field with a name that no field before it has is the field of that name. -/
theorem named_append_cons {before after : List HeaderField}
    (hbefore : ∀ k ∈ before, k.name.map toLower ≠ name.map toLower)
    (hname : f.name.map toLower = name.map toLower) :
    named name (before ++ f :: after) = some f := by
  have hnone : before.find? (fun k => k.name.map toLower == name.map toLower) = none :=
    List.find?_eq_none.mpr fun k hk => by simpa using hbefore k hk
  rw [named, List.find?_append, hnone, Option.none_or,
    List.find?_cons_of_pos (by simpa using hname)]

/-- The value of the field of that name, or nothing. -/
def valueOf (name : List Byte) (fields : List HeaderField) : List Byte :=
  ((named name fields).map value).getD []

theorem behind_eq_none_iff : behind word ls = none ↔ ∀ l ∈ ls, strstr l word = none := by
  induction ls with
  | nil => simp [behind]
  | cons l ls ih =>
    rw [behind, List.forall_mem_cons]
    rcases hl : strstr l word with _ | found
    · simpa using ih
    · simp

theorem behind_append {ls' : List (List Byte)} (hnone : ∀ l ∈ ls, strstr l word = none) :
    behind word (ls ++ ls') = behind word ls' := by
  induction ls with
  | nil => rfl
  | cons l ls ih =>
    rw [List.cons_append, behind, hnone l (by simp)]
    exact ih fun k hk => hnone k (List.mem_cons_of_mem _ hk)

/-- The word at the start of a field that has the name. -/
theorem behind_field (f : HeaderField) : behind (f.name ++ [58]) (f.line :: ls)
    = some (if Blank (32 :: f.value) then ls.headD [] else 32 :: f.value) := by
  have hline : f.line = (f.name ++ [58]) ++ 32 :: f.value := by simp [line]
  rw [behind, hline, strstr_append_self]
  dsimp only
  rw [List.drop_left]

/-- What is read behind the name of a field is its value, if that says something or is the last
thing there is. -/
theorem read_behind_field (hread : Conversion read) (f : HeaderField)
    (hvalue : ¬ Blank f.value ∨ ls = []) :
    read ((behind (f.name ++ [58]) (f.line :: ls)).getD []) = read f.value := by
  have hspace : read (32 :: f.value) = read f.value := hread.blank (s := [32]) (by decide) f.value
  rw [behind_field, Option.getD_some]
  by_cases hblank : Blank (32 :: f.value)
  · have hf : Blank f.value := fun b hb => hblank b (List.mem_cons_of_mem _ hb)
    obtain rfl := hvalue.resolve_left (not_not_intro hf)
    have hnil := hread.blank hf []
    rw [List.append_nil] at hnil
    rw [if_pos hblank, hnil]
    rfl
  · rw [if_neg hblank, hspace]

/-- **A search for a field that is in its place reads its value.** -/
theorem Placed.read_behind (hread : Conversion read) (h : Placed name start fields) :
    read ((behind (name ++ [58]) (lines start fields)).getD []) = read (valueOf name fields) := by
  rcases h with @⟨before, after, f, rfl, hnamed, rfl, hfirst, hvalue⟩ | ⟨hnamed, hnone⟩
  · have hlines : lines start (before ++ f :: after)
        = lines start before ++ f.line :: after.map line := by simp [lines]
    rw [hlines, behind_append hfirst, valueOf, hnamed]
    refine read_behind_field hread f (hvalue.imp_right ?_)
    rintro rfl
    rfl
  · rw [behind_eq_none_iff.mpr hnone, valueOf, hnamed]
    rfl

theorem announcedLength_eq (fields : List HeaderField) :
    announcedLength fields = (scanSize (valueOf (bytes "Content-Length") fields)).getD 0 := by
  rw [announcedLength, valueOf]
  cases named (bytes "Content-Length") fields <;> rfl

theorem hostValue_eq (fields : List HeaderField) :
    hostValue fields = trim (valueOf (bytes "Host") fields) := by
  rw [hostValue, valueOf]
  cases named (bytes "Host") fields <;> rfl

/-- The value is at most one word, of at most `w` bytes. -/
def OneWord (w : ℕ) (value : List Byte) : Prop :=
  (∀ b ∈ trim value, isSpace b = false) ∧ (trim value).length ≤ w

instance (w : ℕ) (value : List Byte) : Decidable (OneWord w value) :=
  inferInstanceAs (Decidable (_ ∧ _))

/-- **`%ws` reads a value of one word without the white space around it.** -/
theorem scanToken_of_oneWord {w : ℕ} {value : List Byte} (h : OneWord w value) :
    (scanToken w value).1 = trim value := by
  obtain ⟨hword, hw⟩ := h
  have hsplit : trim value ++ (skipSpace value).rtakeWhile isSpace = skipSpace value :=
    List.rdropWhile_append_rtakeWhile
  have hend : ((skipSpace value).rtakeWhile isSpace).takeWhile (fun b => !isSpace b) = [] := by
    rw [List.takeWhile_eq_nil_iff]
    intro hpos
    simp [List.mem_rtakeWhile_imp (List.getElem_mem hpos)]
  rw [scanToken]
  dsimp only
  rw [← hsplit, List.takeWhile_append_of_pos fun b hb => by simp [hword b hb], hend,
    List.append_nil, List.take_of_length_le hw]

/-! ## A field that is read whatever it says -/

/-- A name in other capitals is no place where the name is found, nor is a value without a colon. -/
theorem strstr_line_eq_none (hname : f.name.map toLower = name.map toLower) (hne : f.name ≠ name)
    (hcolon : (58 : Byte) ∉ f.value) : strstr f.line (name ++ [58]) = none := by
  rcases h : strstr f.line (name ++ [58]) with _ | found
  · rfl
  · exfalso
    obtain ⟨⟨rest, rfl⟩, pre, hpre⟩ := exists_of_strstr h
    have hsplit : f.name ++ 58 :: (32 :: f.value) = (pre ++ name) ++ 58 :: rest := by
      rw [← line, ← hpre]
      simp
    -- there is one colon in the line, and it stands behind its name
    have hword : f.name = pre ++ name :=
      ((List.append_cons_inj_of_notMem (fun h => (f.isName 58 h).2.1 rfl)
        (by simpa using hcolon)).mp hsplit).1
    have hlen := congrArg List.length hname
    rw [hword, List.length_map, List.length_map, List.length_append] at hlen
    obtain rfl : pre = [] := List.length_eq_zero_iff.mp (by omega)
    exact hne hword

/-- What is behind a word that stands in the lines `ls` does not depend on a line that follows them,
or it is that line. -/
theorem behind_of_found (hfound : ∃ l ∈ ls, strstr l word ≠ none) (rest : List (List Byte)) :
    (∀ k k', behind word (ls ++ k :: rest) = behind word (ls ++ k' :: rest)) ∨
      ∀ k, behind word (ls ++ k :: rest) = some k := by
  induction ls with
  | nil =>
    obtain ⟨l, hl, -⟩ := hfound
    cases hl
  | cons l ls ih =>
    rcases hl : strstr l word with _ | found
    · have hfound' : ∃ k ∈ ls, strstr k word ≠ none := by
        obtain ⟨k, hk, hword⟩ := hfound
        rcases List.mem_cons.mp hk with rfl | hk
        · exact absurd hl hword
        · exact ⟨k, hk, hword⟩
      simp only [List.cons_append, behind, hl]
      exact ih hfound'
    · simp only [List.cons_append, behind, hl]
      by_cases hblank : Blank (found.drop word.length)
      · rcases ls with _ | ⟨k, ls⟩
        · exact Or.inr fun k => by rw [if_pos hblank]; rfl
        · exact Or.inl fun _ _ => rfl
      · exact Or.inl fun _ _ => by rw [if_neg hblank, if_neg hblank]

variable (read) in
/-- **A field that is read right for two values is in its place**, if these read differently, and
there is nothing else to be told by: no colon in them, and no difference to who begins to read at
the name. -/
theorem Placed.of_two {before after : List HeaderField} {g : HeaderField}
    (hbefore : ∀ k ∈ before, k.name.map toLower ≠ name.map toLower)
    (hname : f.name.map toLower = name.map toLower) (hfg : g.name = f.name)
    (hf : (58 : Byte) ∉ f.value) (hg : (58 : Byte) ∉ g.value) (hvalue : ¬ Blank f.value)
    (hline : read f.line = read g.line) (hne : read f.value ≠ read g.value)
    (hreadf : read ((behind (name ++ [58]) (lines start (before ++ f :: after))).getD [])
      = read f.value)
    (hreadg : read ((behind (name ++ [58]) (lines start (before ++ g :: after))).getD [])
      = read g.value) :
    Placed name start (before ++ f :: after) := by
  have hlines : ∀ k : HeaderField, lines start (before ++ k :: after)
      = lines start before ++ k.line :: after.map line := fun k => by simp [lines]
  rw [hlines] at hreadf hreadg
  have hfirst : ∀ l ∈ lines start before, strstr l (name ++ [58]) = none := by
    by_contra hex
    rcases behind_of_found (by simpa using hex) (after.map line) with hsame | hnext
    · rw [hsame f.line g.line, hreadg] at hreadf
      exact hne hreadf.symm
    · rw [hnext] at hreadf hreadg
      exact hne (hreadf.symm.trans (hline.trans hreadg))
  refine .inPlace rfl (named_append_cons hbefore hname) ?_ hfirst (.inl hvalue)
  by_contra hother
  rw [behind_append hfirst, behind, strstr_line_eq_none hname hother hf] at hreadf
  rw [behind_append hfirst, behind, strstr_line_eq_none (hfg ▸ hname) (hfg ▸ hother) hg] at hreadg
  exact hne (hreadf.symm.trans hreadg)

/-! ## The length a head announces -/

/-- The lines of a text, each up to a `CRLF`. -/
def textLines : List Byte → List (List Byte)
  | [] => [[]]
  | 13 :: 10 :: s => [] :: textLines s
  | b :: s =>
    match textLines s with
    | [] => [[b]]
    | l :: ls => (b :: l) :: ls

/-- The value in a line `Name: value`, the name in any capitals. -/
def lineValue (name l : List Byte) : Option (List Byte) :=
  if (l.takeWhile (· != 58)).map toLower == name.map toLower then
    (l.dropWhile (· != 58)).tail?
  else none

/-- The length a head announces: that of the first line after the start line which is a
`Content-Length` field. -/
def announced (head : List Byte) : Option ℕ :=
  ((textLines head).tail.findSome? (lineValue (bytes "Content-Length"))).map fun v =>
    (scanSize v).getD 0

theorem textLines_crlf {l : List Byte} (hl : (13 : Byte) ∉ l) (s : List Byte) :
    textLines (l ++ 13 :: 10 :: s) = l :: textLines s := by
  induction l with
  | nil => rfl
  | cons b l ih =>
    have hb : b ≠ 13 := by
      rintro rfl
      exact hl (by simp)
    rw [List.cons_append, textLines, ih fun h => hl (List.mem_cons_of_mem _ h)]
    intro s' hs'
    exact absurd hs' hb

/-- **The lines of a head that was written line by line.** -/
theorem textLines_crlfLines (hls : ∀ l ∈ ls, (13 : Byte) ∉ l) (s : List Byte) :
    textLines (crlfLines ls ++ s) = ls ++ textLines s := by
  induction ls with
  | nil => rfl
  | cons l ls ih =>
    rw [crlfLines_cons, List.append_assoc, List.cons_append, List.cons_append,
      textLines_crlf (hls l (by simp)), ih fun k hk => hls k (List.mem_cons_of_mem _ hk),
      List.cons_append]

/-- A line that a field was written to says what the field says, to those who ask for its name. -/
theorem lineValue_line (name : List Byte) (f : HeaderField) :
    lineValue name f.line
      = if f.name.map toLower == name.map toLower then some (32 :: f.value) else none := by
  have hname : ∀ b ∈ f.name, (b != 58) = true := fun b hb => by simpa using (f.isName b hb).2.1
  rw [lineValue, line, List.takeWhile_append_of_pos hname, List.dropWhile_append_of_pos hname]
  simp

theorem findSome_lineValue (name : List Byte) (fields : List HeaderField) :
    (fields.map line).findSome? (lineValue name)
      = (HeaderField.named name fields).map fun f => 32 :: f.value := by
  induction fields with
  | nil => rfl
  | cons f fields ih =>
    rw [List.map_cons, List.findSome?_cons, lineValue_line, HeaderField.named, List.find?_cons]
    by_cases hf : f.name.map toLower == name.map toLower
    · simp [hf]
    · simp [hf, ih, HeaderField.named]

/-- **A head announces the length its `Content-Length` field says.** -/
theorem announced_headText (hs : OneLine start) : announced (headText start fields)
    = (named (bytes "Content-Length") fields).map fun f => (scanSize f.value).getD 0 := by
  have hcr : ∀ l ∈ lines start fields, (13 : Byte) ∉ l := by
    intro l hl
    rcases List.mem_cons.mp hl with rfl | hl
    · exact fun h => (hs 13 h).1 rfl
    · obtain ⟨f, -, rfl⟩ := List.mem_map.mp hl
      exact f.isLine_line.2
  rw [announced, headText, textLines_crlfLines hcr, lines, List.cons_append, List.tail_cons,
    List.findSome?_append, findSome_lineValue]
  rcases named (bytes "Content-Length") fields with _ | f
  · decide
  · simp only [Option.map_some, Option.some_or]
    rw [scanSize_cons (by decide)]

end HeaderField
