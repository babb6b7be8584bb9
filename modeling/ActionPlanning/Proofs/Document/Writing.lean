import ActionPlanning.Proofs.Document.Lines

/-!
# Writing and reading again

What is relied on of a library for TOML is little: a table of plain values, with tables of plain
values behind them, is written as a text that is read as the same table, and a table that holds an
integer beyond 64 bits with a sign is not written. The library that writes one line for each value
keeps to that. An amount is written as the numeral that names it, so nothing is rounded on the way.

## Main definitions

* `Toml.Plain`, `Toml.Flat`: the values and the tables of which the text is relied on.
* `Toml.Library.Lawful`: what is relied on of a library.

## Main results

* `Toml.exists_valueText`: a plain value is written as a text that stands for it.
* `Toml.lawful_own`: the library that writes lines is lawful.
-/

namespace ActionPlanning.Document.Toml

variable {key : String} {value : Document} {e : String × Document}
  {values : List (String × Document)} {tables : List (String × List (String × Document))}

/-! ## What is relied on -/

/-- A value that every library writes and reads: a flag, a count of 63 bits, a finite amount that is
not negative, or a text without quotes, escapes and controls. -/
def Plain : Document → Prop
  | .flag _ => True
  | .integer n => 0 ≤ n ∧ n < 2 ^ 63
  | .amount a => a.isFinite = true ∧ ¬ a < 0
  | .text t => ∀ c ∈ t.toList, isPlain c
  | _ => False

/-- A plain value under a key that needs no quotes. -/
structure PlainEntry (e : String × Document) : Prop where
  bare : Bare e.1.toList
  plain : Plain e.2

theorem PlainEntry.of_all (nonempty : key.toList ≠ []) (all : key.toList.all isBare = true)
    (plain : Plain value) : PlainEntry (key, value) :=
  ⟨.of_all nonempty all, plain⟩

/-- Plain values, and tables of plain values, under keys of which none is set twice. -/
structure Flat (values : List (String × Document))
    (tables : List (String × List (String × Document))) : Prop where
  outer : ∀ e ∈ values, PlainEntry e
  headers : ∀ inner ∈ tables, Bare inner.1.toList
  inner : ∀ inner ∈ tables, ∀ e ∈ inner.2, PlainEntry e
  distinct : (values.map Prod.fst ++ tables.map Prod.fst).Nodup
  distinctInner : ∀ inner ∈ tables, (inner.2.map Prod.fst).Nodup

/-- The entry that holds a table. -/
def tableEntry (inner : String × List (String × Document)) : String × Document :=
  (inner.1, .table inner.2)

/-- The document of values, and of tables behind them. -/
def flat (values : List (String × Document)) (tables : List (String × List (String × Document))) :
    Document :=
  .table (values ++ tables.map tableEntry)

/-- What is relied on of a library for TOML. -/
structure Library.Lawful (library : Library) : Prop where
  reads_written : ∀ {values tables}, Flat values tables →
    ∃ text, library.write? (flat values tables) = some text ∧
      library.read? text = some (flat values tables)
  /-- Integers have 64 bits with a sign. -/
  refuses_wide : ∀ {entries key n}, (key, .integer n) ∈ entries → isSigned n = false →
    library.write? (.table entries) = none

/-! ## Values -/

theorem stands_flag (flag : Bool) : Stands (toString flag).toList (.flag flag) := by
  cases flag
  · exact stands_word (by decide) (List.all_eq_true.mp (by decide)) rfl rfl
  · exact stands_word (by decide) (List.all_eq_true.mp (by decide)) rfl rfl

theorem isSigned_iff (n : Nat) : isSigned n = true ↔ n < 2 ^ 63 := by
  have least : Int64.minValue.toInt = -2 ^ 63 := by decide
  have greatest : Int64.maxValue.toInt = 2 ^ 63 - 1 := by decide
  simp only [isSigned, least, greatest, Bool.and_eq_true, decide_eq_true_eq]
  omega

theorem stands_count {n : Nat} (signed : isSigned n = true) :
    Stands (toString n).toList (.integer n) := by
  have text : (toString n).toList = Nat.toDigits 10 n := Nat.toList_repr
  have figures := isFigures_toDigits n
  rw [text]
  exact stands_word Nat.toDigits_ne_nil figures.isWord
    (date?_eq_none (figures.not_mem rfl (by decide))) (single?_toDigits signed)

/-- An amount is written so that it is read as it was; the negative zero keeps its sign. -/
theorem stands_amount {a : Amount} (finite : a.isFinite = true) (notLess : ¬ a < 0) :
    Stands a.pointedText.toList (.amount a) := by
  rcases Amount.finite_or_negativeZero finite notLess with unsigned | rfl
  · have names := names_positional a.magnitude (Amount.exponent_magnitude unsigned)
    rw [Amount.toAmount_magnitude unsigned] at names
    rw [Amount.pointedText_eq unsigned]
    exact stands_word names.ne_nil names.isFigures.isWord
      (date?_eq_none (names.isFigures.not_mem rfl (by decide)))
      (names.single?_eq_some (Amount.isInf_eq_false unsigned))
  · -- The one amount with a sign that is not below zero.
    have text : (-0.0 : Amount).pointedText = "-0.0" := by decide +kernel
    have zero : (-0 : Amount) = -0.0 := Amount.eq_of_toBits_eq (by decide +kernel)
    rw [text]
    exact stands_word (by decide) (List.all_eq_true.mp (by decide)) rfl (zero ▸ rfl)

/-- A plain value is written as a text that stands for it. -/
theorem exists_valueText (plain : Plain value) :
    ∃ text, valueText? value = some text ∧ Stands text.toList value := by
  cases value with
  | flag flag => exact ⟨_, rfl, stands_flag flag⟩
  | integer n =>
    obtain ⟨count, rfl⟩ := Int.eq_ofNat_of_zero_le plain.1
    have signed : isSigned count = true := (isSigned_iff count).mpr (by have := plain.2; omega)
    exact ⟨_, if_pos signed, stands_count signed⟩
  | amount a => exact ⟨_, rfl, stands_amount plain.1 plain.2⟩
  | text t =>
    have stands := stands_text plain
    rw [String.ofList_toList] at stands
    refine ⟨_, if_pos (List.all_eq_true.mpr plain), ?_⟩
    rw [String.toList_append, String.toList_append]
    exact stands
  | null | list | table => exact plain.elim

/-! ## Lines and sections -/

theorem keyText?_eq (bare : Bare key.toList) : keyText? key = some key := by
  refine if_pos ⟨?_, List.all_eq_true.mpr bare.bare⟩
  rintro rfl
  exact bare.nonempty rfl

/-- What is plain is written as a line that leaves it. -/
theorem exists_lineText (entry : PlainEntry e) :
    ∃ text line, lineText? e = some text ∧ text.toList = Line.chars line ∧ line.member = e := by
  obtain ⟨text, written, stands⟩ := exists_valueText entry.plain
  refine ⟨e.1 ++ " = " ++ text ++ "\n", ⟨e.1.toList, text.toList, e.2, entry.bare, stands⟩,
    ?_, ?_, ?_⟩
  · rw [lineText?, keyText?_eq entry.bare, written]
    rfl
  · simp only [String.toList_append, Line.chars, List.append_assoc]
    rfl
  · rw [Line.member, Line.name, String.ofList_toList]

/-- If each item is written as it should be, all of them together are. -/
theorem exists_joined {α β γ : Type} {text? : α → Option String} {chars : β → List Char}
    {member : β → γ} {image : α → γ} {items : List α}
    (each : ∀ a ∈ items, ∃ text b, text? a = some text ∧ text.toList = chars b ∧
      member b = image a) :
    ∃ (text : String) (parts : List β), joined? text? items = some text ∧
      text.toList = parts.flatMap chars ∧ parts.map member = items.map image := by
  induction items with
  | nil => exact ⟨"", [], rfl, rfl, rfl⟩
  | cons a items ih =>
    obtain ⟨first, part, written, firstChars, image⟩ := each a List.mem_cons_self
    obtain ⟨others, parts, othersWritten, othersChars, images⟩ :=
      ih fun b mem => each b (List.mem_cons_of_mem a mem)
    refine ⟨first ++ others, part :: parts, ?_, ?_, ?_⟩
    · rw [joined?, written, othersWritten]
      rfl
    · rw [String.toList_append, firstChars, othersChars, List.flatMap_cons]
    · rw [List.map_cons, List.map_cons, image, images]

theorem exists_lineTexts (plain : ∀ e ∈ values, PlainEntry e) :
    ∃ (text : String) (lines : List Line), joined? lineText? values = some text ∧
      text.toList = lines.flatMap Line.chars ∧ lines.map Line.member = values := by
  have each (e : String × Document) (mem : e ∈ values) : ∃ text line, lineText? e = some text ∧
      text.toList = Line.chars line ∧ line.member = id e := exists_lineText (plain e mem)
  obtain ⟨text, lines, written, chars, members⟩ := exists_joined each
  exact ⟨text, lines, written, chars, members.trans (List.map_id values)⟩

/-- A table of plain values is written as a section that leaves it. -/
theorem exists_sectionText {inner : String × List (String × Document)}
    (bare : Bare inner.1.toList) (plain : ∀ e ∈ inner.2, PlainEntry e) :
    ∃ text part, sectionText? inner = some text ∧ text.toList = Section.chars part ∧
      part.member = tableEntry inner := by
  obtain ⟨text, lines, written, chars, members⟩ := exists_lineTexts plain
  refine ⟨"\n[" ++ inner.1 ++ "]\n" ++ text, ⟨inner.1.toList, lines, bare⟩, ?_, ?_, ?_⟩
  · rw [sectionText?, keyText?_eq bare, written]
    rfl
  · simp only [String.toList_append, chars, Section.chars, List.append_assoc]
    rfl
  · rw [Section.member, Section.name, String.ofList_toList, members, tableEntry]

/-! ## The library that writes lines -/

theorem innerTable?_eq_none (plain : Plain value) : innerTable? (key, value) = none := by
  cases value <;> first | rfl | exact plain.elim

theorem innerTable?_tableEntry (inner : String × List (String × Document)) :
    innerTable? (tableEntry inner) = some inner := rfl

/-- The writer tells values and tables apart. -/
theorem write?_flat (flat : Flat values tables) :
    write? (Toml.flat values tables) = do
      let lines ← joined? lineText? values
      let sections ← joined? sectionText? tables
      return lines ++ sections := by
  have none (e : String × Document) (mem : e ∈ values) : innerTable? e = none :=
    innerTable?_eq_none (flat.outer e mem).plain
  have valuesOnly : (values ++ tables.map tableEntry).filter (fun e => (innerTable? e).isNone)
      = values := by
    rw [List.filter_append, List.filter_eq_self.mpr fun e mem => by rw [none e mem]; rfl,
      List.filter_eq_nil_iff.mpr, List.append_nil]
    intro e mem
    obtain ⟨inner, -, rfl⟩ := List.mem_map.mp mem
    simp [innerTable?_tableEntry]
  have tablesOnly : (values ++ tables.map tableEntry).filterMap innerTable? = tables := by
    rw [List.filterMap_append, List.filterMap_eq_nil_iff.mpr none, List.nil_append,
      List.filterMap_map]
    exact List.filterMap_some
  simp only [write?, Toml.flat, valuesOnly, tablesOnly]

theorem names_map_member (lines : List Line) :
    lines.map Line.name = (lines.map Line.member).map Prod.fst := by
  rw [List.map_map]
  rfl

/-- What is flat is written as a text that is read as the same document. -/
theorem read?_written (flat : Flat values tables) :
    ∃ text, write? (Toml.flat values tables) = some text ∧
      read? text = some (Toml.flat values tables) := by
  obtain ⟨head, lines, headWritten, headChars, members⟩ := exists_lineTexts flat.outer
  obtain ⟨tail, sections, tailWritten, tailChars, inner⟩ := exists_joined fun table mem =>
    exists_sectionText (flat.headers table mem) (flat.inner table mem)
  refine ⟨head ++ tail, ?_, ?_⟩
  · rw [write?_flat flat, headWritten, tailWritten]
    rfl
  · have chars : head ++ tail = String.ofList (textOf lines sections) := by
      apply String.toList_inj.mp
      rw [String.toList_append, headChars, tailChars, String.toList_ofList, textOf]
    have headers : sections.map Section.name = tables.map Prod.fst := by
      have names := congrArg (List.map Prod.fst) inner
      rwa [List.map_map, List.map_map] at names
    rw [chars, read?_ofList, members, inner, Toml.flat]
    · rw [names_map_member, members, headers]
      exact flat.distinct
    · -- Each section leaves one of the tables.
      intro part mem
      obtain ⟨table, memTable, same⟩ := List.mem_map.mp (inner ▸ List.mem_map_of_mem mem)
      have lines : table.2 = part.lines.map Line.member :=
        Document.table.inj (congrArg Prod.snd same)
      rw [names_map_member, ← lines]
      exact flat.distinctInner table memTable

theorem joined?_eq_none {α : Type} {text? : α → Option String} {items : List α} {a : α}
    (mem : a ∈ items) (none : text? a = none) : joined? text? items = Option.none := by
  induction items with
  | nil => exact absurd mem List.not_mem_nil
  | cons b items ih =>
    rw [joined?]
    rcases List.mem_cons.mp mem with rfl | mem
    · rw [none]
      rfl
    · rw [ih mem]
      cases text? b <;> rfl

/-- The library that writes a line for each value keeps to what is relied on. -/
theorem lawful_own : Library.own.Lawful where
  reads_written := read?_written
  refuses_wide {entries key n} mem wide := by
    have value : valueText? (.integer n) = none := if_neg (by rw [wide]; exact Bool.false_ne_true)
    have line : lineText? (key, .integer n) = none := by
      rw [lineText?, value]
      cases keyText? key <;> rfl
    have among : (key, .integer n) ∈ entries.filter fun e => (innerTable? e).isNone :=
      List.mem_filter.mpr ⟨mem, rfl⟩
    change write? (.table entries) = none
    rw [write?, joined?_eq_none among line]
    rfl

end ActionPlanning.Document.Toml
