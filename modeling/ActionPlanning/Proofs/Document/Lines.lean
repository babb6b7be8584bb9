import ActionPlanning.Document.Toml.Writing
import ActionPlanning.Proofs.Document.Words

/-!
# Texts made of lines

A text that sets one key a line is read as the table of those keys and values, and so is one that
goes on with tables under headers of their own. What a line needs for this is a key of bare
characters and a value that is read up to the end of the line; no key may be set twice.

## Main definitions

* `Toml.Stands`: being a text that is read as a value, up to the end of its line.
* `Toml.Line`, `Toml.Section`: a key and the text of its value, and the lines under a header.

## Main results

* `Toml.stands_word`, `Toml.stands_text`: what is a word, or is quoted, stands for its value.
* `Toml.lines?_append`, `Toml.lines?_sections`: lines and sections are read one by one.
* `Toml.read?_ofList`: what a text of lines and sections is read as.
-/

namespace ActionPlanning.Document.Toml

variable {cs key rest : List Char} {c : Char} {value : Document} {fuel : Nat} {path : List String}

/-! ## Values -/

/-- A text that is read as a value, if the end of the line comes behind it. -/
structure Stands (cs : List Char) (value : Document) : Prop where
  visible : ∀ c ∈ cs.head?, isBlank c = false
  read (fuel depth : Nat) (rest : List Char) :
    value? (fuel + 1) depth (cs ++ '\n' :: rest) = some (value, '\n' :: rest)

theorem Stands.skipBlank_append (stands : Stands cs value) (rest : List Char) :
    skipBlank (cs ++ '\n' :: rest) = cs ++ '\n' :: rest := by
  cases cs with
  | nil => rfl
  | cons c cs =>
    have visible := stands.visible c rfl
    exact List.dropWhile_cons_of_neg (Bool.eq_false_iff.mp visible)

/-- A word stands for its value. -/
theorem stands_word (nonempty : cs ≠ []) (inWord : ∀ c ∈ cs, isWord c) (noDate : date? cs = none)
    (single : word?.single? cs = some value) : Stands cs value := by
  obtain ⟨c, tail, rfl⟩ := List.exists_cons_of_ne_nil nonempty
  have first := inWord c List.mem_cons_self
  have ne (d : Char) (other : isWord d = false) : c ≠ d := by
    rintro rfl
    exact Bool.noConfusion (other.symm.trans first)
  constructor
  · intro d head
    obtain rfl := Option.some.inj head
    exact Bool.or_eq_false_iff.mpr
      ⟨decide_eq_false (ne _ (by decide)), decide_eq_false (ne _ (by decide))⟩
  · intro fuel depth rest
    have word : value? (fuel + 1) depth (c :: tail ++ '\n' :: rest)
        = word? (c :: tail ++ '\n' :: rest) := by
      rw [List.cons_append, value?]
      · exact fun _ quote => ne _ (by decide) (List.cons.inj quote).1
      · exact fun _ quote => ne _ (by decide) (List.cons.inj quote).1
      · exact fun _ bracket => ne _ (by decide) (List.cons.inj bracket).1
      · exact fun _ brace => ne _ (by decide) (List.cons.inj brace).1
    rw [word, word?_append inWord noDate (by decide), single]
    rfl

theorem basic?_append {read : List Char} (plain : ∀ c ∈ cs, isPlain c) :
    basic? read (cs ++ '"' :: rest) = some (String.ofList (read.reverse ++ cs), rest) := by
  induction cs generalizing read with
  | nil =>
    rw [List.nil_append, basic?.eq_def, List.append_nil]
    rfl
  | cons c cs ih =>
    obtain ⟨first, plain⟩ := List.forall_mem_cons.mp plain
    have ne {d : Char} {tail : List Char} (other : isPlain d = false) :
        c :: (cs ++ '"' :: rest) ≠ d :: tail := fun same => by
      rw [(List.cons.inj same).1] at first
      exact Bool.noConfusion (other.symm.trans first)
    rw [List.cons_append, basic?.eq_def]
    split
    case h_1 quote => exact absurd quote (ne (by decide))
    case h_2 escape => exact absurd escape (ne (by decide))
    case h_3 escape => exact absurd escape (ne (by decide))
    case h_4 escape => exact absurd escape (ne (by decide))
    case h_5 same =>
      obtain ⟨rfl, rfl⟩ := List.cons.inj same
      rw [if_pos (Bool.and_eq_true_iff.mp first).1, ih plain, List.reverse_cons, List.append_assoc]
      rfl
    case h_6 nothing => exact nomatch nothing

/-- What is quoted stands for itself. -/
theorem stands_text (plain : ∀ c ∈ cs, isPlain c) :
    Stands ('"' :: (cs ++ ['"'])) (.text (String.ofList cs)) := by
  constructor
  · intro d head
    obtain rfl := Option.some.inj head
    decide
  · intro fuel depth rest
    have text : text? ('"' :: (cs ++ '"' :: '\n' :: rest))
        = some (String.ofList cs, '\n' :: rest) := by
      rw [text?]
      · exact basic?_append plain
      · -- Two more quotes would open a text of several lines.
        intro more quotes
        cases cs with
        | nil => exact absurd (List.cons.inj (List.cons.inj quotes).2).1 (by decide)
        | cons c cs =>
          have first := plain c List.mem_cons_self
          rw [(List.cons.inj quotes).1] at first
          exact absurd first (by decide)
    rw [List.cons_append, List.append_assoc, value?]
    exact congrArg (Option.map _) text

/-! ## Keys -/

/-- A key without quotes. -/
structure Bare (key : List Char) : Prop where
  nonempty : key ≠ []
  bare : ∀ c ∈ key, isBare c

theorem Bare.of_all (nonempty : key ≠ []) (all : key.all isBare = true) : Bare key :=
  ⟨nonempty, List.all_eq_true.mp all⟩

namespace Bare

variable (bare : Bare key)

include bare

theorem head_ne {d : Char} (other : isBare d = false) : ∀ more, key ++ rest ≠ d :: more := by
  rintro more same
  obtain ⟨c, tail, rfl⟩ := List.exists_cons_of_ne_nil bare.nonempty
  have first := bare.bare c List.mem_cons_self
  rw [(List.cons.inj same).1] at first
  exact Bool.noConfusion (other.symm.trans first)

theorem skipBlank_append : skipBlank (key ++ rest) = key ++ rest := by
  obtain ⟨c, tail, rfl⟩ := List.exists_cons_of_ne_nil bare.nonempty
  refine List.dropWhile_cons_of_neg fun blank => ?_
  have first := bare.bare c List.mem_cons_self
  simp only [isBlank, Bool.or_eq_true, decide_eq_true_eq] at blank
  rcases blank with rfl | rfl <;> exact absurd first (by decide)

/-- A bare key ends where other characters follow, if they are no point. -/
theorem key?_append {d : Char} {more : List Char} (ends : isBare c = false)
    (next : skipBlank (c :: rest) = d :: more) (noPoint : d ≠ '.') :
    key? (key ++ c :: rest) = some ([String.ofList key], d :: more) := by
  have taken : (key ++ c :: rest).takeWhile isBare = key := by
    rw [List.takeWhile_append_of_pos bare.bare, List.takeWhile_cons, ends]
    exact List.append_nil key
  have left : (key ++ c :: rest).dropWhile isBare = c :: rest := by
    rw [List.dropWhile_append_of_pos bare.bare, List.dropWhile_cons, ends]
    rfl
  have part : keyPart? (key ++ c :: rest) = some (String.ofList key, c :: rest) := by
    rw [keyPart?]
    · rw [taken, left]
      obtain ⟨d, tail, rfl⟩ := List.exists_cons_of_ne_nil bare.nonempty
      rfl
    · exact bare.head_ne (by decide)
    · exact bare.head_ne (by decide)
  change keyParts? (78 + 1) _ = _
  rw [keyParts?, bare.skipBlank_append, part]
  dsimp only
  rw [next]
  split
  case h_1 point => exact absurd (List.cons.inj point).1 noPoint
  case h_2 => rfl

end Bare

/-! ## Lines -/

/-- A line that sets a key to a value. -/
structure Line where
  key : List Char
  text : List Char
  value : Document
  bare : Bare key
  stands : Stands text value

namespace Line

/-- The name that the key stands for. -/
def name (line : Line) : String := String.ofList line.key

/-- The characters of a line, its end included. -/
def chars (line : Line) : List Char := line.key ++ ' ' :: '=' :: ' ' :: (line.text ++ ['\n'])

theorem chars_append (line : Line) (rest : List Char) :
    line.chars ++ rest = line.key ++ ' ' :: '=' :: ' ' :: (line.text ++ '\n' :: rest) := by
  simp only [chars, List.append_assoc, List.cons_append, List.nil_append]

theorem setting?_append (line : Line) (fuel : Nat) (rest : List Char) :
    setting? (fuel + 1) (line.chars ++ rest) = some (([line.name], line.value), rest) := by
  have key : key? (line.key ++ ' ' :: '=' :: ' ' :: (line.text ++ '\n' :: rest))
      = some ([line.name], '=' :: ' ' :: (line.text ++ '\n' :: rest)) :=
    line.bare.key?_append (by decide) rfl (by decide)
  have visible : skipBlank (' ' :: (line.text ++ '\n' :: rest)) = line.text ++ '\n' :: rest :=
    line.stands.skipBlank_append rest
  rw [chars_append, setting?, key]
  simp only [visible, line.stands.read]
  rfl

/-- Enters the value of a line into the table at a path. -/
def enter? (path : List String) (t : Table) (line : Line) : Option Table :=
  t.changeAt? .passage (Table.setKey? [line.name] line.value) path

end Line

theorem lines?_line (line : Line) (top : Table) (fuel : Nat) (rest : List Char) :
    lines? (fuel + 2) path top (line.chars ++ rest)
      = (line.enter? path top).bind (lines? (fuel + 1) path · rest) := by
  have setting := line.setting?_append fuel rest
  have chars := line.chars_append rest
  generalize ' ' :: '=' :: ' ' :: (line.text ++ '\n' :: rest) = behind at chars
  rw [chars] at setting ⊢
  have noEnd : newline? (line.key ++ behind) = none := by
    rw [newline?]
    · exact line.bare.head_ne (by decide)
    · exact fun more => line.bare.head_ne (by decide) _
  -- The key keeps the line from being blank, a header or a comment.
  rw [lines?.eq_def]
  dsimp only
  rw [line.bare.skipBlank_append]
  split
  case h_1 nothing => exact absurd (List.append_eq_nil_iff.mp nothing).1 line.bare.nonempty
  case h_2 bracket => exact absurd bracket (line.bare.head_ne (by decide) _)
  case h_3 bracket => exact absurd bracket (line.bare.head_ne (by decide) _)
  case h_4 comment => exact absurd comment (line.bare.head_ne (by decide) _)
  case h_5 =>
    rw [noEnd, setting]
    rfl

/-- Lines are read one by one. -/
theorem lines?_append (path : List String) (lines : List Line) (top : Table) (fuel : Nat)
    (rest : List Char) :
    lines? (fuel + lines.length + 1) path top (lines.flatMap Line.chars ++ rest)
      = (lines.foldlM (Line.enter? path) top).bind (lines? (fuel + 1) path · rest) := by
  induction lines generalizing top with
  | nil => rfl
  | cons line lines ih =>
    rw [List.flatMap_cons, List.append_assoc, List.length_cons, ← Nat.add_assoc, lines?_line,
      List.foldlM_cons, Option.bind_eq_bind, Option.bind_assoc]
    exact Option.bind_congr fun t _ => ih t

/-! ## Tables -/

namespace Line

/-- What a line leaves in a growing table. -/
def entry (line : Line) : String × Entry := (line.name, .value line.value)

/-- What a line leaves in a document. -/
def member (line : Line) : String × Document := (line.name, line.value)

end Line

namespace Table

/-- A table with entries of its own and then an inner table with a header. -/
def around (before : List (String × Entry)) (header : String) (inner : List (String × Entry)) :
    Table :=
  ⟨.header, before ++ [(header, .table .header inner)]⟩

variable {t : Table} {name header : String} {before inner : List (String × Entry)}

theorem get?_eq_none (fresh : name ∉ t.entries.map Prod.fst) : t.get? name = none := by
  rw [get?, Option.map_eq_none_iff, List.find?_eq_none]
  exact fun e mem same => fresh (List.mem_map.mpr ⟨e, mem, of_decide_eq_true same⟩)

/-- A new key is set behind the others. -/
theorem set_eq (fresh : name ∉ t.entries.map Prod.fst) (entry : Entry) :
    t.set name entry = ⟨t.origin, t.entries ++ [(name, entry)]⟩ := by
  rw [set, get?_eq_none fresh]
  rfl

theorem setKey?_eq (fresh : name ∉ t.entries.map Prod.fst) (value : Document) :
    t.setKey? [name] value = some ⟨t.origin, t.entries ++ [(name, .value value)]⟩ := by
  change t.setNew? name value = _
  rw [setNew?, get?_eq_none fresh, set_eq fresh]
  rfl

/-- A header opens a table behind the others. -/
theorem openTable?_eq (fresh : header ∉ before.map Prod.fst) :
    openTable? [header] ⟨.header, before⟩ = some (around before header []) := by
  have none := get?_eq_none (t := ⟨.header, before⟩) fresh
  simp only [openTable?, List.getLast?_singleton, List.dropLast_singleton, Option.bind_eq_bind,
    Option.bind_some, changeAt?, none]
  exact congrArg some (set_eq (t := ⟨.header, before⟩) fresh _)

theorem get?_around (fresh : header ∉ before.map Prod.fst) :
    (around before header inner).get? header = some (.table .header inner) := by
  have others : before.find? (fun e => e.1 = header) = none := by
    rw [List.find?_eq_none]
    exact fun e mem same => fresh (List.mem_map.mpr ⟨e, mem, of_decide_eq_true same⟩)
  rw [get?, around, List.find?_append, others, Option.none_or, List.find?_singleton,
    if_pos (decide_eq_true rfl)]
  rfl

theorem set_around (fresh : header ∉ before.map Prod.fst) (changed : List (String × Entry)) :
    (around before header inner).set header (.table .header changed)
      = around before header changed := by
  have kept : (before.map fun e => if e.1 = header then (header, .table .header changed) else e)
      = before := by
    refine (List.map_congr_left fun e mem => if_neg fun same => ?_).trans (List.map_id before)
    exact fresh (List.mem_map.mpr ⟨e, mem, same⟩)
  rw [set, get?_around fresh]
  simp only [around, Option.isSome_some, if_true, List.map_append, kept, List.map_cons,
    List.map_nil]

end Table

section

variable {header : String} {before es : List (String × Entry)}

/-- A line without a header in front is entered at the top. -/
theorem Line.enter?_nil (line : Line) (fresh : line.name ∉ es.map Prod.fst) :
    line.enter? [] ⟨.header, es⟩ = some ⟨.header, es ++ [line.entry]⟩ :=
  Table.setKey?_eq (t := ⟨.header, es⟩) fresh line.value

/-- A line behind a header is entered into its table. -/
theorem Line.enter?_header (line : Line) (apart : header ∉ before.map Prod.fst)
    (fresh : line.name ∉ es.map Prod.fst) :
    line.enter? [header] (Table.around before header es)
      = some (Table.around before header (es ++ [line.entry])) := by
  have inner := Table.setKey?_eq (t := ⟨.header, es⟩) fresh line.value
  rw [enter?, Table.changeAt?, Table.get?_around apart]
  dsimp only
  rw [if_neg fun way => absurd way.1 (by decide), Table.changeAt?, inner]
  exact congrArg some (Table.set_around apart _)

/-- Lines are entered one behind the other. -/
theorem foldlM_enter? (holder : List (String × Entry) → Table)
    (step : ∀ es (line : Line), line.name ∉ es.map Prod.fst →
      line.enter? path (holder es) = some (holder (es ++ [line.entry])))
    (lines : List Line) (es : List (String × Entry))
    (distinct : (es.map Prod.fst ++ lines.map Line.name).Nodup) :
    lines.foldlM (Line.enter? path) (holder es) = some (holder (es ++ lines.map Line.entry)) := by
  induction lines generalizing es with
  | nil => rw [List.map_nil, List.append_nil]; rfl
  | cons line lines ih =>
    have fresh : line.name ∉ es.map Prod.fst := fun old =>
      (List.nodup_append.mp distinct).2.2 _ old _ List.mem_cons_self rfl
    have moved : (es ++ [line.entry]).map Prod.fst ++ lines.map Line.name
        = es.map Prod.fst ++ (line :: lines).map Line.name := by
      rw [List.map_append, List.append_assoc]
      rfl
    rw [List.foldlM_cons, step es line fresh, Option.bind_eq_bind, Option.bind_some,
      ih _ (moved ▸ distinct), List.append_assoc]
    rfl

end

theorem entriesDocument_append (es fs : List (String × Entry)) :
    entriesDocument (es ++ fs) = entriesDocument es ++ entriesDocument fs := by
  induction es with
  | nil => rfl
  | cons e es ih => rw [List.cons_append, entriesDocument, ih]; rfl

theorem entriesDocument_map (lines : List Line) :
    entriesDocument (lines.map Line.entry) = lines.map Line.member := by
  induction lines with
  | nil => rfl
  | cons line lines ih => rw [List.map_cons, Line.entry, entriesDocument, ih]; rfl

/-! ## Texts -/

theorem length_le_length_flatMap (lines : List Line) :
    lines.length ≤ (lines.flatMap Line.chars).length := by
  induction lines with
  | nil => exact Nat.le_refl 0
  | cons line lines ih =>
    simp only [List.flatMap_cons, List.length_append, List.length_cons, Line.chars]
    omega

theorem lines?_newline (top : Table) (fuel : Nat) (rest : List Char) :
    lines? (fuel + 1) path top ('\n' :: rest) = lines? fuel path top rest := by
  rw [lines?.eq_def]
  rfl

theorem lines?_header {header : List Char} (bare : Bare header) (top : Table) (fuel : Nat)
    (rest : List Char) :
    lines? (fuel + 1) path top ('[' :: (header ++ ']' :: '\n' :: rest))
      = (top.openTable? [String.ofList header]).bind
          (lines? fuel [String.ofList header] · rest) := by
  have key : key? (header ++ ']' :: '\n' :: rest)
      = some ([String.ofList header], ']' :: '\n' :: rest) :=
    bare.key?_append (by decide) rfl (by decide)
  have opened : tableHeader? (header ++ ']' :: '\n' :: rest)
      = some ([String.ofList header], rest) := by
    rw [tableHeader?, key]
    rfl
  have start : skipBlank ('[' :: (header ++ ']' :: '\n' :: rest))
      = '[' :: (header ++ ']' :: '\n' :: rest) := rfl
  rw [lines?.eq_def]
  dsimp only
  rw [start]
  split
  case h_1 nothing => exact nomatch nothing
  case h_2 more brackets =>
    exact absurd (List.cons.inj brackets).2 (bare.head_ne (by decide) _)
  case h_3 bracket =>
    obtain rfl := (List.cons.inj bracket).2
    rw [opened]
    rfl
  case h_4 comment => exact absurd (List.cons.inj comment).1 (by decide)
  case h_5 _ bracket _ => exact absurd rfl (bracket _)

/-- The lines under a header. -/
structure Section where
  header : List Char
  lines : List Line
  bare : Bare header

namespace Section

/-- The name that the header stands for. -/
def name (part : Section) : String := String.ofList part.header

/-- The characters of a section, the empty line before it included. -/
def chars (part : Section) : List Char :=
  '\n' :: '[' :: (part.header ++ ']' :: '\n' :: part.lines.flatMap Line.chars)

/-- What a section leaves in a growing table. -/
def entry (part : Section) : String × Entry :=
  (part.name, .table .header (part.lines.map Line.entry))

/-- What a section leaves in a document. -/
def member (part : Section) : String × Document :=
  (part.name, .table (part.lines.map Line.member))

/-- A section takes a turn for the empty line, one for the header and one for each line. -/
def turns (part : Section) : Nat := part.lines.length + 2

/-- A section becomes a table behind what was read before. -/
theorem lines?_chars (part : Section) {es : List (String × Entry)}
    (fresh : part.name ∉ es.map Prod.fst) (distinct : (part.lines.map Line.name).Nodup)
    (fuel : Nat) (rest : List Char) :
    lines? (fuel + 1 + part.turns) path ⟨.header, es⟩ (part.chars ++ rest)
      = lines? (fuel + 1) [part.name] ⟨.header, es ++ [part.entry]⟩ rest := by
  have turns : fuel + 1 + part.turns = fuel + part.lines.length + 1 + 1 + 1 := by
    rw [Section.turns]
    omega
  have entered : part.lines.foldlM (Line.enter? [part.name]) (Table.around es part.name [])
      = some (Table.around es part.name (part.lines.map Line.entry)) :=
    foldlM_enter? (Table.around es part.name) (fun _ line => line.enter?_header fresh) part.lines []
      distinct
  rw [turns, chars, List.cons_append, lines?_newline, List.cons_append, List.append_assoc,
    List.cons_append, List.cons_append, lines?_header part.bare, ← name, Table.openTable?_eq fresh,
    Option.bind_some, lines?_append, entered]
  rfl

end Section

/-- Sections are read one by one. -/
theorem lines?_sections (path : List String) (sections : List Section)
    {es : List (String × Entry)}
    (distinct : (es.map Prod.fst ++ sections.map Section.name).Nodup)
    (distinctInner : ∀ part ∈ sections, (part.lines.map Line.name).Nodup) (fuel : Nat) :
    lines? (fuel + 1 + (sections.map Section.turns).sum) path ⟨.header, es⟩
        (sections.flatMap Section.chars)
      = some ⟨.header, es ++ sections.map Section.entry⟩ := by
  induction sections generalizing es path with
  | nil => simp [lines?, skipBlank]
  | cons part sections ih =>
    have fresh : part.name ∉ es.map Prod.fst := fun old =>
      (List.nodup_append.mp distinct).2.2 _ old _ List.mem_cons_self rfl
    have moved : (es ++ [part.entry]).map Prod.fst ++ sections.map Section.name
        = es.map Prod.fst ++ (part :: sections).map Section.name := by
      rw [List.map_append, List.append_assoc]
      rfl
    have turns : fuel + 1 + ((part :: sections).map Section.turns).sum
        = fuel + (sections.map Section.turns).sum + 1 + part.turns := by
      rw [List.map_cons, List.sum_cons]
      omega
    rw [turns, List.flatMap_cons, part.lines?_chars fresh (distinctInner part List.mem_cons_self),
      Nat.add_right_comm, ih _ (moved ▸ distinct)
        fun inner member => distinctInner inner (List.mem_cons_of_mem part member),
      List.append_assoc]
    rfl

theorem entriesDocument_sections (sections : List Section) :
    entriesDocument (sections.map Section.entry) = sections.map Section.member := by
  induction sections with
  | nil => rfl
  | cons part sections ih =>
    rw [List.map_cons, Section.entry, entriesDocument, ih, Entry.document, entriesDocument_map]
    rfl

/-- A text has at least as many characters as reading it takes turns. -/
theorem turns_le_length (sections : List Section) :
    (sections.map Section.turns).sum ≤ (sections.flatMap Section.chars).length := by
  induction sections with
  | nil => exact Nat.le_refl 0
  | cons part sections ih =>
    have inner := length_le_length_flatMap part.lines
    simp only [List.map_cons, List.sum_cons, List.flatMap_cons, List.length_append, Section.turns,
      Section.chars, List.length_cons]
    omega

/-- The characters of a text of lines and sections. -/
def textOf (lines : List Line) (sections : List Section) : List Char :=
  lines.flatMap Line.chars ++ sections.flatMap Section.chars

theorem skipMark_textOf (lines : List Line) (sections : List Section) :
    skipMark (textOf lines sections) = textOf lines sections := by
  cases lines with
  | nil => cases sections <;> rfl
  | cons line lines =>
    rw [textOf, List.flatMap_cons, List.append_assoc, Line.chars_append, skipMark]
    exact fun more => line.bare.head_ne (by decide) more

/-- A text of lines and sections is read as the table of what those leave. -/
theorem read?_ofList (lines : List Line) (sections : List Section)
    (distinct : (lines.map Line.name ++ sections.map Section.name).Nodup)
    (distinctInner : ∀ part ∈ sections, (part.lines.map Line.name).Nodup) :
    read? (String.ofList (textOf lines sections))
      = some (.table (lines.map Line.member ++ sections.map Section.member)) := by
  have names : (lines.map Line.entry).map Prod.fst = lines.map Line.name := by
    rw [List.map_map]
    rfl
  have outer : lines.foldlM (Line.enter? []) Table.top = some ⟨.header, lines.map Line.entry⟩ :=
    foldlM_enter? (fun es => ⟨.header, es⟩) (fun _ line => line.enter?_nil) lines []
      (List.nodup_append.mp distinct).1
  -- Every line and every section takes its turns, and so does the end.
  obtain ⟨fuel, turns⟩ : ∃ fuel, 2 * (textOf lines sections).length + 2
      = fuel + (sections.map Section.turns).sum + lines.length + 1 := by
    have outerLength := length_le_length_flatMap lines
    have innerLength := turns_le_length sections
    refine ⟨2 * (textOf lines sections).length + 1
      - ((sections.map Section.turns).sum + lines.length), ?_⟩
    simp only [textOf, List.length_append]
    omega
  have read := lines?_sections [] sections (names.symm ▸ distinct) distinctInner fuel
  rw [read?, String.toList_ofList, skipMark_textOf, turns, textOf, lines?_append, outer,
    Option.bind_some, Nat.add_right_comm, read]
  change some (Document.table (entriesDocument _)) = _
  rw [entriesDocument_append, entriesDocument_map, entriesDocument_sections]

end ActionPlanning.Document.Toml
