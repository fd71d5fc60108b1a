import Mathlib.Data.List.Basic

/-!
# Comma-separated values

The grammar of RFC 4180 with a line feed between rows, as relations between a text and what it
stands for, and a parser that reads a text character by character. The parser finds what the
grammar derives (`parse_of_file`), so that a text has one reading at most.

A text is written by quoting its fields and joining them: a quoted field stands for any value
(`field_quote`), and joined fields and rows stand for the list of them (`row_intercalate`,
`file_intercalate`).
-/

namespace Csv

/-! ### The grammar -/

/-- The characters of a field without quotes: TEXTDATA, in any script. -/
def IsText (c : Char) : Prop := c ≠ '"' ∧ c ≠ ',' ∧ c ≠ '\n' ∧ c ≠ '\r'

instance (c : Char) : Decidable (IsText c) :=
  inferInstanceAs (Decidable (_ ∧ _ ∧ _ ∧ _))

/-- What stands between the quotes of a field, and its value. -/
inductive Quoted : List Char → List Char → Prop
  | nil : Quoted [] []
  | char {c body value} (h : c ≠ '"') (rest : Quoted body value) : Quoted (c :: body) (c :: value)
  | quote {body value} (rest : Quoted body value) : Quoted ('"' :: '"' :: body) ('"' :: value)

inductive Field : List Char → List Char → Prop
  | plain {text} (h : ∀ c ∈ text, IsText c) : Field text text
  | quoted {body value} (h : Quoted body value) : Field ('"' :: (body ++ ['"'])) value

inductive Row : List Char → List (List Char) → Prop
  | one {text value} (h : Field text value) : Row text [value]
  | cons {text value texts values} (h : Field text value) (rest : Row texts values) :
      Row (text ++ ',' :: texts) (value :: values)

/-- The last row may be followed by a line feed or not. -/
inductive File : List Char → List (List (List Char)) → Prop
  | last {text row} (h : Row text row) : File text [row]
  | ended {text row} (h : Row text row) : File (text ++ ['\n']) [row]
  | cons {text row texts rows} (h : Row text row) (rest : File texts rows) (hne : texts ≠ []) :
      File (text ++ '\n' :: texts) (row :: rows)

/-! ### The parser -/

/-- Where in a field the parser is. -/
inductive Place
  | start | plain | quoted | closed
deriving DecidableEq, Repr

/-- The rows of a text, of which `row` and the beginning `field` of the next field have been
read. -/
def scan : Place → List Char → List (List Char) → List Char → Option (List (List (List Char)))
  | .quoted, _, _, [] => none
  | _, field, row, [] => some [row ++ [field]]
  | .quoted, field, row, c :: cs =>
    if c = '"' then scan .closed field row cs else scan .quoted (field ++ [c]) row cs
  | place, field, row, c :: cs =>
    if c = ',' then scan .start [] (row ++ [field]) cs
    else if c = '\n' then
      (if cs = [] then some [] else scan .start [] [] cs).map fun rows => (row ++ [field]) :: rows
    else if c = '"' then
      -- a quote opens a field, or was doubled inside of one
      if place = .start then scan .quoted field row cs
      else if place = .closed then scan .quoted (field ++ ['"']) row cs
      else none
    else if c = '\r' ∨ place = .closed then none
    else scan .plain (field ++ [c]) row cs

/-- The rows of a text. -/
def parse (text : String) : Option (List (List String)) :=
  (scan .start [] [] text.toList).map fun rows => rows.map fun row => row.map String.ofList

/-! ### The parser finds what the grammar derives -/

/-- What may come after a field. -/
def EndsField (rest : List Char) : Prop :=
  rest = [] ∨ ∃ cs, rest = ',' :: cs ∨ rest = '\n' :: cs

/-- What may come after a row. -/
def EndsRow (rest : List Char) : Prop :=
  rest = [] ∨ ∃ cs, rest = '\n' :: cs

theorem EndsRow.endsField {rest : List Char} (h : EndsRow rest) : EndsField rest := by
  rcases h with rfl | ⟨cs, rfl⟩
  · exact .inl rfl
  · exact .inr ⟨cs, .inr rfl⟩

section Scan

variable {field value text rest : List Char} {row values : List (List Char)}

/-- The end of a field is the same wherever the parser is. -/
theorem scan_of_endsField {place : Place} (hplace : place ≠ .quoted) (h : EndsField rest) :
    scan place field row rest = scan .closed field row rest := by
  rcases h with rfl | ⟨cs, rfl | rfl⟩ <;> cases place <;> first | rfl | exact absurd rfl hplace

/-- A character of a field without quotes. -/
theorem scan_text {place : Place} (hplace : place = .start ∨ place = .plain) {c : Char}
    (hc : IsText c) : scan place field row (c :: rest) = scan .plain (field ++ [c]) row rest := by
  obtain ⟨hquote, hcomma, hline, hreturn⟩ := hc
  rcases hplace with rfl | rfl <;> simp [scan, hquote, hcomma, hline, hreturn]

theorem scan_plain (htext : ∀ c ∈ text, IsText c) (h : EndsField rest) :
    scan .plain field row (text ++ rest) = scan .closed (field ++ text) row rest := by
  induction text generalizing field with
  | nil =>
    rw [List.nil_append, List.append_nil]
    exact scan_of_endsField (by decide) h
  | cons c text ih =>
    have hrest : scan .plain (field ++ [c]) row (text ++ rest) = _ :=
      ih fun d hd => htext d (List.mem_cons_of_mem _ hd)
    rw [List.append_assoc, List.singleton_append] at hrest
    rw [← hrest, List.cons_append, scan_text (.inr rfl) (htext c List.mem_cons_self)]

/-- A quoted field is read up to its closing quote. -/
theorem scan_quoted {body : List Char} (h : Quoted body value) :
    scan .quoted field row (body ++ '"' :: rest) = scan .closed (field ++ value) row rest := by
  induction h generalizing field with
  | nil =>
    rw [List.nil_append, List.append_nil, scan, if_pos rfl]
  | @char c body value hc _ ih =>
    rw [List.cons_append, scan, if_neg hc, ih, List.append_assoc, List.singleton_append]
  | @quote body value _ ih =>
    -- the first of two quotes closes the field, and the second one opens it again
    have hclosed : scan .closed field row ('"' :: (body ++ '"' :: rest)) =
        scan .quoted (field ++ ['"']) row (body ++ '"' :: rest) := rfl
    rw [List.cons_append, List.cons_append, scan, if_pos rfl, hclosed, ih, List.append_assoc,
      List.singleton_append]

theorem scan_field (hfield : Field text value) (h : EndsField rest) :
    scan .start [] row (text ++ rest) = scan .closed value row rest := by
  cases hfield with
  | plain htext =>
    cases value with
    | nil => exact scan_of_endsField (by decide) h
    | cons c value =>
      -- the first character decides that there are no quotes
      have hrest : scan .plain ([] ++ [c]) row (value ++ rest) = _ :=
        scan_plain (fun d hd => htext d (List.mem_cons_of_mem _ hd)) h
      rw [List.cons_append, scan_text (.inl rfl) (htext c List.mem_cons_self), hrest]
      rfl
  | @quoted body _ hbody =>
    have hopen : scan .start [] row ('"' :: (body ++ '"' :: rest)) =
        scan .quoted [] row (body ++ '"' :: rest) := rfl
    rw [List.cons_append, List.append_assoc, List.singleton_append, hopen, scan_quoted hbody,
      List.nil_append]

theorem scan_row (hrow : Row text values) (h : EndsRow rest) :
    ∃ field before, values = before ++ [field] ∧
      scan .start [] row (text ++ rest) = scan .closed field (row ++ before) rest := by
  -- the parser has not yet seen the end of the last field; the others are in `before`
  induction hrow generalizing row with
  | @one text value hfield =>
    refine ⟨value, [], rfl, ?_⟩
    rw [List.append_nil]
    exact scan_field hfield h.endsField
  | @cons text value texts values hfield _ ih =>
    obtain ⟨field, before, rfl, hscan⟩ := @ih (row ++ [value])
    refine ⟨field, value :: before, rfl, ?_⟩
    have hcomma : scan .closed value row (',' :: (texts ++ rest)) =
        scan .start [] (row ++ [value]) (texts ++ rest) := rfl
    rw [List.append_assoc, List.cons_append, scan_field hfield (.inr ⟨_, .inl rfl⟩), hcomma, hscan,
      List.append_assoc, List.singleton_append]

theorem scan_file {rows : List (List (List Char))} (h : File text rows) :
    scan .start [] [] text = some rows := by
  induction h with
  | @last text row hrow =>
    obtain ⟨field, before, rfl, hscan⟩ := @scan_row text [] [] row hrow (.inl rfl)
    rw [List.append_nil] at hscan
    rw [hscan]
    rfl
  | @ended text row hrow =>
    obtain ⟨field, before, rfl, hscan⟩ := @scan_row text _ [] row hrow (.inr ⟨[], rfl⟩)
    rw [hscan]
    rfl
  | @cons text row texts rows hrow _ hne ih =>
    obtain ⟨field, before, rfl, hscan⟩ := @scan_row text _ [] row hrow (.inr ⟨texts, rfl⟩)
    -- the line break ends the row, and another one follows
    have hline : scan .closed field before ('\n' :: texts) =
        (if texts = [] then some [] else scan .start [] [] texts).map
          fun rows => (before ++ [field]) :: rows := rfl
    rw [hscan, List.nil_append, hline, if_neg hne, ih]
    rfl

/-- **The parser is complete.** -/
theorem parse_of_file {text : String} {rows : List (List (List Char))} (h : File text.toList rows) :
    parse text = some (rows.map fun row => row.map String.ofList) := by
  rw [parse, scan_file h]
  rfl

end Scan

/-! ### Writing -/

/-- A value between quotes, its own quotes doubled. -/
def quote (value : List Char) : List Char :=
  '"' :: (value.flatMap (fun c => if c = '"' then ['"', '"'] else [c]) ++ ['"'])

/-- **Any value can be quoted.** -/
theorem field_quote (value : List Char) : Field (quote value) value := by
  refine .quoted ?_
  induction value with
  | nil => exact .nil
  | cons c value ih =>
    rw [List.flatMap_cons]
    by_cases hc : c = '"'
    · rw [if_pos hc, hc]
      exact .quote ih
    · rw [if_neg hc]
      exact .char hc ih

theorem row_intercalate {texts values : List (List Char)} (h : List.Forall₂ Field texts values)
    (hne : texts ≠ []) : Row ([','].intercalate texts) values := by
  induction h with
  | nil => exact absurd rfl hne
  | @cons text value texts values hfield hrest ih =>
    cases hrest with
    | nil =>
      rw [List.intercalate_singleton]
      exact .one hfield
    | cons hfield' hrest' =>
      rw [List.intercalate_cons_cons, List.append_assoc]
      exact .cons hfield (ih (by simp))

theorem file_intercalate {texts : List (List Char)} {rows : List (List (List Char))}
    (h : List.Forall₂ Row texts rows) (hne : texts ≠ []) (htexts : ∀ text ∈ texts, text ≠ []) :
    File (['\n'].intercalate texts) rows := by
  induction h with
  | nil => exact absurd rfl hne
  | @cons text row texts rows hrow hrest ih =>
    cases hrest with
    | nil =>
      rw [List.intercalate_singleton]
      exact .last hrow
    | @cons text' _ texts' _ hrow' hrest' =>
      have hnext := ih (by simp) fun t ht => htexts t (List.mem_cons_of_mem _ ht)
      rw [List.intercalate_cons_cons, List.append_assoc]
      refine .cons hrow hnext ?_
      -- the first of the other rows is not empty
      obtain ⟨c, cs, hcons⟩ := List.exists_cons_of_ne_nil (htexts text' (by simp))
      cases texts' with
      | nil => rw [List.intercalate_singleton, hcons]; simp
      | cons t ts => rw [List.intercalate_cons_cons, hcons]; simp

end Csv
