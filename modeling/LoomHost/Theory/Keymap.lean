import LoomHost.Core.Keymap
import LoomHost.Lib.OrdMap
import LoomHost.Theory.Displays

/-!
# The Grammar of a Keymap

Which texts are parsed, and to which table, said without reading on from left to
right: every line is blank, a comment, or an entry, whose first two columns hold a
numeral each, with white space around it. The table maps a code to what the last entry
for it says. Otherwise the error names the first line that is none of these, and what
is wrong with it.

A table that is printed is parsed back.

## Main definitions

* `Field`, `Row`: The grammar of a column and of a line.
* `Rows`: The lines of a text, row by row.
* `lastEntry`: What the last entry for a code says.
* `complaint`: What is said of a line that is no row.
* `render`: A table as a text.

## Theorems

* `parseI64_eq_some_iff`: What is parsed as a code.
* `readRow_ok_iff`, `readRow_error_iff`: What is made of a line.
* `fromLines_eq`: Reading the rows, then putting them into the table.
* `fromCsv_exact`: The texts that are parsed, and the others.
* `fromCsv_render`: A printed table.
-/

namespace LoomHost

namespace Keymap

open Streams

section Numbers

theorem map_read_eq_some_iff {bound : ℕ} (hbound : 0 < bound) {digits : List Char}
    {f : ℕ → Int64} {k : Int64} :
    (Decimal.read bound 0 digits).map f = some k ↔
      (∀ c ∈ digits, c.isDigit = true) ∧ Nat.ofDigitChars 10 digits 0 < bound ∧
        f (Nat.ofDigitChars 10 digits 0) = k := by
  rw [Option.map_eq_some_iff]
  constructor
  · intro h
    rcases h with ⟨v, hread, hf⟩
    rcases (Decimal.read_eq_some_iff digits hbound).mp hread with ⟨hdigits, rfl, hv⟩
    exact ⟨hdigits, hv, hf⟩
  · intro h
    rcases h with ⟨hdigits, hv, hf⟩
    exact ⟨_, (Decimal.read_eq_some_iff digits hbound).mpr ⟨hdigits, rfl, hv⟩, hf⟩

theorem parse_plain {c : Char} {tok : List Char} (hplus : c ≠ '+') (hminus : c ≠ '-') :
    parseI64 (c :: tok) = (Decimal.read (2 ^ 63) 0 (c :: tok)).map fun n : ℕ => Int64.ofInt n := by
  unfold parseI64
  split
  · rename_i h
    cases h
  · rename_i h
    cases h
    exact absurd rfl hplus
  · rename_i h
    cases h
    exact absurd rfl hminus
  · rename_i h
    cases h
    exact absurd rfl hplus
  · rename_i h
    cases h
    exact absurd rfl hminus
  · rfl

theorem parse_plus {tok : List Char} (hne : tok ≠ []) :
    parseI64 ('+' :: tok) = (Decimal.read (2 ^ 63) 0 tok).map fun n : ℕ => Int64.ofInt n := by
  cases tok with
  | nil => exact absurd rfl hne
  | cons c tok => rfl

theorem parse_minus {tok : List Char} (hne : tok ≠ []) :
    parseI64 ('-' :: tok) =
      (Decimal.read (2 ^ 63 + 1) 0 tok).map fun n : ℕ => Int64.ofInt (-n) := by
  cases tok with
  | nil => exact absurd rfl hne
  | cons c tok => rfl

/-- What is parsed as a code is a numeral that fits. -/
theorem parseI64_eq_some_iff {tok : List Char} {k : Int64} :
    parseI64 tok = some k ↔ Decimal.Numeral tok k.toInt := by
  have hlow := k.le_toInt
  have hhigh := k.toInt_lt
  constructor
  · intro h
    cases tok with
    | nil => cases h
    | cons c tok =>
      -- The sign decides the form; a sign alone is no numeral.
      by_cases hplus : c = '+'
      · subst hplus
        by_cases hne : tok = []
        · rw [hne] at h
          cases h
        · rw [parse_plus hne, map_read_eq_some_iff (Nat.two_pow_pos 63)] at h
          rcases h with ⟨hdigits, hbound, rfl⟩
          rw [Int64.toInt_ofInt_of_le (by omega) (by omega)]
          exact .plus hne hdigits
      · by_cases hminus : c = '-'
        · subst hminus
          by_cases hne : tok = []
          · rw [hne] at h
            cases h
          · rw [parse_minus hne, map_read_eq_some_iff (Nat.succ_pos _)] at h
            rcases h with ⟨hdigits, hbound, rfl⟩
            rw [Int64.toInt_ofInt_of_le (by omega) (by omega)]
            exact .minus hne hdigits
        · rw [parse_plain hplus hminus, map_read_eq_some_iff (Nat.two_pow_pos 63)] at h
          rcases h with ⟨hdigits, hbound, rfl⟩
          rw [Int64.toInt_ofInt_of_le (by omega) (by omega)]
          exact .plain (List.cons_ne_nil _ _) hdigits
  · intro h
    -- The value is in range, so the cast to `i64` gives it back.
    generalize hn : k.toInt = n at h
    have hk : k = Int64.ofInt n := by
      rw [← hn, Int64.ofInt_toInt]
    cases h with
    | plain hne hdigits =>
      cases tok with
      | nil => exact absurd rfl hne
      | cons c tok =>
        -- A digit is no sign, so the number is read from its first character.
        have hplus : c ≠ '+' := fun heq => (sign_not_mem hdigits).1 (heq ▸ List.mem_cons_self)
        have hminus : c ≠ '-' := fun heq => (sign_not_mem hdigits).2 (heq ▸ List.mem_cons_self)
        rw [parse_plain hplus hminus, map_read_eq_some_iff (Nat.two_pow_pos 63)]
        exact ⟨hdigits, by omega, hk.symm⟩
    | plus hne hdigits =>
      rw [parse_plus hne, map_read_eq_some_iff (Nat.two_pow_pos 63)]
      exact ⟨hdigits, by omega, hk.symm⟩
    | minus hne hdigits =>
      rw [parse_minus hne, map_read_eq_some_iff (Nat.succ_pos _)]
      exact ⟨hdigits, by omega, hk.symm⟩

end Numbers

section Lines

/-- A column: a numeral that fits, with white space around it. -/
def Field (column : List Char) (k : Int64) : Prop := Padded column k.toInt

/-- A line: blank, a comment, or an entry, after which there may be more columns. -/
inductive Row : List Char → Option (Int64 × Int64) → Prop
  | blank {line : List Char} (h : ∀ c ∈ line, isWhitespace c = true) : Row line none
  | comment {before rest : List Char} (h : ∀ c ∈ before, isWhitespace c = true) :
      Row (before ++ '#' :: rest) none
  | entry {a b rest : List Char} {source target : Int64} (ha : ',' ∉ a) (hb : ',' ∉ b)
      (hrest : rest = [] ∨ ∃ more, rest = ',' :: more) (hsource : Field a source)
      (htarget : Field b target) : Row (a ++ ',' :: (b ++ rest)) (some (source, target))

/-- The columns of a line, without the white space around them. -/
def columns (line : List Char) : List (List Char) := (line.splitOn ',').map trim

/-- What is said of line number `n` when it is no row. -/
def complaint (printable : Char → Bool) (n : ℕ) (line : List Char) : String :=
  match columns line with
  | a :: b :: _ =>
    if (parseI64 a).isNone then "line " ++ toString n ++ ": bad 'from' value " ++ debug printable a
    else "line " ++ toString n ++ ": bad 'to' value " ++ debug printable b
  | _ => "line " ++ toString n ++ ": expected 'from,to'"

theorem field_iff {column : List Char} {k : Int64} :
    parseI64 (trim column) = some k ↔ Field column k := by
  rw [parseI64_eq_some_iff, numeral_trim_iff, Field]

theorem comma_not_whitespace : isWhitespace ',' = false := by decide

/-- Trimming the line makes no difference to the columns. -/
theorem columns_trim (line : List Char) : columns (trim line) = columns line :=
  Fields.map_strip_splitOn comma_not_whitespace line

/-- The columns of a line with a comma, and of one without. -/
theorem columns_of_not_mem {line : List Char} (h : ',' ∉ line) : columns line = [trim line] := by
  rw [columns, List.splitOn_eq_singleton h, List.map_singleton]

theorem columns_entry {a b rest : List Char} (ha : ',' ∉ a) (hb : ',' ∉ b)
    (hrest : rest = [] ∨ ∃ more, rest = ',' :: more) :
    ∃ others, columns (a ++ ',' :: (b ++ rest)) = trim a :: trim b :: others := by
  rw [columns, List.splitOn_append_cons_self_of_not_mem ha, List.map_cons]
  rcases hrest with rfl | ⟨more, rfl⟩
  · rw [List.append_nil, List.splitOn_eq_singleton hb]
    exact ⟨[], rfl⟩
  · rw [List.splitOn_append_cons_self_of_not_mem hb]
    exact ⟨_, rfl⟩

/-- A line with a comma has two columns at least. -/
theorem exists_columns {line : List Char} (h : ',' ∈ line) : ∃ a b rest,
    line = a ++ ',' :: (b ++ rest) ∧ ',' ∉ a ∧ ',' ∉ b ∧
      (rest = [] ∨ ∃ more, rest = ',' :: more) := by
  rcases List.eq_append_cons_of_mem h with ⟨a, tail, rfl, ha⟩
  by_cases htail : ',' ∈ tail
  · rcases List.eq_append_cons_of_mem htail with ⟨b, more, rfl, hb⟩
    exact ⟨a, b, ',' :: more, rfl, ha, hb, Or.inr ⟨more, rfl⟩⟩
  · exact ⟨a, tail, [], by rw [List.append_nil], ha, htail, Or.inl rfl⟩

/-- Whether a line is skipped. -/
def skipped (line : List Char) : Bool :=
  (trim line).isEmpty || (trim line).head? = some '#'

/-- A line is skipped if it is blank or a comment. -/
theorem skipped_iff {line : List Char} : skipped line = true ↔ Row line none := by
  have hhash : isWhitespace '#' = false := by decide
  unfold skipped
  rw [Bool.or_eq_true, List.isEmpty_iff, decide_eq_true_eq]
  constructor
  · intro h
    rcases h with hblank | hcomment
    · exact .blank (Fields.strip_eq_nil_iff.mp hblank)
    · -- The comment may be padded in front.
      rcases trim_padding line with ⟨before, after, hb, -, hline⟩
      cases htrim : trim line with
      | nil => rw [htrim] at hcomment; cases hcomment
      | cons c rest =>
        rw [htrim, List.head?_cons, Option.some.injEq] at hcomment
        rw [hline, htrim, hcomment, List.append_assoc]
        exact .comment hb
  · intro h
    generalize hnone : (none : Option (Int64 × Int64)) = r at h
    cases h with
    | blank h => exact Or.inl (Fields.strip_eq_nil_iff.mpr h)
    | comment h =>
      refine Or.inr ?_
      -- The padding is stripped off, and `#` stays in front.
      change (Fields.strip isWhitespace _).head? = _
      rw [Fields.strip_append_cons hhash, List.dropWhile_eq_nil_iff.mpr h]
      rfl
    | entry => cases hnone

/-- A line that starts with a numeral is not skipped. -/
theorem skipped_entry {a tail : List Char} {source : Int64} (h : Field a source) :
    skipped (a ++ ',' :: tail) = false := by
  rcases h with ⟨before, tok, after, hb, -, rfl, h⟩
  cases tok with
  | nil => exact absurd rfl h.chars.1
  | cons c tok =>
    have hc : isWhitespace c = false := numeral_not_whitespace h c List.mem_cons_self
    have htrim : trim (before ++ c :: tok ++ after ++ ',' :: tail) =
        c :: tok ++ after ++ ',' :: tail.rdropWhile isWhitespace := by
      change Fields.strip isWhitespace _ = _
      rw [Fields.strip_append_cons comma_not_whitespace, List.append_assoc before,
        List.dropWhile_append_of_pos hb, List.cons_append,
        List.dropWhile_cons_of_neg (ne_true_of_eq_false hc)]
    -- The first character of a numeral is a digit or a sign.
    have hne : c ≠ '#' := by
      intro heq
      rcases h.chars.2 c List.mem_cons_self with hdigit | hplus | hminus
      · rw [heq] at hdigit
        exact absurd hdigit (by decide)
      · exact absurd (heq.symm.trans hplus) (by decide)
      · exact absurd (heq.symm.trans hminus) (by decide)
    rw [skipped, htrim]
    simp only [List.cons_append, ↓Char.isValue, List.append_assoc, List.isEmpty_cons,
      List.head?_cons, Option.some.injEq, hne, decide_false, Bool.or_self]

variable (printable : Char → Bool)

/-- What the loop makes of line number `n`. -/
def readRow (n : ℕ) (line : List Char) : Except String (Option (Int64 × Int64)) :=
  if skipped line then .ok none
  else
    match columns line with
    | a :: b :: _ =>
      match parseI64 a, parseI64 b with
      | some source, some target => .ok (some (source, target))
      | _, _ => .error (complaint printable n line)
    | _ => .error (complaint printable n line)

/-- A line is read as a row if it is one. -/
theorem readRow_ok_iff {n : ℕ} {line : List Char} {r : Option (Int64 × Int64)} :
    readRow printable n line = .ok r ↔ Row line r := by
  unfold readRow
  constructor
  · intro h
    by_cases hskipped : skipped line = true
    · rw [if_pos hskipped] at h
      cases h
      exact skipped_iff.mp hskipped
    · rw [if_neg hskipped] at h
      by_cases hcomma : ',' ∈ line
      · -- With a comma in it, the line has two columns at least.
        rcases exists_columns hcomma with ⟨a, b, rest, rfl, ha, hb, hrest⟩
        rcases columns_entry ha hb hrest with ⟨others, hcolumns⟩
        rw [hcolumns] at h
        cases hsource : parseI64 (trim a) with
        | none => simp only [hsource, ↓Char.isValue, reduceCtorEq] at h
        | some source =>
          cases htarget : parseI64 (trim b) with
          | none => simp only [hsource, htarget, ↓Char.isValue, reduceCtorEq] at h
          | some target =>
            simp only [hsource, htarget] at h
            cases h
            exact .entry ha hb hrest (field_iff.mp hsource) (field_iff.mp htarget)
      · -- Without one, it is no entry.
        rw [columns_of_not_mem hcomma] at h
        cases h
  · intro h
    cases r with
    | none => rw [if_pos (skipped_iff.mpr h)]
    | some e =>
      generalize hsome : some e = r at h
      cases h with
      | blank => cases hsome
      | comment => cases hsome
      | entry ha hb hrest hsource htarget =>
        cases hsome
        -- An entry starts with a numeral, so it is not skipped.
        rcases columns_entry ha hb hrest with ⟨others, hcolumns⟩
        rw [if_neg (by simp only [↓Char.isValue, skipped_entry hsource, Bool.false_eq_true,
          not_false_eq_true]), hcolumns]
        simp only [field_iff.mpr hsource, field_iff.mpr htarget]

/-- What is said of a line that is no row. -/
theorem readRow_error_iff {n : ℕ} {line : List Char} {e : String} :
    readRow printable n line = .error e ↔
      (∀ row, ¬ Row line row) ∧ e = complaint printable n line := by
  constructor
  · intro h
    refine ⟨fun row hrow => ?_, ?_⟩
    · rw [(readRow_ok_iff printable).mpr hrow] at h
      cases h
    · -- Every error is the complaint about this line.
      unfold readRow at h
      split at h
      · cases h
      · split at h
        · split at h
          · cases h
          · exact (Except.error.inj h).symm
        · exact (Except.error.inj h).symm
  · intro h
    rcases h with ⟨hnone, rfl⟩
    unfold readRow
    split
    · rename_i hskipped
      exact absurd (skipped_iff.mp hskipped) (hnone none)
    · rename_i hskipped
      split
      · split
        · rename_i hcolumns _ _ source target hsource htarget
          -- Two columns that are read make an entry, and the line is none.
          refine absurd ((readRow_ok_iff printable (n := n)).mp ?_) (hnone (some (source, target)))
          rw [readRow, if_neg hskipped, hcolumns]
          simp only [hsource, htarget]
        · rfl
      · rfl

/-- One line after the other. -/
theorem fromLines_cons (map : Std.ExtTreeMap Int64 Int64) (idx : ℕ) (line : List Char)
    (rest : List (List Char)) :
    (∃ e, readRow printable (idx + 1) line = .error e ∧
        fromLines printable map idx (line :: rest) = .error e) ∨
      (readRow printable (idx + 1) line = .ok none ∧
        fromLines printable map idx (line :: rest) = fromLines printable map (idx + 1) rest) ∨
      ∃ source target, readRow printable (idx + 1) line = .ok (some (source, target)) ∧
        fromLines printable map idx (line :: rest) =
          fromLines printable (map.insert source target) (idx + 1) rest := by
  -- The loop splits the trimmed line, which makes no difference.
  have hcolumns : columns line = ((trim line).splitOn ',').map trim := (columns_trim line).symm
  rw [fromLines]
  dsimp only
  by_cases hskipped : skipped line = true
  · refine Or.inr (Or.inl ⟨?_, if_pos hskipped⟩)
    rw [readRow, if_pos hskipped]
  · have hgoes : ((trim line).isEmpty || decide ((trim line).head? = some '#')) = false := by
      simpa only [↓Char.isValue, skipped, Bool.or_eq_false_iff, List.isEmpty_eq_false_iff,
        Bool.or_eq_true, List.isEmpty_iff, ne_eq, decide_eq_false_iff_not, decide_eq_true_eq,
          not_or] using hskipped
    rw [readRow, if_neg hskipped, hgoes]
    unfold complaint
    rw [hcolumns]
    rcases (trim line).splitOn ',' with - | ⟨a, - | ⟨b, others⟩⟩
    · -- With fewer than two columns the line is complained about.
      exact Or.inl ⟨_, rfl, rfl⟩
    · exact Or.inl ⟨_, rfl, rfl⟩
    · simp only [List.map_cons, Bool.false_eq_true, if_false]
      cases hsource : parseI64 (trim a) with
      | none => exact Or.inl ⟨_, rfl, rfl⟩
      | some source =>
        cases htarget : parseI64 (trim b) with
        | none => exact Or.inl ⟨_, rfl, rfl⟩
        | some target => exact Or.inr (Or.inr ⟨source, target, rfl, rfl⟩)

end Lines

section Texts

variable {printable : Char → Bool}

/-- The lines of a text, row by row. -/
def Rows (lines : List (List Char)) (rows : List (Option (Int64 × Int64))) : Prop :=
  List.Forall₂ Row lines rows

/-- What a row says of a code. -/
def entryFor (code : Int64) (row : Option (Int64 × Int64)) : Option Int64 :=
  row.bind fun e => if e.1 = code then some e.2 else none

/-- What the last entry for a code says. -/
def lastEntry (rows : List (Option (Int64 × Int64))) (code : Int64) : Option Int64 :=
  rows.reverse.findSome? (entryFor code)

/-- A row is put into a table. -/
def put (map : Std.ExtTreeMap Int64 Int64) : Option (Int64 × Int64) → Std.ExtTreeMap Int64 Int64
  | some e => map.insert e.1 e.2
  | none => map

theorem getElem?_put (map : Std.ExtTreeMap Int64 Int64) (row : Option (Int64 × Int64))
    (code : Int64) : (put map row)[code]? = (entryFor code row).or map[code]? := by
  cases row with
  | none => rfl
  | some e =>
    change (map.insert e.1 e.2)[code]? = ((if e.1 = code then some e.2 else none).or map[code]?)
    rw [OrdMap.lookup_insert]
    by_cases heq : code = e.1
    · rw [if_pos heq, if_pos heq.symm, Option.some_or]
    · rw [if_neg heq, if_neg (Ne.symm heq), Option.none_or]

/-- A table after some rows: for each code the last entry, and what was there before
    if there is none. -/
theorem getElem?_foldl_put (rows : List (Option (Int64 × Int64))) (code : Int64) :
    ∀ map : Std.ExtTreeMap Int64 Int64,
      (rows.foldl put map)[code]? = (lastEntry rows code).or map[code]? := by
  induction rows with
  | nil => exact fun map => rfl
  | cons row rows ih =>
    intro map
    rw [List.foldl_cons, ih, getElem?_put, lastEntry, lastEntry, List.reverse_cons,
      List.findSome?_append, Option.or_assoc]
    simp only [List.findSome?_singleton]

/-- The lines are read as rows, and the rows put into the table. -/
theorem fromLines_eq (lines : List (List Char)) : ∀ (map : Std.ExtTreeMap Int64 Int64) (idx : ℕ),
    fromLines printable map idx lines =
      (Traverse.traverse (readRow printable) (idx + 1) lines).map fun rows =>
        rows.foldl put map := by
  induction lines with
  | nil => exact fun map idx => rfl
  | cons line rest ih =>
    intro map idx
    have hstep : ∀ row, readRow printable (idx + 1) line = .ok row →
        fromLines printable map idx (line :: rest) =
          fromLines printable (put map row) (idx + 1) rest →
        fromLines printable map idx (line :: rest) =
          (Traverse.traverse (readRow printable) (idx + 1) (line :: rest)).map
            fun rows => rows.foldl put map := by
      intro row hrow hgoes
      rw [hgoes, ih, Traverse.traverse, hrow]
      dsimp only
      cases Traverse.traverse (readRow printable) (idx + 1 + 1) rest <;> rfl
    -- A row that is refused ends both, and the other two kinds go on.
    rcases fromLines_cons printable map idx line rest with
      ⟨e, hrow, hgoes⟩ | ⟨hrow, hgoes⟩ | ⟨source, target, hrow, hgoes⟩
    · rw [hgoes, Traverse.traverse, hrow]
      rfl
    · exact hstep none hrow hgoes
    · exact hstep (some (source, target)) hrow hgoes

theorem reads (printable : Char → Bool) (n : ℕ) (line : List Char)
    (row : Option (Int64 × Int64)) : readRow printable n line = .ok row ↔ Row line row :=
  readRow_ok_iff printable

theorem fromCsv_eq (text : List Char) : fromCsv printable text =
    (Traverse.traverse (readRow printable) 1 (lines text)).map
      fun rows => { map := rows.foldl put ∅ } := by
  rw [fromCsv, fromLines_eq]
  cases Traverse.traverse (readRow printable) 1 (lines text) <;> rfl

/-- The tables of texts whose lines are rows. -/
theorem fromCsv_ok {text : List Char} {rows : List (Option (Int64 × Int64))}
    (h : Rows (lines text) rows) : ∃ km, fromCsv printable text = .ok km ∧
      ∀ code, km.get code = lastEntry rows code := by
  have hrows := (Traverse.traverse_ok_iff (reads printable) _ (n := 1)).mpr h
  refine ⟨{ map := rows.foldl put ∅ }, ?_, fun code => ?_⟩
  · rw [fromCsv_eq, hrows]
    rfl
  · rw [get, getElem?_foldl_put]
    simp only [Std.ExtTreeMap.not_mem_empty, not_false_eq_true, getElem?_neg, Option.or_none]

/-- A text is parsed if every line is blank, a comment or an entry, into the table of the
    last entry for each code. Otherwise the first line that is none of these is named,
    with what is wrong with it. -/
theorem fromCsv_exact (text : List Char) :
    (∀ km, fromCsv printable text = .ok km ↔
      ∃ rows, Rows (lines text) rows ∧ ∀ code, km.get code = lastEntry rows code) ∧
    ∀ e, fromCsv printable text = .error e ↔
      ∃ before line after rows, lines text = before ++ line :: after ∧ Rows before rows ∧
        (∀ row, ¬ Row line row) ∧ e = complaint printable (before.length + 1) line := by
  refine ⟨fun km => ⟨fun h => ?_, fun h => ?_⟩, fun e => ?_⟩
  · rw [fromCsv_eq] at h
    cases hlines : Traverse.traverse (readRow printable) 1 (lines text) with
    | error e =>
      rw [hlines] at h
      cases h
    | ok rows =>
      -- The rows read are the rows there are, and the keymap holds their last entries.
      have hrows := (Traverse.traverse_ok_iff (reads printable) _).mp hlines
      rcases @fromCsv_ok printable _ _ hrows with ⟨km', hkm', hget⟩
      rw [← fromCsv_eq] at h
      cases h.symm.trans hkm'
      exact ⟨rows, hrows, hget⟩
  · rcases h with ⟨rows, hrows, hget⟩
    rcases @fromCsv_ok printable _ _ hrows with ⟨km', hkm', hget'⟩
    -- A keymap is determined by what it holds for each code.
    have hmap : km'.map = km.map := by
      refine Std.ExtTreeMap.ext_getElem? fun code => ?_
      exact (hget' code).trans (hget code).symm
    rw [hkm']
    cases km'
    cases km
    cases hmap
    rfl
  · have herror : fromCsv printable text = .error e ↔
        Traverse.traverse (readRow printable) 1 (lines text) = .error e := by
      rw [fromCsv_eq]
      cases Traverse.traverse (readRow printable) 1 (lines text) with
      | error e' => simp only [Except.map, Except.error.injEq]
      | ok rows => simp only [Except.map, reduceCtorEq]
    -- The first line that is not read is the one complained about.
    rw [herror, Traverse.traverse_error_iff (reads printable)]
    simp only [readRow_error_iff, Nat.add_comm 1]
    rfl

end Texts

section Printing

variable {printable : Char → Bool}

/-- The ends a line may have. -/
def eol (crlf : Bool) : List Char := if crlf then ['\r', '\n'] else ['\n']

/-- An entry as a line. -/
def renderEntry (e : Int64 × Int64) : List Char :=
  Decimal.print e.1.toInt ++ ',' :: Decimal.print e.2.toInt

/-- A table as a text, every line with an end of its own. -/
def render (entries : List (Bool × Int64 × Int64)) : List Char :=
  entries.flatMap fun x => renderEntry x.2 ++ eol x.1

/-- A numeral has no separator and no end of a line. -/
theorem mem_print {c : Char} {n : ℤ} (h : c ∈ Decimal.print n) : c ≠ ',' ∧ c ≠ '\n' ∧ c ≠ '\r' := by
  rcases (Decimal.numeral_print n).chars.2 c h with hdigit | rfl | rfl
  · refine ⟨?_, ?_, ?_⟩ <;>
    · intro heq
      rw [heq] at hdigit
      exact absurd hdigit (by decide)
  · decide
  · decide

theorem field_print (k : Int64) : Field (Decimal.print k.toInt) k :=
  ⟨[], _, [], List.forall_mem_nil _, List.forall_mem_nil _,
    by rw [List.nil_append, List.append_nil], Decimal.numeral_print _⟩

/-- An entry that is printed is a row. -/
theorem row_renderEntry (e : Int64 × Int64) : Row (renderEntry e) (some e) := by
  have h : Row (Decimal.print e.1.toInt ++ ',' :: (Decimal.print e.2.toInt ++ []))
      (some (e.1, e.2)) :=
    .entry (fun h => (mem_print h).1 rfl) (fun h => (mem_print h).1 rfl) (Or.inl rfl)
      (field_print _) (field_print _)
  rwa [List.append_nil] at h

theorem mem_renderEntry {c : Char} {e : Int64 × Int64} (h : c ∈ renderEntry e) :
    c ≠ '\n' ∧ c ≠ '\r' := by
  rcases List.mem_append.mp h with h | h
  · exact (mem_print h).2
  · rcases List.mem_cons.mp h with rfl | h
    · decide
    · exact (mem_print h).2

theorem stripCr_renderEntry (e : Int64 × Int64) : stripCr (renderEntry e) = renderEntry e := by
  unfold stripCr
  refine if_neg fun h => ?_
  exact (mem_renderEntry (List.mem_of_getLast? h)).2 rfl

/-- The lines of a printed table are its entries. -/
theorem lines_render (entries : List (Bool × Int64 × Int64)) :
    lines (render entries) = entries.map fun x => renderEntry x.2 := by
  unfold lines
  induction entries with
  | nil => rfl
  | cons x entries ih =>
    have hfirst : '\n' ∉ renderEntry x.2 := fun h => (mem_renderEntry h).1 rfl
    have hends : ∀ line rest, rest ≠ [] →
        lineEnds (line :: rest) = stripCr line :: lineEnds rest := by
      intro line rest hrest
      cases rest with
      | nil => exact absurd rfl hrest
      | cons => rfl
    have hrest : (render entries).splitOn '\n' ≠ [] := List.splitOn_ne_nil _ _
    have hrender : render (x :: entries) = renderEntry x.2 ++ eol x.1 ++ render entries := rfl
    rw [hrender, List.map_cons, ← ih, eol]
    by_cases hcrlf : x.1 = true
    · -- The carriage return is stripped with the line feed.
      have hfirst' : '\n' ∉ renderEntry x.2 ++ ['\r'] := by
        simp only [↓Char.isValue, List.mem_append, hfirst, List.mem_cons, Char.reduceEq,
          List.not_mem_nil, or_self, not_false_eq_true]
      have hline : renderEntry x.2 ++ ['\r', '\n'] ++ render entries =
          (renderEntry x.2 ++ ['\r']) ++ '\n' :: render entries := by
            simp only [↓Char.isValue, List.append_assoc, List.cons_append, List.nil_append]
      rw [if_pos hcrlf, hline, List.splitOn_append_cons_self_of_not_mem hfirst', hends _ _ hrest,
        stripCr, if_pos (by simp only [↓Char.isValue, List.getLast?_append, List.getLast?_singleton,
          Option.some_or]), List.dropLast_concat]
    · have hline : renderEntry x.2 ++ ['\n'] ++ render entries =
          renderEntry x.2 ++ '\n' :: render entries := by
            simp only [↓Char.isValue, List.append_assoc, List.cons_append, List.nil_append]
      rw [if_neg hcrlf, hline, List.splitOn_append_cons_self_of_not_mem hfirst, hends _ _ hrest,
        stripCr_renderEntry]

/-- A table that is printed is parsed back: for each code the last entry for it. -/
theorem fromCsv_render (entries : List (Bool × Int64 × Int64)) :
    ∃ km, fromCsv printable (render entries) = .ok km ∧
      ∀ code, km.get code = lastEntry (entries.map fun x => some x.2) code := by
  refine fromCsv_ok ?_
  rw [lines_render, Rows, List.forall₂_map_left_iff, List.forall₂_map_right_iff, List.forall₂_same]
  exact fun x _ => row_renderEntry x.2

end Printing

end Keymap

end LoomHost
