import Mathlib.Data.List.Forall2
import TriggerChain.Event.Tables
import TriggerChain.Proofs.Text.Fields

/-!
# Tables that can be read back

A table is a text with a header and one row for each record. A row is read under the header: each of
its fields stands under the name of a column. A layout says how records of a kind become the fields
of a row, and how they are read from a row again; the text of a layout tells the records apart.

Main statements: `Layout.isTable` and `Layout.text_inj`.
-/

namespace TriggerChain

/-! ## Rows under a header -/

/-- What stands in a row under the name of a column. -/
abbrev Cells := String → Option (List Char)

/-- The cells of a row, with the fields under the columns in their order. -/
def cellsOf (columns : List String) (fields : List (List Char)) : Cells :=
  fun name => (columns.zip fields).lookup name

variable {α : Type}

/-- A text is cut into a header and rows, from which some records are read. -/
structure CutInto (columns : List String) (read? : Cells → Option α) (records : List α)
    (text : String) (header : List Char) (rows : List (List Char)) : Prop where
  /-- Between the newlines stand the header and the rows, and nothing behind the last newline. -/
  lines : text.toList.splitOn '\n' = header :: rows ++ [[]]
  /-- Between the commas of the header stand the names of the columns. -/
  names : header.splitOn ',' = columns.map String.toList
  /-- There is a row for each record, in their order. It has as many fields as the header, and the
      record is read from what stands under the columns. -/
  body : List.Forall₂
    (fun record row => (row.splitOn ',').length = (header.splitOn ',').length ∧
      read? (cellsOf columns (row.splitOn ',')) = some record) records rows

/-- A text is a table of some records. -/
def IsTable (columns : List String) (read? : Cells → Option α) (records : List α)
    (text : String) : Prop :=
  ∃ header rows, CutInto columns read? records text header rows

/-- A table is one of no other records. -/
theorem IsTable.unique {columns : List String} {read? : Cells → Option α} {text : String}
    {records records' : List α} (h : IsTable columns read? records text)
    (h' : IsTable columns read? records' text) : records = records' := by
  obtain ⟨header, rows, h⟩ := h
  obtain ⟨header', rows', h'⟩ := h'
  -- Both cut the same text, so they have the same rows, and a row is read in one way only.
  have hlines := List.append_cancel_right (h.lines.symm.trans h'.lines)
  obtain ⟨-, rfl⟩ := List.cons.inj hlines
  refine List.left_unique_forall₂' ?_ (h.body.imp fun _ _ hrow => hrow.2)
    (h'.body.imp fun _ _ hrow => hrow.2)
  intro record row record' hread hread'
  exact Option.some.inj (hread.symm.trans hread')

/-! ## Layouts -/

/-- How records of a kind stand in the rows of a table. -/
structure Layout (α : Type) where
  /-- The names of the columns. -/
  columns : List String
  /-- The fields of the row of a record. -/
  fields : α → List String
  /-- The record that is read from a row. -/
  read? : Cells → Option α
  /-- There are columns, and their names can be fields. -/
  columns_ne_nil : columns ≠ []
  isField_columns : ∀ name ∈ columns, Text.IsField name
  /-- What is written of a record can be a row under the columns. -/
  isField_fields : ∀ record, ∀ f ∈ fields record, Text.IsField f
  length_fields : ∀ record, (fields record).length = columns.length
  /-- A record is read from its own row. -/
  read?_fields : ∀ record, read? (cellsOf columns ((fields record).map String.toList)) = some record

namespace Layout

/-- The text of a table of some records. -/
def text (l : Layout α) (records : List α) : String :=
  row l.columns ++ String.join (records.map fun record => row (l.fields record))

/-- What stands on the line of a row. -/
def line (fields : List String) : List Char := [','].intercalate (fields.map String.toList)

theorem toList_row (fields : List String) : (row fields).toList = line fields ++ ['\n'] := by
  rw [row, String.toList_append, String.toList_intercalate]
  rfl

theorem newline_notMem_line {fields : List String} (h : ∀ f ∈ fields, Text.IsField f) :
    '\n' ∉ line fields := by
  intro hmem
  rcases Text.eq_or_mem_of_mem_intercalate hmem with hcomma | ⟨w, hw, hnewline⟩
  · exact absurd hcomma (by decide)
  · obtain ⟨f, hf, rfl⟩ := List.mem_map.1 hw
    exact (h f hf).newline hnewline

/-- A row is cut into its fields. -/
theorem splitOn_line {fields : List String} (h : ∀ f ∈ fields, Text.IsField f)
    (hne : fields ≠ []) : (line fields).splitOn ',' = fields.map String.toList := by
  refine List.splitOn_intercalate ',' ?_ (mt List.map_eq_nil_iff.1 hne)
  intro w hw
  obtain ⟨f, hf, rfl⟩ := List.mem_map.1 hw
  exact (h f hf).comma

variable (l : Layout α)

theorem fields_ne_nil (record : α) : l.fields record ≠ [] := by
  intro hnil
  have hlength := l.length_fields record
  rw [hnil] at hlength
  exact l.columns_ne_nil (List.length_eq_zero_iff.1 hlength.symm)

theorem toList_text (records : List α) :
    (l.text records).toList =
      (line l.columns :: records.map fun record => line (l.fields record)).flatMap
        fun line => line ++ ['\n'] := by
  rw [text, String.toList_append, String.toList_join, toList_row, List.flatMap_cons,
    List.flatMap_map, List.flatMap_map]
  simp only [toList_row]

/-- The text of a layout is a table of the records. -/
theorem isTable (records : List α) : IsTable l.columns l.read? records (l.text records) := by
  refine ⟨line l.columns, records.map fun record => line (l.fields record), ?_, ?_, ?_⟩
  · -- No newline stands in a line.
    rw [toList_text]
    refine Text.splitOn_flatMap_newline (List.forall_mem_cons.2 ⟨?_, ?_⟩)
    · exact newline_notMem_line l.isField_columns
    · intro cs hcs
      obtain ⟨record, -, rfl⟩ := List.mem_map.1 hcs
      exact newline_notMem_line (l.isField_fields record)
  · exact splitOn_line l.isField_columns l.columns_ne_nil
  · -- Each record has a row of its own, which is cut into the fields it was made of.
    rw [List.forall₂_map_right_iff, List.forall₂_same]
    intro record _
    rw [splitOn_line (l.isField_fields record) (l.fields_ne_nil record),
      splitOn_line l.isField_columns l.columns_ne_nil, List.length_map, List.length_map]
    exact ⟨l.length_fields record, l.read?_fields record⟩

/-- Tables of one layout have the same text only if they are tables of the same records. -/
theorem text_inj {records records' : List α} :
    l.text records = l.text records' ↔ records = records' := by
  constructor
  · intro h
    have htable := l.isTable records
    rw [h] at htable
    exact htable.unique (l.isTable records')
  · exact congrArg l.text

end Layout

end TriggerChain
