import TriggerChain.File.Primitives
import TriggerChain.Proofs.Text.Lines
import TriggerChain.Proofs.Text.Utf8

/-!
# Primitives that are written and read

A primitive is written as eight numerals with a space between them, and a newline. No numeral holds a
blank or begins like a comment, so the reader finds the lines and the words where the writer put
them; and each numeral reads back as the value it was written for.

Main statement: `written_primitives_read_back`.
-/

namespace TriggerChain

/-! ## Numerals as words -/

/-- No digit is a blank or begins a comment. -/
theorem digitChar_visible {d : Nat} (h : d < 10) :
    Text.isBlank (Text.digitChar d) = false ∧ Text.digitChar d ≠ '#' := by
  have key : ∀ d : Fin 10,
      Text.isBlank (Text.digitChar d) = false ∧ Text.digitChar d ≠ '#' := by decide
  exact key ⟨d, h⟩

/-- No character of an integer is a blank or begins a comment. -/
theorem visible_of_mem_integer {i : Int} {c : Char} (h : c ∈ Text.integer i) :
    Text.isBlank c = false ∧ c ≠ '#' := by
  have hdigits : ∀ n : Nat, c ∈ Text.natural n → Text.isBlank c = false ∧ c ≠ '#' := by
    intro n hn
    obtain ⟨d, hd, rfl⟩ := Text.mem_natural hn
    exact digitChar_visible hd
  unfold Text.integer at h
  split at h
  · rcases List.mem_cons.1 h with rfl | h
    · decide
    · exact hdigits _ h
  · exact hdigits _ h

theorem isWord_integer (i : Int) : Text.IsWord (Text.integer i) := by
  refine ⟨?_, fun c hc => (visible_of_mem_integer hc).1⟩
  unfold Text.integer
  split
  · exact List.cons_ne_nil _ _
  · exact Text.natural_ne_nil _

theorem isWord_natural (n : Nat) : Text.IsWord (Text.natural n) := by
  have hinteger : Text.integer n = Text.natural n := if_neg (by omega)
  exact hinteger ▸ isWord_integer n

/-! ## One line -/

namespace Primitive

/-- The numerals of a primitive, one for each column. -/
def numerals (p : Primitive) : List (List Char) :=
  [Text.integer p.timeStart.toInt, Text.integer p.timeOverThreshold.toInt,
    Text.integer p.timePeak.toInt, Text.natural p.channel.toNat,
    Text.natural p.adcIntegral.toNat, Text.natural p.adcPeak.toNat,
    Text.natural p.detid.toNat, Text.natural p.kind.toNat]

/-- What stands on the line of a primitive. -/
def body (p : Primitive) : List Char := [' '].intercalate p.numerals

theorem isWord_of_mem_numerals {p : Primitive} : ∀ w ∈ p.numerals, Text.IsWord w := by
  intro w hw
  simp only [numerals, List.mem_cons, List.not_mem_nil, or_false] at hw
  rcases hw with rfl | rfl | rfl | rfl | rfl | rfl | rfl | rfl
  · exact isWord_integer _
  · exact isWord_integer _
  · exact isWord_integer _
  · exact isWord_natural _
  · exact isWord_natural _
  · exact isWord_natural _
  · exact isWord_natural _
  · exact isWord_natural _

/-- Every column reads back, at the bounds of its type too. -/
theorem ofWords_numerals (p : Primitive) : Primitive.ofWords p.numerals = .ok p := by
  have hticks : ∀ (column : Column) (t : Ticks),
      readColumn column Text.signed? (Text.integer t.toInt) = .ok t := by
    intro column t
    rw [readColumn, Text.signed?_integer]
  have hword : ∀ (column : Column) (x : UInt32),
      readColumn column (Text.unsigned? UInt32.size) (Text.natural x.toNat) = .ok x.toNat := by
    intro column x
    rw [readColumn, Text.unsigned?_natural x.toNat_lt]
  have hdetid : readColumn .detid (Text.unsigned? UInt16.size) (Text.natural p.detid.toNat) =
      .ok p.detid.toNat := by
    rw [readColumn, Text.unsigned?_natural p.detid.toNat_lt]
  unfold ofWords numerals
  simp only [hticks, hword, hdetid]
  change Except.ok _ = Except.ok _
  simp only [UInt32.ofNat_toNat, UInt16.ofNat_toNat]

theorem isSilent_numerals (p : Primitive) : isSilent p.numerals = false := by
  have hhead : (Text.integer p.timeStart.toInt).head? ≠ some '#' := by
    intro h
    exact (visible_of_mem_integer (List.mem_of_head? h)).2 rfl
  exact decide_eq_false hhead

/-- A primitive reads back from its line. -/
theorem ofLine_body (p : Primitive) : Primitive.ofLine p.body = .ok (some p) := by
  unfold ofLine body
  dsimp only
  rw [Text.words_intercalate isWord_of_mem_numerals, isSilent_numerals, ofWords_numerals]
  rfl

/-- A line ends where the writer ended it. -/
theorem notMem_body (p : Primitive) : '\n' ∉ p.body ∧ '\r' ∉ p.body :=
  ⟨Text.notMem_intercalate isWord_of_mem_numerals (by decide) (by decide),
    Text.notMem_intercalate isWord_of_mem_numerals (by decide) (by decide)⟩

end Primitive

/-! ## Files -/

/-- The lines of a file of primitives are those of the primitives. -/
theorem lines_writePrimitives (ps : List Primitive) :
    Text.lines (writePrimitives ps) = ps.map Primitive.body := by
  have hlines : writePrimitives ps = (ps.map Primitive.body).flatMap fun l => l ++ ['\n'] := by
    rw [List.flatMap_map]
    rfl
  rw [hlines]
  apply Text.lines_flatMap_newline
  intro l hl
  obtain ⟨p, -, rfl⟩ := List.mem_map.1 hl
  exact p.notMem_body

theorem primitivesFrom_map_body (ps : List Primitive) (line : Nat) (before : List Primitive) :
    primitivesFrom line before (ps.map Primitive.body) = .ok (before.reverse ++ ps) := by
  induction ps generalizing line before with
  | nil => rw [List.map_nil, primitivesFrom, List.append_nil]
  | cons p ps ih =>
    rw [List.map_cons, primitivesFrom, Primitive.ofLine_body]
    dsimp only
    rw [ih, List.reverse_cons, List.append_assoc, List.singleton_append]

theorem readPrimitives_writePrimitives (ps : List Primitive) :
    readPrimitives (writePrimitives ps) = .ok ps := by
  rw [readPrimitives, lines_writePrimitives, primitivesFrom_map_body]
  rfl

/-- The text of a file after some calls of its writer, each of which adds primitives to it. -/
def writtenText (calls : List (List Primitive)) : List Char :=
  calls.foldl (fun text ps => text ++ writePrimitives ps) []

theorem writtenText_eq (calls : List (List Primitive)) :
    writtenText calls = writePrimitives calls.flatten := by
  have hfrom : ∀ text : List Char,
      calls.foldl (fun text ps => text ++ writePrimitives ps) text =
        text ++ writePrimitives calls.flatten := by
    induction calls with
    | nil => exact fun text => (List.append_nil text).symm
    | cons ps calls ih =>
      intro text
      rw [List.foldl_cons, ih, List.append_assoc, List.flatten_cons]
      simp only [writePrimitives, List.flatMap_append]
  exact hfrom []

/-- The primitives that are written into a file, by one call or by several, are those that are read
    from its bytes, in their order. -/
theorem written_primitives_read_back (calls : List (List Primitive)) :
    primitivesOfBytes (String.ofList (writtenText calls)).toUTF8.toList = .ok calls.flatten := by
  rw [primitivesOfBytes, Text.decode_toUTF8, String.toList_ofList, writtenText_eq]
  exact readPrimitives_writePrimitives calls.flatten

end TriggerChain
