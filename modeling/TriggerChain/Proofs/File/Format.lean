import TriggerChain.File.Primitives
import TriggerChain.Proofs.Checked
import TriggerChain.Proofs.Text.Numerals
import TriggerChain.Proofs.Text.Pieces
import TriggerChain.Proofs.Text.Utf8

/-!
# The format of files of primitives

A line says something unless it is blank or begins with a number sign. A line that says something is
in the format if it has a word for each column, and each of these words is a numeral whose value has
a place in its column; it then holds the one primitive with these values. A file is read exactly if
all its lines are in the format. Otherwise the first line that is not is reported, and on it the
number of columns or, from the left, the first column that is refused.

Main statement: `reader_accepts_its_format`.
-/

namespace TriggerChain

/-! ## Columns -/

namespace Column

/-- The columns in the order of a line. -/
def all : List Column :=
  [.timeStart, .timeOverThreshold, .timePeak, .channel, .adcIntegral, .adcPeak, .detid, .kind]

/-- Whether values below zero have a place in a column. -/
def isSigned : Column → Bool
  | .timeStart | .timeOverThreshold | .timePeak => true
  | .channel | .adcIntegral | .adcPeak | .detid | .kind => false

/-- The least value of a column. -/
def least : Column → Int
  | .timeStart | .timeOverThreshold | .timePeak => -2 ^ 63
  | .channel | .adcIntegral | .adcPeak | .detid | .kind => 0

/-- The first value that is too large for a column. -/
def limit : Column → Int
  | .timeStart | .timeOverThreshold | .timePeak => 2 ^ 63
  | .channel | .adcIntegral | .adcPeak | .kind => 2 ^ 32
  | .detid => 2 ^ 16

/-- A word is a numeral of a value that has a place in a column. -/
structure Holds (c : Column) (word : List Char) (value : Int) : Prop where
  numeral : Text.IsNumeral c.isSigned word value
  least : c.least ≤ value
  limit : value < c.limit

/-- The value of a primitive in a column. -/
def valueOf (p : Primitive) : Column → Int
  | .timeStart => p.timeStart.toInt
  | .timeOverThreshold => p.timeOverThreshold.toInt
  | .timePeak => p.timePeak.toInt
  | .channel => p.channel.toNat
  | .adcIntegral => p.adcIntegral.toNat
  | .adcPeak => p.adcPeak.toNat
  | .detid => p.detid.toNat
  | .kind => p.kind.toNat

/-- A reader of words reads what a column holds, and finds a value wherever there is one. -/
structure ReadBy {α : Type} (c : Column) (read? : List Char → Option α) (value : α → Int) :
    Prop where
  reads : ∀ word a, read? word = some a → c.Holds word (value a)
  finds : ∀ word i, c.Holds word i → ∃ a, read? word = some a

theorem readBy_signed {c : Column} (hsigned : c.isSigned = true) :
    c.ReadBy Text.signed? Int64.toInt := by
  have hbounds : c.least = -2 ^ 63 ∧ c.limit = 2 ^ 63 := by
    cases c <;> first | exact ⟨rfl, rfl⟩ | cases hsigned
  constructor
  · intro word t h
    refine ⟨hsigned ▸ Text.signed?_eq_some_iff.1 h, ?_, ?_⟩
    · rw [hbounds.1]
      exact t.le_toInt
    · rw [hbounds.2]
      exact t.toInt_lt
  · intro word i h
    have hlow := h.least
    have hhigh := h.limit
    rw [hbounds.1] at hlow
    rw [hbounds.2] at hhigh
    have htoInt : (Int64.ofInt i).toInt = i := Int64.toInt_ofInt_of_le hlow hhigh
    refine ⟨Int64.ofInt i, Text.signed?_eq_some_iff.2 ?_⟩
    rw [htoInt]
    exact hsigned ▸ h.numeral

theorem readBy_unsigned {c : Column} {limit : Nat} (hsigned : c.isSigned = false)
    (hlimit : c.limit = limit) : c.ReadBy (Text.unsigned? limit) Int.ofNat := by
  have hleast : c.least = 0 := by
    cases c <;> first | rfl | cases hsigned
  constructor
  · intro word n h
    obtain ⟨hnumeral, hlt⟩ := Text.unsigned?_eq_some_iff.1 h
    refine ⟨hsigned ▸ hnumeral, ?_, ?_⟩
    · rw [hleast]
      exact Int.natCast_nonneg n
    · rw [hlimit]
      exact Int.ofNat_lt.2 hlt
  · intro word i h
    have hlow := h.least
    have hhigh := h.limit
    rw [hleast] at hlow
    rw [hlimit] at hhigh
    obtain ⟨n, rfl⟩ := Int.eq_ofNat_of_zero_le hlow
    exact ⟨n, Text.unsigned?_eq_some_iff.2 ⟨hsigned ▸ h.numeral, Int.ofNat_lt.1 hhigh⟩⟩

variable {α : Type} {c : Column} {read? : List Char → Option α} {value : α → Int}
  {word : List Char}

theorem ReadBy.holds_of_ok (h : c.ReadBy read? value) {a : α}
    (hread : readColumn c read? word = .ok a) : c.Holds word (value a) := by
  unfold readColumn at hread
  split at hread
  · rename_i hsome
    cases hread
    exact h.reads word a hsome
  · cases hread

theorem ReadBy.refused_of_error (h : c.ReadBy read? value) {e : LineError}
    (hread : readColumn c read? word = .error e) :
    (∀ i, ¬c.Holds word i) ∧ e = .column c (String.ofList word) := by
  unfold readColumn at hread
  split at hread
  · cases hread
  · rename_i hnone
    cases hread
    refine ⟨fun i hholds => ?_, rfl⟩
    obtain ⟨a, ha⟩ := h.finds word i hholds
    cases hnone.symm.trans ha

end Column

/-! ## Words -/

/-- A column is the first one, from the left, whose word is refused. -/
inductive FirstRefused : List (Column × List Char) → Column → List Char → Prop
  /-- The word holds no value of the column. -/
  | here {c : Column} {word : List Char} {rest : List (Column × List Char)}
    (hrefused : ∀ i, ¬c.Holds word i) : FirstRefused ((c, word) :: rest) c word
  /-- The column in front holds a value. -/
  | behind {first : Column × List Char} {c : Column} {word : List Char}
    {rest : List (Column × List Char)} (hholds : ∃ i, first.1.Holds first.2 i)
    (hrest : FirstRefused rest c word) : FirstRefused (first :: rest) c word

theorem FirstRefused.exists_refused {cells : List (Column × List Char)} {c : Column}
    {word : List Char} (h : FirstRefused cells c word) :
    ¬∀ cell ∈ cells, ∃ i, cell.1.Holds cell.2 i := by
  intro hall
  induction h with
  | here hrefused =>
    obtain ⟨i, hi⟩ := hall _ List.mem_cons_self
    exact hrefused i hi
  | behind _ _ ih => exact ih fun cell hcell => hall cell (List.mem_cons_of_mem _ hcell)

/-- A reader that goes from column to column stops at the first one that is refused. -/
theorem Column.ReadBy.firstRefused {α β : Type} {c : Column} {read? : List Char → Option α}
    {value : α → Int} {word : List Char} {next : α → Except LineError β} {e : LineError}
    {rest : List (Column × List Char)} (hread : c.ReadBy read? value)
    (hstops : (readColumn c read? word >>= next) = .error e)
    (hnext : ∀ a, next a = .error e →
      ∃ c' word', FirstRefused rest c' word' ∧ e = .column c' (String.ofList word')) :
    ∃ c' word', FirstRefused ((c, word) :: rest) c' word' ∧
      e = .column c' (String.ofList word') := by
  rcases Checked.bind_eq_error_iff.1 hstops with hhere | ⟨a, ha, hbehind⟩
  · obtain ⟨hrefused, rfl⟩ := hread.refused_of_error hhere
    exact ⟨c, word, .here hrefused, rfl⟩
  · obtain ⟨c', word', hfirst, rfl⟩ := hnext a hbehind
    exact ⟨c', word', .behind ⟨_, hread.holds_of_ok ha⟩ hfirst, rfl⟩

section Words

variable {words : List (List Char)}

/-- What is read from the words of a line stands in its columns. -/
theorem holds_of_ofWords {p : Primitive} (h : Primitive.ofWords words = .ok p) :
    columnCount ≤ words.length ∧
      ∀ cell ∈ Column.all.zip words, cell.1.Holds cell.2 (Column.valueOf p cell.1) := by
  have hword : ∀ {c : Column} {word : List Char} {n : Nat}, c.limit = 2 ^ 32 →
      c.Holds word n → c.Holds word (UInt32.ofNat n).toNat := by
    intro c word n hlimit hholds
    have hlt := hholds.limit
    rw [hlimit] at hlt
    rwa [UInt32.toNat_ofNat_of_lt' (by show n < 2 ^ 32; omega)]
  have hdetid : ∀ {word : List Char} {n : Nat}, Column.detid.Holds word n →
      Column.detid.Holds word (UInt16.ofNat n).toNat := by
    intro word n hholds
    have hlt : (n : Int) < 2 ^ 16 := hholds.limit
    rwa [UInt16.toNat_ofNat_of_lt' (by show n < 2 ^ 16; omega)]
  unfold Primitive.ofWords at h
  split at h
  · simp only [Checked.bind_eq_ok_iff] at h
    obtain ⟨start, hstart, tot, htot, peak, hpeak, channel, hchannel, integral, hintegral, adcPeak,
      hadcPeak, detid, hdet, kind, hkind, hp⟩ := h
    obtain rfl := Except.ok.inj hp
    refine ⟨by simp [columnCount], ?_⟩
    simp only [Column.all, List.zip_cons_cons, List.zip_nil_left, List.forall_mem_cons]
    refine ⟨?_, ?_, ?_, ?_, ?_, ?_, ?_, ?_, List.forall_mem_nil _⟩
    · exact (Column.readBy_signed rfl).holds_of_ok hstart
    · exact (Column.readBy_signed rfl).holds_of_ok htot
    · exact (Column.readBy_signed rfl).holds_of_ok hpeak
    · exact hword rfl ((Column.readBy_unsigned rfl rfl).holds_of_ok hchannel)
    · exact hword rfl ((Column.readBy_unsigned rfl rfl).holds_of_ok hintegral)
    · exact hword rfl ((Column.readBy_unsigned rfl rfl).holds_of_ok hadcPeak)
    · exact hdetid ((Column.readBy_unsigned rfl rfl).holds_of_ok hdet)
    · exact hword rfl ((Column.readBy_unsigned rfl rfl).holds_of_ok hkind)
  · cases h

/-- What is reported of the words of a line. -/
theorem refused_of_ofWords {e : LineError} (h : Primitive.ofWords words = .error e) :
    (words.length < columnCount ∧ e = .columns words.length) ∨
      (columnCount ≤ words.length ∧ ∃ c word, FirstRefused (Column.all.zip words) c word ∧
        e = .column c (String.ofList word)) := by
  unfold Primitive.ofWords at h
  split at h
  · right
    refine ⟨by simp [columnCount], ?_⟩
    simp only [Column.all, List.zip_cons_cons]
    refine (Column.readBy_signed rfl).firstRefused h fun start h => ?_
    refine (Column.readBy_signed rfl).firstRefused h fun tot h => ?_
    refine (Column.readBy_signed rfl).firstRefused h fun peak h => ?_
    refine (Column.readBy_unsigned rfl rfl).firstRefused h fun channel h => ?_
    refine (Column.readBy_unsigned rfl rfl).firstRefused h fun integral h => ?_
    refine (Column.readBy_unsigned rfl rfl).firstRefused h fun adcPeak h => ?_
    refine (Column.readBy_unsigned rfl rfl).firstRefused h fun detid h => ?_
    refine (Column.readBy_unsigned rfl rfl).firstRefused h fun kind h => ?_
    cases h
  · rename_i hshort
    left
    cases h
    refine ⟨?_, rfl⟩
    rcases words with _ | ⟨start, _ | ⟨tot, _ | ⟨peak, _ | ⟨channel, _ | ⟨integral, _ | ⟨adcPeak,
      _ | ⟨detid, _ | ⟨kind, rest⟩⟩⟩⟩⟩⟩⟩⟩
    all_goals first
      | exact (hshort _ _ _ _ _ _ _ _ _ rfl).elim
      | simp [columnCount]

end Words

/-! ## Lines -/

/-- A line says something: without the blanks at its ends it is not empty, and it does not begin
    with a number sign. -/
def Speaks (line : List Char) : Prop :=
  Text.trimmed line ≠ [] ∧ (Text.trimmed line).head? ≠ some '#'

instance : DecidablePred Speaks := fun _ => inferInstanceAs (Decidable (_ ∧ _))

/-- A line has a word for each column, and each of these words holds a value. -/
structure InFormat (line : List Char) : Prop where
  columns : columnCount ≤ (Text.wordsBetween line).length
  values : ∀ cell ∈ Column.all.zip (Text.wordsBetween line), ∃ i, cell.1.Holds cell.2 i

/-- A line has a word for each column, and these words hold the values of a primitive. Words behind
    them are not looked at. -/
structure Primitive.StandsOn (p : Primitive) (line : List Char) : Prop where
  columns : columnCount ≤ (Text.wordsBetween line).length
  values : ∀ cell ∈ Column.all.zip (Text.wordsBetween line),
    cell.1.Holds cell.2 (Column.valueOf p cell.1)

/-- What is said of a line that is not in the format. -/
inductive Complaint (line : List Char) : String → Prop
  /-- There are too few words, and their number is named. -/
  | columns (hfew : (Text.wordsBetween line).length < columnCount) :
    Complaint line ("expected 8 columns, found " ++ Text.ofNat (Text.wordsBetween line).length)
  /-- There are words enough. The first column that is refused is named, with its word. -/
  | column {c : Column} {word : List Char} (hmany : columnCount ≤ (Text.wordsBetween line).length)
    (hfirst : FirstRefused (Column.all.zip (Text.wordsBetween line)) c word) :
    Complaint line ("invalid " ++ c.name ++ " `" ++ String.ofList word ++ "`")

theorem Primitive.StandsOn.inFormat {p : Primitive} {line : List Char} (h : p.StandsOn line) :
    InFormat line :=
  ⟨h.columns, fun cell hcell => ⟨_, h.values cell hcell⟩⟩

theorem Complaint.not_inFormat {line : List Char} {text : String} (h : Complaint line text) :
    ¬InFormat line := by
  intro hformat
  cases h with
  | columns hfew => exact absurd hformat.columns (Nat.not_le.2 hfew)
  | column _ hfirst => exact hfirst.exists_refused hformat.values

theorem Column.eq_of_valueOf {p q : Primitive}
    (h : ∀ c : Column, Column.valueOf p c = Column.valueOf q c) : p = q := by
  have hword : ∀ {x y : UInt32}, (x.toNat : Int) = y.toNat → x = y :=
    fun hxy => UInt32.toNat_inj.1 (Int.ofNat_inj.1 hxy)
  have hdetid : p.detid = q.detid := UInt16.toNat_inj.1 (Int.ofNat_inj.1 (h .detid))
  cases p
  cases q
  simp only [Primitive.mk.injEq]
  exact ⟨Int64.toInt_inj.1 (h .timeStart), Int64.toInt_inj.1 (h .timeOverThreshold),
    Int64.toInt_inj.1 (h .timePeak), hword (h .channel), hword (h .adcIntegral),
    hword (h .adcPeak), hdetid, hword (h .kind)⟩

/-- One primitive stands on a line. -/
theorem Primitive.StandsOn.unique {p q : Primitive} {line : List Char} (hp : p.StandsOn line)
    (hq : q.StandsOn line) : p = q := by
  apply Column.eq_of_valueOf
  intro c
  have hall : c ∈ Column.all := by cases c <;> decide
  have hlength : Column.all.length ≤ (Text.wordsBetween line).length := hp.columns
  rw [← List.map_fst_zip hlength] at hall
  obtain ⟨cell, hcell, rfl⟩ := List.mem_map.1 hall
  exact (hp.values cell hcell).numeral.unique (hq.values cell hcell).numeral

theorem isSilent_wordsBetween {line : List Char} :
    isSilent (Text.wordsBetween line) = true ↔ ¬Speaks line := by
  have hhead := Text.head?_wordsBetween line
  unfold Speaks
  cases hwords : Text.wordsBetween line with
  | nil =>
    rw [hwords] at hhead
    simp [isSilent, List.head?_eq_none_iff.1 hhead.symm]
  | cons w ws =>
    have hmem : w ∈ Text.wordsBetween line := hwords ▸ List.mem_cons_self
    have hw : w ≠ [] := by simpa using (List.mem_filter.1 hmem).2
    obtain ⟨c, cs, rfl⟩ := List.exists_cons_of_ne_nil hw
    have hfirst : (Text.trimmed line).head? = some c := by
      rw [← hhead, hwords]
      rfl
    have hne : Text.trimmed line ≠ [] := by
      intro hnil
      rw [hnil] at hfirst
      cases hfirst
    simp [isSilent, hfirst, hne]

theorem message_columns (found : Nat) :
    (LineError.columns found).message = "expected 8 columns, found " ++ Text.ofNat found := by
  have height : Text.ofNat columnCount = "8" := by
    rw [Text.ofNat, columnCount, Text.natural, if_pos (by decide)]
    rfl
  unfold LineError.message
  rw [height]
  rfl

/-- How a line is read. -/
inductive LineRead (line : List Char) : Except LineError (Option Primitive) → Prop
  /-- It says nothing. -/
  | quiet (hquiet : ¬Speaks line) : LineRead line (.ok none)
  /-- It is in the format. -/
  | holds {p : Primitive} (hspeaks : Speaks line) (hstands : p.StandsOn line) :
    LineRead line (.ok (some p))
  /-- It is not. -/
  | broken {reason : LineError} (hspeaks : Speaks line)
    (hcomplaint : Complaint line reason.message) : LineRead line (.error reason)

theorem lineRead_ofLine (line : List Char) : LineRead line (Primitive.ofLine line) := by
  unfold Primitive.ofLine
  dsimp only
  rw [Text.words_eq_wordsBetween]
  by_cases hsilent : isSilent (Text.wordsBetween line) = true
  · rw [if_pos hsilent]
    exact .quiet (isSilent_wordsBetween.1 hsilent)
  · rw [if_neg hsilent]
    have hspeaks : Speaks line := not_not.1 (mt isSilent_wordsBetween.2 hsilent)
    cases hwords : Primitive.ofWords (Text.wordsBetween line) with
    | ok p =>
      obtain ⟨hcolumns, hvalues⟩ := holds_of_ofWords hwords
      exact .holds hspeaks ⟨hcolumns, hvalues⟩
    | error reason =>
      refine .broken hspeaks ?_
      rcases refused_of_ofWords hwords with ⟨hfew, rfl⟩ | ⟨hmany, c, word, hfirst, rfl⟩
      · exact message_columns _ ▸ .columns hfew
      · exact .column hmany hfirst

/-- A line that cannot be read says something that is not in the format. -/
theorem not_inFormat_of_broken {line : List Char} {reason : LineError}
    (h : Primitive.ofLine line = .error reason) : Speaks line ∧ ¬InFormat line := by
  have hline := lineRead_ofLine line
  rw [h] at hline
  cases hline with
  | broken hspeaks hcomplaint => exact ⟨hspeaks, hcomplaint.not_inFormat⟩

/-! ## Files -/

variable {number : Nat} {before ps : List Primitive} {ls : List (List Char)}

/-- The lines that say something hold the primitives, one on each, in their order. -/
def StandOn (ps : List Primitive) (ls : List (List Char)) : Prop :=
  List.Forall₂ (fun line p => p.StandsOn line) (ls.filter fun line => decide (Speaks line)) ps

theorem StandOn.quiet {line : List Char} (h : StandOn ps ls) (hquiet : ¬Speaks line) :
    StandOn ps (line :: ls) := by
  unfold StandOn
  rwa [List.filter_cons_of_neg (by simpa using hquiet)]

theorem StandOn.cons {p : Primitive} {line : List Char} (h : StandOn ps ls)
    (hspeaks : Speaks line) (hstands : p.StandsOn line) : StandOn (p :: ps) (line :: ls) := by
  unfold StandOn
  rw [List.filter_cons_of_pos (by simpa using hspeaks)]
  exact .cons hstands h

/-- Lines on which primitives stand are in the format. -/
theorem StandOn.inFormat (h : StandOn ps ls) : ∀ line ∈ ls, Speaks line → InFormat line := by
  have hformat : ∀ line ∈ ls.filter fun line => decide (Speaks line), InFormat line := by
    unfold StandOn at h
    generalize (ls.filter fun line => decide (Speaks line)) = speaking at h
    induction h with
    | nil => exact List.forall_mem_nil _
    | cons hfirst _ ih => exact List.forall_mem_cons.2 ⟨hfirst.inFormat, ih⟩
  intro line hline hspeaks
  exact hformat line (List.mem_filter.2 ⟨hline, by simpa using hspeaks⟩)

/-- One list of primitives stands on some lines. -/
theorem StandOn.unique {qs : List Primitive} (hp : StandOn ps ls) (hq : StandOn qs ls) :
    ps = qs := by
  unfold StandOn at hp hq
  generalize (ls.filter fun line => decide (Speaks line)) = speaking at hp hq
  induction hp generalizing qs with
  | nil =>
    cases hq
    rfl
  | cons hfirst _ ih =>
    cases hq with
    | cons hfirst' hrest' => rw [hfirst.unique hfirst', ih hrest']

/-- Each line that says something gives the primitive that stands on it. -/
theorem standOn_of_primitivesFrom (h : primitivesFrom number before ls = .ok ps) :
    ∃ qs, ps = before.reverse ++ qs ∧ StandOn qs ls := by
  induction ls generalizing number before with
  | nil =>
    cases h
    exact ⟨[], (List.append_nil _).symm, .nil⟩
  | cons line ls ih =>
    have hline := lineRead_ofLine line
    unfold primitivesFrom at h
    generalize Primitive.ofLine line = read at h hline
    cases hline with
    | quiet hquiet =>
      obtain ⟨qs, rfl, hqs⟩ := ih h
      exact ⟨qs, rfl, hqs.quiet hquiet⟩
    | holds hspeaks hstands =>
      obtain ⟨qs, rfl, hqs⟩ := ih h
      exact ⟨_, by simp, hqs.cons hspeaks hstands⟩
    | broken => cases h

/-- The first line that is not in the format is reported, by its number; all lines are counted, from
    `number` on, those that say nothing too. -/
def Reports (number : Nat) (ls : List (List Char)) (e : FileError) : Prop :=
  ∃ earlier line later reason, ls = earlier ++ line :: later ∧
    e = .badLine (number + earlier.length) reason ∧ Speaks line ∧ Complaint line reason.message ∧
    ∀ l ∈ earlier, Speaks l → InFormat l

/-- A line that is not to be reported leaves this to the lines behind it. -/
theorem Reports.behind {line : List Char} {e : FileError} (h : Reports (number + 1) ls e)
    (hformat : Speaks line → InFormat line) : Reports number (line :: ls) e := by
  obtain ⟨earlier, broken, later, reason, rfl, rfl, hspeaks, hcomplaint, hearlier⟩ := h
  refine ⟨line :: earlier, broken, later, reason, rfl, ?_, hspeaks, hcomplaint,
    List.forall_mem_cons.2 ⟨hformat, hearlier⟩⟩
  rw [List.length_cons]
  congr 1
  omega

theorem reports_of_primitivesFrom {e : FileError} (h : primitivesFrom number before ls = .error e) :
    Reports number ls e := by
  induction ls generalizing number before with
  | nil => cases h
  | cons line ls ih =>
    have hline := lineRead_ofLine line
    unfold primitivesFrom at h
    generalize Primitive.ofLine line = read at h hline
    cases hline with
    | quiet hquiet => exact (ih h).behind fun hspeaks => absurd hspeaks hquiet
    | holds hspeaks hstands => exact (ih h).behind fun _ => hstands.inFormat
    | broken hspeaks hcomplaint =>
      cases h
      exact ⟨[], line, ls, _, rfl, rfl, hspeaks, hcomplaint, List.forall_mem_nil _⟩

/-- What is reported is not in the format. -/
theorem Reports.not_inFormat {e : FileError} (h : Reports number ls e) :
    ¬∀ line ∈ ls, Speaks line → InFormat line := by
  obtain ⟨earlier, line, later, reason, rfl, -, hspeaks, hcomplaint, -⟩ := h
  intro hall
  exact hcomplaint.not_inFormat (hall line (by simp) hspeaks)

/-- What is read from a text. -/
structure ReadsFormat (text : List Char) (result : Except FileError (List Primitive)) : Prop where
  /-- The text is read if all lines that say something are in the format, and only then. -/
  accepts : (∃ ps, result = .ok ps) ↔ ∀ line ∈ Text.linesBetween text, Speaks line → InFormat line
  /-- There is one primitive for each line that says something, in their order. -/
  primitives : ∀ ps, result = .ok ps ↔ StandOn ps (Text.linesBetween text)
  /-- Otherwise the first line that is not in the format is reported; lines are counted from one. -/
  reports : ∀ e, result = .error e → Reports 1 (Text.linesBetween text) e

theorem readsFormat_readPrimitives (text : List Char) :
    ReadsFormat text (readPrimitives text) := by
  have hstand : ∀ {ps}, readPrimitives text = .ok ps → StandOn ps (Text.linesBetween text) := by
    intro ps h
    rw [readPrimitives, Text.lines_eq_linesBetween] at h
    obtain ⟨qs, rfl, hqs⟩ := standOn_of_primitivesFrom h
    exact hqs
  have hreports : ∀ {e}, readPrimitives text = .error e → Reports 1 (Text.linesBetween text) e := by
    intro e h
    rw [readPrimitives, Text.lines_eq_linesBetween] at h
    exact reports_of_primitivesFrom h
  have haccepts : (∀ line ∈ Text.linesBetween text, Speaks line → InFormat line) →
      ∃ ps, readPrimitives text = .ok ps := by
    intro hformat
    cases hread : readPrimitives text with
    | ok ps => exact ⟨ps, rfl⟩
    | error e => exact absurd hformat (hreports hread).not_inFormat
  refine ⟨⟨?_, haccepts⟩, fun ps => ⟨hstand, fun h => ?_⟩, fun e => hreports⟩
  · rintro ⟨ps, h⟩
    exact (hstand h).inFormat
  · obtain ⟨qs, hqs⟩ := haccepts h.inFormat
    rw [hqs, h.unique (hstand hqs)]

/-- Every text that is given as bytes is read if its lines are in the format, and only then. -/
theorem reader_accepts_its_format (text : String) :
    ReadsFormat text.toList (primitivesOfBytes text.toUTF8.toList) := by
  rw [primitivesOfBytes, Text.decode_toUTF8]
  exact readsFormat_readPrimitives text.toList

end TriggerChain
