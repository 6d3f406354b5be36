import TriggerChain.Proofs.Command.Partitions
import TriggerChain.Proofs.File.Format
import TriggerChain.Proofs.Text.Utf8

/-!
# All or nothing

Processing sets its chain up, builds it, makes its folders and reads every input, in this order and
before it writes the first table. So a chain that is refused leaves no trace, and an input that
cannot be read leaves no table, wherever it stands among the inputs.

Main statement: `refused_or_unread_leaves_files`.
-/

namespace TriggerChain.Command

variable {readers : Readers} {verbosity : Nat} {job : Job} {d d' : Desk}

/-! ## Setting up -/

/-- The setup of the chain of a job, on a desk. -/
def Job.setupOn (job : Job) (readers : Readers) (d : Desk) : Except Failure ChainSetup :=
  match job.chain with
  | none => .ok (job.override {})
  | some path =>
    match d.contents? path with
    | none => .error .noChainFile
    | some bytes => (readers.setup bytes).map job.override

/-- Setting up leaves the desk as it is. -/
theorem run_loadSetup (readers : Readers) (job : Job) (d : Desk) :
    (loadSetup readers job : Action (StateM Desk) ChainSetup).run d =
      (job.setupOn readers d, d) := by
  unfold loadSetup Job.setupOn
  cases job.chain with
  | none => rfl
  | some path =>
    have hread : (Host.readFile path : StateM Desk (Option (List UInt8))) d =
        (d.contents? path, d) := rfl
    dsimp only
    rw [run_bind, run_host, hread]
    dsimp only
    cases d.contents? path with
    | none => rfl
    | some bytes =>
      dsimp only
      rw [run_bind, run_checked]
      cases readers.setup bytes with
      | error failure => rfl
      | ok setup => rfl

/-- Why the chain of a job is refused, and how the job fails for it. -/
inductive Job.Refused (job : Job) (readers : Readers) (d : Desk) : Failure → Prop
  /-- The chain file is not there, or holds no setup. -/
  | chainFile {failure : Failure} (hsetup : job.setupOn readers d = .error failure) :
      Refused job readers d failure
  /-- The activity maker is not known, or its settings are refused. -/
  | activity {setup : ChainSetup} {error : SettingsError}
      (hsetup : job.setupOn readers d = .ok setup)
      (hmaker : Registry.builtin.buildActivity setup.activityMaker setup.activityConfig =
        .error error) : Refused job readers d (.ofSettings error)
  /-- The candidate maker is not known, or its settings are refused. -/
  | candidate {setup : ChainSetup} {made : ActivityMaker × List Notice} {error : SettingsError}
      (hsetup : job.setupOn readers d = .ok setup)
      (hactivity : Registry.builtin.buildActivity setup.activityMaker setup.activityConfig =
        .ok made)
      (hmaker : Registry.builtin.buildCandidate setup.candidateMaker setup.candidateConfig =
        .error error) : Refused job readers d (.ofSettings error)
  /-- The candidate maker asks for more memory than the machine has. -/
  | memory {setup : ChainSetup} {built : ChainSetup.Built}
      (hsetup : job.setupOn readers d = .ok setup) (hbuild : setup.build .builtin = .ok built)
      (hmemory : d.machine.memory < built.candidateMaker.bytesAsked) :
      Refused job readers d (.stopped (.noMemory built.candidateMaker.bytesAsked))

theorem buildMakers_of_error {memory : Nat} {setup : ChainSetup} {error : SettingsError}
    (h : setup.build .builtin = .error error) :
    buildMakers memory setup = .error (.ofSettings error) := by
  unfold buildMakers
  rw [h]
  rfl

theorem buildMakers_of_lt {memory : Nat} {setup : ChainSetup} {built : ChainSetup.Built}
    (h : setup.build .builtin = .ok built) (hmemory : memory < built.candidateMaker.bytesAsked) :
    buildMakers memory setup =
      .error (.stopped (.noMemory built.candidateMaker.bytesAsked)) := by
  unfold buildMakers
  rw [h]
  exact if_pos hmemory

/-- A job whose makers cannot be built fails with the reason, and does nothing else. -/
theorem fails_of_buildMakers {setup : ChainSetup} {failure : Failure}
    (hsetup : job.setupOn readers d = .ok setup)
    (hmakers : buildMakers d.machine.memory setup = .error failure) (verbosity : Nat) :
    Fails (process readers verbosity job) d failure d := by
  unfold Fails process
  rw [run_bind, run_loadSetup, hsetup]
  dsimp only
  rw [run_bind, run_setUp, hmakers]

/-- A job whose chain is refused fails with its reason, and does nothing else. -/
theorem fails_of_refused {failure : Failure} (h : job.Refused readers d failure)
    (verbosity : Nat) : Fails (process readers verbosity job) d failure d := by
  cases h with
  | chainFile hsetup =>
    unfold Fails process
    rw [run_bind, run_loadSetup, hsetup]
  | activity hsetup hmaker =>
    apply fails_of_buildMakers hsetup
    exact buildMakers_of_error (Checked.bind_eq_error_iff.2 (.inl hmaker))
  | candidate hsetup hactivity hmaker =>
    apply fails_of_buildMakers hsetup
    exact buildMakers_of_error (Checked.bind_eq_error_iff.2 (.inr ⟨_, hactivity,
      Checked.bind_eq_error_iff.2 (.inl hmaker)⟩))
  | memory hsetup hbuild hmemory =>
    exact fails_of_buildMakers hsetup (buildMakers_of_lt hbuild hmemory) verbosity

/-! ## Making folders

    Folders are made after the makers have been heard, so the log of the desk is not what it was. No
    folder depends on the log. -/

theorem isFile_of_quiet (h : Quiet d d') : d'.isFile = d.isFile := by
  funext place
  unfold Desk.isFile
  rw [h.machine, h.files]

theorem makePart?_of_quiet {place place' : Place} {part : List Char} {e' : Desk} (h : Quiet d d')
    (hmake : Desk.makePart? (d', place) part = some (e', place')) :
    ∃ e, Desk.makePart? (d, place) part = some (e, place') ∧ Quiet e e' := by
  unfold Desk.makePart? at hmake ⊢
  dsimp only at hmake ⊢
  rw [Desk.enter?_congr h.toSameFolders, isFile_of_quiet h, h.machine] at hmake
  split at hmake
  · next inner hinner =>
    obtain ⟨rfl, rfl⟩ := Prod.mk.inj (Option.some.inj hmake)
    exact ⟨d, rfl, h⟩
  · split at hmake
    · next hnew =>
      obtain ⟨rfl, rfl⟩ := Prod.mk.inj (Option.some.inj hmake)
      refine ⟨_, if_pos hnew, ⟨rfl, ?_⟩, h.files⟩
      exact congrArg (List.cons _) h.folders
    · cases hmake

theorem makeParts?_of_quiet {place place' : Place} {names : List (List Char)} {e' : Desk}
    (h : Quiet d d') (hmake : names.foldlM Desk.makePart? (d', place) = some (e', place')) :
    ∃ e, names.foldlM Desk.makePart? (d, place) = some (e, place') ∧ Quiet e e' := by
  induction names generalizing d d' place with
  | nil =>
    obtain ⟨rfl, rfl⟩ := Prod.mk.inj (Option.some.inj hmake)
    exact ⟨d, rfl, h⟩
  | cons part names ih =>
    rw [List.foldlM_cons] at hmake
    obtain ⟨⟨d₁', place₁⟩, hpart, hrest⟩ := Option.bind_eq_some_iff.1 hmake
    obtain ⟨d₁, hfirst, h₁⟩ := makePart?_of_quiet h hpart
    obtain ⟨e, he, hquiet⟩ := ih h₁ hrest
    refine ⟨e, ?_, hquiet⟩
    rw [List.foldlM_cons]
    exact Option.bind_eq_some_iff.2 ⟨_, hfirst, he⟩

theorem makeFolder_of_quiet {path : String} {e' : Desk} (h : Quiet d d')
    (hmake : d'.makeFolder path = some e') :
    ∃ e, d.makeFolder path = some e ∧ Quiet e e' := by
  unfold Desk.makeFolder at hmake ⊢
  dsimp only at hmake ⊢
  rw [h.machine] at hmake
  split at hmake
  · cases hmake
  · obtain rfl := Option.some.inj hmake
    exact ⟨d, rfl, h⟩
  · next last outer _ _ =>
    obtain ⟨⟨d₁', place⟩, houter, hmake⟩ := Option.bind_eq_some_iff.1 hmake
    obtain ⟨d₁, hfirst, h₁⟩ := makeParts?_of_quiet h houter
    dsimp only at hmake
    split at hmake
    · next hending =>
      obtain ⟨inner, hinner, rfl⟩ := Option.map_eq_some_iff.1 hmake
      rw [Desk.enter?_congr h₁.toSameFolders] at hinner
      refine ⟨d₁, Option.bind_eq_some_iff.2 ⟨_, hfirst, ?_⟩, h₁⟩
      dsimp only
      rw [if_pos hending, hinner]
      rfl
    · next hending =>
      obtain ⟨⟨d₂', inner⟩, hlast, rfl⟩ := Option.map_eq_some_iff.1 hmake
      obtain ⟨d₂, hsecond, h₂⟩ := makePart?_of_quiet h₁ hlast
      refine ⟨d₂, Option.bind_eq_some_iff.2 ⟨_, hfirst, ?_⟩, h₂⟩
      dsimp only
      rw [if_neg hending, hsecond]
      rfl

/-- The desk on which the inputs of a job are read: its folders have been made. -/
def Job.prepared (job : Job) (d : Desk) : Option Desk := do
  let d ← d.makeFolder job.output
  match job.debugFolder with
  | none => some d
  | some folder => d.makeFolder folder

/-- Where the folders have been made, the desk is prepared but for what it shows and logs. -/
theorem prepared_of_makeFolder {d₀ d₁ d₂ : Desk} (hquiet : Quiet d d₀)
    (houtput : Does (makeFolder job.output) d₀ () d₁)
    (hdebug : Does (job.debugFolder.forM makeFolder) d₁ () d₂) :
    ∃ e, job.prepared d = some e ∧ Quiet e d₂ := by
  obtain ⟨e₁, hfirst, h₁⟩ := makeFolder_of_quiet hquiet (does_makeFolder_iff.1 houtput)
  rw [does_forM_iff] at hdebug
  unfold Job.prepared
  rw [hfirst]
  cases hfolder : job.debugFolder with
  | none =>
    rw [hfolder] at hdebug
    obtain rfl : d₁ = d₂ := hdebug
    exact ⟨e₁, rfl, h₁⟩
  | some folder =>
    rw [hfolder] at hdebug
    exact makeFolder_of_quiet h₁ (does_makeFolder_iff.1 hdebug)

/-! ## Reading -/

/-- Why a path gives no primitives on a desk. -/
inductive Unreadable (d : Desk) (path : String) : Prop
  /-- There is no such file. -/
  | missing (hfile : d.contents? path = none)
  /-- The bytes of the file are no text. -/
  | notText {bytes : List UInt8} {error : Text.Utf8Error} (hfile : d.contents? path = some bytes)
      (htext : Text.decode bytes = .error error)
  /-- The file has a line that is broken. -/
  | brokenLine {bytes : List UInt8} {text line : List Char} {reason : LineError}
      (hfile : d.contents? path = some bytes) (htext : Text.decode bytes = .ok text)
      (hline : line ∈ Text.lines text) (hbroken : Primitive.ofLine line = .error reason)

/-- A broken line is reported, or one before it. -/
theorem primitivesFrom_of_broken {lines : List (List Char)} {line : List Char} {reason : LineError}
    (hline : line ∈ lines) (hbroken : Primitive.ofLine line = .error reason) (number : Nat)
    (before : List Primitive) : ∃ error, primitivesFrom number before lines = .error error := by
  cases hread : primitivesFrom number before lines with
  | error error => exact ⟨error, rfl⟩
  | ok primitives =>
    obtain ⟨_, -, hstand⟩ := standOn_of_primitivesFrom hread
    obtain ⟨hspeaks, hformat⟩ := not_inFormat_of_broken hbroken
    exact absurd (hstand.inFormat line hline hspeaks) hformat

theorem Unreadable.partitionOf {path : String} (h : Unreadable d path) :
    ∃ failure, partitionOf d path = .error failure := by
  unfold Command.partitionOf
  cases h with
  | missing hfile =>
    rw [hfile]
    exact ⟨_, rfl⟩
  | notText hfile htext =>
    rw [hfile]
    dsimp only
    unfold orderedPrimitives primitivesOfBytes
    rw [htext]
    exact ⟨_, rfl⟩
  | brokenLine hfile htext hline hbroken =>
    obtain ⟨error, herror⟩ := primitivesFrom_of_broken hline hbroken 1 []
    rw [hfile]
    dsimp only
    unfold orderedPrimitives primitivesOfBytes readPrimitives
    rw [htext]
    dsimp only
    rw [herror]
    exact ⟨_, rfl⟩

/-! ## The stages before the first table -/

theorem not_fails_logNotices {notices : List Notice} {failure : Failure} :
    ¬ Fails (logNotices verbosity notices) d failure d' :=
  not_fails_forM fun _ _ _ _ => not_fails_host

theorem desk_of_fails_makeFolder_forM {folder? : Option String} {failure : Failure}
    (h : Fails (folder?.forM makeFolder) d failure d') : d = d' := by
  cases folder? with
  | none => exact absurd h not_fails_pure
  | some folder => exact desk_of_fails_makeFolder h

/-- Where every input gives its primitives, none is left out. -/
theorem partitionOf_of_mapM {inputs : List String} {partitions : List (List Primitive)}
    (h : inputs.mapM (partitionOf d) = .ok partitions) :
    ∀ path ∈ inputs, ∃ primitives, partitionOf d path = .ok primitives := by
  induction inputs generalizing partitions with
  | nil =>
    intro path hpath
    cases hpath
  | cons first rest ih =>
    rw [List.mapM_cons] at h
    obtain ⟨primitives, hfirst, h⟩ := Checked.bind_eq_ok_iff.1 h
    obtain ⟨others, hrest, -⟩ := Checked.bind_eq_ok_iff.1 h
    intro path hpath
    rcases List.mem_cons.1 hpath with rfl | hpath
    · exact ⟨primitives, hfirst⟩
    · exact ih hrest path hpath

/-- A job fails before the first table, or every input has been read. -/
theorem read_or_fails {result : Except Failure Unit}
    (h : (process readers verbosity job : Action (StateM Desk) Unit).run d = (result, d')) :
    (∃ failure, result = .error failure ∧ d'.files = d.files) ∨
      ∃ e, job.prepared d = some e ∧
        ∀ path ∈ job.inputs, ∃ primitives, partitionOf e path = .ok primitives := by
  rcases run_bind_cases h with ⟨failure, rfl, hload⟩ | ⟨setup, d₁, hload, h⟩
  · obtain ⟨-, rfl⟩ := Prod.mk.inj ((run_loadSetup readers job d).symm.trans hload)
    exact .inl ⟨failure, rfl, rfl⟩
  obtain ⟨-, rfl⟩ := Prod.mk.inj ((run_loadSetup readers job d).symm.trans hload)
  rcases run_bind_cases h with ⟨failure, rfl, hmakers⟩ | ⟨built, d₁, hmakers, h⟩
  · obtain ⟨-, rfl⟩ := Prod.mk.inj ((run_setUp setup d).symm.trans hmakers)
    exact .inl ⟨failure, rfl, rfl⟩
  obtain ⟨-, rfl⟩ := does_setUp_iff.1 hmakers
  rcases run_bind_cases h with ⟨failure, rfl, hlog⟩ | ⟨_, d₁, hlog, h⟩
  · exact absurd hlog not_fails_logNotices
  have hquiet := quiet_of_logNotices hlog
  rcases run_bind_cases h with ⟨failure, rfl, houtput⟩ | ⟨_, d₂, houtput, h⟩
  · obtain rfl := desk_of_fails_makeFolder houtput
    exact .inl ⟨failure, rfl, hquiet.files⟩
  have houtputs := (made_of_makeFolder houtput).files.trans hquiet.files
  rcases run_bind_cases h with ⟨failure, rfl, hdebug⟩ | ⟨_, d₃, hdebug, h⟩
  · obtain rfl := desk_of_fails_makeFolder_forM hdebug
    exact .inl ⟨failure, rfl, houtputs⟩
  have hfolders := (made_of_makeFolder_forM hdebug).files.trans houtputs
  obtain ⟨e, hprepared, he⟩ := prepared_of_makeFolder hquiet houtput hdebug
  -- Reading leaves the desk as it is, so it does not matter where among the inputs it fails.
  have hreading := run_mapM (d := d₃) (fun path => run_read path d₃) job.inputs
  rcases run_bind_cases h with ⟨failure, rfl, hread⟩ | ⟨partitions, d₄, hread, -⟩
  · obtain ⟨-, rfl⟩ := Prod.mk.inj (hreading.symm.trans hread)
    exact .inl ⟨failure, rfl, hfolders⟩
  · refine .inr ⟨e, hprepared, fun path hpath => ?_⟩
    obtain ⟨hall, -⟩ := Prod.mk.inj (hreading.symm.trans hread)
    rw [← partitionOf_congr he]
    exact partitionOf_of_mapM hall path hpath

/-! ## Command lines -/

/-- A command line ends as the job does that it asks for. -/
theorem run_of_fails {words : List String} {failure : Failure}
    (hwords : readers.words words = .ok (.process job, verbosity))
    (h : Fails (process readers verbosity job) d failure d') :
    (run words readers : StateM Desk Ending) d = (.failed failure, d') := by
  have hbind : ∀ {α β : Type} (x : StateM Desk α) (f : α → StateM Desk β),
      (x >>= f) d = f (x d).1 (x d).2 := fun _ _ => rfl
  have hperform : (perform readers verbosity (.process job) : Action (StateM Desk) Unit).run d =
      (.error failure, d') := h
  rw [run, hwords]
  dsimp only
  rw [hbind, hperform]
  rfl

/-- A command line that asks for processing fails without a trace if the chain is refused: no
    folder is made, and no file is made or changed. It fails without making or changing any file if
    an input cannot be read once the folders are there, whichever input it is. This is so for any
    readers of command lines and of JSON. -/
theorem refused_or_unread_leaves_files (readers : Readers) (words : List String)
    (verbosity : Nat) (job : Job) (d : Desk)
    (hwords : readers.words words = .ok (.process job, verbosity)) :
    (∀ failure, job.Refused readers d failure → ∃ d',
      (run words readers : StateM Desk Ending) d = (.failed failure, d') ∧
        d'.folders = d.folders ∧ d'.files = d.files) ∧
    ∀ path ∈ job.inputs, (∀ e, job.prepared d = some e → Unreadable e path) →
      ∃ failure d', (run words readers : StateM Desk Ending) d = (.failed failure, d') ∧
        d'.files = d.files := by
  constructor
  · intro failure hrefused
    exact ⟨d, run_of_fails hwords (fails_of_refused hrefused verbosity), rfl, rfl⟩
  · intro path hpath hbad
    rcases hrun : (process readers verbosity job : Action (StateM Desk) Unit).run d with ⟨result, d'⟩
    rcases read_or_fails hrun with ⟨failure, rfl, hfiles⟩ | ⟨e, hprepared, hread⟩
    · exact ⟨failure, d', run_of_fails hwords hrun, hfiles⟩
    · obtain ⟨failure, hfailure⟩ := (hbad e hprepared).partitionOf
      obtain ⟨primitives, hprimitives⟩ := hread path hpath
      exact (Checked.false_of_ok_error hprimitives hfailure).elim

/-- A file that is well formed, and one whose second line is broken. -/
def oneBroken : Desk where
  files :=
    [("a.txt", "0 3 0 1 100 7 0 0\n".toUTF8.toList),
      ("b.txt", "5 3 5 2 200 9 0 0\n5 3\n".toUTF8.toList)]

/-- A job over both files, the broken one last. -/
def overBoth : Job where
  inputs := ["a.txt", "b.txt"]
  output := "o"
  debugFolder := some "o/debug"

/-- A command line that asks for it. -/
def wordsOverBoth : List String := ["process", "a.txt", "b.txt", "-o", "o", "--debug-dir=o/debug"]

/-- A job whose candidate maker is not known. -/
def withoutMaker : Job where
  inputs := ["a.txt"]
  output := "o"
  candidateMaker := some "none"

/-- A command line that asks for it. -/
def wordsWithoutMaker : List String := ["process", "a.txt", "-oo", "--candidate-maker", "none"]

theorem unreadable_second_file {e : Desk} (h : overBoth.prepared oneBroken = some e) :
    Unreadable e "b.txt" := by
  have hcontents : (overBoth.prepared oneBroken).all
      (fun e => e.contents? "b.txt" = some "5 3 5 2 200 9 0 0\n5 3\n".toUTF8.toList) = true := by
    decide +kernel
  have hfile := of_decide_eq_true ((Option.all_eq_true _ _).1 hcontents e h)
  have hline : "5 3".toList ∈ Text.lines "5 3 5 2 200 9 0 0\n5 3\n".toList := by
    decide +kernel
  have hbroken : Primitive.ofLine "5 3".toList = .error (.columns 2) := rfl
  exact .brokenLine hfile (Text.decode_toUTF8 _) hline hbroken

/-- An unknown maker leaves no trace, and a broken line in the last file leaves no file. -/
theorem broken_last_file_leaves_files :
    readArguments 0 wordsWithoutMaker = .ok (.process withoutMaker, 0) ∧
    (∃ d', (run wordsWithoutMaker : StateM Desk Ending) oneBroken =
        (.failed (.maker (.unknownMaker "none")), d') ∧
      d'.folders = oneBroken.folders ∧ d'.files = oneBroken.files) ∧
    readArguments 0 wordsOverBoth = .ok (.process overBoth, 0) ∧
    (overBoth.prepared oneBroken).isSome ∧
    ∃ failure d', (run wordsOverBoth : StateM Desk Ending) oneBroken = (.failed failure, d') ∧
      d'.files = oneBroken.files := by
  have hwithout : readArguments 0 wordsWithoutMaker = .ok (.process withoutMaker, 0) := by
    decide +kernel
  have hboth : readArguments 0 wordsOverBoth = .ok (.process overBoth, 0) := by decide +kernel
  have hsetup : withoutMaker.setupOn {} oneBroken = .ok (withoutMaker.override {}) := rfl
  refine ⟨hwithout, ?_, hboth, by decide +kernel, ?_⟩
  · exact (refused_or_unread_leaves_files {} _ 0 withoutMaker oneBroken hwithout).1 _
      (.candidate hsetup rfl rfl)
  · exact (refused_or_unread_leaves_files {} _ 0 overBoth oneBroken hboth).2 "b.txt" (by decide)
      fun e he => unreadable_second_file he

end TriggerChain.Command
