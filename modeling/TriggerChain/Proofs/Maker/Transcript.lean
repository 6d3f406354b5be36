import TriggerChain.Proofs.Charge.LongestTrack
import TriggerChain.Proofs.Charge.RecordedMeans
import TriggerChain.Proofs.Maker.Fits
import TriggerChain.Proofs.Maker.Sink

/-!
# What a sink is told of the outputs

A windowed maker builds an output and the events of the output apart from each other, from one
window. Held against each other they agree: the sink is told of a window for every output and of no
other one, in the same order, and each number of the record can be worked out from the elements of
the output. The maker of shapes tells of a track behind each window, and its hits are hits of the
output.

Main statement: `debug_events_mirror_outputs`.
-/

namespace TriggerChain

/-! ## Records of outputs -/

/-- The record of a window says of an output what the elements of the output say. -/
structure Mirrors {τ ο : Type} [Element τ] [Summed τ] [Cluster ο τ] (maker : String)
    (r : WindowRecord) (o : ο) : Prop where
  maker : r.maker = maker
  adcIntegral : r.adcIntegral.toNat = Window.chargeOf (Cluster.elements o)
  size : r.size = (Cluster.elements o).length
  channelsHit : r.channelsHit = (Window.channelsOf (Cluster.elements o)).dedup.length
  totSum : r.totSum.toInt = ((Cluster.elements o).map fun x => (Summed.tots x).sum).sum
  timeStart : (Cluster.elements o).head?.map Element.timeStart = some r.timeStart
  timeEnd : (Cluster.elements o).getLast?.map Element.timeStart = some r.timeEnd
  firstChannel : (Cluster.elements o).head?.map Element.leadChannel = some r.firstChannel
  lastChannel : (Cluster.elements o).getLast?.map Element.leadChannel = some r.lastChannel

/-- The record of a track says of an activity what its primitives say: its hits are some of theirs,
    and it has as many channels as the longest run among them. -/
structure Traces (p : Shape) (t : TrackRecord) (r : WindowRecord) (a : Activity) : Prop where
  maker : t.maker = Shape.name
  hits : (t.hits.map (·.hit)).Subperm (a.inputs.map TrackHit.ofPrimitive)
  adjacency : r.adjacency = some (p.test.scanner.longestRun (a.inputs.map (·.channel)))
  /-- Channels are counted up to the largest number of their word. -/
  channels : (a.inputs.map (·.channel)).dedup.length < UInt16.size →
    r.adjacency = some (distinctChannels (t.hits.map (·.hit)))

/-- What a sink is told, beside what it is told of inputs: `tells` of each output, in order. -/
inductive Transcript {ο : Type} (tells : List Event → ο → Prop) : List Event → List ο → Prop
  | nil : Transcript tells [] []
  | heard {maker : String} {p : Primitive} {events : List Event} {outputs : List ο}
      (hrest : Transcript tells events outputs) :
      Transcript tells (.primitive maker p :: events) outputs
  | told {told events : List Event} {output : ο} {outputs : List ο} (htold : tells told output)
      (hrest : Transcript tells events outputs) :
      Transcript tells (told ++ events) (output :: outputs)

namespace Transcript

variable {ο : Type} {tells : List Event → ο → Prop} {events events' : List Event}
  {outputs outputs' : List ο}

theorem append (h : Transcript tells events outputs) (h' : Transcript tells events' outputs') :
    Transcript tells (events ++ events') (outputs ++ outputs') := by
  induction h with
  | nil => exact h'
  | heard _ ih => exact ih.heard
  | told htold _ ih =>
    rw [List.append_assoc]
    exact ih.told htold

/-- Inputs are no outputs. -/
theorem of_heard (h : ∀ e ∈ events, ∃ maker p, e = .primitive maker p) :
    Transcript tells events [] := by
  induction events with
  | nil => exact .nil
  | cons e events ih =>
    obtain ⟨⟨maker, p, rfl⟩, hrest⟩ := List.forall_mem_cons.1 h
    exact (ih hrest).heard

/-- What is told of an output stands together among the events. -/
theorem infix_of_mem (h : Transcript tells events outputs) {output : ο} (ho : output ∈ outputs) :
    ∃ told, tells told output ∧ told <:+: events := by
  induction h with
  | nil => cases ho
  | heard _ ih =>
    obtain ⟨told, htold, hinfix⟩ := ih ho
    exact ⟨told, htold, List.infix_cons hinfix⟩
  | told htold _ ih =>
    rcases List.mem_cons.1 ho with rfl | ho
    · exact ⟨_, htold, (List.prefix_append _ _).isInfix⟩
    · obtain ⟨told', htold', hinfix⟩ := ih ho
      exact ⟨told', htold', hinfix.trans (List.suffix_append _ _).isInfix⟩

theorem single {told : List Event} {output : ο} (h : tells told output) :
    Transcript tells told [output] := by
  have hone := Transcript.nil.told h
  rwa [List.append_nil] at hone

end Transcript

/-! ## The record of a window -/

section Windows

variable {τ ο : Type} [Element τ] [Summed τ] [Cluster ο τ]

/-- The record of a consistent window mirrors every output with its elements. -/
theorem mirrors_of_record {w : Window τ} (hw : w.Consistent) (hinputs : w.inputs ≠ [])
    {maker : String} {adjacency : Option Nat} {r : WindowRecord}
    (hrecord : w.record maker adjacency = .ok r) {o : ο} (ho : Cluster.elements o = w.inputs) :
    Mirrors maker r o ∧ r.adjacency = adjacency := by
  obtain ⟨totSum, htotSum, h⟩ := Checked.bind_eq_ok_iff.1 hrecord
  obtain rfl := Except.ok.inj h
  have hexact : totSum.toInt = (w.inputs.map fun x => (Summed.tots x).sum).sum := by
    rcases exactly_totSumOf w.inputs with ⟨t, ht, hexact, -⟩ | ⟨herr, -⟩
    · obtain rfl := Except.ok.inj (ht.symm.trans htotSum)
      exact hexact
    · exact (Checked.false_of_ok_error htotSum herr).elim
  obtain ⟨first, rest, hcons⟩ := List.exists_cons_of_ne_nil hinputs
  obtain ⟨last, hlast⟩ : ∃ last, w.inputs.getLast? = some last :=
    ⟨_, List.getLast?_eq_some_getLast hinputs⟩
  have hstart : w.timeStart = Element.timeStart first := by
    rw [hw.start, hcons]
    rfl
  refine ⟨⟨rfl, ?_, ?_, ?_, ?_, ?_, ?_, ?_, ?_⟩, rfl⟩
  · rw [ho]
    exact hw.represents.charge
  · rw [ho]
    rfl
  · rw [ho]
    exact hw.represents.channelsHit
  · rw [ho]
    exact hexact
  · rw [ho, hcons]
    exact congrArg some hstart.symm
  · rw [ho, hlast]
    rfl
  · rw [ho, hcons]
    rfl
  · rw [ho, hlast]
    rfl

end Windows

/-! ## One call -/

section Windowed

variable {π τ ο : Type} [Element τ] [Policy π τ ο]

/-- The triggers that a policy can fire on a window. -/
inductive Policy.Fires (p : π) (w : Window τ) : Fired → Prop
  | passed (h : Policy.passthrough p = true) : Fires p w { reason := .passthrough }
  | full {x : τ} {fired : Fired} (h : Policy.evaluate p w x = some fired) : Fires p w fired
  | left {fired : Fired} (h : Policy.evaluateFlush p w = some fired) : Fires p w fired

namespace Windowed

/-- What a sink is told of a call on a maker: nothing, or what goes with the window that became the
    only output. -/
inductive Reports (p : π) [Cluster ο τ] (step : Step (Windowed π τ) ο) : Prop
  | nothing (houtputs : step.outputs = []) (hevents : step.events = .ok [])
  | window {output : ο} {m : Windowed π τ} {fired : Fired} (hpolicy : m.policy = p)
      (hwindow : m.window.Consistent) (hinputs : m.window.inputs ≠ [])
      (hfires : Policy.Fires p m.window fired) (houtputs : step.outputs = [output])
      (helements : Cluster.elements output = m.window.inputs)
      (hevents : step.events = m.eventsOf fired)

variable [Cluster ο τ]

theorem Reports.of_emitted (hkeeps : KeepsElements π) {m : Windowed π τ} {fired : Fired}
    {e : Emission ο} (hwindow : m.window.Consistent) (hinputs : m.window.inputs ≠ [])
    (hfires : Policy.Fires m.policy m.window fired) (h : Emitted m fired e)
    (m' : Windowed π τ) : Reports m.policy (e.step m') := by
  cases h with
  | dropped _ _ houtput hevents => exact .nothing (congrArg Option.toList houtput) hevents
  | void _ _ _ houtput hevents => exact .nothing (congrArg Option.toList houtput) hevents
  | made _ hconstruct _ houtput hevents =>
    exact .window rfl hwindow hinputs hfires (congrArg Option.toList houtput)
      (hkeeps _ _ _ hconstruct) hevents

theorem Valid.reports_of_call (hkeeps : KeepsElements π) {m : Windowed π τ} (hm : m.Valid)
    {c : Call τ} {step : Step (Windowed π τ) ο} (h : Maker.call m c = .ok step) :
    Reports m.policy step := by
  cases c with
  | process x =>
    cases processed_of_process h with
    | seeded => exact .nothing rfl rfl
    | @passed w e hempty hpass hwindow hemitted =>
      -- The window that becomes the output is that of the input alone.
      obtain ⟨hsound, hinputs⟩ := Window.Sound.of_reset hwindow
      refine Reports.of_emitted hkeeps ?_ ?_ ?_ hemitted _
      · exact hsound.consistent
      · show w.inputs ≠ []
        rw [hinputs]
        exact List.cons_ne_nil x []
      · exact .passed hpass
    | admitted => exact .nothing rfl rfl
    | fired hinputs _ hfires hemitted =>
      exact .of_emitted hkeeps hm.heard.window.consistent hinputs (.full hfires) hemitted _
    | slid => exact .nothing rfl rfl
  | flush =>
    cases flushed_of_flush h with
    | idle => exact .nothing rfl rfl
    | left => exact .nothing rfl rfl
    | fired hinputs hfires hemitted =>
      exact .of_emitted hkeeps hm.window.consistent hinputs (.left hfires) hemitted _

end Windowed

end Windowed

/-! ## Runs -/

section Runs

variable {π τ ο : Type} [Element τ] [Policy π τ ο] [Summed τ] [Cluster ο τ]

/-- A policy tells of every output in a certain way, and of its inputs nothing but that they
    arrived. -/
structure TellsOutputs (p : π) (tells : List Event → ο → Prop) : Prop where
  keeps : Windowed.KeepsElements π
  heard : ∀ (x : τ), ∀ e ∈ Policy.heard p x, ∃ maker q, e = .primitive maker q
  told : ∀ (w : Window τ) (fired : Fired) (r : WindowRecord) (o : ο), w.Consistent →
    w.inputs ≠ [] → Policy.Fires p w fired → Cluster.elements o = w.inputs →
    w.record (Policy.name p) fired.adjacency = .ok r →
    tells (.window r :: (fired.track.map Event.track).toList) o

variable {p : π} {tells : List Event → ο → Prop}

omit [Summed τ] in
theorem TellsOutputs.transcript_of_step (hp : TellsOutputs p tells) {step : Step (Windowed π τ) ο}
    (h : Windowed.Reports p step) {told : List Event} (htold : step.events = .ok told) :
    Transcript tells told step.outputs := by
  cases h with
  | nothing houtputs hevents =>
    obtain rfl := Except.ok.inj (hevents.symm.trans htold)
    rw [houtputs]
    exact .nil
  | @window output m fired hpolicy hwindow hinputs hfires houtputs helements hevents =>
    subst hpolicy
    obtain ⟨r, hrecord, h⟩ := Checked.bind_eq_ok_iff.1 (hevents.symm.trans htold)
    obtain rfl := Except.ok.inj h
    rw [houtputs]
    exact .single (hp.told m.window fired r output hwindow hinputs hfires helements hrecord)

variable [ListPolicy π τ ο] [LawfulPolicy π τ ο]

omit [Summed τ] in
/-- The events of a run go on a transcript of its outputs. -/
theorem TellsOutputs.transcript_of_run (hp : TellsOutputs p tells) {m : Windowed π τ}
    (hm : m.Valid) (hpolicy : m.policy = p) {events : Array Event} {cs : List (Call τ)}
    {steps' : List (Step (Recorded (Windowed π τ)) ο)}
    (h : Maker.run (Recorded.watched m events) cs = .ok steps') :
    ∃ more : List Event,
      (Maker.after (Recorded.watched m events) steps').sink = some (.memory (events ++ more)) ∧
        Transcript tells more (Maker.outputs steps') := by
  induction cs generalizing m events steps' with
  | nil =>
    obtain rfl := Except.ok.inj h
    have hsame : events ++ ([] : List Event) = events := Array.toList_inj.1 (by simp)
    exact ⟨[], by rw [hsame]; rfl, .nil⟩
  | cons c cs ih =>
    obtain ⟨step', rest', hstep', hrest', rfl⟩ := Maker.run_cons_eq_ok_iff.1 h
    rw [Recorded.call_memory] at hstep'
    obtain ⟨step, hstep, h⟩ := Checked.bind_eq_ok_iff.1 hstep'
    obtain ⟨told, htold, rfl⟩ := Checked.map_eq_ok_iff.1 h
    have hnext : step.maker.policy = p := (hm.policy_eq hstep).trans hpolicy
    obtain ⟨more, hsink, hmore⟩ := ih (hm.follows hstep).valid hnext hrest'
    refine ⟨Recorded.heardAt m c ++ told ++ more, ?_, ?_⟩
    · have hsame : events ++ Recorded.heardAt m c ++ told ++ more =
          events ++ (Recorded.heardAt m c ++ told ++ more) := Array.toList_inj.1 (by simp)
      rw [← hsame]
      exact hsink
    · have hheard : ∀ e ∈ Recorded.heardAt m c, ∃ maker q, e = .primitive maker q := by
        cases c with
        | process x =>
          subst hpolicy
          exact hp.heard x
        | flush => exact List.forall_mem_nil _
      have hreports := hm.reports_of_call hp.keeps hstep
      rw [hpolicy] at hreports
      have hcall := (Transcript.of_heard hheard).append (hp.transcript_of_step hreports htold)
      exact hcall.append hmore

end Runs

/-! ## The policies -/

/-- The window that an event is about. -/
def Event.window? : Event → Option WindowRecord
  | .window r => some r
  | _ => none

/-- Of an output the window is told, and nothing else. -/
def WindowTold {τ ο : Type} [Element τ] [Summed τ] [Cluster ο τ] (maker : String)
    (told : List Event) (o : ο) : Prop :=
  ∃ r, told = [.window r] ∧ Mirrors maker r o

/-- Of an output the window is told, and the track right behind it. -/
def TrackTold (p : Shape) (told : List Event) (a : Activity) : Prop :=
  ∃ r t, told = [.window r, .track t] ∧ Mirrors Shape.name r a ∧ Traces p t r a

theorem Settings.track_of_aggregates {τ : Type} {s : Settings} {w : Window τ} {fired : Fired}
    (h : s.aggregates w = some fired) : fired.track = none := by
  unfold aggregates at h
  split at h
  · obtain rfl := Option.some.inj h
    rfl
  · split at h
    · obtain rfl := Option.some.inj h
      rfl
    · cases h

/-- A policy none of whose triggers has a track tells of windows only. -/
theorem tellsWindows {π τ ο : Type} [Element τ] [Policy π τ ο] [Summed τ] [Cluster ο τ] {p : π}
    (hkeeps : Windowed.KeepsElements π)
    (hheard : ∀ (x : τ), ∀ e ∈ Policy.heard p x, ∃ maker q, e = Event.primitive maker q)
    (htrack : ∀ (w : Window τ) fired, Policy.Fires p w fired → fired.track = none) :
    TellsOutputs p (WindowTold (Policy.name p)) where
  keeps := hkeeps
  heard := hheard
  told w fired r o hw hinputs hfires ho hrecord := by
    rw [htrack w fired hfires]
    exact ⟨r, rfl, (mirrors_of_record hw hinputs hrecord ho).1⟩

theorem Settings.heardPrimitive_cases {s : Settings} {maker : String} {p : Primitive} {e : Event}
    (h : e ∈ s.heardPrimitive maker p) : ∃ maker q, e = .primitive maker q := by
  unfold heardPrimitive at h
  split at h
  · exact ⟨maker, p, List.mem_singleton.1 h⟩
  · cases h

theorem Geometry.track_of_fires {g : Geometry} {w : Window Primitive} {fired : Fired}
    (h : Policy.Fires g w fired) : fired.track = none := by
  cases h with
  | passed => rfl
  | left h => exact Settings.track_of_aggregates h
  | full h =>
    change g.evaluate w _ = _ at h
    rw [evaluate, Option.or_eq_some_iff, Option.or_eq_some_iff] at h
    rcases h with h | ⟨-, h | ⟨-, h⟩⟩
    · exact Settings.track_of_aggregates h
    · unfold evaluateAdjacency at h
      split at h
      · obtain rfl := Option.some.inj h
        rfl
      · cases h
    · unfold evaluateTot at h
      split at h
      · obtain rfl := Option.some.inj h
        rfl
      · cases h

theorem Geometry.tellsOutputs (g : Geometry) : TellsOutputs g (WindowTold g.name) :=
  tellsWindows keepsElements (fun _ _ h => Settings.heardPrimitive_cases h)
    fun _ _ h => track_of_fires h

theorem Grouping.track_of_fires {g : Grouping} {w : Window Activity} {fired : Fired}
    (h : Policy.Fires g w fired) : fired.track = none := by
  cases h with
  | passed => rfl
  | left h => exact Settings.track_of_aggregates h
  | full h =>
    change g.evaluate w = _ at h
    rw [evaluate, Option.or_eq_some_iff] at h
    rcases h with h | ⟨-, h⟩
    · exact Settings.track_of_aggregates h
    · split at h
      · obtain rfl := Option.some.inj h
        rfl
      · cases h

theorem Grouping.tellsOutputs (g : Grouping) : TellsOutputs g (WindowTold name) :=
  tellsWindows keepsElements (fun _ _ h => nomatch h) fun _ _ h => track_of_fires h

theorem Shape.tellsOutputs (p : Shape) : TellsOutputs p (TrackTold p) where
  keeps := keepsElements
  heard _ _ h := Settings.heardPrimitive_cases h
  told w fired r a hw hinputs hfires ha hrecord := by
    obtain ⟨hmirrors, hadjacency⟩ := mirrors_of_record hw hinputs hrecord ha
    cases hfires with
    | passed h => cases h
    | left h => cases h
    | full h =>
      change p.evaluate w = _ at h
      unfold evaluate at h
      split at h
      · dsimp only at h
        split at h
        · obtain rfl := Option.some.inj h
          have hsame : a.inputs = w.inputs := ha
          have hhits := (p.test.run w.inputs).hits_record name p.test.widths
          refine ⟨r, _, rfl, hmirrors, ⟨rfl, ?_, ?_, fun hcount => ?_⟩⟩
          · rw [hhits, hsame]
            exact p.test.longestTrack_subperm w.inputs
          · rw [hadjacency, hsame]
            rfl
          · rw [hsame] at hcount
            rw [hadjacency, hhits]
            exact congrArg some
              (p.test.distinctChannels_longestTrack (Nat.le_of_lt_succ hcount)).symm
        · cases h
      · cases h

/-! ## The transcript -/

/-- The windows of a transcript are those of the outputs, one for one. -/
theorem Transcript.windows {τ ο : Type} [Element τ] [Summed τ] [Cluster ο τ] {maker : String}
    {tells : List Event → ο → Prop}
    (htells : ∀ told o, tells told o → ∃ r, told.filterMap Event.window? = [r] ∧ Mirrors maker r o)
    {events : List Event} {outputs : List ο} (h : Transcript tells events outputs) :
    List.Forall₂ (Mirrors maker) (events.filterMap Event.window?) outputs := by
  induction h with
  | nil => exact .nil
  | heard _ ih => exact ih
  | told htold _ ih =>
    obtain ⟨r, hwindow, hmirrors⟩ := htells _ _ htold
    rw [List.filterMap_append, hwindow]
    exact .cons hmirrors ih

/-- With a sink in memory from the first call on, what the sink is told of any calls that go through
    is a transcript of their outputs. -/
def Transcribes {π τ ο : Type} [Element τ] [Policy π τ ο] [Summed τ] [Cluster ο τ] (p : π)
    (tells : List Event → ο → Prop) : Prop :=
  ∀ (cs : List (Call τ)) (steps : List (Step (Recorded (Windowed π τ)) ο)),
    Maker.run (Recorded.watched ({ policy := p } : Windowed π τ) #[]) cs = .ok steps →
    ∃ events : Array Event,
      (Maker.after (Recorded.watched ({ policy := p } : Windowed π τ) #[]) steps).sink =
        some (.memory events) ∧
      Transcript tells events.toList (Maker.outputs steps) ∧
      List.Forall₂ (Mirrors (Policy.name p)) (events.toList.filterMap Event.window?)
        (Maker.outputs steps)

theorem TellsOutputs.transcribes {π τ ο : Type} [Element τ] [Policy π τ ο] [Summed τ]
    [Cluster ο τ] [ListPolicy π τ ο] [LawfulPolicy π τ ο] {p : π} {tells : List Event → ο → Prop}
    (hp : TellsOutputs p tells) (hvalid : (Policy.settings p).validate = .ok ())
    (htells : ∀ told o, tells told o →
      ∃ r, told.filterMap Event.window? = [r] ∧ Mirrors (Policy.name p) r o) :
    Transcribes p tells := by
  intro cs steps hrun
  obtain ⟨more, hsink, hmore⟩ := hp.transcript_of_run (Windowed.valid_fresh hvalid) rfl hrun
  have hevents : ((#[] : Array Event) ++ more).toList = more := by simp
  refine ⟨_, hsink, ?_, ?_⟩
  · rw [hevents]
    exact hmore
  · rw [hevents]
    exact hmore.windows htells

theorem WindowTold.window {τ ο : Type} [Element τ] [Summed τ] [Cluster ο τ] {maker : String}
    {told : List Event} {o : ο} (h : WindowTold maker told o) :
    ∃ r, told.filterMap Event.window? = [r] ∧ Mirrors maker r o := by
  obtain ⟨r, rfl, hmirrors⟩ := h
  exact ⟨r, rfl, hmirrors⟩

theorem TrackTold.window {p : Shape} {told : List Event} {a : Activity} (h : TrackTold p told a) :
    ∃ r, told.filterMap Event.window? = [r] ∧ Mirrors Shape.name r a := by
  obtain ⟨r, t, rfl, hmirrors, -⟩ := h
  exact ⟨r, rfl, hmirrors⟩

/-- With settings in range and a sink in memory from the first call on, a windowed maker tells of
    each output the window that it was made of; only the maker of shapes tells of a track as well,
    right behind each window. -/
theorem debug_events_mirror_outputs (s : Settings) (hs : s.validate = .ok ()) :
    Transcribes (Geometry.horizontal s) (WindowTold (Geometry.horizontal s).name) ∧
      Transcribes (Geometry.charge s) (WindowTold (Geometry.charge s).name) ∧
      Transcribes ({ settings := s } : Shape) (TrackTold { settings := s }) ∧
      Transcribes ({ settings := s } : Grouping) (WindowTold Grouping.name) :=
  ⟨(Geometry.tellsOutputs _).transcribes hs fun _ _ h => h.window,
    (Geometry.tellsOutputs _).transcribes ((Geometry.validate_charge s).trans hs)
      fun _ _ h => h.window,
    (Shape.tellsOutputs _).transcribes hs fun _ _ h => h.window,
    (Grouping.tellsOutputs _).transcribes hs fun _ _ h => h.window⟩

/-! ## Two runs -/

/-- Three hits on neighbouring channels, with most of the charge on the first. -/
def stoppingTrack : List Primitive := [.hit 1 0 900, .hit 2 10 10, .hit 3 20 10]

/-- The activity that they become. -/
def stoppingActivity : Activity :=
  .spanning .michelElectron 0 20 920 (.hit 1 0 900) [.hit 2 10 10, .hit 3 20 10]

/-- Calls with the three hits, and with one that is too late for their window. -/
def stoppingCalls : List (Call Primitive) :=
  [.process (.hit 1 0 900), .process (.hit 2 10 10), .process (.hit 3 20 10),
    .process (.hit 9 5000 10)]

/-- A shape that takes three channels for a track. -/
def shortTracks : Shape := { settings := { adjacencyThreshold := 2, windowLength := 100 } }

theorem longestRun_stoppingTrack :
    shortTracks.test.scanner.longestRun (stoppingTrack.map (·.channel)) = 3 := by
  have hsorted : (stoppingTrack.map (·.channel)).Pairwise fun a b => decide (a ≤ b) = true := by
    decide
  rw [Scanner.longestRun, List.mergeSort_of_pairwise hsorted]
  decide

theorem endPeaked_stoppingTrack : (shortTracks.test.run stoppingTrack).endPeaked = true := by
  have hsorted : ProfileTest.hitsInOrder stoppingTrack = stoppingTrack.map .ofPrimitive :=
    List.mergeSort_of_pairwise (by decide)
  unfold ProfileTest.run ProfileTest.longestTrack
  rw [hsorted]
  decide +kernel

theorem shortTracks_fires : ∃ fired, shortTracks.firesOn stoppingTrack = some fired := by
  have hlong : shortTracks.settings.adjacencyThreshold <
      shortTracks.test.scanner.longestRun (Window.channelsOf stoppingTrack) := by
    have hthree : shortTracks.test.scanner.longestRun (Window.channelsOf stoppingTrack) = 3 :=
      longestRun_stoppingTrack
    rw [hthree]
    decide
  exact ⟨_, if_pos ⟨rfl, hlong, endPeaked_stoppingTrack⟩⟩

theorem records_stoppingCalls :
    (({ policy := shortTracks } : Reference Shape Primitive).run stoppingCalls).flatMap
      (·.records) = [some stoppingActivity] := by
  obtain ⟨fired, hfires⟩ := shortTracks_fires
  let holding (xs : List Primitive) : Reference Shape Primitive :=
    { policy := shortTracks, residents := xs, statistics := { inputs := xs.length } }
  have hheld : ∀ xs, (holding xs).residents = xs := fun _ => rfl
  have hfirst : (holding []).process (.hit 1 0 900) = { next := holding [.hit 1 0 900] } :=
    Reference.process_seeded rfl rfl
  have hsecond : (holding [.hit 1 0 900]).process (.hit 2 10 10) =
      { next := holding [.hit 1 0 900, .hit 2 10 10] } :=
    Reference.process_admitted (hheld _) (by decide)
  have hthird : (holding [.hit 1 0 900, .hit 2 10 10]).process (.hit 3 20 10) =
      { next := holding stoppingTrack } :=
    Reference.process_admitted (hheld _) (by decide)
  have hlate : (holding stoppingTrack).process (.hit 9 5000 10) =
      (holding stoppingTrack).heard.fire fired [.hit 9 5000 10] :=
    Reference.process_fired (hheld stoppingTrack) (by decide) hfires
  have hrecord : ListPolicy.record? shortTracks stoppingTrack = some stoppingActivity := by
    decide +kernel
  show ((holding []).run stoppingCalls).flatMap _ = _
  simp only [stoppingCalls, Reference.run, Reference.call, hfirst, hsecond, hthird, hlate]
  rw [← hrecord]
  rfl

/-- Without a sink the calls go through, and the hits become the activity. -/
theorem outputs_stoppingCalls : ∃ steps,
    Maker.run ({ policy := shortTracks } : Windowed Shape Primitive) stoppingCalls = .ok steps ∧
      Maker.outputs steps = [stoppingActivity] := by
  have hvalid : shortTracks.settings.validate = .ok () := Settings.validate_eq_ok_iff.2 (by decide)
  have hrefines : Refines shortTracks := refines_of_validate hvalid
  obtain ⟨steps, hrun⟩ :=
    (hrefines.goesThrough stoppingCalls).2 (Shape.fitsAll (by decide) (by decide))
  have hrecords := congrArg (List.flatMap Prod.fst) (hrefines.agrees _ steps hrun)
  rw [List.flatMap_map, List.flatMap_map, records_stoppingCalls] at hrecords
  refine ⟨steps, hrun, List.map_injective_iff.2 (fun _ _ => Option.some.inj) ?_⟩
  rw [Maker.outputs, List.map_flatMap]
  exact hrecords

/-- Two hits above the threshold together and a later one: a sink is told of one window, which is
    that of the activity. Of a track that stops on its first channel, the sink is told as well. -/
theorem window_and_track_told :
    (Settings.withAdcTrigger {} 100).validate = .ok () ∧
      (∃ steps,
        Maker.run (Recorded.watched
            ({ policy := Geometry.charge (.withAdcTrigger {} 100) } : Windowed Geometry Primitive)
            #[])
          [.process (.hit 1 0 60), .process (.hit 2 10 60), .process (.hit 3 9000 10)] =
          .ok steps ∧
        (Maker.outputs steps).map (·.inputs) = [[.hit 1 0 60, .hit 2 10 60]] ∧
        ∃ events : Array Event,
          (Maker.after (Recorded.watched ({ policy := Geometry.charge (.withAdcTrigger {} 100) } :
            Windowed Geometry Primitive) #[]) steps).sink = some (.memory events) ∧
          List.Forall₂ (Mirrors (Geometry.charge (.withAdcTrigger {} 100)).name)
            (events.toList.filterMap Event.window?) (Maker.outputs steps)) ∧
      shortTracks.settings.validate = .ok () ∧
      ∃ steps,
        Maker.run (Recorded.watched ({ policy := shortTracks } : Windowed Shape Primitive) #[])
          stoppingCalls = .ok steps ∧
        Maker.outputs steps = [stoppingActivity] ∧
        ∃ (events : Array Event) (r : WindowRecord) (t : TrackRecord),
          (Maker.after (Recorded.watched ({ policy := shortTracks } : Windowed Shape Primitive)
            #[]) steps).sink = some (.memory events) ∧
          [.window r, .track t] <:+: events.toList ∧ Mirrors Shape.name r stoppingActivity ∧
          Traces shortTracks t r stoppingActivity ∧ r.adjacency = some 3 := by
  have hvalid : (Settings.withAdcTrigger {} 100).validate = .ok () :=
    Settings.validate_eq_ok_iff.2 (by decide)
  have hshort : shortTracks.settings.validate = .ok () :=
    Settings.validate_eq_ok_iff.2 (by decide)
  refine ⟨hvalid, ?_, hshort, ?_⟩
  · have houtputs : (Maker.run (Recorded.watched
        ({ policy := Geometry.charge (.withAdcTrigger {} 100) } : Windowed Geometry Primitive) #[])
        [.process (.hit 1 0 60), .process (.hit 2 10 60), .process (.hit 3 9000 10)]).map
          (fun steps => (Maker.outputs steps).map (·.inputs)) =
        .ok [[.hit 1 0 60, .hit 2 10 60]] := rfl
    obtain ⟨steps, hrun, houtputs⟩ := Checked.map_eq_ok_iff.1 houtputs
    obtain ⟨events, hsink, -, hwindows⟩ := (debug_events_mirror_outputs _ hvalid).2.1 _ steps hrun
    exact ⟨steps, hrun, houtputs, events, hsink, hwindows⟩
  · have hsums : ChangesOnlySums shortTracks :=
      changesOnlySums_of_keepsElements Shape.keepsElements shortTracks
    obtain ⟨steps₀, hrun₀, houtputs₀⟩ := outputs_stoppingCalls
    have hfits : ∀ a ∈ Maker.outputs steps₀, TotFits (Cluster.elements a) := by
      rw [houtputs₀]
      decide
    obtain ⟨steps, hrun⟩ := (hsums.goesThrough #[] stoppingCalls).2 ⟨steps₀, hrun₀, hfits⟩
    have houtputs : Maker.outputs steps = [stoppingActivity] := by
      have hsame := congrArg (List.flatMap Prod.fst) (hsums.agrees #[] _ steps₀ steps hrun hrun₀)
      rw [List.flatMap_map, List.flatMap_map] at hsame
      exact hsame.trans houtputs₀
    obtain ⟨events, hsink, htranscript, -⟩ :=
      (debug_events_mirror_outputs _ hshort).2.2.1 stoppingCalls steps hrun
    obtain ⟨told, ⟨r, t, rfl, hmirrors, htraces⟩, hinfix⟩ :=
      htranscript.infix_of_mem (houtputs ▸ List.mem_singleton_self stoppingActivity)
    refine ⟨steps, hrun, houtputs, events, r, t, hsink, hinfix, hmirrors, htraces, ?_⟩
    rw [htraces.adjacency]
    exact congrArg some longestRun_stoppingTrack

end TriggerChain
