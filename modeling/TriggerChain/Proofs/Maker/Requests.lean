import TriggerChain.Proofs.Maker.Counters

/-!
# Requests

Between its calls a maker may be asked to take settings. The first input locks it: from then on all
settings are refused, good or bad. Before that the last settings that were taken are the only ones
that matter. A maker that has heard no input is what its kind makes of its settings, whatever
settings it had before and however often its stream was ended, so that nobody can tell it from a
new one.

Main statement: `settings_are_locked_by_first_input`.
-/

namespace TriggerChain

/-- Settings are out of range only because some keys are. -/
theorem Settings.rejected_of_validate {s : Settings} {e : SettingsError}
    (h : s.validate = .error e) : ∃ rs, e = .rejected rs := by
  unfold validate at h
  split at h
  · cases h
  · exact ⟨_, (Except.error.inj h).symm⟩

/-! ## Requests and answers -/

/-- What a maker may be asked: to take settings, or a call. -/
inductive Request (ι : Type) where
  | configure (s : Settings)
  | call (c : Call ι)

/-- The calls among some requests. -/
def Request.calls {ι : Type} (rs : List (Request ι)) : List (Call ι) :=
  rs.filterMap fun
    | configure _ => none
    | call c => some c

/-- What comes of a request. -/
inductive Answer (ο : Type) where
  /-- The settings are taken. -/
  | taken (notices : List Notice)
  /-- The settings are refused. -/
  | refused (e : SettingsError)
  /-- The call returns its outputs, and leaves the counters behind. -/
  | returned (outputs : List ο) (statistics : Statistics)

namespace Maker

variable {μ ι ο : Type} [Maker μ ι ο]

/-- Asks a maker. Settings that are refused leave the maker as it was. -/
def serve (m : μ) : Request ι → Except Fault (μ × Answer ο)
  | .configure s =>
    match Maker.configure m s with
    | .ok (m', notices) => .ok (m', .taken notices)
    | .error (.stopped fault) => .error fault
    | .error e => .ok (m, .refused e)
  | .call c => (call m c).map fun step =>
    (step.maker, .returned step.outputs (statistics step.maker))

/-- Asks a maker one thing after the other, until a request stops. -/
def serveAll (m : μ) : List (Request ι) → Except Fault (μ × List (Answer ο))
  | [] => .ok (m, [])
  | r :: rs => do
    let (m, answer) ← serve m r
    let (m, answers) ← serveAll m rs
    return (m, answer :: answers)

theorem serveAll_cons_eq_ok_iff {m m' : μ} {r : Request ι} {rs : List (Request ι)}
    {answers : List (Answer ο)} :
    serveAll m (r :: rs) = .ok (m', answers) ↔
      ∃ next answer rest, serve m r = .ok (next, answer) ∧
        serveAll next rs = .ok (m', rest) ∧ answers = answer :: rest := by
  rw [serveAll, Checked.bind_eq_ok_iff]
  constructor
  · rintro ⟨⟨next, answer⟩, hserve, h⟩
    obtain ⟨⟨last, rest⟩, hrest, h⟩ := Checked.bind_eq_ok_iff.1 h
    obtain ⟨rfl, rfl⟩ := Prod.mk.inj (Except.ok.inj h)
    exact ⟨next, answer, rest, hserve, hrest, rfl⟩
  · rintro ⟨next, answer, rest, hserve, hrest, rfl⟩
    refine ⟨(next, answer), hserve, ?_⟩
    exact Checked.bind_eq_ok_iff.2 ⟨(m', rest), hrest, rfl⟩

/-! ## What the makers of a kind have in common -/

/-- The makers of one kind: each input is counted and locks the settings, and a maker that has heard
    no input is what the kind makes of its settings, if there is room for that. -/
structure Family (name : String) (made : Settings → μ) (room : Settings → Except Fault Unit) :
    Prop where
  inputs_call : ∀ (m : μ) (c : Call ι) (step : Step μ ο), call m c = .ok step →
    (statistics step.maker).inputs = (statistics m).inputs + c.input?.toList.length
  name_call : ∀ (m : μ) (c : Call ι) (step : Step μ ο), call m c = .ok step →
    Maker.name step.maker = Maker.name m
  locked : ∀ (m : μ) t, 0 < (statistics m).inputs →
    Maker.configure m t = .error (.locked (Maker.name m) (statistics m).inputs)
  name_made : ∀ s, Maker.name (made s) = name
  inputs_made : ∀ s, (statistics (made s)).inputs = 0
  flush_made : ∀ s (step : Step μ ο), Maker.flush (made s) = .ok step → step.maker = made s
  configure_made : ∃ notices : Settings → List Notice, ∀ s t, Maker.configure (made s) t = do
    t.validate
    (room t).mapError .stopped
    return (made t, notices t)

/-- How far a maker of a kind is after some inputs. -/
inductive Stage (name : String) (made : Settings → μ) : Nat → μ → Prop
  /-- Nobody can tell it from a new one. -/
  | pristine (s : Settings) : Stage name made 0 (made s)
  /-- It is locked. -/
  | locked {heard : Nat} {m : μ} (hheard : 0 < heard) (hname : Maker.name m = name)
      (hinputs : (statistics m).inputs = heard) : Stage name made heard m

variable {name : String} {made : Settings → μ} {room : Settings → Except Fault Unit}

/-- What comes of settings on a maker that has heard no input. -/
inductive Renewal (made : Settings → μ) (room : Settings → Except Fault Unit)
    (notices : Settings → List Notice) (s t : Settings) : Prop
  | refused {e : SettingsError} (ht : t.validate = .error e)
      (hserve : serve (made s) (.configure t) = .ok (made s, .refused e))
  | stopped {fault : Fault} (ht : t.validate = .ok ()) (hroom : room t = .error fault)
      (hserve : serve (made s) (.configure t) = .error fault)
  | taken (ht : t.validate = .ok ()) (hroom : room t = .ok ())
      (hserve : serve (made s) (.configure t) = .ok (made t, .taken (notices t)))

theorem Family.renewal (hfamily : Family name made room) :
    ∃ notices, ∀ s t, Renewal made room notices s t := by
  obtain ⟨notices, hconfigure⟩ := hfamily.configure_made
  refine ⟨notices, fun s t => ?_⟩
  cases ht : t.validate with
  | error e =>
    refine .refused ht ?_
    obtain ⟨rs, rfl⟩ := Settings.rejected_of_validate ht
    rw [serve, hconfigure, ht]
    rfl
  | ok u =>
    cases hroom : room t with
    | error fault =>
      refine .stopped ht hroom ?_
      rw [serve, hconfigure, ht, hroom]
      rfl
    | ok u =>
      refine .taken ht hroom ?_
      rw [serve, hconfigure, ht, hroom]
      rfl

/-- Nothing of the settings before is left in what comes of settings in range. -/
theorem Family.serve_eq (hfamily : Family name made room) {t : Settings}
    (ht : t.validate = .ok ()) (s s' : Settings) :
    serve (made s) (.configure t) = serve (made s') (.configure t) := by
  obtain ⟨notices, hconfigure⟩ := hfamily.configure_made
  rw [serve, serve, hconfigure, hconfigure, ht]
  cases room t <;> rfl

theorem Family.serve_locked (hfamily : Family name made room) {m : μ}
    (hheard : 0 < (statistics m).inputs) (t : Settings) :
    serve m (.configure t) = .ok (m, .refused (.locked (Maker.name m) (statistics m).inputs)) := by
  rw [serve, hfamily.locked m t hheard]

/-- A request leaves a maker of a kind at one of its stages. -/
theorem Stage.serve (hfamily : Family name made room) {heard : Nat} {m m' : μ}
    (hm : Stage name made heard m) {r : Request ι} {answer : Answer ο}
    (h : Maker.serve m r = .ok (m', answer)) :
    Stage name made (heard + (Call.inputs (Request.calls [r])).length) m' := by
  cases r with
  | configure t =>
    change Stage name made heard m'
    cases hm with
    | pristine s =>
      obtain ⟨notices, hrenewal⟩ := hfamily.renewal
      cases hrenewal s t with
      | refused _ hserve =>
        obtain ⟨rfl, -⟩ := Prod.mk.inj (Except.ok.inj (hserve.symm.trans h))
        exact .pristine s
      | stopped _ _ hserve => exact (Checked.false_of_ok_error h hserve).elim
      | taken _ _ hserve =>
        obtain ⟨rfl, -⟩ := Prod.mk.inj (Except.ok.inj (hserve.symm.trans h))
        exact .pristine t
    | locked hheard hname hinputs =>
      rw [hfamily.serve_locked (hinputs ▸ hheard)] at h
      obtain ⟨rfl, -⟩ := Prod.mk.inj (Except.ok.inj h)
      exact .locked hheard hname hinputs
  | call c =>
    obtain ⟨step, hstep, hend⟩ := Checked.map_eq_ok_iff.1 h
    obtain ⟨rfl, -⟩ := Prod.mk.inj hend
    have hinputs := hfamily.inputs_call m c step hstep
    have hname := hfamily.name_call m c step hstep
    cases hm with
    | pristine s =>
      cases c with
      | process x =>
        rw [hfamily.inputs_made] at hinputs
        exact .locked Nat.one_pos (hname.trans (hfamily.name_made s)) hinputs
      | flush =>
        -- There is nothing in the maker that the end of a stream could clear.
        rw [hfamily.flush_made s step hstep]
        exact .pristine s
    | locked hheard hname' hinputs' =>
      rw [hinputs'] at hinputs
      refine .locked (Nat.lt_of_lt_of_le hheard (Nat.le_add_right _ _)) (hname.trans hname') ?_
      rw [hinputs]
      cases c <;> rfl

theorem Stage.serveAll (hfamily : Family name made room) {heard : Nat} {m m' : μ}
    (hm : Stage name made heard m) {rs : List (Request ι)} {answers : List (Answer ο)}
    (h : Maker.serveAll m rs = .ok (m', answers)) :
    Stage name made (heard + (Call.inputs (Request.calls rs)).length) m' := by
  induction rs generalizing heard m answers with
  | nil =>
    obtain ⟨rfl, -⟩ := Prod.mk.inj (Except.ok.inj h)
    exact hm
  | cons r rs ih =>
    obtain ⟨next, answer, rest, hserve, hrest, -⟩ := serveAll_cons_eq_ok_iff.1 h
    have hlast := ih (hm.serve hfamily hserve) hrest
    have hsplit : Call.inputs (Request.calls (r :: rs)) =
        Call.inputs (Request.calls [r]) ++ Call.inputs (Request.calls rs) := by
      cases r with
      | configure => rfl
      | call c => exact Call.inputs_cons c _
    rwa [hsplit, List.length_append, ← Nat.add_assoc]

/-! ## Locked settings -/

/-- What comes of settings, once a maker of a kind has heard some inputs. -/
structure SettingsLock (name : String) (made : Settings → μ) (room : Settings → Except Fault Unit)
    (m : μ) (heard : Nat) : Prop where
  /-- After the first input all settings are refused, good or bad, and change nothing. -/
  locked : 0 < heard → ∀ t, serve m (.configure t) = .ok (m, .refused (.locked name heard))
  /-- Before it, settings out of range are refused for their range, and change nothing. -/
  refused : heard = 0 → ∀ t e, t.validate = .error e →
    serve m (.configure t) = .ok (m, .refused e)
  /-- Settings in range are taken and make a new maker, if there is room for it. -/
  taken : heard = 0 → ∀ t, t.validate = .ok () → room t = .ok () →
    ∃ notices, serve m (.configure t) = .ok (made t, .taken notices)
  /-- What comes of them, and of all requests after them, is what comes of them on a maker that was
      just made. -/
  lastWins : heard = 0 → ∀ t, t.validate = .ok () → ∀ (s : Settings) (later : List (Request ι)),
    serveAll m (.configure t :: later) = serveAll (made s) (.configure t :: later)

theorem Stage.settingsLock (hfamily : Family name made room) {heard : Nat} {m : μ}
    (hm : Stage name made heard m) : SettingsLock name made room m heard := by
  obtain ⟨notices, hrenewal⟩ := hfamily.renewal
  cases hm with
  | pristine s =>
    refine ⟨fun hheard => absurd hheard (Nat.lt_irrefl 0), ?_, ?_, ?_⟩
    · intro _ t e ht
      cases hrenewal s t with
      | refused ht' hserve =>
        obtain rfl := Except.error.inj (ht.symm.trans ht')
        exact hserve
      | stopped ht' => exact (Checked.false_of_ok_error ht' ht).elim
      | taken ht' => exact (Checked.false_of_ok_error ht' ht).elim
    · intro _ t ht hroom
      cases hrenewal s t with
      | refused ht' => exact (Checked.false_of_ok_error ht ht').elim
      | stopped _ hroom' => exact (Checked.false_of_ok_error hroom hroom').elim
      | taken _ _ hserve => exact ⟨notices t, hserve⟩
    · intro _ t ht s' later
      rw [Maker.serveAll, Maker.serveAll, hfamily.serve_eq ht s s']
  | locked hheard hname hinputs =>
    have hne := Nat.ne_of_gt hheard
    refine ⟨?_, fun h => absurd h hne, fun h => absurd h hne, fun h => absurd h hne⟩
    intro _ t
    rw [hfamily.serve_locked (hinputs ▸ hheard), hname, hinputs]

/-- After any requests to a maker that had heard no input, its settings are locked by the inputs
    among them. -/
theorem Family.settingsLock_of_serveAll (hfamily : Family name made room) {s : Settings}
    {rs : List (Request ι)} {m : μ} {answers : List (Answer ο)}
    (h : serveAll (made s) rs = .ok (m, answers)) :
    SettingsLock name made room m (Call.inputs (Request.calls rs)).length := by
  have hstage := (Stage.pristine s).serveAll hfamily h
  rw [Nat.zero_add] at hstage
  exact hstage.settingsLock hfamily

end Maker

/-! ## Inputs and names -/

section Windowed

variable {π τ ο : Type} [Element τ] [Policy π τ ο]

theorem Windowed.inputs_of_call {m : Windowed π τ} {c : Call τ} {step : Step (Windowed π τ) ο}
    (h : Maker.call m c = .ok step) :
    step.maker.statistics.inputs = m.statistics.inputs + c.input?.toList.length := by
  cases c with
  | process x =>
    cases processed_of_process h with
    | seeded => rfl
    | admitted => rfl
    | slid => rfl
    | passed _ _ _ hemitted => exact hemitted.advances.2
    | fired _ _ _ hemitted => exact hemitted.advances.2
  | flush =>
    cases flushed_of_flush h with
    | idle => rfl
    | left => rfl
    | fired _ _ hemitted => exact hemitted.advances.2

end Windowed

theorem Prescaler.inputs_of_call {ι ο : Type} [Promotable ι ο] {m : Prescaler ι} {c : Call ι}
    {step : Step (Prescaler ι) ο} (h : Maker.call m c = .ok step) :
    step.maker.statistics.inputs = m.statistics.inputs + c.input?.toList.length := by
  cases c with
  | process x => cases processed_of_process h <;> rfl
  | flush =>
    obtain rfl := Except.ok.inj h
    rfl

theorem Bundler.inputs_of_call {m : Bundler} {c : Call Activity} {step : Step Bundler Candidate}
    (h : Maker.call m c = .ok step) :
    step.maker.statistics.inputs = m.statistics.inputs + c.input?.toList.length := by
  cases c with
  | process a => cases processed_of_process h <;> rfl
  | flush =>
    obtain rfl := Except.ok.inj h
    rfl

theorem BurstFinder.inputs_of_call {m : BurstFinder} {c : Call Activity}
    {step : Step BurstFinder Candidate} (h : Maker.call m c = .ok step) :
    step.maker.statistics.inputs = m.statistics.inputs + c.input?.toList.length := by
  cases c with
  | process a => cases processed_of_process h <;> rfl
  | flush =>
    obtain rfl := Except.ok.inj h
    rfl

/-! ## Settings that are accepted -/

namespace Settings

variable {ρ σ : Type} {s : Settings} {maker : String} {made : ρ} {seen : ρ → σ}

/-- Once an input has been heard, settings are not even looked at. -/
theorem map_accept_locked {stats : Statistics} (hheard : 0 < stats.inputs) :
    Except.map seen (do s.acceptFor maker stats; return made) =
      .error (.locked maker stats.inputs) := by
  have haccept : s.acceptFor maker stats = .error (.locked maker stats.inputs) := if_pos hheard
  rw [haccept]
  rfl

/-- Before that, they are accepted if they are in range. -/
theorem map_accept_fresh :
    Except.map seen (do s.acceptFor maker {}; return made) = do
      s.validate
      (Except.ok () : Except Fault Unit).mapError .stopped
      return seen made := by
  have haccept : s.acceptFor maker {} = s.validate := rfl
  rw [haccept]
  cases s.validate <;> rfl

end Settings

/-! ## Activity makers -/

namespace ActivityMaker

theorem inputs_of_call {m : ActivityMaker} {c : Call Primitive}
    {step : Step ActivityMaker Activity} (h : Maker.call m c = .ok step) :
    (Maker.statistics step.maker).inputs =
      (Maker.statistics m).inputs + c.input?.toList.length := by
  cases m with
  | geometry m =>
    obtain ⟨step, hstep, rfl⟩ := embeds_geometry.call_eq_ok h
    exact Windowed.inputs_of_call hstep
  | shape m =>
    obtain ⟨step, hstep, rfl⟩ := embeds_shape.call_eq_ok h
    exact Windowed.inputs_of_call hstep
  | prescale m =>
    obtain ⟨step, hstep, rfl⟩ := embeds_prescale.call_eq_ok h
    exact Prescaler.inputs_of_call hstep

theorem name_of_call {m : ActivityMaker} {c : Call Primitive}
    {step : Step ActivityMaker Activity} (h : Maker.call m c = .ok step) :
    Maker.name step.maker = Maker.name m := by
  cases m with
  | geometry m =>
    obtain ⟨step, hstep, rfl⟩ := embeds_geometry.call_eq_ok h
    exact congrArg Geometry.name (Windowed.advances_of_call hstep).2
  | shape m =>
    obtain ⟨step, hstep, rfl⟩ := embeds_shape.call_eq_ok h
    rfl
  | prescale m =>
    obtain ⟨step, hstep, rfl⟩ := embeds_prescale.call_eq_ok h
    rfl

theorem locked {m : ActivityMaker} {s : Settings} (h : 0 < (Maker.statistics m).inputs) :
    Maker.configure m s = .error (.locked (Maker.name m) (Maker.statistics m).inputs) := by
  cases m with
  | geometry m => exact Settings.map_accept_locked h
  | shape m => exact Settings.map_accept_locked h
  | prescale m => exact Settings.map_accept_locked h

end ActivityMaker

theorem ActivityMakerKind.family (kind : ActivityMakerKind) :
    Maker.Family kind.name kind.made fun _ => .ok () where
  inputs_call _ _ _ h := ActivityMaker.inputs_of_call h
  name_call _ _ _ h := ActivityMaker.name_of_call h
  locked _ _ h := ActivityMaker.locked h
  name_made s := by cases kind <;> rfl
  inputs_made s := by cases kind <;> rfl
  flush_made s step h := by
    cases kind
    all_goals
      obtain rfl := Except.ok.inj h
      rfl
  configure_made := by
    cases kind with
    | adcSimpleWindow =>
      exact ⟨Policy.warnings (Geometry.charge {}), fun _ _ => Settings.map_accept_fresh⟩
    | horizontalMuon =>
      exact ⟨Policy.warnings (Geometry.horizontal {}), fun _ _ => Settings.map_accept_fresh⟩
    | michelElectron =>
      exact ⟨Policy.warnings ({} : Shape), fun _ _ => Settings.map_accept_fresh⟩
    | prescale => exact ⟨fun _ => [], fun _ _ => Settings.map_accept_fresh⟩

/-! ## Candidate makers -/

namespace Bundler

/-- Whether there is room for the bundles of some settings, or what stops there. -/
def room (s : Settings) : Except Fault Unit := (ofSize s.bundleSize s.prescale).map fun _ => ()

/-- A bundler that has heard no input takes settings in range, or stops for lack of room. -/
theorem configure_fresh {m : Bundler} (hm : m.statistics = {}) (t : Settings) :
    Maker.configure m t = do
      t.validate
      (room t).mapError .stopped
      return ({ bundleSize := max t.bundleSize 1, prescale := max t.prescale 1 }, []) := by
  have haccept : t.acceptFor name m.statistics = t.validate := by
    rw [hm]
    rfl
  show (do t.acceptFor name m.statistics; let made ← _; return _) = _
  rw [haccept]
  cases t.validate with
  | error e => rfl
  | ok u =>
    unfold room
    cases hsize : ofSize t.bundleSize t.prescale with
    | error fault => rfl
    | ok made =>
      obtain ⟨-, rfl⟩ := ofSize_eq_ok_iff.1 hsize
      rfl

theorem locked {m : Bundler} (h : 0 < m.statistics.inputs) (t : Settings) :
    Maker.configure m t = .error (.locked name m.statistics.inputs) := by
  have haccept : t.acceptFor name m.statistics = .error (.locked name m.statistics.inputs) :=
    if_pos h
  show (do t.acceptFor name m.statistics; let made ← _; return _) = _
  rw [haccept]
  rfl

end Bundler

namespace CandidateMaker

theorem inputs_of_call {m : CandidateMaker} {c : Call Activity}
    {step : Step CandidateMaker Candidate} (h : Maker.call m c = .ok step) :
    (Maker.statistics step.maker).inputs =
      (Maker.statistics m).inputs + c.input?.toList.length := by
  cases m with
  | grouping m =>
    obtain ⟨step, hstep, rfl⟩ := embeds_grouping.call_eq_ok h
    exact Windowed.inputs_of_call hstep
  | prescale m =>
    obtain ⟨step, hstep, rfl⟩ := embeds_prescale.call_eq_ok h
    exact Prescaler.inputs_of_call hstep
  | bundle m =>
    obtain ⟨step, hstep, rfl⟩ := embeds_bundle.call_eq_ok h
    exact Bundler.inputs_of_call hstep
  | burst m =>
    obtain ⟨step, hstep, rfl⟩ := embeds_burst.call_eq_ok h
    exact BurstFinder.inputs_of_call hstep

theorem name_of_call {m : CandidateMaker} {c : Call Activity}
    {step : Step CandidateMaker Candidate} (h : Maker.call m c = .ok step) :
    Maker.name step.maker = Maker.name m := by
  cases m with
  | grouping m =>
    obtain ⟨step, hstep, rfl⟩ := embeds_grouping.call_eq_ok h
    rfl
  | prescale m =>
    obtain ⟨step, hstep, rfl⟩ := embeds_prescale.call_eq_ok h
    rfl
  | bundle m =>
    obtain ⟨step, hstep, rfl⟩ := embeds_bundle.call_eq_ok h
    rfl
  | burst m =>
    obtain ⟨step, hstep, rfl⟩ := embeds_burst.call_eq_ok h
    rfl

theorem locked {m : CandidateMaker} {s : Settings} (h : 0 < (Maker.statistics m).inputs) :
    Maker.configure m s = .error (.locked (Maker.name m) (Maker.statistics m).inputs) := by
  cases m with
  | grouping m => exact Settings.map_accept_locked h
  | prescale m => exact Settings.map_accept_locked h
  | bundle m => exact congrArg (Except.map _) (Bundler.locked h s)
  | burst m => exact Settings.map_accept_locked h

end CandidateMaker

namespace CandidateMakerKind

/-- Whether there is room for what a kind makes of settings. Room is set aside for bundles only. -/
def room : CandidateMakerKind → Settings → Except Fault Unit
  | bundle => Bundler.room
  | _ => fun _ => .ok ()

theorem family (kind : CandidateMakerKind) : Maker.Family kind.name kind.made kind.room where
  inputs_call _ _ _ h := CandidateMaker.inputs_of_call h
  name_call _ _ _ h := CandidateMaker.name_of_call h
  locked _ _ h := CandidateMaker.locked h
  name_made s := by cases kind <;> rfl
  inputs_made s := by cases kind <;> rfl
  flush_made s step h := by
    cases kind
    all_goals
      obtain rfl := Except.ok.inj h
      rfl
  configure_made := by
    cases kind with
    | bundle =>
      refine ⟨fun _ => [], fun s t => ?_⟩
      show Except.map _ (Maker.configure _ t) =
        (do t.validate; (Bundler.room t).mapError SettingsError.stopped; return _)
      rw [Bundler.configure_fresh rfl]
      cases t.validate with
      | error e => rfl
      | ok u => cases Bundler.room t <;> rfl
    | horizontalMuon =>
      exact ⟨Policy.warnings ({} : Grouping), fun _ _ => Settings.map_accept_fresh⟩
    | prescale => exact ⟨fun _ => [], fun _ _ => Settings.map_accept_fresh⟩
    | supernova => exact ⟨fun _ => [], fun _ _ => Settings.map_accept_fresh⟩

end CandidateMakerKind

/-! ## Makers of either level -/

theorem ActivityMakerKind.fresh_eq_made (kind : ActivityMakerKind) : kind.fresh = kind.made {} := by
  cases kind <;> rfl

theorem CandidateMakerKind.fresh_eq_made (kind : CandidateMakerKind) :
    kind.fresh = kind.made kind.standard := by
  cases kind <;> rfl

/-- After any requests to a maker of any kind that had heard nothing before, with whatever settings
    it was made, its settings are locked exactly by the first input. Before it they are the last
    ones that were taken, and nothing else of what came before matters. -/
theorem settings_are_locked_by_first_input :
    (∀ (kind : ActivityMakerKind) (s : Settings) (rs : List (Request Primitive))
        (m : ActivityMaker) (answers : List (Answer Activity)),
      Maker.serveAll (kind.made s) rs = .ok (m, answers) →
      Maker.SettingsLock kind.name kind.made (fun _ => .ok ()) m
        (Call.inputs (Request.calls rs)).length) ∧
    (∀ (kind : CandidateMakerKind) (s : Settings) (rs : List (Request Activity))
        (m : CandidateMaker) (answers : List (Answer Candidate)),
      Maker.serveAll (kind.made s) rs = .ok (m, answers) →
      Maker.SettingsLock kind.name kind.made kind.room m
        (Call.inputs (Request.calls rs)).length) := by
  constructor
  · intro kind s rs m answers h
    exact kind.family.settingsLock_of_serveAll h
  · intro kind s rs m answers h
    exact kind.family.settingsLock_of_serveAll h

/-- A new maker is asked to take settings, to end its stream, to take settings that are out of
    range, and to take an input. -/
theorem new_maker_locked_by_one_hit :
    ∃ (m : ActivityMaker) (answers : List (Answer Activity)),
      Maker.serveAll ActivityMakerKind.horizontalMuon.fresh
          [.configure { prescale := 2 }, .call .flush, .configure { prescale := 0 },
            .call (.process (.hit 1 0 110))] = .ok (m, answers) ∧
        Maker.SettingsLock ActivityMakerKind.horizontalMuon.name
          ActivityMakerKind.horizontalMuon.made (fun _ => .ok ()) m 1 := by
  have hserve : ∃ outcome, Maker.serveAll ActivityMakerKind.horizontalMuon.fresh
      [.configure { prescale := 2 }, .call .flush, .configure { prescale := 0 },
        .call (.process (.hit 1 0 110))] = .ok outcome := ⟨_, rfl⟩
  obtain ⟨⟨m, answers⟩, hserve⟩ := hserve
  refine ⟨m, answers, hserve, ?_⟩
  rw [ActivityMakerKind.fresh_eq_made] at hserve
  exact settings_are_locked_by_first_input.1 .horizontalMuon {} _ m answers hserve

end TriggerChain
