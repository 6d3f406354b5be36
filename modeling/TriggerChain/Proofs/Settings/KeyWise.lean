import Mathlib.Data.List.Nodup
import TriggerChain.Proofs.Settings.Keys
import TriggerChain.Proofs.Text.ByteOrder

/-!
# Objects laid over settings

A JSON object is laid over settings in two passes: its members are staged one after the other, and
what is staged is checked for its ranges. What comes of it can be said key by key. Each member is
taken or refused on its own, whatever the others are; the settings take all members or none; and the
rejections are those of the members that are refused, one for each, in ascending order of the keys.

Main statement: `overlay_is_keywise`.
-/

namespace TriggerChain

namespace Settings

/-! ## One member -/

/-- Why a member of an object is refused, if it is: its key is no key of settings, or does not take
    its value. -/
def refusalOf? (member : String × Json) : Option Rejection :=
  match SettingsKey.ofName? member.1 with
  | none => some ⟨member.1, .unknownKey⟩
  | some key => (key.refusal? member.2).map (Rejection.mk member.1)

theorem key_of_refusal {m : String × Json} {r : Rejection} (h : refusalOf? m = some r) :
    r.key = m.1 := by
  unfold refusalOf? at h
  split at h
  · obtain rfl := Option.some.inj h
    rfl
  · obtain ⟨reason, -, rfl⟩ := Option.map_eq_some_iff.1 h
    rfl

/-- What staging makes of a member: it is rejected and changes nothing, or it sets the value of its
    key, and is refused if the value is too small. -/
inductive Staging (m : String × Json) : Prop
  | rejected {r : Rejection} (hrejection : rejectionOf? m = some r)
      (hrefusal : refusalOf? m = some r) (hkeeps : ∀ s, applyMember s m = s)
  | staged {key : SettingsKey} (hrejection : rejectionOf? m = none) (hname : m.1 = key.name)
      (hrefusal : refusalOf? m = (key.tooSmall? m.2).map (Rejection.mk key.name))
      (hvalue : ∀ s other,
        (applyMember s m).value other = if other = key then m.2 else s.value other)

theorem staging (m : String × Json) : Staging m := by
  cases hkey : SettingsKey.ofName? m.1 with
  | none =>
    have hchange : change m.1 m.2 = .error .unknownKey := by rw [change, hkey]
    refine .rejected (r := ⟨m.1, .unknownKey⟩) ?_ ?_ fun s => ?_
    · rw [rejectionOf?, hchange]
    · rw [refusalOf?, hkey]
    · rw [applyMember, hchange]
  | some key =>
    obtain ⟨name, j⟩ := m
    obtain rfl : name = key.name := SettingsKey.ofName?_eq_some_iff.1 hkey
    have hrefusal : refusalOf? (key.name, j) =
        ((key.mistyped? j).or (key.tooSmall? j)).map (Rejection.mk key.name) := by
      rw [refusalOf?, hkey, ← key.refusal?_eq]
    unfold SettingsKey.mistyped? at hrefusal
    cases hchange : change key.name j with
    | error reason =>
      rw [hchange] at hrefusal
      refine .rejected (r := ⟨key.name, reason⟩) ?_ hrefusal fun s => ?_
      · rw [rejectionOf?, hchange]
      · rw [applyMember, hchange]
    | ok f =>
      rw [hchange] at hrefusal
      refine .staged ?_ rfl hrefusal fun s other => ?_
      · rw [rejectionOf?, hchange]
      · rw [applyMember, hchange]
        exact value_of_change hchange s other

theorem refusal_of_rejection {m : String × Json} {r : Rejection} (h : rejectionOf? m = some r) :
    refusalOf? m = some r := by
  cases staging m with
  | rejected hrejection hrefusal => exact hrefusal.trans (hrejection.symm.trans h)
  | staged hrejection => cases hrejection.symm.trans h

/-- A member that is not rejected sets the value of its key, and can only be too small. -/
theorem staged_of_not_rejected {m : String × Json} (h : rejectionOf? m = none) :
    ∃ key : SettingsKey, m.1 = key.name ∧
      refusalOf? m = (key.tooSmall? m.2).map (Rejection.mk key.name) ∧
      ∀ s other, (applyMember s m).value other = if other = key then m.2 else s.value other := by
  cases staging m with
  | rejected hrejection => cases hrejection.symm.trans h
  | staged _ hname hrefusal hvalue => exact ⟨_, hname, hrefusal, hvalue⟩

/-! ## What is staged -/

variable {base : Settings} {ms : List (String × Json)}

/-- A key that no staged member names keeps its value. -/
theorem value_of_unstaged {key : SettingsKey}
    (h : ¬ ∃ m ∈ ms, m.1 = key.name ∧ rejectionOf? m = none) (base : Settings) :
    (ms.foldl applyMember base).value key = base.value key := by
  induction ms generalizing base with
  | nil => rfl
  | cons m ms ih =>
    rw [List.foldl_cons, ih fun ⟨m', hm', hstaged⟩ => h ⟨m', List.mem_cons_of_mem m hm', hstaged⟩]
    cases staging m with
    | rejected _ _ hkeeps => rw [hkeeps]
    | @staged key' hrejection hname _ hvalue =>
      have hne : key ≠ key' := by
        rintro rfl
        exact h ⟨m, List.mem_cons_self, hname, hrejection⟩
      rw [hvalue, if_neg hne]

/-- A key that a staged member names has the value of the member. -/
theorem value_of_staged (hkeys : (ms.map (·.1)).Nodup) {m : String × Json} (hm : m ∈ ms)
    {key : SettingsKey} (hname : m.1 = key.name) (hrejection : rejectionOf? m = none)
    (base : Settings) : (ms.foldl applyMember base).value key = m.2 := by
  induction ms generalizing base with
  | nil => cases hm
  | cons m' ms ih =>
    rw [List.map_cons, List.nodup_cons] at hkeys
    rw [List.foldl_cons]
    rcases List.mem_cons.1 hm with rfl | hm
    · -- No later member has the key.
      have hlater : ¬ ∃ m' ∈ ms, m'.1 = key.name ∧ rejectionOf? m' = none := by
        rintro ⟨m', hm', hname', -⟩
        exact hkeys.1 (List.mem_map.2 ⟨m', hm', hname'.trans hname.symm⟩)
      rw [value_of_unstaged hlater]
      obtain ⟨key', hname', -, hvalue⟩ := staged_of_not_rejected hrejection
      obtain rfl := SettingsKey.name_injective (hname.symm.trans hname')
      rw [hvalue, if_pos rfl]
    · exact ih hkeys.2 hm (applyMember base m')

theorem mem_rangeRejections_iff {s : Settings} {r : Rejection} :
    r ∈ s.rangeRejections ↔
      ∃ key : SettingsKey, (key.tooSmall? (s.value key)).map (Rejection.mk key.name) = some r := by
  rw [rangeRejections_eq, List.mem_filterMap]
  exact ⟨fun ⟨key, _, h⟩ => ⟨key, h⟩, fun ⟨key, h⟩ => ⟨key, key.mem_all, h⟩⟩

theorem validate_iff {s : Settings} : s.validate = .ok () ↔ s.rangeRejections = [] := by
  unfold validate
  rw [← List.isEmpty_iff]
  split
  · next h => exact ⟨fun _ => h, fun _ => rfl⟩
  · next h => exact ⟨fun h' => (nomatch h'), fun h' => absurd h' h⟩

/-- The keys out of range are those whose members are staged and refused. -/
theorem mem_rangeRejections_staged (hbase : base.validate = .ok ())
    (hkeys : (ms.map (·.1)).Nodup) {r : Rejection} :
    r ∈ (ms.foldl applyMember base).rangeRejections ↔
      ∃ m ∈ ms, rejectionOf? m = none ∧ refusalOf? m = some r := by
  rw [mem_rangeRejections_iff]
  constructor
  · rintro ⟨key, hsmall⟩
    by_cases hstaged : ∃ m ∈ ms, m.1 = key.name ∧ rejectionOf? m = none
    · obtain ⟨m, hm, hname, hrejection⟩ := hstaged
      rw [value_of_staged hkeys hm hname hrejection] at hsmall
      refine ⟨m, hm, hrejection, ?_⟩
      obtain ⟨key', hname', hrefusal, -⟩ := staged_of_not_rejected hrejection
      obtain rfl := SettingsKey.name_injective (hname.symm.trans hname')
      rw [hrefusal, hsmall]
    · -- The value was there before, and is in range.
      rw [value_of_unstaged hstaged] at hsmall
      have hmem := mem_rangeRejections_iff.2 ⟨key, hsmall⟩
      rw [validate_iff.1 hbase] at hmem
      cases hmem
  · rintro ⟨m, hm, hrejection, hrefused⟩
    obtain ⟨key, hname, hrefusal, -⟩ := staged_of_not_rejected hrejection
    refine ⟨key, ?_⟩
    rw [value_of_staged hkeys hm hname hrejection, ← hrefusal, hrefused]

/-! ## What is reported -/

/-- The rejections of some members, before they are sorted. -/
def reported (base : Settings) (ms : List (String × Json)) : List Rejection :=
  ms.filterMap rejectionOf? ++ (ms.foldl applyMember base).rangeRejections

theorem overlay_object (base : Settings) (ms : List (String × Json)) :
    base.overlay (.object ms) =
      if (base.reported ms).isEmpty then .ok (ms.foldl applyMember base)
      else .error (.rejected (sortRejections (base.reported ms))) := rfl

theorem mem_reported_iff (hbase : base.validate = .ok ()) (hkeys : (ms.map (·.1)).Nodup)
    {r : Rejection} : r ∈ base.reported ms ↔ ∃ m ∈ ms, refusalOf? m = some r := by
  rw [reported, List.mem_append, mem_rangeRejections_staged hbase hkeys, List.mem_filterMap]
  constructor
  · rintro (⟨m, hm, hrejection⟩ | ⟨m, hm, -, hrefusal⟩)
    · exact ⟨m, hm, refusal_of_rejection hrejection⟩
    · exact ⟨m, hm, hrefusal⟩
  · rintro ⟨m, hm, hrefusal⟩
    cases hrejection : rejectionOf? m with
    | none => exact .inr ⟨m, hm, hrejection, hrefusal⟩
    | some r' =>
      refine .inl ⟨m, hm, ?_⟩
      rw [← hrefusal, refusal_of_rejection hrejection, hrejection]

/-- Of some things with names, those that say something have distinct names if all have. -/
theorem nodup_map_filterMap {α β γ : Type} {f : α → Option β} {name : α → γ} {key : β → γ}
    (hkey : ∀ a b, f a = some b → key b = name a) {as : List α} (h : (as.map name).Nodup) :
    ((as.filterMap f).map key).Nodup := by
  have hsub : ((as.filterMap f).map key).Sublist (as.map name) := by
    clear h
    induction as with
    | nil => exact .slnil
    | cons a as ih =>
      rw [List.filterMap_cons, List.map_cons]
      split
      · exact ih.cons (name a)
      · next b hb =>
        rw [List.map_cons, hkey a b hb]
        exact ih.cons_cons (name a)
  exact hsub.nodup h

/-- No key is reported twice. -/
theorem nodup_reported (hbase : base.validate = .ok ()) (hkeys : (ms.map (·.1)).Nodup) :
    ((base.reported ms).map (·.key)).Nodup := by
  rw [reported, List.map_append, List.nodup_append']
  refine ⟨?_, ?_, ?_⟩
  · exact nodup_map_filterMap (fun m r h => key_of_refusal (refusal_of_rejection h)) hkeys
  · rw [rangeRejections_eq]
    have hname : ∀ (key : SettingsKey) (r : Rejection),
        (key.tooSmall? ((ms.foldl applyMember base).value key)).map (Rejection.mk key.name) =
          some r → r.key = key.name := by
      intro key r h
      obtain ⟨reason, -, rfl⟩ := Option.map_eq_some_iff.1 h
      rfl
    exact nodup_map_filterMap hname
      (SettingsKey.nodup_all.map fun _ _ h => SettingsKey.name_injective h)
  · -- A member that is not staged is not looked at again.
    intro k hk hk'
    obtain ⟨r, hr, rfl⟩ := List.mem_map.1 hk
    obtain ⟨r', hr', hkey⟩ := List.mem_map.1 hk'
    obtain ⟨m, hm, hrejection⟩ := List.mem_filterMap.1 hr
    obtain ⟨m', hm', hstaged, hrefusal⟩ := (mem_rangeRejections_staged hbase hkeys).1 hr'
    have hname : m'.1 = m.1 :=
      (key_of_refusal hrefusal).symm.trans
        (hkey.trans (key_of_refusal (refusal_of_rejection hrejection)))
    obtain rfl := List.inj_on_of_nodup_map hkeys hm' hm hname
    cases hstaged.symm.trans hrejection

/-- What is reported are the refusals of the members. -/
theorem reported_perm (hbase : base.validate = .ok ()) (hkeys : (ms.map (·.1)).Nodup) :
    (base.reported ms).Perm (ms.filterMap refusalOf?) := by
  have hrefusals : ((ms.filterMap refusalOf?).map (·.key)).Nodup :=
    nodup_map_filterMap (fun _ _ h => key_of_refusal h) hkeys
  refine (List.perm_ext_iff_of_nodup (nodup_reported hbase hkeys).of_map hrefusals.of_map).2 ?_
  intro r
  rw [mem_reported_iff hbase hkeys, List.mem_filterMap]

/-- What has distinct keys is sorted into strictly ascending order of them. -/
theorem ascending_mergeSort {α : Type} (key : α → String) {as : List α} (h : (as.map key).Nodup) :
    (as.mergeSort fun a b => !decide (key b < key a)).Pairwise fun a b => key a < key b := by
  have hsorted : (as.mergeSort fun a b => !decide (key b < key a)).Pairwise
      fun a b => (!decide (key b < key a)) = true := by
    refine List.pairwise_mergeSort ?_ ?_ as
    · intro a b c hab hbc
      simp only [Bool.not_eq_true', decide_eq_false_iff_not, not_lt] at hab hbc ⊢
      exact le_trans hab hbc
    · intro a b
      simp only [Bool.or_eq_true, Bool.not_eq_true', decide_eq_false_iff_not, not_lt]
      exact le_total (key a) (key b)
  have hnodup : ((as.mergeSort fun a b => !decide (key b < key a)).map key).Nodup :=
    ((List.mergeSort_perm as _).map key).nodup_iff.2 h
  refine (hsorted.and (List.pairwise_map.1 hnodup)).imp fun {a b} hab => ?_
  simp only [Bool.not_eq_true', decide_eq_false_iff_not, not_lt] at hab
  exact lt_of_le_of_ne hab.1 hab.2

/-! ## The whole object -/

theorem isEmpty_reported (hbase : base.validate = .ok ()) (hkeys : (ms.map (·.1)).Nodup) :
    (base.reported ms).isEmpty = true ↔ ∀ m ∈ ms, refusalOf? m = none := by
  rw [List.isEmpty_iff, ← List.length_eq_zero_iff, (reported_perm hbase hkeys).length_eq,
    List.length_eq_zero_iff, List.filterMap_eq_nil_iff]

/-- How laying an object over settings ends: every member is taken, or what the refused members
    are refused for comes back. -/
inductive Outcome (base : Settings) (ms : List (String × Json)) : Prop
  | taken (hmembers : ∀ m ∈ ms, refusalOf? m = none)
      (hend : base.overlay (.object ms) = .ok (ms.foldl applyMember base))
      (hvalid : (ms.foldl applyMember base).validate = .ok ())
  | refused {rs : List Rejection} (hmember : ∃ m ∈ ms, refusalOf? m ≠ none)
      (hend : base.overlay (.object ms) = .error (.rejected rs))
      (hreasons : rs.Perm (ms.filterMap refusalOf?))
      (hascending : rs.Pairwise fun a b => a.key < b.key)

theorem outcome (hbase : base.validate = .ok ()) (hkeys : (ms.map (·.1)).Nodup) :
    Outcome base ms := by
  have hempty := isEmpty_reported hbase hkeys
  by_cases hnone : (base.reported ms).isEmpty = true
  · refine .taken (hempty.1 hnone) ?_ ?_
    · rw [overlay_object, if_pos hnone]
    · rw [List.isEmpty_iff, reported, List.append_eq_nil_iff] at hnone
      exact validate_iff.2 hnone.2
  · have hmember : ∃ m ∈ ms, refusalOf? m ≠ none := by
      by_contra hnot
      push Not at hnot
      exact hnone (hempty.2 hnot)
    have hend : base.overlay (.object ms) =
        .error (.rejected (sortRejections (base.reported ms))) := by
      rw [overlay_object, if_neg hnone]
    have hreasons : (sortRejections (base.reported ms)).Perm (ms.filterMap refusalOf?) :=
      (List.mergeSort_perm _ _).trans (reported_perm hbase hkeys)
    exact .refused hmember hend hreasons
      (ascending_mergeSort Rejection.key (nodup_reported hbase hkeys))

/-- A single member is taken, or refused for its own reason. -/
theorem overlay_single (hbase : base.validate = .ok ()) (m : String × Json) :
    base.overlay (.object [m]) =
      match refusalOf? m with
      | none => .ok (applyMember base m)
      | some r => .error (.rejected [r]) := by
  have hkeys : ([m].map (·.1)).Nodup := List.nodup_singleton m.1
  cases outcome hbase hkeys with
  | taken hmembers hend _ =>
    rw [hmembers m (List.mem_singleton_self m), hend]
    rfl
  | refused hmember hend hreasons _ =>
    obtain ⟨m', hm', hrefused⟩ := hmember
    obtain rfl := List.mem_singleton.1 hm'
    cases hrefusal : refusalOf? m' with
    | none => exact absurd hrefusal hrefused
    | some r =>
      rw [List.filterMap_cons_some hrefusal, List.filterMap_nil, List.perm_singleton] at hreasons
      rw [hend, hreasons]

/-- The rejections of an object with a single member. -/
def rejectionsAlone (base : Settings) (m : String × Json) : List Rejection :=
  match base.overlay (.object [m]) with
  | .error (.rejected rs) => rs
  | _ => []

/-- The members in ascending order of their keys. -/
def sortMembers (ms : List (String × Json)) : List (String × Json) :=
  ms.mergeSort fun a b => !decide (b.1 < a.1)

theorem rejectionsAlone_eq (hbase : base.validate = .ok ()) (m : String × Json) :
    base.rejectionsAlone m = (refusalOf? m).toList := by
  rw [rejectionsAlone, overlay_single hbase]
  cases refusalOf? m <;> rfl

/-- What comes back are the rejections of the single members, one after the other in ascending
    order of the keys. -/
theorem eq_rejectionsAlone (hbase : base.validate = .ok ()) (hkeys : (ms.map (·.1)).Nodup)
    {rs : List Rejection} (hreasons : rs.Perm (ms.filterMap refusalOf?))
    (hascending : rs.Pairwise fun a b => a.key < b.key) :
    rs = (sortMembers ms).flatMap base.rejectionsAlone := by
  have halone : (sortMembers ms).flatMap base.rejectionsAlone =
      (sortMembers ms).filterMap refusalOf? := by
    rw [List.filterMap_eq_flatMap_toList]
    exact List.flatMap_congr fun m _ => rejectionsAlone_eq hbase m
  have hsorted : ((sortMembers ms).filterMap refusalOf?).Pairwise fun a b => a.key < b.key := by
    rw [List.pairwise_filterMap]
    refine (ascending_mergeSort Prod.fst hkeys).imp fun {m m'} hlt r hr r' hr' => ?_
    rwa [key_of_refusal hr, key_of_refusal hr']
  have hperm : rs.Perm ((sortMembers ms).filterMap refusalOf?) :=
    hreasons.trans ((List.mergeSort_perm ms _).filterMap refusalOf?).symm
  rw [halone]
  exact hperm.eq_of_pairwise (fun a b _ _ hab hba => absurd hba (lt_asymm hab)) hascending hsorted

/-! ## One member after the other -/

/-- Members that are all taken can be laid over the settings one at a time. -/
theorem foldlM_overlay (hbase : base.validate = .ok ()) (hmembers : ∀ m ∈ ms, refusalOf? m = none) :
    ms.foldlM (fun s m => s.overlay (.object [m])) base = .ok (ms.foldl applyMember base) := by
  induction ms generalizing base with
  | nil => rfl
  | cons m ms ih =>
    obtain ⟨hm, hms⟩ := List.forall_mem_cons.1 hmembers
    have hkeys : ([m].map (·.1)).Nodup := List.nodup_singleton m.1
    cases outcome hbase hkeys with
    | taken _ hend hvalid =>
      rw [List.foldlM_cons, hend]
      exact ih hvalid hms
    | refused hmember =>
      obtain ⟨m', hm', hrefused⟩ := hmember
      obtain rfl := List.mem_singleton.1 hm'
      exact absurd hm hrefused

/-- The order of members with distinct keys does not matter. -/
theorem foldl_applyMember_perm {order : List (String × Json)} (hkeys : (ms.map (·.1)).Nodup)
    (horder : order.Perm ms) (base : Settings) :
    order.foldl applyMember base = ms.foldl applyMember base := by
  have hkeys' : (order.map (·.1)).Nodup := (horder.map _).nodup_iff.2 hkeys
  refine ext_value fun key => ?_
  by_cases hstaged : ∃ m ∈ ms, m.1 = key.name ∧ rejectionOf? m = none
  · obtain ⟨m, hm, hname, hrejection⟩ := hstaged
    rw [value_of_staged hkeys hm hname hrejection,
      value_of_staged hkeys' (horder.mem_iff.2 hm) hname hrejection]
  · rw [value_of_unstaged hstaged,
      value_of_unstaged fun ⟨m, hm, h⟩ => hstaged ⟨m, horder.mem_iff.1 hm, h⟩]

/-! ## Settings that are changed in place -/

/-- Lays the members of an object over the settings at hand. An error leaves behind whatever was
    written before it. -/
def overlayInPlace (members : List (String × Json)) :
    ExceptT SettingsError (StateM Settings) Unit := do
  let mut staged ← get
  let mut rejections := []
  for member in members do
    match change member.1 member.2 with
    | .ok f => staged := f staged
    | .error reason => rejections := rejections ++ [⟨member.1, reason⟩]
  rejections := rejections ++ staged.rangeRejections
  if rejections.isEmpty then set staged else throw (.rejected (sortRejections rejections))

theorem run_get_bind {α : Type} (f : Settings → ExceptT SettingsError (StateM Settings) α)
    (s : Settings) : (get >>= f : ExceptT SettingsError (StateM Settings) α).run.run s =
      (f s).run.run s := rfl

/-- Settings that are changed in place become the new settings, or stay what they were. -/
theorem run_overlayInPlace (members : List (String × Json)) (base : Settings) :
    (overlayInPlace members).run.run base =
      match base.overlayMembers members with
      | .ok s => (.ok (), s)
      | .error e => (.error e, base) := by
  have hloop : ∀ (s : Settings) (rs : List Rejection),
      (forIn members (s, rs) fun m staged =>
        match change m.1 m.2 with
        | .ok f => pure (ForInStep.yield (f staged.1, staged.2))
        | .error reason => pure (ForInStep.yield (staged.1, staged.2 ++ [⟨m.1, reason⟩])) :
          ExceptT SettingsError (StateM Settings) (Settings × List Rejection)) =
        pure (members.foldl applyMember s, rs ++ members.filterMap rejectionOf?) := by
    induction members with
    | nil =>
      intro s rs
      rw [List.forIn_nil, List.filterMap_nil, List.append_nil, List.foldl_nil]
    | cons m members ih =>
      intro s rs
      rw [List.forIn_cons, List.foldl_cons, List.filterMap_cons, applyMember, rejectionOf?]
      cases change m.1 m.2 with
      | ok f =>
        dsimp only
        rw [pure_bind]
        exact ih (f s) rs
      | error reason =>
        dsimp only
        rw [pure_bind]
        dsimp only
        rw [ih, List.append_assoc, List.singleton_append]
  unfold overlayInPlace overlayMembers
  dsimp only
  simp only [hloop, List.nil_append, pure_bind]
  rw [run_get_bind]
  split
  · rfl
  · rfl

/-- Laying an object over settings is atomic, complete, and can be said key by key. -/
structure KeyWise (base : Settings) (members : List (String × Json)) : Prop where
  /-- The object is taken exactly if each of its members is taken on its own. -/
  accepted : (∃ s, base.overlay (.object members) = .ok s) ↔
    ∀ m ∈ members, ∃ s, base.overlay (.object [m]) = .ok s
  /-- What comes of it is in range. -/
  valid {s : Settings} : base.overlay (.object members) = .ok s → s.validate = .ok ()
  /-- It is what comes of the members one after the other, in whatever order. -/
  anyOrder {s : Settings} : base.overlay (.object members) = .ok s →
    ∀ order : List (String × Json), order.Perm members →
      order.foldlM (fun s m => s.overlay (.object [m])) base = .ok s
  /-- A key that the object has gets its value from there. -/
  given {s : Settings} : base.overlay (.object members) = .ok s →
    ∀ key j, (SettingsKey.name key, j) ∈ members → s.value key = j
  /-- A key that the object does not have keeps its value. -/
  kept {s : Settings} : base.overlay (.object members) = .ok s →
    ∀ key, SettingsKey.name key ∉ members.map (·.1) → s.value key = base.value key
  /-- An object that is not taken comes back with the rejections of its members, in ascending
      order of the bytes of the keys. -/
  rejected {e : SettingsError} : base.overlay (.object members) = .error e →
    ∃ order : List (String × Json), order.Perm members ∧
      (order.Pairwise fun m m' => m.1.toUTF8.toList < m'.1.toUTF8.toList) ∧
      e = .rejected (order.flatMap base.rejectionsAlone)
  /-- A member is rejected exactly if its key does not take its value, once and for its own
      reason. -/
  reasons (m : String × Json) (hm : m ∈ members) :
    base.rejectionsAlone m = (refusalOf? m).toList
  /-- Settings that are changed in place are the new ones afterwards, or the old ones. -/
  atomic : (overlayInPlace members).run.run base =
    match base.overlay (.object members) with
    | .ok s => (.ok (), s)
    | .error e => (.error e, base)

theorem overlay_is_keywise (base : Settings) (hbase : base.validate = .ok ())
    (members : List (String × Json)) (hkeys : (members.map (·.1)).Nodup) :
    KeyWise base members := by
  have hoverlay := outcome hbase hkeys
  have htaken : ∀ {s}, base.overlay (.object members) = .ok s →
      (∀ m ∈ members, refusalOf? m = none) ∧ s = members.foldl applyMember base ∧
        s.validate = .ok () := by
    intro s hs
    cases hoverlay with
    | taken hmembers hend hvalid =>
      obtain rfl := Except.ok.inj (hend.symm.trans hs)
      exact ⟨hmembers, rfl, hvalid⟩
    | refused _ hend => cases hend.symm.trans hs
  have halone : ∀ m, (∃ s, base.overlay (.object [m]) = .ok s) ↔ refusalOf? m = none := by
    intro m
    rw [overlay_single hbase]
    cases refusalOf? m <;> simp
  have hstaged : ∀ m : String × Json, refusalOf? m = none → rejectionOf? m = none := by
    intro m hm
    cases hrejection : rejectionOf? m with
    | none => rfl
    | some r => cases hm.symm.trans (refusal_of_rejection hrejection)
  constructor
  case accepted =>
    simp only [halone]
    cases hoverlay with
    | taken hmembers hend _ => exact ⟨fun _ => hmembers, fun _ => ⟨_, hend⟩⟩
    | refused hmember hend =>
      obtain ⟨m, hm, hrefused⟩ := hmember
      exact ⟨fun ⟨s, hs⟩ => (htaken hs).1, fun hall => absurd (hall m hm) hrefused⟩
  case valid =>
    intro s hs
    exact (htaken hs).2.2
  case anyOrder =>
    intro s hs order horder
    obtain ⟨hmembers, rfl, -⟩ := htaken hs
    rw [foldlM_overlay hbase fun m hm => hmembers m (horder.mem_iff.1 hm),
      foldl_applyMember_perm hkeys horder]
  case given =>
    intro s hs key j hm
    obtain ⟨hmembers, rfl, -⟩ := htaken hs
    exact value_of_staged hkeys hm rfl (hstaged _ (hmembers _ hm)) base
  case kept =>
    intro s hs key habsent
    obtain ⟨-, rfl, -⟩ := htaken hs
    refine value_of_unstaged ?_ base
    rintro ⟨m, hm, hname, -⟩
    exact habsent (List.mem_map.2 ⟨m, hm, hname⟩)
  case rejected =>
    intro e he
    cases hoverlay with
    | taken _ hend => cases hend.symm.trans he
    | refused _ hend hreasons hascending =>
      obtain rfl := Except.error.inj (hend.symm.trans he)
      refine ⟨sortMembers members, List.mergeSort_perm members _, ?_, ?_⟩
      · exact (ascending_mergeSort Prod.fst hkeys).imp fun h => (Text.toUTF8_lt_iff _ _).2 h
      · rw [← eq_rejectionsAlone hbase hkeys hreasons hascending]
  case reasons =>
    intro m _
    exact rejectionsAlone_eq hbase m
  case atomic => exact run_overlayInPlace members base

/-- Three members: a zero where none may stand, a good one, and one whose key is unknown. -/
theorem one_good_key_of_three :
    ({} : Settings).validate = .ok () ∧
      KeyWise {} [("prescale", .integer 0), ("adc_threshold", .integer 7), ("gain", .null)] :=
  have hvalid : ({} : Settings).validate = .ok () := Settings.validate_eq_ok_iff.2 (by decide)
  ⟨hvalid, overlay_is_keywise {} hvalid _ (by decide)⟩

end Settings

end TriggerChain
