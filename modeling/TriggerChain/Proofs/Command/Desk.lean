import TriggerChain.Command.Run
import Mathlib.Data.List.Basic

/-!
# Files of a desk

A path leads to a place that is named after the last part of the path, whatever the folders before
it are. So files whose last parts differ are different files, and writing one leaves the other as it
is. A file whose name ends as that of a table does is none of those that a machine has of itself:
what is written into it is there afterwards.

Main statement: `Desk.wrote_of_writeFile`.
-/

namespace TriggerChain.Command

/-! ## Last parts -/

theorem cutAtSlashes_eq_splitOn (cs : List Char) : cutAtSlashes cs = cs.splitOn '/' := by
  induction cs with
  | nil => exact (List.splitOn_nil '/').symm
  | cons c cs ih =>
    rw [cutAtSlashes, List.splitOn_cons_eq_if_modifyHead, ← ih]
    by_cases hc : c = '/'
    · rw [if_pos hc, if_pos (beq_iff_eq.2 hc)]
    · rw [if_neg hc, if_neg (mt beq_iff_eq.1 hc)]
      have hne : cutAtSlashes cs ≠ [] := ih ▸ List.splitOn_ne_nil '/' cs
      cases hcut : cutAtSlashes cs with
      | nil => exact absurd hcut hne
      | cons part more => rfl

/-- No part of a path has a slash in it. -/
theorem notMem_of_mem_cutAtSlashes {cs part : List Char} (h : part ∈ cutAtSlashes cs) :
    '/' ∉ part := by
  induction cs generalizing part with
  | nil =>
    obtain rfl := List.mem_singleton.1 h
    exact List.not_mem_nil
  | cons c cs ih =>
    unfold cutAtSlashes at h
    split at h
    · rcases List.mem_cons.1 h with rfl | h
      · exact List.not_mem_nil
      · exact ih h
    · next hc =>
      split at h
      · obtain rfl := List.mem_singleton.1 h
        exact fun hmem => hc (List.mem_singleton.1 hmem).symm
      · next first more hcut =>
        rcases List.mem_cons.1 h with rfl | h
        · intro hmem
          rcases List.mem_cons.1 hmem with hslash | hmem
          · exact hc hslash.symm
          · exact ih (hcut ▸ List.mem_cons_self) hmem
        · exact ih (hcut ▸ List.mem_cons_of_mem first h)

theorem notMem_lastPart (path : String) : '/' ∉ lastPart path := by
  unfold lastPart
  rw [List.getLastD_eq_getLast?]
  cases hlast : (parts path).getLast? with
  | none => exact List.not_mem_nil
  | some part => exact notMem_of_mem_cutAtSlashes (List.mem_of_getLast? hlast)

theorem lastPart_of_notMem {name : String} (h : '/' ∉ name.toList) :
    lastPart name = name.toList := by
  unfold lastPart parts
  rw [cutAtSlashes_eq_splitOn, List.splitOn_eq_singleton h]
  rfl

theorem lastPart_append_slash {path name : String} (front : String)
    (hpath : path = front ++ "/" ++ name) (h : '/' ∉ name.toList) : lastPart path = name.toList := by
  have hcut : path.toList = front.toList ++ '/' :: name.toList := by
    rw [hpath, String.toList_append, String.toList_append, List.append_assoc]
    rfl
  unfold lastPart parts
  rw [cutAtSlashes_eq_splitOn, hcut, List.splitOn_append_cons_self, List.splitOn_eq_singleton h,
    List.getLastD_concat]

/-- A file in a folder is named as it is named there. -/
theorem lastPart_inFolder (folder : String) {name : String} (h : '/' ∉ name.toList) :
    lastPart (inFolder folder name) = name.toList := by
  unfold inFolder
  split
  · next hslash =>
    obtain ⟨front, hfront⟩ := List.getLast?_eq_some_iff.1 hslash
    apply lastPart_append_slash (String.ofList front) _ h
    rw [← String.ofList_toList (s := folder), hfront, String.ofList_append]
  · exact lastPart_append_slash _ rfl h

/-! ## Places -/

/-- The name of a place ends with the innermost part. -/
theorem lastPart_name {part : String} (h : '/' ∉ part.toList) (outer : Place) :
    lastPart (Place.name (part :: outer)) = part.toList := by
  unfold Place.name
  rw [List.reverse_cons]
  by_cases houter : outer = []
  · rw [houter, List.reverse_nil, List.nil_append, String.intercalate_singleton]
    exact lastPart_of_notMem h
  · rw [String.intercalate_append_of_ne_nil (mt List.reverse_eq_nil_iff.1 houter)
      (List.cons_ne_nil _ _), String.intercalate_singleton]
    exact lastPart_append_slash _ rfl h

namespace Desk

/-- A path leads to a place that its last part names. -/
theorem lastPart_of_placeOf? {d : Desk} {path : String} {place : Place}
    (h : d.placeOf? path = some place) : lastPart place.name = lastPart path := by
  unfold placeOf? at h
  dsimp only at h
  split at h
  · obtain ⟨outer, -, rfl⟩ := Option.map_eq_some_iff.1 h
    have hlast : '/' ∉ (String.ofList (lastPart path)).toList := by
      rw [String.toList_ofList]
      exact notMem_lastPart path
    exact (lastPart_name hlast outer).trans String.toList_ofList
  · cases h

/-- Two desks on one machine with the same folders. -/
structure SameFolders (d d' : Desk) : Prop where
  machine : d'.machine = d.machine
  folders : d'.folders = d.folders

theorem SameFolders.refl (d : Desk) : SameFolders d d := ⟨rfl, rfl⟩

theorem SameFolders.trans {d d₁ d' : Desk} (h : SameFolders d d₁) (h' : SameFolders d₁ d') :
    SameFolders d d' :=
  ⟨h'.machine.trans h.machine, h'.folders.trans h.folders⟩

theorem isFolder_congr {d d' : Desk} (h : SameFolders d d') : d'.isFolder = d.isFolder := by
  funext place
  unfold isFolder
  rw [h.machine, h.folders]

theorem enter?_congr {d d' : Desk} (h : SameFolders d d') : d'.enter? = d.enter? := by
  funext place part
  unfold enter?
  rw [isFolder_congr h, h.machine]

/-- Which places there are is up to the machine and the folders. -/
theorem placeOf?_congr {d d' : Desk} (h : SameFolders d d') (path : String) :
    d'.placeOf? path = d.placeOf? path := by
  unfold placeOf?
  rw [enter?_congr h, h.machine]

/-- What is in a file is up to the machine, the folders and the files. -/
theorem contents?_congr {d d' : Desk} (h : SameFolders d d') (hfiles : d'.files = d.files)
    (path : String) : d'.contents? path = d.contents? path := by
  unfold contents?
  rw [placeOf?_congr h, h.machine, hfiles]

end Desk

/-! ## Tables -/

/-- A name that tables have. -/
structure IsTableName (name : List Char) : Prop where
  noSlash : '/' ∉ name
  ending : ".csv".toList <:+ name

theorem mem_keys_of_get? {α : Type} {t : KeyTable α} {key : String} {value : α}
    (h : t.get? key = some value) : key ∈ t.keys := by
  induction t with
  | nil => cases h
  | cons entry rest ih =>
    obtain ⟨k, v⟩ := entry
    unfold KeyTable.get? at h
    split at h
    · next hk => exact List.mem_cons.2 (.inl hk.symm)
    · exact List.mem_cons.2 (.inr (ih h))

/-- No machine has a file of itself that is named as a table is. -/
theorem IsTableName.not_hasFile {name : String} (h : IsTableName (lastPart name))
    (machine : Machine) : machine.hasFile name = false := by
  unfold Machine.hasFile
  rw [Bool.or_eq_false_iff]
  constructor
  · cases hdevice : machine.devices.get? name with
    | none => rfl
    | some device =>
      have hkey := List.mem_append_left machine.files (mem_keys_of_get? hdevice)
      exact absurd h.ending (machine.noTables name hkey)
  · rw [Bool.eq_false_iff]
    intro hfile
    have hmem := List.mem_append_right machine.devices.keys (List.contains_iff_mem.1 hfile)
    exact machine.noTables name hmem h.ending

namespace Desk

/-- What is left by writing a table. -/
theorem wrote_of_writeFile {d d' : Desk} {path text : String} (hname : IsTableName (lastPart path))
    (h : d.writeFile path text = some d') :
    SameFolders d d' ∧ d'.contents? path = some text.toUTF8.toList ∧
      ∀ other, lastPart other ≠ lastPart path → d'.contents? other = d.contents? other := by
  unfold writeFile at h
  obtain ⟨place, hplace, h⟩ := Option.bind_eq_some_iff.1 h
  have hplain : d.machine.hasFile place.name = false := by
    apply IsTableName.not_hasFile
    rwa [lastPart_of_placeOf? hplace]
  have hdevice : d.machine.devices.get? place.name = none := by
    rw [← Option.isNone_iff_eq_none, ← Option.isSome_eq_false_iff]
    exact (Bool.or_eq_false_iff.1 hplain).1
  split at h
  · cases h
  rw [hdevice] at h
  obtain rfl := Option.some.inj h
  have hplaces : ∀ other : String, Desk.placeOf?
      { d with files := d.files.set place.name text.toUTF8.toList } other = d.placeOf? other :=
    placeOf?_congr ⟨rfl, rfl⟩
  refine ⟨⟨rfl, rfl⟩, ?_, ?_⟩
  · unfold contents?
    rw [hplaces, hplace, Option.bind_some, hplain]
    exact KeyTable.get?_set_self _ _ _
  · intro other hother
    unfold contents?
    rw [hplaces]
    cases hplace' : d.placeOf? other with
    | none => rfl
    | some place' =>
      -- Another name is the name of another file.
      have hne : place.name ≠ place'.name := by
        intro hsame
        apply hother
        rw [← lastPart_of_placeOf? hplace', ← lastPart_of_placeOf? hplace, hsame]
      rw [Option.bind_some, Option.bind_some, KeyTable.get?_set_of_ne hne]

/-! ## Folders -/

/-- Making folders leaves the machine and the files as they are. -/
structure MadeFolders (d d' : Desk) : Prop where
  machine : d'.machine = d.machine
  files : d'.files = d.files

theorem MadeFolders.trans {d d₁ d' : Desk} (h : MadeFolders d d₁) (h' : MadeFolders d₁ d') :
    MadeFolders d d' :=
  ⟨h'.machine.trans h.machine, h'.files.trans h.files⟩

theorem made_of_makePart? {d d' : Desk} {place place' : Place} {part : List Char}
    (h : makePart? (d, place) part = some (d', place')) : MadeFolders d d' := by
  unfold makePart? at h
  dsimp only at h
  split at h
  · obtain ⟨rfl, -⟩ := Prod.mk.inj (Option.some.inj h)
    exact ⟨rfl, rfl⟩
  · split at h
    · obtain ⟨rfl, -⟩ := Prod.mk.inj (Option.some.inj h)
      exact ⟨rfl, rfl⟩
    · cases h

theorem made_of_foldlM_makePart? {names : List (List Char)} {d d' : Desk} {place place' : Place}
    (h : names.foldlM makePart? (d, place) = some (d', place')) : MadeFolders d d' := by
  induction names generalizing d place with
  | nil =>
    obtain ⟨rfl, -⟩ := Prod.mk.inj (Option.some.inj h)
    exact ⟨rfl, rfl⟩
  | cons part names ih =>
    rw [List.foldlM_cons] at h
    obtain ⟨⟨d₁, place₁⟩, hpart, hrest⟩ := Option.bind_eq_some_iff.1 h
    exact (made_of_makePart? hpart).trans (ih hrest)

theorem made_of_makeFolder {d d' : Desk} {path : String} (h : d.makeFolder path = some d') :
    MadeFolders d d' := by
  unfold makeFolder at h
  dsimp only at h
  split at h
  · cases h
  · obtain rfl := Option.some.inj h
    exact ⟨rfl, rfl⟩
  · obtain ⟨⟨d₁, place⟩, houter, h⟩ := Option.bind_eq_some_iff.1 h
    have hmade := made_of_foldlM_makePart? houter
    dsimp only at h
    split at h
    · obtain ⟨_, -, rfl⟩ := Option.map_eq_some_iff.1 h
      exact hmade
    · obtain ⟨⟨d₂, place'⟩, hlast, rfl⟩ := Option.map_eq_some_iff.1 h
      exact hmade.trans (made_of_makePart? hlast)

end Desk

end TriggerChain.Command
