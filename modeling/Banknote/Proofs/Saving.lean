import Banknote.Proofs.Directory
import Banknote.Session

/-!
# A save is made as a whole or not at all

A save takes five stages, and at each of them it may fail.  `Session.save_frame` says that a save
that failed has changed no file, and that a save that succeeds changes the one file at the place of
its path.

* Folders.  `makeFolders_grows`: making the folder of a path only adds folders, and
  `makeFolders_of_walk` that it does nothing where the folder is there.
* The new file.  Nothing stands at its place (`newFile_not_mem`).
* Stages.  Every stage but the last one writes to the new file alone (`remove_step`).  So the
  directory without the new file stays what it was, and `run_cases` carries this through the stages:
  when a stage fails, the new file is taken away, and nothing else has changed.
* Saves.  `saveAmid_cases` puts this together.  `save_eq_ok_iff` is about a save that nothing
  disturbs, and `save_read` and `save_save` follow from it.
-/

namespace Banknote.Directory

variable {d d' : Directory}

/-! ## Folders -/

theorem grows_put_folder {place : List String} (h : d.find? place = none) :
    d.Grows (d.put (key place) .folder) := by
  have hne : place ≠ [] := ne_nil_of_find? (d := d) (by simp [h])
  rw [find?_of_ne_nil d hne] at h
  refine ⟨rfl, fun k => ?_⟩
  by_cases hk : k = key place
  · subst hk
    exact .inr ⟨h, KeyMap.get?_insert_self _ _ _⟩
  · exact .inl (KeyMap.get?_insert_of_ne _ _ hk)

/-- Making folders only adds folders, whether or not it gets to the end. -/
theorem makeFolders_grows (d : Directory) (made : Bool) (place names : List String) :
    d.Grows (d.makeFolders made place names).2 := by
  induction names generalizing d made place with
  | nil => exact .refl d
  | cons name rest ih =>
    rw [makeFolders]
    cases d.enter place name with
    | error fault => exact .refl d
    | ok place' =>
      dsimp only
      cases hentry : d.find? place' with
      | none => exact (grows_put_folder hentry).trans (ih _ _ _)
      | some entry =>
        cases entry with
        | file text => exact .refl d
        | folder => exact ih _ _ _

/-- The folders that were made can be gone through. -/
theorem walk_of_makeFolders {made : Bool} {place last names : List String}
    (h : d.makeFolders made place names = (.ok last, d')) :
    d'.walk place (names ++ ["."]) = .ok last := by
  induction names generalizing d made place with
  | nil =>
    rw [makeFolders, Prod.mk.injEq] at h
    obtain ⟨henter, rfl⟩ := h
    exact walk_cons_eq_ok_iff.2 ⟨last, henter, rfl⟩
  | cons name rest ih =>
    have hgrows := d.makeFolders_grows made place (name :: rest)
    rw [h] at hgrows
    rw [makeFolders] at h
    cases henter : d.enter place name with
    | error fault =>
      rw [henter] at h
      cases h
    | ok place' =>
      rw [henter] at h
      dsimp only at h
      refine walk_cons_eq_ok_iff.2 ⟨place', enter_of_retains hgrows.retains henter, ?_⟩
      cases hentry : d.find? place' with
      | none =>
        rw [hentry] at h
        exact ih h
      | some entry =>
        rw [hentry] at h
        cases entry with
        | file text => cases h
        | folder => exact ih h

/-- Folders that can be gone through are not made again. -/
theorem makeFolders_of_walk (made : Bool) {place last names : List String}
    (h : d.walk place (names ++ ["."]) = .ok last) :
    d.makeFolders made place names = (.ok last, d) := by
  induction names generalizing place with
  | nil =>
    obtain ⟨place', henter, hlast⟩ := walk_cons_eq_ok_iff.1 h
    cases hlast
    rw [makeFolders, henter]
  | cons name rest ih =>
    obtain ⟨place', henter, hrest⟩ := walk_cons_eq_ok_iff.1 h
    -- The walk goes on from this place, so it is a folder.
    have hfolder : d.find? place' = some .folder := by
      cases rest with
      | nil =>
        obtain ⟨_, hnext, _⟩ := walk_cons_eq_ok_iff.1 hrest
        exact (enter_eq_ok_iff.1 hnext).1
      | cons _ _ =>
        obtain ⟨_, hnext, _⟩ := walk_cons_eq_ok_iff.1 hrest
        exact (enter_eq_ok_iff.1 hnext).1
    rw [makeFolders, henter]
    simp only [hfolder]
    exact ih hrest

theorem makeFolder_grows (course : Course) (d : Directory) (path : String) :
    d.Grows (d.makeFolder course path).2 := by
  rw [makeFolder]
  split
  · exact .refl d
  · split
    · exact d.makeFolders_grows _ _ _
    · exact d.makeFolders_grows _ _ _

/-- A folder that was made is there when it is made again. -/
theorem makeFolder_of_retains {d₁ : Directory} {path : String} {folder : List String}
    (h : d.makeFolder {} path = (.ok folder, d₁)) (hretains : d₁.Retains d') :
    d'.makeFolder {} path = (.ok folder, d') := by
  have hhome : d'.home = d.home := by
    have hgrows := d.makeFolder_grows {} path
    rw [h] at hgrows
    exact hretains.home.trans hgrows.home
  rw [makeFolder] at h ⊢
  split at h
  · cases h
  · rename_i hzero
    have hstart : d'.folderStart path = d.folderStart path := by
      simp only [folderStart, hhome]
    rw [if_neg hzero, hstart]
    exact makeFolders_of_walk false (walk_of_retains hretains (walk_of_makeFolders h))

/-! ## The new file -/

/-- The key of a place is at least as long as its last name. -/
theorem length_le_length_key (folder : List String) (name : String) :
    name.length ≤ (key (folder ++ [name])).length := by
  by_cases hfolder : folder = []
  · subst hfolder
    simp [key, String.length_append]
  · rw [key, String.intercalate_append_of_ne_nil hfolder (List.cons_ne_nil _ _)]
    simp only [String.length_append, String.intercalate_singleton]
    omega

theorem length_lt_length_newName {k : String} (h : k ∈ d.entries.keys) :
    k.length < d.newName.length := by
  have hlongest := List.le_max?_getD_of_mem (k := 0) (List.mem_map_of_mem (f := String.length) h)
  have htmp : ".tmp".length = 4 := rfl
  simp only [newName, String.length_append, String.length_ofList, List.length_replicate]
  omega

/-- Nothing stands at the place of the new file. -/
theorem newFile_not_mem (d : Directory) (folder : List String) :
    key (folder ++ [d.newName]) ∉ d.entries.keys := by
  intro hmem
  exact Nat.not_lt.2 (length_le_length_key folder d.newName) (length_lt_length_newName hmem)

/-! ## Stages -/

namespace Saving

variable {w : Saving}

theorem remove_interrupt (w : Saving) (d : Directory) (stage : Stage) :
    (w.interrupt d stage).remove w.newFile = d.remove w.newFile := by
  cases stage with
  | write | flush => exact remove_put_self _ _ _
  | makeFolder | makeFile | rename => rfl

theorem remove_perform (w : Saving) (d : Directory) {stage : Stage} (h : stage ≠ .rename) :
    (w.perform d stage).2.remove w.newFile = d.remove w.newFile := by
  cases stage with
  | makeFolder => rfl
  | makeFile | write | flush => exact remove_put_self _ _ _
  | rename => exact absurd rfl h

/-- A stage is disturbed, or it is performed. -/
theorem step_cases (w : Saving) (d : Directory) (stage : Stage) :
    (∃ fault, w.step d stage = (.error fault, w.interrupt d stage)) ∨
      w.step d stage = w.perform d stage := by
  rw [step]
  split
  · exact .inl ⟨_, rfl⟩
  · exact .inr rfl

/-- A stage other than the last one touches no file but the new one. -/
theorem remove_step (w : Saving) (d : Directory) {stage : Stage} (h : stage ≠ .rename) :
    (w.step d stage).2.remove w.newFile = d.remove w.newFile := by
  rcases w.step_cases d stage with ⟨fault, hstep⟩ | hstep
  · rw [hstep]
    exact w.remove_interrupt d stage
  · rw [hstep]
    exact w.remove_perform d h

/-- The last stage changes nothing, or it puts the new file in the place of the path. -/
theorem step_rename_cases (w : Saving) (d : Directory) :
    (∃ fault, w.step d .rename = (.error fault, d)) ∨
      ∃ place text, d.slot w.path .busy .notDirectory = .ok place ∧
        d.text? w.newFile = some text ∧
        w.step d .rename = (.ok (), (d.remove w.newFile).put (key place) (.file text)) := by
  rcases w.step_cases d .rename with ⟨fault, hstep⟩ | hstep
  · exact .inl ⟨fault, hstep⟩
  · rw [hstep, perform]
    cases hslot : d.slot w.path .busy .notDirectory with
    | error fault => exact .inl ⟨fault, rfl⟩
    | ok place =>
      cases htext : d.text? w.newFile with
      | none => exact .inl ⟨.notFound, rfl⟩
      | some text => exact .inr ⟨place, text, rfl, rfl, rfl⟩

/-- The last stage leaves every file but the new one as it was, or it puts the text in the place of
the path, once the text is complete. -/
theorem run_rename (w : Saving) (d : Directory) (hnew : w.newFile ∉ d.entries.keys) :
    (∃ fault, w.run (d.put w.newFile (.file w.text)) [.rename] = (.error (.rename, fault), d)) ∨
      ∃ place, d.slot w.path .busy .notDirectory = .ok place ∧
        w.run (d.put w.newFile (.file w.text)) [.rename] =
          (.ok (), d.put (key place) (.file w.text)) := by
  have hothers : (d.put w.newFile (.file w.text)).remove w.newFile = d := by
    rw [remove_put_self, remove_eq_self hnew]
  rcases w.step_rename_cases (d.put w.newFile (.file w.text)) with
    ⟨fault, hrename⟩ | ⟨place, text, hslot, htext, hrename⟩
  · refine .inl ⟨fault, ?_⟩
    simp only [run, hrename, hothers]
  · rw [text?_put_self, Option.some.injEq] at htext
    subst htext
    refine .inr ⟨place, slot_of_retains (retains_of_put_file _ _ _) hslot ?_, ?_⟩
    · -- Nothing stands at the place of the new file, and the other places are the same.
      have hne := ne_nil_of_find? (slot_eq_ok_iff.1 hslot).2.2.2
      by_cases hk : key place = w.newFile
      · rw [find?_of_ne_nil _ hne, hk, KeyMap.get?_eq_none_iff.2 hnew]
        nofun
      · have hfolder := (slot_eq_ok_iff.1 hslot).2.2.2
        rwa [find?_put_of_ne hk] at hfolder
    · simp only [run, hrename, hothers]

/-- A save that goes through some stages, and then flushes and renames, leaves the other files as
they were, or it puts the text in the place of the path. -/
theorem run_cases (w : Saving) {early : List Stage} (h : .rename ∉ early) {d d₁ : Directory}
    (hothers : d.remove w.newFile = d₁) (hnew : w.newFile ∉ d₁.entries.keys) :
    (∃ stage fault, w.run d (early ++ [.flush, .rename]) = (.error (stage, fault), d₁)) ∨
      ∃ place, d₁.slot w.path .busy .notDirectory = .ok place ∧
        w.run d (early ++ [.flush, .rename]) = (.ok (), d₁.put (key place) (.file w.text)) := by
  induction early generalizing d with
  | nil =>
    rcases w.step_cases d .flush with ⟨fault, hflush⟩ | hflush
    · refine .inl ⟨.flush, fault, ?_⟩
      simp only [List.nil_append, run, hflush, remove_interrupt, hothers]
    -- The text is complete now, and it is what is renamed.
    · have htext : d.put w.newFile (.file w.text) = d₁.put w.newFile (.file w.text) := by
        rw [← hothers, put_remove]
      rw [List.nil_append, run, hflush, perform]
      dsimp only
      rw [htext]
      rcases w.run_rename d₁ hnew with ⟨fault, hrun⟩ | hrun
      · exact .inl ⟨.rename, fault, hrun⟩
      · exact .inr hrun
  | cons stage rest ih =>
    rw [List.mem_cons, not_or] at h
    have hrest := (w.remove_step d (Ne.symm h.1)).trans hothers
    rw [List.cons_append, run]
    generalize w.step d stage = after at hrest ⊢
    obtain ⟨outcome, d'⟩ := after
    cases outcome with
    | error fault => exact .inl ⟨stage, fault, by rw [← hrest]⟩
    | ok _ => exact ih h.2 hrest

/-- Where nothing disturbs it, a save gets to its end if the path can put a file. -/
theorem run_calm {d : Directory} {place : List String} (hcalm : w.course = {})
    (hnew : w.newFile ∉ d.entries.keys)
    (hslot : d.slot w.path .busy .notDirectory = .ok place) :
    w.run d [.makeFile, .write, .flush, .rename] = (.ok (), d.put (key place) (.file w.text)) := by
  have hnone := KeyMap.get?_eq_none_iff.2 hnew
  have hfile : (d.put w.newFile (.file w.text)).slot w.path .busy .notDirectory = .ok place := by
    refine slot_of_retains (retains_put_file (by simp [hnone]) _) hslot ?_
    have hfolder := (slot_eq_ok_iff.1 hslot).2.2.2
    by_cases hk : key place = w.newFile
    · rw [← hk, find?_put_self (ne_nil_of_find? hfolder)]
      nofun
    · rwa [find?_put_of_ne hk]
  have hothers : (d.put w.newFile (.file w.text)).remove w.newFile = d := by
    rw [remove_put_self, remove_eq_self hnew]
  simp only [run, step, Course.fault?, hcalm, perform]
  rw [put_over, put_over, hfile]
  simp only [text?_put_self, hothers]

end Saving

/-! ## Saves -/

/-- A save that fails only adds folders, and one that succeeds puts the text in the place of the path
besides. -/
theorem saveAmid_cases (course : Course) (d : Directory) (path text : String) :
    (∃ stage fault, d.saveAmid course path text =
        (.error (stage, fault), (d.makeFolder course path).2)) ∨
      ∃ place, (d.makeFolder course path).2.slot path .busy .notDirectory = .ok place ∧
        d.saveAmid course path text =
          (.ok (), (d.makeFolder course path).2.put (key place) (.file text)) := by
  rw [saveAmid]
  rcases d.makeFolder course path with ⟨folder | folder, d₁⟩
  · exact .inl ⟨.makeFolder, folder, rfl⟩
  · have hnew := d₁.newFile_not_mem folder
    have hearly : Stage.rename ∉ [Stage.makeFile, .write] := by decide
    dsimp only
    generalize key (folder ++ [d₁.newName]) = newFile at hnew ⊢
    exact Saving.run_cases ⟨path, text, newFile, course⟩ hearly (remove_eq_self hnew) hnew

/-- The disk is full when the rest of the text is written: the file is the old one. -/
example :
    let course : Course := { written := 1, outage := some (.flush, .device "full") }
    let d : Directory := .ofFiles [("a/b", "old")]
    ((d.saveAmid course "a/b" "new").2.read "a/b").toOption = some "old" := by decide +kernel

/-- A save that nothing disturbs succeeds if the folder of the path can be made and the path can put a
file there, and then the text is there. -/
theorem save_eq_ok_iff {path text : String} :
    d.save path text = .ok d' ↔
      ∃ folder d₁ place, d.makeFolder {} path = (.ok folder, d₁) ∧
        d₁.slot path .busy .notDirectory = .ok place ∧ d' = d₁.put (key place) (.file text) := by
  rw [save]
  constructor
  · intro h
    rcases d.saveAmid_cases {} path text with ⟨stage, fault, hsave⟩ | ⟨place, hslot, hsave⟩
    · rw [hsave] at h
      cases h
    · rw [hsave, Except.ok.injEq] at h
      rw [saveAmid] at hsave
      rcases hfolder : d.makeFolder {} path with ⟨folder | folder, d₁⟩
      · rw [hfolder] at hsave
        cases hsave
      · rw [hfolder] at hslot h
        exact ⟨folder, d₁, place, rfl, hslot, h.symm⟩
  · rintro ⟨folder, d₁, place, hfolder, hslot, rfl⟩
    have hrun := Saving.run_calm (w := ⟨path, text, key (folder ++ [d₁.newName]), {}⟩) rfl
      (d₁.newFile_not_mem folder) hslot
    rw [saveAmid, hfolder]
    dsimp only
    rw [hrun]

/-- A text that was saved is read back. -/
theorem save_read {path text : String} (h : d.save path text = .ok d') :
    d'.read path = .ok text := by
  obtain ⟨_, _, _, _, hslot, rfl⟩ := save_eq_ok_iff.1 h
  exact read_put hslot text

/-- Saving a text again changes nothing. -/
theorem save_save {path text : String} (h : d.save path text = .ok d') :
    d'.save path text = .ok d' := by
  obtain ⟨folder, d₁, place, hfolder, hslot, rfl⟩ := save_eq_ok_iff.1 h
  have hnot := (slot_eq_ok_iff.1 hslot).2.2.2
  have hne := ne_nil_of_find? hnot
  have hretains : d₁.Retains (d₁.put (key place) (.file text)) := by
    refine retains_put_file ?_ text
    rwa [find?_of_ne_nil d₁ hne] at hnot
  refine save_eq_ok_iff.2 ⟨folder, _, place, makeFolder_of_retains hfolder hretains, ?_, ?_⟩
  · refine slot_of_retains hretains hslot ?_
    rw [find?_put_self hne]
    nofun
  · rw [put_over]

end Banknote.Directory

namespace Banknote.Session

/-- A save that fails only adds folders, and one that succeeds puts the text of the current table in
the place of the path besides.  Nothing but the directory changes. -/
theorem save_cases (s : Session) (course : Directory.Course) (file : String) :
    ∃ directory, s.directory.Grows directory ∧
      ((∃ stage fault,
          s.save course file = (.error (saveFailure stage fault), { s with directory })) ∨
        ∃ place, directory.slot file .busy .notDirectory = .ok place ∧
          s.save course file = (.ok (.text s.table.text), { s with
            directory := directory.put (Directory.key place) (.file s.table.text) })) := by
  refine ⟨_, s.directory.makeFolder_grows course file, ?_⟩
  rw [save]
  rcases s.directory.saveAmid_cases course file s.table.text with
    ⟨stage, fault, hsave⟩ | ⟨place, hslot, hsave⟩
  · rw [hsave]
    exact .inl ⟨stage, fault, rfl⟩
  · rw [hsave]
    exact .inr ⟨place, hslot, rfl⟩

end Banknote.Session
