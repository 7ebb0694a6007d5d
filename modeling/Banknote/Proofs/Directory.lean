import Banknote.Directory
import Banknote.Proofs.KeyMap

/-!
# What a change of a directory leaves as it is

A path is gone through name by name, and only from folders.  So a path leads to the same place in
every directory that has at least the same folders.

* Single changes.  `find?_put_of_ne` and the lemmas below it say what stands at a place after
  something was put or removed.
* Walks.  `Retains` says that no folder is lost, `walk_of_retains` that a walk through the one
  directory is a walk through the other.
* Files.  `read_eq_ok_iff` says what is read, `slot_eq_ok_iff` where a file can be put, and `Grows`
  that nothing but new folders came in.
-/

namespace Banknote.Directory

variable {d d' : Directory}

/-! ## Single changes -/

theorem find?_of_ne_nil (d : Directory) {place : List String} (h : place ≠ []) :
    d.find? place = d.entries.get? (key place) := by
  rw [find?, if_neg (by simpa using h)]

/-- Where nothing stands, or a file, is not the root. -/
theorem ne_nil_of_find? {place : List String} (h : d.find? place ≠ some .folder) :
    place ≠ [] := by
  rintro rfl
  exact h rfl

theorem find?_put_self {place : List String} (h : place ≠ []) (entry : Entry) :
    (d.put (key place) entry).find? place = some entry := by
  rw [find?_of_ne_nil _ h, put, KeyMap.get?_insert_self]

theorem find?_put_of_ne {k : String} {place : List String} (h : key place ≠ k) (entry : Entry) :
    (d.put k entry).find? place = d.find? place := by
  simp only [find?, put, KeyMap.get?_insert_of_ne d.entries entry h]

theorem text?_put_self (d : Directory) (k text : String) :
    (d.put k (.file text)).text? k = some text := by
  rw [text?, put, KeyMap.get?_insert_self]

/-- What is put last stays. -/
theorem put_over (d : Directory) (k : String) (entry entry' : Entry) :
    (d.put k entry).put k entry' = d.put k entry' := by
  simp only [put, KeyMap.insert_insert]

theorem put_remove (d : Directory) (k : String) (entry : Entry) :
    (d.remove k).put k entry = d.put k entry := by
  simp only [put, remove, KeyMap.insert_erase]

theorem remove_put_self (d : Directory) (k : String) (entry : Entry) :
    (d.put k entry).remove k = d.remove k := by
  simp only [put, remove, KeyMap.erase_insert_self]

theorem remove_eq_self {k : String} (h : k ∉ d.entries.keys) : d.remove k = d := by
  simp only [remove, KeyMap.erase_eq_self h]

/-! ## Walks -/

/-- No folder of the one directory is missing in the other. -/
structure Retains (d d' : Directory) : Prop where
  home : d'.home = d.home
  folder : ∀ place, d.find? place = some .folder → d'.find? place = some .folder

/-- A file that is put where no folder is takes no folder away. -/
theorem retains_put_file {k : String} (h : d.entries.get? k ≠ some .folder) (text : String) :
    d.Retains (d.put k (.file text)) := by
  refine ⟨rfl, fun place hplace => ?_⟩
  by_cases hk : key place = k
  · subst hk
    by_cases hnil : place = []
    · subst hnil
      rfl
    · rw [find?_of_ne_nil d hnil] at hplace
      exact absurd hplace h
  · rwa [find?_put_of_ne hk]

/-- A file that was put is no folder. -/
theorem retains_of_put_file (d : Directory) (k text : String) :
    (d.put k (.file text)).Retains d := by
  refine ⟨rfl, fun place hplace => ?_⟩
  by_cases hk : key place = k
  · subst hk
    by_cases hnil : place = []
    · subst hnil
      rfl
    · rw [find?_put_self hnil] at hplace
      cases hplace
  · rwa [find?_put_of_ne hk] at hplace

theorem enter_eq_ok_iff {place place' : List String} {name : String} :
    d.enter place name = .ok place' ↔
      d.find? place = some .folder ∧ next place name = place' := by
  rw [enter]
  cases d.find? place with
  | none => simp
  | some entry => cases entry <;> simp

theorem enter_of_retains (h : d.Retains d') {place place' : List String} {name : String}
    (henter : d.enter place name = .ok place') : d'.enter place name = .ok place' := by
  rw [enter_eq_ok_iff] at henter ⊢
  exact henter.imp_left (h.folder place)

theorem walk_cons_eq_ok_iff {place last : List String} {name : String} {rest : List String} :
    d.walk place (name :: rest) = .ok last ↔
      ∃ place', d.enter place name = .ok place' ∧ d.walk place' rest = .ok last := by
  rw [walk]
  cases d.enter place name <;> simp

theorem walk_of_retains (h : d.Retains d') {place last : List String} {names : List String}
    (hwalk : d.walk place names = .ok last) : d'.walk place names = .ok last := by
  induction names generalizing place with
  | nil => exact hwalk
  | cons name rest ih =>
    obtain ⟨place', henter, hrest⟩ := walk_cons_eq_ok_iff.1 hwalk
    exact walk_cons_eq_ok_iff.2 ⟨place', enter_of_retains h henter, ih hrest⟩

/-- A path leads to the same place as long as no folder is lost. -/
theorem locate_of_retains (h : d.Retains d') {path : String} {place : List String}
    (hlocate : d.locate path = .ok place) : d'.locate path = .ok place := by
  have hstart : d'.start path = d.start path := by simp only [start, h.home]
  rw [locate] at hlocate ⊢
  rw [hstart]
  cases hfirst : d.start path with
  | error fault =>
    rw [hfirst] at hlocate
    cases hlocate
  | ok first =>
    rw [hfirst] at hlocate
    exact walk_of_retains h hlocate

/-! ## Files -/

theorem read_eq_ok_iff {path text : String} :
    d.read path = .ok text ↔
      ∃ place, d.locate path = .ok place ∧ d.find? place = some (.file text) ∧
        endsInSlash path = false := by
  rw [read]
  cases d.locate path with
  | error fault => simp
  | ok place =>
    simp only [Except.ok.injEq, exists_eq_left']
    cases d.find? place with
    | none => simp
    | some entry =>
      cases entry with
      | folder => simp
      | file found => cases endsInSlash path <;> simp

/-- What is read is read as well where no folder is lost and the file is the same. -/
theorem read_of_retains (h : d.Retains d') {path text : String} {place : List String}
    (hlocate : d.locate path = .ok place) (hentry : d'.find? place = d.find? place)
    (hread : d.read path = .ok text) : d'.read path = .ok text := by
  obtain ⟨place', hplace', hfile, hends⟩ := read_eq_ok_iff.1 hread
  rw [hlocate, Except.ok.injEq] at hplace'
  subst hplace'
  exact read_eq_ok_iff.2 ⟨place, locate_of_retains h hlocate, hentry.trans hfile, hends⟩

theorem slot_eq_ok_iff {path : String} {points slash : FileFault} {place : List String} :
    d.slot path points slash = .ok place ↔
      d.locate path = .ok place ∧ isPoints (lastName path) = false ∧
        endsInSlash path = false ∧ d.find? place ≠ some .folder := by
  rw [slot]
  cases d.locate path with
  | error fault => simp
  | ok found =>
    cases isPoints (lastName path) with
    | true => simp
    | false =>
      cases endsInSlash path with
      | true => simp
      | false =>
        by_cases hfolder : d.find? found = some .folder
        · simp only [hfolder, if_true]
          constructor
          · nofun
          · rintro ⟨hfound, _, _, hnot⟩
            cases hfound
            exact absurd hfolder hnot
        · simp only [hfolder, if_false, Bool.false_eq_true, true_and]
          refine ⟨fun hfound => ⟨hfound, ?_⟩, And.left⟩
          cases hfound
          exact hfolder

/-- The text that is put where a path can put a file is read at the path. -/
theorem read_put {path : String} {points slash : FileFault} {place : List String}
    (h : d.slot path points slash = .ok place) (text : String) :
    (d.put (key place) (.file text)).read path = .ok text := by
  obtain ⟨hlocate, _, hends, hfolder⟩ := slot_eq_ok_iff.1 h
  have hne := ne_nil_of_find? hfolder
  rw [find?_of_ne_nil d hne] at hfolder
  exact read_eq_ok_iff.2 ⟨place, locate_of_retains (retains_put_file hfolder text) hlocate,
    find?_put_self hne _, hends⟩

/-- A path can put a file in the same place when no folder is lost and none came in there. -/
theorem slot_of_retains (h : d.Retains d') {path : String} {points slash : FileFault}
    {place : List String} (hslot : d.slot path points slash = .ok place)
    (hentry : d'.find? place ≠ some .folder) : d'.slot path points slash = .ok place := by
  obtain ⟨hlocate, hpoints, hends, _⟩ := slot_eq_ok_iff.1 hslot
  exact slot_eq_ok_iff.2 ⟨locate_of_retains h hlocate, hpoints, hends, hentry⟩

/-- Nothing but new folders came in. -/
structure Grows (d d' : Directory) : Prop where
  home : d'.home = d.home
  entry : ∀ k, d'.entries.get? k = d.entries.get? k ∨
    d.entries.get? k = none ∧ d'.entries.get? k = some .folder

namespace Grows

theorem refl (d : Directory) : d.Grows d := ⟨rfl, fun _ => .inl rfl⟩

theorem trans {d'' : Directory} (h : d.Grows d') (h' : d'.Grows d'') : d.Grows d'' := by
  refine ⟨h'.home.trans h.home, fun k => ?_⟩
  rcases h'.entry k with hsame' | ⟨hnone', hnew'⟩
  · rw [hsame']
    exact h.entry k
  · rcases h.entry k with hsame | ⟨hnone, _⟩
    · exact .inr ⟨hsame ▸ hnone', hnew'⟩
    · exact .inr ⟨hnone, hnew'⟩

theorem retains (h : d.Grows d') : d.Retains d' := by
  refine ⟨h.home, fun place hplace => ?_⟩
  by_cases hnil : place = []
  · subst hnil
    rfl
  · rw [find?_of_ne_nil _ hnil] at hplace ⊢
    rcases h.entry (key place) with hsame | ⟨_, hnew⟩
    · exact hsame.trans hplace
    · exact hnew

theorem find?_of_file (h : d.Grows d') {place : List String} {text : String}
    (hfile : d.find? place = some (.file text)) : d'.find? place = some (.file text) := by
  have hnil : place ≠ [] := ne_nil_of_find? (by rw [hfile]; simp)
  rw [find?_of_ne_nil _ hnil] at hfile ⊢
  rcases h.entry (key place) with hsame | ⟨hnone, _⟩
  · exact hsame.trans hfile
  · rw [hnone] at hfile
    cases hfile

/-- What was read before is read after. -/
theorem read (h : d.Grows d') {path text : String} (hread : d.read path = .ok text) :
    d'.read path = .ok text := by
  obtain ⟨place, hlocate, hfile, _⟩ := read_eq_ok_iff.1 hread
  exact read_of_retains h.retains hlocate ((h.find?_of_file hfile).trans hfile.symm) hread

end Grows

end Banknote.Directory
