import Banknote.Proofs.Saving

/-!
# The current table of a session

Whatever steps a session takes, its current table is the one that was published last, what it is
asked is answered on that table alone, and a table that was kept answers as it did when it was kept.

* One step.  `Publishes` says which steps make which table the current one, and `Effect` what a step
  can do at all; the other lemmas about a step are read off `effect_step`.
* Some steps.  `after` is the session after some steps.  `lastPublished_after`, `settings_after` and
  `kept_after` follow by induction on the steps.
* Questions.  `answer_congr`: an answer depends on nothing but the settings and the current table.
-/

namespace Banknote

/-- Whether a step is a question about the current table. -/
def Step.asksTable : Step → Bool
  | replace _ | snapshot _ | snapshotCodes _ | snapshotClassify _ _ _ | restore _ | write _ _
  | save _ | load _ => false
  | _ => true

namespace Session

variable {s : Session}

/-! ## One step -/

/-- A step makes a table the current one. -/
inductive Publishes (s : Session) : Step → CurrencyTable → Prop
  | replace {source : Option String} {t : CurrencyTable}
    (htable : CurrencyTable.ofSource source = .ok t) : s.Publishes (.replace source) t
  | load {file : String} {t : CurrencyTable} (htable : loadTable s.directory file = .ok t) :
    s.Publishes (.load file) t
  | restore {name : String} {t : CurrencyTable} (htable : s.kept.get? name = some t) :
    s.Publishes (.restore name) t

/-- What a step can do: make a table the current one, keep the current table, change the files, make
folders in vain or leave the session as it is.  Only a step of the last two kinds can fail. -/
inductive Effect (s : Session) (st : Step) : Except Failure Answer × Session → Prop
  | publishes {t : CurrencyTable} {answer : Answer} (hpublishes : s.Publishes st t) :
    s.Effect st (.ok answer, { s with table := t })
  | keeps {name : String} {answer : Answer} (hsnapshot : st = .snapshot name) :
    s.Effect st (.ok answer, { s with kept := s.kept.insert name s.table })
  | stores {directory : Directory} {answer : Answer} (hquiet : ∀ t, ¬ s.Publishes st t) :
    s.Effect st (.ok answer, { s with directory })
  | grows {file : String} {directory : Directory} {failure : Failure} (hsave : st = .save file)
    (hgrows : s.directory.Grows directory) :
    s.Effect st (.error failure, { s with directory })
  | stays {answer : Except Failure Answer} (hquiet : ∀ t, ¬ s.Publishes st t) :
    s.Effect st (answer, s)

theorem effect_publish {st : Step} {table : Except Failure CurrencyTable}
    (h : ∀ t, s.Publishes st t ↔ table = .ok t) (answer : CurrencyTable → Answer) :
    s.Effect st (s.publish table answer) := by
  cases table with
  | ok t => exact .publishes ((h t).2 rfl)
  | error failure =>
    refine .stays fun t hpublishes => ?_
    cases (h t).1 hpublishes

theorem effect_store {st : Step} (h : ∀ t, ¬ s.Publishes st t)
    (change : Except FileFault Directory) (answer : Answer) :
    s.Effect st (s.store change answer) := by
  cases change with
  | ok directory => exact .stores h
  | error fault => exact .stays h

theorem effect_step (s : Session) (st : Step) : s.Effect st (s.step st) := by
  cases st with
  | replace source =>
    refine effect_publish (fun t => ⟨fun h => ?_, .replace⟩) _
    cases h with
    | replace htable => exact htable
  | load file =>
    refine effect_publish (fun t => ⟨fun h => ?_, .load⟩) _
    cases h with
    | load htable => exact htable
  | restore name =>
    unfold step
    dsimp only
    split
    · rename_i t hkept
      exact .publishes (.restore hkept)
    · rename_i hkept
      refine .stays fun t hpublishes => ?_
      cases hpublishes with
      | restore htable =>
        rw [hkept] at htable
        cases htable
  | snapshot name => exact .keeps rfl
  | write file text =>
    refine effect_store (fun t hpublishes => ?_) _ _
    cases hpublishes
  | save file =>
    have hquiet : ∀ t, ¬ s.Publishes (.save file) t := nofun
    change s.Effect _ (s.save {} file)
    obtain ⟨directory, hgrows, ⟨stage, fault, hsave⟩ | ⟨place, _, hsave⟩⟩ := s.save_cases {} file
    · rw [hsave]
      exact .grows rfl hgrows
    · rw [hsave]
      exact .stores hquiet
  | _ => exact .stays fun _ => nofun

theorem table_of_publishes {st : Step} {t : CurrencyTable} (h : s.Publishes st t) :
    (s.step st).2.table = t := by
  cases h with
  | replace htable => simp only [step, publish, htable]
  | load htable => simp only [step, publish, htable]
  | restore htable => simp only [step, htable]

theorem table_of_not_publishes {st : Step} (h : ∀ t, ¬ s.Publishes st t) :
    (s.step st).2.table = s.table := by
  have heffect := s.effect_step st
  generalize s.step st = after at heffect
  cases heffect with
  | publishes hpublishes => exact absurd hpublishes (h _)
  | keeps _ => rfl
  | stores _ => rfl
  | grows _ _ => rfl
  | stays _ => rfl

/-- A step that fails leaves the session as it was, but for folders that a save has made. -/
theorem eq_of_error {st : Step} {failure : Failure} (h : (s.step st).1 = .error failure) :
    ((∀ file, st ≠ .save file) → (s.step st).2 = s) ∧
      ∃ directory, s.directory.Grows directory ∧ (s.step st).2 = { s with directory } := by
  have heffect := s.effect_step st
  generalize s.step st = after at heffect h
  cases heffect with
  | publishes _ => cases h
  | keeps _ => cases h
  | stores _ => cases h
  | grows hsave hgrows => exact ⟨fun hnot => absurd hsave (hnot _), _, hgrows, rfl⟩
  | stays _ => exact ⟨fun _ => rfl, _, .refl s.directory, rfl⟩

theorem settings_step (s : Session) (st : Step) : (s.step st).2.settings = s.settings := by
  have heffect := s.effect_step st
  generalize s.step st = after at heffect
  cases heffect <;> rfl

/-- Only a snapshot of the same name changes what is kept under a name. -/
theorem kept_step {st : Step} {name : String} (h : st ≠ .snapshot name) :
    (s.step st).2.kept.get? name = s.kept.get? name := by
  have heffect := s.effect_step st
  generalize s.step st = after at heffect
  cases heffect with
  | publishes _ => rfl
  | @keeps other _ hsnapshot =>
    have hne : name ≠ other := by
      rintro rfl
      exact h hsnapshot
    exact s.kept.get?_insert_of_ne s.table hne
  | stores _ => rfl
  | grows _ _ => rfl
  | stays _ => rfl

/-! ## Some steps -/

/-- The session after some steps. -/
def after (s : Session) (steps : List Step) : Session :=
  steps.foldl (fun s st => (s.step st).2) s

theorem after_append (s : Session) (steps steps' : List Step) :
    s.after (steps ++ steps') = (s.after steps).after steps' :=
  List.foldl_append

theorem after_concat (s : Session) (steps : List Step) (st : Step) :
    s.after (steps ++ [st]) = ((s.after steps).step st).2 :=
  s.after_append steps [st]

/-- The answers to some steps, and then those to the steps that follow. -/
theorem run_append (s : Session) (steps steps' : List Step) :
    s.run (steps ++ steps') = s.run steps ++ (s.after steps).run steps' := by
  induction steps generalizing s with
  | nil => rfl
  | cons st rest ih => exact congrArg ((s.step st).1 :: ·) (ih (s.step st).2)

/-- None of the steps makes a table the current one. -/
def Quiet (s : Session) (steps : List Step) : Prop :=
  ∀ before st later, steps = before ++ st :: later → ∀ t, ¬ (s.after before).Publishes st t

/-- The table that is the current one after some steps: the first one, if no step published a table,
or the one that was published last. -/
inductive LastPublished (s : Session) (steps : List Step) : CurrencyTable → Prop
  | never (hquiet : s.Quiet steps) : s.LastPublished steps s.table
  | published (before : List Step) {later : List Step} {st : Step} {t : CurrencyTable}
    (hsteps : steps = before ++ st :: later) (hpublishes : (s.after before).Publishes st t)
    (hquiet : (s.after (before ++ [st])).Quiet later) : s.LastPublished steps t

theorem Quiet.cons {st : Step} {rest : List Step} (hst : ∀ t, ¬ s.Publishes st t)
    (hrest : (s.step st).2.Quiet rest) : s.Quiet (st :: rest) := by
  intro before st' later hsteps
  cases before with
  | nil =>
    cases hsteps
    exact hst
  | cons first before =>
    cases hsteps
    exact hrest before st' later rfl

theorem lastPublished_after (s : Session) (steps : List Step) :
    s.LastPublished steps (s.after steps).table := by
  induction steps generalizing s with
  | nil =>
    refine .never ?_
    intro before st later hsteps
    exact absurd hsteps.symm (by simp)
  | cons st rest ih =>
    have hrest := ih (s.step st).2
    change s.LastPublished (st :: rest) ((s.step st).2.after rest).table
    generalize ((s.step st).2.after rest).table = last at hrest
    cases hrest with
    | never hquiet =>
      by_cases hst : ∃ t, s.Publishes st t
      · obtain ⟨t, ht⟩ := hst
        rw [table_of_publishes ht]
        exact .published [] rfl ht hquiet
      · have hst := not_exists.1 hst
        rw [table_of_not_publishes hst]
        exact .never (.cons hst hquiet)
    | @published before later st' t hsteps hpublishes hquiet =>
      exact .published (st :: before) (congrArg (st :: ·) hsteps) hpublishes hquiet

theorem settings_after (s : Session) (steps : List Step) :
    (s.after steps).settings = s.settings := by
  induction steps generalizing s with
  | nil => rfl
  | cons st rest ih => exact (ih (s.step st).2).trans (s.settings_step st)

theorem kept_after {steps : List Step} {name : String} (h : .snapshot name ∉ steps) :
    (s.after steps).kept.get? name = s.kept.get? name := by
  induction steps generalizing s with
  | nil => rfl
  | cons st rest ih =>
    have hst : st ≠ .snapshot name := by
      rintro rfl
      exact h List.mem_cons_self
    have hrest : .snapshot name ∉ rest := fun hmem => h (List.mem_cons_of_mem _ hmem)
    exact (ih hrest).trans (kept_step hst)

/-! ## Questions -/

/-- A session with nothing but settings and a current table. -/
def ofTable (settings : Recognition.Settings) (table : CurrencyTable) : Session :=
  { settings, table }

/-- An answer depends on nothing but the settings and the current table. -/
theorem answer_congr {s' : Session} (hsettings : s'.settings = s.settings)
    (htable : s'.table = s.table) {st : Step} (hasks : st.asksTable = true) :
    (s'.step st).1 = (s.step st).1 := by
  cases st with
  | replace | snapshot | snapshotCodes | snapshotClassify | restore | write | save | load =>
    cases hasks
  | _ => simp only [step, answer, rule, hsettings, htable]

/-- What is asked of the table that a session keeps under a name is answered as it was answered on
the current table of another session, and after that table was restored every question is. -/
structure AnswersAs (s : Session) (name : String) (taken : Session) : Prop where
  kept : s.kept.get? name = some taken.table
  codes : (s.step (.snapshotCodes name)).1 = (taken.step .codes).1
  classify : ∀ code tokens c, taken.table.get? code = some c →
    (s.step (.snapshotClassify name code tokens)).1 = (taken.step (.classify code tokens)).1
  unknown : ∀ code tokens, taken.table.get? code = none →
    (s.step (.snapshotClassify name code tokens)).1 = .ok .nothing
  restored : ∀ st, st.asksTable = true →
    ((s.after [.restore name]).step st).1 = (taken.step st).1

theorem answersAs_of_kept {taken : Session} {name : String}
    (hsettings : s.settings = taken.settings) (hkept : s.kept.get? name = some taken.table) :
    s.AnswersAs name taken := by
  refine ⟨hkept, ?_, ?_, ?_, ?_⟩
  · simp only [step, answer, hkept]
    rfl
  · intro code tokens c hc
    simp only [step, answer, hkept, CurrencyTable.lookup, Option.bind_some, hc]
    rfl
  · intro code tokens hnone
    simp only [step, answer, hkept, Option.bind_some, hnone]
    rfl
  · intro st hasks
    have hrestored : (s.after [.restore name]).table = taken.table :=
      table_of_publishes (.restore hkept)
    exact answer_congr ((s.settings_after _).trans hsettings) hrestored hasks

/-- After any steps the current table is the one that was published last.  A step that fails leaves
the session as it was, but for folders that a save has made in vain, and a step that publishes no
table leaves the current one.  A question is answered on the current table alone.  A table that is
kept then is the one that is asked as long as none is kept under the same name, whatever is
published. -/
theorem current_after (s : Session) (steps : List Step) :
    s.LastPublished steps (s.after steps).table ∧
      (∀ st failure, ((s.after steps).step st).1 = .error failure →
        ((∀ file, st ≠ .save file) → s.after (steps ++ [st]) = s.after steps) ∧
          ∃ directory, (s.after steps).directory.Grows directory ∧
            s.after (steps ++ [st]) = { s.after steps with directory }) ∧
      (∀ st, (∀ t, ¬ (s.after steps).Publishes st t) →
        (s.after (steps ++ [st])).table = (s.after steps).table) ∧
      (∀ st, st.asksTable = true →
        ((s.after steps).step st).1 = ((ofTable s.settings (s.after steps).table).step st).1) ∧
      (∀ st later, s.run (steps ++ st :: later) =
        s.run steps ++ ((s.after steps).step st).1 :: (s.after (steps ++ [st])).run later) ∧
      ∀ name later, .snapshot name ∉ later →
        (s.after (steps ++ .snapshot name :: later)).AnswersAs name (s.after steps) := by
  refine ⟨s.lastPublished_after steps, ?_, ?_, ?_, ?_, ?_⟩
  · intro st failure hfails
    rw [after_concat]
    exact eq_of_error hfails
  · intro st hquiet
    rw [after_concat]
    exact table_of_not_publishes hquiet
  · intro st hasks
    have hsettings : (s.after steps).settings =
        (ofTable s.settings (s.after steps).table).settings := s.settings_after steps
    exact answer_congr hsettings rfl hasks
  · intro st later
    rw [run_append, after_concat]
    rfl
  · intro name later hlater
    refine answersAs_of_kept ?_ ?_
    · rw [settings_after, settings_after]
    · rw [after_append]
      have hkept := kept_after (s := ((s.after steps).step (.snapshot name)).2) hlater
      exact hkept.trans (KeyMap.get?_insert_self _ name _)

end Session

end Banknote
