import Banknote.Proofs.Config.Readable
import Banknote.Proofs.Recognition.Process

/-!
# References between the entries of a serial tree

The entries of a serial tree may name each other in any way: along chains, in circles, themselves,
or names that no entry stands under.  `Reaches` counts the references on the way from a key to a
plan.

* Cases.  `Resolution` says in which of six cases a tree and a denomination are, and
  `resolution_resolve` that `resolve` gives the answer of the case.
* Answers.  `resolve_eq_ok_iff`, `resolve_eq_unsupportedReference_iff` and
  `resolve_eq_directiveNotDefined_iff` say when each answer is given.
* One reference.  `resolve_of_far` and `resolve_congr`: nothing behind a second reference is seen.
* Trees that are read.  `resolve_of_unprefixed`: every entry stands under an entry name, so a
  reference to another name leads nowhere.

`resolve_follows_one_reference` puts these together.
-/

namespace Banknote.SerialTree

/-- The key of the entry that a denomination has for itself. -/
def OwnKey (denomination : Option String) (key : String) : Prop :=
  ∃ d, denomination = some d ∧ d ≠ "" ∧ key = Config.entryKey d

/-- The entry under a key is the name of another entry. -/
def Refers (t : SerialTree) (key name : String) : Prop :=
  t.entries.get? key = some (.reference name)

/-- A plan is reached from a key over a number of references. -/
inductive Reaches (t : SerialTree) : Nat → String → SerialPlan → Prop
  | own {key : String} {plan : SerialPlan} (hentry : t.entries.get? key = some (.concrete plan)) :
    Reaches t 0 key plan
  | hop {hops : Nat} {key name : String} {plan : SerialPlan} (hentry : t.Refers key name)
    (hrest : Reaches t hops name plan) : Reaches t (hops + 1) key plan

/-! ## Cases -/

/-- The case that a denomination is in, and the answer. -/
inductive Resolution (t : SerialTree) (denomination : Option String) :
    Except Failure SerialPlan → Prop
  | unnamed (hno : ∀ key, ¬ OwnKey denomination key) : Resolution t denomination (.ok t.root)
  | default {key : String} (hkey : OwnKey denomination key) (hentry : t.entries.get? key = none) :
    Resolution t denomination (.ok t.root)
  | own {key : String} {plan : SerialPlan} (hkey : OwnKey denomination key)
    (hentry : t.entries.get? key = some (.concrete plan)) : Resolution t denomination (.ok plan)
  | referred {key name : String} {plan : SerialPlan} (hkey : OwnKey denomination key)
    (hentry : t.Refers key name) (hname : t.entries.get? name = some (.concrete plan)) :
    Resolution t denomination (.ok plan)
  | chained {key name other : String} (hkey : OwnKey denomination key) (hentry : t.Refers key name)
    (hname : t.Refers name other) : Resolution t denomination (.error (.unsupportedReference name))
  | missing {key name : String} (hkey : OwnKey denomination key) (hentry : t.Refers key name)
    (hname : t.entries.get? name = none) :
    Resolution t denomination (.error (.directiveNotDefined name))

theorem OwnKey.unique {denomination : Option String} {key key' : String}
    (h : OwnKey denomination key) (h' : OwnKey denomination key') : key = key' := by
  obtain ⟨d, hd, _, rfl⟩ := h
  obtain ⟨d', hd', _, rfl⟩ := h'
  obtain rfl : d = d' := Option.some.inj (hd.symm.trans hd')
  rfl

theorem resolution_resolve (t : SerialTree) (denomination : Option String) :
    Resolution t denomination (t.resolve denomination) := by
  cases denomination with
  | none => exact .unnamed fun _ ⟨_, h, _⟩ => by cases h
  | some d =>
    by_cases hd : d = ""
    · subst hd
      exact .unnamed fun _ ⟨_, h, hne, _⟩ => hne (Option.some.inj h).symm
    · have hkey : OwnKey (some d) (Config.entryKey d) := ⟨d, rfl, hd, rfl⟩
      rw [Recognition.resolve_of_ne_empty t hd]
      split
      · rename_i hentry
        exact .default hkey hentry
      · rename_i hentry
        exact .own hkey hentry
      · rename_i name hentry
        split
        · rename_i hname
          exact .referred hkey hentry hname
        · rename_i hname
          exact .chained hkey hentry hname
        · rename_i hname
          exact .missing hkey hentry hname

/-- There is one answer only. -/
theorem Resolution.unique {t : SerialTree} {denomination : Option String}
    {r r' : Except Failure SerialPlan} (h : Resolution t denomination r)
    (h' : Resolution t denomination r') : r = r' := by
  cases h with
  | unnamed hno =>
    cases h' with
    | unnamed => rfl
    | default hkey | own hkey | referred hkey | chained hkey | missing hkey =>
      exact absurd hkey (hno _)
  | default hkey hentry | own hkey hentry =>
    cases h' with
    | unnamed hno => exact absurd hkey (hno _)
    | default hkey' hentry' | own hkey' hentry' | referred hkey' hentry' | chained hkey' hentry'
      | missing hkey' hentry' =>
      cases hkey.unique hkey'
      cases hentry.symm.trans hentry'
      all_goals rfl
  | referred hkey hentry hname | chained hkey hentry hname | missing hkey hentry hname =>
    cases h' with
    | unnamed hno => exact absurd hkey (hno _)
    | default hkey' hentry' | own hkey' hentry' =>
      cases hkey.unique hkey'
      cases hentry.symm.trans hentry'
    | referred hkey' hentry' hname' | chained hkey' hentry' hname' | missing hkey' hentry' hname' =>
      cases hkey.unique hkey'
      cases hentry.symm.trans hentry'
      cases hname.symm.trans hname'
      all_goals rfl

theorem resolve_eq_iff {t : SerialTree} {denomination : Option String}
    {r : Except Failure SerialPlan} : t.resolve denomination = r ↔ Resolution t denomination r := by
  constructor
  · rintro rfl
    exact resolution_resolve t denomination
  · exact (resolution_resolve t denomination).unique

/-! ## Answers -/

section

variable {t : SerialTree} {denomination : Option String}

/-- A plan is found where a denomination has no entry, or over one reference at most. -/
theorem resolve_eq_ok_iff {plan : SerialPlan} :
    t.resolve denomination = .ok plan ↔
      ((∀ key, OwnKey denomination key → t.entries.get? key = none) ∧ plan = t.root) ∨
        ∃ key hops, OwnKey denomination key ∧ hops ≤ 1 ∧ t.Reaches hops key plan := by
  rw [resolve_eq_iff]
  constructor
  · intro h
    cases h with
    | unnamed hno => exact .inl ⟨fun key hkey => absurd hkey (hno key), rfl⟩
    | default hkey hentry => exact .inl ⟨fun key' hkey' => hkey.unique hkey' ▸ hentry, rfl⟩
    | own hkey hentry => exact .inr ⟨_, 0, hkey, Nat.zero_le _, .own hentry⟩
    | referred hkey hentry hname => exact .inr ⟨_, 1, hkey, Nat.le_refl _, .hop hentry (.own hname)⟩
  · rintro (⟨hnone, rfl⟩ | ⟨key, hops, hkey, hhops, hreaches⟩)
    · by_cases hown : ∃ key, OwnKey denomination key
      · obtain ⟨key, hkey⟩ := hown
        exact .default hkey (hnone key hkey)
      · exact .unnamed fun key hkey => hown ⟨key, hkey⟩
    · cases hreaches with
      | own hentry => exact .own hkey hentry
      | hop hentry hrest =>
        cases hrest with
        | own hname => exact .referred hkey hentry hname
        | hop => omega

/-- A reference is not followed if it names a reference. -/
theorem resolve_eq_unsupportedReference_iff {name : String} :
    t.resolve denomination = .error (.unsupportedReference name) ↔
      ∃ key, OwnKey denomination key ∧ t.Refers key name ∧ ∃ other, t.Refers name other := by
  rw [resolve_eq_iff]
  constructor
  · intro h
    cases h with
    | chained hkey hentry hname => exact ⟨_, hkey, hentry, _, hname⟩
  · rintro ⟨key, hkey, hentry, other, hname⟩
    exact .chained hkey hentry hname

/-- A reference cannot be followed if no entry has the name. -/
theorem resolve_eq_directiveNotDefined_iff {name : String} :
    t.resolve denomination = .error (.directiveNotDefined name) ↔
      ∃ key, OwnKey denomination key ∧ t.Refers key name ∧ t.entries.get? name = none := by
  rw [resolve_eq_iff]
  constructor
  · intro h
    cases h with
    | missing hkey hentry hname => exact ⟨_, hkey, hentry, hname⟩
  · rintro ⟨key, hkey, hentry, hname⟩
    exact .missing hkey hentry hname

/-- There is no other reason to find no plan. -/
theorem resolve_eq_error {failure : Failure} (h : t.resolve denomination = .error failure) :
    ∃ name, failure = .unsupportedReference name ∨ failure = .directiveNotDefined name := by
  rw [resolve_eq_iff] at h
  cases h with
  | chained => exact ⟨_, .inl rfl⟩
  | missing => exact ⟨_, .inr rfl⟩

/-! ## One reference -/

/-- A plan that is further away than one reference is not found. -/
theorem resolve_of_far {key : String} {plan : SerialPlan} {hops : Nat}
    (hkey : OwnKey denomination key) (h : t.Reaches (hops + 2) key plan) :
    ∃ name, t.Refers key name ∧ t.resolve denomination = .error (.unsupportedReference name) := by
  cases h with
  | hop hentry hrest =>
    cases hrest with
    | hop hname =>
      exact ⟨_, hentry, resolve_eq_unsupportedReference_iff.2 ⟨key, hkey, hentry, _, hname⟩⟩

/-- Two trees have the same default plan, the same entry for a denomination, and the same behind one
reference.  Where a second reference leads may differ. -/
structure AgreesNearby (t t' : SerialTree) (denomination : Option String) : Prop where
  root : t.root = t'.root
  entry : ∀ key, OwnKey denomination key → t.entries.get? key = t'.entries.get? key
  concrete : ∀ key name plan, OwnKey denomination key → t.Refers key name →
    (t.entries.get? name = some (.concrete plan) ↔ t'.entries.get? name = some (.concrete plan))
  missing : ∀ key name, OwnKey denomination key → t.Refers key name →
    (t.entries.get? name = none ↔ t'.entries.get? name = none)

theorem resolve_congr {t' : SerialTree} (h : t.AgreesNearby t' denomination) :
    t.resolve denomination = t'.resolve denomination := by
  have hcase := resolution_resolve t denomination
  refine (resolve_eq_iff.2 ?_).symm
  generalize t.resolve denomination = r at hcase
  cases hcase with
  | unnamed hno => exact h.root ▸ .unnamed hno
  | default hkey hentry => exact h.root ▸ .default hkey ((h.entry _ hkey).symm.trans hentry)
  | own hkey hentry => exact .own hkey ((h.entry _ hkey).symm.trans hentry)
  | referred hkey hentry hname =>
    exact .referred hkey ((h.entry _ hkey).symm.trans hentry)
      ((h.concrete _ _ _ hkey hentry).1 hname)
  | @chained key name other hkey hentry hname =>
    have hentry' : t'.Refers key name := (h.entry _ hkey).symm.trans hentry
    cases hname' : t'.entries.get? name with
    | none =>
      rw [Refers, (h.missing _ _ hkey hentry).2 hname'] at hname
      cases hname
    | some entry =>
      cases entry with
      | concrete plan =>
        rw [Refers, (h.concrete _ _ _ hkey hentry).2 hname'] at hname
        cases hname
      | reference other' => exact .chained hkey hentry' hname'
  | missing hkey hentry hname =>
    exact .missing hkey ((h.entry _ hkey).symm.trans hentry) ((h.missing _ _ hkey hentry).1 hname)

end

/-! ## Trees that are read -/

/-- In a tree that was read, every entry stands under an entry name. -/
theorem isEntryKey_of_mem_keys {d : Json.Doc} {depth : Nat} {config : Config.Serial}
    (hread : Config.Serial.ofDoc depth d = .ok config) {code : String} {t : SerialTree}
    (hcompile : compile code config = .ok t) {key : String} (hkey : key ∈ t.entries.keys) :
    Config.isEntryKey key = true := by
  rw [compile] at hcompile
  obtain ⟨root, _, hcompile⟩ := bind_eq_ok.1 hcompile
  obtain ⟨entries, hentries, hcompile⟩ := bind_eq_ok.1 hcompile
  cases hcompile
  rw [KeyMap.keys_traverse hentries] at hkey
  obtain ⟨e, he, rfl⟩ := List.mem_map.1 hkey
  exact (Config.Serial.readable_ofDoc hread).entryKey e he

/-- In a tree that was read, a reference to another name than an entry name leads nowhere. -/
theorem resolve_of_unprefixed {d : Json.Doc} {depth : Nat} {config : Config.Serial}
    (hread : Config.Serial.ofDoc depth d = .ok config) {code : String} {t : SerialTree}
    (hcompile : compile code config = .ok t) {denomination : Option String} {key name : String}
    (hkey : OwnKey denomination key) (hentry : t.Refers key name)
    (hname : Config.isEntryKey name = false) :
    t.resolve denomination = .error (.directiveNotDefined name) := by
  refine resolve_eq_directiveNotDefined_iff.2 ⟨key, hkey, hentry, ?_⟩
  rw [KeyMap.get?_eq_none_iff]
  intro hmem
  rw [isEntryKey_of_mem_keys hread hcompile hmem] at hname
  cases hname

/-- A plan is found exactly if a denomination has no entry of its own, which gives the default plan,
or if a plan is reached from its entry over one reference at most.  Otherwise the name in its entry
is told: it is the name of a reference, the same one or another, or it is the name of no entry.
What stands behind a second reference is never seen.  In a tree that was read, a reference to a name
that does not start as entry names do is always of the last kind. -/
theorem resolve_follows_one_reference (t : SerialTree) (denomination : Option String) :
    (∀ plan, t.resolve denomination = .ok plan ↔
        ((∀ key, OwnKey denomination key → t.entries.get? key = none) ∧ plan = t.root) ∨
          ∃ key hops, OwnKey denomination key ∧ hops ≤ 1 ∧ t.Reaches hops key plan) ∧
      (∀ name, t.resolve denomination = .error (.unsupportedReference name) ↔
        ∃ key, OwnKey denomination key ∧ t.Refers key name ∧ ∃ other, t.Refers name other) ∧
      (∀ name, t.resolve denomination = .error (.directiveNotDefined name) ↔
        ∃ key, OwnKey denomination key ∧ t.Refers key name ∧ t.entries.get? name = none) ∧
      (∀ failure, t.resolve denomination = .error failure →
        ∃ name, failure = .unsupportedReference name ∨ failure = .directiveNotDefined name) ∧
      (∀ key plan hops, OwnKey denomination key → t.Reaches (hops + 2) key plan →
        ∃ name, t.Refers key name ∧
          t.resolve denomination = .error (.unsupportedReference name)) ∧
      (∀ t' : SerialTree, t.AgreesNearby t' denomination →
        t.resolve denomination = t'.resolve denomination) ∧
      ∀ code depth d config, Config.Serial.ofDoc depth d = .ok config →
        compile code config = .ok t → ∀ key name, OwnKey denomination key → t.Refers key name →
          Config.isEntryKey name = false →
          t.resolve denomination = .error (.directiveNotDefined name) := by
  refine ⟨fun plan => resolve_eq_ok_iff, fun name => resolve_eq_unsupportedReference_iff,
    fun name => resolve_eq_directiveNotDefined_iff, fun failure => resolve_eq_error,
    fun key plan hops => resolve_of_far, fun t' => resolve_congr, ?_⟩
  intro code depth d config hread hcompile key name
  exact resolve_of_unprefixed hread hcompile

/-- The members of a tree with a directive for one denomination, a reference to it, one to that, one
to itself and one to the default directive. -/
def referringMembers : List (String × Json) :=
  [("pattern", .str "[0-9]+"), ("serial_10", .str "serial_5"), ("serial_20", .str "serial_10"),
    ("serial_30", .str "serial_30"), ("serial_40", .str "serial"),
    ("serial_5", .obj [("pattern", .str "[A-Z]+")])]

/-- The tree with these members. -/
def referringSerial : Config.Serial where
  root := { pattern := some "[0-9]+" }
  entries := .ofList [("serial_10", .reference "serial_5"), ("serial_20", .reference "serial_10"),
    ("serial_30", .reference "serial_30"), ("serial_40", .reference "serial"),
    ("serial_5", .concrete { pattern := some "[A-Z]+" })]

theorem resolve_follows_one_reference_referring :
    ∃ t, Config.Serial.ofDoc Config.maxDepth (Json.toDoc (.obj referringMembers)) =
        .ok referringSerial ∧
      compile "XTS" referringSerial = .ok t ∧
      (∃ plan, t.Reaches 1 "serial_10" plan ∧ t.resolve (some "10") = .ok plan) ∧
      t.resolve (some "20") = .error (.unsupportedReference "serial_10") ∧
      t.resolve (some "30") = .error (.unsupportedReference "serial_30") ∧
      t.resolve (some "40") = .error (.directiveNotDefined "serial") := by
  have hread : Config.Serial.ofDoc Config.maxDepth (Json.toDoc (.obj referringMembers)) =
      .ok referringSerial := rfl
  have hcompiles : (compile "XTS" referringSerial).toOption.isSome = true := by decide +kernel
  obtain ⟨t, ht⟩ := Option.isSome_iff_exists.1 hcompiles
  have hcompile := eq_ok_of_toOption ht
  have hfrom := compile_ok hcompile
  have hkey : ∀ d, d ≠ "" → OwnKey (some d) (Config.entryKey d) := fun d hd => ⟨d, rfl, hd, rfl⟩
  have hrefers : t.Refers "serial_10" "serial_5" := hfrom.reference _ _ rfl
  have hchained : t.Refers "serial_20" "serial_10" := hfrom.reference _ _ rfl
  have hself : t.Refers "serial_30" "serial_30" := hfrom.reference _ _ rfl
  have hroot : t.Refers "serial_40" "serial" := hfrom.reference _ _ rfl
  obtain ⟨plan, _, hplan⟩ := hfrom.concrete "serial_5" { pattern := some "[A-Z]+" } rfl
  have hreaches : t.Reaches 1 "serial_10" plan := .hop hrefers (.own hplan)
  obtain ⟨hfound, _⟩ := resolve_follows_one_reference t (some "10")
  obtain ⟨_, _, _, _, hfar, _⟩ := resolve_follows_one_reference t (some "20")
  obtain ⟨_, hunsupported, _⟩ := resolve_follows_one_reference t (some "30")
  obtain ⟨_, _, _, _, _, _, hunprefixed⟩ := resolve_follows_one_reference t (some "40")
  obtain ⟨name, hname, hfails⟩ :=
    hfar "serial_20" plan 0 (hkey "20" (by decide)) (.hop hchained hreaches)
  obtain rfl : "serial_10" = name :=
    SerialEntry.reference.inj (Option.some.inj (hchained.symm.trans hname))
  exact ⟨t, hread, hcompile,
    ⟨plan, hreaches, (hfound plan).2 (.inr ⟨_, 1, hkey "10" (by decide), Nat.le_refl 1, hreaches⟩)⟩,
    hfails, (hunsupported "serial_30").2 ⟨_, hkey "30" (by decide), hself, _, hself⟩,
    hunprefixed "XTS" _ _ _ hread hcompile _ _ (hkey "40" (by decide)) hroot rfl⟩

end Banknote.SerialTree
