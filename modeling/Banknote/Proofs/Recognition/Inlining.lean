import Banknote.Proofs.Currency.Acceptance
import Banknote.Proofs.Recognition.Process

/-!
# A directive in the place of a reference to it

An entry of a serial tree may be the name of another entry.  Writing the directive of that other
entry in its place changes no serial number, except for the denominations whose own entry names the
rewritten one: a reference is followed once, so they had no plan before.

* Plans.  `SerialPlan.CompiledFrom.extract_congr`: the place of a directive only names its plan.
* Trees.  `SerialTree.extract_congr`: two trees in which the same directive is resolved find the
  same serial numbers.
* Inlining.  `Acceptable.inline`: the rewritten configuration can be compiled.  `Resolves.inline`,
  `resolves_inline_self` and `resolves_inline_of_names` say what is resolved in it.

`SerialTree.extract_inlined` puts these together.
-/

namespace Banknote

open Recognition (Resolves)

/-! ## Plans -/

/-- Two plans of one directive find the same serial numbers. -/
theorem SerialPlan.CompiledFrom.extract_congr {d : Config.Directive} {p p' : SerialPlan}
    (h : p.CompiledFrom d) (h' : p'.CompiledFrom d) (tokens : List String) :
    p.extract tokens = p'.extract tokens := by
  have hmatcher : p.matcher = p'.matcher := Option.some.inj (h.matcher.symm.trans h'.matcher)
  have hgroup : p.captureGroup = p'.captureGroup := h.captureGroup.trans h'.captureGroup.symm
  have hjoin : p.joinMethod = p'.joinMethod := h.joinMethod.trans h'.joinMethod.symm
  have hremove : p.tokensToRemove = p'.tokensToRemove :=
    (List.map_inj_right fun _ _ => Option.some.inj).1
      (h.tokensToRemove.trans h'.tokensToRemove.symm)
  have hresult : p.resultFilters = p'.resultFilters :=
    (List.map_inj_right fun _ _ => Except.ok.inj).1
      (h.resultFilters.symm.trans h'.resultFilters)
  have hmatch : p.matchFilters = p'.matchFilters :=
    (List.map_inj_right fun _ _ => Except.ok.inj).1
      (h.matchFilters.symm.trans h'.matchFilters)
  simp only [SerialPlan.extract, SerialPlan.extractToken, SerialPlan.extractJoined,
    SerialPlan.scrub, SerialPlan.pick, hmatcher, hgroup, hjoin, hremove, hresult, hmatch]

/-! ## Trees -/

namespace SerialTree

variable {code : String} {s s' : Config.Serial} {t t' : SerialTree}

theorem exists_compile_iff (code : String) (s : Config.Serial) :
    (∃ t, compile code s = .ok t) ↔ s.Acceptable := by
  rw [(Checks.serial code s).exists_ok_iff, Config.Serial.acceptable_iff]

/-- What is found for a denomination depends on the directive that is resolved, not on its place. -/
theorem extract_congr (h : t.CompiledFrom code s) (h' : t'.CompiledFrom code s') {own : String}
    {resolved resolved' : Except Failure (String × Config.Directive)}
    (hresolves : Resolves s own resolved) (hresolves' : Resolves s' own resolved')
    (hsame : resolved.map Prod.snd = resolved'.map Prod.snd) (tokens : List String) :
    t.extract (some own) tokens = t'.extract (some own) tokens := by
  cases resolved with
  | error failure =>
    cases resolved' with
    | error failure' =>
      cases hsame
      rw [extract, extract, Recognition.resolve_eq_error h hresolves,
        Recognition.resolve_eq_error h' hresolves']
    | ok _ => cases hsame
  | ok found =>
    cases resolved' with
    | error _ => cases hsame
    | ok found' =>
      obtain ⟨key, directive⟩ := found
      obtain ⟨key', directive'⟩ := found'
      obtain rfl : directive = directive' := Except.ok.inj hsame
      obtain ⟨plan, hplan, hresolve⟩ := Recognition.resolve_eq_ok h hresolves
      obtain ⟨plan', hplan', hresolve'⟩ := Recognition.resolve_eq_ok h' hresolves'
      have hextract : plan.extract tokens = plan'.extract tokens :=
        (SerialPlan.compile_ok hplan).extract_congr (SerialPlan.compile_ok hplan') tokens
      rw [extract, extract, hresolve, hresolve']
      exact congrArg Except.ok hextract

end SerialTree

/-! ## Inlining -/

/-- The configuration with a directive written under a key. -/
def Config.Serial.inline (s : Config.Serial) (key : String) (directive : Config.Directive) :
    Config.Serial :=
  { s with entries := s.entries.insert key (.concrete directive) }

section

variable {code : String} {s : Config.Serial} {key name own : String} {directive : Config.Directive}

/-- A directive that stands in a configuration already can be written under any key. -/
theorem Config.Serial.Acceptable.inline (h : s.Acceptable)
    (htarget : s.entries.get? name = some (.concrete directive)) (key : String) :
    (s.inline key directive).Acceptable := by
  refine ⟨h.root, fun key' directive' hentry => ?_⟩
  by_cases hkey : key' = key
  · rw [hkey, Serial.inline, KeyMap.get?_insert_self] at hentry
    cases hentry
    exact h.entries name directive htarget
  · rw [Serial.inline, KeyMap.get?_insert_of_ne _ _ hkey] at hentry
    exact h.entries key' directive' hentry

/-- For a denomination whose entry stays, and does not name the rewritten one, the same is resolved
as before. -/
theorem Recognition.Resolves.inline {resolved : Except Failure (String × Config.Directive)}
    (h : Resolves s own resolved) (hkey : Config.entryKey own ≠ key)
    (hnames : s.entries.get? (Config.entryKey own) ≠ some (.reference key)) :
    Resolves (s.inline key directive) own resolved := by
  have hother : ∀ k ≠ key, ∀ entry, s.entries.get? k = entry →
      (s.inline key directive).entries.get? k = entry :=
    fun k hk _ hentry => (KeyMap.get?_insert_of_ne _ _ hk).trans hentry
  have hname : ∀ name, s.entries.get? (Config.entryKey own) = some (.reference name) →
      name ≠ key := by
    intro name hentry heq
    rw [hentry, heq] at hnames
    exact hnames rfl
  cases h with
  | unnamed hempty => exact .unnamed hempty
  | default hne hentry => exact .default hne (hother _ hkey _ hentry)
  | own hne hentry => exact .own hne (hother _ hkey _ hentry)
  | referred hne hentry hget =>
    exact .referred hne (hother _ hkey _ hentry) (hother _ (hname _ hentry) _ hget)
  | chained hne hentry hget =>
    exact .chained hne (hother _ hkey _ hentry) (hother _ (hname _ hentry) _ hget)
  | missing hne hentry hget =>
    exact .missing hne (hother _ hkey _ hentry) (hother _ (hname _ hentry) _ hget)

/-- For a denomination whose entry is rewritten, the directive that is written is resolved, and it
was resolved before if the entry named it. -/
theorem resolves_inline_self (hne : own ≠ "") (hkey : Config.entryKey own = key)
    (href : s.entries.get? key = some (.reference name))
    (htarget : s.entries.get? name = some (.concrete directive)) :
    Resolves s own (.ok (name, directive)) ∧
      Resolves (s.inline key directive) own (.ok (key, directive)) := by
  subst hkey
  exact ⟨.referred hne href htarget, .own hne (KeyMap.get?_insert_self _ _ _)⟩

/-- For a denomination whose entry names the rewritten one, a second reference had to be followed,
and none has to now. -/
theorem resolves_inline_of_names (hne : own ≠ "")
    (hnames : s.entries.get? (Config.entryKey own) = some (.reference key))
    (href : s.entries.get? key = some (.reference name))
    (htarget : s.entries.get? name = some (.concrete directive)) :
    Resolves s own (.error (.unsupportedReference key)) ∧
      Resolves (s.inline key directive) own (.ok (key, directive)) := by
  have hkey : Config.entryKey own ≠ key := by
    intro hkey
    rw [hkey, href] at hnames
    cases hnames
    rw [href] at htarget
    cases htarget
  have hentry : (s.inline key directive).entries.get? (Config.entryKey own) =
      some (.reference key) := (KeyMap.get?_insert_of_ne _ _ hkey).trans hnames
  exact ⟨.chained hne hnames href, .referred hne hentry (KeyMap.get?_insert_self _ _ _)⟩

end

namespace SerialTree

variable {code : String} {s : Config.Serial} {t : SerialTree}

/-- Writing the directive of an entry in the place of a reference to it leaves a tree that can be
compiled.  The serial number that is found, or the failure to find a plan, stays the same for every
denomination, given or not, whose own entry does not name the rewritten one.  For a denomination
whose own entry does, one reference too many had to be followed before. -/
theorem extract_inlined (h : compile code s = .ok t) {d name : String}
    {directive : Config.Directive}
    (href : s.entries.get? (Config.entryKey d) = some (.reference name))
    (htarget : s.entries.get? name = some (.concrete directive)) :
    ∃ inlined, compile code (s.inline (Config.entryKey d) directive) = .ok inlined ∧
      (∀ (denomination : Option String) (tokens : List String),
        (∀ own, denomination = some own →
          s.entries.get? (Config.entryKey own) ≠ some (.reference (Config.entryKey d))) →
        inlined.extract denomination tokens = t.extract denomination tokens) ∧
      ∀ (own : String) (tokens : List String), own ≠ "" →
        s.entries.get? (Config.entryKey own) = some (.reference (Config.entryKey d)) →
        t.extract (some own) tokens = .error (.unsupportedReference (Config.entryKey d)) ∧
          ∃ serial, inlined.extract (some own) tokens = .ok serial := by
  have hacceptable : s.Acceptable := (exists_compile_iff code s).1 ⟨t, h⟩
  have hinline : (s.inline (Config.entryKey d) directive).Acceptable := hacceptable.inline htarget _
  obtain ⟨inlined, hinlined⟩ := (exists_compile_iff code _).2 hinline
  have hfrom := compile_ok h
  have hfrom' := compile_ok hinlined
  -- Without a denomination the default plan is taken, as for the empty one.
  have hempty : ∀ tokens, inlined.extract (some "") tokens = t.extract (some "") tokens :=
    fun tokens => extract_congr hfrom' hfrom (.unnamed rfl) (.unnamed rfl) rfl tokens
  refine ⟨inlined, hinlined, fun denomination tokens hnames => ?_, fun own tokens hne hnames => ?_⟩
  · cases denomination with
    | none => exact hempty tokens
    | some own =>
      by_cases hne : own = ""
      · rw [hne]
        exact hempty tokens
      · by_cases hkey : Config.entryKey own = Config.entryKey d
        · obtain ⟨hbefore, hafter⟩ := resolves_inline_self hne hkey href htarget
          exact extract_congr hfrom' hfrom hafter hbefore rfl tokens
        · obtain ⟨resolved, hbefore⟩ := Recognition.exists_resolves s own
          have hafter : Recognition.Resolves (s.inline (Config.entryKey d) directive) own resolved :=
            hbefore.inline hkey (hnames own rfl)
          exact extract_congr hfrom' hfrom hafter hbefore rfl tokens
  · obtain ⟨hbefore, hafter⟩ := resolves_inline_of_names hne hnames href htarget
    obtain ⟨plan, _, hplan⟩ := Recognition.resolve_eq_ok hfrom' hafter
    rw [extract, extract, Recognition.resolve_eq_error hfrom hbefore, hplan]
    exact ⟨rfl, plan.extract tokens, rfl⟩

/-- A directive of its own for one denomination, a reference to it, and a reference to that. -/
def chainedSerial : Config.Serial where
  root := { pattern := some "[0-9]+" }
  entries := .ofList [("serial_5", .reference "serial_10"),
    ("serial_10", .concrete { pattern := some "[A-Z]+" }), ("serial_20", .reference "serial_5")]

theorem extract_inlined_chained :
    ∃ t inlined, compile "XTS" chainedSerial = .ok t ∧
      compile "XTS" (chainedSerial.inline (Config.entryKey "5") { pattern := some "[A-Z]+" }) =
        .ok inlined ∧
      t.extract (some "5") ["12", "AB"] = .ok "AB" ∧
      inlined.extract (some "5") ["12", "AB"] = .ok "AB" ∧
      t.extract (some "20") ["12", "AB"] = .error (.unsupportedReference (Config.entryKey "5")) := by
  have hcompiles : (compile "XTS" chainedSerial).toOption.any (fun t =>
      (t.extract (some "5") ["12", "AB"]).toOption == some "AB") = true := by decide +kernel
  obtain ⟨t, ht, hfound⟩ := (Option.any_eq_true _ _).1 hcompiles
  have htree := eq_ok_of_toOption ht
  have hextract := eq_ok_of_toOption (eq_of_beq hfound)
  obtain ⟨inlined, hinlined, hsame, hchained⟩ := extract_inlined htree (d := "5") rfl rfl
  have hagain : inlined.extract (some "5") ["12", "AB"] = t.extract (some "5") ["12", "AB"] := by
    apply hsame
    intro own hown hnames
    cases hown
    have hname : Config.entryKey "10" = Config.entryKey "5" :=
      Config.Entry.reference.inj (Option.some.inj hnames)
    exact absurd hname (by decide)
  exact ⟨t, inlined, htree, hinlined, hextract, hagain.trans hextract,
    (hchained "20" _ (by decide) rfl).1⟩

end SerialTree

end Banknote
