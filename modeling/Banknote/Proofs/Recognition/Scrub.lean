import Banknote.Proofs.Pattern.Agreement
import Banknote.Proofs.Pattern.Seams
import Banknote.Proofs.Recognition.Extract

/-!
# What the removal patterns leave

The removal patterns of a plan are stripped once each, one after the other.  Stripping a match brings
characters together, so a pattern may match again what is left.  `CurrencyTable.scrub_seam` says that
this is the only way: a match of a removal pattern in the scrubbed text touches a seam, where its own
pass or a later one took characters out.

* Matches.  `Matcher.MatchesAt` is a match in any way, not only in the preferred one.
* Passes.  `scrub_eq`: up to a pattern and from there on.
* Patterns.  `consumes_of_node`: a way to see that a pattern does not match without a character.

`CurrencyTable.scrub_leaves_match` is a plan for which a match is left.
-/

namespace Banknote

open Pattern

namespace Pattern

/-! ## Matches -/

namespace Matcher

variable {m : Matcher}

/-- The pattern matches a piece of a text in some way. -/
def MatchesAt (m : Matcher) (text : String) (first stop : Nat) : Prop :=
  first ≤ text.length ∧
    ∃ s, Leads text.toList.toArray m.program.node (.init first) s ∧ s.pos = stop

/-- What a search finds is one character. -/
def TakesOne (m : Matcher) : Prop :=
  ∀ (text : Array Char) (place tried : Nat) (s : State),
    m.search text place = .found tried s → s.pos = tried + 1

theorem size_chars (text : String) : text.toList.toArray.size = text.length := by
  rw [List.size_toArray, String.length_toList]

theorem exists_matchesAt (hregular : m.program.node.isRegular = true) {text : String}
    (h : m.isMatch text = true) :
    ∃ tried s, m.search text.toList.toArray 0 = .found tried s ∧
      m.MatchesAt text tried s.pos := by
  obtain ⟨tried, s, hfound⟩ := isMatch_iff.1 h
  have hlt := tried_lt_of_searchFrom hfound
  rw [size_chars] at hlt
  have hleads := (leads_of_search hfound).searchedFrom (Node.uses_of_isRegular hregular) tried
  exact ⟨tried, s, hfound, by omega, _, hleads, rfl⟩

end Matcher

end Pattern

/-! ## Passes -/

namespace SerialPlan

/-- A text without what some removal patterns match, one after the other. -/
def strip (ms : List Matcher) (value : String) : String :=
  ms.foldl (fun text m => m.removeAll text) value

theorem scrub_eq {p : SerialPlan} {before after : List Matcher} {pattern : Matcher}
    (h : p.tokensToRemove = before ++ pattern :: after) (joined : String) :
    p.scrub joined = strip (pattern :: after) (strip before joined) := by
  rw [scrub, h, List.foldl_append]
  rfl

section

variable {source : String} {pattern : Matcher} {after : List Matcher} {reached : String}

theorem picks_strip (hlinear : ∀ m ∈ pattern :: after, m.engine = .linear) (reached : String) :
    Picks (Matcher.survivors (pattern :: after) reached) reached.toList.toArray
      (strip (pattern :: after) reached).toList.toArray :=
  Matcher.picks_survivors hlinear reached

theorem strip_seam (hpattern : Matcher.linear? source = some pattern)
    (hlinear : ∀ m ∈ pattern :: after, m.engine = .linear) (hconsumes : pattern.Consumes)
    {first stop : Nat} (hmatch : pattern.MatchesAt (strip (pattern :: after) reached) first stop) :
    ∃ pos, first ≤ pos ∧ pos ≤ stop ∧
      IsSeam reached.length (Matcher.survivors (pattern :: after) reached) pos ∧
      (pattern.program.node.asserts = false → first < pos ∧ pos < stop) := by
  obtain ⟨hfirst, s, hleads, rfl⟩ := hmatch
  have hpicks := picks_strip hlinear reached
  rw [← Matcher.size_chars] at hfirst ⊢
  apply hpicks.exists_seam hpattern hconsumes _ hfirst hleads
  intro place hplace span hspan
  have hkept := Matcher.mem_kept_of_mem_survivors hlinear hplace
  exact Matcher.not_covers_of_mem_kept hkept hspan

/-- Where nothing is taken out there was nothing to take out. -/
theorem isMatch_of_strip_eq (hpattern : Matcher.linear? source = some pattern)
    (hlinear : ∀ m ∈ pattern :: after, m.engine = .linear) (hconsumes : pattern.Consumes)
    (hsame : strip (pattern :: after) reached = reached) : pattern.isMatch reached = false := by
  rw [← Bool.not_eq_true]
  intro hmatch
  obtain ⟨tried, s, hfound, hmatches⟩ :=
    Matcher.exists_matchesAt (Matcher.isRegular_of_linear? hpattern) hmatch
  rw [← hsame] at hmatches
  obtain ⟨pos, _, hstop, hpos, _⟩ := strip_seam hpattern hlinear hconsumes hmatches
  have hpicks := picks_strip hlinear reached
  rw [hsame] at hpicks
  rw [← Matcher.size_chars] at hpos
  have hend := Matcher.pos_le_of_search hfound
  exact hpicks.not_isSeam rfl (Nat.le_trans hstop hend) hpos

/-- A match of one character runs over no seam. -/
theorem isMatch_strip_of_takesOne (hpattern : Matcher.linear? source = some pattern)
    (hlinear : ∀ m ∈ pattern :: after, m.engine = .linear) (hconsumes : pattern.Consumes)
    (hasserts : pattern.program.node.asserts = false) (hone : pattern.TakesOne) :
    pattern.isMatch (strip (pattern :: after) reached) = false := by
  rw [← Bool.not_eq_true]
  intro hmatch
  obtain ⟨tried, s, hfound, hmatches⟩ :=
    Matcher.exists_matchesAt (Matcher.isRegular_of_linear? hpattern) hmatch
  obtain ⟨pos, _, _, _, hinner⟩ := strip_seam hpattern hlinear hconsumes hmatches
  obtain ⟨hlt, hlt'⟩ := hinner hasserts
  have hend : s.pos = tried + 1 := hone _ _ _ _ hfound
  omega

end

end SerialPlan

/-! ## Plans -/

namespace CurrencyTable

variable {source : Config.Table} {t : CurrencyTable} {plan : SerialPlan}

/-- A removal pattern that does not match without a character matches what was scrubbed only where
its own pass or a later one brought characters together: every such match, in whatever way, touches
a seam, and runs over it if the pattern has no assertions.  So it does not match at all if no more
characters were taken out from its own pass on, or if it takes single characters without
assertions. -/
theorem scrub_seam (h : ofConfig source = .ok t) (hplan : t.HasPlan plan) {tokens : List String}
    {joined : String} (hjoin : Token.join tokens plan.joinMethod = some joined)
    {before after : List Matcher} {pattern : Matcher}
    (hsplit : plan.tokensToRemove = before ++ pattern :: after) (hconsumes : pattern.Consumes) :
    (joined ≠ "" →
        plan.extract tokens = ((plan.matcher.groups? (plan.scrub joined)).map plan.pick).getD "") ∧
      (∀ first stop, pattern.MatchesAt (plan.scrub joined) first stop →
        ∃ pos, first ≤ pos ∧ pos ≤ stop ∧
          IsSeam (SerialPlan.strip before joined).length
            (Matcher.survivors (pattern :: after) (SerialPlan.strip before joined)) pos ∧
          (pattern.program.node.asserts = false → first < pos ∧ pos < stop)) ∧
      (plan.scrub joined = SerialPlan.strip before joined →
        pattern.isMatch (plan.scrub joined) = false) ∧
      (pattern.program.node.asserts = false → pattern.TakesOne →
        pattern.isMatch (plan.scrub joined) = false) := by
  obtain ⟨d, hd⟩ := hplan.exists_directive h
  have hlinear : ∀ m ∈ pattern :: after, m.engine = .linear := by
    intro m hm
    apply hd.removesLinearly
    rw [hsplit]
    exact List.mem_append_right _ hm
  have hmem : pattern ∈ plan.tokensToRemove := by
    rw [hsplit]
    exact List.mem_append_right _ List.mem_cons_self
  obtain ⟨_, _, hpattern⟩ := (mem_of_map_some hd.tokensToRemove).1 hmem
  refine ⟨plan.extract_of_join hjoin, ?_, ?_, ?_⟩
  · intro first stop hmatch
    rw [SerialPlan.scrub_eq hsplit] at hmatch
    exact SerialPlan.strip_seam hpattern hlinear hconsumes hmatch
  · intro hsame
    rw [hsame]
    apply SerialPlan.isMatch_of_strip_eq hpattern hlinear hconsumes
    rw [← SerialPlan.scrub_eq hsplit, hsame]
  · intro hasserts hone
    rw [SerialPlan.scrub_eq hsplit]
    exact SerialPlan.isMatch_strip_of_takesOne hpattern hlinear hconsumes hasserts hone

/-- A directive that removes a year before the hyphens. -/
def hyphenatedYear : Config.Directive where
  pattern := some "1904"
  joinMethod := .concatenated
  tokensToRemove := ["1904", "-"]

/-- The year was split by a hyphen when years were removed, and is brought together when hyphens
are. -/
theorem scrub_seam_hyphenated :
    ∃ t plan year hyphen, ofConfig (lone hyphenatedYear) = .ok t ∧ t.HasPlan plan ∧
      plan.tokensToRemove = [year, hyphen] ∧ Matcher.linear? "1904" = some year ∧ year.Consumes ∧
      plan.scrub "19-04" = "1904" ∧ plan.extract ["19-04"] = "1904" ∧
      ∃ pos, 0 < pos ∧ pos < 4 ∧ IsSeam 5 (Matcher.survivors [year, hyphen] "19-04") pos := by
  obtain ⟨t, plan, ht, hplan, hcompile⟩ := exists_lone (d := hyphenatedYear) (by decide +kernel)
  have hremove := (SerialPlan.compile_ok hcompile).tokensToRemove
  have hlength : plan.tokensToRemove.length = 2 := by
    rw [← List.length_map some, hremove]
    rfl
  obtain ⟨year, hyphen, htwo⟩ := List.length_eq_two.1 hlength
  rw [htwo] at hremove
  have hyear : some year = Matcher.linear? "1904" := (List.cons.inj hremove).1
  have hruns : (SerialPlan.compile (.directive "XTS" Place.serialKey) hyphenatedYear).toOption.any
      (fun plan => plan.scrub "19-04" == "1904" && plan.extract ["19-04"] == "1904") = true := by
    decide +kernel
  rw [hcompile] at hruns
  obtain ⟨hscrub, hextract⟩ := Bool.and_eq_true_iff.1 hruns
  have hscrub : plan.scrub "19-04" = "1904" := eq_of_beq hscrub
  have hmatches : (Matcher.linear? "1904").any (fun m =>
      m.search "1904".toList.toArray 0 == .found 0 ⟨4, 0, 0, []⟩ &&
        (m.program.node.consumes && !m.program.node.asserts)) = true := by
    decide +kernel
  rw [← hyear] at hmatches
  obtain ⟨hfound, hnode⟩ := Bool.and_eq_true_iff.1 hmatches
  obtain ⟨hconsumes, hasserts⟩ := Bool.and_eq_true_iff.1 hnode
  have hconsumes : year.Consumes := Matcher.consumes_of_node hconsumes
  have hsplit : plan.tokensToRemove = [] ++ year :: [hyphen] := htwo
  have hjoin : Token.join ["19-04"] plan.joinMethod = some "19-04" := by
    rw [(SerialPlan.compile_ok hcompile).joinMethod]
    decide
  obtain ⟨_, hseam, _⟩ := scrub_seam ht hplan hjoin hsplit hconsumes
  rw [hscrub] at hseam
  obtain ⟨pos, _, _, hpos, hinner⟩ :=
    hseam 0 4 ⟨Nat.zero_le _, _, Matcher.leads_of_search (eq_of_beq hfound), rfl⟩
  obtain ⟨hlt, hlt'⟩ := hinner (by simpa using hasserts)
  exact ⟨t, plan, year, hyphen, ht, hplan, htwo, hyear.symm, hconsumes, hscrub,
    eq_of_beq hextract, pos, hlt, hlt', hpos⟩

/-- What the removal patterns leave may still be matched by one of them. -/
theorem scrub_leaves_match :
    ¬ ∀ (source : Config.Table) (t : CurrencyTable) (plan : SerialPlan) (tokens : List String)
      (joined : String), ofConfig source = .ok t → t.HasPlan plan →
        Token.join tokens plan.joinMethod = some joined →
          ∀ pattern ∈ plan.tokensToRemove, pattern.Consumes →
            pattern.isMatch (plan.scrub joined) = false := by
  intro hnone
  obtain ⟨t, plan, ht, hplan, hcompile⟩ := exists_lone (d := hyphenatedYear) (by decide +kernel)
  have hruns : (SerialPlan.compile (.directive "XTS" Place.serialKey) hyphenatedYear).toOption.any
      (fun plan => plan.tokensToRemove.any fun m =>
        m.isMatch (plan.scrub "19-04") && m.program.node.consumes) = true := by
    decide +kernel
  rw [hcompile] at hruns
  obtain ⟨year, hyear, hruns⟩ := List.any_eq_true.1 hruns
  obtain ⟨hmatch, hconsumes⟩ := Bool.and_eq_true_iff.1 hruns
  have hjoin : Token.join ["19-04"] plan.joinMethod = some "19-04" := by
    rw [(SerialPlan.compile_ok hcompile).joinMethod]
    decide
  have hno := hnone _ t plan ["19-04"] "19-04" ht hplan hjoin year hyear
    (Matcher.consumes_of_node hconsumes)
  rw [hmatch] at hno
  cases hno

end CurrencyTable

end Banknote
