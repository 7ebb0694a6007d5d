import Banknote.Proofs.Currency.Image
import Banknote.Proofs.Pattern.Stretch
import Banknote.Proofs.Recognition.Classify

/-!
# Suggestions between joined tokens

A rule that joins tokens puts the suggestions for a token right behind it, before it joins.  A match
that runs from a token to the next one is torn if there are suggestions for the first of them.
There are four groups of statements.

* Joined tokens.  `toList_intercalate_append` says what is joined on by later tokens.
* Suggestions.  `expand_eq` takes an expansion apart token by token, and
  `CompiledFrom.suggestions_eq` reads the suggestions for one token off the configuration.
* Runs.  `InRun` says what of the joined tokens belongs to a run of tokens of which only the last one
  has suggestions.  Such a run is a stretch that the joined tokens have in common with the joined
  tokens and suggestions (`exists_common`, `exists_agree`).
* Rules.  `KeepsMatch` says that some way to match a pattern reads only what belongs to a run.

`isMatch_of_keepsMatches` puts these together: a rule that matches without its fuzzy section matches
with it, if each of its patterns keeps its match.  `isMatch_torn` is a rule that loses its match.
A pattern is one that `Pattern.Reader.readPattern` reads; what it refuses is named there.
-/

namespace Banknote

open Pattern (Agree InStretch Matcher Reader.readPattern Program.compile? trials)

/-! ## Joined tokens -/

namespace Token

/-- What tokens are joined to behind other tokens. -/
def behind (delimiter : String) (tokens : List String) : List Char :=
  tokens.flatMap fun token => delimiter.toList ++ token.toList

theorem behind_cons (delimiter token : String) (tokens : List String) :
    behind delimiter (token :: tokens) =
      delimiter.toList ++ token.toList ++ behind delimiter tokens :=
  List.flatMap_cons

theorem behind_append (delimiter : String) (tokens later : List String) :
    behind delimiter (tokens ++ later) = behind delimiter tokens ++ behind delimiter later :=
  List.flatMap_append

theorem toList_intercalate_cons (delimiter token : String) (tokens : List String) :
    (String.intercalate delimiter (token :: tokens)).toList =
      token.toList ++ behind delimiter tokens := by
  induction tokens generalizing token with
  | nil => rw [String.intercalate_singleton, behind, List.flatMap_nil, List.append_nil]
  | cons next tokens ih =>
    simp only [String.intercalate_cons_cons, String.toList_append, ih, behind_cons,
      List.append_assoc]

theorem toList_intercalate_append (delimiter : String) {tokens : List String} (hne : tokens ≠ [])
    (later : List String) :
    (String.intercalate delimiter (tokens ++ later)).toList =
      (String.intercalate delimiter tokens).toList ++ behind delimiter later := by
  cases tokens with
  | nil => exact absurd rfl hne
  | cons token tokens =>
    rw [List.cons_append, toList_intercalate_cons, toList_intercalate_cons, behind_append,
      List.append_assoc]

/-- The delimiter comes first behind other tokens, if anything does. -/
theorem exists_behind (delimiter : String) {tokens : List String} (hne : tokens ≠ []) :
    ∃ rest, behind delimiter tokens = delimiter.toList ++ rest := by
  cases tokens with
  | nil => exact absurd rfl hne
  | cons token tokens =>
    exact ⟨token.toList ++ behind delimiter tokens, by rw [behind_cons, List.append_assoc]⟩

end Token

/-! ## Suggestions -/

namespace DenominationRule

open Token (behind)

/-- The suggestions of a rule for a token. -/
def suggestions (r : DenominationRule) (token : String) : List String :=
  match r.fuzzy with
  | none => []
  | some model => if r.fuzzyIgnore.any (·.isMatch token) then [] else model.suggest token

variable {r : DenominationRule} {delimiter : String}

theorem expand_eq (r : DenominationRule) (tokens : List String) :
    r.expand tokens = tokens.flatMap fun token => token :: r.suggestions token := by
  rw [expand]
  unfold suggestions
  cases r.fuzzy with
  | none => exact (List.flatMap_singleton' tokens).symm
  | some model => rfl

theorem expand_append (r : DenominationRule) (tokens later : List String) :
    r.expand (tokens ++ later) = r.expand tokens ++ r.expand later := by
  rw [expand_eq, expand_eq, expand_eq, List.flatMap_append]

theorem expand_cons (r : DenominationRule) (token : String) (tokens : List String) :
    r.expand (token :: tokens) = token :: (r.suggestions token ++ r.expand tokens) := by
  rw [expand_eq, expand_eq, List.flatMap_cons, List.cons_append]

theorem expand_eq_self {tokens : List String} (h : ∀ token ∈ tokens, r.suggestions token = []) :
    r.expand tokens = tokens := by
  induction tokens with
  | nil => rw [expand_eq, List.flatMap_nil]
  | cons token tokens ih =>
    obtain ⟨hfirst, hrest⟩ := List.forall_mem_cons.1 h
    rw [expand_cons, hfirst, ih hrest, List.nil_append]

theorem length_behind_le (r : DenominationRule) (delimiter : String) (tokens : List String) :
    (behind delimiter tokens).length ≤ (behind delimiter (r.expand tokens)).length := by
  induction tokens with
  | nil => exact Nat.zero_le _
  | cons token tokens ih =>
    rw [expand_cons, Token.behind_cons, Token.behind_cons, Token.behind_append]
    simp only [List.length_append]
    omega

/-- Suggestions make the joined tokens longer, if anything. -/
theorem length_intercalate_le (r : DenominationRule) (delimiter : String) (tokens : List String) :
    (String.intercalate delimiter tokens).toList.length ≤
      (String.intercalate delimiter (r.expand tokens)).toList.length := by
  cases tokens with
  | nil => simp only [expand_eq, List.flatMap_nil, Nat.le_refl]
  | cons token tokens =>
    have hle := r.length_behind_le delimiter tokens
    rw [expand_cons, Token.toList_intercalate_cons, Token.toList_intercalate_cons,
      Token.behind_append]
    simp only [List.length_append]
    omega

/-- What is suggested by a compiled rule is said by its configuration. -/
theorem CompiledFrom.suggestions_eq {key token : String} {d : Config.Denomination}
    (h : r.CompiledFrom key d) {l : List String} (hascending : l.Pairwise (· < ·))
    (hmem : ∀ v, v ∈ l ↔ d.Suggests token v) : r.suggestions token = l := by
  have hexpand := (h.expands_expand [token]).unique (.cons hascending hmem .nil)
  rw [expand_eq, List.flatMap_singleton, List.append_nil] at hexpand
  exact (List.cons.inj hexpand).2

/-! ## Runs -/

/-- Where a run of tokens ends among the joined tokens, with the delimiter behind it. -/
def runEnd (delimiter : String) (tokens after : List String) : Nat :=
  (String.intercalate delimiter tokens).length + if after = [] then 0 else delimiter.length

/-- What belongs to a run of the joined tokens, the delimiters on both sides among it.  The start of
the joined tokens does if no tokens come before, and their end if nothing is joined behind the run.
-/
def InRun (r : DenominationRule) (delimiter : String) (before run : List String) (last : String)
    (after : List String) : Nat → Prop :=
  InStretch (String.intercalate delimiter before).length
    (runEnd delimiter (before ++ (run ++ [last])) after) (before = [])
    (after = [] ∧ r.suggestions last = [])

/-- What tokens are joined to behind others, if there are any. -/
theorem toList_intercalate_behind (delimiter : String) (before : List String) {tokens : List String}
    (hne : tokens ≠ []) :
    ∃ joined, ∀ before' : List String, (before' = [] ↔ before = []) → ∀ later,
      (String.intercalate delimiter (before' ++ (tokens ++ later))).toList =
        (String.intercalate delimiter before').toList ++ joined ++ behind delimiter later := by
  by_cases hbefore : before = []
  · refine ⟨(String.intercalate delimiter tokens).toList, fun before' hiff later => ?_⟩
    obtain rfl := hiff.2 hbefore
    exact Token.toList_intercalate_append delimiter hne later
  · refine ⟨behind delimiter tokens, fun before' hiff later => ?_⟩
    have hbefore' : before' ≠ [] := fun hnil => hbefore (hiff.1 hnil)
    rw [Token.toList_intercalate_append delimiter hbefore', Token.behind_append, List.append_assoc]

theorem expand_eq_nil_iff {tokens : List String} : r.expand tokens = [] ↔ tokens = [] := by
  cases tokens with
  | nil => rw [expand_eq, List.flatMap_nil]
  | cons token tokens => simp [expand_cons]

/-- A run is a stretch that the joined tokens have in common with the joined tokens and
suggestions. -/
theorem exists_common (delimiter : String) (before after : List String) {run : List String}
    {last : String} (hrun : ∀ token ∈ run, r.suggestions token = []) :
    ∃ common rest rest',
      (String.intercalate delimiter (before ++ (run ++ last :: after))).toList =
        (String.intercalate delimiter before).toList ++ common ++ rest ∧
      (String.intercalate delimiter (r.expand (before ++ (run ++ last :: after)))).toList =
        (String.intercalate delimiter (r.expand before)).toList ++ common ++ rest' ∧
      (String.intercalate delimiter before).toList.length + common.length =
        runEnd delimiter (before ++ (run ++ [last])) after ∧
      (after = [] → rest = []) ∧ (after = [] → r.suggestions last = [] → rest' = []) := by
  have hne : run ++ [last] ≠ [] := List.append_ne_nil_of_right_ne_nil _ (List.cons_ne_nil _ _)
  have htokens : run ++ last :: after = run ++ [last] ++ after := by simp
  have hexpand : r.expand (before ++ (run ++ last :: after)) =
      r.expand before ++ (run ++ [last] ++ (r.suggestions last ++ r.expand after)) := by
    rw [expand_append, expand_append, expand_cons, expand_eq_self hrun]
    simp
  obtain ⟨joined, hjoined⟩ := toList_intercalate_behind delimiter before hne
  have hlength : (String.intercalate delimiter before).toList.length + joined.length =
      (String.intercalate delimiter (before ++ (run ++ [last]))).length := by
    have hrun := hjoined before Iff.rfl []
    rw [List.append_nil] at hrun
    rw [← String.length_toList, hrun, ← List.length_append]
    simp [behind]
  rw [hexpand, htokens, hjoined before Iff.rfl, hjoined (r.expand before) expand_eq_nil_iff,
    runEnd, ← hlength]
  -- What is common ends with a delimiter only if there are tokens behind the run.
  by_cases hafter : after = []
  · subst hafter
    refine ⟨joined, _, _, rfl, rfl, rfl, fun _ => rfl, fun _ hnone => ?_⟩
    rw [hnone, expand_eq_nil_iff.2 rfl]
    rfl
  · obtain ⟨rest, hrest⟩ := Token.exists_behind delimiter hafter
    obtain ⟨rest', hrest'⟩ := Token.exists_behind delimiter
      (List.append_ne_nil_of_right_ne_nil (r.suggestions last) (mt expand_eq_nil_iff.1 hafter))
    refine ⟨joined ++ delimiter.toList, rest, rest', ?_, ?_, ?_, fun hnil => absurd hnil hafter,
      fun hnil => absurd hnil hafter⟩
    · rw [hrest, List.append_assoc, List.append_assoc, List.append_assoc]
    · rw [hrest', List.append_assoc, List.append_assoc, List.append_assoc]
    · have hdelimiter : delimiter.toList.length = delimiter.length := String.length_toList
      rw [if_neg hafter, List.length_append, hdelimiter, Nat.add_assoc]

/-! ## Rules -/

/-- The patterns of a compiled rule are compiled from their texts. -/
theorem CompiledFrom.program {key : String} {d : Config.Denomination} (h : r.CompiledFrom key d)
    {m : Matcher} (hm : m ∈ r.patterns) :
    Program.compile? m.engine m.source.toList = some m.program := by
  have hmatcher : some m ∈ d.matchers := h.patterns ▸ List.mem_map_of_mem hm
  rcases List.mem_append.1 hmatcher with hlinear | hdual
  · obtain ⟨source, _, hsome⟩ := List.mem_map.1 hlinear
    have hof := Matcher.linear?_isOf hsome
    rw [hof.engine_eq, hof.source_eq]
    exact hof.program
  · obtain ⟨source, _, hsome⟩ := List.mem_map.1 hdual
    have hof := Matcher.backtracking?_isOf hsome
    rw [hof.engine_eq, hof.source_eq]
    exact hof.program

/-- A pattern keeps its match when suggestions are put between the tokens: some way to match it in a
run of tokens of which only the last one has suggestions reads only what belongs to that run, and its
search of the longer text does not give up. -/
def KeepsMatch (r : DenominationRule) (delimiter : String) (tokens : List String) (m : Matcher) :
    Prop :=
  (m.isLinear = true ∨
      m.search (String.intercalate delimiter (r.expand tokens)).toList.toArray 0 ≠ .gaveUp) ∧
    ∃ reading, Reader.readPattern m.engine m.source.toList = some reading ∧
      ∃ before run last after, tokens = before ++ (run ++ last :: after) ∧
        (∀ token ∈ run, r.suggestions token = []) ∧
          ∃ place ≤ runEnd delimiter (before ++ (run ++ [last])) after,
            ∃ x ∈ trials (String.intercalate delimiter tokens).toList.toArray
                (reading.everyWay m.engine) (.init place 0),
              x.stop?.isSome = true ∧ x.Within (r.InRun delimiter before run last after)

/-- What belongs to a run is found among the joined tokens and suggestions, too. -/
theorem exists_agree (r : DenominationRule) (delimiter : String) (before after : List String)
    {run : List String}
    {last : String} (hrun : ∀ token ∈ run, r.suggestions token = []) :
    ∃ shift,
      Agree (String.intercalate delimiter (before ++ (run ++ last :: after))).toList.toArray
          (String.intercalate delimiter
            (r.expand (before ++ (run ++ last :: after)))).toList.toArray shift
          (r.InRun delimiter before run last after) ∧
        runEnd delimiter (before ++ (run ++ [last])) after ≤
          (String.intercalate delimiter (before ++ (run ++ last :: after))).length ∧
        runEnd delimiter (before ++ (run ++ [last])) after + shift ≤
          (String.intercalate delimiter (r.expand (before ++ (run ++ last :: after)))).length := by
  obtain ⟨common, rest, rest', htext, htext', hlength, hrest, hrest'⟩ :=
    exists_common delimiter before after hrun
  have hbefore := r.length_intercalate_le delimiter before
  refine ⟨(String.intercalate delimiter (r.expand before)).toList.length -
    (String.intercalate delimiter before).toList.length, ?_, ?_, ?_⟩
  · rw [htext, htext', InRun, ← hlength, ← String.length_toList]
    refine Pattern.agree_of_common hbefore ?_ fun hend => ⟨hrest hend.1, hrest' hend.1 hend.2⟩
    rintro rfl
    exact ⟨rfl, by rw [expand_eq_nil_iff.2 rfl]; rfl⟩
  · rw [← String.length_toList, htext, ← hlength, List.length_append, List.length_append]
    exact Nat.le_add_right _ _
  · rw [← String.length_toList, htext', ← hlength, List.length_append, List.length_append]
    omega

/-- A pattern that keeps its match matches the joined tokens and suggestions. -/
theorem KeepsMatch.isMatch_expand {m : Matcher} {tokens : List String}
    (h : r.KeepsMatch delimiter tokens m)
    (hprogram : Program.compile? m.engine m.source.toList = some m.program) :
    m.isMatch (String.intercalate delimiter (r.expand tokens)) = true := by
  obtain ⟨hlimit, reading, hread, before, run, last, after, rfl, hrun, place, hplace, x, hx, hend,
    hwithin⟩ := h
  obtain ⟨shift, hagree, hsize, hsize'⟩ := r.exists_agree delimiter before after hrun
  refine Matcher.isMatch_of_trial hread hprogram hlimit hagree hx hwithin hend ?_ (by omega)
  rw [List.size_toArray, String.length_toList]
  exact Nat.le_trans hplace hsize

theorem fits_iff_of_delimiter (hjoin : r.joinMethod.delimiter? = some delimiter)
    (tokens : List String) :
    r.fits tokens = true ↔ (String.intercalate delimiter tokens).toList ≠ [] ∧
      ∀ m ∈ r.patterns, m.isMatch (String.intercalate delimiter tokens) = true := by
  rw [fits, Token.join, hjoin, ne_eq, String.toList_eq_nil_iff]
  simp

/-- A rule that joins tokens and matches some without its fuzzy section matches them with it, if
nothing is suggested for any of them or each of its patterns keeps its match. -/
theorem isMatch_of_keepsMatches {code key : String} {d : Config.Denomination}
    (h : compile code key d = .ok r) (hjoin : r.joinMethod.delimiter? = some delimiter)
    {tokens : List String} (hmatch : { r with fuzzy := none }.isMatch tokens = true)
    (hkeeps : (∀ token ∈ tokens, r.suggestions token = []) ∨
      ∀ m ∈ r.patterns, r.KeepsMatch delimiter tokens m) :
    r.isMatch tokens = true := by
  have hfits : r.fits tokens = true := hmatch
  rcases hkeeps with hnone | hkeeps
  · rw [isMatch, expand_eq_self hnone]
    exact hfits
  · obtain ⟨hne, _⟩ := (fits_iff_of_delimiter hjoin tokens).1 hfits
    refine (fits_iff_of_delimiter hjoin _).2 ⟨?_, fun m hm => ?_⟩
    · have hlength := r.length_intercalate_le delimiter tokens
      have hpos := List.length_pos_of_ne_nil hne
      exact List.ne_nil_of_length_pos (by omega)
    · exact (hkeeps m hm).isMatch_expand ((compile_ok h).program hm)

/-- A denomination whose pattern is looked for across tokens, with one word to correct tokens. -/
def thousand : Config.Denomination where
  joinMethod := .concatenated
  patterns := ["(?i)thousand"]
  fuzzy := some ⟨["though"], 2⟩

/-- The word is suggested for the tokens that differ from it by one or two edits. -/
theorem though_suggests_iff {d : Config.Denomination} (hfuzzy : d.fuzzy = thousand.fuzzy)
    (hignore : d.fuzzyIgnore = []) {token v : String} :
    d.Suggests token v ↔ v = "though" ∧ "though".toList ≠ Text.lower token.toList ∧
      Fuzzy.distance "though".toList (Text.lower token.toList) ≤ 2 := by
  have hlower : Text.lower "though".toList = "though".toList := by decide +kernel
  rw [Fuzzy.distance_eq_levenshtein]
  constructor
  · rintro ⟨_, f, hf, ⟨x, hx, hv⟩, _, hne, hle⟩
    rw [hfuzzy] at hf
    obtain rfl := Option.some.inj hf
    obtain rfl := List.mem_singleton.1 hx
    rw [hlower] at hv
    rw [hv] at hne hle
    exact ⟨String.toList_inj.1 hv, hne, hle⟩
  · rintro ⟨rfl, hne, hle⟩
    refine ⟨?_, ⟨["though"], 2⟩, hfuzzy, ⟨"though", by decide, hlower.symm⟩, by decide, hne, hle⟩
    rintro ⟨source, hsource, _⟩
    rw [hignore] at hsource
    cases hsource

theorem CompiledFrom.suggestions_though {key : String} {d : Config.Denomination}
    (h : r.CompiledFrom key d) (hfuzzy : d.fuzzy = thousand.fuzzy) (hignore : d.fuzzyIgnore = []) :
    r.suggestions "thou" = ["though"] ∧ r.suggestions "sand" = [] ∧
      r.suggestions "thousand" = [] := by
  refine ⟨h.suggestions_eq (List.pairwise_singleton _ _) fun v => ?_,
    h.suggestions_eq .nil fun v => ?_, h.suggestions_eq .nil fun v => ?_⟩
  · rw [though_suggests_iff hfuzzy hignore, and_iff_left (by decide +kernel), List.mem_singleton]
  · rw [though_suggests_iff hfuzzy hignore]
    exact iff_of_false List.not_mem_nil fun hv => absurd hv.2.2 (by decide +kernel)
  · rw [though_suggests_iff hfuzzy hignore]
    exact iff_of_false List.not_mem_nil fun hv => absurd hv.2.2 (by decide +kernel)

/-- The suggestion for the first token tears the match. -/
theorem isMatch_torn :
    ∃ r, compile "XTS" "1000" thousand = .ok r ∧ r.joinMethod.delimiter? = some "" ∧
      { r with fuzzy := none }.isMatch ["thou", "sand"] = true ∧
        r.isMatch ["thou", "sand"] = false := by
  have hcheck : (compile "XTS" "1000" thousand).toOption.any (fun r =>
      { r with fuzzy := none }.isMatch ["thou", "sand"] &&
        !r.fits ["thou", "though", "sand"]) = true := by decide +kernel
  obtain ⟨r, hr, hcheck⟩ := (Option.any_eq_true _ _).1 hcheck
  obtain ⟨hplain, htorn⟩ := Bool.and_eq_true_iff.1 hcheck
  have h := compile_ok (eq_ok_of_toOption hr)
  obtain ⟨hthou, hsand, _⟩ := h.suggestions_though rfl rfl
  have hexpand : r.expand ["thou", "sand"] = ["thou", "though", "sand"] := by
    rw [expand_cons, expand_cons, hthou, hsand, expand_eq]
    rfl
  refine ⟨r, eq_ok_of_toOption hr, by rw [h.joinMethod]; rfl, hplain, ?_⟩
  rw [isMatch, hexpand]
  simpa using htorn

/-- A denomination whose number word is matched in one way only and must not be followed by an ending,
with one word to correct tokens. -/
def bareThousand : Config.Denomination :=
  { thousand with patterns := [], dualPatterns := ["(?>thou)sand(?!s)"] }

/-- A match in the first token, which nothing is suggested for, stays.  What comes next is looked at,
and is the second token still. -/
theorem isMatch_of_keepsMatches_thousand :
    ∃ r, compile "XTS" "1000" bareThousand = .ok r ∧ r.joinMethod.delimiter? = some "" ∧
      { r with fuzzy := none }.isMatch ["thousand", "thou"] = true ∧
      (∀ m ∈ r.patterns, r.KeepsMatch "" ["thousand", "thou"] m) ∧
        r.suggestions "thou" = ["though"] ∧ r.isMatch ["thousand", "thou"] = true := by
  have hcheck : (compile "XTS" "1000" bareThousand).toOption.any (fun r =>
      { r with fuzzy := none }.isMatch ["thousand", "thou"]) = true := by decide +kernel
  have hsearch : (Matcher.backtracking? "(?>thou)sand(?!s)" .leftToRight).any (fun m =>
      m.search "thousandthouthough".toList.toArray 0 != .gaveUp) = true := by decide +kernel
  have htrial : (Reader.readPattern .backtracking "(?>thou)sand(?!s)".toList).any (fun reading =>
      (trials "thousandthou".toList.toArray (reading.everyWay .backtracking) (.init 0)).any fun x =>
        x.stop?.isSome && x.reads.all fun slot => slot ≤ 12) = true := by decide +kernel
  obtain ⟨r, hr, hplain⟩ := (Option.any_eq_true _ _).1 hcheck
  obtain ⟨reading, hread, htrial⟩ := (Option.any_eq_true _ _).1 htrial
  obtain ⟨x, hx, htrial⟩ := List.any_eq_true.1 htrial
  obtain ⟨hend, hreads⟩ := Bool.and_eq_true_iff.1 htrial
  have h := compile_ok (eq_ok_of_toOption hr)
  have hjoin : r.joinMethod.delimiter? = some "" := by rw [h.joinMethod]; rfl
  obtain ⟨hthou, _, hthousand⟩ := h.suggestions_though rfl rfl
  have hexpand : r.expand ["thousand", "thou"] = ["thousand", "thou", "though"] := by
    rw [expand_cons, expand_cons, hthou, hthousand, expand_eq]
    rfl
  have hwithin : x.Within (r.InRun "" [] ["thousand"] "thou" []) := by
    intro slot hslot
    have hle : slot ≤ 12 := of_decide_eq_true (List.all_eq_true.1 hreads slot hslot)
    cases slot with
    | zero => exact rfl
    | succ place => exact ⟨Nat.zero_le _, .inl hle⟩
  have hkeeps : ∀ m ∈ r.patterns, r.KeepsMatch "" ["thousand", "thou"] m := by
    intro m hm
    have hpatterns : r.patterns.map some =
        ["(?>thou)sand(?!s)"].map (Matcher.backtracking? · .leftToRight) := h.patterns
    obtain ⟨source, hsource, hsome⟩ := (mem_of_map_some hpatterns).1 hm
    obtain rfl := List.mem_singleton.1 hsource
    have hof := Matcher.backtracking?_isOf hsome
    rw [hsome] at hsearch
    rw [← hof.source_eq, ← hof.engine_eq] at hread
    rw [← hof.engine_eq] at hx
    refine ⟨.inr ?_, reading, hread, [], ["thousand"], "thou", [], rfl,
      List.forall_mem_singleton.2 hthousand, 0, Nat.zero_le _, x, hx, hend, hwithin⟩
    rw [hexpand]
    exact bne_iff_ne.1 hsearch
  exact ⟨r, eq_ok_of_toOption hr, hjoin, hplain, hkeeps, hthou,
    isMatch_of_keepsMatches (eq_ok_of_toOption hr) hjoin hplain (.inr hkeeps)⟩

end DenominationRule

end Banknote
