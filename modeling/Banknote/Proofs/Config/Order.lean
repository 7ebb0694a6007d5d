import Banknote.Config.Reader
import Banknote.Proofs.Json.Order
import Banknote.Session

/-!
# The order in which a table is written

Every reader of configurations ignores the order of members (`ignoresOrder_tableOfDoc`): the fields
of a record go to different places of its draft, codes, denominations and colours go into maps, and
the members of a serial tree are read whole before they are split.

So a table can be written in any order (`ofText_reordered`).
-/

namespace Banknote.Config

open Json
open Doc (IgnoresOrder)

/-! ## Vocabularies -/

theorem ignoresOrder_strings : IgnoresOrder strings := Doc.ignoresOrder_list Doc.ignoresOrder_text

theorem fieldsCommute_fuzzyRecord : fuzzyRecord.FieldsCommute := by
  intro draft key key' d d' hkey hkey' hne
  simp only [fuzzyRecord, List.mem_cons, List.not_mem_nil, or_false] at hkey hkey'
  rcases hkey with rfl | rfl <;> rcases hkey' with rfl | rfl
  all_goals first
    | exact absurd rfl hne
    | refine toOption_map_comm fun _ _ => ?_
      rfl

theorem Fuzzy.ignoresOrder_ofDoc : IgnoresOrder Fuzzy.ofDoc := by
  refine Record.ignoresOrder_read rfl (fun draft field d d' hd => ?_) fieldsCommute_fuzzyRecord _ _
  simp only [fuzzyRecord]
  split
  · simp only [toOption_map, ignoresOrder_strings hd]
  · simp only [toOption_map, Doc.ignoresOrder_natural hd]

/-! ## Denominations -/

theorem fieldsCommute_denominationRecord : denominationRecord.FieldsCommute := by
  intro draft key key' d d' hkey hkey' hne
  simp only [denominationRecord, List.mem_cons, List.not_mem_nil, or_false] at hkey hkey'
  rcases hkey with rfl | rfl | rfl | rfl | rfl | rfl <;>
    rcases hkey' with rfl | rfl | rfl | rfl | rfl | rfl
  all_goals first
    | exact absurd rfl hne
    | refine toOption_map_comm fun _ _ => ?_
      rfl

theorem Denomination.ignoresOrder_ofDoc : IgnoresOrder Denomination.ofDoc := by
  refine Record.ignoresOrder_read rfl (fun draft field d d' hd => ?_)
    fieldsCommute_denominationRecord _ _
  simp only [denominationRecord]
  split
  all_goals simp only [toOption_map]
  · rw [ignoresOrder_strings hd]
  · rw [ignoresOrder_strings hd]
  · rw [Doc.ignoresOrder_choice .streamed joinMethods hd]
  · rw [Doc.ignoresOrder_option Fuzzy.ignoresOrder_ofDoc hd]
  · rw [ignoresOrder_strings hd]
  · rw [Doc.ignoresOrder_map Doc.ignoresOrder_double hd]

/-! ## Serial trees -/

theorem Serial.ignoresOrder_ofDoc (depth : Nat) : IgnoresOrder (Serial.ofDoc depth) := by
  intro d d' hd
  cases hd with
  | obj hnames hperm hmembers =>
    have hread := (Doc.bufferMembers_perm depth hperm hnames []).trans
      (Doc.bufferMembers_values depth [] hmembers)
    exact toOption_bind_congr hread fun _ => rfl
  | _ => simp [Serial.ofDoc, Doc.toOption_mismatch]

/-! ## Currencies -/

theorem fieldsCommute_currencyRecord : currencyRecord.FieldsCommute := by
  intro draft key key' d d' hkey hkey' hne
  simp only [currencyRecord, List.mem_cons, List.not_mem_nil, or_false] at hkey hkey'
  rcases hkey with rfl | rfl | rfl | rfl <;> rcases hkey' with rfl | rfl | rfl | rfl
  all_goals first
    | exact absurd rfl hne
    | refine toOption_map_comm fun _ _ => ?_
      rfl

theorem Currency.ignoresOrder_ofDoc : IgnoresOrder Currency.ofDoc := by
  refine Record.ignoresOrder_read rfl (fun draft field d d' hd => ?_)
    fieldsCommute_currencyRecord _ _
  simp only [currencyRecord]
  split
  all_goals simp only [toOption_map]
  · rw [Doc.ignoresOrder_option Doc.ignoresOrder_text hd]
  · rw [ignoresOrder_strings hd]
  · rw [Doc.ignoresOrder_map Denomination.ignoresOrder_ofDoc hd]
  · rw [Doc.ignoresOrder_option (Serial.ignoresOrder_ofDoc (maxDepth - 3)) hd]

/-- Tables are read alike in whichever order the members of their objects are written. -/
theorem ignoresOrder_tableOfDoc : IgnoresOrder tableOfDoc :=
  Doc.ignoresOrder_map Currency.ignoresOrder_ofDoc

end Banknote.Config

namespace Banknote

open Json (Holds)
open Json.Doc (Reordered)

/-! ## Tables -/

/-- The session afterwards tells the table that was taken over, if one was, and no failure. -/
theorem Session.publish_congr {s : Session} {x x' : Except Failure CurrencyTable}
    (h : x.toOption = x'.toOption) (answer : CurrencyTable → Answer) :
    (s.publish x answer).2 = (s.publish x' answer).2 := by
  rcases toOption_eq_iff.1 h with ⟨failure, failure', rfl, rfl⟩ | ⟨t, rfl, rfl⟩
  · rfl
  · rfl

namespace CurrencyTable

/-- A text and another one with the members of its objects in another order are both refused, or they
are read as the same configuration and compiled alike, to the same table or with the same failure.
In each case a session that is asked to take over the one or the other gives the same answers from
then on. -/
theorem ofText_reordered {text text' : String} {d d' : Json.Doc} (h : Holds text d)
    (h' : Holds text' d') (hd : Reordered d d') :
    ((∃ fault fault', Config.tableOfText text = .error fault ∧
          Config.tableOfText text' = .error fault' ∧
          ofText text = .error (.json fault) ∧ ofText text' = .error (.json fault')) ∨
        ∃ source, Config.tableOfText text = .ok source ∧ Config.tableOfText text' = .ok source ∧
          ofText text = ofConfig source ∧ ofText text' = ofConfig source) ∧
      ∀ (s : Session) (later : List Step),
        (s.run (.replace (some text) :: later)).tail =
          (s.run (.replace (some text') :: later)).tail := by
  have hread : (Config.tableOfText text).toOption = (Config.tableOfText text').toOption := by
    rw [Config.tableOfText, Config.tableOfText, h.readText_eq, h'.readText_eq]
    exact Config.ignoresOrder_tableOfDoc hd
  have hlater : (ofText text).toOption = (ofText text').toOption →
      ∀ (s : Session) (later : List Step), (s.run (.replace (some text) :: later)).tail =
        (s.run (.replace (some text') :: later)).tail := fun htable s later =>
    congrArg (Session.run · later) (Session.publish_congr htable _)
  rcases toOption_eq_iff.1 hread with ⟨fault, fault', hfault, hfault'⟩ | ⟨source, hsource, hsource'⟩
  · have hrefused : ofText text = .error (.json fault) := by rw [ofText, hfault]
    have hrefused' : ofText text' = .error (.json fault') := by rw [ofText, hfault']
    exact ⟨.inl ⟨fault, fault', hfault, hfault', hrefused, hrefused'⟩,
      hlater (by rw [hrefused, hrefused']; rfl)⟩
  · have hcompiled : ofText text = ofConfig source := by rw [ofText, hsource]
    have hcompiled' : ofText text' = ofConfig source := by rw [ofText, hsource']
    exact ⟨.inr ⟨source, hsource, hsource', hcompiled, hcompiled'⟩,
      hlater (by rw [hcompiled, hcompiled'])⟩

/-- The members that recognize a five. -/
def fiveJson : Json := .obj [("patterns", .strings ["five"])]

/-- A currency with two denominations of one value, and a code about which nothing is known. -/
def listedJson : Json :=
  .obj [("XTS", .obj [("language", .str "en"),
    ("denominations", .obj [("5", fiveJson), ("05", fiveJson)])]), ("XXX", .obj [])]

/-- The same in another order. -/
def relistedJson : Json :=
  .obj [("XXX", .obj []), ("XTS", .obj [("denominations", .obj [("05", fiveJson), ("5", fiveJson)]),
    ("language", .str "en")])]

/-- Two members of different names can change places. -/
theorem reordered_swap {key key' : String} (hne : key ≠ key') {a a' b b' : Json.Doc}
    (ha : Reordered a a') (hb : Reordered b b') :
    Reordered (.obj [(.ok key, a), (.ok key', b)] none)
      (.obj [(.ok key', b'), (.ok key, a')] none) := by
  have hnames : [(Except.ok key, a), (.ok key', b)].Pairwise Json.Doc.NamesDiffer := by
    rw [List.pairwise_pair]
    intro name hname hname'
    exact hne (Except.ok.inj (hname.trans hname'.symm))
  exact .obj hnames (.swap _ _ _) (.cons rfl hb (.cons rfl ha .nil))

theorem reordered_relistedJson : Reordered (Json.toDoc listedJson) (Json.toDoc relistedJson) := by
  have hfive : Reordered (Json.toDoc fiveJson) (Json.toDoc fiveJson) :=
    .obj (List.pairwise_singleton _ _) (.refl _) (.cons rfl (.arr (.cons (.str rfl) .nil)) .nil)
  have hlanguage : Reordered (Json.toDoc (.str "en")) (Json.toDoc (.str "en")) := .str rfl
  have hunknown : Reordered (Json.toDoc (.obj [])) (Json.toDoc (.obj [])) :=
    .obj List.Pairwise.nil .nil .nil
  have hdenominations := reordered_swap (by decide : "5" ≠ "05") hfive hfive
  have hcurrency := reordered_swap (by decide : "language" ≠ "denominations") hlanguage
    hdenominations
  exact reordered_swap (by decide) hcurrency hunknown

theorem ofText_reordered_five :
    ∃ d d' t, Holds listedJson.compact d ∧ Holds relistedJson.compact d' ∧ Reordered d d' ∧
      ofText listedJson.compact = .ok t ∧ ofText relistedJson.compact = .ok t ∧
      ∀ s : Session,
        (s.run [.replace (some listedJson.compact), .classify "XTS" ["five"]]).tail =
          (s.run [.replace (some relistedJson.compact), .classify "XTS" ["five"]]).tail := by
  have hlisted := Json.holds_compact (j := listedJson) (by
    simp [listedJson, fiveJson, Json.strings, Json.WellFormed, Json.WellFormedMembers,
      Json.WellFormedItems])
  have hrelisted := Json.holds_compact (j := relistedJson) (by
    simp [relistedJson, fiveJson, Json.strings, Json.WellFormed, Json.WellFormedMembers,
      Json.WellFormedItems])
  have hcompiles : ((Config.tableOfDoc (Json.toDoc listedJson)).toOption.bind fun source =>
      (ofConfig source).toOption).isSome = true := by decide +kernel
  obtain ⟨t, hcompiles⟩ := Option.isSome_iff_exists.1 hcompiles
  obtain ⟨source, hsource, ht⟩ := Option.bind_eq_some_iff.1 hcompiles
  have hread : Config.tableOfText listedJson.compact = .ok source :=
    (hlisted.readText_eq _).trans (eq_ok_of_toOption hsource)
  have htable := eq_ok_of_toOption ht
  obtain ⟨halike, hlater⟩ := ofText_reordered hlisted hrelisted reordered_relistedJson
  rcases halike with ⟨fault, _, hfault, _⟩ | ⟨source', hsource', _, hcompiled, hcompiled'⟩
  · cases hread.symm.trans hfault
  · obtain rfl : source = source' := Except.ok.inj (hread.symm.trans hsource')
    exact ⟨_, _, t, hlisted, hrelisted, reordered_relistedJson, hcompiled.trans htable,
      hcompiled'.trans htable, fun s => hlater s _⟩

end CurrencyTable

end Banknote
