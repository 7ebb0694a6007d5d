import Banknote.Proofs.Json.Reader
import Banknote.Proofs.Json.Single
import Banknote.Recognition.Reader
import Banknote.Recognition.Writer

/-!
# What was read is written and read again

Labels, requests, outcomes and settings that were read from a text are written, and the new text is
read.  The same data come back, unless a score is infinite: it is written as null, and null is no
score.

* Scores.  `single_toDoc`: a finite score is read as it is written, and an infinite one is not read.
* Documents.  `Label.ofDoc_toJson` and its like say what the written data are read as.

`readText_written` puts these together.
-/

namespace Banknote.Recognition

open Json

/-! ## Scores -/

/-- The complaint about null in the place of a score. -/
def nullScore : Fault := .data (.invalidType .null "f32")

/-- What data with or without an infinite score are read as. -/
def reread {α : Type} (infinite : Bool) (a : α) : Except Fault α :=
  if infinite then .error nullScore else .ok a

/-- A finite score is read as it is written. -/
theorem single_toDoc (x : Binary .single) :
    Doc.single (toDoc (.binary x)) = reread x.isInfinite x := by
  rw [Json.binary, reread]
  cases hinfinite : x.isInfinite with
  | true => rfl
  | false => exact single_ofBinary hinfinite

/-! ## Documents -/

/-- The fields of a label are read one after the other. -/
theorem Label.ofDoc_toJson (l : Label) :
    Label.ofDoc (toDoc l.toJson) = reread l.score.isInfinite l := by
  have hscore := single_toDoc l.score
  simp only [Label.toJson, toDoc, toDocMembers, Label.ofDoc, Record.read, Record.readMembers,
    labelRecord]
  rw [hscore]
  cases l.score.isInfinite with
  | true => rfl
  | false => rfl

theorem items_labels (labels : List Label) :
    Doc.items Label.ofDoc (toDocs (labels.map Label.toJson)) =
      reread (labels.any fun l => l.score.isInfinite) labels := by
  induction labels with
  | nil => rfl
  | cons l labels ih =>
    rw [List.map_cons, toDocs, Doc.items, l.ofDoc_toJson, ih, List.any_cons]
    cases l.score.isInfinite with
    | true => rfl
    | false =>
      cases labels.any fun l => l.score.isInfinite with
      | true => rfl
      | false => rfl

theorem list_labels (labels : List Label) :
    Doc.list Label.ofDoc (toDoc (.arr (labels.map Label.toJson))) =
      reread (labels.any fun l => l.score.isInfinite) labels := by
  rw [toDoc, Doc.list, items_labels]
  cases labels.any fun l => l.score.isInfinite with
  | true => rfl
  | false => rfl

theorem Request.ofDoc_toJson (r : Request) :
    Request.ofDoc (toDoc r.toJson) = reread (r.labels.any fun l => l.score.isInfinite) r := by
  have hdoc : toDoc r.toJson = .obj [(.ok "currencyCode", .str (.ok r.currencyCode)),
      (.ok "denomination", .str (.ok r.denomination)), (.ok "tokens", toDoc (.strings r.tokens)),
      (.ok "labels", toDoc (.arr (r.labels.map Label.toJson)))] none := by
    simp only [Request.toJson, toDoc, toDocMembers]
  rw [hdoc]
  simp only [Request.ofDoc, Request.ofRecord, Record.read, Record.readMembers, requestRecord]
  rw [Doc.list_text_strings, list_labels]
  cases r.labels.any fun l => l.score.isInfinite with
  | true => rfl
  | false => rfl

theorem Outcome.ofDoc_toJson (o : Outcome) : Outcome.ofDoc (toDoc o.toJson) = .ok o := rfl

theorem Settings.ofDoc_toJson (s : Settings) :
    Settings.ofDoc (toDoc s.toJson) = reread s.minLabelScore.isInfinite s := by
  have hdoc : toDoc s.toJson = .obj [(.ok "minLabelScore", toDoc (.binary s.minLabelScore)),
      (.ok "moneyLabels", toDoc (.strings s.moneyLabels))] none := by
    simp only [Settings.toJson, toDoc, toDocMembers]
  rw [hdoc]
  simp only [Settings.ofDoc, Record.read, Record.readMembers, settingsRecord]
  rw [single_toDoc, Doc.list_text_strings]
  cases s.minLabelScore.isInfinite with
  | true => rfl
  | false => rfl

/-! ## Texts -/

deriving instance DecidableEq for Label, Request, Settings

theorem Label.wellFormed_toJson (l : Label) : l.toJson.WellFormed := by
  rw [Label.toJson, Json.WellFormed, wellFormedMembers_iff]
  intro m hm
  simp only [List.mem_cons, List.not_mem_nil, or_false] at hm
  rcases hm with rfl | rfl
  · exact wellFormed_str _
  · exact wellFormed_binary _

theorem Request.wellFormed_toJson (r : Request) : r.toJson.WellFormed := by
  rw [Request.toJson, Json.WellFormed, wellFormedMembers_iff]
  intro m hm
  simp only [List.mem_cons, List.not_mem_nil, or_false] at hm
  rcases hm with rfl | rfl | rfl | rfl
  · exact wellFormed_str _
  · exact wellFormed_str _
  · exact wellFormed_strings _
  · rw [Json.WellFormed, wellFormedItems_iff]
    intro j hj
    obtain ⟨l, _, rfl⟩ := List.mem_map.1 hj
    exact l.wellFormed_toJson

theorem Outcome.wellFormed_toJson (o : Outcome) : o.toJson.WellFormed := by
  rw [Outcome.toJson, Json.WellFormed, wellFormedMembers_iff]
  intro m hm
  simp only [List.mem_cons, List.not_mem_nil, or_false] at hm
  rcases hm with rfl | rfl
  · exact wellFormed_str _
  · exact wellFormed_str _

theorem Settings.wellFormed_toJson (s : Settings) : s.toJson.WellFormed := by
  rw [Settings.toJson, Json.WellFormed, wellFormedMembers_iff]
  intro m hm
  simp only [List.mem_cons, List.not_mem_nil, or_false] at hm
  rcases hm with rfl | rfl
  · exact wellFormed_binary _
  · exact wellFormed_strings _

/-- What the texts that data are written as are read as, compact or with one item to a line. -/
def ReadAs {α : Type} (reader : Doc → Except Fault α) (j : Json) (result : Except Fault α) : Prop :=
  readText reader j.compact.toList = result ∧ readText reader j.pretty.toList = result

theorem readAs_of_wellFormed {α : Type} {reader : Doc → Except Fault α} {j : Json}
    {result : Except Fault α} (hj : j.WellFormed) (h : reader (toDoc j) = result) :
    ReadAs reader j result :=
  ⟨(readText_compact reader hj).trans h, (readText_pretty reader hj).trans h⟩

/-- Data that were read from a text are read again from the text that they are written as, exactly
if no score is infinite; else the complaint is about null in the place of a score. -/
theorem readText_written :
    (∀ text l, readText Label.ofDoc text = .ok l →
        ReadAs Label.ofDoc l.toJson (reread l.score.isInfinite l)) ∧
      (∀ text r, readText Request.ofDoc text = .ok r →
        ReadAs Request.ofDoc r.toJson (reread (r.labels.any fun l => l.score.isInfinite) r)) ∧
      (∀ text o, readText Outcome.ofDoc text = .ok o → ReadAs Outcome.ofDoc o.toJson (.ok o)) ∧
      ∀ text s, readText Settings.ofDoc text = .ok s →
        ReadAs Settings.ofDoc s.toJson (reread s.minLabelScore.isInfinite s) := by
  refine ⟨fun _ l _ => ?_, fun _ r _ => ?_, fun _ o _ => ?_, fun _ s _ => ?_⟩
  · exact readAs_of_wellFormed l.wellFormed_toJson l.ofDoc_toJson
  · exact readAs_of_wellFormed r.wellFormed_toJson r.ofDoc_toJson
  · exact readAs_of_wellFormed o.wellFormed_toJson o.ofDoc_toJson
  · exact readAs_of_wellFormed s.wellFormed_toJson s.ofDoc_toJson

/-- A label in the form of a list, with the least score above zero; a request with the greatest
score and a member that is no field, and one with an infinite score; an outcome; and settings that
say nothing. -/
theorem readText_written_extreme :
    let label : Label := ⟨"money", ⟨false, 1, by decide⟩⟩
    let greatest : Label := ⟨"money", ⟨false, BinaryFormat.single.infinity - 1, Nat.sub_le _ _⟩⟩
    let infinite : Label := ⟨"money", .infinite true⟩
    ReadAs Label.ofDoc label.toJson (.ok label) ∧
      ReadAs Request.ofDoc (⟨"usd", "", [], [greatest]⟩ : Request).toJson
        (.ok ⟨"usd", "", [], [greatest]⟩) ∧
      ReadAs Request.ofDoc (⟨"usd", "", [], [greatest, infinite]⟩ : Request).toJson
        (.error nullScore) ∧
      ReadAs Outcome.ofDoc (⟨"5", "A1"⟩ : Outcome).toJson (.ok ⟨"5", "A1"⟩) ∧
      ReadAs Settings.ofDoc ({} : Settings).toJson (.ok {}) := by
  obtain ⟨hlabel, hrequest, houtcome, hsettings⟩ := readText_written
  refine ⟨hlabel r#"["money", 1e-45]"#.toList _ ?_,
    hrequest r#"{"currencyCode":"usd","labels":[["money",3.4028235e38]],"x":0}"#.toList
      _ ?_,
    hrequest r#"["usd","",[],[["money",3.4028235e38],["money",-1e39]]]"#.toList _ ?_,
    houtcome r#"["5","A1"]"#.toList _ ?_, hsettings "{}".toList _ ?_⟩
  all_goals exact eq_ok_of_toOption (by decide +kernel)

/-- A score that is too large for a single is infinite, and the label that was read is not read
again. -/
theorem readText_written_infinite :
    let l : Label := ⟨"currency", .infinite false⟩
    readText Label.ofDoc r#"{"description":"currency","score":1e39}"#.toList = .ok l ∧
      l.toJson.compact = r#"{"description":"currency","score":null}"# ∧
      ∀ l', readText Label.ofDoc l.toJson.compact.toList ≠ .ok l' := by
  intro l
  have hread : ReadAs Label.ofDoc l.toJson (.error nullScore) :=
    readAs_of_wellFormed l.wellFormed_toJson l.ofDoc_toJson
  refine ⟨eq_ok_of_toOption (by decide +kernel), by decide +kernel, fun l' h => ?_⟩
  cases hread.1.symm.trans h

end Banknote.Recognition
