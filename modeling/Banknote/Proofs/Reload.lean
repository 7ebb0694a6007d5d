import Banknote.Proofs.Config.Text
import Banknote.Proofs.Currency.Compile
import Banknote.Proofs.Saving

/-!
# A saved table is loaded as the same table

`reads_back` is about a table of currencies whose configuration was read from a text.  Whichever way
the configuration is written, it is read back the same in every field, and a table that is saved to
a file is loaded from the file as the same table, configuration and compiled currencies.

The only thing that may be lost is a weight of a reference colour, whose numeral is rounded on the
way; the weights are therefore taken to be read back (`Config.Denomination.Rereads`).
-/

namespace Banknote.CurrencyTable

/-- A table that was saved is loaded if its text is read. -/
theorem loadTable_save {t : CurrencyTable} (h : ofText t.text = .ok t) {files files' : Directory}
    {path : String} (hsave : files.save path t.text = .ok files') :
    Session.loadTable files' path = .ok t := by
  rw [Session.loadTable, Directory.save_read hsave]
  exact h

/-- A configuration that comes from a text is read back as it is written, and a table that was
compiled from it is loaded from the file in which it was saved.  Saving it there again changes
nothing. -/
theorem reads_back {text : String} {source : Config.Table}
    (htext : Config.tableOfText text = .ok source)
    (hweights : ∀ e ∈ source.entries, e.2.Rereads) :
    Config.tableOfText (Config.tableToJson source).compact = .ok source ∧
      Config.tableOfText (Config.tableToJson source).pretty = .ok source ∧
      ∀ t, ofConfig source = .ok t →
        t.source = source ∧
        ofText (Config.tableToJson source).compact = .ok t ∧
        ofText (Config.tableToJson source).pretty = .ok t ∧
        ∀ (files files' : Directory) (path : String), files.save path t.text = .ok files' →
          files'.read path = .ok (Config.tableToJson source).pretty ∧
          Session.loadTable files' path = .ok t ∧
          files'.save path t.text = .ok files' := by
  have hreadable := Config.readable_of_tableOfText htext
  have hcompact := Config.tableOfText_compact hreadable hweights
  have hpretty := Config.tableOfText_pretty hreadable hweights
  refine ⟨hcompact, hpretty, fun t ht => ?_⟩
  have hsource := (ofConfig_ok ht).2
  have htable : t.text = (Config.tableToJson source).pretty := by
    rw [CurrencyTable.text, hsource]
  have hload := ofText_of_tableOfText hpretty ht
  refine ⟨hsource, ofText_of_tableOfText hcompact ht, hload, fun files files' path hsave => ?_⟩
  refine ⟨?_, loadTable_save (htable ▸ hload) hsave, Directory.save_save hsave⟩
  rw [← htable]
  exact Directory.save_read hsave

/-! ## A table of one denomination -/

/-- One quarter. -/
def quarter : Binary .double := (Binary.ofNat 1).div (Binary.ofNat 4)

/-- A denomination with a reference colour. -/
def sampleFive : Config.Denomination where
  patterns := ["five"]
  colorHints := .ofList [("1,2,3", quarter)]

/-- A currency with one denomination. -/
def sample : Config.Table := .ofList [("XTS", { denominations := .ofList [("5", sampleFive)] })]

/-- The text of the sample. -/
def sampleText : String :=
  r#"{"XTS":{"denominations":{"5":{"patterns":["five"],"joinMethod":"none","# ++
    r#""colorHints":{"1,2,3":0.25}}}}}"#

theorem sample_rereads : ∀ e ∈ sample.entries, e.2.Rereads := by
  have hquarter : Json.Doc.Rereads quarter := eq_ok_of_toOption (by decide +kernel)
  simpa [sample, sampleFive, Config.Currency.Rereads, Config.Denomination.Rereads, KeyMap.ofList,
    KeyMap.insert, KeyMap.put, KeyMap.empty] using hquarter

theorem tableOfText_sampleText : Config.tableOfText sampleText = .ok sample := by
  have htext : sampleText = (Config.tableToJson sample).compact := by decide +kernel
  have hreadable : Config.TableReadable sample := by
    intro e he
    have hcurrency : e = ("XTS", { denominations := .ofList [("5", sampleFive)] }) := by
      simpa [sample, KeyMap.ofList, KeyMap.insert, KeyMap.put, KeyMap.empty] using he
    subst hcurrency
    constructor
    · simp [sampleFive, KeyMap.ofList, KeyMap.insert, KeyMap.put, KeyMap.empty,
        Config.Denomination.Readable]
    · simp
  rw [htext]
  exact Config.tableOfText_compact hreadable sample_rereads

/-- Where the sample is saved: in a folder that is not there. -/
def samplePath : String := "tables/sample.json"

/-- The sample can be saved in a home without files, whatever its text is. -/
theorem exists_save_samplePath (text : String) :
    ∃ files, Directory.empty.save samplePath text = .ok files := by
  have hfolder : (Directory.empty.makeFolder {} samplePath).1.toOption =
      some ["home", "tables"] := by decide +kernel
  have hslot : ((Directory.empty.makeFolder {} samplePath).2.slot samplePath .busy
      .notDirectory).toOption = some ["home", "tables", "sample.json"] := by decide +kernel
  exact ⟨_, Directory.save_eq_ok_iff.2
    ⟨_, _, _, Prod.ext (eq_ok_of_toOption hfolder) rfl, eq_ok_of_toOption hslot, rfl⟩⟩

theorem reads_back_sample :
    Config.tableOfText sampleText = .ok sample ∧ (∀ e ∈ sample.entries, e.2.Rereads) ∧
      Config.tableOfText (Config.tableToJson sample).pretty = .ok sample ∧
      ∃ t, ofConfig sample = .ok t ∧ ofText (Config.tableToJson sample).pretty = .ok t ∧
        ∃ files, Directory.empty.save samplePath t.text = .ok files ∧
          files.read samplePath = .ok (Config.tableToJson sample).pretty ∧
          Session.loadTable files samplePath = .ok t ∧
          files.save samplePath t.text = .ok files := by
  have hback := reads_back tableOfText_sampleText sample_rereads
  have hcompiles : (ofConfig sample).toOption.isSome = true := by decide +kernel
  obtain ⟨t, ht⟩ := Option.isSome_iff_exists.1 hcompiles
  have hconfig := eq_ok_of_toOption ht
  obtain ⟨_, _, hload, hfiles⟩ := hback.2.2 t hconfig
  obtain ⟨files, hsave⟩ := exists_save_samplePath t.text
  exact ⟨tableOfText_sampleText, sample_rereads, hback.2.1, t, hconfig, hload, files, hsave,
    hfiles _ files samplePath hsave⟩

end Banknote.CurrencyTable
