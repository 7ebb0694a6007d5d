import Banknote.Json.Reader
import Banknote.Recognition.Basic
import Banknote.Token

/-!
# Reading requests, outcomes and settings

Readers of the JSON forms.  Members that are no fields are passed over.  A photo may also be
described with raw texts in the place of tokens (`Request.ofTexts`).
-/

namespace Banknote.Recognition

open Json

/-- A label that is being read. -/
structure LabelDraft where
  /-- The description, once read. -/
  description : Option String := none
  /-- The score, once read. -/
  score : Option (Binary .single) := none

/-- Labels as records. -/
def labelRecord : Record LabelDraft where
  name := "Label"
  fields := ["description", "score"]
  closed := false
  set draft field d :=
    if field = "description" then d.text.map fun v => { draft with description := some v }
    else d.single.map fun v => { draft with score := some v }

/-- Reads a label; both fields must be there. -/
def Label.ofDoc : Doc → Except Fault Label :=
  labelRecord.read {} fun form draft => do
    let description ← labelRecord.require form "description" draft.description
    let score ← labelRecord.require form "score" draft.score
    return { description, score }

/-- A request that is being read. -/
structure RequestDraft where
  /-- The code of the currency, once read. -/
  currencyCode : Option String := none
  /-- The denomination. -/
  denomination : String := ""
  /-- The tokens or texts. -/
  words : List String := []
  /-- The labels. -/
  labels : List Label := []

/-- Requests as records, under a name and with a field of words. -/
def requestRecord (name words : String) : Record RequestDraft where
  name := name
  fields := ["currencyCode", "denomination", words, "labels"]
  closed := false
  set draft field d :=
    if field = "currencyCode" then d.text.map fun v => { draft with currencyCode := some v }
    else if field = "denomination" then d.text.map fun v => { draft with denomination := v }
    else if field = "labels" then
      (d.list Label.ofDoc).map fun v => { draft with labels := v }
    else (d.list Doc.text).map fun v => { draft with words := v }

/-- Reads a request from a record of the given kind; the code of the currency must be there. -/
def Request.ofRecord (record : Record RequestDraft) (tokens : List String → List String) :
    Doc → Except Fault Request :=
  record.read {} fun form draft => do
    let currencyCode ← record.require form "currencyCode" draft.currencyCode
    return {
      currencyCode
      denomination := draft.denomination
      tokens := tokens draft.words
      labels := draft.labels }

/-- Reads a request. -/
def Request.ofDoc : Doc → Except Fault Request :=
  Request.ofRecord (requestRecord "RecognitionRequest" "tokens") id

/-- Reads a request that holds raw texts, and cuts them into tokens. -/
def Request.ofTexts : Doc → Except Fault Request :=
  Request.ofRecord (requestRecord "ProbeRequest" "texts") Token.ofTexts

/-- An outcome that is being read. -/
structure OutcomeDraft where
  /-- The denomination, once read. -/
  denomination : Option String := none
  /-- The serial number, once read. -/
  serial : Option String := none

/-- Outcomes as records. -/
def outcomeRecord : Record OutcomeDraft where
  name := "RecognitionResult"
  fields := ["denomination", "serial"]
  closed := false
  set draft field d :=
    if field = "denomination" then d.text.map fun v => { draft with denomination := some v }
    else d.text.map fun v => { draft with serial := some v }

/-- Reads an outcome; both fields must be there. -/
def Outcome.ofDoc : Doc → Except Fault Outcome :=
  outcomeRecord.read {} fun form draft => do
    let denomination ← outcomeRecord.require form "denomination" draft.denomination
    let serial ← outcomeRecord.require form "serial" draft.serial
    return { denomination, serial }

/-- Settings as records. -/
def settingsRecord : Record Settings where
  name := "EngineConfig"
  fields := ["minLabelScore", "moneyLabels"]
  closed := false
  set draft field d :=
    if field = "minLabelScore" then d.single.map fun v => { draft with minLabelScore := v }
    else (d.list Doc.text).map fun v => { draft with moneyLabels := v }

/-- Reads settings; what is missing stays as it is by default. -/
def Settings.ofDoc : Doc → Except Fault Settings :=
  settingsRecord.read {} fun _ draft => .ok draft

end Banknote.Recognition
