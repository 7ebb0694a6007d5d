import Banknote.Json.Basic
import Banknote.Recognition.Basic

/-!
# Writing requests, outcomes and settings

The JSON forms; every field is written, in the order of the types.
-/

namespace Banknote.Recognition

/-- The JSON form of a label. -/
def Label.toJson (l : Label) : Json :=
  .obj [("description", .str l.description), ("score", .binary l.score)]

/-- The JSON form of a request. -/
def Request.toJson (r : Request) : Json :=
  .obj [("currencyCode", .str r.currencyCode), ("denomination", .str r.denomination),
    ("tokens", .strings r.tokens), ("labels", .arr (r.labels.map Label.toJson))]

/-- The JSON form of an outcome. -/
def Outcome.toJson (o : Outcome) : Json :=
  .obj [("denomination", .str o.denomination), ("serial", .str o.serial)]

/-- The JSON form of settings. -/
def Settings.toJson (s : Settings) : Json :=
  .obj [("minLabelScore", .binary s.minLabelScore), ("moneyLabels", .strings s.moneyLabels)]

end Banknote.Recognition
