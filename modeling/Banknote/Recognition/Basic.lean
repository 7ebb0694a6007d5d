import Banknote.Number.Binary

/-!
# What goes into a recognition and what comes out

A `Request` holds what is known about one photo: the tokens read from it, the labels that were given
to it, the code of the currency and perhaps the denomination.  An `Outcome` is what was recognized.
`Settings` say which labels speak for money and how surely.
-/

namespace Banknote.Recognition

/-- What a photo was labelled as, and how surely. -/
structure Label where
  /-- What the photo shows. -/
  description : String
  /-- How sure that is. -/
  score : Binary .single
  deriving BEq, Repr, Inhabited

/-- What is known about one photo. -/
structure Request where
  /-- The code of the currency. -/
  currencyCode : String
  /-- The denomination; empty if it is to be recognized. -/
  denomination : String := ""
  /-- The words read from the photo. -/
  tokens : List String := []
  /-- The labels of the photo. -/
  labels : List Label := []
  deriving BEq, Repr, Inhabited

/-- What was recognized; empty is what was not found. -/
structure Outcome where
  /-- The denomination. -/
  denomination : String
  /-- The serial number. -/
  serial : String
  deriving DecidableEq, Repr, Inhabited

/-- One half. -/
def half : Binary .single := (Binary.ofNat 1).div (Binary.ofNat 2)

/-- Which labels speak for money. -/
structure Settings where
  /-- The least score of a label that counts. -/
  minLabelScore : Binary .single := half
  /-- The descriptions of money. -/
  moneyLabels : List String := ["currency", "money"]
  deriving BEq, Repr, Inhabited

end Banknote.Recognition
