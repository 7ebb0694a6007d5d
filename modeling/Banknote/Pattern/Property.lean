import Banknote.Pattern.CharSet
import Banknote.Text.ScriptRanges

/-!
# Names of character sets

The sets of characters that patterns name: the fourteen ASCII classes that are written between
colons, and the properties that are written after `\p`.  The name of a property is read loosely:
case, blanks, hyphens and underscores do not count.  A property is a general category, a group of
categories, a script, or one of a few properties of their own; `gc`, `sc` and their long names may
say which.
-/

namespace Banknote.Pattern

open Text (Category)

namespace CharSet

/-- The ASCII class of a name. -/
def ofAsciiName? : String → Option CharSet
  | "alnum" => some (ranges [(0x30, 0x39), (0x41, 0x5A), (0x61, 0x7A)])
  | "alpha" => some (ranges [(0x41, 0x5A), (0x61, 0x7A)])
  | "ascii" => some (ranges [(0, 0x7F)])
  | "blank" => some (ranges [(0x09, 0x09), (0x20, 0x20)])
  | "cntrl" => some (ranges [(0, 0x1F), (0x7F, 0x7F)])
  | "digit" => some (ranges [(0x30, 0x39)])
  | "graph" => some (ranges [(0x21, 0x7E)])
  | "lower" => some (ranges [(0x61, 0x7A)])
  | "print" => some (ranges [(0x20, 0x7E)])
  | "punct" => some (ranges [(0x21, 0x2F), (0x3A, 0x40), (0x5B, 0x60), (0x7B, 0x7E)])
  | "space" => some (ranges [(0x09, 0x0D), (0x20, 0x20)])
  | "upper" => some (ranges [(0x41, 0x5A)])
  | "word" => some (ranges [(0x30, 0x39), (0x41, 0x5A), (0x5F, 0x5F), (0x61, 0x7A)])
  | "xdigit" => some (ranges [(0x30, 0x39), (0x41, 0x46), (0x61, 0x66)])
  | _ => none

end CharSet

namespace Property

/-- Groups of general categories, with every spelling of their names. -/
def categoryGroups : List (List String × List Category) :=
  [(["l", "letter"], [.lu, .ll, .lt, .lm, .lo]),
    (["lc", "casedletter"], [.lu, .ll, .lt]),
    (["m", "mark", "combiningmark"], [.mn, .mc, .me]),
    (["n", "number"], [.nd, .nl, .no]),
    (["p", "punctuation", "punct"], [.pc, .pd, .ps, .pe, .pi, .pf, .po]),
    (["s", "symbol"], [.sm, .sc, .sk, .so]),
    (["z", "separator"], [.zs, .zl, .zp]),
    (["c", "other"], [.cc, .cf, .cs, .co, .cn]),
    (["lu", "uppercaseletter"], [.lu]),
    (["ll", "lowercaseletter"], [.ll]),
    (["lt", "titlecaseletter"], [.lt]),
    (["lm", "modifierletter"], [.lm]),
    (["lo", "otherletter"], [.lo]),
    (["mn", "nonspacingmark"], [.mn]),
    (["mc", "spacingmark"], [.mc]),
    (["me", "enclosingmark"], [.me]),
    (["nd", "decimalnumber", "digit"], [.nd]),
    (["nl", "letternumber"], [.nl]),
    (["no", "othernumber"], [.no]),
    (["pc", "connectorpunctuation"], [.pc]),
    (["pd", "dashpunctuation"], [.pd]),
    (["ps", "openpunctuation"], [.ps]),
    (["pe", "closepunctuation"], [.pe]),
    (["pi", "initialpunctuation"], [.pi]),
    (["pf", "finalpunctuation"], [.pf]),
    (["po", "otherpunctuation"], [.po]),
    (["sm", "mathsymbol"], [.sm]),
    (["sc", "currencysymbol"], [.sc]),
    (["sk", "modifiersymbol"], [.sk]),
    (["so", "othersymbol"], [.so]),
    (["zs", "spaceseparator"], [.zs]),
    (["zl", "lineseparator"], [.zl]),
    (["zp", "paragraphseparator"], [.zp]),
    (["cc", "control", "cntrl"], [.cc]),
    (["cf", "format"], [.cf]),
    (["co", "privateuse"], [.co]),
    (["cn", "unassigned"], [.cn])]

/-- Scripts, with every spelling of their names. -/
def scripts : List (List String × List (Nat × Nat)) :=
  [(["arabic", "arab"], Text.arabicRanges),
    (["armenian", "armn"], Text.armenianRanges),
    (["cyrillic", "cyrl"], Text.cyrillicRanges),
    (["devanagari", "deva"], Text.devanagariRanges),
    (["greek", "grek"], Text.greekRanges),
    (["han", "hani"], Text.hanRanges),
    (["hangul", "hang"], Text.hangulRanges),
    (["hebrew", "hebr"], Text.hebrewRanges),
    (["hiragana", "hira"], Text.hiraganaRanges),
    (["katakana", "kana"], Text.katakanaRanges),
    (["latin", "latn"], Text.latinRanges),
    (["thai"], Text.thaiRanges)]

/-- Sets that count as categories without being any. -/
def pseudoCategories : List (List String × CharSet) :=
  [(["any"], .any),
    (["ascii"], .range 0 0x7F),
    (["assigned"], .compl (.named (.categories [.cn])))]

/-- Properties that are neither categories nor scripts, with every spelling of their names. -/
def others : List (List String × CharSet) :=
  [(["alphabetic", "alpha"], .named .letter),
    (["lowercase", "lower"], .named .lowercase),
    (["uppercase", "upper"], .named .uppercase),
    (["whitespace", "wspace", "space"], .named .blank)]

/-- The entry that has a spelling. -/
def lookup? {α : Type} (name : String) (entries : List (List String × α)) : Option α :=
  (entries.find? fun entry => entry.1.contains name).map Prod.snd

/-- The set of a general category or group of categories. -/
def category? (name : String) : Option CharSet :=
  lookup? name pseudoCategories <|>
    (lookup? name categoryGroups).map fun cs => .named (.categories cs)

/-- The set of a script. -/
def script? (name : String) : Option CharSet := (lookup? name scripts).map .ranges

/-- A name without what does not count in it. -/
def normalize (name : List Char) : String :=
  String.ofList <| (name.filter fun c => !Text.isBlank c && c != '-' && c != '_').map Char.toLower

/-- The set that a property without further hints names. -/
def bare? (name : String) : Option CharSet :=
  lookup? name others <|> category? name <|> script? name

/-- The set that is named by what stands in the braces after `\p`. -/
def ofName? (text : List Char) : Option CharSet :=
  match text.span fun c => c != '=' && c != ':' with
  | (name, []) => bare? (normalize name)
  | (kind, _ :: value) =>
    let negative := kind.getLast? == some '!'
    let kind := normalize (if negative then kind.dropLast else kind)
    let value := normalize value
    let set :=
      if kind = "gc" ∨ kind = "generalcategory" then category? value
      else if kind = "sc" ∨ kind = "script" then script? value
      else none
    set.map (.negated negative)

end Property

end Banknote.Pattern
