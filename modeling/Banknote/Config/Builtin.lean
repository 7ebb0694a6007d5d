/-!
# The built-in configuration

The codes of currencies that are known from the start.  Only the Bahamian dollar (`BSD`) and the
naira (`NGN`) are described; of the other codes nothing is known but that they exist.
-/

namespace Banknote.Config

/-- The text of the built-in configuration. -/
def builtinText : String := r#"{
  "ALL": {},
  "DZD": {},
  "ARS": {},
  "AUD": {},
  "BSD": {
    "language": "en",
    "textMarks": [
      "(?i)bahamas",
      "(?i)central",
      "(?i)bank"
    ],
    "denominations": {
      "1": {
        "joinMethod": "none",
        "patterns": [
          "(?i)one",
          "(?i)sir",
          "(?i)lynden",
          "(?i)pindling"
        ]
      }
    },
    "serial": {
      "joinMethod": "noDelimiter",
      "pattern": ".*([A-Z]{1}[0-9]{6}).*",
      "captureGroup": 1,
      "resultFilters": []
    }
  },
  "BHD": {},
  "BDT": {},
  "AMD": {},
  "BBD": {},
  "BMD": {},
  "BTN": {},
  "BOB": {},
  "BWP": {},
  "BZD": {},
  "SBD": {},
  "BND": {},
  "MMK": {},
  "BIF": {},
  "KHR": {},
  "CAD": {},
  "CVE": {},
  "KYD": {},
  "LKR": {},
  "CLP": {},
  "CNY": {},
  "COP": {},
  "KMF": {},
  "CRC": {},
  "HRK": {},
  "CUP": {},
  "CZK": {},
  "DKK": {},
  "DOP": {},
  "SVC": {},
  "ETB": {},
  "ERN": {},
  "FKP": {},
  "FJD": {},
  "DJF": {},
  "GMD": {},
  "GIP": {},
  "GTQ": {},
  "GNF": {},
  "GYD": {},
  "HTG": {},
  "HNL": {},
  "HKD": {},
  "HUF": {},
  "ISK": {},
  "INR": {},
  "IDR": {},
  "IRR": {},
  "IQD": {},
  "ILS": {},
  "JMD": {},
  "JPY": {},
  "KZT": {},
  "JOD": {},
  "KES": {},
  "KPW": {},
  "KRW": {},
  "KWD": {},
  "KGS": {},
  "LAK": {},
  "LBP": {},
  "LSL": {},
  "LRD": {},
  "LYD": {},
  "LTL": {},
  "MOP": {},
  "MWK": {},
  "MYR": {},
  "MVR": {},
  "MRO": {},
  "MUR": {},
  "MXN": {},
  "MNT": {},
  "MDL": {},
  "MAD": {},
  "OMR": {},
  "NAD": {},
  "NPR": {},
  "ANG": {},
  "AWG": {},
  "VUV": {},
  "NZD": {},
  "NIO": {},
  "NGN": {
    "language": "en",
    "denominations": {
      "5": {
        "fuzzy": {
          "vocabulary": [
            "five",
            "alhaji",
            "sir",
            "abubakar",
            "tafawa",
            "balewa"
          ],
          "depth": 2
        },
        "fuzzyIgnore": [
          "(?i)[^f]i[a-z]{0,1}e"
        ],
        "joinMethod": "none",
        "patterns": [
          "(?i)five|sir|abubakar|balewa",
          "(?i)tafawa|alhaji|balewa",
          "(?i)naira|central"
        ]
      },
      "10": {
        "fuzzy": {
          "vocabulary": [
            "ten",
            "alvan",
            "ikoku"
          ],
          "depth": 2
        },
        "joinMethod": "noDelimiter",
        "dualPatterns": [
          "(?i)((?<!cen)ten)|alvan|ikoku",
          "(?i)ikoku|alvan|1900|1971",
          "(?i)central|bank|currency|naira"
        ],
        "colorHints": {
          "184,156,135": 10.0,
          "182,172,145": 10.0,
          "248,198,148": 10.0,
          "240,206,142": 10.0,
          "230,176,130": 10.0
        }
      },
      "20": {
        "fuzzy": {
          "vocabulary": [
            "twenty",
            "general",
            "murtala",
            "muhammed"
          ],
          "depth": 2
        },
        "fuzzyIgnore": [
          "(?i)c?e.*tral"
        ],
        "joinMethod": "noDelimiter",
        "patterns": [
          "(?i)twenty|muhammed|murtala|general|1938|1976",
          "(?i)central|bank|currency|naira|nigeria"
        ]
      },
      "50": {
        "fuzzy": {
          "vocabulary": [
            "fifty"
          ],
          "depth": 2
        },
        "joinMethod": "none",
        "patterns": [
          "(?i)fifty",
          "(?i)central|bank|currency|naira"
        ]
      },
      "100": {
        "fuzzy": {
          "vocabulary": [
            "hundred",
            "one",
            "obafemi",
            "awolowo",
            "chief"
          ],
          "depth": 2
        },
        "joinMethod": "noDelimiter",
        "patterns": [
          "(?i)hundred|one|1909|1987|chief|obafemi|awolowo",
          "(?i)chief|obafemi|awolowo",
          "(?i)currency|naira|central|bank"
        ]
      },
      "200": {
        "fuzzy": {
          "vocabulary": [
            "two",
            "hundred",
            "sir",
            "alhaji",
            "ahmadu",
            "bello"
          ],
          "depth": 2
        },
        "fuzzyIgnore": [
          "(?i)i[^0-9]{1,}r"
        ],
        "joinMethod": "noDelimiter",
        "patterns": [
          "(?i)hundred|two|sir|alhaji|ahmadu|bello",
          "(?i)\\b200\\b|ahmadu|bello|1909|1966",
          "(?i)nigeria|currency|naira"
        ]
      },
      "500": {
        "fuzzy": {
          "vocabulary": [
            "nnamdi",
            "azikiwe",
            "hundred",
            "five"
          ],
          "depth": 2
        },
        "joinMethod": "noDelimiter",
        "patterns": [
          "(?i)five|nnamdi|azikiwe|500",
          "(?i)hundred|nnamdi|azikiwe"
        ]
      },
      "1000": {
        "fuzzy": {
          "vocabulary": [
            "one",
            "thousand",
            "naira"
          ],
          "depth": 2
        },
        "joinMethod": "noDelimiter",
        "patterns": [
          "(?i)thousand",
          "(?i)one",
          "(?i)central|naira|nigeria"
        ]
      }
    },
    "serial": {
      "joinMethod": "noDelimiter",
      "pattern": "([A-Z]{2}[0-9]{6,7}|[0-9]{6})",
      "captureGroup": 1,
      "resultFilters": [],
      "serial_5": {
        "pattern": "([A-Z]{2}[0-9]{7})",
        "captureGroup": 1,
        "joinMethod": "noDelimiter",
        "resultFilters": []
      },
      "serial_10": "serial_50",
      "serial_20": {
        "dualPattern": "([A-Z]{2}[0-9]{7})|([A-Z]{2}[0-9]{6})",
        "direction": "rightToLeft",
        "captureGroup": 1,
        "joinMethod": "noDelimiter",
        "matchFilters": [
          "remove-empty"
        ],
        "resultFilters": []
      },
      "serial_50": {
        "pattern": "([A-Z]{2}[0-9]{6,7})",
        "captureGroup": 1,
        "joinMethod": "noDelimiter",
        "tokensToRemove": [
          "[[:punct:]]"
        ],
        "resultFilters": []
      },
      "serial_100": {
        "dualPattern": "(?:(?i:[A-Z])?([A-Z]{2}[0-9]{7})[^0-9])|(?:(?:[A-Z]{2,})?([0-9]{6})(?:[0-9]{2})?)",
        "tokensToRemove": [
          "1987",
          "1909",
          "2014",
          "1914"
        ],
        "direction": "rightToLeft",
        "captureGroup": 1,
        "joinMethod": "noDelimiter",
        "matchFilters": [
          "remove-empty"
        ],
        "resultFilters": []
      },
      "serial_200": {
        "dualPattern": "(?:(?i:[A-Z])?([A-Z]{2}[0-9]{7})[^0-9])|(?:(?:[A-Z]{2,})?([0-9]{6})(?:[0-9]{2})?)",
        "tokensToRemove": [
          "1909",
          "1966"
        ],
        "direction": "rightToLeft",
        "captureGroup": 1,
        "joinMethod": "noDelimiter",
        "matchFilters": [
          "remove-empty"
        ],
        "resultFilters": []
      },
      "serial_500": {
        "dualPattern": "(?:(?:[A-Z]{2,})?([0-9]{6})(?i:[a-z]|[0-9]{2})?)",
        "tokensToRemove": [
          "1904",
          "1996",
          "[[:punct:]]"
        ],
        "direction": "rightToLeft",
        "captureGroup": 1,
        "joinMethod": "noDelimiter",
        "resultFilters": []
      },
      "serial_1000": {
        "pattern": "(?:(?:[A-Z]{2,}|[0-9]{2,})?([0-9]{6})(?i:[a-z])?)",
        "tokensToRemove": [
          "[[:punct:]]"
        ],
        "captureGroup": 1,
        "joinMethod": "noDelimiter",
        "resultFilters": []
      }
    }
  },
  "NOK": {},
  "PKR": {},
  "PAB": {},
  "PGK": {},
  "PYG": {},
  "PEN": {},
  "PHP": {},
  "QAR": {},
  "RUB": {},
  "RWF": {},
  "SHP": {},
  "STD": {},
  "SAR": {},
  "SCR": {},
  "SLL": {},
  "SGD": {},
  "VND": {},
  "SOS": {},
  "ZAR": {},
  "SSP": {},
  "SZL": {},
  "SEK": {},
  "CHF": {},
  "SYP": {},
  "THB": {},
  "TOP": {},
  "TTD": {},
  "AED": {},
  "TND": {},
  "UGX": {},
  "MKD": {},
  "EGP": {},
  "GBP": {},
  "TZS": {},
  "USD": {},
  "UYU": {},
  "UZS": {},
  "WST": {},
  "YER": {},
  "TWD": {},
  "CUC": {},
  "ZWL": {},
  "TMT": {},
  "GHS": {},
  "VEF": {},
  "SDG": {},
  "UYI": {},
  "RSD": {},
  "MZN": {},
  "AZN": {},
  "RON": {},
  "CHE": {},
  "CHW": {},
  "TRY": {},
  "XAF": {},
  "XCD": {},
  "XOF": {},
  "XPF": {},
  "XBA": {},
  "XBB": {},
  "XBC": {},
  "XBD": {},
  "XAU": {},
  "XDR": {},
  "XAG": {},
  "XPT": {},
  "XTS": {},
  "XPD": {},
  "XUA": {},
  "ZMW": {},
  "SRD": {},
  "MGA": {},
  "COU": {},
  "AFN": {},
  "TJS": {},
  "AOA": {},
  "BYR": {},
  "BGN": {},
  "CDF": {},
  "BAM": {},
  "EUR": {},
  "MXV": {},
  "UAH": {},
  "GEL": {},
  "BOV": {},
  "PLN": {},
  "BRL": {},
  "CLF": {},
  "XSU": {},
  "USN": {},
  "XXX": {}
}
"#

end Banknote.Config
