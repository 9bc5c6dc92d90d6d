import BunkerWeb.Api.Rates
import BunkerWeb.Lib.Csv
import BunkerWeb.Lib.Fields
import Mathlib.Data.Finset.Dedup
import Mathlib.Data.Finset.Empty

/-!
# Rules of the rate limit (`api/app/rate_limit.py`)

`_load_rules` takes the rules as data (a list or a mapping) or as a text, which is the name of a
file, JSON, YAML or the inline form. The data forms raise for a rule that is wrong; the inline form
leaves out a rule whose rate is wrong (`rates_faithful`).

An error that is raised is `none`.
-/

namespace BunkerWeb.Api.RateLimit

open Lib

/-- What JSON and YAML give. A scalar comes with what `str` and `int` make of it. -/
inductive Value
  | null
  | text (text : Text)
  | scalar (str : Text) (int : Option Int)
  | list (values : List Value)
  | dict (entries : List (Text × Value))

/-- What the module imports. -/
structure Library (Regex : Type) where
  digits : Digits
  /-- `str.upper`. -/
  upper : Text → Text
  escape : Text → Text
  compile : Text → Option Regex
  /-- `str` of a list or a mapping. -/
  repr : Value → Text
  dumps : List (Text × Value) → Option Text
  /-- The file of that name; inside, `none` if it cannot be read. -/
  file : Text → Option (Option Text)
  json : Text → Option Value
  yaml : Text → Option Value
  /-- `Sniffer().sniff(text, delimiters=",;").delimiter`. -/
  sniff : Text → Option Char
  sniff_mem : ∀ text delimiter, sniff text = some delimiter →
    (delimiter = ',' ∨ delimiter = ';') ∧ delimiter ∈ text

/-- `_Rule`. -/
structure Rule (Regex : Type) where
  methods : Finset Text
  pattern : Regex
  times : Int
  seconds : Int
  raw : Text

/-- What a rule limits, and how. -/
def Rule.limits {Regex : Type} (r : Rule Regex) : Finset Text × Regex × Int × Int :=
  (r.methods, r.pattern, r.times, r.seconds)

variable {Regex : Type} (lib : Library Regex)

/-! ## Parts of a rule -/

def str : Value → Text
  | .null => "None".toList
  | .text text => text
  | .scalar str _ => str
  | value => lib.repr value

def intOf : Value → Option Int
  | .text text => lib.digits.int text
  | .scalar _ int => int
  | _ => none

/-- `_normalize_method`. -/
def normalizeMethod (m : Text) : Text := lib.upper (stripChars m)

/-- `_compile_pattern`. -/
def compilePattern (path : Text) : Option Regex :=
  let p := stripChars path
  if "re:".toList.isPrefixOf p then lib.compile (p.drop 3)
  else if '*' ∈ p then
    lib.compile ('^' :: replaceAll "\\*".toList ".*".toList (lib.escape p) ++ ['$'])
  else lib.compile ('^' :: lib.escape p ++ ['$'])

/-- `{_normalize_method(x) for x in text.split("|") if x}`. -/
def splitMethods (text : Text) : Finset Text :=
  (((text.splitOn '|').filter (· ≠ [])).map (normalizeMethod lib)).toFinset

/-- `{_normalize_method(str(x)) for x in values if str(x).strip()}`. -/
def methodsOf (values : List Text) : Finset Text :=
  ((values.filter fun value => stripChars value ≠ []).map (normalizeMethod lib)).toFinset

/-- `_parse_methods`. -/
def parseMethods : Option Value → Finset Text
  | some (.text text) => splitMethods lib text
  | some (.list values) => methodsOf lib (values.map (str lib))
  | some (.dict entries) => methodsOf lib (entries.map Prod.fst)
  | _ => ∅

def defaultRate : Int × Int := (100, 60)

/-- The rate of a rule: `rate`, or `times` and `seconds`. -/
def rateOf (it : List (Text × Value)) : Option (Int × Int) :=
  match it.lookup "rate".toList with
  | none | some .null =>
    (((it.lookup "times".toList).map (intOf lib)).getD (some defaultRate.1)).bind fun times =>
      (((it.lookup "seconds".toList).map (intOf lib)).getD (some defaultRate.2)).map fun seconds =>
        (times, seconds)
  | some rate => parseRate lib.digits (str lib rate)

/-- `path or "/"`. -/
def orRoot (path : Text) : Text := if path = [] then ['/'] else path

/-- `_rule_from_dict`. -/
def ruleFromDict (it : List (Text × Value)) : Option (Rule Regex) :=
  let path := orRoot (stripChars (((it.lookup "path".toList).map (str lib)).getD ['/']))
  (rateOf lib it).bind fun rate => (compilePattern lib path).map fun pattern =>
    ⟨parseMethods lib (it.lookup "methods".toList), pattern, rate.1, rate.2,
      (lib.dumps it).getD (lib.repr (.dict it))⟩

/-- The words after the first one, with single spaces. -/
def joinRest (words : List Text) : Text := [' '].intercalate words.tail

/-- `_rule_from_mapping_key`; a key without words has no first one. -/
def ruleFromMappingKey (key : Text) (value : Value) : Option (Rule Regex) :=
  let raw := key ++ '=' :: str lib value
  let build (methods : Finset Text) (path : Text) : Option (Rule Regex) :=
    (parseRate lib.digits (str lib value)).bind fun rate =>
      (compilePattern lib path).map fun pattern => ⟨methods, pattern, rate.1, rate.2, raw⟩
  match fields isSpace key with
  | [] => none
  | [path] => build ∅ path
  | methods :: rest => build (splitMethods lib methods) (joinRest (methods :: rest))

/-! ## The inline form -/

/-- `_csv_items`; `none` if the reader raises. -/
def csvItems (s : Text) : Option (List Text) :=
  let delimiter := (lib.sniff s).getD (if ',' ∈ s ∨ ';' ∉ s then ',' else ';')
  (Csv.fieldsOf delimiter s).map fun fields => (fields.map stripChars).filter (· ≠ [])

/-- The methods and the path in front of a rate. -/
def splitHead (head : Text) : Finset Text × Text :=
  match fields isSpace head with
  | [] => (∅, head)
  | word :: words =>
    if '/' ∈ word then (∅, head)
    else (splitMethods lib word, stripChars (joinRest (word :: words)))

/-- The rule of one item, if it has one: the last word is the rate. -/
def ruleFromItem (item : Text) : Option (Option (Rule Regex)) :=
  let s := stripChars item
  let tail := s.rtakeWhile (!isRegexSpace ·)
  let head := stripChars (s.take (s.length - tail.length))
  if s = [] ∨ tail = [] then some none
  else
    match parseRate lib.digits tail with
    | none => some none
    | some rate =>
      if fields isSpace head = [] then some none
      else
        (compilePattern lib (orRoot (splitHead lib head).2)).map fun pattern =>
          some ⟨(splitHead lib head).1, pattern, rate.1, rate.2, s⟩

/-- `_rules_from_string`. -/
def rulesFromString (raw : Text) : Option (List (Rule Regex)) :=
  (csvItems lib raw).bind fun items =>
    (items.mapM (ruleFromItem lib)).map fun rules => rules.filterMap id

/-! ## All forms -/

def asDict : Value → Option (List (Text × Value))
  | .dict it => some it
  | _ => none

/-- `_rules_from_sequence`. -/
def rulesFromSequence (data : List Value) : Option (List (Rule Regex)) :=
  (data.filterMap asDict).mapM (ruleFromDict lib)

/-- `_load_rules`; the number bounds how deep a text may lead to another one. -/
def loadRules : Nat → Value → Option (List (Rule Regex))
  | _, .null => some []
  | _, .scalar _ _ => some []
  | _, .dict entries => entries.mapM fun e => ruleFromMappingKey lib e.1 e.2
  | _, .list values => rulesFromSequence lib values
  | 0, .text _ => none
  | fuel + 1, .text value =>
    let raw := stripChars value
    if raw = [] then some []
    else
      match lib.file raw with
      | some none => some []
      | some (some content) =>
        if stripChars content = [] then some [] else loadRules fuel (.text (stripChars content))
      | none =>
        match lib.json raw with
        | some .null | none =>
          match lib.yaml raw with
          | some (.dict entries) =>
            (loadRules fuel (.dict entries)).orElse fun _ => rulesFromString lib raw
          | some (.list values) =>
            (loadRules fuel (.list values)).orElse fun _ => rulesFromString lib raw
          | _ => rulesFromString lib raw
        | some parsed => loadRules fuel parsed

end BunkerWeb.Api.RateLimit
