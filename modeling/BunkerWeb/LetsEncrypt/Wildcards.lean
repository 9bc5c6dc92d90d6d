import BunkerWeb.Lib.CommonSuffix
import BunkerWeb.Lib.Dict
import BunkerWeb.Lib.Fields
import BunkerWeb.Text
import Mathlib.Data.Finset.Dedup

/-!
# The groups of wildcard certificates (`certbot-new.py`, `letsencrypt.lua`)

With wildcard certificates the names of a service fall into groups, one for the last two labels, and
every group brings the names of one or more certificates: `base`, which covers `*.base` and `base`.
The job that asks for the certificates and the plugin that serves them both compute the groups from
`SERVER_NAME`.

- **What both share**: labels, the key of a group (`groupKey`), the collection of the names
  (`addBase`).
- **The job** (`CertbotNew.extractWildcardGroups`), on the set of `normalize_server_names`.
- **The plugin** (`Plugin.buildWildcardGroups`), on the words of the value.

Names are lists of characters, as both sides read them. `str.lower` and `string.lower` are the same
on ASCII only, and host names are ASCII.
-/

namespace BunkerWeb.LetsEncrypt

open Lib

abbrev Name := List Char

abbrev Labels := List Name

/-- `".".join(labels)` and `table.concat(labels, ".")`. -/
def join (labels : Labels) : Name := ['.'].intercalate labels

def lower (name : Name) : Name := name.map Char.toLower

/-- The name starts with `*.`. -/
def isWildcard (name : Name) : Bool := ['*', '.'].isPrefixOf name

/-- `name.removeprefix("*.")` and `gsub(name, "^%*%.", "")`. -/
def removePrefix (name : Name) : Name := if isWildcard name then name.drop 2 else name

/-- The labels between the dots, without the empty ones. -/
def splitLabels (name : Name) : Labels := fields (· = '.') name

/-- `a < b` of texts. -/
def textLt (a b : Name) : Bool := List.lex a b fun c d => decide (c < d)

/-- The last two labels, or the only one. -/
def groupKey (labels : Labels) : Name :=
  if 2 ≤ labels.length then join (labels.drop (labels.length - 2)) else join labels

/-- `grouped[key].append(labels)` for one after the other. -/
def grouped (labelsList : List Labels) : Dict Name (List Labels) :=
  labelsList.foldl (fun groups labels =>
    groups.insert (groupKey labels) ((groups.lookup (groupKey labels)).getD [] ++ [labels])) ∅

/-- `labels[1:]` when there are more than two labels. -/
def shortened (labels : Labels) : Labels := if 2 < labels.length then labels.drop 1 else labels

def minLen (labelsList : List Labels) : Nat := (labelsList.map List.length).min?.getD 0

/-- `groups.setdefault(base, set()).update({f"*.{base}", base})`. -/
def addBase (groups : Dict Name (List Name)) (base : Name) : Dict Name (List Name) :=
  groups.insert base ((groups.lookup base).getD [] ∪ ['*' :: '.' :: base, base])

/-! ## The job -/

namespace CertbotNew

/-- The names between commas and spaces. -/
def normalizeServerNames (serverNames : Name) : Finset Name :=
  let parts := fields isSpace (serverNames.map fun c => if c = ',' then ' ' else c)
  ((parts.filter fun part => !(stripChars part).isEmpty).map fun part =>
    lower (stripChars part)).toFinset

/-- The labels that a domain brings, if it has any. -/
def cleanedLabels (domain : Name) : Option Labels :=
  let cleaned := lower (removePrefix (stripChars domain))
  if cleaned = [] then none
  else if splitLabels cleaned = [] then none
  else some (splitLabels cleaned)

/-- `_determine_wildcard_bases`; the last line collects a set. -/
def determineWildcardBases : List Labels → List Name
  | [] => []
  | [labels] => [join (shortened labels)]
  | labelsList =>
    let common := commonSuffix (minLen labelsList) labelsList
    if 2 ≤ common.length ∧ minLen labelsList - 1 ≤ common.length then [join common]
    else (labelsList.map fun labels => join (shortened labels)).dedup

/-- `base.strip(".")`. -/
def stripDots (base : Name) : Name := (base.dropWhile (· = '.')).rdropWhile (· = '.')

/-- The order of `key=lambda value: (0 if value.startswith("*.") else 1, value)`; `sorted` asks
whether the key of `b` is less. -/
def sortedBefore (a b : Name) : Bool :=
  if isWildcard a = isWildcard b then !textLt b a else isWildcard a

def extractWildcardGroups (domains : List Name) : Dict Name (List Name) :=
  let groups := (grouped (domains.filterMap cleanedLabels)).items
  let bases := groups.flatMap fun group => determineWildcardBases group.2
  let bases := (bases.map stripDots).filter fun base => !base.isEmpty
  (bases.foldl addBase ∅).mapValues fun names => names.mergeSort sortedBefore

end CertbotNew

/-! ## The plugin -/

namespace Plugin

/-- `%s`. -/
def isSpace (c : Char) : Bool := c.toNat ∈ [0x09, 0x0A, 0x0B, 0x0C, 0x0D, 0x20]

/-- The loop over `server_names:gmatch("%S+")`. -/
def serverList (serverNames : Name) : List Name := fields isSpace serverNames

/-- `sanitize_domain_labels`. -/
def sanitizeDomainLabels (domain : Name) : Option Labels :=
  if domain = [] then none
  else
    let cleaned := (lower (removePrefix domain)).rdropWhile (· = '.')
    if splitLabels cleaned = [] then none else some (splitLabels cleaned)

/-- `determine_wildcard_bases`; the last line is the loop with `seen`. -/
def determineWildcardBases : List Labels → List Name
  | [] => []
  | [labels] => [join (shortened labels)]
  | labelsList =>
    let common := commonSuffix (minLen labelsList) labelsList
    if 2 ≤ common.length ∧ minLen labelsList - 1 ≤ common.length then [join common]
    else ((labelsList.map fun labels => join (shortened labels)).filter fun base =>
      !base.isEmpty).eraseDups

/-- The function that the names are sorted with. -/
def before (a b : Name) : Bool :=
  if isWildcard a = isWildcard b then textLt a b else isWildcard a && !isWildcard b

def buildWildcardGroups (domains : List Name) : Dict Name (List Name) :=
  let groups := (grouped (domains.filterMap sanitizeDomainLabels)).items
  let bases := groups.flatMap fun group => determineWildcardBases group.2
  let bases := bases.filter fun base => !base.isEmpty
  (bases.foldl addBase ∅).mapValues fun names => names.mergeSort fun a b => !before b a

end Plugin

/-! ## Agreement -/

/-- Whatever the order of the set, both sides have the same certificates with the same names. -/
def Agree (serverNames : Name) : Prop :=
  ∀ domains : List Name, domains.Nodup →
    domains.toFinset = CertbotNew.normalizeServerNames serverNames →
    ∀ base, (CertbotNew.extractWildcardGroups domains).lookup base =
      (Plugin.buildWildcardGroups (Plugin.serverList serverNames)).lookup base

/-- The names of a value, in lower case and as often as they are there. -/
def names (serverNames : Name) : List Name := (Plugin.serverList serverNames).map lower

/-- The group that a name falls into. -/
def groupOf (name : Name) : Option Name := (CertbotNew.cleanedLabels name).map groupKey

/-- A name of more than two labels that is the only one of its group is there once. -/
def AloneOnce (serverNames : Name) : Prop :=
  ∀ name ∈ names serverNames, 2 < ((CertbotNew.cleanedLabels name).getD []).length →
    (∀ other ∈ names serverNames, groupOf other = groupOf name → other = name) →
      (names serverNames).count name = 1

instance (serverNames : Name) : Decidable (AloneOnce serverNames) :=
  inferInstanceAs (Decidable (∀ _ ∈ _, _))

/-- The character separates names on both sides or on neither. -/
def Common (c : Char) : Prop :=
  c.toNat < 128 ∧ c ≠ ',' ∧ BunkerWeb.isSpace c = Plugin.isSpace c

instance (c : Char) : Decidable (Common c) := inferInstanceAs (Decidable (_ ∧ _))

/-- A name that is there twice, and names that are separated by a comma. -/
theorem repeated_or_with_a_comma :
    ¬ Agree "www.example.com www.example.com".toList ∧
      ¬ Agree "a.example.com,b.example.com".toList := by
  constructor
  · intro h
    have hlookup := h ["www.example.com".toList] (by decide) (by decide) "example.com".toList
    exact absurd (congrArg Option.isSome hlookup) (by decide)
  · intro h
    have hlookup := h ["a.example.com".toList, "b.example.com".toList] (by decide) (by decide)
      "example.com".toList
    exact absurd (congrArg Option.isSome hlookup) (by decide)

end BunkerWeb.LetsEncrypt
