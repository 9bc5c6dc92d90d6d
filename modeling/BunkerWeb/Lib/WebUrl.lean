import BunkerWeb.Lib.Trim
import Mathlib.Data.List.TakeWhile

/-!
# Links on a web page (URL Standard)

A browser cleans the text of a link, looks for a scheme, and otherwise resolves the text against the
URL of the page. Two slashes at the start name another host, and a backslash is a slash; the segments
`.` and `..` are resolved after `%2e` is read as a dot.

`resolve` follows the states of the parser for the schemes that have a host. How a host is parsed is a
parameter; the query, the fragment and the percent-encoding of a path are left out.

`origin_of_rooted`: a link that begins with one slash stays on the site.
-/

namespace Lib.WebUrl

abbrev Text := List Char

/-- The special schemes that have a host. -/
def specialSchemes : List Text :=
  ["http".toList, "https".toList, "ws".toList, "wss".toList, "ftp".toList]

structure Url where
  scheme : Text
  special : scheme ∈ specialSchemes
  host : Text
  port : Option Nat
  path : List Text
  deriving DecidableEq

/-- Scheme, host and port. -/
def Url.origin (u : Url) : Text × Text × Option Nat := (u.scheme, u.host, u.port)

/-- What a link leads to. -/
inductive Resolved where
  | url (u : Url)
  /-- A URL with another scheme, such as `javascript`. -/
  | other (scheme : Text)
  | failure
  deriving DecidableEq

/-- The text without blanks and control characters at its ends, and without tabs and line ends. -/
def clean (text : Text) : Text :=
  (trim (fun c => c.toNat ≤ 32) text).filter fun c => c ∉ ['\t', '\n', '\r']

def isSlash (c : Char) : Bool := c = '/' || c = '\\'

/-- Ends the path. -/
def endsPath (c : Char) : Bool := c = '?' || c = '#'

def isDot (segment : Text) : Bool := segment.map Char.toLower ∈ [".".toList, "%2e".toList]

def isDoubleDot (segment : Text) : Bool :=
  segment.map Char.toLower ∈ ["..".toList, ".%2e".toList, "%2e.".toList, "%2e%2e".toList]

/-- The path state. -/
def addSegments (path : List Text) : List Text → List Text
  | [] => path
  | [segment] =>
    if isDoubleDot segment then path.dropLast ++ [[]]
    else if isDot segment then path ++ [[]]
    else path ++ [segment]
  | segment :: rest =>
    addSegments (if isDoubleDot segment then path.dropLast
      else if isDot segment then path else path ++ [segment]) rest

/-- The segments of a path, without the slash that it begins with. -/
def segments (text : Text) : List Text := (text.takeWhile fun c => !endsPath c).splitOnP isSlash

/-- The path start state. -/
def pathOf : Text → List Text
  | [] => addSegments [] (segments [])
  | c :: text => addSegments [] (segments (if isSlash c then text else c :: text))

/-- The scheme state: the text in front of the first colon, if it can be a scheme. -/
def readScheme : Text → Option (Text × Text)
  | [] => none
  | c :: text =>
    if c = ':' then some ([], text)
    else if c.isAlphanum || c ∈ ['+', '-', '.'] then
      (readScheme text).map fun parts => (c.toLower :: parts.1, parts.2)
    else none

/-- The scheme start state. -/
def splitScheme : Text → Option (Text × Text)
  | [] => none
  | c :: text => if c.isAlpha then readScheme (c :: text) else none

section

variable (parseHost : Text → Option (Text × Option Nat))

/-- The authority state and what follows, for what stands behind the slashes. -/
def absolute (scheme : Text) (text : Text) : Resolved :=
  if special : scheme ∈ specialSchemes then
    match parseHost (text.takeWhile fun c => !isSlash c && !endsPath c) with
    | none => .failure
    | some (host, port) =>
      .url ⟨scheme, special, host, port,
        pathOf (text.dropWhile fun c => !isSlash c && !endsPath c)⟩
  else .other scheme

/-- The relative state and the relative slash state. -/
def relative (page : Url) : Text → Resolved
  | [] => .url page
  | c :: text =>
    if isSlash c then
      match text with
      | [] => .url { page with path := pathOf [] }
      | d :: rest =>
        if isSlash d then absolute parseHost page.scheme (rest.dropWhile isSlash)
        else .url { page with path := pathOf (d :: rest) }
    else if endsPath c then .url page
    else .url { page with path := addSegments page.path.dropLast (segments (c :: text)) }

/-- The text of a link on a page. -/
def resolve (page : Url) (link : Text) : Resolved :=
  match splitScheme (clean link) with
  | none => relative parseHost page (clean link)
  | some (scheme, text) =>
    -- The scheme of the page and no two slashes: the rest is read as if there were no scheme.
    if scheme = page.scheme ∧ ¬ "//".toList <+: text then relative parseHost page text
    else absolute parseHost scheme (text.dropWhile isSlash)

end

/-! ## Links with one slash -/

variable {link rest t : Text} {c : Char}

theorem head_of_append {b : Text} (h : rest = t ++ b) (hc : ∀ d ∈ rest.head?, isSlash d = false) :
    ∀ d ∈ t.head?, isSlash d = false := by
  subst h
  cases t with
  | nil => nofun
  | cons d t => exact hc

/-- Only the end of a link that begins with a slash is cleaned away. -/
theorem clean_rooted (hlink : link = '/' :: rest)
    (hbreak : ∀ c ∈ link, c ∉ ['\t', '\n', '\r']) : ∃ t b, clean link = '/' :: t ∧ rest = t ++ b := by
  obtain ⟨a, b, hab, ha, hb⟩ := exists_trim (fun c : Char => decide (c.toNat ≤ 32)) link
  obtain ⟨t, ht, hrest⟩ : ∃ t, trim (fun c : Char => decide (c.toNat ≤ 32)) link = '/' :: t ∧
      rest = t ++ b := by
    cases a with
    | cons c a =>
      obtain rfl : '/' = c := by
        rw [hlink] at hab
        exact (List.cons.inj hab).1
      exact absurd (ha '/' List.mem_cons_self) (by decide)
    | nil =>
      cases htrim : trim (fun c : Char => decide (c.toNat ≤ 32)) link with
      | nil =>
        rw [htrim, hlink] at hab
        have hmem : '/' ∈ b := by
          rw [← show '/' :: rest = b from hab]
          exact List.mem_cons_self
        exact absurd (hb '/' hmem) (by decide)
      | cons c t =>
        rw [htrim, hlink] at hab
        obtain ⟨rfl, hrest⟩ := List.cons.inj hab
        exact ⟨t, rfl, hrest⟩
  refine ⟨t, b, ?_, hrest⟩
  rw [clean, ht, List.filter_eq_self]
  intro c hc
  have hmem : c ∈ link := by
    rw [hab, ht]
    exact List.mem_append_left _ (List.mem_append_right _ hc)
  exact decide_eq_true (hbreak c hmem)

variable (parseHost : Text → Option (Text × Option Nat))

theorem relative_rooted (page : Url) (ht : ∀ c ∈ t.head?, isSlash c = false) :
    ∃ u, relative parseHost page ('/' :: t) = .url u ∧ u.origin = page.origin := by
  have hslash : isSlash '/' = true := by decide
  cases t with
  | nil =>
    rw [relative, if_pos hslash]
    exact ⟨_, rfl, rfl⟩
  | cons d t =>
    rw [relative, if_pos hslash, if_neg (Bool.eq_false_iff.mp (ht d rfl))]
    exact ⟨_, rfl, rfl⟩

/-- A link that begins with one slash, and no second one of either kind, stays on the site. -/
theorem origin_of_rooted (page : Url) (hlink : link = '/' :: rest)
    (hrest : ∀ c ∈ rest.head?, isSlash c = false)
    (hbreak : ∀ c ∈ link, c ∉ ['\t', '\n', '\r']) :
    ∃ u, resolve parseHost page link = .url u ∧ u.origin = page.origin := by
  obtain ⟨t, b, hclean, hb⟩ := clean_rooted hlink hbreak
  have hscheme : splitScheme ('/' :: t) = none := by
    rw [splitScheme, if_neg (by decide)]
  unfold resolve
  rw [hclean, hscheme]
  exact relative_rooted parseHost page (head_of_append hb hrest)

end Lib.WebUrl
