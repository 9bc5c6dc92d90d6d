import BunkerWeb.Text
import Mathlib.Data.List.Infix
import Mathlib.Data.List.TakeWhile

/-!
# Rates (`api/app/rate_limit.py`)

`_parse_rate` reads a rate in three spellings: `40r/m`, a number of seconds, or words such as
`200 per 30 minutes`. `_limit_string` writes a rate back.

`str.lower` is `Char.toLower` here: no other letter has a lower case that a rate may have in it.
-/

namespace BunkerWeb.Api.RateLimit

abbrev Text := List Char

/-! ## Numbers -/

/-- The decimal digits of Unicode, as `\d` and `int` know them. -/
structure Digits where
  value : Char → Option Nat
  ascii : ∀ c : Char, c.toNat < 128 → value c = if c.isDigit then some (c.toNat - 48) else none

namespace Digits

/-- The digits `0` to `9` only. -/
def plain : Digits where
  value c := if c.isDigit then some (c.toNat - 48) else none
  ascii _ _ := rfl

variable (d : Digits)

def isDigit (c : Char) : Bool := (d.value c).isSome

/-- The number that the digits write. -/
def number (digits : Text) : Nat := digits.foldl (fun n c => 10 * n + (d.value c).getD 0) 0

/-- Digits, with single underscores between them. -/
def natural (body : Text) : Option Nat :=
  if (body.all fun c => d.isDigit c || c = '_') ∧ body.head?.any d.isDigit ∧
      body.getLast?.any d.isDigit ∧ ¬ ['_', '_'] <:+: body then
    some (d.number (body.filter (· ≠ '_')))
  else none

/-- `int(text)`. -/
def int (text : Text) : Option Int :=
  match stripChars text with
  | '-' :: body => (d.natural body).map fun n : Nat => -(n : Int)
  | '+' :: body => (d.natural body).map Int.ofNat
  | body => (d.natural body).map Int.ofNat

end Digits

/-- `str(number)`. -/
def intText : Int → Text
  | .ofNat n => Nat.toDigits 10 n
  | .negSucc n => '-' :: Nat.toDigits 10 (n + 1)

/-! ## Reading a rate -/

def lower (text : Text) : Text := text.map Char.toLower

/-- `text.replace(old, new)`, for an `old` that is not empty; the number counts the characters of an
`old` that was found. -/
def replaceFrom (old new : Text) : Nat → Text → Text
  | _, [] => []
  | skip + 1, _ :: text => replaceFrom old new skip text
  | 0, c :: text =>
    if old.isPrefixOf (c :: text) then new ++ replaceFrom old new (old.length - 1) text
    else c :: replaceFrom old new 0 text

def replaceAll (old new text : Text) : Text := replaceFrom old new 0 text

/-- The spaces of the module `regex`. -/
def isRegexSpace (c : Char) : Bool := isSpace c && !(0x1C ≤ c.toNat && c.toNat ≤ 0x1F)

def nginxUnits : List (Char × Int) := [('s', 1), ('m', 60), ('h', 3600), ('d', 86400)]

def units : List (Text × Int) :=
  [("s".toList, 1), ("sec".toList, 1), ("secs".toList, 1), ("second".toList, 1),
    ("seconds".toList, 1), ("m".toList, 60), ("min".toList, 60), ("mins".toList, 60),
    ("minute".toList, 60), ("minutes".toList, 60), ("h".toList, 3600), ("hr".toList, 3600),
    ("hrs".toList, 3600), ("hour".toList, 3600), ("hours".toList, 3600), ("d".toList, 86400),
    ("day".toList, 86400), ("days".toList, 86400), ("mo".toList, 2592000), ("mon".toList, 2592000),
    ("month".toList, 2592000), ("months".toList, 2592000), ("y".toList, 31536000),
    ("yr".toList, 31536000), ("yrs".toList, 31536000), ("year".toList, 31536000),
    ("years".toList, 31536000)]

variable (d : Digits)

/-- `(\d+)r?/([smhd])`. -/
def nginxRate (compact : Text) : Option (Int × Int) :=
  let digits := compact.takeWhile d.isDigit
  let rest := compact.dropWhile d.isDigit
  if digits = [] then none
  else
    match if rest.head? = some 'r' then rest.tail else rest with
    | ['/', unit] => (nginxUnits.lookup unit).map fun seconds => ((d.number digits : Int), seconds)
    | _ => none

/-- `(?:(\d+)\s*)?([a-z]+)`, with the unit in the table. -/
def unitSeconds (right : Text) : Option Int :=
  let digits := right.takeWhile d.isDigit
  let unit := if digits = [] then right else (right.dropWhile d.isDigit).dropWhile isRegexSpace
  if unit ≠ [] ∧ unit.all Char.isLower then
    (units.lookup unit).map fun seconds => (if digits = [] then 1 else (d.number digits : Int)) * seconds
  else none

/-- A count, a slash, and seconds or a unit. -/
def verboseRate (text : Text) : Option (Int × Int) :=
  if '/' ∈ text then
    let right := stripChars (text.dropWhile (· ≠ '/')).tail
    (d.int (text.takeWhile (· ≠ '/'))).bind fun times =>
      ((d.int right).or (unitSeconds d right)).map fun seconds => (times, seconds)
  else none

/-- `_parse_rate`; an error is `none`. -/
def parseRate (rate : Text) : Option (Int × Int) :=
  (nginxRate d ((lower rate).filter (!isSpace ·))).or
    (verboseRate d (replaceAll "per ".toList ['/'] (lower (stripChars rate))))

/-! ## Writing a rate -/

def unitMap : List (Int × Text) :=
  [(1, "second".toList), (60, "minute".toList), (3600, "hour".toList), (86400, "day".toList),
    (2592000, "month".toList), (31536000, "year".toList)]

def bases : List (Int × Text) :=
  [(31536000, "year".toList), (2592000, "month".toList), (86400, "day".toList),
    (3600, "hour".toList), (60, "minute".toList)]

/-- `_limit_string`. -/
def limitString (times seconds : Int) : Text :=
  match unitMap.lookup seconds with
  | some unit => intText times ++ '/' :: unit
  | none =>
    match bases.find? fun base => seconds % base.1 = 0 with
    | some base =>
      let n := seconds / base.1
      intText times ++ '/' :: (intText n ++ (base.2 ++ if n ≠ 1 then ['s'] else []))
    | none => intText times ++ " per ".toList ++ intText seconds ++ " seconds".toList

/-! ## Numbers are read back -/

variable {d}

theorem toNat_of_isDigit {c : Char} (h : c.isDigit = true) : 48 ≤ c.toNat ∧ c.toNat ≤ 57 := by
  simpa [Char.isDigit, UInt32.le_iff_toNat_le] using h

theorem isDigit_of_isDigit {c : Char} (h : c.isDigit = true) : d.isDigit c = true := by
  rw [Digits.isDigit, d.ascii c (by have := toNat_of_isDigit h; omega), if_pos h, Option.isSome_some]

theorem toNat_of_isLower {c : Char} (h : c.isLower = true) : 97 ≤ c.toNat ∧ c.toNat ≤ 122 :=
  (Bool.and_eq_true_iff.mp h).imp of_decide_eq_true of_decide_eq_true

theorem isUpper_iff {c : Char} : c.isUpper = true ↔ 65 ≤ c.toNat ∧ c.toNat ≤ 90 :=
  decide_eq_true_iff

theorem not_isDigit_of_isLower {c : Char} (h : c.isLower = true) : c.isDigit = false := by
  have := toNat_of_isLower h
  rw [Bool.eq_false_iff]
  intro hdigit
  have := toNat_of_isDigit hdigit
  omega

theorem not_isDigit {c : Char} (hascii : c.toNat < 128) (h : c.isDigit = false) :
    d.isDigit c = false := by
  rw [Digits.isDigit, d.ascii c hascii, if_neg (by simp [h]), Option.isSome_none]

theorem number_eq {digits : Text} (h : ∀ c ∈ digits, c.isDigit = true) :
    d.number digits = Nat.ofDigitChars 10 digits 0 := by
  suffices hfold : ∀ n, digits.foldl (fun n c => 10 * n + (d.value c).getD 0) n =
      Nat.ofDigitChars 10 digits n from hfold 0
  induction digits with
  | nil => exact fun _ => rfl
  | cons c digits ih =>
    intro n
    have hvalue : (d.value c).getD 0 = c.toNat - '0'.toNat := by
      have hc := h c List.mem_cons_self
      rw [d.ascii c (by have := toNat_of_isDigit hc; omega), if_pos hc]
      rfl
    rw [List.foldl_cons, Nat.ofDigitChars_cons, hvalue]
    exact ih (fun c hc => h c (List.mem_cons_of_mem _ hc)) _

theorem isDigit_of_mem_toDigits {n : Nat} : ∀ c ∈ Nat.toDigits 10 n, c.isDigit = true :=
  fun _ hc => Nat.isDigit_of_mem_toDigits (by decide) (by decide) hc

theorem number_toDigits (n : Nat) : d.number (Nat.toDigits 10 n) = n := by
  rw [number_eq isDigit_of_mem_toDigits, Nat.ofDigitChars_ten_toDigits]

theorem natural_toDigits (n : Nat) : d.natural (Nat.toDigits 10 n) = some n := by
  have hdigits : ∀ c ∈ Nat.toDigits 10 n, d.isDigit c = true :=
    fun c hc => isDigit_of_isDigit (isDigit_of_mem_toDigits c hc)
  have hno : '_' ∉ Nat.toDigits 10 n := Nat.underscore_not_in_toDigits
  have hfilter : (Nat.toDigits 10 n).filter (· ≠ '_') = Nat.toDigits 10 n :=
    List.filter_eq_self.mpr fun c hc => by
      rw [decide_eq_true_eq]
      rintro rfl
      exact hno hc
  rw [Digits.natural, if_pos, hfilter, number_toDigits]
  refine ⟨List.all_eq_true.mpr fun c hc => by rw [hdigits c hc, Bool.true_or], ?_, ?_, fun h =>
    hno (h.subset List.mem_cons_self)⟩
  · rw [List.head?_eq_some_head Nat.toDigits_ne_nil, Option.any_some]
    exact hdigits _ (List.head_mem _)
  · rw [List.getLast?_eq_some_getLast Nat.toDigits_ne_nil, Option.any_some]
    exact hdigits _ (List.getLast_mem _)

theorem not_isSpace_intText (n : Int) : ∀ c ∈ intText n, isSpace c = false := by
  have hdigits : ∀ n, ∀ c ∈ Nat.toDigits 10 n, isSpace c = false := by
    intro n c hc
    have hrange := toNat_of_isDigit (isDigit_of_mem_toDigits c hc)
    exact isSpace_eq_false (by omega) (by omega)
  intro c hc
  cases n with
  | ofNat n => exact hdigits n c hc
  | negSucc n =>
    rcases List.mem_cons.mp hc with rfl | hc
    · decide
    · exact hdigits _ c hc

theorem int_intText (n : Int) : d.int (intText n) = some n := by
  rw [Digits.int, stripChars_eq (not_isSpace_intText n)]
  cases n with
  | ofNat n =>
    show (match Nat.toDigits 10 n with
      | '-' :: body => _
      | '+' :: body => _
      | body => _) = _
    split
    next body h => exact absurd (isDigit_of_mem_toDigits (n := n) '-' (h ▸ by simp)) (by decide)
    next body h => exact absurd (isDigit_of_mem_toDigits (n := n) '+' (h ▸ by simp)) (by decide)
    next => rw [natural_toDigits, Option.map_some]
  | negSucc n =>
    show (d.natural (Nat.toDigits 10 (n + 1))).map _ = _
    rw [natural_toDigits, Option.map_some]
    rfl

/-- A letter is in no number. -/
theorem natural_eq_none {body : Text} {c : Char} (hc : c ∈ body) (hlower : c.isLower = true) :
    d.natural body = none := by
  have hrange := toNat_of_isLower hlower
  rw [Digits.natural, if_neg]
  rintro ⟨hall, -⟩
  have hall := List.all_eq_true.mp hall c hc
  rw [not_isDigit (by omega) (not_isDigit_of_isLower hlower), Bool.false_or, decide_eq_true_eq] at hall
  subst hall
  exact absurd hlower (by decide)

theorem int_eq_none {text : Text} (hstrip : stripChars text = text) {c : Char} (hc : c ∈ text)
    (hlower : c.isLower = true) : d.int text = none := by
  rw [Digits.int, hstrip]
  split
  next body =>
    rcases List.mem_cons.mp hc with rfl | hc
    · exact absurd hlower (by decide)
    · rw [natural_eq_none hc hlower, Option.map_none]
  next body =>
    rcases List.mem_cons.mp hc with rfl | hc
    · exact absurd hlower (by decide)
    · rw [natural_eq_none hc hlower, Option.map_none]
  next => rw [natural_eq_none hc hlower, Option.map_none]

/-! ## Rates are read back -/

/-- The spelling with a letter as the unit has a slash before its last character. -/
theorem nginxRate_eq_none {front : Text} {a b : Char} (ha : a ≠ '/') :
    nginxRate d (front ++ [a, b]) = none := by
  generalize htext : front ++ [a, b] = text
  simp only [nginxRate]
  split
  · rfl
  · split
    next unit hrest =>
      refine absurd ?_ ha
      obtain ⟨mark, hmark⟩ : ∃ mark, text.dropWhile d.isDigit = mark ++ ['/', unit] := by
        split at hrest
        next hhead =>
          cases hdrop : text.dropWhile d.isDigit with
          | nil => rw [hdrop] at hrest; cases hrest
          | cons c tail => exact ⟨[c], by rw [hdrop] at hrest; exact congrArg (c :: ·) hrest⟩
        next => exact ⟨[], hrest⟩
      have hsplit := List.takeWhile_append_dropWhile (p := d.isDigit) (l := text)
      rw [hmark, ← List.append_assoc, ← htext] at hsplit
      exact (List.cons.inj (List.append_inj' hsplit rfl).2).1.symm
    next => rfl

theorem lower_eq {text : Text} (h : ∀ c ∈ text, c.isUpper = false) : lower text = text := by
  refine (List.map_congr_left fun c hc => ?_).trans (List.map_id text)
  have h' := h c hc
  rcases toLower_cases c with hlower | ⟨h65, h90, -⟩
  · exact hlower
  · rw [isUpper_iff.mpr ⟨h65, h90⟩] at h'
    cases h'

theorem replaceFrom_append {old new front : Text} {c : Char} (hold : old.head? = some c)
    (hfront : c ∉ front) (text : Text) :
    replaceFrom old new 0 (front ++ text) = front ++ replaceFrom old new 0 text := by
  induction front with
  | nil => rfl
  | cons a front ih =>
    rw [List.mem_cons, not_or] at hfront
    have hno : old.isPrefixOf (a :: (front ++ text)) = false := by
      obtain ⟨tail, rfl⟩ : ∃ tail, old = c :: tail := List.head?_eq_some_iff.mp hold
      rw [List.isPrefixOf_cons_cons, beq_eq_false_iff_ne.mpr hfront.1, Bool.false_and]
    rw [List.cons_append, replaceFrom, hno, if_neg (by decide), ih hfront.2, List.cons_append]

theorem not_isSpace_of_isLower {c : Char} (h : c.isLower = true) : isSpace c = false := by
  have := toNat_of_isLower h
  exact isSpace_eq_false (by omega) (by omega)

/-- A number and a unit, with spaces between them. -/
theorem unitSeconds_eq {digits blanks unit : Text} (hdigits : ∀ c ∈ digits, c.isDigit = true)
    (hblanks : ∀ c ∈ blanks, c = ' ') (hempty : digits = [] → blanks = [])
    (hunit : ∀ c ∈ unit, c.isLower = true) (hne : unit ≠ []) :
    unitSeconds d (digits ++ (blanks ++ unit)) = (units.lookup unit).map fun seconds =>
      (if digits = [] then 1 else (d.number digits : Int)) * seconds := by
  have hnot : ∀ c ∈ blanks ++ unit, ¬ d.isDigit c = true := by
    intro c hc
    rw [Bool.not_eq_true]
    rcases List.mem_append.mp hc with hc | hc
    · exact hblanks c hc ▸ not_isDigit (by decide) (by decide)
    · have := toNat_of_isLower (hunit c hc)
      exact not_isDigit (by omega) (not_isDigit_of_isLower (hunit c hc))
  have hown : ∀ c ∈ digits, d.isDigit c = true := fun c hc => isDigit_of_isDigit (hdigits c hc)
  have htake : (digits ++ (blanks ++ unit)).takeWhile d.isDigit = digits := by
    rw [List.takeWhile_append_of_pos hown, List.takeWhile_eq_nil_iff.mpr, List.append_nil]
    exact fun hl => hnot _ (List.get_mem _ _)
  have hdrop : (digits ++ (blanks ++ unit)).dropWhile d.isDigit = blanks ++ unit := by
    rw [List.dropWhile_append_of_pos hown, List.dropWhile_eq_self_iff]
    exact fun hl => hnot _ (List.getElem_mem hl)
  have hspaces : (blanks ++ unit).dropWhile isRegexSpace = unit := by
    rw [List.dropWhile_append_of_pos fun c hc => hblanks c hc ▸ (by decide),
      List.dropWhile_eq_self_iff]
    intro hl
    rw [isRegexSpace, not_isSpace_of_isLower (hunit _ (List.getElem_mem hl)), Bool.false_and]
    exact Bool.false_ne_true
  have hright : (if digits = [] then digits ++ (blanks ++ unit) else unit) = unit := by
    split
    next h => rw [h, hempty h, List.nil_append, List.nil_append]
    next => rfl
  simp only [unitSeconds, htake, hdrop, hspaces, hright]
  exact if_pos ⟨hne, List.all_eq_true.mpr hunit⟩

/-- The characters of a written number. -/
theorem mem_intText {n : Int} {c : Char} (h : c ∈ intText n) : c = '-' ∨ c.isDigit = true := by
  cases n with
  | ofNat n => exact .inr (isDigit_of_mem_toDigits c h)
  | negSucc n =>
    rcases List.mem_cons.mp h with rfl | h
    · exact .inl rfl
    · exact .inr (isDigit_of_mem_toDigits c h)

theorem notMem_intText (n : Int) {c : Char} (hc : c ≠ '-') (hdigit : c.isDigit = false) :
    c ∉ intText n := by
  intro h
  rcases mem_intText h with rfl | h
  · exact hc rfl
  · rw [h] at hdigit
    cases hdigit

/-- A count, a slash, and the right side. -/
theorem verboseRate_eq {left right : Text} {times : Int} (hleft : '/' ∉ left)
    (htimes : d.int left = some times) (hstrip : stripChars right = right) {c : Char}
    (hc : c ∈ right) (hlower : c.isLower = true) :
    verboseRate d (left ++ '/' :: right) =
      (unitSeconds d right).map fun seconds => (times, seconds) := by
  have hpos : ∀ c ∈ left, decide (c ≠ '/') = true := by
    intro c hc
    rw [decide_eq_true_eq]
    rintro rfl
    exact hleft hc
  have htake : (left ++ '/' :: right).takeWhile (· ≠ '/') = left := by
    rw [List.takeWhile_append_of_pos hpos, List.takeWhile_cons_of_neg (by decide), List.append_nil]
  have hdrop : (left ++ '/' :: right).dropWhile (· ≠ '/') = '/' :: right := by
    rw [List.dropWhile_append_of_pos hpos, List.dropWhile_cons_of_neg (by decide)]
  simp only [verboseRate, htake, hdrop, List.tail_cons, hstrip, htimes, int_eq_none hstrip hc hlower,
    Option.none_or, Option.bind_some]
  exact if_pos (by simp)

theorem parseRate_of_front {rate front : Text} {a b : Char}
    (hcompact : (lower rate).filter (!isSpace ·) = front ++ [a, b]) (ha : a ≠ '/') :
    parseRate d rate =
      verboseRate d (replaceAll "per ".toList ['/'] (lower (stripChars rate))) := by
  rw [parseRate, hcompact, nginxRate_eq_none ha, Option.none_or]

theorem filter_not_isSpace {text : Text} (h : ∀ c ∈ text, isSpace c = false) :
    text.filter (!isSpace ·) = text :=
  List.filter_eq_self.mpr fun c hc => by rw [h c hc, Bool.not_false]

theorem replaceAll_eq_self {text : Text} (h : 'p' ∉ text) :
    replaceAll "per ".toList ['/'] text = text := by
  have happend : replaceFrom "per ".toList ['/'] 0 (text ++ []) =
      text ++ replaceFrom "per ".toList ['/'] 0 [] := replaceFrom_append (by decide) h []
  rw [List.append_nil, replaceFrom, List.append_nil] at happend
  exact happend

theorem not_isUpper_of_isLower {c : Char} (h : c.isLower = true) : c.isUpper = false := by
  have := toNat_of_isLower h
  rw [Bool.eq_false_iff]
  intro hupper
  have hrange := isUpper_iff.mp hupper
  omega

theorem not_isUpper_of_all {text : Text} (h : text.all (!·.isUpper) = true) :
    ∀ c ∈ text, c.isUpper = false := by
  intro c hc
  simpa using List.all_eq_true.mp h c hc

theorem not_isUpper_intText (n : Int) : ∀ c ∈ intText n, c.isUpper = false := by
  intro c hc
  rcases mem_intText hc with rfl | hdigit
  · decide
  · have := toNat_of_isDigit hdigit
    rw [Bool.eq_false_iff]
    intro hupper
    have hrange := isUpper_iff.mp hupper
    omega

theorem exists_last_two {text : Text} (h : 2 ≤ text.length) :
    ∃ front a b, text = front ++ [a, b] := by
  obtain ⟨front, b, rfl⟩ := List.eq_nil_or_concat text |>.resolve_left (by rintro rfl; simp at h)
  obtain ⟨front, a, rfl⟩ :=
    List.eq_nil_or_concat front |>.resolve_left (by rintro rfl; simp at h)
  exact ⟨front, a, b, by simp⟩

/-- A rate with a slash: a number of units, or one. -/
theorem parseRate_slash (times : Int) {digits unit : Text}
    (hdigits : digits = [] ∨ ∃ n : Nat, digits = Nat.toDigits 10 n)
    (hunit : ∀ c ∈ unit, c.isLower = true) (hp : 'p' ∉ unit) (hlength : 2 ≤ unit.length) :
    parseRate d (intText times ++ '/' :: (digits ++ unit)) =
      (units.lookup unit).map fun seconds =>
        (times, (if digits = [] then 1 else (d.number digits : Int)) * seconds) := by
  obtain ⟨front, a, b, rfl⟩ := exists_last_two hlength
  have hnumber : ∀ c ∈ digits, c.isDigit = true := by
    rcases hdigits with rfl | ⟨n, rfl⟩
    · exact fun c hc => absurd hc List.not_mem_nil
    · exact isDigit_of_mem_toDigits
  have hdigit : ∀ c ∈ digits, isSpace c = false ∧ c.isUpper = false ∧ c ≠ 'p' := by
    rcases hdigits with rfl | ⟨n, rfl⟩
    · exact fun c hc => absurd hc List.not_mem_nil
    · intro c hc
      refine ⟨not_isSpace_intText n c hc, not_isUpper_intText n c hc, ?_⟩
      rintro rfl
      exact notMem_intText n (by decide) (by decide) hc
  have hchar : ∀ c ∈ intText times ++ '/' :: (digits ++ (front ++ [a, b])),
      isSpace c = false ∧ c.isUpper = false ∧ c ≠ 'p' := by
    intro c hc
    rcases List.mem_append.mp hc with hc | hc
    · refine ⟨not_isSpace_intText times c hc, not_isUpper_intText times c hc, ?_⟩
      rintro rfl
      exact notMem_intText times (by decide) (by decide) hc
    · rcases List.mem_cons.mp hc with rfl | hc
      · decide
      · rcases List.mem_append.mp hc with hc | hc
        · exact hdigit c hc
        · refine ⟨not_isSpace_of_isLower (hunit c hc), not_isUpper_of_isLower (hunit c hc), ?_⟩
          rintro rfl
          exact hp hc
  have hlower := lower_eq fun c hc => (hchar c hc).2.1
  have hstrip := stripChars_eq fun c hc => (hchar c hc).1
  have ha : a.isLower = true := hunit a (by simp)
  have hcompact : (lower (intText times ++ '/' :: (digits ++ (front ++ [a, b])))).filter
      (!isSpace ·) = (intText times ++ '/' :: (digits ++ front)) ++ [a, b] := by
    rw [hlower, filter_not_isSpace fun c hc => (hchar c hc).1]
    simp
  have hright : stripChars (digits ++ (front ++ [a, b])) = digits ++ (front ++ [a, b]) :=
    stripChars_eq fun c hc =>
      (hchar c (List.mem_append_right _ (List.mem_cons_of_mem _ hc))).1
  have hslash : '/' ∉ intText times := notMem_intText times (by decide) (by decide)
  have hletter : a ∈ digits ++ (front ++ [a, b]) := by simp
  have hseconds : unitSeconds d (digits ++ (front ++ [a, b])) =
      (units.lookup (front ++ [a, b])).map fun seconds =>
        (if digits = [] then 1 else (d.number digits : Int)) * seconds :=
    @unitSeconds_eq d digits [] (front ++ [a, b]) hnumber (by simp) (fun _ => rfl) hunit (by simp)
  rw [parseRate_of_front hcompact (by rintro rfl; exact absurd ha (by decide)), hstrip, hlower,
    replaceAll_eq_self fun h => (hchar _ h).2.2 rfl,
    verboseRate_eq hslash (int_intText times) hright hletter ha, hseconds, Option.map_map]
  rfl

theorem intText_ne_nil (n : Int) : intText n ≠ [] := by
  cases n with
  | ofNat n => exact Nat.toDigits_ne_nil
  | negSucc n => exact List.cons_ne_nil _ _

/-- A text that begins with a number and ends with a letter or a number has no space outside. -/
theorem stripChars_intText_append (n : Int) {text : Text}
    (hlast : ∀ c ∈ (intText n ++ text).getLast?, isSpace c = false) :
    stripChars (intText n ++ text) = intText n ++ text := by
  refine stripChars_eq_self (fun c hc => ?_) hlast
  rw [List.head?_append, List.head?_eq_some_head (intText_ne_nil n), Option.some_or] at hc
  cases hc
  exact not_isSpace_intText n _ (List.head_mem _)

theorem int_intText_space (n : Int) : d.int (intText n ++ [' ']) = some n := by
  have hint := int_intText (d := d) n
  rw [Digits.int] at hint ⊢
  rw [stripChars_concat (by decide), hint]

/-- A rate in words, with the seconds as a number. -/
theorem parseRate_words (times : Int) (n : Nat) :
    parseRate d (intText times ++ " per ".toList ++ intText n ++ " seconds".toList) =
      some (times, (n : Int)) := by
  have hupper : ∀ c ∈ intText times ++ " per ".toList ++ intText n ++ " seconds".toList,
      c.isUpper = false := by
    intro c hc
    simp only [List.mem_append] at hc
    rcases hc with ((hc | hc) | hc) | hc
    · exact not_isUpper_intText times c hc
    · exact not_isUpper_of_all (by decide) c hc
    · exact not_isUpper_intText n c hc
    · exact not_isUpper_of_all (by decide) c hc
  have hcompact : (lower (intText times ++ " per ".toList ++ intText n ++ " seconds".toList)).filter
      (!isSpace ·) = (intText times ++ "per".toList ++ intText n ++ "secon".toList) ++ ['d', 's'] := by
    rw [lower_eq hupper, List.filter_append, List.filter_append, List.filter_append,
      filter_not_isSpace (not_isSpace_intText times), filter_not_isSpace (not_isSpace_intText n)]
    simp only [List.append_assoc]
    rfl
  have hstrip : stripChars (intText times ++ " per ".toList ++ intText n ++ " seconds".toList) =
      intText times ++ " per ".toList ++ intText n ++ " seconds".toList := by
    rw [List.append_assoc, List.append_assoc]
    refine stripChars_intText_append times fun c hc => ?_
    rw [List.getLast?_append, List.getLast?_append, List.getLast?_append] at hc
    cases hc
    decide
  have hreplace : replaceAll "per ".toList ['/']
      (intText times ++ " per ".toList ++ intText n ++ " seconds".toList) =
        (intText times ++ [' ']) ++ '/' :: (intText n ++ " seconds".toList) := by
    have hfront : 'p' ∉ intText times ++ [' '] := by
      rw [List.mem_append, not_or]
      exact ⟨notMem_intText times (by decide) (by decide), by decide⟩
    have hback : 'p' ∉ intText n ++ " seconds".toList := by
      rw [List.mem_append, not_or]
      exact ⟨notMem_intText n (by decide) (by decide), by decide⟩
    have hsplit : intText times ++ " per ".toList ++ intText n ++ " seconds".toList =
        (intText times ++ [' ']) ++ ("per ".toList ++ (intText n ++ " seconds".toList)) := by
      simp only [List.append_assoc]
      rfl
    rw [hsplit, replaceAll, replaceFrom_append (by decide) hfront]
    congr 1
    exact congrArg ('/' :: ·) (replaceAll_eq_self hback)
  have hslash : '/' ∉ intText times ++ [' '] := by
    rw [List.mem_append, not_or]
    exact ⟨notMem_intText times (by decide) (by decide), by decide⟩
  have hright : stripChars (intText n ++ " seconds".toList) = intText n ++ " seconds".toList := by
    refine stripChars_intText_append n fun c hc => ?_
    rw [List.getLast?_append] at hc
    cases hc
    decide
  have hseconds : unitSeconds d (intText n ++ " seconds".toList) =
      (units.lookup "seconds".toList).map fun seconds =>
        (if intText n = [] then 1 else (d.number (intText n) : Int)) * seconds :=
    @unitSeconds_eq d (intText n) [' '] "seconds".toList isDigit_of_mem_toDigits (by simp)
      (fun h => absurd h (intText_ne_nil n)) (List.all_eq_true.mp (by decide)) (by decide)
  rw [parseRate_of_front hcompact (by decide), hstrip, lower_eq hupper, hreplace,
    verboseRate_eq hslash (int_intText_space times) hright
      (List.mem_append_right _ (by decide : 's' ∈ " seconds".toList)) (by decide), hseconds,
    if_neg (intText_ne_nil n)]
  show some (times, (d.number (Nat.toDigits 10 n) : Int) * 1) = _
  rw [number_toDigits, Int.mul_one]

/-- `_parse_rate` reads what `_limit_string` writes, unless the seconds are negative. -/
theorem parseRate_limitString (times : Int) {seconds : Int} (h : 0 ≤ seconds) :
    parseRate d (limitString times seconds) = some (times, seconds) := by
  unfold limitString
  split
  next unit hunit =>
    obtain ⟨front, rest, hmap, -⟩ := List.lookup_eq_some_iff.mp hunit
    have hmem : (seconds, unit) ∈ unitMap := hmap ▸ by simp
    have hunits : ∀ e ∈ unitMap, units.lookup e.2 = some e.1 ∧ e.2.all Char.isLower = true ∧
        'p' ∉ e.2 ∧ 2 ≤ e.2.length := by decide +kernel
    obtain ⟨hlookup, hlower, hp, hlength⟩ := hunits _ hmem
    have hparse := parseRate_slash (d := d) times (.inl rfl) (List.all_eq_true.mp hlower) hp hlength
    rw [List.nil_append, hlookup, if_pos rfl, Option.map_some, Int.one_mul] at hparse
    exact hparse
  next hnone =>
    split
    next base hbase =>
      have hmem := List.mem_of_find?_eq_some hbase
      have hmod : seconds % base.1 = 0 := by simpa using List.find?_some hbase
      have hbases : ∀ e ∈ bases, 0 < e.1 ∧ (unitMap.lookup e.1).isSome ∧
          units.lookup (e.2 ++ ['s']) = some e.1 ∧ (e.2 ++ ['s']).all Char.isLower = true ∧
          'p' ∉ e.2 ++ ['s'] ∧ 2 ≤ (e.2 ++ ['s']).length := by decide +kernel
      obtain ⟨hpos, hmap, hlookup, hlower, hp, hlength⟩ := hbases base hmem
      have hmul : seconds / base.1 * base.1 = seconds := Int.ediv_mul_cancel_of_emod_eq_zero hmod
      -- one unit would have been in the first table
      have hne : seconds / base.1 ≠ 1 := by
        intro hone
        rw [hone, Int.one_mul] at hmul
        rw [hmul, hnone] at hmap
        cases hmap
      obtain ⟨n, hn⟩ := Int.eq_ofNat_of_zero_le (Int.ediv_nonneg h (Int.le_of_lt hpos))
      have hparse := parseRate_slash (d := d) times (.inr ⟨n, rfl⟩) (List.all_eq_true.mp hlower) hp
        hlength
      rw [hlookup, if_neg Nat.toDigits_ne_nil, Option.map_some, number_toDigits, ← hn, hmul] at hparse
      show parseRate d (intText times ++ '/' :: (intText (seconds / base.1) ++
        (base.2 ++ if seconds / base.1 ≠ 1 then ['s'] else []))) = _
      rw [if_pos hne, hn]
      exact hparse
    next =>
      obtain ⟨n, rfl⟩ := Int.eq_ofNat_of_zero_le h
      exact parseRate_words times n

/-! ## Signs -/

theorem int_nonneg {text : Text} (h : '-' ∉ text) {n : Int} (hn : d.int text = some n) : 0 ≤ n := by
  rw [Digits.int] at hn
  split at hn
  next body hbody => exact absurd (mem_of_mem_stripChars (hbody ▸ List.mem_cons_self)) h
  next =>
    obtain ⟨k, -, rfl⟩ := Option.map_eq_some_iff.mp hn
    exact Int.natCast_nonneg k
  next =>
    obtain ⟨k, -, rfl⟩ := Option.map_eq_some_iff.mp hn
    exact Int.natCast_nonneg k

theorem lookup_nonneg {α : Type} [BEq α] [LawfulBEq α] {table : List (α × Int)}
    (htable : ∀ e ∈ table, 0 ≤ e.2) {key : α} {n : Int} (h : table.lookup key = some n) : 0 ≤ n := by
  obtain ⟨front, rest, rfl, -⟩ := List.lookup_eq_some_iff.mp h
  exact htable (key, n) (by simp)

theorem mem_replaceFrom {old new : Text} {skip : Nat} {text : Text} {c : Char}
    (h : c ∈ replaceFrom old new skip text) : c ∈ new ∨ c ∈ text := by
  induction text generalizing skip with
  | nil => cases skip <;> exact absurd h List.not_mem_nil
  | cons a text ih =>
    cases skip with
    | succ skip => exact (ih h).imp_right (List.mem_cons_of_mem a)
    | zero =>
      rw [replaceFrom] at h
      split at h
      · rcases List.mem_append.mp h with h | h
        · exact .inl h
        · exact (ih h).imp_right (List.mem_cons_of_mem a)
      · rcases List.mem_cons.mp h with rfl | h
        · exact .inr List.mem_cons_self
        · exact (ih h).imp_right (List.mem_cons_of_mem a)

theorem minus_notMem_lower {text : Text} (h : '-' ∉ text) : '-' ∉ lower text := by
  intro hmem
  obtain ⟨c, hc, hlower⟩ := List.mem_map.mp hmem
  rw [toLower_eq_iff (by decide)] at hlower
  exact h (hlower ▸ hc)

theorem nginxRate_nonneg {compact : Text} {times seconds : Int}
    (h : nginxRate d compact = some (times, seconds)) : 0 ≤ times ∧ 0 ≤ seconds := by
  simp only [nginxRate] at h
  split at h
  · cases h
  · split at h
    next unit _ =>
      obtain ⟨n, hlookup, heq⟩ := Option.map_eq_some_iff.mp h
      cases heq
      exact ⟨Int.natCast_nonneg _, lookup_nonneg (by decide) hlookup⟩
    next => cases h

theorem unitSeconds_nonneg {right : Text} {seconds : Int} (h : unitSeconds d right = some seconds) :
    0 ≤ seconds := by
  unfold unitSeconds at h
  obtain ⟨-, h⟩ := Option.ite_none_right_eq_some.mp h
  obtain ⟨n, hlookup, rfl⟩ := Option.map_eq_some_iff.mp h
  have hn : 0 ≤ n := lookup_nonneg (by decide +kernel) hlookup
  refine Int.mul_nonneg ?_ hn
  split
  · decide
  · exact Int.natCast_nonneg _

theorem verboseRate_nonneg {text : Text} (h : '-' ∉ text) {times seconds : Int}
    (hrate : verboseRate d text = some (times, seconds)) : 0 ≤ times ∧ 0 ≤ seconds := by
  have hleft : '-' ∉ text.takeWhile (· ≠ '/') :=
    fun hmem => h ((List.takeWhile_sublist _).subset hmem)
  have hright : '-' ∉ stripChars (text.dropWhile (· ≠ '/')).tail :=
    fun hmem => h ((List.dropWhile_sublist _).subset (List.mem_of_mem_tail (mem_of_mem_stripChars hmem)))
  simp only [verboseRate] at hrate
  split at hrate
  · obtain ⟨n, htimes, hrest⟩ := Option.bind_eq_some_iff.mp hrate
    obtain ⟨k, hseconds, heq⟩ := Option.map_eq_some_iff.mp hrest
    cases heq
    refine ⟨int_nonneg hleft htimes, ?_⟩
    rcases Option.or_eq_some_iff.mp hseconds with hint | ⟨-, hunit⟩
    · exact int_nonneg hright hint
    · exact unitSeconds_nonneg hunit
  · cases hrate

/-- Without a minus sign no number of a rate is negative. -/
theorem parseRate_nonneg {rate : Text} (h : '-' ∉ rate) {times seconds : Int}
    (hparse : parseRate d rate = some (times, seconds)) : 0 ≤ times ∧ 0 ≤ seconds := by
  have hlower : '-' ∉ lower (stripChars rate) :=
    minus_notMem_lower fun hmem => h (mem_of_mem_stripChars hmem)
  rcases Option.or_eq_some_iff.mp hparse with hnginx | ⟨-, hverbose⟩
  · exact nginxRate_nonneg hnginx
  · refine verboseRate_nonneg (fun hmem => ?_) hverbose
    rcases mem_replaceFrom hmem with hmem | hmem
    · exact absurd hmem (by decide)
    · exact hlower hmem

end BunkerWeb.Api.RateLimit
