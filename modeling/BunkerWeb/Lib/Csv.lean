import Mathlib.Data.List.Basic

/-!
# Comma separated values

A reader of fields as a state machine over the characters: quotes are doubled in a quoted field,
spaces at the start of a field are skipped, and a line ends at a line feed.

`fieldsOf_intercalate` says which texts are read back field by field.
-/

namespace Lib.Csv

inductive State
  | startRecord
  | startField
  | inField
  | inQuotedField
  | quoteInQuotedField
  | eatCrnl
  deriving DecidableEq

structure Reader where
  state : State
  field : List Char
  fields : List (List Char)

namespace Reader

def start : Reader := ⟨.startRecord, [], []⟩

/-- The field is complete. -/
def save (r : Reader) (state : State) : Reader := ⟨state, [], r.fields ++ [r.field]⟩

def add (r : Reader) (c : Char) (state : State) : Reader := ⟨state, r.field ++ [c], r.fields⟩

end Reader

def isBreak (c : Char) : Bool := c = '\n' || c = '\r'

/-- The first character of a field. -/
def firstOfField (delimiter : Char) (r : Reader) (c : Char) : Reader :=
  if isBreak c then r.save .eatCrnl
  else if c = '"' then { r with state := .inQuotedField }
  else if c = ' ' then { r with state := .startField }
  else if c = delimiter then r.save .startField
  else r.add c .inField

/-- One character; `none` for a character behind a line break that is not the end of the line. -/
def step (delimiter : Char) (r : Reader) (c : Char) : Option Reader :=
  match r.state with
  | .startRecord =>
    if isBreak c then some { r with state := .eatCrnl } else some (firstOfField delimiter r c)
  | .startField => some (firstOfField delimiter r c)
  | .inField =>
    if isBreak c then some (r.save .eatCrnl)
    else if c = delimiter then some (r.save .startField)
    else some (r.add c .inField)
  | .inQuotedField =>
    if c = '"' then some { r with state := .quoteInQuotedField }
    else some (r.add c .inQuotedField)
  | .quoteInQuotedField =>
    if c = '"' then some (r.add c .inQuotedField)
    else if c = delimiter then some (r.save .startField)
    else if isBreak c then some (r.save .eatCrnl)
    else some (r.add c .inField)
  | .eatCrnl => if isBreak c then some r else none

/-- The end of a line. -/
def endOfLine (r : Reader) : Reader :=
  match r.state with
  | .startRecord => r
  | .inQuotedField => r
  | .eatCrnl => { r with state := .startRecord }
  | _ => r.save .startRecord

def stepLine (delimiter : Char) (r : Reader) (c : Char) : Option Reader :=
  (step delimiter r c).map fun r => if c = '\n' then endOfLine r else r

def run (delimiter : Char) (r : Reader) (text : List Char) : Option Reader :=
  text.foldlM (stepLine delimiter) r

/-- The end of the text, which is the end of its last line. -/
def finish (r : Reader) : List (List Char) :=
  let r := endOfLine r
  if r.field ≠ [] ∨ r.state = .inQuotedField then r.fields ++ [r.field] else r.fields

/-- The fields of all records; `none` for an error. -/
def fieldsOf (delimiter : Char) (text : List Char) : Option (List (List Char)) :=
  (run delimiter .start text).map finish

/-! ## Plain fields -/

variable {delimiter : Char}

/-- The text is read as it stands. -/
structure Plain (delimiter : Char) (text : List Char) : Prop where
  head : ∃ c rest, text = c :: rest ∧ c ≠ '"' ∧ c ≠ ' '
  rest : ∀ c ∈ text, isBreak c = false ∧ c ≠ delimiter

theorem run_append (r : Reader) (text text' : List Char) :
    run delimiter r (text ++ text') = (run delimiter r text).bind fun r => run delimiter r text' :=
  List.foldlM_append

theorem stepLine_eq {r : Reader} {c : Char} (hc : isBreak c = false) :
    stepLine delimiter r c = step delimiter r c := by
  have hne : c ≠ '\n' := by
    rintro rfl
    exact absurd hc (by decide)
  rw [stepLine]
  simp [hne]

theorem run_inField {r : Reader} (hstate : r.state = .inField) {text : List Char}
    (h : ∀ c ∈ text, isBreak c = false ∧ c ≠ delimiter) :
    run delimiter r text = some ⟨.inField, r.field ++ text, r.fields⟩ := by
  induction text generalizing r with
  | nil =>
    cases r
    simp_all [run]
  | cons c text ih =>
    obtain ⟨hbreak, hne⟩ := h c List.mem_cons_self
    have hstep : stepLine delimiter r c = some (r.add c .inField) := by
      rw [stepLine_eq hbreak, step, hstate]
      simp [hbreak, hne]
    rw [run, List.foldlM_cons, hstep]
    have hrest := ih (r := r.add c .inField) rfl fun c hc => h c (List.mem_cons_of_mem _ hc)
    refine hrest.trans ?_
    simp [Reader.add]

/-- A plain field at the start of a field. -/
theorem run_plain {r : Reader} (hstate : r.state = .startRecord ∨ r.state = .startField)
    (hfield : r.field = []) {text : List Char} (h : Plain delimiter text) :
    run delimiter r text = some ⟨.inField, text, r.fields⟩ := by
  obtain ⟨c, rest, rfl, hquote, hspace⟩ := h.head
  obtain ⟨hbreak, hne⟩ := h.rest c List.mem_cons_self
  have hstep : stepLine delimiter r c = some (r.add c .inField) := by
    have hfirst : firstOfField delimiter r c = r.add c .inField := by
      simp [firstOfField, hbreak, hquote, hspace, hne]
    rw [stepLine_eq hbreak, step]
    rcases hstate with hstate | hstate
    · simp [hstate, hbreak, hfirst]
    · simp [hstate, hfirst]
  rw [run, List.foldlM_cons, hstep]
  have hrest := run_inField (r := r.add c .inField) rfl
    fun c hc => h.rest c (List.mem_cons_of_mem _ hc)
  refine hrest.trans ?_
  simp [Reader.add, hfield]

/-- The delimiter and spaces behind it. -/
theorem run_delimiter (hdelimiter : isBreak delimiter = false) (field : List Char)
    (fields : List (List Char)) (k : Nat) :
    run delimiter ⟨.inField, field, fields⟩ (delimiter :: List.replicate k ' ') =
      some ⟨.startField, [], fields ++ [field]⟩ := by
  have hstep : stepLine delimiter ⟨.inField, field, fields⟩ delimiter =
      some ⟨.startField, [], fields ++ [field]⟩ := by
    rw [stepLine_eq hdelimiter, step]
    simp [hdelimiter, Reader.save]
  rw [run, List.foldlM_cons, hstep]
  show run delimiter ⟨.startField, [], fields ++ [field]⟩ (List.replicate k ' ') = _
  induction k with
  | zero => rfl
  | succ k ih =>
    rw [List.replicate_succ, run, List.foldlM_cons]
    exact ih

theorem run_intercalate (hdelimiter : isBreak delimiter = false) (k : Nat) {r : Reader}
    (hstate : r.state = .startRecord ∨ r.state = .startField) (hfield : r.field = [])
    {text : List Char} {texts : List (List Char)} (h : ∀ t ∈ text :: texts, Plain delimiter t) :
    ∃ last, run delimiter r ((delimiter :: List.replicate k ' ').intercalate (text :: texts)) =
      some ⟨.inField, last, r.fields ++ (text :: texts).dropLast⟩ ∧
        (text :: texts).getLast? = some last := by
  induction texts generalizing r text with
  | nil => exact ⟨text, by simpa using run_plain hstate hfield (h text List.mem_cons_self), rfl⟩
  | cons next texts ih =>
    obtain ⟨last, hrun, hlast⟩ := ih (r := ⟨.startField, [], r.fields ++ [text]⟩) (.inr rfl) rfl
      fun t ht => h t (List.mem_cons_of_mem _ ht)
    refine ⟨last, ?_, by rw [List.getLast?_cons_cons, hlast]⟩
    rw [List.intercalate_cons_cons, run_append, run_append,
      run_plain hstate hfield (h text List.mem_cons_self), Option.bind_some,
      run_delimiter hdelimiter, Option.bind_some, hrun]
    simp

/-- Plain fields with delimiters between them are read back. -/
theorem fieldsOf_intercalate (hdelimiter : isBreak delimiter = false) (k : Nat)
    {texts : List (List Char)} (h : ∀ t ∈ texts, Plain delimiter t) :
    fieldsOf delimiter ((delimiter :: List.replicate k ' ').intercalate texts) = some texts := by
  cases texts with
  | nil => rfl
  | cons text texts =>
    obtain ⟨last, hrun, hlast⟩ := run_intercalate hdelimiter k (r := .start) (.inl rfl) rfl h
    obtain ⟨front, hfront⟩ := List.getLast?_eq_some_iff.mp hlast
    rw [fieldsOf, hrun, Option.map_some, hfront, List.dropLast_concat]
    rfl

end Lib.Csv
