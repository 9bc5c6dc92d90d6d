import Mathlib.Data.List.Basic
import Mathlib.Data.List.TakeWhile

/-!
# The path of a request (`ngx_http_parse_complex_uri`)

nginx reads the path of a request up to a `?` or a `#`, decodes it, merges slashes and resolves the
segments `.` and `..`. The result is `ngx.var.uri`. A path that cannot be read, or that leaves the
root, is refused (`none`).

The parser decodes while it walks through its states. Here it decodes first: `pieces` marks the
characters that come out of `%23`, `%25` and `%3f`, which have no meaning of their own. The table
`usual` of the parser is left out: a character of the table takes the default branch of each state.

`normalise_plain`: a path without `%`, `//` and `/.` is read as it is written.
-/

namespace BunkerWeb.Lua.Nginx

abbrev Text := List Char

/-! ## Decoding -/

/-- A character of the path, or one that is taken literally. -/
inductive Piece where
  | char (c : Char)
  | literal (c : Char)
  deriving DecidableEq

def hexValue (c : Char) : Option Nat :=
  if 48 ≤ c.toNat ∧ c.toNat ≤ 57 then some (c.toNat - 48)
  else if 97 ≤ c.toNat ||| 32 ∧ c.toNat ||| 32 ≤ 102 then some ((c.toNat ||| 32) - 87)
  else none

/-- `sw_quoted` and `sw_quoted_second`. -/
def quoted (a b : Char) : Option Piece :=
  match hexValue a, hexValue b with
  | some x, some y =>
    let c := Char.ofNat (16 * x + y)
    if c = '\x00' then none
    else if c ∈ ['%', '#', '?'] then some (.literal c)
    else some (.char c)
  | _, _ => none

def pieces : Text → Option (List Piece)
  | [] => some []
  | '%' :: a :: b :: rest => (quoted a b).bind fun piece => (pieces rest).map (piece :: ·)
  | '%' :: _ => none
  | c :: rest => (pieces rest).map (.char c :: ·)

/-! ## Segments -/

/-- `sw_usual`, `sw_slash`, `sw_dot`, `sw_dot_dot`. -/
inductive PathState where
  | usual
  | slash
  | dot
  | dotDot
  deriving DecidableEq

/-- Drops `/..` and the segment before it. The text is reversed. -/
def back (out : Text) : Option Text :=
  match (out.drop 3).dropWhile (· ≠ '/') with
  | [] => none
  | out => some out

/-- The state and the reversed text after one piece. -/
def step : PathState → Text → Piece → Option (PathState × Text)
  | _, out, .literal c => some (.usual, c :: out)
  | .usual, out, .char c => some (if c = '/' then .slash else .usual, c :: out)
  | .slash, out, .char c =>
    if c = '/' then some (.slash, out)
    else some (if c = '.' then .dot else .usual, c :: out)
  | .dot, out, .char c =>
    if c = '/' then some (.slash, out.tail)
    else some (if c = '.' then .dotDot else .usual, c :: out)
  | .dotDot, out, .char c =>
    if c = '/' then (back out).map fun out => (.slash, out) else some (.usual, c :: out)

def walk (state : PathState) (out : Text) : List Piece → Option Text
  | [] =>
    match state with
    | .usual | .slash => some out
    | .dot => some out.tail
    | .dotDot => back out
  | piece :: rest => (step state out piece).bind fun next => walk next.1 next.2 rest

/-- `ngx_http_parse_complex_uri`. -/
def normalise (path : Text) : Option Text :=
  ((pieces (path.takeWhile fun c => c ≠ '?' ∧ c ≠ '#')).bind (walk .usual [])).map List.reverse

/-! ## Paths that are read as they are written -/

/-- After the character `before`: no `%`, `?` or `#`, and no slash or dot after a slash. -/
def plainAfter (before : Char) : Text → Bool
  | [] => true
  | c :: rest =>
    c ∉ ['%', '?', '#'] && !(before == '/' && (c == '/' || c == '.')) && plainAfter c rest

/-- Starts with a slash, without `%`, `?`, `#`, `//` and `/.`. -/
def plain : Text → Bool
  | '/' :: rest => plainAfter '/' rest
  | _ => false

section

variable {path rest : Text} {before c : Char}

theorem pieces_cons (hc : c ≠ '%') : pieces (c :: rest) = (pieces rest).map (.char c :: ·) := by
  cases rest with
  | nil => simp [pieces]
  | cons d rest => cases rest <;> simp [pieces, hc]

/-- The state between two segments or within one. -/
def stateAfter (before : Char) : PathState := if before = '/' then .slash else .usual

theorem step_plain {out : Text} (h : ¬ (before = '/' ∧ (c = '/' ∨ c = '.'))) :
    step (stateAfter before) out (.char c) = some (stateAfter c, c :: out) := by
  by_cases hb : before = '/'
  · have hslash : c ≠ '/' := fun he => h ⟨hb, .inl he⟩
    have hdot : c ≠ '.' := fun he => h ⟨hb, .inr he⟩
    simp [step, stateAfter, hb, hslash, hdot]
  · simp [step, stateAfter, hb]

theorem walk_plain (h : plainAfter before rest = true) (out : Text) :
    ∃ ps, pieces rest = some ps ∧ walk (stateAfter before) out ps = some (rest.reverse ++ out) := by
  induction rest generalizing before out with
  | nil =>
    refine ⟨[], rfl, ?_⟩
    unfold stateAfter
    split <;> rfl
  | cons c rest ih =>
    simp only [plainAfter, Bool.and_eq_true, decide_eq_true_eq, List.mem_cons, List.not_mem_nil,
      or_false, not_or, Bool.not_eq_true', Bool.and_eq_false_iff, Bool.or_eq_false_iff] at h
    obtain ⟨⟨⟨hpercent, -⟩, hsegment⟩, hrest⟩ := h
    obtain ⟨ps, hps, hwalk⟩ := ih hrest (c :: out)
    refine ⟨.char c :: ps, ?_, ?_⟩
    · rw [pieces_cons hpercent, hps]
      rfl
    · have hstep : step (stateAfter before) out (.char c) = some (stateAfter c, c :: out) := by
        apply step_plain
        rintro ⟨hb, hc⟩
        simp [hb] at hsegment
        exact hc.elim hsegment.1 hsegment.2
      rw [walk, hstep, Option.bind_some, hwalk, List.reverse_cons, List.append_assoc]
      rfl

theorem not_end_of_plainAfter (h : plainAfter before rest = true) :
    ∀ c ∈ rest, c ≠ '?' ∧ c ≠ '#' := by
  induction rest generalizing before with
  | nil => simp
  | cons c rest ih =>
    simp only [plainAfter, Bool.and_eq_true, decide_eq_true_eq, List.mem_cons, List.not_mem_nil,
      or_false, not_or] at h
    obtain ⟨⟨⟨-, hquery, hfragment⟩, -⟩, hrest⟩ := h
    rw [List.forall_mem_cons]
    exact ⟨⟨hquery, hfragment⟩, ih hrest⟩

theorem normalise_plain (h : plain path = true) : normalise path = some path := by
  unfold plain at h
  split at h
  next rest =>
    obtain ⟨ps, hps, hwalk⟩ := walk_plain h ['/']
    have hend : ('/' :: rest).takeWhile (fun c => c ≠ '?' ∧ c ≠ '#') = '/' :: rest := by
      rw [List.takeWhile_eq_self_iff]
      intro c hc
      obtain rfl | hc := List.mem_cons.mp hc
      · decide
      · exact decide_eq_true (not_end_of_plainAfter h c hc)
    rw [normalise, hend, pieces_cons (by decide), hps]
    show (walk (stateAfter '/') ['/'] ps).map List.reverse = _
    rw [hwalk]
    simp
  next => cases h

/-- What follows a `?` does not count. -/
theorem normalise_takeWhile (path : Text) :
    normalise (path.takeWhile (· ≠ '?')) = normalise path := by
  have hsame : (path.takeWhile (· ≠ '?')).takeWhile (fun c => c ≠ '?' ∧ c ≠ '#') =
      path.takeWhile fun c => c ≠ '?' ∧ c ≠ '#' := by
    rw [List.takeWhile_takeWhile]
    congr 1
    funext c
    simp
    tauto
  rw [normalise, hsame, normalise]

end

example : normalise "/a/./b//../%63%2f?x=/..".toList = some "/a/c/".toList := by decide

end BunkerWeb.Lua.Nginx
