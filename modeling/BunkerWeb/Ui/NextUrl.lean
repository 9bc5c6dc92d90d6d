import BunkerWeb.Lib.WebUrl
import BunkerWeb.Text
import Mathlib.Data.List.Infix

/-!
# Redirects after the login (`_sanitize_internal_next` of `ui/app/utils.py`)

A form or a query names the page to go to next. It is accepted if both the text and what it decodes to
are paths with one slash at the start, without backslashes, control characters and dot segments; the
decoded one is returned.

A browser reads the decoded text as a link. `sameOrigin_of_sanitized`: on every page, it stays on the
site.
-/

namespace BunkerWeb.Ui.NextUrl

open Lib

abbrev Text := List Char

/-! ## `unquote` -/

def hexValue (c : Char) : Option Nat :=
  if '0' ≤ c ∧ c ≤ '9' then some (c.toNat - '0'.toNat)
  else if 'a' ≤ c ∧ c ≤ 'f' then some (c.toNat - 'a'.toNat + 10)
  else if 'A' ≤ c ∧ c ≤ 'F' then some (c.toNat - 'A'.toNat + 10)
  else none

/-- `unquote_to_bytes`, for ASCII text. -/
def unquoteToBytes : Text → List Nat
  | [] => []
  | '%' :: a :: b :: text =>
    match hexValue a, hexValue b with
    | some x, some y => (16 * x + y) :: unquoteToBytes text
    | _, _ => 37 :: unquoteToBytes (a :: b :: text)
  | c :: text => c.toNat :: unquoteToBytes text

/-- A character of UTF-8 that is not complete: the bytes that are missing, the bounds of the next one,
and the bits so far. -/
structure Partial where
  missing : Nat
  lower : Nat := 0x80
  upper : Nat := 0xBF
  bits : Nat

/-- The character that a byte begins, or that it is. -/
def firstByte (b : Nat) : Char ⊕ Partial :=
  if b < 0x80 then .inl (Char.ofNat b)
  else if 0xC2 ≤ b ∧ b ≤ 0xDF then .inr { missing := 1, bits := b - 0xC0 }
  else if b = 0xE0 then .inr { missing := 2, lower := 0xA0, bits := 0 }
  else if b = 0xED then .inr { missing := 2, upper := 0x9F, bits := b - 0xE0 }
  else if 0xE1 ≤ b ∧ b ≤ 0xEF then .inr { missing := 2, bits := b - 0xE0 }
  else if b = 0xF0 then .inr { missing := 3, lower := 0x90, bits := 0 }
  else if b = 0xF4 then .inr { missing := 3, upper := 0x8F, bits := 4 }
  else if 0xF1 ≤ b ∧ b ≤ 0xF3 then .inr { missing := 3, bits := b - 0xF0 }
  else .inl '\uFFFD'

/-- `bytes.decode("utf-8", "replace")`. -/
def decodeUtf8 : Option Partial → List Nat → Text
  | none, [] => []
  | some _, [] => ['\uFFFD']
  | none, b :: bytes =>
    match firstByte b with
    | .inl c => c :: decodeUtf8 none bytes
    | .inr p => decodeUtf8 (some p) bytes
  | some p, b :: bytes =>
    if p.lower ≤ b ∧ b ≤ p.upper then
      let bits := 64 * p.bits + (b - 0x80)
      if p.missing = 1 then Char.ofNat bits :: decodeUtf8 none bytes
      else decodeUtf8 (some { missing := p.missing - 1, bits }) bytes
    else
      -- The byte ends the character and is read again.
      match firstByte b with
      | .inl c => '\uFFFD' :: c :: decodeUtf8 none bytes
      | .inr p => '\uFFFD' :: decodeUtf8 (some p) bytes

/-- `unquote`: the ASCII parts are decoded. -/
def unquote (text : Text) : Text :=
  (text.splitBy fun a b => decide (a.toNat < 0x80) == decide (b.toNat < 0x80)).flatMap fun part =>
    if part.all (·.toNat < 0x80) then decodeUtf8 none (unquoteToBytes part) else part

/-! ## `_sanitize_internal_next` -/

/-- The segments of the path of a value. -/
def pathSegments (value : Text) : List Text :=
  ((value.takeWhile (· ≠ '?')).takeWhile (· ≠ '#')).splitOn '/'

/-- The checks that the text and its decoded form have to pass. -/
def check (value : Text) : Except String Unit :=
  if value.head? ≠ some '/' then .error "must start with /"
  else if value[1]? = some '/' ∨ value[1]? = some '\\' then
    .error "protocol-relative not allowed"
  else if '\\' ∈ value ∨ "://".toList <:+: value then .error "scheme or backslash not allowed"
  else if value.any fun c => c.toNat < 32 then .error "control chars not allowed"
  else if ['.'] ∈ pathSegments value ∨ ['.', '.'] ∈ pathSegments value then
    .error "dot path segment not allowed"
  else .ok ()

def sanitizeInternalNext (nextUrl : Option Text) (default : Text) : Except String Text :=
  match nextUrl with
  | none => .ok default
  | some nextUrl =>
    let candidate := stripChars nextUrl
    if 4096 < candidate.length then .error "too long"
    else do
      let decoded := (unquote candidate).take 4096
      check candidate
      check decoded
      return if decoded = [] then default else decoded

/-! ## The target -/

variable {value next default : Text}

/-- What passes the checks begins with one slash and has no control character. -/
theorem rooted_of_check (h : check value = .ok ()) :
    (∃ rest, value = '/' :: rest ∧ ∀ c ∈ rest.head?, WebUrl.isSlash c = false) ∧
      ∀ c ∈ value, 32 ≤ c.toNat := by
  unfold check at h
  split at h
  next => cases h
  next hslash =>
  split at h
  next => cases h
  next hsecond =>
  split at h
  next => cases h
  next =>
  split at h
  next => cases h
  next hcontrol =>
    constructor
    · obtain ⟨rest, rfl⟩ := List.head?_eq_some_iff.mp (not_not.mp hslash)
      refine ⟨rest, rfl, fun c hc => ?_⟩
      rw [List.getElem?_cons_succ, ← List.head?_eq_getElem?, show rest.head? = some c from hc,
        Option.some_inj, Option.some_inj, not_or] at hsecond
      simp [WebUrl.isSlash, hsecond]
    · intro c hc
      by_contra hlt
      exact hcontrol (List.any_eq_true.mpr ⟨c, hc, decide_eq_true (by omega)⟩)

/-- What is returned is the decoded text, which passes the checks. -/
theorem check_of_sanitized (h : sanitizeInternalNext (some next) default = .ok value) :
    check value = .ok () ∧ value = (unquote (stripChars next)).take 4096 := by
  simp only [sanitizeInternalNext] at h
  split at h
  next => cases h
  next =>
    cases hcandidate : check (stripChars next) with
    | error e =>
      rw [hcandidate] at h
      cases h
    | ok _ =>
      cases hdecoded : check ((unquote (stripChars next)).take 4096) with
      | error e =>
        rw [hcandidate, hdecoded] at h
        cases h
      | ok _ =>
        rw [hcandidate, hdecoded] at h
        obtain ⟨⟨rest, hrest, -⟩, -⟩ := rooted_of_check hdecoded
        have hvalue := Except.ok.inj h
        rw [if_neg (by rw [hrest]; exact List.cons_ne_nil _ _)] at hvalue
        rw [← hvalue]
        exact ⟨hdecoded, rfl⟩

/-- **An accepted target stays on the site.** On every page, the browser resolves it to a URL with the
scheme, the host and the port of the page. -/
theorem sameOrigin_of_sanitized (parseHost : Text → Option (Text × Option Nat))
    (h : sanitizeInternalNext (some next) default = .ok value) (page : WebUrl.Url) :
    ∃ u, WebUrl.resolve parseHost page value = .url u ∧ u.origin = page.origin := by
  obtain ⟨⟨rest, hrest, hslash⟩, hcontrol⟩ := rooted_of_check (check_of_sanitized h).1
  refine WebUrl.origin_of_rooted parseHost page hrest hslash fun c hc hbreak => ?_
  have hlow := hcontrol c hc
  simp only [List.mem_cons, List.not_mem_nil, or_false] at hbreak
  obtain rfl | rfl | rfl := hbreak <;> revert hlow <;> decide

/-- The login page of a site. -/
def loginPage : WebUrl.Url where
  scheme := "https".toList
  special := by decide
  host := "ui.example.com".toList
  port := some 8443
  path := ["login".toList]

/-- A question mark that is decoded ends the path. -/
theorem sanitize_encoded :
    sanitizeInternalNext (some "/loading%3Fnext=/%2541%2f..b ".toList) "/home".toList =
      .ok "/loading?next=/%41/..b".toList := by
  decide +kernel

theorem sameOrigin_encoded_target :
    let next := "/loading%3Fnext=/%2541%2f..b ".toList
    let value := "/loading?next=/%41/..b".toList
    let parseHost := fun host : Text => some (host, none)
    sanitizeInternalNext (some next) "/home".toList = .ok value ∧
      ∃ u, WebUrl.resolve parseHost loginPage value = .url u ∧ u.origin = loginPage.origin :=
  ⟨sanitize_encoded, sameOrigin_of_sanitized _ sanitize_encoded loginPage⟩

end BunkerWeb.Ui.NextUrl
