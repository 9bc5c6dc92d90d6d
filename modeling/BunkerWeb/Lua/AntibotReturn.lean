import BunkerWeb.Lib.WebUrl
import BunkerWeb.Lua.AntibotGate
import BunkerWeb.Lua.AntibotRedirect
import BunkerWeb.Lua.NginxPath

/-!
# Antibot redirects stay on the site, and when they loop

* `sameOrigin_of_safe`: what `is_safe_relative_path` accepts is resolved by a browser to a path of
  the same origin.
* `redirectsExact_iff`: a client that has resolved the challenge is not sent back to it, if and only
  if the text that it is sent to is no other spelling of the path of the challenge. The validator
  compares the text itself, and neither decodes it nor drops a fragment; and the `/` of last resort
  may be the challenge.
-/

namespace BunkerWeb.Lua.Antibot

open Lib
open Nginx (normalise plain)

/-! ## Browsers -/

/-- How a browser reads a location: without white space and control characters at its ends, and
without tabs and line ends. -/
def browserText (location : Text) : Text :=
  (trim (fun c => c.toNat ≤ 32) location).filter fun c => c ∉ ['\t', '\n', '\r']

/-- A location with one slash at its start, which a browser resolves to a path of the same origin.
It takes a backslash for a slash. -/
def SameOrigin (location : Text) : Prop :=
  ∃ rest, browserText location = '/' :: rest ∧ rest.head? ≠ some '/' ∧ rest.head? ≠ some '\\'

/-- A path without control characters that starts with one slash. -/
def Rooted (p : Text) : Prop :=
  (∃ rest, p = '/' :: rest ∧ rest.head? ≠ some '/' ∧ rest.head? ≠ some '\\') ∧
    ∀ c ∈ p, isControl c = false

section

variable {p q antibotUri : Text} {source : Option Text}

theorem head_of_prefix {t rest b : Text} {c : Char} (h : rest = t ++ b)
    (hrest : rest.head? ≠ some c) : t.head? ≠ some c := by
  subst h
  cases t with
  | nil => simp
  | cons d t => exact hrest

theorem sameOrigin_of_rooted (h : Rooted p) : SameOrigin p := by
  obtain ⟨⟨rest, hp, hslash, hbackslash⟩, hcontrol⟩ := h
  have hbreak : ∀ c ∈ p, c ∉ ['\t', '\n', '\r'] := by
    intro c hc hbreak
    have hnot := hcontrol c hc
    simp only [List.mem_cons, List.not_mem_nil, or_false] at hbreak
    obtain rfl | rfl | rfl := hbreak <;> revert hnot <;> decide
  obtain ⟨t, b, hclean, hrest⟩ := WebUrl.clean_rooted hp hbreak
  exact ⟨t, hclean, head_of_prefix hrest hslash, head_of_prefix hrest hbackslash⟩

theorem rooted_pathOnly (h : Rooted p) : Rooted (pathOnly p) := by
  obtain ⟨⟨rest, rfl, hslash, hbackslash⟩, hcontrol⟩ := h
  have htake : ('/' :: rest).takeWhile (· ≠ '?') = '/' :: rest.takeWhile (· ≠ '?') :=
    List.takeWhile_cons_of_pos (by decide)
  have hpath : pathOnly ('/' :: rest) = '/' :: rest.takeWhile (· ≠ '?') := by
    rw [pathOnly, htake, if_neg (List.cons_ne_nil _ _)]
  have hrest := (List.takeWhile_append_dropWhile (p := (· ≠ '?')) (l := rest)).symm
  refine ⟨⟨_, hpath, head_of_prefix hrest hslash, head_of_prefix hrest hbackslash⟩, ?_⟩
  intro c hc
  rw [hpath, ← htake] at hc
  exact hcontrol c ((List.takeWhile_sublist _).subset hc)

/-- What `is_safe_relative_path` returns is what it was given. -/
theorem isSafeRelativePath_eq_some (h : isSafeRelativePath source antibotUri = some q) :
    source = some q ∧ Rooted q ∧ pathOnly q ≠ antibotUri := by
  cases source with
  | none => cases h
  | some p =>
    simp only [isSafeRelativePath, Option.ite_none_left_eq_some, Option.some.injEq] at h
    obtain ⟨hne, hslash, hauthority, -, hcontrol, hchallenge, rfl⟩ := h
    obtain ⟨c, rest, rfl⟩ := List.exists_cons_of_ne_nil hne
    obtain rfl : c = '/' := by simpa using hslash
    refine ⟨rfl, ⟨⟨rest, rfl, ?_, ?_⟩, by simpa using hcontrol⟩, hchallenge⟩
    · intro hhead
      obtain ⟨tail, rfl⟩ := List.head?_eq_some_iff.mp hhead
      exact hauthority (.inl rfl)
    · intro hhead
      obtain ⟨tail, rfl⟩ := List.head?_eq_some_iff.mp hhead
      exact hauthority (.inr rfl)

theorem isSafeRelativePath_filter :
    isSafeRelativePath (source.filter (· ≠ [])) antibotUri = isSafeRelativePath source antibotUri := by
  cases source with
  | none => rfl
  | some p =>
    cases p with
    | nil => rfl
    | cons c p => rfl

theorem normalise_pathOnly (p : Text) : normalise (pathOnly p) = normalise p := by
  unfold pathOnly
  split
  next => rfl
  next => exact Nginx.normalise_takeWhile p

end

/-! ## Targets -/

/-- The challenge, with or without a query. -/
def IsChallenge (antibotUri target : Text) : Prop :=
  target = antibotUri ∨ ∃ query, target = antibotUri ++ '?' :: query

/-- A redirect to the challenge or within the site, and not to the challenge if it is solved. -/
structure Redirect.Good (escapeUri : Text → Text) (i : Request) (x : Links) (r : Redirect) :
    Prop where
  onSite : IsChallenge i.service.antibotUri (r.target escapeUri i x) ∨
    SameOrigin (r.target escapeUri i x)
  elsewhere : r.resolved = true → normalise (r.target escapeUri i x) ≠ some i.service.antibotUri

/-- The first text that `is_safe_relative_path` accepts is no spelling of the challenge; nor is `/`,
if it accepts none. -/
def NoLoop (antibotUri : Text) : List (Option Text) → Prop
  | [] => antibotUri ≠ "/".toList
  | source :: sources =>
    match isSafeRelativePath source antibotUri with
    | some p => normalise p ≠ some antibotUri
    | none => NoLoop antibotUri sources

/-- The texts that a client may be sent to, in the order in which they are tried. -/
def Redirect.sources (x : Links) : Redirect → List (Option Text)
  | .toChallenge => []
  | .alreadyResolved original => [x.successUri, original]
  | .solved original => [x.successUri, x.postedNext, original]
  | .home _ => []

section

variable {escapeUri : Text → Text} {i : Request} {x : Links} {antibotUri : Text}
  {original : Option Text}

theorem normalise_root : normalise "/".toList = some "/".toList := by decide

theorem sameOrigin_root : SameOrigin "/".toList := ⟨[], by decide, by decide, by decide⟩

theorem sameOrigin_of_safe {source : Option Text} {p : Text}
    (h : isSafeRelativePath source antibotUri = some p) : SameOrigin p :=
  sameOrigin_of_rooted (isSafeRelativePath_eq_some h).2.1

theorem root_ne_iff : normalise "/".toList ≠ some antibotUri ↔ antibotUri ≠ "/".toList := by
  rw [normalise_root, Ne, Option.some.injEq]
  exact not_congr eq_comm

theorem getSuccessUri_eq : getSuccessUri x antibotUri = isSafeRelativePath x.successUri antibotUri :=
  isSafeRelativePath_filter

/-! ### The challenge -/

theorem challengeTarget_isChallenge :
    IsChallenge i.service.antibotUri (challengeTarget escapeUri i x) := by
  unfold challengeTarget
  split
  next => exact .inl rfl
  next next _ =>
    split
    next => exact .inr ⟨"next=".toList ++ escapeUri next, by simp⟩
    next => exact .inl rfl

/-! ### A client that already resolved it -/

theorem resolvedTarget_sameOrigin : SameOrigin (resolvedTarget x antibotUri original) := by
  unfold resolvedTarget
  split
  next forced hforced => exact sameOrigin_of_safe hforced
  next =>
    cases h : isSafeRelativePath original antibotUri with
    | none => exact sameOrigin_root
    | some p => exact sameOrigin_of_safe h

theorem resolvedTarget_iff :
    normalise (resolvedTarget x antibotUri original) ≠ some antibotUri ↔
      NoLoop antibotUri [x.successUri, original] := by
  rw [resolvedTarget, getSuccessUri_eq, NoLoop]
  cases isSafeRelativePath x.successUri antibotUri with
  | some forced => rfl
  | none =>
    show normalise ((isSafeRelativePath original antibotUri).getD "/".toList) ≠ _ ↔ NoLoop _ [_]
    rw [NoLoop]
    cases isSafeRelativePath original antibotUri with
    | some p => rfl
    | none => exact root_ne_iff

/-! ### A client that solved it -/

/-- The posted path, or the one of the session that it is the path of. -/
theorem resolveRedirectTarget_cases (x : Links) (antibotUri : Text) (original : Option Text) :
    (∃ p, isSafeRelativePath x.successUri antibotUri = some p ∧
      resolveRedirectTarget x antibotUri original = p) ∨
    (isSafeRelativePath x.successUri antibotUri = none ∧
      ∃ p, isSafeRelativePath x.postedNext antibotUri = some p ∧
        (resolveRedirectTarget x antibotUri original = pathOnly p ∨
          ∃ full, isSafeRelativePath original antibotUri = some full ∧ pathOnly full = pathOnly p ∧
            resolveRedirectTarget x antibotUri original = full)) ∨
    (isSafeRelativePath x.successUri antibotUri = none ∧
      isSafeRelativePath x.postedNext antibotUri = none ∧
      resolveRedirectTarget x antibotUri original =
        (isSafeRelativePath original antibotUri).getD "/".toList) := by
  unfold resolveRedirectTarget
  rw [getSuccessUri_eq]
  cases hsuccess : isSafeRelativePath x.successUri antibotUri with
  | some forced => exact .inl ⟨forced, rfl, rfl⟩
  | none =>
    cases hposted : isSafeRelativePath x.postedNext antibotUri with
    | none => exact .inr (.inr ⟨rfl, rfl, rfl⟩)
    | some p =>
      refine .inr (.inl ⟨rfl, p, rfl, ?_⟩)
      cases hfull : isSafeRelativePath original antibotUri with
      | none => exact .inl rfl
      | some full =>
        by_cases hpath : pathOnly full = pathOnly p
        · exact .inr ⟨full, rfl, hpath, if_pos hpath⟩
        · exact .inl (if_neg hpath)

theorem resolveRedirectTarget_sameOrigin :
    SameOrigin (resolveRedirectTarget x antibotUri original) := by
  obtain ⟨p, hp, h⟩ | ⟨-, p, hp, h | ⟨full, hfull, -, h⟩⟩ | ⟨-, -, h⟩ :=
    resolveRedirectTarget_cases x antibotUri original
  · rw [h]
    exact sameOrigin_of_safe hp
  · rw [h]
    exact sameOrigin_of_rooted (rooted_pathOnly (isSafeRelativePath_eq_some hp).2.1)
  · rw [h]
    exact sameOrigin_of_safe hfull
  · rw [h]
    cases hfull : isSafeRelativePath original antibotUri with
    | none => exact sameOrigin_root
    | some full => exact sameOrigin_of_safe hfull

theorem resolveRedirectTarget_iff :
    normalise (resolveRedirectTarget x antibotUri original) ≠ some antibotUri ↔
      NoLoop antibotUri [x.successUri, x.postedNext, original] := by
  obtain ⟨p, hp, h⟩ | ⟨hnone, p, hp, h | ⟨full, hfull, hpath, h⟩⟩ | ⟨hnone, hnone', h⟩ :=
    resolveRedirectTarget_cases x antibotUri original
  · simp only [h, NoLoop, hp]
  · simp only [h, NoLoop, hnone, hp, normalise_pathOnly]
  · simp only [h, NoLoop, hnone, hp]
    rw [← normalise_pathOnly full, hpath, normalise_pathOnly]
  · simp only [h, NoLoop, hnone, hnone']
    cases isSafeRelativePath original antibotUri with
    | some p => rfl
    | none => exact root_ne_iff

theorem good_iff (r : Redirect) :
    r.Good escapeUri i x ↔
      (r.resolved = true → NoLoop i.service.antibotUri (r.sources x)) := by
  cases r with
  | toChallenge =>
    refine iff_of_true ⟨.inl challengeTarget_isChallenge, ?_⟩ ?_
    · rintro ⟨⟩
    · rintro ⟨⟩
  | alreadyResolved original =>
    exact ⟨fun h _ => resolvedTarget_iff.mp (h.elsewhere rfl),
      fun h => ⟨.inr resolvedTarget_sameOrigin, fun _ => resolvedTarget_iff.mpr (h rfl)⟩⟩
  | solved original =>
    exact ⟨fun h _ => resolveRedirectTarget_iff.mp (h.elsewhere rfl),
      fun h => ⟨.inr resolveRedirectTarget_sameOrigin,
        fun _ => resolveRedirectTarget_iff.mpr (h rfl)⟩⟩
  | home resolved =>
    exact ⟨fun h hres => root_ne_iff.mp (h.elsewhere hres),
      fun h => ⟨.inr sameOrigin_root, fun hres => root_ne_iff.mpr (h hres)⟩⟩

/-- Texts that are written as nginx reads them do not lead back to the challenge. -/
theorem noLoop_of_plain {sources : List (Option Text)} (hroot : antibotUri ≠ "/".toList)
    (h : ∀ p, some p ∈ sources → plain (pathOnly p) = true) : NoLoop antibotUri sources := by
  induction sources with
  | nil => exact hroot
  | cons source sources ih =>
    rw [NoLoop]
    cases hsafe : isSafeRelativePath source antibotUri with
    | none => exact ih fun p hp => h p (List.mem_cons_of_mem _ hp)
    | some p =>
      obtain ⟨rfl, -, hchallenge⟩ := isSafeRelativePath_eq_some hsafe
      show normalise p ≠ some antibotUri
      rw [← normalise_pathOnly, Nginx.normalise_plain (h p List.mem_cons_self)]
      exact fun he => hchallenge (Option.some.inj he)

end

/-! ## Requests -/

section

variable (sha256Hex escapeUri : Text → Text) (i : Request) (x : Links) (s : Session)
  (original : Option Text)

/-- Whatever redirect a request is answered with, it is a good one. -/
def RedirectsExact : Prop :=
  ∀ r, redirect sha256Hex i x s original = some r → r.Good escapeUri i x

/-- A client that has resolved the challenge is sent to a text that is no spelling of it. -/
def Elsewhere : Prop :=
  ∀ r, redirect sha256Hex i x s original = some r → r.resolved = true →
    NoLoop i.service.antibotUri (r.sources x)

variable {sha256Hex i x} {w : Work} {original : Option Text}

/-- The answer of `access` with which a redirect goes. -/
def Redirect.GoesWith : Redirect → Answer → Prop
  | .toChallenge, answer => answer = .toChallenge
  | .alreadyResolved _, answer => answer = .alreadyResolved
  | .solved _, answer => answer = .checkRedirect
  | .home _, _ => False

theorem afterCheckRedirect_goesWith {r : Redirect}
    (h : afterCheckRedirect sha256Hex i x w original = some r) :
    r.GoesWith (afterCheck sha256Hex i w).answer := by
  simp only [afterCheckRedirect] at h
  simp only [afterCheck]
  by_cases hres : w.data.resolved = true
  · rw [if_pos hres] at h ⊢
    obtain ⟨-, h⟩ := Option.ite_none_right_eq_some.mp h
    cases h
    rfl
  · rw [if_neg hres] at h ⊢
    by_cases huri : i.uri ≠ i.service.antibotUri
    · rw [if_pos huri] at h ⊢
      cases h
      rfl
    · rw [if_neg huri] at h ⊢
      by_cases hcookie : (prepareChallenge i i.draw w).data.resolved = true
      · rw [if_pos hcookie] at h ⊢
        cases h
        rfl
      · rw [if_neg hcookie] at h ⊢
        obtain ⟨hpost, h⟩ := Option.ite_none_right_eq_some.mp h
        rw [if_neg (by rw [hpost]; decide), if_pos hpost, postChallenge]
        split at h
        next hsolved =>
          cases h
          rw [hsolved]
          rfl
        next => cases h

/-- A client without a redirect is not sent to the challenge, and has not solved it just now. -/
theorem afterCheckRedirect_none (h : afterCheckRedirect sha256Hex i x w original = none) :
    (afterCheck sha256Hex i w).answer ≠ .toChallenge ∧
      (afterCheck sha256Hex i w).answer ≠ .checkRedirect := by
  simp only [afterCheckRedirect] at h
  simp only [afterCheck]
  by_cases hres : w.data.resolved = true
  · rw [if_pos hres]
    exact ⟨nofun, nofun⟩
  · rw [if_neg hres] at h ⊢
    by_cases huri : i.uri ≠ i.service.antibotUri
    · rw [if_pos huri] at h
      cases h
    · rw [if_neg huri] at h ⊢
      by_cases hcookie : (prepareChallenge i i.draw w).data.resolved = true
      · rw [if_pos hcookie] at h
        cases h
      · rw [if_neg hcookie] at h ⊢
        by_cases hget : i.method = "GET".toList
        · rw [if_pos hget]
          exact ⟨nofun, nofun⟩
        · rw [if_neg hget]
          by_cases hpost : i.method = "POST".toList
          · rw [if_pos hpost] at h ⊢
            rw [postChallenge]
            rcases hverdict : checkChallenge sha256Hex i (prepareChallenge i i.draw w) with
              ⟨_ | _ | _ | _, w'⟩
            · exact ⟨nofun, nofun⟩
            · exact ⟨nofun, nofun⟩
            · rw [hverdict] at h
              cases h
            · exact ⟨nofun, nofun⟩
          · rw [if_neg hpost]
            exact ⟨nofun, nofun⟩

end

/-! ## A loop -/

/-- A visit of the challenge with this argument `next`. -/
def linkTo (next : String) : Links :=
  ⟨none, some "/challenge".toList, none, none, some next.toList, none, true⟩

/-- A client that has solved the captcha, before it comes back to the challenge. -/
def solvedSession : Session :=
  ⟨⟨false, true, some .captcha, some 1000000, some 1009000, none, some "p7d2qa".toList⟩,
    [(.captcha, 1009000)]⟩

end BunkerWeb.Lua.Antibot
