import BunkerWeb.Text
import BunkerWeb.Lua.AuthBasic

/-!
# The header of basic authentication

`Carries` says what it means that an `Authorization` header has a user and a password: white space,
the scheme in any case, white space, and a token that decodes to both with a colon between them.
`credentialsOf_eq_ok` says that `validate_credentials` reads just these headers, and
`exists_header` that there is one for each user without a colon and each password.
-/

namespace BunkerWeb.Lua.AuthBasic

open Lib

def Space (text : Text) : Prop := ∀ c ∈ text, isLuaSpace c = true

/-- The header has this user and this password. -/
def Carries (base64 : Base64) (header u p : Text) : Prop :=
  ∃ before scheme between token after,
    header = before ++ (scheme ++ (between ++ (token ++ after))) ∧
    Space before ∧ scheme.map Char.toLower = "basic".toList ∧
    between ≠ [] ∧ Space between ∧ trim token = token ∧ Space after ∧
    base64.decode token = some (u ++ ':' :: p) ∧ ':' ∉ u

section

variable {base64 : Base64} {text header encoded between rest u p : Text}

/-! ## Scheme and token -/

theorem afterSpaces_append (hne : between ≠ []) (hs : Space between) (hrest : rest ≠ [])
    (hhead : ∀ c ∈ rest.head?, isLuaSpace c = false) :
    afterSpaces (between ++ rest) = some rest := by
  rw [afterSpaces, takeWhile_append_head hs hhead, dropWhile_append_head hs hhead]
  obtain ⟨c, between, rfl⟩ := List.exists_cons_of_ne_nil hne
  obtain ⟨d, rest, rfl⟩ := List.exists_cons_of_ne_nil hrest
  rfl

/-- What follows white space, or nothing but white space. -/
theorem afterSpaces_cases (h : afterSpaces text = some encoded) :
    trim encoded = [] ∨ ∃ between, between ≠ [] ∧ Space between ∧ text = between ++ encoded := by
  have htext := List.takeWhile_append_dropWhile (p := isLuaSpace) (l := text)
  have hspace : Space (text.takeWhile isLuaSpace) := fun c hc => List.mem_takeWhile_imp hc
  unfold afterSpaces at h
  split at h
  next => cases h
  next c spaces hbetween hrest =>
    left
    obtain ⟨d, hd, rfl⟩ := Option.map_eq_some_iff.mp h
    apply trim_eq_nil
    intro x hx
    obtain rfl := List.mem_singleton.mp hx
    apply hspace
    rw [hbetween]
    exact List.mem_cons_of_mem _ (List.mem_of_mem_getLast? hd)
  next hbetween _ =>
    right
    cases h
    exact ⟨_, hbetween, hspace, htext.symm⟩

theorem length_basic {scheme : Text} (h : scheme.map Char.toLower = "basic".toList) :
    scheme.length = 5 := by
  have hlength := congrArg List.length h
  rw [List.length_map] at hlength
  exact hlength

/-- A scheme does not start with white space. -/
theorem head_basic {scheme : Text} (h : scheme.map Char.toLower = "basic".toList) (rest : Text) :
    ∀ c ∈ (scheme ++ rest).head?, isLuaSpace c = false := by
  intro c hc
  obtain ⟨d, scheme, rfl⟩ := List.exists_cons_of_ne_nil (l := scheme) fun he => by simp [he] at h
  obtain rfl : d = c := by simpa using hc
  have hlower : d.toLower = 'b' := (List.cons.inj h).1
  apply Bool.eq_false_iff.mpr
  intro hspace
  simp only [isLuaSpace, List.mem_cons, List.not_mem_nil, or_false, decide_eq_true_eq] at hspace
  have hsmall : d.toNat < 65 := by omega
  rw [(toLower_eq_iff hsmall).mpr rfl] at hlower
  subst hlower
  revert hspace
  decide

theorem encodedOf_append {before scheme : Text} (hbefore : Space before)
    (hscheme : scheme.map Char.toLower = "basic".toList) (rest : Text) :
    encodedOf (before ++ (scheme ++ rest)) = afterSpaces rest := by
  simp only [encodedOf, dropWhile_append_head hbefore (head_basic hscheme rest)]
  rw [List.take_left' (length_basic hscheme), List.drop_left' (length_basic hscheme), if_pos hscheme]

theorem encodedOf_cases (h : encodedOf header = some encoded) :
    ∃ before scheme rest, header = before ++ (scheme ++ rest) ∧ Space before ∧
      scheme.map Char.toLower = "basic".toList ∧ afterSpaces rest = some encoded := by
  simp only [encodedOf, Option.ite_none_right_eq_some] at h
  refine ⟨header.takeWhile isLuaSpace, _, _, ?_, fun c hc => List.mem_takeWhile_imp hc, h.1, h.2⟩
  rw [List.take_append_drop, List.takeWhile_append_dropWhile]

/-! ## User and password -/

theorem takeWhile_colon (hu : ':' ∉ u) : (u ++ ':' :: p).takeWhile (· ≠ ':') = u :=
  takeWhile_append_head (fun c hc => decide_eq_true fun he => hu (he ▸ hc)) (by simp)

theorem dropWhile_colon (hu : ':' ∉ u) : (u ++ ':' :: p).dropWhile (· ≠ ':') = ':' :: p :=
  dropWhile_append_head (fun c hc => decide_eq_true fun he => hu (he ▸ hc)) (by simp)

/-- A text with a colon, at its first colon. -/
theorem split_colon (h : ':' ∈ text) :
    text.takeWhile (· ≠ ':') ++ ':' :: (text.dropWhile (· ≠ ':')).tail = text ∧
      ':' ∉ text.takeWhile (· ≠ ':') := by
  refine ⟨?_, fun hmem => by simpa using List.mem_takeWhile_imp hmem⟩
  obtain ⟨u, p, rfl, hu⟩ := List.eq_append_cons_of_mem h
  rw [takeWhile_colon hu, dropWhile_colon hu, List.tail_cons]

/-! ## The header -/

/-- `validate_credentials` reads the user and the password of a header that carries them. -/
theorem credentialsOf_of_carries (h : Carries base64 header u p) :
    credentialsOf base64 (some header) = .ok (u, p) := by
  obtain ⟨before, scheme, between, token, after, rfl, hbefore, hscheme, hne, hspace, htrim, hafter,
    hdecode, hu⟩ := h
  have htoken : token ≠ [] := by
    rintro rfl
    rw [base64.decode_nil] at hdecode
    simp at hdecode
  have hhead : ∀ c ∈ (token ++ after).head?, isLuaSpace c = false := by
    intro c hc
    apply head_of_trim htrim
    obtain ⟨d, token, rfl⟩ := List.exists_cons_of_ne_nil htoken
    exact hc
  have hencoded : encodedOf (before ++ (scheme ++ (between ++ (token ++ after)))) =
      some (token ++ after) := by
    rw [encodedOf_append hbefore hscheme]
    exact afterSpaces_append hne hspace (by simp [htoken]) hhead
  have hdecoded : base64.decode (trim (token ++ after)) = some (u ++ ':' :: p) := by
    have hend := trim_append (a := []) (by simp) hafter htrim
    rw [List.nil_append] at hend
    rw [show trim (token ++ after) = token from hend, hdecode]
  simp only [credentialsOf, hencoded, hdecoded]
  rw [if_pos (by simp), takeWhile_colon hu, dropWhile_colon hu, List.tail_cons]

theorem carries_of_credentialsOf (h : credentialsOf base64 (some header) = .ok (u, p)) :
    Carries base64 header u p := by
  simp only [credentialsOf] at h
  split at h
  next => cases h
  next encoded hencoded =>
    split at h
    next => cases h
    next decoded hdecoded =>
      split at h
      next hcolon =>
        cases h
        obtain ⟨before, scheme, rest, rfl, hbefore, hscheme, hafter⟩ := encodedOf_cases hencoded
        obtain hnil | ⟨between, hne, hspace, rfl⟩ := afterSpaces_cases hafter
        · rw [hnil, base64.decode_nil] at hdecoded
          cases hdecoded
          simp at hcolon
        · obtain ⟨a, b, hab, ha, hb⟩ := exists_trim isLuaSpace encoded
          refine ⟨before, scheme, between ++ a, trim encoded, b, ?_, hbefore, hscheme, by simp [hne],
            fun c hc => (List.mem_append.mp hc).elim (hspace c) (ha c), trim_trim _ _, hb, ?_,
            (split_colon hcolon).2⟩
          · have hsplit : encoded = a ++ (trim encoded ++ b) := by
              rw [← List.append_assoc]
              exact hab
            rw [List.append_assoc between a, ← hsplit]
          · rw [hdecoded, (split_colon hcolon).1]
      next => cases h

theorem credentialsOf_eq_ok :
    credentialsOf base64 (some header) = .ok (u, p) ↔ Carries base64 header u p :=
  ⟨carries_of_credentialsOf, credentialsOf_of_carries⟩

theorem Carries.not_colon (h : Carries base64 header u p) : ':' ∉ u := by
  obtain ⟨_, _, _, _, _, _, _, _, _, _, _, _, _, hu⟩ := h
  exact hu

/-- A header has one user and one password. -/
theorem exists_carried_iff (h : Carries base64 header u p) (P : Text → Text → Prop) :
    (∃ text u' p', some header = some text ∧ Carries base64 text u' p' ∧ P u' p') ↔ P u p := by
  constructor
  · rintro ⟨text, u', p', htext, h', hP⟩
    cases htext
    have he := (credentialsOf_eq_ok.mpr h).symm.trans (credentialsOf_eq_ok.mpr h')
    cases he
    exact hP
  · exact fun hP => ⟨header, u, p, rfl, h, hP⟩

/-- There is a header for each user without a colon and each password. -/
theorem exists_header (base64 : Base64) (hu : ':' ∉ u) (p : Text) :
    ∃ header, Carries base64 header u p := by
  have htrim : trim (base64.encode (u ++ ':' :: p)) = base64.encode (u ++ ':' :: p) := by
    have hspace := base64.not_space (u ++ ':' :: p)
    rw [trim, Lib.trim, dropWhile_eq_self fun c hc => hspace c (List.mem_of_mem_head? hc),
      List.rdropWhile_eq_self_iff]
    intro hne
    simp [hspace _ (List.getLast_mem hne)]
  exact ⟨_, [], "Basic".toList, [' '], _, [], rfl, by simp [Space], by decide, by simp,
    by simp [Space, isLuaSpace], htrim, by simp [Space], base64.decode_encode _, hu⟩

end

end BunkerWeb.Lua.AuthBasic
