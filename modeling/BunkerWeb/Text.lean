import Mathlib.Data.List.DropRight

/-!
# Python's texts

The character classes of `str.splitlines` and `str.isspace`, and `str.strip`, on lists of
characters.
-/

namespace BunkerWeb

/-- Texts are compared as lists of characters; the instance that every module finds. -/
instance lawfulText : LawfulBEq (List Char) := inferInstance

/-- The characters that `splitlines` breaks a text at. -/
def lineBoundary (c : Char) : Bool :=
  c.toNat ∈ [0x0A, 0x0B, 0x0C, 0x0D, 0x1C, 0x1D, 0x1E, 0x85, 0x2028, 0x2029]

/-- `str.isspace` of a character. -/
def isSpace (c : Char) : Bool :=
  lineBoundary c || c.toNat ∈ [0x09, 0x1F, 0x20, 0xA0, 0x1680, 0x202F, 0x205F, 0x3000] ||
    (0x2000 ≤ c.toNat && c.toNat ≤ 0x200A)

/-- `str.strip`, on characters. -/
def stripChars (l : List Char) : List Char :=
  (l.dropWhile isSpace).rdropWhile isSpace

/-- `str.strip`. -/
def stripText (text : String) : String := String.ofList (stripChars text.toList)

section

variable {l : List Char}

theorem stripChars_eq_self (hhead : ∀ c ∈ l.head?, isSpace c = false)
    (hlast : ∀ c ∈ l.getLast?, isSpace c = false) : stripChars l = l := by
  have hfront : l.dropWhile isSpace = l := by
    cases l with
    | nil => rfl
    | cons c l => rw [List.dropWhile_cons_of_neg (by simpa using hhead c rfl)]
  rw [stripChars, hfront, List.rdropWhile_eq_self_iff]
  exact fun hl => by simpa using hlast _ (List.getLast?_eq_getLast_of_ne_nil hl)

theorem mem_of_mem_stripChars {c : Char} (h : c ∈ stripChars l) : c ∈ l :=
  (List.dropWhile_sublist _).subset ((List.rdropWhile_prefix _ _).subset h)

theorem head_stripChars : ∀ c ∈ (stripChars l).head?, isSpace c = false := by
  intro c hc
  obtain ⟨s, hs⟩ := List.rdropWhile_prefix isSpace (l.dropWhile isSpace)
  have hfront := List.head?_dropWhile_not isSpace l
  have hhead : (l.dropWhile isSpace).head? = some c := by
    rw [← hs, List.head?_append, show (List.rdropWhile isSpace _).head? = some c from hc]
    rfl
  rw [hhead] at hfront
  exact hfront

theorem getLast_stripChars : ∀ c ∈ (stripChars l).getLast?, isSpace c = false := by
  intro c hc
  have hne : stripChars l ≠ [] := fun he => by simp [he] at hc
  have hlast := List.rdropWhile_last_not isSpace (l.dropWhile isSpace) hne
  rw [List.getLast?_eq_getLast_of_ne_nil hne] at hc
  cases hc
  exact Bool.eq_false_iff.mpr hlast

/-- A space at the end. -/
theorem stripChars_concat {c : Char} (hc : isSpace c = true) (l : List Char) :
    stripChars (l ++ [c]) = stripChars l := by
  unfold stripChars
  rw [List.dropWhile_append]
  split
  next h => simp [List.isEmpty_iff.mp h, hc]
  next => rw [List.rdropWhile_concat_pos _ _ _ hc]

theorem stripChars_eq (h : ∀ c ∈ l, isSpace c = false) : stripChars l = l :=
  stripChars_eq_self (fun c hc => h c (List.mem_of_mem_head? hc))
    fun c hc => h c (List.mem_of_mem_getLast? hc)

end

/-! ## Lower case -/

theorem toLower_cases (c : Char) :
    c.toLower = c ∨ 65 ≤ c.toNat ∧ c.toNat ≤ 90 ∧ c.toLower.toNat = c.toNat + 32 := by
  by_cases h : c.val ≥ 'A'.val ∧ c.val ≤ 'Z'.val
  · have hle : 65 ≤ c.toNat ∧ c.toNat ≤ 90 := h
    have hlower : c.toLower.toNat = (c.val + 32).toNat := congrArg Char.toNat (dif_pos h)
    refine .inr ⟨hle.1, hle.2, ?_⟩
    rw [hlower, UInt32.toNat_add]
    show (c.toNat + 32) % 2 ^ 32 = _
    omega
  · exact .inl (dif_neg h)

@[simp] theorem toLower_toLower (c : Char) : c.toLower.toLower = c.toLower := by
  rcases toLower_cases c with h | ⟨h65, h90, h⟩
  · rw [h, h]
  · rcases toLower_cases c.toLower with h' | h'
    · exact h'
    · omega

theorem toLower_eq_iff {c d : Char} (hd : d.toNat < 65) : c.toLower = d ↔ c = d := by
  rcases toLower_cases c with h | ⟨h65, h90, h⟩
  · rw [h]
  · constructor
    · rintro rfl
      omega
    · rintro rfl
      omega

theorem isSpace_eq_false {c : Char} (h : 33 ≤ c.toNat) (h' : c.toNat ≤ 126) :
    isSpace c = false := by
  simp [isSpace, lineBoundary]
  omega

@[simp] theorem isSpace_toLower (c : Char) : isSpace c.toLower = isSpace c := by
  rcases toLower_cases c with h | ⟨h65, h90, h⟩
  · rw [h]
  · rw [isSpace_eq_false (by omega) (by omega), isSpace_eq_false (by omega) (by omega)]

end BunkerWeb
