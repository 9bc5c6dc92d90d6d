import BunkerWeb.Lib.Fields
import Mathlib.Algebra.Group.Nat.Defs
import Mathlib.Data.List.TakeWhile

/-!
# Configuration keys

Every component reads the same flat keys: `<SETTING>`, `<SETTING>_<n>` and both with a service
name and an underscore in front. The functions here are the two that the code uses to take a key
apart: `suffixRx`/`splitKey` for the number at the end and `firstService` for the name in front.
Digits are the ASCII ones, and keys hold no line break.
-/

namespace BunkerWeb

/-- `f"{name}_{rest}"`. -/
def joinKey (name rest : String) : String := name ++ "_" ++ rest

/-- The key of a row: `f"{setting}_{suffix}"`, or the setting alone for the suffix `0`. -/
def suffixedKey (setting : String) (suffix : Nat) : String :=
  if suffix = 0 then setting else joinKey setting (toString suffix)

/-- `SUFFIX_RX.search`, `(?P<setting>.+)_(?P<suffix>\d+)$`: the two groups. -/
def suffixRx (key : String) : Option (String × String) :=
  let rev := key.toList.reverse
  match rev.dropWhile Char.isDigit with
  | '_' :: pre =>
    if pre = [] ∨ rev.takeWhile Char.isDigit = [] then none
    else some (String.ofList pre.reverse, String.ofList (rev.takeWhile Char.isDigit).reverse)
  | _ => none

/-- `int(digits)`. -/
def parseInt (digits : String) : Nat := Nat.ofDigitChars 10 digits.toList 0

/-- `suffix = int(key.split("_")[-1])` and `key = key[: -len(str(suffix)) - 1]` for a key that
`SUFFIX_RX` finds something in; what is cut off has the length of the number as Python writes it,
not of the number as the key has it. -/
def splitKey (key : String) : String × Nat :=
  match suffixRx key with
  | none => (key, 0)
  | some (_, digits) =>
    let suffix := parseInt digits
    (String.ofList (key.toList.take (key.length - ((toString suffix).length + 1))), suffix)

/-- The loop over `key.find("_", underscore_pos)`: `pre` has been passed, `rest` is to come. -/
def scanUnderscores (services : List String) : List Char → List Char → Option (String × String)
  | _, [] => none
  | pre, c :: rest =>
    if c = '_' ∧ String.ofList pre ∈ services then some (String.ofList pre, String.ofList rest)
    else scanUnderscores services (pre ++ [c]) rest

/-- The first underscore of the key that has the name of a service before it, as the name and
what comes after. -/
def firstService (services : List String) (key : String) : Option (String × String) :=
  scanUnderscores services [] key.toList

/-- The loop of `str.split()`: `word` is being read. -/
def splitWords : List Char → List Char → List String
  | word, [] => if word = [] then [] else [String.ofList word]
  | word, c :: rest =>
    if c.isWhitespace then
      (if word = [] then [] else [String.ofList word]) ++ splitWords [] rest
    else splitWords (word ++ [c]) rest

/-- `text.split()`. -/
def words (text : String) : List String := splitWords [] text.toList

/-- `" ".join(names)`. -/
def joinWords : List String → String
  | [] => ""
  | [name] => name
  | name :: names => name ++ " " ++ joinWords names

/-! ## Joining -/

@[simp] theorem toList_joinKey (name rest : String) :
    (joinKey name rest).toList = name.toList ++ '_' :: rest.toList := by
  simp [joinKey, String.toList_append]

theorem joinKey_assoc (a b c : String) : joinKey (joinKey a b) c = joinKey a (joinKey b c) := by
  simp [joinKey, String.append_assoc]

/-- Two cuts of a key behind names of one length are the same cut. -/
theorem joinKey_inj_of_length {a a' r r' : String} (h : joinKey a r = joinKey a' r')
    (hlen : a.length = a'.length) : a = a' ∧ r = r' := by
  have hl := congrArg String.toList h
  rw [toList_joinKey, toList_joinKey] at hl
  obtain ⟨h1, h2⟩ := List.append_inj hl (by rwa [String.length_toList, String.length_toList])
  exact ⟨String.toList_injective h1, String.toList_injective (List.cons.inj h2).2⟩

theorem joinKey_right_inj {a r r' : String} : joinKey a r = joinKey a r' ↔ r = r' :=
  ⟨fun h => (joinKey_inj_of_length h rfl).2, fun h => h ▸ rfl⟩

theorem joinKey_ne_empty (a r : String) : joinKey a r ≠ "" := by
  intro h
  have := congrArg String.toList h
  simp at this

@[simp] theorem suffixedKey_zero (setting : String) : suffixedKey setting 0 = setting := rfl

theorem suffixedKey_of_pos (setting : String) {suffix : Nat} (h : 0 < suffix) :
    suffixedKey setting suffix = joinKey setting (toString suffix) := if_neg (by omega)

/-! ## The number at the end -/

/-- The digits of a number as the code writes it. -/
theorem isDigit_toString {n : Nat} : ∀ c ∈ (toString n).toList, c.isDigit = true := by
  intro c hc
  rw [show toString n = Nat.repr n from rfl, Nat.toList_repr] at hc
  exact Nat.isDigit_of_mem_toDigits (by decide) (by decide) hc

theorem toString_ne_empty (n : Nat) : toString n ≠ "" := Nat.repr_ne_empty

theorem parseInt_toString (n : Nat) : parseInt (toString n) = n := by
  rw [parseInt, show toString n = Nat.repr n from rfl, Nat.toList_repr]
  exact Nat.ofDigitChars_toDigits (by decide) (by decide)

/-- The text is a number: digits, at least one. -/
def IsNumber (digits : String) : Prop := digits ≠ "" ∧ ∀ c ∈ digits.toList, c.isDigit = true

theorem isNumber_toString (n : Nat) : IsNumber (toString n) :=
  ⟨toString_ne_empty n, isDigit_toString⟩

/-- What `SUFFIX_RX` finds: the last underscore, with a number behind it and something before. -/
theorem suffixRx_eq_some {key base digits : String} :
    suffixRx key = some (base, digits) ↔
      key = joinKey base digits ∧ base ≠ "" ∧ IsNumber digits := by
  constructor
  · intro h
    simp only [suffixRx] at h
    have hsplit := List.takeWhile_append_dropWhile (p := Char.isDigit) (l := key.toList.reverse)
    split at h
    · rename_i pre hpre
      rw [hpre] at hsplit
      split at h
      · cases h
      · rename_i hne
        rw [not_or] at hne
        obtain ⟨rfl, rfl⟩ := Prod.mk.inj (Option.some.inj h)
        refine ⟨String.toList_injective ?_, ?_, ?_, ?_⟩
        · rw [toList_joinKey, String.toList_ofList, String.toList_ofList]
          simpa using (congrArg List.reverse hsplit).symm
        · intro he
          have := congrArg String.toList he
          exact hne.1 (by simpa using this)
        · intro he
          have := congrArg String.toList he
          exact hne.2 (by simpa using this)
        · intro c hc
          rw [String.toList_ofList, List.mem_reverse] at hc
          exact List.mem_takeWhile_imp hc
    · cases h
  · rintro ⟨rfl, hbase, hne, hdig⟩
    have hrev : (joinKey base digits).toList.reverse =
        digits.toList.reverse ++ '_' :: base.toList.reverse := by simp
    have hdig' : ∀ c ∈ digits.toList.reverse, c.isDigit = true := fun c hc =>
      hdig c (List.mem_reverse.mp hc)
    have hdrop : (joinKey base digits).toList.reverse.dropWhile Char.isDigit =
        '_' :: base.toList.reverse := by
      rw [hrev, List.dropWhile_append_of_pos hdig']; rfl
    have htake : (joinKey base digits).toList.reverse.takeWhile Char.isDigit =
        digits.toList.reverse := by
      rw [hrev, List.takeWhile_append_of_pos hdig']; simp
    have hb : base.toList ≠ [] := fun h => hbase (String.toList_injective h)
    have hd : digits.toList ≠ [] := fun h => hne (String.toList_injective h)
    simp only [suffixRx, hdrop, htake]
    simp [hb, hd]

theorem splitKey_of_none {key : String} (h : suffixRx key = none) : splitKey key = (key, 0) := by
  simp only [splitKey, h]

/-- The number as the code writes it has the length of the digits that the key has. -/
def Canonical (digits : String) : Prop := (toString (parseInt digits)).length = digits.length

instance (digits : String) : Decidable (Canonical digits) := inferInstanceAs (Decidable (_ = _))

theorem canonical_toString (n : Nat) : Canonical (toString n) := by
  rw [Canonical, parseInt_toString]

/-- Digits of a number are not more than the value needs. -/
theorem ofDigitChars_lt {l : List Char} (h : ∀ c ∈ l, c.isDigit = true) (init : Nat) :
    Nat.ofDigitChars 10 l init < (init + 1) * 10 ^ l.length := by
  induction l generalizing init with
  | nil => simp
  | cons c l ih =>
    obtain ⟨hc, hl⟩ := List.forall_mem_cons.mp h
    have hlt : c.toNat - '0'.toNat < 10 := by
      simp only [Char.isDigit, Bool.and_eq_true, decide_eq_true_eq] at hc
      have h9 : c.toNat ≤ 57 := hc.2
      have h0 : '0'.toNat = 48 := rfl
      omega
    rw [Nat.ofDigitChars_cons, List.length_cons, Nat.pow_succ]
    refine Nat.lt_of_lt_of_le (ih hl _) ?_
    rw [Nat.mul_comm (10 ^ l.length) 10, ← Nat.mul_assoc]
    exact Nat.mul_le_mul_right _ (by omega)

theorem length_toString_parseInt {digits : String} (hd : IsNumber digits) :
    (toString (parseInt digits)).length ≤ digits.length := by
  have hpos : 0 < digits.length := by
    rw [← String.length_toList]
    exact List.length_pos_iff.mpr fun he => hd.1 (String.toList_injective he)
  show (Nat.repr _).length ≤ _
  rw [Nat.length_repr_le_iff hpos, ← String.length_toList]
  simpa [parseInt] using ofDigitChars_lt hd.2 0

theorem splitKey_joinKey {base digits : String} (hbase : base ≠ "") (hd : IsNumber digits) :
    splitKey (joinKey base digits) =
      (String.ofList ((joinKey base digits).toList.take ((joinKey base digits).length -
        ((toString (parseInt digits)).length + 1))), parseInt digits) := by
  simp only [splitKey, suffixRx_eq_some.mpr ⟨rfl, hbase, hd⟩]

theorem splitKey_of_canonical {base digits : String} (hbase : base ≠ "") (hd : IsNumber digits)
    (hc : Canonical digits) : splitKey (joinKey base digits) = (base, parseInt digits) := by
  have hlen : (joinKey base digits).length - ((toString (parseInt digits)).length + 1) =
      base.toList.length := by
    rw [hc, ← String.length_toList, toList_joinKey, List.length_append, List.length_cons,
      String.length_toList, String.length_toList]
    omega
  rw [splitKey_joinKey hbase hd, hlen, toList_joinKey, List.take_left, String.ofList_toList]

/-- A numbered key is taken apart as it was put together. -/
theorem splitKey_toString {base : String} (hbase : base ≠ "") (n : Nat) :
    splitKey (joinKey base (toString n)) = (base, n) := by
  rw [splitKey_of_canonical hbase (isNumber_toString n) (canonical_toString n), parseInt_toString]

/-- The name that `splitKey` leaves is the one in front of the number only if the number is
written as the code writes it. -/
theorem splitKey_fst_iff {base digits : String} (hbase : base ≠ "") (hd : IsNumber digits) :
    (splitKey (joinKey base digits)).1 = base ↔ Canonical digits := by
  refine ⟨fun h => ?_, fun h => by rw [splitKey_of_canonical hbase hd h]⟩
  rw [splitKey_joinKey hbase hd] at h
  have hlen := congrArg String.length h
  simp only [String.length_ofList, List.length_take, String.length_toList] at hlen
  have hkey : (joinKey base digits).length = base.length + 1 + digits.length := by
    rw [← String.length_toList, toList_joinKey, List.length_append, List.length_cons,
      String.length_toList, String.length_toList]
    omega
  have hpos : 0 < base.length := by
    rw [← String.length_toList]
    exact List.length_pos_iff.mpr fun he => hbase (String.toList_injective he)
  unfold Canonical
  omega

/-- Cutting a number off changes the key. -/
theorem splitKey_fst_ne {key : String} (h : suffixRx key ≠ none) : (splitKey key).1 ≠ key := by
  obtain ⟨⟨base, digits⟩, hrx⟩ := Option.ne_none_iff_exists'.mp h
  obtain ⟨rfl, hbase, hd⟩ := suffixRx_eq_some.mp hrx
  intro hk
  rw [splitKey_joinKey hbase hd] at hk
  have hlen := congrArg String.length hk
  simp only [String.length_ofList, List.length_take, String.length_toList] at hlen
  have hpos : 0 < (joinKey base digits).length := by
    rw [← String.length_toList, toList_joinKey, List.length_append, List.length_cons]
    omega
  omega

/-- A key that is put together from an unnumbered setting and a suffix is taken apart into them. -/
theorem splitKey_suffixedKey {setting : String} (hs : setting ≠ "")
    (hrx : suffixRx setting = none) (suffix : Nat) :
    splitKey (suffixedKey setting suffix) = (setting, suffix) := by
  rcases Nat.eq_zero_or_pos suffix with rfl | hpos
  · exact splitKey_of_none hrx
  · rw [suffixedKey_of_pos _ hpos, splitKey_toString hs]

theorem suffixedKey_inj {s s' : String} {n n' : Nat} (hs : s ≠ "") (hs' : s' ≠ "")
    (hrx : suffixRx s = none) (hrx' : suffixRx s' = none)
    (h : suffixedKey s n = suffixedKey s' n') : s = s' ∧ n = n' := by
  have := congrArg splitKey h
  rw [splitKey_suffixedKey hs hrx, splitKey_suffixedKey hs' hrx'] at this
  exact Prod.mk.inj this

/-- A key that has no number is only that of a setting without one. -/
theorem suffixedKey_eq {setting key : String} {suffix : Nat} (hs : setting ≠ "")
    (hrx : suffixRx setting = none) (hkey : suffixRx key = none)
    (h : suffixedKey setting suffix = key) : setting = key ∧ suffix = 0 := by
  have := congrArg splitKey h
  rw [splitKey_suffixedKey hs hrx, splitKey_of_none hkey] at this
  exact Prod.mk.inj this

/-! ## The name in front -/

/-- A name without an underscore ends where the key has its first one. -/
theorem joinKey_inj {a a' r r' : String} (ha : '_' ∉ a.toList) (ha' : '_' ∉ a'.toList)
    (h : joinKey a r = joinKey a' r') : a = a' ∧ r = r' := by
  have hl := congrArg String.toList h
  rw [toList_joinKey, toList_joinKey] at hl
  obtain ⟨hname, hrest⟩ := Lib.append_sep_inj ha ha' hl
  exact ⟨String.toList_injective hname, String.toList_injective hrest⟩

/-- Two cuts of a key at its last underscore are the same cut. -/
theorem joinKey_inj_of_last {a a' r r' : String} (hr : '_' ∉ r.toList) (hr' : '_' ∉ r'.toList)
    (h : joinKey a r = joinKey a' r') : a = a' ∧ r = r' := by
  have hl := congrArg (fun s => s.toList.reverse) h
  simp only [toList_joinKey, List.reverse_append, List.reverse_cons, List.append_assoc,
    List.singleton_append] at hl
  have hrev : joinKey (String.ofList r.toList.reverse) (String.ofList a.toList.reverse) =
      joinKey (String.ofList r'.toList.reverse) (String.ofList a'.toList.reverse) :=
    String.toList_injective (by simpa using hl)
  obtain ⟨h1, h2⟩ := joinKey_inj (by simpa using hr) (by simpa using hr') hrev
  have hcancel : ∀ {s s' : String},
      String.ofList s.toList.reverse = String.ofList s'.toList.reverse → s = s' :=
    fun hs => String.toList_injective (by simpa using congrArg (fun s => s.toList.reverse) hs)
  exact ⟨hcancel h2, hcancel h1⟩


/-- A setting whose name is not that of the service, nor starts with it and an underscore, has no
key with the service in front. -/
theorem joinKey_ne_joinKey {setting service : String} (hservice : '_' ∉ service.toList)
    (hne : setting ≠ service) (hpre : ∀ r, setting ≠ joinKey service r) (t r : String) :
    joinKey setting t ≠ joinKey service r := by
  intro h
  by_cases hs : '_' ∈ setting.toList
  · -- The first underscore of the setting is also that of the key.
    obtain ⟨a, b, hab, hnot⟩ := List.eq_append_cons_of_mem hs
    have hset : setting = joinKey (String.ofList a) (String.ofList b) :=
      String.toList_injective (by simpa using hab)
    rw [hset, joinKey_assoc] at h
    obtain ⟨rfl, -⟩ := joinKey_inj (by simpa using hnot) hservice h
    exact hpre _ hset
  · exact hne (joinKey_inj hs hservice h).1

theorem suffixedKey_ne_joinKey {setting service : String} (hservice : '_' ∉ service.toList)
    (hne : setting ≠ service) (hpre : ∀ r, setting ≠ joinKey service r) (suffix : Nat)
    (r : String) : suffixedKey setting suffix ≠ joinKey service r := by
  rcases Nat.eq_zero_or_pos suffix with rfl | hpos
  · exact hpre r
  · rw [suffixedKey_of_pos _ hpos]
    exact joinKey_ne_joinKey hservice hne hpre _ r

/-- What is left of a key without its number starts with the name in front. -/
theorem splitKey_fst_joinKey {service : String} (hservice : '_' ∉ service.toList) (r : String) :
    (splitKey (joinKey service r)).1 = service ∨
      ∃ rest, (splitKey (joinKey service r)).1 = joinKey service rest := by
  cases hrx : suffixRx (joinKey service r) with
  | none => exact .inr ⟨r, by rw [splitKey_of_none hrx]⟩
  | some e =>
    obtain ⟨base, digits⟩ := e
    obtain ⟨hkey, hbase, hd⟩ := suffixRx_eq_some.mp hrx
    have hlist : service.toList ++ '_' :: r.toList = base.toList ++ '_' :: digits.toList := by
      rw [← toList_joinKey, ← toList_joinKey, hkey]
    -- The name ends before the underscore in front of the number, or there.
    have hle : service.length ≤ base.length := by
      rw [← String.length_toList, ← String.length_toList]
      rcases List.append_eq_append_iff.mp hlist with ⟨a, ha, -⟩ | ⟨a, ha, hrest⟩
      · rw [ha]
        simp
      · cases a with
        | nil => simp [ha]
        | cons c a =>
          obtain ⟨rfl, -⟩ := List.cons.inj hrest
          exact absurd (by rw [ha]; simp) hservice
    have hlen : (joinKey base digits).length = base.length + 1 + digits.length := by
      rw [← String.length_toList, toList_joinKey, List.length_append, List.length_cons,
        String.length_toList, String.length_toList]
      omega
    have hdigits := length_toString_parseInt hd
    obtain ⟨m, hm⟩ : ∃ m, (joinKey base digits).length - ((toString (parseInt digits)).length + 1) =
        service.toList.length + m :=
      ⟨_, (Nat.add_sub_cancel' (by rw [String.length_toList]; omega)).symm⟩
    rw [hkey, splitKey_joinKey hbase hd, hm, ← hkey, toList_joinKey, List.take_length_add_append]
    cases m with
    | zero => exact .inl (by simp)
    | succ m =>
      refine .inr ⟨String.ofList (r.toList.take m), ?_⟩
      apply String.toList_injective
      simp [toList_joinKey]

private theorem scanUnderscores_eq_some {services : List String} {pre rest : List Char}
    {t r : String} :
    scanUnderscores services pre rest = some (t, r) ↔
      ∃ mid, t.toList = pre ++ mid ∧ rest = mid ++ '_' :: r.toList ∧ t ∈ services ∧
        ∀ mid' r', rest = mid' ++ '_' :: r' → String.ofList (pre ++ mid') ∈ services →
          mid.length ≤ mid'.length := by
  induction rest generalizing pre with
  | nil => simp [scanUnderscores]
  | cons c rest ih =>
    simp only [scanUnderscores]
    split
    · rename_i hc
      obtain ⟨rfl, hmem⟩ := hc
      constructor
      · intro h
        obtain ⟨rfl, rfl⟩ := Prod.mk.inj (Option.some.inj h)
        exact ⟨[], by simp, by simp, hmem, fun _ _ _ _ => Nat.zero_le _⟩
      · rintro ⟨mid, ht, hr, -, hmin⟩
        have h0 := hmin [] rest rfl (by simpa using hmem)
        obtain rfl : mid = [] := List.eq_nil_of_length_eq_zero (Nat.le_zero.mp h0)
        rw [List.append_nil] at ht
        obtain ⟨-, hr⟩ := List.cons.inj hr
        rw [← ht, hr, String.ofList_toList, String.ofList_toList]
    · rename_i hc
      rw [ih]
      constructor
      · rintro ⟨mid, ht, hr, hmem, hmin⟩
        refine ⟨c :: mid, by simp [ht], by simp [hr], hmem, fun mid' r' h' hmem' => ?_⟩
        rcases mid' with _ | ⟨c', mid'⟩
        · obtain ⟨rfl, -⟩ := List.cons.inj h'
          exact absurd ⟨rfl, by simpa using hmem'⟩ hc
        · obtain ⟨rfl, htail⟩ := List.cons.inj h'
          have := hmin mid' r' htail (by simpa using hmem')
          simpa using this
      · rintro ⟨mid, ht, hr, hmem, hmin⟩
        rcases mid with _ | ⟨c', mid⟩
        · obtain ⟨rfl, -⟩ := List.cons.inj hr
          rw [List.append_nil] at ht
          exact absurd ⟨rfl, by rw [← ht, String.ofList_toList]; exact hmem⟩ hc
        · obtain ⟨rfl, htail⟩ := List.cons.inj hr
          refine ⟨mid, by simp [ht], htail, hmem, fun mid' r' h' hmem' => ?_⟩
          have := hmin (c :: mid') r' (by simp [h']) (by simpa using hmem')
          simpa using this

/-- The scan finds the shortest name. -/
theorem firstService_eq_some {services : List String} {key t r : String} :
    firstService services key = some (t, r) ↔
      t ∈ services ∧ key = joinKey t r ∧
        ∀ t' ∈ services, ∀ r', key = joinKey t' r' → t.length ≤ t'.length := by
  rw [firstService, scanUnderscores_eq_some]
  constructor
  · rintro ⟨mid, ht, hr, hmem, hmin⟩
    rw [List.nil_append] at ht
    subst ht
    refine ⟨hmem, String.toList_injective (by rw [hr, toList_joinKey]), fun t' ht' r' h' => ?_⟩
    have := hmin t'.toList r'.toList (by rw [h', toList_joinKey]) (by simpa using ht')
    rwa [String.length_toList, String.length_toList] at this
  · rintro ⟨hmem, rfl, hmin⟩
    refine ⟨t.toList, rfl, toList_joinKey t r, hmem, fun mid' r' h' hmem' => ?_⟩
    have := hmin _ hmem' (String.ofList r') (String.toList_injective (by rw [h']; simp))
    rwa [String.length_ofList, ← String.length_toList] at this

private theorem scanUnderscores_eq_none {services : List String} {pre rest : List Char}
    (h : scanUnderscores services pre rest = none) {mid r : List Char}
    (hr : rest = mid ++ '_' :: r) : String.ofList (pre ++ mid) ∉ services := by
  induction rest generalizing pre mid with
  | nil => simp at hr
  | cons c rest ih =>
    simp only [scanUnderscores] at h
    split at h
    · cases h
    · rename_i hc
      rcases mid with _ | ⟨c', mid⟩
      · obtain ⟨rfl, -⟩ := List.cons.inj hr
        rw [List.append_nil]
        exact fun hmem => hc ⟨rfl, hmem⟩
      · obtain ⟨rfl, htail⟩ := List.cons.inj hr
        have := ih h htail
        rwa [List.append_assoc] at this

theorem firstService_eq_none {services : List String} {key : String} :
    firstService services key = none ↔ ∀ t ∈ services, ∀ r, key ≠ joinKey t r := by
  constructor
  · rintro h t ht r rfl
    have := scanUnderscores_eq_none h (toList_joinKey t r)
    rw [List.nil_append, String.ofList_toList] at this
    exact this ht
  · intro h
    cases hs : firstService services key with
    | none => rfl
    | some e =>
      obtain ⟨hmem, hk, -⟩ := firstService_eq_some.mp hs
      exact absurd hk (h _ hmem _)

/-! ## Words -/

/-- The text is one word. -/
def IsWord (name : String) : Prop := name ≠ "" ∧ ∀ c ∈ name.toList, c.isWhitespace = false

instance (name : String) : Decidable (IsWord name) :=
  -- The other instance there may be goes through all characters.
  @instDecidableAnd _ _ inferInstance (List.decidableBAll _ _)

private theorem splitWords_append {w : List Char} (hw : ∀ c ∈ w, c.isWhitespace = false)
    (word rest : List Char) : splitWords word (w ++ rest) = splitWords (word ++ w) rest := by
  induction w generalizing word with
  | nil => simp
  | cons c w ih =>
    have hc : c.isWhitespace = false := hw c List.mem_cons_self
    rw [List.cons_append, splitWords, if_neg (by simp [hc]),
      ih (fun x hx => hw x (List.mem_cons_of_mem _ hx)), List.append_assoc]
    rfl

theorem isWord_of_mem_words {text name : String} (h : name ∈ words text) : IsWord name := by
  have hgen : ∀ (rest word : List Char), (∀ c ∈ word, c.isWhitespace = false) →
      ∀ name ∈ splitWords word rest, IsWord name := by
    have hword : ∀ (word : List Char), (∀ c ∈ word, c.isWhitespace = false) →
        ∀ name ∈ (if word = [] then [] else [String.ofList word]), IsWord name := by
      intro word hclean name hmem
      split at hmem
      · cases hmem
      · rename_i hne
        obtain rfl := List.mem_singleton.mp hmem
        exact ⟨fun he => hne (by simpa using congrArg String.toList he), by simpa using hclean⟩
    intro rest
    induction rest with
    | nil => exact hword
    | cons c rest ih =>
      intro word hclean name hmem
      rw [splitWords] at hmem
      split at hmem
      · rcases List.mem_append.mp hmem with hmem | hmem
        · exact hword word hclean name hmem
        · exact ih [] (by simp) name hmem
      · rename_i hc
        refine ih _ (fun x hx => ?_) name hmem
        rcases List.mem_append.mp hx with hx | hx
        · exact hclean x hx
        · rw [List.mem_singleton.mp hx]; simpa using hc
  exact hgen text.toList [] (by simp) name h

/-- Names that are words come back from the text that joins them. -/
theorem words_joinWords {names : List String} (h : ∀ name ∈ names, IsWord name) :
    words (joinWords names) = names := by
  induction names with
  | nil => rfl
  | cons name names ih =>
    obtain ⟨hne, hclean⟩ := h name List.mem_cons_self
    have hl : name.toList ≠ [] := fun he => hne (String.toList_injective he)
    cases names with
    | nil =>
      have := splitWords_append hclean [] []
      rw [List.append_nil] at this
      rw [joinWords, words, this]
      simp [splitWords, hl]
    | cons name' names =>
      have hrest := ih fun x hx => h x (List.mem_cons_of_mem _ hx)
      have htext : (joinWords (name :: name' :: names)).toList =
          name.toList ++ ' ' :: (joinWords (name' :: names)).toList := by
        rw [joinWords, String.toList_append, String.toList_append, List.append_assoc]
        · rfl
        · simp
      rw [words, htext, splitWords_append hclean, List.nil_append, splitWords,
        if_pos (by decide), if_neg hl, String.ofList_toList]
      rw [words] at hrest
      rw [hrest]
      rfl

end BunkerWeb
