import BunkerWeb.Attribution
import BunkerWeb.Lib.Dict
import BunkerWeb.Lib.Pooling

/-!
# Merging services with one name (`autoconf/controllers/KubernetesController.py`)

- **Places** (`parseKey`): the group, the number and the base setting that a key stands for. `rfind`
  and `isdigit` find what `suffixRx` finds.
- **Slots** (`extractSlots`, `writeSlots`): the settings of one number of one group, taken out of a
  service and written under new numbers.
- **Merging** (`mergeGroup`, `mergeServicesByServerName`): the services of one primary name.

What is only logged is left out.
-/

namespace BunkerWeb.Autoconf

open Lib

/-- A service as a controller returns it. -/
abbrev Service := Dict String String

/-- `_build_multiple_groups_lookup`. -/
def buildMultipleGroupsLookup (settings : List Setting) : Dict String String :=
  Dict.setAll ∅ (settings.filterMap fun s =>
    (s.multiple.filter (· ≠ "")).map fun group => (s.id, group))

/-! ## Slots -/

/-- The value of a setting in a slot, and whether its key had the server name in front. -/
structure Given where
  value : String
  wasPrefixed : Bool
  deriving DecidableEq, Repr

/-- The settings of one slot. -/
abbrev Slot := Dict String Given

/-- The slots of a service: group, number, slot. -/
abbrev Slots := Dict String (Dict Nat Slot)

/-- What a key stands for. -/
structure Place where
  group : String
  num : Nat
  base : String
  wasPrefixed : Bool
  deriving DecidableEq, Repr

/-- The body of the loop of `_extract_slots`. -/
def parseKey (lookup : Dict String String) (primary key : String) : Option Place :=
  let part := ((stripServer primary key).map (·, true)).getD (key, false)
  match lookup.lookup part.1 with
  | some group => some ⟨group, 0, part.1, part.2⟩
  | none =>
    match suffixRx part.1 with
    | none => none
    | some (base, digits) =>
      (lookup.lookup base).map fun group => ⟨group, parseInt digits, base, part.2⟩

/-- `slots.setdefault(group_id, {}).setdefault(slot_num, {})[base_setting] = …`. -/
def Slots.add (slots : Slots) (p : Place) (value : String) : Slots :=
  let numbered := (slots.lookup p.group).getD ∅
  let slot := (numbered.lookup p.num).getD ∅
  slots.insert p.group (numbered.insert p.num (slot.insert p.base ⟨value, p.wasPrefixed⟩))

/-- The keys that stand for something, with their values. -/
def slotEntries (lookup : Dict String String) (primary : String) (service : Service) :
    List ((String × String) × Place) :=
  service.items.filterMap fun e => (parseKey lookup primary e.1).map fun p => (e, p)

/-- `_extract_slots`: the slots, and what it leaves of the service. -/
def extractSlots (lookup : Dict String String) (primary : String) (service : Service) :
    Slots × Service :=
  let entries := slotEntries lookup primary service
  (entries.foldl (fun slots e => slots.add e.2 e.1.2) ∅,
    (entries.map (·.1.1)).foldl (fun service key => service.erase key) service)

/-- The key of a setting under a new number. -/
def newKey (primary base : String) (idx : Nat) (wasPrefixed : Bool) : String :=
  let newSetting := suffixedKey base idx
  if wasPrefixed then joinKey primary newSetting else newSetting

/-- `_write_slots`. -/
def writeSlots (start : Nat) (primary : String) (service : Service)
    (allSlots : Dict String (List Slot)) : Service :=
  service.setAll (allSlots.items.flatMap fun group =>
    (group.2.zipIdx start).flatMap fun slot =>
      slot.1.items.map fun e => (newKey primary e.1 slot.2 e.2.wasPrefixed, e.2.value))

/-- `tuple(sorted((k, v[1]) for k, v in slot.items()))`. -/
def slotKey (slot : Slot) : List (String × String) :=
  sortBy pairCmp id (slot.items.map fun e => (e.1, e.2.value))

/-! ## Merging -/

/-- `_OR_MERGE_KEYS`. -/
def orMergeKeys : List String := ["USE_REVERSE_PROXY", "USE_GRPC", "USE_CUSTOM_SSL"]

/-- `svc.get("SERVER_NAME", "").split(" ")[0]`. -/
def primaryOf (service : Service) : String :=
  String.ofList (((service.lookup "SERVER_NAME").getD "").toList.takeWhile (· ≠ ' '))

/-- The primary names in the order in which they are seen. -/
def orderOf (services : List Service) : List String :=
  services.foldl (fun order svc =>
    if primaryOf svc ∈ order then order else order ++ [primaryOf svc]) []

/-- The service is not skipped for its namespace; an empty one counts as none. -/
def sameOwner (owner ns : Option String) : Bool :=
  if owner.any (· ≠ "") || ns.any (· ≠ "") then ns == owner else true

/-- The key or the key with the server name in front is set to `yes`, in any case. -/
def saysYes (primary : String) (service : Service) (key : String) : Bool :=
  (service.lookup key).any (·.toLower = "yes") ||
    (service.lookup (joinKey primary key)).any (·.toLower = "yes")

/-- The scalar is carried over. -/
def carried (primary key : String) : Bool :=
  if (key ∉ orMergeKeys ∧ (stripServer primary key).isNone) ∨ key ∈ ["SERVER_NAME", "NAMESPACE"] then
    true
  else (stripServer primary key).any (· ∉ orMergeKeys)

/-- The variables of the loop over the services of a name. -/
structure Merging where
  merged : Service
  orMergeAccum : String → Bool
  collectedSlots : Dict String (List Slot)

/-- The slots in the order of their numbers. -/
def inOrder (numbered : Dict Nat Slot) : List Slot :=
  (sortBy compare Prod.fst numbered.items).map Prod.snd

/-- The body of the loop over the services of a name. -/
def mergeStep (lookup : Dict String String) (primary : String) (owner : Option String)
    (st : Merging) (svc : Service) : Merging :=
  if sameOwner owner (svc.lookup "NAMESPACE") then
    let (slots, svc) := extractSlots lookup primary svc
    { merged := st.merged.setAll (svc.items.filter fun e => carried primary e.1)
      orMergeAccum := fun key =>
        st.orMergeAccum key || decide (key ∈ orMergeKeys) && saysYes primary svc key
      collectedSlots := slots.items.foldl (fun collected group =>
        collected.insert group.1 ((collected.lookup group.1).getD [] ++ inOrder group.2))
        st.collectedSlots }
  else st

/-- The body of the loop over the primary names. -/
def mergeGroup (lookup : Dict String String) (start : Nat) (primary : String)
    (group : List Service) : Service :=
  match group with
  | [] => ∅
  | [svc] => svc
  | first :: _ =>
    let st := group.foldl (mergeStep lookup primary (first.lookup "NAMESPACE"))
      ⟨∅, fun _ => false, ∅⟩
    let sorted := st.collectedSlots.mapValues (sortBy (List.compareLex pairCmp) slotKey)
    (writeSlots start primary st.merged sorted).setAll
      ((orMergeKeys.filter st.orMergeAccum).map (·, "yes"))

/-- `_merge_services_by_server_name`. -/
def mergeServicesByServerName (settings : List Setting) (start : Nat) (services : List Service) :
    List Service :=
  (orderOf services).map fun primary =>
    mergeGroup (buildMultipleGroupsLookup settings) start primary
      (services.filter (primaryOf · = primary))

end BunkerWeb.Autoconf

/-!
## The slots of a service

`Gives` says what a service gives for a group under a number, from the keys alone. For a name that
takes no key apart in a second way (`Plain`) and a service that gives nothing twice (`Tidy`) this is
what `_extract_slots` finds (`gives_eq`), and the keys that `_write_slots` puts together are taken
apart again (`parseKey_newKey`).
-/

namespace BunkerWeb.Autoconf

open Lib

/-- The settings that the merge treats by their names. -/
def reservedKeys : List String := "SERVER_NAME" :: "NAMESPACE" :: orMergeKeys

/-- No setting of a group ends in a number that belongs to another one, the settings that the merge
knows are in no group, and the primary name with an underscore starts none of their names. -/
structure Plain (lookup : Dict String String) (primary : String) : Prop where
  nonempty : ∀ base, (lookup.lookup base).isSome → base ≠ ""
  unnumbered : ∀ base (n : Nat), (lookup.lookup base).isSome →
    lookup.lookup (joinKey base (toString n)) = none
  reserved : ∀ key ∈ reservedKeys, lookup.lookup key = none
  apart : ∀ name, (lookup.lookup name).isSome ∨ name ∈ reservedKeys →
    name ≠ primary ∧ ∀ rest, name ≠ joinKey primary rest

/-- The keys of a setting under a number. -/
def slotKeys (primary base : String) (n : Nat) : List String :=
  let plain := [suffixedKey base n, joinKey base (toString n)]
  plain ++ plain.map (joinKey primary)

/-- The settings of a group with the values that a service gives them under a number. -/
def Gives (lookup : Dict String String) (primary group : String) (svc : Service) (n : Nat) :
    Set (String × String) :=
  {e | lookup.lookup e.1 = some group ∧ ∃ key ∈ slotKeys primary e.1 n, svc.lookup key = some e.2}

/-- Suffixes have no leading zeros, and no setting is given by two keys for one number. -/
structure Tidy (lookup : Dict String String) (primary : String) (svc : Service) : Prop where
  noLeadingZeros : ∀ base digits key, (lookup.lookup base).isSome → IsNumber digits →
    (svc.lookup key).isSome → key = joinKey base digits ∨ key = joinKey primary (joinKey base digits) →
    digits = toString (parseInt digits)
  once : ∀ base n, (lookup.lookup base).isSome → ∀ key ∈ slotKeys primary base n,
    ∀ key' ∈ slotKeys primary base n, (svc.lookup key).isSome → (svc.lookup key').isSome → key = key'

variable {lookup : Dict String String} {primary : String} {svc : Service} {group : String}

/-! ## Keys -/

theorem underscore_notMem_toString (n : Nat) : '_' ∉ (toString n).toList := fun h =>
  absurd (isDigit_toString _ h) (by decide)

/-- A key of a setting has no primary name in front. -/
theorem Plain.suffixedKey_ne (h : Plain lookup primary) {base : String}
    (hbase : (lookup.lookup base).isSome) (digits : String) (hd : '_' ∉ digits.toList)
    (rest : String) : joinKey base digits ≠ joinKey primary rest := by
  intro hk
  obtain ⟨hne, hapart⟩ := h.apart base (.inl hbase)
  by_cases hu : '_' ∈ rest.toList
  · -- The last underscore of the key is behind the primary name.
    obtain ⟨a, b, hab, hnot⟩ : ∃ a b : List Char, rest.toList = a ++ '_' :: b ∧ '_' ∉ b := by
      obtain ⟨b, a, hrev, hb⟩ := List.eq_append_cons_of_mem (List.mem_reverse.mpr hu)
      refine ⟨a.reverse, b.reverse, ?_, by simpa using hb⟩
      have := congrArg List.reverse hrev
      simpa using this
    have hrest : rest = joinKey (String.ofList a) (String.ofList b) :=
      String.toList_injective (by rw [toList_joinKey, String.toList_ofList, String.toList_ofList, hab])
    rw [hrest, ← joinKey_assoc] at hk
    exact hapart _ (joinKey_inj_of_last hd (by simpa using hnot) hk).1
  · exact hne (joinKey_inj_of_last hd hu hk).1

theorem stripServer_joinKey (primary rest : String) :
    stripServer primary (joinKey primary rest) = some rest := stripServer_eq_some.mpr rfl

theorem parseKey_joinKey {key : String} (hkey : stripServer primary key = none) :
    parseKey lookup primary (joinKey primary key) =
      (parseKey lookup primary key).map fun p => { p with wasPrefixed := true } := by
  rw [parseKey, parseKey, stripServer_joinKey, hkey]
  simp only [Option.map_some, Option.getD_some, Option.map_none, Option.getD_none]
  cases lookup.lookup key with
  | some g => rfl
  | none =>
    cases suffixRx key with
    | none => rfl
    | some e => simp [Function.comp_def]

/-- A setting with its number, as its key has it. -/
theorem Plain.parseKey_plain (h : Plain lookup primary) {base : String} {n : Nat}
    (hbase : lookup.lookup base = some group) :
    ∀ key ∈ [suffixedKey base n, joinKey base (toString n)],
      stripServer primary key = none ∧
        parseKey lookup primary key = some ⟨group, n, base, false⟩ := by
  have hsome : (lookup.lookup base).isSome := by rw [hbase]; rfl
  have hnumbered : stripServer primary (joinKey base (toString n)) = none ∧
      parseKey lookup primary (joinKey base (toString n)) = some ⟨group, n, base, false⟩ := by
    have hstrip : stripServer primary (joinKey base (toString n)) = none :=
      stripServer_eq_none.mpr (h.suffixedKey_ne hsome _ (underscore_notMem_toString n))
    have hrx : suffixRx (joinKey base (toString n)) = some (base, toString n) :=
      suffixRx_eq_some.mpr ⟨rfl, h.nonempty base hsome, isNumber_toString n⟩
    refine ⟨hstrip, ?_⟩
    rw [parseKey, hstrip]
    simp only [Option.map_none, Option.getD_none]
    rw [h.unnumbered base n hsome, hrx]
    simp only
    rw [hbase, parseInt_toString]
    rfl
  intro key hkey
  rcases List.mem_cons.mp hkey with rfl | hkey
  · rcases Nat.eq_zero_or_pos n with rfl | hpos
    · have hstrip : stripServer primary base = none :=
        stripServer_eq_none.mpr (h.apart base (.inl hsome)).2
      refine ⟨hstrip, ?_⟩
      rw [suffixedKey_zero, parseKey, hstrip]
      simp only [Option.map_none, Option.getD_none]
      rw [hbase]
    · rw [suffixedKey_of_pos _ hpos]
      exact hnumbered
  · rw [List.mem_singleton.mp hkey]
    exact hnumbered

theorem Plain.parseKey_slotKeys (h : Plain lookup primary) {base : String} {n : Nat}
    (hbase : lookup.lookup base = some group) {key : String} (hkey : key ∈ slotKeys primary base n) :
    ∃ wasPrefixed, parseKey lookup primary key = some ⟨group, n, base, wasPrefixed⟩ := by
  rcases List.mem_append.mp hkey with hkey | hkey
  · exact ⟨false, (h.parseKey_plain hbase key hkey).2⟩
  · obtain ⟨plain, hplain, rfl⟩ := List.mem_map.mp hkey
    obtain ⟨hstrip, hparse⟩ := h.parseKey_plain hbase plain hplain
    refine ⟨true, ?_⟩
    rw [parseKey_joinKey hstrip, hparse]
    rfl

theorem newKey_mem_slotKeys (primary base : String) (n : Nat) (wasPrefixed : Bool) :
    newKey primary base n wasPrefixed ∈ slotKeys primary base n := by
  cases wasPrefixed <;> simp [newKey, slotKeys]

/-- A key that is written is taken apart into what it was put together from. -/
theorem Plain.parseKey_newKey (h : Plain lookup primary) {base : String}
    (hbase : lookup.lookup base = some group) (n : Nat) (wasPrefixed : Bool) :
    parseKey lookup primary (newKey primary base n wasPrefixed) =
      some ⟨group, n, base, wasPrefixed⟩ := by
  obtain ⟨hstrip, hparse⟩ := h.parseKey_plain (n := n) hbase _ List.mem_cons_self
  cases wasPrefixed with
  | false => exact hparse
  | true =>
    show parseKey lookup primary (joinKey primary (suffixedKey base n)) = _
    rw [parseKey_joinKey hstrip, hparse]
    rfl

/-- A key that the merge knows by its name stands for no slot, with the name in front or not. -/
theorem Plain.parseKey_reserved (h : Plain lookup primary) {key : String}
    (hkey : key ∈ reservedKeys) :
    parseKey lookup primary key = none ∧ parseKey lookup primary (joinKey primary key) = none := by
  have hstrip : stripServer primary key = none :=
    stripServer_eq_none.mpr (h.apart key (.inr hkey)).2
  have hrx : suffixRx key = none :=
    (show ∀ key ∈ reservedKeys, suffixRx key = none by decide +kernel) key hkey
  have hnone : parseKey lookup primary key = none := by
    rw [parseKey, hstrip]
    simp only [Option.map_none, Option.getD_none]
    rw [h.reserved key hkey, hrx]
  refine ⟨hnone, ?_⟩
  rw [parseKey_joinKey hstrip, hnone]
  rfl

/-- The key that a place was read from. -/
theorem of_parseKey {key : String} {p : Place} (h : parseKey lookup primary key = some p) :
    lookup.lookup p.base = some p.group ∧
      ∃ part, (key = part ∨ key = joinKey primary part) ∧
        (part = p.base ∧ p.num = 0 ∨
          ∃ digits, IsNumber digits ∧ part = joinKey p.base digits ∧ p.num = parseInt digits) := by
  have hpart : key = (((stripServer primary key).map (·, true)).getD (key, false)).1 ∨
      key = joinKey primary (((stripServer primary key).map (·, true)).getD (key, false)).1 := by
    cases hs : stripServer primary key with
    | none => exact .inl rfl
    | some rest => exact .inr (stripServer_eq_some.mp hs)
  rw [parseKey] at h
  generalize ((stripServer primary key).map (·, true)).getD (key, false) = part at h hpart
  split at h
  next g hg =>
    cases h
    exact ⟨hg, part.1, hpart, .inl ⟨rfl, rfl⟩⟩
  next =>
    split at h
    next => cases h
    next base digits hrx =>
      obtain ⟨g, hg, rfl⟩ := Option.map_eq_some_iff.mp h
      obtain ⟨hk, -, hd⟩ := suffixRx_eq_some.mp hrx
      exact ⟨hg, part.1, hpart, .inr ⟨digits, hd, hk, rfl⟩⟩

/-- A key of a tidy service that stands for something is one of the keys of that. -/
theorem Tidy.mem_slotKeys (ht : Tidy lookup primary svc) {key : String} {p : Place}
    (hkey : (svc.lookup key).isSome) (h : parseKey lookup primary key = some p) :
    key ∈ slotKeys primary p.base p.num := by
  obtain ⟨hbase, part, hpart, hform⟩ := of_parseKey h
  have hmem : part ∈ [suffixedKey p.base p.num, joinKey p.base (toString p.num)] := by
    rcases hform with ⟨rfl, hn⟩ | ⟨digits, hd, rfl, hn⟩
    · rw [hn]
      exact List.mem_cons_self
    · have hdigits := ht.noLeadingZeros p.base digits key (by rw [hbase]; rfl) hd hkey hpart
      rw [hn, ← hdigits]
      exact List.mem_cons_of_mem _ List.mem_cons_self
  rcases hpart with rfl | rfl
  · exact List.mem_append_left _ hmem
  · exact List.mem_append_right _ (List.mem_map.mpr ⟨part, hmem, rfl⟩)

/-! ## What `_extract_slots` finds -/

/-- The slot under a number, empty if there is none. -/
def Slots.at (slots : Slots) (group : String) (n : Nat) : Slot :=
  (((slots.lookup group).getD ∅).lookup n).getD ∅

theorem lookup_at_add (slots : Slots) (p : Place) (value group : String) (n : Nat) (base : String) :
    ((slots.add p value).at group n).lookup base =
      if (p.group, p.num, p.base) = (group, n, base) then some ⟨value, p.wasPrefixed⟩
      else (slots.at group n).lookup base := by
  by_cases hg : group = p.group
  · subst hg
    rw [Slots.add, Slots.at, AList.lookup_insert, Option.getD_some]
    by_cases hn : n = p.num
    · subst hn
      rw [AList.lookup_insert, Option.getD_some]
      by_cases hb : base = p.base
      · subst hb
        rw [AList.lookup_insert, if_pos rfl]
      · rw [AList.lookup_insert_ne hb, if_neg (by simp [Ne.symm hb]), Slots.at]
    · rw [AList.lookup_insert_ne hn, if_neg (by simp [Ne.symm hn]), Slots.at]
  · rw [Slots.add, Slots.at, AList.lookup_insert_ne hg, if_neg (by simp [Ne.symm hg]), Slots.at]

/-- The entries by what they stand for. -/
def byPlace (entries : List ((String × String) × Place)) :
    List ((String × Nat × String) × Given) :=
  entries.map fun e => ((e.2.group, e.2.num, e.2.base), ⟨e.1.2, e.2.wasPrefixed⟩)

theorem lookup_at_foldl (entries : List ((String × String) × Place)) (slots : Slots) (n : Nat)
    (base : String) :
    ((entries.foldl (fun slots e => slots.add e.2 e.1.2) slots).at group n).lookup base =
      (Dict.lastOf (group, n, base) (byPlace entries)).or ((slots.at group n).lookup base) := by
  induction entries generalizing slots with
  | nil => rfl
  | cons e entries ih =>
    rw [List.foldl_cons, ih, lookup_at_add, show byPlace (e :: entries) =
      ((e.2.group, e.2.num, e.2.base), ⟨e.1.2, e.2.wasPrefixed⟩) :: byPlace entries from rfl,
      Dict.lastOf_cons, Option.or_assoc]
    congr 1
    split <;> rfl

theorem mem_slotEntries {e : String × String} {p : Place} :
    (e, p) ∈ slotEntries lookup primary svc ↔
      svc.lookup e.1 = some e.2 ∧ parseKey lookup primary e.1 = some p := by
  simp only [slotEntries, List.mem_filterMap, Option.map_eq_some_iff]
  constructor
  · rintro ⟨e', he', p', hp', h⟩
    cases h
    exact ⟨Dict.mem_items.mp he', hp'⟩
  · rintro ⟨he, hp⟩
    exact ⟨e, Dict.mem_items.mpr he, p, hp, rfl⟩

theorem Tidy.lookup_at (ht : Tidy lookup primary svc) {n : Nat} {base : String}
    {given : Given} :
    ((extractSlots lookup primary svc).1.at group n).lookup base = some given ↔
      ∃ key, svc.lookup key = some given.value ∧
        parseKey lookup primary key = some ⟨group, n, base, given.wasPrefixed⟩ := by
  have hmem : ∀ given : Given,
      ((group, n, base), given) ∈ byPlace (slotEntries lookup primary svc) ↔
        ∃ key, svc.lookup key = some given.value ∧
          parseKey lookup primary key = some ⟨group, n, base, given.wasPrefixed⟩ := by
    intro given
    rw [byPlace, List.mem_map]
    constructor
    · rintro ⟨⟨e, p⟩, he, hp⟩
      obtain ⟨hkey, hparse⟩ := mem_slotEntries.mp he
      cases hp
      exact ⟨e.1, hkey, hparse⟩
    · rintro ⟨key, hkey, hparse⟩
      exact ⟨((key, given.value), _), mem_slotEntries.mpr ⟨hkey, hparse⟩, rfl⟩
  rw [extractSlots, lookup_at_foldl, show (∅ : Slots).at group n = ∅ from rfl, AList.lookup_empty,
    Option.or_none, ← hmem]
  refine ⟨Dict.mem_of_lastOf, fun hgiven => Dict.lastOf_eq_some hgiven fun given' hgiven' => ?_⟩
  -- Both come from one key, as the service is tidy.
  obtain ⟨key, hkey, hparse⟩ := (hmem given).mp hgiven
  obtain ⟨key', hkey', hparse'⟩ := (hmem given').mp hgiven'
  have hbase : (lookup.lookup base).isSome := by rw [(of_parseKey hparse).1]; rfl
  obtain rfl : key' = key := ht.once base n hbase key' (ht.mem_slotKeys (by rw [hkey']; rfl) hparse')
    key (ht.mem_slotKeys (by rw [hkey]; rfl) hparse) (by rw [hkey']; rfl) (by rw [hkey]; rfl)
  have hvalue : given'.value = given.value := Option.some.inj (hkey'.symm.trans hkey)
  have hprefixed : given'.wasPrefixed = given.wasPrefixed :=
    congrArg Place.wasPrefixed (Option.some.inj (hparse'.symm.trans hparse))
  cases given
  cases given'
  simp only at hvalue hprefixed
  rw [hvalue, hprefixed]

/-- The settings of a slot with their values. -/
def content (c : List (String × String)) : Set (String × String) := {e | e ∈ c}

theorem mem_slotKey {slot : Slot} {e : String × String} :
    e ∈ slotKey slot ↔ ∃ given, slot.lookup e.1 = some given ∧ given.value = e.2 := by
  rw [slotKey, mem_sortBy, List.mem_map]
  constructor
  · rintro ⟨⟨base, given⟩, hmem, rfl⟩
    exact ⟨given, Dict.mem_items.mp hmem, rfl⟩
  · rintro ⟨given, hlookup, hvalue⟩
    exact ⟨(e.1, given), Dict.mem_items.mpr hlookup, by rw [hvalue]⟩

/-- The slots are what the service gives. -/
theorem gives_eq (h : Plain lookup primary) (ht : Tidy lookup primary svc) (n : Nat) :
    Gives lookup primary group svc n =
      content (slotKey ((extractSlots lookup primary svc).1.at group n)) := by
  ext e
  show _ ↔ e ∈ slotKey _
  rw [mem_slotKey]
  constructor
  · rintro ⟨hbase, key, hmem, hkey⟩
    obtain ⟨wasPrefixed, hparse⟩ := h.parseKey_slotKeys hbase hmem
    exact ⟨⟨e.2, wasPrefixed⟩, ht.lookup_at.mpr ⟨key, hkey, hparse⟩, rfl⟩
  · rintro ⟨given, hgiven, hvalue⟩
    obtain ⟨key, hkey, hparse⟩ := ht.lookup_at.mp hgiven
    refine ⟨(of_parseKey hparse).1, key, ?_, hvalue ▸ hkey⟩
    exact ht.mem_slotKeys (by rw [hkey]; rfl) hparse

/-- No slot is empty. -/
theorem extractSlots_nonempty {numbered : Dict Nat Slot} {n : Nat} {slot : Slot}
    (hg : (extractSlots lookup primary svc).1.lookup group = some numbered)
    (hn : numbered.lookup n = some slot) : ∃ base given, slot.lookup base = some given := by
  let NoneEmpty : Slots → Prop := fun slots => ∀ group numbered n slot,
    slots.lookup group = some numbered → numbered.lookup n = some slot →
      ∃ base given, slot.lookup base = some given
  have hadd : ∀ (slots : Slots) p value, NoneEmpty slots → NoneEmpty (slots.add p value) := by
    intro slots p value hslots group numbered n slot hg hn
    by_cases hgp : group = p.group
    · subst hgp
      rw [Slots.add, AList.lookup_insert] at hg
      cases hg
      by_cases hnp : n = p.num
      · subst hnp
        rw [AList.lookup_insert] at hn
        cases hn
        exact ⟨p.base, _, AList.lookup_insert _⟩
      · rw [AList.lookup_insert_ne hnp] at hn
        cases hold : slots.lookup p.group with
        | none => rw [hold] at hn; cases hn
        | some numbered => rw [hold] at hn; exact hslots p.group numbered n slot hold hn
    · rw [Slots.add, AList.lookup_insert_ne hgp] at hg
      exact hslots group numbered n slot hg hn
  have hfold : ∀ (entries : List ((String × String) × Place)) slots, NoneEmpty slots →
      NoneEmpty (entries.foldl (fun slots e => slots.add e.2 e.1.2) slots) := by
    intro entries
    induction entries with
    | nil => exact fun _ h => h
    | cons e entries ih => exact fun slots h => ih _ (hadd slots e.2 e.1.2 h)
  exact hfold _ ∅ (fun _ _ _ _ h => by cases h) group numbered n slot hg hn

/-- What is left of a service. -/
theorem lookup_extractSlots_snd (key : String) :
    (extractSlots lookup primary svc).2.lookup key =
      if parseKey lookup primary key = none then svc.lookup key else none := by
  rw [extractSlots, Dict.lookup_foldl_erase]
  have hmem : key ∈ (slotEntries lookup primary svc).map (·.1.1) ↔
      (svc.lookup key).isSome ∧ parseKey lookup primary key ≠ none := by
    rw [List.mem_map]
    constructor
    · rintro ⟨⟨e, p⟩, he, rfl⟩
      obtain ⟨hkey, hparse⟩ := mem_slotEntries.mp he
      exact ⟨by rw [hkey]; rfl, by rw [hparse]; exact Option.some_ne_none _⟩
    · rintro ⟨hkey, hparse⟩
      obtain ⟨value, hvalue⟩ := Option.isSome_iff_exists.mp hkey
      obtain ⟨p, hp⟩ := Option.ne_none_iff_exists'.mp hparse
      exact ⟨((key, value), p), mem_slotEntries.mpr ⟨hvalue, hp⟩, rfl⟩
  by_cases hparse : parseKey lookup primary key = none
  · rw [if_pos hparse, if_neg fun h => (hmem.mp h).2 hparse]
  · rw [if_neg hparse]
    split
    next => rfl
    next h =>
      rw [hmem, not_and] at h
      cases hkey : svc.lookup key with
      | none => rfl
      | some v => exact absurd hparse (h (by rw [hkey]; rfl))

end BunkerWeb.Autoconf
