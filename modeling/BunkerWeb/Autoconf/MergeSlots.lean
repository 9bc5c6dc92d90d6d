import BunkerWeb.Autoconf.MergeServices

/-!
# Merging keeps the slots

- `foldl_mergeStep`: what the loop over the services of a name leaves.
- `lookup_merged`, `gives_merged`: what the merged service gives under a number.
- `merging_loses_nothing`: the slots of a merged service are those of the services of the owner
  namespace, in one numbering, and the order of the services is nothing to them.
-/

namespace BunkerWeb.Autoconf

open Lib

variable {lookup : Dict String String} {primary : String} {group : String} {start : Nat}

/-- The service is not skipped. -/
def accepted (owner : Option String) (svc : Service) : Bool :=
  sameOwner owner (svc.lookup "NAMESPACE")

/-- The namespace of the first service. -/
def ownerOf (services : List Service) : Option String :=
  services.head?.bind (·.lookup "NAMESPACE")

/-- The services of the owner namespace. -/
def owned (services : List Service) : List Service := services.filter (accepted (ownerOf services))

/-! ## The loop -/

/-- The scalars of a service that are carried over. -/
def scalars (lookup : Dict String String) (primary : String) (svc : Service) :
    List (String × String) :=
  (extractSlots lookup primary svc).2.items.filter fun e => carried primary e.1

/-- The slots of a group in a service, with their numbers. -/
def parts (lookup : Dict String String) (primary group : String) (svc : Service) :
    List (Nat × Slot) :=
  sortBy compare Prod.fst (((extractSlots lookup primary svc).1.lookup group).getD ∅).items

private theorem getD_lookup_collect (l : List (String × Dict Nat Slot))
    (hl : (l.map Prod.fst).Nodup) (collected : Dict String (List Slot)) (g : String) :
    ((l.foldl (fun collected group =>
      collected.insert group.1 ((collected.lookup group.1).getD [] ++ inOrder group.2))
      collected).lookup g).getD [] =
        (collected.lookup g).getD [] ++ inOrder ((Dict.lastOf g l).getD ∅) := by
  induction l generalizing collected with
  | nil => simp [inOrder, sortBy, Dict.items]
  | cons e l ih =>
    obtain ⟨hnot, hl⟩ := List.nodup_cons.mp (List.map_cons ▸ hl)
    rw [List.foldl_cons, ih hl, Dict.lastOf_cons]
    by_cases he : e.1 = g
    · subst he
      have hnone : Dict.lastOf e.1 l = none :=
        Dict.lastOf_eq_none.mpr fun e' he' h => hnot (List.mem_map.mpr ⟨e', he', h⟩)
      rw [AList.lookup_insert, hnone, if_pos rfl]
      simp [inOrder, sortBy, Dict.items]
    · rw [AList.lookup_insert_ne (Ne.symm he), if_neg he, Option.or_none]

/-- What the loop does with the services that are not skipped: their slots one after the other, who
said yes, and the scalars. -/
structure Collects (lookup : Dict String String) (primary : String) (kept : List Service)
    (st done : Merging) : Prop where
  slots : ∀ g, (done.collectedSlots.lookup g).getD [] = (st.collectedSlots.lookup g).getD [] ++
    kept.flatMap fun svc => (parts lookup primary g svc).map Prod.snd
  said : ∀ key ∈ orMergeKeys, done.orMergeAccum key = (st.orMergeAccum key ||
    kept.any fun svc => saysYes primary (extractSlots lookup primary svc).2 key)
  merged : done.merged = st.merged.setAll (kept.flatMap (scalars lookup primary))

theorem mergeStep_collects {owner : Option String} {svc : Service} (st : Merging)
    (hsvc : accepted owner svc = true) :
    Collects lookup primary [svc] st (mergeStep lookup primary owner st svc) := by
  constructor
  · intro g
    rw [mergeStep, if_pos (show sameOwner owner _ = true from hsvc), List.flatMap_singleton]
    refine (getD_lookup_collect _ (Dict.items_keys_nodup _) _ g).trans ?_
    rw [Dict.lastOf_items]
    rfl
  · intro key hkey
    rw [mergeStep, if_pos (show sameOwner owner _ = true from hsvc)]
    simp [hkey]
  · rw [mergeStep, if_pos (show sameOwner owner _ = true from hsvc), List.flatMap_singleton]
    rfl

theorem Collects.cons {svc : Service} {kept : List Service} {st st' done : Merging}
    (h : Collects lookup primary [svc] st st') (h' : Collects lookup primary kept st' done) :
    Collects lookup primary (svc :: kept) st done := by
  constructor
  · intro g
    rw [h'.slots, h.slots, List.flatMap_singleton, List.flatMap_cons, List.append_assoc]
  · intro key hkey
    rw [h'.said key hkey, h.said key hkey, List.any_cons, List.any_cons, List.any_nil,
      Bool.or_false, Bool.or_assoc]
  · rw [h'.merged, h.merged, List.flatMap_singleton, List.flatMap_cons, Dict.setAll, Dict.setAll,
      Dict.setAll, List.foldl_append]

theorem foldl_mergeStep (owner : Option String) (services : List Service) (st : Merging) :
    Collects lookup primary (services.filter (accepted owner)) st
      (services.foldl (mergeStep lookup primary owner) st) := by
  induction services generalizing st with
  | nil => exact ⟨fun g => by simp, fun key _ => by simp, rfl⟩
  | cons svc services ih =>
    rw [List.foldl_cons]
    by_cases hsvc : accepted owner svc = true
    · rw [List.filter_cons_of_pos hsvc]
      exact (mergeStep_collects st hsvc).cons (ih _)
    · rw [List.filter_cons_of_neg hsvc, mergeStep, if_neg (show ¬ sameOwner owner _ = true from hsvc)]
      exact ih st

/-- The slots of a group in the services of the owner namespace, in the order in which they are
numbered. -/
def pool (lookup : Dict String String) (primary group : String) (services : List Service) :
    List Slot :=
  sortBy (List.compareLex pairCmp) slotKey
    ((owned services).flatMap fun svc => (parts lookup primary group svc).map Prod.snd)

variable (lookup primary start) in
/-- The merged service: the scalars, the slots under new numbers, and who said yes. -/
theorem mergeGroup_eq {services : List Service} (hlen : 2 ≤ services.length) :
    ∃ (slots : Dict String (List Slot)) (yes : List String),
      (∀ g, (slots.lookup g).getD [] = pool lookup primary g services) ∧
      (∀ key, key ∈ yes ↔ key ∈ orMergeKeys ∧
        ∃ svc ∈ owned services, saysYes primary (extractSlots lookup primary svc).2 key = true) ∧
      mergeGroup lookup start primary services =
        (writeSlots start primary
          (Dict.setAll ∅ ((owned services).flatMap (scalars lookup primary))) slots).setAll
            (yes.map (·, "yes")) := by
  match services, hlen with
  | first :: second :: rest, _ =>
    let done := (first :: second :: rest).foldl
      (mergeStep lookup primary (first.lookup "NAMESPACE")) ⟨∅, fun _ => false, ∅⟩
    have hdone : Collects lookup primary (owned (first :: second :: rest)) ⟨∅, fun _ => false, ∅⟩
      done := foldl_mergeStep _ _ _
    refine ⟨done.collectedSlots.mapValues (sortBy (List.compareLex pairCmp) slotKey),
      orMergeKeys.filter done.orMergeAccum, fun g => ?_, fun key => ?_, ?_⟩
    · have hslots := hdone.slots g
      rw [AList.lookup_empty, Option.getD_none, List.nil_append] at hslots
      rw [pool, ← hslots, Dict.lookup_mapValues]
      cases done.collectedSlots.lookup g with
      | none => rfl
      | some l => rfl
    · rw [List.mem_filter]
      refine and_congr_right fun hkey => ?_
      rw [hdone.said key hkey, Bool.false_or, List.any_eq_true]
    · rw [← hdone.merged]
      rfl

/-! ## What the merged service gives -/

section

variable {services : List Service}

/-- The slots of a pool hold settings of its group. -/
theorem lookup_of_mem_pool (htidy : ∀ svc ∈ services, Tidy lookup primary svc) {slot : Slot}
    (hslot : slot ∈ pool lookup primary group services) {base : String} {given : Given}
    (hbase : slot.lookup base = some given) : lookup.lookup base = some group := by
  obtain ⟨svc, hsvc, hslot⟩ := List.mem_flatMap.mp (mem_sortBy.mp hslot)
  obtain ⟨⟨n, slot⟩, hpart, rfl⟩ := List.mem_map.mp hslot
  have hn := Dict.mem_items.mp (mem_sortBy.mp hpart)
  have hat : ((extractSlots lookup primary svc).1.at group n).lookup base = some given := by
    rw [Slots.at, hn]
    exact hbase
  obtain ⟨key, -, hparse⟩ := (htidy svc (List.mem_of_mem_filter hsvc)).lookup_at.mp hat
  exact (of_parseKey hparse).1

theorem mem_scalars {svc : Service} {key value : String}
    (h : (key, value) ∈ scalars lookup primary svc) :
    parseKey lookup primary key = none ∧ svc.lookup key = some value := by
  have hleft := Dict.mem_items.mp (List.mem_of_mem_filter h)
  rw [lookup_extractSlots_snd] at hleft
  split at hleft
  next hparse => exact ⟨hparse, hleft⟩
  next => cases hleft

/-- A key with its value is written for a slot of a pool. -/
def Written (lookup : Dict String String) (primary : String) (start : Nat)
    (services : List Service) (key value : String) : Prop :=
  ∃ group j slot base given, (pool lookup primary group services)[j]? = some slot ∧
    slot.lookup base = some given ∧ key = newKey primary base (start + j) given.wasPrefixed ∧
    value = given.value

variable (start) in
theorem mem_writes {slots : Dict String (List Slot)}
    (hslots : ∀ g, (slots.lookup g).getD [] = pool lookup primary g services) {key value : String} :
    (key, value) ∈ (slots.items.flatMap fun group => (group.2.zipIdx start).flatMap fun slot =>
      slot.1.items.map fun e => (newKey primary e.1 slot.2 e.2.wasPrefixed, e.2.value)) ↔
      Written lookup primary start services key value := by
  simp only [List.mem_flatMap, List.mem_map, Prod.exists]
  constructor
  · rintro ⟨g, l, hl, slot, idx, hidx, base, given, hgiven, he⟩
    cases he
    obtain ⟨hle, hget⟩ := List.mem_zipIdx_iff_le_and_getElem?_sub.mp hidx
    have hpool : pool lookup primary g services = l := by
      rw [← hslots g, Dict.mem_items.mp hl]
      rfl
    refine ⟨g, idx - start, slot, base, given, hpool ▸ hget, Dict.mem_items.mp hgiven, ?_, rfl⟩
    rw [Nat.add_sub_cancel' hle]
  · rintro ⟨g, j, slot, base, given, hj, hgiven, rfl, rfl⟩
    rw [← hslots g] at hj
    cases hl : slots.lookup g with
    | none => rw [hl] at hj; cases hj
    | some l =>
      rw [hl, Option.getD_some] at hj
      refine ⟨g, l, Dict.mem_items.mpr hl, slot, start + j, ?_, base, given,
        Dict.mem_items.mpr hgiven, rfl⟩
      exact List.mem_zipIdx_iff_le_and_getElem?_sub.mpr ⟨by omega, by
        rw [Nat.add_sub_cancel_left]; exact hj⟩

/-- What is written under one key is one value. -/
theorem Written.unique (hplain : Plain lookup primary)
    (htidy : ∀ svc ∈ services, Tidy lookup primary svc) {key value value' : String}
    (h : Written lookup primary start services key value)
    (h' : Written lookup primary start services key value') : value' = value := by
  obtain ⟨g, j, slot, base, given, hj, hgiven, rfl, rfl⟩ := h
  obtain ⟨g', j', slot', base', given', hj', hgiven', hkey, rfl⟩ := h'
  have hbase := lookup_of_mem_pool htidy (List.mem_of_getElem? hj) hgiven
  have hbase' := lookup_of_mem_pool htidy (List.mem_of_getElem? hj') hgiven'
  have hparse := hplain.parseKey_newKey hbase (start + j) given.wasPrefixed
  rw [hkey, hplain.parseKey_newKey hbase' (start + j') given'.wasPrefixed] at hparse
  obtain ⟨rfl, hnum, rfl, -⟩ := Place.mk.inj (Option.some.inj hparse)
  obtain rfl : j' = j := by omega
  obtain rfl : slot' = slot := Option.some.inj (hj'.symm.trans hj)
  rw [Option.some.inj (hgiven'.symm.trans hgiven)]

/-- What the merged service has under a key of a slot. -/
theorem lookup_merged (hplain : Plain lookup primary)
    (htidy : ∀ svc ∈ services, Tidy lookup primary svc) (hlen : 2 ≤ services.length)
    {key value : String} {p : Place} (hparse : parseKey lookup primary key = some p) :
    (mergeGroup lookup start primary services).lookup key = some value ↔
      Written lookup primary start services key value := by
  obtain ⟨slots, yes, hslots, hyes, heq⟩ := mergeGroup_eq lookup primary start hlen
  have hnotYes : Dict.lastOf key (yes.map (·, "yes")) = none := by
    refine Dict.lastOf_eq_none.mpr fun e he hkey => ?_
    obtain ⟨key', hkey', rfl⟩ := List.mem_map.mp he
    have hreserved : key' ∈ reservedKeys :=
      List.mem_cons_of_mem _ (List.mem_cons_of_mem _ ((hyes key').mp hkey').1)
    rw [← hkey, (hplain.parseKey_reserved hreserved).1] at hparse
    cases hparse
  have hnotScalar : Dict.lastOf key ((owned services).flatMap (scalars lookup primary)) = none := by
    refine Dict.lastOf_eq_none.mpr ?_
    rintro ⟨key', v⟩ he rfl
    obtain ⟨svc, -, he⟩ := List.mem_flatMap.mp he
    rw [(mem_scalars he).1] at hparse
    cases hparse
  rw [heq, Dict.lookup_setAll, hnotYes, Option.none_or, writeSlots, Dict.lookup_setAll,
    Dict.lookup_setAll, hnotScalar, AList.lookup_empty, Option.or_none, Option.or_none]
  constructor
  · exact fun h => (mem_writes start hslots).mp (Dict.mem_of_lastOf h)
  · intro h
    exact Dict.lastOf_eq_some ((mem_writes start hslots).mpr h) fun v hv =>
      h.unique hplain htidy ((mem_writes start hslots).mp hv)

/-- The merged service gives the slots of the pool, one number each. -/
theorem gives_merged (hplain : Plain lookup primary)
    (htidy : ∀ svc ∈ services, Tidy lookup primary svc) (hlen : 2 ≤ services.length) (n : Nat) :
    Gives lookup primary group (mergeGroup lookup start primary services) n =
      placed (fun slot => content (slotKey slot)) start (pool lookup primary group services) n := by
  ext e
  constructor
  · rintro ⟨hbase, key, hmem, hkey⟩
    obtain ⟨w, hparse⟩ := hplain.parseKey_slotKeys hbase hmem
    obtain ⟨g, j, slot, base, given, hj, hgiven, rfl, hvalue⟩ :=
      (lookup_merged hplain htidy hlen hparse).mp hkey
    have hbase' := lookup_of_mem_pool htidy (List.mem_of_getElem? hj) hgiven
    rw [hplain.parseKey_newKey hbase'] at hparse
    obtain ⟨rfl, hnum, rfl, -⟩ := Place.mk.inj (Option.some.inj hparse)
    refine ⟨slot, by omega, ?_, mem_slotKey.mpr ⟨given, hgiven, hvalue.symm⟩⟩
    rw [← hnum, Nat.add_sub_cancel_left]
    exact hj
  · rintro ⟨slot, hle, hj, he⟩
    obtain ⟨given, hgiven, hvalue⟩ := mem_slotKey.mp he
    have hbase := lookup_of_mem_pool htidy (List.mem_of_getElem? hj) hgiven
    refine ⟨hbase, _, newKey_mem_slotKeys primary e.1 n given.wasPrefixed, ?_⟩
    refine (lookup_merged hplain htidy hlen (hplain.parseKey_newKey hbase n _)).mpr ?_
    exact ⟨group, n - start, slot, e.1, given, hj, hgiven, by rw [Nat.add_sub_cancel' hle],
      hvalue.symm⟩

/-! ## Scalars -/

/-- A service of the owner namespace says yes to a key. -/
def Said (primary : String) (services : List Service) (key : String) : Prop :=
  key ∈ orMergeKeys ∧ ∃ svc ∈ owned services, saysYes primary svc key = true

theorem saysYes_extractSlots (hplain : Plain lookup primary) (svc : Service) {key : String}
    (hkey : key ∈ orMergeKeys) :
    saysYes primary (extractSlots lookup primary svc).2 key = saysYes primary svc key := by
  obtain ⟨hparse, hparse'⟩ := hplain.parseKey_reserved
    (List.mem_cons_of_mem _ (List.mem_cons_of_mem _ hkey))
  rw [saysYes, saysYes, lookup_extractSlots_snd, lookup_extractSlots_snd, if_pos hparse,
    if_pos hparse']

variable (start) in
/-- What the merged service has under a key that stands for no slot. -/
theorem lookup_merged_scalar (hplain : Plain lookup primary)
    (htidy : ∀ svc ∈ services, Tidy lookup primary svc) (hlen : 2 ≤ services.length)
    {key : String} (hparse : parseKey lookup primary key = none) :
    (Said primary services key →
      (mergeGroup lookup start primary services).lookup key = some "yes") ∧
    (¬ Said primary services key → (mergeGroup lookup start primary services).lookup key =
      Dict.lastOf key ((owned services).flatMap (scalars lookup primary))) := by
  obtain ⟨slots, yes, hslots, hyes, heq⟩ := mergeGroup_eq lookup primary start hlen
  have hsaid : key ∈ yes ↔ Said primary services key := by
    rw [hyes]
    refine and_congr_right fun hkey => exists_congr fun svc => and_congr_right fun _ => ?_
    rw [saysYes_extractSlots hplain svc hkey]
  rw [heq, Dict.lookup_setAll]
  constructor
  · intro h
    have hlast : Dict.lastOf key (yes.map (·, "yes")) = some "yes" := by
      refine Dict.lastOf_eq_some (List.mem_map.mpr ⟨key, hsaid.mpr h, rfl⟩) fun v hv => ?_
      obtain ⟨_, -, he⟩ := List.mem_map.mp hv
      exact (congrArg Prod.snd he).symm
    rw [hlast]
    rfl
  · intro h
    have hlast : Dict.lastOf key (yes.map (·, "yes")) = none := by
      refine Dict.lastOf_eq_none.mpr fun e he hkey => ?_
      obtain ⟨key', hkey', rfl⟩ := List.mem_map.mp he
      exact h (hsaid.mp (hkey ▸ hkey'))
    have hwrites := Dict.lastOf_eq_none.mpr fun e he (hkey : e.1 = key) => by
      obtain ⟨g, j, slot, base, given, hj, hgiven, hnew, -⟩ :=
        (mem_writes start hslots).mp (show (e.1, e.2) ∈ _ from he)
      have hbase := lookup_of_mem_pool htidy (List.mem_of_getElem? hj) hgiven
      rw [← hkey, hnew, hplain.parseKey_newKey hbase] at hparse
      cases hparse
    rw [hlast, Option.none_or, writeSlots, Dict.lookup_setAll, hwrites, Option.none_or,
      Dict.lookup_setAll, AList.lookup_empty, Option.or_none]

variable (start) in
theorem merged_yes_iff (hplain : Plain lookup primary)
    (htidy : ∀ svc ∈ services, Tidy lookup primary svc) (hlen : 2 ≤ services.length)
    {key : String} (hkey : key ∈ orMergeKeys) :
    (mergeGroup lookup start primary services).lookup key = some "yes" ↔
      ∃ svc ∈ owned services, saysYes primary svc key = true := by
  have hparse := (hplain.parseKey_reserved
    (List.mem_cons_of_mem _ (List.mem_cons_of_mem _ hkey))).1
  obtain ⟨hsaid, hnot⟩ := lookup_merged_scalar start hplain htidy hlen hparse
  refine ⟨fun h => ?_, fun h => hsaid ⟨hkey, h⟩⟩
  by_contra hno
  rw [hnot fun hs => hno hs.2] at h
  obtain ⟨svc, hsvc, he⟩ := List.mem_flatMap.mp (Dict.mem_of_lastOf h)
  refine hno ⟨svc, hsvc, ?_⟩
  rw [saysYes, (mem_scalars he).2, Option.any_some]
  exact Bool.or_eq_true_iff.mpr (.inl (by decide +kernel))

theorem accepted_head {svc : Service} (h : services.head? = some svc) : svc ∈ owned services := by
  refine List.mem_filter.mpr ⟨List.mem_of_head? h, ?_⟩
  rw [accepted, ownerOf, h, Option.bind_some, sameOwner]
  simp

/-- The merged service has the primary name of the services. -/
theorem primaryOf_merged (hplain : Plain lookup primary)
    (htidy : ∀ svc ∈ services, Tidy lookup primary svc) (hlen : 2 ≤ services.length)
    (hname : ∀ svc ∈ services, primaryOf svc = primary) :
    primaryOf (mergeGroup lookup start primary services) = primary := by
  have hreserved : "SERVER_NAME" ∈ reservedKeys := List.mem_cons_self
  have hparse := (hplain.parseKey_reserved hreserved).1
  have hlookup := (lookup_merged_scalar start hplain htidy hlen hparse).2 fun h =>
    absurd h.1 (by decide)
  rw [primaryOf, hlookup]
  cases hlast : Dict.lastOf "SERVER_NAME" ((owned services).flatMap (scalars lookup primary)) with
  | some v =>
    obtain ⟨svc, hsvc, he⟩ := List.mem_flatMap.mp (Dict.mem_of_lastOf hlast)
    rw [← hname svc (List.mem_of_mem_filter hsvc), primaryOf, (mem_scalars he).2]
  | none =>
    -- The first service is not skipped, so it has no names either.
    obtain ⟨first, rest, rfl⟩ := List.exists_cons_of_length_pos (by omega : 0 < services.length)
    have hfirst : first.lookup "SERVER_NAME" = none := by
      by_contra hne
      obtain ⟨v, hv⟩ := Option.ne_none_iff_exists'.mp hne
      refine Dict.lastOf_eq_none.mp hlast ("SERVER_NAME", v) ?_ rfl
      refine List.mem_flatMap.mpr ⟨first, accepted_head rfl, List.mem_filter.mpr ⟨?_, ?_⟩⟩
      · exact Dict.mem_items.mpr (by rw [lookup_extractSlots_snd, if_pos hparse, hv])
      · rw [carried, if_pos (.inr List.mem_cons_self)]
    rw [← hname first List.mem_cons_self, primaryOf, hfirst]

end

end BunkerWeb.Autoconf

/-!
## The services after the merge

Names, slots and the order of the services, for the whole of `_merge_services_by_server_name`.
-/

namespace BunkerWeb.Autoconf

open Lib

variable {lookup : Dict String String} {settings : List Setting} {start : Nat}
  {services services' : List Service} {primary group : String}

/-- The services of a name. -/
def named (services : List Service) (primary : String) : List Service :=
  services.filter (primaryOf · = primary)

theorem mem_named {svc : Service} :
    svc ∈ named services primary ↔ svc ∈ services ∧ primaryOf svc = primary := by
  simp [named]

/-! ## Names -/

theorem orderOf_spec (services : List Service) :
    (orderOf services).Nodup ∧ ∀ p, p ∈ orderOf services ↔ ∃ svc ∈ services, primaryOf svc = p := by
  have hfold : ∀ (rest : List Service) (order : List String), order.Nodup →
      (rest.foldl (fun order svc =>
        if primaryOf svc ∈ order then order else order ++ [primaryOf svc]) order).Nodup ∧
      ∀ p, p ∈ rest.foldl (fun order svc =>
        if primaryOf svc ∈ order then order else order ++ [primaryOf svc]) order ↔
          p ∈ order ∨ ∃ svc ∈ rest, primaryOf svc = p := by
    intro rest
    induction rest with
    | nil => exact fun order h => ⟨h, fun p => by simp⟩
    | cons svc rest ih =>
      intro order h
      rw [List.foldl_cons]
      by_cases hmem : primaryOf svc ∈ order
      · rw [if_pos hmem]
        refine ⟨(ih order h).1, fun p => ?_⟩
        rw [(ih order h).2, List.exists_mem_cons_iff]
        constructor
        · exact fun h => h.imp_right .inr
        · rintro (h | rfl | h)
          · exact .inl h
          · exact .inl hmem
          · exact .inr h
      · rw [if_neg hmem]
        have h' : (order ++ [primaryOf svc]).Nodup :=
          List.nodup_append'.mpr ⟨h, List.nodup_singleton _, by simpa using hmem⟩
        refine ⟨(ih _ h').1, fun p => ?_⟩
        rw [(ih _ h').2, List.mem_append, List.mem_singleton, List.exists_mem_cons_iff, or_assoc,
          eq_comm (a := p)]
  obtain ⟨hnodup, hmem⟩ := hfold services [] List.nodup_nil
  exact ⟨hnodup, fun p => (hmem p).trans (by simp)⟩

/-- The merged service of a name has this name. -/
theorem primaryOf_mergeGroup (hplain : Plain lookup primary)
    (htidy : ∀ svc ∈ services, Tidy lookup (primaryOf svc) svc)
    (hp : primary ∈ orderOf services) :
    primaryOf (mergeGroup lookup start primary (named services primary)) = primary := by
  obtain ⟨svc, hsvc, hname⟩ := (orderOf_spec services).2 primary |>.mp hp
  have hne : named services primary ≠ [] := List.ne_nil_of_mem (mem_named.mpr ⟨hsvc, hname⟩)
  have htidy' : ∀ svc ∈ named services primary, Tidy lookup primary svc := fun svc hsvc => by
    obtain ⟨hmem, rfl⟩ := mem_named.mp hsvc
    exact htidy svc hmem
  match hnamed : named services primary, hne with
  | [svc], _ =>
    have : svc ∈ named services primary := hnamed ▸ List.mem_singleton_self svc
    exact (mem_named.mp this).2
  | first :: second :: rest, _ =>
    rw [← hnamed]
    exact primaryOf_merged hplain htidy' (by rw [hnamed]; simp)
      fun svc hsvc => (mem_named.mp hsvc).2

/-! ## Slots -/

theorem gives_eq_numbered {svc : Service} (hplain : Plain lookup primary)
    (htidy : Tidy lookup primary svc) :
    Gives lookup primary group svc =
      numbered (fun slot => content (slotKey slot)) (parts lookup primary group svc) := by
  funext n
  rw [gives_eq hplain htidy]
  ext e
  constructor
  · intro he
    obtain ⟨given, hgiven, -⟩ := mem_slotKey.mp he
    cases hn : (((extractSlots lookup primary svc).1.lookup group).getD ∅).lookup n with
    | none => rw [Slots.at, hn] at hgiven; cases hgiven
    | some slot =>
      rw [Slots.at, hn] at he
      exact ⟨slot, mem_sortBy.mpr (Dict.mem_items.mpr hn), he⟩
  · rintro ⟨slot, hslot, he⟩
    rw [Slots.at, Dict.mem_items.mp (mem_sortBy.mp hslot)]
    exact he

variable (start group) in
/-- The slots of a merged service are those of the services of the owner namespace. -/
theorem pooled_merged (hplain : Plain lookup primary)
    (htidy : ∀ svc ∈ services, Tidy lookup primary svc) (hlen : 2 ≤ services.length) :
    Pooled start ((owned services).map (Gives lookup primary group))
      (Gives lookup primary group (mergeGroup lookup start primary services)) := by
  have hsources : (owned services).map (Gives lookup primary group) =
      ((owned services).map (parts lookup primary group)).map
        (numbered fun slot => content (slotKey slot)) := by
    rw [List.map_map]
    exact List.map_congr_left fun svc hsvc =>
      gives_eq_numbered hplain (htidy svc (List.mem_of_mem_filter hsvc))
  have htarget : Gives lookup primary group (mergeGroup lookup start primary services) =
      placed (fun slot => content (slotKey slot)) start (pool lookup primary group services) :=
    funext (gives_merged hplain htidy hlen)
  rw [hsources, htarget, pool, ← List.flatMap_map (parts lookup primary group) (·.map Prod.snd)]
  refine pooled_of_sortBy _ slotKey start (fun l hl => ?_) fun l hl p hp => ?_
  · obtain ⟨svc, -, rfl⟩ := List.mem_map.mp hl
    exact (((sortBy_perm _ _).map Prod.fst).nodup_iff).mpr (Dict.items_keys_nodup _)
  · obtain ⟨svc, -, rfl⟩ := List.mem_map.mp hl
    have hn := Dict.mem_items.mp (mem_sortBy.mp hp)
    cases hg : (extractSlots lookup primary svc).1.lookup group with
    | none => rw [hg] at hn; cases hn
    | some numbered =>
      rw [hg] at hn
      obtain ⟨base, given, hgiven⟩ := extractSlots_nonempty hg hn
      exact ⟨(base, given.value), mem_slotKey.mpr ⟨given, hgiven, rfl⟩⟩

variable (start group) in
/-- Services in another order, of the same owner, give the same slots. -/
theorem gives_merged_eq_of_perm (hplain : Plain lookup primary)
    (htidy : ∀ svc ∈ services, Tidy lookup primary svc) (hlen : 2 ≤ services.length)
    (hperm : services.Perm services') (howner : ownerOf services = ownerOf services') :
    Gives lookup primary group (mergeGroup lookup start primary services) =
      Gives lookup primary group (mergeGroup lookup start primary services') := by
  have htidy' : ∀ svc ∈ services', Tidy lookup primary svc := fun svc h =>
    htidy svc (hperm.mem_iff.mpr h)
  have howned : (owned services).Perm (owned services') := by
    rw [owned, owned, howner]
    exact hperm.filter _
  funext n
  rw [gives_merged hplain htidy hlen, gives_merged hplain htidy' (hperm.length_eq ▸ hlen),
    placed_map slotKey content,
    placed_map slotKey content, pool, pool,
    map_sortBy_eq_of_perm slotKey (howned.flatMap_right _)]

/-! ## The whole list -/

/-- What the merged services keep of the services. -/
structure LosesNothing (lookup : Dict String String) (start : Nat)
    (services merged : List Service) : Prop where
  /-- Each primary name occurs once. -/
  names : (merged.map primaryOf).Nodup
  mem_names : ∀ p, p ∈ merged.map primaryOf ↔ ∃ svc ∈ services, primaryOf svc = p
  slots : ∀ m ∈ merged, 2 ≤ (named services (primaryOf m)).length → ∀ group,
    Pooled start
      ((owned (named services (primaryOf m))).map (Gives lookup (primaryOf m) group))
      (Gives lookup (primaryOf m) group m)
  yes : ∀ m ∈ merged, 2 ≤ (named services (primaryOf m)).length → ∀ key ∈ orMergeKeys,
    (m.lookup key = some "yes" ↔
      ∃ svc ∈ owned (named services (primaryOf m)), saysYes (primaryOf m) svc key = true)

/-- The services of one name give the same slots in both lists. -/
def SameSlots (lookup : Dict String String) (merged merged' : List Service) : Prop :=
  ∀ m ∈ merged, ∀ m' ∈ merged', primaryOf m = primaryOf m' → ∀ group,
    Gives lookup (primaryOf m) group m = Gives lookup (primaryOf m) group m'

theorem of_mem_merged
    (hplain : ∀ svc ∈ services, Plain (buildMultipleGroupsLookup settings) (primaryOf svc))
    (htidy : ∀ svc ∈ services, Tidy (buildMultipleGroupsLookup settings) (primaryOf svc) svc)
    {m : Service} (hm : m ∈ mergeServicesByServerName settings start services) :
    Plain (buildMultipleGroupsLookup settings) (primaryOf m) ∧ named services (primaryOf m) ≠ [] ∧
      m = mergeGroup (buildMultipleGroupsLookup settings) start (primaryOf m)
        (named services (primaryOf m)) := by
  obtain ⟨p, hp, rfl⟩ := List.mem_map.mp hm
  obtain ⟨svc, hsvc, hname⟩ := (orderOf_spec services).2 p |>.mp hp
  have hp' : primaryOf (mergeGroup (buildMultipleGroupsLookup settings) start p
      (named services p)) = p := primaryOf_mergeGroup (hname ▸ hplain svc hsvc) htidy hp
  rw [← named, hp']
  exact ⟨hname ▸ hplain svc hsvc, List.ne_nil_of_mem (mem_named.mpr ⟨hsvc, hname⟩), rfl⟩

theorem map_primaryOf_merged
    (hplain : ∀ svc ∈ services, Plain (buildMultipleGroupsLookup settings) (primaryOf svc))
    (htidy : ∀ svc ∈ services, Tidy (buildMultipleGroupsLookup settings) (primaryOf svc) svc) :
    (mergeServicesByServerName settings start services).map primaryOf = orderOf services := by
  rw [mergeServicesByServerName, List.map_map]
  refine (List.map_congr_left fun p hp => ?_).trans (List.map_id _)
  obtain ⟨svc, hsvc, hname⟩ := (orderOf_spec services).2 p |>.mp hp
  exact primaryOf_mergeGroup (hname ▸ hplain svc hsvc) htidy hp

/-- The merge loses nothing, and the order of the services is nothing to the slots as long as the
owner namespaces stay. -/
theorem merging_loses_nothing (settings : List Setting) (start : Nat) (services : List Service)
    (hplain : ∀ svc ∈ services, Plain (buildMultipleGroupsLookup settings) (primaryOf svc))
    (htidy : ∀ svc ∈ services, Tidy (buildMultipleGroupsLookup settings) (primaryOf svc) svc) :
    LosesNothing (buildMultipleGroupsLookup settings) start services
        (mergeServicesByServerName settings start services) ∧
      ∀ services', services.Perm services' →
        (∀ p, ownerOf (named services p) = ownerOf (named services' p)) →
        SameSlots (buildMultipleGroupsLookup settings)
          (mergeServicesByServerName settings start services)
          (mergeServicesByServerName settings start services') := by
  have hnamed : ∀ p, ∀ svc ∈ named services p,
      Tidy (buildMultipleGroupsLookup settings) p svc := fun p svc hsvc => by
    obtain ⟨hmem, rfl⟩ := mem_named.mp hsvc
    exact htidy svc hmem
  refine ⟨⟨?_, fun p => ?_, fun m hm hlen group => ?_, fun m hm hlen key hkey => ?_⟩, ?_⟩
  · rw [map_primaryOf_merged hplain htidy]
    exact (orderOf_spec services).1
  · rw [map_primaryOf_merged hplain htidy]
    exact (orderOf_spec services).2 p
  · obtain ⟨hp, -, heq⟩ := of_mem_merged hplain htidy hm
    have hpool := pooled_merged start group hp (hnamed (primaryOf m)) hlen
    rwa [← heq] at hpool
  · obtain ⟨hp, -, heq⟩ := of_mem_merged hplain htidy hm
    have hyes := merged_yes_iff start hp (hnamed (primaryOf m)) hlen hkey
    rwa [← heq] at hyes
  · intro services' hperm howner m hm m' hm' hname group
    obtain ⟨hp, hne, heq⟩ := of_mem_merged hplain htidy hm
    obtain ⟨-, -, heq'⟩ := of_mem_merged
      (fun svc hsvc => hplain svc (hperm.mem_iff.mpr hsvc))
      (fun svc hsvc => htidy svc (hperm.mem_iff.mpr hsvc)) hm'
    have hgroups : (named services (primaryOf m)).Perm (named services' (primaryOf m)) :=
      hperm.filter _
    rw [← hname] at heq'
    rcases hlen : (named services (primaryOf m)).length with _ | _ | k
    · exact absurd (List.length_eq_zero_iff.mp hlen) hne
    · -- A name with one service: both lists have this service.
      obtain ⟨svc, hsvc⟩ := List.length_eq_one_iff.mp hlen
      have hsvc' : named services' (primaryOf m) = [svc] := by
        rw [hsvc] at hgroups
        exact List.perm_singleton.mp hgroups.symm
      have hsame : m = m' := by
        refine heq.trans (Eq.trans ?_ heq'.symm)
        rw [hsvc, hsvc']
      rw [hsame]
    · have hgives := gives_merged_eq_of_perm start group hp
        (hnamed (primaryOf m)) (by omega) hgroups (howner _)
      rwa [← heq, ← heq'] at hgives

/-! ## Two services of one name -/

/-- The conditions on the names, for a table that is given. -/
theorem plain_of_items
    (hitems : ∀ e ∈ lookup.items, e.1 ≠ "" ∧ suffixRx e.1 = none ∧ e.1 ≠ primary ∧
      stripServer primary e.1 = none)
    (hreserved : ∀ key ∈ reservedKeys, lookup.lookup key = none ∧ key ≠ primary ∧
      stripServer primary key = none) : Plain lookup primary := by
  have hmem : ∀ base, (lookup.lookup base).isSome → ∃ e ∈ lookup.items, e.1 = base := by
    intro base h
    obtain ⟨group, hgroup⟩ := Option.isSome_iff_exists.mp h
    exact ⟨(base, group), Dict.mem_items.mpr hgroup, rfl⟩
  constructor
  · intro base h
    obtain ⟨e, he, rfl⟩ := hmem base h
    exact (hitems e he).1
  · intro base n h
    obtain ⟨e, he, rfl⟩ := hmem base h
    by_contra hne
    obtain ⟨e', he', hkey⟩ := hmem _ (Option.isSome_iff_ne_none.mpr hne)
    have hrx := (hitems e' he').2.1
    rw [hkey, suffixRx_eq_some.mpr ⟨rfl, (hitems e he).1, isNumber_toString n⟩] at hrx
    cases hrx
  · exact fun key hkey => (hreserved key hkey).1
  · rintro name (h | h)
    · obtain ⟨e, he, rfl⟩ := hmem name h
      exact ⟨(hitems e he).2.2.1, stripServer_eq_none.mp (hitems e he).2.2.2⟩
    · exact ⟨(hreserved name h).2.1, stripServer_eq_none.mp (hreserved name h).2.2⟩

/-- Both keys stand for one setting under one number. -/
def sameSetting (lookup : Dict String String) (primary key key' : String) : Bool :=
  match parseKey lookup primary key, parseKey lookup primary key' with
  | some p, some p' => p.base == p'.base && p.num == p'.num
  | _, _ => false

/-- A service that is given is tidy. -/
theorem tidy_of_items {svc : Service} (hplain : Plain lookup primary)
    (hzeros : ∀ e ∈ svc.items, ∀ d ∈ (suffixRx e.1).map Prod.snd, d = toString (parseInt d))
    (honce : ∀ e ∈ svc.items, ∀ e' ∈ svc.items, sameSetting lookup primary e.1 e'.1 = true →
      e.1 = e'.1) : Tidy lookup primary svc := by
  have hmem : ∀ key, (svc.lookup key).isSome → ∃ e ∈ svc.items, e.1 = key := by
    intro key h
    obtain ⟨value, hvalue⟩ := Option.isSome_iff_exists.mp h
    exact ⟨(key, value), Dict.mem_items.mpr hvalue, rfl⟩
  constructor
  · intro base digits key hbase hd hkey hform
    obtain ⟨e, he, rfl⟩ := hmem key hkey
    have hrx : (suffixRx e.1).map Prod.snd = some digits := by
      rcases hform with h | h
      · rw [h, suffixRx_eq_some.mpr ⟨rfl, hplain.nonempty base hbase, hd⟩]
        rfl
      · rw [h, ← joinKey_assoc, suffixRx_eq_some.mpr ⟨rfl, joinKey_ne_empty _ _, hd⟩]
        rfl
    exact hzeros e he digits hrx
  · intro base n hbase key hkey key' hkey' h h'
    obtain ⟨e, he, rfl⟩ := hmem key h
    obtain ⟨e', he', rfl⟩ := hmem key' h'
    obtain ⟨group, hgroup⟩ := Option.isSome_iff_exists.mp hbase
    obtain ⟨w, hparse⟩ := hplain.parseKey_slotKeys hgroup hkey
    obtain ⟨w', hparse'⟩ := hplain.parseKey_slotKeys hgroup hkey'
    refine honce e he e' he' ?_
    rw [sameSetting, hparse, hparse']
    simp

/-- A setting of the reverse proxy. -/
def reverseProxySetting (id : String) : Setting where
  id := id
  pluginId := "reverseproxy"
  context := .multisite
  default := ""
  regex := "^.*$"
  type := .text
  multiple := some "reverse-proxy"

def reverseProxySettings : List Setting :=
  [reverseProxySetting "REVERSE_PROXY_HOST", reverseProxySetting "REVERSE_PROXY_URL"]

/-- A service of a controller in a namespace. -/
def serviceOf (name ns : String) (settings : List (String × String)) : Service :=
  Dict.ofItems ([("SERVER_NAME", name), ("NAMESPACE", ns)] ++ settings)

/-- Two Ingresses of one host, one of them with an annotation. -/
def shopServices : List Service :=
  [serviceOf "shop.example.com" "shop" [("USE_REVERSE_PROXY", "yes"),
      ("REVERSE_PROXY_HOST_1", "http://app"), ("REVERSE_PROXY_URL_1", "/")],
    serviceOf "shop.example.com" "shop" [("REVERSE_PROXY_HOST_1", "http://api"),
      ("shop.example.com_REVERSE_PROXY_URL_1", "/api")]]

theorem shopServices_keep :
    LosesNothing (buildMultipleGroupsLookup reverseProxySettings) 1 shopServices
        (mergeServicesByServerName reverseProxySettings 1 shopServices) ∧
      ∀ services', shopServices.Perm services' →
        (∀ p, ownerOf (named shopServices p) = ownerOf (named services' p)) →
        SameSlots (buildMultipleGroupsLookup reverseProxySettings)
          (mergeServicesByServerName reverseProxySettings 1 shopServices)
          (mergeServicesByServerName reverseProxySettings 1 services') := by
  have hplain : ∀ svc ∈ shopServices,
      Plain (buildMultipleGroupsLookup reverseProxySettings) (primaryOf svc) := by
    have hname : ∀ svc ∈ shopServices, primaryOf svc = "shop.example.com" := by decide +kernel
    intro svc hsvc
    rw [hname svc hsvc]
    exact plain_of_items (by decide +kernel) (by decide +kernel)
  refine merging_loses_nothing reverseProxySettings 1 shopServices hplain ?_
  have hzeros : ∀ svc ∈ shopServices, ∀ e ∈ svc.items,
      ∀ d ∈ (suffixRx e.1).map Prod.snd, d = toString (parseInt d) := by decide +kernel
  have honce : ∀ svc ∈ shopServices, ∀ e ∈ svc.items, ∀ e' ∈ svc.items,
      sameSetting (buildMultipleGroupsLookup reverseProxySettings) (primaryOf svc) e.1 e'.1 =
        true → e.1 = e'.1 := by decide +kernel
  exact fun svc hsvc => tidy_of_items (hplain svc hsvc) (hzeros svc hsvc) (honce svc hsvc)

/-- A value of a slot that no key of the merged service has is lost. -/
theorem not_losesNothing {merged : List Service} {base : String} (key value : String) (n : Nat)
    (hgroup : lookup.lookup base = some group)
    (hlost : ∃ m ∈ merged, 2 ≤ (named services (primaryOf m)).length ∧
      (∃ svc ∈ owned (named services (primaryOf m)), svc.lookup key = some value) ∧
      key ∈ slotKeys (primaryOf m) base n ∧ ∀ e ∈ m.items, e.2 ≠ value) :
    ¬ LosesNothing lookup start services merged := by
  intro h
  obtain ⟨m, hm, hlen, ⟨svc, hsvc, hvalue⟩, hkey, hnot⟩ := hlost
  have hgives : (base, value) ∈ Gives lookup (primaryOf m) group svc n :=
    ⟨hgroup, key, hkey, hvalue⟩
  obtain ⟨n', -, key', -, hkey'⟩ := (h.slots m hm hlen group).exists_mem
    (List.mem_map.mpr ⟨svc, hsvc, rfl⟩) hgives
  exact hnot (key', value) (Dict.mem_items.mpr hkey') rfl

/-- A setting without a number and with the number zero. -/
def doubled : List Service :=
  [serviceOf "shop.example.com" "shop" [("shop.example.com_REVERSE_PROXY_HOST", "http://app"),
      ("shop.example.com_REVERSE_PROXY_HOST_0", "http://api")],
    serviceOf "shop.example.com" "shop" []]

/-- A name that the names of settings start with. -/
def shadowing : List Service :=
  [serviceOf "REVERSE" "shop" [("REVERSE_PROXY_HOST_1", "http://app")],
    serviceOf "REVERSE" "shop" [("REVERSE_PROXY_HOST_1", "http://api")]]

def twoNamespaces : List Service :=
  [serviceOf "shop.example.com" "shop" [("REVERSE_PROXY_HOST_1", "http://app")],
    serviceOf "shop.example.com" "api" [("REVERSE_PROXY_HOST_1", "http://api")]]

theorem merging_loses_slots :
    ¬ LosesNothing (buildMultipleGroupsLookup reverseProxySettings) 1 doubled
      (mergeServicesByServerName reverseProxySettings 1 doubled) ∧
    ¬ LosesNothing (buildMultipleGroupsLookup reverseProxySettings) 1 shadowing
      (mergeServicesByServerName reverseProxySettings 1 shadowing) ∧
    ¬ SameSlots (buildMultipleGroupsLookup reverseProxySettings)
      (mergeServicesByServerName reverseProxySettings 1 twoNamespaces)
      (mergeServicesByServerName reverseProxySettings 1 twoNamespaces.reverse) := by
  have hgroup : (buildMultipleGroupsLookup reverseProxySettings).lookup "REVERSE_PROXY_HOST" =
      some "reverse-proxy" := by decide +kernel
  refine ⟨?_, ?_, fun h => ?_⟩
  · exact not_losesNothing "shop.example.com_REVERSE_PROXY_HOST" "http://app" 0 hgroup
      (by decide +kernel)
  · exact not_losesNothing "REVERSE_PROXY_HOST_1" "http://app" 1 hgroup (by decide +kernel)
  · -- The first service of the list is the one that is kept.
    obtain ⟨m, hm, m', hm', hname, hkey, hnot⟩ :
        ∃ m ∈ mergeServicesByServerName reverseProxySettings 1 twoNamespaces,
          ∃ m' ∈ mergeServicesByServerName reverseProxySettings 1 twoNamespaces.reverse,
            primaryOf m = primaryOf m' ∧ m.lookup "REVERSE_PROXY_HOST_1" = some "http://app" ∧
              ∀ e ∈ m'.items, e.2 ≠ "http://app" := by decide +kernel
    have hgives : ("REVERSE_PROXY_HOST", "http://app") ∈
        Gives (buildMultipleGroupsLookup reverseProxySettings) (primaryOf m) "reverse-proxy" m 1 :=
      ⟨hgroup, "REVERSE_PROXY_HOST_1", List.mem_cons_self, hkey⟩
    rw [h m hm m' hm' hname] at hgives
    obtain ⟨-, key, -, hkey'⟩ := hgives
    exact hnot (key, "http://app") (Dict.mem_items.mpr hkey') rfl

end BunkerWeb.Autoconf
