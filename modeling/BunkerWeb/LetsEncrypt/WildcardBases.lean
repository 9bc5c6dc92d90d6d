import BunkerWeb.LetsEncrypt.WildcardLabels

/-!
# The bases of the groups

- **The groups** (`lookup_grouped`): the label lists with one key.
- **The certificates** (`lookup_groups`): one for each base, with the same two names on both sides.
- **The bases** (`baseLabels`, `IsBase`): the certificates of a side are the bases of its groups
  (`lookup_eq_lookup_iff`), and a base has the key of its group (`of_mem_baseLabels`). So both sides
  agree when their groups have the same bases (`agree_iff_isBase`).
- **Repetitions** (`mem_baseLabels_congr`, `mem_baseLabels_of_forall_eq`): of a group of several
  lists only the set counts, but one list is not the same as twice that list.
- **Agreement** (`wildcard_groups_agree_iff`): the groups of the two sides have the same label lists,
  and differ in how often they have them. That matters where the job has one list and the plugin has
  it several times: the job takes the labels after the first one, the plugin the whole list.
-/

namespace BunkerWeb.LetsEncrypt

open Lib

/-! ## The label lists of a group -/

/-- The label lists with the key `k`. -/
def groupLists (k : Name) (labelsList : List Labels) : List Labels :=
  labelsList.filter fun labels => groupKey labels = k

theorem lookup_grouped (k : Name) (labelsList : List Labels) :
    (grouped labelsList).lookup k =
      if groupLists k labelsList = [] then none else some (groupLists k labelsList) := by
  induction labelsList using List.reverseRecOn with
  | nil => rfl
  | append_singleton labelsList labels ih =>
    rw [grouped, List.foldl_concat, ← grouped]
    by_cases hk : groupKey labels = k
    · subst hk
      have hgroup : groupLists (groupKey labels) (labelsList ++ [labels]) =
          groupLists (groupKey labels) labelsList ++ [labels] := by
        simp [groupLists]
      have hget : ((grouped labelsList).lookup (groupKey labels)).getD [] =
          groupLists (groupKey labels) labelsList := by
        rw [ih]
        split
        next h => rw [h, Option.getD_none]
        next => rw [Option.getD_some]
      rw [AList.lookup_insert, hget, hgroup, if_neg (by simp)]
    · rw [AList.lookup_insert_ne (Ne.symm hk), ih]
      simp [groupLists, List.filter_append, hk]

theorem mem_items_grouped {k : Name} {group : List Labels} {labelsList : List Labels} :
    (k, group) ∈ (grouped labelsList).items ↔ group ≠ [] ∧ group = groupLists k labelsList := by
  rw [Dict.mem_items, lookup_grouped]
  split
  next h =>
    constructor
    · nofun
    · rintro ⟨hne, rfl⟩
      exact absurd h hne
  next h =>
    constructor
    · intro hgroup
      cases hgroup
      exact ⟨h, rfl⟩
    · rintro ⟨-, rfl⟩
      rfl

/-! ## The names of the certificates -/

/-- The names that are collected for a base. -/
def baseNames (base : Name) : List Name := ['*' :: '.' :: base, base]

theorem union_baseNames (base : Name) :
    baseNames base ∪ baseNames base = baseNames base := by
  simp [baseNames, List.insert]

theorem lookup_foldl_addBase {d : Dict Name (List Name)} {bases : List Name}
    (hd : ∀ base, d.lookup base = none ∨ d.lookup base = some (baseNames base)) (base : Name) :
    (bases.foldl addBase d).lookup base =
      if base ∈ bases then some (baseNames base) else d.lookup base := by
  induction bases generalizing d with
  | nil => rfl
  | cons b bases ih =>
    have hb : (addBase d b).lookup b = some (baseNames b) := by
      rw [addBase, AList.lookup_insert]
      rcases hd b with h | h
      · rw [h]
        rfl
      · rw [h]
        exact congrArg some (union_baseNames b)
    have hne : ∀ base, base ≠ b → (addBase d b).lookup base = d.lookup base :=
      fun base h => AList.lookup_insert_ne h
    have hd' : ∀ base, (addBase d b).lookup base = none ∨
        (addBase d b).lookup base = some (baseNames base) := by
      intro base
      by_cases h : base = b
      · subst h
        exact .inr hb
      · rw [hne base h]
        exact hd base
    rw [List.foldl_cons, ih hd']
    by_cases h : base = b
    · subst h
      simp [hb]
    · simp [h, hne base h]

/-- Both sides sort in the same order. -/
theorem sortedBefore_eq (a b : Name) : CertbotNew.sortedBefore a b = !Plugin.before b a := by
  unfold CertbotNew.sortedBefore Plugin.before
  by_cases h : isWildcard a = isWildcard b
  · rw [if_pos h, if_pos h.symm]
  · rw [if_neg h, if_neg (Ne.symm h)]
    cases ha : isWildcard a <;> cases hb : isWildcard b <;> simp_all

/-! ## The bases of a group -/

/-- The bases of a group, as labels. -/
def baseLabels : List Labels → List Labels
  | [] => []
  | [labels] => [shortened labels]
  | labelsList =>
    let common := commonSuffix (minLen labelsList) labelsList
    if 2 ≤ common.length ∧ minLen labelsList - 1 ≤ common.length then [common]
    else labelsList.map shortened

theorem mem_determine_job {b : Name} (labelsList : List Labels) :
    b ∈ CertbotNew.determineWildcardBases labelsList ↔
      ∃ m ∈ baseLabels labelsList, join m = b := by
  match labelsList with
  | [] => simp [CertbotNew.determineWildcardBases, baseLabels]
  | [labels] => simp [CertbotNew.determineWildcardBases, baseLabels, eq_comm]
  | labels :: labels' :: rest =>
    simp only [CertbotNew.determineWildcardBases, baseLabels]
    split
    · simp [eq_comm]
    · simp only [List.mem_dedup, List.mem_map, exists_exists_and_eq_and]

theorem mem_determine_plugin {b : Name} (hb : b ≠ []) (labelsList : List Labels) :
    b ∈ Plugin.determineWildcardBases labelsList ↔ ∃ m ∈ baseLabels labelsList, join m = b := by
  have hkeep : (!b.isEmpty) = true := by simpa using hb
  match labelsList with
  | [] => simp [Plugin.determineWildcardBases, baseLabels]
  | [labels] => simp [Plugin.determineWildcardBases, baseLabels, eq_comm]
  | labels :: labels' :: rest =>
    simp only [Plugin.determineWildcardBases, baseLabels]
    split
    · simp [eq_comm]
    · simp only [List.mem_eraseDups, List.mem_filter, hkeep, and_true, List.mem_map,
        exists_exists_and_eq_and]

theorem baseLabels_of_two_le {labelsList : List Labels} (h : 2 ≤ labelsList.length) :
    baseLabels labelsList =
      if 2 ≤ (commonSuffix (minLen labelsList) labelsList).length ∧
          minLen labelsList - 1 ≤ (commonSuffix (minLen labelsList) labelsList).length then
        [commonSuffix (minLen labelsList) labelsList]
      else labelsList.map shortened := by
  match labelsList, h with
  | _ :: _ :: _, _ => rfl

/-- A base is a common end of labels of its group, and has their key. -/
theorem of_mem_baseLabels {labelsList : List Labels} {m : Labels} {k : Name}
    (hgood : ∀ l ∈ labelsList, Good l) (hkey : ∀ l ∈ labelsList, groupKey l = k)
    (hm : m ∈ baseLabels labelsList) : Good m ∧ groupKey m = k := by
  have hshort : ∀ l ∈ labelsList, Good (shortened l) ∧ groupKey (shortened l) = k := fun l hl =>
    ⟨(hgood l hl).of_suffix (shortened_suffix l) (shortened_ne_nil (hgood l hl).ne_nil),
      (groupKey_shortened l).trans (hkey l hl)⟩
  match labelsList, hm with
  | [labels], hm =>
    rw [List.mem_singleton.mp hm]
    exact hshort labels (List.mem_singleton_self labels)
  | labels :: labels' :: rest, hm =>
    rw [baseLabels_of_two_le (by simp)] at hm
    split at hm
    next hcommon =>
      obtain rfl := List.mem_singleton.mp hm
      have hl : labels ∈ labels :: labels' :: rest := List.mem_cons_self
      have hsuffix := commonSuffix_suffix (minLen (labels :: labels' :: rest)) hl
      have hne := List.ne_nil_of_length_pos (Nat.lt_of_lt_of_le Nat.zero_lt_two hcommon.1)
      refine ⟨(hgood labels hl).of_suffix hsuffix hne, ?_⟩
      rw [groupKey_of_suffix hsuffix hcommon.1, hkey labels hl]
    next =>
      obtain ⟨l, hl, rfl⟩ := List.mem_map.mp hm
      exact hshort l hl

/-! ## Which label lists make a difference -/

theorem minLen_eq {labelsList : List Labels} {n : Nat} (hmem : ∃ l ∈ labelsList, l.length = n)
    (hle : ∀ l ∈ labelsList, n ≤ l.length) : minLen labelsList = n := by
  have hmin : (labelsList.map List.length).min? = some n :=
    List.min?_eq_some_iff.mpr ⟨by simpa using hmem, by simpa using hle⟩
  rw [minLen, hmin, Option.getD_some]

theorem minLen_spec {labelsList : List Labels} (hne : labelsList ≠ []) :
    (∃ l ∈ labelsList, l.length = minLen labelsList) ∧
      ∀ l ∈ labelsList, minLen labelsList ≤ l.length := by
  obtain ⟨n, hn⟩ : ∃ n, (labelsList.map List.length).min? = some n :=
    Option.ne_none_iff_exists'.mp (by simpa using hne)
  have hmin : minLen labelsList = n := by rw [minLen, hn, Option.getD_some]
  rw [hmin]
  simpa using List.min?_eq_some_iff.mp hn

/-- Of a group of several lists only the set counts. -/
theorem mem_baseLabels_congr {labelsList labelsList' : List Labels} (h : 2 ≤ labelsList.length)
    (h' : 2 ≤ labelsList'.length) (hmem : ∀ l, l ∈ labelsList ↔ l ∈ labelsList') (m : Labels) :
    m ∈ baseLabels labelsList ↔ m ∈ baseLabels labelsList' := by
  have hne : labelsList ≠ [] := List.ne_nil_of_length_pos (by omega)
  have hne' : labelsList' ≠ [] := List.ne_nil_of_length_pos (by omega)
  obtain ⟨⟨l, hl, hlen⟩, hle⟩ := minLen_spec hne'
  have hmin : minLen labelsList = minLen labelsList' :=
    minLen_eq ⟨l, (hmem l).mpr hl, hlen⟩ fun l hl => hle l ((hmem l).mp hl)
  rw [baseLabels_of_two_le h, baseLabels_of_two_le h', hmin, commonSuffix_congr hne hmem]
  split
  · rfl
  · simp only [List.mem_map, hmem]

/-- A group in which one list is there several times. -/
theorem mem_baseLabels_of_forall_eq {labelsList : List Labels} (h : 2 ≤ labelsList.length)
    {labels : Labels} (hall : ∀ l ∈ labelsList, l = labels) (m : Labels) :
    m ∈ baseLabels labelsList ↔ m = labels := by
  have hne : labelsList ≠ [] := List.ne_nil_of_length_pos (by omega)
  have hmem : ∀ l, l ∈ labelsList ↔ l = labels := by
    obtain ⟨l, hl⟩ := List.exists_mem_of_ne_nil labelsList hne
    exact fun l' => ⟨hall l', fun he => by rw [he, ← hall l hl]; exact hl⟩
  have hmin : minLen labelsList = labels.length :=
    minLen_eq ⟨labels, (hmem labels).mpr rfl, rfl⟩ fun l hl => by rw [hall l hl]
  have hcommon : commonSuffix labels.length labelsList = labels := by
    refine commonSuffix_eq hne (Nat.le_refl _) (fun l hl => ?_) ?_
    · obtain rfl := hall l hl
      exact List.suffix_rfl
    · exact commonSuffix_suffix labels.length ((hmem labels).mpr rfl)
  rw [baseLabels_of_two_le h, hmin, hcommon]
  split
  next => exact List.mem_singleton
  next hshort =>
    have hself : shortened labels = labels := if_neg (by omega)
    simp only [List.mem_map, hmem, exists_eq_left, hself]
    exact eq_comm

/-! ## The bases of a list of names -/

/-- `m` is a base of its group. -/
def IsBase (labelsList : List Labels) (m : Labels) : Prop :=
  m ∈ baseLabels (groupLists (groupKey m) labelsList)

variable {labelsList : List Labels} {m : Labels} {v : Name}

theorem good_of_mem_filterMap {domains : List Name} {labels : Labels}
    (h : labels ∈ domains.filterMap CertbotNew.cleanedLabels) : Good labels := by
  obtain ⟨name, -, hname⟩ := List.mem_filterMap.mp h
  exact good_of_cleanedLabels hname

theorem of_mem_baseLabels_groupLists (hgood : ∀ l ∈ labelsList, Good l) {k : Name}
    (hm : m ∈ baseLabels (groupLists k labelsList)) : Good m ∧ groupKey m = k :=
  of_mem_baseLabels (fun l hl => hgood l (List.mem_filter.mp hl).1)
    (fun l hl => by simpa using (List.mem_filter.mp hl).2) hm

theorem IsBase.good (hgood : ∀ l ∈ labelsList, Good l) (h : IsBase labelsList m) : Good m :=
  (of_mem_baseLabels_groupLists hgood h).1

/-- What the groups bring, by a function that yields their bases as texts. -/
theorem mem_flatMap_items {determine : List Labels → List Name} {b : Name}
    (hdetermine : ∀ group, b ∈ determine group ↔ ∃ m ∈ baseLabels group, join m = b)
    (hgood : ∀ l ∈ labelsList, Good l) :
    (b ∈ (grouped labelsList).items.flatMap fun group => determine group.2) ↔
      ∃ m, IsBase labelsList m ∧ join m = b := by
  rw [List.mem_flatMap]
  constructor
  · rintro ⟨⟨k, group⟩, hitem, hb⟩
    obtain ⟨-, rfl⟩ := mem_items_grouped.mp hitem
    obtain ⟨m, hm, hjoin⟩ := (hdetermine _).mp hb
    obtain ⟨-, rfl⟩ := of_mem_baseLabels_groupLists hgood hm
    exact ⟨m, hm, hjoin⟩
  · rintro ⟨m, hm, hjoin⟩
    have hne : groupLists (groupKey m) labelsList ≠ [] := by
      intro he
      rw [IsBase, he] at hm
      exact absurd hm List.not_mem_nil
    exact ⟨(groupKey m, groupLists (groupKey m) labelsList), mem_items_grouped.mpr ⟨hne, rfl⟩,
      (hdetermine _).mpr ⟨m, hm, hjoin⟩⟩

/-- The certificates of one side, by the list of their bases. -/
theorem lookup_groups {bases : List Name} (sort : List Name → List Name) (base : Name) :
    ((bases.foldl addBase ∅).mapValues sort).lookup base =
      if base ∈ bases then some (sort (baseNames base)) else none := by
  rw [Dict.lookup_mapValues, lookup_foldl_addBase fun _ => .inl (AList.lookup_empty _)]
  split
  · rfl
  · rw [AList.lookup_empty]
    rfl

theorem mem_jobBases (hgood : ∀ l ∈ labelsList, Good l) {base : Name} :
    (base ∈ (((grouped labelsList).items.flatMap fun group =>
        CertbotNew.determineWildcardBases group.2).map CertbotNew.stripDots).filter
          fun base => !base.isEmpty) ↔ ∃ m, IsBase labelsList m ∧ join m = base := by
  rw [List.mem_filter, List.mem_map]
  constructor
  · rintro ⟨⟨b, hb, rfl⟩, -⟩
    obtain ⟨m, hm, rfl⟩ := (mem_flatMap_items (fun _ => mem_determine_job _) hgood).mp hb
    exact ⟨m, hm, (stripDots_join (hm.good hgood)).symm⟩
  · rintro ⟨m, hm, rfl⟩
    refine ⟨⟨join m, ?_, stripDots_join (hm.good hgood)⟩, ?_⟩
    · exact (mem_flatMap_items (fun _ => mem_determine_job _) hgood).mpr ⟨m, hm, rfl⟩
    · simpa using join_ne_nil (hm.good hgood)

theorem mem_pluginBases (hgood : ∀ l ∈ labelsList, Good l) {base : Name} :
    (base ∈ ((grouped labelsList).items.flatMap fun group =>
        Plugin.determineWildcardBases group.2).filter fun base => !base.isEmpty) ↔
      ∃ m, IsBase labelsList m ∧ join m = base := by
  rw [List.mem_filter]
  constructor
  · rintro ⟨hb, hne⟩
    have hne' : base ≠ [] := by simpa using hne
    exact (mem_flatMap_items (fun _ => mem_determine_plugin hne' _) hgood).mp hb
  · rintro ⟨m, hm, rfl⟩
    have hne := join_ne_nil (hm.good hgood)
    refine ⟨?_, by simpa using hne⟩
    exact (mem_flatMap_items (fun _ => mem_determine_plugin hne _) hgood).mpr ⟨m, hm, rfl⟩

private theorem ite_some_eq_iff {α : Type*} {p q : Prop} [Decidable p] [Decidable q] (a : α) :
    (if p then some a else none) = (if q then some a else none) ↔ (p ↔ q) := by
  by_cases hp : p <;> by_cases hq : q <;> simp [hp, hq]

/-- The certificates of both sides. -/
theorem lookup_eq_lookup_iff (hv : ∀ c ∈ v, Common c) (domains : List Name) (base : Name) :
    (CertbotNew.extractWildcardGroups domains).lookup base =
        (Plugin.buildWildcardGroups (Plugin.serverList v)).lookup base ↔
      ((∃ m, IsBase (domains.filterMap CertbotNew.cleanedLabels) m ∧ join m = base) ↔
        ∃ m, IsBase ((names v).filterMap CertbotNew.cleanedLabels) m ∧ join m = base) := by
  have hsort : (fun a b => !Plugin.before b a) = CertbotNew.sortedBefore :=
    funext fun a => funext fun b => (sortedBefore_eq a b).symm
  rw [CertbotNew.extractWildcardGroups, Plugin.buildWildcardGroups,
    filterMap_sanitizeDomainLabels hv, hsort, lookup_groups, lookup_groups,
    ← mem_jobBases fun l hl => good_of_mem_filterMap hl,
    ← mem_pluginBases fun l hl => good_of_mem_filterMap hl]
  exact ite_some_eq_iff _

/-- A base is known by its text. -/
theorem exists_isBase_iff (hgood : ∀ l ∈ labelsList, Good l) (hm : Good m) :
    (∃ m', IsBase labelsList m' ∧ join m' = join m) ↔ IsBase labelsList m := by
  constructor
  · rintro ⟨m', hm', hjoin⟩
    rwa [join_inj (hm'.good hgood) hm hjoin] at hm'
  · exact fun h => ⟨m, h, rfl⟩

theorem agree_iff_isBase (hv : ∀ c ∈ v, Common c) :
    Agree v ↔ ∀ domains : List Name, domains.Nodup → (∀ n, n ∈ domains ↔ n ∈ names v) →
      ∀ m, IsBase (domains.filterMap CertbotNew.cleanedLabels) m ↔
        IsBase ((names v).filterMap CertbotNew.cleanedLabels) m := by
  have hset : ∀ domains : List Name,
      domains.toFinset = CertbotNew.normalizeServerNames v ↔ ∀ n, n ∈ domains ↔ n ∈ names v := by
    intro domains
    simp only [Finset.ext_iff, List.mem_toFinset, mem_normalizeServerNames hv]
  unfold Agree
  simp only [hset, lookup_eq_lookup_iff hv]
  refine forall_congr' fun domains => imp_congr_right fun _ => imp_congr_right fun _ => ?_
  constructor
  · intro h m
    have hjob : ∀ l ∈ domains.filterMap CertbotNew.cleanedLabels, Good l :=
      fun l hl => good_of_mem_filterMap hl
    have hplugin : ∀ l ∈ (names v).filterMap CertbotNew.cleanedLabels, Good l :=
      fun l hl => good_of_mem_filterMap hl
    have hjoin := h (join m)
    constructor
    · intro hm
      have hgood := hm.good hjob
      rwa [exists_isBase_iff hjob hgood, exists_isBase_iff hplugin hgood, iff_true_left hm] at hjoin
    · intro hm
      have hgood := hm.good hplugin
      rwa [exists_isBase_iff hjob hgood, exists_isBase_iff hplugin hgood, iff_true_right hm]
        at hjoin
  · exact fun h base => exists_congr fun m => and_congr_left fun _ => h m

/-! ## How often a name is there -/

theorem length_groupLists (k : Name) (l : List Name) :
    (groupLists k (l.filterMap CertbotNew.cleanedLabels)).length =
      l.countP fun name => groupOf name = some k := by
  induction l with
  | nil => rfl
  | cons name l ih =>
    cases hname : CertbotNew.cleanedLabels name with
    | none => simp [groupOf, hname, ih]
    | some labels =>
      rw [List.filterMap_cons_some hname, groupLists, List.filter_cons, ← groupLists,
        List.countP_cons]
      by_cases hk : groupKey labels = k <;> simp [groupOf, hname, hk, ih]

theorem mem_groupLists {k : Name} {l : List Name} {labels : Labels} :
    labels ∈ groupLists k (l.filterMap CertbotNew.cleanedLabels) ↔
      groupKey labels = k ∧ ∃ name ∈ l, CertbotNew.cleanedLabels name = some labels := by
  rw [groupLists, List.mem_filter, List.mem_filterMap, and_comm]
  simp

/-- In a group of one name only. -/
theorem length_groupLists_of_alone {k n : Name} {l : List Name}
    (halone : ∀ other ∈ l, groupOf other = some k ↔ other = n) :
    (groupLists k (l.filterMap CertbotNew.cleanedLabels)).length = l.count n := by
  rw [length_groupLists, List.count_eq_countP]
  exact List.countP_congr fun other hother => by simpa using halone other hother

theorem groupOf_eq {name : Name} {labels : Labels}
    (h : CertbotNew.cleanedLabels name = some labels) : groupOf name = some (groupKey labels) := by
  rw [groupOf, h, Option.map_some]

/-- In a group with one list for the job, when its name is there once or short. -/
theorem mem_baseLabels_iff_of_singleton (hn : AloneOnce v) {domains : List Name}
    (hmem : ∀ n, n ∈ domains ↔ n ∈ names v) {k : Name} {labels : Labels}
    (hjob : groupLists k (domains.filterMap CertbotNew.cleanedLabels) = [labels])
    (hset : ∀ l, l ∈ groupLists k ((names v).filterMap CertbotNew.cleanedLabels) ↔ l = labels) :
    m ∈ baseLabels [labels] ↔
      m ∈ baseLabels (groupLists k ((names v).filterMap CertbotNew.cleanedLabels)) := by
  obtain ⟨rfl, name, hname, hlabels⟩ := mem_groupLists.mp (hjob ▸ List.mem_singleton_self labels)
  have hlength : (domains.filter fun name => groupOf name = some (groupKey labels)).length = 1 := by
    rw [← List.countP_eq_length_filter, ← length_groupLists, hjob]
    rfl
  obtain ⟨only, honly⟩ := List.length_eq_one_iff.mp hlength
  have hfilter : ∀ other ∈ domains, groupOf other = some (groupKey labels) → other = only := by
    intro other hother hgroup
    have hin : other ∈ domains.filter fun name => groupOf name = some (groupKey labels) :=
      List.mem_filter.mpr ⟨hother, decide_eq_true hgroup⟩
    rw [honly] at hin
    exact List.mem_singleton.mp hin
  have halone : ∀ other ∈ names v, groupOf other = some (groupKey labels) ↔ other = name := by
    intro other hother
    constructor
    · intro hgroup
      rw [hfilter other ((hmem other).mpr hother) hgroup, hfilter name hname (groupOf_eq hlabels)]
    · rintro rfl
      exact groupOf_eq hlabels
  have hcount := length_groupLists_of_alone halone
  have hpos : 0 < (names v).count name := List.count_pos_iff.mpr ((hmem name).mp hname)
  by_cases honce : (names v).count name = 1
  · obtain ⟨l, hl⟩ := List.length_eq_one_iff.mp (hcount.trans honce)
    rw [hl, (hset l).mp (hl ▸ List.mem_singleton_self l)]
  · have hshort : ¬ 2 < labels.length := by
      intro hlong
      refine honce (hn name ((hmem name).mp hname) (by rw [hlabels]; exact hlong) ?_)
      intro other hother hgroup
      exact (halone other hother).mp (hgroup.trans (groupOf_eq hlabels))
    rw [mem_baseLabels_of_forall_eq (by omega) fun l hl => (hset l).mp hl]
    simp [baseLabels, shortened, hshort]

theorem isBase_iff_of_aloneOnce (hn : AloneOnce v) {domains : List Name} (hnodup : domains.Nodup)
    (hmem : ∀ n, n ∈ domains ↔ n ∈ names v) (m : Labels) :
    IsBase (domains.filterMap CertbotNew.cleanedLabels) m ↔
      IsBase ((names v).filterMap CertbotNew.cleanedLabels) m := by
  unfold IsBase
  have hset : ∀ l, l ∈ groupLists (groupKey m) (domains.filterMap CertbotNew.cleanedLabels) ↔
      l ∈ groupLists (groupKey m) ((names v).filterMap CertbotNew.cleanedLabels) := by
    simp only [mem_groupLists, hmem, implies_true]
  have hle : (groupLists (groupKey m) (domains.filterMap CertbotNew.cleanedLabels)).length ≤
      (groupLists (groupKey m) ((names v).filterMap CertbotNew.cleanedLabels)).length := by
    rw [length_groupLists, length_groupLists]
    exact (hnodup.subperm fun n hn => (hmem n).mp hn).countP_le _
  match hjob : groupLists (groupKey m) (domains.filterMap CertbotNew.cleanedLabels) with
  | [] =>
    rw [hjob] at hset
    rw [List.eq_nil_iff_forall_not_mem.mpr fun l hl => List.not_mem_nil ((hset l).mpr hl)]
  | [labels] =>
    refine mem_baseLabels_iff_of_singleton hn hmem hjob fun l => ?_
    rw [← hset l, hjob, List.mem_singleton]
  | labels :: labels' :: rest =>
    rw [hjob] at hset hle
    exact mem_baseLabels_congr (by simp) (Nat.le_trans (by simp) hle) hset m

/-- A long name that is alone in its group and there several times makes a difference. -/
theorem aloneOnce_of_isBase_iff
    (h : ∀ m, IsBase ((names v).dedup.filterMap CertbotNew.cleanedLabels) m ↔
      IsBase ((names v).filterMap CertbotNew.cleanedLabels) m) : AloneOnce v := by
  intro name hname hlong halone
  obtain ⟨labels, hlabels⟩ : ∃ labels, CertbotNew.cleanedLabels name = some labels := by
    cases hl : CertbotNew.cleanedLabels name with
    | none => simp [hl] at hlong
    | some labels => exact ⟨labels, rfl⟩
  rw [hlabels, Option.getD_some] at hlong
  have hgroup := groupOf_eq hlabels
  have honly : ∀ other ∈ names v, groupOf other = some (groupKey labels) ↔ other = name := by
    intro other hother
    rw [← hgroup]
    exact ⟨halone other hother, fun he => by rw [he]⟩
  have hjob : groupLists (groupKey labels)
      ((names v).dedup.filterMap CertbotNew.cleanedLabels) = [labels] := by
    have hlength := length_groupLists_of_alone (l := (names v).dedup) fun other hother =>
      honly other (List.mem_dedup.mp hother)
    rw [List.count_eq_one_of_mem (List.nodup_dedup _) (List.mem_dedup.mpr hname)] at hlength
    obtain ⟨l, hl⟩ := List.length_eq_one_iff.mp hlength
    have hmem := mem_groupLists.mpr ⟨rfl, name, List.mem_dedup.mpr hname, hlabels⟩
    rw [hl] at hmem
    rw [hl, List.mem_singleton.mp hmem]
  have hall : ∀ l ∈ groupLists (groupKey labels)
      ((names v).filterMap CertbotNew.cleanedLabels), l = labels := by
    intro l hl
    obtain ⟨hkey, other, hother, hl⟩ := mem_groupLists.mp hl
    obtain rfl := (honly other hother).mp (by rw [groupOf_eq hl, hkey])
    exact Option.some_inj.mp (hl.symm.trans hlabels)
  by_contra honce
  have hpos : 0 < (names v).count name := List.count_pos_iff.mpr hname
  have hlength := length_groupLists_of_alone honly
  have hbase := (h (shortened labels)).mp (by
    rw [IsBase, groupKey_shortened, hjob]
    exact List.mem_singleton_self _)
  rw [IsBase, groupKey_shortened, mem_baseLabels_of_forall_eq (by omega) hall] at hbase
  exact shortened_ne hlong hbase

/-- On a value in which both sides find the same words, they have the same certificates exactly
when no name of more than two labels that is the only one of its group is there twice. -/
theorem wildcard_groups_agree_iff {v : Name} (hv : ∀ c ∈ v, Common c) :
    Agree v ↔ AloneOnce v := by
  rw [agree_iff_isBase hv]
  constructor
  · exact fun h => aloneOnce_of_isBase_iff
      (h (names v).dedup (List.nodup_dedup _) fun _ => List.mem_dedup)
  · exact fun hn _ hnodup hmem => isBase_iff_of_aloneOnce hn hnodup hmem

theorem common_of_all {v : Name} (h : v.all (decide <| Common ·) = true) :
    ∀ c ∈ v, Common c := by
  simpa using h

/-- Two names of one group. -/
theorem wildcard_groups_agree_two_names : Agree "www.example.com *.example.com".toList :=
  (wildcard_groups_agree_iff (common_of_all (by decide))).mpr (by decide)

end BunkerWeb.LetsEncrypt
