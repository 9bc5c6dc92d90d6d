import BunkerWeb.LetsEncrypt.WildcardBases

/-!
# Which names the wildcard certificates cover

A wildcard stands for exactly one label, so `*.base` covers the names one label below `base`. The
bases of a group are chosen by its shallowest name, and the other names may be too deep for them.

- **The condition** (`Reached`): no name is too deep for the one base of its group (`TooDeep`), and
  the base of a `*.` name is one of the bases (`WildcardListed`).
- **The group** (`shallow_iff`): when it has one base for all its names.
- **The result** (`wildcards_cover_iff`).
-/

namespace BunkerWeb.LetsEncrypt

open Lib

/-! ## Covering -/

/-- The domain of a certificate covers the name: it is the name, or the wildcard for its first
label. -/
def covers (entry name : Name) : Bool :=
  entry = name ||
    (!isWildcard name && isWildcard entry && !(name.takeWhile (· ≠ '.')).isEmpty &&
      name.dropWhile (· ≠ '.') = entry.drop 1)

/-- Every name is covered by a domain of some certificate. -/
def Covered (domains : List Name) : Prop :=
  ∀ name ∈ domains, ∃ group ∈ (CertbotNew.extractWildcardGroups domains).items,
    ∃ entry ∈ group.2, covers entry name = true

/-- A name as `normalize_server_names` leaves it. -/
def IsNormalized (name : Name) : Prop := lower (stripChars name) = name

instance (name : Name) : Decidable (IsNormalized name) := inferInstanceAs (Decidable (_ = _))

/-! ## The condition -/

/-- Another name of the group has all of it below its parent, and is so much shorter that the name
is at least two labels below the base of the group. -/
def TooDeep (labels : Labels) (group : List Labels) : Prop :=
  ∃ l ∈ group, (∀ l' ∈ group, l.tail <:+ l') ∧ l.length < labels.length ∧
    (l.length + 1 < labels.length ∨ ¬ ∀ l' ∈ group, l <:+ l')

/-- `*.` and the labels are listed: they are short, or all names of a group of several end in them,
or the group is not below the parent of one name and there is a name one label below them or below
their wildcard. -/
def WildcardListed (labels : Labels) (group : List Labels) : Prop :=
  labels.length ≤ 2 ∨ (2 ≤ group.length ∧ ∀ l' ∈ group, labels <:+ l') ∨
    (¬ ∃ l ∈ group, ∀ l' ∈ group, l.tail <:+ l') ∧
      ∃ l ∈ group, l.tail = labels ∨ l.tail = ['*'] :: labels

/-- No name is out of reach of the bases of its group. -/
def Reached (domains : List Name) : Prop :=
  ∀ name ∈ domains, match CertbotNew.cleanedLabels name with
    | none => False
    | some labels =>
      let group := groupLists (groupKey labels) (domains.filterMap CertbotNew.cleanedLabels)
      (name = join labels ∧ ¬ TooDeep labels group) ∨
        (name = '*' :: '.' :: join labels ∧ WildcardListed labels group)

instance (labels : Labels) (group : List Labels) : Decidable (TooDeep labels group) :=
  inferInstanceAs (Decidable (∃ _ ∈ _, _))

instance (labels : Labels) (group : List Labels) : Decidable (WildcardListed labels group) :=
  inferInstanceAs (Decidable (_ ∨ _ ∨ _))

/-! ## The names of the certificates -/

/-- The bases of the certificates that the job asks for. -/
def jobBases (domains : List Name) : List Name :=
  (((grouped (domains.filterMap CertbotNew.cleanedLabels)).items.flatMap fun group =>
    CertbotNew.determineWildcardBases group.2).map CertbotNew.stripDots).filter
      fun base => !base.isEmpty

theorem mem_items_extract {domains : List Name} {base : Name} {group : List Name} :
    (base, group) ∈ (CertbotNew.extractWildcardGroups domains).items ↔
      base ∈ jobBases domains ∧ group = (baseNames base).mergeSort CertbotNew.sortedBefore := by
  rw [Dict.mem_items, CertbotNew.extractWildcardGroups, lookup_groups, ← jobBases]
  split
  next h => simp [h, eq_comm]
  next h => simp [h]

/-- A name is covered by the wildcard of a base or by the base. -/
theorem exists_covers_iff {domains : List Name} {name : Name} :
    (∃ group ∈ (CertbotNew.extractWildcardGroups domains).items,
        ∃ entry ∈ group.2, covers entry name = true) ↔
      ∃ base ∈ jobBases domains, covers ('*' :: '.' :: base) name ∨ covers base name := by
  constructor
  · rintro ⟨⟨base, group⟩, hgroup, entry, hentry, hcovers⟩
    obtain ⟨hbase, rfl⟩ := mem_items_extract.mp hgroup
    have hentry : entry ∈ baseNames base := List.mem_mergeSort.mp hentry
    rcases List.mem_cons.mp hentry with rfl | hentry
    · exact ⟨base, hbase, .inl hcovers⟩
    · rw [List.mem_singleton.mp hentry] at hcovers
      exact ⟨base, hbase, .inr hcovers⟩
  · rintro ⟨base, hbase, hcovers⟩
    refine ⟨(base, _), mem_items_extract.mpr ⟨hbase, rfl⟩, ?_⟩
    rcases hcovers with hcovers | hcovers
    · exact ⟨_, List.mem_mergeSort.mpr List.mem_cons_self, hcovers⟩
    · exact ⟨_, List.mem_mergeSort.mpr (List.mem_cons_of_mem _ List.mem_cons_self), hcovers⟩

/-- A name two labels below another one, and a wildcard whose base is not asked for. -/
theorem too_deep_or_not_listed :
    ¬ Covered ["example.com".toList, "a.b.example.com".toList] ∧
      ¬ Covered ["*.a.example.com".toList] := by
  constructor
  · intro h
    have hcovers := exists_covers_iff.mp (h "a.b.example.com".toList (by decide))
    exact absurd hcovers (by decide)
  · intro h
    have hcovers := exists_covers_iff.mp (h "*.a.example.com".toList (by decide))
    exact absurd hcovers (by decide)

/-! ## One group -/

section

variable {group : List Labels} {labels k : Labels}

/-- The last two labels, or the only one. -/
def keyLabels (labels : Labels) : Labels :=
  if 2 ≤ labels.length then labels.drop (labels.length - 2) else labels

theorem keyLabels_suffix (labels : Labels) : keyLabels labels <:+ labels := by
  unfold keyLabels
  split
  · exact List.drop_suffix _ _
  · exact List.suffix_rfl

theorem join_keyLabels (labels : Labels) : join (keyLabels labels) = groupKey labels := by
  unfold keyLabels groupKey
  split <;> rfl

theorem length_keyLabels (labels : Labels) : (keyLabels labels).length = min 2 labels.length := by
  unfold keyLabels
  split
  · rw [List.length_drop]
    omega
  · omega

theorem Good.keyLabels {labels : Labels} (h : Good labels) : Good (keyLabels labels) := by
  have hpos := List.length_pos_of_ne_nil h.ne_nil
  refine h.of_suffix (keyLabels_suffix labels) (List.ne_nil_of_length_pos ?_)
  rw [length_keyLabels]
  omega

theorem keyLabels_eq_of_groupKey {l l' : Labels} (h : Good l) (h' : Good l')
    (heq : groupKey l = groupKey l') : keyLabels l = keyLabels l' :=
  join_inj h.keyLabels h'.keyLabels (by rw [join_keyLabels, join_keyLabels, heq])

/-- The group has one base when all of it is below the parent of one of its names. -/
theorem shallow_iff (hk : 2 ≤ k.length) (hend : ∀ l ∈ group, k <:+ l) (hne : group ≠ []) :
    (2 ≤ (commonSuffix (minLen group) group).length ∧
        minLen group - 1 ≤ (commonSuffix (minLen group) group).length) ↔
      ∃ l ∈ group, ∀ l' ∈ group, l.tail <:+ l' := by
  obtain ⟨⟨s, hs, hlen⟩, hle⟩ := minLen_spec hne
  have hkle : k.length ≤ minLen group := hlen ▸ (hend s hs).length_le
  have hcommon : k <:+ commonSuffix (minLen group) group := suffix_commonSuffix hne hkle hend
  constructor
  · rintro ⟨-, hmin⟩
    refine ⟨s, hs, fun l' hl' => ?_⟩
    have htail : s.tail.length ≤ (commonSuffix (minLen group) group).length := by
      rw [List.length_tail, hlen]
      exact hmin
    exact (List.suffix_of_suffix_length_le (List.tail_suffix s)
      (commonSuffix_suffix _ hs) htail).trans (commonSuffix_suffix _ hl')
  · rintro ⟨l, hl, htail⟩
    have hmin : minLen group ≤ l.length := hle l hl
    have hshort : l.tail.length ≤ minLen group := hlen ▸ (htail s hs).length_le
    have htailLen := (suffix_commonSuffix hne hshort htail).length_le
    rw [List.length_tail] at htailLen
    exact ⟨hk.trans hcommon.length_le, by omega⟩

/-- A name is within one label of the base when no other name of the group makes it too deep. -/
theorem le_length_commonSuffix_iff (hl : labels ∈ group)
    (hshallow : ∃ l ∈ group, ∀ l' ∈ group, l.tail <:+ l') :
    labels.length ≤ (commonSuffix (minLen group) group).length + 1 ↔ ¬ TooDeep labels group := by
  have hne : group ≠ [] := List.ne_nil_of_mem hl
  obtain ⟨⟨s, hs, hlen⟩, hle⟩ := minLen_spec hne
  have hcommonLe : ∀ l ∈ group, (commonSuffix (minLen group) group).length ≤ l.length :=
    fun l hl => (commonSuffix_suffix _ hl).length_le
  have hmax : ∀ t : Labels, (∀ l' ∈ group, t <:+ l') →
      t.length ≤ (commonSuffix (minLen group) group).length := fun t ht =>
    (suffix_commonSuffix hne (hlen ▸ (ht s hs).length_le) ht).length_le
  constructor
  · rintro hle ⟨l, hl, htail, hlt, hdeep⟩
    have htail := hmax l.tail htail
    rw [List.length_tail] at htail
    have hcommon := hcommonLe l hl
    rcases hdeep with hdeep | hdeep
    · omega
    · refine hdeep fun l' hl' => ?_
      have heq : commonSuffix (minLen group) group = l :=
        (commonSuffix_suffix _ hl).eq_of_length_le (by omega)
      rw [← heq]
      exact commonSuffix_suffix _ hl'
  · intro hdeep
    by_contra hlt
    obtain ⟨l, hl, htail⟩ := hshallow
    have hminTail := hmax l.tail htail
    rw [List.length_tail] at hminTail
    have hsle : s.length ≤ l.length := hlen ▸ hle l hl
    refine hdeep ⟨s, hs, fun l' hl' => ?_, by omega, ?_⟩
    · have htail : s.tail.length ≤ (commonSuffix (minLen group) group).length := by
        rw [List.length_tail]
        omega
      exact (List.suffix_of_suffix_length_le (List.tail_suffix s)
        (commonSuffix_suffix _ hs) htail).trans (commonSuffix_suffix _ hl')
    · by_cases hall : ∀ l' ∈ group, s <:+ l'
      · have := hmax s hall
        exact .inl (by omega)
      · exact .inr hall

theorem commonSuffix_eq_iff (hl : labels ∈ group) :
    commonSuffix (minLen group) group = labels ↔ ∀ l' ∈ group, labels <:+ l' := by
  constructor
  · rintro h l' hl'
    exact h ▸ commonSuffix_suffix _ hl'
  · intro h
    have hne : group ≠ [] := List.ne_nil_of_mem hl
    obtain ⟨⟨s, hs, hlen⟩, -⟩ := minLen_spec hne
    exact commonSuffix_eq hne (hlen ▸ (h s hs).length_le) h (commonSuffix_suffix _ hl)

/-- A group of one name, one with one base, and one whose names bring their own bases. -/
theorem baseLabels_cases (hk : 2 ≤ k.length) (hend : ∀ l ∈ group, k <:+ l) (hl : labels ∈ group) :
    group = [labels] ∧ baseLabels group = [shortened labels] ∨
      (2 ≤ group.length ∧ (∃ l ∈ group, ∀ l' ∈ group, l.tail <:+ l') ∧
        baseLabels group = [commonSuffix (minLen group) group]) ∨
      (¬ ∃ l ∈ group, ∀ l' ∈ group, l.tail <:+ l') ∧ baseLabels group = group.map shortened := by
  have hne : group ≠ [] := List.ne_nil_of_mem hl
  by_cases htwo : 2 ≤ group.length
  · by_cases hshallow : ∃ l ∈ group, ∀ l' ∈ group, l.tail <:+ l'
    · refine .inr (.inl ⟨htwo, hshallow, ?_⟩)
      rw [baseLabels_of_two_le htwo, if_pos ((shallow_iff hk hend hne).mpr hshallow)]
    · refine .inr (.inr ⟨hshallow, ?_⟩)
      rw [baseLabels_of_two_le htwo, if_neg (mt (shallow_iff hk hend hne).mp hshallow)]
  · obtain ⟨l, rfl⟩ : ∃ l, group = [l] :=
      List.length_eq_one_iff.mp (by have := List.length_pos_of_ne_nil hne; omega)
    obtain rfl := List.mem_singleton.mp hl
    exact .inl ⟨rfl, rfl⟩

/-- The bases of a group that cover the plain name of the labels: the name, its parent, and the
wildcard of its parent as a name. -/
theorem exists_baseLabels_iff (hk : 2 ≤ k.length) (hend : ∀ l ∈ group, k <:+ l)
    (hl : labels ∈ group) {c : Name} :
    (∃ m ∈ baseLabels group, m = labels ∨ m = labels.tail ∨ m = c :: labels.tail) ↔
      ¬ TooDeep labels group := by
  have hshort : shortened labels = labels ∨ shortened labels = labels.tail := by
    by_cases h : 2 < labels.length
    · exact .inr (shortened_eq_tail h)
    · exact .inl (if_neg h)
  have hcovers : shortened labels = labels ∨ shortened labels = labels.tail ∨
      shortened labels = c :: labels.tail := hshort.imp_right .inl
  rcases baseLabels_cases hk hend hl with ⟨hgroup, hbase⟩ | ⟨-, hshallow, hbase⟩ |
    ⟨hshallow, hbase⟩
  · rw [hbase, hgroup]
    refine iff_of_true ⟨_, List.mem_singleton_self _, hcovers⟩ ?_
    rintro ⟨l, hl, -, hlt, -⟩
    rw [List.mem_singleton.mp hl] at hlt
    exact absurd hlt (Nat.lt_irrefl _)
  · rw [hbase, ← le_length_commonSuffix_iff hl hshallow]
    have hsuffix := commonSuffix_suffix (minLen group) hl
    constructor
    · rintro ⟨m, hm, hcase⟩
      rw [List.mem_singleton.mp hm] at hcase
      rcases hcase with h | h | h
      · rw [h]
        omega
      · rw [h, List.length_tail]
        omega
      · rw [h, List.length_cons, List.length_tail]
        omega
    · intro hle
      refine ⟨_, List.mem_singleton_self _, ?_⟩
      by_cases heq : labels.length ≤ (commonSuffix (minLen group) group).length
      · exact .inl (hsuffix.eq_of_length_le heq)
      · have hlen : (commonSuffix (minLen group) group).length = labels.tail.length := by
          rw [List.length_tail]
          omega
        exact .inr (.inl ((List.suffix_of_suffix_length_le hsuffix (List.tail_suffix labels)
          hlen.le).eq_of_length hlen))
  · rw [hbase]
    refine iff_of_true ⟨_, List.mem_map_of_mem hl, hcovers⟩ ?_
    rintro ⟨l, hl, htail, -⟩
    exact hshallow ⟨l, hl, htail⟩

/-- A base is one label longer than labels of the group. -/
theorem cons_mem_baseLabels_iff (hk : 2 ≤ k.length) (hend : ∀ l ∈ group, k <:+ l)
    (hl : labels ∈ group) {c : Name} : c :: labels ∈ baseLabels group ↔
      (¬ ∃ l ∈ group, ∀ l' ∈ group, l.tail <:+ l') ∧ ∃ l ∈ group, l.tail = c :: labels := by
  have hlong := (hend labels hl).length_le
  rcases baseLabels_cases hk hend hl with ⟨hgroup, hbase⟩ | ⟨-, hshallow, hbase⟩ |
    ⟨hshallow, hbase⟩
  · rw [hbase, hgroup]
    refine iff_of_false (fun h => ?_) fun h => ?_
    · have hlen := (shortened_suffix labels).length_le
      rw [← List.mem_singleton.mp h, List.length_cons] at hlen
      omega
    · exact h.1 ⟨labels, List.mem_singleton_self _, fun l' hl' =>
        List.mem_singleton.mp hl' ▸ List.tail_suffix labels⟩
  · rw [hbase]
    refine iff_of_false (fun h => ?_) fun h => h.1 hshallow
    have hlen := (commonSuffix_suffix (minLen group) hl).length_le
    rw [← List.mem_singleton.mp h, List.length_cons] at hlen
    omega
  · rw [hbase, List.mem_map]
    constructor
    · rintro ⟨l, hl', hshort⟩
      by_cases h : 2 < l.length
      · exact ⟨hshallow, l, hl', by rw [← hshort, shortened_eq_tail h]⟩
      · rw [shortened, if_neg h] at hshort
        rw [hshort, List.length_cons] at h
        omega
    · rintro ⟨-, l, hl', htail⟩
      have hlen := congrArg List.length htail
      rw [List.length_tail, List.length_cons] at hlen
      exact ⟨l, hl', by rw [shortened_eq_tail (by omega), htail]⟩

/-- A base is the labels of a name. -/
theorem mem_baseLabels_iff (hk : 2 ≤ k.length) (hend : ∀ l ∈ group, k <:+ l)
    (hl : labels ∈ group) : labels ∈ baseLabels group ↔
      labels.length ≤ 2 ∨ (2 ≤ group.length ∧ ∀ l' ∈ group, labels <:+ l') ∨
        (¬ ∃ l ∈ group, ∀ l' ∈ group, l.tail <:+ l') ∧ ∃ l ∈ group, l.tail = labels := by
  by_cases hlong : 2 < labels.length
  · have hnotShort : ¬ labels.length ≤ 2 := by omega
    rcases baseLabels_cases hk hend hl with ⟨hgroup, hbase⟩ | ⟨htwo, hshallow, hbase⟩ |
      ⟨hshallow, hbase⟩
    · rw [hbase, hgroup]
      refine iff_of_false (fun h => shortened_ne hlong (List.mem_singleton.mp h).symm) ?_
      rintro (h | ⟨h, -⟩ | ⟨h, -⟩)
      · exact hnotShort h
      · exact absurd h (by decide : ¬ 2 ≤ 1)
      · exact h ⟨labels, List.mem_singleton_self _, fun l' hl' =>
          List.mem_singleton.mp hl' ▸ List.tail_suffix labels⟩
    · rw [hbase, List.mem_singleton, eq_comm, commonSuffix_eq_iff hl]
      constructor
      · exact fun h => .inr (.inl ⟨htwo, h⟩)
      · rintro (h | ⟨-, h⟩ | ⟨h, -⟩)
        · exact absurd h hnotShort
        · exact h
        · exact absurd hshallow h
    · rw [hbase, List.mem_map]
      constructor
      · rintro ⟨l, hl', hshort⟩
        by_cases h : 2 < l.length
        · exact .inr (.inr ⟨hshallow, l, hl', by rw [← hshort, shortened_eq_tail h]⟩)
        · rw [shortened, if_neg h] at hshort
          exact absurd hlong (hshort ▸ h)
      · rintro (h | ⟨-, h⟩ | ⟨-, l, hl', htail⟩)
        · exact absurd h hnotShort
        · exact absurd ⟨labels, hl, fun l' hl' => (List.tail_suffix _).trans (h l' hl')⟩ hshallow
        · have hlen := congrArg List.length htail
          rw [List.length_tail] at hlen
          exact ⟨l, hl', by rw [shortened_eq_tail (by omega), htail]⟩
  · -- The labels are the end of the whole group.
    have hall : ∀ l' ∈ group, labels <:+ l' := by
      have heq : k = labels := (hend labels hl).eq_of_length_le (by omega)
      exact heq ▸ hend
    refine iff_of_true ?_ (.inl (by omega))
    rcases baseLabels_cases hk hend hl with ⟨-, hbase⟩ | ⟨-, -, hbase⟩ | ⟨hshallow, -⟩
    · rw [hbase, shortened, if_neg hlong]
      exact List.mem_singleton_self _
    · rw [hbase, (commonSuffix_eq_iff hl).mpr hall]
      exact List.mem_singleton_self _
    · exact absurd ⟨labels, hl, fun l' hl' => (List.tail_suffix _).trans (hall l' hl')⟩ hshallow

/-- The bases of a group that bring `*.` and the labels. -/
theorem wildcardListed_iff (hk : 2 ≤ k.length) (hend : ∀ l ∈ group, k <:+ l)
    (hl : labels ∈ group) :
    (∃ m ∈ baseLabels group, m = labels ∨ m = ['*'] :: labels) ↔ WildcardListed labels group := by
  have hsplit : (∃ m ∈ baseLabels group, m = labels ∨ m = ['*'] :: labels) ↔
      labels ∈ baseLabels group ∨ ['*'] :: labels ∈ baseLabels group := by
    simp only [and_or_left, exists_or, exists_eq_right]
  rw [hsplit, mem_baseLabels_iff hk hend hl, cons_mem_baseLabels_iff hk hend hl, WildcardListed,
    or_assoc, or_assoc, ← and_or_left]
  simp only [and_or_left, exists_or]

end

/-! ## The texts of labels -/

theorem splitLabels_join {m : Labels} (h : Good m) : splitLabels (join m) = m := by
  have hsplit : (join m).splitOnP (· = '.') = m := by
    have hsplit := List.splitOn_intercalate '.' h.no_dot h.ne_nil
    rwa [List.splitOn] at hsplit
  rw [splitLabels, fields, hsplit, List.filter_eq_self]
  exact fun l hl => by simpa using h.label_ne_nil l hl

theorem isWildcard_iff {name : Name} :
    isWildcard name = true ↔ ∃ rest, name = '*' :: '.' :: rest := by
  rw [isWildcard, List.isPrefixOf_iff_prefix]
  constructor
  · rintro ⟨rest, rfl⟩
    exact ⟨rest, rfl⟩
  · rintro ⟨rest, rfl⟩
    exact ⟨rest, rfl⟩

/-- A name whose first label is an asterisk. -/
theorem join_eq_wildcard_iff {m : Labels} (h : Good m) {rest : Name} :
    join m = '*' :: '.' :: rest ↔ ∃ m', Good m' ∧ m = ['*'] :: m' ∧ join m' = rest := by
  constructor
  · intro heq
    match m, h with
    | [l], h =>
      have hl : l = '*' :: '.' :: rest := by simpa [join] using heq
      exact absurd (hl ▸ by simp) (h.no_dot l List.mem_cons_self)
    | l :: l' :: m, h =>
      rw [join_cons_cons] at heq
      obtain ⟨hl, hrest⟩ := append_sep_inj (a := l) (b := ['*']) (h.no_dot l List.mem_cons_self)
        (by decide) heq
      exact ⟨l' :: m, h.of_suffix (List.suffix_cons l _) (by simp), by rw [hl], hrest⟩
  · rintro ⟨m', hm', rfl, rfl⟩
    obtain ⟨l', m'', rfl⟩ := List.exists_cons_of_ne_nil hm'.ne_nil
    rw [join_cons_cons]
    rfl

theorem cleanedLabels_eq {name : Name} (h : IsNormalized name) :
    CertbotNew.cleanedLabels name =
      if splitLabels (removePrefix name) = [] then none
      else some (splitLabels (removePrefix name)) := by
  have hlower : lower (removePrefix (stripChars name)) = removePrefix name := by
    rw [← removePrefix_lower, h]
  rw [CertbotNew.cleanedLabels, hlower]
  by_cases hnil : removePrefix name = []
  · rw [hnil]
    rfl
  · rw [if_neg hnil]

theorem good_cons {l : Name} {m : Labels} (hl : l ≠ []) (hdot : '.' ∉ l) (hm : Good m) :
    Good (l :: m) := by
  refine ⟨List.cons_ne_nil l m, fun l' hl' => ?_, fun l' hl' => ?_⟩
  · rcases List.mem_cons.mp hl' with rfl | hl'
    · exact hl
    · exact hm.label_ne_nil l' hl'
  · rcases List.mem_cons.mp hl' with rfl | hl'
    · exact hdot
    · exact hm.no_dot l' hl'

/-- The wildcard of labels covers the plain names of one label more. -/
theorem covers_wildcard_iff {name : Name} (hplain : isWildcard name = false) {m : Labels}
    (hm : Good m) :
    covers ('*' :: '.' :: join m) name = true ↔ ∃ l, Good (l :: m) ∧ name = join (l :: m) := by
  obtain ⟨l', m', rfl⟩ := List.exists_cons_of_ne_nil hm.ne_nil
  have hne : '*' :: '.' :: join (l' :: m') ≠ name := by
    rintro rfl
    exact absurd hplain (by simp [isWildcard])
  simp only [covers, hne, decide_false, hplain, Bool.false_or, Bool.and_eq_true, Bool.not_false,
    true_and, List.drop_one, List.tail_cons, decide_eq_true_eq, Bool.not_eq_true',
    List.isEmpty_eq_false_iff]
  constructor
  · rintro ⟨⟨-, hl⟩, hrest⟩
    have hdot : '.' ∉ name.takeWhile (· ≠ '.') := fun h => by
      simpa using List.mem_takeWhile_imp h
    refine ⟨name.takeWhile (· ≠ '.'), good_cons hl hdot hm, ?_⟩
    rw [join_cons_cons, ← hrest, List.takeWhile_append_dropWhile]
  · rintro ⟨l, hgood, rfl⟩
    have hl : ∀ c ∈ l, decide (c ≠ '.') = true := fun c hc => by
      rw [decide_eq_true_eq]
      rintro rfl
      exact hgood.no_dot l List.mem_cons_self hc
    rw [join_cons_cons, List.takeWhile_append_of_pos hl, List.dropWhile_append_of_pos hl]
    refine ⟨⟨by simp [isWildcard], ?_⟩, by simp⟩
    simpa using hgood.label_ne_nil l List.mem_cons_self

/-- The text of labels covers itself, and more names if the first label is an asterisk. -/
theorem covers_join_iff {name : Name} {m : Labels} (hm : Good m) :
    covers (join m) name = true ↔ name = join m ∨
      ∃ m', Good m' ∧ m = ['*'] :: m' ∧ covers ('*' :: '.' :: join m') name = true := by
  by_cases hwild : isWildcard (join m) = true
  · obtain ⟨rest, hrest⟩ := isWildcard_iff.mp hwild
    obtain ⟨m', hm', rfl, rfl⟩ := (join_eq_wildcard_iff hm).mp hrest
    rw [hrest]
    constructor
    · exact fun h => .inr ⟨m', hm', rfl, h⟩
    · rintro (rfl | ⟨m'', -, heq, h⟩)
      · simp [covers]
      · cases heq
        exact h
  · constructor
    · intro h
      simp only [covers, hwild, Bool.and_false, Bool.false_and, Bool.or_false,
        decide_eq_true_eq] at h
      exact .inl h.symm
    · rintro (rfl | ⟨m', hm', rfl, -⟩)
      · simp [covers]
      · exact absurd (isWildcard_iff.mpr ⟨join m',
          (join_eq_wildcard_iff hm).mpr ⟨m', hm', rfl, rfl⟩⟩) hwild

section

variable {name : Name} {labels m : Labels}

theorem eq_join_iff (hname : IsNormalized name) (hplain : isWildcard name = false)
    (hlabels : CertbotNew.cleanedLabels name = some labels) (hm : Good m) :
    name = join m ↔ name = join labels ∧ m = labels := by
  constructor
  · intro heq
    have hsplit : splitLabels (removePrefix name) = m := by
      rw [removePrefix, hplain, heq]
      exact splitLabels_join hm
    rw [cleanedLabels_eq hname, hsplit, if_neg hm.ne_nil] at hlabels
    cases hlabels
    exact ⟨heq, rfl⟩
  · rintro ⟨heq, rfl⟩
    exact heq

/-- A plain name is covered by what its labels and their parent bring. -/
theorem covers_plain_iff (hname : IsNormalized name) (hplain : isWildcard name = false)
    (hlabels : CertbotNew.cleanedLabels name = some labels) (hm : Good m) :
    (covers ('*' :: '.' :: join m) name = true ∨ covers (join m) name = true) ↔
      name = join labels ∧
        (m = labels ∨ labels.tail ≠ [] ∧ (m = labels.tail ∨ m = ['*'] :: labels.tail)) := by
  have hgood : Good labels := good_of_cleanedLabels hlabels
  have hwild : ∀ m', Good m' → (covers ('*' :: '.' :: join m') name = true ↔
      name = join labels ∧ labels.tail ≠ [] ∧ m' = labels.tail) := by
    intro m' hm'
    rw [covers_wildcard_iff hplain hm']
    constructor
    · rintro ⟨l, hl, heq⟩
      obtain ⟨heq, rfl⟩ := (eq_join_iff hname hplain hlabels hl).mp heq
      exact ⟨heq, hm'.ne_nil, rfl⟩
    · rintro ⟨heq, -, rfl⟩
      obtain ⟨l, rest, rfl⟩ := List.exists_cons_of_ne_nil hgood.ne_nil
      exact ⟨l, hgood, heq⟩
  rw [hwild m hm, covers_join_iff hm, eq_join_iff hname hplain hlabels hm]
  constructor
  · rintro (⟨heq, hne, h⟩ | ⟨heq, h⟩ | ⟨m', hm', rfl, h⟩)
    · exact ⟨heq, .inr ⟨hne, .inl h⟩⟩
    · exact ⟨heq, .inl h⟩
    · obtain ⟨heq, hne, rfl⟩ := (hwild m' hm').mp h
      exact ⟨heq, .inr ⟨hne, .inr rfl⟩⟩
  · rintro ⟨heq, h | ⟨hne, h | h⟩⟩
    · exact .inr (.inl ⟨heq, h⟩)
    · exact .inl ⟨heq, hne, h⟩
    · have htail : Good labels.tail := hgood.of_suffix (List.tail_suffix labels) hne
      exact .inr (.inr ⟨labels.tail, htail, h, (hwild _ htail).mpr ⟨heq, hne, rfl⟩⟩)

/-- A `*.` name is covered by itself. -/
theorem covers_asterisk_iff (hname : IsNormalized name) (hwild : isWildcard name = true)
    (hlabels : CertbotNew.cleanedLabels name = some labels) (hm : Good m) :
    (covers ('*' :: '.' :: join m) name = true ∨ covers (join m) name = true) ↔
      name = '*' :: '.' :: join labels ∧ (m = labels ∨ m = ['*'] :: labels) := by
  have hgood : Good labels := good_of_cleanedLabels hlabels
  have hself : ∀ entry, covers entry name = true ↔ entry = name := by
    simp [covers, hwild]
  obtain ⟨rest, rfl⟩ := isWildcard_iff.mp hwild
  have hrest : ∀ m', Good m' → join m' = rest → m' = labels := by
    rintro m' hm' rfl
    have hsplit : splitLabels (removePrefix ('*' :: '.' :: join m')) = m' := by
      rw [removePrefix, if_pos hwild]
      exact splitLabels_join hm'
    rw [cleanedLabels_eq hname, hsplit, if_neg hm'.ne_nil] at hlabels
    exact Option.some.inj hlabels
  rw [hself, hself, join_eq_wildcard_iff hm]
  constructor
  · rintro (heq | ⟨m', hm', rfl, heq⟩)
    · have hjoin : join m = rest := by simpa using heq
      rw [← hrest m hm hjoin, hjoin]
      exact ⟨rfl, .inl rfl⟩
    · rw [← hrest m' hm' heq, heq]
      exact ⟨rfl, .inr rfl⟩
  · rintro ⟨heq, rfl | rfl⟩
    · exact .inl heq.symm
    · exact .inr ⟨labels, hgood, rfl, by simpa using heq.symm⟩

end

/-! ## The groups of a list of names -/

section

variable {labelsList : List Labels} {labels m : Labels}

theorem mem_groupLists_iff {l : Labels} {key : Name} :
    l ∈ groupLists key labelsList ↔ l ∈ labelsList ∧ groupKey l = key := by
  simp [groupLists]

theorem keyLabels_eq_of_mem (hgood : ∀ l ∈ labelsList, Good l) (hl : labels ∈ labelsList) :
    ∀ l ∈ groupLists (groupKey labels) labelsList, keyLabels l = keyLabels labels := fun l hmem =>
  keyLabels_eq_of_groupKey (hgood l (mem_groupLists_iff.mp hmem).1) (hgood labels hl)
    (mem_groupLists_iff.mp hmem).2

/-- The names of a group have two labels or more, or all are the same label. -/
theorem length_of_mem_group (hgood : ∀ l ∈ labelsList, Good l) (hl : labels ∈ labelsList) :
    ∀ l ∈ groupLists (groupKey labels) labelsList, min 2 l.length = min 2 labels.length := by
  intro l hmem
  rw [← length_keyLabels, ← length_keyLabels, keyLabels_eq_of_mem hgood hl l hmem]

theorem keyLabels_eq_self {l : Labels} (h : l.length ≤ 2) : keyLabels l = l :=
  (keyLabels_suffix l).eq_of_length (by rw [length_keyLabels]; omega)

/-- No name is too deep for names of two labels, and they are bases. -/
theorem of_length_le (hgood : ∀ l ∈ labelsList, Good l) (hl : labels ∈ labelsList)
    (h : labels.length ≤ 2) :
    ¬ TooDeep labels (groupLists (groupKey labels) labelsList) ∧ IsBase labelsList labels := by
  have hself : labels ∈ groupLists (groupKey labels) labelsList := mem_groupLists_iff.mpr ⟨hl, rfl⟩
  have hlen := length_of_mem_group hgood hl
  constructor
  · rintro ⟨l, hmem, -, hlt, -⟩
    have := hlen l hmem
    omega
  · by_cases htwo : labels.length = 2
    · refine (mem_baseLabels_iff (k := labels) htwo.ge (fun l hmem => ?_) hself).mpr (.inl h)
      have hkey := keyLabels_eq_of_mem hgood hl l hmem
      rw [keyLabels_eq_self h] at hkey
      exact hkey ▸ keyLabels_suffix l
    · -- All names of the group are the one label.
      have hpos := List.length_pos_of_ne_nil (hgood labels hl).ne_nil
      have hall : ∀ l ∈ groupLists (groupKey labels) labelsList, l = labels := fun l hmem => by
        have hkey := keyLabels_eq_of_mem hgood hl l hmem
        have := hlen l hmem
        rwa [keyLabels_eq_self h, keyLabels_eq_self (by omega)] at hkey
      by_cases hseveral : 2 ≤ (groupLists (groupKey labels) labelsList).length
      · exact (mem_baseLabels_of_forall_eq hseveral hall labels).mpr rfl
      · obtain ⟨l, hone⟩ : ∃ l, groupLists (groupKey labels) labelsList = [l] :=
          List.length_eq_one_iff.mp (by have := List.length_pos_of_mem hself; omega)
        obtain rfl : labels = l := List.mem_singleton.mp (hone ▸ hself)
        rw [IsBase, hone, baseLabels, shortened, if_neg (by omega)]
        exact List.mem_singleton_self _

theorem isBase_iff_of_groupKey (h : groupKey m = groupKey labels) :
    IsBase labelsList m ↔ m ∈ baseLabels (groupLists (groupKey labels) labelsList) := by
  rw [IsBase, h]

/-- The bases that cover a plain name. -/
theorem exists_isBase_plain_iff (hgood : ∀ l ∈ labelsList, Good l) (hl : labels ∈ labelsList) :
    (∃ m, IsBase labelsList m ∧
        (m = labels ∨ labels.tail ≠ [] ∧ (m = labels.tail ∨ m = ['*'] :: labels.tail))) ↔
      ¬ TooDeep labels (groupLists (groupKey labels) labelsList) := by
  by_cases h : labels.length ≤ 2
  · obtain ⟨hdeep, hbase⟩ := of_length_le hgood hl h
    exact iff_of_true ⟨labels, hbase, .inl rfl⟩ hdeep
  · have htail : labels.tail ≠ [] := List.ne_nil_of_length_pos (by rw [List.length_tail]; omega)
    have htailKey : groupKey labels.tail = groupKey labels :=
      groupKey_of_suffix (List.tail_suffix labels) (by rw [List.length_tail]; omega)
    have hconsKey : groupKey (['*'] :: labels.tail) = groupKey labels := by
      rw [← htailKey]
      exact (groupKey_of_suffix (List.suffix_cons _ _) (by rw [List.length_tail]; omega)).symm
    rw [← exists_baseLabels_iff (k := keyLabels labels) (c := ['*'])
      (by rw [length_keyLabels]; omega)
      (fun l hmem => keyLabels_eq_of_mem hgood hl l hmem ▸ keyLabels_suffix l)
      (mem_groupLists_iff.mpr ⟨hl, rfl⟩)]
    constructor
    · rintro ⟨m, hbase, rfl | ⟨-, rfl | rfl⟩⟩
      · exact ⟨_, hbase, .inl rfl⟩
      · exact ⟨_, (isBase_iff_of_groupKey htailKey).mp hbase, .inr (.inl rfl)⟩
      · exact ⟨_, (isBase_iff_of_groupKey hconsKey).mp hbase, .inr (.inr rfl)⟩
    · rintro ⟨m, hbase, rfl | rfl | rfl⟩
      · exact ⟨_, hbase, .inl rfl⟩
      · exact ⟨_, (isBase_iff_of_groupKey htailKey).mpr hbase, .inr ⟨htail, .inl rfl⟩⟩
      · exact ⟨_, (isBase_iff_of_groupKey hconsKey).mpr hbase, .inr ⟨htail, .inr rfl⟩⟩

/-- The bases that cover a `*.` name. -/
theorem exists_isBase_asterisk_iff (hgood : ∀ l ∈ labelsList, Good l) (hl : labels ∈ labelsList) :
    (∃ m, IsBase labelsList m ∧ (m = labels ∨ m = ['*'] :: labels)) ↔
      WildcardListed labels (groupLists (groupKey labels) labelsList) := by
  by_cases h : labels.length ≤ 2
  · exact iff_of_true ⟨labels, (of_length_le hgood hl h).2, .inl rfl⟩ (.inl h)
  · have hconsKey : groupKey (['*'] :: labels) = groupKey labels :=
      (groupKey_of_suffix (List.suffix_cons _ _) (by omega)).symm
    rw [← wildcardListed_iff (k := keyLabels labels) (by rw [length_keyLabels]; omega)
      (fun l hmem => keyLabels_eq_of_mem hgood hl l hmem ▸ keyLabels_suffix l)
      (mem_groupLists_iff.mpr ⟨hl, rfl⟩)]
    constructor
    · rintro ⟨m, hbase, rfl | rfl⟩
      · exact ⟨_, hbase, .inl rfl⟩
      · exact ⟨_, (isBase_iff_of_groupKey hconsKey).mp hbase, .inr rfl⟩
    · rintro ⟨m, hbase, rfl | rfl⟩
      · exact ⟨_, hbase, .inl rfl⟩
      · exact ⟨_, (isBase_iff_of_groupKey hconsKey).mpr hbase, .inr rfl⟩

end

/-! ## The result -/

theorem exists_jobBases_iff {domains : List Name} {name : Name} :
    (∃ base ∈ jobBases domains,
        covers ('*' :: '.' :: base) name = true ∨ covers base name = true) ↔
      ∃ m, IsBase (domains.filterMap CertbotNew.cleanedLabels) m ∧
        (covers ('*' :: '.' :: join m) name = true ∨ covers (join m) name = true) := by
  have hgood : ∀ l ∈ domains.filterMap CertbotNew.cleanedLabels, Good l :=
    fun l hl => good_of_mem_filterMap hl
  constructor
  · rintro ⟨base, hbase, h⟩
    obtain ⟨m, hm, rfl⟩ := (mem_jobBases hgood).mp hbase
    exact ⟨m, hm, h⟩
  · rintro ⟨m, hm, h⟩
    exact ⟨join m, (mem_jobBases hgood).mpr ⟨m, hm, rfl⟩, h⟩

/-- A name that brings labels is covered exactly when they are in reach. -/
theorem name_covered_iff {domains : List Name} {name : Name} (hmem : name ∈ domains)
    (hname : IsNormalized name) {labels : Labels}
    (hlabels : CertbotNew.cleanedLabels name = some labels) :
    (∃ m, IsBase (domains.filterMap CertbotNew.cleanedLabels) m ∧
        (covers ('*' :: '.' :: join m) name = true ∨ covers (join m) name = true)) ↔
      (name = join labels ∧
          ¬ TooDeep labels (groupLists (groupKey labels)
            (domains.filterMap CertbotNew.cleanedLabels))) ∨
        (name = '*' :: '.' :: join labels ∧
          WildcardListed labels (groupLists (groupKey labels)
            (domains.filterMap CertbotNew.cleanedLabels))) := by
  have hgood : ∀ l ∈ domains.filterMap CertbotNew.cleanedLabels, Good l :=
    fun l hl => good_of_mem_filterMap hl
  have hl : labels ∈ domains.filterMap CertbotNew.cleanedLabels :=
    List.mem_filterMap.mpr ⟨name, hmem, hlabels⟩
  rw [← exists_isBase_plain_iff hgood hl, ← exists_isBase_asterisk_iff hgood hl]
  cases hwild : isWildcard name with
  | false =>
    have hne : name ≠ '*' :: '.' :: join labels := fun h =>
      Bool.false_ne_true (hwild.symm.trans (isWildcard_iff.mpr ⟨_, h⟩))
    simp only [hne, false_and, or_false]
    constructor
    · rintro ⟨m, hm, h⟩
      obtain ⟨heq, h⟩ := (covers_plain_iff hname hwild hlabels (hm.good hgood)).mp h
      exact ⟨heq, m, hm, h⟩
    · rintro ⟨heq, m, hm, h⟩
      exact ⟨m, hm, (covers_plain_iff hname hwild hlabels (hm.good hgood)).mpr ⟨heq, h⟩⟩
  | true =>
    have hne : name ≠ join labels := by
      intro heq
      obtain ⟨rest, hrest⟩ := isWildcard_iff.mp hwild
      obtain ⟨m', hm', hcons, rfl⟩ := (join_eq_wildcard_iff (hgood labels hl)).mp
        (heq.symm.trans hrest)
      have hsplit : splitLabels (removePrefix name) = m' := by
        rw [removePrefix, if_pos hwild, hrest]
        exact splitLabels_join hm'
      rw [cleanedLabels_eq hname, hsplit, if_neg hm'.ne_nil] at hlabels
      have hlen := congrArg List.length (hcons.symm.trans (Option.some.inj hlabels).symm)
      simp at hlen
    simp only [hne, false_and, false_or]
    constructor
    · rintro ⟨m, hm, h⟩
      obtain ⟨heq, h⟩ := (covers_asterisk_iff hname hwild hlabels (hm.good hgood)).mp h
      exact ⟨heq, m, hm, h⟩
    · rintro ⟨heq, m, hm, h⟩
      exact ⟨m, hm, (covers_asterisk_iff hname hwild hlabels (hm.good hgood)).mpr ⟨heq, h⟩⟩

/-- A name without labels is not covered. -/
theorem not_covers_of_cleanedLabels_eq_none {name : Name} (hname : IsNormalized name)
    (hnone : CertbotNew.cleanedLabels name = none) {m : Labels} (hm : Good m) :
    ¬ (covers ('*' :: '.' :: join m) name = true ∨ covers (join m) name = true) := by
  have hsplit : ∀ m', Good m' → removePrefix name ≠ join m' := by
    intro m' hm' heq
    rw [cleanedLabels_eq hname, heq, splitLabels_join hm', if_neg hm'.ne_nil] at hnone
    exact absurd hnone (Option.some_ne_none m')
  cases hwild : isWildcard name with
  | false =>
    have hjoin : ∀ m', Good m' → name ≠ join m' := by
      intro m' hm' heq
      refine hsplit m' hm' ?_
      rwa [removePrefix, hwild]
    have hcovers : ∀ m', Good m' → ¬ covers ('*' :: '.' :: join m') name = true := by
      intro m' hm' h
      obtain ⟨l, hl, heq⟩ := (covers_wildcard_iff hwild hm').mp h
      exact hjoin _ hl heq
    rintro (h | h)
    · exact hcovers m hm h
    · rcases (covers_join_iff hm).mp h with heq | ⟨m', hm', -, h⟩
      · exact hjoin m hm heq
      · exact hcovers m' hm' h
  | true =>
    obtain ⟨rest, rfl⟩ := isWildcard_iff.mp hwild
    have hrest : ∀ m', Good m' → rest ≠ join m' := by
      rintro m' hm' rfl
      refine hsplit m' hm' ?_
      rw [removePrefix, if_pos hwild]
      rfl
    rintro (h | h)
    · simp only [covers, hwild, Bool.not_true, Bool.false_and, Bool.or_false, decide_eq_true_eq,
        List.cons.injEq, true_and] at h
      exact hrest m hm h.symm
    · simp only [covers, hwild, Bool.not_true, Bool.false_and, Bool.or_false,
        decide_eq_true_eq] at h
      obtain ⟨m', hm', -, heq⟩ := (join_eq_wildcard_iff hm).mp h
      exact hrest m' hm' heq.symm

/-- The wildcard certificates cover every name exactly when no name is out of reach. -/
theorem wildcards_cover_iff {domains : List Name} (h : ∀ name ∈ domains, IsNormalized name) :
    Covered domains ↔ Reached domains := by
  unfold Covered Reached
  refine forall_congr' fun name => forall_congr' fun hmem => ?_
  rw [exists_covers_iff, exists_jobBases_iff]
  cases hlabels : CertbotNew.cleanedLabels name with
  | none =>
    refine iff_of_false ?_ id
    rintro ⟨m, hm, hcovers⟩
    have hgood : Good m := hm.good fun l hl => good_of_mem_filterMap hl
    exact not_covers_of_cleanedLabels_eq_none (h name hmem) hlabels hgood hcovers
  | some labels => exact name_covered_iff hmem (h name hmem) hlabels

theorem wildcards_cover_iff_siblings :
    Covered ["www.example.com".toList, "a.example.com".toList, "*.example.com".toList] ↔
      Reached ["www.example.com".toList, "a.example.com".toList, "*.example.com".toList] :=
  wildcards_cover_iff (by decide)

end BunkerWeb.LetsEncrypt
