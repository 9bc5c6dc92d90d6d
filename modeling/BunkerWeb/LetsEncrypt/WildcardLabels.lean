import BunkerWeb.LetsEncrypt.Wildcards

/-!
# The labels that both sides find

- **The names** (`mem_normalizeServerNames`, `filterMap_sanitizeDomainLabels`): on a value in which
  both sides find the same words, the set of the job has the words of the plugin, and they bring the
  same labels. The plugin has them as often as they are there.
- **Labels and their texts** (`Good`, `join_inj`): labels are known by the text that joins them, and
  the key of a group by any end of two labels or more (`groupKey_of_suffix`).
-/

namespace BunkerWeb.LetsEncrypt

open Lib

/-! ## Lower case -/

@[simp] theorem lower_lower (name : Name) : lower (lower name) = lower name := by
  simp [lower]

@[simp] theorem isWildcard_lower (name : Name) : isWildcard (lower name) = isWildcard name := by
  have heq : ∀ c d : Char, d.toNat < 65 → (d == c.toLower) = (d == c) := by
    intro c d hd
    rw [Bool.eq_iff_iff, beq_iff_eq, beq_iff_eq, eq_comm, toLower_eq_iff hd, eq_comm]
  match name with
  | [] => rfl
  | [c] => simp [isWildcard, lower, List.isPrefixOf]
  | c :: d :: rest =>
    simp [isWildcard, lower, List.isPrefixOf, heq c '*' (by decide), heq d '.' (by decide)]

theorem removePrefix_lower (name : Name) :
    removePrefix (lower name) = lower (removePrefix name) := by
  unfold removePrefix
  rw [isWildcard_lower]
  split
  · exact (List.map_drop).symm
  · rfl

/-- A name that is not before another is after it, or the same. -/
theorem textLt_total (a b : Name) : textLt b a = false ∨ textLt a b = false := by
  simp only [textLt, ← Bool.not_eq_true, List.lex_eq_true_iff_lt, List.not_lt]
  exact List.le_total a b

theorem not_textLt_trans {a b c : Name} (h : textLt b a = false) (h' : textLt c b = false) :
    textLt c a = false := by
  simp only [textLt, ← Bool.not_eq_true, List.lex_eq_true_iff_lt, List.not_lt] at h h' ⊢
  exact List.le_trans h h'

theorem not_textLt_antisymm {a b : Name} (h : textLt b a = false) (h' : textLt a b = false) :
    a = b := by
  simp only [textLt, ← Bool.not_eq_true, List.lex_eq_true_iff_lt, List.not_lt] at h h'
  exact List.le_antisymm h h'

/-! ## The names of both sides -/

theorem splitLabels_rdropWhile (name : Name) :
    splitLabels (name.rdropWhile (· = '.')) = splitLabels name := by
  have hdots : ∀ c ∈ name.rtakeWhile (· = '.'), decide (c = '.') = true :=
    fun c hc => by simpa using List.mem_rtakeWhile_imp hc
  have happend := fields_append_of_forall_sep (name.rdropWhile (· = '.')) hdots
  rw [List.rdropWhile_append_rtakeWhile] at happend
  exact happend.symm

/-- A word means the same to the plugin as its lower case to the job. -/
theorem sanitizeDomainLabels_eq {name : Name} (hne : name ≠ [])
    (hspace : ∀ c ∈ name, isSpace c = false) :
    Plugin.sanitizeDomainLabels name = CertbotNew.cleanedLabels (lower name) := by
  have hstrip : stripChars (lower name) = lower name := by
    refine stripChars_eq fun c hc => ?_
    obtain ⟨d, hd, rfl⟩ := List.mem_map.mp hc
    rw [isSpace_toLower, hspace d hd]
  rw [Plugin.sanitizeDomainLabels, if_neg hne, CertbotNew.cleanedLabels, hstrip,
    removePrefix_lower, lower_lower]
  dsimp only
  rw [splitLabels_rdropWhile]
  by_cases hcleaned : lower (removePrefix name) = []
  · rw [hcleaned]
    rfl
  · rw [if_neg hcleaned]

variable {v : Name}

theorem fields_isSpace (hv : ∀ c ∈ v, Common c) : fields isSpace v = Plugin.serverList v :=
  fields_congr fun c hc => (hv c hc).2.2

theorem not_isSpace_of_mem_serverList (hv : ∀ c ∈ v, Common c) {name : Name}
    (hname : name ∈ Plugin.serverList v) : ∀ c ∈ name, isSpace c = false := by
  rw [← fields_isSpace hv] at hname
  exact fun c hc => not_sep_of_mem_fields hname hc

/-- The set of the job has the words of the value. -/
theorem mem_normalizeServerNames (hv : ∀ c ∈ v, Common c) {name : Name} :
    name ∈ CertbotNew.normalizeServerNames v ↔ name ∈ names v := by
  have hcomma : (v.map fun c => if c = ',' then ' ' else c) = v :=
    (List.map_congr_left fun c hc => if_neg (hv c hc).2.1).trans (List.map_id v)
  have hstrip : ∀ part ∈ Plugin.serverList v, stripChars part = part :=
    fun part hpart => stripChars_eq (not_isSpace_of_mem_serverList hv hpart)
  unfold CertbotNew.normalizeServerNames names
  dsimp only
  rw [hcomma, fields_isSpace hv, List.mem_toFinset, List.mem_map, List.mem_map]
  constructor
  · rintro ⟨part, hpart, rfl⟩
    have hmem := (List.mem_filter.mp hpart).1
    exact ⟨part, hmem, by rw [hstrip part hmem]⟩
  · rintro ⟨part, hpart, rfl⟩
    refine ⟨part, List.mem_filter.mpr ⟨hpart, ?_⟩, by rw [hstrip part hpart]⟩
    simpa [hstrip part hpart] using ne_nil_of_mem_fields hpart

/-- The labels of the plugin are those of the names in lower case. -/
theorem filterMap_sanitizeDomainLabels (hv : ∀ c ∈ v, Common c) :
    (Plugin.serverList v).filterMap Plugin.sanitizeDomainLabels =
      (names v).filterMap CertbotNew.cleanedLabels := by
  rw [names, List.filterMap_map]
  refine List.filterMap_congr fun name hname => ?_
  exact sanitizeDomainLabels_eq (ne_nil_of_mem_fields hname)
    (not_isSpace_of_mem_serverList hv hname)

/-! ## Labels -/

/-- What comes out of cleaning: there is a label, none is empty, and no dot is left. -/
structure Good (labels : Labels) : Prop where
  ne_nil : labels ≠ []
  label_ne_nil : ∀ l ∈ labels, l ≠ []
  no_dot : ∀ l ∈ labels, '.' ∉ l

theorem good_of_cleanedLabels {name : Name} {labels : Labels}
    (h : CertbotNew.cleanedLabels name = some labels) : Good labels := by
  unfold CertbotNew.cleanedLabels at h
  dsimp only at h
  split at h
  · cases h
  split at h
  · cases h
  next hne =>
    cases h
    exact ⟨hne, fun l hl => ne_nil_of_mem_fields hl, fun l hl hdot => by
      simpa using not_sep_of_mem_fields hl hdot⟩

theorem Good.of_suffix {labels suffix : Labels} (h : Good labels) (hs : suffix <:+ labels)
    (hne : suffix ≠ []) : Good suffix :=
  ⟨hne, fun l hl => h.label_ne_nil l (hs.subset hl), fun l hl => h.no_dot l (hs.subset hl)⟩

theorem join_inj {labels labels' : Labels} (h : Good labels) (h' : Good labels')
    (heq : join labels = join labels') : labels = labels' := by
  rw [← List.splitOn_intercalate '.' h.no_dot h.ne_nil, ← join, heq, join,
    List.splitOn_intercalate '.' h'.no_dot h'.ne_nil]

theorem join_cons_cons (l l' : Name) (labels : Labels) :
    join (l :: l' :: labels) = l ++ '.' :: join (l' :: labels) := by
  simp [join, List.intercalate_cons_cons]

theorem join_ne_nil {labels : Labels} (h : Good labels) : join labels ≠ [] := by
  intro he
  have hsplit := List.splitOn_intercalate '.' h.no_dot h.ne_nil
  rw [← join, he, List.splitOn_nil] at hsplit
  exact h.label_ne_nil [] (hsplit ▸ List.mem_singleton_self []) rfl

theorem head_join {labels : Labels} (h : Good labels) : ∀ c ∈ (join labels).head?, c ≠ '.' := by
  match labels, h with
  | l :: rest, h =>
    have hl : l ≠ [] := h.label_ne_nil l List.mem_cons_self
    have hhead : (join (l :: rest)).head? = l.head? := by
      cases rest with
      | nil => simp [join]
      | cons l' rest =>
        rw [join_cons_cons, List.head?_append_of_ne_nil l hl]
    rintro c hc rfl
    rw [hhead] at hc
    exact h.no_dot l List.mem_cons_self (List.mem_of_mem_head? hc)

theorem getLast_join {labels : Labels} (h : Good labels) :
    ∀ c ∈ (join labels).getLast?, c ≠ '.' := by
  induction labels with
  | nil => exact absurd rfl h.ne_nil
  | cons l rest ih =>
    cases rest with
    | nil =>
      rintro c hc rfl
      exact h.no_dot l List.mem_cons_self (List.mem_of_mem_getLast? (by simpa [join] using hc))
    | cons l' rest =>
      have hrest : Good (l' :: rest) := h.of_suffix (List.suffix_cons l _) (by simp)
      have hlast : (join (l :: l' :: rest)).getLast? = (join (l' :: rest)).getLast? := by
        have hne := join_ne_nil hrest
        rw [join_cons_cons, List.getLast?_append, List.getLast?_cons]
        rw [List.getLast?_eq_getLast_of_ne_nil hne, Option.getD_some, Option.some_or]
      rw [hlast]
      exact ih hrest

theorem stripDots_join {labels : Labels} (h : Good labels) :
    CertbotNew.stripDots (join labels) = join labels := by
  have hfront : (join labels).dropWhile (· = '.') = join labels := by
    obtain ⟨c, rest, hj⟩ := List.exists_cons_of_ne_nil (join_ne_nil h)
    have hc := head_join h c (by rw [hj]; rfl)
    rw [hj, List.dropWhile_cons_of_neg (by simpa using hc)]
  rw [CertbotNew.stripDots, hfront, List.rdropWhile_eq_self_iff]
  intro hne
  simpa using getLast_join h _ (List.getLast?_eq_getLast_of_ne_nil hne)

/-- The key is that of the last two labels. -/
theorem groupKey_of_suffix {labels suffix : Labels} (hs : suffix <:+ labels)
    (h2 : 2 ≤ suffix.length) : groupKey suffix = groupKey labels := by
  obtain ⟨t, rfl⟩ := hs
  have hle : 2 ≤ (t ++ suffix).length := by
    rw [List.length_append]
    omega
  have hnil : t.drop ((t ++ suffix).length - 2) = [] :=
    List.drop_eq_nil_of_le (by rw [List.length_append]; omega)
  have hlen : (t ++ suffix).length - 2 - t.length = suffix.length - 2 := by
    rw [List.length_append]
    omega
  rw [groupKey, if_pos h2, groupKey, if_pos hle, List.drop_append, hnil, List.nil_append, hlen]

theorem shortened_suffix (labels : Labels) : shortened labels <:+ labels := by
  unfold shortened
  split
  · exact List.drop_suffix 1 labels
  · exact List.suffix_rfl

theorem shortened_ne {labels : Labels} (h : 2 < labels.length) : shortened labels ≠ labels := by
  intro he
  have hlen := congrArg List.length he
  rw [shortened, if_pos h, List.length_drop] at hlen
  omega

theorem shortened_eq_tail {labels : Labels} (h : 2 < labels.length) :
    shortened labels = labels.tail := by
  rw [shortened, if_pos h, List.drop_one]

theorem groupKey_shortened (labels : Labels) : groupKey (shortened labels) = groupKey labels := by
  unfold shortened
  split
  next h => exact groupKey_of_suffix (List.drop_suffix 1 labels) (by simp; omega)
  next => rfl

theorem shortened_ne_nil {labels : Labels} (h : labels ≠ []) : shortened labels ≠ [] := by
  unfold shortened
  split
  next h2 => exact List.ne_nil_of_length_pos (by simp; omega)
  next => exact h

end BunkerWeb.LetsEncrypt
