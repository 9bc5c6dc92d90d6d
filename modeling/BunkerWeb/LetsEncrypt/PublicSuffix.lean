import BunkerWeb.LetsEncrypt.Issuance
import BunkerWeb.Lib.SuffixRules

/-!
# Public suffixes (`certbot-new.py`)

With `LETS_ENCRYPT_DISABLE_PUBLIC_SUFFIXES` the job refuses names that are public suffixes.
`parsePsl` reads the list and `isDomainBlacklisted` walks the suffixes of the name, the longest
first. `IsPublicSuffix` is the algorithm of the list: the longest rule that matches prevails, or an
exception.

The walk looks up texts. A rule `*.base` is looked up only where `base` has two labels, at whatever
depth of the name, and also where the name is `base` itself. So `*.ck` has no effect, and
`*.kobe.jp` is applied to `kobe.jp` and to all names below.
-/

namespace BunkerWeb.LetsEncrypt.CertbotNew

open Lib

/-! ## Reading the list -/

/-- One line of `parse_psl`. -/
def addLine (psl : Psl) (line : Text) : Psl :=
  match stripChars line with
  | [] => psl
  | '/' :: '/' :: _ => psl
  | '!' :: exception => { psl with exceptions := psl.exceptions ++ [exception] }
  | rule => { psl with rules := psl.rules ++ [rule] }

/-- `parse_psl`; the sets are lists. -/
def parsePsl (lines : List Text) : Psl := lines.foldl addLine ⟨[], []⟩

/-- The lines that are neither empty nor comments. -/
def entries (lines : List Text) : List Text :=
  (lines.map stripChars).filter fun entry => entry ≠ [] ∧ ¬ ['/', '/'].isPrefixOf entry

/-- The rules of a list, by their labels. -/
def rulesOf (lines : List Text) : List Labels :=
  ((entries lines).filter fun entry => entry.head? ≠ some '!').map (List.splitOn '.')

/-- The exceptions of a list, by their labels. -/
def exceptionsOf (lines : List Text) : List Labels :=
  ((entries lines).filter fun entry => entry.head? = some '!').map fun entry =>
    entry.tail.splitOn '.'

/-- The prevailing rule of the list covers all labels. -/
def IsPublicSuffix (lines : List Text) (labels : Labels) : Prop :=
  suffixLength ['*'] (rulesOf lines) (exceptionsOf lines) labels = some labels.length

instance (lines : List Text) (labels : Labels) : Decidable (IsPublicSuffix lines labels) :=
  inferInstanceAs (Decidable (_ = _))

/-- The labels of a name. -/
def domainLabels (domain : Name) : Labels := (stripDots (lower domain)).splitOn '.'

/-- The labels of a name without the leading `*.`. -/
def ownLabels (domain : Name) : Labels := (removePrefix (stripDots (lower domain))).splitOn '.'

/-! ## What the sets hold -/

theorem addLine_eq (psl : Psl) (line : Text) :
    addLine psl line =
      if stripChars line ≠ [] ∧ ¬ ['/', '/'].isPrefixOf (stripChars line) then
        if (stripChars line).head? = some '!' then
          { psl with exceptions := psl.exceptions ++ [(stripChars line).tail] }
        else { psl with rules := psl.rules ++ [stripChars line] }
      else psl := by
  unfold addLine
  split
  next h => simp [h]
  next h => simp [h]
  next h => simp [h]
  next hempty hcomment hexception =>
    have hslash : ¬ ['/', '/'].isPrefixOf (stripChars line) := by
      intro hprefix
      obtain ⟨rest, hrest⟩ := List.isPrefixOf_iff_prefix.mp hprefix
      exact hcomment rest hrest.symm
    have hmark : (stripChars line).head? ≠ some '!' := by
      intro hhead
      obtain ⟨rest, hrest⟩ := List.head?_eq_some_iff.mp hhead
      exact hexception rest hrest
    rw [if_pos ⟨fun h => hempty h, hslash⟩, if_neg hmark]

theorem entries_cons (line : Text) (lines : List Text) :
    entries (line :: lines) =
      if stripChars line ≠ [] ∧ ¬ ['/', '/'].isPrefixOf (stripChars line) then
        stripChars line :: entries lines
      else entries lines := by
  simp only [entries, List.map_cons, List.filter_cons, decide_eq_true_eq]

theorem foldl_addLine (lines : List Text) (psl : Psl) :
    lines.foldl addLine psl =
      ⟨psl.rules ++ (entries lines).filter fun entry => entry.head? ≠ some '!',
        psl.exceptions ++
          ((entries lines).filter fun entry => entry.head? = some '!').map List.tail⟩ := by
  induction lines generalizing psl with
  | nil => simp [entries]
  | cons line lines ih =>
    rw [List.foldl_cons, ih, addLine_eq, entries_cons]
    split
    · split
      next hmark => simp [hmark]
      next hmark => simp [hmark]
    · rfl

theorem parsePsl_rules (lines : List Text) :
    (parsePsl lines).rules.map (List.splitOn '.') = rulesOf lines := by
  rw [parsePsl, foldl_addLine, rulesOf]
  rfl

theorem parsePsl_exceptions (lines : List Text) :
    (parsePsl lines).exceptions.map (List.splitOn '.') = exceptionsOf lines := by
  rw [parsePsl, foldl_addLine, exceptionsOf]
  show List.map (List.splitOn '.') ([] ++ List.map List.tail _) = _
  rw [List.nil_append, List.map_map]
  rfl

/-- A set of texts holds the text of labels if the list holds the labels. -/
theorem join_mem_iff {labels : Labels} (hdot : ∀ label ∈ labels, '.' ∉ label) (hne : labels ≠ [])
    (texts : List Text) : join labels ∈ texts ↔ labels ∈ texts.map (List.splitOn '.') := by
  constructor
  · intro h
    have hsplit := List.splitOn_intercalate '.' hdot hne
    exact List.mem_map.mpr ⟨join labels, h, hsplit⟩
  · intro h
    obtain ⟨text, htext, hsplit⟩ := List.mem_map.mp h
    rw [join, ← hsplit, List.intercalate_splitOn]
    exact htext

/-! ## The walk -/

variable {psl : Psl} {labels own : Labels}

/-- No exception stands at `back` or at a longer end of the labels. -/
def Free (exceptions : List Labels) (labels back : Labels) : Prop :=
  ∀ s ∈ exceptions, s <:+ labels → ¬ back <:+ s

/-- A rule that the walk refuses the name for when it has come to `rest`. -/
def Hit (psl : Psl) (labels : Labels) (i : Nat) (rest : Labels) : Prop :=
  rest ≠ [] ∧ (join rest ∈ psl.rules ∧ (i = 0 ∨ i = 1 ∧ labels.head? = some ['*']) ∨
    '*' :: '.' :: join rest ∈ psl.rules ∧ rest.length = 2)

theorem go_iff (i : Nat) (rest : Labels) :
    isDomainBlacklisted.go psl labels i rest = true ↔
      ∃ front back, rest = front ++ back ∧ Hit psl labels (i + front.length) back ∧
        ∀ s, s <:+ rest → back <:+ s → join s ∉ psl.exceptions := by
  induction rest generalizing i with
  | nil =>
    refine iff_of_false (by simp [isDomainBlacklisted.go]) ?_
    rintro ⟨front, back, hrest, ⟨hne, -⟩, -⟩
    exact hne (List.append_eq_nil_iff.mp hrest.symm).2
  | cons label rest ih =>
    rw [isDomainBlacklisted.go]
    split
    next hexception =>
      refine iff_of_false (by simp) ?_
      rintro ⟨front, back, hrest, -, hfree⟩
      exact hfree _ List.suffix_rfl ⟨front, hrest.symm⟩ hexception
    next hexception =>
      have hhere : Hit psl labels i (label :: rest) →
          ∃ front back, label :: rest = front ++ back ∧ Hit psl labels (i + front.length) back ∧
            ∀ s, s <:+ label :: rest → back <:+ s → join s ∉ psl.exceptions := by
        intro hhit
        refine ⟨[], label :: rest, rfl, by simpa using hhit, fun s hs hback => ?_⟩
        rw [hs.eq_of_length_le hback.length_le]
        exact hexception
      split
      next hrule => exact iff_of_true rfl (hhere ⟨by simp, .inl hrule⟩)
      next hrule =>
        split
        next hwild => exact iff_of_true rfl (hhere ⟨by simp, .inr hwild⟩)
        next hwild =>
          rw [ih (i + 1)]
          constructor
          · rintro ⟨front, back, rfl, hhit, hfree⟩
            have hi : i + (label :: front).length = i + 1 + front.length := by
              rw [List.length_cons]
              omega
            refine ⟨label :: front, back, rfl, hi ▸ hhit, fun s hs hback => ?_⟩
            rcases List.suffix_cons_iff.mp hs with rfl | hs
            · exact hexception
            · exact hfree s hs hback
          · rintro ⟨front, back, hrest, hhit, hfree⟩
            cases front with
            | nil =>
              obtain rfl : label :: rest = back := hrest
              rcases hhit.2 with h | h
              · exact absurd h hrule
              · exact absurd h hwild
            | cons label' front =>
              obtain ⟨rfl, rfl⟩ := List.cons.inj hrest
              have hi : i + (label :: front).length = i + 1 + front.length := by
                rw [List.length_cons]
                omega
              exact ⟨front, back, rfl, hi ▸ hhit, fun s hs =>
                hfree s (hs.trans (List.suffix_cons label _))⟩

/-! ## The labels of the name -/

theorem domainLabels_ne_nil (domain : Name) : domainLabels domain ≠ [] :=
  List.splitOnP_ne_nil _ _

theorem no_dot_of_mem_domainLabels {domain : Name} {label : Name}
    (h : label ∈ domainLabels domain) : '.' ∉ label := fun hdot => by
  have hsep := not_sep_of_mem_splitOnP h hdot
  simp at hsep

/-- The labels of a name with a leading `*.`, and of another name. -/
theorem domainLabels_eq (domain : Name) :
    domainLabels domain = ['*'] :: ownLabels domain ∨
      (domainLabels domain = ownLabels domain ∧
        ∀ rest, rest ≠ [] → domainLabels domain ≠ ['*'] :: rest) := by
  unfold domainLabels ownLabels removePrefix
  split
  next h =>
    obtain ⟨rest, hrest⟩ := List.isPrefixOf_iff_prefix.mp h
    refine .inl ?_
    rw [← hrest]
    rfl
  next h =>
    refine .inr ⟨rfl, fun rest hne heq => h ?_⟩
    have hjoin := congrArg (['.'].intercalate ·) heq
    simp only [List.intercalate_splitOn] at hjoin
    obtain ⟨label, rest, rfl⟩ := List.exists_cons_of_ne_nil hne
    rw [hjoin]
    rfl

/-- `*.` and two last labels of the name, as a rule that no exception is in front of. -/
def PairListed (lines : List Text) (labels : Labels) : Prop :=
  ∃ pair, pair <:+ labels ∧ pair.length = 2 ∧ ['*'] :: pair ∈ rulesOf lines ∧
    Free (exceptionsOf lines) labels pair

theorem ownLabels_ne_nil (domain : Name) : ownLabels domain ≠ [] := List.splitOnP_ne_nil _ _

theorem free_self {exceptions : List Labels} :
    Free exceptions labels labels ↔ labels ∉ exceptions := by
  constructor
  · exact fun h hmem => h labels hmem List.suffix_rfl List.suffix_rfl
  · intro h s hmem hs hback
    rw [hs.eq_of_length_le hback.length_le] at hmem
    exact h hmem

theorem free_tail {exceptions : List Labels} {label : Name} :
    Free exceptions (label :: own) own ↔ own ∉ exceptions ∧ label :: own ∉ exceptions := by
  constructor
  · exact fun h => ⟨fun hmem => h own hmem (List.suffix_cons label own) List.suffix_rfl,
      fun hmem => h _ hmem List.suffix_rfl (List.suffix_cons label own)⟩
  · rintro ⟨hown, hall⟩ s hmem hs hback
    rcases List.suffix_cons_iff.mp hs with rfl | hs
    · exact hall hmem
    · rw [hs.eq_of_length_le hback.length_le] at hmem
      exact hown hmem

/-- What the walk looks up. -/
theorem isDomainBlacklisted_iff (lines : List Text) (domain : Name) :
    isDomainBlacklisted (parsePsl lines) domain = true ↔
      (domainLabels domain ∈ rulesOf lines ∧ domainLabels domain ∉ exceptionsOf lines) ∨
        (ownLabels domain ∈ rulesOf lines ∧ ownLabels domain ∉ exceptionsOf lines ∧
          domainLabels domain ∉ exceptionsOf lines) ∨
        PairListed lines (domainLabels domain) := by
  have hdot : ∀ {s : Labels}, s <:+ domainLabels domain → ∀ label ∈ s, '.' ∉ label :=
    fun hs label hlabel => no_dot_of_mem_domainLabels (hs.subset hlabel)
  have hrules : ∀ {s : Labels}, s <:+ domainLabels domain → s ≠ [] →
      (join s ∈ (parsePsl lines).rules ↔ s ∈ rulesOf lines) := by
    intro s hs hne
    rw [join_mem_iff (hdot hs) hne, parsePsl_rules]
  have hstar : ∀ {s : Labels}, s <:+ domainLabels domain → s ≠ [] →
      ('*' :: '.' :: join s ∈ (parsePsl lines).rules ↔ ['*'] :: s ∈ rulesOf lines) := by
    intro s hs hne
    have hjoin : '*' :: '.' :: join s = join (['*'] :: s) := by
      obtain ⟨label, rest, rfl⟩ := List.exists_cons_of_ne_nil hne
      rfl
    rw [hjoin, join_mem_iff _ (List.cons_ne_nil _ _), parsePsl_rules]
    rintro label (_ | ⟨_, hlabel⟩)
    · simp
    · exact hdot hs label hlabel
  have hexceptions : ∀ {s : Labels}, s <:+ domainLabels domain → s ≠ [] →
      (join s ∈ (parsePsl lines).exceptions ↔ s ∈ exceptionsOf lines) := by
    intro s hs hne
    rw [join_mem_iff (hdot hs) hne, parsePsl_exceptions]
  have hfree : ∀ {back : Labels}, back ≠ [] →
      ((∀ s, s <:+ domainLabels domain → back <:+ s → join s ∉ (parsePsl lines).exceptions) ↔
        Free (exceptionsOf lines) (domainLabels domain) back) := by
    intro back hne
    have hnil : ∀ {s : Labels}, back <:+ s → s ≠ [] := fun hback hs =>
      hne (List.suffix_nil.mp (hs ▸ hback))
    constructor
    · exact fun h s hmem hs hback => h s hs hback ((hexceptions hs (hnil hback)).mpr hmem)
    · exact fun h s hs hback hmem => h s ((hexceptions hs (hnil hback)).mp hmem) hs hback
  show isDomainBlacklisted.go (parsePsl lines) (domainLabels domain) 0 (domainLabels domain) = true
    ↔ _
  rw [go_iff]
  constructor
  · rintro ⟨front, back, hlabels, ⟨hne, hhit⟩, hall⟩
    have hback : back <:+ domainLabels domain := ⟨front, hlabels.symm⟩
    have hfree' := (hfree hne).mp hall
    rcases hhit with ⟨hrule, hzero | ⟨hone, hhead⟩⟩ | ⟨hwild, hlen⟩
    · obtain rfl : front = [] := by simpa using hzero
      rw [List.nil_append] at hlabels
      rw [← hlabels] at hfree'
      exact .inl ⟨hlabels ▸ (hrules hback hne).mp hrule, free_self.mp hfree'⟩
    · obtain ⟨label, rfl⟩ := List.length_eq_one_iff.mp (by simpa using hone : front.length = 1)
      have hcons : domainLabels domain = label :: back := hlabels
      obtain rfl : label = ['*'] := by simpa [hcons] using hhead
      rcases domainLabels_eq domain with hown | ⟨-, hno⟩
      · obtain rfl : back = ownLabels domain := (List.cons.inj (hcons.symm.trans hown)).2
        rw [hown] at hfree' ⊢
        exact .inr (.inl ⟨(hrules hback hne).mp hrule, free_tail.mp hfree'⟩)
      · exact absurd hcons (hno back hne)
    · exact .inr (.inr ⟨back, hback, hlen, (hstar hback hne).mp hwild, hfree'⟩)
  · have hne := domainLabels_ne_nil domain
    have hself : domainLabels domain ∈ rulesOf lines →
        domainLabels domain ∉ exceptionsOf lines → ∃ front back,
          domainLabels domain = front ++ back ∧
            Hit (parsePsl lines) (domainLabels domain) (0 + front.length) back ∧
            ∀ s, s <:+ domainLabels domain → back <:+ s →
              join s ∉ (parsePsl lines).exceptions := by
      intro hrule hexception
      exact ⟨[], domainLabels domain, rfl,
        ⟨hne, .inl ⟨(hrules List.suffix_rfl hne).mpr hrule, .inl rfl⟩⟩,
        (hfree hne).mpr (free_self.mpr hexception)⟩
    rintro (⟨hrule, hexception⟩ | ⟨hrule, hown, hexception⟩ | ⟨pair, hpair, hlen, hrule, hfree'⟩)
    · exact hself hrule hexception
    · rcases domainLabels_eq domain with hstarred | ⟨hsame, -⟩
      · have hne' := ownLabels_ne_nil domain
        have hback : ownLabels domain <:+ domainLabels domain := by
          rw [hstarred]
          exact List.suffix_cons _ _
        refine ⟨[['*']], ownLabels domain, hstarred,
          ⟨hne', .inl ⟨(hrules hback hne').mpr hrule, .inr ⟨rfl, by rw [hstarred]; rfl⟩⟩⟩,
          (hfree hne').mpr ?_⟩
        rw [hstarred] at hexception ⊢
        exact free_tail.mpr ⟨hown, hexception⟩
      · exact hself (hsame ▸ hrule) hexception
    · have hne' : pair ≠ [] := List.ne_nil_of_length_eq_add_one hlen
      obtain ⟨front, hfront⟩ := hpair
      exact ⟨front, pair, hfront.symm,
        ⟨hne', .inr ⟨(hstar ⟨front, hfront⟩ hne').mpr hrule, hlen⟩⟩, (hfree hne').mpr hfree'⟩

/-! ## Where the walk is the algorithm -/

/-- An exception of the list matches the labels. -/
def Excepted (lines : List Text) (labels : Labels) : Prop :=
  ∃ exception ∈ exceptionsOf lines, Matches ['*'] exception labels

/-- A rule of the list covers the labels. -/
def Ruled (lines : List Text) (labels : Labels) : Prop :=
  ∃ rule ∈ rulesOf lines, Covers ['*'] rule labels

/-- The names that the walk decides as the algorithm does. -/
structure Handled (lines : List Text) (domain : Name) : Prop where
  /-- An exception matches: the walk finds no rule before it. -/
  excepted : Excepted lines (ownLabels domain) →
    (domainLabels domain ∈ rulesOf lines → domainLabels domain ∈ exceptionsOf lines) ∧
      (ownLabels domain ∈ rulesOf lines → ownLabels domain ∈ exceptionsOf lines ∨
        domainLabels domain ∈ exceptionsOf lines) ∧
      ¬ PairListed lines (domainLabels domain)
  /-- An exception is the name with its `*.`: no rule covers the rest. -/
  starred : ¬ Excepted lines (ownLabels domain) → domainLabels domain ∈ exceptionsOf lines →
    ¬ Ruled lines (ownLabels domain)
  /-- The name is not listed itself: a rule with wildcards covers it when `*.` stands in the list
  in front of its last two labels (or of the name, asked for with a `*.`), and only then. -/
  wildcards : ¬ Excepted lines (ownLabels domain) → domainLabels domain ∉ exceptionsOf lines →
    ownLabels domain ∉ rulesOf lines →
    (Ruled lines (ownLabels domain) ↔
      domainLabels domain ∈ rulesOf lines ∨ PairListed lines (domainLabels domain))

theorem isPublicSuffix_iff (lines : List Text) (labels : Labels) :
    IsPublicSuffix lines labels ↔ Ruled lines labels ∧ ¬ Excepted lines labels := by
  have hne : ∀ exception ∈ exceptionsOf lines, exception ≠ [] := by
    intro exception hmem
    obtain ⟨entry, -, rfl⟩ := List.mem_map.mp hmem
    exact List.splitOnP_ne_nil _ _
  rw [IsPublicSuffix, suffixLength_eq_length hne, Ruled, Excepted]
  simp only [not_exists, not_and]

theorem ruled_of_mem {lines : List Text} (h : labels ∈ rulesOf lines) : Ruled lines labels :=
  ⟨labels, h, Covers.refl labels⟩

theorem excepted_of_mem {lines : List Text} (h : labels ∈ exceptionsOf lines) :
    Excepted lines labels :=
  ⟨labels, h, (Covers.refl labels).matches⟩

/-- A deeper one is applied to its base and to all names below. -/
example : let lines := ["jp".toList, "*.kobe.jp".toList]
    ["kobe.jp", "foo.kobe.jp", "bar.foo.kobe.jp"].map (fun domain =>
      (isDomainBlacklisted (parsePsl lines) domain.toList,
        decide (IsPublicSuffix lines (ownLabels domain.toList)))) =
      [(true, false), (true, true), (true, false)] := by
  decide +kernel

end BunkerWeb.LetsEncrypt.CertbotNew
