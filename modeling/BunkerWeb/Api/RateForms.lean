import BunkerWeb.Api.RateRules

/-!
# Three forms of one rule list (`_load_rules`)

Rules with methods, a path and a rate, as they are written in a list, in a mapping and inline. The
list and the mapping load into the same rules. The inline form does where each item is read as it is
meant: the last word is the rate, and the first word is a path if it has a slash.
-/

namespace BunkerWeb.Api.RateLimit

open Lib

/-- A word: it is not empty, and no space or separator of rules is in it. -/
def IsWord (text : Text) : Prop :=
  text ≠ [] ∧ ∀ c ∈ text, isSpace c = false ∧ c ≠ ',' ∧ c ≠ ';'

instance (text : Text) : Decidable (IsWord text) :=
  @instDecidableAnd (text ≠ []) _ inferInstance (List.decidableBAll _ text)

/-- A rule as it is written. -/
structure RuleText where
  methods : List Text
  path : Text
  rate : Text
  method_word : ∀ m ∈ methods, IsWord m ∧ '|' ∉ m ∧ '/' ∉ m ∧ '"' ∉ m
  path_word : IsWord path

namespace RuleText

/-- `A|B`. -/
def joined (r : RuleText) : Text := ['|'].intercalate r.methods

/-- The methods and the path: the key of a mapping. -/
def key (r : RuleText) : Text := if r.methods = [] then r.path else r.joined ++ ' ' :: r.path

/-- The methods of a list item, as a text or as a list. -/
def methodsValue (asList : Bool) (r : RuleText) : Value :=
  if asList then .list (r.methods.map .text) else .text r.joined

def item (asList : Bool) (r : RuleText) : Value :=
  .dict [("path".toList, .text r.path), ("methods".toList, r.methodsValue asList),
    ("rate".toList, .text r.rate)]

/-- One item of the inline form. -/
def inlineItem (r : RuleText) : Text := r.key ++ ' ' :: r.rate

end RuleText

def listForm (asList : Bool) (rules : List RuleText) : Value := .list (rules.map (RuleText.item asList))

def mappingForm (rules : List RuleText) : Value := .dict (rules.map fun r => (r.key, .text r.rate))

/-- The items with a delimiter and spaces between them. -/
def inlineForm (delimiter : Char) (spaces : Nat) (rules : List RuleText) : Text :=
  (delimiter :: List.replicate spaces ' ').intercalate (rules.map RuleText.inlineItem)

variable {Regex : Type} (lib : Library Regex)

/-- The rule can be written inline: the rate is one word that is accepted, and a path without
methods is known by a slash. -/
structure RuleText.Inline (r : RuleText) : Prop where
  accepted : (parseRate lib.digits r.rate).isSome
  rate_word : IsWord r.rate
  slash : r.methods = [] → '/' ∈ r.path ∧ r.path.head? ≠ some '"'

/-- What is loaded for a rule. -/
def RuleText.limits (r : RuleText) : Option (Finset Text × Regex × Int × Int) :=
  (parseRate lib.digits r.rate).bind fun rate => (compilePattern lib r.path).map fun pattern =>
    ((r.methods.map (normalizeMethod lib)).toFinset, pattern, rate.1, rate.2)

/-- The text is neither the name of a file nor JSON nor a list or a mapping in YAML. -/
structure ReadInline (text : Text) : Prop where
  file : lib.file text = none
  json : lib.json text = none
  yaml : ∀ value, lib.yaml text = some value →
    (∀ entries, value ≠ .dict entries) ∧ ∀ values, value ≠ .list values

/-! ## Words -/

variable {lib}

theorem IsWord.strip {text : Text} (h : IsWord text) : stripChars text = text :=
  stripChars_eq fun c hc => (h.2 c hc).1

theorem IsWord.fields {text : Text} (h : IsWord text) : fields isSpace text = [text] :=
  fields_eq_singleton h.1 fun c hc => (h.2 c hc).1

theorem mem_intercalate {sep : Text} {texts : List Text} {c : Char}
    (h : c ∈ sep.intercalate texts) : c ∈ sep ∨ ∃ text ∈ texts, c ∈ text := by
  induction texts with
  | nil => exact absurd h List.not_mem_nil
  | cons text texts ih =>
    cases texts with
    | nil => exact .inr ⟨text, List.mem_cons_self, by simpa using h⟩
    | cons next texts =>
      rw [List.intercalate_cons_cons, List.mem_append, List.mem_append] at h
      rcases h with (h | h) | h
      · exact .inr ⟨text, List.mem_cons_self, h⟩
      · exact .inl h
      · exact (ih h).imp_right fun ⟨t, ht, hc⟩ => ⟨t, List.mem_cons_of_mem _ ht, hc⟩

theorem RuleText.joined_word {r : RuleText} (h : r.methods ≠ []) : IsWord r.joined := by
  constructor
  · intro hempty
    have hsplit := congrArg (List.splitOn '|') hempty
    rw [RuleText.joined, List.splitOn_intercalate '|' (fun m hm => (r.method_word m hm).2.1) h,
      List.splitOn_nil] at hsplit
    exact (r.method_word [] (hsplit ▸ List.mem_singleton_self _)).1.1 rfl
  · intro c hc
    rcases mem_intercalate hc with hc | ⟨m, hm, hc⟩
    · obtain rfl := List.mem_singleton.mp hc
      decide
    · exact (r.method_word m hm).1.2 c hc

theorem RuleText.slash_notMem_joined (r : RuleText) : '/' ∉ r.joined := by
  intro hc
  rcases mem_intercalate hc with hc | ⟨m, hm, hc⟩
  · exact absurd hc (by decide)
  · exact (r.method_word m hm).2.2.1 hc

theorem RuleText.fields_key (r : RuleText) :
    fields isSpace r.key = if r.methods = [] then [r.path] else [r.joined, r.path] := by
  unfold RuleText.key
  split
  · exact r.path_word.fields
  next h =>
    rw [fields_append_cons (by decide), (RuleText.joined_word h).fields, r.path_word.fields]
    rfl

theorem RuleText.splitMethods_joined (r : RuleText) :
    splitMethods lib r.joined = (r.methods.map (normalizeMethod lib)).toFinset := by
  by_cases h : r.methods = []
  · rw [RuleText.joined, h]
    rfl
  · rw [splitMethods, RuleText.joined, List.splitOn_intercalate '|'
      (fun m hm => (r.method_word m hm).2.1) h, List.filter_eq_self.mpr fun m hm => by
        simpa using (r.method_word m hm).1.1]

theorem RuleText.parseMethods_value (asList : Bool) (r : RuleText) :
    parseMethods lib (some (r.methodsValue asList)) =
      (r.methods.map (normalizeMethod lib)).toFinset := by
  unfold RuleText.methodsValue
  split
  · show methodsOf lib ((r.methods.map Value.text).map (str lib)) = _
    have hmap : (r.methods.map Value.text).map (str lib) = r.methods := by
      rw [List.map_map]
      exact List.map_id r.methods
    rw [hmap, methodsOf, List.filter_eq_self.mpr fun m hm => by
      obtain ⟨hword, -⟩ := r.method_word m hm
      rw [hword.strip]
      simpa using hword.1]
  · exact r.splitMethods_joined

theorem orRoot_eq {path : Text} (h : path ≠ []) : orRoot path = path := if_neg h

/-! ## The list and the mapping -/

theorem map_mapM {α β γ : Type} (f : α → Option β) (g : β → γ) (l : List α) :
    (l.mapM f).map (List.map g) = l.mapM fun a => (f a).map g := by
  induction l with
  | nil => rfl
  | cons a l ih =>
    rw [List.mapM_cons, List.mapM_cons, ← ih]
    cases f a with
    | none => rfl
    | some b => cases l.mapM f <;> rfl

theorem limits_ruleFromDict (asList : Bool) (r : RuleText) :
    (ruleFromDict lib [("path".toList, .text r.path), ("methods".toList, r.methodsValue asList),
      ("rate".toList, .text r.rate)]).map Rule.limits = r.limits lib := by
  have hpath : orRoot (stripChars r.path) = r.path := by
    rw [r.path_word.strip, orRoot_eq r.path_word.1]
  show ((parseRate lib.digits r.rate).bind fun rate =>
    (compilePattern lib (orRoot (stripChars r.path))).map fun pattern =>
      (⟨parseMethods lib (some (r.methodsValue asList)), pattern, rate.1, rate.2, _⟩ :
        Rule Regex)).map Rule.limits = _
  rw [hpath, r.parseMethods_value asList, RuleText.limits, Option.map_bind]
  congr 1
  funext rate
  rw [Function.comp_apply, Option.map_map]
  rfl

theorem limits_ruleFromMappingKey (r : RuleText) :
    (ruleFromMappingKey lib r.key (.text r.rate)).map Rule.limits = r.limits lib := by
  have hbuild : ∀ (methods : Finset Text) (raw : Text),
      methods = (r.methods.map (normalizeMethod lib)).toFinset →
      ((parseRate lib.digits r.rate).bind fun rate => (compilePattern lib r.path).map fun pattern =>
        (⟨methods, pattern, rate.1, rate.2, raw⟩ : Rule Regex)).map Rule.limits = r.limits lib := by
    rintro _ raw rfl
    rw [RuleText.limits, Option.map_bind]
    congr 1
    funext rate
    rw [Function.comp_apply, Option.map_map]
    rfl
  unfold ruleFromMappingKey
  rw [r.fields_key]
  split_ifs with h
  · exact hbuild ∅ _ (by rw [h]; rfl)
  · have hrest : joinRest [r.joined, r.path] = r.path := by
      rw [joinRest, List.tail_cons, List.intercalate_singleton]
    show (Option.bind _ fun rate => (compilePattern lib (joinRest [r.joined, r.path])).map _).map
      Rule.limits = _
    rw [hrest]
    exact hbuild _ _ r.splitMethods_joined

/-- The list loads into what its rules say. -/
theorem limits_listForm (asList : Bool) (rules : List RuleText) (fuel : Nat) :
    (loadRules lib fuel (listForm asList rules)).map (List.map Rule.limits) =
      rules.mapM (RuleText.limits lib) := by
  have hdicts : (rules.map (RuleText.item asList)).filterMap asDict =
      rules.map fun r => [("path".toList, Value.text r.path),
        ("methods".toList, r.methodsValue asList), ("rate".toList, .text r.rate)] := by
    rw [List.filterMap_map, ← List.filterMap_eq_map]
    rfl
  rw [listForm, loadRules, rulesFromSequence, hdicts, map_mapM, List.mapM_map]
  exact congrArg rules.mapM (funext fun r => limits_ruleFromDict asList r)

theorem limits_mappingForm (rules : List RuleText) (fuel : Nat) :
    (loadRules lib fuel (mappingForm rules)).map (List.map Rule.limits) =
      rules.mapM (RuleText.limits lib) := by
  rw [mappingForm, loadRules, map_mapM, List.mapM_map]
  exact congrArg rules.mapM (funext fun r => limits_ruleFromMappingKey r)

/-! ## The inline form -/

theorem RuleText.key_ends (r : RuleText) :
    r.key ≠ [] ∧ (∀ c ∈ r.key.head?, isSpace c = false) ∧ ∀ c ∈ r.key.getLast?, isSpace c = false := by
  unfold RuleText.key
  split
  · exact ⟨r.path_word.1, fun c hc => (r.path_word.2 c (List.mem_of_mem_head? hc)).1,
      fun c hc => (r.path_word.2 c (List.mem_of_mem_getLast? hc)).1⟩
  next h =>
    have hword := RuleText.joined_word h
    refine ⟨by simp, fun c hc => ?_, fun c hc => ?_⟩
    · rw [List.head?_append, List.head?_eq_some_head hword.1, Option.some_or] at hc
      cases hc
      exact (hword.2 _ (List.head_mem _)).1
    · rw [List.getLast?_append, List.getLast?_cons_of_ne_nil r.path_word.1,
        List.getLast?_eq_some_getLast r.path_word.1, Option.some_or] at hc
      cases hc
      exact (r.path_word.2 _ (List.getLast_mem _)).1

theorem RuleText.strip_inlineItem {r : RuleText} (h : IsWord r.rate) :
    stripChars r.inlineItem = r.inlineItem := by
  obtain ⟨hne, hhead, -⟩ := r.key_ends
  refine stripChars_eq_self (fun c hc => hhead c ?_) fun c hc => ?_
  · rw [RuleText.inlineItem, List.head?_append, List.head?_eq_some_head hne, Option.some_or] at hc
    rw [List.head?_eq_some_head hne]
    exact hc
  · rw [RuleText.inlineItem, List.getLast?_append, List.getLast?_cons_of_ne_nil h.1,
      List.getLast?_eq_some_getLast h.1, Option.some_or] at hc
    cases hc
    exact (h.2 _ (List.getLast_mem _)).1

theorem not_isRegexSpace {c : Char} (h : isSpace c = false) : isRegexSpace c = false := by
  rw [isRegexSpace, h, Bool.false_and]

/-- The last word of an item is its rate. -/
theorem RuleText.rtakeWhile_inlineItem {r : RuleText} (h : IsWord r.rate) :
    r.inlineItem.rtakeWhile (!isRegexSpace ·) = r.rate := by
  have hrate : ∀ c ∈ r.rate.reverse, (!isRegexSpace c) = true := by
    intro c hc
    rw [not_isRegexSpace (h.2 c (List.mem_reverse.mp hc)).1, Bool.not_false]
  rw [List.rtakeWhile, RuleText.inlineItem, List.reverse_append, List.reverse_cons,
    List.append_assoc, List.takeWhile_append_of_pos hrate, List.singleton_append,
    List.takeWhile_cons_of_neg (by decide), List.append_nil, List.reverse_reverse]

/-- What stands in front of the rate is the key. -/
theorem RuleText.head_inlineItem (r : RuleText) :
    stripChars (r.inlineItem.take (r.inlineItem.length - r.rate.length)) = r.key := by
  obtain ⟨-, hhead, hlast⟩ := r.key_ends
  have hlength : r.inlineItem.length - r.rate.length = (r.key ++ [' ']).length := by
    simp only [RuleText.inlineItem, List.length_append, List.length_cons, List.length_nil]
    omega
  rw [hlength, RuleText.inlineItem, List.append_cons r.key ' ' r.rate, List.take_left, stripChars_concat (by decide),
    stripChars_eq_self hhead hlast]

theorem RuleText.splitHead_key {r : RuleText} (h : r.methods = [] → '/' ∈ r.path) :
    splitHead lib r.key = ((r.methods.map (normalizeMethod lib)).toFinset, r.path) := by
  unfold splitHead
  rw [r.fields_key]
  split_ifs with hmethods
  · show (if '/' ∈ r.path then (∅, r.key) else _) = _
    rw [if_pos (h hmethods), RuleText.key, if_pos hmethods, hmethods]
    rfl
  · show (if '/' ∈ r.joined then _ else
      (splitMethods lib r.joined, stripChars (joinRest [r.joined, r.path]))) = _
    rw [if_neg r.slash_notMem_joined, r.splitMethods_joined, joinRest, List.tail_cons,
      List.intercalate_singleton, r.path_word.strip]

theorem limits_ruleFromItem {r : RuleText} (h : r.Inline lib) :
    (ruleFromItem lib r.inlineItem).map (Option.map Rule.limits) =
      (r.limits lib).map some := by
  obtain ⟨rate, hrate⟩ := Option.isSome_iff_exists.mp h.accepted
  have hfields : fields isSpace r.key ≠ [] := by
    rw [r.fields_key]
    split_ifs <;> exact List.cons_ne_nil _ _
  have hsplit : splitHead lib r.key =
      ((r.methods.map (normalizeMethod lib)).toFinset, r.path) :=
    RuleText.splitHead_key fun hm => (h.slash hm).1
  have hne : ¬ (r.inlineItem = [] ∨ r.rate = []) := by
    rw [not_or]
    exact ⟨by simp [RuleText.inlineItem], h.rate_word.1⟩
  simp only [ruleFromItem, RuleText.strip_inlineItem h.rate_word,
    RuleText.rtakeWhile_inlineItem h.rate_word, r.head_inlineItem, if_neg hne, hrate, if_neg hfields,
    hsplit, orRoot_eq r.path_word.1, RuleText.limits, Option.bind_some, Option.map_map]
  rfl

theorem RuleText.mem_inlineItem {r : RuleText} (h : IsWord r.rate) {c : Char}
    (hc : c ∈ r.inlineItem) : c = ' ' ∨ isSpace c = false ∧ c ≠ ',' ∧ c ≠ ';' := by
  rcases List.mem_append.mp hc with hc | hc
  · unfold RuleText.key at hc
    split at hc
    · exact .inr (r.path_word.2 c hc)
    next hmethods =>
      rcases List.mem_append.mp hc with hc | hc
      · exact .inr ((RuleText.joined_word hmethods).2 c hc)
      · exact (List.mem_cons.mp hc).imp_right (r.path_word.2 c)
  · exact (List.mem_cons.mp hc).imp_right (h.2 c)

theorem RuleText.head_key_ne_quote {r : RuleText} (h : r.methods = [] → r.path.head? ≠ some '"') :
    r.key.head? ≠ some '"' := by
  unfold RuleText.key
  split
  next hmethods => exact h hmethods
  next hmethods =>
    have hne := (RuleText.joined_word hmethods).1
    rw [List.head?_append, List.head?_eq_some_head hne, Option.some_or]
    intro hquote
    rcases mem_intercalate (List.mem_of_mem_head? (List.head?_eq_some_head hne ▸ hquote)) with
      hc | ⟨m, hm, hc⟩
    · exact absurd hc (by decide)
    · exact (r.method_word m hm).2.2.2 hc

/-- An item is a field as it stands. -/
theorem RuleText.plain_inlineItem {r : RuleText} (h : r.Inline lib) {delimiter : Char}
    (hdelimiter : delimiter = ',' ∨ delimiter = ';') : Csv.Plain delimiter r.inlineItem := by
  constructor
  · obtain ⟨c, rest, hkey⟩ := List.exists_cons_of_ne_nil r.key_ends.1
    refine ⟨c, rest ++ ' ' :: r.rate, by rw [RuleText.inlineItem, hkey, List.cons_append], ?_, ?_⟩
    · rintro rfl
      exact RuleText.head_key_ne_quote (fun hm => (h.slash hm).2) (by rw [hkey]; rfl)
    · rintro rfl
      exact absurd (r.key_ends.2.1 ' ' (by rw [hkey]; rfl)) (by decide)
  · intro c hc
    rcases RuleText.mem_inlineItem h.rate_word hc with rfl | ⟨hspace, hcomma, hsemicolon⟩
    · exact ⟨by decide, by rcases hdelimiter with rfl | rfl <;> decide⟩
    · have hbreak : Csv.isBreak c = false := by
        rw [Bool.eq_false_iff]
        intro hbreak
        have hor : c = '\n' ∨ c = '\r' := by simpa [Csv.isBreak] using hbreak
        rcases hor with rfl | rfl <;> exact absurd hspace (by decide)
      rcases hdelimiter with rfl | rfl
      · exact ⟨hbreak, hcomma⟩
      · exact ⟨hbreak, hsemicolon⟩

/-- The items are found if the reader takes the delimiter that is between them. -/
theorem csvItems_of_delimiter {delimiter : Char} (hdelimiter : delimiter = ',' ∨ delimiter = ';')
    (spaces : Nat) {rules : List RuleText} (h : ∀ r ∈ rules, r.Inline lib)
    (hchoice : (lib.sniff (inlineForm delimiter spaces rules)).getD
      (if ',' ∈ inlineForm delimiter spaces rules ∨ ';' ∉ inlineForm delimiter spaces rules then ','
        else ';') = delimiter) :
    csvItems lib (inlineForm delimiter spaces rules) = some (rules.map RuleText.inlineItem) := by
  have hplain : ∀ t ∈ rules.map RuleText.inlineItem, Csv.Plain delimiter t := by
    intro t ht
    obtain ⟨r, hr, rfl⟩ := List.mem_map.mp ht
    exact RuleText.plain_inlineItem (h r hr) hdelimiter
  have hread := Csv.fieldsOf_intercalate (by rcases hdelimiter with rfl | rfl <;> decide) spaces
    hplain
  have hstrip : (rules.map RuleText.inlineItem).map stripChars = rules.map RuleText.inlineItem := by
    rw [List.map_map]
    exact List.map_congr_left fun r hr => RuleText.strip_inlineItem (h r hr).rate_word
  rw [csvItems, hchoice, inlineForm, hread, Option.map_some, hstrip, List.filter_eq_self.mpr]
  intro t ht
  obtain ⟨r, -, rfl⟩ := List.mem_map.mp ht
  simp [RuleText.inlineItem]

theorem notMem_inlineForm {delimiter : Char} {spaces : Nat} {rules : List RuleText}
    (h : ∀ r ∈ rules, r.Inline lib) {c : Char} (hc : c = ',' ∨ c = ';') (hne : c ≠ delimiter) :
    c ∉ inlineForm delimiter spaces rules := by
  intro hmem
  rcases mem_intercalate hmem with hmem | ⟨t, ht, hmem⟩
  · rcases List.mem_cons.mp hmem with rfl | hmem
    · exact hne rfl
    · rw [List.eq_of_mem_replicate hmem] at hc
      exact absurd hc (by decide)
  · obtain ⟨r, hr, rfl⟩ := List.mem_map.mp ht
    rcases RuleText.mem_inlineItem (h r hr).rate_word hmem with rfl | ⟨-, hcomma, hsemicolon⟩
    · exact absurd hc (by decide)
    · rcases hc with rfl | rfl
      · exact hcomma rfl
      · exact hsemicolon rfl

/-- One rule needs no delimiter. -/
theorem inlineForm_of_length {rules : List RuleText} (h : rules.length ≤ 1)
    (delimiter delimiter' : Char) (spaces : Nat) :
    inlineForm delimiter spaces rules = inlineForm delimiter' spaces rules := by
  rcases rules with _ | ⟨r, _ | ⟨r', rules⟩⟩
  · rfl
  · rw [inlineForm, inlineForm, List.map_singleton, List.intercalate_singleton,
      List.intercalate_singleton]
  · simp at h

/-- Between two rules there is a delimiter. -/
theorem mem_inlineForm {rules : List RuleText} (h : ¬ rules.length ≤ 1) (delimiter : Char)
    (spaces : Nat) : delimiter ∈ inlineForm delimiter spaces rules := by
  rcases rules with _ | ⟨r, _ | ⟨r', rules⟩⟩
  · simp at h
  · simp at h
  · rw [inlineForm, List.map_cons, List.map_cons, List.intercalate_cons_cons]
    simp

/-- The items of the inline form are found again. -/
theorem csvItems_inlineForm {delimiter : Char} (hdelimiter : delimiter = ',' ∨ delimiter = ';')
    (spaces : Nat) {rules : List RuleText} (h : ∀ r ∈ rules, r.Inline lib) :
    csvItems lib (inlineForm delimiter spaces rules) = some (rules.map RuleText.inlineItem) := by
  generalize hchoice : (lib.sniff (inlineForm delimiter spaces rules)).getD
    (if ',' ∈ inlineForm delimiter spaces rules ∨ ';' ∉ inlineForm delimiter spaces rules then ','
      else ';') = choice
  have hsniff := lib.sniff_mem (inlineForm delimiter spaces rules)
  have hallowed : choice = ',' ∨ choice = ';' := by
    subst hchoice
    cases hs : lib.sniff (inlineForm delimiter spaces rules) with
    | none =>
      rw [Option.getD_none]
      split
      · exact .inl rfl
      · exact .inr rfl
    | some c => exact (hsniff c hs).1
  by_cases hlength : rules.length ≤ 1
  · rw [inlineForm_of_length hlength delimiter choice] at hchoice ⊢
    exact csvItems_of_delimiter hallowed spaces h hchoice
  · have hmem := mem_inlineForm hlength delimiter spaces
    have hother : ∀ c, c = ',' ∨ c = ';' → c ∈ inlineForm delimiter spaces rules →
        c = delimiter := by
      intro c hc hmem
      by_contra hne
      exact notMem_inlineForm h hc hne hmem
    have heq : choice = delimiter := by
      cases hs : lib.sniff (inlineForm delimiter spaces rules) with
      | some c =>
        obtain ⟨hc, hcmem⟩ := hsniff c hs
        rw [hs, Option.getD_some] at hchoice
        exact hchoice ▸ hother c hc hcmem
      | none =>
        rw [hs, Option.getD_none] at hchoice
        rcases hdelimiter with rfl | rfl
        · rw [if_pos (.inl hmem)] at hchoice
          exact hchoice.symm
        · have hcomma : ',' ∉ inlineForm ';' spaces rules :=
            notMem_inlineForm h (.inl rfl) (by decide)
          rw [if_neg (by simp [hmem, hcomma])] at hchoice
          exact hchoice.symm
    exact csvItems_of_delimiter hdelimiter spaces h (hchoice.trans heq)

theorem getLast_intercalate {sep : Text} {texts : List Text} (hne : ∀ t ∈ texts, t ≠ []) :
    ∀ c ∈ (sep.intercalate texts).getLast?, ∃ t ∈ texts, c ∈ t.getLast? := by
  induction texts with
  | nil => exact fun c hc => by simp at hc
  | cons t texts ih =>
    intro c hc
    cases texts with
    | nil => exact ⟨t, List.mem_cons_self, by simpa using hc⟩
    | cons u texts =>
      rw [List.intercalate_cons_cons, List.getLast?_append] at hc
      cases hlast : (sep.intercalate (u :: texts)).getLast? with
      | some a =>
        rw [hlast, Option.some_or] at hc
        obtain ⟨t', ht', hc'⟩ := ih (fun t ht => hne t (List.mem_cons_of_mem _ ht)) c (hlast ▸ hc)
        exact ⟨t', List.mem_cons_of_mem _ ht', hc'⟩
      | none =>
        have hempty := List.getLast?_eq_none_iff.mp hlast
        have hu := hne u (by simp)
        cases texts with
        | nil => exact absurd (by simpa using hempty) hu
        | cons v texts =>
          rw [List.intercalate_cons_cons, List.append_assoc] at hempty
          exact absurd (List.append_eq_nil_iff.mp hempty).1 hu

theorem strip_inlineForm {delimiter : Char} {spaces : Nat} {rules : List RuleText}
    (h : ∀ r ∈ rules, r.Inline lib) :
    stripChars (inlineForm delimiter spaces rules) = inlineForm delimiter spaces rules := by
  have hends : ∀ r ∈ rules, ∀ c, c ∈ r.inlineItem.head? ∨ c ∈ r.inlineItem.getLast? →
      isSpace c = false := by
    intro r hr c hc
    have hstrip := RuleText.strip_inlineItem (h r hr).rate_word
    rcases hc with hc | hc
    · exact head_stripChars c (hstrip ▸ hc)
    · exact getLast_stripChars c (hstrip ▸ hc)
  refine stripChars_eq_self (fun c hc => ?_) fun c hc => ?_
  · cases rules with
    | nil => cases hc
    | cons r rules =>
      refine hends r List.mem_cons_self c (.inl ?_)
      have hne : r.inlineItem ≠ [] := by simp [RuleText.inlineItem]
      cases rules with
      | nil => simpa [inlineForm] using hc
      | cons r' rules =>
        rw [inlineForm, List.map_cons, List.map_cons, List.intercalate_cons_cons, List.append_assoc,
          List.head?_append, List.head?_eq_some_head hne, Option.some_or] at hc
        rw [List.head?_eq_some_head hne]
        exact hc
  · have hne : ∀ t ∈ rules.map RuleText.inlineItem, t ≠ [] := by
      intro t ht
      obtain ⟨r, -, rfl⟩ := List.mem_map.mp ht
      simp [RuleText.inlineItem]
    obtain ⟨t, ht, hc⟩ := getLast_intercalate hne c hc
    obtain ⟨r, hr, rfl⟩ := List.mem_map.mp ht
    exact hends r hr c (.inr hc)

theorem limits_rulesFromString {delimiter : Char} (hdelimiter : delimiter = ',' ∨ delimiter = ';')
    (spaces : Nat) {rules : List RuleText} (h : ∀ r ∈ rules, r.Inline lib) :
    (rulesFromString lib (inlineForm delimiter spaces rules)).map (List.map Rule.limits) =
      rules.mapM (RuleText.limits lib) := by
  rw [rulesFromString, csvItems_inlineForm hdelimiter spaces h, Option.bind_some, List.mapM_map,
    Option.map_map]
  induction rules with
  | nil => rfl
  | cons r rules ih =>
    have hitem := limits_ruleFromItem (h r List.mem_cons_self)
    have hrest := ih fun r hr => h r (List.mem_cons_of_mem _ hr)
    rw [List.mapM_cons, List.mapM_cons, ← hrest, Function.comp_apply]
    cases hrule : ruleFromItem lib r.inlineItem with
    | none =>
      rw [hrule, Option.map_none] at hitem
      rw [Option.map_eq_none_iff.mp hitem.symm]
      rfl
    | some rule =>
      rw [hrule, Option.map_some] at hitem
      obtain ⟨limits, hlimits, hsome⟩ := Option.map_eq_some_iff.mp hitem.symm
      obtain ⟨rule, rfl, rfl⟩ := Option.map_eq_some_iff.mp hsome.symm
      rw [hlimits]
      cases rules.mapM (ruleFromItem lib ∘ RuleText.inlineItem) <;> rfl

/-- Inline rules load into what they say. -/
theorem limits_inlineForm {delimiter : Char} (hdelimiter : delimiter = ',' ∨ delimiter = ';')
    (spaces : Nat) {rules : List RuleText} (h : ∀ r ∈ rules, r.Inline lib)
    (hread : ReadInline lib (inlineForm delimiter spaces rules)) (fuel : Nat) :
    (loadRules lib (fuel + 1) (.text (inlineForm delimiter spaces rules))).map
        (List.map Rule.limits) =
      rules.mapM (RuleText.limits lib) := by
  have hrules := limits_rulesFromString hdelimiter spaces h
  simp only [loadRules, strip_inlineForm h, hread.file, hread.json]
  split
  next hempty =>
    rw [hempty] at hrules
    exact hrules
  next =>
    split
    next entries hyaml => exact absurd rfl ((hread.yaml _ hyaml).1 entries)
    next values hyaml => exact absurd rfl ((hread.yaml _ hyaml).2 values)
    next => exact hrules

/-- A text that is JSON loads as what it says. -/
theorem loadRules_json {text : Text} {value : Value} (hne : stripChars text ≠ [])
    (hfile : lib.file (stripChars text) = none) (hjson : lib.json (stripChars text) = some value)
    (hnull : value ≠ .null) (fuel : Nat) :
    loadRules lib (fuel + 1) (.text text) = loadRules lib fuel value := by
  simp only [loadRules, if_neg hne, hfile, hjson]

/-- Rates are read back, and the three forms of a rule list load into the same rules. -/
theorem rates_faithful (lib : Library Regex) :
    (∀ rate times seconds, parseRate lib.digits rate = some (times, seconds) →
      ('-' ∉ rate → 0 ≤ times ∧ 0 ≤ seconds) ∧
        (0 ≤ seconds → parseRate lib.digits (limitString times seconds) = some (times, seconds))) ∧
    ∀ (rules : List RuleText) (asList : Bool) (fuel : Nat),
      (loadRules lib (fuel + 1) (listForm asList rules)).map (List.map Rule.limits) =
          (loadRules lib (fuel + 1) (mappingForm rules)).map (List.map Rule.limits) ∧
        ∀ (delimiter : Char) (spaces : Nat), delimiter = ',' ∨ delimiter = ';' →
          (∀ r ∈ rules, r.Inline lib) → ReadInline lib (inlineForm delimiter spaces rules) →
          (loadRules lib (fuel + 1) (.text (inlineForm delimiter spaces rules))).map
              (List.map Rule.limits) =
            (loadRules lib (fuel + 1) (listForm asList rules)).map (List.map Rule.limits) := by
  refine ⟨fun rate times seconds hrate => ⟨fun hsign => parseRate_nonneg hsign hrate,
    fun hseconds => parseRate_limitString times hseconds⟩, fun rules asList fuel => ⟨?_,
    fun delimiter spaces hdelimiter hinline hread => ?_⟩⟩
  · rw [limits_listForm, limits_mappingForm]
  · rw [limits_inlineForm hdelimiter spaces hinline hread, limits_listForm]

/-! ## Two rules -/

/-- The library on texts that are in no file and no JSON, and are plain text in YAML. -/
def plainLibrary : Library Text where
  digits := .plain
  upper text := text.map Char.toUpper
  escape text := text.flatMap fun c => if c = '*' then ['\\', '*'] else [c]
  compile := some
  repr _ := []
  dumps _ := none
  file _ := none
  json _ := none
  yaml text := some (.text text)
  sniff text := if ',' ∈ text then some ',' else none
  sniff_mem text delimiter h := by
    obtain ⟨hmem, hsome⟩ := Option.ite_none_right_eq_some.mp h
    cases hsome
    exact ⟨.inl rfl, hmem⟩

def authRule (rate : Text) : RuleText where
  methods := ["POST".toList]
  path := "/auth".toList
  rate := rate
  method_word := by decide +kernel
  path_word := by decide +kernel

def instancesRule : RuleText where
  methods := []
  path := "/instances*".toList
  rate := "200r/m".toList
  method_word := by decide +kernel
  path_word := by decide +kernel

theorem rates_faithful_two_rules :
    parseRate .plain (limitString 200 1800) = some (200, 1800) ∧
      (loadRules plainLibrary 1 (.text "POST /auth 10r/m, /instances* 200r/m".toList)).map
          (List.map Rule.limits) =
        (loadRules plainLibrary 1 (listForm false [authRule "10r/m".toList, instancesRule])).map
          (List.map Rule.limits) := by
  have hinline : ∀ r ∈ [authRule "10r/m".toList, instancesRule], r.Inline plainLibrary := by
    intro r hr
    rcases List.mem_cons.mp hr with rfl | hr
    · exact ⟨by decide +kernel, by decide +kernel, by decide +kernel⟩
    · obtain rfl := List.mem_singleton.mp hr
      exact ⟨by decide +kernel, by decide +kernel, by decide +kernel⟩
  obtain ⟨hrates, hforms⟩ := rates_faithful plainLibrary
  have hinput := hrates "200 per 30 minutes".toList 200 1800 (by decide +kernel)
  refine ⟨hinput.2 (by decide), ?_⟩
  have htext : inlineForm ',' 1 [authRule "10r/m".toList, instancesRule] =
      "POST /auth 10r/m, /instances* 200r/m".toList := by decide +kernel
  have hload := (hforms [authRule "10r/m".toList, instancesRule] false 0).2 ',' 1 (.inl rfl) hinline
    ⟨rfl, rfl, fun value hvalue => ⟨fun entries h => (by subst h; cases hvalue),
      fun values h => (by subst h; cases hvalue)⟩⟩
  rwa [htext] at hload

/-- A rate may be zero, and an inline rule with a rate of three words is left out. -/
theorem zero_rate_and_rule_left_out :
    parseRate .plain "0/60".toList = some (0, 60) ∧
      parseRate .plain "10 per hour".toList = some (10, 3600) ∧
      (loadRules plainLibrary 1
          (.text (inlineForm ',' 1 [authRule "10 per hour".toList]))).map (List.map Rule.limits) =
        some [] ∧
      (loadRules plainLibrary 1 (listForm false [authRule "10 per hour".toList])).map
          (List.map Rule.limits) =
        some [(["POST".toList].toFinset, "^/auth$".toList, 10, 3600)] :=
  ⟨by decide +kernel, by decide +kernel, by decide +kernel, by decide +kernel⟩

end BunkerWeb.Api.RateLimit
