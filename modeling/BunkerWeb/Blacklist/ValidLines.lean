import BunkerWeb.Blacklist.Download
import BunkerWeb.Lib.Fields
import BunkerWeb.Text

/-!
# Valid lines (`blacklist-download.py`)

The lines of a download are checked for a kind, and stored for its URL. A kind that finds the URL in
the cache takes the lines as they are. So the files of all kinds have valid lines as long as no URL
is taken from the cache for a kind that is checked in another way (`valid_of_sameCheck`).
-/

namespace BunkerWeb.Blacklist

open Lib

variable {m : IpModule}

/-- The line is one that `check_line` accepts for the kind. -/
def Accepted (m : IpModule) (kind : Kind) (line : Bytes) : Prop := (checkLine m kind line).isSome

/-- Every line of the text is accepted for the kind. -/
def Valid (m : IpModule) (kind : Kind) (data : Bytes) : Prop :=
  ∀ line ∈ data.splitOn '\n', line ≠ [] → Accepted m kind line

instance (kind : Kind) (data : Bytes) : Decidable (Valid m kind data) :=
  inferInstanceAs (Decidable (∀ line ∈ _, line ≠ [] → (checkLine m kind line).isSome = true))

/-- The kind whose lines are checked in the same way. -/
def Kind.check : Kind → Kind
  | .ignoreIp => .ip
  | .ignoreRdns => .rdns
  | .ignoreAsn => .asn
  | .ignoreUserAgent => .userAgent
  | .ignoreUri => .uri
  | kind => kind

theorem checkLine_check (kind : Kind) (line : Bytes) :
    checkLine m kind.check line = checkLine m kind line := by
  cases kind <;> rfl

/-- The addresses of a download are accepted without the white space around them: in a zone it
would be part of the address. -/
def trimmed (m : IpModule) (kind : Kind) : Answer → Bool
  | .failed => true
  | .content bytes _ => kind.check ≠ .ip ||
    (acceptedLines m kind bytes).all fun line => (checkLine m kind (strip line)).isSome

/-- A URL is taken from the cache only for a kind that is checked as the one it was stored for. -/
def sameCheck (m : IpModule) (w : Work) : Step → Bool
  | .url url input => url ∈ w.failed ||
    match recent w.cache url input.now with
    | some file => file.kind.check = w.kind.check
    | none => trimmed m w.kind input.answer
  | _ => true

/-! ## Accepted lines -/

theorem removeWord_sublist (a b : Char) (line : Bytes) : (removeWord a b line).Sublist line := by
  fun_induction removeWord a b line with
  | case1 x y line _ ih => exact (ih.trans (List.sublist_cons_self y line)).cons x
  | case2 x y line _ ih => exact ih.cons_cons x
  | case3 line => exact List.Sublist.refl line

theorem removeWord_eq {a b : Char} {line : Bytes} (h : a ∉ line) : removeWord a b line = line := by
  fun_induction removeWord a b line with
  | case1 x y line heq ih => exact absurd (heq.1 ▸ List.mem_cons_self) h
  | case2 x y line _ ih => rw [ih fun hmem => h (List.mem_cons_of_mem x hmem)]
  | case3 line => rfl

theorem mem_of_isNumber {line : Bytes} (h : isNumber line = true) {c : Char} (hc : c ∈ line) :
    c.isDigit = true ∨ c = '\n' := by
  unfold isNumber at h
  simp only [Bool.and_eq_true, List.all_eq_true] at h
  split at h
  next hlast =>
    obtain ⟨front, rfl⟩ := List.getLast?_eq_some_iff.mp hlast
    rw [List.dropLast_concat] at h
    rcases List.mem_append.mp hc with hc | hc
    · exact .inl (h.2 c hc)
    · exact .inr (List.mem_singleton.mp hc)
  next => exact .inl (h.2 c hc)

theorem removeWord_of_isNumber {line : Bytes} (h : isNumber line = true) :
    removeWord 'a' 's' (removeWord 'A' 'S' line) = line := by
  have hletter : ∀ c, c.isDigit = false → c ≠ '\n' → c ∉ line := by
    intro c hdigit hne hmem
    rcases mem_of_isNumber h hmem with hc | hc
    · rw [hc] at hdigit
      cases hdigit
    · exact hne hc
  rw [removeWord_eq (hletter 'A' (by decide) (by decide)),
    removeWord_eq (hletter 'a' (by decide) (by decide))]

theorem eq_of_checkLine_ip {line data : Bytes} (h : checkLine m .ip line = some data) :
    data = line := by
  simp only [checkLine] at h
  split at h
  · exact (Option.some.inj (Option.ite_none_right_eq_some.mp h).2).symm
  · exact (Option.some.inj (Option.ite_none_right_eq_some.mp h).2).symm

/-- What a line gives is a line that is accepted. -/
theorem accepted_of_checkLine {kind : Kind} {line data : Bytes}
    (h : checkLine m kind line = some data) : Accepted m kind data := by
  unfold Accepted
  cases kind with
  | ip | ignoreIp =>
    obtain rfl := eq_of_checkLine_ip h
    rw [h, Option.isSome_some]
  | rdns | ignoreRdns =>
    obtain ⟨⟨hne, hspace⟩, heq⟩ := Option.ite_none_right_eq_some.mp h
    cases heq
    have hspace : ' ' ∉ line.map Char.toLower := by
      intro hmem
      obtain ⟨c, hc, hlower⟩ := List.mem_map.mp hmem
      exact hspace ((toLower_eq_iff (by decide)).mp hlower ▸ hc)
    exact (congrArg Option.isSome (if_pos ⟨by simpa using hne, hspace⟩)).trans rfl
  | asn | ignoreAsn =>
    obtain ⟨hnumber, heq⟩ := Option.ite_none_right_eq_some.mp h
    cases heq
    simp only [checkLine, removeWord_of_isNumber hnumber, if_pos hnumber, Option.isSome_some]
  | userAgent | ignoreUserAgent => rfl
  | uri | ignoreUri =>
    obtain ⟨hhead, heq⟩ := Option.ite_none_right_eq_some.mp h
    cases heq
    simp only [checkLine, if_pos hhead, Option.isSome_some]

theorem newline_notMem {kind : Kind} {line data : Bytes} (hline : '\n' ∉ line)
    (h : checkLine m kind line = some data) : '\n' ∉ data := by
  cases kind with
  | ip | ignoreIp =>
    rw [eq_of_checkLine_ip h]
    exact hline
  | rdns | ignoreRdns =>
    obtain rfl := Option.some.inj (Option.ite_none_right_eq_some.mp h).2
    intro hmem
    obtain ⟨c, hc, hlower⟩ := List.mem_map.mp hmem
    exact hline ((toLower_eq_iff (by decide)).mp hlower ▸ hc)
  | asn | ignoreAsn =>
    obtain rfl := Option.some.inj (Option.ite_none_right_eq_some.mp h).2
    exact fun hmem =>
      hline ((removeWord_sublist _ _ _).subset ((removeWord_sublist _ _ _).subset hmem))
  | userAgent | ignoreUserAgent =>
    obtain rfl := Option.some.inj h
    rw [List.mem_append, List.mem_append, not_or, not_or]
    exact ⟨⟨by decide +kernel, hline⟩, by decide +kernel⟩
  | uri | ignoreUri =>
    obtain rfl := Option.some.inj (Option.ite_none_right_eq_some.mp h).2
    exact hline

theorem strip_sublist (line : Bytes) : (strip line).Sublist line :=
  (List.rdropWhile_prefix _ _).sublist.trans (List.dropWhile_sublist _)

/-- A line that begins with no blank has its beginning when it is stripped. -/
theorem head_strip {line : Bytes} {c : Char} (h : line.head? = some c) (hc : isBlank c = false)
    (hne : strip line ≠ []) : (strip line).head? = some c := by
  obtain ⟨rest, rfl⟩ := List.head?_eq_some_iff.mp h
  obtain ⟨tail, htail⟩ := List.rdropWhile_prefix isBlank ((c :: rest).dropWhile isBlank)
  obtain ⟨c', rest', hstrip⟩ := List.exists_cons_of_ne_nil hne
  rw [show List.rdropWhile isBlank _ = strip (c :: rest) from rfl, hstrip,
    List.dropWhile_cons_of_neg (by simp [hc])] at htail
  rw [hstrip, List.head?_cons, (List.cons.inj htail).1]

theorem strip_eq {line : Bytes} (h : ∀ c ∈ line, isBlank c = false) : strip line = line := by
  have hfront : line.dropWhile isBlank = line :=
    List.dropWhile_eq_self_iff.mpr fun hl => by simp [h _ (List.getElem_mem hl)]
  rw [strip, hfront, List.rdropWhile_eq_self_iff]
  exact fun hl => by simp [h _ (List.getLast_mem hl)]

/-- White space around an accepted line does not matter, for an address aside. -/
theorem accepted_strip {kind : Kind} {line data : Bytes} (hkind : kind.check ≠ .ip)
    (hline : '\n' ∉ line) (h : checkLine m kind line = some data) (hne : strip data ≠ []) :
    Accepted m kind (strip data) := by
  unfold Accepted
  cases kind with
  | ip | ignoreIp => exact absurd rfl hkind
  | rdns | ignoreRdns =>
    have haccepted := accepted_of_checkLine h
    obtain ⟨-, hspace⟩ : data ≠ [] ∧ ' ' ∉ data := by
      by_contra hno
      rw [Accepted, checkLine, if_neg hno] at haccepted
      cases haccepted
    exact (congrArg Option.isSome
      (if_pos ⟨hne, fun hmem => hspace ((strip_sublist data).subset hmem)⟩)).trans rfl
  | asn | ignoreAsn =>
    have hdata := newline_notMem hline h
    have haccepted := accepted_of_checkLine h
    obtain ⟨hnumber, heq⟩ := Option.ite_none_right_eq_some.mp h
    cases heq
    rw [strip_eq fun c hc => ?_]
    · exact haccepted
    · rcases mem_of_isNumber hnumber hc with hdigit | rfl
      · rw [Bool.eq_false_iff]
        intro hblank
        simp only [isBlank, List.mem_cons, List.not_mem_nil, or_false, decide_eq_true_eq] at hblank
        rcases hblank with rfl | rfl | rfl | rfl | rfl | rfl <;> exact absurd hdigit (by decide)
      · exact absurd hc hdata
  | userAgent | ignoreUserAgent => rfl
  | uri | ignoreUri =>
    obtain ⟨hhead, heq⟩ := Option.ite_none_right_eq_some.mp h
    cases heq
    exact (congrArg Option.isSome (if_pos (head_strip hhead (by decide) hne))).trans rfl

theorem cleanLine_subset {kind : Kind} {line line' : Bytes} (h : cleanLine kind line = some line') :
    line' ⊆ line := by
  have hstrip := (strip_sublist line).subset
  unfold cleanLine at h
  simp only at h
  split at h
  · cases h
  · split at h
    · cases h
      exact fun c hc => hstrip ((List.takeWhile_sublist _).subset hc)
    · cases h
      exact hstrip

/-- An accepted line of a download comes from a line that is checked. -/
theorem exists_of_mem_acceptedLines {kind : Kind} {bytes line : Bytes}
    (h : line ∈ acceptedLines m kind bytes) :
    ∃ line', '\n' ∉ line' ∧ checkLine m kind line' = some line := by
  obtain ⟨raw, hraw, hbind⟩ := List.mem_filterMap.mp h
  obtain ⟨line', hclean, hcheck⟩ := Option.bind_eq_some_iff.mp hbind
  refine ⟨line', fun hmem => ?_, hcheck⟩
  have hsep := not_sep_of_mem_splitOnP (List.mem_filter.mp hraw).1 (cleanLine_subset hclean hmem)
  simp at hsep

/-! ## Texts of lines -/

/-- The lines of a text that was written line by line. -/
theorem splitOn_flatMap {lines : List Bytes} (h : ∀ line ∈ lines, '\n' ∉ line) :
    (lines.flatMap fun line => line ++ ['\n']).splitOn '\n' = lines ++ [[]] := by
  induction lines with
  | nil => rfl
  | cons line lines ih =>
    rw [List.flatMap_cons, List.append_assoc, List.singleton_append]
    show List.splitOnP _ _ = _
    rw [List.splitOnP_append_cons _ _ (by simp), List.splitOnP_eq_singleton fun c hc => ?_]
    · exact congrArg (line :: ·) (ih fun l hl => h l (List.mem_cons_of_mem _ hl))
    · rw [beq_eq_false_iff_ne]
      rintro rfl
      exact h line List.mem_cons_self hc

theorem cachedLines_urlFile (url : Url) {lines : List Bytes} (h : ∀ line ∈ lines, '\n' ∉ line) :
    cachedLines (urlFile url lines) = (lines.map strip).filter (· ≠ []) := by
  have hheader : '\n' ∉ "# Downloaded from ".toList ++ url.val := by
    rw [List.mem_append, not_or]
    exact ⟨by decide +kernel, fun hmem => absurd (url.property _ hmem) (by decide)⟩
  have hsplit : (urlFile url lines).splitOn '\n' =
      ("# Downloaded from ".toList ++ url.val) :: (lines ++ [[]]) := by
    have hall := splitOn_flatMap (List.forall_mem_cons.mpr ⟨hheader, h⟩)
    rw [List.flatMap_cons, List.append_assoc, List.singleton_append] at hall
    exact hall
  rw [cachedLines, hsplit, List.drop_one, List.tail_cons, List.map_append, List.filter_append]
  have hlast : ([[]].map strip).filter (· ≠ []) = ([] : List Bytes) := by decide
  rw [hlast, List.append_nil]

theorem mem_addAll {entries lines : List Bytes} {line : Bytes} :
    line ∈ addAll entries lines ↔ line ∈ entries ∨ line ∈ lines := by
  induction lines generalizing entries with
  | nil => simp [addAll]
  | cons l lines ih =>
    show line ∈ addAll (entries.insert l) lines ↔ _
    rw [ih, List.mem_insert_iff, List.mem_cons]
    tauto

theorem intercalate_append {sep : Char} {lines : List Bytes} (h : lines ≠ []) :
    [sep].intercalate lines ++ [sep] = lines.flatMap fun line => line ++ [sep] := by
  induction lines with
  | nil => exact absurd rfl h
  | cons line lines ih =>
    cases lines with
    | nil => simp
    | cons next lines =>
      rw [List.intercalate_cons_cons, List.append_assoc, ih (List.cons_ne_nil _ _),
        List.flatMap_cons (x := line)]

/-- The file of a kind has its entries as lines. -/
theorem valid_listContent {kind : Kind} {entries : List Bytes}
    (h : ∀ line ∈ entries, '\n' ∉ line ∧ Accepted m kind line) :
    Valid m kind (listContent entries) := by
  intro line hline hne
  unfold listContent at hline
  split at hline
  next => exact absurd (List.mem_singleton.mp hline) hne
  next hentries =>
    have hmem : ∀ line, line ∈ sorted entries ↔ line ∈ entries :=
      fun line => (List.perm_insertionSort _ entries).mem_iff
    have hsorted : sorted entries ≠ [] := by
      intro hempty
      obtain ⟨e, es, rfl⟩ := List.exists_cons_of_ne_nil hentries
      have := (hmem e).mpr List.mem_cons_self
      rw [hempty] at this
      cases this
    rw [intercalate_append hsorted, splitOn_flatMap fun l hl => (h l ((hmem l).mp hl)).1] at hline
    rcases List.mem_append.mp hline with hline | hline
    · exact (h line ((hmem line).mp hline)).2
    · exact absurd (List.mem_singleton.mp hline) hne

/-! ## The invariant -/

/-- The file is on the disk or in the database. -/
def InCache (c : Cache) (name : Name) (file : File) : Prop :=
  c.disk name = some file ∨ ∃ t, c.db name = some (file, t)

/-- What the cache holds: texts whose lines are accepted for the kind that they were stored for, and
valid files. -/
structure Sound (m : IpModule) (c : Cache) : Prop where
  urls : ∀ url file, InCache c (.url url) file →
    ∀ line ∈ cachedLines file.data, Accepted m file.kind line
  lists : ∀ service kind file, InCache c (.list service kind) file → Valid m kind file.data

/-- The entries at hand are accepted for their kind. -/
structure Inv (m : IpModule) (w : Work) : Prop where
  sound : Sound m w.cache
  entries : ∀ line ∈ w.entries, '\n' ∉ line ∧ Accepted m w.kind line

theorem Sound.mono {c c' : Cache} (h : Sound m c)
    (hsub : ∀ name file, InCache c' name file → InCache c name file) : Sound m c' :=
  ⟨fun url file hfile => h.urls url file (hsub _ _ hfile),
    fun service kind file hfile => h.lists service kind file (hsub _ _ hfile)⟩

variable {c : Cache}

theorem inCache_store {name name' : Name} {file file' : File} {writes : Writes} {now : Nat}
    (h : InCache (c.store name file writes now) name' file') :
    InCache c name' file' ∨ name' = name ∧ file' = file := by
  unfold Cache.store at h
  split at h
  · by_cases hname : name' = name
    · subst hname
      rcases h with h | ⟨t, h⟩
      · exact .inr ⟨rfl, by simpa using h.symm⟩
      · change (if writes.db = true then _ else c.db) name' = _ at h
        split at h
        · simp only [Function.update_self, Option.some.injEq, Prod.mk.injEq] at h
          exact .inr ⟨rfl, h.1.symm⟩
        · exact .inl (.inr ⟨t, h⟩)
    · rcases h with h | ⟨t, h⟩
      · exact .inl (.inl (by simpa [Function.update_of_ne hname] using h))
      · refine .inl (.inr ⟨t, ?_⟩)
        change (if writes.db = true then _ else c.db) name' = _ at h
        split at h
        · simpa [Function.update_of_ne hname] using h
        · exact h
  · exact .inl h

theorem inCache_restore {r : Name → Restored} {name : Name} {file : File}
    (h : InCache (c.restore r) name file) : InCache c name file := by
  rcases h with h | h
  · simp only [Cache.restore] at h
    split at h
    · exact .inl h
    · obtain ⟨row, hrow, rfl⟩ := Option.map_eq_some_iff.mp h
      exact .inr ⟨row.2, hrow⟩
    · cases h
  · exact .inr h

theorem inCache_delete {name name' : Name} {rowToo : Bool} {file : File}
    (h : InCache (c.delete name rowToo) name' file) : InCache c name' file := by
  have hupdate : ∀ {β : Type} (f : Name → Option β) (b : β),
      Function.update f name none name' = some b → f name' = some b := by
    intro β f b hb
    by_cases hname : name' = name
    · subst hname
      simp at hb
    · rwa [Function.update_of_ne hname] at hb
  unfold Cache.delete at h
  split at h
  · rcases h with h | ⟨t, h⟩
    · exact .inl (hupdate _ _ h)
    · refine .inr ⟨t, ?_⟩
      change (if rowToo = true then _ else c.db) name' = _ at h
      split at h
      · exact hupdate _ _ h
      · exact h
  · exact h

theorem inCache_dropUnused {used rowToo : Url → Bool} {name : Name} {file : File}
    (h : InCache (c.dropUnused used rowToo) name file) : InCache c name file := by
  rcases h with h | ⟨t, h⟩
  · exact .inl (Option.ite_none_left_eq_some.mp h).2
  · exact .inr ⟨t, (Option.ite_none_left_eq_some.mp h).2⟩

theorem inCache_of_recent {url : Url} {now : Nat} {file : File}
    (h : recent c url now = some file) : InCache c (.url url) file := by
  obtain ⟨e, hget, hrecent⟩ := Option.bind_eq_some_iff.mp h
  obtain ⟨-, -, rfl⟩ := Option.map_eq_some_iff.mp hrecent
  unfold Cache.getCache at hget
  split at hget
  next hdisk =>
    cases hget
    exact .inl hdisk
  next =>
    obtain ⟨row, hrow, rfl⟩ := Option.map_eq_some_iff.mp hget
    exact .inr ⟨row.2, hrow⟩

/-! ## Steps -/

theorem accepted_congr {kind kind' : Kind} (h : kind.check = kind'.check) {line : Bytes} :
    Accepted m kind line ↔ Accepted m kind' line := by
  rw [Accepted, Accepted, ← checkLine_check kind, ← checkLine_check kind', h]

theorem newline_notMem_cachedLines {data line : Bytes} (h : line ∈ cachedLines data) :
    '\n' ∉ line := by
  obtain ⟨raw, hraw, rfl⟩ := List.mem_map.mp (List.mem_filter.mp h).1
  intro hmem
  have hsep := not_sep_of_mem_splitOnP (List.mem_of_mem_drop hraw) ((strip_sublist raw).subset hmem)
  simp at hsep

/-- The lines of a download, as entries and from the cache. -/
theorem accepted_of_mem_acceptedLines {kind : Kind} {bytes : Bytes} {complete : Bool}
    (htrimmed : trimmed m kind (.content bytes complete) = true) {line : Bytes}
    (hline : line ∈ acceptedLines m kind bytes) :
    ('\n' ∉ line ∧ Accepted m kind line) ∧ (strip line ≠ [] → Accepted m kind (strip line)) := by
  obtain ⟨line', hnewline, hcheck⟩ := exists_of_mem_acceptedLines hline
  refine ⟨⟨newline_notMem hnewline hcheck, accepted_of_checkLine hcheck⟩, fun hne => ?_⟩
  by_cases hkind : kind.check = .ip
  · simp only [trimmed, hkind, ne_eq, not_true_eq_false, decide_false, Bool.false_or,
      List.all_eq_true] at htrimmed
    exact htrimmed line hline
  · exact accepted_strip hkind hnewline hcheck hne

/-- A URL of the kind at hand. -/
theorem inv_urlStep {w : Work} {url : Url} {input : UrlInput} (h : Inv m w)
    (hok : sameCheck m w (.url url input) = true) : Inv m (urlStep m w url input) := by
  unfold urlStep
  split
  · exact h
  next hfailed =>
    simp only [sameCheck, hfailed, decide_false, Bool.false_or] at hok
    cases hrecent : recent w.cache url input.now with
    | some file =>
      rw [hrecent] at hok
      have hcheck : file.kind.check = w.kind.check := by simpa using hok
      refine ⟨h.sound, fun line hline => ?_⟩
      rcases mem_addAll.mp hline with hline | hline
      · exact h.entries line hline
      · exact ⟨newline_notMem_cachedLines hline, (accepted_congr hcheck).mp
          (h.sound.urls url file (inCache_of_recent hrecent) line hline)⟩
    | none =>
      rw [hrecent] at hok
      cases hanswer : input.answer with
      | failed => exact ⟨h.sound, h.entries⟩
      | content bytes complete =>
        rw [hanswer] at hok
        have hlines := fun line => @accepted_of_mem_acceptedLines m w.kind bytes complete hok line
        have hentries : ∀ line ∈ addAll w.entries (acceptedLines m w.kind bytes),
            '\n' ∉ line ∧ Accepted m w.kind line := by
          intro line hline
          rcases mem_addAll.mp hline with hline | hline
          · exact h.entries line hline
          · exact (hlines line hline).1
        simp only
        split
        · refine ⟨⟨fun url' file hfile line hline => ?_, fun service kind file hfile => ?_⟩, hentries⟩
          · rcases inCache_store hfile with hold | ⟨-, rfl⟩
            · exact h.sound.urls url' file hold line hline
            · rw [cachedLines_urlFile url fun l hl => (hlines l hl).1.1] at hline
              obtain ⟨hmem, hne⟩ := List.mem_filter.mp hline
              obtain ⟨l, hl, rfl⟩ := List.mem_map.mp hmem
              exact (hlines l hl).2 (by simpa using hne)
          · rcases inCache_store hfile with hold | ⟨hname, -⟩
            · exact h.sound.lists service kind file hold
            · cases hname
        · exact ⟨h.sound, hentries⟩

theorem inv_closeStep {w : Work} {writes : Writes} {now : Nat} (h : Inv m w) :
    Inv m (closeStep w writes now) := by
  unfold closeStep
  simp only
  split
  · exact h
  · refine ⟨⟨fun url file hfile => ?_, fun service kind file hfile => ?_⟩, h.entries⟩
    · rcases inCache_store hfile with hold | ⟨hname, -⟩
      · exact h.sound.urls url file hold
      · cases hname
    · rcases inCache_store hfile with hold | ⟨hname, rfl⟩
      · exact h.sound.lists service kind file hold
      · cases hname
        exact valid_listContent h.entries

/-- Every step keeps the cache sound. -/
theorem inv_step {w : Work} {s : Step} (h : Inv m w) (hok : sameCheck m w s = true) :
    Inv m (step m w s) := by
  cases s with
  | start restored => exact ⟨h.sound.mono fun _ _ => inCache_restore, h.entries⟩
  | openKind service kind => exact ⟨h.sound, fun line hline => absurd hline List.not_mem_nil⟩
  | url url input => exact inv_urlStep h hok
  | closeKind writes now => exact inv_closeStep h
  | delete name rowToo => exact ⟨h.sound.mono fun _ _ => inCache_delete, h.entries⟩
  | dropUnused used rowToo => exact ⟨h.sound.mono fun _ _ => inCache_dropUnused, h.entries⟩

theorem inv_start : Inv m .start := by
  refine ⟨⟨fun url file h => ?_, fun service kind file h => ?_⟩, fun line h =>
    absurd h List.not_mem_nil⟩
  all_goals
    rcases h with h | ⟨t, h⟩
    · cases h
    · cases h

/-- After every history in which no URL is taken from the cache for a kind that is checked in another
way, all files of the kinds have valid lines. -/
theorem valid_of_sameCheck (m : IpModule) (history : List RunInput)
    (hok : Run.Meets (step m) (fun w s => sameCheck m w s = true) .start (history.flatMap jobSteps))
    (service : Service) (kind : Kind) (file : File)
    (hfile : InCache (afterRuns m history).cache (.list service kind) file) :
    Valid m kind file.data :=
  (Run.invariant (fun _ _ => inv_step) inv_start hok).sound.lists service kind file hfile

/-! ## Two kinds of one URL -/

/-- Addresses with digits, dots and no more. -/
def dotted : IpModule := ⟨fun _ => false, fun line => line.all fun c => c.isDigit || c = '.'⟩

def listUrl : Url := ⟨"https://lists.example.com/hosts".toList, fun _ hc =>
  Bool.not_eq_true' _ |>.mp (List.all_eq_true.mp (by decide +kernel :
    "https://lists.example.com/hosts".toList.all (!isBlank ·) = true) _ hc)⟩

/-- A run of one service in which the URL is listed for some kinds. -/
def runFor (now : Nat) (listed : Kind → Bool) : RunInput where
  restored _ := .kept
  urls := [("www.example.com".toList, fun kind => if listed kind then [listUrl] else [])]
  input _ _ _ := ⟨.content "bad.example.com\n".toList true, ⟨true, true⟩, now⟩
  writes _ _ := ⟨true, true⟩
  now _ _ := now
  rowToo _ := true
  files := []
  stepsDone := 100

theorem rdns_lists_valid :
    Valid dotted .rdns "bad.example.com\n".toList := by
  have hfile : ∃ file, (afterRuns dotted [runFor 0 (· = .rdns),
      runFor 10 fun kind => kind = .rdns || kind = .ignoreRdns]).cache.disk
        (.list "www.example.com".toList .rdns) = some file ∧
      file.data = "bad.example.com\n".toList := by
    refine ⟨_, rfl, ?_⟩
    decide +kernel
  obtain ⟨file, hdisk, hdata⟩ := hfile
  rw [← hdata]
  exact valid_of_sameCheck dotted [runFor 0 (· = .rdns),
    runFor 10 fun kind => kind = .rdns || kind = .ignoreRdns] (by decide +kernel) _ _ file (.inl hdisk)

/-- A URL that is listed for hosts and for URIs puts hosts into the file of the URIs. -/
theorem uri_list_has_host :
    ∃ file, (afterRuns dotted [runFor 0 fun kind => kind = .rdns || kind = .uri]).cache.disk
        (.list "www.example.com".toList .uri) = some file ∧
      file.data = "bad.example.com\n".toList ∧ ¬ Valid dotted .uri file.data := by
  refine ⟨_, rfl, ?_, ?_⟩
  · decide +kernel
  · decide +kernel

end BunkerWeb.Blacklist
