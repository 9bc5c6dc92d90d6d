import BunkerWeb.Attribution
import BunkerWeb.Lib.Lines
import BunkerWeb.Text

/-!
# `variables.env`

The file that carries the configuration from the generator to its readers: `_write_config` of
`Templator.py` writes one `key=value` for each key, the block of `init-lua.conf` that nginx runs
loads it in Lua, and `__load_variables` of `Configurator.py` loads it in Python. The three are
about the text of the file, which is encoded in UTF-8 on both sides.

`read_back_iff` says which configurations both loaders read back.
-/

namespace BunkerWeb.VariablesEnv

open Lib Lib.Lines

abbrev Config := Dict String String

/-! ## `Templator.py` -/

def line (e : String × String) : List Char := e.1.toList ++ '=' :: e.2.toList

/-- `_write_config`. -/
def writeConfig (config : Config) : List Char := (config.items.map line).flatMap fun l => l ++ ['\n']

/-! ## `init-lua.conf` -/

/-- What `io.lines` sees of a file: `fgets` reads up to a line break, and `strlen` then stops at a
null character, so that neither the rest of the line nor its break is seen. -/
def seen : Bool → List Char → List Char
  | _, [] => []
  | true, c :: s => seen (c != '\n') s
  | false, c :: s => if c = '\x00' then seen true s else c :: seen false s

def ioLines (file : List Char) : List (List Char) := splitLines (· == '\n') [] (seen false file)

/-- `line:match("^([^=]+)=(.*)$")`. -/
def matchLine (l : List Char) : Option (String × String) :=
  match splitFirst '=' l with
  | some (c :: k, v) => some (String.ofList (c :: k), String.ofList v)
  | _ => none

/-- `all_variables` of the block. -/
def initByLua (file : List Char) : Config := (∅ : Config).setAll ((ioLines file).filterMap matchLine)

/-! ## `Configurator.py` -/

/-- `read_text` gives every line break of the file as `\n`. -/
def readText : List Char → List Char
  | [] => []
  | '\r' :: '\n' :: s => '\n' :: readText s
  | '\r' :: s => '\n' :: readText s
  | c :: s => c :: readText s

def splitlines (text : List Char) : List (List Char) := splitLines lineBoundary [] text

/-- The item of a line that the comprehension of `__load_variables` keeps. -/
def loadLine (l : List Char) : Option (String × String) :=
  if stripChars l ≠ [] ∧ (stripChars l).head? ≠ some '#' ∧ '=' ∈ l then
    (splitFirst '=' (stripChars l)).map fun (k, v) => (String.ofList k, String.ofList v)
  else none

/-- `__load_variables`. -/
def loadVariables (file : List Char) : Config :=
  (∅ : Config).setAll ((splitlines (readText file)).filterMap loadLine)

/-! ## What the file can carry -/

/-- The items that `init_by_lua` reads back. -/
structure LuaReadable (e : String × String) : Prop where
  key_ne_empty : e.1.toList ≠ []
  key_no_separator : '=' ∉ e.1.toList
  one_line : ∀ c ∈ line e, c ≠ '\n' ∧ c ≠ '\x00'

/-- The items that the Configurator reads back. -/
structure PythonReadable (e : String × String) : Prop where
  key_no_separator : '=' ∉ e.1.toList
  one_line : ∀ c ∈ line e, lineBoundary c = false
  key_start : ∀ c ∈ e.1.toList.head?, isSpace c = false ∧ c ≠ '#'
  value_end : ∀ c ∈ e.2.toList.getLast?, isSpace c = false

/-! ## The Lua loader -/

theorem seen_of_notMem {s : List Char} (h : '\x00' ∉ s) : seen false s = s := by
  induction s with
  | nil => rfl
  | cons c s ih =>
    have hc : c ≠ '\x00' := fun he => h (he ▸ List.mem_cons_self)
    rw [seen, if_neg hc, ih fun hmem => h (List.mem_cons_of_mem _ hmem)]

theorem ne_null_of_mem_seen {b : Bool} {s : List Char} : ∀ c ∈ seen b s, c ≠ '\x00' := by
  induction s generalizing b with
  | nil => cases b <;> simp [seen]
  | cons d s ih =>
    cases b with
    | true => exact ih
    | false =>
      rw [seen]
      split
      · exact ih
      · rename_i hd
        exact List.forall_mem_cons.mpr ⟨hd, ih⟩

theorem matchLine_eq_some {l : List Char} {e : String × String} :
    matchLine l = some e ↔ l = line e ∧ e.1.toList ≠ [] ∧ '=' ∉ e.1.toList := by
  obtain ⟨k, v⟩ := e
  have hsplit := @splitFirst_eq_some _ _ '=' l k.toList v.toList
  unfold matchLine line
  dsimp only
  constructor
  · split
    · rename_i c k' v' h
      rintro heq
      cases heq
      obtain ⟨hl, hk⟩ := splitFirst_eq_some.mp h
      simpa using ⟨hl, by simpa using hk⟩
    · rintro ⟨⟩
  · rintro ⟨hl, hne, hk⟩
    obtain ⟨c, k', hkeq⟩ := List.exists_cons_of_ne_nil hne
    rw [hsplit.mpr ⟨hl, hk⟩, hkeq]
    dsimp only
    rw [← hkeq, String.ofList_toList, String.ofList_toList]

theorem mem_writeConfig {config : Config} {c : Char} (h : c ∈ writeConfig config) :
    c = '\n' ∨ ∃ e ∈ config.items, c ∈ line e := by
  obtain ⟨l, hl, hc⟩ := List.mem_flatMap.mp h
  obtain ⟨e, he, rfl⟩ := List.mem_map.mp hl
  rcases List.mem_append.mp hc with hc | hc
  · exact .inr ⟨e, he, hc⟩
  · exact .inl (List.mem_singleton.mp hc)

theorem init_by_lua_iff (config : Config) :
    (∀ k, (initByLua (writeConfig config)).lookup k = config.lookup k) ↔
      ∀ e ∈ config.items, LuaReadable e := by
  refine load_write_iff (fun hgood => ?_) fun e he => ?_
  · have hseen : seen false (writeConfig config) = writeConfig config := by
      refine seen_of_notMem fun hmem => ?_
      rcases mem_writeConfig hmem with hc | ⟨e, he, hc⟩
      · exact absurd hc (by decide)
      · exact ((hgood e he).one_line _ hc).2 rfl
    rw [ioLines, hseen]
    exact parse_lines (by rfl)
      (fun e he c hc => beq_eq_false_iff_ne.mpr ((hgood e he).one_line c hc).1)
      fun e he => matchLine_eq_some.mpr
        ⟨rfl, (hgood e he).key_ne_empty, (hgood e he).key_no_separator⟩
  · obtain ⟨l, hl, hmatch⟩ := List.mem_filterMap.mp he
    obtain ⟨rfl, hne, hk⟩ := matchLine_eq_some.mp hmatch
    refine ⟨hne, hk, fun c hc => ?_⟩
    obtain ⟨hbreak, hmem⟩ := mem_of_mem_splitLines hl (by simp) c hc
    exact ⟨beq_eq_false_iff_ne.mp hbreak, ne_null_of_mem_seen c (hmem.resolve_left (by simp))⟩

/-! ## The Python loader -/

theorem readText_of_notMem {s : List Char} (h : '\r' ∉ s) : readText s = s := by
  induction s with
  | nil => rfl
  | cons c s ih =>
    have hc : c ≠ '\r' := fun he => h (he ▸ List.mem_cons_self)
    rw [readText, ih fun hmem => h (List.mem_cons_of_mem _ hmem)]
    · rintro s' rfl
      exact absurd rfl hc
    · rintro rfl
      exact absurd rfl hc

theorem head?_line (e : String × String) :
    (line e).head? = e.1.toList.head?.or (some '=') := by
  rw [line, List.head?_append, List.head?_cons]

theorem getLast?_line (e : String × String) :
    (line e).getLast? = e.2.toList.getLast?.or (some '=') := by
  rw [line, List.getLast?_append, List.getLast?_cons]
  cases e.2.toList.getLast? <;> rfl

theorem loadLine_eq_some {l : List Char} {e : String × String} :
    loadLine l = some e ↔
      stripChars l = line e ∧ e.1.toList.head? ≠ some '#' ∧ '=' ∉ e.1.toList := by
  obtain ⟨k, v⟩ := e
  unfold loadLine
  constructor
  · intro h
    split at h
    · rename_i hkept
      obtain ⟨⟨k, v⟩, hsplit, heq⟩ := Option.map_eq_some_iff.mp h
      cases heq
      obtain ⟨hl, hk⟩ := splitFirst_eq_some.mp hsplit
      have hline : stripChars l = line (String.ofList k, String.ofList v) := by simpa [line] using hl
      refine ⟨hline, fun hhead => hkept.2.1 ?_, by simpa using hk⟩
      rw [hline, head?_line, hhead]
      rfl
    · cases h
  · rintro ⟨hl, hcomment, hk⟩
    have hmem : '=' ∈ stripChars l := by simp [hl, line]
    have hhead : (stripChars l).head? ≠ some '#' := by
      rw [hl, head?_line]
      cases hc : k.toList.head? with
      | none => simp
      | some c => simpa [hc] using hcomment
    rw [if_pos ⟨List.ne_nil_of_mem hmem, hhead, mem_of_mem_stripChars hmem⟩,
      splitFirst_eq_some.mpr ⟨hl, hk⟩]
    simp

theorem load_variables_iff (config : Config) :
    (∀ k, (loadVariables (writeConfig config)).lookup k = config.lookup k) ↔
      ∀ e ∈ config.items, PythonReadable e := by
  refine load_write_iff (fun hgood => ?_) fun e he => ?_
  · have hread : readText (writeConfig config) = writeConfig config := by
      refine readText_of_notMem fun hmem => ?_
      rcases mem_writeConfig hmem with hc | ⟨e, he, hc⟩
      · exact absurd hc (by decide)
      · exact absurd ((hgood e he).one_line _ hc) (by decide)
    rw [splitlines, hread]
    refine parse_lines (by rfl) (fun e he => (hgood e he).one_line) fun e he => ?_
    have he := hgood e he
    refine loadLine_eq_some.mpr ⟨stripChars_eq_self (fun c hc => ?_) fun c hc => ?_,
      fun hc => (he.key_start _ hc).2 rfl, he.key_no_separator⟩
    · rw [head?_line] at hc
      cases hk : e.1.toList.head? with
      | none => rw [hk] at hc; cases hc; rfl
      | some d => rw [hk] at hc; cases hc; exact (he.key_start _ hk).1
    · rw [getLast?_line] at hc
      cases hv : e.2.toList.getLast? with
      | none => rw [hv] at hc; cases hc; rfl
      | some d => rw [hv] at hc; cases hc; exact he.value_end _ hv
  · obtain ⟨l, hl, hload⟩ := List.mem_filterMap.mp he
    obtain ⟨hstrip, hcomment, hk⟩ := loadLine_eq_some.mp hload
    refine ⟨hk, fun c hc => ?_, fun c hc => ⟨?_, ?_⟩, fun c hc => ?_⟩
    · rw [← hstrip] at hc
      exact (mem_of_mem_splitLines hl (by simp) c (mem_of_mem_stripChars hc)).1
    · refine head_stripChars (l := l) c ?_
      rw [hstrip, head?_line, hc]
      rfl
    · rintro rfl
      exact hcomment hc
    · refine getLast_stripChars (l := l) c ?_
      rw [hstrip, getLast?_line, hc]
      rfl

/-! ## Both loaders -/

/-- Each loader gives the dictionary that was written. -/
def ReadBack (config : Config) : Prop :=
  (∀ k, (initByLua (writeConfig config)).lookup k = config.lookup k) ∧
    ∀ k, (loadVariables (writeConfig config)).lookup k = config.lookup k

/-- **Round trip.** Every dictionary is read back from its file if and only if the file can carry
each of its items. -/
theorem read_back_iff (config : Config) :
    ReadBack config ↔ ∀ e ∈ config.items, LuaReadable e ∧ PythonReadable e := by
  rw [ReadBack, init_by_lua_iff, load_variables_iff]
  exact ⟨fun h e he => ⟨h.1 e he, h.2 e he⟩,
    fun h => ⟨fun e he => (h e he).1, fun e he => (h e he).2⟩⟩

/-- The dictionaries whose variables pass `__check_var`. -/
def Accepted (accepts : Setting → String → Bool) (c : Catalog) (servers : List String)
    (config : Config) : Prop :=
  ∀ e ∈ config.items, (checkVar accepts c servers e.1 e.2).1 = true

/-- The search for `^.*$`, in which the dot stands for a line break too if the setting is a file. -/
def anyText (s : Setting) (value : String) : Bool :=
  s.type = .file || !value.toList.dropLast.contains '\n'

def certificateCatalog : Catalog := ⟨[[customSslCertData, useGzip]], by decide, by decide⟩

/-- A text of several lines for a setting that takes a file. -/
def certificate : Config :=
  Dict.ofItems [("CUSTOM_SSL_CERT_DATA", "-----BEGIN CERTIFICATE-----\nUSE_GZIP=yes")]

/-- The setting is cut off at its first line, and its second line sets another setting. -/
theorem file_setting_cut_off :
    Accepted anyText certificateCatalog [] certificate ∧
      (initByLua (writeConfig certificate)).lookup "CUSTOM_SSL_CERT_DATA" =
        some "-----BEGIN CERTIFICATE-----" ∧
      (initByLua (writeConfig certificate)).lookup "USE_GZIP" = some "yes" ∧
      (loadVariables (writeConfig certificate)).lookup "USE_GZIP" = some "yes" ∧
      ¬ ReadBack certificate := by
  refine ⟨by unfold Accepted; decide, by decide, by decide, by decide, fun h => ?_⟩
  exact absurd (h.1 "USE_GZIP") (by decide)

end BunkerWeb.VariablesEnv
