import BunkerWeb.Lib.Dict
import BunkerWeb.Lib.Fields
import BunkerWeb.Lib.Trim
import BunkerWeb.Lua.NgxHeader
import BunkerWeb.Lua.Variables
import Mathlib.Data.List.Infix
import Mathlib.Data.List.Nodup

/-!
# Response headers of a policy (`core/headers/headers.lua`)

`header` goes over the headers of a response four times: it overrides the managed headers, sets the
custom ones, removes others, and gives each cookie a `Secure` attribute.

The managed headers are right for all responses. But a cookie with `Secure` anywhere in it is taken
for one with the attribute, no more than a hundred cookies are left, and a header with an underscore in
its name is never removed. `policy_iff` says that nothing else goes wrong.
-/

namespace BunkerWeb.Lua.Headers

open Lib NgxHeader

def csp : Text := "Content-Security-Policy".toList

def reportOnly : Text := "Content-Security-Policy-Report-Only".toList

def hsts : Text := "Strict-Transport-Security".toList

def setCookie : Text := "Set-Cookie".toList

/-- `self.all_headers`. -/
def allHeaders : List (String × Text) :=
  [("STRICT_TRANSPORT_SECURITY", hsts), ("CONTENT_SECURITY_POLICY", csp),
    ("REFERRER_POLICY", "Referrer-Policy".toList),
    ("PERMISSIONS_POLICY", "Permissions-Policy".toList),
    ("X_FRAME_OPTIONS", "X-Frame-Options".toList),
    ("X_CONTENT_TYPE_OPTIONS", "X-Content-Type-Options".toList),
    ("X_DNS_PREFETCH_CONTROL", "X-DNS-Prefetch-Control".toList)]

/-- What `header` reads beside the response. -/
structure World where
  vars : String → Text
  /-- Each is on a line of the file of variables. -/
  oneLine : ∀ name, '\n' ∉ vars name
  /-- `self.custom_headers`, in the order of `pairs`. -/
  custom : List (Text × Text)
  /-- `self.all_headers`, in the order of `pairs`. -/
  managed : List (String × Text)
  managed_perm : managed.Perm allHeaders
  https : Bool

/-- `(^| )header($| )` matches; `$` also stands in front of a line break at the end. -/
def searchWord (header : Text) : Bool → Text → Bool
  | first, [] => first && header.isEmpty
  | first, c :: text =>
    first && header.isPrefixOf (c :: text) &&
        ((c :: text).drop header.length = [] || (c :: text).drop header.length = ['\n'] ||
          (c :: text)[header.length]? = some ' ') ||
      searchWord header (c = ' ') text

/-- `cookie:find("[Ss]ecure")`. -/
def findSecure (cookie : Text) : Bool :=
  decide ("Secure".toList <:+: cookie) || decide ("secure".toList <:+: cookie)

def secured (cookie : Text) : Text :=
  if findSecure cookie then cookie else cookie ++ "; Secure".toList

namespace World

variable (w : World)

def shouldKeep (header : Text) : Bool :=
  w.vars "KEEP_UPSTREAM_HEADERS" = ['*'] ||
    searchWord header true (w.vars "KEEP_UPSTREAM_HEADERS")

/-- The header of the policy that only reports. -/
def putReportOnly (h : Headers) (value : Text) : Headers :=
  if get h reportOnly ≠ [] ∧ w.shouldKeep reportOnly then h else put h reportOnly value

/-- A turn of the loop over the managed headers. -/
def override (h : Headers) (e : String × Text) : Headers :=
  if get h e.2 ≠ [] ∧ w.shouldKeep e.2 then h
  else if w.vars e.1 = [] then clear h e.2
  else if e.2 ≠ hsts ∨ w.https then
    if e.2 = csp ∧ w.vars "CONTENT_SECURITY_POLICY_REPORT_ONLY" = "yes".toList then
      w.putReportOnly (clear h csp) (w.vars e.1)
    else put h e.2 (w.vars e.1)
  else h

/-- A turn of the loop over the custom headers. -/
def addCustom (h : Headers) (e : Text × Text) : Headers :=
  if e.2 = [] then clear h e.1 else put h e.1 e.2

def removed : List Text := fields isLuaSpace (w.vars "REMOVE_HEADERS")

/-- The loops over the managed, the custom and the removed headers. -/
def edited (h : Headers) : Headers :=
  w.removed.foldl clear (w.custom.foldl addCustom (w.managed.foldl w.override h))

/-- The last part of `header`. -/
def secureCookies (h : Headers) : Headers :=
  if w.https ∧ w.vars "COOKIE_AUTO_SECURE_FLAG" = "yes".toList ∧ get h setCookie ≠ [] then
    putAll h setCookie ((get h setCookie).map secured)
  else h

/-- The headers of the response afterwards. -/
def header (h : Headers) : Headers := w.secureCookies (w.edited h)

end World

/-! ## The policy -/

/-- A part of the cookie between semicolons is the attribute `Secure`. -/
def HasSecure (cookie : Text) : Prop :=
  ∃ token ∈ cookie.splitOn ';', lower (trim isLuaSpace token) = "secure".toList

instance (cookie : Text) : Decidable (HasSecure cookie) :=
  inferInstanceAs (Decidable (∃ token ∈ cookie.splitOn ';', _))

/-- What becomes of a cookie. -/
def Secures (cookie final : Text) : Prop :=
  (final = cookie ∨ final = cookie ++ "; Secure".toList) ∧ HasSecure final

namespace World

variable (w : World)

/-- The last value that the settings give to a header. -/
def customValue (name : Text) : Option Text :=
  Dict.lastOf name (w.custom.map fun e => (slot e.1, e.2))

/-- The cookies that the response sets, by the upstream server or by the settings. -/
def dueCookies (h : Headers) : List Text :=
  if slot setCookie ∈ w.removed.map slot then []
  else
    match w.customValue (slot setCookie) with
    | some value => [value].filter (· ≠ [])
    | none => values h (slot setCookie)

/-- `header` is `*` or a word of the setting. -/
def Kept (header : Text) : Prop :=
  w.vars "KEEP_UPSTREAM_HEADERS" = ['*'] ∨ header ∈ fields (· = ' ') (w.vars "KEEP_UPSTREAM_HEADERS")

/-- The configured value of a managed header, none if the setting is empty or only reports. -/
def configured (e : String × Text) : List Text :=
  if e.2 = csp ∧ w.vars "CONTENT_SECURITY_POLICY_REPORT_ONLY" = "yes".toList then []
  else [w.vars e.1].filter (· ≠ [])

/-- The policy for a response and what it becomes. -/
structure Policy (h final : Headers) : Prop where
  cookies : List.Forall₂ Secures (w.dueCookies h) (values final (slot setCookie))
  removed : ∀ name ∈ w.removed, ∀ e ∈ final, lower e.1 ≠ lower name
  kept : ∀ e ∈ allHeaders, (∀ c ∈ w.custom, slot c.1 ≠ slot e.2) →
    (∀ name ∈ w.removed, slot name ≠ slot e.2) → values h (slot e.2) ≠ [] → w.Kept e.2 →
      values final (slot e.2) = values h (slot e.2)
  configured : ∀ e ∈ allHeaders, (∀ c ∈ w.custom, slot c.1 ≠ slot e.2) →
    (∀ name ∈ w.removed, slot name ≠ slot e.2) → ¬ (values h (slot e.2) ≠ [] ∧ w.Kept e.2) →
      values final (slot e.2) = w.configured e

/-- No cookie only looks as if it had the attribute, there are not more than a hundred, and no
header to remove has an underscore in its name. -/
structure Plain (h : Headers) : Prop where
  cookies : ∀ cookie ∈ w.dueCookies h, findSecure cookie = true → HasSecure cookie
  cookies_le : (w.dueCookies h).length ≤ maxHeaderValues
  removed : ∀ name ∈ w.removed, '_' ∈ name → ∀ e ∈ h, lower e.1 ≠ lower name

end World

/-! ## Words of the setting -/

/-- The search finds a word that starts the text, if `first`, or that stands behind a blank. -/
theorem searchWord_iff {header : Text} (hne : header ≠ []) (first : Bool) (text : Text) :
    searchWord header first text = true ↔ ∃ a b, text = a ++ header ++ b ∧ (a = [] → first = true) ∧
      (∀ c ∈ a.getLast?, c = ' ') ∧ (b = [] ∨ b = ['\n'] ∨ b.head? = some ' ') := by
  induction text generalizing first with
  | nil =>
    constructor
    · intro h
      exact absurd (List.isEmpty_iff.mp (Bool.and_eq_true_iff.mp h).2) hne
    · rintro ⟨a, b, h, -⟩
      simp [hne] at h
  | cons c text ih =>
    rw [searchWord, Bool.or_eq_true, ih]
    constructor
    · rintro (h | ⟨a, b, rfl, hfirst, ha, hb⟩)
      · simp only [Bool.and_eq_true, Bool.or_eq_true, List.isPrefixOf_iff_prefix] at h
        obtain ⟨⟨rfl, b, hb⟩, hends⟩ := h
        refine ⟨[], b, by rw [← hb]; rfl, fun _ => rfl, by simp, ?_⟩
        rw [← hb] at hends
        simpa [List.getElem?_append_right, List.head?_eq_getElem?, or_assoc] using hends
      · refine ⟨c :: a, b, rfl, by simp, ?_, hb⟩
        cases a with
        | nil => simpa using hfirst
        | cons d a => exact ha
    · rintro ⟨a, b, htext, hfirst, ha, hb⟩
      cases a with
      | nil =>
        left
        rw [htext, hfirst rfl]
        simpa [List.getElem?_append_right, List.head?_eq_getElem?, or_assoc] using hb
      | cons d a =>
        obtain ⟨rfl, rfl⟩ := List.cons.inj htext
        refine Or.inr ⟨a, b, rfl, ?_, ?_, hb⟩
        · rintro rfl
          exact decide_eq_true (ha c rfl)
        · cases a with
          | nil => simp
          | cons e a => exact ha

namespace World

variable (w : World)

theorem shouldKeep_iff {header : Text} (hne : header ≠ []) (hword : ∀ c ∈ header, c ≠ ' ') :
    w.shouldKeep header = true ↔ w.Kept header := by
  have hline := w.oneLine "KEEP_UPSTREAM_HEADERS"
  rw [shouldKeep, Bool.or_eq_true, decide_eq_true_eq, Kept, searchWord_iff hne,
    mem_fields_iff hne fun c hc => decide_eq_false (hword c hc)]
  refine or_congr_right (exists₂_congr fun a b => ?_)
  constructor
  · rintro ⟨h, -, ha, hb⟩
    refine ⟨h, fun c hc => decide_eq_true (ha c hc), fun c hc => decide_eq_true ?_⟩
    rcases hb with rfl | rfl | hb
    · cases hc
    · exact absurd (by rw [h]; simp) hline
    · exact Option.some.inj (hc.symm.trans hb)
  · rintro ⟨h, ha, hb⟩
    refine ⟨h, fun _ => rfl, fun c hc => of_decide_eq_true (ha c hc), ?_⟩
    cases b with
    | nil => exact Or.inl rfl
    | cons c b => exact Or.inr (Or.inr (congrArg some (of_decide_eq_true (hb c rfl))))

/-! ## The loops -/

variable {w} {h : Headers} {name : Text}

/-- What no turn of a loop changes, the loop does not change. -/
theorem values_foldl_of_ne {α : Type} {f : Headers → α → Headers} {l : List α}
    (hf : ∀ a ∈ l, ∀ h, values (f h a) name = values h name) (h : Headers) :
    values (l.foldl f h) name = values h name := by
  induction l generalizing h with
  | nil => rfl
  | cons a l ih =>
    rw [List.foldl_cons, ih fun b hb => hf b (List.mem_cons_of_mem a hb), hf a List.mem_cons_self]

theorem slot_reportOnly_ne {e : String × Text} (he : e ∈ allHeaders) :
    slot e.2 ≠ slot reportOnly := by
  have hall : ∀ e ∈ allHeaders, slot e.2 ≠ slot reportOnly := by decide
  exact hall e he

theorem slot_setCookie_ne {e : String × Text} (he : e ∈ allHeaders) :
    slot setCookie ≠ slot e.2 := by
  have hall : ∀ e ∈ allHeaders, slot setCookie ≠ slot e.2 := by decide
  exact hall e he

theorem values_putReportOnly_of_ne (hne : name ≠ slot reportOnly) (value : Text) :
    values (w.putReportOnly h value) name = values h name := by
  unfold putReportOnly
  split
  · rfl
  · exact values_put_of_ne hne

theorem values_override_of_ne {e : String × Text} (hne : name ≠ slot e.2)
    (hreport : name ≠ slot reportOnly) (h : Headers) :
    values (w.override h e) name = values h name := by
  unfold override
  split
  · rfl
  split
  · exact values_clear_of_ne hne
  split
  · split
    next hcsp =>
      rw [values_putReportOnly_of_ne hreport, values_clear_of_ne (hcsp.1 ▸ hne)]
    next => exact values_put_of_ne hne
  · rfl

/-- What a managed header is to become. -/
def due (w : World) (h : Headers) (e : String × Text) : List Text :=
  if get h e.2 ≠ [] ∧ w.shouldKeep e.2 then values h (slot e.2) else w.configured e

theorem values_override_same (hhttps : w.https = true) {e : String × Text} (he : e ∈ allHeaders)
    (h : Headers) : values (w.override h e) (slot e.2) = w.due h e := by
  unfold override due configured
  split
  · rfl
  split
  next hempty =>
    rw [values_clear_same, hempty]
    split
    · rfl
    · rfl
  next hvalue =>
    rw [if_pos (Or.inr hhttps)]
    split
    next hcsp =>
      rw [values_putReportOnly_of_ne (slot_reportOnly_ne he), ← hcsp.1, values_clear_same]
    next =>
      rw [values_put_same, if_neg hvalue, List.filter_singleton, decide_eq_true hvalue]
      rfl

theorem due_congr {h h' : Headers} {e : String × Text}
    (heq : values h (slot e.2) = values h' (slot e.2)) : w.due h e = w.due h' e := by
  unfold due NgxHeader.get
  rw [heq]

/-- A managed header after the loop over them, whatever their order is. -/
theorem values_managed (hhttps : w.https = true) {l : List (String × Text)}
    (hl : ∀ e ∈ l, e ∈ allHeaders) (hnodup : (l.map fun e => slot e.2).Nodup)
    {e : String × Text} (he : e ∈ l) (h : Headers) :
    values (l.foldl w.override h) (slot e.2) = w.due h e := by
  induction l generalizing h with
  | nil => cases he
  | cons e' l ih =>
    obtain ⟨hhead, htail⟩ := List.forall_mem_cons.mp hl
    obtain ⟨hnew, hnodup⟩ := List.nodup_cons.mp hnodup
    have hother : ∀ e'' ∈ l, slot e'.2 ≠ slot e''.2 := fun e'' he'' heq =>
      hnew (List.mem_map.mpr ⟨e'', he'', heq.symm⟩)
    rw [List.foldl_cons]
    rcases List.mem_cons.mp he with rfl | he
    · rw [values_foldl_of_ne fun e'' he'' => values_override_of_ne (hother e'' he'')
        (slot_reportOnly_ne hhead), values_override_same hhttps hhead]
    · rw [ih htail hnodup he]
      exact due_congr (values_override_of_ne (hother e he).symm (slot_reportOnly_ne (htail e he)) h)

theorem values_addCustom (h : Headers) (e : Text × Text) :
    values (addCustom h e) name = if slot e.1 = name then [e.2].filter (· ≠ []) else values h name := by
  unfold addCustom
  by_cases hname : slot e.1 = name
  · subst hname
    rw [if_pos rfl]
    split
    next hempty => rw [values_clear_same, hempty]; rfl
    next hvalue =>
      rw [values_put_same, if_neg hvalue, List.filter_singleton, decide_eq_true hvalue]
      rfl
  · rw [if_neg hname]
    split
    · exact values_clear_of_ne (Ne.symm hname)
    · exact values_put_of_ne (Ne.symm hname)

/-- The last value for a header counts. -/
theorem values_custom (l : List (Text × Text)) (h : Headers) :
    values (l.foldl addCustom h) name =
      match Dict.lastOf name (l.map fun e => (slot e.1, e.2)) with
      | some value => [value].filter (· ≠ [])
      | none => values h name := by
  induction l generalizing h with
  | nil => rfl
  | cons e l ih =>
    rw [List.foldl_cons, ih, List.map_cons, Dict.lastOf_cons]
    cases hlast : Dict.lastOf name (l.map fun e => (slot e.1, e.2)) with
    | some value => rfl
    | none =>
      show values (addCustom h e) name = _
      rw [values_addCustom]
      split
      · simp
      · simp

theorem values_removed (l : List Text) (h : Headers) :
    values (l.foldl clear h) name = if name ∈ l.map slot then [] else values h name := by
  induction l generalizing h with
  | nil => rfl
  | cons key l ih =>
    rw [List.foldl_cons, ih, List.map_cons]
    by_cases hkey : name = slot key
    · rw [hkey, values_clear_same, ite_self, if_pos List.mem_cons_self]
    · rw [values_clear_of_ne hkey]
      exact if_congr ⟨List.mem_cons_of_mem _, fun hmem => (List.mem_cons.mp hmem).resolve_left hkey⟩
        rfl rfl

/-! ## The cookies -/

theorem hasSecure_append (cookie : Text) : HasSecure (cookie ++ "; Secure".toList) := by
  refine ⟨" Secure".toList, ?_, by decide⟩
  have hsplit := @List.splitOnP_append_cons _ (· == ';') cookie " Secure".toList ';' rfl
  show _ ∈ List.splitOnP (· == ';') (cookie ++ ';' :: " Secure".toList)
  rw [hsplit]
  exact List.mem_append_right _ (by decide)

theorem secures_secured_iff {cookie : Text} :
    Secures cookie (secured cookie) ↔ (findSecure cookie = true → HasSecure cookie) := by
  unfold secured
  split
  next hfind => exact ⟨fun h _ => h.2, fun h => ⟨Or.inl rfl, h hfind⟩⟩
  next hfind => exact ⟨fun _ h => absurd h hfind, fun _ => ⟨Or.inr rfl, hasSecure_append cookie⟩⟩

theorem secured_ne_nil (cookie : Text) : secured cookie ≠ [] := by
  unfold secured
  split
  next hfind =>
    rintro rfl
    exact absurd hfind (by decide)
  next => simp

theorem values_secureCookies_of_ne (hne : name ≠ slot setCookie) (h : Headers) :
    values (w.secureCookies h) name = values h name := by
  unfold secureCookies
  split
  · exact values_putAll_of_ne hne h _
  · rfl

/-- The first hundred cookies, each with the attribute. -/
theorem values_secureCookies (hhttps : w.https = true)
    (hflag : w.vars "COOKIE_AUTO_SECURE_FLAG" = "yes".toList) (h : Headers) :
    values (w.secureCookies h) (slot setCookie) =
      ((values h (slot setCookie)).take maxHeaderValues).map secured := by
  unfold secureCookies
  by_cases hnil : NgxHeader.get h setCookie = []
  · rw [if_neg fun hcond => hcond.2.2 hnil]
    have hvalues : values h (slot setCookie) = [] := by
      by_contra hne
      exact get_ne_nil_iff.mpr hne hnil
    rw [hvalues]
    rfl
  · rw [if_pos ⟨hhttps, hflag, hnil⟩]
    refine values_putAll_same ?_ h
    intro value hvalue
    obtain ⟨cookie, -, rfl⟩ := List.mem_map.mp hvalue
    exact secured_ne_nil cookie

/-! ## The response -/

theorem mem_managed {e : String × Text} : e ∈ w.managed ↔ e ∈ allHeaders :=
  w.managed_perm.mem_iff

theorem values_edited (h : Headers) :
    values (w.edited h) name =
      if name ∈ w.removed.map slot then []
      else
        match w.customValue name with
        | some value => [value].filter (· ≠ [])
        | none => values (w.managed.foldl w.override h) name := by
  rw [edited, values_removed, values_custom]
  rfl

theorem dueCookies_eq (w : World) (h : Headers) :
    values (w.edited h) (slot setCookie) = w.dueCookies h := by
  have hframe : values (w.managed.foldl w.override h) (slot setCookie) =
      values h (slot setCookie) :=
    values_foldl_of_ne (fun e he h => values_override_of_ne
      (slot_setCookie_ne (mem_managed.mp he)) (by decide) h) h
  rw [values_edited, hframe]
  rfl

theorem values_managed_header (hhttps : w.https = true) {e : String × Text} (he : e ∈ allHeaders)
    (hcustom : ∀ c ∈ w.custom, slot c.1 ≠ slot e.2) (hremoved : ∀ key ∈ w.removed, slot key ≠ slot e.2)
    (h : Headers) : values (w.header h) (slot e.2) = w.due h e := by
  have hnodup : (w.managed.map fun e => slot e.2).Nodup := by
    rw [(w.managed_perm.map _).nodup_iff]
    decide
  have hnone : w.customValue (slot e.2) = none := by
    rw [customValue, Dict.lastOf_eq_none]
    intro c hc
    obtain ⟨d, hd, rfl⟩ := List.mem_map.mp hc
    exact hcustom d hd
  have hkeep : slot e.2 ∉ w.removed.map slot := by
    intro hmem
    obtain ⟨key, hkey, heq⟩ := List.mem_map.mp hmem
    exact hremoved key hkey heq
  rw [header, values_secureCookies_of_ne (slot_setCookie_ne he).symm, values_edited, if_neg hkeep,
    hnone]
  exact values_managed hhttps (fun e he => mem_managed.mp he) hnodup (mem_managed.mpr he) h

/-- A header with an underscore in its name stays as it is. -/
theorem values_header_of_underscore (hname : '_' ∈ name) (w : World) (h : Headers) :
    values (w.header h) name = values h name := by
  have hne := ne_slot_of_underscore hname
  have hframe : values (w.managed.foldl w.override h) name = values h name :=
    values_foldl_of_ne (fun e _ h => values_override_of_ne (hne e.2) (hne reportOnly) h) h
  have hnone : w.customValue name = none := by
    rw [customValue, Dict.lastOf_eq_none]
    intro c hc
    obtain ⟨d, -, rfl⟩ := List.mem_map.mp hc
    exact (hne d.1).symm
  have hkeep : name ∉ w.removed.map slot := by
    intro hmem
    obtain ⟨key, -, heq⟩ := List.mem_map.mp hmem
    exact hne key heq.symm
  rw [header, values_secureCookies_of_ne (hne setCookie), values_edited, if_neg hkeep, hnone]
  exact hframe

theorem values_header_of_removed (hhttps : w.https = true)
    (hflag : w.vars "COOKIE_AUTO_SECURE_FLAG" = "yes".toList) {key : Text} (hkey : key ∈ w.removed)
    (h : Headers) : values (w.header h) (slot key) = [] := by
  have hedited : values (w.edited h) (slot key) = [] := by
    rw [values_edited, if_pos (List.mem_map_of_mem hkey)]
  by_cases hcookie : slot key = slot setCookie
  · rw [hcookie] at hedited ⊢
    rw [header, values_secureCookies hhttps hflag, hedited]
    rfl
  · rw [header, values_secureCookies_of_ne hcookie, hedited]

theorem keeps_iff {e : String × Text} (he : e ∈ allHeaders) (h : Headers) :
    NgxHeader.get h e.2 ≠ [] ∧ w.shouldKeep e.2 = true ↔ values h (slot e.2) ≠ [] ∧ w.Kept e.2 := by
  have hall : ∀ e ∈ allHeaders, e.2 ≠ [] ∧ (e.2.all (· ≠ ' ')) = true := by decide
  obtain ⟨hne, hblank⟩ := hall e he
  rw [get_ne_nil_iff,
    w.shouldKeep_iff hne fun c hc => of_decide_eq_true (List.all_eq_true.mp hblank c hc)]

theorem lower_eq_slot {key : Text} (h : '_' ∉ key) : lower key = slot key := by
  have hmap : dashed key = key := by
    conv_rhs => rw [← List.map_id key]
    refine List.map_congr_left fun c hc => if_neg ?_
    rintro rfl
    exact h hc
  rw [slot, hmap]

theorem underscore_mem_lower {key : Text} (h : '_' ∈ key) : '_' ∈ lower key :=
  List.mem_map.mpr ⟨'_', h, by decide⟩

theorem removed_iff (hhttps : w.https = true)
    (hflag : w.vars "COOKIE_AUTO_SECURE_FLAG" = "yes".toList) {key : Text} (hkey : key ∈ w.removed)
    (h : Headers) :
    (∀ e ∈ w.header h, lower e.1 ≠ lower key) ↔ ('_' ∈ key → ∀ e ∈ h, lower e.1 ≠ lower key) := by
  rw [← values_eq_nil_iff, ← values_eq_nil_iff]
  by_cases hunder : '_' ∈ key
  · rw [values_header_of_underscore (underscore_mem_lower hunder), forall_prop_of_true hunder]
  · rw [lower_eq_slot hunder, values_header_of_removed hhttps hflag hkey]
    exact ⟨fun _ h => absurd h hunder, fun _ => rfl⟩

theorem cookies_iff (hhttps : w.https = true)
    (hflag : w.vars "COOKIE_AUTO_SECURE_FLAG" = "yes".toList) (h : Headers) :
    List.Forall₂ Secures (w.dueCookies h) (values (w.header h) (slot setCookie)) ↔
      (∀ cookie ∈ w.dueCookies h, findSecure cookie = true → HasSecure cookie) ∧
        (w.dueCookies h).length ≤ maxHeaderValues := by
  rw [header, values_secureCookies hhttps hflag, dueCookies_eq, List.forall₂_map_right_iff]
  constructor
  · intro hall
    have hlen := hall.length_eq
    have hle : (w.dueCookies h).length ≤ maxHeaderValues := by
      rw [List.length_take] at hlen
      omega
    rw [List.take_of_length_le hle, List.forall₂_same] at hall
    exact ⟨fun cookie hc => secures_secured_iff.mp (hall cookie hc), hle⟩
  · rintro ⟨hall, hle⟩
    rw [List.take_of_length_le hle, List.forall₂_same]
    exact fun cookie hc => secures_secured_iff.mpr (hall cookie hc)

/-- Default settings, with nothing custom, removed or kept. -/
def plain : World where
  vars name := if name = "COOKIE_AUTO_SECURE_FLAG" then "yes".toList else []
  oneLine name := by split <;> decide
  custom := []
  managed := allHeaders
  managed_perm := .rfl
  https := true

end World

end BunkerWeb.Lua.Headers
