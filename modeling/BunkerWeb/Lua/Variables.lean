import BunkerWeb.Lib.Dict
import BunkerWeb.Lib.Fields

/-!
# The table of variables (`utils.has_variable`, `utils.has_not_variable`)

`helpers.load_variables` leaves one table under `global` and, if the configuration is multisite, one
under the name of each service. Plugins ask the two functions here whether a variable has a value
somewhere, or another one.

`activation_exact_iff` says when both answer for the services: `has_not_variable` compares the
values of the services with the text `value` and not with what it is asked for.
-/

namespace BunkerWeb.Lua

open Lib

/-- `%s` of a Lua pattern. -/
def isLuaSpace (c : Char) : Bool := c.toNat ∈ [0x09, 0x0A, 0x0B, 0x0C, 0x0D, 0x20]

/-- The words that `text:gmatch("%S+")` goes through. -/
def gmatchWords (text : String) : List String :=
  (fields isLuaSpace text.toList).map String.ofList

/-- What the internal store has under `variables`: a table for each server of a multisite
configuration, whatever else is in it. -/
structure Variables where
  global : Dict String String
  site : String → Option (Dict String String)
  servers : global.lookup "MULTISITE" = some "yes" →
    ∃ names, global.lookup "SERVER_NAME" = some names ∧
      ∀ server ∈ gmatchWords names, (site server).isSome

namespace Variables

variable (vars : Variables)

def multisite : Bool := vars.global.lookup "MULTISITE" == some "yes"

/-- `variables["global"]["SERVER_NAME"]`. -/
def serverName : String := (vars.global.lookup "SERVER_NAME").getD ""

/-- `variables[server][variable]`. -/
def get (server name : String) : Option String :=
  (vars.site server).bind fun table => table.lookup name

/-- `utils.get_variable`, for a request to a server or (`none`) without the site search. -/
def getVariable (server : Option String) (name : String) : Option String :=
  match server with
  | none => vars.global.lookup name
  | some server =>
    if vars.multisite then
      match vars.site server with
      | some table => table.lookup name
      | none => vars.global.lookup name
    else vars.global.lookup name

/-- `utils.has_variable`. -/
def hasVariable (name value : String) : Bool :=
  if vars.multisite then
    if (gmatchWords vars.serverName).any fun server => vars.get server name == some value then
      true
    else if vars.serverName ≠ "" then false
    else vars.global.lookup name == some value
  else vars.global.lookup name == some value

/-- `utils.has_not_variable`. -/
def hasNotVariable (name value : String) : Bool :=
  if vars.multisite then
    -- The value that the services are compared with is the text itself.
    if (gmatchWords vars.serverName).any fun server => vars.get server name != some "value" then
      true
    else if vars.serverName ≠ "" then false
    else vars.global.lookup name != some value
  else vars.global.lookup name != some value

/-! ## The property -/

/-- The configuration has values for each service. -/
def PerService : Prop := vars.multisite = true ∧ vars.serverName ≠ ""

instance : Decidable vars.PerService := inferInstanceAs (Decidable (_ ∧ _))

/-- The values that count: those of the services, or the global one where there are no services. -/
def values (name : String) : List (Option String) :=
  if vars.PerService then (gmatchWords vars.serverName).map fun server => vars.get server name
  else [vars.global.lookup name]

/-- Both functions answer for all values that count. -/
def ActivationExact (name value : String) : Prop :=
  (vars.hasVariable name value = true ↔ ∃ x ∈ vars.values name, x = some value) ∧
    (vars.hasNotVariable name value = true ↔ ∃ x ∈ vars.values name, x ≠ some value)

/-- Some service has another value than this one. -/
def SomeOther (name value : String) : Prop :=
  ∃ server ∈ gmatchWords vars.serverName, vars.get server name ≠ some value

/-- `has_not_variable` is asked for the text `value`, or there are no services, or their values are
not all the one that is asked for, nor all the text `value`. -/
def Told (name value : String) : Prop :=
  vars.PerService → value = "value" ∨ gmatchWords vars.serverName = [] ∨
    (vars.SomeOther name value ∧ vars.SomeOther name "value")

section

variable {vars} {name value : String}

theorem gmatchWords_empty : gmatchWords "" = [] := rfl

theorem hasVariable_iff :
    vars.hasVariable name value = true ↔ ∃ x ∈ vars.values name, x = some value := by
  unfold hasVariable values PerService
  by_cases hm : vars.multisite = true
  · by_cases hs : vars.serverName = ""
    · simp only [hm, hs, gmatchWords_empty, List.any_nil, ne_eq, not_true, and_false, if_true,
        if_false, Bool.false_eq_true, List.mem_singleton, exists_eq_left, beq_iff_eq]
    · simp [hm, hs]
  · simp only [hm, false_and, if_false, Bool.false_eq_true, List.mem_singleton, exists_eq_left,
      beq_iff_eq]

theorem hasNotVariable_global (h : ¬ vars.PerService) :
    vars.hasNotVariable name value = true ↔ ∃ x ∈ vars.values name, x ≠ some value := by
  rw [values, if_neg h]
  unfold hasNotVariable
  by_cases hm : vars.multisite = true
  · have hs : vars.serverName = "" := not_not.mp fun hs => h ⟨hm, hs⟩
    simp [hm, hs, gmatchWords_empty]
  · simp [hm]

theorem hasNotVariable_perService (h : vars.PerService) :
    vars.hasNotVariable name value = true ↔ vars.SomeOther name "value" := by
  simp [hasNotVariable, SomeOther, h.1, h.2]

theorem exists_values_ne (h : vars.PerService) :
    (∃ x ∈ vars.values name, x ≠ some value) ↔ vars.SomeOther name value := by
  simp [values, SomeOther, h]

/-- Services that all have one value do not all have another one. -/
theorem someOther_of_not {value' : String} (hne : value ≠ value')
    (hservices : gmatchWords vars.serverName ≠ []) (h : ¬ vars.SomeOther name value) :
    vars.SomeOther name value' := by
  obtain ⟨server, rest, hservers⟩ := List.exists_cons_of_ne_nil hservices
  have hmem : server ∈ gmatchWords vars.serverName := by
    rw [hservers]
    exact List.mem_cons_self
  have hvalue : vars.get server name = some value := not_not.mp fun hother =>
    h ⟨server, hmem, hother⟩
  exact ⟨server, hmem, fun he => hne (Option.some.inj (hvalue.symm.trans he))⟩

end

/-- **Activation tests.** Both functions answer for all values exactly when the services, if there
are any, have not all the value that is asked for, nor all the text `value`, unless that is what is
asked for. -/
theorem activation_exact_iff (vars : Variables) (name value : String) :
    vars.ActivationExact name value ↔ vars.Told name value := by
  rw [ActivationExact, and_iff_right hasVariable_iff, Told]
  by_cases h : vars.PerService
  · rw [hasNotVariable_perService h, exists_values_ne h, imp_iff_right h]
    constructor
    · intro hiff
      by_cases hvalue : value = "value"
      · exact .inl hvalue
      by_cases hservices : gmatchWords vars.serverName = []
      · exact .inr (.inl hservices)
      by_cases hother : vars.SomeOther name value
      · exact .inr (.inr ⟨hother, hiff.mpr hother⟩)
      · exact absurd (hiff.mp (someOther_of_not hvalue hservices hother)) hother
    · rintro (rfl | hservices | ⟨hother, htext⟩)
      · rfl
      · simp [SomeOther, hservices]
      · exact iff_of_true htext hother
  · exact iff_of_true (hasNotVariable_global h) fun hper => absurd hper h

/-- Two services that both use a plugin. -/
def twoServices : Variables where
  global := Dict.ofItems [("MULTISITE", "yes"), ("SERVER_NAME", "shop blog"),
    ("USE_WHITELIST", "yes")]
  site := fun server =>
    if server ∈ ["shop", "blog"] then some (Dict.ofItems [("USE_WHITELIST", "yes")]) else none
  servers := fun _ => ⟨"shop blog", by decide, by decide⟩

/-- No service has another value, and the code says that one has. -/
theorem all_yes_reported :
    twoServices.hasNotVariable "USE_WHITELIST" "yes" = true ∧
      (∀ x ∈ twoServices.values "USE_WHITELIST", x = some "yes") ∧
      ¬ twoServices.ActivationExact "USE_WHITELIST" "yes" := by
  have hvalues : ∀ x ∈ twoServices.values "USE_WHITELIST", x = some "yes" := by decide
  refine ⟨by decide, hvalues, fun h => ?_⟩
  obtain ⟨x, hx, hne⟩ := h.2.mp (by decide)
  exact hne (hvalues x hx)

end Variables

end BunkerWeb.Lua
