import BunkerWeb.Keys
import Mathlib.Data.List.Nodup

/-!
# Settings

What a plugin (or `settings.json`) declares about a setting, as the Configurator and the Lua code
read it from the JSON files and the database keeps it in its `Settings` table. The columns that
only the web interface reads are left out.
-/

namespace BunkerWeb

inductive Context where
  | global
  | multisite
  deriving DecidableEq, Repr

inductive SettingType where
  | password
  | text
  | number
  | file
  | check
  | select
  | multiselect
  | multivalue
  deriving DecidableEq, Repr

structure Setting where
  id : String
  pluginId : String
  context : Context
  default : String
  regex : String
  type : SettingType
  /-- The group of a setting that may be numbered. -/
  multiple : Option String
  deriving DecidableEq, Repr

/-- The settings of `settings.json` and of the core, external and pro plugins, in this order. An
identifier names one setting (it is the primary key of the table). -/
structure Catalog where
  targets : List (List Setting)
  nodup : (targets.flatten.map Setting.id).Nodup
  ne_empty : ∀ s ∈ targets.flatten, s.id ≠ ""

namespace Catalog

/-- All settings, as one table. -/
def all (c : Catalog) : List Setting := c.targets.flatten

def find (c : Catalog) (id : String) : Option Setting := c.all.find? (·.id = id)

variable {c : Catalog}

theorem eq_of_id {s s' : Setting} (hs : s ∈ c.all) (hs' : s' ∈ c.all) (h : s.id = s'.id) :
    s = s' := List.inj_on_of_nodup_map c.nodup hs hs' h

theorem find_eq_some {id : String} {s : Setting} :
    c.find id = some s ↔ s ∈ c.all ∧ s.id = id := by
  have hsound : ∀ {s}, c.find id = some s → s ∈ c.all ∧ s.id = id := fun {s} h => by
    have hid := List.find?_some h
    exact ⟨List.mem_of_find?_eq_some h, by simpa using hid⟩
  refine ⟨hsound, ?_⟩
  rintro ⟨hs, rfl⟩
  cases h : c.find s.id with
  | none => exact absurd (List.find?_eq_none.mp h s hs) (by simp)
  | some s' => rw [c.eq_of_id (hsound h).1 hs (hsound h).2]

theorem find_eq_none {id : String} : c.find id = none ↔ ∀ s ∈ c.all, s.id ≠ id := by
  simp [find]

end Catalog

/-! ## Some settings -/

/-- A setting of the gzip plugin. -/
def useGzip : Setting where
  id := "USE_GZIP"
  pluginId := "gzip"
  context := .multisite
  default := "no"
  regex := "^(yes|no)$"
  type := .check
  multiple := none

def serverNameSetting : Setting where
  id := "SERVER_NAME"
  pluginId := "general"
  context := .multisite
  default := "www.example.com"
  regex := ""
  type := .text
  multiple := none

def multisiteSetting : Setting where
  id := "MULTISITE"
  pluginId := "general"
  context := .global
  default := "no"
  regex := "^(yes|no)$"
  type := .check
  multiple := none

/-- A setting that may hold a file, of the plugin for certificates of one's own. -/
def customSslCertData : Setting where
  id := "CUSTOM_SSL_CERT_DATA"
  pluginId := "customcert"
  context := .multisite
  default := ""
  regex := "^.*$"
  type := .file
  multiple := none

def useTemplate : Setting where
  id := "USE_TEMPLATE"
  pluginId := "general"
  context := .multisite
  default := ""
  regex := "^.*$"
  type := .text
  multiple := none

end BunkerWeb
