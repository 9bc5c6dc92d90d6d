import BunkerWeb.Lib.Table
import BunkerWeb.Settings
import Mathlib.Data.List.Dedup

/-!
# The tables (`db/model.py`)

A table whose rows are read by their key is a dictionary, which holds its unique constraint; the
others are lists. `NULL` in a text column is the empty text, since every reader turns it into that.
Columns that neither `save_config` nor `get_config` reads (dates, checksums, contents of files) are
left out, and so is the integer identity of a row.
-/

namespace BunkerWeb.Db

open Lib

/-- `METHODS_ENUM`: who owns a row. -/
inductive Method where
  | api
  | ui
  | scheduler
  | autoconf
  | manual
  | wizard
  deriving DecidableEq, Repr

/-- `ui` and `api` are interchangeable. -/
def Method.isUi (m : Method) : Bool := m == .ui || m == .api

/-- The columns of a row of `Global_values` or `Services_settings` beside its key. -/
structure Cell where
  value : String
  fileName : String
  method : Method
  deriving DecidableEq, Repr

/-- The columns of a row of `Services` beside its id. -/
structure Service where
  method : Method
  isDraft : Bool
  deriving DecidableEq, Repr

structure CustomConfig where
  serviceId : Option String
  type : String
  name : String
  isDraft : Bool
  deriving DecidableEq, Repr

structure JobCache where
  jobName : String
  serviceId : Option String
  fileName : String
  deriving DecidableEq, Repr

/-- A row of `Template_settings`; the table is in the order of its `order` column. -/
structure TemplateSetting where
  templateId : String
  settingId : String
  suffix : Nat
  default : String
  deriving DecidableEq, Repr

structure Metadata where
  firstConfigSaved : Bool
  customConfigsChanged : Bool
  deriving DecidableEq, Repr

/-- The key of a row of `Global_values`: setting and suffix. -/
abbrev GlobalKey := String × Nat

/-- The key of a row of `Services_settings`: service, setting and suffix. -/
abbrev ServiceKey := String × String × Nat

structure Database where
  settings : Catalog
  templateSettings : List TemplateSetting
  globalValues : Dict GlobalKey Cell
  services : Dict String Service
  servicesSettings : Dict ServiceKey Cell
  customConfigs : List CustomConfig
  jobsCache : List JobCache
  /-- The plugins with their `config_changed`. -/
  plugins : List (String × Bool)
  metadata : Option Metadata

/-- `_methods_are_compatible` for two methods that are there. -/
def methodsAreCompatible (new current : Method) (allowSchedulerOverride : Bool) : Bool :=
  if new = .autoconf then true
  else if current = .autoconf then false
  else if new.isUi && current.isUi then true
  else if new = .scheduler ∧ current.isUi then allowSchedulerOverride
  else new == current

@[simp] theorem methodsAreCompatible_self (m : Method) (allow : Bool) :
    methodsAreCompatible m m allow = true := by
  cases m <;> rfl

@[simp] theorem methodsAreCompatible_autoconf (m : Method) (allow : Bool) :
    methodsAreCompatible .autoconf m allow = true := rfl

/-- An override only ever allows more. -/
theorem methodsAreCompatible_mono {new current : Method} {allow : Bool}
    (h : methodsAreCompatible new current false = true) :
    methodsAreCompatible new current allow = true := by
  cases allow with
  | false => exact h
  | true => cases new <;> cases current <;> first | rfl | exact h

end BunkerWeb.Db
