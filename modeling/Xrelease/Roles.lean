-- Roles (`api/role.rs`): the ladder viewer < operator < admin, and the roles that the groups of
-- a token grant, instance-wide and per organization.
import Xrelease.Table
import Xrelease.Text

namespace xrelease.auth

open text keyed

/-! ## The ladder -/

inductive AppRole where
  | Viewer
  | Operator
  | Admin
deriving DecidableEq

namespace AppRole

/-- Parse a role string; unknown values become `none`. -/
def parse (value : String) : Option AppRole :=
  match lower (trim value) with
  | "viewer" => some Viewer
  | "operator" => some Operator
  | "admin" => some Admin
  | _ => none

/-- Wire / DB value. -/
def as_str : AppRole → String
  | Viewer => "viewer"
  | Operator => "operator"
  | Admin => "admin"

def rank : AppRole → Nat
  | Viewer => 1
  | Operator => 2
  | Admin => 3

/-- Whether this role satisfies a route requiring at least `minimum`. -/
def allows (role minimum : AppRole) : Bool := role.rank ≥ minimum.rank

/-- The higher-privilege of two roles. -/
def max (role other : AppRole) : AppRole := if role.rank ≥ other.rank then role else other

end AppRole

/-! ## Claims -/

/-- `serde_json::Value`. -/
inductive Value where
  | Null
  | Flag (b : Bool)
  | Number (text : String)
  | Str (s : String)
  | Items (items : List Value)
  | Object (fields : List (String × Value))

namespace Value

def get (value : Value) (key : String) : Option Value :=
  match value with
  | Object fields => Table.look key fields
  | _ => none

def as_str : Value → Option String
  | Str s => some s
  | _ => none

def as_bool : Value → Option Bool
  | Flag b => some b
  | _ => none

def as_array : Value → Option (List Value)
  | Items items => some items
  | _ => none

end Value

/-- The value under a path of keys. -/
def descend (value : Value) : List String → Option Value
  | [] => some value
  | key :: rest => (value.get key).bind (fun next => descend next rest)

/-- Read a nested JSON claim (`groups`, `realm_access.roles`, …) as string list. -/
def claim_strings (claims : Value) (path : String) : List String :=
  let keys := ((split (· == '.') path.toList).map String.ofList).filter (· ≠ "")
  match descend claims keys with
  | none => []
  | some current =>
    match current.as_array with
    | some items => (items.filterMap Value.as_str).filter (· ≠ "")
    | none => current.as_str.toList.filter (· ≠ "")

/-! ## What a token's groups grant -/

/-- One instance-wide role plus per-organization grants. -/
structure ResolvedRoles where
  global : AppRole
  per_org : Table String AppRole

/-- The higher of the global role and any grant for the organization. -/
def ResolvedRoles.for_org (roles : ResolvedRoles) (organization : Option String) : AppRole :=
  match organization with
  | none => roles.global
  | some org => ((roles.per_org.get org).map (fun role => role.max roles.global)).getD
      roles.global

/-- Map IdP role/group claim values onto an `AppRole`. -/
def resolve_app_role (claimed admin_aliases operator_aliases viewer_aliases : List String)
    (fallback : AppRole) : AppRole :=
  let normalized := claimed.map lower
  [(AppRole.Admin, admin_aliases), (AppRole.Operator, operator_aliases),
    (AppRole.Viewer, viewer_aliases)].foldl (fun resolved entry =>
      if entry.2.any (fun name => normalized.contains (lower name)) ∧
        entry.1.rank ≥ resolved.rank then entry.1 else resolved) fallback

/-- Map one (bare) alias onto its role, if any list contains it. -/
def role_for_alias (name : String) (admin_aliases operator_aliases viewer_aliases : List String) :
    Option AppRole :=
  let found (aliases : List String) := aliases.any (fun a => lower a = lower (trim name))
  if found admin_aliases then some .Admin
  else if found operator_aliases then some .Operator
  else if found viewer_aliases then some .Viewer
  else none

/-- One group: `{alias}:{org}` grants the alias's role for that organization. -/
def grant (admin_aliases operator_aliases viewer_aliases : List String)
    (per_org : Table String AppRole) (group : String) : Table String AppRole :=
  match split_once ":" group with
  | none => per_org
  | some (name, org) =>
    if trim org = "" then per_org
    else
      match role_for_alias name admin_aliases operator_aliases viewer_aliases with
      | none => per_org
      | some role => per_org.upsert (trim org) role (fun current => current.max role)

def resolve_resolved_roles (claimed admin_aliases operator_aliases viewer_aliases : List String)
    (fallback : AppRole) : ResolvedRoles where
  global := resolve_app_role claimed admin_aliases operator_aliases viewer_aliases fallback
  per_org := claimed.foldl (grant admin_aliases operator_aliases viewer_aliases) Table.empty

end xrelease.auth
