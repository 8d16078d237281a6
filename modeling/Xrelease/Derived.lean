-- The roles that the front end derives from a token (`front/src/lib/auth/jwt.ts`, `oidc.ts`,
-- `roles.ts`) beside those that the server derives from it (`api/role.rs`), and when the two are
-- the same. A payload is a JSON text: which of its characters are escapes counts.
import Xrelease.AuthStore
import Xrelease.Groups

namespace xrelease.derived

open text keyed
open xrelease.auth (AppRole Value claim_strings)
open xrelease.auth_store (AuthConfig RoleMapping ResolvedRoles APP_ROLES PROTO INHERITED entry
  assign js_trim resolve_app_role role_for_alias grant resolve_resolved_roles role_for_organization)
open xrelease.groups (Aliases IsMax Best Names Bare Scoped granted kept_is_max folded_best effective
  effective_is_max)

/-! ## Payloads -/

/-- A character in a string of a JSON text: as it is, or as an escape. -/
inductive Letter where
  | plain (c : Char)
  | escaped (c : Char)
deriving DecidableEq

inductive Wire where
  | Null
  | Flag (b : Bool)
  | Number (text : String)
  | Str (s : List Letter)
  | Items (items : List Wire)
  | Object (fields : List (List Letter × Wire))

/-- The server decodes the bytes as UTF-8. -/
def Letter.utf8 : Letter → List Char
  | plain c => [c]
  | escaped c => [c]

/-- `atob` makes a character of each byte. -/
def Letter.binary : Letter → List Char
  | plain c => (String.utf8EncodeChar c).map (fun b => Char.ofNat b.toNat)
  | escaped c => [c]

def spelled (letter : Letter → List Char) (s : List Letter) : String :=
  String.ofList (s.flatMap letter)

mutual

/-- What a JSON parser makes of the text; of two fields with one name the later one counts. -/
def Wire.read (letter : Letter → List Char) : Wire → Value
  | .Null => .Null
  | .Flag b => .Flag b
  | .Number text => .Number text
  | .Str s => .Str (spelled letter s)
  | .Items items => .Items (read_items letter items)
  | .Object fields => .Object (read_fields letter fields)

def read_items (letter : Letter → List Char) : List Wire → List Value
  | [] => []
  | item :: rest => item.read letter :: read_items letter rest

def read_fields (letter : Letter → List Char) :
    List (List Letter × Wire) → List (String × Value)
  | [] => []
  | (name, value) :: rest => read_fields letter rest ++ [(spelled letter name, value.read letter)]

end

/-! ## The claim in the front end -/

/-- `current[key]`; an array has its indices as keys. What every object inherits holds no texts. -/
def property (current : Value) (key : String) : Option Value :=
  match current with
  | .Object fields => Table.look key fields
  | .Items items => (items.zipIdx.find? (fun entry => decide (toString entry.2 = key))).map (·.1)
  | _ => none

def walk (current : Value) : List String → Option Value
  | [] => some current
  | key :: rest => (property current key).bind (fun next => walk next rest)

def texts : Option Value → List String
  | some (.Items items) => items.filterMap Value.as_str
  | some (.Str s) => [s]
  | _ => []

def read_oidc_roles (role_claim : String) (payloads : List Value) : List String :=
  let keys := (split (· == '.') role_claim.toList).map String.ofList
  (payloads.flatMap (fun payload => texts (walk payload keys))).eraseDups

/-! ## The two roles -/

section
variable (config : AuthConfig)

/-- The role for the organization in the front end. -/
def ui_role (payload : Wire) (role_claim : String) (mapping : RoleMapping) (fallback : AppRole)
    (organization : String) : Option AppRole :=
  role_for_organization
    (resolve_resolved_roles config (read_oidc_roles role_claim [payload.read Letter.binary]) mapping
      fallback) (some organization)

end

/-- The alias lists as the server has them. -/
def aliases (mapping : RoleMapping) : Aliases := ⟨mapping.admin, mapping.operator, mapping.viewer⟩

/-- The role for the organization on the server. -/
def server_role (payload : Wire) (role_claim : String) (mapping : RoleMapping)
    (fallback : AppRole) (organization : String) : AppRole :=
  (xrelease.auth.resolve_resolved_roles (claim_strings (payload.read Letter.utf8) role_claim)
    mapping.admin mapping.operator mapping.viewer fallback).for_org (some organization)

/-! ## What a text of the claim grants in the front end -/

section
variable (config : AuthConfig) (mapping : RoleMapping)

/-- The name is an alias of the role once both are lower-cased. -/
def UiNames (name : String) (role : AppRole) : Prop :=
  ∃ listed ∈ mapping.of role, config.to_lower_case listed = config.to_lower_case name

/-- The group is a name, a colon and the organization, and does not begin with the colon. -/
def UiScopedTo (group name organization : String) : Prop :=
  ∃ before after, split_once ":" group = some (before, after) ∧ before ≠ "" ∧
    js_trim before = name ∧ js_trim after = organization ∧ organization ≠ ""

def UiGranted (organization group : String) (role : AppRole) : Prop :=
  ∃ name, UiScopedTo group name organization ∧ UiNames config mapping name role

def UiBare (claimed : List String) (role : AppRole) : Prop :=
  ∃ group ∈ claimed, UiNames config mapping group role

def UiScoped (claimed : List String) (organization : String) (role : AppRole) : Prop :=
  ∃ group ∈ claimed, UiGranted config mapping organization group role

theorem ui_global_is_max (claimed : List String) (fallback : AppRole) :
    IsMax (fun role => role = fallback ∨ UiBare config mapping claimed role)
      (resolve_app_role config claimed mapping fallback) := by
  have hmax := kept_is_max (fun entry =>
    entry.2.any (fun role => (claimed.map config.to_lower_case).contains
      (config.to_lower_case role)) = true)
    (APP_ROLES.map (fun role => (role, mapping.of role))) fallback
  rw [List.foldl_map] at hmax
  have heq : resolve_app_role config claimed mapping fallback = APP_ROLES.foldl (fun kept role =>
      if (mapping.of role).any (fun listed => (claimed.map config.to_lower_case).contains
        (config.to_lower_case listed)) = true ∧ role.rank ≥ kept.rank then role else kept)
      fallback := by
    unfold resolve_app_role
    simp only [Bool.and_eq_true, decide_eq_true_eq]
  rw [heq]
  refine IsMax.congr hmax (fun role => or_congr Iff.rfl ?_)
  have hmem : role ∈ APP_ROLES := by cases role <;> decide
  unfold UiBare UiNames
  simp only [List.mem_map, List.any_eq_true, List.contains_iff_mem]
  constructor
  · rintro ⟨entry, ⟨other, -, rfl⟩, rfl, listed, hlisted, group, hgroup, hsame⟩
    exact ⟨group, hgroup, listed, hlisted, hsame.symm⟩
  · rintro ⟨group, hgroup, listed, hlisted, hsame⟩
    exact ⟨_, ⟨role, hmem, rfl⟩, rfl, listed, hlisted, group, hgroup, hsame.symm⟩

theorem ui_alias_best (name : String) :
    Best (UiNames config mapping (js_trim name)) (role_for_alias config name mapping) := by
  have hnames : ∀ role, ((mapping.of role).any (fun a =>
      decide (config.to_lower_case a = config.to_lower_case (js_trim name))) = true) ↔
        UiNames config mapping (js_trim name) role := by
    intro role
    unfold UiNames
    simp only [List.any_eq_true, decide_eq_true_eq]
  unfold role_for_alias APP_ROLES
  cases hfound : List.find? (fun role => (mapping.of role).any (fun a =>
      decide (config.to_lower_case a = config.to_lower_case (js_trim name))))
        [AppRole.Admin, .Operator, .Viewer] with
  | none =>
    rw [List.find?_eq_none] at hfound
    exact fun role hrole => hfound role (by cases role <;> decide) ((hnames role).mpr hrole)
  | some best =>
    obtain ⟨hbest, before, after, hlist, hbefore⟩ := List.find?_eq_some_iff_append.mp hfound
    have hsorted : [AppRole.Admin, .Operator, .Viewer].Pairwise (fun a b => b.rank ≤ a.rank) := by
      decide
    rw [hlist, List.pairwise_append, List.pairwise_cons] at hsorted
    have hmax : IsMax (UiNames config mapping (js_trim name)) best := by
      refine ⟨(hnames best).mp hbest, fun other hother => ?_⟩
      have hmem : other ∈ before ++ best :: after := by
        rw [← hlist]
        cases other <;> decide
      rcases List.mem_append.mp hmem with hmem | hmem
      · have hno := hbefore other hmem
        rw [(hnames other).mpr hother] at hno
        exact absurd hno (by decide)
      · rcases List.mem_cons.mp hmem with rfl | hmem
        · exact Nat.le_refl _
        · exact hsorted.2.1.1 other hmem
    exact hmax

theorem get_assign (per_org : Table String AppRole) (key organization : String) (role : AppRole) :
    (assign per_org key role).get organization =
      if organization = key ∧ key ≠ PROTO then some role else per_org.get organization := by
  unfold assign
  by_cases hkey : key = PROTO
  · rw [if_pos hkey, if_neg (fun h => h.2 hkey)]
  · rw [if_neg hkey, Table.get_upsert]
    by_cases horg : organization = key
    · rw [if_pos horg, if_pos ⟨horg, hkey⟩]
      cases per_org.get key <;> rfl
    · rw [if_neg horg, if_neg (fun h => horg h.1)]

/-- What a group with a role in it does to the record. -/
theorem grant_of_split {group name org : String} {role : AppRole}
    (hsplit : split_once ":" group = some (name, org)) (hname : name ≠ "") (horg : js_trim org ≠ "")
    (hrole : role_for_alias config name mapping = some role) (per_org : Table String AppRole) :
    grant config mapping per_org group = assign per_org (js_trim org)
      ((per_org.get (js_trim org)).elim role (fun current => current.max role)) := by
  have hskip : ¬(name = "" ∨ js_trim org = "") := fun h => h.elim hname horg
  unfold grant
  simp only [hsplit, if_neg hskip, hrole]
  unfold entry
  cases per_org.get (js_trim org) with
  | some current => rfl
  | none =>
    simp only [Option.elim_none]
    by_cases hinherited : INHERITED.contains (js_trim org) = true
    · rw [if_pos hinherited]
    · rw [if_neg hinherited]

/-- And what another group does to it. -/
theorem grant_cases (per_org : Table String AppRole) (group : String) :
    grant config mapping per_org group = per_org ∨
      ∃ name org role, split_once ":" group = some (name, org) ∧ name ≠ "" ∧ js_trim org ≠ "" ∧
        role_for_alias config name mapping = some role := by
  unfold grant
  cases hsplit : split_once ":" group with
  | none => exact Or.inl rfl
  | some parts =>
    obtain ⟨name, org⟩ := parts
    simp only
    by_cases hskip : name = "" ∨ js_trim org = ""
    · rw [if_pos hskip]
      exact Or.inl rfl
    · rw [if_neg hskip]
      rw [not_or] at hskip
      cases hrole : role_for_alias config name mapping with
      | none => exact Or.inl rfl
      | some role => exact Or.inr ⟨name, org, role, rfl, hskip.1, hskip.2, hrole⟩

theorem names_of_alias {name : String} {role : AppRole}
    (h : role_for_alias config name mapping = some role) :
    IsMax (UiNames config mapping (js_trim name)) role := by
  have hbest := ui_alias_best config mapping name
  rw [h] at hbest
  exact hbest

variable {organization : String}

theorem ui_grant_elsewhere {group : String}
    (h : ∀ role, ¬UiGranted config mapping organization group role)
    (per_org : Table String AppRole) :
    (grant config mapping per_org group).get organization = per_org.get organization := by
  rcases grant_cases config mapping per_org group with hsame |
    ⟨name, org, role, hsplit, hname, horg, hrole⟩
  · rw [hsame]
  · rw [grant_of_split config mapping hsplit hname horg hrole, get_assign]
    refine if_neg (fun hhere => h role ⟨js_trim name, ?_, (names_of_alias config mapping hrole).1⟩)
    exact ⟨name, org, hsplit, hname, rfl, hhere.1.symm, by rwa [hhere.1]⟩

theorem ui_grant_here {group : String} {role : AppRole} (hproto : organization ≠ PROTO)
    (h : UiGranted config mapping organization group role) (per_org : Table String AppRole) :
    ∃ best, IsMax (UiGranted config mapping organization group) best ∧
      (grant config mapping per_org group).get organization =
        some ((per_org.get organization).elim best (fun current => current.max best)) := by
  obtain ⟨name, ⟨before, after, hsplit, hbefore, rfl, rfl, hne⟩, hnames⟩ := h
  have hbest := ui_alias_best config mapping before
  cases hrole : role_for_alias config before mapping with
  | none =>
    rw [hrole] at hbest
    exact absurd hnames (hbest role)
  | some best =>
    refine ⟨best, ?_, ?_⟩
    · refine (names_of_alias config mapping hrole).congr (fun other => ?_)
      constructor
      · intro hother
        exact ⟨js_trim before, ⟨before, after, hsplit, hbefore, rfl, rfl, hne⟩, hother⟩
      · rintro ⟨name, ⟨before', after', hsplit', -, rfl, -, -⟩, hother⟩
        rw [hsplit] at hsplit'
        simp only [Option.some.injEq, Prod.mk.injEq] at hsplit'
        rwa [hsplit'.1]
    · rw [grant_of_split config mapping hsplit hbefore hne hrole, get_assign,
        if_pos ⟨rfl, hproto⟩]

theorem ui_grants_best (hproto : organization ≠ PROTO) (claimed : List String) :
    Best (UiScoped config mapping claimed organization)
      ((claimed.foldl (grant config mapping) Table.empty).get organization) :=
  folded_best (fun _ h per_org => ui_grant_elsewhere config mapping h per_org)
    (fun _ _ h per_org => ui_grant_here config mapping hproto h per_org) claimed

theorem proto_has_no_entry (claimed : List String) :
    (claimed.foldl (grant config mapping) Table.empty).get PROTO = none := by
  induction claimed using List.reverseRecOn with
  | nil => rfl
  | append_singleton claimed group ih =>
    rw [List.foldl_append, List.foldl_cons, List.foldl_nil]
    rcases grant_cases config mapping (claimed.foldl (grant config mapping) Table.empty) group with
      hsame | ⟨name, org, role, hsplit, hname, horg, hrole⟩
    · rw [hsame, ih]
    · rw [grant_of_split config mapping hsplit hname horg hrole, get_assign,
        if_neg (fun h => h.2 h.1.symm), ih]

/-- The record has a role for the organization, or nothing at all: what is inherited is in the way
of `__proto__`, and of the other names unless a group grants a role for it. -/
def Readable (claimed : List String) (organization : String) : Prop :=
  organization ∈ INHERITED →
    organization ≠ PROTO ∧ ∃ role, UiScoped config mapping claimed organization role

def UiGrants (claimed : List String) (fallback : AppRole) (organization : String)
    (role : AppRole) : Prop :=
  role = fallback ∨ UiBare config mapping claimed role ∨
    UiScoped config mapping claimed organization role

theorem scoped_has_organization {claimed : List String} {role : AppRole}
    (h : UiScoped config mapping claimed organization role) : organization ≠ "" := by
  obtain ⟨group, -, name, ⟨before, after, -, -, -, -, hne⟩, -⟩ := h
  exact hne

theorem ui_role_is_max {claimed : List String}
    (hreadable : Readable config mapping claimed organization) (fallback : AppRole) :
    ∃ role, role_for_organization (resolve_resolved_roles config claimed mapping fallback)
        (some organization) = some role ∧
      IsMax (UiGrants config mapping claimed fallback organization) role := by
  have hglobal := ui_global_is_max config mapping claimed fallback
  have hnone : (∀ role, ¬UiScoped config mapping claimed organization role) →
      IsMax (UiGrants config mapping claimed fallback organization)
        (resolve_app_role config claimed mapping fallback) := by
    intro hno
    refine hglobal.congr (fun role => or_congr Iff.rfl ?_)
    exact ⟨Or.inl, fun h => h.resolve_right (hno role)⟩
  unfold role_for_organization
  dsimp only
  by_cases hempty : organization = ""
  · rw [if_pos hempty]
    exact ⟨_, rfl, hnone (fun role h => scoped_has_organization config mapping h hempty)⟩
  · rw [if_neg hempty]
    have hproto : organization ≠ PROTO := by
      rintro rfl
      exact (hreadable (by decide)).1 rfl
    have hbest := ui_grants_best config mapping hproto claimed
    unfold entry
    cases hget : (claimed.foldl (grant config mapping) Table.empty).get organization with
    | some granted =>
      rw [hget] at hbest
      have hmax : IsMax (UiScoped config mapping claimed organization) granted := hbest
      refine ⟨(resolve_app_role config claimed mapping fallback).max granted, ?_, ?_⟩
      · simp only [resolve_resolved_roles, hget]
      · refine (hglobal.max hmax).congr (fun role => ?_)
        unfold UiGrants
        tauto
    | none =>
      rw [hget] at hbest
      have hno : ∀ role, ¬UiScoped config mapping claimed organization role := hbest
      have hplain : INHERITED.contains organization = false := by
        rw [Bool.eq_false_iff]
        intro hinherited
        obtain ⟨-, role, hrole⟩ := hreadable (by simpa using hinherited)
        exact hno role hrole
      refine ⟨_, ?_, hnone hno⟩
      simp only [resolve_resolved_roles, hget, hplain]
      rfl

theorem no_role_of_inherited {claimed : List String}
    (h : ¬Readable config mapping claimed organization) (fallback : AppRole) :
    role_for_organization (resolve_resolved_roles config claimed mapping fallback)
      (some organization) = none := by
  unfold Readable at h
  rw [Classical.not_imp, not_and] at h
  obtain ⟨hinherited, hno⟩ := h
  have hempty : organization ≠ "" := by
    rintro rfl
    exact absurd hinherited (by decide)
  have hget : (claimed.foldl (grant config mapping) Table.empty).get organization = none := by
    by_cases hproto : organization = PROTO
    · rw [hproto]
      exact proto_has_no_entry config mapping claimed
    · have hbest := ui_grants_best config mapping hproto claimed
      cases hget : (claimed.foldl (grant config mapping) Table.empty).get organization with
      | none => rfl
      | some granted =>
        rw [hget] at hbest
        have hmax : IsMax (UiScoped config mapping claimed organization) granted := hbest
        exact absurd ⟨granted, hmax.1⟩ (hno hproto)
  have hcontains : INHERITED.contains organization = true := by simpa using hinherited
  unfold role_for_organization entry
  dsimp only
  rw [if_neg hempty]
  simp only [resolve_resolved_roles, hget, hcontains]
  rfl

end

/-! ## When the two agree -/

/-- Some of the roles ranks at least as high. -/
def Reaches (roles : AppRole → Prop) (role : AppRole) : Prop :=
  ∃ other, roles other ∧ role.rank ≤ other.rank

theorem reaches_of_max {roles : AppRole → Prop} {best : AppRole} (h : IsMax roles best)
    (role : AppRole) : Reaches roles role ↔ role.rank ≤ best.rank := by
  constructor
  · rintro ⟨other, hother, hle⟩
    exact hle.trans (h.2 other hother)
  · intro hle
    exact ⟨best, h.1, hle⟩

/-- Two highest roles that are at least the fallback are the same when they reach the same roles
above it. -/
theorem max_eq_iff {roles others : AppRole → Prop} {fallback a b : AppRole}
    (ha : IsMax (fun role => role = fallback ∨ roles role) a)
    (hb : IsMax (fun role => role = fallback ∨ others role) b) :
    b = a ↔ ∀ role, fallback.rank < role.rank → (Reaches roles role ↔ Reaches others role) := by
  have hreach : ∀ {roles : AppRole → Prop} {best : AppRole},
      IsMax (fun role => role = fallback ∨ roles role) best → ∀ role, fallback.rank < role.rank →
        (Reaches roles role ↔ role.rank ≤ best.rank) := by
    intro roles best hbest role hrole
    rw [← reaches_of_max hbest]
    constructor
    · rintro ⟨other, hother, hle⟩
      exact ⟨other, Or.inr hother, hle⟩
    · rintro ⟨other, rfl | hother, hle⟩
      · omega
      · exact ⟨other, hother, hle⟩
  constructor
  · rintro rfl role hrole
    rw [hreach ha role hrole, hreach hb role hrole]
  · intro h
    have hle : ∀ {roles others : AppRole → Prop} {a b : AppRole},
        IsMax (fun role => role = fallback ∨ roles role) a →
          IsMax (fun role => role = fallback ∨ others role) b →
            (∀ role, fallback.rank < role.rank → (Reaches roles role ↔ Reaches others role)) →
              a.rank ≤ b.rank := by
      intro roles others a b ha hb h
      by_cases hlow : fallback.rank < a.rank
      · exact (hreach hb a hlow).mp ((h a hlow).mp ((hreach ha a hlow).mpr (Nat.le_refl _)))
      · have hfloor := hb.2 fallback (Or.inl rfl)
        omega
    have hab := hle ha hb h
    have hba := hle hb ha (fun role hrole => (h role hrole).symm)
    exact xrelease.groups.rank_inj (by omega)

/-! ## Where each side looks -/

/-- The field that counts under a name: none after it has that name. -/
def LastField (letter : Letter → List Char) (key : String) (value : Wire) :
    List (List Letter × Wire) → Prop
  | [] => False
  | field :: rest => LastField letter key value rest ∨
      (∀ other ∈ rest, spelled letter other.1 ≠ key) ∧ spelled letter field.1 = key ∧
        field.2 = value

/-- A field of an object; and an item of an array under its index. -/
inductive Field (letter : Letter → List Char) : Wire → String → Wire → Prop
  | named {fields : List (List Letter × Wire)} {key : String} {value : Wire} :
      LastField letter key value fields → Field letter (.Object fields) key value

inductive FieldOrItem (letter : Letter → List Char) : Wire → String → Wire → Prop
  | field {payload value : Wire} {key : String} : Field letter payload key value →
      FieldOrItem letter payload key value
  | item {items : List Wire} {index : Nat} {value : Wire} : items[index]? = some value →
      FieldOrItem letter (.Items items) (toString index) value

/-- Where a path leads. -/
inductive Leads (property : Wire → String → Wire → Prop) : Wire → List String → Wire → Prop
  | here (payload : Wire) : Leads property payload [] payload
  | under {payload value place : Wire} {key : String} {keys : List String} :
      property payload key value → Leads property value keys place →
      Leads property payload (key :: keys) place

/-- The text stands there, alone or in a list. -/
def Holds (place : Wire) (s : List Letter) : Prop :=
  match place with
  | .Str t => t = s
  | .Items items => .Str s ∈ items
  | _ => False

def path_of (role_claim : String) : List String :=
  (split (· == '.') role_claim.toList).map String.ofList

/-- The server finds the text under the claim. It skips the empty parts of the path, and leaves out
empty texts. -/
def ServerHears (payload : Wire) (role_claim : String) (s : List Letter) : Prop :=
  s ≠ [] ∧ ∃ place, Leads (Field Letter.utf8) payload ((path_of role_claim).filter (· ≠ "")) place ∧
    Holds place s

/-- The front end finds the text under the claim. -/
def UiHears (payload : Wire) (role_claim : String) (s : List Letter) : Prop :=
  ∃ place, Leads (FieldOrItem Letter.binary) payload (path_of role_claim) place ∧ Holds place s

section
variable (letter : Letter → List Char)

theorem look_none_iff (fields : List (List Letter × Wire)) (key : String) :
    Table.look key (read_fields letter fields) = none ↔
      ∀ field ∈ fields, spelled letter field.1 ≠ key := by
  induction fields with
  | nil => simp [read_fields, Table.look]
  | cons field rest ih =>
    rw [read_fields, Table.look_append, Option.or_eq_none_iff, ih, List.forall_mem_cons]
    simp [Table.look, and_comm]

theorem look_some_iff (fields : List (List Letter × Wire)) (key : String) (read : Value) :
    Table.look key (read_fields letter fields) = some read ↔
      ∃ value, LastField letter key value fields ∧ value.read letter = read := by
  induction fields with
  | nil => simp [read_fields, Table.look, LastField]
  | cons field rest ih =>
    rw [read_fields, Table.look_append, Option.or_eq_some_iff, ih, look_none_iff]
    simp only [Table.look, LastField]
    constructor
    · rintro (⟨value, hlast, hread⟩ | ⟨hnone, hhere⟩)
      · exact ⟨value, Or.inl hlast, hread⟩
      · by_cases hname : spelled letter field.1 = key
        · rw [if_pos hname] at hhere
          exact ⟨field.2, Or.inr ⟨hnone, hname, rfl⟩, Option.some.inj hhere⟩
        · rw [if_neg hname] at hhere
          cases hhere
    · rintro ⟨value, hlast | ⟨hnone, hname, rfl⟩, hread⟩
      · exact Or.inl ⟨value, hlast, hread⟩
      · exact Or.inr ⟨hnone, by rw [if_pos hname, hread]⟩

theorem read_items_eq (items : List Wire) :
    read_items letter items = items.map (Wire.read letter) := by
  induction items with
  | nil => rfl
  | cons item rest ih => rw [read_items, ih, List.map_cons]

theorem get_iff (payload : Wire) (key : String) (read : Value) :
    (payload.read letter).get key = some read ↔
      ∃ value, Field letter payload key value ∧ value.read letter = read := by
  constructor
  · intro h
    cases payload with
    | Object fields =>
      obtain ⟨value, hlast, hread⟩ := (look_some_iff letter fields key read).mp h
      exact ⟨value, .named hlast, hread⟩
    | _ => cases h
  · rintro ⟨value, ⟨hlast⟩, hread⟩
    exact (look_some_iff letter _ key read).mpr ⟨value, hlast, hread⟩

theorem property_iff (payload : Wire) (key : String) (read : Value) :
    property (payload.read letter) key = some read ↔
      ∃ value, FieldOrItem letter payload key value ∧ value.read letter = read := by
  have hkinds : (∃ items, payload = .Items items) ∨
      property (payload.read letter) key = (payload.read letter).get key ∧
        ∀ value, FieldOrItem letter payload key value ↔ Field letter payload key value := by
    cases payload with
    | Items items => exact Or.inl ⟨items, rfl⟩
    | _ => exact Or.inr ⟨rfl, fun _ => ⟨fun h => by cases h; assumption, .field⟩⟩
  rcases hkinds with ⟨items, rfl⟩ | ⟨hsame, hfield⟩
  · unfold property
    simp only [Wire.read, read_items_eq, Option.map_eq_some_iff]
    constructor
    · rintro ⟨⟨value, index⟩, hfind, rfl⟩
      have hmem := List.mem_zipIdx_iff_getElem?.mp (List.mem_of_find?_eq_some hfind)
      rw [List.getElem?_map, Option.map_eq_some_iff] at hmem
      obtain ⟨item, hitem, hread⟩ := hmem
      have hkey : toString index = key := by simpa using List.find?_some hfind
      exact ⟨item, hkey ▸ .item hitem, hread⟩
    · rintro ⟨value, ⟨⟨⟩⟩ | @⟨_, index, _, hitem⟩, rfl⟩
      have hin : (value.read letter, index) ∈ (items.map (Wire.read letter)).zipIdx :=
        List.mem_zipIdx_iff_getElem?.mpr (by rw [List.getElem?_map, hitem]; rfl)
      cases hfind : (items.map (Wire.read letter)).zipIdx.find?
          (fun entry => decide (toString entry.2 = toString index)) with
      | none => exact absurd (List.find?_eq_none.mp hfind _ hin) (by simp)
      | some entry =>
        obtain ⟨found, other⟩ := entry
        obtain rfl : other = index := toString_inj (by simpa using List.find?_some hfind)
        have hmem := List.mem_zipIdx_iff_getElem?.mp (List.mem_of_find?_eq_some hfind)
        rw [List.getElem?_map, hitem] at hmem
        exact ⟨_, rfl, (Option.some.inj hmem).symm⟩
  · simp only [hsame, hfield, get_iff]

theorem mem_texts_iff (place : Wire) (group : String) :
    group ∈ texts (some (place.read letter)) ↔ ∃ s, Holds place s ∧ spelled letter s = group := by
  cases place with
  | Str t => simp [texts, Wire.read, Holds, eq_comm]
  | Items items =>
    simp only [texts, Wire.read, Holds, read_items_eq, List.mem_filterMap, List.mem_map]
    constructor
    · rintro ⟨read, ⟨item, hitem, rfl⟩, hgroup⟩
      cases item with
      | Str s => exact ⟨s, hitem, Option.some.inj hgroup⟩
      | _ => cases hgroup
    · rintro ⟨s, hs, rfl⟩
      exact ⟨_, ⟨_, hs, rfl⟩, rfl⟩
  | _ => simp [texts, Wire.read, Holds]

/-- What stands under a path, read, where each step reads a property of the payload. -/
theorem leads_iff {property : Wire → String → Wire → Prop} {get : Value → String → Option Value}
    {follow : Value → List String → Option Value} (hnil : ∀ value, follow value [] = some value)
    (hcons : ∀ value key keys,
      follow value (key :: keys) = (get value key).bind fun next => follow next keys)
    (hget : ∀ payload key read, get (Wire.read letter payload) key = some read ↔
      ∃ value, property payload key value ∧ value.read letter = read)
    (keys : List String) (payload : Wire) (read : Value) :
    follow (payload.read letter) keys = some read ↔
      ∃ place, Leads property payload keys place ∧ place.read letter = read := by
  induction keys generalizing payload with
  | nil =>
    rw [hnil]
    constructor
    · intro h
      exact ⟨payload, .here payload, Option.some.inj h⟩
    · rintro ⟨place, ⟨⟩, rfl⟩
      rfl
  | cons key keys ih =>
    rw [hcons, Option.bind_eq_some_iff]
    constructor
    · rintro ⟨next, hnext, hrest⟩
      obtain ⟨value, hproperty, rfl⟩ := (hget payload key next).mp hnext
      obtain ⟨place, hleads, hread⟩ := (ih value).mp hrest
      exact ⟨place, .under hproperty hleads, hread⟩
    · rintro ⟨place, hleads, hread⟩
      cases hleads with
      | under hproperty hleads =>
        exact ⟨_, (hget payload key _).mpr ⟨_, hproperty, rfl⟩, (ih _).mpr ⟨place, hleads, hread⟩⟩

/-- The texts there are the ones that stand where the path leads. -/
theorem mem_followed {property : Wire → String → Wire → Prop} {payload : Wire} {keys : List String}
    {followed : Option Value} (hfind : ∀ read, followed = some read ↔
      ∃ place, Leads property payload keys place ∧ place.read letter = read) (group : String) :
    group ∈ texts followed ↔
      ∃ s, (∃ place, Leads property payload keys place ∧ Holds place s) ∧
        spelled letter s = group := by
  constructor
  · intro hgroup
    cases followed with
    | none => exact absurd hgroup List.not_mem_nil
    | some read =>
      obtain ⟨place, hleads, rfl⟩ := (hfind read).mp rfl
      obtain ⟨s, hs, hspelled⟩ := (mem_texts_iff letter place group).mp hgroup
      exact ⟨s, ⟨place, hleads, hs⟩, hspelled⟩
  · rintro ⟨s, ⟨place, hleads, hs⟩, hspelled⟩
    rw [(hfind _).mpr ⟨place, hleads, rfl⟩]
    exact (mem_texts_iff letter place group).mpr ⟨s, hs, hspelled⟩

end

theorem spelled_eq_empty (s : List Letter) : spelled Letter.utf8 s = "" ↔ s = [] := by
  unfold spelled
  rw [String.ofList_eq_empty_iff, List.flatMap_eq_nil_iff]
  cases s with
  | nil => simp
  | cons letter rest => cases letter <;> simp [Letter.utf8]

/-- The texts of the claim on the server are the ones that it finds. -/
theorem mem_claim_strings (payload : Wire) (role_claim group : String) :
    group ∈ claim_strings (payload.read Letter.utf8) role_claim ↔
      ∃ s, ServerHears payload role_claim s ∧ spelled Letter.utf8 s = group := by
  have htexts : claim_strings (payload.read Letter.utf8) role_claim =
      (texts (xrelease.auth.descend (payload.read Letter.utf8)
        ((path_of role_claim).filter (· ≠ "")))).filter (· ≠ "") := by
    unfold claim_strings path_of
    dsimp only
    cases xrelease.auth.descend (payload.read Letter.utf8) _ with
    | none => rfl
    | some current => cases current <;> rfl
  have hfind := @leads_iff Letter.utf8 _ _ xrelease.auth.descend (fun _ => rfl) (fun _ _ _ => rfl)
    (get_iff Letter.utf8) ((path_of role_claim).filter (· ≠ "")) payload
  rw [htexts, List.mem_filter, decide_eq_true_eq, mem_followed Letter.utf8 hfind]
  constructor
  · rintro ⟨⟨s, hs, rfl⟩, hne⟩
    exact ⟨s, ⟨fun hnil => hne ((spelled_eq_empty s).mpr hnil), hs⟩, rfl⟩
  · rintro ⟨s, ⟨hne, hs⟩, rfl⟩
    exact ⟨⟨s, hs, rfl⟩, fun h => hne ((spelled_eq_empty s).mp h)⟩

/-- The texts of the claim in the front end are the ones that it finds. -/
theorem mem_read_oidc_roles (payload : Wire) (role_claim group : String) :
    group ∈ read_oidc_roles role_claim [payload.read Letter.binary] ↔
      ∃ s, UiHears payload role_claim s ∧ spelled Letter.binary s = group := by
  unfold read_oidc_roles
  rw [List.mem_eraseDups, List.flatMap_singleton]
  change group ∈ texts (walk (payload.read Letter.binary) (path_of role_claim)) ↔ _
  exact mem_followed Letter.binary (@leads_iff Letter.binary _ _ walk (fun _ => rfl)
    (fun _ _ _ => rfl) (property_iff Letter.binary) (path_of role_claim) payload) group

/-! ## What a text grants on either side -/

section
variable (config : AuthConfig) (payload : Wire) (role_claim : String) (mapping : RoleMapping)
  (organization : String)

/-- The server finds the text, which is an alias of the role, or grants it for the organization. -/
def ServerGives (s : List Letter) (role : AppRole) : Prop :=
  ServerHears payload role_claim s ∧
    (Names (aliases mapping) (spelled Letter.utf8 s) role ∨
      granted (aliases mapping) organization (spelled Letter.utf8 s) role)

/-- The front end does. -/
def UiGives (s : List Letter) (role : AppRole) : Prop :=
  UiHears payload role_claim s ∧
    (UiNames config mapping (spelled Letter.binary s) role ∨
      UiGranted config mapping organization (spelled Letter.binary s) role)

theorem server_role_is_max (fallback : AppRole) :
    IsMax (fun role => role = fallback ∨
      ∃ s, ServerGives payload role_claim mapping organization s role)
      (server_role payload role_claim mapping fallback organization) := by
  refine (effective_is_max (aliases mapping) (claim_strings (payload.read Letter.utf8) role_claim)
    fallback (some organization)).congr (fun role => or_congr Iff.rfl ?_)
  simp only [Option.some.injEq, exists_eq_left', Bare, Scoped, ServerGives, mem_claim_strings]
  constructor
  · rintro (⟨_, ⟨s, hs, rfl⟩, hnames⟩ | ⟨_, ⟨s, hs, rfl⟩, hgranted⟩)
    · exact ⟨s, hs, Or.inl hnames⟩
    · exact ⟨s, hs, Or.inr hgranted⟩
  · rintro ⟨s, hs, hnames | hgranted⟩
    · exact Or.inl ⟨_, ⟨s, hs, rfl⟩, hnames⟩
    · exact Or.inr ⟨_, ⟨s, hs, rfl⟩, hgranted⟩

theorem ui_scoped_iff (role : AppRole) :
    UiScoped config mapping (read_oidc_roles role_claim [payload.read Letter.binary])
        organization role ↔
      ∃ s, UiHears payload role_claim s ∧
        UiGranted config mapping organization (spelled Letter.binary s) role := by
  unfold UiScoped
  simp only [mem_read_oidc_roles]
  constructor
  · rintro ⟨_, ⟨s, hs, rfl⟩, hgranted⟩
    exact ⟨s, hs, hgranted⟩
  · rintro ⟨s, hs, hgranted⟩
    exact ⟨_, ⟨s, hs, rfl⟩, hgranted⟩

theorem ui_gives_iff (role : AppRole) :
    UiBare config mapping (read_oidc_roles role_claim [payload.read Letter.binary]) role ∨
        UiScoped config mapping (read_oidc_roles role_claim [payload.read Letter.binary])
          organization role ↔
      ∃ s, UiGives config payload role_claim mapping organization s role := by
  rw [ui_scoped_iff]
  simp only [UiBare, UiGives, mem_read_oidc_roles]
  constructor
  · rintro (⟨_, ⟨s, hs, rfl⟩, hnames⟩ | ⟨s, hs, hgranted⟩)
    · exact ⟨s, hs, Or.inl hnames⟩
    · exact ⟨s, hs, Or.inr hgranted⟩
  · rintro ⟨s, hs, hnames | hgranted⟩
    · exact Or.inl ⟨_, ⟨s, hs, rfl⟩, hnames⟩
    · exact Or.inr ⟨s, hs, hgranted⟩

end

/-! ## The law -/

/-- A character that is the same in both readings. -/
def Letter.Same (letter : Letter) : Prop := ∀ c, letter = .plain c → c.toNat < 128

/-- The name is the alias for the one side's lower case when it is for the other's. -/
def FoldsAlike (config : AuthConfig) (listed name : String) : Prop :=
  config.to_lower_case listed = config.to_lower_case name ↔ lower listed = lower name

/-- The two sides read the text alike: both find it or neither, its letters are the same to both,
both trim the parts around its colon alike, none stands before the colon only where no alias is
empty, and both lower cases tell alike whether it, or its name, is an alias. -/
structure ReadAlike (config : AuthConfig) (payload : Wire) (role_claim : String)
    (mapping : RoleMapping) (s : List Letter) : Prop where
  heard : ServerHears payload role_claim s ↔ UiHears payload role_claim s
  letters : ∀ letter ∈ s, letter.Same
  trimmed : ∀ before after, split_once ":" (spelled Letter.utf8 s) = some (before, after) →
    js_trim before = trim before ∧ js_trim after = trim after
  named : ∀ after, split_once ":" (spelled Letter.utf8 s) = some ("", after) →
    ∀ role, "" ∉ mapping.of role
  folded : ∀ role, ∀ listed ∈ mapping.of role, FoldsAlike config listed (spelled Letter.utf8 s) ∧
    ∀ before after, split_once ":" (spelled Letter.utf8 s) = some (before, after) →
      FoldsAlike config listed (trim before)

theorem binary_of_same {letter : Letter} (h : letter.Same) : letter.binary = letter.utf8 := by
  cases letter with
  | escaped c => rfl
  | plain c =>
    have hc := h c rfl
    have hbyte : (UInt8.ofNat c.toNat).toNat = c.toNat := by
      rw [UInt8.toNat_ofNat']
      omega
    unfold Letter.binary Letter.utf8
    simp only [utf8_ascii hc, List.map_singleton, hbyte, Char.ofNat_toNat]

theorem spelled_of_same {s : List Letter} (h : ∀ letter ∈ s, letter.Same) :
    spelled Letter.binary s = spelled Letter.utf8 s := by
  unfold spelled
  rw [List.flatMap_congr (fun letter hletter => binary_of_same (h letter hletter))]

theorem lower_eq_empty {s : String} (h : lower s = "") : s = "" := by
  have hlist := congrArg String.toList h
  rw [toList_lower] at hlist
  exact String.toList_inj.mp (List.map_eq_nil_iff.mp hlist)

section
variable {config : AuthConfig} {payload : Wire} {role_claim : String} {mapping : RoleMapping}

theorem names_alike {name : String} {role : AppRole}
    (h : ∀ listed ∈ mapping.of role, FoldsAlike config listed name) :
    Names (aliases mapping) name role ↔ UiNames config mapping name role := by
  have hof : (aliases mapping).of role = mapping.of role := by cases role <;> rfl
  unfold Names UiNames
  rw [hof]
  constructor
  · rintro ⟨listed, hlisted, hsame⟩
    exact ⟨listed, hlisted, (h listed hlisted).mpr hsame.symm⟩
  · rintro ⟨listed, hlisted, hsame⟩
    exact ⟨listed, hlisted, ((h listed hlisted).mp hsame).symm⟩

/-- A text that is read alike grants the same on both sides. -/
theorem gives_alike {s : List Letter} (h : ReadAlike config payload role_claim mapping s)
    (organization : String) (role : AppRole) :
    ServerGives payload role_claim mapping organization s role ↔
      UiGives config payload role_claim mapping organization s role := by
  unfold ServerGives UiGives
  rw [spelled_of_same h.letters]
  refine and_congr h.heard (or_congr (names_alike fun listed hl => (h.folded role listed hl).1) ?_)
  have hname : ∀ before after, split_once ":" (spelled Letter.utf8 s) = some (before, after) →
      (Names (aliases mapping) (trim before) role ↔ UiNames config mapping (trim before) role) :=
    fun before after hsplit =>
      names_alike fun listed hl => (h.folded role listed hl).2 before after hsplit
  constructor
  · rintro ⟨_, ⟨before, after, hsplit, rfl, rfl, hne⟩, hnames⟩
    obtain ⟨hbefore, hafter⟩ := h.trimmed before after hsplit
    have hsome : before ≠ "" := by
      rintro rfl
      obtain ⟨listed, hlisted, hsame⟩ := hnames
      have hof : (aliases mapping).of role = mapping.of role := by cases role <;> rfl
      rw [hof, lower_eq_empty hsame.symm] at hlisted
      exact h.named after hsplit role hlisted
    exact ⟨trim before, ⟨before, after, hsplit, hsome, hbefore, hafter, hne⟩,
      (hname before after hsplit).mp hnames⟩
  · rintro ⟨_, ⟨before, after, hsplit, -, rfl, rfl, hne⟩, hnames⟩
    obtain ⟨hbefore, hafter⟩ := h.trimmed before after hsplit
    rw [hbefore] at hnames
    exact ⟨trim before, ⟨before, after, hsplit, rfl, hafter.symm, hne⟩,
      (hname before after hsplit).mpr hnames⟩

end

/-- The front end has a role for the organization: every object inherits no such name, or a text
grants a role for it, and it is not `__proto__`. And each role above the fallback that a text gives
on one side, where the two do not read it alike, is outweighed by what a text gives on the other. -/
structure Outweighed (config : AuthConfig) (payload : Wire) (role_claim : String)
    (mapping : RoleMapping) (fallback : AppRole) (organization : String) : Prop where
  readable : organization ∈ INHERITED → organization ≠ PROTO ∧ ∃ role s,
    UiHears payload role_claim s ∧
      UiGranted config mapping organization (spelled Letter.binary s) role
  server : ∀ s role, ServerGives payload role_claim mapping organization s role →
    fallback.rank < role.rank → ¬ReadAlike config payload role_claim mapping s →
      Reaches (fun best => ∃ t, UiGives config payload role_claim mapping organization t best) role
  ui : ∀ s role, UiGives config payload role_claim mapping organization s role →
    fallback.rank < role.rank → ¬ReadAlike config payload role_claim mapping s →
      Reaches (fun best => ∃ t, ServerGives payload role_claim mapping organization t best) role

/-- The front end and the server derive the same role exactly when the front end has one and the
texts that the two do not read alike are outweighed. -/
theorem roles_agree_iff (config : AuthConfig) (payload : Wire) (role_claim : String)
    (mapping : RoleMapping) (fallback : AppRole) (organization : String) :
    ui_role config payload role_claim mapping fallback organization =
        some (server_role payload role_claim mapping fallback organization) ↔
      Outweighed config payload role_claim mapping fallback organization := by
  have hserver := server_role_is_max payload role_claim mapping organization fallback
  have hscoped : (∃ role, UiScoped config mapping
      (read_oidc_roles role_claim [payload.read Letter.binary]) organization role) ↔
        ∃ role s, UiHears payload role_claim s ∧
          UiGranted config mapping organization (spelled Letter.binary s) role :=
    exists_congr (ui_scoped_iff config payload role_claim mapping organization)
  by_cases hreadable : Readable config mapping
      (read_oidc_roles role_claim [payload.read Letter.binary]) organization
  · obtain ⟨role, hrole, hmax⟩ := ui_role_is_max config mapping hreadable fallback
    have hmax : IsMax (fun role => role = fallback ∨
        ∃ s, UiGives config payload role_claim mapping organization s role) role :=
      hmax.congr fun other => or_congr Iff.rfl
        (ui_gives_iff config payload role_claim mapping organization other)
    unfold ui_role
    rw [hrole, Option.some.injEq, max_eq_iff hserver hmax]
    constructor
    · intro h
      refine ⟨fun hin => ?_, fun s other hs habove _ => ?_, fun s other hs habove _ => ?_⟩
      · exact ⟨(hreadable hin).1, hscoped.mp (hreadable hin).2⟩
      · exact (h other habove).mp ⟨other, ⟨s, hs⟩, Nat.le_refl _⟩
      · exact (h other habove).mpr ⟨other, ⟨s, hs⟩, Nat.le_refl _⟩
    · intro h other habove
      constructor
      · rintro ⟨better, ⟨s, hs⟩, hle⟩
        by_cases halike : ReadAlike config payload role_claim mapping s
        · exact ⟨better, ⟨s, (gives_alike halike organization better).mp hs⟩, hle⟩
        · obtain ⟨best, hbest, hle'⟩ := h.server s better hs (by omega) halike
          exact ⟨best, hbest, hle.trans hle'⟩
      · rintro ⟨better, ⟨s, hs⟩, hle⟩
        by_cases halike : ReadAlike config payload role_claim mapping s
        · exact ⟨better, ⟨s, (gives_alike halike organization better).mpr hs⟩, hle⟩
        · obtain ⟨best, hbest, hle'⟩ := h.ui s better hs (by omega) halike
          exact ⟨best, hbest, hle.trans hle'⟩
  · refine iff_of_false ?_ ?_
    · unfold ui_role
      rw [no_role_of_inherited config mapping hreadable fallback]
      simp
    · intro h
      exact hreadable fun hin => ⟨(h.readable hin).1, hscoped.mpr (h.readable hin).2⟩

/-- An installation whose lower case is that of ASCII. -/
def ascii_config : AuthConfig := ⟨.oidc, .Admin, none, lower⟩

/-- `{"groups":["管理"]}`. -/
def named_payload : Wire :=
  .Object [(['g', 'r', 'o', 'u', 'p', 's'].map Letter.plain,
    .Items [.Str [.plain '管', .plain '理']])]

/-- A group outside of ASCII is an admin of the server and nobody in the front end. -/
theorem a_group_is_read_as_bytes :
    ¬∀ (config : AuthConfig) (payload : Wire) (role_claim : String) (mapping : RoleMapping)
      (fallback : AppRole) (organization : String),
      ui_role config payload role_claim mapping fallback organization =
        some (server_role payload role_claim mapping fallback organization) := by
  intro h
  have hboth := h ascii_config named_payload "groups" ⟨["管理"], [], []⟩ .Viewer "platform"
  exact absurd hboth (by decide +kernel)

end xrelease.derived
