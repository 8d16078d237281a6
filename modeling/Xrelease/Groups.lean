-- What the groups of a token grant (`api/role.rs`): the effective role for an organization is the
-- highest of the fallback, of the groups that are an alias and of the groups that name an alias
-- before their first colon and the organization after it.
import Xrelease.Places
import Xrelease.Roles

namespace xrelease.groups

open xrelease.auth text keyed

/-! ## The highest of some roles -/

/-- The role is one of them, and none of them ranks above it. -/
def IsMax (roles : AppRole → Prop) (role : AppRole) : Prop :=
  roles role ∧ ∀ other, roles other → other.rank ≤ role.rank

/-- The highest of some roles, if there is any. -/
def Best (roles : AppRole → Prop) : Option AppRole → Prop
  | none => ∀ role, ¬roles role
  | some best => IsMax roles best

theorem rank_max (a b : AppRole) : (a.max b).rank = max a.rank b.rank := by
  unfold AppRole.max
  split
  · omega
  · omega

theorem max_cases (a b : AppRole) : a.max b = a ∨ a.max b = b := by
  unfold AppRole.max
  split
  · exact Or.inl rfl
  · exact Or.inr rfl

theorem rank_inj {a b : AppRole} (h : a.rank = b.rank) : a = b := by
  cases a <;> cases b <;> simp_all [AppRole.rank]

variable {roles : AppRole → Prop}

theorem IsMax.unique {a b : AppRole} (ha : IsMax roles a) (hb : IsMax roles b) : a = b := by
  have hle := hb.2 a ha.1
  have hge := ha.2 b hb.1
  apply rank_inj
  omega

theorem IsMax.congr {others : AppRole → Prop} {a : AppRole} (h : IsMax roles a)
    (heq : ∀ role, roles role ↔ others role) : IsMax others a :=
  ⟨(heq a).mp h.1, fun other hother => h.2 other ((heq other).mpr hother)⟩

theorem IsMax.mono {others : AppRole → Prop} {a b : AppRole} (ha : IsMax roles a)
    (hb : IsMax others b) (hsub : ∀ role, roles role → others role) : a.rank ≤ b.rank :=
  hb.2 a (hsub a ha.1)

theorem IsMax.max {others : AppRole → Prop} {a b : AppRole} (ha : IsMax roles a)
    (hb : IsMax others b) : IsMax (fun role => roles role ∨ others role) (a.max b) := by
  constructor
  · rcases max_cases a b with h | h
    · rw [h]
      exact Or.inl ha.1
    · rw [h]
      exact Or.inr hb.1
  · rintro other (hother | hother)
    · have := ha.2 other hother
      rw [rank_max]
      omega
    · have := hb.2 other hother
      rw [rank_max]
      omega

/-! ## The aliases -/

/-- The alias lists, by the role they map to. -/
structure Aliases where
  admin : List String
  operator : List String
  viewer : List String

def Aliases.of (aliases : Aliases) : AppRole → List String
  | .Admin => aliases.admin
  | .Operator => aliases.operator
  | .Viewer => aliases.viewer

/-- The name is an alias of the role, whatever its case. -/
def Names (aliases : Aliases) (name : String) (role : AppRole) : Prop :=
  ∃ listed ∈ aliases.of role, lower name = lower listed

/-- Some group is an alias of the role. -/
def Bare (aliases : Aliases) (claimed : List String) (role : AppRole) : Prop :=
  ∃ group ∈ claimed, Names aliases group role

/-- The group is a name, a colon and the organization; the spaces around both do not count, nor
does a group without an organization. -/
def ScopedTo (group name organization : String) : Prop :=
  ∃ before after, split_once ":" group = some (before, after) ∧ trim before = name ∧
    trim after = organization ∧ organization ≠ ""

/-- Some group is scoped to the organization by an alias of the role. -/
def Scoped (aliases : Aliases) (claimed : List String) (organization : String) (role : AppRole) :
    Prop :=
  ∃ group ∈ claimed, ∃ name, ScopedTo group name organization ∧ Names aliases name role

def resolved (aliases : Aliases) (claimed : List String) (fallback : AppRole) : ResolvedRoles :=
  resolve_resolved_roles claimed aliases.admin aliases.operator aliases.viewer fallback

/-! ## The instance-wide role -/

/-- The loop over the lists, from the highest role down, keeps the highest matched one. -/
theorem kept_is_max (matched : AppRole × List String → Prop) [DecidablePred matched]
    (entries : List (AppRole × List String)) (start : AppRole) :
    IsMax (fun role => role = start ∨ ∃ entry ∈ entries, entry.1 = role ∧ matched entry)
      (entries.foldl (fun kept entry =>
        if matched entry ∧ entry.1.rank ≥ kept.rank then entry.1 else kept) start) := by
  induction entries generalizing start with
  | nil => exact ⟨Or.inl rfl, by simp⟩
  | cons entry entries ih =>
    rw [List.foldl_cons]
    by_cases hkept : matched entry ∧ entry.1.rank ≥ start.rank
    · rw [if_pos hkept]
      obtain ⟨hmem, hbound⟩ := ih entry.1
      constructor
      · rcases hmem with h | ⟨other, hother, hrole, hmatched⟩
        · exact Or.inr ⟨entry, List.mem_cons_self, h.symm, hkept.1⟩
        · exact Or.inr ⟨other, List.mem_cons_of_mem _ hother, hrole, hmatched⟩
      · rintro other (rfl | ⟨another, hanother, rfl, hmatched⟩)
        · exact hkept.2.trans (hbound entry.1 (Or.inl rfl))
        · rcases List.mem_cons.mp hanother with rfl | hanother
          · exact hbound _ (Or.inl rfl)
          · exact hbound _ (Or.inr ⟨another, hanother, rfl, hmatched⟩)
    · rw [if_neg hkept]
      obtain ⟨hmem, hbound⟩ := ih start
      constructor
      · rcases hmem with h | ⟨other, hother, hrole, hmatched⟩
        · exact Or.inl h
        · exact Or.inr ⟨other, List.mem_cons_of_mem _ hother, hrole, hmatched⟩
      · rintro other (rfl | ⟨another, hanother, rfl, hmatched⟩)
        · exact hbound _ (Or.inl rfl)
        · rcases List.mem_cons.mp hanother with rfl | hanother
          · have hlow := hbound start (Or.inl rfl)
            have hless : ¬another.1.rank ≥ start.rank := fun hge => hkept ⟨hmatched, hge⟩
            omega
          · exact hbound _ (Or.inr ⟨another, hanother, rfl, hmatched⟩)

theorem global_is_max (aliases : Aliases) (claimed : List String) (fallback : AppRole) :
    IsMax (fun role => role = fallback ∨ Bare aliases claimed role)
      (resolved aliases claimed fallback).global := by
  have hmax := kept_is_max (fun entry =>
    entry.2.any (fun name => (claimed.map lower).contains (lower name)) = true)
    [(AppRole.Admin, aliases.admin), (AppRole.Operator, aliases.operator),
      (AppRole.Viewer, aliases.viewer)] fallback
  refine IsMax.congr hmax (fun role => or_congr Iff.rfl ?_)
  have hmatched : ∀ listed : List String,
      listed.any (fun name => (claimed.map lower).contains (lower name)) = true ↔
        ∃ group ∈ claimed, ∃ name ∈ listed, lower group = lower name := by
    intro listed
    rw [List.any_eq_true]
    constructor
    · rintro ⟨name, hname, hfound⟩
      rw [List.contains_iff_mem, List.mem_map] at hfound
      obtain ⟨group, hgroup, heq⟩ := hfound
      exact ⟨group, hgroup, name, hname, heq⟩
    · rintro ⟨group, hgroup, name, hname, heq⟩
      refine ⟨name, hname, ?_⟩
      rw [List.contains_iff_mem, List.mem_map]
      exact ⟨group, hgroup, heq⟩
  constructor
  · rintro ⟨entry, hentry, rfl, hfound⟩
    have hbare := (hmatched entry.2).mp hfound
    simp only [List.mem_cons, List.not_mem_nil, or_false] at hentry
    rcases hentry with rfl | rfl | rfl
    · exact hbare
    · exact hbare
    · exact hbare
  · intro hbare
    cases role with
    | Admin => exact ⟨(.Admin, aliases.admin), by simp, rfl, (hmatched _).mpr hbare⟩
    | Operator => exact ⟨(.Operator, aliases.operator), by simp, rfl, (hmatched _).mpr hbare⟩
    | Viewer => exact ⟨(.Viewer, aliases.viewer), by simp, rfl, (hmatched _).mpr hbare⟩

/-! ## The grants -/

theorem role_for_alias_best (aliases : Aliases) (name : String) :
    Best (Names aliases (trim name))
      (role_for_alias name aliases.admin aliases.operator aliases.viewer) := by
  have hfound : ∀ listed : List String,
      listed.any (fun a => decide (lower a = lower (trim name))) = true ↔
        ∃ a ∈ listed, lower (trim name) = lower a := by
    intro listed
    rw [List.any_eq_true]
    simp only [decide_eq_true_eq, @eq_comm _ (lower (trim name))]
  unfold role_for_alias
  simp only [hfound]
  split
  · rename_i hadmin
    refine ⟨hadmin, fun other _ => ?_⟩
    cases other <;> decide
  · rename_i hadmin
    split
    · rename_i hoperator
      refine ⟨hoperator, fun other hother => ?_⟩
      cases other with
      | Admin => exact absurd hother hadmin
      | Operator => decide
      | Viewer => decide
    · rename_i hoperator
      split
      · rename_i hviewer
        refine ⟨hviewer, fun other hother => ?_⟩
        cases other with
        | Admin => exact absurd hother hadmin
        | Operator => exact absurd hother hoperator
        | Viewer => decide
      · rename_i hviewer
        intro role hrole
        cases role with
        | Admin => exact hadmin hrole
        | Operator => exact hoperator hrole
        | Viewer => exact hviewer hrole

/-- What one group grants for an organization. -/
def granted (aliases : Aliases) (organization group : String) (role : AppRole) : Prop :=
  ∃ name, ScopedTo group name organization ∧ Names aliases name role

variable {aliases : Aliases}

/-- A group that is not scoped to the organization leaves its grant as it was. -/
theorem grant_elsewhere {organization group : String}
    (h : ∀ role, ¬granted aliases organization group role) (per_org : Table String AppRole) :
    (grant aliases.admin aliases.operator aliases.viewer per_org group).get organization =
      per_org.get organization := by
  unfold grant
  cases hsplit : split_once ":" group with
  | none => rfl
  | some parts =>
    obtain ⟨before, after⟩ := parts
    simp only
    by_cases hempty : trim after = ""
    · rw [if_pos hempty]
    · rw [if_neg hempty]
      have hbest := role_for_alias_best aliases before
      cases hrole : role_for_alias before aliases.admin aliases.operator aliases.viewer with
      | none => rfl
      | some role =>
        rw [hrole] at hbest
        simp only [Table.get_upsert]
        refine if_neg (fun heq => ?_)
        apply h role
        exact ⟨trim before, ⟨before, after, hsplit, rfl, heq.symm, by rwa [heq]⟩, hbest.1⟩

theorem grant_here {organization group : String} {role : AppRole}
    (h : granted aliases organization group role) (per_org : Table String AppRole) :
    ∃ best, IsMax (granted aliases organization group) best ∧
      (grant aliases.admin aliases.operator aliases.viewer per_org group).get organization =
        some ((per_org.get organization).elim best (fun current => current.max best)) := by
  obtain ⟨name, ⟨before, after, hsplit, rfl, rfl, hne⟩, hnames⟩ := h
  have hbest := role_for_alias_best aliases before
  unfold grant
  simp only [hsplit, if_neg hne]
  cases hrole : role_for_alias before aliases.admin aliases.operator aliases.viewer with
  | none =>
    rw [hrole] at hbest
    exact absurd hnames (hbest role)
  | some best =>
    rw [hrole] at hbest
    refine ⟨best, ?_, by simp⟩
    refine IsMax.congr hbest (fun other => ?_)
    constructor
    · intro hother
      exact ⟨trim before, ⟨before, after, hsplit, rfl, rfl, hne⟩, hother⟩
    · rintro ⟨name, ⟨before', after', hsplit', rfl, -, -⟩, hother⟩
      rw [hsplit] at hsplit'
      simp only [Option.some.injEq, Prod.mk.injEq] at hsplit'
      rwa [hsplit'.1]

/-- A loop over the groups keeps the highest of what they grant, when each of them adds what it
grants to what there is. -/
theorem folded_best {granted : String → AppRole → Prop}
    {step : Table String AppRole → String → Table String AppRole} {organization : String}
    (helsewhere : ∀ group, (∀ role, ¬granted group role) → ∀ per_org : Table String AppRole,
      (step per_org group).get organization = per_org.get organization)
    (hhere : ∀ group role, granted group role → ∀ per_org : Table String AppRole,
      ∃ best, IsMax (granted group) best ∧ (step per_org group).get organization =
        some ((per_org.get organization).elim best (fun current => current.max best)))
    (claimed : List String) :
    Best (fun role => ∃ group ∈ claimed, granted group role)
      ((claimed.foldl step Table.empty).get organization) := by
  induction claimed using List.reverseRecOn with
  | nil =>
    rintro role ⟨group, hgroup, -⟩
    cases hgroup
  | append_singleton claimed group ih =>
    rw [List.foldl_append, List.foldl_cons, List.foldl_nil]
    have hsome : ∀ role, (∃ other ∈ claimed ++ [group], granted other role) ↔
        (∃ other ∈ claimed, granted other role) ∨ granted group role := by
      intro role
      simp only [List.mem_append, List.mem_singleton, or_and_right, exists_or, exists_eq_left]
    by_cases hgranted : ∃ role, granted group role
    · obtain ⟨role, hrole⟩ := hgranted
      obtain ⟨best, hbest, hget⟩ := hhere group role hrole (claimed.foldl step Table.empty)
      rw [hget]
      cases hbefore : (claimed.foldl step Table.empty).get organization with
      | none =>
        rw [hbefore] at ih
        have hnone : ∀ role, ¬∃ other ∈ claimed, granted other role := ih
        have hsum : IsMax (fun role => ∃ other ∈ claimed ++ [group], granted other role) best := by
          refine hbest.congr (fun other => ?_)
          rw [hsome]
          exact ⟨Or.inr, fun h => h.resolve_left (hnone other)⟩
        exact hsum
      | some current =>
        rw [hbefore] at ih
        have hcurrent : IsMax (fun role => ∃ other ∈ claimed, granted other role) current := ih
        have hsum : IsMax (fun role => ∃ other ∈ claimed ++ [group], granted other role)
            (current.max best) := (hcurrent.max hbest).congr (fun other => (hsome other).symm)
        exact hsum
    · push Not at hgranted
      rw [helsewhere group hgranted]
      have heq : ∀ role, (∃ other ∈ claimed, granted other role) ↔
          ∃ other ∈ claimed ++ [group], granted other role := by
        intro role
        rw [hsome]
        exact ⟨Or.inl, fun h => h.resolve_right (hgranted role)⟩
      cases hbefore : (claimed.foldl step Table.empty).get organization with
      | none =>
        rw [hbefore] at ih
        exact fun role hrole => ih role ((heq role).mpr hrole)
      | some current =>
        rw [hbefore] at ih
        have hcurrent : IsMax (fun role => ∃ other ∈ claimed, granted other role) current := ih
        have hsum : IsMax (fun role => ∃ other ∈ claimed ++ [group], granted other role) current :=
          hcurrent.congr heq
        exact hsum

theorem grants_best (aliases : Aliases) (claimed : List String) (organization : String) :
    Best (Scoped aliases claimed organization)
      ((claimed.foldl (grant aliases.admin aliases.operator aliases.viewer)
        Table.empty).get organization) :=
  folded_best (fun _ h per_org => grant_elsewhere h per_org)
    (fun _ _ h per_org => grant_here h per_org) claimed

/-! ## The effective role -/

/-- What the groups of a token grant: instance-wide, or for an organization. -/
def Grants (aliases : Aliases) (claimed : List String) (fallback : AppRole)
    (organization : Option String) (role : AppRole) : Prop :=
  role = fallback ∨ Bare aliases claimed role ∨
    ∃ org, organization = some org ∧ Scoped aliases claimed org role

def effective (aliases : Aliases) (claimed : List String) (fallback : AppRole)
    (organization : Option String) : AppRole :=
  (resolved aliases claimed fallback).for_org organization

theorem effective_is_max (aliases : Aliases) (claimed : List String) (fallback : AppRole)
    (organization : Option String) :
    IsMax (Grants aliases claimed fallback organization)
      (effective aliases claimed fallback organization) := by
  have hglobal := global_is_max aliases claimed fallback
  cases organization with
  | none =>
    refine hglobal.congr (fun role => ?_)
    simp [Grants]
  | some org =>
    have hgrants : ∀ role, Grants aliases claimed fallback (some org) role ↔
        Scoped aliases claimed org role ∨ role = fallback ∨ Bare aliases claimed role := by
      intro role
      simp only [Grants, Option.some.injEq, exists_eq_left']
      tauto
    have hbest := grants_best aliases claimed org
    unfold effective ResolvedRoles.for_org
    simp only
    have hper : (resolved aliases claimed fallback).per_org = claimed.foldl
        (grant aliases.admin aliases.operator aliases.viewer) Table.empty := rfl
    rw [hper]
    cases hget : (claimed.foldl (grant aliases.admin aliases.operator aliases.viewer)
        Table.empty).get org with
    | none =>
      rw [hget] at hbest
      refine hglobal.congr (fun role => ?_)
      rw [hgrants]
      exact ⟨Or.inr, fun h => h.resolve_left (hbest role)⟩
    | some role =>
      rw [hget] at hbest
      exact (IsMax.max hbest hglobal).congr (fun other => (hgrants other).symm)

theorem grants_mono (aliases : Aliases) {claimed more : List String} (hsub : claimed ⊆ more)
    (fallback : AppRole) (organization : Option String) (role : AppRole)
    (h : Grants aliases claimed fallback organization role) :
    Grants aliases more fallback organization role := by
  rcases h with rfl | ⟨group, hgroup, hnames⟩ | ⟨org, horg, group, hgroup, hscoped⟩
  · exact Or.inl rfl
  · exact Or.inr (Or.inl ⟨group, hsub hgroup, hnames⟩)
  · exact Or.inr (Or.inr ⟨org, horg, group, hsub hgroup, hscoped⟩)

/-! ## What the form of a group says -/

/-- The group is an alias of the role, a colon and the organization. -/
def FormedFor (aliases : Aliases) (organization group : String) (role : AppRole) : Prop :=
  ∃ name, Names aliases name role ∧ group = name ++ ":" ++ organization

/-- The roles an organization is to have: the fallback, those of the groups that are an alias, and
those of the groups of the form `alias:organization`; for the whole instance, the first two. -/
def Promised (aliases : Aliases) (claimed : List String) (fallback : AppRole)
    (organization : Option String) (role : AppRole) : Prop :=
  role = fallback ∨ Bare aliases claimed role ∨
    ∃ org, organization = some org ∧ ∃ group ∈ claimed, FormedFor aliases org group role

/-- Exact, contained and monotone. -/
structure RolesExact (aliases : Aliases) (claimed : List String) (fallback : AppRole) : Prop where
  exact : ∀ organization, IsMax (Promised aliases claimed fallback organization)
    (effective aliases claimed fallback organization)
  contained : ∀ before group after, claimed = before ++ group :: after →
    (∀ role, ¬Names aliases group role) →
      ∀ organization, (∀ org, organization = some org → ∀ role, ¬FormedFor aliases org group role) →
        effective aliases claimed fallback organization =
          effective aliases (before ++ after) fallback organization
  monotone : ∀ more, claimed ⊆ more → ∀ organization,
    (effective aliases claimed fallback organization).rank ≤
      (effective aliases more fallback organization).rank

/-- Whatever role above the fallback the group has by its form, it has as high a one by the cut at
its first colon or as an alias, and the other way round. -/
structure CutAsFormed (aliases : Aliases) (fallback : AppRole) (group : String) : Prop where
  cut : ∀ org role, fallback.rank < role.rank → FormedFor aliases org group role →
    ∃ other, role.rank ≤ other.rank ∧
      (Names aliases group other ∨ granted aliases org group other)
  formed : ∀ org role, fallback.rank < role.rank → granted aliases org group role →
    ∃ other, role.rank ≤ other.rank ∧
      (Names aliases group other ∨ FormedFor aliases org group other)

theorem promised_max {claimed : List String} {fallback : AppRole}
    (h : ∀ group ∈ claimed, CutAsFormed aliases fallback group) (organization : Option String) :
    IsMax (Promised aliases claimed fallback organization)
      (effective aliases claimed fallback organization) := by
  obtain ⟨hgrants, hmax⟩ := effective_is_max aliases claimed fallback organization
  have hfallback := hmax fallback (Or.inl rfl)
  have hbound : ∀ other, Promised aliases claimed fallback organization other →
      other.rank ≤ (effective aliases claimed fallback organization).rank := by
    rintro other (rfl | hbare | ⟨org, rfl, group, hgroup, hformed⟩)
    · exact hfallback
    · exact hmax other (Or.inr (Or.inl hbare))
    · by_cases habove : fallback.rank < other.rank
      · obtain ⟨better, hle, hnames | hcut⟩ := (h group hgroup).cut org other habove hformed
        · exact hle.trans (hmax better (Or.inr (Or.inl ⟨group, hgroup, hnames⟩)))
        · exact hle.trans (hmax better (Or.inr (Or.inr ⟨org, rfl, group, hgroup, hcut⟩)))
      · omega
  refine ⟨?_, hbound⟩
  rcases hgrants with heq | hbare | ⟨org, rfl, group, hgroup, hcut⟩
  · exact Or.inl heq
  · exact Or.inr (Or.inl hbare)
  · by_cases habove : fallback.rank < (effective aliases claimed fallback (some org)).rank
    · obtain ⟨better, hle, hbetter⟩ := (h group hgroup).formed org _ habove hcut
      have hpromised : Promised aliases claimed fallback (some org) better := by
        rcases hbetter with hnames | hformed
        · exact Or.inr (Or.inl ⟨group, hgroup, hnames⟩)
        · exact Or.inr (Or.inr ⟨org, rfl, group, hgroup, hformed⟩)
      have heq := rank_inj (le_antisymm hle (hbound better hpromised))
      rwa [heq]
    · exact Or.inl (rank_inj (by omega))

/-- What a group does not promise it does not change. -/
theorem promised_without {group : String} {organization : Option String}
    (hbare : ∀ role, ¬Names aliases group role)
    (hform : ∀ org, organization = some org → ∀ role, ¬FormedFor aliases org group role)
    (before after : List String) (fallback role : AppRole) :
    Promised aliases (before ++ group :: after) fallback organization role ↔
      Promised aliases (before ++ after) fallback organization role := by
  have hmem : ∀ claim,
      claim ∈ before ++ group :: after ↔ claim = group ∨ claim ∈ before ++ after := by
    intro claim
    simp only [List.mem_append, List.mem_cons]
    tauto
  unfold Promised Bare
  simp only [hmem]
  constructor
  · rintro (heq | ⟨claim, rfl | hclaim, hnames⟩ | ⟨org, rfl, claim, rfl | hclaim, hformed⟩)
    · exact Or.inl heq
    · exact absurd hnames (hbare role)
    · exact Or.inr (Or.inl ⟨claim, hclaim, hnames⟩)
    · exact absurd hformed (hform org rfl role)
    · exact Or.inr (Or.inr ⟨org, rfl, claim, hclaim, hformed⟩)
  · rintro (heq | ⟨claim, hclaim, hnames⟩ | ⟨org, rfl, claim, hclaim, hformed⟩)
    · exact Or.inl heq
    · exact Or.inr (Or.inl ⟨claim, Or.inr hclaim, hnames⟩)
    · exact Or.inr (Or.inr ⟨org, rfl, claim, Or.inr hclaim, hformed⟩)

theorem exact_of_cut {claimed : List String} {fallback : AppRole}
    (h : ∀ group ∈ claimed, CutAsFormed aliases fallback group) :
    RolesExact aliases claimed fallback where
  exact := promised_max h
  contained := by
    rintro before group after rfl hbare organization hform
    have hfewer : ∀ other ∈ before ++ after, CutAsFormed aliases fallback other := by
      intro other hother
      refine h other ?_
      simp only [List.mem_append, List.mem_cons] at hother ⊢
      tauto
    refine (promised_max h organization).unique ((promised_max hfewer organization).congr ?_)
    exact fun role => (promised_without hbare hform before after fallback role).symm
  monotone := by
    intro more hsub organization
    exact (effective_is_max aliases claimed fallback organization).mono
      (effective_is_max aliases more fallback organization)
      (grants_mono aliases hsub fallback organization)

theorem cut_of_exact {fallback : AppRole} {group : String}
    (h : RolesExact aliases [group] fallback) : CutAsFormed aliases fallback group where
  cut := by
    intro org role habove hformed
    have hle := (h.exact (some org)).2 role
      (Or.inr (Or.inr ⟨org, rfl, group, List.mem_singleton_self _, hformed⟩))
    refine ⟨_, hle, ?_⟩
    rcases (effective_is_max aliases [group] fallback (some org)).1 with
      heq | ⟨claim, hclaim, hnames⟩ | ⟨org', horg, claim, hclaim, hcut⟩
    · rw [heq] at hle
      omega
    · rw [List.mem_singleton] at hclaim
      subst hclaim
      exact Or.inl hnames
    · rw [List.mem_singleton] at hclaim
      cases horg
      subst hclaim
      exact Or.inr hcut
  formed := by
    intro org role habove hcut
    have hle := (effective_is_max aliases [group] fallback (some org)).2 role
      (Or.inr (Or.inr ⟨org, rfl, group, List.mem_singleton_self _, hcut⟩))
    refine ⟨_, hle, ?_⟩
    rcases (h.exact (some org)).1 with
      heq | ⟨claim, hclaim, hnames⟩ | ⟨org', horg, claim, hclaim, hformed⟩
    · rw [heq] at hle
      omega
    · rw [List.mem_singleton] at hclaim
      subst hclaim
      exact Or.inl hnames
    · rw [List.mem_singleton] at hclaim
      cases horg
      subst hclaim
      exact Or.inr hformed

/-- Whatever part of the groups a token brings, the effective roles are exact, contained and
monotone, just when the first colon of each group is where its form has it. -/
theorem roles_are_exact_iff (aliases : Aliases) (claimed : List String) (fallback : AppRole) :
    (∀ part, part ⊆ claimed → RolesExact aliases part fallback) ↔
      ∀ group ∈ claimed, CutAsFormed aliases fallback group := by
  constructor
  · intro h group hgroup
    exact cut_of_exact (h [group] (by simpa using hgroup))
  · intro h part hpart
    exact exact_of_cut (fun group hgroup => h group (hpart hgroup))

/-- An alias with a colon in it is cut at its own colon. -/
theorem an_alias_with_a_colon_grants_nothing :
    ¬∀ (aliases : Aliases) (claimed : List String) (fallback : AppRole),
      RolesExact aliases claimed fallback := by
  intro h
  have hmax := ((h ⟨["team:lead"], [], []⟩ ["team:lead:platform"] .Viewer).exact
    (some "platform")).2 .Admin (Or.inr (Or.inr ⟨"platform", rfl, _, List.mem_singleton_self _,
      "team:lead", ⟨"team:lead", List.mem_singleton_self _, rfl⟩, by decide +kernel⟩))
  exact absurd hmax (by decide +kernel)

end xrelease.groups
