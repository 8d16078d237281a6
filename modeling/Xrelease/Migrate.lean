-- The schema and its upgrades (`store/postgres/migrate.rs`, `postgres_schema.sql`): the tables
-- are created where they are missing, and numbered steps bring the data to the version of the
-- binary; every statement may fail. At the end, where the upgrade reaches that version's meaning.
import Xrelease.Isolated

namespace xrelease.schema

open xrelease.model xrelease.store keyed

/-! ## The database -/

def CURRENT_SCHEMA_VERSION : Int := 2

/-- The one row of `schema_meta`. -/
structure SchemaMeta where
  version : Int
  applied_at : DateTime
deriving DecidableEq

/-- A database before or after its upgrade; a table that is not there is `none`. The steps look
into `seen_release` only, so the rows of the others are of any kind. -/
structure Database (ρ : Type) where
  schema_meta : Option (Option SchemaMeta)
  seen_release : Option (Table (String × String) SeenRow)
  others : String → Option ρ

variable {ρ : Type}

/-- The version that the database says it has. -/
def Database.version (db : Database ρ) : Option Int :=
  (db.schema_meta.getD none).map (·.version)

/-- The other tables of the schema. -/
def OTHER_TABLES : List String :=
  ["source_state", "release_advisory", "advisory_check", "webhook_delivery",
    "notification_outbox", "notification_sink_delivery", "config_revision", "app_secret",
    "app_user"]

/-- `CREATE TABLE IF NOT EXISTS`, for every table. -/
def SCHEMA (empty : ρ) (db : Database ρ) : Database ρ where
  schema_meta := db.schema_meta.or (some none)
  seen_release := db.seen_release.or (some Table.empty)
  others := fun name =>
    if name ∈ OTHER_TABLES then (db.others name).or (some empty) else db.others name

/-! ## The steps -/

/-- `TIMESTAMPTZ '1980-01-01 00:00:00+00'`. -/
def PLACEHOLDERS_END : DateTime := 315532800000000

/-- A publish date that stands for none. -/
def SeenRow.placeholder (r : SeenRow) : Bool := r.published_at.any (fun t => t < PLACEHOLDERS_END)

def drop_placeholder_dates (db : Database ρ) : Database ρ :=
  { db with
    seen_release := db.seen_release.map (fun t =>
      t.mapRows (fun _ r => if SeenRow.placeholder r then { r with published_at := none } else r)) }

/-- The text of a step and what it does. -/
structure Migration (ρ : Type) where
  sql : String
  run : Database ρ → Database ρ

/-- The step at `k` brings the database to version `k`; there is none at 0 and nothing to do
for 1. -/
def MIGRATIONS : List (Migration ρ) :=
  [⟨"", id⟩, ⟨"", id⟩,
    ⟨"UPDATE " ++ "seen_release SET published_at = NULL " ++
      "WHERE published_at < TIMESTAMPTZ '1980-01-01 00:00:00+00';", drop_placeholder_dates⟩]

/-- A negative index is beyond every list (`next as usize`). -/
def migration (version : Int) : Option (Migration ρ) :=
  if version < 0 then none else MIGRATIONS[version.toNat]?

/-! ## The upgrade -/

inductive Statement where
  | ddl
  | try_lock
  | lock
  | read_version
  | step (version : Int)
  | stamp (version : Int)
deriving DecidableEq

/-- What one upgrade meets: which statements fail, whether the lock is free, the clock. -/
structure Answers where
  fails : Statement → Option String := fun _ => none
  locked : Bool := true
  now : DateTime := 0

variable (answers : Answers)

def stamp_version (version : Int) (db : Database ρ) : Except String Unit × Database ρ :=
  match answers.fails (.stamp version) with
  | some err => (.error err, db)
  | none => (.ok (), { db with schema_meta := some (some ⟨version, answers.now⟩) })

/-- One numbered step, which is skipped when it has no text. -/
def run_step (version : Int) (step : Migration ρ) (db : Database ρ) :
    Except String Unit × Database ρ :=
  if text.trim step.sql = "" then (.ok (), db)
  else
    match answers.fails (.step version) with
    | some err => (.error s!"schema migration to v{version} failed: {err}", db)
    | none => (.ok (), step.run db)

/-- The loop over the pending steps; `fuel` is the number of versions to go. -/
def migrate_steps : Nat → Int → Database ρ → Except String Unit × Database ρ
  | 0, _, db => (.ok (), db)
  | fuel + 1, current, db =>
    let next := current + 1
    match migration next with
    | none => (.error s!"missing migration step for version {next}", db)
    | some step =>
      match run_step answers next step db with
      | (.error err, db) => (.error err, db)
      | (.ok (), db) =>
        match stamp_version answers next db with
        | (.error err, db) => (.error err, db)
        | (.ok (), db) => migrate_steps fuel next db

def migrate_locked (db : Database ρ) : Except String Unit × Database ρ :=
  match answers.fails .read_version with
  | some err => (.error err, db)
  | none =>
    match db.version with
    -- fresh, or older than the versions
    | none => stamp_version answers CURRENT_SCHEMA_VERSION db
    | some current =>
      if current > CURRENT_SCHEMA_VERSION then
        (.error (s!"database schema version {current} is newer than this binary " ++
          s!"(supports up to {CURRENT_SCHEMA_VERSION}) — upgrade xrelease"), db)
      else migrate_steps answers (CURRENT_SCHEMA_VERSION - current).toNat current db

/-- The lock is given back whatever came out, and nobody asks whether that worked. -/
def migrate (db : Database ρ) : Except String Unit × Database ρ :=
  match answers.fails .try_lock with
  | some err => (.error err, db)
  | none =>
    match if answers.locked then none else answers.fails .lock with
    | some err => (.error err, db)
    | none => migrate_locked answers db

def apply_schema (empty : ρ) (db : Database ρ) : Except String Unit × Database ρ :=
  match answers.fails .ddl with
  | some err => (.error err, db)
  | none => migrate answers (SCHEMA empty db)

/-! ## What a version means -/

/-- No release has a publish date that stands for none. -/
def NoPlaceholders (db : Database ρ) : Prop :=
  ∀ rows, db.seen_release = some rows → ∀ k r, rows.get k = some r → SeenRow.placeholder r = false

/-- The effect of a numbered step holds of the data. -/
def Holds (version : Int) (db : Database ρ) : Prop := version = 2 → NoPlaceholders db

/-- Every step from after `v` up to `v'` has its effect. -/
def HoldsUpTo (v v' : Int) (db : Database ρ) : Prop := ∀ k, v < k → k ≤ v' → Holds k db

theorem noPlaceholders_drop (db : Database ρ) : NoPlaceholders (drop_placeholder_dates db) := by
  intro rows hrows k r hr
  obtain ⟨t, -, rfl⟩ := Option.map_eq_some_iff.mp hrows
  rw [Table.get_mapRows] at hr
  obtain ⟨row, -, rfl⟩ := Option.map_eq_some_iff.mp hr
  by_cases hp : SeenRow.placeholder row = true
  · rw [if_pos hp]
    rfl
  · rw [if_neg hp]
    simpa using hp

variable {db : Database ρ}

/-- Rows and tables stay as they are in all but the version. -/
theorem noPlaceholders_same {db' : Database ρ} (h : db'.seen_release = db.seen_release) :
    NoPlaceholders db' ↔ NoPlaceholders db := by
  unfold NoPlaceholders
  rw [h]

theorem noPlaceholders_schema (empty : ρ) (db : Database ρ) :
    NoPlaceholders (SCHEMA empty db) ↔ NoPlaceholders db := by
  unfold NoPlaceholders SCHEMA
  cases hrows : db.seen_release with
  | some rows => simp
  | none => simp

/-! ## One step, and the loop -/

/-- Every table of the schema is there. -/
structure Created (db : Database ρ) : Prop where
  schema_meta : db.schema_meta ≠ none
  seen_release : db.seen_release ≠ none
  others : ∀ name ∈ OTHER_TABLES, db.others name ≠ none

theorem created_schema (empty : ρ) (db : Database ρ) : Created (SCHEMA empty db) where
  schema_meta := by cases h : db.schema_meta <;> simp [SCHEMA, h]
  seen_release := by cases h : db.seen_release <;> simp [SCHEMA, h]
  others := by
    intro name hname
    cases h : db.others name <;> simp [SCHEMA, hname, h]

theorem schema_of_created (empty : ρ) (h : Created db) :
    SCHEMA empty db = db := by
  obtain ⟨schema_meta, seen_release, others⟩ := db
  obtain ⟨hmeta, hseen, hothers⟩ := h
  simp only [SCHEMA, Database.mk.injEq]
  refine ⟨?_, ?_, ?_⟩
  · cases schema_meta
    · exact absurd rfl hmeta
    · rfl
  · cases seen_release
    · exact absurd rfl hseen
    · rfl
  · funext name
    split
    · rename_i hname
      have hsome := hothers name hname
      cases hget : others name
      · exact absurd hget hsome
      · rfl
    · rfl

theorem version_schema (empty : ρ) (db : Database ρ) : (SCHEMA empty db).version = db.version := by
  unfold Database.version SCHEMA
  cases db.schema_meta <;> rfl

theorem update_not_blank (a b : String) : text.trim ("UPDATE " ++ a ++ b) ≠ "" := by
  have hmem : 'U' ∈ ("UPDATE " ++ a ++ b).toList := by
    rw [String.toList_append, String.toList_append]
    exact List.mem_append_left _ (List.mem_append_left _ (by decide))
  intro hblank
  have hnil := isolated.trimmed_ne_nil hmem (by decide)
  apply hnil
  unfold text.trim at hblank
  simpa using congrArg String.toList hblank

/-- There are three places in the list, and only the last has a text. -/
theorem migration_cases {version : Int} {step : Migration ρ} (h : migration version = some step) :
    (text.trim step.sql = "" ∧ version ≠ 2) ∨
      (version = 2 ∧ text.trim step.sql ≠ "" ∧ step.run = drop_placeholder_dates) := by
  have hblank : text.trim "" = "" := by decide
  unfold migration at h
  split at h
  · simp at h
  · rename_i hpos
    have hlt : version.toNat < 3 := (List.getElem?_eq_some_iff.mp h).1
    have hcases : version = 0 ∨ version = 1 ∨ version = 2 := by omega
    rcases hcases with rfl | rfl | rfl
    · obtain rfl := Option.some.inj h
      exact .inl ⟨hblank, by decide⟩
    · obtain rfl := Option.some.inj h
      exact .inl ⟨hblank, by decide⟩
    · obtain rfl := Option.some.inj h
      exact .inr ⟨rfl, update_not_blank _ _, rfl⟩

/-- What a step and its stamp do. -/
structure Steps (current : Int) (db db' : Database ρ) (v : Int) : Prop where
  version : db'.version = some v
  forward : current ≤ v
  holds : HoldsUpTo current v db'
  kept : NoPlaceholders db → NoPlaceholders db'
  created : Created db → Created db'

theorem run_step_cases {version : Int} {step : Migration ρ} (h : migration version = some step)
    (db : Database ρ) :
    (∃ err, run_step answers version step db = (.error err, db)) ∨
      ∃ db', run_step answers version step db = (.ok (), db') ∧ Holds version db' ∧
        (NoPlaceholders db → NoPlaceholders db') ∧ db'.schema_meta = db.schema_meta ∧
        (Created db → Created db') := by
  unfold run_step
  rcases migration_cases h with ⟨hblank, hne⟩ | ⟨rfl, hblank, hrun⟩
  · rw [if_pos hblank]
    exact .inr ⟨db, rfl, fun he => absurd he hne, id, rfl, id⟩
  · rw [if_neg hblank]
    split
    · exact .inl ⟨_, rfl⟩
    · refine .inr ⟨step.run db, rfl, ?_⟩
      rw [hrun]
      refine ⟨fun _ => noPlaceholders_drop db, fun _ => noPlaceholders_drop db, rfl, ?_⟩
      rintro ⟨hmeta, hseen, hothers⟩
      exact ⟨hmeta, by simpa [drop_placeholder_dates] using hseen, hothers⟩

theorem stamp_cases (version : Int) (db : Database ρ) :
    (∃ err, stamp_version answers version db = (.error err, db)) ∨
      stamp_version answers version db =
        (.ok (), { db with schema_meta := some (some ⟨version, answers.now⟩) }) := by
  unfold stamp_version
  split
  · exact .inl ⟨_, rfl⟩
  · exact .inr rfl

theorem migrate_steps_spec (fuel : Nat) {current : Int} (h : db.version = some current) :
    ∃ v, Steps current db (migrate_steps answers fuel current db).2 v ∧
      ((migrate_steps answers fuel current db).1 = .ok () → v = current + fuel) := by
  induction fuel generalizing current db with
  | zero =>
    refine ⟨current, ⟨h, le_refl _, ?_, id, id⟩, by simp⟩
    intro k hk hk'
    omega
  | succ fuel ih =>
    have hnone : HoldsUpTo current current db := fun k hk hk' => by omega
    simp only [migrate_steps]
    cases hstep : migration (ρ := ρ) (current + 1) with
    | none => exact ⟨current, ⟨h, le_refl _, hnone, id, id⟩, by simp⟩
    | some step =>
      rcases run_step_cases answers hstep db with ⟨err, heq⟩ | ⟨db₁, heq, hholds, hkept, hmeta, hcreated⟩
      · simp only [heq]
        exact ⟨current, ⟨h, le_refl _, hnone, id, id⟩, by simp⟩
      · have hversion : db₁.version = some current := by
          unfold Database.version
          rw [hmeta]
          exact h
        simp only [heq]
        rcases stamp_cases answers (current + 1) db₁ with ⟨err, hstamp⟩ | hstamp
        · simp only [hstamp]
          exact ⟨current, ⟨hversion, le_refl _, fun k hk hk' => by omega, hkept, hcreated⟩,
            by simp⟩
        · simp only [hstamp]
          have hnext : Database.version
              { db₁ with schema_meta := some (some ⟨current + 1, answers.now⟩) } =
                some (current + 1) := rfl
          obtain ⟨v, hsteps, hok⟩ := ih hnext
          refine ⟨v, ⟨hsteps.version, by have := hsteps.forward; omega, ?_, ?_, ?_⟩, ?_⟩
          · intro k hk hk'
            by_cases hnext : k = current + 1
            · subst hnext
              exact fun htwo => hsteps.kept (hholds htwo)
            · exact hsteps.holds k (by omega) hk'
          · exact fun hn => hsteps.kept (hkept hn)
          · intro hc
            obtain ⟨-, hseen, hothers⟩ := hcreated hc
            exact hsteps.created ⟨by simp, hseen, hothers⟩
          · intro hdone
            have := hok hdone
            push_cast
            omega

/-! ## An upgrade -/

/-- What the upgrade of a database is for. -/
structure ReachesVersion (empty : ρ) (db : Database ρ) : Prop where
  /-- An upgrade that goes through leaves the current version, and what it means. -/
  reaches : ∀ answers, (apply_schema answers empty db).1 = .ok () →
    (apply_schema answers empty db).2.version = some CURRENT_SCHEMA_VERSION ∧
      HoldsUpTo 0 CURRENT_SCHEMA_VERSION (apply_schema answers empty db).2
  again : ∀ answers, (apply_schema answers empty db).1 = .ok () → ∀ answers',
    (apply_schema answers' empty (apply_schema answers empty db).2).2 =
      (apply_schema answers empty db).2
  newer : ∀ answers v, db.version = some v → v > CURRENT_SCHEMA_VERSION →
    (∃ err, (apply_schema answers empty db).1 = .error err) ∧
      ((apply_schema answers empty db).2 = db ∨
        (apply_schema answers empty db).2 = SCHEMA empty db)
  /-- Whatever fails, the version that is left has had its steps. -/
  interrupted : ∀ answers err, (apply_schema answers empty db).1 = .error err →
    (db.version = none → (apply_schema answers empty db).2.version = none) ∧
      ∀ v, db.version = some v → ∃ v', (apply_schema answers empty db).2.version = some v' ∧
        v ≤ v' ∧ HoldsUpTo v v' (apply_schema answers empty db).2

/-- How an upgrade comes out. -/
inductive Outcome (answers : Answers) (empty : ρ) (db : Database ρ) : Prop where
  | stopped (err : String) (db' : Database ρ) (same : db' = db ∨ db' = SCHEMA empty db)
      (eq : apply_schema answers empty db = (.error err, db'))
  | unstamped (fresh : db.version = none) (err : String)
      (eq : apply_schema answers empty db = (.error err, SCHEMA empty db))
  | stamped (fresh : db.version = none)
      (eq : apply_schema answers empty db = (.ok (),
        { SCHEMA empty db with
          schema_meta := some (some ⟨CURRENT_SCHEMA_VERSION, answers.now⟩) }))
  | newer (v : Int) (version : db.version = some v) (above : v > CURRENT_SCHEMA_VERSION)
      (err : String) (eq : apply_schema answers empty db = (.error err, SCHEMA empty db))
  | stepped (v : Int) (version : db.version = some v) (below : v ≤ CURRENT_SCHEMA_VERSION)
      (eq : apply_schema answers empty db =
        migrate_steps answers (CURRENT_SCHEMA_VERSION - v).toNat v (SCHEMA empty db))

theorem apply_schema_outcome (empty : ρ) (db : Database ρ) : Outcome answers empty db := by
  cases hddl : answers.fails .ddl with
  | some err => exact .stopped err db (.inl rfl) (by simp only [apply_schema, hddl])
  | none =>
    cases htry : answers.fails .try_lock with
    | some err =>
      exact .stopped err _ (.inr rfl) (by simp only [apply_schema, hddl, migrate, htry])
    | none =>
      cases hlock : (if answers.locked then none else answers.fails .lock) with
      | some err =>
        exact .stopped err _ (.inr rfl) (by simp only [apply_schema, hddl, migrate, htry, hlock])
      | none =>
        cases hread : answers.fails .read_version with
        | some err =>
          exact .stopped err _ (.inr rfl)
            (by simp only [apply_schema, hddl, migrate, htry, hlock, migrate_locked, hread])
        | none =>
          have heq : apply_schema answers empty db = match db.version with
              | none => stamp_version answers CURRENT_SCHEMA_VERSION (SCHEMA empty db)
              | some current =>
                if current > CURRENT_SCHEMA_VERSION then
                  (.error (s!"database schema version {current} is newer than this binary " ++
                    s!"(supports up to {CURRENT_SCHEMA_VERSION}) — upgrade xrelease"),
                    SCHEMA empty db)
                else
                  migrate_steps answers (CURRENT_SCHEMA_VERSION - current).toNat current
                    (SCHEMA empty db) := by
            simp only [apply_schema, hddl, migrate, htry, hlock, migrate_locked, hread,
              version_schema]
          cases hversion : db.version with
          | none =>
            simp only [hversion] at heq
            rcases stamp_cases answers CURRENT_SCHEMA_VERSION (SCHEMA empty db) with
              ⟨err, hstamp⟩ | hstamp
            · exact .unstamped hversion err (heq.trans hstamp)
            · exact .stamped hversion (heq.trans hstamp)
          | some v =>
            simp only [hversion] at heq
            by_cases habove : v > CURRENT_SCHEMA_VERSION
            · rw [if_pos habove] at heq
              exact .newer v hversion habove _ heq
            · rw [if_neg habove] at heq
              exact .stepped v hversion (not_lt.mp habove) heq

/-- The version that the database says it has is not the current one, or its data is as the steps
leave it. -/
def Upgradable (db : Database ρ) : Prop :=
  (∃ v, db.version = some v ∧ v ≠ CURRENT_SCHEMA_VERSION) ∨ NoPlaceholders db

theorem ok_spec {empty : ρ} {answers : Answers} (hok : (apply_schema answers empty db).1 = .ok ()) :
    (apply_schema answers empty db).2.version = some CURRENT_SCHEMA_VERSION ∧
      Created (apply_schema answers empty db).2 ∧
      (Upgradable db → HoldsUpTo 0 CURRENT_SCHEMA_VERSION (apply_schema answers empty db).2) := by
  have hcreated := created_schema empty db
  cases apply_schema_outcome answers empty db with
  | stopped err db' same eq => simp [eq] at hok
  | unstamped fresh err eq => simp [eq] at hok
  | newer v version above err eq => simp [eq] at hok
  | stamped fresh eq =>
    rw [eq]
    refine ⟨rfl, ⟨by simp, hcreated.seen_release, hcreated.others⟩, ?_⟩
    rintro (⟨v, hv, -⟩ | hnone)
    · rw [fresh] at hv
      simp at hv
    · intro k _ _ _
      exact (noPlaceholders_schema empty db).mpr hnone
  | stepped v version below eq =>
    obtain ⟨v', hsteps, hreach⟩ := migrate_steps_spec answers (CURRENT_SCHEMA_VERSION - v).toNat
      ((version_schema empty db).trans version)
    rw [eq] at hok ⊢
    have hv' : v' = CURRENT_SCHEMA_VERSION := by
      have := hreach hok
      omega
    subst hv'
    refine ⟨hsteps.version, hsteps.created hcreated, ?_⟩
    intro h k _ hk htwo
    rcases h with ⟨v₁, hv₁, hne⟩ | hnone
    · obtain rfl := Option.some.inj (version.symm.trans hv₁)
      exact hsteps.holds k (by unfold CURRENT_SCHEMA_VERSION at *; omega) hk htwo
    · exact hsteps.kept ((noPlaceholders_schema empty db).mpr hnone)

/-- On a database that is there and current, nothing happens. -/
theorem current_stays {empty : ρ} (hcreated : Created db)
    (hversion : db.version = some CURRENT_SCHEMA_VERSION) (answers : Answers) :
    (apply_schema answers empty db).2 = db := by
  have hsame := schema_of_created empty hcreated
  cases apply_schema_outcome answers empty db with
  | stopped err db' same eq =>
    rw [eq]
    rcases same with rfl | rfl
    · rfl
    · exact hsame
  | unstamped fresh err eq =>
    rw [fresh] at hversion
    simp at hversion
  | stamped fresh eq =>
    rw [fresh] at hversion
    simp at hversion
  | newer v version above err eq =>
    rw [eq]
    exact hsame
  | stepped v version below eq =>
    obtain rfl := Option.some.inj (version.symm.trans hversion)
    rw [eq, Int.sub_self, hsame]
    rfl

theorem newer_spec {empty : ρ} (answers : Answers) {v : Int} (hv : db.version = some v)
    (habove : v > CURRENT_SCHEMA_VERSION) :
    (∃ err, (apply_schema answers empty db).1 = .error err) ∧
      ((apply_schema answers empty db).2 = db ∨
        (apply_schema answers empty db).2 = SCHEMA empty db) := by
  cases apply_schema_outcome answers empty db with
  | stopped err db' same eq =>
    rw [eq]
    exact ⟨⟨err, rfl⟩, same⟩
  | unstamped fresh err eq =>
    rw [eq]
    exact ⟨⟨err, rfl⟩, .inr rfl⟩
  | stamped fresh eq =>
    rw [fresh] at hv
    simp at hv
  | newer v' version above err eq =>
    rw [eq]
    exact ⟨⟨err, rfl⟩, .inr rfl⟩
  | stepped v' version below eq =>
    obtain rfl := Option.some.inj (version.symm.trans hv)
    omega

theorem interrupted_spec {empty : ρ} {answers : Answers} {err : String}
    (herr : (apply_schema answers empty db).1 = .error err) :
    (db.version = none → (apply_schema answers empty db).2.version = none) ∧
      ∀ v, db.version = some v → ∃ v', (apply_schema answers empty db).2.version = some v' ∧
        v ≤ v' ∧ HoldsUpTo v v' (apply_schema answers empty db).2 := by
  have hstays : ∀ db' : Database ρ, db' = db ∨ db' = SCHEMA empty db →
      (db.version = none → db'.version = none) ∧
        ∀ v, db.version = some v → ∃ v', db'.version = some v' ∧ v ≤ v' ∧
          HoldsUpTo v v' db' := by
    intro db' hsame
    have hversion : db'.version = db.version := by
      rcases hsame with rfl | rfl
      · rfl
      · exact version_schema empty db
    rw [hversion]
    exact ⟨id, fun v hv => ⟨v, hv, le_refl _, fun k hk hk' => by omega⟩⟩
  cases apply_schema_outcome answers empty db with
  | stopped err' db' same eq =>
    rw [eq]
    exact hstays db' same
  | unstamped fresh err' eq =>
    rw [eq]
    exact hstays _ (.inr rfl)
  | stamped fresh eq => simp [eq] at herr
  | newer v version above err' eq =>
    rw [eq]
    exact hstays _ (.inr rfl)
  | stepped v version below eq =>
    rw [eq]
    refine ⟨fun hfresh => by simp [version] at hfresh, ?_⟩
    intro v₁ hv₁
    obtain rfl := Option.some.inj (version.symm.trans hv₁)
    obtain ⟨v', hsteps, -⟩ := migrate_steps_spec answers (CURRENT_SCHEMA_VERSION - v).toNat
      ((version_schema empty db).trans version)
    exact ⟨v', hsteps.version, hsteps.forward, hsteps.holds⟩

/-! ## The law -/

/-- Nothing fails, and the database has no version, or the current one: no step is run. -/
theorem skipped (empty : ρ) (h : db.version = none ∨ db.version = some CURRENT_SCHEMA_VERSION) :
    (apply_schema {} empty db).1 = .ok () ∧
      (apply_schema {} empty db).2.seen_release = (SCHEMA empty db).seen_release := by
  rcases h with hnone | hcurrent
  · simp only [apply_schema, migrate, if_true, migrate_locked, version_schema, hnone,
      stamp_version, and_self]
  · simp only [apply_schema, migrate, if_true, migrate_locked, version_schema, hcurrent,
      gt_iff_lt, Int.lt_irrefl, if_false, Int.sub_self]
    exact ⟨rfl, rfl⟩

/-- Whatever fails on the way, the upgrade reaches the current version and its meaning just where
the database has another version, or its data already is as the steps leave it: a database without
a version is stamped as current, and its steps are skipped. -/
theorem upgrade_reaches_the_version_iff (empty : ρ) (db : Database ρ) :
    ReachesVersion empty db ↔ Upgradable db := by
  constructor
  · intro h
    by_cases hskipped : db.version = none ∨ db.version = some CURRENT_SCHEMA_VERSION
    · obtain ⟨hok, hrows⟩ := skipped empty hskipped
      have hholds := (h.reaches {} hok).2 2 (by decide) (by decide) rfl
      exact .inr ((noPlaceholders_schema empty db).mp ((noPlaceholders_same hrows).mp hholds))
    · refine .inl ?_
      cases hversion : db.version with
      | none => exact absurd (.inl hversion) hskipped
      | some v =>
        refine ⟨v, rfl, fun hv => hskipped (.inr ?_)⟩
        rw [hversion, hv]
  · intro h
    exact {
      reaches := fun answers hok => ⟨(ok_spec hok).1, (ok_spec hok).2.2 h⟩
      again := fun answers hok answers' => current_stays (ok_spec hok).2.1 (ok_spec hok).1 answers'
      newer := fun answers v hv habove => newer_spec answers hv habove
      interrupted := fun answers err herr => interrupted_spec herr }

/-- A release that an early version stored with a placeholder date, before there were versions. -/
def early_database : Database Unit where
  schema_meta := none
  seen_release :=
    some (Table.empty.add ("nuget:demo", "1.0.0")
      ⟨none, 1700000000000000, none, some (-2208988800000000), none⟩)
  others := fun _ => none

theorem an_early_database_skips_the_step : ¬ ReachesVersion () early_database := by
  intro h
  have hunversioned : early_database.version = none := rfl
  obtain ⟨hok, hrows⟩ := skipped () (.inl hunversioned)
  have hholds := (h.reaches {} hok).2 2 (by decide) (by decide) rfl
  have hplaceholder := (noPlaceholders_same hrows).mp hholds _ rfl ("nuget:demo", "1.0.0") _ rfl
  exact absurd hplaceholder (by decide)

end xrelease.schema
