-- Security advisories of released versions (`advisory/mod.rs`, `store/postgres/advisory.rs`) and
-- the background sweep over the versions nobody asked about yet (`scheduler.rs`). The advisory
-- service, the clock and the failures come from the surroundings, by a running number.
import Xrelease.Backlog
import Xrelease.Watches

namespace xrelease.advisory

open text keyed store xrelease.model
open xrelease.pipeline (Watch)
open xrelease.config (PackageRegistry)
open xrelease.outbox (ORGANIZATION_SEP)

/-! ## Coordinates -/

inductive Severity where
  | Low
  | Moderate
  | High
  | Critical
deriving DecidableEq

/-- One advisory affecting a released version. -/
structure Advisory where
  id : String
  display_id : String
  summary : Option String
  severity : Option Severity
  cvss_vector : Option String
  url : Option String
deriving DecidableEq

/-- An OSV ecosystem identifier. -/
structure Ecosystem where
  as_str : String
deriving DecidableEq

/-- The ecosystem of a registry; CPAN has none. -/
def Ecosystem.for_registry : PackageRegistry → Option Ecosystem
  | .Pypi => some ⟨"PyPI"⟩
  | .Npm => some ⟨"npm"⟩
  | .Yarn => some ⟨"npm"⟩
  | .Cargo => some ⟨"crates.io"⟩
  | .Maven => some ⟨"Maven"⟩
  | .Nuget => some ⟨"NuGet"⟩
  | .Hex => some ⟨"Hex"⟩
  | .Rubygems => some ⟨"RubyGems"⟩
  | .Packagist => some ⟨"Packagist"⟩
  | .Cpan => none

def registries : List PackageRegistry :=
  [.Pypi, .Npm, .Cargo, .Maven, .Nuget, .Hex, .Rubygems, .Packagist, .Yarn, .Cpan]

def kind_label : PackageRegistry → String
  | .Pypi => "PyPI"
  | .Npm => "npm"
  | .Cargo => "crates.io"
  | .Maven => "Maven Central"
  | .Nuget => "NuGet"
  | .Hex => "Hex"
  | .Rubygems => "RubyGems"
  | .Packagist => "Packagist"
  | .Yarn => "Yarn"
  | .Cpan => "CPAN"

def from_kind (kind : String) : Option PackageRegistry :=
  registries.find? (fun registry => registry.config_prefix = kind)

def from_kind_label (label : String) : Option PackageRegistry :=
  registries.find? (fun registry => kind_label registry = label)

/-- A source id without its organization. -/
def bare_id (source_id : String) : String :=
  ((split_once ORGANIZATION_SEP source_id).map Prod.snd).getD source_id

/-- Recover a package coordinate from a stored source id. -/
def coordinate_from_source_id (source_id : String) : Option (PackageRegistry × String) := do
  let (kind, name) ← split_once ":" (bare_id source_id)
  let registry ← from_kind kind
  let name := trim name
  if name ≠ "" then some (registry, name) else none

/-- Name from a legacy id `…::package:{name}`. -/
def legacy_shared_package_name (source_id : String) : Option String :=
  (strip_prefix_of "package:" (bare_id source_id)).filter (fun name => name ≠ "")

/-- The coordinate in the id, else the one of the live kind; an explicit name goes first. -/
def coordinate_from_source (source_id kind package_name : String) :
    Option (PackageRegistry × String) :=
  let name_hint := trim package_name
  match coordinate_from_source_id source_id with
  | some (registry, name_from_id) =>
    let name := if name_hint = "" then name_from_id else name_hint
    if name ≠ "" then some (registry, name) else none
  | none => do
    let registry ← (from_kind kind).or (from_kind_label kind)
    let name ← if name_hint = "" then legacy_shared_package_name source_id else some name_hint
    if name ≠ "" then some (registry, name) else none

/-- One watched package source resolved to its coordinate. -/
structure SweepTarget where
  source_id : String
  registry : PackageRegistry
  ecosystem : String
  package : String
deriving DecidableEq

/-- Resolve a watch to a sweep target, or nothing when it has no coordinate. -/
def sweep_target (watch : Watch) : Option SweepTarget := do
  let (registry, package) ←
    coordinate_from_source watch.provider.id watch.provider.kind watch.provider.display_name
  let ecosystem ← Ecosystem.for_registry registry
  some ⟨watch.provider.id, registry, ecosystem.as_str, package⟩

/-! ## Settings and the breaker -/

/-- `[advisories]`. -/
structure AdvisoryConfig where
  enabled : Bool
  endpoint : String
  cache_ttl_secs : UInt32
  breaker_threshold : UInt32
  breaker_cooldown_secs : UInt32
  sweep_interval_secs : UInt32
  sweep_batch : UInt32

def AdvisoryConfig.active (config : AdvisoryConfig) : Bool :=
  config.enabled && trim config.endpoint ≠ ""

/-- Enrichment active, with a non-zero interval and a non-zero batch. -/
def AdvisoryConfig.sweep_active (config : AdvisoryConfig) : Bool :=
  config.active && 0 < config.sweep_interval_secs && 0 < config.sweep_batch

structure Breaker where
  consecutive_failures : Nat
  open_until : Option DateTime
deriving DecidableEq

def Breaker.allows (b : Breaker) (now : DateTime) : Bool :=
  match b.open_until with
  | none => true
  | some «until» => decide («until» ≤ now)

def U32_MAX : Nat := 2 ^ 32 - 1

/-- Record a call outcome; whether this call newly opens the breaker. -/
def Breaker.record (b : Breaker) (now : DateTime) (success : Bool) (failure_threshold : Nat)
    (cooldown : DateTime) : Breaker × Bool :=
  if success then (⟨0, none⟩, false)
  else
    let failures := min (b.consecutive_failures + 1) U32_MAX
    if failure_threshold ≤ failures then
      (⟨failures, some (now + cooldown)⟩, !b.open_until.any (fun «until» => now < «until»))
    else (⟨failures, b.open_until⟩, false)

/-! ## The lookup -/

/-- The answer of a lookup, and whether the service really gave it. -/
structure LookupOutcome where
  advisories : List Advisory := []
  verified : Bool := false
deriving DecidableEq

def LookupOutcome.from_verified_answer (advisories : List Advisory) : LookupOutcome :=
  ⟨advisories, true⟩

/-- Ecosystem, package and version. -/
abbrev CacheKey := String × String × String

structure CacheEntry where
  advisories : List Advisory
  stored_at : DateTime
deriving DecidableEq

def CACHE_MAX_ENTRIES : Nat := 4096

structure LookupState where
  cache : Table CacheKey CacheEntry
  breaker : Breaker

/-- The tables the sweep reads and writes. -/
structure Tables where
  seen_release : Table (String × String) SeenRow
  release_advisory : Table (CacheKey × String) Advisory
  advisory_check : Table CacheKey DateTime

/-- What the process meets, by a running number: the clock, the service (`none` for a failed
query), the shutdown flag, and the store calls that fail. -/
structure Surroundings where
  now : Nat → DateTime
  query : Nat → CacheKey → Option (List Advisory)
  shutdown : Nat → Bool
  queue_fails : Nat → Bool
  advisories_fail : Nat → Bool
  check_fails : Nat → Bool

/-- The running process; `skipped` counts the lookups that an open breaker stopped. -/
structure Sweeper where
  tables : Tables
  state : LookupState
  tick : Nat
  skipped : Nat

variable (config : AdvisoryConfig) (env : Surroundings)

/-- Whether a cache entry is still good. -/
def fresh (now : DateTime) (entry : CacheEntry) : Bool :=
  decide (now - entry.stored_at < secs config.cache_ttl_secs.toNat)

def cached (key : CacheKey) (now : DateTime) (state : LookupState) : Option (List Advisory) :=
  if config.cache_ttl_secs = 0 then none
  else ((state.cache.get key).filter (fresh config now)).map CacheEntry.advisories

/-- Room for one more entry: at the cap the stale ones go, and if that is not enough, all. -/
def make_room (now : DateTime) (cache : Table CacheKey CacheEntry) : Table CacheKey CacheEntry :=
  if CACHE_MAX_ENTRIES ≤ cache.rows.length then
    let kept := cache.keep (fun _ entry => fresh config now entry)
    if CACHE_MAX_ENTRIES ≤ kept.rows.length then Table.empty else kept
  else cache

def record_success (key : CacheKey) (advisories : List Advisory) (now : DateTime)
    (state : LookupState) : LookupState where
  cache :=
    if config.cache_ttl_secs = 0 then state.cache
    else
      (make_room config now state.cache).upsert key ⟨advisories, now⟩
        (fun _ => ⟨advisories, now⟩)
  breaker := (state.breaker.record now true 0 0).1

def record_failure (now : DateTime) (state : LookupState) : LookupState :=
  { state with
    breaker :=
      (state.breaker.record now false (max config.breaker_threshold.toNat 1)
        (secs config.breaker_cooldown_secs.toNat)).1 }

/-- Advisories for one released package version. -/
def lookup (registry : PackageRegistry) (name version : String) (w : Sweeper) :
    LookupOutcome × Sweeper :=
  if !config.active then ({}, w)
  else match Ecosystem.for_registry registry with
  | none => ({}, w)
  | some ecosystem =>
    if trim name = "" ∨ trim version = "" then ({}, w)
    else
      let key := (ecosystem.as_str, trim name, trim version)
      let asked := env.now w.tick
      match cached config key asked w.state with
      | some hit => (LookupOutcome.from_verified_answer hit, { w with tick := w.tick + 1 })
      | none =>
        if !w.state.breaker.allows asked then
          ({}, { w with tick := w.tick + 1, skipped := w.skipped + 1 })
        else
          let answered := env.now (w.tick + 1)
          match env.query w.tick key with
          | some advisories =>
            (LookupOutcome.from_verified_answer advisories,
              { w with
                tick := w.tick + 2
                state := record_success config key advisories answered w.state })
          | none =>
            ({}, { w with tick := w.tick + 2, state := record_failure config answered w.state })

/-! ## The store -/

/-- Replace the advisories of one version. -/
def record_advisories (key : CacheKey) (advisories : List Advisory) (t : Tables) : Tables :=
  { t with
    release_advisory :=
      advisories.foldl (fun rows a => rows.upsert (key, a.id) a (fun _ => a))
        (t.release_advisory.keep (fun k _ => k.1 ≠ key)) }

/-- Record that the service was asked about a version. -/
def record_advisory_check (key : CacheKey) (now : DateTime) (t : Tables) : Tables :=
  { t with advisory_check := t.advisory_check.upsert key now (fun _ => now) }

/-- The order of texts in the database: a collation, total on distinct texts. -/
structure Collation where
  le : String → String → Bool
  total : ∀ a b, le a b = true ∨ le b a = true
  trans : ∀ a b c, le a b = true → le b c = true → le a c = true
  antisymm : ∀ a b, le a b = true → le b a = true → a = b

/-- `ORDER BY first_seen_at DESC, identity DESC`. -/
def newest_first (c : Collation) (a b : (String × String) × SeenRow) : Bool :=
  decide (b.2.first_seen_at < a.2.first_seen_at) ||
    decide (a.2.first_seen_at = b.2.first_seen_at) && c.le b.1.2 a.1.2

/-- Whether a version was ever verified (`EXISTS` in `advisory_check`). -/
def Tables.checked (t : Tables) (ecosystem package version : String) : Bool :=
  t.advisory_check.any (fun k _ => k = (ecosystem, package, version))

def I64_MAX : Nat := 2 ^ 63 - 1

/-- Seen versions of one source that have never had a verified check, newest first. -/
def unchecked_seen_versions (c : Collation) (source_id ecosystem package : String) (limit : Nat)
    (t : Tables) : List String :=
  if limit = 0 then []
  else
    let rows := t.seen_release.select
      (fun k _ => k.1 = source_id && !t.checked ecosystem package k.2)
    ((rows.insertionSort (fun a b => newest_first c a b = true)).take (min limit I64_MAX)).map
      (fun kr => kr.1.2)

/-- Both writes are best-effort. -/
def persist_advisory_result (ecosystem package version : String) (advisories : List Advisory)
    (w : Sweeper) : Sweeper :=
  let key := (ecosystem, package, version)
  let t := if env.advisories_fail w.tick then w.tables else record_advisories key advisories w.tables
  let t := if env.check_fails w.tick then t else record_advisory_check key (env.now w.tick) t
  { w with tables := t, tick := w.tick + 1 }

/-! ## The sweep -/

/-- The lookups of one batch, one after the other. -/
def lookup_all (target : SweepTarget) :
    List String → Sweeper → List (String × LookupOutcome) × Sweeper
  | [], w => ([], w)
  | version :: rest, w =>
    let (outcome, w) := lookup config env target.registry target.package version w
    let (results, w) := lookup_all target rest w
    ((version, outcome) :: results, w)

/-- Only a real answer is recorded. -/
def persist_all (target : SweepTarget) : List (String × LookupOutcome) → Sweeper → Nat × Sweeper
  | [], w => (0, w)
  | (version, outcome) :: rest, w =>
    if !outcome.verified then persist_all target rest w
    else
      let w := persist_advisory_result env target.ecosystem target.package version
        outcome.advisories w
      let (checked, w) := persist_all target rest w
      (checked + 1, w)

/-- One target of a round. -/
def sweep_one (c : Collation) (batch : Nat) (target : SweepTarget) (w : Sweeper) : Nat × Sweeper :=
  if env.queue_fails w.tick then (0, { w with tick := w.tick + 1 })
  else
    let versions :=
      unchecked_seen_versions c target.source_id target.ecosystem target.package batch w.tables
    let (results, w) := lookup_all config env target versions { w with tick := w.tick + 1 }
    persist_all env target results w

/-- One sweep round: up to `batch` never-checked versions per target, until a shutdown. -/
def sweep_advisories_once (c : Collation) (batch : Nat) :
    List SweepTarget → Sweeper → Nat × Sweeper
  | [], w => (0, w)
  | target :: rest, w =>
    if env.shutdown w.tick then (0, w)
    else
      let (here, w) := sweep_one config env c batch target { w with tick := w.tick + 1 }
      let (there, w) := sweep_advisories_once c batch rest w
      (here + there, w)

/-- The sweep's loop after `n` rounds over the package sources among the watches. -/
def sweep_rounds (c : Collation) (watches : List Watch) (w : Sweeper) : Nat → Sweeper
  | 0 => w
  | n + 1 =>
    (sweep_advisories_once config env c config.sweep_batch.toNat
      (watches.filterMap sweep_target) (sweep_rounds c watches w n)).2

end xrelease.advisory
