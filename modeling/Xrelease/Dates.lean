-- Where publish dates come from: the shared parsers with their plausibility floor
-- (`sources/time.rs`), what every provider and every push payload makes of its dates, and when none
-- of them is a placeholder. Documents come already parsed, and chrono's parsers from outside.
import Xrelease.Announced
import Xrelease.Migrate
import Xrelease.Pagination

namespace xrelease.dated

open text xrelease.model xrelease.store xrelease.pipeline xrelease.gitea_releases
open xrelease.webhook_payload xrelease.schema keyed
open xrelease.config (PackageRegistry)
open xrelease.pagination (HubTag)

/-! ## The shared parsers -/

/-- Earlier dates are no dates of releases. -/
def EARLIEST_PLAUSIBLE_YEAR : Int := 1980

/-- The calendar year of a moment, in UTC. -/
def year (t : DateTime) : Int := (civil_date t).1

/-- A date that a release may have. -/
def plausible_time (t : DateTime) : Bool := EARLIEST_PLAUSIBLE_YEAR ≤ year t

/-- What chrono reads. -/
structure Chrono where
  /-- `str::parse::<DateTime<Utc>>`. -/
  parse : String → Option DateTime
  parse_from_rfc3339 : String → Option DateTime
  /-- Of seconds. -/
  from_timestamp : Int → Option DateTime
  from_timestamp_millis : Int → Option DateTime

section
variable (chrono : Chrono)

/-- The date in a text, plausible or not. -/
def date_in (value : String) : Option DateTime :=
  (chrono.parse value).or (chrono.parse_from_rfc3339 value)

/-- A plausible date in RFC 3339. -/
def parse_rfc3339 (value : String) : Option DateTime := (date_in chrono value).filter plausible_time

/-- A plausible date in milliseconds. -/
def parse_timestamp_millis (ms : Int) : Option DateTime :=
  (chrono.from_timestamp_millis ms).filter plausible_time

end

/-- A package in a registry. -/
structure PackageSource where
  name : String
  registry : PackageRegistry

/-- `group:artifact`, neither of them empty. -/
def parse_maven_coords (name : String) : Option (String × String) :=
  (split_once ":" name).filter (fun parts => parts.1 ≠ "" ∧ parts.2 ≠ "")

/-- The page of a version. -/
def PackageSource.package_url (source : PackageSource) (version : String) : String :=
  match source.registry with
  | .Pypi => "https://pypi.org/project/" ++ source.name ++ "/" ++ version ++ "/"
  | .Npm => "https://www.npmjs.com/package/" ++ source.name ++ "/v/" ++ version
  | .Cargo => "https://crates.io/crates/" ++ source.name ++ "/" ++ version
  | .Maven =>
    match parse_maven_coords source.name with
    | some (group, artifact) =>
      "https://search.maven.org/artifact/" ++ group ++ "/" ++ artifact ++ "/" ++ version
    | none => "https://search.maven.org/artifact/" ++ source.name ++ "/" ++ version
  | .Nuget => "https://www.nuget.org/packages/" ++ source.name ++ "/" ++ version
  | .Hex => "https://hex.pm/packages/" ++ source.name ++ "/" ++ version
  | .Rubygems => "https://rubygems.org/gems/" ++ source.name ++ "/versions/" ++ version
  | .Packagist => "https://packagist.org/packages/" ++ source.name ++ "#v" ++ version
  | .Yarn => "https://www.npmjs.com/package/" ++ source.name ++ "/v/" ++ version
  | .Cpan => "https://metacpan.org/dist/" ++ source.name ++ "/"

/-- A version with its page, and the publish date that was found for it. -/
def PackageSource.version_to_release (source : PackageSource) (version : String)
    (published : Option DateTime) : Release :=
  ((Release.new version).with_url (some (source.package_url version))).with_published published

/-- A version on crates.io. -/
structure CargoVersion where
  num : String
  created_at : Option String

/-- A version on Maven Central. -/
structure MavenDoc where
  v : String
  timestamp : Option Int

/-- A version on Hex. -/
structure HexRelease where
  version : String
  url : Option String
  inserted_at : Option String

/-- A version on RubyGems. -/
structure RubygemsVersion where
  number : String
  created_at : Option String

/-- A version on Packagist. -/
structure PackagistVersion where
  version : String
  time : Option String

/-- A version on CPAN. -/
structure CpanRelease where
  version : String
  date : Option String

/-- A version on NuGet. -/
structure CatalogEntry where
  version : String
  published : Option String

/-- The leaves of a page, by their catalog entries, when they are inlined. -/
structure RegistrationPage where
  id : String
  items : Option (List (Option CatalogEntry))

/-- What the registration API answers: its index, and a page by its URL, which may have no body. -/
structure Registration where
  index : Option (List RegistrationPage)
  page : String → Option (Option RegistrationPage)

section
variable (chrono : Chrono)

/-- The earliest upload of a version's files. -/
def pypi_release (source : PackageSource) (version : String) (files : List (Option String)) :
    Release :=
  source.version_to_release version
    (files.filterMap (fun file => file.bind (parse_rfc3339 chrono))).min?

def npm_release (source : PackageSource) (time : String → Option String) (version : String) :
    Release :=
  source.version_to_release version ((time version).bind (parse_rfc3339 chrono))

def cargo_release (source : PackageSource) (v : CargoVersion) : Release :=
  source.version_to_release v.num (v.created_at.bind (parse_rfc3339 chrono))

def maven_release (source : PackageSource) (doc : MavenDoc) : Release :=
  source.version_to_release doc.v (doc.timestamp.bind (parse_timestamp_millis chrono))

def hex_release (source : PackageSource) (r : HexRelease) : Release :=
  ((Release.new r.version).with_url (r.url.or (some (source.package_url r.version)))).with_published
    (r.inserted_at.bind (parse_rfc3339 chrono))

def rubygems_release (source : PackageSource) (entry : RubygemsVersion) : Release :=
  source.version_to_release entry.number (entry.created_at.bind (parse_rfc3339 chrono))

def packagist_release (source : PackageSource) (entry : PackagistVersion) : Release :=
  source.version_to_release entry.version (entry.time.bind (parse_rfc3339 chrono))

def cpan_release (source : PackageSource) (entry : CpanRelease) : Release :=
  source.version_to_release entry.version (entry.date.bind (parse_rfc3339 chrono))

/-- The dates of a page, in the order of its leaves. -/
def collect (leaves : List (Option CatalogEntry)) : List (String × DateTime) :=
  leaves.filterMap (fun leaf => leaf.bind (fun entry =>
    (entry.published.bind (parse_rfc3339 chrono)).map (fun at_ => (entry.version, at_))))

/-- The URL of the last page that is not inlined. -/
def last_uninlined (index : List RegistrationPage) : Option String :=
  ((index.filter (fun page => page.items.isNone)).getLast?).map RegistrationPage.id

/-- The pages that are read: those inlined, and the last of the others. A request that fails fails
the lookup. -/
def registration_leaves (registration : Registration) : Option (List (Option CatalogEntry)) :=
  registration.index.bind (fun index =>
    let inlined := index.flatMap (fun page => page.items.getD [])
    match last_uninlined index with
    | none => some inlined
    | some page_url =>
      (registration.page page_url).map (fun page =>
        inlined ++ ((page.bind RegistrationPage.items).getD [])))

/-- The date of a version in the catalog. -/
def nuget_dates (registration : Registration) (id : String) : Option DateTime :=
  (registration_leaves registration).bind (fun leaves =>
    pagination.date_of (collect chrono leaves) id)

def nuget_release (source : PackageSource) (registration : Registration) (version : String) :
    Release :=
  let release := (Release.new version).with_url (some (source.package_url version))
  (nuget_dates chrono registration release.id).elim release (fun published =>
    { release with published_at := some published })

end

/-! ## Feeds and Artifact Hub -/

/-- The GUID is the identity, the title what a person reads. -/
def feed_release (entry : Entry) : Release :=
  (((Release.new entry.id).display (entry.title.getD entry.id)).with_url
    entry.links.head?).with_published (entry.published.or entry.updated)

/-- A version on Artifact Hub. -/
structure AvailableVersion where
  version : String
  prerelease : Bool
  ts : Option Int

/-- A package on Artifact Hub. -/
structure ArtifactHubSource where
  host : String
  package_kind : String
  repository : String
  chart : String

/-- The page of a version. -/
def ArtifactHubSource.version_url (source : ArtifactHubSource) (version : String) : String :=
  source.host ++ "/packages/" ++ source.package_kind ++ "/" ++ source.repository ++ "/" ++
    source.chart ++ "/" ++ version

def ArtifactHubSource.version_to_release (source : ArtifactHubSource) (chrono : Chrono)
    (entry : AvailableVersion) : Release :=
  (((Release.new entry.version).with_prerelease entry.prerelease).with_url
    (some (source.version_url entry.version))).with_published
      (entry.ts.bind chrono.from_timestamp)

/-! ## Everything that releases are read from -/

/-- What is polled, by provider; the releases of one fetch. -/
inductive Document where
  | rest (releases : List ReleaseApi)
  | atom (entries : List Entry)
  | gitlab (releases : List GitlabReleaseApi)
  | bitbucket_cloud (source : BitbucketSource) (tags : List CloudTagEntry)
  | bitbucket_server (source : BitbucketSource) (tags : List ServerTagEntry)
  | container (source : DockerSource) (tags : List String) (hub : Option (List HubTag))
  | feed (entries : List Entry)
  | pypi (source : PackageSource) (releases : List (String × List (Option String)))
  | npm (source : PackageSource) (versions : List String) (time : String → Option String)
  | cargo (source : PackageSource) (versions : List CargoVersion)
  | maven (source : PackageSource) (docs : List MavenDoc)
  | nuget (source : PackageSource) (versions : List String) (registration : Registration)
  | hex (source : PackageSource) (releases : List HexRelease)
  | rubygems (source : PackageSource) (versions : List RubygemsVersion)
  | packagist (source : PackageSource) (versions : List PackagistVersion)
  | cpan (source : PackageSource) (releases : List CpanRelease)
  | artifacthub (source : ArtifactHubSource) (versions : List AvailableVersion)

/-- What is pushed. -/
inductive Payload where
  | gitea (payload : GiteaCompatibleWebhook)
  | gitlab (payload : GitlabWebhook)
  | bitbucket (payload : BitbucketPushWebhook)
  | docker (payload : DockerPushWebhook)

inductive Upstream where
  | polled (document : Document)
  | pushed (payload : Payload)

/-- A release, and the dates that the response gives for it, plausible or not. -/
structure Item where
  release : Release
  dates : List DateTime

section
variable (chrono : Chrono)

/-- The dates that Docker Hub has for a tag. -/
def pushed_dates (tag : HubTag) : List DateTime :=
  ([tag.tag_last_pushed, tag.last_updated].filterMap id).filterMap (date_in chrono)

/-- The dates that Docker Hub has of a tag. -/
def hub_dates_of (hub : Option (List HubTag)) (name : String) : List DateTime :=
  ((hub.getD []).filter (fun tag => tag.name = name)).flatMap (pushed_dates chrono)

/-- The leaves that the registration API answered with, whatever became of the lookup. -/
def answered_leaves (registration : Registration) : List (Option CatalogEntry) :=
  match registration.index with
  | none => []
  | some index =>
    index.flatMap (fun page => page.items.getD []) ++
      (((((last_uninlined index).bind registration.page).join).bind
        RegistrationPage.items).getD [])

/-- The dates that the catalog has of a version. -/
def catalog_dates_of (registration : Registration) (version : String) : List DateTime :=
  (answered_leaves registration).filterMap (fun leaf =>
    leaf.bind (fun entry =>
      if entry.version = version then entry.published.bind (date_in chrono) else none))

def Document.items : Document → List Item
  | rest releases =>
    (releases.filter (fun r => !r.draft)).map (fun r =>
      ⟨api_to_release (parse_rfc3339 chrono) r, (r.published_at.bind (date_in chrono)).toList⟩)
  | atom entries =>
    entries.map (fun e => ⟨entry_to_release e, e.published.toList ++ e.updated.toList⟩)
  | gitlab releases =>
    releases.map (fun r =>
      ⟨gitlab_release (parse_rfc3339 chrono) r, (r.released_at.bind (date_in chrono)).toList⟩)
  | bitbucket_cloud source tags =>
    tags.map (fun t => ⟨source.cloud_tag_to_release (parse_rfc3339 chrono) t,
      (t.target.join.bind (date_in chrono)).toList⟩)
  | bitbucket_server source tags =>
    tags.map (fun t => ⟨source.server_tag_to_release chrono.from_timestamp_millis t,
      (t.latest_commit.join.bind chrono.from_timestamp_millis).toList⟩)
  | container source tags hub =>
    tags.map (fun t => ⟨source.tag_to_release (pagination.hub_dates (parse_rfc3339 chrono) hub) t,
      if source.is_hub then hub_dates_of chrono hub t else []⟩)
  | feed entries =>
    entries.map (fun e => ⟨feed_release e, e.published.toList ++ e.updated.toList⟩)
  | pypi source releases =>
    releases.map (fun r =>
      ⟨pypi_release chrono source r.1 r.2, (r.2.filterMap id).filterMap (date_in chrono)⟩)
  | npm source versions time =>
    versions.map (fun v =>
      ⟨npm_release chrono source time v, ((time v).bind (date_in chrono)).toList⟩)
  | cargo source versions =>
    versions.map (fun v =>
      ⟨cargo_release chrono source v, (v.created_at.bind (date_in chrono)).toList⟩)
  | maven source docs =>
    docs.map (fun d =>
      ⟨maven_release chrono source d, (d.timestamp.bind chrono.from_timestamp_millis).toList⟩)
  | nuget source versions registration =>
    versions.map (fun v => ⟨nuget_release chrono source registration v,
      catalog_dates_of chrono registration v⟩)
  | hex source releases =>
    releases.map (fun r =>
      ⟨hex_release chrono source r, (r.inserted_at.bind (date_in chrono)).toList⟩)
  | rubygems source versions =>
    versions.map (fun v =>
      ⟨rubygems_release chrono source v, (v.created_at.bind (date_in chrono)).toList⟩)
  | packagist source versions =>
    versions.map (fun v =>
      ⟨packagist_release chrono source v, (v.time.bind (date_in chrono)).toList⟩)
  | cpan source releases =>
    releases.map (fun r =>
      ⟨cpan_release chrono source r, (r.date.bind (date_in chrono)).toList⟩)
  | artifacthub source versions =>
    versions.map (fun v => ⟨source.version_to_release chrono v,
      (v.ts.bind chrono.from_timestamp).toList⟩)

def Payload.into_release : Payload → Except WebhookPayloadError (String × Release)
  | gitea payload => payload.into_release (parse_rfc3339 chrono)
  | gitlab payload => payload.into_release (parse_rfc3339 chrono)
  | bitbucket payload => payload.into_release
  | docker payload => payload.into_release

/-- The date that a payload has for its release. -/
def Payload.date : Payload → Option DateTime
  | gitea payload =>
    (payload.release.bind GiteaCompatibleRelease.published_at).bind (date_in chrono)
  | gitlab payload => payload.released_at.bind (date_in chrono)
  | bitbucket _ => none
  | docker _ => none

/-- The releases of a fetch or of a push, with their dates. -/
def Upstream.items : Upstream → List Item
  | polled document => document.items chrono
  | pushed payload =>
    match payload.into_release chrono with
    | .ok (_, release) => [⟨release, (payload.date chrono).toList⟩]
    | .error _ => []

end

/-- No row of the table shows a placeholder. -/
def Clean (db : Db) : Prop :=
  ∀ source_id identity row, db.seen source_id identity = some row →
    ∀ at_ ∈ row.published_at, PLACEHOLDERS_END ≤ at_

/-- The dates that are read without the floor are plausible, and none is behind another one that is
not. -/
def Sound (chrono : Chrono) : Upstream → Prop
  | .polled (.atom entries) | .polled (.feed entries) =>
    ∀ e ∈ entries, ∀ at_ ∈ e.published.or e.updated, PLACEHOLDERS_END ≤ at_
  | .polled (.bitbucket_server _ tags) =>
    ∀ t ∈ tags, ∀ at_ ∈ t.latest_commit.join.bind chrono.from_timestamp_millis,
      PLACEHOLDERS_END ≤ at_
  | .polled (.artifacthub _ versions) =>
    ∀ v ∈ versions, ∀ at_ ∈ v.ts.bind chrono.from_timestamp, PLACEHOLDERS_END ≤ at_
  | .polled (.container source tags hub) =>
    source.is_hub = true → ∀ name ∈ tags,
      (∃ d ∈ hub_dates_of chrono hub name, PLACEHOLDERS_END ≤ d) →
        ∃ tag ∈ hub.getD [], tag.name = name ∧
          ∃ d ∈ (tag.tag_last_pushed.or tag.last_updated).bind (date_in chrono),
            PLACEHOLDERS_END ≤ d
  | .polled (.nuget _ versions registration) =>
    registration_leaves registration = none → ∀ version ∈ versions,
      ∀ d ∈ catalog_dates_of chrono registration version, ¬PLACEHOLDERS_END ≤ d
  | _ => True

/-! ## One release -/

section
variable (chrono : Chrono)

end

/-! ## The table of seen releases -/

/-- An entry that was published on the first of January 1900. -/
def unlisted : Entry :=
  ⟨["https://host/1.0"], some "1.0", "1.0", some (-2208988800000000), some 1713398400000000⟩

end xrelease.dated
