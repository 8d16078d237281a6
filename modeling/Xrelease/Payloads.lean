-- The push payloads of forges and registries (`api/webhook_payload.rs`), and the polls of GitLab,
-- Bitbucket and the container registries (`sources/gitlab.rs`, `sources/bitbucket.rs`,
-- `sources/docker.rs`) that list the same releases. All documents come already parsed.
import Xrelease.GiteaReleases

namespace xrelease.webhook_payload

open text xrelease.model xrelease.outbox xrelease.gitea_releases

/-! ## Payloads -/

/-- Why a payload gives no release. -/
inductive WebhookPayloadError where
  | BadRequest (message : String)
  | Ignored (message : String)
deriving DecidableEq

/-- A release in a payload of GitHub or Gitea. -/
structure GiteaCompatibleRelease where
  tag_name : String
  html_url : Option String
  body : Option String
  prerelease : Option Bool
  draft : Option Bool
  published_at : Option String
deriving DecidableEq

/-- GitHub, Gitea and Codeberg; the repository by its full name. -/
structure GiteaCompatibleWebhook where
  action : Option String
  release : Option GiteaCompatibleRelease
  repository : Option (Option String)
deriving DecidableEq

/-- The project of a GitLab payload. -/
structure GitlabProject where
  path_with_namespace : Option String
  name : String
deriving DecidableEq

/-- A payload of GitLab. -/
structure GitlabWebhook where
  object_kind : Option String
  tag : Option String
  name : Option String
  description : Option String
  url : Option String
  released_at : Option String
  project : Option GitlabProject
deriving DecidableEq

/-- `target.links.html.href`, every step of which may be missing. -/
structure BitbucketRef where
  ref_type : Option String
  name : Option String
  target : Option (Option (Option (Option String)))
deriving DecidableEq

/-- `push.changes`, each by its `new`; the repository by its full name. -/
structure BitbucketPushWebhook where
  push : Option (List (Option BitbucketRef))
  repository : Option (Option String)
deriving DecidableEq

/-- The repository of a Docker Hub payload. -/
structure DockerRepository where
  repo_name : Option String
  name : Option String
deriving DecidableEq

/-- `push_data` by its tag. -/
structure DockerPushWebhook where
  push_data : Option (Option String)
  repository : Option DockerRepository
deriving DecidableEq

/-- A field that must be there. -/
def ok_or {α : Type} (x : Option α) (message : String) : Except WebhookPayloadError α :=
  match x with
  | some a => .ok a
  | none => .error (.BadRequest message)

/-- Something else than white space. -/
def not_blank (s : String) : Bool := trim s ≠ ""

section
variable (parse_rfc3339 : String → Option DateTime)

def GiteaCompatibleRelease.into_release (r : GiteaCompatibleRelease) : Release :=
  let release := (Release.new r.tag_name).with_prerelease (r.prerelease.getD false)
  let published := r.published_at.bind parse_rfc3339
  ((release.with_url r.html_url).with_published published).with_body (r.body.filter not_blank)

def GiteaCompatibleWebhook.is_published_release (payload : GiteaCompatibleWebhook) : Bool :=
  payload.action = some "published"

/-- The repository and the release; drafts are rejected. -/
def GiteaCompatibleWebhook.into_release (payload : GiteaCompatibleWebhook) :
    Except WebhookPayloadError (String × Release) :=
  if !payload.is_published_release then
    .error (.Ignored ("ignored action " ++ debug_tag payload.action))
  else do
    let release ← ok_or payload.release "missing release"
    if release.draft.getD false then .error (.Ignored "draft release")
    else do
      let repo ← ok_or payload.repository.join "missing repository.full_name"
      .ok (repo, release.into_release parse_rfc3339)

def GitlabWebhook.into_release (payload : GitlabWebhook) :
    Except WebhookPayloadError (String × Release) :=
  if payload.object_kind ≠ some "release" then
    .error (.Ignored ("ignored object_kind " ++ debug_tag payload.object_kind))
  else do
    let project ← ok_or payload.project "missing project"
    let tag ← ok_or (payload.tag.or payload.name) "missing tag"
    let repo := project.path_with_namespace.getD project.name
    let release := Release.new tag
    let release := payload.url.elim release (fun url => release.with_url (some url))
    let release := (payload.description.filter not_blank).elim release
      (fun desc => release.with_body (some desc))
    let release := (payload.released_at.bind parse_rfc3339).elim release
      (fun published => release.with_published (some published))
    .ok (repo, release)

end

/-- The first tag among the changes. -/
def tag_push (repo : String) : List (Option BitbucketRef) →
    Except WebhookPayloadError (String × Release)
  | [] => .error (.Ignored "no tag push in repo:push changes")
  | none :: rest => tag_push repo rest
  | some new_ref :: rest =>
    if new_ref.ref_type ≠ some "tag" then tag_push repo rest
    else do
      let tag ← ok_or (new_ref.name.filter not_blank) "missing tag name in push change"
      let url := new_ref.target.join.join.join
      .ok (repo, (Release.new tag).with_url url)

def BitbucketPushWebhook.into_release (payload : BitbucketPushWebhook) :
    Except WebhookPayloadError (String × Release) := do
  let repo ← ok_or payload.repository.join "missing repository.full_name"
  tag_push repo (payload.push.getD [])

/-- The page of a tag on Docker Hub. -/
def pushed_page (repo tag : String) : String :=
  "https://hub.docker.com/r/" ++ repo ++ "/tags?name=" ++ tag

def DockerPushWebhook.into_release (payload : DockerPushWebhook) :
    Except WebhookPayloadError (String × Release) := do
  let push ← ok_or payload.push_data "missing push_data"
  let tag ← ok_or (push.filter not_blank) "missing push_data.tag"
  let repo ← ok_or (payload.repository.bind (fun r => r.repo_name.or r.name))
    "missing repository.repo_name"
  .ok (repo, (Release.new tag).with_url (some (pushed_page repo tag)))

/-! ## GitLab's list -/

/-- An element of the releases API, its `_links.self` where there are any links. -/
structure GitlabReleaseApi where
  tag_name : String
  description : Option String
  released_at : Option String
  links : Option (Option String)
deriving DecidableEq

def gitlab_release (parse_rfc3339 : String → Option DateTime) (r : GitlabReleaseApi) : Release :=
  let published := r.released_at.bind parse_rfc3339
  let release_url := r.links.join.filter (fun s => s ≠ "")
  (((Release.new r.tag_name).with_url release_url).with_published published).with_body
    (r.description.filter not_blank)

/-! ## Bitbucket's tags -/

/-- A tag of the Cloud, its `target.date` and its `links.html.href`. -/
structure CloudTagEntry where
  name : String
  target : Option (Option String)
  links : Option (Option (Option String))
deriving DecidableEq

/-- A tag on a Bitbucket Server. -/
structure ServerTagEntry where
  display_id : String
  latest_commit : Option (Option Int)
deriving DecidableEq

/-- A repository of Bitbucket. -/
structure BitbucketSource where
  repo : String
  web_base : String
deriving DecidableEq

/-- `splitn(2, '/')`. -/
def split_repo (repo : String) : String × String := (split_once "/" repo).getD (repo, "")

def BitbucketSource.project_key (source : BitbucketSource) : String := (split_repo source.repo).1

def BitbucketSource.repo_slug (source : BitbucketSource) : String := (split_repo source.repo).2

/-- The page that the Cloud gives a tag, or the one it has by rule. -/
def BitbucketSource.cloud_tag_page (source : BitbucketSource) (entry : CloudTagEntry) : String :=
  entry.links.join.join.getD (source.web_base ++ "/" ++ source.repo ++ "/src/" ++ entry.name)

def BitbucketSource.cloud_tag_to_release (source : BitbucketSource)
    (parse_rfc3339 : String → Option DateTime) (entry : CloudTagEntry) : Release :=
  ((Release.new entry.name).with_url (some (source.cloud_tag_page entry))).with_published
    (entry.target.join.bind parse_rfc3339)

def BitbucketSource.server_tag_page (source : BitbucketSource) (display_id : String) : String :=
  source.web_base ++ "/projects/" ++ source.project_key ++ "/repos/" ++ source.repo_slug ++
    "/browse?at=refs/tags/" ++ display_id

def BitbucketSource.server_tag_to_release (source : BitbucketSource)
    (timestamp_millis : Int → Option DateTime) (entry : ServerTagEntry) : Release :=
  ((Release.new entry.display_id).with_url
    (some (source.server_tag_page entry.display_id))).with_published
      (entry.latest_commit.join.bind timestamp_millis)

/-! ## Container registries -/

def REGISTRY_DOCKER_HUB : String := "https://registry-1.docker.io"

/-- A preset or custom registry, with the kind of its sources. -/
inductive ContainerRegistry where
  | DockerHub
  | Ghcr
  | Quay
  | EcrPublic
  | Custom (registry : String)
deriving DecidableEq

/-- An image in a registry. -/
structure DockerSource where
  registry : ContainerRegistry
  image : String
deriving DecidableEq

def ghcr_release_url (image tag : String) : String :=
  let encoded := encode_path_segment tag
  match (split (· == '/') image.toList).map String.ofList with
  | [owner, name] =>
    "https://github.com/" ++ owner ++ "/" ++ name ++ "/pkgs/container/" ++ name ++ "/versions/" ++
      encoded
  | [owner, repo, name] =>
    "https://github.com/" ++ owner ++ "/" ++ repo ++ "/pkgs/container/" ++ name ++ "/versions/" ++
      encoded
  | _ => "https://ghcr.io/" ++ image ++ ":" ++ encoded

def DockerSource.release_page_url (source : DockerSource) (tag : String) : String :=
  let encoded := encode_path_segment tag
  match source.registry with
  | .DockerHub => "https://hub.docker.com/r/" ++ source.image ++ "/tags?name=" ++ encoded
  | .Custom _ => "https://hub.docker.com/r/" ++ source.image ++ "/tags?name=" ++ encoded
  | .Ghcr => ghcr_release_url source.image tag
  | .Quay => "https://quay.io/repository/" ++ source.image ++ "?tab=tags&tag=" ++ encoded
  | .EcrPublic => "https://gallery.ecr.aws/" ++ source.image ++ "?tag=" ++ encoded

/-- Whether the registry is the Docker Hub, whose API has push dates. -/
def DockerSource.is_hub (source : DockerSource) : Bool :=
  source.registry = .DockerHub || source.registry = .Custom REGISTRY_DOCKER_HUB

/-- A listed tag, with the date that the Hub's API has for it, if it answered with any. -/
def DockerSource.tag_to_release (source : DockerSource) (dates : String → Option DateTime)
    (tag : String) : Release :=
  let release := (Release.new tag).with_url (some (source.release_page_url tag))
  if source.is_hub then
    (dates release.id).elim release (fun pushed => { release with published_at := some pushed })
  else release

/-! ## Whose watches a push reaches (`watch_lookup.rs`) -/

/-- Names are compared trimmed and in lower case. -/
def normalise_repo (repo : String) : String := lower (trim repo)

/-- Names are compared trimmed and in lower case. -/
def normalise_image (image : String) : String := lower (trim image)

end xrelease.webhook_payload
