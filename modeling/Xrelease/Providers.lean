-- What a configured source is to the engine that runs it (`sources/mod.rs`, `pipeline/mod.rs`):
-- its kind, what the kind is called in a notification, and the name of what is watched.
import Xrelease.Advisory
import Xrelease.Destinations

namespace xrelease.config

open xrelease.destinations

namespace SourceConfig

def kind : SourceConfig → String
  | Github _ => "github"
  | Codeberg _ => "codeberg"
  | Gitea _ => "gitea"
  | Gitlab _ => "gitlab"
  | Bitbucket _ => "bitbucket"
  | Docker _ => "docker"
  | Image registry _ => registry.config_prefix
  | Feed _ => "feed"
  | Package registry _ => registry.config_prefix
  | Artifacthub _ => "artifacthub"

def kind_label : SourceConfig → String
  | Github _ => "GitHub"
  | Codeberg _ => "Codeberg"
  | Gitea _ => "Gitea"
  | Gitlab _ => "GitLab"
  | Bitbucket _ => "Bitbucket"
  | Docker c =>
    if resolve_docker_registry c.registry = DEFAULT_REGISTRY then "Docker Hub"
    else "Docker registry"
  | Image .Ghcr _ => "GHCR"
  | Image .Quay _ => "Quay"
  | Image .Ecr _ => "AWS ECR Public"
  | Feed _ => "Feed"
  | Package registry _ => advisory.kind_label registry
  | Artifacthub _ => "Artifact Hub"

def display_name : SourceConfig → String
  | Github c | Codeberg c => c.repo
  | Gitea c => c.repo
  | Gitlab c => c.project
  | Bitbucket c => c.repo
  | Docker c => c.image
  | Image _ c => c.image
  | Feed c => c.url
  | Package _ c => c.name
  | Artifacthub c => c.name

end SourceConfig

/-- A configured watch, as the pipeline runs it. -/
def Watch.running (watch : Watch) : pipeline.Watch where
  provider :=
    { id := watch.id
      kind := watch.provider.kind
      kind_label := watch.provider.kind_label
      display_name := watch.provider.display_name }
  filter := watch.filter
  routing_tag := watch.routing_tag
  notify_schedule := watch.notify_schedule.map NotifySchedule.next_after

end xrelease.config
