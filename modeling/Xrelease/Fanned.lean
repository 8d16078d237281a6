-- Whom a push reaches (`api/webhook.rs`): the watches of the kinds that its route serves with the
-- name that it carries, each once and wherever they poll; and of a push of several tags, which of
-- them are handed on.
import Xrelease.Webhooks

namespace xrelease.webhook

open text indexed xrelease.model xrelease.engine xrelease.webhook_payload
open xrelease.watch_lookup xrelease.destinations
open xrelease.pipeline (Watch)

/-! ## Whom a push reaches -/

/-- The kinds of source that a route looks for. -/
def served : Route → List String
  | .Github => ["github"]
  | .Gitea => ["gitea", "codeberg"]
  | .Gitlab => ["gitlab"]
  | .Bitbucket => ["bitbucket"]
  | .Docker => CONTAINER_KINDS
  | .Generic => []

/-- The watches that a request hands its release to, each with the release. -/
def handed : Except ApiError Ingested → List (Watch × Release)
  | .ok (.Process watches release) => watches.map (fun watch => (watch, release))
  | _ => []

section
variable {Body : Type} (parsers : Parsers Body)

/-- The repository or image that a readable push is about, and its release. -/
def pushed (route : Route) (request : Request Body) : Option (String × Release) :=
  match route with
  | .Github | .Gitea =>
    (parsers.gitea_compatible request.body).toOption.bind
      (fun payload => (payload.into_release parsers.rfc3339).toOption)
  | .Gitlab =>
    (parsers.gitlab request.body).toOption.bind
      (fun payload => (payload.into_release parsers.rfc3339).toOption)
  | .Bitbucket =>
    if (other_event request.headers).isSome then none
    else
      (parsers.bitbucket request.body).toOption.bind
        (fun payload => payload.into_release.toOption)
  | .Docker =>
    (parsers.docker request.body).toOption.bind (fun payload => payload.into_release.toOption)
  | .Generic => none

/-- Served by the route, and of the name that was pushed. -/
def reached (route : Route) (key : String) (watch : Watch) : Bool :=
  watch.provider.kind ∈ served route &&
    normalise_repo watch.provider.display_name = normalise_repo key

/-- Reached, and its poll asks this place. -/
def polls_at (route : Route) (key : String) (place : Target) (watch : config.Watch) : Bool :=
  reached route key watch.running && source_target watch.provider = place

theorem served_nodup (route : Route) : (served route).Nodup := by
  cases route <;> decide

theorem handed_ingest_mapped {index : WatchIndex} {key : String} {release : Release}
    {mapped : Except WebhookPayloadError (String × Release)}
    {find_watches : WatchIndex → String → List Watch} {not_found : String → String}
    (h : mapped.toOption = some (key, release)) :
    handed (ingest_mapped_release index mapped find_watches not_found) =
      (find_watches index key).map (fun watch => (watch, release)) := by
  cases mapped with
  | error err => simp [Except.toOption] at h
  | ok pair =>
    obtain rfl : pair = (key, release) := by simpa [Except.toOption] using h
    simp only [ingest_mapped_release, map_payload]
    split
    · rename_i hempty
      rw [List.isEmpty_iff.mp hempty]
      rfl
    · rfl

theorem handed_parsed {α : Type} {parsed : Except String α} {x : String × Release}
    {f : α → Option (String × Release)} {g : α → Except ApiError Ingested}
    (h : parsed.toOption.bind f = some x) :
    ∃ payload, f payload = some x ∧
      handed (parse_json parsed >>= g) = handed (g payload) := by
  cases parsed with
  | error err => simp [Except.toOption] at h
  | ok payload => exact ⟨payload, h, rfl⟩

/-- The watches of one kind or of several, in the order of the kinds. -/
theorem found_perm (route : Route) (key : String) (watches : List Watch) :
    ((served route).flatMap (fun kind => watches.filter (of_repo kind key))).Perm
      (watches.filter (reached route key)) :=
  flatMap_filter_perm (fun w : Watch => w.provider.kind)
    (fun w => normalise_repo w.provider.display_name = normalise_repo key) (served_nodup route)
    watches

/-- What a readable push hands on is what its route finds. -/
theorem handed_pushed {route : Route} {request : Request Body} {key : String} {release : Release}
    (h : pushed parsers route request = some (key, release)) (watches : List Watch) :
    handed (ingest parsers route (WatchIndex.new watches) request) =
      ((served route).flatMap (fun kind => watches.filter (of_repo kind key))).map
        (fun watch => (watch, release)) := by
  cases route with
  | Github =>
    obtain ⟨payload, hmapped, hhanded⟩ := handed_parsed h
    exact hhanded.trans ((handed_ingest_mapped hmapped).trans
      (by rw [find_repos_any_new]; rfl))
  | Gitea =>
    obtain ⟨payload, hmapped, hhanded⟩ := handed_parsed h
    exact hhanded.trans ((handed_ingest_mapped hmapped).trans
      (by rw [find_repos_any_new]; rfl))
  | Gitlab =>
    obtain ⟨payload, hmapped, hhanded⟩ := handed_parsed h
    exact hhanded.trans ((handed_ingest_mapped hmapped).trans
      (by rw [find_repos_new]; simp [served]))
  | Bitbucket =>
    simp only [pushed] at h
    split at h
    · cases h
    · rename_i hevent
      obtain ⟨payload, hmapped, hhanded⟩ := handed_parsed h
      have hnone : other_event request.headers = none := by simpa using hevent
      simp only [ingest, bitbucket, hnone]
      exact hhanded.trans ((handed_ingest_mapped hmapped).trans
        (by rw [find_repos_new]; simp [served]))
  | Docker =>
    obtain ⟨payload, hmapped, hhanded⟩ := handed_parsed h
    exact hhanded.trans ((handed_ingest_mapped hmapped).trans
      (by rw [find_images_any_new]; rfl))
  | Generic => cases h

/-- A push reaches the watches of the kinds that its route serves that are called as what was
pushed, up to letter case, each once; they are those that poll the place it came from exactly
where no watch of that name polls another place. -/
theorem push_reaches_by_name {route : Route} {request : Request Body} {key : String}
    {release : Release} (h : pushed parsers route request = some (key, release))
    (watches : List config.Watch) :
    (handed (ingest parsers route (WatchIndex.new (watches.map config.Watch.running))
        request)).Perm
      ((watches.filter (fun w => reached route key w.running)).map
        (fun w => (w.running, release))) ∧
    ∀ place, watches.filter (fun w => reached route key w.running) =
        watches.filter (polls_at route key place) ↔
      ∀ w ∈ watches, reached route key w.running → source_target w.provider = place := by
  refine ⟨?_, ?_⟩
  · rw [handed_pushed parsers h]
    have hperm := (found_perm route key (watches.map config.Watch.running)).map
      (fun watch => (watch, release))
    rw [List.filter_map, List.map_map] at hperm
    exact hperm
  · intro place
    constructor
    · intro heq w hw hreached
      have hpolls : w ∈ watches.filter (polls_at route key place) := by
        rw [← heq]
        exact List.mem_filter.mpr ⟨hw, hreached⟩
      have hboth := (List.mem_filter.mp hpolls).2
      unfold polls_at at hboth
      simpa [hreached] using hboth
    · intro hall
      apply List.filter_congr
      intro w hw
      unfold polls_at
      by_cases hreached : reached route key w.running
      · simp [hreached, hall w hw hreached]
      · simp [hreached]

end

/-! ## An image of two registries -/

/-- Bodies are their own documents here. -/
def parsers : Parsers DockerPushWebhook where
  gitea_compatible := fun _ => .error "missing field"
  gitlab := fun _ => .error "missing field"
  bitbucket := fun _ => .error "missing field"
  docker := .ok
  generic := fun _ => .error "missing field"
  rfc3339 := fun _ => none
  hmac_hex := fun _ _ => ""

def nginx_push : Request DockerPushWebhook where
  headers := fun _ => .Absent
  body := ⟨some (some "1.27.3"), some ⟨some "library/nginx", none⟩⟩

def nginx_of (id : String) (provider : config.SourceConfig) : config.Watch where
  id := id
  provider := provider
  interval := 3600
  jitter := 0
  poll_on_startup := true
  filter := ⟨false, none, none, none, false⟩
  routing_tag := none
  notify_schedule := none
  organization_id := none

def hub_nginx : config.Watch :=
  nginx_of "docker:library/nginx" (.Docker { image := "library/nginx" })

def ghcr_nginx : config.Watch :=
  nginx_of "ghcr:library/nginx" (.Image .Ghcr { image := "library/nginx" })

theorem nginx_pushed : pushed parsers .Docker nginx_push =
    some ("library/nginx", (Release.new "1.27.3").with_url
      (some (pushed_page "library/nginx" "1.27.3"))) := rfl

/-- Two watches of the image, one in capitals, and one of another image. -/
def hub_watches : List config.Watch :=
  [hub_nginx, nginx_of "docker:library/redis" (.Docker { image := "library/redis" }),
    nginx_of "nginx-again" (.Docker { image := "Library/Nginx" })]

theorem push_reaches_by_name_here :
    (hub_watches.filter (fun w => reached .Docker "library/nginx" w.running)).map config.Watch.id =
        ["docker:library/nginx", "nginx-again"] ∧
      (handed (ingest parsers .Docker (WatchIndex.new (hub_watches.map config.Watch.running))
          nginx_push)).Perm
        ((hub_watches.filter (fun w => reached .Docker "library/nginx" w.running)).map
          (fun w => (w.running, (Release.new "1.27.3").with_url
            (some (pushed_page "library/nginx" "1.27.3"))))) ∧
      hub_watches.filter (fun w => reached .Docker "library/nginx" w.running) =
        hub_watches.filter (polls_at .Docker "library/nginx" (source_target hub_nginx.provider)) := by
  obtain ⟨hperm, hplace⟩ := push_reaches_by_name parsers nginx_pushed hub_watches
  exact ⟨by decide +kernel, hperm, (hplace _).mpr (by decide +kernel)⟩

/-- A push of the Docker Hub's nginx reaches the watch of another registry's. -/
theorem a_push_reaches_another_registry :
    ([hub_nginx, ghcr_nginx].filter (polls_at .Docker "library/nginx"
        (source_target hub_nginx.provider))).map config.Watch.id = ["docker:library/nginx"] ∧
      (handed (ingest parsers .Docker
        (WatchIndex.new ([hub_nginx, ghcr_nginx].map config.Watch.running)) nginx_push)).map
          (fun x => x.1.provider.id) = ["docker:library/nginx", "ghcr:library/nginx"] := by
  refine ⟨by decide +kernel, ?_⟩
  rw [handed_pushed parsers nginx_pushed]
  decide +kernel

/-! ## A push of several tags -/

def is_tag (change : Option BitbucketRef) : Bool :=
  change.any (fun new_ref => new_ref.ref_type = some "tag")

/-- The tag that a change creates, where it has a name. -/
def created_tag (change : Option BitbucketRef) : Option String :=
  change.bind (fun new_ref =>
    if new_ref.ref_type = some "tag" then new_ref.name.filter not_blank else none)

/-- Each tag that the push creates is handed to the delivery. -/
def EveryTagHanded (payload : BitbucketPushWebhook) (outcome : Except ApiError Ingested) : Prop :=
  ∀ change ∈ payload.push.getD [], ∀ tag, created_tag change = some tag →
    ∃ x ∈ handed outcome, x.2.raw_tag = tag

/-- The first change of a tag creates the only tag that has a name. -/
def OneTag (changes : List (Option BitbucketRef)) : Prop :=
  ∀ change ∈ changes, ∀ tag, created_tag change = some tag →
    (changes.find? is_tag).bind created_tag = some tag

/-- Only the first change of a tag is looked at. -/
theorem tag_push_eq (repo : String) (changes : List (Option BitbucketRef)) :
    tag_push repo changes =
      match changes.find? is_tag with
      | none => .error (.Ignored "no tag push in repo:push changes")
      | some change =>
        match created_tag change with
        | none => .error (.BadRequest "missing tag name in push change")
        | some tag =>
          .ok (repo, (Release.new tag).with_url
            (change.bind (fun new_ref => new_ref.target.join.join.join))) := by
  induction changes with
  | nil => rfl
  | cons change rest ih =>
    cases change with
    | none => exact ih
    | some new_ref =>
      by_cases htag : new_ref.ref_type = some "tag"
      · have hfirst : is_tag (some new_ref) = true := by simp [is_tag, htag]
        rw [List.find?_cons_of_pos hfirst]
        simp only [tag_push, htag, created_tag, Option.bind_some, ne_eq, not_true_eq_false,
          if_false, if_true]
        cases new_ref.name.filter not_blank <;> rfl
      · have hnot : ¬ is_tag (some new_ref) = true := by simp [is_tag, htag]
        rw [List.find?_cons_of_neg hnot, ← ih]
        simp [tag_push, htag]

section
variable {Body : Type} (parsers : Parsers Body)

theorem handed_of_unmapped {index : WatchIndex}
    {mapped : Except WebhookPayloadError (String × Release)}
    {find_watches : WatchIndex → String → List Watch} {not_found : String → String}
    (h : mapped.toOption = none) :
    handed (ingest_mapped_release index mapped find_watches not_found) = [] := by
  cases mapped with
  | ok pair => cases h
  | error err => cases err <;> rfl

/-- The repository and the tag of a push of tags. -/
theorem into_release_tag (payload : BitbucketPushWebhook) :
    payload.into_release.toOption.map (fun x => (x.1, x.2.raw_tag)) =
      payload.repository.join.bind (fun repo =>
        (((payload.push.getD []).find? is_tag).bind created_tag).map (fun tag => (repo, tag))) := by
  cases hrepo : payload.repository.join with
  | none =>
    simp only [BitbucketPushWebhook.into_release, hrepo]
    rfl
  | some repo =>
    have hpush : payload.into_release = tag_push repo (payload.push.getD []) := by
      simp only [BitbucketPushWebhook.into_release, hrepo]
      rfl
    rw [hpush, tag_push_eq, Option.bind_some]
    cases hfind : (payload.push.getD []).find? is_tag with
    | none => rfl
    | some change =>
      rw [Option.bind_some]
      cases htag : created_tag change <;> simp only [htag] <;> rfl

/-- What a readable push of tags hands on. -/
theorem handed_bitbucket {request : Request Body} {payload : BitbucketPushWebhook}
    (h : parsers.bitbucket request.body = .ok payload) (watches : List Watch) :
    handed (ingest parsers .Bitbucket (WatchIndex.new watches) request) =
      if other_event request.headers = none then
        (payload.into_release.toOption.toList.flatMap (fun x =>
          (watches.filter (of_repo "bitbucket" x.1)).map (fun watch => (watch, x.2))))
      else [] := by
  cases hevent : other_event request.headers with
  | some event_key => simp [ingest, bitbucket, hevent, handed]
  | none =>
    have hingest : ingest parsers .Bitbucket (WatchIndex.new watches) request =
        ingest_mapped_release (WatchIndex.new watches) payload.into_release
          (fun index repo => index.find_repos "bitbucket" repo)
          (fun repo => "no configured bitbucket source for " ++ repo) := by
      simp only [ingest, bitbucket, hevent, h]
      rfl
    rw [hingest, if_pos rfl]
    cases hmapped : payload.into_release with
    | error err =>
      rw [handed_of_unmapped rfl]
      rfl
    | ok x =>
      have hsome : (Except.ok x : Except WebhookPayloadError (String × Release)).toOption =
          some (x.1, x.2) := rfl
      rw [handed_ingest_mapped hsome, find_repos_new]
      simp [Except.toOption]

/-- The one tag that a push hands on. -/
theorem tag_handed_iff {request : Request Body} {payload : BitbucketPushWebhook}
    (h : parsers.bitbucket request.body = .ok payload) (watches : List Watch) (tag : String) :
    (∃ x ∈ handed (ingest parsers .Bitbucket (WatchIndex.new watches) request),
        x.2.raw_tag = tag) ↔
      other_event request.headers = none ∧
      (∃ repo, payload.repository.join = some repo ∧ watches.any (of_repo "bitbucket" repo)) ∧
      ((payload.push.getD []).find? is_tag).bind created_tag = some tag := by
  rw [handed_bitbucket parsers h]
  by_cases hevent : other_event request.headers = none
  · rw [if_pos hevent]
    have hmapped := into_release_tag payload
    constructor
    · rintro ⟨⟨watch, release⟩, hx, rfl⟩
      obtain ⟨⟨repo, release'⟩, hrelease, hmem⟩ := List.mem_flatMap.mp hx
      obtain ⟨watch', hwatch, heq⟩ := List.mem_map.mp hmem
      obtain ⟨rfl, rfl⟩ := Prod.mk.inj heq
      rw [Option.mem_toList] at hrelease
      rw [hrelease, Option.map_some, eq_comm, Option.bind_eq_some_iff] at hmapped
      obtain ⟨repo', hrepo, htag⟩ := hmapped
      obtain ⟨tag, htag, heq⟩ := Option.map_eq_some_iff.mp htag
      obtain ⟨rfl, rfl⟩ := Prod.mk.inj heq
      refine ⟨hevent, ⟨repo', hrepo, ?_⟩, htag⟩
      exact List.any_eq_true.mpr ⟨watch', (List.mem_filter.mp hwatch).1,
        (List.mem_filter.mp hwatch).2⟩
    · rintro ⟨-, ⟨repo, hrepo, hany⟩, htag⟩
      obtain ⟨watch, hwatch, hof⟩ := List.any_eq_true.mp hany
      rw [hrepo, Option.bind_some, htag, Option.map_some] at hmapped
      obtain ⟨⟨repo', release⟩, hrelease, heq⟩ := Option.map_eq_some_iff.mp hmapped
      obtain ⟨rfl, rfl⟩ := Prod.mk.inj heq
      refine ⟨(watch, release), List.mem_flatMap.mpr ⟨(repo', release), ?_, ?_⟩, rfl⟩
      · exact Option.mem_toList.mpr hrelease
      · exact List.mem_map.mpr ⟨watch, List.mem_filter.mpr ⟨hwatch, hof⟩, rfl⟩
  · rw [if_neg hevent]
    simp [hevent]

/-- Each tag of a push is handed on exactly where it creates none, or else it is a push of a
watched repository whose first change of a tag creates the only one. -/
theorem every_tag_handed_iff {request : Request Body} {payload : BitbucketPushWebhook}
    (h : parsers.bitbucket request.body = .ok payload) (watches : List Watch) :
    EveryTagHanded payload (ingest parsers .Bitbucket (WatchIndex.new watches) request) ↔
      (∀ change ∈ payload.push.getD [], created_tag change = none) ∨
      (other_event request.headers = none ∧
        (∃ repo, payload.repository.join = some repo ∧
          watches.any (of_repo "bitbucket" repo)) ∧
        OneTag (payload.push.getD [])) := by
  unfold EveryTagHanded
  constructor
  · intro hall
    by_cases hnone : ∀ change ∈ payload.push.getD [], created_tag change = none
    · exact Or.inl hnone
    · simp only [not_forall] at hnone
      obtain ⟨change, hchange, hcreated⟩ := hnone
      obtain ⟨tag, htag⟩ := Option.ne_none_iff_exists'.mp hcreated
      obtain ⟨hevent, hwatched, -⟩ := (tag_handed_iff parsers h watches tag).mp
        (hall change hchange tag htag)
      refine Or.inr ⟨hevent, hwatched, ?_⟩
      intro change' hchange' tag' htag'
      exact ((tag_handed_iff parsers h watches tag').mp (hall change' hchange' tag' htag')).2.2
  · rintro (hnone | ⟨hevent, hwatched, hone⟩) change hchange tag htag
    · rw [hnone change hchange] at htag
      cases htag
    · exact (tag_handed_iff parsers h watches tag).mpr
        ⟨hevent, hwatched, hone change hchange tag htag⟩

end

/-! ## Two tags in one push -/

def tag_change (name : String) : Option BitbucketRef := some ⟨some "tag", some name, none⟩

/-- Bodies are their own documents here. -/
def bitbucket_parsers : Parsers BitbucketPushWebhook where
  gitea_compatible := fun _ => .error "missing field"
  gitlab := fun _ => .error "missing field"
  bitbucket := .ok
  docker := fun _ => .error "missing field"
  generic := fun _ => .error "missing field"
  rfc3339 := fun _ => none
  hmac_hex := fun _ _ => ""

def tags_pushed (names : List String) : Request BitbucketPushWebhook where
  headers := fun name => if name = "x-event-key" then .Text "repo:push" else .Absent
  body := ⟨some (names.map tag_change), some (some "acme/app")⟩

def acme_app : Watch :=
  (nginx_of "bitbucket:acme/app" (.Bitbucket { repo := "acme/app" })).running

/-- A branch moves, a ref is deleted, and one tag comes twice. -/
def mixed_changes : List (Option BitbucketRef) :=
  [some ⟨some "branch", some "main", none⟩, none, tag_change "v1.0.0", tag_change "v1.0.0"]

def mixed_push : Request BitbucketPushWebhook :=
  { tags_pushed [] with body := ⟨some mixed_changes, some (some "acme/app")⟩ }

theorem every_tag_handed_here :
    EveryTagHanded mixed_push.body
      (ingest bitbucket_parsers .Bitbucket (WatchIndex.new [acme_app]) mixed_push) := by
  have hone : ∀ change ∈ mixed_changes, ∀ tag, created_tag change = some tag → tag = "v1.0.0" := by
    decide +kernel
  refine (every_tag_handed_iff bitbucket_parsers rfl [acme_app]).mpr (Or.inr ⟨rfl, ?_, ?_⟩)
  · exact ⟨"acme/app", rfl, by decide +kernel⟩
  · intro change hchange tag htag
    obtain rfl := hone change hchange tag htag
    decide +kernel

/-- Of two tags in one push, the second is handed to nobody. -/
theorem the_second_tag_is_lost :
    ¬ EveryTagHanded (tags_pushed ["v1.0.0", "v2.0.0"]).body
      (ingest bitbucket_parsers .Bitbucket (WatchIndex.new [acme_app])
        (tags_pushed ["v1.0.0", "v2.0.0"])) := by
  intro h
  have hsecond : created_tag (tag_change "v2.0.0") = some "v2.0.0" := by decide +kernel
  obtain ⟨x, hx, htag⟩ := h (tag_change "v2.0.0") (by simp [tags_pushed]) "v2.0.0" hsecond
  have hfirst := ((tag_handed_iff bitbucket_parsers rfl [acme_app] "v2.0.0").mp
    ⟨x, hx, htag⟩).2.2
  have hother : ((tags_pushed ["v1.0.0", "v2.0.0"]).body.push.getD []).find? is_tag =
    some (tag_change "v1.0.0") := rfl
  rw [hother] at hfirst
  revert hfirst
  decide +kernel

end xrelease.webhook
