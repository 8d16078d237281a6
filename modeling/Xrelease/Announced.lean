-- A release that is pushed and polled: for each provider, which releases are built alike from the
-- push payload and from the list, so that in whatever order the two arrive the release is put into
-- the outbox at most once.
import Xrelease.Arrivals
import Xrelease.Payloads
import Xrelease.Switched

namespace xrelease.announced

open text xrelease.model xrelease.store xrelease.engine xrelease.recorded xrelease.pipeline
open xrelease.gitea_releases
open xrelease.webhook_payload xrelease.arrivals
open xrelease.switched (hashed fingerprint_eq_iff)

/-! ## The law -/

/-- The releases that have the pushed one's identity are the pushed one or the listed one. -/
def Brings (pushed listed : Release) : Arrival → Prop
  | .push _ _ release _ => release.id = pushed.id → release = pushed ∨ release = listed
  | .poll _ _ _ os => ∀ n outcome, (os n).fetch = .ok outcome →
      ∀ r ∈ outcome.releases, r.id = pushed.id → r = pushed ∨ r = listed
  | .other _ _ _ _ => True

/-- Same identity, same fingerprint, and put into the outbox at most once. -/
structure SeesOneRelease (pushed listed : Release) : Prop where
  id : pushed.id = listed.id
  fingerprint : pushed.content_fingerprint = listed.content_fingerprint
  once : ∀ (source_id : String) (s : World) (arrivals : List Arrival), OneRow s.db →
    (∀ arrival ∈ arrivals, Brings pushed listed arrival) →
    times_enqueued source_id pushed.id (arrivals.foldl arrive s) ≤
      times_enqueued source_id pushed.id s + 1

/-! ## The documents -/

/-- What is read with libraries: dates, and the Docker Hub's dates of tags. -/
structure Dates where
  parse_rfc3339 : String → Option DateTime
  timestamp_millis : Int → Option DateTime
  hub_pushed : String → Option DateTime

/-- A push payload, and what the provider's poll builds a release of. -/
inductive Documents where
  | rest (payload : GiteaCompatibleWebhook) (api : ReleaseApi)
  | atom (payload : GiteaCompatibleWebhook) (entry : Entry)
  | gitlab (payload : GitlabWebhook) (api : GitlabReleaseApi)
  | bitbucket_cloud (payload : BitbucketPushWebhook) (source : BitbucketSource)
      (entry : CloudTagEntry)
  | bitbucket_server (payload : BitbucketPushWebhook) (source : BitbucketSource)
      (entry : ServerTagEntry)
  | docker (payload : DockerPushWebhook) (source : DockerSource) (tag : String)

def Documents.push (dates : Dates) : Documents → Except WebhookPayloadError (String × Release)
  | .rest payload _ => payload.into_release dates.parse_rfc3339
  | .atom payload _ => payload.into_release dates.parse_rfc3339
  | .gitlab payload _ => payload.into_release dates.parse_rfc3339
  | .bitbucket_cloud payload _ _ => payload.into_release
  | .bitbucket_server payload _ _ => payload.into_release
  | .docker payload _ _ => payload.into_release

def Documents.poll (dates : Dates) : Documents → Release
  | .rest _ api => api_to_release dates.parse_rfc3339 api
  | .atom _ entry => entry_to_release entry
  | .gitlab _ api => gitlab_release dates.parse_rfc3339 api
  | .bitbucket_cloud _ source entry => source.cloud_tag_to_release dates.parse_rfc3339 entry
  | .bitbucket_server _ source entry => source.server_tag_to_release dates.timestamp_millis entry
  | .docker _ source tag => source.tag_to_release dates.hub_pushed tag

/-- The tag that a push of the Bitbucket is about. -/
def pushed_ref (payload : BitbucketPushWebhook) : Option BitbucketRef :=
  ((payload.push.getD []).filterMap (fun change => change)).find? (fun r => r.ref_type = some "tag")

/-- The link that a push of the Bitbucket gives, the page of the commit. -/
def commit_page (payload : BitbucketPushWebhook) : String :=
  ((pushed_ref payload).bind (fun r => r.target.join.join.join)).getD ""

def pushed_image (payload : DockerPushWebhook) : Option String :=
  payload.repository.bind (fun r => r.repo_name.or r.name)

/-- Both documents tell of the same release: hosts with releases give it the same page and notes
in both, hosts with tags the same tag of the same repository or image. -/
def Documents.Same : Documents → Prop
  | .rest payload api => ∃ r, payload.release = some r ∧ r.tag_name = api.tag_name ∧
      r.html_url = some api.html_url ∧ r.body = api.body
  | .atom payload entry => ∃ r, payload.release = some r ∧ r.html_url = entry.links.head?
  | .gitlab payload api => payload.tag.or payload.name = some api.tag_name ∧
      payload.url = api.links.join ∧ payload.description = api.description
  | .bitbucket_cloud payload source entry =>
      (∃ r, pushed_ref payload = some r ∧ r.name = some entry.name) ∧
        payload.repository.join.map normalise_repo = some (normalise_repo source.repo)
  | .bitbucket_server payload source entry =>
      (∃ r, pushed_ref payload = some r ∧ r.name = some entry.display_id) ∧
        payload.repository.join.map normalise_repo = some (normalise_repo source.repo)
  | .docker payload source tag => payload.push_data.join = some tag ∧
      (pushed_image payload).map normalise_image = some (normalise_image source.image)

/-- One release, as it is pushed and as it is listed. -/
structure Upstream (dates : Dates) where
  documents : Documents
  repo : String
  pushed : Release
  parses : documents.push dates = .ok (repo, pushed)
  same : documents.Same

def Upstream.listed {dates : Dates} (u : Upstream dates) : Release := u.documents.poll dates

/-! ## When they agree -/

/-- Notes and link are the same, or they have the same hash of 64 bits. -/
def Coincide (body url body' url' : String) : Prop :=
  (body = body' ∧ url = url') ∨
    ((body ≠ body' ∨ url ≠ url') ∧ hashed body url = hashed body' url')

/-- The notes of a pushed release. -/
def notes (r : GiteaCompatibleRelease) : String := (r.body.filter not_blank).getD ""

/-- The list of releases agrees with the push. The feed does where it names the tag and the
release has no notes; the tags of the Bitbucket where they link to the page of the commit; a
registry where its page of the tag is the Docker Hub's page of the image and tag as pushed. -/
def Documents.Alike : Documents → Prop
  | .rest _ _ => True
  | .atom payload entry => ∀ r, payload.release = some r → r.tag_name = entry_tag entry ∧
      Coincide (notes r) (r.html_url.getD "") "" (r.html_url.getD "")
  | .gitlab _ _ => True
  | .bitbucket_cloud payload source entry =>
      Coincide "" (commit_page payload) "" (source.cloud_tag_page entry)
  | .bitbucket_server payload source entry =>
      Coincide "" (commit_page payload) "" (source.server_tag_page entry.display_id)
  | .docker payload source tag => ∀ image, pushed_image payload = some image →
      Coincide "" (pushed_page image tag) "" (source.release_page_url tag)

theorem coincide_iff (body url body' url' : String) :
    Coincide body url body' url' ↔ hashed body url = hashed body' url' := by
  unfold Coincide
  constructor
  · rintro (⟨rfl, rfl⟩ | ⟨-, h⟩)
    · rfl
    · exact h
  · intro h
    by_cases hsame : body = body' ∧ url = url'
    · exact Or.inl hsame
    · exact Or.inr ⟨not_and_or.mp hsame, h⟩

/-! ## Either order -/

theorem gives_of_brings {pushed listed : Release} {arrival : Arrival}
    (hfingerprint : pushed.content_fingerprint = listed.content_fingerprint)
    (h : Brings pushed listed arrival) :
    arrival.gives pushed.id pushed.content_fingerprint := by
  have hone : ∀ r, r = pushed ∨ r = listed →
      r.content_fingerprint = pushed.content_fingerprint := by
    rintro r (rfl | rfl)
    · rfl
    · exact hfingerprint.symm
  cases arrival with
  | push w watches release os => exact fun hid => hone release (h hid)
  | poll w watch force_fetch os =>
    exact fun n outcome hfetch r hr hid => hone r (h n outcome hfetch r hr hid)
  | other w op o hop => trivial

theorem sees_iff (pushed listed : Release) :
    SeesOneRelease pushed listed ↔ pushed.id = listed.id ∧
      hashed (pushed.body.getD "") (pushed.url.getD "") =
        hashed (listed.body.getD "") (listed.url.getD "") := by
  rw [← fingerprint_eq_iff]
  constructor
  · exact fun h => ⟨h.id, h.fingerprint⟩
  · rintro ⟨hid, hfingerprint⟩
    refine ⟨hid, hfingerprint, ?_⟩
    intro source_id s arrivals hone hall
    exact enqueued_at_most_once source_id hone
      (fun arrival ha => gives_of_brings hfingerprint (hall arrival ha))

/-! ## What the parsers build -/

variable {repo : String} {release : Release}

theorem gitea_parts {parse_rfc3339 : String → Option DateTime} {payload : GiteaCompatibleWebhook}
    (h : payload.into_release parse_rfc3339 = .ok (repo, release)) :
    ∃ r, payload.release = some r ∧ release = r.into_release parse_rfc3339 := by
  unfold GiteaCompatibleWebhook.into_release at h
  split at h
  · simp at h
  · cases hrelease : payload.release with
    | none => simp [hrelease, ok_or, bind, Except.bind] at h
    | some r =>
      refine ⟨r, rfl, ?_⟩
      simp only [hrelease, ok_or, bind, Except.bind] at h
      split at h
      · simp at h
      · split at h
        · simp at h
        · exact (Prod.mk.inj (Except.ok.inj h)).2.symm

theorem gitlab_parts {parse_rfc3339 : String → Option DateTime} {payload : GitlabWebhook}
    (h : payload.into_release parse_rfc3339 = .ok (repo, release)) :
    payload.tag.or payload.name = some release.id ∧
      release.body.getD "" = (payload.description.filter not_blank).getD "" ∧
      release.url.getD "" = payload.url.getD "" ∧
      release.published_at = payload.released_at.bind parse_rfc3339 := by
  unfold GitlabWebhook.into_release at h
  split at h
  · simp at h
  · cases hproject : payload.project with
    | none => simp [hproject, ok_or, bind, Except.bind] at h
    | some project =>
      cases htag : payload.tag.or payload.name with
      | none => simp [hproject, htag, ok_or, bind, Except.bind] at h
      | some tag =>
        simp only [hproject, htag, ok_or, bind, Except.bind] at h
        obtain rfl := (Prod.mk.inj (Except.ok.inj h)).2
        cases payload.url <;> cases payload.description.filter not_blank <;>
          cases payload.released_at.bind parse_rfc3339 <;> exact ⟨rfl, rfl, rfl, rfl⟩

theorem tag_push_parts {repo' : String} {changes : List (Option BitbucketRef)}
    (h : tag_push repo changes = .ok (repo', release)) :
    ∃ r, (changes.filterMap (fun change => change)).find? (fun r => r.ref_type = some "tag") =
      some r ∧ r.name = some release.id ∧ release.body = none ∧
        release.url = r.target.join.join.join ∧ release.published_at = none := by
  induction changes with
  | nil => simp [tag_push] at h
  | cons change rest ih =>
    cases change with
    | none => exact ih h
    | some r =>
      unfold tag_push at h
      by_cases htag : r.ref_type = some "tag"
      · refine ⟨r, by simp [htag], ?_⟩
        rw [if_neg (by simp [htag])] at h
        cases hname : r.name.filter not_blank with
        | none => simp [hname, ok_or, bind, Except.bind] at h
        | some tag =>
          simp only [hname, ok_or, bind, Except.bind] at h
          obtain rfl := (Prod.mk.inj (Except.ok.inj h)).2
          exact ⟨(Option.filter_eq_some_iff.mp hname).1, rfl, rfl, rfl⟩
      · rw [if_pos htag] at h
        obtain ⟨r', hfind, hrest⟩ := ih h
        exact ⟨r', by simpa [htag] using hfind, hrest⟩

theorem bitbucket_parts {payload : BitbucketPushWebhook}
    (h : payload.into_release = .ok (repo, release)) :
    ∃ r, pushed_ref payload = some r ∧ r.name = some release.id ∧ release.body = none ∧
      release.url.getD "" = commit_page payload ∧ release.published_at = none := by
  unfold BitbucketPushWebhook.into_release at h
  cases hrepo : payload.repository.join with
  | none => simp [hrepo, ok_or, bind, Except.bind] at h
  | some repo' =>
    simp only [hrepo, ok_or, bind, Except.bind] at h
    obtain ⟨r, hfind, hname, hbody, hurl, hpublished⟩ := tag_push_parts h
    refine ⟨r, hfind, hname, hbody, ?_, hpublished⟩
    have href : pushed_ref payload = some r := hfind
    unfold commit_page
    rw [href, hurl]
    rfl

theorem docker_parts {payload : DockerPushWebhook}
    (h : payload.into_release = .ok (repo, release)) :
    payload.push_data.join = some release.id ∧ pushed_image payload = some repo ∧
      release.body = none ∧ release.url = some (pushed_page repo release.id) ∧
      release.published_at = none := by
  unfold DockerPushWebhook.into_release at h
  cases hpush : payload.push_data with
  | none => simp [hpush, ok_or, bind, Except.bind] at h
  | some push =>
    cases htag : push.filter not_blank with
    | none => simp [hpush, htag, ok_or, bind, Except.bind] at h
    | some tag =>
      cases himage : pushed_image payload with
      | none =>
        unfold pushed_image at himage
        simp [hpush, htag, himage, ok_or, bind, Except.bind] at h
      | some image =>
        have himage' := himage
        unfold pushed_image at himage'
        simp only [hpush, htag, himage', ok_or, bind, Except.bind] at h
        obtain ⟨rfl, rfl⟩ := Prod.mk.inj (Except.ok.inj h)
        exact ⟨(Option.filter_eq_some_iff.mp htag).1, rfl, rfl, rfl, rfl⟩

/-- Whatever dates a listed tag is given. -/
theorem listed_tag (source : DockerSource) (dates : String → Option DateTime) (tag : String) :
    (source.tag_to_release dates tag).id = tag ∧ (source.tag_to_release dates tag).body = none ∧
      (source.tag_to_release dates tag).url = some (source.release_page_url tag) := by
  unfold DockerSource.tag_to_release
  dsimp only
  split
  · cases dates ((Release.new tag).with_url (some (source.release_page_url tag))).id <;>
      exact ⟨rfl, rfl, rfl⟩
  · exact ⟨rfl, rfl, rfl⟩

/-- An empty link is no link. -/
theorem gitlab_link (link : Option String) :
    (link.filter (fun s => s ≠ "")).getD "" = link.getD "" := by
  cases link with
  | none => rfl
  | some s =>
    by_cases hs : s = ""
    · simp [Option.filter, hs]
    · simp [Option.filter, hs]

/-! ## Each provider -/

section
variable {dates : Dates}

theorem agree_iff (u : Upstream dates) :
    (u.pushed.id = u.listed.id ∧
      hashed (u.pushed.body.getD "") (u.pushed.url.getD "") =
        hashed (u.listed.body.getD "") (u.listed.url.getD "")) ↔ u.documents.Alike := by
  obtain ⟨documents, repo, release, hparses, hsame⟩ := u
  unfold Upstream.listed
  cases documents with
  | rest payload api =>
    obtain ⟨r, hr, rfl⟩ := gitea_parts hparses
    obtain ⟨r', hr', htag, hurl, hbody⟩ := hsame
    obtain rfl := Option.some.inj (hr.symm.trans hr')
    refine iff_of_true ⟨htag, ?_⟩ trivial
    have hnotes : ((r.into_release dates.parse_rfc3339).body.getD "") =
        (api.body.filter not_blank).getD "" := by
      rw [← hbody]
      rfl
    have hlink : ((r.into_release dates.parse_rfc3339).url.getD "") = api.html_url := by
      have hinto : (r.into_release dates.parse_rfc3339).url = r.html_url := rfl
      rw [hinto, hurl]
      rfl
    rw [hnotes, hlink]
    rfl
  | atom payload entry =>
    obtain ⟨r, hr, rfl⟩ := gitea_parts hparses
    obtain ⟨r', hr', hurl⟩ := hsame
    obtain rfl := Option.some.inj (hr.symm.trans hr')
    have hlisted : hashed ((entry_to_release entry).body.getD "")
        ((entry_to_release entry).url.getD "") = hashed "" (r.html_url.getD "") := by
      rw [hurl]
      rfl
    change (r.tag_name = entry_tag entry ∧
      hashed (notes r) (r.html_url.getD "") = hashed ((entry_to_release entry).body.getD "")
        ((entry_to_release entry).url.getD "")) ↔ _
    rw [hlisted, ← coincide_iff]
    constructor
    · rintro h r' hr'
      obtain rfl := Option.some.inj (hr.symm.trans hr')
      exact h
    · intro h
      exact h r hr
  | gitlab payload api =>
    obtain ⟨htag, hbody, hurl, -⟩ := gitlab_parts hparses
    obtain ⟨htag', hurl', hbody'⟩ := hsame
    refine iff_of_true ⟨Option.some.inj (htag.symm.trans htag'), ?_⟩ trivial
    change hashed (release.body.getD "") (release.url.getD "") =
      hashed ((api.description.filter not_blank).getD "")
        ((api.links.join.filter (fun s => s ≠ "")).getD "")
    rw [hbody, hurl, gitlab_link, hurl', hbody']
  | bitbucket_cloud payload source entry =>
    obtain ⟨r, hr, hname, hbody, hurl, -⟩ := bitbucket_parts hparses
    obtain ⟨⟨r', hr', hname'⟩, -⟩ := hsame
    obtain rfl := Option.some.inj (hr.symm.trans hr')
    dsimp only
    rw [hbody, hurl]
    change _ ↔ Coincide "" (commit_page payload) "" (source.cloud_tag_page entry)
    rw [coincide_iff]
    exact and_iff_right (Option.some.inj (hname.symm.trans hname'))
  | bitbucket_server payload source entry =>
    obtain ⟨r, hr, hname, hbody, hurl, -⟩ := bitbucket_parts hparses
    obtain ⟨⟨r', hr', hname'⟩, -⟩ := hsame
    obtain rfl := Option.some.inj (hr.symm.trans hr')
    dsimp only
    rw [hbody, hurl]
    change _ ↔ Coincide "" (commit_page payload) "" (source.server_tag_page entry.display_id)
    rw [coincide_iff]
    exact and_iff_right (Option.some.inj (hname.symm.trans hname'))
  | docker payload source tag =>
    obtain ⟨htag, himage, hbody, hurl, -⟩ := docker_parts hparses
    obtain ⟨htag', -⟩ := hsame
    obtain rfl := Option.some.inj (htag.symm.trans htag')
    obtain ⟨hid, hbody', hurl'⟩ := listed_tag source dates.hub_pushed release.id
    unfold Documents.poll Documents.Alike
    rw [hid, hbody, hurl, hbody', hurl']
    constructor
    · rintro ⟨-, h⟩ image hi
      obtain rfl := Option.some.inj (himage.symm.trans hi)
      exact (coincide_iff _ _ _ _).mpr h
    · intro h
      exact ⟨rfl, (coincide_iff _ _ _ _).mp (h repo himage)⟩

end

/-- A release that is pushed and polled is one release exactly where the documents agree. -/
theorem sees_one_release_iff (dates : Dates) (u : Upstream dates) :
    SeesOneRelease u.pushed u.listed ↔ u.documents.Alike := by
  rw [sees_iff]
  exact agree_iff u

/-! ## Registries that are not the Docker Hub -/

/-! ## A tag of the Bitbucket -/

/-- The push links to the page of the commit, the list to the page of the tag. -/
def tagged : Documents :=
  .bitbucket_cloud
    ⟨some [some ⟨some "tag", some "1.2.3", some (some (some (some
      "https://bitbucket.org/atlassian/python-bitbucket/commits/tag/1.2.3")))⟩],
      some (some "atlassian/python-bitbucket")⟩
    ⟨"atlassian/python-bitbucket", "https://bitbucket.org"⟩
    ⟨"1.2.3", none,
      some (some (some "https://bitbucket.org/atlassian/python-bitbucket/src/1.2.3"))⟩

def dateless : Dates := ⟨fun _ => none, fun _ => none, fun _ => none⟩

def tagged_upstream : Upstream dateless where
  documents := tagged
  repo := "atlassian/python-bitbucket"
  pushed := (Release.new "1.2.3").with_url
    (some "https://bitbucket.org/atlassian/python-bitbucket/commits/tag/1.2.3")
  parses := by decide +kernel
  same := ⟨⟨_, rfl, rfl⟩, rfl⟩

def bitbucket_watch : Watch :=
  ⟨⟨"bitbucket:atlassian/python-bitbucket", "bitbucket", "Bitbucket",
    "atlassian/python-bitbucket"⟩, delivered.every, none, none⟩

def lists (releases : List Release) : Nat → Oracle :=
  fun _ => { fetch := .ok ⟨false, none, releases⟩ }

/-- The source is known, and then the tag is pushed and polled. -/
def first_contact : Arrival := .poll 0 bitbucket_watch false (lists [])

def pushed_tag : Arrival := .push 0 [bitbucket_watch] tagged_upstream.pushed (fun _ => {})

def polled_tag : Arrival := .poll 0 bitbucket_watch false (lists [tagged_upstream.listed])

def times (arrivals : List Arrival) : Nat :=
  times_enqueued "bitbucket:atlassian/python-bitbucket" "1.2.3"
    (arrivals.foldl arrive (World.start Db.empty 0 [delivered.hook]))

/-- The tag is put into the outbox twice, in either order. -/
theorem a_tag_is_enqueued_twice :
    ¬ SeesOneRelease tagged_upstream.pushed tagged_upstream.listed ∧
      times [first_contact, pushed_tag, polled_tag] = 2 ∧
      times [first_contact, polled_tag, pushed_tag] = 2 := by
  refine ⟨?_, by decide +kernel, by decide +kernel⟩
  intro h
  exact absurd h.fingerprint (by decide +kernel)

end xrelease.announced
