-- The index of the running watches (`watch_lookup.rs`): the watch of an id, and all watches of a
-- repository or of an image, which are found by their kind and their name alone.
import Xrelease.Payloads
import Xrelease.Positions

namespace xrelease.watch_lookup

open indexed xrelease.webhook_payload
open xrelease.pipeline (Watch)

/-! ## The index -/

/-- Container registry kinds, for the webhooks of images. -/
def CONTAINER_KINDS : List String := ["docker", "ghcr", "quay", "ecr"]

/-- The maps hold positions in the list of watches. -/
structure WatchIndex where
  watches : List Watch
  by_id : String → Option Nat
  by_repo : String × String → Option (List Nat)
  by_image : String → Option (String → Option (List Nat))

def WatchIndex.insert (index : WatchIndex) (watch : Watch) (idx : Nat) : WatchIndex :=
  let kind := watch.provider.kind
  let repo := normalise_repo watch.provider.display_name
  let image := normalise_image watch.provider.display_name
  { index with
    by_id := fun id => if id = watch.provider.id then some idx else index.by_id id
    by_repo := push index.by_repo (kind, repo) idx
    by_image :=
      if kind ∈ CONTAINER_KINDS then fun k =>
        if k = kind then some (push ((index.by_image k).getD (fun _ => none)) image idx)
        else index.by_image k
      else index.by_image }

/-- Build an index from the resolved watch list. -/
def WatchIndex.new (watches : List Watch) : WatchIndex :=
  watches.zipIdx.foldl (fun index entry => index.insert entry.1 entry.2)
    ⟨watches, fun _ => none, fun _ => none, fun _ => none⟩

def WatchIndex.indices_to_watches (index : WatchIndex) (indices : Option (List Nat)) :
    List Watch := elements index.watches (indices.getD [])

/-- Exact match on the id of a source. -/
def WatchIndex.find_by_id (index : WatchIndex) (source_id : String) : Option Watch :=
  (index.by_id source_id).bind (fun i => index.watches[i]?)

/-- Every watch of a repository for one kind. -/
def WatchIndex.find_repos (index : WatchIndex) (kind repo : String) : List Watch :=
  index.indices_to_watches (index.by_repo (kind, normalise_repo repo))

/-- Every watch of a repository across several kinds. -/
def WatchIndex.find_repos_any (index : WatchIndex) (kinds : List String) (repo : String) :
    List Watch :=
  kinds.flatMap (fun kind => index.indices_to_watches (index.by_repo (kind, normalise_repo repo)))

/-- Every watch of a container image across registry kinds. -/
def WatchIndex.find_images_any (index : WatchIndex) (kinds : List String) (image : String) :
    List Watch :=
  kinds.flatMap (fun kind =>
    index.indices_to_watches ((index.by_image kind).bind (· (normalise_image image))))

/-! ## What is found -/

def of_repo (kind repo : String) (watch : Watch) : Bool :=
  watch.provider.kind = kind && normalise_repo watch.provider.display_name = normalise_repo repo

/-- The maps hold the positions of the watches inserted so far. -/
structure Indexes (l : List Watch) (index : WatchIndex) : Prop where
  by_id : ∀ id, index.by_id id = (positions (fun w => w.provider.id = id) l).getLast?
  by_repo : ∀ kind repo, (index.by_repo (kind, repo)).getD [] =
    positions (fun w => w.provider.kind = kind && normalise_repo w.provider.display_name = repo) l
  by_image : ∀ kind image, ((index.by_image kind).bind (· image)).getD [] =
    positions (fun w => w.provider.kind ∈ CONTAINER_KINDS && (w.provider.kind = kind &&
      normalise_image w.provider.display_name = image)) l

theorem indexes_insert {l : List Watch} {index : WatchIndex} (h : Indexes l index)
    (watch : Watch) : Indexes (l ++ [watch]) (index.insert watch l.length) where
  by_id := by
    intro id
    rw [positions_snoc]
    simp only [WatchIndex.insert, h.by_id id]
    by_cases hid : id = watch.provider.id
    · simp [hid]
    · simp [hid, Ne.symm hid]
  by_repo := by
    intro kind repo
    rw [positions_snoc, ← h.by_repo kind repo]
    simp only [WatchIndex.insert, push_getD, Prod.mk.injEq]
    congr 1
    by_cases hkind : kind = watch.provider.kind <;>
      by_cases hrepo : repo = normalise_repo watch.provider.display_name <;>
        simp [hkind, hrepo, eq_comm]
  by_image := by
    intro kind image
    rw [positions_snoc, ← h.by_image kind image]
    by_cases hc : watch.provider.kind ∈ CONTAINER_KINDS
    · by_cases hkind : kind = watch.provider.kind
      · subst hkind
        simp only [WatchIndex.insert, hc, if_true, Option.bind_some, push_getD]
        by_cases himage : image = normalise_image watch.provider.display_name
        · cases index.by_image watch.provider.kind <;> simp [himage]
        · cases index.by_image watch.provider.kind <;> simp [himage, Ne.symm himage]
      · simp [WatchIndex.insert, hc, hkind, Ne.symm hkind]
    · simp [WatchIndex.insert, hc]

/-- No look-up misses a watch, and none is out of range. -/
theorem indexes_new (watches : List Watch) : Indexes watches (WatchIndex.new watches) := by
  unfold WatchIndex.new
  apply fold_keeps (fun l index => Indexes l index)
  · exact ⟨fun _ => rfl, fun _ _ => rfl, fun _ _ => rfl⟩
  · intro l a index h
    exact indexes_insert h a

theorem watches_new (watches : List Watch) : (WatchIndex.new watches).watches = watches := by
  unfold WatchIndex.new
  apply fold_keeps (fun _ (index : WatchIndex) => index.watches = watches)
  · rfl
  · intro l a index h
    exact h

theorem find_repos_new (watches : List Watch) (kind repo : String) :
    (WatchIndex.new watches).find_repos kind repo = watches.filter (of_repo kind repo) := by
  unfold WatchIndex.find_repos WatchIndex.indices_to_watches
  rw [(indexes_new watches).by_repo, watches_new, elements_positions]
  rfl

theorem find_repos_any_new (watches : List Watch) (kinds : List String) (repo : String) :
    (WatchIndex.new watches).find_repos_any kinds repo =
      kinds.flatMap (fun kind => watches.filter (of_repo kind repo)) := by
  unfold WatchIndex.find_repos_any
  congr 1
  funext kind
  exact find_repos_new watches kind repo

theorem find_images_any_new (watches : List Watch) (image : String) :
    (WatchIndex.new watches).find_images_any CONTAINER_KINDS image =
      CONTAINER_KINDS.flatMap (fun kind => watches.filter (of_repo kind image)) := by
  unfold WatchIndex.find_images_any WatchIndex.indices_to_watches
  apply List.flatMap_congr
  intro kind hkind
  rw [(indexes_new watches).by_image, watches_new, elements_positions]
  congr 1
  funext w
  by_cases h : w.provider.kind = kind
  · simp only [of_repo, h, hkind, decide_true, Bool.true_and]
    rfl
  · simp [of_repo, h]

end xrelease.watch_lookup
