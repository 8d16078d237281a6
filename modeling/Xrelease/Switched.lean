-- Switching between the REST list and the Atom feed: which published releases are built alike from
-- the two documents, so that a fallback or a change of token delivers nothing again.
import Xrelease.GiteaReleases

namespace xrelease.switched

open text xrelease.model xrelease.engine xrelease.sealed xrelease.gitea_releases
open xrelease.pipeline (should_deliver_cached)

/-! ## The law -/

/-- A release as its host publishes it, in the list and in the feed. -/
structure Published where
  api : ReleaseApi
  entry : Entry
  published : api.draft = false

/-- The replies of a host that publishes these releases; drafts of others may be in the list. -/
structure Serves (ps : List Published) (rest : Reply (List ReleaseApi))
    (atom : Reply (Option (List Entry))) : Prop where
  listed : ∀ raw etag, rest = .fresh raw etag →
    raw.filter (fun r => !r.draft) = ps.map Published.api
  fed : ∀ entries etag, atom = .fresh (some entries) etag → entries = ps.map Published.entry

section
variable (parse_rfc3339 : String → Option DateTime)

/-- Both documents give the same identities and fingerprints, and once the releases of one fetch
are seen, those of another are not delivered, whichever document either comes from. -/
structure SwitchesSilently (ps : List Published) : Prop where
  same : ∀ p ∈ ps, (entry_to_release p.entry).id = (api_to_release parse_rfc3339 p.api).id ∧
    (entry_to_release p.entry).content_fingerprint =
      (api_to_release parse_rfc3339 p.api).content_fingerprint
  quiet : ∀ (source source' : GiteaReleasesSource) (rest rest' : Reply (List ReleaseApi))
    (atom atom' : Reply (Option (List Entry))) (outcome outcome' : FetchOutcome)
    (exclude_updated : Bool) (seen : String → Option (Option String)),
    Serves ps rest atom → Serves ps rest' atom' →
    fetch parse_rfc3339 source rest atom = .ok outcome → outcome.not_modified = false →
    fetch parse_rfc3339 source' rest' atom' = .ok outcome' →
    (∀ r ∈ outcome.releases, seen r.id = some (some r.content_fingerprint)) →
    ∀ r ∈ outcome'.releases, should_deliver_cached r exclude_updated seen = false

end

/-- The notes that the list gives. -/
def notes (p : Published) : String := (p.api.body.filter (fun b => trim b ≠ "")).getD ""

/-- The link that the feed gives. -/
def link (p : Published) : String := p.entry.links.head?.getD ""

def hashed (body url : String) : UInt64 := sip13 (str_bytes body ++ str_bytes url)

/-- Different texts have the same hash of 64 bits. -/
def Collides (p : Published) : Prop :=
  (notes p ≠ "" ∨ link p ≠ p.api.html_url) ∧ hashed (notes p) p.api.html_url = hashed "" (link p)

/-- The feed names the release's tag and links to its page, and the release has no notes; a
collision of the hash aside. -/
def Agrees (p : Published) : Prop :=
  entry_tag p.entry = p.api.tag_name ∧
    ((notes p = "" ∧ link p = p.api.html_url) ∨ Collides p)

/-! ## The fingerprint as a text -/

def hex_value (s : List Char) : Nat :=
  s.foldl (fun n c => n * 16 + (if c.toNat < 58 then c.toNat - 48 else c.toNat - 87)) 0

theorem hex_value_append (s : List Char) (c : Char) :
    hex_value (s ++ [c]) =
      hex_value s * 16 + (if c.toNat < 58 then c.toNat - 48 else c.toNat - 87) := by
  unfold hex_value
  rw [List.foldl_append]
  rfl

theorem hex_value_digitChar : ∀ n < 16,
    (if n.digitChar.toNat < 58 then n.digitChar.toNat - 48 else n.digitChar.toNat - 87) = n := by
  decide

theorem hex_value_toDigits (n : Nat) : hex_value (Nat.toDigits 16 n) = n := by
  induction n using Nat.strongRecOn with
  | ind n ih =>
    by_cases h : n < 16
    · rw [Nat.toDigits_of_lt_base h]
      exact (hex_value_append [] _).trans (by rw [hex_value_digitChar n h]; simp [hex_value])
    · rw [Nat.toDigits_of_base_le (by omega) (by omega), hex_value_append, ih (n / 16) (by omega),
        hex_value_digitChar _ (by omega)]
      omega

theorem hex_value_zeros (k : Nat) (s : List Char) :
    hex_value (List.replicate k '0' ++ s) = hex_value s := by
  induction k with
  | zero => rfl
  | succ k ih =>
    rw [← ih]
    unfold hex_value
    rw [List.replicate_succ, List.cons_append, List.foldl_cons]
    rfl

theorem hex16_inj {m n : Nat} (h : hex16 m = hex16 n) : m = n := by
  unfold hex16 at h
  have hvalue := congrArg hex_value (String.ofList_injective h)
  unfold padLeft at hvalue
  rwa [hex_value_zeros, hex_value_zeros, hex_value_toDigits, hex_value_toDigits] at hvalue

/-- Equal fingerprints are equal hashes. -/
theorem fingerprint_eq_iff (r r' : Release) :
    r.content_fingerprint = r'.content_fingerprint ↔
      hashed (r.body.getD "") (r.url.getD "") = hashed (r'.body.getD "") (r'.url.getD "") := by
  unfold Release.content_fingerprint hashed
  constructor
  · intro h
    exact UInt64.toNat_inj.mp (hex16_inj h)
  · intro h
    rw [h]

/-! ## Both documents -/

section
variable {parse_rfc3339 : String → Option DateTime}

theorem same_iff (p : Published) :
    ((entry_to_release p.entry).id = (api_to_release parse_rfc3339 p.api).id ∧
      (entry_to_release p.entry).content_fingerprint =
        (api_to_release parse_rfc3339 p.api).content_fingerprint) ↔ Agrees p := by
  rw [fingerprint_eq_iff]
  have hentry : hashed ((entry_to_release p.entry).body.getD "")
      ((entry_to_release p.entry).url.getD "") = hashed "" (link p) := rfl
  have hapi : hashed ((api_to_release parse_rfc3339 p.api).body.getD "")
      ((api_to_release parse_rfc3339 p.api).url.getD "") =
        hashed (notes p) p.api.html_url := rfl
  rw [hentry, hapi]
  unfold Agrees Collides
  apply and_congr Iff.rfl
  by_cases htexts : notes p = "" ∧ link p = p.api.html_url
  · simp [htexts]
  · constructor
    · intro h
      refine Or.inr ⟨?_, h.symm⟩
      rcases not_and_or.mp htexts with hnotes | hlink
      · exact Or.inl hnotes
      · exact Or.inr hlink
    · rintro (h | ⟨-, h⟩)
      · exact absurd h htexts
      · exact h.symm

variable {source : GiteaReleasesSource} {rest : Reply (List ReleaseApi)}
  {atom : Reply (Option (List Entry))} {outcome : FetchOutcome} {ps : List Published}

/-- A fetch answers with one of the two documents. -/
theorem fetch_from (h : fetch parse_rfc3339 source rest atom = .ok outcome) :
    fetch_rest parse_rfc3339 source rest = .ok outcome ∨ fetch_atom source atom = .ok outcome := by
  unfold fetch at h
  split at h
  · split at h
    · rename_i found hfound
      rw [hfound]
      exact Or.inl h
    · split at h
      · exact Or.inr h
      · simp at h
    · simp at h
  · exact Or.inr h

/-- Nothing is built of a list that did not change, and every published release of a fresh one. -/
theorem rest_releases (hserves : Serves ps rest atom)
    (h : fetch_rest parse_rfc3339 source rest = .ok outcome) :
    outcome.releases =
      if outcome.not_modified then []
      else ps.map (fun p => api_to_release parse_rfc3339 p.api) := by
  unfold fetch_rest at h
  split at h
  · simp at h
  · simp at h
  · obtain rfl := Except.ok.inj h
    rfl
  · rename_i raw etag
    obtain rfl := Except.ok.inj h
    simp only [fresh, hserves.listed raw etag rfl, List.map_map]
    rfl

theorem atom_releases (hserves : Serves ps rest atom) (h : fetch_atom source atom = .ok outcome) :
    outcome.releases =
      if outcome.not_modified then [] else ps.map (fun p => entry_to_release p.entry) := by
  unfold fetch_atom at h
  split at h
  · simp at h
  · simp at h
  · obtain rfl := Except.ok.inj h
    rfl
  · simp at h
  · rename_i entries etag
    obtain rfl := Except.ok.inj h
    simp only [fresh, hserves.fed entries etag rfl, List.map_map]
    rfl

theorem fetch_releases (hserves : Serves ps rest atom)
    (h : fetch parse_rfc3339 source rest atom = .ok outcome) :
    (outcome.releases =
        if outcome.not_modified then []
        else ps.map (fun p => api_to_release parse_rfc3339 p.api)) ∨
      outcome.releases =
        if outcome.not_modified then [] else ps.map (fun p => entry_to_release p.entry) := by
  rcases fetch_from h with hrest | hatom
  · exact Or.inl (rest_releases hserves hrest)
  · exact Or.inr (atom_releases hserves hatom)

theorem undelivered {r : Release} {seen : String → Option (Option String)}
    (h : seen r.id = some (some r.content_fingerprint)) (exclude_updated : Bool) :
    should_deliver_cached r exclude_updated seen = false := by
  unfold should_deliver_cached
  rw [h]
  cases exclude_updated <;> simp

theorem quiet_of_same (hsame : ∀ p ∈ ps,
      (entry_to_release p.entry).id = (api_to_release parse_rfc3339 p.api).id ∧
        (entry_to_release p.entry).content_fingerprint =
          (api_to_release parse_rfc3339 p.api).content_fingerprint) :
    SwitchesSilently parse_rfc3339 ps := by
  refine ⟨hsame, ?_⟩
  intro source source' rest rest' atom atom' outcome outcome' exclude_updated seen hserves hserves'
    hfetch hfresh hfetch' hseen r hr
  -- what is seen of a published release does not depend on the document
  have hboth : ∀ p ∈ ps,
      seen (api_to_release parse_rfc3339 p.api).id =
          some (some (api_to_release parse_rfc3339 p.api).content_fingerprint) ∧
        seen (entry_to_release p.entry).id =
          some (some (entry_to_release p.entry).content_fingerprint) := by
    intro p hp
    obtain ⟨hid, hfingerprint⟩ := hsame p hp
    have hreleases := fetch_releases hserves hfetch
    rw [hfresh] at hreleases
    rcases hreleases with hreleases | hreleases
    · have hone := hseen (api_to_release parse_rfc3339 p.api) (by
        rw [hreleases]
        exact List.mem_map.mpr ⟨p, hp, rfl⟩)
      rw [hid, hfingerprint]
      exact ⟨hone, hone⟩
    · have hone := hseen (entry_to_release p.entry) (by
        rw [hreleases]
        exact List.mem_map.mpr ⟨p, hp, rfl⟩)
      rw [← hid, ← hfingerprint]
      exact ⟨hone, hone⟩
  apply undelivered
  rcases fetch_releases hserves' hfetch' with hreleases | hreleases
  · rw [hreleases] at hr
    split at hr
    · simp at hr
    · obtain ⟨p, hp, rfl⟩ := List.mem_map.mp hr
      exact (hboth p hp).1
  · rw [hreleases] at hr
    split at hr
    · simp at hr
    · obtain ⟨p, hp, rfl⟩ := List.mem_map.mp hr
      exact (hboth p hp).2

end

/-- Switching is silent exactly where every published release agrees in the two documents. -/
theorem switches_silently_iff (parse_rfc3339 : String → Option DateTime) (ps : List Published) :
    SwitchesSilently parse_rfc3339 ps ↔ ∀ p ∈ ps, Agrees p := by
  constructor
  · intro h p hp
    exact (same_iff p).mp (h.same p hp)
  · intro h
    exact quiet_of_same fun p hp => (same_iff p).mpr (h p hp)

/-! ## A token that expires -/

/-- A release with notes, by its page. -/
def documented : Published where
  api := ⟨"v1", "https://github.com/o/r/releases/tag/v1", some "Notes.", none, false, false⟩
  entry := ⟨["https://github.com/o/r/releases/tag/v1"], some "v1", "1", none, none⟩
  published := rfl

def watched : GiteaReleasesSource := .github "github:o/r" "o/r" (some "token")

/-- The release is seen from the list; the token is refused and the feed makes it deliverable. -/
theorem a_refused_token_delivers_again :
    ¬ SwitchesSilently (fun _ => none) [documented] ∧
      (fetch (fun _ => none) watched (.fresh [documented.api] none) .failed).map
        (fun outcome => outcome.releases) = .ok [api_to_release (fun _ => none) documented.api] ∧
      (fetch (fun _ => none) watched (.refused 401) (.fresh (some [documented.entry]) none)).map
        (fun outcome => outcome.releases.map (fun r => should_deliver_cached r false
          (fun id => if id = "v1" then
            some (some (api_to_release (fun _ => none) documented.api).content_fingerprint)
          else none))) = .ok [true] := by
  refine ⟨?_, by decide +kernel, by decide +kernel⟩
  intro h
  have hsame := (h.same documented List.mem_cons_self).2
  exact absurd hsame (by decide +kernel)

end xrelease.switched
