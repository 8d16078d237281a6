-- The keys that bearer tokens are verified with (`api/oidc.rs`): they are fetched at startup and
-- by a task that looks every 30 seconds whether they are stale, from an address that is configured
-- or discovered once. What the identity provider answers comes from outside; an answer that does
-- not come, or cannot be read, is none. Times are in seconds.
import Xrelease.Sessions
import Xrelease.Trace

namespace xrelease.auth

open text trace xrelease.config

def JWKS_REFRESH_INTERVAL : Nat := 300

/-- What the identity provider answers when it is asked. -/
structure Provided where
  /-- The `jwks_uri` of the discovery document. -/
  discovery : Option String
  jwks : String → Option (List Jwk)

/-- What of the validator changes. -/
structure CachedJwks where
  jwks_uri : Option String
  set : List Jwk := []
  /-- The time of the last successful fetch. -/
  fetched_at : Option Nat := none
deriving DecidableEq

/-- One look of the task: when it comes, and when the answers would be there. -/
structure Look where
  now : Nat
  answered : Nat
  provided : Provided

namespace CachedJwks

/-- `config.jwks_uri`, unless it is empty. -/
def of_config (jwks_uri : Option String) : CachedJwks where
  jwks_uri := (jwks_uri.filter (· ≠ "")).map trim

def resolve_jwks_uri (provided : Provided) (cache : CachedJwks) : Option String :=
  match cache.jwks_uri with
  | some uri => some uri
  | none => provided.discovery

/-- Fetch the keys; a failure leaves those that there are. -/
def refresh_now (look : Look) (cache : CachedJwks) : CachedJwks :=
  match cache.resolve_jwks_uri look.provided with
  | none => cache
  | some uri =>
    match look.provided.jwks uri with
    | none => { cache with jwks_uri := some uri }
    | some jwks => { jwks_uri := some uri, set := jwks, fetched_at := some look.answered }

/-- `fetched_at.is_none_or(|at| at.elapsed() >= JWKS_REFRESH_INTERVAL)`. -/
def stale (now : Nat) (cache : CachedJwks) : Bool :=
  cache.fetched_at.all (fun fetched_at => JWKS_REFRESH_INTERVAL ≤ now - fetched_at)

end CachedJwks

/-- The validator with the keys as they are. -/
def OidcValidator.with_keys (validator : OidcValidator) (cache : CachedJwks) : OidcValidator :=
  { validator with jwks := cache.set }

/-! ## Runs -/

/-- A fetch that succeeded: by which look, from where, and the keys. -/
structure Fetched where
  look : Look
  uri : String
  set : List Jwk

/-- The keys, and the fetches that succeeded so far, newest first. -/
structure Fetching where
  cache : CachedJwks
  log : List Fetched := []

/-- What a refresh fetches, if it succeeds. -/
def CachedJwks.fetch (look : Look) (cache : CachedJwks) : Option Fetched :=
  (cache.resolve_jwks_uri look.provided).bind (fun uri =>
    (look.provided.jwks uri).map (fun jwks => ⟨look, uri, jwks⟩))

namespace Fetching

/-- `CachedJwks.refresh_now`, and the fetch in the log. -/
def refresh_now (f : Fetching) (look : Look) : Fetching where
  cache := f.cache.refresh_now look
  log := (f.cache.fetch look).toList ++ f.log

/-- A look of the task: it fetches when no fetch has succeeded for the last five minutes. -/
def refresh_if_stale (f : Fetching) (look : Look) : Fetching :=
  if f.cache.stale look.now then f.refresh_now look else f

/-- `try_from_config`: the first fetch, whatever comes of it. -/
def try_from_config (jwks_uri : Option String) (first : Look) : Fetching :=
  refresh_now { cache := .of_config jwks_uri } first

end Fetching

/-! ## What the cache holds -/

/-- The cache is what was fetched last, and the fetches have one address. -/
structure HoldsLast (f : Fetching) : Prop where
  set : f.cache.set = (f.log.head?.map Fetched.set).getD []
  fetched_at : f.cache.fetched_at = f.log.head?.map (fun fetched => fetched.look.answered)
  /-- One address has answered. -/
  uri : ∀ fetched ∈ f.log, f.cache.jwks_uri = some fetched.uri
  /-- The answers are those of the provider. -/
  answers : ∀ fetched ∈ f.log, fetched.look.provided.jwks fetched.uri = some fetched.set

variable {look : Look} {cache : CachedJwks} {fetched : Fetched} {f : Fetching} {looks : List Look}

theorem CachedJwks.refresh_now_of_fetch (h : cache.fetch look = some fetched) :
    fetched.look = look ∧ look.provided.jwks fetched.uri = some fetched.set ∧
      cache.resolve_jwks_uri look.provided = some fetched.uri ∧
      cache.refresh_now look =
        { jwks_uri := some fetched.uri, set := fetched.set, fetched_at := some look.answered } := by
  obtain ⟨uri, huri, hset⟩ := Option.bind_eq_some_iff.mp h
  obtain ⟨jwks, hjwks, rfl⟩ := Option.map_eq_some_iff.mp hset
  refine ⟨rfl, hjwks, huri, ?_⟩
  unfold refresh_now
  rw [huri]
  dsimp only
  rw [hjwks]

/-- A refresh that fetches nothing can still learn the address. -/
theorem CachedJwks.refresh_now_of_none (h : cache.fetch look = none) :
    cache.refresh_now look = { cache with jwks_uri := cache.resolve_jwks_uri look.provided } := by
  unfold refresh_now
  unfold fetch at h
  cases huri : cache.resolve_jwks_uri look.provided with
  | none =>
    unfold resolve_jwks_uri at huri
    split at huri
    · simp at huri
    · rename_i hnone
      obtain ⟨_, _, _⟩ := cache
      simp only at hnone
      subst hnone
      rfl
  | some uri =>
    rw [huri, Option.bind_some, Option.map_eq_none_iff] at h
    dsimp only
    rw [h]

/-- An address that is known is the one that is asked. -/
theorem CachedJwks.resolve_of_known {uri : String} (provided : Provided)
    (h : cache.jwks_uri = some uri) : cache.resolve_jwks_uri provided = some uri := by
  unfold resolve_jwks_uri
  rw [h]

theorem HoldsLast.refresh_now (h : HoldsLast f) (look : Look) :
    HoldsLast (f.refresh_now look) := by
  unfold Fetching.refresh_now
  cases hfetch : f.cache.fetch look with
  | none =>
    rw [CachedJwks.refresh_now_of_none hfetch]
    exact ⟨h.set, h.fetched_at, fun fetched hm =>
      CachedJwks.resolve_of_known look.provided (h.uri fetched hm), h.answers⟩
  | some fetched =>
    obtain ⟨hlook, hjwks, huri, hcache⟩ := CachedJwks.refresh_now_of_fetch hfetch
    rw [hcache]
    refine ⟨rfl, ?_, ?_, ?_⟩
    · simp [hlook]
    · rintro x (_ | ⟨_, hx⟩)
      · rfl
      · exact huri.symm.trans (CachedJwks.resolve_of_known look.provided (h.uri x hx))
    · rintro x (_ | ⟨_, hx⟩)
      · rw [hlook]
        exact hjwks
      · exact h.answers x hx

theorem HoldsLast.refresh_if_stale (h : HoldsLast f) (look : Look) :
    HoldsLast (f.refresh_if_stale look) := by
  unfold Fetching.refresh_if_stale
  split
  · exact h.refresh_now look
  · exact h

theorem holdsLast_start (jwks_uri : Option String) (first : Look) :
    HoldsLast (.try_from_config jwks_uri first) :=
  HoldsLast.refresh_now ⟨rfl, rfl, by simp, by simp⟩ first

namespace Fetching

/-- The keys after the startup and some looks. -/
def after (jwks_uri : Option String) (first : Look) (looks : List Look) : Fetching :=
  run refresh_if_stale (try_from_config jwks_uri first) looks

end Fetching

theorem holdsLast_after (jwks_uri : Option String) (first : Look) (looks : List Look) :
    HoldsLast (.after jwks_uri first looks) :=
  run_keeps (fun _ look h => h.refresh_if_stale look) (holdsLast_start jwks_uri first) looks

/-- What a look adds to the log. -/
theorem mem_refresh_now (h : fetched ∈ (f.refresh_now look).log) :
    fetched.look = look ∨ fetched ∈ f.log := by
  rcases List.mem_append.mp h with hnew | hold
  · exact Or.inl (CachedJwks.refresh_now_of_fetch (Option.mem_toList.mp hnew)).1
  · exact Or.inr hold

theorem mem_refresh_if_stale (h : fetched ∈ (f.refresh_if_stale look).log) :
    fetched.look = look ∨ fetched ∈ f.log := by
  unfold Fetching.refresh_if_stale at h
  split at h
  · exact mem_refresh_now h
  · exact Or.inr h

theorem mem_run (h : fetched ∈ (run Fetching.refresh_if_stale f looks).log) :
    fetched.look ∈ looks ∨ fetched ∈ f.log := by
  induction looks generalizing f with
  | nil => exact Or.inr h
  | cons look rest ih =>
    rcases ih h with hrest | hlook
    · exact Or.inl (List.mem_cons_of_mem _ hrest)
    · rcases mem_refresh_if_stale hlook with rfl | hold
      · exact Or.inl (List.mem_cons_self ..)
      · exact Or.inr hold

/-- Every set that was fetched came with a look. -/
theorem mem_after {jwks_uri : Option String} {first : Look}
    (h : fetched ∈ (Fetching.after jwks_uri first looks).log) :
    fetched.look ∈ first :: looks := by
  rcases mem_run h with hlook | hstart
  · exact List.mem_cons_of_mem _ hlook
  · rcases mem_refresh_now hstart with rfl | hnone
    · exact List.mem_cons_self ..
    · cases hnone

/-! ## How often, and from where -/

/-- Every look comes when the answers to the one before are there. -/
def InTurn : Look → List Look → Prop
  | look, [] => look.now ≤ look.answered
  | look, next :: rest =>
    look.now ≤ look.answered ∧ look.answered ≤ next.now ∧ InTurn next rest

instance InTurn.decidable : ∀ (look : Look) (rest : List Look), Decidable (InTurn look rest)
  | look, [] => inferInstanceAs (Decidable (look.now ≤ look.answered))
  | look, next :: rest =>
    have := InTurn.decidable next rest
    inferInstanceAs (Decidable (look.now ≤ look.answered ∧ look.answered ≤ next.now ∧ _))

/-- Five minutes pass after a fetch that succeeded before the next of them begins. -/
def Spaced (log : List Fetched) : Prop :=
  log.Pairwise (fun later earlier =>
    earlier.look.answered + JWKS_REFRESH_INTERVAL ≤ later.look.now)

/-- The address that is configured, or one that a look discovered. -/
def AddressFrom (cache : CachedJwks) (jwks_uri : Option String) (looks : List Look) : Prop :=
  match (CachedJwks.of_config jwks_uri).jwks_uri with
  | some uri => cache.jwks_uri = some uri
  | none => ∀ uri, cache.jwks_uri = some uri →
    ∃ look ∈ looks, look.provided.discovery = some uri

theorem spaced_refresh_if_stale (h : HoldsLast f) (hs : Spaced f.log)
    (hbefore : ∀ fetched ∈ f.log, fetched.look.answered ≤ look.now)
    (hturn : ∀ fetched ∈ f.log, fetched.look.now ≤ fetched.look.answered) :
    Spaced (f.refresh_if_stale look).log := by
  unfold Fetching.refresh_if_stale
  split
  · rename_i hstale
    unfold Fetching.refresh_now
    cases hfetch : f.cache.fetch look with
    | none => exact hs
    | some fetched =>
      obtain ⟨rfl, -⟩ := CachedJwks.refresh_now_of_fetch hfetch
      refine List.pairwise_cons.mpr ⟨fun earlier hm => ?_, hs⟩
      -- the newest is old enough, and the others are older
      unfold CachedJwks.stale at hstale
      rw [h.fetched_at] at hstale
      cases hlog : f.log with
      | nil =>
        rw [hlog] at hm
        cases hm
      | cons newest rest =>
        have hnewest : newest ∈ f.log := by rw [hlog]; exact List.mem_cons_self ..
        have hage : JWKS_REFRESH_INTERVAL ≤ fetched.look.now - newest.look.answered := by
          rw [hlog] at hstale
          simpa using hstale
        have hpast := hbefore newest hnewest
        rw [hlog] at hm
        rcases List.mem_cons.mp hm with rfl | hrest
        · omega
        · unfold Spaced at hs
          rw [hlog] at hs
          have hold := (List.pairwise_cons.mp hs).1 earlier hrest
          have hlong := hturn newest hnewest
          omega
  · exact hs

/-- What holds between two looks: the fetches are spaced, and all is answered by the last look. -/
structure Regular (f : Fetching) (last : Look) : Prop where
  holds : HoldsLast f
  spaced : Spaced f.log
  answered : ∀ fetched ∈ f.log, fetched.look.answered ≤ last.answered
  in_turn : ∀ fetched ∈ f.log, fetched.look.now ≤ fetched.look.answered

theorem Regular.refresh_if_stale {last : Look} (h : Regular f last)
    (hnext : last.answered ≤ look.now) (hlook : look.now ≤ look.answered) :
    Regular (f.refresh_if_stale look) look where
  holds := h.holds.refresh_if_stale look
  spaced := spaced_refresh_if_stale h.holds h.spaced
    (fun fetched hm => (h.answered fetched hm).trans hnext) h.in_turn
  answered := by
    intro fetched hm
    rcases mem_refresh_if_stale hm with rfl | hold
    · exact le_rfl
    · exact (h.answered fetched hold).trans (hnext.trans hlook)
  in_turn := by
    intro fetched hm
    rcases mem_refresh_if_stale hm with rfl | hold
    · exact hlook
    · exact h.in_turn fetched hold

theorem regular_start (jwks_uri : Option String) {first : Look}
    (h : first.now ≤ first.answered) : Regular (.try_from_config jwks_uri first) first := by
  have hfirst : ∀ fetched ∈ (Fetching.try_from_config jwks_uri first).log,
      fetched.look = first := by
    intro fetched hm
    rcases mem_refresh_now hm with hlook | hnone
    · exact hlook
    · cases hnone
  refine ⟨holdsLast_start jwks_uri first, ?_, ?_, ?_⟩
  · unfold Fetching.try_from_config Fetching.refresh_now Spaced
    cases CachedJwks.fetch first (.of_config jwks_uri) with
    | none => exact List.Pairwise.nil
    | some fetched => exact List.pairwise_singleton ..
  · intro fetched hm
    rw [hfirst fetched hm]
  · intro fetched hm
    rw [hfirst fetched hm]
    exact h

theorem spaced_run {last : Look} (h : Regular f last) (hturn : InTurn last looks) :
    Spaced (run Fetching.refresh_if_stale f looks).log := by
  induction looks generalizing f last with
  | nil => exact h.spaced
  | cons look rest ih =>
    obtain ⟨-, hnext, hrest⟩ := hturn
    have hlook : look.now ≤ look.answered := by
      cases rest with
      | nil => exact hrest
      | cons => exact hrest.1
    exact ih (h.refresh_if_stale hnext hlook) hrest

/-- After a refresh the address is the one that was asked. -/
theorem CachedJwks.refresh_now_uri (look : Look) (cache : CachedJwks) :
    (cache.refresh_now look).jwks_uri = cache.resolve_jwks_uri look.provided := by
  cases hfetch : cache.fetch look with
  | none => rw [refresh_now_of_none hfetch]
  | some fetched =>
    obtain ⟨-, -, huri, hcache⟩ := refresh_now_of_fetch hfetch
    rw [hcache, huri]

theorem addressFrom_refresh_now {jwks_uri : Option String} (h : AddressFrom cache jwks_uri looks)
    (hlook : look ∈ looks) : AddressFrom (cache.refresh_now look) jwks_uri looks := by
  unfold AddressFrom at h ⊢
  rw [CachedJwks.refresh_now_uri]
  split
  · rename_i uri hconfigured
    rw [hconfigured] at h
    exact CachedJwks.resolve_of_known look.provided h
  · rename_i hconfigured
    rw [hconfigured] at h
    intro uri huri
    unfold CachedJwks.resolve_jwks_uri at huri
    split at huri
    · rename_i known hknown
      exact h uri (hknown.trans huri)
    · exact ⟨look, hlook, huri⟩

theorem addressFrom_run {jwks_uri : Option String} {all : List Look}
    (h : AddressFrom f.cache jwks_uri all) (hsub : looks ⊆ all) :
    AddressFrom (run Fetching.refresh_if_stale f looks).cache jwks_uri all := by
  induction looks generalizing f with
  | nil => exact h
  | cons look rest ih =>
    refine ih ?_ (fun x hx => hsub (List.mem_cons_of_mem _ hx))
    unfold Fetching.refresh_if_stale
    split
    · exact addressFrom_refresh_now h (hsub (List.mem_cons_self ..))
    · exact h

theorem addressFrom_after (jwks_uri : Option String) (first : Look) (looks : List Look) :
    AddressFrom (Fetching.after jwks_uri first looks).cache jwks_uri (first :: looks) := by
  refine addressFrom_run ?_ (List.subset_cons_self first looks)
  refine addressFrom_refresh_now ?_ (List.mem_cons_self ..)
  unfold AddressFrom
  split
  · rename_i uri h
    exact h
  · rename_i h
    intro uri huri
    rw [show (CachedJwks.of_config jwks_uri).jwks_uri = some uri from huri] at h
    cases h

/-- After any looks: the keys are those that were fetched last, every fetch that succeeded had the
same address, which is the configured one or was discovered, and between two of these there are
five minutes, whatever the first of them brought. -/
theorem keys_are_those_fetched_last (jwks_uri : Option String) (first : Look) (looks : List Look)
    (h : InTurn first looks) :
    HoldsLast (.after jwks_uri first looks) ∧
    AddressFrom (Fetching.after jwks_uri first looks).cache jwks_uri (first :: looks) ∧
    Spaced (Fetching.after jwks_uri first looks).log := by
  have hfirst : first.now ≤ first.answered := by
    cases looks with
    | nil => exact h
    | cons => exact h.1
  exact ⟨holdsLast_after .., addressFrom_after .., spaced_run (regular_start jwks_uri hfirst) h⟩

/-- A provider with one key. -/
def one_key (kid : String) : Provided where
  discovery := some "https://id.test/keys"
  jwks _ := some [⟨some kid, none, kid⟩]

/-- It cannot be reached at first. -/
def away : Provided := ⟨none, fun _ => none⟩

/-- The first look fetches nothing, the second and the last do, and the one between finds fresh
keys. -/
def three_looks : List Look :=
  [⟨1, 2, one_key "old"⟩, ⟨31, 31, one_key "new"⟩, ⟨302, 303, one_key "new"⟩]

theorem keys_are_those_fetched_last_here :
    (Fetching.after none ⟨0, 1, away⟩ three_looks).log.map (·.look.now) = [302, 1] ∧
    HoldsLast (.after none ⟨0, 1, away⟩ three_looks) ∧
    AddressFrom (Fetching.after none ⟨0, 1, away⟩ three_looks).cache none
      (⟨0, 1, away⟩ :: three_looks) ∧
    Spaced (Fetching.after none ⟨0, 1, away⟩ three_looks).log :=
  ⟨by decide +kernel, keys_are_those_fetched_last none _ _ (by decide +kernel)⟩

/-! ## A key that the provider withdraws -/

/-- A token that names a key is accepted only under that key. -/
theorem OidcValidator.key_of_accepted {validator : OidcValidator} {jwt : Jwt} {now : Nat}
    {token kid : String} {header : JwtHeader} {claims : Value}
    (hheader : jwt.decode_header token = .ok header) (hkid : header.kid = some kid)
    (h : validator.decode_and_validate jwt now token = .ok claims) :
    ∃ key ∈ validator.jwks, key.key_id = some kid := by
  unfold decode_and_validate at h
  rw [hheader] at h
  dsimp only at h
  split at h
  · cases h
  · split at h
    · cases h
    · split at h
      · cases h
      · split at h
        · cases h
        · rename_i jwk hjwk
          rw [hkid] at hjwk
          unfold find_verification_jwk at hjwk
          exact ⟨jwk, List.mem_of_find?_eq_some hjwk, by simpa using List.find?_some hjwk⟩

/-- The last look leaves keys that were fetched lately, or none. -/
theorem fetched_lately {last : Look} (h : HoldsLast f)
    (hanswered : f.cache.stale last.now = true → (f.cache.fetch last).isSome = true) :
    ∃ fetched ∈ (f.refresh_if_stale last).log,
      (f.refresh_if_stale last).cache.set = fetched.set ∧
      (fetched.look = last ∨ last.now < fetched.look.answered + JWKS_REFRESH_INTERVAL) := by
  unfold Fetching.refresh_if_stale
  split
  · rename_i hstale
    obtain ⟨fetched, hfetch⟩ := Option.isSome_iff_exists.mp (hanswered hstale)
    obtain ⟨hlook, -, -, hcache⟩ := CachedJwks.refresh_now_of_fetch hfetch
    refine ⟨fetched, ?_, ?_, Or.inl hlook⟩
    · exact List.mem_append_left _ (Option.mem_toList.mpr hfetch)
    · exact congrArg CachedJwks.set hcache
  · rename_i hfresh
    unfold CachedJwks.stale at hfresh
    rw [h.fetched_at] at hfresh
    have hset := h.set
    cases hlog : f.log with
    | nil =>
      rw [hlog] at hfresh
      exact absurd rfl hfresh
    | cons newest rest =>
      rw [hlog] at hfresh hset
      refine ⟨newest, List.mem_cons_self .., hset, Or.inr ?_⟩
      simp at hfresh
      omega

/-- From the time `gone` on, the provider does not answer with a key. Answers take at most `wait`,
the last look was at most `gap` ago, and it was answered if it was due. Then a token that names
the key is refused as soon as five minutes, `gap` and `wait` have passed. -/
theorem a_withdrawn_key_is_refused (jwks_uri : Option String) (first last : Look)
    (looks : List Look) (kid : String) (gone wait gap now : Nat)
    (hgone : ∀ look ∈ first :: (looks ++ [last]), gone ≤ look.now → ∀ uri jwks,
      look.provided.jwks uri = some jwks → ∀ key ∈ jwks, key.key_id ≠ some kid)
    (hwait : ∀ look ∈ first :: (looks ++ [last]), look.answered ≤ look.now + wait)
    (hanswered : (Fetching.after jwks_uri first looks).cache.stale last.now = true →
      ((Fetching.after jwks_uri first looks).cache.fetch last).isSome = true)
    (hgap : now ≤ last.now + gap) (hnow : gone + JWKS_REFRESH_INTERVAL + gap + wait ≤ now)
    (validator : OidcValidator) (jwt : Jwt) (clock : Nat) (token : String) (header : JwtHeader)
    (hheader : jwt.decode_header token = .ok header) (hkid : header.kid = some kid) :
    ∃ e, (validator.with_keys (Fetching.after jwks_uri first
      (looks ++ [last])).cache).decode_and_validate jwt clock token = .error e := by
  cases hdecode : (validator.with_keys (Fetching.after jwks_uri first
      (looks ++ [last])).cache).decode_and_validate jwt clock token with
  | error e => exact ⟨e, rfl⟩
  | ok claims =>
    obtain ⟨key, hkey, hid⟩ := OidcValidator.key_of_accepted hheader hkid hdecode
    have hlast : Fetching.after jwks_uri first (looks ++ [last]) =
        (Fetching.after jwks_uri first looks).refresh_if_stale last := run_append ..
    obtain ⟨fetched, hm, hset, hlately⟩ :=
      fetched_lately (holdsLast_after jwks_uri first looks) hanswered
    rw [← hlast] at hm hset
    have hlook := mem_after hm
    have hanswer := (holdsLast_after jwks_uri first (looks ++ [last])).answers fetched hm
    refine absurd hid (hgone fetched.look hlook ?_ fetched.uri fetched.set hanswer key ?_)
    · rcases hlately with hsame | hrecent
      · rw [hsame]
        omega
      · have hthen := hwait fetched.look hlook
        omega
    · rw [← hset]
      exact hkey

/-- Every token names the old key. -/
def names_old : Jwt where
  decode_header _ := .ok ⟨.RS256, some "old"⟩
  encode _ _ := .error "no key"
  decode_session _ _ _ _ := .error "InvalidAlgorithm"
  from_jwk jwk := .ok jwk.material
  decode _ _ _ _ := .ok (.Object [])

theorem a_withdrawn_key_is_refused_here : ∃ e,
    (OidcValidator.with_keys ⟨"https://id.test", [], none, []⟩ (Fetching.after none
      ⟨0, 0, one_key "old"⟩ ([⟨30, 30, one_key "new"⟩] ++
        [⟨310, 310, one_key "new"⟩])).cache).decode_and_validate names_old 340 "t" = .error e := by
  refine a_withdrawn_key_is_refused none ⟨0, 0, one_key "old"⟩ ⟨310, 310, one_key "new"⟩
    [⟨30, 30, one_key "new"⟩] "old" 1 0 30 340 ?_ (by decide) (fun _ => by decide) (by decide)
    (by decide) _ names_old 340 "t" ⟨.RS256, some "old"⟩ rfl rfl
  intro look hlook hgone uri jwks hjwks key hkey hid
  simp only [List.cons_append, List.nil_append, List.mem_cons, List.not_mem_nil, or_false] at hlook
  rcases hlook with rfl | rfl | rfl
  · cases hgone
  all_goals
    obtain rfl := Option.some.inj hjwks
    obtain rfl := List.mem_singleton.mp hkey
    exact absurd hid (by decide)

end xrelease.auth
