-- Redeliveries (`api/webhook.rs`, `store/postgres/mod.rs`): the id of a delivery is claimed before
-- anything is done with it, and stands until its row is pruned. Which deliveries a run of the
-- server answers as duplicates.
import Xrelease.Fanned

namespace xrelease.redelivered

open trace keyed xrelease.model xrelease.engine xrelease.webhook_payload
open xrelease.watch_lookup xrelease.pruned xrelease.webhook

/-! ## A run of the server -/

structure Delivery (Body : Type) where
  route : Route
  server : Server
  request : Request Body
  answers : Answers

/-- A delivery, the statement of a prune on the claimed ids, or whatever else the process does. -/
inductive Event (Body : Type) where
  | delivered (delivery : Delivery Body)
  | pruned (st : Statement) (days : Nat)
  | other (world : World)

/-- A server on a database that no delivery has been claimed in. -/
def start (world : World) : State := ⟨world, Table.empty⟩

def delete_webhooks (st : Statement) (days : Nat) (t : Table String DateTime) :
    Table String DateTime :=
  if deletes st days then t.keep (fun _ received_at => !aged st.now days received_at) else t

/-- The prune takes the row of an id that was claimed at this moment. -/
def prunes {Body : Type} (claimed_at : DateTime) : Event Body → Prop
  | .pruned st days => deletes st days ∧ aged st.now days claimed_at
  | _ => False

section
variable {Body : Type} (parsers : Parsers Body)

def Delivery.handled (d : Delivery Body) (s : State) :
    Except ApiError WebhookResponse × State :=
  handle parsers d.route d.server d.request d.answers s

def step (s : State) : Event Body → State
  | .delivered d => (d.handled parsers s).2
  | .pruned st days => { s with webhook_delivery := delete_webhooks st days s.webhook_delivery }
  | .other world => { s with world }

/-- The id that a delivery asks for: it is let in, has one, and its claim does not fail. -/
def Delivery.claims (d : Delivery Body) : Option String :=
  match authorize parsers d.route d.server d.request with
  | .error _ => none
  | .ok () =>
    if d.answers.claim.fails = none then delivery_id d.request.headers d.route else none

def Delivery.claimed_at (d : Delivery Body) (s : State) : DateTime :=
  (s.world.tick d.answers.claim).now

/-- Answered as a duplicate. -/
def Delivery.Duplicate (d : Delivery Body) (s : State) : Prop :=
  ∃ id, (d.handled parsers s).1 = .ok (.duplicate id)

/-! ## One delivery -/

/-- No payload is answered at once as accepted. -/
theorem not_accepted_of_mapped {index : WatchIndex}
    {mapped : Except WebhookPayloadError (String × Release)}
    {find_watches : WatchIndex → String → List pipeline.Watch} {not_found : String → String}
    {response : WebhookResponse}
    (h : ingest_mapped_release index mapped find_watches not_found = .ok (.Respond response)) :
    response.accepted = false := by
  unfold ingest_mapped_release at h
  cases mapped with
  | ok pair =>
    simp only [map_payload] at h
    split at h <;> cases h
  | error err =>
    cases err with
    | BadRequest message => cases h
    | Ignored message =>
      cases h
      rfl

theorem parsed_of_ok {α β : Type} {parsed : Except String α} {g : α → Except ApiError β} {b : β}
    (h : parse_json parsed >>= g = .ok b) : ∃ payload, g payload = .ok b := by
  cases parsed with
  | error err => cases h
  | ok payload => exact ⟨payload, h⟩

theorem not_accepted {route : Route} {index : WatchIndex} {request : Request Body}
    {response : WebhookResponse}
    (h : ingest parsers route index request = .ok (.Respond response)) :
    response.accepted = false := by
  cases route with
  | Github | Gitea | Gitlab | Docker =>
    obtain ⟨payload, h⟩ := parsed_of_ok h
    exact not_accepted_of_mapped h
  | Bitbucket =>
    simp only [ingest, bitbucket] at h
    split at h
    · cases h
      rfl
    · obtain ⟨payload, h⟩ := parsed_of_ok h
      exact not_accepted_of_mapped h
  | Generic =>
    obtain ⟨payload, h⟩ := parsed_of_ok h
    split at h <;> cases h

theorem source_id_pushed (watches : List pipeline.Watch) (tag : String) (sent : Nat) :
    (pushed_response watches tag sent).source_id.isSome := by
  unfold pushed_response
  dsimp only
  split
  · rfl
  · split <;> rfl

/-- A delivery past its claim is not answered as a duplicate, and claims nothing. -/
theorem respond_answer {d : Delivery Body} (s : State) :
    (∀ id, (respond d.answers s (ingest parsers d.route d.server.index d.request)).1 ≠
        .ok (.duplicate id)) ∧
      (respond d.answers s (ingest parsers d.route d.server.index d.request)).2.webhook_delivery =
        s.webhook_delivery := by
  cases hingest : ingest parsers d.route d.server.index d.request with
  | error err => exact ⟨fun id h => (by cases h), rfl⟩
  | ok ingested =>
    cases ingested with
    | Respond response =>
      refine ⟨?_, rfl⟩
      intro id h
      have haccepted := not_accepted parsers hingest
      obtain rfl : response = .duplicate id := by simpa [respond] using h
      cases haccepted
    | Process watches release =>
      simp only [respond, webhook.process_pushed_release]
      split
      · exact ⟨fun id h => (by cases h), rfl⟩
      · refine ⟨?_, rfl⟩
        rename_i sent hrun
        intro id h
        have hsource := source_id_pushed watches release.raw_tag sent
        rw [Except.ok.inj h] at hsource
        cases hsource

/-- What a delivery does: without a claim it is no duplicate; with one, it is a duplicate where the
id is taken, and takes it where it is not. -/
theorem handled_cases (d : Delivery Body) (s : State) :
    match d.claims parsers with
    | none => ¬ d.Duplicate parsers s ∧
        (d.handled parsers s).2.webhook_delivery = s.webhook_delivery
    | some id =>
      match s.webhook_delivery.get id with
      | some _ => d.Duplicate parsers s ∧
          (d.handled parsers s).2 = { s with world := s.world.tick d.answers.claim }
      | none => ¬ d.Duplicate parsers s ∧
          (d.handled parsers s).2.webhook_delivery =
            s.webhook_delivery.add id (d.claimed_at s) := by
  unfold Delivery.Duplicate Delivery.claims Delivery.claimed_at Delivery.handled handle
  cases hauth : authorize parsers d.route d.server d.request with
  | error err => exact ⟨fun h => h.elim (fun id h => (by cases h)), rfl⟩
  | ok u =>
    cases hid : delivery_id d.request.headers d.route with
    | none =>
      have hrest := respond_answer parsers (d := d) s
      simp only [ensure_idempotent, hid, ite_self]
      exact ⟨fun h => h.elim hrest.1, hrest.2⟩
    | some id =>
      cases hfails : d.answers.claim.fails with
      | some err =>
        simp only [ensure_idempotent, claim_webhook_delivery, hid, hfails, reduceCtorEq, if_false]
        exact ⟨fun h => h.elim (fun id h => (by cases h)), trivial⟩
      | none =>
        simp only [ensure_idempotent, claim_webhook_delivery, hid, hfails, if_true]
        cases hget : s.webhook_delivery.get id with
        | some t => exact ⟨⟨id, rfl⟩, rfl⟩
        | none =>
          have hrest := respond_answer parsers (d := d)
            ⟨s.world.tick d.answers.claim,
              s.webhook_delivery.add id (s.world.tick d.answers.claim).now⟩
          exact ⟨fun h => h.elim hrest.1, hrest.2⟩

theorem duplicate_iff_taken (d : Delivery Body) (s : State) :
    d.Duplicate parsers s ↔
      ∃ id, d.claims parsers = some id ∧ (s.webhook_delivery.get id).isSome := by
  have hcases := handled_cases parsers d s
  cases hclaims : d.claims parsers with
  | none =>
    rw [hclaims] at hcases
    simp [hcases.1]
  | some id =>
    rw [hclaims] at hcases
    cases hget : s.webhook_delivery.get id with
    | some t =>
      simp only [hget] at hcases
      simp [hcases.1, hget]
    | none =>
      simp only [hget] at hcases
      simp [hcases.1, hget]

/-! ## The claimed ids -/

/-- The delivery is the one that claims the id, at this moment. -/
def First (id : String) (t : DateTime) (s : State) : Event Body → Prop
  | .delivered d => d.claims parsers = some id ∧ ¬ d.Duplicate parsers s ∧ d.claimed_at s = t
  | _ => False

theorem get_delete_webhooks (st : Statement) (days : Nat) (t : Table String DateTime)
    (id : String) (at_ : DateTime) :
    (delete_webhooks st days t).get id = some at_ ↔
      t.get id = some at_ ∧ ¬ (deletes st days ∧ aged st.now days at_) := by
  unfold delete_webhooks
  split
  · rename_i hdeletes
    rw [Table.get_keep]
    cases t.get id with
    | none => simp
    | some at' =>
      by_cases hat : at' = at_
      · subst hat
        simp [Option.filter, hdeletes]
      · simp only [Option.filter, Option.some.injEq]
        split <;> simp [hat]
  · rename_i hdeletes
    simp [hdeletes]

/-- One step: the row of an id stays unless it is pruned, or is made by the delivery that claims
the id. -/
theorem step_get (id : String) (t : DateTime) (s : State) (e : Event Body) :
    (step parsers s e).webhook_delivery.get id = some t ↔
      (s.webhook_delivery.get id = some t ∧ ¬ prunes t e) ∨ First parsers id t s e := by
  cases e with
  | other world => simp [step, prunes, First]
  | pruned st days =>
    simp only [step, prunes, First, or_false]
    exact get_delete_webhooks st days s.webhook_delivery id t
  | delivered d =>
    have hcases := handled_cases parsers d s
    simp only [step, prunes, First, not_false_eq_true, and_true]
    cases hclaims : d.claims parsers with
    | none =>
      simp only [hclaims] at hcases
      simp [hcases.2]
    | some id' =>
      simp only [hclaims] at hcases
      cases hget : s.webhook_delivery.get id' with
      | some t' =>
        simp only [hget] at hcases
        simp [hcases.1, hcases.2]
      | none =>
        simp only [hget] at hcases
        rw [hcases.2, Table.get_add]
        by_cases hid : id = id'
        · subst hid
          simp [hget, hcases.1]
        · simp [hid, Ne.symm hid]

/-! ## The law -/

/-- An earlier delivery on the same route claimed this id, whatever became of it, and its row
stands. -/
def Claimed (world : World) (before : List (Event Body)) (d : Delivery Body) : Prop :=
  ∃ earlier first later, before = earlier ++ .delivered first :: later ∧
    first.route = d.route ∧ first.claims parsers = d.claims parsers ∧
    ¬ first.Duplicate parsers (run (step parsers) (start world) earlier) ∧
    ∀ e ∈ later, ¬ prunes (first.claimed_at (run (step parsers) (start world) earlier)) e

end

/-- The kinds of two routes do not begin alike up to the colon. -/
theorem route_of_kind {route route' : Route} {a b : String}
    (h : route.kind ++ ":" ++ a = route'.kind ++ ":" ++ b) : route = route' := by
  have hlist := congrArg String.toList h
  cases route <;> cases route' <;> first | rfl | simp [Route.kind] at hlist

section
variable {Body : Type} (parsers : Parsers Body)

theorem route_of_claims {d d' : Delivery Body} {id : String} (h : d.claims parsers = some id)
    (h' : d'.claims parsers = some id) : d.route = d'.route := by
  have hkind : ∀ {e : Delivery Body}, e.claims parsers = some id →
      ∃ a, e.route.kind ++ ":" ++ a = id := by
    intro e he
    unfold Delivery.claims at he
    split at he
    · cases he
    · split at he
      · obtain ⟨a, -, ha⟩ := Option.map_eq_some_iff.mp he
        exact ⟨a, ha⟩
      · cases he
  obtain ⟨a, ha⟩ := hkind h
  obtain ⟨b, hb⟩ := hkind h'
  exact route_of_kind (ha.trans hb.symm)

/-- In every run, a delivery is answered as a duplicate exactly where it is let in, its claim goes
through, and an earlier delivery of the route has claimed its id, whatever became of that one, and
the claim has not been pruned since. -/
theorem duplicate_iff_claimed (world : World) (before : List (Event Body)) (d : Delivery Body) :
    d.Duplicate parsers (run (step parsers) (start world) before) ↔
      (d.claims parsers).isSome ∧ Claimed parsers world before d := by
  have hheld := fun id t => held_iff (step parsers)
    (fun s => s.webhook_delivery.get id = some t) (step_get parsers id t)
    (s := start world) (by simp [start]) before
  rw [duplicate_iff_taken]
  constructor
  · rintro ⟨id, hclaims, htaken⟩
    obtain ⟨t, hget⟩ := Option.isSome_iff_exists.mp htaken
    obtain ⟨earlier, e, later, heq, hfirst, hkept⟩ := (hheld id t).mp hget
    cases e with
    | other world => exact hfirst.elim
    | pruned st days => exact hfirst.elim
    | delivered first =>
      obtain ⟨hclaimed, hnot, rfl⟩ := hfirst
      exact ⟨by simp [hclaims], earlier, first, later, heq,
        route_of_claims parsers hclaimed hclaims, hclaimed.trans hclaims.symm, hnot, hkept⟩
  · rintro ⟨hsome, earlier, first, later, heq, -, hclaimed, hnot, hkept⟩
    obtain ⟨id, hclaims⟩ := Option.isSome_iff_exists.mp hsome
    refine ⟨id, hclaims, ?_⟩
    rw [(hheld id _).mpr ⟨earlier, .delivered first, later, heq,
      ⟨hclaimed.trans hclaims, hnot, rfl⟩, hkept⟩]
    rfl

end

/-! ## A body that does not parse -/

/-- Bodies are their own documents here. -/
def parsers : Parsers (Except String GiteaCompatibleWebhook) where
  gitea_compatible := id
  gitlab := fun _ => .error "missing field"
  bitbucket := fun _ => .error "missing field"
  docker := fun _ => .error "missing field"
  generic := fun _ => .error "missing field"
  rfc3339 := fun _ => none
  hmac_hex := fun _ _ => ""

def tokio : pipeline.Watch where
  provider := ⟨"github:tokio-rs/tokio", "github", "GitHub", "tokio-rs/tokio"⟩
  filter := ⟨false, none, none, none, false⟩
  routing_tag := none
  notify_schedule := none

def published : GiteaCompatibleWebhook where
  action := some "published"
  release := some ⟨"v1.40.0", none, none, none, none, none⟩
  repository := some (some "tokio-rs/tokio")

/-- The forge's delivery 42, with this body. -/
def delivery (body : Except String GiteaCompatibleWebhook) :
    Delivery (Except String GiteaCompatibleWebhook) where
  route := .Github
  server := ⟨none, WatchIndex.new [tokio]⟩
  request := ⟨fun name => if name = "x-github-delivery" then .Text "42" else .Absent, body⟩
  answers := ⟨0, {}, fun _ => {}⟩

def fresh_world : World := World.start store.Db.empty 0 []

/-- A delivery whose body is cut off is answered with an error, and its redelivery, which would
reach a watch, as a duplicate. -/
theorem a_failed_delivery_is_not_repeated :
    ((delivery (.error "EOF while parsing")).handled parsers (start fresh_world)).1 =
        .error (.BadRequest "EOF while parsing") ∧
      (handed (ingest parsers .Github (WatchIndex.new [tokio]) (delivery (.ok published)).request)
        ).length = 1 ∧
      (delivery (.ok published)).Duplicate parsers
        (run (step parsers) (start fresh_world)
          [.delivered (delivery (.error "EOF while parsing"))]) := by
  refine ⟨rfl, by decide +kernel, ?_⟩
  rw [duplicate_iff_claimed]
  refine ⟨by decide +kernel, [], _, [], rfl, rfl, rfl, ?_, by simp⟩
  rw [duplicate_iff_taken]
  simp [start]

end xrelease.redelivered
