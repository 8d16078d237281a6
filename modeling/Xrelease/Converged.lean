-- Reloads come to what a restart would run: once all calls have answered, what runs is what the
-- authorities resolve to at some moment since the last reload began, when no reload of a file
-- overtakes an older one that has read another text.
import Xrelease.Conditional
import Xrelease.Identity

namespace xrelease.converged

open xrelease.config xrelease.config_apply xrelease.composed xrelease.outcomes xrelease.atomic
  xrelease.bootable xrelease.api xrelease.requests xrelease.conditional xrelease.identities text

/-! ## The law -/

/-- A restart at this moment would run the configuration. -/
def Resolves (server : Server) (w : World) (config : Config) : Prop :=
  resolve (at_files server w.files).setup w.state.process.ledger server.bootstrap = .ok config

/-- The format that the path of the app file tells. -/
def app_hint (w : World) : Option DesiredFormat := w.files.app.bind (·.2)

/-- The text of an app file defines a source, a notifier or an alias. -/
def States (server : Server) (w : World) (raw : String) : Prop :=
  ∀ desired, parse_desired_document_with_hint server.setup.codec raw (app_hint w) = .ok desired →
    has_desired_state (apply_env_overrides server.setup.env desired) = true

/-- The steps of the runs in question: every call is answered, and what is recorded boots. -/
structure Fits (server : Server) (path : String) (w : World) (event : Event) : Prop where
  answers : (step server path w event).1 = none
  kept : ∀ a, attempt server w event = some a → ∀ candidate,
    Records (at_files server w.files) a.faults w.state.process a.scope a.raw a.hint candidate →
      NoRemovedKey candidate.ledger_raw
  states : ∀ index fault raw, event = .Reload index fault →
    w.waiting[index]? = some (.Document raw) → States server w raw
  /-- A reload does not overtake an older one that has read another text. -/
  in_order : ∀ index fault raw, event = .Reload index fault →
    w.waiting[index]? = some (.Document raw) →
      ∀ before < index, w.waiting[before]? = some (.Document raw)

/-- An instance, with the record of when each reload that waits has read, and which text was the
last that a reload has run. -/
structure Watched where
  world : World
  begun : List Nat
  count : Nat
  shown : Option (Nat × String)

def watched (w : World) : Watched := ⟨w, [], 0, none⟩

def watch (server : Server) (path : String) (v : Watched) (event : Event) : Watched :=
  let world := next server path v.world event
  match event with
  | .Read =>
    if world.waiting.length = v.world.waiting.length then { v with world }
    else { v with world, begun := v.begun ++ [v.count], count := v.count + 1 }
  | .Reload index _ =>
    { v with
      world
      begun := v.begun.eraseIdx index
      shown :=
        match v.world.waiting[index]?, v.begun[index]? with
        | some (.Document raw), some turn =>
          if world.state.effective_desired_sha = v.world.state.effective_desired_sha then v.shown
          else some (turn, raw)
        | _, _ => v.shown }
  | _ => { v with world }

/-- A reload that runs its text has read it after the one that ran before. -/
def NeverOlder (server : Server) (path : String) (v : Watched) (event : Event) : Prop :=
  ∀ index fault raw turn, event = .Reload index fault →
    v.world.waiting[index]? = some (.Document raw) → v.begun[index]? = some turn →
    (next server path v.world event).state.effective_desired_sha ≠
      v.world.state.effective_desired_sha →
    ∀ before shown, v.shown = some (before, shown) → before < turn

/-- What runs in the end resolves at a moment since the last reload began; and no reload ever runs
an older text over a newer one. -/
def Converges (server : Server) (path : String) (start : World) (before after : List Event) :
    Prop :=
  (∃ w ∈ trace.states (next server path)
      (trace.run (next server path) start (before ++ [.Read])) after,
    Resolves server w
      (trace.run (next server path) start (before ++ .Read :: after)).state.process.effective) ∧
    trace.Along (watch server path) (NeverOlder server path) (watched start)
      (before ++ .Read :: after)

/-! ## What a file resolves to -/

/-- No revision is the authority of the whole instance. -/
def Unrecorded (server : Server) (w : World) : Prop :=
  server.bootstrap.config_api.ledger_is_bootable = true →
    latest_applied_config_revision w.state.process.ledger none = none

/-- What a boot makes of a file with this text. -/
def file_config (server : Server) (hint : Option DesiredFormat) (raw : String) :
    Except String Config :=
  resolve { server.setup with files := { app := some (some raw, hint) } } [] server.bootstrap

variable {server : Server} {w : World} {raw path : String} {event : Event} {after : List Event}
  {v : Watched}

theorem recorded_none (h : Unrecorded server w) :
    (if server.bootstrap.config_api.ledger_is_bootable = true then
      latest_applied_config_revision w.state.process.ledger none else none) = none := by
  split
  · rename_i hbootable
    exact h hbootable
  · rfl

theorem latest_nil (stream : Option String) :
    latest_applied_config_revision [] stream = none := rfl

theorem resolves_file (hmode : server.bootstrap.organizations = []) (h : Unrecorded server w)
    {hint : Option DesiredFormat} (hfile : w.files.app = some (some raw, hint)) :
    resolve (at_files server w.files).setup w.state.process.ledger server.bootstrap =
      file_config server hint raw := by
  unfold file_config resolve
  simp only [at_files, hmode, ne_eq, not_true_eq_false, if_false, recorded_none h, hfile,
    latest_nil, ite_self]
  rfl

theorem file_config_of_merge (hloaded : Loaded server) (hmode : server.bootstrap.organizations = [])
    {hint : Option DesiredFormat} {merged : Config}
    (hmerge : merge_pushed_document server.setup.codec server.setup.env server.bootstrap raw hint =
      .ok merged)
    (hstates : ∀ desired, parse_desired_document_with_hint server.setup.codec raw hint =
      .ok desired → has_desired_state (apply_env_overrides server.setup.env desired) = true) :
    file_config server hint raw = .ok merged := by
  unfold merge_pushed_document at hmerge
  simp only [bind_ok_iff, pure, Except.pure, Except.ok.injEq] at hmerge
  obtain ⟨desired, hparse, u, hensure, rfl⟩ := hmerge
  unfold file_config resolve
  simp only [hmode, ne_eq, not_true_eq_false, if_false, latest_nil, ite_self, hparse, hensure,
    hstates desired hparse, if_true, bind, Except.bind, pure, Except.pure]
  rw [overridden_merge hloaded]

/-! ## What one step does -/

theorem app_hint_next (server : Server) (path : String) (w : World) (event : Event) :
    app_hint (next server path w event) = app_hint w := by
  unfold app_hint
  cases event with
  | Edit app text =>
    simp only [next, step, edited]
    cases w.files.app <;> rfl
  | Read =>
    simp only [next, step]
    cases reload_reads (at_files server w.files) path <;> rfl
  | Reload index fault =>
    simp only [next, step]
    cases w.waiting[index]? <;> rfl
  | Apply faults if_match raw hint => rfl
  | Rollback faults => rfl
  | OrgApply faults org_id if_match raw hint => rfl
  | OrgRollback faults org_id => rfl

/-- What a step that fits comes to. -/
inductive Turn (server : Server) (path : String) (w : World) (event : Event) : Prop where
  /-- Something is recorded, and would boot. -/
  | recorded (resolves : Resolves server (next server path w event)
        (next server path w event).state.process.effective)
      (waiting : (next server path w event).waiting = w.waiting)
      (stream : server.bootstrap.organizations = [] → ¬Unrecorded server (next server path w event))
      (identity : server.bootstrap.organizations ≠ [] →
        (next server path w event).state.effective_desired_sha = none)
  /-- What runs stays, and its identity stays or is forgotten. -/
  | rests (effective : (next server path w event).state.process.effective =
        w.state.process.effective)
      (waiting : event ≠ .Read → (next server path w event).waiting = w.waiting)
      (unrecorded : Unrecorded server (next server path w event) → Unrecorded server w)
      (identity : (next server path w event).state.effective_desired_sha =
            w.state.effective_desired_sha ∨
          server.bootstrap.organizations ≠ [] ∧
            (next server path w event).state.effective_desired_sha = none ∨
          server.bootstrap.organizations = [] ∧ ¬Unrecorded server w)
  | reloads (index : Nat) (fault : Option String) (reading : Reading)
      (event_eq : event = .Reload index fault) (waits : w.waiting[index]? = some reading)
      (reloaded : Reloaded (at_files server w.files) w.state reading none
        (next server path w event).state)
      (files : (next server path w event).files = w.files)

theorem next_waiting (hread : event ≠ .Read)
    (hreload : ∀ index fault, event ≠ .Reload index fault) :
    (next server path w event).waiting = w.waiting := by
  cases event with
  | Read => exact absurd rfl hread
  | Reload index fault => exact absurd rfl (hreload index fault)
  | Edit app text => rfl
  | Apply faults if_match raw hint => rfl
  | Rollback faults => rfl
  | OrgApply faults org_id if_match raw hint => rfl
  | OrgRollback faults org_id => rfl

theorem unrecorded_of_current {sha : String}
    (hbootable : server.bootstrap.config_api.ledger_is_bootable = true)
    (h : IsCurrent w.state.process .Whole sha) : ¬Unrecorded server w := by
  intro hunrecorded
  obtain ⟨current, hcurrent, -⟩ := h
  have hnone := hunrecorded hbootable
  rw [show latest_applied_config_revision w.state.process.ledger none = some current
    from hcurrent] at hnone
  cases hnone

/-- A call that answers ok. -/
theorem turn_of_makes (hloaded : Loaded server) (hcodec : server.setup.codec.Faithful) {a : Attempt}
    (hmakes : Makes server path w event a) (hfits : Fits server path w event) :
    Turn server path w event := by
  have hkept := hfits.kept a hmakes.attempted
  obtain ⟨response, hok⟩ := hmakes.answer.mp hfits.answers
  obtain ⟨hbootable, hscope⟩ := attempt_scope hmakes.attempted
  have hwhole := whole_attempt hmakes.attempted
  have hprocess := hmakes.process
  have hidentity := hmakes.identity
  obtain ⟨faults, scope, raw, hint⟩ := a
  unfold called at hok hprocess hidentity
  simp only at hok hprocess hidentity hkept
  rcases called_cases (at_files server w.files) faults w.state.process scope raw hint with
    ⟨candidate, answer, hrecords, hanswer, happlied, hsha, hledger, hruns⟩ |
    ⟨hnone, hlatest, hcurrent, hruns⟩
  · refine .recorded ?_ hmakes.waiting ?_ ?_
    · unfold Resolves
      rw [hmakes.files, hprocess, hledger, hruns]
      rcases hscope with ⟨hwhole, hmode⟩ | ⟨org, -, horg⟩
      · obtain rfl : scope = .Whole := hwhole
        have hloaded' : Loaded (at_files server w.files) := hloaded
        exact (whole_boots_iff hloaded' hbootable hmode hcodec hrecords.reached.resolved).mpr
          (hkept candidate hrecords)
      · obtain rfl : scope = .Organization org.id := horg
        refine (organization_boots ?_ ?_ hrecords.reached.resolved).1
        · exact hbootable
        · exact hcodec
    · intro hmode hunrecorded
      obtain rfl : scope = .Whole := hwhole hmode
      have hlast := latest_applied_row faults w.state.process .Whole candidate w.state.process.ledger
      have hempty := hunrecorded hbootable
      rw [hprocess, hledger] at hempty
      exact absurd (hlast.symm.trans hempty) (by simp)
    · intro hmode
      rcases hscope with ⟨-, hempty⟩ | ⟨org, -, horg⟩
      · exact absurd hempty hmode
      · obtain rfl : scope = .Organization org.id := horg
        rw [hidentity]
        simp only [hanswer, published, happlied, if_true]
  · refine .rests ?_ (fun _ => hmakes.waiting) ?_ ?_
    · rw [hprocess]
      rcases hruns with hruns | ⟨-, err, herr⟩
      · exact hruns
      · rw [hok] at herr
        cases herr
    · intro hunrecorded _
      have hempty := hunrecorded hbootable
      rw [hprocess, hlatest] at hempty
      exact hempty
    · rw [hidentity, hok]
      by_cases happlied : response.applied = true
      · right
        rcases hscope with ⟨hwhole, hmode⟩ | ⟨org, horg, horganization⟩
        · obtain rfl : scope = .Whole := hwhole
          exact .inr ⟨hmode, unrecorded_of_current hbootable (hcurrent response hok happlied)⟩
        · obtain rfl : scope = .Organization org.id := horganization
          refine .inl ⟨List.ne_nil_of_mem horg, ?_⟩
          simp only [published, happlied, if_true]
      · left
        simp only [published, happlied, Bool.false_eq_true, if_false]

theorem turn_of_stays (h : Stays w (next server path w event))
    (hwaiting : event ≠ .Read → (next server path w event).waiting = w.waiting) :
    Turn server path w event := by
  refine .rests ?_ hwaiting ?_ ?_
  · rw [h.process]
  · intro hunrecorded hbootable
    have hempty := hunrecorded hbootable
    rw [h.process] at hempty
    exact hempty
  · exact .inl h.identity

theorem turn (hloaded : Loaded server) (hcodec : server.setup.codec.Faithful)
    (hfits : Fits server path w event) : Turn server path w event := by
  rcases event_cases server path w event with ⟨a, hmakes⟩ | hrests | ⟨app, text, rfl⟩ |
    ⟨index, fault, reading, rfl, hwaits⟩
  · exact turn_of_makes hloaded hcodec hmakes hfits
  · by_cases hreload : ∃ index fault, event = .Reload index fault
    · obtain ⟨index, fault, rfl⟩ := hreload
      cases hwaits : w.waiting[index]? with
      | some reading =>
        obtain ⟨hreloaded, hfiles⟩ := reload_event server path fault hwaits
        rw [hfits.answers] at hreloaded
        exact .reloads index fault reading rfl hwaits hreloaded hfiles
      | none =>
        refine turn_of_stays hrests.stays (fun _ => ?_)
        simp only [next, step, hwaits]
    · refine turn_of_stays hrests.stays (fun hread => next_waiting hread ?_)
      intro index fault heq
      exact hreload ⟨index, fault, heq⟩
  · exact .rests rfl (fun _ => rfl) (fun h => h) (.inl rfl)
  · obtain ⟨hreloaded, hfiles⟩ := reload_event server path fault hwaits
    rw [hfits.answers] at hreloaded
    exact .reloads index fault reading rfl hwaits hreloaded hfiles

/-! ## The instance with organizations -/

/-- What an identity stands for is what runs. -/
def Attested (server : Server) (w : World) : Prop :=
  ∀ sha, w.state.effective_desired_sha = some sha → ∃ files ledger composed,
    compose_organizations (at_files server files).setup ledger server.bootstrap none =
        .ok composed ∧
      composed.identity_sha256 = sha ∧ composed.merged = w.state.process.effective

/-- No text that the library reads has a NUL in it. -/
def NoNul (server : Server) : Prop :=
  ∀ format text config, server.setup.codec.read format text = some config → NulFree text

/-- Compositions of one identity run the same. -/
theorem merged_of_identity (hnul : NoNul server) (hsha : Function.Injective server.setup.sha256)
    {files files' : Files} {ledger ledger' : List ConfigRevision}
    {composed composed' : ComposedOrganizations}
    (h : compose_organizations (at_files server files).setup ledger server.bootstrap none =
      .ok composed)
    (h' : compose_organizations (at_files server files').setup ledger' server.bootstrap none =
      .ok composed') (hidentity : composed'.identity_sha256 = composed.identity_sha256) :
    composed'.merged = composed.merged := by
  have hnul' : ∀ format text config,
      (at_files server files).setup.codec.read format text = some config → NulFree text := hnul
  have hbytes := hidentity
  rw [composed_identity h, composed_identity h'] at hbytes
  refine composed_alike ?_ ?_ hnul' h h' (hsha hbytes)
  · rfl
  · rfl

theorem resolves_composed (hmode : server.bootstrap.organizations ≠ [])
    {composed : ComposedOrganizations}
    (h : compose_organizations (at_files server w.files).setup w.state.process.ledger
      server.bootstrap none = .ok composed) : Resolves server w composed.merged := by
  unfold Resolves resolve
  rw [if_pos hmode, h]
  rfl

/-- With organizations, a step leaves what would boot then, or it leaves what runs and lets no
reload go. -/
theorem organizations_step (hnul : NoNul server) (hsha : Function.Injective server.setup.sha256)
    (hmode : server.bootstrap.organizations ≠ []) (hset : Settled server w)
    (hattested : Attested server w) (hturn : Turn server path w event) :
    Attested server (next server path w event) ∧
      (Resolves server (next server path w event)
          (next server path w event).state.process.effective ∨
        (next server path w event).state.process.effective = w.state.process.effective ∧
          (event ≠ .Read → (next server path w event).waiting = w.waiting)) := by
  cases hturn with
  | recorded resolves waiting stream identity =>
    refine ⟨?_, .inl resolves⟩
    intro sha hsome
    rw [identity hmode] at hsome
    cases hsome
  | rests effective waiting unrecorded identity =>
    refine ⟨?_, .inr ⟨effective, waiting⟩⟩
    intro sha hsome
    rcases identity with hsame | ⟨-, hnone⟩ | ⟨hempty, -⟩
    · rw [hsame] at hsome
      rw [effective]
      exact hattested sha hsome
    · rw [hnone] at hsome
      cases hsome
    · exact absurd hempty hmode
  | reloads index fault reading event_eq waits reloaded files =>
    have hreading := (hset.waiting reading (List.mem_of_getElem? waits)).mpr hmode
    subst hreading
    generalize next server path w event = w' at reloaded files ⊢
    obtain ⟨state', files', waiting'⟩ := w'
    obtain rfl : files' = w.files := files
    cases reloaded with
    | same_organizations composed composes same =>
      refine ⟨hattested, .inl ?_⟩
      obtain ⟨files, ledger, before, hbefore, hidentity, hmerged⟩ := hattested _ same
      have hsame := merged_of_identity hnul hsha hbefore composes hidentity.symm
      have hresolves := resolves_composed hmode (w := w) composes
      unfold Resolves at hresolves ⊢
      rw [hresolves, hsame, hmerged]
    | organizations composed swapped composes news valid swaps =>
      obtain ⟨-, hledger, heffective⟩ := apply_runtime_keeps swaps
      constructor
      · intro sha hsome
        obtain rfl := Option.some.inj hsome
        exact ⟨w.files, w.state.process.ledger, composed, composes, rfl, heffective.symm⟩
      · left
        have hresolves := resolves_composed hmode (w := w) composes
        unfold Resolves at hresolves ⊢
        simp only
        rw [hledger, heffective, hresolves]

theorem organizations_run (hloaded : Loaded server) (hcodec : server.setup.codec.Faithful)
    (hnul : NoNul server) (hsha : Function.Injective server.setup.sha256)
    (hmode : server.bootstrap.organizations ≠ []) (hread : Event.Read ∉ after)
    (hset : Settled server w) (hattested : Attested server w)
    (hfits : trace.Along (next server path) (Fits server path) w after) :
    (∃ w' ∈ trace.states (next server path) w after,
        Resolves server w' (trace.run (next server path) w after).state.process.effective) ∨
      (trace.run (next server path) w after).state.process.effective =
          w.state.process.effective ∧
        (trace.run (next server path) w after).waiting = w.waiting := by
  induction after generalizing w with
  | nil => exact .inr ⟨rfl, rfl⟩
  | cons event rest ih =>
    rw [List.mem_cons, not_or] at hread
    obtain ⟨hattested', hstep⟩ := organizations_step hnul hsha hmode hset hattested
      (turn hloaded hcodec hfits.1)
    rcases ih hread.2 (settled_next path w event hset) hattested' hfits.2 with
      ⟨w', hw', hresolves⟩ | ⟨heffective, hwaiting⟩
    · exact .inl ⟨w', List.mem_cons_of_mem _ hw', hresolves⟩
    · rcases hstep with hresolves | ⟨hsame, hwaits⟩
      · left
        refine ⟨next server path w event,
          List.mem_cons_of_mem _ (trace.head_mem_states _ _), ?_⟩
        rw [trace.run_cons, heffective]
        exact hresolves
      · right
        rw [trace.run_cons, heffective, hwaiting]
        exact ⟨hsame, hwaits (Ne.symm hread.1)⟩

/-! ## The instance with one document -/

/-- Without a revision, an identity is the digest of a text that resolves to what runs. -/
def Based (server : Server) (w : World) : Prop :=
  Unrecorded server w → ∀ sha, w.state.effective_desired_sha = some sha → ∃ raw,
    sha = server.setup.sha256 raw ∧
      file_config server (app_hint w) raw = .ok w.state.process.effective

/-- With one document, a step records what would boot then; or it leaves what runs and lets no
reload go; or a reload runs the text that it has read. -/
inductive Change (server : Server) (path : String) (w : World) (event : Event) : Prop where
  | recorded (resolves : Resolves server (next server path w event)
        (next server path w event).state.process.effective)
      (waiting : (next server path w event).waiting = w.waiting)
  | rests (effective : (next server path w event).state.process.effective =
        w.state.process.effective)
      (waiting : event ≠ .Read → (next server path w event).waiting = w.waiting)
  | reloads (index : Nat) (fault : Option String) (raw : String)
      (event_eq : event = .Reload index fault) (waits : w.waiting[index]? = some (.Document raw))
      (waiting : (next server path w event).waiting = w.waiting.eraseIdx index)
      (unrecorded : Unrecorded server w)
      (runs : file_config server (app_hint w) raw =
        .ok (next server path w event).state.process.effective)

theorem document_step (hloaded : Loaded server) (hsha : Function.Injective server.setup.sha256)
    (hmode : server.bootstrap.organizations = []) (hset : Settled server w)
    (hbased : Based server w) (hfits : Fits server path w event)
    (hturn : Turn server path w event) :
    Based server (next server path w event) ∧
      (Unrecorded server (next server path w event) → Unrecorded server w) ∧
      Change server path w event := by
  have hhint := app_hint_next server path w event
  cases hturn with
  | recorded resolves waiting stream identity =>
    exact ⟨fun hunrecorded => absurd hunrecorded (stream hmode),
      fun hunrecorded => absurd hunrecorded (stream hmode), .recorded resolves waiting⟩
  | rests effective waiting unrecorded identity =>
    refine ⟨?_, unrecorded, .rests effective waiting⟩
    intro hunrecorded sha hsome
    rcases identity with hsame | ⟨hsome, -⟩ | ⟨-, hrecorded⟩
    · rw [hsame] at hsome
      rw [hhint, effective]
      exact hbased (unrecorded hunrecorded) sha hsome
    · exact absurd hmode hsome
    · exact absurd (unrecorded hunrecorded) hrecorded
  | reloads index fault reading event_eq waits reloaded files =>
    have hwaiting : (next server path w event).waiting = w.waiting.eraseIdx index := by
      rw [event_eq]
      simp only [next, step, waits]
    obtain ⟨hledger, -⟩ := reloaded_keeps reloaded
    have hback : Unrecorded server (next server path w event) → Unrecorded server w := by
      intro hunrecorded hbootable
      have hempty := hunrecorded hbootable
      rw [hledger] at hempty
      exact hempty
    cases reading with
    | Organizations => exact absurd hmode ((hset.waiting _ (List.mem_of_getElem? waits)).mp rfl)
    | Document raw =>
      have hstates := hfits.states index fault raw event_eq waits
      have hruns : Unrecorded server w ∧ file_config server (app_hint w) raw =
            .ok (next server path w event).state.process.effective ∧
          (next server path w event).state.effective_desired_sha =
            some (server.setup.sha256 raw) := by
        generalize (next server path w event).state = state' at reloaded ⊢
        cases reloaded with
        | same_document _ unrecorded same =>
          obtain ⟨raw', hraw, hconfig⟩ := hbased unrecorded _ same
          obtain rfl := hsha hraw
          exact ⟨unrecorded, hconfig, same⟩
        | document _ merged swapped unrecorded news merges valid swaps =>
          have hconfig := file_config_of_merge hloaded hmode merges hstates
          exact ⟨unrecorded, by rw [(apply_runtime_keeps swaps).2.2]; exact hconfig, rfl⟩
      refine ⟨?_, hback, .reloads index fault raw event_eq waits hwaiting hruns.1 hruns.2.1⟩
      intro _ sha hsome
      rw [hruns.2.2] at hsome
      rw [hhint]
      exact ⟨raw, (Option.some.inj hsome).symm, hruns.2.1⟩

/-- What a file with this text resolves to is known to resolve at some moment. -/
def Known (server : Server) (w : World) (raw : String) (known : Config → Prop) : Prop :=
  Unrecorded server w → ∀ config, file_config server (app_hint w) raw = .ok config → known config

theorem known_next {known : Config → Prop}
    (hback : Unrecorded server (next server path w event) → Unrecorded server w)
    (h : Known server w raw known) (known' : Config → Prop) (hmore : ∀ c, known c → known' c) :
    Known server (next server path w event) raw known' := by
  intro hunrecorded config hconfig
  rw [app_hint_next] at hconfig
  exact hmore config (h (hback hunrecorded) config hconfig)

/-- When all that wait have read one text, the end is that text or what was recorded since. -/
theorem document_run (hloaded : Loaded server) (hcodec : server.setup.codec.Faithful)
    (hsha : Function.Injective server.setup.sha256) (hmode : server.bootstrap.organizations = [])
    {known : Config → Prop} (hread : Event.Read ∉ after) (hset : Settled server w)
    (hbased : Based server w) (hfits : trace.Along (next server path) (Fits server path) w after)
    (hwaiting : ∀ reading ∈ w.waiting, reading = .Document raw) (hknown : Known server w raw known)
    (hnow : known w.state.process.effective) :
    known (trace.run (next server path) w after).state.process.effective ∨
      ∃ w' ∈ trace.states (next server path) w after,
        Resolves server w' (trace.run (next server path) w after).state.process.effective := by
  induction after generalizing w known with
  | nil => exact .inl hnow
  | cons event rest ih =>
    rw [List.mem_cons, not_or] at hread
    obtain ⟨hbased', hback, hchange⟩ := document_step hloaded hsha hmode hset hbased hfits.1
      (turn hloaded hcodec hfits.1)
    -- what was known, and what resolves after this step
    have hnext : ∀ known' : Config → Prop, (∀ c, known c → known' c) →
        known' (next server path w event).state.process.effective →
        (∀ reading ∈ (next server path w event).waiting, reading = .Document raw) →
        known' (trace.run (next server path) w (event :: rest)).state.process.effective ∨
          ∃ w' ∈ trace.states (next server path) (next server path w event) rest, Resolves server w'
            (trace.run (next server path) w (event :: rest)).state.process.effective :=
      fun known' hmore hnow' hall => ih hread.2 (settled_next path w event hset) hbased' hfits.2
        hall (known_next hback hknown known' hmore) hnow'
    have hlater : ∀ {config : Config},
        (∃ w' ∈ trace.states (next server path) (next server path w event) rest,
          Resolves server w' config) →
        ∃ w' ∈ trace.states (next server path) w (event :: rest), Resolves server w' config := by
      rintro config ⟨w', hw', hresolves⟩
      exact ⟨w', List.mem_cons_of_mem _ hw', hresolves⟩
    cases hchange with
    | recorded resolves waiting =>
      rw [waiting] at hnext
      rcases hnext (fun c => known c ∨ Resolves server (next server path w event) c)
        (fun c h => .inl h) (.inr resolves) hwaiting with (hend | hend) | hend
      · exact .inl hend
      · exact .inr ⟨_, List.mem_cons_of_mem _ (trace.head_mem_states _ _), hend⟩
      · exact .inr (hlater hend)
    | rests effective waiting =>
      rw [waiting (Ne.symm hread.1), effective] at hnext
      exact (hnext known (fun _ h => h) hnow hwaiting).imp id hlater
    | reloads index fault read event_eq waits waiting unrecorded runs =>
      obtain rfl : read = raw :=
        Reading.Document.inj (hwaiting _ (List.mem_of_getElem? waits))
      refine (hnext known (fun _ h => h) (hknown unrecorded _ runs) ?_).imp id hlater
      rw [waiting]
      exact fun reading hreading => hwaiting reading (List.mem_of_mem_eraseIdx hreading)

/-- Once nothing waits, the last that began has had the lock. -/
theorem last_document_run (hloaded : Loaded server) (hcodec : server.setup.codec.Faithful)
    (hsha : Function.Injective server.setup.sha256) (hmode : server.bootstrap.organizations = [])
    {known : Config → Prop} {earlier : List Reading} (hread : Event.Read ∉ after)
    (hset : Settled server w) (hbased : Based server w)
    (hfits : trace.Along (next server path) (Fits server path) w after)
    (hwaiting : w.waiting = earlier ++ [.Document raw]) (hknown : Known server w raw known)
    (hend : (trace.run (next server path) w after).waiting = []) :
    known (trace.run (next server path) w after).state.process.effective ∨
      ∃ w' ∈ trace.states (next server path) w after,
        Resolves server w' (trace.run (next server path) w after).state.process.effective := by
  induction after generalizing w earlier with
  | nil =>
    rw [trace.run_nil, hwaiting] at hend
    simp at hend
  | cons event rest ih =>
    rw [List.mem_cons, not_or] at hread
    obtain ⟨hbased', hback, hchange⟩ := document_step hloaded hsha hmode hset hbased hfits.1
      (turn hloaded hcodec hfits.1)
    have hset' := settled_next path w event hset
    have hknown' := known_next hback hknown known (fun _ h => h)
    have hlater : ∀ {config : Config}, (known config ∨
          ∃ w' ∈ trace.states (next server path) (next server path w event) rest,
            Resolves server w' config) →
        known config ∨ ∃ w' ∈ trace.states (next server path) w (event :: rest),
          Resolves server w' config := by
      rintro config (hnow | ⟨w', hw', hresolves⟩)
      · exact .inl hnow
      · exact .inr ⟨w', List.mem_cons_of_mem _ hw', hresolves⟩
    cases hchange with
    | recorded resolves waiting =>
      exact hlater (ih hread.2 hset' hbased' hfits.2 (waiting.trans hwaiting) hknown' hend)
    | rests effective waiting =>
      exact hlater (ih hread.2 hset' hbased' hfits.2
        ((waiting (Ne.symm hread.1)).trans hwaiting) hknown' hend)
    | reloads index fault read event_eq waits waiting unrecorded runs =>
      rw [hwaiting] at waits waiting
      by_cases hlast : index < earlier.length
      · rw [List.eraseIdx_append_of_lt_length hlast] at waiting
        exact hlater (ih hread.2 hset' hbased' hfits.2 waiting hknown' hend)
      · -- the last that began: those before it have read the same
        have hindex : index = earlier.length := by
          have hlt := (List.getElem?_eq_some_iff.mp waits).1
          simp only [List.length_append, List.length_singleton] at hlt
          omega
        subst hindex
        rw [List.getElem?_append_right (Nat.le_refl _), Nat.sub_self] at waits
        obtain rfl : raw = read := Reading.Document.inj (Option.some.inj waits)
        rw [List.eraseIdx_append_of_length_le (Nat.le_refl _), Nat.sub_self] at waiting
        simp only [List.eraseIdx_cons_zero, List.append_nil] at waiting
        refine hlater (document_run hloaded hcodec hsha hmode hread.2 hset' hbased' hfits.2 ?_
          hknown' (hknown unrecorded _ runs))
        intro reading hreading
        rw [waiting] at hreading
        obtain ⟨before, hlt, hbefore⟩ := List.mem_iff_getElem.mp hreading
        have hsame := hfits.1.in_order _ fault raw event_eq
          (by rw [hwaiting, List.getElem?_append_right (Nat.le_refl _), Nat.sub_self]; rfl)
          before hlt
        rw [hwaiting, List.getElem?_append_left hlt, List.getElem?_eq_getElem hlt] at hsame
        rw [← hbefore]
        exact Option.some.inj hsame

/-! ## From the start -/

theorem attested_served (h : Served server w) (hmode : server.bootstrap.organizations ≠ []) :
    Attested server w := by
  obtain ⟨-, secrets, ledger, hserve⟩ := h
  unfold serve at hserve
  simp only [bind_ok_iff, pure, Except.pure, Except.ok.injEq] at hserve
  obtain ⟨effective, hresolve, process, hruns, hstate⟩ := hserve
  obtain ⟨-, hledger, heffective⟩ := apply_runtime_keeps hruns
  intro sha hsome
  have hmode' : (at_files server w.files).bootstrap.organizations ≠ [] := hmode
  rw [← hstate] at hsome ⊢
  unfold resolve at hresolve
  rw [if_pos hmode'] at hresolve
  simp only [AppState.new, if_pos hmode', hledger] at hsome
  cases hcompose : compose_organizations (at_files server w.files).setup ledger
      (at_files server w.files).bootstrap none with
  | error err =>
    rw [hcompose] at hresolve
    cases hresolve
  | ok composed =>
    rw [hcompose] at hresolve hsome
    exact ⟨w.files, ledger, composed, hcompose, Option.some.inj hsome,
      (Except.ok.inj hresolve).trans heffective.symm⟩

theorem based_served (h : Served server w) (hmode : server.bootstrap.organizations = []) :
    Based server w := by
  obtain ⟨-, secrets, ledger, hserve⟩ := h
  unfold serve at hserve
  simp only [bind_ok_iff, pure, Except.pure, Except.ok.injEq] at hserve
  obtain ⟨effective, hresolve, process, hruns, hstate⟩ := hserve
  obtain ⟨-, hledger, heffective⟩ := apply_runtime_keeps hruns
  have hprocess : w.state.process = process := by
    rw [← hstate]
    rfl
  intro hunrecorded sha hsome
  have hnone : (if server.bootstrap.config_api.ledger_is_bootable = true ∧
      server.bootstrap.organizations = [] then latest_applied_config_revision ledger none
      else none) = none := by
    split
    · rename_i hbootable
      have hempty := hunrecorded hbootable.1
      rw [hprocess, hledger] at hempty
      exact hempty
    · rfl
  have hsha : w.state.effective_desired_sha =
      (w.files.app.bind (·.1)).map server.setup.sha256 := by
    rw [← hstate]
    have hmode' : ¬(at_files server w.files).bootstrap.organizations ≠ [] := not_not.mpr hmode
    simp only [AppState.new, if_neg hmode']
    have hnone' : (if (at_files server w.files).bootstrap.config_api.ledger_is_bootable = true ∧
        (at_files server w.files).bootstrap.organizations = [] then
        latest_applied_config_revision ledger none else none) = none := hnone
    rw [hnone']
    rfl
  rw [hsha] at hsome
  obtain ⟨raw, hraw, rfl⟩ := Option.map_eq_some_iff.mp hsome
  obtain ⟨⟨text, hint⟩, happ, htext⟩ := Option.bind_eq_some_iff.mp hraw
  obtain rfl : text = some raw := htext
  refine ⟨raw, rfl, ?_⟩
  have hfile := resolves_file hmode hunrecorded happ
  rw [hprocess, hledger] at hfile
  have hhint : app_hint w = hint := by
    unfold app_hint
    rw [happ]
    rfl
  rw [hhint, ← hfile, hprocess, heffective]
  exact hresolve

theorem read_waits (h : (step server path w .Read).1 = none) :
    ∃ reading, reload_reads (at_files server w.files) path = .ok reading ∧
      next server path w .Read = { w with waiting := w.waiting ++ [reading] } := by
  unfold next
  simp only [step] at h ⊢
  cases hreads : reload_reads (at_files server w.files) path with
  | error err => simp [hreads] at h
  | ok reading => exact ⟨reading, rfl, rfl⟩

theorem reads_document {reading : Reading} (hmode : server.bootstrap.organizations = [])
    (h : reload_reads server path = .ok reading) :
    ∃ raw hint, reading = .Document raw ∧ server.setup.files.app = some (some raw, hint) := by
  unfold reload_reads at h
  rw [if_neg (not_not.mpr hmode)] at h
  split at h
  · cases h
  · cases h
  · rename_i raw hint happ
    exact ⟨raw, hint, (Except.ok.inj h).symm, happ⟩

/-- What an identity stands for runs. -/
structure Held (server : Server) (w : World) : Prop where
  settled : Settled server w
  attested : server.bootstrap.organizations ≠ [] → Attested server w
  based : server.bootstrap.organizations = [] → Based server w

theorem held_next (hloaded : Loaded server) (hcodec : server.setup.codec.Faithful)
    (hnul : NoNul server) (hsha : Function.Injective server.setup.sha256) (h : Held server w)
    (hfits : Fits server path w event) : Held server (next server path w event) where
  settled := settled_next path w event h.settled
  attested := fun hmode =>
    (organizations_step hnul hsha hmode h.settled (h.attested hmode) (turn hloaded hcodec hfits)).1
  based := fun hmode =>
    (document_step hloaded hsha hmode h.settled (h.based hmode) hfits
      (turn hloaded hcodec hfits)).1

theorem held_served (h : Served server w) : Held server w where
  settled := settled_served h
  attested := attested_served h
  based := based_served h

/-- Once every call is answered, what runs resolves at a moment since the last reload began. -/
theorem ends_resolved {start : World} (hserved : Served server start) (hloaded : Loaded server)
    (hcodec : server.setup.codec.Faithful) (hnul : NoNul server)
    (hsha : Function.Injective server.setup.sha256) {before : List Event}
    (hread : Event.Read ∉ after)
    (hfits : trace.Along (next server path) (Fits server path) start (before ++ .Read :: after))
    (hend : (trace.run (next server path) start (before ++ .Read :: after)).waiting = []) :
    ∃ w ∈ trace.states (next server path)
        (trace.run (next server path) start (before ++ [.Read])) after,
      Resolves server w (trace.run (next server path) start
        (before ++ .Read :: after)).state.process.effective := by
  obtain ⟨hearlier, hnow, hlater⟩ := trace.along_append.mp hfits
  have hheld : Held server (trace.run (next server path) start before) :=
    trace.along_keeps (fun _ _ h hok => held_next hloaded hcodec hnul hsha h hok)
      (held_served hserved) hearlier
  have hbegin : trace.run (next server path) start (before ++ [.Read]) =
      next server path (trace.run (next server path) start before) .Read :=
    trace.run_append start before [.Read]
  have hfinal : trace.run (next server path) start (before ++ .Read :: after) =
      trace.run (next server path)
        (next server path (trace.run (next server path) start before) .Read) after :=
    trace.run_append start before (.Read :: after)
  rw [hbegin]
  rw [hfinal] at hend ⊢
  generalize trace.run (next server path) start before = w at hheld hnow hlater hend
  obtain ⟨hset, hattested, hbased⟩ := held_next hloaded hcodec hnul hsha hheld hnow
  obtain ⟨reading, hreads, hnext⟩ := read_waits hnow.answers
  by_cases hmode : server.bootstrap.organizations = []
  · have hmode' : (at_files server w.files).bootstrap.organizations = [] := hmode
    obtain ⟨raw, hint, rfl, happ⟩ := reads_document hmode' hreads
    have happ' : (next server path w .Read).files.app = some (some raw, hint) := by
      rw [hnext]
      exact happ
    have hwaiting : (next server path w .Read).waiting = w.waiting ++ [.Document raw] := by
      rw [hnext]
    have hknown : Known server (next server path w .Read) raw
        (Resolves server (next server path w .Read)) := by
      intro hunrecorded config hconfig
      unfold Resolves
      rw [resolves_file hmode hunrecorded happ', ← hconfig]
      unfold app_hint
      rw [happ']
      rfl
    rcases last_document_run hloaded hcodec hsha hmode hread hset (hbased hmode) hlater hwaiting
      hknown hend with hresolves | hresolves
    · exact ⟨_, trace.head_mem_states _ _, hresolves⟩
    · exact hresolves
  · rcases organizations_run hloaded hcodec hnul hsha hmode hread hset (hattested hmode) hlater with
      hresolves | ⟨-, hwaiting⟩
    · exact hresolves
    · rw [hwaiting, hnext] at hend
      simp at hend

/-! ## Older texts -/

/-- Reloads wait in the order in which they have read; the text that runs is older than theirs, or
the same. -/
structure Ordered (server : Server) (v : Watched) : Prop where
  held : Held server v.world
  lengths : v.begun.length = v.world.waiting.length
  sorted : v.begun.Pairwise (· < ·)
  below : ∀ turn ∈ v.begun, turn < v.count
  runs : ∀ before shown, v.shown = some (before, shown) → Unrecorded server v.world →
    v.world.state.effective_desired_sha = some (server.setup.sha256 shown)
  shown : ∀ before shown, v.shown = some (before, shown) → before < v.count ∧
    ∀ (index turn : Nat) (raw : String), v.begun[index]? = some turn →
      v.world.waiting[index]? = some (.Document raw) → before < turn ∨ raw = shown

/-- A reload of a text leaves the identity, or takes the one of its text. -/
theorem reload_news {index : Nat} {fault : Option String}
    (hfits : Fits server path w (.Reload index fault))
    (hwaits : w.waiting[index]? = some (.Document raw)) :
    (next server path w (.Reload index fault)).state.effective_desired_sha =
        w.state.effective_desired_sha ∨
      Unrecorded server w ∧ w.state.effective_desired_sha ≠ some (server.setup.sha256 raw) ∧
        (next server path w (.Reload index fault)).state.effective_desired_sha =
          some (server.setup.sha256 raw) := by
  obtain ⟨hreloaded, -⟩ := reload_event server path fault hwaits
  rw [hfits.answers] at hreloaded
  generalize (next server path w (.Reload index fault)).state = state' at hreloaded ⊢
  cases hreloaded with
  | same_document _ unrecorded same => exact .inl rfl
  | document _ merged swapped unrecorded news merges valid swaps =>
    exact .inr ⟨unrecorded, news, rfl⟩

theorem older_of_ordered (h : Ordered server v) (hfits : Fits server path v.world event) :
    NeverOlder server path v event := by
  rintro index fault raw turn rfl hwaits hturn hnews before shown hshown
  rcases (h.shown before shown hshown).2 index turn raw hturn hwaits with hlt | rfl
  · exact hlt
  · rcases reload_news hfits hwaits with hsame | ⟨hunrecorded, hother, -⟩
    · exact absurd hsame hnews
    · exact absurd (h.runs before raw hshown hunrecorded) hother

theorem ordered_read (h : Ordered server v) (hheld : Held server (next server path v.world .Read))
    (hfits : Fits server path v.world .Read) : Ordered server (watch server path v .Read) := by
  obtain ⟨reading, -, hnext⟩ := read_waits hfits.answers
  rw [hnext] at hheld
  have hlength : (v.world.waiting ++ [reading]).length ≠ v.world.waiting.length := by
    simp
  simp only [watch, hnext, if_neg hlength]
  refine ⟨hheld, ?_, ?_, ?_, h.runs, ?_⟩
  · simp only [List.length_append, List.length_singleton, h.lengths]
  · refine List.pairwise_append.mpr ⟨h.sorted, List.pairwise_singleton _ _, ?_⟩
    intro turn hturn last hlast
    rw [List.mem_singleton.mp hlast]
    exact h.below turn hturn
  · intro turn hturn
    rcases List.mem_append.mp hturn with hturn | hturn
    · exact Nat.lt_succ_of_lt (h.below turn hturn)
    · rw [List.mem_singleton.mp hturn]
      exact Nat.lt_succ_self _
  · intro before shown hshown
    obtain ⟨hbelow, hall⟩ := h.shown before shown hshown
    refine ⟨Nat.lt_succ_of_lt hbelow, ?_⟩
    intro index turn raw hturn hwaits
    by_cases hindex : index < v.begun.length
    · rw [List.getElem?_append_left hindex] at hturn
      rw [List.getElem?_append_left (by rw [← h.lengths]; exact hindex)] at hwaits
      exact hall index turn raw hturn hwaits
    · -- the one that begins now
      rw [List.getElem?_append_right (Nat.le_of_not_lt hindex)] at hturn
      have hlast := List.mem_of_getElem? hturn
      rw [List.mem_singleton.mp hlast]
      exact .inl hbelow

theorem begun_lt {begun : List Nat} (h : begun.Pairwise (· < ·)) {index later turn turn' : Nat}
    (hlt : index < later) (hturn : begun[index]? = some turn)
    (hturn' : begun[later]? = some turn') : turn < turn' := by
  obtain ⟨hindex, rfl⟩ := List.getElem?_eq_some_iff.mp hturn
  obtain ⟨hlater, rfl⟩ := List.getElem?_eq_some_iff.mp hturn'
  exact List.pairwise_iff_getElem.mp h index later hindex hlater hlt

theorem ordered_reload {index : Nat} {fault : Option String}
    (hmode : server.bootstrap.organizations = []) (h : Ordered server v)
    (hheld : Held server (next server path v.world (.Reload index fault)))
    (hfits : Fits server path v.world (.Reload index fault)) :
    Ordered server (watch server path v (.Reload index fault)) := by
  cases hwaits : v.world.waiting[index]? with
  | none =>
    have hnext : next server path v.world (.Reload index fault) = v.world := by
      simp only [next, step, hwaits]
    have hout : v.begun.length ≤ index := by
      rw [h.lengths]
      exact List.getElem?_eq_none_iff.mp hwaits
    simp only [watch, hnext, hwaits, List.eraseIdx_of_length_le hout]
    exact h
  | some reading =>
    obtain ⟨raw, rfl⟩ : ∃ raw, reading = .Document raw := by
      cases reading with
      | Document raw => exact ⟨raw, rfl⟩
      | Organizations =>
        exact absurd hmode ((h.held.settled.waiting _ (List.mem_of_getElem? hwaits)).mp rfl)
    obtain ⟨turn, hturn⟩ : ∃ turn, v.begun[index]? = some turn := by
      have hlt := (List.getElem?_eq_some_iff.mp hwaits).1
      rw [← h.lengths] at hlt
      exact ⟨_, List.getElem?_eq_getElem hlt⟩
    have hwaiting : (next server path v.world (.Reload index fault)).waiting =
        v.world.waiting.eraseIdx index := by
      simp only [next, step, hwaits]
    obtain ⟨hreloaded, -⟩ := reload_event server path fault hwaits
    have hback : Unrecorded server (next server path v.world (.Reload index fault)) →
        Unrecorded server v.world := by
      intro hunrecorded hbootable
      have hempty := hunrecorded hbootable
      rw [(reloaded_keeps hreloaded).1] at hempty
      exact hempty
    have hlengths : (v.begun.eraseIdx index).length =
        (next server path v.world (.Reload index fault)).waiting.length := by
      rw [hwaiting, List.length_eraseIdx, List.length_eraseIdx, h.lengths]
    have hsorted := h.sorted.sublist (List.eraseIdx_sublist v.begun index)
    have hbelow : ∀ other ∈ v.begun.eraseIdx index, other < v.count :=
      fun other hother => h.below other (List.mem_of_mem_eraseIdx hother)
    rcases reload_news hfits hwaits with hsame | ⟨-, hother, hidentity⟩
    · simp only [watch, hwaits, hturn, if_pos hsame]
      refine ⟨hheld, hlengths, hsorted, hbelow, ?_, ?_⟩
      · intro before shown hshown hunrecorded
        exact hsame.trans (h.runs before shown hshown (hback hunrecorded))
      · intro before shown hshown
        obtain ⟨hlt, hall⟩ := h.shown before shown hshown
        refine ⟨hlt, ?_⟩
        intro place other text hplace htext
        have htext : (next server path v.world (.Reload index fault)).waiting[place]? =
          some (.Document text) := htext
        rw [hwaiting, List.getElem?_eraseIdx] at htext
        rw [List.getElem?_eraseIdx] at hplace
        split at hplace
        · rename_i hlt
          rw [if_pos hlt] at htext
          exact hall place other text hplace htext
        · rename_i hge
          rw [if_neg hge] at htext
          exact hall (place + 1) other text hplace htext
    · have hnews : (next server path v.world (.Reload index fault)).state.effective_desired_sha ≠
          v.world.state.effective_desired_sha := by
        rw [hidentity]
        exact Ne.symm hother
      simp only [watch, hwaits, hturn, if_neg hnews]
      refine ⟨hheld, hlengths, hsorted, hbelow, ?_, ?_⟩
      · intro before shown hshown _
        obtain ⟨-, rfl⟩ := Prod.mk.inj (Option.some.inj hshown)
        exact hidentity
      · intro before shown hshown
        obtain ⟨rfl, rfl⟩ := Prod.mk.inj (Option.some.inj hshown)
        refine ⟨h.below _ (List.mem_of_getElem? hturn), ?_⟩
        intro place other text hplace htext
        have htext : (next server path v.world (.Reload index fault)).waiting[place]? =
          some (.Document text) := htext
        rw [hwaiting, List.getElem?_eraseIdx] at htext
        rw [List.getElem?_eraseIdx] at hplace
        split at hplace
        · -- it began before, with the same text
          rename_i hlt
          rw [if_pos hlt, hfits.in_order index fault raw rfl hwaits place hlt] at htext
          exact .inr (Reading.Document.inj (Option.some.inj htext)).symm
        · rename_i hge
          exact .inl (begun_lt h.sorted (by omega) hturn hplace)

theorem ordered_other (hmode : server.bootstrap.organizations = []) (h : Ordered server v)
    (hheld : Held server (next server path v.world event)) (hturn : Turn server path v.world event)
    (hread : event ≠ .Read) (hreload : ∀ index fault, event ≠ .Reload index fault) :
    Ordered server { v with world := next server path v.world event } := by
  have hwaiting : (next server path v.world event).waiting = v.world.waiting :=
    next_waiting hread hreload
  refine ⟨hheld, ?_, h.sorted, h.below, ?_, ?_⟩
  · rw [h.lengths, hwaiting]
  · intro before shown hshown hunrecorded
    cases hturn with
    | recorded resolves waiting stream identity => exact absurd hunrecorded (stream hmode)
    | rests effective waiting unrecorded identity =>
      rcases identity with hsame | ⟨hsome, -⟩ | ⟨-, hrecorded⟩
      · exact hsame.trans (h.runs before shown hshown (unrecorded hunrecorded))
      · exact absurd hmode hsome
      · exact absurd (unrecorded hunrecorded) hrecorded
    | reloads index fault reading event_eq => exact absurd event_eq (hreload index fault)
  · intro before shown hshown
    obtain ⟨hbelow, hall⟩ := h.shown before shown hshown
    refine ⟨hbelow, ?_⟩
    intro index turn raw hbegun hwaits
    have hwaits : (next server path v.world event).waiting[index]? = some (.Document raw) := hwaits
    rw [hwaiting] at hwaits
    exact hall index turn raw hbegun hwaits

theorem ordered_watch (hloaded : Loaded server) (hcodec : server.setup.codec.Faithful)
    (hnul : NoNul server) (hsha : Function.Injective server.setup.sha256)
    (hmode : server.bootstrap.organizations = []) (h : Ordered server v)
    (hfits : Fits server path v.world event) :
    Ordered server (watch server path v event) := by
  have hheld := held_next hloaded hcodec hnul hsha h.held hfits
  have hother := ordered_other hmode h hheld (turn hloaded hcodec hfits)
  cases event with
  | Read => exact ordered_read h hheld hfits
  | Reload index fault => exact ordered_reload hmode h hheld hfits
  | Edit app text => exact hother (by simp) (by simp)
  | Apply faults if_match raw hint => exact hother (by simp) (by simp)
  | Rollback faults => exact hother (by simp) (by simp)
  | OrgApply faults org_id if_match raw hint => exact hother (by simp) (by simp)
  | OrgRollback faults org_id => exact hother (by simp) (by simp)

theorem world_watch (server : Server) (path : String) (v : Watched) (event : Event) :
    (watch server path v event).world = next server path v.world event := by
  cases event with
  | Read =>
    simp only [watch]
    split <;> rfl
  | Reload index fault => rfl
  | Edit app text => rfl
  | Apply faults if_match raw hint => rfl
  | Rollback faults => rfl
  | OrgApply faults org_id if_match raw hint => rfl
  | OrgRollback faults org_id => rfl

theorem never_older_of_ordered (hloaded : Loaded server) (hcodec : server.setup.codec.Faithful)
    (hnul : NoNul server) (hsha : Function.Injective server.setup.sha256)
    (hmode : server.bootstrap.organizations = []) {events : List Event} (h : Ordered server v)
    (hfits : trace.Along (next server path) (Fits server path) v.world events) :
    trace.Along (watch server path) (NeverOlder server path) v events := by
  induction events generalizing v with
  | nil => trivial
  | cons event rest ih =>
    refine ⟨older_of_ordered h hfits.1,
      ih (ordered_watch hloaded hcodec hnul hsha hmode h hfits.1) ?_⟩
    rw [world_watch]
    exact hfits.2

/-- With organizations no text is read before the lock. -/
theorem never_older_of_organizations (hmode : server.bootstrap.organizations ≠ [])
    {events : List Event} (h : Settled server v.world) :
    trace.Along (watch server path) (NeverOlder server path) v events := by
  induction events generalizing v with
  | nil => trivial
  | cons event rest ih =>
    refine ⟨?_, ih ?_⟩
    · rintro index fault raw turn rfl hwaits
      have hreading := (h.waiting _ (List.mem_of_getElem? hwaits)).mpr hmode
      cases hreading
    · rw [world_watch]
      exact settled_next path v.world event h

/-- Once every call is answered, the instance has converged. -/
theorem reloads_converge {server : Server} {path : String} {start : World}
    (hserved : Served server start) (hloaded : Loaded server)
    (hcodec : server.setup.codec.Faithful) (hnul : NoNul server)
    (hsha : Function.Injective server.setup.sha256) {before after : List Event}
    (hread : Event.Read ∉ after)
    (hfits : trace.Along (next server path) (Fits server path) start (before ++ .Read :: after))
    (hend : (trace.run (next server path) start (before ++ .Read :: after)).waiting = []) :
    Converges server path start before after := by
  refine ⟨ends_resolved hserved hloaded hcodec hnul hsha hread hfits hend, ?_⟩
  by_cases hmode : server.bootstrap.organizations = []
  · refine never_older_of_ordered hloaded hcodec hnul hsha hmode ?_ hfits
    have hwaiting : start.waiting = [] := hserved.1
    refine ⟨held_served hserved, ?_, List.Pairwise.nil, ?_, ?_, ?_⟩
    · unfold watched
      rw [hwaiting]
      rfl
    · intro turn hturn
      cases hturn
    · intro before shown hshown
      cases hshown
    · intro before shown hshown
      cases hshown
  · exact never_older_of_organizations hmode (settled_served hserved)

/-! ## Two reloads of one file -/

/-- The file is the authority. -/
def shelf : Server :=
  { atomic.bench (topics ["one", "two"]) with
    bootstrap := { database := { postgres_url := "postgres://db" } } }

def shelf_files : Files := { app := some (some (topic_text "one"), some .Toml) }

def shelf_start : World where
  state :=
    ⟨{ secrets := ⟨fun _ => none, fun _ => none⟩
       ledger := []
       effective := merge_bootstrap_over_desired shelf.bootstrap (topic "one").document
       sinks := [⟨.Kafka { brokers := ["k"], topic := "one" }, []⟩]
       watches := [] }, none, some (topic_text "one")⟩
  files := shelf_files

theorem shelf_served : Served shelf shelf_start :=
  ⟨rfl, ⟨fun _ => none, fun _ => none⟩, [], rfl⟩

def rewritten : Event := .Edit (some (topic_text "two")) (fun _ => none)

/-- The reload that has read the first text gets the lock last. -/
theorem a_slow_reload_overwrites :
    trace.Along (next shelf "app.toml") (fun w event => (step shelf "app.toml" w event).1 = none)
        shelf_start [.Read, rewritten, .Read, .Reload 1 none, .Reload 0 none] ∧
      (trace.run (next shelf "app.toml") shelf_start
        [.Read, rewritten, .Read, .Reload 1 none, .Reload 0 none]).waiting = [] ∧
      ¬Converges shelf "app.toml" shelf_start [.Read, rewritten]
        [.Reload 1 none, .Reload 0 none] := by
  refine ⟨⟨rfl, rfl, rfl, by decide +kernel, by decide +kernel, trivial⟩, rfl, ?_⟩
  rintro ⟨⟨w, hw, hresolves⟩, -⟩
  -- since the second has begun, the file has the second text
  have hall : (trace.states (next shelf "app.toml")
      (trace.run (next shelf "app.toml") shelf_start ([.Read, rewritten] ++ [.Read]))
      [.Reload 1 none, .Reload 0 none]).all (fun w =>
        (resolve (at_files shelf w.files).setup w.state.process.ledger shelf.bootstrap).toOption.map
          (·.notifiers) = some (topic "two").document.notifiers) = true := by
    decide +kernel
  have hruns : (trace.run (next shelf "app.toml") shelf_start ([.Read, rewritten] ++
      .Read :: [.Reload 1 none, .Reload 0 none])).state.process.effective.notifiers =
        (topic "one").document.notifiers := by
    decide +kernel
  have hsecond := of_decide_eq_true (List.all_eq_true.mp hall w hw)
  unfold Resolves at hresolves
  rw [hresolves, Except.toOption, Option.map_some, hruns] at hsecond
  exact absurd hsecond (by decide +kernel)

theorem shelf_loaded : Loaded shelf := ⟨shelf.bootstrap, rfl⟩

theorem shelf_faithful : shelf.setup.codec.Faithful := by
  apply Codec.samples_faithful
  intro a ha b hb
  simp only [topics, List.map_cons, List.map_nil, List.mem_cons, List.not_mem_nil, or_false]
    at ha hb
  rcases ha with rfl | rfl <;> rcases hb with rfl | rfl
  · exact fun _ => rfl
  · exact fun h => absurd h (by decide)
  · exact fun h => absurd h (by decide)
  · exact fun _ => rfl

theorem shelf_no_nul : NoNul shelf := by
  intro format text config hread
  obtain ⟨doc, hdoc, -⟩ := Option.map_eq_some_iff.mp hread
  have htext := List.find?_some hdoc
  simp only [Bool.and_eq_true, decide_eq_true_eq] at htext
  have hmem := List.mem_of_find?_eq_some hdoc
  simp only [topics, List.map_cons, List.map_nil, List.mem_cons, List.not_mem_nil, or_false]
    at hmem
  rw [← htext.2]
  unfold NulFree
  rcases hmem with rfl | rfl
  · decide
  · decide

/-- Every text on the shelf has a sink. -/
theorem shelf_states (w : World) (raw : String) : States shelf w raw := by
  have hread : ∀ format document, shelf.setup.codec.read format raw = some document →
      has_desired_state (apply_env_overrides shelf.setup.env document) = true := by
    intro format document hread
    obtain ⟨doc, hdoc, rfl⟩ := Option.map_eq_some_iff.mp hread
    have hmem := List.mem_of_find?_eq_some hdoc
    simp only [topics, List.map_cons, List.map_nil, List.mem_cons, List.not_mem_nil, or_false]
      at hmem
    rcases hmem with rfl | rfl
    · decide +kernel
    · decide +kernel
  have hparse : ∀ format document, parse_as shelf.setup.codec raw format = .ok document →
      has_desired_state (apply_env_overrides shelf.setup.env document) = true := by
    intro format document hparse
    unfold parse_as at hparse
    split at hparse
    · simp at hparse
    · split at hparse
      · rename_i hfound
        obtain rfl := Except.ok.inj hparse
        exact hread _ _ hfound
      · cases format <;> simp at hparse
  intro desired hdesired
  unfold parse_desired_document_with_hint at hdesired
  simp only at hdesired
  split at hdesired
  · rename_i hfound
    obtain rfl := Except.ok.inj hdesired
    exact hparse _ _ hfound
  · split at hdesired
    · rename_i hfound
      obtain rfl := Except.ok.inj hdesired
      exact hparse _ _ hfound
    · simp at hdesired

theorem shelf_fits (hanswers : (step shelf "app.toml" w event).1 = none)
    (hcall : attempt shelf w event = none)
    (hfirst : ∀ index fault, event = .Reload index fault → index = 0) :
    Fits shelf "app.toml" w event where
  answers := hanswers
  kept := by
    intro a ha
    rw [hcall] at ha
    cases ha
  states := fun _ _ raw _ _ => shelf_states w raw
  in_order := by
    intro index fault raw hevent _ before hlt
    rw [hfirst index fault hevent] at hlt
    omega

/-- They get the lock as they began. -/
theorem reloads_converge_here :
    Converges shelf "app.toml" shelf_start [.Read, rewritten]
      [.Reload 0 none, .Reload 0 none] := by
  refine reloads_converge shelf_served shelf_loaded shelf_faithful shelf_no_nul
    (fun _ _ h => h) (by simp) ?_ rfl
  refine ⟨shelf_fits rfl rfl ?_, shelf_fits rfl rfl ?_, shelf_fits rfl rfl ?_,
    shelf_fits ?_ rfl ?_, shelf_fits ?_ rfl ?_, trivial⟩
  case refine_4 => decide +kernel
  case refine_6 => decide +kernel
  all_goals
    intro index fault hevent
    cases hevent <;> rfl

end xrelease.converged
