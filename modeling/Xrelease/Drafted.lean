-- An editor of a desired document overwrites only what its drafts were loaded from or what it
-- last applied itself, and is clean only over what was served to it or accepted from it, in every
-- run in which each apply is sent while the live view is such a one.
import Xrelease.EditPanel

namespace xrelease.drafted

open xrelease.config xrelease.config_apply xrelease.outcomes xrelease.api xrelease.conditional
  xrelease.edit_panel text
open xrelease.auth_store (js_trim is_js_whitespace)

variable {Parsed Drafts : Type}

/-! ## The law -/

/-- What was found by each apply that was accepted. -/
def OverwritesItsOwn (run : Run Parsed Drafts) : Prop :=
  ∀ accepted ∈ run.log, ∃ sha, accepted.found = some sha ∧
    (accepted.loaded = some sha ∨ accepted.applied = some sha)

/-- The text of a clean editor. -/
def CleanIsServed (panel : Panel Parsed Drafts) (run : Run Parsed Drafts) : Prop :=
  run.editor.parsed.isSome = true → run.editor.is_dirty panel = false →
    panel.shown run.editor.view = some (run.editor.document_text panel) ∨
      run.acknowledged = some (run.editor.document_text panel)

/-- A digest is written in letters and digits. -/
def Written (sha : String) : Prop :=
  sha ≠ "" ∧ ∀ c ∈ sha.toList, is_ascii_alphanumeric c = true

/-- A view as the instance serves it. -/
structure Marked (view : View) : Prop where
  etag : view.etag = view.content_sha256.map etag
  written : ∀ sha, view.content_sha256 = some sha → Written sha

section
variable (server : Server) (panel : Panel Parsed Drafts)

/-- The steps of the runs in question. -/
def Fits (run : Run Parsed Drafts) : Event Drafts → Prop
  | .Others _ => True
  | .Fetch fault ledger => ∀ view, fetched server panel run.world fault ledger = some view →
      ∀ sha, view.content_sha256 = some sha → Written sha
  | .Deliver index => ∀ view, run.arriving[index]? = some view →
      view.content_sha256 = run.editor.loaded.content_sha256 →
        panel.raw view = panel.raw run.editor.loaded
  | .Validated _ => run.editor.busy = .Validating true → ∃ sha,
      run.editor.view.content_sha256 = some sha ∧
        (run.editor.loaded.content_sha256 = some sha ∨ run.applied = some sha)
  | .Edit _ | .Discard | .Click _ | .Serve _ _ | .Answered _ | .Lost | .Refreshed => True

end

/-! ## The header of an apply -/

theorem js_trim_etag (sha : String) : js_trim (etag sha) = etag sha := by
  unfold js_trim
  rw [etag_quoted, trim_quoted (by decide), ← etag_quoted, String.ofList_toList]

theorem format_etag (sha : String) : format_if_match (etag sha) = etag sha := by
  unfold format_if_match
  simp only [js_trim_etag]
  by_cases hstar : etag sha = "*"
  · rw [if_pos hstar, hstar]
  · rw [if_neg hstar]
    split
    · rfl
    · rw [if_pos]
      rw [etag_quoted]
      refine ⟨rfl, ?_⟩
      have hend : '"' :: (sha.toList ++ ['"']) = ('"' :: sha.toList) ++ ['"'] := rfl
      rw [hend, List.getLast?_append]
      rfl

theorem if_match_names {view : View} (h : Marked view) {sha : String}
    (hsha : view.content_sha256 = some sha) :
    ∃ header, view.if_match = .Text header ∧ Names header sha := by
  refine ⟨etag sha, ?_, names_etag (h.written sha hsha).2⟩
  have hne : etag sha ≠ "" := by
    intro hempty
    have hlist := congrArg String.toList hempty
    unfold etag at hlist
    rw [String.toList_append, String.toList_append] at hlist
    simp at hlist
  unfold View.if_match
  rw [h.etag, hsha]
  simp only [Option.map_some, Option.some_or, if_neg hne, format_etag]

/-! ## The invariant -/

/-- An apply of the editor is awaited, or about to be sent. -/
def Sending (busy : Busy) : Prop := busy = .Validating true ∨ ∃ request, busy = .Applying request

/-- What every run of fitting steps keeps. -/
structure Kept (panel : Panel Parsed Drafts) (run : Run Parsed Drafts) : Prop where
  arriving : ∀ view ∈ run.arriving, Marked view
  live : Marked run.editor.view
  loaded : Marked run.editor.loaded
  same : run.editor.view.content_sha256 = run.editor.loaded.content_sha256 →
    panel.raw run.editor.view = panel.raw run.editor.loaded
  based : run.editor.parsed.isSome = true → run.editor.baseline ≠ "" ∧
    (panel.shown run.editor.loaded = some run.editor.baseline ∧
        run.editor.loaded_sha = run.editor.loaded.content_sha256 ∨
      run.acknowledged = some run.editor.baseline)
  dirty : Sending run.editor.busy → run.editor.is_dirty panel = true
  requests : ∀ sent ∈ run.requests, ∃ header sha, sent.if_match = .Text header ∧
    Names header sha ∧ (sent.loaded = some sha ∨ sent.applied = some sha)
  sent : ∀ sent ∈ run.requests, sent.request ≤ run.sends ∧
    (run.editor.busy = .Applying sent.request → sent.text = run.editor.document_text panel)
  answered : ∀ answer ∈ run.answers, answer.request ≤ run.sends ∧
    (run.editor.busy = .Applying answer.request → answer.text = run.editor.document_text panel)
  log : OverwritesItsOwn run

/-- The drafts are those of the live view, or are not saved yet. -/
def Settled (panel : Panel Parsed Drafts) (run : Run Parsed Drafts) : Prop :=
  run.editor.view.content_sha256.getD "" = run.editor.loaded_sha.getD "" ∨
    run.editor.is_dirty panel = true

section
variable {server : Server} {path : String} {panel : Panel Parsed Drafts}

theorem load_fields (panel : Panel Parsed Drafts) (editor : Editor Parsed Drafts) :
    (editor.load_from_view panel).view = editor.view ∧
      (editor.load_from_view panel).loaded = editor.view ∧
      (editor.load_from_view panel).loaded_sha = editor.view.content_sha256 ∧
      (editor.load_from_view panel).busy = editor.busy := by
  unfold Editor.load_from_view
  dsimp only
  split
  · exact ⟨rfl, rfl, rfl, rfl⟩
  · split <;> exact ⟨rfl, rfl, rfl, rfl⟩

theorem load_based (editor : Editor Parsed Drafts)
    (h : (editor.load_from_view panel).parsed.isSome = true) :
    (editor.load_from_view panel).baseline ≠ "" ∧
      panel.shown editor.view = some (editor.load_from_view panel).baseline := by
  unfold Editor.load_from_view at h ⊢
  unfold Panel.shown
  dsimp only at h ⊢
  split at h
  · cases h
  · rename_i hraw
    rw [if_neg hraw, if_neg hraw]
    cases hparse : panel.form.parse (panel.raw editor.view) with
    | none => simp [hparse] at h
    | some parsed => exact ⟨panel.form.written _ _, rfl⟩

variable {run : Run Parsed Drafts}

theorem kept_load (h : Kept panel run) (hfree : ¬Sending run.editor.busy) :
    Kept panel { run with editor := run.editor.load_from_view panel } := by
  obtain ⟨hview, hloaded, hsha, hbusy⟩ := load_fields panel run.editor
  have hunsent : ∀ request, (run.editor.load_from_view panel).busy ≠ .Applying request := by
    intro request happlying
    rw [hbusy] at happlying
    exact hfree (.inr ⟨request, happlying⟩)
  refine ⟨h.arriving, ?_, ?_, ?_, ?_, ?_, h.requests, ?_, ?_, h.log⟩
  · rw [hview]
    exact h.live
  · rw [hloaded]
    exact h.live
  · intro _
    rw [hview, hloaded]
  · intro hparsed
    obtain ⟨hne, hshown⟩ := load_based run.editor hparsed
    exact ⟨hne, .inl ⟨by rw [hloaded]; exact hshown, by rw [hsha, hloaded]⟩⟩
  · intro hsending
    rw [hbusy] at hsending
    exact absurd hsending hfree
  · intro sent hsent
    exact ⟨(h.sent sent hsent).1, fun happlying => absurd happlying (hunsent _)⟩
  · intro answer hanswer
    exact ⟨(h.answered answer hanswer).1, fun happlying => absurd happlying (hunsent _)⟩

theorem kept_effect (h : Kept panel run) :
    Kept panel { run with editor := run.editor.effect panel } ∧
      Settled panel { run with editor := run.editor.effect panel } := by
  unfold Editor.effect
  split
  · rename_i hsha
    exact ⟨h, .inl hsha⟩
  · split
    · rename_i hdirty
      exact ⟨h, .inr hdirty⟩
    · rename_i hclean
      refine ⟨kept_load h (fun hsending => hclean (h.dirty hsending)), .inl ?_⟩
      obtain ⟨hview, -, hsha, -⟩ := load_fields panel run.editor
      change (run.editor.load_from_view panel).view.content_sha256.getD "" =
        (run.editor.load_from_view panel).loaded_sha.getD ""
      rw [hview, hsha]

/-- Nothing changes but whether the editor waits, and it does not send. -/
theorem kept_free (h : Kept panel run) {busy : Busy} (hfree : ¬Sending busy) :
    Kept panel { run with editor := { run.editor with busy } } where
  arriving := h.arriving
  live := h.live
  loaded := h.loaded
  same := h.same
  based := h.based
  dirty := fun hsending => absurd hsending hfree
  requests := h.requests
  sent := fun sent hsent =>
    ⟨(h.sent sent hsent).1, fun happlying => absurd (.inr ⟨_, happlying⟩) hfree⟩
  answered := fun answer hanswer =>
    ⟨(h.answered answer hanswer).1, fun happlying => absurd (.inr ⟨_, happlying⟩) hfree⟩
  log := h.log

theorem not_sending_idle : ¬Sending .Idle := by
  rintro (h | ⟨_, h⟩) <;> cases h

theorem not_sending_refreshing : ¬Sending .Refreshing := by
  rintro (h | ⟨_, h⟩) <;> cases h

/-! ## Every step -/

theorem kept_others (h : Kept panel run) (event : api.Event) :
    Kept panel (act server path panel run (.Others event)) :=
  ⟨h.arriving, h.live, h.loaded, h.same, h.based, h.dirty, h.requests, h.sent, h.answered, h.log⟩

theorem fetched_etag {w : World} {fault : Option String} {ledger : List ConfigRevision}
    {view : View} (h : fetched server panel w fault ledger = some view) :
    view.etag = view.content_sha256.map etag := by
  unfold fetched at h
  cases horg : panel.organization with
  | none =>
    simp only [horg] at h
    obtain ⟨config, hconfig, rfl⟩ := Option.map_eq_some_iff.mp h
    cases hget : get_config (at_files server w.files) fault w.state ledger with
    | error err => simp [hget, Except.toOption] at hconfig
    | ok view =>
      rw [hget] at hconfig
      obtain rfl := Option.some.inj hconfig
      obtain ⟨hsha, hetag⟩ := get_config_sha hget
      simp only [whole_view]
      rw [hetag, hsha]
  | some organization =>
    simp only [horg] at h
    obtain ⟨config, hconfig, rfl⟩ := Option.map_eq_some_iff.mp h
    cases hget : get_org_config (at_files server w.files) fault w.state organization with
    | error err => simp [hget, Except.toOption] at hconfig
    | ok view =>
      rw [hget] at hconfig
      obtain rfl := Option.some.inj hconfig
      unfold get_org_config at hget
      simp only [bind_ok_iff, pure, Except.pure, Except.ok.injEq] at hget
      obtain ⟨org, -, found, -, rfl⟩ := hget
      rfl

section

variable (h : Kept panel run)

include h

theorem kept_fetch {fault : Option String} {ledger : List ConfigRevision}
    (hfits : Fits server panel run (.Fetch fault ledger)) :
    Kept panel (act server path panel run (.Fetch fault ledger)) := by
  refine ⟨?_, h.live, h.loaded, h.same, h.based, h.dirty, h.requests, h.sent, h.answered, h.log⟩
  intro view hview
  rcases List.mem_append.mp hview with hview | hview
  · exact h.arriving view hview
  · have hfetched := Option.mem_toList.mp hview
    exact ⟨fetched_etag hfetched, hfits view hfetched⟩

theorem kept_deliver {index : Nat}
    (hfits : Fits server panel run (.Deliver index)) :
    Kept panel (act server path panel run (.Deliver index)) := by
  simp only [act]
  cases hview : run.arriving[index]? with
  | none => exact h
  | some view =>
    have hmem := List.mem_of_getElem? hview
    exact ⟨fun other hother => h.arriving other (List.mem_of_mem_eraseIdx hother),
      h.arriving view hmem, h.loaded, hfits view hview, h.based, h.dirty, h.requests, h.sent,
      h.answered, h.log⟩

theorem kept_edit (drafts : Drafts) :
    Kept panel (act server path panel run (.Edit drafts)) := by
  simp only [act, Editor.edit]
  split
  · rename_i hidle
    have hunsent : ∀ request, run.editor.busy ≠ .Applying request := by
      intro request happlying
      rw [hidle] at happlying
      cases happlying
    refine ⟨h.arriving, h.live, h.loaded, h.same, ?_, ?_, h.requests, ?_, ?_, h.log⟩
    · intro hparsed
      exact h.based (by simpa using hparsed)
    · intro hsending
      have hsending : Sending run.editor.busy := hsending
      rw [hidle] at hsending
      exact absurd hsending not_sending_idle
    · intro sent hsent
      exact ⟨(h.sent sent hsent).1, fun happlying => absurd happlying (hunsent _)⟩
    · intro answer hanswer
      exact ⟨(h.answered answer hanswer).1, fun happlying => absurd happlying (hunsent _)⟩
  · exact h

theorem kept_discard :
    Kept panel (act server path panel run .Discard) := by
  simp only [act, Editor.discard]
  split
  · rename_i hfree
    apply kept_load h
    rw [hfree.2]
    exact not_sending_idle
  · exact h

theorem kept_click (apply : Bool) :
    Kept panel (act server path panel run (.Click apply)) := by
  simp only [act, Editor.run_validate_or_apply]
  split
  · exact h
  · split
    · exact h
    · split
      · exact h
      · rename_i parsed drafts hparsed hready happly
        have hunsent : ∀ request, Busy.Validating apply ≠ .Applying request :=
          fun request heq => by cases heq
        refine ⟨h.arriving, h.live, h.loaded, h.same, h.based, ?_, h.requests, ?_, ?_, h.log⟩
        · rintro (hvalidating | ⟨request, happlying⟩)
          · cases hvalidating
            change run.editor.is_dirty panel = true
            cases hdirty : run.editor.is_dirty panel with
            | true => rfl
            | false => simp [hdirty] at happly
          · exact absurd happlying (hunsent request)
        · intro sent hsent
          exact ⟨(h.sent sent hsent).1, fun happlying => absurd happlying (hunsent _)⟩
        · intro answer hanswer
          exact ⟨(h.answered answer hanswer).1, fun happlying => absurd happlying (hunsent _)⟩

/-- What is sent names the live digest. -/
theorem kept_send (parsed : Parsed) (hdirty : run.editor.is_dirty panel = true)
    {sha : String} (hsha : run.editor.view.content_sha256 = some sha)
    (hown : run.editor.loaded.content_sha256 = some sha ∨ run.applied = some sha) :
    Kept panel (send panel run parsed) := by
  refine ⟨h.arriving, h.live, h.loaded, h.same, h.based, fun _ => hdirty, ?_, ?_, ?_, h.log⟩
  · intro sent hsent
    rcases List.mem_append.mp hsent with hsent | hsent
    · exact h.requests sent hsent
    · obtain ⟨header, hheader, hnames⟩ := if_match_names h.live hsha
      rw [List.mem_singleton.mp hsent]
      exact ⟨header, sha, hheader, hnames, hown⟩
  · intro sent hsent
    rcases List.mem_append.mp hsent with hsent | hsent
    · refine ⟨Nat.le_succ_of_le (h.sent sent hsent).1, ?_⟩
      intro happlying
      have hlast := Busy.Applying.inj happlying
      have hbefore := (h.sent sent hsent).1
      omega
    · rw [List.mem_singleton.mp hsent]
      exact ⟨Nat.le_refl _, fun _ => rfl⟩
  · intro answer hanswer
    refine ⟨Nat.le_succ_of_le (h.answered answer hanswer).1, ?_⟩
    intro happlying
    have hlast := Busy.Applying.inj happlying
    have hbefore := (h.answered answer hanswer).1
    omega

theorem kept_validated {valid : Bool}
    (hfits : Fits server panel run (.Validated valid)) :
    Kept panel (act server path panel run (.Validated valid)) := by
  simp only [act]
  split
  · rename_i parsed drafts hbusy hparsed
    split
    · obtain ⟨sha, hsha, hown⟩ := hfits hbusy
      exact kept_send h parsed (h.dirty (.inl hbusy)) hsha hown
    · exact kept_free h not_sending_idle
  · exact kept_free h not_sending_idle
  · exact h

end

theorem conditional_request {sent : Sent} {header : String} (faults : RouteFaults)
    (h : sent.if_match = .Text header) :
    Conditional header panel.stream (request panel sent faults) := by
  unfold request Panel.stream
  rw [h]
  cases panel.organization with
  | none => exact .whole faults sent.text sent.hint
  | some organization => exact .organization faults organization sent.text sent.hint

/-- An answer with a digest is one that accepts. -/
theorem accepts_of_answered {w : World} {sent : Sent} {faults : RouteFaults}
    (h : (answered_sha server panel w sent faults).isSome = true) :
    (api.step server path w (request panel sent faults)).1 = none := by
  unfold answered_sha at h
  unfold request
  cases horg : panel.organization with
  | none =>
    simp only [horg] at h
    simp only [api.step]
    cases hanswer : (post_apply (at_files server w.files) faults w.state sent.if_match sent.text
        sent.hint).1 with
    | error err => simp [hanswer, Except.toOption] at h
    | ok response => rfl
  | some organization =>
    simp only [horg] at h
    simp only [api.step]
    cases hanswer : (post_org_apply (at_files server w.files) faults w.state organization
        sent.if_match sent.text sent.hint).1 with
    | error err => simp [hanswer, Except.toOption] at h
    | ok response => rfl

theorem kept_serve (h : Kept panel run) (index : Nat) (faults : RouteFaults) :
    Kept panel (act server path panel run (.Serve index faults)) := by
  simp only [act]
  cases hsent : run.requests[index]? with
  | none => exact h
  | some sent =>
    have hmem := List.mem_of_getElem? hsent
    have hrequests : ∀ other ∈ run.requests.eraseIdx index, other ∈ run.requests :=
      fun other hother => List.mem_of_mem_eraseIdx hother
    have hanswers : ∀ answer ∈ run.answers ++ [(⟨sent.request, sent.text,
        answered_sha server panel run.world sent faults⟩ : Answer)],
        answer.request ≤ run.sends ∧ (run.editor.busy = .Applying answer.request →
          answer.text = run.editor.document_text panel) := by
      intro answer hanswer
      rcases List.mem_append.mp hanswer with hanswer | hanswer
      · exact h.answered answer hanswer
      · rw [List.mem_singleton.mp hanswer]
        exact h.sent sent hmem
    simp only [edit_panel.serve]
    split
    · rename_i haccepted
      refine ⟨h.arriving, h.live, h.loaded, h.same, h.based, h.dirty,
        fun other hother => h.requests other (hrequests other hother),
        fun other hother => h.sent other (hrequests other hother), hanswers, ?_⟩
      intro accepted hlog
      rcases List.mem_append.mp hlog with hlog | hlog
      · exact h.log accepted hlog
      · obtain ⟨header, sha, hheader, hnames, hown⟩ := h.requests sent hmem
        have haccepts : (api.step server path run.world (request panel sent faults)).1 = none :=
          accepts_of_answered haccepted
        obtain ⟨hfound, -⟩ := conditional_found (conditional_request faults hheader) hnames haccepts
        rw [List.mem_singleton.mp hlog]
        exact ⟨sha, hfound, hown⟩
    · exact ⟨h.arriving, h.live, h.loaded, h.same, h.based, h.dirty,
        fun other hother => h.requests other (hrequests other hother),
        fun other hother => h.sent other (hrequests other hother), hanswers, h.log⟩

theorem kept_answered (h : Kept panel run) (index : Nat) :
    Kept panel (act server path panel run (.Answered index)) := by
  simp only [act]
  cases hanswer : run.answers[index]? with
  | none => exact h
  | some answer =>
    have hmem := List.mem_of_getElem? hanswer
    have hread : Kept panel { run with answers := run.answers.eraseIdx index } :=
      ⟨h.arriving, h.live, h.loaded, h.same, h.based, h.dirty, h.requests, h.sent,
        fun other hother => h.answered other (List.mem_of_mem_eraseIdx hother), h.log⟩
    simp only
    split
    · rename_i hbusy
      cases hsha : answer.content_sha256 with
      | none => exact kept_free hread not_sending_idle
      | some sha =>
        -- nothing was edited since it was sent
        have htext := (h.answered answer hmem).2 hbusy
        have hfree := kept_free hread not_sending_refreshing
        refine ⟨h.arriving, h.live, h.loaded, h.same, ?_, ?_, h.requests, hfree.sent,
          hfree.answered, h.log⟩
        · intro hparsed
          refine ⟨?_, .inr (congrArg some htext)⟩
          change run.editor.document_text panel ≠ ""
          obtain ⟨⟨parsed, drafts⟩, hparsed⟩ := Option.isSome_iff_exists.mp hparsed
          have hparsed : run.editor.parsed = some (parsed, drafts) := hparsed
          unfold Editor.document_text
          rw [hparsed]
          exact panel.form.written parsed drafts
        · intro hsending
          exact absurd hsending not_sending_refreshing
    · exact hread

theorem kept_act (h : Kept panel run) {event : Event Drafts} (hfits : Fits server panel run event) :
    Kept panel (act server path panel run event) := by
  cases event with
  | Others event => exact kept_others h event
  | Fetch fault ledger => exact kept_fetch h hfits
  | Deliver index => exact kept_deliver h hfits
  | Edit drafts => exact kept_edit h drafts
  | Discard => exact kept_discard h
  | Click apply => exact kept_click h apply
  | Validated valid => exact kept_validated h hfits
  | Serve index faults => exact kept_serve h index faults
  | Answered index => exact kept_answered h index
  | Lost =>
    simp only [act]
    split
    · exact kept_free h not_sending_idle
    · exact h
  | Refreshed =>
    simp only [act]
    split
    · exact kept_free h not_sending_idle
    · exact h

theorem kept_step (h : Kept panel run) {event : Event Drafts}
    (hfits : Fits server panel run event) :
    Kept panel (edit_panel.step server path panel run event) ∧
      Settled panel (edit_panel.step server path panel run event) :=
  kept_effect (kept_act h hfits)

theorem kept_start (w : World) {view : View} (h : Marked view) :
    Kept panel (start panel w view) ∧ Settled panel (start panel w view) := by
  have hblank : Kept panel { start panel w view with editor := unmounted view } := by
    constructor
    case live => exact h
    case loaded => exact h
    case same => exact fun _ => rfl
    case based =>
      intro hparsed
      cases hparsed
    case dirty => exact fun hsending => absurd hsending not_sending_idle
    all_goals
      intro other hother
      cases hother
  refine ⟨kept_load hblank not_sending_idle, .inl ?_⟩
  obtain ⟨hview, -, hsha, -⟩ := load_fields panel (unmounted view)
  exact (congrArg (fun v : View => v.content_sha256.getD "") hview).trans
    (congrArg (Option.getD · "") hsha).symm

theorem sha_of_getD {view other : View} (h : Marked view) (hother : Marked other)
    (hsame : view.content_sha256.getD "" = other.content_sha256.getD "") :
    view.content_sha256 = other.content_sha256 := by
  cases hsha : view.content_sha256 with
  | none =>
    cases hsha' : other.content_sha256 with
    | none => rfl
    | some sha =>
      rw [hsha, hsha'] at hsame
      exact absurd hsame.symm (hother.written sha hsha').1
  | some sha =>
    cases hsha' : other.content_sha256 with
    | none =>
      rw [hsha, hsha'] at hsame
      exact absurd hsame (h.written sha hsha).1
    | some sha' =>
      rw [hsha, hsha'] at hsame
      exact congrArg some hsame

/-- Of a settled editor that is clean. -/
theorem clean_of_kept (h : Kept panel run) (hsettled : Settled panel run) :
    CleanIsServed panel run := by
  intro hparsed hclean
  obtain ⟨hne, hbased⟩ := h.based hparsed
  have htext : run.editor.document_text panel = run.editor.baseline := by
    unfold Editor.is_dirty at hclean
    simpa [hne] using hclean
  rw [htext]
  rcases hbased with ⟨hshown, hsha⟩ | hacknowledged
  · left
    rcases hsettled with hsettled | hdirty
    · rw [hsha] at hsettled
      have hraw := h.same (sha_of_getD h.live h.loaded hsettled)
      rw [← hshown]
      unfold Panel.shown
      rw [hraw]
    · rw [hclean] at hdirty
      cases hdirty
  · exact .inr hacknowledged

/-- In every run of fitting steps, every state reached. -/
theorem drafts_overwrite_their_own (w : World) {view : View} (hview : Marked view)
    {events : List (Event Drafts)}
    (hfits : trace.Along (edit_panel.step server path panel) (Fits server panel)
      (start panel w view) events) :
    ∀ run ∈ trace.states (edit_panel.step server path panel) (start panel w view) events,
      OverwritesItsOwn run ∧ CleanIsServed panel run := by
  have hall : ∀ run ∈ trace.states (edit_panel.step server path panel) (start panel w view) events,
      Kept panel run ∧ Settled panel run :=
    trace.along_all (fun _ _ (h : Kept panel _ ∧ Settled panel _) hfits => kept_step h.1 hfits)
      (kept_start w hview) hfits
  intro run hrun
  obtain ⟨hkept, hsettled⟩ := hall run hrun
  exact ⟨hkept.log, clean_of_kept hkept hsettled⟩

end

/-! ## Two editors of one topic -/

/-- A server where three documents are known; their digests are short. -/
def kiosk : Server :=
  let server := atomic.bench (topics ["one", "two", "three"])
  { server with
    setup :=
      { server.setup with
        sha256 := fun text =>
          (["one", "two", "three"].find? (fun name => topic_text name = text)).getD text } }

def kiosk_start : World :=
  next kiosk "app.toml" desk_start (.Apply {} .Absent (topic_text "one") none)

/-- Drafts that are the text itself. -/
def plain : Panel String String where
  form :=
    { parse := some
      read := id
      write := fun _ drafts => drafts ++ "\n"
      valid := fun _ _ => true
      hint := fun _ => some .Toml
      written := by
        intro _ drafts h
        have hlist := congrArg String.toList h
        rw [String.toList_append] at hlist
        simp at hlist }
  organization := none
  seeded := true

def first_view : View := ⟨some (topic_text "one"), some "one", some (etag "one")⟩

def third_row : ConfigRevision :=
  { id := 3, content := topic_text "three", content_sha256 := "three", status := .Applied }

/-- The drafts of the first document are kept as the view shows the third, which another client
has applied; they are applied over it. -/
theorem another_revision_is_overwritten :
    ¬∀ run ∈ trace.states (edit_panel.step kiosk "app.toml" plain)
      (start plain kiosk_start first_view)
      [.Edit (js_trim (topic_text "two")), .Others (.Apply {} .Absent (topic_text "three") none),
        .Fetch none [third_row], .Deliver 0, .Click true, .Validated true, .Serve 0 {}],
      OverwritesItsOwn run ∧ CleanIsServed plain run := by
  intro h
  obtain ⟨hlog, -⟩ := h _ (trace.run_mem_states _ _)
  have hrun : (trace.run (edit_panel.step kiosk "app.toml" plain)
      (start plain kiosk_start first_view)
      [.Edit (js_trim (topic_text "two")), .Others (.Apply {} .Absent (topic_text "three") none),
        .Fetch none [third_row], .Deliver 0, .Click true, .Validated true, .Serve 0 {}]).log =
      [⟨some "three", some "one", none⟩] := by
    decide +kernel
  unfold OverwritesItsOwn at hlog
  rw [hrun] at hlog
  obtain ⟨sha, hfound, hown⟩ := hlog _ (List.mem_singleton_self _)
  obtain rfl := Option.some.inj hfound
  rcases hown with hown | hown
  · exact absurd hown (by decide)
  · cases hown

theorem first_marked : Marked first_view where
  etag := rfl
  written := by
    intro sha hsha
    obtain rfl := Option.some.inj hsha
    exact ⟨by decide, List.all_eq_true.mp (by decide)⟩

/-- Another client applies, and the editor refreshes before the draft. -/
def refreshed_events : List (Event String) :=
  [.Others (.Apply {} .Absent (topic_text "three") none), .Fetch none [third_row], .Deliver 0,
    .Edit (js_trim (topic_text "two")), .Click true, .Validated true, .Serve 0 {}, .Answered 0]

theorem drafts_overwrite_their_own_here :
    (trace.run (edit_panel.step kiosk "app.toml" plain) (start plain kiosk_start first_view)
        refreshed_events).log = [⟨some "three", some "three", none⟩] ∧
      ∀ run ∈ trace.states (edit_panel.step kiosk "app.toml" plain)
          (start plain kiosk_start first_view) refreshed_events,
        OverwritesItsOwn run ∧ CleanIsServed plain run := by
  refine ⟨by decide +kernel, drafts_overwrite_their_own kiosk_start first_marked
    ⟨trivial, ?_, ?_, trivial, trivial, ?_, trivial, trivial, trivial⟩⟩
  · intro view hview sha hsha
    have hthree : ∀ view, fetched kiosk plain (next kiosk "app.toml" kiosk_start
        (.Apply {} .Absent (topic_text "three") none)) none [third_row] = some view →
        view.content_sha256 = some "three" := by
      decide +kernel
    rw [hthree view hview] at hsha
    obtain rfl := Option.some.inj hsha
    exact ⟨by decide, List.all_eq_true.mp (by decide)⟩
  · intro view hview hsame
    have hapart : ∀ view, (trace.run (edit_panel.step kiosk "app.toml" plain)
        (start plain kiosk_start first_view) (refreshed_events.take 2)).arriving[0]? = some view →
        view.content_sha256 ≠ some "one" := by
      decide +kernel
    exact absurd hsame (hapart view hview)
  · intro _
    exact ⟨"three", by decide +kernel, .inl (by decide +kernel)⟩

end xrelease.drafted
