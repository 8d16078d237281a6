-- The editor of a desired document in the front end (`ConfigEditPanel.svelte`), the views that it
-- is given (`OrgConfigView.svelte`, `data/config-resources.svelte.ts`) and the header of its
-- applies (`api/client.ts`), together with the instance that answers it. How a document is read
-- into drafts and written back (`desired-document.ts`) is the form's.
import Xrelease.AuthStore
import Xrelease.Conditional

namespace xrelease.edit_panel

open xrelease.config xrelease.config_apply xrelease.api text
open xrelease.auth_store (js_trim)
open xrelease.conditional (current_sha)

/-! ## The form -/

structure Form (Parsed Drafts : Type) where
  parse : String → Option Parsed
  read : Parsed → Drafts
  /-- The text of the drafts, over what else was parsed. -/
  write : Parsed → Drafts → String
  /-- The drafts pass the checks of the browser. -/
  valid : Parsed → Drafts → Bool
  /-- What `Content-Type` tells the server. -/
  hint : Parsed → Option DesiredFormat
  /-- `writeDefaults` leaves a `defaults` table in every document. -/
  written : ∀ parsed drafts, write parsed drafts ≠ ""

/-- An editor on the page: of one organization, or of the whole instance. -/
structure Panel (Parsed Drafts : Type) where
  form : Form Parsed Drafts
  organization : Option String
  /-- `ui_config_enabled`, and the source is `api`: an empty document can be edited. -/
  seeded : Bool

variable {Parsed Drafts : Type}

def Panel.stream (panel : Panel Parsed Drafts) : ApplyScope :=
  match panel.organization with
  | none => .Whole
  | some organization => .Organization (trim organization)

/-! ## Views -/

structure View where
  desired_content : Option String
  content_sha256 : Option String
  etag : Option String

/-- `a?.trim() || b`. -/
def trimmed_or (text : Option String) (otherwise : String) : String :=
  match text with
  | none => otherwise
  | some text => if js_trim text = "" then otherwise else js_trim text

def whole_view (view : ConfigView) : View :=
  ⟨view.desired_content, view.content_sha256, view.etag⟩

/-- `editorView`. -/
def editor_view (can_push : Bool) (view : OrgConfigView) : View where
  desired_content := some (trimmed_or view.desired_content
    (if view.desired_source = .Empty ∨ can_push then "{}\n" else ""))
  content_sha256 := some view.content_sha256
  etag := some view.etag

/-- What an editor reads of a view. -/
def Panel.raw (panel : Panel Parsed Drafts) (view : View) : String :=
  trimmed_or view.desired_content (if panel.seeded then "{}\n" else "")

/-- The text that a view gives an editor that leaves it as it is. -/
def Panel.shown (panel : Panel Parsed Drafts) (view : View) : Option String :=
  if panel.raw view = "" then none
  else
    (panel.form.parse (panel.raw view)).map (fun parsed =>
      panel.form.write parsed (panel.form.read parsed))

/-! ## The editor -/

inductive Busy where
  | Idle
  | Validating (apply : Bool)
  /-- The answer to this request is awaited. -/
  | Applying (request : Nat)
  /-- `onApplied` is awaited. -/
  | Refreshing
deriving DecidableEq

structure Editor (Parsed Drafts : Type) where
  /-- The query's, refreshed in the background. -/
  view : View
  parsed : Option (Parsed × Drafts)
  baseline : String
  loaded_sha : Option String
  busy : Busy
  /-- The record of the view that the drafts were loaded from. -/
  loaded : View

section
variable (panel : Panel Parsed Drafts)

def Editor.document_text (editor : Editor Parsed Drafts) : String :=
  editor.parsed.elim "" (fun (parsed, drafts) => panel.form.write parsed drafts)

def Editor.is_dirty (editor : Editor Parsed Drafts) : Bool :=
  editor.baseline ≠ "" && editor.document_text panel ≠ editor.baseline

def Editor.load_from_view (editor : Editor Parsed Drafts) : Editor Parsed Drafts :=
  let editor := { editor with loaded_sha := editor.view.content_sha256, loaded := editor.view }
  if panel.raw editor.view = "" then { editor with parsed := none, baseline := "" }
  else
    match panel.form.parse (panel.raw editor.view) with
    | none => { editor with parsed := none, baseline := "" }
    | some parsed =>
      let drafts := panel.form.read parsed
      { editor with parsed := some (parsed, drafts), baseline := panel.form.write parsed drafts }

/-- The state before the page is mounted. -/
def unmounted (view : View) : Editor Parsed Drafts where
  view := view
  parsed := none
  baseline := ""
  loaded_sha := none
  busy := .Idle
  loaded := view

/-- `onMount`. -/
def mount (view : View) : Editor Parsed Drafts := (unmounted view).load_from_view panel

/-- The effect: another digest is loaded, but never over unsaved edits. -/
def Editor.effect (editor : Editor Parsed Drafts) : Editor Parsed Drafts :=
  if editor.view.content_sha256.getD "" = editor.loaded_sha.getD "" then editor
  else if editor.is_dirty panel then editor
  else editor.load_from_view panel

/-- The inputs are disabled while the editor is busy. -/
def Editor.edit (editor : Editor Parsed Drafts) (drafts : Drafts) : Editor Parsed Drafts :=
  if editor.busy = .Idle then
    { editor with parsed := editor.parsed.map (fun (parsed, _) => (parsed, drafts)) }
  else editor

def Editor.discard (editor : Editor Parsed Drafts) : Editor Parsed Drafts :=
  if editor.is_dirty panel ∧ editor.busy = .Idle then editor.load_from_view panel else editor

/-- The buttons, and `runValidateOrApply` up to the answer of the validation. -/
def Editor.run_validate_or_apply (editor : Editor Parsed Drafts) (apply : Bool) :
    Editor Parsed Drafts :=
  match editor.parsed with
  | none => editor
  | some (parsed, drafts) =>
    if editor.busy ≠ .Idle ∨ js_trim (editor.document_text panel) = "" then editor
    else if apply && (!editor.is_dirty panel || !panel.form.valid parsed drafts) then editor
    else { editor with busy := .Validating apply }

end

/-- `formatIfMatch`. -/
def format_if_match (etag_or_sha : String) : String :=
  let trimmed := js_trim etag_or_sha
  if trimmed = "*" then "*"
  else if "W/".toList.isPrefixOf trimmed.toList then trimmed
  else if trimmed.toList.head? = some '"' ∧ trimmed.toList.getLast? = some '"' then trimmed
  else "\"" ++ trimmed ++ "\""

/-- `etag ?? view.content_sha256`, at the time that the apply is sent. -/
def View.if_match (view : View) : HeaderText :=
  match view.etag.or view.content_sha256 with
  | none => .Absent
  | some value => if value = "" then .Absent else .Text (format_if_match value)

/-! ## Runs -/

/-- An apply on its way. -/
structure Sent where
  request : Nat
  if_match : HeaderText
  text : String
  hint : Option DesiredFormat
  /-- The record of the view that the drafts were loaded from, and of what this editor had last
  applied. -/
  loaded : Option String
  applied : Option String

/-- An answer on its way back; none of a refusal. -/
structure Answer where
  request : Nat
  text : String
  content_sha256 : Option String

/-- The record of an apply that was accepted: the digest that the stream had. -/
structure Accepted where
  found : Option String
  loaded : Option String
  applied : Option String
deriving DecidableEq

structure Run (Parsed Drafts : Type) where
  world : World
  editor : Editor Parsed Drafts
  /-- The views on their way to the page. -/
  arriving : List View
  requests : List Sent
  answers : List Answer
  sends : Nat
  /-- The digest of what this editor last applied. -/
  applied : Option String
  /-- The text that the last good answer was about. -/
  acknowledged : Option String
  log : List Accepted

inductive Event (Drafts : Type) where
  /-- Other clients, the files, and the reloads. -/
  | Others (event : api.Event)
  /-- A `GET` is answered, with the ledger as it is read then. -/
  | Fetch (fault : Option String) (ledger : List ConfigRevision)
  | Deliver (index : Nat)
  | Edit (drafts : Drafts)
  | Discard
  | Click (apply : Bool)
  | Validated (valid : Bool)
  /-- The instance handles an apply of the editor. -/
  | Serve (index : Nat) (faults : RouteFaults)
  | Answered (index : Nat)
  /-- The request fails on the way, as the page sees it. -/
  | Lost
  | Refreshed

section
variable (server : Server) (path : String) (panel : Panel Parsed Drafts)

/-- The view that a `GET` would answer. -/
def fetched (w : World) (fault : Option String) (ledger : List ConfigRevision) :
    Option View :=
  match panel.organization with
  | none => (get_config (at_files server w.files) fault w.state ledger).toOption.map whole_view
  | some organization =>
    (get_org_config (at_files server w.files) fault w.state organization).toOption.map
      (editor_view (accepts_pushed_config server.bootstrap.config_api))

/-- The request of an apply. -/
def request (sent : Sent) (faults : RouteFaults) : api.Event :=
  match panel.organization with
  | none => .Apply faults sent.if_match sent.text sent.hint
  | some organization => .OrgApply faults organization sent.if_match sent.text sent.hint

/-- The digest that the answer to an apply has. -/
def answered_sha (w : World) (sent : Sent) (faults : RouteFaults) : Option String :=
  let answer := match panel.organization with
    | none => post_apply (at_files server w.files) faults w.state sent.if_match sent.text sent.hint
    | some organization =>
      post_org_apply (at_files server w.files) faults w.state organization sent.if_match sent.text
        sent.hint
  answer.1.toOption.map (·.content_sha256)

def send (run : Run Parsed Drafts) (parsed : Parsed) : Run Parsed Drafts :=
  { run with
    editor := { run.editor with busy := .Applying (run.sends + 1) }
    sends := run.sends + 1
    requests := run.requests ++ [{
      request := run.sends + 1
      if_match := run.editor.view.if_match
      text := run.editor.document_text panel
      hint := panel.form.hint parsed
      loaded := run.editor.loaded.content_sha256
      applied := run.applied }] }

def serve (run : Run Parsed Drafts) (index : Nat) (sent : Sent) (faults : RouteFaults) :
    Run Parsed Drafts :=
  let found := current_sha server run.world panel.stream
  let world := next server path run.world (request panel sent faults)
  let answer : Answer := ⟨sent.request, sent.text, answered_sha server panel run.world sent faults⟩
  let run := { run with
    world, requests := run.requests.eraseIdx index, answers := run.answers ++ [answer] }
  if answer.content_sha256.isSome then
    { run with
      applied := current_sha server world panel.stream
      log := run.log ++ [⟨found, sent.loaded, sent.applied⟩] }
  else run

def act (run : Run Parsed Drafts) : Event Drafts → Run Parsed Drafts
  | .Others event => { run with world := next server path run.world event }
  | .Fetch fault ledger =>
    { run with arriving := run.arriving ++ (fetched server panel run.world fault ledger).toList }
  | .Deliver index =>
    match run.arriving[index]? with
    | none => run
    | some view =>
      { run with
        editor := { run.editor with view }, arriving := run.arriving.eraseIdx index }
  | .Edit drafts => { run with editor := run.editor.edit drafts }
  | .Discard => { run with editor := run.editor.discard panel }
  | .Click apply => { run with editor := run.editor.run_validate_or_apply panel apply }
  | .Validated valid =>
    match run.editor.busy, run.editor.parsed with
    | .Validating true, some (parsed, _) =>
      if valid then send panel run parsed
      else { run with editor := { run.editor with busy := .Idle } }
    | .Validating _, _ => { run with editor := { run.editor with busy := .Idle } }
    | _, _ => run
  | .Serve index faults =>
    match run.requests[index]? with
    | none => run
    | some sent => serve server path panel run index sent faults
  | .Answered index =>
    match run.answers[index]? with
    | none => run
    | some answer =>
      let run := { run with answers := run.answers.eraseIdx index }
      if run.editor.busy = .Applying answer.request then
        match answer.content_sha256 with
        | none => { run with editor := { run.editor with busy := .Idle } }
        | some sha =>
          { run with
            editor := { run.editor with
              baseline := run.editor.document_text panel, loaded_sha := some sha
              busy := .Refreshing }
            acknowledged := some answer.text }
      else run
  | .Lost =>
    match run.editor.busy with
    | .Applying _ => { run with editor := { run.editor with busy := .Idle } }
    | _ => run
  | .Refreshed =>
    if run.editor.busy = .Refreshing then { run with editor := { run.editor with busy := .Idle } }
    else run

/-- Something happens, and the effect of the editor follows. -/
def step (run : Run Parsed Drafts) (event : Event Drafts) : Run Parsed Drafts :=
  let run := act server path panel run event
  { run with editor := run.editor.effect panel }

def start (w : World) (view : View) : Run Parsed Drafts where
  world := w
  editor := mount panel view
  arriving := []
  requests := []
  answers := []
  sends := 0
  applied := none
  acknowledged := none
  log := []

end

end xrelease.edit_panel
