-- The form editor's reading and writing of a desired-state document
-- (`front/src/lib/config/desired-document.ts`, `desired-map.ts`): the drafts of teams, sources and
-- channels, and the maps that are written from them. A map is the list of its entries by key;
-- `finite` says of which texts `Number` makes a finite number.
import Xrelease.AuthStore

namespace xrelease.desired_document

open text keyed
open xrelease.auth (Value)
open xrelease.auth_store (js_trim)

/-! ## Maps -/

/-- `DesiredMap`. -/
abbrev Row := List (String × Value)

/-- A key of an object. -/
def row_get (key : String) (row : Row) : Option Value := Table.look key row

/-- Assigning an entry: it stays in its place, or comes last. -/
def row_set (key : String) (value : Value) (row : Row) : Row :=
  if row.any (fun entry => entry.1 = key) then
    row.map (fun entry => if entry.1 = key then (key, value) else entry)
  else row ++ [(key, value)]

/-- The object without a key. -/
def row_delete (key : String) (row : Row) : Row := row.filter (fun entry => entry.1 ≠ key)

theorem mem_row_set {key : String} {value : Value} {row : Row} {entry : String × Value}
    (h : entry ∈ row_set key value row) : entry = (key, value) ∨ entry ∈ row := by
  unfold row_set at h
  split at h
  · obtain ⟨old, hold, rfl⟩ := List.mem_map.mp h
    split
    · exact Or.inl rfl
    · exact Or.inr hold
  · rcases List.mem_append.mp h with h | h
    · exact Or.inr h
    · exact Or.inl (List.mem_singleton.mp h)

theorem row_get_set_self (key : String) (value : Value) (row : Row) :
    row_get key (row_set key value row) = some value := by
  unfold row_get row_set
  split
  · rename_i hpresent
    induction row with
    | nil => simp at hpresent
    | cons entry rest ih =>
      simp only [List.map_cons, Table.look]
      by_cases hkey : entry.1 = key
      · simp [hkey]
      · simp only [hkey, if_false]
        exact ih (by simpa [hkey] using hpresent)
  · rename_i habsent
    have hnone : Table.look key row = none := by
      rw [Table.look_eq_none_iff]
      intro hmem
      obtain ⟨entry, hentry, hkey⟩ := List.mem_map.mp hmem
      exact habsent (List.any_eq_true.mpr ⟨entry, hentry, by simpa using hkey⟩)
    rw [Table.look_append, hnone]
    simp [Table.look]

theorem row_get_set_other {key other : String} (h : other ≠ key) (value : Value) (row : Row) :
    row_get key (row_set other value row) = row_get key row := by
  unfold row_get row_set
  split
  · rename_i hpresent
    clear hpresent
    induction row with
    | nil => rfl
    | cons entry rest ih =>
      simp only [List.map_cons, Table.look, ih]
      by_cases hother : entry.1 = other
      · simp [hother, h]
      · rw [if_neg hother]
  · rw [Table.look_append]
    simp [Table.look, h]

theorem row_get_delete_self (key : String) (row : Row) :
    row_get key (row_delete key row) = none := by
  unfold row_get
  rw [Table.look_eq_none_iff]
  intro hmem
  obtain ⟨entry, hentry, hkey⟩ := List.mem_map.mp hmem
  exact absurd hkey (by simpa using (List.mem_filter.mp hentry).2)

theorem row_get_delete_other {key other : String} (h : other ≠ key) (row : Row) :
    row_get key (row_delete other row) = row_get key row := by
  unfold row_get row_delete
  induction row with
  | nil => rfl
  | cons entry rest ih =>
    by_cases hother : entry.1 = other
    · have hkey : entry.1 ≠ key := fun hkey => h (hother.symm.trans hkey)
      rw [List.filter_cons_of_neg (by simpa using hother), ih, Table.look, if_neg hkey]
    · rw [List.filter_cons_of_pos (by simpa using hother), Table.look, Table.look, ih]

/-- The fields of an object; of anything else none. -/
def as_object : Option Value → Row
  | some (.Object fields) => fields
  | _ => []

/-- The items of an array; of anything else none. -/
def as_array : Option Value → List Value
  | some (.Items items) => items
  | _ => []

mutual

/-- `String(value)`. -/
def js_string : Value → String
  | .Null => "null"
  | .Flag b => if b then "true" else "false"
  | .Number text => text
  | .Str s => s
  | .Items items => ",".intercalate (js_strings items)
  | .Object _ => "[object Object]"

/-- The items of an array as it is turned into a text: nothing for `null`. -/
def js_strings : List Value → List String
  | [] => []
  | .Null :: rest => "" :: js_strings rest
  | item :: rest => js_string item :: js_strings rest

end

/-- The text of a value, as JavaScript writes it. -/
def str : Option Value → String
  | none => ""
  | some .Null => ""
  | some value => js_string value

/-- The text of a record of texts, if there is one. -/
def text_of (key : String) (fields : List (String × String)) : String :=
  (Table.look key fields).getD ""

/-- `text.split(',')`, trimmed, without empty parts. -/
def split_commas (s : String) : List String :=
  ((split (· == ',') s.toList).map (fun part => js_trim (String.ofList part))).filter (· ≠ "")

/-- A line without its carriage return. -/
def without_cr (line : List Char) : List Char :=
  if line.getLast? = some '\r' then line.dropLast else line

/-- `text.split(/\r?\n/)`. -/
def split_lines (s : String) : List String :=
  let lines := split (· == '\n') s.toList
  (lines.dropLast.map without_cr ++ lines.getLast?.toList).map String.ofList

/-! ## Redaction markers -/

/-- Placeholder `GET /api/v1/config` substitutes for secrets. -/
def REDACTED : String := "<redacted>"

/-- The marker of a hidden secret. -/
def is_redacted : Value → Bool
  | .Str s => s == REDACTED
  | _ => false

/-- Broker URLs keep host visible but mask userinfo as `…://<redacted>@host`. -/
def contains_redaction_marker : Value → Bool
  | .Str s => contains REDACTED s
  | _ => false

/-! ## Defaults and teams -/

/-- Numbers are kept as their texts. -/
structure DefaultsDraft where
  interval_secs : Option String
  jitter_secs : Option String
  upstream_requests_per_minute : Option String
  poll_on_startup : Bool
  notify_schedule : String
  ops_routing_tag : String

/-- A team in the form. -/
structure TeamDraft where
  /-- Stable editor row id. -/
  key : String
  tag : String
  name : String

/-- A number, unless it is none or not finite. -/
def write_number (finite : String → Bool) (key : String) (value : Option String) (row : Row) :
    Row :=
  match value with
  | none => row
  | some n => if finite n then row_set key (.Number n) row else row

/-- A trimmed text, or no entry. -/
def put_text (key value : String) (row : Row) : Row :=
  if js_trim value ≠ "" then row_set key (.Str (js_trim value)) row else row_delete key row

theorem row_get_put_text (key value : String) (row : Row) :
    row_get key (put_text key value row) =
      if js_trim value ≠ "" then some (.Str (js_trim value)) else none := by
  unfold put_text
  split
  · exact row_get_set_self key _ row
  · exact row_get_delete_self key row

theorem row_get_put_text_other {key other : String} (h : other ≠ key) (value : String)
    (row : Row) : row_get key (put_text other value row) = row_get key row := by
  unfold put_text
  split
  · exact row_get_set_other h _ row
  · exact row_get_delete_other h row

/-- The defaults back into the document. -/
def write_defaults (finite : String → Bool) (data : Row) (draft : DefaultsDraft) : Row :=
  let next := as_object (row_get "defaults" data)
  let next := write_number finite "interval_secs" draft.interval_secs next
  let next := write_number finite "jitter_secs" draft.jitter_secs next
  let next := write_number finite "upstream_requests_per_minute" draft.upstream_requests_per_minute
    next
  let next := row_set "poll_on_startup" (.Flag draft.poll_on_startup) next
  let next := put_text "notify_schedule" draft.notify_schedule next
  let next := put_text "ops_routing_tag" draft.ops_routing_tag next
  row_set "defaults" (.Object next) data

/-- A team back into the document. -/
def write_team (team : TeamDraft) : Row :=
  let row := [("tag", Value.Str (js_trim team.tag))]
  if js_trim team.name ≠ "" then row_set "name" (.Str (js_trim team.name)) row else row

/-- The teams that have a tag. -/
def write_teams (data : Row) (teams : List TeamDraft) : Row :=
  let next := (teams.filter (fun team => js_trim team.tag ≠ "")).map write_team
  row_set "teams" (.Items (next.map Value.Object)) data

/-! ## Sources -/

/-- A source in the form. -/
structure SourceDraft where
  /-- Stable editor row id (not necessarily the config `id`). -/
  key : String
  type : String
  id : String
  routing_tag : String
  preset : String
  pattern : String
  exclude_pattern : String
  include_prerelease : Bool
  prerelease_tags : String
  exclude_updated : Bool
  interval_secs : String
  jitter_secs : String
  notify_schedule : String
  /-- Kind-specific identity fields. -/
  fields : List (String × String)
  token : String
  token_env : String
  /-- Field keys that arrived redacted and have not been re-entered. -/
  redacted : List String
  /-- Keys present on the original object that the form does not own. -/
  extra : Row

/-- The keys that the form writes itself. -/
def OWNED_SOURCE_KEYS : List String :=
  ["type", "id", "routing_tag", "preset", "pattern", "exclude_pattern", "include_prerelease",
    "prerelease_tags", "exclude_updated", "interval_secs", "jitter_secs", "poll_on_startup",
    "notify_schedule", "repo", "project", "image", "name", "url", "host", "registry", "edition",
    "package_kind", "token", "token_env"]

/-- A field that a kind of source has of its own. -/
structure PrimaryField where
  key : String
  required : Bool := false
deriving DecidableEq

/-- The fields that a kind has of its own. -/
def primary_fields_for_kind (kind : String) : List PrimaryField :=
  match kind with
  | "github" | "codeberg" => [⟨"repo", true⟩]
  | "gitea" => [⟨"host", true⟩, ⟨"repo", true⟩]
  | "gitlab" => [⟨"project", true⟩, ⟨"host", false⟩]
  | "bitbucket" => [⟨"repo", true⟩, ⟨"host", false⟩, ⟨"edition", false⟩]
  | "docker" => [⟨"image", true⟩, ⟨"registry", false⟩]
  | "ghcr" | "quay" | "ecr" => [⟨"image", true⟩]
  | "feed" => [⟨"url", true⟩]
  | "artifacthub" => [⟨"name", true⟩, ⟨"host", false⟩, ⟨"package_kind", false⟩]
  | _ => [⟨"name", true⟩]

/-- Forge and registry kinds that accept a PAT. -/
def source_supports_token (kind : String) : Bool :=
  ["github", "codeberg", "gitea", "gitlab", "bitbucket", "docker", "ghcr", "quay", "ecr"].contains
    kind

/-- Entries of a row that a form does not own; assigning to `__proto__` makes none. -/
def extra_of (owned : List String) (row : Row) : Row :=
  row.filter (fun entry => !owned.contains entry.1 && entry.1 ≠ "__proto__")

/-- A list of tags as one text. -/
def prerelease_text : Option Value → String
  | some (.Items tags) => ", ".intercalate (tags.map js_string)
  | tags => str tags

def source_kind (row : Row) : String :=
  if str (row_get "type" row) = "" then "github" else str (row_get "type" row)

/-- The draft of a source in the document. -/
def read_source (key : String) (row : Row) : SourceDraft :=
  let type := source_kind row
  let token := row_get "token" row
  let marked := token.any (fun v => is_redacted v || contains_redaction_marker v)
  { key := key
    type := type
    id := str (row_get "id" row)
    routing_tag := str (row_get "routing_tag" row)
    preset := str (row_get "preset" row)
    pattern := str (row_get "pattern" row)
    exclude_pattern := str (row_get "exclude_pattern" row)
    include_prerelease := (row_get "include_prerelease" row).any (fun v => v.as_bool = some true)
    prerelease_tags := prerelease_text (row_get "prerelease_tags" row)
    exclude_updated := (row_get "exclude_updated" row).any (fun v => v.as_bool = some true)
    interval_secs := str (row_get "interval_secs" row)
    jitter_secs := str (row_get "jitter_secs" row)
    notify_schedule := str (row_get "notify_schedule" row)
    fields := (primary_fields_for_kind type).map (fun field =>
      (field.key, str (row_get field.key row)))
    token :=
      if source_supports_token type && !marked && token.isSome && js_trim (str token) ≠ "" then
        str token
      else ""
    token_env := if source_supports_token type then js_trim (str (row_get "token_env" row)) else ""
    redacted := if source_supports_token type && marked then ["token"] else []
    extra := extra_of OWNED_SOURCE_KEYS row }

/-- The rows of a list, numbered from `seq`. -/
def numbered (seq : Nat) (rows : List Value) : List (String × Row) :=
  rows.zipIdx.map (fun row => ("src-" ++ toString (seq + row.2 + 1), as_object (some row.1)))

/-- The drafts of all sources, numbered. -/
def read_sources (seq : Nat) (data : Row) : List SourceDraft :=
  (numbered seq (as_array (row_get "sources" data))).map (fun row => read_source row.1 row.2)

/-- A new source. -/
def empty_source_draft (key type : String) : SourceDraft where
  key := key
  type := type
  id := ""
  routing_tag := ""
  preset := ""
  pattern := ""
  exclude_pattern := ""
  include_prerelease := false
  prerelease_tags := ""
  exclude_updated := false
  interval_secs := ""
  jitter_secs := ""
  notify_schedule := ""
  fields := (primary_fields_for_kind type).map (fun field =>
    (field.key, if field.key = "edition" then "cloud" else ""))
  token := ""
  token_env := ""
  redacted := []
  extra := []

/-- The operator switches the kind of a source (`ConfigEditPanel.svelte`). -/
def change_source_type (draft : SourceDraft) (type : String) : SourceDraft :=
  let keeps := source_supports_token type
  { draft with
    type := type
    fields := (primary_fields_for_kind type).map (fun field =>
      (field.key, text_of field.key draft.fields))
    token := if keeps then draft.token else ""
    token_env := if keeps then draft.token_env else ""
    redacted := if keeps then draft.redacted else draft.redacted.filter (· ≠ "token") }

/-- A flag that is set, or no key. -/
def put_flag (key : String) (value : Bool) (row : Row) : Row :=
  if value then row_set key (.Flag true) row else row_delete key row

/-- A list that is not empty, or no key. -/
def put_list (key : String) (items : List String) (row : Row) : Row :=
  if items ≠ [] then row_set key (.Items (items.map Value.Str)) row else row_delete key row

/-- `Number(value)`, whatever it makes of the text. -/
def put_number (key value : String) (row : Row) : Row :=
  if js_trim value ≠ "" then row_set key (.Number value) row else row_delete key row

section
variable {key other : String} (h : other ≠ key) (row : Row)
include h

theorem row_get_put_flag (value : Bool) :
    row_get key (put_flag other value row) = row_get key row := by
  unfold put_flag
  split
  · exact row_get_set_other h _ row
  · exact row_get_delete_other h row

theorem row_get_put_list_other (items : List String) :
    row_get key (put_list other items row) = row_get key row := by
  unfold put_list
  split
  · exact row_get_set_other h _ row
  · exact row_get_delete_other h row

theorem row_get_put_number (value : String) :
    row_get key (put_number other value row) = row_get key row := by
  unfold put_number
  split
  · exact row_get_set_other h _ row
  · exact row_get_delete_other h row

end

theorem row_get_put_list (key : String) (items : List String) (row : Row) :
    row_get key (put_list key items row) =
      if items ≠ [] then some (.Items (items.map Value.Str)) else none := by
  unfold put_list
  split
  · exact row_get_set_self key _ row
  · exact row_get_delete_self key row

/-- A trimmed text, or the row as it is. -/
def add_text (key value : String) (row : Row) : Row :=
  if js_trim value ≠ "" then row_set key (.Str (js_trim value)) row else row

/-- A token that is typed, not a placeholder. -/
def put_inline_token (value : String) (row : Row) : Row :=
  let token := js_trim value
  if token ≠ "" ∧ token ≠ REDACTED ∧ contains REDACTED token = false then
    row_set "token" (.Str token) row
  else row

/-- The two fields of the token, where the kind takes one. -/
def put_token (draft : SourceDraft) (row : Row) : Row :=
  if source_supports_token draft.type then
    add_text "token_env" draft.token_env (put_inline_token draft.token row)
  else row

/-- A draft back into the document. -/
def write_source (draft : SourceDraft) : Row :=
  let row := row_set "type" (.Str draft.type) draft.extra
  let row := put_text "id" draft.id row
  -- same posture as the channels: never persist redaction markers
  let row := row.filter (fun entry => !contains_redaction_marker entry.2)
  let row := row_delete "token_env" (row_delete "token" row)
  let row := (primary_fields_for_kind draft.type).foldl (fun row field =>
    put_text field.key (text_of field.key draft.fields) row) row
  let row := put_token draft row
  let row := row_delete "apprise_tag" (put_text "routing_tag" draft.routing_tag row)
  let row := put_text "preset" draft.preset row
  let row := put_text "pattern" draft.pattern row
  let row := put_text "exclude_pattern" draft.exclude_pattern row
  let row := put_flag "include_prerelease" draft.include_prerelease row
  let row := put_list "prerelease_tags" (split_commas draft.prerelease_tags) row
  let row := put_flag "exclude_updated" draft.exclude_updated row
  let row := put_number "interval_secs" draft.interval_secs row
  let row := put_number "jitter_secs" draft.jitter_secs row
  put_text "notify_schedule" draft.notify_schedule row

/-- The tag and the preset of a source are the trimmed ones of its form. -/
theorem write_source_routing_tag (draft : SourceDraft) :
    row_get "routing_tag" (write_source draft) =
      if js_trim draft.routing_tag ≠ "" then some (.Str (js_trim draft.routing_tag)) else none := by
  unfold write_source
  rw [row_get_put_text_other (by decide), row_get_put_number (by decide),
    row_get_put_number (by decide), row_get_put_flag (by decide),
    row_get_put_list_other (by decide), row_get_put_flag (by decide),
    row_get_put_text_other (by decide), row_get_put_text_other (by decide),
    row_get_put_text_other (by decide), row_get_delete_other (by decide), row_get_put_text]

theorem write_source_preset (draft : SourceDraft) :
    row_get "preset" (write_source draft) =
      if js_trim draft.preset ≠ "" then some (.Str (js_trim draft.preset)) else none := by
  unfold write_source
  rw [row_get_put_text_other (by decide), row_get_put_number (by decide),
    row_get_put_number (by decide), row_get_put_flag (by decide),
    row_get_put_list_other (by decide), row_get_put_flag (by decide),
    row_get_put_text_other (by decide), row_get_put_text_other (by decide), row_get_put_text]

/-- All drafts back into the document. -/
def write_sources (data : Row) (sources : List SourceDraft) : Row :=
  row_set "sources" (.Items (sources.map (fun draft => Value.Object (write_source draft)))) data

/-! ## The fields of the channels -/

/-- How a field of a channel is edited. -/
inductive NotifierFieldType where
  | text
  | secret
  | number
  | list
  | select
  | template
  /-- Multiline `Header-Name: value`. -/
  | headers
deriving DecidableEq

/-- A field of a kind of channel. -/
structure NotifierFieldSpec where
  key : String
  type : NotifierFieldType
  required : Bool := false
  /-- Allowed values for `select` fields. -/
  options : List String := []
  /-- Server-side default, surfaced as an input placeholder. -/
  fallback : Option String := none
deriving DecidableEq

/-- The fields of a kind of channel. -/
def notifier_fields_for_kind (kind : String) : List NotifierFieldSpec :=
  match kind with
  | "apprise" =>
    [{ key := "endpoint", type := .text, fallback := some "http://apprise:8000" },
      { key := "urls", type := .list },
      { key := "urls_env", type := .text },
      { key := "format", type := .select, options := ["markdown", "text", "html"],
        fallback := some "markdown" }]
  | "webhook" =>
    [{ key := "url", type := .secret },
      { key := "url_env", type := .text },
      { key := "method", type := .select, options := ["POST", "PUT"], fallback := some "POST" },
      { key := "content_type", type := .text, fallback := some "application/json" },
      { key := "headers", type := .headers },
      { key := "headers_env", type := .text },
      { key := "secret", type := .secret },
      { key := "secret_env", type := .text },
      { key := "signature_header", type := .text, fallback := some "X-Signature-256" },
      { key := "template", type := .template }]
  | "express" =>
    [{ key := "base_url", type := .text, required := true },
      { key := "group_chat_id", type := .text, required := true },
      { key := "access_token", type := .secret },
      { key := "access_token_env", type := .text },
      { key := "recipients", type := .list },
      { key := "template", type := .template }]
  | "novu" =>
    [{ key := "base_url", type := .text, fallback := some "https://api.novu.co" },
      { key := "workflow", type := .text, required := true },
      { key := "topic_key", type := .text, fallback := some "\x7b\x7btag\x7d\x7d" },
      { key := "subscriber_id", type := .text },
      { key := "api_key", type := .secret },
      { key := "api_key_env", type := .text }]
  | "slack" =>
    [{ key := "webhook_url", type := .secret },
      { key := "webhook_url_env", type := .text },
      { key := "bot_token", type := .secret },
      { key := "bot_token_env", type := .text },
      { key := "channel", type := .text },
      { key := "api_base", type := .text, fallback := some "https://slack.com/api" },
      { key := "template", type := .template }]
  | "telegram" =>
    [{ key := "api_base", type := .text, fallback := some "https://api.telegram.org" },
      { key := "bot_token", type := .secret },
      { key := "bot_token_env", type := .text },
      { key := "chat_id", type := .text, required := true },
      { key := "parse_mode", type := .select, options := ["", "HTML", "Markdown", "MarkdownV2"],
        fallback := some "" },
      { key := "template", type := .template }]
  | "smtp" =>
    [{ key := "host", type := .text, required := true },
      { key := "port", type := .number, fallback := some "587" },
      { key := "from", type := .text, required := true },
      { key := "to", type := .list, required := true },
      { key := "username", type := .text },
      { key := "password", type := .secret },
      { key := "password_env", type := .text },
      { key := "tls", type := .select, options := ["starttls", "tls", "plain"],
        fallback := some "starttls" },
      { key := "subject_template", type := .text },
      { key := "template", type := .template },
      { key := "body_format", type := .select, options := ["text", "markdown"],
        fallback := some "text" }]
  | "kafka" =>
    [{ key := "brokers", type := .list, required := true },
      { key := "topic", type := .text, required := true },
      { key := "key", type := .text },
      { key := "template", type := .template }]
  | "nats" =>
    [{ key := "url", type := .text },
      { key := "url_env", type := .text },
      { key := "subject", type := .text, required := true },
      { key := "template", type := .template }]
  | "rabbitmq" =>
    [{ key := "url", type := .text },
      { key := "url_env", type := .text },
      { key := "exchange", type := .text },
      { key := "routing_key", type := .text, required := true },
      { key := "template", type := .template }]
  | _ => []

/-- Apprise sink config has no `name` field; other kinds do. -/
def notifier_supports_name (kind : String) : Bool := kind ≠ "apprise"

/-- Parse `Header-Name: value` lines into a headers map. -/
def parse_headers_field (text : String) : Row :=
  (split_lines text).foldl (fun out line =>
    let trimmed := js_trim line
    if trimmed = "" ∨ "#".toList.isPrefixOf trimmed.toList = true then out
    else
      match split_once ":" trimmed with
      | none => out
      | some (name, value) =>
        if name = "" ∨ js_trim name = "" ∨ js_trim name = "__proto__" then out
        else row_set (js_trim name) (.Str (js_trim value)) out) []

/-- Format a headers map for the form textarea. -/
def format_headers_field (headers : List (String × String)) : String :=
  "\n".intercalate (headers.map (fun header => header.1 ++ ": " ++ header.2))

/-- Routing tags may be a list or a comma-separated text. -/
def routing_tags_from_value : Option Value → List String
  | some (.Items items) => (items.map (fun item => str (some item))).filter (· ≠ "")
  | some (.Str s) => if js_trim s ≠ "" then split_commas s else []
  | _ => []

/-! ## Channels -/

/-- A channel in the form. -/
structure NotifierDraft where
  /-- Stable editor row id. -/
  key : String
  type : String
  name : String
  /-- Routing tags, comma separated; empty = wildcard (every event). -/
  tags : String
  /-- Scalar fields per kind; `list` fields are newline separated. -/
  fields : List (String × String)
  /-- Field keys that arrived redacted and have not been re-entered. -/
  redacted : List String
  /-- Keys the form does not own, preserved verbatim. -/
  extra : Row

/-- The text of a field of the form, and whether it arrived redacted. -/
def read_field (row : Row) (spec : NotifierFieldSpec) : String × Bool :=
  let raw := row_get spec.key row
  let marked := raw.any contains_redaction_marker
  match spec.type with
  | .list =>
    let items := (as_array raw).map (fun item => str (some item))
    if items.any (· = REDACTED) then ("", true) else ("\n".intercalate items, false)
  | .headers =>
    let entries := as_object raw
    if entries.any (fun entry => is_redacted entry.2) then ("", true)
    else (format_headers_field (entries.map (fun entry => (entry.1, str (some entry.2)))), false)
  | .secret => if raw.any is_redacted || marked then ("", true) else (str raw, false)
  | _ =>
    if (spec.key = "url" ∨ spec.key = "webhook_url") ∧ marked = true then ("", true)
    else (str raw, false)

/-- The draft of a channel in the document. -/
def read_notifier_row (key : String) (row : Row) (type : String) : NotifierDraft :=
  let specs := notifier_fields_for_kind type
  { key := key
    type := type
    name := str (row_get "name" row)
    tags := ", ".intercalate (routing_tags_from_value (row_get "tags" row))
    fields := specs.map (fun spec => (spec.key, (read_field row spec).1))
    redacted := (specs.filter (fun spec => (read_field row spec).2)).map (·.key)
    extra := extra_of (["type", "name", "tags"] ++ specs.map (·.key)) row }

def notifier_kind (row : Row) : String :=
  if str (row_get "type" row) = "" then "webhook" else str (row_get "type" row)

/-- Every delivery channel in document order. -/
def read_notifiers (seq : Nat) (data : Row) : List NotifierDraft :=
  (numbered seq (as_array (row_get "notifiers" data))).map (fun row =>
    read_notifier_row row.1 row.2 (notifier_kind row.2))

/-- What a new channel has in a field. -/
def NotifierFieldSpec.initial (spec : NotifierFieldSpec) : String :=
  match spec.type with
  | .select => spec.fallback.getD (spec.options.head?.getD "")
  | _ => spec.fallback.getD ""

/-- A new channel. -/
def empty_notifier_draft (key type : String) : NotifierDraft where
  key := key
  type := type
  name := ""
  tags := ""
  fields := (notifier_fields_for_kind type).map (fun spec => (spec.key, spec.initial))
  redacted := []
  extra := []

/-- Re-key a draft's fields when the operator switches channel kind. -/
def change_notifier_kind (draft : NotifierDraft) (type : String) : NotifierDraft :=
  let specs := notifier_fields_for_kind type
  { key := draft.key
    type := type
    name := draft.name
    tags := draft.tags
    fields := specs.map (fun spec =>
      let previous := text_of spec.key draft.fields
      (spec.key, if previous ≠ "" then previous else spec.initial))
    redacted := draft.redacted.filter (fun key => specs.any (fun spec => spec.key = key))
    extra := draft.extra }

/-- Assigning a text of a record. -/
def assign (key value : String) (fields : List (String × String)) : List (String × String) :=
  if fields.any (fun field => field.1 = key) then
    fields.map (fun field => if field.1 = key then (key, value) else field)
  else fields ++ [(key, value)]

/-- Clone a channel for another team or destination, without its secrets. -/
def duplicate_notifier_draft (key : String) (draft : NotifierDraft) : NotifierDraft :=
  let specs := notifier_fields_for_kind draft.type
  let paired (spec : NotifierFieldSpec) : Bool :=
    !"_env".toList.isSuffixOf spec.key.toList &&
      specs.any (fun other => other.key = spec.key ++ "_env")
  { key := key
    type := draft.type
    name := if js_trim draft.name ≠ "" then js_trim draft.name ++ "-copy" else ""
    tags := draft.tags
    fields := (specs.filter paired).foldl (fun fields spec =>
      assign (spec.key ++ "_env") "" (assign spec.key "" fields)) draft.fields
    redacted := []
    extra := draft.extra }

/-- An entry of `extra` that is dropped as a placeholder. -/
def is_placeholder : Value → Bool
  | .Items items => items.any is_redacted
  | value => is_redacted value

section
variable (finite : String → Bool)

/-- One field of the form. -/
def write_field (draft : NotifierDraft) (row : Row) (spec : NotifierFieldSpec) : Row :=
  let value := js_trim (text_of spec.key draft.fields)
  if value = "" ∧ draft.redacted.contains spec.key = true then row_delete spec.key row
  else if value = "" ∨ contains REDACTED value = true then row_delete spec.key row
  else
    match spec.type with
    | .list => put_list spec.key (((split_lines value).map js_trim).filter (· ≠ "")) row
    | .headers =>
      let map := (parse_headers_field value).filter (fun entry =>
        !is_redacted entry.2 && str (some entry.2) ≠ "")
      if map ≠ [] then row_set "headers" (.Object map) row else row_delete "headers" row
    | .number =>
      if finite value then row_set spec.key (.Number value) row else row_delete spec.key row
    | _ => row_set spec.key (.Str value) row

/-- The URLs of Apprise are inline. -/
def has_urls (row : Row) : Bool :=
  match row_get "urls" row with
  | some (.Items urls) => !urls.isEmpty
  | some (.Str urls) => urls ≠ ""
  | _ => false

/-- Form Apprise is urls-mode: no leftover of the persistent mode. -/
def without_key_mode (row : Row) : Row :=
  if has_urls row then row_delete "tag" (row_delete "config_key" row) else row

/-- Form express prefers static Bearer: no HMAC leftovers. -/
def without_hmac (row : Row) : Row :=
  let token := js_trim (str (row_get "access_token" row))
  if token ≠ "" ∧ token ≠ REDACTED then
    row_delete "access_token_env"
      (row_delete "secret_key_env" (row_delete "secret_key" (row_delete "bot_id" row)))
  else row

/-- A channel back into the document. -/
def write_notifier_row (draft : NotifierDraft) : Row :=
  let row := row_set "type" (.Str draft.type) draft.extra
  -- never persist redaction placeholders from `extra`
  let row := row.filter (fun entry => !is_placeholder entry.2)
  let row :=
    if notifier_supports_name draft.type && js_trim draft.name ≠ "" then
      row_set "name" (.Str (js_trim draft.name)) row
    else row_delete "name" row
  let row := put_list "tags" (split_commas draft.tags) row
  let row := (notifier_fields_for_kind draft.type).foldl (write_field finite draft) row
  let row := if draft.type = "apprise" then without_key_mode row else row
  if draft.type = "express" then without_hmac row else row

theorem write_field_other {key : String} {draft : NotifierDraft} {spec : NotifierFieldSpec}
    (hspec : spec.key ≠ key) (hheaders : "headers" ≠ key) (row : Row) :
    row_get key (write_field finite draft row spec) = row_get key row := by
  unfold write_field
  dsimp only
  split
  · exact row_get_delete_other hspec row
  · split
    · exact row_get_delete_other hspec row
    · split
      · exact row_get_put_list_other hspec row _
      · split
        · exact row_get_set_other hheaders _ row
        · exact row_get_delete_other hheaders row
      · split
        · exact row_get_set_other hspec _ row
        · exact row_get_delete_other hspec row
      · exact row_get_set_other hspec _ row

theorem write_fields_other {key : String} {draft : NotifierDraft}
    {specs : List NotifierFieldSpec} (hspecs : ∀ spec ∈ specs, spec.key ≠ key)
    (hheaders : "headers" ≠ key) (row : Row) :
    row_get key (specs.foldl (write_field finite draft) row) = row_get key row := by
  induction specs generalizing row with
  | nil => rfl
  | cons spec rest ih =>
    rw [List.foldl_cons, ih (fun s hs => hspecs s (List.mem_cons_of_mem _ hs)),
      write_field_other finite (hspecs spec List.mem_cons_self) hheaders]

theorem no_field_is_tags (kind : String) :
    ∀ spec ∈ notifier_fields_for_kind kind, spec.key ≠ "tags" := by
  unfold notifier_fields_for_kind
  split <;> decide

/-- The tags of a channel are those of its form. -/
theorem write_notifier_row_tags (draft : NotifierDraft) :
    row_get "tags" (write_notifier_row finite draft) =
      if split_commas draft.tags ≠ [] then some (.Items ((split_commas draft.tags).map Value.Str))
      else none := by
  have hmode (row : Row) : row_get "tags" (without_key_mode row) = row_get "tags" row := by
    unfold without_key_mode
    split
    · rw [row_get_delete_other (by decide), row_get_delete_other (by decide)]
    · rfl
  have hhmac (row : Row) : row_get "tags" (without_hmac row) = row_get "tags" row := by
    unfold without_hmac
    dsimp only
    split
    · rw [row_get_delete_other (by decide), row_get_delete_other (by decide),
        row_get_delete_other (by decide), row_get_delete_other (by decide)]
    · rfl
  have hfields (row : Row) :=
    @write_fields_other finite "tags" draft _ (no_field_is_tags draft.type) (by decide) row
  unfold write_notifier_row
  dsimp only
  split
  · rw [hhmac]
    split
    · rw [hmode, hfields, row_get_put_list]
    · rw [hfields, row_get_put_list]
  · split
    · rw [hmode, hfields, row_get_put_list]
    · rw [hfields, row_get_put_list]

/-- Write channels back as `notifiers:`, without a leftover top-level `apprise`. -/
def write_notifiers (data : Row) (drafts : List NotifierDraft) : Row :=
  let next := row_delete "apprise" data
  let list := drafts.map (fun draft => Value.Object (write_notifier_row finite draft))
  match list with
  | [] => row_delete "notifiers" next
  | _ => row_set "notifiers" (.Items list) next

end

end xrelease.desired_document
