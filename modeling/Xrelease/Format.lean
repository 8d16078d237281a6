-- Desired-state documents as text (`config/desired_format.rs` and the wire form of
-- `config_apply/redact.rs`): guessing the format, refusing removed keys, parsing with the other
-- format as a fallback. The YAML and TOML libraries are a parameter.
import Xrelease.Desired

namespace xrelease.config

open text

/-! ## Formats -/

inductive DesiredFormat where
  | Toml
  | Yaml
deriving DecidableEq

def DesiredFormat.fallback : DesiredFormat → DesiredFormat
  | .Toml => .Yaml
  | .Yaml => .Toml

/-- `str::lines`. -/
def lines (s : List Char) : List (List Char) :=
  let pieces := split (· == '\n') s
  let ended := pieces.dropLast.map
    (fun line => if line.getLast? = some '\r' then line.dropLast else line)
  match pieces.getLast? with
  | none | some [] => ended
  | some last => ended ++ [last]

def trim_start (s : List Char) : List Char := trim_start_matches is_whitespace s

def trim_end (s : List Char) : List Char := trim_end_matches is_whitespace s

/-- `key = …` at the start of a line. -/
def is_toml_assignment (line : List Char) : Bool :=
  match split_once_at ['='] line with
  | none => false
  | some (key, _) =>
    let key := trim_end key
    key ≠ [] && key.all (fun c => is_ascii_alphanumeric c || ['_', '-', '.', '"', '\''].contains c)

/-- `key:` or `key: value` at the start of a line. -/
def is_yaml_mapping_key (line : List Char) : Bool :=
  match split_once_at [':'] line with
  | none => false
  | some (key, rest) =>
    if !(rest = [] || rest.head? = some ' ') then false
    else
      let key := trim_end key
      key ≠ [] && key.all (fun c => is_ascii_alphanumeric c || ['_', '-', '.'].contains c)

/-- What a line counts for: nothing, TOML or YAML. -/
def line_marker (line : List Char) : Option DesiredFormat :=
  let line := trim_start line
  if line = [] || line.head? = some '#' then none
  else if line.head? = some '[' || is_toml_assignment line then some .Toml
  else if "- ".toList.isPrefixOf line || line = ['-'] || is_yaml_mapping_key line then some .Yaml
  else none

/-- Guess the format from structural markers. -/
def detect_desired_format (text : String) : DesiredFormat :=
  if "---".toList.isPrefixOf (trim_start text.toList) then .Yaml
  else
    let markers := (lines text.toList).filterMap line_marker
    if markers.count .Yaml > markers.count .Toml then .Yaml else .Toml

/-! ## Removed keys -/

/-- Keys removed from the desired-state surface, with what to use instead. -/
def REMOVED : List (String × String) :=
  [("apprise_tag", "use `routing_tag` (team routing is not Apprise-specific)"),
    ("bot_id", "express notifiers use `access_token` / `access_token_env` only"),
    ("secret_key", "express notifiers use `access_token` / `access_token_env` only"),
    ("secret_key_env", "express notifiers use `access_token` / `access_token_env` only")]

/-- The line starts with the key as a key. -/
def starts_with_key (line : List Char) (key : String) : Bool :=
  key.toList.isPrefixOf line &&
    match line.drop key.toList.length with
    | [] => true
    | c :: _ => c = '=' || c = ':' || c = ' ' || c = '\t'

/-- The first removed key that the line starts with. -/
def removed_key (line : List Char) : Option (String × String) :=
  let trimmed := trim_start line
  if trimmed = [] || trimmed.head? = some '#' then none
  else
    -- a leading `- ` goes, so that items of a YAML list are checked the same way
    let trimmed :=
      if "- ".toList.isPrefixOf trimmed then trim_start (trimmed.drop 2) else trim_start trimmed
    REMOVED.find? (fun kh => starts_with_key trimmed kh.1)

def reject_lines : List (List Char) → Nat → Except String Unit
  | [], _ => .ok ()
  | line :: rest, idx =>
    match removed_key line with
    | some (key, hint) =>
      .error ("line " ++ toString (idx + 1) ++ ": `" ++ key ++ "` was removed — " ++ hint)
    | none => reject_lines rest (idx + 1)

def reject_removed_desired_keys (text : String) : Except String Unit :=
  reject_lines (lines text.toList) 0

/-- No line of the text starts with a removed key. -/
def NoRemovedKey (text : String) : Prop := ∀ line ∈ lines text.toList, removed_key line = none

instance (text : String) : Decidable (NoRemovedKey text) :=
  inferInstanceAs (Decidable (∀ line ∈ lines text.toList, removed_key line = none))

theorem reject_lines_ok_iff (ls : List (List Char)) (idx : Nat) :
    reject_lines ls idx = .ok () ↔ ∀ line ∈ ls, removed_key line = none := by
  induction ls generalizing idx with
  | nil => simp [reject_lines]
  | cons line rest ih =>
    unfold reject_lines
    cases h : removed_key line with
    | none => simp [h, ih]
    | some kh => simp [h]

theorem reject_ok_iff (text : String) :
    reject_removed_desired_keys text = .ok () ↔ NoRemovedKey text :=
  reject_lines_ok_iff _ 0

/-! ## The wire form -/

/-- App-layer sections of a `Config`; the defaults only where they differ from the built-in
ones. -/
structure DesiredWire where
  defaults : Option Defaults
  notifiers : List NotifierConfig
  teams : List TeamConfig
  presets : List (String × SourcePreset)
  sources : List SourceConfig
deriving DecidableEq

def DesiredWire.from_config (config : Config) : DesiredWire where
  defaults := if config.defaults ≠ {} then some config.defaults else none
  notifiers := config.notifiers
  teams := config.teams
  presets := config.presets
  sources := config.sources

/-- The document that a wire form stands for; the sections it leaves out are the default ones. -/
def DesiredWire.document (wire : DesiredWire) : Config :=
  { defaults := wire.defaults.getD {}
    notifiers := wire.notifiers
    teams := wire.teams
    presets := wire.presets
    sources := wire.sources }

/-- App-layer fields only. -/
def desired_state_for_ledger (merged : Config) : Config :=
  { defaults := merged.defaults
    notifiers := merged.notifiers
    teams := merged.teams
    presets := merged.presets
    sources := merged.sources }

theorem config_from_config (config : Config) :
    (DesiredWire.from_config config).document = desired_state_for_ledger config := by
  unfold DesiredWire.from_config DesiredWire.document desired_state_for_ledger
  by_cases h : config.defaults = {} <;> simp [h]

theorem from_config_eq_iff (c d : Config) :
    DesiredWire.from_config c = DesiredWire.from_config d ↔
      desired_state_for_ledger c = desired_state_for_ledger d := by
  constructor
  · intro h
    rw [← config_from_config, ← config_from_config, h]
  · intro h
    unfold desired_state_for_ledger at h
    unfold DesiredWire.from_config
    simp only [Config.mk.injEq] at h
    simp [h]

/-! ## The libraries -/

/-- `serde_yaml` and `toml`: what they write for a wire form and read from a text. -/
structure Codec where
  write : DesiredFormat → DesiredWire → Option String
  read : DesiredFormat → String → Option Config

/-- What the program relies on: a written text reads back as what was written, and the other
format does not read anything else out of it. -/
structure Codec.Faithful (codec : Codec) : Prop where
  read_back : ∀ format wire text, codec.write format wire = some text →
    codec.read format text = some wire.document
  one_meaning : ∀ format wire text config, codec.write format wire = some text →
    codec.read format.fallback text = some config → config = wire.document

/-- The libraries on a few documents that they are known to write and to read. -/
def Codec.samples (docs : List (DesiredFormat × DesiredWire × String)) : Codec where
  write format wire := (docs.find? (fun doc => doc.1 = format && doc.2.1 = wire)).map (·.2.2)
  read format text :=
    (docs.find? (fun doc => doc.1 = format && doc.2.2 = text)).map (·.2.1.document)

theorem Codec.samples_write_head (doc : DesiredFormat × DesiredWire × String)
    (docs : List (DesiredFormat × DesiredWire × String)) :
    (Codec.samples (doc :: docs)).write doc.1 doc.2.1 = some doc.2.2 := by
  simp [Codec.samples]

variable {format : DesiredFormat} {text : String}

theorem Codec.samples_write_next {doc : DesiredFormat × DesiredWire × String}
    {docs : List (DesiredFormat × DesiredWire × String)} {wire : DesiredWire} (h : doc.2.1 ≠ wire) :
    (Codec.samples (doc :: docs)).write format wire = (Codec.samples docs).write format wire := by
  simp [Codec.samples, h]

theorem Codec.samples_faithful {docs : List (DesiredFormat × DesiredWire × String)}
    (h : ∀ a ∈ docs, ∀ b ∈ docs, a.2.2 = b.2.2 → a.2.1.document = b.2.1.document) :
    (Codec.samples docs).Faithful := by
  have hwrite : ∀ format wire text, (Codec.samples docs).write format wire = some text →
      (format, wire, text) ∈ docs := by
    intro format wire text hw
    simp only [Codec.samples, Option.map_eq_some_iff] at hw
    obtain ⟨doc, hf, rfl⟩ := hw
    have hdoc := List.find?_some hf
    simp only [Bool.and_eq_true, decide_eq_true_eq] at hdoc
    obtain ⟨rfl, rfl⟩ := hdoc
    exact List.mem_of_find?_eq_some hf
  have hread : ∀ format text config, (Codec.samples docs).read format text = some config →
      ∃ doc ∈ docs, doc.2.2 = text ∧ doc.2.1.document = config := by
    intro format text config hr
    simp only [Codec.samples, Option.map_eq_some_iff] at hr
    obtain ⟨doc, hf, rfl⟩ := hr
    have hdoc := List.find?_some hf
    simp only [Bool.and_eq_true, decide_eq_true_eq] at hdoc
    exact ⟨doc, List.mem_of_find?_eq_some hf, hdoc.2, rfl⟩
  constructor
  · intro format wire text hw
    have hmem := hwrite format wire text hw
    cases hr : (Codec.samples docs).read format text with
    | none =>
      simp only [Codec.samples, Option.map_eq_none_iff] at hr
      have := List.find?_eq_none.mp hr _ hmem
      simp at this
    | some config =>
      obtain ⟨doc, hdoc, htext, rfl⟩ := hread format text config hr
      rw [h doc hdoc _ hmem htext]
  · intro format wire text config hw hr
    obtain ⟨doc, hdoc, htext, rfl⟩ := hread _ text config hr
    exact h doc hdoc _ (hwrite format wire text hw) htext

/-! ## Parsing -/

def parse_as (codec : Codec) (text : String) (format : DesiredFormat) : Except String Config :=
  match reject_removed_desired_keys text with
  | .error err => .error err
  | .ok () =>
    match codec.read format text with
    | some config => .ok config
    | none =>
      match format with
      | .Toml => .error "parsing desired-state TOML document"
      | .Yaml => .error "parsing desired-state YAML document"

/-- Parse in the hinted or guessed format, and in the other one where that fails. -/
def parse_desired_document_with_hint (codec : Codec) (text : String)
    (hint : Option DesiredFormat) : Except String Config :=
  let format := hint.getD (detect_desired_format text)
  match parse_as codec text format with
  | .ok config => .ok config
  | .error err =>
    match parse_as codec text format.fallback with
    | .ok config => .ok config
    | .error _ => .error err

def parse_desired_document (codec : Codec) (text : String) : Except String Config :=
  parse_desired_document_with_hint codec text none

/-- Serialize app-layer fields only. -/
def serialize_desired_only_strict (codec : Codec) (format : DesiredFormat) (config : Config) :
    Except String String :=
  match codec.write format (DesiredWire.from_config config) with
  | some text => .ok text
  | none =>
    match format with
    | .Yaml => .error "serializing desired-state YAML document"
    | .Toml => .error "serializing desired-state TOML document"

/-! ## What is written is read back -/

theorem serialized_eq_ok_iff (codec : Codec) (format : DesiredFormat) (config : Config)
    (text : String) :
    serialize_desired_only_strict codec format config = .ok text ↔
      codec.write format (DesiredWire.from_config config) = some text := by
  unfold serialize_desired_only_strict
  cases codec.write format (DesiredWire.from_config config) with
  | none => cases format <;> simp
  | some written => simp

theorem parse_as_of_removed (h : ¬ NoRemovedKey text) (codec : Codec) (format : DesiredFormat) :
    ∃ err, parse_as codec text format = .error err := by
  unfold parse_as
  cases hr : reject_removed_desired_keys text with
  | error err => exact ⟨err, rfl⟩
  | ok u => exact absurd ((reject_ok_iff text).mp hr) h

theorem parse_as_of_kept (h : NoRemovedKey text) {codec : Codec} {config : Config}
    (hread : codec.read format text = some config) :
    parse_as codec text format = .ok config := by
  unfold parse_as
  rw [(reject_ok_iff text).mpr h, hread]

theorem parse_as_of_unreadable {codec : Codec} (hread : codec.read format text = none) :
    ∃ err, parse_as codec text format = .error err := by
  unfold parse_as
  rw [hread]
  split
  · exact ⟨_, rfl⟩
  · cases format <;> exact ⟨_, rfl⟩

/-- Where the key of a line starts. -/
def key_start (line : List Char) : List Char :=
  let trimmed := trim_start line
  if ['-', ' '].isPrefixOf trimmed then trim_start (trimmed.drop 2) else trim_start trimmed

/-- The removed keys, character by character. -/
def removed_chars : List (List Char) :=
  [['a', 'p', 'p', 'r', 'i', 's', 'e', '_', 't', 'a', 'g'], ['b', 'o', 't', '_', 'i', 'd'],
    ['s', 'e', 'c', 'r', 'e', 't', '_', 'k', 'e', 'y'],
    ['s', 'e', 'c', 'r', 'e', 't', '_', 'k', 'e', 'y', '_', 'e', 'n', 'v']]

theorem removed_chars_eq : REMOVED.map (fun kh => kh.1.toList) = removed_chars := by
  have hchars : ∀ s : List Char, (String.ofList s).toList = s := fun _ => String.toList_ofList
  unfold REMOVED removed_chars
  simp only [List.map_cons, List.map_nil]
  exact congr (congrArg List.cons (hchars _)) (congr (congrArg List.cons (hchars _))
    (congr (congrArg List.cons (hchars _)) (congr (congrArg List.cons (hchars _)) rfl)))

/-- A text is free of removed keys when no line of it starts with the characters of one. -/
theorem noRemovedKey_of_chars {chars : List Char} (htext : text.toList = chars)
    (h : (lines chars).all (fun line =>
      !removed_chars.any (fun key => key.isPrefixOf (key_start line))) = true) :
    NoRemovedKey text := by
  intro line hline
  rw [htext] at hline
  have hfree := List.all_eq_true.mp h line hline
  rw [← removed_chars_eq, Bool.not_eq_true', List.any_map, List.any_eq_false] at hfree
  have hdash : "- ".toList = ['-', ' '] := String.toList_ofList
  unfold removed_key
  simp only [hdash]
  split
  · rfl
  · rw [List.find?_eq_none]
    intro kh hkh hstarts
    unfold starts_with_key at hstarts
    exact hfree kh hkh (Bool.and_eq_true_iff.mp hstarts).1

/-- What one format reads and the other does not is what is parsed, whatever the hint. -/
theorem parse_of_read {codec : Codec} {config : Config} (hk : NoRemovedKey text)
    (hread : codec.read format text = some config) (hother : codec.read format.fallback text = none)
    (hint : Option DesiredFormat) :
    parse_desired_document_with_hint codec text hint = .ok config := by
  have hown := parse_as_of_kept hk hread
  obtain ⟨err, hfails⟩ := parse_as_of_unreadable hother
  have hforms : ∀ guess : DesiredFormat, guess = format ∨ guess = format.fallback := by
    intro guess
    cases guess <;> cases format <;> simp [DesiredFormat.fallback]
  have hback : format.fallback.fallback = format := by cases format <;> rfl
  unfold parse_desired_document_with_hint
  rcases hforms (hint.getD (detect_desired_format text)) with hguess | hguess
  · simp only [hguess, hown]
  · simp only [hguess, hfails, hback, hown]

/-- Whatever the hint, a serialized document parses to what was serialized, unless one of its
lines starts with a removed key: then it does not parse at all. -/
theorem parse_serialized {codec : Codec} (hc : codec.Faithful) {config : Config}
    (hs : serialize_desired_only_strict codec format config = .ok text)
    (hint : Option DesiredFormat) (parsed : Config) :
    parse_desired_document_with_hint codec text hint = .ok parsed ↔
      NoRemovedKey text ∧ parsed = desired_state_for_ledger config := by
  rw [serialized_eq_ok_iff] at hs
  unfold parse_desired_document_with_hint
  by_cases hk : NoRemovedKey text
  · have hown := parse_as_of_kept hk (hc.read_back format _ text hs)
    rw [config_from_config] at hown
    have hother : parse_as codec text format.fallback = .ok (desired_state_for_ledger config) ∨
        ∃ err, parse_as codec text format.fallback = .error err := by
      cases hr : codec.read format.fallback text with
      | none => exact Or.inr (parse_as_of_unreadable hr)
      | some read =>
        have := hc.one_meaning format _ text read hs hr
        rw [config_from_config] at this
        exact Or.inl (this ▸ parse_as_of_kept hk hr)
    have hback : format.fallback.fallback = format := by cases format <;> rfl
    have hform : ∀ guess : DesiredFormat, guess = format ∨ guess = format.fallback := by
      intro guess
      cases guess <;> cases format <;> simp [DesiredFormat.fallback]
    simp only [hk, true_and]
    rcases hform (hint.getD (detect_desired_format text)) with hg | hg
    · rw [hg, hown]
      simp [eq_comm]
    · rw [hg, hback, hown]
      rcases hother with hother | ⟨err, hother⟩ <;> simp [hother, eq_comm]
  · obtain ⟨err, h1⟩ := parse_as_of_removed hk codec (hint.getD (detect_desired_format text))
    obtain ⟨err', h2⟩ := parse_as_of_removed hk codec
      (hint.getD (detect_desired_format text)).fallback
    simp only [h1, h2, hk, false_and, iff_false]
    simp

end xrelease.config
