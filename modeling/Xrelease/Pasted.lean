-- Redaction markers in the form editor (`desired-document.ts`, `redact.rs`): which documents have
-- markers only where the editor takes them out again, whatever is edited between reading the
-- drafts and writing them back.
import Xrelease.DesiredDocument
import Xrelease.Places

namespace xrelease.pasted

open text keyed xrelease.desired_document
open xrelease.auth (Value)
open xrelease.auth_store (js_trim is_js_whitespace)

/-! ## Texts without the marker -/

def Plain (s : String) : Prop := contains REDACTED s = false

instance (s : String) : Decidable (Plain s) := inferInstanceAs (Decidable (_ = _))

theorem plain_iff (s : String) : Plain s ↔ ¬REDACTED.toList <:+: s.toList := by
  unfold Plain
  rw [Bool.eq_false_iff, ne_eq, contains_iff]
  constructor
  · rintro h ⟨before, after, heq⟩
    exact h ⟨before, after, heq.symm⟩
  · rintro h ⟨before, after, heq⟩
    exact h ⟨before, after, heq.symm⟩

theorem plain_of_within {part s : String} (h : part.toList <:+: s.toList) (hs : Plain s) :
    Plain part := by
  rw [plain_iff] at hs ⊢
  exact fun hpart => hs (hpart.trans h)

theorem plain_of_chars {l : List Char} (h : '<' ∉ l) : Plain (String.ofList l) := by
  rw [plain_iff, String.toList_ofList]
  intro hin
  exact h (hin.subset (by decide))

theorem plain_trim {s : String} (h : Plain s) : Plain (js_trim s) := by
  refine plain_of_within ?_ h
  unfold js_trim
  rw [String.toList_ofList]
  exact (List.rdropWhile_prefix _ _).isInfix.trans (List.dropWhile_suffix _).isInfix

theorem infix_of_split {p : Char → Bool} {s piece : List Char} (h : piece ∈ split p s) :
    piece <:+: s := by
  obtain ⟨before, after, rfl, -⟩ := (mem_split_iff p s piece).mp h
  exact ⟨before, after, rfl⟩

theorem plain_commas {s part : String} (h : Plain s) (hpart : part ∈ split_commas s) :
    Plain part := by
  unfold split_commas at hpart
  obtain ⟨piece, hpiece, rfl⟩ := List.mem_map.mp (List.mem_filter.mp hpart).1
  refine plain_trim (plain_of_within ?_ h)
  rw [String.toList_ofList]
  exact infix_of_split hpiece

theorem plain_lines {s line : String} (h : Plain s) (hline : line ∈ split_lines s) :
    Plain line := by
  unfold split_lines at hline
  obtain ⟨chars, hchars, rfl⟩ := List.mem_map.mp hline
  refine plain_of_within ?_ h
  rw [String.toList_ofList]
  rcases List.mem_append.mp hchars with hchars | hchars
  · obtain ⟨piece, hpiece, rfl⟩ := List.mem_map.mp hchars
    have hin := infix_of_split (List.dropLast_subset _ hpiece)
    unfold without_cr
    split
    · exact (List.dropLast_prefix piece).isInfix.trans hin
    · exact hin
  · rw [Option.mem_toList] at hchars
    exact infix_of_split (List.mem_of_getLast? hchars)

theorem plain_split_once {s before after : String} (h : Plain s)
    (hsplit : split_once ":" s = some (before, after)) : Plain before ∧ Plain after := by
  unfold split_once at hsplit
  obtain ⟨parts, hparts, hpair⟩ := Option.map_eq_some_iff.mp hsplit
  obtain ⟨rfl, rfl⟩ := Prod.mk.inj hpair
  have heq := split_once_at_eq hparts
  constructor
  · refine plain_of_within ?_ h
    rw [String.toList_ofList, heq, List.append_assoc]
    exact (List.prefix_append _ _).isInfix
  · refine plain_of_within ?_ h
    rw [String.toList_ofList, heq]
    exact (List.suffix_append _ _).isInfix

/-! ## Values without the marker -/

mutual

/-- Some text of the value, at any depth, has the marker. -/
def marked : Value → Bool
  | .Str s => contains REDACTED s
  | .Items items => marked_items items
  | .Object fields => marked_fields fields
  | _ => false

def marked_items : List Value → Bool
  | [] => false
  | item :: rest => marked item || marked_items rest

def marked_fields : List (String × Value) → Bool
  | [] => false
  | (key, value) :: rest => contains REDACTED key || marked value || marked_fields rest

end

/-- Marked values stand under such keys only, and no key is marked. -/
def CleanBut (skipped : String → Prop) (row : Row) : Prop :=
  ∀ entry ∈ row, Plain entry.1 ∧ (skipped entry.1 ∨ marked entry.2 = false)

/-- No text at any depth has the marker. -/
def Clean (row : Row) : Prop := ∀ entry ∈ row, Plain entry.1 ∧ marked entry.2 = false

theorem clean_but_nothing {row : Row} : CleanBut (fun _ => False) row ↔ Clean row := by
  unfold CleanBut Clean
  simp only [false_or]

theorem marked_items_iff {items : List Value} :
    marked (.Items items) = false ↔ ∀ item ∈ items, marked item = false := by
  show marked_items items = false ↔ _
  induction items with
  | nil => simp [marked_items]
  | cons item rest ih => simp [marked_items, ih]

theorem marked_object_iff {fields : Row} : marked (.Object fields) = false ↔ Clean fields := by
  show marked_fields fields = false ↔ _
  unfold Clean
  induction fields with
  | nil => simp [marked_fields]
  | cons entry rest ih =>
    obtain ⟨key, value⟩ := entry
    simp [marked_fields, ih, Plain]

section
variable {skipped : String → Prop} {row : Row}

theorem clean_set {key : String} {value : Value} (h : CleanBut skipped row) (hkey : Plain key)
    (hvalue : marked value = false) : CleanBut skipped (row_set key value row) := by
  intro entry hentry
  rcases mem_row_set hentry with rfl | hentry
  · exact ⟨hkey, Or.inr hvalue⟩
  · exact h entry hentry

theorem clean_filter {p : String × Value → Bool} (h : CleanBut skipped row) :
    CleanBut skipped (row.filter p) :=
  fun entry hentry => h entry (List.mem_filter.mp hentry).1

theorem clean_delete {key : String} (h : CleanBut skipped row) :
    CleanBut skipped (row_delete key row) := clean_filter h

/-- Deleting a key under which marked values may stand. -/
theorem clean_of_delete {key : String} (h : CleanBut (fun k => k = key ∨ skipped k) row) :
    CleanBut skipped (row_delete key row) := by
  intro entry hentry
  obtain ⟨hmem, hkey⟩ := List.mem_filter.mp hentry
  have hother : entry.1 ≠ key := by simpa using hkey
  obtain ⟨hplain, (hhere | hskipped) | hvalue⟩ := h entry hmem
  · exact absurd hhere hother
  · exact ⟨hplain, Or.inl hskipped⟩
  · exact ⟨hplain, Or.inr hvalue⟩

/-- Writing over such a key. -/
theorem clean_of_set {key : String} {value : Value}
    (h : CleanBut (fun k => k = key ∨ skipped k) row) (hkey : Plain key)
    (hvalue : marked value = false) : CleanBut skipped (row_set key value row) := by
  have hother : ∀ entry ∈ row, entry.1 ≠ key → Plain entry.1 ∧
      (skipped entry.1 ∨ marked entry.2 = false) := by
    intro entry hentry hne
    obtain ⟨hplain, (hhere | hskipped) | hclean⟩ := h entry hentry
    · exact absurd hhere hne
    · exact ⟨hplain, Or.inl hskipped⟩
    · exact ⟨hplain, Or.inr hclean⟩
  intro entry hentry
  unfold row_set at hentry
  split at hentry
  · obtain ⟨old, hold, rfl⟩ := List.mem_map.mp hentry
    split
    · exact ⟨hkey, Or.inr hvalue⟩
    · rename_i hne
      exact hother old hold hne
  · rename_i habsent
    rcases List.mem_append.mp hentry with hentry | hentry
    · refine hother entry hentry (fun heq => habsent ?_)
      exact List.any_eq_true.mpr ⟨entry, hentry, by simpa using heq⟩
    · obtain rfl := List.mem_singleton.mp hentry
      exact ⟨hkey, Or.inr hvalue⟩

theorem clean_put_text {key value : String} (h : CleanBut skipped row) (hkey : Plain key)
    (hvalue : Plain value) : CleanBut skipped (put_text key value row) := by
  unfold put_text
  split
  · exact clean_set h hkey (plain_trim hvalue)
  · exact clean_delete h

theorem clean_put_flag {key : String} (value : Bool) (h : CleanBut skipped row)
    (hkey : Plain key) : CleanBut skipped (put_flag key value row) := by
  unfold put_flag
  split
  · exact clean_set h hkey rfl
  · exact clean_delete h

theorem clean_put_number {key : String} (value : String) (h : CleanBut skipped row)
    (hkey : Plain key) : CleanBut skipped (put_number key value row) := by
  unfold put_number
  split
  · exact clean_set h hkey rfl
  · exact clean_delete h

theorem clean_put_list {key : String} {items : List String} (h : CleanBut skipped row)
    (hkey : Plain key) (hitems : ∀ item ∈ items, Plain item) :
    CleanBut skipped (put_list key items row) := by
  unfold put_list
  split
  · refine clean_set h hkey (marked_items_iff.mpr ?_)
    intro item hitem
    obtain ⟨text, htext, rfl⟩ := List.mem_map.mp hitem
    exact hitems text htext
  · exact clean_delete h

theorem clean_foldl {α : Type} {step : Row → α → Row} {l : List α}
    (hstep : ∀ row, ∀ a ∈ l, CleanBut skipped row → CleanBut skipped (step row a))
    (h : CleanBut skipped row) : CleanBut skipped (l.foldl step row) := by
  induction l generalizing row with
  | nil => exact h
  | cons a l ih =>
    exact ih (fun row b hb => hstep row b (List.mem_cons_of_mem _ hb))
      (hstep row a List.mem_cons_self h)

end

/-! ## The keys of the forms -/

theorem primary_keys_plain (kind : String) :
    ∀ field ∈ primary_fields_for_kind kind, Plain field.key := by
  unfold primary_fields_for_kind
  split <;> simp only [List.forall_mem_cons, List.not_mem_nil, false_imp_iff, implies_true,
    and_true]
  all_goals repeat' apply And.intro
  all_goals exact plain_of_chars (by decide)

theorem spec_keys_plain (kind : String) :
    ∀ spec ∈ notifier_fields_for_kind kind, Plain spec.key := by
  unfold notifier_fields_for_kind
  split <;> simp only [List.forall_mem_cons, List.not_mem_nil, false_imp_iff, implies_true,
    and_true]
  all_goals repeat' apply And.intro
  all_goals exact plain_of_chars (by decide)

/-! ## What is written of a source -/

theorem plain_text_of {key : String} {fields : List (String × String)}
    (h : ∀ field ∈ fields, Plain field.2) : Plain (text_of key fields) := by
  unfold text_of
  cases hlook : Table.look key fields with
  | none => exact @plain_of_chars [] List.not_mem_nil
  | some text => exact h _ (Table.mem_of_look hlook)

/-- An entry of the map that a source's draft becomes, before marked texts are dropped. -/
def Dropped (entry : String × Value) : Prop :=
  Plain entry.1 ∧ (entry.1 = "apprise_tag" ∨ (∃ s, entry.2 = .Str s) ∨ marked entry.2 = false)

/-- No text of the draft that the editor writes unchecked is marked, nor a key or what is nested
under a key that the form does not own. -/
structure SourceUnmarked (draft : SourceDraft) : Prop where
  routing_tag : Plain draft.routing_tag
  preset : Plain draft.preset
  pattern : Plain draft.pattern
  exclude_pattern : Plain draft.exclude_pattern
  prerelease_tags : Plain draft.prerelease_tags
  notify_schedule : Plain draft.notify_schedule
  token_env : Plain draft.token_env
  fields : ∀ field ∈ draft.fields, Plain field.2
  extra : ∀ entry ∈ draft.extra, Dropped entry

theorem dropped_set {row : Row} {key : String} (text : String) (hkey : Plain key)
    (h : ∀ entry ∈ row, Dropped entry) : ∀ entry ∈ row_set key (.Str text) row, Dropped entry := by
  intro entry hentry
  rcases mem_row_set hentry with rfl | hentry
  · exact ⟨hkey, Or.inr (Or.inl ⟨text, rfl⟩)⟩
  · exact h entry hentry

/-- After texts with the marker are dropped, only `apprise_tag` may hold something marked. -/
theorem clean_but_apprise_tag {row : Row} (h : ∀ entry ∈ row, Dropped entry) :
    CleanBut (· = "apprise_tag")
      (row.filter (fun entry => !contains_redaction_marker entry.2)) := by
  intro entry hentry
  obtain ⟨hmem, hkept⟩ := List.mem_filter.mp hentry
  obtain ⟨hkey, htag | ⟨s, hs⟩ | hclean⟩ := h entry hmem
  · exact ⟨hkey, Or.inl htag⟩
  · rw [hs] at hkept ⊢
    have hplain : contains REDACTED s = false := by
      simpa [contains_redaction_marker] using hkept
    exact ⟨hkey, Or.inr hplain⟩
  · exact ⟨hkey, Or.inr hclean⟩

theorem clean_put_token {draft : SourceDraft} {skipped : String → Prop} {row : Row}
    (hdraft : SourceUnmarked draft) (h : CleanBut skipped row) :
    CleanBut skipped (put_token draft row) := by
  have htoken : CleanBut skipped (put_inline_token draft.token row) := by
    unfold put_inline_token
    dsimp only
    split
    · rename_i hchecked
      exact clean_set h (plain_of_chars (by decide)) hchecked.2.2
    · exact h
  unfold put_token
  split
  · unfold add_text
    split
    · exact clean_set htoken (plain_of_chars (by decide)) (plain_trim hdraft.token_env)
    · exact htoken
  · exact h

theorem write_source_clean {draft : SourceDraft} (h : SourceUnmarked draft) :
    Clean (write_source draft) := by
  have hdropped : ∀ entry ∈ put_text "id" draft.id (row_set "type" (.Str draft.type) draft.extra),
      Dropped entry := by
    have htype := dropped_set draft.type (plain_of_chars (by decide) : Plain "type") h.extra
    unfold put_text
    split
    · exact dropped_set _ (plain_of_chars (by decide)) htype
    · exact fun entry hentry => htype entry (List.mem_filter.mp hentry).1
  have hstep : ∀ row, ∀ field ∈ primary_fields_for_kind draft.type,
      CleanBut (· = "apprise_tag") row → CleanBut (· = "apprise_tag")
        (put_text field.key (text_of field.key draft.fields) row) :=
    fun row field hfield hrow =>
      clean_put_text hrow (primary_keys_plain _ field hfield) (plain_text_of h.fields)
  have hfields := clean_foldl hstep (@clean_delete _ _ "token_env"
    (@clean_delete _ _ "token" (clean_but_apprise_tag hdropped)))
  have hskip : ∀ row, CleanBut (· = "apprise_tag") row →
      CleanBut (fun k => k = "apprise_tag" ∨ False) row := by
    intro row hrow
    simpa only [or_false] using hrow
  have hrouted := clean_of_delete (hskip _ (clean_put_text (clean_put_token h hfields)
    (plain_of_chars (by decide) : Plain "routing_tag") h.routing_tag))
  rw [← clean_but_nothing]
  unfold write_source
  refine clean_put_text (clean_put_number _ (clean_put_number _ (clean_put_flag _ (clean_put_list
    (clean_put_flag _ (clean_put_text (clean_put_text (clean_put_text hrouted ?_ h.preset) ?_
      h.pattern) ?_ h.exclude_pattern) ?_) ?_ (fun tag htag => plain_commas h.prerelease_tags htag))
        ?_) ?_) ?_) ?_ h.notify_schedule
  all_goals exact plain_of_chars (by decide)

/-! ## What is written of a channel -/

/-- No text of the draft that the editor writes unchecked is marked, nor a key; what is kept under a
key that the form does not own is a placeholder as a whole, or not marked at all. -/
structure NotifierUnmarked (draft : NotifierDraft) : Prop where
  type : draft.type = REDACTED ∨ Plain draft.type
  name : Plain draft.name
  tags : Plain draft.tags
  extra : ∀ entry ∈ draft.extra,
    Plain entry.1 ∧ (is_placeholder entry.2 = true ∨ marked entry.2 = false)

theorem clean_headers {text : String} (h : Plain text) : Clean (parse_headers_field text) := by
  rw [← clean_but_nothing]
  refine clean_foldl (fun row line hline hrow => ?_) (fun entry hentry => absurd hentry ?_)
  · have htrimmed := plain_trim (plain_lines h hline)
    dsimp only
    split
    · exact hrow
    · split
      · exact hrow
      · rename_i name value hsplit
        obtain ⟨hname, hvalue⟩ := plain_split_once htrimmed hsplit
        split
        · exact hrow
        · exact clean_set hrow (plain_trim hname) (plain_trim hvalue)
  · exact List.not_mem_nil

theorem clean_write_field {finite : String → Bool} {draft : NotifierDraft}
    {spec : NotifierFieldSpec} {skipped : String → Prop} {row : Row} (hkey : Plain spec.key)
    (h : CleanBut skipped row) : CleanBut skipped (write_field finite draft row spec) := by
  unfold write_field
  dsimp only
  split
  · exact clean_delete h
  · split
    · exact clean_delete h
    · rename_i hchecked
      rw [not_or, Bool.not_eq_true] at hchecked
      have hvalue : Plain (js_trim (text_of spec.key draft.fields)) := hchecked.2
      split
      · refine clean_put_list h hkey (fun item hitem => ?_)
        obtain ⟨line, hline, rfl⟩ := List.mem_map.mp (List.mem_filter.mp hitem).1
        exact plain_trim (plain_lines hvalue hline)
      · split
        · refine clean_set h (plain_of_chars (by decide)) (marked_object_iff.mpr ?_)
          exact fun entry hentry => clean_headers hvalue entry (List.mem_filter.mp hentry).1
        · exact clean_delete h
      · split
        · exact clean_set h hkey rfl
        · exact clean_delete h
      · exact clean_set h hkey hvalue

/-- After placeholders are dropped nothing of the kept entries is marked. -/
theorem clean_of_placeholders {draft : NotifierDraft} (h : NotifierUnmarked draft) :
    Clean ((row_set "type" (.Str draft.type) draft.extra).filter
      (fun entry => !is_placeholder entry.2)) := by
  have htype : Plain "type" := plain_of_chars (by decide)
  have hkept : ∀ entry ∈ row_set "type" (.Str draft.type) draft.extra,
      Plain entry.1 ∧ (is_placeholder entry.2 = true ∨ marked entry.2 = false) := by
    have hnew : is_placeholder (.Str draft.type) = true ∨ marked (.Str draft.type) = false := by
      rcases h.type with hredacted | hplain
      · left
        rw [hredacted]
        decide
      · exact Or.inr hplain
    intro entry hentry
    rcases mem_row_set hentry with rfl | hentry
    · exact ⟨htype, hnew⟩
    · exact h.extra entry hentry
  intro entry hentry
  obtain ⟨hmem, hdropped⟩ := List.mem_filter.mp hentry
  obtain ⟨hkey, hvalue⟩ := hkept entry hmem
  exact ⟨hkey, hvalue.resolve_left (by simpa using hdropped)⟩

theorem write_notifier_row_clean (finite : String → Bool) {draft : NotifierDraft}
    (h : NotifierUnmarked draft) : Clean (write_notifier_row finite draft) := by
  have hkept := clean_of_placeholders h
  rw [← clean_but_nothing] at hkept ⊢
  have hnamed : CleanBut (fun _ => False)
      (if notifier_supports_name draft.type && js_trim draft.name ≠ "" then
        row_set "name" (.Str (js_trim draft.name)) ((row_set "type" (.Str draft.type)
          draft.extra).filter (fun entry => !is_placeholder entry.2))
      else row_delete "name" ((row_set "type" (.Str draft.type) draft.extra).filter
        (fun entry => !is_placeholder entry.2))) := by
    split
    · exact clean_set hkept (plain_of_chars (by decide)) (plain_trim h.name)
    · exact clean_delete hkept
  have hfields := clean_foldl (fun row spec hspec hrow =>
      @clean_write_field finite draft spec _ row (spec_keys_plain draft.type spec hspec) hrow)
    (clean_put_list hnamed (plain_of_chars (by decide) : Plain "tags")
      (fun tag htag => plain_commas h.tags htag))
  have hmode : ∀ row, CleanBut (fun _ => False) row →
      CleanBut (fun _ => False) (without_key_mode row) := by
    intro row hrow
    unfold without_key_mode
    split
    · exact clean_delete (clean_delete hrow)
    · exact hrow
  have hhmac : ∀ row, CleanBut (fun _ => False) row →
      CleanBut (fun _ => False) (without_hmac row) := by
    intro row hrow
    unfold without_hmac
    dsimp only
    split
    · exact clean_delete (clean_delete (clean_delete (clean_delete hrow)))
    · exact hrow
  unfold write_notifier_row
  dsimp only
  split
  · refine hhmac _ ?_
    split
    · exact hmode _ hfields
    · exact hfields
  · split
    · exact hmode _ hfields
    · exact hfields

/-! ## Edits -/

structure Drafts where
  sources : List SourceDraft
  notifiers : List NotifierDraft

/-- The texts of a source's form. -/
inductive SourceText where
  | id
  | routing_tag
  | preset
  | pattern
  | exclude_pattern
  | prerelease_tags
  | interval_secs
  | jitter_secs
  | notify_schedule
  | token
  | token_env
  | field (key : String)
deriving DecidableEq

def SourceText.of (draft : SourceDraft) : SourceText → String
  | id => draft.id
  | routing_tag => draft.routing_tag
  | preset => draft.preset
  | pattern => draft.pattern
  | exclude_pattern => draft.exclude_pattern
  | prerelease_tags => draft.prerelease_tags
  | interval_secs => draft.interval_secs
  | jitter_secs => draft.jitter_secs
  | notify_schedule => draft.notify_schedule
  | token => draft.token
  | token_env => draft.token_env
  | field key => text_of key draft.fields

def SourceText.put (draft : SourceDraft) (value : String) : SourceText → SourceDraft
  | id => { draft with id := value }
  | routing_tag => { draft with routing_tag := value }
  | preset => { draft with preset := value }
  | pattern => { draft with pattern := value }
  | exclude_pattern => { draft with exclude_pattern := value }
  | prerelease_tags => { draft with prerelease_tags := value }
  | interval_secs => { draft with interval_secs := value }
  | jitter_secs => { draft with jitter_secs := value }
  | notify_schedule => { draft with notify_schedule := value }
  | token => { draft with token := value }
  | token_env => { draft with token_env := value }
  | field key => { draft with fields := assign key value draft.fields }

inductive SourceEdit where
  | text (which : SourceText) (value : String)
  | kind (type : String)
  | include_prerelease (value : Bool)
  | exclude_updated (value : Bool)
deriving DecidableEq

def SourceEdit.apply (draft : SourceDraft) : SourceEdit → SourceDraft
  | text which value => which.put draft value
  | kind type => change_source_type draft type
  | include_prerelease value => { draft with include_prerelease := value }
  | exclude_updated value => { draft with exclude_updated := value }

/-- The texts of a channel's form. -/
inductive NotifierText where
  | name
  | tags
  | field (key : String)
deriving DecidableEq

def NotifierText.of (draft : NotifierDraft) : NotifierText → String
  | name => draft.name
  | tags => draft.tags
  | field key => text_of key draft.fields

def NotifierText.put (draft : NotifierDraft) (value : String) : NotifierText → NotifierDraft
  | name => { draft with name := value }
  | tags => { draft with tags := value }
  | field key => { draft with fields := assign key value draft.fields }

inductive NotifierEdit where
  | text (which : NotifierText) (value : String)
  | kind (type : String)
deriving DecidableEq

def NotifierEdit.apply (draft : NotifierDraft) : NotifierEdit → NotifierDraft
  | text which value => which.put draft value
  | kind type => change_notifier_kind draft type

/-- What the operator does in the two panels; `key` is the next row id. -/
inductive Edit where
  | add_source (key type : String)
  | remove_source (at_ : Nat)
  | edit_source (at_ : Nat) (edit : SourceEdit)
  | add_notifier (key : String)
  | remove_notifier (at_ : Nat)
  | duplicate_notifier (key : String) (at_ : Nat)
  | edit_notifier (at_ : Nat) (edit : NotifierEdit)
deriving DecidableEq

def Edit.apply (drafts : Drafts) : Edit → Drafts
  | add_source key type =>
    { drafts with sources := drafts.sources ++ [empty_source_draft key type] }
  | remove_source at_ => { drafts with sources := drafts.sources.eraseIdx at_ }
  | edit_source at_ edit => { drafts with sources := drafts.sources.modify at_ edit.apply }
  | add_notifier key =>
    { drafts with notifiers := drafts.notifiers ++ [empty_notifier_draft key "webhook"] }
  | remove_notifier at_ => { drafts with notifiers := drafts.notifiers.eraseIdx at_ }
  | duplicate_notifier key at_ =>
    match drafts.notifiers[at_]? with
    | none => drafts
    | some draft =>
      { drafts with
        notifiers := drafts.notifiers.insertIdx (at_ + 1) (duplicate_notifier_draft key draft) }
  | edit_notifier at_ edit => { drafts with notifiers := drafts.notifiers.modify at_ edit.apply }

/-- The marker is in the text after the edit, and was not before. -/
def Typed (before after : String) : Prop := Plain before ∧ ¬Plain after

/-- The edit types the marker. -/
def Edit.Types (drafts : Drafts) : Edit → Prop
  | add_source _ type => ¬Plain type
  | edit_source _ (.kind type) => ¬Plain type
  | edit_source at_ (.text which value) =>
    ∃ draft, drafts.sources[at_]? = some draft ∧ Typed (which.of draft) value
  | edit_notifier _ (.kind type) => ¬Plain type
  | edit_notifier at_ (.text which value) =>
    ∃ draft, drafts.notifiers[at_]? = some draft ∧ Typed (which.of draft) value
  | _ => False

/-- One edit after the other, none of which types the marker. -/
inductive Edits : Drafts → Drafts → Prop where
  | nil (drafts : Drafts) : Edits drafts drafts
  | cons {drafts last : Drafts} (edit : Edit) (h : ¬edit.Types drafts) :
      Edits (edit.apply drafts) last → Edits drafts last

def read_drafts (seq seq' : Nat) (data : Row) : Drafts :=
  ⟨read_sources seq data, read_notifiers seq' data⟩

def written (finite : String → Bool) (data : Row) (drafts : Drafts) : Row :=
  write_notifiers finite (write_sources data drafts.sources) drafts.notifiers

/-! ## What every edit keeps -/

/-- Nothing that would be written unchecked is marked. -/
structure Unmarked (drafts : Drafts) : Prop where
  sources : ∀ draft ∈ drafts.sources, SourceUnmarked draft
  notifiers : ∀ draft ∈ drafts.notifiers, NotifierUnmarked draft

theorem plain_of_not_typed {before after : String} (h : ¬Typed before after)
    (hbefore : Plain before) : Plain after := by
  by_contra hafter
  exact h ⟨hbefore, hafter⟩

theorem plain_assign {key value : String} {fields : List (String × String)}
    (h : ∀ field ∈ fields, Plain field.2) (hvalue : Plain value) :
    ∀ field ∈ assign key value fields, Plain field.2 := by
  intro field hfield
  unfold assign at hfield
  split at hfield
  · obtain ⟨old, hold, rfl⟩ := List.mem_map.mp hfield
    split
    · exact hvalue
    · exact h old hold
  · rcases List.mem_append.mp hfield with hfield | hfield
    · exact h field hfield
    · obtain rfl := List.mem_singleton.mp hfield
      exact hvalue

theorem source_text_unmarked {draft : SourceDraft} (h : SourceUnmarked draft) (which : SourceText)
    {value : String} (hvalue : ¬Typed (which.of draft) value) :
    SourceUnmarked (which.put draft value) := by
  have hplain := fun hbefore => plain_of_not_typed hvalue hbefore
  cases which with
  | id => exact { h with }
  | interval_secs => exact { h with }
  | jitter_secs => exact { h with }
  | token => exact { h with }
  | routing_tag => exact { h with routing_tag := hplain h.routing_tag }
  | preset => exact { h with preset := hplain h.preset }
  | pattern => exact { h with pattern := hplain h.pattern }
  | exclude_pattern => exact { h with exclude_pattern := hplain h.exclude_pattern }
  | prerelease_tags => exact { h with prerelease_tags := hplain h.prerelease_tags }
  | notify_schedule => exact { h with notify_schedule := hplain h.notify_schedule }
  | token_env => exact { h with token_env := hplain h.token_env }
  | field key =>
    exact { h with fields := plain_assign h.fields (hplain (plain_text_of h.fields)) }

theorem plain_empty : Plain "" := plain_of_chars List.not_mem_nil

theorem change_source_type_unmarked {draft : SourceDraft} (h : SourceUnmarked draft)
    (type : String) : SourceUnmarked (change_source_type draft type) := by
  have hfields : ∀ field ∈ (primary_fields_for_kind type).map (fun field =>
      (field.key, text_of field.key draft.fields)), Plain field.2 := by
    intro field hfield
    obtain ⟨primary, -, rfl⟩ := List.mem_map.mp hfield
    exact plain_text_of h.fields
  have henv : Plain (if source_supports_token type then draft.token_env else "") := by
    split
    · exact h.token_env
    · exact plain_empty
  exact { h with fields := hfields, token_env := henv }

theorem empty_source_unmarked (key type : String) :
    SourceUnmarked (empty_source_draft key type) where
  routing_tag := plain_empty
  preset := plain_empty
  pattern := plain_empty
  exclude_pattern := plain_empty
  prerelease_tags := plain_empty
  notify_schedule := plain_empty
  token_env := plain_empty
  fields := by
    intro field hfield
    obtain ⟨primary, -, rfl⟩ := List.mem_map.mp hfield
    dsimp only
    split
    · exact plain_of_chars (by decide)
    · exact plain_empty
  extra := fun entry hentry => absurd hentry List.not_mem_nil

theorem notifier_text_unmarked {draft : NotifierDraft} (h : NotifierUnmarked draft)
    (which : NotifierText) {value : String} (hvalue : ¬Typed (which.of draft) value) :
    NotifierUnmarked (which.put draft value) := by
  cases which with
  | name => exact { h with name := plain_of_not_typed hvalue h.name }
  | tags => exact { h with tags := plain_of_not_typed hvalue h.tags }
  | field key => exact { h with }

theorem empty_notifier_unmarked (key : String) :
    NotifierUnmarked (empty_notifier_draft key "webhook") where
  type := Or.inr (plain_of_chars (by decide))
  name := plain_empty
  tags := plain_empty
  extra := fun entry hentry => absurd hentry List.not_mem_nil

theorem change_kind_unmarked {draft : NotifierDraft} (h : NotifierUnmarked draft) {type : String}
    (htype : Plain type) : NotifierUnmarked (change_notifier_kind draft type) where
  type := Or.inr htype
  name := h.name
  tags := h.tags
  extra := h.extra

/-- The marker does not arise where a copy gets its name. -/
theorem plain_copy {name : String} (h : Plain name) : Plain (name ++ "-copy") := by
  rw [plain_iff] at h ⊢
  rw [String.toList_append]
  rintro ⟨before, after, heq⟩
  have hcopy : "-copy".toList = ['-', 'c', 'o', 'p', 'y'] := rfl
  rw [hcopy] at heq
  rcases List.append_eq_append_iff.mp heq with ⟨more, hname, -⟩ | ⟨more, hpart, hafter⟩
  · exact h ⟨before, more, hname.symm⟩
  · have hlast : (before ++ REDACTED.toList).getLast? = some '>' := by
      rw [List.getLast?_append]
      rfl
    rw [hpart, List.getLast?_append] at hlast
    cases hmore : more.getLast? with
    | none =>
      rw [List.getLast?_eq_none_iff.mp hmore, List.append_nil] at hpart
      exact h ⟨before, [], by rw [List.append_nil, hpart]⟩
    | some c =>
      rw [hmore, Option.some_or, Option.some.injEq] at hlast
      have hmem : c ∈ ['-', 'c', 'o', 'p', 'y'] := by
        rw [hafter]
        exact List.mem_append_left _ (List.mem_of_getLast? hmore)
      rw [hlast] at hmem
      exact absurd hmem (by decide)

theorem duplicate_unmarked {draft : NotifierDraft} (h : NotifierUnmarked draft) (key : String) :
    NotifierUnmarked (duplicate_notifier_draft key draft) where
  type := h.type
  name := by
    unfold duplicate_notifier_draft
    dsimp only
    split
    · exact plain_copy (plain_trim h.name)
    · exact plain_empty
  tags := h.tags
  extra := h.extra

theorem forall_modify {α : Type} {P : α → Prop} {f : α → α} {l : List α} {i : Nat}
    (h : ∀ a ∈ l, P a) (hf : ∀ a, l[i]? = some a → P (f a)) : ∀ a ∈ l.modify i f, P a := by
  intro a ha
  obtain ⟨j, hj⟩ := List.mem_iff_getElem?.mp ha
  rw [List.getElem?_modify] at hj
  by_cases hij : i = j
  · subst hij
    obtain ⟨b, hb, rfl⟩ := Option.map_eq_some_iff.mp hj
    simpa using hf b hb
  · obtain ⟨b, hb, rfl⟩ := Option.map_eq_some_iff.mp hj
    rw [if_neg hij]
    exact h b (List.mem_of_getElem? hb)

theorem edit_source_unmarked {draft : SourceDraft} (h : SourceUnmarked draft) {edit : SourceEdit}
    (hedit : ∀ which value, edit = .text which value → ¬Typed (which.of draft) value) :
    SourceUnmarked (edit.apply draft) := by
  cases edit with
  | text which value => exact source_text_unmarked h which (hedit which value rfl)
  | kind type => exact change_source_type_unmarked h type
  | include_prerelease value => exact { h with }
  | exclude_updated value => exact { h with }

theorem edit_notifier_unmarked {draft : NotifierDraft} (h : NotifierUnmarked draft)
    {edit : NotifierEdit}
    (hedit : ∀ which value, edit = .text which value → ¬Typed (which.of draft) value)
    (hkind : ∀ type, edit = .kind type → Plain type) : NotifierUnmarked (edit.apply draft) := by
  cases edit with
  | text which value => exact notifier_text_unmarked h which (hedit which value rfl)
  | kind type => exact change_kind_unmarked h (hkind type rfl)

/-- One edit keeps the drafts unmarked. -/
theorem apply_unmarked {drafts : Drafts} (h : Unmarked drafts) {edit : Edit}
    (hedit : ¬edit.Types drafts) : Unmarked (edit.apply drafts) := by
  cases edit with
  | add_source key type =>
    refine { h with sources := fun draft hdraft => ?_ }
    rcases List.mem_append.mp hdraft with hdraft | hdraft
    · exact h.sources draft hdraft
    · obtain rfl := List.mem_singleton.mp hdraft
      exact empty_source_unmarked key type
  | remove_source at_ =>
    exact { h with
      sources := fun draft hdraft => h.sources draft (List.mem_of_mem_eraseIdx hdraft) }
  | edit_source at_ edit =>
    refine { h with sources := forall_modify h.sources (fun draft hdraft => ?_) }
    refine edit_source_unmarked (h.sources draft (List.mem_of_getElem? hdraft)) ?_
    rintro which value rfl htyped
    exact hedit ⟨draft, hdraft, htyped⟩
  | add_notifier key =>
    refine { h with notifiers := fun draft hdraft => ?_ }
    rcases List.mem_append.mp hdraft with hdraft | hdraft
    · exact h.notifiers draft hdraft
    · obtain rfl := List.mem_singleton.mp hdraft
      exact empty_notifier_unmarked key
  | remove_notifier at_ =>
    exact { h with
      notifiers := fun draft hdraft => h.notifiers draft (List.mem_of_mem_eraseIdx hdraft) }
  | duplicate_notifier key at_ =>
    simp only [Edit.apply]
    cases hat : drafts.notifiers[at_]? with
    | none => exact h
    | some draft =>
      refine { h with notifiers := fun other hother => ?_ }
      rcases List.eq_or_mem_of_mem_insertIdx hother with rfl | hother
      · exact duplicate_unmarked (h.notifiers draft (List.mem_of_getElem? hat)) key
      · exact h.notifiers other hother
  | edit_notifier at_ edit =>
    refine { h with notifiers := forall_modify h.notifiers (fun draft hdraft => ?_) }
    refine edit_notifier_unmarked (h.notifiers draft (List.mem_of_getElem? hdraft)) ?_ ?_
    · rintro which value rfl htyped
      exact hedit ⟨draft, hdraft, htyped⟩
    · rintro type rfl
      by_contra htype
      exact hedit htype

/-- And so does a run of edits. -/
theorem edits_unmarked {drafts last : Drafts} (hedits : Edits drafts last) (h : Unmarked drafts) :
    Unmarked last := by
  induction hedits with
  | nil => exact h
  | cons edit hedit _ ih => exact ih (apply_unmarked h hedit)

/-! ## Documents -/

/-- The texts of a source that the form shows, but for the id, the kind and the token. -/
def SHOWN : List String :=
  ["routing_tag", "preset", "pattern", "exclude_pattern", "notify_schedule"]

structure SourceRow (row : Row) : Prop where
  shown : ∀ key ∈ SHOWN, Plain (str (row_get key row))
  prerelease_tags : Plain (prerelease_text (row_get "prerelease_tags" row))
  token_env : source_supports_token (source_kind row) = true →
    Plain (str (row_get "token_env" row))
  fields : ∀ field ∈ primary_fields_for_kind (source_kind row),
    Plain (str (row_get field.key row))
  extra : ∀ entry ∈ extra_of OWNED_SOURCE_KEYS row, Dropped entry

structure NotifierRow (row : Row) : Prop where
  type : notifier_kind row = REDACTED ∨ Plain (notifier_kind row)
  name : Plain (str (row_get "name" row))
  tags : Plain (", ".intercalate (routing_tags_from_value (row_get "tags" row)))
  extra : ∀ entry ∈ extra_of (["type", "name", "tags"] ++
      (notifier_fields_for_kind (notifier_kind row)).map (·.key)) row,
    Plain entry.1 ∧ (is_placeholder entry.2 = true ∨ marked entry.2 = false)

/-- The sections that the editor writes anew, or drops. -/
def Rewritten (key : String) : Prop := key = "sources" ∨ key = "apprise" ∨ key = "notifiers"

/-- The document has markers only where the editor takes them out. -/
structure Removable (data : Row) : Prop where
  rest : CleanBut Rewritten data
  sources : ∀ row ∈ as_array (row_get "sources" data), SourceRow (as_object (some row))
  notifiers : ∀ row ∈ as_array (row_get "notifiers" data), NotifierRow (as_object (some row))

theorem read_source_unmarked {row : Row} (h : SourceRow row) (key : String) :
    SourceUnmarked (read_source key row) where
  routing_tag := h.shown _ (by simp [SHOWN])
  preset := h.shown _ (by simp [SHOWN])
  pattern := h.shown _ (by simp [SHOWN])
  exclude_pattern := h.shown _ (by simp [SHOWN])
  notify_schedule := h.shown _ (by simp [SHOWN])
  prerelease_tags := h.prerelease_tags
  token_env := by
    unfold read_source
    dsimp only
    split
    · rename_i hsupports
      exact plain_trim (h.token_env hsupports)
    · exact plain_empty
  fields := by
    intro field hfield
    obtain ⟨primary, hprimary, rfl⟩ := List.mem_map.mp hfield
    exact h.fields primary hprimary
  extra := h.extra

theorem read_notifier_unmarked {row : Row} (h : NotifierRow row) (key : String) :
    NotifierUnmarked (read_notifier_row key row (notifier_kind row)) where
  type := h.type
  name := h.name
  tags := h.tags
  extra := h.extra

theorem numbered_mem {seq : Nat} {rows : List Value} {row : String × Row}
    (h : row ∈ numbered seq rows) : ∃ value ∈ rows, row.2 = as_object (some value) := by
  unfold numbered at h
  obtain ⟨entry, hentry, rfl⟩ := List.mem_map.mp h
  exact ⟨entry.1, List.fst_mem_of_mem_zipIdx hentry, rfl⟩

theorem read_unmarked {data : Row} (h : Removable data) (seq seq' : Nat) :
    Unmarked (read_drafts seq seq' data) where
  sources := by
    intro draft hdraft
    obtain ⟨row, hrow, rfl⟩ := List.mem_map.mp hdraft
    obtain ⟨value, hvalue, heq⟩ := numbered_mem hrow
    rw [heq]
    exact read_source_unmarked (h.sources value hvalue) row.1
  notifiers := by
    intro draft hdraft
    obtain ⟨row, hrow, rfl⟩ := List.mem_map.mp hdraft
    obtain ⟨value, hvalue, heq⟩ := numbered_mem hrow
    rw [heq]
    exact read_notifier_unmarked (h.notifiers value hvalue) row.1

theorem written_clean (finite : String → Bool) {data : Row} {drafts : Drafts}
    (hrest : CleanBut Rewritten data) (h : Unmarked drafts) :
    Clean (written finite data drafts) := by
  have hsources : marked (.Items (drafts.sources.map
      (fun draft => Value.Object (write_source draft)))) = false := by
    rw [marked_items_iff]
    intro item hitem
    obtain ⟨draft, hdraft, rfl⟩ := List.mem_map.mp hitem
    exact marked_object_iff.mpr (write_source_clean (h.sources draft hdraft))
  have hnotifiers : marked (.Items (drafts.notifiers.map
      (fun draft => Value.Object (write_notifier_row finite draft)))) = false := by
    rw [marked_items_iff]
    intro item hitem
    obtain ⟨draft, hdraft, rfl⟩ := List.mem_map.mp hitem
    exact marked_object_iff.mpr (write_notifier_row_clean finite (h.notifiers draft hdraft))
  have hdata : CleanBut (fun k => k = "notifiers" ∨ False)
      (row_delete "apprise" (write_sources data drafts.sources)) := by
    have hwhole : CleanBut (fun k => k = "sources" ∨ k = "apprise" ∨ k = "notifiers" ∨ False)
        data := by
      intro entry hentry
      simpa only [Rewritten, or_false] using hrest entry hentry
    exact clean_of_delete (clean_of_set hwhole (plain_of_chars (by decide) : Plain "sources")
      hsources)
  rw [← clean_but_nothing]
  unfold written write_notifiers
  dsimp only
  split
  · exact clean_of_delete hdata
  · exact clean_of_set hdata (plain_of_chars (by decide) : Plain "notifiers") hnotifiers

/-- A document with markers only where the editor takes them out comes back without any, whatever
is edited without typing one. -/
theorem no_marker_is_written (finite : String → Bool) {data : Row} (h : Removable data)
    (seq seq' : Nat) {last : Drafts} (hedits : Edits (read_drafts seq seq' data) last) :
    Clean (written finite data last) :=
  written_clean finite h.rest (edits_unmarked hedits (read_unmarked h seq seq'))

/-- A document with a token, a destination and headers redacted. -/
def redacted_document : Row :=
  [("sources", .Items [.Object [("type", .Str "github"), ("repo", .Str "o/r"),
      ("token", .Str "<redacted>")]]),
    ("notifiers", .Items [.Object [("type", .Str "webhook"), ("url", .Str "<redacted>"),
      ("headers", .Object [("A", .Str "<redacted>")])]])]

theorem redacted_document_removable : Removable redacted_document where
  rest := by
    intro entry hentry
    simp only [redacted_document, List.mem_cons, List.not_mem_nil, or_false] at hentry
    rcases hentry with rfl | rfl
    · exact ⟨plain_of_chars (by decide), Or.inl (Or.inl rfl)⟩
    · exact ⟨plain_of_chars (by decide), Or.inl (Or.inr (Or.inr rfl))⟩
  sources := by
    intro row hrow
    obtain rfl := List.mem_singleton.mp hrow
    exact {
      shown := by decide +kernel
      prerelease_tags := by decide +kernel
      token_env := by decide +kernel
      fields := by decide +kernel
      extra := fun entry hentry => absurd hentry List.not_mem_nil }
  notifiers := by
    intro row hrow
    obtain rfl := List.mem_singleton.mp hrow
    exact {
      type := Or.inr (by decide +kernel)
      name := by decide +kernel
      tags := by decide +kernel
      extra := fun entry hentry => absurd hentry List.not_mem_nil }

/-- The source moves to another forge, the channel is copied, and the copy gets a new address. -/
theorem no_marker_is_written_here : Removable redacted_document ∧
    Clean (written (fun _ => true) redacted_document
      (Edit.apply (Edit.apply (Edit.apply (read_drafts 0 0 redacted_document)
        (.edit_source 0 (.kind "codeberg"))) (.duplicate_notifier "src-9" 0))
        (.edit_notifier 1 (.text (.field "url") "https://h")))) := by
  have hkind : ¬Edit.Types (read_drafts 0 0 redacted_document)
      (.edit_source 0 (.kind "codeberg")) :=
    not_not_intro (plain_of_chars (by decide) : Plain "codeberg")
  have hcopy (drafts : Drafts) : ¬Edit.Types drafts (.duplicate_notifier "src-9" 0) := not_false
  have htext (drafts : Drafts) :
      ¬Edit.Types drafts (.edit_notifier 1 (.text (.field "url") "https://h")) := by
    rintro ⟨draft, -, -, hmarked⟩
    exact hmarked (plain_of_chars (by decide))
  exact ⟨redacted_document_removable, no_marker_is_written _ redacted_document_removable 0 0
    (.cons _ hkind (.cons _ (hcopy _) (.cons _ (htext _) (.nil _))))⟩

/-- A feed with its user's name and password masked goes back with the mask as they are. -/
theorem a_masked_feed_is_written_back : ¬∀ (finite : String → Bool) (data : Row) (seq seq' : Nat)
    (last : Drafts), Edits (read_drafts seq seq' data) last → Clean (written finite data last) := by
  intro h
  have hclean := h (fun _ => true)
    [("sources", .Items [.Object [("type", .Str "feed"), ("url", .Str "http://<redacted>@a/f")]])]
    0 0 _ (.nil _)
  rw [← marked_object_iff] at hclean
  exact absurd hclean (by decide +kernel)

end xrelease.pasted
