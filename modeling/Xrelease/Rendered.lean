-- The advisories of a version in its message: how an answer of the service is read
-- (`advisory/osv.rs`), rendered below the release notes (`advisory/mod.rs`) and sent as a chat
-- message (`notify/payload.rs`), and whether the message still fits what chats take.
import Xrelease.Boot
import Xrelease.Findings

namespace xrelease.rendered

open text xrelease.model xrelease.store xrelease.pipeline xrelease.advisory
open xrelease.config (lines)

/-! ## The service's answer -/

/-- `Severity::parse`. -/
def parse_severity (raw : String) : Option Severity :=
  let label := String.ofList ((trimmed raw.toList).map to_ascii_uppercase)
  if label = "LOW" then some .Low
  else if label = "MODERATE" ∨ label = "MEDIUM" then some .Moderate
  else if label = "HIGH" then some .High
  else if label = "CRITICAL" then some .Critical
  else none

/-- An entry, with the scores of its `severity` and the text at `database_specific.severity`. -/
structure OsvVuln where
  id : String
  summary : Option String := none
  details : Option String := none
  aliases : List String := []
  severity : List (Option String) := []
  label : Option String := none
  withdrawn : Option String := none
deriving DecidableEq

/-- Whether the entry still stands. -/
def OsvVuln.is_active (vuln : OsvVuln) : Bool := vuln.withdrawn.all (fun moment => trim moment = "")

/-- Major version of a `CVSS:3.1/AV:N/…` vector, 0 when there is none to read. -/
def cvss_major_version (vector : String) : Nat :=
  let major := (strip_prefix_of "CVSS:" vector).map
    (fun rest => rest.toList.takeWhile (fun c => c != '.' && c != '/'))
  (major.bind (fun digits => xrelease.config.parse_unsigned 8 (String.ofList digits))).getD 0

/-- Of two vectors that of the newer version, the later one when there is none. -/
def newer_vector (best : Option String) (score : String) : Option String :=
  match best with
  | none => some score
  | some other =>
    if cvss_major_version other ≤ cvss_major_version score then some score else some other

def best_cvss_vector (severity : List (Option String)) : Option String :=
  ((severity.filterMap (fun score => score)).filter
    (fun score => (strip_prefix_of "CVSS:" score).isSome)).foldl newer_vector none

def MAX_SUMMARY_CHARS : Nat := 240

/-- A heading or a rule: a line without prose. -/
def is_markdown_furniture (line : List Char) : Bool :=
  line.head? = some '#' ||
    (3 ≤ line.length && line.all (fun c => ['-', '*', '_', ' '].contains c))

/-- The first line of prose, cut off after `MAX_SUMMARY_CHARS` characters. -/
def first_line (text : String) : String :=
  let line := (((lines text.toList).map trimmed).find?
    (fun line => line ≠ [] && !is_markdown_furniture line)).getD []
  if MAX_SUMMARY_CHARS < line.length then
    String.ofList (line.take MAX_SUMMARY_CHARS) ++ "…"
  else String.ofList line

def OsvVuln.into_advisory (vuln : OsvVuln) : Advisory where
  id := vuln.id
  display_id :=
    (vuln.aliases.find? (fun name => (strip_prefix_of "CVE-" name).isSome)).getD vuln.id
  summary := ((vuln.summary.or vuln.details).map first_line).filter (fun text => text ≠ "")
  severity := vuln.label.bind parse_severity
  cvss_vector := best_cvss_vector vuln.severity
  url := some ("https://osv.dev/vulnerability/" ++ vuln.id)

/-- What a query answers. -/
def answered (vulns : List OsvVuln) : List Advisory :=
  (vulns.filter OsvVuln.is_active).map OsvVuln.into_advisory

/-! ## Rendering -/

def severity_text : Severity → String
  | .Low => "low"
  | .Moderate => "moderate"
  | .High => "high"
  | .Critical => "critical"

/-- The derived order of the labels. -/
def rank : Severity → Nat
  | .Low => 0
  | .Moderate => 1
  | .High => 2
  | .Critical => 3

def higher (best : Option Severity) (severity : Severity) : Option Severity :=
  match best with
  | none => some severity
  | some other => if rank other ≤ rank severity then some severity else some other

/-- Highest severity across a set, when any is known. -/
def max_severity (advisories : List Advisory) : Option Severity :=
  (advisories.filterMap (·.severity)).foldl higher none

def MAX_RENDERED_ADVISORIES : Nat := 8

/-- The heading: how many there are, and the highest severity. -/
def render_header (advisories : List Advisory) : String :=
  "\n\n---\n**Security advisories** (" ++ toString advisories.length ++
    (max_severity advisories).elim "" (fun max => ", highest: " ++ severity_text max) ++ ")\n"

def render_advisory (advisory : Advisory) : String :=
  "\n- **" ++ advisory.display_id ++ "**" ++
    advisory.severity.elim "" (fun severity => " (" ++ severity_text severity ++ ")") ++
    advisory.summary.elim "" (fun summary => " — " ++ summary) ++
    (if advisory.severity = none then
      advisory.cvss_vector.elim "" (fun vector => " — `" ++ vector ++ "`")
    else "") ++
    advisory.url.elim "" (fun url => "\n  " ++ url)

def render_omitted (omitted : Nat) : String :=
  if 0 < omitted then "\n- …and " ++ toString omitted ++ " more" else ""

/-- The block below the notes. -/
def render_markdown (advisories : List Advisory) : String :=
  if advisories = [] then ""
  else
    render_header advisories ++
      String.join ((advisories.take MAX_RENDERED_ADVISORIES).map render_advisory) ++
      render_omitted (advisories.length - MAX_RENDERED_ADVISORIES)

/-- The event with the advisories attached. -/
def enriched (event : Event) (advisories : List Advisory) : Event :=
  { event with body := event.body ++ render_markdown advisories }

/-! ## The chat message -/

def append_event_url (message : String) (event : Event) : String :=
  match (event.url.map trim).filter (fun url => url ≠ "") with
  | some url => (if message = "" then message else message ++ "\n\n") ++ url
  | none => message

/-- Title, body, then URL. -/
def default_chat_message (event : Event) : String :=
  append_event_url
    (if event.body = "" then event.title else event.title ++ "\n\n" ++ event.body) event

/-- Characters that a chat takes in one message. -/
def CHAT_LIMIT : Nat := 4096

def Fits (event : Event) : Prop := (default_chat_message event).length ≤ CHAT_LIMIT

/-! ## Lengths -/

def header_length (advisories : List Advisory) : Nat :=
  33 + (toString advisories.length).length +
    (max_severity advisories).elim 0 (fun max => 11 + (severity_text max).length)

def advisory_length (advisory : Advisory) : Nat :=
  7 + advisory.display_id.length +
    advisory.severity.elim 0 (fun severity => 3 + (severity_text severity).length) +
    advisory.summary.elim 0 (fun summary => 3 + summary.length) +
    (if advisory.severity = none then
      advisory.cvss_vector.elim 0 (fun vector => 5 + vector.length)
    else 0) +
    advisory.url.elim 0 (fun url => 3 + url.length)

def omitted_length (omitted : Nat) : Nat :=
  if 0 < omitted then 13 + (toString omitted).length else 0

/-- Characters of the block, of which neither the ids nor the links have a limit. -/
def block_length (advisories : List Advisory) : Nat :=
  if advisories = [] then 0
  else
    header_length advisories +
      ((advisories.take MAX_RENDERED_ADVISORIES).map advisory_length).sum +
      omitted_length (advisories.length - MAX_RENDERED_ADVISORIES)

def notes_length (notes : String) : Nat :=
  if MAX_BODY_CHARS < notes.length then MAX_BODY_CHARS + 25 else notes.length

def link_length (url : Option String) : Nat :=
  ((url.map trim).filter (fun url => url ≠ "")).elim 0 (fun url => 2 + url.length)

/-- Characters of the body about a release. -/
def body_length (provider : Provider) (release : Release) : Nat :=
  provider.display_name.length + release.raw_tag.length + provider.kind_label.length +
    (release.version.elim release.raw_tag version_text).length +
    release.published_at.elim 0 (fun t => 14 + (date_text t).length) +
    release.body.elim 0 (fun notes => 6 + notes_length notes) + 45

/-- Characters of the message about a release, before any advisory. -/
def release_length (provider : Provider) (release : Release) : Nat :=
  provider.display_name.length + 14 + release.raw_tag.length + 2 + body_length provider release +
    link_length release.url

theorem length_header (advisories : List Advisory) :
    (render_header advisories).length = header_length advisories := by
  have hopening : "\n\n---\n**Security advisories** (".length = 31 := rfl
  have hhighest : ", highest: ".length = 11 := rfl
  have hend : ")\n".length = 2 := rfl
  unfold render_header header_length
  cases max_severity advisories with
  | none =>
    simp only [Option.elim_none, String.length_append, hopening, hend, String.length_empty]
    omega
  | some max =>
    simp only [Option.elim_some, String.length_append, hopening, hhighest, hend]
    omega

theorem length_advisory (advisory : Advisory) :
    (render_advisory advisory).length = advisory_length advisory := by
  have hseverity : (advisory.severity.elim ""
      (fun severity => " (" ++ severity_text severity ++ ")")).length =
        advisory.severity.elim 0 (fun severity => 3 + (severity_text severity).length) := by
    have hopening : " (".length = 2 := rfl
    have hend : ")".length = 1 := rfl
    cases advisory.severity with
    | none => rfl
    | some severity =>
      simp only [Option.elim_some, String.length_append, hopening, hend]
      omega
  have hsummary : (advisory.summary.elim "" (fun summary => " — " ++ summary)).length =
      advisory.summary.elim 0 (fun summary => 3 + summary.length) := by
    have hopening : " — ".length = 3 := rfl
    cases advisory.summary with
    | none => rfl
    | some summary => simp only [Option.elim_some, String.length_append, hopening]
  have hvector : (advisory.cvss_vector.elim "" (fun vector => " — `" ++ vector ++ "`")).length =
      advisory.cvss_vector.elim 0 (fun vector => 5 + vector.length) := by
    have hopening : " — `".length = 4 := rfl
    have hend : "`".length = 1 := rfl
    cases advisory.cvss_vector with
    | none => rfl
    | some vector =>
      simp only [Option.elim_some, String.length_append, hopening, hend]
      omega
  have hurl : (advisory.url.elim "" (fun url => "\n  " ++ url)).length =
      advisory.url.elim 0 (fun url => 3 + url.length) := by
    have hopening : "\n  ".length = 3 := rfl
    cases advisory.url with
    | none => rfl
    | some url => simp only [Option.elim_some, String.length_append, hopening]
  have hopening : "\n- **".length = 5 := rfl
  have hend : "**".length = 2 := rfl
  unfold render_advisory advisory_length
  simp only [String.length_append, hopening, hend, hseverity, hsummary, hurl]
  split
  · rw [hvector]
    omega
  · rw [String.length_empty]
    omega

theorem length_omitted (omitted : Nat) :
    (render_omitted omitted).length = omitted_length omitted := by
  have hopening : "\n- …and ".length = 8 := rfl
  have hend : " more".length = 5 := rfl
  unfold render_omitted omitted_length
  split
  · simp only [String.length_append, hopening, hend]
    omega
  · rfl

theorem length_joined (texts : List String) :
    (String.join texts).length = (texts.map String.length).sum := by
  induction texts with
  | nil => rfl
  | cons text rest ih =>
    rw [String.join_cons, String.length_append, ih, List.map_cons, List.sum_cons]

theorem length_markdown (advisories : List Advisory) :
    (render_markdown advisories).length = block_length advisories := by
  unfold render_markdown block_length
  split
  · rfl
  · have hlines : (((advisories.take MAX_RENDERED_ADVISORIES).map render_advisory).map
        String.length) = (advisories.take MAX_RENDERED_ADVISORIES).map advisory_length := by
      rw [List.map_map]
      apply List.map_congr_left
      intro advisory _
      rw [Function.comp_apply, length_advisory]
    rw [String.length_append, String.length_append, length_header, length_omitted, length_joined,
      hlines]

theorem length_notes (notes : String) : (notes_text notes).length = notes_length notes := by
  have hcut : "\n\n*…changelog truncated…*".length = 25 := rfl
  unfold notes_text notes_length
  split
  · rename_i hlong
    have htaken : (notes.toList.take MAX_BODY_CHARS).length = MAX_BODY_CHARS := by
      rw [List.length_take, String.length_toList]
      omega
    rw [String.length_append, String.length_ofList, htaken, hcut]
  · rfl

/-- A message whose body is not empty. -/
theorem length_message {event : Event} (hbody : event.body ≠ "") :
    (default_chat_message event).length =
      event.title.length + 2 + event.body.length + link_length event.url := by
  have hbreak : "\n\n".length = 2 := rfl
  have hne : event.title ++ "\n\n" ++ event.body ≠ "" := by
    intro he
    have hlength := congrArg String.length he
    simp only [String.length_append, hbreak, String.length_empty] at hlength
    omega
  unfold default_chat_message append_event_url link_length
  rw [if_neg hbody]
  cases (event.url.map trim).filter (fun url => url ≠ "") with
  | none => simp only [String.length_append, hbreak, Option.elim_none, Nat.add_zero]
  | some url =>
    simp only [if_neg hne, String.length_append, hbreak, Option.elim_some]
    omega

theorem length_body (watch : Watch) (release : Release) :
    (event_of watch release).body.length = body_length watch.provider release := by
  have htext : ∀ s : String, toString s = s := fun _ => rfl
  have hpublished :
      (release.published_at.elim "" (fun t => "- Published: " ++ date_text t ++ "\n")).length =
        release.published_at.elim 0 (fun t => 14 + (date_text t).length) := by
    have hopening : "- Published: ".length = 13 := rfl
    have hend : "\n".length = 1 := rfl
    cases release.published_at with
    | none => rfl
    | some t =>
      simp only [Option.elim_some, String.length_append, hopening, hend]
      omega
  have hnotes : (release.body.elim "" (fun notes => "\n---\n\n" ++ notes_text notes)).length =
      release.body.elim 0 (fun notes => 6 + notes_length notes) := by
    cases release.body with
    | none => rfl
    | some notes =>
      rw [Option.elim_some, String.length_append, length_notes]
      rfl
  have hbold : "**".length = 2 := rfl
  have hmiddle : "** published **".length = 15 := rfl
  have hend : "**.\n\n".length = 5 := rfl
  have hsource : "- Source: ".length = 10 := rfl
  have hversion : "- Version: ".length = 11 := rfl
  have hline : "\n".length = 1 := rfl
  unfold event_of build_event body_length
  simp only [htext, String.length_append, hpublished, hnotes, hbold, hmiddle, hend, hsource,
    hversion, hline]
  omega

theorem body_ne_empty (watch : Watch) (release : Release) :
    (event_of watch release).body ≠ "" := by
  intro he
  have hlength := congrArg String.length he
  rw [length_body, String.length_empty] at hlength
  unfold body_length at hlength
  omega

theorem length_release (watch : Watch) (release : Release) :
    (default_chat_message (event_of watch release)).length =
      release_length watch.provider release := by
  have htitle : (event_of watch release).title.length =
      watch.provider.display_name.length + 14 + release.raw_tag.length := by
    have hmiddle : ": new release ".length = 14 := rfl
    have htext : ∀ s : String, toString s = s := fun _ => rfl
    unfold event_of build_event
    simp only [htext, String.length_append, hmiddle]
  rw [length_message (body_ne_empty watch release), length_body, htitle]
  rfl

/-- The block comes on top of the message. -/
theorem length_enriched {event : Event} (hbody : event.body ≠ "") (advisories : List Advisory) :
    (default_chat_message (enriched event advisories)).length =
      (default_chat_message event).length + block_length advisories := by
  have hmore : (enriched event advisories).body.length =
      event.body.length + block_length advisories := by
    unfold enriched
    rw [String.length_append, length_markdown]
  have hbody' : (enriched event advisories).body ≠ "" := by
    intro he
    have hlength := congrArg String.length he
    rw [hmore, String.length_empty] at hlength
    have hempty : event.body.length = 0 := by omega
    exact hbody (String.length_eq_zero_iff.mp hempty)
  have htitle : (enriched event advisories).title = event.title := rfl
  have hurl : (enriched event advisories).url = event.url := rfl
  rw [length_message hbody', length_message hbody, hmore, htitle, hurl]
  omega

/-! ## The law -/

/-- The highest severity of the list, when any is known. -/
def Highest (advisories : List Advisory) : Option Severity → Prop
  | none => ∀ advisory ∈ advisories, advisory.severity = none
  | some max => (∃ advisory ∈ advisories, advisory.severity = some max) ∧
      ∀ advisory ∈ advisories, ∀ severity, advisory.severity = some severity →
        rank severity ≤ rank max

/-- The block opens with the number and the highest severity of all that there are. -/
def HeadsAll (advisories : List Advisory) : Prop :=
  ∃ highest rest, Highest advisories highest ∧
    render_markdown advisories =
      "\n\n---\n**Security advisories** (" ++ toString advisories.length ++
        highest.elim "" (fun max => ", highest: " ++ severity_text max) ++ ")\n" ++ rest

/-- The advisories do not make the message too long, and none of them goes uncounted. -/
structure StaysDeliverable (event : Event) (advisories : List Advisory) : Prop where
  fits : Fits event → Fits (enriched event advisories)
  heads : advisories ≠ [] → HeadsAll advisories

theorem highest_snoc {advisories : List Advisory} {best : Option Severity}
    (h : Highest advisories best) (advisory : Advisory) :
    Highest (advisories ++ [advisory]) (advisory.severity.elim best (higher best)) := by
  cases hseverity : advisory.severity with
  | none =>
    cases best with
    | none =>
      intro other hother
      rcases List.mem_append.mp hother with hother | hother
      · exact h other hother
      · rw [List.mem_singleton.mp hother, hseverity]
    | some max =>
      obtain ⟨⟨top, htop, hmax⟩, hall⟩ := h
      refine ⟨⟨top, List.mem_append_left _ htop, hmax⟩, ?_⟩
      intro other hother severity hs
      rcases List.mem_append.mp hother with hother | hother
      · exact hall other hother severity hs
      · rw [List.mem_singleton.mp hother, hseverity] at hs
        simp at hs
  | some severity =>
    have hself : ∀ other ∈ [advisory], ∀ label, other.severity = some label →
        label = severity := by
      intro other hother label hs
      rw [List.mem_singleton.mp hother, hseverity] at hs
      exact (Option.some.inj hs).symm
    have hlast : ∃ other ∈ advisories ++ [advisory], other.severity = some severity :=
      ⟨advisory, by simp, hseverity⟩
    cases best with
    | none =>
      refine ⟨hlast, ?_⟩
      intro other hother label hs
      rcases List.mem_append.mp hother with hother | hother
      · rw [h other hother] at hs
        simp at hs
      · rw [hself other hother label hs]
    | some max =>
      obtain ⟨⟨top, htop, hmax⟩, hall⟩ := h
      simp only [Option.elim_some, higher]
      split
      · rename_i hle
        refine ⟨hlast, ?_⟩
        intro other hother label hs
        rcases List.mem_append.mp hother with hother | hother
        · exact (hall other hother label hs).trans hle
        · rw [hself other hother label hs]
      · rename_i hlt
        refine ⟨⟨top, List.mem_append_left _ htop, hmax⟩, ?_⟩
        intro other hother label hs
        rcases List.mem_append.mp hother with hother | hother
        · exact hall other hother label hs
        · rw [hself other hother label hs]
          omega

theorem highest_fold (rest : List Advisory) {before : List Advisory} {best : Option Severity}
    (h : Highest before best) :
    Highest (before ++ rest) ((rest.filterMap (·.severity)).foldl higher best) := by
  induction rest generalizing before best with
  | nil => simpa using h
  | cons advisory rest ih =>
    have hnext := ih (highest_snoc h advisory)
    rw [List.append_assoc, List.singleton_append] at hnext
    cases hseverity : advisory.severity with
    | none => simpa [hseverity] using hnext
    | some severity => simpa [hseverity] using hnext

theorem heads_all {advisories : List Advisory} (hne : advisories ≠ []) : HeadsAll advisories := by
  have hnone : Highest [] none := by simp [Highest]
  have hhighest := highest_fold advisories hnone
  rw [List.nil_append] at hhighest
  refine ⟨max_severity advisories,
    String.join ((advisories.take MAX_RENDERED_ADVISORIES).map render_advisory) ++
      render_omitted (advisories.length - MAX_RENDERED_ADVISORIES), hhighest, ?_⟩
  unfold render_markdown render_header
  rw [if_neg hne, String.append_assoc]

/-- An event keeps fitting exactly where the block has room below it, or where it did not fit
before. -/
theorem enrichment_stays_deliverable_iff (watch : Watch) (release : Release)
    (vulns : List OsvVuln) :
    StaysDeliverable (event_of watch release) (answered vulns) ↔
      CHAT_LIMIT < release_length watch.provider release ∨
        release_length watch.provider release + block_length (answered vulns) ≤ CHAT_LIMIT := by
  have hfits : Fits (event_of watch release) ↔
      release_length watch.provider release ≤ CHAT_LIMIT := by
    unfold Fits
    rw [length_release]
  have hmore : Fits (enriched (event_of watch release) (answered vulns)) ↔
      release_length watch.provider release + block_length (answered vulns) ≤ CHAT_LIMIT := by
    unfold Fits
    rw [length_enriched (body_ne_empty watch release), length_release]
  constructor
  · intro h
    by_cases hlong : CHAT_LIMIT < release_length watch.provider release
    · exact Or.inl hlong
    · exact Or.inr (hmore.mp (h.fits (hfits.mpr (by omega))))
  · intro h
    refine ⟨?_, heads_all⟩
    intro hfit
    rw [hfits] at hfit
    rw [hmore]
    omega

/-- An ordinary entry of the service. -/
def postcss_vuln : OsvVuln where
  id := "GHSA-7fh5-64p2-3v2j"
  summary := some "PostCSS line return parsing error lets a comment become CSS properties"
  aliases := ["CVE-2023-44270"]
  label := some "MODERATE"

def postcss_advisory : Advisory where
  id := "GHSA-7fh5-64p2-3v2j"
  display_id := "CVE-2023-44270"
  summary := some "PostCSS line return parsing error lets a comment become CSS properties"
  severity := some .Moderate
  cvss_vector := none
  url := some "https://osv.dev/vulnerability/GHSA-7fh5-64p2-3v2j"

theorem answered_postcss (n : Nat) :
    answered (List.replicate n postcss_vuln) = List.replicate n postcss_advisory := by
  have hadvisory : postcss_vuln.into_advisory = postcss_advisory := by decide +kernel
  have hactive : postcss_vuln.is_active = true := rfl
  unfold answered
  rw [List.filter_replicate_of_pos hactive, List.map_replicate, hadvisory]

def npm_watch : Watch where
  provider := ⟨"npm:postcss", "npm", "npm", "postcss"⟩
  filter := ⟨false, none, none, none, false⟩
  routing_tag := none
  notify_schedule := none

def noted_release (notes : String) : Release := (Release.new "8.4.30").with_body (some notes)

theorem length_noted (notes : String) :
    release_length npm_watch.provider (noted_release notes) = 102 + notes_length notes := by
  have hversion : ((noted_release notes).version.elim (noted_release notes).raw_tag
      version_text).length = 6 := by
    change ((Release.new "8.4.30").version.elim (Release.new "8.4.30").raw_tag
      version_text).length = 6
    decide +kernel
  have hbody : (noted_release notes).body = some notes := rfl
  have htag : (noted_release notes).raw_tag.length = 6 := by
    change "8.4.30".length = 6
    decide
  have hpublished : (noted_release notes).published_at = none := rfl
  have hlink : link_length (noted_release notes).url = 0 := rfl
  have hname : npm_watch.provider.display_name.length = 7 := rfl
  have hkind : npm_watch.provider.kind_label.length = 3 := rfl
  unfold release_length body_length
  rw [hversion, hbody, hpublished, htag, hlink, hname, hkind, Option.elim_some, Option.elim_none]
  omega

/-- Eight advisories below notes of three thousand characters do not fit any more. -/
theorem eight_advisories_make_it_undeliverable :
    ∃ notes, Fits (event_of npm_watch (noted_release notes)) ∧
      ¬ Fits (enriched (event_of npm_watch (noted_release notes))
        (answered (List.replicate 8 postcss_vuln))) := by
  refine ⟨String.ofList (List.replicate 3000 'a'), ?_⟩
  have hnotes : notes_length (String.ofList (List.replicate 3000 'a')) = 3000 := by
    have hlength : (String.ofList (List.replicate 3000 'a')).length = 3000 := by
      rw [String.length_ofList, List.length_replicate]
    unfold notes_length MAX_BODY_CHARS
    rw [hlength, if_neg (by omega)]
  have hblock : block_length (answered (List.replicate 8 postcss_vuln)) = 1309 := by
    rw [answered_postcss]
    decide +kernel
  generalize String.ofList (List.replicate 3000 'a') = notes at hnotes
  unfold Fits
  rw [length_enriched (body_ne_empty npm_watch (noted_release notes)), length_release,
    length_noted, hnotes, hblock]
  decide

end xrelease.rendered
