-- Releases of GitHub, Codeberg, Gitea and Forgejo (`sources/gitea_releases.rs`): the REST list,
-- the Atom feed, and the fetch that picks one of them; and the tag in a link to a release
-- (`sources/release_urls.rs`). What the host answers comes from outside, already parsed.
import Xrelease.Places
import Xrelease.Sealed

namespace xrelease.gitea_releases

open text xrelease.model xrelease.engine xrelease.sealed

/-! ## Links to a release -/

def hex_digit (n : Nat) : Char := if n < 10 then Char.ofNat (48 + n) else Char.ofNat (55 + n)

/-- A letter, a digit or one of `-_.~` stands for itself. -/
def is_plain (byte : UInt8) : Bool :=
  97 ≤ byte && byte ≤ 122 || 65 ≤ byte && byte ≤ 90 || 48 ≤ byte && byte ≤ 57 || byte == 45 ||
    byte == 95 || byte == 46 || byte == 126

def encode_byte (byte : UInt8) : List Char :=
  if is_plain byte then [Char.ofNat byte.toNat]
  else ['%', hex_digit (byte.toNat / 16), hex_digit (byte.toNat % 16)]

/-- Percent-encode a path segment for use in URLs. -/
def encode_path_segment (segment : String) : String :=
  String.ofList ((as_bytes segment).flatMap encode_byte)

def from_hex (byte : UInt8) : Option UInt8 :=
  if 48 ≤ byte ∧ byte ≤ 57 then some (byte - 48)
  else if 97 ≤ byte ∧ byte ≤ 102 then some (byte - 97 + 10)
  else if 65 ≤ byte ∧ byte ≤ 70 then some (byte - 65 + 10)
  else none

/-- Invalid `%` sequences are left as they are. -/
def decode_bytes : Bytes → Bytes
  | [] => []
  | [byte] => [byte]
  | [byte, next] => [byte, next]
  | byte :: hi :: lo :: rest =>
    if byte = 37 then
      match from_hex hi, from_hex lo with
      | some h, some l => ((h <<< 4) ||| l) :: decode_bytes rest
      | _, _ => byte :: decode_bytes (hi :: lo :: rest)
    else byte :: decode_bytes (hi :: lo :: rest)

def continues (byte : UInt8) : Bool := 0x80 ≤ byte && byte ≤ 0xBF

/-- Whether the second byte may follow the first one. -/
def second_ok (first second : UInt8) : Bool :=
  if first = 0xE0 then 0xA0 ≤ second && second ≤ 0xBF
  else if first = 0xED then 0x80 ≤ second && second ≤ 0x9F
  else if first = 0xF0 then 0x90 ≤ second && second ≤ 0xBF
  else if first = 0xF4 then 0x80 ≤ second && second ≤ 0x8F
  else continues second

/-- How many bytes a character takes that begins with this one, if it can. -/
def char_width (first : UInt8) : Nat :=
  if first < 0x80 then 1
  else if 0xC2 ≤ first ∧ first ≤ 0xDF then 2
  else if 0xE0 ≤ first ∧ first ≤ 0xEF then 3
  else if 0xF0 ≤ first ∧ first ≤ 0xF4 then 4
  else 0

/-- The length of the next character, or of the broken one that is replaced as a whole. -/
def next_chunk (first : UInt8) (rest : Bytes) : Nat × Bool :=
  let width := char_width first
  if width ≤ 1 then (1, width = 1)
  else if !second_ok first (rest.getD 0 0) then (1, false)
  else if width = 2 then (2, true)
  else if !continues (rest.getD 1 0) then (2, false)
  else if width = 3 then (3, true)
  else if !continues (rest.getD 2 0) then (3, false)
  else (4, true)

def lossy_chars : Nat → Bytes → List Char
  | 0, _ => []
  | _, [] => []
  | fuel + 1, first :: rest =>
    let (length, valid) := next_chunk first rest
    let decoded := (from_utf8 ((first :: rest).take length)).bind (fun s => s.toList.head?)
    (if valid then decoded.getD '\uFFFD' else '\uFFFD') ::
      lossy_chars fuel ((first :: rest).drop length)

/-- `String::from_utf8_lossy`. -/
def from_utf8_lossy (bytes : Bytes) : String :=
  match from_utf8 bytes with
  | some s => s
  | none => String.ofList (lossy_chars bytes.length bytes)

/-- Percent-decode a path segment extracted from a release URL. -/
def decode_path_segment (segment : String) : String :=
  from_utf8_lossy (decode_bytes (as_bytes segment))

def RELEASES_TAG : String := "/releases/tag/"

/-- What ends a path segment. -/
def ends_segment (c : Char) : Bool := c = '/' || c = '?' || c = '#'

/-- The tag in a URL `.../releases/tag/<TAG>`. A second `/releases/tag/` is cut off with the `/` it
begins with. -/
def tag_from_release_url (url : String) : Option String :=
  (split_once RELEASES_TAG url).map (fun parts =>
    decode_path_segment (String.ofList (parts.2.toList.takeWhile (fun c => !ends_segment c))))

def without_slashes (url : String) : String :=
  String.ofList (trim_end_matches (· == '/') url.toList)

/-- Gitea-compatible release page. -/
def gitea_release_url (web_base repo tag : String) : String :=
  without_slashes web_base ++ "/" ++ repo ++ RELEASES_TAG ++ encode_path_segment tag

/-! ## Reading a link back -/

def ascii_bytes (l : List Char) : Bytes := l.map (fun c => UInt8.ofNat c.toNat)

theorem as_bytes_ascii {l : List Char} (h : ∀ c ∈ l, c.toNat < 128) :
    as_bytes (String.ofList l) = ascii_bytes l := by
  have hbytes : as_bytes (String.ofList l) = l.flatMap String.utf8EncodeChar := by
    simp [as_bytes, List.utf8Encode]
  rw [hbytes]
  unfold ascii_bytes
  rw [List.map_eq_flatMap]
  apply List.flatMap_congr
  intro c hc
  exact text.utf8_ascii (h c hc)

/-- The byte of an escape. -/
def escape_value : Bytes → Option UInt8
  | [37, hi, lo] => do
    let h ← from_hex hi
    let l ← from_hex lo
    some ((h <<< 4) ||| l)
  | _ => none

/-- A byte is encoded as itself, but for `%`, or as its escape, in characters that do not end a
segment. -/
theorem encode_byte_cases (byte : UInt8) :
    (encode_byte byte).all (fun c => c.toNat < 128 && !ends_segment c) = true ∧
      ((byte ≠ 37 ∧ ascii_bytes (encode_byte byte) = [byte]) ∨
        escape_value (ascii_bytes (encode_byte byte)) = some byte) := by
  have hall : ∀ n < 256,
      (encode_byte (UInt8.ofNat n)).all (fun c => c.toNat < 128 && !ends_segment c) = true ∧
        ((UInt8.ofNat n ≠ 37 ∧ ascii_bytes (encode_byte (UInt8.ofNat n)) = [UInt8.ofNat n]) ∨
          escape_value (ascii_bytes (encode_byte (UInt8.ofNat n))) = some (UInt8.ofNat n)) := by
    decide +kernel
  have hone := hall byte.toNat byte.toNat_lt
  rwa [UInt8.ofNat_toNat] at hone

theorem decode_plain {byte : UInt8} (h : byte ≠ 37) (rest : Bytes) :
    decode_bytes (byte :: rest) = byte :: decode_bytes rest := by
  match rest with
  | [] => rfl
  | [next] => rfl
  | hi :: lo :: rest =>
    rw [decode_bytes, if_neg h]

theorem decode_escape {bytes : Bytes} {byte : UInt8} (h : escape_value bytes = some byte)
    (rest : Bytes) : decode_bytes (bytes ++ rest) = byte :: decode_bytes rest := by
  unfold escape_value at h
  split at h
  · rename_i hi lo
    simp only [Option.bind_eq_bind, Option.bind_eq_some_iff, Option.some.injEq] at h
    obtain ⟨high, hhigh, low, hlow, rfl⟩ := h
    simp only [List.cons_append, List.nil_append, decode_bytes, if_true, hhigh, hlow]
  · simp at h

theorem decode_encoded (bytes : Bytes) :
    decode_bytes (ascii_bytes (bytes.flatMap encode_byte)) = bytes := by
  induction bytes with
  | nil => rfl
  | cons byte rest ih =>
    have hsplit : ascii_bytes ((byte :: rest).flatMap encode_byte) =
        ascii_bytes (encode_byte byte) ++ ascii_bytes (rest.flatMap encode_byte) := by
      unfold ascii_bytes
      rw [List.flatMap_cons, List.map_append]
    rw [hsplit]
    rcases (encode_byte_cases byte).2 with ⟨hplain, hself⟩ | hescape
    · rw [hself, List.singleton_append, decode_plain hplain, ih]
    · rw [decode_escape hescape, ih]

theorem encoded_chars {segment : String} {c : Char}
    (h : c ∈ (encode_path_segment segment).toList) : c.toNat < 128 ∧ ends_segment c = false := by
  unfold encode_path_segment at h
  rw [String.toList_ofList] at h
  obtain ⟨byte, -, hc⟩ := List.mem_flatMap.mp h
  have hall := List.all_eq_true.mp (encode_byte_cases byte).1 c hc
  simpa using hall

/-- What is percent-encoded is read back. -/
theorem decode_encode (segment : String) :
    decode_path_segment (encode_path_segment segment) = segment := by
  have hascii : ∀ c ∈ (as_bytes segment).flatMap encode_byte, c.toNat < 128 := by
    intro c hc
    apply (@encoded_chars segment c _).1
    unfold encode_path_segment
    rwa [String.toList_ofList]
  unfold decode_path_segment encode_path_segment
  rw [as_bytes_ascii hascii, decode_encoded]
  unfold from_utf8_lossy
  rw [from_as_bytes]

/-- The tag of a link to a release page is read back, where `/releases/tag/` does not begin any
earlier. -/
theorem tag_of_page {page : String} (tag : String)
    (hfirst : split_once_at RELEASES_TAG.toList (page.toList ++ RELEASES_TAG.toList) =
      some (page.toList, [])) :
    tag_from_release_url (page ++ RELEASES_TAG ++ encode_path_segment tag) = some tag := by
  have hsplit := split_once_at_append (by decide) hfirst (encode_path_segment tag).toList
  have htake : (encode_path_segment tag).toList.takeWhile (fun c => !ends_segment c) =
      (encode_path_segment tag).toList := by
    rw [List.takeWhile_eq_self_iff]
    intro c hc
    simp [(encoded_chars hc).2]
  unfold tag_from_release_url split_once
  rw [String.toList_append, String.toList_append, hsplit]
  simp only [Option.map_some, htake, String.ofList_toList, decode_encode]

/-- `/releases/tag/` stands at the end of the text before the tag, and nowhere before. -/
def TagOnlyLast (page : String) : Prop :=
  ∀ before after, (page ++ RELEASES_TAG).toList = before ++ RELEASES_TAG.toList ++ after →
    after = []

theorem tag_only_last_iff (page : String) :
    TagOnlyLast page ↔ split_once_at RELEASES_TAG.toList (page.toList ++ RELEASES_TAG.toList) =
      some (page.toList, []) := by
  constructor
  · intro h
    have hsome := (split_once_at_isSome_iff RELEASES_TAG.toList
      (page.toList ++ RELEASES_TAG.toList)).mpr ⟨page.toList, [], by simp⟩
    obtain ⟨⟨before, after⟩, hsplit⟩ := Option.isSome_iff_exists.mp hsome
    have heq := split_once_at_eq hsplit
    have hafter : after = [] := h before after (by rw [String.toList_append, heq])
    subst hafter
    rw [List.append_nil] at heq
    rw [hsplit, List.append_cancel_right heq]
  · intro h before after heq
    rw [String.toList_append] at heq
    rw [heq] at h
    have hshort := split_once_at_first (by decide) h
    have hlen := congrArg List.length heq
    simp only [List.length_append] at hlen
    apply List.eq_nil_of_length_eq_zero
    omega

/-- Every tag is read back from the segment it is encoded as, and from the link to its page. -/
theorem release_links_read_back :
    (∀ tag, decode_path_segment (encode_path_segment tag) = tag) ∧
      ∀ web_base repo tag, TagOnlyLast (without_slashes web_base ++ "/" ++ repo) →
        tag_from_release_url (gitea_release_url web_base repo tag) = some tag := by
  refine ⟨decode_encode, ?_⟩
  intro web_base repo tag h
  exact tag_of_page tag ((tag_only_last_iff _).mp h)

theorem release_links_read_back_here :
    tag_from_release_url (gitea_release_url "h//" "r" "a/é %?#") = some "a/é %?#" := by
  apply release_links_read_back.2
  rw [tag_only_last_iff]
  decide +kernel

/-! ## The two documents -/

/-- An element of the releases API. -/
structure ReleaseApi where
  tag_name : String
  html_url : String
  body : Option String
  published_at : Option String
  prerelease : Bool
  draft : Bool
deriving DecidableEq

/-- An entry of the Atom feed; its links by `href`. -/
structure Entry where
  links : List String
  title : Option String
  id : String
  published : Option DateTime
  updated : Option DateTime
deriving DecidableEq

/-- What a request comes to. -/
inductive Reply (α : Type) where
  | failed
  | not_modified
  | refused (status : Nat)
  | fresh (data : α) (etag : Option String)

inductive SourceError where
  | Http
  | Feed
  | Registry (status : Nat) (url : String)
deriving DecidableEq

inductive AuthStyle where
  | Bearer
  | Token
deriving DecidableEq

structure GiteaPreset where
  kind : String
  kind_label : String
  api_repos_base : String
  web_base : String
  auth_style : AuthStyle
  github_api_version : Option String
deriving DecidableEq

structure GiteaReleasesSource where
  id : String
  repo : String
  preset : GiteaPreset
  token : Option String
deriving DecidableEq

namespace GiteaReleasesSource

def github (id repo : String) (token : Option String) : GiteaReleasesSource :=
  ⟨id, repo, ⟨"github", "GitHub", "https://api.github.com/repos", "https://github.com", .Bearer,
    some "2022-11-28"⟩, token⟩

def codeberg (id repo : String) (token : Option String) : GiteaReleasesSource :=
  ⟨id, repo, ⟨"codeberg", "Codeberg", "https://codeberg.org/api/v1/repos", "https://codeberg.org",
    .Token, none⟩, token⟩

def gitea (id host repo : String) (token : Option String) : GiteaReleasesSource :=
  let host := without_slashes host
  ⟨id, repo, ⟨"gitea", "Gitea", host ++ "/api/v1/repos", host, .Token, none⟩, token⟩

def rest_url (source : GiteaReleasesSource) : String :=
  without_slashes source.preset.api_repos_base ++ "/" ++ source.repo ++ "/releases?per_page=30"

def atom_url (source : GiteaReleasesSource) : String :=
  without_slashes source.preset.web_base ++ "/" ++ source.repo ++ "/releases.atom"

end GiteaReleasesSource

def fresh (releases : List Release) (etag : Option String) : FetchOutcome :=
  ⟨false, etag, releases⟩

def not_modified : FetchOutcome := ⟨true, none, []⟩

section
variable (parse_rfc3339 : String → Option DateTime)

/-- Blank notes are none. -/
def api_to_release (r : ReleaseApi) : Release :=
  let release := ((Release.new r.tag_name).with_prerelease r.prerelease).with_url (some r.html_url)
  (release.with_published (r.published_at.bind parse_rfc3339)).with_body
    (r.body.filter (fun b => trim b ≠ ""))

/-- The tag in the entry's first link, else its title, else its id. -/
def entry_tag (entry : Entry) : String :=
  ((entry.links.head?.bind tag_from_release_url).or entry.title).getD entry.id

def entry_to_release (entry : Entry) : Release :=
  ((Release.new (entry_tag entry)).with_url entry.links.head?).with_published
    (entry.published.or entry.updated)

def fetch_rest (source : GiteaReleasesSource) (reply : Reply (List ReleaseApi)) :
    Except SourceError FetchOutcome :=
  match reply with
  | .failed => .error .Http
  | .refused status => .error (.Registry status source.rest_url)
  | .not_modified => .ok not_modified
  | .fresh raw etag =>
    .ok (fresh ((raw.filter (fun r => !r.draft)).map (api_to_release parse_rfc3339)) etag)

/-- The body of a fresh reply may be no feed. -/
def fetch_atom (source : GiteaReleasesSource) (reply : Reply (Option (List Entry))) :
    Except SourceError FetchOutcome :=
  match reply with
  | .failed => .error .Http
  | .refused status => .error (.Registry status source.atom_url)
  | .not_modified => .ok not_modified
  | .fresh none _ => .error .Feed
  | .fresh (some entries) etag => .ok (fresh (entries.map entry_to_release) etag)

/-- REST when a token is set, otherwise the public Atom feed; also when REST auth fails. -/
def fetch (source : GiteaReleasesSource) (rest : Reply (List ReleaseApi))
    (atom : Reply (Option (List Entry))) : Except SourceError FetchOutcome :=
  if source.token.isSome then
    match fetch_rest parse_rfc3339 source rest with
    | .ok outcome => .ok outcome
    | .error (.Registry status url) =>
      if status = 401 ∨ status = 403 then fetch_atom source atom
      else .error (.Registry status url)
    | .error err => .error err
  else fetch_atom source atom

end

end xrelease.gitea_releases
