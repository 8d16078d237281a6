-- The tag list of a container registry (`sources/docker.rs`): the pages, the `Link` header that
-- leads from one to the next, and the fetch that follows it. A text of a header or a URL is a list
-- of characters; what the registry, its token endpoint and Docker Hub answer comes from outside.
import Xrelease.Challenge
import Xrelease.Payloads

namespace xrelease.pagination

open text xrelease.model xrelease.engine xrelease.challenge
open xrelease.webhook_payload (ContainerRegistry REGISTRY_DOCKER_HUB)

/-! ## The source -/

def MAX_TAG_PAGES : Nat := 50

/-- The base URL of a preset, or the one that is given. -/
def registry_url : ContainerRegistry → String
  | .DockerHub => REGISTRY_DOCKER_HUB
  | .Ghcr => "https://ghcr.io"
  | .Quay => "https://quay.io"
  | .EcrPublic => "https://public.ecr.aws"
  | .Custom registry => registry

/-- A container source with the credentials that it has. -/
structure DockerSource extends webhook_payload.DockerSource where
  token : Option (List Char)

namespace DockerSource

/-- The registry without the slashes at its end. -/
def base (source : DockerSource) : List Char :=
  trim_end_matches (· == '/') (registry_url source.registry).toList

def first_url (source : DockerSource) : List Char :=
  source.base ++ "/v2/".toList ++ source.image.toList ++ "/tags/list?n=100".toList

end DockerSource

/-! ## The next page -/

def occurs (needle s : List Char) : Bool := (split_once_at needle s).isSome

def REL_QUOTED : List Char := ['r', 'e', 'l', '=', '"', 'n', 'e', 'x', 't', '"']

def REL_BARE : List Char := ['r', 'e', 'l', '=', 'n', 'e', 'x', 't']

/-- The text mentions the relation in one of two spellings. -/
def mentions_next (part : List Char) : Bool := occurs REL_QUOTED part || occurs REL_BARE part

/-- What is between the first `<` and the next `>`. -/
def bracketed (part : List Char) : Option (List Char) :=
  match split_once_at ['<'] part with
  | none => none
  | some (_, rest) => (split_once_at ['>'] rest).map Prod.fst

/-- What one part of the header names as the next page. -/
def next_of_part (part : List Char) : Option (List Char) :=
  let part := trimmed part
  if mentions_next part then bracketed part else none

def parse_next_link (header : List Char) : Option (List Char) :=
  (split (· == ',') header).findSome? next_of_part

def HTTP : List Char := ['h', 't', 't', 'p', ':', '/', '/']

def HTTPS : List Char := ['h', 't', 't', 'p', 's', ':', '/', '/']

/-- The pagination target against the registry base. -/
def join_registry_url (source : DockerSource) (target : List Char) : List Char :=
  if HTTP.isPrefixOf target || HTTPS.isPrefixOf target then target else source.base ++ target

/-! ## The fetch -/

structure TagsPage where
  etag : Option (List Char)
  link : Option (List Char)
  tags : Option (List String)

/-- The answers to the requests for the `n`-th page: by URL, `If-None-Match` and bearer token. -/
abbrev Registry :=
  Nat → List Char → Option (List Char) → Option (List Char) → Except SourceError RegistryResponse

/-- The answers to the token requests for the `n`-th page. -/
abbrev Tokens := Nat → TokenRequest → Except SourceError TokenResponse

/-- One page. `none` is "not modified". -/
def get_page (source : DockerSource) (registry : Registry) (tokens : Tokens) (n : Nat)
    (url : List Char) (if_none_match : Option (List Char)) :
    Except SourceError (Option TagsPage) :=
  match (send_authenticated (registry n url if_none_match) (tokens n) source.token).1 with
  | .error e => .error e
  | .ok response =>
    if response.status = 304 then .ok none
    else if !is_success response.status then .error (.Registry response.status url)
    else
      match response.body with
      | none => .error .Http
      | some tags => .ok (some ⟨header_string response.etag, header_string response.link, tags⟩)

/-- The next pages, with the tags that they add and the URLs that are asked for them. `left` is how
many may still be followed. -/
def follow (source : DockerSource) (registry : Registry) (tokens : Tokens) :
    Nat → Nat → Option (List Char) → Except SourceError (List String) × List (List Char)
  | _, _, none => (.ok [], [])
  -- the page cap
  | 0, _, some _ => (.ok [], [])
  | left + 1, n, some rel =>
    let page_url := join_registry_url source rel
    match get_page source registry tokens n page_url none with
    | .error e => (.error e, [page_url])
    | .ok none => (.ok [], [page_url])
    | .ok (some page) =>
      let rest := follow source registry tokens left (n + 1) (page.link.bind parse_next_link)
      (rest.1.map (page.tags.getD [] ++ ·), page_url :: rest.2)

/-- An element of Docker Hub's tag list. -/
structure HubTag where
  name : String
  tag_last_pushed : Option String
  last_updated : Option String

section
variable (parse_rfc3339 : String → Option DateTime)

/-- Tag and last push time. -/
def hub_pushed (tag : HubTag) : Option (String × DateTime) :=
  ((tag.tag_last_pushed.or tag.last_updated).bind parse_rfc3339).map (fun pushed =>
    (tag.name, pushed))

/-- The date of a tag; of a name that is there twice, the later one. -/
def date_of (dates : List (String × DateTime)) (id : String) : Option DateTime :=
  (dates.reverse.find? (fun d => d.1 = id)).map Prod.snd

/-- The push dates of Docker Hub; none after a failed lookup. -/
def hub_dates (hub : Option (List HubTag)) (id : String) : Option DateTime :=
  hub.bind (fun tags => date_of (tags.filterMap (hub_pushed parse_rfc3339)) id)

/-- The outcome, and the URLs of the pages that were asked for, in their order. -/
def fetch (source : DockerSource) (registry : Registry) (tokens : Tokens)
    (hub : Option (List HubTag)) (if_none_match : Option (List Char)) :
    Except SourceError FetchOutcome × List (List Char) :=
  match get_page source registry tokens 0 source.first_url if_none_match with
  | .error e => (.error e, [source.first_url])
  | .ok none => (.ok gitea_releases.not_modified, [source.first_url])
  | .ok (some first) =>
    let rest := follow source registry tokens (MAX_TAG_PAGES - 1) 1
      (first.link.bind parse_next_link)
    (rest.1.map (fun more =>
      let tags := first.tags.getD [] ++ more
      let releases := tags.map (source.tag_to_release (hub_dates parse_rfc3339 hub))
      gitea_releases.fresh releases (first.etag.map String.ofList)), source.first_url :: rest.2)

end

/-! ## Link headers -/

/-- A parameter with a value, or a bare one. -/
inductive LinkParam where
  | pair (param : Param)
  | flag (before name after : List Char)

def LinkParam.text : LinkParam → List Char
  | pair param => param.text
  | flag before name after => before ++ name ++ after

def LinkParam.WellFormed : LinkParam → Prop
  | pair param => param.WellFormed
  | flag before name after =>
    (∀ c ∈ before, is_blank c = true) ∧ (name ≠ [] ∧ ∀ c ∈ name, is_token_char c = true) ∧
      ∀ c ∈ after, is_blank c = true

/-- The relation types that the parameter gives, in lower case. -/
def LinkParam.relations : LinkParam → Option (List (List Char))
  | pair param =>
    if param.name.map to_ascii_lowercase = ['r', 'e', 'l'] then
      some ((split is_blank param.value).map (List.map to_ascii_lowercase))
    else none
  | flag _ _ _ => none

/-- A link as it is written. -/
structure Link where
  before : List Char
  target : List Char
  after : List Char
  params : List LinkParam

/-- What comes after the target. -/
def Link.tail (l : Link) : List Char := l.after ++ l.params.flatMap (fun p => ';' :: p.text)

def Link.text (l : Link) : List Char := l.before ++ '<' :: l.target ++ '>' :: l.tail

/-- An `http` or `https` URL, its scheme in any case. -/
def is_absolute (target : List Char) : Bool :=
  HTTP.isPrefixOf (target.map to_ascii_lowercase) ||
    HTTPS.isPrefixOf (target.map to_ascii_lowercase)

/-- A path of the same origin. -/
def is_root_relative (target : List Char) : Bool :=
  target.head? == some '/' && target.tail.head? != some '/'

structure Link.WellFormed (l : Link) : Prop where
  before : ∀ c ∈ l.before, is_blank c = true
  target : ∀ c ∈ l.target, 0x21 ≤ c.toNat ∧ c.toNat ≤ 0x7E ∧ c ≠ '<' ∧ c ≠ '>'
  reference : is_absolute l.target = true ∨ is_root_relative l.target = true
  after : ∀ c ∈ l.after, is_blank c = true
  params : ∀ p ∈ l.params, p.WellFormed

/-- The link's first `rel` parameter has the relation `next` among its types. -/
def Link.is_next (l : Link) : Bool :=
  ((l.params.findSome? LinkParam.relations).getD []).contains ['n', 'e', 'x', 't']

def header_text (links : List Link) : List Char := [','].intercalate (links.map Link.text)

/-- A page that a registry serves; its links by the lines of the `Link` header. -/
structure Page where
  lines : List (List Link)
  tags : Option (List String)

structure Page.WellFormed (page : Page) : Prop where
  links : ∀ links ∈ page.lines, ∀ l ∈ links, l.WellFormed

/-- The target of the first link to a next page. -/
def Page.next (page : Page) : Option (List Char) :=
  (page.lines.flatten.find? Link.is_next).map Link.target

/-- The part of a URL before its path. -/
def origin (url : List Char) : List Char :=
  match split_once_at [':', '/', '/'] url with
  | some (scheme, rest) =>
    scheme ++ [':', '/', '/'] ++ rest.takeWhile (fun c => !(['/', '?', '#'].contains c))
  | none => []

/-- A target as a link of the page at this URL means it. -/
def resolve (url target : List Char) : List Char :=
  if is_absolute target then target else origin url ++ target

/-- The pages that the links lead through, with their URLs, `left` at most. -/
def walk (pages : Nat → Page) : Nat → Nat → List Char → List (List Char × Page)
  | 0, _, _ => []
  | left + 1, n, url =>
    (url, pages n) ::
      match (pages n).next with
      | none => []
      | some target => walk pages left (n + 1) (resolve url target)

/-- The response carries the page. -/
def Carries (response : RegistryResponse) (page : Page) : Prop :=
  is_success response.status = true ∧ response.link = page.lines.map header_text ∧
    response.body = some page.tags

/-- Asked for a page by its URL, the registry serves it, after a token handshake or without. -/
def Serves (source : DockerSource) (registry : Registry) (tokens : Tokens) (pages : Nat → Page)
    (if_none_match : Option (List Char)) : Prop :=
  ∀ n url page, (walk pages MAX_TAG_PAGES 0 source.first_url)[n]? = some (url, page) →
    ∃ response,
      (send_authenticated (registry n url (if n = 0 then if_none_match else none)) (tokens n)
        source.token).1 = .ok response ∧ Carries response page

/-- Whatever registry serves these pages: the fetch asks for the pages that the links lead through,
up to the cap, and for no others, and its releases are their tags in order. -/
def Complete (source : DockerSource) (pages : Nat → Page) : Prop :=
  ∀ parse_rfc3339 registry tokens hub if_none_match,
    Serves source registry tokens pages if_none_match →
      ∃ outcome, (fetch parse_rfc3339 source registry tokens hub if_none_match).1 = .ok outcome ∧
        outcome.not_modified = false ∧
        outcome.releases.map Release.id =
          (walk pages MAX_TAG_PAGES 0 source.first_url).flatMap (fun p => p.2.tags.getD []) ∧
        (fetch parse_rfc3339 source registry tokens hub if_none_match).2 =
          (walk pages MAX_TAG_PAGES 0 source.first_url).map Prod.fst

/-! ## What is heard of a link -/

/-- The link up to the first comma. -/
def Link.head (l : Link) : List Char := l.text.takeWhile (· ≠ ',')

/-- What the commas cut off. -/
def Link.pieces (l : Link) : List (List Char) := (split (· == ',') l.text).drop 1

/-- The target, when it has no comma and the relation is mentioned before the first one; or else
what stands in brackets in a later piece that mentions it, as a quoted value may. -/
def Link.heard (l : Link) : Option (List Char) :=
  if ',' ∉ l.target ∧ mentions_next l.head = true then some l.target
  else l.pieces.findSome? next_of_part

/-- What is heard of the first line of the header, when it is visible. -/
def Page.heard (page : Page) : Option (List Char) :=
  match page.lines with
  | [] => none
  | links :: _ =>
    if (header_text links).all is_visible then links.findSome? Link.heard else none

/-- What is heard of the page, put on the registry's base, is the URL of the next page; and nothing
is heard when there is none. -/
def Followed (source : DockerSource) (url : List Char) (page : Page) : Prop :=
  page.heard.map (join_registry_url source) = page.next.map (resolve url)

instance (source : DockerSource) (url : List Char) (page : Page) :
    Decidable (Followed source url page) :=
  inferInstanceAs (Decidable (_ = _))

/-! ## The header is read link by link -/

theorem occurs_iff (needle s : List Char) : occurs needle s = true ↔ needle <:+: s := by
  unfold occurs
  rw [split_once_at_isSome_iff]
  constructor
  · rintro ⟨before, after, h⟩
    exact ⟨before, after, h.symm⟩
  · rintro ⟨before, after, h⟩
    exact ⟨before, after, h.symm⟩

theorem occurs_trimmed {needle : List Char} (h : ∀ c ∈ needle, is_whitespace c = false)
    (s : List Char) : occurs needle (trimmed s) = occurs needle s := by
  rw [Bool.eq_iff_iff, occurs_iff, occurs_iff]
  exact infix_trim h s

theorem mentions_trimmed (s : List Char) : mentions_next (trimmed s) = mentions_next s := by
  unfold mentions_next
  have hquoted : REL_QUOTED.all (fun c => !is_whitespace c) = true := by decide
  have hbare : REL_BARE.all (fun c => !is_whitespace c) = true := by decide
  rw [occurs_trimmed (by simpa using hquoted), occurs_trimmed (by simpa using hbare)]

theorem bracketed_at {before target : List Char} (hbefore : '<' ∉ before) (htarget : '>' ∉ target)
    (after : List Char) : bracketed (before ++ '<' :: target ++ '>' :: after) = some target := by
  unfold bracketed
  rw [List.append_assoc, List.cons_append, split_once_at_char hbefore]
  simp only [split_once_at_char htarget, Option.map_some]

theorem bracketed_mem {part target : List Char} (h : bracketed part = some target) :
    '>' ∈ part ∧ ∀ c ∈ target, c ∈ part := by
  unfold bracketed at h
  split at h
  · simp at h
  · rename_i front rest hfirst
    obtain ⟨cut, hsecond, rfl⟩ := Option.map_eq_some_iff.mp h
    have hpart := split_once_at_eq hfirst
    have hrest := split_once_at_eq hsecond
    rw [hpart, hrest]
    constructor
    · simp
    · intro c hc
      simp [hc]

theorem mem_of_trimmed {c : Char} {s : List Char} (h : c ∈ trimmed s) : c ∈ s := by
  unfold trimmed trim_end_matches trim_start_matches at h
  exact (List.dropWhile_suffix _).subset ((List.rdropWhile_prefix _ _).subset h)

theorem next_of_part_mem {part target : List Char} (h : next_of_part part = some target) :
    '>' ∈ part ∧ ∀ c ∈ target, c ∈ part := by
  unfold next_of_part at h
  simp only at h
  split at h
  · obtain ⟨hclose, hall⟩ := bracketed_mem h
    exact ⟨mem_of_trimmed hclose, fun c hc => mem_of_trimmed (hall c hc)⟩
  · simp at h

theorem split_head (s : List Char) :
    split (· == ',') s = s.takeWhile (· ≠ ',') :: (split (· == ',') s).drop 1 := by
  obtain ⟨piece, hpiece, hs⟩ := split_eq (· == ',') s
  have hall : ∀ c ∈ piece, decide (c ≠ ',') = true := by
    intro c hc
    have := hpiece c hc
    simpa using this
  rcases hs with ⟨rfl, hsplit⟩ | ⟨sep, rest, rfl, hsep, hsplit⟩
  · rw [hsplit, List.takeWhile_eq_self_iff.mpr hall]
    rfl
  · obtain rfl : sep = ',' := by simpa using hsep
    rw [hsplit, List.takeWhile_append_of_pos hall, List.takeWhile_cons_of_neg (by simp)]
    simp

theorem blank_front {before : List Char} (h : ∀ c ∈ before, is_blank c = true) (s : List Char) :
    trimmed (before ++ s) = trimmed s := by
  unfold trimmed trim_start_matches
  rw [List.dropWhile_append_of_pos (fun c hc => blank_is_whitespace (h c hc))]

/-- The first piece of a link names its target, if the target is in it whole. -/
theorem next_of_head {l : Link} (h : l.WellFormed) :
    next_of_part l.head =
      if ',' ∉ l.target ∧ mentions_next l.head = true then some l.target else none := by
  have hclose : '>' ∉ l.target := fun hc => (h.target _ hc).2.2.2 rfl
  have hbefore : ∀ c ∈ l.before, decide (c ≠ ',') = true := by
    intro c hc
    simpa using (blank_not_delimiter (h.before c hc)).2
  by_cases hcomma : ',' ∈ l.target
  · rw [if_neg (fun hand => hand.1 hcomma)]
    cases hnext : next_of_part l.head with
    | none => rfl
    | some target =>
      -- the first piece ends inside the target
      obtain ⟨front, back, htarget, hfront⟩ := List.eq_append_cons_of_mem hcomma
      have hplain : ∀ c ∈ front, decide (c ≠ ',') = true := by
        intro c hc
        rw [decide_eq_true_eq]
        rintro rfl
        exact hfront hc
      have hshort : l.head = l.before ++ '<' :: front := by
        unfold Link.head Link.text
        rw [htarget, List.append_assoc, List.takeWhile_append_of_pos hbefore, List.cons_append,
          List.takeWhile_cons_of_pos (by decide), List.append_assoc,
          List.takeWhile_append_of_pos hplain, List.cons_append,
          List.takeWhile_cons_of_neg (by decide), List.append_nil]
      have hin := (next_of_part_mem hnext).1
      rw [hshort] at hin
      rcases List.mem_append.mp hin with hin | hin
      · exact absurd (h.before _ hin) (by decide)
      · rcases List.mem_cons.mp hin with hin | hin
        · exact absurd hin (by decide)
        · exact absurd (htarget ▸ List.mem_append_left _ hin) hclose
  · have hhead : l.head = l.before ++ '<' :: l.target ++ '>' :: l.tail.takeWhile (· ≠ ',') := by
      have htarget : ∀ c ∈ l.target, decide (c ≠ ',') = true := by
        intro c hc
        rw [decide_eq_true_eq]
        rintro rfl
        exact hcomma hc
      unfold Link.head Link.text
      rw [List.append_assoc, List.takeWhile_append_of_pos hbefore, List.cons_append,
        List.takeWhile_cons_of_pos (by decide), List.takeWhile_append_of_pos htarget,
        List.takeWhile_cons_of_pos (by decide)]
      simp
    have htrim : trimmed l.head =
        [] ++ '<' :: l.target ++ '>' :: (l.tail.takeWhile (· ≠ ',')).rdropWhile is_whitespace := by
      rw [hhead, List.append_assoc, blank_front h.before]
      unfold trimmed trim_end_matches trim_start_matches
      rw [List.cons_append, List.dropWhile_cons_of_neg (by decide), ← List.cons_append,
        text.rdropWhile_append_cons (by decide)]
      rfl
    unfold next_of_part
    simp only [mentions_trimmed]
    rw [htrim, bracketed_at (List.not_mem_nil) hclose]
    simp [hcomma]

/-- A link is read as what is heard of it. -/
theorem heard_eq {l : Link} (h : l.WellFormed) :
    (split (· == ',') l.text).findSome? next_of_part = l.heard := by
  have hsplit : split (· == ',') l.text = l.head :: l.pieces := split_head l.text
  rw [hsplit, List.findSome?_cons, next_of_head h]
  unfold Link.heard
  by_cases hwhole : ',' ∉ l.target ∧ mentions_next l.head = true
  · rw [if_pos hwhole, if_pos hwhole]
  · rw [if_neg hwhole, if_neg hwhole]

theorem pieces_heard {links : List Link} (h : ∀ l ∈ links, l.WellFormed) :
    ((links.map Link.text).flatMap (split (· == ','))).findSome? next_of_part =
      links.findSome? Link.heard := by
  induction links with
  | nil => rfl
  | cons l links ih =>
    rw [List.map_cons, List.flatMap_cons, List.findSome?_append, heard_eq (h l List.mem_cons_self),
      ih (fun k hk => h k (List.mem_cons_of_mem _ hk)), List.findSome?_cons]
    cases l.heard <;> rfl

theorem parse_header {links : List Link} (h : ∀ l ∈ links, l.WellFormed) :
    parse_next_link (header_text links) = links.findSome? Link.heard := by
  unfold parse_next_link header_text
  cases links with
  | nil => decide
  | cons first links =>
    rw [split_joined (by decide) (by simp)]
    exact pieces_heard h

/-- What the loop reads from a page. -/
theorem page_read {page : Page} (h : page.WellFormed) :
    (header_string (page.lines.map header_text)).bind parse_next_link = page.heard := by
  unfold Page.heard header_string
  cases hlines : page.lines with
  | nil => rfl
  | cons links lines =>
    have hlinks := h.links links (by rw [hlines]; exact List.mem_cons_self)
    rw [List.map_cons, List.head?_cons, Option.filter_some]
    simp only
    split
    · rw [Option.bind_some, parse_header hlinks]
    · rfl

/-! ## The walk -/

/-- The pages after this one. -/
def after (pages : Nat → Page) (left n : Nat) (url : List Char) : List (List Char × Page) :=
  match (pages n).next with
  | none => []
  | some target => walk pages left (n + 1) (resolve url target)

theorem walk_succ (pages : Nat → Page) (left n : Nat) (url : List Char) :
    walk pages (left + 1) n url = (url, pages n) :: after pages left n url := rfl

theorem after_zero (pages : Nat → Page) (n : Nat) (url : List Char) :
    after pages 0 n url = [] := by
  unfold after walk
  split <;> rfl

section
variable {source : DockerSource} {registry : Registry} {tokens : Tokens} {pages : Nat → Page}

/-- A response that carries the page is taken for it. -/
theorem get_page_of_carries {n : Nat} {url : List Char} {if_none_match : Option (List Char)}
    {response : RegistryResponse} {page : Page}
    (hsend : (send_authenticated (registry n url if_none_match) (tokens n) source.token).1 =
      .ok response) (hcarries : Carries response page) :
    get_page source registry tokens n url if_none_match =
      .ok (some ⟨header_string response.etag, header_string (page.lines.map header_text),
        page.tags⟩) := by
  obtain ⟨hstatus, hlink, hbody⟩ := hcarries
  have hmodified : response.status ≠ 304 := by
    unfold is_success at hstatus
    simp only [Bool.and_eq_true, decide_eq_true_eq] at hstatus
    omega
  unfold get_page
  rw [hsend]
  simp only [hmodified, if_false, hstatus, Bool.not_true, Bool.false_eq_true, hbody, hlink]

/-- The pages from the `n`-th on are served where they are on the walk. -/
def ServesFrom (source : DockerSource) (registry : Registry) (tokens : Tokens) (n : Nat)
    (walked : List (List Char × Page)) : Prop :=
  ∀ i url page, walked[i]? = some (url, page) →
    ∃ response, (send_authenticated (registry (n + i) url none) (tokens (n + i))
      source.token).1 = .ok response ∧ Carries response page

theorem ServesFrom.tail {n : Nat} {first : List Char × Page} {walked : List (List Char × Page)}
    (h : ServesFrom source registry tokens n (first :: walked)) :
    ServesFrom source registry tokens (n + 1) walked := by
  intro i url page hi
  have hnext := h (i + 1) url page (by rw [List.getElem?_cons_succ]; exact hi)
  rwa [← Nat.add_assoc, Nat.add_right_comm] at hnext

theorem follow_none (left n : Nat) :
    follow source registry tokens left n none = (.ok [], []) := by
  cases left <;> rfl

/-- A page that is followed: the URL is asked for, its tags come first. -/
theorem follow_page {left n : Nat} {rel : List Char} {page : Page} (hpage : page.WellFormed)
    {response : RegistryResponse}
    (hsend : (send_authenticated (registry n (join_registry_url source rel) none) (tokens n)
      source.token).1 = .ok response) (hcarries : Carries response page) :
    follow source registry tokens (left + 1) n (some rel) =
      let rest := follow source registry tokens left (n + 1) page.heard
      (rest.1.map (page.tags.getD [] ++ ·), join_registry_url source rel :: rest.2) := by
  rw [follow, get_page_of_carries hsend hcarries]
  simp only [page_read hpage]

/-- Where every page is followed, the loop goes along the walk. -/
theorem follow_walk (hpages : ∀ n, (pages n).WellFormed) (left n : Nat) (url : List Char)
    (hserves : ServesFrom source registry tokens (n + 1) (after pages left n url))
    (hfollowed : ∀ p ∈ walk pages left n url, Followed source p.1 p.2) :
    follow source registry tokens left (n + 1) (pages n).heard =
      (.ok ((after pages left n url).flatMap (fun p => p.2.tags.getD [])),
        (after pages left n url).map Prod.fst) := by
  induction left generalizing n url with
  | zero =>
    rw [after_zero]
    cases (pages n).heard <;> rfl
  | succ left ih =>
    have hhere : Followed source url (pages n) := hfollowed (url, pages n) List.mem_cons_self
    unfold Followed at hhere
    cases hnext : (pages n).next with
    | none =>
      rw [hnext, Option.map_none, Option.map_eq_none_iff] at hhere
      have hafter : after pages (left + 1) n url = [] := by
        unfold after
        rw [hnext]
      rw [hhere, hafter]
      rfl
    | some target =>
      rw [hnext, Option.map_some] at hhere
      obtain ⟨rel, hrel, hjoin⟩ := Option.map_eq_some_iff.mp hhere
      have hafter : after pages (left + 1) n url =
          (resolve url target, pages (n + 1)) ::
            after pages left (n + 1) (resolve url target) := by
        unfold after
        rw [hnext]
        rfl
      have hwalk : walk pages (left + 1) n url =
          (url, pages n) :: walk pages left (n + 1) (resolve url target) := by
        rw [walk_succ]
        unfold after
        rw [hnext]
      rw [hafter] at hserves
      obtain ⟨response, hsend, hcarries⟩ := hserves 0 _ _ rfl
      rw [Nat.add_zero, ← hjoin] at hsend
      have hrest := ih (n + 1) (resolve url target) hserves.tail (by
        intro p hp
        apply hfollowed
        rw [hwalk]
        exact List.mem_cons_of_mem _ hp)
      rw [hrel, follow_page (hpages (n + 1)) hsend hcarries, hrest, hafter, hjoin]
      rfl

/-- A registry that serves the pages by their number, whatever it is asked for. -/
def by_number (pages : Nat → Page) : Registry := fun n _ _ _ =>
  .ok ⟨200, [], [], (pages n).lines.map header_text, some (pages n).tags⟩

theorem by_number_serves (source : DockerSource) (tokens : Tokens) (pages : Nat → Page) (n : Nat)
    (url : List Char) (if_none_match : Option (List Char)) :
    ∃ response, (send_authenticated (by_number pages n url if_none_match) (tokens n)
      source.token).1 = .ok response ∧ Carries response (pages n) :=
  ⟨_, rfl, rfl, rfl, rfl⟩

/-- Where the loop asks for the URLs of the walk, every page is followed. -/
theorem followed_of_urls (hpages : ∀ n, (pages n).WellFormed) (left n : Nat) (url : List Char)
    (h : (follow source (by_number pages) tokens left (n + 1) (pages n).heard).2 =
      (after pages left n url).map Prod.fst) :
    ∀ p ∈ walk pages left n url, Followed source p.1 p.2 := by
  induction left generalizing n url with
  | zero => exact fun p hp => absurd hp (List.not_mem_nil)
  | succ left ih =>
    rw [walk_succ]
    cases hheard : (pages n).heard with
    | none =>
      rw [hheard, follow_none] at h
      have hafter : after pages (left + 1) n url = [] := List.map_eq_nil_iff.mp h.symm
      have hnext : (pages n).next = none := by
        unfold after at hafter
        split at hafter
        · assumption
        · exact absurd hafter (List.cons_ne_nil _ _)
      have hlast : after pages left n url = [] := by
        unfold after
        rw [hnext]
      intro p hp
      rw [hlast, List.mem_singleton] at hp
      rw [hp]
      unfold Followed
      rw [hheard, hnext]
      rfl
    | some rel =>
      obtain ⟨response, hsend, hcarries⟩ := by_number_serves source tokens pages (n + 1)
        (join_registry_url source rel) none
      rw [hheard, follow_page (hpages (n + 1)) hsend hcarries] at h
      cases hnext : (pages n).next with
      | none =>
        have hafter : after pages (left + 1) n url = [] := by
          unfold after
          rw [hnext]
        rw [hafter] at h
        exact absurd h (List.cons_ne_nil _ _)
      | some target =>
        have hafter : after pages (left + 1) n url =
            (resolve url target, pages (n + 1)) ::
              after pages left (n + 1) (resolve url target) := by
          unfold after
          rw [hnext]
          rfl
        rw [hafter, List.map_cons, List.cons.injEq] at h
        obtain ⟨hjoin, hrest⟩ := h
        have hlater := ih (n + 1) (resolve url target) hrest
        intro p hp
        rcases List.mem_cons.mp hp with rfl | hp
        · unfold Followed
          rw [hheard, hnext, Option.map_some, Option.map_some, hjoin]
        · apply hlater
          unfold after at hp
          rw [hnext] at hp
          exact hp

end

theorem walk_page {pages : Nat → Page} {left m n : Nat} {url place : List Char} {page : Page}
    (h : (walk pages left m url)[n]? = some (place, page)) : page = pages (m + n) := by
  induction left generalizing m n url with
  | zero => simp [walk] at h
  | succ left ih =>
    rw [walk_succ] at h
    cases n with
    | zero =>
      rw [List.getElem?_cons_zero] at h
      exact (Prod.mk.inj (Option.some.inj h)).2.symm
    | succ n =>
      rw [List.getElem?_cons_succ] at h
      unfold after at h
      split at h
      · simp at h
      · rw [ih h, Nat.add_assoc, Nat.add_comm 1]

/-! ## Every tag once -/

theorem tag_to_release_id (source : DockerSource) (dates : String → Option DateTime)
    (tag : String) : (source.tag_to_release dates tag).id = tag := by
  unfold webhook_payload.DockerSource.tag_to_release
  simp only
  split
  · cases dates _ <;> rfl
  · rfl

theorem fetch_urls {source : DockerSource} {registry : Registry} {tokens : Tokens}
    {if_none_match : Option (List Char)} {first : TagsPage}
    (hfirst : get_page source registry tokens 0 source.first_url if_none_match = .ok (some first))
    (parse_rfc3339 : String → Option DateTime) (hub : Option (List HubTag)) :
    (fetch parse_rfc3339 source registry tokens hub if_none_match).2 =
      source.first_url :: (follow source registry tokens (MAX_TAG_PAGES - 1) 1
        (first.link.bind parse_next_link)).2 := by
  unfold fetch
  rw [hfirst]

/-- What is fetched once the pages are read. -/
theorem fetch_of_pages {source : DockerSource} {registry : Registry} {tokens : Tokens}
    {if_none_match : Option (List Char)} {first : TagsPage} {more : List String}
    {urls : List (List Char)}
    (hfirst : get_page source registry tokens 0 source.first_url if_none_match = .ok (some first))
    (hrest : follow source registry tokens (MAX_TAG_PAGES - 1) 1
      (first.link.bind parse_next_link) = (.ok more, urls))
    (parse_rfc3339 : String → Option DateTime) (hub : Option (List HubTag)) :
    ∃ outcome, fetch parse_rfc3339 source registry tokens hub if_none_match =
        (.ok outcome, source.first_url :: urls) ∧ outcome.not_modified = false ∧
      outcome.releases.map Release.id = first.tags.getD [] ++ more := by
  have hids : ∀ tags : List String,
      (tags.map (source.tag_to_release (hub_dates parse_rfc3339 hub))).map Release.id = tags := by
    intro tags
    rw [List.map_map]
    exact (List.map_congr_left (fun tag _ => tag_to_release_id source _ tag)).trans
      (List.map_id tags)
  unfold fetch
  rw [hfirst]
  simp only [hrest, Except.map]
  exact ⟨_, rfl, rfl, hids _⟩

section
variable {source : DockerSource} {pages : Nat → Page}

theorem walk_first : walk pages MAX_TAG_PAGES 0 source.first_url =
    (source.first_url, pages 0) :: after pages (MAX_TAG_PAGES - 1) 0 source.first_url := rfl

theorem followed_of_complete (hpages : ∀ n, (pages n).WellFormed) (h : Complete source pages) :
    ∀ p ∈ walk pages (MAX_TAG_PAGES - 1) 0 source.first_url, Followed source p.1 p.2 := by
  let tokens : Tokens := fun _ _ => .error .Http
  have hserves : Serves source (by_number pages) tokens pages none := by
    intro n url page hn
    rw [walk_page hn, Nat.zero_add]
    exact by_number_serves source tokens pages n url _
  obtain ⟨-, -, -, -, hurls⟩ := h (fun _ => none) _ _ none none hserves
  obtain ⟨response, hsend, hcarries⟩ := by_number_serves source tokens pages 0
    source.first_url none
  rw [fetch_urls (get_page_of_carries hsend hcarries), walk_first, List.map_cons,
    List.cons.injEq, page_read (hpages 0)] at hurls
  exact followed_of_urls hpages (MAX_TAG_PAGES - 1) 0 source.first_url hurls.2

theorem complete_of_followed (hpages : ∀ n, (pages n).WellFormed)
    (h : ∀ p ∈ walk pages (MAX_TAG_PAGES - 1) 0 source.first_url, Followed source p.1 p.2) :
    Complete source pages := by
  intro parse_rfc3339 registry tokens hub if_none_match hserves
  unfold Serves at hserves
  rw [walk_first] at hserves ⊢
  obtain ⟨response, hsend, hcarries⟩ := hserves 0 _ _ rfl
  rw [if_pos rfl] at hsend
  have hfirst := get_page_of_carries hsend hcarries
  have hlater : ServesFrom source registry tokens 1
      (after pages (MAX_TAG_PAGES - 1) 0 source.first_url) := by
    intro i url page hi
    obtain ⟨answer, hanswer, hpage⟩ := hserves (i + 1) url page hi
    rw [if_neg (Nat.succ_ne_zero i), Nat.add_comm] at hanswer
    exact ⟨answer, hanswer, hpage⟩
  have hrest := follow_walk hpages (MAX_TAG_PAGES - 1) 0 source.first_url hlater h
  rw [← page_read (hpages 0)] at hrest
  obtain ⟨outcome, hfetch, hmodified, hids⟩ := fetch_of_pages hfirst hrest parse_rfc3339 hub
  refine ⟨outcome, ?_, hmodified, hids, ?_⟩
  · rw [hfetch]
  · rw [hfetch]
    rfl

/-- The fetch asks for exactly the pages that the links lead through, up to the cap, and returns
their tags in order, if and only if the next page is heard right on each page but the last of the
cap. -/
theorem pagination_is_complete_iff (hpages : ∀ n, (pages n).WellFormed) :
    Complete source pages ↔
      ∀ p ∈ walk pages (MAX_TAG_PAGES - 1) 0 source.first_url, Followed source p.1 p.2 :=
  ⟨followed_of_complete hpages, complete_of_followed hpages⟩

end

/-- `<target>; rel="next"`. -/
def next_link (target : List Char) : Link :=
  ⟨[], target, [], [.pair ⟨[' '], ['r', 'e', 'l'], [], [], ['n', 'e', 'x', 't'], true, []⟩]⟩

theorem next_link_wellFormed {target : List Char}
    (htarget : ∀ c ∈ target, 0x21 ≤ c.toNat ∧ c.toNat ≤ 0x7E ∧ c ≠ '<' ∧ c ≠ '>')
    (hreference : is_absolute target = true ∨ is_root_relative target = true) :
    (next_link target).WellFormed where
  before := by simp [next_link]
  target := htarget
  reference := hreference
  after := by simp [next_link]
  params := by
    intro p hp
    obtain rfl : p = _ := by simpa [next_link] using hp
    exact ⟨List.all_eq_true.mp (by decide), ⟨by simp, List.all_eq_true.mp (by decide)⟩, by simp,
      by simp, fun _ => by simp [well_quoted], by simp, by simp⟩

/-- Two pages, the first with a link to the second. -/
def two_pages (target : List Char) : Nat → Page
  | 0 => ⟨[[next_link target]], some ["1"]⟩
  | _ => ⟨[], some ["2"]⟩

theorem two_pages_wellFormed {target : List Char} (h : (next_link target).WellFormed) (n : Nat) :
    (two_pages target n).WellFormed := by
  cases n with
  | zero =>
    refine ⟨fun links hlinks l hl => ?_⟩
    obtain rfl := List.mem_singleton.mp hlinks
    obtain rfl := List.mem_singleton.mp hl
    exact h
  | succ n => exact ⟨fun links hlinks => absurd hlinks List.not_mem_nil⟩

/-- An image of a registry on its own host. -/
def app : DockerSource := ⟨⟨.Custom "http://r", "a"⟩, none⟩

theorem pagination_is_complete_here : Complete app (two_pages "/b".toList) :=
  (pagination_is_complete_iff (two_pages_wellFormed (next_link_wellFormed (by simp)
    (Or.inr rfl)))).mpr (by decide)

/-- A comma in the target of the next page loses that page. -/
theorem a_comma_loses_a_page :
    (∀ n, (two_pages "/b,c".toList n).WellFormed) ∧ ¬Complete app (two_pages "/b,c".toList) := by
  have hpages := two_pages_wellFormed (next_link_wellFormed
    (show ∀ c ∈ "/b,c".toList, 0x21 ≤ c.toNat ∧ c.toNat ≤ 0x7E ∧ c ≠ '<' ∧ c ≠ '>' by simp)
    (Or.inr rfl))
  exact ⟨hpages, fun h => absurd (followed_of_complete hpages h) (by decide)⟩

end xrelease.pagination
