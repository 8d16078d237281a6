-- A release as every source hands it on (`model.rs`): its identity, its tag, the version read
-- out of the tag, the fingerprint of what may change in it, and which of two is the newer.
import Mathlib.Data.List.Sort
import Xrelease.Text

namespace xrelease.model

open text

/-- A moment, in microseconds; the database keeps no finer. -/
abbrev DateTime := Int

/-! ## Semantic versions -/

/-- `semver::Version`; `pre` and `build` without their leading mark. -/
structure Version where
  major : Nat
  minor : Nat
  patch : Nat
  pre : List Char
  build : List Char
deriving DecidableEq

/-- A number without a leading zero that fits 64 bits, and the text after it. -/
def numeric_identifier (s : List Char) : Option (Nat × List Char) :=
  let digits := s.takeWhile is_ascii_digit
  if digits.length > 1 ∧ digits.head? = some '0' then none
  else (parse_u64 digits).map (fun n => (n, s.dropWhile is_ascii_digit))

def is_identifier_char (c : Char) : Bool := is_ascii_alphanumeric c || c == '-' || c == '.'

/-- The identifiers after `-` or `+`: none empty and, where `strict`, no number with a leading
zero. -/
def identifiers_ok (strict : Bool) (s : List Char) : Bool :=
  (split (· == '.') s).all fun seg =>
    seg ≠ [] &&
      !(strict && decide (seg.length > 1) && seg.all is_ascii_digit && seg.head? == some '0')

def identifier_part (mark : Char) (strict : Bool) (s : List Char) :
    Option (List Char × List Char) :=
  match s with
  | [] => some ([], [])
  | c :: rest =>
    if c = mark then
      let ids := rest.takeWhile is_identifier_char
      if identifiers_ok strict ids then some (ids, rest.dropWhile is_identifier_char) else none
    else some ([], s)

def expect_dot : List Char → Option (List Char)
  | '.' :: rest => some rest
  | _ => none

/-- `semver::Version::parse`. -/
def parse_semver (s : List Char) : Option Version := do
  let (major, s) ← numeric_identifier s
  let s ← expect_dot s
  let (minor, s) ← numeric_identifier s
  let s ← expect_dot s
  let (patch, s) ← numeric_identifier s
  let (pre, s) ← identifier_part '-' true s
  let (build, s) ← identifier_part '+' false s
  if s = [] then some ⟨major, minor, patch, pre, build⟩ else none

/-- Two pre-release identifiers: numbers below words, numbers by value. -/
def compare_pre_segment (a b : List Char) : Ordering :=
  match a.all is_ascii_digit, b.all is_ascii_digit with
  | false, true => .gt
  | true, false => .lt
  | false, false => compare_chars a b
  | true, true => (compare a.length b.length).then (compare_chars a b)

/-- Two build identifiers; a number with more leading zeros comes after the same number. -/
def compare_build_segment (a b : List Char) : Ordering :=
  match a.all is_ascii_digit, b.all is_ascii_digit with
  | false, true => .gt
  | true, false => .lt
  | false, false => compare_chars a b
  | true, true =>
    let za := trim_start_matches (· == '0') a
    let zb := trim_start_matches (· == '0') b
    ((compare za.length zb.length).then (compare_chars za zb)).then (compare a.length b.length)

/-- Segment by segment; the longer list is the greater when the shorter one ends first. -/
def compare_segments (cmp : List Char → List Char → Ordering) :
    List (List Char) → List (List Char) → Ordering
  | [], [] => .eq
  | [], _ :: _ => .lt
  | _ :: _, [] => .gt
  | a :: as, b :: bs => (cmp a b).then (compare_segments cmp as bs)

/-- A version without a pre-release part is above every one with it. -/
def compare_pre (a b : List Char) : Ordering :=
  match a, b with
  | [], [] => .eq
  | [], _ :: _ => .gt
  | _ :: _, [] => .lt
  | _ :: _, _ :: _ =>
    compare_segments compare_pre_segment (split (· == '.') a) (split (· == '.') b)

def compare_build (a b : List Char) : Ordering :=
  compare_segments compare_build_segment (split (· == '.') a) (split (· == '.') b)

/-- `Ord` of `semver::Version`. -/
def compare_version (a b : Version) : Ordering :=
  ((((compare a.major b.major).then (compare a.minor b.minor)).then
    (compare a.patch b.patch)).then (compare_pre a.pre b.pre)).then (compare_build a.build b.build)

/-- `Display` of `semver::Version`. -/
def version_text (v : Version) : String :=
  s!"{v.major}.{v.minor}.{v.patch}"
    ++ (if v.pre = [] then "" else "-" ++ String.ofList v.pre)
    ++ (if v.build = [] then "" else "+" ++ String.ofList v.build)

/-! ## Reading a tag -/

def core_of (tag : List Char) : List Char :=
  trim_start_matches (fun c => c == 'v' || c == 'V') (trimmed tag)

/-- Every dot-separated number of a tag's core, or nothing when one part is not a number. -/
def numeric_parts (tag : List Char) : Option (List Nat) :=
  let core := (core_of tag).takeWhile (fun c => c != '-' && c != '+')
  let parts := split (· == '.') core
  if parts.all (fun p => p ≠ [] && p.all is_ascii_digit) then
    let nums := parts.filterMap parse_u64
    if nums.length = parts.length then some nums else none
  else none

/-- Pad two-component numeric versions to three. -/
def lenient_parse (s : List Char) : Option Version :=
  match numeric_parts s with
  | none => none
  | some nums =>
    let n := nums ++ List.replicate (3 - nums.length) 0
    parse_semver s!"{n.getD 0 0}.{n.getD 1 0}.{n.getD 2 0}".toList

/-- Best-effort parse of a tag: strict first, then padded. -/
def parse_version (tag : String) : Option Version :=
  let trimmed := core_of tag.toList
  (parse_semver trimmed).orElse (fun _ => lenient_parse trimmed)

def MARKERS : List String :=
  ["alpha", "beta", "-rc", ".rc", "snapshot", "nightly", "preview", "canary", "-dev"]

def is_prerelease (tag : String) (version : Option Version) : Bool :=
  version.any (fun v => v.pre ≠ []) || MARKERS.any (fun m => contains m (lower tag))

/-! ## Releases -/

structure Release where
  /-- What the store goes by. -/
  id : String
  /-- What a person reads. -/
  raw_tag : String
  version : Option Version
  url : Option String
  published_at : Option DateTime
  prerelease : Bool
  body : Option String
deriving DecidableEq

namespace Release

def new (id : String) : Release where
  id := id
  raw_tag := id
  version := parse_version id
  url := none
  published_at := none
  prerelease := is_prerelease id (parse_version id)
  body := none

/-- Another tag to read; the identity stays. -/
def display (r : Release) (tag : String) : Release :=
  { r with
    version := parse_version tag, prerelease := is_prerelease tag (parse_version tag)
    raw_tag := tag }

def with_url (r : Release) (url : Option String) : Release := { r with url := url }

def with_published (r : Release) (at_ : Option DateTime) : Release := { r with published_at := at_ }

def with_body (r : Release) (body : Option String) : Release := { r with body := body }

def with_prerelease (r : Release) (prerelease : Bool) : Release :=
  { r with prerelease := prerelease }

end Release

/-! ## The fingerprint -/

structure SipState where
  v0 : UInt64
  v1 : UInt64
  v2 : UInt64
  v3 : UInt64

def rotl (x : UInt64) (n : UInt64) : UInt64 := (x <<< n) ||| (x >>> (64 - n))

def sip_round (s : SipState) : SipState :=
  let v0 := s.v0 + s.v1
  let v1 := rotl s.v1 13 ^^^ v0
  let v0 := rotl v0 32
  let v2 := s.v2 + s.v3
  let v3 := rotl s.v3 16 ^^^ v2
  let v0 := v0 + v3
  let v3 := rotl v3 21 ^^^ v0
  let v2 := v2 + v1
  let v1 := rotl v1 17 ^^^ v2
  let v2 := rotl v2 32
  ⟨v0, v1, v2, v3⟩

/-- Eight bytes, the first one lowest. -/
def word (bytes : List UInt8) : UInt64 :=
  bytes.foldr (fun b n => (n <<< 8) ||| b.toUInt64) 0

def sip_block (s : SipState) (m : UInt64) : SipState :=
  let s := sip_round { s with v3 := s.v3 ^^^ m }
  { s with v0 := s.v0 ^^^ m }

/-- All whole words; what is left is shorter than one. `fuel` bounds the words. -/
def sip_words : Nat → SipState → List UInt8 → SipState × List UInt8
  | 0, s, bytes => (s, bytes)
  | fuel + 1, s, bytes =>
    if bytes.length < 8 then (s, bytes)
    else sip_words fuel (sip_block s (word (bytes.take 8))) (bytes.drop 8)

/-- `DefaultHasher`: SipHash-1-3 with zero keys. -/
def sip13 (bytes : List UInt8) : UInt64 :=
  let (s, rest) := sip_words bytes.length
    ⟨0x736f6d6570736575, 0x646f72616e646f6d, 0x6c7967656e657261, 0x7465646279746573⟩ bytes
  let s := sip_block s ((bytes.length.toUInt64 <<< 56) ||| word rest)
  let s := sip_round (sip_round (sip_round { s with v2 := s.v2 ^^^ 0xff }))
  s.v0 ^^^ s.v1 ^^^ s.v2 ^^^ s.v3

/-- What `str::hash` feeds the hasher: the bytes and a closing `0xff`. -/
def str_bytes (s : String) : List UInt8 := s.toUTF8.data.toList ++ [0xff]

/-- Fingerprint of what may change in a release: body and URL. -/
def Release.content_fingerprint (r : Release) : String :=
  hex16 (sip13 (str_bytes (r.body.getD "") ++ str_bytes (r.url.getD ""))).toNat

/-! ## The newest -/

def compare_nats : List Nat → List Nat → Ordering
  | [], [] => .eq
  | [], _ :: _ => .lt
  | _ :: _, [] => .gt
  | a :: as, b :: bs => (compare a b).then (compare_nats as bs)

/-- By date, a dated release above an undated one, two undated ones by tag. -/
def compare_published (a b : Release) : Ordering :=
  match a.published_at, b.published_at with
  | some pa, some pb => compare pa pb
  | some _, none => .gt
  | none, some _ => .lt
  | none, none => compare_str a.raw_tag b.raw_tag

def compare_releases (a b : Release) : Ordering :=
  match a.version, b.version with
  | some va, some vb =>
    if compare_version va vb ≠ .eq then compare_version va vb
    else
      match numeric_parts a.raw_tag.toList, numeric_parts b.raw_tag.toList with
      | some na, some nb =>
        if compare_nats na nb ≠ .eq then compare_nats na nb else compare_published a b
      | _, _ => compare_published a b
  | some _, none => .gt
  | none, some _ => .lt
  | none, none => compare_published a b

/-- `Iterator::max_by`: of equals, the last. -/
def pick_latest : List Release → Option Release
  | [] => none
  | r :: rest =>
    some (rest.foldl (fun best x => if compare_releases best x = .gt then best else x) r)

/-- The order in which a poll delivers: by date, then by version. -/
def delivery_order (a b : Release) : Ordering :=
  (compare_option compare a.published_at b.published_at).then
    (compare_option compare_version a.version b.version)

/-- `sort_by`: stable, smallest first. -/
def sort_for_delivery (l : List Release) : List Release :=
  l.insertionSort (fun a b => delivery_order a b ≠ .gt)

theorem mem_sort_for_delivery (l : List Release) (r : Release) :
    r ∈ sort_for_delivery l ↔ r ∈ l := List.mem_insertionSort _

end xrelease.model
