-- The templates of webhooks and brokers (`notify/payload.rs`): what becomes of the placeholders of
-- a text, and when a template that is JSON renders to JSON that says what it means. Texts are
-- lists of characters.
import Xrelease.Literals
import Xrelease.Places
import Xrelease.Store

namespace xrelease.payload

open text json xrelease.store

/-! ## Rendering -/

/-- Canonical, serialisable view of an `Event`. -/
structure EventPayload where
  source_id : String
  source_kind : String
  kind : String
  title : String
  body : String
  url : Option String
  tag : Option String
deriving DecidableEq

def EventPayload.from_event (event : Event) : EventPayload where
  source_id := event.source_id
  source_kind := event.source_kind
  kind := event.source_kind
  title := event.title
  body := event.body
  url := event.url
  tag := event.routing_tag

def field_value (key : List Char) (event : Event) : List Char :=
  match String.ofList key with
  | "source_id" => event.source_id.toList
  | "source_kind" | "kind" => event.source_kind.toList
  | "title" => event.title.toList
  | "body" => event.body.toList
  | "url" => (event.url.getD "").toList
  | "tag" => (event.routing_tag.getD "").toList
  | _ => []

def OPEN : List Char := ['\x7b', '\x7b']

def CLOSE : List Char := ['\x7d', '\x7d']

theorem rest_shorter {s before after key rest : List Char}
    (hopen : split_once_at OPEN s = some (before, after))
    (hclose : split_once_at CLOSE after = some (key, rest)) : rest.length < s.length := by
  rw [split_once_at_eq hopen, split_once_at_eq hclose]
  simp only [List.length_append, OPEN, List.length_cons]
  omega

/-- Substitute the placeholders of `template` from an `Event`. -/
def render_template (template : List Char) (event : Event) : List Char :=
  match _ : split_once_at OPEN template with
  | none => template
  | some (before, after) =>
    match _ : split_once_at CLOSE after with
    | none => before ++ (OPEN ++ after)
    | some (key, rest) =>
      before ++ (field_value (trimmed key) event ++ render_template rest event)
termination_by template.length
decreasing_by exact rest_shorter ‹_› ‹_›

/-- Render `template` when set and non-blank; otherwise run `fallback`. -/
def render_template_or (template : Option (List Char)) (event : Event)
    (fallback : Event → List Char) : List Char :=
  match (template.map trimmed).filter (· ≠ []) with
  | some template => render_template template event
  | none => fallback event

/-- Optional template, else canonical JSON, which `to_json` writes. -/
def render_body_or_json (to_json : EventPayload → List Char) (template : Option (List Char))
    (event : Event) : List Char :=
  render_template_or template event (fun event => to_json (EventPayload.from_event event))

/-! ## Placeholders -/

/-- What a scan for placeholders finds. -/
inductive Mark where
  | char (c : Char)
  | hole (key : List Char)
deriving DecidableEq

def Mark.text : Mark → List Char
  | char c => [c]
  | hole key => OPEN ++ key ++ CLOSE

def Mark.rendered (event : Event) : Mark → List Char
  | char c => [c]
  | hole key => field_value (trimmed key) event

/-- The placeholders of a text, and the characters between them. -/
def scan (s : List Char) : List Mark :=
  match _ : split_once_at OPEN s with
  | none => s.map Mark.char
  | some (before, after) =>
    match _ : split_once_at CLOSE after with
    | none => s.map Mark.char
    | some (key, rest) => before.map Mark.char ++ .hole key :: scan rest
termination_by s.length
decreasing_by exact rest_shorter ‹_› ‹_›

theorem flatMap_char {β : Type} (f : Char → List β) (g : Mark → List β)
    (h : ∀ c, g (.char c) = f c) (s : List Char) : (s.map Mark.char).flatMap g = s.flatMap f := by
  rw [List.flatMap_map]
  exact List.flatMap_congr (fun c _ => h c)

theorem rendered_chars (event : Event) (s : List Char) :
    (s.map Mark.char).flatMap (Mark.rendered event) = s := by
  rw [flatMap_char (fun c => [c]) _ (fun _ => rfl), List.flatMap_singleton']

theorem scan_text {s : List Char} (hopen : split_once_at OPEN s = none) :
    scan s = s.map Mark.char := by
  rw [scan]
  split
  · rfl
  · rename_i hsome
    rw [hopen] at hsome
    cases hsome

theorem scan_open {s before after : List Char}
    (hopen : split_once_at OPEN s = some (before, after))
    (hclose : split_once_at CLOSE after = none) : scan s = s.map Mark.char := by
  rw [scan]
  split
  · rfl
  · rename_i hsome
    obtain ⟨rfl, rfl⟩ := Prod.mk.inj (Option.some.inj (hopen.symm.trans hsome))
    split
    · rfl
    · rename_i hkey
      rw [hclose] at hkey
      cases hkey

theorem scan_hole {s before after key rest : List Char}
    (hopen : split_once_at OPEN s = some (before, after))
    (hclose : split_once_at CLOSE after = some (key, rest)) :
    scan s = before.map Mark.char ++ .hole key :: scan rest := by
  rw [scan]
  split
  · rename_i hnone
    rw [hopen] at hnone
    cases hnone
  · rename_i hsome
    obtain ⟨rfl, rfl⟩ := Prod.mk.inj (Option.some.inj (hopen.symm.trans hsome))
    split
    · rename_i hnone
      rw [hclose] at hnone
      cases hnone
    · rename_i hkey
      obtain ⟨rfl, rfl⟩ := Prod.mk.inj (Option.some.inj (hclose.symm.trans hkey))
      rfl

/-- Rendering replaces what the scan finds, and nothing else. -/
theorem render_scan (event : Event) (s : List Char) :
    render_template s event = (scan s).flatMap (Mark.rendered event) := by
  fun_induction render_template s event with
  | case1 s hopen => rw [scan_text hopen, rendered_chars]
  | case2 s before after hopen hclose =>
    rw [scan_open hopen hclose, rendered_chars, split_once_at_eq hopen, List.append_assoc]
  | case3 s before after hopen key rest hclose ih =>
    rw [scan_hole hopen hclose, List.flatMap_append, rendered_chars, List.flatMap_cons, ih]
    rfl

/-! ## Templates that are JSON -/

/-- Part of a literal of a template: a character as it is spelled, or a placeholder. -/
inductive Piece where
  | written (w : Written)
  | hole (key : List Written)

/-- The text between the braces of a placeholder. -/
def key_text (key : List Written) : List Char := key.flatMap Written.raw

def Piece.marks : Piece → List Mark
  | written w => w.raw.map Mark.char
  | hole key => [.hole (key_text key)]

/-- A character outside of literals, or a literal. -/
inductive Item where
  | out (c : Char)
  | lit (pieces : List Piece)

def Item.marks : Item → List Mark
  | out c => [.char c]
  | lit pieces => .char '"' :: (pieces.flatMap Piece.marks ++ [.char '"'])

def Item.kind : Item → Kind
  | out c => .sym c
  | lit _ => .lit

def Item.literal : Item → Option (List Piece)
  | out _ => none
  | lit pieces => some pieces

def text_of (items : List Item) : List Char := (items.flatMap Item.marks).flatMap Mark.text

/-- A template that is JSON and has placeholders inside its literals only. -/
structure JsonTemplate where
  lead : List Char
  items : List Item
  trail : List Char
  blank_lead : ∀ c ∈ lead, is_ws c = true
  blank_trail : ∀ c ∈ trail, is_ws c = true
  outside_literals : ∀ c, Item.out c ∈ items → outside c = true
  value : Value (items.map Item.kind)
  placeholders : scan (text_of items) = items.flatMap Item.marks

def JsonTemplate.text (t : JsonTemplate) : List Char := t.lead ++ text_of t.items ++ t.trail

def JsonTemplate.literals (t : JsonTemplate) : List (List Piece) := t.items.filterMap Item.literal

/-- A literal with its placeholders filled in. -/
def Piece.cells (fill : List Written → List Cell) : Piece → List Cell
  | written w => [.written w]
  | hole key => fill key

def cells (fill : List Written → List Cell) (pieces : List Piece) : List Cell :=
  pieces.flatMap (Piece.cells fill)

/-- The value of the event's field, as it is. -/
def from_event (event : Event) (key : List Written) : List Cell :=
  (field_value (trimmed (key_text key)) event).map Cell.value

/-- The placeholder itself. -/
def as_written (key : List Written) : List Cell :=
  [.written (.plain '\x7b' (by decide)), .written (.plain '\x7b' (by decide))] ++
    key.map Cell.written ++
      [.written (.plain '\x7d' (by decide)), .written (.plain '\x7d' (by decide))]

/-- `rendered` is JSON of the template's shape, and each literal says what the template says there
with the event's values for its placeholders. -/
def StaysJson (t : JsonTemplate) (event : Event) (rendered : List Char) : Prop :=
  ∃ tokens : List Token, Lexes rendered tokens ∧ Value (tokens.map Token.kind) ∧
    tokens.map Token.kind = t.items.map Item.kind ∧
      tokens.filterMap Token.units =
        t.literals.map (fun pieces => meant (cells (from_event event) pieces))

/-! ## Texts of filled literals -/

def Item.spelled (fill : List Written → List Cell) : Item → List Char
  | out c => [c]
  | lit pieces => '"' :: (raw (cells fill pieces) ++ ['"'])

def Item.token (fill : List Written → List Cell) : Item → Token
  | out c => .sym c
  | lit pieces => .lit (meant (cells fill pieces))

theorem cells_cons (fill : List Written → List Cell) (piece : Piece) (pieces : List Piece) :
    cells fill (piece :: pieces) = piece.cells fill ++ cells fill pieces := List.flatMap_cons

variable {fill : List Written → List Cell}

/-- What a rendering of the marks does to a literal's placeholders, it does to the literal. -/
theorem spelled_of_marks {render : Mark → List Char} (hchar : ∀ c, render (.char c) = [c])
    (hhole : ∀ key, render (.hole (key_text key)) =
      raw (fill key)) (item : Item) : item.marks.flatMap render = item.spelled fill := by
  have hpieces : ∀ pieces : List Piece,
      (pieces.flatMap Piece.marks).flatMap render = raw (cells fill pieces) := by
    intro pieces
    induction pieces with
    | nil => rfl
    | cons piece pieces ih =>
      rw [List.flatMap_cons, List.flatMap_append, ih, cells_cons]
      unfold raw
      rw [List.flatMap_append]
      congr 1
      cases piece with
      | written w =>
        unfold Piece.marks
        rw [flatMap_char (fun c => [c]) _ hchar, List.flatMap_singleton']
        simp [Piece.cells, Cell.raw]
      | hole key =>
        unfold Piece.marks
        rw [List.flatMap_singleton, hhole]
        rfl
  cases item with
  | out c =>
    unfold Item.marks
    rw [List.flatMap_singleton, hchar]
    rfl
  | lit pieces =>
    unfold Item.marks
    rw [List.flatMap_cons, List.flatMap_append, hpieces, List.flatMap_singleton, hchar]
    rfl

theorem rendered_items (event : Event) (items : List Item) :
    (items.flatMap Item.marks).flatMap (Mark.rendered event) =
      items.flatMap (Item.spelled (from_event event)) := by
  rw [List.flatMap_assoc]
  refine List.flatMap_congr (fun item _ => spelled_of_marks (fun c => rfl) (fun key => ?_) item)
  unfold Mark.rendered raw from_event
  rw [List.flatMap_map]
  exact (List.flatMap_singleton' _).symm

theorem text_items (items : List Item) :
    text_of items = items.flatMap (Item.spelled as_written) := by
  unfold text_of
  rw [List.flatMap_assoc]
  refine List.flatMap_congr (fun item _ => spelled_of_marks (fun c => rfl) (fun key => ?_) item)
  unfold Mark.text raw as_written key_text
  have hkey : (key.map Cell.written).flatMap Cell.raw = key.flatMap Written.raw := by
    rw [List.flatMap_map]
    rfl
  rw [List.flatMap_append, List.flatMap_append, hkey]
  rfl

theorem outside_not_quote {c : Char} (h : outside c = true) : c ≠ '"' := by
  rintro rfl
  exact absurd h (by decide)

theorem outside_not_backslash {c : Char} (h : outside c = true) : '\\' ≠ c := by
  rintro rfl
  exact absurd h (by decide)

def Outside (items : List Item) : Prop := ∀ c, Item.out c ∈ items → outside c = true

theorem outside_tail {item : Item} {items : List Item} (h : Outside (item :: items)) :
    Outside items :=
  fun c hc => h c (List.mem_cons_of_mem _ hc)

/-- After a literal no backslash stands before the next one. -/
theorem quiet_items {items : List Item} (h : Outside items) :
    Quiet (items.flatMap (Item.spelled fill)) := by
  induction items with
  | nil => exact ⟨[], [], rfl, List.not_mem_nil, Or.inl rfl⟩
  | cons item items ih =>
    rw [List.flatMap_cons]
    cases item with
    | out c =>
      obtain ⟨out, more, htail, hout, hmore⟩ := ih (outside_tail h)
      refine ⟨c :: out, more, by rw [htail]; rfl, ?_, hmore⟩
      rw [List.mem_cons, not_or]
      exact ⟨outside_not_backslash (h c List.mem_cons_self), hout⟩
    | lit pieces => exact ⟨[], _, rfl, List.not_mem_nil, Or.inr ⟨_, rfl⟩⟩

theorem spelled_lit (fill : List Written → List Cell) (pieces : List Piece) (tail : List Char) :
    Item.spelled fill (.lit pieces) ++ tail =
      '"' :: (raw (cells fill pieces) ++ '"' :: tail) := by
  unfold Item.spelled
  rw [List.cons_append, List.append_assoc]
  rfl

/-! ## When a filled template is JSON -/

/-- What every literal of the items comes to. -/
def Harmless (fill : List Written → List Cell) (items : List Item) : Prop :=
  ∀ pieces, Item.lit pieces ∈ items → harmless (cells fill pieces) = true

theorem lexes_of_harmless {items : List Item} (hout : Outside items) (h : Harmless fill items) :
    Lexes (items.flatMap (Item.spelled fill)) (items.map (Item.token fill)) := by
  induction items with
  | nil => exact Lexes.done
  | cons item items ih =>
    have hrest := ih (outside_tail hout) (fun pieces hp => h pieces (List.mem_cons_of_mem _ hp))
    rw [List.flatMap_cons]
    cases item with
    | out c => exact Lexes.sym (hout c List.mem_cons_self) hrest
    | lit pieces =>
      rw [spelled_lit]
      exact Lexes.lit (reads_of_harmless _ (h pieces List.mem_cons_self)) hrest

/-- A text whose literals say what is meant was filled with harmless text. -/
theorem harmless_of_lexes {items : List Item} {tokens : List Token} (hout : Outside items)
    (hlexes : Lexes (items.flatMap (Item.spelled fill)) tokens)
    (hmeant : tokens.filterMap Token.units =
      (items.filterMap Item.literal).map (fun pieces => meant (cells fill pieces))) :
    Harmless fill items := by
  induction items generalizing tokens with
  | nil => exact fun _ hp => absurd hp List.not_mem_nil
  | cons item items ih =>
    rw [List.flatMap_cons] at hlexes
    cases item with
    | out c =>
      cases hlexes with
      | lit => exact absurd rfl (outside_not_quote (hout '"' List.mem_cons_self))
      | sym hc hrest =>
        intro pieces hp
        rw [List.mem_cons] at hp
        rcases hp with hp | hp
        · cases hp
        · exact ih (outside_tail hout) hrest hmeant pieces hp
    | lit pieces =>
      rw [spelled_lit] at hlexes
      cases hlexes with
      | sym hc => exact absurd rfl (outside_not_quote hc)
      | lit hreads hrest =>
        obtain ⟨hunits, hmeant⟩ := List.cons.inj hmeant
        rw [hunits] at hreads
        obtain ⟨hharmless, rfl⟩ := harmless_of_reads (quiet_items (outside_tail hout)) hreads
        intro pieces' hp
        rw [List.mem_cons] at hp
        rcases hp with hp | hp
        · cases hp
          exact hharmless
        · exact ih (outside_tail hout) hrest hmeant pieces' hp

/-! ## The law -/

theorem visible_not_whitespace {c : Char} (h : visible c = true) : is_whitespace c = false := by
  unfold visible at h
  simp only [Bool.and_eq_true, decide_eq_true_eq] at h
  obtain ⟨hlow, hhigh⟩ := h
  unfold is_whitespace
  simp only [Bool.or_eq_false_iff, Bool.and_eq_false_iff, decide_eq_false_iff_not,
    beq_eq_false_iff_ne]
  omega

theorem ws_is_whitespace {c : Char} (h : is_ws c = true) : is_whitespace c = true := by
  unfold is_ws at h
  simp only [Bool.or_eq_true, beq_iff_eq] at h
  rcases h with ((rfl | rfl) | rfl) | rfl <;> decide

theorem edge_not_whitespace {item : Item} (h : item.kind.Edge) :
    (∀ fill tail, ∀ c ∈ (item.spelled fill ++ tail).head?, is_whitespace c = false) ∧
      ∀ fill front, ∀ c ∈ (front ++ item.spelled fill).getLast?, is_whitespace c = false := by
  cases item with
  | out d =>
    have hd := visible_not_whitespace (h d rfl)
    refine ⟨fun fill tail c hc => ?_, fun fill front c hc => ?_⟩
    · cases hc
      exact hd
    · rw [Item.spelled, List.getLast?_concat] at hc
      cases hc
      exact hd
  | lit pieces =>
    refine ⟨fun fill tail c hc => ?_, fun fill front c hc => ?_⟩
    · cases hc
      decide
    · rw [Item.spelled, ← List.cons_append, ← List.append_assoc, List.getLast?_concat] at hc
      cases hc
      decide

/-- Trimming a template takes away the blanks around its JSON. -/
theorem trimmed_template (t : JsonTemplate) : trimmed t.text = text_of t.items := by
  obtain ⟨⟨first, rest, hfirst, hedge⟩, front, last, hlast, hedge'⟩ := value_edges t.value
  obtain ⟨item, items, hitems, rfl, -⟩ := List.map_eq_cons_iff.mp hfirst
  obtain ⟨front, ends, hends, -, hend⟩ := List.map_eq_append_iff.mp hlast
  obtain ⟨item', rfl, rfl⟩ := List.map_eq_singleton_iff.mp hend
  unfold JsonTemplate.text
  refine trimmed_between (fun c hc => ws_is_whitespace (t.blank_lead c hc))
    (fun c hc => ws_is_whitespace (t.blank_trail c hc)) ?_ ?_
  · rw [text_items, hitems, List.flatMap_cons]
    exact (edge_not_whitespace hedge).1 _ _
  · rw [text_items, hends, List.flatMap_append, List.flatMap_singleton]
    exact (edge_not_whitespace hedge').2 _ _

theorem text_ne_nil (t : JsonTemplate) : text_of t.items ≠ [] := by
  obtain ⟨first, rest, hfirst, -⟩ := (value_edges t.value).first
  obtain ⟨item, items, hitems, -, -⟩ := List.map_eq_cons_iff.mp hfirst
  rw [text_items, hitems, List.flatMap_cons]
  cases item <;> exact List.cons_ne_nil _ _

theorem rendered_template (to_json : EventPayload → List Char) (t : JsonTemplate) (event : Event) :
    render_body_or_json to_json (some t.text) event =
      t.items.flatMap (Item.spelled (from_event event)) := by
  unfold render_body_or_json render_template_or
  rw [Option.map_some, trimmed_template, Option.filter_some, if_pos (by simpa using text_ne_nil t)]
  show render_template (text_of t.items) event = _
  rw [render_scan, t.placeholders, rendered_items]

theorem token_kinds (fill : List Written → List Cell) (items : List Item) :
    (items.map (Item.token fill)).map Token.kind = items.map Item.kind := by
  rw [List.map_map]
  refine List.map_congr_left (fun item _ => ?_)
  cases item <;> rfl

theorem token_units (fill : List Written → List Cell) (items : List Item) :
    (items.map (Item.token fill)).filterMap Token.units =
      (items.filterMap Item.literal).map (fun pieces => meant (cells fill pieces)) := by
  rw [List.filterMap_map, List.map_filterMap]
  refine List.filterMap_congr (fun item _ => ?_)
  cases item <;> rfl

/-- A rendered template is JSON that says what it is meant to say when all that the event puts into
its literals is harmless there. -/
theorem stays_of_harmless (to_json : EventPayload → List Char) {t : JsonTemplate} {event : Event}
    (h : Harmless (from_event event) t.items) :
    StaysJson t event (render_body_or_json to_json (some t.text) event) := by
  rw [rendered_template]
  have hkinds := token_kinds (from_event event) t.items
  refine ⟨_, lexes_of_harmless t.outside_literals h, ?_, hkinds, token_units _ _⟩
  rw [hkinds]
  exact t.value

theorem harmless_of_stays {to_json : EventPayload → List Char} {t : JsonTemplate} {event : Event}
    (h : StaysJson t event (render_body_or_json to_json (some t.text) event)) :
    Harmless (from_event event) t.items := by
  obtain ⟨tokens, hlexes, -, -, hmeant⟩ := h
  rw [rendered_template] at hlexes
  exact harmless_of_lexes t.outside_literals hlexes hmeant

/-- A JSON template stays JSON that says what it means exactly when all that the event puts into its
literals is harmless there. -/
theorem a_template_stays_json_iff (to_json : EventPayload → List Char) (t : JsonTemplate)
    (event : Event) :
    StaysJson t event (render_body_or_json to_json (some t.text) event) ↔
      Harmless (from_event event) t.items :=
  ⟨harmless_of_stays, stays_of_harmless to_json⟩

/-- `{"text":"{{title}}"}`. -/
def hook_items : List Item :=
  [.out '\x7b',
    .lit [.written (.plain 't' (by decide)), .written (.plain 'e' (by decide)),
      .written (.plain 'x' (by decide)), .written (.plain 't' (by decide))],
    .out ':',
    .lit [.hole [.plain 't' (by decide), .plain 'i' (by decide), .plain 't' (by decide),
      .plain 'l' (by decide), .plain 'e' (by decide)]],
    .out '\x7d']

theorem hook_value : Value (hook_items.map Item.kind) :=
  have hblank : Blank [] := ⟨[], rfl, rfl⟩
  Value.object (@Members.one [] [] [] [.lit] [] hblank hblank hblank hblank Value.lit)

theorem hook_outside : Outside hook_items := by
  intro c hc
  simp only [hook_items, List.mem_cons, Item.out.injEq, reduceCtorEq, false_or, List.not_mem_nil,
    or_false] at hc
  rcases hc with rfl | rfl | rfl <;> decide

theorem hook_scan : scan (text_of hook_items) = hook_items.flatMap Item.marks := by
  have hopen : split_once_at OPEN (text_of hook_items) =
      some (['\x7b', '"', 't', 'e', 'x', 't', '"', ':', '"'],
        ['t', 'i', 't', 'l', 'e', '\x7d', '\x7d', '"', '\x7d']) := by decide
  have hclose : split_once_at CLOSE ['t', 'i', 't', 'l', 'e', '\x7d', '\x7d', '"', '\x7d'] =
      some (['t', 'i', 't', 'l', 'e'], ['"', '\x7d']) := by decide
  rw [scan_hole hopen hclose, scan_text (by decide)]
  rfl

def hook : JsonTemplate where
  lead := []
  items := hook_items
  trail := []
  blank_lead := fun _ hc => absurd hc List.not_mem_nil
  blank_trail := fun _ hc => absurd hc List.not_mem_nil
  outside_literals := hook_outside
  value := hook_value
  placeholders := hook_scan

/-- A release whose title has a quote in it. -/
def quoting : Event where
  source_id := "github:acme/rocket"
  source_kind := "GitHub"
  title := "\""
  body := ""
  url := none
  routing_tag := none

theorem a_quote_breaks_a_template :
    ¬ ∀ (to_json : EventPayload → List Char) (t : JsonTemplate) (event : Event),
      StaysJson t event (render_body_or_json to_json (some t.text) event) := by
  intro h
  have hharmless := harmless_of_stays (h (fun _ => []) hook quoting)
    [.hole [.plain 't' (by decide), .plain 'i' (by decide), .plain 't' (by decide),
      .plain 'l' (by decide), .plain 'e' (by decide)]] (by simp [hook, hook_items])
  exact absurd hharmless (by decide)

end xrelease.payload
