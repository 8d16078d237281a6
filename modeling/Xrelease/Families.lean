-- The rules that bind the lines of a page of metrics to each other: a metric is described once
-- and before its samples, a series occurs once, and the lines of a metric stand together. For
-- a page of families with loose samples behind them each rule is read off its parts.
import Mathlib.Data.List.Pairwise
import Xrelease.Exposition

namespace exposition

/-! ## The rules -/

def samples (lines : List Line) : List Sample :=
  lines.filterMap (fun line => match line with
    | .sample s => some s
    | _ => none)

/-- The names that the page has a help text for. -/
def helps (lines : List Line) : List (List Char) :=
  lines.filterMap (fun line => match line with
    | .help name _ => some name
    | _ => none)

def types (lines : List Line) : List (List Char × List Char) :=
  lines.filterMap (fun line => match line with
    | .type name kind => some (name, kind)
    | _ => none)

def histogram : List Char := ['h', 'i', 's', 't', 'o', 'g', 'r', 'a', 'm']

def summary : List Char := ['s', 'u', 'm', 'm', 'a', 'r', 'y']

def bucket_of (name : List Char) : List Char := name ++ ['_', 'b', 'u', 'c', 'k', 'e', 't']

def sum_of (name : List Char) : List Char := name ++ ['_', 's', 'u', 'm']

def count_of (name : List Char) : List Char := name ++ ['_', 'c', 'o', 'u', 'n', 't']

/-- The names that the samples of a metric carry. -/
def sample_names (name kind : List Char) : List (List Char) :=
  if kind = histogram then [bucket_of name, sum_of name, count_of name]
  else if kind = summary then [name, sum_of name, count_of name]
  else [name]

/-- A metric has one help text and one type, and its type comes before its samples. -/
structure Described (lines : List Line) : Prop where
  helped_once : (helps lines).Nodup
  typed_once : ((types lines).map Prod.fst).Nodup
  typed_first : lines.Pairwise (fun x y => ∀ s name kind, x = .sample s → y = .type name kind →
    s.name ∉ sample_names name kind)

/-- The same metric name with the same set of labels. -/
def same_series (s t : Sample) : Prop := s.name = t.name ∧ s.labels.Perm t.labels

/-- Each series occurs at most once. -/
def Distinct (lines : List Line) : Prop := (samples lines).Pairwise (fun s t => ¬ same_series s t)

/-- The metric that a sample's name belongs to. -/
def owner (types : List (List Char × List Char)) (name : List Char) : List Char :=
  ((types.find? (fun t => (sample_names t.1 t.2).contains name)).map Prod.fst).getD name

def metric (types : List (List Char × List Char)) : Line → Option (List Char)
  | .blank => none
  | .comment => none
  | .help name _ => some name
  | .type name _ => some name
  | .sample s => some (owner types s.name)

/-- No name comes back after another one. -/
def together : List (List Char) → Prop
  | [] => True
  | n :: ns => n ∉ ns.dropWhile (· = n) ∧ together ns

/-- The lines of a metric are one group, with its help text and its type first. -/
structure Grouped (lines : List Line) : Prop where
  one_group : together (lines.filterMap (metric (types lines)))
  helped_first : lines.Pairwise (fun x y => ∀ s name text, x = .sample s → y = .help name text →
    owner (types lines) s.name ≠ name)

/-! ## Series -/

/-- With the same distinct label names in the same order, the same set is the same list. -/
theorem labels_eq {ls ms : List (List Char × List Char)} (h : ls.Perm ms)
    (hnames : ls.map Prod.fst = ms.map Prod.fst) (hdistinct : (ls.map Prod.fst).Nodup) :
    ls = ms := by
  induction ls generalizing ms with
  | nil => exact (List.nil_perm.mp h).symm
  | cons l ls ih =>
    cases ms with
    | nil => cases hnames
    | cons m ms =>
      rw [List.map_cons, List.map_cons, List.cons.injEq] at hnames
      rw [List.map_cons, List.nodup_cons] at hdistinct
      have hl : l = m := by
        rcases List.mem_cons.mp (h.subset List.mem_cons_self) with hl | hl
        · exact hl
        · refine absurd ?_ hdistinct.1
          rw [hnames.2]
          exact List.mem_map_of_mem hl
      subst hl
      rw [ih h.cons_inv hnames.2 hdistinct.2]

/-! ## Groups -/

theorem together_block {n : List Char} {ns : List (List Char)} (hn : n ∉ ns) (h : together ns)
    (k : Nat) : together (List.replicate k n ++ ns) := by
  induction k with
  | zero => exact h
  | succ k ih =>
    have hdrop : (List.replicate k n ++ ns).dropWhile (· = n) = ns := by
      rw [List.dropWhile_append_of_pos (by simp)]
      cases ns with
      | nil => rfl
      | cons m ns =>
        have hm : m ≠ n := fun he => hn (he ▸ List.mem_cons_self)
        simp [hm]
    rw [List.replicate_succ, List.cons_append, together, hdrop]
    exact ⟨hn, ih⟩

/-- Between two places of one name stands no other. -/
theorem between_together {n : List Char} {before middle after : List (List Char)}
    (h : together (before ++ n :: (middle ++ n :: after))) : ∀ m ∈ middle, m = n := by
  induction before with
  | nil =>
    intro m hm
    by_contra hne
    refine h.1 ?_
    clear h
    induction middle with
    | nil => cases hm
    | cons k middle ih =>
      by_cases hk : k = n
      · have hm' : m ∈ middle := by
          rcases List.mem_cons.mp hm with rfl | hm
          · exact absurd hk hne
          · exact hm
        rw [List.cons_append, List.dropWhile_cons_of_pos (by simpa using hk)]
        exact ih hm'
      · rw [List.cons_append, List.dropWhile_cons_of_neg (by simpa using hk)]
        simp
  | cons k before ih => exact ih h.2

/-! ## A page of families -/

/-- A metric with its two describing lines and the samples right behind them. -/
structure Family where
  name : List Char
  text : List Char
  kind : List Char
  samples : List Sample

def Family.lines (f : Family) : List Line :=
  .help f.name f.text :: .type f.name f.kind :: f.samples.map .sample

def Family.sample_names (f : Family) : List (List Char) := exposition.sample_names f.name f.kind

/-- The families one after another, and samples behind them. -/
def page (families : List Family) (loose : List Sample) : List Line :=
  families.flatMap Family.lines ++ loose.map .sample

/-- The families have different names, and so have their samples; a loose sample is of a family
that has none of its own. -/
structure Sound (families : List Family) (loose : List Sample) : Prop where
  names : (families.map Family.name).Nodup
  apart : families.Pairwise (fun f g => ∀ n ∈ f.sample_names, n ∉ g.sample_names)
  owned : ∀ f ∈ families, ∀ s ∈ f.samples, s.name ∈ f.sample_names
  placed : ∀ s ∈ loose, ∃ f ∈ families, s.name ∈ f.sample_names ∧ f.samples = []

section
variable {families : List Family} {loose : List Sample}

theorem samples_page :
    samples (page families loose) = families.flatMap Family.samples ++ loose := by
  have hloose : samples (loose.map .sample) = loose := by
    unfold samples
    rw [List.filterMap_map]
    exact List.filterMap_some
  have hfamily : ∀ f : Family, samples f.lines = f.samples := by
    intro f
    unfold Family.lines samples
    rw [List.filterMap_cons_none rfl, List.filterMap_cons_none rfl, List.filterMap_map]
    exact List.filterMap_some
  have happend : ∀ a b, samples (a ++ b) = samples a ++ samples b := fun a b =>
    List.filterMap_append
  have hflat : samples (families.flatMap Family.lines) = families.flatMap Family.samples := by
    clear hloose
    induction families with
    | nil => rfl
    | cons f families ih =>
      rw [List.flatMap_cons, List.flatMap_cons, happend, hfamily, ih]
  unfold page
  rw [happend, hflat, hloose]

theorem helps_page : helps (page families loose) = families.map Family.name := by
  have hnone : ∀ l : List Sample, helps (l.map .sample) = [] := by
    intro l
    simp [helps]
  have happend : ∀ a b, helps (a ++ b) = helps a ++ helps b := fun a b => List.filterMap_append
  have hfamily : ∀ f : Family, helps f.lines = [f.name] := by
    intro f
    change f.name :: helps (f.samples.map .sample) = [f.name]
    rw [hnone]
  unfold page
  rw [happend, hnone, List.append_nil]
  induction families with
  | nil => rfl
  | cons f families ih =>
    rw [List.flatMap_cons, happend, hfamily, ih]
    rfl

theorem types_page :
    types (page families loose) = families.map (fun f => (f.name, f.kind)) := by
  have hnone : ∀ l : List Sample, types (l.map .sample) = [] := by
    intro l
    simp [types]
  have happend : ∀ a b, types (a ++ b) = types a ++ types b := fun a b => List.filterMap_append
  have hfamily : ∀ f : Family, types f.lines = [(f.name, f.kind)] := by
    intro f
    change (f.name, f.kind) :: types (f.samples.map .sample) = [(f.name, f.kind)]
    rw [hnone]
  unfold page
  rw [happend, hnone, List.append_nil]
  induction families with
  | nil => rfl
  | cons f families ih =>
    rw [List.flatMap_cons, happend, hfamily, ih]
    rfl

/-- A name is a sample's name in one family only. -/
theorem Sound.one_family (h : Sound families loose) {f g : Family} (hf : f ∈ families)
    (hg : g ∈ families) {n : List Char} (hnf : n ∈ f.sample_names) (hng : n ∈ g.sample_names) :
    f = g := by
  by_contra hne
  have hsymm : Std.Symm (fun f g : Family => ∀ n ∈ f.sample_names, n ∉ g.sample_names) :=
    ⟨fun f g hfg n hg hf => hfg n hf hg⟩
  exact h.apart.forall hf hg hne n hnf hng

theorem Sound.owner_eq (h : Sound families loose) {f : Family} (hf : f ∈ families) {n : List Char}
    (hn : n ∈ f.sample_names) : owner (types (page families loose)) n = f.name := by
  unfold owner
  rw [types_page]
  cases hfind : (families.map (fun f => (f.name, f.kind))).find?
      (fun t => (exposition.sample_names t.1 t.2).contains n) with
  | none =>
    have hno := List.find?_eq_none.mp hfind (f.name, f.kind) (List.mem_map.mpr ⟨f, hf, rfl⟩)
    exact absurd (List.contains_iff_mem.mpr hn) hno
  | some t =>
    have hyes := List.find?_some hfind
    obtain ⟨g, hg, rfl⟩ := List.mem_map.mp (List.mem_of_find?_eq_some hfind)
    rw [h.one_family hg hf (List.contains_iff_mem.mp hyes) hn]
    rfl

theorem Sound.metric_eq (h : Sound families loose) {f : Family} (hf : f ∈ families) {s : Sample}
    (hs : s.name ∈ f.sample_names) :
    metric (types (page families loose)) (.sample s) = some f.name :=
  congrArg some (h.owner_eq hf hs)

theorem sample_mem_lines {f : Family} {s : Sample} (h : Line.sample s ∈ f.lines) :
    s ∈ f.samples := by
  unfold Family.lines at h
  simpa using h

theorem type_mem_lines {f : Family} {name kind : List Char} (h : Line.type name kind ∈ f.lines) :
    name = f.name ∧ kind = f.kind := by
  unfold Family.lines at h
  simpa using h

theorem help_mem_lines {f : Family} {name text : List Char} (h : Line.help name text ∈ f.lines) :
    name = f.name := by
  unfold Family.lines at h
  simp at h
  exact h.1

/-- A relation that only a sample before a describing line can break holds within a family. -/
theorem pairwise_lines {R : Line → Line → Prop} (f : Family)
    (hsample : ∀ s t, R (.sample s) (.sample t)) (hhead : ∀ x y, (∀ s, x ≠ .sample s) → R x y) :
    f.lines.Pairwise R := by
  unfold Family.lines
  refine List.Pairwise.cons (fun y _ => hhead _ y (by simp)) ?_
  refine List.Pairwise.cons (fun y _ => hhead _ y (by simp)) ?_
  exact List.pairwise_map.mpr (List.pairwise_of_forall (fun s t => hsample s t))

/-- Over a page it has to hold across the families, and of the loose samples nothing is asked. -/
theorem pairwise_page {R : Line → Line → Prop} (hsample : ∀ s t, R (.sample s) (.sample t))
    (hhead : ∀ x y, (∀ s, x ≠ .sample s) → R x y)
    (hacross : families.Pairwise (fun f g => ∀ x ∈ f.lines, ∀ y ∈ g.lines, R x y)) :
    (page families loose).Pairwise R := by
  unfold page
  refine List.pairwise_append.mpr ⟨?_, ?_, ?_⟩
  · exact List.pairwise_flatMap.mpr ⟨fun f _ => pairwise_lines f hsample hhead, hacross⟩
  · exact List.pairwise_map.mpr (List.pairwise_of_forall (fun s t => hsample s t))
  · intro x _ y hy
    obtain ⟨t, -, rfl⟩ := List.mem_map.mp hy
    cases x with
    | sample s => exact hsample s t
    | blank => exact hhead _ _ (by simp)
    | comment => exact hhead _ _ (by simp)
    | help name text => exact hhead _ _ (by simp)
    | type name kind => exact hhead _ _ (by simp)

section

variable (h : Sound families loose)

include h

theorem Sound.described : Described (page families loose) where
  helped_once := by
    rw [helps_page]
    exact h.names
  typed_once := by
    rw [types_page, List.map_map]
    exact h.names
  typed_first := by
    refine pairwise_page (fun s t s' name kind _ hy => by cases hy)
      (fun x y hx s name kind he _ => absurd he (hx s)) ?_
    refine h.apart.imp_of_mem (fun {f g} hf hg hfg x hx y hy => ?_)
    rintro s name kind rfl rfl
    obtain ⟨rfl, rfl⟩ := type_mem_lines hy
    exact hfg s.name (h.owned f hf s (sample_mem_lines hx))

/-- The series are distinct when they are so in each family and among the loose samples. -/
theorem Sound.distinct_iff
    (hwithin : ∀ f ∈ families, f.samples.Pairwise (fun s t => ¬ same_series s t)) :
    Distinct (page families loose) ↔ loose.Pairwise (fun s t => ¬ same_series s t) := by
  unfold Distinct
  rw [samples_page, List.pairwise_append]
  refine ⟨fun hall => hall.2.1, fun hloose => ⟨?_, hloose, ?_⟩⟩
  · refine List.pairwise_flatMap.mpr ⟨hwithin, ?_⟩
    refine h.apart.imp_of_mem (fun {f g} hf hg hfg s hs t ht hst => ?_)
    have hname := h.owned g hg t ht
    rw [← hst.1] at hname
    exact hfg s.name (h.owned f hf s hs) hname
  · intro s hs t ht hst
    obtain ⟨f, hf, hs⟩ := List.mem_flatMap.mp hs
    obtain ⟨g, hg, hname, hempty⟩ := h.placed t ht
    rw [← hst.1] at hname
    rw [h.one_family hf hg (h.owned f hf s hs) hname, hempty] at hs
    cases hs

/-- The samples of a name are those of its family and the loose ones. -/
theorem Sound.named {f : Family} (hf : f ∈ families) {n : List Char}
    (hn : n ∈ f.sample_names) :
    (samples (page families loose)).filter (·.name = n) =
      f.samples.filter (·.name = n) ++ loose.filter (·.name = n) := by
  have hother : ∀ gs : List Family, (∀ g ∈ gs, g ∈ families) → f ∉ gs →
      (gs.flatMap Family.samples).filter (·.name = n) = [] := by
    intro gs hgs hne
    refine List.filter_eq_nil_iff.mpr (fun s hs hname => ?_)
    obtain ⟨g, hg, hs⟩ := List.mem_flatMap.mp hs
    have howned := h.owned g (hgs g hg) s hs
    rw [decide_eq_true_eq] at hname
    rw [hname] at howned
    exact hne (h.one_family hf (hgs g hg) hn howned ▸ hg)
  obtain ⟨before, after, hsplit, hbefore⟩ := List.eq_append_cons_of_mem hf
  have hafter : f ∉ after := by
    have hnames := h.names
    rw [hsplit, List.map_append, List.map_cons, List.nodup_append] at hnames
    intro hm
    exact (List.nodup_cons.mp hnames.2.1).1 (List.mem_map_of_mem hm)
  rw [samples_page, List.filter_append]
  congr 1
  have hall : families.flatMap Family.samples =
      before.flatMap Family.samples ++ (f.samples ++ after.flatMap Family.samples) := by
    rw [hsplit, List.flatMap_append, List.flatMap_cons]
  rw [hall, List.filter_append, List.filter_append,
    hother before (fun g hg => by simp [hsplit, hg]) hbefore,
    hother after (fun g hg => by simp [hsplit, hg]) hafter, List.nil_append, List.append_nil]

/-- A family with samples of its own has no loose ones. -/
theorem Sound.none_loose {f : Family} (hf : f ∈ families)
    {n : List Char} (hn : n ∈ f.sample_names) (hne : f.samples ≠ []) :
    loose.filter (·.name = n) = [] := by
  refine List.filter_eq_nil_iff.mpr (fun s hs hname => ?_)
  obtain ⟨g, hg, hplaced, hempty⟩ := h.placed s hs
  rw [decide_eq_true_eq] at hname
  rw [hname] at hplaced
  exact hne (h.one_family hf hg hn hplaced ▸ hempty)

/-! ## The groups of a page -/

theorem Sound.metrics_family {f : Family} (hf : f ∈ families) :
    f.lines.filterMap (metric (types (page families loose))) =
      List.replicate (f.samples.length + 2) f.name := by
  have hsamples : ∀ ss : List Sample, (∀ s ∈ ss, s ∈ f.samples) →
      (ss.map Line.sample).filterMap (metric (types (page families loose))) =
        List.replicate ss.length f.name := by
    intro ss hss
    induction ss with
    | nil => rfl
    | cons s ss ih =>
      have hs := h.metric_eq hf (h.owned f hf s (hss s List.mem_cons_self))
      rw [List.map_cons, List.filterMap_cons_some hs,
        ih (fun t ht => hss t (List.mem_cons_of_mem _ ht))]
      rfl
  change f.name :: f.name :: (f.samples.map Line.sample).filterMap _ = _
  rw [hsamples f.samples (fun s hs => hs)]
  rfl

end

/-- With nothing loose the families are the groups. -/
theorem Sound.grouped (h : Sound families []) : Grouped (page families []) where
  one_group := by
    have hblocks : (page families []).filterMap (metric (types (page families []))) =
        families.flatMap (fun f => List.replicate (f.samples.length + 2) f.name) := by
      have hpart : ∀ fs : List Family, (∀ f ∈ fs, f ∈ families) →
          (fs.flatMap Family.lines).filterMap (metric (types (page families []))) =
            fs.flatMap (fun f => List.replicate (f.samples.length + 2) f.name) := by
        intro fs hfs
        induction fs with
        | nil => rfl
        | cons f fs ih =>
          rw [List.flatMap_cons, List.filterMap_append, List.flatMap_cons,
            h.metrics_family (hfs f List.mem_cons_self),
            ih (fun g hg => hfs g (List.mem_cons_of_mem _ hg))]
      have hall := hpart families (fun f hf => hf)
      rw [← hall]
      change List.filterMap _ (families.flatMap Family.lines ++ []) = _
      rw [List.append_nil]
    rw [hblocks]
    have hnames := h.names
    clear h hblocks
    induction families with
    | nil => trivial
    | cons f families ih =>
      rw [List.map_cons, List.nodup_cons] at hnames
      rw [List.flatMap_cons]
      refine together_block (fun hm => ?_) (ih hnames.2) _
      obtain ⟨g, hg, hf⟩ := List.mem_flatMap.mp hm
      rw [List.eq_of_mem_replicate hf] at hnames
      exact hnames.1 (List.mem_map_of_mem hg)
  helped_first := by
    refine pairwise_page (fun s t s' name text _ hy => by cases hy)
      (fun x y hx s name text he _ => absurd he (hx s)) ?_
    have hnames : families.Pairwise (fun f g => f.name ≠ g.name) := List.pairwise_map.mp h.names
    refine hnames.imp_of_mem (fun {f g} hf hg hfg x hx y hy => ?_)
    rintro s name text rfl rfl
    rw [help_mem_lines hy, h.owner_eq hf (h.owned f hf s (sample_mem_lines hx))]
    exact hfg

/-- A loose sample whose family another one follows stands apart from its describing lines. -/
theorem Sound.not_grouped (h : Sound families loose) {s : Sample} (hs : s ∈ loose)
    {before after : List Family} {f : Family} (hsplit : families = before ++ f :: after)
    (hafter : after ≠ []) (hname : s.name ∈ f.sample_names) : ¬ Grouped (page families loose) := by
  intro hgrouped
  obtain ⟨g, after, rfl⟩ := List.exists_cons_of_ne_nil hafter
  have hf : f ∈ families := by simp [hsplit]
  have hne : g.name ≠ f.name := by
    have hnames := h.names
    rw [hsplit, List.map_append, List.map_cons, List.map_cons, List.nodup_append] at hnames
    have hfg := (List.nodup_cons.mp hnames.2.1).1
    intro he
    exact hfg (he ▸ List.mem_cons_self)
  obtain ⟨front, back, hloose⟩ := List.append_of_mem hs
  have hgroup := hgrouped.one_group
  have howner := h.metric_eq hf hname
  generalize hm : metric (types (page families loose)) = m at hgroup howner
  have hhelp : ∀ k : Family, m (.help k.name k.text) = some k.name := by
    intro k
    rw [← hm]
    rfl
  have hpage : page families loose =
      before.flatMap Family.lines ++ .help f.name f.text ::
        (((.type f.name f.kind :: f.samples.map .sample) ++ g.lines ++ after.flatMap Family.lines ++
          front.map .sample) ++ .sample s :: back.map .sample) := by
    unfold page
    rw [hsplit, hloose]
    simp [List.flatMap_append, Family.lines]
  rw [hpage, List.filterMap_append, List.filterMap_cons_some (hhelp f), List.filterMap_append,
    List.filterMap_cons_some howner] at hgroup
  refine hne (between_together hgroup g.name ?_)
  rw [List.mem_filterMap]
  exact ⟨.help g.name g.text, by simp [Family.lines], hhelp g⟩

end

end exposition
