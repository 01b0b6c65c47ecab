import Mathlib.Data.List.Basic
/-!
# node's `path.posix`

The server builds every file path with `path.join` and `path.normalize` and picks a MIME type
with `path.extname`.  Here they are as node's posix implementation computes them, on the
characters of a string.

`normalizeString` walks the path keeping a stack of segments: empty and `.` segments are
dropped, and `..` pops the segment below it, or, with nothing to pop, is kept when
`allowAboveRoot` (a relative path) and dropped otherwise (an absolute one).

Over it, `AbsPath` is an absolute path in normal form, named segments only; it carries that
invariant, so everything rendered from it is normal.  The bridge is `normalize_absolute`:
normalizing an absolute path renders the segments the stack keeps.  From it,
`normalize_render` (normal form is a fixed point) and `join_render` (joining two normal
absolute paths appends their segments).
-/

namespace Fxcode.Server.Path

/-! ## The model -/

/-- The `..` segment. -/
def parentSegment : List Char := ['.', '.']

/-- One segment of `normalizeString`, on the stack of the segments kept so far (top first). -/
def pushSegment (allowAboveRoot : Bool) (stack : List (List Char)) (segment : List Char) :
    List (List Char) :=
  if segment = [] ∨ segment = ['.'] then stack
  else if segment = parentSegment then
    match stack with
    | top :: rest =>
      if top = parentSegment then (if allowAboveRoot then segment :: stack else stack) else rest
    | [] => if allowAboveRoot then [segment] else []
  else segment :: stack

/-- The segments `normalizeString` keeps, in order. -/
def normalizeSegments (allowAboveRoot : Bool) (path : List Char) : List (List Char) :=
  ((path.splitOn '/').foldl (pushSegment allowAboveRoot) []).reverse

/-- `normalizeString(path, allowAboveRoot, '/', isPosixPathSeparator)`. -/
def normalizeString (path : List Char) (allowAboveRoot : Bool) : List Char :=
  ['/'].intercalate (normalizeSegments allowAboveRoot path)

/-- `path.posix.normalize`. -/
def normalize (path : String) : String :=
  if path.data = [] then "." else
    let isAbsolute := path.data.head? == some '/'
    let trailingSeparator := path.data.getLast? == some '/'
    let normalized := normalizeString path.data !isAbsolute
    if normalized = [] then
      if isAbsolute then "/" else if trailingSeparator then "./" else "."
    else
      let normalized := if trailingSeparator then normalized ++ ['/'] else normalized
      if isAbsolute then ⟨'/' :: normalized⟩ else ⟨normalized⟩

/-- One argument of `path.posix.join`: an empty one is skipped, the first other one starts the
path and each later one is appended after a '/'. -/
def joinArg (joined : Option String) (arg : String) : Option String :=
  if arg = "" then joined
  else match joined with
    | none => some arg
    | some joined => some (joined ++ "/" ++ arg)

/-- `path.posix.join`: the joined arguments, normalized; `.` when all are empty. -/
def join (args : List String) : String :=
  match args.foldl joinArg none with
  | none => "."
  | some joined => normalize joined

/-- `path.posix.extname`: the last segment (trailing separators aside) from its last `.`
on, or empty when that segment has no `.`, starts with its only `.`, or is `..`. -/
def extname (path : String) : String :=
  let base := ((path.data.splitOn '/').filter (· ≠ [])).getLastD []
  let afterDot := base.reverse.takeWhile (· ≠ '.')
  if afterDot.length + 1 ≥ base.length ∨ base = parentSegment then ""
  else ⟨'.' :: afterDot.reverse⟩

example : normalize "/srv/app/../../../etc/./passwd/" = "/etc/passwd/" := by decide
example : normalize "a/../../b" = "../b" := by decide
example : join ["/srv/app", "../x"] = "/srv/x" := by decide
example : extname "/a/b.tar.gz" = ".gz" ∧ extname "/a/.bashrc" = "" ∧ extname "/a/b./" = "." := by
  decide

/-! ## Splitting at separators -/

/-- The segments of a path, empty ones left out. -/
def segments (path : String) : List (List Char) := (path.data.splitOn '/').filter (· ≠ [])

theorem splitOn_append_sep (c : Char) (a b : List Char) :
    (a ++ c :: b).splitOn c = a.splitOn c ++ b.splitOn c := by
  induction a with
  | nil => simp [List.splitOn, List.splitOnP_cons]
  | cons d a ih =>
    simp only [List.splitOn, List.cons_append, List.splitOnP_cons] at ih ⊢
    split
    · rw [ih, List.cons_append]
    · rw [ih]
      cases h : a.splitOnP (· == c)
      · exact absurd h (List.splitOnP_ne_nil _ _)
      · rfl

theorem slash_not_mem_splitOn {path segment : List Char} (h : segment ∈ path.splitOn '/') :
    '/' ∉ segment := by
  induction path generalizing segment with
  | nil => simp_all [List.splitOn]
  | cons c path ih =>
    simp only [List.splitOn, List.splitOnP_cons] at h ih
    split at h
    · rcases List.mem_cons.mp h with rfl | h
      · simp
      · exact ih h
    · rename_i hc
      cases hs : path.splitOnP (· == '/') with
      | nil => exact absurd hs (List.splitOnP_ne_nil _ _)
      | cons first rest =>
        rw [hs, List.modifyHead_cons] at h
        rcases List.mem_cons.mp h with rfl | h
        · simp only [List.mem_cons, not_or]
          exact ⟨fun h => hc (by simp [← h]), ih (by simp [hs])⟩
        · exact ih (by simp [hs, h])

theorem segments_append_slash (a b : String) : segments (a ++ "/" ++ b) = segments a ++ segments b := by
  simp only [segments, String.data_append]
  rw [List.append_assoc, show ("/" : String).data ++ b.data = '/' :: b.data from rfl,
    splitOn_append_sep, List.filter_append]

/-! ## The segment stack -/

/-- A segment that names a directory entry: not empty, not `.` or `..`, without a '/'. -/
def Named (segment : List Char) : Prop :=
  segment ≠ [] ∧ segment ≠ ['.'] ∧ segment ≠ parentSegment ∧ '/' ∉ segment

instance (segment : List Char) : Decidable (Named segment) := by unfold Named; infer_instance

theorem pushSegment_named {segment : List Char} (h : Named segment) (b stack) :
    pushSegment b stack segment = segment :: stack := by
  obtain ⟨h₁, h₂, h₃, -⟩ := h
  simp [pushSegment, h₁, h₂, h₃]

theorem foldl_pushSegment_named {segs : List (List Char)} (h : ∀ s ∈ segs, Named s) (b stack) :
    segs.foldl (pushSegment b) stack = segs.reverse ++ stack := by
  induction segs generalizing stack with
  | nil => rfl
  | cons s segs ih =>
    simp only [List.mem_cons, forall_eq_or_imp] at h
    simp [pushSegment_named h.1, ih h.2]

theorem foldl_pushSegment_filter (segs : List (List Char)) (b stack) :
    (segs.filter (· ≠ [])).foldl (pushSegment b) stack = segs.foldl (pushSegment b) stack := by
  induction segs generalizing stack with
  | nil => rfl
  | cons s segs ih =>
    by_cases hs : s = []
    · subst hs
      simpa [pushSegment] using ih stack
    · simpa [hs] using ih (pushSegment b stack s)

/-- On an absolute path a `..` never stays: every segment the stack keeps is named. -/
theorem pushSegment_false_named {stack : List (List Char)} (hstack : ∀ s ∈ stack, Named s)
    {segment : List Char} (hsegment : '/' ∉ segment) : ∀ s ∈ pushSegment false stack segment, Named s := by
  by_cases h₁ : segment = [] ∨ segment = ['.']
  · unfold pushSegment; rw [if_pos h₁]; exact hstack
  by_cases h₂ : segment = parentSegment
  · cases stack with
    | nil => simp [pushSegment, h₁, h₂]
    | cons top rest =>
      simp only [List.mem_cons, forall_eq_or_imp] at hstack
      have htop : top ≠ parentSegment := hstack.1.2.2.1
      simpa [pushSegment, h₁, h₂, htop] using hstack.2
  · simp only [not_or] at h₁
    simpa [pushSegment, Named, hsegment, h₁, h₂] using hstack

theorem normalizeSegments_false_named (path : List Char) :
    ∀ s ∈ normalizeSegments false path, Named s := by
  suffices ∀ (segs : List (List Char)), (∀ s ∈ segs, '/' ∉ s) → ∀ stack : List (List Char),
      (∀ s ∈ stack, Named s) → ∀ s ∈ segs.foldl (pushSegment false) stack, Named s by
    simpa [normalizeSegments] using
      this _ (fun _ h => slash_not_mem_splitOn h) [] (by simp)
  intro segs hsegs
  induction segs with
  | nil => exact fun _ h => h
  | cons seg segs ih =>
    simp only [List.mem_cons, forall_eq_or_imp] at hsegs
    exact fun stack hstack => ih hsegs.2 _ (pushSegment_false_named hstack hsegs.1)

/-! ## Segments joined by '/' -/

/-- A segment `intercalate` and `splitOn` take back and forth: not empty, without '/'. -/
def Plain (segment : List Char) : Prop := segment ≠ [] ∧ '/' ∉ segment

instance (segment : List Char) : Decidable (Plain segment) := by unfold Plain; infer_instance

theorem Named.plain {segment : List Char} (h : Named segment) : Plain segment := ⟨h.1, h.2.2.2⟩

/-- Segments joined by '/', and a final '/' when `trailing`. -/
def joinSegments (segs : List (List Char)) (trailing : Bool) : List Char :=
  ['/'].intercalate segs ++ if trailing then ['/'] else []

section Joined

variable {segs : List (List Char)}

theorem intercalate_eq_nil (hplain : ∀ s ∈ segs, Plain s) : ['/'].intercalate segs = [] ↔ segs = [] := by
  cases segs with
  | nil => exact iff_of_true rfl rfl
  | cons s segs =>
    simp only [List.intercalate, List.intersperse] at *
    cases segs <;> simp_all [Plain]

theorem splitOn_joinSegments (hplain : ∀ s ∈ segs, Plain s) (hne : segs ≠ []) (trailing : Bool) :
    (joinSegments segs trailing).splitOn '/' = segs ++ if trailing then [[]] else [] := by
  have hsplit := List.splitOn_intercalate segs '/' (fun s hs => (hplain s hs).2) hne
  cases trailing
  · simpa [joinSegments] using hsplit
  · rw [joinSegments, if_pos rfl, splitOn_append_sep, hsplit]
    rfl

theorem segments_joinSegments (hplain : ∀ s ∈ segs, Plain s) (hne : segs ≠ []) (trailing : Bool) :
    segments ⟨joinSegments segs trailing⟩ = segs := by
  simp only [segments]
  rw [splitOn_joinSegments hplain hne]
  cases trailing <;> simp [List.filter_append] <;> exact fun s hs => (hplain s hs).1

theorem segments_slash_joinSegments (hplain : ∀ s ∈ segs, Plain s) (hne : segs ≠ []) (trailing : Bool) :
    segments ⟨'/' :: joinSegments segs trailing⟩ = segs := by
  have h := segments_append_slash "" ⟨joinSegments segs trailing⟩
  rw [segments_joinSegments hplain hne] at h
  simpa using h

/-- Without `trailing` the text ends in its last segment, which has no '/'. -/
theorem joinSegments_getLast (hplain : ∀ s ∈ segs, Plain s) (hne : segs ≠ []) (trailing : Bool) :
    (joinSegments segs trailing).getLast? = some '/' ↔ trailing = true := by
  cases trailing
  · simp only [Bool.false_eq_true, iff_false]
    intro h
    obtain ⟨init, hinit⟩ := List.getLast?_eq_some_iff.mp h
    have hsplit := splitOn_joinSegments hplain hne false
    simp only [joinSegments, Bool.false_eq_true, if_false, List.append_nil] at hinit hsplit
    rw [hinit, splitOn_append_sep] at hsplit
    have hmem : [] ∈ segs := hsplit ▸ List.mem_append_right _ (List.mem_singleton_self _)
    exact (hplain [] hmem).1 rfl
  · simp [joinSegments]

theorem joinSegments_head (hplain : ∀ s ∈ segs, Plain s) (hne : segs ≠ []) (trailing : Bool) :
    (joinSegments segs trailing).head? ≠ some '/' := by
  obtain ⟨s, rest, rfl⟩ := List.exists_cons_of_ne_nil hne
  obtain ⟨c, cs, rfl⟩ := List.exists_cons_of_ne_nil (hplain s (List.mem_cons_self _ _)).1
  have hc : c ≠ '/' := fun h => (hplain _ (List.mem_cons_self _ _)).2 (h ▸ List.mem_cons_self _ _)
  cases rest <;> simp [joinSegments, List.intercalate, List.intersperse_cons_cons, hc]

theorem mem_intercalate_slash {c : Char} (h : c ∈ ['/'].intercalate segs) : c = '/' ∨ ∃ s ∈ segs, c ∈ s := by
  induction segs with
  | nil => simp [List.intercalate] at h
  | cons s segs ih =>
    cases segs with
    | nil => exact .inr ⟨s, List.mem_singleton_self _, by simpa [List.intercalate] using h⟩
    | cons t segs =>
      simp only [List.intercalate, List.intersperse_cons_cons, List.flatten_cons, List.mem_append] at h ih
      rcases h with h | h | h
      · exact .inr ⟨s, List.mem_cons_self _ _, h⟩
      · exact .inl (List.mem_singleton.mp h)
      · rcases ih h with h | ⟨u, hu, hc⟩
        · exact .inl h
        · exact .inr ⟨u, List.mem_cons_of_mem _ hu, hc⟩

theorem joinSegments_trailing (hplain : ∀ s ∈ segs, Plain s) (hne : segs ≠ []) (trailing : Bool) :
    ((joinSegments segs trailing).getLast? == some '/') = trailing := by
  have h := joinSegments_getLast hplain hne trailing
  cases trailing <;> simpa using h

theorem joinSegments_ne_nil (hplain : ∀ s ∈ segs, Plain s) (hne : segs ≠ []) (trailing : Bool) :
    joinSegments segs trailing ≠ [] := by
  simp [joinSegments, intercalate_eq_nil hplain, hne]

end Joined

/-! ## Normal absolute paths -/

/-- An absolute path in normal form: its named segments. -/
@[ext]
structure AbsPath where
  segments : List (List Char)
  named : ∀ s ∈ segments, Named s

/-- The text of a normal absolute path: '/' then the segments joined by '/', and a final
'/' when `trailing` and there is a segment. -/
def AbsPath.render (p : AbsPath) (trailing : Bool) : String :=
  if p.segments = [] then "/" else ⟨'/' :: joinSegments p.segments trailing⟩

theorem AbsPath.plain (p : AbsPath) : ∀ s ∈ p.segments, Plain s := fun s hs => (p.named s hs).plain

/-- What `normalize` makes of an absolute path. -/
def resolve (path : List Char) : AbsPath := ⟨normalizeSegments false path, normalizeSegments_false_named path⟩

/-- Normalizing an absolute path renders the segments its stack keeps. -/
theorem normalize_absolute {path : String} (h : path.data.head? = some '/') :
    normalize path = (resolve path.data).render (path.data.getLast? == some '/') := by
  have hne : path.data ≠ [] := by rintro h'; simp [h'] at h
  have hiff := intercalate_eq_nil (resolve path.data).plain
  simp only [normalize, hne, h, if_false, beq_self_eq_true, Bool.not_true, normalizeString,
    AbsPath.render, resolve, joinSegments] at hiff ⊢
  by_cases hs : normalizeSegments false path.data = []
  · simp_all
  · by_cases ht : path.data.getLast? = some '/' <;> simp_all

theorem resolve_eq_foldl (path : String) :
    (resolve path.data).segments = ((segments path).foldl (pushSegment false) []).reverse := by
  show (List.foldl _ [] (path.data.splitOn '/')).reverse = _
  rw [← foldl_pushSegment_filter]
  rfl

/-- The stack keeps every segment of a path whose segments are all named. -/
theorem resolve_segments {path : String} (h : ∀ s ∈ segments path, Named s) :
    (resolve path.data).segments = segments path := by
  rw [resolve_eq_foldl, foldl_pushSegment_named h]
  simp

/-- As many `..` as there are segments on the stack empty it. -/
theorem foldl_pushSegment_pop (b : Bool) :
    ∀ stack : List (List Char), (∀ s ∈ stack, Named s) →
      (List.replicate stack.length parentSegment).foldl (pushSegment b) stack = []
  | [], _ => rfl
  | s :: stack, h => by
    simp only [List.mem_cons, forall_eq_or_imp] at h
    have hs : s ≠ parentSegment := h.1.2.2.1
    have hparent : ¬(parentSegment = [] ∨ parentSegment = ['.']) := by decide
    rw [List.length_cons, List.replicate_succ, List.foldl_cons]
    simp only [pushSegment, hparent, if_false, if_true, hs]
    exact foldl_pushSegment_pop b stack h.2

theorem segments_render (p : AbsPath) (trailing : Bool) : segments (p.render trailing) = p.segments := by
  by_cases hp : p.segments = []
  · simp [AbsPath.render, segments, hp, List.splitOn, List.splitOnP_cons]
  · simp only [AbsPath.render, hp, if_false]
    exact segments_slash_joinSegments p.plain hp trailing

theorem render_trailing (p : AbsPath) (trailing : Bool) :
    ((p.render trailing).data.getLast? == some '/') = (trailing || decide (p.segments = [])) := by
  by_cases hp : p.segments = []
  · simp [AbsPath.render, hp]
  · have hlast := joinSegments_getLast p.plain hp trailing
    have hne := joinSegments_ne_nil p.plain hp trailing
    obtain ⟨y, ys, hy⟩ := List.exists_cons_of_ne_nil hne
    simp only [AbsPath.render, hp, if_false, decide_False, Bool.or_false, hy, List.getLast?_cons_cons]
    rw [hy] at hlast
    cases trailing <;> simpa using hlast

theorem render_trailing_nil (p : AbsPath) (trailing : Bool) :
    p.render (trailing || decide (p.segments = [])) = p.render trailing := by
  by_cases hp : p.segments = [] <;> simp [AbsPath.render, hp]

theorem render_head (p : AbsPath) (trailing : Bool) : (p.render trailing).data.head? = some '/' := by
  unfold AbsPath.render; split_ifs <;> rfl

/-- A normal absolute path is its own normal form. -/
theorem normalize_render (p : AbsPath) (trailing : Bool) :
    normalize (p.render trailing) = p.render trailing := by
  have hresolve : resolve (p.render trailing).data = p := by
    ext1
    rw [resolve_segments (segments_render p trailing ▸ p.named), segments_render]
  rw [normalize_absolute (render_head p trailing), hresolve, render_trailing, render_trailing_nil]

theorem join_pair {a b : String} (ha : a ≠ "") (hb : b ≠ "") : join [a, b] = normalize (a ++ "/" ++ b) := by
  simp [join, joinArg, ha, hb]

theorem render_ne_empty (p : AbsPath) (trailing : Bool) : p.render trailing ≠ "" := by
  intro h
  simpa [h] using render_head p trailing

/-- Below a normal absolute path `r`, a nonempty `b` normalizes to the stack over both, with
the trailing '/' of `b`. -/
theorem normalize_render_slash (r : AbsPath) {b : String} (hb : b ≠ "") :
    normalize (r.render false ++ "/" ++ b) =
      (resolve (r.render false ++ "/" ++ b).data).render (b.data.getLast? == some '/') := by
  have hhead : (r.render false ++ "/" ++ b).data.head? = some '/' := by
    simpa [String.data_append] using Or.inl (render_head r false)
  have hlast : (r.render false ++ "/" ++ b).data.getLast? = b.data.getLast? := by
    simp only [String.data_append, List.getLast?_append]
    cases h : b.data.getLast? with
    | none => exact absurd (String.ext (List.getLast?_eq_none_iff.mp h)) hb
    | some c => rfl
  rw [normalize_absolute hhead, hlast]

/-- The stack keeps `r` and then every segment of `b` when all of them are named. -/
theorem resolve_render_slash (r : AbsPath) {b : String} (h : ∀ s ∈ segments b, Named s) :
    (resolve (r.render false ++ "/" ++ b).data).segments = r.segments ++ segments b := by
  have hsegments := segments_append_slash (r.render false) b
  rw [segments_render] at hsegments
  rw [resolve_segments (hsegments ▸ by simpa [or_imp, forall_and] using ⟨r.named, h⟩), hsegments]

/-- Joining two normal absolute paths appends their segments. -/
theorem join_render (r q : AbsPath) (trailing : Bool) :
    join [r.render false, q.render trailing] =
      (⟨r.segments ++ q.segments, fun s hs => (List.mem_append.mp hs).elim (r.named s) (q.named s)⟩ : AbsPath).render
        (trailing || decide (q.segments = [])) := by
  rw [join_pair (render_ne_empty r false) (render_ne_empty q trailing),
    normalize_render_slash r (render_ne_empty q trailing), render_trailing]
  congr 1
  ext1
  rw [resolve_render_slash r (segments_render q trailing ▸ q.named), segments_render]

/-! ## Normal relative paths -/

/-- A relative path in normal form: `parents` leading `..` segments, then named ones. -/
structure RelPath where
  parents : Nat
  segments : List (List Char)
  named : ∀ s ∈ segments, Named s

/-- All the segments of a normal relative path, the `..` ones first. -/
def RelPath.all (p : RelPath) : List (List Char) := List.replicate p.parents parentSegment ++ p.segments

theorem RelPath.plain (p : RelPath) : ∀ s ∈ p.all, Plain s := by
  intro s hs
  rcases List.mem_append.mp hs with h | h
  · rw [(List.mem_replicate.mp h).2]
    decide
  · exact (p.named s h).plain

/-- The text of a normal relative path; `.`, or `./` when `trailing`, if it has no segment. -/
def RelPath.render (p : RelPath) (trailing : Bool) : String :=
  if p.all = [] then (if trailing then "./" else ".") else ⟨joinSegments p.all trailing⟩

theorem foldl_pushSegment_parents (k j : Nat) :
    (List.replicate k parentSegment).foldl (pushSegment true) (List.replicate j parentSegment) =
      List.replicate (j + k) parentSegment := by
  induction k generalizing j with
  | zero => rfl
  | succ k ih =>
    have hpush : pushSegment true (List.replicate j parentSegment) parentSegment =
        List.replicate (j + 1) parentSegment := by
      cases j <;> simp [pushSegment, parentSegment, List.replicate_succ]
    rw [List.replicate_succ, List.foldl_cons, hpush, ih]
    congr 1
    omega

/-- A normal relative path is its own normal form. -/
theorem normalize_relRender (p : RelPath) (trailing : Bool) :
    normalize (p.render trailing) = p.render trailing := by
  by_cases hp : p.all = []
  · simp only [RelPath.render, hp, if_true]
    cases trailing <;> decide
  have hfold : normalizeSegments true (joinSegments p.all trailing) = p.all := by
    have hsplit := splitOn_joinSegments p.plain hp trailing
    have hparents := foldl_pushSegment_parents p.parents 0
    rw [List.replicate_zero, Nat.zero_add] at hparents
    rw [normalizeSegments, hsplit, List.foldl_append, RelPath.all, List.foldl_append, hparents,
      foldl_pushSegment_named p.named]
    cases trailing <;> simp [pushSegment]
  have hne := joinSegments_ne_nil p.plain hp trailing
  have hhead : ((joinSegments p.all trailing).head? == some '/') = false := by
    simpa using joinSegments_head p.plain hp trailing
  have hlast := joinSegments_trailing p.plain hp trailing
  have hiff := intercalate_eq_nil p.plain
  simp only [RelPath.render, hp, if_false, normalize, hne, hhead, hlast, Bool.not_false, normalizeString,
    hfold] at hiff ⊢
  cases trailing <;> simp_all [joinSegments]

end Fxcode.Server.Path
