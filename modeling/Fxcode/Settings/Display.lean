import Fxcode.Settings.Tree
/-!
# The label and category a setting is shown under

`settingKeyToDisplayFormat` turns a setting key into what the settings editor shows: three
global replacements (a lowercase letter after a dot becomes uppercase; a space goes between a
lowercase letter and the uppercase letter after it; a lowercase first letter becomes uppercase),
a split at the last dot into category and label, and `trimCategoryForGroup`, which takes off the
category the first of the group id's leading, then trailing, runs of dot-separated parts that
the category starts with, ignoring case.

A global replacement scans the string from the left, consuming each match whole before it
searches on; the functions below scan the same way.  The patterns are ASCII, so reading the key
as characters and not as UTF-16 code units changes no match.  `trimCategoryForGroup` builds its
expressions from the parts of the group id: they are read here as the literal text they are for
an id without expression syntax (`^ $ \ . * + ? ( ) [ ] { } |`), and the `i` flag compares by
ASCII case, which is how it folds whenever the id is ASCII.

* `settingKeyToDisplayFormat_segments`: the key is formatted segment by segment, so the label is
  its last segment formatted, and the category the formatted rest, trimmed;
* `trimCategoryForGroup_whole_segments`: the trim takes off whole leading segments only, which
  spell a leading or a trailing run of the group id's parts.
-/

namespace Fxcode.Settings.Display

open Tree

/-! ## The replacements -/

/-- `.replace(/\.([a-z])/g, (match, p1) => ...p1.toUpperCase())`, from a point where the character
before is a dot (`afterDot`) or not: a lowercase letter right after a dot becomes uppercase.  A
match's letter is never the dot of another match, so the matches are exactly these pairs, and the
scan finds every one (`toUpper` changes only lowercase letters). -/
def upperAfterDot (afterDot : Bool) : List Char → List Char
  | [] => []
  | c :: rest => (if afterDot then c.toUpper else c) :: upperAfterDot (c = '.') rest

/-- `.replace(/([a-z])([A-Z])/g, '$1 $2')`, from a point where the character before is a lowercase
letter (`afterLower`) or not: a space goes between a lowercase letter and the uppercase letter
after it.  No letter is both, so matches never overlap and the scan finds every one. -/
def spaceLowerUpper (afterLower : Bool) : List Char → List Char
  | [] => []
  | c :: rest => (if afterLower ∧ c.isUpper then [' ', c] else [c]) ++ spaceLowerUpper c.isLower rest

/-- `.replace(/^[a-z]/g, match => match.toUpperCase())`: a lowercase first letter becomes
uppercase (`toUpper` leaves any other character as it is). -/
def upperInitial : List Char → List Char
  | c :: rest => c.toUpper :: rest
  | [] => []

/-- The key as the three replacements leave it. -/
def formatKey (key : List Char) : List Char :=
  upperInitial (spaceLowerUpper false (upperAfterDot false key))

/-- `lastIndexOf('.')` and the two `substr`s: the text before the last dot and after it. -/
def splitAtLastDot : List Char → Option (List Char × List Char)
  | [] => none
  | c :: cs =>
    match splitAtLastDot cs with
    | some (before, after) => some (c :: before, after)
    | none => if c = '.' then some ([], cs) else none

/-! ## Trimming the category -/

/-- The length of the match of `^pattern(\.|$)` with the flag `i` at the start of `category`:
the pattern's characters, ignoring case, then a dot, which the match takes, or the end. -/
def matchLength : List Char → List Char → Option Nat
  | [], [] => some 0
  | [], c :: _ => if c = '.' then some 1 else none
  | _ :: _, [] => none
  | p :: ps, c :: cs => if p.toUpper = c.toUpper then (· + 1) <$> matchLength ps cs else none

/-- The `while` loop of `doTrim`, over `parts` as it holds them: reversed when `forward`, so that
`pop` and `shift` both drop the head of the list held. -/
def doTrimLoop (forward : Bool) (category : List Char) : List (List Char) → Option (List Char)
  | [] => none
  | held@(_ :: rest) =>
    match matchLength (['.'].intercalate (if forward then held.reverse else held)) category with
    | some n => some (category.drop n)
    | none => doTrimLoop forward category rest

/-- `doTrim`: the category less the match of the first of the group id's patterns that matches,
`null` (`none`) when none does. -/
def doTrim (groupId : String) (forward : Bool) (category : List Char) : Option (List Char) :=
  let parts := groupId.data.splitOn '.'
  doTrimLoop forward category (if forward then parts.reverse else parts)

/-- `trimCategoryForGroup`. -/
def trimCategoryForGroup (category : String) (group : IResolvedTOCEntry) : String :=
  match doTrim group.id true category.data with
  | some trimmed => ⟨trimmed⟩
  | none =>
    match doTrim group.id false category.data with
    | some trimmed => ⟨trimmed⟩
    | none => category

/-- What `settingKeyToDisplayFormat` returns. -/
structure DisplayFormat where
  category : String
  label : String
  deriving DecidableEq, Repr

/-- `settingKeyToDisplayFormat`. -/
def settingKeyToDisplayFormat (key : String) (group : IResolvedTOCEntry) : DisplayFormat :=
  let label := formatKey key.data
  let (category, label) := match splitAtLastDot label with
    | some (before, after) => (before, after)
    | none => ([], label)
  ⟨trimCategoryForGroup ⟨category⟩ group, ⟨label⟩⟩

example : settingKeyToDisplayFormat "editor.fontSize" (.mk "editor" "Editor" none (some [])) =
    ⟨"", "Font Size"⟩ := by decide
example : settingKeyToDisplayFormat "workbench.editor.showTabs" (.mk "editor" "Editor" none (some [])) =
    ⟨"Workbench.Editor", "Show Tabs"⟩ := by decide
example : settingKeyToDisplayFormat "files.autoSave" (.mk "commonlyUsed" "Commonly Used" none (some [])) =
    ⟨"Files", "Auto Save"⟩ := by decide

/-! ## Formatting goes segment by segment -/

theorem toNat_ofNat_of_lt {n : Nat} (h : n < 0xD800) : (Char.ofNat n).toNat = n := by
  have hv : n.isValidChar := Or.inl h
  simp only [Char.ofNat, hv, dite_true, Char.ofNatAux, Char.toNat]
  rfl

theorem toUpper_eq_dot {c : Char} (h : c.toUpper = '.') : c = '.' := by
  dsimp only [Char.toUpper] at h
  split_ifs at h with hlower
  · have := congrArg Char.toNat h
    rw [toNat_ofNat_of_lt (by omega), show '.'.toNat = 46 from rfl] at this
    omega
  · exact h

theorem upperAfterDot_append_dot (afterDot : Bool) (pre rest : List Char) :
    upperAfterDot afterDot (pre ++ '.' :: rest) = upperAfterDot afterDot pre ++ '.' :: upperAfterDot true rest := by
  induction pre generalizing afterDot with
  | nil => cases afterDot <;> rfl
  | cons c pre ih => rw [List.cons_append]; simp only [upperAfterDot, ih, List.cons_append]

/-- Without a dot, the scan changes at most the first letter. -/
theorem upperAfterDot_of_not_mem {s : List Char} (h : '.' ∉ s) (afterDot : Bool) :
    upperAfterDot afterDot s = if afterDot then upperInitial s else s := by
  induction s generalizing afterDot with
  | nil => cases afterDot <;> rfl
  | cons c s ih =>
    simp only [List.mem_cons, not_or] at h
    simp only [upperAfterDot, decide_eq_false (Ne.symm h.1), ih h.2, if_false]
    cases afterDot <;> rfl

theorem spaceLowerUpper_append_dot (afterLower : Bool) (pre rest : List Char) :
    spaceLowerUpper afterLower (pre ++ '.' :: rest) =
      spaceLowerUpper afterLower pre ++ '.' :: spaceLowerUpper false rest := by
  induction pre generalizing afterLower with
  | nil => cases afterLower <;> rfl
  | cons c pre ih => rw [List.cons_append]; simp only [spaceLowerUpper, ih, List.append_assoc]

theorem not_mem_spaceLowerUpper {s : List Char} (h : '.' ∉ s) (afterLower : Bool) :
    '.' ∉ spaceLowerUpper afterLower s := by
  induction s generalizing afterLower with
  | nil => exact List.not_mem_nil _
  | cons c s ih =>
    simp only [List.mem_cons, not_or] at h
    simp only [spaceLowerUpper, List.mem_append, not_or]
    refine ⟨?_, ih h.2 _⟩
    split_ifs <;> simp [h.1]

theorem not_mem_upperInitial {s : List Char} (h : '.' ∉ s) : '.' ∉ upperInitial s := by
  cases s with
  | nil => exact List.not_mem_nil _
  | cons c s =>
    simp only [upperInitial, List.mem_cons, not_or] at h ⊢
    exact ⟨fun hc => h.1 (toUpper_eq_dot hc.symm).symm, h.2⟩

theorem upperInitial_append_dot (pre rest : List Char) :
    upperInitial (pre ++ '.' :: rest) = upperInitial pre ++ '.' :: rest := by
  cases pre <;> rfl

/-- A key formats as its part before the last dot, the dot, and its last segment formatted on its
own: the replacements never match across a dot. -/
theorem formatKey_append_dot (pre : List Char) {last : List Char} (h : '.' ∉ last) :
    formatKey (pre ++ '.' :: last) = formatKey pre ++ '.' :: spaceLowerUpper false (upperInitial last) := by
  simp only [formatKey, upperAfterDot_append_dot, upperAfterDot_of_not_mem h, if_true,
    spaceLowerUpper_append_dot, upperInitial_append_dot]

theorem not_mem_formatKey {key : List Char} (h : '.' ∉ key) : '.' ∉ formatKey key := by
  rw [formatKey, upperAfterDot_of_not_mem h, if_neg Bool.false_ne_true]
  exact not_mem_upperInitial (not_mem_spaceLowerUpper h false)

theorem splitAtLastDot_of_not_mem : ∀ {s : List Char}, '.' ∉ s → splitAtLastDot s = none
  | [], _ => rfl
  | c :: s, h => by
    simp only [List.mem_cons, not_or] at h
    simp only [splitAtLastDot, splitAtLastDot_of_not_mem h.2, Ne.symm h.1, if_false]

theorem splitAtLastDot_append_dot {last : List Char} (h : '.' ∉ last) :
    ∀ pre : List Char, splitAtLastDot (pre ++ '.' :: last) = some (pre, last)
  | [] => by simp only [List.nil_append, splitAtLastDot, splitAtLastDot_of_not_mem h, if_true]
  | c :: pre => by rw [List.cons_append]; simp only [splitAtLastDot, splitAtLastDot_append_dot h pre]

theorem not_mem_of_splitAtLastDot_eq_none : ∀ {s : List Char}, splitAtLastDot s = none → '.' ∉ s
  | [], _ => List.not_mem_nil _
  | c :: s, h => by
    simp only [splitAtLastDot] at h
    cases hs : splitAtLastDot s with
    | some split => rw [hs] at h; cases h
    | none =>
      rw [hs] at h
      split_ifs at h with hc
      simp only [List.mem_cons, not_or]
      exact ⟨Ne.symm hc, not_mem_of_splitAtLastDot_eq_none hs⟩

theorem splitAtLastDot_eq_some : ∀ {s pre last : List Char}, splitAtLastDot s = some (pre, last) →
    s = pre ++ '.' :: last ∧ '.' ∉ last
  | [], _, _, h => by cases h
  | c :: s, pre, last, h => by
    simp only [splitAtLastDot] at h
    cases hs : splitAtLastDot s with
    | some split =>
      rw [hs] at h
      cases h
      obtain ⟨rfl, hlast⟩ := splitAtLastDot_eq_some hs
      exact ⟨rfl, hlast⟩
    | none =>
      rw [hs] at h
      split_ifs at h with hc
      cases h
      exact ⟨by rw [hc]; rfl, not_mem_of_splitAtLastDot_eq_none hs⟩

/-! ## The trim takes off whole segments -/

/-- What a match of `^pattern(\.|$)` covers: text equal to the pattern but for case, then the end
or a dot. -/
theorem matchLength_eq_some : ∀ {pattern category : List Char} {n : Nat},
    matchLength pattern category = some n →
      ∃ removed, removed.map Char.toUpper = pattern.map Char.toUpper ∧
        (category = removed ∧ category.drop n = [] ∨ category = removed ++ '.' :: category.drop n)
  | [], [], _, _ => ⟨[], rfl, .inl ⟨rfl, List.drop_nil⟩⟩
  | [], c :: cs, n, h => by
    simp only [matchLength] at h
    split_ifs at h with hc
    cases h
    exact ⟨[], rfl, .inr (by rw [hc]; rfl)⟩
  | _ :: _, [], _, h => by cases h
  | p :: ps, c :: cs, n, h => by
    simp only [matchLength] at h
    split_ifs at h with hpc
    obtain ⟨m, hm, rfl⟩ := Option.map_eq_some'.mp h
    obtain ⟨removed, hmap, hcategory⟩ := matchLength_eq_some hm
    refine ⟨c :: removed, by simp only [List.map_cons, hmap, hpc], ?_⟩
    rw [List.drop_succ_cons]
    rcases hcategory with ⟨rfl, hdrop⟩ | hcategory
    · exact .inl ⟨rfl, hdrop⟩
    · exact .inr (by rw [List.cons_append, ← hcategory])

theorem doTrimLoop_eq_some {forward : Bool} {category trimmed : List Char} :
    ∀ {held : List (List Char)}, doTrimLoop forward category held = some trimmed →
      ∃ held', held' <:+ held ∧ held' ≠ [] ∧
        ∃ n, matchLength (['.'].intercalate (if forward then held'.reverse else held')) category = some n ∧
          trimmed = category.drop n
  | [], h => by cases h
  | part :: rest, h => by
    simp only [doTrimLoop] at h
    cases hm : matchLength (['.'].intercalate (if forward then (part :: rest).reverse else part :: rest)) category with
    | some n =>
      rw [hm] at h
      exact ⟨part :: rest, List.suffix_refl _, List.cons_ne_nil _ _, n, hm, (Option.some.inj h).symm⟩
    | none =>
      rw [hm] at h
      obtain ⟨held', hsuffix, hne, hmatch⟩ := doTrimLoop_eq_some h
      exact ⟨held', hsuffix.trans (List.suffix_cons _ _), hne, hmatch⟩

/-- What `doTrim` takes off: the match of a pattern made of a run of the group id's parts, a
leading run when `forward` and a trailing one otherwise. -/
theorem doTrim_eq_some {groupId : String} {forward : Bool} {category trimmed : List Char}
    (h : doTrim groupId forward category = some trimmed) :
    ∃ parts, (parts <+: groupId.data.splitOn '.' ∨ parts <:+ groupId.data.splitOn '.') ∧ parts ≠ [] ∧
      ∃ removed, removed.map Char.toUpper = (['.'].intercalate parts).map Char.toUpper ∧
        (category = removed ∧ trimmed = [] ∨ category = removed ++ '.' :: trimmed) := by
  obtain ⟨held, hsuffix, hne, n, hmatch, rfl⟩ := doTrimLoop_eq_some h
  have hrun : ∃ parts, (parts <+: groupId.data.splitOn '.' ∨ parts <:+ groupId.data.splitOn '.') ∧
      parts ≠ [] ∧ matchLength (['.'].intercalate parts) category = some n := by
    cases forward
    · exact ⟨held, .inr hsuffix, hne, hmatch⟩
    · exact ⟨held.reverse, .inl (by simpa using List.reverse_prefix.mpr hsuffix), by simpa using hne, hmatch⟩
  obtain ⟨parts, hparts, hne, hmatch⟩ := hrun
  exact ⟨parts, hparts, hne, matchLength_eq_some hmatch⟩

/-- The category less the group id's runs, at most one of them, taken off at a segment boundary:
the category unchanged, or the empty string when the whole category matched, or the text after
a dot of the category before which the category spells, ignoring case, a leading or a trailing
run of the group id's parts. -/
theorem trimCategoryForGroup_whole_segments (category : String) (group : IResolvedTOCEntry) :
    trimCategoryForGroup category group = category ∨
      ∃ parts, (parts <+: group.id.data.splitOn '.' ∨ parts <:+ group.id.data.splitOn '.') ∧ parts ≠ [] ∧
        ∃ removed, removed.map Char.toUpper = (['.'].intercalate parts).map Char.toUpper ∧
          (category.data = removed ∧ trimCategoryForGroup category group = "" ∨
            category.data = removed ++ '.' :: (trimCategoryForGroup category group).data) := by
  have hrun : ∀ {forward trimmed}, doTrim group.id forward category.data = some trimmed →
      ∃ parts, (parts <+: group.id.data.splitOn '.' ∨ parts <:+ group.id.data.splitOn '.') ∧ parts ≠ [] ∧
        ∃ removed, removed.map Char.toUpper = (['.'].intercalate parts).map Char.toUpper ∧
          (category.data = removed ∧ (⟨trimmed⟩ : String) = "" ∨ category.data = removed ++ '.' :: trimmed) := by
    intro forward trimmed h
    obtain ⟨parts, hparts, hne, removed, hmap, hcase⟩ := doTrim_eq_some h
    exact ⟨parts, hparts, hne, removed, hmap, hcase.imp_left fun ⟨hc, ht⟩ => ⟨hc, by rw [ht]⟩⟩
  unfold trimCategoryForGroup
  cases hforward : doTrim group.id true category.data with
  | some trimmed => exact .inr (hrun hforward)
  | none =>
    cases hbackward : doTrim group.id false category.data with
    | some trimmed => exact .inr (hrun hbackward)
    | none => exact .inl rfl

theorem trimCategoryForGroup_empty (group : IResolvedTOCEntry) : trimCategoryForGroup "" group = "" := by
  have hempty : ∀ {forward trimmed}, doTrim group.id forward [] = some trimmed → (⟨trimmed⟩ : String) = "" := by
    intro forward trimmed h
    obtain ⟨_, _, _, n, _, rfl⟩ := doTrimLoop_eq_some h
    exact congrArg String.mk List.drop_nil
  unfold trimCategoryForGroup
  split
  · exact hempty ‹_›
  · split
    · exact hempty ‹_›
    · rfl

example : (settingKeyToDisplayFormat "xY" (.mk "g" "G" none none)).label = "X Y" ∧
    (settingKeyToDisplayFormat "a.xY" (.mk "g" "G" none none)).label = "XY" := by decide

end Fxcode.Settings.Display
