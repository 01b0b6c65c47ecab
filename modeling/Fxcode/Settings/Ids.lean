import Fxcode.Settings.Tree
/-!
# The ids of the settings tree's elements

The tree keys its items by `getId`: a group element's id is its group's id, and a setting
element's its setting's key, each with every '.' replaced by '_'.  Distinct group ids and no
setting listed twice in one group do not make these ids distinct: a setting listed under two
groups gets two elements with one id, and so do two keys, or a key and a group id, that differ
only in '.' against '_'.

What does make them distinct is the data the ids come from: the elements the data source can
reach from the root are among those `entryElements` lists, one per group and per listed setting,
and their ids are `entryIds`, the sanitized ids and keys of the table of contents.

* `setting_in_two_groups_duplicates_id`: distinct group ids and settings listed once per group,
  and two reachable elements with one id;
* `reachable_ids_distinct`: when the sanitized group ids and listed keys below the root are
  pairwise distinct, no two elements reachable from the root share an id.
-/

namespace Fxcode.Settings.Tree

open SearchResult SettingsDataSource

/-! ## What the table of contents names -/

mutual

/-- The ids of a group and of every group below it. -/
def groupIds : IResolvedTOCEntry → List String
  | .mk id _ (some children) _ => id :: childrenGroupIds children
  | .mk id _ none _ => [id]

/-- The ids of the groups in `children` and below them. -/
def childrenGroupIds : List IResolvedTOCEntry → List String
  | [] => []
  | child :: children => groupIds child ++ childrenGroupIds children

end

/-- No group lists the same setting twice. -/
inductive ListsSettingsOnce : IResolvedTOCEntry → Prop
  | mk {id label : String} {children : Option (List IResolvedTOCEntry)} {settings : Option (List ISetting)} :
    (∀ list ∈ settings, list.Nodup) → (∀ list ∈ children, ∀ child ∈ list, ListsSettingsOnce child) →
    ListsSettingsOnce (.mk id label children settings)

mutual

/-- The sanitized ids of a group and of what the data source lists below it: the groups below
its children, or its settings' keys. -/
def entryIds : IResolvedTOCEntry → List String
  | .mk id _ (some children) _ => sanitizeElementId id :: childrenIds children
  | .mk id _ none (some settings) => sanitizeElementId id :: settings.map fun setting => sanitizeElementId setting.key
  | .mk id _ none none => [sanitizeElementId id]

/-- The sanitized ids of the groups in `children` and of what is listed below them. -/
def childrenIds : List IResolvedTOCEntry → List String
  | [] => []
  | child :: children => entryIds child ++ childrenIds children

end

/-! ## The elements the data source can list -/

section Elements

variable {Value : Type} (dataSource : SettingsDataSource Value)

mutual

/-- A group's element at `index`, then the elements the data source lists below it. -/
def entryElements : IResolvedTOCEntry → Nat → List (TreeElement Value)
  | group@(.mk _ _ (some children) _), index =>
    .groupTitle (getGroupElement group index) :: childrenElements children 0
  | group@(.mk _ _ none (some settings)), index =>
    .groupTitle (getGroupElement group index) ::
      settings.map fun setting => .setting (dataSource.getSettingElement setting group)
  | group@(.mk _ _ none none), index => [.groupTitle (getGroupElement group index)]

/-- `entryElements` of each group in `children`, by position from `index`. -/
def childrenElements : List IResolvedTOCEntry → Nat → List (TreeElement Value)
  | [], _ => []
  | child :: children, index => entryElements child index ++ childrenElements children (index + 1)

end

mutual

/-- The ids of a group's elements are its `entryIds`. -/
theorem entryElements_ids : ∀ (group : IResolvedTOCEntry) (index : Nat),
    (entryElements dataSource group index).map TreeElement.id = entryIds group
  | .mk _ _ (some children) _, _ => by
    rw [entryElements, List.map_cons, childrenElements_ids children 0, entryIds]
    rfl
  | .mk _ _ none (some settings), _ => by
    rw [entryElements, List.map_cons, List.map_map, entryIds]
    rfl
  | .mk _ _ none none, _ => rfl

/-- The ids of the elements of `children` are their `childrenIds`. -/
theorem childrenElements_ids : ∀ (children : List IResolvedTOCEntry) (index : Nat),
    (childrenElements dataSource children index).map TreeElement.id = childrenIds children
  | [], _ => rfl
  | child :: children, index => by
    rw [childrenElements, List.map_append, entryElements_ids child index, childrenElements_ids children (index + 1),
      childrenIds]

end

/-- The element of the child at position `k` heads its elements among the children's. -/
theorem groupTitle_mem_childrenElements : ∀ (children : List IResolvedTOCEntry) (index k : Nat)
    (hk : k < children.length),
    .groupTitle (getGroupElement children[k] (index + k)) ∈ childrenElements dataSource children index
  | child :: _, _, 0, _ => by
    rw [childrenElements, entryElements.eq_def]
    split <;> simp
  | _ :: children, index, k + 1, hk => by
    rw [childrenElements]
    refine List.mem_append_right _ ?_
    have h := groupTitle_mem_childrenElements children (index + 1) k (by simpa using hk)
    rwa [Nat.add_assoc, Nat.add_comm 1 k] at h

/-- Every element of the children the data source lists for a group with a `children` list is
among the children's elements. -/
theorem mapIdx_subset_childrenElements (children : List IResolvedTOCEntry) {element : TreeElement Value}
    (h : element ∈ children.mapIdx fun i child => .groupTitle (getGroupElement child i)) :
    element ∈ childrenElements dataSource children 0 := by
  obtain ⟨k, hk, rfl⟩ := List.mem_mapIdx.mp h
  simpa using groupTitle_mem_childrenElements dataSource children 0 k hk

/-- A list of elements that holds the children the data source lists for each of them. -/
def Closed (elements : List (TreeElement Value)) : Prop :=
  ∀ element ∈ elements, ∀ children, dataSource._getChildren (.element element) = .ok (some children) →
    ∀ child ∈ children, child ∈ elements

theorem Closed.append {front back : List (TreeElement Value)} (hfront : Closed dataSource front)
    (hback : Closed dataSource back) : Closed dataSource (front ++ back) := by
  intro element helement children hchildren child hchild
  rcases List.mem_append.mp helement with h | h
  · exact List.mem_append_left _ (hfront element h children hchildren child hchild)
  · exact List.mem_append_right _ (hback element h children hchildren child hchild)

/-- Setting elements list no children. -/
theorem closed_settings (group : IResolvedTOCEntry) (settings : List ISetting) :
    Closed dataSource (settings.map fun setting => .setting (dataSource.getSettingElement setting group)) := by
  intro element helement children hchildren
  obtain ⟨setting, -, rfl⟩ := List.mem_map.mp helement
  exact absurd hchildren (_getChildren_setting dataSource _ children)

mutual

/-- A group's elements hold everything the data source lists for any of them. -/
theorem closed_entryElements : ∀ (group : IResolvedTOCEntry) (index : Nat),
    Closed dataSource (entryElements dataSource group index)
  | group@(.mk _ _ (some children) _), index => by
    rw [entryElements]
    intro element helement listed hlisted child hchild
    rcases List.mem_cons.mp helement with rfl | h
    · obtain rfl := Except.ok.inj (_getChildren_groupTitle_ok dataSource hlisted)
      exact List.mem_cons_of_mem _ (mapIdx_subset_childrenElements dataSource children hchild)
    · exact List.mem_cons_of_mem _ (closed_childrenElements children 0 element h listed hlisted child hchild)
  | group@(.mk _ _ none (some settings)), index => by
    rw [entryElements]
    intro element helement listed hlisted child hchild
    rcases List.mem_cons.mp helement with rfl | h
    · obtain rfl := Except.ok.inj (_getChildren_groupTitle_ok dataSource hlisted)
      exact List.mem_cons_of_mem _ hchild
    · exact List.mem_cons_of_mem _ (closed_settings dataSource _ settings element h listed hlisted child hchild)
  | .mk _ _ none none, index => by
    rw [entryElements]
    intro element helement listed hlisted
    rw [List.mem_singleton.mp helement] at hlisted
    cases _getChildren_groupTitle_ok dataSource hlisted

/-- The children's elements hold everything the data source lists for any of them. -/
theorem closed_childrenElements : ∀ (children : List IResolvedTOCEntry) (index : Nat),
    Closed dataSource (childrenElements dataSource children index)
  | [], _ => nofun
  | child :: children, index => by
    rw [childrenElements]
    exact (closed_entryElements child index).append dataSource (closed_childrenElements children (index + 1))

end

/-- What is reachable from a start whose children a closed list holds is in that list. -/
theorem mem_of_reachable {elements : List (TreeElement Value)} (hclosed : Closed dataSource elements)
    {start : TreeElementOrRoot Value} {element : TreeElement Value} (h : Reachable dataSource start element) :
    (∀ children, dataSource._getChildren start = .ok (some children) → ∀ child ∈ children, child ∈ elements) →
      element ∈ elements := by
  induction h with
  | child hchildren hmem => exact fun hstart => hstart _ hchildren _ hmem
  | trans _ _ ihfirst ihlast =>
    exact fun hstart => ihlast fun children hchildren => hclosed _ (ihfirst hstart) children hchildren

/-- What the data source lists for the root is among its children's elements. -/
theorem root_children_mem (toc : IResolvedTOCEntry) (children : List (TreeElement Value))
    (h : dataSource._getChildren (.entry toc) = .ok (some children)) :
    ∀ child ∈ children, child ∈ childrenElements dataSource (toc.children.getD []) 0 := by
  unfold SettingsDataSource._getChildren SettingsDataSource.getRootChildren at h
  split_ifs at h
  · obtain ⟨id, label, tocChildren, settings⟩ := toc
    cases tocChildren with
    | none => cases h
    | some tocChildren =>
      cases h
      exact fun _ hchild => mapIdx_subset_childrenElements dataSource tocChildren hchild
  · cases h

end Elements

/-! ## Distinct ids -/

/-- Two groups with distinct ids, `a` and `b` below the root, each listing `editor.fontSize` once:
the setting's two elements, one under each group, are reachable and share one id (the view state
and the configuration play no part in ids). -/
theorem setting_in_two_groups_duplicates_id :
    let dataSource : SettingsDataSource Nat := ⟨⟨.user, false⟩, fun _ _ => ⟨none, none, none, none⟩⟩
    let fontSize : ISetting := ⟨"editor.fontSize", []⟩
    let groupA := IResolvedTOCEntry.mk "a" "A" none (some [fontSize])
    let groupB := IResolvedTOCEntry.mk "b" "B" none (some [fontSize])
    let toc := IResolvedTOCEntry.mk "root" "" (some [groupA, groupB]) none
    (groupIds toc).Nodup ∧ ListsSettingsOnce toc ∧
      ¬∀ first second : TreeElement Nat, Reachable dataSource (.entry toc) first →
        Reachable dataSource (.entry toc) second → getId (.element first) = getId (.element second) →
        first = second := by
  intro dataSource fontSize groupA groupB toc
  have hgroup : ∀ id label, ListsSettingsOnce (.mk id label none (some [fontSize])) := fun _ _ =>
    .mk (by simp) nofun
  refine ⟨by decide, .mk nofun ?_, fun h => ?_⟩
  · rintro _ ⟨⟩ child hchild
    rcases List.mem_cons.mp hchild with rfl | hchild
    · exact hgroup _ _
    · rw [List.mem_singleton.mp hchild]
      exact hgroup _ _
  · have hsame := h _ _ (.trans (.child rfl (List.mem_cons_self _ _)) (.child rfl (List.mem_singleton_self _)))
      (.trans (.child rfl (List.mem_cons_of_mem _ (List.mem_singleton_self _))) (.child rfl (List.mem_singleton_self _)))
      rfl
    have hparent : "a" = "b" := congrArg (fun element : TreeElement Nat => match element with
      | .setting setting => setting.parent.id
      | .groupTitle _ => "") hsame
    exact absurd hparent (by decide)

/-- When the sanitized ids of the groups below the root and of the keys they list are pairwise
distinct, no two elements the data source can reach from the root share an id. -/
theorem reachable_ids_distinct {Value : Type} (dataSource : SettingsDataSource Value) (toc : IResolvedTOCEntry)
    (hids : (childrenIds (toc.children.getD [])).Nodup) :
    ∀ first second : TreeElement Value, Reachable dataSource (.entry toc) first →
      Reachable dataSource (.entry toc) second →
      getId (.element first) = getId (.element second) → first = second := by
  intro first second hfirst hsecond hid
  have hclosed := closed_childrenElements dataSource (toc.children.getD []) 0
  have hmem : ∀ element, Reachable dataSource (.entry toc) element →
      element ∈ childrenElements dataSource (toc.children.getD []) 0 :=
    fun element h => mem_of_reachable dataSource hclosed h (root_children_mem dataSource toc)
  rw [← childrenElements_ids dataSource _ 0] at hids
  exact List.inj_on_of_nodup_map hids (hmem _ hfirst) (hmem _ hsecond) hid

/-- Below the root, group `workbench` over groups `editor` and `files`, and group `extensions`. -/
theorem reachable_ids_distinct_workbench :
    let toc := IResolvedTOCEntry.mk "root" ""
      (some [.mk "workbench" "Workbench"
          (some [.mk "editor" "Editor" none (some [⟨"editor.fontSize", []⟩, ⟨"editor.tabSize", []⟩]),
            .mk "files" "Files" none (some [⟨"files.autoSave", []⟩])]) none,
        .mk "extensions" "Extensions" none (some [⟨"extensions.autoUpdate", []⟩])]) none
    (childrenIds (toc.children.getD [])).Nodup ∧
      ∀ first second : TreeElement Nat,
        Reachable ⟨⟨.user, false⟩, fun _ _ => ⟨none, none, none, none⟩⟩ (.entry toc) first →
        Reachable ⟨⟨.user, false⟩, fun _ _ => ⟨none, none, none, none⟩⟩ (.entry toc) second →
        getId (.element first) = getId (.element second) → first = second :=
  have hids : (childrenIds [.mk "workbench" "Workbench"
      (some [.mk "editor" "Editor" none (some [⟨"editor.fontSize", []⟩, ⟨"editor.tabSize", []⟩]),
        .mk "files" "Files" none (some [⟨"files.autoSave", []⟩])]) none,
      .mk "extensions" "Extensions" none (some [⟨"extensions.autoUpdate", []⟩])]).Nodup := by
    decide
  ⟨hids, reachable_ids_distinct ⟨⟨.user, false⟩, fun _ _ => ⟨none, none, none, none⟩⟩ _ hids⟩

end Fxcode.Settings.Tree
