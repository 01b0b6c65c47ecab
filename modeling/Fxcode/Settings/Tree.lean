import Fxcode.Settings.SearchResult
/-!
# The settings tree: data source and filter

`SettingsDataSource` turns the resolved table of contents into tree elements: the root's
children become group elements, and a group's children become group elements when it has a
`children` list (even an empty one), and setting elements of its `settings` otherwise.
`SettingsTreeFilter` shows, when only configured settings are wanted, the configured settings and
the groups `groupHasConfiguredSetting` accepts; that function walks the same table of contents
on its own, making the same `children`-or-`settings` choice at every group.

An element's id is its group id or setting key with every '.' replaced by '_', and the data
source recognises the root by its id alone: any element whose id is `root` is taken for the root,
and asking for its children reads the `children` of an element, which has none.

What the tree takes from outside is a parameter: the configuration service's `inspect`, for a
key and the resource a folder target names.  A missing `children` or `settings` (`undefined`) is
`none`, and reading through it is the `TypeError` it throws.

* `reachable_iff`: an element is reachable from another through `_getChildren` exactly when it is
  one of its children or reachable from one of them;
* `not_reachable_from_setting`: nothing is reachable from a setting element.
-/

namespace Fxcode.Settings.Tree

open SearchResult

/-- `IResolvedTOCEntry`: a group of the table of contents, with its subgroups or its settings.
Either list may be missing (`none`); an empty `children` list is present all the same. -/
inductive IResolvedTOCEntry
  | mk (id : String) (label : String) (children : Option (List IResolvedTOCEntry))
      (settings : Option (List ISetting))

namespace IResolvedTOCEntry

/-- `id`. -/
def id : IResolvedTOCEntry → String
  | mk id _ _ _ => id

/-- `children`. -/
def children : IResolvedTOCEntry → Option (List IResolvedTOCEntry)
  | mk _ _ children _ => children

/-- `settings`. -/
def settings : IResolvedTOCEntry → Option (List ISetting)
  | mk _ _ _ settings => settings

end IResolvedTOCEntry

/-- The `TypeError` of reading through `undefined`. -/
structure TypeError where
  deriving DecidableEq, Repr

/-! ## Inspecting a setting -/

/-- `SettingsTarget`: the user settings, the workspace settings, or a folder's, named by its URI. -/
inductive SettingsTarget
  | user
  | workspace
  | folder (resource : String)
  deriving DecidableEq, Repr

/-- The `targetSelector` `inspectSetting` reads a target's value under. -/
inductive TargetSelector
  | user
  | workspace
  | workspaceFolder
  deriving DecidableEq, Repr

/-- What `IConfigurationService.inspect` reports of a key: its value at each level, `none` where
it is `undefined`. -/
structure Inspected (Value : Type) where
  default : Option Value
  user : Option Value
  workspace : Option Value
  workspaceFolder : Option Value

/-- `inspected[targetSelector]`. -/
def Inspected.get {Value : Type} (inspected : Inspected Value) : TargetSelector → Option Value
  | .user => inspected.user
  | .workspace => inspected.workspace
  | .workspaceFolder => inspected.workspaceFolder

/-- What `inspectSetting` returns. -/
structure InspectResult (Value : Type) where
  isConfigured : Bool
  inspected : Inspected Value
  targetSelector : TargetSelector

/-- `inspectSetting`: the key's values, inspected for the folder a folder target names, and
whether the target's own level sets it. -/
def inspectSetting {Value : Type} (key : String) (target : SettingsTarget)
    (configurationService : String → Option String → Inspected Value) : InspectResult Value :=
  let inspectOverrides := match target with
    | .folder resource => some resource
    | _ => none
  let inspected := configurationService key inspectOverrides
  let targetSelector : TargetSelector := match target with
    | .user => .user
    | .workspace => .workspace
    | .folder _ => .workspaceFolder
  ⟨(inspected.get targetSelector).isSome, inspected, targetSelector⟩

/-- `ISettingsEditorViewState`; a missing `showConfiguredOnly` reads as `false`. -/
structure ISettingsEditorViewState where
  settingsTarget : SettingsTarget
  showConfiguredOnly : Bool
  deriving DecidableEq, Repr

/-! ## Tree elements -/

/-- `ISettingElement`, with the fields the data source fills that the tree and the filter read
(the display label and category, `enum` and `valueType` are the renderer's). -/
structure ISettingElement (Value : Type) where
  parent : IResolvedTOCEntry
  id : String
  setting : ISetting
  value : Option Value
  isConfigured : Bool
  overriddenScopeList : List String
  description : String

/-- `IGroupElement`. -/
structure IGroupElement where
  group : IResolvedTOCEntry
  id : String
  index : Nat

/-- `TreeElement`. -/
inductive TreeElement (Value : Type)
  | setting (element : ISettingElement Value)
  | groupTitle (element : IGroupElement)

/-- `element.id`. -/
def TreeElement.id {Value : Type} : TreeElement Value → String
  | .setting element => element.id
  | .groupTitle element => element.id

/-- `TreeElementOrRoot`: an element, a table-of-contents entry (the tree's input), or the search
result model. -/
inductive TreeElementOrRoot (Value : Type)
  | element (element : TreeElement Value)
  | entry (entry : IResolvedTOCEntry)
  | searchResultModel (model : SearchResultModel)

/-- `element.id`; the search result model's is `searchResultModel`. -/
def TreeElementOrRoot.id {Value : Type} : TreeElementOrRoot Value → String
  | .element e => e.id
  | .entry e => e.id
  | .searchResultModel _ => "searchResultModel"

/-- `sanitizeElementId`: every '.' replaced by '_'. -/
def sanitizeElementId (id : String) : String := ⟨id.data.map fun c => if c = '.' then '_' else c⟩

/-- `isRoot`. -/
def isRoot {Value : Type} (element : TreeElementOrRoot Value) : Bool := element.id = "root"

/-! ## The data source -/

/-- `SettingsDataSource`. -/
structure SettingsDataSource (Value : Type) where
  viewState : ISettingsEditorViewState
  configurationService : String → Option String → Inspected Value

namespace SettingsDataSource

variable {Value : Type} (dataSource : SettingsDataSource Value)

/-- `getGroupElement`. -/
def getGroupElement (group : IResolvedTOCEntry) (index : Nat) : IGroupElement :=
  ⟨group, sanitizeElementId group.id, index⟩

/-- `getSettingElement`. -/
def getSettingElement (setting : ISetting) (group : IResolvedTOCEntry) : ISettingElement Value :=
  let result := inspectSetting setting.key dataSource.viewState.settingsTarget dataSource.configurationService
  let displayValue := if result.isConfigured then result.inspected.get result.targetSelector
    else result.inspected.default
  let overriddenScopeList :=
    (if result.targetSelector = .user ∧ result.inspected.workspace.isSome then ["Workspace"] else []) ++
      (if result.targetSelector = .workspace ∧ result.inspected.user.isSome then ["User"] else [])
  ⟨group, sanitizeElementId setting.key, setting, displayValue, result.isConfigured, overriddenScopeList,
    String.intercalate "\n" setting.description⟩

/-- `getRootChildren`, for whatever `isRoot` accepted: only an entry has `children`. -/
def getRootChildren : TreeElementOrRoot Value → Except TypeError (List (TreeElement Value))
  | .entry root =>
    match root.children with
    | some children => .ok (children.mapIdx fun i g => .groupTitle (getGroupElement g i))
    | none => .error ⟨⟩
  | _ => .error ⟨⟩

/-- `getGroupChildren`: group elements of the children when there is a `children` list, setting
elements of the settings otherwise. -/
def getGroupChildren (group : IResolvedTOCEntry) : Except TypeError (List (TreeElement Value)) :=
  match group.children with
  | some children => .ok (children.mapIdx fun i child => .groupTitle (getGroupElement child i))
  | none =>
    match group.settings with
    | some settings => .ok (settings.map fun setting => .setting (dataSource.getSettingElement setting group))
    | none => .error ⟨⟩

/-- The entry `resultsAsGroup` returns, which has settings and no `children`. -/
def searchResultGroup (model : SearchResultModel) : IResolvedTOCEntry :=
  let group := (resultsAsGroup model).1
  .mk group.id group.label none (some group.settings)

/-- `_getChildren`; `none` is its `null`.  For the search result model the children are those
of `resultsAsGroup`, whose caching is `SearchResult.step` with `.resultsAsGroup`. -/
def _getChildren (element : TreeElementOrRoot Value) : Except TypeError (Option (List (TreeElement Value))) :=
  if isRoot element then some <$> getRootChildren element
  else
    match element with
    | .searchResultModel model => some <$> dataSource.getGroupChildren (searchResultGroup model)
    | .element (.groupTitle group) => some <$> dataSource.getGroupChildren group.group
    | _ => .ok none

/-- `hasChildren`. -/
def hasChildren (element : TreeElementOrRoot Value) : Bool :=
  match element with
  | .searchResultModel _ => true
  | .element (.groupTitle _) => true
  | _ => isRoot element

/-- `getId`. -/
def getId (element : TreeElementOrRoot Value) : String := element.id

end SettingsDataSource

/-! ## The filter -/

/-- `SettingsTreeFilter`. -/
structure SettingsTreeFilter (Value : Type) where
  viewState : ISettingsEditorViewState
  configurationService : String → Option String → Inspected Value

namespace SettingsTreeFilter

variable {Value : Type} (filter : SettingsTreeFilter Value)

mutual

/-- `groupHasConfiguredSetting`: through the children when there is a `children` list, over the
settings otherwise. -/
def groupHasConfiguredSetting : IResolvedTOCEntry → Except TypeError Bool
  | .mk _ _ (some children) _ => someGroupHasConfiguredSetting children
  | .mk _ _ none (some settings) =>
    .ok (settings.any fun setting =>
      (inspectSetting setting.key filter.viewState.settingsTarget filter.configurationService).isConfigured)
  | .mk _ _ none none => .error ⟨⟩

/-- `children.some(c => this.groupHasConfiguredSetting(c))`, which stops at the first `true`. -/
def someGroupHasConfiguredSetting : List IResolvedTOCEntry → Except TypeError Bool
  | [] => .ok false
  | child :: children =>
    match groupHasConfiguredSetting child with
    | .error e => .error e
    | .ok true => .ok true
    | .ok false => someGroupHasConfiguredSetting children

end

/-- `isVisible`. -/
def isVisible : TreeElement Value → Except TypeError Bool
  | .setting element => if filter.viewState.showConfiguredOnly then .ok element.isConfigured else .ok true
  | .groupTitle element =>
    if filter.viewState.showConfiguredOnly then filter.groupHasConfiguredSetting element.group else .ok true

end SettingsTreeFilter

/-! ## Reachable elements -/

section Reachable

variable {Value : Type} (dataSource : SettingsDataSource Value)

/-- `element` is reachable from `start` through repeated `_getChildren` calls. -/
inductive Reachable : TreeElementOrRoot Value → TreeElement Value → Prop
  | child {start : TreeElementOrRoot Value} {children : List (TreeElement Value)} {element : TreeElement Value} :
    dataSource._getChildren start = .ok (some children) → element ∈ children → Reachable start element
  | trans {start : TreeElementOrRoot Value} {middle element : TreeElement Value} :
    Reachable start middle → Reachable (.element middle) element → Reachable start element

/-- An element is reachable exactly when it is a child, or reachable from a child. -/
theorem reachable_iff {start : TreeElementOrRoot Value} {element : TreeElement Value} :
    Reachable dataSource start element ↔
      ∃ children, dataSource._getChildren start = .ok (some children) ∧
        ∃ child ∈ children, child = element ∨ Reachable dataSource (.element child) element := by
  constructor
  · intro h
    induction h with
    | child hchildren hmem => exact ⟨_, hchildren, _, hmem, .inl rfl⟩
    | trans _ hlast ih =>
      obtain ⟨children, hchildren, child, hmem, hchild⟩ := ih
      refine ⟨children, hchildren, child, hmem, .inr ?_⟩
      rcases hchild with rfl | hreach
      · exact hlast
      · exact .trans hreach hlast
  · rintro ⟨children, hchildren, child, hmem, rfl | hreach⟩
    · exact .child hchildren hmem
    · exact .trans (.child hchildren hmem) hreach

/-- A setting element lists no children: asking gives `null`, or the `TypeError` of one whose id
is `root`. -/
theorem _getChildren_setting (element : ISettingElement Value) (children : List (TreeElement Value)) :
    dataSource._getChildren (.element (.setting element)) ≠ .ok (some children) := by
  unfold SettingsDataSource._getChildren SettingsDataSource.getRootChildren
  split_ifs <;> nofun

/-- A group element lists, when it lists anything, its group's children. -/
theorem _getChildren_groupTitle_ok {element : IGroupElement} {children : List (TreeElement Value)}
    (h : dataSource._getChildren (.element (.groupTitle element)) = .ok (some children)) :
    dataSource.getGroupChildren element.group = .ok children := by
  unfold SettingsDataSource._getChildren SettingsDataSource.getRootChildren at h
  split_ifs at h
  · cases h
  · simp only [Functor.map, Except.map] at h
    split at h <;> cases h
    assumption

/-- Nothing is reachable from a setting element. -/
theorem not_reachable_from_setting (element : ISettingElement Value) (descendant : TreeElement Value) :
    ¬Reachable dataSource (.element (.setting element)) descendant := by
  intro h
  obtain ⟨children, hchildren, -⟩ := (reachable_iff dataSource).mp h
  exact _getChildren_setting dataSource element children hchildren

end Reachable

/-! ## Children of a group element -/

/-- A sanitized id is `root` only for the id `root`, which has no '.'. -/
theorem sanitizeElementId_eq_root {id : String} (h : sanitizeElementId id = "root") : id = "root" := by
  obtain ⟨cs⟩ := id
  have hdata : cs.map (fun c => if c = '.' then '_' else c) = "root".data := congrArg String.data h
  have hfixed : ∀ c ∈ cs, (if c = '.' then '_' else c) = c := by
    intro c hc
    have hmem := hdata ▸ List.mem_map_of_mem (fun c => if c = '.' then '_' else c) hc
    split_ifs at hmem ⊢
    · exact absurd hmem (by decide)
    · rfl
  rw [List.map_congr_left hfixed, List.map_id'] at hdata
  exact congrArg String.mk hdata

namespace SettingsDataSource

variable {Value : Type} (dataSource : SettingsDataSource Value)

/-- A group element whose id is not `root` has its group's children. -/
theorem _getChildren_groupTitle (group : IResolvedTOCEntry) (index : Nat) (hid : group.id ≠ "root") :
    dataSource._getChildren (.element (.groupTitle (getGroupElement group index))) =
      some <$> dataSource.getGroupChildren group := by
  have hroot : isRoot (.element (.groupTitle (getGroupElement group index)) : TreeElementOrRoot Value) = false := by
    simpa [isRoot, TreeElementOrRoot.id, TreeElement.id, getGroupElement] using
      mt sanitizeElementId_eq_root hid
  rw [_getChildren, hroot, if_neg Bool.false_ne_true]
  rfl

/-- The children a group with a `children` list shows: a group element for each, by position. -/
theorem getGroupChildren_children (id label : String) (children : List IResolvedTOCEntry)
    (settings : Option (List ISetting)) :
    dataSource.getGroupChildren (.mk id label (some children) settings) =
      .ok (children.mapIdx fun i child => .groupTitle (getGroupElement child i)) := rfl

/-- The children a group without a `children` list shows: a setting element for each setting. -/
theorem getGroupChildren_settings (id label : String) (settings : List ISetting) :
    dataSource.getGroupChildren (.mk id label none (some settings)) =
      .ok (settings.map fun setting => .setting (dataSource.getSettingElement setting (.mk id label none (some settings)))) :=
  rfl

end SettingsDataSource

end Fxcode.Settings.Tree
