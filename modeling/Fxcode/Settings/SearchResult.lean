import Mathlib.Data.List.Nodup
/-!
# The settings search result model

`SearchResultModel` holds the latest local and remote search results and shows them as one
group of settings: the local matches, then the remote ones whose key the local result does
not already list.  `getUniqueResults` caches that merge until the next `setResult`.

* `resultsAsGroup_run`: after any interleaving of `setResult`, `getUniqueResults` and
  `resultsAsGroup`, the group holds exactly the merge of the latest two results, never a
  cached merge of older ones; with distinct keys within each result, its keys are distinct
  and are the union of both results' keys.

The cache's invariant is `CacheFresh`: no cache, or the merge of the current raw results.
Values have no identity here, so the `deepClone` before the remote filter is the identity:
filtering the clone cannot reach the stored result, which is what the clone is for.
-/

namespace Fxcode.Settings.SearchResult

/-- `ISetting`, with the fields the settings editor reads. -/
structure ISetting where
  key : String
  description : List String
  deriving DecidableEq, Repr

/-- `ISettingMatch`: a setting a search matched. -/
structure ISettingMatch where
  setting : ISetting
  deriving DecidableEq, Repr

/-- `ISearchResult`. -/
structure ISearchResult where
  filterMatches : List ISettingMatch
  deriving DecidableEq, Repr

/-- `SearchResultIdx`. -/
inductive SearchResultIdx
  | Local
  | Remote
  deriving DecidableEq, Repr

/-- The entry `resultsAsGroup` returns (an `IResolvedTOCEntry` without children). -/
structure SearchResultGroup where
  id : String
  settings : List ISetting
  label : String
  deriving DecidableEq, Repr

/-- `rawSearchResults` (`none` until the first `setResult`; a hole reads as `none`) and
`cachedUniqueSearchResults`. -/
structure SearchResultModel where
  rawSearchResults : Option (SearchResultIdx → Option ISearchResult)
  cachedUniqueSearchResults : Option (List (Option ISearchResult))

/-- A new model: nothing set, nothing cached. -/
def initial : SearchResultModel := ⟨none, none⟩

/-- `objects.deepClone`: on values a clone is the value itself. -/
def deepClone {α : Type} (a : α) : α := a

/-- The matches of a result, none for a missing one. -/
def matchesOf (result : Option ISearchResult) : List ISettingMatch :=
  (result.map (·.filterMatches)).getD []

/-- The keys of a result's matches. -/
def matchKeys (result : Option ISearchResult) : List String :=
  (matchesOf result).map (·.setting.key)

/-- The merge `getUniqueResults` computes from the raw results: the local result, and the
remote result without the matches whose key the local one lists. -/
def uniqueResults (raw : SearchResultIdx → Option ISearchResult) : List (Option ISearchResult) :=
  let localResult := deepClone (raw .Local)
  let localMatchKeys := matchKeys localResult
  let remoteResult := (deepClone (raw .Remote)).map fun r =>
    { r with filterMatches := r.filterMatches.filter fun m => m.setting.key ∉ localMatchKeys }
  [localResult, remoteResult]

/-- `getUniqueResults`: the cached merge if there is one, `[]` before any result, and
otherwise the merge, now cached. -/
def getUniqueResults (model : SearchResultModel) : List (Option ISearchResult) × SearchResultModel :=
  match model.cachedUniqueSearchResults, model.rawSearchResults with
  | some cached, _ => (cached, model)
  | none, none => ([], model)
  | none, some raw => (uniqueResults raw, { model with cachedUniqueSearchResults := some (uniqueResults raw) })

/-- `setResult`: drops the cache and stores `result` at index `type`. -/
def setResult (type : SearchResultIdx) (result : Option ISearchResult) (model : SearchResultModel) :
    SearchResultModel :=
  let raw := model.rawSearchResults.getD fun _ => none
  ⟨some fun idx => if idx = type then result else raw idx, none⟩

/-- `resultsAsGroup`: the settings of every present merged result's matches, in order. -/
def resultsAsGroup (model : SearchResultModel) : SearchResultGroup × SearchResultModel :=
  let (unique, model) := getUniqueResults model
  let flatSettings := (unique.filterMap id).flatMap fun r => r.filterMatches.map (·.setting)
  (⟨"settingsSearchResultGroup", flatSettings, "searchResults"⟩, model)

/-- A call on the model. -/
inductive Op
  | setResult (type : SearchResultIdx) (result : Option ISearchResult)
  | getUniqueResults
  | resultsAsGroup

/-- The model after one call. -/
def step (model : SearchResultModel) : Op → SearchResultModel
  | .setResult type result => setResult type result model
  | .getUniqueResults => (getUniqueResults model).2
  | .resultsAsGroup => (resultsAsGroup model).2

/-- The model after a sequence of calls. -/
def run (model : SearchResultModel) (ops : List Op) : SearchResultModel := ops.foldl step model

/-! ## What the group should hold -/

/-- The result the latest `setResult` of `type` stored, starting from `acc`. -/
def latestFrom (type : SearchResultIdx) (acc : Option ISearchResult) : List Op → Option ISearchResult
  | [] => acc
  | .setResult type' result :: ops => latestFrom type (if type = type' then result else acc) ops
  | _ :: ops => latestFrom type acc ops

/-- The result the latest `setResult` of `type` stored, `none` if there was none. -/
def latest (type : SearchResultIdx) (ops : List Op) : Option ISearchResult := latestFrom type none ops

/-- The settings of the local matches, then those of the remote matches whose key is not
among the local match keys. -/
def expectedSettings (localResult remoteResult : Option ISearchResult) : List ISetting :=
  (matchesOf localResult).map (·.setting) ++
    ((matchesOf remoteResult).filter fun m => m.setting.key ∉ matchKeys localResult).map (·.setting)

/-- The keys of the expected settings: the local keys, then the remote keys not among them. -/
theorem expectedSettings_keys (localResult remoteResult : Option ISearchResult) :
    (expectedSettings localResult remoteResult).map (·.key) =
      matchKeys localResult ++ (matchKeys remoteResult).filter (· ∉ matchKeys localResult) := by
  simp only [expectedSettings, matchKeys, List.map_append, List.map_map, List.filter_map]
  rfl

/-- With distinct keys within each result, the expected settings have distinct keys, and
their keys are those of either result. -/
theorem expectedSettings_keys_union (localResult remoteResult : Option ISearchResult)
    (hl : (matchKeys localResult).Nodup) (hr : (matchKeys remoteResult).Nodup) :
    ((expectedSettings localResult remoteResult).map (·.key)).Nodup ∧
      ∀ k, k ∈ (expectedSettings localResult remoteResult).map (·.key) ↔
        k ∈ matchKeys localResult ∨ k ∈ matchKeys remoteResult := by
  rw [expectedSettings_keys]
  refine ⟨hl.append (hr.filter _) fun k hk hk' => ?_, fun k => ?_⟩
  · simp_all [List.mem_filter]
  · by_cases hk : k ∈ matchKeys localResult <;> simp [List.mem_filter, hk]

/-! ## The cache stays fresh -/

/-- The result the model holds at `type`. -/
def current (model : SearchResultModel) (type : SearchResultIdx) : Option ISearchResult :=
  model.rawSearchResults.bind (· type)

/-- What `getUniqueResults` computes when nothing is cached. -/
def merged (model : SearchResultModel) : List (Option ISearchResult) :=
  match model.rawSearchResults with
  | none => []
  | some raw => uniqueResults raw

/-- A cached merge is the merge of the current raw results. -/
def CacheFresh (model : SearchResultModel) : Prop :=
  ∀ cached, model.cachedUniqueSearchResults = some cached → cached = merged model

theorem cacheFresh_initial : CacheFresh initial := nofun

theorem cacheFresh_setResult (type result model) : CacheFresh (setResult type result model) :=
  nofun

@[simp] theorem current_setResult (type result model) (idx : SearchResultIdx) :
    current (setResult type result model) idx = if idx = type then result else current model idx := by
  cases h : model.rawSearchResults <;> simp [current, setResult, h]

/-- Under a fresh cache, `getUniqueResults` returns the merge of the current raw results,
leaves them as they are and keeps the cache fresh. -/
theorem getUniqueResults_fresh {model : SearchResultModel} (h : CacheFresh model) :
    (getUniqueResults model).1 = merged model ∧
      (getUniqueResults model).2.rawSearchResults = model.rawSearchResults ∧
      CacheFresh (getUniqueResults model).2 := by
  cases hc : model.cachedUniqueSearchResults with
  | some cached => simp only [getUniqueResults, hc, true_and]; exact ⟨h cached hc, h⟩
  | none =>
    cases hr : model.rawSearchResults <;>
      simp [getUniqueResults, CacheFresh, merged, hc, hr]

/-- The settings `resultsAsGroup` flattens out of a pair of results. -/
theorem flatSettings_pair (a b : Option ISearchResult) :
    ([a, b].filterMap id).flatMap (fun r => r.filterMatches.map (·.setting)) =
      (matchesOf a).map (·.setting) ++ (matchesOf b).map (·.setting) := by
  cases a <;> cases b <;> simp [matchesOf]

/-- The settings of the merge are the expected settings of the current results. -/
theorem flatSettings_merged (model : SearchResultModel) :
    ((merged model).filterMap id).flatMap (fun r => r.filterMatches.map (·.setting)) =
      expectedSettings (current model .Local) (current model .Remote) := by
  unfold merged
  split
  · rename_i hr
    simp [expectedSettings, current, hr, matchesOf]
  · rename_i raw hr
    have hremote : ∀ (p : ISettingMatch → Bool) (r : Option ISearchResult),
        matchesOf (r.map fun r => { r with filterMatches := r.filterMatches.filter p }) =
          (matchesOf r).filter p := by
      intro p r; cases r <;> rfl
    simp only [uniqueResults, deepClone, flatSettings_pair, hremote, expectedSettings, current, hr,
      Option.some_bind]

/-- One call keeps the cache fresh and stores what `setResult` stored. -/
theorem step_fresh {model : SearchResultModel} (h : CacheFresh model) (op : Op) :
    CacheFresh (step model op) ∧
      ∀ idx, current (step model op) idx =
        match op with
        | .setResult type result => if idx = type then result else current model idx
        | _ => current model idx := by
  obtain ⟨-, hraw, hfresh⟩ := getUniqueResults_fresh h
  cases op with
  | setResult type result => exact ⟨cacheFresh_setResult type result model, current_setResult type result model⟩
  | getUniqueResults => exact ⟨hfresh, fun idx => by simp only [step, current, hraw]⟩
  | resultsAsGroup => exact ⟨hfresh, fun idx => by simp only [step, resultsAsGroup, current, hraw]⟩

/-- Over a run the cache stays fresh and each index holds the latest result stored there. -/
theorem run_fresh (ops : List Op) {model : SearchResultModel} (h : CacheFresh model) :
    CacheFresh (run model ops) ∧
      ∀ idx, current (run model ops) idx = latestFrom idx (current model idx) ops := by
  induction ops generalizing model with
  | nil => exact ⟨h, fun _ => rfl⟩
  | cons op ops ih =>
    obtain ⟨hstep, hcurrent⟩ := step_fresh h op
    refine ⟨(ih hstep).1, fun idx => ?_⟩
    rw [run, List.foldl_cons, ← run, (ih hstep).2, hcurrent]
    cases op <;> rfl

/-- After any sequence of calls, `resultsAsGroup` returns the settings of the latest local
result, then those of the latest remote result whose key the local one does not list; with
distinct keys within each result, the keys it returns are distinct and are the union of
both results' keys. -/
theorem resultsAsGroup_run (ops : List Op) :
    (resultsAsGroup (run initial ops)).1.settings =
        expectedSettings (latest .Local ops) (latest .Remote ops) ∧
      ((matchKeys (latest .Local ops)).Nodup → (matchKeys (latest .Remote ops)).Nodup →
        ((resultsAsGroup (run initial ops)).1.settings.map (·.key)).Nodup ∧
          ∀ k, k ∈ (resultsAsGroup (run initial ops)).1.settings.map (·.key) ↔
            k ∈ matchKeys (latest .Local ops) ∨ k ∈ matchKeys (latest .Remote ops)) := by
  obtain ⟨hfresh, hcurrent⟩ := run_fresh ops cacheFresh_initial
  have hgroup : (resultsAsGroup (run initial ops)).1.settings =
      expectedSettings (latest .Local ops) (latest .Remote ops) := by
    simp only [resultsAsGroup, (getUniqueResults_fresh hfresh).1, flatSettings_merged, hcurrent]
    rfl
  exact ⟨hgroup, hgroup ▸ expectedSettings_keys_union _ _⟩

/-- A merge cached before the remote result arrived is not what the group shows after it. -/
theorem resultsAsGroup_run_remote_after_cache :
    let ops := [Op.setResult .Local (some ⟨[⟨⟨"a", []⟩⟩]⟩), .resultsAsGroup,
      .setResult .Remote (some ⟨[⟨⟨"a", ["remote"]⟩⟩, ⟨⟨"b", []⟩⟩]⟩), .resultsAsGroup]
    (resultsAsGroup (run initial ops)).1.settings = [⟨"a", []⟩, ⟨"b", []⟩] ∧
      ((resultsAsGroup (run initial ops)).1.settings.map (·.key)).Nodup :=
  ⟨(resultsAsGroup_run _).1.trans (by decide),
    ((resultsAsGroup_run _).2 (by decide) (by decide)).1⟩

end Fxcode.Settings.SearchResult
