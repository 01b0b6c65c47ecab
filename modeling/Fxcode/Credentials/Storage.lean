import Fxcode.Credentials.Provider
/-!
# Memory and storage

The provider changes its in-memory list first and writes it to `localStorage` after, with
no rollback.  This module states what that means for every call and every point of
failure, and what a corrupted item does to the calls.

* `calls_not_atomic`: the in-memory list a call leaves does not depend on whether its
  writes succeed; a resolved call keeps memory and storage in agreement, as long as the list
  holds no infinite number (which `JSON.stringify` writes as `null`); a rejected call leaves
  the item as it was before its failing write.  `setPassword_rejected_keeps_push` is a
  rejected `setPassword` whose push stays in memory.
* `null_element_rejects_getPassword`: an item `[null]` makes `getPassword` reject, and a
  record without `password` makes it resolve to `undefined`.
* `calls_resolve_on_null_free_storage`: without `null` elements, no call rejects.
-/

namespace Fxcode.Credentials.Storage

open Fxcode.Credentials.Provider

variable (fits : List JsonValue → Bool) (service account password : String) (w : World)

/-- The item, decoded as the `credentials` getter decodes it, is the in-memory list. -/
def Agree (w : World) : Prop := decodeStored w.stored = w.list

/-- The list comes back from `JSON.stringify` and `JSON.parse` as it was: it holds no infinite
number. -/
def RoundTrips (xs : List JsonValue) : Prop := reparseList xs = xs

@[simp] theorem settledWorld_ok {α : Type} (a : α) (w : World) :
    settledWorld (EStateM.Result.ok a w : EStateM.Result ProviderError World α) = w := rfl
@[simp] theorem settledWorld_error {α : Type} (e : ProviderError) (w : World) :
    settledWorld (EStateM.Result.error e w : EStateM.Result ProviderError World α) = w := rfl

theorem settledWorld_map {α β : Type} (f : α → β) (x : ProviderM α) :
    settledWorld ((f <$> x) w) = settledWorld (x w) := by
  show settledWorld (EStateM.map f x w) = _
  simp only [EStateM.map]
  cases x w <;> rfl

/-- One step of the `filter`: the credential is dropped when it matches, which sets `found`,
and kept in front of what survives of the rest otherwise. -/
theorem filterCredentials_cons_eq_ok {credential : JsonValue} {rest kept : List JsonValue}
    {found : Bool} (h : filterCredentials service account (credential :: rest) = .ok (kept, found)) :
    ∃ kept' found', filterCredentials service account rest = .ok (kept', found') ∧
      (kept = kept' ∧ found = true ∨ kept = credential :: kept' ∧ found = found') := by
  simp only [filterCredentials, bind, Except.bind] at h
  rcases hmatch : credentialMatches service account credential with _ | matched
  · simp [hmatch] at h
  · rcases hrest : filterCredentials service account rest with _ | ⟨kept', found'⟩
    · simp [hmatch, hrest] at h
    · refine ⟨kept', found', rfl, ?_⟩
      cases matched <;> simp [hmatch, hrest, pure, Except.pure] at h <;> simp [h]

theorem filterCredentials_not_found :
    ∀ (xs kept : List JsonValue),
      filterCredentials service account xs = .ok (kept, false) → kept = xs
  | [], _, h => by cases h; rfl
  | credential :: rest, kept, h => by
    obtain ⟨kept', found', hrest, ⟨-, h⟩ | ⟨rfl, rfl⟩⟩ := filterCredentials_cons_eq_ok service account h
    · cases h
    · rw [filterCredentials_not_found rest kept' hrest]

theorem filterCredentials_sublist :
    ∀ (xs kept : List JsonValue) (found : Bool),
      filterCredentials service account xs = .ok (kept, found) → kept.Sublist xs
  | [], _, _, h => by cases h; exact .slnil
  | credential :: rest, kept, found, h => by
    obtain ⟨kept', found', hrest, ⟨rfl, -⟩ | ⟨rfl, -⟩⟩ := filterCredentials_cons_eq_ok service account h
    · exact (filterCredentials_sublist rest _ found' hrest).cons credential
    · exact (filterCredentials_sublist rest _ found' hrest).cons₂ credential

/-! ## The in-memory list does not depend on the writes -/

/-- The list `deletePassword` leaves: the kept credentials, or the old list when the
filter threw. -/
theorem deletePassword_list :
    (settledWorld (deletePassword fits service account w)).list =
      match filterCredentials service account w.list with
      | .ok (kept, _) => kept
      | .error _ => w.list := by
  rw [deletePassword_eq]
  rcases filterCredentials service account w.list with _ | ⟨kept, _ | _⟩
  · rfl
  · rfl
  · dsimp only; split_ifs <;> rfl

theorem deletePassword_list_sublist :
    (settledWorld (deletePassword fits service account w)).list.Sublist w.list := by
  rw [deletePassword_list]
  split
  · exact filterCredentials_sublist service account _ _ _ ‹_›
  · exact List.Sublist.refl _

theorem roundTrips_sublist {xs ys : List JsonValue} (hsub : xs.Sublist ys) (h : RoundTrips ys) :
    RoundTrips xs :=
  (reparseList_eq_self_iff xs).mpr fun v hv => (reparseList_eq_self_iff ys).mp h v (hsub.subset hv)

theorem save_list : (settledWorld (save fits w)).list = w.list := by
  rw [save_eq]; split_ifs <;> rfl

theorem exec_list_independent (c : Call) :
    (settledWorld (exec fits c w)).list = (settledWorld (exec (fun _ => true) c w)).list := by
  cases c with
  | getPassword service account => rfl
  | setPassword service account password =>
    simp only [exec, settledWorld_map, setPassword_eq, save_list, World.list_loaded,
      deletePassword_list]
  | deletePassword service account =>
    simp only [exec, settledWorld_map, deletePassword_list]

/-! ## Agreement after a resolved call, the item after a rejected one -/

theorem save_agree (h : save fits w = .ok () w') (hround : RoundTrips w.list) : Agree w' := by
  rw [save_eq] at h
  split_ifs at h
  cases h
  exact hround

theorem exec_agree (c : Call) (r : Reply) (w' : World) (h : exec fits c w = .ok r w')
    (hagree : Agree w) (hround : RoundTrips w.list) : Agree w' := by
  cases c with
  | getPassword service account =>
    simp only [exec, Functor.map, EStateM.map, getPassword_eq] at h
    rcases hfind : findPassword service account w.list with _ | v <;> simp [hfind] at h
    obtain ⟨-, rfl⟩ := h
    exact hagree
  | setPassword service account password =>
    simp only [exec, Functor.map, EStateM.map, setPassword_eq] at h
    split at h
    · rename_i hsave
      cases h
      refine save_agree fits _ hsave ((reparseList_eq_self_iff _).mpr fun v hv => ?_)
      rcases List.mem_append.mp hv with hv | hv
      · exact (reparseList_eq_self_iff _).mp
          (roundTrips_sublist (deletePassword_list_sublist fits service account w) hround) v hv
      · rw [List.mem_singleton.mp hv, reparse_toJson]
    · cases h
  | deletePassword service account =>
    simp only [exec, Functor.map, EStateM.map, deletePassword_eq] at h
    rcases hfilter : filterCredentials service account w.list with _ | ⟨kept, _ | _⟩ <;>
      simp only [hfilter] at h
    · cases h
    · cases h
      rw [Agree, World.list_loaded, filterCredentials_not_found _ _ _ _ hfilter]
      exact hagree
    · simp only [if_true] at h
      split_ifs at h
      cases h
      exact roundTrips_sublist (filterCredentials_sublist service account _ _ _ hfilter) hround

theorem exec_rejected_stored (c : Call) (e : ProviderError) (w' : World)
    (h : exec fits c w = .error e w') :
    w'.stored = w.stored ∨
      ∃ service account password, c = .setPassword service account password ∧
        w'.stored = (settledWorld (deletePassword fits service account w)).stored := by
  cases c with
  | getPassword service account =>
    simp only [exec, Functor.map, EStateM.map, getPassword_eq] at h
    rcases hfind : findPassword service account w.list with _ | v <;> simp [hfind] at h
    obtain ⟨-, rfl⟩ := h
    exact .inl rfl
  | setPassword service account password =>
    simp only [exec, Functor.map, EStateM.map, setPassword_eq, save_eq] at h
    split_ifs at h
    cases h
    exact .inr ⟨service, account, password, rfl, rfl⟩
  | deletePassword service account =>
    simp only [exec, Functor.map, EStateM.map, deletePassword_eq] at h
    rcases hfilter : filterCredentials service account w.list with _ | ⟨kept, _ | _⟩ <;>
      simp only [hfilter] at h
    · cases h; exact .inl rfl
    · cases h
    · simp only [if_true] at h
      split_ifs at h
      cases h
      exact .inl rfl

/-- Why agreement needs the list to round-trip: the item `[1e400]` parses to an infinity, and
the `save` of a resolved `setPassword` writes it back as `null`. -/
example :
    setPassword (fun _ => true) "git" "me" "pw" ⟨none, some (some (.array [.number (.infinite false)]))⟩ =
      .ok () ⟨some [.number (.infinite false), ICredential.toJson ⟨"git", "me", "pw"⟩],
        some (some (.array [.null, ICredential.toJson ⟨"git", "me", "pw"⟩]))⟩ := rfl

/-- Two items a user or an older version can leave behind: `[null]`, on which `getPassword`
throws reading `null.service`, and a record without `password`, for which it resolves to
`undefined`. -/
theorem null_element_rejects_getPassword :
    getPassword "git" "me" ⟨none, some (some (.array [.null]))⟩ =
      .error .typeError ⟨some [.null], some (some (.array [.null]))⟩ ∧
    getPassword "git" "me"
        ⟨none, some (some (.array [.object [("service", .string "git"), ("account", .string "me")]]))⟩ =
      .ok none ⟨some [.object [("service", .string "git"), ("account", .string "me")]],
        some (some (.array [.object [("service", .string "git"), ("account", .string "me")]]))⟩ :=
  ⟨rfl, rfl⟩

/-- Whether `JSON.parse` gave `null`. -/
def isNull : JsonValue → Bool
  | .null => true
  | _ => false

/-- No element of the list is `null`. -/
def NullFree (xs : List JsonValue) : Prop := ∀ v ∈ xs, isNull v = false

theorem getProperty_ok (v : JsonValue) (hv : isNull v = false) (name : String) :
    ∃ r, getProperty v name = .ok r := by
  cases v <;> first | exact ⟨_, rfl⟩ | simp [isNull] at hv

theorem credentialMatches_ok (v : JsonValue) (hv : isNull v = false) :
    ∃ b, credentialMatches service account v = .ok b := by
  obtain ⟨r, hr⟩ := getProperty_ok v hv "service"
  obtain ⟨r', hr'⟩ := getProperty_ok v hv "account"
  simp only [credentialMatches, hr, hr', bind, Except.bind]
  split_ifs <;> exact ⟨_, rfl⟩

theorem findPassword_ok :
    ∀ xs : List JsonValue, NullFree xs → ∃ r, findPassword service account xs = .ok r
  | [], _ => ⟨_, rfl⟩
  | v :: rest, hfree => by
    have hv := hfree v (List.mem_cons_self _ _)
    obtain ⟨r, hr⟩ := getProperty_ok v hv "service"
    obtain ⟨r', hr'⟩ := getProperty_ok v hv "account"
    obtain ⟨r'', hr''⟩ := getProperty_ok v hv "password"
    obtain ⟨p, hp⟩ := findPassword_ok rest fun u hu => hfree u (List.mem_cons_of_mem _ hu)
    simp only [findPassword, hr, hr', hr'', hp, bind, Except.bind]
    split_ifs <;> exact ⟨_, rfl⟩

theorem filterCredentials_ok :
    ∀ xs : List JsonValue, NullFree xs → ∃ r, filterCredentials service account xs = .ok r
  | [], _ => ⟨_, rfl⟩
  | v :: rest, hfree => by
    obtain ⟨b, hb⟩ := credentialMatches_ok service account v (hfree v (List.mem_cons_self _ _))
    obtain ⟨⟨kept, found⟩, hrest⟩ :=
      filterCredentials_ok rest fun u hu => hfree u (List.mem_cons_of_mem _ hu)
    simp only [filterCredentials, hb, hrest, bind, Except.bind]
    cases b <;> exact ⟨_, rfl⟩

/-- With every write accepted, a call on a list without `null` resolves and leaves such a
list. -/
theorem exec_ok_of_nullFree (c : Call) (hfree : NullFree w.list) :
    ∃ r w', exec (fun _ => true) c w = .ok r w' ∧ NullFree w'.list := by
  cases c with
  | getPassword service account =>
    obtain ⟨v, hv⟩ := findPassword_ok service account w.list hfree
    refine ⟨.password v, w.load, ?_, hfree⟩
    simp only [exec, Functor.map, EStateM.map, getPassword_eq, hv]
  | deletePassword service account =>
    obtain ⟨⟨kept, found⟩, hfilter⟩ := filterCredentials_ok service account w.list hfree
    have hkept : NullFree kept := fun v hv =>
      hfree v ((filterCredentials_sublist service account _ _ _ hfilter).subset hv)
    simp only [exec, Functor.map, EStateM.map, deletePassword_eq, hfilter]
    cases found
    · exact ⟨_, _, rfl, hkept⟩
    · exact ⟨_, _, rfl, hkept⟩
  | setPassword service account password =>
    obtain ⟨⟨kept, found⟩, hfilter⟩ := filterCredentials_ok service account w.list hfree
    have hkept : NullFree kept := fun v hv =>
      hfree v ((filterCredentials_sublist service account _ _ _ hfilter).subset hv)
    have hdelete : (settledWorld (deletePassword (fun _ => true) service account w)).list = kept := by
      rw [deletePassword_list, hfilter]
    refine ⟨.done, ⟨some (kept ++ [ICredential.toJson ⟨service, account, password⟩]),
      some (some (reparse (.array (kept ++ [ICredential.toJson ⟨service, account, password⟩]))))⟩,
      ?_, ?_⟩
    · simp only [exec, Functor.map, EStateM.map, setPassword_eq, save_eq, if_true,
        World.list_loaded, hdelete]
    · intro v hv
      simp only [World.list_loaded, hdelete, List.mem_append, List.mem_singleton] at hv
      rcases hv with hv | rfl
      · exact hkept v hv
      · rfl

/-- If the stored array has no `null` element (or there is no usable item at all), then with
every write accepted no call of any sequence rejects. -/
theorem calls_resolve_on_null_free_storage (stored : Option (Option JsonValue))
    (hfree : NullFree (decodeStored stored)) (calls : List Call) :
    ∀ r ∈ (runCalls (fun _ => true) calls ⟨none, stored⟩).1, ∃ reply, r = .ok reply := by
  suffices h : ∀ (calls : List Call) (w : World), NullFree w.list →
      ∀ r ∈ (runCalls (fun _ => true) calls w).1, ∃ reply, r = .ok reply from
    h calls _ hfree
  intro calls
  induction calls with
  | nil => intro _ _ _ hr; cases hr
  | cons c calls ih =>
    intro w hw r hr
    obtain ⟨reply, w', hexec, hw'⟩ := exec_ok_of_nullFree w c hw
    simp only [runCalls, hexec, List.mem_cons] at hr
    rcases hr with rfl | hr
    · exact ⟨reply, rfl⟩
    · exact ih w' hw' r hr

/-- An item holding a number and an empty record: reads and deletes all resolve. -/
theorem calls_resolve_on_number_and_record :
    NullFree (decodeStored (some (some (.array [.number (.finite 1), .object []])))) ∧
    ∀ r ∈ (runCalls (fun _ => true) [.getPassword "git" "me", .deletePassword "git" "me"]
        ⟨none, some (some (.array [.number (.finite 1), .object []]))⟩).1, ∃ reply, r = .ok reply := by
  have hfree : NullFree (decodeStored (some (some (.array [.number (.finite 1), .object []])))) := by
    intro v hv
    simp only [decodeStored, List.mem_cons, List.mem_singleton, List.not_mem_nil, or_false] at hv
    rcases hv with rfl | rfl <;> rfl
  exact ⟨hfree, calls_resolve_on_null_free_storage _ hfree _⟩

end Fxcode.Credentials.Storage
