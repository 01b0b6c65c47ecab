import Fxcode.Credentials.Provider
import Mathlib.Data.List.Nodup
/-!
# The provider refines a finite map

What the provider is for: a finite map from `(service, account)` to a password.  This
module states that map, runs the provider's calls and the map's operations side by side,
and proves that as long as the stored array holds credential records with distinct keys
and every write succeeds, the provider answers every call as the map does.  A record is what
`JSON.parse` makes of one: an object whose `service`, `account` and `password` are strings, in
any key order (`IsRecord`).

The invariant is `Represents`: the in-memory list is a list of records with pairwise
distinct keys whose lookup is the map.  `getPassword` reads the first record with the
key, `deletePassword` filters the key out, and `setPassword` filters it out before the
push, which is what keeps the keys distinct.
-/

namespace Fxcode.Credentials.Refinement

open Fxcode.Credentials.Provider

/-- The provider's purpose: passwords by `(service, account)`. -/
abbrev PasswordMap := String × String → Option String

/-- The map a list of credentials stands for: the password of the first record with the key. -/
def toMap (cs : List ICredential) : PasswordMap := fun key =>
  (cs.find? (fun c => c.key == key)).map ICredential.password

/-- A password as `getPassword` hands it out: the string, or `null` when there is none. -/
def jsPassword : Option String → Option JsonValue
  | some p => some (.string p)
  | none => some .null

/-- One operation on the map. -/
def specStep : Call → PasswordMap → Reply × PasswordMap
  | .getPassword service account, m => (.password (jsPassword (m (service, account))), m)
  | .setPassword service account password, m =>
    (.done, Function.update m (service, account) (some password))
  | .deletePassword service account, m =>
    (.deleted (m (service, account)).isSome, Function.update m (service, account) none)

/-- A sequence of operations on the map. -/
def specRun : List Call → PasswordMap → List Reply × PasswordMap
  | [], m => ([], m)
  | c :: cs, m => ((specRun cs (specStep c m).2).1.cons (specStep c m).1, (specRun cs (specStep c m).2).2)

/-! ## The map a list of records stands for -/

variable (service account : String) (m : PasswordMap)

@[simp] theorem toMap_nil : toMap [] = fun _ => none := rfl

theorem toMap_cons (c : ICredential) (cs : List ICredential) (key : String × String) :
    toMap (c :: cs) key = if c.key = key then some c.password else toMap cs key := by
  by_cases h : c.key = key <;> simp [toMap, List.find?_cons, h]

theorem toMap_filter (cs : List ICredential) (key key' : String × String) :
    toMap (cs.filter fun c => c.key != key) key' = Function.update (toMap cs) key none key' := by
  rw [Function.update_apply]
  induction cs with
  | nil => simp
  | cons c cs ih =>
    rw [List.filter_cons, toMap_cons]
    by_cases hc : c.key = key
    · simp only [hc, bne_self_eq_false, Bool.false_eq_true, if_false, ih]
      by_cases h : key' = key
      · simp [h]
      · simp [h, Ne.symm h]
    · simp only [bne_iff_ne.mpr hc, if_true, toMap_cons, ih]
      by_cases h : key' = key
      · subst h; simp [hc]
      · simp [h]

theorem toMap_append_absent (cs : List ICredential) (c : ICredential)
    (habsent : c.key ∉ cs.map ICredential.key) (key : String × String) :
    toMap (cs ++ [c]) key = Function.update (toMap cs) c.key (some c.password) key := by
  rw [Function.update_apply]
  induction cs with
  | nil =>
    by_cases h : key = c.key
    · simp [toMap_cons, h]
    · simp [toMap_cons, h, Ne.symm h]
  | cons d cs ih =>
    simp only [List.map_cons, List.mem_cons, not_or] at habsent
    rw [List.cons_append, toMap_cons, toMap_cons, ih habsent.2]
    by_cases h : key = c.key
    · subst h; simp [Ne.symm habsent.1]
    · simp [h]

/-- A list of records with distinct keys holds exactly the entries of its map. -/
theorem mem_iff_toMap (cs : List ICredential) (hdistinct : (cs.map ICredential.key).Nodup)
    (c : ICredential) : c ∈ cs ↔ toMap cs c.key = some c.password := by
  induction cs with
  | nil => simp
  | cons d cs ih =>
    simp only [List.map_cons, List.nodup_cons] at hdistinct
    rw [toMap_cons, List.mem_cons]
    by_cases hkey : d.key = c.key
    · have hnotmem : c ∉ cs := fun hmem =>
        hdistinct.1 (hkey ▸ List.mem_map_of_mem ICredential.key hmem)
      rw [if_pos hkey]
      simp only [hnotmem, or_false, Option.some.injEq]
      obtain ⟨ds, da, dp⟩ := d
      obtain ⟨cs', ca, cp⟩ := c
      simp only [ICredential.key, Prod.mk.injEq] at hkey
      obtain ⟨rfl, rfl⟩ := hkey
      simp [eq_comm]
    · have hne : c ≠ d := fun hcd => hkey (hcd ▸ rfl)
      rw [if_neg hkey, ← ih hdistinct.2]
      simp [hne]

/-! ## Records as `JSON.parse` leaves them -/

/-- `v` is a credential record for `c`: a parsed object whose `service`, `account` and
`password` are `c`'s strings, in any key order and beside any other field. -/
def IsRecord (v : JsonValue) (c : ICredential) : Prop :=
  ∃ fields, v = .object fields ∧ fields.lookup "service" = some (.string c.service) ∧
    fields.lookup "account" = some (.string c.account) ∧
    fields.lookup "password" = some (.string c.password)

theorem isRecord_toJson (c : ICredential) : IsRecord c.toJson c := ⟨_, rfl, rfl, rfl, rfl⟩

theorem IsRecord.getProperty {v : JsonValue} {c : ICredential} (h : IsRecord v c) :
    getProperty v "service" = .ok (some (.string c.service)) ∧
    getProperty v "account" = .ok (some (.string c.account)) ∧
    getProperty v "password" = .ok (some (.string c.password)) := by
  obtain ⟨fields, rfl, hs, ha, hp⟩ := h
  simp only [Provider.getProperty, hs, ha, hp, and_self]

theorem IsRecord.credentialMatches {v : JsonValue} {c : ICredential} (h : IsRecord v c) :
    credentialMatches service account v = .ok (c.key == (service, account)) := by
  obtain ⟨hs, ha, -⟩ := h.getProperty
  simp only [Provider.credentialMatches, hs, ha, isString_string, bind, Except.bind]
  by_cases hserv : c.service = service <;> simp [hserv, ICredential.key, pure, Except.pure]

/-! ## The provider's loops on records -/

theorem findPassword_records {xs : List JsonValue} {cs : List ICredential}
    (h : List.Forall₂ IsRecord xs cs) :
    findPassword service account xs = .ok (jsPassword (toMap cs (service, account))) := by
  induction h with
  | nil => rfl
  | @cons v c xs cs hvc _ ih =>
    obtain ⟨hs, ha, hp⟩ := hvc.getProperty
    rw [toMap_cons]
    simp only [findPassword, hs, ha, hp, isString_string, bind, Except.bind]
    by_cases hserv : c.service = service <;> by_cases hacc : c.account = account <;>
      simp [hserv, hacc, ih, ICredential.key, jsPassword]

theorem filterCredentials_records {xs : List JsonValue} {cs : List ICredential}
    (h : List.Forall₂ IsRecord xs cs) :
    ∃ kept, filterCredentials service account xs =
        .ok (kept, cs.any fun c => c.key == (service, account)) ∧
      List.Forall₂ IsRecord kept (cs.filter fun c => c.key != (service, account)) := by
  induction h with
  | nil => exact ⟨[], rfl, .nil⟩
  | @cons v c xs cs hvc _ ih =>
    obtain ⟨kept, hfilter, hkept⟩ := ih
    simp only [filterCredentials, hvc.credentialMatches, hfilter, bind, Except.bind,
      List.any_cons, List.filter_cons, bne]
    cases c.key == (service, account)
    · exact ⟨v :: kept, rfl, .cons hvc hkept⟩
    · exact ⟨kept, rfl, hkept⟩

theorem any_key_eq_isSome (cs : List ICredential) (key : String × String) :
    (cs.any fun c => c.key == key) = (toMap cs key).isSome := by
  induction cs with
  | nil => rfl
  | cons c cs ih => by_cases h : c.key = key <;> simp [toMap_cons, h, ih]

theorem deletePassword_records (w : World) {cs : List ICredential}
    (h : List.Forall₂ IsRecord w.list cs) :
    ∃ kept stored, deletePassword (fun _ => true) service account w =
        .ok (cs.any fun c => c.key == (service, account)) ⟨some kept, stored⟩ ∧
      List.Forall₂ IsRecord kept (cs.filter fun c => c.key != (service, account)) := by
  obtain ⟨kept, hfilter, hkept⟩ := filterCredentials_records service account h
  rw [deletePassword_eq, hfilter]
  cases cs.any fun c => c.key == (service, account) <;> exact ⟨kept, _, rfl, hkept⟩

/-! ## The simulation -/

/-- The in-memory list is a list of credential records with distinct keys standing for `m`. -/
def Represents (w : World) (m : PasswordMap) : Prop :=
  ∃ cs : List ICredential, List.Forall₂ IsRecord w.list cs ∧
    (cs.map ICredential.key).Nodup ∧ toMap cs = m

theorem represents_filter (cs : List ICredential) (key : String × String)
    (hdistinct : (cs.map ICredential.key).Nodup) :
    ((cs.filter fun c => c.key != key).map ICredential.key).Nodup :=
  hdistinct.sublist ((List.filter_sublist cs).map _)

/-- Every call, with every write accepted, resolves as the map's operation does and keeps
the representation. -/
theorem exec_represents (w : World) (h : Represents w m) (c : Call) :
    ∃ w', exec (fun _ => true) c w = .ok (specStep c m).1 w' ∧ Represents w' (specStep c m).2 := by
  obtain ⟨cs, hlist, hdistinct, rfl⟩ := h
  cases c with
  | getPassword service account =>
    refine ⟨w.load, ?_, cs, hlist, hdistinct, rfl⟩
    simp only [exec, Functor.map, EStateM.map, getPassword_eq,
      findPassword_records service account hlist]
    rfl
  | deletePassword service account =>
    obtain ⟨kept, stored, hdelete, hkept⟩ := deletePassword_records service account w hlist
    refine ⟨⟨some kept, stored⟩, ?_, _, hkept, represents_filter cs _ hdistinct,
      funext (toMap_filter cs _)⟩
    simp only [exec, Functor.map, EStateM.map, hdelete, any_key_eq_isSome]
    rfl
  | setPassword service account password =>
    obtain ⟨kept, stored, hdelete, hkept⟩ := deletePassword_records service account w hlist
    have habsent : (service, account) ∉
        (cs.filter fun c => c.key != (service, account)).map ICredential.key := by
      simp
    let pushed := kept ++ [ICredential.toJson ⟨service, account, password⟩]
    refine ⟨⟨some pushed, some (some (reparse (.array pushed)))⟩, ?_, _,
      List.rel_append hkept (.cons (isRecord_toJson _) .nil), ?_, ?_⟩
    · simp only [exec, Functor.map, EStateM.map, setPassword_eq, hdelete, settledWorld, save_eq,
        World.list_loaded, if_true]
      rfl
    · rw [List.map_append]
      exact (represents_filter cs _ hdistinct).append (List.nodup_singleton _)
        (List.disjoint_singleton.2 habsent)
    · funext key
      show toMap (_ ++ [⟨service, account, password⟩]) key =
        Function.update (toMap cs) (service, account) (some password) key
      rw [toMap_append_absent _ ⟨service, account, password⟩ habsent, Function.update_apply,
        toMap_filter]
      simp only [Function.update_apply, ICredential.key]
      split_ifs <;> rfl

/-- From a representing world, a sequence of calls with every write accepted answers what
the map's operations answer and ends in a world that represents the map they reach. -/
theorem runCalls_represents :
    ∀ (calls : List Call) (w : World) (m : PasswordMap), Represents w m →
      (runCalls (fun _ => true) calls w).1 = (specRun calls m).1.map .ok ∧
      Represents (runCalls (fun _ => true) calls w).2 (specRun calls m).2
  | [], _, _, h => ⟨rfl, h⟩
  | c :: calls, w, m, h => by
    obtain ⟨w', hexec, h'⟩ := exec_represents m w h c
    obtain ⟨hreplies, hrep⟩ := runCalls_represents calls w' _ h'
    simp only [runCalls, hexec, specRun, hreplies, List.map_cons, true_and]
    exact hrep

/-- The provider refines the map.  Start from no item, or from an item that `JSON.parse` makes
into an array of credential records (objects whose `service`, `account` and `password` are
strings, in any key order) with pairwise distinct `(service, account)`; let every write
succeed.  Then every `getPassword`, `setPassword` and `deletePassword` resolves as the map's
operation does (`getPassword` to the password or `null`, `deletePassword` to whether the key
was there), and the in-memory list is a list of records with distinct keys holding exactly the
map's entries. -/
theorem provider_refines_passwordMap (stored : Option (Option JsonValue)) (cs : List ICredential)
    (hstored : stored = none ∧ cs = [] ∨
      ∃ xs, stored = some (some (.array xs)) ∧ List.Forall₂ IsRecord xs cs)
    (hdistinct : (cs.map ICredential.key).Nodup) (calls : List Call) :
    (runCalls (fun _ => true) calls ⟨none, stored⟩).1 = (specRun calls (toMap cs)).1.map .ok ∧
    ∃ cs' : List ICredential,
      List.Forall₂ IsRecord (runCalls (fun _ => true) calls ⟨none, stored⟩).2.list cs' ∧
      (cs'.map ICredential.key).Nodup ∧
      ∀ c, c ∈ cs' ↔ (specRun calls (toMap cs)).2 c.key = some c.password := by
  have hlist : List.Forall₂ IsRecord (World.list ⟨none, stored⟩) cs := by
    rcases hstored with ⟨rfl, rfl⟩ | ⟨xs, rfl, hxs⟩
    · exact .nil
    · exact hxs
  obtain ⟨hreplies, cs', hlist', hdistinct', hmap⟩ :=
    runCalls_represents calls ⟨none, stored⟩ (toMap cs) ⟨cs, hlist, hdistinct, rfl⟩
  exact ⟨hreplies, cs', hlist', hdistinct', fun c => hmap ▸ mem_iff_toMap cs' hdistinct' c⟩

/-- From a stored record with its keys in another order: read it, replace its password, read
it again. -/
theorem provider_refines_passwordMap_from_record :
    let stored : Option (Option JsonValue) := some (some (.array [.object
      [("account", .string "me"), ("password", .string "old"), ("service", .string "git")]]))
    let cs : List ICredential := [⟨"git", "me", "old"⟩]
    let calls : List Call :=
      [.getPassword "git" "me", .setPassword "git" "me" "new", .getPassword "git" "me"]
    (stored = none ∧ cs = [] ∨
      ∃ xs, stored = some (some (.array xs)) ∧ List.Forall₂ IsRecord xs cs) ∧
    (cs.map ICredential.key).Nodup ∧
    ((runCalls (fun _ => true) calls ⟨none, stored⟩).1 = (specRun calls (toMap cs)).1.map .ok ∧
    ∃ cs' : List ICredential,
      List.Forall₂ IsRecord (runCalls (fun _ => true) calls ⟨none, stored⟩).2.list cs' ∧
      (cs'.map ICredential.key).Nodup ∧
      ∀ c, c ∈ cs' ↔ (specRun calls (toMap cs)).2 c.key = some c.password) :=
  have hstored : _ ∨ _ := Or.inr ⟨_, rfl, .cons ⟨_, rfl, rfl, rfl, rfl⟩ .nil⟩
  have hdistinct := List.nodup_singleton (ICredential.key ⟨"git", "me", "old"⟩)
  ⟨hstored, hdistinct, provider_refines_passwordMap _ _ hstored hdistinct _⟩

end Fxcode.Credentials.Refinement
