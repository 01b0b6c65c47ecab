import Mathlib.Data.List.Basic
import Mathlib.Data.Rat.Defs
/-!
# The local-storage credentials provider

`LocalStorageCredentialsProvider` keeps the workbench's passwords as a JSON array in the
`localStorage` item `credentials.provider`, loaded lazily into `_credentials`.  This module
models the provider's fields and the item, the getter that loads them, `save`, and the
three calls `getPassword`, `setPassword` and `deletePassword`.  `save` stores what
`JSON.parse` makes of `JSON.stringify(list)`: the list, but for an infinite number, which
`JSON.stringify` writes as `null`.

Each call is an `EStateM` program: a rejection keeps the state the call had reached when
it threw, as a JavaScript exception does.  The elements of the array are whatever
`JSON.parse` produced, so reading `credential.service` can throw (on `null`) or give
`undefined` (on a record without the field).
-/

namespace Fxcode.Credentials.Provider

/-- A number as `JSON.parse` builds it: a finite double, by its value, or an infinity, which a
literal beyond the range of a double (`1e400`) parses to.  `JSON.parse` never gives `NaN`. -/
inductive JsNumber
  | finite (value : ℚ)
  | infinite (negative : Bool)
  deriving DecidableEq, Repr

/-- A JSON value as `JSON.parse` builds it. -/
inductive JsonValue
  | null
  | bool (b : Bool)
  | number (n : JsNumber)
  | string (s : String)
  | array (xs : List JsonValue)
  | object (fields : List (String × JsonValue))
  deriving Repr

mutual

/-- `JSON.parse(JSON.stringify(v))` for a value `JSON.parse` built: the value again, but an
infinite number, which `JSON.stringify` writes as `null`. -/
def reparse : JsonValue → JsonValue
  | .number (.infinite _) => .null
  | .array xs => .array (reparseList xs)
  | .object fields => .object (reparseFields fields)
  | v => v

/-- `reparse` on the elements of an array. -/
def reparseList : List JsonValue → List JsonValue
  | [] => []
  | v :: vs => reparse v :: reparseList vs

/-- `reparse` on the values of a record's fields. -/
def reparseFields : List (String × JsonValue) → List (String × JsonValue)
  | [] => []
  | (name, v) :: fields => (name, reparse v) :: reparseFields fields

end

@[simp] theorem reparse_array (xs : List JsonValue) : reparse (.array xs) = .array (reparseList xs) := rfl

/-- A list comes back from `JSON.stringify` and `JSON.parse` as it was exactly when each of its
elements does. -/
theorem reparseList_eq_self_iff : ∀ xs : List JsonValue, reparseList xs = xs ↔ ∀ v ∈ xs, reparse v = v
  | [] => by simp [reparseList]
  | v :: vs => by simp [reparseList, reparseList_eq_self_iff vs]

/-- Why a call rejects: a property read on `null`, or `localStorage.setItem` refusing the
write (`QuotaExceededError`). -/
inductive ProviderError
  | typeError
  | quotaExceeded
  deriving DecidableEq, Repr

/-- `value[name]` on a parsed value: `null` throws, a record gives its field (`none` is
`undefined`), anything else has no such property. -/
def getProperty (value : JsonValue) (name : String) : Except ProviderError (Option JsonValue) :=
  match value with
  | .null => .error .typeError
  | .object fields => .ok (fields.lookup name)
  | _ => .ok none

/-- `value === s` for a string `s`. -/
def isString (value : Option JsonValue) (s : String) : Bool :=
  match value with
  | some (.string t) => t == s
  | _ => false

@[simp] theorem isString_string (t s : String) : isString (some (.string t)) s = (t == s) := rfl

/-- `ICredential`. -/
structure ICredential where
  service : String
  account : String
  password : String
  deriving DecidableEq, Repr

/-- The record `{ service, account, password }` that `setPassword` pushes. -/
def ICredential.toJson (c : ICredential) : JsonValue :=
  .object [("service", .string c.service), ("account", .string c.account),
    ("password", .string c.password)]

/-- The pair a credential is keyed by. -/
def ICredential.key (c : ICredential) : String × String := (c.service, c.account)

@[simp] theorem reparse_toJson (c : ICredential) : reparse c.toJson = c.toJson := rfl

@[simp] theorem getProperty_service (c : ICredential) :
    getProperty c.toJson "service" = .ok (some (.string c.service)) := rfl
@[simp] theorem getProperty_account (c : ICredential) :
    getProperty c.toJson "account" = .ok (some (.string c.account)) := rfl
@[simp] theorem getProperty_password (c : ICredential) :
    getProperty c.toJson "password" = .ok (some (.string c.password)) := rfl

/-- The provider's field `_credentials` (`none` until the getter first runs) and the item
`credentials.provider`, kept as what `JSON.parse` makes of it: `none` when there is no item,
`some none` when it is not JSON, `some (some v)` when it parses to `v`.  `save` writes
`JSON.stringify(list)`, which parses back to `reparse (.array list)`. -/
structure World where
  credentials : Option (List JsonValue)
  stored : Option (Option JsonValue)

/-- What the `credentials` getter loads: the stored array, or `[]` when there is no item,
it is empty or not JSON (`JSON.parse` throws and the error is ignored), or not an array. -/
def decodeStored : Option (Option JsonValue) → List JsonValue
  | some (some (.array xs)) => xs
  | _ => []

/-- The list the getter returns in world `w`. -/
def World.list (w : World) : List JsonValue := w.credentials.getD (decodeStored w.stored)

/-- `w` once the getter has run. -/
def World.load (w : World) : World := ⟨some w.list, w.stored⟩

@[simp] theorem World.list_loaded (xs : List JsonValue) (stored : Option (Option JsonValue)) :
    World.list ⟨some xs, stored⟩ = xs := rfl
@[simp] theorem World.load_stored (w : World) : w.load.stored = w.stored := rfl
@[simp] theorem World.load_list (w : World) : w.load.list = w.list := rfl

/-- A call on the provider. -/
abbrev ProviderM := EStateM ProviderError World

/-- The world a call leaves behind, whether it resolved or rejected. -/
def settledWorld {α : Type} : EStateM.Result ProviderError World α → World
  | .ok _ w => w
  | .error _ w => w

/-- Lift a computation that may throw. -/
def liftExcept {α : Type} : Except ProviderError α → ProviderM α
  | .ok a => pure a
  | .error e => throw e

/-- The `credentials` getter: loads `_credentials` from the stored item on first use. -/
def credentials : ProviderM (List JsonValue) := do
  let w ← get
  match w.credentials with
  | some xs => pure xs
  | none =>
    let xs := decodeStored w.stored
    set { w with credentials := some xs }
    pure xs

/-- `save`: `localStorage.setItem(key, JSON.stringify(this.credentials))`.  The browser
accepts the write when `fits` says so and throws `QuotaExceededError` otherwise. -/
def save (fits : List JsonValue → Bool) : ProviderM Unit := do
  let xs ← credentials
  if fits xs then modify fun w => { w with stored := some (some (reparse (.array xs))) }
  else throw .quotaExceeded

/-- The loop of `getPassword`: the `password` of the first credential whose `service` and
`account` match, `null` when none does.  (`typeof account !== 'string'` is false: every
argument is a string.) -/
def findPassword (service account : String) :
    List JsonValue → Except ProviderError (Option JsonValue)
  | [] => .ok (some .null)
  | credential :: rest => do
    if isString (← getProperty credential "service") service then
      if isString (← getProperty credential "account") account then
        getProperty credential "password"
      else findPassword service account rest
    else findPassword service account rest

/-- `getPassword`. -/
def getPassword (service account : String) : ProviderM (Option JsonValue) := do
  liftExcept (findPassword service account (← credentials))

/-- The `filter` callback's test of `deletePassword`:
`credential.service === service && credential.account === account`. -/
def credentialMatches (service account : String) (credential : JsonValue) :
    Except ProviderError Bool := do
  if isString (← getProperty credential "service") service then
    pure (isString (← getProperty credential "account") account)
  else pure false

/-- The `filter` of `deletePassword`: the credentials kept, and whether one matched. -/
def filterCredentials (service account : String) :
    List JsonValue → Except ProviderError (List JsonValue × Bool)
  | [] => .ok ([], false)
  | credential :: rest => do
    let matched ← credentialMatches service account credential
    let (kept, found) ← filterCredentials service account rest
    if matched then pure (kept, true) else pure (credential :: kept, found)

/-- `deletePassword`. -/
def deletePassword (fits : List JsonValue → Bool) (service account : String) :
    ProviderM Bool := do
  let (kept, found) ← liftExcept (filterCredentials service account (← credentials))
  modify fun w => { w with credentials := some kept }
  if found then save fits
  pure found

/-- A call whose promise is dropped: its effects stay, its outcome is never looked at. -/
def dropPromise {α : Type} (x : ProviderM α) : ProviderM Unit := fun w =>
  match x w with
  | .ok _ w' => .ok () w'
  | .error _ w' => .ok () w'

/-- `setPassword`.  `this.deletePassword(service, account)` is not awaited, but its body has
no `await`, so it runs to its end before the push; a rejection only settles its dropped
promise. -/
def setPassword (fits : List JsonValue → Bool) (service account password : String) :
    ProviderM Unit := do
  dropPromise (deletePassword fits service account)
  let xs ← credentials
  modify fun w => { w with credentials := some (xs ++ [ICredential.toJson ⟨service, account, password⟩]) }
  save fits

/-- A provider call with its arguments. -/
inductive Call
  | getPassword (service account : String)
  | setPassword (service account password : String)
  | deletePassword (service account : String)

/-- What a call resolves to. -/
inductive Reply
  | password (value : Option JsonValue)
  | done
  | deleted (found : Bool)

/-- One provider call. -/
def exec (fits : List JsonValue → Bool) : Call → ProviderM Reply
  | .getPassword service account => Reply.password <$> getPassword service account
  | .setPassword service account password =>
    (fun _ => Reply.done) <$> setPassword fits service account password
  | .deletePassword service account => Reply.deleted <$> deletePassword fits service account

/-- A sequence of calls, each settled before the next: what each settled to, and the world. -/
def runCalls (fits : List JsonValue → Bool) : List Call → World → List (Except ProviderError Reply) × World
  | [], w => ([], w)
  | c :: cs, w =>
    match exec fits c w with
    | .ok r w' => ((runCalls fits cs w').1.cons (.ok r), (runCalls fits cs w').2)
    | .error e w' => ((runCalls fits cs w').1.cons (.error e), (runCalls fits cs w').2)

/-! ## One equation per call -/

variable (w : World) (fits : List JsonValue → Bool) (service account password : String)

theorem credentials_eq : credentials w = .ok w.list w.load := by
  obtain ⟨_ | xs, stored⟩ := w <;> rfl

theorem save_eq : save fits w =
    if fits w.list then .ok () ⟨some w.list, some (some (reparse (.array w.list)))⟩
    else .error .quotaExceeded w.load := by
  show EStateM.bind credentials _ w = _
  simp only [EStateM.bind, credentials_eq]
  split_ifs <;> rfl

theorem getPassword_eq : getPassword service account w =
    match findPassword service account w.list with
    | .ok v => .ok v w.load
    | .error e => .error e w.load := by
  show EStateM.bind credentials _ w = _
  simp only [EStateM.bind, credentials_eq]
  rcases findPassword service account w.list <;> rfl

theorem deletePassword_eq : deletePassword fits service account w =
    match filterCredentials service account w.list with
    | .error e => .error e w.load
    | .ok (kept, found) =>
      if found then
        (if fits kept then .ok true ⟨some kept, some (some (reparse (.array kept)))⟩
        else .error .quotaExceeded ⟨some kept, w.stored⟩)
      else .ok false ⟨some kept, w.stored⟩ := by
  show EStateM.bind credentials _ w = _
  simp only [EStateM.bind, credentials_eq]
  rcases filterCredentials service account w.list with e | ⟨kept, _ | _⟩
  · rfl
  · rfl
  · show EStateM.bind (save fits) _ _ = _
    simp only [EStateM.bind, save_eq, World.list_loaded, World.load_stored]
    split_ifs <;> rfl

theorem setPassword_eq : setPassword fits service account password w =
    save fits ⟨some ((settledWorld (deletePassword fits service account w)).list ++
      [ICredential.toJson ⟨service, account, password⟩]),
      (settledWorld (deletePassword fits service account w)).stored⟩ := by
  show EStateM.bind (dropPromise _) _ w = _
  simp only [EStateM.bind, dropPromise]
  rcases deletePassword fits service account w with ⟨_, w'⟩ | ⟨_, w'⟩ <;>
  · show EStateM.bind credentials _ w' = _
    simp only [EStateM.bind, credentials_eq]
    rfl

end Fxcode.Credentials.Provider
