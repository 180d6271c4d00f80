import ProductionRag.Api.Requests

/-!
# API keys

A client presents a key and nothing else; tenant, user and groups come from the server's
configuration, in which keys are stored as digests.
-/

set_option autoImplicit false

namespace ProductionRag

open Basis

/-- Principals under the digests of their keys. -/
structure ApiKeyStore where
  principals : Table String Principal
  nonempty : principals.entries ≠ []

namespace ApiKeyStore

/-- The constructor. -/
def make (principals : Table String Principal) : Except PyError ApiKeyStore :=
  if nonempty : principals.entries ≠ [] then .ok ⟨principals, nonempty⟩
  else .error (.valueError "at least one API key must be configured")

section Configuration

variable (surroundings : Surroundings)

/-- `entry.get(key, default)` -/
def entryGet (fields : List (String × Json)) (key : String) (default : Json) : Json :=
  ((fields.find? fun field => field.1 = key).map Prod.snd).getD default

/-- `isinstance(groups, list) and all(isinstance(g, str) for g in groups)` -/
def groupTexts : Json → Option (List String)
  | .array groups => groups.mapM Json.string?
  | _ => none

/-- One round of the loop of `from_entries`. -/
def addEntry (principals : Table String Principal) :
    Json → Except PyError (Table String Principal)
  | .object entry =>
    let digest := surroundings.lower (surroundings.str (entryGet entry "key_sha256" (.string "")))
    let tenantId := strip (surroundings.str (entryGet entry "tenant_id" (.string "")))
    let userId := strip (surroundings.str (entryGet entry "user_id" (.string "")))
    if digest.length ≠ 64 ∨ ¬ digest.toList.all (hexDigits.contains ·) then
      .error (.valueError "key_sha256 must be a 64-character hex digest")
    else if tenantId = "" ∨ userId = "" then
      .error (.valueError "tenant_id and user_id are required for every key")
    else
      match groupTexts (entryGet entry "groups" (.array [])) with
      | none => .error (.valueError "groups must be a list of strings")
      | some groups =>
        if fresh : digest ∉ principals.keys then
          .ok (principals.append digest { tenantId, userId, groups := groups.dedup } fresh)
        else .error (.valueError "duplicate API key digest")
  | _ => .error (.valueError "each API key entry must be an object")

def fromEntries : Json → Except PyError ApiKeyStore
  | .array entries => entries.foldlM (addEntry surroundings) .empty >>= make
  | _ => .error (.valueError "API key configuration must be a JSON list")

def hashKey (key : String) : Except PyError String :=
  (surroundings.encode key).map surroundings.services.hash.hexdigest

/-- Lookup by digest: the raw key is never compared or stored. -/
def authenticate (store : ApiKeyStore) (presented : Option String) :
    Except PyError (Option Principal) :=
  match presented with
  | none => .ok none
  | some key =>
    if key = "" then .ok none
    else (hashKey surroundings key).map store.principals.find?

end Configuration

/-- The principals a key can stand for. -/
def callers (store : ApiKeyStore) : List Principal := store.principals.entries.map Prod.snd

/-! ## What a configuration is accepted for -/

/-- A tenant and a user, both with a name that `strip` leaves as it is. -/
structure Named (principal : Principal) : Prop where
  tenant : principal.tenantId ≠ "" ∧ strip principal.tenantId = principal.tenantId
  user : principal.userId ≠ "" ∧ strip principal.userId = principal.userId

/-- A row of an accepted configuration. -/
def Configured (digest : String) (principal : Principal) : Prop :=
  digest.length = 64 ∧ (∀ c ∈ digest.toList, c ∈ hexDigits) ∧ Named principal

theorem addEntry_configured {surroundings : Surroundings}
    {principals after : Table String Principal}
    {entry : Json} (added : addEntry surroundings principals entry = .ok after)
    (before : ∀ digest principal, (digest, principal) ∈ principals.entries →
      Configured digest principal) :
    ∀ digest principal, (digest, principal) ∈ after.entries → Configured digest principal := by
  cases entry with
  | object fields =>
      unfold addEntry at added
      dsimp only at added
      split at added
      · cases added
      · rename_i isDigest
        obtain ⟨long, hex⟩ := not_or.mp isDigest
        split at added
        · cases added
        · rename_i isNamed
          obtain ⟨tenant, user⟩ := not_or.mp isNamed
          split at added
          · cases added
          · split at added
            · cases added
              intro digest principal member
              rcases List.mem_append.mp member with old | new
              · exact before digest principal old
              · cases List.mem_singleton.mp new
                refine ⟨not_not.mp long, ?_, ⟨tenant, strip_strip _⟩, ⟨user, strip_strip _⟩⟩
                intro c member
                exact List.contains_iff_mem.mp (List.all_eq_true.mp (not_not.mp hex) c member)
            · cases added
  | null => cases added
  | bool value => cases added
  | number spelling => cases added
  | string text => cases added
  | array items => cases added

theorem foldlM_configured {surroundings : Surroundings} {entries : List Json}
    {principals after : Table String Principal}
    (added : entries.foldlM (addEntry surroundings) principals = .ok after)
    (before : ∀ digest principal, (digest, principal) ∈ principals.entries →
      Configured digest principal) :
    ∀ digest principal, (digest, principal) ∈ after.entries → Configured digest principal := by
  induction entries generalizing principals with
  | nil =>
      cases added
      exact before
  | cons entry later ih =>
      rw [List.foldlM_cons] at added
      obtain ⟨between, first, rest⟩ := Except.bind_ok_iff.mp added
      exact ih rest (addEntry_configured first before)

/-- Every key of an accepted configuration has a digest of 64 hexadecimal digits and a named
tenant and user. -/
theorem fromEntries_configured {surroundings : Surroundings} {entries : Json}
    {store : ApiKeyStore} (accepted : fromEntries surroundings entries = .ok store) :
    ∀ digest principal, (digest, principal) ∈ store.principals.entries →
      Configured digest principal := by
  cases entries with
  | array entries =>
      obtain ⟨principals, added, built⟩ := Except.bind_ok_iff.mp accepted
      unfold make at built
      split at built
      · cases built
        refine foldlM_configured added ?_
        intro digest principal member
        cases member
      · cases built
  | null => cases accepted
  | bool value => cases accepted
  | number spelling => cases accepted
  | string text => cases accepted
  | object fields => cases accepted

/-- Whoever a key is accepted for is configured. -/
theorem authenticate_mem {surroundings : Surroundings} {store : ApiKeyStore}
    {presented : Option String} {principal : Principal}
    (found : store.authenticate surroundings presented = .ok (some principal)) :
    principal ∈ store.callers := by
  unfold authenticate at found
  split at found
  · cases found
  · split at found
    · cases found
    · cases hashed : hashKey surroundings _ with
      | error e =>
          rw [hashed] at found
          cases found
      | ok digest =>
          rw [hashed] at found
          have stored := Table.find?_eq_some_iff.mp (Except.ok.inj found)
          exact List.mem_map.mpr ⟨_, stored, rfl⟩

end ApiKeyStore

end ProductionRag
