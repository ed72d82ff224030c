import MouseVpn.Lib.HashMap
import MouseVpn.Lib.Machine
import MouseVpn.Server.Registry

/-!
# Users and their device keys

`UserRegistry` maps user IDs to users and device keys to user IDs. A registration that fails
leaves every answer of the registry as it was, with one exception: `add_device` writes the key
before it reports that the key was there, and so gives the device of one user to another.
-/

namespace MouseVpn.Server.Users

open MouseVpn.Lib MouseVpn.Crypto

structure UserId where
  value : UInt64
  deriving DecidableEq, Repr

structure User where
  id : UserId
  name : String
  maxSessions : ℕ
  deriving DecidableEq, Repr

inductive RegistryError
  | blankUserName
  | duplicateKey
  | duplicateUserId (id : UserId)
  | unknownUser (id : UserId)
  | zeroSessionLimit
  deriving DecidableEq, Repr

structure UserRegistry where
  users : HashMap UserId User
  devices : HashMap PublicKey UserId

namespace UserRegistry

def new : UserRegistry := ⟨∅, ∅⟩

def addUser (registry : UserRegistry) (user : User) : UserRegistry × Except RegistryError Unit :=
  if (trim user.name).isEmpty then (registry, .error .blankUserName)
  else if user.maxSessions = 0 then (registry, .error .zeroSessionLimit)
  else if (registry.users.lookup user.id).isSome then
    (registry, .error (.duplicateUserId user.id))
  else ({ registry with users := registry.users.insert user.id user }, .ok ())

def addDevice (registry : UserRegistry) (userId : UserId) (key : PublicKey) :
    UserRegistry × Except RegistryError Unit :=
  if (registry.users.lookup userId).isNone then (registry, .error (.unknownUser userId))
  else
    -- `insert` answers what the key had before, after it has written.
    let inserted := { registry with devices := registry.devices.insert key userId }
    if (registry.devices.lookup key).isSome then (inserted, .error .duplicateKey)
    else (inserted, .ok ())

def authorize (registry : UserRegistry) (key : PublicKey) : Option User :=
  (registry.devices.lookup key).bind fun userId => registry.users.lookup userId

def revokeDevice (registry : UserRegistry) (key : PublicKey) : UserRegistry × Option UserId :=
  ({ registry with devices := registry.devices.erase key }, registry.devices.lookup key)

def revokeUser (registry : UserRegistry) (userId : UserId) : UserRegistry × Option User :=
  match registry.users.lookup userId with
  | none => (registry, none)
  | some removed =>
    ({ users := registry.users.erase userId
       devices := HashMap.retain (fun _ owner => decide (owner ≠ userId)) registry.devices },
      some removed)

def user (registry : UserRegistry) (userId : UserId) : Option User :=
  registry.users.lookup userId

inductive Operation
  | addUser (user : User)
  | addDevice (userId : UserId) (key : PublicKey)
  | revokeDevice (key : PublicKey)
  | revokeUser (userId : UserId)
  deriving DecidableEq

def failure {α : Type} : Except RegistryError α → Option RegistryError
  | .ok _ => none
  | .error error => some error

def step (registry : UserRegistry) : Operation → UserRegistry × Option RegistryError
  | .addUser user => ((registry.addUser user).1, failure (registry.addUser user).2)
  | .addDevice userId key =>
    ((registry.addDevice userId key).1, failure (registry.addDevice userId key).2)
  | .revokeDevice key => ((registry.revokeDevice key).1, none)
  | .revokeUser userId => ((registry.revokeUser userId).1, none)

def SameAnswers (registry registry' : UserRegistry) : Prop :=
  (∀ key, registry'.authorize key = registry.authorize key) ∧
    ∀ userId, registry'.user userId = registry.user userId

theorem addUser_cases (registry : UserRegistry) (user : User) :
    ((∃ error, registry.addUser user = (registry, .error error)) ∨
      (registry.users.lookup user.id = none ∧ 0 < user.maxSessions ∧
        registry.addUser user =
          ({ registry with users := registry.users.insert user.id user }, .ok ()))) := by
  unfold addUser
  split_ifs with hname hlimit hid
  · exact Or.inl ⟨_, rfl⟩
  · exact Or.inl ⟨_, rfl⟩
  · exact Or.inl ⟨_, rfl⟩
  · refine Or.inr ⟨?_, Nat.pos_of_ne_zero hlimit, rfl⟩
    simpa using hid

theorem addDevice_cases (registry : UserRegistry) (userId : UserId) (key : PublicKey) :
    (registry.users.lookup userId = none ∧
      registry.addDevice userId key = (registry, .error (.unknownUser userId))) ∨
    ((registry.users.lookup userId).isSome = true ∧
      registry.addDevice userId key =
        ({ registry with devices := registry.devices.insert key userId },
          if (registry.devices.lookup key).isSome then .error .duplicateKey else .ok ())) := by
  unfold addDevice
  cases huser : registry.users.lookup userId with
  | none => exact Or.inl ⟨rfl, rfl⟩
  | some user =>
    refine Or.inr ⟨rfl, ?_⟩
    cases hkey : registry.devices.lookup key with
    | none => rfl
    | some owner => rfl

theorem revokeUser_cases (registry : UserRegistry) (userId : UserId) :
    (registry.users.lookup userId = none ∧ registry.revokeUser userId = (registry, none)) ∨
    ∃ removed, registry.users.lookup userId = some removed ∧
      registry.revokeUser userId =
        (⟨registry.users.erase userId,
          HashMap.retain (fun _ owner => decide (owner ≠ userId)) registry.devices⟩,
          some removed) := by
  cases h : registry.users.lookup userId with
  | none => exact Or.inl ⟨rfl, by simp [revokeUser, h]⟩
  | some removed => exact Or.inr ⟨removed, rfl, by simp [revokeUser, h]⟩

structure Consistent (registry : UserRegistry) : Prop where
  id : ∀ userId user, registry.users.lookup userId = some user → user.id = userId
  owner : ∀ key userId, registry.devices.lookup key = some userId →
    (registry.users.lookup userId).isSome = true

theorem consistent_new : Consistent new where
  id := by
    intro userId user h
    cases h
  owner := by
    intro key userId h
    cases h

namespace Consistent

variable {registry : UserRegistry}

theorem addUser (h : Consistent registry) (user : User) :
    Consistent (registry.addUser user).1 := by
  obtain ⟨error, hstep⟩ | ⟨-, -, hstep⟩ := registry.addUser_cases user
  · rw [hstep]
    exact h
  · rw [hstep]
    constructor
    · intro userId other hfound
      rw [HashMap.lookup_insert_ite] at hfound
      split_ifs at hfound with hid
      · rw [← Option.some.inj hfound, hid]
      · exact h.id userId other hfound
    · intro key userId hfound
      rw [HashMap.lookup_insert_ite]
      split_ifs
      · rfl
      · exact h.owner key userId hfound

theorem addDevice (h : Consistent registry) (userId : UserId) (key : PublicKey) :
    Consistent (registry.addDevice userId key).1 := by
  obtain ⟨-, hstep⟩ | ⟨huser, hstep⟩ := registry.addDevice_cases userId key
  · rw [hstep]
    exact h
  · rw [hstep]
    refine ⟨h.id, ?_⟩
    intro other owner hfound
    rw [HashMap.lookup_insert_ite] at hfound
    split_ifs at hfound with hkey
    · rw [← Option.some.inj hfound]
      exact huser
    · exact h.owner other owner hfound

theorem revokeDevice (h : Consistent registry) (key : PublicKey) :
    Consistent (registry.revokeDevice key).1 := by
  refine ⟨h.id, ?_⟩
  intro other owner hfound
  rw [UserRegistry.revokeDevice, HashMap.lookup_erase_ite] at hfound
  split_ifs at hfound with hkey
  exact h.owner other owner hfound

theorem revokeUser (h : Consistent registry) (userId : UserId) :
    Consistent (registry.revokeUser userId).1 := by
  obtain ⟨-, hstep⟩ | ⟨removed, -, hstep⟩ := registry.revokeUser_cases userId
  · rw [hstep]
    exact h
  · rw [hstep]
    constructor
    · intro other user hfound
      rw [HashMap.lookup_erase_ite] at hfound
      split_ifs at hfound with hid
      exact h.id other user hfound
    · intro key owner hfound
      rw [HashMap.lookup_retain, Option.filter_eq_some_iff, decide_eq_true_iff] at hfound
      rw [HashMap.lookup_erase_ite, if_neg hfound.2]
      exact h.owner key owner hfound.1

theorem step (h : Consistent registry) (operation : Operation) :
    Consistent (registry.step operation).1 := by
  cases operation with
  | addUser user =>
    simp only [UserRegistry.step]
    exact h.addUser user
  | addDevice userId key =>
    simp only [UserRegistry.step]
    exact h.addDevice userId key
  | revokeDevice key => exact h.revokeDevice key
  | revokeUser userId => exact h.revokeUser userId

theorem run (history : List Operation) :
    Consistent (Machine.run UserRegistry.step new history) :=
  Machine.run_invariant UserRegistry.step Consistent (fun _ operation h => h.step operation)
    consistent_new history

theorem authorize_eq_some (h : Consistent registry) {key : PublicKey} {user : User} :
    registry.authorize key = some user ↔
      registry.devices.lookup key = some user.id ∧ registry.users.lookup user.id = some user := by
  rw [authorize, Option.bind_eq_some_iff]
  constructor
  · rintro ⟨owner, hkey, huser⟩
    rw [h.id owner user huser]
    exact ⟨hkey, huser⟩
  · rintro ⟨hkey, huser⟩
    exact ⟨user.id, hkey, huser⟩

theorem authorize_of_lookup (h : Consistent registry) {key : PublicKey} {owner : UserId}
    (hkey : registry.devices.lookup key = some owner) :
    ∃ user, registry.authorize key = some user ∧ user.id = owner := by
  obtain ⟨user, huser⟩ := Option.isSome_iff_exists.mp (h.owner key owner hkey)
  refine ⟨user, ?_, h.id owner user huser⟩
  rw [authorize, hkey]
  exact huser

end Consistent

theorem sameAnswers_refl (registry : UserRegistry) : SameAnswers registry registry :=
  ⟨fun _ => rfl, fun _ => rfl⟩

theorem sameAnswers_of_addUser {registry : UserRegistry} {user : User} {error : RegistryError}
    (h : (registry.addUser user).2 = .error error) :
    SameAnswers registry (registry.addUser user).1 := by
  obtain ⟨_, hstep⟩ | ⟨-, -, hstep⟩ := registry.addUser_cases user
  · rw [hstep]
    exact sameAnswers_refl registry
  · rw [hstep] at h
    cases h

theorem authorize_insert (registry : UserRegistry) (userId : UserId) (key other : PublicKey) :
    authorize { registry with devices := registry.devices.insert key userId } other =
      if other = key then registry.users.lookup userId else registry.authorize other := by
  rw [authorize, HashMap.lookup_insert_ite]
  split_ifs
  · rfl
  · rfl

theorem sameAnswers_insert_iff {registry : UserRegistry} (h : Consistent registry)
    {userId : UserId} {key : PublicKey} (huser : (registry.users.lookup userId).isSome = true) :
    SameAnswers registry { registry with devices := registry.devices.insert key userId } ↔
      ∃ user, registry.authorize key = some user ∧ user.id = userId := by
  obtain ⟨user, hfound⟩ := Option.isSome_iff_exists.mp huser
  have hid := h.id userId user hfound
  constructor
  · intro hsame
    have hkey := hsame.1 key
    rw [authorize_insert, if_pos rfl, hfound] at hkey
    exact ⟨user, hkey.symm, hid⟩
  · rintro ⟨owner, howner, rfl⟩
    refine ⟨?_, fun _ => rfl⟩
    intro other
    rw [authorize_insert]
    split_ifs with hother
    · rw [hother, howner]
      exact (h.authorize_eq_some.mp howner).2
    · rfl

/-- In every reachable registry a failed `add_user` goes unnoticed, and a failed `add_device`
does exactly when the user is unknown or already has the key. -/
theorem failed_calls_unnoticed_iff (history : List Operation) :
    let registry := Machine.run step new history
    (∀ user error, (registry.addUser user).2 = .error error →
      SameAnswers registry (registry.addUser user).1) ∧
    ∀ userId key error, (registry.addDevice userId key).2 = .error error →
      (SameAnswers registry (registry.addDevice userId key).1 ↔
        registry.user userId = none ∨
          ∃ user, registry.authorize key = some user ∧ user.id = userId) := by
  intro registry
  have hconsistent : Consistent registry := Consistent.run history
  refine ⟨fun user error => sameAnswers_of_addUser, ?_⟩
  intro userId key error _
  obtain ⟨hunknown, hstep⟩ | ⟨huser, hstep⟩ := registry.addDevice_cases userId key
  · rw [hstep]
    exact iff_of_true (sameAnswers_refl registry) (Or.inl hunknown)
  · have hknown : registry.user userId ≠ none := Option.isSome_iff_ne_none.mp huser
    rw [hstep, sameAnswers_insert_iff hconsistent huser]
    exact (or_iff_right hknown).symm

/-- The device of the first user is added for the second one: the call reports a duplicate key,
and the device belongs to the second user. -/
theorem duplicate_key_moves_device :
    let first : User := ⟨⟨1⟩, "first", 1⟩
    let second : User := ⟨⟨2⟩, "second", 1⟩
    let key : PublicKey := ⟨Vector.replicate 32 7⟩
    let registry := Machine.run step new
      [.addUser first, .addUser second, .addDevice first.id key]
    registry.authorize key = some first ∧
      (registry.addDevice second.id key).2 = .error .duplicateKey ∧
      (registry.addDevice second.id key).1.authorize key = some second := by
  decide +kernel

end UserRegistry

end MouseVpn.Server.Users
