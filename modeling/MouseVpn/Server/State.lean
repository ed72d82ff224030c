import MouseVpn.Crypto.Handshake
import MouseVpn.Server.Users

/-!
# Server state: users, devices and sessions

`ServerState` keeps the user registry beside the table of network sessions. Removing a device or
a user from the registry also removes their sessions from the table, so that a stored session
always belongs to a user who is still authorized for its key.
-/

namespace MouseVpn.Server.State

open MouseVpn.Lib MouseVpn.Crypto MouseVpn.Server.Users

structure ActiveSession where
  userId : UserId
  peer : SocketAddr
  crypto : SecureSession
  lastSeen : ℕ

inductive SessionInsertError
  | sessionIdInUse
  | tableFull
  | userLimitReached (id : UserId)
  deriving DecidableEq, Repr

inductive SessionAccessError
  | unknownSession
  | peerMismatch
  deriving DecidableEq, Repr

structure SessionTable where
  sessions : HashMap UInt64 ActiveSession
  maximum : ℕ

namespace SessionTable

def new (maximum : ℕ) : SessionTable := ⟨∅, maximum⟩

def ofUser (userId : UserId) (session : ActiveSession) : Bool := decide (session.userId = userId)

def ofDevice (publicKey : PublicKey) (session : ActiveSession) : Bool :=
  decide (session.crypto.peerStaticKey = publicKey)

/-- `now` is the clock when the session is stored. -/
def insert (table : SessionTable) (sessionId : UInt64) (user : User) (peer : SocketAddr)
    (crypto : SecureSession) (now : ℕ) : SessionTable × Except SessionInsertError Unit :=
  if (table.sessions.lookup sessionId).isSome then (table, .error .sessionIdInUse)
  else if table.maximum ≤ table.sessions.keys.length then (table, .error .tableFull)
  else if user.maxSessions ≤ table.sessions.count (ofUser user.id) then
    (table, .error (.userLimitReached user.id))
  else
    ({ table with sessions := table.sessions.insert sessionId ⟨user.id, peer, crypto, now⟩ },
      .ok ())

def getMut (table : SessionTable) (sessionId : UInt64) (peer : SocketAddr) (now : ℕ) :
    SessionTable × Except SessionAccessError ActiveSession :=
  match table.sessions.lookup sessionId with
  | none => (table, .error .unknownSession)
  | some session =>
    if session.peer ≠ peer then (table, .error .peerMismatch)
    else
      let touched := { session with lastSeen := now }
      ({ table with sessions := table.sessions.insert sessionId touched }, .ok touched)

def removeUnless (keep : ActiveSession → Bool) (table : SessionTable) : SessionTable × ℕ :=
  let sessions := HashMap.retain (fun _ => keep) table.sessions
  ({ table with sessions }, table.sessions.keys.length - sessions.keys.length)

def removeExpired (table : SessionTable) (maximumIdle now : ℕ) : SessionTable × ℕ :=
  table.removeUnless fun session => decide (now - session.lastSeen ≤ maximumIdle)

def removeUser (table : SessionTable) (userId : UserId) : SessionTable × ℕ :=
  table.removeUnless fun session => !ofUser userId session

def removeDevice (table : SessionTable) (publicKey : PublicKey) : SessionTable × ℕ :=
  table.removeUnless fun session => !ofDevice publicKey session

end SessionTable

structure ProvisionedDevice where
  publicKey : PublicKey
  secretKey : SecretKey

structure RevokeResult where
  revoked : Bool
  closedSessions : ℕ
  deriving DecidableEq, Repr

inductive StateError
  | crypto (error : CryptoError)
  | registry (error : Users.RegistryError)
  | session (error : SessionInsertError)
  | userIdExhausted
  deriving DecidableEq, Repr

structure ServerState where
  nextUserId : UInt64
  users : UserRegistry
  sessions : SessionTable

namespace ServerState

def new (maximumSessions : ℕ) : ServerState := ⟨1, .new, .new maximumSessions⟩

def createUser (state : ServerState) (name : String) (maxSessions : ℕ) :
    ServerState × Except StateError User :=
  match checkedAdd state.nextUserId 1 with
  | none => (state, .error .userIdExhausted)
  | some next =>
    let user : User := ⟨⟨state.nextUserId⟩, name, maxSessions⟩
    match state.users.addUser user with
    | (users, .error error) => ({ state with nextUserId := next, users }, .error (.registry error))
    | (users, .ok ()) => ({ state with nextUserId := next, users }, .ok user)

/-- `keys` is the outcome of key generation. -/
def provisionDevice (state : ServerState) (userId : UserId) (keys : Except CryptoError KeyPair) :
    ServerState × Except StateError ProvisionedDevice :=
  match keys with
  | .error error => (state, .error (.crypto error))
  | .ok keys =>
    match state.users.addDevice userId keys.publicKey with
    | (users, .error error) => ({ state with users }, .error (.registry error))
    | (users, .ok ()) => ({ state with users }, .ok ⟨keys.publicKey, keys.secret⟩)

def revokeDevice (state : ServerState) (publicKey : PublicKey) : ServerState × RevokeResult :=
  let (users, owner) := state.users.revokeDevice publicKey
  if owner.isSome then
    let (sessions, closed) := state.sessions.removeDevice publicKey
    ({ state with users, sessions }, ⟨true, closed⟩)
  else ({ state with users }, ⟨false, 0⟩)

def revokeUser (state : ServerState) (userId : UserId) : ServerState × RevokeResult :=
  let (users, removed) := state.users.revokeUser userId
  if removed.isSome then
    let (sessions, closed) := state.sessions.removeUser userId
    ({ state with users, sessions }, ⟨true, closed⟩)
  else ({ state with users }, ⟨false, 0⟩)

def authorize (state : ServerState) (publicKey : PublicKey) : Option User :=
  state.users.authorize publicKey

def insertSession (state : ServerState) (sessionId : UInt64) (user : User) (peer : SocketAddr)
    (crypto : SecureSession) (now : ℕ) : ServerState × Except StateError Unit :=
  match state.sessions.insert sessionId user peer crypto now with
  | (sessions, .error error) => ({ state with sessions }, .error (.session error))
  | (sessions, .ok ()) => ({ state with sessions }, .ok ())

def sessionMut (state : ServerState) (sessionId : UInt64) (peer : SocketAddr) (now : ℕ) :
    ServerState × Except SessionAccessError ActiveSession :=
  let (sessions, found) := state.sessions.getMut sessionId peer now
  ({ state with sessions }, found)

inductive Event
  | createUser (name : String) (maxSessions : ℕ)
  | provisionDevice (userId : UserId) (keys : Except CryptoError KeyPair)
  | revokeDevice (publicKey : PublicKey)
  | revokeUser (userId : UserId)
  | insertSession (sessionId : UInt64) (user : User) (peer : SocketAddr) (crypto : SecureSession)
      (now : ℕ)
  | sessionMut (sessionId : UInt64) (peer : SocketAddr) (now : ℕ)
  | removeExpired (maximumIdle now : ℕ)

def step (state : ServerState) : Event → ServerState × Option RevokeResult
  | .createUser name maxSessions => ((state.createUser name maxSessions).1, none)
  | .provisionDevice userId keys => ((state.provisionDevice userId keys).1, none)
  | .revokeDevice publicKey =>
    ((state.revokeDevice publicKey).1, some (state.revokeDevice publicKey).2)
  | .revokeUser userId => ((state.revokeUser userId).1, some (state.revokeUser userId).2)
  | .insertSession sessionId user peer crypto now =>
    ((state.insertSession sessionId user peer crypto now).1, none)
  | .sessionMut sessionId peer now => ((state.sessionMut sessionId peer now).1, none)
  | .removeExpired maximumIdle now =>
    ({ state with sessions := (state.sessions.removeExpired maximumIdle now).1 }, none)

/-- Generated keys are new, and a session is inserted for the user that is authorized for its
key at the time. -/
def Admissible (state : ServerState) : Event → Prop
  | .provisionDevice _ (.ok keys) => state.users.devices.lookup keys.publicKey = none
  | .insertSession _ user _ crypto _ => state.authorize crypto.peerStaticKey = some user
  | _ => True

/-- Between the two states exactly the sessions with the property are removed, and `closed` is
their number. -/
structure Closes (property : ActiveSession → Bool) (before after : ServerState) (closed : ℕ) :
    Prop where
  kept : ∀ sessionId session, after.sessions.sessions.lookup sessionId = some session ↔
    before.sessions.sessions.lookup sessionId = some session ∧ property session = false
  counted : closed = before.sessions.sessions.count property

theorem closes_removeUnless (state : ServerState) (users : UserRegistry)
    (property : ActiveSession → Bool) :
    Closes property state
      { state with users, sessions := (state.sessions.removeUnless fun s => !property s).1 }
      (state.sessions.removeUnless fun s => !property s).2 where
  kept := by
    intro sessionId session
    change (HashMap.retain (fun _ s => !property s) state.sessions.sessions).lookup sessionId =
      some session ↔ _
    rw [HashMap.lookup_retain, Option.filter_eq_some_iff, Bool.not_eq_true']
  counted := by
    have hadd : (HashMap.retain (fun _ s => !property s) state.sessions.sessions).keys.length +
        state.sessions.sessions.count property = state.sessions.sessions.keys.length := by
      simpa using HashMap.length_retain_add (fun s => !property s) state.sessions.sessions
    exact Nat.sub_eq_of_eq_add' hadd.symm

theorem closes_none {property : ActiveSession → Bool} {state : ServerState} {users : UserRegistry}
    (h : state.sessions.sessions.count property = 0) :
    Closes property state { state with users } 0 where
  kept := by
    intro sessionId session
    constructor
    · intro hfound
      exact ⟨hfound, HashMap.count_eq_zero_iff.mp h sessionId session hfound⟩
    · exact fun hfound => hfound.1
  counted := h.symm

structure Sound (maximum : ℕ) (state : ServerState) : Prop where
  registry : state.users.Consistent
  owned : ∀ sessionId session, state.sessions.sessions.lookup sessionId = some session →
    state.users.devices.lookup session.crypto.peerStaticKey = some session.userId
  limit : state.sessions.maximum = maximum
  total : state.sessions.sessions.keys.length ≤ maximum
  perUser : ∀ userId user, state.users.users.lookup userId = some user →
    state.sessions.sessions.count (SessionTable.ofUser userId) ≤ user.maxSessions

namespace Sound

variable {maximum : ℕ} {state : ServerState}

theorem new (maximum : ℕ) : Sound maximum (ServerState.new maximum) where
  registry := UserRegistry.consistent_new
  owned := by
    intro sessionId session h
    cases h
  limit := rfl
  total := Nat.zero_le _
  perUser := by
    intro userId user h
    cases h

theorem count_unknown (h : Sound maximum state) {userId : UserId}
    (hunknown : state.users.users.lookup userId = none) :
    state.sessions.sessions.count (SessionTable.ofUser userId) = 0 := by
  apply HashMap.count_eq_zero_iff.mpr
  intro sessionId session hfound
  apply decide_eq_false
  rintro rfl
  have howner := h.registry.owner _ _ (h.owned sessionId session hfound)
  rw [hunknown] at howner
  cases howner

theorem count_unregistered (h : Sound maximum state) {key : PublicKey}
    (hunregistered : state.users.devices.lookup key = none) :
    state.sessions.sessions.count (SessionTable.ofDevice key) = 0 := by
  apply HashMap.count_eq_zero_iff.mpr
  intro sessionId session hfound
  apply decide_eq_false
  rintro rfl
  have howned := h.owned sessionId session hfound
  rw [hunregistered] at howned
  cases howned

theorem remove (h : Sound maximum state) {users : UserRegistry} (keep : ActiveSession → Bool)
    (hregistry : users.Consistent)
    (howned : ∀ sessionId session, state.sessions.sessions.lookup sessionId = some session →
      keep session = true →
      users.devices.lookup session.crypto.peerStaticKey = some session.userId)
    (husers : ∀ userId user, users.users.lookup userId = some user →
      state.users.users.lookup userId = some user) :
    Sound maximum { state with users, sessions := (state.sessions.removeUnless keep).1 } where
  registry := hregistry
  owned := by
    intro sessionId session hfound
    change (HashMap.retain (fun _ => keep) state.sessions.sessions).lookup sessionId =
      some session at hfound
    rw [HashMap.lookup_retain, Option.filter_eq_some_iff] at hfound
    exact howned sessionId session hfound.1 hfound.2
  limit := h.limit
  total := by
    have hadd := HashMap.length_retain_add keep state.sessions.sessions
    have htotal := h.total
    change (HashMap.retain (fun _ => keep) state.sessions.sessions).keys.length ≤ maximum
    omega
  perUser := by
    intro userId user huser
    exact Nat.le_trans (HashMap.count_retain_le _ _ _)
      (h.perUser userId user (husers userId user huser))

theorem createUser (h : Sound maximum state) (name : String) (maxSessions : ℕ) :
    Sound maximum (state.createUser name maxSessions).1 := by
  rw [ServerState.createUser]
  cases checkedAdd state.nextUserId 1 with
  | none => exact h
  | some next =>
    obtain ⟨error, hadd⟩ | ⟨hnew, -, hadd⟩ :=
      state.users.addUser_cases ⟨⟨state.nextUserId⟩, name, maxSessions⟩
    · simp only [hadd]
      exact { h with }
    · simp only [hadd]
      have hregistry := h.registry.addUser ⟨⟨state.nextUserId⟩, name, maxSessions⟩
      rw [hadd] at hregistry
      refine ⟨hregistry, h.owned, h.limit, h.total, ?_⟩
      intro userId user huser
      rw [HashMap.lookup_insert_ite] at huser
      split_ifs at huser with hid
      · rw [hid, h.count_unknown hnew]
        exact Nat.zero_le _
      · exact h.perUser userId user huser

theorem provisionDevice (h : Sound maximum state) {userId : UserId}
    {keys : Except CryptoError KeyPair}
    (hfresh : Admissible state (.provisionDevice userId keys)) :
    Sound maximum (state.provisionDevice userId keys).1 := by
  cases keys with
  | error error => exact h
  | ok keys =>
    rw [ServerState.provisionDevice]
    have hregistry := h.registry.addDevice userId keys.publicKey
    obtain ⟨-, hadd⟩ | ⟨-, hadd⟩ := state.users.addDevice_cases userId keys.publicKey
    · simp only [hadd]
      exact { h with }
    · change state.users.devices.lookup keys.publicKey = none at hfresh
      rw [hfresh] at hadd
      simp only [hadd, Option.isSome_none, Bool.false_eq_true, if_false] at hregistry ⊢
      refine ⟨hregistry, ?_, h.limit, h.total, h.perUser⟩
      intro sessionId session hfound
      have howned := h.owned sessionId session hfound
      rw [HashMap.lookup_insert_ite, if_neg]
      · exact howned
      · intro hkey
        rw [hkey, hfresh] at howned
        cases howned

theorem revokeDevice (h : Sound maximum state) (publicKey : PublicKey) :
    Sound maximum (state.revokeDevice publicKey).1 := by
  have hregistry := h.registry.revokeDevice publicKey
  have hkept : ∀ key, key ≠ publicKey →
      (state.users.revokeDevice publicKey).1.devices.lookup key =
        state.users.devices.lookup key := fun key hkey => AList.lookup_erase_ne hkey
  rw [ServerState.revokeDevice]
  cases howner : (state.users.revokeDevice publicKey).2.isSome with
  | true =>
    simp only [howner, if_true]
    apply h.remove _ hregistry
    · intro sessionId session hfound hkeep
      rw [hkept]
      · exact h.owned sessionId session hfound
      · simpa [SessionTable.ofDevice] using hkeep
    · exact fun _ _ huser => huser
  | false =>
    simp only [howner, Bool.false_eq_true, if_false]
    have hnone : state.users.devices.lookup publicKey = none := by
      simpa [UserRegistry.revokeDevice] using howner
    refine ⟨hregistry, ?_, h.limit, h.total, h.perUser⟩
    intro sessionId session hfound
    have howned := h.owned sessionId session hfound
    rw [hkept]
    · exact howned
    · intro hkey
      rw [hkey, hnone] at howned
      cases howned

theorem revokeUser (h : Sound maximum state) (userId : UserId) :
    Sound maximum (state.revokeUser userId).1 := by
  have hregistry := h.registry.revokeUser userId
  rw [ServerState.revokeUser]
  obtain ⟨-, hrevoke⟩ | ⟨removed, -, hrevoke⟩ := state.users.revokeUser_cases userId
  · simp only [hrevoke, Option.isSome_none, Bool.false_eq_true, if_false]
    exact { h with }
  · rw [hrevoke] at hregistry
    simp only [hrevoke, Option.isSome_some, if_true]
    apply h.remove _ hregistry
    · intro sessionId session hfound hkeep
      rw [HashMap.lookup_retain, h.owned sessionId session hfound]
      simpa [SessionTable.ofUser] using hkeep
    · intro other user huser
      rw [HashMap.lookup_erase_ite] at huser
      split_ifs at huser with hid
      exact huser

theorem insertSession (h : Sound maximum state) {sessionId : UInt64} {user : User}
    {peer : SocketAddr} {crypto : SecureSession} {now : ℕ}
    (hauthorized : Admissible state (.insertSession sessionId user peer crypto now)) :
    Sound maximum (state.insertSession sessionId user peer crypto now).1 := by
  obtain ⟨hkey, huser⟩ := h.registry.authorize_eq_some.mp hauthorized
  rw [ServerState.insertSession, SessionTable.insert]
  split_ifs with hused hfull hlimit
  · exact h
  · exact h
  · exact h
  · rw [Option.not_isSome_iff_eq_none] at hused
    have hcount : ∀ userId, HashMap.count (SessionTable.ofUser userId)
        (state.sessions.sessions.insert sessionId ⟨user.id, peer, crypto, now⟩) =
          state.sessions.sessions.count (SessionTable.ofUser userId) +
            (if user.id = userId then 1 else 0) := by
      intro userId
      have hinsert := HashMap.count_insert (SessionTable.ofUser userId) state.sessions.sessions
        sessionId ⟨user.id, peer, crypto, now⟩
      rw [hused] at hinsert
      simpa [SessionTable.ofUser] using hinsert
    refine ⟨h.registry, ?_, h.limit, ?_, ?_⟩
    · intro other session hfound
      change (state.sessions.sessions.insert sessionId
        ⟨user.id, peer, crypto, now⟩).lookup other = some session at hfound
      rw [HashMap.lookup_insert_ite] at hfound
      split_ifs at hfound with hother
      · rw [← Option.some.inj hfound]
        exact hkey
      · exact h.owned other session hfound
    · change (state.sessions.sessions.insert sessionId _).keys.length ≤ maximum
      rw [HashMap.length_insert_of_none _ hused, ← h.limit]
      exact Nat.lt_of_not_le hfull
    · intro userId other hother
      change HashMap.count (SessionTable.ofUser userId)
        (state.sessions.sessions.insert sessionId _) ≤ other.maxSessions
      rw [hcount]
      split_ifs with hid
      · rw [← hid, huser] at hother
        rw [← hid, ← Option.some.inj hother]
        exact Nat.lt_of_not_le hlimit
      · exact h.perUser userId other hother

theorem sessionMut (h : Sound maximum state) (sessionId : UInt64) (peer : SocketAddr) (now : ℕ) :
    Sound maximum (state.sessionMut sessionId peer now).1 := by
  rw [ServerState.sessionMut, SessionTable.getMut]
  cases hsession : state.sessions.sessions.lookup sessionId with
  | none => exact h
  | some session =>
    by_cases hpeer : session.peer = peer
    · subst hpeer
      simp only [ne_eq, not_true_eq_false, if_false]
      refine ⟨h.registry, ?_, h.limit, ?_, ?_⟩
      · intro other found hfound
        rw [HashMap.lookup_insert_ite] at hfound
        split_ifs at hfound with hother
        · rw [← Option.some.inj hfound]
          exact h.owned sessionId session hsession
        · exact h.owned other found hfound
      · rw [HashMap.length_insert_of_some _ (by rw [hsession]; rfl)]
        exact h.total
      · intro userId user huser
        have hinsert := HashMap.count_insert (SessionTable.ofUser userId) state.sessions.sessions
          sessionId { session with lastSeen := now }
        rw [hsession] at hinsert
        have hcount := Nat.add_right_cancel hinsert
        rw [hcount]
        exact h.perUser userId user huser
    · simp only [ne_eq, hpeer, not_false_eq_true, if_true]
      exact h

theorem step (h : Sound maximum state) {event : Event} (hevent : Admissible state event) :
    Sound maximum (state.step event).1 := by
  cases event with
  | createUser name maxSessions => exact h.createUser name maxSessions
  | provisionDevice userId keys => exact h.provisionDevice hevent
  | revokeDevice publicKey => exact h.revokeDevice publicKey
  | revokeUser userId => exact h.revokeUser userId
  | insertSession sessionId user peer crypto now => exact h.insertSession hevent
  | sessionMut sessionId peer now => exact h.sessionMut sessionId peer now
  | removeExpired maximumIdle now =>
    exact h.remove _ h.registry (fun sessionId session hfound _ => h.owned sessionId session hfound)
      (fun _ _ huser => huser)

theorem run {events : List Event}
    (h : Machine.Obeys ServerState.step Admissible (ServerState.new maximum) events) :
    Sound maximum (Machine.run ServerState.step (ServerState.new maximum) events) :=
  Machine.run_invariant_of_obeys ServerState.step (Sound maximum)
    (fun _ _ hsound hevent => hsound.step hevent) (Sound.new maximum) h

theorem closes_device (h : Sound maximum state) (publicKey : PublicKey) :
    Closes (SessionTable.ofDevice publicKey) state (state.revokeDevice publicKey).1
      (state.revokeDevice publicKey).2.closedSessions := by
  rw [ServerState.revokeDevice]
  cases howner : (state.users.revokeDevice publicKey).2.isSome with
  | true =>
    simp only [howner, if_true]
    exact closes_removeUnless state _ _
  | false =>
    simp only [howner, Bool.false_eq_true, if_false]
    have hnone : state.users.devices.lookup publicKey = none := by
      simpa [UserRegistry.revokeDevice] using howner
    exact closes_none (h.count_unregistered hnone)

theorem closes_user (h : Sound maximum state) (userId : UserId) :
    Closes (SessionTable.ofUser userId) state (state.revokeUser userId).1
      (state.revokeUser userId).2.closedSessions := by
  rw [ServerState.revokeUser]
  obtain ⟨hnone, hrevoke⟩ | ⟨removed, -, hrevoke⟩ := state.users.revokeUser_cases userId
  · simp only [hrevoke, Option.isSome_none, Bool.false_eq_true, if_false]
    exact closes_none (h.count_unknown hnone)
  · simp only [hrevoke, Option.isSome_some, if_true]
    exact closes_removeUnless state _ _

theorem authorized (h : Sound maximum state) {sessionId : UInt64} {session : ActiveSession}
    (hfound : state.sessions.sessions.lookup sessionId = some session) :
    ∃ user, state.authorize session.crypto.peerStaticKey = some user ∧
      user.id = session.userId :=
  h.registry.authorize_of_lookup (h.owned sessionId session hfound)

end Sound

/-- In every reachable state the key of each session is authorized for the session's user, the
table and every user keep to their limits, and a revocation removes exactly the sessions of its
key or user and reports their number. -/
theorem sessions_stay_authorized (maximum : ℕ) (events : List Event)
    (admissible : Machine.Obeys step Admissible (new maximum) events) :
    let state := Machine.run step (new maximum) events
    (∀ sessionId session, state.sessions.sessions.lookup sessionId = some session →
      ∃ user, state.authorize session.crypto.peerStaticKey = some user ∧
        user.id = session.userId) ∧
    state.sessions.sessions.keys.length ≤ maximum ∧
    (∀ userId user, state.users.user userId = some user →
      state.sessions.sessions.count (SessionTable.ofUser userId) ≤ user.maxSessions) ∧
    (∀ publicKey, Closes (SessionTable.ofDevice publicKey) state
      (state.revokeDevice publicKey).1 (state.revokeDevice publicKey).2.closedSessions) ∧
    (∀ userId, Closes (SessionTable.ofUser userId) state
      (state.revokeUser userId).1 (state.revokeUser userId).2.closedSessions) := by
  intro state
  have h : Sound maximum state := Sound.run admissible
  exact ⟨fun _ _ => h.authorized, h.total, h.perUser, h.closes_device, h.closes_user⟩

def sampleKey (n : UInt8) : PublicKey := ⟨Vector.replicate 32 n⟩

/-- Two users with a device and a session each. -/
def sampleEvents : List Event :=
  [.createUser "first" 2, .createUser "second" 1,
    .provisionDevice ⟨1⟩ (.ok ⟨⟨Vector.replicate 32 3⟩, sampleKey 7⟩),
    .provisionDevice ⟨2⟩ (.ok ⟨⟨Vector.replicate 32 4⟩, sampleKey 8⟩),
    .insertSession 5 ⟨⟨1⟩, "first", 2⟩ (.v4 ⟨192, 0, 2, 1⟩ 4000)
      (SecureSession.new clearTransport (sampleKey 7)) 0,
    .insertSession 6 ⟨⟨2⟩, "second", 1⟩ (.v4 ⟨192, 0, 2, 2⟩ 4000)
      (SecureSession.new clearTransport (sampleKey 8)) 0]

/-- A revocation closes one of two sessions. -/
theorem sessions_stay_authorized_two :
    let state := Machine.run step (new 8) sampleEvents
    state.sessions.sessions.keys = [6, 5] ∧
      Closes (SessionTable.ofDevice (sampleKey 7)) state (state.revokeDevice (sampleKey 7)).1 1 ∧
      (state.revokeDevice (sampleKey 7)).1.sessions.sessions.keys = [6] := by
  intro state
  refine ⟨by decide +kernel, ?_, by decide +kernel⟩
  have hclosed : (state.revokeDevice (sampleKey 7)).2.closedSessions = 1 := by decide +kernel
  rw [← hclosed]
  have h := sessions_stay_authorized 8 sampleEvents
    ⟨trivial, trivial, by simp only [Admissible]; decide +kernel,
      by simp only [Admissible]; decide +kernel, by simp only [Admissible]; decide +kernel,
      by simp only [Admissible]; decide +kernel, trivial⟩
  exact h.2.2.2.1 (sampleKey 7)

end ServerState

end MouseVpn.Server.State
