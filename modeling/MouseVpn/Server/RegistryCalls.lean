import MouseVpn.Lib.Leases
import MouseVpn.Server.Registry

/-!
# What the registry calls do to the leases

A revocation strikes a lease and clears its flag, provisioning adds a lease with a new
flag, and a call that is refused changes nothing.
-/

namespace MouseVpn.Server

open MouseVpn.Lib MouseVpn.Crypto

namespace DeviceRegistry

variable {lib : Libraries}

def current (r : DeviceRegistry) (key : PublicKey) : Option ℕ :=
  (r.authorize key).map fun lease => lease.authorization.cell

theorem current_eq_update {r next : DeviceRegistry} {key : PublicKey} {lease? : Option DeviceLease}
    (h : ∀ key', next.authorize key' = if key' = key then lease? else r.authorize key') :
    next.current = Function.update r.current key
      (lease?.map fun lease => lease.authorization.cell) := by
  funext key'
  simp only [current, h, Function.update_apply]
  split_ifs <;> rfl

theorem revoke_spec (r : DeviceRegistry) (lib : Libraries) (text : String)
    (persist : Except String Unit) :
    ((r.revoke lib text persist).1 = r ∧ (r.revoke lib text persist).2 ≠ .ok true) ∨
    ∃ key, decodePublicKey lib text = .ok key ∧
      (r.devices.filter fun device => device.publicKey ≠ text) ≠ [] ∧
      r.revoke lib text persist =
        ({ r with
            devices := r.devices.filter fun device => device.publicKey ≠ text
            leases := r.leases.erase key
            flags := SoundLeases.cleared r.current r.flags key
            file := some ⟨0o600, .ok ⟨registryVersion,
              r.devices.filter fun device => device.publicKey ≠ text⟩⟩ },
          .ok true) := by
  unfold revoke
  cases hk : decodePublicKey lib text with
  | error e => exact Or.inl ⟨rfl, by simp⟩
  | ok key =>
    simp only
    split_ifs with hlen hempty
    · exact Or.inl ⟨rfl, by simp⟩
    · exact Or.inl ⟨rfl, by simp⟩
    · cases persist with
      | error e => exact Or.inl ⟨rfl, by simp [persistDevices]⟩
      | ok u =>
        refine Or.inr ⟨key, rfl, by simpa using hempty, ?_⟩
        simp only [persistDevices, SoundLeases.cleared, current, authorize]
        cases r.leases.lookup key <;> rfl

theorem revoke_cases (r : DeviceRegistry) (lib : Libraries) (text : String)
    (persist : Except String Unit) :
    ((r.revoke lib text persist).1 = r ∧ (r.revoke lib text persist).2 ≠ .ok true) ∨
    ∃ key, decodePublicKey lib text = .ok key ∧
      (∀ key', (r.revoke lib text persist).1.authorize key' =
        if key' = key then none else r.authorize key') ∧
      (r.revoke lib text persist).1.flags = SoundLeases.cleared r.current r.flags key := by
  refine (r.revoke_spec lib text persist).imp_right ?_
  rintro ⟨key, hk, -, h⟩
  rw [h]
  exact ⟨key, hk, fun key' => HashMap.lookup_erase_ite .., rfl⟩

theorem revoke_ok (r : DeviceRegistry) {text : String} {persist : Except String Unit}
    {key : PublicKey} (hk : decodePublicKey lib text = .ok key)
    (h : (r.revoke lib text persist).2 = .ok true) :
    (r.revoke lib text persist).1.authorize key = none := by
  rcases r.revoke_cases lib text persist with ⟨-, hne⟩ | ⟨key', hk', hl, -⟩
  · exact absurd h hne
  · rw [hk] at hk'
    cases hk'
    rw [hl, if_pos rfl]

theorem provision_spec (r : DeviceRegistry) (lib : Libraries) (name : String)
    (platform : DevicePlatform) (keys : Except String KeyPair) (persist : Except String Unit) :
    ((r.provision lib name platform keys persist).1 = r ∧
      ∃ e, (r.provision lib name platform keys persist).2 = .error e) ∨
    ∃ pair record, keys = .ok pair ∧ record.publicKey = encodePublicKey lib pair.publicKey ∧
      nextAddress r.devices r.tunnelAddress r.prefixLen = .ok record.address ∧
      r.provision lib name platform keys persist =
        ({ r with
            devices := r.devices ++ [record]
            leases := (addLease r.leases r.flags pair.publicKey record).1
            flags := (addLease r.leases r.flags pair.publicKey record).2
            file := some ⟨0o600, .ok ⟨registryVersion, r.devices ++ [record]⟩⟩ },
          .ok ⟨record, pair.secret⟩) := by
  unfold provision
  cases hv : validateName (trim name) with
  | error e =>
    simp only [hv]
    exact Or.inl ⟨trivial, e, rfl⟩
  | ok _ =>
    cases keys with
    | error e =>
      simp only [hv]
      exact Or.inl ⟨trivial, _, rfl⟩
    | ok pair =>
      cases ha : nextAddress r.devices r.tunnelAddress r.prefixLen with
      | error e =>
        simp only [hv]
        exact Or.inl ⟨trivial, e, rfl⟩
      | ok address =>
        simp only [hv]
        cases persist with
        | error e => exact Or.inl ⟨rfl, _, rfl⟩
        | ok u => exact Or.inr ⟨pair, _, rfl, rfl, rfl, rfl⟩

theorem provision_cases (r : DeviceRegistry) (lib : Libraries) (name : String)
    (platform : DevicePlatform)
    (keys : Except String KeyPair) (persist : Except String Unit) :
    (r.provision lib name platform keys persist).1 = r ∨
    ∃ pair lease, keys = .ok pair ∧ lease.authorization.cell = r.flags.length ∧
      (∀ key, (r.provision lib name platform keys persist).1.authorize key =
        if key = pair.publicKey then some lease else r.authorize key) ∧
      (r.provision lib name platform keys persist).1.flags = r.flags ++ [true] := by
  rcases r.provision_spec lib name platform keys persist with ⟨h, -⟩ | ⟨pair, record, hk, -, -, h⟩
  · exact Or.inl h
  · rw [h]
    exact Or.inr ⟨pair, _, hk, rfl, fun key => HashMap.lookup_insert_ite .., rfl⟩

end DeviceRegistry

end MouseVpn.Server
