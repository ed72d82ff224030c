import MouseVpn.Lib.Machine
import MouseVpn.Server.RegistryInvariant

/-!
# The registry over its whole history

The registry is opened from its file or from the seeds, and then devices are provisioned
and revoked, with every write of the file allowed to fail. The list in memory, the lease
map, the authorization flags and the file stay tied together along every such history,
and the leases that the server has handed out stop being active when they are revoked.
-/

namespace MouseVpn.Server

open MouseVpn.Lib MouseVpn.Crypto

variable {lib : Libraries}

inductive RegistryStore
  | closed (file : Option StoreFile)
  | opened (registry : DeviceRegistry) (handed : List DeviceLease)

inductive RegistryCall
  | open (seeds : List SeedDevice) (tunnelAddress : Ipv4Addr) (prefixLen : UInt8)
      (persist : Except String Unit)
  | provision (name : String) (platform : DevicePlatform) (keys : Except String KeyPair)
      (persist : Except String Unit)
  | revoke (publicKey : String) (persist : Except String Unit)
  | authorize (publicKey : PublicKey)

inductive RegistryReply
  | opened
  | provisioned (device : ProvisionedDevice)
  | revoked (removed : Bool)
  | authorized (lease : Option DeviceLease)

def RegistryCall.opens : RegistryCall → Bool
  | .open .. => true
  | _ => false

namespace RegistryStore

def file : RegistryStore → Option StoreFile
  | closed file => file
  | opened registry _ => registry.file

/-- Opening is the start of a server, which has handed out nothing yet. There is no reply
to a call while nothing is open. -/
def step (lib : Libraries) (st : RegistryStore) :
    RegistryCall → RegistryStore × Option (Except RegistryError RegistryReply)
  | .open seeds tunnelAddress prefixLen persist =>
    match DeviceRegistry.open lib st.file seeds tunnelAddress prefixLen persist with
    | .error e => (st, some (.error e))
    | .ok registry => (opened registry [], some (.ok .opened))
  | .provision name platform keys persist =>
    match st with
    | closed file => (closed file, none)
    | opened registry handed =>
      let (registry, reply) := registry.provision lib name platform keys persist
      (opened registry handed, some (reply.map .provisioned))
  | .revoke publicKey persist =>
    match st with
    | closed file => (closed file, none)
    | opened registry handed =>
      let (registry, reply) := registry.revoke lib publicKey persist
      (opened registry handed, some (reply.map .revoked))
  | .authorize publicKey =>
    match st with
    | closed file => (closed file, none)
    | opened registry handed =>
      let lease := registry.authorize publicKey
      (opened registry (handed ++ lease.toList), some (.ok (.authorized lease)))

def after (lib : Libraries) (file : Option StoreFile) (calls : List RegistryCall) :
    RegistryStore :=
  Machine.run (step lib) (closed file) calls

def FreshKeys (lib : Libraries) (file : Option StoreFile) (calls : List RegistryCall) : Prop :=
  ∀ pre name platform pair persist post,
    calls = pre ++ .provision name platform (.ok pair) persist :: post →
    ∀ registry handed, after lib file pre = opened registry handed →
      ∀ device ∈ registry.devices, device.publicKey ≠ encodePublicKey lib pair.publicKey

def Held (handed : List DeviceLease) (key : PublicKey) (cell : ℕ) : Prop :=
  ∃ lease ∈ handed, lease.publicKey = key ∧ lease.authorization.cell = cell

def Sound (lib : Libraries) : RegistryStore → Prop
  | closed _ => True
  | opened r handed => Consistent lib r ∧ SoundLeases r.current r.flags (Held handed)

theorem heldEmpty (r : DeviceRegistry) : SoundLeases r.current r.flags (Held []) := by
  constructor <;> simp [Held]

section Step

variable {r : DeviceRegistry} {handed : List DeviceLease}

theorem sound_provision (hb : CanonicalBase64 lib) (h : Sound lib (opened r handed))
    {name : String} {platform : DevicePlatform} {keys : Except String KeyPair}
    {persist : Except String Unit}
    (hfresh : ∀ pair, keys = .ok pair →
      ∀ device ∈ r.devices, device.publicKey ≠ encodePublicKey lib pair.publicKey) :
    Sound lib (opened (r.provision lib name platform keys persist).1 handed) := by
  refine ⟨h.1.provision hb hfresh, ?_⟩
  rcases r.provision_cases lib name platform keys persist with
    heq | ⟨pair, lease, hkeys, hc, hl, hf⟩
  · rw [heq]
    exact h.2
  · have hnone : r.current pair.publicKey = none := by
      rw [DeviceRegistry.current, DeviceRegistry.authorize, h.1.leased.lookup_eq_none,
        Option.map_none]
      exact fun device hd hk => hfresh pair hkeys device hd ((decodePublicKey_ok_iff hb).mp hk)
    rw [hf, DeviceRegistry.current_eq_update hl, Option.map_some, hc]
    exact (h.2.grant fun cell _ => by simp [hnone]).mono fun key cell hh => Or.inl hh

theorem sound_revoke (hb : CanonicalBase64 lib) (h : Sound lib (opened r handed))
    {text : String} {persist : Except String Unit} :
    Sound lib (opened (r.revoke lib text persist).1 handed) := by
  refine ⟨h.1.revoke hb, ?_⟩
  rcases r.revoke_cases lib text persist with ⟨heq, -⟩ | ⟨key, -, hl, hf⟩
  · rw [heq]
    exact h.2
  · rw [hf, DeviceRegistry.current_eq_update hl]
    exact h.2.strike key

theorem sound_authorize (h : Sound lib (opened r handed)) (key : PublicKey) :
    Sound lib (opened r (handed ++ (r.authorize key).toList)) := by
  refine ⟨h.1, ?_⟩
  -- the copy that is handed out is of the lease in force
  have hnew : ∀ lease ∈ (r.authorize key).toList,
      r.current lease.publicKey = some lease.authorization.cell ∧
        lease.authorization.cell < r.flags.length := by
    intro lease hl
    rw [Option.mem_toList] at hl
    obtain ⟨_, -, -, -, -, rfl, -⟩ := h.1.leased.only key lease hl
    exact ⟨congrArg (Option.map _) hl, h.1.leased.inRange hl⟩
  constructor
  · rintro _ _ ⟨lease, hl, rfl, rfl⟩
    rcases List.mem_append.mp hl with hl | hl
    · exact h.2.inRange _ _ ⟨lease, hl, rfl, rfl⟩
    · exact (hnew lease hl).2
  · rintro _ _ ⟨lease, hl, rfl, rfl⟩ hactive
    rcases List.mem_append.mp hl with hl | hl
    · exact h.2.live _ _ ⟨lease, hl, rfl, rfl⟩ hactive
    · exact (hnew lease hl).1

end Step

theorem sound_step (hb : CanonicalBase64 lib) {st : RegistryStore} (h : Sound lib st)
    (call : RegistryCall)
    (hfresh : ∀ name platform pair persist, call = .provision name platform (.ok pair) persist →
      ∀ registry handed, st = opened registry handed →
        ∀ device ∈ registry.devices, device.publicKey ≠ encodePublicKey lib pair.publicKey) :
    Sound lib (step lib st call).1 := by
  cases call with
  | «open» seeds tunnelAddress prefixLen persist =>
    simp only [step]
    cases ho : DeviceRegistry.open lib st.file seeds tunnelAddress prefixLen persist with
    | error e => exact h
    | ok r => exact ⟨.of_open ho, heldEmpty r⟩
  | provision name platform keys persist =>
    cases st with
    | closed file => exact h
    | opened r handed =>
      simp only [step]
      refine sound_provision hb h fun pair hkeys => ?_
      exact hfresh name platform pair persist (by rw [hkeys]) r handed rfl
  | revoke text persist =>
    cases st with
    | closed file => exact h
    | opened r handed => exact sound_revoke hb h
  | authorize key =>
    cases st with
    | closed file => exact h
    | opened r handed => exact sound_authorize h key

theorem FreshKeys.of_append {file : Option StoreFile} {calls calls' : List RegistryCall}
    (h : FreshKeys lib file (calls ++ calls')) : FreshKeys lib file calls := by
  rintro pre name platform pair persist post rfl
  exact h pre name platform pair persist (post ++ calls') (by simp)

theorem freshKeys_concat {file : Option StoreFile} (calls : List RegistryCall)
    {call : RegistryCall} :
    FreshKeys lib file (calls ++ [call]) ↔ FreshKeys lib file calls ∧
      ∀ name platform pair persist, call = .provision name platform (.ok pair) persist →
        ∀ registry handed, after lib file calls = opened registry handed →
          ∀ device ∈ registry.devices, device.publicKey ≠ encodePublicKey lib pair.publicKey := by
  constructor
  · intro h
    refine ⟨h.of_append, ?_⟩
    rintro name platform pair persist rfl
    exact h calls name platform pair persist [] rfl
  · rintro ⟨hpast, hcall⟩ pre name platform pair persist post hsplit
    rcases Machine.split_concat hsplit with ⟨rfl, rfl, -⟩ | ⟨post', -, rfl⟩
    · exact hcall name platform pair persist rfl
    · exact hpast pre name platform pair persist post' rfl

theorem freshKeys_nil (file : Option StoreFile) : FreshKeys lib file [] := by
  intro pre name platform pair persist post h
  simp at h

theorem sound_after (hb : CanonicalBase64 lib) {file : Option StoreFile}
    {calls : List RegistryCall} (hfresh : FreshKeys lib file calls) :
    Sound lib (after lib file calls) := by
  have hinit : Sound lib (closed file) := trivial
  refine Machine.run_induction (step lib)
    (fun calls st => FreshKeys lib file calls → Sound lib st) (fun _ => hinit) ?_ calls hfresh
  intro calls call ih hfresh
  obtain ⟨hpast, hcall⟩ := (freshKeys_concat calls).mp hfresh
  exact sound_step hb (ih hpast) call hcall

theorem step_error {st : RegistryStore} {call : RegistryCall} {e : RegistryError}
    (h : (step lib st call).2 = some (.error e)) : (step lib st call).1 = st := by
  cases call with
  | «open» seeds tunnelAddress prefixLen persist =>
    simp only [step] at h ⊢
    cases ho : DeviceRegistry.open lib st.file seeds tunnelAddress prefixLen persist with
    | error e => rfl
    | ok r => simp [ho] at h
  | provision name platform keys persist =>
    cases st with
    | closed file => rfl
    | opened r handed =>
      simp only [step] at h ⊢
      rcases r.provision_spec lib name platform keys persist with
        ⟨heq, -⟩ | ⟨pair, record, -, -, -, heq⟩
      · rw [heq]
      · simp [heq, Except.map] at h
  | revoke text persist =>
    cases st with
    | closed file => rfl
    | opened r handed =>
      simp only [step] at h ⊢
      rcases r.revoke_spec lib text persist with ⟨heq, -⟩ | ⟨key, -, -, heq⟩
      · rw [heq]
      · simp [heq, Except.map] at h
  | authorize key =>
    cases st with
    | closed file => rfl
    | opened r handed => simp [step] at h

def Disabled (lease : DeviceLease) : RegistryStore → Prop
  | closed _ => False
  | opened r _ => lease.authorization.cell < r.flags.length ∧ r.isActive lease.authorization = false

theorem disabled_step {st : RegistryStore} {call : RegistryCall} {lease : DeviceLease}
    (h : Disabled lease st) (hcall : call.opens = false) : Disabled lease (step lib st call).1 := by
  cases st with
  | closed file => exact h.elim
  | opened r handed =>
    cases call with
    | «open» => cases hcall
    | provision name platform keys persist =>
      simp only [step]
      rcases r.provision_spec lib name platform keys persist with
        ⟨heq, -⟩ | ⟨pair, record, -, -, -, heq⟩
      · rw [heq]
        exact h
      · rw [heq]
        refine ⟨?_, ?_⟩
        · simpa [DeviceRegistry.addLease] using Nat.lt_succ_of_lt h.1
        · simp only [DeviceRegistry.isActive, DeviceRegistry.addLease]
          rw [List.getD_append _ _ _ _ h.1]
          exact h.2
    | revoke text persist =>
      simp only [step]
      rcases r.revoke_spec lib text persist with ⟨heq, -⟩ | ⟨key, -, -, heq⟩
      · rw [heq]
        exact h
      · rw [heq]
        refine ⟨by simpa using h.1, ?_⟩
        rw [← Bool.not_eq_true]
        intro hactive
        exact absurd (SoundLeases.getD_cleared hactive).1
          (by simpa [DeviceRegistry.isActive] using h.2)
    | authorize key => exact h

theorem disabled_run {st : RegistryStore} {calls : List RegistryCall} {lease : DeviceLease}
    (h : Disabled lease st) (hcalls : ∀ call ∈ calls, call.opens = false) :
    Disabled lease (Machine.run (step lib) st calls) := by
  induction calls generalizing st with
  | nil => exact h
  | cons call calls ih =>
    exact ih (disabled_step h (hcalls call List.mem_cons_self))
      fun call' hmem => hcalls call' (List.mem_cons_of_mem _ hmem)

theorem disabled_revoke (hb : CanonicalBase64 lib) {r : DeviceRegistry} {handed : List DeviceLease}
    (h : Sound lib (opened r handed)) {text : String} {persist : Except String Unit}
    {lease : DeviceLease} (hk : decodePublicKey lib text = .ok lease.publicKey)
    (hr : (r.revoke lib text persist).2 = .ok true) (hl : lease ∈ handed) :
    Disabled lease (step lib (opened r handed) (.revoke text persist)).1 := by
  have hs : SoundLeases (r.revoke lib text persist).1.current _ _ := (sound_revoke hb h).2
  have hheld : Held handed lease.publicKey lease.authorization.cell := ⟨lease, hl, rfl, rfl⟩
  refine ⟨hs.inRange _ _ hheld, ?_⟩
  rw [← Bool.not_eq_true]
  intro hactive
  have hcurrent := hs.live _ _ hheld hactive
  rw [DeviceRegistry.current, r.revoke_ok hk hr] at hcurrent
  cases hcurrent

theorem disabled_after (hb : CanonicalBase64 lib) {file : Option StoreFile}
    {pre post : List RegistryCall} (hfresh : FreshKeys lib file pre) {r : DeviceRegistry}
    {handed : List DeviceLease} (hpre : after lib file pre = opened r handed) {text : String}
    {persist : Except String Unit} {lease : DeviceLease}
    (hk : decodePublicKey lib text = .ok lease.publicKey)
    (hr : (r.revoke lib text persist).2 = .ok true) (hl : lease ∈ handed)
    (hpost : ∀ call ∈ post, call.opens = false) :
    Disabled lease (after lib file (pre ++ .revoke text persist :: post)) := by
  have hsound := sound_after hb hfresh
  rw [hpre] at hsound
  rw [after, Machine.run_append, Machine.run_cons, ← after, hpre]
  exact disabled_run (disabled_revoke hb hsound hk hr hl) hpost

/-- Along every history the list in memory is the one in the file, it is admissible, and
the lease map has an active lease for each listed device and no other. A lease that was
handed out is active only while it is in force, and a revocation disables all copies of it
for as long as the server runs. A call that fails changes nothing. -/
theorem history_consistent (hb : CanonicalBase64 lib) (file : Option StoreFile)
    (calls : List RegistryCall) (hfresh : FreshKeys lib file calls) :
    (∀ r handed, after lib file calls = opened r handed → Consistent lib r ∧
      ∀ lease ∈ handed, r.isActive lease.authorization = true →
        (r.authorize lease.publicKey).map DeviceLease.authorization = some lease.authorization) ∧
    (∀ pre text persist post r handed, calls = pre ++ .revoke text persist :: post →
      after lib file pre = opened r handed → (r.revoke lib text persist).2 = .ok true →
      (∀ call ∈ post, call.opens = false) →
      ∀ lease ∈ handed, decodePublicKey lib text = .ok lease.publicKey →
        ∃ r' handed', after lib file calls = opened r' handed' ∧
          r'.isActive lease.authorization = false) ∧
    ∀ pre call post e, calls = pre ++ call :: post →
      (step lib (after lib file pre) call).2 = some (.error e) →
      after lib file (pre ++ [call]) = after lib file pre := by
  refine ⟨?_, ?_, ?_⟩
  · intro r handed hafter
    have hsound := sound_after hb hfresh
    rw [hafter] at hsound
    refine ⟨hsound.1, fun lease hl hactive => ?_⟩
    have hcurrent := hsound.2.live _ _ ⟨lease, hl, rfl, rfl⟩ hactive
    obtain ⟨lease', hl', hcell⟩ := Option.map_eq_some_iff.mp hcurrent
    rw [hl', Option.map_some]
    exact congrArg (fun c => some (DeviceAuthorization.mk c)) hcell
  · rintro pre text persist post r handed rfl hpre hr hpost lease hl hk
    have hdisabled := disabled_after hb hfresh.of_append hpre hk hr hl hpost
    cases hend : after lib file (pre ++ .revoke text persist :: post) with
    | closed file' =>
      rw [hend] at hdisabled
      exact hdisabled.elim
    | opened r' handed' =>
      rw [hend] at hdisabled
      exact ⟨r', handed', rfl, hdisabled.2⟩
  · rintro pre call post e - herror
    rw [after, Machine.run_concat]
    exact step_error herror

section Sample

def canonicalLibraries : Libraries :=
  { clearLibraries with
    base64Decode := fun text =>
      if text.toList.all fun c => c.toNat < 256 then
        some (text.toList.map fun c => UInt8.ofNat c.toNat)
      else none }

theorem toNat_ofNat_byte (b : UInt8) : (Char.ofNat b.toNat).toNat = b.toNat := by
  have hlt := b.toNat_lt
  have hvalid : b.toNat.isValidChar := Or.inl (by omega)
  rw [Char.ofNat, dif_pos hvalid]
  rfl

theorem canonicalLibraries_canonical : CanonicalBase64 canonicalLibraries := by
  intro text bytes
  simp only [canonicalLibraries, clearLibraries]
  constructor
  · intro h
    split_ifs at h with hbytes
    cases h
    rw [List.all_eq_true] at hbytes
    have hchars :
        text.toList.map (fun c => Char.ofNat (UInt8.ofNat c.toNat).toNat) = text.toList := by
      refine (List.map_congr_left fun c hc => ?_).trans (List.map_id _)
      rw [UInt8.toNat_ofNat', Nat.mod_eq_of_lt (by simpa using hbytes c hc), Char.ofNat_toNat]
      rfl
    rw [List.map_map, ← String.toList_inj, String.toList_ofList]
    exact hchars.symm
  · rintro rfl
    have hall : (bytes.map fun b => Char.ofNat b.toNat).all (fun c => c.toNat < 256) = true := by
      rw [List.all_eq_true]
      intro c hc
      obtain ⟨b, -, rfl⟩ := List.mem_map.mp hc
      rw [decide_eq_true_eq, toNat_ofNat_byte]
      exact b.toNat_lt
    rw [String.toList_ofList, if_pos hall, List.map_map]
    refine congrArg some ((List.map_congr_left fun b _ => ?_).trans (List.map_id _))
    simp [toNat_ofNat_byte]

def phoneKey : PublicKey := ⟨Vector.replicate 32 3⟩

def sampleCalls : List RegistryCall :=
  [.open [⟨"laptop", ⟨Vector.replicate 32 2⟩, ⟨10, 77, 0, 2⟩⟩] ⟨10, 77, 0, 1⟩ 29 (.ok ()),
    .provision "phone" .android (.ok ⟨⟨Vector.replicate 32 7⟩, phoneKey⟩) (.ok ()),
    .authorize phoneKey,
    .revoke (encodePublicKey canonicalLibraries phoneKey) (.ok ())]

def listed : RegistryStore → List DeviceRecord
  | closed _ => []
  | opened r _ => r.list

def copies : RegistryStore → List DeviceLease
  | closed _ => []
  | opened _ handed => handed

theorem sampleCalls_fresh : FreshKeys canonicalLibraries none sampleCalls := by
  have hlisted : ∀ device ∈ (after canonicalLibraries none (sampleCalls.take 1)).listed,
      device.publicKey ≠ encodePublicKey canonicalLibraries phoneKey := by
    decide +kernel
  refine (freshKeys_concat (sampleCalls.take 3)).mpr ⟨?_, by rintro _ _ _ _ ⟨⟩⟩
  refine (freshKeys_concat (sampleCalls.take 2)).mpr ⟨?_, by rintro _ _ _ _ ⟨⟩⟩
  refine (freshKeys_concat (sampleCalls.take 1)).mpr ⟨?_, ?_⟩
  · exact (freshKeys_concat []).mpr ⟨freshKeys_nil none, by rintro _ _ _ _ ⟨⟩⟩
  · rintro _ _ pair _ ⟨⟩ registry handed hafter
    rw [hafter] at hlisted
    exact hlisted

theorem history_consistent_sample :
    CanonicalBase64 canonicalLibraries ∧ FreshKeys canonicalLibraries none sampleCalls ∧
    ∃ r handed, after canonicalLibraries none sampleCalls = opened r handed ∧
      r.devices.length = 1 ∧ handed.length = 1 ∧ Consistent canonicalLibraries r := by
  refine ⟨canonicalLibraries_canonical, sampleCalls_fresh, ?_⟩
  have hdevices : (after canonicalLibraries none sampleCalls).listed.length = 1 := by
    decide +kernel
  have hcopies : (after canonicalLibraries none sampleCalls).copies.length = 1 := by
    decide +kernel
  have hconsistent := (history_consistent canonicalLibraries_canonical none sampleCalls
    sampleCalls_fresh).1
  cases hend : after canonicalLibraries none sampleCalls with
  | closed file =>
    rw [hend] at hdevices
    cases hdevices
  | opened r handed =>
    rw [hend] at hdevices hcopies
    exact ⟨r, handed, rfl, hdevices, hcopies, (hconsistent r handed hend).1⟩

end Sample

end RegistryStore

end MouseVpn.Server
