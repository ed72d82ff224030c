import MouseVpn.Server.RegistryInvariant
import MouseVpn.Server.ThreadSteps

/-!
# Revocation

A handshake copies the lease of its device when it is authorized, and the session
it installs keeps the copy, however late that is. The copies held by the registry,
by the handshake in flight and by the sessions form a book of leases: revoking a key
strikes its lease and clears the flag that all copies share. From then on no check
of a session of that key succeeds, in any interleaving of the threads.
-/

namespace MouseVpn.Server

open MouseVpn.Lib MouseVpn.Crypto MouseVpn.Protocol MouseVpn.DataPlane

def Move.key (lib : Libraries) : Move → Option PublicKey
  | .provision _ _ (.ok pair) _ => some pair.publicKey
  | .revoke text _ => (decodePublicKey lib text).toOption
  | _ => none

def Output.check : Output → Option (ℕ × ℕ)
  | .response _ => none
  | .act session checkedAt _ => some (session, checkedAt)
  | .moved session checkedAt _ => some (session, checkedAt)

namespace System

variable {lib : Libraries} {config : ValidatedServerConfig}

/-- Someone holds a copy of a lease of `key` with flag `cell`: the registry, the
handshake in flight, or a session that the key established. -/
inductive Held (σ : System lib) (key : PublicKey) (cell : ℕ) : Prop
  | lease {lease : DeviceLease} (h : σ.core.registry.authorize key = some lease)
      (hc : lease.authorization.cell = cell)
  | inFlight {call : Call} {handshake : ServerHandshake lib} {client : DeviceLease}
      (h : σ.udp = .authorized call handshake key client) (hc : client.authorization.cell = cell)
  | session {p : ℕ} {s : RuntimeSession} (h : σ.core.heap[p]? = some s) (hk : s.noiseKey = key)
      (hc : s.authorization.cell = cell)

/-- A handler has passed the check of session `p` at time `t` and has not finished. -/
inductive Stamped (σ : System lib) (p t : ℕ) : Prop
  | udp {call : Call} (h : σ.udp = .checked call p t)
  | tun {input : TunPacket} {ip : Ipv4Packet} (h : σ.tun = .checked input ip p t)
  | queued {q : Queued} (h : q ∈ σ.batch) (hp : q.session = p) (ht : q.checkedAt = t)

theorem Held.tick {σ : System lib} {n cell : ℕ} {key : PublicKey}
    (h : ({ σ with clock := n } : System lib).Held key cell) : σ.Held key cell := by
  cases h with
  | lease h hc => exact .lease h hc
  | inFlight h hc => exact .inFlight h hc
  | session h hk hc => exact .session h hk hc

theorem Stamped.tick {σ : System lib} {n p t : ℕ}
    (h : ({ σ with clock := n } : System lib).Stamped p t) : σ.Stamped p t := by
  cases h with
  | udp h => exact .udp h
  | tun h => exact .tun h
  | queued h hp ht => exact .queued h hp ht

def Reads (config : ValidatedServerConfig) (σ : System lib) : Prop :=
  ∀ call handshake key client, σ.udp = .authorized call handshake key client →
    readInitiation lib config call.wire call.datagram.payload = some (handshake, key)

theorem moves_check {p t : ℕ} {st st' : ServerState} {o : Output} (h : o ∈ moves p t st st') :
    o.check = some (p, t) := by
  unfold moves at h
  split at h
  · split_ifs at h
    · cases h
    · rw [List.mem_singleton.mp h]
      rfl
  · cases h

theorem sendBatch_check {taken : List Queued} {o : Output} (h : o ∈ sendBatch taken) :
    ∃ q ∈ taken, o.check = some (q.session, q.checkedAt) := by
  rcases List.mem_append.mp h with h | h
  · obtain ⟨q, hq, rfl⟩ := List.mem_map.mp h
    exact ⟨q, hq, rfl⟩
  · obtain ⟨q, hq, rfl⟩ := List.mem_map.mp h
    exact ⟨q, hq, rfl⟩

section Step

variable {σ : System lib} {m : Move} {r : System lib × List Output}

theorem Advances.reads (h : σ.Advances config m r) (hr : σ.Reads config) :
    r.1.Reads config := by
  intro call handshake key client hs
  rcases h.inFlight hs with hold | ⟨-, -, ha⟩
  · exact hr call handshake key client hold
  · exact ha.read

theorem Advances.stamped (h : σ.Advances config m r) {p t : ℕ} (hs : r.1.Stamped p t) :
    σ.Stamped p t ∨ (t = σ.clock ∧ σ.core.isActive p = true ∧ m.key lib = none) := by
  cases h with
  | checked hst ha =>
    cases hs with
    | udp h =>
      cases h
      exact Or.inr ⟨rfl, ha, rfl⟩
    | tun h => exact Or.inl (.tun h)
    | queued h hp ht => exact Or.inl (.queued h hp ht)
  | tunChecked hst ha =>
    cases hs with
    | udp h => exact Or.inl (.udp h)
    | tun h =>
      cases h
      exact Or.inr ⟨rfl, ha, rfl⟩
    | queued h hp ht => exact Or.inl (.queued h hp ht)
  | tunEncoded outgoing hst =>
    cases hs with
    | udp h => exact Or.inl (.udp h)
    | tun h => cases h
    | queued h hp ht =>
      rcases List.mem_append.mp h with h | h
      · exact Or.inl (.queued h hp ht)
      · obtain ⟨o, -, rfl⟩ := List.mem_map.mp h
        subst hp ht
        exact Or.inl (.tun hst)
  | _ =>
    cases hs with
    | udp h => first | exact Or.inl (.udp h) | cases h
    | tun h => first | exact Or.inl (.tun h) | cases h
    | queued h hp ht => first | exact Or.inl (.queued h hp ht) | cases h

theorem Advances.output (h : σ.Advances config m r) {o : Output} (ho : o ∈ r.2) {p t : ℕ}
    (hc : o.check = some (p, t)) : σ.Stamped p t := by
  cases h with
  | finished =>
    obtain ⟨e, -, rfl⟩ := List.mem_map.mp ho
    cases hc
  | acted hst =>
    rcases List.mem_append.mp ho with ho | ho
    · obtain ⟨e, -, rfl⟩ := List.mem_map.mp ho
      cases hc
      exact .udp hst
    · rw [moves_check ho] at hc
      cases hc
      exact .udp hst
  | flushed sent =>
    obtain ⟨q, hq, hoc⟩ := sendBatch_check ho
    rw [hoc] at hc
    cases hc
    exact .queued (List.mem_of_mem_take hq) rfl rfl
  | _ => cases ho

theorem Advances.held (h : σ.Advances config m r) (hr : σ.Reads config) {key : PublicKey}
    {cell : ℕ} (hh : r.1.Held key cell) :
    (∃ lease, r.1.core.registry.authorize key = some lease ∧ lease.authorization.cell = cell) ∨
      σ.Held key cell := by
  cases hh with
  | lease h hc => exact Or.inl ⟨_, h, hc⟩
  | inFlight hst hc =>
    rcases h.inFlight hst with hold | ⟨-, -, ha⟩
    · exact Or.inr (.inFlight hold hc)
    · exact Or.inr (.lease ha.lease hc)
  | session hs hk hc =>
    refine Or.inr ?_
    rcases h.created hs with
      ⟨t, ht⟩ | ⟨call, handshake, k, client, crypto, response, -, -, hst, hf, rfl⟩
    · obtain ⟨s', hs', hkept⟩ := h.session ht
      rw [hs] at hs'
      cases hs'
      exact .session ht (hkept.same.noiseKey ▸ hk) (hkept.same.authorization ▸ hc)
    · rw [newSession_noiseKey (hr _ _ _ _ hst) hf] at hk
      subst hk
      exact .inFlight hst hc

inductive RegistryStep (lib : Libraries) (m : Move) (before next : DeviceRegistry) : Prop
  | same (h : next = before)
  | struck {text : String} {persist : Except String Unit} {key : PublicKey}
      (hm : m = .revoke text persist) (hk : decodePublicKey lib text = .ok key)
      (hl : ∀ key', next.authorize key' = if key' = key then none else before.authorize key')
      (hf : next.flags = SoundLeases.cleared before.current before.flags key)
  | granted {name : String} {platform : DevicePlatform} {pair : KeyPair}
      {persist : Except String Unit} {lease : DeviceLease}
      (hm : m = .provision name platform (.ok pair) persist)
      (hc : lease.authorization.cell = before.flags.length)
      (hl : ∀ key, next.authorize key =
        if key = pair.publicKey then some lease else before.authorize key)
      (hf : next.flags = before.flags ++ [true])

theorem Advances.registry (h : σ.Advances config m r) :
    RegistryStep lib m σ.core.registry r.1.core.registry := by
  rcases h.registry_eq with
    hsame | ⟨text, persist, hm, hr⟩ | ⟨name, platform, keys, persist, hm, hr⟩
  · exact .same hsame
  · have hcases := σ.core.registry.revoke_cases lib text persist
    rw [← hr] at hcases
    rcases hcases with ⟨heq, -⟩ | ⟨key, hk, hl, hf⟩
    · exact .same heq
    · exact .struck hm hk hl hf
  · have hcases := σ.core.registry.provision_cases lib name platform keys persist
    rw [← hr] at hcases
    rcases hcases with heq | ⟨pair, lease, rfl, hc, hl, hf⟩
    · exact .same heq
    · exact .granted hm hc hl hf

variable {before next : DeviceRegistry}

theorem RegistryStep.sound {held held' : PublicKey → ℕ → Prop}
    (h : RegistryStep lib m before next)
    (hs : SoundLeases before.current before.flags held)
    (hlease : ∀ key lease, before.authorize key = some lease → held key lease.authorization.cell)
    (hnew : ∀ name platform pair persist, m = .provision name platform (.ok pair) persist →
      ∀ cell, ¬ held pair.publicKey cell)
    (hheld : ∀ key cell, held' key cell →
      (∃ lease, next.authorize key = some lease ∧ lease.authorization.cell = cell) ∨
        held key cell) :
    SoundLeases next.current next.flags held' ∧
      ∀ key cell, held' key cell → held key cell ∨ m.key lib = some key := by
  cases h with
  | same heq =>
    subst heq
    have hle : ∀ key cell, held' key cell → held key cell := by
      intro key cell hh
      rcases hheld key cell hh with ⟨lease, hl, rfl⟩ | hh
      · exact hlease key lease hl
      · exact hh
    exact ⟨hs.mono hle, fun key cell hh => Or.inl (hle key cell hh)⟩
  | @struck text persist key hm hk hl hf =>
    have hcurrent : next.current = Function.update before.current key none :=
      DeviceRegistry.current_eq_update hl
    have hle : ∀ key cell, held' key cell → held key cell := by
      intro key' cell hh
      rcases hheld key' cell hh with ⟨lease, hl', rfl⟩ | hh
      · rw [hl] at hl'
        split_ifs at hl'
        exact hlease key' lease hl'
      · exact hh
    rw [hcurrent, hf]
    exact ⟨(hs.strike key).mono hle, fun key cell hh => Or.inl (hle key cell hh)⟩
  | @granted name platform pair persist lease hm hc hl hf =>
    have hcurrent : next.current =
        Function.update before.current pair.publicKey (some before.flags.length) := by
      rw [DeviceRegistry.current_eq_update hl, Option.map_some, hc]
    have hle : ∀ key cell, held' key cell →
        held key cell ∨ key = pair.publicKey ∧ cell = before.flags.length := by
      intro key' cell hh
      rcases hheld key' cell hh with ⟨lease', hl', rfl⟩ | hh
      · rw [hl] at hl'
        split_ifs at hl' with heq
        · cases hl'
          exact Or.inr ⟨heq, hc⟩
        · exact Or.inl (hlease key' lease' hl')
      · exact Or.inl hh
    rw [hcurrent, hf]
    refine ⟨(hs.grant fun cell hh => absurd hh (hnew name platform pair persist hm cell)).mono hle,
      fun key cell hh => ?_⟩
    refine (hle key cell hh).imp_right fun heq => ?_
    rw [hm, heq.1]
    rfl

theorem RegistryStep.authorize_none (h : RegistryStep lib m before next) {key : PublicKey}
    (hk : before.authorize key = none)
    (hnew : ∀ name platform pair persist, m = .provision name platform (.ok pair) persist →
      key ≠ pair.publicKey) : next.authorize key = none := by
  cases h with
  | same heq => rw [heq, hk]
  | struck hm hk' hl hf => rw [hl, hk, ite_self]
  | granted hm hc hl hf => rw [hl, if_neg (hnew _ _ _ _ hm), hk]

end Step

section Runs

variable (lib : Libraries) (config : ValidatedServerConfig) (registry : DeviceRegistry)

def known (ms : List Move) : List PublicKey := registry.leases.keys ++ ms.filterMap (Move.key lib)

def Fresh (ms : List Move) : Prop :=
  ∀ pre name platform pair persist post,
    ms = pre ++ .provision name platform (.ok pair) persist :: post →
    pair.publicKey ∉ known lib registry pre

/-- The `i`-th step of the run is a revocation of `key` that returns `Ok(true)`. -/
def RevokedAt (ms : List Move) (i : ℕ) (key : PublicKey) : Prop :=
  ∃ pre text persist post, ms = pre ++ .revoke text persist :: post ∧ pre.length = i ∧
    decodePublicKey lib text = .ok key ∧
    ((after config lib registry pre).core.registry.revoke lib text persist).2 = .ok true

/-- Session `p` was checked at time `t`, and its key has not been revoked before that. -/
def CheckedInTime (ms : List Move) (p t : ℕ) : Prop :=
  t < ms.length ∧ ∃ s, (after config lib registry ms).core.heap[p]? = some s ∧
    ∀ i, RevokedAt lib config registry ms i s.noiseKey → t < i

structure Guarded (ms : List Move) (σ : System lib) : Prop where
  clock : σ.clock = ms.length
  reads : σ.Reads config
  leases : SoundLeases σ.core.registry.current σ.core.registry.flags σ.Held
  known : ∀ key cell, σ.Held key cell → key ∈ known lib registry ms
  revoked : ∀ i key, RevokedAt lib config registry ms i key →
    key ∈ System.known lib registry ms ∧ σ.core.registry.authorize key = none
  stamped : ∀ p t, σ.Stamped p t → CheckedInTime lib config registry ms p t

variable {lib config registry}

theorem mem_known_concat {ms : List Move} {m : Move} {key : PublicKey}
    (h : key ∈ known lib registry ms ∨ m.key lib = some key) :
    key ∈ known lib registry (ms ++ [m]) := by
  simp only [known, List.filterMap_append, ← List.append_assoc]
  rcases h with h | h
  · exact List.mem_append_left _ h
  · exact List.mem_append_right _ (by simp [h])

theorem Fresh.last {ms : List Move} {m : Move} (h : Fresh lib registry (ms ++ [m]))
    {name : String} {platform : DevicePlatform} {pair : KeyPair} {persist : Except String Unit}
    (hm : m = .provision name platform (.ok pair) persist) :
    pair.publicKey ∉ known lib registry ms :=
  h ms name platform pair persist [] (by rw [hm])

theorem Fresh.left {ms ms' : List Move} (h : Fresh lib registry (ms ++ ms')) :
    Fresh lib registry ms := by
  intro pre name platform pair persist post hms
  exact h pre name platform pair persist (post ++ ms') (by simp [hms])

theorem RevokedAt.concat {ms : List Move} {m : Move} {i : ℕ} {key : PublicKey}
    (h : RevokedAt lib config registry (ms ++ [m]) i key) :
    RevokedAt lib config registry ms i key ∨ (i = ms.length ∧ ∃ text persist,
      m = .revoke text persist ∧ decodePublicKey lib text = .ok key ∧
      ((after config lib registry ms).core.registry.revoke lib text persist).2 = .ok true) := by
  obtain ⟨pre, text, persist, post, hms, hi, hk, hr⟩ := h
  rcases Machine.split_concat hms with ⟨rfl, rfl, -⟩ | ⟨post', -, rfl⟩
  · exact Or.inr ⟨hi.symm, text, persist, rfl, hk, hr⟩
  · exact Or.inl ⟨pre, text, persist, post', rfl, hi, hk, hr⟩

theorem CheckedInTime.concat {ms : List Move} {p t : ℕ}
    (h : CheckedInTime lib config registry ms p t) (m : Move) :
    CheckedInTime lib config registry (ms ++ [m]) p t := by
  obtain ⟨hlt, s, hs, hall⟩ := h
  obtain ⟨s', hs', hkept⟩ := (advance_advances config _ m).session hs
  refine ⟨by simpa using Nat.lt_succ_of_lt hlt, s', by rw [after_concat]; exact hs', fun i hr => ?_⟩
  rw [hkept.same.noiseKey] at hr
  rcases hr.concat with hr | ⟨rfl, -⟩
  · exact hall i hr
  · exact hlt

theorem CheckedInTime.append {ms : List Move} {p t : ℕ}
    (h : CheckedInTime lib config registry ms p t) (ms' : List Move) :
    CheckedInTime lib config registry (ms ++ ms') p t := by
  induction ms' using List.reverseRecOn with
  | nil => simpa using h
  | append_singleton ms' m ih =>
    rw [← List.append_assoc]
    exact ih.concat m

theorem Guarded.check {ms : List Move}
    (h : Guarded lib config registry ms (after config lib registry ms)) {p : ℕ} {m : Move}
    (ha : (after config lib registry ms).core.isActive p = true) (hm : m.key lib = none) :
    CheckedInTime lib config registry (ms ++ [m]) p ms.length := by
  unfold ServerState.isActive at ha
  cases hs : (after config lib registry ms).core.heap[p]? with
  | none => simp [hs] at ha
  | some s =>
    simp only [hs] at ha
    obtain ⟨s', hs', hkept⟩ := (advance_advances config _ m).session hs
    refine ⟨by simp, s', by rw [after_concat]; exact hs', fun i hr => ?_⟩
    rw [hkept.same.noiseKey] at hr
    rcases hr.concat with hr | ⟨-, text, persist, rfl, hk, -⟩
    · have hlive := h.leases.live s.noiseKey s.authorization.cell (.session hs rfl rfl) ha
      simp [DeviceRegistry.current, (h.revoked i s.noiseKey hr).2] at hlive
    · simp [Move.key, hk, Except.toOption] at hm

theorem Guarded.start (hr : ∀ key lease, registry.leases.lookup key = some lease →
      lease.authorization.cell < registry.flags.length) :
    Guarded lib config registry [] (start registry) := by
  have hheld : ∀ key cell, (System.start registry : System lib).Held key cell →
      ∃ lease, registry.authorize key = some lease ∧ lease.authorization.cell = cell := by
    intro key cell hh
    cases hh with
    | lease h hc => exact ⟨_, h, hc⟩
    | inFlight h => cases h
    | session h => cases h
  refine ⟨rfl, (fun _ _ _ _ h => by cases h), ⟨?_, ?_⟩, ?_, ?_, ?_⟩
  · intro key cell hh
    obtain ⟨lease, hl, rfl⟩ := hheld key cell hh
    exact hr key lease hl
  · intro key cell hh _
    obtain ⟨lease, hl, rfl⟩ := hheld key cell hh
    exact Option.map_eq_some_iff.mpr ⟨lease, hl, rfl⟩
  · intro key cell hh
    obtain ⟨lease, hl, -⟩ := hheld key cell hh
    refine List.mem_append_left _ (AList.lookup_isSome.mp ?_)
    exact Option.isSome_iff_exists.mpr ⟨lease, hl⟩
  · rintro i key ⟨pre, _, _, _, hms, -⟩
    simp at hms
  · intro p t hs
    cases hs with
    | udp h => cases h
    | tun h => cases h
    | queued h => cases h

theorem Guarded.step {ms : List Move}
    (h : Guarded lib config registry ms (after config lib registry ms)) {m : Move}
    (hfresh : Fresh lib registry (ms ++ [m])) :
    Guarded lib config registry (ms ++ [m])
      (System.step config (after config lib registry ms) m).1 := by
  have hadv := advance_advances config (after config lib registry ms) m
  have hsound := hadv.registry.sound h.leases (fun key lease hl => .lease hl rfl)
    (fun name platform pair persist hm cell hh =>
      hfresh.last hm (h.known _ _ hh))
    (fun key cell (hh : (System.step config _ m).1.Held key cell) =>
      hadv.held h.reads (Held.tick hh))
  refine ⟨?_, hadv.reads h.reads, hsound.1, fun key cell hh => ?_, fun i key hr => ?_,
    fun p t hs => ?_⟩
  · simp [System.step, h.clock]
  · exact mem_known_concat ((hsound.2 key cell hh).imp_left (h.known key cell))
  · rcases hr.concat with hr | ⟨-, text, persist, rfl, hk, hok⟩
    · obtain ⟨hmem, hnone⟩ := h.revoked i key hr
      refine ⟨mem_known_concat (Or.inl hmem), hadv.registry.authorize_none hnone ?_⟩
      rintro name platform pair persist hm rfl
      exact hfresh.last hm hmem
    · refine ⟨mem_known_concat (Or.inr (by simp [Move.key, hk, Except.toOption])), ?_⟩
      exact DeviceRegistry.revoke_ok _ hk hok
  · rcases hadv.stamped (Stamped.tick hs) with hold | ⟨rfl, ha, hm⟩
    · exact (h.stamped p t hold).concat m
    · rw [h.clock]
      exact h.check ha hm

theorem after_guarded (config : ValidatedServerConfig)
    (hr : ∀ key lease, registry.leases.lookup key = some lease →
      lease.authorization.cell < registry.flags.length) (ms : List Move)
    (hfresh : Fresh lib registry ms) :
    Guarded lib config registry ms (after config lib registry ms) := by
  induction ms using List.reverseRecOn with
  | nil => exact .start hr
  | append_singleton ms m ih =>
    rw [after_concat]
    exact (ih hfresh.left).step hfresh

variable (lib config registry)

def outputs (ms : List Move) : List Output :=
  (Machine.outputs (step config) (start registry : System lib) ms).flatten

variable {lib config registry}

theorem mem_outputs {ms : List Move} {o : Output} :
    o ∈ outputs lib config registry ms ↔ ∃ pre m post, ms = pre ++ m :: post ∧
      o ∈ (step config (after config lib registry pre) m).2 := by
  simp only [outputs, Machine.outputs, List.mem_flatten, Machine.mem_observe]
  constructor
  · rintro ⟨_, ⟨pre, m, post, rfl, rfl⟩, ho⟩
    exact ⟨pre, m, post, rfl, ho⟩
  · rintro ⟨pre, m, post, rfl, ho⟩
    exact ⟨_, ⟨pre, m, post, rfl, rfl⟩, ho⟩

theorem output_checkedInTime (hr : ∀ key lease, registry.leases.lookup key = some lease →
      lease.authorization.cell < registry.flags.length) {ms : List Move}
    (hfresh : Fresh lib registry ms) {o : Output} (ho : o ∈ outputs lib config registry ms)
    {p t : ℕ} (hc : o.check = some (p, t)) : CheckedInTime lib config registry ms p t := by
  obtain ⟨pre, m, post, rfl, hstep⟩ := mem_outputs.mp ho
  have hstamp := (advance_advances config (after config lib registry pre) m).output hstep hc
  exact ((after_guarded config hr pre hfresh.left).stamped p t hstamp).append (m :: post)

/-- Revocation is final. Once it has returned, the key is never authorized again, and
whatever the server does for a session of the key, under any interleaving, follows a
check made before; a session's endpoint changes only in such an act. -/
theorem revocation_final {file : Option StoreFile} {seeds : List SeedDevice}
    {tunnelAddress : Ipv4Addr} {prefixLen : UInt8} {persist : Except String Unit}
    (hopen : DeviceRegistry.open lib file seeds tunnelAddress prefixLen persist = .ok registry)
    (ms : List Move) (hfresh : Fresh lib registry ms) {i : ℕ} {key : PublicKey}
    (hrevoked : RevokedAt lib config registry ms i key) :
    (after config lib registry ms).core.registry.authorize key = none ∧
    (∀ o ∈ outputs lib config registry ms, ∀ p t, o.check = some (p, t) →
      ∀ s, (after config lib registry ms).core.heap[p]? = some s → s.noiseKey = key → t < i) ∧
    (∀ pre m post p s s', ms = pre ++ m :: post →
      (after config lib registry pre).core.heap[p]? = some s →
      (after config lib registry (pre ++ [m])).core.heap[p]? = some s' → s'.peer ≠ s.peer →
      ∃ t, .moved p t s'.peer ∈ (step config (after config lib registry pre) m).2 ∧
        (s.noiseKey = key → t < i)) := by
  have hflags : ∀ key lease, registry.leases.lookup key = some lease →
      lease.authorization.cell < registry.flags.length :=
    fun key lease hl => (Consistent.of_open hopen).leased.inRange hl
  refine ⟨((after_guarded config hflags ms hfresh).revoked i key hrevoked).2, ?_, ?_⟩
  · intro o ho p t hc s hs hk
    obtain ⟨-, s', hs', hall⟩ := output_checkedInTime hflags hfresh ho hc
    rw [hs] at hs'
    cases hs'
    exact hall i (hk ▸ hrevoked)
  · intro pre m post p s s' hms hs hs' hne
    obtain ⟨t, ht, hkept⟩ := (advance_advances config _ m).session hs
    rw [after_concat] at hs'
    obtain rfl : s' = t := Option.some.inj (hs'.symm.trans ht)
    obtain ⟨checkedAt, hmem⟩ := hkept.peer.resolve_left hne
    refine ⟨checkedAt, hmem, fun hk => ?_⟩
    obtain ⟨-, t, ht, hall⟩ := output_checkedInTime hflags hfresh
      (mem_outputs.mpr ⟨pre, m, post, hms, hmem⟩) rfl
    obtain ⟨t', ht', hsame⟩ := after_persists pre (m :: post) p s hs
    rw [← hms] at ht'
    obtain rfl : t = t' := Option.some.inj (ht.symm.trans ht')
    exact hall i (hsame.noiseKey.trans hk ▸ hrevoked)

end Runs

def sampleSeeds : List SeedDevice :=
  [⟨"device", sampleKey 2, ⟨10, 77, 0, 2⟩⟩, ⟨"device", sampleKey 3, ⟨10, 77, 0, 3⟩⟩]

def sampleInterleaving : List Move :=
  [.receive (sampleArrival (sampleInit 1 1) 10), .udp, .udp,
    .receive (sampleArrival (sampleKeepalive 0) 11), .udp, .udp,
    .revoke (encodePublicKey clearLibraries (sampleKey 2)) (.ok ()), .udp,
    .receive (sampleArrival (sampleKeepalive 1) 12), .udp, .udp]

theorem revocation_final_sample :
    RevokedAt clearLibraries sampleConfig sampleRegistry sampleInterleaving 6 (sampleKey 2) ∧
    (outputs clearLibraries sampleConfig sampleRegistry sampleInterleaving).filterMap
      Output.check = [(0, 5), (0, 5)] ∧
    (after sampleConfig clearLibraries sampleRegistry sampleInterleaving).core.registry.authorize
      (sampleKey 2) = none := by
  have hrevoked :
      RevokedAt clearLibraries sampleConfig sampleRegistry sampleInterleaving 6 (sampleKey 2) :=
    ⟨sampleInterleaving.take 6, encodePublicKey clearLibraries (sampleKey 2), .ok (),
      sampleInterleaving.drop 7, rfl, rfl, by decide +kernel, by decide +kernel⟩
  have hfresh : Fresh clearLibraries sampleRegistry sampleInterleaving := by
    intro pre name platform pair persist post hms
    have hmem : Move.provision name platform (.ok pair) persist ∈ sampleInterleaving := by
      rw [hms]
      simp
    simp [sampleInterleaving] at hmem
  have hopen : DeviceRegistry.open clearLibraries none sampleSeeds ⟨10, 77, 0, 1⟩ 24 (.ok ()) =
      .ok sampleRegistry := rfl
  exact ⟨hrevoked, by decide +kernel,
    (revocation_final hopen sampleInterleaving hfresh hrevoked).1⟩

end System

end MouseVpn.Server
