import MouseVpn.Server.Revocation

/-!
# Whose counters are credited

A lease names the key that it was given to, a handshake copies the lease of the key it has
authenticated, and a session keeps the counter it was made with. So in every interleaving of
the threads the bytes of a session count for the device that made its handshake.
-/

namespace MouseVpn.Server

open MouseVpn.Lib MouseVpn.Crypto

namespace DeviceRegistry

def Named (r : DeviceRegistry) : Prop :=
  ∀ key lease, r.authorize key = some lease → lease.publicKey = key

theorem named_of_consistent {lib : Libraries} {r : DeviceRegistry} (h : Consistent lib r) :
    r.Named := by
  intro key lease hl
  obtain ⟨device, -, -, -, -, hkey, -⟩ := h.leased.only key lease hl
  exact hkey

theorem Named.revoke {r : DeviceRegistry} (h : r.Named) (lib : Libraries) (text : String)
    (persist : Except String Unit) : (r.revoke lib text persist).1.Named := by
  rcases r.revoke_cases lib text persist with ⟨hsame, -⟩ | ⟨key, -, hl, -⟩
  · rw [hsame]
    exact h
  · intro key' lease hlease
    rw [hl] at hlease
    split_ifs at hlease
    exact h key' lease hlease

theorem Named.provision {r : DeviceRegistry} (h : r.Named) (lib : Libraries) (name : String)
    (platform : DevicePlatform) (keys : Except String KeyPair) (persist : Except String Unit) :
    (r.provision lib name platform keys persist).1.Named := by
  rcases r.provision_spec lib name platform keys persist with
    ⟨hsame, -⟩ | ⟨pair, record, -, -, -, hnext⟩
  · rw [hsame]
    exact h
  · intro key lease hlease
    rw [hnext, authorize, addLease, HashMap.lookup_insert_ite] at hlease
    split_ifs at hlease with hkey
    · cases hlease
      exact hkey.symm
    · exact h key lease hlease

end DeviceRegistry

def RuntimeSession.Billed (lib : Libraries) (s : RuntimeSession) : Prop :=
  s.traffic = encodePublicKey lib s.noiseKey

theorem DatagramOutcome.traffic {env : Env} {peer : SocketAddr} {datagram : Protocol.Datagram}
    {wire : WireMode} {p : ℕ} {st : ServerState} {r : ServerState × List Effect}
    (h : DatagramOutcome env peer datagram wire p st r) {q : ℕ} {s : RuntimeSession}
    (hs : st.heap[q]? = some s) {s' : RuntimeSession} (hs' : r.1.heap[q]? = some s') :
    s'.traffic = s.traffic := by
  have hset : ∀ t t' : RuntimeSession, st.heap[p]? = some t →
      (st.setSession p t').heap[q]? = some s' → t'.traffic = t.traffic →
      s'.traffic = s.traffic := by
    intro t t' ht hs' htraffic
    rw [setSession_heap ht] at hs'
    split_ifs at hs' with hq
    · rw [hq, ht] at hs
      rw [← Option.some.inj hs', ← Option.some.inj hs]
      exact htraffic
    · rw [Option.some.inj (hs'.symm.trans hs)]
  cases h with
  | ignored hi => rw [Option.some.inj (hs'.symm.trans hs)]
  | dropped ht hm => exact hset _ _ ht hs' rfl
  | accepted ht hm hc ha hw => exact hset _ _ ht hs' rfl

namespace System

variable {lib : Libraries} {config : ValidatedServerConfig} {σ : System lib} {m : Move}
  {r : System lib × List Output}

structure Owned (config : ValidatedServerConfig) (σ : System lib) : Prop where
  named : σ.core.registry.Named
  reads : σ.Reads config
  inFlight : ∀ call handshake key client, σ.udp = .authorized call handshake key client →
    client.publicKey = key
  sessions : ∀ (p : ℕ) s, σ.core.heap[p]? = some s → s.Billed lib

theorem Advances.named (h : σ.Advances config m r) (hn : σ.core.registry.Named) :
    r.1.core.registry.Named := by
  rcases h.registry_eq with hr | ⟨text, persist, -, hr⟩ | ⟨name, platform, keys, persist, -, hr⟩
  · rw [hr]
    exact hn
  · rw [hr]
    exact hn.revoke lib text persist
  · rw [hr]
    exact hn.provision lib name platform keys persist

theorem Advances.traffic (h : σ.Advances config m r) {p : ℕ} {s s' : RuntimeSession}
    (hs : σ.core.heap[p]? = some s) (hs' : r.1.core.heap[p]? = some s') :
    s'.traffic = s.traffic := by
  have hsame : σ.core.heap[p]? = some s' → s'.traffic = s.traffic := by
    intro hold
    rw [Option.some.inj (hold.symm.trans hs)]
  cases h with
  | finished _ ho =>
    rcases ho.state with heq | ⟨_, _, -, -, heq⟩
    · rw [heq] at hs'
      exact hsame hs'
    · rw [heq] at hs'
      rw [Option.some.inj (hs'.symm.trans (heapWith_old lib config _ _ _ _ hs))]
  | acted _ ho => exact ho.traffic hs hs'
  | tunEncoded _ _ ho =>
    obtain ⟨outbound, hencoded⟩ := ho.session p s hs
    rw [Option.some.inj (hs'.symm.trans hencoded)]
  | _ => exact hsame hs'

theorem Advances.billed (h : σ.Advances config m r) (ho : σ.Owned config) {p : ℕ}
    {s : RuntimeSession} (hs : r.1.core.heap[p]? = some s) : s.Billed lib := by
  rcases h.created hs with
    ⟨t, ht⟩ | ⟨call, handshake, key, client, crypto, response, -, -, hst, hf, rfl⟩
  · obtain ⟨s', hs', hkept⟩ := h.session ht
    obtain rfl : s = s' := Option.some.inj (hs.symm.trans hs')
    rw [RuntimeSession.Billed, h.traffic ht hs, hkept.same.noiseKey]
    exact ho.sessions p t ht
  · rw [RuntimeSession.Billed, newSession_noiseKey (ho.reads _ _ _ _ hst) hf,
      ← ho.inFlight _ _ _ _ hst]
    rfl

theorem Owned.start {registry : DeviceRegistry} (h : registry.Named) :
    Owned config (start registry : System lib) := by
  refine ⟨h, ?_, ?_, ?_⟩
  · intro call handshake key client hs
    cases hs
  · intro call handshake key client hs
    cases hs
  · intro p s hs
    simp [System.start, ServerState.start] at hs

theorem Owned.step (h : σ.Owned config) (m : Move) : (step config σ m).1.Owned config := by
  have hadvances := advance_advances config σ m
  refine ⟨hadvances.named h.named, hadvances.reads h.reads, ?_, ?_⟩
  · intro call handshake key client hs
    rcases hadvances.inFlight hs with hold | ⟨-, -, ha⟩
    · exact h.inFlight call handshake key client hold
    · exact h.named key client ha.lease
  · intro p s hs
    exact hadvances.billed h hs

theorem after_owned (lib : Libraries) (config : ValidatedServerConfig)
    {registry : DeviceRegistry} (h : registry.Named) (ms : List Move) :
    (after config lib registry ms).Owned config :=
  Machine.run_invariant (step config) (Owned config) (fun _ m ho => ho.step m) (.start h) ms

end System

end MouseVpn.Server
