import MouseVpn.Server.Identity
import MouseVpn.Server.RegistryHistory
import MouseVpn.Server.Revocation
import MouseVpn.Server.SessionIndex

/-!
# The handshake cache and the session index

A handshake copies the lease of its device, enters its session into the index and only
then its request and response into the cache. Devices may be provisioned and revoked in
between, and the address of a revoked device is given out again. As long as a cached device
is authorized, the session that its response belongs to stays in the index: sessions leave
the index only for another session of their address, and no second device that is in the
cache or in flight holds that address.
-/

namespace MouseVpn.Server

open MouseVpn.Lib MouseVpn.Crypto MouseVpn.Protocol MouseVpn.DataPlane

theorem Consistent.authorize_inj {lib : Libraries} {r : DeviceRegistry} (h : Consistent lib r)
    {key key' : PublicKey} {lease lease' : DeviceLease} (hl : r.authorize key = some lease)
    (hl' : r.authorize key' = some lease') (ha : lease.address = lease'.address) : key = key' := by
  obtain ⟨device, hd, hk, -, haddress, -⟩ := h.leased.only key lease hl
  obtain ⟨device', hd', hk', -, haddress', -⟩ := h.leased.only key' lease' hl'
  have hsame : device = device' := by
    apply List.inj_on_of_nodup_map h.admissible.addresses hd hd'
    rw [← haddress, ha, haddress']
  rw [hsame, hk'] at hk
  exact (Except.ok.inj hk).symm

namespace System

section Steps

variable {lib : Libraries} {config : ValidatedServerConfig} {σ : System lib} {m : Move}
  {r : System lib × List Output}

/-- What a step does to the index and the cache: nothing, or what a handshake does that is
finished and installs its session. -/
inductive CacheStep (config : ValidatedServerConfig) (σ : System lib) (m : Move)
    (σ' : System lib) : Prop
  | kept (h : Frame σ.core σ'.core)
  | installed {call : Call} {handshake : ServerHandshake lib} {key : PublicKey}
      {client : DeviceLease} {crypto : SecureSession} {response : Bytes} (hm : m = .udp)
      (hs : σ.udp = .authorized call handshake key client)
      (hf : handshake.finish call.env.entropy (sessionParameters config call.wire client).encode =
        .ok (crypto, response))
      (hc : σ.core.sessions.collides
        (ServerState.addressIn
          (heapWith lib config call.peer call.datagram call.wire σ.core client crypto))
        call.datagram.header.sessionId client.address = false)
      (hr : σ'.core = Server.installed lib config call.env call.peer call.datagram call.wire σ.core
        key client crypto response)
      (hidle : σ'.udp = .idle)

theorem Advances.cacheStep (h : σ.Advances config m r) : CacheStep config σ m r.1 := by
  cases h with
  | finished hs ho =>
    rcases ho.state with hsame | ⟨crypto, response, hf, hc, rfl⟩
    · exact .kept (by rw [hsame]; exact ⟨rfl, rfl, rfl⟩)
    · exact .installed rfl hs hf hc rfl rfl
  | acted _ ho => exact .kept ho.frame
  | tunEncoded _ _ ho => exact .kept ⟨ho.sessions, ho.cache, ho.length⟩
  | _ => exact .kept ⟨rfl, rfl, rfl⟩

theorem CacheStep.tick {σ' : System lib} (h : CacheStep config σ m σ') (n : ℕ) :
    CacheStep config σ m { σ' with clock := n } := by
  cases h with
  | kept h => exact .kept h
  | installed hm hs hf hc hr hidle => exact .installed hm hs hf hc hr hidle

theorem Advances.consistent (hb : CanonicalBase64 lib) (h : σ.Advances config m r)
    (hc : Consistent lib σ.core.registry)
    (hfresh : ∀ name platform pair persist, m = .provision name platform (.ok pair) persist →
      σ.core.registry.authorize pair.publicKey = none) :
    Consistent lib r.1.core.registry := by
  rcases h.registry_eq with hr | ⟨text, persist, hm, hr⟩ | ⟨name, platform, keys, persist, hm, hr⟩
  · rw [hr]
    exact hc
  · rw [hr]
    exact hc.revoke hb
  · rw [hr]
    apply hc.provision hb
    intro pair hkeys device hd htext
    -- a listed key is leased, and a new one is not
    obtain ⟨key, lease, hk, hl, -⟩ := hc.leased.every device hd
    have hkey := (decodePublicKey_ok_iff hb).mpr htext
    rw [hk, Except.ok.injEq] at hkey
    have hnone := hfresh name platform pair persist (by rw [hm, hkeys])
    rw [← hkey, DeviceRegistry.authorize, hl] at hnone
    cases hnone

theorem RegistryStep.authorize_eq_some {before next : DeviceRegistry}
    (h : RegistryStep lib m before next) {key : PublicKey} {lease : DeviceLease}
    (hl : next.authorize key = some lease) :
    before.authorize key = some lease ∨
      ∃ name platform pair persist, m = .provision name platform (.ok pair) persist ∧
        key = pair.publicKey := by
  cases h with
  | same heq =>
    rw [heq] at hl
    exact Or.inl hl
  | struck _ _ hl' _ =>
    rw [hl'] at hl
    split_ifs at hl
    exact Or.inl hl
  | granted hm _ hl' _ =>
    rw [hl'] at hl
    split_ifs at hl with heq
    · exact Or.inr ⟨_, _, _, _, hm, heq⟩
    · exact Or.inl hl

end Steps

section Runs

variable (lib : Libraries) (config : ValidatedServerConfig) (registry : DeviceRegistry)

/-- Session `p` was made during the run by a handshake of `key` that read exactly the cached
request, and the keys it was made with came with the cached response. -/
def CreatedFrom (ms : List Move) (key : PublicKey) (cached : CachedHandshake) (p : ℕ) : Prop :=
  ∃ pre post call handshake client crypto response,
    ms = pre ++ .udp :: post ∧
    (after config lib registry pre).udp = .authorized call handshake key client ∧
    call.datagram.payload = cached.request ∧
    handshake.finish call.env.entropy (sessionParameters config call.wire client).encode =
      .ok (crypto, response) ∧
    encodedResponse call.datagram response = cached.response ∧
    (after config lib registry pre).core.heap.length = p ∧
    ∃ s, (after config lib registry ms).core.heap[p]? = some s ∧
      SameSession (newSession lib config call.peer call.datagram call.wire client crypto) s

def Framed (ms : List Move) : Prop :=
  ∀ pre post call handshake key client crypto response, ms = pre ++ .udp :: post →
    (after config lib registry pre).udp = .authorized call handshake key client →
    handshake.finish call.env.entropy (sessionParameters config call.wire client).encode =
      .ok (crypto, response) →
    (call.wire.encodeServer lib (encodedResponse call.datagram response) call.env.sources).isSome

/-- The cache entry of a device that holds `lease` belongs to a session that the index has,
under the ID of the response and under the address of the device. -/
def Backed (ms : List Move) (st : ServerState) (key : PublicKey) (lease : DeviceLease)
    (cached : CachedHandshake) : Prop :=
  ∃ i p, Answers cached.response i ∧ st.sessions.byId.lookup i = some p ∧
    st.sessions.byAddress.lookup lease.address = some p ∧
    CreatedFrom lib config registry ms key cached p

/-- While a handshake holds a copy of the lease, no other cached device is given its address,
and the session that a repeat is answered for stays. -/
structure Reserved (ms : List Move) (st : ServerState) (key : PublicKey) (client : DeviceLease) :
    Prop where
  known : key ∈ known lib registry ms
  own : ∀ lease, st.registry.authorize key = some lease → lease.address = client.address
  others : ∀ key' cached lease, key' ≠ key → st.cache.lookup key' = some cached →
    st.registry.authorize key' = some lease → lease.address ≠ client.address
  backed : ∀ cached, st.cache.lookup key = some cached →
    Backed lib config registry ms st key client cached

structure Linked (ms : List Move) (st : ServerState) (udp : UdpStage lib) : Prop where
  consistent : Consistent lib st.registry
  indexed : Indexed st
  authorized : ∀ key lease, st.registry.authorize key = some lease → key ∈ known lib registry ms
  cached : ∀ key cached, st.cache.lookup key = some cached → key ∈ known lib registry ms
  inFlight : ∀ call handshake key client, udp = .authorized call handshake key client →
    Reserved lib config registry ms st key client
  backed : ∀ key cached lease, st.cache.lookup key = some cached →
    st.registry.authorize key = some lease → Backed lib config registry ms st key lease cached

variable {lib config registry} {ms : List Move} {m : Move}

theorem CreatedFrom.concat {key : PublicKey} {cached : CachedHandshake} {p : ℕ}
    (h : CreatedFrom lib config registry ms key cached p) :
    CreatedFrom lib config registry (ms ++ [m]) key cached p := by
  obtain ⟨pre, post, call, handshake, client, crypto, response, hms, hst, hreq, hf, hresp, hp,
    s, hs, hsame⟩ := h
  obtain ⟨s', hs', hsame'⟩ := after_persists ms [m] p s hs
  exact ⟨pre, post ++ [m], call, handshake, client, crypto, response, by simp [hms], hst, hreq,
    hf, hresp, hp, s', hs', hsame.trans hsame'⟩

theorem Framed.left {ms' : List Move} (h : Framed lib config registry (ms ++ ms')) :
    Framed lib config registry ms := by
  intro pre post call handshake key client crypto response hms
  exact h pre (post ++ ms') call handshake key client crypto response (by simp [hms])

theorem Backed.concat {st st' : ServerState} {key : PublicKey} {lease : DeviceLease}
    {cached : CachedHandshake} (h : Backed lib config registry ms st key lease cached)
    (hf : Frame st st') : Backed lib config registry (ms ++ [m]) st' key lease cached := by
  obtain ⟨i, p, hanswers, hid, haddress, hcreated⟩ := h
  rw [← hf.sessions] at hid haddress
  exact ⟨i, p, hanswers, hid, haddress, hcreated.concat⟩

theorem Fresh.authorize_back (hfresh : Fresh lib registry (ms ++ [m])) {key : PublicKey}
    {lease : DeviceLease} (hk : key ∈ known lib registry ms)
    (hl : (after config lib registry (ms ++ [m])).core.registry.authorize key = some lease) :
    (after config lib registry ms).core.registry.authorize key = some lease := by
  rw [after_concat] at hl
  rcases (advance_advances config (after config lib registry ms) m).registry.authorize_eq_some hl
    with hold | ⟨name, platform, pair, persist, hm, rfl⟩
  · exact hold
  · exact absurd hk (hfresh.last hm)

theorem Linked.start (hc : Consistent lib registry) :
    Linked lib config registry [] (ServerState.start registry) .idle := by
  constructor
  · exact hc
  · exact Indexed.start registry
  · intro key lease hl
    simp only [known, List.filterMap_nil, List.append_nil]
    exact AList.mem_keys.mp (AList.lookup_isSome.mp (by
      rw [show registry.leases.lookup key = some lease from hl]
      rfl))
  · intro key cached h
    simp [ServerState.start] at h
  · intro call handshake key client h
    cases h
  · intro key cached lease h
    simp [ServerState.start] at h

section Step

variable (h : Linked lib config registry ms (after config lib registry ms).core
  (after config lib registry ms).udp)

include h

theorem Linked.authorized_next {key : PublicKey} {lease : DeviceLease}
    (hl : (after config lib registry (ms ++ [m])).core.registry.authorize key = some lease) :
    key ∈ known lib registry (ms ++ [m]) := by
  rw [after_concat] at hl
  rcases (advance_advances config (after config lib registry ms) m).registry.authorize_eq_some hl
    with hold | ⟨name, platform, pair, persist, rfl, rfl⟩
  · exact mem_known_concat (Or.inl (h.authorized key lease hold))
  · exact mem_known_concat (Or.inr rfl)

variable (hfresh : Fresh lib registry (ms ++ [m]))

include hfresh

theorem Linked.consistent_next (hb : CanonicalBase64 lib) :
    Consistent lib (after config lib registry (ms ++ [m])).core.registry := by
  have hnew : ∀ name platform pair persist, m = .provision name platform (.ok pair) persist →
      (after config lib registry ms).core.registry.authorize pair.publicKey = none := by
    intro name platform pair persist hm
    cases hl : (after config lib registry ms).core.registry.authorize pair.publicKey with
    | none => rfl
    | some lease => exact absurd (h.authorized _ lease hl) (hfresh.last hm)
  have hnext := (advance_advances config _ m).consistent hb h.consistent hnew
  rw [after_concat]
  exact hnext

section Kept

variable (hframe : Frame (after config lib registry ms).core
  (after config lib registry (ms ++ [m])).core)

include hframe

theorem Linked.reserved_next {call : Call} {handshake : ServerHandshake lib} {key : PublicKey}
    {client : DeviceLease}
    (hst : (after config lib registry (ms ++ [m])).udp = .authorized call handshake key client) :
    Reserved lib config registry (ms ++ [m]) (after config lib registry (ms ++ [m])).core key
      client := by
  rw [after_concat] at hst
  rcases (advance_advances config _ m).inFlight hst with hold | ⟨-, -, ha⟩
  · have hr := h.inFlight call handshake key client hold
    refine ⟨mem_known_concat (Or.inl hr.known), ?_, ?_, ?_⟩
    · intro lease hl
      exact hr.own lease (hfresh.authorize_back hr.known hl)
    · intro key' cached lease hne hcached hl
      rw [hframe.cache] at hcached
      exact hr.others key' cached lease hne hcached
        (hfresh.authorize_back (h.cached key' cached hcached) hl)
    · intro cached hcached
      rw [hframe.cache] at hcached
      exact (hr.backed cached hcached).concat hframe
  · have hknown := h.authorized key client ha.lease
    refine ⟨mem_known_concat (Or.inl hknown), ?_, ?_, ?_⟩
    · intro lease hl
      have hl := hfresh.authorize_back hknown hl
      rw [ha.lease, Option.some.injEq] at hl
      rw [hl]
    · intro key' cached lease hne hcached hl heq
      rw [hframe.cache] at hcached
      have hl := hfresh.authorize_back (h.cached key' cached hcached) hl
      exact hne (h.consistent.authorize_inj hl ha.lease heq)
    · intro cached hcached
      rw [hframe.cache] at hcached
      exact (h.backed key cached client hcached ha.lease).concat hframe

theorem Linked.kept (hb : CanonicalBase64 lib) :
    Linked lib config registry (ms ++ [m]) (after config lib registry (ms ++ [m])).core
      (after config lib registry (ms ++ [m])).udp := by
  refine ⟨h.consistent_next hfresh hb, h.indexed.frame (after_persists ms [m]) hframe,
    fun key lease hl => h.authorized_next hl, ?_, ?_, ?_⟩
  · intro key cached hcached
    rw [hframe.cache] at hcached
    exact mem_known_concat (Or.inl (h.cached key cached hcached))
  · intro call handshake key client hst
    exact h.reserved_next hfresh hframe hst
  · intro key cached lease hcached hl
    rw [hframe.cache] at hcached
    have hl := hfresh.authorize_back (h.cached key cached hcached) hl
    exact (h.backed key cached lease hcached hl).concat hframe

end Kept

theorem Linked.step (hb : CanonicalBase64 lib)
    (hframed : Framed lib config registry (ms ++ [m])) :
    Linked lib config registry (ms ++ [m]) (after config lib registry (ms ++ [m])).core
      (after config lib registry (ms ++ [m])).udp := by
  have hcache : CacheStep config (after config lib registry ms) m
      (after config lib registry (ms ++ [m])) := by
    rw [after_concat]
    exact (advance_advances config _ m).cacheStep.tick _
  cases hcache with
  | kept hframe => exact h.kept hfresh hframe hb
  | @installed call handshake key client crypto response hm hs hf hc hr hidle =>
    have hreserved := h.inFlight call handshake key client hs
    have hsome := hframed ms [] call handshake key client crypto response (by rw [hm]) hs hf
    have hentered : (after config lib registry (ms ++ [m])).core.cache =
        (after config lib registry ms).core.cache.insert key
          ⟨call.datagram.payload, encodedResponse call.datagram response⟩ := by
      rw [hr]
      exact if_pos hsome
    have hregistry : (after config lib registry (ms ++ [m])).core.registry =
        (after config lib registry ms).core.registry := by
      rw [hr]
      rfl
    refine ⟨h.consistent_next hfresh hb, ?_, fun key lease hl => h.authorized_next hl, ?_,
      ?_, ?_⟩
    · rw [hr]
      exact h.indexed.installed hc
    · intro key' cached hcached
      rw [hentered, HashMap.lookup_insert_ite] at hcached
      split_ifs at hcached with heq
      · rw [heq]
        exact mem_known_concat (Or.inl hreserved.known)
      · exact mem_known_concat (Or.inl (h.cached key' cached hcached))
    · intro call' handshake' key' client' hst
      rw [hidle] at hst
      cases hst
    · intro key' cached lease hcached hl
      rw [hregistry] at hl
      rw [hentered, HashMap.lookup_insert_ite] at hcached
      split_ifs at hcached with heq
      · -- the handshake that was finished
        subst heq
        cases hcached
        obtain ⟨hid, haddress⟩ := h.indexed.installed_session hc
        rw [← hreserved.own lease hl] at haddress
        refine ⟨_, _, encodedResponse_answers call.datagram response, ?_, ?_, ms, [], call,
          handshake, client, crypto, response, by rw [hm], hs, rfl, hf, rfl, rfl, _, ?_, .refl _⟩
        · rw [hr]
          exact hid
        · rw [hr]
          exact haddress
        · rw [hr]
          simp [Server.installed, heapWith]
      · -- another device, which does not have the address of this one
        obtain ⟨i, p, hanswers, hid, haddress, hcreated⟩ := h.backed key' cached lease hcached hl
        have hne := hreserved.others key' cached lease heq hcached hl
        obtain ⟨hid', haddress'⟩ := h.indexed.installed_other hid haddress hne
        refine ⟨i, p, hanswers, ?_, ?_, hcreated.concat⟩
        · rw [hr]
          exact hid'
        · rw [hr]
          exact haddress'

end Step

theorem after_linked (hb : CanonicalBase64 lib) (hc : Consistent lib registry) (ms : List Move)
    (hfresh : Fresh lib registry ms) (hframed : Framed lib config registry ms) :
    Linked lib config registry ms (after config lib registry ms).core
      (after config lib registry ms).udp := by
  induction ms using List.reverseRecOn with
  | nil => exact Linked.start hc
  | append_singleton ms m ih =>
    exact (ih hfresh.left hframed.left).step hfresh hb hframed

/-- In every interleaving of the daemon's threads with provisioning and revoking: the cache
entry of a device that is still authorized belongs to a session that is in the index under the
ID of the cached response, is the entry of the device's address, and was made from exactly the
cached request. A repeat is only ever answered for such a session, even if the device is
revoked before the answer. -/
theorem cache_consistent (hb : CanonicalBase64 lib) {file : Option StoreFile}
    {seeds : List SeedDevice} {tunnelAddress : Ipv4Addr} {prefixLen : UInt8}
    {persist : Except String Unit}
    (hopen : DeviceRegistry.open lib file seeds tunnelAddress prefixLen persist = .ok registry)
    (ms : List Move) (hfresh : Fresh lib registry ms) (hframed : Framed lib config registry ms) :
    (∀ key cached lease,
      (after config lib registry ms).core.cache.lookup key = some cached →
      (after config lib registry ms).core.registry.authorize key = some lease →
      Backed lib config registry ms (after config lib registry ms).core key lease cached) ∧
    (∀ call handshake key client cached,
      (after config lib registry ms).udp = .authorized call handshake key client →
      (after config lib registry ms).core.cache.lookup key = some cached →
      cached.request = call.datagram.payload →
      Backed lib config registry ms (after config lib registry ms).core key client cached) := by
  have hlinked := after_linked hb (Consistent.of_open hopen) ms hfresh hframed
  refine ⟨hlinked.backed, ?_⟩
  intro call handshake key client cached hst hcached _
  exact (hlinked.inFlight call handshake key client hst).backed cached hcached

end Runs

section Sample

open RegistryStore (canonicalLibraries canonicalLibraries_canonical)

def sampleRepeat : List Move :=
  [.receive (sampleArrival (sampleInit 1 1) 10), .udp, .udp,
    .revoke (encodePublicKey canonicalLibraries (sampleKey 3)) (.ok ()),
    .provision "phone" .android (.ok ⟨⟨Vector.replicate 32 7⟩, sampleKey 5⟩) (.ok ()),
    .receive (sampleArrival (sampleInit 1 1) 11), .udp]

def providedKey : Move → Option PublicKey
  | .provision _ _ (.ok pair) _ => some pair.publicKey
  | _ => none

theorem sampleRepeat_fresh : Fresh canonicalLibraries sampleRegistry sampleRepeat := by
  have hnew : ∀ n < sampleRepeat.length, ((sampleRepeat[n]?.bind providedKey).all fun key =>
      key ∉ known canonicalLibraries sampleRegistry (sampleRepeat.take n)) = true := by
    decide +kernel
  intro pre name platform pair persist post hms
  have hlt : pre.length < sampleRepeat.length := by
    rw [hms]
    simp
  have hpre : pre = sampleRepeat.take pre.length := by
    rw [hms]
    simp
  have hkey : sampleRepeat[pre.length]?.bind providedKey = some pair.publicKey := by
    rw [hms]
    simp [providedKey]
  have hkeys := hnew pre.length hlt
  rw [← hpre, hkey] at hkeys
  simpa using hkeys

theorem sampleRepeat_framed :
    Framed canonicalLibraries sampleConfig sampleRegistry sampleRepeat := by
  intro pre post call handshake key client crypto response hms hst _
  have hlt : pre.length < sampleRepeat.length := by
    rw [hms]
    simp
  have hpre : pre = sampleRepeat.take pre.length := by
    rw [hms]
    simp
  have hlegacy : ∀ n < sampleRepeat.length,
      ((after sampleConfig canonicalLibraries sampleRegistry
        (sampleRepeat.take n)).udp.call.all fun call => call.wire.client = none) = true := by
    decide +kernel
  have hwire := hlegacy pre.length hlt
  rw [← hpre, hst] at hwire
  have hclient : call.wire.client = none := by simpa [UdpStage.call] using hwire
  rw [WireMode.eq_legacy_of_client hclient]
  rfl

theorem cache_consistent_sample :
    ∃ cached lease,
      (after sampleConfig canonicalLibraries sampleRegistry sampleRepeat).core.cache.lookup
        (sampleKey 2) = some cached ∧
      (after sampleConfig canonicalLibraries sampleRegistry sampleRepeat).core.registry.authorize
        (sampleKey 2) = some lease ∧
      Backed canonicalLibraries sampleConfig sampleRegistry sampleRepeat
        (after sampleConfig canonicalLibraries sampleRegistry sampleRepeat).core (sampleKey 2) lease
        cached := by
  have hopen : DeviceRegistry.open canonicalLibraries none sampleSeeds ⟨10, 77, 0, 1⟩ 24 (.ok ()) =
      .ok sampleRegistry := rfl
  have hcached : ((after sampleConfig canonicalLibraries sampleRegistry
      sampleRepeat).core.cache.lookup (sampleKey 2)).isSome = true := by
    decide +kernel
  have hlease : ((after sampleConfig canonicalLibraries sampleRegistry
      sampleRepeat).core.registry.authorize (sampleKey 2)).isSome = true := by
    decide +kernel
  obtain ⟨cached, hcached⟩ := Option.isSome_iff_exists.mp hcached
  obtain ⟨lease, hlease⟩ := Option.isSome_iff_exists.mp hlease
  exact ⟨cached, lease, hcached, hlease,
    (cache_consistent canonicalLibraries_canonical hopen sampleRepeat sampleRepeat_fresh
      sampleRepeat_framed).1 (sampleKey 2) cached lease hcached hlease⟩

end Sample

end System

end MouseVpn.Server
