import MouseVpn.Server.Steps

/-!
# Replayed handshakes

The cache holds, for each device, the last initiation that was completed and its
response. A repeat of exactly that initiation is answered again and installs
nothing; a repeat of an older one is a new handshake to the server. The response
that answers a repeat carries the session ID of the datagram it was made for.
-/

namespace MouseVpn.Server

open MouseVpn.Lib MouseVpn.Crypto MouseVpn.Protocol

structure Completion where
  publicKey : PublicKey
  sessionId : UInt64
  request : Bytes
  response : Bytes
  deriving DecidableEq

def Completion.cached (c : Completion) : CachedHandshake := ⟨c.request, c.response⟩

section History

variable (lib : Libraries) (config : ValidatedServerConfig)

def installsOf (st : ServerState) : Event → Option (PublicKey × Bytes)
  | .handshake env peer datagram wire =>
    if (handleHandshake lib config env peer datagram wire st).1.heap.length = st.heap.length then
      none
    else
      (readInitiation lib config wire datagram.payload).map fun initiation =>
        (initiation.2, datagram.payload)
  | _ => none

def completionOf (st : ServerState) : Event → Option Completion
  | .handshake env peer datagram wire =>
    match installsOf lib config st (.handshake env peer datagram wire),
      (handleHandshake lib config env peer datagram wire st).2 with
    | some (publicKey, request), [.send response _ _] =>
      some ⟨publicKey, datagram.header.sessionId, request, response⟩
    | _, _ => none
  | _ => none

def completions (registry : DeviceRegistry) (es : List Event) : List Completion :=
  Machine.collect (step lib config) (completionOf lib config) (ServerState.start registry) es

def lastCompleted (registry : DeviceRegistry) (es : List Event) (key : PublicKey) :
    Option Completion :=
  ((completions lib config registry es).filter fun c => c.publicKey = key).getLast?

/-- Some handshake of the run installed a session for `key` from exactly this payload. -/
def Processed (registry : DeviceRegistry) (es : List Event) (key : PublicKey)
    (payload : Bytes) : Prop :=
  (key, payload) ∈
    Machine.collect (step lib config) (installsOf lib config) (ServerState.start registry) es

end History

def Answers (sent : Bytes) (sessionId : UInt64) : Prop :=
  ∃ header payload, Datagram.decode sent = .ok ⟨header, payload⟩ ∧
    header.kind = .handshakeResponse ∧ header.sessionId = sessionId

theorem encodedResponse_answers (datagram : Datagram) (response : Bytes) :
    Answers (encodedResponse datagram response) datagram.header.sessionId :=
  ⟨_, response, Datagram.decode_encode (responseDatagram datagram response), rfl, rfl⟩

theorem Answers.unique {sent : Bytes} {i j : UInt64} (h : Answers sent i) (h' : Answers sent j) :
    i = j := by
  obtain ⟨_, _, hd, -, rfl⟩ := h
  obtain ⟨_, _, hd', -, rfl⟩ := h'
  rw [hd] at hd'
  cases hd'
  rfl

theorem mem_framed {lib : Libraries} {env : Env} {peer target : SocketAddr} {wire : WireMode}
    {response sent frame : Bytes}
    (h : .send sent frame target ∈ framed lib env peer wire response) :
    sent = response ∧ (wire.encodeServer lib response env.sources).isSome := by
  simp only [framed, Option.mem_toList, Option.map_eq_some_iff, Effect.send.injEq] at h
  obtain ⟨_, hf, rfl, -⟩ := h
  exact ⟨rfl, by simp [hf]⟩

variable {lib : Libraries} {config : ValidatedServerConfig} {st : ServerState}

theorem step_cache (lib : Libraries) (config : ValidatedServerConfig) (st : ServerState)
    (e : Event) :
    (completionOf lib config st e = none ∧ (step lib config st e).1.cache = st.cache) ∨
    ∃ c, completionOf lib config st e = some c ∧
      (step lib config st e).1.cache = st.cache.insert c.publicKey c.cached ∧
      Answers c.response c.sessionId := by
  by_cases he : ∀ env peer datagram wire, e ≠ .handshake env peer datagram wire
  · refine Or.inl ⟨?_, (step_frame lib config he).cache⟩
    cases e with
    | handshake env peer datagram wire => exact absurd rfl (he env peer datagram wire)
    | _ => rfl
  simp only [ne_eq, not_forall, not_not] at he
  obtain ⟨env, peer, datagram, wire, rfl⟩ := he
  have ho := handleHandshake_outcome lib config env peer datagram wire st
  simp only [completionOf, installsOf, step]
  generalize handleHandshake lib config env peer datagram wire st = r at ho ⊢
  rcases ho.state with hst | ⟨handshake, key, client, crypto, response, ha, -, -, rfl⟩
  · exact Or.inl ⟨by simp [hst], by rw [hst]⟩
  · cases hframe : wire.encodeServer lib (encodedResponse datagram response) env.sources with
    | none => exact Or.inl ⟨by simp [framed, hframe], by simp [installed, hframe]⟩
    | some frame =>
      refine Or.inr ⟨⟨key, datagram.header.sessionId, datagram.payload,
        encodedResponse datagram response⟩, ?_, ?_, encodedResponse_answers datagram response⟩
      · simp [framed, hframe, installed, heapWith, ha.read]
      · simp [installed, hframe, Completion.cached]

theorem lastCompleted_concat (registry : DeviceRegistry) (es : List Event) (e : Event)
    (key : PublicKey) :
    lastCompleted lib config registry (es ++ [e]) key =
      match completionOf lib config (after lib config registry es) e with
      | some c => if c.publicKey = key then some c else lastCompleted lib config registry es key
      | none => lastCompleted lib config registry es key := by
  simp only [lastCompleted, completions, Machine.collect_concat, after]
  cases completionOf lib config
      (Machine.run (step lib config) (ServerState.start registry) es) e with
  | none => simp
  | some c =>
    by_cases hk : c.publicKey = key
    · simp [hk]
    · simp [hk]

theorem cache_eq_lastCompleted (registry : DeviceRegistry) (es : List Event) :
    (∀ key, (after lib config registry es).cache.lookup key =
      (lastCompleted lib config registry es key).map Completion.cached) ∧
    ∀ key c, lastCompleted lib config registry es key = some c →
      Answers c.response c.sessionId := by
  induction es using List.reverseRecOn with
  | nil => simp [after, lastCompleted, completions, ServerState.start]
  | append_singleton es e ih =>
    obtain ⟨ihc, ihr⟩ := ih
    rw [after_concat]
    simp only [lastCompleted_concat]
    rcases step_cache lib config (after lib config registry es) e with
      ⟨hn, hcache⟩ | ⟨c, hc, hcache, hresp⟩
    · rw [hn, hcache]
      exact ⟨ihc, ihr⟩
    · rw [hc, hcache]
      refine ⟨fun key => ?_, fun key c' => ?_⟩
      · rw [HashMap.lookup_insert_ite, ihc]
        by_cases hk : c.publicKey = key
        · simp [hk]
        · simp [hk, Ne.symm hk]
      · by_cases hk : c.publicKey = key
        · simp only [hk, if_true, Option.some.injEq]
          rintro rfl
          exact hresp
        · simp only [hk, if_false]
          exact ihr key c'

structure InRange (st : ServerState) : Prop where
  byId : ∀ i p, st.sessions.byId.lookup i = some p → p < st.heap.length
  byAddress : ∀ a p, st.sessions.byAddress.lookup a = some p → p < st.heap.length

theorem InRange.start (registry : DeviceRegistry) : InRange (ServerState.start registry) := by
  constructor
  · intro i p h
    simp [ServerState.start, Sessions.empty] at h
  · intro a p h
    simp [ServerState.start, Sessions.empty] at h

theorem InRange.frame {st' : ServerState} (h : InRange st) (hf : Frame st st') : InRange st' := by
  constructor
  · rw [hf.sessions, hf.length]
    exact h.byId
  · rw [hf.sessions, hf.length]
    exact h.byAddress

theorem InRange.installed (h : InRange st) {env : Env} {peer : SocketAddr} {datagram : Datagram}
    {wire : WireMode} {key : PublicKey} {client : DeviceLease} {crypto : SecureSession}
    {response : Bytes}
    (hc : st.sessions.collides
      (ServerState.addressIn (heapWith lib config peer datagram wire st client crypto))
      datagram.header.sessionId client.address = false) :
    InRange (installed lib config env peer datagram wire st key client crypto response) := by
  rw [← addressIn_heapWith lib config peer datagram wire st client crypto] at hc
  have hlen : (heapWith lib config peer datagram wire st client crypto).length =
      st.heap.length + 1 := by simp [heapWith]
  constructor
  · intro i p hp
    simp only [Server.installed, hlen] at hp ⊢
    rcases (Sessions.replaceClient_byId hc i p).mp hp with ⟨-, rfl⟩ | ⟨-, hp, -⟩
    · exact Nat.lt_succ_self _
    · exact (h.byId i p hp).trans (Nat.lt_succ_self _)
  · intro a p hp
    simp only [Server.installed, hlen] at hp ⊢
    rw [Sessions.replaceClient_byAddress hc] at hp
    split_ifs at hp
    · cases hp
      exact Nat.lt_succ_self _
    · exact (h.byAddress a p hp).trans (Nat.lt_succ_self _)

theorem step_inRange (h : InRange st) (e : Event) : InRange (step lib config st e).1 := by
  by_cases he : ∀ env peer datagram wire, e ≠ .handshake env peer datagram wire
  · exact h.frame (step_frame lib config he)
  simp only [ne_eq, not_forall, not_not] at he
  obtain ⟨env, peer, datagram, wire, rfl⟩ := he
  have ho := handleHandshake_outcome lib config env peer datagram wire st
  simp only [step]
  generalize handleHandshake lib config env peer datagram wire st = r at ho ⊢
  rcases ho.state with hst | ⟨handshake, key, client, crypto, response, -, -, hc, rfl⟩
  · rw [hst]
    exact h
  · exact h.installed hc

theorem after_inRange (lib : Libraries) (config : ValidatedServerConfig)
    (registry : DeviceRegistry) (es : List Event) :
    InRange (after lib config registry es) :=
  Machine.run_invariant (step lib config) InRange (fun _ e h => step_inRange h e)
    (InRange.start registry) es

/-- The server would install a session for `key` if the initiation were not cached:
it reads and authorizes it, finishes the handshake, and no session of another
address holds the session ID. -/
def Admissible (lib : Libraries) (config : ValidatedServerConfig) (st : ServerState) (env : Env)
    (datagram : Datagram) (wire : WireMode) (key : PublicKey) : Prop :=
  ∃ handshake client crypto response, Authorized lib config datagram wire st handshake key client ∧
    handshake.finish env.entropy (sessionParameters config wire client).encode =
      .ok (crypto, response) ∧
    ∀ p s, st.sessions.byId.lookup datagram.header.sessionId = some p → st.heap[p]? = some s →
      s.clientAddress = client.address

theorem collides_heapWith (h : InRange st) (peer : SocketAddr) (datagram : Datagram)
    (wire : WireMode) (client : DeviceLease) (crypto : SecureSession) :
    st.sessions.collides
        (ServerState.addressIn (heapWith lib config peer datagram wire st client crypto))
        datagram.header.sessionId client.address = false ↔
      ∀ p s, st.sessions.byId.lookup datagram.header.sessionId = some p →
        st.heap[p]? = some s → s.clientAddress = client.address := by
  rw [Sessions.collides_eq_false]
  have haddr : ∀ p s, st.heap[p]? = some s →
      ServerState.addressIn (heapWith lib config peer datagram wire st client crypto) p =
        s.clientAddress := by
    intro p s hs
    have hp := (List.getElem?_eq_some_iff.mp hs).1
    simp [ServerState.addressIn, heapWith, List.getElem?_append_left hp, hs]
  constructor
  · intro hc p s hp hs
    rw [← haddr p s hs]
    exact hc p hp
  · intro hc p hp
    have hs := List.getElem?_eq_getElem (h.byId _ p hp)
    rw [haddr p _ hs]
    exact hc p _ hp hs

theorem Authorized.unique {datagram : Datagram} {wire : WireMode}
    {handshake handshake' : ServerHandshake lib} {key key' : PublicKey}
    {client client' : DeviceLease} (h : Authorized lib config datagram wire st handshake key client)
    (h' : Authorized lib config datagram wire st handshake' key' client') :
    handshake' = handshake ∧ key' = key ∧ client' = client := by
  have hr := h'.read
  rw [h.read] at hr
  cases hr
  have hl := h'.lease
  rw [h.lease] at hl
  cases hl
  exact ⟨rfl, rfl, rfl⟩

theorem Authorized.not_unread {datagram : Datagram} {wire : WireMode}
    {handshake : ServerHandshake lib} {key : PublicKey} {client : DeviceLease}
    (h : Authorized lib config datagram wire st handshake key client) :
    readInitiation lib config wire datagram.payload ≠ none := by
  simp [h.read]

theorem Authorized.not_unauthorized {datagram : Datagram} {wire : WireMode}
    {handshake handshake' : ServerHandshake lib} {key key' : PublicKey} {client : DeviceLease}
    (h : Authorized lib config datagram wire st handshake key client)
    (hr : readInitiation lib config wire datagram.payload = some (handshake', key')) :
    st.registry.authorize key' ≠ none := by
  rw [h.read] at hr
  cases hr
  simp [h.lease]

theorem handshake_sessions_eq_iff (lib : Libraries) (config : ValidatedServerConfig)
    (h : InRange st) (env : Env) (peer : SocketAddr) (datagram : Datagram) (wire : WireMode) :
    (handleHandshake lib config env peer datagram wire st).1.sessions = st.sessions ↔
      ∀ key, Admissible lib config st env datagram wire key → ¬ CacheMiss datagram st key := by
  have ho := handleHandshake_outcome lib config env peer datagram wire st
  generalize handleHandshake lib config env peer datagram wire st = r at ho ⊢
  cases ho with
  | unread hn hr =>
    refine ⟨fun _ key => ?_, fun _ => by rw [hr]⟩
    rintro ⟨_, _, _, _, ha, -⟩
    exact absurd hn ha.not_unread
  | unauthorized hk hn hr =>
    refine ⟨fun _ key => ?_, fun _ => by rw [hr]⟩
    rintro ⟨_, _, _, _, ha, -⟩
    exact absurd hn (ha.not_unauthorized hk)
  | @finished handshake key client ha ho =>
    cases ho with
    | repeated hc hq =>
      refine ⟨fun _ key => ?_, fun _ => rfl⟩
      rintro ⟨_, _, _, _, ha', -⟩ hm
      obtain ⟨-, rfl, -⟩ := ha.unique ha'
      exact hm _ hc hq
    | unfinished hm hf =>
      refine ⟨fun _ key => ?_, fun _ => rfl⟩
      rintro ⟨_, _, _, _, ha', hf', -⟩
      obtain ⟨rfl, -, rfl⟩ := ha.unique ha'
      simp [hf] at hf'
    | collided hm hf hc =>
      refine ⟨fun _ key => ?_, fun _ => rfl⟩
      rintro ⟨_, _, _, _, ha', hf', hfree⟩
      obtain ⟨rfl, -, rfl⟩ := ha.unique ha'
      rw [(collides_heapWith h peer datagram wire _ _).mpr hfree] at hc
      cases hc
    | @installs crypto response hm hf hc =>
      have hadm : Admissible lib config st env datagram wire key :=
        ⟨handshake, client, crypto, response, ha, hf,
          (collides_heapWith h peer datagram wire client crypto).mp hc⟩
      refine ⟨fun heq => ?_, fun hall => absurd hm (hall key hadm)⟩
      -- The new session is found under its address, and no old pointer equals it.
      rw [← addressIn_heapWith lib config peer datagram wire st client crypto] at hc
      have hnew := Sessions.replaceClient_byAddress hc
        (ServerState.addressIn (heapWith lib config peer datagram wire st client crypto)
          st.heap.length)
      rw [if_pos rfl] at hnew
      simp only [installed] at heq
      rw [heq] at hnew
      exact absurd (h.byAddress _ _ hnew) (lt_irrefl _)

theorem not_cacheMiss_iff (registry : DeviceRegistry) (es : List Event) (datagram : Datagram)
    (key : PublicKey) :
    ¬ CacheMiss datagram (after lib config registry es) key ↔
      (lastCompleted lib config registry es key).map Completion.request =
        some datagram.payload := by
  unfold CacheMiss
  rw [(cache_eq_lastCompleted registry es).1 key]
  cases lastCompleted lib config registry es key with
  | none => simp
  | some c => simp [Completion.cached]

/-- In every run, a repeated initiation leaves the sessions alone exactly when it is
the one last completed for the device, or would not be admitted at all. -/
theorem replay_keeps_sessions_iff (registry : DeviceRegistry) (es : List Event) (env : Env)
    (peer : SocketAddr) (datagram : Datagram) (wire : WireMode) (key : PublicKey) :
    Processed lib config registry es key datagram.payload →
    ((step lib config (after lib config registry es)
        (.handshake env peer datagram wire)).1.sessions =
        (after lib config registry es).sessions ↔
      ∀ k, Admissible lib config (after lib config registry es) env datagram wire k →
        (lastCompleted lib config registry es k).map Completion.request =
          some datagram.payload) := by
  intro _
  have h := handshake_sessions_eq_iff lib config (after_inRange lib config registry es) env peer
    datagram wire
  simp only [not_cacheMiss_iff] at h
  exact h

def sampleHistory : List Event := [sampleHandshake 1 1 10, sampleHandshake 2 2 10]

/-- Old, new, old: the old initiation, repeated from another endpoint, replaces the
live session and takes its endpoint. -/
theorem replayed_initiation_replaces_session :
    (sampleKey 2, sampleInitiation sampleConfig.context 2 1) ∈
      Machine.collect (step clearLibraries sampleConfig) (installsOf clearLibraries sampleConfig)
        (ServerState.start sampleRegistry) sampleHistory ∧
    (after clearLibraries sampleConfig sampleRegistry sampleHistory).sessions.byAddress.lookup
      ⟨10, 77, 0, 2⟩ = some 1 ∧
    (after clearLibraries sampleConfig sampleRegistry
      (sampleHistory ++ [sampleHandshake 3 1 66])).sessions.byAddress.lookup
      ⟨10, 77, 0, 2⟩ = some 2 ∧
    endpointOf (after clearLibraries sampleConfig sampleRegistry sampleHistory) ⟨10, 77, 0, 2⟩ =
      some (samplePeer 10) ∧
    endpointOf (after clearLibraries sampleConfig sampleRegistry
      (sampleHistory ++ [sampleHandshake 3 1 66])) ⟨10, 77, 0, 2⟩ = some (samplePeer 66) := by
  decide +kernel

theorem sample_initiation_key {st : ServerState} {handshake : ServerHandshake clearLibraries}
    {sessionId : UInt64} {nonce : UInt8} {key : PublicKey} {client : DeviceLease}
    (hn : nonce = 1 ∨ nonce = 2)
    (ha : Authorized clearLibraries sampleConfig (sampleInit sessionId nonce) .legacy st
      handshake key client) : key = sampleKey 2 := by
  have hr : (readInitiation clearLibraries sampleConfig .legacy
      (sampleInitiation sampleConfig.context 2 nonce)).map Prod.snd = some (sampleKey 2) := by
    rcases hn with rfl | rfl <;> decide +kernel
  have hread := congrArg (Option.map Prod.snd) ha.read
  exact (Option.some.inj (hr.symm.trans hread)).symm

theorem replay_keeps_sessions_sample :
    Processed clearLibraries sampleConfig sampleRegistry sampleHistory (sampleKey 2)
      (sampleInit 3 2).payload ∧
    (step clearLibraries sampleConfig
      (after clearLibraries sampleConfig sampleRegistry sampleHistory)
      (.handshake sampleEnv (samplePeer 66) (sampleInit 3 2) .legacy)).1.sessions =
      (after clearLibraries sampleConfig sampleRegistry sampleHistory).sessions := by
  have hp : Processed clearLibraries sampleConfig sampleRegistry sampleHistory (sampleKey 2)
      (sampleInit 3 2).payload := by
    unfold Processed
    decide +kernel
  refine ⟨hp, (replay_keeps_sessions_iff sampleRegistry sampleHistory sampleEnv (samplePeer 66)
    (sampleInit 3 2) .legacy (sampleKey 2) hp).mpr ?_⟩
  rintro k ⟨_, _, _, _, ha, -⟩
  rw [sample_initiation_key (Or.inr rfl) ha]
  decide +kernel

def AnswersStale (lib : Libraries) (config : ValidatedServerConfig) (registry : DeviceRegistry)
    (es : List Event) (env : Env) (datagram : Datagram) (wire : WireMode) : Prop :=
  ∃ handshake key client c,
    Authorized lib config datagram wire (after lib config registry es) handshake key client ∧
    lastCompleted lib config registry es key = some c ∧ c.request = datagram.payload ∧
    (wire.encodeServer lib c.response env.sources).isSome ∧
    c.sessionId ≠ datagram.header.sessionId

theorem not_answersStale_of_cacheMiss {registry : DeviceRegistry} {es : List Event} {env : Env}
    {datagram : Datagram} {wire : WireMode} {handshake : ServerHandshake lib} {key : PublicKey}
    {client : DeviceLease}
    (ha : Authorized lib config datagram wire (after lib config registry es) handshake key client)
    (hm : CacheMiss datagram (after lib config registry es) key) :
    ¬ AnswersStale lib config registry es env datagram wire := by
  rintro ⟨_, _, _, c, ha', hl, hq, -, -⟩
  obtain ⟨-, rfl, -⟩ := ha.unique ha'
  refine hm c.cached ?_ hq
  rw [(cache_eq_lastCompleted registry es).1, hl]
  rfl

/-- In every run, all answers to an initiation carry its session ID exactly when it
is not answered with a cached response of another ID. -/
theorem answers_carry_id_iff (registry : DeviceRegistry) (es : List Event) (env : Env)
    (peer : SocketAddr) (datagram : Datagram) (wire : WireMode) :
    (∀ sent frame target, .send sent frame target ∈ (step lib config
        (after lib config registry es) (.handshake env peer datagram wire)).2 →
        Answers sent datagram.header.sessionId) ↔
      ¬ AnswersStale lib config registry es env datagram wire := by
  have ho := handleHandshake_outcome lib config env peer datagram wire
    (after lib config registry es)
  simp only [step]
  generalize handleHandshake lib config env peer datagram wire (after lib config registry es) = r
    at ho ⊢
  cases ho with
  | unread hn hr =>
    refine iff_of_true (by simp [hr]) ?_
    rintro ⟨_, _, _, _, ha, -⟩
    exact absurd hn ha.not_unread
  | unauthorized hk hn hr =>
    refine iff_of_true (by simp [hr]) ?_
    rintro ⟨_, _, _, _, ha, -⟩
    exact absurd hn (ha.not_unauthorized hk)
  | @finished handshake key client ha ho =>
    cases ho with
    | @repeated cached hc hq =>
      rw [(cache_eq_lastCompleted registry es).1] at hc
      obtain ⟨c, hl, rfl⟩ := Option.map_eq_some_iff.mp hc
      have hid := (cache_eq_lastCompleted registry es).2 key c hl
      constructor
      · rintro hall ⟨_, _, _, c', ha', hl', -, hframe, hne⟩
        obtain ⟨-, rfl, -⟩ := ha.unique ha'
        rw [hl] at hl'
        cases hl'
        obtain ⟨frame, hf⟩ := Option.isSome_iff_exists.mp hframe
        have hsent := hall c.response frame peer (by simp [framed, Completion.cached, hf])
        exact hne (hid.unique hsent)
      · intro hn sent frame target hmem
        obtain ⟨rfl, hframe⟩ := mem_framed hmem
        have heq : c.sessionId = datagram.header.sessionId := by
          by_contra hne
          exact hn ⟨handshake, key, client, c, ha, hl, hq, hframe, hne⟩
        rw [← heq]
        exact hid
    | unfinished hm => exact iff_of_true (by simp) (not_answersStale_of_cacheMiss ha hm)
    | collided hm => exact iff_of_true (by simp) (not_answersStale_of_cacheMiss ha hm)
    | @installs crypto response hm hf hc =>
      refine iff_of_true (fun sent frame target hmem => ?_) (not_answersStale_of_cacheMiss ha hm)
      obtain ⟨rfl, -⟩ := mem_framed hmem
      exact encodedResponse_answers datagram response

/-- A copy of the first initiation under session ID 7 arrives before the original
under 1, whose sender is then answered under 7. -/
theorem repeated_initiation_answered_under_other_id :
    ∃ response frame, (step clearLibraries sampleConfig
        (after clearLibraries sampleConfig sampleRegistry [sampleHandshake 7 1 66])
        (.handshake sampleEnv (samplePeer 10) (sampleInit 1 1) .legacy)).2 =
      [.send response frame (samplePeer 10)] ∧
    (Datagram.decode response).map (fun d => (d.header.kind, d.header.sessionId)) =
      .ok (.handshakeResponse, 7) :=
  ⟨[1, 2, 0, 0, 0, 0, 0, 0, 0, 0, 0, 7, 0, 0, 0, 0, 0, 0, 0, 0, 10, 77, 0, 2, 24, 5, 0, 1, 1, 1, 1],
    [1, 2, 0, 0, 0, 0, 0, 0, 0, 0, 0, 7, 0, 0, 0, 0, 0, 0, 0, 0, 10, 77, 0, 2, 24, 5, 0,
      1, 1, 1, 1],
    by decide +kernel, by decide +kernel⟩

end MouseVpn.Server
