import MouseVpn.Server.Handshakes

/-!
# The index over a growing heap

Sessions are only added to the heap. Both maps of the index hold the same sessions of it, and
a new session displaces those that have its address and no others.
-/

namespace MouseVpn.Server

open MouseVpn.Lib MouseVpn.Crypto MouseVpn.Protocol MouseVpn.DataPlane

namespace Sessions

theorem Bijective.congr {π : Type*} {clientAddress clientAddress' : π → Ipv4Addr}
    {t : Sessions π} (h : Bijective clientAddress t)
    (hagree : ∀ a s, t.byAddress.lookup a = some s → clientAddress' s = clientAddress s) :
    Bijective clientAddress' t := by
  refine ⟨?_, h.one_id, ?_⟩
  · intro a s ha
    rw [hagree a s ha]
    exact h.own_address a s ha
  · intro s
    constructor
    · intro hid
      have ha := (h.same s).mp hid
      rw [hagree _ s ha]
      exact ha
    · intro ha
      rw [hagree _ s ha] at ha
      exact (h.same s).mpr ha

end Sessions

theorem Persists.addressIn {st st' : ServerState} (h : Persists st st') {p : ℕ}
    (hp : p < st.heap.length) :
    ServerState.addressIn st'.heap p = ServerState.addressIn st.heap p := by
  have hs := List.getElem?_eq_getElem hp
  obtain ⟨s', hs', hsame⟩ := h p _ hs
  simp only [ServerState.addressIn, hs, hs']
  exact hsame.clientAddress

structure Indexed (st : ServerState) : Prop where
  inRange : InRange st
  bijective : Sessions.Bijective (ServerState.addressIn st.heap) st.sessions

namespace Indexed

variable {lib : Libraries} {config : ValidatedServerConfig} {st st' : ServerState}

theorem start (registry : DeviceRegistry) : Indexed (ServerState.start registry) :=
  ⟨InRange.start registry, Sessions.empty_bijective⟩

theorem frame (h : Indexed st) (hp : Persists st st') (hf : Frame st st') : Indexed st' := by
  refine ⟨h.inRange.frame hf, ?_⟩
  rw [hf.sessions]
  exact h.bijective.congr fun a p ha => hp.addressIn (h.inRange.byAddress a p ha)

section Install

variable {env : Env} {peer : SocketAddr} {datagram : Datagram} {wire : WireMode}
  {key : PublicKey} {client : DeviceLease} {crypto : SecureSession} {response : Bytes}

theorem heapWith (h : Indexed st) :
    Sessions.Bijective
      (ServerState.addressIn (Server.heapWith lib config peer datagram wire st client crypto))
      st.sessions := by
  apply h.bijective.congr
  intro a p ha
  have hs := List.getElem?_eq_getElem (h.inRange.byAddress a p ha)
  simp only [ServerState.addressIn, hs, heapWith_old lib config peer datagram wire st hs]

theorem installed (h : Indexed st)
    (hc : st.sessions.collides
      (ServerState.addressIn (Server.heapWith lib config peer datagram wire st client crypto))
      datagram.header.sessionId client.address = false) :
    Indexed (installed lib config env peer datagram wire st key client crypto response) :=
  ⟨h.inRange.installed hc, Sessions.replaceClient_bijective h.heapWith _ _⟩

theorem installed_session (h : Indexed st)
    (hc : st.sessions.collides
      (ServerState.addressIn (Server.heapWith lib config peer datagram wire st client crypto))
      datagram.header.sessionId client.address = false) :
    let sessions :=
      (Server.installed lib config env peer datagram wire st key client crypto response).sessions
    sessions.byId.lookup datagram.header.sessionId = some st.heap.length ∧
      sessions.byAddress.lookup client.address = some st.heap.length := by
  have haddress := addressIn_heapWith lib config peer datagram wire st client crypto
  rw [← haddress] at hc
  have hb : Sessions.Bijective
      (ServerState.addressIn (Server.heapWith lib config peer datagram wire st client crypto))
      st.sessions := h.heapWith
  have hreachable := (hb.callSound datagram.header.sessionId st.heap.length).reachable
    (by rw [Sessions.replaceClient_snd, hc]; rfl)
  rw [haddress] at hreachable
  exact hreachable

theorem installed_other (h : Indexed st) {i : UInt64} {a : Ipv4Addr} {p : ℕ}
    (hid : st.sessions.byId.lookup i = some p) (ha : st.sessions.byAddress.lookup a = some p)
    (hne : a ≠ client.address) :
    let sessions :=
      (Server.installed lib config env peer datagram wire st key client crypto response).sessions
    sessions.byId.lookup i = some p ∧ sessions.byAddress.lookup a = some p := by
  have hb : Sessions.Bijective
      (ServerState.addressIn (Server.heapWith lib config peer datagram wire st client crypto))
      st.sessions := h.heapWith
  have hsound := hb.callSound datagram.header.sessionId st.heap.length
  have hnew := addressIn_heapWith lib config peer datagram wire st client crypto
  refine ⟨(hsound.others_byId i p ?_).mpr hid, (hsound.others_byAddress a ?_).trans ha⟩
  · rw [hnew, hb.own_address a p ha]
    exact hne
  · rw [hnew]
    exact hne

end Install

end Indexed

end MouseVpn.Server
