import MasterRelay.Protocol.Pack
import MasterRelay.Protocol.Unpack

/-!
# Sending packets

The sending half of `protocol_msg.c` and `try_enet_peer_send` of `ifb_enet_safe.h`. ENet is not part
of the repository: an `Env` gives everything the program learns from outside while it handles one
event (the peers' state, the results of `malloc`, `enet_packet_create` and `enet_peer_send`, the
growth of the `msgpack_sbuffer`, what the decoders see of memory), so a theorem over every `Env` is
about every outcome of packing and sending.

A packet that leaves is an `Output`. A sending function returns the output it made, or the text it
wrote into `err_buf`; `ifb_ptcl_try_broadcast_msg_packet` and `ifb_try_relay_packet` hand ENet a
packet without looking whether there is one, and fault where there is none.
-/

namespace MasterRelay.Protocol

open MasterRelay.Lib.MsgPack

/-- The fields of an `ENetPeer` the program reads. -/
structure ENetPeer where
  state : Nat
  channelCount : Nat
  /-- `peer->host->maximumPacketSize`. -/
  maximumPacketSize : Nat
  deriving DecidableEq, Repr

/-- `ENET_PEER_STATE_CONNECTED`. -/
def enetPeerStateConnected : Nat := 5

/-- What the program learns from outside while it handles one event. `P` are the peers. -/
structure Env (P : Type) where
  peer : P → ENetPeer
  /-- `malloc` of a record of the registry. -/
  mallocPlayer : Bool
  /-- `malloc` of the data of a packet of this type. -/
  malloc : MessageType → Bool
  /-- `enet_packet_create` for a packet of this type. -/
  packetCreate : MessageType → Bool
  /-- The result of `enet_peer_send`. -/
  peerSend : P → ChannelId → Int
  /-- Whether each write into the `msgpack_sbuffer` finds room. -/
  grow : List Bool
  reader : Reader

/-- A packet that leaves the program. `forced` packets are followed by `enet_host_flush`. -/
inductive Output (P : Type) where
  | send (peer : P) (channel : ChannelId) (data : Bytes) (reliable forced : Bool)
  | broadcast (channel : ChannelId) (data : Bytes) (reliable forced : Bool)
  deriving DecidableEq, Repr

/-- The bytes of a packet. -/
def Output.data {P : Type} : Output P → Bytes
  | .send _ _ data _ _ => data
  | .broadcast _ data _ _ => data

variable {P : Type} (env : Env P)

/-- `enet_packet_create`: `none` is NULL. -/
def enetPacketCreate (t : MessageType) (data : Bytes) : Option Bytes :=
  if env.packetCreate t then some data else none

/-- `try_enet_peer_send`: the checks, in the order of the source. -/
def tryEnetPeerSend (peer : Option P) (channel : ChannelId) (packet : Option Bytes)
    (reliable forced : Bool) : Except String (Output P) :=
  match peer, packet with
  | none, _ => .error "try_enet_peer_send() peer is NULL"
  | some _, none => .error "try_enet_peer_send() packet is NULL"
  | some p, some data =>
    if (env.peer p).state ≠ enetPeerStateConnected then
      .error ("try_enet_peer_send() peer state is not connected. Actual: " ++
        toString (env.peer p).state)
    else if channel.toNat ≥ (env.peer p).channelCount then
      .error "try_enet_peer_send() channel_id is larger than peer->channelCount"
    else if data.length > (env.peer p).maximumPacketSize then
      .error ("try_enet_peer_send() cpacket->dataLength is larger than host->maximumPacketSize (" ++
        toString data.length ++ " / " ++ toString (env.peer p).maximumPacketSize ++ ")")
    else if env.peerSend p channel < 0 then .error "try_enet_peer_send() uknown error."
    else .ok (.send p channel data reliable forced)

/-- `ifb_ptcl_try_send_msg_packet`. -/
def ifbPtclTrySendMsgPacket (t : MessageType) (channel : ChannelId) (sbuf : Option Bytes)
    (peer : Option P) (reliable forced : Bool) : Except String (Output P) :=
  if !isSuitableMsgType t then .error "unknown ifb_en_message_type msg_type!"
  else if !env.malloc t then .error "malloc() failed."
  else tryEnetPeerSend env peer channel (enetPacketCreate env t (frame t sbuf)) reliable forced

/-- `ifb_ptcl_try_broadcast_msg_packet`. -/
def ifbPtclTryBroadcastMsgPacket (t : MessageType) (channel : ChannelId) (sbuf : Option Bytes)
    (reliable forced : Bool) : Except Stop (Output P) :=
  if !isSuitableMsgType t then fail "unknown ifb_en_message_type msg_type!"
  else if !env.malloc t then fail "malloc() failed."
  else
    match enetPacketCreate env t (frame t sbuf) with
    -- the packet is not checked: `enet_host_broadcast` gets NULL
    | none => .error .fault
    | some data => .ok (.broadcast channel data reliable forced)

/-- `ifb_try_relay_packet`: `pktSrc` is the data of the received packet, sent on as it is. -/
def ifbTryRelayPacket (pktSrc : Bytes) (peerTo : Option P) (channel : ChannelId)
    (reliable forced : Bool) : Except Stop (Output P) :=
  match peerTo, enetPacketCreate env .playerInput pktSrc with
  -- `enet_peer_send` gets NULL
  | none, _ => .error .fault
  | some _, none => .error .fault
  | some p, some data =>
    if env.peerSend p channel ≠ 0 then fail "enet_peer_send failed."
    else .ok (.send p channel data reliable forced)

/-- Run a packer on an empty `msgpack_sbuffer`. -/
def packed (m : Packer Unit) : Except String Bytes :=
  match m (.init env.grow) with
  | (.ok (), s) => .ok s.data
  | (.error e, _) => .error e

/-! ## Specifications -/

variable {env}

/-- What is packed is what the packer emits. -/
theorem packed_eq_ok {m : Packer Unit} {out b : Bytes} (hm : Emits m out)
    (h : packed env m = .ok b) : b = out := by
  unfold packed at h
  split at h
  · rename_i s hs
    cases h
    exact hm.ok _ _ hs
  · cases h

/-- Packing succeeds exactly when its writes find room. -/
theorem packed_isOk {m : Packer Unit} {n : Nat} (hm : Needs m n) :
    (∃ b, packed env m = .ok b) ↔ ∀ b ∈ env.grow.take n, b = true := by
  unfold packed
  constructor
  · rintro ⟨b, hb⟩
    by_contra hroom
    obtain ⟨e, s', hs⟩ := hm.error (.init env.grow) hroom
    rw [hs] at hb
    cases hb
  · intro hroom
    obtain ⟨s', hs, -⟩ := hm.ok (.init env.grow) hroom
    rw [hs]
    exact ⟨_, rfl⟩

/-- Every allocation succeeds. -/
structure Env.Allocates (env : Env P) : Prop where
  mallocPlayer : env.mallocPlayer = true
  malloc : ∀ t, env.malloc t = true
  packetCreate : ∀ t, env.packetCreate t = true
  grow : ∀ b ∈ env.grow, b = true

theorem packed_of_allocates (henv : env.Allocates) {m : Packer Unit} {out : Bytes}
    (hm : Emits m out) : packed env m = .ok out := by
  obtain ⟨s, hs, -⟩ := hm.roomy (.init env.grow) henv.grow
  have hdata := hm.ok _ _ hs
  simp only [packed, hs]
  exact congrArg Except.ok hdata

/-- `p` takes a packet of this many bytes on the channel. -/
structure Env.Accepts (env : Env P) (p : P) (channel : ChannelId) (size : Nat) : Prop where
  connected : (env.peer p).state = enetPeerStateConnected
  opened : channel.toNat < (env.peer p).channelCount
  size : size ≤ (env.peer p).maximumPacketSize
  sent : env.peerSend p channel = 0

/-- A packet of this type and size reaches the queue of `p`. -/
structure Env.CanSend (env : Env P) (t : MessageType) (p : P) (channel : ChannelId) (size : Nat) :
    Prop where
  malloc : env.malloc t = true
  created : env.packetCreate t = true
  connected : (env.peer p).state = enetPeerStateConnected
  opened : channel.toNat < (env.peer p).channelCount
  size : size ≤ (env.peer p).maximumPacketSize
  sent : 0 ≤ env.peerSend p channel

/-- What a send that succeeded sent. -/
theorem trySend_eq_ok {t : MessageType} {channel : ChannelId} {sbuf : Option Bytes}
    {peer : Option P} {reliable forced : Bool} {o : Output P}
    (h : ifbPtclTrySendMsgPacket env t channel sbuf peer reliable forced = .ok o) :
    ∃ p, peer = some p ∧ o = .send p channel (frame t sbuf) reliable forced := by
  unfold ifbPtclTrySendMsgPacket at h
  split_ifs at h
  unfold tryEnetPeerSend enetPacketCreate at h
  split at h
  · cases h
  · cases h
  · rename_i p data hpkt
    split_ifs at hpkt h
    cases hpkt
    cases h
    exact ⟨_, rfl, rfl⟩

/-- **`ifb_ptcl_try_send_msg_packet` succeeds exactly when the packet can be sent.** -/
theorem trySend_isOk {t : MessageType} {channel : ChannelId} {sbuf : Option Bytes} {p : P}
    (reliable forced : Bool) (ht : isSuitableMsgType t = true) :
    (∃ o, ifbPtclTrySendMsgPacket env t channel sbuf (some p) reliable forced = .ok o) ↔
      env.CanSend t p channel (frame t sbuf).length := by
  constructor
  · rintro ⟨o, h⟩
    unfold ifbPtclTrySendMsgPacket at h
    split_ifs at h with _ hmalloc
    unfold tryEnetPeerSend enetPacketCreate at h
    split at h
    · cases h
    · cases h
    · rename_i q data hq hpkt
      split_ifs at hpkt h with hcreate hstate hchan hsize hsend
      cases hq
      cases hpkt
      exact ⟨by simpa using hmalloc, hcreate, not_not.mp hstate, Nat.lt_of_not_le hchan,
        Nat.le_of_not_lt hsize, Int.not_lt.mp hsend⟩
  · rintro ⟨hmalloc, hcreate, hstate, hchan, hsize, hsend⟩
    refine ⟨.send p channel (frame t sbuf) reliable forced, ?_⟩
    simp [ifbPtclTrySendMsgPacket, ht, hmalloc, enetPacketCreate, hcreate, tryEnetPeerSend, hstate,
      Nat.not_le.mpr hchan, Nat.not_lt.mpr hsize, Int.not_lt.mpr hsend]

theorem trySend_of_accepts {t : MessageType} {channel : ChannelId} {sbuf : Option Bytes} {p : P}
    (reliable forced : Bool) (ht : isSuitableMsgType t = true) (henv : env.Allocates)
    (hp : env.Accepts p channel (frame t sbuf).length) :
    ifbPtclTrySendMsgPacket env t channel sbuf (some p) reliable forced =
      .ok (.send p channel (frame t sbuf) reliable forced) := by
  obtain ⟨hconn, hchan, hsize, hsent⟩ := hp
  simp [ifbPtclTrySendMsgPacket, ht, henv.malloc, enetPacketCreate, henv.packetCreate,
    tryEnetPeerSend, hconn, hsent, Nat.not_le.mpr hchan, Nat.not_lt.mpr hsize]

theorem tryBroadcast_of_allocates {t : MessageType} {channel : ChannelId} {sbuf : Option Bytes}
    {reliable forced : Bool} (ht : isSuitableMsgType t = true) (henv : env.Allocates) :
    ifbPtclTryBroadcastMsgPacket env t channel sbuf reliable forced =
      .ok (.broadcast channel (frame t sbuf) reliable forced) := by
  simp [ifbPtclTryBroadcastMsgPacket, ht, henv.malloc, enetPacketCreate, henv.packetCreate]

theorem tryBroadcast_eq_ok {t : MessageType} {channel : ChannelId} {sbuf : Option Bytes}
    {reliable forced : Bool} {o : Output P}
    (h : ifbPtclTryBroadcastMsgPacket env t channel sbuf reliable forced = .ok o) :
    o = .broadcast channel (frame t sbuf) reliable forced := by
  unfold ifbPtclTryBroadcastMsgPacket at h
  split_ifs at h
  · cases h
  · cases h
  · unfold enetPacketCreate at h
    split at h
    · cases h
    · rename_i data hpkt
      split_ifs at hpkt
      cases hpkt
      cases h
      rfl

/-- A relayed packet goes to the one peer it is relayed to, as it came. -/
theorem tryRelay_eq_ok {pktSrc : Bytes} {peerTo : Option P} {channel : ChannelId}
    {reliable forced : Bool} {o : Output P}
    (h : ifbTryRelayPacket env pktSrc peerTo channel reliable forced = .ok o) :
    ∃ p, peerTo = some p ∧ o = .send p channel pktSrc reliable forced := by
  unfold ifbTryRelayPacket enetPacketCreate at h
  split at h
  · cases h
  · cases h
  · rename_i p data hpkt
    split_ifs at hpkt h
    · cases h
    · cases hpkt
      cases h
      exact ⟨_, rfl, rfl⟩

theorem tryRelay_of_accepts {pktSrc : Bytes} {p : P} {channel : ChannelId}
    {reliable forced : Bool} (henv : env.Allocates) (hsent : env.peerSend p channel = 0) :
    ifbTryRelayPacket env pktSrc (some p) channel reliable forced =
      .ok (.send p channel pktSrc reliable forced) := by
  simp [ifbTryRelayPacket, enetPacketCreate, henv.packetCreate, hsent]

/-- An environment in which everything succeeds: four channels, ENet's default packet limit, zeros
behind every buffer. -/
def Env.ideal : Env P where
  peer _ := ⟨enetPeerStateConnected, 4, 32 * 1024 * 1024⟩
  mallocPlayer := true
  malloc _ := true
  packetCreate _ := true
  peerSend _ _ := 0
  grow := []
  reader := .buffer (fun _ => 0) fun _ => 0

theorem ideal_allocates : (Env.ideal : Env P).Allocates where
  mallocPlayer := rfl
  malloc _ := rfl
  packetCreate _ := rfl
  grow _ hb := absurd hb List.not_mem_nil

theorem ideal_accepts (p : P) (channel : ChannelId) {size : Nat} (h : size ≤ 32 * 1024 * 1024) :
    (Env.ideal : Env P).Accepts p channel size where
  connected := rfl
  opened := by cases channel <;> simp [ChannelId.toNat, Env.ideal]
  size := h
  sent := rfl

end MasterRelay.Protocol
