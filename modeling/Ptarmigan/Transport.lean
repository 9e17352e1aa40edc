/-
Packets between two nodes after the handshake: the bytes on the way in both directions,
and the loop of each node that reads a header and then as many bytes as it says.
-/
import Mathlib.Logic.Function.Iterate
import Ptarmigan.EncAuth
import Ptarmigan.Library.BigEndian
import Ptarmigan.Library.Run

namespace Ptarmigan

open TransitionSystem

/-! ### One packet -/

section Packet

variable (crypto : NoiseCrypto)

/-- One direction after a message more: both of its nonces are used. -/
def Noise.afterMessage (noise : Noise) : Noise :=
  { noise with nonce := noise.nonce + 1 }.rotate crypto

/-- The state of a direction between two messages. -/
def Noise.Aligned (noise : Noise) : Prop :=
  noise.nonce % 2 = 0 ∧ noise.nonce < 1000

/-- The header of a packet. -/
def packetHeader (noise : Noise) (msg : Bytes) : Bytes :=
  crypto.encrypt noise.key noise.nonce [] (lengthBytes msg.length.toUInt32)

/-- What follows the header. -/
def packetBody (noise : Noise) (msg : Bytes) : Bytes :=
  crypto.encrypt noise.key (noise.nonce + 1) [] msg

variable {crypto} {noise : Noise} {msg : Bytes}

theorem Noise.Aligned.succ_ne (haligned : noise.Aligned) : noise.nonce + 1 ≠ 1000 := by
  have hparity := haligned.1
  omega

theorem Noise.Aligned.afterMessage (haligned : noise.Aligned) :
    (noise.afterMessage crypto).Aligned := by
  obtain ⟨hparity, hbound⟩ := haligned
  rw [Noise.afterMessage, Noise.rotate]
  split
  · exact ⟨rfl, Nat.zero_lt_succ _⟩
  · constructor
    · dsimp only
      omega
    · dsimp only at *
      omega

theorem Noise.Aligned.iterate (haligned : noise.Aligned) (count : Nat) :
    ((Noise.afterMessage crypto)^[count] noise).Aligned := by
  induction count with
  | zero => exact haligned
  | succ count ih =>
      rw [Function.iterate_succ_apply']
      exact ih.afterMessage

/-- Between messages a packet is always made. -/
theorem lnEncAuthEnc_aligned (haligned : noise.Aligned) :
    lnEncAuthEnc crypto noise msg =
      (noise.afterMessage crypto,
       some (packetHeader crypto noise msg ++ packetBody crypto noise msg)) := by
  rw [lnEncAuthEnc]
  exact if_neg haligned.succ_ne

theorem length_packetHeader : (packetHeader crypto noise msg).length = lnSzNoiseHeader :=
  crypto.length_encrypt _ _ _ _

theorem length_packetBody :
    (packetBody crypto noise msg).length = msg.length + chachapolyMac :=
  crypto.length_encrypt _ _ _ _

/-- The length of up to 16 bits is read back from its bytes. -/
theorem length_of_lengthBytes {len : UInt32} (hlen : len.toNat < 65536) :
    ((((lengthBytes len).getD 0 0).toUInt16 <<< 8) ||| ((lengthBytes len).getD 1 0).toUInt16) =
      len.toUInt16 := by
  apply UInt16.toNat_inj.mp
  apply Nat.eq_of_testBit_eq
  intro pos
  have hfits : len.toNat.testBit (8 + (8 + pos)) = false := by
    apply Nat.testBit_lt_two_pow
    calc len.toNat < 2 ^ 16 := hlen
      _ ≤ 2 ^ (8 + (8 + pos)) := Nat.pow_le_pow_right (by decide) (by omega)
  simp only [lengthBytes, List.getD_cons_zero, List.getD_cons_succ, UInt16.toNat_or,
    UInt16.toNat_shiftLeft, UInt16.toNat_shiftRight, UInt8.toNat_toUInt16, UInt16.toNat_toUInt8,
    UInt32.toNat_toUInt16, UInt32.toNat_or, UInt32.toNat_shiftLeft, UInt32.toNat_shiftRight,
    UInt16.reduceToNat, UInt32.reduceToNat, Nat.reduceMod, Nat.testBit_or,
    Nat.testBit_mod_two_pow, Nat.testBit_shiftLeft, Nat.testBit_shiftRight]
  -- the byte that the position is in
  rcases Nat.lt_or_ge pos 8 with hlow | hlow
  · simp [hlow, hfits, show ¬ 8 ≤ pos by omega, show pos < 16 by omega,
      show 8 + pos < 16 by omega, show 8 + pos < 32 by omega]
  · by_cases hhigh : pos < 16
    · simp [hlow, hhigh, show ¬ pos < 8 by omega, show pos - 8 < 8 by omega,
        show pos - 8 < 16 by omega]
    · simp [hhigh, show ¬ pos < 8 by omega]

/-- The decryption of a ciphertext with the values that it was made with. -/
def DecryptsEncrypted (crypto : NoiseCrypto) : Prop :=
  ∀ key nonce ad plain,
    crypto.decrypt key nonce ad (crypto.encrypt key nonce ad plain) = some plain

/-- The header of a packet gives the length that follows it, within 16 bits. -/
theorem lnEncAuthDecLen_header (hcorrect : DecryptsEncrypted crypto) (haligned : noise.Aligned)
    (hlength : msg.length < 65536) :
    lnEncAuthDecLen crypto noise (packetHeader crypto noise msg) =
      ({ noise with nonce := noise.nonce + 1 },
        msg.length.toUInt32.toUInt16 + chachapolyMac.toUInt16) := by
  have hfits : msg.length.toUInt32.toNat < 65536 := by
    rw [Nat.toUInt32, UInt32.toNat_ofNat', Nat.mod_eq_of_lt (by omega)]
    exact hlength
  rw [lnEncAuthDecLen, if_neg (by rw [length_packetHeader]; simp), packetHeader, hcorrect]
  dsimp only
  rw [if_neg haligned.succ_ne, length_of_lengthBytes hfits]

theorem toNat_packetLength (hshort : msg.length < 65520) :
    (msg.length.toUInt32.toUInt16 + chachapolyMac.toUInt16).toNat = msg.length + chachapolyMac := by
  have hlength : msg.length.toUInt32.toUInt16.toNat = msg.length := by
    rw [UInt32.toNat_toUInt16, Nat.toUInt32, UInt32.toNat_ofNat', Nat.mod_eq_of_lt (by omega),
      Nat.mod_eq_of_lt (by omega)]
  rw [UInt16.toNat_add, hlength]
  exact Nat.mod_eq_of_lt (by rw [chachapolyMac]; exact Nat.add_lt_of_lt_sub hshort)

theorem lnEncAuthDecMsg_body (hcorrect : DecryptsEncrypted crypto) :
    lnEncAuthDecMsg crypto { noise with nonce := noise.nonce + 1 } (packetBody crypto noise msg) =
      (noise.afterMessage crypto, .plain msg) := by
  rw [lnEncAuthDecMsg, if_neg (by rw [length_packetBody]; omega), packetBody, hcorrect]
  rfl

end Packet

/-! ### The connection -/

/-- The ends of the connection. -/
inductive Side
  | initiator
  | responder
deriving DecidableEq, Repr

def Side.peer : Side → Side
  | .initiator => .responder
  | .responder => .initiator

@[simp] theorem Side.peer_peer (side : Side) : side.peer.peer = side := by
  cases side <;> rfl

theorem Side.peer_ne (side : Side) : side.peer ≠ side := by
  cases side <;> decide

theorem Side.eq_peer_of_ne {side other : Side} (hne : other ≠ side) : other = side.peer := by
  cases side <;> cases other <;> simp_all [Side.peer]

/-- One end: its `ln_self_t`, and the loop of `thread_recv_start`: the length that it
waits for once it has a header, and whether it has stopped. -/
structure NoiseParty where
  self : NoiseSelf
  waits : Option UInt16
  stopped : Bool
deriving DecidableEq, Repr

/-- Both ends, the bytes on their way to each, the messages that each was told to send,
and the messages that each has read. -/
structure NoiseLink where
  party : Side → NoiseParty
  toward : Side → Bytes
  sent : Side → List Bytes
  received : Side → List Bytes

inductive NoiseEvent
  /-- `send_peer_noise`. -/
  | send (side : Side) (msg : Bytes)
  /-- The loop of `thread_recv_start` reads what it waits for. -/
  | read (side : Side)
deriving DecidableEq, Repr

section Link

variable (crypto : NoiseCrypto)

/-- `send_peer_noise`: a packet goes out if `ln_enc_auth_enc` makes one. -/
def NoiseLink.send (link : NoiseLink) (side : Side) (msg : Bytes) : NoiseLink :=
  let party := link.party side
  let made := lnEncAuthEnc crypto party.self.noiseSend msg
  { link with
    party := Function.update link.party side
      { party with self := { party.self with noiseSend := made.1 } }
    toward := Function.update link.toward side.peer (link.toward side.peer ++ made.2.getD [])
    sent := Function.update link.sent side (link.sent side ++ [msg]) }

/-- The bytes that the loop of a side takes next; they must have come. -/
def NoiseLink.wanted (link : NoiseLink) (side : Side) : Nat :=
  match (link.party side).waits with
  | none => lnSzNoiseHeader
  | some len => len.toNat

/-- One turn of the loop of `thread_recv_start`: a header, or what follows it.  A length
of 0 makes it read nothing, and stop. -/
def NoiseLink.read (link : NoiseLink) (side : Side) : NoiseLink :=
  let party := link.party side
  let taken := (link.toward side).take (link.wanted side)
  let toward := Function.update link.toward side ((link.toward side).drop (link.wanted side))
  let become := fun (noise : Noise) (waits : Option UInt16) (stopped : Bool) =>
    Function.update link.party side
      ⟨{ party.self with noiseRecv := noise }, waits, stopped⟩
  match party.waits with
  | none =>
      let done := lnEncAuthDecLen crypto party.self.noiseRecv taken
      if done.2 = 0 then { link with toward := toward, party := become done.1 none true }
      else { link with toward := toward, party := become done.1 (some done.2) false }
  | some _ =>
      match lnEncAuthDecMsg crypto party.self.noiseRecv taken with
      | (noise, .plain msg) =>
          { link with
            toward := toward
            party := become noise none false
            received := Function.update link.received side (link.received side ++ [msg]) }
      | (noise, _) => { link with toward := toward, party := become noise none true }

def NoiseLink.next (link : NoiseLink) : NoiseEvent → Option NoiseLink
  | .send side msg => some (link.send crypto side msg)
  | .read side =>
      if (link.party side).stopped ∨ (link.toward side).length < link.wanted side then none
      else some (link.read crypto side)

/-- The handshake is done, and nothing was sent yet: what a side sends with is what the
other one receives with. -/
structure NoiseLink.Completed (link : NoiseLink) : Prop where
  keys : ∀ side, (link.party side).self.noiseSend = (link.party side.peer).self.noiseRecv
  nonce : ∀ side, (link.party side).self.noiseSend.nonce = 0
  loop : ∀ side, (link.party side).waits = none ∧ (link.party side).stopped = false
  empty : ∀ side, link.toward side = [] ∧ link.sent side = [] ∧ link.received side = []

/-- Messages in both directions, in any order, after any handshake. -/
def noiseSystem : System NoiseLink NoiseEvent where
  start := NoiseLink.Completed
  next := NoiseLink.next crypto

end Link

/-! ### One direction -/

/-- What the messages of one side pass through. -/
structure Direction where
  noiseSend : Noise
  noiseRecv : Noise
  waits : Option UInt16
  stopped : Bool
  bytes : Bytes
  sent : List Bytes
  received : List Bytes
deriving DecidableEq, Repr

def NoiseLink.direction (link : NoiseLink) (side : Side) : Direction where
  noiseSend := (link.party side).self.noiseSend
  noiseRecv := (link.party side.peer).self.noiseRecv
  waits := (link.party side.peer).waits
  stopped := (link.party side.peer).stopped
  bytes := link.toward side.peer
  sent := link.sent side
  received := link.received side.peer

section Direction

variable {crypto : NoiseCrypto} {link : NoiseLink} {side : Side}

theorem direction_send (msg : Bytes) :
    (link.send crypto side msg).direction side =
      { link.direction side with
        noiseSend := (lnEncAuthEnc crypto (link.direction side).noiseSend msg).1
        bytes := (link.direction side).bytes ++
          (lnEncAuthEnc crypto (link.direction side).noiseSend msg).2.getD []
        sent := (link.direction side).sent ++ [msg] } := by
  simp [NoiseLink.direction, NoiseLink.send, Side.peer_ne]

theorem direction_send_peer (msg : Bytes) :
    (link.send crypto side msg).direction side.peer = link.direction side.peer := by
  simp [NoiseLink.direction, NoiseLink.send, Side.peer_ne, (Side.peer_ne side).symm]

theorem direction_read_peer :
    (link.read crypto side).direction side = link.direction side := by
  simp only [NoiseLink.direction, NoiseLink.read]
  split
  · split_ifs <;> simp [Side.peer_ne]
  · split <;> simp [Side.peer_ne]

/-- The loop of the receiver reads a header. -/
theorem direction_read_header {noise : Noise} {len : UInt16}
    (hwaits : (link.direction side).waits = none)
    (hread : lnEncAuthDecLen crypto (link.direction side).noiseRecv
      ((link.direction side).bytes.take lnSzNoiseHeader) = (noise, len)) (hlen : len ≠ 0) :
    (link.read crypto side.peer).direction side =
      { link.direction side with
        noiseRecv := noise
        waits := some len
        stopped := false
        bytes := (link.direction side).bytes.drop lnSzNoiseHeader } := by
  simp only [NoiseLink.direction] at hwaits hread ⊢
  simp [NoiseLink.read, NoiseLink.wanted, hwaits, hread, hlen, (Side.peer_ne side).symm]

/-- The loop of the receiver reads what follows a header. -/
theorem direction_read_body {noise : Noise} {len : UInt16} {msg : Bytes}
    (hwaits : (link.direction side).waits = some len)
    (hread : lnEncAuthDecMsg crypto (link.direction side).noiseRecv
      ((link.direction side).bytes.take len.toNat) = (noise, .plain msg)) :
    (link.read crypto side.peer).direction side =
      { link.direction side with
        noiseRecv := noise
        waits := none
        stopped := false
        bytes := (link.direction side).bytes.drop len.toNat
        received := (link.direction side).received ++ [msg] } := by
  simp only [NoiseLink.direction] at hwaits hread ⊢
  simp [NoiseLink.read, NoiseLink.wanted, hwaits, hread, (Side.peer_ne side).symm]

end Direction

/-! ### Messages on their way -/

/-- The packets of messages one after the other. -/
def packets (crypto : NoiseCrypto) : Noise → List Bytes → Bytes
  | _, [] => []
  | noise, msg :: rest =>
      packetHeader crypto noise msg ++ packetBody crypto noise msg ++
        packets crypto (noise.afterMessage crypto) rest

/-- What the receiver has, when it has come to the given state between messages and the
given messages are still on their way. -/
inductive Awaits (crypto : NoiseCrypto) (noise : Noise) :
    List Bytes → Noise → Option UInt16 → Bytes → Prop
  | header (flight : List Bytes) :
      Awaits crypto noise flight noise none (packets crypto noise flight)
  | body {msg : Bytes} {rest : List Bytes} {len : UInt16}
      (hlen : len.toNat = msg.length + chachapolyMac) :
      Awaits crypto noise (msg :: rest) { noise with nonce := noise.nonce + 1 } (some len)
        (packetBody crypto noise msg ++ packets crypto (noise.afterMessage crypto) rest)

/-- From a common start, each end has used its key for the messages that it has sent or
read, and what is left on the way are the packets of the others. -/
structure Direction.Carries (crypto : NoiseCrypto) (start : Noise) (dir : Direction)
    (flight : List Bytes) : Prop where
  sent : dir.sent = dir.received ++ flight
  short : ∀ msg ∈ flight, msg.length < 65520
  running : dir.stopped = false
  noiseSend : dir.noiseSend = (Noise.afterMessage crypto)^[dir.sent.length] start
  awaits : Awaits crypto ((Noise.afterMessage crypto)^[dir.received.length] start) flight
    dir.noiseRecv dir.waits dir.bytes

section Carries

variable {crypto : NoiseCrypto} {start noise : Noise} {dir : Direction} {flight : List Bytes}

theorem packets_snoc (noise : Noise) (flight : List Bytes) (msg : Bytes) :
    packets crypto noise (flight ++ [msg]) =
      packets crypto noise flight ++
        (packetHeader crypto ((Noise.afterMessage crypto)^[flight.length] noise) msg ++
          packetBody crypto ((Noise.afterMessage crypto)^[flight.length] noise) msg) := by
  induction flight generalizing noise with
  | nil => simp [packets]
  | cons first rest ih =>
      rw [List.cons_append, packets, ih, packets, List.append_assoc _ (packets _ _ rest),
        List.length_cons, Function.iterate_succ_apply]

theorem Awaits.snoc {recv : Noise} {waits : Option UInt16} {bytes : Bytes}
    (hawaits : Awaits crypto noise flight recv waits bytes) (msg : Bytes) :
    Awaits crypto noise (flight ++ [msg]) recv waits
      (bytes ++ (packetHeader crypto ((Noise.afterMessage crypto)^[flight.length] noise) msg ++
        packetBody crypto ((Noise.afterMessage crypto)^[flight.length] noise) msg)) := by
  cases hawaits with
  | header flight =>
      rw [← packets_snoc]
      exact .header _
  | @body first rest len hlen =>
      rw [List.append_assoc, List.length_cons, Function.iterate_succ_apply, ← packets_snoc]
      exact .body hlen

theorem carries_send (haligned : start.Aligned) (hcarries : dir.Carries crypto start flight)
    {msg : Bytes} (hshort : msg.length < 65520) :
    Direction.Carries crypto start
      { dir with
        noiseSend := (lnEncAuthEnc crypto dir.noiseSend msg).1
        bytes := dir.bytes ++ (lnEncAuthEnc crypto dir.noiseSend msg).2.getD []
        sent := dir.sent ++ [msg] } (flight ++ [msg]) := by
  have hnoise := hcarries.noiseSend
  have hlast : dir.noiseSend = (Noise.afterMessage crypto)^[flight.length]
      ((Noise.afterMessage crypto)^[dir.received.length] start) := by
    rw [hnoise, hcarries.sent, List.length_append, Nat.add_comm, Function.iterate_add_apply]
  have hmade := @lnEncAuthEnc_aligned crypto _ msg
    (hnoise ▸ haligned.iterate dir.sent.length)
  rw [hmade]
  refine ⟨?_, ?_, hcarries.running, ?_, ?_⟩
  · rw [hcarries.sent, List.append_assoc]
  · intro other hother
    rcases List.mem_append.mp hother with hbefore | hnew
    · exact hcarries.short other hbefore
    · rw [List.mem_singleton.mp hnew]
      exact hshort
  · rw [List.length_append, List.length_singleton, Function.iterate_succ_apply', ← hnoise]
  · have hawaits := hcarries.awaits.snoc msg
    rw [← hlast] at hawaits
    exact hawaits

end Carries

section Read

variable {crypto : NoiseCrypto} {start : Noise} {link : NoiseLink} {side : Side}
  {flight : List Bytes}

theorem next_read (hrunning : (link.direction side).stopped = false)
    (hcome : link.wanted side.peer ≤ (link.direction side).bytes.length) :
    link.next crypto (.read side.peer) = some (link.read crypto side.peer) := by
  have hstopped : (link.party side.peer).stopped = false := hrunning
  have hbytes : link.wanted side.peer ≤ (link.toward side.peer).length := hcome
  rw [NoiseLink.next, if_neg]
  rw [hstopped]
  simpa using hbytes

theorem wanted_eq (link : NoiseLink) (side : Side) : link.wanted side.peer =
    match (link.direction side).waits with
    | none => lnSzNoiseHeader
    | some len => len.toNat :=
  rfl

/-- With a message on its way, the receiver reads the header. -/
theorem carries_readHeader (hcorrect : DecryptsEncrypted crypto) (haligned : start.Aligned)
    {msg : Bytes} {rest : List Bytes}
    (hcarries : (link.direction side).Carries crypto start (msg :: rest))
    (hwaits : (link.direction side).waits = none) :
    link.next crypto (.read side.peer) = some (link.read crypto side.peer) ∧
      ((link.read crypto side.peer).direction side).Carries crypto start (msg :: rest) ∧
      ((link.read crypto side.peer).direction side).waits ≠ none := by
  have hawaits := hcarries.awaits
  have hshort := hcarries.short msg (List.mem_cons_self ..)
  have hnow := @Noise.Aligned.iterate crypto _ haligned (link.direction side).received.length
  generalize hnoise : (Noise.afterMessage crypto)^[(link.direction side).received.length] start =
    noise at hawaits hnow
  generalize hrecv : (link.direction side).noiseRecv = recv at hawaits
  generalize hbytes : (link.direction side).bytes = bytes at hawaits
  rw [hwaits] at hawaits
  cases hawaits
  rw [packets, List.append_assoc] at hbytes
  have htake : (link.direction side).bytes.take lnSzNoiseHeader =
      packetHeader crypto noise msg := by
    rw [hbytes, List.take_left' length_packetHeader]
  have hread := @lnEncAuthDecLen_header crypto _ msg hcorrect hnow
    (hshort.trans (by decide))
  have hlen := toNat_packetLength hshort
  rw [← htake, ← hrecv] at hread
  have hpositive : msg.length.toUInt32.toUInt16 + chachapolyMac.toUInt16 ≠ 0 := by
    intro hzero
    rw [hzero, chachapolyMac] at hlen
    exact absurd hlen (by simp)
  refine ⟨next_read hcarries.running ?_, ?_, ?_⟩
  · rw [wanted_eq, hwaits, hbytes, List.length_append, length_packetHeader]
    exact Nat.le_add_right _ _
  · rw [direction_read_header hwaits hread hpositive, hbytes,
      List.drop_left' length_packetHeader, hrecv]
    refine ⟨hcarries.sent, hcarries.short, rfl, hcarries.noiseSend, ?_⟩
    rw [← hnoise]
    exact .body hlen
  · rw [direction_read_header hwaits hread hpositive]
    simp

/-- Once it has the header, the receiver reads the message. -/
theorem carries_readBody (hcorrect : DecryptsEncrypted crypto)
    (hcarries : (link.direction side).Carries crypto start flight)
    (hwaits : (link.direction side).waits ≠ none) :
    ∃ msg rest, flight = msg :: rest ∧
      link.next crypto (.read side.peer) = some (link.read crypto side.peer) ∧
      ((link.read crypto side.peer).direction side).Carries crypto start rest ∧
      ((link.read crypto side.peer).direction side).waits = none := by
  have hawaits := hcarries.awaits
  generalize hnoise : (Noise.afterMessage crypto)^[(link.direction side).received.length] start =
    noise at hawaits
  generalize hrecv : (link.direction side).noiseRecv = recv at hawaits
  generalize hbytes : (link.direction side).bytes = bytes at hawaits
  generalize hwait : (link.direction side).waits = waits at hawaits
  cases hawaits with
  | header => exact absurd hwait hwaits
  | @body msg rest len hlen =>
      have hbody : (packetBody crypto noise msg).length = len.toNat :=
        length_packetBody.trans hlen.symm
      have htake : (link.direction side).bytes.take len.toNat = packetBody crypto noise msg := by
        rw [hbytes, List.take_left' hbody]
      have hread := @lnEncAuthDecMsg_body crypto noise msg hcorrect
      rw [← htake, ← hrecv] at hread
      refine ⟨msg, rest, rfl, next_read hcarries.running ?_, ?_, ?_⟩
      · rw [wanted_eq, hwait, hbytes, List.length_append, hbody]
        exact Nat.le_add_right _ _
      · rw [direction_read_body hwait hread, hbytes, List.drop_left' hbody]
        refine ⟨?_, fun other hother => hcarries.short other (List.mem_cons_of_mem _ hother), rfl,
          hcarries.noiseSend, ?_⟩
        · rw [hcarries.sent, List.append_assoc, List.singleton_append]
        · rw [List.length_append, List.length_singleton, Function.iterate_succ_apply', hnoise]
          exact .header rest
      · rw [direction_read_body hwait hread]

/-- The receiver reads nothing that was not sent. -/
theorem carries_next_read (hcorrect : DecryptsEncrypted crypto) (haligned : start.Aligned)
    (hcarries : (link.direction side).Carries crypto start flight) {after : NoiseLink}
    (hnext : link.next crypto (.read side.peer) = some after) :
    ∃ left, (after.direction side).Carries crypto start left := by
  by_cases hwaits : (link.direction side).waits = none
  · cases flight with
    | nil =>
        -- nothing has come
        have hawaits := hcarries.awaits
        rw [hwaits] at hawaits
        have hbytes : (link.direction side).bytes = [] := by
          generalize (link.direction side).bytes = bytes at hawaits ⊢
          generalize (link.direction side).noiseRecv = recv at hawaits
          generalize (Noise.afterMessage crypto)^[_] start = noise at hawaits
          cases hawaits
          rfl
        have hwanted : (link.toward side.peer).length < link.wanted side.peer := by
          have htoward : link.toward side.peer = [] := hbytes
          rw [wanted_eq, hwaits, htoward]
          decide
        rw [NoiseLink.next, if_pos (.inr hwanted)] at hnext
        cases hnext
    | cons msg rest =>
        obtain ⟨hread, hafter, -⟩ := carries_readHeader hcorrect haligned hcarries hwaits
        obtain rfl := Option.some.inj (hread.symm.trans hnext)
        exact ⟨_, hafter⟩
  · obtain ⟨msg, rest, -, hread, hafter, -⟩ := carries_readBody hcorrect hcarries hwaits
    obtain rfl := Option.some.inj (hread.symm.trans hnext)
    exact ⟨_, hafter⟩

end Read

/-! ### Every run -/

/-- Every message is shorter than 65520 bytes. -/
def ShortMessages (_ : NoiseLink) : NoiseEvent → Prop
  | .send _ msg => msg.length < 65520
  | .read _ => True

/-- Nothing happens but that a side reads. -/
def OnlyReads (side : Side) (_ : NoiseLink) (event : NoiseEvent) : Prop :=
  event = .read side

/-- What one side sends and the other one reads are in step: the reader never stops, it
has read the messages in their order and unchanged, the sender is ahead of it by the
messages on their way, with equal keys, nonces and chaining keys once there are none, and
all of them can be read to the end. -/
structure NoiseLink.Lockstep (crypto : NoiseCrypto) (link : NoiseLink) (side : Side) : Prop where
  running : (link.party side.peer).stopped = false
  delivered : link.received side.peer <+: link.sent side
  ahead : (link.party side.peer).waits = none →
    (link.party side).self.noiseSend =
      (Noise.afterMessage crypto)^[(link.sent side).length - (link.received side.peer).length]
        (link.party side.peer).self.noiseRecv
  drained : (link.party side.peer).waits = none → link.toward side.peer = [] →
    link.received side.peer = link.sent side ∧
      (link.party side).self.noiseSend = (link.party side.peer).self.noiseRecv
  arrives : ∃ later,
    (noiseSystem crypto).RunUnder (OnlyReads side.peer) link later ∧
      later.received side.peer = link.sent side

section Runs

variable {crypto : NoiseCrypto} {link : NoiseLink} {side : Side}

theorem sent_read (reader : Side) : (link.read crypto reader).sent = link.sent := by
  rw [NoiseLink.read]
  dsimp only
  split
  · split <;> rfl
  · split <;> rfl

theorem reads_once {after : NoiseLink} (hread : link.next crypto (.read side) = some after) :
    (noiseSystem crypto).RunUnder (OnlyReads side) link after := by
  have honly : OnlyReads side link (.read side) := rfl
  exact System.RunUnder.single honly hread

/-- Reading brings all messages on their way to the receiver. -/
theorem arrives_of_carries (hcorrect : DecryptsEncrypted crypto) {start : Noise}
    (haligned : start.Aligned) {flight : List Bytes}
    (hcarries : (link.direction side).Carries crypto start flight) :
    ∃ later,
      (noiseSystem crypto).RunUnder (OnlyReads side.peer) link later ∧
        later.received side.peer = link.sent side := by
  induction flight generalizing link with
  | nil =>
      refine ⟨link, .refl, ?_⟩
      have hsent := hcarries.sent
      rw [List.append_nil] at hsent
      exact hsent.symm
  | cons msg rest ih =>
      have hbody : ∀ link : NoiseLink,
          (link.direction side).Carries crypto start (msg :: rest) →
          (link.direction side).waits ≠ none → ∃ later,
            (noiseSystem crypto).RunUnder (OnlyReads side.peer) link later ∧
              later.received side.peer = link.sent side := by
        intro link hcarries hwaits
        obtain ⟨_, _, hflight, hread, hafter, -⟩ := carries_readBody hcorrect hcarries hwaits
        obtain ⟨-, rfl⟩ := List.cons.inj hflight
        obtain ⟨later, hrun, hreceived⟩ := ih hafter
        rw [sent_read] at hreceived
        exact ⟨later, (reads_once hread).trans hrun, hreceived⟩
      by_cases hwaits : (link.direction side).waits = none
      · obtain ⟨hread, hafter, hwaiting⟩ := carries_readHeader hcorrect haligned hcarries hwaits
        obtain ⟨later, hrun, hreceived⟩ := hbody _ hafter hwaiting
        rw [sent_read] at hreceived
        exact ⟨later, (reads_once hread).trans hrun, hreceived⟩
      · exact hbody link hcarries hwaits

/-- Each direction carries its messages, from the state that both ends started with. -/
theorem carries_of_reachable (hcorrect : DecryptsEncrypted crypto)
    (hreach : (noiseSystem crypto).ReachableUnder ShortMessages link) :
    ∀ side, ∃ start flight, start.Aligned ∧
      (link.direction side).Carries crypto start flight := by
  refine hreach.invariant (fun link => ∀ side, ∃ start flight, start.Aligned ∧
      (link.direction side).Carries crypto start flight) ?_ ?_
  · intro link hcompleted side
    obtain ⟨htoward, -, hreceived⟩ := hcompleted.empty side.peer
    obtain ⟨-, hsent, -⟩ := hcompleted.empty side
    obtain ⟨hwaits, hstopped⟩ := hcompleted.loop side.peer
    refine ⟨(link.party side).self.noiseSend, [], ?_, ?_⟩
    · rw [Noise.Aligned, hcompleted.nonce]
      decide
    · refine ⟨?_, by simp, hstopped, ?_, ?_⟩
      · simp [NoiseLink.direction, hsent, hreceived]
      · simp [NoiseLink.direction, hsent]
      · simp only [NoiseLink.direction, hreceived, hwaits, htoward, List.length_nil,
          Function.iterate_zero, id_eq, hcompleted.keys side]
        exact .header []
  · intro before event after hbefore hallowed hnext side
    obtain ⟨start, flight, haligned, hcarries⟩ := hbefore side
    cases event with
    | send sender msg =>
        obtain rfl := Option.some.inj hnext
        by_cases hsender : sender = side
        · subst hsender
          refine ⟨start, flight ++ [msg], haligned, ?_⟩
          rw [direction_send]
          exact carries_send haligned hcarries hallowed
        · obtain rfl := Side.eq_peer_of_ne (Ne.symm hsender)
          refine ⟨start, flight, haligned, ?_⟩
          rw [direction_send_peer]
          exact hcarries
    | read reader =>
        by_cases hreader : reader = side
        · subst hreader
          simp only [noiseSystem, NoiseLink.next] at hnext
          split at hnext
          · cases hnext
          · obtain rfl := Option.some.inj hnext
            refine ⟨start, flight, haligned, ?_⟩
            rw [direction_read_peer]
            exact hcarries
        · obtain rfl := Side.eq_peer_of_ne hreader
          obtain ⟨left, hafter⟩ := carries_next_read hcorrect haligned hcarries hnext
          exact ⟨start, left, haligned, hafter⟩

theorem lockstep_of_carries (hcorrect : DecryptsEncrypted crypto) {start : Noise}
    (haligned : start.Aligned) {flight : List Bytes}
    (hcarries : (link.direction side).Carries crypto start flight) :
    link.Lockstep crypto side := by
  have hsent : link.sent side = link.received side.peer ++ flight := hcarries.sent
  have hsend : (link.party side).self.noiseSend =
      (Noise.afterMessage crypto)^[(link.sent side).length] start := hcarries.noiseSend
  -- between two messages the receiver is where its own count says
  have hbetween : (link.party side.peer).waits = none →
      (link.party side.peer).self.noiseRecv =
          (Noise.afterMessage crypto)^[(link.received side.peer).length] start ∧
        link.toward side.peer = packets crypto (link.party side.peer).self.noiseRecv flight := by
    intro hwaits
    have hawaits := hcarries.awaits
    simp only [NoiseLink.direction, hwaits] at hawaits
    generalize link.toward side.peer = bytes at hawaits ⊢
    generalize (link.party side.peer).self.noiseRecv = recv at hawaits ⊢
    generalize (Noise.afterMessage crypto)^[_] start = noise at hawaits ⊢
    cases hawaits
    exact ⟨rfl, rfl⟩
  have hahead : (link.party side.peer).waits = none →
      (link.party side).self.noiseSend = (Noise.afterMessage crypto)^[flight.length]
        (link.party side.peer).self.noiseRecv := by
    intro hwaits
    rw [hsend, (hbetween hwaits).1, hsent, List.length_append, Nat.add_comm,
      Function.iterate_add_apply]
  refine ⟨hcarries.running, ⟨flight, hsent.symm⟩, ?_, ?_,
    arrives_of_carries hcorrect haligned hcarries⟩
  · intro hwaits
    rw [hahead hwaits, hsent, List.length_append, Nat.add_sub_cancel_left]
  · intro hwaits hempty
    have hflight : flight = [] := by
      have hbytes := (hbetween hwaits).2
      rw [hempty] at hbytes
      cases flight with
      | nil => rfl
      | cons msg rest =>
          have hlength := congrArg List.length hbytes
          rw [packets, List.length_append, List.length_append, length_packetHeader,
            lnSzNoiseHeader, List.length_nil] at hlength
          omega
    subst hflight
    exact ⟨by rw [hsent, List.append_nil], hahead hwaits⟩

/-- In every run, both directions stay in step as long as every message is shorter than
65520 bytes. -/
theorem transport_lockstep (crypto : NoiseCrypto) (hcorrect : DecryptsEncrypted crypto)
    (link : NoiseLink) (hreach : (noiseSystem crypto).ReachableUnder ShortMessages link) :
    ∀ side, link.Lockstep crypto side := by
  intro side
  obtain ⟨start, flight, haligned, hcarries⟩ := carries_of_reachable hcorrect hreach side
  exact lockstep_of_carries hcorrect haligned hcarries

/-! ### Messages that are sent and read -/

theorem noiseSend_read (reader : Side) :
    ((link.read crypto reader).direction side).noiseSend = (link.direction side).noiseSend := by
  simp only [NoiseLink.direction, NoiseLink.read]
  by_cases hreader : side = reader
  · subst hreader
    split
    · split_ifs <;> simp
    · split <;> simp
  · split
    · split_ifs <;> simp [hreader]
    · split <;> simp [hreader]

/-- A side sends messages one after the other. -/
theorem exists_sent (haligned : (link.direction side).noiseSend.Aligned)
    (hreach : (noiseSystem crypto).ReachableUnder ShortMessages link) {msgs : List Bytes}
    (hshort : ∀ msg ∈ msgs, msg.length < 65520) :
    ∃ after, (noiseSystem crypto).ReachableUnder ShortMessages after ∧
      (after.direction side).sent = (link.direction side).sent ++ msgs ∧
      (after.direction side).noiseSend =
        (Noise.afterMessage crypto)^[msgs.length] (link.direction side).noiseSend ∧
      after.direction side.peer = link.direction side.peer := by
  induction msgs generalizing link with
  | nil => exact ⟨link, hreach, (List.append_nil _).symm, rfl, rfl⟩
  | cons msg rest ih =>
      have hdirection := @direction_send crypto link side msg
      rw [lnEncAuthEnc_aligned haligned] at hdirection
      have hnoise : ((link.send crypto side msg).direction side).noiseSend =
          (link.direction side).noiseSend.afterMessage crypto := by
        rw [hdirection]
      have hallowed : ShortMessages link (.send side msg) := hshort msg List.mem_cons_self
      have hnext : (noiseSystem crypto).next link (.send side msg) =
          some (link.send crypto side msg) := rfl
      obtain ⟨after, hafter, hsent, hlast, hpeer⟩ := ih (hnoise ▸ haligned.afterMessage)
        (hreach.step hallowed hnext)
        (fun other hmem => hshort other (List.mem_cons_of_mem _ hmem))
      refine ⟨after, hafter, ?_, ?_, ?_⟩
      · rw [hsent, hdirection, List.append_assoc, List.singleton_append]
      · rw [hlast, hnoise, List.length_cons, Function.iterate_succ_apply]
      · rw [hpeer, direction_send_peer]

/-- While one side reads, nothing is sent, and what it sends itself is as it was. -/
theorem reads_keep {later : NoiseLink}
    (hrun : (noiseSystem crypto).RunUnder (OnlyReads side.peer) link later) :
    later.sent = link.sent ∧ (later.direction side).noiseSend = (link.direction side).noiseSend ∧
      later.direction side.peer = link.direction side.peer := by
  refine hrun.preserves (fun later => later.sent = link.sent ∧
    (later.direction side).noiseSend = (link.direction side).noiseSend ∧
      later.direction side.peer = link.direction side.peer) ?_ ⟨rfl, rfl, rfl⟩
  rintro before event after ⟨hsent, hnoise, hpeer⟩ rfl hnext
  simp only [noiseSystem, NoiseLink.next] at hnext
  split at hnext
  · cases hnext
  · obtain rfl := Option.some.inj hnext
    rw [sent_read, noiseSend_read, direction_read_peer]
    exact ⟨hsent, hnoise, hpeer⟩

/-- A side sends messages and the other one reads them all. -/
theorem exists_delivered (hcorrect : DecryptsEncrypted crypto)
    (haligned : (link.direction side).noiseSend.Aligned)
    (hreach : (noiseSystem crypto).ReachableUnder ShortMessages link) {msgs : List Bytes}
    (hshort : ∀ msg ∈ msgs, msg.length < 65520) :
    ∃ after, (noiseSystem crypto).ReachableUnder ShortMessages after ∧
      after.received side.peer = link.sent side ++ msgs ∧
      (after.direction side).noiseSend =
        (Noise.afterMessage crypto)^[msgs.length] (link.direction side).noiseSend ∧
      after.direction side.peer = link.direction side.peer := by
  obtain ⟨made, hmade, hsent, hnoise, hpeer⟩ := exists_sent haligned hreach hshort
  obtain ⟨start, flight, hstart, hcarries⟩ := carries_of_reachable hcorrect hmade side
  obtain ⟨later, hrun, hreceived⟩ := arrives_of_carries hcorrect hstart hcarries
  obtain ⟨-, hsame, hkept⟩ := reads_keep hrun
  have hreads : (noiseSystem crypto).RunUnder ShortMessages made later := by
    refine hrun.mono fun link event honly => ?_
    rw [honly]
    trivial
  obtain ⟨source, hsource, hbefore⟩ := hmade
  exact ⟨later, ⟨source, hsource, hbefore.trans hreads⟩, hreceived.trans hsent,
    hsame.trans hnoise, hkept.trans hpeer⟩

/-! ### A message that is too long -/

/-- Where the length of a header wraps to 0, the reader stops. -/
theorem stopped_of_wrapped {noise : Noise}
    (hwaits : (link.direction side).waits = none)
    (hread : lnEncAuthDecLen crypto (link.direction side).noiseRecv
      ((link.direction side).bytes.take lnSzNoiseHeader) = (noise, 0)) :
    ((link.read crypto side.peer).direction side).stopped = true := by
  simp only [NoiseLink.direction] at hwaits hread ⊢
  simp [NoiseLink.read, NoiseLink.wanted, hwaits, hread]

variable (crypto side) in
/-- The header of the first message of a side can be read. -/
theorem next_read_first (hcompleted : link.Completed) (msg : Bytes) :
    (link.send crypto side msg).next crypto (.read side.peer) =
      some ((link.send crypto side msg).read crypto side.peer) := by
  have haligned : (link.direction side).noiseSend.Aligned := by
    rw [Noise.Aligned, NoiseLink.direction, hcompleted.nonce side]
    decide
  have hwaits : (link.direction side).waits = none := (hcompleted.loop side.peer).1
  refine next_read ?_ ?_
  · rw [direction_send]
    exact (hcompleted.loop side.peer).2
  · rw [wanted_eq, direction_send, lnEncAuthEnc_aligned haligned]
    simp only [hwaits, Option.getD_some, List.length_append, length_packetHeader]
    omega

/-- The first message of a side has 65520 bytes. -/
theorem stopped_of_long (hcorrect : DecryptsEncrypted crypto) (hcompleted : link.Completed)
    {msg : Bytes} (hlong : msg.length = 65520) :
    (((link.send crypto side msg).read crypto side.peer).direction side).stopped = true := by
  have haligned : (link.direction side).noiseSend.Aligned := by
    rw [Noise.Aligned, NoiseLink.direction, hcompleted.nonce side]
    decide
  have hrecv : (link.direction side).noiseRecv = (link.direction side).noiseSend :=
    (hcompleted.keys side).symm
  have hbytes : (link.direction side).bytes = [] := (hcompleted.empty side.peer).1
  have hwaits : ((link.send crypto side msg).direction side).waits = none := by
    rw [direction_send]
    exact (hcompleted.loop side.peer).1
  have hread := @lnEncAuthDecLen_header crypto _ msg hcorrect haligned (by omega)
  have hwrapped : (65520 : Nat).toUInt32.toUInt16 + chachapolyMac.toUInt16 = 0 := rfl
  rw [hlong, hwrapped] at hread
  apply stopped_of_wrapped hwaits
  rw [direction_send, lnEncAuthEnc_aligned haligned]
  simp only [hbytes, hrecv, List.nil_append, Option.getD_some]
  rw [List.take_left' length_packetHeader]
  exact hread

theorem length_paddedPub (priv : Bytes) :
    ((priv ++ List.replicate 33 0).take 33).length = 33 := by
  simp

theorem length_tagged (plain : Bytes) :
    (plain ++ List.replicate 16 0).length = plain.length + 16 := by
  simp

/-- Encryption that only adds a tag, to evaluate the model with. -/
def NoiseCrypto.tagging : NoiseCrypto where
  sha256 := id
  sha256cat := (· ++ ·)
  hkdf salt ikm := (salt, salt ++ ikm.getD [])
  priv2pub priv := (priv ++ List.replicate 33 0).take 33
  sharedSecret pub priv := pub ++ priv
  encrypt _ _ _ plain := plain ++ List.replicate 16 0
  decrypt _ _ _ cipher :=
    if cipher.drop (cipher.length - 16) = List.replicate 16 0 then
      some (cipher.take (cipher.length - 16))
    else none
  length_priv2pub := length_paddedPub
  length_encrypt _ _ _ := length_tagged

theorem decryptsEncrypted_tagging : DecryptsEncrypted .tagging := by
  intro key nonce ad plain
  simp [NoiseCrypto.tagging]

/-- Two ends with the keys 1 and 2, one for each direction. -/
def NoiseLink.fresh : NoiseLink where
  party
    | .initiator => ⟨⟨⟨[1], 0, [3]⟩, ⟨[2], 0, [3]⟩, none⟩, none, false⟩
    | .responder => ⟨⟨⟨[2], 0, [3]⟩, ⟨[1], 0, [3]⟩, none⟩, none, false⟩
  toward _ := []
  sent _ := []
  received _ := []

theorem completed_fresh : NoiseLink.fresh.Completed where
  keys side := by cases side <;> rfl
  nonce side := by cases side <;> rfl
  loop side := by cases side <;> exact ⟨rfl, rfl⟩
  empty _ := ⟨rfl, rfl, rfl⟩

/-- 501 messages one way, after which the keys have been renewed once, and one the other way, all
of them read. -/
theorem lockstep_rotated :
    ∃ link, (noiseSystem .tagging).Reachable link ∧
      link.received .responder = List.replicate 501 [7, 8, 9] ∧
      link.received .initiator = [[4, 5]] ∧
      (link.party .initiator).self.noiseSend = ⟨[3, 1], 2, [3]⟩ ∧
      ∀ side, link.Lockstep .tagging side := by
  have hstart : (noiseSystem .tagging).ReachableUnder ShortMessages NoiseLink.fresh :=
    ⟨_, completed_fresh, .refl⟩
  have hfirst : (NoiseLink.fresh.direction .initiator).noiseSend.Aligned := by
    rw [Noise.Aligned]
    decide
  obtain ⟨there, hthere, hread, hnoise, hpeer⟩ := @exists_delivered _ _ .initiator
    decryptsEncrypted_tagging hfirst hstart (List.replicate 501 [7, 8, 9]) (by
      intro msg hmem
      rw [List.eq_of_mem_replicate hmem]
      decide)
  have hsecond : (there.direction .responder).noiseSend.Aligned := by
    change (there.direction Side.initiator.peer).noiseSend.Aligned
    rw [hpeer, Noise.Aligned]
    decide
  obtain ⟨back, hback, hanswer, -, hkept⟩ := @exists_delivered _ _ .responder
    decryptsEncrypted_tagging hsecond hthere [[4, 5]] (by decide)
  have hnothing : there.sent .responder = [] := congrArg Direction.sent hpeer
  have hsame : back.received .responder = there.received .responder :=
    congrArg Direction.received hkept
  have hkeys : (back.party .initiator).self.noiseSend = (there.party .initiator).self.noiseSend :=
    congrArg Direction.noiseSend hkept
  refine ⟨back, hback.reachable, hsame.trans hread, ?_, ?_,
    transport_lockstep .tagging decryptsEncrypted_tagging _ hback⟩
  · rw [hnothing] at hanswer
    exact hanswer
  · rw [hkeys]
    refine hnoise.trans ?_
    decide +kernel

/-- The run that reads the header of a message of 65520 bytes. -/
theorem exists_not_lockstep {msg : Bytes} (hlong : msg.length = 65520) :
    ∃ link, (noiseSystem .tagging).Reachable link ∧ link.sent .initiator = [msg] ∧
      ¬ link.Lockstep .tagging .initiator := by
  have hstart : (noiseSystem .tagging).Reachable NoiseLink.fresh := ⟨_, completed_fresh, .refl⟩
  have hsent : (noiseSystem .tagging).Reachable
      (NoiseLink.fresh.send .tagging .initiator msg) :=
    System.ReachableUnder.step hstart trivial
      (rfl : (noiseSystem .tagging).next _ (.send .initiator msg) = _)
  have hread : (noiseSystem .tagging).next (NoiseLink.fresh.send .tagging .initiator msg)
      (.read .responder) =
        some ((NoiseLink.fresh.send .tagging .initiator msg).read .tagging .responder) :=
    next_read_first .tagging .initiator completed_fresh msg
  refine ⟨_, System.ReachableUnder.step hsent trivial hread, ?_, fun hlockstep => ?_⟩
  · rw [sent_read]
    rfl
  · have hstopped := @stopped_of_long .tagging _ .initiator decryptsEncrypted_tagging
      completed_fresh _ hlong
    exact Bool.false_ne_true (hlockstep.running.symm.trans hstopped)

/-- A message of 65520 zeros stops the receiver. -/
theorem lockstep_lost_longMessage :
    ∃ link, (noiseSystem .tagging).Reachable link ∧
      link.sent .initiator = [List.replicate 65520 0] ∧ ¬ link.Lockstep .tagging .initiator :=
  exists_not_lockstep List.length_replicate

end Runs

end Ptarmigan
