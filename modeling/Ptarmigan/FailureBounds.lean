/-
The lengths that the failure handling of the onion layer rests on: the reasons that the node
builds against the padding, and the packet of a peer against the lengths that its layers announce.
-/
import Ptarmigan.Bolt4
import Ptarmigan.OnionFailure

namespace Ptarmigan

open KeyStream Wrapping

/-! ### The reasons that the node builds -/

/-- The data of a reason: nothing at all, a code alone, with a number, or with the length of a
stored `channel_update` and the `channel_update`. -/
inductive NodeReason
  | empty
  | bare (code : UInt16)
  | number (code : UInt16) (value : UInt32)
  | update (code : UInt16) (cnlupdBuf : Bytes)
deriving DecidableEq, Repr

def NodeReason.bytes : NodeReason → Bytes
  | empty => []
  | bare code => lnMiscPush16be code
  | number code value => lnMiscPush16be code ++ lnMiscPush32be value
  | update code cnlupdBuf => lnMiscPush16be code ++ updateData cnlupdBuf

/-- The bytes are a reason of that kind. -/
def Built (reason : Bytes) : Prop := ∃ made : NodeReason, reason = made.bytes

/-- `LNONION_TMP_CHAN_FAIL`. -/
def lnonionTmpChanFailCode : UInt16 := 0x1000 ||| 7

/-- `LNONION_PERM_CHAN_FAIL`. -/
def lnonionPermChanFailCode : UInt16 := 0x4000 ||| 8

/-- `LNONION_CHAN_DISABLE`. -/
def lnonionChanDisableCode : UInt16 := 0x1000 ||| 20

/-- The end of `check_create_add_htlc`: the reason, by the result of the check and the
`channel_update` of the peer, if there is one that can be read. -/
def checkCreateReason (ret : Bool) (peerUpdate : Option (Bytes × CnlUpdateMsg)) : Bytes :=
  match ret, peerUpdate with
  | true, some (buf, upd) =>
      if upd.flags &&& 0x0002 ≠ 0 then lnMiscPush16be lnonionChanDisableCode ++ updateData buf
      else []
  | true, none => []
  | false, some (buf, _) => lnMiscPush16be lnonionTmpChanFailCode ++ updateData buf
  | false, none => lnMiscPush16be lnonionPermChanFailCode

/-- What `recv_update_add_htlc` decides on besides the onion: the height, whether `shutdown` has
been sent, what the callback answers, and the stored `channel_update` of the peer. -/
structure RecvAddEnv where
  height : Int32
  shutdownSent : Bool
  answer : Bool
  peerUpdate : Option Bytes

/-- The reason that `recv_update_add_htlc` has when it calls `ln_onion_failure_create`, if it does:
a reason with `LNERR_ONION_BADONION` goes back as it is. -/
def recvAddHtlcReason (crypto : Crypto) (env : Bolt4Env) (recv : RecvAddEnv)
    (onion : Except Bytes (Bytes × LnHopDataout)) (htlc : LnUpdateAddHtlc) : Option Bytes :=
  match onion with
  | .error reason => if lnMiscGet16be (reason.take 2) &&& 0x8000 ≠ 0 then none else some reason
  | .ok (_, hop) =>
      match (checkRecvAddHtlcBolt4 crypto env hop htlc recv.height).value with
      | none => some []
      | some check =>
          if !check.ret then some check.reason
          else if recv.shutdownSent then some (lnMiscPush16be lnonionPermChanFailCode)
          else if recv.answer then none
          else
            match recv.peerUpdate with
            | some buf => some (lnMiscPush16be lnonionTmpChanFailCode ++ updateData buf)
            | none => some (lnMiscPush16be OnionReason.unknownNextPeer.code)

theorem checkCreateReason_built (ret : Bool) (peerUpdate : Option (Bytes × CnlUpdateMsg)) :
    Built (checkCreateReason ret peerUpdate) := by
  unfold checkCreateReason
  split
  · split_ifs
    · exact ⟨.update _ _, rfl⟩
    · exact ⟨.empty, rfl⟩
  · exact ⟨.empty, rfl⟩
  · exact ⟨.update _ _, rfl⟩
  · exact ⟨.bare _, rfl⟩

/-- The data that a check pushes: nothing, a number or a `channel_update`. -/
inductive PushedData : Bytes → Prop
  | nothing : PushedData []
  | number (value : UInt32) : PushedData (lnMiscPush32be value)
  | update (buf : Bytes) : PushedData (updateData buf)

theorem failed_built (format : String) (operands : List Nat) (reason : OnionReason) {data : Bytes}
    (hdata : PushedData data) : Built (Bolt4Check.failed format operands reason data).reason := by
  cases hdata with
  | nothing => exact ⟨.bare reason.code, List.append_nil _⟩
  | number value => exact ⟨.number reason.code value, rfl⟩
  | update buf => exact ⟨.update reason.code buf, rfl⟩

section Checks

variable {crypto : Crypto} {env : Bolt4Env} {hop : LnHopDataout} {htlc : LnUpdateAddHtlc}
  {height : Int32}

theorem checkFinalPreimg_built (preimg : PreimgInfo) :
    Built (checkFinalPreimg hop htlc height preimg).value.reason := by
  simp only [checkFinalPreimg, value_bind, value_pure, value_ite]
  split_ifs
  all_goals first
    | exact failed_built _ _ _ .nothing
    | exact failed_built _ _ _ (.number _)
    | exact ⟨.empty, rfl⟩

theorem checkRecvAddHtlcBolt4Final_built :
    Built (checkRecvAddHtlcBolt4Final crypto env hop htlc height).value.reason := by
  rw [checkRecvAddHtlcBolt4Final]
  cases env.preimg crypto htlc with
  | none =>
      have hfailed := failed_built "preimage mismatch" [] .unknownPayHash .nothing
      exact hfailed
  | some preimg => exact checkFinalPreimg_built preimg

theorem checkForwardCltv_built (next : NextSelf) (cnlupdBuf : Bytes) (cnlupd : CnlUpdateMsg) :
    Built (checkForwardCltv hop htlc height next cnlupdBuf cnlupd).value.reason := by
  simp only [checkForwardCltv, value_bind, value_pure, value_ite]
  split_ifs
  all_goals first
    | exact failed_built _ _ _ .nothing
    | exact failed_built _ _ _ (.update _)
    | exact ⟨.empty, rfl⟩

theorem checkRecvAddHtlcBolt4Forward_built :
    Built (checkRecvAddHtlcBolt4Forward env hop htlc height).value.reason := by
  rw [checkRecvAddHtlcBolt4Forward]
  cases env.nextChannel hop with
  | none => exact failed_built _ _ _ .nothing
  | some next =>
      cases env.nextUpdate hop with
      | none => exact failed_built _ _ _ .nothing
      | some stored =>
          simp only [value_bind, value_pure, value_ite]
          split_ifs
          · exact failed_built _ _ _ (.update _)
          · exact failed_built _ _ _ (.update _)
          · exact checkForwardCltv_built next stored.1 stored.2

theorem checkRecvAddHtlcBolt4_built {check : Bolt4Check}
    (hcheck : (checkRecvAddHtlcBolt4 crypto env hop htlc height).value = some check) :
    Built check.reason := by
  rw [checkRecvAddHtlcBolt4, value_ite] at hcheck
  split_ifs at hcheck
  · obtain rfl := Option.some.inj hcheck
    exact checkRecvAddHtlcBolt4Final_built
  · obtain rfl := Option.some.inj hcheck
    exact checkRecvAddHtlcBolt4Forward_built

/-- Only for its realm a packet is refused without `LNERR_ONION_BADONION`. -/
theorem lnOnionReadPacket_error {onionCrypto : OnionCrypto} {priv packet assoc reason : Bytes}
    (herror : (lnOnionReadPacket onionCrypto priv packet assoc).result = .error reason)
    (hgood : lnMiscGet16be (reason.take 2) &&& 0x8000 = 0) :
    reason = lnMiscPush16be lnonionInvRealm := by
  have hbad : ∀ code : UInt16, code &&& 0x8000 ≠ 0 →
      ¬ lnMiscGet16be ((setReasonSha256 onionCrypto packet code).take 2) &&& 0x8000 = 0 := by
    intro code hcode
    have hcut : (setReasonSha256 onionCrypto packet code).take 2 = lnMiscPush16be code :=
      List.take_left' (BigEndian.length_encode 2 code.toNat)
    rwa [hcut, lnMiscGet16be_lnMiscPush16be]
  simp only [lnOnionReadPacket] at herror
  split_ifs at herror
  · obtain rfl := Except.error.inj herror
    exact absurd hgood (hbad _ (by decide))
  · obtain rfl := Except.error.inj herror
    exact absurd hgood (hbad _ (by decide))
  · obtain rfl := Except.error.inj herror
    exact absurd hgood (hbad _ (by decide))
  · simp only [peelRoute] at herror
    split_ifs at herror
    exact (Except.error.inj herror).symm

/-- What goes back with a failure is a reason of those kinds, for an onion that
`ln_onion_read_packet` has read. -/
theorem recvAddHtlcReason_built {recv : RecvAddEnv} {onionCrypto : OnionCrypto}
    {priv packet assoc reason : Bytes} (hreason : recvAddHtlcReason crypto env recv
      (lnOnionReadPacket onionCrypto priv packet assoc).result htlc = some reason) :
    Built reason := by
  unfold recvAddHtlcReason at hreason
  split at hreason
  case h_1 refused herror =>
    split_ifs at hreason with hbad
    obtain rfl := Option.some.inj hreason
    exact ⟨.bare lnonionInvRealm, lnOnionReadPacket_error herror (not_ne_iff.mp hbad)⟩
  case h_2 next hop hok =>
    split at hreason
    case h_1 hnone =>
      obtain rfl := Option.some.inj hreason
      exact ⟨.empty, rfl⟩
    case h_2 check hcheck =>
      have hbuilt := checkRecvAddHtlcBolt4_built hcheck
      split_ifs at hreason
      · obtain rfl := Option.some.inj hreason
        exact hbuilt
      · obtain rfl := Option.some.inj hreason
        exact ⟨.bare _, rfl⟩
      · split at hreason
        · obtain rfl := Option.some.inj hreason
          exact ⟨.update _ _, rfl⟩
        · obtain rfl := Option.some.inj hreason
          exact ⟨.bare _, rfl⟩

end Checks

/-! ### Both directions of a failure -/

/-- `ln_onion_failure_create` comes to no negative padding, and `ln_onion_failure_read` stays inside
the packet. -/
structure FailureInBounds (crypto : OnionCrypto) (reason : NodeReason) (secret : Bytes)
    (secrets : List Bytes) (packet : Bytes) : Prop where
  create : lnOnionFailureCreate crypto secret reason.bytes ≠ none
  read : lnOnionFailureRead crypto secrets packet ≠ none

/-- A `channel_update` in the reason leaves room for its code and its length. -/
def NodeReason.Fits : NodeReason → Prop
  | update _ cnlupdBuf => cnlupdBuf.length ≤ 252
  | _ => True

/-- The length that an unwrapped layer announces for its reason. -/
def announcedLength (out : Bytes) : Nat :=
  BigEndian.decode ((out.drop szHmac).take 2)

/-- The length that an unwrapped layer announces for its padding. -/
def announcedPadding (out : Bytes) : Nat :=
  BigEndian.decode ((out.drop (szHmac + 2 + announcedLength out)).take 2)

/-- An unwrapped layer holds what it announces, as far as that is looked at: the length of the
reason, the length of the padding behind a short reason, and the padding up to a byte that is not
zero. -/
structure LayerFits (out : Bytes) : Prop where
  length : szHmac + 2 ≤ out.length
  padding : announcedLength out < failureDatalen → szHmac + 4 + announcedLength out ≤ out.length
  zeros : announcedLength out < failureDatalen →
    announcedLength out + announcedPadding out = failureDatalen →
    (∀ byte ∈ out.drop (szHmac + 4 + announcedLength out), byte = 0) →
      szHmac + 4 + failureDatalen ≤ out.length

/-- Each layer that the loop comes to fits. -/
def PacketFits (crypto : OnionCrypto) (secrets : List Bytes) (packet : Bytes) : Prop :=
  ∀ hop < secrets.length,
    (∀ earlier < hop,
      failureReason (unwrapFailure crypto (secrets.take (earlier + 1)) packet) = some none) →
    LayerFits (unwrapFailure crypto (secrets.take (hop + 1)) packet)

section Bounds

variable {crypto : OnionCrypto} {secret packet out : Bytes} {secrets : List Bytes}

theorem lnOnionFailureCreate_ne_none (crypto : OnionCrypto) (secret : Bytes) (reason : NodeReason) :
    lnOnionFailureCreate crypto secret reason.bytes ≠ none ↔ reason.Fits := by
  have hcreate : lnOnionFailureCreate crypto secret reason.bytes ≠ none ↔
      reason.bytes.length ≤ failureDatalen := by
    rw [lnOnionFailureCreate]
    split_ifs with hlong
    · exact iff_of_false (fun hne => hne rfl) (Nat.not_le_of_lt hlong)
    · exact iff_of_true (Option.some_ne_none _) (Nat.le_of_not_lt hlong)
  rw [hcreate, failureDatalen]
  cases reason with
  | empty => simp [NodeReason.bytes, NodeReason.Fits]
  | bare code => simp [NodeReason.bytes, NodeReason.Fits]
  | number code value => simp [NodeReason.bytes, NodeReason.Fits]
  | update code cnlupdBuf =>
      simp only [NodeReason.bytes, updateData, List.length_append, length_lnMiscPush16be,
        NodeReason.Fits]
      omega

/-- The scan of the padding ends in the packet. -/
theorem zeros_ne_none {len padLen : Nat} {result : Bytes} (hwhole : len + padLen = failureDatalen) :
    (if ((out.drop (szHmac + 4 + len)).take padLen).all (· == 0) then
        if out.length < szHmac + 4 + failureDatalen then none else some (some result)
      else some none) ≠ none ↔
      ((∀ byte ∈ out.drop (szHmac + 4 + len), byte = 0) →
        szHmac + 4 + failureDatalen ≤ out.length) := by
  by_cases hroom : szHmac + 4 + failureDatalen ≤ out.length
  · simp only [hroom, implies_true, iff_true, if_neg (Nat.not_lt.mpr hroom)]
    split_ifs
    · exact Option.some_ne_none _
    · exact Option.some_ne_none _
  · have htake : (out.drop (szHmac + 4 + len)).take padLen = out.drop (szHmac + 4 + len) := by
      apply List.take_of_length_le
      rw [List.length_drop]
      omega
    rw [htake, if_pos (Nat.lt_of_not_le hroom)]
    by_cases hzeros : ∀ byte ∈ out.drop (szHmac + 4 + len), byte = 0
    · rw [if_pos (by simpa using hzeros)]
      exact iff_of_false (fun hne => hne rfl) fun h => hroom (h hzeros)
    · rw [if_neg (by simpa using hzeros)]
      exact iff_of_true (Option.some_ne_none _) fun h => absurd h hzeros

theorem failureReason_ne_none : failureReason out ≠ none ↔ LayerFits out := by
  rw [failureReason, get16be]
  by_cases hlength : szHmac + 2 ≤ out.length
  · rw [if_pos hlength, Option.bind_some, ← announcedLength]
    by_cases hshort : announcedLength out < failureDatalen
    · rw [if_pos hshort, get16be]
      by_cases hpadding : szHmac + 4 + announcedLength out ≤ out.length
      · have hread : szHmac + 2 + announcedLength out + 2 ≤ out.length := by omega
        have hfits : LayerFits out ↔
            (announcedLength out + announcedPadding out = failureDatalen →
              (∀ byte ∈ out.drop (szHmac + 4 + announcedLength out), byte = 0) →
                szHmac + 4 + failureDatalen ≤ out.length) := by
          constructor
          · intro hfits
            exact hfits.zeros hshort
          · intro hzeros
            exact ⟨hlength, fun _ => hpadding, fun _ => hzeros⟩
        rw [if_pos hread, Option.bind_some, hfits, ← announcedPadding]
        by_cases hwhole : announcedLength out + announcedPadding out = failureDatalen
        · rw [if_pos hwhole]
          exact (zeros_ne_none hwhole).trans (by simp only [hwhole, forall_true_left])
        · rw [if_neg hwhole]
          exact iff_of_true (Option.some_ne_none _) fun h => absurd h hwhole
      · have hread : ¬ szHmac + 2 + announcedLength out + 2 ≤ out.length := by omega
        rw [if_neg hread]
        exact iff_of_false (fun hne => hne rfl) fun hfits => hpadding (hfits.padding hshort)
    · rw [if_neg hshort]
      exact iff_of_true (Option.some_ne_none _)
        ⟨hlength, fun h => absurd h hshort, fun h => absurd h hshort⟩
  · rw [if_neg hlength]
    exact iff_of_false (fun hne => hne rfl) fun hfits => hlength hfits.length

theorem packetFits_cons : PacketFits crypto (secret :: secrets) packet ↔
    LayerFits (lnOnionFailureForward crypto secret packet) ∧
      (failureReason (lnOnionFailureForward crypto secret packet) = some none →
        PacketFits crypto secrets (lnOnionFailureForward crypto secret packet)) := by
  constructor
  · intro hfits
    have hfirst := hfits 0 (Nat.succ_pos _) fun earlier hlt => absurd hlt (Nat.not_lt_zero _)
    refine ⟨hfirst, fun hfirst hop hhop hearlier => ?_⟩
    refine hfits (hop + 1) (Nat.succ_lt_succ hhop) fun earlier hlt => ?_
    cases earlier with
    | zero => exact hfirst
    | succ earlier => exact hearlier earlier (Nat.lt_of_succ_lt_succ hlt)
  · rintro ⟨hfirst, hrest⟩ hop hhop hearlier
    cases hop with
    | zero => exact hfirst
    | succ hop =>
        refine hrest (hearlier 0 (Nat.succ_pos _)) hop (Nat.lt_of_succ_lt_succ hhop) ?_
        intro earlier hlt
        exact hearlier (earlier + 1) (Nat.succ_lt_succ hlt)

theorem failureReadLoop_ne_none (crypto : OnionCrypto) (secrets : List Bytes) (hop : Nat)
    (packet : Bytes) :
    failureReadLoop crypto secrets hop packet ≠ none ↔ PacketFits crypto secrets packet := by
  induction secrets generalizing hop packet with
  | nil =>
      exact iff_of_true (Option.some_ne_none _)
        fun hop hhop => absurd hhop (Nat.not_lt_zero _)
  | cons secret secrets ih =>
      rw [packetFits_cons, ← failureReason_ne_none, failureReadLoop]
      cases hreason : failureReason (lnOnionFailureForward crypto secret packet) with
      | none => exact iff_of_false (fun hne => hne rfl) fun hfits => hfits.1 rfl
      | some found =>
          cases found with
          | none =>
              rw [Option.bind_some, ih]
              simp
          | some reason =>
              rw [Option.bind_some]
              simp

/-- A packet of the length that `ln_onion_failure_create` makes is long enough. -/
theorem layerFits_of_length (hlength : szHmac + 4 + failureDatalen ≤ out.length) :
    LayerFits out :=
  ⟨by omega, fun hshort => by omega, fun _ _ _ => hlength⟩

theorem length_unwrapFailure (secrets : List Bytes) (packet : Bytes) :
    (unwrapFailure crypto secrets packet).length = packet.length := by
  induction secrets generalizing packet with
  | nil => rfl
  | cons secret secrets ih =>
      rw [unwrapFailure, List.foldl_cons]
      exact (ih _).trans (length_lnOnionFailureForward secret packet)

theorem packetFits_of_length (crypto : OnionCrypto) (secrets : List Bytes)
    (hlength : szHmac + 4 + failureDatalen ≤ packet.length) :
    PacketFits crypto secrets packet := by
  intro hop _ _
  apply layerFits_of_length
  rwa [length_unwrapFailure]

/-- A packet without the two bytes of a length is never long enough. -/
theorem not_packetFits_of_short (crypto : OnionCrypto) (secret : Bytes) (secrets : List Bytes)
    (hshort : packet.length < szHmac + 2) : ¬ PacketFits crypto (secret :: secrets) packet := by
  intro hfits
  have hlength := (packetFits_cons.mp hfits).1.length
  rw [length_lnOnionFailureForward] at hlength
  omega

end Bounds

/-- The failure handling stays in bounds if and only if a `channel_update` in the reason has at
most 252 bytes, and each layer of the packet that is looked at is as long as it announces. -/
theorem failureInBounds_iff (crypto : OnionCrypto) (reason : NodeReason) (secret : Bytes)
    (secrets : List Bytes) (packet : Bytes) :
    FailureInBounds crypto reason secret secrets packet ↔
      reason.Fits ∧ PacketFits crypto secrets packet := by
  rw [← lnOnionFailureCreate_ne_none crypto secret, ← failureReadLoop_ne_none crypto secrets 0]
  exact ⟨fun hbounds => ⟨hbounds.create, hbounds.read⟩, fun ⟨hcreate, hread⟩ => ⟨hcreate, hread⟩⟩

/-- A `channel_update` of 253 bytes makes the padding negative, and an empty packet is read at its
byte 32. -/
theorem failureOutOfBounds :
    ¬ (∀ (crypto : OnionCrypto) (reason : NodeReason) (secret : Bytes),
        lnOnionFailureCreate crypto secret reason.bytes ≠ none) ∧
      ¬ ∀ (crypto : OnionCrypto) (secrets : List Bytes) (packet : Bytes),
        lnOnionFailureRead crypto secrets packet ≠ none := by
  constructor
  · intro hall
    have hfits := (lnOnionFailureCreate_ne_none .additive [1] _).mp
      (hall .additive (.update lnonionTmpChanFailCode (List.replicate 253 0)) [1])
    rw [NodeReason.Fits, List.length_replicate] at hfits
    omega
  · intro hall
    exact hall .additive [[1]] [] (by decide)

end Ptarmigan
