/-
The normal operation of a channel: requests from the application, the idle
processing that sends what is due, and the handlers of the update messages, of
`commitment_signed` and of `revoke_and_ack`.
-/
import Ptarmigan.CommitTx

namespace Ptarmigan

namespace LnUpdateAddHtlc

/-- Rewrite the flag word of a slot. -/
def setFlag (htlc : LnUpdateAddHtlc) (rewrite : LnHtlcflag → LnHtlcflag) : LnUpdateAddHtlc :=
  { htlc with flag := rewrite htlc.flag }

/-- Rewrite the flag word of an enabled slot that the predicate picks. -/
def setFlagIf (htlc : LnUpdateAddHtlc) (picked : LnHtlcflag → Bool)
    (rewrite : LnHtlcflag → LnHtlcflag) : LnUpdateAddHtlc :=
  if htlc.enable && picked htlc.flag then htlc.setFlag rewrite else htlc

end LnUpdateAddHtlc

/-! ### Requests -/

/-- What the application hands to `ln_add_htlc_set` and `ln_add_htlc_set_fwd`. -/
structure AddHtlcRequest where
  packet : Bytes
  amountMsat : UInt64
  cltvValue : UInt32
  paymentHash : Bytes
  prevShortChannelId : UInt64 := 0
  prevIdx : HtlcIdx := 0
  sharedSecrets : Bytes := []
deriving DecidableEq, Repr

/-- The total of the slots flagged as offered. -/
def offeredMsat (slots : Slots) : UInt64 :=
  (List.finRange lnHtlcMax).foldl
    (fun total idx =>
      if (slots idx).flag.addhtlc = .offer then total + (slots idx).amountMsat else total) 0

/-- `BTC_TX_LOCKTIME_LIMIT`. -/
def btcTxLocktimeLimit : UInt32 := 500000000

/-- `check_create_add_htlc`: the free slot for the new HTLC. -/
def checkCreateAddHtlc (self : LnSelf) (amountMsat : UInt64) (cltvValue : UInt32) :
    Option HtlcIdx :=
  let closeFeeMsat := 724 * self.feeratePerKw.toUInt64 / 1000 * 1000
  let remote := self.commitRemote
  if cltvValue ≥ btcTxLocktimeLimit then none
  else if self.ourMsat < amountMsat + remote.channelReserveSat * 1000 then none
  else if self.ourMsat < amountMsat + closeFeeMsat then none
  else if remote.maxAcceptedHtlcs ≤ remote.htlcNum then none
  else if amountMsat = 0 ∨ amountMsat < remote.htlcMinimumMsat then none
  else if offeredMsat self.cnlAddHtlc > remote.maxHtlcValueInFlightMsat then none
  else firstEmpty self.cnlAddHtlc

/-- `set_add_htlc`: reserve a slot, if the remote transaction could hold it.  The
slot is left unflagged; the id is used up either way. -/
def setAddHtlc (crypto : Crypto) (self : LnSelf) (req : AddHtlcRequest) :
    Option HtlcIdx × LnSelf :=
  match checkCreateAddHtlc self req.amountMsat req.cltvValue with
  | none => (none, self)
  | some idx =>
      let htlc : LnUpdateAddHtlc :=
        { self.cnlAddHtlc idx with
          id := self.htlcIdNum
          amountMsat := req.amountMsat
          cltvExpiry := req.cltvValue
          paymentSha256 := req.paymentHash
          bufOnionReason := req.packet
          prevShortChannelId := req.prevShortChannelId
          prevIdx := req.prevIdx
          bufSharedSecret := req.sharedSecrets }
      let self := { self.setSlot idx htlc with htlcIdNum := self.htlcIdNum + 1 }
      if checkCreateRemoteCommitTx crypto self idx then (some idx, self)
      else (none, self.setSlot idx {})

/-- `ln_add_htlc_start_fwd`. -/
def lnAddHtlcStartFwd (self : LnSelf) (idx : HtlcIdx) : LnSelf :=
  self.setSlot idx ((self.cnlAddHtlc idx).setFlag fun flag => { flag with addhtlc := .offer })

/-- `ln_add_htlc_set`. -/
def lnAddHtlcSet (crypto : Crypto) (self : LnSelf) (req : AddHtlcRequest) :
    Option HtlcIdx × LnSelf :=
  if self.shutdownFlag ≠ {} then (none, self)
  else
    match setAddHtlc crypto self req with
    | (none, self) => (none, self)
    | (some idx, self) => (some idx, lnAddHtlcStartFwd self idx)

/-- `ln_add_htlc_set_fwd`: the flag is set later, by `ln_add_htlc_start_fwd`. -/
def lnAddHtlcSetFwd (crypto : Crypto) (self : LnSelf) (req : AddHtlcRequest) :
    Option HtlcIdx × LnSelf :=
  if self.shutdownFlag ≠ {} then (none, self) else setAddHtlc crypto self req

/-- `ln_fulfill_htlc_set`. -/
def lnFulfillHtlcSet (self : LnSelf) (idx : HtlcIdx) (preimage : Bytes) : Outcome :=
  let htlc := { (self.cnlAddHtlc idx).clearHtlcComrevflag .fulfill with
    bufPaymentPreimage := preimage }
  let self := self.setSlot idx htlc
  ⟨true, self, [.selfSave self]⟩

/-- `ln_fail_htlc_set`: the removal is set whether or not the flags were cleared. -/
def lnFailHtlcSet (crypto : Crypto) (self : LnSelf) (idx : HtlcIdx) (reason : Bytes) :
    LnSelf :=
  let htlc := (self.cnlAddHtlc idx).clearHtlcComrevflag .fail
  self.setSlot idx
    { htlc with
      flag := { htlc.flag with delhtlc := .fail }
      bufOnionReason := crypto.onionFailureForward htlc.bufSharedSecret reason }

/-! ### Idle processing -/

/-- What `recv_idle_proc_final` does with one slot. -/
def idleFinalSlot (htlc : LnUpdateAddHtlc) : LnUpdateAddHtlc × List Effect :=
  if !htlc.enable then (htlc, [])
  else if htlc.flag.enableLocalAddhtlcOffer then (htlc, [])
  else if htlc.flag.enableLocalAddhtlcRecv then
    let fwd : LnUpdateAddHtlc × List Effect :=
      if htlc.nextShortChannelId ≠ 0 then
        ({ htlc with nextShortChannelId := 0 },
          [.fwdAddhtlcStart htlc.nextShortChannelId htlc.nextIdx])
      else (htlc, [])
    if htlc.flag.finDelhtlc ≠ .none then
      (fwd.1.clearHtlcComrevflag htlc.flag.finDelhtlc,
        fwd.2 ++ [.bwdDelhtlcStart htlc.flag.finDelhtlc])
    else fwd
  else
    let retry : List Effect :=
      if htlc.flag.addhtlc = .offer ∧ htlc.prevShortChannelId = 0 ∧
          htlc.flag.delhtlc ≠ .fulfill then
        [.paymentRetry htlc.paymentSha256]
      else []
    ({}, retry ++ [.preimgDel htlc.bufPaymentPreimage])

/-- The slot is removed by `recv_idle_proc_final`. -/
def idleFinalRemoves (htlc : LnUpdateAddHtlc) : Bool :=
  htlc.enable && !htlc.flag.enableLocalAddhtlcOffer && !htlc.flag.enableLocalAddhtlcRecv

/-- `db_upd` of `recv_idle_proc_final`, for one slot. -/
def idleFinalDbUpd (htlc : LnUpdateAddHtlc) : Bool :=
  idleFinalRemoves htlc ||
    (htlc.enable && htlc.flag.enableLocalAddhtlcRecv &&
      (htlc.nextShortChannelId != 0 || htlc.flag.finDelhtlc != .none))

/-- What the removal of a slot adds to the balances, the own one first. -/
def idleFinalMsat (balance : UInt64 × UInt64) (htlc : LnUpdateAddHtlc) : UInt64 × UInt64 :=
  if idleFinalRemoves htlc && htlc.flag.delhtlc == .fulfill then
    match htlc.flag.addhtlc with
    | .offer => (balance.1 - htlc.amountMsat, balance.2 + htlc.amountMsat)
    | .recv => (balance.1 + htlc.amountMsat, balance.2 - htlc.amountMsat)
    | .none => balance
  else balance

/-- `recv_idle_proc_final`. -/
def recvIdleProcFinal (self : LnSelf) : Outcome :=
  let slots := self.cnlAddHtlc
  let trace := (List.finRange lnHtlcMax).flatMap fun idx => (idleFinalSlot (slots idx)).2
  let balance := (List.finRange lnHtlcMax).foldl
    (fun balance idx => idleFinalMsat balance (slots idx)) (self.ourMsat, self.theirMsat)
  let dbUpd := (List.finRange lnHtlcMax).any fun idx => idleFinalDbUpd (slots idx)
  let revack := (List.finRange lnHtlcMax).any fun idx => idleFinalRemoves (slots idx)
  let self := { self with
    cnlAddHtlc := fun idx => (idleFinalSlot (slots idx)).1
    ourMsat := balance.1
    theirMsat := balance.2 }
  ⟨true, self,
    trace ++ (if dbUpd then [.selfSave self] else []) ++
      (if revack then [.revAndAckExcg] else [])⟩

/-- The big-endian 16-bit number at the start of a byte string. -/
def be16 (bytes : Bytes) : UInt16 :=
  (bytes.getD 0 0).toUInt16 <<< 8 ||| (bytes.getD 1 0).toUInt16

/-- The update message that is due for a slot: `add_htlc_create`,
`fulfill_htlc_create`, `fail_htlc_create` or `fail_malformed_htlc_create`. -/
def idleUpdateMsg (htlc : LnUpdateAddHtlc) : Option LnMsg :=
  if htlc.enable && htlc.flag.willAddhtlc then
    some (.updateAddHtlc htlc.id htlc.amountMsat htlc.paymentSha256 htlc.cltvExpiry
      htlc.bufOnionReason)
  else if htlc.enable && htlc.flag.willDelhtlc then
    match htlc.flag.delhtlc with
    | .fulfill => some (.updateFulfillHtlc htlc.id htlc.bufPaymentPreimage)
    | .fail => some (.updateFailHtlc htlc.id htlc.bufOnionReason)
    | .malformed =>
        some (.updateFailMalformedHtlc htlc.id ((htlc.bufOnionReason.drop 2).take 32)
          (be16 htlc.bufOnionReason))
    | .none => none
  else none

/-- A slot without a due update that waits for a `commitment_signed`. -/
def idleComsig (htlc : LnUpdateAddHtlc) : Bool :=
  htlc.enable && !htlc.flag.willAddhtlc && !htlc.flag.willDelhtlc &&
    (htlc.flag.willComsigOffer || htlc.flag.willComsigRecv)

/-- The slot once its due update has been sent. -/
def idleUpdateSlot (htlc : LnUpdateAddHtlc) : LnUpdateAddHtlc :=
  if (idleUpdateMsg htlc).isSome then htlc.setFlag fun flag => { flag with updsend := true }
  else htlc

/-- `create_commitment_signed`: the message and the new commit data. -/
def createCommitmentSigned (crypto : Crypto) (self : LnSelf) : Option (LnCommitData × LnMsg) :=
  if self.initFlag.exchanged then
    let commitNum := self.commitRemote.commitNum + 1
    (createToRemote crypto self self.commitRemote commitNum).map fun (commit, htlcSigs) =>
      ({ commit with commitNum }, .commitmentSigned commit.signature htlcSigs)
  else none

/-- The sending of `commitment_signed` at the end of `recv_idle_proc_nonfinal`.
When the remote transaction cannot be built the channel quits. -/
def idleSendComsig (crypto : Crypto) (self : LnSelf) (trace : List Effect) : Outcome :=
  match createCommitmentSigned crypto self with
  | none => ⟨true, self, trace ++ [.quit]⟩
  | some (commit, msg) =>
      let self := { self with commitRemote := commit }
      let self := self.mapSlots fun htlc =>
        htlc.setFlagIf LnHtlcflag.remoteCounted fun flag => { flag with comsend := true }
      ⟨true, self, trace ++ [.sendReq none msg, .selfSave self]⟩

/-- `recv_idle_proc_nonfinal`. -/
def recvIdleProcNonfinal (crypto : Crypto) (self : LnSelf) : Outcome :=
  let slots := self.cnlAddHtlc
  if (List.finRange lnHtlcMax).any fun idx => (slots idx).flag.comsiging then
    ⟨true, self, []⟩
  else
    let trace := (List.finRange lnHtlcMax).filterMap fun idx =>
      (idleUpdateMsg (slots idx)).map (Effect.sendReq (some idx))
    let self := self.mapSlots idleUpdateSlot
    if (List.finRange lnHtlcMax).any fun idx => idleComsig (slots idx) then
      idleSendComsig crypto self trace
    else ⟨true, self, trace⟩

/-- `ln_recv_idle_proc`. -/
def lnRecvIdleProc (crypto : Crypto) (self : LnSelf) : Outcome :=
  let enabled := (List.finRange lnHtlcMax).filter fun idx => (self.cnlAddHtlc idx).enable
  if enabled.isEmpty then ⟨true, self, []⟩
  else if enabled.all fun idx => (self.cnlAddHtlc idx).flag.comrevAll then
    recvIdleProcFinal self
  else recvIdleProcNonfinal crypto self

/-! ### Received updates -/

/-- What the onion layer and the invoice database conclude about a received HTLC,
up to the checks of BOLT4. -/
inductive OnionVerdict
  | malformed (reason : Bytes)
  | fail (reason : Bytes)
  | final (preimage : Bytes)
  | forward (shortChannelId amtToForward : UInt64) (outgoingCltvValue : UInt32)
deriving DecidableEq, Repr

/-- The result of reading the onion of a received HTLC. -/
structure OnionRead where
  sharedSecret : Bytes := []
  nextOnion : Bytes := []
  verdict : OnionVerdict
deriving DecidableEq, Repr

/-- What `cbsub_add_htlc_forward` answers: the slot taken on the next channel, a
refusal for a reason that channel gave, or a refusal without one, for which the
callback has already failed the HTLC with `temporary_node_failure`. -/
inductive FwdAnswer
  | accepted (nextIdx : HtlcIdx)
  | refused (reason : Bytes)
  | refusedTempNode (tempReason reason : Bytes)
deriving DecidableEq, Repr

/-- `check_recv_add_htlc_bolt2`. -/
def checkRecvAddHtlcBolt2 (self : LnSelf) (htlc : LnUpdateAddHtlc) : Bool :=
  !self.shutdownFlag.recv &&
    !decide (htlc.amountMsat < self.commitLocal.htlcMinimumMsat) &&
    !decide (self.theirMsat < htlc.amountMsat) &&
    !decide (self.commitLocal.maxAcceptedHtlcs < self.commitLocal.htlcNum) &&
    !decide (offeredMsat self.cnlAddHtlc > self.commitLocal.maxHtlcValueInFlightMsat) &&
    !decide (htlc.cltvExpiry ≥ btcTxLocktimeLimit) &&
    htlc.amountMsat &&& 0xffffffff00000000 == 0

/-- `LNONION_PERM_CHAN_FAIL`. -/
def lnonionPermChanFail : Bytes := [0x40, 0x08]

/-- The failure branch at the end of `recv_update_add_htlc`. -/
def addHtlcWillFail (crypto : Crypto) (htlc : LnUpdateAddHtlc) (reason : Bytes) :
    LnUpdateAddHtlc :=
  { htlc with
    flag := { htlc.flag with finDelhtlc := .fail }
    bufOnionReason := crypto.onionFailureCreate htlc.bufSharedSecret reason }

/-- The part of `recv_update_add_htlc` after the BOLT2 check, for the new slot
flagged as received. -/
def addHtlcBolt4 (crypto : Crypto) (self : LnSelf) (idx : HtlcIdx) (htlc : LnUpdateAddHtlc)
    (onion : OnionRead) (answer : FwdAnswer) : LnSelf :=
  match onion.verdict with
  | .malformed reason =>
      self.setSlot idx { htlc with
        flag := { htlc.flag with finDelhtlc := .malformed }
        bufOnionReason := reason }
  | .fail reason => self.setSlot idx (addHtlcWillFail crypto htlc reason)
  | .final preimage =>
      let htlc := { htlc with
        prevShortChannelId := 0xffffffffffffffff
        bufPaymentPreimage := preimage
        bufOnionReason := [] }
      if self.shutdownFlag.send then
        self.setSlot idx (addHtlcWillFail crypto htlc lnonionPermChanFail)
      else
        self.setSlot idx { htlc with flag := { htlc.flag with finDelhtlc := .fulfill } }
  | .forward shortChannelId _ _ =>
      if self.shutdownFlag.send then
        self.setSlot idx (addHtlcWillFail crypto htlc lnonionPermChanFail)
      else
        match answer with
        | .accepted nextIdx =>
            self.setSlot idx { htlc with nextShortChannelId := shortChannelId, nextIdx }
        | .refused reason => self.setSlot idx (addHtlcWillFail crypto htlc reason)
        | .refusedTempNode tempReason reason =>
            let self := lnFailHtlcSet crypto (self.setSlot idx htlc) idx tempReason
            self.setSlot idx (addHtlcWillFail crypto (self.cnlAddHtlc idx) reason)

/-- `recv_update_add_htlc`.  The message is read into the first empty slot; a
message refused later stays there. -/
def recvUpdateAddHtlc (crypto : Crypto) (self : LnSelf) (channelId : Bytes) (id : Nat)
    (amountMsat : UInt64) (paymentSha256 : Bytes) (cltvExpiry : UInt32) (packet : Bytes)
    (onion : OnionRead) (answer : FwdAnswer) : Outcome :=
  match firstEmpty self.cnlAddHtlc with
  | none => .reject self
  | some idx =>
      let htlc : LnUpdateAddHtlc :=
        { self.cnlAddHtlc idx with
          id, amountMsat, paymentSha256, cltvExpiry, bufOnionReason := packet }
      let read := self.setSlot idx htlc
      if channelId ≠ self.channelId then .reject read
      else if !checkRecvAddHtlcBolt2 read htlc then .reject read
      else
        let htlc := { htlc with
          flag := { htlc.flag with addhtlc := .recv }
          bufOnionReason := onion.nextOnion
          bufSharedSecret := onion.sharedSecret }
        ⟨true, addHtlcBolt4 crypto read idx htlc onion answer, []⟩

/-- `recv_update_fulfill_htlc`: an unknown id or a wrong preimage is no failure. -/
def recvUpdateFulfillHtlc (crypto : Crypto) (self : LnSelf) (channelId : Bytes) (id : Nat)
    (preimage : Bytes) : Outcome :=
  if channelId ≠ self.channelId then .reject self
  else
    match findOffered self.cnlAddHtlc id with
    | none => ⟨true, self, []⟩
    | some idx =>
        let htlc := self.cnlAddHtlc idx
        if crypto.sha256 preimage = htlc.paymentSha256 then
          ⟨true, self.setSlot idx (htlc.clearHtlcComrevflag .fulfill),
            [.fulfillHtlcRecv htlc.prevShortChannelId htlc.prevIdx preimage htlc.id
              htlc.amountMsat]⟩
        else ⟨true, self, []⟩

/-- `recv_update_fail_htlc`: the callback gets the slot of this channel where the
one of `recv_update_fulfill_htlc` gets the slot of the previous channel. -/
def recvUpdateFailHtlc (self : LnSelf) (channelId : Bytes) (id : Nat) (reason : Bytes) :
    Outcome :=
  if channelId ≠ self.channelId then .reject self
  else
    match findOffered self.cnlAddHtlc id with
    | none => .reject self
    | some idx =>
        let htlc := self.cnlAddHtlc idx
        ⟨true, self.setSlot idx (htlc.clearHtlcComrevflag .fail),
          [.failHtlcRecv htlc.prevShortChannelId idx reason htlc.id 0]⟩

/-- `LNERR_ONION_BADONION`. -/
def lnerrOnionBadonion : UInt16 := 0x8000

/-- `recv_update_fail_malformed_htlc`. -/
def recvUpdateFailMalformedHtlc (self : LnSelf) (channelId : Bytes) (id : Nat)
    (sha256Onion : Bytes) (failureCode : UInt16) : Outcome :=
  if channelId ≠ self.channelId then .reject self
  else if failureCode &&& lnerrOnionBadonion = 0 then .reject self
  else
    match findOffered self.cnlAddHtlc id with
    | none => ⟨true, self, []⟩
    | some idx =>
        let htlc := self.cnlAddHtlc idx
        let reason := [(failureCode >>> 8).toUInt8, failureCode.toUInt8] ++ sha256Onion
        ⟨true, self.setSlot idx (htlc.clearHtlcComrevflag .malformed),
          [.failHtlcRecv htlc.prevShortChannelId idx reason htlc.id failureCode]⟩

/-! ### Commitment and revocation -/

/-- `recv_commitment_signed`.  The signature is read into the channel and restored
on failure; the transaction id and the HTLC signatures are not. -/
def recvCommitmentSigned (crypto : Crypto) (self : LnSelf) (channelId signature : Bytes)
    (htlcSignatures : List Bytes) : Outcome :=
  if channelId ≠ self.channelId then .reject self
  else
    let bakSig := self.commitLocal.signature
    let read := { self with commitLocal := { self.commitLocal with signature } }
    let (ret, self) := createToLocal crypto read htlcSignatures
      (self.commitLocal.commitNum + 1) self.commitRemote.toSelfDelay
      self.commitLocal.dustLimitSat
    if !ret then
      .reject { self with commitLocal := { self.commitLocal with signature := bakSig } }
    else
      let self := self.mapSlots fun htlc =>
        htlc.setFlagIf LnHtlcflag.localCounted fun flag => { flag with comrecv := true }
      let prevSecret := (self.createPrevPercommitsec crypto).1
      let self := (self.keysUpdateStorage crypto).updateScriptkeys crypto
      let revack := LnMsg.revokeAndAck prevSecret self.fundingLocal.pubkeys.perCommit
      let self := self.mapSlots fun htlc =>
        htlc.setFlagIf LnHtlcflag.localCounted fun flag => { flag with revsend := true }
      let self := { self with
        commitLocal := { self.commitLocal with
          revokeNum := self.commitLocal.commitNum
          commitNum := self.commitLocal.commitNum + 1 } }
      ⟨true, self, [.sendReq none revack, .secretSave self.privData, .selfSave self]⟩

/-- `store_peer_percommit_secret`; `none` is the failed `assert`. -/
def storePeerPercommitSecret (crypto : Crypto) (self : LnSelf) (prevSecret : Bytes) :
    Option LnSelf :=
  (lnDerkeyStorageInsertSecret crypto self.peerStorage prevSecret self.peerStorageIndex).map
    fun storage =>
      { self with
        peerStorage := storage
        peerStorageIndex := self.peerStorageIndex - 1 }

/-- `recv_revoke_and_ack`.  The comparison of the secret with the stored point is
commented out in the source. -/
def recvRevokeAndAck (crypto : Crypto) (self : LnSelf) (channelId : Bytes)
    (prevSecret newCommitpt : Bytes) : Outcome :=
  if channelId ≠ self.channelId then .reject self
  else if (crypto.priv2pub prevSecret).isNone then .reject self
  else
    match storePeerPercommitSecret crypto self prevSecret with
    | none => ⟨false, self, [.abort]⟩
    | some self =>
        let self := { self with
          fundingRemote := { self.fundingRemote with
            prevPercommit := self.fundingRemote.pubkeys.perCommit
            pubkeys := { self.fundingRemote.pubkeys with perCommit := newCommitpt } } }
        let self := self.updateScriptkeys crypto
        let self := self.mapSlots fun htlc =>
          htlc.setFlagIf LnHtlcflag.remoteCounted fun flag => { flag with revrecv := true }
        let self := { self with
          commitRemote := { self.commitRemote with
            revokeNum := self.commitRemote.commitNum - 1 } }
        ⟨true, self, [.selfSave self]⟩

/-- `recv_update_fee`. -/
def recvUpdateFee (self : LnSelf) (channelId : Bytes) (feeratePerKw : UInt32) : Outcome :=
  if channelId ≠ self.channelId then .reject self
  else ⟨true, { self with feeratePerKw }, [.updateFeeRecv]⟩

end Ptarmigan
