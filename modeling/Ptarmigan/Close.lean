/-
Closing a channel: `shutdown` and `closing_signed`, and the local commitment
transaction rebuilt for a unilateral close.
-/
import Ptarmigan.NormalOp

namespace Ptarmigan

/-- `ln_closing_signed_initfee`. -/
def lnClosingSignedInitfee (self : LnSelf) : UInt64 :=
  724 * self.feeratePerKw.toUInt64 / 1000

/-- `ln_shutdown_update_fee`. -/
def lnShutdownUpdateFee (self : LnSelf) (fee : UInt64) : LnSelf :=
  { self with closeFeeSat := min fee (lnClosingSignedInitfee self) }

/-- `ln_shutdown_create`, with the message it makes. -/
def lnShutdownCreate (self : LnSelf) : Outcome × LnMsg :=
  let self := { self with shutdownFlag := { self.shutdownFlag with send := true } }
  (⟨true, self, [.selfSave self]⟩, .shutdown self.shutdownScriptpkLocal)

/-- `ln_script_scriptpkh_check`. -/
def lnScriptScriptpkhCheck (script : Bytes) : Bool :=
  let byte (pos : Nat) : UInt8 := script.getD pos 0
  match script.length with
  | 25 => byte 0 == 0x76 && byte 1 == 0xa9 && byte 2 == 20 && byte 23 == 0x88 && byte 24 == 0xac
  | 23 => byte 0 == 0xa9 && byte 1 == 20 && byte 22 == 0x87
  | 22 => byte 0 == 0x00 && byte 1 == 20
  | 34 => byte 0 == 0x00 && byte 1 == 32
  | _ => false

/-- `BTC_DUST_LIMIT`. -/
def btcDustLimit : UInt64 := 546

/-- The outputs of `create_closing_tx` in BIP69 order.  The shorter script decides
how much of both is compared. -/
def closingVout (self : LnSelf) (feeSat : UInt64) : List (UInt64 × Bytes) :=
  let feeLocal := if self.isFunder then feeSat else 0
  let feeRemote := if self.isFunder then 0 else feeSat
  let toLocal : List (UInt64 × Bytes) :=
    if self.ourMsat / 1000 > feeLocal + btcDustLimit then
      [(self.ourMsat / 1000 - feeLocal, self.shutdownScriptpkLocal)]
    else []
  let toRemote : List (UInt64 × Bytes) :=
    if self.theirMsat / 1000 > feeRemote + btcDustLimit then
      [(self.theirMsat / 1000 - feeRemote, self.shutdownScriptpkRemote)]
    else []
  ExchangeSort.sort
    (fun out out' =>
      if out.1 = out'.1 then
        let len := min out.2.length out'.2.length
        memcmpGt (out.2.take len) (out'.2.take len)
      else decide (out'.1 < out.1))
    (toLocal ++ toRemote)

/-- `create_closing_tx`: the own signature goes to `commit_remote.signature`.  With
`verify` the one in `commit_local.signature` is checked. -/
def createClosingTx (crypto : Crypto) (self : LnSelf) (feeSat : UInt64) (verify : Bool) :
    Bool × LnSelf :=
  if self.shutdownScriptpkLocal.isEmpty || self.shutdownScriptpkRemote.isEmpty then
    (false, self)
  else
    let tx : BtcTx :=
      { vinTxid := self.fundingLocal.txid
        vinIndex := self.fundingLocal.txindex.toNat
        sequence := 0xffffffff
        vout := closingVout self feeSat
        locktime := 0 }
    match signCommittx crypto self tx with
    | none => (false, self)
    | some bufSig =>
        let self := { self with
          commitRemote := { self.commitRemote with signature := bufSig } }
        (!verify || createToLocalSignVerify crypto self tx bufSig, self)

/-- The part of `recv_shutdown` that answers a shutdown the peer requested; its
callback proposes the fee of the commitment transaction. -/
def answerShutdown (self : LnSelf) : Outcome :=
  if self.shutdownFlag.send then ⟨true, self, []⟩
  else
    let (made, msg) := lnShutdownCreate (lnShutdownUpdateFee self (lnClosingSignedInitfee self))
    made.andThen fun self => ⟨true, self, [.sendReq none msg]⟩

/-- The first `closing_signed`, which the funder sends at the end of `recv_shutdown`. -/
def startClosing (crypto : Crypto) (self : LnSelf) : Outcome :=
  if self.isFunder then
    match createClosingTx crypto self self.closeFeeSat false with
    | (false, self) => .reject self
    | (true, self) =>
        let msg := LnMsg.closingSigned self.closeFeeSat self.commitRemote.signature
        let self := { self with closeLastFeeSat := self.closeFeeSat }
        ⟨true, self, [.sendReq none msg, .selfSave self]⟩
  else ⟨true, self, []⟩

/-- `recv_shutdown`. -/
def recvShutdown (crypto : Crypto) (self : LnSelf) (channelId scriptpk : Bytes) : Outcome :=
  if self.shutdownFlag.recv then .reject self
  else
    let self := { self with shutdownScriptpkRemote := scriptpk }
    if channelId ≠ self.channelId then .reject self
    else if !lnScriptScriptpkhCheck scriptpk then .reject self
    else
      let self := { self with shutdownFlag := { self.shutdownFlag with recv := true } }
      Outcome.andThen ⟨true, self, [.selfSave self]⟩ fun self =>
      (answerShutdown { self with closeLastFeeSat := 0 }).andThen fun self =>
      let self := { self with status := .closeWait }
      Outcome.andThen ⟨true, self, [.selfSave self]⟩ (startClosing crypto)

/-- The end of `recv_closing_signed`: broadcast the transaction that both signed, or
send the own fee.  `broadcast` is the answer of the bitcoin node; `cb_closed` asserts
that it takes the transaction. -/
def closeOrAnswer (crypto : Crypto) (self : LnSelf) (feeSat : UInt64)
    (needClosetx broadcast : Bool) :
    Outcome :=
  match createClosingTx crypto self self.closeFeeSat needClosetx with
  | (false, self) => .reject self
  | (true, self) =>
      if needClosetx then
        if broadcast then
          let self := { self with status := .closeSpent }
          ⟨true, self, [.closing, .selfSave self]⟩
        else ⟨false, self, [.closing, .abort]⟩
      else
        let msg := LnMsg.closingSigned feeSat self.commitRemote.signature
        let self := { self with closeLastFeeSat := self.closeFeeSat }
        ⟨true, self, [.sendReq none msg, .selfSave self]⟩

/-- `recv_closing_signed`.  The signature is read into `commit_local.signature`.  A
fee of the peer that differs from the own last one is answered with that fee,
clamped. -/
def recvClosingSigned (crypto : Crypto) (self : LnSelf) (channelId : Bytes) (feeSat : UInt64)
    (signature : Bytes) (broadcast : Bool) : Outcome :=
  if !self.shutdownFlag.exchanged then .reject self
  else
    let self := { self with commitLocal := { self.commitLocal with signature } }
    if channelId ≠ self.channelId then .reject self
    else if feeSat > lnClosingSignedInitfee self then .reject self
    else
      match createClosingTx crypto self feeSat true with
      | (false, self) => ⟨false, self, [.abort]⟩
      | (true, self) =>
          if self.closeLastFeeSat = feeSat then closeOrAnswer crypto self feeSat true broadcast
          else closeOrAnswer crypto (lnShutdownUpdateFee self feeSat) feeSat false broadcast

/-! ### Unilateral close -/

/-- An HTLC output of the rebuilt transaction with what spends it: the transaction
and the signature of the peer that was stored for it.  A received HTLC without
preimage has none. -/
structure CloseHtlc where
  out : Nat × UInt64 × LnScriptHtlcinfo
  spend : Option (BtcTx × Bytes)

/-- `create_to_local_spenthtlc`; `none` when the signature cannot be made. -/
def createToLocalSpenthtlc (crypto : Crypto) (searchPreimage : Bytes → Option Bytes)
    (self : LnSelf) (build : CommitBuild) (out : Nat × UInt64 × LnScriptHtlcinfo) :
    Option CloseHtlc :=
  let htlc := self.cnlAddHtlc out.2.2.addHtlcIdx
  if out.2.2.type = .received ∧ (searchPreimage htlc.paymentSha256).isNone then
    some ⟨out, none⟩
  else
    let tx := htlctxOf crypto build.feeinfo build.bufWs self.commitLocal.txid out
    (calcSighashP2wsh crypto tx out.2.1 out.2.2.script).map fun _ =>
      ⟨out, some (tx, htlc.signature)⟩

/-- What `ln_close_create_unilateral_tx` returns: the commitment transaction and
what spends its HTLC outputs. -/
structure UnilateralTx where
  build : CommitBuild
  htlcs : List CloseHtlc

/-- `create_to_local` for a unilateral close. -/
def createToLocalClose (crypto : Crypto) (searchPreimage : Bytes → Option Bytes)
    (self : LnSelf) (commitNum : UInt64) (toSelfDelay : UInt16) (dustLimitSat : UInt64) :
    Option UnilateralTx × LnSelf :=
  let build := buildToLocal crypto self commitNum toSelfDelay dustLimitSat
  match signCommittx crypto self build.committx.tx with
  | none => (none, self)
  | some bufSig =>
      if createToLocalSignVerify crypto self build.committx.tx bufSig then
        let self := { self with
          commitLocal := { self.commitLocal with txid := crypto.txid build.committx.tx } }
        let outs := htlcVouts build.committx.vout
        let spend := createToLocalSpenthtlc crypto searchPreimage self build
        -- the loop ends at the first output that it cannot spend
        let htlcNum := (outs.takeWhile fun out => (spend out).isSome).length.toUInt16
        ((outs.mapM spend).map (UnilateralTx.mk build),
          { self with commitLocal := { self.commitLocal with htlcNum } })
      else (none, self)

/-- The keys of the local commitment transaction last signed by the peer, put in
place of those of the next one. -/
def LnSelf.withPrevKeys (crypto : Crypto) (self : LnSelf) : LnSelf :=
  let prev := self.createPrevPercommitsec crypto
  LnSelf.updateScriptkeys crypto { self with
    privData := { self.privData with
      priv := { self.privData.priv with perCommit := prev.1 } }
    fundingLocal := { self.fundingLocal with
      pubkeys := { self.fundingLocal.pubkeys with perCommit := prev.2 } }
    fundingRemote := { self.fundingRemote with
      pubkeys := { self.fundingRemote.pubkeys with
        perCommit := self.fundingRemote.prevPercommit } } }

/-- `ln_close_create_unilateral_tx`: build with the previous keys, then put the
keys back. -/
def lnCloseCreateUnilateralTx (crypto : Crypto) (searchPreimage : Bytes → Option Bytes)
    (self : LnSelf) : Option UnilateralTx × LnSelf :=
  let (result, built) := createToLocalClose crypto searchPreimage (self.withPrevKeys crypto)
    self.commitLocal.commitNum self.commitRemote.toSelfDelay self.commitLocal.dustLimitSat
  (result, LnSelf.updateScriptkeys crypto { built with
    privData := self.privData
    fundingLocal := { built.fundingLocal with
      pubkeys := { self.fundingLocal.pubkeys with
        perCommit := crypto.pub self.privData.priv.perCommit } }
    fundingRemote := { built.fundingRemote with pubkeys := self.fundingRemote.pubkeys } })

end Ptarmigan
