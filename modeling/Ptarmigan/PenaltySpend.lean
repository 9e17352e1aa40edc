/-
What is made of the outputs of a revoked commitment transaction: each penalty transaction and each
entry of the wallet opens its output.  What the penalty transactions pay is locked by the closing
script as a witness script, and who can take that depends on the kind of the closing script.
-/
import Ptarmigan.ClosingTx
import Ptarmigan.RecoveryRun
import Ptarmigan.WalletSpend

namespace Ptarmigan

open DoubleHash ExtKey Script SwSighash TransitionSystem Wallet WalletStore

variable {crypto : Crypto} {chan : LnSelf} {phashSearch : Bytes → Option PhashEntry}

/-! ### The transactions -/

/-- `ln_revokedhtlc_create_spenttx`; `none` where there is no type, which it asserts, and where
nothing can be signed. -/
def lnRevokedhtlcCreateSpenttx (crypto : Crypto) (self : LnSelf) (revoked : RevokedClose)
    (value : UInt64) (witIndex : Nat) (txid : Bytes) (index : Nat) : Option CloseTx :=
  (revoked.type witIndex).bind fun type =>
    -- no HTLCs are given, so the dust limit is not looked at
    let feeinfo := lnScriptFeeCalc self.feeratePerKw 0 []
    let tx := lnScriptHtlctxCreate crypto (value - feeinfo.htlcFee type)
      self.shutdownScriptpkLocal type 0 txid index
    let key := lnSignerGetRevokesec crypto self self.fundingRemote.pubkeys.perCommit revoked.sec
    (calcSighashP2wsh crypto tx value (revoked.wit witIndex)).map fun sighash =>
      { tx
        opt := some type
        witness := [crypto.sign key.priv sighash, key.pub, revoked.wit witIndex] }

/-- What `close_revoked_tolocal` puts into the wallet, for an output of the given transaction. -/
def revokedTolocalData (crypto : Crypto) (self : LnSelf) (revoked : RevokedClose)
    (value : UInt64) (txid : Bytes) (index : Nat) : LnDbWallet :=
  let key := lnSignerTolocalKey crypto self (some revoked.sec)
  { setWalletData lnDbWalletTypeTolocal (createBasetx value btcTxSequence txid index
      [key.priv, [1], revoked.wit lnRcloseIdxTolocal]) with
    sequence := self.commitLocal.toSelfDelay.toUInt32 }

/-- What `close_revoked_toremote` puts into the wallet. -/
def revokedToremoteData (crypto : Crypto) (self : LnSelf) (value : UInt64) (txid : Bytes)
    (index : Nat) : LnDbWallet :=
  let key := lnSignerToremoteKey crypto self
  toremoteData crypto (createBasetx value 0 txid index [key.priv, key.pub])

/-! ### The types of the entries -/

/-- Whatever is behind the two fixed places has a type. -/
def EntriesTyped (made : RevokedBuild) : Prop :=
  ∀ wit, 2 ≤ wit → made.revoked.vout wit ≠ [] → (made.revoked.type wit).isSome = true

theorem entriesTyped_addVout {made : RevokedBuild} (htyped : EntriesTyped made)
    (keys : Scriptkeys) (script : Bytes) :
    EntriesTyped (made.addVout crypto keys phashSearch script) := by
  intro wit hwit hvout
  rw [RevokedBuild.addVout] at hvout ⊢
  split_ifs at hvout ⊢ with hremote htolocal
  · have hne : wit ≠ lnRcloseIdxToremote := Nat.ne_of_gt hwit
    simp only [RevokedBuild.put, Function.update_of_ne hne] at hvout ⊢
    exact htyped wit hwit hvout
  · exact htyped wit hwit hvout
  · cases hsearch : phashSearch script with
    | none =>
        simp only [hsearch] at hvout
        exact htyped wit hwit hvout
    | some entry =>
        simp only [hsearch, RevokedBuild.put] at hvout ⊢
        by_cases hlast : wit = lnRcloseIdxHtlc + made.htlcCnt
        · rw [hlast, Function.update_self]
          rfl
        · rw [Function.update_of_ne hlast] at hvout ⊢
          exact htyped wit hwit hvout

theorem entriesTyped_foldl (keys : Scriptkeys) (scripts : List Bytes) :
    ∀ {made : RevokedBuild}, EntriesTyped made →
      EntriesTyped (scripts.foldl (RevokedBuild.addVout crypto keys phashSearch) made) := by
  induction scripts with
  | nil => exact fun htyped => htyped
  | cons script rest ih => exact fun htyped => ih (entriesTyped_addVout htyped keys script)

theorem entriesTyped_start (self : LnSelf) (cnt : UInt16) (secret : Bytes) :
    EntriesTyped (.start crypto self cnt secret) := by
  intro wit hwit hvout
  have hne : wit ≠ lnRcloseIdxTolocal := Nat.ne_of_gt (Nat.zero_lt_of_lt hwit)
  simp only [RevokedBuild.start, RevokedBuild.put, Function.update_of_ne hne] at hvout
  exact absurd rfl hvout

/-! ### The keys -/

/-- An entry is for an output of the value, and once it is signed in a transaction of version 2
its witness opens the output. -/
structure UnlocksOutput (crypto : Crypto) (entry : LnDbWallet) (value : UInt64)
    (script : ScriptPk) : Prop where
  typed : Typed entry
  amount : entry.amount = value
  opens : ∀ (sha256 : Bytes → Digest) (tx : TxSort.BtcTx), tx.version = 2 →
    Opens crypto sha256 tx (signedVin crypto sha256 tx entry) value script

/-- The transaction spends an output, and its witness opens it. -/
def OpensOutput (crypto : Crypto) (close : CloseTx) (value : UInt64) (script : Bytes) : Prop :=
  ∃ items, close.witness = items ++ [script] ∧
    (txEnv crypto close.tx value script).spends script items = true

/-- The keys in the scripts of the revoked transaction could be derived. -/
structure RevokedKeysMade {Point : Type} [AddCommGroup Point] [DecidableEq Point]
    (curve : ExtkeyCrypto Point) (crypto : Crypto) (chan : LnSelf) : Prop where
  revocation : (lnDerkeyRevocationkey curve crypto.sha256 chan.fundingLocal.pubkeys.revocation
    chan.fundingRemote.pubkeys.perCommit).isSome = true
  delayed : (lnDerkeyPubkey curve crypto.sha256 chan.fundingRemote.pubkeys.delayed
    chan.fundingRemote.pubkeys.perCommit).isSome = true
  payment : (lnDerkeyPubkey curve crypto.sha256 chan.fundingLocal.pubkeys.payment
    chan.fundingRemote.pubkeys.perCommit).isSome = true
  htlc : (lnDerkeyPubkey curve crypto.sha256 chan.fundingLocal.pubkeys.htlc
    chan.fundingRemote.pubkeys.perCommit).isSome = true
  peerHtlc : (lnDerkeyPubkey curve crypto.sha256 chan.fundingRemote.pubkeys.htlc
    chan.fundingRemote.pubkeys.perCommit).isSome = true

namespace RevokedCommit

/-- Everything that is made of the outputs opens them.  The wallet entry that is for `to_local`
serves for any output with its script, such as those of the peer's HTLC transactions. -/
structure TakenBack (commit : RevokedCommit crypto chan) (after : LnSelf) (made : RevokedBuild) :
    Prop where
  htlc : ∀ (index : Nat) (out : BtcVout) (info : LnScriptHtlcinfo) (wit : Nat),
    commit.vout[index]? = some out → out.opt = .htlc info →
    made.revoked.vout wit = out.script.bytes →
    ∃ type, made.revoked.type wit = some type ∧
      ∀ close, lnRevokedhtlcCreateSpenttx crypto after made.revoked out.value wit
          (crypto.txid commit.tx) index = some close →
        OpensOutput crypto close out.value info.script
  tolocal : ∀ (index : Nat) (out : BtcVout), commit.vout[index]? = some out → out.opt = .tolocal →
    out.script = crypto.p2wsh (made.revoked.wit lnRcloseIdxTolocal)
  tolocalScript : ∀ (value : UInt64) (txid : Bytes) (index : Nat),
    UnlocksOutput crypto (revokedTolocalData crypto after made.revoked value txid index) value
      (crypto.p2wsh (made.revoked.wit lnRcloseIdxTolocal))
  toremote : ∀ (index : Nat) (out : BtcVout), commit.vout[index]? = some out →
    out.opt = .toremote →
    UnlocksOutput crypto
      (revokedToremoteData crypto after out.value (crypto.txid commit.tx) index) out.value
      out.script

end RevokedCommit

section Keys

variable {Point : Type} [AddCommGroup Point] [DecidableEq Point] {curve : ExtkeyCrypto Point}

/-- The keys with which the revoked scripts are made again. -/
theorem KeysHeld.withRevokedKeys {base : Fundkeys} (hheld : KeysHeld crypto base chan)
    (secret : Bytes) (index : UInt64) :
    KeysHeld crypto base (chan.withRevokedKeys crypto secret index) := by
  apply KeysHeld.renewed
  · exact congrArg (fun pubkeys : Fundkeys =>
      { pubkeys with
        perCommit := crypto.pub (lnDerkeyCreateSecret crypto chan.privData.storageSeed index) })
      hheld.points
  · exact congrArg (fun priv : Fundkeys =>
      { priv with perCommit := lnDerkeyCreateSecret crypto chan.privData.storageSeed index })
      hheld.secrets

theorem Fundkeys.Drawn.withRevokedKeys (hdrawn : chan.privData.priv.Drawn crypto)
    (secret : Bytes) (index : UInt64) :
    (chan.withRevokedKeys crypto secret index).privData.priv.Drawn crypto := by
  have hpriv : (chan.withRevokedKeys crypto secret index).privData.priv =
      { chan.privData.priv with
        perCommit := lnDerkeyCreateSecret crypto chan.privData.storageSeed index } := rfl
  rw [hpriv]
  exact ⟨hdrawn.revocation, hdrawn.payment, hdrawn.delayed, hdrawn.htlc⟩

/-- The keys of the peer's scripts have the length of points. -/
structure PeerKeysSized (chan : LnSelf) : Prop where
  sized : chan.fundingRemote.scriptpubkeys.Sized
  remotekey : chan.fundingRemote.scriptpubkeys.remotekey.length = 33

theorem peerKeysSized {base : Fundkeys} (hlaw : curve.Lawful) (hcurve : crypto.OnCurve curve)
    (hheld : KeysHeld crypto base chan) (hmade : RevokedKeysMade curve crypto chan) :
    PeerKeysSized chan := by
  obtain ⟨revocation, hrevocation⟩ := Option.isSome_iff_exists.mp hmade.revocation
  obtain ⟨delayed, hdelayed⟩ := Option.isSome_iff_exists.mp hmade.delayed
  obtain ⟨payment, hpayment⟩ := Option.isSome_iff_exists.mp hmade.payment
  obtain ⟨htlc, hhtlc⟩ := Option.isSome_iff_exists.mp hmade.htlc
  obtain ⟨peerHtlc, hpeerHtlc⟩ := Option.isSome_iff_exists.mp hmade.peerHtlc
  have hpeer := hheld.scripts.peer
  refine ⟨⟨?_, ?_, ?_, ?_⟩, ?_⟩
  · rw [hpeer]
    simp only [LnSelf.updateScriptkeys, hcurve.derkeyPubkey _ _ _ hdelayed]
    exact lnDerkeyPubkey_length hlaw hdelayed
  · rw [hpeer]
    simp only [LnSelf.updateScriptkeys, hcurve.derkeyRevocationkey _ _ _ hrevocation]
    exact derkeyRevocationkey_length hlaw hrevocation
  · rw [hpeer]
    simp only [LnSelf.updateScriptkeys, hcurve.derkeyPubkey _ _ _ hpeerHtlc]
    exact lnDerkeyPubkey_length hlaw hpeerHtlc
  · rw [hpeer]
    simp only [LnSelf.updateScriptkeys, hcurve.derkeyPubkey _ _ _ hhtlc]
    exact lnDerkeyPubkey_length hlaw hhtlc
  · rw [hpeer]
    simp only [LnSelf.updateScriptkeys, hcurve.derkeyPubkey _ _ _ hpayment]
    exact lnDerkeyPubkey_length hlaw hpayment

theorem revocationprivkey_length (sha256 : Bytes → Bytes) (base point priv revealed : Bytes) :
    (lnDerkeyRevocationprivkey sha256 base point priv revealed).length = btcSzPrivkey := by
  rw [lnDerkeyRevocationprivkey, BigEndian.length_encode]
  rfl

/-- With the revocation key an output with the script of `to_local` is taken at once. -/
theorem revokedTolocal_unlocks {self : LnSelf} {revoked : RevokedClose} {keys : Scriptkeys}
    {delay : UInt16} (hsound : crypto.Sound)
    (hkey : (lnSignerTolocalKey crypto self (some revoked.sec)).SignsFor crypto keys.revocation)
    (hsized : keys.Sized) (hwit : revoked.wit lnRcloseIdxTolocal =
      lnScriptCreateTolocal keys.revocation keys.delayed delay)
    (value : UInt64) (txid : Bytes) (index : Nat) :
    UnlocksOutput crypto (revokedTolocalData crypto self revoked value txid index) value
      (crypto.p2wsh (revoked.wit lnRcloseIdxTolocal)) := by
  refine ⟨⟨.inl rfl, revocationprivkey_length _ _ _ _ _, List.cons_ne_nil _ _⟩, rfl,
    fun sha256 tx _ => ?_⟩
  apply opens_script rfl tolocal_ne_toremote
  rw [hwit]
  exact (tolocal_spends_iff delay hsized.revocation hsized.delayed _).mpr
    ⟨_, _, rfl, .inl ⟨by decide, hsound _ _ _ hkey.priv⟩⟩

theorem revokedToremote_unlocks {self : LnSelf} {remotekey : Bytes}
    (hcurve : crypto.OnCurve curve) (hsound : crypto.Sound)
    (hkey : (lnSignerToremoteKey crypto self).SignsFor crypto remotekey)
    (hremotekey : remotekey.length = 33) (value : UInt64) (txid : Bytes) (index : Nat) :
    UnlocksOutput crypto (revokedToremoteData crypto self value txid index) value
      (.p2wpkh (crypto.hash160 remotekey)) := by
  refine ⟨⟨.inr (.inl rfl), getSecret_length hcurve _ _ _, List.cons_ne_nil _ _⟩, rfl,
    fun sha256 tx _ => ?_⟩
  have hwit : (revokedToremoteData crypto self value txid index).wit =
      [(lnSignerToremoteKey crypto self).priv, remotekey] := by
    rw [← hkey.pub]
    rfl
  exact opens_pubKey hwit rfl hremotekey (hsound _ _ _ hkey.priv)

/-- A penalty transaction shows the revocation key and signs with it. -/
theorem penaltyHtlc_opens {self : LnSelf} {revoked : RevokedClose} {keys : Scriptkeys}
    {info : LnScriptHtlcinfo} {value : UInt64} {wit index : Nat} {txid : Bytes} {close : CloseTx}
    (hsound : crypto.Sound) (hdigests : crypto.Digests)
    (hkey : (lnSignerTolocalKey crypto self (some revoked.sec)).SignsFor crypto keys.revocation)
    (hsized : keys.Sized)
    (hwit : revoked.wit wit = (lnScriptHtlcinfoScript crypto keys info).script)
    (hmade : lnRevokedhtlcCreateSpenttx crypto self revoked value wit txid index = some close) :
    OpensOutput crypto close value (lnScriptHtlcinfoScript crypto keys info).script := by
  obtain ⟨type, -, hmade⟩ := Option.bind_eq_some_iff.mp hmade
  obtain ⟨sighash, hsighash, rfl⟩ := Option.map_eq_some_iff.mp hmade
  rw [calcSighashP2wsh] at hsighash
  split_ifs at hsighash
  obtain rfl := Option.some.inj hsighash
  refine ⟨[_, _], congrArg (fun script : Bytes => [_, _, script]) hwit, ?_⟩
  rw [htlc_spends_iff ⟨hsized.localHtlckey, hsized.remoteHtlckey, hdigests.hash160_length _,
    hdigests.ripemd160_length _⟩]
  have hpub : (lnSignerGetRevokesec crypto self self.fundingRemote.pubkeys.perCommit
      revoked.sec).pub = keys.revocation := hkey.pub
  rw [hwit, hpub]
  exact .revoked rfl (hsound _ _ _ hkey.priv)

namespace RevokedCommit

variable {commit : RevokedCommit crypto chan} {made : RevokedBuild}

/-- What is found for an HTLC output holds its witness script. -/
theorem wit_of_vout (hsizes : DigestSizes crypto) (hsaved : commit.PhashSaved phashSearch)
    (hcollision : commit.NoCollision)
    (hlooped : Looped crypto commit.keys phashSearch commit.tolocal commit.build.bufWs
      commit.scripts made) {out : BtcVout} (hmem : out ∈ commit.vout) {info : LnScriptHtlcinfo}
    (hopt : out.opt = .htlc info) {wit : Nat} (hvout : made.revoked.vout wit = out.script.bytes) :
    2 ≤ wit ∧ made.revoked.vout wit ≠ [] ∧ made.revoked.wit wit = info.script := by
  obtain ⟨pos, entry, rfl, hentry⟩ := entry_at hsizes hlooped hcollision hmem hopt hvout
  obtain ⟨hscript, hwit⟩ := hlooped.entries pos entry hentry
  obtain ⟨other, -, _, -, hsearch, hother⟩ :=
    htlc_of_entry hsizes hsaved (List.mem_of_getElem? hentry)
  have hsame : other.script.bytes = out.script.bytes := by
    rw [← hother, ← hscript, hvout]
  rw [hsame] at hsearch
  refine ⟨Nat.le_add_right 2 pos, ?_, ?_⟩
  · rw [hscript]
    exact nofun
  · rw [hwit]
    exact (hsaved out hmem info hopt entry hsearch).2

/-- The keys are those of the commitment, and what is found has its type. -/
theorem entriesTyped_of_close {after : LnSelf}
    (hmade : lnCloseRemoterevoked crypto phashSearch chan commit.tx = some (after, made)) :
    after = chan.withRevokedKeys crypto commit.secret commit.index ∧ EntriesTyped made := by
  have hreceived := commit.received
  rw [← index] at hreceived
  rw [lnCloseRemoterevoked, commit.calcCommitNum_eq, ← index, hreceived, Option.map_some] at hmade
  obtain ⟨rfl, rfl⟩ := Prod.mk.inj (Option.some.inj hmade)
  exact ⟨rfl, entriesTyped_foldl _ _ (entriesTyped_start _ _ _)⟩

/-- Whatever commitment the peer has revoked, once its transaction is seen everything that is made
of its outputs opens them. -/
theorem takenBack_of_reachable (hlaw : curve.Lawful) (hcurve : crypto.OnCurve curve)
    (hsound : crypto.Sound) (hdigests : crypto.Digests) (hsizes : DigestSizes crypto)
    {state : ChannelState} (hreach : (channelSystem crypto).Reachable state)
    (hdrawn : state.self.privData.priv.Drawn crypto) (commit : RevokedCommit crypto state.self)
    (hsecret : (crypto.priv2pub commit.secret).isSome = true)
    (hsaved : commit.PhashSaved phashSearch) (hcollision : commit.NoCollision)
    {after : LnSelf} {made : RevokedBuild}
    (hmade : lnCloseRemoterevoked crypto phashSearch state.self commit.tx = some (after, made))
    (hkeys : RevokedKeysMade curve crypto after) : commit.TakenBack after made := by
  obtain ⟨base, hheld⟩ := keysHeld_of_reachable hreach
  obtain ⟨hafter, htyped⟩ := entriesTyped_of_close hmade
  have hprev : KeysHeld crypto base after := hafter ▸ hheld.withRevokedKeys _ _
  have hdrawnAfter : after.privData.priv.Drawn crypto := hafter ▸ hdrawn.withRevokedKeys _ _
  have hscriptkeys : after.fundingRemote.scriptpubkeys = commit.keys := hafter ▸ commit.keys_eq
  have hperCommit : after.fundingRemote.pubkeys.perCommit = crypto.pub commit.secret :=
    congrArg (fun self : LnSelf => self.fundingRemote.pubkeys.perCommit) hafter
  obtain ⟨after', made', hmade', hlooped, -, -, hsec, -⟩ :=
    commit.closeRemoterevoked_eq phashSearch
  obtain ⟨rfl, rfl⟩ := Prod.mk.inj (Option.some.inj (hmade.symm.trans hmade'))
  obtain ⟨hsized, hremotekey⟩ := peerKeysSized hlaw hcurve hprev hkeys
  have hready := hprev.signerReady hlaw hcurve hdrawnAfter
  have hpoint : crypto.priv2pub made.revoked.sec = some after.fundingRemote.pubkeys.perCommit := by
    obtain ⟨point, hpoint⟩ := Option.isSome_iff_exists.mp hsecret
    rw [hsec, hperCommit, Crypto.pub, hpoint, Option.getD_some]
  have hrevocation := hready.revoked _ hpoint hkeys.revocation
  have htoremote := hready.toremote hkeys.payment
  rw [hscriptkeys] at hsized hremotekey hrevocation htoremote
  have htolocalWit : made.revoked.wit lnRcloseIdxTolocal = lnScriptCreateTolocal
      commit.keys.revocation commit.keys.delayed state.self.commitLocal.toSelfDelay :=
    hlooped.first.2.trans commit.bufWs_eq
  refine ⟨fun index out info wit hout hopt hvout => ?_, fun index out hout hopt => ?_,
    revokedTolocal_unlocks hsound hrevocation hsized htolocalWit, fun index out hout hopt => ?_⟩
  · have hmem := List.mem_of_getElem? hout
    obtain ⟨hwit, hsome, hscript⟩ := wit_of_vout hsizes hsaved hcollision hlooped hmem hopt hvout
    obtain ⟨type, htype⟩ := Option.isSome_iff_exists.mp (htyped wit hwit hsome)
    refine ⟨type, htype, fun close hclose => ?_⟩
    rcases commit.vout_cases hmem with ⟨hother, -⟩ | ⟨hother, -⟩ | ⟨info', hsame, -, bare, rfl⟩
    · cases hopt.symm.trans hother
    · cases hopt.symm.trans hother
    · obtain rfl := VoutOpt.htlc.inj (hopt.symm.trans hsame)
      exact penaltyHtlc_opens hsound hdigests hrevocation hsized hscript hclose
  · rcases commit.vout_cases (List.mem_of_getElem? hout) with ⟨hother, -⟩ | ⟨-, hscript⟩ |
      ⟨info, hother, -⟩
    · cases hopt.symm.trans hother
    · have hfirst : made.revoked.wit lnRcloseIdxTolocal = commit.build.bufWs := hlooped.first.2
      rw [hscript, hfirst]
    · cases hopt.symm.trans hother
  · have hscript : out.script = .p2wpkh (crypto.hash160 commit.keys.remotekey) :=
      outputs_of_peer (List.mem_of_getElem? hout) hopt
    rw [hscript]
    exact revokedToremote_unlocks hcurve hsound htoremote hremotekey _ _ _

end RevokedCommit

end Keys

/-! ### A revoked transaction -/

/-- What makes a commitment transaction of the peer a revoked one. -/
def isRevoked (signer chan : LnSelf) (commitNum : UInt64) (secret : Bytes) : Bool :=
  decide (commitNum.toNat < 2 ^ 48) && decide (chan.obscured.toNat < 2 ^ 48) &&
  (lnDerkeyStorageGetSecret .scripted chan.peerStorage (lnSecindexInit - commitNum) ==
    some secret) &&
  (signer.obscured == chan.obscured) &&
  (signer.commitLocal.toSelfDelay == chan.commitLocal.toSelfDelay) &&
  ({ signer.fundingLocal.pubkeys with perCommit := [] } ==
    { chan.fundingLocal.pubkeys with perCommit := [] }) &&
  (signer.fundingRemote.pubkeys ==
    { chan.fundingRemote.pubkeys with perCommit := Crypto.scripted.pub secret }) &&
  (signer.fundingRemote.scriptpubkeys ==
    (LnSelf.updateScriptkeys .scripted signer).fundingRemote.scriptpubkeys) &&
  (buildToRemote .scripted signer commitNum 1000).committx.tx.isValid

theorem isRevoked_spec {signer chan : LnSelf} {commitNum : UInt64} {secret : Bytes}
    (hchecked : isRevoked signer chan commitNum secret = true) :
    ∃ commit : RevokedCommit .scripted chan,
      commit.build = buildToRemote .scripted signer commitNum 1000 ∧
        commit.keys = signer.fundingRemote.scriptpubkeys ∧ commit.secret = secret := by
  simp only [isRevoked, Bool.and_eq_true, beq_iff_eq, decide_eq_true_eq] at hchecked
  obtain ⟨⟨⟨⟨⟨⟨⟨⟨hnum, hobscured⟩, hreceived⟩, hsame⟩, hdelay⟩, hown⟩, hpeer⟩, hderived⟩, hvalid⟩ :=
    hchecked
  exact ⟨⟨signer, commitNum, 1000, secret, hnum, hobscured, hreceived, hsame, hdelay, hown, hpeer,
    hderived, hvalid⟩, rfl, rfl, rfl⟩

/-- The node offers an HTLC and signs for it, the peer revokes the commitment before, the node
offers another one, and the peer revokes the commitment that has the first. -/
def scriptedRevoke : List (ChannelState → ChannelLabel) :=
  let cid := symbolicOutpoint.txid
  let point (secret : Nat) : Bytes := Crypto.scripted.pub (BigEndian.encode 32 secret)
  let revoke (secret next : Nat) : ChannelEvent :=
    .recv cid (.revokeAndAck (BigEndian.encode 32 secret) (point next)) {}
  let offer (amountMsat : UInt64) : ChannelEvent :=
    .addHtlc { packet := [], amountMsat, cltvValue := 100, paymentHash := [9] }
  [ .recv cid (.fundingLocked (point 26)) {}, offer 200000000, .idle, .idle, revoke 5 27,
    offer 500000, .idle, .idle, revoke 26 28 ].map fun ev _ => .event ev

/-- The phash database with the first HTLC. -/
def scriptedPhash (keys : Scriptkeys) (script : Bytes) : Option PhashEntry :=
  let entry : PhashEntry := ⟨[9], .received, 100⟩
  if script = (Crypto.scripted.p2wsh (entry.script .scripted keys)).bytes then some entry else none

/-- The keys of the revoked transaction come out, it has the HTLC and pays both sides, and a
penalty transaction is made. -/
def revokedReady (signer chan : LnSelf) : Bool :=
  let build := buildToRemote .scripted signer 1 1000
  let keys := signer.fundingRemote.scriptpubkeys
  let priv := chan.privData.priv
  (Crypto.scripted.priv2pub priv.revocation).isSome &&
  (Crypto.scripted.priv2pub priv.payment).isSome &&
  (Crypto.scripted.priv2pub priv.delayed).isSome &&
  (Crypto.scripted.priv2pub priv.htlc).isSome &&
  build.committx.vout.all (checkHtlc .scripted keys build.bufWs (scriptedPhash keys)) &&
  (build.committx.vout.length == 3) && ((htlcVouts build.committx.vout).length == 1) &&
  (lnCloseRemoterevoked .scripted (scriptedPhash keys) chan build.committx.tx).any fun closed =>
    let own := closed.1.fundingLocal.pubkeys
    let peer := closed.1.fundingRemote.pubkeys
    let sha256 := Crypto.scripted.sha256
    (lnDerkeyRevocationkey residues sha256 own.revocation peer.perCommit).isSome &&
    (lnDerkeyPubkey residues sha256 peer.delayed peer.perCommit).isSome &&
    (lnDerkeyPubkey residues sha256 own.payment peer.perCommit).isSome &&
    (lnDerkeyPubkey residues sha256 own.htlc peer.perCommit).isSome &&
    (lnDerkeyPubkey residues sha256 peer.htlc peer.perCommit).isSome &&
    (lnRevokedhtlcCreateSpenttx .scripted closed.1 closed.2.revoked 200000 lnRcloseIdxHtlc
      (Crypto.scripted.txid build.committx.tx) 0).isSome

theorem scripted_digestSizes : DigestSizes Crypto.scripted where
  sha256 _ := BigEndian.length_encode 32 _
  hash160 _ := length_padTo 20 _

/-- The peer sends its second commitment transaction, which has an HTLC and pays both sides, after
it has revoked it. -/
theorem takenBack_of_reachable_second :
    ∃ (state : ChannelState) (commit : RevokedCommit .scripted state.self) (after : LnSelf)
        (made : RevokedBuild),
      (channelSystem .scripted).Reachable state ∧
      commit.vout.length = 3 ∧ (htlcVouts commit.vout).length = 1 ∧
      lnCloseRemoterevoked .scripted (scriptedPhash commit.keys) state.self commit.tx =
        some (after, made) ∧
      (lnRevokedhtlcCreateSpenttx .scripted after made.revoked 200000 lnRcloseIdxHtlc
        (Crypto.scripted.txid commit.tx) 0).isSome = true ∧
      commit.TakenBack after made := by
  have hopened : ((scriptedFundee 500000000).bind fun outcome =>
      (channelSystem .scripted).trail permitAll (.afterFunding outcome) [] scriptedRevoke).any
        (fun final =>
          -- the state in which the node signed the transaction that is revoked in the end
          let signer := (final.2.getD 4 final.1).self
          isRevoked signer final.1.self 1 (BigEndian.encode 32 26) &&
          (Crypto.scripted.priv2pub (BigEndian.encode 32 26)).isSome &&
          revokedReady signer final.1.self) = true := by
    decide +kernel
  obtain ⟨⟨state, past⟩, hfound, hchecked⟩ := (Option.any_eq_true _ _).mp hopened
  obtain ⟨outcome, houtcome, htrail⟩ := Option.bind_eq_some_iff.mp hfound
  simp only [Bool.and_eq_true] at hchecked
  obtain ⟨⟨hrevoked, hsecret⟩, hready⟩ := hchecked
  obtain ⟨commit, hbuild, hsigned, hsame⟩ := isRevoked_spec hrevoked
  rw [← hsame] at hsecret
  simp only [revokedReady, ← hbuild, ← hsigned, Bool.and_eq_true, beq_iff_eq] at hready
  obtain ⟨⟨⟨⟨⟨⟨⟨hrev, hpay⟩, hdel⟩, hhtlc⟩, hhtlcs⟩, hlength⟩, hone⟩, hclosed⟩ := hready
  obtain ⟨⟨after, made⟩, hmade, hkeys⟩ := (Option.any_eq_true _ _).mp hclosed
  simp only [Bool.and_eq_true] at hkeys
  obtain ⟨⟨⟨⟨⟨hrevocation, hdelayed⟩, hpayment⟩, howned⟩, hpeerHtlc⟩, hpenalty⟩ := hkeys
  obtain ⟨hsaved, -, hcollision⟩ := checkHtlc_spec hhtlcs
  have hstart : (channelSystem .scripted).start (.afterFunding outcome) :=
    ⟨outcome, .fundee houtcome, rfl⟩
  have hreach := reachable_of_trail hstart htrail
  exact ⟨state, commit, after, made, hreach, hlength, hone, hmade, hpenalty,
    RevokedCommit.takenBack_of_reachable residues_lawful (ofCurve_onCurve residues _)
      scripted_sound scripted_digests scripted_digestSizes hreach ⟨hrev, hpay, hdel, hhtlc⟩ commit
      hsecret hsaved hcollision hmade ⟨hrevocation, hdelayed, hpayment, howned, hpeerHtlc⟩⟩

/-! ### What a penalty transaction pays -/

/-- Who takes an output that is locked by a closing script as its witness script: with the form of
a public key hash the one that has the key, with the form of a script hash whoever knows the script
that it stands for, and with the form of a witness program nobody. -/
def ClosingWitness (env : Env) (script : Bytes) (items : List Item) : Prop :=
  match script.length with
  | 25 => ∃ sig pub, items = [sig, pub] ∧ env.hash160 pub = (script.drop 3).take 20 ∧
      env.checkSig sig pub = true
  | 23 => ∃ redeem, items = [redeem] ∧ env.hash160 redeem = (script.drop 2).take 20
  | _ => False

theorem drop_eq_getD {script : Bytes} {pos : Nat} (hpos : pos < script.length) :
    script.drop pos = script.getD pos 0 :: script.drop (pos + 1) := by
  rw [List.drop_eq_getElem_cons hpos, List.getD_eq_getElem _ _ hpos]

theorem pubKeyHash_takes {env : Env} {hash : Item} (stack : List Item) :
    (Prog.block [.dup, .hash160, .push hash, .equalVerify, .checkSig] .done).Takes env stack ↔
      ∃ sig pub, stack = [pub, sig] ∧ env.hash160 pub = hash ∧ env.checkSig sig pub = true := by
  match stack with
  | [] => simp [Prog.Takes, Prog.block, Prog.eval]
  | [pub] =>
      by_cases hpub : hash = env.hash160 pub
      · simp [Prog.Takes, Prog.block, Prog.eval, hpub]
      · simp [Prog.Takes, Prog.block, Prog.eval, hpub]
  | pub :: sig :: rest =>
      by_cases hpub : hash = env.hash160 pub
      · simp [Prog.Takes, Prog.block, Prog.eval, hpub, and_comm]
      · simp [Prog.Takes, Prog.block, Prog.eval, hpub, Ne.symm hpub]

/-- The script that a script hash stands for is not run. -/
theorem scriptHash_takes {env : Env} {hash : Item} (stack : List Item) :
    (Prog.block [.hash160, .push hash, .equal] .done).Takes env stack ↔
      ∃ redeem, stack = [redeem] ∧ env.hash160 redeem = hash := by
  match stack with
  | [] => simp [Prog.Takes, Prog.block, Prog.eval, Env.step]
  | [redeem] =>
      by_cases hhash : hash = env.hash160 redeem
      · simp [Prog.Takes, Prog.block, Prog.eval, hhash]
      · simp [Prog.Takes, Prog.block, Prog.eval, hhash, Ne.symm hhash]
  | redeem :: next :: rest => simp [Prog.Takes, Prog.block, Prog.eval]

/-- A witness program leaves two items, of which one would have to be alone. -/
theorem program_takes {env : Env} {hash : Item} (stack : List Item) :
    ¬ (Prog.block [.push [], .push hash] .done).Takes env stack := by
  simp [Prog.Takes, Prog.block, Prog.eval]

/-- The script as the bytes that are checked and what is between them. -/
theorem closingScript_bytes {script : Bytes} (hcheck : lnScriptScriptpkhCheck script = true) :
    (script.length = 25 ∧
      script = [0x76, 0xa9] ++ ((20 :: (script.drop 3).take 20) ++ [0x88, 0xac])) ∨
    (script.length = 23 ∧ script = [0xa9] ++ ((20 :: (script.drop 2).take 20) ++ [0x87])) ∨
    (script.length = 22 ∧ script = [0x00] ++ (20 :: script.drop 2)) ∨
    (script.length = 34 ∧ script = [0x00] ++ (32 :: script.drop 2)) := by
  simp only [lnScriptScriptpkhCheck] at hcheck
  cases script with
  | nil => cases hcheck
  | cons first script =>
      cases script with
      | nil => cases hcheck
      | cons second rest =>
          simp only [List.getD_cons_succ, List.getD_cons_zero, List.drop_succ_cons, List.drop_zero]
            at hcheck ⊢
          split at hcheck <;> rename_i hlength <;>
            simp only [Bool.and_eq_true, beq_iff_eq, Bool.false_eq_true] at hcheck
          · obtain ⟨⟨⟨⟨rfl, rfl⟩, hcount⟩, hverify⟩, hcheckSig⟩ := hcheck
            have hrest : rest.length = 23 := by simpa using hlength
            have hend : (rest.drop 1).drop 20 = [0x88, 0xac] := by
              rw [List.drop_drop, drop_eq_getD (by omega), drop_eq_getD (by omega), hverify,
                hcheckSig, List.drop_of_length_le hrest.le]
            have hhash : rest.drop 1 = (rest.drop 1).take 20 ++ [0x88, 0xac] := by
              rw [← hend, List.take_append_drop]
            have hfront : rest = 20 :: rest.drop 1 := by
              rw [← hcount]
              exact @drop_eq_getD rest 0 (by omega)
            exact .inl ⟨hlength, congrArg ([0x76, 0xa9] ++ ·)
              (hfront.trans (congrArg (20 :: ·) hhash))⟩
          · obtain ⟨⟨rfl, rfl⟩, hequal⟩ := hcheck
            have hrest : rest.length = 21 := by simpa using hlength
            have hend : rest.drop 20 = [0x87] := by
              rw [drop_eq_getD (by omega), hequal, List.drop_of_length_le hrest.le]
            have hhash : rest = rest.take 20 ++ [0x87] := by
              rw [← hend, List.take_append_drop]
            exact .inr (.inl ⟨hlength, congrArg ([0xa9, 20] ++ ·) hhash⟩)
          · obtain ⟨rfl, rfl⟩ := hcheck
            exact .inr (.inr (.inl ⟨hlength, rfl⟩))
          · obtain ⟨rfl, rfl⟩ := hcheck
            exact .inr (.inr (.inr ⟨hlength, rfl⟩))

theorem decodes_data {data : Bytes} {count : Nat} (hdata : data.length = count)
    (hcount : count ≤ 75) : Decodes (count.toUInt8 :: data) [.simple (.push data)] := by
  subst hdata
  exact decodes_push hcount

/-- What opens an output that is locked by a closing script. -/
theorem closingScript_spends_iff {env : Env} {script : Bytes}
    (hcheck : lnScriptScriptpkhCheck script = true) (items : List Item) :
    env.spends script items = true ↔ ClosingWitness env script items := by
  have hempty : Decodes [0x00] [.simple (.push [])] := decodes_data rfl (Nat.zero_le 75)
  rcases closingScript_bytes hcheck with ⟨hlength, hbytes⟩ | ⟨hlength, hbytes⟩ |
    ⟨hlength, hbytes⟩ | ⟨hlength, hbytes⟩
  · have hhash : ((script.drop 3).take 20).length = 20 := by simp [hlength]
    have hdup : Decodes [0x76, 0xa9] _ := decodes_ops (by decide)
    have hverify : Decodes [0x88, 0xac] _ := decodes_ops (by decide)
    have hscript : Decodes ([0x76, 0xa9] ++ ((20 :: (script.drop 3).take 20) ++ [0x88, 0xac]))
        (Prog.block [.dup, .hash160, .push ((script.drop 3).take 20), .equalVerify, .checkSig]
          .done).ops :=
      hdup.append ((decodes_data hhash (by decide)).append hverify)
    rw [← hbytes] at hscript
    rw [hscript.spends_iff, pubKeyHash_takes]
    simp only [ClosingWitness, hlength, List.reverse_eq_iff, List.reverse_cons, List.reverse_nil,
      List.nil_append, List.singleton_append]
  · have hhash : ((script.drop 2).take 20).length = 20 := by simp [hlength]
    have hdigest : Decodes [0xa9] _ := decodes_ops (by decide)
    have hequal : Decodes [0x87] _ := decodes_ops (by decide)
    have hscript : Decodes ([0xa9] ++ ((20 :: (script.drop 2).take 20) ++ [0x87]))
        (Prog.block [.hash160, .push ((script.drop 2).take 20), .equal] .done).ops :=
      hdigest.append ((decodes_data hhash (by decide)).append hequal)
    rw [← hbytes] at hscript
    rw [hscript.spends_iff, scriptHash_takes]
    simp only [ClosingWitness, hlength, List.reverse_eq_iff, List.reverse_cons, List.reverse_nil,
      List.nil_append]
  · have hprogram : (script.drop 2).length = 20 := by simp [hlength]
    have hscript : Decodes ([0x00] ++ (20 :: script.drop 2))
        (Prog.block [.push [], .push (script.drop 2)] .done).ops :=
      hempty.append (decodes_data hprogram (by decide))
    rw [← hbytes] at hscript
    rw [hscript.spends_iff]
    simp only [ClosingWitness, hlength, iff_false]
    exact program_takes _
  · have hprogram : (script.drop 2).length = 32 := by simp [hlength]
    have hscript : Decodes ([0x00] ++ (32 :: script.drop 2))
        (Prog.block [.push [], .push (script.drop 2)] .done).ops :=
      hempty.append (decodes_data hprogram (by decide))
    rw [← hbytes] at hscript
    rw [hscript.spends_iff]
    simp only [ClosingWitness, hlength, iff_false]
    exact program_takes _

/-- What a penalty transaction pays is locked by the closing script as a witness script: it can be
opened as its form says, and by nothing else. -/
def PaysClosing (crypto : Crypto) (self : LnSelf) (value : UInt64) (close : CloseTx) : Prop :=
  (∃ type, close.opt = some type ∧ close.tx.vout =
    [(value - (lnScriptFeeCalc self.feeratePerKw 0 []).htlcFee type,
      (crypto.p2wsh self.shutdownScriptpkLocal).bytes)]) ∧
    ∀ (env : Env) (items : List Item),
      env.spends self.shutdownScriptpkLocal items = true ↔
        ClosingWitness env self.shutdownScriptpkLocal items

/-- Whatever is taken back of a revoked HTLC, with a closing script that the peer would accept. -/
theorem penalty_pays {self : LnSelf} {revoked : RevokedClose} {value : UInt64}
    {wit index : Nat} {txid : Bytes} {close : CloseTx}
    (hcheck : lnScriptScriptpkhCheck self.shutdownScriptpkLocal = true)
    (hmade : lnRevokedhtlcCreateSpenttx crypto self revoked value wit txid index = some close) :
    PaysClosing crypto self value close := by
  obtain ⟨type, -, hmade⟩ := Option.bind_eq_some_iff.mp hmade
  obtain ⟨sighash, -, rfl⟩ := Option.map_eq_some_iff.mp hmade
  exact ⟨⟨type, rfl, rfl⟩, fun env items => closingScript_spends_iff hcheck items⟩

/-- A channel that closes to a witness program. -/
def programCloser : LnSelf where
  feeratePerKw := 1000
  shutdownScriptpkLocal := 0x00 :: 20 :: List.replicate 20 7

/-- An HTLC of a revoked transaction. -/
def oneRevoked : RevokedClose where
  cnt := 2
  num := 3
  type := fun _ => some .received
  sec := [9]

/-- What is taken back of that HTLC is lost. -/
theorem penalty_pays_nobody :
    ∃ close, lnRevokedhtlcCreateSpenttx .symbolic programCloser oneRevoked 100000 2 [1] 0 =
        some close ∧
      ∀ (env : Env) (items : List Item),
        env.spends programCloser.shutdownScriptpkLocal items = false := by
  have hsome : (lnRevokedhtlcCreateSpenttx .symbolic programCloser oneRevoked 100000 2 [1]
      0).isSome = true := by
    decide +kernel
  obtain ⟨close, hmade⟩ := Option.isSome_iff_exists.mp hsome
  have hcheck : lnScriptScriptpkhCheck programCloser.shutdownScriptpkLocal = true := by decide
  obtain ⟨-, hopens⟩ := penalty_pays hcheck hmade
  refine ⟨close, hmade, fun env items => ?_⟩
  rw [← Bool.not_eq_true, hopens]
  exact fun hwitness => hwitness

end Ptarmigan
