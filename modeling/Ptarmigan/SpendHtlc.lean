/-
The HTLC transactions of a unilateral close: their witnesses are such as the scripts of the outputs
that they spend take.
-/
import Ptarmigan.Extraction
import Ptarmigan.HtlcIndex
import Ptarmigan.KeyPair
import Ptarmigan.SlotOrder
import Ptarmigan.WitnessScript

namespace Ptarmigan

open ExtKey Script TransitionSystem

variable {crypto : Crypto} {self : LnSelf} {db : List Bytes}

/-- What a witness script is held against by a transaction with one input. -/
def txEnv (crypto : Crypto) (tx : BtcTx) (value : UInt64) (script : Bytes) : Env where
  checkSig sig pub := crypto.verify sig (crypto.sighash tx value script) pub
  hash160 := crypto.hash160
  version := 2
  lockTime := tx.locktime.toNat
  sequence := tx.sequence.toNat

/-- The digests of a crypto library. -/
structure Crypto.Digests (crypto : Crypto) : Prop where
  hash160_length : ∀ item, (crypto.hash160 item).length = 20
  ripemd160_length : ∀ item, (crypto.ripemd160 item).length = 20
  hash160_eq : ∀ item, crypto.hash160 item = crypto.ripemd160 (crypto.sha256 item)

/-- What the last item of a witness may be: nothing, or a stored preimage. -/
structure LastItems (crypto : Crypto) (db : List Bytes) (revocation : Bytes) : Prop where
  preimage_length : ∀ preimage ∈ db, preimage.length = 32
  /-- None is taken for the revocation key. -/
  apart : ∀ last ∈ [] :: db, crypto.hash160 last ≠ crypto.hash160 revocation

theorem mem_of_preimgSearch {hash preimage : Bytes}
    (hfound : preimgSearch crypto db hash = some preimage) :
    preimage ∈ db ∧ crypto.sha256 preimage = hash := by
  obtain ⟨hdigest, -⟩ := List.find?_eq_some_iff_append.mp hfound
  exact ⟨List.mem_of_find?_eq_some hfound, beq_iff_eq.mp hdigest⟩

/-! ### The outputs -/

/-- Who can spend an output of a commitment transaction, and how: the script of `to_remote` is the
plain one of a key, the others are opened by their witnesses and by nothing else.  An HTLC that the
node has received is of the given type there, one that it has offered of the other. -/
def LocksAs (crypto : Crypto) (recvType : LnHtlctype) (keys : Scriptkeys) (delay : UInt16)
    (slots : Slots) (out : BtcVout) : Prop :=
  match out.opt with
  | .toremote => out.script = .p2wpkh (crypto.hash160 keys.remotekey)
  | .tolocal => ∃ script, out.script = crypto.p2wsh script ∧
      ∀ (env : Env) (items : List Item), env.spends script items = true ↔
        TolocalWitness env keys.revocation keys.delayed delay.toNat items
  | .htlc info => out.script = crypto.p2wsh info.script ∧
      (info.type = recvType ↔ (slots info.addHtlcIdx).flag.addhtlc = .recv) ∧
      info.expiry = (slots info.addHtlcIdx).cltvExpiry ∧
      ∀ (env : Env) (items : List Item), env.spends info.script items = true ↔
        HtlcWitness env (crypto.hash160 keys.revocation)
          (crypto.ripemd160 (slots info.addHtlcIdx).paymentSha256) keys info items

/-- The keys in the scripts are compressed points. -/
structure Scriptkeys.Sized (keys : Scriptkeys) : Prop where
  delayed : keys.delayed.length = 33
  revocation : keys.revocation.length = 33
  localHtlckey : keys.localHtlckey.length = 33
  remoteHtlckey : keys.remoteHtlckey.length = 33

theorem CommitFrame.locksAs {frame : CommitFrame} {slots : Slots} {delay : UInt16}
    (hdigests : crypto.Digests) (hsized : frame.keys.Sized)
    (htypes : frame.select.offerType ≠ frame.select.recvType)
    (hbufWs : frame.bufWs =
      lnScriptCreateTolocal frame.keys.revocation frame.keys.delayed delay)
    (hremote : frame.remotePubkey = frame.keys.remotekey) {out : BtcVout}
    (hmem : out ∈ (frame.build crypto slots).committx.vout) :
    LocksAs crypto frame.select.recvType frame.keys delay slots out := by
  rcases committx_vout_cases hmem with ⟨hopt, hscript⟩ | ⟨hopt, hscript⟩ |
    ⟨info, hinfo, hopt, hscript⟩
  · simp only [LocksAs, hopt]
    rw [hscript, ← hremote]
    rfl
  · simp only [LocksAs, hopt]
    refine ⟨frame.bufWs, hscript, fun env items => ?_⟩
    rw [hbufWs]
    exact tolocal_spends_iff delay hsized.revocation hsized.delayed items
  · simp only [LocksAs, hopt]
    obtain ⟨idx, -, rfl⟩ := CommitFrame.mem_htlcinfo hinfo
    have htype : (lnScriptHtlcinfoScript crypto frame.keys
        (frame.select.infoOf (slots idx) idx)).type = frame.select.recvType ↔
          (slots idx).flag.addhtlc = .recv := by
      simp [lnScriptHtlcinfoScript, HtlcSelect.infoOf, htypes]
    refine ⟨hscript, htype, rfl, fun env items => ?_⟩
    -- the script is put in without a look at the one that is there
    exact @htlc_spends_iff env crypto frame.keys (lnScriptHtlcinfoScript crypto frame.keys
      (frame.select.infoOf (slots idx) idx)) ⟨hsized.localHtlckey, hsized.remoteHtlckey,
        hdigests.hash160_length _, hdigests.ripemd160_length _⟩ items

/-- Each output of both commitment transactions is spent in the ways that its kind has. -/
theorem commitOutputs_lockAs (hdigests : crypto.Digests)
    (hown : self.fundingLocal.scriptpubkeys.Sized)
    (hpeer : self.fundingRemote.scriptpubkeys.Sized) (commitNum dustLimitSat : UInt64)
    (toSelfDelay : UInt16) :
    (∀ out ∈ (buildToLocal crypto self commitNum toSelfDelay dustLimitSat).committx.vout,
      LocksAs crypto .received self.fundingLocal.scriptpubkeys toSelfDelay self.cnlAddHtlc out) ∧
    ∀ out ∈ (buildToRemote crypto self commitNum dustLimitSat).committx.vout,
      LocksAs crypto .offered self.fundingRemote.scriptpubkeys self.commitLocal.toSelfDelay
        self.cnlAddHtlc out := by
  constructor
  · intro out hmem
    rw [buildToLocal_eq_build] at hmem
    exact CommitFrame.locksAs hdigests hown LnHtlctype.noConfusion rfl rfl hmem
  · intro out hmem
    rw [buildToRemote_eq_build] at hmem
    exact CommitFrame.locksAs hdigests hpeer LnHtlctype.noConfusion rfl rfl hmem

/-- An HTLC output of a commitment transaction, and the slot that it is for. -/
structure HtlcOutOf (crypto : Crypto) (keys : Scriptkeys) (slots : Slots) (commit : Committx)
    (out : Nat × UInt64 × LnScriptHtlcinfo) : Prop where
  vout : ∃ vout, commit.vout[out.1]? = some vout ∧ vout.opt = .htlc out.2.2 ∧
    vout.value = out.2.1 ∧ vout.script = crypto.p2wsh out.2.2.script
  script : out.2.2 = lnScriptHtlcinfoScript crypto keys out.2.2
  hash : out.2.2.preimageHash = (slots out.2.2.addHtlcIdx).paymentSha256

theorem CommitFrame.htlcOut_of_mem {frame : CommitFrame} {slots : Slots}
    {out : Nat × UInt64 × LnScriptHtlcinfo}
    (hmem : out ∈ htlcVouts (frame.build crypto slots).committx.vout) :
    HtlcOutOf crypto frame.keys slots (frame.build crypto slots).committx out := by
  obtain ⟨index, value, info⟩ := out
  obtain ⟨vout, hvout, hopt, hvalue⟩ := mem_htlcVouts.mp hmem
  have hcases := committx_vout_cases (List.mem_of_getElem? hvout)
  rcases hcases with ⟨hother, -⟩ | ⟨hother, -⟩ | ⟨info', hinfo, hsame, hscript⟩
  · rw [hopt] at hother
    cases hother
  · rw [hopt] at hother
    cases hother
  · obtain rfl := VoutOpt.htlc.inj (hopt.symm.trans hsame)
    obtain ⟨idx, -, rfl⟩ := CommitFrame.mem_htlcinfo hinfo
    exact ⟨⟨vout, hvout, hopt, hvalue, hscript⟩, rfl, rfl⟩

/-! ### The witnesses -/

/-- The timeout and the success transaction open the output with both signatures. -/
theorem localHtlcTx_opens {commit : Committx} {out : Nat × UInt64 × LnScriptHtlcinfo}
    {tx : BtcTx} {sigRemote : Bytes} (hsound : crypto.Sound)
    (hdigests : crypto.Digests)
    (hlast : LastItems crypto db self.fundingLocal.scriptpubkeys.revocation)
    (hlocal : self.fundingLocal.scriptpubkeys.localHtlckey.length = 33)
    (hremote : self.fundingLocal.scriptpubkeys.remoteHtlckey.length = 33)
    (hout : HtlcOutOf crypto self.fundingLocal.scriptpubkeys self.cnlAddHtlc commit out)
    (hkey : (lnSignerHtlcLocalkey crypto self).SignsFor crypto
      self.fundingLocal.scriptpubkeys.localHtlckey)
    (hspends : CommitSide.own.spends (preimgSearch crypto db) self out.2.2 = true) :
    ∃ items, (localHtlcTx crypto (preimgSearch crypto db) self out (tx, sigRemote)).witness =
        items ++ [out.2.2.script] ∧
      (crypto.verify sigRemote (crypto.sighash tx out.2.1 out.2.2.script)
          self.fundingLocal.scriptpubkeys.remoteHtlckey = true →
        (txEnv crypto tx out.2.1 out.2.2.script).spends out.2.2.script items = true) := by
  obtain ⟨index, value, info⟩ := out
  have hscript : info = lnScriptHtlcinfoScript crypto self.fundingLocal.scriptpubkeys info :=
    hout.script
  have hhash : info.preimageHash = (self.cnlAddHtlc info.addHtlcIdx).paymentSha256 := hout.hash
  have hsized : HtlcSized crypto self.fundingLocal.scriptpubkeys info :=
    ⟨hlocal, hremote, hdigests.hash160_length _, hdigests.ripemd160_length _⟩
  have hsigLocal : crypto.verify (crypto.sign (lnSignerHtlcLocalkey crypto self).priv
      (crypto.sighash tx value info.script)) (crypto.sighash tx value info.script)
        self.fundingLocal.scriptpubkeys.localHtlckey = true := hsound _ _ _ hkey.priv
  -- what the last item is and why it opens the way of both keys
  have hopened : ∀ last ∈ [] :: db,
      OpensBoth (txEnv crypto tx value info.script)
        (crypto.ripemd160 info.preimageHash) info last →
      crypto.verify sigRemote (crypto.sighash tx value info.script)
        self.fundingLocal.scriptpubkeys.remoteHtlckey = true →
      (txEnv crypto tx value info.script).spends info.script [[], sigRemote,
        crypto.sign (lnSignerHtlcLocalkey crypto self).priv (crypto.sighash tx value info.script),
        last] = true := by
    intro last hmem hopens hverify
    have hspend := (@htlc_spends_iff (txEnv crypto tx value info.script) _ _ _ hsized
      [[], sigRemote, crypto.sign (lnSignerHtlcLocalkey crypto self).priv
        (crypto.sighash tx value info.script), last]).mpr
      (.both (hlast.apart last hmem) hopens hverify hsigLocal)
    rwa [← hscript] at hspend
  cases htype : info.type with
  | offered =>
      have hwitness : (localHtlcTx crypto (preimgSearch crypto db) self (index, value, info)
          (tx, sigRemote)).witness = [[], sigRemote, crypto.sign
            (lnSignerHtlcLocalkey crypto self).priv (crypto.sighash tx value info.script), []] ++
              [info.script] := by
        simp only [localHtlcTx, htype]
        rfl
      refine ⟨_, hwitness, hopened [] List.mem_cons_self ?_⟩
      simp [OpensBoth, htype]
  | received =>
      have hfound : (preimgSearch crypto db
          (self.cnlAddHtlc info.addHtlcIdx).paymentSha256).isSome = true := by
        simpa [CommitSide.spends, htype] using hspends
      obtain ⟨preimage, hpreimage⟩ := Option.isSome_iff_exists.mp hfound
      obtain ⟨hstored, hdigest⟩ := mem_of_preimgSearch hpreimage
      have hlength := hlast.preimage_length _ hstored
      have hwitness : (localHtlcTx crypto (preimgSearch crypto db) self (index, value, info)
          (tx, sigRemote)).witness = [[], sigRemote, crypto.sign
            (lnSignerHtlcLocalkey crypto self).priv (crypto.sighash tx value info.script),
              preimage] ++ [info.script] := by
        simp only [localHtlcTx, htype, hpreimage]
        rfl
      refine ⟨_, hwitness, hopened preimage (List.mem_cons_of_mem _ hstored) ?_⟩
      simp only [OpensBoth, htype]
      refine ⟨hlength, ?_⟩
      rw [hhash, ← hdigest]
      exact hdigests.hash160_eq preimage

/-! ### The unilateral close -/

theorem localSpenthtlc_tx {build : CommitBuild} {out : Nat × UInt64 × LnScriptHtlcinfo}
    {close : CloseHtlc} {spend : BtcTx × Bytes}
    (hspend : createToLocalSpenthtlc crypto (preimgSearch crypto db) self build out = some close)
    (hsome : close.spend = some spend) :
    spend.1 = htlctxOf crypto build.feeinfo build.bufWs self.commitLocal.txid out ∧
      spend.2 = (self.cnlAddHtlc out.2.2.addHtlcIdx).signature := by
  unfold createToLocalSpenthtlc at hspend
  by_cases hskip : out.2.2.type = .received ∧
      (preimgSearch crypto db (self.cnlAddHtlc out.2.2.addHtlcIdx).paymentSha256).isNone
  · rw [if_pos hskip] at hspend
    obtain rfl := Option.some.inj hspend
    cases hsome
  · rw [if_neg hskip] at hspend
    obtain ⟨sighash, -, rfl⟩ := Option.map_eq_some_iff.mp hspend
    obtain rfl := Option.some.inj hsome
    exact ⟨rfl, rfl⟩

/-- The spending transactions are made with the id of the transaction that is broadcast. -/
theorem createToLocalClose_htlcs {commitNum : UInt64} {toSelfDelay : UInt16}
    {dustLimitSat : UInt64} {unilateral : UnilateralTx}
    (hclose : (createToLocalClose crypto (preimgSearch crypto db) self commitNum toSelfDelay
      dustLimitSat).1 = some unilateral) :
    unilateral.build = buildToLocal crypto self commitNum toSelfDelay dustLimitSat ∧
      ∀ close ∈ unilateral.htlcs, close.out ∈ htlcVouts unilateral.build.committx.vout ∧
        CommitSide.own.spends (preimgSearch crypto db) self close.out.2.2 = close.spend.isSome ∧
        ∀ spend, close.spend = some spend →
          spend.1 = htlctxOf crypto unilateral.build.feeinfo unilateral.build.bufWs
            (crypto.txid unilateral.build.committx.tx) close.out ∧
          spend.2 = (self.cnlAddHtlc close.out.2.2.addHtlcIdx).signature := by
  unfold createToLocalClose at hclose
  generalize hbuild : buildToLocal crypto self commitNum toSelfDelay dustLimitSat = build at hclose
  cases hsign : signCommittx crypto self build.committx.tx with
  | none =>
      simp only [hsign] at hclose
      cases hclose
  | some bufSig =>
      by_cases hverify : createToLocalSignVerify crypto self build.committx.tx bufSig = true
      · simp only [hsign, if_pos hverify] at hclose
        obtain ⟨htlcs, hhtlcs, rfl⟩ := Option.map_eq_some_iff.mp hclose
        refine ⟨rfl, fun close hmem => ?_⟩
        obtain ⟨out, hout, hspend⟩ := exists_left_of_mem (forall₂_of_mapM hhtlcs) hmem
        obtain ⟨rfl, hspends, -⟩ := localSpenthtlc_spec hspend
        exact ⟨hout, Bool.eq_iff_iff.mpr hspends, fun spend => localSpenthtlc_tx hspend⟩
      · simp only [hsign, if_neg hverify] at hclose
        cases hclose

/-- Both HTLC keys of the own commitment transaction could be derived. -/
structure HtlcKeysMade {Point : Type} [AddCommGroup Point] [DecidableEq Point]
    (curve : ExtkeyCrypto Point) (crypto : Crypto) (chan : LnSelf) : Prop where
  localHtlckey : (lnDerkeyPubkey curve crypto.sha256 chan.fundingLocal.pubkeys.htlc
    chan.fundingLocal.pubkeys.perCommit).isSome = true
  remoteHtlckey : (lnDerkeyPubkey curve crypto.sha256 chan.fundingRemote.pubkeys.htlc
    chan.fundingLocal.pubkeys.perCommit).isSome = true

/-- The transaction spends an HTLC output of the commitment transaction, and with the peer's
signature stored in the slot, when that is one over it, its witness opens the output. -/
def OpensHtlc (crypto : Crypto) (chan : LnSelf) (commit : Committx) (close : CloseTx) : Prop :=
  ∃ (vout : BtcVout) (info : LnScriptHtlcinfo) (items : List Bytes),
    close.tx.vinTxid = crypto.txid commit.tx ∧
    commit.vout[close.tx.vinIndex]? = some vout ∧ vout.opt = .htlc info ∧
    vout.script = crypto.p2wsh info.script ∧ close.witness = items ++ [info.script] ∧
    (crypto.verify (chan.cnlAddHtlc info.addHtlcIdx).signature
        (crypto.sighash close.tx vout.value info.script)
        chan.fundingLocal.scriptpubkeys.remoteHtlckey = true →
      (txEnv crypto close.tx vout.value info.script).spends info.script items = true)

section Keys

variable {Point : Type} [AddCommGroup Point] [DecidableEq Point] {curve : ExtkeyCrypto Point}

theorem lnDerkeyPubkey_length (hlaw : curve.Lawful) {sha256 : Bytes → Bytes}
    {base point pub : Bytes} (hmade : lnDerkeyPubkey curve sha256 base point = some pub) :
    pub.length = 33 := by
  simp only [lnDerkeyPubkey, btcUtilEcpMuladd] at hmade
  split at hmade
  · cases hmade
  · split at hmade
    · cases hmade
    · split_ifs at hmade
      obtain rfl := Option.some.inj hmade
      exact hlaw.compress_length _

/-- The keys of the commitment transaction that the peer signed last. -/
theorem KeysHeld.withPrevKeys {base : Fundkeys} (hheld : KeysHeld crypto base self) :
    KeysHeld crypto base (self.withPrevKeys crypto) := by
  apply KeysHeld.renewed
  · exact congrArg (fun pubkeys : Fundkeys =>
      { pubkeys with perCommit := (self.createPrevPercommitsec crypto).2 }) hheld.points
  · exact congrArg (fun priv : Fundkeys =>
      { priv with perCommit := (self.createPrevPercommitsec crypto).1 }) hheld.secrets

theorem KeysHeld.htlckeys_length {base : Fundkeys} (hlaw : curve.Lawful)
    (hcurve : crypto.OnCurve curve) (hheld : KeysHeld crypto base self)
    (hkeys : HtlcKeysMade curve crypto self) :
    self.fundingLocal.scriptpubkeys.localHtlckey.length = 33 ∧
      self.fundingLocal.scriptpubkeys.remoteHtlckey.length = 33 := by
  obtain ⟨localPub, hlocal⟩ := Option.isSome_iff_exists.mp hkeys.localHtlckey
  obtain ⟨remotePub, hremote⟩ := Option.isSome_iff_exists.mp hkeys.remoteHtlckey
  rw [hheld.scripts.own]
  simp only [LnSelf.updateScriptkeys, hcurve.derkeyPubkey _ _ _ hlocal,
    hcurve.derkeyPubkey _ _ _ hremote]
  exact ⟨lnDerkeyPubkey_length hlaw hlocal, lnDerkeyPubkey_length hlaw hremote⟩

/-- Whenever the node closes a channel alone, each of its HTLC transactions opens the output that
it spends. -/
theorem unilateralHtlcs_open (hlaw : curve.Lawful) (hcurve : crypto.OnCurve curve)
    (hsound : crypto.Sound) {state : ChannelState}
    (hreach : (channelSystem crypto).Reachable state)
    (hdrawn : state.self.privData.priv.Drawn crypto)
    (hkeys : HtlcKeysMade curve crypto (state.self.withPrevKeys crypto))
    (hdigests : crypto.Digests)
    (hlast : LastItems crypto db
      (state.self.withPrevKeys crypto).fundingLocal.scriptpubkeys.revocation) {close : LnCloseForce}
    (hclose : lnCloseUnilateral crypto (preimgSearch crypto db) state.self = some close)
    {entry : CloseEntry} (hentry : entry ∈ close.htlcs) {tx : CloseTx}
    (htx : entry.tx = some tx) :
    OpensHtlc crypto (state.self.withPrevKeys crypto) close.commit tx := by
  obtain ⟨base, hheld⟩ := keysHeld_of_reachable hreach
  have hprev := hheld.withPrevKeys
  have hready := hprev.signerReady hlaw hcurve ⟨hdrawn.revocation, hdrawn.payment, hdrawn.delayed,
    hdrawn.htlc⟩
  obtain ⟨unilateral, hunilateral, rfl⟩ := Option.map_eq_some_iff.mp hclose
  obtain ⟨spending, hmem, rfl⟩ := List.mem_map.mp hentry
  obtain ⟨spend, hspend, rfl⟩ := Option.map_eq_some_iff.mp htx
  obtain ⟨hbuild, hall⟩ := createToLocalClose_htlcs hunilateral
  obtain ⟨hout, hspends, hmade⟩ := hall spending hmem
  obtain ⟨hspendTx, hsig⟩ := hmade spend hspend
  rw [hbuild, buildToLocal_eq_build] at hout
  have hown := CommitFrame.htlcOut_of_mem hout
  rw [← buildToLocal_eq_build, ← hbuild] at hown
  obtain ⟨vout, hvout, hopt, hvalue, hscript⟩ := hown.vout
  have hindex : spend.1.vinIndex = spending.out.1 := by
    rw [hspendTx]
    rfl
  have hspendsOut : CommitSide.own.spends (preimgSearch crypto db) (state.self.withPrevKeys crypto)
      spending.out.2.2 = true := by
    rw [hspends, hspend]
    rfl
  have hkey := hready.htlcLocal hkeys.localHtlckey
  obtain ⟨hlocal, hremote⟩ := hprev.htlckeys_length hlaw hcurve hkeys
  obtain ⟨items, hwitness, hopens⟩ := @localHtlcTx_opens _ _ _ _ _ spend.1 spend.2 hsound
    hdigests hlast hlocal hremote hown hkey hspendsOut
  refine ⟨vout, spending.out.2.2, items, ?_, ?_, hopt, hscript, hwitness, ?_⟩
  · exact congrArg BtcTx.vinTxid hspendTx
  · exact (congrArg (unilateral.build.committx.vout[·]?) hindex).trans hvout
  · rw [hvalue, ← hsig]
    exact hopens

end Keys

/-! ### A channel with scripts -/

/-- A digest that tells the short from the long, and the long by their lengths. -/
def scriptedDigest (item : Bytes) : Bytes :=
  BigEndian.encode 32 (if item.length ≤ 32 then 5 else item.length)

/-- The keys of the residues; a signature is the private key that made it. -/
def Crypto.scripted : Crypto :=
  .ofCurve residues { Crypto.symbolic with
    sha256 := scriptedDigest
    hash160 := fun item => padTo 20 (scriptedDigest item).reverse
    ripemd160 := fun item => padTo 20 item.reverse
    sign := fun priv _ => priv
    verify := fun sig _ pub => btcKeysPriv2pub residues sig == some pub }

theorem scripted_digests : Crypto.scripted.Digests where
  hash160_length _ := length_padTo 20 _
  ripemd160_length _ := length_padTo 20 _
  hash160_eq _ := rfl

theorem scripted_sound : Crypto.scripted.Sound := by
  intro priv pub hash hpub
  exact beq_iff_eq.mpr hpub

theorem scripted_lastItems {revocation : Bytes}
    (hpreimages : ∀ preimage ∈ db, preimage.length = 32) (hrevocation : revocation.length = 33) :
    LastItems .scripted db revocation := by
  refine ⟨hpreimages, fun last hmem => ?_⟩
  have hshort : last.length ≤ 32 := by
    rcases List.mem_cons.mp hmem with rfl | hstored
    · decide
    · exact (hpreimages last hstored).le
  change padTo 20 (scriptedDigest last).reverse ≠ padTo 20 (scriptedDigest revocation).reverse
  rw [scriptedDigest, if_pos hshort, scriptedDigest, hrevocation]
  decide

/-- An `open_channel` with the public keys. -/
def scriptedOpen (pushMsat : UInt64) : LnOpenChannel :=
  { symbolicOpen 1000000 pushMsat with
    pubkeys := (residueKeys 20).publicOf .scripted (Crypto.scripted.pub
      (residueKeys 20).perCommit) }

def scriptedFundee (pushMsat : UInt64) : Option Outcome :=
  openedAsFundee .scripted (lnInit (List.replicate 32 1) [] false) (scriptedOpen pushMsat)
    symbolicPrm (residueKeys 10) symbolicOutpoint (residueKeys 20).funding

/-- The peer adds an HTLC of 300000 sat and signs it with its derived key. -/
def scriptedAdd : List (ChannelState → ChannelLabel) :=
  [ fun _ => .event (.recv symbolicOutpoint.txid
      (.updateAddHtlc 0 300000000 (BigEndian.encode 32 5) 100 []) {}),
    fun _ => .event (.recv symbolicOutpoint.txid
      (.commitmentSigned (residueKeys 20).funding [BigEndian.encode 32 90]) {}) ]

/-- The signatures that the peer has stored are over the transactions of the close. -/
def storedVerify (prev : LnSelf) (close : LnCloseForce) (tx : CloseTx) : Bool :=
  close.commit.vout.all fun vout =>
    match vout.opt with
    | .htlc info => Crypto.scripted.verify (prev.cnlAddHtlc info.addHtlcIdx).signature
        (Crypto.scripted.sighash tx.tx vout.value info.script)
        prev.fundingLocal.scriptpubkeys.remoteHtlckey
    | .tolocal => true
    | .toremote => true

/-- The node that knows the preimage takes the HTLC of its own commitment transaction. -/
theorem unilateralHtlcs_open_success :
    ∃ (state : ChannelState) (close : LnCloseForce) (entry : CloseEntry) (tx : CloseTx)
        (vout : BtcVout) (info : LnScriptHtlcinfo) (items : List Bytes),
      lnCloseUnilateral .scripted (preimgSearch .scripted [List.replicate 32 7]) state.self =
        some close ∧ entry ∈ close.htlcs ∧ entry.tx = some tx ∧
        close.commit.vout[tx.tx.vinIndex]? = some vout ∧ vout.opt = .htlc info ∧
        tx.witness = items ++ [info.script] ∧
        (txEnv .scripted tx.tx vout.value info.script).spends info.script items = true := by
  have hopened : ((scriptedFundee 0).bind fun outcome =>
      (channelSystem .scripted).trail permitAll (.afterFunding outcome) [] scriptedAdd).any
        (fun final =>
          let self := final.1.self
          let prev := self.withPrevKeys .scripted
          (Crypto.scripted.priv2pub self.privData.priv.revocation).isSome &&
          (Crypto.scripted.priv2pub self.privData.priv.payment).isSome &&
          (Crypto.scripted.priv2pub self.privData.priv.delayed).isSome &&
          (Crypto.scripted.priv2pub self.privData.priv.htlc).isSome &&
          (lnDerkeyPubkey residues Crypto.scripted.sha256 prev.fundingLocal.pubkeys.htlc
            prev.fundingLocal.pubkeys.perCommit).isSome &&
          (lnDerkeyPubkey residues Crypto.scripted.sha256 prev.fundingRemote.pubkeys.htlc
            prev.fundingLocal.pubkeys.perCommit).isSome &&
          (prev.fundingLocal.scriptpubkeys.revocation.length == 33) &&
          (lnCloseUnilateral .scripted (preimgSearch .scripted [List.replicate 32 7]) self).any
            fun close => close.htlcs.any fun entry => entry.tx.any (storedVerify prev close)) =
        true := by
    decide +kernel
  obtain ⟨⟨state, past⟩, hfound, hchecked⟩ := (Option.any_eq_true _ _).mp hopened
  obtain ⟨outcome, houtcome, htrail⟩ := Option.bind_eq_some_iff.mp hfound
  simp only [Bool.and_eq_true, beq_iff_eq] at hchecked
  obtain ⟨⟨⟨⟨⟨⟨⟨hrev, hpay⟩, hdel⟩, hhtlc⟩, hlocal⟩, hremote⟩, hlength⟩, hclosed⟩ := hchecked
  obtain ⟨close, hclose, hentries⟩ := (Option.any_eq_true _ _).mp hclosed
  obtain ⟨entry, hentry, hspends⟩ := List.any_eq_true.mp hentries
  obtain ⟨tx, htx, hverifies⟩ := (Option.any_eq_true _ _).mp hspends
  have hstart : (channelSystem .scripted).start (.afterFunding outcome) :=
    ⟨outcome, .fundee houtcome, rfl⟩
  have hapart : LastItems .scripted [List.replicate 32 7]
      (state.self.withPrevKeys .scripted).fundingLocal.scriptpubkeys.revocation := by
    exact scripted_lastItems (by decide) hlength
  obtain ⟨vout, info, items, -, hvout, hopt, -, hwitness, hopens⟩ :=
    unilateralHtlcs_open residues_lawful (ofCurve_onCurve residues _) scripted_sound
      (reachable_of_trail hstart htrail) ⟨hrev, hpay, hdel, hhtlc⟩ ⟨hlocal, hremote⟩
      scripted_digests hapart hclose hentry htx
  refine ⟨state, close, entry, tx, vout, info, items, hclose, hentry, htx, hvout, hopt, hwitness,
    hopens ?_⟩
  have hverify := List.all_eq_true.mp hverifies vout (List.mem_of_getElem? hvout)
  rwa [hopt] at hverify

/-- An HTLC of the peer is committed by both sides, and the node offers one of its own and signs for
it. -/
def scriptedBoth : List (ChannelState → ChannelLabel) :=
  let cid := symbolicOutpoint.txid
  [ fun _ => .event (.recv cid (.updateAddHtlc 0 200000000 (BigEndian.encode 32 5) 100 [])
      { onion := { verdict := .final (List.replicate 32 7) } }),
    fun _ => .event (.recv cid
      (.commitmentSigned (residueKeys 20).funding [BigEndian.encode 32 90]) {}),
    fun _ => .event .idle,
    fun _ => .event (.recv cid (.revokeAndAck (residueKeys 20).perCommit
      (Crypto.scripted.pub (BigEndian.encode 32 26))) {}),
    fun _ => .event (.addHtlc
      { packet := [], amountMsat := 100000000, cltvValue := 100, paymentHash := [9] }),
    fun _ => .event .idle,
    fun _ => .event .idle ]

/-- The transaction of the peer then has all four kinds of outputs. -/
theorem commitOutputs_lockAs_bothWays :
    ∃ state : ChannelState, (channelSystem .scripted).Reachable state ∧
      (buildToLocal .scripted state.self 1 40 1000).committx.vout.length = 3 ∧
      (buildToRemote .scripted state.self 2 1000).committx.vout.length = 4 ∧
      (htlcVouts (buildToRemote .scripted state.self 2 1000).committx.vout).map
        (fun out => out.2.2.type) = [.received, .offered] ∧
      (∀ out ∈ (buildToLocal .scripted state.self 1 40 1000).committx.vout,
        LocksAs .scripted .received state.self.fundingLocal.scriptpubkeys 40
          state.self.cnlAddHtlc out) ∧
      ∀ out ∈ (buildToRemote .scripted state.self 2 1000).committx.vout,
        LocksAs .scripted .offered state.self.fundingRemote.scriptpubkeys
          state.self.commitLocal.toSelfDelay state.self.cnlAddHtlc out := by
  have hopened : ((scriptedFundee 500000000).bind fun outcome =>
      (channelSystem .scripted).trail permitAll (.afterFunding outcome) [] scriptedBoth).any
        (fun final =>
          let self := final.1.self
          let own := self.fundingLocal.scriptpubkeys
          let peer := self.fundingRemote.scriptpubkeys
          let remote := (buildToRemote .scripted self 2 1000).committx.vout
          ([own.delayed, own.revocation, own.localHtlckey, own.remoteHtlckey, peer.delayed,
            peer.revocation, peer.localHtlckey, peer.remoteHtlckey].all (·.length == 33)) &&
          (buildToLocal .scripted self 1 40 1000).committx.vout.length == 3 &&
          remote.length == 4 &&
          (htlcVouts remote).map (fun out => out.2.2.type) == [.received, .offered]) = true := by
    decide +kernel
  obtain ⟨⟨state, past⟩, hfound, hchecked⟩ := (Option.any_eq_true _ _).mp hopened
  obtain ⟨outcome, houtcome, htrail⟩ := Option.bind_eq_some_iff.mp hfound
  simp only [Bool.and_eq_true, beq_iff_eq, List.all_cons, List.all_nil, Bool.and_true] at hchecked
  obtain ⟨⟨⟨⟨hod, hor, hol, hoh, hpd, hpr, hpl, hph⟩, hthree⟩, hfour⟩, htypes⟩ := hchecked
  have hstart : (channelSystem .scripted).start (.afterFunding outcome) :=
    ⟨outcome, .fundee houtcome, rfl⟩
  obtain ⟨hlocal, -⟩ := commitOutputs_lockAs scripted_digests ⟨hod, hor, hol, hoh⟩
    ⟨hpd, hpr, hpl, hph⟩ 1 1000 40
  obtain ⟨-, hremote⟩ := commitOutputs_lockAs scripted_digests ⟨hod, hor, hol, hoh⟩
    ⟨hpd, hpr, hpl, hph⟩ 2 1000 40
  exact ⟨state, reachable_of_trail hstart htrail, hthree, hfour, htypes, hlocal, hremote⟩

end Ptarmigan
