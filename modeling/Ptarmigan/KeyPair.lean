/-
The keys in the scripts of a channel and the private keys that the signer derives for them: they
belong together in every state that a channel comes to.
-/
import Ptarmigan.EncAuth
import Ptarmigan.ExtKey
import Ptarmigan.ForceClose
import Ptarmigan.FundingKey

namespace Ptarmigan

open ExtKey TransitionSystem

/-! ### The derivations -/

/-- No private key, and no factor that the crypto library takes. -/
def NotScalar (m : Nat) : Prop :=
  m = 0 ∨ secp256k1N ≤ m

instance (m : Nat) : Decidable (NotScalar m) :=
  inferInstanceAs (Decidable (_ ∨ _))

/-- The digest of two points, as a number. -/
def pointDigest (sha256 : Bytes → Bytes) (first second : Bytes) : Nat :=
  BigEndian.decode (sha256 (first.take 33 ++ second.take 33))

section Derivations

variable {Point : Type} [AddCommGroup Point] [DecidableEq Point] (curve : ExtkeyCrypto Point)
  (sha256 : Bytes → Bytes)

/-- `mbedtls_ecp_muladd`. -/
def ecpMuladd (m : Nat) (p : Point) (n : Nat) (q : Point) : Option Point :=
  if NotScalar m ∨ NotScalar n then none else some (m • p + n • q)

/-- `ln_derkey_pubkey`; `none` leaves the key as it was. -/
def lnDerkeyPubkey (basePoint perCommitPoint : Bytes) : Option Bytes :=
  let bp := pointDigest sha256 perCommitPoint basePoint
  if NotScalar bp then none else btcUtilEcpMuladd curve basePoint bp

/-- `ln_derkey_revocationkey`; `none` makes no key. -/
def lnDerkeyRevocationkey (basePoint perCommitPoint : Bytes) : Option Bytes :=
  match curve.decompress (basePoint.take 33), curve.decompress (perCommitPoint.take 33) with
  | some s1, some s2 =>
      match ecpMuladd (pointDigest sha256 basePoint perCommitPoint) s1
          (pointDigest sha256 perCommitPoint basePoint) s2 with
      | none => none
      -- of the point at infinity a single zero byte is written
      | some s => if s = 0 then none else some (curve.compress s)
  | _, _ => none

end Derivations

/-- `ln_derkey_privkey`. -/
def lnDerkeyPrivkey (sha256 : Bytes → Bytes) (basePoint perCommitPoint baseSecret : Bytes) :
    Bytes :=
  BigEndian.encode 32 ((pointDigest sha256 perCommitPoint basePoint +
    BigEndian.decode (baseSecret.take 32)) % secp256k1N)

/-- `ln_derkey_revocationprivkey`. -/
def lnDerkeyRevocationprivkey (sha256 : Bytes → Bytes)
    (basePoint perCommitPoint baseSecret perCommitSecret : Bytes) : Bytes :=
  BigEndian.encode 32 ((pointDigest sha256 basePoint perCommitPoint *
      BigEndian.decode (baseSecret.take 32) +
    pointDigest sha256 perCommitPoint basePoint *
      BigEndian.decode (perCommitSecret.take 32)) % secp256k1N)

section Laws

variable {Point : Type} [AddCommGroup Point] {curve : ExtkeyCrypto Point}

/-- What is read of the public key of a private key. -/
theorem decompress_priv2pub (hlaw : curve.Lawful) {priv pub : Bytes}
    (hpub : btcKeysPriv2pub curve priv = some pub) :
    curve.decompress (pub.take 33) =
      some (BigEndian.decode (priv.take 32) • curve.gen) := by
  obtain ⟨⟨hpos, hlt⟩, rfl⟩ := btcKeysPriv2pub_some hpub
  rw [List.take_of_length_le (hlaw.compress_length _).le]
  exact hlaw.decompress_compress _ (hlaw.nsmul_ne_zero hpos hlt)

/-- The multiples of the generator that are zero. -/
theorem nsmul_eq_zero_iff (hlaw : curve.Lawful) (m : Nat) :
    m • curve.gen = 0 ↔ m % secp256k1N = 0 := by
  constructor
  · intro hzero
    by_contra hmod
    have hlt : m % secp256k1N < secp256k1N := Nat.mod_lt _ (by decide)
    exact hlaw.nsmul_ne_zero hmod hlt ((hlaw.mod_nsmul m).trans hzero)
  · intro hmod
    rw [← hlaw.mod_nsmul m, hmod, zero_nsmul]

/-- The public key of a private key that was computed modulo the order. -/
theorem priv2pub_encode [DecidableEq Point] (hlaw : curve.Lawful) (m : Nat) :
    btcKeysPriv2pub curve (BigEndian.encode 32 (m % secp256k1N)) =
      if m • curve.gen = 0 then none else some (curve.compress (m • curve.gen)) := by
  have hlt : m % secp256k1N < secp256k1N := Nat.mod_lt _ (by decide)
  have hlength : (BigEndian.encode 32 (m % secp256k1N)).length = 32 :=
    BigEndian.length_encode 32 _
  have hdecode : BigEndian.decode ((BigEndian.encode 32 (m % secp256k1N)).take 32) =
      m % secp256k1N := by
    rw [List.take_of_length_le hlength.le,
      BigEndian.decode_encode (Nat.lt_trans hlt (by decide))]
  rw [btcKeysPriv2pub, hdecode, hlaw.mod_nsmul]
  simp only [Nat.not_le_of_lt hlt, or_false, nsmul_eq_zero_iff hlaw]

variable [DecidableEq Point] {sha256 : Bytes → Bytes}

/-- The derived private key belongs to the derived public key. -/
theorem lnDerkeyPubkey_eq (hlaw : curve.Lawful) {base secret : Bytes} (point : Bytes)
    (hbase : btcKeysPriv2pub curve secret = some base) :
    lnDerkeyPubkey curve sha256 base point =
      if NotScalar (pointDigest sha256 point base) then none
      else btcKeysPriv2pub curve (lnDerkeyPrivkey sha256 base point secret) := by
  rw [lnDerkeyPubkey, lnDerkeyPrivkey, priv2pub_encode hlaw, btcUtilEcpMuladd,
    decompress_priv2pub hlaw hbase]
  simp only [add_nsmul]

/-- The revocation key can be signed for with the base secret and the revealed secret. -/
theorem lnDerkeyRevocationkey_eq (hlaw : curve.Lawful) {base point secret revealed : Bytes}
    (hbase : btcKeysPriv2pub curve secret = some base)
    (hpoint : btcKeysPriv2pub curve revealed = some point) :
    lnDerkeyRevocationkey curve sha256 base point =
      if NotScalar (pointDigest sha256 base point) ∨ NotScalar (pointDigest sha256 point base)
      then none
      else btcKeysPriv2pub curve (lnDerkeyRevocationprivkey sha256 base point secret revealed) := by
  rw [lnDerkeyRevocationkey, lnDerkeyRevocationprivkey, priv2pub_encode hlaw,
    decompress_priv2pub hlaw hbase, decompress_priv2pub hlaw hpoint]
  simp only [ecpMuladd, add_nsmul, mul_nsmul']
  split_ifs <;> simp_all

end Laws

/-! ### The signer -/

section Signer

variable (crypto : Crypto) (self : LnSelf)

/-- A private key with its public key. -/
def keysOf (priv : Bytes) : BtcUtilKeys :=
  ⟨priv, crypto.pub priv⟩

/-- `ln_signer_get_revokesec`. -/
def lnSignerGetRevokesec (perCommit revokedSec : Bytes) : BtcUtilKeys :=
  keysOf crypto (lnDerkeyRevocationprivkey crypto.sha256 self.fundingLocal.pubkeys.revocation
    perCommit self.privData.priv.revocation revokedSec)

/-- `ln_signer_tolocal_key`; the secret is there when the commitment is a revoked one. -/
def lnSignerTolocalKey : Option Bytes → BtcUtilKeys
  | none => keysOf crypto (getSecret crypto self.fundingLocal.pubkeys.delayed
      self.privData.priv.delayed self.fundingLocal.pubkeys.perCommit)
  | some revokedSec =>
      lnSignerGetRevokesec crypto self self.fundingRemote.pubkeys.perCommit revokedSec

/-- `ln_signer_toremote_key`. -/
def lnSignerToremoteKey : BtcUtilKeys :=
  keysOf crypto (getSecret crypto self.fundingLocal.pubkeys.payment self.privData.priv.payment
    self.fundingRemote.pubkeys.perCommit)

/-- `ln_signer_htlc_localkey`. -/
def lnSignerHtlcLocalkey : BtcUtilKeys :=
  keysOf crypto (getSecret crypto self.fundingLocal.pubkeys.htlc self.privData.priv.htlc
    self.fundingLocal.pubkeys.perCommit)

/-- `ln_signer_htlc_remotekey`. -/
def lnSignerHtlcRemotekey : BtcUtilKeys :=
  keysOf crypto (getSecret crypto self.fundingLocal.pubkeys.htlc self.privData.priv.htlc
    self.fundingRemote.pubkeys.perCommit)

end Signer

/-! ### The keys of a channel -/

variable {crypto : Crypto}

/-- The public keys of base secrets, at a per-commitment point. -/
def Fundkeys.publicOf (crypto : Crypto) (base : Fundkeys) (perCommit : Bytes) : Fundkeys where
  funding := crypto.pub base.funding
  revocation := crypto.pub base.revocation
  payment := crypto.pub base.payment
  delayed := crypto.pub base.delayed
  htlc := crypto.pub base.htlc
  perCommit := perCommit

/-- The keys in the scripts are those of the present points. -/
structure ScriptsCurrent (crypto : Crypto) (chan : LnSelf) : Prop where
  own : chan.fundingLocal.scriptpubkeys = (chan.updateScriptkeys crypto).fundingLocal.scriptpubkeys
  peer :
    chan.fundingRemote.scriptpubkeys = (chan.updateScriptkeys crypto).fundingRemote.scriptpubkeys

/-- The own points are those of the base secrets. -/
def OwnPoints (crypto : Crypto) (base : Fundkeys) (chan : LnSelf) : Prop :=
  chan.fundingLocal.pubkeys = base.publicOf crypto chan.fundingLocal.pubkeys.perCommit

/-- The base secrets; that of the commitment changes. -/
def BaseSecrets (base priv : Fundkeys) : Prop :=
  priv = { base with perCommit := priv.perCommit }

/-- The keys of a channel in memory. -/
structure KeysHeld (crypto : Crypto) (base : Fundkeys) (chan : LnSelf) : Prop where
  scripts : ScriptsCurrent crypto chan
  points : OwnPoints crypto base chan
  secrets : BaseSecrets base chan.privData.priv

theorem KeysHeld.congr {base : Fundkeys} {before after : LnSelf}
    (hheld : KeysHeld crypto base before) (hlocal : after.fundingLocal = before.fundingLocal)
    (hremote : after.fundingRemote = before.fundingRemote)
    (hpriv : after.privData = before.privData) : KeysHeld crypto base after := by
  refine ⟨⟨?_, ?_⟩, ?_, ?_⟩
  · rw [LnSelf.updateScriptkeys, hlocal, hremote]
    exact hheld.scripts.own
  · rw [LnSelf.updateScriptkeys, hlocal, hremote]
    exact hheld.scripts.peer
  · rw [OwnPoints, hlocal]
    exact hheld.points
  · rw [hpriv]
    exact hheld.secrets

/-- The keys are made anew from whatever the peer has sent. -/
theorem KeysHeld.renewed {base : Fundkeys} {chan : LnSelf} (hpoints : OwnPoints crypto base chan)
    (hsecrets : BaseSecrets base chan.privData.priv) :
    KeysHeld crypto base (chan.updateScriptkeys crypto) :=
  ⟨⟨rfl, rfl⟩, hpoints, hsecrets⟩

theorem KeysHeld.newStorage {base : Fundkeys} {chan : LnSelf}
    (hpoints : OwnPoints crypto base chan) (hsecrets : BaseSecrets base chan.privData.priv) :
    KeysHeld crypto base ((chan.keysUpdateStorage crypto).updateScriptkeys crypto) := by
  refine .renewed ?_ ?_
  · rw [OwnPoints, LnSelf.keysUpdateStorage, hpoints]
    rfl
  · rw [BaseSecrets, LnSelf.keysUpdateStorage, hsecrets]

theorem create2of2_keys (chan : LnSelf) :
    chan.create2of2.fundingLocal = chan.fundingLocal ∧
      chan.create2of2.fundingRemote = chan.fundingRemote ∧
      chan.create2of2.privData = chan.privData := by
  rw [LnSelf.create2of2]
  split <;> exact ⟨rfl, rfl, rfl⟩

/-! ### The funding exchange -/

/-- The points and the secrets before the scripts are complete. -/
structure KeysMade (crypto : Crypto) (base : Fundkeys) (chan : LnSelf) : Prop where
  points : OwnPoints crypto base chan
  secrets : BaseSecrets base chan.privData.priv

theorem KeysMade.congr {base : Fundkeys} {before after : LnSelf}
    (hmade : KeysMade crypto base before)
    (hlocal : after.fundingLocal.pubkeys = before.fundingLocal.pubkeys)
    (hpriv : after.privData = before.privData) : KeysMade crypto base after := by
  constructor
  · rw [OwnPoints, hlocal]
    exact hmade.points
  · rw [hpriv]
    exact hmade.secrets

theorem keysMade_verify {base : Fundkeys} {chan verified : LnSelf} {signature : Bytes}
    (hmade : KeysMade crypto base chan)
    (hverified : verifyInitialLocal crypto chan signature = some verified) :
    KeysMade crypto base verified := by
  obtain ⟨slots, commitLocal, rfl, -⟩ := verifyInitialLocal_changes hverified
  exact hmade.congr rfl rfl

theorem keysMade_sign {base : Fundkeys} {chan signed : LnSelf}
    (hmade : KeysMade crypto base chan)
    (hsigned : signInitialRemote crypto chan = some signed) : KeysMade crypto base signed := by
  obtain ⟨commitRemote, rfl⟩ := signInitialRemote_changes hsigned
  exact hmade.congr rfl rfl

theorem keysMade_fundee {seed scriptpk : Bytes} {dataloss : Bool} {openCh : LnOpenChannel}
    {estprm : LnEstablishPrm} {priv : Fundkeys} {outpoint : FundingOutpoint} {signature : Bytes}
    {outcome : Outcome}
    (hopened : openedAsFundee crypto (lnInit seed scriptpk dataloss) openCh estprm priv outpoint
      signature = some outcome) :
    ∃ ready, outcome = startFundingWait crypto ready ∧ KeysMade crypto priv ready := by
  obtain ⟨offered, hoffered, hcreated⟩ := Option.bind_eq_some_iff.mp hopened
  simp only [recvFundingCreated] at hcreated
  split at hcreated
  · cases hcreated
  · obtain ⟨verified, hverified, hfunded⟩ := Option.bind_eq_some_iff.mp hcreated
    obtain ⟨signed, hsigned, rfl⟩ := Option.map_eq_some_iff.mp hfunded
    have hoffer : KeysMade crypto priv offered := by
      simp only [recvOpenChannel] at hoffered
      split_ifs at hoffered
      obtain rfl := Option.some.inj hoffered
      refine KeysMade.congr ?_ (congrArg _ (create2of2_keys _).1) (create2of2_keys _).2.2
      exact ⟨rfl, rfl⟩
    have hset : KeysMade crypto priv (offered.setFunding crypto outpoint) :=
      hoffer.congr rfl rfl
    exact ⟨_, rfl, (keysMade_sign (keysMade_verify hset hverified) hsigned).congr rfl rfl⟩

theorem keysMade_funder {seed scriptpk : Bytes} {dataloss : Bool} {estprm : LnEstablishPrm}
    {fundingSat pushSat : UInt64} {feeRate : UInt32} {channelId : Bytes} {priv : Fundkeys}
    {acceptCh : LnAcceptChannel} {outpoint : FundingOutpoint} {signature : Bytes}
    {outcome : Outcome}
    (hopened : openedAsFunder crypto (lnInit seed scriptpk dataloss) estprm fundingSat pushSat
      feeRate channelId priv acceptCh outpoint signature = some outcome) :
    ∃ ready, outcome = startFundingWait crypto ready ∧ KeysMade crypto priv ready := by
  obtain ⟨created, hcreated, haccepted⟩ := Option.bind_eq_some_iff.mp hopened
  obtain ⟨accepted, haccept, hsigned⟩ := Option.bind_eq_some_iff.mp haccepted
  simp only [recvAcceptChannel] at haccept
  split at haccept
  · cases haccept
  · simp only [recvFundingSigned] at hsigned
    split at hsigned
    · cases hsigned
    · obtain ⟨verified, hverified, rfl⟩ := Option.map_eq_some_iff.mp hsigned
      have hcreate : KeysMade crypto priv created := by
        simp only [lnOpenChannelCreate] at hcreated
        split at hcreated
        · cases hcreated
        · obtain rfl := Option.some.inj hcreated
          exact ⟨rfl, rfl⟩
      have hset : ∀ (chan : LnSelf) (obscured : UInt64), KeysMade crypto priv chan →
          KeysMade crypto priv
            { chan.create2of2.setFunding crypto outpoint with obscured } := by
        intro chan obscured hmade
        obtain ⟨hlocal, -, hpriv⟩ := create2of2_keys chan
        have hpubkeys : chan.create2of2.fundingLocal.pubkeys = chan.fundingLocal.pubkeys :=
          congrArg LnFundingLocalData.pubkeys hlocal
        exact hmade.congr hpubkeys hpriv
      have haccepted : KeysMade crypto priv accepted := by
        refine keysMade_sign ?_ haccept
        apply hset
        exact hcreate.congr rfl rfl
      have hchannel : ∀ channelId, KeysMade crypto priv { accepted with channelId } :=
        fun _ => haccepted.congr rfl rfl
      exact ⟨verified, rfl, keysMade_verify (hchannel _) hverified⟩

/-! ### The events -/

theorem OnlySlots.keysHeld {base : Fundkeys} {before after : LnSelf}
    (honly : OnlySlots before after) (hheld : KeysHeld crypto base before) :
    KeysHeld crypto base after := by
  obtain ⟨_, _, rfl⟩ := honly
  exact hheld.congr rfl rfl rfl

theorem ClosingChange.keysHeld {base : Fundkeys} {before after : LnSelf}
    (hchange : ClosingChange before after) (hheld : KeysHeld crypto base before) :
    KeysHeld crypto base after := by
  obtain ⟨_, _, _, _, _, _, _, rfl⟩ := hchange
  exact hheld.congr rfl rfl rfl

variable {self : LnSelf} {base : Fundkeys}

theorem recvFunc_keysHeld (hheld : KeysHeld crypto base self) (channelId : Bytes) (env : RecvEnv)
    (msg : LnMsg) (hupdate : ¬ (ChannelEvent.recv channelId msg env).isUpdate = true) :
    KeysHeld crypto base (recvFunc crypto self channelId env msg).self := by
  cases msg with
  | commitmentSigned sig htlcSigs =>
      obtain ⟨slots, txid, htlcNum, hself, -⟩ := createToLocal_changes crypto
        { self with commitLocal := { self.commitLocal with signature := sig } } htlcSigs
        (self.commitLocal.commitNum + 1) self.commitRemote.toSelfDelay
        self.commitLocal.dustLimitSat
      simp only [recvFunc, recvCommitmentSigned, hself]
      split_ifs
      · exact hheld
      · exact hheld.congr rfl rfl rfl
      · refine KeysHeld.congr (KeysHeld.newStorage ?_ ?_) rfl rfl rfl
        · exact hheld.points
        · exact hheld.secrets
  | revokeAndAck secret point =>
      simp only [recvFunc, recvRevokeAndAck, storePeerPercommitSecret]
      split_ifs
      · exact hheld
      · exact hheld
      · cases lnDerkeyStorageInsertSecret crypto self.peerStorage secret self.peerStorageIndex with
        | none => exact hheld
        | some storage =>
            refine KeysHeld.congr (KeysHeld.renewed ?_ ?_) rfl rfl rfl
            · exact hheld.points
            · exact hheld.secrets
  | fundingLocked perCommitpt =>
      simp only [recvFunc, recvFundingLocked]
      split
      · exact hheld
      · exact .renewed hheld.points hheld.secrets
  | channelReestablish reest =>
      simp only [recvFunc, recvChannelReestablish]
      repeat' split
      all_goals exact hheld.congr rfl rfl rfl
  | updateFee feeratePerKw =>
      simp only [recvFunc, recvUpdateFee]
      split
      · exact hheld
      · exact hheld.congr rfl rfl rfl
  | shutdown scriptpk =>
      exact (recvShutdown_closing crypto self channelId scriptpk).1.keysHeld hheld
  | closingSigned feeSat signature =>
      exact (recvClosingSigned_closing crypto self channelId feeSat signature
        env.broadcast).1.keysHeld hheld
  | _ => exact absurd rfl hupdate

theorem handle_keysHeld (hheld : KeysHeld crypto base self) (ev : ChannelEvent) :
    KeysHeld crypto base (handle crypto self ev).self := by
  by_cases hupdate : ev.isUpdate = true
  · exact (handle_onlySlots hupdate).keysHeld hheld
  · cases ev with
    | recv channelId msg env =>
        rw [handle, lnRecv]
        split
        · exact recvFunc_keysHeld hheld channelId env msg hupdate
        · exact hheld
    | idle =>
        simp only [handle, lnRecvIdleProc]
        split_ifs
        · exact hheld
        · exact hheld.congr rfl rfl rfl
        · simp only [recvIdleProcNonfinal, idleSendComsig]
          repeat' split
          all_goals exact hheld.congr rfl rfl rfl
    | reestablished =>
        simp only [handle, lnChannelReestablishAfter, reestResendUpdate]
        repeat' split
        all_goals exact hheld.congr rfl rfl rfl
    | shutdown fee => exact (handle_closing rfl).keysHeld hheld
    | _ => simp [ChannelEvent.isUpdate] at hupdate

/-- The secrets that an event saves are those that it leaves. -/
theorem handle_savedPriv {ev : ChannelEvent} {saved : LnSelfPriv}
    (hsaved : Effect.secretSave saved ∈ (handle crypto self ev).trace) :
    saved = (handle crypto self ev).self.privData := by
  have hquietly : ∀ {trace : List Effect}, trace.all Effect.quiet = true →
      Effect.secretSave saved ∉ trace := by
    intro trace hquiet hmem
    have hnot := List.all_eq_true.mp hquiet _ hmem
    cases hnot
  have hchange := handle_dance crypto self ev
  generalize handle crypto self ev = outcome at *
  cases hchange with
  | quiet hdance hquiet => exact absurd hsaved (hquietly hquiet)
  | accepted haccepts hsig hdance =>
      simp only [List.mem_cons, reduceCtorEq, Effect.secretSave.injEq, List.not_mem_nil, or_false,
        false_or] at hsaved
      exact hsaved
  | committed hsends hquiet hdue hsave hsig hdance =>
      rcases List.mem_append.mp hsaved with hmem | hmem
      · exact absurd hmem (hquietly hquiet)
      · simp at hmem
  | reestablished hquiet hlength hsave hdance =>
      rcases List.mem_append.mp hsaved with hmem | hmem
      · exact absurd hmem (hquietly hquiet)
      · split at hmem
        · simp at hmem
        · cases hmem

/-! ### The runs -/

/-- The keys in memory and on disk are of the same base secrets. -/
structure KeysKept (crypto : Crypto) (base : Fundkeys) (state : ChannelState) : Prop where
  chan : KeysHeld crypto base state.self
  db : OwnPoints crypto base state.db.chan
  secret : BaseSecrets base state.db.secret.priv

theorem keysKept_start {state : ChannelState} (hstart : (channelSystem crypto).start state) :
    ∃ base, KeysKept crypto base state := by
  obtain ⟨outcome, hdone, rfl⟩ := hstart
  have hready : ∃ priv ready, outcome = startFundingWait crypto ready ∧
      KeysMade crypto priv ready := by
    cases hdone with
    | fundee hopened => exact ⟨_, keysMade_fundee hopened⟩
    | funder hopened => exact ⟨_, keysMade_funder hopened⟩
  obtain ⟨base, ready, rfl, hmade⟩ := hready
  have hheld : KeysHeld crypto base (startFundingWait crypto ready).self := by
    refine KeysHeld.congr (KeysHeld.newStorage ?_ ?_) rfl rfl rfl
    · exact hmade.points
    · exact hmade.secrets
  exact ⟨base, hheld, hheld.points, hheld.secrets⟩

theorem Db.writes_baseSecrets {trace : List Effect}
    (hsaved : ∀ saved, Effect.secretSave saved ∈ trace → BaseSecrets base saved.priv) :
    ∀ {db : Db}, BaseSecrets base db.secret.priv →
      BaseSecrets base (db.writes trace).secret.priv := by
  induction trace with
  | nil =>
      intro db hdb
      exact hdb
  | cons effect rest ih =>
      intro db hdb
      apply ih
      · intro saved hmem
        exact hsaved saved (List.mem_cons_of_mem _ hmem)
      · cases effect with
        | secretSave privData => exact hsaved privData List.mem_cons_self
        | _ => exact hdb

theorem ClosingChange.ownPoints {before after : LnSelf} (hchange : ClosingChange before after)
    (hpoints : OwnPoints crypto base after) : OwnPoints crypto base before := by
  obtain ⟨_, _, _, _, _, _, _, rfl⟩ := hchange
  exact hpoints

theorem KeysKept.took {before after : ChannelState} {ev : ChannelEvent} {trace : List Effect}
    (hkept : KeysKept crypto base before)
    (htook : Took before (handle crypto before.self ev) trace after)
    (hpart : ∀ effect ∈ trace, effect ∈ (handle crypto before.self ev).trace) :
    KeysKept crypto base after := by
  have hself := handle_keysHeld hkept.chan ev
  have hdb : OwnPoints crypto base after.db.chan := by
    rw [htook.db]
    apply Db.writes_holds (OwnPoints crypto base) _ hkept.db
    · intro saved hmem
      exact (handle_saves crypto before.self ev saved (hpart _ hmem)).ownPoints hself.points
    · intro db saved hsaved
      exact hsaved
  have hsecret : BaseSecrets base after.db.secret.priv := by
    rw [htook.db]
    apply Db.writes_baseSecrets _ hkept.secret
    intro saved hmem
    rw [handle_savedPriv (hpart _ hmem)]
    exact hself.secrets
  rcases htook.self with ⟨hafter, -⟩ | ⟨hafter, -⟩
  · exact ⟨hafter ▸ hself, hdb, hsecret⟩
  · exact ⟨hafter ▸ hkept.chan, hdb, hsecret⟩

theorem KeysKept.step {before after : ChannelState} {label : ChannelLabel}
    (hkept : KeysKept crypto base before)
    (hnext : channelNext crypto before label = some after) : KeysKept crypto base after := by
  rcases channelNext_took hnext with ⟨ev, rfl, htook⟩ | ⟨ev, done, rfl, htook⟩ | ⟨dataloss, rfl⟩
  · exact hkept.took htook fun _ hmem => hmem
  · exact hkept.took htook fun _ hmem => List.mem_of_mem_take hmem
  · obtain rfl := Option.some.inj hnext
    refine ⟨KeysHeld.congr (KeysHeld.renewed ?_ ?_) rfl rfl rfl, hkept.db, hkept.secret⟩
    · exact hkept.db
    · exact hkept.secret

theorem keysHeld_of_reachable {state : ChannelState}
    (hreach : (channelSystem crypto).Reachable state) :
    ∃ base, KeysHeld crypto base state.self := by
  have hkept : ∃ base, KeysKept crypto base state := by
    apply hreach.invariant (fun state => ∃ base, KeysKept crypto base state)
    · intro state hstart
      exact keysKept_start hstart
    · rintro before label after ⟨base, hkept⟩ - hnext
      exact ⟨base, hkept.step hnext⟩
  obtain ⟨base, hkept⟩ := hkept
  exact ⟨base, hkept.chan⟩

/-! ### Signing -/

/-- The crypto library of the channel is that of the curve, wherever a derivation makes a key. -/
structure Crypto.OnCurve {Point : Type} [AddCommGroup Point] [DecidableEq Point] (crypto : Crypto)
    (curve : ExtkeyCrypto Point) : Prop where
  priv2pub : ∀ priv, crypto.priv2pub priv = btcKeysPriv2pub curve priv
  derkeyPubkey : ∀ base point pub, lnDerkeyPubkey curve crypto.sha256 base point = some pub →
    crypto.derkeyPubkey base point = pub
  derkeyPrivkey : ∀ base point secret,
    crypto.derkeyPrivkey base point secret = lnDerkeyPrivkey crypto.sha256 base point secret
  derkeyRevocationkey : ∀ base point pub,
    lnDerkeyRevocationkey curve crypto.sha256 base point = some pub →
      crypto.derkeyRevocationkey base point = pub

/-- The private key belongs to the public key of a script. -/
structure BtcUtilKeys.SignsFor (crypto : Crypto) (keys : BtcUtilKeys) (pub : Bytes) : Prop where
  priv : crypto.priv2pub keys.priv = some pub
  pub : keys.pub = pub

section Signing

variable {Point : Type} [AddCommGroup Point] [DecidableEq Point] {curve : ExtkeyCrypto Point}

theorem signsFor_getSecret (hlaw : curve.Lawful) (hcurve : crypto.OnCurve curve)
    {secret point pub : Bytes} (hvalid : (crypto.priv2pub secret).isSome = true)
    (hmade : lnDerkeyPubkey curve crypto.sha256 (crypto.pub secret) point = some pub) :
    (keysOf crypto (getSecret crypto (crypto.pub secret) secret point)).SignsFor crypto
      (crypto.derkeyPubkey (crypto.pub secret) point) := by
  obtain ⟨basePub, hbase⟩ := Option.isSome_iff_exists.mp hvalid
  have hpub : crypto.pub secret = basePub := by
    rw [Crypto.pub, hbase, Option.getD_some]
  have hcurveBase : btcKeysPriv2pub curve secret = some basePub := by
    rw [← hcurve.priv2pub, hbase]
  rw [hcurve.derkeyPubkey _ _ _ hmade]
  rw [hpub] at hmade ⊢
  rw [lnDerkeyPubkey_eq hlaw point hcurveBase] at hmade
  split_ifs at hmade
  have hpriv : crypto.priv2pub (getSecret crypto basePub secret point) = some pub := by
    rw [getSecret, hcurve.derkeyPrivkey, hcurve.priv2pub, hmade]
  refine ⟨hpriv, ?_⟩
  rw [keysOf, Crypto.pub, hpriv, Option.getD_some]

theorem signsFor_getRevokesec (hlaw : curve.Lawful) (hcurve : crypto.OnCurve curve)
    {secret revealed point pub : Bytes} (hvalid : (crypto.priv2pub secret).isSome = true)
    (hrevealed : crypto.priv2pub revealed = some point)
    (hmade : lnDerkeyRevocationkey curve crypto.sha256 (crypto.pub secret) point = some pub) :
    (keysOf crypto (lnDerkeyRevocationprivkey crypto.sha256 (crypto.pub secret) point secret
      revealed)).SignsFor crypto (crypto.derkeyRevocationkey (crypto.pub secret) point) := by
  obtain ⟨basePub, hbase⟩ := Option.isSome_iff_exists.mp hvalid
  have hpub : crypto.pub secret = basePub := by
    rw [Crypto.pub, hbase, Option.getD_some]
  have hcurveBase : btcKeysPriv2pub curve secret = some basePub := by
    rw [← hcurve.priv2pub, hbase]
  have hcurvePoint : btcKeysPriv2pub curve revealed = some point := by
    rw [← hcurve.priv2pub, hrevealed]
  rw [hcurve.derkeyRevocationkey _ _ _ hmade]
  rw [hpub] at hmade ⊢
  rw [lnDerkeyRevocationkey_eq hlaw hcurveBase hcurvePoint] at hmade
  split_ifs at hmade
  have hpriv : crypto.priv2pub (lnDerkeyRevocationprivkey crypto.sha256 basePub point secret
      revealed) = some pub := by
    rw [hcurve.priv2pub, hmade]
  refine ⟨hpriv, ?_⟩
  rw [keysOf, Crypto.pub, hpriv, Option.getD_some]

/-- The base secrets are private keys, as `btc_util_createprivkey` draws them. -/
structure Fundkeys.Drawn (crypto : Crypto) (priv : Fundkeys) : Prop where
  revocation : (crypto.priv2pub priv.revocation).isSome = true
  payment : (crypto.priv2pub priv.payment).isSome = true
  delayed : (crypto.priv2pub priv.delayed).isSome = true
  htlc : (crypto.priv2pub priv.htlc).isSome = true

/-- The signer has the private key of each own key in the scripts that could be derived, and with
the secret of the peer's commitment also that of its revocation key. -/
structure SignerReady (curve : ExtkeyCrypto Point) (crypto : Crypto) (chan : LnSelf) : Prop where
  tolocal : (lnDerkeyPubkey curve crypto.sha256 chan.fundingLocal.pubkeys.delayed
      chan.fundingLocal.pubkeys.perCommit).isSome = true →
    (lnSignerTolocalKey crypto chan none).SignsFor crypto chan.fundingLocal.scriptpubkeys.delayed
  toremote : (lnDerkeyPubkey curve crypto.sha256 chan.fundingLocal.pubkeys.payment
      chan.fundingRemote.pubkeys.perCommit).isSome = true →
    (lnSignerToremoteKey crypto chan).SignsFor crypto chan.fundingRemote.scriptpubkeys.remotekey
  htlcLocal : (lnDerkeyPubkey curve crypto.sha256 chan.fundingLocal.pubkeys.htlc
      chan.fundingLocal.pubkeys.perCommit).isSome = true →
    (lnSignerHtlcLocalkey crypto chan).SignsFor crypto
      chan.fundingLocal.scriptpubkeys.localHtlckey
  htlcRemote : (lnDerkeyPubkey curve crypto.sha256 chan.fundingLocal.pubkeys.htlc
      chan.fundingRemote.pubkeys.perCommit).isSome = true →
    (lnSignerHtlcRemotekey crypto chan).SignsFor crypto
      chan.fundingRemote.scriptpubkeys.remoteHtlckey
  revoked : ∀ secret, crypto.priv2pub secret = some chan.fundingRemote.pubkeys.perCommit →
    (lnDerkeyRevocationkey curve crypto.sha256 chan.fundingLocal.pubkeys.revocation
      chan.fundingRemote.pubkeys.perCommit).isSome = true →
    (lnSignerTolocalKey crypto chan (some secret)).SignsFor crypto
      chan.fundingRemote.scriptpubkeys.revocation

theorem KeysHeld.signerReady (hlaw : curve.Lawful) (hcurve : crypto.OnCurve curve)
    (hheld : KeysHeld crypto base self) (hdrawn : self.privData.priv.Drawn crypto) :
    SignerReady curve crypto self := by
  have hpriv := hheld.secrets
  have hpoints := hheld.points
  have hdelayed : self.fundingLocal.pubkeys.delayed = crypto.pub self.privData.priv.delayed := by
    rw [hpoints, hpriv]
    rfl
  have hpayment : self.fundingLocal.pubkeys.payment = crypto.pub self.privData.priv.payment := by
    rw [hpoints, hpriv]
    rfl
  have hhtlc : self.fundingLocal.pubkeys.htlc = crypto.pub self.privData.priv.htlc := by
    rw [hpoints, hpriv]
    rfl
  have hrevocation :
      self.fundingLocal.pubkeys.revocation = crypto.pub self.privData.priv.revocation := by
    rw [hpoints, hpriv]
    rfl
  obtain ⟨hown, hpeer⟩ := hheld.scripts
  refine ⟨fun hmade => ?_, fun hmade => ?_, fun hmade => ?_, fun hmade => ?_,
    fun secret hsecret hmade => ?_⟩
  · obtain ⟨pub, hpub⟩ := Option.isSome_iff_exists.mp hmade
    rw [hdelayed] at hpub
    rw [hown, lnSignerTolocalKey, hdelayed]
    simp only [LnSelf.updateScriptkeys, hdelayed]
    exact signsFor_getSecret hlaw hcurve hdrawn.delayed hpub
  · obtain ⟨pub, hpub⟩ := Option.isSome_iff_exists.mp hmade
    rw [hpayment] at hpub
    rw [hpeer, lnSignerToremoteKey, hpayment]
    simp only [LnSelf.updateScriptkeys, hpayment]
    exact signsFor_getSecret hlaw hcurve hdrawn.payment hpub
  · obtain ⟨pub, hpub⟩ := Option.isSome_iff_exists.mp hmade
    rw [hhtlc] at hpub
    rw [hown, lnSignerHtlcLocalkey, hhtlc]
    simp only [LnSelf.updateScriptkeys, hhtlc]
    exact signsFor_getSecret hlaw hcurve hdrawn.htlc hpub
  · obtain ⟨pub, hpub⟩ := Option.isSome_iff_exists.mp hmade
    rw [hhtlc] at hpub
    rw [hpeer, lnSignerHtlcRemotekey, hhtlc]
    simp only [LnSelf.updateScriptkeys, hhtlc]
    exact signsFor_getSecret hlaw hcurve hdrawn.htlc hpub
  · obtain ⟨pub, hpub⟩ := Option.isSome_iff_exists.mp hmade
    rw [hrevocation] at hpub
    rw [hpeer, lnSignerTolocalKey, lnSignerGetRevokesec, hrevocation]
    simp only [LnSelf.updateScriptkeys, hrevocation]
    exact signsFor_getRevokesec hlaw hcurve hdrawn.revocation hsecret hpub

/-- In every state that a channel comes to, whatever the peer sends and wherever the process stops,
the private keys that the signer derives belong to the own keys in the scripts. -/
theorem signerReady_of_reachable (hlaw : curve.Lawful) (hcurve : crypto.OnCurve curve)
    {state : ChannelState} (hreach : (channelSystem crypto).Reachable state)
    (hdrawn : state.self.privData.priv.Drawn crypto) : SignerReady curve crypto state.self := by
  obtain ⟨_, hheld⟩ := keysHeld_of_reachable hreach
  exact hheld.signerReady hlaw hcurve hdrawn

end Signing

/-! ### A channel over residues -/

/-- The keys of a curve, and everything else as it was; where no key is made there is none. -/
def Crypto.ofCurve {Point : Type} [AddCommGroup Point] [DecidableEq Point]
    (curve : ExtkeyCrypto Point) (rest : Crypto) : Crypto :=
  { rest with
    priv2pub := btcKeysPriv2pub curve
    derkeyPubkey := fun base point => (lnDerkeyPubkey curve rest.sha256 base point).getD []
    derkeyPrivkey := lnDerkeyPrivkey rest.sha256
    derkeyRevocationkey := fun base point =>
      (lnDerkeyRevocationkey curve rest.sha256 base point).getD [] }

theorem ofCurve_onCurve {Point : Type} [AddCommGroup Point] [DecidableEq Point]
    (curve : ExtkeyCrypto Point) (rest : Crypto) : (Crypto.ofCurve curve rest).OnCurve curve where
  priv2pub _ := rfl
  derkeyPubkey base point pub hmade := by
    change (lnDerkeyPubkey curve rest.sha256 base point).getD [] = pub
    have hrest : lnDerkeyPubkey curve rest.sha256 base point = some pub := hmade
    rw [hrest, Option.getD_some]
  derkeyPrivkey _ _ _ := rfl
  derkeyRevocationkey base point pub hmade := by
    change (lnDerkeyRevocationkey curve rest.sha256 base point).getD [] = pub
    have hrest : lnDerkeyRevocationkey curve rest.sha256 base point = some pub := hmade
    rw [hrest, Option.getD_some]

/-- The keys of the residues, with one digest for everything, and signatures that always verify. -/
def Crypto.overResidues : Crypto :=
  .ofCurve residues { Crypto.symbolic with
    sha256 := fun _ => BigEndian.encode 32 3
    verify := fun _ _ _ => true }

/-- The private keys from the given one on. -/
def residueKeys (first : Nat) : Fundkeys where
  funding := BigEndian.encode 32 first
  revocation := BigEndian.encode 32 (first + 1)
  payment := BigEndian.encode 32 (first + 2)
  delayed := BigEndian.encode 32 (first + 3)
  htlc := BigEndian.encode 32 (first + 4)
  perCommit := BigEndian.encode 32 (first + 5)

/-- An `open_channel` with the public keys. -/
def residueOpen : LnOpenChannel :=
  { symbolicOpen 1000000 0 with
    pubkeys := (residueKeys 20).publicOf .overResidues (Crypto.overResidues.pub
      (residueKeys 20).perCommit) }

def residueFundee : Option Outcome :=
  openedAsFundee .overResidues (lnInit (List.replicate 32 1) [] false) residueOpen symbolicPrm
    (residueKeys 10) symbolicOutpoint []

/-- An HTLC of the peer is committed by both sides, and the channel is loaded again. -/
def residueDance : List (ChannelState → ChannelLabel) :=
  let cid := symbolicOutpoint.txid
  [ fun _ => .event (.recv cid (.updateAddHtlc 0 300000000 [9] 100 [])
      { onion := { verdict := .final [9] } }),
    fun _ => .event (.recv cid (.commitmentSigned [] [[]]) {}),
    fun _ => .event .idle,
    fun _ => .event (.recv cid (.revokeAndAck (residueKeys 20).perCommit
      (Crypto.overResidues.pub (BigEndian.encode 32 26))) {}),
    fun _ => .restart false ]

/-- After a commitment on both sides and a restart the signer has the key to what comes back to
itself, to the HTLC, and to what the peer revokes next once its secret is known. -/
theorem signerReady_of_reachable_restarted :
    ∃ state : ChannelState, (channelSystem .overResidues).Reachable state ∧
      state.reestablishing = true ∧ state.self.commitLocal.commitNum = 1 ∧
      state.self.commitRemote.commitNum = 1 ∧
      (lnSignerTolocalKey .overResidues state.self none).SignsFor .overResidues
        state.self.fundingLocal.scriptpubkeys.delayed ∧
      (lnSignerHtlcLocalkey .overResidues state.self).SignsFor .overResidues
        state.self.fundingLocal.scriptpubkeys.localHtlckey ∧
      (lnSignerTolocalKey .overResidues state.self (some (BigEndian.encode 32 26))).SignsFor
        .overResidues state.self.fundingRemote.scriptpubkeys.revocation := by
  have hopened : (residueFundee.bind fun outcome =>
      (channelSystem .overResidues).trail permitAll (.afterFunding outcome) [] residueDance).any
        (fun final =>
          let self := final.1.self
          let own := self.fundingLocal.pubkeys
          let point := self.fundingRemote.pubkeys.perCommit
          final.1.reestablishing && self.commitLocal.commitNum == 1 &&
          self.commitRemote.commitNum == 1 &&
          (Crypto.overResidues.priv2pub self.privData.priv.revocation).isSome &&
          (Crypto.overResidues.priv2pub self.privData.priv.payment).isSome &&
          (Crypto.overResidues.priv2pub self.privData.priv.delayed).isSome &&
          (Crypto.overResidues.priv2pub self.privData.priv.htlc).isSome &&
          (Crypto.overResidues.priv2pub (BigEndian.encode 32 26) == some point) &&
          (lnDerkeyPubkey residues Crypto.overResidues.sha256 own.delayed own.perCommit).isSome &&
          (lnDerkeyPubkey residues Crypto.overResidues.sha256 own.htlc own.perCommit).isSome &&
          (lnDerkeyRevocationkey residues Crypto.overResidues.sha256 own.revocation point).isSome) =
        true := by
    decide +kernel
  obtain ⟨⟨state, past⟩, hfound, hchecked⟩ := (Option.any_eq_true _ _).mp hopened
  obtain ⟨outcome, houtcome, htrail⟩ := Option.bind_eq_some_iff.mp hfound
  simp only [Bool.and_eq_true, beq_iff_eq] at hchecked
  obtain ⟨⟨⟨⟨⟨⟨⟨⟨⟨⟨hagain, hnumLocal⟩, hnumRemote⟩, hrev⟩, hpay⟩, hdel⟩, hhtlc⟩, hsecret⟩, hown⟩,
    hownHtlc⟩, hpeer⟩ := hchecked
  have hstart : (channelSystem .overResidues).start (.afterFunding outcome) :=
    ⟨outcome, .fundee houtcome, rfl⟩
  have hreach := reachable_of_trail hstart htrail
  have hready := signerReady_of_reachable residues_lawful (ofCurve_onCurve residues _) hreach
    ⟨hrev, hpay, hdel, hhtlc⟩
  exact ⟨state, hreach, hagain, hnumLocal, hnumRemote, hready.tolocal hown,
    hready.htlcLocal hownHtlc, hready.revoked _ hsecret hpeer⟩

end Ptarmigan
