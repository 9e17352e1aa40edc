/-
What the wallet signs is taken by the network: the inputs of its transaction open the outputs of
closed channels that were stored for it.
-/
import Ptarmigan.SpendHtlc
import Ptarmigan.Wallet

namespace Ptarmigan

namespace Wallet

open DoubleHash ExtKey Script SwSighash TransitionSystem WalletStore

variable {crypto : Crypto} {sha256 : Bytes → Digest}

/-! ### The rules of the network -/

/-- What is signed for an input. -/
def inputHash (sha256 : Bytes → Digest) (tx : TxSort.BtcTx) (vin : TxSort.BtcVin)
    (value : UInt64) (script : Bytes) : Bytes :=
  (hash256 sha256 (bip143Preimage sha256 tx vin value (compactSize script.length ++ script))).toList

/-- What the witness script of an input is held against. -/
def inputEnv (crypto : Crypto) (sha256 : Bytes → Digest) (tx : TxSort.BtcTx)
    (vin : TxSort.BtcVin) (value : UInt64) (script : Bytes) : Env where
  checkSig sig pub := crypto.verify sig (inputHash sha256 tx vin value script) pub
  hash160 := crypto.hash160
  version := tx.version.toUInt32.toNat
  lockTime := tx.locktime.toNat
  sequence := vin.sequence.toNat

/-- The script that stands for the hash of a public key. -/
def pubKeyHashScript (hash : Bytes) : Bytes :=
  [0x76, 0xa9, 0x14] ++ hash ++ [0x88, 0xac]

/-- The witness of an input opens an output of the given value. -/
inductive Opens (crypto : Crypto) (sha256 : Bytes → Digest) (tx : TxSort.BtcTx)
    (vin : TxSort.BtcVin) (value : UInt64) : ScriptPk → Prop
  | script {items : List Bytes} {script : Bytes} : vin.witness = items ++ [script] →
      (inputEnv crypto sha256 tx vin value script).spends script items = true →
      Opens crypto sha256 tx vin value (crypto.p2wsh script)
  | pubKey {sig pub : Bytes} : vin.witness = [sig, pub] → pub.length = 33 →
      crypto.verify sig
        (inputHash sha256 tx vin value (pubKeyHashScript (crypto.hash160 pub))) pub = true →
      Opens crypto sha256 tx vin value (.p2wpkh (crypto.hash160 pub))

/-! ### Signing -/

/-- The script that an input is signed for. -/
def scriptOf (crypto : Crypto) (entry : LnDbWallet) : Bytes :=
  if entry.type = lnDbWalletTypeToremote then
    pubKeyHashScript (crypto.hash160 ((entry.wit.getD 1 []).take 33))
  else entry.wit.getLastD []

/-- The entry is of one of the three types, with its key in front of other items. -/
structure Typed (entry : LnDbWallet) : Prop where
  type : entry.type = lnDbWalletTypeTolocal ∨ entry.type = lnDbWalletTypeToremote ∨
    entry.type = lnDbWalletTypeHtlcout
  key : (entry.wit.headD []).length = btcSzPrivkey
  rest : entry.wit.tail ≠ []

theorem heldItem_read {entry : LnDbWallet} (hkey : (entry.wit.headD []).length = btcSzPrivkey) :
    (heldItem entry).take btcSzPrivkey = entry.wit.headD [] ∧
      (heldItem entry).getD btcSzPrivkey 0 = entry.type ∧
      UInt64.ofNat (LittleEndian.decode (((heldItem entry).drop (btcSzPrivkey + 1)).take 8)) =
        entry.amount := by
  have hdrop : (heldItem entry).drop (btcSzPrivkey + 1) = TxSerial.setLe64 entry.amount := by
    rw [heldItem, ← List.drop_drop, List.drop_left' hkey, List.drop_one, List.tail_cons]
  have htake : (TxSerial.setLe64 entry.amount).take 8 = TxSerial.setLe64 entry.amount :=
    List.take_of_length_le (TxSerial.length_setLe64 _).le
  refine ⟨List.take_left' hkey, ?_, ?_⟩
  · rw [heldItem, List.getD_append_right _ _ _ _ hkey.le, hkey, Nat.sub_self, List.getD_cons_zero]
  · rw [hdrop, htake, TxSerial.setLe64, LittleEndian.decode_encode entry.amount.toNat_lt,
      UInt64.ofNat_toNat]

/-- Nothing of the transaction is too long for what hashes it. -/
structure Hashes (tx : TxSort.BtcTx) : Prop where
  valid : btcTxIsValid tx = .ok
  vin : 36 * tx.vin.length < 2 ^ 16
  scripts : ∀ vout ∈ tx.vout, vout.script.length < 0xfd
  vout : 9 * tx.vout.length + (tx.vout.map fun vout => vout.script.length).sum < 2 ^ 16

theorem btcSwSighash_eq {tx : TxSort.BtcTx} {vin : TxSort.BtcVin} {index : Nat}
    (hhashes : Hashes tx) (hindex : tx.vin[index]? = some vin) (value : UInt64) {script : Bytes}
    (hscript : script.length < 256) :
    ∃ digest, btcSwSighash sha256 tx index value (compactSize script.length ++ script) =
        some (some digest) ∧ digest.toList = inputHash sha256 tx vin value script := by
  obtain ⟨hlt, hget⟩ := List.getElem?_eq_some_iff.mp hindex
  let call : Call :=
    ⟨tx, hhashes.valid, ⟨index, hlt⟩, value, compactSize script.length ++ script⟩
  have hshort : call.Short := by
    refine ⟨hhashes.vin, hhashes.scripts, hhashes.vout, ?_⟩
    have hlength : (compactSize script.length).length ≤ 3 := by
      by_cases hone : script.length < 0xfd
      · rw [compactSize, if_pos hone, List.length_singleton]
        omega
      · rw [compactSize, if_neg hone, if_pos (by omega), List.length_cons,
          LittleEndian.length_encode]
    change 156 + (compactSize script.length ++ script).length < 2 ^ 16
    rw [List.length_append]
    omega
  have hvin : call.vin = vin := hget
  refine ⟨_, call.right_of_short hshort sha256, ?_⟩
  rw [hvin]
  rfl

/-- What is signed for the input of an entry is what the network checks. -/
theorem vinSighash_eq {tx : TxSort.BtcTx} {entry : LnDbWallet} (htyped : Typed entry)
    (hhash160 : ∀ item, (crypto.hash160 item).length = 20) (hhashes : Hashes tx)
    {index : Nat} (hindex : tx.vin[index]? = some (vinOf entry))
    (hscript : (scriptOf crypto entry).length < 256) (ret : Bool) (txhash : Digest) :
    ∃ digest, vinSighash crypto sha256 tx index (vinOf entry) ret txhash = some (true, digest) ∧
      digest.toList = inputHash sha256 tx (vinOf entry) entry.amount (scriptOf crypto entry) := by
  obtain ⟨-, htype, hamount⟩ := heldItem_read htyped.key
  obtain ⟨digest, hdigest, hhash⟩ := @btcSwSighash_eq sha256 _ _ _ hhashes hindex entry.amount _
    hscript
  refine ⟨digest, ?_, hhash⟩
  have hfirst : (vinOf entry).witness.headD [] = heldItem entry := rfl
  have hrest := htyped.rest
  obtain ⟨key, items, hwit⟩ : ∃ key items, entry.wit = key :: items := by
    cases hwit : entry.wit with
    | nil => simp [hwit] at hrest
    | cons key items => exact ⟨key, items, rfl⟩
  have hheld : (vinOf entry).witness = heldItem entry :: items := by
    rw [vinOf, hwit, List.tail_cons]
  rw [hwit, List.tail_cons] at hrest
  simp only [vinSighash, hfirst, htype, hamount]
  by_cases hremote : entry.type = lnDbWalletTypeToremote
  · have hcode : btcSwScriptcodeP2wpkh crypto.hash160 ((vinOf entry).witness.getD 1 []) =
        compactSize (scriptOf crypto entry).length ++ scriptOf crypto entry := by
      have hlength := hhash160 ((items.getD 0 []).take 33)
      rw [scriptOf, if_pos hremote, hheld, hwit, List.getD_cons_succ, List.getD_cons_succ,
        btcSwScriptcodeP2wpkh, pubKeyHashScript]
      simp only [List.length_append, hlength]
      rfl
    rw [if_pos hremote, hcode, hdigest]
    rfl
  · have hcode : btcSwScriptcodeP2wsh ((vinOf entry).witness.getLastD []) =
        compactSize (scriptOf crypto entry).length ++ scriptOf crypto entry := by
      have hlast : (vinOf entry).witness.getLastD [] = scriptOf crypto entry := by
        rw [scriptOf, if_neg hremote, hwit, hheld]
        cases hitems : items with
        | nil => exact absurd hitems hrest
        | cons next others => rfl
      rw [hlast, btcSwScriptcodeP2wsh_eq (by omega)]
    have hother : entry.type = lnDbWalletTypeTolocal ∨ entry.type = lnDbWalletTypeHtlcout := by
      rcases htyped.type with htolocal | htoremote | hhtlc
      · exact .inl htolocal
      · exact absurd htoremote hremote
      · exact .inr hhtlc
    rw [if_neg hremote, if_pos hother, btcUtilCalcSighashP2wsh, if_neg (not_not.mpr hhashes.valid),
      hcode, hdigest]
    rfl

/-- The input of an entry with the signature over it. -/
def signedVin (crypto : Crypto) (sha256 : Bytes → Digest) (tx : TxSort.BtcTx)
    (entry : LnDbWallet) : TxSort.BtcVin :=
  withFirst (vinOf entry) (crypto.sign (entry.wit.headD [])
    (inputHash sha256 tx (vinOf entry) entry.amount (scriptOf crypto entry)))

/-- The signing loop signs each input for what the network checks. -/
theorem signVins_eq {tx : TxSort.BtcTx} (hhashes : Hashes tx)
    (hhash160 : ∀ item, (crypto.hash160 item).length = 20) {entries : List LnDbWallet} :
    (∀ entry ∈ entries, Typed entry ∧ (scriptOf crypto entry).length < 256) →
    ∀ {index : Nat} {txhash : Digest},
      (∀ pos entry, entries[pos]? = some entry → tx.vin[index + pos]? = some (vinOf entry)) →
      signVins crypto sha256 tx (entries.map vinOf) index true txhash =
        some (entries.map (signedVin crypto sha256 tx), true) := by
  induction entries with
  | nil =>
      intro _ index txhash _
      rfl
  | cons entry rest ih =>
      intro hall index txhash hvin
      obtain ⟨htyped, hscript⟩ := hall entry List.mem_cons_self
      obtain ⟨digest, hdigest, hhash⟩ := @vinSighash_eq crypto sha256 _ _ htyped hhash160 hhashes
        index (hvin 0 entry rfl) hscript true txhash
      have hnext : ∀ pos entry, rest[pos]? = some entry →
          tx.vin[index + 1 + pos]? = some (vinOf entry) := by
        intro pos entry hpos
        rw [Nat.add_right_comm, Nat.add_assoc]
        exact hvin (pos + 1) entry hpos
      have hrest := @ih (fun entry hmem => hall entry (List.mem_cons_of_mem _ hmem))
        (index + 1) digest hnext
      have hsecret : ((vinOf entry).witness.headD []).take btcSzPrivkey = entry.wit.headD [] :=
        (heldItem_read htyped.key).1
      rw [List.map_cons, signVins, hdigest]
      simp only [Option.bind_eq_bind, Option.bind_some, hrest, hsecret, hhash, if_true]
      rfl

/-- What is signed does not depend on what the witnesses hold. -/
theorem inputHash_signed {included : List LnDbWallet} {tx : TxSort.BtcTx}
    (hvin : tx.vin = included.map vinOf) (vin : TxSort.BtcVin) (value : UInt64) (script : Bytes) :
    inputHash sha256 { tx with vin := included.map (signedVin crypto sha256 tx) } vin value script =
      inputHash sha256 tx vin value script := by
  have houtpoints : (included.map (signedVin crypto sha256 tx)).flatMap SwSighash.outpoint =
      tx.vin.flatMap SwSighash.outpoint := by
    rw [hvin, List.flatMap_map, List.flatMap_map]
    rfl
  have hsequences : (included.map (signedVin crypto sha256 tx)).flatMap sequenceBytes =
      tx.vin.flatMap sequenceBytes := by
    rw [hvin, List.flatMap_map, List.flatMap_map]
    rfl
  simp only [inputHash, bip143Preimage, houtpoints, hsequences]

theorem signedVin_signed {included : List LnDbWallet} {tx : TxSort.BtcTx}
    (hvin : tx.vin = included.map vinOf) (entry : LnDbWallet) :
    signedVin crypto sha256 { tx with vin := included.map (signedVin crypto sha256 tx) } entry =
      signedVin crypto sha256 tx entry := by
  rw [signedVin, inputHash_signed hvin]
  rfl

/-! ### What the monitor stores -/

/-- `set_wallet_data`. -/
def setWalletData (type : UInt8) (tx : CloseTx) : LnDbWallet where
  type := type
  txid := fun place => tx.tx.vinTxid.getD place 0
  index := UInt32.ofNat tx.tx.vinIndex
  amount := (tx.tx.vout.headD (0, [])).1
  sequence := tx.tx.sequence
  locktime := tx.tx.locktime
  wit := tx.witness

/-- What `close_unilateral_remote` stores of the own output, with the public key of its key. -/
def toremoteData (crypto : Crypto) (tx : CloseTx) : LnDbWallet :=
  let key := tx.witness.headD []
  { setWalletData lnDbWalletTypeToremote tx with wit := [key, crypto.pub key] }

/-- What `close_unilateral_remote` stores of an HTLC, with the value of the output: the transaction
has the fee taken off. -/
def htlcData (commit : Committx) (tx : CloseTx) : LnDbWallet :=
  { setWalletData lnDbWalletTypeHtlcout tx with
    amount := (commit.vout.map BtcVout.value).getD tx.tx.vinIndex 0 }

/-- An entry of the wallet and the output that it is for, stored after a channel was closed by one
of its sides.  The database takes no witness that does not start with a private key. -/
inductive StoredClose (crypto : Crypto) (db : List Bytes) (chan : LnSelf) :
    LnDbWallet → Committx → Nat → Prop
  | tolocal {close : LnCloseForce} {tx : CloseTx} :
      lnCloseUnilateral crypto (preimgSearch crypto db) chan = some close →
      close.toLocal = some tx →
      StoredClose crypto db chan (setWalletData lnDbWalletTypeTolocal tx) close.commit
        tx.tx.vinIndex
  | toremote {close : LnCloseForce} {tx : CloseTx} :
      (lnCloseCreateTx crypto (preimgSearch crypto db) chan).1 = some close →
      close.toRemote = some tx →
      StoredClose crypto db chan (toremoteData crypto tx) close.commit tx.tx.vinIndex
  | htlc {close : LnCloseForce} {entry : CloseEntry} {tx : CloseTx} :
      (lnCloseCreateTx crypto (preimgSearch crypto db) chan).1 = some close →
      entry ∈ close.htlcs → entry.tx = some tx →
      (tx.witness.headD []).length = btcSzPrivkey →
      StoredClose crypto db chan (htlcData close.commit tx) close.commit tx.tx.vinIndex

/-- The keys of both commitment transactions that the own side can spend with could be derived. -/
structure CloseKeysMade {Point : Type} [AddCommGroup Point] [DecidableEq Point]
    (curve : ExtkeyCrypto Point) (crypto : Crypto) (chan : LnSelf) : Prop where
  delayed : (lnDerkeyPubkey curve crypto.sha256 chan.fundingLocal.pubkeys.delayed
    chan.fundingLocal.pubkeys.perCommit).isSome = true
  revocation : (lnDerkeyRevocationkey curve crypto.sha256 chan.fundingRemote.pubkeys.revocation
    chan.fundingLocal.pubkeys.perCommit).isSome = true
  payment : (lnDerkeyPubkey curve crypto.sha256 chan.fundingLocal.pubkeys.payment
    chan.fundingRemote.pubkeys.perCommit).isSome = true
  htlc : (lnDerkeyPubkey curve crypto.sha256 chan.fundingLocal.pubkeys.htlc
    chan.fundingRemote.pubkeys.perCommit).isSome = true
  peerHtlc : (lnDerkeyPubkey curve crypto.sha256 chan.fundingRemote.pubkeys.htlc
    chan.fundingRemote.pubkeys.perCommit).isSome = true

/-- The entry is for the output, and once it is signed in a transaction that is final no earlier,
its witness opens the output. -/
structure Unlocks (crypto : Crypto) (entry : LnDbWallet) (commit : Committx) (index : Nat) :
    Prop where
  typed : Typed entry
  outpoint : entry.txid = (fun place : Fin 32 => (crypto.txid commit.tx).getD place 0) ∧
    entry.index = UInt32.ofNat index
  vout : ∃ vout, commit.vout[index]? = some vout ∧ entry.amount = vout.value ∧
    ∀ (sha256 : Bytes → Digest) (tx : TxSort.BtcTx), tx.version = 2 →
      tx.locktime < btcTxLocktimeLimit → entry.locktime ≤ tx.locktime →
      Opens crypto sha256 tx (signedVin crypto sha256 tx entry) vout.value vout.script

theorem findVout_some {opt : VoutOpt} {vout : List BtcVout} {index : Nat} {value : UInt64}
    (hfound : findVout opt vout = some (index, value)) :
    ∃ out, vout[index]? = some out ∧ out.opt = opt ∧ out.value = value := by
  obtain ⟨⟨out, pos⟩, hmem, hsome⟩ := List.exists_of_findSome?_eq_some hfound
  have hget := List.mem_zipIdx_iff_getElem?.mp hmem
  simp only at hsome
  split at hsome
  · rename_i hopt
    cases hsome
    exact ⟨out, hget, hopt, rfl⟩
  · cases hsome

section Stored

variable {Point : Type} [AddCommGroup Point] [DecidableEq Point] {curve : ExtkeyCrypto Point}
  {db : List Bytes} {base : Fundkeys} {prev : LnSelf}

theorem getSecret_length (hcurve : crypto.OnCurve curve) (base priv point : Bytes) :
    (getSecret crypto base priv point).length = btcSzPrivkey := by
  rw [getSecret, hcurve.derkeyPrivkey, lnDerkeyPrivkey, BigEndian.length_encode]
  rfl

theorem tolocal_ne_toremote : lnDbWalletTypeTolocal ≠ lnDbWalletTypeToremote := by decide

theorem htlcout_ne_toremote : lnDbWalletTypeHtlcout ≠ lnDbWalletTypeToremote := by decide

/-- An input whose sequence is the delay is as old as it. -/
theorem aged_delay {env : Env} {delay : UInt16} (hversion : env.version = 2)
    (hsequence : env.sequence = delay.toNat) : env.aged delay.toNat = true := by
  have hlt := delay.toNat_lt
  have hon : delay.toNat.testBit 31 = false := Nat.testBit_lt_two_pow (hlt.trans (by decide))
  simp [Env.aged, hversion, hsequence, hon]

/-- The signature over the input of an entry with a witness script. -/
theorem opens_script {entry : LnDbWallet} {key unlock script : Bytes} {tx : TxSort.BtcTx}
    (hwit : entry.wit = [key, unlock, script]) (htype : entry.type ≠ lnDbWalletTypeToremote)
    (hspends : (inputEnv crypto sha256 tx (vinOf entry) entry.amount script).spends script
      [crypto.sign key (inputHash sha256 tx (vinOf entry) entry.amount script), unlock] = true) :
    Opens crypto sha256 tx (signedVin crypto sha256 tx entry) entry.amount
      (crypto.p2wsh script) := by
  have hsigned : signedVin crypto sha256 tx entry = withFirst (vinOf entry)
      (crypto.sign key (inputHash sha256 tx (vinOf entry) entry.amount script)) := by
    rw [signedVin, scriptOf, if_neg htype, hwit]
    rfl
  rw [hsigned]
  refine @Opens.script _ _ _ _ _ [_, unlock] script ?_ hspends
  rw [withFirst, vinOf, hwit]
  rfl

/-- The signature over the input of an entry that is for a public key alone. -/
theorem opens_pubKey {entry : LnDbWallet} {key pub : Bytes} {tx : TxSort.BtcTx}
    (hwit : entry.wit = [key, pub]) (htype : entry.type = lnDbWalletTypeToremote)
    (hpub : pub.length = 33)
    (hverify : crypto.verify
      (crypto.sign key (inputHash sha256 tx (vinOf entry) entry.amount
        (pubKeyHashScript (crypto.hash160 pub))))
      (inputHash sha256 tx (vinOf entry) entry.amount
        (pubKeyHashScript (crypto.hash160 pub))) pub = true) :
    Opens crypto sha256 tx (signedVin crypto sha256 tx entry) entry.amount
      (.p2wpkh (crypto.hash160 pub)) := by
  have hscript : scriptOf crypto entry = pubKeyHashScript (crypto.hash160 pub) := by
    rw [scriptOf, if_pos htype, hwit, List.getD_cons_succ, List.getD_cons_zero,
      List.take_of_length_le hpub.le]
  have hsigned : signedVin crypto sha256 tx entry = withFirst (vinOf entry)
      (crypto.sign key (inputHash sha256 tx (vinOf entry) entry.amount
        (pubKeyHashScript (crypto.hash160 pub)))) := by
    rw [signedVin, hscript, hwit]
    rfl
  rw [hsigned]
  refine .pubKey ?_ hpub hverify
  rw [withFirst, vinOf, hwit]
  rfl

/-- The own output of the own commitment transaction. -/
theorem unlocks_tolocal {index : Nat} {commit : Committx} {out : BtcVout} {delay : UInt16}
    (hcurve : crypto.OnCurve curve) (hsound : crypto.Sound)
    (hkey : (lnSignerTolocalKey crypto prev none).SignsFor crypto
      prev.fundingLocal.scriptpubkeys.delayed)
    (hdelayed : prev.fundingLocal.scriptpubkeys.delayed.length = 33)
    (hrevocation : prev.fundingLocal.scriptpubkeys.revocation.length = 33)
    (hout : commit.vout[index]? = some out)
    (hlocks : out.script = crypto.p2wsh (lnScriptCreateTolocal
      prev.fundingLocal.scriptpubkeys.revocation prev.fundingLocal.scriptpubkeys.delayed delay)) :
    Unlocks crypto (setWalletData lnDbWalletTypeTolocal (createBasetx out.value delay.toUInt32
      (crypto.txid commit.tx) index [(lnSignerTolocalKey crypto prev none).priv, [],
        lnScriptCreateTolocal prev.fundingLocal.scriptpubkeys.revocation
          prev.fundingLocal.scriptpubkeys.delayed delay])) commit index := by
  refine ⟨⟨.inl rfl, getSecret_length hcurve _ _ _, List.cons_ne_nil _ _⟩, ⟨rfl, rfl⟩, out, hout,
    rfl, fun sha256 tx hversion _ _ => ?_⟩
  rw [hlocks]
  apply opens_script rfl tolocal_ne_toremote
  refine (tolocal_spends_iff delay hrevocation hdelayed _).mpr
    ⟨_, _, rfl, .inr ⟨rfl, aged_delay ?_ ?_, hsound _ _ _ hkey.priv⟩⟩
  · exact congrArg (fun version : Int32 => version.toUInt32.toNat) hversion
  · exact UInt16.toNat_toUInt32 delay

/-- The own output of the peer's commitment transaction. -/
theorem unlocks_toremote {index : Nat} {commit : Committx} {out : BtcVout}
    (hcurve : crypto.OnCurve curve) (hsound : crypto.Sound)
    (hkey : (lnSignerToremoteKey crypto prev).SignsFor crypto
      prev.fundingRemote.scriptpubkeys.remotekey)
    (hremotekey : prev.fundingRemote.scriptpubkeys.remotekey.length = 33)
    (hout : commit.vout[index]? = some out)
    (hlocks : out.script =
      .p2wpkh (crypto.hash160 prev.fundingRemote.scriptpubkeys.remotekey)) :
    Unlocks crypto (toremoteData crypto (createBasetx out.value 0 (crypto.txid commit.tx) index
      [(lnSignerToremoteKey crypto prev).priv, (lnSignerToremoteKey crypto prev).pub]))
      commit index := by
  refine ⟨⟨.inr (.inl rfl), getSecret_length hcurve _ _ _, List.cons_ne_nil _ _⟩, ⟨rfl, rfl⟩, out,
    hout, rfl, fun sha256 tx _ _ _ => ?_⟩
  have hwit : (toremoteData crypto (createBasetx out.value 0 (crypto.txid commit.tx) index
      [(lnSignerToremoteKey crypto prev).priv, (lnSignerToremoteKey crypto prev).pub])).wit =
      [(lnSignerToremoteKey crypto prev).priv,
        prev.fundingRemote.scriptpubkeys.remotekey] := by
    rw [← hkey.pub]
    rfl
  rw [hlocks]
  exact opens_pubKey hwit rfl hremotekey (hsound _ _ _ hkey.priv)

/-- An HTLC of the peer's commitment transaction. -/
theorem unlocks_htlc {index : Nat} {commit : Committx} {out : BtcVout} {info : LnScriptHtlcinfo}
    {close : CloseTx} {unlock : Bytes} (hcurve : crypto.OnCurve curve) (hsound : crypto.Sound)
    (hkey : (lnSignerHtlcRemotekey crypto prev).SignsFor crypto
      prev.fundingRemote.scriptpubkeys.remoteHtlckey)
    (hsized : HtlcSized crypto prev.fundingRemote.scriptpubkeys info)
    (hout : commit.vout[index]? = some out)
    (hlocks : out.script =
      crypto.p2wsh (lnScriptHtlcinfoScript crypto prev.fundingRemote.scriptpubkeys info).script)
    (hindex : close.tx.vinIndex = index) (htxid : close.tx.vinTxid = crypto.txid commit.tx)
    (hsequence : close.tx.sequence ≠ btcTxSequence)
    (hwitness : close.witness = [(lnSignerHtlcRemotekey crypto prev).priv, unlock,
      (lnScriptHtlcinfoScript crypto prev.fundingRemote.scriptpubkeys info).script])
    (hapart : crypto.hash160 unlock ≠
      crypto.hash160 prev.fundingRemote.scriptpubkeys.revocation)
    (hopens : ∀ env : Env, env.hash160 = crypto.hash160 → env.sequence ≠ 0xffffffff →
      env.lockTime < 500000000 → close.tx.locktime.toNat ≤ env.lockTime →
      OpensAlone env (crypto.ripemd160 info.preimageHash) info unlock) :
    Unlocks crypto (htlcData commit close) commit index := by
  have hamount : (htlcData commit close).amount = out.value := by
    change (commit.vout.map BtcVout.value).getD close.tx.vinIndex 0 = out.value
    rw [hindex, List.getD_eq_getElem?_getD, List.getElem?_map, hout]
    rfl
  have hlength : ((htlcData commit close).wit.headD []).length = btcSzPrivkey := by
    change (close.witness.headD []).length = _
    rw [hwitness]
    exact getSecret_length hcurve _ _ _
  have hrest : (htlcData commit close).wit.tail ≠ [] := by
    change close.witness.tail ≠ []
    rw [hwitness]
    exact List.cons_ne_nil _ _
  have houtpoint : (htlcData commit close).txid =
      fun place : Fin 32 => (crypto.txid commit.tx).getD place 0 := by
    rw [← htxid]
    rfl
  refine ⟨⟨.inr (.inr rfl), hlength, hrest⟩, ⟨houtpoint, by rw [← hindex]; rfl⟩, out, hout,
    hamount, fun sha256 tx hversion hlimit hlocktime => ?_⟩
  rw [hlocks, ← hamount]
  apply opens_script hwitness htlcout_ne_toremote
  rw [htlc_spends_iff hsized]
  refine .alone hapart (hopens _ rfl ?_ ?_ ?_) (hsound _ _ _ hkey.priv)
  · exact fun hfinal => hsequence (UInt32.toNat_inj.mp hfinal)
  · exact UInt32.lt_iff_toNat_lt.mp hlimit
  · exact UInt32.le_iff_toNat_le.mp hlocktime

/-- What holds of a channel that is closed: it is a reachable one, and the keys that it derives and
the digests that it compares come out. -/
structure Closable (curve : ExtkeyCrypto Point) (crypto : Crypto) (db : List Bytes)
    (state : ChannelState) : Prop where
  reachable : (channelSystem crypto).Reachable state
  drawn : state.self.privData.priv.Drawn crypto
  keys : CloseKeysMade curve crypto (state.self.withPrevKeys crypto)
  lastItems : LastItems crypto db
    (state.self.withPrevKeys crypto).fundingRemote.scriptpubkeys.revocation

theorem derkeyRevocationkey_length (hlaw : curve.Lawful) {sha256 : Bytes → Bytes}
    {base point pub : Bytes} (hmade : lnDerkeyRevocationkey curve sha256 base point = some pub) :
    pub.length = 33 := by
  rw [lnDerkeyRevocationkey] at hmade
  split at hmade
  · split at hmade
    · cases hmade
    · split_ifs at hmade
      obtain rfl := Option.some.inj hmade
      exact hlaw.compress_length _
  · cases hmade

/-- The keys of the scripts have the length of points. -/
structure ScriptKeysSized (chan : LnSelf) : Prop where
  delayed : chan.fundingLocal.scriptpubkeys.delayed.length = 33
  revocation : chan.fundingLocal.scriptpubkeys.revocation.length = 33
  remotekey : chan.fundingRemote.scriptpubkeys.remotekey.length = 33
  remoteHtlckey : chan.fundingRemote.scriptpubkeys.remoteHtlckey.length = 33
  localHtlckey : chan.fundingRemote.scriptpubkeys.localHtlckey.length = 33

theorem scriptKeysSized (hlaw : curve.Lawful) (hcurve : crypto.OnCurve curve)
    (hheld : KeysHeld crypto base prev) (hmade : CloseKeysMade curve crypto prev) :
    ScriptKeysSized prev := by
  obtain ⟨delayed, hdelayed⟩ := Option.isSome_iff_exists.mp hmade.delayed
  obtain ⟨revocation, hrevocation⟩ := Option.isSome_iff_exists.mp hmade.revocation
  obtain ⟨payment, hpayment⟩ := Option.isSome_iff_exists.mp hmade.payment
  obtain ⟨htlc, hhtlc⟩ := Option.isSome_iff_exists.mp hmade.htlc
  obtain ⟨peerHtlc, hpeerHtlc⟩ := Option.isSome_iff_exists.mp hmade.peerHtlc
  obtain ⟨hown, hpeer⟩ := hheld.scripts
  refine ⟨?_, ?_, ?_, ?_, ?_⟩
  · rw [hown]
    simp only [LnSelf.updateScriptkeys, hcurve.derkeyPubkey _ _ _ hdelayed]
    exact lnDerkeyPubkey_length hlaw hdelayed
  · rw [hown]
    simp only [LnSelf.updateScriptkeys, hcurve.derkeyRevocationkey _ _ _ hrevocation]
    exact derkeyRevocationkey_length hlaw hrevocation
  · rw [hpeer]
    simp only [LnSelf.updateScriptkeys, hcurve.derkeyPubkey _ _ _ hpayment]
    exact lnDerkeyPubkey_length hlaw hpayment
  · rw [hpeer]
    simp only [LnSelf.updateScriptkeys, hcurve.derkeyPubkey _ _ _ hhtlc]
    exact lnDerkeyPubkey_length hlaw hhtlc
  · rw [hpeer]
    simp only [LnSelf.updateScriptkeys, hcurve.derkeyPubkey _ _ _ hpeerHtlc]
    exact lnDerkeyPubkey_length hlaw hpeerHtlc

/-- What is prepared for the peer's commitment transaction. -/
theorem lnCloseCreateTx_spec {searchPreimage : Bytes → Option Bytes} {chan : LnSelf}
    {close : LnCloseForce}
    (hclose : (lnCloseCreateTx crypto searchPreimage chan).1 = some close) :
    ∃ build, build = buildToRemote crypto (chan.withPrevKeys crypto) chan.commitRemote.commitNum
        chan.commitRemote.dustLimitSat ∧ close.commit = build.committx ∧
      close.toRemote = (findVout .toremote build.committx.vout).map (fun (index, value) =>
        createBasetx value 0 (crypto.txid build.committx.tx) index
          [(lnSignerToremoteKey crypto (chan.withPrevKeys crypto)).priv,
            (lnSignerToremoteKey crypto (chan.withPrevKeys crypto)).pub]) ∧
      ∀ entry ∈ close.htlcs, ∃ out ∈ htlcVouts build.committx.vout,
        createToRemoteSpenthtlcClose crypto searchPreimage (chan.withPrevKeys crypto) build
          (crypto.txid build.committx.tx) out = entry.tx := by
  unfold lnCloseCreateTx createToRemoteClose at hclose
  generalize hbuild : buildToRemote crypto (chan.withPrevKeys crypto) chan.commitRemote.commitNum
    chan.commitRemote.dustLimitSat = build at hclose
  cases hsign : signCommittx crypto (chan.withPrevKeys crypto) build.committx.tx with
  | none =>
      simp only [hsign] at hclose
      cases hclose
  | some signature =>
      simp only [hsign] at hclose
      obtain ⟨htlcs, hhtlcs, rfl⟩ := Option.map_eq_some_iff.mp hclose
      refine ⟨build, rfl, rfl, rfl, fun entry hmem => ?_⟩
      obtain ⟨out, hout, hentry⟩ := exists_left_of_mem (forall₂_of_mapM hhtlcs) hmem
      obtain ⟨tx, htx, rfl⟩ := Option.map_eq_some_iff.mp hentry
      exact ⟨out, hout, htx⟩

theorem outputs_of_own {chan : LnSelf} {commitNum dustLimitSat : UInt64} {delay : UInt16}
    {out : BtcVout}
    (hmem : out ∈ (buildToLocal crypto chan commitNum delay dustLimitSat).committx.vout)
    (hopt : out.opt = .tolocal) :
    out.script = crypto.p2wsh (lnScriptCreateTolocal chan.fundingLocal.scriptpubkeys.revocation
      chan.fundingLocal.scriptpubkeys.delayed delay) := by
  rcases committx_vout_cases hmem with ⟨hother, -⟩ | ⟨-, hscript⟩ | ⟨info, -, hother, -⟩
  · rw [hopt] at hother
    cases hother
  · exact hscript
  · rw [hopt] at hother
    cases hother

theorem outputs_of_peer {chan : LnSelf} {commitNum dustLimitSat : UInt64} {out : BtcVout}
    (hmem : out ∈ (buildToRemote crypto chan commitNum dustLimitSat).committx.vout)
    (hopt : out.opt = .toremote) :
    out.script = .p2wpkh (crypto.hash160 chan.fundingRemote.scriptpubkeys.remotekey) := by
  rcases committx_vout_cases hmem with ⟨-, hscript⟩ | ⟨hother, -⟩ | ⟨info, -, hother, -⟩
  · exact hscript
  · rw [hopt] at hother
    cases hother
  · rw [hopt] at hother
    cases hother

/-- What is left bare for the wallet, of an HTLC of the peer's commitment transaction: all but an
offered HTLC without preimage. -/
theorem remoteSpenthtlc_bare {build : CommitBuild} {txid : Bytes}
    {out : Nat × UInt64 × LnScriptHtlcinfo} {close : CloseTx}
    (hspend : createToRemoteSpenthtlcClose crypto (preimgSearch crypto db) prev build txid out =
      some close) (hkey : (close.witness.headD []).length = btcSzPrivkey) :
    close.tx.vinIndex = out.1 ∧ close.tx.vinTxid = txid ∧ close.tx.sequence = 0 ∧
      ∃ unlock ∈ [] :: db,
        close.witness = [(lnSignerHtlcRemotekey crypto prev).priv, unlock, out.2.2.script] ∧
        match out.2.2.type with
        | .received => unlock = [] ∧ close.tx.locktime = out.2.2.expiry
        | .offered => unlock ∈ db ∧
            crypto.sha256 unlock = (prev.cnlAddHtlc out.2.2.addHtlcIdx).paymentSha256 := by
  cases htype : out.2.2.type with
  | received =>
      simp only [createToRemoteSpenthtlcClose, htype, Option.some.injEq] at hspend
      obtain rfl := hspend
      exact ⟨rfl, rfl, rfl, [], List.mem_cons_self, rfl, rfl, rfl⟩
  | offered =>
      cases hsearch : preimgSearch crypto db
          (prev.cnlAddHtlc out.2.2.addHtlcIdx).paymentSha256 with
      | some preimage =>
          simp only [createToRemoteSpenthtlcClose, htype, hsearch, Option.some.injEq] at hspend
          obtain rfl := hspend
          obtain ⟨hstored, hdigest⟩ := mem_of_preimgSearch hsearch
          exact ⟨rfl, rfl, rfl, preimage, List.mem_cons_of_mem _ hstored, rfl, hstored, hdigest⟩
      | none =>
          simp only [createToRemoteSpenthtlcClose, htype, hsearch] at hspend
          obtain ⟨sighash, -, rfl⟩ := Option.map_eq_some_iff.mp hspend
          cases hkey

/-- What is left bare opens the output for the own key alone. -/
theorem opensAlone_of_bare {env : Env} {info : LnScriptHtlcinfo} {locktime : UInt32}
    {unlock revocation : Bytes} (hdigests : crypto.Digests)
    (hlast : LastItems crypto db revocation)
    (hhash : info.preimageHash = (prev.cnlAddHtlc info.addHtlcIdx).paymentSha256)
    (hbare : match info.type with
      | .received => unlock = [] ∧ locktime = info.expiry
      | .offered => unlock ∈ db ∧
          crypto.sha256 unlock = (prev.cnlAddHtlc info.addHtlcIdx).paymentSha256)
    (hhash160 : env.hash160 = crypto.hash160) (hfinal : env.sequence ≠ 0xffffffff)
    (hlimit : env.lockTime < 500000000) (hlocktime : locktime.toNat ≤ env.lockTime) :
    OpensAlone env (crypto.ripemd160 info.preimageHash) info unlock := by
  cases htype : info.type with
  | received =>
      simp only [htype] at hbare
      obtain ⟨rfl, rfl⟩ := hbare
      have hbelow : info.expiry.toNat < 500000000 := hlocktime.trans_lt hlimit
      simp only [OpensAlone, htype]
      refine ⟨by decide, ?_⟩
      simp [Env.locked, hbelow, hlimit, hlocktime, hfinal]
  | offered =>
      simp only [htype] at hbare
      obtain ⟨hstored, hdigest⟩ := hbare
      simp only [OpensAlone, htype]
      refine ⟨hlast.preimage_length unlock hstored, ?_⟩
      rw [hhash160, hdigests.hash160_eq, hdigest, hhash]

/-- Whatever is stored for the wallet after a close opens the output that it is for. -/
theorem StoredClose.unlocks {state : ChannelState} {entry : LnDbWallet} {commit : Committx}
    {index : Nat} (hlaw : curve.Lawful) (hcurve : crypto.OnCurve curve) (hsound : crypto.Sound)
    (hdigests : crypto.Digests) (hclosable : Closable curve crypto db state)
    (hstored : StoredClose crypto db state.self entry commit index) :
    Unlocks crypto entry commit index := by
  obtain ⟨base, hheld⟩ := keysHeld_of_reachable hclosable.reachable
  have hprev := hheld.withPrevKeys
  have hdrawn := hclosable.drawn
  have hready := hprev.signerReady hlaw hcurve ⟨hdrawn.revocation, hdrawn.payment, hdrawn.delayed,
    hdrawn.htlc⟩
  have hkeys := hclosable.keys
  have hsized := scriptKeysSized hlaw hcurve hprev hkeys
  cases hstored with
  | tolocal hclose htx =>
      obtain ⟨unilateral, hunilateral, rfl⟩ := Option.map_eq_some_iff.mp hclose
      obtain ⟨hbuild, -⟩ := createToLocalClose_htlcs hunilateral
      obtain ⟨⟨pos, value⟩, hfound, rfl⟩ := Option.map_eq_some_iff.mp htx
      obtain ⟨out, hout, hopt, rfl⟩ := findVout_some hfound
      have hbufWs : unilateral.build.bufWs = lnScriptCreateTolocal
          (state.self.withPrevKeys crypto).fundingLocal.scriptpubkeys.revocation
          (state.self.withPrevKeys crypto).fundingLocal.scriptpubkeys.delayed
          state.self.commitRemote.toSelfDelay := by
        rw [hbuild]
        rfl
      have hlocks := hout
      rw [hbuild] at hlocks
      have hunlocks := unlocks_tolocal hcurve hsound (hready.tolocal hkeys.delayed) hsized.delayed
        hsized.revocation hout (outputs_of_own (List.mem_of_getElem? hlocks) hopt)
      rwa [← hbufWs] at hunlocks
  | toremote hclose htx =>
      obtain ⟨build, hbuild, hcommit, htoremote, -⟩ := lnCloseCreateTx_spec hclose
      rw [htoremote] at htx
      obtain ⟨⟨pos, value⟩, hfound, rfl⟩ := Option.map_eq_some_iff.mp htx
      obtain ⟨out, hout, hopt, rfl⟩ := findVout_some hfound
      have hlocks := hout
      rw [hbuild] at hlocks
      rw [hcommit]
      exact unlocks_toremote hcurve hsound (hready.toremote hkeys.payment) hsized.remotekey hout
        (outputs_of_peer (List.mem_of_getElem? hlocks) hopt)
  | @htlc close entry tx hclose hentry htx hkey =>
      obtain ⟨build, hbuild, hcommit, -, hhtlcs⟩ := lnCloseCreateTx_spec hclose
      obtain ⟨out, hout, hspend⟩ := hhtlcs entry hentry
      rw [htx] at hspend
      obtain ⟨hindex, htxid, hsequence, unlock, hunlock, hwitness, htype⟩ :=
        remoteSpenthtlc_bare hspend hkey
      rw [hbuild, buildToRemote_eq_build] at hout
      have hhtlc := CommitFrame.htlcOut_of_mem hout
      rw [← buildToRemote_eq_build, ← hbuild] at hhtlc
      obtain ⟨vout, hvout, -, -, hscript⟩ := hhtlc.vout
      have hinfo : (lnScriptHtlcinfoScript crypto
          (state.self.withPrevKeys crypto).fundingRemote.scriptpubkeys out.2.2).script =
          out.2.2.script :=
        congrArg LnScriptHtlcinfo.script hhtlc.script.symm
      rw [← hinfo] at hscript hwitness
      rw [hcommit]
      refine unlocks_htlc hcurve hsound (hready.htlcRemote hkeys.htlc) ⟨hsized.localHtlckey,
        hsized.remoteHtlckey, hdigests.hash160_length _, hdigests.ripemd160_length _⟩
        (hindex ▸ hvout) hscript rfl htxid ?_ hwitness (hclosable.lastItems.apart unlock hunlock)
        ?_
      · rw [hsequence]
        decide
      · intro env hhash160 hfinal hlimit hlocktime
        exact opensAlone_of_bare hdigests hclosable.lastItems hhtlc.hash htype hhash160 hfinal
          hlimit hlocktime

theorem hashes_payingTo {answers : LnDbWallet → NodeAnswer} {entries included : List LnDbWallet}
    {wallet : WalletT} {value : UInt64} {spk : Bytes}
    (hcollected : Collected answers entries included wallet) (hcount : included.length ≤ 1820)
    (hvalue : btcDustLimit ≤ value) (hspk : spk ≠ []) (hshort : spk.length < 0xfd)
    (hnone : wallet.tx.vin.length ≠ 0) : Hashes (payingTo wallet.tx value spk) := by
  have hpos : spk.length ≠ 0 := fun hzero => hspk (List.eq_nil_of_length_eq_zero hzero)
  have hversion : wallet.tx.version ≠ 0 := by
    rw [hcollected.version]
    decide
  have hpaid : ¬ (value = 0 ∧ spk.head? ≠ some 0x6a) := by
    rintro ⟨rfl, -⟩
    exact absurd hvalue (by decide)
  refine ⟨?_, ?_, ?_, ?_⟩
  · simp [btcTxIsValid, payingTo, voutsValid, hversion, hnone, hpos, hpaid]
  · change 36 * wallet.tx.vin.length < 2 ^ 16
    rw [hcollected.vin, List.length_map]
    omega
  · intro vout hmem
    obtain rfl := List.mem_singleton.mp hmem
    exact hshort
  · change 9 * 1 + (spk.length + 0) < 2 ^ 16
    omega

theorem Collected.locktime_lt {answers : LnDbWallet → NodeAnswer}
    {entries included : List LnDbWallet} {wallet : WalletT}
    (hcollected : Collected answers entries included wallet)
    (hlocktime : ∀ entry ∈ included, entry.locktime < btcTxLocktimeLimit) :
    wallet.tx.locktime < btcTxLocktimeLimit := by
  rcases hcollected.locktime_eq with hzero | ⟨entry, hmem, hentry⟩
  · rw [hzero]
    decide
  · rw [← hentry]
    exact hlocktime entry hmem

theorem scriptOf_length {entry : LnDbWallet} (hhash160 : ∀ item, (crypto.hash160 item).length = 20)
    (htyped : Typed entry) (hitem : ∀ item ∈ entry.wit, item.length < 256) :
    (scriptOf crypto entry).length < 256 := by
  rw [scriptOf]
  split
  · have hlength := hhash160 ((entry.wit.getD 1 []).take 33)
    simp only [pubKeyHashScript, List.length_append, hlength]
    decide
  · cases hwit : entry.wit with
    | nil =>
        have hrest := htyped.rest
        rw [hwit] at hrest
        exact absurd rfl hrest
    | cons first rest =>
        rw [hwit] at hitem
        rw [List.getLastD_cons]
        exact hitem _ List.getLastD_mem_cons

/-- The input spends the output of a closed channel that its entry is for, and opens it. -/
def OpensClose (crypto : Crypto) (sha256 : Bytes → Digest) (db : List Bytes)
    (entries : List LnDbWallet) (tx : TxSort.BtcTx) (vin : TxSort.BtcVin) : Prop :=
  ∃ entry ∈ entries, ∃ (chan : LnSelf) (commit : Committx) (index : Nat) (vout : BtcVout),
    StoredClose crypto db chan entry commit index ∧ commit.vout[index]? = some vout ∧
    vin.txid = Vector.ofFn (fun place : Fin 32 => (crypto.txid commit.tx).getD place 0) ∧
    vin.index = UInt32.ofNat index ∧ Opens crypto sha256 tx vin vout.value vout.script

/-- When all that the database holds was stored after closes, every input that the wallet sends
opens the output that it spends. -/
theorem walletFromPtarm_opens {heap : TxSerial.Heap} {stale : Digest}
    {answers : LnDbWallet → NodeAnswer} {entries : List LnDbWallet} {spk : Bytes}
    {feeratePerKb : UInt32} {ret : Bool} {tx : TxSort.BtcTx}
    (hlaw : curve.Lawful) (hcurve : crypto.OnCurve curve) (hsound : crypto.Sound)
    (hdigests : crypto.Digests)
    (hstored : ∀ entry ∈ entries, ∃ state commit index, Closable curve crypto db state ∧
      StoredClose crypto db state.self entry commit index)
    (hcount : entries.length ≤ 1820)
    (hitem : ∀ entry ∈ entries, ∀ item ∈ entry.wit, item.length < 256)
    (hlocktime : ∀ entry ∈ entries, entry.locktime < btcTxLocktimeLimit)
    (hspk : spk ≠ []) (hshort : spk.length < 0xfd)
    (hsent : walletFromPtarm crypto sha256 heap stale answers entries (some spk) feeratePerKb =
      .result ret tx) :
    ret = true ∧ ∀ vin ∈ tx.vin, OpensClose crypto sha256 db entries tx vin := by
  obtain ⟨wallet, fee, vins, hwallet, hnone, hfee, hlow, hsigned, rfl⟩ := walletFromPtarm_ok hsent
  obtain ⟨included, hcollected⟩ := walletCollect_collected hwallet
  have hunlocks : ∀ entry ∈ included, ∃ state commit index,
      StoredClose crypto db state entry commit index ∧ Unlocks crypto entry commit index := by
    intro entry hmem
    obtain ⟨state, commit, index, hclosable, hclose⟩ :=
      hstored entry (hcollected.sublist.subset hmem)
    exact ⟨state.self, commit, index, hclose,
      hclose.unlocks hlaw hcurve hsound hdigests hclosable⟩
  have hentries := hcollected.sublist.length_le
  have hunsigned : (payingTo wallet.tx (wallet.amount - fee) spk).vin = included.map vinOf :=
    hcollected.vin
  obtain ⟨vbyte, -, rfl⟩ := Option.map_eq_some_iff.mp hfee
  have hhashes := hashes_payingTo hcollected (by omega) (sub_fee hlow).1 hspk hshort hnone
  have hall : ∀ entry ∈ included, Typed entry ∧ (scriptOf crypto entry).length < 256 := by
    intro entry hmem
    obtain ⟨_, _, _, -, hunlock⟩ := hunlocks entry hmem
    exact ⟨hunlock.typed, scriptOf_length hdigests.hash160_length hunlock.typed
      (hitem entry (hcollected.sublist.subset hmem))⟩
  have hsign := @signVins_eq crypto sha256 _ hhashes hdigests.hash160_length included hall 0 stale
    (fun pos entry hpos => by rw [hunsigned, Nat.zero_add, List.getElem?_map, hpos]; rfl)
  rw [hcollected.vin, hsign] at hsigned
  obtain ⟨rfl, rfl⟩ := Prod.mk.inj (Option.some.inj hsigned)
  refine ⟨rfl, fun vin hmem => ?_⟩
  obtain ⟨entry, hentry, rfl⟩ := List.mem_map.mp hmem
  obtain ⟨chan, commit, index, hclose, hunlock⟩ := hunlocks entry hentry
  obtain ⟨htxid, hindex⟩ := hunlock.outpoint
  obtain ⟨vout, hvout, hvalue, hopens⟩ := hunlock.vout
  refine ⟨entry, hcollected.sublist.subset hentry, chan, commit, index, vout, hclose, hvout,
    congrArg Vector.ofFn htxid, hindex, ?_⟩
  rw [← signedVin_signed hunsigned]
  apply hopens
  · exact hcollected.version
  · exact hcollected.locktime_lt fun entry hmem => hlocktime entry (hcollected.sublist.subset hmem)
  · exact hcollected.locktime_le entry hentry

end Stored

/-- What both closes of a channel leave for the own side. -/
def scriptedEntries (self : LnSelf) : List LnDbWallet :=
  let own := lnCloseUnilateral .scripted (preimgSearch .scripted []) self
  let peer := (lnCloseCreateTx .scripted (preimgSearch .scripted []) self).1
  ((own.bind LnCloseForce.toLocal).toList.map (setWalletData lnDbWalletTypeTolocal)) ++
    (peer.bind LnCloseForce.toRemote).toList.map (toremoteData .scripted)

theorem scriptedEntries_stored {self : LnSelf} {entry : LnDbWallet}
    (hmem : entry ∈ scriptedEntries self) :
    ∃ commit index, StoredClose .scripted [] self entry commit index := by
  rcases List.mem_append.mp hmem with hown | hpeer
  · obtain ⟨tx, htx, rfl⟩ := List.mem_map.mp hown
    obtain ⟨close, hclose, htx⟩ := Option.bind_eq_some_iff.mp (Option.mem_toList.mp htx)
    exact ⟨_, _, .tolocal hclose htx⟩
  · obtain ⟨tx, htx, rfl⟩ := List.mem_map.mp hpeer
    obtain ⟨close, hclose, htx⟩ := Option.bind_eq_some_iff.mp (Option.mem_toList.mp htx)
    exact ⟨_, _, .toremote hclose htx⟩

def scriptedSent (self : LnSelf) : Sent :=
  walletFromPtarm .scripted (fun _ => constant 1) TxSerial.blankHeap (constant 0) settled
    (scriptedEntries self) (some (List.replicate 22 9)) 1000

/-- Half of the funds were pushed: the own output is taken from whichever side closes. -/
theorem walletFromPtarm_opens_both :
    ∃ (self : LnSelf) (tx : TxSort.BtcTx), tx.vin.length = 2 ∧
      ∀ vin ∈ tx.vin,
        OpensClose .scripted (fun _ => constant 1) [] (scriptedEntries self) tx vin := by
  have hopened : (scriptedFundee 500000000).any (fun outcome =>
      let self := outcome.self
      let prev := self.withPrevKeys .scripted
      let own := prev.fundingLocal.pubkeys
      let peer := prev.fundingRemote.pubkeys
      let sha256 := Crypto.scripted.sha256
      let entries := scriptedEntries self
      [self.privData.priv.revocation, self.privData.priv.payment, self.privData.priv.delayed,
        self.privData.priv.htlc].all (fun priv => (Crypto.scripted.priv2pub priv).isSome) &&
      (lnDerkeyPubkey residues sha256 own.delayed own.perCommit).isSome &&
      (lnDerkeyRevocationkey residues sha256 peer.revocation own.perCommit).isSome &&
      (lnDerkeyPubkey residues sha256 own.payment peer.perCommit).isSome &&
      (lnDerkeyPubkey residues sha256 own.htlc peer.perCommit).isSome &&
      (lnDerkeyPubkey residues sha256 peer.htlc peer.perCommit).isSome &&
      prev.fundingRemote.scriptpubkeys.revocation.length == 33 &&
      decide (entries.length ≤ 1820) &&
      entries.all (fun entry => entry.wit.all (·.length < 256)) &&
      entries.all (fun entry => entry.locktime < btcTxLocktimeLimit) &&
      (scriptedSent self).tx?.any fun tx => tx.vin.length == 2) = true := by
    decide +kernel
  obtain ⟨outcome, houtcome, hchecked⟩ := (Option.any_eq_true _ _).mp hopened
  simp only [Bool.and_eq_true, beq_iff_eq, decide_eq_true_eq, List.all_cons, List.all_nil,
    List.all_eq_true, Bool.and_true] at hchecked
  obtain ⟨⟨⟨⟨⟨⟨⟨⟨⟨⟨⟨hrev, hpay, hdel, hhtlc⟩, hdelayed⟩, hrevocation⟩, hpayment⟩, hown⟩, hpeer⟩,
    hsized⟩, hcount⟩, hitem⟩, hlocktime⟩, hsent⟩ := hchecked
  obtain ⟨tx, htx, hlength⟩ := (Option.any_eq_true _ _).mp hsent
  obtain ⟨ret, hfound⟩ := Sent.tx?_eq_some htx
  have hstart : (channelSystem .scripted).start (.afterFunding outcome) :=
    ⟨outcome, .fundee houtcome, rfl⟩
  have hclosable : Closable residues .scripted [] (.afterFunding outcome) :=
    ⟨⟨_, hstart, .refl⟩, ⟨hrev, hpay, hdel, hhtlc⟩,
      ⟨hdelayed, hrevocation, hpayment, hown, hpeer⟩,
      scripted_lastItems (List.forall_mem_nil _) hsized⟩
  have hstored : ∀ entry ∈ scriptedEntries outcome.self, ∃ state commit index,
      Closable residues .scripted [] state ∧
        StoredClose .scripted [] state.self entry commit index := by
    intro entry hmem
    obtain ⟨commit, index, hclose⟩ := scriptedEntries_stored hmem
    exact ⟨_, commit, index, hclosable, hclose⟩
  exact ⟨outcome.self, tx, beq_iff_eq.mp hlength, (walletFromPtarm_opens residues_lawful
    (ofCurve_onCurve residues _) scripted_sound scripted_digests hstored hcount hitem hlocktime
    (by decide) (by decide) hfound).2⟩

end Wallet

end Ptarmigan
