/-
`btc_tx_verify_multisig`: a P2SH input is taken apart by the lengths in its scriptSig, then the
signatures are checked one after the other.  Each byte of the scriptSig is read by its position,
and a position outside of it has no byte.
-/
import Ptarmigan.Library.OrderedMatch
import Ptarmigan.SigFormat
import Ptarmigan.SwSighash

namespace Ptarmigan

namespace Multisig

open SwSighash (btcUtilSha256)

/-- What the verification takes from `mbedtls`: the hashes, and whether the public key can be
decoded and the signature, without its hash type, verifies. -/
structure MultisigCrypto where
  sha256 : Bytes → DoubleHash.Digest
  ripemd160 : Bytes → Vector UInt8 20
  ecdsaVerify : Bytes → Bytes → Bytes → Bool

/-- `btc_util_hash160`. -/
def btcUtilHash160 (crypto : MultisigCrypto) (data : Bytes) (len : ℕ) : Vector UInt8 20 :=
  crypto.ripemd160 (btcUtilSha256 crypto.sha256 data len).toList

/-- `btc_tx_verify`.  The hash type is read first, at the length less one: outside for a signature
without bytes. -/
def btcTxVerify (crypto : MultisigCrypto) (txHash sig pubKey : Bytes) : Option Bool :=
  match sig.getLast? with
  | none => none
  | some hashType =>
      some (hashType == 0x01 && SigFormat.isValidSignatureEncoding sig &&
        crypto.ecdsaVerify sig.dropLast txHash pubKey)

/-! ### The parts of a scriptSig -/

/-- Bytes of the scriptSig from a position on. -/
def readAt (scriptsig : Bytes) (pos len : ℕ) : Option Bytes :=
  if pos + len ≤ scriptsig.length then some ((scriptsig.drop pos).take len) else none

/-- `get_varint`: the value and how many bytes it takes. -/
def getVarint (scriptsig : Bytes) (pos : ℕ) : Option (ℕ × ℕ) := do
  let first ← scriptsig[pos]?
  if first < 0xfd then pure (first.toNat, 1)
  else do
    let low ← scriptsig[pos + 1]?
    let high ← scriptsig[pos + 2]?
    pure (low.toNat + 256 * high.toNat, 3)

/-- The loop over the signatures: where it ends, and how many it has passed.  A position is a
`uint32_t`, which no scriptSig of a transaction comes near: its length is read from 16 bits. -/
def scanSigs (scriptsig : Bytes) (pos signum : ℕ) : ℕ × ℕ :=
  if hpos : pos < scriptsig.length then
    let len := scriptsig[pos]
    if len = 0x4c ∨ len = 0x4d then (pos, signum)
    else scanSigs scriptsig (pos + 1 + len.toNat) (signum + 1)
  else (pos, signum)
termination_by scriptsig.length - pos

/-- The loop over the public keys: none where a length is not that of a key. -/
def scanKeys (scriptsig : Bytes) (pos pubnum : ℕ) : Option (ℕ × ℕ) :=
  if hpos : pos < scriptsig.length then
    let len := scriptsig[pos]
    if 0x51 ≤ len ∧ len ≤ 0x60 then some (pos, pubnum)
    else if len ≠ 33 then none
    else scanKeys scriptsig (pos + 1 + len.toNat) (pubnum + 1)
  else some (pos, pubnum)
termination_by scriptsig.length - pos

/-- What is known of a scriptSig once it is taken apart. -/
structure Parsed where
  signum : ℕ
  pubpos : ℕ
  pubnum : ℕ
deriving DecidableEq, Repr

/-- From the public keys on. -/
def parseKeys (scriptsig : Bytes) (signum pubpos : ℕ) : Option (Option Parsed) :=
  match scanKeys scriptsig pubpos 0 with
  | none => some none
  | some (pos, pubnum) =>
      if scriptsig.length ≤ pos then some none
      else do
        let opN ← scriptsig[pos]?
        if pubnum + 0x50 ≠ opN.toNat then pure none
        else do
          let op ← scriptsig[pos + 1]?
          if op ≠ 0xae then pure none
          else if pos + 2 ≠ scriptsig.length then pure none
          else pure (some ⟨signum, pubpos, pubnum⟩)

/-- From the length of the redeem script on; the length itself is not looked at. -/
def parsePush (scriptsig : Bytes) (signum pos : ℕ) : Option (Option Parsed) := do
  let redmLen ← getVarint scriptsig pos
  let opM ← scriptsig[pos + redmLen.2]?
  if signum + 0x50 ≠ opM.toNat then pure none
  else parseKeys scriptsig signum (pos + redmLen.2 + 1)

/-- The first half of `btc_tx_verify_multisig`: `some none` is `return false`. -/
def parse (scriptsig : Bytes) : Option (Option Parsed) := do
  let top ← scriptsig[0]?
  if top ≠ 0x00 then pure none
  else
    let scan := scanSigs scriptsig 1 0
    if scriptsig.length ≤ scan.1 then pure none
    else parsePush scriptsig scan.2 (scan.1 + 1)

/-! ### The checks -/

section Checks

variable (crypto : MultisigCrypto) (scriptsig txHash : Bytes)

/-- Whether two of the public keys are the same. -/
def sameKeys (pubpos pubnum : ℕ) : Option Bool :=
  (List.range (pubnum - 1)).anyM fun lp =>
    (List.range' (lp + 1) (pubnum - (lp + 1))).anyM fun lp2 => do
      let p1 ← readAt scriptsig (pubpos + (1 + 33) * lp) (1 + 33)
      let p2 ← readAt scriptsig (pubpos + (1 + 33) * lp2) (1 + 33)
      pure (p1 == p2)

/-- The counters of the loops; `stop` where the outer one is ended by `lp = signum`. -/
structure Checked where
  okCnt : ℤ
  ngCnt : ℤ
  chkPos : UInt32
  stop : Bool
deriving DecidableEq, Repr

/-- The first `lp2 + 1` public keys count as checked. -/
def chkMask (lp2 : ℕ) : UInt32 :=
  (1 <<< (lp2 + 1).toUInt32) - 1

/-- The loop over the public keys for one signature, with `todo` of them left. -/
def checkKeys (sigpos : ℕ) : ℕ → ℕ → ℕ → Checked → Option Checked
  | 0, _, _, st => some st
  | todo + 1, lp2, pubposNow, st =>
      if st.chkPos &&& (1 <<< lp2.toUInt32) = 0 then do
        let sigLen ← scriptsig[sigpos]?
        let sig ← readAt scriptsig (sigpos + 1) sigLen.toNat
        let keyLen ← scriptsig[pubposNow]?
        let ret ←
          if keyLen = 33 then do
            let pubKey ← readAt scriptsig (pubposNow + 1) 33
            btcTxVerify crypto txHash sig pubKey
          else some false
        if ret then
          some { st with okCnt := st.okCnt + 1, chkPos := st.chkPos ||| chkMask lp2 }
        else if st.ngCnt - 1 < 0 then
          some { st with okCnt := -1, ngCnt := st.ngCnt - 1, stop := true }
        else
          checkKeys sigpos todo (lp2 + 1) (pubposNow + (keyLen.toNat + 1))
            { st with ngCnt := st.ngCnt - 1 }
      else do
        let keyLen ← scriptsig[pubposNow]?
        checkKeys sigpos todo (lp2 + 1) (pubposNow + (keyLen.toNat + 1)) st

/-- The loop over the signatures, with `todo` of them left. -/
def checkSigs (pubpos pubnum : ℕ) : ℕ → ℕ → Checked → Option Checked
  | 0, _, st => some st
  | todo + 1, sigpos, st => do
      let st ← checkKeys crypto scriptsig txHash sigpos pubnum 0 pubpos st
      let sigLen ← scriptsig[sigpos]?
      if st.stop then some st
      else checkSigs pubpos pubnum todo (sigpos + (sigLen.toNat + 1)) st

/-- The second half of `btc_tx_verify_multisig`. -/
def verifyParsed (scriptHash : Vector UInt8 20) (parsed : Parsed) : Option Bool :=
  if btcUtilHash160 crypto (scriptsig.drop (parsed.pubpos - 1))
      (scriptsig.length - parsed.pubpos + 1) ≠ scriptHash then some false
  else do
    let same ← sameKeys scriptsig parsed.pubpos parsed.pubnum
    if same then some false
    else do
      let st ← checkSigs crypto scriptsig txHash parsed.pubpos parsed.pubnum parsed.signum 1
        ⟨0, parsed.pubnum - parsed.signum, 0, false⟩
      some (st.okCnt == parsed.signum)

/-- `btc_tx_verify_multisig` on the scriptSig of the input: `none` where a read is outside. -/
def btcTxVerifyMultisig (scriptHash : Vector UInt8 20) : Option Bool :=
  match parse scriptsig with
  | none => none
  | some none => some false
  | some (some parsed) => verifyParsed crypto scriptsig txHash scriptHash parsed

end Checks

/-! ### What a multisig input is -/

/-- `OP_1` to `OP_16`, as a number counts from `OP_x`. -/
def opX (count : ℕ) : UInt8 :=
  (0x50 + count).toUInt8

/-- Data behind its length in one byte. -/
def pushed (data : Bytes) : Bytes :=
  data.length.toUInt8 :: data

/-- `m <keys> n CHECKMULTISIG`. -/
def redeemScript (signum : ℕ) (keys : List Bytes) : Bytes :=
  opX signum :: (keys.flatMap pushed ++ [opX keys.length, 0xae])

/-- `OP_PUSHDATA1` or `OP_PUSHDATA2` with the length of the data. -/
def pushdata (len : ℕ) : Bytes :=
  if len < 0x100 then [0x4c, len.toUInt8] else [0x4d, len.toUInt8, (len / 256).toUInt8]

/-- A spend of an m-of-n output: signatures that one byte of length can push, and the keys of the
redeem script. -/
structure MultisigSpend where
  sigs : List Bytes
  keys : List Bytes
  sigs_length : ∀ sig ∈ sigs, sig.length ≤ 75
  keys_length : ∀ key ∈ keys, key.length = 33
  keys_distinct : keys.Nodup
  sigs_pos : 1 ≤ sigs.length
  sigs_le : sigs.length ≤ keys.length
  limit : (redeemScript sigs.length keys).length ≤ 520

namespace MultisigSpend

def redeem (spend : MultisigSpend) : Bytes :=
  redeemScript spend.sigs.length spend.keys

/-- The scriptSig, as `btc_tx_set_vin_p2sh` makes it. -/
def scriptsig (spend : MultisigSpend) : Bytes :=
  0x00 :: (spend.sigs.flatMap pushed ++ (pushdata spend.redeem.length ++ spend.redeem))

/-- The redeem script is the one that the output pays to, and the signatures verify for some of
the keys in their order. -/
def Valid (spend : MultisigSpend) (crypto : MultisigCrypto) (txHash : Bytes)
    (scriptHash : Vector UInt8 20) : Prop :=
  crypto.ripemd160 (crypto.sha256 spend.redeem).toList = scriptHash ∧
    OrderedMatch.Matches (btcTxVerify crypto txHash) spend.sigs spend.keys

end MultisigSpend

/-- Nothing outside of the scriptSig is read, and what spends an m-of-n output is accepted if and
only if it is valid. -/
structure Right (crypto : MultisigCrypto) (txHash : Bytes) (scriptHash : Vector UInt8 20)
    (scriptsig : Bytes) : Prop where
  inside : btcTxVerifyMultisig crypto scriptsig txHash scriptHash ≠ none
  accepts : ∀ spend : MultisigSpend, spend.scriptsig = scriptsig →
    (btcTxVerifyMultisig crypto scriptsig txHash scriptHash = some true ↔
      spend.Valid crypto txHash scriptHash)

/-! ### Where it goes wrong -/

/-- Data that the loop over the signatures passes. -/
def Passed (data : Bytes) : Prop :=
  data.length < 256 ∧ data.length ≠ 0x4c ∧ data.length ≠ 0x4d

/-- Bytes that are read as the push of the redeem script: an opcode and a varint. -/
def IsPush (push : Bytes) : Prop :=
  ∃ op first, (op = 0x4c ∨ op = 0x4d) ∧
    ((first < 0xfd ∧ push = [op, first]) ∨
      (0xfd ≤ first ∧ ∃ low high, push = [op, first, low, high]))

/-- There is a byte behind the push. -/
def PushFollowed (bytes : Bytes) : Prop :=
  ∃ (push : Bytes) (opM : UInt8) (rest : Bytes), IsPush push ∧ bytes = push ++ opM :: rest

/-- Signatures, a push and keys that the code takes a scriptSig apart into, whatever the push says
of the length. -/
structure Taken (sigs : List Bytes) (push : Bytes) (keys : List Bytes) : Prop where
  passed : ∀ sig ∈ sigs, Passed sig
  isPush : IsPush push
  keys_length : ∀ key ∈ keys, key.length = 33
  signum : sigs.length + 0x50 < 256
  pubnum_pos : 1 ≤ keys.length
  pubnum_le : keys.length ≤ 16

def layout (sigs : List Bytes) (push : Bytes) (keys : List Bytes) : Bytes :=
  0x00 :: (sigs.flatMap pushed ++ (push ++ redeemScript sigs.length keys))

/-- The scriptSig is empty, or it ends behind an `OP_PUSHDATA` and before the number of signatures,
or right behind the number of keys. -/
inductive Truncated : Bytes → Prop
  | empty : Truncated []
  | push (sigs : List Bytes) (op : UInt8) (rest : Bytes) : (∀ sig ∈ sigs, Passed sig) →
      (op = 0x4c ∨ op = 0x4d) →
        ¬ PushFollowed (op :: rest) → Truncated (0x00 :: (sigs.flatMap pushed ++ op :: rest))
  | keys (sigs : List Bytes) (push : Bytes) (keys : List Bytes) : Taken sigs push keys →
      Truncated (0x00 :: (sigs.flatMap pushed ++ (push ++
        (opX sigs.length :: (keys.flatMap pushed ++ [opX keys.length])))))

/-- No empty signature is checked: in a scriptSig with the script hash and with distinct keys, the
signatures before an empty one do not verify for keys behind which there is one for each signature
left. -/
def NoEmptyChecked (crypto : MultisigCrypto) (txHash : Bytes) (scriptHash : Vector UInt8 20)
    (scriptsig : Bytes) : Prop :=
  ∀ (sigs : List Bytes) (push : Bytes) (keys : List Bytes), Taken sigs push keys →
    scriptsig = layout sigs push keys →
    crypto.ripemd160 (crypto.sha256 (redeemScript sigs.length keys)).toList = scriptHash →
      keys.Nodup → ¬ OrderedMatch.Reaches (btcTxVerify crypto txHash) (· = []) sigs keys

/-- The scriptSig does not end where a byte is still read, no empty signature is checked, and what
is valid has its redeem script behind `OP_PUSHDATA1`. -/
structure Readable (crypto : MultisigCrypto) (txHash : Bytes) (scriptHash : Vector UInt8 20)
    (scriptsig : Bytes) : Prop where
  whole : ¬ Truncated scriptsig
  nonempty : NoEmptyChecked crypto txHash scriptHash scriptsig
  short : ∀ spend : MultisigSpend, spend.scriptsig = scriptsig →
    spend.Valid crypto txHash scriptHash → spend.redeem.length < 0x100

end Multisig

end Ptarmigan
