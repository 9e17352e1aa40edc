/-
The closing transaction of a channel without HTLCs: both ends build the same one, whichever
output they add first, and the fee comes out of the funder's output.
-/
import Mathlib.Data.List.Lex
import Ptarmigan.Close

namespace Ptarmigan

variable {crypto : Crypto} {self : LnSelf}

/-! ### The closing transaction -/

/-- The transaction that `create_closing_tx` builds. -/
def closingTx (self : LnSelf) (feeSat : UInt64) : BtcTx where
  vinTxid := self.fundingLocal.txid
  vinIndex := self.fundingLocal.txindex.toNat
  sequence := 0xffffffff
  vout := closingVout self feeSat
  locktime := 0

/-- What a signature of the closing transaction signs. -/
def closingHash (crypto : Crypto) (self : LnSelf) (feeSat : UInt64) : Bytes :=
  crypto.sighash (closingTx self feeSat) self.fundingSat self.redeemFund.script

/-- The own signature of the closing transaction. -/
def closingSignature (crypto : Crypto) (self : LnSelf) (feeSat : UInt64) : Bytes :=
  crypto.sign self.privData.priv.funding (closingHash crypto self feeSat)

/-- The own key of the 2-of-2 script. -/
def LnSelf.ownFundingKey (self : LnSelf) : Bytes :=
  if self.keyFundSortAsc then self.redeemFund.pub1 else self.redeemFund.pub2

/-- The key of the peer in the 2-of-2 script. -/
def LnSelf.peerFundingKey (self : LnSelf) : Bytes :=
  if self.keyFundSortAsc then self.redeemFund.pub2 else self.redeemFund.pub1

/-- The balance of the funder in satoshis. -/
def LnSelf.funderSat (self : LnSelf) : UInt64 :=
  (if self.isFunder then self.ourMsat else self.theirMsat) / 1000

/-- The balance of the fundee in satoshis. -/
def LnSelf.fundeeSat (self : LnSelf) : UInt64 :=
  (if self.isFunder then self.theirMsat else self.ourMsat) / 1000

def LnSelf.funderScriptpk (self : LnSelf) : Bytes :=
  if self.isFunder then self.shutdownScriptpkLocal else self.shutdownScriptpkRemote

def LnSelf.fundeeScriptpk (self : LnSelf) : Bytes :=
  if self.isFunder then self.shutdownScriptpkRemote else self.shutdownScriptpkLocal

/-- One end of a channel that has exchanged `shutdown` and holds no HTLC. -/
structure ClosingParty (crypto : Crypto) (party : LnSelf) : Prop where
  exchanged : party.shutdownFlag.exchanged = true
  script : crypto.sha256 party.redeemFund.script = party.txFundingScript
  key : crypto.priv2pub party.privData.priv.funding = some party.ownFundingKey
  scriptpkLocal : lnScriptScriptpkhCheck party.shutdownScriptpkLocal = true
  scriptpkRemote : lnScriptScriptpkhCheck party.shutdownScriptpkRemote = true
  money : party.ourMsat.toNat + party.theirMsat.toNat = 1000 * party.fundingSat.toNat

/-- The two ends hold the same channel from opposite sides. -/
structure Mirrored (funder fundee : LnSelf) : Prop where
  roles : funder.isFunder = true ∧ fundee.isFunder = false
  channelId : fundee.channelId = funder.channelId
  fundingTxid : fundee.fundingLocal.txid = funder.fundingLocal.txid
  fundingTxindex : fundee.fundingLocal.txindex = funder.fundingLocal.txindex
  fundingSat : fundee.fundingSat = funder.fundingSat
  redeemFund : fundee.redeemFund = funder.redeemFund
  keys : fundee.ownFundingKey = funder.peerFundingKey ∧
    funder.ownFundingKey = fundee.peerFundingKey
  feeratePerKw : fundee.feeratePerKw = funder.feeratePerKw
  balances : fundee.ourMsat = funder.theirMsat ∧ fundee.theirMsat = funder.ourMsat
  scriptpks : fundee.shutdownScriptpkLocal = funder.shutdownScriptpkRemote ∧
    fundee.shutdownScriptpkRemote = funder.shutdownScriptpkLocal

theorem createClosingTx_eq (hlocal : self.shutdownScriptpkLocal.isEmpty = false)
    (hremote : self.shutdownScriptpkRemote.isEmpty = false) {feeSat : UInt64} (verify : Bool)
    (hvalid : (closingTx self feeSat).isValid = true) :
    createClosingTx crypto self feeSat verify =
      (!verify || createToLocalSignVerify crypto self (closingTx self feeSat)
          (closingSignature crypto self feeSat),
        { self with commitRemote :=
            { self.commitRemote with signature := closingSignature crypto self feeSat } }) := by
  have hsign : signCommittx crypto self (closingTx self feeSat) =
      some (closingSignature crypto self feeSat) := by
    simp only [signCommittx, calcSighashP2wsh, hvalid, if_true, Option.map_some]
    rfl
  simp only [createClosingTx, hlocal, hremote, Bool.or_false, Bool.false_eq_true, if_false]
  simp only [closingTx] at hsign ⊢
  rw [hsign]
  rfl

theorem createToLocalSignVerify_iff (self : LnSelf) {tx : BtcTx} (bufSig : Bytes)
    (hvalid : tx.isValid = true)
    (hscript : crypto.sha256 self.redeemFund.script = self.txFundingScript) :
    createToLocalSignVerify crypto self tx bufSig = true ↔
      crypto.verify bufSig (crypto.sighash tx self.fundingSat self.redeemFund.script)
          self.ownFundingKey = true ∧
        crypto.verify self.commitLocal.signature
          (crypto.sighash tx self.fundingSat self.redeemFund.script)
          self.peerFundingKey = true := by
  simp only [createToLocalSignVerify, calcSighashP2wsh, hvalid, if_true, hscript,
    LnSelf.ownFundingKey, LnSelf.peerFundingKey, beq_self_eq_true, Bool.true_and, Bool.and_eq_true]
  cases self.keyFundSortAsc with
  | true => exact Iff.rfl
  | false => exact and_comm

theorem scriptpk_ne_empty {script : Bytes} (hcheck : lnScriptScriptpkhCheck script = true) :
    script.isEmpty = false := by
  cases script with
  | nil => cases hcheck
  | cons byte rest => rfl

/-- The comparison of outputs in `create_closing_tx`. -/
def closingGt (out out' : UInt64 × Bytes) : Bool :=
  if out.1 = out'.1 then
    let len := min out.2.length out'.2.length
    memcmpGt (out.2.take len) (out'.2.take len)
  else decide (out'.1 < out.1)

/-- The output that pays one balance, unless it would be dust. -/
def closingOut (sat feeSat : UInt64) (script : Bytes) : List (UInt64 × Bytes) :=
  if sat > feeSat + btcDustLimit then [(sat - feeSat, script)] else []

theorem closingVout_parts (self : LnSelf) (feeSat : UInt64) :
    closingVout self feeSat = ExchangeSort.sort closingGt
      (closingOut (self.ourMsat / 1000) (if self.isFunder then feeSat else 0)
          self.shutdownScriptpkLocal ++
        closingOut (self.theirMsat / 1000) (if self.isFunder then 0 else feeSat)
          self.shutdownScriptpkRemote) :=
  rfl

/-- The length of a script that passes the check shows in its first two bytes. -/
theorem scriptpk_kind {script : Bytes} (hcheck : lnScriptScriptpkhCheck script = true) :
    (script.length = 25 ∧ script.getD 0 0 = 0x76) ∨ (script.length = 23 ∧ script.getD 0 0 = 0xa9) ∨
      (script.length = 22 ∧ script.getD 0 0 = 0x00 ∧ script.getD 1 0 = 20) ∨
      (script.length = 34 ∧ script.getD 0 0 = 0x00 ∧ script.getD 1 0 = 32) := by
  simp only [lnScriptScriptpkhCheck] at hcheck
  split at hcheck <;> simp only [Bool.and_eq_true, beq_iff_eq, Bool.false_eq_true] at hcheck
  · exact .inl ⟨‹_›, hcheck.1.1.1.1⟩
  · exact .inr (.inl ⟨‹_›, hcheck.1.1⟩)
  · exact .inr (.inr (.inl ⟨‹_›, hcheck⟩))
  · exact .inr (.inr (.inr ⟨‹_›, hcheck⟩))

/-- Of two scripts that pass the check none is the beginning of the other. -/
theorem scriptpk_of_take {script script' : Bytes} (hcheck : lnScriptScriptpkhCheck script = true)
    (hcheck' : lnScriptScriptpkhCheck script' = true)
    (hinitial : script.take (min script.length script'.length) =
      script'.take (min script.length script'.length)) : script = script' := by
  have hkind := scriptpk_kind hcheck
  have hkind' := scriptpk_kind hcheck'
  have hmin : 22 ≤ min script.length script'.length := by omega
  have hbyte : ∀ pos, pos < 22 → script.getD pos 0 = script'.getD pos 0 := by
    intro pos hpos
    have hget := congrArg (fun bytes => bytes.getD pos 0) hinitial
    have htake : ∀ bytes : Bytes,
        (bytes.take (min script.length script'.length)).getD pos 0 = bytes.getD pos 0 := by
      intro bytes
      simp only [List.getD_eq_getElem?_getD]
      rw [List.getElem?_take_of_lt (by omega)]
    rwa [htake, htake] at hget
  have hlength : script.length = script'.length := by
    have hfirst := hbyte 0 (by decide)
    have hsecond := hbyte 1 (by decide)
    rw [hfirst, hsecond] at hkind
    rcases hkind with ⟨hlen, h0⟩ | ⟨hlen, h0⟩ | ⟨hlen, h0, h1⟩ | ⟨hlen, h0, h1⟩ <;>
      rcases hkind' with ⟨hlen', h0'⟩ | ⟨hlen', h0'⟩ | ⟨hlen', h0', h1'⟩ | ⟨hlen', h0', h1'⟩ <;>
      simp_all
  rwa [hlength, Nat.min_self, List.take_length, ← hlength, List.take_length] at hinitial

theorem memcmpGt_asymm {xs ys : Bytes} (hgt : memcmpGt xs ys = true) : memcmpGt ys xs = false := by
  have hlt := (memcmpGt_iff xs ys).mp hgt
  by_contra hback
  exact lt_asymm hlt ((memcmpGt_iff ys xs).mp (Bool.not_eq_false _ |>.mp hback))

theorem eq_of_not_memcmpGt {xs ys : Bytes} (hgt : memcmpGt xs ys = false)
    (hlt : memcmpGt ys xs = false) : xs = ys := by
  have hle : ¬ ys.map UInt8.toNat < xs.map UInt8.toNat := by
    rw [← memcmpGt_iff, hgt]
    exact Bool.false_ne_true
  have hge : ¬ xs.map UInt8.toNat < ys.map UInt8.toNat := by
    rw [← memcmpGt_iff, hlt]
    exact Bool.false_ne_true
  have hmap : xs.map UInt8.toNat = ys.map UInt8.toNat :=
    le_antisymm (not_lt.mp hle) (not_lt.mp hge)
  exact (List.map_inj_right fun _ _ => UInt8.toNat_inj.mp).mp hmap

theorem closingGt_total {out out' : UInt64 × Bytes}
    (hcheck : lnScriptScriptpkhCheck out.2 = true) (hcheck' : lnScriptScriptpkhCheck out'.2 = true)
    (hgt : closingGt out out' = false) (hlt : closingGt out' out = false) : out = out' := by
  by_cases hvalue : out.1 = out'.1
  · have hinitial : out.2.take (min out.2.length out'.2.length) =
        out'.2.take (min out.2.length out'.2.length) := by
      apply eq_of_not_memcmpGt
      · simpa only [closingGt, hvalue, if_true] using hgt
      · simpa only [closingGt, hvalue, if_true, Nat.min_comm out'.2.length] using hlt
    exact Prod.ext hvalue (scriptpk_of_take hcheck hcheck' hinitial)
  · simp only [closingGt, hvalue, Ne.symm hvalue, if_false, decide_eq_false_iff_not,
      UInt64.not_lt] at hgt hlt
    exact absurd (UInt64.le_antisymm hgt hlt) hvalue

theorem closingGt_asymm {out out' : UInt64 × Bytes} (hgt : closingGt out out' = true) :
    closingGt out' out = false := by
  by_cases hvalue : out.1 = out'.1
  · simp only [closingGt, hvalue, if_true] at hgt ⊢
    rw [Nat.min_comm]
    exact memcmpGt_asymm hgt
  · simp only [closingGt, hvalue, Ne.symm hvalue, if_false, decide_eq_true_eq,
      decide_eq_false_iff_not, UInt64.not_lt] at hgt ⊢
    exact UInt64.le_of_lt hgt

/-- Whose output comes first makes no difference. -/
theorem sort_closingOut_comm {sat sat' feeSat feeSat' : UInt64} {script script' : Bytes}
    (hcheck : lnScriptScriptpkhCheck script = true)
    (hcheck' : lnScriptScriptpkhCheck script' = true) :
    ExchangeSort.sort closingGt (closingOut sat feeSat script ++ closingOut sat' feeSat' script') =
      ExchangeSort.sort closingGt
        (closingOut sat' feeSat' script' ++ closingOut sat feeSat script) := by
  by_cases hdust : sat > feeSat + btcDustLimit
  · by_cases hdust' : sat' > feeSat' + btcDustLimit
    · simp only [closingOut, hdust, hdust', if_true, List.singleton_append]
      exact ExchangeSort.sort_swap closingGt_asymm (closingGt_total hcheck hcheck')
    · simp [closingOut, hdust']
  · simp [closingOut, hdust]

theorem ClosingParty.vout (hparty : ClosingParty crypto self) (feeSat : UInt64) :
    closingVout self feeSat = ExchangeSort.sort closingGt
      (closingOut self.funderSat feeSat self.funderScriptpk ++
        closingOut self.fundeeSat 0 self.fundeeScriptpk) := by
  rw [closingVout_parts]
  simp only [LnSelf.funderSat, LnSelf.fundeeSat, LnSelf.funderScriptpk, LnSelf.fundeeScriptpk]
  by_cases hfunder : self.isFunder = true
  · simp only [hfunder, if_true]
  · simp only [hfunder]
    exact sort_closingOut_comm hparty.scriptpkLocal hparty.scriptpkRemote

/-! ### The money of the closing transaction -/

theorem closingOut_total {sat feeSat : UInt64} (script : Bytes) (hfee : feeSat ≤ sat) :
    ((closingOut sat feeSat script).map fun out => out.1.toNat).sum + feeSat.toNat ≤ sat.toNat := by
  have hle : feeSat.toNat ≤ sat.toNat := UInt64.le_iff_toNat_le.mp hfee
  by_cases hdust : sat > feeSat + btcDustLimit
  · simp only [closingOut, hdust, if_true, List.map_cons, List.map_nil, List.sum_cons, List.sum_nil,
      UInt64.toNat_sub_of_le _ _ hfee]
    omega
  · simpa only [closingOut, hdust, if_false, List.map_nil, List.sum_nil, Nat.zero_add] using hle

theorem mem_closingOut {sat feeSat : UInt64} {script : Bytes} {out : UInt64 × Bytes} :
    out ∈ closingOut sat feeSat script ↔
      sat > feeSat + btcDustLimit ∧ out = (sat - feeSat, script) := by
  by_cases hdust : sat > feeSat + btcDustLimit <;> simp [closingOut, hdust]

theorem ClosingParty.mem_vout (hparty : ClosingParty crypto self) {feeSat : UInt64}
    {out : UInt64 × Bytes} :
    out ∈ closingVout self feeSat ↔
      out ∈ closingOut self.funderSat feeSat self.funderScriptpk ∨
        out ∈ closingOut self.fundeeSat 0 self.fundeeScriptpk := by
  rw [hparty.vout, (ExchangeSort.sort_perm _ _).mem_iff, List.mem_append]

theorem ClosingParty.total (hparty : ClosingParty crypto self) {feeSat : UInt64}
    (hfee : feeSat ≤ self.funderSat) :
    ((closingVout self feeSat).map fun out => out.1.toNat).sum + feeSat.toNat ≤
      self.fundingSat.toNat := by
  have hperm := ExchangeSort.sort_perm closingGt
    (closingOut self.funderSat feeSat self.funderScriptpk ++
      closingOut self.fundeeSat 0 self.fundeeScriptpk)
  have hsum := (hperm.map fun out => out.1.toNat).sum_nat
  rw [← hparty.vout, List.map_append, List.sum_append] at hsum
  have hfunder := closingOut_total self.funderScriptpk hfee
  have hfundee := closingOut_total self.fundeeScriptpk
    (UInt64.zero_le : (0 : UInt64) ≤ self.fundeeSat)
  have hmoney := hparty.money
  have hsats : self.funderSat.toNat + self.fundeeSat.toNat ≤ self.fundingSat.toNat := by
    have hthousand : (1000 : UInt64).toNat = 1000 := rfl
    by_cases hside : self.isFunder = true <;>
      simp only [LnSelf.funderSat, LnSelf.fundeeSat, hside, if_true, Bool.false_eq_true, if_false,
        UInt64.toNat_div, hthousand] <;> omega
  omega

/-- The closing transaction pays the fundee in full and takes the fee from the funder; an output
that would be dust is left out. -/
structure PaysFromFunder (party : LnSelf) (feeSat : UInt64) (tx : BtcTx) : Prop where
  outputs : ∀ out ∈ tx.vout,
    (out.1.toNat + feeSat.toNat = party.funderSat.toNat ∧ out.2 = party.funderScriptpk) ∨
      out = (party.fundeeSat, party.fundeeScriptpk)
  fundee : btcDustLimit < party.fundeeSat → (party.fundeeSat, party.fundeeScriptpk) ∈ tx.vout

theorem ClosingParty.pays (hparty : ClosingParty crypto self) {feeSat : UInt64}
    (hfee : feeSat ≤ self.funderSat) : PaysFromFunder self feeSat (closingTx self feeSat) := by
  have hle : feeSat.toNat ≤ self.funderSat.toNat := UInt64.le_iff_toNat_le.mp hfee
  constructor
  · intro out hout
    rcases hparty.mem_vout.mp hout with hfunder | hfundee
    · obtain ⟨-, rfl⟩ := mem_closingOut.mp hfunder
      refine .inl ⟨?_, rfl⟩
      rw [UInt64.toNat_sub_of_le _ _ hfee]
      omega
    · obtain ⟨-, rfl⟩ := mem_closingOut.mp hfundee
      exact .inr (by simp)
  · intro hdust
    apply hparty.mem_vout.mpr
    exact .inr (mem_closingOut.mpr ⟨by simpa using hdust, by simp⟩)

section Mirrored

variable {funder fundee : LnSelf} (hmirror : Mirrored funder fundee)
  (hfunder : ClosingParty crypto funder) (hfundee : ClosingParty crypto fundee)

include hmirror hfunder hfundee

/-- Both ends build the same closing transaction. -/
theorem Mirrored.closingTx_eq (feeSat : UInt64) :
    closingTx fundee feeSat = closingTx funder feeSat := by
  have hvout : closingVout fundee feeSat = closingVout funder feeSat := by
    rw [hfunder.vout, hfundee.vout]
    simp only [LnSelf.funderSat, LnSelf.fundeeSat, LnSelf.funderScriptpk, LnSelf.fundeeScriptpk,
      hmirror.roles.1, hmirror.roles.2, hmirror.balances.1, hmirror.balances.2, hmirror.scriptpks.1,
      hmirror.scriptpks.2, if_true, Bool.false_eq_true, if_false]
  rw [closingTx, closingTx, hvout, hmirror.fundingTxid, hmirror.fundingTxindex]

theorem Mirrored.closingHash_eq (feeSat : UInt64) :
    closingHash crypto fundee feeSat = closingHash crypto funder feeSat := by
  rw [closingHash, closingHash, hmirror.closingTx_eq hfunder hfundee, hmirror.fundingSat,
    hmirror.redeemFund]

end Mirrored

end Ptarmigan
