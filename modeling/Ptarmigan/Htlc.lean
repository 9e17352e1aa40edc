/-
The HTLC slots of a channel: the flag word of a slot, the macros that read it
(`LN_HTLC_WILL_*`, `LN_HTLC_ENABLE_*`) and the functions that reset it.
-/
import Ptarmigan.Tx

namespace Ptarmigan

/-- `LN_HTLC_MAX`: the number of HTLC slots of a channel. -/
abbrev lnHtlcMax : Nat := 6

/-- An index into `cnl_add_htlc`. -/
abbrev HtlcIdx := Fin lnHtlcMax

instance neZero_lnHtlcMax : NeZero lnHtlcMax := ⟨by decide⟩

/-- `LN_ADDHTLC_NONE` / `OFFER` / `RECV`. -/
inductive LnAddhtlc
  | none
  | offer
  | recv
deriving DecidableEq, Repr

/-- `LN_DELHTLC_NONE` / `FULFILL` / `FAIL` / `MALFORMED`. -/
inductive LnDelhtlc
  | none
  | fulfill
  | fail
  | malformed
deriving DecidableEq, Repr

/-- `ln_htlcflag_t`. -/
structure LnHtlcflag where
  addhtlc : LnAddhtlc := .none
  delhtlc : LnDelhtlc := .none
  updsend : Bool := false
  comsend : Bool := false
  revrecv : Bool := false
  comrecv : Bool := false
  revsend : Bool := false
  finDelhtlc : LnDelhtlc := .none
  updwait : Bool := false
deriving DecidableEq, Repr

namespace LnHtlcflag

variable (flag : LnHtlcflag)

/-- `LN_HTLC_WILL_ADDHTLC`: an `update_add_htlc` is due. -/
def willAddhtlc : Bool :=
  flag.addhtlc == .offer && flag.delhtlc == .none && !flag.updsend && !flag.updwait

/-- `LN_HTLC_WILL_DELHTLC`: an `update_fulfill/fail/fail_malformed_htlc` is due. -/
def willDelhtlc : Bool :=
  flag.addhtlc == .recv && flag.delhtlc != .none && !flag.updsend && !flag.updwait

def enableLocalAddhtlcOffer : Bool :=
  flag.addhtlc == .offer && flag.delhtlc == .none && flag.updsend && flag.comsend &&
    flag.revrecv

def enableLocalDelhtlcOffer : Bool :=
  flag.addhtlc == .offer && flag.delhtlc != .none

def enableLocalFulfillOffer : Bool :=
  flag.addhtlc == .offer && flag.delhtlc == .fulfill

def enableRemoteAddhtlcOffer : Bool :=
  flag.addhtlc == .offer && flag.updsend &&
    !(flag.delhtlc != .none && flag.comrecv && flag.revsend)

def enableRemoteDelhtlcOffer : Bool :=
  flag.addhtlc == .offer && flag.delhtlc != .none && flag.comrecv && flag.revsend

def enableRemoteFulfillOffer : Bool :=
  flag.addhtlc == .offer && flag.delhtlc == .fulfill && flag.comrecv && flag.revsend

def willComsigOffer : Bool :=
  ((flag.enableRemoteAddhtlcOffer && flag.delhtlc == .none) ||
    flag.enableRemoteDelhtlcOffer) && !flag.comsend

def enableLocalAddhtlcRecv : Bool :=
  flag.addhtlc == .recv && !(flag.updsend && flag.comsend && flag.revrecv)

def enableLocalDelhtlcRecv : Bool :=
  flag.addhtlc == .recv && flag.delhtlc != .none && flag.updsend && flag.comsend &&
    flag.revrecv

def enableLocalFulfillRecv : Bool :=
  flag.addhtlc == .recv && flag.delhtlc == .fulfill && flag.updsend && flag.comsend &&
    flag.revrecv

def enableRemoteAddhtlcRecv : Bool :=
  flag.addhtlc == .recv && !flag.updsend && flag.comrecv && flag.revsend

def enableRemoteDelhtlcRecv : Bool :=
  flag.addhtlc == .recv && flag.updsend

def enableRemoteFulfillRecv : Bool :=
  flag.enableRemoteDelhtlcRecv && flag.delhtlc == .fulfill

def willComsigRecv : Bool :=
  (flag.enableRemoteAddhtlcRecv || flag.enableRemoteDelhtlcRecv) && !flag.comsend

/-- All of `comsend`, `revrecv`, `comrecv` and `revsend`: the last update of the
slot has been committed and revoked in both directions. -/
def comrevAll : Bool :=
  flag.comsend && flag.revrecv && flag.comrecv && flag.revsend

/-- One of the pairs `comsend`/`revrecv` (`LN_HTLCFLAG_MASK_COMSIG1`) and
`comrecv`/`revsend` (`LN_HTLCFLAG_MASK_COMSIG2`) is half done. -/
def comsiging : Bool :=
  flag.comsend != flag.revrecv || flag.comrecv != flag.revsend

/-- The slots whose commitment flags `recv_idle_proc_nonfinal` and
`recv_revoke_and_ack` advance: those that matter to the remote `commit_tx`. -/
def remoteCounted : Bool :=
  flag.enableRemoteAddhtlcOffer || flag.enableRemoteAddhtlcRecv ||
    flag.enableRemoteDelhtlcOffer || flag.enableRemoteDelhtlcRecv

/-- The slots whose commitment flags `recv_commitment_signed` advances: those
that matter to the local `commit_tx`. -/
def localCounted : Bool :=
  flag.enableLocalAddhtlcOffer || flag.enableLocalAddhtlcRecv ||
    flag.enableLocalDelhtlcOffer || flag.enableLocalDelhtlcRecv

/-- The flag part of `clear_htlc_comrevflag`. -/
def clearComrev (delHtlc : LnDelhtlc) : LnHtlcflag :=
  if flag.comrevAll then
    { flag with delhtlc := delHtlc, comsend := false, revrecv := false,
                comrecv := false, revsend := false }
  else flag

/-- `M_HTLCFLAG_BITS_ADDHTLC`, compared as `ln_channel_reestablish_after` does:
without `fin_delhtlc`. -/
def bitsAddhtlc : Bool :=
  { flag with finDelhtlc := .none } ==
    { addhtlc := .offer, updsend := true, comsend := true }

/-- `M_HTLCFLAG_BITS_FULFILLHTLC` / `FAILHTLC` / `MALFORMEDHTLC`, by the removal
they carry. -/
def bitsDelhtlc (delHtlc : LnDelhtlc) : Bool :=
  { flag with finDelhtlc := .none } ==
    { addhtlc := .recv, delhtlc := delHtlc, updsend := true, comsend := true }

end LnHtlcflag

/-- `ln_update_add_htlc_t`: one HTLC slot.  `prev_idx` and `next_idx` only ever
hold slot indices, zero in an empty slot. -/
structure LnUpdateAddHtlc where
  id : Nat := 0
  amountMsat : UInt64 := 0
  cltvExpiry : UInt32 := 0
  paymentSha256 : Bytes := []
  bufPaymentPreimage : Bytes := []
  bufOnionReason : Bytes := []
  flag : LnHtlcflag := {}
  nextShortChannelId : UInt64 := 0
  nextIdx : HtlcIdx := 0
  signature : Bytes := []
  prevShortChannelId : UInt64 := 0
  prevIdx : HtlcIdx := 0
  bufSharedSecret : Bytes := []
deriving DecidableEq, Repr

namespace LnUpdateAddHtlc

/-- `LN_HTLC_EMPTY`. -/
def empty (htlc : LnUpdateAddHtlc) : Bool :=
  htlc.flag.addhtlc == .none && htlc.amountMsat == 0

/-- `LN_HTLC_ENABLE`. -/
def enable (htlc : LnUpdateAddHtlc) : Bool :=
  !htlc.empty

/-- `clear_htlc_comrevflag`: the flags go, and the removal is set, only when the
exchange of `commitment_signed` and `revoke_and_ack` has finished. -/
def clearHtlcComrevflag (htlc : LnUpdateAddHtlc) (delHtlc : LnDelhtlc) : LnUpdateAddHtlc :=
  { htlc with flag := htlc.flag.clearComrev delHtlc }

end LnUpdateAddHtlc

/-- `cnl_add_htlc`. -/
abbrev Slots := HtlcIdx → LnUpdateAddHtlc

/-- The first empty slot. -/
def firstEmpty (slots : Slots) : Option HtlcIdx :=
  (List.finRange lnHtlcMax).find? fun idx => (slots idx).empty

/-- The first slot of an offered HTLC with the given id: the search of the
handlers of `update_fulfill/fail/fail_malformed_htlc`. -/
def findOffered (slots : Slots) (id : Nat) : Option HtlcIdx :=
  (List.finRange lnHtlcMax).find? fun idx =>
    (slots idx).id == id && (slots idx).flag.addhtlc == .offer

theorem empty_of_firstEmpty {slots : Slots} {idx : HtlcIdx}
    (hfirst : firstEmpty slots = some idx) : (slots idx).empty = true :=
  List.find?_some (p := fun idx => (slots idx).empty) hfirst

theorem addhtlc_of_empty {htlc : LnUpdateAddHtlc} (hempty : htlc.empty = true) :
    htlc.flag.addhtlc = .none := by
  simp only [LnUpdateAddHtlc.empty, Bool.and_eq_true, beq_iff_eq] at hempty
  exact hempty.1

theorem addhtlc_of_findOffered {slots : Slots} {id : Nat} {idx : HtlcIdx}
    (hfind : findOffered slots id = some idx) : (slots idx).flag.addhtlc = .offer := by
  have hfound := List.find?_some hfind
  simp only [Bool.and_eq_true, beq_iff_eq] at hfound
  exact hfound.2

theorem not_counted_of_none {flag : LnHtlcflag} (hnone : flag.addhtlc = .none) :
    flag.remoteCounted = false ∧ flag.localCounted = false := by
  simp [LnHtlcflag.remoteCounted, LnHtlcflag.localCounted, LnHtlcflag.enableRemoteAddhtlcOffer,
    LnHtlcflag.enableRemoteAddhtlcRecv, LnHtlcflag.enableRemoteDelhtlcOffer,
    LnHtlcflag.enableRemoteDelhtlcRecv, LnHtlcflag.enableLocalAddhtlcOffer,
    LnHtlcflag.enableLocalAddhtlcRecv, LnHtlcflag.enableLocalDelhtlcOffer,
    LnHtlcflag.enableLocalDelhtlcRecv, hnone]

end Ptarmigan
