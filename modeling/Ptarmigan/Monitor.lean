/-
The monitor of a closed channel (`monitoring.c`), over what the bitcoin node answers: the
search for transactions in the latest blocks, the passes that follow a unilateral close and
those that follow a revoked one.
-/
import Ptarmigan.ClosedTx
import Ptarmigan.ForceClose

namespace Ptarmigan

/-! ### The bitcoin node -/

/-- `btc_vin_t`. -/
structure ChainVin where
  txid : Bytes
  index : Nat
  witness : List Bytes := []
deriving DecidableEq, Repr

/-- A transaction of a block. -/
structure ChainTx where
  vin : List ChainVin
  vout : List (UInt64 × Bytes)
deriving DecidableEq, Repr

/-- The answers of the bitcoin node during a search: `getblockcount`, and the transactions
of a block that it hands out. -/
structure Chain where
  height : Option Int
  block : Int → List ChainTx

/-- `btcrpc_search_outpoint` and `btcrpc_search_vout` go through the latest blocks, the newest
first, and stop at the first in which something is found. -/
def Chain.search {Found : Type} (chain : Chain) (blks : UInt32)
    (find : List ChainTx → Option Found) : Option Found :=
  chain.height.bind fun height =>
    (List.range blks.toNat).findSome? fun back => find (chain.block (height - back))

/-- `btcrpc_search_outpoint`, which only looks at transactions with one input. -/
def btcrpcSearchOutpoint (chain : Chain) (blks : UInt32) (txid : Bytes) (index : Nat) :
    Option ChainTx :=
  chain.search blks fun txs => txs.find? fun tx =>
    match tx.vin with
    | [vin] => vin.txid == txid && vin.index == index
    | _ => false

/-- The number of scripts that `search_vout_block` compares with: the length of the first one
divided by `sizeof(utl_buf_t)`. -/
def searchVoutNum (vout : Nat → Bytes) : Nat :=
  (vout 0).length / 16

/-- A transaction is found by its first output. -/
def ChainTx.voutMatches (vout : Nat → Bytes) (tx : ChainTx) : Bool :=
  (List.range (searchVoutNum vout)).any fun index =>
    (tx.vout.head?.map Prod.snd) == some (vout index)

/-- `btcrpc_search_vout`: the transactions found, none when nothing is. -/
def btcrpcSearchVout (chain : Chain) (blks : UInt32) (vout : Nat → Bytes) : List ChainTx :=
  (chain.search blks fun txs =>
    let found := txs.filter (ChainTx.voutMatches vout)
    if found.isEmpty then none else some found).getD []

/-! ### A unilateral close -/

/-- What the monitor is told while it deals with a close entry.  An answer that is `none` is a
failed call. -/
structure EntryAnswers where
  /-- `btcrpc_is_tx_broadcasted`. -/
  broadcasted : Bool := false
  /-- `btcrpc_check_unspent`. -/
  unspent : Option Bool := none
  /-- `btcrpc_get_confirm`. -/
  confm : Option UInt32 := none
  /-- What `btcrpc_search_outpoint` searches. -/
  chain : Chain := ⟨none, fun _ => []⟩
  /-- `btcrpc_send_rawtx`. -/
  sent : Bool := false
  /-- `ln_db_wallet_load`. -/
  walletSaved : Bool := false
  /-- `btcrpc_getblockcount`. -/
  blkcnt : Option Int := none

/-- A pass of the monitor after a unilateral close: whether it reports the channel as
deletable, the preimages it has saved, and whether an `assert` has failed, a null pointer was
read or a buffer was left. -/
structure ClosePass where
  del : Bool := true
  saved : List Bytes := []
  aborted : Bool := false
deriving DecidableEq, Repr

/-- `UINT64_MAX` in `prev_short_channel_id`: this node is the origin. -/
def originShortChannelId : UInt64 := 0xffffffffffffffff

/-- `LN_SZ_PREIMAGE`. -/
def lnSzPreimage : Nat := 32

/-- `ln_preimage_remote`. -/
def lnPreimageRemote (tx : ChainTx) : Option Bytes :=
  tx.vin.head?.bind fun vin => if vin.witness.length = 5 then vin.witness[3]? else none

/-- The search for the preimage in the transaction that spends an output of the commitment
transaction; the number of the close entry serves as the output index.  `LN_SZ_PREIMAGE` bytes
are copied from the item, whatever its length. -/
def extractPreimage (answers : EntryAnswers) (txid : Bytes) (htlcIdx : Nat) (pass : ClosePass) :
    ClosePass :=
  match answers.confm with
  | none => pass
  | some confm =>
      match btcrpcSearchOutpoint answers.chain confm txid htlcIdx with
      | none => { pass with del := false }
      | some tx =>
          match lnPreimageRemote tx with
          | some preimage =>
              if preimage.length < lnSzPreimage then { pass with aborted := true }
              else { pass with saved := pass.saved ++ [preimage.take lnSzPreimage] }
          | none => { pass with aborted := true }

/-- `close_unilateral_local_offered` for a spent output; the number of the close entry serves
as the slot. -/
def closeUnilateralLocalOffered (self : LnSelf) (answers : EntryAnswers) (txid : Bytes)
    (htlcIdx : Nat) (pass : ClosePass) : ClosePass :=
  match lnUpdateAddHtlc self htlcIdx with
  | none => { pass with aborted := true }
  | some htlc =>
      if htlc.prevShortChannelId = originShortChannelId then pass
      else if htlc.prevShortChannelId ≠ 0 then extractPreimage answers txid htlcIdx pass
      else pass

/-- `close_unilateral_local_sendreq`. -/
def closeUnilateralLocalSendreq (answers : EntryAnswers) (pass : ClosePass) : ClosePass :=
  if answers.sent then pass else { pass with del := false }

/-- `LN_CLOSE_IDX_COMMIT`. -/
def lnCloseIdxCommit : Nat := 0

/-- `LN_CLOSE_IDX_NONE`, which `p_htlc_idx` holds for an entry that is not an HTLC. -/
def lnCloseIdxNone : Nat := 0xff

/-- `p_tx[LN_CLOSE_IDX_COMMIT].vout[0].opt` read as an HTLC type.  For an HTLC output the field
holds the position in `pp_htlcinfo`, which its entry, the first one, holds too. -/
def LnCloseForce.commitOpt (close : LnCloseForce) : Option LnHtlctype :=
  match close.commit.vout.head?.map BtcVout.opt with
  | some (.htlc _) =>
      match close.htlcs.head?.map CloseEntry.htlcIdx with
      | some 1 => some .offered
      | some 2 => some .received
      | _ => none
  | _ => none

/-- The body of the loop of `monitor_close_unilateral_local` for the commitment transaction,
which goes through the `switch` like an HTLC entry. -/
def monitorLocalCommit (self : LnSelf) (txid : Bytes) (answers : EntryAnswers)
    (close : LnCloseForce) (pass : ClosePass) : ClosePass :=
  if answers.broadcasted then pass
  else
    match answers.unspent with
    | none => { pass with del := false }
    | some unspent =>
        if close.commit.vout.isEmpty then { pass with aborted := true }
        else
          match close.commitOpt with
          | some .offered =>
              if unspent then closeUnilateralLocalSendreq answers pass
              else closeUnilateralLocalOffered self answers txid lnCloseIdxNone pass
          | some .received =>
              if unspent then closeUnilateralLocalSendreq answers pass else pass
          | none => closeUnilateralLocalSendreq answers pass

/-- The body of the loop of `monitor_close_unilateral_local` for an HTLC entry; nothing more is
done once the process is gone. -/
def monitorLocalEntry (self : LnSelf) (txid : Bytes) (answers : EntryAnswers)
    (entry : Option CloseEntry) (pass : ClosePass) : ClosePass :=
  if pass.aborted then pass
  else
    match entry with
    | none | some ⟨none, _⟩ => { pass with del := false }
    | some ⟨some close, htlcIdx⟩ =>
        if answers.broadcasted then pass
        else
          match answers.unspent with
          | none => { pass with del := false }
          | some unspent =>
              match close.opt with
              | some .offered =>
                  if unspent then closeUnilateralLocalSendreq answers pass
                  else closeUnilateralLocalOffered self answers txid htlcIdx pass
              | some .received =>
                  if unspent then closeUnilateralLocalSendreq answers pass else pass
              | none => closeUnilateralLocalSendreq answers pass

/-- `close_unilateral_remote_offered`. -/
def closeUnilateralRemoteOffered (self : LnSelf) (answers : EntryAnswers) (txid : Bytes)
    (htlcIdx : Nat) (pass : ClosePass) : ClosePass :=
  match lnUpdateAddHtlc self htlcIdx with
  | none => { pass with aborted := true }
  | some htlc =>
      if htlc.prevShortChannelId ≠ 0 then
        if answers.unspent = some false then pass else extractPreimage answers txid htlcIdx pass
      else pass

/-- The body of the loop of `close_unilateral_remote` for an HTLC entry. -/
def closeRemoteEntry (self : LnSelf) (txid : Bytes) (answers : EntryAnswers)
    (entry : Option CloseEntry) (pass : ClosePass) : ClosePass :=
  if pass.aborted then pass
  else
    match entry with
    | none | some ⟨none, _⟩ => { pass with del := false }
    | some ⟨some close, htlcIdx⟩ =>
        if close.witness.length > 0 then
          if answers.unspent = some false ∨ answers.walletSaved = true then pass
          else if close.tx.locktime = 0 ∨ (answers.blkcnt.any fun blkcnt =>
              decide (0 < blkcnt ∧ (close.tx.locktime.toNat : Int) ≤ blkcnt)) = true then pass
          else { pass with del := false }
        else if close.opt = some .offered then
          closeUnilateralRemoteOffered self answers txid htlcIdx pass
        else pass

/-- The loop over the HTLC entries, as many as have been allocated; the answers are those at
`LN_CLOSE_IDX_HTLC` and after. -/
def LnCloseForce.forEntries (close : LnCloseForce) (answers : Nat → EntryAnswers)
    (body : EntryAnswers → Option CloseEntry → ClosePass → ClosePass) (pass : ClosePass) :
    ClosePass :=
  (List.range (close.num - lnCloseIdxHtlc)).foldl
    (fun pass pos => body (answers (lnCloseIdxHtlc + pos)) close.htlcs[pos]? pass) pass

/-- `monitor_close_unilateral_local`: the commitment transaction, then the HTLC entries. -/
def monitorCloseUnilateralLocal (crypto : Crypto) (searchPreimage : Bytes → Option Bytes)
    (self : LnSelf) (answers : Nat → EntryAnswers) : ClosePass :=
  match lnCloseUnilateral crypto searchPreimage self with
  | none => { del := false }
  | some close =>
      let txid := crypto.txid close.commit.tx
      close.forEntries answers (monitorLocalEntry self txid)
        (monitorLocalCommit self txid (answers lnCloseIdxCommit) close {})

/-- `close_unilateral_remote`; nothing is done for the commitment transaction. -/
def closeUnilateralRemote (crypto : Crypto) (searchPreimage : Bytes → Option Bytes)
    (self : LnSelf) (answers : Nat → EntryAnswers) : ClosePass :=
  match (lnCloseCreateTx crypto searchPreimage self).1 with
  | none => { del := false }
  | some close =>
      close.forEntries answers (closeRemoteEntry self (crypto.txid close.commit.tx)) {}

/-! ### A revoked close -/

/-- A pass of the monitor after a revoked close: the state it leaves, whether it reports the
channel as deletable, and what it has claimed. -/
structure RevokedPass (Item : Type) where
  revoked : RevokedClose
  del : Bool := false
  claims : List Item := []

/-- A successful claim and `ln_revoked_cnt_dec`. -/
def RevokedPass.claim {Item : Type} (pass : RevokedPass Item) (item : Item) :
    RevokedPass Item where
  revoked := { pass.revoked with cnt := pass.revoked.cnt - 1 }
  del := pass.revoked.cnt - 1 == 0
  claims := pass.claims ++ [item]

/-- `ln_set_revoked_confm`. -/
def RevokedPass.setConfm {Item : Type} (pass : RevokedPass Item) (confm : UInt32) :
    RevokedPass Item :=
  { pass with revoked := { pass.revoked with chk := confm } }

/-- The inner loop of `close_revoked_first`; `broadcast` is whether the transaction that
`close_revoked_htlc` makes from an output and a witness script is accepted. -/
def claimHtlc (broadcast : Nat → Nat → Bool) (confm : UInt32) (script : Bytes) (index : Nat)
    (pass : RevokedPass Nat) (wit : Nat) : RevokedPass Nat :=
  if script = pass.revoked.vout wit ∧ broadcast index wit = true then
    (pass.claim index).setConfm confm
  else pass

/-- The body of the loop of `close_revoked_first`, for an output.  `close_revoked_tolocal`
puts a to_local output into the wallet, which cannot fail. -/
def closeRevokedVout (broadcast : Nat → Nat → Bool) (confm : UInt32) (pass : RevokedPass Nat)
    (out : Bytes × Nat) : RevokedPass Nat :=
  let (script, index) := out
  if script = pass.revoked.vout lnRcloseIdxTolocal then (pass.claim index).setConfm confm
  else if script = pass.revoked.vout lnRcloseIdxToremote then pass
  else
    (List.range' lnRcloseIdxHtlc (pass.revoked.num.toNat - lnRcloseIdxHtlc)).foldl
      (claimHtlc broadcast confm script index) pass

/-- `close_revoked_first`. -/
def closeRevokedFirst (broadcast : Nat → Nat → Bool) (confm : UInt32) (revoked : RevokedClose)
    (tx : BtcTx) : RevokedPass Nat :=
  (tx.vout.map Prod.snd).zipIdx.foldl (closeRevokedVout broadcast confm) { revoked }

/-- `close_revoked_after`: the first output of every transaction found is taken. -/
def closeRevokedAfter (chain : Chain) (confm : UInt32) (revoked : RevokedClose) :
    RevokedPass ChainTx :=
  if confm = revoked.chk then { revoked }
  else
    let found := btcrpcSearchVout chain (confm - revoked.chk) revoked.vout
    (found.foldl RevokedPass.claim ({ revoked } : RevokedPass ChainTx)).setConfm confm

end Ptarmigan
