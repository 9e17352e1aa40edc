/-
The commitment transactions shown on request: `lnapp_get_committx` rebuilds one with the functions
made for closing, which also write to the channel and to the preimage database.
-/
import Ptarmigan.ChannelRun
import Ptarmigan.ForceClose

namespace Ptarmigan

/-! ### The preimage database -/

/-- A record of the preimage database: the key and `preimg_info_t`. -/
structure PreimgEntry where
  preimage : Bytes
  amountMsat : UInt64
  creation : UInt64
  expiry : UInt32
deriving DecidableEq, Repr

/-- The records in the order of the cursor. -/
abbrev PreimgDb := List PreimgEntry

/-- An expiry of `UINT32_MAX`: never. -/
def PreimgEntry.never : UInt32 := 0xffffffff

/-- `ln_db_preimg_cur_get` hands the record out; one that is not is deleted on the way. -/
def PreimgEntry.live (now : UInt64) (entry : PreimgEntry) : Bool :=
  entry.expiry == never || decide (now ≤ entry.creation + entry.expiry.toUInt64)

/-- What a query finds around it: the time, and `LN_DBG_MATCH_PREIMAGE`. -/
structure QueryEnv where
  now : UInt64
  dbgMatchPreimage : Bool := true

/-- `ln_db_preimg_search` with `search_preimage_func`: the preimage, and the database behind the
search.  While closing, the record found is kept for ever. -/
def searchPreimageFrom (crypto : Crypto) (now : UInt64) (payHash : Bytes) (closing : Bool) :
    PreimgDb → Option Bytes × PreimgDb
  | [] => (none, [])
  | entry :: rest =>
      if entry.live now then
        if crypto.sha256 entry.preimage = payHash then
          (some entry.preimage,
            { entry with expiry := if closing then PreimgEntry.never else entry.expiry } :: rest)
        else
          let (found, rest) := searchPreimageFrom crypto now payHash closing rest
          (found, entry :: rest)
      else searchPreimageFrom crypto now payHash closing rest

/-- `search_preimage`. -/
def searchPreimage (crypto : Crypto) (env : QueryEnv) (payHash : Bytes) (closing : Bool)
    (db : PreimgDb) : Option Bytes × PreimgDb :=
  if env.dbgMatchPreimage then searchPreimageFrom crypto env.now payHash closing db
  else (none, db)

/-- The database behind the searches of a closing function, one after another. -/
def closingSearches (crypto : Crypto) (env : QueryEnv) (payHashes : List Bytes) (db : PreimgDb) :
    PreimgDb :=
  payHashes.foldl (fun db payHash => (searchPreimage crypto env payHash true db).2) db

section Search

variable {crypto : Crypto} {env : QueryEnv} {now : UInt64} {payHash : Bytes} {closing : Bool}

/-- What a search finds: the first live record with the hash. -/
theorem searchPreimageFrom_found (db : PreimgDb) :
    (searchPreimageFrom crypto now payHash closing db).1 =
      ((db.filter (PreimgEntry.live now)).map PreimgEntry.preimage).find? fun preimage =>
        crypto.sha256 preimage = payHash := by
  induction db with
  | nil => rfl
  | cons entry rest ih =>
      by_cases hlive : entry.live now = true
      · by_cases hmatch : crypto.sha256 entry.preimage = payHash
        · simp [searchPreimageFrom, hlive, hmatch]
        · simp [searchPreimageFrom, hlive, hmatch, ih]
      · simp [searchPreimageFrom, hlive, ih]

/-- A search leaves the live records with their preimages. -/
theorem searchPreimageFrom_live (db : PreimgDb) :
    ((searchPreimageFrom crypto now payHash closing db).2.filter (PreimgEntry.live now)).map
        PreimgEntry.preimage =
      (db.filter (PreimgEntry.live now)).map PreimgEntry.preimage := by
  induction db with
  | nil => rfl
  | cons entry rest ih =>
      by_cases hlive : entry.live now = true
      · by_cases hmatch : crypto.sha256 entry.preimage = payHash
        · have hkept : PreimgEntry.live now { entry with
              expiry := if closing then PreimgEntry.never else entry.expiry } = true := by
            cases closing with
            | true => simp [PreimgEntry.live]
            | false => exact hlive
          simp [searchPreimageFrom, hlive, hmatch, hkept]
        · simp [searchPreimageFrom, hlive, hmatch, ih]
      · simp [searchPreimageFrom, hlive, ih]

/-- The searches of a query all find what they would find in the database it started with. -/
theorem searchPreimage_closingSearches (payHashes : List Bytes) (db : PreimgDb) :
    (searchPreimage crypto env payHash closing (closingSearches crypto env payHashes db)).1 =
      (searchPreimage crypto env payHash closing db).1 := by
  induction payHashes generalizing db with
  | nil => rfl
  | cons first rest ih =>
      have hrest := ih (searchPreimage crypto env first true db).2
      rw [closingSearches, List.foldl_cons]
      rw [closingSearches] at hrest
      rw [hrest]
      cases hdbg : env.dbgMatchPreimage with
      | false => simp [searchPreimage, hdbg]
      | true =>
          simp only [searchPreimage, hdbg, if_true]
          rw [searchPreimageFrom_found, searchPreimageFrom_found, searchPreimageFrom_live]

/-! ### Searches that write nothing -/

/-- The search comes to no record that has expired, and what it finds never expires. -/
structure Settled (crypto : Crypto) (now : UInt64) (payHash : Bytes) (db : PreimgDb) : Prop where
  passed : ∀ entry ∈ db.takeWhile (fun entry => !decide (crypto.sha256 entry.preimage = payHash)),
    entry.live now = true
  found : ∀ entry, db.find? (fun entry => crypto.sha256 entry.preimage = payHash) = some entry →
    entry.expiry = PreimgEntry.never

/-- The weight of a record falls when it is deleted and when it is kept for ever. -/
def PreimgEntry.weight (entry : PreimgEntry) : Nat :=
  if entry.expiry = never then 1 else 2

def PreimgDb.weight (db : PreimgDb) : Nat := (db.map PreimgEntry.weight).sum

theorem PreimgEntry.weight_pos (entry : PreimgEntry) : 0 < entry.weight := by
  rw [PreimgEntry.weight]
  split <;> decide

/-- A search lowers the weight of the database or leaves it as it is. -/
theorem searchPreimageFrom_weight (db : PreimgDb) :
    (searchPreimageFrom crypto now payHash true db).2 = db ∨
      PreimgDb.weight (searchPreimageFrom crypto now payHash true db).2 < PreimgDb.weight db := by
  induction db with
  | nil => exact .inl rfl
  | cons entry rest ih =>
      have hpos := entry.weight_pos
      by_cases hlive : entry.live now = true
      · by_cases hmatch : crypto.sha256 entry.preimage = payHash
        · by_cases hnever : entry.expiry = PreimgEntry.never
          · have hsame : { entry with expiry := PreimgEntry.never } = entry := by rw [← hnever]
            exact .inl (by simp [searchPreimageFrom, hlive, hmatch, hsame])
          · have hfalls : PreimgEntry.weight { entry with expiry := PreimgEntry.never } <
                entry.weight := by
              simp [PreimgEntry.weight, hnever]
            exact .inr (by simp [searchPreimageFrom, hlive, hmatch, PreimgDb.weight, hfalls])
        · rcases ih with hsame | hfalls
          · exact .inl (by simp [searchPreimageFrom, hlive, hmatch, hsame])
          · refine .inr ?_
            simp only [PreimgDb.weight] at hfalls
            simp [searchPreimageFrom, hlive, hmatch, PreimgDb.weight, hfalls]
      · refine .inr ?_
        have hdropped : PreimgDb.weight (searchPreimageFrom crypto now payHash true rest).2 ≤
            PreimgDb.weight rest := by
          rcases ih with hsame | hfalls
          · rw [hsame]
          · exact hfalls.le
        simp only [PreimgDb.weight] at hdropped
        simp only [searchPreimageFrom, hlive, Bool.false_eq_true, if_false, PreimgDb.weight,
          List.map_cons, List.sum_cons]
        omega

theorem searchPreimageFrom_weight_le (db : PreimgDb) :
    PreimgDb.weight (searchPreimageFrom crypto now payHash true db).2 ≤ PreimgDb.weight db := by
  rcases searchPreimageFrom_weight db with hsame | hfalls
  · rw [hsame]
  · exact hfalls.le

/-- A record that has expired is deleted. -/
theorem searchPreimageFrom_expired {entry : PreimgEntry} {rest : PreimgDb}
    (hexpired : ¬ entry.live now = true) :
    (searchPreimageFrom crypto now payHash true (entry :: rest)).2 ≠ entry :: rest := by
  intro hsame
  have hle : PreimgDb.weight (searchPreimageFrom crypto now payHash true rest).2 ≤
      PreimgDb.weight rest := searchPreimageFrom_weight_le rest
  have hpos := entry.weight_pos
  have hweight := congrArg PreimgDb.weight hsame
  simp only [searchPreimageFrom, hexpired, Bool.false_eq_true, if_false] at hweight
  simp only [PreimgDb.weight, List.map_cons, List.sum_cons] at hle hweight
  omega

/-- A search while closing writes nothing exactly when everything it comes to is settled. -/
theorem searchPreimageFrom_eq_iff (db : PreimgDb) :
    (searchPreimageFrom crypto now payHash true db).2 = db ↔ Settled crypto now payHash db := by
  induction db with
  | nil => exact ⟨fun _ => ⟨by simp, by simp⟩, fun _ => rfl⟩
  | cons entry rest ih =>
      by_cases hmatch : crypto.sha256 entry.preimage = payHash
      · have hsettled : Settled crypto now payHash (entry :: rest) ↔
            entry.expiry = PreimgEntry.never := by
          constructor
          · exact fun hall => hall.found entry (by simp [hmatch])
          · intro hnever
            exact ⟨by simp [hmatch], by simp [hmatch, hnever]⟩
        rw [hsettled]
        by_cases hlive : entry.live now = true
        · simp only [searchPreimageFrom, hlive, hmatch, if_true, List.cons.injEq, and_true]
          constructor
          · exact fun hsame => (congrArg PreimgEntry.expiry hsame).symm
          · intro hnever
            rw [← hnever]
        · constructor
          · exact fun hsame => absurd hsame (searchPreimageFrom_expired hlive)
          · exact fun hnever => absurd (by simp [PreimgEntry.live, hnever]) hlive
      · by_cases hlive : entry.live now = true
        · have hsettled : Settled crypto now payHash (entry :: rest) ↔
              Settled crypto now payHash rest := by
            constructor
            · intro hall
              exact ⟨fun other hmem => hall.passed other (by simp [hmatch, hmem]),
                fun other hfind => hall.found other (by simp [hmatch, hfind])⟩
            · intro hall
              refine ⟨?_, fun other hfind => hall.found other (by simpa [hmatch] using hfind)⟩
              intro other hmem
              simp only [hmatch, decide_false, Bool.not_false, List.takeWhile_cons_of_pos,
                List.mem_cons] at hmem
              rcases hmem with rfl | hrest
              · exact hlive
              · exact hall.passed other hrest
          rw [hsettled, ← ih]
          simp [searchPreimageFrom, hlive, hmatch]
        · constructor
          · exact fun hsame => absurd hsame (searchPreimageFrom_expired hlive)
          · exact fun hall => absurd (hall.passed entry (by simp [hmatch])) hlive

/-- A fold whose steps lower a weight or change nothing ends where it began exactly when none of
its steps changes anything. -/
theorem foldl_eq_self_iff {σ α : Type} {step : σ → α → σ} (weight : σ → Nat)
    (hstep : ∀ state item, step state item = state ∨ weight (step state item) < weight state)
    (items : List α) (state : σ) :
    items.foldl step state = state ↔ ∀ item ∈ items, step state item = state := by
  have hle (items : List α) : ∀ state, weight (items.foldl step state) ≤ weight state := by
    induction items with
    | nil => exact fun _ => le_rfl
    | cons item rest ih =>
        intro state
        have hrest := ih (step state item)
        rw [List.foldl_cons]
        rcases hstep state item with hsame | hfalls
        · rwa [hsame] at hrest ⊢
        · exact hrest.trans hfalls.le
  induction items with
  | nil => simp
  | cons item rest ih =>
      rw [List.foldl_cons, List.forall_mem_cons]
      constructor
      · intro hfold
        rcases hstep state item with hsame | hfalls
        · rw [hsame] at hfold
          exact ⟨hsame, ih.mp hfold⟩
        · have hrest := hle rest (step state item)
          rw [hfold] at hrest
          exact absurd hrest (Nat.not_le.mpr hfalls)
      · rintro ⟨hsame, hrest⟩
        rw [hsame]
        exact ih.mpr hrest

/-- The searches of a query write nothing exactly when everything they come to is settled. -/
theorem closingSearches_eq_iff (payHashes : List Bytes) (db : PreimgDb) :
    closingSearches crypto env payHashes db = db ↔
      (env.dbgMatchPreimage = true → ∀ payHash ∈ payHashes, Settled crypto env.now payHash db) := by
  cases hdbg : env.dbgMatchPreimage with
  | false =>
      have hidle (db : PreimgDb) (payHash : Bytes) :
          (searchPreimage crypto env payHash true db).2 = db := by
        simp [searchPreimage, hdbg]
      simp only [Bool.false_eq_true, false_implies, iff_true]
      exact (foldl_eq_self_iff (fun _ => 0) (fun db payHash => .inl (hidle db payHash)) payHashes
        db).mpr fun payHash _ => hidle db payHash
  | true =>
      have hsearch (db : PreimgDb) (payHash : Bytes) :
          searchPreimage crypto env payHash true db =
            searchPreimageFrom crypto env.now payHash true db := by
        simp [searchPreimage, hdbg]
      simp only [closingSearches, hsearch, true_implies]
      rw [foldl_eq_self_iff PreimgDb.weight fun db payHash => searchPreimageFrom_weight db]
      simp only [searchPreimageFrom_eq_iff]

end Search

/-! ### The query -/

/-- The outputs that a loop comes to which ends at the first one that it cannot spend. -/
def reachedOuts {α β : Type} (spend : α → Option β) (outs : List α) : List α :=
  outs.take ((outs.takeWhile fun out => (spend out).isSome).length + 1)

namespace LnSelf

/-- The payment hashes of the outputs of one type. -/
def outHashes (self : LnSelf) (type : LnHtlctype) (outs : List (Nat × UInt64 × LnScriptHtlcinfo)) :
    List Bytes :=
  (outs.filter fun out => out.2.2.type = type).map fun out =>
    (self.cnlAddHtlc out.2.2.addHtlcIdx).paymentSha256

/-- The local commitment transaction as the present state of the channel has it. -/
def shownLocal (crypto : Crypto) (self : LnSelf) : CommitBuild :=
  buildToLocal crypto (self.withPrevKeys crypto) self.commitLocal.commitNum
    self.commitRemote.toSelfDelay self.commitLocal.dustLimitSat

/-- The remote one. -/
def shownRemote (crypto : Crypto) (self : LnSelf) : CommitBuild :=
  buildToRemote crypto (self.withPrevKeys crypto) self.commitRemote.commitNum
    self.commitRemote.dustLimitSat

/-- The signature of the peer is one for that local transaction. -/
def shownLocalVerifies (crypto : Crypto) (self : LnSelf) : Bool :=
  match signCommittx crypto (self.withPrevKeys crypto) (self.shownLocal crypto).committx.tx with
  | none => false
  | some bufSig =>
      createToLocalSignVerify crypto (self.withPrevKeys crypto)
        (self.shownLocal crypto).committx.tx bufSig

/-- The own signature for that remote transaction. -/
def shownRemoteSignature (crypto : Crypto) (self : LnSelf) : Option Bytes :=
  signCommittx crypto (self.withPrevKeys crypto) (self.shownRemote crypto).committx.tx

/-- How `create_to_local_spenthtlc` spends an output of the local transaction. -/
def spendLocal (crypto : Crypto) (search : Bytes → Option Bytes) (self : LnSelf) :
    Nat × UInt64 × LnScriptHtlcinfo → Option CloseHtlc :=
  let prev := self.withPrevKeys crypto
  createToLocalSpenthtlc crypto search
    { prev with
      commitLocal := { prev.commitLocal with
        txid := crypto.txid (self.shownLocal crypto).committx.tx } }
    (self.shownLocal crypto)

/-- How `create_to_remote_spenthtlc` spends an output of the remote transaction. -/
def spendRemote (crypto : Crypto) (search : Bytes → Option Bytes) (self : LnSelf) :
    Nat × UInt64 × LnScriptHtlcinfo → Option CloseTx :=
  createToRemoteSpenthtlcClose crypto search (self.withPrevKeys crypto) (self.shownRemote crypto)
    (crypto.txid (self.shownRemote crypto).committx.tx)

/-- The payment hashes that `create_to_local_spenthtlc` searches the preimages of. -/
def searchedLocal (crypto : Crypto) (search : Bytes → Option Bytes) (self : LnSelf) : List Bytes :=
  if self.shownLocalVerifies crypto then
    self.outHashes .received
      (reachedOuts (self.spendLocal crypto search)
        (htlcVouts (self.shownLocal crypto).committx.vout))
  else []

/-- The payment hashes that `create_to_remote_spenthtlc` searches the preimages of. -/
def searchedRemote (crypto : Crypto) (search : Bytes → Option Bytes) (self : LnSelf) : List Bytes :=
  if (self.shownRemoteSignature crypto).isSome then
    self.outHashes .offered
      (reachedOuts (self.spendRemote crypto search)
        (htlcVouts (self.shownRemote crypto).committx.vout))
  else []

end LnSelf

/-- What a search finds in the database at the start of the query. -/
def foundIn (crypto : Crypto) (env : QueryEnv) (db : PreimgDb) (payHash : Bytes) : Option Bytes :=
  (searchPreimage crypto env payHash true db).1

/-- `lnapp_get_committx`: whether there is a transaction to show, the channel, the preimage
database. -/
def lnappGetCommittx (crypto : Crypto) (env : QueryEnv) (self : LnSelf) (db : PreimgDb) :
    Bool → Bool × LnSelf × PreimgDb
  | true =>
      let search := foundIn crypto env db
      let (result, after) := lnCloseCreateUnilateralTx crypto search self
      (result.isSome, after, closingSearches crypto env (self.searchedLocal crypto search) db)
  | false =>
      let search := foundIn crypto env db
      let (result, after) := lnCloseCreateTx crypto search self
      (result.isSome, after, closingSearches crypto env (self.searchedRemote crypto search) db)

/-- The query changes neither the channel nor the preimage database. -/
structure LeavesAlone (crypto : Crypto) (env : QueryEnv) (chan : LnSelf) (db : PreimgDb)
    (bLocal : Bool) : Prop where
  channel : (lnappGetCommittx crypto env chan db bLocal).2.1 = chan
  preimages : (lnappGetCommittx crypto env chan db bLocal).2.2 = db

/-- The public per-commitment key belongs to the private one, and the script keys are those derived
from the keys. -/
structure KeysInPlace (crypto : Crypto) (chan : LnSelf) : Prop where
  perCommit : chan.fundingLocal.pubkeys.perCommit = crypto.pub chan.privData.priv.perCommit
  own : (chan.updateScriptkeys crypto).fundingLocal.scriptpubkeys = chan.fundingLocal.scriptpubkeys
  peer :
    (chan.updateScriptkeys crypto).fundingRemote.scriptpubkeys = chan.fundingRemote.scriptpubkeys

/-- What `commit_local` holds is what the present state makes. -/
structure LocalCurrent (crypto : Crypto) (env : QueryEnv) (chan : LnSelf) (db : PreimgDb) :
    Prop where
  txid : chan.commitLocal.txid = crypto.txid (chan.shownLocal crypto).committx.tx
  htlcNum : chan.commitLocal.htlcNum =
    ((htlcVouts (chan.shownLocal crypto).committx.vout).takeWhile fun out =>
      (chan.spendLocal crypto (foundIn crypto env db) out).isSome).length.toUInt16
  settled : env.dbgMatchPreimage = true →
    ∀ payHash ∈ chan.searchedLocal crypto (foundIn crypto env db),
      Settled crypto env.now payHash db

/-- What `commit_remote` holds is what the present state makes. -/
structure RemoteCurrent (crypto : Crypto) (env : QueryEnv) (chan : LnSelf) (db : PreimgDb)
    (made : Bytes) : Prop where
  txid : chan.commitRemote.txid = crypto.txid (chan.shownRemote crypto).committx.tx
  signature : chan.commitRemote.signature = made
  htlcNum : chan.commitRemote.htlcNum =
    ((htlcVouts (chan.shownRemote crypto).committx.vout).takeWhile fun out =>
      (chan.spendRemote crypto (foundIn crypto env db) out).isSome).length.toUInt16
  settled : env.dbgMatchPreimage = true →
    ∀ payHash ∈ chan.searchedRemote crypto (foundIn crypto env db),
      Settled crypto env.now payHash db

/-- The commitment transaction asked for, if it is made at all, is the one on record. -/
def CommitCurrent (crypto : Crypto) (env : QueryEnv) (self : LnSelf) (db : PreimgDb) : Bool → Prop
  | true => self.shownLocalVerifies crypto = true → LocalCurrent crypto env self db
  | false => ∀ signature, self.shownRemoteSignature crypto = some signature →
      RemoteCurrent crypto env self db signature

section Query

variable {crypto : Crypto} {env : QueryEnv} {self : LnSelf} {db : PreimgDb}

/-- The channel behind a closing function that has written the two commit data: the keys are put
back, the public per-commitment key is made anew. -/
def LnSelf.putBack (crypto : Crypto) (self : LnSelf) (commitLocal commitRemote : LnCommitData) :
    LnSelf :=
  LnSelf.updateScriptkeys crypto { self with
    fundingLocal := { self.fundingLocal with
      pubkeys := { self.fundingLocal.pubkeys with
        perCommit := crypto.pub self.privData.priv.perCommit } }
    commitLocal
    commitRemote }

theorem putBack_eq_iff (commitLocal commitRemote : LnCommitData) :
    self.putBack crypto commitLocal commitRemote = self ↔
      KeysInPlace crypto self ∧ commitLocal = self.commitLocal ∧
        commitRemote = self.commitRemote := by
  constructor
  · intro hsame
    have hperCommit := congrArg (fun chan : LnSelf => chan.fundingLocal.pubkeys.perCommit) hsame
    have hown := congrArg (fun chan : LnSelf => chan.fundingLocal.scriptpubkeys) hsame
    have hpeer := congrArg (fun chan : LnSelf => chan.fundingRemote.scriptpubkeys) hsame
    have hpub : crypto.pub self.privData.priv.perCommit = self.fundingLocal.pubkeys.perCommit :=
      hperCommit
    refine ⟨⟨hpub.symm, ?_, ?_⟩, congrArg LnSelf.commitLocal hsame,
      congrArg LnSelf.commitRemote hsame⟩
    · rw [← hown, LnSelf.putBack, hpub]
      rfl
    · rw [← hpeer, LnSelf.putBack, hpub]
      rfl
  · rintro ⟨hkeys, rfl, rfl⟩
    have hupdated : self.updateScriptkeys crypto = { self with
        fundingLocal := { self.fundingLocal with
          scriptpubkeys := (self.updateScriptkeys crypto).fundingLocal.scriptpubkeys }
        fundingRemote := { self.fundingRemote with
          scriptpubkeys := (self.updateScriptkeys crypto).fundingRemote.scriptpubkeys } } := rfl
    rw [LnSelf.putBack, ← hkeys.perCommit]
    change self.updateScriptkeys crypto = self
    rw [hupdated, hkeys.own, hkeys.peer]

/-- What `create_to_local` writes to `commit_local` for a query. -/
def LnSelf.queriedLocal (crypto : Crypto) (search : Bytes → Option Bytes) (self : LnSelf) :
    LnCommitData :=
  if self.shownLocalVerifies crypto then
    { self.commitLocal with
      txid := crypto.txid (self.shownLocal crypto).committx.tx
      htlcNum := ((htlcVouts (self.shownLocal crypto).committx.vout).takeWhile fun out =>
        (self.spendLocal crypto search out).isSome).length.toUInt16 }
  else self.commitLocal

/-- What `create_to_remote` writes to `commit_remote` for a query. -/
def LnSelf.queriedRemote (crypto : Crypto) (search : Bytes → Option Bytes) (self : LnSelf) :
    LnCommitData :=
  match self.shownRemoteSignature crypto with
  | none => self.commitRemote
  | some signature =>
      { self.commitRemote with
        txid := crypto.txid (self.shownRemote crypto).committx.tx
        signature
        htlcNum := ((htlcVouts (self.shownRemote crypto).committx.vout).takeWhile fun out =>
          (self.spendRemote crypto search out).isSome).length.toUInt16 }

theorem lnCloseCreateUnilateralTx_self (search : Bytes → Option Bytes) (self : LnSelf) :
    (lnCloseCreateUnilateralTx crypto search self).2 =
      self.putBack crypto (self.queriedLocal crypto search) self.commitRemote := by
  rw [LnSelf.queriedLocal, LnSelf.shownLocalVerifies, lnCloseCreateUnilateralTx,
    createToLocalClose]
  cases hsign : signCommittx crypto (self.withPrevKeys crypto)
      (self.shownLocal crypto).committx.tx with
  | none =>
      rw [LnSelf.shownLocal] at hsign
      simp only [hsign, Bool.false_eq_true, if_false]
      rfl
  | some bufSig =>
      rw [LnSelf.shownLocal] at hsign
      simp only [hsign]
      cases hverify : createToLocalSignVerify crypto (self.withPrevKeys crypto)
          (self.shownLocal crypto).committx.tx bufSig with
      | false =>
          rw [LnSelf.shownLocal] at hverify
          simp only [hverify, Bool.false_eq_true, if_false]
          rfl
      | true =>
          rw [LnSelf.shownLocal] at hverify
          simp only [hverify, if_true]
          rfl

theorem lnCloseCreateTx_self (search : Bytes → Option Bytes) (self : LnSelf) :
    (lnCloseCreateTx crypto search self).2 =
      self.putBack crypto self.commitLocal (self.queriedRemote crypto search) := by
  rw [LnSelf.queriedRemote, LnSelf.shownRemoteSignature, lnCloseCreateTx, createToRemoteClose]
  rw [LnSelf.shownRemote]
  cases hsign : signCommittx crypto (self.withPrevKeys crypto) (buildToRemote crypto
      (self.withPrevKeys crypto) self.commitRemote.commitNum
      self.commitRemote.dustLimitSat).committx.tx with
  | none => rfl
  | some signature => rfl

theorem queriedLocal_eq_iff (search : Bytes → Option Bytes) :
    self.queriedLocal crypto search = self.commitLocal ↔
      (self.shownLocalVerifies crypto = true →
        self.commitLocal.txid = crypto.txid (self.shownLocal crypto).committx.tx ∧
          self.commitLocal.htlcNum =
            ((htlcVouts (self.shownLocal crypto).committx.vout).takeWhile fun out =>
              (self.spendLocal crypto search out).isSome).length.toUInt16) := by
  rw [LnSelf.queriedLocal]
  by_cases hverifies : self.shownLocalVerifies crypto = true
  · rw [if_pos hverifies]
    constructor
    · intro hsame _
      exact ⟨(congrArg LnCommitData.txid hsame).symm, (congrArg LnCommitData.htlcNum hsame).symm⟩
    · intro hcurrent
      obtain ⟨htxid, hnum⟩ := hcurrent hverifies
      rw [← htxid, ← hnum]
  · simp only [hverifies, Bool.false_eq_true, if_false, false_implies]

theorem queriedRemote_eq_iff (search : Bytes → Option Bytes) :
    self.queriedRemote crypto search = self.commitRemote ↔
      ∀ signature, self.shownRemoteSignature crypto = some signature →
        self.commitRemote.txid = crypto.txid (self.shownRemote crypto).committx.tx ∧
          self.commitRemote.signature = signature ∧
          self.commitRemote.htlcNum =
            ((htlcVouts (self.shownRemote crypto).committx.vout).takeWhile fun out =>
              (self.spendRemote crypto search out).isSome).length.toUInt16 := by
  rw [LnSelf.queriedRemote]
  cases hsign : self.shownRemoteSignature crypto with
  | none => simp only [reduceCtorEq, false_implies, implies_true]
  | some signature =>
      simp only [Option.some.injEq, forall_eq']
      constructor
      · intro hsame
        exact ⟨(congrArg LnCommitData.txid hsame).symm,
          (congrArg LnCommitData.signature hsame).symm,
          (congrArg LnCommitData.htlcNum hsame).symm⟩
      · rintro ⟨htxid, hsignature, hnum⟩
        rw [← htxid, ← hsignature, ← hnum]

/-- A query leaves the channel and the preimages alone exactly when the keys are in place and the
transaction asked for is the one on record, its preimages settled. -/
theorem leavesAlone_iff (crypto : Crypto) (env : QueryEnv) (self : LnSelf) (db : PreimgDb)
    (bLocal : Bool) :
    LeavesAlone crypto env self db bLocal ↔
      KeysInPlace crypto self ∧ CommitCurrent crypto env self db bLocal := by
  cases bLocal with
  | true =>
      have hchan : (lnappGetCommittx crypto env self db true).2.1 = self ↔
          KeysInPlace crypto self ∧
            self.queriedLocal crypto (foundIn crypto env db) = self.commitLocal := by
        change (lnCloseCreateUnilateralTx crypto (foundIn crypto env db) self).2 = self ↔ _
        rw [lnCloseCreateUnilateralTx_self, putBack_eq_iff]
        simp only [and_true]
      have hdb : (lnappGetCommittx crypto env self db true).2.2 = db ↔
          (env.dbgMatchPreimage = true →
            ∀ payHash ∈ self.searchedLocal crypto (foundIn crypto env db),
              Settled crypto env.now payHash db) := closingSearches_eq_iff _ db
      constructor
      · intro halone
        obtain ⟨hkeys, hlocal⟩ := hchan.mp halone.channel
        refine ⟨hkeys, fun hverifies => ?_⟩
        obtain ⟨htxid, hnum⟩ := (queriedLocal_eq_iff _).mp hlocal hverifies
        exact ⟨htxid, hnum, hdb.mp halone.preimages⟩
      · rintro ⟨hkeys, hcurrent⟩
        constructor
        · refine hchan.mpr ⟨hkeys, (queriedLocal_eq_iff _).mpr fun hverifies => ?_⟩
          exact ⟨(hcurrent hverifies).txid, (hcurrent hverifies).htlcNum⟩
        · refine hdb.mpr fun hdbg payHash hmem => ?_
          by_cases hverifies : self.shownLocalVerifies crypto = true
          · exact (hcurrent hverifies).settled hdbg payHash hmem
          · rw [LnSelf.searchedLocal, if_neg hverifies] at hmem
            cases hmem
  | false =>
      have hchan : (lnappGetCommittx crypto env self db false).2.1 = self ↔
          KeysInPlace crypto self ∧
            self.queriedRemote crypto (foundIn crypto env db) = self.commitRemote := by
        change (lnCloseCreateTx crypto (foundIn crypto env db) self).2 = self ↔ _
        rw [lnCloseCreateTx_self, putBack_eq_iff]
        simp only [true_and]
      have hdb : (lnappGetCommittx crypto env self db false).2.2 = db ↔
          (env.dbgMatchPreimage = true →
            ∀ payHash ∈ self.searchedRemote crypto (foundIn crypto env db),
              Settled crypto env.now payHash db) := closingSearches_eq_iff _ db
      constructor
      · intro halone
        obtain ⟨hkeys, hremote⟩ := hchan.mp halone.channel
        refine ⟨hkeys, fun signature hsign => ?_⟩
        obtain ⟨htxid, hsignature, hnum⟩ := (queriedRemote_eq_iff _).mp hremote signature hsign
        exact ⟨htxid, hsignature, hnum, hdb.mp halone.preimages⟩
      · rintro ⟨hkeys, hcurrent⟩
        constructor
        · refine hchan.mpr ⟨hkeys, (queriedRemote_eq_iff _).mpr fun signature hsign => ?_⟩
          have hremote := hcurrent signature hsign
          exact ⟨hremote.txid, hremote.signature, hremote.htlcNum⟩
        · refine hdb.mpr fun hdbg payHash hmem => ?_
          by_cases hsome : (self.shownRemoteSignature crypto).isSome = true
          · obtain ⟨signature, hsign⟩ := Option.isSome_iff_exists.mp hsome
            exact (hcurrent signature hsign).settled hdbg payHash hmem
          · rw [LnSelf.searchedRemote, if_neg hsome] at hmem
            cases hmem

end Query

/-! ### A channel with two HTLCs, and one with an HTLC under way -/

/-- Preimages that are kept for ever are settled. -/
theorem settled_of_never {crypto : Crypto} {now : UInt64} {payHash : Bytes} {db : PreimgDb}
    (hnever : ∀ entry ∈ db, entry.expiry = PreimgEntry.never) :
    Settled crypto now payHash db := by
  constructor
  · intro entry hmem
    have hentry := hnever entry ((List.takeWhile_sublist _).subset hmem)
    simp [PreimgEntry.live, hentry]
  · exact fun entry hfind => hnever entry (List.mem_of_find?_eq_some hfind)

/-- Two HTLCs of the peer are committed by both sides. -/
def bothCommittedScript : List (ChannelState → ChannelLabel) :=
  let cid := symbolicOutpoint.txid
  let add (id : Nat) (amountMsat : UInt64) (_ : ChannelState) : ChannelLabel :=
    .event (.recv cid (.updateAddHtlc id amountMsat [9] 100 [])
      { onion := { verdict := .final [9] } })
  [ add 0 200000000,
    add 1 100000000,
    fun state => .event (.recv cid (.commitmentSigned (symbolicPeerSignature state.self 1)
      (peerHtlcSignatures .symbolic state.self 1)) {}),
    fun _ => .event .idle,
    fun _ => .event (.recv cid (.revokeAndAck (symbolicKeys 2).perCommit [2, 7]) {}) ]

/-- The preimage of both, kept for ever. -/
def keptPreimage : PreimgDb := [⟨[9], 0, 0, PreimgEntry.never⟩]

/-- Both transactions can be looked at, the two HTLC outputs that each of them has included. -/
theorem alone_twoHtlcs :
    ∃ state : ChannelState, (channelSystem .symbolic).Reachable state ∧
      state.self.commitLocal.htlcNum = 2 ∧ state.self.commitRemote.htlcNum = 2 ∧
      state.self.shownLocalVerifies .symbolic = true ∧
      (state.self.shownRemoteSignature .symbolic).isSome = true ∧
      ∀ bLocal, LeavesAlone .symbolic ⟨0, true⟩ state.self keptPreimage bLocal := by
  have hcheck : symbolicCheck 1000000 500000000 permitAll bothCommittedScript (fun state _ =>
      let self := state.self
      let updated := self.updateScriptkeys .symbolic
      let search := foundIn .symbolic ⟨0, true⟩ keptPreimage
      decide (self.commitLocal.htlcNum = 2) && decide (self.commitRemote.htlcNum = 2) &&
      self.shownLocalVerifies .symbolic && (self.shownRemoteSignature .symbolic).isSome &&
      decide (self.fundingLocal.pubkeys.perCommit =
        Crypto.symbolic.pub self.privData.priv.perCommit) &&
      decide (updated.fundingLocal.scriptpubkeys = self.fundingLocal.scriptpubkeys) &&
      decide (updated.fundingRemote.scriptpubkeys = self.fundingRemote.scriptpubkeys) &&
      decide (self.queriedLocal .symbolic search = self.commitLocal) &&
      decide (self.queriedRemote .symbolic search = self.commitRemote)) = true := by
    decide +kernel
  obtain ⟨state, _, hhistory, hchecked⟩ := run_of_symbolicCheck hcheck
  simp only [Bool.and_eq_true, decide_eq_true_eq] at hchecked
  obtain ⟨⟨⟨⟨⟨⟨⟨⟨hnumLocal, hnumRemote⟩, hverified⟩, hmade⟩, hperCommit⟩, hown⟩, hpeer⟩, hlocal⟩,
    hremote⟩ := hchecked
  have hkept (payHash : Bytes) : Settled .symbolic 0 payHash keptPreimage := by
    exact settled_of_never (by decide)
  refine ⟨state, hhistory.reachableUnder, hnumLocal, hnumRemote, hverified, hmade, fun bLocal =>
    (leavesAlone_iff .symbolic ⟨0, true⟩ state.self keptPreimage bLocal).mpr
      ⟨⟨hperCommit, hown, hpeer⟩, ?_⟩⟩
  cases bLocal with
  | true =>
      intro hverifies
      obtain ⟨htxid, hnum⟩ := (queriedLocal_eq_iff _).mp hlocal hverifies
      exact ⟨htxid, hnum, fun _ payHash _ => hkept payHash⟩
  | false =>
      intro signature hsign
      obtain ⟨htxid, hsignature, hnum⟩ := (queriedRemote_eq_iff _).mp hremote signature hsign
      exact ⟨htxid, hsignature, hnum, fun _ payHash _ => hkept payHash⟩

/-- A payment is offered, its `commitment_signed` is still to come. -/
def underWayScript : List (ChannelState → ChannelLabel) :=
  [ fun _ => .event (.addHtlc
      { packet := [], amountMsat := 50000000, cltvValue := 600, paymentHash := [9] }),
    fun _ => .event .idle ]

/-- To look at the remote transaction puts the HTLC into `commit_remote`. -/
theorem notAlone_underWay :
    ¬ ∀ (crypto : Crypto) (env : QueryEnv) (db : PreimgDb) (bLocal : Bool) (state : ChannelState),
      (channelSystem crypto).Reachable state → LeavesAlone crypto env state.self db bLocal := by
  intro hall
  have hcheck : symbolicCheck 1000000 500000000 permitAll underWayScript (fun state _ =>
      (lnappGetCommittx .symbolic ⟨0, true⟩ state.self [] false).2.1.commitRemote.htlcNum !=
        state.self.commitRemote.htlcNum) = true := by
    decide +kernel
  obtain ⟨state, _, hhistory, hchecked⟩ := run_of_symbolicCheck hcheck
  have halone := hall _ ⟨0, true⟩ [] false state hhistory.reachableUnder
  exact bne_iff_ne.mp hchecked (congrArg (fun chan : LnSelf => chan.commitRemote.htlcNum)
    halone.channel)

end Ptarmigan
