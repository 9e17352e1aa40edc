/-
The state of a revoked close in the database: `ln_db_revtx_save` packs scripts, types and counts
under six keys, `ln_db_revtx_load` allocates the arrays anew and reads them back.
-/
import Ptarmigan.ClosedTx
import Ptarmigan.Lmdb
import Ptarmigan.TxSpelt

namespace Ptarmigan

namespace RevokedStore

open WireReader

/-- The fields `revoked_*` and `p_revoked_*` of `ln_self_t`, with the channel they belong to.  The
three arrays are allocated for `revoked_num` entries; `type` has the values of `ln_htlctype_t` as
the integers that they are stored as. -/
structure RevtxSelf where
  channelId : Bytes
  cnt : UInt16
  num : UInt16
  vout : List Bytes
  wit : List Bytes
  type : List UInt32
  sec : Bytes
  chk : UInt32
  vout_length : vout.length = num.toNat
  wit_length : wit.length = num.toNat
  type_length : type.length = num.toNat
deriving DecidableEq

/-! ### Keys and names -/

/-- `LNDBK_RVV`. -/
def lndbkRvv : Bytes := [0x72, 0x76, 0x76]

/-- `LNDBK_RVW`. -/
def lndbkRvw : Bytes := [0x72, 0x76, 0x77]

/-- `LNDBK_RVT`. -/
def lndbkRvt : Bytes := [0x72, 0x76, 0x74]

/-- `LNDBK_RVS`. -/
def lndbkRvs : Bytes := [0x72, 0x76, 0x73]

/-- `LNDBK_RVN`. -/
def lndbkRvn : Bytes := [0x72, 0x76, 0x6e]

/-- `LNDBK_RVC`. -/
def lndbkRvc : Bytes := [0x72, 0x76, 0x63]

/-- `M_PREF_REVOKED`. -/
def mPrefRevoked : Bytes := [0x52, 0x56]

/-- `M_PREF_CHANNEL`. -/
def mPrefChannel : Bytes := [0x43, 0x4e]

def hexDigit (value : UInt8) : UInt8 :=
  if value < 10 then 0x30 + value else 0x57 + value

/-- `utl_misc_bin2str`. -/
def bin2str (bin : Bytes) : Bytes :=
  bin.flatMap fun byte => [hexDigit (byte / 16), hexDigit (byte % 16)]

/-- `dbname`. -/
def dbname (pref channelId : Bytes) : Bytes :=
  pref ++ bin2str channelId

/-! ### Saving -/

def setLe16 (value : UInt16) : Bytes :=
  LittleEndian.encode 2 value.toNat

/-- Each script behind the lower half of its `len`. -/
def packScripts (scripts : List Bytes) : Bytes :=
  scripts.flatMap fun script => setLe16 (UInt16.ofNat script.length) ++ script

/-- What `ln_db_revtx_save` puts, in its order. -/
def revtxRecords (self : RevtxSelf) : List (Bytes × Bytes) :=
  [(lndbkRvv, packScripts self.vout),
    (lndbkRvw, packScripts self.wit),
    (lndbkRvt, self.type.flatMap TxSerial.setLe32),
    (lndbkRvs, self.sec),
    (lndbkRvn, setLe16 self.cnt ++ setLe16 self.num),
    (lndbkRvc, TxSerial.setLe32 self.chk)]

/-- `ln_db_revtx_save`; `selfSave` is `self_save`, which writes to the channel's database. -/
def lnDbRevtxSave (fails : Bytes → Bool) (selfSave : MdbDbi → Option MdbDbi) (self : RevtxSelf)
    (update : Bool) (txn : MdbTxn) : Bool × MdbTxn :=
  let name := dbname mPrefRevoked self.channelId
  let (saved, dbi) := mdbPuts fails (revtxRecords self) ((txn.lookup name).getD ∅)
  let txn := txn.insert name dbi
  if !saved then (false, txn)
  else if update then
    let channel := dbname mPrefChannel self.channelId
    match (txn.lookup channel).bind selfSave with
    | some dbi => (true, txn.insert channel dbi)
    | none => (false, txn)
  else (true, txn)

/-! ### Loading -/

/-- `ln_revoked_buf_free`. -/
def lnRevokedBufFree (self : RevtxSelf) : RevtxSelf :=
  if self.num = 0 then self
  else
    { self with
      cnt := 0
      num := 0
      vout := []
      wit := []
      type := []
      vout_length := rfl
      wit_length := rfl
      type_length := rfl }

/-- `ln_revoked_buf_alloc`, with the counts that were set before: no script, `LN_HTLCTYPE_NONE`. -/
def lnRevokedBufAlloc (cnt num : UInt16) (self : RevtxSelf) : RevtxSelf :=
  { self with
    cnt := cnt
    num := num
    vout := List.replicate num.toNat []
    wit := List.replicate num.toNat []
    type := List.replicate num.toNat 0
    vout_length := List.length_replicate
    wit_length := List.length_replicate
    type_length := List.length_replicate }

def getLe16 : WireReader Unit UInt16 :=
  (fun field => UInt16.ofNat (LittleEndian.decode field)) <$> bytes 2

/-- The scripts that follow each other, as many as the array has entries. -/
def readScripts : (count : Nat) → WireReader Unit { scripts : List Bytes // scripts.length = count }
  | 0 => pure ⟨[], rfl⟩
  | count + 1 => do
      let len ← getLe16
      let script ← bytes len.toNat
      let rest ← readScripts count
      pure ⟨script :: rest.1, congrArg (· + 1) rest.2⟩

/-- The array of integers that lies in the memory. -/
def intsOf : Nat → Bytes → List UInt32
  | 0, _ => []
  | count + 1, memory =>
      UInt32.ofNat (LittleEndian.decode (memory.take 4)) :: intsOf count (memory.drop 4)

theorem length_intsOf (count : Nat) (memory : Bytes) : (intsOf count memory).length = count := by
  induction count generalizing memory with
  | zero => rfl
  | succ count ih => rw [intsOf, List.length_cons, ih]

def loadNum (self : RevtxSelf) : WireReader Unit RevtxSelf := do
  let cnt ← getLe16
  let num ← getLe16
  pure (lnRevokedBufAlloc cnt num self)

def loadVout (self : RevtxSelf) : WireReader Unit RevtxSelf := do
  let scripts ← readScripts self.num.toNat
  pure { self with vout := scripts.1, vout_length := scripts.2 }

def loadWit (self : RevtxSelf) : WireReader Unit RevtxSelf := do
  let scripts ← readScripts self.num.toNat
  pure { self with wit := scripts.1, wit_length := scripts.2 }

/-- The record is copied over the array, as long as it is. -/
def loadType (self : RevtxSelf) : WireReader Unit RevtxSelf := do
  let size ← messageLength
  if 4 * self.num.toNat < size then fail .outOfBounds
  else do
    let data ← message
    let memory := data ++ (self.type.flatMap TxSerial.setLe32).drop size
    pure { self with
      type := intsOf self.num.toNat memory
      type_length := length_intsOf _ _ }

def loadSec (self : RevtxSelf) : WireReader Unit RevtxSelf := do
  let data ← message
  pure { self with sec := data }

def loadChk (self : RevtxSelf) : WireReader Unit RevtxSelf := do
  let chk ← TxSerial.getLe32
  pure { self with chk := chk }

/-- What `ln_db_revtx_load` gets, in its order. -/
def revtxLoads : List (Bytes × (RevtxSelf → WireReader Unit RevtxSelf)) :=
  [(lndbkRvn, loadNum), (lndbkRvv, loadVout), (lndbkRvw, loadWit), (lndbkRvt, loadType),
    (lndbkRvs, loadSec), (lndbkRvc, loadChk)]

/-- One `mdb_get` after the other, until a key is not found. -/
def loadRecords (dbi : MdbDbi) :
    List (Bytes × (RevtxSelf → WireReader Unit RevtxSelf)) → RevtxSelf → Result RevtxSelf RevtxSelf
  | [], self => .done self 0
  | (key, load) :: loads, self =>
      match dbi.lookup key with
      | none => .refused self
      | some data =>
          match (load self).run data with
          | .done self _ => loadRecords dbi loads self
          | .refused _ => .refused self
          | .fault reason => .fault reason

/-- `ln_db_revtx_load`: refused with what is in memory then, when it returns false. -/
def lnDbRevtxLoad (txn : MdbTxn) (self : RevtxSelf) : Result RevtxSelf RevtxSelf :=
  match txn.lookup (dbname mPrefRevoked self.channelId) with
  | none => .refused self
  | some dbi => loadRecords dbi revtxLoads (lnRevokedBufFree self)

/-! ### Each record is read as it was written -/

theorem reads_getLe16 (value : UInt16) (pos : Nat) (rest : Bytes) :
    Reads pos rest getLe16 (setLe16 value) value := by
  have hfits : value.toNat < 256 ^ 2 := value.toNat_lt
  have hreads : Reads pos rest getLe16 (setLe16 value)
      (UInt16.ofNat (LittleEndian.decode (setLe16 value))) :=
    Reads.map _ (Reads.bytes (LittleEndian.length_encode 2 value.toNat))
  rwa [setLe16, LittleEndian.decode_encode hfits, UInt16.ofNat_toNat] at hreads

theorem reads_readScripts {scripts : List Bytes} {count : Nat} (hcount : scripts.length = count)
    (hshort : ∀ script ∈ scripts, script.length < 65536) (pos : Nat) (rest : Bytes) :
    Reads pos rest (readScripts count) (packScripts scripts) ⟨scripts, hcount⟩ := by
  subst hcount
  induction scripts generalizing pos with
  | nil => exact Reads.pure _
  | cons script scripts ih =>
      have hlen : (UInt16.ofNat script.length).toNat = script.length :=
        Nat.mod_eq_of_lt (hshort script List.mem_cons_self)
      have hrest : ∀ script ∈ scripts, script.length < 65536 :=
        fun later hlater => hshort later (List.mem_cons_of_mem script hlater)
      rw [packScripts, List.flatMap_cons, List.append_assoc]
      apply Reads.bind (reads_getLe16 (UInt16.ofNat script.length) _ _)
      apply Reads.bind (Reads.bytes hlen.symm)
      exact Reads.map (fun later : { l : List Bytes // l.length = scripts.length } =>
        (⟨script :: later.1, congrArg (· + 1) later.2⟩ :
          { l : List Bytes // l.length = scripts.length + 1 })) (ih hrest _)

theorem intsOf_flatMap (ints : List UInt32) (behind : Bytes) :
    intsOf ints.length (ints.flatMap TxSerial.setLe32 ++ behind) = ints := by
  induction ints with
  | nil => rfl
  | cons int ints ih =>
      have hfits : int.toNat < 256 ^ 4 := int.toNat_lt
      have hlength : (TxSerial.setLe32 int).length = 4 := LittleEndian.length_encode 4 int.toNat
      rw [List.flatMap_cons, List.length_cons, List.append_assoc, intsOf,
        List.take_left' hlength, List.drop_left' hlength, ih, TxSerial.setLe32,
        LittleEndian.decode_encode hfits, UInt32.ofNat_toNat]

section Loads

variable (st : RevtxSelf)

theorem loadNum_run (cnt num : UInt16) :
    ∃ pos, (loadNum st).run (setLe16 cnt ++ setLe16 num) =
      .done (lnRevokedBufAlloc cnt num st) pos :=
  ⟨_, (Reads.bind (reads_getLe16 cnt 0 _)
    (Reads.map (fun num => lnRevokedBufAlloc cnt num st) (reads_getLe16 num _ []))).run⟩

theorem loadVout_run {scripts : List Bytes} (hcount : scripts.length = st.num.toNat)
    (hshort : ∀ script ∈ scripts, script.length < 65536) :
    ∃ pos, (loadVout st).run (packScripts scripts) =
      .done { st with vout := scripts, vout_length := hcount } pos :=
  ⟨_, (Reads.map _ (reads_readScripts hcount hshort 0 [])).run⟩

theorem loadWit_run {scripts : List Bytes} (hcount : scripts.length = st.num.toNat)
    (hshort : ∀ script ∈ scripts, script.length < 65536) :
    ∃ pos, (loadWit st).run (packScripts scripts) =
      .done { st with wit := scripts, wit_length := hcount } pos :=
  ⟨_, (Reads.map _ (reads_readScripts hcount hshort 0 [])).run⟩

/-- The record is as long as the array. -/
theorem loadType_run {types : List UInt32} (hcount : types.length = st.num.toNat) :
    ∃ pos, (loadType st).run (types.flatMap TxSerial.setLe32) =
      .done { st with type := types, type_length := hcount } pos := by
  have hsize : (types.flatMap TxSerial.setLe32).length = 4 * st.num.toNat := by
    rw [List.length_flatMap, ← hcount]
    simp [Nat.mul_comm]
  have hnot : ¬ 4 * st.num.toNat < (types.flatMap TxSerial.setLe32).length := by
    rw [hsize]
    exact Nat.lt_irrefl _
  have hints : intsOf st.num.toNat (types.flatMap TxSerial.setLe32 ++
      (st.type.flatMap TxSerial.setLe32).drop (types.flatMap TxSerial.setLe32).length) = types := by
    rw [← hcount]
    exact intsOf_flatMap types _
  have hlength : (messageLength : WireReader Unit Nat) (types.flatMap TxSerial.setLe32) 0 =
      .done (types.flatMap TxSerial.setLe32).length 0 := rfl
  refine ⟨0, ?_⟩
  rw [run, loadType, bind_done hlength, if_neg hnot]
  change Result.done { st with type := intsOf _ _, type_length := length_intsOf _ _ } 0 = _
  simp only [hints]

theorem loadChk_run (chk : UInt32) :
    ∃ pos, (loadChk st).run (TxSerial.setLe32 chk) = .done { st with chk := chk } pos :=
  ⟨_, (Reads.map _ (TxSerial.reads_getLe32 chk)).run⟩

end Loads

/-! ### The round trip -/

theorem nodup_revtxRecords (self : RevtxSelf) :
    ((revtxRecords self).map Prod.fst).Nodup := by
  simp only [revtxRecords, List.map_cons, List.map_nil]
  decide

theorem dbname_ne (channelId : Bytes) :
    dbname mPrefRevoked channelId ≠ dbname mPrefChannel channelId := by
  simp [dbname, mPrefRevoked, mPrefChannel]

/-- A save that returned true has left every record in the database of the revoked close. -/
theorem lnDbRevtxSave_lookup {fails : Bytes → Bool} {selfSave : MdbDbi → Option MdbDbi}
    {self : RevtxSelf} {update : Bool} {txn after : MdbTxn}
    (hsave : lnDbRevtxSave fails selfSave self update txn = (true, after)) :
    ∃ dbi, after.lookup (dbname mPrefRevoked self.channelId) = some dbi ∧
      ∀ record ∈ revtxRecords self, dbi.lookup record.1 = some record.2 := by
  simp only [lnDbRevtxSave] at hsave
  cases hputs : mdbPuts fails (revtxRecords self)
      ((txn.lookup (dbname mPrefRevoked self.channelId)).getD ∅) with
  | mk saved dbi =>
      rw [hputs] at hsave
      cases saved with
      | false => exact absurd (congrArg Prod.fst hsave) Bool.false_ne_true
      | true =>
          have hrecords : ∀ record ∈ revtxRecords self, dbi.lookup record.1 = some record.2 := by
            intro record hrecord
            have hput := mdbPuts_lookup (nodup_revtxRecords self)
              (congrArg Prod.fst hputs) hrecord
            rwa [hputs] at hput
          refine ⟨dbi, ?_, hrecords⟩
          cases update with
          | false =>
              have hafter : after = txn.insert (dbname mPrefRevoked self.channelId) dbi :=
                (congrArg Prod.snd hsave).symm
              rw [hafter]
              exact AList.lookup_insert _
          | true =>
              simp only [Bool.not_true, Bool.false_eq_true, if_false, if_true] at hsave
              split at hsave
              · rename_i channel _
                have hafter : after = (txn.insert (dbname mPrefRevoked self.channelId) dbi).insert
                    (dbname mPrefChannel self.channelId) channel :=
                  (congrArg Prod.snd hsave).symm
                rw [hafter, AList.lookup_insert_ne (dbname_ne self.channelId)]
                exact AList.lookup_insert _
              · exact absurd (congrArg Prod.fst hsave) Bool.false_ne_true

theorem loadRecords_cons {dbi : MdbDbi} {key data : Bytes}
    {load : RevtxSelf → WireReader Unit RevtxSelf}
    {loads : List (Bytes × (RevtxSelf → WireReader Unit RevtxSelf))} {st loaded : RevtxSelf}
    (hdata : dbi.lookup key = some data) (hload : ∃ pos, (load st).run data = .done loaded pos) :
    loadRecords dbi ((key, load) :: loads) st = loadRecords dbi loads loaded := by
  obtain ⟨pos, hdone⟩ := hload
  simp only [loadRecords, hdata, hdone]

theorem lnRevokedBufFree_channelId (self : RevtxSelf) :
    (lnRevokedBufFree self).channelId = self.channelId := by
  by_cases hnone : self.num = 0
  · rw [lnRevokedBufFree, if_pos hnone]
  · rw [lnRevokedBufFree, if_neg hnone]

/-- From a database with all the records every field is loaded, whatever was in memory. -/
theorem loadRecords_saved {self before : RevtxSelf} {dbi : MdbDbi}
    (hchannel : before.channelId = self.channelId)
    (hvout : ∀ script ∈ self.vout, script.length < 65536)
    (hwit : ∀ script ∈ self.wit, script.length < 65536)
    (hrecords : ∀ record ∈ revtxRecords self, dbi.lookup record.1 = some record.2) :
    loadRecords dbi revtxLoads (lnRevokedBufFree before) = .done self 0 := by
  have hfound : ∀ key data, (key, data) ∈ revtxRecords self → dbi.lookup key = some data :=
    fun key data hrecord => hrecords (key, data) hrecord
  have hfree : (lnRevokedBufFree before).channelId = self.channelId := by
    rw [lnRevokedBufFree_channelId, hchannel]
  let allocated := lnRevokedBufAlloc self.cnt self.num (lnRevokedBufFree before)
  let withVout : RevtxSelf := { allocated with vout := self.vout, vout_length := self.vout_length }
  let withWit : RevtxSelf := { withVout with wit := self.wit, wit_length := self.wit_length }
  let withType : RevtxSelf := { withWit with type := self.type, type_length := self.type_length }
  let withSec : RevtxSelf := { withType with sec := self.sec }
  simp only [revtxLoads]
  rw [loadRecords_cons (hfound lndbkRvn _ (by simp [revtxRecords]))
    (loadNum_run _ self.cnt self.num),
    loadRecords_cons (hfound lndbkRvv _ (by simp [revtxRecords]))
      (loadVout_run allocated self.vout_length hvout),
    loadRecords_cons (hfound lndbkRvw _ (by simp [revtxRecords]))
      (loadWit_run withVout self.wit_length hwit),
    loadRecords_cons (hfound lndbkRvt _ (by simp [revtxRecords]))
      (loadType_run withWit self.type_length),
    loadRecords_cons (hfound lndbkRvs self.sec (by simp [revtxRecords])) ⟨0, rfl⟩,
    loadRecords_cons (hfound lndbkRvc _ (by simp [revtxRecords])) (loadChk_run withSec self.chk)]
  change Result.done { self with channelId := (lnRevokedBufFree before).channelId } 0 = _
  rw [hfree]

/-- The state of a revoked close survives storage, whatever was in memory and in the database. -/
theorem lnDbRevtxLoad_save {fails : Bytes → Bool} {selfSave : MdbDbi → Option MdbDbi}
    {self before : RevtxSelf} {update : Bool} {txn after : MdbTxn}
    (hchannel : before.channelId = self.channelId)
    (hvout : ∀ script ∈ self.vout, script.length < 65536)
    (hwit : ∀ script ∈ self.wit, script.length < 65536)
    (hsave : lnDbRevtxSave fails selfSave self update txn = (true, after)) :
    lnDbRevtxLoad after before = .done self 0 := by
  obtain ⟨dbi, hdbi, hrecords⟩ := lnDbRevtxSave_lookup hsave
  rw [lnDbRevtxLoad, hchannel, hdbi]
  exact loadRecords_saved hchannel hvout hwit hrecords

/-- Two outputs of which one has no witness script, saved over nothing and loaded over one output
of another close. -/
theorem lnDbRevtxLoad_save_two :
    let saved : RevtxSelf := ⟨[0xab], 1, 2, [[0x00, 0x20], [0x00, 0x14]], [[0x63], []], [0, 1],
      [0x07], 6, rfl, rfl, rfl⟩
    let before : RevtxSelf := ⟨[0xab], 0, 1, [[0xff]], [[]], [2], [], 0, rfl, rfl, rfl⟩
    lnDbRevtxLoad (lnDbRevtxSave (fun _ => false) some saved false ∅).2 before = .done saved 0 :=
  lnDbRevtxLoad_save rfl (by decide) (by decide) (Prod.ext (by decide) rfl)

/-! ### What a revoked close left -/

/-- `ln_htlctype_t` as an integer; `none` is `LN_HTLCTYPE_NONE`. -/
def typeInt : Option LnHtlctype → UInt32
  | none => 0
  | some .offered => 1
  | some .received => 2

/-- The fields that `ln_close_remoterevoked` has filled. -/
def ofClose (channelId : Bytes) (revoked : RevokedClose) : RevtxSelf where
  channelId := channelId
  cnt := revoked.cnt
  num := revoked.num
  vout := (List.range revoked.num.toNat).map revoked.vout
  wit := (List.range revoked.num.toNat).map revoked.wit
  type := (List.range revoked.num.toNat).map fun index => typeInt (revoked.type index)
  sec := revoked.sec
  chk := revoked.chk
  vout_length := by rw [List.length_map, List.length_range]
  wit_length := by rw [List.length_map, List.length_range]
  type_length := by rw [List.length_map, List.length_range]

/-- A restart keeps what is needed to take the outputs of a revoked close, entry by entry. -/
theorem close_survives {fails : Bytes → Bool} {selfSave : MdbDbi → Option MdbDbi}
    {channelId : Bytes} {revoked : RevokedClose} {before : RevtxSelf} {update : Bool}
    {txn after : MdbTxn} (hchannel : before.channelId = channelId)
    (hvout : ∀ index, (revoked.vout index).length < 65536)
    (hwit : ∀ index, (revoked.wit index).length < 65536)
    (hsave : lnDbRevtxSave fails selfSave (ofClose channelId revoked) update txn = (true, after)) :
    ∃ loaded, lnDbRevtxLoad after before = .done loaded 0 ∧
      (loaded.cnt, loaded.num, loaded.sec, loaded.chk) =
        (revoked.cnt, revoked.num, revoked.sec, revoked.chk) ∧
      ∀ index < revoked.num.toNat, loaded.vout[index]? = some (revoked.vout index) ∧
        loaded.wit[index]? = some (revoked.wit index) ∧
        loaded.type[index]? = some (typeInt (revoked.type index)) := by
  obtain ⟨dbi, hdbi, hrecords⟩ := lnDbRevtxSave_lookup hsave
  have hname : before.channelId = (ofClose channelId revoked).channelId := hchannel
  refine ⟨ofClose channelId revoked, ?_, rfl, ?_⟩
  · rw [lnDbRevtxLoad, hname, hdbi]
    apply loadRecords_saved hname _ _ hrecords
    · intro script hscript
      obtain ⟨index, _, rfl⟩ := List.mem_map.mp hscript
      exact hvout index
    · intro script hscript
      obtain ⟨index, _, rfl⟩ := List.mem_map.mp hscript
      exact hwit index
  · intro index hindex
    simp [ofClose, hindex]

end RevokedStore

end Ptarmigan
