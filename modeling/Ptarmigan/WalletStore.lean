/-
The wallet in the database: `ln_db_wallet_add` packs an output and the items of its witness into one
record, `ln_lmdb_wallet_search` hands every record to a callback.
-/
import Mathlib.Data.List.GetD
import Ptarmigan.Lmdb
import Ptarmigan.TxSpelt

namespace Ptarmigan

namespace WalletStore

open WireReader TxSerial

/-- `ln_db_wallet_t`; `wit_cnt` is how many items there are. -/
structure LnDbWallet where
  type : UInt8
  txid : Fin 32 → UInt8
  index : UInt32
  amount : UInt64
  sequence : UInt32
  locktime : UInt32
  wit : List Bytes
deriving DecidableEq

/-- `BTC_SZ_PRIVKEY`. -/
def btcSzPrivkey : Nat := 32

/-- `outpoint`, the key of the record. -/
def outpoint (txid : Fin 32 → UInt8) (index : UInt32) : Bytes :=
  List.ofFn txid ++ setLe32 index

/-! ### Writing -/

/-- What the first pass counts: the length of an item is taken for a byte. -/
def recordSize (wallet : LnDbWallet) : Nat :=
  1 + 8 + 4 + 4 + 1 + (wallet.wit.map fun item => 1 + item.length % 256).sum

/-- What is put before an item, and all of the item. -/
def witItem (item : Bytes) : Bytes :=
  item.length.toUInt8 :: item

/-- What the second pass writes. -/
def recordBytes (wallet : LnDbWallet) : Bytes :=
  [wallet.type] ++ (setLe64 wallet.amount ++ (setLe32 wallet.sequence ++
    (setLe32 wallet.locktime ++ ([wallet.wit.length.toUInt8] ++ wallet.wit.flatMap witItem))))

/-- What `ln_db_wallet_add` leaves: its result, the size of the memory it allocated, all that was
written from the start of that memory on, and the database. -/
structure Added where
  ret : Bool
  allocated : Nat
  written : Bytes
  dbi : MdbDbi

/-- `ln_db_wallet_add`; when something of the database fails, the transaction is aborted. -/
def lnDbWalletAdd (fails : Bool) (wallet : LnDbWallet) (dbi : MdbDbi) : Added :=
  if wallet.wit.length < 2 then ⟨false, 0, [], dbi⟩
  else if (wallet.wit.headD []).length != btcSzPrivkey then ⟨false, 0, [], dbi⟩
  else
    let size := recordSize wallet
    let written := recordBytes wallet
    if fails then ⟨false, size, written, dbi⟩
    else
      ⟨true, size, written, dbi.insert (outpoint wallet.txid wallet.index) (written.take size)⟩

/-! ### Searching -/

def getByte : WireReader Unit UInt8 :=
  (fun field => field.headD 0) <$> bytes 1

def readWit : Nat → WireReader Unit (List Bytes)
  | 0 => pure []
  | count + 1 => do
      let len ← getByte
      let item ← bytes len.toNat
      let items ← readWit count
      pure (item :: items)

/-- `wallet`, with the outpoint of the key. -/
def walletOf (key : Bytes) (type : UInt8) (amount : UInt64) (sequence locktime : UInt32)
    (wit : List Bytes) : LnDbWallet where
  type := type
  txid := fun place => key.getD place 0
  index := UInt32.ofNat (LittleEndian.decode ((key.drop 32).take 4))
  amount := amount
  sequence := sequence
  locktime := locktime
  wit := wit

/-- One turn of the loop of `ln_lmdb_wallet_search`, up to the callback. -/
def readWallet (key : Bytes) : WireReader Unit LnDbWallet := do
  let type ← getByte
  let amount ← getLe64
  let sequence ← getLe32
  let locktime ← getLe32
  let count ← getByte
  let wit ← readWit count.toNat
  pure (walletOf key type amount sequence locktime wit)

/-- `ln_lmdb_wallet_search`: what the callback is handed, in the order of the keys, until it stops.
A record that is read behind its end is handed over as a fault. -/
def lnLmdbWalletSearch (stops : Bytes → Result Unit LnDbWallet → Bool) (dbi : MdbDbi) :
    List (Bytes × Result Unit LnDbWallet) :=
  handOver (fun key data => (readWallet key).run data) stops (mdbRecords dbi)

/-! ### A record that is read as it was written -/

theorem recordBytes_length (wallet : LnDbWallet) :
    (recordBytes wallet).length = 18 + (wallet.wit.map fun item => 1 + item.length).sum := by
  have hitems : (wallet.wit.flatMap witItem).length =
      (wallet.wit.map fun item => 1 + item.length).sum := by
    simp [List.length_flatMap, witItem, Nat.add_comm]
  simp only [recordBytes, List.length_append, List.length_cons, List.length_nil, length_setLe64,
    length_setLe32, hitems]
  omega

/-- The first pass counts all bytes exactly when every item's length fits a byte. -/
theorem recordBytes_fits_iff (wallet : LnDbWallet) :
    (recordBytes wallet).length ≤ recordSize wallet ↔ ∀ item ∈ wallet.wit, item.length < 256 := by
  have hle : ∀ items : List Bytes, (items.map fun item => 1 + item.length % 256).sum ≤
      (items.map fun item => 1 + item.length).sum := by
    intro items
    induction items with
    | nil => exact Nat.le_refl 0
    | cons item items ih =>
        have hmod := Nat.mod_le item.length 256
        simp only [List.map_cons, List.sum_cons]
        omega
  have hiff : ∀ items : List Bytes, (items.map fun item => 1 + item.length).sum ≤
      (items.map fun item => 1 + item.length % 256).sum ↔ ∀ item ∈ items, item.length < 256 := by
    intro items
    induction items with
    | nil => simp
    | cons item items ih =>
        have hrest := hle items
        have hmod := Nat.mod_le item.length 256
        have hlt := Nat.mod_lt item.length (by decide : 256 > 0)
        simp only [List.map_cons, List.sum_cons, List.forall_mem_cons, ← ih]
        constructor
        · intro hsum
          omega
        · rintro ⟨hitem, hsum⟩
          rw [Nat.mod_eq_of_lt hitem]
          omega
  rw [recordBytes_length, recordSize, ← hiff]
  omega

section Reads

variable {pos : Nat} {rest : Bytes}

theorem reads_getByte (byte : UInt8) : Reads pos rest getByte [byte] byte :=
  Reads.map _ (Reads.bytes rfl)

theorem reads_readWit {items : List Bytes} (hshort : ∀ item ∈ items, item.length < 256) :
    Reads pos rest (readWit items.length) (items.flatMap witItem) items := by
  induction items generalizing pos with
  | nil => exact Reads.pure []
  | cons item items ih =>
      have hlen : item.length.toUInt8.toNat = item.length :=
        Nat.mod_eq_of_lt (hshort item List.mem_cons_self)
      have hrest : ∀ later ∈ items, later.length < 256 :=
        fun later hlater => hshort later (List.mem_cons_of_mem item hlater)
      have hitem : witItem item ++ items.flatMap witItem =
          [item.length.toUInt8] ++ (item ++ items.flatMap witItem) := rfl
      rw [List.flatMap_cons, hitem]
      apply Reads.bind (reads_getByte item.length.toUInt8)
      apply Reads.bind (Reads.bytes hlen.symm)
      exact Reads.map (item :: ·) (ih hrest)

end Reads

/-- The key gives the outpoint back. -/
theorem outpoint_txid (txid : Fin 32 → UInt8) (index : UInt32) (place : Fin 32) :
    (outpoint txid index).getD place 0 = txid place := by
  have hlt : (place : Nat) < (List.ofFn txid).length := by
    rw [List.length_ofFn]
    exact place.isLt
  rw [outpoint, List.getD_append _ _ _ _ hlt, List.getD_eq_getElem _ _ hlt, List.getElem_ofFn]

theorem outpoint_index (txid : Fin 32 → UInt8) (index : UInt32) :
    UInt32.ofNat (LittleEndian.decode (((outpoint txid index).drop 32).take 4)) = index := by
  have hdrop : (outpoint txid index).drop 32 = setLe32 index :=
    List.drop_left' (List.length_ofFn)
  have htake : (setLe32 index).take 4 = setLe32 index :=
    List.take_of_length_le (Nat.le_of_eq (length_setLe32 index))
  rw [hdrop, htake, setLe32, LittleEndian.decode_encode index.toNat_lt, UInt32.ofNat_toNat]

theorem walletOf_outpoint (wallet : LnDbWallet) :
    walletOf (outpoint wallet.txid wallet.index) wallet.type wallet.amount wallet.sequence
      wallet.locktime wallet.wit = wallet := by
  have htxid : (fun place : Fin 32 => (outpoint wallet.txid wallet.index).getD place 0) =
      wallet.txid :=
    funext (outpoint_txid wallet.txid wallet.index)
  rw [walletOf, htxid, outpoint_index]

/-- A record whose count and lengths fit their bytes is read back. -/
theorem readWallet_run {wallet : LnDbWallet} (hcount : wallet.wit.length < 256)
    (hshort : ∀ item ∈ wallet.wit, item.length < 256) :
    ∃ pos, (readWallet (outpoint wallet.txid wallet.index)).run (recordBytes wallet) =
      .done wallet pos := by
  have hlen : wallet.wit.length.toUInt8.toNat = wallet.wit.length := Nat.mod_eq_of_lt hcount
  have hlast : Reads (0 + 1 + 8 + 4 + 4 + 1) []
      (walletOf (outpoint wallet.txid wallet.index) wallet.type wallet.amount wallet.sequence
        wallet.locktime <$> readWit wallet.wit.length)
      (wallet.wit.flatMap witItem) wallet := by
    have hmap := Reads.map (walletOf (outpoint wallet.txid wallet.index) wallet.type wallet.amount
      wallet.sequence wallet.locktime) (@reads_readWit (0 + 1 + 8 + 4 + 4 + 1) [] _ hshort)
    rwa [walletOf_outpoint] at hmap
  have hbody : Reads 0 [] (readWallet (outpoint wallet.txid wallet.index)) (recordBytes wallet)
      wallet := by
    apply Reads.bind (reads_getByte wallet.type)
    apply Reads.bind (reads_getLe64 wallet.amount)
    apply Reads.bind (reads_getLe32 wallet.sequence)
    apply Reads.bind (reads_getLe32 wallet.locktime)
    apply Reads.bind (reads_getByte wallet.wit.length.toUInt8)
    rw [hlen]
    exact hlast
  exact ⟨_, hbody.run⟩

/-- However it ends, no more items are read than the count byte says. -/
theorem wlp_readWit (count : Nat) (data : Bytes) (pos : Nat) :
    wlp (readWit count) data pos fun items _ => items.length = count := by
  induction count generalizing pos with
  | zero => exact (wlp_pure _).mpr rfl
  | succ count ih =>
      simp only [readWit, getByte, wlp_bind, wlp_map, wlp_bytes, wlp_pure, List.length_cons]
      intro _ _
      exact wlp_mono (fun items pos hitems => congrArg (· + 1) hitems) (ih _)

theorem wlp_readWallet (key data : Bytes) :
    wlp (readWallet key) data 0 fun wallet _ =>
      wallet.wit.length = (((data.drop 17).take 1).headD 0).toNat := by
  simp only [readWallet, getByte, getLe32, getLe64, wlp_bind, wlp_map, wlp_bytes, wlp_pure]
  intro _ _ _ _ _
  exact wlp_mono (fun items pos hitems => hitems) (wlp_readWit _ data _)

/-- Of the record only the items that its count byte counts are read. -/
theorem length_wit_of_read {wallet read : LnDbWallet} {key : Bytes} {pos : Nat}
    (hread : (readWallet key).run (recordBytes wallet) = .done read pos) :
    read.wit.length = wallet.wit.length % 256 := by
  have hcount : ((recordBytes wallet).drop 17).take 1 = [wallet.wit.length.toUInt8] := rfl
  have hlength := (wlp_readWallet key (recordBytes wallet)).of_done hread
  rw [hcount] at hlength
  exact hlength

/-! ### What becomes of a record -/

/-- The record lies in the memory allocated for it, a search that its callback does not end at
another outpoint hands it over as it was, once, and the other records are as before. -/
structure WalletKept (fails : Bool) (wallet : LnDbWallet) (dbi : MdbDbi) : Prop where
  inside : (lnDbWalletAdd fails wallet dbi).written.length ≤
    (lnDbWalletAdd fails wallet dbi).allocated
  handed : ∀ stops : Bytes → Result Unit LnDbWallet → Bool,
    (∀ other value, other ≠ outpoint wallet.txid wallet.index → stops other value = false) →
      ∃ pos, (lnLmdbWalletSearch stops (lnDbWalletAdd fails wallet dbi).dbi).filter
          (fun entry => entry.1 == outpoint wallet.txid wallet.index) =
        [(outpoint wallet.txid wallet.index, .done wallet pos)]
  others : ∀ key, key ≠ outpoint wallet.txid wallet.index →
    (lnDbWalletAdd fails wallet dbi).dbi.lookup key = dbi.lookup key

/-- What is left when `ln_db_wallet_add` returned true. -/
theorem lnDbWalletAdd_eq {fails : Bool} {wallet : LnDbWallet} {dbi : MdbDbi}
    (hadd : (lnDbWalletAdd fails wallet dbi).ret = true) :
    lnDbWalletAdd fails wallet dbi = ⟨true, recordSize wallet, recordBytes wallet,
      dbi.insert (outpoint wallet.txid wallet.index)
        ((recordBytes wallet).take (recordSize wallet))⟩ := by
  rw [lnDbWalletAdd] at hadd ⊢
  split at hadd
  · exact absurd hadd Bool.false_ne_true
  · rename_i hcount
    split at hadd
    · exact absurd hadd Bool.false_ne_true
    · rename_i hkey
      rw [if_neg hcount, if_neg hkey]
      cases fails with
      | true => exact absurd hadd Bool.false_ne_true
      | false => rfl

/-- A wallet record survives exactly when the number of its items and each of their lengths fit
in a byte. -/
theorem walletKept_iff {fails : Bool} {wallet : LnDbWallet} {dbi : MdbDbi}
    (hadd : (lnDbWalletAdd fails wallet dbi).ret = true) :
    WalletKept fails wallet dbi ↔
      wallet.wit.length < 256 ∧ ∀ item ∈ wallet.wit, item.length < 256 := by
  have hadded := lnDbWalletAdd_eq hadd
  have htake : (recordBytes wallet).length ≤ recordSize wallet →
      (recordBytes wallet).take (recordSize wallet) = recordBytes wallet :=
    List.take_of_length_le
  constructor
  · rintro ⟨hinside, hhanded, -⟩
    rw [hadded] at hinside hhanded
    obtain ⟨pos, hfilter⟩ := hhanded (fun _ _ => false) fun _ _ _ => rfl
    rw [lnLmdbWalletSearch, handOver_insert _ fun _ _ _ => rfl, htake hinside] at hfilter
    have hread : (readWallet (outpoint wallet.txid wallet.index)).run (recordBytes wallet) =
        .done wallet pos := by
      simpa using hfilter
    have hcount : wallet.wit.length = wallet.wit.length % 256 := length_wit_of_read hread
    refine ⟨?_, (recordBytes_fits_iff wallet).mp hinside⟩
    rw [hcount]
    exact Nat.mod_lt _ (by decide)
  · rintro ⟨hcount, hshort⟩
    have hinside := (recordBytes_fits_iff wallet).mpr hshort
    obtain ⟨pos, hread⟩ := readWallet_run hcount hshort
    constructor
    · rw [hadded]
      exact hinside
    · intro stops hgoes
      refine ⟨pos, ?_⟩
      rw [hadded, lnLmdbWalletSearch, handOver_insert dbi hgoes, htake hinside, hread]
    · intro key hother
      rw [hadded]
      exact AList.lookup_insert_ne hother

/-- A private key and a public key. -/
def twoItems : LnDbWallet :=
  ⟨1, fun _ => 0xaa, 0, 1000, 0xffffffff, 0, [List.replicate 32 0x01, List.replicate 33 0x02]⟩

theorem walletKept_twoItems :
    WalletKept false twoItems ∅ ↔
      twoItems.wit.length < 256 ∧ ∀ item ∈ twoItems.wit, item.length < 256 :=
  walletKept_iff (by decide)

/-- A script of 256 bytes is not counted, and is copied all the same. -/
def longItem : LnDbWallet :=
  ⟨1, fun _ => 0xaa, 0, 1000, 0xffffffff, 0, [List.replicate 32 0x01, List.replicate 256 0x02]⟩

theorem not_walletKept_longItem :
    ¬ ((lnDbWalletAdd false longItem ∅).ret = true → WalletKept false longItem ∅) := by
  intro hkept
  have hinside := (hkept (by decide)).inside
  exact absurd hinside (by decide +kernel)

end WalletStore

end Ptarmigan
