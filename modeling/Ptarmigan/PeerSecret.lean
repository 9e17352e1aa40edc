/-
The secrets that the peer hands over, whatever it sends: a secret that `recv_revoke_and_ack`
has accepted is read back from the store for ever, also after the process has stopped.
-/
import Ptarmigan.Dance
import Ptarmigan.DerkeyStorage

namespace Ptarmigan

open PrefixTree TransitionSystem

variable {crypto : Crypto} {self : LnSelf} {storage : LnDerkeyStorage} {secret : Nat → Bytes}
  {lowest : Nat}

/-! ### A store of any secrets -/

/-- The store of the secrets that have come for the indices from `2 ^ 48 - 1` down to `lowest`:
each slot holds the newest of its level, and the secret of a leaf below it follows from it. -/
structure Keeps (crypto : Crypto) (secret : Nat → Bytes) (lowest : Nat)
    (storage : LnDerkeyStorage) : Prop where
  filled : ∀ (bit : Fin 49) (index : Nat), Newest 48 lowest bit index →
    storage bit = ⟨secret index, index.toUInt64⟩
  unfilled : ∀ bit : Fin 49, (∀ index, ¬ Newest 48 lowest bit index) →
    storage bit = lnDerkeyStorageInit bit
  derived : ∀ (bit : Fin 49) (index : Nat), index < 2 ^ 48 →
    Newest 48 lowest bit (node bit index) →
      secret index = walk (secretChild crypto) (secret (node bit index)) bit index

theorem keeps_init : Keeps crypto secret (2 ^ 48) lnDerkeyStorageInit where
  filled _ _ hnewest := absurd hnewest.lt_top (Nat.not_lt_of_le hnewest.lowest_le)
  unfilled _ _ := rfl
  derived _ _ _ hnewest := absurd hnewest.lt_top (Nat.not_lt_of_le hnewest.lowest_le)

/-- Only the secrets that have come matter. -/
theorem Keeps.congr {other : Nat → Bytes} (hkeeps : Keeps crypto secret lowest storage)
    (hsame : ∀ index, lowest ≤ index → other index = secret index) :
    Keeps crypto other lowest storage where
  filled bit index hnewest := by
    rw [hkeeps.filled bit index hnewest, hsame index hnewest.lowest_le]
  unfilled := hkeeps.unfilled
  derived bit index hlt hnewest := by
    rw [hsame _ hnewest.lowest_le, hsame _ (hnewest.lowest_le.trans (node_le _ _))]
    exact hkeeps.derived bit index hlt hnewest

/-- An index behind another in its subtree belongs to one of the siblings below. -/
theorem exists_sibling {height index : Nat} (hdvd : 2 ^ height ∣ lowest) (hlt : lowest < index)
    (hinside : index < lowest + 2 ^ height) :
    ∃ low < height, node low index = lowest + 2 ^ low := by
  have hne : index - lowest ≠ 0 := by omega
  have hle := Nat.log2_self_le hne
  have hsmall := Nat.lt_log2_self (n := index - lowest)
  have hheight : (index - lowest).log2 < height := by
    rw [Nat.log2_lt hne]
    omega
  generalize (index - lowest).log2 = low at hle hsmall hheight
  refine ⟨low, hheight, ?_⟩
  obtain ⟨rest, rfl⟩ := (Nat.pow_dvd_pow 2 hheight.le).trans hdvd
  have hquot : index / 2 ^ low = rest + 1 := by
    have hsplit : index = (index - 2 ^ low * rest - 2 ^ low) + 2 ^ low * (rest + 1) := by
      rw [Nat.mul_succ]
      omega
    rw [hsplit, Nat.add_mul_div_left _ _ (Nat.two_pow_pos low), Nat.div_eq_of_lt, Nat.zero_add]
    rw [Nat.pow_succ] at hsmall
    omega
  rw [node, hquot, Nat.add_mul, Nat.one_mul, Nat.mul_comm]

/-- An accepted secret joins the store. -/
theorem Keeps.insert {index : UInt64} {added : Bytes} {after : LnDerkeyStorage}
    (hkeeps : Keeps crypto secret (index.toNat + 1) storage) (hlt : index.toNat < 2 ^ 48)
    (hinsert : lnDerkeyStorageInsertSecret crypto storage added index = some after) :
    Keeps crypto (Function.update secret index.toNat added) index.toNat after := by
  have hlevel := whereToPutSecret_atLevel index
  have hheight : (whereToPutSecret index).val ≤ 48 := by omega
  have hplace : ∀ bit : Fin 49, AtLevel 48 bit index.toNat → bit = whereToPutSecret index :=
    fun bit hat => Fin.ext (hat.unique hlevel (by omega) (by omega))
  rw [lnDerkeyStorageInsertSecret] at hinsert
  split_ifs at hinsert with hconsistent
  obtain rfl := Option.some.inj hinsert
  have hold : ∀ {bit : Fin 49} {other : Nat}, other ≠ index.toNat →
      Newest 48 index.toNat bit other → Newest 48 (index.toNat + 1) bit other := by
    intro bit other hne hnewest
    refine { hnewest with lowest_le := ?_, newest := ?_ }
    · have hle := hnewest.lowest_le
      omega
    · exact fun smaller hle => hnewest.newest smaller (Nat.le_of_succ_le hle)
  refine ⟨?_, ?_, ?_⟩
  · intro bit other hnewest
    by_cases hother : other = index.toNat
    · subst hother
      rw [hplace bit hnewest.level, Function.update_self, Function.update_self]
      simp
    · have hbit : bit ≠ whereToPutSecret index := by
        rintro rfl
        exact hother (hnewest.unique (newest_self hlt hlevel))
      rw [Function.update_of_ne hbit, Function.update_of_ne hother]
      exact hkeeps.filled bit other (hold hother hnewest)
  · intro bit hnone
    by_cases hbit : bit = whereToPutSecret index
    · exact absurd (newest_self hlt hlevel) (hbit ▸ hnone index.toNat)
    · rw [Function.update_of_ne hbit]
      exact hkeeps.unfilled bit fun other hnewest =>
        hnone other (hnewest.of_succ fun hat => hbit (hplace bit hat))
  · intro bit leaf hleaf hnewest
    by_cases hnode : node bit leaf = index.toNat
    · obtain rfl := hplace bit (hnode ▸ hnewest.level)
      rw [hnode, Function.update_self]
      by_cases hself : leaf = index.toNat
      · rw [hself, Function.update_self,
          walk_of_clear added ((dvd_iff_testBit _ _).mp hlevel.1)]
      · -- the leaf belongs to a sibling, whose slot the insertion has compared
        have hbehind : index.toNat < leaf := by
          have hle := node_le (whereToPutSecret index) leaf
          omega
        have hinside : leaf < index.toNat + 2 ^ (whereToPutSecret index).val :=
          hnode ▸ lt_node_add _ leaf
        obtain ⟨low, hlow, hsibling⟩ := exists_sibling hlevel.1 hbehind hinside
        have hnewer := newest_sibling hlt hlevel hheight hlow
        have hslot := hkeeps.filled ⟨low, by omega⟩ _ hnewer
        have hcompared := hconsistent ⟨low, by omega⟩ hlow
        rw [hslot, deriveSecret_eq_walk, toNat_toUInt64_of_lt hnewer.lt_top] at hcompared
        rw [Function.update_of_ne hself, walk_node hlow.le added leaf, hsibling, hcompared,
          ← hsibling]
        exact hkeeps.derived ⟨low, by omega⟩ leaf hleaf (hsibling ▸ hnewer)
    · have hbelow := hold hnode hnewest
      have hself : leaf ≠ index.toNat := by
        have hle := hbelow.lowest_le.trans (node_le bit leaf)
        omega
      rw [Function.update_of_ne hnode, Function.update_of_ne hself]
      exact hkeeps.derived bit leaf hleaf hbelow

/-- A slot whose index matches holds a secret that has come, not the filler. -/
theorem Keeps.newest_of_match (hkeeps : Keeps crypto secret lowest storage) {bit : Fin 49}
    {index : Nat} (hle : lowest ≤ index) (hmatch : node bit index = (storage bit).index.toNat) :
    Newest 48 lowest bit (node bit index) := by
  by_cases hsome : ∃ newest, Newest 48 lowest bit newest
  · obtain ⟨newest, hnewest⟩ := hsome
    rw [hkeeps.filled bit newest hnewest, toNat_toUInt64_of_lt hnewest.lt_top] at hmatch
    rw [hmatch]
    exact hnewest
  · exfalso
    have hempty := hkeeps.unfilled bit fun newest hnewest => hsome ⟨newest, hnewest⟩
    rw [hempty] at hmatch
    have hplace : node bit index = 0x123456789abc := hmatch
    have hdvd : 2 ^ bit.val ∣ 0x123456789abc := hplace ▸ ⟨_, Nat.mul_comm _ _⟩
    have hbit : bit.val ≤ 2 := by
      by_contra hhigh
      have height : 2 ^ 3 ∣ 0x123456789abc := (Nat.pow_dvd_pow 2 (by omega)).trans hdvd
      exact absurd height (by decide)
    have hpow : 2 ^ bit.val ≤ 2 ^ 2 := Nat.pow_le_pow_right (by omega) hbit
    have hrest := lt_node_add bit index
    -- the first index of the level is above all that match the filler
    obtain ⟨newest, hnewest⟩ := @exists_newest _ lowest _ _ (by omega)
      (Nat.sub_lt (Nat.two_pow_pos 48) (Nat.two_pow_pos bit.val)) (atLevel_first (by omega))
    exact hsome ⟨newest, hnewest⟩

theorem Keeps.get (hkeeps : Keeps crypto secret lowest storage) {index : UInt64}
    (hle : lowest ≤ index.toNat) (hlt : index.toNat < 2 ^ 48) :
    lnDerkeyStorageGetSecret crypto storage index = some (secret index.toNat) := by
  obtain ⟨height, hheight, hnewest⟩ := exists_newest_node hle hlt
  have hslot := hkeeps.filled ⟨height, by omega⟩ _ hnewest
  obtain ⟨bit, hbit⟩ : ∃ bit, (List.finRange 49).reverse.find? (fun bit : Fin 49 =>
      index.toNat / 2 ^ bit.val * 2 ^ bit.val == (storage bit).index.toNat) = some bit := by
    refine Option.isSome_iff_exists.mp (List.find?_isSome.mpr
      ⟨⟨height, by omega⟩, List.mem_reverse.mpr (List.mem_finRange _), ?_⟩)
    rw [hslot, beq_iff_eq, toNat_toUInt64_of_lt hnewest.lt_top]
    rfl
  have hmatch : node bit index.toNat = (storage bit).index.toNat := by
    have hfound := List.find?_some hbit
    rwa [beq_iff_eq] at hfound
  have hmatched := hkeeps.newest_of_match hle hmatch
  have hnode := toNat_toUInt64_of_lt hmatched.lt_top
  rw [lnDerkeyStorageGetSecret, hbit, Option.map_some, hkeeps.filled bit _ hmatched,
    hkeeps.derived bit index.toNat hlt hmatched]
  by_cases hself : index = (node bit index.toNat).toUInt64
  · have hclear : ∀ low < bit.val, index.toNat.testBit low = false := by
      rw [hself, hnode]
      exact (dvd_iff_testBit _ _).mp hmatched.level.1
    rw [if_pos hself, walk_of_clear _ hclear]
  · have hsub : (index - (node bit index.toNat).toUInt64).toNat =
        index.toNat - node bit index.toNat := by
      rw [UInt64.toNat_sub_of_le, hnode]
      rw [UInt64.le_iff_toNat_le, hnode]
      exact node_le _ _
    rw [if_neg hself, deriveSecret_eq_walk, hsub, walk_sub_node]

/-! ### The events -/

/-- The store and the index at which the next secret goes. -/
structure PeerStore where
  storage : LnDerkeyStorage
  index : UInt64

def LnSelf.peerStore (self : LnSelf) : PeerStore := ⟨self.peerStorage, self.peerStorageIndex⟩

theorem ClosingChange.peerStore {before after : LnSelf} (hchange : ClosingChange before after) :
    after.peerStore = before.peerStore := by
  obtain ⟨_, _, _, _, _, _, _, rfl⟩ := hchange
  rfl

theorem OnlySlots.peerStore {before after : LnSelf} (honly : OnlySlots before after) :
    after.peerStore = before.peerStore := by
  obtain ⟨_, _, rfl⟩ := honly
  rfl

/-- What an event does to the store: nothing, or it accepts a secret and saves it. -/
inductive PeerStoreChange (crypto : Crypto) (self : LnSelf) : ChannelEvent → Outcome → Prop
  | same {ev : ChannelEvent} {outcome : Outcome} :
      outcome.self.peerStore = self.peerStore → PeerStoreChange crypto self ev outcome
  | accepted {channelId point : Bytes} {env : RecvEnv} {secret : Bytes}
      {storage : LnDerkeyStorage} {after : LnSelf} :
      lnDerkeyStorageInsertSecret crypto self.peerStorage secret self.peerStorageIndex =
        some storage →
      after.peerStore = ⟨storage, self.peerStorageIndex - 1⟩ →
      PeerStoreChange crypto self (.recv channelId (.revokeAndAck secret point) env)
        ⟨true, after, [.selfSave after]⟩

theorem recvRevokeAndAck_peerStore (channelId added point : Bytes) (env : RecvEnv) :
    PeerStoreChange crypto self (.recv channelId (.revokeAndAck added point) env)
      (recvRevokeAndAck crypto self channelId added point) := by
  simp only [recvRevokeAndAck, storePeerPercommitSecret]
  split_ifs
  · exact .same rfl
  · exact .same rfl
  · cases hinsert : lnDerkeyStorageInsertSecret crypto self.peerStorage added
      self.peerStorageIndex with
    | none => exact .same rfl
    | some storage => exact .accepted hinsert rfl

theorem recvFunc_peerStore (channelId : Bytes) (msg : LnMsg) (env : RecvEnv)
    (hupdate : ¬ (ChannelEvent.recv channelId msg env).isUpdate = true) :
    PeerStoreChange crypto self (.recv channelId msg env)
      (recvFunc crypto self channelId env msg) := by
  cases msg with
  | revokeAndAck added point => exact recvRevokeAndAck_peerStore channelId added point env
  | commitmentSigned sig htlcSigs =>
      obtain ⟨slots, txid, htlcNum, hself, -⟩ := createToLocal_changes crypto
        { self with commitLocal := { self.commitLocal with signature := sig } } htlcSigs
        (self.commitLocal.commitNum + 1) self.commitRemote.toSelfDelay
        self.commitLocal.dustLimitSat
      simp only [recvFunc, recvCommitmentSigned]
      split_ifs
      · exact .same rfl
      · simp only [hself]
        exact .same rfl
      · simp only [hself]
        exact .same rfl
  | fundingLocked perCommitpt =>
      simp only [recvFunc, recvFundingLocked]
      split <;> exact .same rfl
  | channelReestablish reest =>
      simp only [recvFunc, recvChannelReestablish]
      repeat' split
      all_goals exact .same rfl
  | updateFee feeratePerKw =>
      simp only [recvFunc, recvUpdateFee]
      split <;> exact .same rfl
  | shutdown scriptpk =>
      exact .same (recvShutdown_closing crypto self channelId scriptpk).1.peerStore
  | closingSigned feeSat signature =>
      exact .same (recvClosingSigned_closing crypto self channelId feeSat signature
        env.broadcast).1.peerStore
  | _ => exact absurd rfl hupdate

theorem handle_peerStore (crypto : Crypto) (self : LnSelf) (ev : ChannelEvent) :
    PeerStoreChange crypto self ev (handle crypto self ev) := by
  by_cases hupdate : ev.isUpdate = true
  · exact .same (handle_onlySlots hupdate).peerStore
  · cases ev with
    | recv channelId msg env =>
        rw [handle, lnRecv]
        split
        · exact recvFunc_peerStore channelId msg env hupdate
        · exact .same rfl
    | idle =>
        simp only [handle, lnRecvIdleProc]
        split_ifs
        · exact .same rfl
        · exact .same rfl
        · simp only [recvIdleProcNonfinal, idleSendComsig]
          repeat' split
          all_goals exact .same rfl
    | reestablished =>
        simp only [handle, lnChannelReestablishAfter, reestResendUpdate]
        repeat' split
        all_goals exact .same rfl
    | shutdown fee => exact .same (handle_closing rfl).peerStore
    | _ => simp [ChannelEvent.isUpdate] at hupdate

/-- What is saved of the store is what the event leaves. -/
theorem saved_peerStore {ev : ChannelEvent} {saved : LnSelf}
    (hsaved : Effect.selfSave saved ∈ (handle crypto self ev).trace) :
    saved.peerStore = (handle crypto self ev).self.peerStore :=
  (handle_saves crypto self ev saved hsaved).peerStore.symm

/-! ### Runs -/

/-- The store of a channel keeps the secrets, and its index is the one below them. -/
structure PeerStore.Holds (crypto : Crypto) (secret : Nat → Bytes) (store : PeerStore) :
    Prop where
  keeps : Keeps crypto secret (store.index.toNat + 1) store.storage
  inside : store.index.toNat < 2 ^ 48

theorem PeerStore.Holds.congr {store : PeerStore} {other : Nat → Bytes}
    (hholds : store.Holds crypto secret)
    (hsame : ∀ index, store.index.toNat < index → other index = secret index) :
    store.Holds crypto other :=
  ⟨hholds.keeps.congr hsame, hholds.inside⟩

/-- The stores in memory and on disk keep the same secrets; that on disk is the newer one, and
while the channel is running they are the same. -/
structure PeerSecretsInv (crypto : Crypto) (secret : Nat → Bytes) (state : ChannelState) :
    Prop where
  self : state.self.peerStore.Holds crypto secret
  db : state.db.chan.peerStore.Holds crypto secret
  newest : state.running → state.self.peerStore = state.db.chan.peerStore
  behind : state.db.chan.peerStorageIndex.toNat ≤ state.self.peerStorageIndex.toNat

theorem toNat_pred {index : UInt64} (hpos : 0 < index) : (index - 1).toNat + 1 = index.toNat := by
  have hlt : 0 < index.toNat := UInt64.lt_iff_toNat_lt.mp hpos
  have hle : (1 : UInt64) ≤ index := by
    rw [UInt64.le_iff_toNat_le, UInt64.toNat_one]
    exact hlt
  rw [UInt64.toNat_sub_of_le _ _ hle, UInt64.toNat_one]
  exact Nat.sub_add_cancel hlt

/-- There is an index left for the next secret. -/
def SecretRoom (before : ChannelState) (_ : ChannelLabel) : Prop :=
  0 < before.self.peerStorageIndex

theorem peerSecretsInv_start {state : ChannelState} (hstart : (channelSystem crypto).start state) :
    PeerSecretsInv crypto secret state := by
  obtain ⟨outcome, hdone, rfl⟩ := hstart
  obtain ⟨_, _, _, ready, rfl, hfresh⟩ := hdone.fresh
  have hstore : (startFundingWait crypto ready).self.peerStore =
      ⟨lnDerkeyStorageInit, lnSecindexInit⟩ := by
    rw [LnSelf.peerStore, ← hfresh.peerStorage, ← hfresh.peerStorageIndex]
    rfl
  have hholds : (startFundingWait crypto ready).self.peerStore.Holds crypto secret := by
    rw [hstore]
    exact ⟨keeps_init, by decide⟩
  exact ⟨hholds, hholds, fun _ => rfl, le_refl _⟩

variable {before after : ChannelState}

/-- Effects that leave the store as it is. -/
theorem PeerSecretsInv.took_same {outcome : Outcome} {trace : List Effect}
    (hinv : PeerSecretsInv crypto secret before) (htook : Took before outcome trace after)
    (hself : outcome.self.peerStore = before.self.peerStore)
    (hsaved : ∀ saved, Effect.selfSave saved ∈ trace →
      saved.peerStore = before.self.peerStore) :
    PeerSecretsInv crypto secret after := by
  have hnewest := hinv.newest htook.running
  have hdb : after.db.chan.peerStore = before.self.peerStore := by
    rw [htook.db]
    exact Db.writes_chan (fun _ _ => rfl) hnewest.symm hsaved
  have hafter : after.self.peerStore = before.self.peerStore := by
    rcases htook.self with ⟨heq, -⟩ | ⟨heq, -⟩
    · rw [heq, hself]
    · rw [heq]
  refine ⟨hafter ▸ hinv.self, hdb ▸ hinv.self, fun _ => hafter.trans hdb.symm, ?_⟩
  have hindex := congrArg PeerStore.index (hdb.trans hafter.symm)
  exact (congrArg UInt64.toNat hindex).le

/-- The secret that was accepted and saved. -/
theorem PeerSecretsInv.took_accepted {added : Bytes} {storage : LnDerkeyStorage}
    {accepted : LnSelf} {trace : List Effect} (hinv : PeerSecretsInv crypto secret before)
    (hroom : 0 < before.self.peerStorageIndex)
    (hinsert : lnDerkeyStorageInsertSecret crypto before.self.peerStorage added
      before.self.peerStorageIndex = some storage)
    (hstore : accepted.peerStore = ⟨storage, before.self.peerStorageIndex - 1⟩)
    (htrace : trace = [.selfSave accepted])
    (htook : Took before ⟨true, accepted, [.selfSave accepted]⟩ trace after) :
    PeerSecretsInv crypto
      (Function.update secret before.self.peerStorageIndex.toNat added) after := by
  subst htrace
  have hindex := toNat_pred hroom
  have hinside : before.self.peerStorageIndex.toNat < 2 ^ 48 := hinv.self.inside
  have hholds : accepted.peerStore.Holds crypto
      (Function.update secret before.self.peerStorageIndex.toNat added) := by
    rw [hstore]
    refine ⟨?_, ?_⟩
    · rw [hindex]
      exact hinv.self.keeps.insert hinside hinsert
    · have hbelow : (before.self.peerStorageIndex - 1).toNat < 2 ^ 48 := by omega
      exact hbelow
  have hdb : after.db.chan.peerStore = accepted.peerStore := by
    rw [htook.db]
    rfl
  have holder : before.self.peerStore.Holds crypto
      (Function.update secret before.self.peerStorageIndex.toNat added) :=
    hinv.self.congr fun index hlt => Function.update_of_ne (Nat.ne_of_gt hlt) _ _
  have hdbIndex : after.db.chan.peerStorageIndex = before.self.peerStorageIndex - 1 :=
    congrArg PeerStore.index (hdb.trans hstore)
  rcases htook.self with ⟨heq, -⟩ | ⟨heq, hstopped⟩
  · have hself : after.self.peerStore = after.db.chan.peerStore := by
      rw [heq, hdb]
    refine ⟨hself ▸ hdb ▸ hholds, hdb ▸ hholds, fun _ => hself, ?_⟩
    exact (congrArg (fun store => store.index.toNat) hself.symm).le
  · refine ⟨heq ▸ holder, hdb ▸ hholds, fun hrun => absurd hrun hstopped, ?_⟩
    rw [heq, hdbIndex]
    omega

/-- A step keeps the secrets, and may add the one at the index of the store. -/
theorem peerSecretsInv_step {label : ChannelLabel} (hinv : PeerSecretsInv crypto secret before)
    (hroom : SecretRoom before label) (hnext : channelNext crypto before label = some after) :
    ∃ added, PeerSecretsInv crypto
      (Function.update secret before.self.peerStorageIndex.toNat added) after := by
  have hkept {state : ChannelState} (hafter : PeerSecretsInv crypto secret state) :
      ∃ added, PeerSecretsInv crypto
        (Function.update secret before.self.peerStorageIndex.toNat added) state :=
    ⟨secret before.self.peerStorageIndex.toNat, by rwa [Function.update_eq_self]⟩
  have htake {ev : ChannelEvent} {trace : List Effect} {done : Nat}
      (htrace : trace = (handle crypto before.self ev).trace.take done)
      (htook : Took before (handle crypto before.self ev) trace after) :
      ∃ added, PeerSecretsInv crypto
        (Function.update secret before.self.peerStorageIndex.toNat added) after := by
    have hsaved : ∀ saved, Effect.selfSave saved ∈ trace →
        saved.peerStore = (handle crypto before.self ev).self.peerStore := fun saved hmem =>
      saved_peerStore (List.mem_of_mem_take (htrace ▸ hmem))
    have hchange := handle_peerStore crypto before.self ev
    generalize handle crypto before.self ev = outcome at *
    cases hchange with
    | same hsame =>
        exact hkept (hinv.took_same htook hsame fun saved hmem => (hsaved saved hmem).trans hsame)
    | accepted hinsert hstore =>
        rename_i added storage accepted
        rcases Nat.eq_zero_or_pos done with rfl | hpos
        · subst htrace
          have hself : after.self = before.self ∧ ¬ after.running := by
            rcases htook.self with ⟨-, hnone⟩ | hstopped
            · simp at hnone
            · exact hstopped
          have hreject : Took before (.reject before.self) [] after :=
            ⟨htook.running, htook.db, htook.sent, .inr hself⟩
          exact hkept (hinv.took_same hreject rfl (by simp))
        · rw [List.take_of_length_le (Nat.succ_le_of_lt hpos)] at htrace
          exact ⟨added, hinv.took_accepted hroom hinsert hstore htrace htook⟩
  rcases channelNext_took hnext with ⟨ev, rfl, htook⟩ | ⟨ev, done, rfl, htook⟩ | ⟨dataloss, rfl⟩
  · exact htake (List.take_length).symm htook
  · exact htake rfl htook
  · obtain rfl := Option.some.inj hnext
    exact hkept ⟨hinv.db, hinv.db, fun _ => rfl, le_refl _⟩

/-- The index of the next secret never goes up. -/
theorem peerStorageIndex_step {label : ChannelLabel} (hinv : PeerSecretsInv crypto secret before)
    (hroom : SecretRoom before label) (hnext : channelNext crypto before label = some after) :
    after.self.peerStorageIndex.toNat ≤ before.self.peerStorageIndex.toNat := by
  have htook {ev : ChannelEvent} {trace : List Effect}
      (htook : Took before (handle crypto before.self ev) trace after) :
      after.self.peerStorageIndex.toNat ≤ before.self.peerStorageIndex.toNat := by
    have hchange := handle_peerStore crypto before.self ev
    generalize handle crypto before.self ev = outcome at *
    rcases htook.self with ⟨heq, -⟩ | ⟨heq, -⟩
    · rw [heq]
      cases hchange with
      | same hsame => exact (congrArg (fun store => store.index.toNat) hsame).le
      | accepted _ hstore =>
          have hindex := congrArg (fun store => store.index.toNat) hstore
          have hpred := toNat_pred hroom
          exact hindex.le.trans (Nat.le_of_succ_le hpred.le)
    · rw [heq]
  rcases channelNext_took hnext with ⟨ev, rfl, hevent⟩ | ⟨ev, done, rfl, hstop⟩ | ⟨dataloss, rfl⟩
  · exact htook hevent
  · exact htook hstop
  · obtain rfl := Option.some.inj hnext
    exact hinv.behind

/-- The secret of an index has come, and is still there. -/
structure SecretCame (crypto : Crypto) (index : UInt64) (came : Bytes) (state : ChannelState) :
    Prop where
  inv : ∃ secret, PeerSecretsInv crypto secret state ∧ secret index.toNat = came
  below : state.self.peerStorageIndex.toNat < index.toNat

theorem SecretCame.step {index : UInt64} {came : Bytes} {label : ChannelLabel}
    (hcame : SecretCame crypto index came before) (hroom : SecretRoom before label)
    (hnext : channelNext crypto before label = some after) :
    SecretCame crypto index came after := by
  obtain ⟨secret, hinv, hsecret⟩ := hcame.inv
  obtain ⟨added, hafter⟩ := peerSecretsInv_step hinv hroom hnext
  refine ⟨⟨_, hafter, ?_⟩, (peerStorageIndex_step hinv hroom hnext).trans_lt hcame.below⟩
  rw [Function.update_of_ne (Nat.ne_of_gt hcame.below)]
  exact hsecret

theorem SecretCame.readBack {index : UInt64} {came : Bytes} {state : ChannelState}
    (hcame : SecretCame crypto index came state) (hindex : index ≤ lnSecindexInit) :
    lnDerkeyStorageGetSecret crypto state.self.peerStorage index = some came := by
  obtain ⟨secret, hinv, rfl⟩ := hcame.inv
  have hinside : index.toNat < 2 ^ 48 := by
    have hinit : lnSecindexInit.toNat = 281474976710655 := rfl
    have hle := UInt64.le_iff_toNat_le.mp hindex
    omega
  exact hinv.self.keeps.get hcame.below hinside

theorem peerSecretsInv_reachable {state : ChannelState}
    (hreach : (channelSystem crypto).ReachableUnder SecretRoom state) :
    ∃ secret, PeerSecretsInv crypto secret state :=
  hreach.invariant (fun state => ∃ secret, PeerSecretsInv crypto secret state)
    (fun _ hstart => ⟨fun _ => [], peerSecretsInv_start hstart⟩)
    fun _ _ _ ⟨_, hinv⟩ hroom hnext => ⟨_, (peerSecretsInv_step hinv hroom hnext).choose_spec⟩

/-- A `revoke_and_ack` that is not refused has put its secret into the store. -/
theorem accepted_peerStore {channelId added point : Bytes} {env : RecvEnv}
    (haccepted : (handle crypto self (.recv channelId (.revokeAndAck added point) env)).ret =
      true) :
    ∃ storage accepted,
      handle crypto self (.recv channelId (.revokeAndAck added point) env) =
        ⟨true, accepted, [.selfSave accepted]⟩ ∧
      lnDerkeyStorageInsertSecret crypto self.peerStorage added self.peerStorageIndex =
        some storage ∧
      accepted.peerStore = ⟨storage, self.peerStorageIndex - 1⟩ := by
  simp only [handle, lnRecv, recvFunc, recvRevokeAndAck, storePeerPercommitSecret] at haccepted ⊢
  split_ifs at haccepted ⊢
  · cases haccepted
  · cases haccepted
  · cases hinsert : lnDerkeyStorageInsertSecret crypto self.peerStorage added
      self.peerStorageIndex with
    | none =>
        simp only [hinsert, Option.map_none] at haccepted
        cases haccepted
    | some storage => exact ⟨storage, _, rfl, rfl, rfl⟩
  · cases haccepted

/-- A secret that `recv_revoke_and_ack` has accepted is read back at its index in every later
state, whatever the peer and the application do and wherever the process stops. -/
theorem acceptedSecret_readBack {state : ChannelState} {channelId came point : Bytes}
    {env : RecvEnv} (hreach : (channelSystem crypto).ReachableUnder SecretRoom before)
    (hroom : 0 < before.self.peerStorageIndex)
    (hnext : (channelSystem crypto).next before
      (.event (.recv channelId (.revokeAndAck came point) env)) = some after)
    (haccepted : (handle crypto before.self
      (.recv channelId (.revokeAndAck came point) env)).ret = true)
    (hrun : (channelSystem crypto).RunUnder SecretRoom after state) :
    lnDerkeyStorageGetSecret crypto state.self.peerStorage before.self.peerStorageIndex =
      some came := by
  obtain ⟨secret, hinv⟩ := peerSecretsInv_reachable hreach
  obtain ⟨storage, accepted, houtcome, hinsert, hstore⟩ := accepted_peerStore haccepted
  have hinside : before.self.peerStorageIndex ≤ lnSecindexInit := by
    have hinit : lnSecindexInit.toNat = 281474976710655 := rfl
    have hlt : before.self.peerStorageIndex.toNat < 2 ^ 48 := hinv.self.inside
    rw [UInt64.le_iff_toNat_le]
    omega
  have hstep : channelNext crypto before
      (.event (.recv channelId (.revokeAndAck came point) env)) = some after := hnext
  have hfirst : SecretCame crypto before.self.peerStorageIndex came after := by
    rcases channelNext_took hstep with ⟨ev, hev, htook⟩ | ⟨_, _, hev, -⟩ | ⟨_, hev⟩
    · obtain rfl := ChannelLabel.event.inj hev
      rw [houtcome] at htook
      have hafter := hinv.took_accepted hroom hinsert hstore rfl htook
      refine ⟨⟨_, hafter, Function.update_self ..⟩, ?_⟩
      have hself : after.self = accepted := by
        simp only [channelNext, houtcome] at hstep
        split_ifs at hstep
        obtain rfl := Option.some.inj hstep
        rfl
      have hindex : after.self.peerStorageIndex = before.self.peerStorageIndex - 1 := by
        rw [hself]
        exact congrArg PeerStore.index hstore
      have hpred := toNat_pred hroom
      rw [hindex]
      omega
    · cases hev
    · cases hev
  have hlast : SecretCame crypto before.self.peerStorageIndex came state :=
    hrun.preserves (SecretCame crypto before.self.peerStorageIndex came)
      (fun _ _ _ hcame hlabel hstep => hcame.step hlabel hstep) hfirst
  exact hlast.readBack hinside

/-- An HTLC is offered and a commitment signed for it. -/
def signedOfferScript : List (ChannelState → ChannelLabel) :=
  [ fun _ => .event (.addHtlc
      { packet := []
        amountMsat := 500000
        cltvValue := 100
        paymentHash := [9] }),
    fun _ => .event .idle,
    fun _ => .event .idle ]

instance (before : ChannelState) (label : ChannelLabel) : Decidable (SecretRoom before label) :=
  inferInstanceAs (Decidable (_ < _))

/-- The peer revokes the first commitment, and then the process starts again. -/
theorem acceptedSecret_readBack_restarted :
    ∃ before state : ChannelState, before.self.commitRemote.commitNum = 1 ∧ state.reestablishing ∧
      lnDerkeyStorageGetSecret .symbolic state.self.peerStorage before.self.peerStorageIndex =
        some [2, 6] := by
  let revoke : ChannelEvent := .recv symbolicOutpoint.txid (.revokeAndAck [2, 6] [2, 7]) {}
  have hcheck : symbolicCheck 1000000 500000000
      (fun before label => decide (SecretRoom before label)) signedOfferScript
      (fun state _ =>
        state.self.commitRemote.commitNum == 1 && decide (0 < state.self.peerStorageIndex) &&
          (handle .symbolic state.self revoke).ret &&
          (channelNext .symbolic state (.event revoke)).any fun after =>
            decide (0 < after.self.peerStorageIndex)) = true := by
    decide +kernel
  have hrooms : ∀ choose ∈ signedOfferScript, ∀ before : ChannelState,
      decide (SecretRoom before (choose before)) = true → SecretRoom before (choose before) :=
    fun _ _ _ hdecide => of_decide_eq_true hdecide
  obtain ⟨_, before, _, _, hhistory, _, hchecked⟩ := history_of_symbolicCheck hrooms hcheck
  simp only [Bool.and_eq_true, beq_iff_eq, decide_eq_true_eq] at hchecked
  obtain ⟨⟨⟨hone, hroom⟩, haccepted⟩, hafter⟩ := hchecked
  obtain ⟨after, hnext, hleft⟩ := (Option.any_eq_true _ _).mp hafter
  obtain ⟨state, hstate⟩ : ∃ state,
      (channelSystem .symbolic).next after (.restart false) = some state := ⟨_, rfl⟩
  have hrestarted : state.reestablishing = true := by
    obtain rfl := Option.some.inj hstate
    rfl
  exact ⟨before, state, hone, hrestarted, acceptedSecret_readBack hhistory.reachableUnder hroom
    hnext haccepted (.single (of_decide_eq_true hleft) hstate)⟩

end Ptarmigan
