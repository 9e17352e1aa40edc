/-
The wire format of the establishment: `open_channel`, `accept_channel`, `funding_created`,
`funding_signed`, `funding_locked` and `channel_reestablish`.
-/
import Ptarmigan.WireMsg
import Ptarmigan.Establish

namespace Ptarmigan

open WireReader

variable {env : WireEnv}

/-! ### Keys -/

/-- The keys in the order of `MSG_FUNDIDX_*`. -/
def Fundkeys.toList (keys : Fundkeys) : List Bytes :=
  [keys.funding, keys.revocation, keys.payment, keys.delayed, keys.htlc, keys.perCommit]

def Fundkeys.ofList : List Bytes → Fundkeys
  | [funding, revocation, payment, delayed, htlc, perCommit] =>
      { funding, revocation, payment, delayed, htlc, perCommit }
  | _ => {}

@[simp] theorem Fundkeys.ofList_toList (keys : Fundkeys) : Fundkeys.ofList keys.toList = keys := rfl

@[simp] theorem Fundkeys.length_toList (keys : Fundkeys) : keys.toList.length = 6 := rfl

/-- `BTC_SZ_PUBKEY`, for every key. -/
def Fundkeys.Sized (keys : Fundkeys) : Prop :=
  ∀ key ∈ keys.toList, key.length = 33

/-- The loop over the keys: each one that passes is copied over the old one, the first that does
not is refused. -/
def readPubkeys {ε : Type} (env : WireEnv) (left : Fundkeys → ε) (read : List Bytes) :
    List Bytes → WireReader ε Fundkeys
  | [] => pure (.ofList read)
  | old :: olds => do
      let key ← bytes 33
      refuseIf (!env.chkpub key) (left (.ofList (read ++ old :: olds)))
      readPubkeys env left (read ++ [key]) olds

theorem readPubkeys_reads {ε : Type} {left : Fundkeys → ε} {pos : Nat} {rest : Bytes}
    {keys : List Bytes} (hall : keys.all env.chkpub = true)
    (hsized : ∀ key ∈ keys, key.length = 33) {olds : List Bytes}
    (hlength : olds.length = keys.length) (read : List Bytes) :
    Reads pos rest (readPubkeys env left read olds) keys.flatten (.ofList (read ++ keys)) := by
  induction keys generalizing pos olds read with
  | nil =>
      obtain rfl := List.length_eq_zero_iff.mp hlength
      rw [List.append_nil]
      exact Reads.pure _
  | cons key keys ih =>
      cases olds with
      | nil => cases hlength
      | cons old olds =>
          rw [List.all_cons, Bool.and_eq_true] at hall
          have hkey : key.length = 33 := hsized key List.mem_cons_self
          have hpasses : (!env.chkpub key) = false := by rw [hall.1, Bool.not_true]
          apply Reads.bind (Reads.bytes hkey)
          apply Reads.next (Reads.refuseIf hpasses)
          have hrest := @ih (pos + key.length) hall.2
            (fun key hmem => hsized key (List.mem_cons_of_mem _ hmem)) olds
            (Nat.succ.inj hlength) (read ++ [key])
          rwa [List.append_assoc, List.singleton_append] at hrest

theorem readFundkeys_reads {ε : Type} {left : Fundkeys → ε} {pos : Nat} {rest : Bytes}
    {keys : Fundkeys} (hall : keys.toList.all env.chkpub = true) (hsized : keys.Sized)
    (old : Fundkeys) :
    Reads pos rest (readPubkeys env left [] old.toList) keys.toList.flatten keys := by
  have hlength : old.toList.length = keys.toList.length := rfl
  exact readPubkeys_reads hall hsized hlength []

theorem wp_readPubkeys {ε : Type} {left : Fundkeys → ε} {data : Bytes} {pos : Nat}
    {post : Fundkeys → Nat → Prop} {olds : List Bytes}
    (hfits : pos + 33 * olds.length ≤ data.length)
    (hpost : ∀ keys, post keys (pos + 33 * olds.length)) (read : List Bytes) :
    wp (readPubkeys env left read olds) data pos post := by
  induction olds generalizing pos read with
  | nil =>
      apply (wp_pure _).mpr
      exact hpost _
  | cons old olds ih =>
      rw [List.length_cons, Nat.mul_succ] at hfits
      have hnext : ∀ keys, post keys (pos + 33 + 33 * olds.length) := by
        intro keys
        have hkeys := hpost keys
        rw [List.length_cons, Nat.mul_succ] at hkeys
        rwa [Nat.add_assoc, Nat.add_comm 33]
      simp only [readPubkeys, wp_bind, wp_bytes, wp_refuseIf]
      refine ⟨by omega, fun _ => ?_⟩
      exact ih (by omega) hnext _

/-- `shutdown_len` and the script behind it: logged, not kept. -/
def skipUpfrontShutdown {ε : Type} : WireReader ε Unit := do
  let rest ← remaining
  let shutdownLen ← readIf (rest ≥ 2) readBe16 0
  let rest ← remaining
  readIf (rest ≥ shutdownLen.toNat) (skip shutdownLen.toNat) ()

theorem skipUpfrontShutdown_reads {ε : Type} {pos : Nat} :
    Reads pos [] (skipUpfrontShutdown : WireReader ε _) [] () := by
  apply Reads.next Reads.remaining
  apply Reads.next (Reads.readIf_not rfl)
  apply Reads.next Reads.remaining
  exact Reads.readIf rfl (Reads.skip rfl)

theorem wp_skipUpfrontShutdown {ε : Type} {data : Bytes} {pos : Nat} {post : Unit → Nat → Prop}
    (hinside : pos ≤ data.length) (hpost : ∀ pos' ≤ data.length, pos ≤ pos' → post () pos') :
    wp (skipUpfrontShutdown : WireReader ε _) data pos post := by
  have hscript : ∀ (shutdownLen : UInt16) (pos' : Nat), pos' ≤ data.length → pos ≤ pos' →
      wp (readIf (data.length - pos' ≥ shutdownLen.toNat) (skip shutdownLen.toNat) ()
        : WireReader ε Unit) data pos' post := by
    intro shutdownLen pos' hinside' hbehind
    simp only [wp_readIf, wp_skip, decide_eq_true_eq]
    refine ⟨fun hfits => ?_, fun _ => hpost pos' hinside' hbehind⟩
    apply hpost
    · omega
    · omega
  simp only [skipUpfrontShutdown, wp_bind, wp_remaining, wp_readIf, wp_readBe16, decide_eq_true_eq]
  refine ⟨hinside, fun hlen => ?_, fun _ => ⟨hinside, ?_⟩⟩
  · have hbehind : pos + 2 ≤ data.length := by omega
    exact ⟨hbehind, hbehind, by simpa using hscript _ _ hbehind (by omega)⟩
  · simpa using hscript 0 pos hinside le_rfl

/-! ### `open_channel` -/

/-- `ln_open_channel_t` with its temporary channel id and its flags. -/
structure OpenChannelMsg where
  tempChannelId : Bytes
  body : LnOpenChannel
  channelFlags : UInt8
deriving DecidableEq, Repr

/-- `ln_msg_open_channel_create`; here and below `none` is a message that was not made. -/
def lnMsgOpenChannelCreate (env : WireEnv) (msg : OpenChannelMsg) : Option Bytes :=
  if openChannelInRange msg.body.fundingSat msg.body.pushMsat msg.body.maxAcceptedHtlcs &&
      msg.body.pubkeys.toList.all env.chkpub then
    utlPush (2 + 319)
      [ lnMiscPush16be MsgType.openChannel.code, env.genesisChainHash, msg.tempChannelId
      , lnMiscPush64be msg.body.fundingSat, lnMiscPush64be msg.body.pushMsat
      , lnMiscPush64be msg.body.dustLimitSat, lnMiscPush64be msg.body.maxHtlcValueInFlightMsat
      , lnMiscPush64be msg.body.channelReserveSat, lnMiscPush64be msg.body.htlcMinimumMsat
      , lnMiscPush32be msg.body.feeratePerKw, lnMiscPush16be msg.body.toSelfDelay
      , lnMiscPush16be msg.body.maxAcceptedHtlcs, msg.body.pubkeys.toList.flatten
      , [msg.channelFlags] ]
  else none

/-- `ln_msg_open_channel_read`: what was read before a check failed stays written. -/
def lnMsgOpenChannelRead (env : WireEnv) (old : OpenChannelMsg) :
    WireReader OpenChannelMsg OpenChannelMsg := do
  readType .openChannel (2 + 319) old
  let chainHash ← bytes 32
  refuseIf (chainHash != env.genesisChainHash) old
  let tempChannelId ← bytes 32
  let fundingSat ← readBe64
  refuseIf (fundingSat ≥ 16777216)
    { old with tempChannelId, body := { old.body with fundingSat } }
  let pushMsat ← readBe64
  refuseIf (fundingSat * 1000 < pushMsat)
    { old with tempChannelId, body := { old.body with fundingSat, pushMsat } }
  let dustLimitSat ← readBe64
  let maxHtlcValueInFlightMsat ← readBe64
  let channelReserveSat ← readBe64
  let htlcMinimumMsat ← readBe64
  let feeratePerKw ← readBe32
  let toSelfDelay ← readBe16
  let maxAcceptedHtlcs ← readBe16
  refuseIf (maxAcceptedHtlcs > 483)
    { old with
      tempChannelId
      body := { old.body with
        fundingSat, pushMsat, dustLimitSat, maxHtlcValueInFlightMsat, channelReserveSat
        htlcMinimumMsat, feeratePerKw, toSelfDelay, maxAcceptedHtlcs } }
  let pubkeys ← readPubkeys env
    (fun pubkeys => { old with
      tempChannelId
      body := { fundingSat, pushMsat, dustLimitSat, maxHtlcValueInFlightMsat, channelReserveSat
                htlcMinimumMsat, feeratePerKw, toSelfDelay, maxAcceptedHtlcs, pubkeys } })
    [] old.body.pubkeys.toList
  let channelFlags ← readByte
  refuseIf (channelFlags &&& ~~~1 != 0)
    { tempChannelId, channelFlags
      body := { fundingSat, pushMsat, dustLimitSat, maxHtlcValueInFlightMsat, channelReserveSat
                htlcMinimumMsat, feeratePerKw, toSelfDelay, maxAcceptedHtlcs, pubkeys } }
  skipUpfrontShutdown
  assertInside
  pure
    { tempChannelId, channelFlags
      body := { fundingSat, pushMsat, dustLimitSat, maxHtlcValueInFlightMsat, channelReserveSat
                htlcMinimumMsat, feeratePerKw, toSelfDelay, maxAcceptedHtlcs, pubkeys } }

/-- `LN_SZ_CHANNEL_ID`, `BTC_SZ_PUBKEY` and the size of a block hash. -/
structure OpenChannelMsg.Sized (env : WireEnv) (msg : OpenChannelMsg) : Prop where
  genesis : env.genesisChainHash.length = 32
  tempChannelId : msg.tempChannelId.length = 32
  pubkeys : msg.body.pubkeys.Sized

theorem Fundkeys.Sized.length_flatten {keys : Fundkeys} (hsized : keys.Sized) :
    keys.toList.flatten.length = 198 := by
  have hlengths : keys.toList.map List.length = List.replicate 6 33 := by
    rw [List.map_congr_left hsized]
    rfl
  rw [List.length_flatten, hlengths]
  rfl

theorem lnMsgOpenChannelRead_wp (old : OpenChannelMsg) (data : Bytes) :
    wp (lnMsgOpenChannelRead env old) data 0 (ReadWhole .openChannel data) := by
  simp only [lnMsgOpenChannelRead, wp_bind]
  apply (wp_readType (by omega)).mpr
  intro hlong _
  simp only [wp_bytes, wp_readBe16, wp_readBe32, wp_readBe64, wp_refuseIf]
  refine ⟨by omega, fun _ => ⟨by omega, by omega, fun _ => ⟨by omega, fun _ => ⟨by omega, by omega,
    by omega, by omega, by omega, by omega, by omega, fun _ => ?_⟩⟩⟩⟩
  apply wp_readPubkeys
  · rw [Fundkeys.length_toList]
    omega
  · intro _
    simp only [wp_readByte, Fundkeys.length_toList]
    refine ⟨by omega, fun _ => ?_⟩
    apply wp_skipUpfrontShutdown
    · omega
    · intro pos hinside hbehind
      refine (wp_assertInside _).mpr ⟨hinside, ?_, hinside⟩
      simp only [declaredLength]
      omega

/-- An `open_channel` that this code creates is read as it was. -/
theorem lnMsgOpenChannel_roundTrips {msg : OpenChannelMsg} (hsized : msg.Sized env)
    (hflags : msg.channelFlags &&& ~~~1 = 0)
    (hrange : openChannelInRange msg.body.fundingSat msg.body.pushMsat msg.body.maxAcceptedHtlcs =
      true)
    (hall : msg.body.pubkeys.toList.all env.chkpub = true) (old : OpenChannelMsg) :
    RoundTrips (lnMsgOpenChannelCreate env msg) (lnMsgOpenChannelRead env old) msg := by
  have hkeys := hsized.pubkeys.length_flatten
  rw [lnMsgOpenChannelCreate, hrange, hall, Bool.and_self, if_pos rfl]
  simp only [openChannelInRange, Bool.and_eq_true, decide_eq_true_eq] at hrange
  obtain ⟨⟨hfunding, hpush⟩, haccepted⟩ := hrange
  apply roundTrips_utlPush
  · simp [hsized.genesis, hsized.tempChannelId, hkeys]
  · intro _
    simp only [List.flatten_cons, List.flatten_nil]
    apply Reads.bind (readType_reads (by simp [hsized.genesis, hsized.tempChannelId, hkeys]))
    apply Reads.bind (Reads.bytes hsized.genesis)
    apply Reads.next (Reads.refuseIf (bne_self_eq_false _))
    apply Reads.bind (Reads.bytes hsized.tempChannelId)
    apply Reads.bind (readBe64_reads _)
    apply Reads.next (Reads.refuseIf (by simpa using hfunding))
    apply Reads.bind (readBe64_reads _)
    apply Reads.next (Reads.refuseIf (by simpa using hpush))
    apply Reads.bind (readBe64_reads _)
    apply Reads.bind (readBe64_reads _)
    apply Reads.bind (readBe64_reads _)
    apply Reads.bind (readBe64_reads _)
    apply Reads.bind (readBe32_reads _)
    apply Reads.bind (readBe16_reads _)
    apply Reads.bind (readBe16_reads _)
    apply Reads.next (Reads.refuseIf (by simpa using haccepted))
    apply Reads.bind (readFundkeys_reads hall hsized.pubkeys old.body.pubkeys)
    apply Reads.bind (readByte_reads _)
    apply Reads.next (Reads.refuseIf (by simpa using hflags))
    apply Reads.next skipUpfrontShutdown_reads
    apply Reads.next Reads.assertInside
    exact Reads.pure msg

/-! ### `accept_channel` -/

/-- `ln_accept_channel_t` with its temporary channel id and its `min_depth`. -/
structure AcceptChannelMsg where
  tempChannelId : Bytes
  minDepth : UInt32
  body : LnAcceptChannel
deriving DecidableEq, Repr

/-- `ln_msg_accept_channel_create`. -/
def lnMsgAcceptChannelCreate (env : WireEnv) (msg : AcceptChannelMsg) : Option Bytes :=
  if msg.body.pubkeys.toList.all env.chkpub then
    utlPush (2 + 270)
      [ lnMiscPush16be MsgType.acceptChannel.code, msg.tempChannelId
      , lnMiscPush64be msg.body.dustLimitSat, lnMiscPush64be msg.body.maxHtlcValueInFlightMsat
      , lnMiscPush64be msg.body.channelReserveSat, lnMiscPush64be msg.body.htlcMinimumMsat
      , lnMiscPush32be msg.minDepth, lnMiscPush16be msg.body.toSelfDelay
      , lnMiscPush16be msg.body.maxAcceptedHtlcs, msg.body.pubkeys.toList.flatten ]
  else none

/-- `ln_msg_accept_channel_read`: what was read before a key failed stays written. -/
def lnMsgAcceptChannelRead (env : WireEnv) (old : AcceptChannelMsg) :
    WireReader AcceptChannelMsg AcceptChannelMsg := do
  readType .acceptChannel (2 + 270) old
  let tempChannelId ← bytes 32
  let dustLimitSat ← readBe64
  let maxHtlcValueInFlightMsat ← readBe64
  let channelReserveSat ← readBe64
  let htlcMinimumMsat ← readBe64
  let minDepth ← readBe32
  let toSelfDelay ← readBe16
  let maxAcceptedHtlcs ← readBe16
  let pubkeys ← readPubkeys env
    (fun pubkeys =>
      { tempChannelId, minDepth
        body := { dustLimitSat, maxHtlcValueInFlightMsat, channelReserveSat, htlcMinimumMsat
                  toSelfDelay, maxAcceptedHtlcs, pubkeys } })
    [] old.body.pubkeys.toList
  skipUpfrontShutdown
  assertInside
  pure
    { tempChannelId, minDepth
      body := { dustLimitSat, maxHtlcValueInFlightMsat, channelReserveSat, htlcMinimumMsat
                toSelfDelay, maxAcceptedHtlcs, pubkeys } }

structure AcceptChannelMsg.Sized (msg : AcceptChannelMsg) : Prop where
  tempChannelId : msg.tempChannelId.length = 32
  pubkeys : msg.body.pubkeys.Sized

theorem lnMsgAcceptChannelRead_wp (old : AcceptChannelMsg) (data : Bytes) :
    wp (lnMsgAcceptChannelRead env old) data 0 (ReadWhole .acceptChannel data) := by
  simp only [lnMsgAcceptChannelRead, wp_bind]
  apply (wp_readType (by omega)).mpr
  intro hlong _
  simp only [wp_bytes, wp_readBe16, wp_readBe32, wp_readBe64]
  refine ⟨by omega, by omega, by omega, by omega, by omega, by omega, by omega, by omega, ?_⟩
  apply wp_readPubkeys
  · rw [Fundkeys.length_toList]
    omega
  · intro _
    simp only [Fundkeys.length_toList]
    apply wp_skipUpfrontShutdown
    · omega
    · intro pos hinside hbehind
      refine (wp_assertInside _).mpr ⟨hinside, ?_, hinside⟩
      simp only [declaredLength]
      omega

/-- An `accept_channel` that this code creates is read as it was. -/
theorem lnMsgAcceptChannel_roundTrips {msg : AcceptChannelMsg} (hsized : msg.Sized)
    (hall : msg.body.pubkeys.toList.all env.chkpub = true) (old : AcceptChannelMsg) :
    RoundTrips (lnMsgAcceptChannelCreate env msg) (lnMsgAcceptChannelRead env old) msg := by
  have hkeys := hsized.pubkeys.length_flatten
  rw [lnMsgAcceptChannelCreate, if_pos hall]
  apply roundTrips_utlPush
  · simp [hsized.tempChannelId, hkeys]
  · intro _
    simp only [List.flatten_cons, List.flatten_nil]
    apply Reads.bind (readType_reads (by simp [hsized.tempChannelId, hkeys]))
    apply Reads.bind (Reads.bytes hsized.tempChannelId)
    apply Reads.bind (readBe64_reads _)
    apply Reads.bind (readBe64_reads _)
    apply Reads.bind (readBe64_reads _)
    apply Reads.bind (readBe64_reads _)
    apply Reads.bind (readBe32_reads _)
    apply Reads.bind (readBe16_reads _)
    apply Reads.bind (readBe16_reads _)
    apply Reads.bind (readFundkeys_reads hall hsized.pubkeys old.body.pubkeys)
    apply Reads.next skipUpfrontShutdown_reads
    apply Reads.next Reads.assertInside
    exact Reads.pure msg

/-! ### `funding_created`, `funding_signed` and `funding_locked` -/

/-- `ln_funding_created_t`. -/
structure FundingCreatedMsg where
  tempChannelId : Bytes
  outpoint : FundingOutpoint
  signature : Bytes
deriving DecidableEq, Repr

/-- `ln_msg_funding_created_create`. -/
def lnMsgFundingCreatedCreate (msg : FundingCreatedMsg) : Option Bytes :=
  utlPush (2 + 130)
    [ lnMiscPush16be MsgType.fundingCreated.code, msg.tempChannelId, msg.outpoint.txid
    , lnMiscPush16be msg.outpoint.txindex, msg.signature ]

/-- `ln_msg_funding_created_read`. -/
def lnMsgFundingCreatedRead : WireReader Unit FundingCreatedMsg := do
  readType .fundingCreated (2 + 130) ()
  let tempChannelId ← bytes 32
  let txid ← bytes 32
  let txindex ← readBe16
  let signature ← bytes 64
  assertInside
  pure { tempChannelId, outpoint := ⟨txid, txindex⟩, signature }

structure FundingCreatedMsg.Sized (msg : FundingCreatedMsg) : Prop where
  tempChannelId : msg.tempChannelId.length = 32
  txid : msg.outpoint.txid.length = 32
  signature : msg.signature.length = 64

theorem lnMsgFundingCreatedRead_wp (data : Bytes) :
    wp lnMsgFundingCreatedRead data 0 (ReadWhole .fundingCreated data) := by
  simp only [lnMsgFundingCreatedRead, wp_bind]
  apply (wp_readType (by omega)).mpr
  intro hlong _
  simp only [wp_bytes, wp_readBe16, wp_assertInside, wp_pure, ReadWhole, declaredLength,
    Nat.reduceAdd]
  omega

theorem lnMsgFundingCreated_roundTrips {msg : FundingCreatedMsg} (hsized : msg.Sized) :
    RoundTrips (lnMsgFundingCreatedCreate msg) lnMsgFundingCreatedRead msg := by
  apply roundTrips_utlPush
  · simp [hsized.tempChannelId, hsized.txid, hsized.signature]
  · intro _
    simp only [List.flatten_cons, List.flatten_nil]
    apply Reads.bind (readType_reads (by simp [hsized.tempChannelId, hsized.txid,
      hsized.signature]))
    apply Reads.bind (Reads.bytes hsized.tempChannelId)
    apply Reads.bind (Reads.bytes hsized.txid)
    apply Reads.bind (readBe16_reads _)
    apply Reads.bind (Reads.bytes hsized.signature)
    apply Reads.next Reads.assertInside
    exact Reads.pure msg

/-- `ln_funding_signed_t`. -/
structure FundingSignedMsg where
  channelId : Bytes
  signature : Bytes
deriving DecidableEq, Repr

/-- `ln_msg_funding_signed_create`. -/
def lnMsgFundingSignedCreate (msg : FundingSignedMsg) : Option Bytes :=
  utlPush (2 + 96)
    [lnMiscPush16be MsgType.fundingSigned.code, msg.channelId, msg.signature]

/-- `ln_msg_funding_signed_read`. -/
def lnMsgFundingSignedRead : WireReader Unit FundingSignedMsg := do
  readType .fundingSigned (2 + 96) ()
  let channelId ← bytes 32
  let signature ← bytes 64
  assertInside
  pure { channelId, signature }

structure FundingSignedMsg.Sized (msg : FundingSignedMsg) : Prop where
  channelId : msg.channelId.length = 32
  signature : msg.signature.length = 64

theorem lnMsgFundingSignedRead_wp (data : Bytes) :
    wp lnMsgFundingSignedRead data 0 (ReadWhole .fundingSigned data) := by
  simp only [lnMsgFundingSignedRead, wp_bind]
  apply (wp_readType (by omega)).mpr
  intro hlong _
  simp only [wp_bytes, wp_assertInside, wp_pure, ReadWhole, declaredLength, Nat.reduceAdd]
  omega

theorem lnMsgFundingSigned_roundTrips {msg : FundingSignedMsg} (hsized : msg.Sized) :
    RoundTrips (lnMsgFundingSignedCreate msg) lnMsgFundingSignedRead msg := by
  apply roundTrips_utlPush
  · simp [hsized.channelId, hsized.signature]
  · intro _
    simp only [List.flatten_cons, List.flatten_nil]
    apply Reads.bind (readType_reads (by simp [hsized.channelId, hsized.signature]))
    apply Reads.bind (Reads.bytes hsized.channelId)
    apply Reads.bind (Reads.bytes hsized.signature)
    apply Reads.next Reads.assertInside
    exact Reads.pure msg

/-- `ln_funding_locked_t`. -/
structure FundingLockedMsg where
  channelId : Bytes
  perCommitpt : Bytes
deriving DecidableEq, Repr

/-- `ln_msg_funding_locked_create`. -/
def lnMsgFundingLockedCreate (msg : FundingLockedMsg) : Option Bytes :=
  utlPush (2 + 65)
    [lnMiscPush16be MsgType.fundingLocked.code, msg.channelId, msg.perCommitpt]

/-- `ln_msg_funding_locked_read`. -/
def lnMsgFundingLockedRead : WireReader Unit FundingLockedMsg := do
  readType .fundingLocked (2 + 65) ()
  let channelId ← bytes 32
  let perCommitpt ← bytes 33
  assertInside
  pure { channelId, perCommitpt }

structure FundingLockedMsg.Sized (msg : FundingLockedMsg) : Prop where
  channelId : msg.channelId.length = 32
  perCommitpt : msg.perCommitpt.length = 33

theorem lnMsgFundingLockedRead_wp (data : Bytes) :
    wp lnMsgFundingLockedRead data 0 (ReadWhole .fundingLocked data) := by
  simp only [lnMsgFundingLockedRead, wp_bind]
  apply (wp_readType (by omega)).mpr
  intro hlong _
  simp only [wp_bytes, wp_assertInside, wp_pure, ReadWhole, declaredLength, Nat.reduceAdd]
  omega

theorem lnMsgFundingLocked_roundTrips {msg : FundingLockedMsg} (hsized : msg.Sized) :
    RoundTrips (lnMsgFundingLockedCreate msg) lnMsgFundingLockedRead msg := by
  apply roundTrips_utlPush
  · simp [hsized.channelId, hsized.perCommitpt]
  · intro _
    simp only [List.flatten_cons, List.flatten_nil]
    apply Reads.bind (readType_reads (by simp [hsized.channelId, hsized.perCommitpt]))
    apply Reads.bind (Reads.bytes hsized.channelId)
    apply Reads.bind (Reads.bytes hsized.perCommitpt)
    apply Reads.next Reads.assertInside
    exact Reads.pure msg

/-! ### `channel_reestablish` -/

/-- `ln_channel_reestablish_t` with its channel id. -/
structure ReestablishMsg where
  channelId : Bytes
  body : LnChannelReestablish
deriving DecidableEq, Repr

/-- What `option_data_loss_protect` adds. -/
def dataLossFields (fields : Option (Bytes × Bytes)) : List Bytes :=
  match fields with
  | none => []
  | some (secret, point) => [secret, point]

/-- `ln_msg_channel_reestablish_create`. -/
def lnMsgChannelReestablishCreate (msg : ReestablishMsg) : Option Bytes :=
  utlPush (2 + 48 + if msg.body.optionDataLossProtect.isSome then 65 else 0)
    ([ lnMiscPush16be MsgType.channelReestablish.code, msg.channelId
     , lnMiscPush64be msg.body.nextLocalCommitmentNumber
     , lnMiscPush64be msg.body.nextRemoteRevocationNumber ] ++
      dataLossFields msg.body.optionDataLossProtect)

/-- The optional tail; the length checks of both fields are those of the whole tail again. -/
def readDataLoss : WireReader Unit (Option (Bytes × Bytes)) := do
  let secret ← bytes 32
  let point ← bytes 33
  pure (some (secret, point))

/-- `ln_msg_channel_reestablish_read`. -/
def lnMsgChannelReestablishRead : WireReader Unit ReestablishMsg := do
  let len ← messageLength
  readType .channelReestablish (2 + 48) ()
  let channelId ← bytes 32
  let nextLocalCommitmentNumber ← readBe64
  let nextRemoteRevocationNumber ← readBe64
  let optionDataLossProtect ← readIf (len ≥ 2 + 113) readDataLoss none
  assertInside
  pure
    { channelId
      body := { nextLocalCommitmentNumber, nextRemoteRevocationNumber, optionDataLossProtect } }

structure ReestablishMsg.Sized (msg : ReestablishMsg) : Prop where
  channelId : msg.channelId.length = 32
  dataLoss : ∀ secret point, msg.body.optionDataLossProtect = some (secret, point) →
    secret.length = 32 ∧ point.length = 33

theorem lnMsgChannelReestablishRead_wp (data : Bytes) :
    wp lnMsgChannelReestablishRead data 0 (ReadWhole .channelReestablish data) := by
  simp only [lnMsgChannelReestablishRead, wp_bind, wp_messageLength]
  apply (wp_readType (by omega)).mpr
  intro hlong _
  simp only [readDataLoss, wp_bind, wp_bytes, wp_readBe64, wp_readIf, wp_assertInside, wp_pure,
    decide_eq_true_eq, decide_eq_false_iff_not, ReadWhole, declaredLength, Nat.reduceAdd]
  omega

theorem lnMsgChannelReestablish_roundTrips {msg : ReestablishMsg} (hsized : msg.Sized) :
    RoundTrips (lnMsgChannelReestablishCreate msg) lnMsgChannelReestablishRead msg := by
  obtain ⟨channelId, nextLocal, nextRemote, dataLoss⟩ := msg
  have hchannel : channelId.length = 32 := hsized.channelId
  cases dataLoss with
  | none =>
      apply roundTrips_utlPush
      · simp [dataLossFields, hchannel]
      · intro _
        simp only [dataLossFields, List.cons_append, List.nil_append, List.flatten_cons,
          List.flatten_nil]
        apply Reads.next Reads.messageLength
        apply Reads.bind (readType_reads (by simp [hchannel]))
        apply Reads.bind (Reads.bytes hchannel)
        apply Reads.bind (readBe64_reads _)
        apply Reads.bind (readBe64_reads _)
        apply Reads.next (Reads.readIf_not (by simp [hchannel]))
        apply Reads.next Reads.assertInside
        exact Reads.pure _
  | some fields =>
      obtain ⟨secret, point⟩ := fields
      obtain ⟨hsecret, hpoint⟩ := hsized.dataLoss secret point rfl
      apply roundTrips_utlPush
      · simp [dataLossFields, hchannel, hsecret, hpoint]
      · intro _
        simp only [dataLossFields, List.cons_append, List.nil_append, List.flatten_cons,
          List.flatten_nil]
        apply Reads.next Reads.messageLength
        apply Reads.bind (readType_reads (by simp [hchannel, hsecret, hpoint]))
        apply Reads.bind (Reads.bytes hchannel)
        apply Reads.bind (readBe64_reads _)
        apply Reads.bind (readBe64_reads _)
        rw [← List.append_nil (secret ++ (point ++ []))]
        apply Reads.bind (Reads.readIf (by simp [hchannel, hsecret, hpoint]) ?_)
        · apply Reads.next Reads.assertInside
          exact Reads.pure _
        · apply Reads.bind (Reads.bytes hsecret)
          apply Reads.bind (Reads.bytes hpoint)
          exact Reads.pure _

end Ptarmigan
