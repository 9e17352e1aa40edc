/-
What `ln_recv` does with a byte string: it looks the type up in `RECV_FUNC`, and the handler that
stands there reads the message unless the state of the channel turns it away.
-/
import Ptarmigan.Funding
import Ptarmigan.SetupMsg
import Ptarmigan.OperationMsg
import Ptarmigan.AnnounceMsg

namespace Ptarmigan

open WireReader

/-- `RECV_FUNC`. -/
def recvFuncTypes : List MsgType :=
  [ .init, .error, .ping, .pong, .openChannel, .acceptChannel, .fundingCreated, .fundingSigned
  , .fundingLocked, .shutdown, .closingSigned, .updateAddHtlc, .updateFulfillHtlc, .updateFailHtlc
  , .commitmentSigned, .revokeAndAck, .updateFee, .updateFailMalformedHtlc, .channelReestablish
  , .channelAnnouncement, .nodeAnnouncement, .channelUpdate, .announcementSignatures ]

theorem recvFuncTypes_find (type : MsgType) :
    recvFuncTypes.find? (fun known => known.code == type.code) = some type := by
  cases type <;> rfl

theorem MsgType.code_injective {type type' : MsgType} (hcode : type.code = type'.code) :
    type = type' := by
  have hfind := recvFuncTypes_find type
  rw [hcode, recvFuncTypes_find] at hfind
  exact (Option.some.inj hfind).symm

/-- A channel as the handlers find it, with the flags of `fund_flag` that are not in it. -/
structure Connection where
  chan : Establishing
  annoCh : Bool
  opened : Bool

namespace Connection

variable (env : WireEnv) (crypto : Crypto) (conn : Connection)

/-- What a handler looks at before it reads the message. -/
def reads : MsgType → Bool
  | .init => !conn.chan.self.initFlag.recv
  | .openChannel =>
      !conn.chan.self.isFunder && !conn.chan.funding && conn.chan.self.shortChannelId == 0
  | .acceptChannel => conn.chan.self.isFunder
  | .fundingCreated => !conn.chan.self.isFunder
  | .fundingSigned => conn.chan.self.isFunder
  | .shutdown => !conn.chan.self.shutdownFlag.recv
  | .closingSigned => conn.chan.self.shutdownFlag.exchanged
  | .updateAddHtlc => (firstEmpty conn.chan.self.cnlAddHtlc).isSome
  | .announcementSignatures =>
      conn.chan.self.isFunder || conn.annoCh || conn.chan.funding || conn.opened
  | _ => true

/-- The message is read into `p_establish`. -/
def readInto (reader : LnEstablish → WireReader Unit Unit) : WireReader Unit Unit :=
  match conn.chan.establish with
  | none => fail .nullPointer
  | some est => reader est

def forget {ε α : Type} (reader : WireReader ε α) : WireReader Unit Unit :=
  (fun _ => ()) <$> reader.discard

/-- The read function that the handler calls; `recv_error` does not look at what it returns. -/
def readFunction : MsgType → WireReader Unit Unit
  | .init => forget lnMsgInitRead
  | .error => (forget lnMsgErrorRead).heedless
  | .ping => forget lnMsgPingRead
  | .pong => forget lnMsgPongRead
  | .openChannel => conn.readInto fun est => forget (lnMsgOpenChannelRead env
      ⟨ conn.chan.self.channelId
      , { est.cnlOpen with pubkeys := conn.chan.self.fundingRemote.pubkeys }, 0 ⟩)
  | .acceptChannel => conn.readInto fun est => forget (lnMsgAcceptChannelRead env
      ⟨ [], conn.chan.minDepth
      , { est.cnlAccept with pubkeys := conn.chan.self.fundingRemote.pubkeys } ⟩)
  | .fundingCreated => conn.readInto fun _ => forget lnMsgFundingCreatedRead
  | .fundingSigned => conn.readInto fun _ => forget lnMsgFundingSignedRead
  | .fundingLocked => forget lnMsgFundingLockedRead
  | .shutdown => forget lnMsgShutdownRead
  | .closingSigned => forget lnMsgClosingSignedRead
  | .updateAddHtlc => forget lnMsgUpdateAddHtlcRead
  | .updateFulfillHtlc => forget lnMsgUpdateFulfillHtlcRead
  | .updateFailHtlc => forget lnMsgUpdateFailHtlcRead
  | .commitmentSigned => forget lnMsgCommitSignedRead
  | .revokeAndAck => forget lnMsgRevokeAndAckRead
  | .updateFee => forget lnMsgUpdateFeeRead
  | .updateFailMalformedHtlc => forget lnMsgUpdateFailMalformedHtlcRead
  | .channelReestablish => forget lnMsgChannelReestablishRead
  | .channelAnnouncement => forget (lnMsgCnlAnnounceRead env)
  | .nodeAnnouncement => forget (lnMsgNodeAnnounceRead crypto)
  | .channelUpdate => forget (lnMsgCnlUpdateRead env)
  | .announcementSignatures =>
      forget (lnMsgAnnounceSignsRead conn.chan.self.shortChannelId)

/-- `ln_recv` as far as it reads: done is a message that a handler goes on with, or an odd type
that is passed over. -/
def lnRecv : WireReader Unit Unit := do
  let type ← readBe16
  refuseIf (type != MsgType.init.code && !conn.chan.self.initFlag.exchanged) ()
  match recvFuncTypes.find? fun known => known.code == type with
  | none => refuseIf (type &&& 1 == 0) ()
  | some known => do
      refuseIf (!conn.reads known) ()
      (conn.readFunction env crypto known).fromStart

/-- A message is read without a fault, and it is turned away when it is shorter than its fixed part
and the parts that it counts. -/
structure DecodesSafely (data : Bytes) : Prop where
  noFault : ∀ reason, (conn.lnRecv env crypto).run data ≠ .fault reason
  rejected : ∀ type : MsgType, lnMiscGet16be (slice data 0 2) = type.code →
    data.length < declaredLength type data → (conn.lnRecv env crypto).run data = .refused ()

/-- Where a message has to end for the read function that does not check it. -/
def Fits (data : Bytes) : MsgType → Prop
  | .error => declaredLength .error data ≤ data.length
  | .commitmentSigned => 100 ≤ data.length → declaredLength .commitmentSigned data ≤ data.length
  | .channelAnnouncement => 432 ≤ data.length → CnlAnnounceFits env data
  | .nodeAnnouncement => 142 ≤ data.length → NodeAnnounceFits data
  | .openChannel | .acceptChannel | .fundingCreated | .fundingSigned =>
      conn.chan.establish.isSome
  | _ => True

/-- The handler of the type is called and goes as far as its read function. -/
def Handles (type : MsgType) : Prop :=
  (type = .init ∨ conn.chan.self.initFlag.exchanged) ∧ conn.reads type

variable {env crypto conn} {data : Bytes}

@[simp] theorem wp_forget {ε α : Type} (reader : WireReader ε α) (post : Unit → Nat → Prop)
    (pos : Nat) :
    wp (forget reader) data pos post ↔ wp reader data pos fun _ pos => post () pos := by
  simp [forget]

/-- The message of the type that the bytes begin with is not longer than the bytes. -/
def Whole (data : Bytes) : Prop :=
  ∀ type : MsgType, lnMiscGet16be (slice data 0 2) = type.code →
    declaredLength type data ≤ data.length

theorem decodesSafely_iff_wp :
    conn.DecodesSafely env crypto data ↔
      wp (conn.lnRecv env crypto) data 0 fun _ _ => Whole data := by
  rw [wp_iff_run]
  constructor
  · intro hsafe
    refine ⟨hsafe.noFault, fun value pos hdone type htype => ?_⟩
    by_contra hshort
    have hrefused := hsafe.rejected type htype (Nat.lt_of_not_le hshort)
    rw [hrefused] at hdone
    cases hdone
  · rintro ⟨hfault, hwhole⟩
    refine ⟨hfault, fun type htype hshort => ?_⟩
    cases hresult : (conn.lnRecv env crypto).run data with
    | done value pos => exact absurd (hwhole value pos hresult type htype) hshort.not_ge
    | refused left => rfl
    | fault reason => exact absurd hresult (hfault reason)

/-- The dispatch comes to no fault of its own once the type is there. -/
theorem wp_lnRecv :
    (wp (conn.lnRecv env crypto) data 0 fun _ _ => Whole data) ↔
      2 ≤ data.length ∧ ∀ type : MsgType, lnMiscGet16be (slice data 0 2) = type.code →
        conn.Handles type →
          wp (conn.readFunction env crypto type) data 0 fun _ _ => Whole data := by
  simp only [lnRecv, wp_bind, wp_readBe16, wp_refuseIf, Nat.zero_add]
  apply and_congr_right
  intro _
  generalize hcode : lnMiscGet16be (slice data 0 2) = code
  cases hknown : recvFuncTypes.find? fun known => known.code == code with
  | none =>
      have hunknown : ∀ type : MsgType, code ≠ type.code := by
        intro type htype
        rw [htype, recvFuncTypes_find] at hknown
        cases hknown
      have hwhole : Whole data := by
        intro type htype
        exact absurd (hcode.symm.trans htype) (hunknown type)
      simp only [wp_refuseIf, hwhole, implies_true, true_iff]
      intro type htype
      exact absurd htype (hunknown type)
  | some known =>
      have hknown' : known.code = code := by
        simpa using List.find?_some hknown
      subst hknown'
      simp only [wp_bind, wp_refuseIf, wp_fromStart, Handles]
      constructor
      · intro hread type htype hhandles
        have hsame := MsgType.code_injective htype
        subst hsame
        obtain ⟨hstate, hguard⟩ := hhandles
        apply hread
        · rcases hstate with rfl | hexchanged
          · simp
          · simp [hexchanged]
        · simp [hguard]
      · intro hread hstate hguard
        apply hread known rfl
        refine ⟨?_, by simpa using hguard⟩
        simp only [Bool.and_eq_false_iff, bne_eq_false_iff_eq, Bool.not_eq_false'] at hstate
        exact hstate.imp_left MsgType.code_injective

theorem whole_of_readWhole {α : Type} {type : MsgType} {value : α} {pos : Nat}
    (htype : lnMiscGet16be (slice data 0 2) = type.code) (hread : ReadWhole type data value pos) :
    Whole data := by
  intro other hother
  have hsame := MsgType.code_injective (hother.symm.trans htype)
  subst hsame
  exact hread.1.trans hread.2

/-- A read function that is always safe. -/
theorem wp_forget_whole {ε α : Type} {type : MsgType} {reader : WireReader ε α}
    (htype : lnMiscGet16be (slice data 0 2) = type.code)
    (hread : wp reader data 0 (ReadWhole type data)) :
    wp (forget reader) data 0 fun _ _ => Whole data := by
  rw [wp_forget]
  apply wp_mono _ hread
  intro _ _
  exact whole_of_readWhole htype

/-- An `error` that is too short is acted on as well. -/
theorem heedlessError_wp (htype : lnMiscGet16be (slice data 0 2) = MsgType.error.code) :
    (wp (forget lnMsgErrorRead).heedless data 0 fun _ _ => Whole data) ↔
      declaredLength .error data ≤ data.length := by
  have hdone : ∀ (msg : ErrorMsg) pos, ReadWhole .error data msg pos → Whole data := by
    intro msg pos
    exact whole_of_readWhole htype
  rw [wp_heedless, wp_forget, lnMsgErrorRead_wp hdone]
  constructor
  · rintro ⟨hread, hrefused⟩
    by_cases hlong : 2 + 4 ≤ data.length
    · exact hread hlong htype
    · apply hrefused _ .error htype
      apply refused_of_wp_false
      rw [wp_forget, lnMsgErrorRead, wp_bind, wp_readType (by omega)]
      intro hlong'
      exact absurd hlong' hlong
  · intro hfits
    refine ⟨fun _ _ => hfits, fun _ other hother => ?_⟩
    have hsame := MsgType.code_injective (hother.symm.trans htype)
    subst hsame
    exact hfits

theorem readFunction_wp {type : MsgType} (htype : lnMiscGet16be (slice data 0 2) = type.code) :
    (wp (conn.readFunction env crypto type) data 0 fun _ _ => Whole data) ↔
      conn.Fits env data type := by
  have hdone : ∀ {α : Type} (msg : α) pos, ReadWhole type data msg pos → Whole data := by
    intro α msg pos
    exact whole_of_readWhole htype
  cases type with
  | init => exact iff_of_true (wp_forget_whole htype (lnMsgInitRead_wp data)) trivial
  | error => exact heedlessError_wp htype
  | ping => exact iff_of_true (wp_forget_whole htype (lnMsgPingRead_wp data)) trivial
  | pong => exact iff_of_true (wp_forget_whole htype (lnMsgPongRead_wp data)) trivial
  | openChannel =>
      simp only [readFunction, readInto, Fits]
      cases conn.chan.establish with
      | none => simp
      | some est => exact iff_of_true (wp_forget_whole htype (lnMsgOpenChannelRead_wp _ data)) rfl
  | acceptChannel =>
      simp only [readFunction, readInto, Fits]
      cases conn.chan.establish with
      | none => simp
      | some est => exact iff_of_true (wp_forget_whole htype (lnMsgAcceptChannelRead_wp _ data)) rfl
  | fundingCreated =>
      simp only [readFunction, readInto, Fits]
      cases conn.chan.establish with
      | none => simp
      | some est => exact iff_of_true (wp_forget_whole htype (lnMsgFundingCreatedRead_wp data)) rfl
  | fundingSigned =>
      simp only [readFunction, readInto, Fits]
      cases conn.chan.establish with
      | none => simp
      | some est => exact iff_of_true (wp_forget_whole htype (lnMsgFundingSignedRead_wp data)) rfl
  | fundingLocked =>
      exact iff_of_true (wp_forget_whole htype (lnMsgFundingLockedRead_wp data)) trivial
  | shutdown => exact iff_of_true (wp_forget_whole htype (lnMsgShutdownRead_wp data)) trivial
  | closingSigned =>
      exact iff_of_true (wp_forget_whole htype (lnMsgClosingSignedRead_wp data)) trivial
  | updateAddHtlc =>
      exact iff_of_true (wp_forget_whole htype (lnMsgUpdateAddHtlcRead_wp data)) trivial
  | updateFulfillHtlc =>
      exact iff_of_true (wp_forget_whole htype (lnMsgUpdateFulfillHtlcRead_wp data)) trivial
  | updateFailHtlc =>
      exact iff_of_true (wp_forget_whole htype (lnMsgUpdateFailHtlcRead_wp data)) trivial
  | commitmentSigned =>
      simp only [readFunction, wp_forget]
      rw [lnMsgCommitSignedRead_wp hdone]
      exact ⟨fun hfits hlong => hfits hlong htype, fun hfits hlong _ => hfits hlong⟩
  | revokeAndAck =>
      exact iff_of_true (wp_forget_whole htype (lnMsgRevokeAndAckRead_wp data)) trivial
  | updateFee => exact iff_of_true (wp_forget_whole htype (lnMsgUpdateFeeRead_wp data)) trivial
  | updateFailMalformedHtlc =>
      exact iff_of_true (wp_forget_whole htype (lnMsgUpdateFailMalformedHtlcRead_wp data)) trivial
  | channelReestablish =>
      exact iff_of_true (wp_forget_whole htype (lnMsgChannelReestablishRead_wp data)) trivial
  | channelAnnouncement =>
      simp only [readFunction, wp_forget]
      rw [lnMsgCnlAnnounceRead_wp hdone]
      exact ⟨fun hfits hlong => hfits hlong htype, fun hfits hlong _ => hfits hlong⟩
  | nodeAnnouncement =>
      simp only [readFunction, wp_forget]
      rw [lnMsgNodeAnnounceRead_wp hdone]
      exact ⟨fun hfits hlong => hfits hlong htype, fun hfits hlong _ => hfits hlong⟩
  | channelUpdate => exact iff_of_true (wp_forget_whole htype (lnMsgCnlUpdateRead_wp data)) trivial
  | announcementSignatures =>
      exact iff_of_true (wp_forget_whole htype (lnMsgAnnounceSignsRead_wp _ data)) trivial

/-- A message is decoded safely exactly when its type is there and the message that a handler reads
fits. -/
theorem decodesSafely_iff (env : WireEnv) (crypto : Crypto) (conn : Connection) (data : Bytes) :
    conn.DecodesSafely env crypto data ↔
      2 ≤ data.length ∧ ∀ type : MsgType, lnMiscGet16be (slice data 0 2) = type.code →
        conn.Handles type → conn.Fits env data type := by
  rw [decodesSafely_iff_wp, wp_lnRecv]
  apply and_congr_right
  intro _
  apply forall_congr'
  intro type
  apply forall_congr'
  intro htype
  rw [readFunction_wp htype]

/-- A channel that has just exchanged `init`. -/
def afterInit : Connection where
  chan := { self := { initFlag := ⟨true, true⟩ }, funding := false, minDepth := 0,
            establish := none }
  annoCh := false
  opened := false

/-- A `commitment_signed` that counts one HTLC signature and ends behind the count. -/
def countsOneMore : Bytes :=
  lnMiscPush16be MsgType.commitmentSigned.code ++ List.replicate 96 0 ++ lnMiscPush16be 1

/-- The signature that is not there is read. -/
theorem countsOneMore_outOfBounds :
    ¬ ∀ (conn : Connection) (data : Bytes), conn.chan.self.initFlag.exchanged = true →
      conn.DecodesSafely .symbolic .symbolic data := by
  intro hsafe
  exact (hsafe afterInit countsOneMore rfl).noFault .outOfBounds (by decide)

end Connection

end Ptarmigan
