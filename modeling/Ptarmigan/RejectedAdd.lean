/-
What a refused HTLC leaves behind: `recv_update_add_htlc` and `set_add_htlc` work in the free slot
before they know whether the HTLC is taken.
-/
import Ptarmigan.CommitSigned
import Ptarmigan.SlotChange

namespace Ptarmigan

open WireReader

/-- Where `p_channel_id` of a slot points: nowhere, at the id of the channel, or at the local
variable of a `recv_update_add_htlc` that has returned. -/
inductive ChannelIdPtr
  | null
  | channel
  | returned
deriving DecidableEq, Repr

/-- A channel together with the `p_channel_id` of its slots. -/
structure PointedChan where
  self : LnSelf
  pChannelId : HtlcIdx → ChannelIdPtr

namespace PointedChan

/-- Set the pointer of one slot. -/
def point (chan : PointedChan) (idx : HtlcIdx) (ptr : ChannelIdPtr) : PointedChan :=
  { chan with pChannelId := Function.update chan.pChannelId idx ptr }

/-- Run a function that only sees the channel. -/
def withSelf (chan : PointedChan) (self : LnSelf) : PointedChan :=
  { chan with self }

@[simp] theorem point_self (chan : PointedChan) (idx : HtlcIdx) (ptr : ChannelIdPtr) :
    (chan.point idx ptr).self = chan.self :=
  rfl

@[simp] theorem point_pChannelId (chan : PointedChan) (idx : HtlcIdx) (ptr : ChannelIdPtr) :
    (chan.point idx ptr).pChannelId idx = ptr := by
  simp [point]

@[simp] theorem withSelf_self (chan : PointedChan) (self : LnSelf) :
    (chan.withSelf self).self = self :=
  rfl

@[simp] theorem withSelf_pChannelId (chan : PointedChan) (self : LnSelf) :
    (chan.withSelf self).pChannelId = chan.pChannelId :=
  rfl

end PointedChan

/-- `recv_update_add_htlc` on the bytes of the message: the answer and the channel.  The pointer is
set before the message is read. -/
def recvUpdateAddHtlcBytes (crypto : Crypto) (chan : PointedChan) (data : Bytes)
    (onion : OnionRead) (answer : FwdAnswer) : Option (Bool × PointedChan) :=
  match firstEmpty chan.self.cnlAddHtlc with
  | none => some (false, chan)
  | some idx =>
      let chan := chan.point idx .returned
      match readWith lnMsgUpdateAddHtlcRead data with
      | .fault _ => none
      | .refused _ => some (false, chan)
      | .done msg _ =>
          let outcome := recvUpdateAddHtlc crypto chan.self msg.channelId msg.id.toNat
            msg.amountMsat msg.paymentSha256 msg.cltvExpiry msg.onion onion answer
          some (outcome.ret, chan.withSelf outcome.self)

/-- `set_add_htlc`: `clear_htlc` takes the pointer back. -/
def setAddHtlcPointed (crypto : Crypto) (chan : PointedChan) (req : AddHtlcRequest) :
    Bool × PointedChan :=
  let (taken, self) := setAddHtlc crypto chan.self req
  match checkCreateAddHtlc chan.self req.amountMsat req.cltvValue with
  | none => (false, chan.withSelf self)
  | some idx =>
      let ptr := if taken.isSome then ChannelIdPtr.channel else ChannelIdPtr.null
      (taken.isSome, (chan.point idx ptr).withSelf self)

/-- The calls that put an HTLC into a slot. -/
inductive AddCall
  | recv (data : Bytes) (onion : OnionRead) (answer : FwdAnswer)
  | set (req : AddHtlcRequest)

namespace AddCall

/-- What the call returns, and the channel behind it. -/
def run (crypto : Crypto) (chan : PointedChan) : AddCall → Option (Bool × PointedChan)
  | .recv data onion answer => recvUpdateAddHtlcBytes crypto chan data onion answer
  | .set req => some (setAddHtlcPointed crypto chan req)

/-- The slot that the call works in. -/
def tried (chan : PointedChan) : AddCall → Option HtlcIdx
  | .recv _ _ _ => firstEmpty chan.self.cnlAddHtlc
  | .set req => checkCreateAddHtlc chan.self req.amountMsat req.cltvValue

/-- The call does not come as far as a slot: a received HTLC finds none that is empty, a request is
refused by `check_create_add_htlc`. -/
def Untried (chan : PointedChan) (call : AddCall) : Prop :=
  call.tried chan = none

instance (chan : PointedChan) (call : AddCall) : Decidable (call.Untried chan) :=
  inferInstanceAs (Decidable (call.tried chan = none))

end AddCall

/-- A call that fails leaves every slot and the next HTLC id as they were, the slot it has tried
empty and without a pointer to its own variable, and any later call as if it had not been. -/
structure LeavesIntact (crypto : Crypto) (call : AddCall) (before after : PointedChan) :
    Prop where
  slots : after.self.cnlAddHtlc = before.self.cnlAddHtlc
  pChannelId : after.pChannelId = before.pChannelId
  htlcIdNum : after.self.htlcIdNum = before.self.htlcIdNum
  empty : ∀ idx, call.tried before = some idx → (after.self.cnlAddHtlc idx).empty = true
  alive : ∀ idx, call.tried before = some idx → after.pChannelId idx ≠ .returned
  next : ∀ later : AddCall, later.run crypto after = later.run crypto before

section

variable {crypto : Crypto} {before after : PointedChan} {call : AddCall}

theorem LeavesIntact.of_untried (huntried : call.Untried before) :
    LeavesIntact crypto call before before where
  slots := rfl
  pChannelId := rfl
  htlcIdNum := rfl
  empty idx htried := by
    rw [huntried] at htried
    cases htried
  alive idx htried := by
    rw [huntried] at htried
    cases htried
  next _ := rfl

/-! ### What a call leaves -/

/-- The read function of `update_add_htlc` has no fault. -/
theorem lnMsgUpdateAddHtlcRead_safe (data : Bytes) (reason : Fault) :
    readWith lnMsgUpdateAddHtlcRead data ≠ .fault reason := by
  intro hfault
  have hwp := lnMsgUpdateAddHtlcRead_wp (data.take (data.length % 65536))
  have hrun : lnMsgUpdateAddHtlcRead (data.take (data.length % 65536)) 0 = .fault reason := hfault
  rw [wp, hrun] at hwp
  exact hwp

/-- Every call comes back. -/
theorem run_isSome (crypto : Crypto) (chan : PointedChan) (call : AddCall) :
    (call.run crypto chan).isSome = true := by
  cases call with
  | set req => exact Option.isSome_some
  | recv data onion answer =>
      simp only [AddCall.run, recvUpdateAddHtlcBytes]
      cases firstEmpty chan.self.cnlAddHtlc with
      | none => exact Option.isSome_some
      | some idx =>
          cases hread : readWith lnMsgUpdateAddHtlcRead data with
          | fault reason => exact absurd hread (lnMsgUpdateAddHtlcRead_safe data reason)
          | refused left => exact Option.isSome_some
          | done msg pos => exact Option.isSome_some

/-- A call that does not come as far as a slot fails and changes nothing. -/
theorem run_untried (huntried : call.Untried before) :
    call.run crypto before = some (false, before) := by
  cases call with
  | recv data onion answer =>
      have hfull : firstEmpty before.self.cnlAddHtlc = none := huntried
      rw [AddCall.run, recvUpdateAddHtlcBytes, hfull]
  | set req =>
      have hrefused : checkCreateAddHtlc before.self req.amountMsat req.cltvValue = none := huntried
      have hset : setAddHtlc crypto before.self req = (none, before.self) := by
        rw [setAddHtlc, hrefused]
      rw [AddCall.run, setAddHtlcPointed, hset, hrefused]
      rfl

/-- Whatever is wrong with a received message, the slot is left with a pointer to the variable of
the call. -/
theorem pChannelId_recv {data : Bytes} {onion : OnionRead} {answer : FwdAnswer} {idx : HtlcIdx}
    {ret : Bool} (htried : firstEmpty before.self.cnlAddHtlc = some idx)
    (hrun : (AddCall.recv data onion answer).run crypto before = some (ret, after)) :
    after.pChannelId idx = .returned := by
  simp only [AddCall.run, recvUpdateAddHtlcBytes, htried] at hrun
  cases hread : readWith lnMsgUpdateAddHtlcRead data with
  | fault reason => exact absurd hread (lnMsgUpdateAddHtlcRead_safe data reason)
  | refused left =>
      rw [hread] at hrun
      obtain ⟨-, rfl⟩ := Prod.mk.inj (Option.some.inj hrun)
      exact before.point_pChannelId idx .returned
  | done msg pos =>
      rw [hread] at hrun
      obtain ⟨-, rfl⟩ := Prod.mk.inj (Option.some.inj hrun)
      exact before.point_pChannelId idx .returned

/-- A request that comes as far as a slot uses up an id. -/
theorem htlcIdNum_set {req : AddHtlcRequest} {idx : HtlcIdx} {ret : Bool}
    (htried : checkCreateAddHtlc before.self req.amountMsat req.cltvValue = some idx)
    (hrun : (AddCall.set req).run crypto before = some (ret, after)) :
    after.self.htlcIdNum = before.self.htlcIdNum + 1 := by
  simp only [AddCall.run, setAddHtlcPointed, setAddHtlc, htried] at hrun
  obtain ⟨-, rfl⟩ := Prod.mk.inj (Option.some.inj hrun)
  rw [PointedChan.withSelf_self]
  split <;> rfl

/-- A call that fails leaves the slots intact exactly when it does not come as far as a slot. -/
theorem leavesIntact_iff (crypto : Crypto) (before after : PointedChan) (call : AddCall)
    (hfailed : call.run crypto before = some (false, after)) :
    LeavesIntact crypto call before after ↔ call.Untried before := by
  constructor
  · intro hintact
    by_contra htried
    obtain ⟨idx, hidx⟩ := Option.ne_none_iff_exists'.mp htried
    cases call with
    | recv data onion answer => exact hintact.alive idx hidx (pChannelId_recv hidx hfailed)
    | set req =>
        have hused := htlcIdNum_set hidx hfailed
        rw [hintact.htlcIdNum] at hused
        omega
  · intro huntried
    rw [run_untried huntried] at hfailed
    obtain ⟨-, rfl⟩ := Prod.mk.inj (Option.some.inj hfailed)
    exact .of_untried huntried

/-! ### A message that stays in its slot -/

/-- The slot with the fields of the message in it. -/
def UpdateAddHtlcMsg.readInto (msg : UpdateAddHtlcMsg) (htlc : LnUpdateAddHtlc) :
    LnUpdateAddHtlc :=
  htlc.read msg.id.toNat msg.amountMsat msg.paymentSha256 msg.cltvExpiry msg.onion

/-- An `update_add_htlc` that is rejected after it was read stays in the slot. -/
theorem recvUpdateAddHtlc_rejected {self : LnSelf} {idx : HtlcIdx} (msg : UpdateAddHtlcMsg)
    (onion : OnionRead) (answer : FwdAnswer) (htried : firstEmpty self.cnlAddHtlc = some idx)
    (hret : (recvUpdateAddHtlc crypto self msg.channelId msg.id.toNat msg.amountMsat
      msg.paymentSha256 msg.cltvExpiry msg.onion onion answer).ret = false) :
    (recvUpdateAddHtlc crypto self msg.channelId msg.id.toNat msg.amountMsat msg.paymentSha256
      msg.cltvExpiry msg.onion onion answer).self =
        self.setSlot idx (msg.readInto (self.cnlAddHtlc idx)) := by
  revert hret
  rw [recvUpdateAddHtlc, htried]
  simp only
  split_ifs with hchannel hbolt2
  · exact fun _ => rfl
  · exact fun _ => rfl
  · intro hret
    cases hret

theorem run_read {data : Bytes} {idx : HtlcIdx} {msg : UpdateAddHtlcMsg} {pos : Nat}
    (onion : OnionRead) (answer : FwdAnswer) (htried : firstEmpty before.self.cnlAddHtlc = some idx)
    (hread : readWith lnMsgUpdateAddHtlcRead data = .done msg pos) :
    let outcome := recvUpdateAddHtlc crypto before.self msg.channelId msg.id.toNat msg.amountMsat
      msg.paymentSha256 msg.cltvExpiry msg.onion onion answer
    (AddCall.recv data onion answer).run crypto before =
      some (outcome.ret, (before.point idx .returned).withSelf outcome.self) := by
  rw [AddCall.run, recvUpdateAddHtlcBytes, htried]
  simp only [hread, PointedChan.point_self]

theorem ret_otherChannel {self : LnSelf} {idx : HtlcIdx} {msg : UpdateAddHtlcMsg}
    (onion : OnionRead) (answer : FwdAnswer) (htried : firstEmpty self.cnlAddHtlc = some idx)
    (hchannel : msg.channelId ≠ self.channelId) :
    (recvUpdateAddHtlc crypto self msg.channelId msg.id.toNat msg.amountMsat msg.paymentSha256
      msg.cltvExpiry msg.onion onion answer).ret = false := by
  rw [recvUpdateAddHtlc, htried]
  simp only
  rw [if_pos hchannel]
  rfl

/-- A message that is read and then rejected stays in the slot. -/
theorem slots_rejected {data : Bytes} {onion : OnionRead} {answer : FwdAnswer} {idx : HtlcIdx}
    {msg : UpdateAddHtlcMsg} {pos : Nat} (htried : firstEmpty before.self.cnlAddHtlc = some idx)
    (hread : readWith lnMsgUpdateAddHtlcRead data = .done msg pos)
    (hfailed : (AddCall.recv data onion answer).run crypto before = some (false, after)) :
    after.self.cnlAddHtlc = Function.update before.self.cnlAddHtlc idx
      (msg.readInto (before.self.cnlAddHtlc idx)) := by
  rw [run_read onion answer htried hread] at hfailed
  obtain ⟨hret, rfl⟩ := Prod.mk.inj (Option.some.inj hfailed)
  rw [PointedChan.withSelf_self, recvUpdateAddHtlc_rejected msg onion answer htried hret]
  rfl

/-- Leaving the pointer aside, a rejected message leaves its slot as it was exactly when the slot
holds the fields of the message already. -/
theorem slots_rejected_iff {data : Bytes} {onion : OnionRead} {answer : FwdAnswer} {idx : HtlcIdx}
    {msg : UpdateAddHtlcMsg} {pos : Nat} (htried : firstEmpty before.self.cnlAddHtlc = some idx)
    (hread : readWith lnMsgUpdateAddHtlcRead data = .done msg pos)
    (hfailed : (AddCall.recv data onion answer).run crypto before = some (false, after)) :
    after.self.cnlAddHtlc = before.self.cnlAddHtlc ↔
      msg.readInto (before.self.cnlAddHtlc idx) = before.self.cnlAddHtlc idx := by
  rw [slots_rejected htried hread hfailed]
  exact Function.update_eq_self_iff

/-- A rejected message with an amount takes its slot: the next HTLC goes elsewhere. -/
theorem firstEmpty_rejected {data : Bytes} {onion : OnionRead} {answer : FwdAnswer}
    {idx : HtlcIdx} {msg : UpdateAddHtlcMsg} {pos : Nat}
    (htried : firstEmpty before.self.cnlAddHtlc = some idx)
    (hread : readWith lnMsgUpdateAddHtlcRead data = .done msg pos)
    (hamount : msg.amountMsat ≠ 0)
    (hfailed : (AddCall.recv data onion answer).run crypto before = some (false, after)) :
    firstEmpty after.self.cnlAddHtlc ≠ some idx := by
  intro hfirst
  have hempty := empty_of_firstEmpty hfirst
  rw [slots_rejected htried hread hfailed, Function.update_self, LnUpdateAddHtlc.empty] at hempty
  simp [UpdateAddHtlcMsg.readInto, LnUpdateAddHtlc.read, hamount] at hempty

/-! ### Runs of calls -/

/-- The channel behind a list of calls. -/
def runAll (crypto : Crypto) (chan : PointedChan) : List AddCall → Option PointedChan
  | [] => some chan
  | call :: rest => (call.run crypto chan).bind fun result => runAll crypto result.2 rest

/-- The calls of the list that have not failed. -/
def succeeded (crypto : Crypto) (chan : PointedChan) : List AddCall → List AddCall
  | [] => []
  | call :: rest =>
      match call.run crypto chan with
      | none => []
      | some (true, after) => call :: succeeded crypto after rest
      | some (false, after) => succeeded crypto after rest

/-- No call of the list that fails comes as far as a slot. -/
def FailuresUntried (crypto : Crypto) (chan : PointedChan) : List AddCall → Prop
  | [] => True
  | call :: rest =>
      ∀ ret after, call.run crypto chan = some (ret, after) →
        (ret = false → call.Untried chan) ∧ FailuresUntried crypto after rest

/-- The calls that fail without coming as far as a slot can be left out of a run. -/
theorem runAll_succeeded (calls : List AddCall) (chan : PointedChan)
    (huntried : FailuresUntried crypto chan calls) :
    runAll crypto chan (succeeded crypto chan calls) = runAll crypto chan calls := by
  induction calls generalizing chan with
  | nil => rfl
  | cons call rest ih =>
      obtain ⟨⟨ret, after⟩, hrun⟩ := Option.isSome_iff_exists.mp (run_isSome crypto chan call)
      obtain ⟨hfailed, hrest⟩ := huntried ret after hrun
      have hafter := ih after hrest
      cases ret with
      | true => simp only [succeeded, runAll, hrun, Option.bind_some, hafter]
      | false =>
          have hsame : after = chan := by
            rw [run_untried (hfailed rfl)] at hrun
            exact (Prod.mk.inj (Option.some.inj hrun)).2.symm
          rw [hsame] at hafter hrun
          simp only [succeeded, runAll, hrun, Option.bind_some, hafter]

end

/-! ### A channel right after its funding -/

/-- The channel of the examples, no slot used yet. -/
def sizedPointed : PointedChan := ⟨sizedState.self, fun _ => .null⟩

/-- A request whose expiry is no block height. -/
def lateRequest : AddHtlcRequest where
  packet := []
  amountMsat := 1000
  cltvValue := 500000000
  paymentHash := []

theorem lateRequest_untried : (AddCall.set lateRequest).Untried sizedPointed := by
  decide

/-- A refused request changes nothing. -/
theorem leavesIntact_lateRequest :
    LeavesIntact .sized (.set lateRequest) sizedPointed sizedPointed :=
  (leavesIntact_iff .sized sizedPointed sizedPointed (.set lateRequest)
    (run_untried lateRequest_untried)).mpr lateRequest_untried

/-- An HTLC for another channel. -/
def strayAdd : UpdateAddHtlcMsg where
  channelId := List.replicate 32 0xff
  id := 0
  amountMsat := 1000
  paymentSha256 := List.replicate 32 7
  cltvExpiry := 500
  onion := List.replicate 1366 0

def strayCall : AddCall :=
  .recv ((lnMsgUpdateAddHtlcCreate strayAdd).getD []) ⟨[], [], .malformed []⟩ (.refused [])

theorem strayAdd_read : ∃ pos,
    readWith lnMsgUpdateAddHtlcRead ((lnMsgUpdateAddHtlcCreate strayAdd).getD []) =
      .done strayAdd pos := by
  have hsized : strayAdd.Sized := by
    constructor
    · exact List.length_replicate
    · exact List.length_replicate
    · exact List.length_replicate
  obtain ⟨bytes, hcreated, hread⟩ := lnMsgUpdateAddHtlc_roundTrips hsized
  have hlength : bytes.length ≤ 2 + 1450 := length_of_utlPush hcreated
  rw [hcreated]
  exact ⟨bytes.length, hread (by omega)⟩

theorem sizedPointed_checked :
    firstEmpty sizedPointed.self.cnlAddHtlc = some 0 ∧
      strayAdd.channelId ≠ sizedPointed.self.channelId ∧
      (strayAdd.readInto (sizedPointed.self.cnlAddHtlc 0)).amountMsat ≠
        (sizedPointed.self.cnlAddHtlc 0).amountMsat := by
  decide +kernel

/-- The channel behind the rejected HTLC. -/
theorem strayCall_fails : ∃ after, strayCall.run .sized sizedPointed = some (false, after) := by
  obtain ⟨pos, hread⟩ := strayAdd_read
  obtain ⟨hempty, hstray, -⟩ := sizedPointed_checked
  rw [strayCall, run_read _ _ hempty hread, ret_otherChannel _ _ hempty hstray]
  exact ⟨_, rfl⟩

/-- An HTLC for another channel takes a slot of this one. -/
theorem notIntact_strayCall :
    ¬ ∀ (crypto : Crypto) (state : ChannelState) (pChannelId : HtlcIdx → ChannelIdPtr)
        (after : PointedChan) (call : AddCall), (channelSystem crypto).Reachable state →
      call.run crypto ⟨state.self, pChannelId⟩ = some (false, after) →
        LeavesIntact crypto call ⟨state.self, pChannelId⟩ after := by
  intro hkeeps
  obtain ⟨after, hfailed⟩ := strayCall_fails
  obtain ⟨pos, hread⟩ := strayAdd_read
  have hintact := hkeeps .sized sizedState _ after strayCall sizedState_reachable hfailed
  obtain ⟨hempty, -, hamount⟩ := sizedPointed_checked
  have hslots := (slots_rejected_iff hempty hread hfailed).mp hintact.slots
  exact hamount (congrArg LnUpdateAddHtlc.amountMsat hslots)

end Ptarmigan
