/-
`btc_tx_read` on arbitrary bytes.  Every element that does not fit is passed over, and the loop
ends where the position has come to the end: the result is never false once the first six bytes
have been accepted.
-/
import Ptarmigan.TxSpelt

namespace Ptarmigan

namespace TxSerial

open WireReader

variable {data : Bytes} {pos : Nat} {heap : Heap} {st : Reading}

/-- The bytes are those of a whole transaction, with counts and lengths below 65536. -/
def Complete (data : Bytes) : Prop :=
  ∃ spelt : SpeltTx, spelt.Good ∧ data = spelt.bytes

/-- A read that has ended, with true only for a complete transaction, without a fault. -/
def Right (data : Bytes) : Result Unit (Option BtcTx) → Prop
  | .done (some _) _ => Complete data
  | .done none _ => False
  | .refused _ => True
  | .fault _ => False

/-- The element that the state writes next is one of the array. -/
def Reading.Inside (st : Reading) : Prop :=
  match st.state with
  | .vinCount => st.txCnt = 0
  | .vin => st.txCnt < st.tx.vin.length
  | .vout => st.txCnt < st.tx.vout.length
  | _ => True

/-- Where the loop stands at the beginning of its turns. -/
inductive Turn (heap : Heap) (before : BtcTx) (data : Bytes) : Reading → Nat → Prop
  | first {st : Reading} {pos : Nat} :
      readHead before data 0 = .done st pos → Turn heap before data st pos
  | next {st after : Reading} {pos behind : Nat} :
      Turn heap before data st pos → pos < data.length →
      step heap st data pos = .done after behind → Turn heap before data after behind

/-- In both builds the read ends, without a read or a write outside, and with true only for a
complete transaction. -/
structure ReadsRightly (data : Bytes) : Prop where
  release : ∀ heap before, ∃ enough, ∀ turns, enough ≤ turns →
    Right data ((btcTxRead heap turns before).run data)
  debug : ∀ heap before, ∃ enough, ∀ turns, enough ≤ turns →
    Right data ((btcTxReadDebug heap turns before).run data)
  inside : ∀ heap before st pos, Turn heap before data st pos → st.Inside

/-- The first bytes are not those of a transaction. -/
def TurnedAway (data : Bytes) : Prop :=
  data.length < 8 ∨ (data.getD 4 0 = 0x00 ∧ data.getD 5 0 ≠ 0x01)

/-! ### One turn -/

/-- How many more turns without a step forward there can be. -/
def ReadState.rank : ReadState → Nat
  | .vinCount => 3
  | .vin => 3
  | .voutCount => 2
  | .vout => 2
  | .witness => 1
  | .locktime => 0

/-- The position moves on, or nothing changes, or the state is a later one. -/
structure Moves (st : Reading) (pos : Nat) (after : Reading) (behind : Nat) : Prop where
  forward : pos ≤ behind
  still : behind = pos → after = st ∨ after.state.rank < st.state.rank
  rank : after.state.rank ≤ st.state.rank
  inside : st.Inside → after.Inside

theorem wlp_getVarint {post : Nat → Nat → Prop}
    (hpost : ∀ var behind, pos < behind → post var behind) :
    wlp getVarint data pos post := by
  simp only [getVarint, wlp_bind, wlp_bytes]
  intro _
  split
  · exact hpost _ _ (Nat.lt_succ_self pos)
  · simp only [wlp_map, wlp_bytes]
    exact fun _ => hpost _ _ (by omega)

theorem wlp_getLe32 {post : UInt32 → Nat → Prop} (hpost : ∀ value, post value (pos + 4)) :
    wlp getLe32 data pos post := by
  simp only [getLe32, wlp_map, wlp_bytes]
  exact fun _ => hpost _

theorem wlp_getLe64 {post : UInt64 → Nat → Prop} (hpost : ∀ value, post value (pos + 8)) :
    wlp getLe64 data pos post := by
  simp only [getLe64, wlp_map, wlp_bytes]
  exact fun _ => hpost _

theorem wlp_peekVarint {tmp : Nat} {post : Nat × Nat → Nat → Prop}
    (hpost : ∀ peeked, post peeked pos) :
    wlp (peekVarint tmp) data pos post := by
  have hread : wlp getVarint data tmp fun _ _ => True := wlp_getVarint fun _ _ _ => trivial
  rw [wlp, peekVarint]
  rw [wlp] at hread
  split_ifs
  · trivial
  · cases hresult : getVarint data tmp with
    | done var behind => exact hpost _
    | refused left => simp [hresult] at hread
    | fault reason => trivial

theorem wlp_readScript {var : Nat} {post : Bytes → Nat → Prop}
    (hpost : ∀ script behind, pos ≤ behind → post script behind) :
    wlp (readScript var) data pos post := by
  simp only [readScript, wlp_readIf, wlp_bytes]
  exact ⟨fun _ _ => hpost _ _ (Nat.le_add_right _ _), fun _ => hpost _ _ (Nat.le_refl _)⟩

theorem wlp_readVin {tmp var : Nat} {post : BtcVin → Nat → Prop}
    (hpost : ∀ vin behind, pos < behind → post vin behind) :
    wlp (readVin tmp var) data pos post := by
  simp only [readVin, wlp_bind, wlp_bytes, wlp_skip, wlp_pure]
  intro _
  refine wlp_getLe32 fun index => wlp_readScript fun script behind hbehind =>
    wlp_getLe32 fun _ => ?_
  exact hpost _ _ (by omega)

theorem wlp_readVout {tmp var : Nat} {post : BtcVout → Nat → Prop}
    (hpost : ∀ vout behind, pos < behind → post vout behind) :
    wlp (readVout tmp var) data pos post := by
  simp only [readVout, wlp_bind, wlp_skip, wlp_pure]
  refine wlp_getLe64 fun value => wlp_readScript fun script behind hbehind => ?_
  exact hpost _ _ (by omega)

theorem wlp_readItems {slots : List Bytes} {post : List Bytes → Nat → Prop}
    (hpost : ∀ items behind, pos ≤ behind → post items behind) :
    wlp (readItems slots) data pos post := by
  induction slots generalizing pos post with
  | nil => exact hpost [] pos (Nat.le_refl pos)
  | cons slot slots ih =>
      simp only [readItems, wlp_bind, wlp_position, wlp_messageLength, wlp_readIf, wlp_bytes,
        wlp_pure]
      refine wlp_getVarint fun var behind hbehind => ⟨fun _ _ => ?_, fun _ => ?_⟩
      · exact ih fun items after hafter => hpost _ _ (by omega)
      · exact ih fun items after hafter => hpost _ _ (by omega)

/-- The state of the inputs is left for a later one, or one more of them is to be written. -/
theorem afterVin_cases (hstate : st.state = .vin) :
    (st.afterVin = st ∧ st.Inside) ∨
      st.afterVin.state = .voutCount := by
  rw [Reading.afterVin]
  split
  · exact .inr rfl
  · rename_i hmore
    refine .inl ⟨rfl, ?_⟩
    rw [Reading.Inside, hstate]
    exact Nat.not_le.mp hmore

theorem endVout_state (st : Reading) :
    st.endVout.state = .witness ∨ st.endVout.state = .locktime := by
  rw [Reading.endVout]
  cases st.segwit with
  | false => exact .inr rfl
  | true => exact .inl rfl

theorem endVout_rank (st : Reading) : st.endVout.state.rank ≤ 1 := by
  rcases endVout_state st with hstate | hstate <;> rw [hstate] <;> decide

theorem afterVout_cases (hstate : st.state = .vout) :
    (st.afterVout = st ∧ st.Inside) ∨
      st.afterVout.state = .witness ∨ st.afterVout.state = .locktime := by
  rw [Reading.afterVout]
  split
  · exact .inr (endVout_state st)
  · rename_i hmore
    refine .inl ⟨rfl, ?_⟩
    rw [Reading.Inside, hstate]
    exact Nat.not_le.mp hmore

/-- A turn to a state of a lower rank. -/
theorem Moves.later {after : Reading} {behind : Nat} (hforward : pos ≤ behind)
    (hrank : after.state.rank < st.state.rank) (hinside : after.Inside) :
    Moves st pos after behind :=
  ⟨hforward, fun _ => .inr hrank, Nat.le_of_lt hrank, fun _ => hinside⟩

/-- A turn that reads something. -/
theorem Moves.ahead {after : Reading} {behind : Nat} (hforward : pos < behind)
    (hrank : after.state.rank ≤ st.state.rank) (hinside : after.Inside) :
    Moves st pos after behind :=
  ⟨Nat.le_of_lt hforward, fun hstill => absurd hstill (Nat.ne_of_gt hforward), hrank,
    fun _ => hinside⟩

theorem inside_of_state (hstate : st.state = .voutCount ∨ st.state = .witness ∨
    st.state = .locktime) : st.Inside := by
  rw [Reading.Inside]
  rcases hstate with hstate | hstate | hstate <;> rw [hstate] <;> trivial

theorem stepVin_moves (hstate : st.state = .vin) : wlp (stepVin st) data pos (Moves st pos) := by
  simp only [stepVin, wlp_bind, wlp_position, wlp_messageLength]
  split
  · rw [wlp_bind]
    refine wlp_peekVarint fun peeked => ?_
    simp only [wlp_bind, wlp_readIf, wlp_map, wlp_pure]
    constructor
    · refine fun _ => wlp_readVin fun vin behind hbehind => ?_
      have hnext : (st.setVin vin).state = .vin := hstate
      rcases afterVin_cases hnext with ⟨hafter, hinside⟩ | hafter
      · rw [hafter]
        exact .ahead hbehind (Nat.le_refl _) hinside
      · apply Moves.ahead hbehind _ (inside_of_state (.inl hafter))
        rw [hafter, hstate]
        decide
    · intro _
      rcases afterVin_cases hstate with ⟨hafter, -⟩ | hafter
      · rw [hafter]
        exact ⟨Nat.le_refl _, fun _ => .inl rfl, Nat.le_refl _, id⟩
      · apply Moves.later (Nat.le_refl _) _ (inside_of_state (.inl hafter))
        rw [hafter, hstate]
        decide
  · apply Moves.later (Nat.le_refl _) _ (inside_of_state (.inl rfl))
    rw [hstate]
    exact Nat.lt_succ_self 2

theorem stepVout_moves (hstate : st.state = .vout) : wlp (stepVout st) data pos (Moves st pos) := by
  have hlater {after : Reading} (hafter : after.state = .witness ∨ after.state = .locktime) :
      after.state.rank < st.state.rank := by
    rw [hstate]
    rcases hafter with hafter | hafter <;> rw [hafter] <;> decide
  simp only [stepVout, wlp_bind, wlp_position, wlp_messageLength]
  split
  · rw [wlp_bind]
    refine wlp_peekVarint fun peeked => ?_
    simp only [wlp_bind, wlp_readIf, wlp_map, wlp_pure]
    constructor
    · refine fun _ => wlp_readVout fun vout behind hbehind => ?_
      have hnext : (st.setVout vout).state = .vout := hstate
      rcases afterVout_cases hnext with ⟨hafter, hinside⟩ | hafter
      · rw [hafter]
        exact .ahead hbehind (Nat.le_refl _) hinside
      · exact .later (Nat.le_of_lt hbehind) (hlater hafter) (inside_of_state (.inr hafter))
    · intro _
      rcases afterVout_cases hstate with ⟨hafter, -⟩ | hafter
      · rw [hafter]
        exact ⟨Nat.le_refl _, fun _ => .inl rfl, Nat.le_refl _, id⟩
      · exact .later (Nat.le_refl _) (hlater hafter) (inside_of_state (.inr hafter))
  · have hend := endVout_state st
    exact .later (Nat.le_refl _) (hlater hend) (inside_of_state (.inr hend))

theorem stepWitness_moves (hstate : st.state = .witness) :
    wlp (stepWitness heap st) data pos (Moves st pos) := by
  simp only [stepWitness, wlp_bind, wlp_position, wlp_messageLength]
  split
  · simp only [wlp_bind, wlp_pure]
    refine wlp_getVarint fun var behind hbehind => wlp_readItems fun items after hafter => ?_
    have hstates : ((st.setWitness items).afterWitness).state = .witness ∨
        ((st.setWitness items).afterWitness).state = .locktime := by
      rw [Reading.afterWitness]
      split
      · exact .inr rfl
      · exact .inl hstate
    apply Moves.ahead (Nat.lt_of_lt_of_le hbehind hafter) _ (inside_of_state (.inr hstates))
    rw [hstate]
    rcases hstates with hstates | hstates
    · rw [hstates]
    · rw [hstates]
      exact Nat.zero_le _
  · apply Moves.later (Nat.le_refl _) _ (inside_of_state (.inr (.inr rfl)))
    rw [hstate]
    exact Nat.lt_succ_self 0

/-- What one turn does, unless it comes to a fault. -/
theorem step_moves (heap : Heap) (st : Reading) (data : Bytes) (pos : Nat) :
    wlp (step heap st) data pos (Moves st pos) := by
  cases hstate : st.state with
  | vinCount =>
      simp only [step, hstate, wlp_bind, wlp_pure]
      refine wlp_getVarint fun var behind hbehind => ?_
      by_cases hnone : var = 0
      · rw [if_pos hnone]
        apply Moves.ahead hbehind _ (inside_of_state (.inl rfl))
        rw [hstate]
        exact Nat.le_succ 2
      · rw [if_neg hnone]
        refine ⟨Nat.le_of_lt hbehind, fun hstill => absurd hstill (Nat.ne_of_gt hbehind), ?_, ?_⟩
        · rw [hstate]
          exact Nat.le_refl 3
        · intro hinside
          rw [Reading.Inside, hstate] at hinside
          simp only [Reading.Inside, List.length_map, List.length_range]
          exact hinside.symm ▸ Nat.pos_of_ne_zero hnone
  | vin =>
      simp only [step, hstate]
      exact stepVin_moves hstate
  | voutCount =>
      simp only [step, hstate, wlp_bind, wlp_pure]
      refine wlp_getVarint fun var behind hbehind => ?_
      by_cases hnone : var = 0
      · rw [if_pos hnone]
        apply Moves.ahead hbehind _ (inside_of_state (.inr (endVout_state _)))
        rw [hstate]
        exact Nat.le_trans (endVout_rank _) (Nat.le_succ 1)
      · rw [if_neg hnone]
        apply Moves.ahead hbehind
        · rw [hstate]
          exact Nat.le_refl 2
        · simp only [Reading.Inside, List.length_map, List.length_range]
          exact Nat.pos_of_ne_zero hnone
  | vout =>
      simp only [step, hstate]
      exact stepVout_moves hstate
  | witness =>
      simp only [step, hstate]
      exact stepWitness_moves hstate
  | locktime =>
      simp only [step, hstate, wlp_bind, wlp_pure]
      refine wlp_getLe32 fun locktime => ?_
      apply Moves.ahead (Nat.lt_add_of_pos_right (by decide)) _ (inside_of_state (.inr (.inr rfl)))
      rw [hstate]

/-! ### The loop -/

theorem loop_end {turns : Nat} (hend : data.length ≤ pos) :
    loop heap (turns + 1) st data pos = .done (some st.tx) pos := by
  rw [loop]
  change (if pos < data.length then _ else _ : WireReader Unit (Option BtcTx)) data pos = _
  rw [if_neg (Nat.not_lt.mpr hend)]
  rfl

/-- The loop never refuses. -/
theorem wlp_loop (heap : Heap) (turns : Nat) (st : Reading) (data : Bytes) (pos : Nat) :
    wlp (loop heap turns st) data pos fun _ _ => True := by
  induction turns generalizing st pos with
  | zero => trivial
  | succ turns ih =>
      simp only [loop, wlp_bind, wlp_position, wlp_messageLength]
      split
      · rw [wlp_bind]
        exact wlp_mono (fun after behind _ => ih after behind) (step_moves heap st data pos)
      · trivial

/-- A turn that changes nothing is followed by the same one for ever. -/
theorem loop_stuck (hinside : pos < data.length) (hstep : step heap st data pos = .done st pos)
    (turns : Nat) : loop heap turns st data pos = .done none pos := by
  induction turns with
  | zero => rfl
  | succ turns ih => rw [loop_succ hinside, bind_done hstep, ih]

/-- While the read goes on, a turn of the debug build is one of the others. -/
theorem loopDebug_succ {turns prevPos posCnt : Nat} (hinside : pos < data.length)
    (hcount : prevPos = pos → posCnt < 5) :
    loopDebug heap (turns + 1) prevPos posCnt st data pos =
      (step heap st >>= loopDebug heap turns pos (if prevPos = pos then posCnt + 1 else posCnt))
        data pos := by
  have hgoes : ¬ (prevPos = pos ∧ 5 < if prevPos = pos then posCnt + 1 else posCnt) := by
    rintro ⟨hstill, hmany⟩
    have hfew := hcount hstill
    rw [if_pos hstill] at hmany
    omega
  rw [loopDebug]
  change (if pos < data.length then _ else _ : WireReader Unit (Option BtcTx)) data pos = _
  rw [if_pos hinside]
  simp only [if_neg hgoes]

/-- Where the other builds come to an end, the debug build does not break off: the position
stands still at most once in each of three states. -/
theorem loopDebug_eq {turns : Nat} {result : Option BtcTx} {behind : Nat} :
    ∀ {prevPos posCnt : Nat} {st : Reading} {pos : Nat},
      loop heap turns st data pos = .done result behind → result.isSome = true →
      (if prevPos = pos then posCnt + 1 else posCnt) + st.state.rank ≤ 5 →
      loopDebug heap turns prevPos posCnt st data pos = .done result behind := by
  induction turns with
  | zero =>
      intro prevPos posCnt st pos hloop hsome _
      have hnone : (.done none pos : Result Unit (Option BtcTx)) = .done result behind := hloop
      cases hnone
      cases hsome
  | succ turns ih =>
      intro prevPos posCnt st pos hloop hsome hcount
      by_cases hinside : pos < data.length
      · have hgo := hloop
        rw [loop_succ hinside] at hgo
        cases hstep : step heap st data pos with
        | done after ahead =>
            rw [bind_done hstep] at hgo
            have hmoves := (step_moves heap st data pos).of_done hstep
            have hfew : prevPos = pos → posCnt < 5 := by
              intro hstill
              rw [if_pos hstill] at hcount
              omega
            rw [loopDebug_succ hinside hfew, bind_done hstep]
            apply ih hgo hsome
            by_cases hstill : pos = ahead
            · rw [if_pos hstill]
              rcases hmoves.still hstill.symm with hsame | hrank
              · rw [hsame, ← hstill] at hstep
                rw [loop_stuck hinside hstep] at hloop
                cases hloop
                cases hsome
              · omega
            · rw [if_neg hstill]
              have hrank := hmoves.rank
              omega
        | refused left =>
            rw [bind_refused hstep] at hgo
            cases hgo
        | fault reason =>
            rw [bind_fault hstep] at hgo
            cases hgo
      · rw [loop_end (Nat.not_lt.mp hinside)] at hloop
        rw [← hloop, loopDebug]
        change (if pos < data.length then _ else _ : WireReader Unit (Option BtcTx)) data pos = _
        rw [if_neg hinside]
        rfl

/-! ### The whole read -/

theorem readHead_turnedAway (haway : TurnedAway data) (before : BtcTx) :
    readHead before data 0 = .refused () := by
  by_cases hlong : 8 ≤ data.length
  · have hmarks : data.getD 4 0 = 0x00 ∧ data.getD 5 0 ≠ 0x01 :=
      haway.resolve_left (Nat.not_lt.mpr hlong)
    have hatLeast : (atLeast 8 () : WireReader Unit Unit) data 0 = .done () 0 := by
      rw [atLeast, if_neg (Nat.not_lt.mpr hlong)]
    have hbytes : (bytes 4 : WireReader Unit _) data 0 = .done ((data.drop 0).take 4) (0 + 4) := by
      rw [bytes, if_pos (by omega)]
    have hversion : getLe32 data 0 =
        .done (UInt32.ofNat (LittleEndian.decode ((data.drop 0).take 4))) (0 + 4) :=
      bind_done hbytes
    have hmessage : (message : WireReader Unit _) data (0 + 4) = .done data (0 + 4) := rfl
    have hrefuse : (data.getD 4 0 == 0x00 && data.getD 5 0 != 0x01) = true := by
      simpa using hmarks
    rw [readHead, bind_done hatLeast, bind_done hversion, bind_done hmessage]
    apply bind_refused
    rw [refuseIf, if_pos hrefuse]
    rfl
  · apply bind_refused
    rw [atLeast, if_pos (Nat.not_le.mp hlong)]

theorem wlp_readHead (haway : ¬ TurnedAway data) (before : BtcTx) :
    wlp (readHead before) data 0 fun st pos => st.state = .vinCount ∧ st.txCnt = 0 ∧ 4 ≤ pos := by
  simp only [TurnedAway, not_or, Nat.not_lt, not_and, not_not] at haway
  have haccepted : (data.getD 4 0 == 0x00 && data.getD 5 0 != 0x01) = false := by
    simpa using haway.2
  simp only [readHead, wlp_bind, wlp_atLeast, wlp_message, wlp_refuseIf, wlp_skip, wlp_pure]
  refine ⟨haway.1, wlp_getLe32 fun version => ⟨haccepted, trivial, trivial, ?_⟩⟩
  omega

theorem readHead_done {before : BtcTx} (hhead : readHead before data 0 = .done st pos) :
    st.state = .vinCount ∧ st.txCnt = 0 ∧ 4 ≤ pos := by
  by_cases haway : TurnedAway data
  · rw [readHead_turnedAway haway] at hhead
    cases hhead
  · exact (wlp_readHead haway before).of_done hhead

theorem turn_inside {before : BtcTx} (hturn : Turn heap before data st pos) : st.Inside := by
  induction hturn with
  | first hhead =>
      obtain ⟨hstate, hnone, -⟩ := readHead_done hhead
      rw [Reading.Inside, hstate]
      exact hnone
  | next _ _ hstep ih => exact ((step_moves _ _ _ _).of_done hstep).inside ih

/-- The builds read the bytes of a whole transaction alike. -/
theorem btcTxReadDebug_eq {turns : Nat} {before tx : BtcTx} {behind : Nat}
    (hread : (btcTxRead heap turns before).run data = .done (some tx) behind) :
    (btcTxReadDebug heap turns before).run data = .done (some tx) behind := by
  rw [WireReader.run, btcTxRead] at hread
  rw [WireReader.run, btcTxReadDebug]
  cases hhead : readHead before data 0 with
  | done st pos =>
      obtain ⟨hstate, -, hpos⟩ := readHead_done hhead
      have hposition : (position : WireReader Unit Nat) data pos = .done pos pos := rfl
      have hmoved : pos - 1 ≠ pos := by omega
      rw [bind_done hhead] at hread
      rw [bind_done hhead, bind_done hposition]
      apply loopDebug_eq hread rfl
      rw [if_neg hmoved, hstate]
      decide
  | refused left =>
      rw [bind_refused hhead] at hread
      cases hread
  | fault reason =>
      rw [bind_fault hhead] at hread
      cases hread

/-- Once the first bytes are accepted, the read is not refused any more. -/
theorem btcTxRead_not_refused (haway : ¬ TurnedAway data) (heap : Heap) (turns : Nat)
    (before : BtcTx) : (btcTxRead heap turns before).run data ≠ .refused () := by
  have hread : wlp (readHead before >>= loop heap turns) data 0 fun _ _ => True := by
    rw [wlp_bind]
    exact wlp_mono (fun st pos _ => wlp_loop heap turns st data pos) (wlp_readHead haway before)
  rw [WireReader.run, btcTxRead]
  exact hread.not_refused ()

theorem btcTxRead_near {spelt : SpeltTx} (hgood : spelt.Good) (hnear : spelt.Near)
    (hsize : spelt.bytes.length < 2 ^ 32) (heap : Heap) (before : BtcTx) {turns : Nat}
    (henough : spelt.turns ≤ turns) :
    (btcTxRead heap turns before).run spelt.bytes = .done (some spelt.tx) spelt.bytes.length := by
  have hread := btcTxRead_spelt hgood hsize heap before (turns - spelt.turns)
  rwa [Nat.sub_add_cancel henough, if_pos hnear] at hread

/-- What `malloc` and the caller leave, for a run of which they do not matter. -/
def blankHeap : Heap where
  vin _ := ⟨[], 0, [], [], 0⟩
  vout _ := ⟨0, []⟩
  item _ := []

def blankTx : BtcTx := ⟨0, [], [], 0⟩

/-- `btc_tx_read` does what it should exactly when the first bytes are not those of a transaction,
or the bytes are a whole one in which the length of no script begins at `2^31` or behind. -/
theorem readsRightly_iff (hdata : data.length < 2 ^ 32) :
    ReadsRightly data ↔
      TurnedAway data ∨ ∃ spelt : SpeltTx, spelt.Good ∧ spelt.Near ∧ data = spelt.bytes := by
  constructor
  · intro hright
    by_cases haway : TurnedAway data
    · exact .inl haway
    · refine .inr ?_
      obtain ⟨enough, hall⟩ := hright.release blankHeap blankTx
      have hfirst := hall enough (Nat.le_refl _)
      have hgoes := btcTxRead_not_refused haway blankHeap enough blankTx
      obtain ⟨spelt, hgood, rfl⟩ : Complete data := by
        cases hresult : (btcTxRead blankHeap enough blankTx).run data with
        | done result behind =>
            rw [hresult] at hfirst
            cases result with
            | none => exact hfirst.elim
            | some tx => exact hfirst
        | refused left => exact absurd hresult hgoes
        | fault reason =>
            rw [hresult] at hfirst
            exact hfirst.elim
      refine ⟨spelt, hgood, ?_, rfl⟩
      by_contra hfar
      have hlater := hall (enough + spelt.turns) (Nat.le_add_right _ _)
      rw [btcTxRead_spelt hgood hdata, if_neg hfar] at hlater
      exact hlater
  · rintro (haway | ⟨spelt, hgood, hnear, rfl⟩)
    · refine ⟨fun heap before => ⟨0, fun turns _ => ?_⟩, fun heap before => ⟨0, fun turns _ => ?_⟩,
        fun heap before st pos => turn_inside⟩
      · rw [WireReader.run, btcTxRead, bind_refused (readHead_turnedAway haway before)]
        trivial
      · rw [WireReader.run, btcTxReadDebug, bind_refused (readHead_turnedAway haway before)]
        trivial
    · have hcomplete : Complete spelt.bytes := ⟨spelt, hgood, rfl⟩
      refine ⟨fun heap before => ⟨spelt.turns, fun turns henough => ?_⟩,
        fun heap before => ⟨spelt.turns, fun turns henough => ?_⟩,
        fun heap before st pos => turn_inside⟩
      · rw [btcTxRead_near hgood hnear hdata heap before henough]
        exact hcomplete
      · rw [btcTxReadDebug_eq (btcTxRead_near hgood hnear hdata heap before henough)]
        exact hcomplete

/-- A transaction of version 2 with one input, whose script is given with three bytes of length,
and one output of 1 satoshi. -/
def longHand : SpeltTx where
  version := 2
  segwit := true
  vinCount := [0xfd, 1, 0]
  vin := [⟨List.replicate 32 7, 0, ⟨[0xfd, 0, 0], []⟩, 0xffffffff, [1], [⟨[2], [0x51, 0x52]⟩]⟩]
  voutCount := [1]
  vout := [⟨1, ⟨[1], [0x51]⟩⟩]
  locktime := 0

theorem longHand_readsRightly : ReadsRightly longHand.bytes := by
  have hgood : longHand.Good := by constructor <;> decide
  exact (readsRightly_iff (by decide)).mpr (.inr ⟨longHand, hgood, by decide, rfl⟩)

/-- Eight bytes that announce an input: without room for it, the numbers of inputs and outputs are
followed by a locktime of which two bytes are missing. -/
def cutShort : Bytes :=
  [2, 0, 0, 0, 1, 0, 0, 0]

theorem cutShort_not_readsRightly : cutShort.length < 2 ^ 32 ∧ ¬ ReadsRightly cutShort := by
  refine ⟨by decide, fun hright => ?_⟩
  obtain ⟨enough, hall⟩ := hright.release blankHeap blankTx
  have hfault : (btcTxRead blankHeap (enough + 4) blankTx).run cutShort =
      .fault .outOfBounds := by
    rfl
  have hread := hall (enough + 4) (Nat.le_add_right _ _)
  rw [hfault] at hread
  exact hread

end TxSerial

end Ptarmigan
